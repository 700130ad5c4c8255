import Overlay.Address
import Overlay.Proofs.Text.Split

/-! What validity says of the parts of an address. A URI is read exactly as the well formed
address that it is written for, and what is none is refused for the first fault in it. -/
namespace Overlay.Address

theorem make_of_valid {a : Address} (valid : a.valid) : make a.scheme a.authority = .ok a := by
  obtain ⟨scheme, authority⟩ := Bool.and_eq_true_iff.1 valid
  simp [make, scheme, authority]

theorem isSchemeChar_of_validScheme {scheme : String} (valid : validScheme scheme = true)
    {c : Char} (member : c ∈ scheme.toList) : isSchemeChar c = true := by
  unfold validScheme at valid
  split at valid
  · contradiction
  · next first rest whole =>
    obtain ⟨letter, others⟩ := Bool.and_eq_true_iff.1 valid
    rw [whole] at member
    rcases List.mem_cons.1 member with rfl | inRest
    · simp [isSchemeChar, Char.isAlphanum, letter]
    · exact List.all_eq_true.1 others c inRest

/-- A letter, and after it letters, digits, plus signs, hyphens and dots, all in ASCII. -/
def SchemeText (scheme : String) : Prop :=
  ∃ first rest, scheme.toList = first :: rest ∧ first.isAlpha ∧
    ∀ c ∈ rest, c.isAlphanum ∨ c = '+' ∨ c = '-' ∨ c = '.'

def AuthorityText (authority : String) : Prop := authority ≠ "" ∧ '\x00' ∉ authority.toList

structure WellFormed (a : Address) : Prop where
  scheme : SchemeText a.scheme
  authority : AuthorityText a.authority

theorem validScheme_iff {scheme : String} : validScheme scheme = true ↔ SchemeText scheme := by
  unfold validScheme SchemeText
  cases whole : scheme.toList with
  | nil => simp
  | cons first rest =>
    have others : rest.all isSchemeChar = true ↔
        ∀ c ∈ rest, c.isAlphanum ∨ c = '+' ∨ c = '-' ∨ c = '.' := by
      simp [isSchemeChar, or_assoc]
    rw [Bool.and_eq_true_iff, others]
    constructor
    · intro formed
      exact ⟨first, rest, rfl, formed⟩
    · rintro ⟨_, _, same, formed⟩
      obtain ⟨rfl, rfl⟩ := List.cons.inj same
      exact formed

theorem validAuthority_iff {authority : String} :
    validAuthority authority = true ↔ AuthorityText authority := by
  simp [validAuthority, AuthorityText]

theorem valid_iff {a : Address} : a.valid = true ↔ a.WellFormed := by
  rw [valid, Bool.and_eq_true_iff, validScheme_iff, validAuthority_iff]
  exact ⟨fun ⟨scheme, authority⟩ => ⟨scheme, authority⟩, fun a => ⟨a.scheme, a.authority⟩⟩

instance (a : Address) : Decidable a.WellFormed := decidable_of_iff _ valid_iff

theorem make_eq_ok_iff {scheme authority : String} {a : Address} :
    make scheme authority = .ok a ↔ a = ⟨scheme, authority⟩ ∧ a.WellFormed := by
  constructor
  · intro made
    unfold make at made
    split at made
    · contradiction
    · next schemeValid =>
      split at made
      · contradiction
      · next authorityValid =>
        obtain rfl := Except.ok.inj made
        have valid : valid ⟨scheme, authority⟩ = true := by
          simp_all [valid]
        exact ⟨rfl, valid_iff.1 valid⟩
  · rintro ⟨rfl, formed⟩
    exact make_of_valid (valid_iff.2 formed)

theorem not_mem_scheme {scheme : String} (formed : SchemeText scheme) {c : Char}
    (other : isSchemeChar c = false) : c ∉ scheme.toList := by
  intro member
  have allowed := isSchemeChar_of_validScheme (validScheme_iff.2 formed) member
  exact Bool.false_ne_true (other.symm.trans allowed)

theorem toList_uri (a : Address) :
    a.uri.toList = a.scheme.toList ++ (separator ++ a.authority.toList) := by
  simp [uri, separator]

/-- A URI is read exactly as the well formed address that it is written for. -/
theorem parse_eq_ok_iff {uri : String} {a : Address} :
    parse uri = .ok a ↔ uri = a.uri ∧ a.WellFormed := by
  constructor
  · intro found
    unfold parse at found
    split at found
    · contradiction
    · next scheme authority split =>
      obtain ⟨rfl, formed⟩ := make_eq_ok_iff.1 found
      refine ⟨?_, formed⟩
      apply String.toList_inj.1
      rw [toList_uri, Text.eq_append_of_splitOnce split]
      simp
  · rintro ⟨rfl, formed⟩
    have free : ':' ∉ a.scheme.toList := not_mem_scheme formed.scheme (by decide)
    have split : Text.splitOnce separator a.uri.toList =
        some (a.scheme.toList, a.authority.toList) := by
      rw [toList_uri]
      exact Text.splitOnce_cons_append free _ _
    rw [parse, split]
    simp only [String.ofList_toList]
    exact make_eq_ok_iff.2 ⟨rfl, formed⟩

theorem make_eq_error_iff {scheme authority : String} {fault : AddressError} :
    make scheme authority = .error fault ↔
      ¬ SchemeText scheme ∧ fault = .invalidScheme scheme ∨
      SchemeText scheme ∧ ¬ AuthorityText authority ∧
        fault = .invalidUri (uri ⟨scheme, authority⟩) := by
  rw [← validScheme_iff, ← validAuthority_iff, make]
  cases validScheme scheme <;> cases validAuthority authority <;> simp [eq_comm]

/-- Why a text is no URI: nothing separates two parts in it, or the part in front of the first
separator is no scheme, or only the part behind it is at fault. -/
inductive Faulty (uri : String) : AddressError → Prop
  | unseparated (whole : ¬ separator <:+: uri.toList) : Faulty uri (.invalidUri uri)
  | scheme {scheme authority : String}
      (cut : Text.CutAtFirst separator uri.toList scheme.toList authority.toList)
      (bad : ¬ SchemeText scheme) : Faulty uri (.invalidScheme scheme)
  | authority {scheme authority : String}
      (cut : Text.CutAtFirst separator uri.toList scheme.toList authority.toList)
      (formed : SchemeText scheme) (bad : ¬ AuthorityText authority) :
      Faulty uri (.invalidUri uri)

theorem parse_of_cut {uri scheme authority : String}
    (cut : Text.CutAtFirst separator uri.toList scheme.toList authority.toList) :
    parse uri = make scheme authority := by
  rw [parse, Text.splitOnce_eq_some_iff.2 cut]
  simp only [String.ofList_toList]

theorem uri_of_cut {uri scheme authority : String}
    (cut : Text.CutAtFirst separator uri.toList scheme.toList authority.toList) :
    Address.uri ⟨scheme, authority⟩ = uri := by
  apply String.toList_inj.1
  rw [toList_uri, cut.whole]

theorem parse_eq_error_iff {uri : String} {fault : AddressError} :
    parse uri = .error fault ↔ Faulty uri fault := by
  constructor
  · intro refused
    cases split : Text.splitOnce separator uri.toList with
    | none =>
      rw [parse, split] at refused
      obtain rfl := Except.error.inj refused
      exact .unseparated (Text.splitOnce_eq_none_iff.1 split)
    | some parts =>
      obtain ⟨scheme, authority⟩ := parts
      have cut : Text.CutAtFirst separator uri.toList (String.ofList scheme).toList
          (String.ofList authority).toList := by
        simpa only [String.toList_ofList] using Text.splitOnce_eq_some_iff.1 split
      rw [parse_of_cut cut] at refused
      obtain ⟨bad, rfl⟩ | ⟨formed, bad, rfl⟩ := make_eq_error_iff.1 refused
      · exact .scheme cut bad
      · rw [uri_of_cut cut]
        exact .authority cut formed bad
  · intro faulty
    cases faulty with
    | unseparated whole => rw [parse, Text.splitOnce_eq_none_iff.2 whole]
    | scheme cut bad =>
      rw [parse_of_cut cut]
      exact make_eq_error_iff.2 (.inl ⟨bad, rfl⟩)
    | authority cut formed bad =>
      rw [parse_of_cut cut]
      exact make_eq_error_iff.2 (.inr ⟨formed, bad, by rw [uri_of_cut cut]⟩)

/-- Exactly the URIs of well formed addresses are read, each as the address that it is written
for, and every other text is refused for what is wrong with it. -/
theorem uri_exact (uri : String) :
    (∀ a : Address, parse uri = .ok a ↔ uri = a.uri ∧ a.WellFormed) ∧
      ∀ fault, parse uri = .error fault ↔ Faulty uri fault :=
  ⟨fun _ => parse_eq_ok_iff, fun _ => parse_eq_error_iff⟩

example : parse "tcp://a://b" = .ok ⟨"tcp", "a://b"⟩ := by rfl

end Overlay.Address
