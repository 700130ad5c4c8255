import Overlay.KeyFile
import Overlay.Proofs.Json.Text
import Overlay.Zone

/-! Secret seeds as JSON texts: a text is read as a seed exactly if it is a string of 64 digits, in
whichever of its spellings, and a seed is written with the digits in lower case. -/
namespace Overlay

theorem seedOfText_eq_ok_iff {value : String} {seed : Octets 32} :
    seedOfText value = .ok seed ↔
      value.toList.map Char.toLower = (Hex.encode seed.bytes).toList := by
  rw [← Hex.decode_eq_ok_iff, seedOfText, bind_eq_ok_iff]
  constructor
  · rintro ⟨b, read, sized⟩
    split at sized
    · next octets found =>
      obtain rfl := Except.ok.inj sized
      rw [mapError_eq_ok_iff.1 read, Octets.ofBytes?_eq_some_iff.1 found]
    · contradiction
  · intro read
    refine ⟨seed.bytes, mapError_eq_ok_iff.2 read, ?_⟩
    rw [Octets.ofBytes?_bytes]
    rfl

theorem exists_seedOfText_iff {value : String} :
    (∃ seed, seedOfText value = .ok seed) ↔
      value.length = 64 ∧ ∀ c ∈ value.toList, Hex.IsDigit c := by
  simp only [seedOfText_eq_ok_iff, Hex.encode, String.toList_ofList, ← String.length_toList]
  constructor
  · rintro ⟨seed, spelled⟩
    have sized := congrArg List.length spelled
    rw [List.length_map, Hex.length_flatMap_pair, seed.length_bytes] at sized
    exact ⟨sized, Hex.isDigit_of_spelled spelled⟩
  · rintro ⟨sized, isDigit⟩
    obtain ⟨b, length, spelled⟩ := Hex.exists_spelled (n := 32) isDigit sized
    exact ⟨⟨b, length⟩, spelled⟩

theorem readSeed_eq_ok_iff {cs rest : List Char} {result : Except Json.Cause (Octets 32)} :
    readSeed cs = .ok (result, rest) ↔
      ∃ value, Json.text cs = .ok (value, rest) ∧ seedOfText value = result := by
  simp only [readSeed, Json.Reader.bind_eq_ok_iff, Json.pure_eq_ok_iff]
  constructor
  · rintro ⟨value, _, read, same, rfl⟩
    exact ⟨value, read, same⟩
  · rintro ⟨value, read, same⟩
    exact ⟨value, rest, read, same, rfl⟩

theorem parseSeed_eq_ok_iff {s : String} {seed : Octets 32} :
    parseSeed s = .ok seed ↔ ∃ value, Json.Denotes s value ∧ seedOfText value = .ok seed := by
  simp only [← Json.run_text_eq_ok_iff, Json.Reader.run_eq_ok_iff, parseSeed]
  constructor
  · rintro ⟨rest, read, blank⟩
    obtain ⟨result, left, found, accepted⟩ := Json.Reader.bind_eq_ok_iff.1 read
    obtain ⟨value, text, rfl⟩ := readSeed_eq_ok_iff.1 found
    cases spelled : seedOfText value with
    | error cause =>
      rw [spelled] at accepted
      contradiction
    | ok seed =>
      rw [spelled] at accepted
      obtain ⟨rfl, rfl⟩ := Json.pure_eq_ok_iff.1 accepted
      exact ⟨value, ⟨left, text, blank⟩, spelled⟩
  · rintro ⟨value, ⟨rest, text, blank⟩, spelled⟩
    refine ⟨rest, ?_, blank⟩
    rw [Json.bind_of_eq_ok (readSeed_eq_ok_iff.2 ⟨value, text, spelled⟩)]
    rfl

theorem seedJson_eq (seed : Octets 32) : seedJson seed = "\"" ++ Hex.encode seed.bytes ++ "\"" := by
  have each : Hex.lowerDigits.all fun digit => Json.quoteChar digit == [digit] := by decide
  apply Json.quote_of_plain
  intro c member
  rw [Hex.encode, String.toList_ofList] at member
  obtain ⟨b, -, inPair⟩ := List.mem_flatMap.1 member
  exact eq_of_beq (List.all_eq_true.1 each c (Hex.mem_lowerDigits_of_mem_pair inPair))

theorem seedOfText_eq_ok_iff_seedJson {value : String} {seed : Octets 32} :
    seedOfText value = .ok seed ↔ seedJson seed = "\"" ++ value.map Char.toLower ++ "\"" := by
  rw [seedOfText_eq_ok_iff, seedJson_eq, ← String.toList_map, String.toList_inj,
    String.append_left_inj, String.append_right_inj, eq_comm]

theorem parseSeed_seedJson (seed : Octets 32) : parseSeed (seedJson seed) = .ok seed := by
  refine parseSeed_eq_ok_iff.2 ⟨Hex.encode seed.bytes, Json.denotes_quote _, ?_⟩
  rw [seedOfText_eq_ok_iff, ← Hex.decode_eq_ok_iff, Hex.decode_encode]

/-- A text is read as a seed if it is nothing but a string of 64 digits of either case. Writing
gives the same digits in lower case, and is undone by reading. -/
theorem parseSeed_exact (s : String) :
    (∀ k : PeerSecret, (parseSeed (seedJson k.seed)).map PeerSecret.mk = .ok k) ∧
      (∀ k : ZoneSecret, (parseSeed (seedJson k.seed)).map ZoneSecret.mk = .ok k) ∧
      ((∃ seed, parseSeed s = .ok seed) ↔ ∃ value, Json.Denotes s value ∧ value.length = 64 ∧
        ∀ c ∈ value.toList, Hex.IsDigit c) ∧
      ∀ value, Json.Denotes s value → ∀ seed, parseSeed s = .ok seed ↔
        seedJson seed = "\"" ++ value.map Char.toLower ++ "\"" := by
  refine ⟨?peer, ?zone, ?accepted, ?rewritten⟩
  case peer =>
    intro k
    rw [parseSeed_seedJson]
    rfl
  case zone =>
    intro k
    rw [parseSeed_seedJson]
    rfl
  case accepted =>
    simp only [parseSeed_eq_ok_iff, ← exists_seedOfText_iff]
    constructor
    · rintro ⟨seed, value, denotes, spelled⟩
      exact ⟨value, denotes, seed, spelled⟩
    · rintro ⟨value, denotes, seed, spelled⟩
      exact ⟨seed, value, denotes, spelled⟩
  case rewritten =>
    intro value denotes seed
    rw [parseSeed_eq_ok_iff, ← seedOfText_eq_ok_iff_seedJson]
    constructor
    · rintro ⟨other, denotesOther, spelled⟩
      rwa [denotes.unique denotesOther]
    · intro spelled
      exact ⟨value, denotes, spelled⟩

end Overlay
