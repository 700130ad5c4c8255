import Overlay.Proofs.Query.Verification

/-! A block that is checked and decrypted time and again. What is recalled of it is what the
query says of the block itself. Only the reason of a failed check is not recalled: from then on
the block counts as one with an invalid signature. -/
namespace Overlay.Verification

/-- What is asked about a block. -/
inductive Call where
  | check
  | decrypt

section Run
variable (C : Curve) (q : NameQuery) (b : NameBlock)

def after (v : Verification) : Call → Verification
  | .check => (v.check C q b).2
  | .decrypt => (v.decrypt C q b).2

def run (v : Verification) (calls : List Call) : Verification := calls.foldl (after C q b) v

def recheck : Except BlockError Unit :=
  (q.verify C (.name b)).mapError fun _ => .invalidSignature

/-- A state that recalls nothing but what the query says of the block. -/
structure Faithful (v : Verification) : Prop where
  checked_of_verified : v.verified → v.checked
  verified_iff : v.checked → (v.verified ↔ q.verify C (.name b) = .ok ())
  of_plaintext : ∀ p, v.plaintext = some p → v.verified ∧ q.decrypt (.name b) = .ok p

theorem faithful_start : start.Faithful C q b := ⟨nofun, nofun, nofun⟩

end Run

variable {C : Curve} {q : NameQuery} {b : NameBlock} {v : Verification}

theorem recheck_eq_ok_iff : recheck C q b = .ok () ↔ q.verify C (.name b) = .ok () :=
  mapError_eq_ok_iff

namespace Faithful
variable (faithful : v.Faithful C q b)
include faithful

theorem check_fst :
    (v.check C q b).1 = if v.checked then recheck C q b else q.verify C (.name b) := by
  rw [Verification.check]
  by_cases checked : v.checked
  · rw [if_pos checked, if_pos checked]
    by_cases verified : v.verified
    · rw [if_pos verified]
      exact (recheck_eq_ok_iff.2 ((faithful.verified_iff checked).1 verified)).symm
    · rw [if_neg verified, recheck]
      cases outcome : q.verify C (.name b) with
      | error fault => rfl
      | ok _ => exact absurd ((faithful.verified_iff checked).2 outcome) verified
  · rw [if_neg checked, if_neg checked]
    cases q.verify C (.name b) <;> rfl

/-- A check leaves its outcome behind, and what was decrypted before. -/
theorem check_snd :
    (v.check C q b).2 = ⟨true, decide (q.verify C (.name b) = .ok ()), v.plaintext⟩ := by
  obtain ⟨checked, verified, plaintext⟩ := v
  cases checked with
  | true =>
    have same : verified = decide (q.verify C (.name b) = .ok ()) := by
      rw [Bool.eq_iff_iff, decide_eq_true_iff]
      exact faithful.verified_iff rfl
    rw [same]
    rfl
  | false =>
    -- a check that fails leaves `verified` as it is, so it must have been false before
    have unverified : verified = false :=
      Bool.eq_false_of_not_eq_true fun verified => by
        simpa using faithful.checked_of_verified verified
    rw [Verification.check, unverified]
    cases q.verify C (.name b) <;> rfl

theorem check : (v.check C q b).2.Faithful C q b := by
  rw [faithful.check_snd]
  refine ⟨fun _ => rfl, fun _ => decide_eq_true_iff, fun p recalled => ?_⟩
  obtain ⟨verified, decrypted⟩ := faithful.of_plaintext p recalled
  have checked := faithful.checked_of_verified verified
  exact ⟨decide_eq_true ((faithful.verified_iff checked).1 verified), decrypted⟩

theorem check_eq_ok_iff : (v.check C q b).1 = .ok () ↔ q.verify C (.name b) = .ok () := by
  rw [faithful.check_fst]
  split
  · exact recheck_eq_ok_iff
  · exact Iff.rfl

theorem check_eq_error_iff {fault : BlockError} :
    (v.check C q b).1 = .error fault ↔
      ∃ first, q.verify C (.name b) = .error first ∧
        fault = if v.checked then .invalidSignature else first := by
  rw [faithful.check_fst, recheck]
  cases q.verify C (.name b) with
  | error first => split <;> simp [Except.mapError, eq_comm]
  | ok _ => split <;> simp [Except.mapError]

/-- A block that passes the check is decrypted as by the query, whether that was done before or
not. -/
theorem decrypt_eq :
    v.decrypt C q b =
      match (v.check C q b).1 with
      | .error fault => (.error fault, (v.check C q b).2)
      | .ok () => (q.decrypt (.name b),
          { (v.check C q b).2 with plaintext := (q.decrypt (.name b)).toOption }) := by
  have recalls := faithful.check.of_plaintext
  revert recalls
  rw [Verification.decrypt]
  rcases v.check C q b with ⟨_ | _, ⟨checked, verified, plaintext⟩⟩
  · intro _
    rfl
  · intro recalls
    cases plaintext with
    | none => cases q.decrypt (.name b) <;> rfl
    | some p =>
      rw [(recalls p rfl).2]
      rfl

theorem decrypt_fst :
    (v.decrypt C q b).1 = (do (v.check C q b).1; q.decrypt (.name b)) := by
  rw [faithful.decrypt_eq]
  cases (v.check C q b).1 <;> rfl

theorem decrypt : (v.decrypt C q b).2.Faithful C q b := by
  have later := faithful.check
  rw [faithful.decrypt_eq]
  cases outcome : (v.check C q b).1 with
  | error fault => exact later
  | ok _ =>
    refine ⟨later.checked_of_verified, later.verified_iff, fun p recalled => ⟨?_, ?_⟩⟩
    · rw [faithful.check_snd]
      exact decide_eq_true (faithful.check_eq_ok_iff.1 outcome)
    · cases decrypted : q.decrypt (.name b) with
      | error fault => simp [decrypted, Except.toOption] at recalled
      | ok p' => simpa [decrypted, Except.toOption] using recalled

theorem after (call : Call) : (v.after C q b call).Faithful C q b := by
  cases call with
  | check => exact faithful.check
  | decrypt => exact faithful.decrypt

theorem checked_after (call : Call) : (v.after C q b call).checked := by
  have checked : (v.check C q b).2.checked := by rw [faithful.check_snd]
  cases call with
  | check => exact checked
  | decrypt =>
    rw [Verification.after, faithful.decrypt_eq]
    split <;> exact checked

/-- Every call leaves the state faithful, and from the first one on the block is checked. -/
theorem run (calls : List Call) :
    (v.run C q b calls).Faithful C q b ∧
      ((v.run C q b calls).checked ↔ v.checked ∨ calls ≠ []) := by
  induction calls generalizing v with
  | nil => exact ⟨faithful, by simp [Verification.run]⟩
  | cons call calls ih =>
    obtain ⟨later, checked⟩ := ih (faithful.after call)
    refine ⟨later, checked.trans ?_⟩
    simp [faithful.checked_after call]

end Faithful

/-- Whatever was asked about a block before, a check comes out as that of the query does, and a
decryption as a check of the query and a decryption by the query after it. The one thing that is
lost is the reason of a failed check: after the first call it is an invalid signature. At any
time, what is recalled as verified was checked, and a plaintext that is recalled is the one that
the query finds in a verified block. -/
theorem run_transparent (C : Curve) (q : NameQuery) (b : NameBlock) (calls : List Call) :
    let v := start.run C q b calls
    ((v.check C q b).1 = .ok () ↔ q.verify C (.name b) = .ok ()) ∧
      (∀ p, (v.decrypt C q b).1 = .ok p ↔
        q.verify C (.name b) = .ok () ∧ q.decrypt (.name b) = .ok p) ∧
      (∀ fault, (v.check C q b).1 = .error fault ↔
        ∃ first, q.verify C (.name b) = .error first ∧
          fault = if calls = [] then first else .invalidSignature) ∧
      (∀ fault, (v.decrypt C q b).1 = .error fault ↔
        (∃ first, q.verify C (.name b) = .error first ∧
          fault = if calls = [] then first else .invalidSignature) ∨
        q.verify C (.name b) = .ok () ∧ q.decrypt (.name b) = .error fault) ∧
      (v.verified → v.checked) ∧
      ∀ p, v.plaintext = some p → v.verified ∧ q.decrypt (.name b) = .ok p := by
  intro v
  obtain ⟨faithful, checked⟩ : v.Faithful C q b ∧ (v.checked ↔ start.checked ∨ calls ≠ []) :=
    (faithful_start C q b).run calls
  have reason (first : BlockError) :
      (if v.checked then .invalidSignature else first) =
        if calls = [] then first else .invalidSignature := by
    by_cases fresh : calls = [] <;> simp [checked, fresh, start]
  have checkFault (fault : BlockError) :
      (v.check C q b).1 = .error fault ↔
        ∃ first, q.verify C (.name b) = .error first ∧
          fault = if calls = [] then first else .invalidSignature := by
    simpa only [reason] using faithful.check_eq_error_iff
  refine ⟨faithful.check_eq_ok_iff, fun p => ?plaintext, checkFault, fun fault => ?fault,
    faithful.checked_of_verified, faithful.of_plaintext⟩
  case plaintext =>
    rw [faithful.decrypt_fst, bind_eq_ok_iff]
    simp [faithful.check_eq_ok_iff]
  case fault =>
    rw [faithful.decrypt_fst, bind_eq_error_iff, checkFault]
    simp [faithful.check_eq_ok_iff]

/-- A block whose signer is no point is refused for its key once, and for its signature later. -/
theorem run_transparent_no_point :
    let key : ZoneKey := ⟨⟨2 :: List.replicate 31 0, rfl⟩⟩
    let q : NameQuery := ⟨key, "www", key, .none⟩
    let b : NameBlock := ⟨⟨key, .empty⟩, .never, []⟩
    q.verify ed25519 (.name b) = .error (.crypto (.invalidKey .undecodable)) ∧
      (start.decrypt ed25519 q b).1 = .error (.crypto (.invalidKey .undecodable)) ∧
      ((start.run ed25519 q b [.decrypt]).check ed25519 q b).1 = .error .invalidSignature := by
  intro key q b
  have noPoint : ed25519.decode key.key = none := Option.isNone_iff_eq_none.1 (by decide +kernel)
  have refused : q.verify ed25519 (.name b) = .error (.crypto (.invalidKey .undecodable)) := by
    simp [NameQuery.verify, NameBlock.verify, ZoneSignature.verify, ZoneKey.verify, Eddsa.verify,
      q, b, noPoint]
    rfl
  obtain ⟨-, -, -, first, -⟩ := run_transparent ed25519 q b []
  obtain ⟨-, -, later, -⟩ := run_transparent ed25519 q b [.decrypt]
  exact ⟨refused, (first _).2 (.inl ⟨_, refused, rfl⟩), (later _).2 ⟨_, refused, rfl⟩⟩

end Overlay.Verification
