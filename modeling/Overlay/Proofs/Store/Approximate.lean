import Overlay.Proofs.Store.Residents

/-! The nearest entry of a store. What is under the routing keys decides which one it is, and not
the order in which a store, in memory or on disk, goes through its entries. -/
namespace Overlay

namespace Entry
variable {held : Digest → Entry → Prop} {now : Timestamp} {q : Query} {excluded : Entry → Bool}
  {outcome : Except StoreError (Entry × Distance)}

theorem IsNearest.eq_error_iff (nearest : IsNearest held now q excluded outcome)
    {fault : StoreError} :
    outcome = .error fault ↔
      fault = .notFound ∧ ∀ key e, held key e → ¬ e.Candidate now q excluded := by
  cases nearest with
  | absent none =>
    rw [Except.error.injEq]
    exact ⟨fun same => ⟨same.symm, none⟩, fun refused => refused.1.symm⟩
  | found holds candidate nearest =>
    simp only [reduceCtorEq, false_iff, not_and]
    intro _ none
    exact none _ _ holds candidate

theorem IsNearest.eq_ok_iff (functional : ∀ key e e', held key e → held key e' → e = e')
    (nearest : IsNearest held now q excluded outcome) {e : Entry} {d : Distance} :
    outcome = .ok (e, d) ↔
      ∃ key, held key e ∧ e.Candidate now q excluded ∧ d = q.key.distance key ∧
        ∀ key' e', held key' e' → e'.Candidate now q excluded → key' ≠ key →
          d.compare (q.key.distance key') = .lt := by
  constructor
  · rintro rfl
    cases nearest with
    | found holds candidate nearest => exact ⟨_, holds, candidate, rfl, nearest⟩
  · rintro ⟨key, holds, candidate, rfl, least⟩
    exact nearest.unique functional (.found holds candidate least)

end Entry

namespace Store

/-- The entries that can be read, in the order in which a store goes through them. -/
def entries : Store → List (Digest × Entry)
  | .memory s => s.entries
  | .disk t => DiskStore.entries t

variable {s : Store}

theorem mem_entries_iff {key : Digest} {e : Entry} :
    (key, e) ∈ s.entries ↔ s.under? key = some (.ok e) := by
  cases s with
  | memory s => simp [entries, under?, MemoryStore.mem_entries_iff]
  | disk t => simp [entries, under?, DiskStore.mem_entries_iff]

theorem getApprox_eq (s : Store) (now : Timestamp) (q : Query) (excluded : Entry → Bool) :
    s.getApprox now q excluded = Entry.nearest now q excluded s.entries := by
  cases s <;> rfl

/-- Entries are nearest among those under the keys of a store, in whatever order they are. -/
theorem isNearest_of_lists {order : List (Digest × Entry)}
    (listed : ∀ key e, (key, e) ∈ order ↔ s.under? key = some (.ok e)) (now : Timestamp)
    (q : Query) (excluded : Entry → Bool) :
    Entry.IsNearest (fun key e => s.under? key = some (.ok e)) now q excluded
      (Entry.nearest now q excluded order) := by
  have nearest := Entry.isNearest_nearest now q excluded order
  simpa only [listed] using nearest

/-- A lookup of the nearest entry finds none if and only if no entry under a key is a candidate:
not expired, of the kind that is asked for, and not excluded. Otherwise it finds the one candidate
whose key is nearer to the key of the query than that of any other, and says how far that is. In
which order the entries are gone through makes no difference. -/
theorem getApprox_nearest (s : Store) (now : Timestamp) (q : Query) (excluded : Entry → Bool) :
    (∀ fault, s.getApprox now q excluded = .error fault ↔
      fault = .notFound ∧
        ∀ key e, s.under? key = some (.ok e) → ¬ e.Candidate now q excluded) ∧
      (∀ e d, s.getApprox now q excluded = .ok (e, d) ↔
        ∃ key, s.under? key = some (.ok e) ∧ e.Candidate now q excluded ∧
          d = ⟨q.key.octets.xor key.octets⟩ ∧
          ∀ key' e', s.under? key' = some (.ok e') → e'.Candidate now q excluded → key' ≠ key →
            d.compare ⟨q.key.octets.xor key'.octets⟩ = .lt) ∧
      ∀ order : List (Digest × Entry),
        (∀ key e, (key, e) ∈ order ↔ s.under? key = some (.ok e)) →
          Entry.nearest now q excluded order = s.getApprox now q excluded := by
  have functional (key : Digest) (e e' : Entry) (first : s.under? key = some (.ok e))
      (second : s.under? key = some (.ok e')) : e = e' :=
    Except.ok.inj (Option.some.inj (first.symm.trans second))
  have nearest := isNearest_of_lists (fun _ _ => s.mem_entries_iff) now q excluded
  rw [← getApprox_eq] at nearest
  refine ⟨fun _ => nearest.eq_error_iff, fun _ _ => nearest.eq_ok_iff functional, ?order⟩
  case order =>
    intro order listed
    exact (isNearest_of_lists listed now q excluded).unique functional nearest

/-- The nearer of two entries is found from either end. -/
theorem getApprox_nearest_reversed :
    let near : Digest := ⟨.zero 64⟩
    let far : Digest := ⟨⟨List.replicate 64 1, rfl⟩⟩
    let first : Entry := ⟨.test, .never, [1], none⟩
    let second : Entry := ⟨.test, .never, [2], none⟩
    let s := ((Store.memory .empty).put (.plain ⟨far, .test, .none⟩) first).put
      (.plain ⟨near, .test, .none⟩) second
    let q : Query := .plain ⟨near, .any, .none⟩
    s.getApprox (.ofMicros 1) q (fun _ => false) = .ok (second, ⟨.zero 64⟩) ∧
      Entry.nearest (.ofMicros 1) q (fun _ => false) [(near, second), (far, first)] =
        s.getApprox (.ofMicros 1) q (fun _ => false) := by
  intro near far first second s q
  obtain ⟨-, found, order⟩ := getApprox_nearest s (.ofMicros 1) q fun _ => false
  have entries : s.entries = [(far, first), (near, second)] := by decide
  have under (key : Digest) (e : Entry) :
      s.under? key = some (.ok e) ↔ (key, e) = (far, first) ∨ (key, e) = (near, second) := by
    rw [← mem_entries_iff, entries, List.mem_pair]
  refine ⟨(found _ _).2 ⟨near, (under _ _).2 (.inr rfl), Entry.isCandidate_iff.1 (by decide),
    by decide, ?_⟩, order _ ?_⟩
  · intro key' e' held _ other
    obtain ⟨rfl, -⟩ | ⟨rfl, -⟩ := ((under key' e').1 held).imp Prod.mk.inj Prod.mk.inj
    · decide
    · exact absurd rfl other
  · intro key e
    rw [under, List.mem_pair, or_comm]

end Store
end Overlay
