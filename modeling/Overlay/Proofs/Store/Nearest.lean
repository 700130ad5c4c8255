import Overlay.Proofs.Digest
import Overlay.Store.Entry

/-! The nearest of several entries. Distances to different keys differ, so there is only one,
whatever the order in which the entries are looked at. -/
namespace Overlay

namespace Entry

/-- Whether a lookup may return an entry: it is not expired, of the kind that is asked for,
and not excluded. -/
def Candidate (now : Timestamp) (q : Query) (excluded : Entry → Bool) (e : Entry) : Prop :=
  e.expiration.isExpired now = false ∧ (q.kind = .any ∨ q.kind = e.kind) ∧ excluded e = false

theorem isCandidate_iff {now : Timestamp} {q : Query} {excluded : Entry → Bool} {e : Entry} :
    e.isCandidate now q excluded ↔ e.Candidate now q excluded := by
  simp [isCandidate, Candidate, BlockKind.accepts, and_assoc]

/-- The outcome of a lookup of the nearest entry, by the entries that are held under keys: none
if no candidate is held, else one whose key is nearer than that of any other. -/
inductive IsNearest (held : Digest → Entry → Prop) (now : Timestamp) (q : Query)
    (excluded : Entry → Bool) : Except StoreError (Entry × Distance) → Prop
  | absent (none : ∀ key e, held key e → ¬ e.Candidate now q excluded) :
      IsNearest held now q excluded (.error .notFound)
  | found {key : Digest} {e : Entry} (holds : held key e) (candidate : e.Candidate now q excluded)
      (nearest : ∀ key' e', held key' e' → e'.Candidate now q excluded → key' ≠ key →
        (q.key.distance key).compare (q.key.distance key') = .lt) :
      IsNearest held now q excluded (.ok (e, q.key.distance key))

theorem IsNearest.unique {held : Digest → Entry → Prop} {now : Timestamp} {q : Query}
    {excluded : Entry → Bool} {outcome other : Except StoreError (Entry × Distance)}
    (functional : ∀ key e e', held key e → held key e' → e = e')
    (first : IsNearest held now q excluded outcome)
    (second : IsNearest held now q excluded other) : outcome = other := by
  cases first with
  | absent none =>
    cases second with
    | absent => rfl
    | found holds candidate => exact absurd candidate (none _ _ holds)
  | @found key e holds candidate nearest =>
    cases second with
    | absent none => exact absurd candidate (none _ _ holds)
    | @found key' e' holds' candidate' nearest' =>
      by_cases same : key' = key
      · subst same
        rw [functional _ _ _ holds holds']
      · have less := nearest key' e' holds' candidate' same
        have greater := nearest' key e holds candidate (Ne.symm same)
        exact absurd greater (Std.OrientedCmp.not_lt_of_lt less)

theorem closest?_eq_none_iff {q : Query} {entries : List (Digest × Entry)} :
    closest? q entries = none ↔ entries = [] := by
  cases entries with
  | nil => simp [closest?]
  | cons pair rest =>
    simp only [closest?, reduceCtorEq, iff_false]
    split
    · simp
    · split <;> simp

theorem closest?_eq_some {q : Query} {entries : List (Digest × Entry)} {e : Entry} {d : Distance}
    (found : closest? q entries = some (e, d)) :
    ∃ key, (key, e) ∈ entries ∧ d = q.key.distance key ∧
      ∀ pair ∈ entries, (d.compare (q.key.distance pair.1)).isLE := by
  induction entries generalizing e d with
  | nil => simp [closest?] at found
  | cons pair rest ih =>
    obtain ⟨key, entry⟩ := pair
    simp only [closest?] at found
    split at found
    · next alone =>
      obtain rfl := closest?_eq_none_iff.1 alone
      obtain ⟨rfl, rfl⟩ := Prod.mk.inj (Option.some.inj found)
      exact ⟨key, List.mem_cons_self, rfl, List.forall_mem_singleton.2 Std.ReflCmp.isLE_rfl⟩
    · next e' d' other =>
      obtain ⟨key', member, rfl, least⟩ := ih other
      split at found
      · next nearer =>
        obtain ⟨rfl, rfl⟩ := Prod.mk.inj (Option.some.inj found)
        refine ⟨key', List.mem_cons_of_mem _ member, rfl, List.forall_mem_cons.2 ⟨?_, least⟩⟩
        rw [nearer]
        rfl
      · next notNearer =>
        obtain ⟨rfl, rfl⟩ := Prod.mk.inj (Option.some.inj found)
        have first : ((q.key.distance key).compare (q.key.distance key')).isLE := by
          rw [← Std.OrientedCmp.isGE_iff_isLE, Ordering.isGE_iff_ne_lt]
          exact notNearer
        exact ⟨key, List.mem_cons_self, rfl, List.forall_mem_cons.2 ⟨Std.ReflCmp.isLE_rfl,
          fun pair inRest => Std.TransCmp.isLE_trans first (least pair inRest)⟩⟩

/-- The nearest of some entries is found among them. -/
theorem isNearest_nearest (now : Timestamp) (q : Query) (excluded : Entry → Bool)
    (entries : List (Digest × Entry)) :
    IsNearest (fun key e => (key, e) ∈ entries) now q excluded
      (nearest now q excluded entries) := by
  have mem_iff (pair : Digest × Entry) :
      pair ∈ entries.filter (fun pair => pair.2.isCandidate now q excluded) ↔
        pair ∈ entries ∧ pair.2.Candidate now q excluded := by
    rw [List.mem_filter, isCandidate_iff]
  rw [nearest]
  split
  · next pair found =>
    obtain ⟨e, d⟩ := pair
    obtain ⟨key, member, rfl, least⟩ := closest?_eq_some found
    obtain ⟨holds, candidate⟩ := (mem_iff _).1 member
    refine .found holds candidate fun key' e' holds' candidate' differ => ?_
    have differs : q.key.distance key ≠ q.key.distance key' :=
      fun same => differ (q.key.distance_injective same).symm
    have asClose := least (key', e') ((mem_iff (key', e')).2 ⟨holds', candidate'⟩)
    exact Distance.compare_lt_of_isLE differs asClose
  · next none =>
    refine .absent fun key e holds candidate => ?_
    have member := (mem_iff (key, e)).2 ⟨holds, candidate⟩
    rw [closest?_eq_none_iff.1 none] at member
    exact List.not_mem_nil member

end Entry
end Overlay
