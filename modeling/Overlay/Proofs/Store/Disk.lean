import Overlay.Proofs.Digest
import Overlay.Proofs.Store.Entry
import Overlay.Proofs.Store.Tree
import Overlay.Store.Disk

/-! The persistent store over any tree: of its pairs those count whose key is a digest, and
those are entries whose value can be read as well. -/
namespace Overlay.DiskStore
variable {t : Tree}

/-- The entry of a pair, with its key. -/
private def readable? (pair : Bytes × Bytes) : Option (Digest × Entry) := do
  return (← Digest.ofBytes? pair.1, ← (Entry.decode pair.2).toOption)

private theorem readable?_eq_some_iff {pair : Bytes × Bytes} {key : Digest} {e : Entry} :
    readable? pair = some (key, e) ↔ pair.1 = key.bytes ∧ Entry.decode pair.2 = .ok e := by
  obtain ⟨front, value⟩ := pair
  rw [← Digest.ofBytes?_eq_some_iff]
  simp only [readable?, bind]
  cases Digest.ofBytes? front <;> cases Entry.decode value <;> simp [Except.toOption]

private theorem entries_eq (t : Tree) : entries t = t.pairs.filterMap readable? := rfl

/-- Different keys stay different when those that are no digests are left out. -/
private theorem nodup_filterMap {α : Type} {f : Bytes × Bytes → Option α} {key : α → Digest}
    (keyed : ∀ pair a, f pair = some a → pair.1 = (key a).bytes) :
    ((t.pairs.filterMap f).map key).Nodup := by
  have distinct := t.distinct
  rw [List.Nodup, List.pairwise_map] at distinct ⊢
  refine distinct.filterMap f fun pair other differ a found b otherFound same => differ ?_
  rw [keyed pair a found, keyed other b otherFound, same]

theorem mem_entries_iff {key : Digest} {e : Entry} :
    (key, e) ∈ entries t ↔ ∃ value, t.get? key.bytes = some value ∧ Entry.decode value = .ok e := by
  simp only [entries_eq, List.mem_filterMap, readable?_eq_some_iff, ← Tree.mem_pairs_iff]
  constructor
  · rintro ⟨⟨front, value⟩, member, rfl, read⟩
    exact ⟨value, member, read⟩
  · rintro ⟨value, member, read⟩
    exact ⟨(key.bytes, value), member, rfl, read⟩

/-- A tree has the same entries without pairs that are none. -/
theorem entries_filter {keep : Bytes × Bytes → Bool}
    (keeps : ∀ (key : Digest) (value : Bytes) (e : Entry),
      Entry.decode value = .ok e → keep (key.bytes, value)) :
    entries (t.filter keep) = entries t := by
  rw [entries_eq, entries_eq, Tree.filter, List.filterMap_filter]
  refine List.filterMap_congr fun pair _ => ?_
  split
  · rfl
  · next left =>
    refine (Option.eq_none_iff_forall_ne_some.2 fun found read => left ?_).symm
    obtain ⟨key, readable⟩ := readable?_eq_some_iff.1 read
    obtain ⟨_, value⟩ := pair
    subst key
    exact keeps found.1 value found.2 readable

theorem nodup_entries (t : Tree) : ((entries t).map Prod.fst).Nodup :=
  nodup_filterMap fun _ _ found => (readable?_eq_some_iff.1 found).1

theorem mem_keys_iff {key : Digest} : key ∈ keys t ↔ (t.get? key.bytes).isSome := by
  simp only [keys, List.mem_filterMap, Digest.ofBytes?_eq_some_iff, Option.isSome_iff_exists,
    ← Tree.mem_pairs_iff]
  constructor
  · rintro ⟨⟨front, value⟩, member, rfl⟩
    exact ⟨value, member⟩
  · rintro ⟨value, member⟩
    exact ⟨(key.bytes, value), member, rfl⟩

theorem nodup_keys (t : Tree) : (keys t).Nodup := by
  have distinct : ((t.pairs.filterMap fun pair => Digest.ofBytes? pair.1).map id).Nodup :=
    nodup_filterMap fun _ _ found => Digest.ofBytes?_eq_some_iff.1 found
  rwa [List.map_id] at distinct

/-- Whether a pair is an entry that has expired. -/
def IsExpired (now : Timestamp) (key value : Bytes) : Prop :=
  ∃ (d : Digest) (e : Entry), key = d.bytes ∧ Entry.decode value = .ok e ∧
    e.expiration.isExpired now

instance (now : Timestamp) (key value : Bytes) : Decidable (IsExpired now key value) :=
  decidable_of_iff ((Digest.ofBytes? key).isSome ∧
      ∃ e ∈ (Entry.decode value).toOption, e.expiration.isExpired now) <| by
    simp only [IsExpired, Option.isSome_iff_exists, Digest.ofBytes?_eq_some_iff]
    cases Entry.decode value <;> simp [Except.toOption]

theorem isExpired_bytes_encode {now : Timestamp} {key : Digest} {e : Entry} (fits : e.Fits) :
    IsExpired now key.bytes e.encode ↔ e.expiration.isExpired now := by
  simp only [IsExpired, Entry.decode_encode fits, Except.ok.injEq]
  constructor
  · rintro ⟨d, e', -, same, expired⟩
    rwa [same]
  · exact fun expired => ⟨key, e, rfl, rfl, expired⟩

private theorem readable?_isExpired (now : Timestamp) (pair : Bytes × Bytes) :
    ((readable? pair).map fun found => found.2.expiration.isExpired now).getD false =
      decide (IsExpired now pair.1 pair.2) := by
  have found_iff : IsExpired now pair.1 pair.2 ↔
      ∃ found, readable? pair = some found ∧ found.2.expiration.isExpired now := by
    simp only [Prod.exists, readable?_eq_some_iff, IsExpired, and_assoc]
  rw [Bool.eq_iff_iff, decide_eq_true_iff, found_iff]
  cases readable? pair <;> simp

/-- Pruning counts the pairs that are expired entries and leaves the others. -/
theorem prune_eq (now : Timestamp) (t : Tree) :
    prune now t =
      (t.pairs.countP fun pair => IsExpired now pair.1 pair.2,
        t.filter fun pair => ¬ IsExpired now pair.1 pair.2) := by
  have removed : (prune now t).2 =
      (((entries t).filter fun pair => pair.2.expiration.isExpired now).map
        fun pair => pair.1.bytes).foldl Tree.remove t := by
    rw [List.foldl_map]
    rfl
  -- Removal goes by the key alone. That is enough, since a key has one value.
  have expired_iff (key value : Bytes) (member : (key, value) ∈ t.pairs) :
      key ∈ ((entries t).filter fun pair => pair.2.expiration.isExpired now).map
        (fun pair => pair.1.bytes) ↔ IsExpired now key value := by
    have held := Tree.mem_pairs_iff.1 member
    simp only [List.mem_map, List.mem_filter, Prod.exists, mem_entries_iff]
    constructor
    · rintro ⟨d, e, ⟨⟨value', held', read⟩, expired⟩, rfl⟩
      obtain rfl : value = value' := Option.some.inj (held.symm.trans held')
      exact ⟨d, e, rfl, read, expired⟩
    · rintro ⟨d, e, rfl, read, expired⟩
      exact ⟨d, e, ⟨⟨value, held, read⟩, expired⟩, rfl⟩
  refine Prod.ext ?count ?left
  case count =>
    have counted : (prune now t).1 =
        (entries t).countP fun pair => pair.2.expiration.isExpired now :=
      List.countP_eq_length_filter.symm
    rw [counted, entries_eq, List.countP_filterMap]
    exact congrArg (fun p => t.pairs.countP p) (funext (readable?_isExpired now))
  case left =>
    rw [removed, Tree.foldl_remove]
    refine Tree.filter_congr fun pair member => ?_
    exact decide_eq_decide.2 (not_congr (expired_iff pair.1 pair.2 member))

/-- Exactly the pairs that are expired entries are removed. -/
theorem get?_prune_eq_some_iff {now : Timestamp} {key value : Bytes} :
    (prune now t).2.get? key = some value ↔
      t.get? key = some value ∧ ¬ IsExpired now key value := by
  rw [prune_eq, Tree.get?_filter_eq_some_iff, decide_eq_true_iff]

end Overlay.DiskStore
