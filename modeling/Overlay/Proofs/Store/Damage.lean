import Overlay.Proofs.Store.Disk

/-! A persistent store in a damaged tree. Its pairs can have keys of any length and values that are
no entries. Only a lookup by the key tells of such a value, and nothing but a write to its key
takes it away. -/
namespace Overlay

theorem Digest.map_bytes_filterMap_ofBytes? (keys : List Bytes) :
    (keys.filterMap ofBytes?).map bytes = keys.filter fun key => key.length = 64 := by
  induction keys with
  | nil => rfl
  | cons key keys ih =>
    by_cases sized : key.length = 64
    · have read : ofBytes? key = some ⟨⟨key, sized⟩⟩ := ofBytes?_eq_some_iff.2 rfl
      simp [read, sized, ih]
    · have unread : ofBytes? key = none := by
        refine Option.eq_none_iff_forall_ne_some.2 fun d read => sized ?_
        rw [ofBytes?_eq_some_iff.1 read, d.octets.length_eq]
      simp [unread, sized, ih]

theorem Entry.answer_ne_damaged (now : Timestamp) (q : Query) (e : Entry) (damage : EntryDamage) :
    e.answer now q ≠ .error (.damaged damage) := by
  rw [answer_eq]
  split
  · nofun
  · split <;> nofun

namespace DiskStore
variable {t : Tree} {now : Timestamp} {q : Query}

/-- Whether the key of a pair is a digest and its value can be read. -/
def IsReadable (key value : Bytes) : Prop := key.length = 64 ∧ (Entry.decode value).isOk

instance (key value : Bytes) : Decidable (IsReadable key value) :=
  inferInstanceAs (Decidable (_ ∧ _))

theorem get_eq_damaged_iff {damage : EntryDamage} :
    get now t q = .error (.damaged damage) ↔
      ∃ value, t.get? q.key.bytes = some value ∧ Entry.decode value = .error damage := by
  rw [get]
  cases t.get? q.key.bytes with
  | none => simp
  | some value =>
    dsimp only
    cases read : Entry.decode value with
    | error cause => simp [read]
    | ok e => simp [read, e.answer_ne_damaged]

theorem entries_filter_isReadable (t : Tree) :
    entries (t.filter fun pair => IsReadable pair.1 pair.2) = entries t := by
  refine entries_filter fun key value e read => decide_eq_true ⟨key.octets.length_eq, ?_⟩
  rw [read]
  rfl

theorem prune_prune (now : Timestamp) (t : Tree) :
    prune now (prune now t).2 = (0, (prune now t).2) := by
  have left (pair : Bytes × Bytes) (member : pair ∈ (prune now t).2.pairs) :
      ¬ IsExpired now pair.1 pair.2 :=
    (get?_prune_eq_some_iff.1 (Tree.mem_pairs_iff.1 member)).2
  rw [prune_eq now (prune now t).2]
  refine Prod.ext ?none ?same
  case none =>
    exact List.countP_eq_zero.2 fun pair member => by simp [left pair member]
  case same =>
    exact Tree.filter_eq_self fun pair member => decide_eq_true (left pair member)

/-- What a persistent store makes of any tree at all. A lookup fails over the value of its key
exactly if that is not the encoding of an entry with or without bytes behind it. A lookup of the
nearest entry goes by the pairs that can be read, and the list of keys by the length of the keys.
Pruning counts and removes the pairs that are expired entries, and then there are none. A write
leaves a value that is read back, also if more bytes come behind it. -/
theorem damage_contained (now : Timestamp) (t : Tree) :
    (∀ q damage, get now t q = .error (.damaged damage) ↔
      ∃ value, t.get? q.key.bytes = some value ∧ Entry.decode value = .error damage) ∧
      (∀ value e, Entry.decode value = .ok e ↔ e.Fits ∧ e.encode <+: value) ∧
      (∀ q excluded, getApprox now t q excluded =
        getApprox now (t.filter fun pair => IsReadable pair.1 pair.2) q excluded) ∧
      (keys t).map Digest.bytes = (t.pairs.map Prod.fst).filter (fun key => key.length = 64) ∧
      (prune now t).1 = (t.pairs.filter fun pair => IsExpired now pair.1 pair.2).length ∧
      (prune now t).2.pairs = (t.pairs.filter fun pair => ¬ IsExpired now pair.1 pair.2) ∧
      prune now (prune now t).2 = (0, (prune now t).2) ∧
      ∀ (q : Query) (e : Entry), (put t q e).get? q.key.bytes = some e.encode ∧
        (e.Fits → ∀ rest, Entry.decode (e.encode ++ rest) = .ok e) := by
  refine ⟨fun _ _ => get_eq_damaged_iff, fun _ _ => Entry.decode_eq_ok_iff, ?approx, ?keys, ?count,
    ?left, prune_prune now t, fun q e => ⟨?written, Entry.decode_encode_append⟩⟩
  case approx =>
    intro q excluded
    rw [getApprox, getApprox, entries_filter_isReadable]
  case keys =>
    rw [← Digest.map_bytes_filterMap_ofBytes?, List.filterMap_map]
    rfl
  case count =>
    rw [prune_eq, List.countP_eq_length_filter]
  case left =>
    rw [prune_eq]
    rfl
  case written =>
    rw [put, Tree.get?_insert]
    exact if_pos rfl

/-- A value that is no entry, an expired entry, and a key that is no digest. -/
theorem damage_contained_three :
    let damaged : Digest := ⟨.zero 64⟩
    let expired : Digest := ⟨⟨List.replicate 64 1, rfl⟩⟩
    let e : Entry := ⟨.test, .ofMicros 1, [7], none⟩
    let first := Tree.empty.insert damaged.bytes [3]
    let t := (first.insert expired.bytes e.encode).insert [2] e.encode
    e.Fits ∧ Entry.decode (e.encode ++ [9]) = .ok e ∧
      get (.ofMicros 2) t (.plain ⟨damaged, .any, .none⟩) = .error (.damaged .truncated) ∧
      (keys t).map Digest.bytes = [damaged.bytes, expired.bytes] ∧
      (prune (.ofMicros 2) t).1 = 1 ∧
      (prune (.ofMicros 2) t).2.pairs = [(damaged.bytes, [3]), ([2], e.encode)] := by
  intro damaged expired e first t
  have fits : e.Fits := ⟨by decide, nofun⟩
  obtain ⟨lookup, -, -, keys, count, left, -, written⟩ := damage_contained (.ofMicros 2) t
  refine ⟨fits, (written (.plain ⟨damaged, .any, .none⟩) e).2 fits [9],
    (lookup _ _).2 ⟨[3], by decide, by decide⟩, keys.trans ?_, count.trans ?_, left.trans ?_⟩
  · decide
  · decide
  · decide

end DiskStore
end Overlay
