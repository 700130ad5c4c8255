import Overlay.Proofs.Store.Contents
import Overlay.Proofs.Store.Disk
import Overlay.Proofs.Store.Memory

/-! The store in memory and the one on disk are the same store: each answers as a finite map
of entries does, so that which of them it is does not show. -/
namespace Overlay

namespace Contents
variable {m : Contents} {entries : List (Digest × Entry)}

/-- A list of the entries of a map, each of them once. -/
structure Lists (m : Contents) (entries : List (Digest × Entry)) : Prop where
  distinct : (entries.map Prod.fst).Nodup
  mem_iff : ∀ key e, (key, e) ∈ entries ↔ m.lookup key = some e

theorem Lists.isNearest (listed : m.Lists entries) (now : Timestamp) (q : Query)
    (excluded : Entry → Bool) :
    Entry.IsNearest (fun key e => m.lookup key = some e) now q excluded
      (Entry.nearest now q excluded entries) := by
  have nearest := Entry.isNearest_nearest now q excluded entries
  simpa only [listed.mem_iff] using nearest

theorem Lists.length_expired (listed : m.Lists entries) (now : Timestamp) :
    (entries.filter fun pair => pair.2.expiration.isExpired now).length =
      (m.expiredKeys now).card := by
  have keys : ((entries.filter fun pair => pair.2.expiration.isExpired now).map Prod.fst).toFinset =
      m.expiredKeys now := by
    ext key
    rw [mem_expiredKeys_iff]
    simp [listed.mem_iff]
  have distinct := listed.distinct.sublist
    ((List.filter_sublist (p := fun pair => pair.2.expiration.isExpired now)).map Prod.fst)
  rw [← keys, List.toFinset_card_of_nodup distinct, List.length_map]

end Contents

namespace MemoryStore
variable {s : MemoryStore} {m : Contents}

def Holds (s : MemoryStore) (m : Contents) : Prop :=
  ∀ key, s.entries.lookup key = m.lookup key

theorem Holds.lists (holds : s.Holds m) : m.Lists s.entries :=
  ⟨s.distinct, fun key e => by rw [mem_entries_iff, holds]⟩

theorem Holds.get (holds : s.Holds m) (now : Timestamp) (q : Query) :
    s.get now q = m.get now q := by
  rw [MemoryStore.get, Contents.get, holds]
  cases m.lookup q.key with
  | none => rfl
  | some e => exact e.answer_eq now q

theorem Holds.put (holds : s.Holds m) (q : Query) (e : Entry) :
    (s.put q e).Holds (m.put q.key e) := by
  intro key
  rw [MemoryStore.put, lookup_insert, Contents.lookup_put, holds]

theorem Holds.prune (holds : s.Holds m) (now : Timestamp) :
    (s.prune now).2.Holds (m.prune now) := by
  intro key
  apply Option.ext
  intro e
  rw [lookup_prune_eq_some_iff, Contents.lookup_prune_eq_some_iff, holds]

end MemoryStore

namespace DiskStore
variable {t : Tree} {m : Contents}

/-- The map of what a tree holds, apart from keys that are no digests. -/
structure Holds (t : Tree) (m : Contents) : Prop where
  get?_bytes : ∀ key : Digest, t.get? key.bytes = (m.lookup key).map Entry.encode
  fits : ∀ key e, m.lookup key = some e → e.Fits

theorem Holds.lists (holds : Holds t m) : m.Lists (entries t) := by
  refine ⟨nodup_entries t, fun key e => ?_⟩
  rw [mem_entries_iff, holds.get?_bytes]
  cases held : m.lookup key with
  | none => simp
  | some e' => simp [Entry.decode_encode (holds.fits key e' held)]

theorem Holds.get (holds : Holds t m) (now : Timestamp) (q : Query) :
    DiskStore.get now t q = m.get now q := by
  rw [DiskStore.get, Contents.get, holds.get?_bytes]
  cases held : m.lookup q.key with
  | none => rfl
  | some e =>
    simp only [Option.map_some, Entry.decode_encode (holds.fits q.key e held)]
    exact e.answer_eq now q

theorem Holds.put (holds : Holds t m) (q : Query) {e : Entry} (fits : e.Fits) :
    Holds (put t q e) (m.put q.key e) := by
  constructor
  · intro key
    have bytes_iff : key.bytes = q.key.bytes ↔ key = q.key :=
      ⟨Digest.bytes_injective, congrArg Digest.bytes⟩
    by_cases same : key = q.key <;>
      simp [DiskStore.put, pair, Tree.get?_insert, Contents.lookup_put, bytes_iff, same,
        holds.get?_bytes]
  · intro key e' held
    rw [Contents.lookup_put] at held
    split at held
    · exact Option.some.inj held ▸ fits
    · exact holds.fits key e' held

theorem Holds.prune (holds : Holds t m) (now : Timestamp) :
    Holds (prune now t).2 (m.prune now) := by
  constructor
  · intro key
    apply Option.ext
    intro value
    rw [get?_prune_eq_some_iff, holds.get?_bytes]
    simp only [Option.map_eq_some_iff, Contents.lookup_prune_eq_some_iff]
    constructor
    · rintro ⟨⟨e, held, rfl⟩, unexpired⟩
      rw [isExpired_bytes_encode (holds.fits key e held)] at unexpired
      exact ⟨e, ⟨held, unexpired⟩, rfl⟩
    · rintro ⟨e, ⟨held, unexpired⟩, rfl⟩
      refine ⟨⟨e, held, rfl⟩, ?_⟩
      rwa [isExpired_bytes_encode (holds.fits key e held)]
  · intro key e held
    exact holds.fits key e (Contents.lookup_prune_eq_some_iff.1 held).1

end DiskStore

namespace Store
variable {s : Store} {m : Contents}

def Holds : Store → Contents → Prop
  | .memory s, m => s.Holds m
  | .disk t, m => DiskStore.Holds t m

theorem Holds.put (holds : s.Holds m) (q : Query) {e : Entry} (fits : e.Fits) :
    (s.put q e).Holds (m.put q.key e) := by
  cases s with
  | memory s => exact MemoryStore.Holds.put holds q e
  | disk t => exact DiskStore.Holds.put holds q fits

theorem Holds.prune (holds : s.Holds m) (now : Timestamp) :
    (s.prune now).2.Holds (m.prune now) := by
  cases s with
  | memory s => exact MemoryStore.Holds.prune holds now
  | disk t => exact DiskStore.Holds.prune holds now

theorem Holds.get (holds : s.Holds m) (now : Timestamp) (q : Query) :
    s.get now q = m.get now q := by
  cases s with
  | memory s => exact MemoryStore.Holds.get holds now q
  | disk t => exact DiskStore.Holds.get holds now q

theorem Holds.getFiltered (holds : s.Holds m) (now : Timestamp) (q : Query) (f : ResultFilter) :
    s.getFiltered now q f = m.getFiltered now q f := by
  rw [getFiltered_eq, Contents.getFiltered, holds.get]
  cases m.get now q with
  | error fault => rfl
  | ok e =>
    dsimp only
    rw [e.filteredBy_eq]

theorem Holds.getApprox (holds : s.Holds m) (now : Timestamp) (q : Query)
    (excluded : Entry → Bool) :
    Entry.IsNearest (fun key e => m.lookup key = some e) now q excluded
      (s.getApprox now q excluded) := by
  cases s with
  | memory s => exact (MemoryStore.Holds.lists holds).isNearest now q excluded
  | disk t => exact (DiskStore.Holds.lists holds).isNearest now q excluded

theorem Holds.keys (holds : s.Holds m) : (s.keys : Multiset Digest) = m.keys.val := by
  cases s with
  | memory s =>
    have listed := MemoryStore.Holds.lists holds
    apply (Multiset.Nodup.ext (Multiset.coe_nodup.2 s.distinct) m.keys.nodup).2
    intro key
    simp [listed.mem_iff, m.mem_keys_iff, Option.isSome_iff_exists]
  | disk t =>
    apply (Multiset.Nodup.ext (Multiset.coe_nodup.2 (DiskStore.nodup_keys t)) m.keys.nodup).2
    intro key
    have bytes := DiskStore.Holds.get?_bytes holds key
    rw [Multiset.mem_coe, DiskStore.mem_keys_iff, bytes, Option.isSome_map, Finset.mem_val,
      m.mem_keys_iff]

theorem Holds.prune_fst (holds : s.Holds m) (now : Timestamp) :
    (s.prune now).1 = (m.expiredKeys now).card := by
  cases s with
  | memory s =>
    exact (s.prune_fst now).trans ((MemoryStore.Holds.lists holds).length_expired now)
  | disk t => exact (DiskStore.Holds.lists holds).length_expired now

theorem Holds.perform (holds : s.Holds m) (step : Step) :
    m.Answers step (s.perform step).1 ∧ (s.perform step).2.Holds (m.after step) := by
  obtain ⟨now, operation⟩ := step
  cases operation with
  | put q e fits => exact ⟨rfl, holds.put q fits⟩
  | get q => exact ⟨congrArg Reply.entry (holds.get now q), holds⟩
  | getFiltered q f => exact ⟨congrArg Reply.entry (holds.getFiltered now q f), holds⟩
  | getApprox q excluded => exact ⟨⟨_, rfl, holds.getApprox now q excluded⟩, holds⟩
  | list => exact ⟨congrArg Reply.keys holds.keys, holds⟩
  | prune => exact ⟨congrArg Reply.removed (holds.prune_fst now), holds.prune now⟩

theorem Holds.replies (holds : s.Holds m) (steps : List Step) :
    m.AnswersAll steps (s.replies steps) := by
  -- `Holds` is what each operation keeps, for the map as it is after that operation.
  induction steps generalizing s m with
  | nil => exact .nil
  | cons step steps ih => exact .cons (holds.perform step).1 (ih (holds.perform step).2)

theorem holds_empty_memory : (Store.memory .empty).Holds .empty := fun _ => rfl

theorem holds_empty_disk : (Store.disk .empty).Holds .empty where
  get?_bytes key := Tree.get?_empty key.bytes
  fits _ _ held := by contradiction

/-- Empty stores in memory and on disk answer the same, whatever is asked of them, and as the
map does that has under each key the entry that was put there last and not removed since. -/
theorem replies_memory_eq_disk (steps : List Step) :
    (Store.memory .empty).replies steps = (Store.disk .empty).replies steps ∧
      Contents.empty.AnswersAll steps ((Store.memory .empty).replies steps) ∧
      ∀ key e, (steps.foldl Contents.after .empty).lookup key = some e ↔
        Contents.LastPut steps key e := by
  have memory := holds_empty_memory.replies steps
  have disk := holds_empty_disk.replies steps
  exact ⟨memory.unique disk, memory, fun _ _ => Contents.lookup_foldl_after⟩

end Store
end Overlay
