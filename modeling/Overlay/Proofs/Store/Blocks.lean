import Overlay.Proofs.Registry
import Overlay.Proofs.Store.Contents
import Overlay.Proofs.Store.Disk
import Overlay.Proofs.Store.Memory

/-! Entries stand for the blocks that they were made of: a block is read again from the entry
that a store gives back, and filters know both by the same digest. -/
namespace Overlay

namespace Entry

theorem filterDigest_ofBlock (b : Block) : (ofBlock b).filterDigest = b.filterKey := by
  rw [ofBlock, filterDigest]
  cases b.filterKey with
  | none => rfl
  | some key => exact Digest.ofBytes?_eq_some_iff.2 rfl

theorem filteredBy_ofBlock (b : Block) (f : ResultFilter) :
    (ofBlock b).filteredBy f = f.contains b := by
  rw [filteredBy_eq, filterDigest_ofBlock, ResultFilter.contains]
  cases b.filterKey <;> rfl

theorem fits_ofBlock {b : Block} (short : b.bytes.length < UInt64.size) : (ofBlock b).Fits where
  data := short
  filterKey := by
    intro key known
    obtain ⟨digest, -, rfl⟩ := Option.map_eq_some_iff.1 known
    rw [Digest.bytes, Octets.length_bytes]
    decide

/-- Whether an entry is what a store keeps of a block, for those who read it with a registry. -/
structure StandsFor (r : Registry) (e : Entry) (b : Block) : Prop where
  parsed : r.parseBlock e.kind e.data = .ok b
  expiration : e.expiration = b.expiration
  filterDigest : e.filterDigest = b.filterKey

end Entry

namespace Store
variable {s : Store} {key : Digest} {e : Entry}

/-- An entry is under a key, whatever else the store holds. -/
def HasAt : Store → Digest → Entry → Prop
  | .memory s, key, e => s.entries.lookup key = some e
  | .disk t, key, e => t.get? key.bytes = some e.encode

theorem hasAt_put (s : Store) (q : Query) (e : Entry) : (s.put q e).HasAt q.key e := by
  cases s with
  | memory s =>
    have found := MemoryStore.lookup_insert q.key q.key e s.entries
    rwa [if_pos rfl] at found
  | disk t =>
    have found := Tree.get?_insert t q.key.bytes e.encode q.key.bytes
    rwa [if_pos rfl] at found

theorem HasAt.put (has : s.HasAt key e) {q : Query} (other : Entry) (differ : q.key ≠ key) :
    (s.put q other).HasAt key e := by
  cases s with
  | memory s =>
    have kept := MemoryStore.lookup_insert q.key key other s.entries
    rw [if_neg differ.symm] at kept
    exact kept.trans has
  | disk t =>
    have kept := Tree.get?_insert t q.key.bytes other.encode key.bytes
    rw [if_neg fun same => differ (Digest.bytes_injective same).symm] at kept
    exact kept.trans has

theorem HasAt.prune (has : s.HasAt key e) (fits : e.Fits) {now : Timestamp}
    (unexpired : ¬ e.expiration.isExpired now) : (s.prune now).2.HasAt key e := by
  cases s with
  | memory s => exact MemoryStore.lookup_prune_eq_some_iff.2 ⟨has, unexpired⟩
  | disk t =>
    apply DiskStore.get?_prune_eq_some_iff.2
    rw [DiskStore.isExpired_bytes_encode fits]
    exact ⟨has, unexpired⟩

theorem HasAt.perform (has : s.HasAt key e) (fits : e.Fits) {step : Step}
    (keeps : step.Keeps key e) : (s.perform step).2.HasAt key e := by
  obtain ⟨now, operation⟩ := step
  cases operation with
  | put q other _ => exact has.put other keeps
  | prune => exact has.prune fits keeps
  | _ => exact has

theorem HasAt.run (has : s.HasAt key e) (fits : e.Fits) {steps : List Step}
    (kept : ∀ step ∈ steps, step.Keeps key e) : (s.run steps).HasAt key e := by
  induction steps generalizing s with
  | nil => exact has
  | cons step steps ih =>
    obtain ⟨first, rest⟩ := List.forall_mem_cons.1 kept
    exact ih (has.perform fits first) rest

theorem HasAt.get {q : Query} (has : s.HasAt q.key e) (fits : e.Fits) (now : Timestamp) :
    s.get now q = e.answer now q := by
  cases s with
  | memory s =>
    have held : s.entries.lookup q.key = some e := has
    simp only [Store.get, MemoryStore.get, held]
  | disk t =>
    have held : t.get? q.key.bytes = some e.encode := has
    simp only [Store.get, DiskStore.get, held, Entry.decode_encode fits]

/-- A block that was read with a registry has the kind that it was read as, and is written as
the bytes that it was read from. Its entry stands for it. When that was put into a store, a
lookup under the same key gives it back until it expires, if it asks for the kind or any; with
a filter, if the filter has not seen the block. -/
theorem get_put_block (handlers : List Handler) {kind : BlockKind} {data : Bytes} {b : Block}
    (parsed : (Registry.ofHandlers handlers).parseBlock kind data = .ok b) :
    b.kind = kind ∧ b.bytes = data ∧
      (Entry.ofBlock b).StandsFor (Registry.ofHandlers handlers) b ∧
      ∀ (s : Store) (stored asked : Query) (steps : List Step) (now : Timestamp),
        data.length < UInt64.size →
        (∀ step ∈ steps, step.Keeps stored.key (.ofBlock b)) →
        asked.key = stored.key → asked.kind = .any ∨ asked.kind = b.kind →
        ¬ b.expiration.isExpired now →
        ((s.put stored (.ofBlock b)).run steps).get now asked = .ok (.ofBlock b) ∧
          ∀ f, ((s.put stored (.ofBlock b)).run steps).getFiltered now asked f =
            if f.contains b then .error .notFound else .ok (.ofBlock b) := by
  obtain ⟨rfl, rfl⟩ := Registry.written_of_parseBlock parsed
  refine ⟨rfl, rfl, ⟨parsed, rfl, Entry.filterDigest_ofBlock b⟩, ?_⟩
  intro s stored asked steps now short kept sameKey wanted unexpired
  have fits := Entry.fits_ofBlock short
  have has := (hasAt_put s stored (.ofBlock b)).run fits kept
  rw [← sameKey] at has
  have got : ((s.put stored (.ofBlock b)).run steps).get now asked = .ok (.ofBlock b) := by
    have accepted : ¬ (asked.kind ≠ .any ∧ asked.kind ≠ b.kind) := by
      intro ⟨notAny, other⟩
      exact wanted.elim notAny other
    rw [has.get fits now, Entry.answer_eq]
    exact (if_neg accepted).trans (if_neg unexpired)
  refine ⟨got, fun f => ?_⟩
  rw [getFiltered_eq, got]
  dsimp only
  rw [Entry.filteredBy_ofBlock]

theorem get_put_block_announcement :
    let h : Hello := ⟨⟨.zero 32⟩, .empty, .ofMicros 2, []⟩
    let handlers : List Handler := [.hello, .test, .hello]
    let stored : Query := .plain ⟨⟨.zero 64⟩, .hello, .none⟩
    let asked : Query := .plain ⟨⟨.zero 64⟩, .any, .none⟩
    let other : Query := .plain ⟨⟨⟨List.replicate 64 1, rfl⟩⟩, .test, .none⟩
    let steps : List Step :=
      [⟨.ofMicros 1, .put other (.ofBlock (.test [])) (Entry.fits_ofBlock (by decide))⟩,
        ⟨.ofMicros 1, .prune⟩]
    let s := ((Store.disk .empty).put stored (.ofBlock (.hello h))).run steps
    (Registry.ofHandlers handlers).parseBlock .hello h.bytes = .ok (.hello h) ∧
      s.get (.ofMicros 1) asked = .ok (.ofBlock (.hello h)) ∧
      ∀ f, s.getFiltered (.ofMicros 1) asked f =
        if f.contains (.hello h) then .error .notFound else .ok (.ofBlock (.hello h)) := by
  intro h handlers stored asked other steps s
  have decoded : Hello.decode h.bytes = .ok h := Hello.decode_bytes (by simp [h])
  have parsed : (Registry.ofHandlers handlers).parseBlock .hello h.bytes = .ok (.hello h) :=
    Registry.parseBlock_ofHandlers_eq_ok_iff.2
      (.inl ⟨.hello, by decide, rfl, map_eq_ok_iff.2 ⟨h, decoded, rfl⟩⟩)
  have kept : ∀ step ∈ steps, step.Keeps stored.key (.ofBlock (.hello h)) := by
    simp only [steps, List.forall_mem_cons, Step.Keeps]
    exact ⟨by decide, by decide, List.forall_mem_nil _⟩
  obtain ⟨-, -, -, readBack⟩ := get_put_block handlers parsed
  exact ⟨parsed, readBack (.disk .empty) stored asked steps (.ofMicros 1) (by decide) kept rfl
    (.inl rfl) (by decide)⟩

end Store
end Overlay
