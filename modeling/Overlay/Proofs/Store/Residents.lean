import Overlay.Proofs.Store.Blocks

/-! What is in a store, whatever it is: under a key of a persistent store there may be bytes that
are no entry. -/
namespace Overlay

theorem Entry.answer_name (now : Timestamp) (q : NameQuery) (e : Entry) :
    e.answer now (.name q) =
      if e.kind = .nameRecord then
        if e.expiration.isExpired now then .error .expired else .ok e
      else .error .notFound := by
  have notAny : (BlockKind.nameRecord == .any) = false := rfl
  rw [answer, Query.kind, BlockKind.accepts, notAny, Bool.false_or]
  by_cases kind : e.kind = .nameRecord
  · rw [if_pos kind, kind]
    rfl
  · rw [if_neg kind, beq_false_of_ne (Ne.symm kind)]
    rfl

namespace Store
variable {s : Store}

/-- What is under a key, as far as it can be read. -/
def under? : Store → Digest → Option (Except EntryDamage Entry)
  | .memory s, key => (s.entries.lookup key).map .ok
  | .disk t, key => (t.get? key.bytes).map Entry.decode

theorem under?_put_other (s : Store) {q : Query} (e : Entry) {key : Digest} (other : key ≠ q.key) :
    (s.put q e).under? key = s.under? key := by
  cases s with
  | memory s => rw [put, under?, under?, MemoryStore.put, MemoryStore.lookup_insert, if_neg other]
  | disk t =>
    have apart : key.bytes ≠ (DiskStore.pair q e).1 := fun same =>
      other (Digest.bytes_injective same)
    rw [put, under?, under?, DiskStore.put, Tree.get?_insert, if_neg apart]

theorem get_eq (now : Timestamp) (s : Store) (q : Query) :
    s.get now q =
      match s.under? q.key with
      | none => .error .notFound
      | some (.error damage) => .error (.damaged damage)
      | some (.ok e) => e.answer now q := by
  cases s with
  | memory s =>
    rw [get, MemoryStore.get, under?]
    cases s.entries.lookup q.key <;> rfl
  | disk t =>
    rw [get, DiskStore.get, under?]
    cases t.get? q.key.bytes with
    | none => rfl
    | some value =>
      dsimp only [Option.map_some]
      cases Entry.decode value <;> rfl

theorem get_name_eq_ok_iff {now : Timestamp} {q : NameQuery} {e : Entry} :
    s.get now (.name q) = .ok e ↔
      s.under? q.key = some (.ok e) ∧ e.kind = .nameRecord ∧ ¬ e.expiration.isExpired now := by
  have key : (Query.name q).key = q.key := rfl
  rw [get_eq, key]
  rcases s.under? q.key with _ | _ | found
  · simp
  · simp
  · dsimp only
    rw [Option.some_inj, Except.ok.injEq, Entry.answer_name]
    by_cases kind : found.kind = .nameRecord
    · by_cases expired : found.expiration.isExpired now
      · rw [if_pos kind, if_pos expired]
        refine iff_of_false nofun ?_
        rintro ⟨rfl, -, unexpired⟩
        exact unexpired expired
      · rw [if_pos kind, if_neg expired, Except.ok.injEq]
        refine ⟨?_, And.left⟩
        rintro rfl
        exact ⟨rfl, kind, expired⟩
    · rw [if_neg kind]
      refine iff_of_false nofun ?_
      rintro ⟨rfl, named, -⟩
      exact kind named

/-- All that is in a store are entries with a property. In a persistent store they are written;
each is what its bytes are read as, if its lengths can be written. -/
def All (P : Digest → Entry → Prop) : Store → Prop
  | .memory s => ∀ pair ∈ s.entries, P pair.1 pair.2
  | .disk t => ∀ pair ∈ t.pairs, ∃ key e, pair.1 = key.bytes ∧ pair.2 = e.encode ∧
      (e.Fits → Entry.decode pair.2 = .ok e) ∧ P key e

variable {P : Digest → Entry → Prop}

theorem all_memory_empty : (Store.memory .empty).All P := List.forall_mem_nil _

theorem all_disk_empty : (Store.disk .empty).All P := List.forall_mem_nil _

theorem All.put {q : Query} {e : Entry} (all : s.All P) (holds : P q.key e) :
    (s.put q e).All P := by
  cases s with
  | memory s =>
    intro ⟨key, other⟩ member
    rw [MemoryStore.mem_entries_iff, MemoryStore.put, MemoryStore.lookup_insert] at member
    split at member
    · next same =>
      obtain rfl := Option.some.inj member
      exact same ▸ holds
    · exact all (key, other) (MemoryStore.mem_entries_iff.2 member)
  | disk t =>
    intro pair member
    rcases Tree.eq_or_mem_of_mem_insertPair member with rfl | before
    · exact ⟨q.key, e, rfl, rfl, fun fits => Entry.decode_encode fits, holds⟩
    · exact all pair before

end Store
end Overlay
