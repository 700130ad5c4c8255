import Mathlib.Data.List.Basic
import Overlay.Proofs.Store.Tree
import Overlay.Store.Memory

/-! The store of a running process by what it has under a key. -/
namespace Overlay.MemoryStore

theorem lookup_insert (key other : Digest) (e : Entry) (entries : List (Digest × Entry)) :
    (insert key e entries).lookup other = if other = key then some e else entries.lookup other := by
  fun_induction insert key e entries with
  | case1 => simp [lookup_cons_eq_ite]
  | case2 e' rest => by_cases same : other = key <;> simp [lookup_cons_eq_ite, same]
  | case3 key' e' rest differ ih =>
    by_cases same : other = key' <;> simp [lookup_cons_eq_ite, same, differ, ih]

variable {s : MemoryStore}

theorem mem_entries_iff {key : Digest} {e : Entry} :
    (key, e) ∈ s.entries ↔ s.entries.lookup key = some e :=
  mem_iff_lookup s.distinct

theorem lookup_prune_eq_some_iff {now : Timestamp} {key : Digest} {e : Entry} :
    (s.prune now).2.entries.lookup key = some e ↔
      s.entries.lookup key = some e ∧ ¬ e.expiration.isExpired now := by
  rw [← mem_entries_iff, ← mem_entries_iff, prune, List.mem_filter]
  simp

theorem prune_fst (now : Timestamp) (s : MemoryStore) :
    (s.prune now).1 = (s.entries.filter fun pair => pair.2.expiration.isExpired now).length := by
  have parts := List.length_eq_length_filter_add (l := s.entries)
    fun pair => pair.2.expiration.isExpired now
  rw [prune, size]
  dsimp only
  omega

end Overlay.MemoryStore
