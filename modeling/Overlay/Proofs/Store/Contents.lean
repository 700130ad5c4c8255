import Mathlib.Data.Finset.Card
import Mathlib.Data.List.Induction
import Overlay.Proofs.Store.Entry
import Overlay.Proofs.Store.Nearest
import Overlay.Store

/-! What a store holds, apart from how: a finite map from routing keys to entries, with the
answers that it gives. -/
namespace Overlay

namespace Store

/-- What is asked of a store. Byte strings of an entry that is stored are no longer than those
in memory can be. -/
inductive Operation where
  | put (q : Query) (e : Entry) (fits : e.Fits)
  | get (q : Query)
  | getFiltered (q : Query) (f : ResultFilter)
  | getApprox (q : Query) (excluded : Entry → Bool)
  | list
  | prune

/-- An operation and the clock reading at which it is carried out. -/
structure Step where
  now : Timestamp
  operation : Operation

/-- Whether an entry stays under a key: no other one is put there, and it is not expired when
such entries are removed. -/
def Step.Keeps (step : Step) (key : Digest) (e : Entry) : Prop :=
  match step.operation with
  | .put q _ _ => q.key ≠ key
  | .prune => ¬ e.expiration.isExpired step.now
  | _ => True

/-- The answer to an operation. Keys are listed in no order. -/
inductive Reply where
  | done
  | entry (outcome : Except StoreError Entry)
  | nearest (outcome : Except StoreError (Entry × Distance))
  | keys (keys : Multiset Digest)
  | removed (count : Nat)

def perform (s : Store) (step : Step) : Reply × Store :=
  match step.operation with
  | .put q e _ => (.done, s.put q e)
  | .get q => (.entry (s.get step.now q), s)
  | .getFiltered q f => (.entry (s.getFiltered step.now q f), s)
  | .getApprox q excluded => (.nearest (s.getApprox step.now q excluded), s)
  | .list => (.keys s.keys, s)
  | .prune => let (count, s) := s.prune step.now; (.removed count, s)

def run (s : Store) (steps : List Step) : Store := steps.foldl (fun s step => (s.perform step).2) s

def replies (s : Store) : List Step → List Reply
  | [] => []
  | step :: steps => (s.perform step).1 :: replies (s.perform step).2 steps

theorem getFiltered_eq (now : Timestamp) (s : Store) (q : Query) (f : ResultFilter) :
    s.getFiltered now q f =
      match s.get now q with
      | .error fault => .error fault
      | .ok e => if e.filteredBy f then .error .notFound else .ok e := by
  rw [getFiltered]
  cases s.get now q with
  | error fault => rfl
  | ok e =>
    rw [ok_bind]
    dsimp only
    split <;> rfl

end Store

/-- An entry for each of finitely many routing keys. -/
structure Contents where
  keys : Finset Digest
  lookup : Digest → Option Entry
  mem_keys_iff : ∀ key, key ∈ keys ↔ (lookup key).isSome

namespace Contents

def empty : Contents := ⟨∅, fun _ => none, by simp⟩

def put (m : Contents) (key : Digest) (e : Entry) : Contents where
  keys := insert key m.keys
  lookup other := if other = key then some e else m.lookup other
  mem_keys_iff other := by by_cases same : other = key <;> simp [same, m.mem_keys_iff]

theorem lookup_put (m : Contents) (key other : Digest) (e : Entry) :
    (m.put key e).lookup other = if other = key then some e else m.lookup other :=
  rfl

def expiredKeys (m : Contents) (now : Timestamp) : Finset Digest :=
  m.keys.filter fun key => (m.lookup key).any fun e => e.expiration.isExpired now

def prune (m : Contents) (now : Timestamp) : Contents where
  keys := m.keys \ m.expiredKeys now
  lookup key := if key ∈ m.expiredKeys now then none else m.lookup key
  mem_keys_iff key := by
    by_cases expired : key ∈ m.expiredKeys now <;> simp [expired, m.mem_keys_iff]

theorem mem_expiredKeys_iff {m : Contents} {now : Timestamp} {key : Digest} :
    key ∈ m.expiredKeys now ↔ ∃ e, m.lookup key = some e ∧ e.expiration.isExpired now := by
  rw [expiredKeys, Finset.mem_filter, m.mem_keys_iff]
  cases m.lookup key <;> simp

theorem lookup_prune_eq_some_iff {m : Contents} {now : Timestamp} {key : Digest} {e : Entry} :
    (m.prune now).lookup key = some e ↔
      m.lookup key = some e ∧ ¬ e.expiration.isExpired now := by
  rw [prune, Option.ite_none_left_eq_some, mem_expiredKeys_iff, and_comm]
  refine and_congr_right fun held => not_congr ?_
  simp [held]

def get (m : Contents) (now : Timestamp) (q : Query) : Except StoreError Entry :=
  match m.lookup q.key with
  | none => .error .notFound
  | some e =>
    if q.kind ≠ .any ∧ q.kind ≠ e.kind then .error .notFound
    else if e.expiration.isExpired now then .error .expired
    else .ok e

def getFiltered (m : Contents) (now : Timestamp) (q : Query) (f : ResultFilter) :
    Except StoreError Entry :=
  match m.get now q with
  | .error fault => .error fault
  | .ok e => if e.filterDigest.any f.containsDigest then .error .notFound else .ok e

/-- Whether a reply is the answer to an operation. -/
def Answers (m : Contents) (step : Store.Step) : Store.Reply → Prop :=
  match step.operation with
  | .put _ _ _ => fun reply => reply = .done
  | .get q => fun reply => reply = .entry (m.get step.now q)
  | .getFiltered q f => fun reply => reply = .entry (m.getFiltered step.now q f)
  | .getApprox q excluded => fun reply => ∃ outcome, reply = .nearest outcome ∧
      Entry.IsNearest (fun key e => m.lookup key = some e) step.now q excluded outcome
  | .list => fun reply => reply = .keys m.keys.val
  | .prune => fun reply => reply = .removed (m.expiredKeys step.now).card

def after (m : Contents) (step : Store.Step) : Contents :=
  match step.operation with
  | .put q e _ => m.put q.key e
  | .prune => m.prune step.now
  | _ => m

/-- Whether replies are the answers to some operations, one after the other. -/
inductive AnswersAll : Contents → List Store.Step → List Store.Reply → Prop
  | nil {m : Contents} : AnswersAll m [] []
  | cons {m : Contents} {step : Store.Step} {steps : List Store.Step} {reply : Store.Reply}
      {replies : List Store.Reply} (first : m.Answers step reply)
      (rest : AnswersAll (m.after step) steps replies) :
      AnswersAll m (step :: steps) (reply :: replies)

theorem Answers.unique {m : Contents} {step : Store.Step} {reply other : Store.Reply}
    (first : m.Answers step reply) (second : m.Answers step other) : reply = other := by
  obtain ⟨now, operation⟩ := step
  cases operation with
  | getApprox q excluded =>
    obtain ⟨outcome, rfl, nearest⟩ := first
    obtain ⟨outcome', rfl, nearest'⟩ := second
    have functional (key : Digest) (e e' : Entry) (holds : m.lookup key = some e)
        (holds' : m.lookup key = some e') : e = e' := Option.some.inj (holds.symm.trans holds')
    rw [nearest.unique functional nearest']
  | _ => exact first.trans second.symm

/-- Operations have only one sequence of answers. -/
theorem AnswersAll.unique {m : Contents} {steps : List Store.Step}
    {replies others : List Store.Reply} (first : m.AnswersAll steps replies)
    (second : m.AnswersAll steps others) : replies = others := by
  induction first generalizing others with
  | nil =>
    cases second
    rfl
  | cons answer _ ih =>
    cases second with
    | cons answer' rest' => rw [answer.unique answer', ih rest']

/-- What is held under a key after some operations on an empty store: the entry that was put
there last, if all operations since then have kept it. -/
def LastPut (steps : List Store.Step) (key : Digest) (e : Entry) : Prop :=
  ∃ earlier now q fits later, steps = earlier ++ ⟨now, .put q e fits⟩ :: later ∧ q.key = key ∧
    ∀ step ∈ later, step.Keeps key e

theorem not_lastPut_nil {key : Digest} {e : Entry} : ¬ LastPut [] key e := by
  rintro ⟨earlier, now, q, fits, later, steps, -⟩
  simp at steps

theorem lastPut_append_singleton {steps : List Store.Step} {step : Store.Step} {key : Digest}
    {e : Entry} :
    LastPut (steps ++ [step]) key e ↔
      (∃ q fits, step.operation = .put q e fits ∧ q.key = key) ∨
        LastPut steps key e ∧ step.Keeps key e := by
  constructor
  · rintro ⟨earlier, now, q, fits, later, whole, under, kept⟩
    rcases List.eq_nil_or_concat later with rfl | ⟨front, last, rfl⟩
    · obtain ⟨-, same⟩ := List.append_inj' whole rfl
      exact .inl ⟨q, fits, by rw [List.singleton_inj.1 same], under⟩
    · rw [List.concat_eq_append, ← List.cons_append, ← List.append_assoc] at whole
      obtain ⟨rfl, same⟩ := List.append_inj' whole rfl
      rw [List.concat_eq_append, List.forall_mem_append, List.forall_mem_singleton,
        ← List.singleton_inj.1 same] at kept
      exact .inr ⟨⟨earlier, now, q, fits, front, rfl, under, kept.1⟩, kept.2⟩
  · rintro (⟨q, fits, put, under⟩ | ⟨⟨earlier, now, q, fits, later, rfl, under, kept⟩, keeps⟩)
    · exact ⟨steps, step.now, q, fits, [], by rw [← put], under, List.forall_mem_nil _⟩
    · exact ⟨earlier, now, q, fits, later ++ [step], by simp, under,
        List.forall_mem_append.2 ⟨kept, List.forall_mem_singleton.2 keeps⟩⟩

/-- What is under a key after an operation was put there by it, or was there and is kept. -/
theorem lookup_after_eq_some_iff {m : Contents} {step : Store.Step} {key : Digest} {e : Entry} :
    (m.after step).lookup key = some e ↔
      (∃ q fits, step.operation = .put q e fits ∧ q.key = key) ∨
        m.lookup key = some e ∧ step.Keeps key e := by
  obtain ⟨now, operation⟩ := step
  cases operation with
  | put q e' fits =>
    by_cases same : key = q.key
    · simp only [after, lookup_put, same, if_true, Option.some_inj, Store.Step.Keeps, ne_eq,
        not_true_eq_false, and_false, or_false]
      constructor
      · rintro rfl
        exact ⟨q, fits, rfl, rfl⟩
      · rintro ⟨q', fits', whole, -⟩
        exact (Store.Operation.put.inj whole).2
    · simp [after, lookup_put, Store.Step.Keeps, same, Ne.symm same]
  | prune => simp [after, lookup_prune_eq_some_iff, Store.Step.Keeps]
  | _ => simp [after, Store.Step.Keeps]

theorem lookup_foldl_after {steps : List Store.Step} {key : Digest} {e : Entry} :
    (steps.foldl after empty).lookup key = some e ↔ LastPut steps key e := by
  -- From the right: the operation that decides what is held is looked for from the last one.
  induction steps using List.reverseRecOn with
  | nil => simp [empty, not_lastPut_nil]
  | append_singleton steps step ih =>
    rw [List.foldl_append, lastPut_append_singleton, ← ih, List.foldl_cons, List.foldl_nil,
      lookup_after_eq_some_iff]

end Contents
end Overlay
