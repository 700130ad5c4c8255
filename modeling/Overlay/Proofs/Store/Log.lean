import Overlay.Files
import Overlay.Proofs.Octets.Varint
import Overlay.Proofs.Store.Tree
import Overlay.Store.Log

/-! A log is read as the tree that its records make, also after it has grown and its file has been
written over from where it had ended. -/
namespace Overlay

namespace Tree

theorem insertPair_of_mem {pairs : List (Bytes × Bytes)} (sorted : Ascending pairs)
    {key value : Bytes} (member : (key, value) ∈ pairs) : insertPair key value pairs = pairs := by
  fun_induction insertPair key value pairs with
  | case1 => contradiction
  | case2 key' value' rest less =>
    rcases List.mem_cons.1 member with same | later
    · cases same
      exact absurd less (Std.OrientedCmp.not_lt_of_lt less)
    · have greater := List.rel_of_pairwise_cons sorted later
      exact absurd less (Std.OrientedCmp.not_lt_of_lt greater)
  | case3 key' value' rest equal =>
    rcases List.mem_cons.1 member with same | later
    · rw [same]
    · have less := List.rel_of_pairwise_cons sorted later
      rw [← Std.LawfulEqOrd.eq_of_compare equal] at less
      exact absurd less (Std.OrientedCmp.not_lt_of_lt less)
  | case4 key' value' rest greater ih =>
    rcases List.mem_cons.1 member with same | later
    · cases same
      have less := Std.OrientedCmp.lt_of_gt greater
      exact absurd less (Std.OrientedCmp.not_lt_of_lt less)
    · rw [ih sorted.of_cons later]

theorem insert_of_get? {t : Tree} {key value : Bytes} (held : t.get? key = some value) :
    t.insert key value = t := by
  simp only [insert, insertPair_of_mem t.ascending (mem_pairs_iff.2 held)]

end Tree

namespace Log
variable {α β : Type} {b rest old key value : Bytes} {t t' : Tree}

/-- A reader that takes something off the front, whatever is behind it. -/
def TakesFront (read : Bytes → Option (α × Bytes)) : Prop :=
  ∀ b a rest, read b = some (a, rest) →
    ∃ front, b = front ++ rest ∧ ∀ rest', read (front ++ rest') = some (a, rest')

namespace TakesFront
variable {read read' : Bytes → Option (α × Bytes)}

theorem cut? (n : Nat) : TakesFront (Bytes.cut? · n) := by
  intro b front rest found
  obtain ⟨rfl, sized⟩ := Bytes.cut?_eq_some_iff.1 found
  exact ⟨front, rfl, fun rest' => Bytes.cut?_eq_some_iff.2 ⟨rfl, sized⟩⟩

theorem none : TakesFront fun _ => (Option.none : Option (α × Bytes)) := nofun

theorem given (a? : Option α) : TakesFront fun b => a?.bind fun a => some (a, b) := by
  cases a? with
  | none => exact none
  | some a =>
    intro b _ rest found
    cases found
    exact ⟨[], rfl, fun _ => rfl⟩

theorem ite {p : Prop} [Decidable p] (yes : TakesFront read) (no : TakesFront read') :
    TakesFront fun b => if p then read b else read' b := by
  by_cases holds : p
  · simpa only [if_pos holds] using yes
  · simpa only [if_neg holds] using no

theorem bind {next : α → Bytes → Option (β × Bytes)} (takes : TakesFront read)
    (others : ∀ a, TakesFront (next a)) :
    TakesFront fun b => (read b).bind fun (a, rest) => next a rest := by
  intro b c rest found
  obtain ⟨⟨a, left⟩, first, second⟩ := Option.bind_eq_some_iff.1 found
  obtain ⟨front, whole, again⟩ := takes b a left first
  obtain ⟨middle, rfl, after⟩ := others a left c rest second
  refine ⟨front ++ middle, whole.trans (List.append_assoc ..).symm, fun rest' => ?_⟩
  rw [List.append_assoc]
  exact Option.bind_eq_some_iff.2 ⟨(a, middle ++ rest'), again _, after rest'⟩

theorem map (takes : TakesFront read) (f : α → β) :
    TakesFront fun b => (read b).map fun (a, rest) => (f a, rest) := by
  intro b c rest found
  obtain ⟨⟨a, rest⟩, first, same⟩ := Option.map_eq_some_iff.1 found
  cases same
  obtain ⟨front, rfl, again⟩ := takes b a rest first
  exact ⟨front, rfl, fun rest' => Option.map_eq_some_iff.2 ⟨(a, rest'), again rest', rfl⟩⟩

theorem of_cons (nothing : read [] = Option.none) (each : ∀ x, TakesFront fun b => read (x :: b)) :
    TakesFront read := by
  intro b a rest found
  cases b with
  | nil => exact absurd (nothing.symm.trans found) nofun
  | cons x b =>
    obtain ⟨front, rfl, again⟩ := each x b a rest found
    exact ⟨x :: front, rfl, again⟩

theorem varint : TakesFront Varint.decode? := by
  refine of_cons rfl fun first => ?_
  unfold Varint.decode?
  refine ite ?_ (ite ?_ (ite ?_ ?_))
  · exact given (some _)
  · exact (cut? 1).map fun low => 240 + 256 * (first.toNat - 241) + BigEndian.decode low
  · exact (cut? 2).map fun low => 2288 + BigEndian.decode low
  · exact (cut? _).map BigEndian.decode

theorem sized : TakesFront sized? := varint.bind fun size => cut? size

theorem record : TakesFront record? := by
  have body (front body : Bytes) : TakesFront fun rest => if front = mark then
      (setting? body).bind fun pair => some (pair, rest) else Option.none :=
    ite (given (setting? body)) none
  exact (cut? _).bind fun front => sized.bind (body front)

end TakesFront

theorem sized?_sized_append (fits : b.length < UInt64.size) (rest : Bytes) :
    sized? (sized b ++ rest) = some (b, rest) := by
  have length := Varint.decode?_encode_append fits (b ++ rest)
  rw [sized?, sized, List.append_assoc, length]
  exact Bytes.cut?_eq_some_iff.2 ⟨rfl, rfl⟩

/-- The body of a record is not longer than a length can say. -/
def Fits (key value : Bytes) : Prop :=
  (setting :: (sized key ++ sized value)).length < UInt64.size

theorem fits_of_lt (short : key.length + value.length + 19 < UInt64.size) : Fits key value := by
  have first := Varint.length_encode_le (show key.length < UInt64.size by omega)
  have second := Varint.length_encode_le (show value.length < UInt64.size by omega)
  rw [Fits, List.length_cons, List.length_append, sized, sized, List.length_append,
    List.length_append]
  omega

theorem setting?_of_fits (fits : Fits key value) :
    setting? (setting :: (sized key ++ sized value)) = some (key, value) := by
  rw [Fits, List.length_cons, List.length_append, sized, sized, List.length_append,
    List.length_append] at fits
  have first := sized?_sized_append (b := key) (by omega) (sized value)
  have second := sized?_sized_append (b := value) (by omega) []
  rw [List.append_nil] at second
  rw [setting?, first]
  change (sized? (sized value)).bind _ = _
  rw [second]
  rfl

theorem record?_record_append (fits : Fits key value) (rest : Bytes) :
    record? (record key value ++ rest) = some ((key, value), rest) := by
  have front : (record key value ++ rest).cut? mark.length =
      some (mark, sized (setting :: (sized key ++ sized value)) ++ rest) :=
    Bytes.cut?_eq_some_iff.2 ⟨List.append_assoc .., rfl⟩
  rw [record?, front]
  change (sized? _).bind _ = _
  rw [sized?_sized_append fits]
  change (if mark = mark then (setting? _).bind _ else none) = _
  rw [if_pos rfl, setting?_of_fits fits]
  rfl

theorem record?_nil : record? [] = none := rfl

/-- Records that make one tree of another. -/
inductive Sets : Bytes → Tree → Tree → Prop
  | nil (t : Tree) : Sets [] t t
  | cons {first others key value : Bytes} {t t' : Tree}
      (reads : ∀ rest, record? (first ++ rest) = some ((key, value), rest))
      (after : Sets others (t.insert key value) t') : Sets (first ++ others) t t'

namespace Sets

theorem append {b b' : Bytes} {t t' t'' : Tree} (front : Sets b t t') (back : Sets b' t' t'') :
    Sets (b ++ b') t t'' := by
  induction front with
  | nil => exact back
  | cons reads _ ih =>
    rw [List.append_assoc]
    exact .cons reads (ih back)

theorem record (fits : Fits key value) (t : Tree) :
    Sets (Log.record key value) t (t.insert key value) := by
  have sets := Sets.cons (record?_record_append fits) (.nil (t.insert key value))
  rwa [List.append_nil] at sets

theorem ne_nil_of_reads {first : Bytes} {pair : Bytes × Bytes}
    (reads : ∀ rest, record? (first ++ rest) = some (pair, rest)) : first ≠ [] := by
  rintro rfl
  exact absurd (reads []) nofun

/-- The fuel is enough, since no record is empty. -/
theorem scan_append (sets : Sets b t t') (ended : record? rest = none) {fuel : Nat}
    (enough : b.length ≤ fuel) : scan fuel t (b ++ rest) = (t', rest) := by
  induction sets generalizing fuel with
  | nil t =>
    cases fuel with
    | zero => rfl
    | succ fuel => rw [List.nil_append, scan, ended]
  | @cons first others key value t t' reads after ih =>
    have taken := List.length_pos_iff.2 (ne_nil_of_reads reads)
    rw [List.length_append] at enough
    obtain ⟨fuel, rfl⟩ := Nat.exists_eq_add_one.2 (Nat.lt_of_lt_of_le taken (by omega : _ ≤ fuel))
    rw [List.append_assoc, scan, reads]
    exact ih (by omega)

theorem of_scan (fuel : Nat) (t : Tree) (b : Bytes) :
    ∃ front, b = front ++ (scan fuel t b).2 ∧ Sets front t (scan fuel t b).1 ∧
      (b.length ≤ fuel → record? (scan fuel t b).2 = none) := by
  induction fuel generalizing t b with
  | zero =>
    refine ⟨[], rfl, .nil t, fun empty => ?_⟩
    rw [scan, List.eq_nil_of_length_eq_zero (Nat.le_zero.1 empty), record?_nil]
  | succ fuel ih =>
    cases found : record? b with
    | none =>
      have stopped : scan (fuel + 1) t b = (t, b) := by rw [scan, found]
      rw [stopped]
      exact ⟨[], rfl, .nil t, fun _ => found⟩
    | some result =>
      obtain ⟨⟨key, value⟩, rest⟩ := result
      obtain ⟨first, rfl, reads⟩ := TakesFront.record b _ _ found
      have continued : scan (fuel + 1) t (first ++ rest) = scan fuel (t.insert key value) rest := by
        rw [scan, found]
      obtain ⟨others, whole, sets, ended⟩ := ih (t.insert key value) rest
      have taken := List.length_pos_iff.2 (ne_nil_of_reads reads)
      rw [continued]
      refine ⟨first ++ others, ?_, .cons reads sets, fun enough => ended ?_⟩
      · rw [List.append_assoc, ← whole]
      · rw [List.length_append] at enough
        omega

end Sets

/-- Bytes that are a log of a tree up to their end. -/
def Holds (b : Bytes) (t : Tree) : Prop := ∃ records, b = opening ++ records ∧ Sets records .empty t

theorem holds_opening : Holds opening .empty := ⟨[], (List.append_nil _).symm, .nil _⟩

theorem Holds.append_record (holds : Holds b t) (fits : Fits key value) :
    Holds (b ++ record key value) (t.insert key value) := by
  obtain ⟨records, rfl, sets⟩ := holds
  exact ⟨records ++ record key value, List.append_assoc .., sets.append (.record fits t)⟩

/-- A log ends where no record follows. -/
theorem read?_eq_some_iff {length : Nat} :
    read? b = some (t, length) ↔ ∃ front tail, b = front ++ tail ∧ front.length = length ∧
      Holds front t ∧ record? tail = none := by
  have cut (rest : Bytes) : (opening ++ rest).cut? opening.length = some (opening, rest) :=
    Bytes.cut?_eq_some_iff.2 ⟨rfl, rfl⟩
  have scanned (rest : Bytes) : read? (opening ++ rest) =
      some ((scan rest.length .empty rest).1,
        (opening ++ rest).length - (scan rest.length .empty rest).2.length) := by
    rw [read?, cut]
    change (if opening = opening then _ else none) = _
    exact if_pos rfl
  constructor
  · intro found
    obtain ⟨⟨front, rest⟩, opened, same⟩ := Option.bind_eq_some_iff.1 found
    obtain ⟨rfl, -⟩ := Bytes.cut?_eq_some_iff.1 opened
    dsimp only at same
    split at same
    · next begins =>
      subst begins
      obtain ⟨records, whole, sets, ended⟩ := Sets.of_scan rest.length .empty rest
      rw [scanned] at found
      cases found
      refine ⟨opening ++ records, _, ?_, ?_, ⟨records, rfl, sets⟩, ended (Nat.le_refl _)⟩
      · rw [List.append_assoc, ← whole]
      · have total := congrArg List.length whole
        rw [List.length_append] at total
        rw [List.length_append, List.length_append]
        omega
    · contradiction
  · rintro ⟨_, tail, rfl, rfl, ⟨records, rfl, sets⟩, ended⟩
    have enough : records.length ≤ (records ++ tail).length := by
      rw [List.length_append]
      omega
    rw [List.append_assoc, scanned, sets.scan_append ended enough]
    simp only [List.length_append, Option.some.injEq, Prod.mk.injEq, true_and]
    omega

theorem read?_of_holds (holds : Holds b t) : read? b = some (t, b.length) :=
  read?_eq_some_iff.2 ⟨b, [], (List.append_nil b).symm, rfl, holds, record?_nil⟩

def tree (b : Bytes) : Tree :=
  match read? b with
  | some (t, _) => t
  | none => .empty

/-- The tree that a log is taken up with, and where the log goes on. -/
def resume (b : Bytes) : Tree × Growth :=
  match read? b with
  | some (t, length) => (t, .nothing length)
  | none => (.empty, .fresh)

theorem resume_fst (b : Bytes) : (resume b).1 = tree b := by
  rw [resume, tree]
  rcases read? b with _ | ⟨t, length⟩ <;> rfl

/-- A log that what it goes on with leaves nothing of behind. -/
def IsWhole (b : Bytes) : Prop := b.length ≤ (resume b).2.offset + (resume b).2.bytes.length

theorem isWhole_nil : IsWhole [] := Nat.zero_le _

theorem Holds.isWhole (holds : Holds b t) : IsWhole b := by
  rw [IsWhole, resume, read?_of_holds holds]
  exact Nat.le_add_right ..

theorem Holds.tree_eq (holds : Holds b t) : tree b = t := by
  rw [tree, read?_of_holds holds]

namespace Growth
variable {g : Growth}

/-- Written over the end of an old log, what was gained makes it one of a tree. -/
structure Extends (g : Growth) (old : Bytes) (t : Tree) : Prop where
  inside : g.offset ≤ old.length
  covers : old.length ≤ g.offset + g.bytes.length
  holds : Holds (old.take g.offset ++ g.bytes) t

theorem extends_resume (whole : IsWhole old) : (resume old).2.Extends old (resume old).1 := by
  rw [IsWhole] at whole
  revert whole
  rw [resume]
  cases found : read? old with
  | none => exact fun short => ⟨Nat.zero_le _, short, holds_opening⟩
  | some log =>
    obtain ⟨t, length⟩ := log
    obtain ⟨front, tail, rfl, rfl, holds, -⟩ := read?_eq_some_iff.1 found
    refine fun whole => ⟨List.length_append ▸ Nat.le_add_right .., whole, ?_⟩
    dsimp only [nothing]
    rwa [List.take_left, List.append_nil]

namespace Extends

theorem set (grown : g.Extends old t) (fits : Fits key value) :
    (g.set t key value).Extends old (t.insert key value) := by
  rw [Growth.set]
  split
  · next held => rwa [Tree.insert_of_get? held]
  · refine ⟨grown.inside, ?_, ?_⟩
    · have covers := grown.covers
      dsimp only
      rw [List.length_append]
      omega
    · dsimp only
      rw [← List.append_assoc]
      exact grown.holds.append_record fits

theorem holds_patch (grown : g.Extends old t) : Holds (Files.patch old g.offset g.bytes) t := by
  have gap : g.offset - old.length = 0 := Nat.sub_eq_zero_of_le grown.inside
  rw [Files.patch, gap, List.drop_of_length_le grown.covers, List.replicate_zero, List.append_nil,
    List.append_nil]
  exact grown.holds

end Extends
end Growth

theorem extends_build {pairs : List (Bytes × Bytes)} (fits : ∀ pair ∈ pairs, Fits pair.1 pair.2) :
    (build pairs).2.Extends [] (build pairs).1 := by
  apply List.foldlRecOn (motive := fun built : Tree × Growth => built.2.Extends [] built.1) pairs
  · exact ⟨Nat.zero_le _, Nat.zero_le _, holds_opening⟩
  · intro built grown pair member
    exact grown.set (fits pair member)

/-- The log of pairs that are set one after the other is read as their tree. -/
theorem read?_build {pairs : List (Bytes × Bytes)} (fits : ∀ pair ∈ pairs, Fits pair.1 pair.2) :
    read? (build pairs).2.bytes = some ((build pairs).1, (build pairs).2.bytes.length) := by
  have built := (extends_build fits).holds
  rw [List.take_nil, List.nil_append] at built
  exact read?_of_holds built

end Log
end Overlay
