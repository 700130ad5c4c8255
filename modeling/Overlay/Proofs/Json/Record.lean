import Overlay.Proofs.Json.Items

/-! A record is read from an object of all its fields, written in their order. -/
namespace Overlay.Json
variable {σ : Type} {blanks margin rest : List Char} {level : Nat} {first : Bool}

theorem nextName?_comma (cs : List Char) :
    nextName? false (',' :: cs) =
      (do
        match ← skipBlanks with
        | [] => stopAtEnd .endInValue
        | '\x7d' :: _ => stopAt .trailingComma
        | _ => return some (← readName) : Reader (Option String)) cs := rfl

theorem nextName?_quote (blank : Blank blanks) (name : String) (rest : List Char) :
    nextName? first (separator first ++ (blanks ++ ((quote name).toList ++ rest))) =
      .ok (some name, rest) := by
  have read := readName_quote name rest
  rw [toList_quote_append] at read ⊢
  cases first with
  | true =>
    rw [separator, if_pos rfl, List.nil_append, nextName?,
      bind_of_eq_ok (skipBlanks_append blank rfl)]
    exact bind_of_eq_ok read
  | false =>
    rw [separator, if_neg Bool.false_ne_true, List.singleton_append, nextName?_comma,
      bind_of_eq_ok (skipBlanks_append blank rfl)]
    exact bind_of_eq_ok read

theorem nextName?_end (blank : Blank blanks) :
    nextName? first (blanks ++ '\x7d' :: rest) = .ok (none, '\x7d' :: rest) := by
  rw [nextName?, bind_of_eq_ok (skipBlanks_append blank rfl)]
  rfl

theorem colon_cons (rest : List Char) : colon (':' :: rest) = .ok ((), rest) := rfl

namespace Record

/-- Reading the fields from what is written for them leads from `start` to `last`. -/
inductive Leads (last : σ) : (start : σ) → List (Field σ) → (written : List String) → Prop
  | done : Leads last last [] []
  | field {f : Field σ} {fields : List (Field σ)} {value : String} {values : List String}
      {start next : σ} (reads : Reads (f.read start) value.toList (.ok next))
      (others : Leads last next fields values) :
      Leads last start (f :: fields) (value :: values)

theorem Leads.value {α : Type} {read : Reader α} {written : String} {a : α}
    (reads : Reads read written.toList a) {name : String} {required : Bool} {put : σ → α → σ}
    {start last : σ} {fields : List (Field σ)} {values : List String}
    (others : Leads last (put start a) fields values) :
    Leads last start (.ofReader name required read put :: fields) (written :: values) :=
  .field (fun blanks rest blank ended => bind_of_eq_ok (reads blanks rest blank ended)) others

variable {r : Record σ}

theorem not_mem_of_nodup {front fields : List (Field σ)} {f : Field σ}
    (distinct : ((front ++ f :: fields).map Field.name).Nodup) : f.name ∉ front.map Field.name := by
  rw [List.map_append, List.map_cons] at distinct
  intro member
  exact (List.nodup_append.1 distinct).2.2 _ member _ List.mem_cons_self rfl

theorem find?_name {front fields : List (Field σ)} {f : Field σ}
    (distinct : ((front ++ f :: fields).map Field.name).Nodup) :
    ((front ++ f :: fields).find? fun other => other.name = f.name) = some f := by
  have none : (front.find? fun other => other.name = f.name) = none := by
    rw [List.find?_eq_none]
    intro other member same
    exact not_mem_of_nodup distinct (of_decide_eq_true same ▸ List.mem_map_of_mem member)
  rw [List.find?_append, none, Option.none_or]
  exact List.find?_cons_of_pos (decide_eq_true rfl)

def fieldLines (fields : List (Field σ)) (values : List String) : List String :=
  ((fields.map Field.name).zip values).map fun (name, value) => quote name ++ ": " ++ value

theorem itemLines_fieldLines (f : Field σ) (fields : List (Field σ)) (value : String)
    (values : List String) (tail : List Char) :
    itemLines level first (fieldLines (f :: fields) (value :: values)) ++ tail =
      separator first ++ (lineStart level ++ ((quote f.name).toList ++ (':' :: ([' '] ++
        (value.toList ++ (itemLines level false (fieldLines fields values) ++ tail)))))) := by
  simp [fieldLines, itemLines]

theorem Leads.length_fieldLines {start last : σ} {fields : List (Field σ)} {values : List String}
    (leads : Leads last start fields values) :
    (fieldLines fields values).length = fields.length := by
  induction leads with
  | done => rfl
  | field _ _ ih => exact congrArg Nat.succ ih

/-- The fields of `front` have been read, and so their names are given. -/
theorem readObject_itemLines {start last : σ} {fields : List (Field σ)} {values : List String}
    (leads : Leads last start fields values) (front : List (Field σ))
    (all : r.fields = front ++ fields) (distinct : (r.fields.map Field.name).Nodup)
    (blank : Blank margin) {fuel : List Char} (enough : fields.length < fuel.length) :
    r.readObject fuel first (front.map Field.name).reverse start
      (itemLines level first (fieldLines fields values) ++ (margin ++ '\x7d' :: rest)) =
        .ok (.ok last, '\x7d' :: rest) := by
  induction leads generalizing front fuel first with
  | done =>
    obtain ⟨d, fuel, rfl⟩ := List.exists_cons_of_length_pos enough
    have given : (r.fields.find? fun f =>
        f.required && !(front.map Field.name).reverse.contains f.name) = none := by
      rw [List.find?_eq_none]
      intro f member
      rw [all, List.append_nil] at member
      have named : f.name ∈ (front.map Field.name).reverse :=
        List.mem_reverse.2 (List.mem_map_of_mem member)
      rw [List.contains_iff_mem.2 named, Bool.not_true, Bool.and_false]
      exact Bool.false_ne_true
    have lines : itemLines level first (fieldLines ([] : List (Field σ)) []) = [] := rfl
    rw [readObject, lines, List.nil_append, bind_of_eq_ok (nextName?_end blank)]
    dsimp only
    rw [given]
    rfl
  | @field f fields value values start next reads others ih =>
    obtain ⟨d, fuel, rfl⟩ := List.exists_cons_of_length_pos (Nat.zero_lt_of_lt enough)
    have found := find?_name (all ▸ distinct)
    have unread : (front.map Field.name).reverse.contains f.name = false := by
      rw [← Bool.not_eq_true, List.contains_iff_mem, List.mem_reverse]
      exact not_mem_of_nodup (all ▸ distinct)
    have later := @ih false (front ++ [f]) (by rw [all, List.append_assoc]; rfl) fuel
      (Nat.lt_of_succ_lt_succ enough)
    rw [List.map_append, List.reverse_append] at later
    have closing : EndsNumber ('\x7d' :: rest) := endsNumber_cons (by decide) rest
    have ended := endsNumber_itemLines level (fieldLines fields values) blank closing
    rw [itemLines_fieldLines, readObject, bind_of_eq_ok (nextName?_quote (blank_lineStart level) f.name _)]
    dsimp only
    rw [all, found]
    dsimp only
    rw [unread, if_neg Bool.false_ne_true, bind_of_eq_ok (colon_cons _),
      bind_of_eq_ok (reads [' '] _ (List.forall_mem_singleton.2 rfl) ended)]
    exact later

theorem reads_writeObject {start last : σ} {values : List String}
    (distinct : (r.fields.map Field.name).Nodup) (leads : Leads last start r.fields values)
    (level : Nat) :
    Reads (r.read start) (writeObject level ((r.fields.map Field.name).zip values)).toList last := by
  intro blanks rest blank _
  have opens : "\x7b".toList = ['\x7b'] := rfl
  have closes : "\x7d".toList = ['\x7d'] := rfl
  obtain ⟨margin, inside, shown⟩ :=
    toList_block_append opens closes level (fieldLines r.fields values)
  have whole : writeObject level ((r.fields.map Field.name).zip values) =
    block level "\x7b" "\x7d" (fieldLines r.fields values) := rfl
  rw [whole, shown, Record.read, bind_of_eq_ok (skipBlanks_append blank rfl)]
  generalize lined : itemLines (level + 1) true (fieldLines r.fields values) ++
    (margin ++ '\x7d' :: rest) = cs
  have enough : r.fields.length < cs.length := by
    have listed := length_le_itemLines (level + 1) true (fieldLines r.fields values)
    rw [leads.length_fieldLines] at listed
    simp only [← lined, List.length_append, List.length_cons]
    omega
  have read : r.readObject cs true [] start cs = .ok (.ok last, '\x7d' :: rest) := by
    rw [← lined]
    exact readObject_itemLines leads [] rfl distinct inside (lined ▸ enough)
  change (r.readObject cs true [] start >>= settle closeObject) cs = _
  rw [bind_of_eq_ok read]
  rfl

end Record
end Overlay.Json
