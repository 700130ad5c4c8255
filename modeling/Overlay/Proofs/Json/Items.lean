import Overlay.Json.Reader
import Overlay.Json.Writer
import Overlay.Proofs.Json.Text

/-! What stands between brackets: items with a separator in front, but for the first, and with
blanks for their line. A list of strings is read from what it is written as. -/
namespace Overlay.Json
variable {blanks margin rest : List Char} {level : Nat} {first : Bool}

/-- What is in front of an item on a line of its own. -/
def lineStart (level : Nat) : List Char := '\n' :: List.replicate (2 * level) ' '

theorem blank_lineStart (level : Nat) : Blank (lineStart level) := by
  intro c member
  rcases List.mem_cons.1 member with rfl | member
  · rfl
  · rw [List.eq_of_mem_replicate member]
    rfl

def separator (first : Bool) : List Char := if first then [] else [',']

def itemLines (level : Nat) : (first : Bool) → List String → List Char
  | _, [] => []
  | first, item :: items =>
    separator first ++ (lineStart level ++ (item.toList ++ itemLines level false items))

theorem intercalate_lines (level : Nat) (item : String) (items : List String) :
    [','].intercalate ((item :: items).map fun item => lineStart level ++ item.toList) =
      itemLines level true (item :: items) := by
  induction items generalizing item with
  | nil => simp [itemLines, separator]
  | cons next items ih =>
    have others := ih next
    rw [List.map_cons] at others
    rw [List.map_cons, List.map_cons, List.intercalate_cons_cons, others]
    simp [itemLines, separator]

theorem toList_block_append {left right : String} {opening closing : Char}
    (opens : left.toList = [opening]) (closes : right.toList = [closing]) (level : Nat)
    (items : List String) :
    ∃ margin, Blank margin ∧ ∀ rest, (block level left right items).toList ++ rest =
      opening :: (itemLines (level + 1) true items ++ (margin ++ closing :: rest)) := by
  cases items with
  | nil =>
    refine ⟨[], List.forall_mem_nil _, fun rest => ?_⟩
    simp [block, opens, closes, itemLines]
  | cons item items =>
    refine ⟨lineStart level, blank_lineStart level, fun rest => ?_⟩
    have indent (level : Nat) :
        ("\n" ++ String.ofList (List.replicate (2 * level) ' ')).toList = lineStart level := by
      simp [lineStart]
    have comma : ",".toList = [','] := rfl
    simp only [block, List.isEmpty_cons, Bool.false_eq_true, if_false, String.toList_append,
      String.toList_intercalate, List.map_map, Function.comp_def, indent, comma, intercalate_lines,
      opens, closes, List.append_assoc, List.cons_append, List.nil_append]

theorem length_le_itemLines (level : Nat) (first : Bool) (items : List String) :
    items.length ≤ (itemLines level first items).length := by
  induction items generalizing first with
  | nil => exact Nat.le_refl 0
  | cons item items ih =>
    have others := ih false
    simp only [itemLines, lineStart, List.length_append, List.length_cons]
    omega

theorem endsNumber_itemLines (level : Nat) (items : List String) (blank : Blank margin)
    (ended : EndsNumber rest) : EndsNumber (itemLines level false items ++ (margin ++ rest)) := by
  cases items with
  | nil =>
    rw [itemLines, List.nil_append]
    exact endsNumber_append blank ended
  | cons item items => exact endsNumber_cons (by decide) _

theorem nextItem_comma (cs : List Char) :
    nextItem false (',' :: cs) =
      (do
        match ← skipBlanks with
        | [] => stopAtEnd .endInValue
        | ']' :: _ => stopAt .trailingComma
        | _ => return true : Reader Bool) cs := rfl

theorem nextItem_quote (blank : Blank blanks) (s : String) (rest : List Char) :
    nextItem first (separator first ++ (blanks ++ ((quote s).toList ++ rest))) =
      .ok (true, (quote s).toList ++ rest) := by
  rw [toList_quote_append]
  cases first with
  | true =>
    rw [separator, if_pos rfl, List.nil_append, nextItem,
      bind_of_eq_ok (skipBlanks_append blank rfl)]
    rfl
  | false =>
    rw [separator, if_neg Bool.false_ne_true, List.singleton_append, nextItem_comma,
      bind_of_eq_ok (skipBlanks_append blank rfl)]
    rfl

theorem nextItem_end (blank : Blank blanks) :
    nextItem first (blanks ++ ']' :: rest) = .ok (false, ']' :: rest) := by
  rw [nextItem, bind_of_eq_ok (skipBlanks_append blank rfl)]
  rfl

theorem textsFrom_itemLines {fuel : List Char} {items front : List String}
    (enough : items.length < fuel.length) (blank : Blank margin) :
    textsFrom fuel front
      (itemLines level front.isEmpty (items.map quote) ++ (margin ++ ']' :: rest)) =
        .ok (front.reverse ++ items, ']' :: rest) := by
  induction items generalizing fuel front with
  | nil =>
    obtain ⟨d, fuel, rfl⟩ := List.exists_cons_of_length_pos enough
    rw [textsFrom, List.map_nil, itemLines, List.nil_append, bind_of_eq_ok (nextItem_end blank),
      List.append_nil]
    rfl
  | cons item items ih =>
    obtain ⟨d, fuel, rfl⟩ := List.exists_cons_of_length_pos (Nat.zero_lt_of_lt enough)
    have others := @ih fuel (item :: front) (Nat.lt_of_succ_lt_succ enough)
    rw [List.reverse_cons, List.append_assoc] at others
    rw [textsFrom, List.map_cons, itemLines, List.append_assoc, List.append_assoc,
      List.append_assoc, bind_of_eq_ok (nextItem_quote (blank_lineStart level) item _), if_pos rfl,
      bind_of_eq_ok (text_quote_append item _)]
    exact others

theorem reads_texts (level : Nat) (items : List String) :
    Reads texts (writeTexts level items).toList items := by
  intro blanks rest blank _
  have opens : "[".toList = ['['] := rfl
  have closes : "]".toList = [']'] := rfl
  obtain ⟨margin, inside, shown⟩ := toList_block_append opens closes level (items.map quote)
  rw [writeTexts, shown, texts, bind_of_eq_ok (skipBlanks_append blank rfl)]
  -- The text is its own fuel, and so it is named before it is taken apart.
  generalize lined : itemLines (level + 1) true (items.map quote) ++ (margin ++ ']' :: rest) = cs
  have enough : items.length < cs.length := by
    have listed := length_le_itemLines (level + 1) true (items.map quote)
    rw [List.length_map] at listed
    simp only [← lined, List.length_append, List.length_cons]
    omega
  have read : textsFrom cs [] cs = .ok (items, ']' :: rest) := by
    rw [← lined]
    exact textsFrom_itemLines (lined ▸ enough) inside
  change (textsFrom cs [] >>= fun found => settle closeList (.ok found)) cs = _
  rw [bind_of_eq_ok read]
  rfl

end Overlay.Json
