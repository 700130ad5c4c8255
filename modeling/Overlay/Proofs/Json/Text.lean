import Overlay.Json.Writer
import Overlay.Proofs.Json.Spelling

/-! A quoted string is read as the text that was quoted: every character is written in one of the
ways that spell it. -/
namespace Overlay.Json

theorem spells_quoteChar (c : Char) : Spells c (quoteChar c) := by
  unfold quoteChar
  split
  case h_8 unquoted unescaped _ _ _ _ _ =>
    split
    · next control =>
      have unit : (UInt8.ofNat c.toNat).toNat = c.toNat :=
        UInt8.toNat_ofNat_of_lt (Nat.lt_trans control (by decide))
      refine .numeric (.unit ⟨0, UInt8.ofNat c.toNat, by simp [unit], ?_⟩)
      exact congrArg (Hex.pair Hex.lowerDigits 0 ++ ·) (Hex.map_toLower_pair _)
    · next visible => exact .plain unquoted unescaped (Nat.le_of_not_lt visible)
  all_goals exact .letter (by decide)

theorem spellsText_flatMap_quoteChar (chars : List Char) :
    SpellsText chars (chars.flatMap quoteChar) := by
  induction chars with
  | nil => exact .nil
  | cons c chars ih => exact .cons (spells_quoteChar c) ih

theorem readText_quoted (s : String) (rest : List Char) :
    readText (s.toList.flatMap quoteChar ++ '"' :: rest) = .ok (s, rest) :=
  readText_eq_ok_iff.2 ⟨_, rfl, spellsText_flatMap_quoteChar s.toList⟩

theorem toList_quote_append (s : String) (rest : List Char) :
    (quote s).toList ++ rest = '"' :: (s.toList.flatMap quoteChar ++ '"' :: rest) := by
  simp [quote]

theorem reads_textFor (expected s : String) : Reads (textFor expected) (quote s).toList s := by
  intro blanks rest blank _
  rw [toList_quote_append, textFor, bind_of_eq_ok (skipBlanks_append blank rfl)]
  exact readText_quoted s rest

theorem reads_text (s : String) : Reads text (quote s).toList s := reads_textFor "a string" s

theorem text_quote_append (s : String) (rest : List Char) :
    text ((quote s).toList ++ rest) = .ok (s, rest) := by
  rw [toList_quote_append]
  exact readText_quoted s rest

theorem readName_quote (s : String) (rest : List Char) :
    readName ((quote s).toList ++ rest) = .ok (s, rest) := by
  rw [toList_quote_append]
  exact readText_quoted s rest

theorem quote_of_plain {s : String} (plain : ∀ c ∈ s.toList, quoteChar c = [c]) :
    quote s = "\"" ++ s ++ "\"" := by
  have same : s.toList.flatMap quoteChar = s.toList :=
    (List.flatMap_congr plain).trans (List.flatMap_singleton' _)
  rw [← String.toList_inj, quote, String.toList_ofList, same, String.toList_append,
    String.toList_append]
  rfl

theorem denotes_quote (s : String) : Denotes (quote s) s :=
  run_text_eq_ok_iff.1 (reads_text s).run

end Overlay.Json
