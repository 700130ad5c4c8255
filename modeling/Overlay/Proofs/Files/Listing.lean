import Overlay.Files.Listing

/-! Where files are found in a tree of directories after it was changed: only what was put in
its place brings one about. -/
namespace Overlay

namespace Node

/-- The node at a place below a node. -/
def below? : Node → Place → Option Node
  | node, [] => some node
  | directory inner, name :: rest => inner.at? (name :: rest)
  | file _, _ :: _ => none

/-- Nodes without files below them. -/
inductive IsBare : Node → Prop where
  | file (content : Bytes) : IsBare (file content)
  | directory : IsBare (directory .empty)

end Node

namespace Listing
variable {l inner : Listing} {node : Node} {place other rest : Place} {content : Bytes}
  {name : String}

theorem find?_erase (name other : String) (l : Listing) :
    (l.erase name).find? other = if other = name then none else l.find? other := by
  induction l with
  | empty => simp [erase, find?]
  | file _ _ _ ih => grind [erase, find?]
  | directory _ _ _ _ ih => grind [erase, find?]

theorem at?_cons (l : Listing) (name : String) (rest : Place) :
    l.at? (name :: rest) = (l.find? name).bind fun node => node.below? rest := by
  cases rest with
  | nil =>
    rw [at?]
    cases l.find? name <;> rfl
  | cons next rest =>
    rw [at?]
    · rcases l.find? name with _ | inner | _ <;> rfl
    · exact List.cons_ne_nil _ _

theorem at?_nil_ne_file (l : Listing) (content : Bytes) : l.at? [] ≠ some (.file content) := by
  rw [at?]
  nofun

theorem below?_directory (inner : Listing) (rest : Place) :
    (Node.directory inner).below? rest = inner.at? rest := by
  cases rest <;> rfl

theorem eq_of_below?_of_isBare (bare : node.IsBare)
    (found : node.below? place = some (.file content)) : place = [] ∧ node = .file content := by
  cases place with
  | nil => exact ⟨rfl, Option.some.inj found⟩
  | cons name rest =>
    cases bare with
    | file content => contradiction
    | directory =>
      rw [Node.below?, at?_cons] at found
      contradiction

theorem at?_replace (found : (l.replace name node).at? other = some (.file content)) :
    (∃ rest, other = name :: rest ∧ node.below? rest = some (.file content)) ∨
      l.at? other = some (.file content) := by
  cases other with
  | nil => exact absurd found (at?_nil_ne_file _ _)
  | cons first rest =>
    rw [at?_cons, find?_replace] at found
    by_cases same : first = name
    · rw [if_pos same] at found
      exact .inl ⟨rest, congrArg (· :: rest) same, found⟩
    · rw [if_neg same, ← at?_cons] at found
      exact .inr found

theorem at?_erase (found : (l.erase name).at? other = some (.file content)) :
    l.at? other = some (.file content) := by
  cases other with
  | nil => exact absurd found (at?_nil_ne_file _ _)
  | cons first rest =>
    rw [at?_cons, find?_erase] at found
    by_cases same : first = name
    · rw [if_pos same] at found
      contradiction
    · rwa [if_neg same, ← at?_cons] at found

theorem at?_of_find? (held : l.find? name = some (.directory inner))
    (found : inner.at? rest = some (.file content)) :
    l.at? (name :: rest) = some (.file content) := by
  rw [at?_cons, held, Option.bind_some, below?_directory]
  exact found

theorem at?_put (bare : node.IsBare)
    (found : (l.put node place).at? other = some (.file content)) :
    other = place ∧ node = .file content ∨ l.at? other = some (.file content) := by
  induction l, place using put.induct generalizing other with
  | case1 l => exact .inr found
  | case2 l name =>
    rw [put] at found
    rcases at?_replace found with ⟨rest, rfl, below⟩ | before
    · obtain ⟨rfl, written⟩ := eq_of_below?_of_isBare bare below
      exact .inl ⟨rfl, written⟩
    · exact .inr before
  | case3 l name rest deeper inner held ih =>
    rw [put, held] at found
    · rcases at?_replace found with ⟨rest, rfl, below⟩ | before
      · rw [below?_directory] at below
        rcases ih below with ⟨rfl, written⟩ | before
        · exact .inl ⟨rfl, written⟩
        · exact .inr (at?_of_find? held before)
      · exact .inr before
    · exact deeper
  | case4 l name rest deeper absent =>
    rw [put] at found
    · split at found
      · next inner held => exact absurd held (absent inner)
      · exact .inr found
    · exact deeper

theorem at?_remove (found : (l.remove place).at? other = some (.file content)) :
    l.at? other = some (.file content) := by
  induction l, place using remove.induct generalizing other with
  | case1 l => exact found
  | case2 l name => exact at?_erase found
  | case3 l name rest deeper inner held ih =>
    rw [remove, held] at found
    · rcases at?_replace found with ⟨rest, rfl, below⟩ | before
      · rw [below?_directory] at below
        exact at?_of_find? held (ih below)
      · exact before
    · exact deeper
  | case4 l name rest deeper absent =>
    rw [remove] at found
    · split at found
      · next inner held => exact absurd held (absent inner)
      · exact found
    · exact deeper

def HasDirectory (l : Listing) (place : Place) : Prop :=
  ∃ inner, l.at? place = some (.directory inner)

theorem hasDirectory_nil (l : Listing) : l.HasDirectory [] := ⟨l, by rw [at?]⟩

theorem hasDirectory_cons :
    l.HasDirectory (name :: rest) ↔
      ∃ inner, l.find? name = some (.directory inner) ∧ inner.HasDirectory rest := by
  constructor
  · rintro ⟨inner, held⟩
    rw [at?_cons] at held
    obtain ⟨child, found, held⟩ := Option.bind_eq_some_iff.1 held
    cases child with
    | file content => cases rest <;> cases held
    | directory child => exact ⟨child, found, inner, (below?_directory child rest).symm.trans held⟩
  · rintro ⟨child, found, inner, held⟩
    refine ⟨inner, ?_⟩
    rw [at?_cons, found, Option.bind_some, below?_directory]
    exact held

theorem at?_put_same (held : l.HasDirectory place) (node : Node) (name : String) :
    (l.put node (place ++ [name])).at? (place ++ [name]) = some node := by
  induction place generalizing l with
  | nil => rw [List.nil_append, put, at?, find?_replace, if_pos rfl]
  | cons first place ih =>
    obtain ⟨inner, found, held⟩ := hasDirectory_cons.1 held
    rw [List.cons_append, put, found, at?_cons]
    · dsimp only
      rw [find?_replace, if_pos rfl, Option.bind_some, below?_directory]
      exact ih held
    · exact List.append_ne_nil_of_right_ne_nil _ (List.cons_ne_nil _ _)

theorem ne_of_hasDirectory_cons {first : String} (vacant : ¬ l.HasDirectory [name])
    (held : l.HasDirectory (first :: rest)) : first ≠ name := by
  rintro rfl
  obtain ⟨inner, found, -⟩ := hasDirectory_cons.1 held
  exact vacant (hasDirectory_cons.2 ⟨inner, found, hasDirectory_nil inner⟩)

theorem hasDirectory_replace_inner {inner' : Listing}
    (found : l.find? name = some (.directory inner))
    (kept : ∀ rest, inner.HasDirectory rest → inner'.HasDirectory rest)
    (held : l.HasDirectory other) : (l.replace name (.directory inner')).HasDirectory other := by
  cases other with
  | nil => exact hasDirectory_nil _
  | cons first rest =>
    rw [hasDirectory_cons, find?_replace]
    obtain ⟨child, listed, below⟩ := hasDirectory_cons.1 held
    by_cases same : first = name
    · obtain rfl : child = inner := by
        rw [same, found] at listed
        exact (Node.directory.inj (Option.some.inj listed)).symm
      rw [if_pos same]
      exact ⟨inner', rfl, kept rest below⟩
    · rw [if_neg same]
      exact ⟨child, listed, below⟩

theorem hasDirectory_put (vacant : ¬ l.HasDirectory place) (held : l.HasDirectory other) :
    (l.put node place).HasDirectory other := by
  induction l, place using put.induct generalizing other with
  | case1 l => exact absurd (hasDirectory_nil l) vacant
  | case2 l name =>
    cases other with
    | nil => exact hasDirectory_nil _
    | cons first rest =>
      rw [put, hasDirectory_cons, find?_replace, if_neg (ne_of_hasDirectory_cons vacant held)]
      exact hasDirectory_cons.1 held
  | case3 l name rest deeper inner found ih =>
    rw [put, found]
    · refine hasDirectory_replace_inner found (fun others below => ih ?_ below) held
      exact fun taken => vacant (hasDirectory_cons.2 ⟨inner, found, taken⟩)
    · exact deeper
  | case4 l name rest deeper absent =>
    rw [put]
    · split
      · next inner held => exact absurd held (absent inner)
      · exact held
    · exact deeper

theorem hasDirectory_remove (single : ¬ l.HasDirectory place) (held : l.HasDirectory other) :
    (l.remove place).HasDirectory other := by
  induction l, place using remove.induct generalizing other with
  | case1 l => exact held
  | case2 l name =>
    cases other with
    | nil => exact hasDirectory_nil _
    | cons first rest =>
      rw [remove, hasDirectory_cons, find?_erase, if_neg (ne_of_hasDirectory_cons single held)]
      exact hasDirectory_cons.1 held
  | case3 l name rest deeper inner found ih =>
    rw [remove, found]
    · refine hasDirectory_replace_inner found (fun others below => ih ?_ below) held
      exact fun taken => single (hasDirectory_cons.2 ⟨inner, found, taken⟩)
    · exact deeper
  | case4 l name rest deeper absent =>
    rw [remove]
    · split
      · next inner held => exact absurd held (absent inner)
      · exact held
    · exact deeper

/-- A file is at or below a name only if nothing else is. -/
theorem eq_nil_of_at?_cons (vacant : ¬ l.HasDirectory [name])
    (held : l.at? (name :: rest) = some (.file content)) : rest = [] := by
  rw [at?_cons] at held
  obtain ⟨child, found, below⟩ := Option.bind_eq_some_iff.1 held
  cases child with
  | directory inner =>
    exact absurd (hasDirectory_cons.2 ⟨inner, found, hasDirectory_nil inner⟩) vacant
  | file other => exact (eq_of_below?_of_isBare (.file other) below).1

theorem at?_cons_directory (found : l.find? name = some (.directory inner)) (rest : Place) :
    l.at? (name :: rest) = inner.at? rest := by
  rw [at?_cons, found, Option.bind_some, below?_directory]

theorem at?_replace_inner {inner' : Listing} (found : l.find? name = some (.directory inner))
    (kept : ∀ rest, other = name :: rest → inner.at? rest = some (.file content) →
      inner'.at? rest = some (.file content))
    (held : l.at? other = some (.file content)) :
    (l.replace name (.directory inner')).at? other = some (.file content) := by
  cases other with
  | nil => exact absurd held (at?_nil_ne_file _ _)
  | cons first rest =>
    rw [at?_cons, find?_replace]
    by_cases same : first = name
    · subst same
      rw [if_pos rfl, Option.bind_some, below?_directory]
      exact kept rest rfl ((at?_cons_directory found rest).symm.trans held)
    · rw [if_neg same, ← at?_cons]
      exact held

theorem at?_put_other (vacant : ¬ l.HasDirectory place) (elsewhere : other ≠ place)
    (held : l.at? other = some (.file content)) :
    (l.put node place).at? other = some (.file content) := by
  induction l, place using put.induct generalizing other with
  | case1 l => exact held
  | case2 l name =>
    cases other with
    | nil => exact absurd held (at?_nil_ne_file _ _)
    | cons first rest =>
      have differs : first ≠ name := by
        rintro rfl
        exact elsewhere (congrArg (first :: ·) (eq_nil_of_at?_cons vacant held))
      rw [put, at?_cons, find?_replace, if_neg differs, ← at?_cons]
      exact held
  | case3 l name rest deeper inner found ih =>
    rw [put, found]
    · refine at?_replace_inner found (fun others split below => ih ?_ ?_ below) held
      · exact fun taken => vacant (hasDirectory_cons.2 ⟨inner, found, taken⟩)
      · exact fun same => elsewhere (split.trans (congrArg (name :: ·) same))
    · exact deeper
  | case4 l name rest deeper absent =>
    rw [put]
    · split
      · next inner held => exact absurd held (absent inner)
      · exact held
    · exact deeper

theorem at?_remove_other (single : ¬ l.HasDirectory place) (elsewhere : other ≠ place)
    (held : l.at? other = some (.file content)) :
    (l.remove place).at? other = some (.file content) := by
  induction l, place using remove.induct generalizing other with
  | case1 l => exact held
  | case2 l name =>
    cases other with
    | nil => exact absurd held (at?_nil_ne_file _ _)
    | cons first rest =>
      have differs : first ≠ name := by
        rintro rfl
        exact elsewhere (congrArg (first :: ·) (eq_nil_of_at?_cons single held))
      rw [remove, at?_cons, find?_erase, if_neg differs, ← at?_cons]
      exact held
  | case3 l name rest deeper inner found ih =>
    rw [remove, found]
    · refine at?_replace_inner found (fun others split below => ih ?_ ?_ below) held
      · exact fun taken => single (hasDirectory_cons.2 ⟨inner, found, taken⟩)
      · exact fun same => elsewhere (split.trans (congrArg (name :: ·) same))
    · exact deeper
  | case4 l name rest deeper absent =>
    rw [remove]
    · split
      · next inner held => exact absurd held (absent inner)
      · exact held
    · exact deeper

end Listing

end Overlay
