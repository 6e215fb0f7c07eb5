/-!
# Reading pages

A reader for the HTML that is written for segments. It scans from the left: the two kinds of tag
open and close a span, an entity stands for its character, and so does every character that has
no meaning of its own. Anything else is an error. It knows nothing of how pages are written.
-/

namespace InlineMarkup

namespace Html

/-- What a page holds: texts, and spans with the values of their two attributes. -/
inductive Node (τ : Type) where
  | text (content : τ)
  | span (className style : String) (children : List (Node τ))

/-- What stands at one place of a page. -/
inductive Mark where
  | char (c : Char)
  | opening (className style : String)
  | closing

/-! ## Tags and entities -/

/-- What follows `token`, if the text begins with it. -/
def drop? (token text : List Char) : Option (List Char) :=
  if token.isPrefixOf text then some (text.drop token.length) else none

/-- The names of the entities, as they follow an ampersand. -/
def entities : List (List Char × Char) :=
  [("amp;".toList, '&'), ("lt;".toList, '<'), ("gt;".toList, '>'), ("quot;".toList, '"'),
    ("#x27;".toList, '\'')]

/-- The character of the entity whose name comes next, and what follows it. -/
def entity? (text : List Char) : Option (Char × List Char) :=
  entities.findSome? fun (name, c) => (drop? name text).map (c, ·)

theorem length_of_drop? {token text rest : List Char} (h : drop? token text = some rest) :
    rest.length + token.length = text.length := by
  unfold drop? at h
  split at h
  · rename_i begins
    have le := (List.isPrefixOf_iff_prefix.1 begins).length_le
    cases h
    rw [List.length_drop]
    omega
  · cases h

theorem length_le_of_entity? {text rest : List Char} {c : Char}
    (h : entity? text = some (c, rest)) : rest.length ≤ text.length := by
  obtain ⟨⟨name, c'⟩, -, found⟩ := List.exists_of_findSome?_eq_some h
  obtain ⟨rest', dropped, eq⟩ := Option.map_eq_some_iff.1 found
  cases eq
  have := length_of_drop? dropped
  omega

/-- The value written in an attribute. -/
def value? : List Char → Option (List Char)
  | [] => some []
  | '&' :: text =>
    match _ : entity? text with
    | some (c, rest) => (value? rest).map (c :: ·)
    | none => none
  | c :: text => if c = '<' ∨ c = '>' then none else (value? text).map (c :: ·)
termination_by text => text.length
decreasing_by
  · have := length_le_of_entity? ‹_›
    simp only [List.length_cons]
    omega
  · simp

/-- The value that ends at the next double quote, and what follows the quote. -/
def quoted? (text : List Char) : Option (String × List Char) :=
  match text.dropWhile (· ≠ '"') with
  | [] => none
  | _ :: rest => (value? (text.takeWhile (· ≠ '"'))).map fun value => (String.ofList value, rest)

/-- The tag that opens a span, after its first character. -/
def openTag? (text : List Char) : Option (Mark × List Char) := do
  let text ← drop? "span class=\"".toList text
  let (className, text) ← quoted? text
  let text ← drop? " style=\"".toList text
  let (style, text) ← quoted? text
  let text ← drop? ">".toList text
  return (.opening className style, text)

/-- What stands at the start of the text, and what follows it. -/
def next? : List Char → Option (Mark × List Char)
  | [] => none
  | '<' :: text =>
    match drop? "/span>".toList text with
    | some rest => some (.closing, rest)
    | none => openTag? text
  | '&' :: text => (entity? text).map fun (c, rest) => (.char c, rest)
  | c :: text => if c = '>' ∨ c = '"' ∨ c = '\'' then none else some (.char c, text)

theorem length_lt_of_quoted? {text rest : List Char} {value : String}
    (h : quoted? text = some (value, rest)) : rest.length < text.length := by
  unfold quoted? at h
  split at h
  · cases h
  · rename_i quote rest' eq
    obtain ⟨read, -, eq'⟩ := Option.map_eq_some_iff.1 h
    cases eq'
    have le := (text.dropWhile_sublist (· ≠ '"')).length_le
    rw [eq, List.length_cons] at le
    omega

theorem length_lt_of_openTag? {text rest : List Char} {m : Mark}
    (h : openTag? text = some (m, rest)) : rest.length < text.length := by
  simp only [openTag?, bind, Option.bind_eq_some_iff] at h
  obtain ⟨text₁, h₁, ⟨className, text₂⟩, h₂, text₃, h₃, ⟨style, text₄⟩, h₄, text₅, h₅, h⟩ := h
  cases h
  dsimp only at h₃ h₅
  have := length_of_drop? h₁
  have := length_lt_of_quoted? h₂
  have := length_of_drop? h₃
  have := length_lt_of_quoted? h₄
  have := length_of_drop? h₅
  omega

theorem length_lt_of_next? {text rest : List Char} {m : Mark}
    (h : next? text = some (m, rest)) : rest.length < text.length := by
  unfold next? at h
  split at h
  · cases h
  · rename_i text
    rw [List.length_cons]
    split at h
    · rename_i rest' dropped
      have := length_of_drop? dropped
      cases h
      omega
    · have := length_lt_of_openTag? h
      omega
  · rename_i text
    obtain ⟨⟨c, rest'⟩, found, eq⟩ := Option.map_eq_some_iff.1 h
    cases eq
    have := length_le_of_entity? found
    rw [List.length_cons]
    omega
  · split at h
    · cases h
    · cases h
      simp

/-! ## Whole pages -/

/-- All that stands in a text, in order. -/
def marks? (text : List Char) : Option (List Mark) :=
  if text.isEmpty then some []
  else
    match _ : next? text with
    | some (m, rest) => (marks? rest).map (m :: ·)
    | none => none
termination_by text.length
decreasing_by exact length_lt_of_next? ‹_›

/-- A span that is not closed yet, and what stands before it, the latest first. -/
structure Unclosed where
  className : String
  style : String
  before : List (Node Char)

/-- The nodes that marks make up, if every span is closed and no other closing tag stands among
them; `latest` are the nodes read so far in the innermost open span, the latest first. -/
def assemble : List Mark → (unclosed : List Unclosed) → (latest : List (Node Char)) →
    Option (List (Node Char))
  | [], [], latest => some latest.reverse
  | [], _ :: _, _ => none
  | .char c :: marks, unclosed, latest => assemble marks unclosed (.text c :: latest)
  | .opening className style :: marks, unclosed, latest =>
    assemble marks (⟨className, style, latest⟩ :: unclosed) []
  | .closing :: marks, u :: unclosed, latest =>
    assemble marks unclosed (.span u.className u.style latest.reverse :: u.before)
  | .closing :: _, [], _ => none

/-- A character put before the text that follows it. -/
def putChar (c : Char) : List (Node String) → List (Node String)
  | .text s :: nodes => .text (String.ofList [c] ++ s) :: nodes
  | nodes => .text (String.ofList [c]) :: nodes

mutual

/-- A span with the characters in it gathered into texts. -/
def gatherOne : Node Char → List (Node String) → List (Node String)
  | .text c, nodes => putChar c nodes
  | .span className style children, nodes => .span className style (gather children) :: nodes

/-- Nodes with characters that adjoin gathered into texts. -/
def gather : List (Node Char) → List (Node String)
  | [] => []
  | node :: nodes => gatherOne node (gather nodes)

end

/-- What a page holds, if it can be read. -/
def read (page : String) : Option (List (Node String)) := do
  let marks ← marks? page.toList
  let nodes ← assemble marks [] []
  return gather nodes

end Html

end InlineMarkup
