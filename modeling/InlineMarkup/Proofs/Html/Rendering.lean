import Mathlib.Data.List.Basic
import Mathlib.Tactic.SplitIfs
import InlineMarkup.Html
import InlineMarkup.Proofs.Html.Reader
import InlineMarkup.Proofs.Segment.Fuse

/-!
# Pages read back

Every page that is written for segments can be read, and what is read is the segments: their
texts, and their spans with class name and style. The text of an author comes back as text only,
so it opens, closes and alters no tag.
-/

namespace InlineMarkup

namespace Html

variable {ρ : Type}

mutual

/-- What a page should hold for one segment. -/
def outlineOne (chosen : String) : Segment ρ → Node ρ
  | .plain run => .text run
  | .span c cs =>
    .span c.className (Style.compile c.color c.effects chosen).display (outline chosen cs)

/-- What a page should hold for segments in a rendering with the chosen keyword color. -/
def outline (chosen : String) : List (Segment ρ) → List (Node ρ)
  | [] => []
  | s :: rest => outlineOne chosen s :: outline chosen rest

end

/-! ## Escaped text -/

theorem drop?_append (token rest : List Char) : drop? token (token ++ rest) = some rest := by
  rw [drop?, if_pos (by simp), List.drop_left]

theorem value?_of_entity? {text rest : List Char} {c : Char}
    (h : entity? text = some (c, rest)) : value? ('&' :: text) = (value? rest).map (c :: ·) := by
  rw [value?]
  split
  · rename_i found
    cases h.symm.trans found
    rfl
  · rename_i missing
    cases h.symm.trans missing

/-- How a character is written: as an entity that stands for it, or as it is, unless it is one of
the `special` ones. -/
inductive Escaped (special : List Char) (c : Char) : List Char → Prop where
  | entity (name : List Char) (unquoted : '"' ∉ name)
      (stands : ∀ rest, entity? (name ++ rest) = some (c, rest)) : Escaped special c ('&' :: name)
  | itself (ordinary : c ∉ special) : Escaped special c [c]

theorem escaped_escapeAttributeChar (c : Char) :
    Escaped ['&', '<', '>', '"'] c (escapeAttributeChar c) := by
  unfold escapeAttributeChar
  split_ifs with amp lt gt quot
  · subst amp
    exact .entity "amp;".toList (by decide) fun _ => rfl
  · subst lt
    exact .entity "lt;".toList (by decide) fun _ => rfl
  · subst gt
    exact .entity "gt;".toList (by decide) fun _ => rfl
  · subst quot
    exact .entity "quot;".toList (by decide) fun _ => rfl
  · exact .itself (by simp [amp, lt, gt, quot])

theorem escaped_escapeChar (c : Char) :
    Escaped ['&', '<', '>', '"', '\''] c (escapeChar c) := by
  unfold escapeChar
  split_ifs with apos
  · subst apos
    exact .entity "#x27;".toList (by decide) fun _ => rfl
  · have escaped := escaped_escapeAttributeChar c
    generalize escapeAttributeChar c = written at escaped ⊢
    cases escaped with
    | entity name unquoted stands => exact .entity name unquoted stands
    | itself ordinary =>
      apply Escaped.itself
      simp_all

theorem value?_append_of_escaped {c : Char} {written : List Char}
    (escaped : Escaped ['&', '<', '>', '"'] c written) (rest : List Char) :
    value? (written ++ rest) = (value? rest).map (c :: ·) := by
  cases escaped with
  | entity name unquoted stands =>
    rw [List.cons_append]
    exact value?_of_entity? (stands rest)
  | itself ordinary =>
    simp only [List.mem_cons, List.not_mem_nil, not_or, or_false] at ordinary
    obtain ⟨amp, lt, gt, -⟩ := ordinary
    rw [List.singleton_append, value?, if_neg (by simp [lt, gt])]
    exact amp

theorem value?_flatMap_escapeAttributeChar (text : List Char) :
    value? (text.flatMap escapeAttributeChar) = some text := by
  induction text with
  | nil => rw [List.flatMap_nil, value?]
  | cons c text ih =>
    rw [List.flatMap_cons, value?_append_of_escaped (escaped_escapeAttributeChar c), ih,
      Option.map_some]

/-- No double quote of a value stays as it is. -/
theorem not_quote_mem_of_escaped {c : Char} {written : List Char}
    (escaped : Escaped ['&', '<', '>', '"'] c written) : '"' ∉ written := by
  cases escaped with
  | entity name unquoted stands =>
    intro mem
    rcases List.mem_cons.1 mem with eq | mem
    · cases eq
    · exact unquoted mem
  | itself ordinary =>
    intro mem
    apply ordinary
    rw [← List.mem_singleton.1 mem]
    decide

theorem quoted?_escapeAttribute (s : String) (rest : List Char) :
    quoted? ((escapeAttribute s).toList ++ '"' :: rest) = some (s, rest) := by
  have inside : ∀ d ∈ s.toList.flatMap escapeAttributeChar, decide (d ≠ '"') = true := by
    intro d mem
    obtain ⟨c, -, mem⟩ := List.mem_flatMap.1 mem
    apply decide_eq_true
    rintro rfl
    exact not_quote_mem_of_escaped (escaped_escapeAttributeChar c) mem
  rw [escapeAttribute, String.toList_ofList, quoted?, List.dropWhile_append_of_pos inside,
    List.takeWhile_append_of_pos inside, List.dropWhile_cons_of_neg (by decide),
    List.takeWhile_cons_of_neg (by decide), List.append_nil, value?_flatMap_escapeAttributeChar]
  simp

theorem next?_append_of_escaped {c : Char} {written : List Char}
    (escaped : Escaped ['&', '<', '>', '"', '\''] c written) (rest : List Char) :
    next? (written ++ rest) = some (.char c, rest) := by
  cases escaped with
  | entity name unquoted stands => rw [List.cons_append, next?, stands, Option.map_some]
  | itself ordinary =>
    simp only [List.mem_cons, List.not_mem_nil, not_or, or_false] at ordinary
    obtain ⟨amp, lt, gt, quot, apos⟩ := ordinary
    rw [List.singleton_append, next?, if_neg (by simp [gt, quot, apos])]
    · exact lt
    · exact amp

/-! ## Tags -/

theorem openTag?_of_parts {text text₁ text₂ text₃ text₄ rest : List Char}
    {className style : String} (h₁ : drop? "span class=\"".toList text = some text₁)
    (h₂ : quoted? text₁ = some (className, text₂))
    (h₃ : drop? " style=\"".toList text₂ = some text₃)
    (h₄ : quoted? text₃ = some (style, text₄)) (h₅ : drop? ">".toList text₄ = some rest) :
    openTag? text = some (.opening className style, rest) := by
  simp only [openTag?, h₁, h₂, h₃, h₄, h₅, Option.bind_eq_bind, Option.bind_some]
  rfl

theorem next?_openTag (c : Convention) (keyword : String) (rest : List Char) :
    next? ((openTag c keyword).toList ++ rest) =
      some (.opening c.className (Style.compile c.color c.effects keyword).display, rest) := by
  have shape : (openTag c keyword).toList ++ rest =
      '<' :: ("span class=\"".toList ++ ((escapeAttribute c.className).toList ++
        '"' :: (" style=\"".toList ++
          ((escapeAttribute (Style.compile c.color c.effects keyword).display).toList ++
            '"' :: (">".toList ++ rest))))) := by
    unfold openTag
    simp only [String.toList_append, List.append_assoc]
    rfl
  have opens : ∀ tail, drop? "/span>".toList ("span class=\"".toList ++ tail) = none := fun _ => rfl
  rw [shape, next?, opens]
  exact openTag?_of_parts (drop?_append _ _) (quoted?_escapeAttribute _ _) (drop?_append _ _)
    (quoted?_escapeAttribute _ _) (drop?_append _ _)

theorem next?_closeTag (rest : List Char) :
    next? ("</span>".toList ++ rest) = some (.closing, rest) := by
  show next? ('<' :: ("/span>".toList ++ rest)) = _
  rw [next?, drop?_append]

/-! ## Marks -/

theorem marks?_of_next? {text rest : List Char} {m : Mark} (h : next? text = some (m, rest)) :
    marks? text = (marks? rest).map (m :: ·) := by
  have filled : text.isEmpty = false := by
    cases text with
    | nil => cases h
    | cons c text => rfl
  rw [marks?, if_neg (by simp [filled])]
  split
  · rename_i found
    cases h.symm.trans found
    rfl
  · rename_i missing
    cases h.symm.trans missing

mutual

/-- The marks on a page that stand for one segment. -/
def marksOne (keyword : String) : Segment String → List Mark
  | .plain run => run.toList.map .char
  | .span c cs =>
    .opening c.className (Style.compile c.color c.effects keyword).display ::
      (marks keyword cs ++ [.closing])

/-- The marks on a page that stand for segments. -/
def marks (keyword : String) : List (Segment String) → List Mark
  | [] => []
  | s :: rest => marksOne keyword s ++ marks keyword rest

end

theorem marks?_flatMap_escapeChar (text rest : List Char) :
    marks? (text.flatMap escapeChar ++ rest) = (marks? rest).map (text.map .char ++ ·) := by
  induction text with
  | nil => simp
  | cons c text ih =>
    have first := next?_append_of_escaped (escaped_escapeChar c) (text.flatMap escapeChar ++ rest)
    rw [List.flatMap_cons, List.append_assoc, marks?_of_next? first, ih, Option.map_map]
    rfl

/-- What is written for segments is read off the front of a page, whatever follows. -/
theorem marks?_renderAll (keyword : String) (l : List (Segment String)) (rest : List Char) :
    marks? ((renderAll keyword l).toList ++ rest) = (marks? rest).map (marks keyword l ++ ·) := by
  induction l using Segment.listInduction generalizing rest with
  | nil => simp [renderAll, marks]
  | plain run l ih =>
    rw [renderAll, renderOne, escape, String.toList_append, String.toList_ofList,
      List.append_assoc, marks?_flatMap_escapeChar, ih, Option.map_map]
    simp [marks, marksOne, Function.comp_def]
  | span c cs l inner ih =>
    rw [renderAll, renderOne, String.toList_append, String.toList_append, String.toList_append,
      List.append_assoc, List.append_assoc, List.append_assoc,
      marks?_of_next? (next?_openTag c keyword _), inner,
      marks?_of_next? (next?_closeTag _), ih, Option.map_map, Option.map_map, Option.map_map]
    simp [marks, marksOne, Function.comp_def]

/-- Marks without tags stand for runs only. -/
theorem atoms_eq_of_marks_eq {keyword : String} {l : List (Segment String)} {text : List Char}
    (eq : marks keyword l = text.map .char) :
    Segment.atoms String.toList l = text.map .plain := by
  induction l using Segment.listInduction generalizing text with
  | nil =>
    rw [List.map_eq_nil_iff.1 eq.symm]
    rfl
  | plain run l ih =>
    have injective : Function.Injective Mark.char := fun _ _ => Mark.char.inj
    obtain ⟨first, later, rfl, same, eq⟩ := List.map_eq_append_iff.1 eq.symm
    rw [List.map_injective_iff.2 injective same, List.map_append, Segment.atoms_plain, ih eq.symm]
  | span c cs l inner ih =>
    rw [marks, marksOne, List.cons_append] at eq
    obtain ⟨a, later, -, tag, -⟩ := List.map_eq_cons_iff.1 eq.symm
    cases tag

theorem renderAll_of_atoms_eq {keyword : String} {l : List (Segment String)} {text : List Char}
    (eq : Segment.atoms String.toList l = text.map .plain) :
    renderAll keyword l = escape (String.ofList text) := by
  induction l using Segment.listInduction generalizing text with
  | nil =>
    rw [List.map_eq_nil_iff.1 eq.symm]
    rfl
  | plain run l ih =>
    obtain ⟨first, later, rfl, same, eq⟩ := List.map_eq_append_iff.1 eq.symm
    rw [renderAll, renderOne, ih eq.symm, String.ofList_append, escape_append,
      List.map_injective_iff.2 Segment.plain_injective same, String.ofList_toList]
  | span c cs l inner ih =>
    obtain ⟨a, later, -, span, -⟩ := List.map_eq_cons_iff.1 eq.symm
    cases span

/-- The pages without a span are those that are an escaped text. -/
theorem render_eq_escape_iff {l : List (Segment String)} {text chosen : String} :
    render l chosen = escape text ↔ Segment.atoms String.toList l = text.toList.map .plain := by
  constructor
  · intro eq
    have nothing : marks? [] = some [] := by rw [marks?, if_pos List.isEmpty_nil]
    have page := marks?_renderAll (Color.resolveKeyword chosen) l []
    have escaped := marks?_flatMap_escapeChar text.toList []
    rw [render] at eq
    rw [eq, escape, String.toList_ofList, escaped, nothing] at page
    apply atoms_eq_of_marks_eq
    simpa using page.symm
  · intro eq
    rw [render, renderAll_of_atoms_eq eq, String.ofList_toList]

theorem assemble_map_char (text : List Char) (rest : List Mark) (unclosed : List Unclosed)
    (latest : List (Node Char)) :
    assemble (text.map .char ++ rest) unclosed latest =
      assemble rest unclosed ((text.map .text).reverse ++ latest) := by
  induction text generalizing latest with
  | nil => rfl
  | cons c text ih => simp [assemble, ih]

theorem outline_append (chosen : String) (l l' : List (Segment ρ)) :
    outline chosen (l ++ l') = outline chosen l ++ outline chosen l' := by
  induction l with
  | nil => rfl
  | cons s rest ih => simp [outline, ih]

theorem outline_map_plain (chosen : String) (text : List ρ) :
    outline chosen (text.map .plain) = text.map .text := by
  induction text with
  | nil => rfl
  | cons a text ih => simp [outline, outlineOne, ih]

/-- The tags around a span are balanced: after its marks the reader is where it was before them,
with one more node. -/
theorem assemble_marks (keyword : String) (l : List (Segment String)) (rest : List Mark)
    (unclosed : List Unclosed) (latest : List (Node Char)) :
    assemble (marks keyword l ++ rest) unclosed latest =
      assemble rest unclosed
        ((outline keyword (Segment.atoms String.toList l)).reverse ++ latest) := by
  induction l using Segment.listInduction generalizing rest unclosed latest with
  | nil => rfl
  | plain run l ih =>
    rw [marks, marksOne, List.append_assoc, assemble_map_char, ih, Segment.atoms_plain,
      outline_append, outline_map_plain, List.reverse_append, List.append_assoc]
  | span c cs l inner ih =>
    rw [marks, marksOne, List.append_assoc, List.cons_append, assemble, List.append_assoc, inner,
      List.singleton_append, assemble, ih, Segment.atoms_span]
    simp [outline, outlineOne]

/-! ## Texts -/

theorem putChar_outline (chosen : String) (c : Char) (l : List (Segment String)) :
    putChar c (outline chosen l) =
      outline chosen (Segment.join (.plain (String.ofList [c])) l) := by
  cases l with
  | nil => rfl
  | cons s rest => cases s <;> rfl

theorem putChar_outline_join (chosen : String) (c : Char) (run : String)
    (l : List (Segment String)) :
    putChar c (outline chosen (Segment.join (.plain run) l)) =
      outline chosen (Segment.join (.plain (String.ofList [c] ++ run)) l) := by
  cases l with
  | nil => rfl
  | cons s rest =>
    cases s with
    | plain run' => simp [Segment.join, outline, outlineOne, putChar, String.append_assoc]
    | span d ds => rfl

/-- The characters of a run are gathered into one text with the run that follows. -/
theorem gather_map_text (chosen : String) {text : List Char} (filled : text ≠ [])
    {tail : List (Node Char)} {l : List (Segment String)} (eq : gather tail = outline chosen l) :
    gather (text.map .text ++ tail) =
      outline chosen (Segment.join (.plain (String.ofList text)) l) := by
  induction text with
  | nil => exact absurd rfl filled
  | cons c text ih =>
    rw [List.map_cons, List.cons_append, gather, gatherOne]
    by_cases last : text = []
    · rw [last, List.map_nil, List.nil_append, eq, putChar_outline]
    · rw [ih last, putChar_outline_join, ← String.ofList_append, List.singleton_append]

theorem gather_outline (chosen : String) (l : List (Segment String)) :
    gather (outline chosen (Segment.atoms String.toList l)) =
      outline chosen (Segment.fuse (Segment.prune l)) := by
  induction l using Segment.listInduction with
  | nil => rfl
  | plain run l ih =>
    rw [Segment.atoms_plain, outline_append, outline_map_plain, Segment.prune, Segment.pruneOne]
    split_ifs with empty
    · rw [empty]
      exact ih
    · rw [gather_map_text chosen (by simpa using empty) ih, String.ofList_toList]
      rfl
  | span c cs l inner ih =>
    rw [Segment.atoms_span, outline, outlineOne, gather, gatherOne, inner, ih]
    rfl

/-- The page of any segments can be read, and holds exactly the segments: their spans with class
name and style, and their texts, with texts that adjoin merged and empty ones left out. -/
theorem read_render (segments : List (Segment String)) (chosen : String) :
    read (render segments chosen) =
      some (outline chosen (Segment.fuse (Segment.prune segments))) := by
  have same : ∀ l : List (Segment Char),
      outline (Color.resolveKeyword chosen) l = outline chosen l := by
    intro l
    induction l using Segment.listInduction with
    | nil => rfl
    | plain run l ih => rw [outline, outline, ih, outlineOne, outlineOne]
    | span c cs l inner ih =>
      rw [outline, outline, ih, outlineOne, outlineOne, inner, Style.compile_resolveKeyword]
  have nothing : marks? [] = some [] := by rw [marks?, if_pos List.isEmpty_nil]
  have marked := marks?_renderAll (Color.resolveKeyword chosen) segments []
  have assembled := assemble_marks (Color.resolveKeyword chosen) segments [] [] []
  rw [List.append_nil, nothing, Option.map_some, List.append_nil] at marked
  rw [List.append_nil, List.append_nil, assemble, List.reverse_reverse, same] at assembled
  rw [read, render, marked, Option.bind_eq_bind, Option.bind_some, assembled,
    Option.bind_eq_bind, Option.bind_some, gather_outline]
  rfl

end Html

end InlineMarkup
