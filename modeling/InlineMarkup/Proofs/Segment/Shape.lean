import InlineMarkup.Proofs.Segment.Parse

/-!
# The shape of parsed text

On every level of a parse runs are filled and apart from each other. A span holds something, and
since it was closed by the first closing after its opening, none of its own runs contains one.
-/

namespace InlineMarkup

namespace Segment

open Scan

/-- On its own level, a list of segments has no empty run and no two runs next to each other. -/
structure Tidy (l : List (Segment String)) : Prop where
  filled : ∀ run, .plain run ∈ l → run ≠ ""
  apart : ∀ run run', ¬ [.plain run, .plain run'] <:+: l

/-- What a span of `c` may hold. -/
structure TidyInside (c : Convention) (cs : List (Segment String)) : Prop extends Tidy cs where
  occupied : cs ≠ []
  unclosed : ∀ run, .plain run ∈ cs → ¬ c.closing.toList <:+: run.toList

theorem Separated.tidy {l : List (Segment String)} (h : Separated String.toList l) : Tidy l where
  filled run mem empty := by
    apply h.filled mem
    rw [empty, String.toList_empty]
  apart := h.not_infix

/-- What was claimed up to the first closing holds something and does not contain the closing. -/
theorem TidyInside.of_content {c : Convention} {cs : List (Segment String)}
    {before : List (Segment Char)} (closing : c.closing ≠ "")
    (separated : Separated String.toList cs)
    (content : Content c.closing.toList before (atoms String.toList cs)) : TidyInside c cs where
  toTidy := separated.tidy
  occupied := by
    have filled := content.filled
    rwa [ne_eq, separated.atoms_eq_nil_iff] at filled
  unclosed := by
    -- a closing within the run would end the content before its end
    intro run mem closes
    obtain ⟨rest, closed⟩ := content.closed
    have first := not_infix_of_split?_eq_some (toList_ne_nil closing) closed
    have here := infix_atoms_of_mem String.toList mem
    exact first ((closes.map Segment.plain).trans here)

/-- Parsed text is tidy on every level, and every span holds something up to its first closing. -/
theorem tidy_parse {registry : Registry} (delimited : ∀ c ∈ registry.conventions, c.Delimited)
    (text : String) :
    Tidy (parse registry text) ∧
      ∀ c cs, Inside (.span c cs) (parse registry text) → TidyInside c cs := by
  have normal := normal_parse delimited text
  refine ⟨normal.separated.tidy, ?_⟩
  intro c cs inside
  obtain ⟨earlier, later, eq, content⟩ := content_of_inside_parse delimited text inside
  have mem : c ∈ registry.conventions := by
    rw [eq]
    exact List.mem_append_right earlier List.mem_cons_self
  exact .of_content (delimited c mem).closing (normal.of_inside inside).separated content

/-- The innermost span holds a closing, but not its own. -/
theorem tidy_parse_nested :
    let text := "!a [b <c!> ] d] e! <> [é"
    (∀ c ∈ Registry.builtin.conventions, c.Delimited) ∧ Tidy (parse .builtin text) ∧
      Inside (.span .angleBrackets [.plain "c!"]) (parse .builtin text) ∧
      TidyInside .angleBrackets [.plain "c!"] := by
  intro text
  have parsed : parse .builtin text =
      [.span .exclamation
        [.plain "a ",
          .span .squareBrackets [.plain "b ", .span .angleBrackets [.plain "c!"], .plain " "],
          .plain " d] e"],
        .plain " <> [é"] := by
    subst text
    rfl
  have inside : Inside (.span .angleBrackets [.plain "c!"]) (parse .builtin text) := by
    rw [parsed]
    simp
  obtain ⟨tidy, tidyInside⟩ := tidy_parse Registry.delimited_builtin text
  exact ⟨Registry.delimited_builtin, tidy, inside, tidyInside _ _ inside⟩

end Segment

end InlineMarkup
