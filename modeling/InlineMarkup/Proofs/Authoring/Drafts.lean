import InlineMarkup.Authoring.Draft
import InlineMarkup.Proofs.Delimiters

/-!
# Drafts that authors type

A draft that was made from what an author typed has delimiters and a color that pass every check
of a record. The convention it becomes under a custom key is therefore written down as a record
that describes the same convention (`Draft.Typed.toConvention_record`).
-/

namespace InlineMarkup

namespace Draft

/-- A draft made from what an author typed, with any description and sample. -/
def Typed (draft : Draft) : Prop :=
  ∃ typed color effects made description sample,
    ofInput typed color effects = .ok made ∧ draft = { made with description, sample }

/-- What a draft says and a convention should say, too. -/
structure CarriedBy (draft : Draft) (c : Convention) : Prop where
  delimiters : c.delimiters = draft.delimiters
  color : c.color = draft.color
  effects : c.effects = draft.effects
  usage : c.usage = draft.usage
  description : c.description = draft.description
  sample : c.sample = draft.sample

theorem carriedBy_toConvention (draft : Draft) (key : String) :
    draft.CarriedBy (draft.toConvention key) :=
  ⟨rfl, rfl, rfl, rfl, rfl, rfl⟩

theorem detect?_and_parse?_of_ofInput {typed color : String} {effects : Effects} {draft : Draft}
    (h : ofInput typed color effects = .ok draft) :
    Delimiters.detect? typed = some draft.delimiters ∧ Color.parse? color = some draft.color := by
  unfold ofInput at h
  split at h
  · cases h
  · rename_i detected
    split at h
    · cases h
    · rename_i parsed
      cases h
      exact ⟨detected, parsed⟩

namespace Typed

variable {draft : Draft}

theorem isValid (h : draft.Typed) : draft.delimiters.isValid := by
  obtain ⟨typed, color, effects, made, description, sample, input, rfl⟩ := h
  exact Delimiters.isValid_of_detect? (detect?_and_parse?_of_ofInput input).1

theorem parse?_display (h : draft.Typed) :
    Color.parse? draft.color.display = some draft.color := by
  obtain ⟨typed, color, effects, made, description, sample, input, rfl⟩ := h
  exact Color.parse?_display (detect?_and_parse?_of_ofInput input).2

/-- Under a custom key, the convention of a typed draft is read back from its record. -/
theorem toConvention_record (h : draft.Typed) {key : String}
    (custom : Convention.isBuiltinKey key = false) :
    (Record.ofConvention (draft.toConvention key)).toConvention = .ok (draft.toConvention key) :=
  Record.toConvention_ofConvention custom h.isValid h.parse?_display

end Typed

end Draft

end InlineMarkup
