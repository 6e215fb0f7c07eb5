import Mathlib.Data.List.Infix
import InlineMarkup.Proofs.Registry.Order
import InlineMarkup.Proofs.Segment.Dissolve
import InlineMarkup.Proofs.Segment.Idle

/-!
# Conventions a text does not use

A convention claims nothing from a text in which its closing never follows its opening, whatever
the other conventions claim: with the delimiters of their spans written back, an opening and a
closing that they left apart would stand in the text itself. So such a convention may be registered
or not (`parse_ofList_insert`).
-/

namespace InlineMarkup

/-- The closing of the convention stands in the text, at or after the end of its opening. -/
def Convention.UsedIn (c : Convention) (text : String) : Prop :=
  ∃ before inside after : String,
    text = before ++ (c.opening ++ (inside ++ (c.closing ++ after)))

theorem Convention.usedIn_iff {c : Convention} {text : String} :
    c.UsedIn text ↔ ∃ rest ∈ text.toList.tails, c.opening.toList <+: rest ∧
      c.closing.toList <:+: rest.drop c.opening.toList.length := by
  constructor
  · rintro ⟨before, inside, after, rfl⟩
    have whole : (before ++ (c.opening ++ (inside ++ (c.closing ++ after)))).toList =
        before.toList ++ (c.opening.toList ++
          (inside.toList ++ (c.closing.toList ++ after.toList))) := by simp
    rw [whole]
    refine ⟨_, (List.mem_tails _ _).2 (List.suffix_append before.toList _),
      List.prefix_append _ _, ?_⟩
    rw [List.drop_left]
    exact ⟨inside.toList, after.toList, by rw [List.append_assoc]⟩
  · rintro ⟨rest, tail, ⟨later, rfl⟩, closes⟩
    obtain ⟨before, eq⟩ := (List.mem_tails _ _).1 tail
    rw [List.drop_left] at closes
    obtain ⟨inside, after, rfl⟩ := closes
    refine ⟨.ofList before, .ofList inside, .ofList after, String.toList_inj.1 ?_⟩
    rw [← eq]
    simp

instance (c : Convention) (text : String) : Decidable (c.UsedIn text) :=
  decidable_of_iff _ Convention.usedIn_iff.symm

/-! ## One convention more in a registry -/

namespace Registry

theorem exists_place (c : Convention) (l : List Convention) :
    ∃ earlier later, place c l = earlier ++ c :: later ∧ l = earlier ++ later := by
  induction l with
  | nil => exact ⟨[], [], rfl, rfl⟩
  | cons d rest ih =>
    rw [place]
    split
    · exact ⟨[], d :: rest, rfl, rfl⟩
    · obtain ⟨earlier, later, placed, eq⟩ := ih
      exact ⟨d :: earlier, later, by rw [placed, List.cons_append], by rw [eq, List.cons_append]⟩

/-- A convention is put in the same place, whether or not `c` stands among the others. -/
theorem exists_place_append_cons {c d : Convention} {earlier later : List Convention}
    (ordered : (earlier ++ c :: later).Pairwise fun a b => b.openingSize ≤ a.openingSize) :
    ∃ earlier' later', place d (earlier ++ c :: later) = earlier' ++ c :: later' ∧
      place d (earlier ++ later) = earlier' ++ later' := by
  induction earlier with
  | nil =>
    obtain ⟨below, -⟩ := List.pairwise_cons.1 ordered
    rw [List.nil_append, List.nil_append, place]
    split
    · rename_i le
      refine ⟨[d], later, rfl, ?_⟩
      apply place_of_forall_le
      intro e mem
      exact Nat.le_trans (below e mem) le
    · exact ⟨[], place d later, rfl, rfl⟩
  | cons e earlier ih =>
    rw [List.cons_append, List.cons_append, place, place]
    split
    · exact ⟨d :: e :: earlier, later, rfl, rfl⟩
    · obtain ⟨earlier', later', with_c, without⟩ := ih (List.pairwise_cons.1 ordered).2
      exact ⟨e :: earlier', later', by rw [with_c, List.cons_append],
        by rw [without, List.cons_append]⟩

/-- One convention more stands somewhere in the matching order of the others. -/
theorem exists_arrange_append_cons (c : Convention) (before after : List Convention) :
    ∃ earlier later, arrange (before ++ c :: after) = earlier ++ c :: later ∧
      arrange (before ++ after) = earlier ++ later := by
  induction before with
  | nil => exact exists_place c (arrange after)
  | cons d before ih =>
    obtain ⟨earlier, later, with_c, without⟩ := ih
    have ordered := pairwise_arrange (before ++ c :: after)
    rw [with_c] at ordered
    have step := exists_place_append_cons (d := d) ordered
    rw [← with_c, ← without] at step
    exact step

end Registry

namespace Segment

open Scan

/-- With the delimiters of all its spans written back, what was scanned is the text again. -/
theorem dissolve_scanned (conventions : List Convention) (text : String) :
    dissolve characters conventions (scanned conventions text) = text.toList.map .plain := by
  rw [scanned, dissolve_foldl_pass fun c mem => mem, dissolve_map_plain]

/-- Delimiters that stand apart in what was scanned stand apart in the text. -/
theorem usedIn_of_scanned {conventions : List Convention} {text : String} {c : Convention}
    {before inside after : List (Segment Char)}
    (eq : scanned conventions text =
      before ++ (characters c.opening ++ (inside ++ (characters c.closing ++ after)))) :
    c.UsedIn text := by
  have whole := dissolve_scanned conventions text
  rw [eq] at whole
  simp only [dissolve_append, dissolve_map_plain] at whole
  obtain ⟨before', later, split, -, whole⟩ := List.map_eq_append_iff.1 whole.symm
  obtain ⟨opening, later, rfl, opens, whole⟩ := List.map_eq_append_iff.1 whole
  obtain ⟨inside', later, rfl, -, whole⟩ := List.map_eq_append_iff.1 whole
  obtain ⟨closing, after', rfl, closes, -⟩ := List.map_eq_append_iff.1 whole
  refine ⟨.ofList before', .ofList inside', .ofList after', String.toList_inj.1 ?_⟩
  rw [split, (List.map_injective_iff.2 plain_injective) opens,
    (List.map_injective_iff.2 plain_injective) closes]
  simp

/-- The scan of a convention that the text does not use may be left out. -/
theorem scanned_of_not_usedIn {text : String} {c : Convention} (unused : ¬ c.UsedIn text)
    (earlier later : List Convention) :
    scanned (earlier ++ c :: later) text = scanned (earlier ++ later) text := by
  have idle : Scan.pass String.toList c (scanned earlier text) = scanned earlier text := by
    apply claim_eq_self_of_idle
    intro before rest eq
    left
    rintro ⟨inside, after, closes⟩
    exact unused (usedIn_of_scanned (by rw [eq, ← closes, List.append_assoc]))
  rw [scanned_append, scanned_append, List.foldl_cons, idle]

/-- A convention that a text does not use may stand anywhere among those that are registered, or not
at all: the text is parsed and shown alike. -/
theorem parse_ofList_insert {before after : List Convention} {c : Convention}
    (delimited : ∀ d ∈ before ++ c :: after, d.Delimited) {text : String}
    (unused : ¬ c.UsedIn text) :
    parse (.ofList (before ++ c :: after)) text = parse (.ofList (before ++ after)) text ∧
      ∀ chosen, Html.render (parse (.ofList (before ++ c :: after)) text) chosen =
        Html.render (parse (.ofList (before ++ after)) text) chosen := by
  have fewer : ∀ d ∈ before ++ after, d.Delimited := by
    intro d mem
    apply delimited
    rcases List.mem_append.1 mem with mem | mem
    · exact List.mem_append_left _ mem
    · exact List.mem_append_right _ (List.mem_cons_of_mem c mem)
  have with_c : ∀ d ∈ (Registry.ofList (before ++ c :: after)).conventions, d.Delimited :=
    fun d mem => delimited d (Registry.mem_arrange_iff.1 mem)
  have without : ∀ d ∈ (Registry.ofList (before ++ after)).conventions, d.Delimited :=
    fun d mem => fewer d (Registry.mem_arrange_iff.1 mem)
  have same : parse (.ofList (before ++ c :: after)) text =
      parse (.ofList (before ++ after)) text := by
    refine (normal_parse with_c text).eq_of_atoms_eq (fun _ _ => String.toList_inj.1)
      (normal_parse without text) ?_
    obtain ⟨earlier, later, eq, eq'⟩ := Registry.exists_arrange_append_cons c before after
    rw [atoms_parse with_c, atoms_parse without, Registry.ofList, Registry.ofList]
    dsimp only
    rw [eq, eq', scanned_of_not_usedIn unused]
  exact ⟨same, fun chosen => by rw [same]⟩

/-- Square brackets do nothing where they only ever stand the wrong way round, inside and outside
the spans of others. -/
theorem parse_ofList_insert_squareBrackets :
    let text := "] !a <b]> [c! ü["
    (∀ d ∈ [.exclamation] ++ .squareBrackets :: [.angleBrackets], Convention.Delimited d) ∧
      ¬ Convention.squareBrackets.UsedIn text ∧
      parse (.ofList ([.exclamation] ++ .squareBrackets :: [.angleBrackets])) text =
        parse (.ofList ([.exclamation] ++ [.angleBrackets])) text ∧
      ∀ chosen,
        Html.render
            (parse (.ofList ([.exclamation] ++ .squareBrackets :: [.angleBrackets])) text) chosen =
          Html.render (parse (.ofList ([.exclamation] ++ [.angleBrackets])) text) chosen := by
  intro text
  have delimited :
      ∀ d ∈ [.exclamation] ++ .squareBrackets :: [.angleBrackets], Convention.Delimited d := by
    intro d mem
    apply Convention.delimited_of_isValid
    apply Convention.isValid_of_mem_builtins
    simp only [List.cons_append, List.nil_append, List.mem_cons, List.not_mem_nil, or_false] at mem
    rcases mem with rfl | rfl | rfl <;> simp [Convention.builtins]
  have unused : ¬ Convention.squareBrackets.UsedIn text := by
    subst text
    decide +kernel
  exact ⟨delimited, unused, parse_ofList_insert delimited unused⟩

end Segment

end InlineMarkup
