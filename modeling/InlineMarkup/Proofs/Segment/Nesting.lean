import InlineMarkup.Proofs.Segment.Parse

/-!
# Nesting

A pass puts into its spans only what earlier passes left, and it never reads its own spans again.
So spans nest in matching order: each one belongs to an earlier convention than any span around
it (`nested_parse`), and there are no more levels than conventions.
-/

namespace InlineMarkup

/-- In matching order, `d` comes before `c`. -/
def Registry.Before (registry : Registry) (d c : Convention) : Prop :=
  [d, c].Sublist registry.conventions

namespace Segment

open Scan

variable {ρ α : Type}

/-! ## Depth -/

mutual

/-- The number of levels of spans of a segment. -/
def depthOne : Segment ρ → Nat
  | plain _ => 0
  | span _ cs => depth cs + 1

/-- The number of levels of spans. -/
def depth : List (Segment ρ) → Nat
  | [] => 0
  | s :: rest => max (depthOne s) (depth rest)

end

@[simp] theorem depth_nil : depth ([] : List (Segment ρ)) = 0 := rfl

@[simp] theorem depth_plain (run : ρ) (rest : List (Segment ρ)) :
    depth (.plain run :: rest) = depth rest := by
  rw [depth, depthOne, Nat.zero_max]

@[simp] theorem depth_span (c : Convention) (cs rest : List (Segment ρ)) :
    depth (.span c cs :: rest) = max (depth cs + 1) (depth rest) := by
  rw [depth, depthOne]

@[simp] theorem depth_append (l l' : List (Segment ρ)) :
    depth (l ++ l') = max (depth l) (depth l') := by
  induction l with
  | nil => simp
  | cons s rest ih => rw [List.cons_append, depth, depth, ih, Nat.max_assoc]

@[simp] theorem depth_map_plain (text : List ρ) : depth (text.map .plain) = 0 := by
  induction text with
  | nil => rfl
  | cons a text ih => rw [List.map_cons, depth_plain, ih]

/-- Spans are as deep among the atoms as among the segments. -/
theorem depth_atoms (pieces : ρ → List α) (l : List (Segment ρ)) :
    depth (atoms pieces l) = depth l := by
  induction l using listInduction with
  | nil => rfl
  | plain run rest ih => simp [ih]
  | span c cs rest inner ih => simp [inner, ih]

/-- A scan adds at most one level. -/
theorem depth_claim_le [DecidableEq α] (c : Convention) (opening closing : List α)
    (atoms : List (Segment α)) :
    depth (claim c opening closing atoms) ≤ depth atoms + 1 := by
  induction atoms using claim_cases c opening closing with
  | nil => simp
  | literal atom atoms ih step =>
    rw [step, depth, depth]
    omega
  | stop atoms inside hopen hclose step =>
    rw [step]
    omega
  | span content rest filled closed ih step =>
    rw [step, depth_span]
    simp only [depth_append, depth_map_plain]
    omega

theorem depth_scanned_le (conventions : List Convention) (text : String) :
    depth (scanned conventions text) ≤ conventions.length := by
  induction conventions using List.reverseRecOn with
  | nil => simp [scanned]
  | append_singleton conventions c ih =>
    rw [scanned_append, List.length_append]
    have added := depth_claim_le c c.opening.toList c.closing.toList (scanned conventions text)
    exact Nat.le_trans added (Nat.succ_le_succ ih)

/-! ## Spans in spans -/

section Parse

variable {registry : Registry} (delimited : ∀ c ∈ registry.conventions, c.Delimited)
  (text : String)

include delimited

theorem depth_parse_le : depth (parse registry text) ≤ registry.conventions.length := by
  rw [← depth_atoms String.toList, atoms_parse delimited]
  exact depth_scanned_le registry.conventions text

/-- A span inside another one was claimed earlier. -/
theorem before_of_inside {c d : Convention} {cs ds : List (Segment String)}
    (outer : Inside (.span c cs) (parse registry text)) (inner : Inside (.span d ds) cs) :
    registry.Before d c := by
  obtain ⟨earlier, later, eq, content⟩ := content_of_inside_parse delimited text outer
  have left := content.inside (inside_atoms String.toList inner)
  obtain ⟨first, between, rfl, -⟩ := content_of_inside_scanned left
  -- `d` is found before the place at which the list is cut for `c`
  have early : [d].Sublist (first ++ d :: between) := by simp
  have late : [c].Sublist (c :: later) := by simp
  rw [Registry.Before, eq]
  exact early.append late

end Parse

theorem key_ne_of_before {registry : Registry} (distinct : registry.keys.Nodup)
    {d c : Convention} (before : registry.Before d c) : d.key ≠ c.key := by
  have keys : [d.key, c.key].Sublist registry.keys := before.map Convention.key
  have pair := distinct.sublist keys
  simpa using pair

theorem openingSize_le_of_before {registry : Registry} {d c : Convention}
    (before : registry.Before d c) : c.openingSize ≤ d.openingSize := by
  have pair := registry.longestFirst.sublist before
  simpa using pair

/-- Spans nest in matching order. No convention is found inside itself at any distance, openings
do not get longer from the inside out, and there are no more levels than conventions. -/
theorem nested_parse {registry : Registry} (distinct : registry.keys.Nodup)
    (delimited : ∀ c ∈ registry.conventions, c.Delimited) (text : String) :
    (∀ c cs d ds, Inside (.span c cs) (parse registry text) → Inside (.span d ds) cs →
      registry.Before d c ∧ d.key ≠ c.key ∧ c.openingSize ≤ d.openingSize) ∧
    depth (parse registry text) ≤ registry.conventions.length := by
  refine ⟨?_, depth_parse_le delimited text⟩
  intro c cs d ds outer inner
  have before := before_of_inside delimited text outer inner
  exact ⟨before, key_ne_of_before distinct before, openingSize_le_of_before before⟩

/-- Doubled angle brackets two levels inside exclamation marks. -/
theorem nested_parse_doubled :
    let doubled : Convention := ⟨"doubled", ⟨"<<", ">>"⟩, .keyword, .none, "<<text>>", "", ""⟩
    let registry := Registry.ofList (Convention.builtins ++ [doubled])
    let text := "![a <<b>>] <c>!"
    let cs : List (Segment String) :=
      [.span .squareBrackets [.plain "a ", .span doubled [.plain "b"]], .plain " ",
        .span .angleBrackets [.plain "c"]]
    registry.keys.Nodup ∧ (∀ c ∈ registry.conventions, c.Delimited) ∧
      Inside (.span .exclamation cs) (parse registry text) ∧
      Inside (.span doubled [.plain "b"]) cs ∧
      (registry.Before doubled .exclamation ∧ doubled.key ≠ Convention.exclamation.key ∧
        Convention.exclamation.openingSize ≤ doubled.openingSize) ∧
      depth (parse registry text) ≤ registry.conventions.length := by
  intro doubled registry text cs
  have distinct : registry.keys.Nodup := by decide
  have valid : ∀ c ∈ registry.conventions, c.delimiters.isValid := by decide
  have delimited : ∀ c ∈ registry.conventions, c.Delimited := by
    intro c mem
    exact Convention.delimited_of_isValid (valid c mem)
  have parsed : parse registry text = [.span .exclamation cs] := by
    subst text cs registry doubled
    rfl
  have outer : Inside (.span .exclamation cs) (parse registry text) := by
    rw [parsed]
    exact .here List.mem_cons_self
  have inner : Inside (.span doubled [.plain "b"]) cs := by simp [cs]
  obtain ⟨nested, shallow⟩ := nested_parse distinct delimited text
  exact ⟨distinct, delimited, outer, inner, nested _ _ _ _ outer inner, shallow⟩

end Segment

end InlineMarkup
