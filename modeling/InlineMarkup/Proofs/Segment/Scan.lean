import InlineMarkup.Proofs.Segment.Atoms

/-!
# The scan of a convention over atoms

What a convention claims, said without positions: the atoms are read from the left. Where they
begin with the opening, the first closing after it bounds a span; if none follows, all that
remains is ordinary text; if it follows at once, one atom is. Elsewhere one atom is ordinary text.

The atoms may be those of bytes or of characters.
-/

namespace InlineMarkup

namespace Scan

open Segment

variable {α : Type} [DecidableEq α]

/-- What follows the pattern, if the atoms begin with it. -/
def after? : List α → List (Segment α) → Option (List (Segment α))
  | [], atoms => some atoms
  | a :: pattern, .plain b :: atoms => if a = b then after? pattern atoms else none
  | _ :: _, _ => none

/-- What stands before the first occurrence of the pattern, and what follows it. -/
def split? (pattern : List α) : List (Segment α) → Option (List (Segment α) × List (Segment α))
  | [] => (after? pattern []).map ([], ·)
  | atom :: atoms =>
    match after? pattern (atom :: atoms) with
    | some rest => some ([], rest)
    | none => (split? pattern atoms).map fun (before, rest) => (atom :: before, rest)

theorem after?_eq_some_iff {pattern : List α} {atoms rest : List (Segment α)} :
    after? pattern atoms = some rest ↔ atoms = pattern.map .plain ++ rest := by
  induction pattern generalizing atoms with
  | nil => simp [after?]
  | cons a pattern ih =>
    match atoms with
    | [] => simp [after?]
    | .span c cs :: atoms => simp [after?]
    | .plain b :: atoms =>
      by_cases same : a = b
      · simp [after?, same, ih]
      · simp [after?, same, Ne.symm same]

theorem after?_map_plain_append (pattern : List α) (rest : List (Segment α)) :
    after? pattern (pattern.map .plain ++ rest) = some rest :=
  after?_eq_some_iff.2 rfl

/-- A pattern that begins like the atoms goes on as they do. -/
theorem after?_append (text pattern : List α) (rest : List (Segment α)) :
    after? (text ++ pattern) (text.map .plain ++ rest) = after? pattern rest := by
  induction text with
  | nil => rfl
  | cons a text ih => simp [after?, ih]

theorem after?_nil {pattern : List α} (filled : pattern ≠ []) : after? pattern [] = none := by
  cases pattern with
  | nil => exact absurd rfl filled
  | cons a pattern => rfl

theorem after?_span {pattern : List α} (filled : pattern ≠ []) (c : Convention)
    (cs atoms : List (Segment α)) : after? pattern (.span c cs :: atoms) = none := by
  cases pattern with
  | nil => exact absurd rfl filled
  | cons a pattern => rfl

theorem split?_nil {pattern : List α} (filled : pattern ≠ []) : split? pattern [] = none := by
  rw [split?, after?_nil filled, Option.map_none]

theorem split?_of_after?_eq_some {pattern : List α} {atoms rest : List (Segment α)}
    (h : after? pattern atoms = some rest) : split? pattern atoms = some ([], rest) := by
  cases atoms with
  | nil => rw [split?, h, Option.map_some]
  | cons atom atoms => simp only [split?, h]

theorem split?_cons_of_after?_eq_none {pattern : List α} {atom : Segment α}
    {atoms : List (Segment α)} (h : after? pattern (atom :: atoms) = none) :
    split? pattern (atom :: atoms) =
      (split? pattern atoms).map fun (before, rest) => (atom :: before, rest) := by
  simp only [split?, h]

theorem split?_span {pattern : List α} (filled : pattern ≠ []) (c : Convention)
    (cs atoms : List (Segment α)) :
    split? pattern (.span c cs :: atoms) =
      (split? pattern atoms).map fun (before, rest) => (.span c cs :: before, rest) :=
  split?_cons_of_after?_eq_none (after?_span filled c cs atoms)

/-- Splitting takes out one occurrence of the pattern and nothing else. -/
theorem eq_of_split?_eq_some {pattern : List α} {atoms before rest : List (Segment α)}
    (h : split? pattern atoms = some (before, rest)) :
    atoms = before ++ (pattern.map .plain ++ rest) := by
  induction atoms generalizing before with
  | nil =>
    obtain ⟨rest', found, eq⟩ := Option.map_eq_some_iff.1 h
    cases eq
    exact after?_eq_some_iff.1 found
  | cons atom atoms ih =>
    cases found : after? pattern (atom :: atoms) with
    | some rest' =>
      rw [split?_of_after?_eq_some found] at h
      cases h
      exact after?_eq_some_iff.1 found
    | none =>
      rw [split?_cons_of_after?_eq_none found] at h
      obtain ⟨⟨before', rest'⟩, later, eq⟩ := Option.map_eq_some_iff.1 h
      cases eq
      rw [ih later, List.cons_append]

theorem after?_eq_none_iff {pattern : List α} {atoms : List (Segment α)} :
    after? pattern atoms = none ↔ ¬ pattern.map .plain <+: atoms := by
  rw [Option.eq_none_iff_forall_ne_some]
  constructor
  · rintro missing ⟨rest, eq⟩
    exact missing rest (after?_eq_some_iff.2 eq.symm)
  · intro missing rest found
    exact missing ⟨rest, (after?_eq_some_iff.1 found).symm⟩

/-- Nothing before the first occurrence of a pattern is one. -/
theorem not_infix_of_split?_eq_some {pattern : List α} (filled : pattern ≠ [])
    {atoms before rest : List (Segment α)} (h : split? pattern atoms = some (before, rest)) :
    ¬ pattern.map .plain <:+: before := by
  induction atoms generalizing before with
  | nil => simp [split?_nil filled] at h
  | cons atom atoms ih =>
    cases found : after? pattern (atom :: atoms) with
    | some rest' =>
      rw [split?_of_after?_eq_some found] at h
      cases h
      simpa using filled
    | none =>
      have whole := eq_of_split?_eq_some h
      rw [split?_cons_of_after?_eq_none found] at h
      obtain ⟨⟨before', rest'⟩, later, eq⟩ := Option.map_eq_some_iff.1 h
      cases eq
      rw [List.infix_cons_iff, not_or]
      refine ⟨fun starts => ?_, ih later⟩
      have start : pattern.map .plain <+: atom :: atoms := by
        rw [whole]
        exact starts.trans (List.prefix_append _ _)
      exact after?_eq_none_iff.1 found start

theorem length_lt_of_claimed {opening closing : List α} {atoms inside content rest :
    List (Segment α)} {atom : Segment α} (hopen : after? opening atoms = some inside)
    (hclose : split? closing inside = some (atom :: content, rest)) :
    rest.length < atoms.length := by
  rw [after?_eq_some_iff.1 hopen, eq_of_split?_eq_some hclose]
  simp only [List.length_append, List.length_map, List.length_cons]
  omega

/-- The atoms with the spans of `c` claimed. -/
def claim (c : Convention) (opening closing : List α) : List (Segment α) → List (Segment α)
  | [] => []
  | atom :: atoms =>
    match _ : after? opening (atom :: atoms) with
    | none => atom :: claim c opening closing atoms
    | some inside =>
      match _ : split? closing inside with
      | none => atom :: atoms
      | some ([], _) => atom :: claim c opening closing atoms
      | some (first :: content, rest) =>
        .span c (first :: content) :: claim c opening closing rest
termination_by atoms => atoms.length
decreasing_by
  · simp
  · simp
  · exact length_lt_of_claimed ‹_› ‹_›

/-- The atoms with the spans of `c` claimed, where `write` gives the pieces of its delimiters. -/
def pass (write : String → List α) (c : Convention) (atoms : List (Segment α)) :
    List (Segment α) :=
  claim c (write c.opening) (write c.closing) atoms

section Claim

variable {c : Convention} {opening closing : List α} {atom : Segment α}
  {atoms inside content rest : List (Segment α)}

@[simp] theorem claim_nil : claim c opening closing [] = [] := by rw [claim]

theorem claim_cons_of_no_opening (hopen : after? opening (atom :: atoms) = none) :
    claim c opening closing (atom :: atoms) = atom :: claim c opening closing atoms := by
  rw [claim]
  split <;> simp_all

theorem claim_of_no_closing (hopen : after? opening atoms = some inside)
    (hclose : split? closing inside = none) : claim c opening closing atoms = atoms := by
  cases atoms with
  | nil => exact claim_nil
  | cons atom atoms =>
    rw [claim]
    split
    · simp_all
    · split <;> simp_all

theorem claim_cons_of_nothing_inside (hopen : after? opening (atom :: atoms) = some inside)
    (hclose : split? closing inside = some ([], rest)) :
    claim c opening closing (atom :: atoms) = atom :: claim c opening closing atoms := by
  rw [claim]
  split
  · rfl
  · split <;> simp_all

theorem claim_of_content (hopen : after? opening atoms = some inside)
    (hclose : split? closing inside = some (content, rest)) (filled : content ≠ []) :
    claim c opening closing atoms = .span c content :: claim c opening closing rest := by
  cases atoms with
  | nil =>
    -- Nothing stands inside nothing.
    have shape := after?_eq_some_iff.1 hopen
    rw [eq_of_split?_eq_some hclose] at shape
    simp [filled] at shape
  | cons atom atoms =>
    rw [claim]
    split
    · simp_all
    · split <;> simp_all

end Claim

/-- Induction on a scan: it ends, passes over one atom, gives up, or claims a span. -/
@[elab_as_elim]
theorem claim_cases (c : Convention) (opening closing : List α)
    {motive : List (Segment α) → Prop} (nil : motive [])
    (literal : ∀ atom atoms, motive atoms →
      claim c opening closing (atom :: atoms) = atom :: claim c opening closing atoms →
      motive (atom :: atoms))
    (stop : ∀ atoms inside, after? opening atoms = some inside →
      split? closing inside = none → claim c opening closing atoms = atoms → motive atoms)
    (span : ∀ content rest, content ≠ [] →
      split? closing (content ++ (closing.map .plain ++ rest)) = some (content, rest) →
      motive rest →
      claim c opening closing (opening.map .plain ++ (content ++ (closing.map .plain ++ rest))) =
        .span c content :: claim c opening closing rest →
      motive (opening.map .plain ++ (content ++ (closing.map .plain ++ rest)))) :
    ∀ atoms, motive atoms := by
  intro atoms
  induction size : atoms.length using Nat.strongRecOn generalizing atoms with
  | ind n ih =>
    subst size
    match atoms with
    | [] => exact nil
    | atom :: atoms =>
      cases hopen : after? opening (atom :: atoms) with
      | none =>
        exact literal atom atoms (ih _ (by simp) _ rfl) (claim_cons_of_no_opening hopen)
      | some inside =>
        match hclose : split? closing inside with
        | none => exact stop _ _ hopen hclose (claim_of_no_closing hopen hclose)
        | some ([], rest) =>
          exact literal atom atoms (ih _ (by simp) _ rfl)
            (claim_cons_of_nothing_inside hopen hclose)
        | some (first :: content, rest) =>
          have shape : atom :: atoms =
              opening.map .plain ++ (first :: content ++ (closing.map .plain ++ rest)) := by
            rw [after?_eq_some_iff.1 hopen, eq_of_split?_eq_some hclose]
          have claimed : claim c opening closing (atom :: atoms) =
              .span c (first :: content) :: claim c opening closing rest :=
            claim_of_content hopen hclose (List.cons_ne_nil first content)
          have below := ih _ (length_lt_of_claimed hopen hclose) rest rfl
          rw [shape] at claimed ⊢
          rw [eq_of_split?_eq_some hclose] at hclose
          exact span _ _ (by simp) hclose below claimed

/-- What a scan puts into a span that it claims from the atoms: something, up to the first
closing, and nothing new. -/
structure Content (closing : List α) (atoms content : List (Segment α)) : Prop where
  filled : content ≠ []
  closed : ∃ rest, split? closing (content ++ (closing.map .plain ++ rest)) = some (content, rest)
  inside : ∀ {s}, Inside s content → Inside s atoms

theorem Content.mono {closing : List α} {atoms atoms' content : List (Segment α)}
    (h : Content closing atoms content) (sub : ∀ s, Inside s atoms → Inside s atoms') :
    Content closing atoms' content where
  filled := h.filled
  closed := h.closed
  inside s := sub _ (h.inside s)

/-- A scan makes spans of its own convention and leaves all that it was given as it is. -/
theorem inside_claim {c : Convention} {opening closing : List α} {s : Segment α}
    {atoms : List (Segment α)} (h : Inside s (claim c opening closing atoms)) :
    (∃ content, s = .span c content ∧ Content closing atoms content) ∨ Inside s atoms := by
  induction atoms using claim_cases c opening closing with
  | nil =>
    rw [claim_nil] at h
    exact .inr h
  | literal atom atoms ih step =>
    rw [step, ← List.singleton_append, inside_append_iff] at h
    rcases h with h | h
    · rw [← List.singleton_append, inside_append_iff]
      exact .inr (.inl h)
    · rcases ih h with ⟨content, eq, made⟩ | h
      · exact .inl ⟨content, eq, made.mono fun s inside => inside.tail atom⟩
      · exact .inr (h.tail atom)
  | stop atoms inside hopen hclose step =>
    rw [step] at h
    exact .inr h
  | span content rest filled closed ih step =>
    rw [step, inside_span_cons_iff] at h
    have held {s} (inside : Inside s content) :
        Inside s (opening.map .plain ++ (content ++ (closing.map .plain ++ rest))) := by
      simp only [inside_append_iff]
      exact .inr (.inl inside)
    have later {s} (inside : Inside s rest) :
        Inside s (opening.map .plain ++ (content ++ (closing.map .plain ++ rest))) := by
      simp only [inside_append_iff]
      exact .inr (.inr (.inr inside))
    rcases h with h | h | h
    · exact .inl ⟨content, h, filled, ⟨rest, closed⟩, held⟩
    · exact .inr (held h)
    · rcases ih h with ⟨content', eq, made⟩ | h
      · exact .inl ⟨content', eq, made.mono fun s inside => later inside⟩
      · exact .inr (later h)

/-- Atoms before the first opening are ordinary text. -/
theorem claim_of_split?_eq_some {c : Convention} {opening closing : List α}
    {atoms before rest : List (Segment α)} (h : split? opening atoms = some (before, rest)) :
    claim c opening closing atoms =
      before ++ claim c opening closing (opening.map .plain ++ rest) := by
  induction atoms generalizing before with
  | nil =>
    have shape := eq_of_split?_eq_some h
    simp only [List.nil_eq, List.append_eq_nil_iff] at shape
    simp [shape]
  | cons atom atoms ih =>
    cases found : after? opening (atom :: atoms) with
    | some rest' =>
      rw [split?_of_after?_eq_some found] at h
      cases h
      rw [List.nil_append, ← after?_eq_some_iff.1 found]
    | none =>
      rw [split?_cons_of_after?_eq_none found] at h
      obtain ⟨⟨before', rest'⟩, later, eq⟩ := Option.map_eq_some_iff.1 h
      cases eq
      rw [claim_cons_of_no_opening found, ih later, List.cons_append]

/-- Atoms without an opening are ordinary text. -/
theorem claim_of_split?_eq_none {c : Convention} {opening closing : List α}
    {atoms : List (Segment α)} (h : split? opening atoms = none) :
    claim c opening closing atoms = atoms := by
  induction atoms with
  | nil => exact claim_nil
  | cons atom atoms ih =>
    cases found : after? opening (atom :: atoms) with
    | some rest => simp [split?_of_after?_eq_some found] at h
    | none =>
      rw [split?_cons_of_after?_eq_none found, Option.map_eq_none_iff] at h
      rw [claim_cons_of_no_opening found, ih h]

end Scan

end InlineMarkup
