import InlineMarkup.Registry

/-!
# Matching order

Conventions are put in matching order by a stable sort, longest opening first
(`Registry.arrange_eq_mergeSort`). So conventions that agree in the length of their opening are
listed in the order in which they were given (`Registry.filter_arrange`).
-/

namespace InlineMarkup.Registry

variable {c : Convention} {l longer others : List Convention}

/-- A convention goes before those with openings no longer than its own. -/
theorem place_of_forall_le (shorter : ∀ d ∈ l, d.openingSize ≤ c.openingSize) :
    place c l = c :: l := by
  cases l with
  | nil => rfl
  | cons d rest => rw [place, if_pos (shorter d List.mem_cons_self)]

/-- A convention goes behind those with longer openings. -/
theorem place_append (before : ∀ d ∈ longer, c.openingSize < d.openingSize)
    (behind : ∀ d ∈ others, d.openingSize ≤ c.openingSize) :
    place c (longer ++ others) = longer ++ c :: others := by
  induction longer with
  | nil => exact place_of_forall_le behind
  | cons d longer ih =>
    have first := before d List.mem_cons_self
    have rest : ∀ e ∈ longer, c.openingSize < e.openingSize := by
      intro e mem
      exact before e (List.mem_cons_of_mem d mem)
    rw [List.cons_append, place, if_neg (Nat.not_le.2 first), ih rest, List.cons_append]

theorem arrange_eq_mergeSort (l : List Convention) :
    arrange l = l.mergeSort fun a b => decide (b.openingSize ≤ a.openingSize) := by
  have trans : ∀ a b c : Convention, decide (b.openingSize ≤ a.openingSize) = true →
      decide (c.openingSize ≤ b.openingSize) = true →
      decide (c.openingSize ≤ a.openingSize) = true := by
    intro a b c
    simp only [decide_eq_true_eq]
    omega
  have total : ∀ a b : Convention,
      (decide (b.openingSize ≤ a.openingSize) ||
        decide (a.openingSize ≤ b.openingSize)) = true := by
    intro a b
    simp only [Bool.or_eq_true, decide_eq_true_eq]
    omega
  induction l with
  | nil => rw [List.mergeSort_nil]; rfl
  | cons c l ih =>
    -- the library sorts `c` in behind what is longer, too
    obtain ⟨longer, others, sorted, sorted', before⟩ := List.mergeSort_cons trans total c l
    have ordered := List.pairwise_mergeSort trans total (c :: l)
    rw [sorted] at ordered
    obtain ⟨behind, -⟩ := List.pairwise_cons.1 (List.pairwise_append.1 ordered).2.1
    have step : arrange (c :: l) = place c (arrange l) := rfl
    rw [step, ih, sorted', sorted]
    apply place_append
    · intro d mem
      simpa using before d mem
    · intro d mem
      simpa using behind d mem

section Filter

variable {p : Convention → Bool} {n : Nat} (same : ∀ c, p c → c.openingSize = n)
include same

theorem filter_place (c : Convention) (l : List Convention) :
    (place c l).filter p = (c :: l).filter p := by
  induction l with
  | nil => rfl
  | cons d rest ih =>
    rw [place]
    split
    · rfl
    · rename_i longer
      rw [List.filter_cons, ih]
      by_cases hc : p c
      · have different : p d = false := by
          rw [← Bool.not_eq_true]
          intro hd
          exact longer (Nat.le_of_eq ((same d hd).trans (same c hc).symm))
        simp [hc, different]
      · simp [List.filter_cons, hc]

/-- Among conventions with openings of one length nothing changes places. -/
theorem filter_arrange (l : List Convention) : (arrange l).filter p = l.filter p := by
  induction l with
  | nil => rfl
  | cons c l ih =>
    have step : arrange (c :: l) = place c (arrange l) := rfl
    rw [step, filter_place same, List.filter_cons, List.filter_cons, ih]

end Filter

end InlineMarkup.Registry
