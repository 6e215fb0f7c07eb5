/-!
# Sets of code points by their boundaries

A set of code points that comes in few runs is kept as the ascending list of its boundaries: the
first code point of the first run, the first one after it, the first code point of the second
run, and so on. A code point belongs to the set iff the number of boundaries up to it is odd.
-/

namespace InlineMarkup.Text

/-- Membership in the set with the ascending `boundaries`. -/
def inside (boundaries : List Nat) (n : Nat) : Bool :=
  (boundaries.takeWhile (· ≤ n)).length % 2 == 1

theorem inside_nil (n : Nat) : inside [] n = false := rfl

/-- Past the first boundary, membership is non-membership in the set of the other boundaries. -/
theorem inside_cons_of_le {b n : Nat} {rest : List Nat} (h : b ≤ n) :
    inside (b :: rest) n = !inside rest n := by
  simp only [inside, List.takeWhile_cons, decide_eq_true h, if_true, List.length_cons]
  rcases Nat.mod_two_eq_zero_or_one (rest.takeWhile (· ≤ n)).length with h' | h' <;>
    simp [Nat.add_mod, h']

theorem inside_cons_of_lt {b n : Nat} {rest : List Nat} (h : n < b) :
    inside (b :: rest) n = false := by
  simp [inside, Nat.not_le.2 h]

end InlineMarkup.Text
