/-!
# Named entries

Lists of values under names, where of several values under one name the first counts. Looking up
a name after `Entries.put` or after a deletion is described by `lookup_put` and
`lookup_filter_ne`.
-/

namespace InlineMarkup.Entries

variable {α : Type}

/-- Puts a value in the place of the one with its name, or at the end. -/
def put (name : String) (a : α) : List (String × α) → List (String × α)
  | [] => [(name, a)]
  | e :: rest => if e.1 = name then (name, a) :: rest else e :: put name a rest

theorem lookup_cons (name : String) (e : String × α) (l : List (String × α)) :
    (e :: l).lookup name = if name = e.1 then some e.2 else l.lookup name := by
  rw [List.lookup_cons]
  by_cases h : name = e.1
  · simp [h]
  · simp [h, beq_eq_false_iff_ne.2 h]

theorem lookup_put (name name' : String) (a : α) (l : List (String × α)) :
    (put name a l).lookup name' = if name' = name then some a else l.lookup name' := by
  induction l with
  | nil => simp [put, lookup_cons]
  | cons e rest ih =>
    unfold put
    by_cases he : e.1 = name
    · by_cases h : name' = name <;> simp [lookup_cons, he, h]
    · by_cases h : name' = e.1
      · simp [lookup_cons, he, h]
      · simp [lookup_cons, he, h, ih]

theorem lookup_filter_ne (name name' : String) (l : List (String × α)) :
    (l.filter (·.1 != name)).lookup name' = if name' = name then none else l.lookup name' := by
  induction l with
  | nil => simp
  | cons e rest ih =>
    by_cases he : e.1 = name
    · rw [List.filter_cons_of_neg (by simp [he]), ih, lookup_cons, he]
      by_cases h : name' = name <;> simp [h]
    · rw [List.filter_cons_of_pos (by simp [he]), lookup_cons, lookup_cons, ih]
      by_cases h : name' = e.1
      · simp [h, he]
      · simp [h]

end InlineMarkup.Entries
