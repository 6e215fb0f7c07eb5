import InlineMarkup.Proofs.Record

/-!
# Delimiters that authors type

How the tokens follow from what an author typed, said without the cases of `Delimiters.ofTyped`
(`Delimiters.Derived`). The tokens and the number of characters determine what was typed. The tokens
alone leave one choice: two characters and the same two characters twice give the same tokens
(`Delimiters.detect?_eq_detect?_iff`).
-/

namespace InlineMarkup.Delimiters

/-- The tokens that follow from typed characters. One or two characters are mirrored; three or four
are cut behind the first or the second, and what is behind the cut is reversed. -/
structure Derived (typed : List Char) (d : Delimiters) : Prop where
  mirrored : typed.length ≤ 2 → d.opening.toList = typed ∧ d.closing.toList = typed.reverse
  cut : 3 ≤ typed.length → d.opening.toList ++ d.closing.toList.reverse = typed
  three : typed.length = 3 → d.opening.toList.length = 1
  four : typed.length = 4 → d.opening.toList.length = 2

/-- The second text is the first, of two characters, twice. -/
def Twice (s t : String) : Prop :=
  s.toList.length = 2 ∧ t = s ++ s

/-! ## What the tokens say -/

section Derived

variable {typed typed' : List Char} {d : Delimiters}

theorem derived_ofTyped (short : typed.length ≤ 4) : Derived typed (ofTyped typed) := by
  match typed, short with
  | [], _ | [_], _ | [_, _], _ => constructor <;> simp [ofTyped]
  | [_, _, _], _ => constructor <;> simp [ofTyped]
  | [_, _, _, _], _ => constructor <;> simp [ofTyped]

namespace Derived

/-- The numbers of characters that were typed and that each token has. -/
theorem lengths (h : Derived typed d) (short : typed.length ≤ 4) :
    typed.length ≤ 2 ∧ d.opening.toList.length = typed.length ∧
        d.closing.toList.length = typed.length ∨
      typed.length = 3 ∧ d.opening.toList.length = 1 ∧ d.closing.toList.length = 2 ∨
      typed.length = 4 ∧ d.opening.toList.length = 2 ∧ d.closing.toList.length = 2 := by
  rcases Nat.lt_or_ge 2 typed.length with many | few
  · have whole := congrArg List.length (h.cut many)
    rw [List.length_append, List.length_reverse] at whole
    rcases (by omega : typed.length = 3 ∨ typed.length = 4) with three | four
    · have first := h.three three
      omega
    · have first := h.four four
      omega
  · obtain ⟨opening, closing⟩ := h.mirrored few
    left
    rw [opening, closing, List.length_reverse]
    exact ⟨few, rfl, rfl⟩

/-- The tokens tell how many characters were typed, but for two and four. -/
theorem length_eq_or (h : Derived typed d) (h' : Derived typed' d) (short : typed.length ≤ 4)
    (short' : typed'.length ≤ 4) :
    typed.length = typed'.length ∨ typed.length = 2 ∧ typed'.length = 4 ∨
      typed.length = 4 ∧ typed'.length = 2 := by
  have here := h.lengths short
  have there := h'.lengths short'
  omega

/-- The tokens and the number of characters tell what was typed. -/
theorem eq_of_length_eq (h : Derived typed d) (h' : Derived typed' d)
    (length : typed.length = typed'.length) : typed = typed' := by
  by_cases few : typed.length ≤ 2
  · rw [← (h.mirrored few).1, ← (h'.mirrored (by omega)).1]
  · rw [← h.cut (by omega), ← h'.cut (by omega)]

/-- If two characters or four may have been typed, the four are the two twice. -/
theorem eq_append_self (h : Derived typed d) (h' : Derived typed' d) (two : typed.length = 2)
    (four : typed'.length = 4) : typed' = typed ++ typed := by
  obtain ⟨opening, closing⟩ := h.mirrored (by omega)
  rw [← h'.cut (by omega), opening, closing, List.reverse_reverse]

end Derived

end Derived

/-! ## What authors type -/

theorem isToken_ofList_iff {l : List Char} :
    isToken (String.ofList l) ↔ l ≠ [] ∧ l.length ≤ maxLength ∧ ∀ c ∈ l, Ascii.isGraphic c := by
  rw [isToken_iff, String.toList_ofList]

/-- The delimiters derived from a typed sequence are well formed. -/
theorem isValid_of_detect? {typed : String} {d : Delimiters} (h : detect? typed = some d) :
    d.isValid := by
  unfold detect? at h
  split at h
  · rename_i token
    cases h
    obtain ⟨filled, short, graphic⟩ := isToken_iff.1 token
    rw [isValid, Bool.and_eq_true]
    generalize typed.toList = l at filled short graphic
    unfold ofTyped
    split
    · simp only [isToken_ofList_iff, List.forall_mem_cons] at graphic ⊢
      simp [graphic, maxLength]
    · simp only [isToken_ofList_iff, List.forall_mem_cons] at graphic ⊢
      simp [graphic, maxLength]
    · simp only [isToken_ofList_iff, List.length_reverse, List.mem_reverse, ne_eq,
        List.reverse_eq_nil_iff]
      exact ⟨⟨filled, short, graphic⟩, filled, short, graphic⟩
  · cases h

variable {a b : String}

theorem length_le_of_isToken (token : isToken a) : a.toList.length ≤ 4 :=
  (isToken_iff.1 token).2.1

theorem derived_of_detect? {d : Delimiters} (h : detect? a = some d) : Derived a.toList d := by
  unfold detect? at h
  split at h
  · rename_i token
    cases h
    exact derived_ofTyped (length_le_of_isToken token)
  · cases h

/-- Two characters that are typed twice give the tokens of the two. -/
theorem Twice.detect?_eq (twice : Twice a b) (token : isToken a) : detect? a = detect? b := by
  obtain ⟨two, rfl⟩ := twice
  obtain ⟨x, y, eq⟩ := List.length_eq_two.1 two
  have eqTwice : (a ++ a).toList = [x, y, x, y] := by
    rw [String.toList_append, eq]
    rfl
  have tokenTwice : isToken (a ++ a) := by
    rw [isToken_iff, eq] at token
    rw [isToken_iff, eqTwice]
    obtain ⟨-, -, graphic⟩ := token
    refine ⟨List.cons_ne_nil x _, Nat.le_refl 4, ?_⟩
    simp only [List.forall_mem_cons] at graphic ⊢
    exact ⟨graphic.1, graphic.2.1, graphic⟩
  rw [detect?, if_pos token, detect?, if_pos tokenTwice, eq, eqTwice]
  rfl

theorem detect?_eq_detect?_iff (ha : isToken a) (hb : isToken b) :
    detect? a = detect? b ↔ a = b ∨ Twice a b ∨ Twice b a := by
  constructor
  · intro same
    obtain ⟨d, read⟩ := Option.isSome_iff_exists.1 (detect?_isSome_iff.2 ha)
    have here := derived_of_detect? read
    have there := derived_of_detect? (same ▸ read)
    rcases here.length_eq_or there (length_le_of_isToken ha) (length_le_of_isToken hb) with
      length | ⟨two, four⟩ | ⟨four, two⟩
    · exact .inl (String.toList_inj.1 (here.eq_of_length_eq there length))
    · refine .inr (.inl ⟨two, String.toList_inj.1 ?_⟩)
      rw [String.toList_append, here.eq_append_self there two four]
    · refine .inr (.inr ⟨two, String.toList_inj.1 ?_⟩)
      rw [String.toList_append, there.eq_append_self here two four]
  · rintro (rfl | twice | twice)
    · rfl
    · exact twice.detect?_eq ha
    · exact (twice.detect?_eq hb).symm

/-- Exactly the sequences that are tokens themselves give delimiters, which are well formed and
follow from the characters. Two sequences give the same delimiters only if they are equal or one
is two characters and the other is the same two twice. -/
theorem detect?_exact (typed : String) :
    ((detect? typed).isSome ↔ Token typed) ∧
      (∀ d, detect? typed = some d → d.isValid ∧ Derived typed.toList d) ∧
      ∀ other, (detect? typed).isSome → (detect? other).isSome →
        (detect? typed = detect? other ↔
          typed = other ∨ Twice typed other ∨ Twice other typed) := by
  refine ⟨?_, ?_, ?_⟩
  · rw [detect?_isSome_iff, isToken_iff_token]
  · intro d read
    exact ⟨isValid_of_detect? read, derived_of_detect? read⟩
  · intro other read readOther
    exact detect?_eq_detect?_iff (detect?_isSome_iff.1 read) (detect?_isSome_iff.1 readOther)

/-- Two characters that are no palindrome, and the same two twice. -/
theorem detect?_exact_twice :
    (detect? "<-").isSome ∧ (detect? "<-<-").isSome ∧ detect? "<-" = detect? "<-<-" ∧
      Derived "<-<-".toList ⟨"<-", "-<"⟩ := by
  have few : (detect? "<-").isSome := by decide
  have many : (detect? "<-<-").isSome := by decide
  have twice : Twice "<-" "<-<-" := ⟨rfl, rfl⟩
  have read : detect? "<-<-" = some ⟨"<-", "-<"⟩ := by decide
  obtain ⟨-, -, same⟩ := detect?_exact "<-"
  obtain ⟨-, derived, -⟩ := detect?_exact "<-<-"
  exact ⟨few, many, (same "<-<-" few many).2 (.inr (.inl twice)), (derived _ read).2⟩

end InlineMarkup.Delimiters
