import Mathlib.Data.List.TakeWhile
import InlineMarkup.Settings.Expansion

/-!
# What paths with variables stand for

A path is read as text and variables, whatever the environment (`Environment.Reads`). What it
stands for are the values of its parts, one after the other, unless a variable has no value
(`Environment.Expands`), and that is what it is expanded to (`Environment.expands_iff`). A path
without variables that does not begin with `~` stands for itself (`Environment.expand_eq_self`).
-/

namespace InlineMarkup.Environment

/-- A part of a path. -/
inductive Part where
  /-- Text that stands for itself. -/
  | text (s : List Char)
  /-- A variable, and the text in its place where it is not set, if there is one. -/
  | reference (name : List Char) (fallback : Option (List Char))

/-- What a part stands for. -/
def value? (env : Environment) : Part → Option (List Char)
  | .text s => some s
  | .reference name fallback => ((env.get? (String.ofList name)).map String.toList).or fallback

/-- The variable in braces. -/
def inBraces (body : List Char) : Part :=
  .reference (splitDefault body).1 (splitDefault body).2

/-- The parts that a path is made of. -/
inductive Reads : List Char → List Part → Prop where
  | nil : Reads [] []
  | plain {c : Char} {s : List Char} {parts : List Part} (other : c ≠ '$')
      (rest : Reads s parts) : Reads (c :: s) (.text [c] :: parts)
  /-- Two dollar signs stand for one. -/
  | escaped {s : List Char} {parts : List Part} (rest : Reads s parts) :
      Reads ('$' :: '$' :: s) (.text ['$'] :: parts)
  /-- The name of a variable goes as far as it can. -/
  | named {name s : List Char} {parts : List Part} (filled : name ≠ [])
      (chars : ∀ c ∈ name, isNameChar c) (ends : ∀ c ∈ s.head?, isNameChar c = false)
      (rest : Reads s parts) : Reads ('$' :: (name ++ s)) (.reference name none :: parts)
  /-- Braces go up to the first closing one. -/
  | braces {body s : List Char} {parts : List Part} (first : '\x7d' ∉ body)
      (rest : Reads s parts) :
      Reads ('$' :: '\x7b' :: (body ++ '\x7d' :: s)) (inBraces body :: parts)
  /-- A brace that is never closed stands for itself. -/
  | unclosed {s : List Char} {parts : List Part} (missing : '\x7d' ∉ s) (rest : Reads s parts) :
      Reads ('$' :: '\x7b' :: s) (.text ['$', '\x7b'] :: parts)
  /-- A dollar sign that names nothing stands for itself. -/
  | lone {s : List Char} {parts : List Part}
      (ends : ∀ c ∈ s.head?, c ≠ '$' ∧ c ≠ '\x7b' ∧ isNameChar c = false) (rest : Reads s parts) :
      Reads ('$' :: s) (.text ['$'] :: parts)

/-- What a path stands for in an environment. -/
inductive Expands (env : Environment) (path : String) : String → Prop where
  | values (parts : List Part) (values : List (List Char)) (reads : Reads path.toList parts)
      (known : parts.mapM env.value? = some values) (noHome : path.toList.head? ≠ some '~') :
      Expands env path (String.ofList values.flatten)
  /-- A `~` at the start may stand for the home folder. -/
  | inHome (parts : List Part) (values : List (List Char)) (reads : Reads path.toList parts)
      (known : parts.mapM env.value? = some values) (home : path.toList.head? = some '~') :
      Expands env path (String.ofList (env.expandHome values.flatten))
  /-- With a variable that is not set, the whole path stands for itself. -/
  | kept (parts : List Part) (name : List Char) (reads : Reads path.toList parts)
      (needed : .reference name none ∈ parts) (unset : env.get? (String.ofList name) = none) :
      Expands env path path

variable {env : Environment} {path : String} {s name body : List Char} {parts : List Part}
  {part : Part}

/-! ## Every path can be read -/

theorem takeWhile_append_of_ends {p : Char → Bool} (chars : ∀ c ∈ name, p c)
    (ends : ∀ c ∈ s.head?, p c = false) : (name ++ s).takeWhile p = name := by
  rw [List.takeWhile_append_of_pos chars]
  cases s with
  | nil => simp
  | cons c s => simp [ends c rfl]

theorem ne_of_isNameChar {c : Char} (named : isNameChar c) : c ≠ '$' ∧ c ≠ '\x7b' := by
  constructor
  · rintro rfl
    exact absurd named (by decide)
  · rintro rfl
    exact absurd named (by decide)

/-- What a dollar sign begins, and what remains to be read. -/
theorem exists_reads_dollar (s : List Char) :
    ∃ part rest, rest.length ≤ s.length ∧
      ∀ {parts}, Reads rest parts → Reads ('$' :: s) (part :: parts) := by
  cases s with
  | nil => exact ⟨_, [], Nat.le_refl _, .lone (by simp)⟩
  | cons c s =>
    by_cases dollar : c = '$'
    · subst dollar
      exact ⟨_, s, by simp, .escaped⟩
    by_cases brace : c = '\x7b'
    · subst brace
      by_cases closed : '\x7d' ∈ s
      · obtain ⟨body, rest, rfl, first⟩ := List.eq_append_cons_of_mem closed
        exact ⟨_, rest, by simp; omega, .braces first⟩
      · exact ⟨_, s, by simp, .unclosed closed⟩
    by_cases named : isNameChar c
    · have whole : (c :: s).takeWhile isNameChar ++ (c :: s).dropWhile isNameChar = c :: s :=
        List.takeWhile_append_dropWhile
      have filled : (c :: s).takeWhile isNameChar ≠ [] := by simp [named]
      have ends : ∀ c' ∈ ((c :: s).dropWhile isNameChar).head?, isNameChar c' = false := by
        intro c' next
        have stop := List.head?_dropWhile_not isNameChar (c :: s)
        rw [next] at stop
        exact stop
      refine ⟨.reference ((c :: s).takeWhile isNameChar) none, (c :: s).dropWhile isNameChar,
        List.length_dropWhile_le .., fun {parts} rest => ?_⟩
      have reads := Reads.named filled (fun c' mem => List.mem_takeWhile_imp mem) ends rest
      rwa [whole] at reads
    · have ends : ∀ c' ∈ (c :: s).head?, c' ≠ '$' ∧ c' ≠ '\x7b' ∧ isNameChar c' = false := by
        rintro c' ⟨⟩
        exact ⟨dollar, brace, eq_false_of_ne_true named⟩
      exact ⟨_, c :: s, Nat.le_refl _, .lone ends⟩

theorem exists_reads (s : List Char) : ∃ parts, Reads s parts := by
  induction size : s.length using Nat.strongRecOn generalizing s with
  | ind n ih =>
    subst size
    cases s with
    | nil => exact ⟨[], .nil⟩
    | cons c s =>
      by_cases dollar : c = '$'
      · subst dollar
        obtain ⟨part, rest, le, step⟩ := exists_reads_dollar s
        obtain ⟨parts, reads⟩ := ih rest.length (Nat.lt_succ_of_le le) rest rfl
        exact ⟨part :: parts, step reads⟩
      · obtain ⟨parts, reads⟩ := ih s.length (Nat.lt_succ_self _) s rfl
        exact ⟨_, .plain dollar reads⟩

/-! ## What is put in the place of each part -/

theorem expandFrom_eq_drop (env : Environment) (used : Nat) (s : List Char) :
    env.expandFrom used s = env.expandFrom 0 (s.drop used) := by
  induction s generalizing used with
  | nil => simp [expandFrom]
  | cons c s ih =>
    cases used with
    | zero => rfl
    | succ used => rw [expandFrom, ih, List.drop_succ_cons]

/-- The value of a part comes before those of the rest. -/
theorem expandFrom_dollar {rest : List Char} {used : Nat}
    (reference : env.expandReference rest = (env.value? part).map (·, used))
    (expanded : env.expandFrom 0 (rest.drop used) = (parts.mapM env.value?).map List.flatten) :
    env.expandFrom 0 ('$' :: rest) = ((part :: parts).mapM env.value?).map List.flatten := by
  rw [expandFrom, if_pos rfl, reference, List.mapM_cons]
  cases env.value? part with
  | none => rfl
  | some value =>
    rw [Option.map_some, Option.bind_eq_bind, Option.bind_some]
    dsimp only
    rw [expandFrom_eq_drop, expanded]
    cases parts.mapM env.value? <;> rfl

theorem expandReference_braces (first : '\x7d' ∉ body) (s : List Char) :
    env.expandReference ('\x7b' :: (body ++ '\x7d' :: s)) =
      (env.value? (inBraces body)).map (·, body.length + 2) := by
  have chars : ∀ c ∈ body, c != '\x7d' := by
    intro c mem
    rw [bne_iff_ne]
    rintro rfl
    exact first mem
  have taken : (body ++ '\x7d' :: s).takeWhile (· != '\x7d') = body :=
    takeWhile_append_of_ends chars (by simp)
  have closed : body.length ≠ (body ++ '\x7d' :: s).length := by simp
  simp only [expandReference, taken, if_neg closed, inBraces, value?]
  cases env.get? (String.ofList (splitDefault body).1) <;> cases (splitDefault body).2 <;> rfl

theorem expandReference_unclosed (missing : '\x7d' ∉ s) :
    env.expandReference ('\x7b' :: s) = some (['$', '\x7b'], 1) := by
  have chars : ∀ c ∈ s, c != '\x7d' := by
    intro c mem
    rw [bne_iff_ne]
    rintro rfl
    exact missing mem
  have taken : s.takeWhile (· != '\x7d') = s := List.takeWhile_eq_self_iff.2 chars
  simp only [expandReference, taken, if_true]

theorem expandReference_of_ends (ends : ∀ c ∈ s.head?, c ≠ '$' ∧ c ≠ '\x7b') :
    env.expandReference s =
      if (s.takeWhile isNameChar).isEmpty then some (['$'], 0)
      else (env.get? (String.ofList (s.takeWhile isNameChar))).map
        fun v => (v.toList, (s.takeWhile isNameChar).length) := by
  unfold expandReference
  split
  · exact absurd rfl (ends _ rfl).2
  · exact absurd rfl (ends _ rfl).1
  · rfl

theorem expandReference_named (filled : name ≠ []) (chars : ∀ c ∈ name, isNameChar c)
    (ends : ∀ c ∈ s.head?, isNameChar c = false) :
    env.expandReference (name ++ s) =
      (env.value? (.reference name none)).map (·, name.length) := by
  obtain ⟨c, more, rfl⟩ := List.exists_cons_of_ne_nil filled
  have first : ∀ c' ∈ (c :: more ++ s).head?, c' ≠ '$' ∧ c' ≠ '\x7b' := by
    rintro c' ⟨⟩
    exact ne_of_isNameChar (chars c List.mem_cons_self)
  rw [expandReference_of_ends first, takeWhile_append_of_ends chars ends]
  simp only [List.isEmpty_cons, Bool.false_eq_true, if_false, value?, Option.or_none,
    Option.map_map]
  rfl

/-- The values of the parts of a path make up its expansion. -/
theorem expandFrom_of_reads (reads : Reads s parts) (env : Environment) :
    env.expandFrom 0 s = (parts.mapM env.value?).map List.flatten := by
  induction reads with
  | nil => rfl
  | @plain c s parts other rest ih =>
    rw [expandFrom, if_neg other, ih, List.mapM_cons]
    cases parts.mapM env.value? <;> rfl
  | @escaped s parts rest ih =>
    have value : env.expandReference ('$' :: s) = (env.value? (.text ['$'])).map (·, 1) := rfl
    exact expandFrom_dollar value ih
  | @named name s parts filled chars ends rest ih =>
    apply expandFrom_dollar (expandReference_named filled chars ends)
    rwa [List.drop_left]
  | @braces body s parts first rest ih =>
    apply expandFrom_dollar (expandReference_braces first s)
    have behind : ('\x7b' :: (body ++ '\x7d' :: s)).drop (body.length + 2) = s := by
      simp
    rwa [behind]
  | @unclosed s parts missing rest ih =>
    have value : env.expandReference ('\x7b' :: s) =
        (env.value? (.text ['$', '\x7b'])).map (·, 1) := expandReference_unclosed missing
    exact expandFrom_dollar value ih
  | @lone s parts ends rest ih =>
    have none : s.takeWhile isNameChar = [] := by
      cases s with
      | nil => rfl
      | cons c s => simp [(ends c rfl).2.2]
    have value : env.expandReference s = (env.value? (.text ['$'])).map (·, 0) := by
      rw [expandReference_of_ends fun c next => ⟨(ends c next).1, (ends c next).2.1⟩, none]
      rfl
    exact expandFrom_dollar value ih

/-! ## Whole paths -/

/-- Only a variable that is not set and has no text in its place is without a value. -/
theorem value?_eq_none_iff :
    env.value? part = none ↔
      ∃ name, part = .reference name none ∧ env.get? (String.ofList name) = none := by
  cases part with
  | text s => simp [value?]
  | reference name fallback =>
    simp only [value?, Option.or_eq_none_iff, Option.map_eq_none_iff, Part.reference.injEq]
    constructor
    · rintro ⟨unset, bare⟩
      exact ⟨name, ⟨rfl, bare⟩, unset⟩
    · rintro ⟨name, ⟨rfl, bare⟩, unset⟩
      exact ⟨unset, bare⟩

theorem exists_unset_of_mapM_eq_none (failed : parts.mapM env.value? = none) :
    ∃ name, .reference name none ∈ parts ∧ env.get? (String.ofList name) = none := by
  induction parts with
  | nil => cases failed
  | cons part parts ih =>
    rw [List.mapM_cons] at failed
    cases found : env.value? part with
    | none =>
      obtain ⟨name, rfl, unset⟩ := value?_eq_none_iff.1 found
      exact ⟨name, List.mem_cons_self, unset⟩
    | some value =>
      cases later : parts.mapM env.value? with
      | none =>
        obtain ⟨name, mem, unset⟩ := ih later
        exact ⟨name, List.mem_cons_of_mem part mem, unset⟩
      | some values => simp [found, later] at failed

theorem mapM_eq_none_of_unset (needed : .reference name none ∈ parts)
    (unset : env.get? (String.ofList name) = none) : parts.mapM env.value? = none := by
  have missing : env.value? (.reference name none) = none := by simp [value?, unset]
  induction parts with
  | nil => cases needed
  | cons part parts ih =>
    rw [List.mapM_cons]
    rcases List.mem_cons.1 needed with rfl | needed
    · rw [missing]
      rfl
    · rw [ih needed]
      cases env.value? part <;> rfl

theorem expandFrom_eq_self (env : Environment) (plain : '$' ∉ s) :
    env.expandFrom 0 s = some s := by
  induction s with
  | nil => rfl
  | cons c s ih =>
    obtain ⟨other, plain⟩ := not_or.1 (mt List.mem_cons.2 plain)
    rw [expandFrom, if_neg (Ne.symm other), ih plain]
    rfl

theorem expandHome_eq_self (env : Environment) (noHome : s.head? ≠ some '~') :
    env.expandHome s = s := by
  unfold expandHome
  split
  · exact absurd rfl noHome
  · exact absurd rfl noHome
  · rfl

section Reads

variable (reads : Reads path.toList parts) {values : List (List Char)}
include reads

theorem expand_of_noHome (known : parts.mapM env.value? = some values)
    (noHome : path.toList.head? ≠ some '~') :
    env.expand path = String.ofList values.flatten := by
  rw [expand, expand?, expandFrom_of_reads reads, known, Option.map_some, Option.map_some,
    Option.getD_some]
  split
  · rfl
  · rename_i outside
    rw [env.expandHome_eq_self (mt (And.intro noHome) outside)]

theorem expand_of_home (known : parts.mapM env.value? = some values)
    (home : path.toList.head? = some '~') :
    env.expand path = String.ofList (env.expandHome values.flatten) := by
  rw [expand, expand?, expandFrom_of_reads reads, known, Option.map_some, Option.map_some,
    Option.getD_some, if_neg (by simp [home])]

theorem expand_of_mapM_eq_none (failed : parts.mapM env.value? = none) :
    env.expand path = path := by
  rw [expand, expand?, expandFrom_of_reads reads, failed]
  rfl

end Reads

/-- A path is expanded to what it stands for. -/
theorem expands_iff {result : String} : env.Expands path result ↔ result = env.expand path := by
  constructor
  · intro expands
    cases expands with
    | values parts values reads known noHome => exact (expand_of_noHome reads known noHome).symm
    | inHome parts values reads known home => exact (expand_of_home reads known home).symm
    | kept parts name reads needed unset =>
      exact (expand_of_mapM_eq_none reads (mapM_eq_none_of_unset needed unset)).symm
  · rintro rfl
    obtain ⟨parts, reads⟩ := exists_reads path.toList
    cases known : parts.mapM env.value? with
    | none =>
      obtain ⟨name, needed, unset⟩ := exists_unset_of_mapM_eq_none known
      rw [expand_of_mapM_eq_none reads known]
      exact .kept parts name reads needed unset
    | some values =>
      by_cases home : path.toList.head? = some '~'
      · rw [expand_of_home reads known home]
        exact .inHome parts values reads known home
      · rw [expand_of_noHome reads known home]
        exact .values parts values reads known home

/-- A path without variables that does not begin with `~` stands for itself. -/
theorem expand_eq_self (env : Environment) (plain : '$' ∉ path.toList)
    (noHome : path.toList.head? ≠ some '~') : env.expand path = path := by
  rw [expand, expand?, env.expandFrom_eq_self plain, Option.map_some, if_neg (by simp [noHome]),
    env.expandHome_eq_self noHome, String.ofList_toList, Option.getD_some]

end InlineMarkup.Environment
