import InlineMarkup.Segment

/-!
# Segments as atoms

A pass steps over spans as if each were one character that no delimiter contains. `Segment.atoms`
makes this literal: every piece of a run (a byte or a character) becomes an atom of its own, and
so does every span. Lists of segments in which no run is empty and no two runs adjoin, at any
depth, are recovered from their atoms (`Normal.eq_of_atoms_eq`).
-/

namespace InlineMarkup

namespace Segment

variable {ρ σ α β : Type}

theorem plain_injective : Function.Injective (plain (ρ := ρ)) := by
  intro run run' eq
  cases eq
  rfl

/-- Induction on a list of segments together with what its spans hold. -/
@[elab_as_elim]
theorem listInduction {motive : List (Segment ρ) → Prop} (nil : motive [])
    (plain : ∀ run rest, motive rest → motive (.plain run :: rest))
    (span : ∀ c cs rest, motive cs → motive rest → motive (.span c cs :: rest)) :
    ∀ l, motive l
  | [] => nil
  | .plain run :: rest => plain run rest (listInduction nil plain span rest)
  | .span c cs :: rest =>
    span c cs rest (listInduction nil plain span cs) (listInduction nil plain span rest)

mutual

/-- The atoms of one segment. -/
def atomsOne (pieces : ρ → List α) : Segment ρ → List (Segment α)
  | plain run => (pieces run).map plain
  | span c cs => [span c (atoms pieces cs)]

/-- The atoms of segments: the pieces of the runs one by one, and whole spans. -/
def atoms (pieces : ρ → List α) : List (Segment ρ) → List (Segment α)
  | [] => []
  | s :: rest => atomsOne pieces s ++ atoms pieces rest

end

section Atoms

variable (pieces : ρ → List α)

@[simp] theorem atoms_nil : atoms pieces [] = [] := rfl

@[simp] theorem atoms_plain (run : ρ) (rest : List (Segment ρ)) :
    atoms pieces (.plain run :: rest) = (pieces run).map .plain ++ atoms pieces rest := rfl

@[simp] theorem atoms_span (c : Convention) (cs rest : List (Segment ρ)) :
    atoms pieces (.span c cs :: rest) = .span c (atoms pieces cs) :: atoms pieces rest := rfl

@[simp] theorem atoms_append (l l' : List (Segment ρ)) :
    atoms pieces (l ++ l') = atoms pieces l ++ atoms pieces l' := by
  induction l with
  | nil => rfl
  | cons s rest ih => cases s <;> simp [ih]

/-- The atoms of a list of atoms, each cut further. -/
theorem atoms_map_plain (further : α → List β) (text : List α) :
    atoms further (text.map .plain) = (text.flatMap further).map .plain := by
  induction text with
  | nil => rfl
  | cons a rest ih => simp [ih]

theorem atoms_mapAll (f : σ → ρ) (l : List (Segment σ)) :
    atoms pieces (mapAll f l) = atoms (fun run => pieces (f run)) l := by
  induction l using listInduction with
  | nil => rfl
  | plain run rest ih => simp [mapAll, map, ih]
  | span c cs rest inner ih => simp [mapAll, map, inner, ih]

end Atoms

theorem mapAll_mapAll {τ : Type} (g : σ → τ) (f : ρ → σ) (l : List (Segment ρ)) :
    mapAll g (mapAll f l) = mapAll (fun run => g (f run)) l := by
  induction l using listInduction with
  | nil => rfl
  | plain run rest ih => simp [mapAll, map, ih]
  | span c cs rest inner ih => simp [mapAll, map, inner, ih]

theorem mapAll_eq_self {f : ρ → ρ} (same : ∀ run, f run = run) (l : List (Segment ρ)) :
    mapAll f l = l := by
  induction l using listInduction with
  | nil => rfl
  | plain run rest ih => simp [mapAll, map, same, ih]
  | span c cs rest inner ih => simp [mapAll, map, inner, ih]

/-! ## Every depth -/

/-- A segment occurs in a list, at whatever depth. -/
inductive Inside (s : Segment ρ) : List (Segment ρ) → Prop where
  | here {l : List (Segment ρ)} (mem : s ∈ l) : Inside s l
  | deeper {l cs : List (Segment ρ)} {c : Convention} (mem : .span c cs ∈ l)
      (inside : Inside s cs) : Inside s l

section Inside

variable {s : Segment ρ} {l l' cs rest : List (Segment ρ)} {c : Convention}

theorem Inside.mono (h : Inside s l) (sub : ∀ t ∈ l, t ∈ l') : Inside s l' := by
  cases h with
  | here mem => exact .here (sub _ mem)
  | deeper mem inside => exact .deeper (sub _ mem) inside

@[simp] theorem not_inside_nil : ¬ Inside s [] := by
  rintro (mem | ⟨mem, -⟩)
  · simp at mem
  · simp at mem

@[simp] theorem inside_append_iff : Inside s (l ++ l') ↔ Inside s l ∨ Inside s l' := by
  constructor
  · rintro (mem | ⟨mem, inside⟩)
    · exact (List.mem_append.1 mem).imp .here .here
    · exact (List.mem_append.1 mem).imp (.deeper · inside) (.deeper · inside)
  · rintro (h | h)
    · exact h.mono fun _ => List.mem_append_left l'
    · exact h.mono fun _ => List.mem_append_right l

@[simp] theorem inside_plain_cons_iff {run : ρ} :
    Inside s (.plain run :: rest) ↔ s = .plain run ∨ Inside s rest := by
  constructor
  · rintro (mem | ⟨mem, inside⟩)
    · exact (List.mem_cons.1 mem).imp_right .here
    · rcases List.mem_cons.1 mem with eq | mem
      · cases eq
      · exact .inr (.deeper mem inside)
  · rintro (rfl | h)
    · exact .here List.mem_cons_self
    · exact h.mono fun _ => List.mem_cons_of_mem _

@[simp] theorem inside_span_cons_iff :
    Inside s (.span c cs :: rest) ↔ s = .span c cs ∨ Inside s cs ∨ Inside s rest := by
  constructor
  · rintro (mem | ⟨mem, inside⟩)
    · exact (List.mem_cons.1 mem).imp_right fun mem => .inr (.here mem)
    · rcases List.mem_cons.1 mem with eq | mem
      · cases eq
        exact .inr (.inl inside)
      · exact .inr (.inr (.deeper mem inside))
  · rintro (rfl | h | h)
    · exact .here List.mem_cons_self
    · exact .deeper List.mem_cons_self h
    · exact h.mono fun _ => List.mem_cons_of_mem _

theorem Inside.tail (h : Inside s rest) (t : Segment ρ) : Inside s (t :: rest) := by
  apply h.mono
  intro u mem
  exact List.mem_cons_of_mem t mem

theorem Inside.child (h : Inside s cs) (c : Convention) (rest : List (Segment ρ)) :
    Inside s (.span c cs :: rest) := by
  apply inside_span_cons_iff.2
  exact .inr (.inl h)

theorem inside_map_plain {text : List ρ} (h : Inside s (text.map .plain)) :
    ∃ a ∈ text, s = .plain a := by
  induction text with
  | nil => simp at h
  | cons a text ih =>
    rw [List.map_cons, inside_plain_cons_iff] at h
    rcases h with h | h
    · exact ⟨a, List.mem_cons_self, h⟩
    · obtain ⟨b, mem, eq⟩ := ih h
      exact ⟨b, List.mem_cons_of_mem _ mem, eq⟩

/-- What is inside segments is inside their atoms, cut into its own atoms. -/
theorem inside_atoms (pieces : ρ → List α) (h : Inside (.span c cs) l) :
    Inside (.span c (atoms pieces cs)) (atoms pieces l) := by
  induction l using listInduction with
  | nil => simp at h
  | plain run rest ih =>
    rw [inside_plain_cons_iff] at h
    rcases h with h | h
    · cases h
    · rw [atoms_plain, inside_append_iff]
      exact .inr (ih h)
  | span d ds rest inner ih =>
    rw [inside_span_cons_iff] at h
    rw [atoms_span, inside_span_cons_iff]
    rcases h with h | h | h
    · cases h
      exact .inl rfl
    · exact .inr (.inl (inner h))
    · exact .inr (.inr (ih h))

/-- The pieces of a run stand next to each other among the atoms. -/
theorem infix_atoms_of_mem (pieces : ρ → List α) {run : ρ} (mem : .plain run ∈ l) :
    (pieces run).map .plain <:+: atoms pieces l := by
  obtain ⟨before, after, rfl⟩ := List.append_of_mem mem
  refine ⟨atoms pieces before, atoms pieces after, ?_⟩
  rw [atoms_append, atoms_plain, List.append_assoc]

end Inside

/-! ## Runs apart from each other -/

/-- Whether the first segment is a run. -/
def startsPlain : List (Segment ρ) → Bool
  | .plain _ :: _ => true
  | _ => false

theorem exists_of_startsPlain {l : List (Segment ρ)} (h : startsPlain l = true) :
    ∃ run rest, l = .plain run :: rest := by
  match l with
  | .plain run :: rest => exact ⟨run, rest, rfl⟩
  | [] => cases h
  | .span .. :: _ => cases h

/-- Every run has pieces, and no two runs adjoin. -/
def Separated (pieces : ρ → List α) : List (Segment ρ) → Prop
  | [] => True
  | .plain run :: rest => pieces run ≠ [] ∧ startsPlain rest = false ∧ Separated pieces rest
  | .span .. :: rest => Separated pieces rest

/-- Runs are separated here and inside every span. -/
inductive Normal (pieces : ρ → List α) : List (Segment ρ) → Prop where
  | intro {l : List (Segment ρ)} (separated : Separated pieces l)
      (inner : ∀ c cs, .span c cs ∈ l → Normal pieces cs) : Normal pieces l

section Separated

variable {pieces : ρ → List α}

theorem startsPlain_append_span (l rest : List (Segment ρ)) (c : Convention)
    (cs : List (Segment ρ)) :
    startsPlain (l ++ .span c cs :: rest) = startsPlain l := by
  cases l with
  | nil => rfl
  | cons s l => cases s <;> rfl

/-- A span keeps the runs on its two sides apart. -/
theorem Separated.append_span {l rest : List (Segment ρ)} (left : Separated pieces l)
    (right : Separated pieces rest) (c : Convention) (cs : List (Segment ρ)) :
    Separated pieces (l ++ .span c cs :: rest) := by
  induction l with
  | nil => exact right
  | cons s l ih =>
    cases s with
    | plain run =>
      obtain ⟨filled, apart, left⟩ := left
      exact ⟨filled, (startsPlain_append_span l rest c cs).trans apart, ih left⟩
    | span d ds => exact ih left

theorem Separated.filled {l : List (Segment ρ)} (h : Separated pieces l) {run : ρ}
    (mem : .plain run ∈ l) : pieces run ≠ [] := by
  induction l with
  | nil => cases mem
  | cons s rest ih =>
    cases s with
    | plain run' =>
      obtain ⟨filled, -, h⟩ := h
      rcases List.mem_cons.1 mem with eq | mem
      · cases eq
        exact filled
      · exact ih h mem
    | span c cs =>
      rcases List.mem_cons.1 mem with eq | mem
      · cases eq
      · exact ih h mem

/-- Separated runs do not adjoin. -/
theorem Separated.not_infix {l : List (Segment ρ)} (h : Separated pieces l) (run run' : ρ) :
    ¬ [.plain run, .plain run'] <:+: l := by
  induction l with
  | nil => simp
  | cons s rest ih =>
    rw [List.infix_cons_iff, not_or]
    cases s with
    | plain run'' =>
      obtain ⟨-, apart, h⟩ := h
      refine ⟨?_, ih h⟩
      rintro ⟨after, eq⟩
      simp only [List.cons_append, List.nil_append, List.cons.injEq] at eq
      simp [← eq.2, startsPlain] at apart
    | span c cs =>
      refine ⟨?_, ih h⟩
      rintro ⟨after, eq⟩
      simp at eq

theorem Separated.atoms_eq_nil_iff {l : List (Segment ρ)} (h : Separated pieces l) :
    atoms pieces l = [] ↔ l = [] := by
  cases l with
  | nil => simp
  | cons s rest =>
    cases s with
    | plain run => simp [h.1]
    | span c cs => simp

theorem Separated.startsPlain_atoms {l : List (Segment ρ)} (h : Separated pieces l) :
    startsPlain (atoms pieces l) = startsPlain l := by
  cases l with
  | nil => rfl
  | cons s rest =>
    cases s with
    | plain run =>
      obtain ⟨a, tail, eq⟩ := List.exists_cons_of_ne_nil h.1
      simp [eq, startsPlain]
    | span c cs => rfl

theorem Normal.separated {l : List (Segment ρ)} (h : Normal pieces l) : Separated pieces l := by
  cases h with
  | intro separated inner => exact separated

theorem Normal.inner {l : List (Segment ρ)} (h : Normal pieces l) {c : Convention}
    {cs : List (Segment ρ)} (mem : .span c cs ∈ l) : Normal pieces cs := by
  cases h with
  | intro separated inner => exact inner c cs mem

theorem Normal.nil : Normal pieces [] := by
  constructor
  · exact trivial
  · intro c cs mem
    simp at mem

theorem normal_plain_cons {run : ρ} {rest : List (Segment ρ)} :
    Normal pieces (.plain run :: rest) ↔
      pieces run ≠ [] ∧ startsPlain rest = false ∧ Normal pieces rest := by
  constructor
  · intro h
    obtain ⟨filled, apart, separated⟩ := h.separated
    refine ⟨filled, apart, .intro separated ?_⟩
    intro c cs mem
    apply h.inner
    exact List.mem_cons_of_mem _ mem
  · rintro ⟨filled, apart, h⟩
    constructor
    · exact ⟨filled, apart, h.separated⟩
    · intro c cs mem
      rcases List.mem_cons.1 mem with eq | mem
      · cases eq
      · exact h.inner mem

theorem normal_span_cons {c : Convention} {cs rest : List (Segment ρ)} :
    Normal pieces (.span c cs :: rest) ↔ Normal pieces cs ∧ Normal pieces rest := by
  constructor
  · intro h
    refine ⟨h.inner List.mem_cons_self, .intro h.separated ?_⟩
    intro d ds mem
    apply h.inner
    exact List.mem_cons_of_mem _ mem
  · rintro ⟨inside, h⟩
    constructor
    · exact h.separated
    · intro d ds mem
      rcases List.mem_cons.1 mem with eq | mem
      · cases eq
        exact inside
      · exact h.inner mem

theorem Normal.of_inside {l cs : List (Segment ρ)} (h : Normal pieces l) {c : Convention}
    (inside : Inside (.span c cs) l) : Normal pieces cs := by
  induction inside with
  | here mem => exact h.inner mem
  | deeper mem inside ih => exact ih (h.inner mem)

/-- No run is empty where runs are apart. -/
theorem Normal.filled {l : List (Segment ρ)} (h : Normal pieces l) {run : ρ}
    (inside : Inside (.plain run) l) : pieces run ≠ [] := by
  induction inside with
  | here mem => exact h.separated.filled mem
  | deeper mem inside ih => exact ih (h.inner mem)

theorem Normal.append_span {l cs rest : List (Segment ρ)} (left : Normal pieces l)
    (right : Normal pieces rest) (inside : Normal pieces cs) (c : Convention) :
    Normal pieces (l ++ .span c cs :: rest) := by
  have later : Normal pieces (.span c cs :: rest) := normal_span_cons.2 ⟨inside, right⟩
  constructor
  · exact left.separated.append_span right.separated c cs
  · intro d ds mem
    rcases List.mem_append.1 mem with mem | mem
    · exact left.inner mem
    · exact later.inner mem

theorem normal_mapAll {f : σ → ρ} {l : List (Segment σ)} :
    Normal pieces (mapAll f l) ↔ Normal (fun run => pieces (f run)) l := by
  have starts : ∀ l : List (Segment σ), startsPlain (mapAll f l) = startsPlain l := by
    intro l
    cases l with
    | nil => rfl
    | cons s rest => cases s <;> rfl
  induction l using listInduction with
  | nil => exact ⟨fun _ => .nil, fun _ => .nil⟩
  | plain run rest ih => simp [mapAll, map, normal_plain_cons, starts, ih]
  | span c cs rest inner ih => simp [mapAll, map, normal_span_cons, inner, ih]

theorem Normal.of_pieces {further : ρ → List β} {l : List (Segment ρ)} (h : Normal pieces l)
    (some : ∀ run, pieces run ≠ [] → further run ≠ []) : Normal further l := by
  induction l using listInduction with
  | nil => exact .nil
  | plain run rest ih =>
    obtain ⟨filled, apart, h⟩ := normal_plain_cons.1 h
    exact normal_plain_cons.2 ⟨some run filled, apart, ih h⟩
  | span c cs rest inner ih =>
    obtain ⟨hcs, h⟩ := normal_span_cons.1 h
    exact normal_span_cons.2 ⟨inner hcs, ih h⟩

/-- Where a text ends and something else begins is seen from the atoms. -/
theorem map_plain_append_inj {u v : List α} {x y : List (Segment α)}
    (hx : startsPlain x = false) (hy : startsPlain y = false)
    (eq : u.map .plain ++ x = v.map .plain ++ y) : u = v ∧ x = y := by
  induction u generalizing v with
  | nil =>
    cases v with
    | nil => exact ⟨rfl, eq⟩
    | cons b v =>
      simp only [List.map_nil, List.nil_append, List.map_cons, List.cons_append] at eq
      simp [eq, startsPlain] at hx
  | cons a u ih =>
    cases v with
    | nil =>
      simp only [List.map_nil, List.nil_append, List.map_cons, List.cons_append] at eq
      simp [← eq, startsPlain] at hy
    | cons b v =>
      simp only [List.map_cons, List.cons_append, List.cons.injEq, plain.injEq] at eq
      obtain ⟨rfl, eq⟩ := eq
      obtain ⟨rfl, rfl⟩ := ih eq
      exact ⟨rfl, rfl⟩

/-- Segments whose runs are separated are determined by their atoms. -/
theorem Normal.eq_of_atoms_eq (inj : ∀ r r', pieces r = pieces r' → r = r')
    {l l' : List (Segment ρ)} (h : Normal pieces l) (h' : Normal pieces l')
    (eq : atoms pieces l = atoms pieces l') : l = l' := by
  induction l using listInduction generalizing l' with
  | nil =>
    rw [atoms_nil] at eq
    exact ((h'.separated.atoms_eq_nil_iff).1 eq.symm).symm
  | plain run rest ih =>
    have starts : startsPlain l' = true := by
      rw [← h'.separated.startsPlain_atoms, ← eq, h.separated.startsPlain_atoms]
      rfl
    obtain ⟨run', rest', rfl⟩ := exists_of_startsPlain starts
    obtain ⟨-, apart, h⟩ := normal_plain_cons.1 h
    obtain ⟨-, apart', h'⟩ := normal_plain_cons.1 h'
    rw [atoms_plain, atoms_plain] at eq
    obtain ⟨same, eq⟩ := map_plain_append_inj (h.separated.startsPlain_atoms.trans apart)
      (h'.separated.startsPlain_atoms.trans apart') eq
    rw [inj _ _ same, ih h h' eq]
  | span c cs rest inner ih =>
    obtain ⟨hcs, h⟩ := normal_span_cons.1 h
    cases l' with
    | nil => cases eq
    | cons s' rest' =>
      cases s' with
      | plain run' =>
        have starts := h'.separated.startsPlain_atoms
        rw [← eq] at starts
        simp [startsPlain] at starts
      | span c' cs' =>
        simp only [atoms_span, List.cons.injEq, span.injEq] at eq
        obtain ⟨⟨rfl, eqs⟩, eq⟩ := eq
        obtain ⟨hcs', h'⟩ := normal_span_cons.1 h'
        rw [inner hcs hcs' eqs, ih h h' eq]

end Separated

end Segment

end InlineMarkup
