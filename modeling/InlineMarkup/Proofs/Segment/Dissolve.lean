import InlineMarkup.Proofs.Segment.Fuse
import InlineMarkup.Proofs.Segment.Parse

/-!
# Delimiters written back

A span is dissolved by writing the delimiters of its convention around what it holds. Dissolving
undoes scanning (`dissolve_claim`): later conventions never disturb what earlier ones claimed, and
with all spans dissolved a parse is its text again.
-/

namespace InlineMarkup

namespace Segment

variable {ρ α : Type}

/-! ## Dissolving spans -/

section Dissolve

variable (write : String → List (Segment ρ)) (conventions : List Convention)

mutual

/-- A segment with the spans of the conventions dissolved, at every depth. -/
def dissolveOne : Segment ρ → List (Segment ρ)
  | plain run => [plain run]
  | span c cs =>
    if c ∈ conventions then write c.opening ++ dissolve cs ++ write c.closing
    else [span c (dissolve cs)]

/-- Segments with the spans of the conventions dissolved, at every depth; `write` gives what is
written for a delimiter. -/
def dissolve : List (Segment ρ) → List (Segment ρ)
  | [] => []
  | s :: rest => dissolveOne s ++ dissolve rest

end

@[simp] theorem dissolve_nil : dissolve write conventions [] = [] := rfl

@[simp] theorem dissolve_plain (run : ρ) (rest : List (Segment ρ)) :
    dissolve write conventions (.plain run :: rest) =
      .plain run :: dissolve write conventions rest := rfl

theorem dissolve_span_of_mem {c : Convention} (mem : c ∈ conventions)
    (cs rest : List (Segment ρ)) :
    dissolve write conventions (.span c cs :: rest) =
      write c.opening ++ dissolve write conventions cs ++ write c.closing ++
        dissolve write conventions rest := by
  simp [dissolve, dissolveOne, mem]

theorem dissolve_span_of_not_mem {c : Convention} (out : c ∉ conventions)
    (cs rest : List (Segment ρ)) :
    dissolve write conventions (.span c cs :: rest) =
      .span c (dissolve write conventions cs) :: dissolve write conventions rest := by
  simp [dissolve, dissolveOne, out]

@[simp] theorem dissolve_append (l l' : List (Segment ρ)) :
    dissolve write conventions (l ++ l') =
      dissolve write conventions l ++ dissolve write conventions l' := by
  induction l with
  | nil => rfl
  | cons s rest ih => simp [dissolve, ih]

@[simp] theorem dissolve_map_plain (text : List ρ) :
    dissolve write conventions (text.map .plain) = text.map .plain := by
  induction text with
  | nil => rfl
  | cons a rest ih => simp [ih]

/-- Where no span is of the conventions, nothing is dissolved. -/
theorem dissolve_eq_self {l : List (Segment ρ)}
    (others : ∀ c cs, Inside (.span c cs) l → c ∉ conventions) :
    dissolve write conventions l = l := by
  induction l using listInduction with
  | nil => rfl
  | plain run rest ih =>
    have later : dissolve write conventions rest = rest := by
      apply ih
      intro c cs inside
      exact others c cs (inside.tail _)
    rw [dissolve_plain, later]
  | span c cs rest inner ih =>
    have out : c ∉ conventions := by
      apply others c cs
      exact .here List.mem_cons_self
    have children : dissolve write conventions cs = cs := by
      apply inner
      intro d ds inside
      exact others d ds (inside.child c rest)
    have later : dissolve write conventions rest = rest := by
      apply ih
      intro d ds inside
      exact others d ds (inside.tail _)
    rw [dissolve_span_of_not_mem write conventions out, children, later]

/-- Dissolving and cutting into pieces may be done in either order. -/
theorem atoms_dissolve (pieces : ρ → List α) (l : List (Segment ρ)) :
    atoms pieces (dissolve write conventions l) =
      dissolve (fun s => atoms pieces (write s)) conventions (atoms pieces l) := by
  induction l using listInduction with
  | nil => rfl
  | plain run rest ih => simp [ih]
  | span c cs rest inner ih =>
    by_cases mem : c ∈ conventions
    · simp [dissolve_span_of_mem _ _ mem, inner, ih]
    · simp [dissolve_span_of_not_mem _ _ mem, inner, ih]

/-- The runs of dissolved segments are old ones and delimiters. -/
theorem inside_plain_dissolve {l : List (Segment ρ)} {run : ρ}
    (h : Inside (.plain run) (dissolve write conventions l)) :
    Inside (.plain run) l ∨
      ∃ c ∈ conventions, Inside (.plain run) (write c.opening ++ write c.closing) := by
  induction l using listInduction with
  | nil => exact .inl h
  | plain run' rest ih =>
    rw [dissolve_plain, inside_plain_cons_iff] at h
    rcases h with h | h
    · exact .inl (inside_plain_cons_iff.2 (.inl h))
    · exact (ih h).imp_left (·.tail _)
  | span c cs rest inner ih =>
    by_cases mem : c ∈ conventions
    · rw [dissolve_span_of_mem _ _ mem] at h
      simp only [inside_append_iff] at h
      rcases h with ((h | h) | h) | h
      · exact .inr ⟨c, mem, inside_append_iff.2 (.inl h)⟩
      · exact (inner h).imp_left (·.child c rest)
      · exact .inr ⟨c, mem, inside_append_iff.2 (.inr h)⟩
      · exact (ih h).imp_left (·.tail _)
    · rw [dissolve_span_of_not_mem _ _ mem, inside_span_cons_iff] at h
      rcases h with h | h | h
      · cases h
      · exact (inner h).imp_left (·.child c rest)
      · exact (ih h).imp_left (·.tail _)

end Dissolve

/-- Segments whose atoms are those of a text show that text. -/
theorem textAll_of_atoms {l : List (Segment String)} {text : List Char}
    (eq : atoms String.toList l = text.map .plain) : textAll l = String.ofList text := by
  induction l generalizing text with
  | nil =>
    rw [atoms_nil] at eq
    rw [List.map_eq_nil_iff.1 eq.symm]
    rfl
  | cons s rest ih =>
    cases s with
    | plain run =>
      obtain ⟨here, later, rfl, same, eq⟩ := List.map_eq_append_iff.1 eq.symm
      have run_eq : here = run.toList :=
        (List.map_inj_right fun _ _ h => by injection h).1 same
      rw [textAll, text, ih eq.symm, String.ofList_append, run_eq, String.ofList_toList]
    | span c cs =>
      cases text <;> simp at eq

/-! ## Dissolving what was scanned -/

/-- A delimiter as the atoms of its characters. -/
abbrev characters (s : String) : List (Segment Char) :=
  s.toList.map .plain

/-- Dissolving the spans of a convention undoes its scan. -/
theorem dissolve_pass {conventions : List Convention} {c : Convention} (mem : c ∈ conventions)
    (atoms : List (Segment Char)) :
    dissolve characters conventions (Scan.pass String.toList c atoms) =
      dissolve characters conventions atoms := by
  unfold Scan.pass
  induction atoms using Scan.claim_cases c c.opening.toList c.closing.toList with
  | nil => rw [Scan.claim_nil]
  | literal atom atoms ih step =>
    rw [step, ← List.singleton_append, dissolve_append, ih, ← dissolve_append,
      List.singleton_append]
  | stop atoms inside hopen hclose step => rw [step]
  | span content rest filled closed ih step =>
    rw [step, dissolve_span_of_mem _ _ mem, ih]
    simp

theorem dissolve_foldl_pass {conventions claimed : List Convention}
    (sub : ∀ c ∈ claimed, c ∈ conventions) (atoms : List (Segment Char)) :
    dissolve characters conventions
        (claimed.foldl (fun atoms c => Scan.pass String.toList c atoms) atoms) =
      dissolve characters conventions atoms := by
  induction claimed generalizing atoms with
  | nil => rfl
  | cons c claimed ih =>
    rw [List.foldl_cons, ih fun d hd => sub d (List.mem_cons_of_mem _ hd),
      dissolve_pass (sub c List.mem_cons_self)]

end Segment

/-- The registry of the first `n` conventions in matching order. -/
def Registry.take (registry : Registry) (n : Nat) : Registry where
  conventions := registry.conventions.take n
  longestFirst := registry.longestFirst.sublist (List.take_sublist n _)

namespace Segment

/-- Conventions with different keys do not stand on both sides of a cut. -/
theorem not_mem_drop_of_mem_take {registry : Registry} (distinct : registry.keys.Nodup) {n : Nat}
    {c : Convention} (early : c ∈ registry.conventions.take n) :
    c ∉ registry.conventions.drop n := by
  intro late
  rw [Registry.keys, ← List.take_append_drop n registry.conventions, List.map_append] at distinct
  exact (List.nodup_append.1 distinct).2.2 c.key (List.mem_map_of_mem early) c.key
    (List.mem_map_of_mem late) rfl

/-- The characters of a parse with its later conventions dissolved are those of a parse without
them. -/
theorem atoms_dissolve_parse {registry : Registry} (distinct : registry.keys.Nodup)
    (delimited : ∀ c ∈ registry.conventions, c.Delimited) (text : String) (n : Nat) :
    atoms String.toList
        (dissolve (fun s => [.plain s]) (registry.conventions.drop n) (parse registry text)) =
      atoms String.toList (parse (registry.take n) text) := by
  have delimitedEarly : ∀ c ∈ (registry.take n).conventions, c.Delimited :=
    fun c mem => delimited c (List.mem_of_mem_take mem)
  have write : (fun s => atoms String.toList [.plain s]) = characters := by
    funext s
    simp
  have split : registry.conventions =
      (registry.take n).conventions ++ registry.conventions.drop n :=
    (List.take_append_drop n registry.conventions).symm
  rw [atoms_dissolve, write, atoms_parse delimited, atoms_parse delimitedEarly, split,
    scanned_append, ← split, dissolve_foldl_pass fun c mem => mem]
  refine dissolve_eq_self _ _ fun c cs inside => ?_
  obtain ⟨earlier, later, eq, -⟩ := content_of_inside_scanned inside
  have mem : c ∈ (registry.take n).conventions := by
    rw [eq]
    exact List.mem_append_right earlier List.mem_cons_self
  exact not_mem_drop_of_mem_take distinct mem

/-- Dissolving the spans of the later conventions of a parse, and joining the runs that come to
adjoin, gives the parse under the earlier conventions alone, wherever the matching order is cut.
With the delimiters of all spans written back the text is as it was. -/
theorem fuse_dissolve_parse {registry : Registry} (distinct : registry.keys.Nodup)
    (delimited : ∀ c ∈ registry.conventions, c.Delimited) (text : String) :
    (∀ n, fuse (dissolve (fun s => [.plain s]) (registry.conventions.drop n)
        (parse registry text)) = parse (registry.take n) text) ∧
      textAll (dissolve (fun s => [.plain s]) registry.conventions (parse registry text)) =
        text := by
  constructor
  · intro n
    have delimitedEarly : ∀ c ∈ (registry.take n).conventions, c.Delimited :=
      fun c mem => delimited c (List.mem_of_mem_take mem)
    have filled : ∀ run, Inside (.plain run) (dissolve (fun s => [.plain s])
        (registry.conventions.drop n) (parse registry text)) → run.toList ≠ [] := by
      intro run inside
      rcases inside_plain_dissolve _ _ inside with inside | ⟨c, mem, inside⟩
      · exact (normal_parse delimited text).filled inside
      · obtain ⟨opening, closing⟩ := delimited c (List.mem_of_mem_drop mem)
        simp only [List.singleton_append, inside_plain_cons_iff, plain.injEq, not_inside_nil,
          or_false] at inside
        rcases inside with rfl | rfl
        · exact Scan.toList_ne_nil opening
        · exact Scan.toList_ne_nil closing
    refine (normal_fuse (fun a b => String.toList_append) filled).eq_of_atoms_eq
      (fun _ _ => String.toList_inj.1) (normal_parse delimitedEarly text) ?_
    rw [atoms_fuse fun a b => String.toList_append]
    exact atoms_dissolve_parse distinct delimited text n
  · have whole := atoms_dissolve_parse distinct delimited text 0
    rw [List.drop_zero] at whole
    rw [textAll_of_atoms (whole.trans (atoms_parse (by simp [Registry.take]) text)),
      String.ofList_toList]

/-- Three levels of spans, and delimiters that claim nothing. -/
theorem fuse_dissolve_parse_builtin :
    let text := "!a [b <c!> ] d] e! <> [é"
    Registry.builtin.keys.Nodup ∧ (∀ c ∈ Registry.builtin.conventions, c.Delimited) ∧
      (∀ n, fuse (dissolve (fun s => [.plain s]) (Registry.builtin.conventions.drop n)
        (parse .builtin text)) = parse (Registry.builtin.take n) text) ∧
      textAll (dissolve (fun s => [.plain s]) Registry.builtin.conventions (parse .builtin text)) =
        text :=
  ⟨by decide, Registry.delimited_builtin,
    fuse_dissolve_parse (by decide) Registry.delimited_builtin _⟩

end Segment

end InlineMarkup
