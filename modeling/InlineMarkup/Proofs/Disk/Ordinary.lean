import InlineMarkup.Proofs.Disk.Operations

/-!
# Paths of names only

A path without the parts `.` and `..` and without a slash at its end leads to one place on every
disk, the same before and after its folders are made (`Disk.placeOf`). It shows what is there
(`Disk.seen?_eq_some_iff`).
-/

namespace InlineMarkup

namespace Path

variable {p : Path} {absolute : Bool} {suffix : String}

/-- All parts of the path are names, and no slash follows the last. -/
structure Ordinary (p : Path) : Prop where
  plain : ∀ part ∈ p.parts, isDots part = false
  notTrailing : p.trailing = false

instance : Decidable p.Ordinary :=
  decidable_of_iff ((∀ part ∈ p.parts, isDots part = false) ∧ p.trailing = false)
    ⟨fun h => ⟨h.1, h.2⟩, fun h => ⟨h.plain, h.notTrailing⟩⟩

theorem isIdle_of_plain {piece : String} (plain : isDots piece = false) (before : List String) :
    isIdle absolute piece before = (piece == "") := by
  have noDot : (piece == ".") = false := (Bool.or_eq_false_iff.1 plain).1
  rw [isIdle, noDot, Bool.false_and, Bool.or_false]

/-- Cutting off the pieces that lead nowhere leaves the parts. -/
theorem filter_trim {reversed : List String} (plain : ∀ piece ∈ reversed, isDots piece = false) :
    (trim absolute reversed).filter (· != "") = reversed.filter (· != "") := by
  induction reversed with
  | nil => rfl
  | cons piece before ih =>
    obtain ⟨here, rest⟩ := List.forall_mem_cons.1 plain
    rw [trim, isIdle_of_plain here]
    by_cases empty : piece = ""
    · simp [empty, ih rest]
    · simp [empty]

theorem head?_trim (absolute : Bool) (reversed : List String) :
    (trim absolute reversed).head? ≠ some "" := by
  induction reversed with
  | nil => simp [trim]
  | cons piece before ih =>
    rw [trim]
    split
    · exact ih
    · rename_i notIdle
      intro empty
      cases empty
      exact notIdle rfl

namespace Ordinary

theorem plain_pieces (ordinary : p.Ordinary) : ∀ piece ∈ p.pieces, isDots piece = false := by
  intro piece mem
  by_cases empty : piece = ""
  · rw [empty]
    rfl
  · exact ordinary.plain piece (List.mem_filter.2 ⟨mem, by simpa using empty⟩)

/-- A path of names is empty, or is a name in a folder of such a path. -/
theorem cases (ordinary : p.Ordinary) :
    p.pieces = [] ∨ ∃ folder name, p.parent? = some folder ∧ p.fileName? = some name ∧
      folder.absolute = p.absolute ∧ folder.Ordinary ∧ p.parts = folder.parts ++ [name] := by
  rcases List.eq_nil_or_concat p.pieces with none | ⟨before, name, eq⟩
  · exact .inl none
  right
  rw [List.concat_eq_append] at eq
  have plain := ordinary.plain_pieces
  simp only [eq, List.forall_mem_append, List.forall_mem_singleton] at plain
  have named : name ≠ "" := by
    have last := ordinary.notTrailing
    simpa [trailing, eq] using last
  have reversed : p.reversed = name :: before.reverse := by
    have stays : isIdle p.absolute name before.reverse = false := by
      simpa [isIdle_of_plain plain.2] using named
    simp [Path.reversed, eq, trim, stays]
  have parts : p.parts = before.filter (· != "") ++ [name] := by
    simp [Path.parts, eq, named]
  have parts' : (trim p.absolute before.reverse).reverse.filter (· != "") =
      before.filter (· != "") := by
    have plain' : ∀ piece ∈ before.reverse, isDots piece = false := by
      intro piece mem
      exact plain.1 piece (List.mem_reverse.1 mem)
    rw [List.filter_reverse, filter_trim plain', List.filter_reverse, List.reverse_reverse]
  refine ⟨⟨p.absolute, (trim p.absolute before.reverse).reverse⟩, name, ?_, ?_, rfl, ⟨?_, ?_⟩, ?_⟩
  · simp [parent?, reversed]
  · simp [fileName?, reversed, plain.2]
  · intro part mem
    rw [Path.parts, parts'] at mem
    exact plain.1 part (List.mem_filter.1 mem).1
  · simpa [trailing] using head?_trim p.absolute before.reverse
  · rw [parts, Path.parts, parts']

theorem parts_entry (ordinary : p.Ordinary) {name : String} (named : name ≠ "") :
    (p.entry name).parts = p.parts ++ [name] := by
  simp [entry, ordinary.notTrailing, Path.parts, named]

theorem entry (ordinary : p.Ordinary) {name : String} (plain : isDots name = false)
    (named : name ≠ "") : (p.entry name).Ordinary where
  plain := by
    rw [ordinary.parts_entry named, List.forall_mem_append, List.forall_mem_singleton]
    exact ⟨ordinary.plain, plain⟩
  notTrailing := by simp [Path.entry, trailing, named]

/-- The path beside a path of names, with a suffix that makes a name of every name, is another one
in the same folder. -/
theorem sibling (ordinary : p.Ordinary) (names : ∀ name, isDots (name ++ suffix) = false)
    (some : suffix ≠ "") :
    (p.sibling suffix).Ordinary ∧ (p.sibling suffix).absolute = p.absolute ∧
      (p.sibling suffix).parts ≠ p.parts := by
  have plain : isDots suffix = false := by
    have named := names ""
    rwa [String.empty_append] at named
  rcases ordinary.cases with none | ⟨folder, name, around, named, origin, inside, parts⟩
  · have beside : p.sibling suffix = p.entry suffix := by
      simp [Path.sibling, fileName?, reversed, none, trim]
    rw [beside]
    refine ⟨ordinary.entry plain some, rfl, ?_⟩
    rw [ordinary.parts_entry some]
    simp
  · have beside : p.sibling suffix = folder.entry (name ++ suffix) := by
      simp [Path.sibling, named, around]
    have longer : name ++ suffix ≠ "" := by
      simp [some]
    rw [beside]
    refine ⟨inside.entry (names name) longer, origin, ?_⟩
    rw [inside.parts_entry longer, parts]
    simp [some]

end Ordinary

end Path

namespace Disk

open Node (Kind)

variable {d d' : Disk} {p : Path} {here parts place folder : List String} {name : String}

/-- The place that a path of names leads to. -/
def placeOf (d : Disk) (p : Path) : List String :=
  d.origin p ++ p.parts

theorem placeOf_congr (current : d'.current = d.current) (p : Path) :
    d'.placeOf p = d.placeOf p := by
  rw [placeOf, placeOf, origin, origin, current]

/-- Along names one only goes further. -/
theorem eq_append_of_walk (plain : ∀ part ∈ parts, Path.isDots part = false)
    (walked : d.walk here parts = .ok place) :
    place = here ++ parts ∧ ∀ part ∈ parts, isTooLong part = false := by
  induction parts generalizing here with
  | nil =>
    cases walked
    simp
  | cons part parts ih =>
    obtain ⟨first, rest⟩ := List.forall_mem_cons.1 plain
    obtain ⟨-, step⟩ := walk_cons_eq_ok_iff.1 walked
    rcases step with ⟨dot, -⟩ | ⟨dots, -⟩ | ⟨-, short, -, step⟩
    · cases dot
      cases first
    · cases dots
      cases first
    · obtain ⟨eq, shorts⟩ := ih rest step
      exact ⟨by simpa using eq, List.forall_mem_cons.2 ⟨short, shorts⟩⟩

/-- Names lead to what is there, unless they are too long for any entry. -/
theorem walk_of_plain (plain : ∀ part ∈ parts, Path.isDots part = false)
    (short : ∀ part ∈ parts, isTooLong part = false) (there : d.kind? (here ++ parts) ≠ none) :
    d.walk here parts = .ok (here ++ parts) := by
  induction parts generalizing here with
  | nil => rw [List.append_nil, walk]
  | cons part parts ih =>
    obtain ⟨first, rest⟩ := List.forall_mem_cons.1 plain
    obtain ⟨short, shorts⟩ := List.forall_mem_cons.1 short
    have start := kind?_eq_folder_of_append there
    rw [List.append_cons] at there ⊢
    have next : d.kind? (here ++ [part]) ≠ none := by
      cases parts with
      | nil => simpa using there
      | cons after parts =>
        rw [kind?_eq_folder_of_append there]
        exact Option.some_ne_none _
    exact walk_cons_eq_ok_iff.2 ⟨start, .inr (.inr ⟨first, short, next, ih rest shorts there⟩)⟩

theorem Denotes.place_eq (denotes : d.Denotes p folder name) (ordinary : p.Ordinary) :
    folder ++ [name] = d.placeOf p := by
  obtain ⟨before, eq, walked⟩ := denotes.walked
  have plain := ordinary.plain
  rw [eq, List.forall_mem_append] at plain
  obtain ⟨rfl, -⟩ := eq_append_of_walk plain.1 walked
  rw [placeOf, eq, List.append_assoc]

theorem resolve_eq_ok_iff (ordinary : p.Ordinary) {n : Node} :
    d.resolve p = .ok n ↔
      checkPath p = .ok () ∧ (∀ part ∈ p.parts, isTooLong part = false) ∧
        d.node? (d.placeOf p) = some n := by
  constructor
  · intro resolved
    obtain ⟨⟨⟩, checked, resolved⟩ := bind_eq_ok_iff.1 resolved
    obtain ⟨place, walked, resolved⟩ := bind_eq_ok_iff.1 resolved
    obtain ⟨rfl, short⟩ := eq_append_of_walk ordinary.plain walked
    refine ⟨checked, short, ?_⟩
    rw [placeOf]
    cases found : d.node? (d.origin p ++ p.parts) with
    | none => simp [found] at resolved
    | some m => cases m <;> simpa [found, ordinary.notTrailing] using resolved
  · rintro ⟨checked, short, found⟩
    have there : d.kind? (d.origin p ++ p.parts) ≠ none := by
      rw [Ne, kind?_eq_none_iff, ← placeOf, found]
      exact Option.some_ne_none n
    have walked := walk_of_plain ordinary.plain short there
    rw [placeOf] at found
    cases n <;> simp [resolve, checked, walked, found, ordinary.notTrailing, bind, Except.bind]

/-- A path of names that a disk can look up shows what is at its place. -/
theorem seen?_eq_some_iff (ordinary : p.Ordinary) {k : Kind} :
    d.seen? p = some k ↔
      checkPath p = .ok () ∧ (∀ part ∈ p.parts, isTooLong part = false) ∧
        d.kind? (d.placeOf p) = some k := by
  have shown : d.seen? p = some k ↔ ∃ n, d.resolve p = .ok n ∧ n.kind = k := by
    rw [seen?]
    cases d.resolve p <;> simp [Except.toOption]
  have held : d.kind? (d.placeOf p) = some k ↔ ∃ n, d.node? (d.placeOf p) = some n ∧ n.kind = k :=
    Option.map_eq_some_iff
  rw [shown, held]
  simp only [resolve_eq_ok_iff ordinary]
  constructor
  · rintro ⟨n, ⟨checked, short, found⟩, same⟩
    exact ⟨checked, short, n, found, same⟩
  · rintro ⟨checked, short, n, found, same⟩
    exact ⟨n, ⟨checked, short, found⟩, same⟩

/-- What a path of names shows depends on its place only. -/
theorem seen?_congr (ordinary : p.Ordinary) (current : d'.current = d.current)
    (same : d'.kind? (d.placeOf p) = d.kind? (d.placeOf p)) : d'.seen? p = d.seen? p := by
  ext k
  rw [seen?_eq_some_iff ordinary, seen?_eq_some_iff ordinary, placeOf_congr current, same]

end Disk

end InlineMarkup
