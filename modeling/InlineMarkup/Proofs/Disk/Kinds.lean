import Mathlib.Logic.Function.Basic
import InlineMarkup.Disk

/-!
# What is at each place of a disk

A place holds a file with its content, a folder, or nothing. What the operations on disks do is
said by these kinds alone: each changes the kind of one place or two and leaves all others
(`Disk.Becomes`). Where no folder goes away, a path leads where it led before
(`KeepsFolders.walk`).
-/

namespace InlineMarkup

namespace Node

/-- What a node is, without what a folder holds. -/
inductive Kind where
  | file (content : Bytes)
  | folder
deriving DecidableEq, Repr

/-- What a node is. -/
def kind : Node → Kind
  | file content => .file content
  | folder _ => .folder

/-- What is at a place in a tree. -/
def kind? (n : Node) (names : List String) : Option Kind :=
  (n.find? names).map kind

@[simp]
theorem kind?_nil (n : Node) : n.kind? [] = some n.kind := by
  simp [kind?, find?]

@[simp]
theorem kind?_file_cons (content : Bytes) (name : String) (names : List String) :
    (file content).kind? (name :: names) = none := by
  simp [kind?, find?]

@[simp]
theorem kind?_folder_cons (entries : List (String × Node)) (name : String)
    (names : List String) :
    (folder entries).kind? (name :: names) = (entries.lookup name).bind (·.kind? names) := by
  rw [kind?, find?_cons, Option.map_bind]
  rfl

theorem kind_eq_folder {n : Node} (h : n.kind = .folder) : ∃ entries, n = folder entries := by
  cases n with
  | file content => cases h
  | folder entries => exact ⟨entries, rfl⟩

theorem find?_append (n : Node) (names more : List String) :
    n.find? (names ++ more) = (n.find? names).bind (·.find? more) := by
  induction names generalizing n with
  | nil => simp [find?]
  | cons name names ih =>
    cases n with
    | file content => simp [find?]
    | folder entries =>
      rw [List.cons_append, find?_cons, find?_cons]
      cases entries.lookup name with
      | none => rfl
      | some m => exact ih m

/-- What holds something is a folder. -/
theorem kind?_eq_folder_of_append {n : Node} {names more : List String} {name : String}
    (there : n.kind? (names ++ name :: more) ≠ none) : n.kind? names = some .folder := by
  rw [kind?, find?_append] at there
  rw [kind?]
  cases found : n.find? names with
  | none => simp [found] at there
  | some m =>
    cases m with
    | file content => simp [found, find?] at there
    | folder entries => rfl

/-- The tree with the entries of the folder at a place changed. -/
def adjust (change : List (String × Node) → List (String × Node)) :
    (names : List String) → Node → Node
  | _, file content => file content
  | [], folder entries => folder (change entries)
  | name :: names, folder entries =>
    match entries.lookup name with
    | some n => folder (Entries.put name (adjust change names n) entries)
    | none => folder entries

/-- If an entry of a folder is no folder, and what replaces it has no entries, then the kind of no
other place changes. -/
theorem kind?_folder_of_changed {entries entries' : List (String × Node)} {name : String}
    {k? : Option Kind} (free : (folder entries).kind? [name] ≠ some .folder)
    (others : ∀ next, next ≠ name → entries'.lookup next = entries.lookup next)
    (placed : ∀ more,
      (entries'.lookup name).bind (·.kind? more) = if more = [] then k? else none) :
    (folder entries').kind? = Function.update (folder entries).kind? [name] k? := by
  funext place
  cases place with
  | nil => simp [kind, Function.update]
  | cons next more =>
    by_cases same : next = name
    · subst same
      rw [kind?_folder_cons, placed]
      cases more with
      | nil => simp
      | cons after more =>
        have none : (folder entries).kind? (next :: after :: more) = none := by
          by_contra there
          exact free (@kind?_eq_folder_of_append _ [next] more after there)
        simp [Function.update, none]
    · simp [others next same, same, Function.update]

/-- The same in a folder at a place. -/
theorem kind?_adjust {change : List (String × Node) → List (String × Node)} {n : Node}
    {names : List String} {name : String} {k? : Option Kind}
    (around : n.kind? names = some .folder) (free : n.kind? (names ++ [name]) ≠ some .folder)
    (others : ∀ entries next, next ≠ name → (change entries).lookup next = entries.lookup next)
    (placed : ∀ entries more,
      ((change entries).lookup name).bind (·.kind? more) = if more = [] then k? else none) :
    (adjust change names n).kind? = Function.update n.kind? (names ++ [name]) k? := by
  induction names generalizing n with
  | nil =>
    obtain ⟨entries, rfl⟩ := kind_eq_folder (Option.some_inj.1 ((kind?_nil n).symm.trans around))
    exact kind?_folder_of_changed free (others entries) (placed entries)
  | cons first names ih =>
    have folder : n.kind = .folder := by
      have there : n.kind? ([] ++ first :: names) ≠ none := by simp [around]
      rw [← Option.some_inj, ← kind?_nil, kind?_eq_folder_of_append there]
    obtain ⟨entries, rfl⟩ := kind_eq_folder folder
    rw [kind?_folder_cons] at around
    cases found : entries.lookup first with
    | none => simp [found] at around
    | some m =>
      rw [found] at around
      rw [List.cons_append, kind?_folder_cons, found] at free
      have below := ih around free
      funext place
      cases place with
      | nil => simp [adjust, found, kind, Function.update]
      | cons next more =>
        by_cases same : next = first
        · subst same
          simp [adjust, found, Entries.lookup_put, below, Function.update]
        · simp [adjust, found, Entries.lookup_put, same, Function.update]

theorem put_eq_adjust {n : Node} (new : Node) {names : List String} (name : String)
    (around : n.kind? names = some .folder) :
    put new (names ++ [name]) n = adjust (Entries.put name new) names n := by
  induction names generalizing n with
  | nil =>
    cases n with
    | file content => rfl
    | folder entries => simp [put, adjust]
  | cons first names ih =>
    cases n with
    | file content => rfl
    | folder entries =>
      rw [kind?_folder_cons] at around
      cases found : entries.lookup first with
      | none => simp [found] at around
      | some m =>
        rw [found] at around
        simp [put, adjust, found, ih around]

theorem remove_eq_adjust {n : Node} {names : List String} (name : String)
    (around : n.kind? names = some .folder) :
    remove (names ++ [name]) n = adjust (·.filter (·.1 != name)) names n := by
  induction names generalizing n with
  | nil =>
    cases n with
    | file content => rfl
    | folder entries => simp [remove, adjust]
  | cons first names ih =>
    cases n with
    | file content => rfl
    | folder entries =>
      rw [kind?_folder_cons] at around
      cases found : entries.lookup first with
      | none => simp [found] at around
      | some m =>
        rw [found] at around
        have below := ih around
        cases names with
        | nil =>
          rw [List.nil_append] at below
          simp [remove, adjust, found, below]
        | cons next names =>
          rw [List.cons_append] at below
          simp [remove, adjust, found, below]

/-- A node without entries goes to a place where nothing or a file was, and nowhere else. -/
theorem kind?_put {n new : Node} {names : List String} {name : String}
    (around : n.kind? names = some .folder) (free : n.kind? (names ++ [name]) ≠ some .folder)
    (bare : ∀ next more, new.kind? (next :: more) = none) :
    (put new (names ++ [name]) n).kind? =
      Function.update n.kind? (names ++ [name]) (some new.kind) := by
  rw [put_eq_adjust new name around]
  apply kind?_adjust around free
  · intro entries next other
    simp [Entries.lookup_put, other]
  · intro entries more
    cases more <;> simp [Entries.lookup_put, bare]

/-- A file is taken from its place, and nothing from elsewhere. -/
theorem kind?_remove {n : Node} {names : List String} {name : String}
    (around : n.kind? names = some .folder) (free : n.kind? (names ++ [name]) ≠ some .folder) :
    (remove (names ++ [name]) n).kind? = Function.update n.kind? (names ++ [name]) none := by
  rw [remove_eq_adjust name around]
  apply kind?_adjust around free
  · intro entries next other
    simp [Entries.lookup_filter_ne, other]
  · intro entries more
    simp [Entries.lookup_filter_ne]

end Node

namespace Disk

open Node (Kind)

variable {d d' d'' : Disk} {here names place parts : List String}

/-- What is at a place. -/
def kind? (d : Disk) (names : List String) : Option Kind :=
  d.root.kind? names

theorem kind?_eq_none_iff : d.kind? names = none ↔ d.node? names = none :=
  Option.map_eq_none_iff

theorem kind?_eq_file_iff {content : Bytes} :
    d.kind? names = some (.file content) ↔ d.node? names = some (.file content) := by
  rw [kind?, Node.kind?, ← node?]
  cases d.node? names with
  | none => simp
  | some n => cases n <;> simp [Node.kind]

theorem kind?_eq_folder_iff :
    d.kind? names = some .folder ↔ ∃ entries, d.node? names = some (.folder entries) := by
  rw [kind?, Node.kind?, ← node?]
  cases d.node? names with
  | none => simp
  | some n => cases n <;> simp [Node.kind]

/-- The content of the file at a place. -/
def content? (d : Disk) (names : List String) : Option Bytes :=
  match d.node? names with
  | some (.file content) => some content
  | _ => none

theorem content?_eq_some_iff {content : Bytes} :
    d.content? names = some content ↔ d.kind? names = some (.file content) := by
  rw [kind?_eq_file_iff, content?]
  cases d.node? names with
  | none => simp
  | some n => cases n <;> simp

theorem content?_congr (same : d'.kind? names = d.kind? names) :
    d'.content? names = d.content? names := by
  ext content
  rw [content?_eq_some_iff, content?_eq_some_iff, same]

/-- What holds something is a folder. -/
theorem kind?_eq_folder_of_append {more : List String} {name : String}
    (there : d.kind? (names ++ name :: more) ≠ none) : d.kind? names = some .folder :=
  Node.kind?_eq_folder_of_append there

/-- An entry of a folder is there if the folder lists its name. -/
theorem kind?_append_eq_none_iff {entries : List (String × Node)} {name : String}
    (folder : d.node? here = some (.folder entries)) :
    d.kind? (here ++ [name]) = none ↔ entries.lookup name = none := by
  rw [node?] at folder
  rw [kind?_eq_none_iff, node?, Node.find?_append, folder, Option.bind_some, Node.find?_cons]
  cases entries.lookup name <;> simp [Node.find?]

/-- Where one part of a path leads, by what is there. -/
theorem walk_cons (d : Disk) (here parts : List String) (part : String) :
    d.walk here (part :: parts) =
      match d.kind? here with
      | none => .error .notFound
      | some (.file _) => .error .notFolder
      | some .folder =>
        if part = "." then d.walk here parts
        else if part = ".." then d.walk here.dropLast parts
        else if isTooLong part then .error .nameTooLong
        else if d.kind? (here ++ [part]) = none then .error .notFound
        else d.walk (here ++ [part]) parts := by
  rw [walk, kind?, Node.kind?, ← node?]
  cases found : d.node? here with
  | none => rfl
  | some n =>
    cases n with
    | file content => rfl
    | folder entries =>
      have listed : (entries.lookup part).isNone ↔ d.kind? (here ++ [part]) = none := by
        rw [Option.isNone_iff_eq_none, kind?_append_eq_none_iff found]
      simp only [Option.map_some, Node.kind]
      grind

/-- One part of a path leads on from a folder. -/
theorem walk_cons_eq_ok_iff {part : String} :
    d.walk here (part :: parts) = .ok place ↔
      d.kind? here = some .folder ∧
        (part = "." ∧ d.walk here parts = .ok place ∨
          part = ".." ∧ d.walk here.dropLast parts = .ok place ∨
          Path.isDots part = false ∧ isTooLong part = false ∧ d.kind? (here ++ [part]) ≠ none ∧
            d.walk (here ++ [part]) parts = .ok place) := by
  rw [walk_cons]
  rcases d.kind? here with - | content | -
  · simp
  · simp
  · grind [Path.isDots]

/-- One part of a path leads to where nothing is, or leads on from a folder to where something is
missing. -/
theorem walk_cons_eq_notFound_iff {part : String} :
    d.walk here (part :: parts) = .error .notFound ↔
      d.kind? here = none ∨ d.kind? here = some .folder ∧
        (part = "." ∧ d.walk here parts = .error .notFound ∨
          part = ".." ∧ d.walk here.dropLast parts = .error .notFound ∨
          Path.isDots part = false ∧ isTooLong part = false ∧
            (d.kind? (here ++ [part]) = none ∨
              d.walk (here ++ [part]) parts = .error .notFound)) := by
  rw [walk_cons]
  rcases d.kind? here with - | content | -
  · simp
  · simp
  · grind [Path.isDots]

theorem walk_append_eq_ok {more : List String}
    (walked : d.walk here parts = .ok names) (rest : d.walk names more = .ok place) :
    d.walk here (parts ++ more) = .ok place := by
  induction parts generalizing here with
  | nil =>
    cases walked
    exact rest
  | cons part parts ih =>
    obtain ⟨start, step⟩ := walk_cons_eq_ok_iff.1 walked
    refine walk_cons_eq_ok_iff.2 ⟨start, ?_⟩
    rcases step with ⟨dot, step⟩ | ⟨dots, step⟩ | ⟨plain, short, there, step⟩
    · exact .inl ⟨dot, ih step⟩
    · exact .inr (.inl ⟨dots, ih step⟩)
    · exact .inr (.inr ⟨plain, short, there, ih step⟩)

/-- The disk `d'` is `d` with `k?` at a place. -/
structure Becomes (d : Disk) (place : List String) (k? : Option Kind) (d' : Disk) : Prop where
  current : d'.current = d.current
  kind? : d'.kind? = Function.update d.kind? place k?

/-- All folders of `d` are folders of `d'`. -/
structure KeepsFolders (d d' : Disk) : Prop where
  current : d'.current = d.current
  folder : ∀ names, d.kind? names = some .folder → d'.kind? names = some .folder

theorem Becomes.keepsFolders {k? : Option Kind} (becomes : d.Becomes place k? d')
    (free : d.kind? place ≠ some .folder) : d.KeepsFolders d' where
  current := becomes.current
  folder names folder := by
    have other : names ≠ place := by
      rintro rfl
      exact free folder
    rw [becomes.kind?, Function.update_of_ne other, folder]

theorem Becomes.keepsFolders_back {k? : Option Kind} (becomes : d.Becomes place k? d')
    (noFolder : k? ≠ some .folder) : d'.KeepsFolders d where
  current := becomes.current.symm
  folder names folder := by
    rw [becomes.kind?] at folder
    by_cases here : names = place
    · rw [here, Function.update_self] at folder
      exact absurd folder noFolder
    · rwa [Function.update_of_ne here] at folder

namespace KeepsFolders

variable (keeps : d.KeepsFolders d')
include keeps

/-- A path that leads to a folder leads there still. -/
theorem walk (walked : d.walk here parts = .ok place) (folder : d.kind? place = some .folder) :
    d'.walk here parts = .ok place := by
  induction parts generalizing here with
  | nil => exact walked
  | cons part parts ih =>
    obtain ⟨start, step⟩ := walk_cons_eq_ok_iff.1 walked
    refine walk_cons_eq_ok_iff.2 ⟨keeps.folder here start, ?_⟩
    rcases step with ⟨dot, rest⟩ | ⟨dots, rest⟩ | ⟨plain, short, there, rest⟩
    · exact .inl ⟨dot, ih rest⟩
    · exact .inr (.inl ⟨dots, ih rest⟩)
    · have next : d.kind? (here ++ [part]) = some .folder := by
        cases parts with
        | nil =>
          cases rest
          exact folder
        | cons after parts => exact (walk_cons_eq_ok_iff.1 rest).1
      have next' : d'.kind? (here ++ [part]) ≠ none := by
        rw [keeps.folder _ next]
        exact Option.some_ne_none _
      exact .inr (.inr ⟨plain, short, next', ih rest⟩)

end KeepsFolders

end Disk

end InlineMarkup
