import InlineMarkup.Proofs.Disk.Kinds

/-!
# What the operations on disks do

Each operation that succeeds says where the entry is that a path denotes (`Disk.target`), and
changes the kinds at these places only.
-/

namespace InlineMarkup.Disk

open Node (Kind)

variable {d d' : Disk} {p : Path} {folder : List String} {name : String}

/-- Steps that may fail succeed together. -/
theorem bind_eq_ok_iff {ε α β : Type} {x : Except ε α} {f : α → Except ε β} {b : β} :
    x >>= f = .ok b ↔ ∃ a, x = .ok a ∧ f a = .ok b := by
  cases x <;> simp [bind, Except.bind]

/-! ## The entry that a path denotes -/

/-- The parts of a path to an entry lead to its folder and name it there. -/
structure Denotes (d : Disk) (p : Path) (folder : List String) (name : String) : Prop where
  checked : checkPath p = .ok ()
  around : d.kind? folder = some .folder
  plain : Path.isDots name = false
  walked : ∃ before, p.parts = before ++ [name] ∧ d.walk (d.origin p) before = .ok folder

theorem target_eq_entry_iff :
    d.target p = .ok (.entry folder name) ↔ d.Denotes p folder name := by
  constructor
  · intro success
    obtain ⟨⟨⟩, checked, success⟩ := bind_eq_ok_iff.1 success
    rcases List.eq_nil_or_concat p.parts with none | ⟨before, part, eq⟩
    · simp [none] at success
    rw [List.concat_eq_append] at eq
    simp only [eq, List.getLast?_concat, List.dropLast_concat] at success
    obtain ⟨here, walked, success⟩ := bind_eq_ok_iff.1 success
    split at success
    · cases success
    · cases success
    rename_i entries found
    split at success
    · cases success
    rename_i plain
    cases success
    exact ⟨checked, kind?_eq_folder_iff.2 ⟨entries, found⟩, by simpa using plain, before, eq,
      walked⟩
  · rintro ⟨checked, around, plain, before, eq, walked⟩
    obtain ⟨entries, found⟩ := kind?_eq_folder_iff.1 around
    simp [target, checked, eq, walked, found, plain, bind, Except.bind]

theorem Denotes.unique {folder' : List String} {name' : String} (denotes : d.Denotes p folder name)
    (denotes' : d.Denotes p folder' name') : folder = folder' ∧ name = name' := by
  have target := target_eq_entry_iff.2 denotes
  rw [target_eq_entry_iff.2 denotes'] at target
  cases target
  exact ⟨rfl, rfl⟩

/-- Where folders are kept, a path denotes the entry that it denoted before. -/
theorem KeepsFolders.denotes (keeps : d.KeepsFolders d') (denotes : d.Denotes p folder name) :
    d'.Denotes p folder name := by
  obtain ⟨checked, around, plain, before, eq, walked⟩ := denotes
  have start : d'.origin p = d.origin p := by
    rw [origin, origin, keeps.current]
  refine ⟨checked, keeps.folder folder around, plain, before, eq, ?_⟩
  rw [start]
  exact keeps.walk walked around

theorem place_eq_ok_iff {names : List String} :
    place folder name = .ok names ↔ isTooLong name = false ∧ names = folder ++ [name] := by
  unfold place
  cases isTooLong name with
  | true => simp
  | false => simp [eq_comm]

/-- A file can be written at the entry that a path denotes. -/
structure Receives (d : Disk) (p : Path) (folder : List String) (name : String) : Prop where
  denotes : d.Denotes p folder name
  short : isTooLong name = false
  notTrailing : p.trailing = false
  free : d.kind? (folder ++ [name]) ≠ some .folder

theorem Receives.placed (receives : d.Receives p folder name) :
    place folder name = .ok (folder ++ [name]) :=
  place_eq_ok_iff.2 ⟨receives.short, rfl⟩

/-- On disks with the same folders, files can be written at the same paths. -/
theorem Receives.of_keepsFolders (receives : d.Receives p folder name)
    (keeps : d.KeepsFolders d') (back : d'.KeepsFolders d) : d'.Receives p folder name where
  denotes := keeps.denotes receives.denotes
  short := receives.short
  notTrailing := receives.notTrailing
  free := by
    intro there
    exact receives.free (back.folder _ there)

/-- A node without entries that is put where no folder is. -/
theorem becomes_put {n : Node} (around : d.kind? folder = some .folder)
    (free : d.kind? (folder ++ [name]) ≠ some .folder)
    (bare : ∀ next more, n.kind? (next :: more) = none) :
    d.Becomes (folder ++ [name]) (some n.kind) (d.put (folder ++ [name]) n) where
  current := rfl
  kind? := Node.kind?_put around free bare

/-! ## What each operation does -/

/-- A folder is made where nothing was. -/
theorem makeFolder_eq_ok (success : d.makeFolder p = .ok d') :
    ∃ folder name, d.Denotes p folder name ∧ d.kind? (folder ++ [name]) = none ∧
      d.Becomes (folder ++ [name]) (some .folder) d' := by
  obtain ⟨t, target, success⟩ := bind_eq_ok_iff.1 success
  cases t with
  | unnamed => cases success
  | entry folder name =>
    have denotes := target_eq_entry_iff.1 target
    obtain ⟨names, placed, success⟩ := bind_eq_ok_iff.1 success
    obtain ⟨-, rfl⟩ := place_eq_ok_iff.1 placed
    split at success
    · cases success
    · rename_i missing
      cases success
      have free : d.kind? (folder ++ [name]) = none :=
        kind?_eq_none_iff.2 (Option.not_isSome_iff_eq_none.1 missing)
      refine ⟨folder, name, denotes, free, ?_⟩
      have noFolder : d.kind? (folder ++ [name]) ≠ some .folder := by simp [free]
      exact becomes_put (n := .folder []) denotes.around noFolder (by simp)

/-- A file is written where the path says. -/
theorem write_eq_ok {content : Bytes} (success : d.write p content = .ok d') :
    ∃ folder name, d.Receives p folder name ∧
      d.Becomes (folder ++ [name]) (some (.file content)) d' := by
  obtain ⟨t, target, success⟩ := bind_eq_ok_iff.1 success
  cases t with
  | unnamed => cases success
  | entry folder name =>
    have denotes := target_eq_entry_iff.1 target
    dsimp only at success
    split at success
    · cases success
    rename_i notTrailing
    obtain ⟨names, placed, success⟩ := bind_eq_ok_iff.1 success
    obtain ⟨short, rfl⟩ := place_eq_ok_iff.1 placed
    split at success
    · cases success
    · rename_i noFolder
      cases success
      have free : d.kind? (folder ++ [name]) ≠ some .folder := by
        intro there
        obtain ⟨entries, found⟩ := kind?_eq_folder_iff.1 there
        exact noFolder entries found
      refine ⟨folder, name, ⟨denotes, short, by simpa using notTrailing, free⟩, ?_⟩
      exact becomes_put (n := .file content) denotes.around free (by simp)

theorem Receives.exists_write_eq_ok (receives : d.Receives p folder name) (content : Bytes) :
    ∃ d', d.write p content = .ok d' ∧
      d.Becomes (folder ++ [name]) (some (.file content)) d' := by
  have becomes := becomes_put (n := .file content) receives.denotes.around receives.free (by simp)
  refine ⟨d.put (folder ++ [name]) (.file content), ?_, becomes⟩
  rw [write, target_eq_entry_iff.2 receives.denotes]
  simp only [bind, Except.bind, receives.notTrailing, receives.placed, Bool.false_eq_true,
    if_false]
  split
  · rename_i entries found
    exact absurd (kind?_eq_folder_iff.2 ⟨entries, found⟩) receives.free
  · rfl

/-- A file goes from one place to another, where no folder is. -/
structure Moved (d : Disk) (source goal : List String) (content : Bytes) (d' : Disk) : Prop where
  current : d'.current = d.current
  file : d.kind? source = some (.file content)
  free : d.kind? goal ≠ some .folder
  kind? : d'.kind? =
    Function.update (Function.update d.kind? source none) goal (some (.file content))

theorem Moved.keepsFolders {source goal : List String} {content : Bytes}
    (moved : d.Moved source goal content d') : d.KeepsFolders d' where
  current := moved.current
  folder names folder := by
    have other : names ≠ source := by
      rintro rfl
      rw [moved.file] at folder
      cases folder
    have other' : names ≠ goal := by
      rintro rfl
      exact moved.free folder
    rw [moved.kind?, Function.update_of_ne other', Function.update_of_ne other, folder]

/-- A file is moved by taking it away and putting it where no folder is; this may be where it
was. -/
theorem moved_put_remove {oldFolder newFolder : List String} {oldName newName : String}
    {content : Bytes} (around : d.kind? oldFolder = some .folder)
    (file : d.kind? (oldFolder ++ [oldName]) = some (.file content))
    (around' : d.kind? newFolder = some .folder)
    (free : d.kind? (newFolder ++ [newName]) ≠ some .folder) :
    d.Moved (oldFolder ++ [oldName]) (newFolder ++ [newName]) content
      { d with
        root := Node.put (.file content) (newFolder ++ [newName])
          (Node.remove (oldFolder ++ [oldName]) d.root) } := by
  have noFolder : d.kind? (oldFolder ++ [oldName]) ≠ some .folder := by simp [file]
  generalize between : Node.remove (oldFolder ++ [oldName]) d.root = root
  have taken : d.Becomes (oldFolder ++ [oldName]) none { d with root } :=
    ⟨rfl, between ▸ Node.kind?_remove around noFolder⟩
  have kept := (taken.keepsFolders noFolder).folder newFolder around'
  have free' : kind? { d with root } (newFolder ++ [newName]) ≠ some .folder := by
    rw [taken.kind?]
    by_cases same : newFolder ++ [newName] = oldFolder ++ [oldName]
    · simp [same]
    · rwa [Function.update_of_ne same]
  have put := becomes_put (n := .file content) kept free' (by simp)
  refine ⟨rfl, file, free, ?_⟩
  rw [← taken.kind?]
  exact put.kind?

/-- A file goes where the new path says. -/
theorem rename_eq_ok {old new : Path} (success : d.rename old new = .ok d') :
    ∃ oldFolder oldName newFolder newName content,
      d.Denotes old oldFolder oldName ∧ d.Receives new newFolder newName ∧
        d.Moved (oldFolder ++ [oldName]) (newFolder ++ [newName]) content d' := by
  obtain ⟨s, source, success⟩ := bind_eq_ok_iff.1 success
  obtain ⟨t, target, success⟩ := bind_eq_ok_iff.1 success
  cases s with
  | unnamed => cases success
  | entry oldFolder oldName =>
    cases t with
    | unnamed => cases success
    | entry newFolder newName =>
      have fromEntry := target_eq_entry_iff.1 source
      have toEntry := target_eq_entry_iff.1 target
      obtain ⟨names, placed, success⟩ := bind_eq_ok_iff.1 success
      obtain ⟨-, rfl⟩ := place_eq_ok_iff.1 placed
      obtain ⟨names, placed, success⟩ := bind_eq_ok_iff.1 success
      obtain ⟨short, rfl⟩ := place_eq_ok_iff.1 placed
      split at success
      · cases success
      · cases success
      rename_i content found
      split at success
      · cases success
      rename_i notTrailing
      split at success
      · cases success
      rename_i noFolder
      cases success
      have free : d.kind? (newFolder ++ [newName]) ≠ some .folder := by
        intro there
        obtain ⟨entries, found⟩ := kind?_eq_folder_iff.1 there
        exact noFolder entries found
      have file := kind?_eq_file_iff.2 found
      have moved := moved_put_remove fromEntry.around file toEntry.around free
      exact ⟨oldFolder, oldName, newFolder, newName, content, fromEntry,
        ⟨toEntry, short, by simpa using notTrailing, free⟩, moved⟩

theorem Receives.exists_rename_eq_ok {old : Path} {oldFolder : List String} {oldName : String}
    {content : Bytes} (receives : d.Receives p folder name)
    (denotes : d.Denotes old oldFolder oldName) (short : isTooLong oldName = false)
    (file : d.kind? (oldFolder ++ [oldName]) = some (.file content)) :
    ∃ d', d.rename old p = .ok d' := by
  have placed : place oldFolder oldName = .ok (oldFolder ++ [oldName]) :=
    place_eq_ok_iff.2 ⟨short, rfl⟩
  rw [rename, target_eq_entry_iff.2 denotes, target_eq_entry_iff.2 receives.denotes]
  simp only [bind, Except.bind, placed, receives.placed, kind?_eq_file_iff.1 file,
    receives.notTrailing, Bool.false_eq_true, if_false]
  split
  · rename_i entries found
    exact absurd (kind?_eq_folder_iff.2 ⟨entries, found⟩) receives.free
  · exact ⟨_, rfl⟩

/-! ## What a path shows -/

/-- What a path shows on a disk, if anything. -/
def seen? (d : Disk) (p : Path) : Option Kind :=
  (d.resolve p).toOption.map Node.kind

theorem isPresent_eq_isSome_seen? : d.isPresent p = (d.seen? p).isSome := by
  rw [isPresent, seen?]
  cases d.resolve p <;> rfl

/-- A path shows the file that it has received. -/
theorem Denotes.seen?_eq {content : Bytes} (denotes : d.Denotes p folder name)
    (short : isTooLong name = false) (notTrailing : p.trailing = false)
    (file : d.kind? (folder ++ [name]) = some (.file content)) :
    d.seen? p = some (.file content) := by
  obtain ⟨checked, around, plain, before, eq, walked⟩ := denotes
  have last : d.walk folder [name] = .ok (folder ++ [name]) :=
    walk_cons_eq_ok_iff.2 ⟨around, .inr (.inr ⟨plain, short, by simp [file], rfl⟩)⟩
  have whole := walk_append_eq_ok walked last
  rw [← eq] at whole
  have found := kind?_eq_file_iff.1 file
  have resolved : d.resolve p = .ok (.file content) := by
    simp [resolve, checked, whole, found, notTrailing, bind, Except.bind]
  rw [seen?, resolved]
  rfl

end InlineMarkup.Disk
