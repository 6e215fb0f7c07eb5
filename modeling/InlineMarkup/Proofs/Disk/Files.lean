import InlineMarkup.Proofs.Disk.Making

/-!
# Files that stay as they are

Steps on a disk keep its folders, and change files at most where certain paths lead
(`Disk.ChangesAt`). Where a path leads is said of the disk afterwards, since the folders on its way
may have been made. Such steps compose.

A file that a path receives after its folders were made is new if the path showed nothing before,
unless the path goes up from a folder that was missing (`Receives.content?_eq_none`).
-/

namespace InlineMarkup.Disk

open Node (Kind)

variable {d d' d'' : Disk} {p : Path} {paths paths' : List Path}
  {here names parts place : List String}

/-- The path leads to the entry at a place, whether or not something is there. -/
def Leads (d : Disk) (p : Path) (names : List String) : Prop :=
  ∃ folder name, d.Denotes p folder name ∧ names = folder ++ [name]

/-- All folders stay, and all files hold what they held, except where one of the paths leads; no
file is new elsewhere, and none is gone. -/
structure ChangesAt (d : Disk) (paths : List Path) (d' : Disk) : Prop where
  keeps : d.KeepsFolders d'
  content? : ∀ names, (∀ p ∈ paths, ¬ d'.Leads p names) → d'.content? names = d.content? names

/-- All folders stay, and all files hold what they held; none is new, and none is gone. -/
abbrev ChangesNone (d d' : Disk) : Prop :=
  d.ChangesAt [] d'

theorem KeepsFolders.refl (d : Disk) : d.KeepsFolders d :=
  ⟨rfl, fun _ folder => folder⟩

theorem KeepsFolders.trans (keeps : d.KeepsFolders d') (keeps' : d'.KeepsFolders d'') :
    d.KeepsFolders d'' where
  current := keeps'.current.trans keeps.current
  folder names folder := keeps'.folder names (keeps.folder names folder)

theorem KeepsFolders.leads (keeps : d.KeepsFolders d') (leads : d.Leads p names) :
    d'.Leads p names := by
  obtain ⟨folder, name, denotes, eq⟩ := leads
  exact ⟨folder, name, keeps.denotes denotes, eq⟩

namespace ChangesAt

theorem refl (d : Disk) (paths : List Path) : d.ChangesAt paths d :=
  ⟨.refl d, fun _ _ => rfl⟩

theorem mono (changes : d.ChangesAt paths d') (more : paths ⊆ paths') : d.ChangesAt paths' d' where
  keeps := changes.keeps
  content? names elsewhere :=
    changes.content? names fun p mem => elsewhere p (more mem)

theorem trans (changes : d.ChangesAt paths d') (changes' : d'.ChangesAt paths d'') :
    d.ChangesAt paths d'' where
  keeps := changes.keeps.trans changes'.keeps
  content? names elsewhere := by
    rw [changes'.content? names elsewhere]
    apply changes.content? names
    intro p mem leads
    exact elsewhere p mem (changes'.keeps.leads leads)

end ChangesAt

theorem ChangesNone.content?_eq (unchanged : d.ChangesNone d') : d'.content? = d.content? := by
  funext names
  exact unchanged.content? names (by simp)

/-! ## Each operation -/

theorem changesNone_of_makeFolder (made : d.makeFolder p = .ok d') : d.ChangesNone d' := by
  obtain ⟨folder, name, -, missing, becomes⟩ := makeFolder_eq_ok made
  refine ⟨becomes.keepsFolders (by simp [missing]), fun names _ => ?_⟩
  by_cases here : names = folder ++ [name]
  · ext content
    rw [content?_eq_some_iff, content?_eq_some_iff, becomes.kind?, here, Function.update_self,
      missing]
    simp
  · apply content?_congr
    rw [becomes.kind?, Function.update_of_ne here]

theorem MakingAt.changesNone {absolute : Bool} {reversed : List String}
    (making : MakingAt absolute reversed d d') : d.ChangesNone d' := by
  induction reversed generalizing d d' with
  | nil =>
    cases making
    exact .refl ..
  | cons piece before ih =>
    cases making with
    | stopped => exact .refl ..
    | idle idle making => exact ih making
    | made real made => exact changesNone_of_makeFolder made
    | around real missing making => exact ih making
    | inside real missing around made =>
      have first := makingAt_makeFoldersAt absolute before d
      rw [around] at first
      exact (ih first).trans (changesNone_of_makeFolder made)

/-- Making folders changes no file, also if it fails. -/
theorem changesNone_makeFolders (d : Disk) (p : Path) : d.ChangesNone (d.makeFolders p).2 :=
  (makingAt_makeFoldersAt p.absolute p.pieces.reverse d).changesNone

theorem changesAt_of_write {content : Bytes} (written : d.write p content = .ok d') :
    d.ChangesAt [p] d' := by
  obtain ⟨folder, name, receives, becomes⟩ := write_eq_ok written
  have keeps := becomes.keepsFolders receives.free
  refine ⟨keeps, fun names elsewhere => ?_⟩
  have apart : names ≠ folder ++ [name] := by
    rintro rfl
    exact elsewhere p (by simp) ⟨folder, name, keeps.denotes receives.denotes, rfl⟩
  apply content?_congr
  rw [becomes.kind?, Function.update_of_ne apart]

theorem changesAt_of_rename {old new : Path} (renamed : d.rename old new = .ok d') :
    d.ChangesAt [old, new] d' := by
  obtain ⟨oldFolder, oldName, newFolder, newName, content, source, goal, moved⟩ :=
    rename_eq_ok renamed
  have keeps := moved.keepsFolders
  refine ⟨keeps, fun names elsewhere => ?_⟩
  have notSource : names ≠ oldFolder ++ [oldName] := by
    rintro rfl
    exact elsewhere old (by simp) ⟨oldFolder, oldName, keeps.denotes source, rfl⟩
  have notGoal : names ≠ newFolder ++ [newName] := by
    rintro rfl
    exact elsewhere new (by simp) ⟨newFolder, newName, keeps.denotes goal.denotes, rfl⟩
  apply content?_congr
  rw [moved.kind?, Function.update_of_ne notGoal, Function.update_of_ne notSource]

/-! ## Paths that do not go up -/

/-- A path that does not go up comes to no place outside of where it starts. -/
theorem prefix_of_walk (noUp : ".." ∉ parts) (walked : d.walk here parts = .ok place) :
    here <+: place := by
  induction parts generalizing here with
  | nil =>
    cases walked
    exact List.prefix_rfl
  | cons part parts ih =>
    obtain ⟨down, noUp⟩ := not_or.1 (mt List.mem_cons.2 noUp)
    obtain ⟨-, step⟩ := walk_cons_eq_ok_iff.1 walked
    rcases step with ⟨dot, step⟩ | ⟨dots, -⟩ | ⟨-, -, -, step⟩
    · exact ih noUp step
    · exact absurd dots.symm down
    · exact (List.prefix_append here [part]).trans (ih noUp step)

theorem folder_of_prefix (inside : names <+: place) (folder : d.kind? place = some .folder) :
    d.kind? names = some .folder := by
  obtain ⟨more, rfl⟩ := inside
  cases more with
  | nil => rwa [List.append_nil] at folder
  | cons name more =>
    apply kind?_eq_folder_of_append
    rw [folder]
    exact Option.some_ne_none _

/-! ## Where paths led before -/

/-- The way along the parts goes up, with `..`, after it comes to where a folder is missing. -/
def GoesUpFromMissing (d : Disk) (here parts : List String) : Prop :=
  ∃ before after, parts = before ++ ".." :: after ∧
    d.walk here (before ++ [".."]) = .error .notFound

namespace GoesUpFromMissing

theorem cons {part : String} {next : List String} (goesUp : d.GoesUpFromMissing next parts)
    (first : ∀ more, d.walk next more = .error .notFound →
      d.walk here (part :: more) = .error .notFound) :
    d.GoesUpFromMissing here (part :: parts) := by
  obtain ⟨before, after, rfl, lost⟩ := goesUp
  exact ⟨part :: before, after, rfl, first (before ++ [".."]) lost⟩

theorem append (goesUp : d.GoesUpFromMissing here parts) (more : List String) :
    d.GoesUpFromMissing here (parts ++ more) := by
  obtain ⟨before, after, rfl, lost⟩ := goesUp
  exact ⟨before, after ++ more, by simp, lost⟩

/-- A way that starts where nothing is goes up, if after some steps it leads to a folder that was
there before. -/
theorem of_missing (walked : d'.walk here parts = .ok place)
    (folder : d.kind? place = some .folder) (missing : d.kind? here = none) :
    d.GoesUpFromMissing here parts := by
  have up : ".." ∈ parts := by
    by_contra noUp
    have start := folder_of_prefix (prefix_of_walk noUp walked) folder
    rw [missing] at start
    cases start
  obtain ⟨before, after, rfl⟩ := List.append_of_mem up
  refine ⟨before, after, rfl, ?_⟩
  cases before <;> exact walk_cons_eq_notFound_iff.2 (.inl missing)

end GoesUpFromMissing

/-- Where files stay as they are, no folder comes to where something else was. -/
theorem ChangesNone.kind?_eq_folder (unchanged : d.ChangesNone d')
    (folder : d'.kind? names = some .folder) (there : d.kind? names ≠ none) :
    d.kind? names = some .folder := by
  obtain ⟨kind, there⟩ := Option.ne_none_iff_exists'.1 there
  cases kind with
  | folder => exact there
  | file content =>
    rw [← content?_eq_some_iff, ← unchanged.content?_eq, content?_eq_some_iff, folder] at there
    cases there

/-- Where a path leads to a folder after some steps, it led to it before, if the folder was there,
unless it went up from a folder that was missing. -/
theorem walk_back (unchanged : d.ChangesNone d') (walked : d'.walk here parts = .ok place)
    (folder : d.kind? place = some .folder) :
    d.walk here parts = .ok place ∨ d.GoesUpFromMissing here parts := by
  induction parts generalizing here with
  | nil => exact .inl walked
  | cons part parts ih =>
    by_cases missing : d.kind? here = none
    · exact .inr (.of_missing walked folder missing)
    obtain ⟨folder', step⟩ := walk_cons_eq_ok_iff.1 walked
    have start := unchanged.kind?_eq_folder folder' missing
    rw [walk_cons_eq_ok_iff]
    rcases step with ⟨dot, step⟩ | ⟨dots, step⟩ | ⟨plain, short, -, step⟩
    · rcases ih step with walked | goesUp
      · exact .inl ⟨start, .inl ⟨dot, walked⟩⟩
      · right
        apply goesUp.cons
        intro more lost
        exact walk_cons_eq_notFound_iff.2 (.inr ⟨start, .inl ⟨dot, lost⟩⟩)
    · rcases ih step with walked | goesUp
      · exact .inl ⟨start, .inr (.inl ⟨dots, walked⟩)⟩
      · right
        apply goesUp.cons
        intro more lost
        exact walk_cons_eq_notFound_iff.2 (.inr ⟨start, .inr (.inl ⟨dots, lost⟩)⟩)
    · have first (more : List String) (lost : d.walk (here ++ [part]) more = .error .notFound) :
          d.walk here (part :: more) = .error .notFound :=
        walk_cons_eq_notFound_iff.2 (.inr ⟨start, .inr (.inr ⟨plain, short, .inr lost⟩)⟩)
      -- From a folder that is new only `..` leads back to one that is not.
      by_cases missing' : d.kind? (here ++ [part]) = none
      · exact .inr ((GoesUpFromMissing.of_missing step folder missing').cons first)
      rcases ih step with walked | goesUp
      · exact .inl ⟨start, .inr (.inr ⟨plain, short, missing', walked⟩)⟩
      · exact .inr (goesUp.cons first)

/-- A file that a path receives after folders were made is new, if the path showed nothing before,
unless the path went up from a folder that was missing. -/
theorem Receives.content?_eq_none {folder : List String} {name : String}
    (receives : d'.Receives p folder name) (unchanged : d.ChangesNone d')
    (absent : d.isPresent p = false) :
    d.content? (folder ++ [name]) = none ∨ d.GoesUpFromMissing (d.origin p) p.parts := by
  by_cases there : d.content? (folder ++ [name]) = none
  · exact .inl there
  obtain ⟨content, there⟩ := Option.ne_none_iff_exists'.1 there
  have file := content?_eq_some_iff.1 there
  have around : d.kind? folder = some .folder := by
    have there : d.kind? (folder ++ name :: []) ≠ none := by simp [file]
    exact kind?_eq_folder_of_append there
  obtain ⟨checked, -, plain, before, eq, walked⟩ := receives.denotes
  have start : d'.origin p = d.origin p := by
    rw [origin, origin, unchanged.keeps.current]
  rw [start] at walked
  rcases walk_back unchanged walked around with walked | goesUp
  · have denotes : d.Denotes p folder name := ⟨checked, around, plain, before, eq, walked⟩
    have seen := denotes.seen?_eq receives.short receives.notTrailing file
    rw [isPresent_eq_isSome_seen?, seen] at absent
    cases absent
  · rw [eq]
    exact .inr (goesUp.append [name])

end InlineMarkup.Disk
