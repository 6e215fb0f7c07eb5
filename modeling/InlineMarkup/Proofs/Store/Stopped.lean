import InlineMarkup.Proofs.Disk.Making
import InlineMarkup.Proofs.Store.Saved

/-!
# Saves that stop before their end

A save may stop while it makes the folders around the file, while it writes the temporary file, or
before it moves that over the file (`FileStore.Stopped`). If the path of the store is made of
names, the store then loads what it loaded before, and no other file has changed.
-/

namespace InlineMarkup.FileStore

variable {records : Collection} {s s' : FileStore} {d : Disk}

/-- The disks that a save leaves while it makes the folders around the file. -/
inductive Preparing (s : FileStore) : Disk → Prop where
  /-- Nothing is made yet, or nothing is to be made. -/
  | start : Preparing s s.disk
  | folders (folder : Path) (d : Disk) (around : s.target.parent? = some folder)
      (named : folder.isEmpty = false)
      (making : Disk.MakingAt folder.absolute folder.pieces.reverse s.disk d) : Preparing s d

/-- The disks that a save leaves if it stops before its end. -/
inductive Stopped (records : Collection) (s : FileStore) : Disk → Prop where
  | preparing (d : Disk) (preparing : Preparing s d) : Stopped records s d
  /-- All folders are made, and a part of the temporary file is written, or all of it. -/
  | writing (d d' : Disk) (part : Bytes) (made : s.makeFolders = (.ok (), d))
      (begun : part <+: Utf8.encode (Json.encodeCollection records))
      (written : d.write s.temporary part = .ok d') : Stopped records s d'

/-- All files but the one of the store and the temporary one hold what they held; none is new and
none is gone. -/
def KeepsOthers (s : FileStore) (d : Disk) : Prop :=
  ∀ names, names ≠ s.disk.placeOf s.target → names ≠ s.disk.placeOf s.temporary →
    d.content? names = s.disk.content? names

theorem preparing_makeFolders (s : FileStore) : Preparing s s.makeFolders.2 := by
  unfold makeFolders
  split
  · rename_i folder around
    split
    · exact .start
    · rename_i named
      apply Preparing.folders folder _ around (by simpa using named)
      exact Disk.makingAt_makeFoldersAt ..
  · exact .start

theorem preparing_of_makeFolders {outcome : Except Disk.Fault Unit}
    (made : s.makeFolders = (outcome, d)) : Preparing s d := by
  have preparing := preparing_makeFolders s
  rwa [made] at preparing

/-! ## The paths of a save -/

section Paths

variable (ordinary : s.target.Ordinary)
include ordinary

theorem ordinary_temporary :
    s.temporary.Ordinary ∧ s.temporary.absolute = s.target.absolute ∧
      s.temporary.parts ≠ s.target.parts := by
  have names (name : String) : Path.isDots (name ++ ".tmp") = false := by
    have size : (name ++ ".tmp").length = name.length + 4 := String.length_append ..
    have noDot : name ++ ".tmp" ≠ "." := by
      intro same
      rw [same] at size
      have one : ".".length = 1 := rfl
      omega
    have noDots : name ++ ".tmp" ≠ ".." := by
      intro same
      rw [same] at size
      have two : "..".length = 2 := rfl
      omega
    simp [Path.isDots, noDot, noDots]
  exact ordinary.sibling names (by decide)

theorem placeOf_temporary_ne : s.disk.placeOf s.temporary ≠ s.disk.placeOf s.target := by
  obtain ⟨-, origin, other⟩ := ordinary_temporary ordinary
  rw [Disk.placeOf, Disk.placeOf, Disk.origin, Disk.origin, origin]
  intro same
  exact other (List.append_cancel_left same)

/-- The file is not on the way to the folder around it. -/
theorem ordinary_and_apart_of_parent? {folder : Path} (around : s.target.parent? = some folder) :
    folder.Ordinary ∧ ¬ s.disk.placeOf s.target <+: s.disk.placeOf folder := by
  rcases ordinary.cases with none | ⟨folder', name, around', -, origin, inside, parts⟩
  · simp [Path.parent?, Path.reversed, none, Path.trim] at around
  rw [around, Option.some_inj] at around'
  subst around'
  refine ⟨inside, ?_⟩
  intro onTheWay
  have shorter := onTheWay.length_le
  simp only [Disk.placeOf, Disk.origin, origin, parts, List.length_append,
    List.length_singleton] at shorter
  omega

end Paths

/-! ## What a stopped save leaves alone -/

/-- The place of the store and all files but two are as they were. -/
structure Unharmed (s : FileStore) (d : Disk) : Prop where
  current : d.current = s.disk.current
  target : d.kind? (s.disk.placeOf s.target) = s.disk.kind? (s.disk.placeOf s.target)
  others : s.KeepsOthers d

theorem Unharmed.load (unharmed : s.Unharmed d) (ordinary : s.target.Ordinary) :
    FileStore.load { s with disk := d } = s.load := by
  have shown := Disk.seen?_congr ordinary unharmed.current unharmed.target
  rw [load_eq_ofSeen, load_eq_ofSeen]
  exact congrArg (ofSeen s.path) shown

theorem Preparing.unharmed (preparing : Preparing s d) (ordinary : s.target.Ordinary) :
    s.Unharmed d := by
  cases preparing with
  | start => exact ⟨rfl, rfl, fun _ _ _ => rfl⟩
  | folders folder d around named making =>
    obtain ⟨inside, apart⟩ := ordinary_and_apart_of_parent? ordinary around
    have plain : ∀ piece ∈ folder.pieces.reverse, Path.isDots piece = false := by
      intro piece mem
      exact inside.plain_pieces piece (List.mem_reverse.1 mem)
    have adds := making.adds plain
    rw [List.reverse_reverse] at adds
    refine ⟨adds.current, ?_, ?_⟩
    · rcases adds.kind? (s.disk.placeOf s.target) with same | ⟨-, -, onTheWay⟩
      · exact same
      · exact absurd onTheWay apart
    · intro names _ _
      exact adds.content? names

/-- Writing to the temporary file harms nothing. -/
theorem Unharmed.write (unharmed : s.Unharmed d) (ordinary : s.target.Ordinary) {part : Bytes}
    (written : d.write s.temporary part = .ok d') : s.Unharmed d' := by
  obtain ⟨folder, name, receives, becomes⟩ := Disk.write_eq_ok written
  rw [receives.denotes.place_eq (ordinary_temporary ordinary).1,
    Disk.placeOf_congr unharmed.current] at becomes
  have apart := placeOf_temporary_ne ordinary
  refine ⟨becomes.current.trans unharmed.current, ?_, ?_⟩
  · rw [becomes.kind?, Function.update_of_ne apart.symm, unharmed.target]
  · intro names noTarget noTemporary
    rw [← unharmed.others names noTarget noTemporary]
    apply Disk.content?_congr
    rw [becomes.kind?, Function.update_of_ne noTemporary]

theorem Stopped.unharmed (stopped : Stopped records s d) (ordinary : s.target.Ordinary) :
    s.Unharmed d := by
  cases stopped with
  | preparing d preparing => exact preparing.unharmed ordinary
  | writing d d' part made begun written =>
    have prepared := (preparing_of_makeFolders made).unharmed ordinary
    exact prepared.write ordinary written

/-- A save that ends with a fault is a save that stopped. -/
theorem stopped_of_save_eq_error {fault : StoreFault}
    (saved : save records s = (.error fault, s')) : Stopped records s s'.disk := by
  obtain ⟨ended, -⟩ := ended_of_save saved
  cases ended with
  | noFolders fault d failed => exact .preparing _ (preparing_of_makeFolders failed)
  | notWritten d fault made failed => exact .preparing _ (preparing_of_makeFolders made)
  | notMoved d d' fault made written failed =>
    exact .writing d _ _ made List.prefix_rfl written

/-- The temporary file is moved over the file. -/
theorem placed_of_save_eq_ok (ordinary : s.target.Ordinary)
    (saved : save records s = (.ok (), s')) :
    s'.disk.isPresent s.temporary = false ∧ s.KeepsOthers s'.disk := by
  obtain ⟨ended, -⟩ := ended_of_save saved
  generalize s'.disk = last at ended
  cases ended with
  | moved d d' _ made written moved =>
    have prepared := (preparing_of_makeFolders made).unharmed ordinary
    have unharmed := prepared.write ordinary written
    have renamed : d'.rename s.temporary s.target = .ok last := moved
    obtain ⟨oldFolder, oldName, newFolder, newName, content, source, goal, moved⟩ :=
      Disk.rename_eq_ok renamed
    have temporary := (ordinary_temporary ordinary).1
    rw [source.place_eq temporary, goal.denotes.place_eq ordinary,
      Disk.placeOf_congr unharmed.current, Disk.placeOf_congr unharmed.current] at moved
    have apart := placeOf_temporary_ne ordinary
    constructor
    · rw [Disk.isPresent_eq_isSome_seen?]
      cases shown : last.seen? s.temporary with
      | none => rfl
      | some k =>
        obtain ⟨-, -, there⟩ := (Disk.seen?_eq_some_iff temporary).1 shown
        rw [Disk.placeOf_congr (moved.current.trans unharmed.current), moved.kind?,
          Function.update_of_ne apart, Function.update_self] at there
        cases there
    · intro names noTarget noTemporary
      rw [← unharmed.others names noTarget noTemporary]
      apply Disk.content?_congr
      rw [moved.kind?, Function.update_of_ne noTarget, Function.update_of_ne noTemporary]

/-- A save of a store with a path of names happens as a whole or not at all. Wherever it stops,
also because of a fault, the store loads what it loaded before; if it succeeds, the store loads
the collection and the temporary file is gone. No other file changes. -/
theorem save_whole_or_not (s : FileStore) (records : Collection) (ordinary : s.target.Ordinary) :
    (∀ d, Stopped records s d → load { s with disk := d } = s.load ∧ s.KeepsOthers d) ∧
    (∀ fault s', save records s = (.error fault, s') →
      Stopped records s s'.disk ∧ s'.load = s.load ∧ s.KeepsOthers s'.disk) ∧
    ∀ s', save records s = (.ok (), s') →
      s'.load = .ok records ∧ s'.disk.isPresent s.temporary = false ∧ s.KeepsOthers s'.disk := by
  have harmless (d : Disk) (stopped : Stopped records s d) :
      load { s with disk := d } = s.load ∧ s.KeepsOthers d := by
    have unharmed := stopped.unharmed ordinary
    exact ⟨unharmed.load ordinary, unharmed.others⟩
  refine ⟨harmless, ?_, ?_⟩
  · intro fault s' saved
    have stopped := stopped_of_save_eq_error saved
    rw [(ended_of_save saved).2]
    exact ⟨stopped, harmless _ stopped⟩
  · intro s' saved
    exact ⟨load_of_save_eq_ok saved, placed_of_save_eq_ok ordinary saved⟩

/-- A blank store beside which a save has left something. -/
def abandoned (content : Bytes) : FileStore :=
  ⟨"a//b.json",
    ⟨.folder [("a", .folder [("b.json", .file [32]), ("b.json.tmp", .file content)])], []⟩⟩

/-- A store with a file where its folder should be. -/
def blocked : FileStore :=
  ⟨"a//b.json", ⟨.folder [("a", .file [])], []⟩⟩

/-- A save that stops while it writes over what another one left, a save that fails at the folder,
and a save that succeeds. -/
theorem save_whole_or_not_abandoned :
    (abandoned ((Utf8.encode (Json.encodeCollection awkward)).take 20)).load =
        (abandoned [0, 1]).load ∧
      (save awkward blocked).1 = .error (.unwritable "a//b.json" (.disk .alreadyExists)) ∧
      (save awkward blocked).2.load = blocked.load ∧
      (save awkward (abandoned [0, 1])).1 = .ok () ∧
      (save awkward (abandoned [0, 1])).2.load = .ok awkward ∧
      (save awkward (abandoned [0, 1])).2.disk.isPresent (abandoned []).temporary = false := by
  have ordinary : Path.Ordinary (.ofString "a//b.json") := by decide +kernel
  have written (part : Bytes) : (abandoned [0, 1]).disk.write (abandoned [0, 1]).temporary part =
      .ok (abandoned part).disk := rfl
  have stopped : Stopped awkward (abandoned [0, 1])
      (abandoned ((Utf8.encode (Json.encodeCollection awkward)).take 20)).disk :=
    .writing _ _ _ rfl (List.take_prefix 20 _) (written _)
  have failed : (save awkward blocked).1 =
      .error (.unwritable "a//b.json" (.disk .alreadyExists)) := by decide +kernel
  have saved : (save awkward (abandoned [0, 1])).1 = .ok () := by decide +kernel
  obtain ⟨whenStopped, -, whenDone⟩ := save_whole_or_not (abandoned [0, 1]) awkward ordinary
  obtain ⟨-, whenFailed, -⟩ := save_whole_or_not blocked awkward ordinary
  obtain ⟨-, unchanged, -⟩ := whenFailed _ _ (Prod.ext failed rfl)
  obtain ⟨loaded, gone, -⟩ := whenDone _ (Prod.ext saved rfl)
  exact ⟨(whenStopped _ stopped).1, failed, unchanged, saved, loaded, gone⟩

end InlineMarkup.FileStore
