import InlineMarkup.Proofs.Disk.Operations
import InlineMarkup.Proofs.Json.Collection
import InlineMarkup.Store.File

/-!
# Saved collections are loaded again

What a store in a file loads depends on what its path shows (`FileStore.load_eq_ofSeen`). A save
that succeeds leaves the file with the encoded collection there, wherever the path leads; it
succeeds exactly if both of its files can be written (`FileStore.save_eq_ok_iff`).
-/

namespace InlineMarkup.FileStore

open Node (Kind)

/-- What is loaded from a file at `path` that shows what is given. -/
def ofSeen (path : String) : Option Kind → Except StoreFault Collection
  | none => .ok .empty
  | some .folder => .error (.unreadable path (.disk .isFolder))
  | some (.file content) =>
    match Utf8.decode? content with
    | none => .error (.unreadable path (.disk .notText))
    | some text => (decode text).mapError (.undecodable path)

theorem load_eq_ofSeen (s : FileStore) : s.load = ofSeen s.path (s.disk.seen? s.target) := by
  rw [load, Disk.isPresent, Disk.readText, Disk.read, Disk.seen?]
  cases s.disk.resolve s.target with
  | error fault => rfl
  | ok n =>
    cases n with
    | folder entries => rfl
    | file content =>
      simp [Except.isOk, Except.toBool, Except.toOption, ofSeen, Node.kind, bind, Except.bind]
      cases Utf8.decode? content <;> rfl

theorem decode_encodeCollection (records : Collection) :
    decode (Json.encodeCollection records) = .ok records := by
  rw [decode, Json.isBlankText_encodeCollection, if_neg Bool.false_ne_true,
    Json.decodeCollection_encodeCollection]

/-- A file with the encoding of a collection holds the collection. -/
theorem ofSeen_encodeCollection (path : String) (records : Collection) :
    ofSeen path (some (.file (Utf8.encode (Json.encodeCollection records)))) = .ok records := by
  simp [ofSeen, Utf8.decode?_encode, decode_encodeCollection, Except.mapError]

/-- The ways in which a save ends, with its outcome and the disk that it leaves. -/
inductive Ended (records : Collection) (s : FileStore) : Except StoreFault Unit → Disk → Prop where
  /-- The folders around the file are not made. -/
  | noFolders (fault : Disk.Fault) (d : Disk) (failed : s.makeFolders = (.error fault, d)) :
      Ended records s (.error (.unwritable s.path (.disk fault))) d
  /-- The temporary file is not written. -/
  | notWritten (d : Disk) (fault : Disk.Fault) (made : s.makeFolders = (.ok (), d))
      (failed : writeTemporary { s with disk := d } records = .error fault) :
      Ended records s (.error (.unwritable s.path (.disk fault))) d
  /-- The temporary file is left where it is. -/
  | notMoved (d d' : Disk) (fault : Disk.Fault) (made : s.makeFolders = (.ok (), d))
      (written : writeTemporary { s with disk := d } records = .ok d')
      (failed : publish { s with disk := d' } = .error fault) :
      Ended records s (.error (.unwritable s.path (.disk fault))) d'
  /-- All three steps are done. -/
  | moved (d d' d'' : Disk) (made : s.makeFolders = (.ok (), d))
      (written : writeTemporary { s with disk := d } records = .ok d')
      (moved : publish { s with disk := d' } = .ok d'') :
      Ended records s (.ok ()) d''

theorem ended_of_save {records : Collection} {s s' : FileStore} {outcome : Except StoreFault Unit}
    (saved : save records s = (outcome, s')) :
    Ended records s outcome s'.disk ∧ s' = { s with disk := s'.disk } := by
  unfold save at saved
  split at saved
  · rename_i fault d failed
    cases saved
    exact ⟨.noFolders fault d failed, rfl⟩
  rename_i d made
  dsimp only at saved
  split at saved
  · rename_i fault failed
    cases saved
    exact ⟨.notWritten d fault made failed, rfl⟩
  rename_i d' written
  split at saved
  · rename_i fault failed
    cases saved
    exact ⟨.notMoved d d' fault made written failed, rfl⟩
  · rename_i d'' moved
    cases saved
    exact ⟨.moved d d' d'' made written moved, rfl⟩

/-- After a save that succeeds, the collection is loaded. -/
theorem load_of_save_eq_ok {records : Collection} {s s' : FileStore}
    (saved : save records s = (.ok (), s')) : s'.load = .ok records := by
  obtain ⟨ended, rest⟩ := ended_of_save saved
  generalize s'.disk = last at ended rest
  subst rest
  cases ended with
  | moved d d' _ made written moved =>
    obtain ⟨folder, name, temporary, wrote⟩ := Disk.write_eq_ok written
    obtain ⟨oldFolder, oldName, newFolder, newName, content, source, goal, gone⟩ :=
      Disk.rename_eq_ok moved
    have kept := (wrote.keepsFolders temporary.free).denotes temporary.denotes
    obtain ⟨rfl, rfl⟩ := kept.unique source
    have file := gone.file
    rw [wrote.kind?, Function.update_self] at file
    cases file
    have goal' := gone.keepsFolders.denotes goal.denotes
    have shown : last.seen? s.target =
        some (.file (Utf8.encode (Json.encodeCollection records))) := by
      apply goal'.seen?_eq goal.short goal.notTrailing
      rw [gone.kind?, Function.update_self]
    rw [load_eq_ofSeen]
    exact (congrArg (ofSeen s.path) shown).trans (ofSeen_encodeCollection s.path records)

/-- The folders around the file can be made, and both files of a save can then be written. -/
def Ready (s : FileStore) : Prop :=
  ∃ d, s.makeFolders = (.ok (), d) ∧
    (∃ folder name, d.Receives s.temporary folder name) ∧
      ∃ folder name, d.Receives s.target folder name

/-- Whether a save succeeds does not depend on the collection. -/
theorem save_eq_ok_iff (records : Collection) (s : FileStore) :
    (save records s).1 = .ok () ↔ s.Ready := by
  constructor
  · intro success
    obtain ⟨ended, -⟩ := ended_of_save (Prod.ext success rfl)
    generalize (save records s).2.disk = last at ended
    cases ended with
    | moved d d' _ made written moved =>
      obtain ⟨folder, name, temporary, wrote⟩ := Disk.write_eq_ok written
      obtain ⟨-, -, newFolder, newName, -, -, goal, -⟩ := Disk.rename_eq_ok moved
      have keeps := wrote.keepsFolders temporary.free
      have back := wrote.keepsFolders_back (by simp)
      have goal' := goal.of_keepsFolders back keeps
      exact ⟨d, made, ⟨folder, name, temporary⟩, newFolder, newName, goal'⟩
  · rintro ⟨d, made, ⟨folder, name, temporary⟩, newFolder, newName, goal⟩
    obtain ⟨d', written, wrote⟩ :=
      temporary.exists_write_eq_ok (Utf8.encode (Json.encodeCollection records))
    have keeps := wrote.keepsFolders temporary.free
    have goal' := goal.of_keepsFolders keeps (wrote.keepsFolders_back (by simp))
    have file : d'.kind? (folder ++ [name]) =
        some (.file (Utf8.encode (Json.encodeCollection records))) := by
      rw [wrote.kind?, Function.update_self]
    obtain ⟨d'', moved⟩ :=
      goal'.exists_rename_eq_ok (keeps.denotes temporary.denotes) temporary.short file
    have writes : writeTemporary { s with disk := d } records = .ok d' := written
    have moves : publish { s with disk := d' } = .ok d'' := moved
    simp only [save, made, writes, moves]

/-- Whatever a collection holds, its encoding is decoded to it and is not blank. What a save that
succeeds leaves is loaded as the collection, wherever the file is, and the save succeeds if the
files can be written at all. -/
theorem loaded_as_saved (records : Collection) :
    Json.decodeCollection (Json.encodeCollection records) = .ok records ∧
      Text.isBlankText (Json.encodeCollection records) = false ∧
        ∀ s : FileStore, (∀ s', save records s = (.ok (), s') → s'.load = .ok records) ∧
          ((save records s).1 = .ok () ↔ s.Ready) := by
  refine ⟨Json.decodeCollection_encodeCollection records,
    Json.isBlankText_encodeCollection records, ?_⟩
  intro s
  constructor
  · intro s' saved
    exact load_of_save_eq_ok saved
  · exact save_eq_ok_iff records s

/-- Records with quotes, backslashes, control characters and empty texts, under keys of which none
is the record's. -/
def awkward : Collection :=
  .ofList [
    ("", { key := "a", opening := "\"", closing := "\\", color := "red" }),
    ("\\\"\n\x00é", {
      key := "", usage := "\t\x1f\x7f", opening := "", closing := "\x7b\x7d"
      description := "\u2028\r", sample := "/", color := "", effects := .ofList [.bold, .pulse] })]

theorem loaded_as_saved_awkward :
    let s : FileStore := ⟨"a//b.json", ⟨.folder [], []⟩⟩
    (save awkward s).1 = .ok () ∧ s.Ready ∧ (save awkward s).2.load = .ok awkward := by
  intro s
  have saved : (save awkward s).1 = .ok () := by decide +kernel
  obtain ⟨-, -, saves⟩ := loaded_as_saved awkward
  obtain ⟨loaded, ready⟩ := saves s
  exact ⟨saved, ready.1 saved, loaded _ (Prod.ext saved rfl)⟩

end InlineMarkup.FileStore
