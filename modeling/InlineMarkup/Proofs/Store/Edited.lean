import InlineMarkup.Authoring.Request
import InlineMarkup.Proofs.Disk.Files
import InlineMarkup.Proofs.Store.Saved

/-!
# What edits write

An edit carried out on a store in a file changes no file before it saves. A save writes to the
temporary file beside the one of the store, and moves it over that at the end. So an edit that
fails changes no file but the temporary one, and not even that unless the save is to blame
(`FileStore.edited_run`).
-/

namespace InlineMarkup

namespace FileStore

variable {records : Collection} {s s' : FileStore} {d : Disk}

theorem changesNone_of_makeFolders {outcome : Except Disk.Fault Unit}
    (made : s.makeFolders = (outcome, d)) : s.disk.ChangesNone d := by
  unfold makeFolders at made
  split at made
  · rename_i folder around
    split at made
    · cases made
      exact .refl ..
    · have unchanged := s.disk.changesNone_makeFolders folder
      rwa [made] at unchanged
  · cases made
    exact .refl ..

theorem changesAt_of_writeTemporary {d' : Disk} (made : s.makeFolders = (.ok (), d))
    (written : writeTemporary { s with disk := d } records = .ok d') :
    s.disk.ChangesAt [s.temporary] d' := by
  have folders := (changesNone_of_makeFolders made).mono (List.nil_subset [s.temporary])
  exact folders.trans (Disk.changesAt_of_write written)

/-- What a save changes by its outcome. -/
inductive Changed (s : FileStore) : Except StoreFault Unit → Disk → Prop where
  | failed (cause : StoreCause) (d : Disk) (changes : s.disk.ChangesAt [s.temporary] d) :
      Changed s (.error (.unwritable s.path cause)) d
  | saved (d : Disk) (changes : s.disk.ChangesAt [s.temporary, s.target] d) : Changed s (.ok ()) d

theorem changed_of_save {outcome : Except StoreFault Unit}
    (saved : save records s = (outcome, s')) : s.Changed outcome s'.disk := by
  obtain ⟨ended, -⟩ := ended_of_save saved
  generalize s'.disk = last at ended
  cases ended with
  | noFolders fault _ failed =>
    exact .failed _ _ ((changesNone_of_makeFolders failed).mono (List.nil_subset _))
  | notWritten _ fault made failed =>
    exact .failed _ _ ((changesNone_of_makeFolders made).mono (List.nil_subset _))
  | notMoved d _ fault made written failed =>
    exact .failed _ _ (changesAt_of_writeTemporary made written)
  | moved d d' _ made written moved =>
    have both : [s.temporary] ⊆ [s.temporary, s.target] := by simp
    have first := (changesAt_of_writeTemporary made written).mono both
    exact .saved _ (first.trans (Disk.changesAt_of_rename moved))

/-- What an edit carried out on a store in a file changes by its outcome. -/
inductive Edited (s : FileStore) : Except AuthoringFault Answer × FileStore → Prop where
  /-- It is refused before anything is saved. -/
  | refused (fault : AuthoringFault) : Edited s (.error fault, s)
  /-- Its save fails. -/
  | unsaved (cause : StoreCause) (s' : FileStore)
      (changes : s.disk.ChangesAt [s.temporary] s'.disk) :
      Edited s (.error (.store (.unwritable s.path cause)), s')
  | saved (answer : Answer) (s' : FileStore)
      (changes : s.disk.ChangesAt [s.temporary, s.target] s'.disk) : Edited s (.ok answer, s')

theorem edited_run (request : Request) (fresh : String) (s : FileStore) :
    s.Edited (request.run fresh s) := by
  unfold Request.run
  split
  · exact .refused _
  split
  · exact .refused _
  split
  · exact .refused _
  rename_i answer records planned
  split
  · rename_i fault s' failed
    cases changed_of_save failed with
    | failed cause _ changes => exact .unsaved cause s' changes
  · rename_i s' saved
    cases changed_of_save saved with
    | saved _ changes => exact .saved answer s' changes

end FileStore

end InlineMarkup
