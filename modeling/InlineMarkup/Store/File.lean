import InlineMarkup.Store
import InlineMarkup.Text.Blank

/-!
# Stores in files

A collection kept in a file as JSON. A file that is missing or blank holds the empty collection.
A save writes a temporary file beside the file and then moves it over the file, in three steps
that are also given one by one: making the folders around, writing, and moving.
-/

namespace InlineMarkup

/-- A file on a disk that holds a collection. -/
structure FileStore where
  path : String
  disk : Disk

namespace FileStore

/-- Where the file is. -/
def target (s : FileStore) : Path := .ofString s.path

/-- Where the temporary file of a save is. -/
def temporary (s : FileStore) : Path := s.target.sibling ".tmp"

/-- The collection that the text of a file holds. -/
def decode (text : String) : Except Json.Fault Collection :=
  if Text.isBlankText text then .ok .empty else Json.decodeCollection text

/-- The collection in the file. -/
def load (s : FileStore) : Except StoreFault Collection :=
  if s.disk.isPresent s.target then
    match s.disk.readText s.target with
    | .error fault => .error (.unreadable s.path (.disk fault))
    | .ok text => (decode text).mapError (.undecodable s.path)
  else .ok .empty

/-- The first step of a save: the folders around the file. -/
def makeFolders (s : FileStore) : Except Disk.Fault Unit × Disk :=
  match s.target.parent? with
  | some folder => if folder.isEmpty then (.ok (), s.disk) else s.disk.makeFolders folder
  | none => (.ok (), s.disk)

/-- The second step of a save: the temporary file. -/
def writeTemporary (s : FileStore) (records : Collection) : Except Disk.Fault Disk :=
  s.disk.write s.temporary (Utf8.encode (Json.encodeCollection records))

/-- The last step of a save: the temporary file takes the place of the file. -/
def publish (s : FileStore) : Except Disk.Fault Disk :=
  s.disk.rename s.temporary s.target

/-- Saves a collection. A fault ends the save after the steps that were done. -/
def save (records : Collection) (s : FileStore) : Except StoreFault Unit × FileStore :=
  let failed (fault : Disk.Fault) (s : FileStore) : Except StoreFault Unit × FileStore :=
    (.error (.unwritable s.path (.disk fault)), s)
  match s.makeFolders with
  | (.error fault, disk) => failed fault { s with disk }
  | (.ok (), disk) =>
    let s := { s with disk }
    match s.writeTemporary records with
    | .error fault => failed fault s
    | .ok disk =>
      let s := { s with disk }
      match s.publish with
      | .error fault => failed fault s
      | .ok disk => (.ok (), { s with disk })

instance : Store FileStore where
  load := load
  save := save

end FileStore

end InlineMarkup
