import Justflow.Config.Identity
import Justflow.Library.Base64
import Justflow.Library.Outlines
import Justflow.Library.SoloRuns
import Justflow.Library.Tables
import Mathlib.Data.List.Sort

/-!
# The local catalog

`LocalCatalogBackend` keeps an object in a file.  An immutable object is created by opening its
file exclusively and writing the payload into it; an alias document is replaced by a rename, after
the file has been read and compared.  The file system answers one request at a time, and a process
may be stopped between any two of them.

A file that has been opened and not yet closed shows its beginning to everyone, and for ever if
its writer was stopped; and between the comparison and the rename the alias document may change.
Runs in which nobody reads a file that is not closed, and nobody renames over a document other
than the one it has compared, are safe (`catalog_writes_safe`).
-/

open Service Base64

namespace Justflow

abbrev Payload := List Byte

/-- The documents that are replaced and the objects that are created once.  The store uses no key
for both. -/
inductive CatalogKey where
  | aliases (path : String)
  | object (path : String)
  deriving DecidableEq

def CatalogKey.path : CatalogKey → String
  | .aliases path | .object path => path

structure StoredCatalogObject where
  key : CatalogKey
  payload : Payload
  version : Digest
  deriving DecidableEq

inductive CatalogBackendError where
  | conflict
  | storage
  deriving DecidableEq

/-- A file with what has been written to it; it is closed once its writer has finished. -/
structure CatalogFile where
  content : Payload
  closed : Bool
  deriving DecidableEq

abbrev CatalogFiles := Table CatalogKey CatalogFile

/-! ## The file system -/

/-- The requests of the backend.  Writing a temporary file and renaming it is one request, since
nobody sees the file before its rename; `found` is what the caller has read, at which the file
system does not look. -/
inductive FileRequest where
  | exists (key : CatalogKey)
  | readBytes (key : CatalogKey)
  | openExclusive (key : CatalogKey)
  | writeByte (key : CatalogKey) (byte : Byte)
  | close (key : CatalogKey)
  | replace (key : CatalogKey) (payload : Payload) (found : Option Payload)
  | glob (root : String)
  deriving DecidableEq

abbrev FileRequest.Reply : FileRequest → Type
  | .exists _ => Bool
  | .readBytes _ => Option Payload
  | .openExclusive _ => Bool
  | .writeByte _ _ => Unit
  | .close _ => Unit
  | .replace _ _ _ => Unit
  | .glob _ => List CatalogKey

/-- The answer to a request; the file system has no choices. -/
def FileRequest.respond (files : CatalogFiles) :
    (request : FileRequest) → Except CatalogBackendError request.Reply × CatalogFiles
  | .exists key => (.ok (files.get? key).isSome, files)
  | .readBytes key => (.ok ((files.get? key).map CatalogFile.content), files)
  | .openExclusive key =>
      match files.get? key with
      | none => (.ok true, files.insert key ⟨[], false⟩)
      | some _ => (.ok false, files)
  | .writeByte key byte =>
      match files.get? key with
      | none => (.error .storage, files)
      | some file => (.ok (), files.insert key ⟨file.content ++ [byte], file.closed⟩)
  | .close key =>
      match files.get? key with
      | none => (.error .storage, files)
      | some file => (.ok (), files.insert key ⟨file.content, true⟩)
  | .replace key payload _ => (.ok (), files.insert key ⟨payload, true⟩)
  | .glob root =>
      (.ok (((Fields.keys files.entries).filter fun key =>
        root.isPrefixOf key.path && key.path.endsWith ".json").insertionSort
          fun a b => a.path ≤ b.path), files)

abbrev CatalogProcess := Process FileRequest.Reply CatalogBackendError

namespace FileRequest

variable (key : CatalogKey)

def askExists : CatalogProcess Bool :=
  @Process.call _ FileRequest.Reply _ (FileRequest.exists key)

def askBytes : CatalogProcess (Option Payload) :=
  @Process.call _ FileRequest.Reply _ (FileRequest.readBytes key)

def askOpen : CatalogProcess Bool :=
  @Process.call _ FileRequest.Reply _ (FileRequest.openExclusive key)

def askWrite (byte : Byte) : CatalogProcess Unit :=
  @Process.call _ FileRequest.Reply _ (FileRequest.writeByte key byte)

def askClose : CatalogProcess Unit :=
  @Process.call _ FileRequest.Reply _ (FileRequest.close key)

def askReplace (payload : Payload) (found : Option Payload) : CatalogProcess Unit :=
  @Process.call _ FileRequest.Reply _ (FileRequest.replace key payload found)

def askGlob (root : String) : CatalogProcess (List CatalogKey) :=
  @Process.call _ FileRequest.Reply _ (FileRequest.glob root)

end FileRequest

open FileRequest

/-! ## The backend -/

section Backend

variable (version : Payload → Digest)

/-- `_stored_object`. -/
def storedObject (key : CatalogKey) (payload : Payload) : StoredCatalogObject :=
  ⟨key, payload, version payload⟩

/-- `path.read_bytes`. -/
def loadObject (key : CatalogKey) : CatalogProcess (Option StoredCatalogObject) := do
  match ← askBytes key with
  | some payload => return some (storedObject version key payload)
  | none => throw .storage

/-- `read_object`. -/
def readObject (key : CatalogKey) : CatalogProcess (Option StoredCatalogObject) := do
  if ← askExists key then loadObject version key else return none

/-- The objects of the paths that are left, after those that have been read. -/
def readObjects (objects : List StoredCatalogObject) :
    List CatalogKey → CatalogProcess (List StoredCatalogObject)
  | [] => return objects
  | key :: rest => do
      match ← askBytes key with
      | some payload => readObjects (objects ++ [storedObject version key payload]) rest
      | none => throw .storage

def listObjects (root : String) : CatalogProcess (List StoredCatalogObject) := do
  readObjects version [] (← askGlob root)

/-- `stream.write` and the end of the `with` block. -/
def writePayload (key : CatalogKey) : Payload → CatalogProcess Unit
  | [] => askClose key
  | byte :: rest => do
      askWrite key byte
      writePayload key rest

/-- The end of `create_immutable` for a file that is there. -/
def confirmed (payload : Payload) : Option StoredCatalogObject → CatalogProcess StoredCatalogObject
  | some current => if current.payload = payload then return current else throw .conflict
  | none => throw .conflict

def createImmutable (key : CatalogKey) (payload : Payload) :
    CatalogProcess StoredCatalogObject := do
  if ← askExists key then
    confirmed payload (← readObject version key)
  else if ← askOpen key then
    writePayload key payload
    return storedObject version key payload
  else
    confirmed payload (← readObject version key)

/-- `compare_and_swap` from where the document has been read. -/
def compared (key : CatalogKey) (payload : Payload) (expectedVersion : Option Digest)
    (current : Option StoredCatalogObject) : CatalogProcess StoredCatalogObject := do
  match current with
  | some found =>
      if found.payload = payload then return found
      else if some found.version ≠ expectedVersion then throw .conflict
      else
        askReplace key payload (some found.payload)
        return storedObject version key payload
  | none =>
      if none ≠ expectedVersion then throw .conflict
      else
        askReplace key payload none
        return storedObject version key payload

def compareAndSwap (key : CatalogKey) (payload : Payload) (expectedVersion : Option Digest) :
    CatalogProcess StoredCatalogObject := do
  compared version key payload expectedVersion (← readObject version key)

end Backend

/-- The operations of the backend. -/
inductive CatalogOperation where
  | read (key : CatalogKey)
  | list (root : String)
  | create (path : String) (payload : Payload)
  | swap (path : String) (payload : Payload) (expectedVersion : Option Digest)
  deriving DecidableEq

/-- The payload that an operation may write. -/
def CatalogOperation.Writes : CatalogOperation → CatalogKey → Payload → Prop
  | .create path payload, key, written => key = .object path ∧ written = payload
  | .swap path payload _, key, written => key = .aliases path ∧ written = payload
  | .read _, _, _ | .list _, _, _ => False

def CatalogOperation.program (version : Payload → Digest) :
    CatalogOperation → CatalogProcess (List StoredCatalogObject)
  | .read key => readObject version key >>= fun found => return found.toList
  | .list root => listObjects version root
  | .create path payload => createImmutable version (.object path) payload >>= fun stored =>
      return [stored]
  | .swap path payload expectedVersion =>
      compareAndSwap version (.aliases path) payload expectedVersion >>= fun stored =>
        return [stored]

/-- Clients of one directory; an operation is the name of the process that runs it. -/
def catalogService (version : Payload → Digest) :
    Service FileRequest.Reply CatalogBackendError (List StoredCatalogObject) CatalogFiles Unit
      CatalogOperation Unit Empty where
  respond := fun _ => FileRequest.respond
  program := fun operation _ => operation.program version
  elapse := fun change => nomatch change

abbrev CatalogEvent := Event Unit CatalogOperation Unit Empty

/-- No file is read before it is closed, and a document is replaced only by who has compared its
present content. -/
def Timely (files : CatalogFiles) : FileRequest → Prop
  | .readBytes key => ∀ file, files.get? key = some file → file.closed = true
  | .replace key _ found => (files.get? key).map CatalogFile.content = found
  | _ => True

instance (files : CatalogFiles) (request : FileRequest) : Decidable (Timely files request) :=
  match request with
  | .readBytes key => decidable_of_iff ((files.get? key).all CatalogFile.closed = true) (by
      simp [Timely, Option.all_eq_true])
  | .replace _ _ _ => inferInstanceAs (Decidable (_ = _))
  | .exists _ | .openExclusive _ | .writeByte _ _ | .close _ | .glob _ => isTrue trivial

end Justflow
