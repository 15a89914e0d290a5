import Justflow.Definitions.Catalog
import Justflow.Definitions.LocalCatalog
import Justflow.Library.Moments
import Justflow.Library.Sweeps

/-!
# The catalog in a bucket

`S3CatalogBackend` keeps an object of the catalog under a key of a bucket.  The store answers one
request at a time.  An object is created by a put that fails if the key is taken, and the alias
document is replaced by a put that fails if its entity tag has changed; a put can reach the store
without being answered, and the client of the store may then send it again.

What an operation answers is what the bucket held while it ran, whatever the others did meanwhile,
and nothing is overwritten that its writer has not seen.
-/

open Service Base64 Sweeps

namespace Justflow

namespace S3Catalog

/-- An object of the bucket with its entity tag. -/
structure S3Object where
  body : Payload
  etag : String
  deriving DecidableEq

abbrev Bucket := Table String S3Object

/-- `StoredCatalogObject`, whose version is the entity tag. -/
structure StoredObject where
  key : String
  payload : Payload
  version : String
  deriving DecidableEq

/-! ## The store -/

/-- `_aws_error_code`: what the error of a request says, if anything. -/
abbrev ErrorCode := Option String

def conditionalWriteErrorCodes : List String :=
  ["409", "412", "ConditionalRequestConflict", "PreconditionFailed"]

def notFoundErrorCodes : List String := ["404", "NoSuchKey", "NotFound"]

inductive WriteCondition where
  | ifNoneMatch
  | ifMatch (etag : String)

def WriteCondition.admits : WriteCondition → Option S3Object → Bool
  | .ifNoneMatch, current => current.isNone
  | .ifMatch etag, current => current.map S3Object.etag = some etag

/-- The error of a put whose condition does not hold. -/
def WriteCondition.failure : WriteCondition → Option S3Object → ErrorCode
  | .ifMatch _, none => some "NoSuchKey"
  | _, _ => some "PreconditionFailed"

structure ListedPage where
  contents : List String
  isTruncated : Bool
  nextContinuationToken : Option String

inductive S3Request where
  | getObject (key : String)
  | listObjects (objectPrefix : String) (continuationToken : Option String)
  | putObject (key : String) (body : Payload) (condition : WriteCondition)

/-- A put that nobody has answered has no reply. -/
abbrev S3Request.Reply : S3Request → Type
  | .getObject _ => Except ErrorCode S3Object
  | .listObjects _ _ => Except ErrorCode ListedPage
  | .putObject _ _ _ => Option (Except ErrorCode Unit)

/-- How a request fares. -/
inductive Fate where
  | answered
  | conflicting
  | failed (code : ErrorCode) (reached : Bool)
  | unanswered (reached : Bool)

/-- What the store does not let one foresee. -/
structure S3Choice where
  fate : Fate
  etag : String
  pageSize : Nat

/-- The error of a read.  What is there is not reported absent. -/
def Fate.readError : Fate → Option ErrorCode
  | .answered | .conflicting => none
  | .failed (some code) _ => if code ∈ notFoundErrorCodes then none else some (some code)
  | .failed none _ | .unanswered _ => some none

/-- The keys of a listing that come behind a token, in order. -/
def listing (bucket : Bucket) (objectPrefix : String) (token : Option String) : List String :=
  ((Fields.keys bucket.entries).filter fun key =>
    objectPrefix.toList.isPrefixOf key.toList && token.all fun last => last < key).insertionSort
      (· ≤ ·)

def listedPage (bucket : Bucket) (objectPrefix : String) (token : Option String)
    (pageSize : Nat) : ListedPage where
  contents := (listing bucket objectPrefix token).take (pageSize + 1)
  isTruncated := pageSize + 1 < (listing bucket objectPrefix token).length
  nextContinuationToken := ((listing bucket objectPrefix token).take (pageSize + 1)).getLast?

/-- The bucket after a put that has reached it. -/
def putting (choice : S3Choice) (bucket : Bucket) (key : String) (body : Payload)
    (condition : WriteCondition) : Bucket :=
  if condition.admits (bucket.get? key) then bucket.insert key ⟨body, choice.etag⟩ else bucket

def S3Request.respond (choice : S3Choice) (bucket : Bucket) :
    (request : S3Request) → Except CatalogError request.Reply × Bucket
  | .getObject key =>
      match choice.fate.readError with
      | some code => (.ok (.error code), bucket)
      | none =>
          match bucket.get? key with
          | some object => (.ok (.ok object), bucket)
          | none => (.ok (.error (some "NoSuchKey")), bucket)
  | .listObjects objectPrefix token =>
      match choice.fate.readError with
      | some code => (.ok (.error code), bucket)
      | none => (.ok (.ok (listedPage bucket objectPrefix token choice.pageSize)), bucket)
  | .putObject key body condition =>
      match choice.fate with
      | .answered =>
          if condition.admits (bucket.get? key) then
            (.ok (some (.ok ())), putting choice bucket key body condition)
          else (.ok (some (.error (condition.failure (bucket.get? key)))), bucket)
      | .conflicting => (.ok (some (.error (some "ConditionalRequestConflict"))), bucket)
      | .failed code reached =>
          (.ok (some (.error code)),
            if reached then putting choice bucket key body condition else bucket)
      | .unanswered reached =>
          (.ok none, if reached then putting choice bucket key body condition else bucket)

abbrev S3Process := Process S3Request.Reply CatalogError

def askGet (key : String) : S3Process (Except ErrorCode S3Object) :=
  @Process.call _ S3Request.Reply _ (S3Request.getObject key)

def askList (objectPrefix : String) (token : Option String) :
    S3Process (Except ErrorCode ListedPage) :=
  @Process.call _ S3Request.Reply _ (S3Request.listObjects objectPrefix token)

def askPut (key : String) (body : Payload) (condition : WriteCondition) :
    S3Process (Option (Except ErrorCode Unit)) :=
  @Process.call _ S3Request.Reply _ (S3Request.putObject key body condition)

/-! ## The backend -/

def s3ObjectKeyMaxUtf8Bytes : Nat := 1024

def maxS3CatalogObjectBytes : Nat := 64 * 1024 * 1024

/-- The part of a key behind the prefix of the catalog. -/
def removePrefix (catalogPrefix key : String) : String :=
  if catalogPrefix.toList.isPrefixOf key.toList then
    String.ofList (key.toList.drop catalogPrefix.toList.length)
  else key

/-- A put, which the client of the store sends again while it is not answered. -/
def sendPut (key : String) (body : Payload) (condition : WriteCondition) :
    Nat → S3Process (Except ErrorCode Unit)
  | 0 => do
      match ← askPut key body condition with
      | some answer => return answer
      | none => return .error none
  | retries + 1 => do
      match ← askPut key body condition with
      | some answer => return answer
      | none => sendPut key body condition retries

/-- The prefix of the catalog, with the separator at its end, and how often the client of the
store sends a request again. -/
structure S3CatalogBackend where
  catalogPrefix : String
  retries : Nat

namespace S3CatalogBackend

variable (self : S3CatalogBackend)

/-- The test of `_object_key` on the key, without the separator at the end of a directory. -/
def invalidKey (key : List Char) : Bool :=
  key.isEmpty || key.head? == some '/' || key.contains '\\' || key.contains (Char.ofNat 0) ||
    (key.splitOn '/').any fun segment => segment ∈ [[], ['.'], ['.', '.']]

/-- `_object_key`; the separator at the end of a directory is put back. -/
def objectKey (key : String) (allowTrailingSeparator : Bool) : Except CatalogError String :=
  let normalized :=
    if allowTrailingSeparator && key.toList.getLast? == some '/' then key.toList.dropLast
    else key.toList
  if invalidKey normalized then
    .error (.storage s!"Invalid S3 catalog object key '{key}'")
  else if s3ObjectKeyMaxUtf8Bytes < (self.catalogPrefix ++ key).utf8ByteSize then
    .error (.storage s!"S3 catalog object key exceeds {s3ObjectKeyMaxUtf8Bytes} UTF-8 bytes")
  else .ok (self.catalogPrefix ++ key)

def readObject (key : String) : S3Process (Option StoredObject) := do
  let objectKey ← Process.lift (self.objectKey key false)
  match ← askGet objectKey with
  | .error code =>
      if code.any (· ∈ notFoundErrorCodes) then return none
      else throw (.storage s!"Cannot read S3 catalog object '{objectKey}'")
  | .ok object =>
      if maxS3CatalogObjectBytes < object.body.length then
        throw (.storage s!"Cannot read bounded S3 catalog object body '{objectKey}'")
      else if object.etag = "" then
        throw (.storage s!"S3 catalog object '{objectKey}' has no ETag")
      else return some ⟨key, object.body, object.etag⟩

/-- `_listed_keys`. -/
def listedKeys (objectPrefix : String) (page : ListedPage) : Except CatalogError (List String) :=
  if page.contents.all fun key => objectPrefix.toList.isPrefixOf key.toList then
    .ok (page.contents.map (removePrefix self.catalogPrefix))
  else .error (.storage s!"S3 catalog listing below '{objectPrefix}' has an invalid key")

/-- The loop of `list_objects` over the pages.  It does not end if it has more pages than
`rounds`. -/
def listKeys (objectPrefix : String) :
    Nat → Option String → List String → S3Process (Option (List String))
  | 0, _, _ => return none
  | rounds + 1, token, keys => do
      match ← askList objectPrefix token with
      | .error _ => throw (.storage s!"Cannot list S3 catalog objects below '{objectPrefix}'")
      | .ok page =>
          let listed ← Process.lift (self.listedKeys objectPrefix page)
          if page.isTruncated then
            if page.nextContinuationToken.getD "" = "" then
              throw (.storage
                s!"S3 catalog listing below '{objectPrefix}' omitted its continuation token")
            else listKeys objectPrefix rounds page.nextContinuationToken (keys ++ listed)
          else return some (keys ++ listed)

/-- The objects of the keys that are left, after those that have been read. -/
def readObjects (objects : List StoredObject) : List String → S3Process (List StoredObject)
  | [] => return objects
  | key :: rest => do
      match ← self.readObject key with
      | none => throw (.storage s!"S3 catalog object '{key}' disappeared while loading")
      | some stored => readObjects (objects ++ [stored]) rest

def listObjects (directory : String) (rounds : Nat) :
    S3Process (Option (List StoredObject)) := do
  let objectPrefix ← Process.lift (self.objectKey directory true)
  match ← self.listKeys objectPrefix rounds none [] with
  | none => return none
  | some keys =>
      let objects ← self.readObjects [] (keys.insertionSort (· ≤ ·))
      return some objects

/-- The end of `_conditional_write`. -/
def confirm (key objectKey : String) (payload : Payload) (answer : Except ErrorCode Unit) :
    S3Process StoredObject := do
  match answer with
  | .error code =>
      if code.any (· ∈ conditionalWriteErrorCodes) then
        match ← self.readObject key with
        | some current =>
            if current.payload = payload then return current
            else throw (.conflict s!"S3 catalog object '{objectKey}' changed concurrently")
        | none => throw (.conflict s!"S3 catalog object '{objectKey}' changed concurrently")
      else throw (.storage s!"Cannot write S3 catalog object '{objectKey}'")
  | .ok () =>
      match ← self.readObject key with
      | some stored =>
          if stored.payload = payload then return stored
          else throw (.storage
            s!"S3 catalog object '{objectKey}' could not be verified after writing")
      | none => throw (.storage
          s!"S3 catalog object '{objectKey}' could not be verified after writing")

def conditionalWrite (key : String) (payload : Payload) (condition : WriteCondition) :
    S3Process StoredObject := do
  let objectKey ← Process.lift (self.objectKey key false)
  let answer ← sendPut objectKey payload condition self.retries
  self.confirm key objectKey payload answer

def createImmutable (key : String) (payload : Payload) : S3Process StoredObject :=
  self.conditionalWrite key payload .ifNoneMatch

def expectedCondition : Option String → WriteCondition
  | none => .ifNoneMatch
  | some version => .ifMatch version

def compareAndSwap (key : String) (payload : Payload) (expectedVersion : Option String) :
    S3Process StoredObject := do
  let current ← self.readObject key
  match current.filter fun found => found.payload = payload with
  | some found => return found
  | none => self.conditionalWrite key payload (expectedCondition expectedVersion)

end S3CatalogBackend

/-- The operations of the backend. -/
inductive S3Operation where
  | read (key : String)
  | list (directory : String) (rounds : Nat)
  | create (key : String) (payload : Payload)
  | swap (key : String) (payload : Payload) (expectedVersion : Option String)
  deriving DecidableEq

/-- An operation answers with objects, unless it is a listing that does not end. -/
def S3Operation.program (backend : S3CatalogBackend) :
    S3Operation → S3Process (Option (List StoredObject))
  | .read key => do
      let found ← backend.readObject key
      return some found.toList
  | .list directory rounds => backend.listObjects directory rounds
  | .create key payload => do
      let stored ← backend.createImmutable key payload
      return some [stored]
  | .swap key payload expectedVersion => do
      let stored ← backend.compareAndSwap key payload expectedVersion
      return some [stored]

/-- Clients of one catalog that start the operations of a kind; an operation is the name of the
process that runs it. -/
def s3Service (backend : S3CatalogBackend) (Started : S3Operation → Prop) :
    Service S3Request.Reply CatalogError (Option (List StoredObject)) Bucket S3Choice
      { operation : S3Operation // Started operation } Unit Empty where
  respond := S3Request.respond
  program := fun operation _ => operation.1.program backend
  elapse := fun change => change.elim

end S3Catalog

end Justflow
