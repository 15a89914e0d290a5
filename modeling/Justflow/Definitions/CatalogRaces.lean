import Justflow.Definitions.LocalCatalog

/-!
# Catalog writes

The phases of the operations on a catalog directory, what is known in each of them, and that no
operation spoils what another one knows as long as the run is timely.
-/

open Service Base64

namespace Justflow

open FileRequest

variable (version : Payload → Digest)

/-! ## Phases -/

/-- What a process does with an object that it reads. -/
inductive Purpose where
  | read (key : CatalogKey)
  | confirm (path : String) (payload : Payload)
  | swap (path : String) (payload : Payload) (expectedVersion : Option Digest)

namespace Purpose

def key : Purpose → CatalogKey
  | .read key => key
  | .confirm path _ => .object path
  | .swap path _ _ => .aliases path

def operation : Purpose → CatalogOperation
  | .read key => .read key
  | .confirm path payload => .create path payload
  | .swap path payload expectedVersion => .swap path payload expectedVersion

/-- The rest of the operation after an object has been read. -/
def wrap : Purpose → CatalogProcess (Option StoredCatalogObject) →
    CatalogProcess (List StoredCatalogObject)
  | .read _, reading => reading >>= fun found => return found.toList
  | .confirm _ payload, reading =>
      (reading >>= confirmed payload) >>= fun stored => return [stored]
  | .swap path payload expectedVersion, reading =>
      (reading >>= compared version (.aliases path) payload expectedVersion) >>= fun stored =>
        return [stored]

end Purpose

/-- Where a process stands in its operation. -/
inductive Phase where
  | asking (purpose : Purpose)
  | loading (purpose : Purpose)
  | creating (path : String) (payload : Payload)
  | opening (path : String) (payload : Payload)
  | writing (path : String) (written rest : Payload)
  | replacing (path : String) (payload : Payload) (expectedVersion : Option Digest)
      (found : Option Payload)
  | globbing (root : String)
  | listing (root : String) (objects : List StoredCatalogObject) (next : CatalogKey)
      (rest : List CatalogKey)
  | ended (operation : CatalogOperation)
      (result : Except CatalogBackendError (List StoredCatalogObject))

/-- The objects that have been listed, or the next one to read. -/
def Phase.listed (root : String) (objects : List StoredCatalogObject) : List CatalogKey → Phase
  | [] => .ended (.list root) (.ok objects)
  | next :: rest => .listing root objects next rest

/-- What follows after an object has been read. -/
def Purpose.resolve (found : Option StoredCatalogObject) : Purpose → Phase
  | .read key => .ended (.read key) (.ok found.toList)
  | .confirm path payload =>
      match found with
      | some current =>
          if current.payload = payload then .ended (.create path payload) (.ok [current])
          else .ended (.create path payload) (.error .conflict)
      | none => .ended (.create path payload) (.error .conflict)
  | .swap path payload expectedVersion =>
      match found with
      | some current =>
          if current.payload = payload then
            .ended (.swap path payload expectedVersion) (.ok [current])
          else if some current.version ≠ expectedVersion then
            .ended (.swap path payload expectedVersion) (.error .conflict)
          else .replacing path payload expectedVersion (some current.payload)
      | none =>
          if none ≠ expectedVersion then
            .ended (.swap path payload expectedVersion) (.error .conflict)
          else .replacing path payload expectedVersion none

namespace Phase

def operation : Phase → CatalogOperation
  | .asking purpose | .loading purpose => purpose.operation
  | .creating path payload | .opening path payload => .create path payload
  | .writing path written rest => .create path (written ++ rest)
  | .replacing path payload expectedVersion _ => .swap path payload expectedVersion
  | .globbing root | .listing root _ _ _ => .list root
  | .ended operation _ => operation

/-- The process that stands in a phase. -/
def process : Phase → CatalogProcess (List StoredCatalogObject)
  | .asking purpose => purpose.wrap version (readObject version purpose.key)
  | .loading purpose => purpose.wrap version (loadObject version purpose.key)
  | .creating path payload =>
      createImmutable version (.object path) payload >>= fun stored => return [stored]
  | .opening path payload =>
      (do
        if ← askOpen (.object path) then
          writePayload (.object path) payload
          return storedObject version (.object path) payload
        else
          confirmed payload (← readObject version (.object path))) >>= fun stored =>
        return [stored]
  | .writing path written rest =>
      (do
        writePayload (.object path) rest
        return storedObject version (.object path) (written ++ rest)) >>= fun stored =>
        return [stored]
  | .replacing path payload _ found =>
      (do
        askReplace (.aliases path) payload found
        return storedObject version (.aliases path) payload) >>= fun stored => return [stored]
  | .globbing root => listObjects version root
  | .listing _ objects next rest => readObjects version objects (next :: rest)
  | .ended _ (.ok objects) => .done objects
  | .ended _ (.error error) => .fail error

/-- The request that a phase makes. -/
def request : Phase → Option FileRequest
  | .asking purpose => some (.exists purpose.key)
  | .loading purpose => some (.readBytes purpose.key)
  | .creating path _ => some (.exists (.object path))
  | .opening path _ => some (.openExclusive (.object path))
  | .writing path _ (byte :: _) => some (.writeByte (.object path) byte)
  | .writing path _ [] => some (.close (.object path))
  | .replacing path payload _ found => some (.replace (.aliases path) payload found)
  | .globbing root => some (.glob root)
  | .listing _ _ next _ => some (.readBytes next)
  | .ended _ _ => none

/-- The phase after the request has been served. -/
def next (files : CatalogFiles) (self : Phase) : Phase :=
  match self with
  | .asking purpose =>
      if (files.get? purpose.key).isSome then .loading purpose else purpose.resolve none
  | .loading purpose =>
      match files.get? purpose.key with
      | some file => purpose.resolve (some (storedObject version purpose.key file.content))
      | none => .ended purpose.operation (.error .storage)
  | .creating path payload =>
      if (files.get? (.object path)).isSome then .asking (.confirm path payload)
      else .opening path payload
  | .opening path payload =>
      if (files.get? (.object path)).isSome then .asking (.confirm path payload)
      else .writing path [] payload
  | .writing path written (byte :: rest) =>
      if (files.get? (.object path)).isSome then .writing path (written ++ [byte]) rest
      else .ended (.create path (written ++ byte :: rest)) (.error .storage)
  | .writing path written [] =>
      if (files.get? (.object path)).isSome then
        .ended (.create path written) (.ok [storedObject version (.object path) written])
      else .ended (.create path written) (.error .storage)
  | .replacing path payload expectedVersion _ =>
      .ended (.swap path payload expectedVersion)
        (.ok [storedObject version (.aliases path) payload])
  | .globbing root =>
      match (FileRequest.respond files (.glob root)).1 with
      | .ok keys => listed root [] keys
      | .error error => .ended (.list root) (.error error)
  | .listing root objects next rest =>
      match files.get? next with
      | some file => listed root (objects ++ [storedObject version next file.content]) rest
      | none => .ended (.list root) (.error .storage)
  | .ended operation result => .ended operation result

variable {version}

theorem process_listed (root : String) (objects : List StoredCatalogObject)
    (keys : List CatalogKey) :
    (listed root objects keys).process version = readObjects version objects keys := by
  cases keys <;> rfl

theorem process_resolve (purpose : Purpose) (found : Option StoredCatalogObject) :
    (purpose.resolve found).process version = purpose.wrap version (.done found) := by
  cases purpose with
  | read key => rfl
  | confirm path payload =>
      cases found with
      | none => rfl
      | some current =>
          simp only [Purpose.resolve, Purpose.wrap, Process.done_bind, confirmed]
          split <;> rfl
  | swap path payload expectedVersion =>
      cases found with
      | none =>
          simp only [Purpose.resolve, Purpose.wrap, Process.done_bind, compared]
          split <;> rfl
      | some current =>
          simp only [Purpose.resolve, Purpose.wrap, Process.done_bind, compared]
          split
          · rfl
          · split <;> rfl

theorem wrap_fail (purpose : Purpose) (error : CatalogBackendError) :
    purpose.wrap version (.fail error) = .fail error := by
  cases purpose <;> rfl

/-- What a process does with the reply to one request. -/
def resumed {α : Type} {request : FileRequest} (next : request.Reply → CatalogProcess α) :
    Except CatalogBackendError request.Reply → CatalogProcess α
  | .ok reply => next reply
  | .error error => .fail error

theorem process_asking (purpose : Purpose) : (Phase.asking purpose).process version =
    .ask (.exists purpose.key) fun answer => purpose.wrap version
      (@resumed _ (.exists purpose.key) (fun found =>
        if found = true then loadObject version purpose.key else .done none) answer) := by
  cases purpose <;>
    · refine congrArg (Process.ask _) (funext fun answer => ?_)
      cases answer <;> rfl

theorem process_loading (purpose : Purpose) : (Phase.loading purpose).process version =
    .ask (.readBytes purpose.key) fun answer => purpose.wrap version
      (@resumed _ (.readBytes purpose.key) (fun found =>
        match found with
        | some payload => .done (some (storedObject version purpose.key payload))
        | none => .fail .storage) answer) := by
  cases purpose <;>
    · refine congrArg (Process.ask _) (funext fun answer => ?_)
      rcases answer with error | (_ | payload) <;> rfl

/-- A process that waits in a phase waits with its request, and goes on in the next phase. -/
theorem process_ask {phase : Phase} {request : FileRequest}
    {resume : Except CatalogBackendError request.Reply →
      CatalogProcess (List StoredCatalogObject)}
    (waits : phase.process version = .ask request resume) (files : CatalogFiles) :
    phase.request = some request ∧
      resume (FileRequest.respond files request).1 =
        (phase.next version files).process version := by
  cases phase with
  | asking purpose =>
      rw [process_asking] at waits
      cases waits
      refine ⟨rfl, ?_⟩
      simp only [FileRequest.respond, resumed, next]
      split
      · rfl
      · exact (process_resolve purpose none).symm
  | loading purpose =>
      rw [process_loading] at waits
      cases waits
      refine ⟨rfl, ?_⟩
      simp only [FileRequest.respond, resumed, next]
      cases files.get? purpose.key with
      | none => exact wrap_fail purpose .storage
      | some file => exact (process_resolve purpose _).symm
  | creating path payload =>
      cases waits
      refine ⟨rfl, ?_⟩
      cases found : files.get? (.object path) <;> simp [FileRequest.respond, next, found] <;> rfl
  | opening path payload =>
      cases waits
      refine ⟨rfl, ?_⟩
      cases found : files.get? (.object path) <;> simp [FileRequest.respond, next, found] <;> rfl
  | writing path written rest =>
      cases rest with
      | nil =>
          cases waits
          refine ⟨rfl, ?_⟩
          cases found : files.get? (.object path) <;>
            simp [FileRequest.respond, next, found] <;> rfl
      | cons byte rest =>
          have whole : written ++ byte :: rest = (written ++ [byte]) ++ rest := by simp
          cases waits
          refine ⟨rfl, ?_⟩
          cases found : files.get? (.object path) with
          | none =>
              simp [FileRequest.respond, next, found]
              rfl
          | some file =>
              simp only [FileRequest.respond, next, found, Option.isSome_some, if_true, whole]
              rfl
  | replacing path payload expectedVersion found =>
      cases waits
      exact ⟨rfl, rfl⟩
  | globbing root =>
      cases waits
      exact ⟨rfl, (process_listed root [] _).symm⟩
  | listing root objects upcoming rest =>
      cases waits
      refine ⟨rfl, ?_⟩
      cases found : files.get? upcoming with
      | none =>
          simp [FileRequest.respond, next, found]
          rfl
      | some file =>
          simp only [FileRequest.respond, next, found]
          exact (process_listed root _ rest).symm
  | ended operation result => cases result <;> cases waits

theorem operation_resolve (purpose : Purpose) (found : Option StoredCatalogObject) :
    (purpose.resolve found).operation = purpose.operation := by
  cases purpose with
  | read key => rfl
  | confirm path payload =>
      cases found with
      | none => rfl
      | some current =>
          simp only [Purpose.resolve]
          split <;> rfl
  | swap path payload expectedVersion =>
      cases found with
      | none =>
          simp only [Purpose.resolve]
          split <;> rfl
      | some current =>
          simp only [Purpose.resolve]
          split
          · rfl
          · split <;> rfl

theorem operation_listed (root : String) (objects : List StoredCatalogObject)
    (keys : List CatalogKey) : (listed root objects keys).operation = .list root := by
  cases keys <;> rfl

theorem operation_next (phase : Phase) (files : CatalogFiles) :
    (phase.next version files).operation = phase.operation := by
  cases phase with
  | asking purpose =>
      simp only [next]
      split
      · rfl
      · exact operation_resolve purpose none
  | loading purpose =>
      simp only [next]
      split
      · exact operation_resolve purpose _
      · rfl
  | creating path payload | opening path payload =>
      simp only [next]
      split <;> rfl
  | writing path written rest =>
      cases rest with
      | nil =>
          simp only [next]
          split <;> simp [operation]
      | cons byte rest =>
          simp only [next]
          split <;> simp [operation]
  | replacing path payload expectedVersion found => rfl
  | globbing root => exact operation_listed root [] _
  | listing root objects upcoming rest =>
      simp only [next]
      split
      · exact operation_listed root _ rest
      · rfl
  | ended operation result => rfl

end Phase

/-! ## What is known in a phase -/

section Knowledge

variable (Started : CatalogOperation → Prop) (Written : CatalogKey → Payload → Prop)

/-- An object with a payload that was written in full. -/
def Whole (object : StoredCatalogObject) : Prop :=
  Written object.key object.payload ∧ object.version = version object.payload

/-- All operations that replace a document expect one version of it, and none keeps it. -/
def Rivals (path : String) (expected : Option Digest) : Prop :=
  ∀ payload expectedVersion, Started (.swap path payload expectedVersion) →
    expectedVersion = expected ∧ some (version payload) ≠ expected

/-- What is true once an operation has ended. -/
def Outcome (files : CatalogFiles) :
    CatalogOperation → Except CatalogBackendError (List StoredCatalogObject) → Prop
  | .read key, .ok objects => ∀ object ∈ objects, object.key = key ∧ Whole version Written object
  | .list _, .ok objects => ∀ object ∈ objects, Whole version Written object
  | .create path payload, .ok objects => objects = [storedObject version (.object path) payload] ∧
      files.get? (.object path) = some ⟨payload, true⟩
  | .create path payload, .error error => error = .conflict ∧ ∃ other, other ≠ payload ∧
      files.get? (.object path) = some ⟨other, true⟩
  | .swap path payload _, .ok objects => objects = [storedObject version (.aliases path) payload] ∧
      ∀ expected, Rivals version Started path expected →
        files.get? (.aliases path) = some ⟨payload, true⟩
  | .read _, .error _ | .list _, .error _ | .swap _ _ _, .error _ => True

/-- Whoever reads a closed file finds a payload that was written in full. -/
def Sealed (files : CatalogFiles) : Prop :=
  ∀ key file, files.get? key = some file → file.closed = true → Written key file.content

def Phase.Known (files : CatalogFiles) : Phase → Prop
  | .asking (.confirm path _) => (files.get? (.object path)).isSome = true
  | .asking _ | .creating _ _ | .opening _ _ | .globbing _ => True
  | .loading purpose => (files.get? purpose.key).isSome = true
  | .writing path written _ => files.get? (.object path) = some ⟨written, false⟩
  | .replacing _ _ expectedVersion found => found.map version = expectedVersion
  | .listing _ objects _ _ => ∀ object ∈ objects, Whole version Written object
  | .ended operation result => Outcome version Started Written files operation result

end Knowledge

section Steps

variable {version} {Started : CatalogOperation → Prop} {Written : CatalogKey → Payload → Prop}
  {files : CatalogFiles}

theorem isSome_insert {key other : CatalogKey} {file : CatalogFile}
    (h : (files.get? other).isSome = true) : ((files.insert key file).get? other).isSome = true := by
  rw [Table.get?_insert]
  split
  · rfl
  · exact h

/-- An object that has been read from a closed file is what its operation expects, or is not. -/
theorem Phase.Known.resolve {purpose : Purpose} {file : CatalogFile} (sealed_ : Sealed Written files)
    (found : files.get? purpose.key = some file) (closed : file.closed = true) :
    (purpose.resolve (some (storedObject version purpose.key file.content))).Known version Started
      Written files := by
  have written := sealed_ _ _ found closed
  obtain ⟨content, closed_⟩ := file
  obtain rfl : closed_ = true := closed
  cases purpose with
  | read key =>
      intro object member
      obtain rfl := List.mem_singleton.mp member
      exact ⟨rfl, written, rfl⟩
  | confirm path payload =>
      simp only [Purpose.resolve]
      split
      · next same =>
          obtain rfl : content = payload := same
          exact ⟨rfl, found⟩
      · next differ => exact ⟨rfl, content, differ, found⟩
  | swap path payload expectedVersion =>
      simp only [Purpose.resolve]
      split
      · next same =>
          obtain rfl : content = payload := same
          exact ⟨rfl, fun _ _ => found⟩
      · split
        · trivial
        · next expected => exact not_not.mp expected

theorem Phase.Known.listed {root : String} {objects : List StoredCatalogObject}
    (whole : ∀ object ∈ objects, Whole version Written object) (keys : List CatalogKey) :
    (Phase.listed root objects keys).Known version Started Written files := by
  cases keys with
  | nil => exact whole
  | cons key rest => exact whole

/-- The request of a phase leads to what is known in the next one. -/
theorem Phase.Known.next {phase : Phase} {request : FileRequest} (asks : phase.request = some request)
    (known : phase.Known version Started Written files) (sealed_ : Sealed Written files)
    (given : ∀ key payload, phase.operation.Writes key payload → Written key payload)
    (timely : Timely files request) :
    Sealed Written (FileRequest.respond files request).2 ∧
      (phase.next version files).Known version Started Written
        (FileRequest.respond files request).2 := by
  cases phase with
  | asking purpose =>
      cases asks
      refine ⟨sealed_, ?_⟩
      simp only [Phase.next, FileRequest.respond]
      by_cases found : (files.get? purpose.key).isSome = true
      · rw [if_pos found]
        exact found
      · rw [if_neg found]
        cases purpose with
        | read key => exact fun object member => absurd member List.not_mem_nil
        | confirm path payload => exact absurd known found
        | swap path payload expectedVersion =>
            simp only [Purpose.resolve]
            by_cases expected : none = expectedVersion
            · rw [if_neg (not_not.mpr expected)]
              exact expected
            · rw [if_pos expected]
              trivial
  | loading purpose =>
      cases asks
      refine ⟨sealed_, ?_⟩
      obtain ⟨file, found⟩ := Option.isSome_iff_exists.mp known
      simp only [Phase.next, FileRequest.respond, found]
      exact Phase.Known.resolve sealed_ found (timely file found)
  | creating path payload =>
      cases asks
      refine ⟨sealed_, ?_⟩
      simp only [Phase.next, FileRequest.respond]
      by_cases found : (files.get? (.object path)).isSome = true
      · rw [if_pos found]
        exact found
      · rw [if_neg found]
        trivial
  | opening path payload =>
      cases asks
      cases found : files.get? (.object path) with
      | some file =>
          simp only [Phase.next, FileRequest.respond, found, Option.isSome_some, if_true]
          exact ⟨sealed_, by simp [Phase.Known, found]⟩
      | none =>
          simp only [Phase.next, FileRequest.respond, found, Option.isSome_none,
            Bool.false_eq_true, if_false]
          refine ⟨fun key file hfile closed => ?_, Table.get?_insert_self _ _ _⟩
          rw [Table.get?_insert] at hfile
          split at hfile
          · cases hfile
            cases closed
          · exact sealed_ key file hfile closed
  | writing path written rest =>
      cases rest with
      | nil =>
          cases asks
          simp only [Phase.Known] at known
          simp only [Phase.next, FileRequest.respond, known, Option.isSome_some, if_true]
          refine ⟨fun key file hfile closed => ?_, rfl, Table.get?_insert_self _ _ _⟩
          rw [Table.get?_insert] at hfile
          split at hfile
          · next same =>
              cases hfile
              subst same
              exact given _ _ ⟨rfl, (List.append_nil written).symm⟩
          · exact sealed_ key file hfile closed
      | cons byte rest =>
          cases asks
          simp only [Phase.Known] at known
          simp only [Phase.next, FileRequest.respond, known, Option.isSome_some, if_true]
          refine ⟨fun key file hfile closed => ?_, Table.get?_insert_self _ _ _⟩
          rw [Table.get?_insert] at hfile
          split at hfile
          · cases hfile
            cases closed
          · exact sealed_ key file hfile closed
  | replacing path payload expectedVersion found =>
      cases asks
      refine ⟨fun key file hfile closed => ?_, rfl, fun _ _ => Table.get?_insert_self _ _ _⟩
      rw [FileRequest.respond, Table.get?_insert] at hfile
      split at hfile
      · next same =>
          cases hfile
          subst same
          exact given _ _ ⟨rfl, rfl⟩
      · exact sealed_ key file hfile closed
  | globbing root =>
      cases asks
      exact ⟨sealed_, Phase.Known.listed (fun object member => absurd member List.not_mem_nil) _⟩
  | listing root objects upcoming rest =>
      cases asks
      refine ⟨sealed_, ?_⟩
      cases found : files.get? upcoming with
      | none =>
          simp only [Phase.next, FileRequest.respond, found]
          trivial
      | some file =>
          simp only [Phase.next, FileRequest.respond, found]
          apply Phase.Known.listed
          intro object member
          rcases List.mem_append.mp member with before | added
          · exact known object before
          · obtain rfl := List.mem_singleton.mp added
            exact ⟨sealed_ _ _ found (timely file found), rfl⟩
  | ended operation result => cases asks

/-! ## What other operations do to it -/

/-- The object that a process is about to write or to close. -/
def pendingWrite {α : Type} : CatalogProcess α → Option String
  | .ask (.writeByte (.object path) _) _ => some path
  | .ask (.close (.object path)) _ => some path
  | _ => none

def Phase.pendingWrite : Phase → Option String
  | .writing path _ _ => some path
  | _ => none

theorem pendingWrite_process (phase : Phase) :
    Justflow.pendingWrite (phase.process version) = phase.pendingWrite := by
  cases phase with
  | asking purpose => rw [Phase.process_asking]; rfl
  | loading purpose => rw [Phase.process_loading]; rfl
  | writing path written rest => cases rest <;> rfl
  | ended operation result => cases result <;> rfl
  | _ => rfl

theorem Phase.Known.pendingWrite {phase : Phase} {path : String}
    (known : phase.Known version Started Written files)
    (writes : phase.pendingWrite = some path) :
    ∃ written, files.get? (.object path) = some ⟨written, false⟩ := by
  cases phase with
  | writing other written rest =>
      cases writes
      exact ⟨written, known⟩
  | _ => cases writes

theorem pendingWrite_listed (root : String) (objects : List StoredCatalogObject)
    (keys : List CatalogKey) (path : String) :
    (Phase.listed root objects keys).pendingWrite ≠ some path := by
  cases keys <;> nofun

theorem pendingWrite_resolve (purpose : Purpose) (found : Option StoredCatalogObject)
    (path : String) : (purpose.resolve found).pendingWrite ≠ some path := by
  cases purpose with
  | read key => nofun
  | confirm other payload =>
      cases found with
      | none => nofun
      | some current =>
          simp only [Purpose.resolve]
          split <;> nofun
  | swap other payload expectedVersion =>
      cases found with
      | none =>
          simp only [Purpose.resolve]
          split <;> nofun
      | some current =>
          simp only [Purpose.resolve]
          split
          · nofun
          · split <;> nofun

theorem pendingWrite_next_asking (purpose : Purpose) (path : String) :
    ((Phase.asking purpose).next version files).pendingWrite ≠ some path := by
  simp only [Phase.next]
  split
  · nofun
  · exact pendingWrite_resolve purpose none path

theorem pendingWrite_next_loading (purpose : Purpose) (path : String) :
    ((Phase.loading purpose).next version files).pendingWrite ≠ some path := by
  simp only [Phase.next]
  split
  · exact pendingWrite_resolve purpose _ path
  · nofun

/-- A file that is not closed is changed under its writer only. -/
theorem Phase.Known.insert_object {phase : Phase} {path : String} {file : CatalogFile}
    (known : phase.Known version Started Written files)
    (unsealed : ∀ old, files.get? (.object path) = some old → old.closed = false)
    (apart : phase.pendingWrite ≠ some path) :
    phase.Known version Started Written (files.insert (.object path) file) := by
  -- a closed object is another one
  have elsewhere : ∀ other content, files.get? (.object other) = some ⟨content, true⟩ →
      (files.insert (.object path) file).get? (.object other) = some ⟨content, true⟩ := by
    intro other content found
    rw [Table.get?_insert_ne, found]
    intro same
    rw [same] at found
    cases unsealed _ found
  cases phase with
  | asking purpose =>
      cases purpose with
      | confirm other payload => exact isSome_insert known
      | read key => trivial
      | swap other payload expectedVersion => trivial
  | loading purpose => exact isSome_insert known
  | writing other written rest =>
      have differ : (CatalogKey.object other) ≠ .object path := by
        intro same
        cases same
        exact apart rfl
      exact (Table.get?_insert_ne _ differ _).trans known
  | creating other payload => trivial
  | opening other payload => trivial
  | globbing root => trivial
  | replacing other payload expectedVersion found => exact known
  | listing root objects upcoming rest => exact known
  | ended operation result =>
      cases operation with
      | read key => cases result <;> exact known
      | list root => cases result <;> exact known
      | create other payload =>
          cases result with
          | ok objects => exact ⟨known.1, elsewhere _ _ known.2⟩
          | error error =>
              obtain ⟨conflict, content, differ, found⟩ := known
              exact ⟨conflict, content, differ, elsewhere _ _ found⟩
      | swap other payload expectedVersion =>
          cases result with
          | error error => trivial
          | ok objects =>
              refine ⟨known.1, fun expected rivals => ?_⟩
              rw [Table.get?_insert_ne _ (by simp)]
              exact known.2 expected rivals

/-- A document is replaced only where no rival has succeeded. -/
theorem Phase.Known.insert_aliases {phase : Phase} {path : String} {file : CatalogFile}
    (known : phase.Known version Started Written files) (started : Started phase.operation)
    (open_ : ∀ payload expectedVersion expected, Started (.swap path payload expectedVersion) →
      Rivals version Started path expected → files.get? (.aliases path) ≠ some ⟨payload, true⟩) :
    phase.Known version Started Written (files.insert (.aliases path) file) := by
  cases phase with
  | asking purpose =>
      cases purpose with
      | confirm other payload => exact isSome_insert known
      | read key => trivial
      | swap other payload expectedVersion => trivial
  | loading purpose => exact isSome_insert known
  | writing other written rest => exact (Table.get?_insert_ne _ (by simp) _).trans known
  | creating other payload => trivial
  | opening other payload => trivial
  | globbing root => trivial
  | replacing other payload expectedVersion found => exact known
  | listing root objects upcoming rest => exact known
  | ended operation result =>
      cases operation with
      | read key => cases result <;> exact known
      | list root => cases result <;> exact known
      | create other payload =>
          cases result with
          | ok objects => exact ⟨known.1, (Table.get?_insert_ne _ (by simp) _).trans known.2⟩
          | error error =>
              obtain ⟨conflict, content, differ, found⟩ := known
              exact ⟨conflict, content, differ, (Table.get?_insert_ne _ (by simp) _).trans found⟩
      | swap other payload expectedVersion =>
          cases result with
          | error error => trivial
          | ok objects =>
              refine ⟨known.1, fun expected rivals => ?_⟩
              by_cases same : other = path
              · subst same
                exact absurd (known.2 expected rivals) (open_ _ _ _ started rivals)
              · rw [Table.get?_insert_ne _ (by simpa using same)]
                exact known.2 expected rivals

/-- A timely request leaves what another process knows, and does not follow it into its file. -/
theorem Phase.Known.frame {phase other : Phase} {request : FileRequest}
    (asks : phase.request = some request) (known : phase.Known version Started Written files)
    (started : Started phase.operation) (knows : other.Known version Started Written files)
    (startedOther : Started other.operation)
    (apart : ∀ path, phase.pendingWrite = some path → other.pendingWrite ≠ some path)
    (timely : Timely files request) :
    other.Known version Started Written (FileRequest.respond files request).2 ∧
      ∀ path, (phase.next version files).pendingWrite = some path →
        other.pendingWrite ≠ some path := by
  cases phase with
  | asking purpose =>
      cases asks
      exact ⟨knows, fun path writes => absurd writes (pendingWrite_next_asking purpose path)⟩
  | loading purpose =>
      cases asks
      exact ⟨knows, fun path writes => absurd writes (pendingWrite_next_loading purpose path)⟩
  | creating path payload =>
      cases asks
      refine ⟨knows, fun path writes => ?_⟩
      simp only [Phase.next] at writes
      split at writes <;> cases writes
  | opening path payload =>
      cases asks
      cases found : files.get? (.object path) with
      | some file =>
          simp only [Phase.next, FileRequest.respond, found, Option.isSome_some, if_true]
          exact ⟨knows, fun path writes => by cases writes⟩
      | none =>
          have free : other.pendingWrite ≠ some path := by
            intro writes
            obtain ⟨written, here⟩ := knows.pendingWrite writes
            rw [found] at here
            cases here
          simp only [Phase.next, FileRequest.respond, found, Option.isSome_none,
            Bool.false_eq_true, if_false]
          refine ⟨knows.insert_object (fun old here => by rw [found] at here; cases here) free, ?_⟩
          intro path' writes
          cases writes
          exact free
  | writing path written rest =>
      have free := apart path rfl
      have unsealed : ∀ old, files.get? (.object path) = some old → old.closed = false := by
        intro old here
        rw [Phase.Known] at known
        rw [known] at here
        cases here
        rfl
      simp only [Phase.Known] at known
      cases rest with
      | nil =>
          cases asks
          simp only [Phase.next, FileRequest.respond, known, Option.isSome_some, if_true]
          exact ⟨knows.insert_object unsealed free, fun path writes => by cases writes⟩
      | cons byte rest =>
          cases asks
          simp only [Phase.next, FileRequest.respond, known, Option.isSome_some, if_true]
          refine ⟨knows.insert_object unsealed free, fun path' writes => ?_⟩
          cases writes
          exact free
  | replacing path payload expectedVersion found =>
      cases asks
      refine ⟨knows.insert_aliases startedOther ?_, fun path writes => by cases writes⟩
      intro rival theirs expected startedRival rivals present
      -- what the document held was compared with the version that all of them expect
      obtain ⟨rfl, _⟩ := rivals _ _ started
      obtain ⟨_, differs⟩ := rivals _ _ startedRival
      rw [Timely, present] at timely
      subst timely
      exact differs known
  | globbing root =>
      cases asks
      refine ⟨knows, fun path writes => ?_⟩
      simp only [Phase.next] at writes
      split at writes
      · exact absurd writes (pendingWrite_listed root _ _ path)
      · cases writes
  | listing root objects upcoming rest =>
      cases asks
      refine ⟨knows, fun path writes => ?_⟩
      simp only [Phase.next] at writes
      split at writes
      · exact absurd writes (pendingWrite_listed root _ _ path)
      · cases writes
  | ended operation result => cases asks

end Steps

/-! ## Runs -/

section Runs

variable (Started : CatalogOperation → Prop) (Written : CatalogKey → Payload → Prop)

/-- Every process stands in a phase of its operation and knows what is known there, and no two
write one object. -/
def catalogOutline : Outline FileRequest.Reply CatalogBackendError (List StoredCatalogObject)
    CatalogFiles CatalogOperation where
  invariant := Sealed Written
  assertion := fun operation p files => Started operation ∧
    ∃ phase : Phase, phase.operation = operation ∧ phase.process version = p ∧
      phase.Known version Started Written files
  apart := fun p q => ∀ path, pendingWrite p = some path → pendingWrite q ≠ some path

/-- The phase in which an operation starts. -/
def CatalogOperation.first : CatalogOperation → Phase
  | .read key => .asking (.read key)
  | .list root => .globbing root
  | .create path payload => .creating path payload
  | .swap path payload expectedVersion => .asking (.swap path payload expectedVersion)

theorem process_first (operation : CatalogOperation) :
    operation.first.process version = operation.program version := by
  cases operation <;> rfl

theorem catalogOutline_sound (given : ∀ operation, Started operation → ∀ key payload,
      operation.Writes key payload → Written key payload) :
    (catalogOutline version Started Written).Sound (catalogService version)
      (fun operation _ => Started operation) Timely fun _ _ => False where
  start := by
    intro operation _ files started _
    refine ⟨started, operation.first, ?_, process_first version operation, ?_⟩
    · cases operation <;> rfl
    · cases operation <;> trivial
  fresh := by
    intro operation _ p path _ writes
    have none_ : pendingWrite (operation.program version) = none := by
      rw [← process_first, pendingWrite_process]
      cases operation <;> rfl
    exact Option.some_ne_none path (writes.symm.trans none_)
  symm := fun p q apart path writes reads => apart path reads writes
  serve := by
    rintro _ request resume files ⟨⟩ sealed_ ⟨started, phase, rfl, process, known⟩ timely
    obtain ⟨asks, resumes⟩ := Phase.process_ask process files
    obtain ⟨kept, next⟩ := known.next asks sealed_ (given _ started) timely
    exact ⟨kept, started, phase.next version files, Phase.operation_next phase files,
      resumes.symm, next⟩
  frame := by
    rintro _ request resume _ p files ⟨⟩ _ ⟨started, phase, rfl, process, known⟩
      ⟨startedOther, other, rfl, rfl, knows⟩ apart timely _
    obtain ⟨asks, resumes⟩ := Phase.process_ask process files
    have free : ∀ path, phase.pendingWrite = some path → other.pendingWrite ≠ some path := by
      intro path writes
      rw [← @pendingWrite_process version, process] at writes
      rw [← @pendingWrite_process version]
      exact apart path writes
    obtain ⟨kept, follows⟩ := known.frame asks started knows startedOther free timely
    refine ⟨⟨startedOther, other, rfl, rfl, kept⟩, fun path writes => ?_⟩
    change pendingWrite (resume (FileRequest.respond files request).1) = some path at writes
    rw [resumes, pendingWrite_process] at writes
    rw [pendingWrite_process]
    exact follows path writes
  elapse := fun change => nomatch change

end Runs

/-! ## A creation on its own -/

section Alone

variable {version} {files : CatalogFiles} {path : String}

theorem exec_writePayload {key : CatalogKey} {written : Payload} (rest : Payload)
    (present : files.get? key = some ⟨written, false⟩) :
    ∃ later, Process.exec FileRequest.respond (writePayload key rest) files = (.ok (), later) ∧
      later.get? key = some ⟨written ++ rest, true⟩ := by
  induction rest generalizing written files with
  | nil =>
      refine ⟨files.insert key ⟨written, true⟩, ?_, by simp⟩
      simp [writePayload, askClose, Process.exec_call, FileRequest.respond, present]
  | cons byte rest ih =>
      have served : Process.exec FileRequest.respond (askWrite key byte) files =
          (.ok (), files.insert key ⟨written ++ [byte], false⟩) := by
        simp [askWrite, Process.exec_call, FileRequest.respond, present]
      obtain ⟨later, rests, stored⟩ := ih (Table.get?_insert_self files key
        (⟨written ++ [byte], false⟩ : CatalogFile))
      refine ⟨later, ?_, by rw [stored]; simp⟩
      rw [writePayload, Process.exec_bind_ok served]
      exact rests

theorem exec_readObject {key : CatalogKey} {file : CatalogFile}
    (present : files.get? key = some file) :
    Process.exec FileRequest.respond (readObject version key) files =
      (.ok (some (storedObject version key file.content)), files) := by
  have asked : Process.exec FileRequest.respond (askExists key) files = (.ok true, files) := by
    simp [askExists, Process.exec_call, FileRequest.respond, present]
  have loaded : Process.exec FileRequest.respond (askBytes key) files =
      (.ok (some file.content), files) := by
    simp [askBytes, Process.exec_call, FileRequest.respond, present]
  rw [readObject, Process.exec_bind_ok asked, if_pos rfl, loadObject, Process.exec_bind_ok loaded]
  rfl

/-- A creation that finds a closed file succeeds if it holds the payload. -/
theorem exec_create_present {payload : Payload} {file : CatalogFile}
    (present : files.get? (.object path) = some file) :
    (Process.exec FileRequest.respond (createImmutable version (.object path) payload) files).1 =
      if file.content = payload then .ok (storedObject version (.object path) payload)
      else .error .conflict := by
  have asked : Process.exec FileRequest.respond (askExists (.object path)) files =
      (.ok true, files) := by
    simp [askExists, Process.exec_call, FileRequest.respond, present]
  rw [createImmutable, Process.exec_bind_ok asked, if_pos rfl,
    Process.exec_bind_ok (exec_readObject present), confirmed]
  by_cases same : file.content = payload
  · subst same
    simp [storedObject]
  · simp [storedObject, same]

/-- A creation that finds no file writes one. -/
theorem exec_create_absent (payload : Payload) (absent : files.get? (.object path) = none) :
    (Process.exec FileRequest.respond (createImmutable version (.object path) payload) files).1 =
        .ok (storedObject version (.object path) payload) ∧
      (Process.exec FileRequest.respond (createImmutable version (.object path) payload)
        files).2.get? (.object path) = some ⟨payload, true⟩ := by
  have asked : Process.exec FileRequest.respond (askExists (.object path)) files =
      (.ok false, files) := by
    simp [askExists, Process.exec_call, FileRequest.respond, absent]
  have opened : Process.exec FileRequest.respond (askOpen (.object path)) files =
      (.ok true, files.insert (.object path) ⟨[], false⟩) := by
    simp [askOpen, Process.exec_call, FileRequest.respond, absent]
  obtain ⟨later, wrote, stored⟩ := exec_writePayload payload
    (Table.get?_insert_self files (.object path) ⟨[], false⟩)
  rw [createImmutable, Process.exec_bind_ok asked, if_neg (by simp), Process.exec_bind_ok opened,
    if_pos rfl, Process.exec_bind_ok wrote]
  exact ⟨rfl, stored⟩

end Alone

/-! ## Safety -/

/-- The payload was in the catalog at first, or an operation of the run was given it. -/
def GivenPayload (files : CatalogFiles) (events : List CatalogEvent) (key : CatalogKey)
    (payload : Payload) : Prop :=
  (∃ file, files.get? key = some file ∧ file.content = payload) ∨
    ∃ operation, .start operation () ∈ events ∧ operation.Writes key payload

section Outcomes

variable {version} {Started : CatalogOperation → Prop} {Written : CatalogKey → Payload → Prop}
  {config : Config FileRequest.Reply CatalogBackendError (List StoredCatalogObject) CatalogFiles
    CatalogOperation}

theorem ended_of_done {phase : Phase} {objects : List StoredCatalogObject}
    (h : phase.process version = .done objects) :
    phase = .ended phase.operation (.ok objects) := by
  cases phase with
  | asking purpose => rw [Phase.process_asking] at h; cases h
  | loading purpose => rw [Phase.process_loading] at h; cases h
  | writing path written rest => cases rest <;> cases h
  | ended operation result =>
      cases result with
      | ok found => cases h; rfl
      | error error => cases h
  | _ => cases h

theorem ended_of_fail {phase : Phase} {error : CatalogBackendError}
    (h : phase.process version = .fail error) :
    phase = .ended phase.operation (.error error) := by
  cases phase with
  | asking purpose => rw [Phase.process_asking] at h; cases h
  | loading purpose => rw [Phase.process_loading] at h; cases h
  | writing path written rest => cases rest <;> cases h
  | ended operation result =>
      cases result with
      | ok found => cases h
      | error error => cases h; rfl
  | _ => cases h

/-- Every object that an operation returns was written in full. -/
theorem Outcome.whole {files : CatalogFiles} {operation : CatalogOperation}
    {objects : List StoredCatalogObject}
    (outcome : Outcome version Started Written files operation (.ok objects))
    (given : ∀ key payload, operation.Writes key payload → Written key payload) :
    ∀ object ∈ objects, Whole version Written object := by
  intro object member
  cases operation with
  | read key => exact (outcome object member).2
  | list root => exact outcome object member
  | create path payload =>
      rw [outcome.1] at member
      obtain rfl := List.mem_singleton.mp member
      exact ⟨given _ _ ⟨rfl, rfl⟩, rfl⟩
  | swap path payload expectedVersion =>
      rw [outcome.1] at member
      obtain rfl := List.mem_singleton.mp member
      exact ⟨given _ _ ⟨rfl, rfl⟩, rfl⟩

theorem outcome_of_done (holds : (catalogOutline version Started Written).Holds config)
    {operation : CatalogOperation} {objects : List StoredCatalogObject}
    (running : (operation, .done objects) ∈ config.running) :
    Outcome version Started Written config.world operation (.ok objects) := by
  obtain ⟨_, phase, rfl, process, known⟩ := holds.running _ running
  rw [ended_of_done process] at known
  exact known

theorem outcome_of_fail (holds : (catalogOutline version Started Written).Holds config)
    {operation : CatalogOperation} {error : CatalogBackendError}
    (running : (operation, .fail error) ∈ config.running) :
    Outcome version Started Written config.world operation (.error error) := by
  obtain ⟨_, phase, rfl, process, known⟩ := holds.running _ running
  rw [ended_of_fail process] at known
  exact known

end Outcomes

section Examples

def lengthVersion (payload : Payload) : Digest :=
  Digest.ofNat payload.length

/-- A creation, and another one of the same object when it has ended. -/
def repeatedCreation : List CatalogEvent :=
  [.start (.create "m.json" [7]) (), .serve 0 (), .serve 0 (), .serve 0 (), .serve 0 (),
    .start (.create "m.json" [7]) (), .serve 1 (), .serve 1 (), .serve 1 ()]

/-- The writer is stopped after it has opened the file, and tries again. -/
def crashedCreation : List CatalogEvent :=
  [.start (.create "m.json" [7]) (), .serve 0 (), .serve 0 (), .stop 0,
    .start (.create "m.json" [7]) (), .serve 0 (), .serve 0 (), .serve 0 ()]

/-- An object is read while it is written. -/
def earlyReader : List CatalogEvent :=
  [.start (.create "m.json" [7]) (), .serve 0 (), .serve 0 (),
    .start (.read (.object "m.json")) (), .serve 1 (), .serve 1 ()]

/-- Two clients publish the first aliases, and both find none. -/
def racingSwaps : List CatalogEvent :=
  [.start (.swap "aliases.json" [1] none) (), .start (.swap "aliases.json" [2] none) (),
    .serve 0 (), .serve 1 (), .serve 0 (), .serve 1 ()]

end Examples

end Justflow
