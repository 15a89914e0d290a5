import Justflow.Definitions.S3Catalog

/-!
# Runs of the catalog in a bucket

What one operation does to the bucket is a `Change`: it writes its payload under its key if its
condition holds of what is there.  What it answers (`Answer`) was so while it ran.  Both hold
whatever the others do meanwhile, whatever answers are lost and whatever is sent again, and hence
of every run.
-/

open Service Base64 Sweeps

namespace Justflow

namespace S3Catalog

namespace S3CatalogBackend

variable (self : S3CatalogBackend)

/-- What a bucket holds under a key of the catalog. -/
def view (bucket : Bucket) (key : String) : Option StoredObject :=
  match self.objectKey key false with
  | .error _ => none
  | .ok objectKey => (bucket.get? objectKey).map fun object => ⟨key, object.body, object.etag⟩

/-- What an operation may do to the bucket. -/
inductive Change : S3Operation → Bucket → Bucket → Prop where
  | keep {operation : S3Operation} {bucket : Bucket} : Change operation bucket bucket
  | create {key objectKey : String} {payload : Payload} {bucket : Bucket} {etag : String}
      (named : self.objectKey key false = .ok objectKey)
      (absent : bucket.get? objectKey = none) :
      Change (.create key payload) bucket (bucket.insert objectKey ⟨payload, etag⟩)
  | swap {key objectKey : String} {payload : Payload} {expectedVersion : Option String}
      {bucket : Bucket} {etag : String} (named : self.objectKey key false = .ok objectKey)
      (expected : (bucket.get? objectKey).map S3Object.etag = expectedVersion) :
      Change (.swap key payload expectedVersion) bucket (bucket.insert objectKey ⟨payload, etag⟩)

/-- The step of an operation after a history. -/
def Step (operation : S3Operation) (history : List Bucket) (next : Bucket) : Prop :=
  ∃ bucket past, history = bucket :: past ∧ self.Change operation bucket next

/-- The answer to a read. -/
def Read (before : List Bucket) (key : String) :
    Except CatalogError (Option StoredObject) → List Bucket → Prop
  | .ok found, later => Since before (fun bucket => self.view bucket key = found) later
  | .error error, _ => ∃ message, error = .storage message

/-- The answer to a write: the payload was there, or something else was. -/
def Written (before : List Bucket) (key : String) (payload : Payload) :
    Except CatalogError StoredObject → List Bucket → Prop
  | .ok stored, later => stored.payload = payload ∧
      Since before (fun bucket => self.view bucket key = some stored) later
  | .error (.conflict _), later =>
      Since before (fun bucket => ∀ stored, self.view bucket key = some stored →
        stored.payload ≠ payload) later
  | .error (.storage _), _ => True
  | .error (.invalid _), _ | .error (.drift _), _ => False

/-- The answer to the reads of several keys. -/
def ReadAll (before : List Bucket) (keys : List String) :
    Except CatalogError (List StoredObject) → List Bucket → Prop
  | .ok objects, later => objects.map StoredObject.key = keys ∧ ∀ object ∈ objects,
      Since before (fun bucket => self.view bucket object.key = some object) later
  | .error error, _ => ∃ message, error = .storage message

/-- A listing has, in order, objects that were there, and all that were there from the
beginning. -/
structure Listed (before : List Bucket) (directory : String) (objects : List StoredObject)
    (later : List Bucket) : Prop where
  sorted : (objects.map StoredObject.key).Pairwise (· < ·)
  stored : ∀ object ∈ objects,
    Since before (fun bucket => self.view bucket object.key = some object) later
  complete : ∀ bucket past, before = bucket :: past → ∀ key, directory.toList <+: key.toList →
    (self.view bucket key).isSome → key ∈ objects.map StoredObject.key

/-- What an operation answers that has started after a history. -/
def Answer (before : List Bucket) :
    S3Operation → Except CatalogError (Option (List StoredObject)) → List Bucket → Prop
  | .read key, .ok found, later =>
      Since before (fun bucket => found = some (self.view bucket key).toList) later
  | .read _, .error error, _ => ∃ message, error = .storage message
  | .list directory _, .ok (some objects), later => self.Listed before directory objects later
  | .list _ _, .ok none, _ => True
  | .list _ _, .error error, _ => ∃ message, error = .storage message
  | .create key payload, result, later | .swap key payload _, result, later =>
      ∃ answer, self.Written before key payload answer later ∧
        result = answer.map fun stored => some [stored]

end S3CatalogBackend

open S3CatalogBackend

variable {backend : S3CatalogBackend}

theorem objectKey_eq {key objectKey : String} {trailing : Bool}
    (h : backend.objectKey key trailing = .ok objectKey) :
    objectKey = backend.catalogPrefix ++ key := by
  simp only [S3CatalogBackend.objectKey] at h
  split_ifs at h
  all_goals
    cases h
    rfl

theorem objectKey_error {key : String} {trailing : Bool} {error : CatalogError}
    (h : backend.objectKey key trailing = .error error) : ∃ message, error = .storage message := by
  simp only [S3CatalogBackend.objectKey] at h
  split_ifs at h
  all_goals
    cases h
    exact ⟨_, rfl⟩

theorem removePrefix_append (catalogPrefix key : String) :
    removePrefix catalogPrefix (catalogPrefix ++ key) = key := by
  rw [removePrefix, if_pos (by simp)]
  simp

theorem sorted_of_distinct {keys : List String} (distinct : (keys.insertionSort (· ≤ ·)).Nodup) :
    (keys.insertionSort (· ≤ ·)).Pairwise (· < ·) := by
  have ordered := List.pairwise_insertionSort (· ≤ ·) keys
  exact (ordered.and distinct).imp fun less => lt_of_le_of_ne less.1 less.2

/-! ## One operation -/

section Operation

variable {Valid : List Bucket → Prop} {operation : S3Operation} {before history : List Bucket}

/-- The program keeps its steps and ends with the postcondition, whatever the others do. -/
abbrev Does (backend : S3CatalogBackend) (Valid : List Bucket → Prop) (operation : S3Operation)
    {α : Type} (Post : Except CatalogError α → List Bucket → Prop) (p : S3Process α)
    (history : List Bucket) : Prop :=
  Keeps S3Request.respond Valid (backend.Step operation) Post p history

theorem step_keep (bucket : Bucket) (past : List Bucket) :
    backend.Step operation (bucket :: past) bucket :=
  ⟨bucket, past, rfl, .keep⟩

theorem does_get (key : String) :
    Does backend Valid operation (fun result later => ∃ answer, result = .ok answer ∧
      ((∃ code, answer = .error code ∧ (code.any (· ∈ notFoundErrorCodes) = true →
          Since history (fun bucket => bucket.get? key = none) later)) ∨
        ∃ object, answer = .ok object ∧
          Since history (fun bucket => bucket.get? key = some object) later)) (askGet key)
      history := by
  refine Keeps.call fun bucket past grows _ choice => ?_
  rw [S3Request.respond]
  cases unread : choice.fate.readError with
  | some code =>
      refine ⟨step_keep _ _, _, rfl, .inl ⟨code, rfl, fun absent => ?_⟩⟩
      -- an error that is reported does not say that the object is absent
      unfold Fate.readError at unread
      split at unread
      · cases unread
      · cases unread
      · split at unread
        · cases unread
        · next reported =>
            cases unread
            exact absurd absent (by simpa using reported)
      · cases unread
        cases absent
      · cases unread
        cases absent
  | none =>
      cases found : bucket.get? key with
      | some object =>
          exact ⟨step_keep _ _, _, rfl, .inr ⟨object, rfl, .served grows found⟩⟩
      | none => exact ⟨step_keep _ _, _, rfl, .inl ⟨_, rfl, fun _ => .served grows found⟩⟩

theorem does_readObject (key : String) (grown : before <:+ history) :
    Does backend Valid operation (backend.Read before key) (backend.readObject key) history := by
  rw [S3CatalogBackend.readObject]
  cases named : backend.objectKey key false with
  | error error => exact objectKey_error named
  | ok objectKey =>
      rw [Process.lift_ok, Process.done_bind]
      refine Keeps.bind (does_get objectKey) ?_ ?_
      · rintro value later grows ⟨answer, same, ⟨code, rfl, absent⟩ | ⟨object, rfl, found⟩⟩
        · cases same
          dsimp only
          split
          · next reported =>
              refine (absent reported).mono (fun bucket none_ => ?_) |>.earlier grown
              rw [view, named]
              simp [none_]
          · exact ⟨_, rfl⟩
        · cases same
          dsimp only
          split
          · exact ⟨_, rfl⟩
          · split
            · exact ⟨_, rfl⟩
            · refine found.mono (fun bucket there => ?_) |>.earlier grown
              rw [view, named]
              simp [there]
      · rintro error later - ⟨answer, same, -⟩
        cases same

/-- A put that reaches the store makes its change. -/
theorem step_putting {key : String} {body : Payload} {condition : WriteCondition}
    (change : ∀ bucket etag, condition.admits (bucket.get? key) = true →
      backend.Change operation bucket (bucket.insert key ⟨body, etag⟩))
    (choice : S3Choice) (bucket : Bucket) (past : List Bucket) :
    backend.Step operation (bucket :: past) (putting choice bucket key body condition) := by
  refine ⟨bucket, past, rfl, ?_⟩
  rw [putting]
  split
  · next admitted => exact change bucket choice.etag admitted
  · exact .keep

theorem does_askPut {key : String} {body : Payload} {condition : WriteCondition}
    (change : ∀ bucket etag, condition.admits (bucket.get? key) = true →
      backend.Change operation bucket (bucket.insert key ⟨body, etag⟩)) :
    Does backend Valid operation (fun result _ => ∃ reply, result = .ok reply)
      (askPut key body condition) history := by
  refine Keeps.call fun bucket past _ _ choice => ?_
  have reaching := step_putting change choice bucket past
  rw [S3Request.respond]
  cases choice.fate with
  | answered =>
      dsimp only
      split
      · exact ⟨reaching, _, rfl⟩
      · exact ⟨step_keep _ _, _, rfl⟩
  | conflicting => exact ⟨step_keep _ _, _, rfl⟩
  | failed code reached =>
      refine ⟨?_, _, rfl⟩
      cases reached with
      | true => exact reaching
      | false => exact step_keep _ _
  | unanswered reached =>
      refine ⟨?_, _, rfl⟩
      cases reached with
      | true => exact reaching
      | false => exact step_keep _ _

/-- However often a put is sent, it does nothing else. -/
theorem does_sendPut {key : String} {body : Payload} {condition : WriteCondition}
    (change : ∀ bucket etag, condition.admits (bucket.get? key) = true →
      backend.Change operation bucket (bucket.insert key ⟨body, etag⟩)) (retries : Nat) :
    Does backend Valid operation (fun result _ => ∃ answer, result = .ok answer)
      (sendPut key body condition retries) history := by
  induction retries generalizing history with
  | zero =>
      refine Keeps.bind (does_askPut change) ?_ fun _ _ _ refused => ?_
      · intro reply later _ _
        cases reply <;> exact ⟨_, rfl⟩
      · obtain ⟨_, same⟩ := refused
        cases same
  | succ retries ih =>
      refine Keeps.bind (does_askPut change) ?_ fun _ _ _ refused => ?_
      · intro reply later _ _
        cases reply with
        | some answer => exact ⟨_, rfl⟩
        | none => exact ih
      · obtain ⟨_, same⟩ := refused
        cases same

/-- A write answers by what it reads after it. -/
theorem does_confirm (key objectKey : String) (payload : Payload) (answer : Except ErrorCode Unit)
    (grown : before <:+ history) :
    Does backend Valid operation (backend.Written before key payload)
      (backend.confirm key objectKey payload answer) history := by
  have reading : Does backend Valid operation (backend.Read before key) (backend.readObject key)
      history := does_readObject key grown
  have failing : ∀ (error : CatalogError) (later : List Bucket),
      backend.Read before key (.error error) later →
        backend.Written before key payload (.error error) later := by
    rintro error later ⟨message, rfl⟩
    trivial
  cases answer with
  | error code =>
      rw [S3CatalogBackend.confirm]
      split
      · refine Keeps.bind reading ?_ fun error later _ => failing error later
        intro found later _ read
        cases found with
        | none =>
            refine Since.mono read fun bucket absent stored there => ?_
            rw [absent] at there
            cases there
        | some current =>
            dsimp only
            split
            · next same => exact ⟨same, read⟩
            · next differ =>
                refine Since.mono read fun bucket found stored there => ?_
                rw [found] at there
                cases there
                exact differ
      · trivial
  | ok done =>
      refine Keeps.bind reading ?_ fun error later _ => failing error later
      intro found later _ read
      cases found with
      | none => trivial
      | some stored =>
          dsimp only
          split
          · next same => exact ⟨same, read⟩
          · trivial

theorem does_conditionalWrite {key : String} {payload : Payload} {condition : WriteCondition}
    (change : ∀ objectKey, backend.objectKey key false = .ok objectKey → ∀ bucket etag,
      condition.admits (bucket.get? objectKey) = true →
        backend.Change operation bucket (bucket.insert objectKey ⟨payload, etag⟩))
    (grown : before <:+ history) :
    Does backend Valid operation (backend.Written before key payload)
      (backend.conditionalWrite key payload condition) history := by
  rw [S3CatalogBackend.conditionalWrite]
  cases named : backend.objectKey key false with
  | error error =>
      obtain ⟨message, rfl⟩ := objectKey_error named
      trivial
  | ok objectKey =>
      rw [Process.lift_ok, Process.done_bind]
      refine Keeps.bind (does_sendPut (change objectKey named) backend.retries) ?_ ?_
      · intro answer later grows _
        exact does_confirm key objectKey payload answer (grown.trans grows)
      · rintro error later - ⟨answer, same⟩
        cases same

theorem does_createImmutable (key : String) (payload : Payload) (grown : before <:+ history) :
    Does backend Valid (.create key payload) (backend.Written before key payload)
      (backend.createImmutable key payload) history := by
  refine does_conditionalWrite (fun objectKey named bucket etag admitted => ?_) grown
  exact .create named (by simpa [WriteCondition.admits] using admitted)

theorem does_compareAndSwap (key : String) (payload : Payload) (expectedVersion : Option String)
    (grown : before <:+ history) :
    Does backend Valid (.swap key payload expectedVersion) (backend.Written before key payload)
      (backend.compareAndSwap key payload expectedVersion) history := by
  refine Keeps.bind (does_readObject key grown) ?_ ?_
  · intro current later grows read
    cases kept : current.filter fun found => found.payload = payload with
    | some found =>
        obtain ⟨rfl, same⟩ := Option.filter_eq_some_iff.mp kept
        exact ⟨by simpa using same, read⟩
    | none =>
        refine does_conditionalWrite (fun objectKey named bucket etag admitted => ?_)
          (grown.trans grows)
        refine .swap named ?_
        cases expectedVersion with
        | none => simpa [WriteCondition.admits, expectedCondition] using admitted
        | some version => simpa [WriteCondition.admits, expectedCondition] using admitted
  · rintro error later - ⟨message, rfl⟩
    trivial

/-! ## Listings -/

theorem mem_listing {bucket : Bucket} {objectPrefix : String} {token : Option String}
    {key : String} : key ∈ listing bucket objectPrefix token ↔
      objectPrefix.toList <+: key.toList ∧ Behind token key ∧ (bucket.get? key).isSome := by
  rw [listing, List.mem_insertionSort, List.mem_filter, Bool.and_eq_true,
    List.isPrefixOf_iff_prefix]
  have present : key ∈ Fields.keys bucket.entries ↔ (bucket.get? key).isSome = true := by
    rw [Option.isSome_iff_ne_none, ne_eq, Table.get?_eq_none_iff, not_not]
  have behind : (token.all fun last => decide (last < key)) = true ↔ Behind token key := by
    rw [Option.all_eq_true]
    simp only [decide_eq_true_eq]
    rfl
  rw [present, behind]
  tauto

theorem listing_sorted (bucket : Bucket) (objectPrefix : String) (token : Option String) :
    (listing bucket objectPrefix token).Pairwise (· < ·) := by
  have distinct : (listing bucket objectPrefix token).Nodup := by
    rw [listing, (List.perm_insertionSort _ _).nodup_iff]
    exact bucket.nodup.filter _
  exact sorted_of_distinct distinct

/-- What the pages of a listing have had: the keys under the prefix, with those of the start. -/
def Collected (catalogPrefix objectPrefix : String) (base : String → Prop) :
    Except CatalogError (Option (List String)) → List Bucket → Prop
  | .ok none, _ => True
  | .ok (some keys), _ => ∃ seen : List String, keys = seen.map (removePrefix catalogPrefix) ∧
      seen.Pairwise (· < ·) ∧ (∀ key ∈ seen, objectPrefix.toList <+: key.toList) ∧
      ∀ key, base key → key ∈ seen
  | .error error, _ => ∃ message, error = .storage message

/-- The keys under a prefix that were there at the start. -/
def Present (before : List Bucket) (objectPrefix key : String) : Prop :=
  objectPrefix.toList <+: key.toList ∧
    ∃ start past, before = start :: past ∧ (start.get? key).isSome

/-- One page. -/
theorem does_askList (objectPrefix : String) (token : Option String) :
    Does backend Valid operation (fun result _ => ∃ answer, result = .ok answer ∧
      ∀ page, answer = .ok page → ∃ bucket past size, history <:+ bucket :: past ∧
        Valid (bucket :: past) ∧ page = listedPage bucket objectPrefix token size)
      (askList objectPrefix token) history := by
  refine Keeps.call fun bucket past grows valid choice => ?_
  rw [S3Request.respond]
  cases choice.fate.readError with
  | some code =>
      refine ⟨step_keep _ _, _, rfl, fun page same => ?_⟩
      cases same
  | none =>
      refine ⟨step_keep _ _, _, rfl, fun page same => ?_⟩
      cases same
      exact ⟨bucket, past, choice.pageSize, grows, valid, rfl⟩

theorem does_listKeys {objectPrefix : String} {base : String → Prop}
    (under : ∀ key, base key → objectPrefix.toList <+: key.toList)
    (kept : ∀ bucket past, before <:+ bucket :: past → Valid (bucket :: past) →
      ∀ key, base key → (bucket.get? key).isSome) :
    ∀ (rounds : Nat) (token : Option String) (seen : List String) (history : List Bucket),
      before <:+ history → Swept base token seen →
        (∀ key ∈ seen, objectPrefix.toList <+: key.toList) →
          Does backend Valid operation (Collected backend.catalogPrefix objectPrefix base)
            (backend.listKeys objectPrefix rounds token
              (seen.map (removePrefix backend.catalogPrefix))) history := by
  intro rounds
  induction rounds with
  | zero => exact fun _ _ _ _ _ _ => trivial
  | succ rounds ih =>
      intro token seen history grown swept below
      refine Keeps.bind (does_askList objectPrefix token) ?_ ?_
      · rintro value later grows ⟨answer, same, pages⟩
        cases same
        cases value with
        | error code => exact ⟨_, rfl⟩
        | ok page =>
            obtain ⟨bucket, past, size, begun, valid, rfl⟩ := pages page rfl
            have sorted := listing_sorted bucket objectPrefix token
            have behind : ∀ key ∈ listing bucket objectPrefix token, Behind token key :=
              fun key member => (mem_listing.mp member).2.1
            have present : ∀ key, base key → Behind token key →
                key ∈ listing bucket objectPrefix token := fun key there after =>
              mem_listing.mpr ⟨under key there, after,
                kept bucket past (grown.trans begun) valid key there⟩
            have named : backend.listedKeys objectPrefix
                (listedPage bucket objectPrefix token size) =
                  .ok (((listing bucket objectPrefix token).take (size + 1)).map
                    (removePrefix backend.catalogPrefix)) := by
              rw [S3CatalogBackend.listedKeys, if_pos]
              · rfl
              · rw [List.all_eq_true]
                intro key member
                exact List.isPrefixOf_iff_prefix.mpr
                  (mem_listing.mp (List.mem_of_mem_take member)).1
            have inside : ∀ key ∈ seen ++ (listing bucket objectPrefix token).take (size + 1),
                objectPrefix.toList <+: key.toList := by
              intro key member
              rcases List.mem_append.mp member with before | here
              · exact below key before
              · exact (mem_listing.mp (List.mem_of_mem_take here)).1
            dsimp only
            rw [named, Process.lift_ok, Process.done_bind, ← List.map_append]
            split
            · -- there is another page, behind the last key of this one
              split
              · exact ⟨_, rfl⟩
              · next marked =>
                  cases ends : ((listing bucket objectPrefix token).take (size + 1)).getLast? with
                  | none =>
                      rw [show (listedPage bucket objectPrefix token size).nextContinuationToken =
                        none from ends] at marked
                      exact absurd rfl marked
                  | some last =>
                      rw [show (listedPage bucket objectPrefix token size).nextContinuationToken =
                        some last from ends]
                      exact ih (some last) _ later (grown.trans grows)
                        (swept.page sorted behind present ends) inside
            · next final =>
                -- the last page has all that is behind the token
                have whole : (listing bucket objectPrefix token).take (size + 1) =
                    listing bucket objectPrefix token := by
                  apply List.take_of_length_le
                  simpa [listedPage] using final
                refine ⟨_, rfl, ?_, inside, fun key there => ?_⟩
                · exact swept.extend (sorted.sublist (List.take_sublist _ _))
                    fun key member => behind key (List.mem_of_mem_take member)
                · rw [whole]
                  exact swept.finish present there
      · rintro error later - ⟨answer, same, -⟩
        cases same

theorem view_key {bucket : Bucket} {key : String} {stored : StoredObject}
    (found : backend.view bucket key = some stored) : stored.key = key := by
  rw [view] at found
  split at found
  · cases found
  · obtain ⟨object, -, rfl⟩ := Option.map_eq_some_iff.mp found
    rfl

/-- The objects of all keys, each as it was when it was read. -/
theorem does_readObjects (keys : List String) : ∀ (objects : List StoredObject)
    (history : List Bucket), before <:+ history →
      (∀ object ∈ objects,
        Since before (fun bucket => backend.view bucket object.key = some object) history) →
        Does backend Valid operation
          (backend.ReadAll before (objects.map StoredObject.key ++ keys))
          (backend.readObjects objects keys) history := by
  induction keys with
  | nil => exact fun objects history _ stored => ⟨by simp, stored⟩
  | cons key rest ih =>
      intro objects history grown stored
      refine Keeps.bind (does_readObject key grown) ?_ fun _ _ _ raised => raised
      intro found later grows read
      cases found with
      | none => exact ⟨_, rfl⟩
      | some object =>
          have same : object.key = key := by
            obtain ⟨bucket, _, _, _, holds⟩ := read
            exact view_key holds
          refine Keeps.mono (ih (objects ++ [object]) later (grown.trans grows) ?_) ?_
          · intro other member
            rcases List.mem_append.mp member with before | here
            · exact (stored other before).later grows
            · obtain rfl := List.mem_singleton.mp here
              rw [same]
              exact read
          · intro result final _ post
            rwa [List.map_append, List.map_singleton, same, List.append_assoc] at post

theorem view_isSome {bucket : Bucket} {key : String} (h : (backend.view bucket key).isSome) :
    (bucket.get? (backend.catalogPrefix ++ key)).isSome := by
  rw [view] at h
  split at h
  · cases h
  · next objectKey named =>
      rw [objectKey_eq named, Option.isSome_map] at h
      exact h

/-- Keys under the prefix of the catalog differ behind it. -/
theorem nodup_removePrefix {catalogPrefix : String} {seen : List String}
    (below : ∀ key ∈ seen, catalogPrefix.toList <+: key.toList) (distinct : seen.Nodup) :
    (seen.map (removePrefix catalogPrefix)).Nodup := by
  refine List.Nodup.map_on (fun first mem second mem' same => ?_) distinct
  obtain ⟨rest, hrest⟩ := below first mem
  obtain ⟨other, hother⟩ := below second mem'
  have splits : ∀ (key : String) (rest : List Char), catalogPrefix.toList ++ rest = key.toList →
      key = catalogPrefix ++ String.ofList rest := by
    intro key rest split
    rw [← String.toList_inj, String.toList_append, String.toList_ofList, split]
  rw [splits first rest hrest, splits second other hother] at same ⊢
  rw [removePrefix_append, removePrefix_append] at same
  rw [same]

theorem does_listObjects (directory : String) (rounds : Nat)
    (kept : ∀ start past, before = start :: past → ∀ bucket earlier,
      before <:+ bucket :: earlier → Valid (bucket :: earlier) →
        ∀ key, (start.get? key).isSome → (bucket.get? key).isSome) :
    Does backend Valid operation (backend.Answer before (.list directory rounds))
      (backend.listObjects directory rounds) before := by
  rw [S3CatalogBackend.listObjects]
  cases named : backend.objectKey directory true with
  | error error => exact objectKey_error named
  | ok objectPrefix =>
      obtain rfl := objectKey_eq named
      have listed : Does backend Valid operation
          (Collected backend.catalogPrefix (backend.catalogPrefix ++ directory)
            (Present before (backend.catalogPrefix ++ directory)))
          (backend.listKeys (backend.catalogPrefix ++ directory) rounds none []) before := by
        refine does_listKeys (fun _ there => there.1) ?_ rounds none [] before List.suffix_rfl
          .start (by simp)
        rintro bucket earlier grows valid key ⟨-, first, past, begins, present⟩
        exact kept first past begins bucket earlier grows valid key present
      rw [Process.lift_ok, Process.done_bind]
      refine Keeps.bind listed ?_ fun _ _ _ raised => raised
      intro value later grows collected
      cases value with
      | none => trivial
      | some keys =>
          obtain ⟨seen, rfl, sorted, below, complete⟩ := collected
          have inCatalog : ∀ key ∈ seen, backend.catalogPrefix.toList <+: key.toList := by
            intro key member
            have here := below key member
            rw [String.toList_append] at here
            exact (List.prefix_append _ _).trans here
          have distinct := nodup_removePrefix inCatalog (sorted.imp fun less => ne_of_lt less)
          refine Keeps.bind (does_readObjects _ [] later grows (by simp)) ?_ ?_
          · rintro objects final - ⟨read, stored⟩
            rw [List.map_nil, List.nil_append] at read
            refine ⟨?_, stored, ?_⟩
            · rw [read]
              exact sorted_of_distinct ((List.perm_insertionSort _ _).nodup_iff.mpr distinct)
            · intro start past begins key under present
              rw [read, List.mem_insertionSort]
              have found := complete (backend.catalogPrefix ++ key) ⟨by
                rw [String.toList_append, String.toList_append]
                exact List.prefix_append_right_inj _ |>.mpr under,
                start, past, begins, view_isSome present⟩
              have := List.mem_map_of_mem (f := removePrefix backend.catalogPrefix) found
              rwa [removePrefix_append] at this
          · exact fun _ _ _ raised => raised

/-- Whatever the others do, an operation makes only its change, and what it answers was so while
it ran. -/
theorem does_program (operation : S3Operation)
    (kept : ∀ start past, before = start :: past → ∀ bucket earlier,
      before <:+ bucket :: earlier → Valid (bucket :: earlier) →
        ∀ key, (start.get? key).isSome → (bucket.get? key).isSome) :
    Does backend Valid operation (backend.Answer before operation) (operation.program backend)
      before := by
  cases operation with
  | read key =>
      refine Keeps.bind (does_readObject key List.suffix_rfl) ?_ fun _ _ _ raised => raised
      intro found later _ read
      exact Since.mono read fun bucket same => by rw [same]
  | list directory rounds => exact does_listObjects directory rounds kept
  | create key payload =>
      refine Keeps.bind (does_createImmutable key payload List.suffix_rfl) ?_ ?_
      · exact fun stored later _ written => ⟨.ok stored, written, rfl⟩
      · exact fun error later _ written => ⟨.error error, written, rfl⟩
  | swap key payload expectedVersion =>
      refine Keeps.bind (does_compareAndSwap key payload expectedVersion List.suffix_rfl) ?_ ?_
      · exact fun stored later _ written => ⟨.ok stored, written, rfl⟩
      · exact fun error later _ written => ⟨.error error, written, rfl⟩

end Operation

/-! ## Runs -/

/-- What is known of an operation that has ended: its objects were there at some time. -/
def Known (backend : S3CatalogBackend) (operation : S3Operation)
    (result : Except CatalogError (Option (List StoredObject))) (history : List Bucket) : Prop :=
  ∀ objects, result = .ok (some objects) →
    (∀ stored ∈ objects,
      Once (fun bucket => backend.view bucket stored.key = some stored) history) ∧
    ∀ key payload, operation = .create key payload →
      ∃ stored, objects = [stored] ∧ stored.key = key ∧ stored.payload = payload

theorem Known.later {operation : S3Operation}
    {result : Except CatalogError (Option (List StoredObject))} {history after : List Bucket}
    (known : Known backend operation result history) (grows : history <:+ after) :
    Known backend operation result after := by
  intro objects same
  obtain ⟨stored, created⟩ := known objects same
  exact ⟨fun object member => (stored object member).later grows, created⟩

/-- A stored payload that a write answers with. -/
theorem known_of_written {before after : List Bucket} {key : String} {payload : Payload}
    {answer : Except CatalogError StoredObject} {objects : List StoredObject}
    (written : backend.Written before key payload answer after)
    (same : Except.ok (some objects) = answer.map fun stored => some [stored]) :
    ∃ stored, objects = [stored] ∧ stored.key = key ∧ stored.payload = payload ∧
      Once (fun bucket => backend.view bucket stored.key = some stored) after := by
  cases answer with
  | error error => cases same
  | ok stored =>
      cases same
      obtain ⟨payload, since⟩ := written
      have named : stored.key = key := by
        obtain ⟨bucket, _, _, _, holds⟩ := since
        exact view_key holds
      refine ⟨stored, rfl, named, payload, ?_⟩
      rw [named]
      exact since.once

theorem known_of_answer {operation : S3Operation}
    {result : Except CatalogError (Option (List StoredObject))} {before after : List Bucket}
    (answer : backend.Answer before operation result after) :
    Known backend operation result after := by
  rintro objects rfl
  cases operation with
  | read key =>
      refine ⟨fun stored member => ?_, fun _ _ same => by cases same⟩
      refine Once.mono (Since.once answer) fun bucket same => ?_
      cases same
      rw [Option.mem_toList] at member
      rw [view_key member]
      exact member
  | list directory rounds =>
      obtain ⟨-, there, -⟩ := answer
      exact ⟨fun stored member => (there stored member).once, fun _ _ same => by cases same⟩
  | create key payload =>
      obtain ⟨reply, written, same⟩ := answer
      obtain ⟨stored, rfl, named, content, once⟩ := known_of_written written same
      refine ⟨fun other member => ?_, fun _ _ same => ?_⟩
      · obtain rfl := List.mem_singleton.mp member
        exact once
      · cases same
        exact ⟨stored, rfl, named, content⟩
  | swap key payload expectedVersion =>
      obtain ⟨reply, written, same⟩ := answer
      obtain ⟨stored, rfl, -, -, once⟩ := known_of_written written same
      refine ⟨fun other member => ?_, fun _ _ same => by cases same⟩
      obtain rfl := List.mem_singleton.mp member
      exact once

section Runs

variable {Started : S3Operation → Prop} {start : Bucket}

/-- The histories of a catalog whose clients start operations of a kind. -/
abbrev Runs (backend : S3CatalogBackend) (Started : S3Operation → Prop) (start : Bucket) :
    List Bucket → Prop :=
  Lawful ((s3Service backend Started).Moves fun actor => backend.Step actor.1) start

theorem runs_step {bucket next : Bucket} {past : List Bucket}
    (move : (s3Service backend Started).Moves (fun actor => backend.Step actor.1)
      (bucket :: past) next) :
    ∃ operation, Started operation ∧ backend.Change operation bucket next := by
  rcases move with ⟨actor, _, _, same, change⟩ | ⟨_, change, _⟩
  · cases same
    exact ⟨actor.1, actor.2, change⟩
  · exact change.elim

/-- What is kept by every change is kept by every run. -/
theorem runs_keep {P : Bucket → Prop} {history : List Bucket}
    (runs : Runs backend Started start history)
    (kept : ∀ operation bucket next, Started operation → P bucket →
      backend.Change operation bucket next → P next) :
    ∀ later bucket past, history = later ++ bucket :: past → P bucket →
      ∀ next ∈ later, P next := by
  refine runs.induct (P := fun history => ∀ later bucket past,
    history = later ++ bucket :: past → P bucket → ∀ next ∈ later, P next) ?_ ?_
  · intro later bucket past split _ next member
    cases later with
    | nil => exact absurd member List.not_mem_nil
    | cons first rest =>
        have short := congrArg List.length split
        simp at short
  · intro world past next _ ih move later bucket earlier split holds other member
    cases later with
    | nil => exact absurd member List.not_mem_nil
    | cons first rest =>
        obtain ⟨rfl, follows⟩ := List.cons.inj split
        rcases List.mem_cons.mp member with rfl | before
        · obtain ⟨operation, started, change⟩ := runs_step move
          refine kept operation world other started ?_ change
          cases rest with
          | nil =>
              obtain ⟨rfl, -⟩ := List.cons.inj follows
              exact holds
          | cons middle others =>
              have reached := ih (middle :: others) bucket earlier follows holds
              obtain ⟨rfl, -⟩ := List.cons.inj follows
              exact reached world List.mem_cons_self
        · exact ih rest bucket earlier follows holds other before

/-- What is there stays there, in one version or another. -/
theorem change_isSome {operation : S3Operation} {bucket next : Bucket} {key : String}
    (change : backend.Change operation bucket next) (there : (bucket.get? key).isSome) :
    (next.get? key).isSome := by
  cases change with
  | keep => exact there
  | create named absent =>
      rw [Table.get?_insert]
      split
      · rfl
      · exact there
  | swap named expected =>
      rw [Table.get?_insert]
      split
      · rfl
      · exact there

theorem runs_kept {history : List Bucket} {first : Bucket} {past : List Bucket}
    (begins : history = first :: past) (bucket : Bucket) (earlier : List Bucket)
    (grows : history <:+ bucket :: earlier)
    (runs : Runs backend Started start (bucket :: earlier)) (key : String)
    (there : (first.get? key).isSome) : (bucket.get? key).isSome := by
  obtain ⟨later, split⟩ := grows
  rw [begins] at split
  have keeps := runs_keep (P := fun bucket => (bucket.get? key).isSome = true) runs
    (fun _ _ _ _ holds change => change_isSome change holds) later first past split.symm there
  cases later with
  | nil =>
      obtain ⟨rfl, -⟩ := List.cons.inj split
      exact there
  | cons newest rest =>
      obtain ⟨rfl, -⟩ := List.cons.inj split
      exact keeps newest List.mem_cons_self

/-- Every run of the catalog is lawful, and what its operations have answered is known. -/
theorem sound_run_s3 (start : Bucket)
    (events : List (Event S3Choice { operation : S3Operation // Started operation } Unit Empty)) :
    (s3Service backend Started).Sound (fun actor => backend.Step actor.1)
      (fun actor => Known backend actor.1) start
      ((s3Service backend Started).run events (initial start)) := by
  refine Sound.run (fun _ _ _ _ grows known => known.later grows) ?_ sound_initial events
  intro actor _ history _
  refine Keeps.mono (does_program actor.1 fun first past begins bucket earlier grows runs =>
    runs_kept begins bucket earlier grows runs) ?_
  exact fun result later _ answer => known_of_answer answer

/-- Whenever an operation starts in a run, and whatever the others do from then on, it makes only
its change, and its answer was so while it ran. -/
theorem s3_operations_answer (backend : S3CatalogBackend) (Started : S3Operation → Prop)
    (start : Bucket)
    (events : List (Event S3Choice { operation : S3Operation // Started operation } Unit Empty))
    (operation : S3Operation) :
    let history := ((s3Service backend Started).run events (initial start)).history
    Runs backend Started start history ∧
      Keeps S3Request.respond (Runs backend Started start) (backend.Step operation)
        (backend.Answer history operation) (operation.program backend) history := by
  refine ⟨(sound_run_s3 start events).lawful, ?_⟩
  exact does_program operation fun first past begins bucket earlier grows runs =>
    runs_kept begins bucket earlier grows runs

/-- An object that no swap names stays as it is once it is there. -/
theorem change_view {operation : S3Operation} {bucket next : Bucket} {key : String}
    {stored : StoredObject} (created : ∀ payload version, operation ≠ .swap key payload version)
    (change : backend.Change operation bucket next)
    (there : backend.view bucket key = some stored) : backend.view next key = some stored := by
  unfold view at there ⊢
  cases named : backend.objectKey key false with
  | error error =>
      rw [named] at there
      cases there
  | ok objectKey =>
      rw [named] at there
      simp only at there ⊢
      cases change with
      | keep => exact there
      | @create other otherKey payload _ etag written absent =>
          have differ : objectKey ≠ otherKey := by
            rintro rfl
            rw [absent] at there
            cases there
          rw [Table.get?_insert_ne _ differ]
          exact there
      | @swap other otherKey payload expectedVersion _ etag written expected =>
          have differ : objectKey ≠ otherKey := by
            rintro rfl
            have same := (objectKey_eq named).symm.trans (objectKey_eq written)
            have : key = other := by
              have := congrArg (removePrefix backend.catalogPrefix) same
              rwa [removePrefix_append, removePrefix_append] at this
            subst this
            exact created _ _ rfl
          rw [Table.get?_insert_ne _ differ]
          exact there

/-- Under a key that is only created, every run has at most one object, which stays, and every
operation that has answered with an object of this key has answered with that one; a creation that
has succeeded has succeeded with its own payload.  And every change of the bucket is that of an
operation whose condition held. -/
theorem s3_history_keeps {Started : S3Operation → Prop} {key : String}
    (created : ∀ payload version, ¬ Started (.swap key payload version))
    (backend : S3CatalogBackend) (start : Bucket)
    (events : List (Event S3Choice { operation : S3Operation // Started operation } Unit Empty)) :
    let config := (s3Service backend Started).run events (initial start)
    (∀ later bucket past, config.history = later ++ bucket :: past →
      ∀ stored, backend.view bucket key = some stored →
        ∀ next ∈ later, backend.view next key = some stored) ∧
    (∀ entry ∈ config.running, ∀ objects, entry.2.outcome = some (.ok (some objects)) →
      (∀ stored ∈ objects, stored.key = key → backend.view config.world key = some stored) ∧
      ∀ payload, entry.1.1 = .create key payload →
        ∃ stored, objects = [stored] ∧ stored.payload = payload ∧
          backend.view config.world key = some stored) ∧
    ∀ later next bucket past, config.history = later ++ next :: bucket :: past →
      ∃ operation, Started operation ∧ backend.Change operation bucket next := by
  intro config
  have sound : (s3Service backend Started).Sound (fun actor => backend.Step actor.1)
      (fun actor => Known backend actor.1) start config := sound_run_s3 start events
  have stays : ∀ later bucket past, config.history = later ++ bucket :: past →
      ∀ stored, backend.view bucket key = some stored →
        ∀ next ∈ later, backend.view next key = some stored := by
    intro later bucket past split stored there
    refine runs_keep (P := fun bucket => backend.view bucket key = some stored) sound.lawful ?_
      later bucket past split there
    intro operation bucket next started holds change
    refine change_view (fun payload version same => ?_) change holds
    exact created payload version (same ▸ started)
  have lasts : ∀ stored, Once (fun bucket => backend.view bucket key = some stored)
      config.history → backend.view config.world key = some stored := by
    rintro stored ⟨bucket, member, there⟩
    obtain ⟨later, past, split⟩ := List.append_of_mem member
    cases later with
    | nil =>
        obtain ⟨rfl, -⟩ := List.cons.inj split
        exact there
    | cons newest rest =>
        have now := stays _ _ _ split stored there newest List.mem_cons_self
        obtain ⟨rfl, -⟩ := List.cons.inj split
        exact now
  refine ⟨stays, fun entry member objects ended => ?_, ?_⟩
  · have known : Known backend entry.1.1 (.ok (some objects)) config.history := by
      have keeps := sound.running entry member
      obtain ⟨actor, process⟩ := entry
      cases process with
      | done value =>
          cases ended
          exact keeps
      | fail error => cases ended
      | ask request resume => cases ended
    obtain ⟨stored, creates⟩ := known objects rfl
    have held : ∀ object ∈ objects, object.key = key →
        backend.view config.world key = some object := by
      rintro object listed rfl
      exact lasts object (stored object listed)
    refine ⟨held, fun payload same => ?_⟩
    obtain ⟨object, rfl, named, content⟩ := creates key payload same
    exact ⟨object, rfl, content, held object List.mem_cons_self named⟩
  · intro later next bucket past split
    have runs := sound.lawful.suffix ⟨later, split.symm⟩ (List.cons_ne_nil _ _)
    cases runs with
    | next _ move => exact runs_step move

/-- The start of operations that do not swap the manifest of orders. -/
def OnlyCreated (operation : S3Operation) : Prop :=
  ∀ payload version, operation ≠ .swap "manifests/orders.json" payload version

def ordersBackend : S3CatalogBackend := ⟨"catalog/", 2⟩

/-- Two creations of one object; the put of the first is not answered and is sent again. -/
def racingCreations :
    List (Event S3Choice { operation : S3Operation // OnlyCreated operation } Unit Empty) :=
  [.start ⟨.create "manifests/orders.json" [], fun _ _ same => by cases same⟩ (),
    .start ⟨.create "manifests/orders.json" [0], fun _ _ same => by cases same⟩ (),
    .serve 0 ⟨.unanswered true, "first", 0⟩, .serve 1 ⟨.answered, "second", 0⟩,
    .serve 0 ⟨.answered, "third", 0⟩, .serve 0 ⟨.answered, "", 0⟩, .serve 1 ⟨.answered, "", 0⟩]

theorem s3_history_keeps_racing :
    let config := (s3Service ordersBackend OnlyCreated).run racingCreations (initial .empty)
    ∀ later bucket past, config.history = later ++ bucket :: past →
      ∀ stored, ordersBackend.view bucket "manifests/orders.json" = some stored →
        ∀ next ∈ later, ordersBackend.view next "manifests/orders.json" = some stored :=
  (s3_history_keeps (fun payload version started => started payload version rfl) ordersBackend
    .empty racingCreations).1

end Runs

end S3Catalog

end Justflow
