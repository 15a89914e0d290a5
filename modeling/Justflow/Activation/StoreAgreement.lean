import Justflow.Activation.Stores
import Mathlib.Data.List.Sort

/-!
# Agreement of the activation stores

The DynamoDB table holds what the SQL tables hold, each row as its item.  While no created record
is too long, no version leaves 64 bits and no update changes when an activation was created, every
operation returns the same from both, or raises the same kind of error, and a listing has every
activation of its scope once, in the same order.
-/

namespace Justflow.ActivationStores

variable {codec : RecordCodec} {host : DynamoHost} {tables next : SqliteTables}

/-- The item of a row. -/
def itemOf (key : StoreKey) (row : SqliteRow) : DynamoItem where
  recordType := key.kind
  scopeDigest := key.scopeDigest
  version := row.version
  activationOrder :=
    if key.kind = .activation then some (activationOrder row.createdAt key.identity) else none
  payload := row.payload

/-- The DynamoDB table with the same contents. -/
def mirror (tables : SqliteTables) : DynamoItems :=
  tables.mapValues itemOf

/-- Every row has the text of a record with the identity of its key. -/
def Sound (codec : RecordCodec) (tables : SqliteTables) : Prop :=
  ∀ key row, tables.get? key = some row →
    ∃ record, row.payload = codec.dumps key.kind record ∧ record.identity = key.identity

/-- What a sequence must meet at an operation, for the stores to agree on it. -/
def Admissible (codec : RecordCodec) (host : DynamoHost) (tables : SqliteTables) :
    StoreOperation → Prop
  | .create scopeDigest kind record => record.scopeDigest = scopeDigest →
      (codec.dumps kind record).utf8ByteSize ≤ maxActivationRecordBytes ∧
        host.numbers record.version = true ∧
        (tables.get? ⟨kind, scopeDigest, record.identity⟩ = none →
          record.version ≤ maxSqliteInteger)
  | .update scopeDigest kind record expectedVersion => record.scopeDigest = scopeDigest →
      record.version = expectedVersion + 1 →
      (codec.dumps kind record).utf8ByteSize ≤ maxActivationRecordBytes →
      record.version ≤ maxSqliteInteger ∧
        ∀ row, kind = .activation → tables.get? ⟨kind, scopeDigest, record.identity⟩ = some row →
          row.version = expectedVersion → row.createdAt = record.createdAt
  | .read _ _ _ | .listing _ _ => True

/-! ## Single records -/

theorem sound_empty : Sound codec .empty := by
  intro key row found
  cases found

theorem Sound.insert (sound : Sound codec tables) {key : StoreKey} {row : SqliteRow}
    {record : StoredRecord} (text : row.payload = codec.dumps key.kind record)
    (named : record.identity = key.identity) : Sound codec (tables.insert key row) := by
  intro other found h
  rw [Table.get?_insert] at h
  split at h
  next same =>
    subst same
    cases h
    exact ⟨record, text, named⟩
  next => exact sound other found h

theorem recordBytes_eq_ok {kind : RecordKind} {record : StoredRecord} {payload : String}
    (h : recordBytes codec kind record = .ok payload) :
    (codec.dumps kind record).utf8ByteSize ≤ maxActivationRecordBytes ∧
      payload = codec.dumps kind record := by
  rw [recordBytes] at h
  split at h
  · cases h
  · rename_i short
    exact ⟨Nat.not_lt.mp short, (Except.ok.inj h).symm⟩

/-- A text that is read back belongs to a record of the same identity. -/
theorem identity_of_storedRecord (sound : Sound codec tables) {key : StoreKey} {row : SqliteRow}
    (found : tables.get? key = some row) {scopeDigest : Digest} {record : StoredRecord}
    (read : storedRecord codec key.kind row.payload scopeDigest = .ok record) :
    record.identity = key.identity := by
  obtain ⟨original, text, named⟩ := sound key row found
  rw [storedRecord] at read
  split at read
  · cases read
  · split at read
    · cases read
    · rename_i parsed _ _
      cases bytes : recordBytes codec key.kind parsed with
      | error error => simp [bytes, Bind.bind, Except.bind] at read
      | ok again =>
          simp only [bytes, Bind.bind, Except.bind] at read
          split at read
          · cases read
          · rename_i same
            obtain rfl := Except.ok.inj read
            have dumped := (recordBytes_eq_ok bytes).2
            rw [← named]
            exact codec.identifies key.kind _ _
              (by rw [← dumped, ← text]; exact (not_not.mp same).symm)

@[simp]
theorem mirror_get? (key : StoreKey) :
    (mirror tables).get? key = (tables.get? key).map (itemOf key) :=
  Table.get?_mapValues _ _ _

theorem mirror_insert (key : StoreKey) (row : SqliteRow) :
    mirror (tables.insert key row) = (mirror tables).insert key (itemOf key row) :=
  Table.mapValues_insert _ _ _ _

theorem requireRecord_itemOf (key : StoreKey) (row : SqliteRow) :
    requireRecord (itemOf key row) key.scopeDigest key.kind = .ok () := by
  simp [requireRecord, itemOf]

theorem read_agrees (codec : RecordCodec) (tables : SqliteTables) (scopeDigest : Digest)
    (kind : RecordKind) (identity : Digest) :
    dynamoRead codec scopeDigest kind identity (mirror tables) =
      sqliteRead codec scopeDigest kind identity tables := by
  rw [dynamoRead, sqliteRead, mirror_get?]
  cases tables.get? ⟨kind, scopeDigest, identity⟩ with
  | none => rfl
  | some row =>
      have typed := requireRecord_itemOf ⟨kind, scopeDigest, identity⟩ row
      simp only [Option.map_some, typed]
      rfl

/-- What a repeated creation reads is the record that is there. -/
theorem read_existing (sound : Sound codec tables) {scopeDigest : Digest} {kind : RecordKind}
    {identity : Digest} {row : SqliteRow}
    (found : tables.get? ⟨kind, scopeDigest, identity⟩ = some row) :
    sqliteRead codec scopeDigest kind identity tables =
      storedRecord codec kind row.payload scopeDigest := by
  rw [sqliteRead, found]
  cases read : storedRecord codec kind row.payload scopeDigest with
  | error error => simp [read, Bind.bind, Except.bind]
  | ok record =>
      have named := identity_of_storedRecord sound found read
      simp only at named
      simp [read, Bind.bind, Except.bind, Pure.pure, Except.pure, named]

/-- The answers of the two stores, and the stores after them. -/
structure Alike (codec : RecordCodec) (sqlite : StoreAnswer × SqliteTables)
    (dynamo : StoreAnswer × DynamoItems) : Prop where
  answer : dynamo.1 = sqlite.1
  contents : dynamo.2 = mirror sqlite.2
  sound : Sound codec sqlite.2

theorem alike_error (sound : Sound codec tables) (error : ActivationStoreError) :
    Alike codec (written tables (.error error)) (written (mirror tables) (.error error)) :=
  ⟨rfl, rfl, sound⟩

theorem alike_kept (sound : Sound codec tables)
    (result : Except ActivationStoreError StoredRecord) :
    Alike codec (written tables (result.map (·, tables)))
      (written (mirror tables) (result.map (·, mirror tables))) := by
  cases result with
  | error error => exact alike_error sound error
  | ok record => exact ⟨rfl, rfl, sound⟩

theorem requireScope_of_eq {scopeDigest recordScope : Digest} (same : recordScope = scopeDigest) :
    requireScope scopeDigest recordScope = .ok () := by
  rw [requireScope, if_neg (not_not.mpr same)]

theorem requireScope_of_ne {scopeDigest recordScope : Digest} (other : recordScope ≠ scopeDigest) :
    requireScope scopeDigest recordScope = .error .integrity := by
  rw [requireScope, if_pos other]

theorem create_agrees (sound : Sound codec tables) {scopeDigest : Digest} {kind : RecordKind}
    {record : StoredRecord}
    (admissible : Admissible codec host tables (.create scopeDigest kind record)) :
    Alike codec (sqliteStep codec tables (.create scopeDigest kind record))
      (dynamoStep codec host (mirror tables) (.create scopeDigest kind record)) := by
  rw [sqliteStep, dynamoStep, sqliteCreate, dynamoCreate]
  by_cases owned : record.scopeDigest = scopeDigest
  · obtain ⟨short, wide, narrow⟩ := admissible owned
    have bytes : recordBytes codec kind record = .ok (codec.dumps kind record) := by
      rw [recordBytes, if_neg (Nat.not_lt.mpr short)]
    rw [requireScope_of_eq owned, bytes, wide, mirror_get?]
    cases found : tables.get? ⟨kind, scopeDigest, record.identity⟩ with
    | none =>
        simp only [Bind.bind, Except.bind, Bool.true_eq_false, if_false, Option.map_none,
          Option.isNone_none, if_true, Nat.not_lt.mpr (narrow found)]
        exact ⟨rfl, (mirror_insert ⟨kind, scopeDigest, record.identity⟩
          ⟨record.version, record.createdAt, codec.dumps kind record⟩).symm, sound.insert rfl rfl⟩
    | some row =>
        have same := read_agrees codec tables scopeDigest kind record.identity
        rw [read_existing sound found] at same
        simp only [Bind.bind, Except.bind, Bool.true_eq_false, if_false, Option.map_some,
          Option.isNone_some, same]
        cases storedRecord codec kind row.payload scopeDigest with
        | error error => exact alike_error sound error
        | ok existing => exact alike_kept sound (requireSameRequest existing record)
  · rw [requireScope_of_ne owned]
    exact alike_error sound .integrity

/-- Replacing an item and updating its row come to the same, when the creation stays. -/
theorem dynamoItem_eq (scopeDigest : Digest) {kind : RecordKind} {record : StoredRecord}
    {row : SqliteRow} (payload : String)
    (created : kind = .activation → row.createdAt = record.createdAt) :
    dynamoItem scopeDigest kind record payload =
      itemOf ⟨kind, scopeDigest, record.identity⟩
        { row with version := record.version, payload } := by
  by_cases h : kind = .activation
  · simp [dynamoItem, itemOf, h, created h]
  · simp [dynamoItem, itemOf, h]

theorem update_agrees (sound : Sound codec tables) {scopeDigest : Digest} {kind : RecordKind}
    {record : StoredRecord} {expectedVersion : Nat}
    (admissible : Admissible codec host tables (.update scopeDigest kind record expectedVersion)) :
    Alike codec (sqliteStep codec tables (.update scopeDigest kind record expectedVersion))
      (dynamoStep codec host (mirror tables)
        (.update scopeDigest kind record expectedVersion)) := by
  rw [sqliteStep, dynamoStep, sqliteUpdate, dynamoUpdate, mirror_get?]
  by_cases owned : record.scopeDigest = scopeDigest
  · rw [requireScope_of_eq owned]
    by_cases follows : record.version = expectedVersion + 1
    · cases bytes : recordBytes codec kind record with
      | error error =>
          simp only [Bind.bind, Except.bind, ne_eq, follows, not_true_eq_false, if_false]
          exact alike_error sound error
      | ok payload =>
          obtain ⟨short, text⟩ := recordBytes_eq_ok bytes
          obtain ⟨narrow, created⟩ := admissible owned follows short
          have wide := host.wide _ narrow
          rw [follows] at narrow
          rw [wide]
          cases found : tables.get? ⟨kind, scopeDigest, record.identity⟩ with
          | none =>
              simp only [Bind.bind, Except.bind, ne_eq, follows, not_true_eq_false, if_false,
                Nat.not_lt.mpr narrow, Bool.true_eq_false, Option.map_none]
              exact alike_error sound _
          | some row =>
              by_cases current : row.version = expectedVersion
              · simp only [Bind.bind, Except.bind, ne_eq, follows, not_true_eq_false, if_false,
                  Nat.not_lt.mpr narrow, Bool.true_eq_false, Option.map_some, itemOf, current,
                  if_true]
                refine ⟨rfl, ?_, sound.insert text rfl⟩
                have same := dynamoItem_eq scopeDigest payload fun kind =>
                  created row kind found current
                change (mirror tables).insert _ (dynamoItem scopeDigest kind record payload) =
                  mirror (tables.insert _ _)
                rw [same, mirror_insert, follows]
              · simp only [Bind.bind, Except.bind, ne_eq, follows, not_true_eq_false, if_false,
                  Nat.not_lt.mpr narrow, Bool.true_eq_false, Option.map_some, itemOf, current]
                exact alike_error sound _
    · simp only [Bind.bind, Except.bind, ne_eq, follows, not_false_eq_true, if_true]
      exact alike_error sound .integrity
  · rw [requireScope_of_ne owned]
    exact alike_error sound .integrity

/-! ## Listings -/

theorem IsoText.after_separator (self : IsoText) : ∀ c ∈ self.text.toList, '#' < c :=
  fun c mem => of_decide_eq_true (List.all_eq_true.mp self.behind c mem)

/-- The order of the index is that of the listing query. -/
theorem activationOrder_lt_iff (first second : IsoText) (x y : Digest) :
    activationOrder first x < activationOrder second y ↔
      first.text < second.text ∨ first.text = second.text ∧ x.text < y.text := by
  have split (createdAt identity : String) :
      (createdAt ++ ("#" ++ identity)).toList = createdAt.toList ++ '#' :: identity.toList := by
    rw [String.toList_append, String.toList_append]
    rfl
  rw [activationOrder, activationOrder, String.lt_iff_toList_lt, split, split,
    Paging.append_lt_append_of_behind first.after_separator second.after_separator, ← String.lt_iff_toList_lt,
    ← String.lt_iff_toList_lt, String.toList_inj]

def orderOf (row : StoreKey × SqliteRow) : String :=
  activationOrder row.2.createdAt row.1.identity

theorem rowOrder_iff (first second : StoreKey × SqliteRow) :
    RowOrder first second ↔ orderOf second ≤ orderOf first := by
  rw [← not_lt, orderOf, orderOf, activationOrder_lt_iff, RowOrder]
  constructor
  · rintro (later | ⟨same, behind⟩) (earlier | ⟨_, before⟩)
    · exact lt_asymm later earlier
    · simp_all
    · simp_all
    · exact absurd before (not_lt.mpr behind)
  · intro behind
    rcases lt_trichotomy second.2.createdAt.text first.2.createdAt.text with later | same | earlier
    · exact .inl later
    · exact .inr ⟨same, not_lt.mp fun before => behind (.inr ⟨same.symm, before⟩)⟩
    · exact absurd (.inl earlier) behind

/-- The index lists the rows in their order, each under its sort key. -/
theorem indexEntries_mirror (scopeDigest : Digest) (tables : SqliteTables) :
    indexEntries scopeDigest (mirror tables) =
      (orderedRows scopeDigest tables).map fun row => (orderOf row, itemOf row.1 row.2) := by
  have entries : ((mirror tables).entries.filterMap fun entry =>
      if entry.2.scopeDigest = scopeDigest then entry.2.activationOrder.map fun order =>
        (order, entry.2) else none) =
      (tables.entries.filter fun row =>
        row.1.kind = .activation ∧ row.1.scopeDigest = scopeDigest).map
          fun row => (orderOf row, itemOf row.1 row.2) := by
    rw [mirror, Table.mapValues, List.filterMap_map, ← List.filterMap_eq_map,
      List.filterMap_filter]
    refine List.filterMap_congr fun row _ => ?_
    by_cases owned : row.1.scopeDigest = scopeDigest
    · by_cases activation : row.1.kind = .activation
      · simp [itemOf, owned, activation, orderOf]
      · simp [itemOf, owned, activation]
    · simp [itemOf, owned]
  rw [indexEntries, entries, orderedRows]
  exact (List.map_insertionSort RowOrder _ _ _ fun first _ second _ =>
    rowOrder_iff first second).symm

/-- Rows of a listing differ in their identities. -/
theorem mem_orderedRows {scopeDigest : Digest} {row : StoreKey × SqliteRow} :
    row ∈ orderedRows scopeDigest tables ↔
      row ∈ tables.entries ∧ row.1.kind = .activation ∧ row.1.scopeDigest = scopeDigest := by
  rw [orderedRows, List.mem_insertionSort, List.mem_filter, decide_eq_true_eq]

instance : Std.Total RowOrder where
  total first second := by
    rw [rowOrder_iff, rowOrder_iff]
    exact le_total _ _

instance : IsTrans (StoreKey × SqliteRow) RowOrder where
  trans first second third := by
    rw [rowOrder_iff, rowOrder_iff, rowOrder_iff]
    exact fun hfirst hsecond => le_trans hsecond hfirst

/-- Activations of one scope under one identity are the same row. -/
theorem row_of_identity {scopeDigest : Digest} {first second : StoreKey × SqliteRow}
    (hfirst : first ∈ tables.entries ∧ first.1.kind = .activation ∧
      first.1.scopeDigest = scopeDigest)
    (hsecond : second ∈ tables.entries ∧ second.1.kind = .activation ∧
      second.1.scopeDigest = scopeDigest)
    (same : first.1.identity = second.1.identity) : first = second := by
  have key : first.1 = second.1 := by
    obtain ⟨⟨kind, scope, _⟩, _⟩ := first
    obtain ⟨⟨otherKind, otherScope, _⟩, _⟩ := second
    simp_all
  have found := Table.mem_entries_iff.mp hfirst.1
  rw [key, Table.mem_entries_iff.mp hsecond.1] at found
  exact Prod.ext key (Option.some.inj found).symm

/-- Rows of one scope under one sort key are the same row. -/
theorem eq_of_orderOf_eq {scopeDigest : Digest} {first second : StoreKey × SqliteRow}
    (hfirst : first ∈ orderedRows scopeDigest tables)
    (hsecond : second ∈ orderedRows scopeDigest tables) (same : orderOf first = orderOf second) :
    first = second := by
  have notBefore : ¬ orderOf first < orderOf second := same.not_lt
  have notAfter : ¬ orderOf second < orderOf first := same.not_gt
  rw [orderOf, orderOf, activationOrder_lt_iff] at notBefore notAfter
  have created : first.2.createdAt.text = second.2.createdAt.text :=
    le_antisymm (not_lt.mp fun h => notAfter (.inl h)) (not_lt.mp fun h => notBefore (.inl h))
  have identity : first.1.identity = second.1.identity := Digest.text_inj.mp
    (le_antisymm (not_lt.mp fun h => notAfter (.inr ⟨created.symm, h⟩))
      (not_lt.mp fun h => notBefore (.inr ⟨created, h⟩)))
  exact row_of_identity (mem_orderedRows.mp hfirst) (mem_orderedRows.mp hsecond) identity

/-- The rows of a listing are strictly descending. -/
theorem orderedRows_sorted (scopeDigest : Digest) (tables : SqliteTables) :
    (orderedRows scopeDigest tables).Pairwise
      fun first second => orderOf second < orderOf first := by
  have sorted : (orderedRows scopeDigest tables).Pairwise RowOrder :=
    List.pairwise_insertionSort RowOrder _
  have distinct : (orderedRows scopeDigest tables).Pairwise (· ≠ ·) := by
    rw [orderedRows]
    refine (List.perm_insertionSort RowOrder _).nodup_iff.mpr (List.Nodup.filter _ ?_)
    exact List.Nodup.of_map Prod.fst tables.nodup
  refine (sorted.and distinct).imp_of_mem fun hfirst hsecond ⟨ordered, differ⟩ => ?_
  exact lt_of_le_of_ne ((rowOrder_iff _ _).mp ordered) fun same =>
    differ (eq_of_orderOf_eq hfirst hsecond same.symm)

theorem after_iff (last row : StoreKey × SqliteRow) :
    After (last.2.createdAt.text, last.1.identity.text) row ↔ orderOf row < orderOf last := by
  rw [orderOf, orderOf, activationOrder_lt_iff, After]

/-- What the stores show of a row. -/
def shown (codec : RecordCodec) (scopeDigest : Digest) (row : StoreKey × SqliteRow) :
    Except ActivationStoreError StoredRecord :=
  storedRecord codec .activation row.2.payload scopeDigest

/-- The rows behind the one before `start`. -/
theorem rows_behind (scopeDigest : Digest) (tables : SqliteTables) {start : Nat}
    {last : StoreKey × SqliteRow} (found : (orderedRows scopeDigest tables)[start]? = some last) :
    (orderedRows scopeDigest tables).filter (fun row => orderOf row < orderOf last) =
      (orderedRows scopeDigest tables).drop (start + 1) :=
  Paging.filter_behind (R := fun last row => orderOf row < orderOf last) (fun _ => lt_irrefl _)
    (fun _ _ => lt_asymm) (orderedRows_sorted scopeDigest tables) found

def position (row : StoreKey × SqliteRow) : String × String :=
  (row.2.createdAt.text, row.1.identity.text)

theorem continues_page {Cursor : Type} (cursor : StoreKey × SqliteRow → Cursor)
    (ordered : List (StoreKey × SqliteRow)) {start size : Nat} (positive : 0 < size)
    (inside : start + size ≤ ordered.length) :
    Paging.Continues ordered size (Paging.keyset cursor ordered) start
      (((ordered.drop start).take size).getLast?.map cursor) := by
  have next := Paging.getLast?_page cursor positive inside
  rw [next]
  obtain ⟨more, rfl⟩ := Nat.exists_eq_succ_of_ne_zero (Nat.ne_of_gt positive)
  have short : start + more < ordered.length := by omega
  exact .inr ⟨cursor ordered[start + more], by simp [Paging.keyset, short], rfl, inside⟩

/-- The rows that a cursor leads to. -/
def rowsFrom (scopeDigest : Digest) (tables : SqliteTables) :
    Option (String × String) → List (StoreKey × SqliteRow)
  | none => orderedRows scopeDigest tables
  | some last => (orderedRows scopeDigest tables).filter fun row => After last row

theorem sqlitePage_of_valid {scopeDigest : Digest} {limit : Nat}
    (valid : 1 ≤ limit ∧ limit ≤ maxActivationPageSize) (cursor : Option (String × String)) :
    sqlitePage codec scopeDigest limit tables cursor =
      (((rowsFrom scopeDigest tables cursor).take limit).mapM (shown codec scopeDigest)).map
        (·, if limit < (rowsFrom scopeDigest tables cursor).length then
          ((rowsFrom scopeDigest tables cursor).take limit).getLast?.map position else none) := by
  rw [sqlitePage, if_neg (not_not.mpr valid)]
  cases cursor with
  | none =>
      change (List.mapM (shown codec scopeDigest)
        ((rowsFrom scopeDigest tables none).take limit) >>= fun _ => _) = _
      cases List.mapM (shown codec scopeDigest)
        ((rowsFrom scopeDigest tables none).take limit) <;> rfl
  | some last =>
      change (List.mapM (shown codec scopeDigest)
        ((rowsFrom scopeDigest tables (some last)).take limit) >>= fun _ => _) = _
      cases List.mapM (shown codec scopeDigest)
        ((rowsFrom scopeDigest tables (some last)).take limit) <;> rfl

/-- A page of the SQL listing shows the next rows. -/
theorem sqlitePage_eq {scopeDigest : Digest} {limit : Nat}
    (valid : 1 ≤ limit ∧ limit ≤ maxActivationPageSize) {start : Nat}
    (inside : start ≤ (orderedRows scopeDigest tables).length) :
    ∃ next, sqlitePage codec scopeDigest limit tables
        (Paging.keyset position (orderedRows scopeDigest tables) start) =
      ((((orderedRows scopeDigest tables).drop start).take limit).mapM
        (shown codec scopeDigest)).map (·, next) ∧
      Paging.Continues (orderedRows scopeDigest tables) limit
        (Paging.keyset position (orderedRows scopeDigest tables)) start next := by
  have rows : rowsFrom scopeDigest tables
      (Paging.keyset position (orderedRows scopeDigest tables) start) =
      (orderedRows scopeDigest tables).drop start := by
    cases start with
    | zero => rfl
    | succ start =>
        have found : (orderedRows scopeDigest tables)[start]? =
            some (orderedRows scopeDigest tables)[start] := List.getElem?_eq_getElem inside
        rw [← rows_behind scopeDigest tables found]
        simp only [Paging.keyset, found, Option.map_some, position, rowsFrom, after_iff]
  rw [sqlitePage_of_valid valid, rows]
  refine ⟨_, rfl, ?_⟩
  by_cases more : limit < ((orderedRows scopeDigest tables).drop start).length
  · rw [if_pos more]
    rw [List.length_drop] at more
    exact continues_page position _ valid.1 (by omega)
  · rw [if_neg more]
    rw [List.length_drop] at more
    exact .inl ⟨rfl, by omega⟩

/-- The entries of the index that a cursor leads to. -/
def entriesFrom (scopeDigest : Digest) (items : DynamoItems) :
    Option String → List (String × DynamoItem)
  | none => indexEntries scopeDigest items
  | some last => (indexEntries scopeDigest items).filter fun entry => entry.1 < last

/-- What the DynamoDB store shows of an entry. -/
def shownItem (codec : RecordCodec) (scopeDigest : Digest) (entry : String × DynamoItem) :
    Except ActivationStoreError StoredRecord := do
  requireRecord entry.2 scopeDigest .activation
  storedRecord codec .activation entry.2.payload scopeDigest

theorem dynamoPage_of_valid {scopeDigest : Digest} {limit : Nat}
    (valid : 1 ≤ limit ∧ limit ≤ maxActivationPageSize) (items : DynamoItems)
    (cursor : Option String) :
    dynamoPage codec host scopeDigest limit items cursor =
      (let entries := entriesFrom scopeDigest items cursor
       let size := min limit
         (host.pageItems ((indexEntries scopeDigest items).length - entries.length))
       ((entries.take size).mapM (shownItem codec scopeDigest)).map
        (·, if (entries.take size).length = size then
          (entries.take size).getLast?.map Prod.fst else none)) := by
  rw [dynamoPage, if_neg (not_not.mpr valid)]
  cases cursor with
  | none =>
      simp only [entriesFrom]
      change (List.mapM (shownItem codec scopeDigest) _ >>= fun _ => _) = _
      cases List.mapM (shownItem codec scopeDigest) _ <;> rfl
  | some last =>
      simp only [entriesFrom]
      change (List.mapM (shownItem codec scopeDigest) _ >>= fun _ => _) = _
      cases List.mapM (shownItem codec scopeDigest) _ <;> rfl

/-- The items of an index page are shown as their rows are. -/
theorem mapM_items {scopeDigest : Digest} (rows : List (StoreKey × SqliteRow))
    (among : ∀ row ∈ rows, row ∈ orderedRows scopeDigest tables) :
    (rows.map fun row => (orderOf row, itemOf row.1 row.2)).mapM (shownItem codec scopeDigest) =
      rows.mapM (shown codec scopeDigest) := by
  induction rows with
  | nil => rfl
  | cons row rest ih =>
      obtain ⟨-, kind, scope⟩ := mem_orderedRows.mp (among row List.mem_cons_self)
      have typed := requireRecord_itemOf row.1 row.2
      rw [kind, scope] at typed
      rw [List.map_cons, List.mapM_cons, List.mapM_cons,
        ih fun other mem => among other (List.mem_cons_of_mem row mem)]
      simp only [shownItem, typed]
      rfl

/-- A page of the index shows the next rows. -/
theorem dynamoPage_eq {scopeDigest : Digest} {limit : Nat}
    (valid : 1 ≤ limit ∧ limit ≤ maxActivationPageSize) {start : Nat}
    (inside : start ≤ (orderedRows scopeDigest tables).length) :
    ∃ next, dynamoPage codec host scopeDigest limit (mirror tables)
        (Paging.keyset orderOf (orderedRows scopeDigest tables) start) =
      ((((orderedRows scopeDigest tables).drop start).take (min limit (host.pageItems start))).mapM
        (shown codec scopeDigest)).map (·, next) ∧
      Paging.Continues (orderedRows scopeDigest tables) (min limit (host.pageItems start))
        (Paging.keyset orderOf (orderedRows scopeDigest tables)) start next := by
  have entries : entriesFrom scopeDigest (mirror tables)
      (Paging.keyset orderOf (orderedRows scopeDigest tables) start) =
      ((orderedRows scopeDigest tables).drop start).map
        fun row => (orderOf row, itemOf row.1 row.2) := by
    cases start with
    | zero => exact indexEntries_mirror scopeDigest tables
    | succ start =>
        have found : (orderedRows scopeDigest tables)[start]? =
            some (orderedRows scopeDigest tables)[start] := List.getElem?_eq_getElem inside
        rw [← rows_behind scopeDigest tables found]
        simp only [Paging.keyset, found, Option.map_some, entriesFrom, indexEntries_mirror,
          List.filter_map, Function.comp_def]
  have size : (indexEntries scopeDigest (mirror tables)).length -
      (((orderedRows scopeDigest tables).drop start).map
        fun row => (orderOf row, itemOf row.1 row.2)).length = start := by
    rw [indexEntries_mirror, List.length_map, List.length_map, List.length_drop]
    omega
  have positive : 0 < min limit (host.pageItems start) := by
    have := host.pages start
    omega
  rw [dynamoPage_of_valid valid]
  simp only [entries, size]
  rw [← List.map_take, mapM_items _ fun row mem => List.mem_of_mem_drop (List.mem_of_mem_take mem)]
  refine ⟨_, rfl, ?_⟩
  rw [List.length_map, List.getLast?_map, Option.map_map]
  split
  · rename_i full
    rw [List.length_take, List.length_drop] at full
    exact continues_page orderOf _ positive (by omega)
  · rename_i short
    rw [List.length_take, List.length_drop] at short
    exact .inl ⟨rfl, by omega⟩

/-- Following the cursors shows every row of the scope, in the order of the listing. -/
theorem follow_sqlite {scopeDigest : Digest} {limit : Nat}
    (valid : 1 ≤ limit ∧ limit ≤ maxActivationPageSize) :
    Paging.follow (sqlitePage codec scopeDigest limit tables) (tables.entries.length + 1) none =
      some ((orderedRows scopeDigest tables).mapM (shown codec scopeDigest)) := by
  have short : (orderedRows scopeDigest tables).length ≤ tables.entries.length := by
    rw [orderedRows, List.length_insertionSort]
    exact List.length_filter_le _ _
  exact Paging.follow_mapM (fun _ => valid.1) (fun start inside => sqlitePage_eq valid inside)
    (tables.entries.length + 1) 0 (Nat.zero_le _) (by omega)

theorem follow_dynamo {scopeDigest : Digest} {limit : Nat}
    (valid : 1 ≤ limit ∧ limit ≤ maxActivationPageSize) :
    Paging.follow (dynamoPage codec host scopeDigest limit (mirror tables))
        ((mirror tables).entries.length + 1) none =
      some ((orderedRows scopeDigest tables).mapM (shown codec scopeDigest)) := by
  have short : (orderedRows scopeDigest tables).length ≤ (mirror tables).entries.length := by
    rw [orderedRows, List.length_insertionSort, mirror, Table.mapValues, List.length_map]
    exact List.length_filter_le _ _
  have positive : ∀ start, 0 < min limit (host.pageItems start) := by
    intro start
    have := host.pages start
    omega
  exact Paging.follow_mapM positive (fun start inside => dynamoPage_eq valid inside)
    ((mirror tables).entries.length + 1) 0 (Nat.zero_le _) (by omega)

theorem listing_agrees (sound : Sound codec tables) (scopeDigest : Digest) (limit : Nat) :
    Alike codec (sqliteStep codec tables (.listing scopeDigest limit))
      (dynamoStep codec host (mirror tables) (.listing scopeDigest limit)) := by
  refine ⟨?_, rfl, sound⟩
  rw [sqliteStep, dynamoStep]
  by_cases valid : 1 ≤ limit ∧ limit ≤ maxActivationPageSize
  · rw [follow_sqlite valid, follow_dynamo valid]
  · simp only [Paging.follow, sqlitePage, dynamoPage, if_pos valid]
    rfl

/-! ## Sequences -/

theorem step_agrees (sound : Sound codec tables) {operation : StoreOperation}
    (admissible : Admissible codec host tables operation) :
    Alike codec (sqliteStep codec tables operation)
      (dynamoStep codec host (mirror tables) operation) := by
  cases operation with
  | create scopeDigest kind record => exact create_agrees sound admissible
  | read scopeDigest kind identity =>
      refine ⟨?_, rfl, sound⟩
      rw [sqliteStep, dynamoStep, read_agrees]
  | update scopeDigest kind record expectedVersion => exact update_agrees sound admissible
  | listing scopeDigest limit => exact listing_agrees sound scopeDigest limit

/-- Every operation of a sequence is admissible where it comes. -/
def AllAdmissible (codec : RecordCodec) (host : DynamoHost) :
    SqliteTables → List StoreOperation → Prop
  | _, [] => True
  | tables, operation :: rest => Admissible codec host tables operation ∧
      AllAdmissible codec host (sqliteStep codec tables operation).2 rest

theorem answers_agree (sound : Sound codec tables) {operations : List StoreOperation}
    (admissible : AllAdmissible codec host tables operations) :
    answers (dynamoStep codec host) (mirror tables) operations =
      answers (sqliteStep codec) tables operations := by
  induction operations generalizing tables with
  | nil => rfl
  | cons operation rest ih =>
      obtain ⟨first, later⟩ := admissible
      obtain ⟨answer, contents, kept⟩ := step_agrees sound first
      rw [answers, answers, answer, contents, ih kept later]

/-- The store after a sequence of operations. -/
def after {S : Type} (step : S → StoreOperation → StoreAnswer × S) (start : S)
    (operations : List StoreOperation) : S :=
  operations.foldl (fun state operation => (step state operation).2) start

theorem sound_after (sound : Sound codec tables) {before rest : List StoreOperation}
    (admissible : AllAdmissible codec host tables (before ++ rest)) :
    Sound codec (after (sqliteStep codec) tables before) := by
  induction before generalizing tables with
  | nil => exact sound
  | cons operation before ih =>
      obtain ⟨first, later⟩ := admissible
      exact ih (step_agrees sound first).sound later

/-- Every activation of the scope, and each of them once. -/
structure ListsOnce (tables : SqliteTables) (scopeDigest : Digest)
    (records : List StoredRecord) : Prop where
  distinct : (records.map StoredRecord.identity).Nodup
  complete : ∀ identity, identity ∈ records.map StoredRecord.identity ↔
    (tables.get? ⟨.activation, scopeDigest, identity⟩).isSome

theorem identities_of_shown (sound : Sound codec tables) {scopeDigest : Digest}
    {rows : List (StoreKey × SqliteRow)} {records : List StoredRecord}
    (among : ∀ row ∈ rows, row ∈ orderedRows scopeDigest tables)
    (read : rows.mapM (shown codec scopeDigest) = .ok records) :
    records.map StoredRecord.identity = rows.map fun row => row.1.identity := by
  induction rows generalizing records with
  | nil =>
      obtain rfl := Except.ok.inj read
      rfl
  | cons row rest ih =>
      rw [List.mapM_cons] at read
      cases first : shown codec scopeDigest row with
      | error error => simp [first, Bind.bind, Except.bind] at read
      | ok record =>
          cases later : rest.mapM (shown codec scopeDigest) with
          | error error => simp [first, later, Bind.bind, Except.bind] at read
          | ok others =>
              simp only [first, later, Bind.bind, Except.bind] at read
              obtain rfl := Except.ok.inj read
              obtain ⟨mem, kind, -⟩ := mem_orderedRows.mp (among row List.mem_cons_self)
              have named := identity_of_storedRecord sound (Table.mem_entries_iff.mp mem)
                (by rw [kind]; exact first)
              rw [List.map_cons, List.map_cons, named,
                ih (fun other mem => among other (List.mem_cons_of_mem row mem)) later]

theorem listing_once (sound : Sound codec tables) {scopeDigest : Digest} {limit : Nat}
    (valid : 1 ≤ limit ∧ limit ≤ maxActivationPageSize) :
    ∃ result, (sqliteStep codec tables (.listing scopeDigest limit)).1 = some result ∧
      ∀ records, result = .ok records → ListsOnce tables scopeDigest records := by
  refine ⟨_, follow_sqlite valid, fun records read => ?_⟩
  have identities := identities_of_shown sound (fun _ mem => mem) read
  constructor
  · rw [identities]
    refine List.Nodup.map_on (fun first hfirst second hsecond same => ?_) ?_
    · exact row_of_identity (mem_orderedRows.mp hfirst) (mem_orderedRows.mp hsecond) same
    · exact ((orderedRows_sorted scopeDigest tables).imp fun lt => by
        rintro rfl
        exact lt_irrefl _ lt)
  · intro identity
    rw [identities, List.mem_map, Option.isSome_iff_exists]
    constructor
    · rintro ⟨⟨⟨kind, scope, name⟩, row⟩, mem, rfl⟩
      obtain ⟨stored, rfl, rfl⟩ := mem_orderedRows.mp mem
      exact ⟨row, Table.mem_entries_iff.mp stored⟩
    · rintro ⟨row, stored⟩
      exact ⟨_, mem_orderedRows.mpr ⟨Table.mem_entries_iff.mpr stored, rfl, rfl⟩, rfl⟩

/-- While every operation is admissible, the two stores give the same answers, and a listing that
is followed to its end has every activation of its scope once. -/
theorem activation_stores_agree {operations : List StoreOperation}
    (admissible : AllAdmissible codec host .empty operations) :
    answers (dynamoStep codec host) .empty operations =
        answers (sqliteStep codec) .empty operations ∧
      ∀ before scopeDigest limit rest, operations = before ++ .listing scopeDigest limit :: rest →
        1 ≤ limit → limit ≤ maxActivationPageSize →
        ∃ result, (sqliteStep codec (after (sqliteStep codec) .empty before)
            (.listing scopeDigest limit)).1 = some result ∧
          ∀ records, result = .ok records →
            ListsOnce (after (sqliteStep codec) .empty before) scopeDigest records := by
  refine ⟨answers_agree sound_empty admissible, ?_⟩
  rintro before scopeDigest limit rest rfl positive bounded
  exact listing_once (sound_after sound_empty admissible) ⟨positive, bounded⟩

/-! ## An update that moves the creation -/

/-- The modelled fields of an activation record as JSON text, after the identity. -/
def plainRest (record : StoredRecord) : String :=
  "\",\"created_at\":\"" ++ record.createdAt.text ++ "\",\"idempotency_key_digest\":\""
    ++ record.idempotencyKeyDigest.text ++ "\",\"request_digest\":\""
    ++ record.requestDigest.text ++ "\",\"scope_digest\":\"" ++ record.scopeDigest.text
    ++ "\",\"version\":" ++ toString record.version ++ "\x7d"

def plainDumps (_ : RecordKind) (record : StoredRecord) : String :=
  "\x7b\"activation_id\":\"" ++ (record.identity.text ++ plainRest record)

theorem text_inside_inj {head first second x y : String} (sizes : first.length = second.length)
    (same : head ++ (first ++ x) = head ++ (second ++ y)) : first = second := by
  rw [String.ext_iff, String.toList_append, String.toList_append, String.toList_append,
    String.toList_append] at same
  exact String.toList_inj.mp (List.append_inj_left (List.append_cancel_left same)
    (by rw [String.length_toList, String.length_toList, sizes]))

def plainCodec (known : List StoredRecord) : RecordCodec where
  dumps := plainDumps
  modelValidateJson kind payload := known.find? fun record => plainDumps kind record = payload
  identifies _ record other same :=
    Digest.text_inj.mp (text_inside_inj (record.identity.length.trans other.identity.length.symm)
      same)

def plainHost : DynamoHost where
  numbers n := n < 10 ^ 38
  pageItems _ := 1000
  wide := by
    intro n narrow
    rw [maxSqliteInteger] at narrow
    exact decide_eq_true (by omega)
  pages _ := by decide

def tenth : IsoText := ⟨"2026-08-04T10:00:00+00:00", by decide⟩
def eleventh : IsoText := ⟨"2026-08-04T11:00:00+00:00", by decide⟩
def twelfth : IsoText := ⟨"2026-08-04T12:00:00+00:00", by decide⟩

def scopeOne : Digest := .ofNat 1

def recordOf (identity version : Nat) (createdAt : IsoText) : StoredRecord where
  identity := .ofNat identity
  scopeDigest := scopeOne
  requestDigest := ⟨.ofNat 7⟩
  idempotencyKeyDigest := .ofNat 8
  version := version
  createdAt := createdAt
  rest := .null

def knownRecords : List StoredRecord :=
  [recordOf 2 1 tenth, recordOf 3 1 eleventh, recordOf 2 2 twelfth, recordOf 2 2 tenth]

/-- The older of two activations is updated, and its creation moves behind the other one. -/
def movedCreation : List StoreOperation :=
  [.create scopeOne .activation (recordOf 2 1 tenth),
    .create scopeOne .activation (recordOf 3 1 eleventh),
    .update scopeOne .activation (recordOf 2 2 twelfth) 1,
    .listing scopeOne 100]

theorem moved_creation_disagrees :
    answers (dynamoStep (plainCodec knownRecords) plainHost) .empty movedCreation ≠
      answers (sqliteStep (plainCodec knownRecords)) .empty movedCreation := by
  decide +kernel

/-- The same update, with the creation kept. -/
def keptCreation : List StoreOperation :=
  [.create scopeOne .activation (recordOf 2 1 tenth),
    .create scopeOne .activation (recordOf 3 1 eleventh),
    .update scopeOne .activation (recordOf 2 2 tenth) 1,
    .listing scopeOne 1]

theorem activation_stores_agree_kept :
    answers (dynamoStep (plainCodec knownRecords) plainHost) .empty keptCreation =
        answers (sqliteStep (plainCodec knownRecords)) .empty keptCreation ∧
      ∃ result, (sqliteStep (plainCodec knownRecords)
          (after (sqliteStep (plainCodec knownRecords)) .empty (keptCreation.take 3))
          (.listing scopeOne 1)).1 = some result ∧
        ∀ records, result = .ok records →
          ListsOnce (after (sqliteStep (plainCodec knownRecords)) .empty (keptCreation.take 3))
            scopeOne records := by
  have created : ((after (sqliteStep (plainCodec knownRecords)) .empty (keptCreation.take 2)).get?
      ⟨.activation, scopeOne, .ofNat 2⟩).map SqliteRow.createdAt = some tenth := by
    decide +kernel
  have admissible : AllAdmissible (plainCodec knownRecords) plainHost .empty keptCreation := by
    refine ⟨fun _ => ⟨by decide +kernel, by decide +kernel, fun _ => by decide⟩,
      fun _ => ⟨by decide +kernel, by decide +kernel, fun _ => by decide⟩,
      fun _ _ _ => ⟨by decide, fun row _ found _ => ?_⟩, trivial, trivial⟩
    have same := congrArg (Option.map SqliteRow.createdAt) found
    exact Option.some.inj (same.symm.trans created)
  obtain ⟨agree, once⟩ := activation_stores_agree admissible
  exact ⟨agree, once (keptCreation.take 3) scopeOne 1 [] rfl (by decide) (by decide)⟩

end Justflow.ActivationStores
