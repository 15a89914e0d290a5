import Justflow.Engine.Relay
import Justflow.Library.Tables
import Mathlib.Data.List.Induction
import Mathlib.Order.Defs.LinearOrder

/-!
# Duplicate deliveries

`BoundedDeduplicationStore` remembers the messages that were completed, for a retention time and
up to a capacity, and holds a claim for every message that is being processed.  A claim is an
object of its own: settling compares objects, so a claim from before a `clear` settles nothing.

A run is a list of calls, newest first.  `Deduplicates` collects what holds after every run, and
`relay_deduplicates` adds the relay: each run of its deliveries makes a run of the store, and only
messages of an accepted signal are acknowledged.
-/

namespace Justflow

open Fields

inductive DuplicateState where
  | inFlight | completed | capacityExhausted
  deriving DecidableEq

/-- A claim, with the identity of the object. -/
structure DeliveryClaim where
  messageId : String
  identity : Nat
  deriving DecidableEq

/-- What the constructor has checked. -/
structure DeduplicationSettings (τ : Type) where
  capacity : Nat
  retentionSeconds : τ
  capacity_pos : 1 ≤ capacity

structure BoundedDeduplicationStore (τ : Type) where
  entries : Table String τ
  pending : Table String DeliveryClaim

/-- `popitem(last=False)` while the entries and the pending claims fill the capacity. -/
def evictOldest {α : Type} (capacity pending : Nat) : List α → List α
  | [] => []
  | oldest :: rest =>
      if capacity ≤ (oldest :: rest).length + pending then evictOldest capacity pending rest
      else oldest :: rest

theorem evictOldest_suffix {α : Type} (capacity pending : Nat) (l : List α) :
    evictOldest capacity pending l <:+ l := by
  induction l with
  | nil => exact List.suffix_refl _
  | cons oldest rest ih =>
      rw [evictOldest]
      split
      · exact ih.trans (List.suffix_cons _ _)
      · exact List.suffix_refl _

theorem length_evictOldest {α : Type} {capacity pending : Nat} (room : pending < capacity)
    (l : List α) : (evictOldest capacity pending l).length + pending < capacity := by
  induction l with
  | nil => simpa [evictOldest] using room
  | cons oldest rest ih =>
      rw [evictOldest]
      split
      · exact ih
      · omega

namespace BoundedDeduplicationStore

variable {τ : Type}

def empty : BoundedDeduplicationStore τ :=
  ⟨.empty, .empty⟩

section Calls

variable [LinearOrder τ] (settings : DeduplicationSettings τ)

/-- `_expire`. -/
def expire (self : BoundedDeduplicationStore τ) (now : τ) : BoundedDeduplicationStore τ where
  entries := ⟨self.entries.entries.filter fun entry => now < entry.2,
    (List.filter_sublist.map Prod.fst).nodup self.entries.nodup⟩
  pending := self.pending

/-- The loop that makes room for a claim. -/
def makeRoom (self : BoundedDeduplicationStore τ) : BoundedDeduplicationStore τ where
  entries :=
    ⟨evictOldest settings.capacity self.pending.entries.length self.entries.entries,
      ((evictOldest_suffix _ _ _).sublist.map Prod.fst).nodup self.entries.nodup⟩
  pending := self.pending

/-- `claim`; a granted claim is the object with the given identity. -/
def claim (self : BoundedDeduplicationStore τ) (messageId : String) (identity : Nat) (now : τ) :
    Except DuplicateState DeliveryClaim × BoundedDeduplicationStore τ :=
  let self := self.expire now
  if (self.entries.get? messageId).isSome then (.error .completed, self)
  else if (self.pending.get? messageId).isSome then (.error .inFlight, self)
  else if settings.capacity ≤ self.pending.entries.length then (.error .capacityExhausted, self)
  else
    let self := self.makeRoom settings
    let claim := ⟨messageId, identity⟩
    (.ok claim, { self with pending := self.pending.insert messageId claim })

def complete [Add τ] (self : BoundedDeduplicationStore τ) (claim : DeliveryClaim) (now : τ) :
    BoundedDeduplicationStore τ :=
  if self.pending.get? claim.messageId = some claim then
    { entries := self.entries.insert claim.messageId (now + settings.retentionSeconds)
      pending := self.pending.erase claim.messageId }
  else self

def release (self : BoundedDeduplicationStore τ) (claim : DeliveryClaim) :
    BoundedDeduplicationStore τ :=
  if self.pending.get? claim.messageId = some claim then
    { self with pending := self.pending.erase claim.messageId }
  else self

def clear (_ : BoundedDeduplicationStore τ) : BoundedDeduplicationStore τ :=
  empty

end Calls

end BoundedDeduplicationStore

/-! ## Runs -/

inductive DeduplicationCall (τ : Type) where
  | claim (messageId : String) (now : τ)
  | complete (claim : DeliveryClaim) (now : τ)
  | release (claim : DeliveryClaim)
  | clear

/-- The clock reading of a call. -/
def DeduplicationCall.reading {τ : Type} : DeduplicationCall τ → Option τ
  | .claim _ now | .complete _ now => some now
  | .release _ | .clear => none

/-- A store and the claims that it has granted, newest first. -/
structure DeduplicationLedger (τ : Type) where
  store : BoundedDeduplicationStore τ
  granted : List DeliveryClaim

namespace DeduplicationLedger

variable {τ : Type} [LinearOrder τ] [Add τ] (settings : DeduplicationSettings τ)

def empty : DeduplicationLedger τ :=
  ⟨.empty, []⟩

def answer (self : DeduplicationLedger τ) (messageId : String) (now : τ) :
    Except DuplicateState DeliveryClaim :=
  (self.store.claim settings messageId self.granted.length now).1

def call (self : DeduplicationLedger τ) : DeduplicationCall τ → DeduplicationLedger τ
  | .claim messageId now =>
      { store := (self.store.claim settings messageId self.granted.length now).2
        granted :=
          match self.answer settings messageId now with
          | .ok claim => claim :: self.granted
          | .error _ => self.granted }
  | .complete claim now => { self with store := self.store.complete settings claim now }
  | .release claim => { self with store := self.store.release claim }
  | .clear => { self with store := self.store.clear }

end DeduplicationLedger

namespace DeduplicationSettings

variable {τ : Type} [LinearOrder τ] [Add τ] (settings : DeduplicationSettings τ)

/-- The ledger after calls, newest first. -/
def ledgerAfter : List (DeduplicationCall τ) → DeduplicationLedger τ
  | [] => .empty
  | call :: past => (ledgerAfter past).call settings call

/-- A reading of a clock that has not gone back. -/
def Monotone (past : List (DeduplicationCall τ)) (now : τ) : Prop :=
  ∀ call ∈ past, ∀ before ∈ call.reading, before ≤ now

end DeduplicationSettings

/-! ## Steps of the store -/

namespace BoundedDeduplicationStore

variable {τ : Type} [LinearOrder τ] {settings : DeduplicationSettings τ}
  {self : BoundedDeduplicationStore τ} {messageId : String} {claim : DeliveryClaim} {now : τ}

/-- The ways a claim can go. -/
inductive ClaimStep (settings : DeduplicationSettings τ) (self : BoundedDeduplicationStore τ)
    (messageId : String) (identity : Nat) (now : τ) :
    Except DuplicateState DeliveryClaim × BoundedDeduplicationStore τ → Prop where
  | completed {expiresAt : τ} (found : (self.expire now).entries.get? messageId = some expiresAt) :
      ClaimStep settings self messageId identity now (.error .completed, self.expire now)
  | refused (state : DuplicateState) (other : state ≠ .completed) :
      ClaimStep settings self messageId identity now (.error state, self.expire now)
  | granted (fresh : (self.expire now).entries.get? messageId = none)
      (unclaimed : self.pending.get? messageId = none)
      (room : self.pending.entries.length < settings.capacity) :
      ClaimStep settings self messageId identity now (.ok ⟨messageId, identity⟩,
        { (self.expire now).makeRoom settings with
          pending := self.pending.insert messageId ⟨messageId, identity⟩ })

theorem claim_step (settings : DeduplicationSettings τ) (self : BoundedDeduplicationStore τ)
    (messageId : String) (identity : Nat) (now : τ) :
    ClaimStep settings self messageId identity now
      (self.claim settings messageId identity now) := by
  rw [BoundedDeduplicationStore.claim]
  dsimp only
  split
  · next found =>
      obtain ⟨expiresAt, found⟩ := Option.isSome_iff_exists.mp found
      exact .completed found
  · next fresh =>
      split
      · exact .refused _ (by decide)
      · next unclaimed =>
          split
          · exact .refused _ (by decide)
          · next room =>
              rw [Bool.not_eq_true, Option.isSome_eq_false_iff, Option.isNone_iff_eq_none]
                at fresh unclaimed
              exact .granted fresh unclaimed (Nat.lt_of_not_le room)

theorem get?_expire {expiresAt : τ} :
    (self.expire now).entries.get? messageId = some expiresAt ↔
      self.entries.get? messageId = some expiresAt ∧ now < expiresAt := by
  rw [← Table.mem_entries_iff, ← Table.mem_entries_iff]
  simp [expire]

omit [LinearOrder τ] in
/-- Making room takes entries away, and changes none. -/
theorem get?_of_makeRoom {expiresAt : τ}
    (found : (self.makeRoom settings).entries.get? messageId = some expiresAt) :
    self.entries.get? messageId = some expiresAt := by
  rw [← Table.mem_entries_iff] at found ⊢
  exact (evictOldest_suffix _ _ _).subset found

theorem length_expire : (self.expire now).entries.entries.length ≤ self.entries.entries.length :=
  List.length_filter_le _ _

theorem length_erase {κ α : Type} [DecidableEq κ] {table : Table κ α} {key : κ} {value : α}
    (found : table.get? key = some value) :
    (table.erase key).entries.length + 1 = table.entries.length := by
  have counted := Table.count_erase found (fun _ => true)
  simpa [Table.count] using counted

theorem length_insert {κ α : Type} [DecidableEq κ] {table : Table κ α} {key : κ}
    (fresh : table.get? key = none) (value : α) :
    (table.insert key value).entries.length = table.entries.length + 1 := by
  simp [Table.entries_insert_fresh fresh]

end BoundedDeduplicationStore

/-! ## Invariants -/

section Invariants

variable {τ : Type} [LinearOrder τ] [Add τ] {settings : DeduplicationSettings τ}

/-- What holds of every ledger. -/
structure DeduplicationLedger.Sound (settings : DeduplicationSettings τ)
    (ledger : DeduplicationLedger τ) : Prop where
  disjoint : ∀ messageId claim, ledger.store.pending.get? messageId = some claim →
    ledger.store.entries.get? messageId = none
  total :
    ledger.store.entries.entries.length + ledger.store.pending.entries.length ≤ settings.capacity
  named : ∀ messageId claim, ledger.store.pending.get? messageId = some claim →
    claim.messageId = messageId ∧ claim ∈ ledger.granted
  identities : ∀ claim ∈ ledger.granted, claim.identity < ledger.granted.length

open BoundedDeduplicationStore

omit [LinearOrder τ] [Add τ] in
theorem DeduplicationLedger.sound_empty : (.empty : DeduplicationLedger τ).Sound settings :=
  ⟨nofun, Nat.zero_le _, nofun, nofun⟩

namespace DeduplicationLedger.Sound

variable {self : DeduplicationLedger τ}

theorem claim (sound : self.Sound settings) (messageId : String) (now : τ) :
    (self.call settings (.claim messageId now)).Sound settings := by
  have shorter := @length_expire _ _ self.store now
  have step := claim_step settings self.store messageId self.granted.length now
  simp only [DeduplicationLedger.call, DeduplicationLedger.answer]
  generalize self.store.claim settings messageId self.granted.length now = outcome at step ⊢
  cases step with
  | completed | refused =>
      constructor
      · intro other found hfound
        rw [Option.eq_none_iff_forall_ne_some]
        intro expiresAt held
        have absent := sound.disjoint other found hfound
        rw [(get?_expire.mp held).1] at absent
        cases absent
      · exact le_trans (Nat.add_le_add_right shorter _) sound.total
      · exact sound.named
      · exact sound.identities
  | granted fresh unclaimed room =>
      constructor
      · intro other found hfound
        rw [Option.eq_none_iff_forall_ne_some]
        intro expiresAt held
        have kept := get?_of_makeRoom held
        rw [Table.get?_insert] at hfound
        split at hfound
        · next same =>
            subst same
            rw [fresh] at kept
            cases kept
        · have absent := sound.disjoint other found hfound
          rw [(get?_expire.mp kept).1] at absent
          cases absent
      · have left := length_evictOldest room (self.store.expire now).entries.entries
        rw [length_insert unclaimed]
        exact left
      · intro other found hfound
        rw [Table.get?_insert] at hfound
        split at hfound
        · next same =>
            cases hfound
            exact ⟨same.symm, List.mem_cons_self⟩
        · obtain ⟨named, granted⟩ := sound.named other found hfound
          exact ⟨named, List.mem_cons_of_mem _ granted⟩
      · intro found hfound
        rw [List.length_cons]
        rcases List.mem_cons.mp hfound with rfl | hfound
        · exact Nat.lt_succ_self _
        · exact Nat.lt_succ_of_lt (sound.identities found hfound)

theorem complete (sound : self.Sound settings) (claim : DeliveryClaim) (now : τ) :
    (self.call settings (.complete claim now)).Sound settings := by
  rw [DeduplicationLedger.call, BoundedDeduplicationStore.complete]
  split
  · next held =>
      have fresh := sound.disjoint _ _ held
      constructor
      · intro other found hfound
        rw [Table.get?_erase] at hfound
        split at hfound
        · cases hfound
        · next different =>
            rw [Table.get?_insert_ne _ different]
            exact sound.disjoint other found hfound
      · have total := sound.total
        have shorter := length_erase held
        rw [length_insert fresh]
        dsimp only
        omega
      · intro other found hfound
        rw [Table.get?_erase] at hfound
        split at hfound
        · cases hfound
        · exact sound.named other found hfound
      · exact sound.identities
  · exact sound

theorem release (sound : self.Sound settings) (claim : DeliveryClaim) :
    (self.call settings (.release claim)).Sound settings := by
  rw [DeduplicationLedger.call, BoundedDeduplicationStore.release]
  split
  · next held =>
      constructor
      · intro other found hfound
        rw [Table.get?_erase] at hfound
        split at hfound
        · cases hfound
        · exact sound.disjoint other found hfound
      · have total := sound.total
        have shorter := length_erase held
        dsimp only
        omega
      · intro other found hfound
        rw [Table.get?_erase] at hfound
        split at hfound
        · cases hfound
        · exact sound.named other found hfound
      · exact sound.identities
  · exact sound

theorem call (sound : self.Sound settings) (operation : DeduplicationCall τ) :
    (self.call settings operation).Sound settings := by
  cases operation with
  | claim messageId now => exact sound.claim messageId now
  | complete claim now => exact sound.complete claim now
  | release claim => exact sound.release claim
  | clear => exact ⟨nofun, Nat.zero_le _, nofun, sound.identities⟩

end DeduplicationLedger.Sound

theorem sound_ledgerAfter (calls : List (DeduplicationCall τ)) :
    (settings.ledgerAfter calls).Sound settings := by
  induction calls with
  | nil => exact DeduplicationLedger.sound_empty
  | cons operation past ih => exact ih.call operation

/-! ## Claims from before a `clear` -/

theorem granted_call_suffix (self : DeduplicationLedger τ) (operation : DeduplicationCall τ) :
    self.granted <:+ (self.call settings operation).granted := by
  cases operation with
  | claim messageId now =>
      rw [DeduplicationLedger.call]
      cases self.answer settings messageId now with
      | ok claim => exact List.suffix_cons _ _
      | error state => exact List.suffix_refl _
  | complete claim now => exact List.suffix_refl _
  | release claim => exact List.suffix_refl _
  | clear => exact List.suffix_refl _

/-- After a `clear`, whatever is pending was granted after it. -/
theorem pending_after_clear (later earlier : List (DeduplicationCall τ)) :
    (settings.ledgerAfter earlier).granted.length ≤
        (settings.ledgerAfter (later ++ .clear :: earlier)).granted.length ∧
      ∀ messageId claim,
        (settings.ledgerAfter (later ++ .clear :: earlier)).store.pending.get? messageId =
          some claim → (settings.ledgerAfter earlier).granted.length ≤ claim.identity := by
  induction later with
  | nil => exact ⟨le_refl _, nofun⟩
  | cons operation past ih =>
      obtain ⟨grows, newer⟩ := ih
      refine ⟨le_trans grows (granted_call_suffix _ operation).length_le, ?_⟩
      intro messageId claim held
      rw [List.cons_append, DeduplicationSettings.ledgerAfter] at held
      cases operation with
      | claim other now =>
          have step := claim_step settings
            (settings.ledgerAfter (past ++ .clear :: earlier)).store other
            (settings.ledgerAfter (past ++ .clear :: earlier)).granted.length now
          simp only [DeduplicationLedger.call] at held
          generalize BoundedDeduplicationStore.claim settings _ other _ now = outcome at step held
          cases step with
          | completed | refused => exact newer messageId claim held
          | granted =>
              rw [Table.get?_insert] at held
              split at held
              · cases held
                exact grows
              · exact newer messageId claim held
      | complete other now =>
          rw [DeduplicationLedger.call, BoundedDeduplicationStore.complete] at held
          split at held
          · rw [Table.get?_erase] at held
            split at held
            · cases held
            · exact newer messageId claim held
          · exact newer messageId claim held
      | release other =>
          rw [DeduplicationLedger.call, BoundedDeduplicationStore.release] at held
          split at held
          · rw [Table.get?_erase] at held
            split at held
            · cases held
            · exact newer messageId claim held
          · exact newer messageId claim held
      | clear => cases held

/-- A claim from before a `clear` settles nothing after it. -/
theorem settles_nothing (later earlier : List (DeduplicationCall τ)) {claim : DeliveryClaim}
    (old : claim ∈ (settings.ledgerAfter earlier).granted) (now : τ) :
    let store := (settings.ledgerAfter (later ++ .clear :: earlier)).store
    store.complete settings claim now = store ∧ store.release claim = store := by
  intro store
  have stale : store.pending.get? claim.messageId ≠ some claim := by
    intro held
    have newer := (pending_after_clear later earlier).2 _ claim held
    have older := (sound_ledgerAfter earlier).identities claim old
    omega
  exact ⟨if_neg stale, if_neg stale⟩

/-! ## Completed messages -/

/-- The call drops the completion of a message that has not expired. -/
def DeduplicationLedger.Drops (settings : DeduplicationSettings τ) (self : DeduplicationLedger τ)
    (messageId : String) : DeduplicationCall τ → Prop
  | .claim other now =>
      (self.store.expire now).entries.get? messageId ≠ none ∧
        (self.call settings (.claim other now)).store.entries.get? messageId = none
  | .clear => True
  | .complete _ _ | .release _ => False

/-- The message was completed at a time, and has been neither evicted nor cleared since. -/
inductive CompletedSince (settings : DeduplicationSettings τ) (messageId : String) (time : τ) :
    List (DeduplicationCall τ) → Prop where
  | here {claim : DeliveryClaim} {past : List (DeduplicationCall τ)}
      (named : claim.messageId = messageId)
      (held : (settings.ledgerAfter past).store.pending.get? messageId = some claim) :
      CompletedSince settings messageId time (.complete claim time :: past)
  | later {operation : DeduplicationCall τ} {past : List (DeduplicationCall τ)}
      (before : CompletedSince settings messageId time past)
      (kept : ¬ (settings.ledgerAfter past).Drops settings messageId operation) :
      CompletedSince settings messageId time (operation :: past)

theorem CompletedSince.reading {messageId : String} {time : τ}
    {past : List (DeduplicationCall τ)} (h : CompletedSince settings messageId time past) :
    ∃ operation ∈ past, time ∈ operation.reading := by
  induction h with
  | here => exact ⟨_, List.mem_cons_self, rfl⟩
  | later _ _ ih =>
      obtain ⟨operation, mem, reading⟩ := ih
      exact ⟨operation, List.mem_cons_of_mem _ mem, reading⟩

/-- An entry after a call was there before, or the call is its completion. -/
theorem entry_of_call {ledger : DeduplicationLedger τ} {operation : DeduplicationCall τ}
    {messageId : String} {expiresAt : τ}
    (found : (ledger.call settings operation).store.entries.get? messageId = some expiresAt) :
    ledger.store.entries.get? messageId = some expiresAt ∨
      ∃ claim now, operation = .complete claim now ∧ claim.messageId = messageId ∧
        ledger.store.pending.get? messageId = some claim ∧
          expiresAt = now + settings.retentionSeconds := by
  cases operation with
  | claim other now =>
      have step := claim_step settings ledger.store other ledger.granted.length now
      simp only [DeduplicationLedger.call] at found
      generalize BoundedDeduplicationStore.claim settings _ other _ now = outcome at step found
      cases step with
      | completed | refused => exact .inl (get?_expire.mp found).1
      | granted => exact .inl (get?_expire.mp (get?_of_makeRoom found)).1
  | complete claim now =>
      rw [DeduplicationLedger.call, BoundedDeduplicationStore.complete] at found
      split at found
      · next held =>
          rw [Table.get?_insert] at found
          split at found
          · next same =>
              cases found
              subst same
              exact .inr ⟨claim, now, rfl, rfl, held, rfl⟩
          · exact .inl found
      · exact .inl found
  | release claim =>
      rw [DeduplicationLedger.call, BoundedDeduplicationStore.release] at found
      split at found <;> exact .inl found
  | clear => cases found

theorem not_drops {ledger : DeduplicationLedger τ} {operation : DeduplicationCall τ}
    {messageId : String} {expiresAt : τ}
    (found : (ledger.call settings operation).store.entries.get? messageId = some expiresAt) :
    ¬ ledger.Drops settings messageId operation := by
  cases operation with
  | claim other now =>
      rintro ⟨_, dropped⟩
      rw [found] at dropped
      cases dropped
  | complete claim now => exact id
  | release claim => exact id
  | clear => cases found

/-- Every entry comes from a completion. -/
theorem completedSince_of_entry (calls : List (DeduplicationCall τ)) {messageId : String}
    {expiresAt : τ}
    (found : (settings.ledgerAfter calls).store.entries.get? messageId = some expiresAt) :
    ∃ time, CompletedSince settings messageId time calls ∧
      expiresAt = time + settings.retentionSeconds := by
  induction calls with
  | nil => cases found
  | cons operation past ih =>
      rcases entry_of_call found with before | ⟨claim, now, rfl, named, held, expires⟩
      · obtain ⟨time, completed, expires⟩ := ih before
        exact ⟨time, completed.later (not_drops found), expires⟩
      · exact ⟨now, .here named held, expires⟩

omit [Add τ] in
/-- `completed` is answered for an entry that has not expired. -/
theorem current_of_completed {ledger : DeduplicationLedger τ} {messageId : String} {now : τ}
    (answer : ledger.answer settings messageId now = .error .completed) :
    ∃ expiresAt, ledger.store.entries.get? messageId = some expiresAt ∧ now < expiresAt := by
  have step := claim_step settings ledger.store messageId ledger.granted.length now
  rw [DeduplicationLedger.answer] at answer
  generalize BoundedDeduplicationStore.claim settings _ messageId _ now = outcome at step answer
  cases step with
  | completed found => exact ⟨_, get?_expire.mp found⟩
  | refused state other =>
      cases answer
      exact absurd rfl other
  | granted => cases answer

omit [Add τ] in
theorem messageId_of_granted {ledger : DeduplicationLedger τ} {messageId : String} {now : τ}
    {claim : DeliveryClaim} (answer : ledger.answer settings messageId now = .ok claim) :
    claim.messageId = messageId := by
  have step := claim_step settings ledger.store messageId ledger.granted.length now
  rw [DeduplicationLedger.answer] at answer
  generalize BoundedDeduplicationStore.claim settings _ messageId _ now = outcome at step answer
  cases step with
  | completed | refused => cases answer
  | granted =>
      cases answer
      rfl

/-- A claim is answered with `completed` only within the retention. -/
theorem completed_within {calls : List (DeduplicationCall τ)} {messageId : String} {now : τ}
    (monotone : DeduplicationSettings.Monotone calls now)
    (answer : (settings.ledgerAfter calls).answer settings messageId now = .error .completed) :
    ∃ time, CompletedSince settings messageId time calls ∧ time ≤ now ∧
      now < time + settings.retentionSeconds := by
  obtain ⟨expiresAt, found, current⟩ := current_of_completed answer
  obtain ⟨time, completed, rfl⟩ := completedSince_of_entry calls found
  obtain ⟨operation, mem, reading⟩ := completed.reading
  exact ⟨time, completed, monotone operation mem time reading, current⟩

end Invariants

/-! ## The relay -/

/-- Where a delivery is in `_process_message`. -/
inductive DeliveryStage where
  | received
  /-- In the `try` block, before Temporal has answered. -/
  | signalling (envelope : ResponseEnvelope) (claim : DeliveryClaim)
  /-- The signal was accepted; the claim is about to be completed. -/
  | completing (claim : DeliveryClaim)
  /-- In the `finally` block; without an outcome if an exception passes through it. -/
  | releasing (claim : DeliveryClaim) (outcome : Option ProcessingOutcome)
  | settled (outcome : Option ProcessingOutcome)

structure RelayDelivery where
  body : DecodedText
  stage : DeliveryStage

/-- A relay at work: its store, its deliveries, and the envelopes whose signal was accepted. -/
structure RelayRun (τ : Type) where
  ledger : DeduplicationLedger τ
  deliveries : List RelayDelivery
  accepted : List ResponseEnvelope

inductive RelayEvent (τ : Type) where
  | receive (body : DecodedText)
  /-- A delivery goes on, at a clock reading and with the answer of Temporal. -/
  | step (index : Nat) (now : τ) (reply : SignalReply)
  /-- A delivery is cancelled; a signal under way may have been accepted. -/
  | cancel (index : Nat) (arrived : Bool)
  /-- `stop`. -/
  | clear

namespace RelayRun

section Steps

variable {τ : Type} [LinearOrder τ] [Add τ] (relay : Relay) (settings : DeduplicationSettings τ)

def empty : RelayRun τ :=
  ⟨.empty, [], []⟩

def moved (self : RelayRun τ) (index : Nat) (delivery : RelayDelivery) (stage : DeliveryStage) :
    RelayRun τ :=
  { self with deliveries := self.deliveries.set index { delivery with stage } }

/-- The next step of a delivery, each up to the point where another one can run. -/
def advance (self : RelayRun τ) (index : Nat) (delivery : RelayDelivery) (now : τ)
    (reply : SignalReply) : RelayRun τ :=
  match delivery.stage with
  | .received =>
      match relay.readEnvelope delivery.body with
      | .error .malformed => self.moved index delivery (.settled (some Relay.malformedResponse))
      | .error .escaped => self.moved index delivery (.settled none)
      | .ok envelope =>
          let messageId := envelope.common.messageId
          let after := { self with ledger := self.ledger.call settings (.claim messageId now) }
          match self.ledger.answer settings messageId now with
          | .error .completed => after.moved index delivery (.settled (some .ack))
          | .error _ => after.moved index delivery (.settled
              (some (.retry "response delivery is in flight or capacity is exhausted")))
          | .ok claim => after.moved index delivery (.signalling envelope claim)
  | .signalling envelope claim =>
      let processed := relay.deliver reply envelope
      if processed.outcome = some .ack then
        { self with accepted := envelope :: self.accepted }.moved index delivery (.completing claim)
      else self.moved index delivery (.releasing claim processed.outcome)
  | .completing claim =>
      { self with ledger := self.ledger.call settings (.complete claim now) }.moved index delivery
        (.releasing claim (some .ack))
  | .releasing claim outcome =>
      { self with ledger := self.ledger.call settings (.release claim) }.moved index delivery
        (.settled outcome)
  | .settled _ => self

/-- A cancellation goes through the `finally` block, where `shield` lets the release finish. -/
def cancel (self : RelayRun τ) (index : Nat) (delivery : RelayDelivery) (arrived : Bool) :
    RelayRun τ :=
  match delivery.stage with
  | .received => self.moved index delivery (.settled none)
  | .signalling envelope claim =>
      { self with accepted := if arrived then envelope :: self.accepted else self.accepted }.moved
        index delivery (.releasing claim none)
  | .completing claim | .releasing claim _ => self.moved index delivery (.releasing claim none)
  | .settled _ => self

def handle (self : RelayRun τ) : RelayEvent τ → RelayRun τ
  | .receive body => { self with deliveries := self.deliveries ++ [⟨body, .received⟩] }
  | .step index now reply =>
      match self.deliveries[index]? with
      | some delivery => self.advance relay settings index delivery now reply
      | none => self
  | .cancel index arrived =>
      match self.deliveries[index]? with
      | some delivery => self.cancel index delivery arrived
      | none => self
  | .clear => { self with ledger := self.ledger.call settings .clear }

def run (self : RelayRun τ) (events : List (RelayEvent τ)) : RelayRun τ :=
  events.foldl (handle relay settings) self

end Steps

end RelayRun

/-- The clock reading of a step. -/
def RelayEvent.reading {τ : Type} : RelayEvent τ → Option τ
  | .step _ now _ => some now
  | .receive _ | .cancel _ _ | .clear => none

/-! ## What runs keep -/

section Runs

variable {τ : Type} [LinearOrder τ] [Add τ] {relay : Relay} {settings : DeduplicationSettings τ}

/-- Temporal accepted a signal for an envelope with this message id. -/
def SignalAccepted (accepted : List ResponseEnvelope) (messageId : String) : Prop :=
  ∃ envelope ∈ accepted, envelope.common.messageId = messageId

/-- The delivery carries an envelope, and a signal with its message id was accepted. -/
def Acknowledgeable (relay : Relay) (accepted : List ResponseEnvelope) (body : DecodedText) :
    Prop :=
  ∃ envelope, relay.readEnvelope body = .ok envelope ∧
    SignalAccepted accepted envelope.common.messageId

/-- What the stage of a delivery says. -/
def DeliveryStage.Sound (relay : Relay) (accepted : List ResponseEnvelope) (body : DecodedText) :
    DeliveryStage → Prop
  | .received => True
  | .signalling envelope claim =>
      relay.readEnvelope body = .ok envelope ∧ claim.messageId = envelope.common.messageId
  | .completing claim =>
      SignalAccepted accepted claim.messageId ∧ Acknowledgeable relay accepted body
  | .releasing _ outcome | .settled outcome =>
      outcome = some .ack → Acknowledgeable relay accepted body

structure RelayRun.Sound (relay : Relay) (run : RelayRun τ) : Prop where
  deliveries : ∀ delivery ∈ run.deliveries,
    delivery.stage.Sound relay run.accepted delivery.body
  entries : ∀ messageId expiresAt, run.ledger.store.entries.get? messageId = some expiresAt →
    SignalAccepted run.accepted messageId

theorem SignalAccepted.mono {accepted later : List ResponseEnvelope} {messageId : String}
    (h : SignalAccepted accepted messageId) (grows : accepted ⊆ later) :
    SignalAccepted later messageId := by
  obtain ⟨envelope, mem, named⟩ := h
  exact ⟨envelope, grows mem, named⟩

theorem Acknowledgeable.mono {accepted later : List ResponseEnvelope} {body : DecodedText}
    (h : Acknowledgeable relay accepted body) (grows : accepted ⊆ later) :
    Acknowledgeable relay later body := by
  obtain ⟨envelope, read, known⟩ := h
  exact ⟨envelope, read, known.mono grows⟩

theorem DeliveryStage.Sound.mono {accepted later : List ResponseEnvelope} {body : DecodedText}
    {stage : DeliveryStage} (h : stage.Sound relay accepted body) (grows : accepted ⊆ later) :
    stage.Sound relay later body := by
  cases stage with
  | received => trivial
  | signalling envelope claim => exact h
  | completing claim => exact ⟨h.1.mono grows, h.2.mono grows⟩
  | releasing claim outcome => exact fun acked => (h acked).mono grows
  | settled outcome => exact fun acked => (h acked).mono grows

namespace RelayRun.Sound

omit [LinearOrder τ] [Add τ] in
/-- A delivery moves to a sound stage, and nothing that was accepted is forgotten. -/
theorem moved {run after : RelayRun τ} (sound : run.Sound relay) {index : Nat}
    {delivery : RelayDelivery} {stage : DeliveryStage} (same : after.deliveries = run.deliveries)
    (grows : run.accepted ⊆ after.accepted)
    (entries : ∀ messageId expiresAt,
      after.ledger.store.entries.get? messageId = some expiresAt →
        SignalAccepted after.accepted messageId)
    (next : stage.Sound relay after.accepted delivery.body) :
    (after.moved index delivery stage).Sound relay := by
  refine ⟨fun other hother => ?_, entries⟩
  rw [RelayRun.moved, same] at hother
  rcases List.mem_or_eq_of_mem_set hother with before | rfl
  · exact (sound.deliveries other before).mono grows
  · exact next

/-- A call of the store other than a completion makes no entry. -/
theorem entries_call {run : RelayRun τ} (sound : run.Sound relay)
    {operation : DeduplicationCall τ}
    (completes : ∀ claim now, operation = .complete claim now →
      SignalAccepted run.accepted claim.messageId) :
    ∀ messageId expiresAt,
      (run.ledger.call settings operation).store.entries.get? messageId = some expiresAt →
        SignalAccepted run.accepted messageId := by
  intro messageId expiresAt found
  rcases entry_of_call found with before | ⟨claim, now, same, rfl, _, _⟩
  · exact sound.entries messageId expiresAt before
  · exact completes claim now same

theorem advance {run : RelayRun τ} (sound : run.Sound relay) {index : Nat}
    {delivery : RelayDelivery} (mem : delivery ∈ run.deliveries) (now : τ) (reply : SignalReply) :
    (run.advance relay settings index delivery now reply).Sound relay := by
  have stage := sound.deliveries delivery mem
  obtain ⟨body, at_⟩ := delivery
  cases at_ with
  | received =>
      simp only [RelayRun.advance]
      cases read : relay.readEnvelope body with
      | error failure =>
          cases failure with
          | malformed => exact sound.moved rfl (fun _ => id) sound.entries nofun
          | escaped => exact sound.moved rfl (fun _ => id) sound.entries nofun
      | ok envelope =>
          have entries := @entries_call _ _ _ relay settings run sound
            (.claim envelope.common.messageId now) nofun
          dsimp only
          cases answer : run.ledger.answer settings envelope.common.messageId now with
          | error state =>
              cases state with
              | completed =>
                  refine sound.moved rfl (fun _ => id) entries fun _ => ?_
                  obtain ⟨expiresAt, found, _⟩ := current_of_completed answer
                  exact ⟨envelope, read, sound.entries _ expiresAt found⟩
              | inFlight => exact sound.moved rfl (fun _ => id) entries nofun
              | capacityExhausted => exact sound.moved rfl (fun _ => id) entries nofun
          | ok claim =>
              exact sound.moved rfl (fun _ => id) entries
                ⟨read, messageId_of_granted answer⟩
  | signalling envelope claim =>
      obtain ⟨read, named⟩ := stage
      simp only [RelayRun.advance]
      split
      · have known : SignalAccepted (envelope :: run.accepted) envelope.common.messageId :=
          ⟨envelope, List.mem_cons_self, rfl⟩
        refine sound.moved rfl (fun _ => List.mem_cons_of_mem _) ?_ ?_
        · intro messageId expiresAt found
          exact (sound.entries messageId expiresAt found).mono fun _ => List.mem_cons_of_mem _
        · exact ⟨named ▸ known, envelope, read, known⟩
      · next other =>
          exact sound.moved rfl (fun _ => id) sound.entries fun acked => (other acked).elim
  | completing claim =>
      obtain ⟨known, acked⟩ := stage
      refine sound.moved rfl (fun _ => id) (sound.entries_call ?_) fun _ => acked
      rintro other time same
      cases same
      exact known
  | releasing claim outcome =>
      exact sound.moved rfl (fun _ => id) (sound.entries_call nofun) stage
  | settled outcome => exact sound

omit [LinearOrder τ] [Add τ] in
theorem cancel {run : RelayRun τ} (sound : run.Sound relay) (index : Nat)
    (delivery : RelayDelivery) (arrived : Bool) :
    (run.cancel index delivery arrived).Sound relay := by
  obtain ⟨body, at_⟩ := delivery
  cases at_ with
  | received => exact sound.moved rfl (fun _ => id) sound.entries nofun
  | signalling envelope claim =>
      have grows : run.accepted ⊆ if arrived then envelope :: run.accepted else run.accepted := by
        split
        · exact List.subset_cons_self _ _
        · exact fun _ => id
      refine sound.moved rfl grows (fun messageId expiresAt found => ?_) nofun
      exact (sound.entries messageId expiresAt found).mono grows
  | completing claim => exact sound.moved rfl (fun _ => id) sound.entries nofun
  | releasing claim outcome => exact sound.moved rfl (fun _ => id) sound.entries nofun
  | settled outcome => exact sound

theorem handle {run : RelayRun τ} (sound : run.Sound relay) (event : RelayEvent τ) :
    (run.handle relay settings event).Sound relay := by
  cases event with
  | receive body =>
      refine ⟨fun delivery mem => ?_, sound.entries⟩
      rcases List.mem_append.mp mem with before | added
      · exact sound.deliveries delivery before
      · obtain rfl := List.mem_singleton.mp added
        trivial
  | step index now reply =>
      simp only [RelayRun.handle]
      split
      · next delivery found => exact sound.advance (List.mem_of_getElem? found) now reply
      · exact sound
  | cancel index arrived =>
      simp only [RelayRun.handle]
      split
      · exact sound.cancel _ _ _
      · exact sound
  | clear => exact ⟨sound.deliveries, sound.entries_call nofun⟩

theorem run {start : RelayRun τ} (sound : start.Sound relay) (events : List (RelayEvent τ)) :
    (start.run relay settings events).Sound relay := by
  induction events generalizing start with
  | nil => exact sound
  | cons event rest ih => exact ih (sound.handle event)

end RelayRun.Sound

/-- An event of the relay makes at most one call of its store, at its own reading. -/
theorem ledger_handle (run : RelayRun τ) (event : RelayEvent τ) :
    (run.handle relay settings event).ledger = run.ledger ∨
      ∃ operation, (run.handle relay settings event).ledger = run.ledger.call settings operation ∧
        (operation.reading = none ∨ operation.reading = event.reading) := by
  cases event with
  | receive body => exact .inl rfl
  | step index now reply =>
      simp only [RelayRun.handle]
      split
      · next delivery found =>
          obtain ⟨body, stage⟩ := delivery
          cases stage with
          | received =>
              simp only [RelayRun.advance]
              cases relay.readEnvelope body with
              | error failure => cases failure <;> exact .inl rfl
              | ok envelope =>
                  refine .inr ⟨.claim envelope.common.messageId now, ?_, .inr rfl⟩
                  dsimp only
                  cases run.ledger.answer settings envelope.common.messageId now with
                  | error state => cases state <;> rfl
                  | ok claim => rfl
          | signalling envelope claim =>
              simp only [RelayRun.advance]
              split <;> exact .inl rfl
          | completing claim => exact .inr ⟨.complete claim now, rfl, .inr rfl⟩
          | releasing claim outcome => exact .inr ⟨.release claim, rfl, .inl rfl⟩
          | settled outcome => exact .inl rfl
      · exact .inl rfl
  | cancel index arrived =>
      simp only [RelayRun.handle]
      split
      · next delivery found =>
          obtain ⟨body, stage⟩ := delivery
          cases stage <;> exact .inl rfl
      · exact .inl rfl
  | clear => exact .inr ⟨.clear, rfl, .inl rfl⟩

/-- A run of the relay is a run of its store. -/
theorem ledger_run (events : List (RelayEvent τ)) :
    ∃ calls, (RelayRun.empty.run relay settings events).ledger = settings.ledgerAfter calls ∧
      (calls.reverse.filterMap DeduplicationCall.reading).Sublist
        (events.filterMap RelayEvent.reading) := by
  induction events using List.reverseRecOn with
  | nil => exact ⟨[], rfl, List.Sublist.refl _⟩
  | append_singleton past event ih =>
      obtain ⟨calls, same, readings⟩ := ih
      have last : RelayRun.empty.run relay settings (past ++ [event]) =
          (RelayRun.empty.run relay settings past).handle relay settings event := by
        simp [RelayRun.run]
      rw [last, List.filterMap_append]
      rcases @ledger_handle _ _ _ relay settings (RelayRun.empty.run relay settings past) event with
        unchanged | ⟨operation, called, reading⟩
      · exact ⟨calls, unchanged.trans same, readings.trans (List.sublist_append_left _ _)⟩
      · refine ⟨operation :: calls, by rw [called, same]; rfl, ?_⟩
        rw [List.reverse_cons, List.filterMap_append]
        apply readings.append
        rcases reading with none_ | same_
        · simp [none_]
        · simp [List.filterMap_cons, same_]

/-! ## Deduplication -/

/-- What holds of a store after calls, newest first, of any number of deliveries. -/
structure Deduplicates (settings : DeduplicationSettings τ) (calls : List (DeduplicationCall τ)) :
    Prop where
  disjoint : ∀ messageId, (settings.ledgerAfter calls).store.entries.get? messageId = none ∨
    (settings.ledgerAfter calls).store.pending.get? messageId = none
  total : (settings.ledgerAfter calls).store.entries.entries.length +
    (settings.ledgerAfter calls).store.pending.entries.length ≤ settings.capacity
  single : ∀ first ∈ (settings.ledgerAfter calls).store.pending.entries,
    ∀ second ∈ (settings.ledgerAfter calls).store.pending.entries,
      first.2.messageId = second.2.messageId → first = second
  cleared : ∀ later earlier, calls = later ++ .clear :: earlier →
    ∀ claim ∈ (settings.ledgerAfter earlier).granted, ∀ now,
      (settings.ledgerAfter calls).store.complete settings claim now =
          (settings.ledgerAfter calls).store ∧
        (settings.ledgerAfter calls).store.release claim = (settings.ledgerAfter calls).store
  completed : ∀ messageId now, DeduplicationSettings.Monotone calls now →
    (settings.ledgerAfter calls).answer settings messageId now = .error .completed →
      ∃ time, CompletedSince settings messageId time calls ∧ time ≤ now ∧
        now < time + settings.retentionSeconds

theorem deduplicates (calls : List (DeduplicationCall τ)) : Deduplicates settings calls where
  disjoint messageId := by
    have sound : (settings.ledgerAfter calls).Sound settings := sound_ledgerAfter calls
    cases held : (settings.ledgerAfter calls).store.pending.get? messageId with
    | none => exact .inr rfl
    | some claim => exact .inl (sound.disjoint messageId claim held)
  total := (sound_ledgerAfter calls).total
  single := by
    rintro ⟨first, claim⟩ hfirst ⟨second, other⟩ hsecond same
    have sound : (settings.ledgerAfter calls).Sound settings := sound_ledgerAfter calls
    have held := Table.mem_entries_iff.mp hfirst
    have other_held := Table.mem_entries_iff.mp hsecond
    obtain rfl := (sound.named first claim held).1
    obtain rfl := (sound.named second other other_held).1
    rw [← same, held] at other_held
    cases other_held
    rfl
  cleared := by
    rintro later earlier rfl claim old now
    exact settles_nothing later earlier old now
  completed _ _ monotone answer := completed_within monotone answer

/-- Every run of a store deduplicates; a run of a relay is one, and acknowledges a delivery only if
a signal for a message with its id was accepted. -/
theorem relay_deduplicates (relay : Relay) (settings : DeduplicationSettings τ) :
    (∀ calls, Deduplicates settings calls) ∧
    ∀ events : List (RelayEvent τ),
      (∃ calls,
        (RelayRun.empty.run relay settings events).ledger = settings.ledgerAfter calls ∧
          (calls.reverse.filterMap DeduplicationCall.reading).Sublist
            (events.filterMap RelayEvent.reading)) ∧
      ∀ delivery ∈ (RelayRun.empty.run relay settings events).deliveries,
        delivery.stage = .settled (some .ack) →
          Acknowledgeable relay (RelayRun.empty.run relay settings events).accepted
            delivery.body := by
  refine ⟨deduplicates, fun events => ⟨ledger_run events, fun delivery mem settled => ?_⟩⟩
  have start : (RelayRun.empty : RelayRun τ).Sound relay := ⟨nofun, nofun⟩
  have stage := (start.run events).deliveries delivery mem
  rw [settled] at stage
  exact stage rfl

end Runs
end Justflow
