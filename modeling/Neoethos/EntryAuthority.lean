import Mathlib.Algebra.Order.Ring.Nat
import Neoethos.Fallible

/-! The account-wide entry authority of `account_risk.rs`, over its memory and its file. -/

namespace Neoethos

structure AccountRiskIdentity where
  environment : String
  accountId : Int
  accountCurrency : String
  deriving DecidableEq

structure AccountEntryIntent where
  clientOrderId : String
  symbolId : Int
  tradeSide : String
  volumeRawCentiUnits : Int
  reservedDayId : Nat
  createdAtUtcMs : Int
  acceptedOrderId : Option Int
  deriving DecidableEq

/-- The conjunction that `AccountEntryIntent::validate` ensures. -/
def AccountEntryIntent.valid (intent : AccountEntryIntent) : Bool :=
  intent.clientOrderId ≠ "" && intent.clientOrderId.utf8ByteSize ≤ 50 &&
    !intent.clientOrderId.toList.contains '\x00' && 0 < intent.symbolId &&
    (intent.tradeSide = "BUY" || intent.tradeSide = "SELL") && 0 < intent.volumeRawCentiUnits &&
    0 < intent.reservedDayId && 0 < intent.createdAtUtcMs &&
    intent.acceptedOrderId.all (0 < ·)

structure VerifiedEntryReference where
  intent : AccountEntryIntent
  orderId : Int
  positionId : Int
  dealId : Int
  deriving DecidableEq

structure AccountEntryCheckpointFileV2 where
  identity : AccountRiskIdentity
  dayId : Option Nat
  entriesReservedOrFilled : Nat
  unresolvedIntent : Option AccountEntryIntent
  lastVerifiedEntry : Option VerifiedEntryReference
  deriving DecidableEq

/-- What the checkpoint path holds, by its schema. `unreadable` stands for a file that is not
parsed: of another schema, or without its recovery fields. -/
inductive EntryCheckpointFile
  | v1 (identity : AccountRiskIdentity) (dayId : Option Nat) (entriesReservedOrFilled : Nat)
  | v2 (checkpoint : AccountEntryCheckpointFileV2)
  | unreadable
  deriving DecidableEq

/-- The fields that `acquire_entry` reads of an account-risk file from before the split. -/
inductive LegacyRiskFile
  | v1 (identity : AccountRiskIdentity) (entryDayId : Option Nat) (entriesReservedOrFilled : Nat)
  | v2
  | unreadable
  deriving DecidableEq

/-- A submission marker is the identity of its `Arc`. -/
structure AccountEntryAuthority where
  identity : AccountRiskIdentity
  dayId : Option Nat
  entriesReservedOrFilled : Nat
  unresolvedIntent : Option AccountEntryIntent
  lastVerifiedEntry : Option VerifiedEntryReference
  currentSubmissionMarker : Option Nat
  deriving DecidableEq

def AccountEntryAuthority.checkpoint (a : AccountEntryAuthority) : AccountEntryCheckpointFileV2 :=
  ⟨a.identity, a.dayId, a.entriesReservedOrFilled, a.unresolvedIntent, a.lastVerifiedEntry⟩

inductive CTraderOrderType
  | market
  | limit
  | stop
  | stopLossTakeProfit
  | marketRange
  | stopLimit
  deriving DecidableEq

/-- The fields of a `CTraderNewOrderRequest` that the intent takes. -/
structure NewOrder where
  accountId : Int
  symbolId : Int
  orderType : CTraderOrderType
  tradeSide : String
  volume : Int
  clientOrderId : Option String
  deriving DecidableEq

/-- A `CTraderExecutionRuntimeRequest`: its account id as `parse::<i64>` reads it, and its order
where the request is a new one. -/
structure ExecutionRequest where
  environment : String
  accountId : Option Int
  newOrder : Option NewOrder
  deriving DecidableEq

/-- `CTraderUnresolvedExecution`. -/
structure UnresolvedExecution where
  environment : String
  accountId : Int
  clientOrderId : Option String
  acceptedOrderId : Option Int
  deriving DecidableEq

/-- The fields of a `CTraderExecutionOutcome` that the authority reads. -/
structure ExecutionOutcome where
  accountId : Int
  symbolId : Option Int
  tradeSide : Option String
  orderId : Option Int
  deriving DecidableEq

/-- `CTraderOpeningFillEvidenceV1`. -/
structure OpeningFillEvidence where
  accountId : Int
  symbolId : Int
  tradeSide : String
  filledVolumeRawCentiUnits : Int
  orderId : Int
  positionId : Int
  dealId : Int
  deriving DecidableEq

inductive EntryRefusal
  | zeroDayId
  | statePersistence
  | unresolvedEntry (clientOrderId : String)
  | periodUnprepared (prepared : Option Nat) (dayId : Nat)
  | maxTradesPerDay (entries cap dayId : Nat)
  | releaseUnresolved
  | releaseOtherDay (dayId : Nat) (active : Option Nat)
  | releaseZeroCount (dayId : Nat)
  | executorMayHaveStarted
  | noAttemptProof
  | intentWithoutDay
  | intentZeroCount
  | notANewOrder
  | otherAuthority
  | missingClientOrderId
  | invalidIntent
  | noCurrentReservation
  | missingIntent
  | contextDiffers
  | conflictingOrderId
  | openingDiffers
  | referenceMismatch
  | identityDiffers
  | legacyEntries
  | unreadableCheckpoint
  | missingEntryCheckpoint
  deriving DecidableEq

/-- The authority of a living process and the file under it. -/
structure EntryStore where
  memory : AccountEntryAuthority
  file : Option EntryCheckpointFile
  deriving DecidableEq

namespace EntryStore

/-- Write the new memory to the file; where the write fails the file stays, and memory becomes
what the operation falls back to. -/
def commit {α : Type} (s : EntryStore) (next fallback : AccountEntryAuthority) (value : α)
    (writes : Bool) : EntryStore × Except EntryRefusal α :=
  if writes then
    (⟨next, some (.v2 next.checkpoint)⟩, .ok value)
  else
    (⟨fallback, s.file⟩, .error .statePersistence)

/-- `u32::saturating_add(1)`. -/
def saturatingSucc (n : Nat) : Nat := min (n + 1) (2 ^ 32 - 1)

def prepareDay (s : EntryStore) (dayId : Nat) (writes : Bool) :
    EntryStore × Except EntryRefusal Nat :=
  if dayId = 0 then
    (s, .error .zeroDayId)
  else if s.memory.dayId = some dayId then
    (s, .ok s.memory.entriesReservedOrFilled)
  else
    s.commit { s.memory with dayId := some dayId, entriesReservedOrFilled := 0 } s.memory 0 writes

def tryReserveEntry (s : EntryStore) (dayId : Nat) (cap : Option Nat) (writes : Bool) :
    EntryStore × Except EntryRefusal Nat :=
  let entries := s.memory.entriesReservedOrFilled
  match s.memory.unresolvedIntent with
  | some intent => (s, .error (.unresolvedEntry intent.clientOrderId))
  | none =>
    if s.memory.dayId ≠ some dayId then
      (s, .error (.periodUnprepared s.memory.dayId dayId))
    else if cap.any (· ≤ entries) then
      (s, .error (.maxTradesPerDay entries (cap.getD 0) dayId))
    else
      s.commit { s.memory with entriesReservedOrFilled := saturatingSucc entries }
        { s.memory with entriesReservedOrFilled := saturatingSucc entries - 1 } entries writes

def releaseEntry (s : EntryStore) (dayId : Nat) (writes : Bool) :
    EntryStore × Except EntryRefusal Unit :=
  let entries := s.memory.entriesReservedOrFilled
  if s.memory.unresolvedIntent.isSome then
    (s, .error .releaseUnresolved)
  else if s.memory.dayId ≠ some dayId then
    (s, .error (.releaseOtherDay dayId s.memory.dayId))
  else if entries = 0 then
    (s, .error (.releaseZeroCount dayId))
  else
    s.commit { s.memory with entriesReservedOrFilled := entries - 1 }
      { s.memory with entriesReservedOrFilled := saturatingSucc (entries - 1) } () writes

/-- `started` is what the marker holds. -/
def releaseUnsentEntry (s : EntryStore) (reservedDayId : Nat) (clientOrderId : String)
    (marker : Nat) (started writes : Bool) : EntryStore × Except EntryRefusal Unit :=
  let entries := s.memory.entriesReservedOrFilled
  if started then
    (s, .error .executorMayHaveStarted)
  else
    match s.memory.unresolvedIntent with
    | none => s.releaseEntry reservedDayId writes
    | some intent =>
      if ¬(intent.clientOrderId = clientOrderId ∧ intent.reservedDayId = reservedDayId ∧
          intent.acceptedOrderId = none ∧ s.memory.currentSubmissionMarker = some marker) then
        (s, .error .noAttemptProof)
      else if s.memory.dayId = none then
        (s, .error .intentWithoutDay)
      else if s.memory.dayId = some reservedDayId ∧ entries = 0 then
        (s, .error .intentZeroCount)
      else
        -- A reservation of an earlier day is not taken off the new day's count.
        s.commit
          { s.memory with
            entriesReservedOrFilled :=
              if s.memory.dayId = some reservedDayId then entries - 1 else entries
            unresolvedIntent := none
            currentSubmissionMarker := none }
          s.memory () writes

def beginIntent (s : EntryStore) (intent : AccountEntryIntent) (marker : Nat) (writes : Bool) :
    EntryStore × Except EntryRefusal Unit :=
  if intent.valid = false then
    (s, .error .invalidIntent)
  else if ¬(s.memory.unresolvedIntent = none ∧ s.memory.dayId = some intent.reservedDayId ∧
      0 < s.memory.entriesReservedOrFilled) then
    (s, .error .noCurrentReservation)
  else
    let next := { s.memory with
      unresolvedIntent := some intent, currentSubmissionMarker := some marker }
    s.commit next next () writes

def beginSubmission (s : EntryStore) (dayId : Nat) (request : ExecutionRequest) (marker : Nat)
    (started : Bool) (nowUtcMs : Int) (writes : Bool) : EntryStore × Except EntryRefusal Unit :=
  if started then
    (s, .error .executorMayHaveStarted)
  else
    match request.newOrder with
    | none => (s, .error .notANewOrder)
    | some order =>
      if ¬(request.environment = s.memory.identity.environment ∧
          request.accountId = some s.memory.identity.accountId ∧
          order.accountId = s.memory.identity.accountId ∧
          (order.orderType = .market ∨ order.orderType = .marketRange)) then
        (s, .error .otherAuthority)
      else
        match order.clientOrderId with
        | none => (s, .error .missingClientOrderId)
        | some clientOrderId =>
          s.beginIntent
            { clientOrderId := clientOrderId
              symbolId := order.symbolId
              tradeSide := order.tradeSide
              volumeRawCentiUnits := order.volume
              reservedDayId := dayId
              createdAtUtcMs := nowUtcMs
              acceptedOrderId := none } marker writes

/-- The accepted id is set in memory before the write, and stays there when the write fails. -/
def recordUnresolvedContext (s : EntryStore) (clientOrderId : String)
    (context : UnresolvedExecution) (writes : Bool) : EntryStore × Except EntryRefusal Unit :=
  match s.memory.unresolvedIntent with
  | none => (s, .error .missingIntent)
  | some intent =>
    if ¬(context.accountId = s.memory.identity.accountId ∧
        context.environment = s.memory.identity.environment ∧
        context.clientOrderId = some clientOrderId ∧ intent.clientOrderId = clientOrderId) then
      (s, .error .contextDiffers)
    else
      match context.acceptedOrderId with
      | none => (s, .ok ())
      | some orderId =>
        if ¬(0 < orderId ∧ (intent.acceptedOrderId = none ∨
            intent.acceptedOrderId = some orderId)) then
          (s, .error .conflictingOrderId)
        else
          let next := { s.memory with
            unresolvedIntent := some { intent with acceptedOrderId := some orderId } }
          s.commit next next () writes

def recordUnresolvedError (s : EntryStore) (clientOrderId : String)
    (context : Option UnresolvedExecution) (writes : Bool) :
    EntryStore × Except EntryRefusal Unit :=
  match context with
  | none => (s, .ok ())
  | some context => s.recordUnresolvedContext clientOrderId context writes

def recordUnresolvedOutcome (s : EntryStore) (clientOrderId environment : String)
    (outcome : ExecutionOutcome) (writes : Bool) : EntryStore × Except EntryRefusal Unit :=
  match s.memory.unresolvedIntent with
  | none => (s, .error .missingIntent)
  | some intent =>
    if ¬(outcome.symbolId = some intent.symbolId ∧ outcome.tradeSide = some intent.tradeSide) then
      (s, .error .contextDiffers)
    else
      s.recordUnresolvedContext clientOrderId
        ⟨environment, outcome.accountId, some clientOrderId, outcome.orderId⟩ writes

def persistVerifiedReference (s : EntryStore) (completed : VerifiedEntryReference)
    (writes : Bool) : EntryStore × Except EntryRefusal Unit :=
  if ¬(s.memory.unresolvedIntent = some completed.intent ∧ 0 < completed.orderId ∧
      0 < completed.positionId ∧ 0 < completed.dealId ∧
      (completed.intent.acceptedOrderId = none ∨
        completed.intent.acceptedOrderId = some completed.orderId)) then
    (s, .error .referenceMismatch)
  else
    s.commit
      { s.memory with
        unresolvedIntent := none
        lastVerifiedEntry := some completed
        currentSubmissionMarker := none }
      s.memory () writes

def confirmVerifiedOpening (s : EntryStore) (clientOrderId : String)
    (opening : OpeningFillEvidence) (writes : Bool) : EntryStore × Except EntryRefusal Unit :=
  match s.memory.unresolvedIntent with
  | none => (s, .error .missingIntent)
  | some intent =>
    if ¬(intent.clientOrderId = clientOrderId ∧ opening.accountId = s.memory.identity.accountId ∧
        opening.symbolId = intent.symbolId ∧ opening.tradeSide = intent.tradeSide ∧
        opening.filledVolumeRawCentiUnits = intent.volumeRawCentiUnits ∧
        (intent.acceptedOrderId = none ∨ intent.acceptedOrderId = some opening.orderId)) then
      (s, .error .openingDiffers)
    else
      s.persistVerifiedReference ⟨intent, opening.orderId, opening.positionId, opening.dealId⟩
        writes

end EntryStore

/-- What the checkpoint of a V2 file must pass to be taken over. -/
def AccountEntryCheckpointFileV2.check (checkpoint : AccountEntryCheckpointFileV2)
    (identity : AccountRiskIdentity) : Except EntryRefusal Unit := do
  Fallible.refuse (checkpoint.identity ≠ identity) .identityDiffers
  Fallible.refuse (checkpoint.unresolvedIntent.any (!·.valid)) .invalidIntent
  Fallible.refuse (checkpoint.lastVerifiedEntry.any fun reference =>
    !(reference.intent.valid && 0 < reference.orderId && 0 < reference.positionId &&
      0 < reference.dealId)) .referenceMismatch

/-- `acquire_entry` where the registry has no authority for the account: the authority that the
files describe, written back where the entry file has to be made or migrated. -/
def acquireEntry (identity : AccountRiskIdentity) (file : Option EntryCheckpointFile)
    (legacy : Option LegacyRiskFile) (writes : Bool) : Except EntryRefusal EntryStore :=
  let persisted (a : AccountEntryAuthority) : Except EntryRefusal EntryStore :=
    if writes then .ok ⟨a, some (.v2 a.checkpoint)⟩ else .error .statePersistence
  match file with
  | some (.v2 checkpoint) =>
    match checkpoint.check identity with
    | .error e => .error e
    | .ok () =>
      .ok ⟨⟨identity, checkpoint.dayId, checkpoint.entriesReservedOrFilled,
        checkpoint.unresolvedIntent, checkpoint.lastVerifiedEntry, none⟩, file⟩
  | some (.v1 fileIdentity dayId entries) =>
    if entries ≠ 0 then .error .legacyEntries
    else if fileIdentity ≠ identity then .error .identityDiffers
    else persisted ⟨identity, dayId, entries, none, none, none⟩
  | some .unreadable => .error .unreadableCheckpoint
  | none =>
    match legacy with
    | none => persisted ⟨identity, none, 0, none, none, none⟩
    | some (.v1 fileIdentity dayId entries) =>
      if fileIdentity ≠ identity then .error .identityDiffers
      else if entries ≠ 0 then .error .legacyEntries
      else persisted ⟨identity, dayId, entries, none, none, none⟩
    | some .v2 => .error .missingEntryCheckpoint
    | some .unreadable => .error .unreadableCheckpoint

end Neoethos
