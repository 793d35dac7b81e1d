import Neoethos.EntryAuthority
import Neoethos.Machine

namespace Neoethos

/-- Where a worker is with the reservation it was granted. -/
inductive AttemptStage
  | reserved
  | refused
  | begun (clientOrderId : String)
  | sent (clientOrderId : String)
  | released
  deriving DecidableEq

/-- A granted reservation and the marker of its worker, one that no other attempt has. -/
structure EntryAttempt where
  dayId : Nat
  marker : Nat
  stage : AttemptStage
  deriving DecidableEq

/-- `started` are the markers that are set; `lost` are the days of the reservations whose workers
died with the process; `sent` and `confirmed` are client ids. -/
structure EntryWorld where
  file : Option EntryCheckpointFile
  legacy : Option LegacyRiskFile
  memory : Option AccountEntryAuthority
  attempts : List EntryAttempt
  lost : List Nat
  started : List Nat
  nextMarker : Nat
  generation : Nat
  sent : List String
  confirmed : List String
  deriving DecidableEq

inductive EntryAct
  | prepareDay (dayId : Nat) (writes : Bool)
  | reserve (dayId : Nat) (cap : Option Nat) (writes : Bool)
  | beginSubmission (attempt : Nat) (request : ExecutionRequest) (nowUtcMs : Int) (writes : Bool)
  | send (attempt : Nat)
  | recordError (clientOrderId : String) (context : Option UnresolvedExecution) (writes : Bool)
  | recordOutcome (clientOrderId environment : String) (outcome : ExecutionOutcome)
      (writes : Bool)
  | confirm (clientOrderId : String) (opening : OpeningFillEvidence) (writes : Bool)
  | releaseEntry (attempt : Nat) (writes : Bool)
  | releaseUnsent (attempt : Nat) (clientOrderId : String) (writes : Bool)
  | crash
  | restart (writes : Bool)

namespace EntryWorld

def start (file : Option EntryCheckpointFile) (legacy : Option LegacyRiskFile) : EntryWorld :=
  ⟨file, legacy, none, [], [], [], 0, 0, [], []⟩

def store (w : EntryWorld) (s : EntryStore) : EntryWorld :=
  { w with memory := some s.memory, file := s.file }

def setAttempt (w : EntryWorld) (i : Nat) (attempt : EntryAttempt) : EntryWorld :=
  { w with attempts := w.attempts.set i attempt }

def requestClient (request : ExecutionRequest) : String :=
  (request.newOrder.bind (·.clientOrderId)).getD ""

/-- One call of a worker on the authority of the living process. The event is whether the call
returned `Ok`. -/
def call (w : EntryWorld) (s : EntryStore) : EntryAct → Option (Bool × EntryWorld)
  | .prepareDay dayId writes =>
    let r := s.prepareDay dayId writes
    some (r.2.isOk, w.store r.1)
  | .reserve dayId cap writes =>
    let r := s.tryReserveEntry dayId cap writes
    if r.2.isOk then
      some (true, { w.store r.1 with
        attempts := w.attempts ++ [⟨dayId, w.nextMarker, .reserved⟩]
        nextMarker := w.nextMarker + 1 })
    else
      some (false, w.store r.1)
  | .beginSubmission i request nowUtcMs writes =>
    match w.attempts[i]? with
    | some ⟨dayId, marker, .reserved⟩ =>
      let r := s.beginSubmission dayId request marker false nowUtcMs writes
      if r.2.isOk then
        some (true, (w.store r.1).setAttempt i ⟨dayId, marker, .begun (requestClient request)⟩)
      else
        some (false, (w.store r.1).setAttempt i ⟨dayId, marker, .refused⟩)
    | _ => none
  | .send i =>
    match w.attempts[i]? with
    | some ⟨dayId, marker, .begun clientOrderId⟩ =>
      some (true, { w.setAttempt i ⟨dayId, marker, .sent clientOrderId⟩ with
        started := marker :: w.started
        sent := clientOrderId :: w.sent })
    | _ => none
  | .recordError clientOrderId context writes =>
    let r := s.recordUnresolvedError clientOrderId context writes
    some (r.2.isOk, w.store r.1)
  | .recordOutcome clientOrderId environment outcome writes =>
    let r := s.recordUnresolvedOutcome clientOrderId environment outcome writes
    some (r.2.isOk, w.store r.1)
  | .confirm clientOrderId opening writes =>
    let r := s.confirmVerifiedOpening clientOrderId opening writes
    if r.2.isOk then
      some (true, { w.store r.1 with confirmed := clientOrderId :: w.confirmed })
    else
      some (false, w.store r.1)
  | .releaseEntry i writes =>
    match w.attempts[i]? with
    | some ⟨dayId, marker, .reserved⟩ =>
      let r := s.releaseEntry dayId writes
      if r.2.isOk then
        some (true, (w.store r.1).setAttempt i ⟨dayId, marker, .released⟩)
      else
        some (false, w.store r.1)
    | _ => none
  | .releaseUnsent i clientOrderId writes =>
    match w.attempts[i]? with
    | some ⟨_, _, .released⟩ => none
    | some ⟨dayId, marker, _⟩ =>
      let r := s.releaseUnsentEntry dayId clientOrderId marker (marker ∈ w.started) writes
      if r.2.isOk then
        some (true, (w.store r.1).setAttempt i ⟨dayId, marker, .released⟩)
      else
        some (false, w.store r.1)
    | none => none
  | .crash =>
    some (true, { w with
      memory := none
      attempts := []
      lost := w.lost ++ (w.attempts.filter (·.stage ≠ .released)).map (·.dayId) })
  | .restart _ => none

def next (identity : AccountRiskIdentity) (w : EntryWorld) (a : EntryAct) :
    Option (Bool × EntryWorld) :=
  match w.memory with
  | some memory => w.call ⟨memory, w.file⟩ a
  | none =>
    match a with
    | .restart writes =>
      match acquireEntry identity w.file w.legacy writes with
      | .error _ => some (false, w)
      | .ok s => some (true, { w.store s with generation := w.generation + 1 })
    | _ => none

inductive CallStep (w : EntryWorld) (s : EntryStore) : EntryAct → EntryWorld → Prop
  | prepared {dayId writes} :
      CallStep w s (.prepareDay dayId writes) (w.store (s.prepareDay dayId writes).1)
  | reserved {dayId cap writes} (hok : (s.tryReserveEntry dayId cap writes).2.isOk = true) :
      CallStep w s (.reserve dayId cap writes)
        { w.store (s.tryReserveEntry dayId cap writes).1 with
          attempts := w.attempts ++ [⟨dayId, w.nextMarker, .reserved⟩]
          nextMarker := w.nextMarker + 1 }
  | notReserved {dayId cap writes} (hno : (s.tryReserveEntry dayId cap writes).2.isOk = false) :
      CallStep w s (.reserve dayId cap writes) (w.store (s.tryReserveEntry dayId cap writes).1)
  | begun {i dayId marker request nowUtcMs writes}
      (hget : w.attempts[i]? = some ⟨dayId, marker, .reserved⟩)
      (hok : (s.beginSubmission dayId request marker false nowUtcMs writes).2.isOk = true) :
      CallStep w s (.beginSubmission i request nowUtcMs writes)
        ((w.store (s.beginSubmission dayId request marker false nowUtcMs writes).1).setAttempt i
          ⟨dayId, marker, .begun (requestClient request)⟩)
  | refused {i dayId marker request nowUtcMs writes}
      (hget : w.attempts[i]? = some ⟨dayId, marker, .reserved⟩)
      (hno : (s.beginSubmission dayId request marker false nowUtcMs writes).2.isOk = false) :
      CallStep w s (.beginSubmission i request nowUtcMs writes)
        ((w.store (s.beginSubmission dayId request marker false nowUtcMs writes).1).setAttempt i
          ⟨dayId, marker, .refused⟩)
  | sent {i dayId marker clientOrderId}
      (hget : w.attempts[i]? = some ⟨dayId, marker, .begun clientOrderId⟩) :
      CallStep w s (.send i)
        { w.setAttempt i ⟨dayId, marker, .sent clientOrderId⟩ with
          started := marker :: w.started
          sent := clientOrderId :: w.sent }
  | errorRecorded {clientOrderId context writes} :
      CallStep w s (.recordError clientOrderId context writes)
        (w.store (s.recordUnresolvedError clientOrderId context writes).1)
  | outcomeRecorded {clientOrderId environment outcome writes} :
      CallStep w s (.recordOutcome clientOrderId environment outcome writes)
        (w.store (s.recordUnresolvedOutcome clientOrderId environment outcome writes).1)
  | confirmed {clientOrderId opening writes}
      (hok : (s.confirmVerifiedOpening clientOrderId opening writes).2.isOk = true) :
      CallStep w s (.confirm clientOrderId opening writes)
        { w.store (s.confirmVerifiedOpening clientOrderId opening writes).1 with
          confirmed := clientOrderId :: w.confirmed }
  | notConfirmed {clientOrderId opening writes}
      (hno : (s.confirmVerifiedOpening clientOrderId opening writes).2.isOk = false) :
      CallStep w s (.confirm clientOrderId opening writes)
        (w.store (s.confirmVerifiedOpening clientOrderId opening writes).1)
  | released {i dayId marker writes} (hget : w.attempts[i]? = some ⟨dayId, marker, .reserved⟩)
      (hok : (s.releaseEntry dayId writes).2.isOk = true) :
      CallStep w s (.releaseEntry i writes)
        ((w.store (s.releaseEntry dayId writes).1).setAttempt i ⟨dayId, marker, .released⟩)
  | notReleased {i dayId marker writes} (hget : w.attempts[i]? = some ⟨dayId, marker, .reserved⟩)
      (hno : (s.releaseEntry dayId writes).2.isOk = false) :
      CallStep w s (.releaseEntry i writes) (w.store (s.releaseEntry dayId writes).1)
  | unsentReleased {i dayId marker stage clientOrderId writes} (hopen : stage ≠ .released)
      (hget : w.attempts[i]? = some ⟨dayId, marker, stage⟩)
      (hok : (s.releaseUnsentEntry dayId clientOrderId marker (marker ∈ w.started) writes).2.isOk =
        true) :
      CallStep w s (.releaseUnsent i clientOrderId writes)
        ((w.store (s.releaseUnsentEntry dayId clientOrderId marker (marker ∈ w.started)
          writes).1).setAttempt i ⟨dayId, marker, .released⟩)
  | unsentNotReleased {i dayId marker stage clientOrderId writes} (hopen : stage ≠ .released)
      (hget : w.attempts[i]? = some ⟨dayId, marker, stage⟩)
      (hno : (s.releaseUnsentEntry dayId clientOrderId marker (marker ∈ w.started) writes).2.isOk =
        false) :
      CallStep w s (.releaseUnsent i clientOrderId writes)
        (w.store (s.releaseUnsentEntry dayId clientOrderId marker (marker ∈ w.started) writes).1)
  | crashed :
      CallStep w s .crash
        { w with
          memory := none
          attempts := []
          lost := w.lost ++ (w.attempts.filter (·.stage ≠ .released)).map (·.dayId) }

theorem call_step {w w' : EntryWorld} {s : EntryStore} {act : EntryAct} {e : Bool}
    (h : w.call s act = some (e, w')) : CallStep w s act w' := by
  cases act with
  | prepareDay | recordError | recordOutcome | crash =>
    obtain ⟨_, rfl⟩ := Prod.mk.inj (Option.some.inj h)
    constructor
  | restart => simp [call] at h
  | reserve | confirm =>
    simp only [call] at h
    split at h
    next hok =>
      obtain ⟨_, rfl⟩ := Prod.mk.inj (Option.some.inj h)
      first | exact .reserved hok | exact .confirmed hok
    next hno =>
      obtain ⟨_, rfl⟩ := Prod.mk.inj (Option.some.inj h)
      have hno := Bool.eq_false_of_not_eq_true hno
      first | exact .notReserved hno | exact .notConfirmed hno
  | send =>
    simp only [call] at h
    split at h
    next hget =>
      obtain ⟨_, rfl⟩ := Prod.mk.inj (Option.some.inj h)
      exact .sent hget
    next => simp at h
  | beginSubmission =>
    simp only [call] at h
    split at h
    next hget =>
      split at h
      next hok =>
        obtain ⟨_, rfl⟩ := Prod.mk.inj (Option.some.inj h)
        exact .begun hget hok
      next hno =>
        obtain ⟨_, rfl⟩ := Prod.mk.inj (Option.some.inj h)
        exact .refused hget (Bool.eq_false_of_not_eq_true hno)
    next => simp at h
  | releaseEntry =>
    simp only [call] at h
    split at h
    next hget =>
      split at h
      next hok =>
        obtain ⟨_, rfl⟩ := Prod.mk.inj (Option.some.inj h)
        exact .released hget hok
      next hno =>
        obtain ⟨_, rfl⟩ := Prod.mk.inj (Option.some.inj h)
        exact .notReleased hget (Bool.eq_false_of_not_eq_true hno)
    next => simp at h
  | releaseUnsent i clientOrderId writes =>
    simp only [call] at h
    split at h
    next => simp at h
    next dayId marker stage hreleased hget =>
      have hopen : stage ≠ .released := by
        rintro rfl
        exact hreleased rfl
      split at h
      next hok =>
        obtain ⟨_, rfl⟩ := Prod.mk.inj (Option.some.inj h)
        exact .unsentReleased hopen hget hok
      next hno =>
        obtain ⟨_, rfl⟩ := Prod.mk.inj (Option.some.inj h)
        exact .unsentNotReleased hopen hget (Bool.eq_false_of_not_eq_true hno)
    next => simp at h

/-- A step is a call on the living authority, or the restart of a dead one. -/
theorem next_step {identity : AccountRiskIdentity} {w w' : EntryWorld} {act : EntryAct} {e : Bool}
    (h : next identity w act = some (e, w')) :
    (∃ memory, w.memory = some memory ∧ CallStep w ⟨memory, w.file⟩ act w') ∨
      w.memory = none ∧ (w' = w ∨ ∃ writes s, acquireEntry identity w.file w.legacy writes = .ok s ∧
        w' = { w.store s with generation := w.generation + 1 }) := by
  unfold next at h
  split at h
  next memory hmemory => exact .inl ⟨memory, hmemory, call_step h⟩
  next hdead =>
    refine .inr ⟨hdead, ?_⟩
    split at h
    next writes =>
      split at h
      next =>
        obtain ⟨_, rfl⟩ := Prod.mk.inj (Option.some.inj h)
        exact .inl rfl
      next s hacquire =>
        obtain ⟨_, rfl⟩ := Prod.mk.inj (Option.some.inj h)
        exact .inr ⟨writes, s, hacquire, rfl⟩
    next => simp at h

end EntryWorld

/-- The life of one account's entry authority, from whatever files the account has. -/
def entryMachine (identity : AccountRiskIdentity) (file : Option EntryCheckpointFile)
    (legacy : Option LegacyRiskFile) : Machine EntryWorld EntryAct Bool where
  start := .start file legacy
  next := EntryWorld.next identity

end Neoethos
