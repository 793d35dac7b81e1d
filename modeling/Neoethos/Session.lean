import Mathlib.Data.List.AList
import Neoethos.SessionRecords

namespace Neoethos

open Fallible

/-- A `BTreeMap`, of which only lookups are read. -/
abbrev Table (K V : Type) [DecidableEq K] := AList fun _ : K => V

/-- `entry(key).or_default()` and a write through it. -/
def Table.upsert {K V : Type} [DecidableEq K] (table : Table K V) (key : K) (default : V)
    (f : V → V) : Table K V :=
  table.insert key (f ((table.lookup key).getD default))

structure OpenSweep where
  sweep : SweepId
  sweepHash : String
  kind : SweepKind
  startedMs : Int
  deriving DecidableEq

inductive SweepOutcome
  | completed
  | failed (error : String)
  | abandoned (reason : String)
  deriving DecidableEq

structure SweepSummary (F : Type) where
  sweep : SweepId
  kind : SweepKind
  sweepHash : String
  trialsOffered : Nat
  outcome : SweepOutcome
  perSearch : List (SearchRecord F)
  wallMs : Nat
  deriving DecidableEq

structure LevelCoverage where
  draws : Nat
  sweeps : Nat
  deriving DecidableEq

structure CoverageCounters where
  levels : Table (String × String) LevelCoverage
  seenInSweep : List (String × String × SweepId)

def CoverageCounters.credit (coverage : CoverageCounters) (sweep : SweepId)
    (factor level : String) : CoverageCounters :=
  let seen := (factor, level, sweep) ∈ coverage.seenInSweep
  ⟨coverage.levels.upsert (factor, level) ⟨0, 0⟩ fun entry =>
      ⟨entry.draws + 1, if seen then entry.sweeps else entry.sweeps + 1⟩,
    if seen then coverage.seenInSweep else coverage.seenInSweep ++ [(factor, level, sweep)]⟩

structure PosteriorLedger where
  counts : Table (String × String) (Nat × Nat)
  creditedBySweep : Table SweepId (List PosteriorCredit)
  retractedSweeps : Finset SweepId

namespace PosteriorLedger

def creditOne (counts : Table (String × String) (Nat × Nat)) (c : PosteriorCredit) :
    Table (String × String) (Nat × Nat) :=
  counts.upsert (c.factor, c.level) (0, 0) fun entry =>
    if c.success then (entry.1 + 1, entry.2) else (entry.1, entry.2 + 1)

def credit (ledger : PosteriorLedger) (sweep : SweepId) (credits : List PosteriorCredit) :
    PosteriorLedger :=
  { ledger with
    counts := credits.foldl creditOne ledger.counts
    creditedBySweep := ledger.creditedBySweep.upsert sweep [] (· ++ credits) }

/-- `saturating_sub` on the successes. -/
def retractOne (counts : Table (String × String) (Nat × Nat)) (c : PosteriorCredit) :
    Table (String × String) (Nat × Nat) :=
  counts.upsert (c.factor, c.level) (0, 0) fun entry => (entry.1 - 1, entry.2 + 1)

def retractSweep (ledger : PosteriorLedger) (sweep : SweepId) : PosteriorLedger :=
  if sweep ∈ ledger.retractedSweeps then ledger
  else
    { ledger with
      retractedSweeps := insert sweep ledger.retractedSweeps
      counts := (((ledger.creditedBySweep.lookup sweep).getD []).filter fun c => c.success).foldl
        retractOne ledger.counts }

def retract (ledger : PosteriorLedger) (sweeps : List SweepId) : PosteriorLedger :=
  sweeps.foldl retractSweep ledger

def evidence (ledger : PosteriorLedger) (factor level : String) : Nat × Nat :=
  (ledger.counts.lookup (factor, level)).getD (0, 0)

end PosteriorLedger

structure BlockOutcome (F : Type) where
  block : BlockId
  deltaExpectancy : F
  pBlock : F
  dsrGap : F
  indistinguishable : Bool
  deriving DecidableEq

structure OpenedHeader where
  sessionId : SessionId
  sessionSeed : Nat
  symbol : String
  datasetReceipt : DatasetReceipt
  goalHash : String
  judgeHash : String
  costHash : String
  oosWindow : OosWindow
  scenariosSource : String
  identitySource : String
  deriving DecidableEq

structure Session (F : Type) where
  opened : Option OpenedHeader
  sweeps : List (SweepSummary F)
  openSweep : Option OpenSweep
  configHashes : Table String SweepId
  coverage : CoverageCounters
  posterior : PosteriorLedger
  blocks : List (BlockOutcome F)
  nullObservations : List F
  nullRefusals : Nat
  bestEver : Option (BestEver F)
  champions : List (ChampionRow F)
  quoteCoverage : Option QuoteCoverageState
  oosTouchesSpent : Nat
  census : AbandonCensus
  stopped : Option (SessionVerdict F)
  journalTruncatedBytes : Nat
  terminalTrials : List (SweepId × Nat)
  highestSweep : SweepId
  proposals : Table SweepId (List Proposal)
  screens : Table SweepId (List (ScreenResult F))

inductive SessionError
  | twoHeaders
  | invalidReceipt (error : ReceiptError)
  | symbolDisagrees
  | windowDisagrees
  | alreadyOpen (sweep opened : SweepId)
  | otherSweepOpen (sweep opened : SweepId)
  | noOpenSweep (sweep : SweepId)
  | twoChampions (sweep : SweepId) (first second : String)
  | invalidCoverage (error : QuoteCoverageError)
  | awaitedBeforeOpened
  | awaitedAfterEnd
  | detachedRequest
  | differentRequest
  | readyRegressed
  | readyAfterEnd
  | differentReady
  | readyWithoutRequest
  | secondTouch
  | touchBeforeReady
  | detachedTouch
  | stoppedAtCoverage
  deriving DecidableEq

/-- `str::contains`. -/
def containsText (text part : String) : Bool :=
  decide (part.toList <:+: text.toList)

def CENSUS_EXAMPLE_LIMIT : Nat := 32

def AbandonCensus.note (census : AbandonCensus) (reason configHash : String) : AbandonCensus :=
  if census.examples.length < CENSUS_EXAMPLE_LIMIT then
    { census with examples := census.examples ++ [(reason, configHash)] }
  else census

def advancesBest {F : Type} [FloatOps F] (current : Option (BestEver F)) (candidate : BestEver F) :
    Bool :=
  match current with
  | none => FloatOps.isFinite candidate.eScreenPess
  | some best => FloatOps.lt best.eScreenPess candidate.eScreenPess

namespace Session

variable {F : Type}

/-- `Session::default`. -/
def empty : Session F where
  opened := none
  sweeps := []
  openSweep := none
  configHashes := ∅
  coverage := ⟨∅, []⟩
  posterior := ⟨∅, ∅, ∅⟩
  blocks := []
  nullObservations := []
  nullRefusals := 0
  bestEver := none
  champions := []
  quoteCoverage := none
  oosTouchesSpent := 0
  census := ⟨0, 0, 0, 0, 0, 0, 0, List.replicate 7 0, 0, 0, []⟩
  stopped := none
  journalTruncatedBytes := 0
  terminalTrials := []
  highestSweep := 0
  proposals := ∅
  screens := ∅

def noteSweep (session : Session F) (sweep : SweepId) : Session F :=
  { session with highestSweep := max session.highestSweep sweep }

def takeOpen (session : Session F) (sweep : SweepId) :
    Except SessionError (OpenSweep × Session F) :=
  match session.openSweep with
  | some opened =>
    if opened.sweep = sweep then .ok (opened, { session with openSweep := none })
    else .error (.otherSweepOpen sweep opened.sweep)
  | none => .error (.noOpenSweep sweep)

def closeSweep (session : Session F) (opened : OpenSweep) (trialsOffered : Nat)
    (outcome : SweepOutcome) (perSearch : List (SearchRecord F)) (wallMs : Nat) : Session F :=
  { session with
    sweeps := session.sweeps ++ [⟨opened.sweep, opened.kind, opened.sweepHash, trialsOffered,
      outcome, perSearch, wallMs⟩]
    terminalTrials := session.terminalTrials ++ [(opened.sweep, trialsOffered)] }

/-- A slot beyond the end repeats the proposal in the gap before it. -/
def placeProposal (slots : List Proposal) (slot : Nat) (proposal : Proposal) : List Proposal :=
  (slots ++ List.replicate (slot + 1 - slots.length) proposal).set slot proposal

def neverJudged (sweep : SweepId) (slot : Nat) : ScreenResult F :=
  .unavailable (s!"no Screened record has arrived for slot {slot} of sweep-{sweep}. " ++
    "The screen vector is keyed by slot, so this slot was never judged — it is NOT the verdict " ++
    "of the neighbouring slot, and it can never be a promotion candidate.")

/-- A slot beyond the end leaves slots before it that were never judged. -/
def placeScreen (slots : List (ScreenResult F)) (sweep : SweepId) (slot : Nat)
    (result : ScreenResult F) : List (ScreenResult F) :=
  (slots ++ (List.range (slot + 1 - slots.length)).map fun i =>
    neverJudged sweep (slots.length + i)).set slot result

def applySessionOpened (session : Session F) (header : SessionHeaderRecord) :
    Except SessionError (Session F) := do
  refuse (session.opened.isSome = true) .twoHeaders
  header.datasetReceipt.validate.mapError .invalidReceipt
  refuse (header.datasetReceipt.anchorIdentity.symbolName ≠ header.symbol) .symbolDisagrees
  refuse (header.datasetReceipt.oosWindow ≠ header.oosWindow) .windowDisagrees
  return { session with
    opened := some ⟨header.sessionId, header.sessionSeed, header.symbol, header.datasetReceipt,
      header.goalHash, header.judgeHash, header.costHash, header.oosWindow,
      header.scenariosSource, header.identitySource⟩ }

def applyProposalDrawn (session : Session F) (sweep : SweepId) (slot : Nat)
    (proposal : Proposal) : Session F :=
  let session := session.noteSweep sweep
  { session with
    census := { session.census with proposalsDrawn := session.census.proposalsDrawn + 1 }
    configHashes := session.configHashes.upsert proposal.configHash sweep id
    coverage := proposal.coverageLevels.foldl
      (fun coverage (factor, level) => coverage.credit sweep factor level) session.coverage
    proposals := session.proposals.upsert sweep [] fun slots => placeProposal slots slot proposal }

def applyProposalRefused (session : Session F) (sweep : SweepId) (configHash reason : String) :
    Session F :=
  let session := session.noteSweep sweep
  let census := session.census
  let census :=
    if containsText reason "payoff" || containsText reason "floor" then
      { census with payoffFloorUnreachable := census.payoffFloorUnreachable + 1 }
    else if containsText reason "trust region" then
      { census with trustRegionReverted := census.trustRegionReverted + 1 }
    else census
  { session with census := census.note reason configHash }

def applySweepStarted (session : Session F) (sweep : SweepId) (sweepHash : String)
    (kind : SweepKind) (startedMs : Int) : Except SessionError (Session F) :=
  match session.openSweep with
  | some opened => .error (.alreadyOpen sweep opened.sweep)
  | none =>
    .ok { session.noteSweep sweep with openSweep := some ⟨sweep, sweepHash, kind, startedMs⟩ }

def applySweepCompleted (session : Session F) (sweep : SweepId) (trialsOffered : Nat)
    (perSearch : List (SearchRecord F)) (wallMs : Nat) : Except SessionError (Session F) := do
  let (opened, session) ← session.takeOpen sweep
  let errored := perSearch.filterMap fun search => search.error.map fun e => (e, search.configHash)
  let census := { session.census with
    searchesErrored := session.census.searchesErrored + errored.length }
  let census := errored.foldl (fun census (e, configHash) => census.note e configHash) census
  return ({ session with census := census }).closeSweep opened trialsOffered .completed perSearch
    wallMs

def applySweepFailed (session : Session F) (sweep : SweepId) (trialsOffered : Nat)
    (error : String) : Except SessionError (Session F) := do
  let (opened, session) ← session.takeOpen sweep
  let census := { session.census with sweepsFailed := session.census.sweepsFailed + 1 }
  return ({ session with census := census.note error opened.sweepHash }).closeSweep opened
    trialsOffered (.failed error) [] 0

def applySweepAbandoned (session : Session F) (sweep : SweepId) (trialsOffered : Nat)
    (reason : String) : Except SessionError (Session F) := do
  let (opened, session) ← session.takeOpen sweep
  let census := { session.census with sweepsAbandoned := session.census.sweepsAbandoned + 1 }
  return ({ session with census := census.note reason opened.sweepHash }).closeSweep opened
    trialsOffered (.abandoned reason) [] 0

def applyScreened (session : Session F) (sweep : SweepId) (slot : Nat)
    (screenResult : ScreenResult F) : Session F :=
  let session := session.noteSweep sweep
  let census := match screenResult.censusIndex with
    | some index => { session.census with
        screenFailedByConjunct := session.census.screenFailedByConjunct.modify index (· + 1) }
    | none => session.census
  { session with
    census := census
    screens := session.screens.upsert sweep [] fun slots =>
      placeScreen slots sweep slot screenResult }

def applyBestEverAdvanced [FloatOps F] (session : Session F) (best : BestEver F) : Session F :=
  let session := session.noteSweep best.sweep
  if advancesBest session.bestEver best then { session with bestEver := some best } else session

def applyChampionRecorded (session : Session F) (row : ChampionRow F) :
    Except SessionError (Session F) :=
  let session := session.noteSweep row.sweep
  match session.champions.find? fun champion => champion.sweep = row.sweep with
  | some existing => .error (.twoChampions row.sweep existing.configHash row.configHash)
  | none => .ok { session with champions := session.champions ++ [row] }

def applyShuffleControlCompleted (session : Session F) (block : BlockId) (sourceSweep : SweepId)
    (eScreenPess : Option F) : Session F :=
  match eScreenPess with
  | some e => { session with nullObservations := session.nullObservations ++ [e] }
  | none => { session with
      nullRefusals := session.nullRefusals + 1
      census := session.census.note
        ("a shuffle control produced no E_screen_pess, so it joins the null as a REFUSAL and " ++
          "not as an observation")
        s!"block-{block} (source sweep-{sourceSweep})" }

def applyAwaiting (hash : CompactHash) (session : Session F) (request : QuoteCoverageRequest) :
    Except SessionError (Session F) := do
  (request.validate hash).mapError .invalidCoverage
  let opened ← require session.opened .awaitedBeforeOpened
  refuse (¬(session.stopped.isNone = true ∧ session.oosTouchesSpent = 0)) .awaitedAfterEnd
  refuse (¬(request.sessionId = opened.sessionId ∧ request.window = opened.oosWindow ∧
    request.datasetReceipt = opened.datasetReceipt)) .detachedRequest
  match session.quoteCoverage with
  | none => return { session with quoteCoverage := some (.awaiting request) }
  | some (.awaiting existing) =>
    if existing = request then return session else .error .differentRequest
  | some (.ready _ _) => .error .readyRegressed

def applyReady (hash : CompactHash) (session : Session F) (ready : QuoteCoverageReady) :
    Except SessionError (Session F) := do
  refuse (¬(session.stopped.isNone = true ∧ session.oosTouchesSpent = 0)) .readyAfterEnd
  match session.quoteCoverage with
  | some (.awaiting request) =>
    (ready.validateAgainst hash request).mapError .invalidCoverage
    return { session with quoteCoverage := some (.ready request ready) }
  | some (.ready request coverage) =>
    if coverage = ready then
      (ready.validateAgainst hash request).mapError .invalidCoverage
      return session
    else .error .differentReady
  | none => .error .readyWithoutRequest

def checkTouch (session : Session F) (window : OosWindow) (sweep : SweepId) (candidate : String) :
    Except SessionError Unit :=
  match session.quoteCoverage with
  | some (.awaiting _) => .error .touchBeforeReady
  | some (.ready request _) =>
    refuse (¬(request.window = window ∧ request.sweep = sweep ∧
      request.candidateConfigHash = candidate)) .detachedTouch
  | none => .ok ()

def applyOosTouchSpent (session : Session F) (window : OosWindow) (sweep : SweepId)
    (candidate : String) : Except SessionError (Session F) := do
  refuse (session.oosTouchesSpent ≠ 0) .secondTouch
  session.checkTouch window sweep candidate
  return { session with quoteCoverage := none, oosTouchesSpent := 1 }

def applyGarbageCollected (session : Session F) (sweep : SweepId) (gc : GcCensus) : Session F :=
  let session := session.noteSweep sweep
  let firstPassThatReclaimed := session.census.gcDeletedMatrices = 0 ∧ 0 < gc.deleted
  let census := { session.census with
    gcDeletedMatrices := session.census.gcDeletedMatrices + gc.deleted
    gcBytesReclaimed := session.census.gcBytesReclaimed + gc.bytesReclaimed }
  { session with
    census := if firstPassThatReclaimed then census.note gc.rule s!"gc after sweep-{sweep}"
      else census }

def applySessionStopped (session : Session F) (verdict : SessionVerdict F) :
    Except SessionError (Session F) := do
  refuse (session.quoteCoverage.isSome = true) .stoppedAtCoverage
  return { session with stopped := some verdict }

def applyTruncatedTail (session : Session F) (bytes : Nat) : Session F :=
  { session with
    journalTruncatedBytes := session.journalTruncatedBytes + bytes
    census := session.census.note "journal truncated tail (process killed mid-write)"
      s!"{bytes} bytes" }

def apply [FloatOps F] (hash : CompactHash) (session : Session F) :
    Record F → Except SessionError (Session F)
  | .sessionOpened header => session.applySessionOpened header
  | .proposalDrawn sweep slot proposal _ => .ok (session.applyProposalDrawn sweep slot proposal)
  | .proposalDuplicate sweep _ configHash _ =>
    let session := session.noteSweep sweep
    let census := { session.census with
      duplicatesRefused := session.census.duplicatesRefused + 1 }
    .ok { session with census := census.note "duplicate" configHash }
  | .proposalRefused sweep _ configHash reason =>
    .ok (session.applyProposalRefused sweep configHash reason)
  | .sweepStarted sweep sweepHash kind startedMs =>
    session.applySweepStarted sweep sweepHash kind startedMs
  | .sweepCompleted sweep trialsOffered perSearch wallMs =>
    session.applySweepCompleted sweep trialsOffered perSearch wallMs
  | .sweepFailed sweep trialsOffered error => session.applySweepFailed sweep trialsOffered error
  | .sweepAbandoned sweep trialsOffered reason =>
    session.applySweepAbandoned sweep trialsOffered reason
  | .screened sweep slot screenResult _ => .ok (session.applyScreened sweep slot screenResult)
  | .bestEverAdvanced best => .ok (session.applyBestEverAdvanced best)
  | .championRecorded row => session.applyChampionRecorded row
  | .posteriorUpdated sweep credits =>
    .ok { session with posterior := session.posterior.credit sweep credits }
  | .posteriorRetracted _ sweepIds _ =>
    .ok { session with posterior := session.posterior.retract sweepIds }
  | .shuffleControlCompleted block _ _ sourceSweep _ eScreenPess _ =>
    .ok (session.applyShuffleControlCompleted block sourceSweep eScreenPess)
  | .blockJudged block deltaExpectancy pBlock dsrGap indistinguishable =>
    .ok { session with
      blocks := session.blocks ++ [⟨block, deltaExpectancy, pBlock, dsrGap, indistinguishable⟩] }
  | .awaitingQuoteCoverage request => session.applyAwaiting hash request
  | .quoteCoverageReady ready => session.applyReady hash ready
  | .oosTouchSpent window sweep candidate => session.applyOosTouchSpent window sweep candidate
  | .promoted _ _ _ _ => .ok session
  | .promotionRefused _ _ => .ok session
  | .garbageCollected sweep census => .ok (session.applyGarbageCollected sweep census)
  | .sessionStopped verdict => session.applySessionStopped verdict
  | .truncatedTail bytes => .ok (session.applyTruncatedTail bytes)

def fold [FloatOps F] (hash : CompactHash) (records : List (Record F)) :
    Except SessionError (Session F) :=
  records.foldlM (apply hash) empty

def nSession (session : Session F) : Nat :=
  (session.terminalTrials.map Prod.snd).sum

def nextSweep (session : Session F) : SweepId :=
  session.highestSweep + 1

def sweepsRun (session : Session F) : Nat :=
  session.sweeps.length

def liveSweepsRun (session : Session F) : Nat :=
  (session.sweeps.filter fun summary => summary.kind.isLive).length

def SHUFFLE_PERIOD : Nat := 4

def blockBoundaryDue (session : Session F) : Bool :=
  let live := session.liveSweepsRun
  decide (0 < live ∧ live % SHUFFLE_PERIOD = 0 ∧ session.blocks.length < live / SHUFFLE_PERIOD)

def liveSweepsInBlock (session : Session F) (block : BlockId) : List (SweepSummary F) :=
  ((session.sweeps.filter fun summary => summary.kind.isLive).zipIdx.filter fun (_, index) =>
    index / SHUFFLE_PERIOD = block).map Prod.fst

def proposalsOf (session : Session F) (sweep : SweepId) : Option (List Proposal) :=
  session.proposals.lookup sweep

def oosSpent (session : Session F) : Bool :=
  0 < session.oosTouchesSpent

end Session

/-- `journal::n_session`: the trials of the records that end a sweep. -/
def nSession {F : Type} (journal : List (Record F)) : Nat :=
  (journal.filterMap fun
    | .sweepCompleted _ trialsOffered _ _ => some trialsOffered
    | .sweepFailed _ trialsOffered _ => some trialsOffered
    | .sweepAbandoned _ trialsOffered _ => some trialsOffered
    | _ => none).sum

section Outcomes

variable {F : Type} {session session' : Session F} {sweep : SweepId}

theorem takeOpen_ok_iff {opened : OpenSweep} :
    session.takeOpen sweep = .ok (opened, session') ↔
      session.openSweep = some opened ∧ opened.sweep = sweep ∧
        session' = { session with openSweep := none } := by
  unfold Session.takeOpen
  cases session.openSweep with
  | none => simp
  | some found =>
    simp only
    split
    next hsweep =>
      constructor
      · intro h
        obtain ⟨rfl, rfl⟩ := Prod.mk.inj (Except.ok.inj h)
        exact ⟨rfl, hsweep, rfl⟩
      · intro h
        obtain ⟨hfound, -, rfl⟩ := h
        obtain rfl := Option.some.inj hfound
        rfl
    next hsweep =>
      constructor
      · intro h
        cases h
      · intro h
        obtain ⟨hfound, hopened, -⟩ := h
        obtain rfl := Option.some.inj hfound
        exact absurd hopened hsweep

/-- The sweep was open; it goes to the sweeps that ended, with its trials. -/
def EndsSweep (session session' : Session F) (sweep : SweepId) (trialsOffered : Nat) : Prop :=
  ∃ opened census outcome perSearch wallMs, session.openSweep = some opened ∧
    opened.sweep = sweep ∧
    session' = ({ session with openSweep := none, census := census }).closeSweep opened
      trialsOffered outcome perSearch wallMs

theorem applySweepCompleted_ends {trialsOffered wallMs : Nat} {perSearch : List (SearchRecord F)}
    (h : session.applySweepCompleted sweep trialsOffered perSearch wallMs = .ok session') :
    EndsSweep session session' sweep trialsOffered := by
  rw [Session.applySweepCompleted, bind_ok_iff] at h
  obtain ⟨⟨opened, taken⟩, htaken, h⟩ := h
  obtain ⟨hopened, hsweep, rfl⟩ := takeOpen_ok_iff.mp htaken
  exact ⟨opened, _, _, _, _, hopened, hsweep, (Except.ok.inj h).symm⟩

theorem applySweepFailed_ends {trialsOffered : Nat} {error : String}
    (h : session.applySweepFailed sweep trialsOffered error = .ok session') :
    EndsSweep session session' sweep trialsOffered := by
  rw [Session.applySweepFailed, bind_ok_iff] at h
  obtain ⟨⟨opened, taken⟩, htaken, h⟩ := h
  obtain ⟨hopened, hsweep, rfl⟩ := takeOpen_ok_iff.mp htaken
  exact ⟨opened, _, _, _, _, hopened, hsweep, (Except.ok.inj h).symm⟩

theorem applySweepAbandoned_ends {trialsOffered : Nat} {reason : String}
    (h : session.applySweepAbandoned sweep trialsOffered reason = .ok session') :
    EndsSweep session session' sweep trialsOffered := by
  rw [Session.applySweepAbandoned, bind_ok_iff] at h
  obtain ⟨⟨opened, taken⟩, htaken, h⟩ := h
  obtain ⟨hopened, hsweep, rfl⟩ := takeOpen_ok_iff.mp htaken
  exact ⟨opened, _, _, _, _, hopened, hsweep, (Except.ok.inj h).symm⟩

end Outcomes

/-- The records that have to do with neither the sweeps nor the blocks. -/
def Record.isQuiet {F : Type} : Record F → Bool
  | sweepStarted _ _ _ _ | sweepCompleted _ _ _ _ | sweepFailed _ _ _ | sweepAbandoned _ _ _
  | shuffleControlCompleted _ _ _ _ _ _ _ | blockJudged _ _ _ _ _ | posteriorRetracted _ _ _ =>
    false
  | _ => true

/-- The part of a session that only the records of sweeps and blocks change. -/
structure Course (F : Type) where
  sweeps : List (SweepSummary F)
  openSweep : Option OpenSweep
  terminalTrials : List (SweepId × Nat)
  blocks : List (BlockOutcome F)
  nullObservations : List F
  nullRefusals : Nat
  retractedSweeps : Finset SweepId

def Session.course {F : Type} (session : Session F) : Course F :=
  ⟨session.sweeps, session.openSweep, session.terminalTrials, session.blocks,
    session.nullObservations, session.nullRefusals, session.posterior.retractedSweeps⟩

/-- A record that names a sweep may raise the highest one all the same. -/
structure SameCourse {F : Type} (session session' : Session F) : Prop where
  course : session'.course = session.course
  highestSweep : session.highestSweep ≤ session'.highestSweep

section Quiet

variable {F : Type} {hash : CompactHash} {session session' : Session F}

theorem applyAwaiting_same {request : QuoteCoverageRequest}
    (h : session.applyAwaiting hash request = .ok session') : SameCourse session session' := by
  simp only [Session.applyAwaiting, bind_ok_iff] at h
  obtain ⟨_, _, opened, _, _, _, _, _, h⟩ := h
  split at h
  next =>
    obtain rfl := Except.ok.inj h
    exact ⟨rfl, le_refl _⟩
  next =>
    split at h
    next =>
      obtain rfl := Except.ok.inj h
      exact ⟨rfl, le_refl _⟩
    next => cases h
  next => cases h

theorem applyReady_same {ready : QuoteCoverageReady}
    (h : session.applyReady hash ready = .ok session') : SameCourse session session' := by
  simp only [Session.applyReady, bind_ok_iff] at h
  obtain ⟨_, _, h⟩ := h
  split at h
  next =>
    obtain ⟨_, _, h⟩ := bind_ok_iff.mp h
    obtain rfl := Except.ok.inj h
    exact ⟨rfl, le_refl _⟩
  next =>
    split at h
    next =>
      obtain ⟨_, _, h⟩ := bind_ok_iff.mp h
      obtain rfl := Except.ok.inj h
      exact ⟨rfl, le_refl _⟩
    next => cases h
  next => cases h

theorem apply_quiet [FloatOps F] {record : Record F} (hrecord : record.isQuiet = true)
    (h : session.apply hash record = .ok session') : SameCourse session session' := by
  have hpure {other : Session F}
      (hother : (.ok other : Except SessionError (Session F)) = .ok session')
      (hsame : SameCourse session other) : SameCourse session session' := by
    obtain rfl := Except.ok.inj hother
    exact hsame
  cases record with
  | sweepStarted | sweepCompleted | sweepFailed | sweepAbandoned | shuffleControlCompleted
  | blockJudged | posteriorRetracted => simp [Record.isQuiet] at hrecord
  | awaitingQuoteCoverage request => exact applyAwaiting_same h
  | quoteCoverageReady ready => exact applyReady_same h
  | sessionOpened header =>
    simp only [Session.apply, Session.applySessionOpened, bind_ok_iff] at h
    obtain ⟨_, _, _, _, _, _, _, _, h⟩ := h
    exact hpure h ⟨rfl, le_refl _⟩
  | oosTouchSpent window sweep candidate =>
    simp only [Session.apply, Session.applyOosTouchSpent, bind_ok_iff] at h
    obtain ⟨_, _, _, _, h⟩ := h
    exact hpure h ⟨rfl, le_refl _⟩
  | sessionStopped verdict =>
    simp only [Session.apply, Session.applySessionStopped, bind_ok_iff] at h
    obtain ⟨_, _, h⟩ := h
    exact hpure h ⟨rfl, le_refl _⟩
  | championRecorded row =>
    simp only [Session.apply, Session.applyChampionRecorded] at h
    split at h
    next => cases h
    next => exact hpure h ⟨rfl, le_max_left _ _⟩
  | bestEverAdvanced best =>
    obtain rfl := Except.ok.inj h
    unfold Session.applyBestEverAdvanced
    simp only
    split
    next => exact ⟨rfl, le_max_left _ _⟩
    next => exact ⟨rfl, le_max_left _ _⟩
  | proposalDrawn sweep | proposalDuplicate sweep | proposalRefused sweep | screened sweep
  | garbageCollected sweep => exact hpure h ⟨rfl, le_max_left _ _⟩
  | posteriorUpdated | promoted | promotionRefused | truncatedTail =>
    exact hpure h ⟨rfl, le_refl _⟩

end Quiet

end Neoethos
