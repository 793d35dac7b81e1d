import Neoethos.Durable
import Neoethos.Machine
import Neoethos.Session

namespace Neoethos

open Durable

/-- The journal and the ledger lines that are on the disk, and the session in memory. -/
structure RunnerState (F : Type) (hash : CompactHash) where
  records : List (Record F)
  session : Session F
  partials : List (SweepId × Nat × Nat)

inductive RunnerWrite (F : Type)
  | journal (record : Record F)
  | ledger (sweep : SweepId) (slot trialsOffered : Nat)

/-- A record that the session refuses is on the disk all the same. -/
instance {F : Type} [FloatOps F] {hash : CompactHash} :
    DurableStore (RunnerState F hash) (RunnerWrite F) where
  write s
    | .journal record => { s with
        records := s.records ++ [record]
        session := (s.session.apply hash record).toOption.getD s.session }
    | .ledger sweep slot trialsOffered =>
      { s with partials := s.partials ++ [(sweep, slot, trialsOffered)] }

inductive RunnerError
  | refused (error : SessionError)
  | outside (detail : String)
  | notDense (sweep : SweepId) (position slot : Nat)
  | nothingDrawn (sweep : SweepId)
  | renamedSlot (sweep : SweepId) (requested returned : Nat)
  | missingRows (sweep : SweepId) (rows proposals : Nat)
  | wrongDenominator (sweep : SweepId) (deflated folded : Nat)
  | noBestSweep (block : BlockId)
  | noProposals (block : BlockId) (source : SweepId)
  | touchSpent
  | noRequest
  | differentRequest
  | coverage (error : QuoteCoverageError)
  | outOfTurns

/-- What a `SweepFailed` record quotes of an error. -/
def RunnerError.text : RunnerError → String
  | outside detail => detail
  | renamedSlot sweep requested returned =>
    s!"sweep-{sweep}: the executor was asked to run slot {requested} and returned an outcome " ++
      s!"naming slot {returned}. A slot names its proposal, so an outcome that renames itself " ++
      "would file this search's statistics, its trial-returns matrix and possibly the one " ++
      "out-of-sample touch under a different configuration."
  | missingRows sweep rows proposals =>
    s!"sweep-{sweep} produced {rows} search records for {proposals} proposals. Every proposal " ++
      "contributes exactly one row — a refused one contributes a NOT-RUN row — so a short " ++
      "vector means a slot was dropped and every slot after it now names a different experiment."
  | _ => ""

structure DuplicateDraw where
  slot : Nat
  configHash : String
  firstSeenSweep : SweepId

structure RefusedDraw where
  slot : Nat
  configHash : String
  reason : String

structure DrawnSweep where
  proposals : List Proposal
  duplicates : List DuplicateDraw
  refused : List RefusedDraw
  exhausted : Bool

/-- One search's row, and its deflated Sharpe ratio, or the refusal of it, against any number of
trials. -/
structure SearchOutcome (F : Type) where
  row : SearchRecord F
  redeflated : Nat → Option F × Option String

def SearchOutcome.toRecord {F : Type} (outcome : SearchOutcome F) (trials : Nat) : SearchRecord F :=
  { outcome.row with
    dsr := (outcome.redeflated trials).1
    dsrRefusal := (outcome.redeflated trials).2 }

def NOT_RUN_PREFIX : String := "NOT RUN — "

def SearchOutcome.refusedBeforeRunning {F : Type} (slot : Nat) (configHash reason : String) :
    SearchOutcome F :=
  let detail := NOT_RUN_PREFIX ++ "the proposal was refused before a bar was read and NO SEARCH " ++
    "TOOK PLACE, so this row carries no evidence about the configuration it names. It is kept " ++
    s!"so the sweep's rows stay one-per-proposal and slot {slot} still names slot {slot}. " ++
    s!"Reason: {reason}"
  { row :=
      { slot := slot
        configHash := configHash
        trialsOffered := 0
        survivors := 0
        eScreenPess := none
        nTrades := 0
        dsr := none
        pbo := none
        dsrRefusal := some ("REFUSED: " ++ detail)
        pboRefusal := some ("REFUSED: " ++ detail)
        costBand := ⟨0, 0, 0, 0, 0, false⟩
        rejections := []
        streamed := false
        batchColumns := 0
        nextCursor := 0
        wallMs := 0
        error := some detail }
    redeflated := fun _ => (none, some ("REFUSED: " ++ detail)) }

/-- What the loop over a sweep's proposals has so far. -/
structure SweepTally (F : Type) where
  outcomes : List (SearchOutcome F)
  notRun : List (Nat × String)
  trialsOffered : Nat

structure SweepRun (F : Type) where
  sweep : SweepId
  kind : SweepKind
  perSearch : List (SearchRecord F)
  trialsOffered : Nat
  notRun : List (Nat × String)

structure SweepChampion (F : Type) where
  configHash : String
  eScreenPess : F
  slot : Option Nat
  row : Option (ChampionRow F)
  nTrades : Nat
  dsr : Option F
  pbo : Option F

/-- The judge's screen, keyed by slot, with the credits that the proposer draws from it. -/
structure AlignedScreen (F : Type) where
  rows : List (Nat × ScreenResult F × Option String)
  credits : List PosteriorCredit
  champion : Option (SweepChampion F)

structure PromotionCandidate where
  sweep : SweepId
  slot : Nat
  configHash : String

inductive StopReason
  | goalReached
  | promotionRefused
  | proposerExhausted
  | goalUnreachable
  | budgetExhausted (sweepsRun maxSweeps : Nat)
  | wallClock
  | operatorStop
  | infrastructureAbort

inductive Decision
  | goOn
  | promote (candidate : PromotionCandidate)
  | stop (reason : StopReason)

inductive QuoteCoverageWaitReason
  | noProvider
  | pending
  | cancelled

inductive QuoteCoverageProviderOutcome
  | pending
  | cancelled
  | ready (ready : QuoteCoverageReady)

inductive AutoresearchRunOutcome (F : Type)
  | terminal (verdict : SessionVerdict F)
  | awaitingQuoteCoverage (request : QuoteCoverageRequest) (reason : QuoteCoverageWaitReason)
  | quoteCoverageReady (request : QuoteCoverageRequest) (coverage : QuoteCoverageReady)

/-- What the loop asks of its surroundings: the settings, the file system, the clock, the proposer,
the executor, the judge and the provider of quote coverage. Each of them may give any answer in any
state. -/
structure Surroundings (F : Type) (hash : CompactHash) where
  prepare : Except String Unit
  header : SessionHeaderRecord
  selfcheck : RunnerState F hash → Except String Unit
  dryRun : Bool
  maxSweeps : Nat
  outOfTime : RunnerState F hash → Bool
  nowMs : RunnerState F hash → Int
  wallMs : RunnerState F hash → Nat
  store : String → RunnerState F hash → Except String Unit
  fnv64 : String → String
  drawSweep : SweepId → RunnerState F hash → Except String DrawnSweep
  resolve : Proposal → RunnerState F hash → Except String Unit
  execute : SweepId → Proposal → Option F → RunnerState F hash → Except String (SearchOutcome F)
  firstSweepReadable : RunnerState F hash → Except String Unit
  screen : SweepRun F → List Proposal → RunnerState F hash → Except String (AlignedScreen F)
  tau : Session F → BlockId → F
  blockOneStreamed : RunnerState F hash → Except String Unit
  decision : Session F → Decision
  verdict : StopReason → Session F → SessionVerdict F
  gcTrialMatrices : RunnerState F hash → Except String GcCensus
  finalist : PromotionCandidate → RunnerState F hash → Except StopReason QuoteCoverageRequest
  provideQuoteCoverage :
    Option (QuoteCoverageRequest → RunnerState F hash → Except String QuoteCoverageProviderOutcome)

/-- `recover_partial_trials`. -/
def recoverPartialTrials (partials : List (SweepId × Nat × Nat)) (sweep : SweepId) : Nat :=
  ((partials.filter fun line => line.1 = sweep).map fun line => line.2.2).sum

/-- `Iterator::reduce`. -/
def reduce? {α : Type} (f : α → α → α) : List α → Option α
  | [] => none
  | x :: xs => some (xs.foldl f x)

section Blocks

variable {F : Type} [FloatOps F]

/-- The best expectancy that a live sweep of the block recorded, and which sweep. -/
def blockBest (session : Session F) (block : BlockId) : Option (SweepId × F) :=
  reduce? (fun a b => if FloatOps.lt a.2 b.2 then b else a)
    ((session.liveSweepsInBlock block).filterMap fun summary =>
      (reduce? FloatOps.max ((summary.perSearch.filterMap SearchRecord.eScreenPess).filter
        FloatOps.isFinite)).map fun e => (summary.sweep, e))

def bestSweepOfBlock (session : Session F) (block : BlockId) : Option SweepId :=
  (blockBest session block).map Prod.fst

def judgeBlock (session : Session F) (block : BlockId) (controlBest controlDsr : Option F) :
    BlockOutcome F :=
  let best := blockBest session block
  let liveBest := best.map Prod.snd
  let liveDsr := best.bind fun source =>
    reduce? FloatOps.max (((session.liveSweepsInBlock block).filter fun summary =>
      summary.sweep = source.1).filterMap fun summary =>
        reduce? FloatOps.max ((summary.perSearch.filterMap SearchRecord.dsr).filter
          FloatOps.isFinite))
  let controlBest := controlBest.filter FloatOps.isFinite
  let controlDsr := controlDsr.filter FloatOps.isFinite
  let delta := match liveBest, controlBest with
    | some l, some c => l - c
    | _, _ => FloatOps.lit 0
  let pBlock := match liveBest, controlBest with
    | some l, some c => if FloatOps.le l c then FloatOps.lit 1 else FloatOps.lit 0
    | _, _ => FloatOps.lit 1
  let dsrGap := match liveDsr, controlDsr with
    | some l, some c => l - c
    | _, _ => FloatOps.lit 0
  ⟨block, delta, pBlock, dsrGap, FloatOps.le delta (FloatOps.lit 0) ||
    FloatOps.le (FloatOps.lit 1) pBlock || FloatOps.le dsrGap (FloatOps.lit 0)⟩

end Blocks

section Runner

variable {F : Type} [FloatOps F] {hash : CompactHash}

abbrev Runner (F : Type) (hash : CompactHash) (α : Type) : Type :=
  Durable (RunnerState F hash) (RunnerWrite F) RunnerError α

/-- `SessionWriter::append`. -/
def append (record : Record F) : Runner F hash Unit := do
  let s ← get
  write (.journal record)
  lift ((s.session.apply hash record).mapError .refused |>.map fun _ => ())

def ask {α : Type} (answer : RunnerState F hash → Except String α) : Runner F hash α := do
  let s ← get
  lift ((answer s).mapError .outside)

def assertDrawOrderIsDense (sweep : SweepId) (proposals : List Proposal) :
    Except RunnerError Unit :=
  forM proposals.zipIdx fun (proposal, position) =>
    Fallible.refuse (proposal.slot ≠ position) (.notDense sweep position proposal.slot)

def assertOutcomeNamesItsRequest (sweep : SweepId) (requested returned : Nat) :
    Except RunnerError Unit :=
  Fallible.refuse (requested ≠ returned) (.renamedSlot sweep requested returned)

namespace Surroundings

variable (w : Surroundings F hash)

def sweepHashOf (proposals : List Proposal) : String :=
  w.fnv64 (String.intercalate "|" (proposals.map Proposal.configHash))

def budgetExhausted (s : RunnerState F hash) : Option StopReason :=
  if w.maxSweeps ≤ s.session.sweepsRun then
    some (.budgetExhausted s.session.sweepsRun w.maxSweeps)
  else if w.outOfTime s then some .wallClock
  else none

def recordPartial (sweep : SweepId) (slot trialsOffered : Nat) : Runner F hash Unit := do
  ask (w.store "opening the partial ledger")
  write (.ledger sweep slot trialsOffered)
  ask (w.store "fsyncing the partial ledger")

def runProposals (sweep : SweepId) (tau : Option F) :
    List Proposal → SweepTally F → Runner F hash (SweepTally F)
  | [], tally => pure tally
  | proposal :: rest, tally => do
    let s ← get
    match w.resolve proposal s with
    | .error reason =>
      append (.proposalRefused sweep proposal.slot proposal.configHash
        ("delta could not be applied: " ++ reason))
      runProposals sweep tau rest { tally with
        outcomes := tally.outcomes ++
          [.refusedBeforeRunning proposal.slot proposal.configHash reason]
        notRun := tally.notRun ++ [(proposal.slot, reason)] }
    | .ok () =>
      let executed := do
        let outcome ← (w.execute sweep proposal tau s).mapError RunnerError.outside
        assertOutcomeNamesItsRequest sweep proposal.slot outcome.row.slot
        return outcome
      match executed with
      | .ok outcome =>
        w.recordPartial sweep proposal.slot outcome.row.trialsOffered
        runProposals sweep tau rest { tally with
          outcomes := tally.outcomes ++ [outcome]
          trialsOffered := tally.trialsOffered + outcome.row.trialsOffered }
      | .error e =>
        -- the sweep is closed by a record, and its trials still count
        append (.sweepFailed sweep
          (max (recoverPartialTrials s.partials sweep) tally.trialsOffered) e.text)
        fail e

/-- What follows the loop: the rows are deflated against the session's trials and the sweep is
closed. -/
def completeSweep (sweep : SweepId) (kind : SweepKind) (proposals : List Proposal)
    (tally : SweepTally F) : Runner F hash (SweepRun F) := do
  let s ← get
  if tally.outcomes.length ≠ proposals.length then
    let e := RunnerError.missingRows sweep tally.outcomes.length proposals.length
    append (.sweepFailed sweep
      (max (recoverPartialTrials s.partials sweep) tally.trialsOffered) e.text)
    fail e
  else
    let nSessionAfter := s.session.nSession + tally.trialsOffered
    let perSearch := tally.outcomes.map fun outcome => outcome.toRecord nSessionAfter
    ask (w.store "statistics.json")
    ask (w.store "censuses.json")
    append (.sweepCompleted sweep tally.trialsOffered perSearch (w.wallMs s))
    let closed ← get
    if closed.session.nSession ≠ nSessionAfter then
      fail (.wrongDenominator sweep nSessionAfter closed.session.nSession)
    else pure ⟨sweep, kind, perSearch, tally.trialsOffered, tally.notRun⟩

def runSweep (sweep : SweepId) (kind : SweepKind) (proposals : List Proposal) (tau : Option F) :
    Runner F hash (SweepRun F) := do
  lift (assertDrawOrderIsDense sweep proposals)
  ask (w.store "prepare_sweep")
  ask (w.store "proposals.json")
  let s ← get
  append (.sweepStarted sweep (w.sweepHashOf proposals) kind (w.nowMs s))
  let tally ← w.runProposals sweep tau proposals ⟨[], [], 0⟩
  w.completeSweep sweep kind proposals tally

/-- The duplicates, the refusals and the proposals of a draw, as they go into the journal. -/
def drawRecords (sweep : SweepId) (drawn : DrawnSweep) : List (Record F) × List (Record F) :=
  ((drawn.duplicates.map fun d => .proposalDuplicate sweep d.slot d.configHash d.firstSeenSweep) ++
      drawn.refused.map fun r => .proposalRefused sweep r.slot r.configHash r.reason,
    drawn.proposals.map fun p => .proposalDrawn sweep p.slot p p.origin)

def journalDraw (sweep : SweepId) (drawn : DrawnSweep) : Runner F hash Unit := do
  forM (drawRecords sweep drawn).1 append
  lift (assertDrawOrderIsDense sweep drawn.proposals)
  forM (drawRecords sweep drawn).2 append

def stop (reason : StopReason) : Runner F hash (SessionVerdict F) := do
  let s ← get
  append (.sessionStopped (w.verdict reason s.session))
  ask (w.store "verdict.json")
  return w.verdict reason s.session

def stopBoundary (reason : StopReason) : Runner F hash (AutoresearchRunOutcome F) := do
  let verdict ← w.stop reason
  return .terminal verdict

def gc (sweep : SweepId) : Runner F hash Unit := do
  let census ← ask w.gcTrialMatrices
  append (.garbageCollected sweep census)

def runDry : Runner F hash (SessionVerdict F) := do
  let s ← get
  let sweep := s.session.nextSweep
  let drawn ← ask (w.drawSweep sweep)
  journalDraw sweep drawn
  ask (w.store "prepare_sweep")
  ask (w.store "proposals.json")
  w.stop .operatorStop

/-- `provide_quote_coverage_v1`, and what is made of its answer. -/
def askProvider (request : QuoteCoverageRequest) : Runner F hash (AutoresearchRunOutcome F) :=
  match w.provideQuoteCoverage with
  | none => pure (.awaitingQuoteCoverage request .noProvider)
  | some provider => do
    match ← ask (provider request) with
    | .pending => pure (.awaitingQuoteCoverage request .pending)
    | .cancelled => pure (.awaitingQuoteCoverage request .cancelled)
    | .ready ready =>
      lift ((ready.validateAgainst hash request).mapError .coverage)
      append (.quoteCoverageReady ready)
      return .quoteCoverageReady request ready

def advanceQuoteCoverageBoundary (initialRequest : Option QuoteCoverageRequest) :
    Runner F hash (AutoresearchRunOutcome F) := do
  let s ← get
  match s.session.quoteCoverage with
  | some (.ready request coverage) =>
    lift (Fallible.refuse (∃ initial ∈ initialRequest, initial ≠ request) .differentRequest)
    return .quoteCoverageReady request coverage
  | some (.awaiting request) =>
    lift (Fallible.refuse (∃ initial ∈ initialRequest, initial ≠ request) .differentRequest)
    w.askProvider request
  | none =>
    let request ← lift (Fallible.require initialRequest .noRequest)
    lift ((request.validate hash).mapError .coverage)
    append (.awaitingQuoteCoverage request)
    w.askProvider request

/-- Everything before the request can refuse, and stops the session with the window unspent. -/
def promote (candidate : PromotionCandidate) : Runner F hash (AutoresearchRunOutcome F) := do
  let s ← get
  lift (Fallible.refuse (s.session.oosSpent = true) .touchSpent)
  match w.finalist candidate s with
  | .error reason => w.stopBoundary reason
  | .ok request => w.advanceQuoteCoverageBoundary (some request)

/-- The control's best expectancy and best deflated Sharpe ratio, without regard to finiteness. -/
def controlBest (perSearch : List (SearchRecord F)) : Option F × Option F :=
  (reduce? FloatOps.max (perSearch.filterMap SearchRecord.eScreenPess),
    reduce? FloatOps.max (perSearch.filterMap SearchRecord.dsr))

/-- The judgement of a block whose control has run, and the retraction if it says so. -/
def judgeControl (block : BlockId) (source : SweepId) (run : SweepRun F) : Runner F hash Unit := do
  let s ← get
  let best := controlBest run.perSearch
  append (.shuffleControlCompleted block .circularRotation (w.tau s.session block) source
    run.trialsOffered best.1 best.2)
  let s ← get
  let judgement := judgeBlock s.session block best.1 best.2
  append (.blockJudged block judgement.deltaExpectancy judgement.pBlock judgement.dsrGap
    judgement.indistinguishable)
  if judgement.indistinguishable then
    let s ← get
    append (.posteriorRetracted block ((s.session.liveSweepsInBlock block).map SweepSummary.sweep)
      "block indistinguishable")
  else pure ()

def runBlockControl : Runner F hash Unit := do
  let s ← get
  let block := s.session.blocks.length
  let source ← lift (Fallible.require (bestSweepOfBlock s.session block) (.noBestSweep block))
  let proposals ← lift (Fallible.require (s.session.proposalsOf source) (.noProposals block source))
  let run ← w.runSweep s.session.nextSweep (.control .circularRotation source block) proposals
    (some (w.tau s.session block))
  w.judgeControl block source run

/-- A step of a turn, unless one before it has ended the process's work. -/
def unlessOver (ended : Option (AutoresearchRunOutcome F))
    (step : Runner F hash (Option (AutoresearchRunOutcome F))) :
    Runner F hash (Option (AutoresearchRunOutcome F)) :=
  match ended with
  | some outcome => pure (some outcome)
  | none => step

/-- The champion of a sweep: its row, and its result if it is the session's best. -/
def recordChampion (sweep : SweepId) (champion : SweepChampion F) :
    Runner F hash (Option (AutoresearchRunOutcome F)) :=
  match champion.slot with
  | none => some <$> w.stopBoundary .infrastructureAbort
  | some slot => do
    match champion.row with
    | some row => do
      append (.championRecorded row)
      ask (w.store "champions.json")
    | none => pure ()
    let s ← get
    let best : BestEver F := ⟨sweep, slot, champion.configHash, champion.eScreenPess,
      champion.nTrades, champion.dsr, champion.pbo⟩
    if advancesBest s.session.bestEver best then append (.bestEverAdvanced best) else pure ()
    return none

def recordScreen (sweep : SweepId) (proposals : List Proposal) (run : SweepRun F) :
    Runner F hash (Option (AutoresearchRunOutcome F)) := do
  let s ← get
  match w.screen run proposals s with
  | .error _ => some <$> w.stopBoundary .infrastructureAbort
  | .ok aligned =>
    forM (aligned.rows.map fun row => .screened sweep row.1 row.2.1 row.2.2) append
    append (.posteriorUpdated sweep aligned.credits)
    match aligned.champion with
    | none => pure none
    | some champion => w.recordChampion sweep champion

def closeBlock : Runner F hash (Option (AutoresearchRunOutcome F)) := do
  let s ← get
  if s.session.blockBoundaryDue then
    match ← attempt w.runBlockControl with
    | .error _ => some <$> w.stopBoundary .infrastructureAbort
    | .ok () =>
      let s ← get
      if s.session.blocks.length = 1 ∧ (w.blockOneStreamed s).toOption = none then
        some <$> w.stopBoundary .infrastructureAbort
      else pure none
  else pure none

def decideTurn (sweep : SweepId) : Runner F hash (Option (AutoresearchRunOutcome F)) := do
  let s ← get
  match w.decision s.session with
  | .goOn =>
    w.gc sweep
    return none
  | .promote candidate => some <$> w.promote candidate
  | .stop reason => some <$> w.stopBoundary reason

def judgeSweep (sweep : SweepId) (proposals : List Proposal) (run : SweepRun F) :
    Runner F hash (Option (AutoresearchRunOutcome F)) := do
  let s ← get
  if run.notRun.length = proposals.length ∨
      s.session.liveSweepsRun = 1 ∧ (w.firstSweepReadable s).toOption = none then
    some <$> w.stopBoundary .infrastructureAbort
  else
    let ended ← w.recordScreen sweep proposals run
    let ended ← unlessOver ended w.closeBlock
    unlessOver ended (w.decideTurn sweep)

/-- One turn of the loop; `none` asks for another. -/
def turn : Runner F hash (Option (AutoresearchRunOutcome F)) := do
  let s ← get
  match w.budgetExhausted s with
  | some reason => some <$> w.stopBoundary reason
  | none =>
    let sweep := s.session.nextSweep
    let drawn ← ask (w.drawSweep sweep)
    journalDraw sweep drawn
    if drawn.exhausted then some <$> w.stopBoundary .proposerExhausted
    else if drawn.proposals = [] then fail (.nothingDrawn sweep)
    else
      match ← attempt (w.runSweep sweep .live drawn.proposals none) with
      | .error _ => some <$> w.stopBoundary .infrastructureAbort
      | .ok run => w.judgeSweep sweep drawn.proposals run

def turns : Nat → Runner F hash (AutoresearchRunOutcome F)
  | 0 => fail .outOfTurns
  | n + 1 => do
    match ← w.turn with
    | some outcome => pure outcome
    | none => turns n

/-- The records that an opened journal gets before anything else: the header of a new one, and the
end of a sweep that a process died in. -/
def openOrResume : Runner F hash Unit := do
  let s ← get
  if s.records = [] then append (.sessionOpened w.header) else pure ()
  let s ← get
  match s.session.openSweep with
  | some opened =>
    append (.sweepAbandoned opened.sweep (recoverPartialTrials s.partials opened.sweep)
      "process died between the SweepStarted intent and its outcome")
  | none => pure ()
  ask w.selfcheck

/-- `run_until_boundary_with_executor_v1` on an opened journal. -/
def runUntilBoundary (n : Nat) : Runner F hash (AutoresearchRunOutcome F) := do
  w.openOrResume
  let s ← get
  match s.session.stopped with
  | some verdict => pure (.terminal verdict)
  | none =>
    if s.session.quoteCoverage.isSome then w.advanceQuoteCoverageBoundary none
    else if w.dryRun then do
      let verdict ← w.runDry
      return .terminal verdict
    else w.turns n

end Surroundings

/-- One process: what surrounds it, the turns it has time for, and the number of writes after which
it dies if it has not ended before. -/
structure RunnerProcess (F : Type) (hash : CompactHash) where
  surroundings : Surroundings F hash
  turns : Nat
  writes : Nat

/-- `SessionWriter::open` folds the journal; a process that cannot do that writes nothing. -/
def RunnerState.reopen (s : RunnerState F hash) : Option (RunnerState F hash) :=
  (Session.fold hash s.records).toOption.map fun session => { s with session := session }

def runnerNext (s : RunnerState F hash) (process : RunnerProcess F hash) : RunnerState F hash :=
  match process.surroundings.prepare, s.reopen with
  | .ok (), some opened =>
    after opened ((process.surroundings.runUntilBoundary process.turns opened).1.take
      process.writes)
  | _, _ => s

def runnerMachine (F : Type) [FloatOps F] (hash : CompactHash) :
    Machine (RunnerState F hash) (RunnerProcess F hash) Unit where
  start := ⟨[], Session.empty, []⟩
  next s process := some ((), runnerNext s process)

end Runner

end Neoethos
