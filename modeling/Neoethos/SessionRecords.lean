import Neoethos.FloatOps
import Neoethos.QuoteCoverage

namespace Neoethos

abbrev BlockId := Nat

structure CostBandCounts where
  survives : Nat
  optimisticEdgeOnly : Nat
  fails : Nat
  unmeasured : Nat
  notDiscriminating : Nat
  discriminates : Bool
  deriving DecidableEq

structure RiskOutcomeRecord (F : Type) where
  riskFraction : F
  pReachTarget : F
  pRuin : F
  medianTerminal : F
  meanTerminal : F
  medianDaysToTarget : Option F
  reachedPaths : Nat
  paths : Nat
  deriving DecidableEq

inductive ControlKind
  | circularRotation
  | columnPermutation
  deriving DecidableEq

inductive SweepKind
  | live
  | control (control : ControlKind) (sourceSweep : SweepId) (block : BlockId)
  deriving DecidableEq

def SweepKind.isLive : SweepKind → Bool
  | live => true
  | control _ _ _ => false

structure SearchRecord (F : Type) where
  slot : Nat
  configHash : String
  trialsOffered : Nat
  survivors : Nat
  eScreenPess : Option F
  nTrades : Nat
  dsr : Option F
  pbo : Option F
  dsrRefusal : Option String
  pboRefusal : Option String
  costBand : CostBandCounts
  rejections : List (String × Nat)
  streamed : Bool
  batchColumns : Nat
  nextCursor : Nat
  wallMs : Nat
  error : Option String
  deriving DecidableEq

structure PosteriorCredit where
  factor : String
  level : String
  success : Bool
  deriving DecidableEq

abbrev NamedValues := List (String × String)

/-- A proposal, with its point on the two axes as the `(factor, level)` pairs that
`coverage_levels` gives for it. -/
structure Proposal where
  parent : Option SweepId
  coverageLevels : List (String × String)
  replicateSeed : Nat
  origin : String
  slot : Nat
  configHash : String
  deriving DecidableEq

inductive ScreenConjunct
  | s1Pbo
  | s2Dsr
  | s3CostBand
  | s4Expectancy
  | s5Trades
  | s6Shuffle
  | unavailable
  deriving DecidableEq

def ScreenConjunct.index : ScreenConjunct → Nat
  | s1Pbo => 0
  | s2Dsr => 1
  | s3CostBand => 2
  | s4Expectancy => 3
  | s5Trades => 4
  | s6Shuffle => 5
  | unavailable => 6

inductive ScreenResult (F : Type)
  | passed (eScreenPess dsr pboSweep excessOverExpectedMaxPerPeriod : F) (nTrades : Nat)
      (qShuffle95 : F)
  | failed (conjunct : ScreenConjunct) (detail : String)
  | unavailable (detail : String)
  deriving DecidableEq

def ScreenResult.censusIndex {F : Type} : ScreenResult F → Option Nat
  | passed _ _ _ _ _ _ => none
  | failed conjunct _ => some conjunct.index
  | unavailable _ => some ScreenConjunct.unavailable.index

structure BestEver (F : Type) where
  sweep : SweepId
  slot : Nat
  configHash : String
  eScreenPess : F
  nTrades : Nat
  dsr : Option F
  pbo : Option F
  deriving DecidableEq

structure ChampionRow (F : Type) where
  sweep : SweepId
  configHash : String
  strategyId : String
  periodKeys : List Int
  monthlyReturns : List F
  eScreenPess : F
  deriving DecidableEq

structure GcCensus where
  kept : Nat
  deleted : Nat
  bytesReclaimed : Nat
  rule : String
  freeBytesAfter : Option Nat
  deriving DecidableEq

structure AbandonCensus where
  proposalsDrawn : Nat
  duplicatesRefused : Nat
  payoffFloorUnreachable : Nat
  trustRegionReverted : Nat
  searchesErrored : Nat
  sweepsFailed : Nat
  sweepsAbandoned : Nat
  screenFailedByConjunct : List Nat
  gcDeletedMatrices : Nat
  gcBytesReclaimed : Nat
  examples : List (String × String)
  deriving DecidableEq

structure PromotionOutcome (F : Type) where
  sweep : SweepId
  slot : Nat
  window : OosWindow
  promoted : Bool
  failingConjunct : Option String
  detail : String
  nTrades : Nat
  nMinOos : Nat
  eOosPessPips : Option F
  seOosPips : Option F
  tStat : Option F
  bandSurvives : Bool
  pboSession : Option F
  goalMetric : F
  goalBar : F
  frontier : List (RiskOutcomeRecord F)
  bestRiskFraction : Option F
  pRuinAtBest : Option F
  monthsTotal : Nat
  monthsClearingTarget : Nat
  notes : List String
  deriving DecidableEq

structure ShuffleSummary (F : Type) where
  blocksJudged : Nat
  indistinguishable : Nat
  sessionP : Option F
  bestLiveEScreenPess : Option F
  bestShuffleEScreenPess : Option F
  qShuffle95 : Option F
  nullObservations : Nat
  nullRefusals : Nat
  nullAvailable : Bool
  deriving DecidableEq

structure UnreachableCondition where
  id : String
  satisfied : Bool
  detail : String
  deriving DecidableEq

structure UnreachableCheck where
  satisfied : Bool
  conditions : List UnreachableCondition
  deriving DecidableEq

inductive Verdict (F : Type)
  | goalReached (sweep : SweepId) (slot : Nat) (goalMetric goalBar : Option F)
      (frontier : List (RiskOutcomeRecord F))
  | goalUnreachableInSearchedSpace (distinctConfigurations : Nat) (proposerExhausted : Bool)
  | inconclusive (reason : String)
  deriving DecidableEq

structure SessionVerdict (F : Type) where
  schema : String
  verdict : Verdict F
  sessionId : String
  symbol : String
  datasetReceipt : DatasetReceipt
  goalHash : String
  judgeHash : String
  costHash : String
  scenarioLabel : String
  scenarioFields : List (String × String)
  scenariosSource : String
  oosWindow : OosWindow
  sweepsRun : Nat
  liveSweepsRun : Nat
  searchesRun : Nat
  nTrialsSession : Nat
  bestEver : Option (BestEver F)
  shuffle : ShuffleSummary F
  unreachable : UnreachableCheck
  coverage : List (String × String × Nat × Nat)
  census : AbandonCensus
  oos : Option (PromotionOutcome F)
  reproduction : String
  deriving DecidableEq

structure SessionHeaderRecord where
  sessionId : SessionId
  sessionSeed : Nat
  goalHash : String
  judgeHash : String
  costHash : String
  goals : NamedValues
  scenariosSource : String
  judge : NamedValues
  costs : NamedValues
  oosWindow : OosWindow
  priors : String
  budget : NamedValues
  identitySource : String
  symbol : String
  datasetReceipt : DatasetReceipt
  deriving DecidableEq

inductive Record (F : Type)
  | sessionOpened (header : SessionHeaderRecord)
  | proposalDrawn (sweep : SweepId) (slot : Nat) (proposal : Proposal) (origin : String)
  | proposalDuplicate (sweep : SweepId) (slot : Nat) (configHash : String)
      (firstSeenSweep : SweepId)
  | proposalRefused (sweep : SweepId) (slot : Nat) (configHash reason : String)
  | sweepStarted (sweep : SweepId) (sweepHash : String) (kind : SweepKind) (startedMs : Int)
  | sweepCompleted (sweep : SweepId) (trialsOffered : Nat) (perSearch : List (SearchRecord F))
      (wallMs : Nat)
  | sweepFailed (sweep : SweepId) (trialsOffered : Nat) (error : String)
  | sweepAbandoned (sweep : SweepId) (trialsOffered : Nat) (reason : String)
  | screened (sweep : SweepId) (slot : Nat) (screenResult : ScreenResult F)
      (failingConjunct : Option String)
  | bestEverAdvanced (best : BestEver F)
  | championRecorded (row : ChampionRow F)
  | posteriorUpdated (sweep : SweepId) (credits : List PosteriorCredit)
  | posteriorRetracted (block : BlockId) (sweepIds : List SweepId) (reason : String)
  | shuffleControlCompleted (block : BlockId) (kind : ControlKind) (tau : F)
      (sourceSweep : SweepId) (trialsOffered : Nat) (eScreenPess dsr : Option F)
  | blockJudged (block : BlockId) (deltaExpectancy pBlock dsrGap : F) (indistinguishable : Bool)
  | awaitingQuoteCoverage (request : QuoteCoverageRequest)
  | quoteCoverageReady (ready : QuoteCoverageReady)
  | oosTouchSpent (window : OosWindow) (sweep : SweepId) (candidate : String)
  | promoted (sweep : SweepId) (goalMetric goalBar : F) (frontier : List (RiskOutcomeRecord F))
  | promotionRefused (sweep : SweepId) (failingConjunct : String)
  | garbageCollected (sweep : SweepId) (census : GcCensus)
  | sessionStopped (verdict : SessionVerdict F)
  | truncatedTail (bytes : Nat)
  deriving DecidableEq

end Neoethos
