import Neoethos.Machine
import Neoethos.ReplayContract

/-! `CanonicalFeatureIndex` of `batch_ledger.rs`: the feature names that survivors of different
batches share. -/

namespace Neoethos

/-- A strategy gene; `F` is the type of its numbers. -/
structure Gene (F : Type*) where
  indices : List Nat
  weights : List F
  longThreshold : F
  shortThreshold : F
  fitness : F
  sharpeRatio : F
  winRate : F
  maxDrawdown : F
  profitFactor : F
  expectancy : F
  tradesCount : Nat
  generation : Nat
  strategyId : String
  useOb : Bool
  useFvg : Bool
  useLiqSweep : Bool
  mtfConfirmation : Bool
  usePremiumDiscount : Bool
  useInducement : Bool
  useBos : Bool
  useChoch : Bool
  useEqh : Bool
  useEql : Bool
  useDisplacement : Bool
  tpPips : F
  slPips : F
  slicePassRate : F
  consistency : F
  stopVolMult : F
  deriving DecidableEq

structure CanonicalFeatureIndex where
  names : List String
  byName : String → Option Nat
  contributingBatches : Nat
  termsRemapped : Nat

namespace CanonicalFeatureIndex

def new : CanonicalFeatureIndex := ⟨[], fun _ => none, 0, 0⟩

/-- The canonical index of a name, and the list with the name in it. -/
def intern (index : CanonicalFeatureIndex) (name : String) : Nat × CanonicalFeatureIndex :=
  match index.byName name with
  | some idx => (idx, index)
  | none =>
    let idx := index.names.length
    (idx, { index with
      names := index.names ++ [name]
      byName := Function.update index.byName name (some idx) })

variable {F : Type*}

/-- The loop of `remap_gene` over the terms of a gene. A failing term leaves the names that
the terms before it interned. -/
def remapTerms (gene : Gene F) (localNames : List String) (cursor : Nat) :
    CanonicalFeatureIndex → Nat → List Nat → Except String (List Nat) × CanonicalFeatureIndex
  | index, _, [] => (.ok [], index)
  | index, term, loc :: rest =>
    match localNames[loc]? with
    | none =>
      (.error (s!"batch at cursor {cursor}: gene '{gene.strategyId}' term {term} of " ++
        s!"{gene.indices.length} references local feature index {loc}, but that batch's " ++
        s!"effective_feature_names holds only {localNames.length} entries. This term CANNOT be " ++
        "skipped: a gene missing one of its terms is still structurally valid and would trade a " ++
        "strategy nobody designed."), index)
    | some name =>
      if trimIsEmpty name then
        (.error (s!"batch at cursor {cursor}: gene '{gene.strategyId}' term {term} of " ++
          s!"{gene.indices.length} resolves to an EMPTY feature name at local index {loc}. The " ++
          "live path projects by name (live_portfolio::project_features_to_effective), so an " ++
          "unnamed column would fail at trade time instead of here."), index)
      else
        let (idx, interned) := index.intern name
        let (indices, after) := remapTerms gene localNames cursor
          { interned with termsRemapped := interned.termsRemapped + 1 } (term + 1) rest
        (indices.map (idx :: ·), after)

def remapGene (index : CanonicalFeatureIndex) (gene : Gene F) (localNames : List String)
    (cursor : Nat) : Except String (Gene F) × CanonicalFeatureIndex :=
  if gene.indices.length ≠ gene.weights.length then
    (.error (s!"batch at cursor {cursor}: gene '{gene.strategyId}' has {gene.indices.length} " ++
      s!"indices but {gene.weights.length} weights. Refusing to remap a structurally " ++
      "inconsistent gene — the remapped copy would address a different set of terms than the " ++
      "one that was evaluated."), index)
  else
    let (indices, after) := remapTerms gene localNames cursor index 0 gene.indices
    (indices.map fun canonical => { gene with indices := canonical }, after)

/-- The loop of `remap_portfolio`: the genes remapped before the first failure, and that
failure. -/
def remapGenes (localNames : List String) (cursor : Nat) :
    CanonicalFeatureIndex → List (Gene F) → List (Gene F) × Option String × CanonicalFeatureIndex
  | index, [] => ([], none, index)
  | index, gene :: rest =>
    match index.remapGene gene localNames cursor with
    | (.error e, after) => ([], some e, after)
    | (.ok out, after) =>
      let (outs, failure, last) := remapGenes localNames cursor after rest
      (out :: outs, failure, last)

def remapPortfolio (index : CanonicalFeatureIndex) (genes : List (Gene F))
    (localNames : List String) (cursor : Nat) :
    Except String (List (Gene F)) × CanonicalFeatureIndex :=
  let before := index.names.length
  match remapGenes localNames cursor index genes with
  | (_, some e, after) => (.error e, after)
  | (out, none, after) =>
    if before < after.names.length then
      (.ok out, { after with contributingBatches := after.contributingBatches + 1 })
    else (.ok out, after)

/-- The inner loop of `assert_indices_in_range`. -/
def assertTermsInRange (index : CanonicalFeatureIndex) (stage strategyId : String) :
    Nat → List Nat → Except String Unit
  | _, [] => .ok ()
  | term, idx :: rest =>
    if index.names.length ≤ idx then
      .error (s!"{stage}: gene '{strategyId}' term {term} holds canonical index {idx} but the " ++
        s!"run-level feature list has {index.names.length} names. Either a LOCAL index escaped a " ++
        "batch without being remapped (invariant 2), or the canonical list was truncated " ++
        "(invariant 1). Both are fatal — the gene would address a different column at live time.")
    else index.assertTermsInRange stage strategyId (term + 1) rest

def assertIndicesInRange (index : CanonicalFeatureIndex) (genes : List (Gene F)) (stage : String) :
    Except String Unit :=
  genes.forM fun gene => index.assertTermsInRange stage gene.strategyId 0 gene.indices

end CanonicalFeatureIndex

/-- A call of the loop that streams the batches. -/
inductive RemapCall (F : Type*)
  | remapGene (gene : Gene F) (localNames : List String) (cursor : Nat)
  | remapPortfolio (genes : List (Gene F)) (localNames : List String) (cursor : Nat)

/-- A gene that was remapped from the names of its batch. -/
structure Remapped (F : Type*) where
  source : Gene F
  localNames : List String
  target : Gene F

/-- The genes that a call remapped, also those that it drops because a later one fails. -/
def RemapCall.remapped {F : Type*} (index : CanonicalFeatureIndex) :
    RemapCall F → List (Remapped F)
  | .remapGene gene localNames cursor =>
    match (index.remapGene gene localNames cursor).1 with
    | .ok out => [⟨gene, localNames, out⟩]
    | .error _ => []
  | .remapPortfolio genes localNames cursor =>
    (genes.zip (CanonicalFeatureIndex.remapGenes localNames cursor index genes).1).map
      fun (gene, out) => ⟨gene, localNames, out⟩

def RemapCall.after {F : Type*} (index : CanonicalFeatureIndex) :
    RemapCall F → CanonicalFeatureIndex
  | .remapGene gene localNames cursor => (index.remapGene gene localNames cursor).2
  | .remapPortfolio genes localNames cursor => (index.remapPortfolio genes localNames cursor).2

/-- The index over a whole run; a step reports the genes it remapped. -/
def featureIndexMachine (F : Type*) :
    Machine CanonicalFeatureIndex (RemapCall F) (List (Remapped F)) where
  start := CanonicalFeatureIndex.new
  next index call := some (call.remapped index, call.after index)

end Neoethos
