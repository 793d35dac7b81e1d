import Neoethos.AcquisitionChain

namespace Neoethos

open Fallible (bind_ok_iff check_ok_iff refuse_ok_iff)

section Publication

variable {D : Type} [DecidableEq D] {codec : AcquisitionCodec D} {store : AcquisitionStore D}
  {before after : DataRoot} {planReceipt checkpointReceipt : ContentReceipt D}
  {plan : CanonicalTrendbarAcquisitionPlan}
  {checkpoint : CanonicalTrendbarAcquisitionCheckpoint D} {matrix : CanonicalTrendbarMatrix D}

/-- The file is there after the writing, whether it was new or not. -/
theorem Authoritative.publishContent (h : Authoritative codec store) (hlawful : codec.Lawful)
    (kind : ContentKind) {bytes : List UInt8} (hbounded : bytes.length ≤ MAX_AUTHORITY_BYTES) :
    (publishContent true store kind (domainSha256 codec kind bytes) bytes).2 = .ok () ∧
      (publishContent true store kind (domainSha256 codec kind bytes) bytes).1
        (kind, domainSha256 codec kind bytes) = some bytes := by
  unfold Neoethos.publishContent
  split
  next present hpresent =>
    have hsame : present = bytes :=
      (List.append_cancel_left (hlawful.sha256_injective (h _ _ _ hpresent).1)).symm
    rw [hsame] at hpresent
    refine ⟨bind_ok_iff.mpr ⟨bytes, readContent_ok_iff.mpr ⟨hpresent, hbounded⟩, ?_⟩, hpresent⟩
    exact refuse_ok_iff.mpr (by simp)
  next =>
    rw [if_pos rfl]
    have hwritten : Function.update store (kind, domainSha256 codec kind bytes) (some bytes)
        (kind, domainSha256 codec kind bytes) = some bytes := Function.update_self ..
    refine ⟨bind_ok_iff.mpr ⟨bytes, readContent_ok_iff.mpr ⟨hwritten, hbounded⟩, ?_⟩, hwritten⟩
    exact refuse_ok_iff.mpr (by simp)

theorem Authoritative.publishMatrix (h : Authoritative codec store) (hlawful : codec.Lawful)
    {bytes : List UInt8} (hplan : openPlan codec store planReceipt = .ok plan)
    (hbefore : openCheckpoint codec before store planReceipt checkpointReceipt = .ok checkpoint)
    (hafter : openCheckpoint codec after store planReceipt checkpointReceipt = .ok checkpoint)
    (hbuilt : buildMatrix codec planReceipt checkpointReceipt plan checkpoint = .ok matrix)
    (hjson : matrix.toJsonBytes codec = .ok bytes)
    (hbounded : bytes.length ≤ MAX_AUTHORITY_BYTES) :
    (publishMatrix codec true before after store planReceipt checkpointReceipt).2 =
      .ok (.of .matrix (domainSha256 codec .matrix bytes)) := by
  obtain ⟨hpublished, hfile⟩ := h.publishContent hlawful .matrix hbounded
  obtain ⟨_, _, hsame⟩ := buildMatrix_ok hbuilt
  have hinputs : SameInputs store (Neoethos.publishContent true store .matrix
      (domainSha256 codec .matrix bytes) bytes).1 := by
    obtain hstore | ⟨_, hstore⟩ := publishContent_store true store .matrix
      (domainSha256 codec .matrix bytes) bytes
    · rw [hstore]
      exact fun _ _ _ => rfl
    · rw [hstore]
      exact sameInputs_update
  have hreceipt : checkpointReceipt = .of .checkpoint matrix.checkpointSha256 := by
    rw [hsame]
    exact receipt_eq_of (check_ok_iff.mp hafter).1
  have hprepare : (do
      let plan ← openPlan codec store planReceipt
      let checkpoint ← openCheckpoint codec before store planReceipt checkpointReceipt
      let matrix ← buildMatrix codec planReceipt checkpointReceipt plan checkpoint
      matrix.toJsonBytes codec) = .ok bytes :=
    bind_ok_iff.mpr ⟨plan, hplan, bind_ok_iff.mpr ⟨checkpoint, hbefore,
      bind_ok_iff.mpr ⟨matrix, hbuilt, hjson⟩⟩⟩
  unfold Neoethos.publishMatrix Neoethos.publishDocument
  rw [hprepare]
  refine check_ok_iff.mpr ⟨hpublished, check_ok_iff.mpr ⟨?_, rfl⟩⟩
  rw [hreceipt] at hafter hbuilt
  refine bind_ok_iff.mpr ⟨matrix, openMatrix_of_built hlawful (refuse_ok_iff.mpr ?_) hfile rfl
    hbounded hjson (hinputs.openPlan.trans hplan) (hinputs.openCheckpoint.trans hafter) hbuilt, rfl⟩
  rw [not_or, not_not, not_not]
  exact ⟨rfl, rfl⟩

end Publication

/-- After any calls, the stored checkpoints fill the grids of their plans in order and link down
to a first one through strictly fewer of the same cells; the next cell is the first that is
missing; and a matrix is published and reopened of the complete checkpoints only. -/
theorem acquisition_checkpoint_chains {D : Type} [DecidableEq D] {codec : AcquisitionCodec D}
    (hlawful : codec.Lawful) (calls : List (AcquisitionCall D)) :
    (∀ sha256 bytes, runAcquisition codec calls (.checkpoint, sha256) = some bytes →
      ∃ checkpoint : CanonicalTrendbarAcquisitionCheckpoint D,
        checkpoint.toJsonBytes codec = .ok bytes) ∧
    (∀ sha256 (checkpoint : CanonicalTrendbarAcquisitionCheckpoint D),
      Holds (runAcquisition codec calls) .checkpoint sha256 (checkpoint.toJsonBytes codec) →
      ∃ plan : CanonicalTrendbarAcquisitionPlan,
        Holds (runAcquisition codec calls) .plan checkpoint.planSha256 (plan.toJsonBytes codec) ∧
        checkpoint.completedCells.length ≤ plan.cellCount ∧
        FillsGrid plan checkpoint.completedCells ∧
        (∃ earlier, (∀ chain, PreviousLinks codec (runAcquisition codec calls) sha256 chain ↔
            chain = checkpoint :: earlier) ∧
          (checkpoint :: earlier).Pairwise StrictlyExtends) ∧
        checkpoint.nextCell codec plan = .ok plan.grid[checkpoint.completedCells.length]? ∧
        (plan.grid[checkpoint.completedCells.length]? = none ↔
          checkpoint.completedCells.length = plan.cellCount)) ∧
    (∀ before after planReceipt checkpointReceipt plan checkpoint,
      openPlan codec (runAcquisition codec calls) planReceipt = .ok plan →
      openCheckpoint codec before (runAcquisition codec calls) planReceipt checkpointReceipt =
        .ok checkpoint →
      openCheckpoint codec after (runAcquisition codec calls) planReceipt checkpointReceipt =
        .ok checkpoint →
      (∀ matrix, buildMatrix codec planReceipt checkpointReceipt plan checkpoint = .ok matrix →
        ∃ bytes, matrix.toJsonBytes codec = .ok bytes ∧ bytes.length ≤ MAX_AUTHORITY_BYTES) →
      ((∃ receipt, (publishMatrix codec true before after (runAcquisition codec calls) planReceipt
          checkpointReceipt).2 = .ok receipt) ↔
        checkpoint.completedCells.length = plan.cellCount)) ∧
    (∀ dataRoot planReceipt receipt matrix,
      openMatrix codec dataRoot (runAcquisition codec calls) planReceipt receipt = .ok matrix →
      ∃ plan checkpoint,
        openPlan codec (runAcquisition codec calls) planReceipt = .ok plan ∧
        openCheckpoint codec dataRoot (runAcquisition codec calls) planReceipt
          (.of .checkpoint matrix.checkpointSha256) = .ok checkpoint ∧
        checkpoint.completedCells.length = plan.cellCount ∧
        MatrixOf plan checkpoint.completedCells matrix) ∧
    ∀ dataRoot planReceipt sha256 bytes plan checkpoint (matrix : CanonicalTrendbarMatrix D),
      runAcquisition codec calls (.matrix, sha256) = some bytes →
      matrix.toJsonBytes codec = .ok bytes → bytes.length ≤ MAX_AUTHORITY_BYTES →
      matrix.planSha256 = planReceipt.sha256 →
      openPlan codec (runAcquisition codec calls) planReceipt = .ok plan →
      openCheckpoint codec dataRoot (runAcquisition codec calls) planReceipt
        (.of .checkpoint matrix.checkpointSha256) = .ok checkpoint →
      openMatrix codec dataRoot (runAcquisition codec calls) planReceipt (.of .matrix sha256) =
        .ok matrix ∧ checkpoint.completedCells.length = plan.cellCount := by
  have hstore := runAcquisition_authoritative codec calls
  refine ⟨?_, ?_, ?_, ?_, ?_⟩
  · intro sha256 bytes hfile
    obtain ⟨checkpoint, _, hjson, _⟩ := (hstore _ _ _ hfile).2
    exact ⟨checkpoint, hjson⟩
  · intro sha256 checkpoint hholds
    obtain ⟨plan, hplan, hlength, hfills, _⟩ := hstore.stored hlawful hholds
    obtain ⟨earlier, hlinks, hpairs⟩ := hstore.links hlawful hholds
    refine ⟨plan, hplan, hlength, hfills, ⟨earlier, ?_, hpairs⟩, hstore.nextCell hplan, ?_⟩
    · intro chain
      exact ⟨fun h => h.unique hlawful hlinks, fun h => h ▸ hlinks⟩
    · rw [List.getElem?_eq_none_iff, CanonicalTrendbarAcquisitionPlan.length_grid]
      omega
  · intro before after planReceipt checkpointReceipt plan checkpoint hplan hbefore hafter hjson
    rw [← buildMatrix_iff hplan hbefore]
    constructor
    · intro h
      obtain ⟨receipt, hreceipt⟩ := h
      unfold publishMatrix publishDocument at hreceipt
      split at hreceipt
      next => cases hreceipt
      next bytes hprepare =>
        obtain ⟨opened, hopened, hprepare⟩ := bind_ok_iff.mp hprepare
        obtain ⟨read, hread, hprepare⟩ := bind_ok_iff.mp hprepare
        obtain ⟨matrix, hmatrix, _⟩ := bind_ok_iff.mp hprepare
        obtain rfl := Except.ok.inj (hopened.symm.trans hplan)
        obtain rfl := Except.ok.inj (hread.symm.trans hbefore)
        exact ⟨matrix, hmatrix⟩
    · intro h
      obtain ⟨matrix, hmatrix⟩ := h
      obtain ⟨bytes, hbytes, hbounded⟩ := hjson matrix hmatrix
      exact ⟨_, hstore.publishMatrix hlawful hplan hbefore hafter hmatrix hbytes hbounded⟩
  · intro dataRoot planReceipt receipt matrix hopen
    obtain ⟨plan, checkpoint, hplan, hcheckpoint, hbuilt⟩ := openMatrix_ok hopen
    exact ⟨plan, checkpoint, hplan, hcheckpoint, (buildMatrix_ok hbuilt).1,
      matrixOf_of_buildMatrix hplan hcheckpoint hbuilt⟩
  · intro dataRoot planReceipt sha256 bytes plan checkpoint matrix hfile hjson hbounded hsame hplan
      hcheckpoint
    obtain ⟨hnamed, built, plan', checkpoint', planReceipt', checkpointReceipt', hjson', hplan',
      hcheckpoint', hbuilt⟩ := hstore _ _ _ hfile
    obtain rfl := CanonicalTrendbarMatrix.toJsonBytes_injective hlawful hjson' hjson hbounded
    obtain ⟨hcomplete, hplanSha256, hcheckpointSha256⟩ := buildMatrix_ok hbuilt
    rw [← hplanSha256, hsame] at hplan'
    rw [← hcheckpointSha256] at hcheckpoint'
    obtain rfl := hplan'.plan_unique hlawful (openPlan_ok hplan).1
    obtain rfl := hcheckpoint'.checkpoint_unique hlawful
      (readCheckpoint_ok (openCheckpoint_ok hplan hcheckpoint).1).1
    refine ⟨openMatrix_of_built hlawful (refuse_ok_iff.mpr ?_) hfile hnamed hbounded hjson hplan
      hcheckpoint ?_, hcomplete⟩
    · rw [not_or, not_not, not_not]
      exact ⟨rfl, rfl⟩
    · rw [buildMatrix_congr (hsame.symm.trans hplanSha256)
        (show _ = checkpointReceipt'.sha256 from hcheckpointSha256)]
      exact hbuilt

section Sample

def samplePlan : CanonicalTrendbarAcquisitionPlan :=
  ⟨.demo, "demo.ctraderapi.com", 7, 1451606400000, 1451606700000,
    [⟨1, "EURUSD"⟩, ⟨2, "GBPUSD"⟩], [.m1, .m5]⟩

def sampleHex : String := "0123456789abcdef0123456789abcdef0123456789abcdef0123456789abcdef"

def sampleGeneration (cell : CanonicalTrendbarSymbol × CanonicalTimeframe) :
    SelectedDatasetGeneration :=
  ⟨⟨.cTrader .demo "demo.ctraderapi.com" 7 cell.1.symbolId, cell.1.symbolName, cell.2, .barOpen⟩,
    "g1-0123456789abcdef0123456789abcdef0123456789abcdef0123456789abcdef.vortex", sampleHex⟩

def sampleGenerationWire (generation : SelectedDatasetGeneration) :
    SelectedDatasetGenerationWire :=
  ⟨SELECTED_GENERATION_SCHEMA, 1, generation.identity.toPathComponent, generation.generationId,
    sampleHex⟩

def sampleGenerations : List SelectedDatasetGeneration := samplePlan.grid.map sampleGeneration

def samplePaths : List (String × SelectedDatasetGeneration) :=
  (["0g00000p2lakilad20208", "0g00000p2lakilad20a08", "1000000p3k4k2lad20208",
    "1000000p3k4k2lad20a08"].map
      ("d1-dpimupbkd1nn6bj3c5n6urj9cdgmobb4c5q62sr5egmmip35dpq6it3p5pr32000041" ++
        "04000009m8pbddsn66t3ic5i6asj1e1kisorfdk000000000001o00000000000" ++ ·)).zip
    sampleGenerations

def samplePlanSha256 : List UInt8 := ContentKind.plan.hashDomain ++ [1]

def sampleCheckpointSha256 (cells : Nat) : List UInt8 :=
  ContentKind.checkpoint.hashDomain ++ [10 + UInt8.ofNat cells]

def sampleCheckpoint (previous : Option Nat) (cells : Nat) :
    CanonicalTrendbarAcquisitionCheckpoint (List UInt8) :=
  ⟨samplePlanSha256, previous.map sampleCheckpointSha256, (sampleGenerations.take cells).map (⟨·⟩)⟩

def sampleCheckpointWire (previous : Option Nat) (cells : Nat) :
    CanonicalTrendbarAcquisitionCheckpointWire (List UInt8) :=
  ⟨CHECKPOINT_SCHEMA, CONTRACT_VERSION, samplePlanSha256, previous.map sampleCheckpointSha256,
    (sampleGenerations.take cells).map sampleGenerationWire⟩

def sampleMatrix : CanonicalTrendbarMatrix (List UInt8) :=
  ⟨samplePlanSha256, sampleCheckpointSha256 4,
    samplePlan.symbols.map fun symbol =>
      ⟨sampleGeneration (symbol, .m1), [sampleGeneration (symbol, .m1), sampleGeneration (symbol, .m5)]⟩⟩

def sampleMatrixWire : CanonicalTrendbarMatrixWire (List UInt8) :=
  ⟨MATRIX_SCHEMA, CONTRACT_VERSION, samplePlanSha256, sampleCheckpointSha256 4,
    sampleMatrix.series.map fun series =>
      ⟨DATASET_SERIES_RECEIPT_SCHEMA, 1, sampleGenerationWire series.anchor,
        series.directTimeframes.map sampleGenerationWire⟩⟩

/-- The content stands for its digest, and a byte for each of the documents. -/
def sampleCodec : AcquisitionCodec (List UInt8) where
  sha256 := id
  encodePlan wire := if wire = samplePlan.toWire then .ok [1] else .error "unknown"
  decodePlan bytes := if bytes = [1] then .ok samplePlan.toWire else .error "unknown"
  encodeCheckpoint wire :=
    if wire = sampleCheckpointWire none 1 then .ok [11]
    else if wire = sampleCheckpointWire (some 1) 4 then .ok [14]
    else .error "unknown"
  decodeCheckpoint bytes :=
    if bytes = [11] then .ok (sampleCheckpointWire none 1)
    else if bytes = [14] then .ok (sampleCheckpointWire (some 1) 4)
    else .error "unknown"
  encodeMatrix wire := if wire = sampleMatrixWire then .ok [4] else .error "unknown"
  decodeMatrix bytes := if bytes = [4] then .ok sampleMatrixWire else .error "unknown"
  fromPathComponent component :=
    match samplePaths.find? fun entry => utf8 entry.1 = utf8 component with
    | some entry => .ok entry.2.identity
    | none => .error (.notDecoded "unknown")

def sampleRoot : DataRoot := fun generation =>
  .ok ⟨generation.identity, (1451606400000, 1451606700000), 1, 1⟩

def sampleCheckpointCall (previous : Option Nat) (cells : Nat) :
    AcquisitionCall (List UInt8) :=
  .publishCheckpoint true sampleRoot sampleRoot (.of .plan samplePlanSha256)
    (previous.map fun cells => .of .checkpoint (sampleCheckpointSha256 cells))
    ((sampleGenerations.take cells).map (⟨·⟩))

def sampleAcquisitionCalls : List (AcquisitionCall (List UInt8)) :=
  [.publishPlan true samplePlan, sampleCheckpointCall none 1, sampleCheckpointCall (some 1) 4]

theorem sampleCodec_lawful : sampleCodec.Lawful where
  sha256_injective := Function.injective_id
  plan := by
    intro wire bytes h
    unfold sampleCodec at h ⊢
    dsimp only at h ⊢
    split at h
    next hwire =>
      obtain rfl := Except.ok.inj h
      rw [if_pos rfl, hwire]
    next => cases h
  checkpoint := by
    intro wire bytes h
    unfold sampleCodec at h ⊢
    dsimp only at h ⊢
    split at h
    next hwire =>
      obtain rfl := Except.ok.inj h
      rw [if_pos rfl, hwire]
    next =>
      split at h
      next hwire =>
        obtain rfl := Except.ok.inj h
        rw [if_neg (by decide), if_pos rfl, hwire]
      next => cases h
  matrix := by
    intro wire bytes h
    unfold sampleCodec at h ⊢
    dsimp only at h ⊢
    split at h
    next hwire =>
      obtain rfl := Except.ok.inj h
      rw [if_pos rfl, hwire]
    next => cases h

def sampleFiles : List (ContentKind × List UInt8) → AcquisitionStore (List UInt8)
  | [] => fun _ => none
  | (kind, bytes) :: files =>
    Function.update (sampleFiles files) (kind, domainSha256 sampleCodec kind bytes) (some bytes)

theorem publishDocument_files {kind : ContentKind} {files : List (ContentKind × List UInt8)}
    {prepare : Except AcquisitionError (List UInt8)}
    {reopen : AcquisitionStore (List UInt8) → ContentReceipt (List UInt8) →
      Except AcquisitionError Unit} {bytes : List UInt8} (hprepare : prepare = .ok bytes)
    (hfree : sampleFiles files (kind, domainSha256 sampleCodec kind bytes) = none) :
    (publishDocument sampleCodec true kind prepare reopen (sampleFiles files)).1 =
      sampleFiles ((kind, bytes) :: files) := by
  subst hprepare
  unfold publishDocument
  dsimp only
  unfold publishContent
  dsimp only [ContentReceipt.of]
  rw [hfree]
  rfl

def sampleStore : AcquisitionStore (List UInt8) :=
  sampleFiles [(.checkpoint, [14]), (.checkpoint, [11]), (.plan, [1])]

theorem sampleStore_eq : runAcquisition sampleCodec sampleAcquisitionCalls = sampleStore := by
  have hplan : (AcquisitionCall.run sampleCodec (sampleFiles []) (.publishPlan true samplePlan)).1 =
      sampleFiles [(.plan, [1])] := by
    unfold AcquisitionCall.run publishPlan
    exact publishDocument_files (by decide +kernel) rfl
  have hfirst : ((sampleCheckpointCall none 1).run sampleCodec (sampleFiles [(.plan, [1])])).1 =
      sampleFiles [(.checkpoint, [11]), (.plan, [1])] := by
    unfold sampleCheckpointCall AcquisitionCall.run publishCheckpoint
    exact publishDocument_files (by decide +kernel) (by decide +kernel)
  have hsecond : ((sampleCheckpointCall (some 1) 4).run sampleCodec
      (sampleFiles [(.checkpoint, [11]), (.plan, [1])])).1 = sampleStore := by
    unfold sampleCheckpointCall AcquisitionCall.run publishCheckpoint
    exact publishDocument_files (by decide +kernel) (by decide +kernel)
  unfold runAcquisition sampleAcquisitionCalls
  change List.foldl _ (sampleFiles []) _ = _
  rw [List.foldl_cons, hplan, List.foldl_cons, hfirst, List.foldl_cons, hsecond, List.foldl_nil]

theorem sampleStore_openPlan :
    openPlan sampleCodec sampleStore (.of .plan samplePlanSha256) = .ok samplePlan := by
  decide +kernel

theorem sampleStore_openCheckpoint : openCheckpoint sampleCodec sampleRoot sampleStore
    (.of .plan samplePlanSha256) (.of .checkpoint (sampleCheckpointSha256 4)) =
      .ok (sampleCheckpoint (some 1) 4) := by
  decide +kernel

theorem sampleMatrix_built : buildMatrix sampleCodec (.of .plan samplePlanSha256)
    (.of .checkpoint (sampleCheckpointSha256 4)) samplePlan (sampleCheckpoint (some 1) 4) =
      .ok sampleMatrix := by
  decide +kernel

theorem sampleAcquisition_chains :
    (∃ earlier, PreviousLinks sampleCodec (runAcquisition sampleCodec sampleAcquisitionCalls)
        (sampleCheckpointSha256 4) (sampleCheckpoint (some 1) 4 :: earlier) ∧
      (sampleCheckpoint (some 1) 4 :: earlier).Pairwise StrictlyExtends) ∧
    ∃ receipt, (publishMatrix sampleCodec true sampleRoot sampleRoot
      (runAcquisition sampleCodec sampleAcquisitionCalls) (.of .plan samplePlanSha256)
      (.of .checkpoint (sampleCheckpointSha256 4))).2 = .ok receipt := by
  have hrun := acquisition_checkpoint_chains sampleCodec_lawful sampleAcquisitionCalls
  rw [sampleStore_eq] at hrun ⊢
  obtain ⟨_, hchains, hpublish, _⟩ := hrun
  obtain ⟨_, _, _, _, ⟨earlier, hlinks, hpairs⟩, _⟩ := hchains _ _
    (readCheckpoint_ok (openCheckpoint_ok sampleStore_openPlan sampleStore_openCheckpoint).1).1
  refine ⟨⟨earlier, (hlinks _).mpr rfl, hpairs⟩, ?_⟩
  refine (hpublish sampleRoot sampleRoot _ _ _ _ sampleStore_openPlan sampleStore_openCheckpoint
    sampleStore_openCheckpoint ?_).mpr (by decide +kernel)
  intro matrix hmatrix
  obtain rfl := Except.ok.inj (sampleMatrix_built.symm.trans hmatrix)
  exact ⟨[4], by decide +kernel, by decide⟩

end Sample

end Neoethos
