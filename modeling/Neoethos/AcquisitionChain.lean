import Neoethos.AcquisitionCells

namespace Neoethos

open Fallible (bind_ok_iff check_ok_iff refuse_ok_iff require_ok_iff mapM_ok_iff mapError_ok_iff
  map_ok_iff forM_ok_iff)

section Reading

variable {D : Type} [DecidableEq D] {codec : AcquisitionCodec D} {store : AcquisitionStore D}
  {kind : ContentKind} {sha256 : D} {bytes : List UInt8}

def Holds (store : AcquisitionStore D) (kind : ContentKind) (sha256 : D)
    (document : Except AcquisitionError (List UInt8)) : Prop :=
  ∃ bytes, document = .ok bytes ∧ store (kind, sha256) = some bytes

theorem Holds.update {document : Except AcquisitionError (List UInt8)} {key : ContentKind × D}
    (h : Holds store kind sha256 document) (hfree : store key = none) :
    Holds (Function.update store key (some bytes)) kind sha256 document := by
  obtain ⟨present, hdocument, hpresent⟩ := h
  refine ⟨present, hdocument, ?_⟩
  have hother : (kind, sha256) ≠ key := by
    intro hsame
    rw [hsame, hfree] at hpresent
    cases hpresent
  rw [Function.update_of_ne hother, hpresent]

omit [DecidableEq D] in
theorem readContent_ok_iff : readContent store kind sha256 = .ok bytes ↔
    store (kind, sha256) = some bytes ∧ bytes.length ≤ MAX_AUTHORITY_BYTES := by
  unfold readContent
  constructor
  · intro h
    obtain ⟨present, hpresent, h⟩ := bind_ok_iff.mp h
    obtain ⟨hbounded, h⟩ := check_ok_iff.mp h
    obtain rfl := Except.ok.inj h
    exact ⟨require_ok_iff.mp hpresent, not_lt.mp (refuse_ok_iff.mp hbounded)⟩
  · intro h
    exact bind_ok_iff.mpr ⟨bytes, require_ok_iff.mpr h.1,
      check_ok_iff.mpr ⟨refuse_ok_iff.mpr (not_lt.mpr h.2), rfl⟩⟩

theorem openPlan_ok {receipt : ContentReceipt D} {plan : CanonicalTrendbarAcquisitionPlan}
    (h : openPlan codec store receipt = .ok plan) :
    Holds store .plan receipt.sha256 (plan.toJsonBytes codec) ∧ plan.validate = .ok () := by
  obtain ⟨_, h⟩ := check_ok_iff.mp h
  obtain ⟨bytes, hbytes, h⟩ := bind_ok_iff.mp h
  obtain ⟨_, h⟩ := check_ok_iff.mp h
  obtain ⟨found, hfound, h⟩ := bind_ok_iff.mp h
  obtain ⟨_, _, h⟩ := bind_ok_iff.mp h
  obtain ⟨_, h⟩ := check_ok_iff.mp h
  obtain rfl := Except.ok.inj h
  have hjson := CanonicalTrendbarAcquisitionPlan.fromJsonBytes_ok hfound
  exact ⟨⟨bytes, hjson, (readContent_ok_iff.mp hbytes).1⟩, (check_ok_iff.mp hjson).1⟩

theorem readCheckpoint_ok {checkpoint : CanonicalTrendbarAcquisitionCheckpoint D}
    (h : readCheckpoint codec store sha256 = .ok checkpoint) :
    Holds store .checkpoint sha256 (checkpoint.toJsonBytes codec) ∧
      checkpoint.validateBasic codec = .ok () := by
  obtain ⟨bytes, hbytes, h⟩ := bind_ok_iff.mp h
  obtain ⟨_, h⟩ := check_ok_iff.mp h
  have hjson := CanonicalTrendbarAcquisitionCheckpoint.fromJsonBytes_ok h
  exact ⟨⟨bytes, hjson, (readContent_ok_iff.mp hbytes).1⟩, (check_ok_iff.mp hjson).1⟩

theorem openCheckpoint_ok {dataRoot : DataRoot} {planReceipt receipt : ContentReceipt D}
    {plan : CanonicalTrendbarAcquisitionPlan}
    {checkpoint : CanonicalTrendbarAcquisitionCheckpoint D}
    (hplan : openPlan codec store planReceipt = .ok plan)
    (h : openCheckpoint codec dataRoot store planReceipt receipt = .ok checkpoint) :
    readCheckpoint codec store receipt.sha256 = .ok checkpoint ∧
      validateCheckpoint codec dataRoot store planReceipt plan checkpoint = .ok () := by
  obtain ⟨_, h⟩ := check_ok_iff.mp h
  obtain ⟨opened, hopened, h⟩ := bind_ok_iff.mp h
  obtain rfl := Except.ok.inj (hopened.symm.trans hplan)
  obtain ⟨read, hread, h⟩ := bind_ok_iff.mp h
  obtain ⟨hvalid, h⟩ := check_ok_iff.mp h
  obtain rfl := Except.ok.inj h
  exact ⟨hread, hvalid⟩

end Reading

section History

variable {D : Type} [DecidableEq D] {codec : AcquisitionCodec D} {store : AcquisitionStore D}

/-- A checkpoint of the same plan whose cells are strictly more and begin with the other's. -/
structure StrictlyExtends (checkpoint previous : CanonicalTrendbarAcquisitionCheckpoint D) :
    Prop where
  plan : previous.planSha256 = checkpoint.planSha256
  shorter : previous.completedCells.length < checkpoint.completedCells.length
  cells : previous.completedCells <+: checkpoint.completedCells

omit [DecidableEq D] in
theorem StrictlyExtends.trans {latest middle earliest : CanonicalTrendbarAcquisitionCheckpoint D}
    (h : StrictlyExtends latest middle) (h' : StrictlyExtends middle earliest) :
    StrictlyExtends latest earliest :=
  ⟨h'.plan.trans h.plan, h'.shorter.trans h.shorter, h'.cells.trans h.cells⟩

def Meaning (codec : AcquisitionCodec D) (store : AcquisitionStore D) :
    ContentKind → List UInt8 → Prop
  | .plan, bytes => ∃ plan : CanonicalTrendbarAcquisitionPlan,
      plan.toJsonBytes codec = .ok bytes
  | .checkpoint, bytes => ∃ (checkpoint : CanonicalTrendbarAcquisitionCheckpoint D)
      (plan : CanonicalTrendbarAcquisitionPlan), checkpoint.toJsonBytes codec = .ok bytes ∧
      Holds store .plan checkpoint.planSha256 (plan.toJsonBytes codec) ∧
      checkpoint.completedCells.length ≤ plan.cellCount ∧
      FillsGrid plan checkpoint.completedCells ∧
      ∀ previousSha256 ∈ checkpoint.previousCheckpointSha256, ∃ previous,
        Holds store .checkpoint previousSha256 (previous.toJsonBytes codec) ∧
        StrictlyExtends checkpoint previous
  | .matrix, bytes => ∃ (matrix : CanonicalTrendbarMatrix D)
      (plan : CanonicalTrendbarAcquisitionPlan)
      (checkpoint : CanonicalTrendbarAcquisitionCheckpoint D)
      (planReceipt checkpointReceipt : ContentReceipt D), matrix.toJsonBytes codec = .ok bytes ∧
      Holds store .plan planReceipt.sha256 (plan.toJsonBytes codec) ∧
      Holds store .checkpoint checkpointReceipt.sha256 (checkpoint.toJsonBytes codec) ∧
      buildMatrix codec planReceipt checkpointReceipt plan checkpoint = .ok matrix

theorem Meaning.update {kind : ContentKind} {bytes added : List UInt8} {key : ContentKind × D}
    (h : Meaning codec store kind bytes) (hfree : store key = none) :
    Meaning codec (Function.update store key (some added)) kind bytes := by
  cases kind with
  | plan => exact h
  | checkpoint =>
    obtain ⟨checkpoint, plan, hjson, hplan, hlength, hfills, hprevious⟩ := h
    refine ⟨checkpoint, plan, hjson, hplan.update hfree, hlength, hfills, ?_⟩
    intro previousSha256 hmem
    obtain ⟨previous, hholds, hextends⟩ := hprevious previousSha256 hmem
    exact ⟨previous, hholds.update hfree, hextends⟩
  | matrix =>
    obtain ⟨matrix, plan, checkpoint, planReceipt, checkpointReceipt, hjson, hplan, hcheckpoint,
      hbuilt⟩ := h
    exact ⟨matrix, plan, checkpoint, planReceipt, checkpointReceipt, hjson, hplan.update hfree,
      hcheckpoint.update hfree, hbuilt⟩

/-- Every file is named by its digest and says what it should. -/
def Authoritative (codec : AcquisitionCodec D) (store : AcquisitionStore D) : Prop :=
  ∀ kind sha256 bytes, store (kind, sha256) = some bytes →
    sha256 = domainSha256 codec kind bytes ∧ Meaning codec store kind bytes

theorem publishContent_store (writes : Bool) (store : AcquisitionStore D) (kind : ContentKind)
    (sha256 : D) (bytes : List UInt8) :
    (publishContent writes store kind sha256 bytes).1 = store ∨ store (kind, sha256) = none ∧
      (publishContent writes store kind sha256 bytes).1 =
        Function.update store (kind, sha256) (some bytes) := by
  unfold publishContent
  split
  next => exact .inl rfl
  next hfree =>
    cases writes with
    | true => exact .inr ⟨hfree, rfl⟩
    | false => exact .inl rfl

theorem Authoritative.publishDocument (h : Authoritative codec store) {writes : Bool}
    {kind : ContentKind} {prepare : Except AcquisitionError (List UInt8)}
    {reopen : AcquisitionStore D → ContentReceipt D → Except AcquisitionError Unit}
    (hprepare : ∀ bytes, prepare = .ok bytes → Meaning codec store kind bytes) :
    Authoritative codec (publishDocument codec writes kind prepare reopen store).1 := by
  unfold Neoethos.publishDocument
  split
  next => exact h
  next bytes =>
    dsimp only
    obtain hsame | ⟨hfree, hwritten⟩ := publishContent_store writes store kind
      (domainSha256 codec kind bytes) bytes
    · rw [show (ContentReceipt.of kind (domainSha256 codec kind bytes)).sha256 =
        domainSha256 codec kind bytes from rfl, hsame]
      exact h
    · rw [show (ContentReceipt.of kind (domainSha256 codec kind bytes)).sha256 =
        domainSha256 codec kind bytes from rfl, hwritten]
      intro kind' sha256' present hpresent
      by_cases hkey : (kind', sha256') = (kind, domainSha256 codec kind bytes)
      · obtain ⟨rfl, rfl⟩ := Prod.mk.inj hkey
        rw [Function.update_self] at hpresent
        obtain rfl := Option.some.inj hpresent
        exact ⟨rfl, (hprepare bytes rfl).update hfree⟩
      · rw [Function.update_of_ne hkey] at hpresent
        obtain ⟨hnamed, hmeaning⟩ := h kind' sha256' present hpresent
        exact ⟨hnamed, hmeaning.update hfree⟩

theorem checkPredecessor_ok {planReceipt : ContentReceipt D}
    {checkpoint : CanonicalTrendbarAcquisitionCheckpoint D}
    (hplan : checkpoint.planSha256 = planReceipt.sha256)
    (h : checkPredecessor codec store planReceipt checkpoint = .ok ()) :
    ∀ previousSha256 ∈ checkpoint.previousCheckpointSha256, ∃ previous,
      Holds store .checkpoint previousSha256 (previous.toJsonBytes codec) ∧
      StrictlyExtends checkpoint previous := by
  intro previousSha256 hmem
  unfold checkPredecessor at h
  rw [Option.mem_def.mp hmem] at h
  obtain ⟨previous, hread, h⟩ := bind_ok_iff.mp h
  obtain ⟨hsame, hextends⟩ := check_ok_iff.mp h
  have hextends := refuse_ok_iff.mp hextends
  rw [not_or, not_le, not_not] at hextends
  exact ⟨previous, (readCheckpoint_ok hread).1,
    ⟨(not_not.mp (refuse_ok_iff.mp hsame)).trans hplan.symm, hextends.1, hextends.2⟩⟩

theorem Authoritative.run (h : Authoritative codec store) (call : AcquisitionCall D) :
    Authoritative codec (call.run codec store).1 := by
  cases call with
  | publishPlan writes plan => exact h.publishDocument fun bytes hbytes => ⟨plan, hbytes⟩
  | publishCheckpoint writes before after planReceipt previous completedCells =>
    refine h.publishDocument fun bytes hbytes => ?_
    obtain ⟨plan, hplan, hbytes⟩ := bind_ok_iff.mp hbytes
    obtain ⟨checkpoint, _, hbytes⟩ := bind_ok_iff.mp hbytes
    obtain ⟨hvalid, hbytes⟩ := check_ok_iff.mp hbytes
    obtain ⟨hsame, hlength, hfills, hpredecessor⟩ := validateCheckpoint_ok hvalid
    refine ⟨checkpoint, plan, hbytes, ?_, hlength, hfills, checkPredecessor_ok hsame hpredecessor⟩
    rw [hsame]
    exact (openPlan_ok hplan).1
  | publishMatrix writes before after planReceipt checkpointReceipt =>
    refine h.publishDocument fun bytes hbytes => ?_
    obtain ⟨plan, hplan, hbytes⟩ := bind_ok_iff.mp hbytes
    obtain ⟨checkpoint, hcheckpoint, hbytes⟩ := bind_ok_iff.mp hbytes
    obtain ⟨matrix, hmatrix, hbytes⟩ := bind_ok_iff.mp hbytes
    exact ⟨matrix, plan, checkpoint, planReceipt, checkpointReceipt, hbytes, (openPlan_ok hplan).1,
      (readCheckpoint_ok (openCheckpoint_ok hplan hcheckpoint).1).1, hmatrix⟩

/-- Whatever was called, every file of the store has its meaning. -/
theorem runAcquisition_authoritative (codec : AcquisitionCodec D)
    (calls : List (AcquisitionCall D)) : Authoritative codec (runAcquisition codec calls) := by
  have hrun (store : AcquisitionStore D) (h : Authoritative codec store) :
      Authoritative codec (calls.foldl (fun store call => (call.run codec store).1) store) := by
    induction calls generalizing store with
    | nil => exact h
    | cons call calls ih => exact ih _ (h.run call)
  exact hrun _ fun _ _ _ hnone => absurd hnone (Option.some_ne_none _).symm

end History

section Links

variable {D : Type} {codec : AcquisitionCodec D} {store : AcquisitionStore D}
  {sha256 : D} {checkpoint : CanonicalTrendbarAcquisitionCheckpoint D}

/-- The checkpoints that the links to the previous one lead through, down to a first one. -/
inductive PreviousLinks (codec : AcquisitionCodec D) (store : AcquisitionStore D) :
    D → List (CanonicalTrendbarAcquisitionCheckpoint D) → Prop
  | first {sha256 : D} {checkpoint : CanonicalTrendbarAcquisitionCheckpoint D}
      (holds : Holds store .checkpoint sha256 (checkpoint.toJsonBytes codec))
      (unlinked : checkpoint.previousCheckpointSha256 = none) :
      PreviousLinks codec store sha256 [checkpoint]
  | link {sha256 previousSha256 : D} {checkpoint : CanonicalTrendbarAcquisitionCheckpoint D}
      {earlier : List (CanonicalTrendbarAcquisitionCheckpoint D)}
      (holds : Holds store .checkpoint sha256 (checkpoint.toJsonBytes codec))
      (linked : checkpoint.previousCheckpointSha256 = some previousSha256)
      (links : PreviousLinks codec store previousSha256 earlier) :
      PreviousLinks codec store sha256 (checkpoint :: earlier)

theorem Holds.checkpoint_unique (hlawful : codec.Lawful)
    {checkpoint' : CanonicalTrendbarAcquisitionCheckpoint D}
    (h : Holds store .checkpoint sha256 (checkpoint.toJsonBytes codec))
    (h' : Holds store .checkpoint sha256 (checkpoint'.toJsonBytes codec)) :
    checkpoint = checkpoint' := by
  obtain ⟨bytes, hjson, hfile⟩ := h
  obtain ⟨bytes', hjson', hfile'⟩ := h'
  obtain rfl := Option.some.inj (hfile.symm.trans hfile')
  exact CanonicalTrendbarAcquisitionCheckpoint.toJsonBytes_injective hlawful hjson hjson'

theorem Holds.plan_unique (hlawful : codec.Lawful) {plan plan' : CanonicalTrendbarAcquisitionPlan}
    (h : Holds store .plan sha256 (plan.toJsonBytes codec))
    (h' : Holds store .plan sha256 (plan'.toJsonBytes codec)) : plan = plan' := by
  obtain ⟨bytes, hjson, hfile⟩ := h
  obtain ⟨bytes', hjson', hfile'⟩ := h'
  obtain rfl := Option.some.inj (hfile.symm.trans hfile')
  exact CanonicalTrendbarAcquisitionPlan.toJsonBytes_injective hlawful hjson hjson'

theorem PreviousLinks.unique (hlawful : codec.Lawful)
    {chain chain' : List (CanonicalTrendbarAcquisitionCheckpoint D)}
    (h : PreviousLinks codec store sha256 chain) (h' : PreviousLinks codec store sha256 chain') :
    chain = chain' := by
  induction h generalizing chain' with
  | first holds unlinked =>
    cases h' with
    | first holds' _ => rw [holds.checkpoint_unique hlawful holds']
    | link holds' linked' _ =>
      rw [holds.checkpoint_unique hlawful holds', linked'] at unlinked
      cases unlinked
  | link holds linked _ ih =>
    cases h' with
    | first holds' unlinked' =>
      rw [holds.checkpoint_unique hlawful holds', unlinked'] at linked
      cases linked
    | link holds' linked' links' =>
      obtain rfl := holds.checkpoint_unique hlawful holds'
      obtain rfl := Option.some.inj (linked.symm.trans linked')
      rw [ih links']

theorem Authoritative.stored (h : Authoritative codec store) (hlawful : codec.Lawful)
    (hholds : Holds store .checkpoint sha256 (checkpoint.toJsonBytes codec)) :
    ∃ plan : CanonicalTrendbarAcquisitionPlan,
      Holds store .plan checkpoint.planSha256 (plan.toJsonBytes codec) ∧
      checkpoint.completedCells.length ≤ plan.cellCount ∧
      FillsGrid plan checkpoint.completedCells ∧
      ∀ previousSha256 ∈ checkpoint.previousCheckpointSha256, ∃ previous,
        Holds store .checkpoint previousSha256 (previous.toJsonBytes codec) ∧
        StrictlyExtends checkpoint previous := by
  obtain ⟨bytes, hjson, hfile⟩ := hholds
  obtain ⟨found, plan, hfound, hrest⟩ := (h _ _ _ hfile).2
  obtain rfl := CanonicalTrendbarAcquisitionCheckpoint.toJsonBytes_injective hlawful hfound hjson
  exact ⟨plan, hrest⟩

/-- The links from a stored checkpoint end, and every one leads to strictly fewer of the same
cells. -/
theorem Authoritative.links (h : Authoritative codec store) (hlawful : codec.Lawful)
    (hholds : Holds store .checkpoint sha256 (checkpoint.toJsonBytes codec)) :
    ∃ earlier, PreviousLinks codec store sha256 (checkpoint :: earlier) ∧
      (checkpoint :: earlier).Pairwise StrictlyExtends := by
  -- the links get shorter, so the induction is on the number of cells
  induction hcells : checkpoint.completedCells.length using Nat.strong_induction_on
    generalizing checkpoint sha256 with
  | _ cells ih =>
    obtain ⟨_, _, _, _, hprevious⟩ := h.stored hlawful hholds
    cases hlink : checkpoint.previousCheckpointSha256 with
    | none => exact ⟨[], .first hholds hlink, List.pairwise_singleton _ _⟩
    | some previousSha256 =>
      obtain ⟨previous, hheld, hextends⟩ := hprevious previousSha256 hlink
      have hshorter : previous.completedCells.length < cells := hcells ▸ hextends.shorter
      obtain ⟨earlier, hlinks, hpairs⟩ := ih _ hshorter hheld rfl
      refine ⟨previous :: earlier, .link hholds hlink hlinks,
        List.pairwise_cons.mpr ⟨?_, hpairs⟩⟩
      intro other hmem
      obtain rfl | hmem := List.mem_cons.mp hmem
      · exact hextends
      · exact hextends.trans (List.rel_of_pairwise_cons hpairs hmem)

theorem Authoritative.nextCell [DecidableEq D] (h : Authoritative codec store)
    {plan : CanonicalTrendbarAcquisitionPlan}
    (hplan : Holds store .plan checkpoint.planSha256 (plan.toJsonBytes codec)) :
    checkpoint.nextCell codec plan = .ok plan.grid[checkpoint.completedCells.length]? := by
  obtain ⟨bytes, hjson, hfile⟩ := hplan
  have hnamed := (h _ _ _ hfile).1
  have hidentity : plan.identitySha256 codec = .ok checkpoint.planSha256 := by
    rw [hnamed]
    exact bind_ok_iff.mpr ⟨bytes, hjson, rfl⟩
  refine bind_ok_iff.mpr ⟨_, hidentity, check_ok_iff.mpr ⟨refuse_ok_iff.mpr (by simp), ?_⟩⟩
  rw [CanonicalTrendbarAcquisitionPlan.expectedCell_eq]
  rfl

end Links

section Matrices

variable {D : Type} [DecidableEq D] {codec : AcquisitionCodec D}
  {store store' : AcquisitionStore D} {dataRoot : DataRoot}
  {planReceipt checkpointReceipt receipt : ContentReceipt D}
  {plan : CanonicalTrendbarAcquisitionPlan}
  {checkpoint : CanonicalTrendbarAcquisitionCheckpoint D} {matrix : CanonicalTrendbarMatrix D}

def SameInputs (store store' : AcquisitionStore D) : Prop :=
  ∀ kind sha256, kind ≠ .matrix → store' (kind, sha256) = store (kind, sha256)

theorem sameInputs_update {bytes : List UInt8} {sha256 : D} :
    SameInputs store (Function.update store (.matrix, sha256) (some bytes)) := by
  intro kind other hkind
  apply Function.update_of_ne
  intro hsame
  exact hkind (Prod.mk.inj hsame).1

theorem SameInputs.openPlan (h : SameInputs store store') :
    Neoethos.openPlan codec store' planReceipt = Neoethos.openPlan codec store planReceipt := by
  unfold Neoethos.openPlan readContent
  rw [h .plan planReceipt.sha256 (by decide)]

theorem SameInputs.readCheckpoint (h : SameInputs store store') {sha256 : D} :
    Neoethos.readCheckpoint codec store' sha256 = Neoethos.readCheckpoint codec store sha256 := by
  unfold Neoethos.readCheckpoint readContent
  rw [h .checkpoint sha256 (by decide)]

theorem SameInputs.openCheckpoint (h : SameInputs store store') :
    Neoethos.openCheckpoint codec dataRoot store' planReceipt receipt =
      Neoethos.openCheckpoint codec dataRoot store planReceipt receipt := by
  unfold Neoethos.openCheckpoint validateCheckpoint checkPredecessor
  simp only [h.openPlan, h.readCheckpoint]

omit [DecidableEq D] in
theorem buildMatrix_congr {planReceipt' checkpointReceipt' : ContentReceipt D}
    (hplan : planReceipt.sha256 = planReceipt'.sha256)
    (hcheckpoint : checkpointReceipt.sha256 = checkpointReceipt'.sha256) :
    buildMatrix codec planReceipt checkpointReceipt plan checkpoint =
      buildMatrix codec planReceipt' checkpointReceipt' plan checkpoint := by
  unfold buildMatrix
  rw [hplan, hcheckpoint]

omit [DecidableEq D] in
theorem receipt_eq_of {kind : ContentKind} (h : receipt.validate kind = .ok ()) :
    receipt = ContentReceipt.of kind receipt.sha256 := by
  have h := refuse_ok_iff.mp h
  rw [not_or, not_not, not_not] at h
  obtain ⟨schema, version, sha256⟩ := receipt
  obtain ⟨hschema, hversion⟩ := h
  rw [show schema = _ from hschema, show version = _ from hversion]
  rfl

theorem openMatrix_of_built (hlawful : codec.Lawful) {bytes : List UInt8}
    (hreceipt : receipt.validate .matrix = .ok ())
    (hfile : store (.matrix, receipt.sha256) = some bytes)
    (hnamed : receipt.sha256 = domainSha256 codec .matrix bytes)
    (hbounded : bytes.length ≤ MAX_AUTHORITY_BYTES)
    (hjson : matrix.toJsonBytes codec = .ok bytes)
    (hplan : openPlan codec store planReceipt = .ok plan)
    (hcheckpoint : openCheckpoint codec dataRoot store planReceipt
      (.of .checkpoint matrix.checkpointSha256) = .ok checkpoint)
    (hbuilt : buildMatrix codec planReceipt (.of .checkpoint matrix.checkpointSha256) plan
      checkpoint = .ok matrix) :
    openMatrix codec dataRoot store planReceipt receipt = .ok matrix := by
  have hread := CanonicalTrendbarMatrix.fromJsonBytes_of_toJsonBytes hlawful hjson hbounded
  obtain ⟨_, hsame, _⟩ := buildMatrix_ok hbuilt
  refine check_ok_iff.mpr ⟨hreceipt, bind_ok_iff.mpr ⟨bytes,
    readContent_ok_iff.mpr ⟨hfile, hbounded⟩, ?_⟩⟩
  refine check_ok_iff.mpr ⟨refuse_ok_iff.mpr (not_not.mpr hnamed.symm),
    bind_ok_iff.mpr ⟨matrix, hread, ?_⟩⟩
  refine check_ok_iff.mpr ⟨refuse_ok_iff.mpr (not_not.mpr hsame),
    bind_ok_iff.mpr ⟨plan, hplan, ?_⟩⟩
  refine bind_ok_iff.mpr ⟨checkpoint, hcheckpoint, bind_ok_iff.mpr ⟨matrix, hbuilt, ?_⟩⟩
  exact check_ok_iff.mpr ⟨refuse_ok_iff.mpr (by simp), rfl⟩

theorem openMatrix_ok (h : openMatrix codec dataRoot store planReceipt receipt = .ok matrix) :
    ∃ plan checkpoint, openPlan codec store planReceipt = .ok plan ∧
      openCheckpoint codec dataRoot store planReceipt (.of .checkpoint matrix.checkpointSha256) =
        .ok checkpoint ∧
      buildMatrix codec planReceipt (.of .checkpoint matrix.checkpointSha256) plan checkpoint =
        .ok matrix := by
  obtain ⟨_, h⟩ := check_ok_iff.mp h
  obtain ⟨bytes, _, h⟩ := bind_ok_iff.mp h
  obtain ⟨_, h⟩ := check_ok_iff.mp h
  obtain ⟨found, _, h⟩ := bind_ok_iff.mp h
  obtain ⟨_, h⟩ := check_ok_iff.mp h
  obtain ⟨plan, hplan, h⟩ := bind_ok_iff.mp h
  obtain ⟨checkpoint, hcheckpoint, h⟩ := bind_ok_iff.mp h
  obtain ⟨expected, hexpected, h⟩ := bind_ok_iff.mp h
  obtain ⟨hsame, h⟩ := check_ok_iff.mp h
  obtain rfl := Except.ok.inj h
  obtain rfl := not_not.mp (refuse_ok_iff.mp hsame)
  exact ⟨plan, checkpoint, hplan, hcheckpoint, hexpected⟩

/-- An opened complete checkpoint makes a matrix, and no other one does. -/
theorem buildMatrix_iff (hplan : openPlan codec store planReceipt = .ok plan)
    (hcheckpoint : openCheckpoint codec dataRoot store planReceipt checkpointReceipt =
      .ok checkpoint) :
    (∃ matrix, buildMatrix codec planReceipt checkpointReceipt plan checkpoint = .ok matrix) ↔
      checkpoint.completedCells.length = plan.cellCount := by
  constructor
  · intro h
    obtain ⟨matrix, hmatrix⟩ := h
    exact (buildMatrix_ok hmatrix).1
  · intro hcomplete
    obtain ⟨hread, hvalid⟩ := openCheckpoint_ok hplan hcheckpoint
    obtain ⟨matrix, hmatrix, _⟩ := buildMatrix_of_complete (openPlan_ok hplan).2
      (validateCheckpoint_ok hvalid).2.2.1 (readCheckpoint_ok hread).2 hcomplete
    exact ⟨matrix, hmatrix⟩

theorem matrixOf_of_buildMatrix (hplan : openPlan codec store planReceipt = .ok plan)
    (hcheckpoint : openCheckpoint codec dataRoot store planReceipt checkpointReceipt =
      .ok checkpoint)
    (hmatrix : buildMatrix codec planReceipt checkpointReceipt plan checkpoint = .ok matrix) :
    MatrixOf plan checkpoint.completedCells matrix := by
  obtain ⟨hread, hvalid⟩ := openCheckpoint_ok hplan hcheckpoint
  obtain ⟨built, hbuilt, hof⟩ := buildMatrix_of_complete (openPlan_ok hplan).2
    (validateCheckpoint_ok hvalid).2.2.1 (readCheckpoint_ok hread).2 (buildMatrix_ok hmatrix).1
  obtain rfl := Except.ok.inj (hbuilt.symm.trans hmatrix)
  exact hof

end Matrices

end Neoethos
