import Neoethos.Session

namespace Neoethos

open Fallible

section Blocks

variable {F : Type}

def Course.liveSweeps (c : Course F) : List (SweepSummary F) :=
  c.sweeps.filter fun summary => summary.kind.isLive

def Course.liveSweepsInBlock (c : Course F) (block : BlockId) : List (SweepSummary F) :=
  (c.liveSweeps.zipIdx.filter fun (_, index) => index / Session.SHUFFLE_PERIOD = block).map Prod.fst

def Course.close (c : Course F) (summary : SweepSummary F) (trials : SweepId × Nat) : Course F :=
  { c with
    sweeps := c.sweeps ++ [summary]
    openSweep := none
    terminalTrials := c.terminalTrials ++ [trials] }

theorem Course.liveSweeps_close_live {c : Course F} {summary : SweepSummary F}
    {trials : SweepId × Nat} (h : summary.kind.isLive = true) :
    (c.close summary trials).liveSweeps = c.liveSweeps ++ [summary] := by
  simp [Course.liveSweeps, Course.close, h]

theorem Course.liveSweeps_close_control {c : Course F} {summary : SweepSummary F}
    {trials : SweepId × Nat} (h : summary.kind.isLive = false) :
    (c.close summary trials).liveSweeps = c.liveSweeps := by
  simp [Course.liveSweeps, Course.close, h]

theorem Course.inBlock_close_live {c : Course F} {summary : SweepSummary F}
    {trials : SweepId × Nat} (h : summary.kind.isLive = true) {block : BlockId}
    (hblock : block ≠ c.liveSweeps.length / Session.SHUFFLE_PERIOD) :
    (c.close summary trials).liveSweepsInBlock block = c.liveSweepsInBlock block := by
  rw [Course.liveSweepsInBlock, Course.liveSweeps_close_live h, List.zipIdx_append,
    List.filter_append, List.map_append]
  simp [Course.liveSweepsInBlock, hblock.symm]

theorem Course.inBlock_close_control {c : Course F} {summary : SweepSummary F}
    {trials : SweepId × Nat} (h : summary.kind.isLive = false) (block : BlockId) :
    (c.close summary trials).liveSweepsInBlock block = c.liveSweepsInBlock block := by
  rw [Course.liveSweepsInBlock, Course.liveSweeps_close_control h, Course.liveSweepsInBlock]

def Course.Retracted (c : Course F) : Prop :=
  ∀ outcome ∈ c.blocks, outcome.indistinguishable = true →
    ∀ summary ∈ c.liveSweepsInBlock outcome.block, summary.sweep ∈ c.retractedSweeps

/-- Blocks are judged one after the other, so many controls are ahead of the judgements, and so
many complete blocks are not judged. -/
structure Standing (controls due : Nat) (c : Course F) (controlled : List BlockId) : Prop where
  blocks : c.blocks.map BlockOutcome.block = List.range c.blocks.length
  inOrder : controlled = List.range (c.blocks.length + controls)
  nulls : c.nullObservations.length + c.nullRefusals = controlled.length
  due : c.blocks.length + due = c.liveSweeps.length / Session.SHUFFLE_PERIOD

def Tracked (c : Course F) (controlled : List BlockId) : Prop :=
  ∃ controls due, Standing controls due c controlled ∧ controls ≤ 1 ∧ controls ≤ due

def Settled (c : Course F) (controlled : List BlockId) : Prop :=
  Standing 0 0 c controlled ∧ c.Retracted

def Closing (c : Course F) (controlled : List BlockId) : Prop :=
  Settled c controlled ∨ Standing 0 1 c controlled ∧ c.Retracted ∧
    c.liveSweeps.length % Session.SHUFFLE_PERIOD = 0

def Due (block : BlockId) (c : Course F) (controlled : List BlockId) : Prop :=
  Standing 0 1 c controlled ∧ c.Retracted ∧ c.blocks.length = block

def Controlled (block : BlockId) (c : Course F) (controlled : List BlockId) : Prop :=
  Standing 1 1 c controlled ∧ c.Retracted ∧ c.blocks.length = block

def Judged (block : BlockId) (indistinguishable : Bool) (c : Course F)
    (controlled : List BlockId) : Prop :=
  Standing 0 0 c controlled ∧ ∀ outcome ∈ c.blocks, outcome.indistinguishable = true →
    outcome.block = block ∧ indistinguishable = true ∨
      ∀ summary ∈ c.liveSweepsInBlock outcome.block, summary.sweep ∈ c.retractedSweeps

variable {c : Course F} {controlled : List BlockId} {block : BlockId}

theorem Standing.tracked_zero {due : Nat} (h : Standing 0 due c controlled) :
    Tracked c controlled :=
  ⟨0, due, h, Nat.zero_le _, Nat.zero_le _⟩

theorem Settled.tracked (h : Settled c controlled) : Tracked c controlled := h.1.tracked_zero

theorem Closing.tracked (h : Closing c controlled) : Tracked c controlled := by
  rcases h with h | h
  · exact h.tracked
  · exact h.1.tracked_zero

theorem Due.tracked (h : Due block c controlled) : Tracked c controlled := h.1.tracked_zero

theorem Controlled.tracked (h : Controlled block c controlled) : Tracked c controlled :=
  ⟨1, 1, h.1, le_refl _, le_refl _⟩

theorem Judged.tracked {indistinguishable : Bool} (h : Judged block indistinguishable c controlled) :
    Tracked c controlled := h.1.tracked_zero

theorem Standing.block_lt {controls due : Nat} (h : Standing controls due c controlled)
    {outcome : BlockOutcome F} (hmem : outcome ∈ c.blocks) :
    outcome.block < c.blocks.length := by
  have hblock := List.mem_map_of_mem (f := BlockOutcome.block) hmem
  rw [h.blocks] at hblock
  exact List.mem_range.mp hblock

theorem Standing.opened (o : Option OpenSweep) {controls due : Nat}
    (h : Standing controls due c controlled) :
    Standing controls due { c with openSweep := o } controlled :=
  ⟨h.blocks, h.inOrder, h.nulls, h.due⟩

theorem Standing.close_control {controls due : Nat} (h : Standing controls due c controlled)
    {summary : SweepSummary F} {trials : SweepId × Nat} (hkind : summary.kind.isLive = false) :
    Standing controls due (c.close summary trials) controlled := by
  refine ⟨h.blocks, h.inOrder, h.nulls, ?_⟩
  rw [Course.liveSweeps_close_control hkind]
  exact h.due

theorem Course.Retracted.close_control (h : c.Retracted) {summary : SweepSummary F}
    {trials : SweepId × Nat} (hkind : summary.kind.isLive = false) :
    (c.close summary trials).Retracted := by
  intro outcome hmem hflag
  rw [Course.inBlock_close_control hkind]
  exact h outcome hmem hflag

theorem Standing.close_live {controls due : Nat} (h : Standing controls due c controlled)
    {summary : SweepSummary F} (trials : SweepId × Nat) (hkind : summary.kind.isLive = true) :
    Standing controls due (c.close summary trials) controlled ∧
        (c.liveSweeps.length + 1) % Session.SHUFFLE_PERIOD ≠ 0 ∨
      Standing controls (due + 1) (c.close summary trials) controlled ∧
        (c.liveSweeps.length + 1) % Session.SHUFFLE_PERIOD = 0 := by
  have hdue := h.due
  have hlength : (c.close summary trials).liveSweeps.length = c.liveSweeps.length + 1 := by
    rw [Course.liveSweeps_close_live hkind, List.length_append]
    rfl
  have hblocks : (c.close summary trials).blocks.length = c.blocks.length := rfl
  simp only [Session.SHUFFLE_PERIOD] at hdue ⊢
  by_cases hcomplete : (c.liveSweeps.length + 1) % 4 = 0
  · refine .inr ⟨⟨h.blocks, h.inOrder, h.nulls, ?_⟩, hcomplete⟩
    simp only [Session.SHUFFLE_PERIOD]
    omega
  · refine .inl ⟨⟨h.blocks, h.inOrder, h.nulls, ?_⟩, hcomplete⟩
    simp only [Session.SHUFFLE_PERIOD]
    omega

theorem Course.Retracted.close_live {controls : Nat} (h : c.Retracted)
    (hstanding : Standing controls 0 c controlled) {summary : SweepSummary F}
    (trials : SweepId × Nat) (hkind : summary.kind.isLive = true) :
    (c.close summary trials).Retracted := by
  intro outcome hmem hflag
  have hlt := hstanding.block_lt hmem
  have hother : outcome.block ≠ c.liveSweeps.length / Session.SHUFFLE_PERIOD := by
    rw [← hstanding.due]
    exact hlt.ne
  rw [Course.inBlock_close_live hkind hother]
  exact h outcome hmem hflag

theorem Settled.close_live (h : Settled c controlled) {summary : SweepSummary F}
    {trials : SweepId × Nat} (hkind : summary.kind.isLive = true) :
    Closing (c.close summary trials) controlled := by
  obtain ⟨hstanding, hretracted⟩ := h
  have hkept := hretracted.close_live hstanding trials hkind
  rcases hstanding.close_live trials hkind with ⟨hsame, -⟩ | ⟨hnext, hcomplete⟩
  · exact .inl ⟨hsame, hkept⟩
  · refine .inr ⟨hnext, hkept, ?_⟩
    rw [Course.liveSweeps_close_live hkind, List.length_append]
    exact hcomplete

theorem Tracked.close (h : Tracked c controlled) (summary : SweepSummary F)
    (trials : SweepId × Nat) : Tracked (c.close summary trials) controlled := by
  obtain ⟨controls, due, hstanding, hone, hle⟩ := h
  cases hkind : summary.kind.isLive with
  | false => exact ⟨controls, due, hstanding.close_control hkind, hone, hle⟩
  | true =>
    rcases hstanding.close_live trials hkind with ⟨hsame, -⟩ | ⟨hnext, -⟩
    · exact ⟨controls, due, hsame, hone, hle⟩
    · exact ⟨controls, due + 1, hnext, hone, hle.trans (Nat.le_succ _)⟩

theorem Tracked.settled {c : Course F} {controlled : List BlockId} (h : Tracked c controlled)
    (hjudged : c.blocks.length = c.liveSweeps.length / Session.SHUFFLE_PERIOD)
    (hretracted : c.Retracted) : Settled c controlled := by
  obtain ⟨controls, due, hstanding, -, hle⟩ := h
  have hdue : due = 0 := by
    have hsum := hstanding.due
    omega
  obtain rfl := hdue
  obtain rfl := Nat.le_zero.mp hle
  exact ⟨hstanding, hretracted⟩

/-- The sweep a process died in ends a block only if no block is complete before. -/
theorem Tracked.settled_close {c : Course F} {controlled : List BlockId}
    (h : Tracked c controlled) {summary : SweepSummary F} {trials : SweepId × Nat}
    (hjudged : c.blocks.length = (c.liveSweeps.length +
      if summary.kind.isLive then 1 else 0) / Session.SHUFFLE_PERIOD)
    (hretracted : c.Retracted) : Settled (c.close summary trials) controlled := by
  cases hkind : summary.kind.isLive with
  | false =>
    rw [hkind] at hjudged
    apply (h.close summary trials).settled
    · rw [Course.liveSweeps_close_control hkind]
      exact hjudged
    · exact hretracted.close_control hkind
  | true =>
    rw [hkind, if_pos rfl] at hjudged
    have hbefore : c.blocks.length = c.liveSweeps.length / Session.SHUFFLE_PERIOD := by
      obtain ⟨controls, due, hstanding, -, -⟩ := h
      have hsum := hstanding.due
      have hmono : c.liveSweeps.length / Session.SHUFFLE_PERIOD ≤
          (c.liveSweeps.length + 1) / Session.SHUFFLE_PERIOD :=
        Nat.div_le_div_right (Nat.le_succ _)
      omega
    apply (h.close summary trials).settled
    · rw [Course.liveSweeps_close_live hkind, List.length_append]
      exact hjudged
    · exact hretracted.close_live (h.settled hbefore hretracted).1 trials hkind

theorem Due.close_control (h : Due block c controlled) {summary : SweepSummary F}
    {trials : SweepId × Nat} (hkind : summary.kind.isLive = false) :
    Due block (c.close summary trials) controlled :=
  ⟨h.1.close_control hkind, h.2.1.close_control hkind, h.2.2⟩

theorem Due.control (h : Due block c controlled) {observations : List F} {refusals : Nat}
    (hnulls : observations.length + refusals = c.nullObservations.length + c.nullRefusals + 1) :
    Controlled block { c with nullObservations := observations, nullRefusals := refusals }
      (controlled ++ [block]) := by
  obtain ⟨⟨hblocks, hinOrder, hnull, hdue⟩, hretracted, rfl⟩ := h
  refine ⟨⟨hblocks, ?_, ?_, hdue⟩, hretracted, rfl⟩
  · rw [hinOrder, Nat.add_zero, ← List.range_succ]
  · rw [List.length_append, hnulls, hnull]
    rfl

theorem Controlled.judge (h : Controlled block c controlled) {outcome : BlockOutcome F}
    (houtcome : outcome.block = block) :
    Judged block outcome.indistinguishable { c with blocks := c.blocks ++ [outcome] }
      controlled := by
  obtain ⟨⟨hblocks, hinOrder, hnull, hdue⟩, hretracted, rfl⟩ := h
  refine ⟨⟨?_, ?_, hnull, ?_⟩, ?_⟩
  · simp only [List.map_append, hblocks, List.length_append, List.map_cons, List.map_nil,
      List.length_singleton, houtcome, List.range_succ]
  · rw [hinOrder, List.length_append]
    rfl
  · rw [List.length_append]
    exact hdue
  · intro other hother hflag
    rcases List.mem_append.mp hother with hother | hother
    · exact .inr (hretracted other hother hflag)
    · obtain rfl := List.mem_singleton.mp hother
      exact .inl ⟨houtcome, hflag⟩

theorem Judged.settled (h : Judged block false c controlled) : Settled c controlled := by
  refine ⟨h.1, ?_⟩
  intro outcome hmem hflag
  rcases h.2 outcome hmem hflag with ⟨-, hfalse⟩ | hretracted
  · cases hfalse
  · exact hretracted

theorem Judged.retract {indistinguishable : Bool} (h : Judged block indistinguishable c controlled)
    {retracted : Finset SweepId} (hold : c.retractedSweeps ⊆ retracted)
    (hnew : ∀ summary ∈ c.liveSweepsInBlock block, summary.sweep ∈ retracted) :
    Settled { c with retractedSweeps := retracted } controlled := by
  refine ⟨⟨h.1.blocks, h.1.inOrder, h.1.nulls, h.1.due⟩, ?_⟩
  intro outcome hmem hflag summary hsummary
  rcases h.2 outcome hmem hflag with ⟨hblock, -⟩ | hretracted
  · apply hnew
    rw [← hblock]
    exact hsummary
  · exact hold (hretracted summary hsummary)

/-- When the control is not due, all blocks are judged; when it is, the last one is not. -/
theorem Closing.settled_or_due (h : Closing c controlled) :
    Settled c controlled ∧ ¬c.blocks.length < c.liveSweeps.length / Session.SHUFFLE_PERIOD ∨
      Due c.blocks.length c controlled ∧
        c.liveSweeps.length % Session.SHUFFLE_PERIOD = 0 ∧ 0 < c.liveSweeps.length ∧
        c.blocks.length < c.liveSweeps.length / Session.SHUFFLE_PERIOD := by
  rcases h with h | ⟨hstanding, hretracted, hmod⟩
  · refine .inl ⟨h, ?_⟩
    rw [← h.1.due]
    exact lt_irrefl _
  · have hdue := hstanding.due
    have hlt : c.blocks.length < c.liveSweeps.length / Session.SHUFFLE_PERIOD := by
      rw [← hdue]
      exact Nat.lt_succ_self _
    refine .inr ⟨⟨hstanding, hretracted, rfl⟩, hmod, ?_, hlt⟩
    by_contra hnone
    have hzero : c.liveSweeps.length = 0 := by omega
    rw [hzero, Nat.zero_div] at hlt
    exact Nat.not_lt_zero _ hlt

end Blocks

section Apply

variable {F : Type} {session session' : Session F}

theorem EndsSweep.course {sweep : SweepId} {trialsOffered : Nat}
    (h : EndsSweep session session' sweep trialsOffered) :
    ∃ opened summary, session.openSweep = some opened ∧ summary.kind = opened.kind ∧
      session'.course = session.course.close summary (opened.sweep, trialsOffered) ∧
      session'.stopped = session.stopped ∧ session'.quoteCoverage = session.quoteCoverage := by
  obtain ⟨opened, census, outcome, perSearch, wallMs, hopened, -, rfl⟩ := h
  exact ⟨opened, _, hopened, rfl, rfl, rfl, rfl⟩

theorem mem_retract (ledger : PosteriorLedger) (sweeps : List SweepId) (sweep : SweepId) :
    sweep ∈ (ledger.retract sweeps).retractedSweeps ↔
      sweep ∈ ledger.retractedSweeps ∨ sweep ∈ sweeps := by
  induction sweeps generalizing ledger with
  | nil => simp [PosteriorLedger.retract]
  | cons first rest ih =>
    have hstep : sweep ∈ (ledger.retractSweep first).retractedSweeps ↔
        sweep = first ∨ sweep ∈ ledger.retractedSweeps := by
      unfold PosteriorLedger.retractSweep
      split
      next hmem =>
        constructor
        · exact .inr
        · rintro (rfl | h)
          · exact hmem
          · exact h
      next => simp
    have hrest := ih (ledger.retractSweep first)
    rw [PosteriorLedger.retract, List.foldl_cons]
    rw [PosteriorLedger.retract] at hrest
    rw [hrest, hstep, List.mem_cons]
    tauto

end Apply

end Neoethos
