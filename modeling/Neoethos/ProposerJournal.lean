import Mathlib.Data.List.Count
import Neoethos.ProposerDraw

namespace Neoethos

namespace Autoresearch

theorem eat_cancel {h b b' : BitVec 64} (heq : eat h b = eat h b') : b = b' := by
  -- the multiplier is odd, so it has an inverse
  have hinverse : (0x1000000001b3#64) * 0xb46dd957aff6957b#64 = 1#64 := by decide
  have hxor : h ^^^ b = h ^^^ b' := by
    calc h ^^^ b
        = eat h b * 0xb46dd957aff6957b#64 := by
          rw [eat, BitVec.mul_assoc, hinverse, BitVec.mul_one]
      _ = eat h b' * 0xb46dd957aff6957b#64 := by rw [heq]
      _ = h ^^^ b' := by rw [eat, BitVec.mul_assoc, hinverse, BitVec.mul_one]
  have hcancel := congrArg (h ^^^ ·) hxor
  simpa only [← BitVec.xor_assoc, BitVec.xor_self, BitVec.zero_xor] using hcancel

theorem replicateSeed_cancel {seed : BitVec 64} {cell : CellKey} {m n : Nat} (hm : m < 2 ^ 64)
    (hn : n < 2 ^ 64) (heq : replicateSeed seed cell m = replicateSeed seed cell n) : m = n := by
  have hbits := congrArg BitVec.toNat (eat_cancel heq)
  rwa [BitVec.toNat_ofNat, BitVec.toNat_ofNat, Nat.mod_eq_of_lt hm, Nat.mod_eq_of_lt hn] at hbits

def drawsOf (history : List Proposal) (cell : CellKey) : Nat :=
  (history.map CellKey.of).count cell

@[simp] theorem drawsOf_nil (cell : CellKey) : drawsOf [] cell = 0 := rfl

theorem drawsOf_append (history more : List Proposal) (cell : CellKey) :
    drawsOf (history ++ more) cell = drawsOf history cell + drawsOf more cell := by
  unfold drawsOf
  rw [List.map_append, List.count_append]

theorem drawsOf_singleton (p : Proposal) (cell : CellKey) :
    drawsOf [p] cell = if CellKey.of p = cell then 1 else 0 := by
  simp [drawsOf, List.count_singleton]

/-- Every proposal carries the seed of its place in its cell, and a cell has three places. -/
inductive Dense (seed : BitVec 64) : List Proposal → Prop
  | nil : Dense seed []
  | draw {history : List Proposal} {p : Proposal} (previous : Dense seed history)
      (hfew : drawsOf history (CellKey.of p) < maxReplicatesPerCell)
      (hseed : p.replicateSeed =
        replicateSeed seed (CellKey.of p) (drawsOf history (CellKey.of p))) :
      Dense seed (history ++ [p])

namespace Dense

variable {seed : BitVec 64} {history : List Proposal}

theorem draws_le (h : Dense seed history) (cell : CellKey) :
    drawsOf history cell ≤ maxReplicatesPerCell := by
  induction h with
  | nil => exact Nat.zero_le _
  | @draw history p previous hfew hseed ih =>
    rw [drawsOf_append, drawsOf_singleton]
    split
    next heq =>
      subst heq
      exact hfew
    next => exact ih

theorem seed_of_mem (h : Dense seed history) {p : Proposal} (hp : p ∈ history) :
    ∃ r < drawsOf history (CellKey.of p),
      p.replicateSeed = replicateSeed seed (CellKey.of p) r := by
  induction h with
  | nil => exact absurd hp List.not_mem_nil
  | @draw history q previous hfew hseed ih =>
    rw [drawsOf_append]
    rcases List.mem_append.mp hp with hearlier | hlast
    · obtain ⟨r, hr, heq⟩ := ih hearlier
      exact ⟨r, by omega, heq⟩
    · obtain rfl := List.mem_singleton.mp hlast
      refine ⟨drawsOf history (CellKey.of p), ?_, hseed⟩
      rw [drawsOf_singleton, if_pos rfl]
      omega

/-- The seed of the next place of a cell is new in that cell. -/
theorem key_fresh (h : Dense seed history) {p : Proposal} (hseed : p.replicateSeed =
    replicateSeed seed (CellKey.of p) (drawsOf history (CellKey.of p))) :
    p.key ∉ history.map Proposal.key := by
  intro hmem
  obtain ⟨q, hq, hkey⟩ := List.mem_map.mp hmem
  have hcell : CellKey.of q = CellKey.of p := by
    obtain ⟨h₁, h₂, h₃, h₄, -⟩ := ProposalKey.mk.inj hkey
    unfold CellKey.of
    rw [h₁, h₂, h₃, h₄]
  obtain ⟨r, hr, hsame⟩ := h.seed_of_mem hq
  rw [hcell] at hr hsame
  have hle := h.draws_le (CellKey.of p)
  have hsmall : drawsOf history (CellKey.of p) < 2 ^ 64 :=
    hle.trans_lt (by decide)
  have hseeds : q.replicateSeed = p.replicateSeed := congrArg ProposalKey.replicateSeed hkey
  have hplace := replicateSeed_cancel (hr.trans hsmall) hsmall
    (hsame.symm.trans (hseeds.trans hseed))
  omega

theorem nodup (h : Dense seed history) : (history.map Proposal.key).Nodup := by
  induction h with
  | nil => exact List.nodup_nil
  | @draw history p previous hfew hseed ih =>
    rw [List.map_append, List.map_singleton, ← List.concat_eq_append]
    exact ih.concat (previous.key_fresh hseed)

theorem of_append {more : List Proposal} (h : Dense seed (history ++ more)) :
    Dense seed history := by
  induction more using List.reverseRecOn with
  | nil => rwa [List.append_nil] at h
  | append_singleton more p ih =>
    rw [← List.append_assoc] at h
    generalize hall : history ++ more ++ [p] = all at h
    cases h with
    | nil => simp at hall
    | draw previous hfew hseed =>
      obtain ⟨hearlier, -⟩ := List.append_inj' hall rfl
      exact ih (hearlier ▸ previous)

end Dense

def objectiveDraws (history : List Proposal) (v : ObjectiveVariant) : Nat :=
  history.countP fun p => p.axisB.variant = v

def Capped (history : List Proposal) : Prop :=
  ∀ v cap, v.maxDrawsPerSession = some cap → objectiveDraws history v ≤ cap

theorem Capped.of_append {history more : List Proposal} (h : Capped (history ++ more)) :
    Capped history := by
  intro v cap hcap
  have hle := h v cap hcap
  rw [objectiveDraws, List.countP_append] at hle
  exact (Nat.le_add_right _ _).trans hle

/-- The proposer keeps of its journal what the draw asks for. -/
structure Recalls (me : Proposer) (history : List Proposal) : Prop where
  replicates : ∀ cell, me.replicates cell = drawsOf history cell
  keys : ∀ k, (me.keys k).isSome ↔ k ∈ history.map Proposal.key
  b0Drawn : me.b0Drawn = objectiveDraws history .b0ScoringTable

theorem Recalls.remember {me : Proposer} {history : List Proposal} (h : Recalls me history)
    (p : Proposal) (sweep : Nat) : Recalls (me.remember p sweep) (history ++ [p]) where
  replicates cell := by
    rw [drawsOf_append, drawsOf_singleton]
    by_cases hcell : CellKey.of p = cell
    · subst hcell
      rw [if_pos rfl, ← h.replicates]
      exact Function.update_self _ _ _
    · rw [if_neg hcell, Nat.add_zero, ← h.replicates]
      exact Function.update_of_ne (Ne.symm hcell) _ _
  keys k := by
    rw [List.map_append, List.mem_append, List.map_singleton, List.mem_singleton, ← h.keys]
    by_cases hk : k = p.key
    · subst hk
      have hsome : (me.remember p sweep).keys p.key = some ((me.keys p.key).getD sweep) :=
        Function.update_self _ _ _
      simp [hsome]
    · have hsame : (me.remember p sweep).keys k = me.keys k := Function.update_of_ne hk _ _
      simp [hsame, hk]
  b0Drawn := by
    have hstep : (me.remember p sweep).b0Drawn =
        if p.axisB.variant = .b0ScoringTable then me.b0Drawn + 1 else me.b0Drawn := rfl
    rw [hstep, h.b0Drawn, objectiveDraws, objectiveDraws, List.countP_append,
      List.countP_singleton]
    split <;> simp_all

namespace Proposer

theorem rememberAll_append (me : Proposer) (drawn more : List (Nat × Proposal)) :
    me.rememberAll (drawn ++ more) = (me.rememberAll drawn).rememberAll more :=
  List.foldl_append

theorem rememberAll_keeps (me : Proposer) (drawn : List (Nat × Proposal)) :
    (me.rememberAll drawn).caps = me.caps ∧ (me.rememberAll drawn).scenario = me.scenario ∧
      (me.rememberAll drawn).sessionSeed = me.sessionSeed ∧
      (me.rememberAll drawn).drawableVariants = me.drawableVariants := by
  induction drawn generalizing me with
  | nil => exact ⟨rfl, rfl, rfl, rfl⟩
  | cons entry rest ih => exact ih (me.remember entry.2 entry.1)

end Proposer

theorem Recalls.rememberAll {me : Proposer} {history : List Proposal} (h : Recalls me history)
    (drawn : List (Nat × Proposal)) :
    Recalls (me.rememberAll drawn) (history ++ drawn.map Prod.snd) := by
  induction drawn generalizing me history with
  | nil => rwa [List.map_nil, List.append_nil]
  | cons entry rest ih =>
    rw [List.map_cons, List.append_cons]
    exact ih (h.remember entry.2 entry.1)

section Restore

variable {caps : Capabilities} {scenario : ScenarioKind} {seed : BitVec 64} {session : SweepFold}
  {me : Proposer}

/-- `restore`: the proposer of a build that carries the axis, with the sweeps of the session. -/
theorem restore_eq_some (h : Proposer.restore caps scenario seed session = some me) :
    ∃ drawable, axisBLiveCheck caps scenario = some drawable ∧
      me = (Proposer.blank caps scenario seed drawable).rememberAll session.remembered := by
  obtain ⟨drawable, hlive, hme⟩ := Option.map_eq_some_iff.mp h
  exact ⟨drawable, hlive, hme.symm⟩

theorem restore_spec (h : Proposer.restore caps scenario seed session = some me) :
    me.caps = caps ∧ me.sessionSeed = seed ∧ me.Live ∧
      Recalls me (session.remembered.map Prod.snd) := by
  obtain ⟨drawable, hlive, rfl⟩ := restore_eq_some h
  obtain ⟨hcaps, hscenario, hseed, hdrawable⟩ :=
    Proposer.rememberAll_keeps (Proposer.blank caps scenario seed drawable) session.remembered
  refine ⟨hcaps, hseed, ?_, ?_⟩
  · unfold Proposer.Live
    rw [hcaps, hscenario, hdrawable]
    exact hlive
  · have hempty : Recalls (Proposer.blank caps scenario seed drawable) [] :=
      ⟨fun _ => rfl, fun k => by simp [Proposer.blank], rfl⟩
    exact hempty.rememberAll session.remembered

/-- Restoring after one more sweep is going on with it in memory. -/
theorem restore_append {session' : SweepFold} {more : List (Nat × Proposal)}
    (h : Proposer.restore caps scenario seed session = some me)
    (hmore : session'.remembered = session.remembered ++ more) :
    Proposer.restore caps scenario seed session' = some (me.rememberAll more) := by
  obtain ⟨drawable, hlive, rfl⟩ := restore_eq_some h
  rw [← Proposer.rememberAll_append, ← hmore]
  exact Option.map_eq_some_iff.mpr ⟨drawable, hlive, rfl⟩

theorem restore_congr {session' : SweepFold}
    (h : Proposer.restore caps scenario seed session = some me)
    (hsame : session'.remembered = session.remembered) :
    Proposer.restore caps scenario seed session' = some me :=
  restore_append h (hsame.trans (List.append_nil _).symm)

/-- A proposer that is in step with the session is left alone by a reload. -/
theorem reload_eq (h : Proposer.restore caps scenario seed session = some me) :
    me.reload session = me := by
  obtain ⟨drawable, -, rfl⟩ := restore_eq_some h
  obtain ⟨hcaps, hscenario, hseed, hdrawable⟩ :=
    Proposer.rememberAll_keeps (Proposer.blank caps scenario seed drawable) session.remembered
  unfold Proposer.reload
  rw [hcaps, hscenario, hseed, hdrawable]
  rfl

end Restore

namespace SweepFold

variable {session session' : SweepFold}

theorem applyAll_append (session : SweepFold) (records more : List SweepRecord) :
    session.applyAll (records ++ more) = (session.applyAll records).bind (·.applyAll more) :=
  List.foldlM_append

theorem applyAll_cons {record : SweepRecord} {rest : List SweepRecord} :
    session.applyAll (record :: rest) = some session' ↔
      ∃ next, session.apply record = some next ∧ next.applyAll rest = some session' :=
  Option.bind_eq_some_iff

/-- The numbers of a session: what is recorded of a sweep is not past the highest one. -/
structure Numbered (session : SweepFold) : Prop where
  unseen : ∀ sweep, session.highestSweep < sweep → session.proposals sweep = none
  seen : ∀ sweep ∈ session.started, sweep ≤ session.highestSweep

theorem Numbered.empty : Numbered SweepFold.empty :=
  ⟨fun _ _ => rfl, fun _ h => absurd h List.not_mem_nil⟩

theorem Numbered.noteSweep (h : Numbered session) (sweep : Nat) :
    Numbered (session.noteSweep sweep) where
  unseen other hless := h.unseen other ((le_max_left _ _).trans_lt hless)
  seen other hother := (h.seen other hother).trans (le_max_left _ _)

theorem started_open (session : SweepFold) (sweep : Nat) (h : session.openSweep = none) :
    { session with openSweep := some sweep }.started = session.started ++ [sweep] := by
  simp [started, h]

theorem started_end {sweep : Nat} (h : session.openSweep = some sweep) :
    { session with sweeps := session.sweeps ++ [sweep], openSweep := none }.started =
      session.started := by
  simp [started, h]

theorem Numbered.apply {record : SweepRecord} (h : Numbered session)
    (hstep : session.apply record = some session') : Numbered session' := by
  cases record with
  | proposalDrawn sweep slot p =>
    obtain rfl := Option.some.inj hstep
    refine ⟨fun other hless => ?_, (h.noteSweep sweep).seen⟩
    have hne : other ≠ sweep := ((le_max_right _ _).trans_lt hless).ne'
    simp only [Function.update_of_ne hne]
    exact (h.noteSweep sweep).unseen other hless
  | sweepStarted sweep =>
    obtain ⟨hclosed, hstep⟩ := Option.ite_none_left_eq_some.mp hstep
    obtain rfl := Option.some.inj hstep
    have hnone : (session.noteSweep sweep).openSweep = none := by
      simpa [SweepFold.noteSweep] using hclosed
    refine ⟨(h.noteSweep sweep).unseen, fun other hother => ?_⟩
    rw [started_open _ sweep hnone] at hother
    rcases List.mem_append.mp hother with hold | hnew
    · exact (h.noteSweep sweep).seen other hold
    · obtain rfl := List.mem_singleton.mp hnew
      exact le_max_right _ _
  | sweepEnded sweep =>
    obtain ⟨hopen, hstep⟩ := Option.ite_none_right_eq_some.mp hstep
    obtain rfl := Option.some.inj hstep
    refine ⟨h.unseen, fun other hother => h.seen other ?_⟩
    rwa [started_end hopen] at hother
  | noted sweep =>
    obtain rfl := Option.some.inj hstep
    exact h.noteSweep sweep

theorem Numbered.applyAll {records : List SweepRecord} (h : Numbered session)
    (hrun : session.applyAll records = some session') : Numbered session' := by
  induction records generalizing session with
  | nil =>
    obtain rfl := Option.some.inj hrun
    exact h
  | cons record rest ih =>
    obtain ⟨next, hstep, hrest⟩ := applyAll_cons.mp hrun
    exact ih (h.apply hstep) hrest

/-- Two sessions that differ in the draws of one sweep. -/
structure Beside (sweep : Nat) (session session' : SweepFold) : Prop where
  sweeps : session'.sweeps = session.sweeps
  openSweep : session'.openSweep = session.openSweep
  others : ∀ other, other ≠ sweep → session'.proposals other = session.proposals other

theorem Beside.started {sweep : Nat} (h : Beside sweep session session') :
    session'.started = session.started := by
  unfold SweepFold.started
  rw [h.sweeps, h.openSweep]

theorem remembered_congr (hstarted : session'.started = session.started)
    (h : ∀ sweep ∈ session.started, session'.proposals sweep = session.proposals sweep) :
    session'.remembered = session.remembered := by
  unfold remembered
  rw [hstarted]
  exact List.flatMap_congr fun sweep hsweep => by rw [h sweep hsweep]

/-- What is recorded of a sweep that was not started is not remembered. -/
theorem Beside.remembered {sweep : Nat} (h : Beside sweep session session')
    (hnew : sweep ∉ session.started) : session'.remembered = session.remembered :=
  remembered_congr h.started fun other hother =>
    h.others other fun heq => hnew (heq ▸ hother)

def OfDraw (sweep : Nat) : SweepRecord → Prop
  | .proposalDrawn drawn _ _ => drawn = sweep
  | .noted noted => noted = sweep
  | _ => False

theorem ofDraw_of_mem {sweep : Nat} {out : DrawnSweep} {record : SweepRecord}
    (h : record ∈ journalDraw sweep out) : OfDraw sweep record := by
  unfold journalDraw at h
  simp only [List.mem_append, List.mem_map] at h
  rcases h with (⟨_, -, rfl⟩ | ⟨_, -, rfl⟩) | ⟨_, -, rfl⟩ <;> rfl

theorem applyAll_draw {sweep : Nat} {records : List SweepRecord}
    (h : ∀ record ∈ records, OfDraw sweep record) (session : SweepFold) :
    ∃ session', session.applyAll records = some session' ∧ Beside sweep session session' := by
  induction records generalizing session with
  | nil => exact ⟨session, rfl, rfl, rfl, fun _ _ => rfl⟩
  | cons record rest ih =>
    obtain ⟨hrecord, hrest⟩ := List.forall_mem_cons.mp h
    obtain ⟨next, hstep, hnext⟩ : ∃ next, session.apply record = some next ∧
        Beside sweep session next := by
      cases record with
      | proposalDrawn drawn slot p =>
        obtain rfl := hrecord
        exact ⟨_, rfl, rfl, rfl, fun other hne => Function.update_of_ne hne _ _⟩
      | noted noted => exact ⟨_, rfl, rfl, rfl, fun _ _ => rfl⟩
      | sweepStarted started => exact hrecord.elim
      | sweepEnded ended => exact hrecord.elim
    obtain ⟨session', hrun, hbeside⟩ := ih hrest next
    refine ⟨session', applyAll_cons.mpr ⟨next, hstep, hrun⟩,
      hbeside.sweeps.trans hnext.sweeps, hbeside.openSweep.trans hnext.openSweep,
      fun other hne => (hbeside.others other hne).trans (hnext.others other hne)⟩

theorem applyAll_journalDraw (sweep : Nat) (out : DrawnSweep) (session : SweepFold) :
    ∃ session', session.applyAll (journalDraw sweep out) = some session' ∧
      Beside sweep session session' :=
  applyAll_draw (fun _ hrecord => ofDraw_of_mem hrecord) session

theorem putSlot_end (slots : List Proposal) (p : Proposal) :
    putSlot slots slots.length p = slots ++ [p] := by
  simp [putSlot]

/-- Dense slots lie in the journal in the order of the draw. -/
theorem applyAll_proposals {sweep : Nat} {ps : List Proposal}
    (hdense : ps.map (·.slot) =
      List.range' ((session.proposals sweep).getD []).length ps.length)
    (hrun : session.applyAll (ps.map fun p => .proposalDrawn sweep p.slot p) = some session') :
    (session'.proposals sweep).getD [] = (session.proposals sweep).getD [] ++ ps := by
  induction ps generalizing session with
  | nil =>
    obtain rfl := Option.some.inj hrun
    exact (List.append_nil _).symm
  | cons p rest ih =>
    obtain ⟨next, hstep, hrest⟩ := applyAll_cons.mp hrun
    rw [List.map_cons, List.length_cons, List.range'_succ, List.cons.injEq] at hdense
    obtain ⟨hslot, hdense⟩ := hdense
    have hnext : (next.proposals sweep).getD [] = (session.proposals sweep).getD [] ++ [p] := by
      obtain rfl := Option.some.inj hstep
      change (Function.update session.proposals sweep (some (putSlot
        ((session.proposals sweep).getD []) p.slot p)) sweep).getD [] = _
      rw [Function.update_self, hslot, putSlot_end, Option.getD_some]
    rw [List.append_cons, ← hnext]
    refine ih ?_ hrest
    rw [hnext, List.length_append, List.length_singleton, hdense]

theorem applyAll_noted (sweep : Nat) {records : List SweepRecord}
    (h : ∀ record ∈ records, record = .noted sweep)
    (hrun : session.applyAll records = some session') :
    session'.proposals = session.proposals := by
  induction records generalizing session with
  | nil =>
    obtain rfl := Option.some.inj hrun
    rfl
  | cons record rest ih =>
    obtain ⟨rfl, hrest⟩ := List.forall_mem_cons.mp h
    obtain ⟨next, hstep, hrun⟩ := applyAll_cons.mp hrun
    obtain rfl := Option.some.inj hstep
    have hsame := ih hrest hrun
    exact hsame

/-- A sweep that is started after its whole draw is journalled: it is open, and what is remembered
is what was remembered and its proposals. -/
theorem journalDraw_started (h : Numbered session) (hclosed : session.openSweep = none)
    {out : DrawnSweep}
    (hslots : out.proposals.map (·.slot) = List.range out.proposals.length) :
    ∃ session', session.applyAll
        (journalDraw session.nextSweep out ++ [.sweepStarted session.nextSweep]) = some session' ∧
      session'.openSweep = some session.nextSweep ∧
      session'.remembered = session.remembered ++ out.proposals.map (session.nextSweep, ·) := by
  obtain ⟨drawn, hrun, hbeside⟩ :=
    applyAll_journalDraw session.nextSweep out session
  have hfresh : session.proposals session.nextSweep = none :=
    h.unseen _ (Nat.lt_succ_self _)
  have hnew : session.nextSweep ∉ session.started := fun hmem =>
    absurd (h.seen _ hmem) (Nat.not_succ_le_self _)
  have hproposals : (drawn.proposals session.nextSweep).getD [] = out.proposals := by
    unfold journalDraw at hrun
    rw [applyAll_append] at hrun
    obtain ⟨noted, hnoted, hdraws⟩ := Option.bind_eq_some_iff.mp hrun
    have hsame := applyAll_noted session.nextSweep (fun record hrecord => by
      rcases List.mem_append.mp hrecord with hrecord | hrecord
      · obtain ⟨_, -, rfl⟩ := List.mem_map.mp hrecord
        rfl
      · obtain ⟨_, -, rfl⟩ := List.mem_map.mp hrecord
        rfl) hnoted
    have hnone : (noted.proposals session.nextSweep).getD [] = [] := by
      rw [hsame, hfresh, Option.getD_none]
    have hall := applyAll_proposals (by rw [hslots, hnone, List.range_eq_range']; rfl) hdraws
    rwa [hnone, List.nil_append] at hall
  have hopen : drawn.openSweep = none := hbeside.openSweep.trans hclosed
  refine ⟨{ drawn.noteSweep session.nextSweep with openSweep := some session.nextSweep }, ?_, rfl, ?_⟩
  · rw [applyAll_append, hrun]
    simp [applyAll, apply, hopen]
  · have hstarted := started_open (drawn.noteSweep session.nextSweep) session.nextSweep hopen
    have hkept : (drawn.noteSweep session.nextSweep).started = session.started := hbeside.started
    unfold remembered
    rw [hstarted, hkept, List.flatMap_append, List.flatMap_singleton]
    congr 1
    · exact List.flatMap_congr fun other hother => by
        rw [show (drawn.noteSweep session.nextSweep).proposals other = drawn.proposals other from rfl,
          hbeside.others other fun heq => hnew (heq ▸ hother)]
    · exact congrArg (·.map (session.nextSweep, ·)) hproposals

end SweepFold

end Autoresearch

end Neoethos
