import Neoethos.EntryCounter
import Neoethos.ListIndex

namespace Neoethos

open EntryStore (Covers KeepsCount OneFewer)

def EntryAttempt.holds (dayId : Nat) (t : EntryAttempt) : Bool :=
  t.dayId = dayId ∧ t.stage ≠ .released

/-- The reservations granted for a day and not released, in this process and in those before. -/
def EntryWorld.held (w : EntryWorld) (dayId : Nat) : Nat :=
  w.attempts.countP (EntryAttempt.holds dayId) + w.lost.count dayId

def EntryAct.UsesCap (cap : Nat) : EntryAct → Prop
  | .reserve _ asked _ => asked = some cap
  | _ => True

/-- A day that is prepared anew has no reservation held for it. -/
def EntryWorld.DayNotHeld (w : EntryWorld) : EntryAct → Prop
  | .prepareDay dayId writes => dayId ≠ 0 → writes = true →
      ∀ a ∈ w.memory, a.dayId ≠ some dayId → w.held dayId = 0
  | _ => True

/-- The durable counter covers what is held for its day; with no such file nothing is held. -/
def FileCovers (held : Nat → Nat) : Option EntryCheckpointFile → Prop
  | some (.v2 checkpoint) =>
      ∀ d, checkpoint.dayId = some d → held d ≤ checkpoint.entriesReservedOrFilled
  | _ => ∀ d, held d = 0

theorem EntryStore.Covers.fileCovers {held : Nat → Nat} {s : EntryStore} (h : Covers held s) :
    FileCovers held s.file := by
  obtain ⟨f, hf, _, hcount⟩ := h.file
  rw [hf]
  exact hcount

theorem acquireEntry_covers {identity : AccountRiskIdentity} {file : Option EntryCheckpointFile}
    {legacy : Option LegacyRiskFile} {writes : Bool} {s : EntryStore} {held : Nat → Nat}
    (h : acquireEntry identity file legacy writes = .ok s) (hfile : FileCovers held file) :
    Covers held s := by
  have hpersisted : ∀ a : AccountEntryAuthority, (∀ d, held d = 0) →
      (if writes then Except.ok ⟨a, some (.v2 a.checkpoint)⟩ else .error .statePersistence) =
        (.ok s : Except EntryRefusal EntryStore) → Covers held s := by
    intro a hzero hs
    split at hs
    next =>
      obtain rfl := Except.ok.inj hs
      apply EntryStore.covers_written
      intro d _
      rw [hzero d]
      exact Nat.zero_le _
    next => simp at hs
  unfold acquireEntry at h
  simp only at h
  split at h
  next checkpoint =>
    split at h
    next => simp at h
    next =>
      obtain rfl := Except.ok.inj h
      exact ⟨hfile, checkpoint, rfl, rfl, hfile⟩
  next =>
    split at h
    next => simp at h
    next =>
      split at h
      next => simp at h
      next => exact hpersisted _ hfile h
  next => simp at h
  next =>
    split at h
    next => exact hpersisted _ hfile h
    next =>
      split at h
      next => simp at h
      next =>
        split at h
        next => simp at h
        next => exact hpersisted _ hfile h
    next => simp at h
    next => simp at h

namespace EntryWorld

variable {w : EntryWorld}

theorem held_reserved (w : EntryWorld) (dayId marker d : Nat) :
    { w with
      attempts := w.attempts ++ [⟨dayId, marker, .reserved⟩]
      nextMarker := marker + 1 : EntryWorld }.held d = w.held d + if d = dayId then 1 else 0 := by
  simp only [held, List.countP_append, List.countP_singleton, EntryAttempt.holds]
  by_cases hd : dayId = d
  · simp [hd]
    omega
  · simp [hd, Ne.symm hd]

theorem held_setAttempt {i : Nat} {t t' : EntryAttempt} (hget : w.attempts[i]? = some t)
    (hday : t'.dayId = t.dayId) (hopen : t.stage ≠ .released) (hopen' : t'.stage ≠ .released)
    (d : Nat) : (w.setAttempt i t').held d = w.held d := by
  have hcount := ListIndex.countP_set_add (p := EntryAttempt.holds d) (y := t') hget
  have hsame : EntryAttempt.holds d t' = EntryAttempt.holds d t := by
    simp [EntryAttempt.holds, hday, hopen, hopen']
  rw [hsame] at hcount
  simp only [held, setAttempt]
  omega

theorem held_released {i : Nat} {t : EntryAttempt} (hget : w.attempts[i]? = some t)
    (hopen : t.stage ≠ .released) :
    OneFewer t.dayId w.held (w.setAttempt i ⟨t.dayId, t.marker, .released⟩).held := by
  have hcount := fun d => ListIndex.countP_set_add (p := EntryAttempt.holds d)
    (y := ⟨t.dayId, t.marker, .released⟩) hget
  have hnow : ∀ d, EntryAttempt.holds d ⟨t.dayId, t.marker, .released⟩ = false := by
    simp [EntryAttempt.holds]
  refine ⟨?_, ?_⟩
  · intro d
    have hcount := hcount d
    rw [hnow d, if_neg (by simp : ¬false = true)] at hcount
    simp only [held, setAttempt]
    omega
  · have hcount := hcount t.dayId
    have hheld : EntryAttempt.holds t.dayId t = true := by simp [EntryAttempt.holds, hopen]
    rw [hnow, hheld] at hcount
    simp only [if_true, Bool.false_eq_true, if_false] at hcount
    simp only [held, setAttempt]
    omega

theorem held_crash (w : EntryWorld) (d : Nat) :
    { w with
      memory := none
      attempts := []
      lost := w.lost ++ (w.attempts.filter (·.stage ≠ .released)).map (·.dayId) :
        EntryWorld }.held d = w.held d := by
  have hlost : List.count d ((w.attempts.filter (·.stage ≠ .released)).map (·.dayId)) =
      w.attempts.countP (EntryAttempt.holds d) := by
    rw [List.count, List.countP_map, List.countP_filter]
    apply List.countP_congr
    intro t _
    simp [EntryAttempt.holds]
  simp only [held, List.countP_nil, List.count_append, hlost]
  omega

end EntryWorld

/-- What holds of the counter in every world that is reached. -/
structure CapInvariant (cap : Nat) (w : EntryWorld) : Prop where
  alive : ∀ a, w.memory = some a → Covers w.held ⟨a, w.file⟩
  file : FileCovers w.held w.file
  capped : ∀ d, w.held d ≤ cap

namespace CapInvariant

variable {cap : Nat} {w w' : EntryWorld} {a : AccountEntryAuthority}

theorem start (cap : Nat) (file : Option EntryCheckpointFile) (legacy : Option LegacyRiskFile) :
    CapInvariant cap (.start file legacy) := by
  have hzero : ∀ d, (EntryWorld.start file legacy).held d = 0 := fun d => rfl
  refine ⟨by simp [EntryWorld.start], ?_, fun d => by simp [hzero d]⟩
  unfold FileCovers
  split
  next => exact fun d _ => by simp [hzero d]
  next => exact hzero

theorem of_covers {s' : EntryStore} (hmemory : w'.memory = some s'.memory)
    (hfile : w'.file = s'.file) (hcovers : Covers w'.held s') (hcapped : ∀ d, w'.held d ≤ cap) :
    CapInvariant cap w' := by
  refine ⟨?_, by rw [hfile]; exact hcovers.fileCovers, hcapped⟩
  intro a ha
  obtain rfl := Option.some.inj (hmemory.symm.trans ha)
  rw [hfile]
  exact hcovers

theorem store (hi : CapInvariant cap w) {s' : EntryStore} (hcovers : Covers w.held s') :
    CapInvariant cap (w.store s') :=
  of_covers rfl rfl hcovers hi.capped

theorem counted (hi : CapInvariant cap w) (hcap : cap < 2 ^ 32) (d : Nat) : w.held d < 2 ^ 32 :=
  Nat.lt_of_le_of_lt (hi.capped d) hcap

theorem setAttempt (hi : CapInvariant cap w) {i : Nat} {t t' : EntryAttempt}
    (hget : w.attempts[i]? = some t) (hday : t'.dayId = t.dayId) (hopen : t.stage ≠ .released)
    (hopen' : t'.stage ≠ .released) : CapInvariant cap (w.setAttempt i t') := by
  have hheld : (w.setAttempt i t').held = w.held :=
    funext (EntryWorld.held_setAttempt hget hday hopen hopen')
  refine ⟨?_, ?_, ?_⟩
  · rw [hheld]
    exact hi.alive
  · rw [hheld]
    exact hi.file
  · rw [hheld]
    exact hi.capped

theorem released (hi : CapInvariant cap w) {i : Nat} {t : EntryAttempt}
    (hget : w.attempts[i]? = some t) (hopen : t.stage ≠ .released) {s' : EntryStore}
    (hcovers : ∀ held', OneFewer t.dayId w.held held' → Covers held' s') :
    CapInvariant cap ((w.store s').setAttempt i ⟨t.dayId, t.marker, .released⟩) := by
  have hfewer := EntryWorld.held_released hget hopen
  exact of_covers rfl rfl (hcovers _ hfewer)
    fun d => Nat.le_trans (hfewer.1 d) (hi.capped d)

theorem call (hi : CapInvariant cap w) (hcap : cap < 2 ^ 32) (hmemory : w.memory = some a)
    {act : EntryAct} (hasked : act.UsesCap cap) (hday : w.DayNotHeld act)
    (h : w.CallStep ⟨a, w.file⟩ act w') : CapInvariant cap w' := by
  have hcovers := hi.alive a hmemory
  have hcounted := fun d (_ : a.dayId = some d) => hi.counted hcap d
  cases h with
  | prepared =>
    exact hi.store (hcovers.prepareDay fun hzero hwrites => hday hzero hwrites a hmemory)
  | @reserved dayId asked writes hok =>
    obtain rfl : asked = some cap := hasked
    have hnext := fun held' => hcovers.tryReserveEntry held' dayId hcap writes
    simp only [hok, if_true] at hnext
    have hheld := EntryWorld.held_reserved w dayId w.nextMarker
    refine of_covers rfl rfl ((hnext _).2 fun d => Nat.le_of_eq (hheld d)) ?_
    intro d
    have hbelow := (hnext w.held).1
    have hcapped := hi.capped d
    have hd := hheld d
    show EntryWorld.held _ d ≤ cap
    by_cases hsame : d = dayId
    · subst hsame
      rw [if_pos rfl] at hd
      exact Nat.le_trans (Nat.le_of_eq hd) hbelow
    · rw [if_neg hsame] at hd
      exact Nat.le_trans (Nat.le_of_eq hd) hcapped
  | @notReserved dayId asked writes hno =>
    obtain rfl : asked = some cap := hasked
    have hnext := fun held' => hcovers.tryReserveEntry held' dayId hcap writes
    simp only [hno, Bool.false_eq_true, if_false] at hnext
    exact hi.store (hnext w.held)
  | @begun i dayId marker request nowUtcMs writes hget
  | @refused i dayId marker request nowUtcMs writes hget =>
    have hstored := hi.store (hcovers.keepsCount (EntryStore.beginSubmission_keepsCount _ dayId
      request marker false nowUtcMs writes))
    exact hstored.setAttempt hget rfl (by simp) (by simp)
  | @sent i dayId marker c hget =>
    have hset : CapInvariant cap (w.setAttempt i ⟨dayId, marker, .sent c⟩) :=
      hi.setAttempt hget rfl (by simp) (by simp)
    exact ⟨hset.alive, hset.file, hset.capped⟩
  | @errorRecorded clientOrderId context writes =>
    cases context with
    | none => exact hi.store hcovers
    | some context =>
      exact hi.store (hcovers.keepsCount
        (EntryStore.recordUnresolvedContext_keepsCount _ clientOrderId context writes))
  | @outcomeRecorded clientOrderId environment outcome writes =>
    exact hi.store (hcovers.keepsCount (EntryStore.recordUnresolvedOutcome_keepsCount _
      clientOrderId environment outcome writes))
  | @confirmed clientOrderId opening writes =>
    have hstored := hi.store (hcovers.keepsCount
      (EntryStore.confirmVerifiedOpening_keepsCount _ clientOrderId opening writes))
    exact ⟨hstored.alive, hstored.file, hstored.capped⟩
  | @notConfirmed clientOrderId opening writes =>
    exact hi.store (hcovers.keepsCount
      (EntryStore.confirmVerifiedOpening_keepsCount _ clientOrderId opening writes))
  | @released i dayId marker writes hget hok =>
    have hnext := fun held' => hcovers.releaseEntry held' dayId hcounted writes
    simp only [hok, if_true] at hnext
    exact hi.released hget (by simp) hnext
  | @notReleased i dayId marker writes _ hno =>
    have hnext := fun held' => hcovers.releaseEntry held' dayId hcounted writes
    simp only [hno, Bool.false_eq_true, if_false] at hnext
    exact hi.store (hnext w.held)
  | @unsentReleased i dayId marker stage clientOrderId writes hopen hget hok =>
    have hnext := fun held' => hcovers.releaseUnsentEntry held' dayId hcounted
      clientOrderId marker (marker ∈ w.started) writes
    simp only [hok, if_true] at hnext
    exact hi.released hget hopen hnext
  | @unsentNotReleased i dayId marker stage clientOrderId writes _ _ hno =>
    have hnext := fun held' => hcovers.releaseUnsentEntry held' dayId hcounted
      clientOrderId marker (marker ∈ w.started) writes
    simp only [hno, Bool.false_eq_true, if_false] at hnext
    exact hi.store (hnext w.held)
  | crashed =>
    have hheld := funext (EntryWorld.held_crash w)
    refine ⟨by simp, ?_, ?_⟩
    · rw [hheld]
      exact hi.file
    · rw [hheld]
      exact hi.capped

theorem next (hi : CapInvariant cap w) (hcap : cap < 2 ^ 32) {identity : AccountRiskIdentity}
    {act : EntryAct} {e : Bool} (hasked : act.UsesCap cap) (hday : w.DayNotHeld act)
    (h : EntryWorld.next identity w act = some (e, w')) : CapInvariant cap w' := by
  obtain ⟨a, hmemory, hcall⟩ | ⟨_, rfl | ⟨writes, s, hs, rfl⟩⟩ := EntryWorld.next_step h
  · exact hi.call hcap hmemory hasked hday hcall
  · exact hi
  · have hstored := hi.store (acquireEntry_covers hs hi.file)
    exact ⟨hstored.alive, hstored.file, hstored.capped⟩

end CapInvariant

/-- With one cap, and as long as no day is prepared anew while reservations are held for it, no
day has more reservations than the cap, and the durable counter covers those of its day. -/
theorem entries_capped (identity : AccountRiskIdentity) (file : Option EntryCheckpointFile)
    (legacy : Option LegacyRiskFile) (cap : Nat) (hcap : cap < 2 ^ 32) (es : List Bool)
    (w : EntryWorld) (hrun : (entryMachine identity file legacy).RunUnder
      (fun w act => act.UsesCap cap ∧ w.DayNotHeld act) es w) :
    (∀ d, w.held d ≤ cap) ∧ ∀ f, w.file = some (.v2 f) → ∀ d, f.dayId = some d →
      w.held d ≤ f.entriesReservedOrFilled := by
  have hi : CapInvariant cap w := hrun.state_invariant (CapInvariant.start cap file legacy)
    fun _ _ _ _ hi hp hn => hi.next hcap hp.1 hp.2 hn
  refine ⟨hi.capped, ?_⟩
  intro f hf
  have hfile := hi.file
  rw [hf] at hfile
  exact hfile

/-- The other way round: a day that is prepared anew while reservations are held for it has a
durable counter that does not cover them. -/
theorem prepareDay_uncovers {w w' : EntryWorld} {identity : AccountRiskIdentity}
    {act : EntryAct} {e : Bool} (hday : ¬w.DayNotHeld act)
    (h : EntryWorld.next identity w act = some (e, w')) :
    ∃ f d, w'.file = some (.v2 f) ∧ f.dayId = some d ∧ f.entriesReservedOrFilled < w'.held d := by
  unfold EntryWorld.DayNotHeld at hday
  split at hday
  next dayId writes =>
    push Not at hday
    obtain ⟨hzero, hwrites, a, hmemory, hother, hheld⟩ := hday
    have hmemory : w.memory = some a := hmemory
    simp only [EntryWorld.next, hmemory, EntryWorld.call, EntryStore.prepareDay, if_neg hzero,
      if_neg hother, EntryStore.commit, hwrites, if_true] at h
    obtain ⟨_, rfl⟩ := Prod.mk.inj (Option.some.inj h)
    exact ⟨_, dayId, rfl, rfl, Nat.pos_of_ne_zero hheld⟩
  next => exact absurd trivial hday

instance (cap : Nat) : DecidablePred (EntryAct.UsesCap cap)
  | .reserve _ asked _ => inferInstanceAs (Decidable (asked = some cap))
  | .prepareDay _ _ => .isTrue trivial
  | .beginSubmission _ _ _ _ => .isTrue trivial
  | .send _ => .isTrue trivial
  | .recordError _ _ _ => .isTrue trivial
  | .recordOutcome _ _ _ _ => .isTrue trivial
  | .confirm _ _ _ => .isTrue trivial
  | .releaseEntry _ _ => .isTrue trivial
  | .releaseUnsent _ _ _ => .isTrue trivial
  | .crash => .isTrue trivial
  | .restart _ => .isTrue trivial

instance (w : EntryWorld) : DecidablePred w.DayNotHeld
  | .prepareDay dayId writes => inferInstanceAs (Decidable (dayId ≠ 0 → writes = true →
      ∀ a ∈ w.memory, a.dayId ≠ some dayId → w.held dayId = 0))
  | .reserve _ _ _ => .isTrue trivial
  | .beginSubmission _ _ _ _ => .isTrue trivial
  | .send _ => .isTrue trivial
  | .recordError _ _ _ => .isTrue trivial
  | .recordOutcome _ _ _ _ => .isTrue trivial
  | .confirm _ _ _ => .isTrue trivial
  | .releaseEntry _ _ => .isTrue trivial
  | .releaseUnsent _ _ _ => .isTrue trivial
  | .crash => .isTrue trivial
  | .restart _ => .isTrue trivial

def sampleCapIdentity : AccountRiskIdentity := ⟨"demo", 42, "EUR"⟩

/-- A cap of one, on two days in turn, with the second entry of the first day refused. -/
def sampleTwoDays : List EntryAct :=
  [.restart true, .prepareDay 20260908 true, .reserve 20260908 (some 1) true,
    .reserve 20260908 (some 1) true, .prepareDay 20260909 true, .reserve 20260909 (some 1) true]

theorem sampleTwoDays_capped : ∃ (es : List Bool) (w : EntryWorld),
    (entryMachine sampleCapIdentity none none).RunUnder
      (fun w act => act.UsesCap 1 ∧ w.DayNotHeld act) es w ∧
      es = [true, true, true, false, true, true] ∧ ∀ d, w.held d ≤ 1 := by
  have hexec : (((entryMachine sampleCapIdentity none none).restrict
      (fun w act => act.UsesCap 1 ∧ w.DayNotHeld act)).exec []
      (entryMachine sampleCapIdentity none none).start sampleTwoDays).any (fun r =>
        r.1 = [true, true, true, false, true, true]) := by
    decide +kernel
  obtain ⟨es, w, hrun, hes⟩ := Machine.run_of_exec_start
    (M := (entryMachine sampleCapIdentity none none).restrict
      (fun w act => act.UsesCap 1 ∧ w.DayNotHeld act)) sampleTwoDays
    (fun es _ => es = [true, true, true, false, true, true]) hexec
  have hunder := Machine.runUnder_of_restrict hrun
  exact ⟨es, w, hunder, of_decide_eq_true hes,
    (entries_capped sampleCapIdentity none none 1 (by decide) es w hunder).1⟩

/-- One worker counts by UTC days and the other by the firm's; between the two midnights each
call for its own day resets the count of the other. -/
def sampleTwoDayRules : List EntryAct :=
  [.restart true, .prepareDay 20260908 true, .reserve 20260908 (some 1) true,
    .prepareDay 20260909 true, .prepareDay 20260908 true, .reserve 20260908 (some 1) true]

theorem cap_exceeded : ¬∀ (identity : AccountRiskIdentity) (file : Option EntryCheckpointFile)
    (legacy : Option LegacyRiskFile) (cap : Nat) (es : List Bool) (w : EntryWorld),
    cap < 2 ^ 32 →
    (entryMachine identity file legacy).RunUnder (fun _ act => act.UsesCap cap) es w →
    ∀ d, w.held d ≤ cap := by
  intro hall
  have hexec : (((entryMachine sampleCapIdentity none none).restrict
      (fun _ act => act.UsesCap 1)).exec []
      (entryMachine sampleCapIdentity none none).start sampleTwoDayRules).any (fun r =>
        r.2.held 20260908 = 2) := by
    decide +kernel
  obtain ⟨es, w, hrun, hw⟩ := Machine.run_of_exec_start
    (M := (entryMachine sampleCapIdentity none none).restrict (fun _ act => act.UsesCap 1))
    sampleTwoDayRules (fun _ w => w.held 20260908 = 2) hexec
  have hcapped := hall sampleCapIdentity none none 1 es w (by decide)
    (Machine.runUnder_of_restrict hrun) 20260908
  rw [of_decide_eq_true hw] at hcapped
  omega

end Neoethos
