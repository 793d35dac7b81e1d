import Mathlib.Algebra.Order.BigOperators.Group.List
import Neoethos.DealEconomics
import Neoethos.FirstOfKey
import Neoethos.Machine

namespace Neoethos

namespace DealEconomics

open FirstOfKey

inductive MoneyAction (F : Type)
  | observes (fill : BrokerDealMoneyEvidence F)
  | refuses
  | finalizes (positionStillOpen : Bool)

inductive MoneyEvent (F : Type)
  | observed (fill : BrokerDealMoneyEvidence F) (result : Except MoneyError BrokerDealObservation)
  | refused
  | finalized (result : Except MoneyError (Option (BrokerClosedPositionMoney F)))

def MoneyEvent.acceptedFill {F : Type} : MoneyEvent F → Option (BrokerDealMoneyEvidence F)
  | .observed fill (.ok .added) => some fill
  | _ => none

def MoneyEvent.isFinalization {F : Type} : MoneyEvent F → Bool
  | .finalized (.ok (some _)) => true
  | _ => false

def MoneyEvent.isRefusal {F : Type} : MoneyEvent F → Bool
  | .refused => true
  | _ => false

/-- The call returned an error or `Duplicate`. -/
def MoneyEvent.isTurnedDown {F : Type} : MoneyEvent F → Bool
  | .observed _ (.ok .duplicate) => true
  | .observed _ (.error _) => true
  | .finalized (.error _) => true
  | _ => false

def accepted {F : Type} (events : List (MoneyEvent F)) : List (BrokerDealMoneyEvidence F) :=
  events.filterMap MoneyEvent.acceptedFill

section Machine

variable {F : Type} [FloatOps F] [FloatOps.Elementary F]

def moneyNext (self : BrokerPositionMoneyAccumulator F) :
    MoneyAction F → Option (MoneyEvent F × BrokerPositionMoneyAccumulator F)
  | .observes fill =>
    let (result, next) := self.observeFill fill
    some (.observed fill result, next)
  | .refuses => some (.refused, self.refuseUnverifiedFill)
  | .finalizes positionStillOpen =>
    let (result, next) := self.finalizeIfPositionClosed positionStillOpen
    some (.finalized result, next)

def moneyMachine (seed : BrokerDealMoneyEvidence F) :
    Machine (BrokerPositionMoneyAccumulator F) (MoneyAction F) (MoneyEvent F) where
  start := .new seed
  next := moneyNext

end Machine

namespace BrokerPositionMoneyAccumulator

section Steps

variable {F : Type} [FloatOps F] {self next : BrokerPositionMoneyAccumulator F}
  {fill : BrokerDealMoneyEvidence F} {result : Except MoneyError BrokerDealObservation}

def withFill (self : BrokerPositionMoneyAccumulator F) (fill : BrokerDealMoneyEvidence F) :
    BrokerPositionMoneyAccumulator F :=
  { self with
    seenDealIds := self.seenDealIds.insert fill.dealId fill.dealIdentitySha256
    filledVolumeRawCentiUnits := self.filledVolumeRawCentiUnits + fill.filledVolumeRawCentiUnits
    actualFilledLots := self.actualFilledLots + fill.actualFilledLots
    componentSumRawScaled := self.componentSumRawScaled + fill.componentSumRawScaled }

/-- What an observation can do: accept a fill of a new deal, or leave everything as it is. -/
theorem observeFill_cases (h : self.observeFill fill = (result, next)) :
    (result = .ok .added ∧ self.finalized = false ∧ self.seenDealIds.lookup fill.dealId = none ∧
      next = self.withFill fill) ∨
    (result ≠ .ok .added ∧ next = self) := by
  unfold observeFill at h
  split at h
  next =>
    obtain ⟨rfl, rfl⟩ := Prod.mk.inj h
    exact .inr ⟨nofun, rfl⟩
  next hopen =>
    split at h
    next =>
      obtain ⟨rfl, rfl⟩ := Prod.mk.inj h
      exact .inr ⟨nofun, rfl⟩
    next =>
      split at h
      next identity hseen =>
        split at h
        next =>
          obtain ⟨rfl, rfl⟩ := Prod.mk.inj h
          exact .inr ⟨nofun, rfl⟩
        next =>
          obtain ⟨rfl, rfl⟩ := Prod.mk.inj h
          exact .inr ⟨nofun, rfl⟩
      next hnew =>
        split at h
        next =>
          obtain ⟨rfl, rfl⟩ := Prod.mk.inj h
          exact .inr ⟨nofun, rfl⟩
        next nextVolume hvolume =>
          dsimp only at h
          split at h
          next =>
            obtain ⟨rfl, rfl⟩ := Prod.mk.inj h
            exact .inr ⟨nofun, rfl⟩
          next nextSum hsum =>
            split at h
            next =>
              obtain ⟨rfl, rfl⟩ := Prod.mk.inj h
              exact .inr ⟨nofun, rfl⟩
            next =>
              obtain ⟨rfl, rfl⟩ := Prod.mk.inj h
              obtain ⟨-, rfl⟩ := I64.checkedAdd_eq_some.mp hvolume
              obtain ⟨-, rfl⟩ := I64.checkedAdd_eq_some.mp hsum
              exact .inl ⟨rfl, Bool.eq_false_iff.mpr hopen, hnew, rfl⟩

/-- A matching fill of a new deal is accepted when the sums fit. -/
theorem observeFill_added (hopen : self.finalized = false) (hmatches : self.Matches fill)
    (hnew : self.seenDealIds.lookup fill.dealId = none)
    (hvolume : I64.InRange (self.filledVolumeRawCentiUnits + fill.filledVolumeRawCentiUnits))
    (hsum : I64.InRange (self.componentSumRawScaled + fill.componentSumRawScaled))
    (hlots : FloatOps.isFinite (self.actualFilledLots + fill.actualFilledLots) = true) :
    self.observeFill fill = (.ok .added, self.withFill fill) := by
  have hadd := I64.checkedAdd_eq_some.mpr ⟨hvolume, rfl⟩
  have hmoney := I64.checkedAdd_eq_some.mpr ⟨hsum, rfl⟩
  have hrunning : ¬self.finalized = true := by
    rw [hopen]
    exact Bool.false_ne_true
  unfold observeFill
  rw [if_neg hrunning, if_neg (not_not.mpr hmatches), hnew]
  dsimp only
  rw [hadd]
  dsimp only
  rw [hmoney]
  dsimp only
  rw [hlots]
  rfl

theorem observeFill_duplicate (hopen : self.finalized = false) (hmatches : self.Matches fill)
    (hseen : self.seenDealIds.lookup fill.dealId = some fill.dealIdentitySha256) :
    self.observeFill fill = (.ok .duplicate, self) := by
  have hrunning : ¬self.finalized = true := by
    rw [hopen]
    exact Bool.false_ne_true
  unfold observeFill
  rw [if_neg hrunning, if_neg (not_not.mpr hmatches), hseen]
  exact if_pos rfl

/-- What a finalization can do: close an unrefused position with a fill, or leave it as it is. -/
theorem finalizeIfPositionClosed_cases [FloatOps.Elementary F] {positionStillOpen : Bool}
    {closed : Except MoneyError (Option (BrokerClosedPositionMoney F))}
    (h : self.finalizeIfPositionClosed positionStillOpen = (closed, next)) :
    ((∃ money, closed = .ok (some money)) ∧ self.finalized = false ∧
      self.hasUnverifiedFill = false ∧ self.seenDealIds.entries ≠ [] ∧
      next = { self with finalized := true }) ∨
    ((closed = .ok none ∨ ∃ error, closed = .error error) ∧ next = self) := by
  unfold finalizeIfPositionClosed at h
  split at h
  next =>
    obtain ⟨rfl, rfl⟩ := Prod.mk.inj h
    exact .inr ⟨.inl rfl, rfl⟩
  next =>
    split at h
    next =>
      obtain ⟨rfl, rfl⟩ := Prod.mk.inj h
      exact .inr ⟨.inr ⟨_, rfl⟩, rfl⟩
    next hopen =>
      split at h
      next =>
        obtain ⟨rfl, rfl⟩ := Prod.mk.inj h
        exact .inr ⟨.inr ⟨_, rfl⟩, rfl⟩
      next hverified =>
        simp only [Bool.or_eq_true, List.isEmpty_iff, not_or, Bool.not_eq_true] at hverified
        split at h
        next =>
          obtain ⟨rfl, rfl⟩ := Prod.mk.inj h
          exact .inr ⟨.inr ⟨_, rfl⟩, rfl⟩
        next =>
          obtain ⟨rfl, rfl⟩ := Prod.mk.inj h
          exact .inl ⟨⟨_, rfl⟩, Bool.eq_false_iff.mpr hopen, hverified.1, hverified.2, rfl⟩

end Steps

end BrokerPositionMoneyAccumulator

section Runs

variable {F : Type} [FloatOps F] [FloatOps.Elementary F]
  {acc next : BrokerPositionMoneyAccumulator F} {event : MoneyEvent F}
  {events before after : List (MoneyEvent F)}

omit [FloatOps F] [FloatOps.Elementary F] in
theorem accepted_concat (events : List (MoneyEvent F)) (event : MoneyEvent F) :
    accepted (events ++ [event]) = accepted events ++ event.acceptedFill.toList := by
  unfold accepted
  rw [List.filterMap_append]
  cases hfill : event.acceptedFill with
  | none => rw [List.filterMap_cons_none hfill]; rfl
  | some fill => rw [List.filterMap_cons_some hfill]; rfl

/-- What an accumulator holds after a history of calls. -/
structure HoldsAccepted (events : List (MoneyEvent F))
    (acc : BrokerPositionMoneyAccumulator F) : Prop where
  volume : acc.filledVolumeRawCentiUnits =
    ((accepted events).map (·.filledVolumeRawCentiUnits)).sum
  component : acc.componentSumRawScaled =
    ((accepted events).map (·.componentSumRawScaled)).sum
  seen : ∀ id, id ∈ acc.seenDealIds ↔ id ∈ (accepted events).map (·.dealId)
  nodup : ((accepted events).map (·.dealId)).Nodup
  refused : acc.hasUnverifiedFill = events.any MoneyEvent.isRefusal
  finalizations : events.countP MoneyEvent.isFinalization = acc.finalized.toNat
  closed : ∀ before event after, events = before ++ event :: after →
    event.isFinalization = true →
    accepted before ≠ [] ∧ before.any MoneyEvent.isRefusal = false ∧ accepted after = []

omit [FloatOps F] [FloatOps.Elementary F] in
/-- A finalization in a longer history is the last call, or it is in the shorter one. -/
theorem closed_concat
    (hclosed : ∀ before event after, events = before ++ event :: after →
      event.isFinalization = true →
      accepted before ≠ [] ∧ before.any MoneyEvent.isRefusal = false ∧ accepted after = [])
    (hlast : event.isFinalization = true →
      accepted events ≠ [] ∧ events.any MoneyEvent.isRefusal = false)
    (hfill : ∀ earlier ∈ events, earlier.isFinalization = true → event.acceptedFill = none) :
    ∀ before earlier after, events ++ [event] = before ++ earlier :: after →
      earlier.isFinalization = true →
      accepted before ≠ [] ∧ before.any MoneyEvent.isRefusal = false ∧ accepted after = [] := by
  intro before earlier after hsplit hearlier
  rcases List.eq_nil_or_concat after with rfl | ⟨rest, last, rfl⟩
  · obtain ⟨rfl, hone⟩ := List.append_inj' hsplit rfl
    obtain rfl := (List.cons.inj hone).1
    obtain ⟨hsome, hunrefused⟩ := hlast hearlier
    exact ⟨hsome, hunrefused, rfl⟩
  · rw [List.concat_eq_append, ← List.cons_append, ← List.append_assoc] at hsplit
    obtain ⟨rfl, hone⟩ := List.append_inj' hsplit rfl
    obtain rfl := (List.cons.inj hone).1
    obtain ⟨hsome, hunrefused, hnone⟩ := hclosed before earlier rest rfl hearlier
    refine ⟨hsome, hunrefused, ?_⟩
    rw [List.concat_eq_append, accepted_concat, hnone, hfill earlier (by simp) hearlier]
    rfl

omit [FloatOps F] [FloatOps.Elementary F] in
theorem HoldsAccepted.not_finalized (h : HoldsAccepted events acc)
    (hopen : acc.finalized = false) : ∀ earlier ∈ events, ¬earlier.isFinalization = true := by
  have hcount := h.finalizations
  rw [hopen] at hcount
  exact List.countP_eq_zero.mp hcount

omit [FloatOps F] [FloatOps.Elementary F] in
/-- A call that accepts no fill and leaves the sums as they are. -/
theorem HoldsAccepted.unchanged (h : HoldsAccepted events acc)
    (hfill : event.acceptedFill = none) (hvolume : next.filledVolumeRawCentiUnits =
      acc.filledVolumeRawCentiUnits)
    (hcomponent : next.componentSumRawScaled = acc.componentSumRawScaled)
    (hseen : next.seenDealIds = acc.seenDealIds)
    (hrefused : next.hasUnverifiedFill = (acc.hasUnverifiedFill || event.isRefusal))
    (hfinalized : next.finalized.toNat = acc.finalized.toNat + event.isFinalization.toNat)
    (hlast : event.isFinalization = true →
      accepted events ≠ [] ∧ events.any MoneyEvent.isRefusal = false) :
    HoldsAccepted (events ++ [event]) next := by
  have haccepted : accepted (events ++ [event]) = accepted events := by
    rw [accepted_concat, hfill]
    exact List.append_nil _
  refine ⟨?_, ?_, ?_, ?_, ?_, ?_, closed_concat h.closed hlast fun _ _ _ => hfill⟩
  · rw [hvolume, haccepted, h.volume]
  · rw [hcomponent, haccepted, h.component]
  · intro id
    rw [hseen, haccepted, h.seen]
  · rw [haccepted]
    exact h.nodup
  · rw [hrefused, h.refused, List.any_append]
    simp
  · rw [hfinalized, List.countP_append, h.finalizations, List.countP_singleton]
    cases event.isFinalization <;> rfl

omit [FloatOps.Elementary F] in
theorem HoldsAccepted.added (h : HoldsAccepted events acc) {fill : BrokerDealMoneyEvidence F}
    (hopen : acc.finalized = false) (hnew : acc.seenDealIds.lookup fill.dealId = none) :
    HoldsAccepted (events ++ [.observed fill (.ok .added)]) (acc.withFill fill) := by
  have haccepted : accepted (events ++ [.observed fill (.ok .added)]) = accepted events ++ [fill] :=
    accepted_concat _ _
  have hmissing : fill.dealId ∉ (accepted events).map (·.dealId) := by
    rw [← h.seen]
    exact AList.lookup_eq_none.mp hnew
  refine ⟨?_, ?_, ?_, ?_, ?_, ?_, closed_concat h.closed nofun ?_⟩
  · rw [haccepted, List.map_append, List.sum_append, ← h.volume]
    simp [BrokerPositionMoneyAccumulator.withFill]
  · rw [haccepted, List.map_append, List.sum_append, ← h.component]
    simp [BrokerPositionMoneyAccumulator.withFill]
  · intro id
    rw [haccepted, List.map_append, List.mem_append, ← h.seen]
    simp [BrokerPositionMoneyAccumulator.withFill, or_comm]
  · rw [haccepted, List.map_append, List.map_singleton, List.nodup_append]
    refine ⟨h.nodup, List.nodup_singleton _, ?_⟩
    intro id hid other hother hsame
    rw [List.mem_singleton.mp hother] at hsame
    exact hmissing (hsame ▸ hid)
  · rw [List.any_append]
    simpa [BrokerPositionMoneyAccumulator.withFill, MoneyEvent.isRefusal] using h.refused
  · rw [List.countP_append, h.finalizations]
    simp [BrokerPositionMoneyAccumulator.withFill, MoneyEvent.isFinalization]
  · intro earlier hearlier hfinalization
    exact absurd hfinalization (h.not_finalized hopen earlier hearlier)

theorem HoldsAccepted.step {action : MoneyAction F} (h : HoldsAccepted events acc)
    (hnext : moneyNext acc action = some (event, next)) :
    HoldsAccepted (events ++ [event]) next := by
  cases action with
  | observes fill =>
    unfold moneyNext at hnext
    rcases hcall : acc.observeFill fill with ⟨result, after⟩
    dsimp only at hnext
    rw [hcall] at hnext
    obtain ⟨rfl, rfl⟩ := Prod.mk.inj (Option.some.inj hnext)
    rcases BrokerPositionMoneyAccumulator.observeFill_cases hcall with
      ⟨rfl, hopen, hnew, rfl⟩ | ⟨hresult, rfl⟩
    · exact h.added hopen hnew
    · have hfill : (MoneyEvent.observed fill result).acceptedFill = none := by
        unfold MoneyEvent.acceptedFill
        split
        next heq =>
          obtain ⟨-, rfl⟩ := MoneyEvent.observed.inj heq
          exact absurd rfl hresult
        next => rfl
      exact h.unchanged hfill rfl rfl rfl (Bool.or_false _).symm rfl nofun
  | refuses =>
    obtain ⟨rfl, rfl⟩ := Prod.mk.inj (Option.some.inj hnext)
    exact h.unchanged rfl rfl rfl rfl (Bool.or_true _).symm rfl nofun
  | finalizes positionStillOpen =>
    unfold moneyNext at hnext
    rcases hcall : acc.finalizeIfPositionClosed positionStillOpen with ⟨result, after⟩
    dsimp only at hnext
    rw [hcall] at hnext
    obtain ⟨rfl, rfl⟩ := Prod.mk.inj (Option.some.inj hnext)
    rcases BrokerPositionMoneyAccumulator.finalizeIfPositionClosed_cases hcall with
      ⟨⟨money, rfl⟩, hopen, hverified, hsome, rfl⟩ | ⟨hresult, rfl⟩
    · refine h.unchanged rfl rfl rfl rfl (Bool.or_false _).symm ?_ ?_
      · rw [hopen]
        rfl
      · intro _
        refine ⟨?_, h.refused.symm.trans hverified⟩
        intro hnone
        apply hsome
        have hkeys : acc.seenDealIds.keys = [] := by
          rw [List.eq_nil_iff_forall_not_mem]
          intro id hid
          have hmem := (h.seen id).mp (AList.mem_keys.mpr hid)
          rw [hnone] at hmem
          cases hmem
        exact List.map_eq_nil_iff.mp hkeys
    · have hnot : (MoneyEvent.finalized result : MoneyEvent F).isFinalization = false := by
        rcases hresult with rfl | ⟨error, rfl⟩
        · rfl
        · rfl
      refine h.unchanged rfl rfl rfl rfl (Bool.or_false _).symm ?_ ?_
      · rw [hnot]
        rfl
      · intro hfinalization
        rw [hnot] at hfinalization
        cases hfinalization

theorem holdsAccepted_run {seed : BrokerDealMoneyEvidence F}
    (h : (moneyMachine seed).Run events acc) : HoldsAccepted events acc := by
  apply Machine.Run.invariant ?_ ?_ h
  · refine ⟨rfl, rfl, ?_, List.nodup_nil, rfl, rfl, ?_⟩
    · intro id
      constructor
      · intro hid
        exact absurd hid (AList.notMem_empty id)
      · intro hid
        cases hid
    · intro before event after hsplit
      simp at hsplit
  · intro es t action e t' _ ih hnext
    exact ih.step hnext

/-- A call that returns an error or `Duplicate` leaves the accumulator as it was. -/
theorem turnedDown_unchanged {action : MoneyAction F}
    (hnext : moneyNext acc action = some (event, next)) (hdown : event.isTurnedDown = true) :
    next = acc := by
  cases action with
  | observes fill =>
    unfold moneyNext at hnext
    rcases hcall : acc.observeFill fill with ⟨result, after⟩
    dsimp only at hnext
    rw [hcall] at hnext
    obtain ⟨rfl, rfl⟩ := Prod.mk.inj (Option.some.inj hnext)
    rcases BrokerPositionMoneyAccumulator.observeFill_cases hcall with ⟨rfl, -⟩ | ⟨-, hsame⟩
    · cases hdown
    · exact hsame
  | refuses =>
    obtain ⟨rfl, -⟩ := Prod.mk.inj (Option.some.inj hnext)
    cases hdown
  | finalizes positionStillOpen =>
    unfold moneyNext at hnext
    rcases hcall : acc.finalizeIfPositionClosed positionStillOpen with ⟨result, after⟩
    dsimp only at hnext
    rw [hcall] at hnext
    obtain ⟨rfl, rfl⟩ := Prod.mk.inj (Option.some.inj hnext)
    rcases BrokerPositionMoneyAccumulator.finalizeIfPositionClosed_cases hcall with
      ⟨⟨money, rfl⟩, -⟩ | ⟨-, hsame⟩
    · cases hdown
    · exact hsame

end Runs

section Orders

variable {F : Type} {fill : BrokerDealMoneyEvidence F}
  {part rest fills : List (BrokerDealMoneyEvidence F)}

def volumeSum (fills : List (BrokerDealMoneyEvidence F)) : Int :=
  (fills.map (·.filledVolumeRawCentiUnits)).sum

def moneySum (fills : List (BrokerDealMoneyEvidence F)) : Int :=
  (fills.map (·.componentSumRawScaled)).sum

def absoluteSum (fills : List (BrokerDealMoneyEvidence F)) : Int :=
  (fills.map fun fill => |fill.componentSumRawScaled|).sum

theorem volumeSum_nonneg (fills : List (BrokerDealMoneyEvidence F)) : 0 ≤ volumeSum fills := by
  apply List.sum_nonneg
  intro volume hvolume
  obtain ⟨fill, -, rfl⟩ := List.mem_map.mp hvolume
  exact fill.volume_pos.le

theorem absoluteSum_nonneg (fills : List (BrokerDealMoneyEvidence F)) : 0 ≤ absoluteSum fills := by
  apply List.sum_nonneg
  intro money hmoney
  obtain ⟨fill, -, rfl⟩ := List.mem_map.mp hmoney
  exact abs_nonneg _

theorem abs_moneySum_le (fills : List (BrokerDealMoneyEvidence F)) :
    |moneySum fills| ≤ absoluteSum fills := by
  induction fills with
  | nil => exact le_refl _
  | cons fill rest ih =>
    unfold moneySum absoluteSum at ih ⊢
    rw [List.map_cons, List.sum_cons, List.map_cons, List.sum_cons]
    exact (abs_add_le _ _).trans (add_le_add_right ih _)

/-- A part of fills whose totals fit has sums that fit. -/
theorem sums_inRange (hpart : part <+: fills) (hvolume : volumeSum fills ≤ I64.maxValue)
    (hmoney : absoluteSum fills ≤ I64.maxValue) :
    I64.InRange (volumeSum part) ∧ I64.InRange (moneySum part) := by
  obtain ⟨rest, rfl⟩ := hpart
  have hvolumes : volumeSum (part ++ rest) = volumeSum part + volumeSum rest := by
    unfold volumeSum
    rw [List.map_append, List.sum_append]
  have habsolutes : absoluteSum (part ++ rest) = absoluteSum part + absoluteSum rest := by
    unfold absoluteSum
    rw [List.map_append, List.sum_append]
  have hpositive := volumeSum_nonneg part
  have hrest := volumeSum_nonneg rest
  have hothers := absoluteSum_nonneg rest
  obtain ⟨hlow, hhigh⟩ := abs_le.mp (abs_moneySum_le part)
  unfold I64.InRange I64.minValue I64.maxValue at *
  omega

variable [FloatOps F]

/-- The lots of fills in the order in which they are added. -/
def lotsSum (fills : List (BrokerDealMoneyEvidence F)) : F :=
  fills.foldl (fun sum fill => sum + fill.actualFilledLots) (FloatOps.lit 0)

def LotsStayFinite (order : List (BrokerDealMoneyEvidence F)) : Prop :=
  ∀ before, before <+: order → FloatOps.isFinite (lotsSum (firsts (·.dealId) before)) = true

def AcceptsOnce (fills : List (BrokerDealMoneyEvidence F)) (events : List (MoneyEvent F)) : Prop :=
  (accepted events).Nodup ∧ (∀ fill, fill ∈ accepted events ↔ fill ∈ fills) ∧
    ∀ fill result, .observed fill result ∈ events →
      result = .ok .added ∨ result = .ok .duplicate

structure HoldsObserved (seed : BrokerDealMoneyEvidence F)
    (observed : List (BrokerDealMoneyEvidence F)) (events : List (MoneyEvent F))
    (acc : BrokerPositionMoneyAccumulator F) : Prop where
  accepted : accepted events = firsts (·.dealId) observed
  answers : ∀ fill result, .observed fill result ∈ events →
    result = .ok .added ∨ result = .ok .duplicate
  running : acc.finalized = false
  matching : ∀ fill, (BrokerPositionMoneyAccumulator.new seed).Matches fill → acc.Matches fill
  volume : acc.filledVolumeRawCentiUnits = volumeSum (firsts (·.dealId) observed)
  money : acc.componentSumRawScaled = moneySum (firsts (·.dealId) observed)
  lots : acc.actualFilledLots = lotsSum (firsts (·.dealId) observed)
  seen : ∀ fill ∈ observed,
    acc.seenDealIds.lookup fill.dealId = some fill.dealIdentitySha256
  unseen : ∀ id, id ∉ observed.map (·.dealId) → acc.seenDealIds.lookup id = none

variable {seed : BrokerDealMoneyEvidence F} {acc : BrokerPositionMoneyAccumulator F}
  {observed : List (BrokerDealMoneyEvidence F)} {events : List (MoneyEvent F)}

theorem holdsObserved_new (seed : BrokerDealMoneyEvidence F) :
    HoldsObserved seed [] [] (.new seed) := by
  refine ⟨rfl, ?_, rfl, fun _ h => h, rfl, rfl, rfl, ?_, fun _ _ => rfl⟩
  · intro fill result hfill
    exact absurd hfill List.not_mem_nil
  · intro fill hfill
    exact absurd hfill List.not_mem_nil

theorem HoldsObserved.again (h : HoldsObserved seed observed events acc)
    (hmatches : (BrokerPositionMoneyAccumulator.new seed).Matches fill) (hfill : fill ∈ observed) :
    acc.observeFill fill = (.ok .duplicate, acc) ∧
      HoldsObserved seed (observed ++ [fill])
        (events ++ [.observed fill (.ok .duplicate)]) acc := by
  have hfirsts : firsts (·.dealId) (observed ++ [fill]) = firsts (·.dealId) observed :=
    firsts_concat_of_mem (List.mem_map_of_mem hfill)
  refine ⟨BrokerPositionMoneyAccumulator.observeFill_duplicate h.running
    (h.matching fill hmatches) (h.seen fill hfill), ?_, ?_, h.running, h.matching, ?_, ?_, ?_,
    ?_, ?_⟩
  · rw [hfirsts, ← h.accepted, accepted_concat]
    exact List.append_nil _
  · intro other result hother
    rcases List.mem_append.mp hother with hother | hother
    · exact h.answers other result hother
    · obtain ⟨-, rfl⟩ := MoneyEvent.observed.inj (List.mem_singleton.mp hother)
      exact .inr rfl
  · rw [hfirsts, h.volume]
  · rw [hfirsts, h.money]
  · rw [hfirsts, h.lots]
  · intro other hother
    rcases List.mem_append.mp hother with hother | hother
    · exact h.seen other hother
    · rw [List.mem_singleton.mp hother]
      exact h.seen fill hfill
  · intro id hid
    apply h.unseen
    rw [List.map_append, List.mem_append, not_or] at hid
    exact hid.1

theorem HoldsObserved.first (h : HoldsObserved seed observed events acc)
    (hmatches : (BrokerPositionMoneyAccumulator.new seed).Matches fill)
    (hnew : fill.dealId ∉ observed.map (·.dealId))
    (hrange : I64.InRange (volumeSum (firsts (·.dealId) observed ++ [fill])) ∧
      I64.InRange (moneySum (firsts (·.dealId) observed ++ [fill])))
    (hlots : FloatOps.isFinite (lotsSum (firsts (·.dealId) observed ++ [fill])) = true) :
    acc.observeFill fill = (.ok .added, acc.withFill fill) ∧
      HoldsObserved seed (observed ++ [fill]) (events ++ [.observed fill (.ok .added)])
        (acc.withFill fill) := by
  have hfirsts : firsts (·.dealId) (observed ++ [fill]) =
      firsts (·.dealId) observed ++ [fill] := firsts_concat_of_not_mem hnew
  have hvolume : acc.filledVolumeRawCentiUnits + fill.filledVolumeRawCentiUnits =
      volumeSum (firsts (·.dealId) observed ++ [fill]) := by
    rw [h.volume]
    unfold volumeSum
    rw [List.map_append, List.sum_append, List.map_singleton, List.sum_singleton]
  have hmoney : acc.componentSumRawScaled + fill.componentSumRawScaled =
      moneySum (firsts (·.dealId) observed ++ [fill]) := by
    rw [h.money]
    unfold moneySum
    rw [List.map_append, List.sum_append, List.map_singleton, List.sum_singleton]
  have hlotsSum : acc.actualFilledLots + fill.actualFilledLots =
      lotsSum (firsts (·.dealId) observed ++ [fill]) := by
    rw [h.lots]
    unfold lotsSum
    rw [List.foldl_concat]
  refine ⟨BrokerPositionMoneyAccumulator.observeFill_added h.running (h.matching fill hmatches)
    (h.unseen _ hnew) (by rw [hvolume]; exact hrange.1) (by rw [hmoney]; exact hrange.2)
    (by rw [hlotsSum]; exact hlots), ?_, ?_, h.running, h.matching, ?_, ?_, ?_, ?_, ?_⟩
  · rw [hfirsts, ← h.accepted, accepted_concat]
    rfl
  · intro other result hother
    rcases List.mem_append.mp hother with hother | hother
    · exact h.answers other result hother
    · obtain ⟨-, rfl⟩ := MoneyEvent.observed.inj (List.mem_singleton.mp hother)
      exact .inl rfl
  · rw [hfirsts]
    exact hvolume
  · rw [hfirsts]
    exact hmoney
  · rw [hfirsts]
    exact hlotsSum
  · intro other hother
    unfold BrokerPositionMoneyAccumulator.withFill
    rcases List.mem_append.mp hother with hother | hother
    · have hne : other.dealId ≠ fill.dealId := by
        intro heq
        exact hnew (heq ▸ List.mem_map_of_mem hother)
      rw [AList.lookup_insert_ne hne]
      exact h.seen other hother
    · rw [List.mem_singleton.mp hother]
      exact AList.lookup_insert _
  · intro id hid
    rw [List.map_append, List.mem_append, not_or, List.map_singleton, List.mem_singleton] at hid
    unfold BrokerPositionMoneyAccumulator.withFill
    rw [AList.lookup_insert_ne hid.2]
    exact h.unseen id hid.1

/-- One order of fills, of which the first ones have sums that fit. -/
theorem HoldsObserved.exec [FloatOps.Elementary F]
    (h : HoldsObserved seed observed events acc)
    (hmatches : ∀ fill ∈ observed ++ rest, (BrokerPositionMoneyAccumulator.new seed).Matches fill)
    (hone : ∀ x ∈ observed ++ rest, ∀ y ∈ observed ++ rest, x.dealId = y.dealId → x = y)
    (hvolume : volumeSum (firsts (·.dealId) (observed ++ rest)) ≤ I64.maxValue)
    (hmoney : absoluteSum (firsts (·.dealId) (observed ++ rest)) ≤ I64.maxValue)
    (hlots : LotsStayFinite (observed ++ rest)) :
    ∃ events' acc', (moneyMachine seed).exec events acc (rest.map .observes) =
      some (events', acc') ∧ HoldsObserved seed (observed ++ rest) events' acc' := by
  induction rest generalizing observed events acc with
  | nil =>
    rw [List.append_nil]
    exact ⟨events, acc, rfl, h⟩
  | cons fill rest ih =>
    have hmem : fill ∈ observed ++ fill :: rest := by simp
    have hstep : ∃ result acc', acc.observeFill fill = (result, acc') ∧
        HoldsObserved seed (observed ++ [fill]) (events ++ [.observed fill result]) acc' := by
      by_cases hseen : fill.dealId ∈ observed.map (·.dealId)
      · obtain ⟨other, hother, hid⟩ := List.mem_map.mp hseen
        have hsame : other = fill := hone other (List.mem_append_left _ hother) fill hmem hid
        rw [hsame] at hother
        exact ⟨_, _, h.again (hmatches fill hmem) hother⟩
      · have hfirsts : firsts (·.dealId) (observed ++ [fill]) =
            firsts (·.dealId) observed ++ [fill] := firsts_concat_of_not_mem hseen
        have hprefix : firsts (·.dealId) observed ++ [fill] <+:
            firsts (·.dealId) (observed ++ fill :: rest) := by
          rw [← hfirsts, List.append_cons observed fill rest]
          apply firsts_prefix
        have hfinite := hlots (observed ++ [fill]) ⟨rest, by simp⟩
        rw [hfirsts] at hfinite
        exact ⟨_, _, h.first (hmatches fill hmem) hseen (sums_inRange hprefix hvolume hmoney)
          hfinite⟩
    obtain ⟨result, acc', hcall, hafter⟩ := hstep
    rw [List.append_cons] at hmatches hone hvolume hmoney hlots ⊢
    obtain ⟨events', last, hexec, hlast⟩ := ih hafter hmatches hone hvolume hmoney hlots
    refine ⟨events', last, ?_, hlast⟩
    have hnext : (moneyMachine seed).next acc (.observes fill) =
        some (.observed fill result, acc') := by
      simp only [moneyMachine, moneyNext, hcall]
    show ((moneyMachine seed).next acc (.observes fill)).bind _ = _
    rw [hnext]
    exact hexec

theorem HoldsObserved.acceptsOnce (h : HoldsObserved seed observed events acc)
    (hone : ∀ x ∈ observed, ∀ y ∈ observed, x.dealId = y.dealId → x = y) :
    AcceptsOnce observed events := by
  unfold AcceptsOnce
  rw [h.accepted]
  exact ⟨nodup_map_key_firsts.of_map, fun _ => mem_firsts_iff hone, h.answers⟩

end Orders

/-- The money of a position is that of the fills it has accepted, whatever the calls and their
order. -/
theorem position_money_exact {F : Type} [FloatOps F] [FloatOps.Elementary F]
    (seed : BrokerDealMoneyEvidence F) :
    (∀ events acc, (moneyMachine seed).Run events acc →
      acc.filledVolumeRawCentiUnits = volumeSum (accepted events) ∧
      acc.componentSumRawScaled = moneySum (accepted events) ∧
      ((accepted events).map (·.dealId)).Nodup ∧
      events.countP MoneyEvent.isFinalization ≤ 1 ∧
      (∀ before event after, events = before ++ event :: after → event.isFinalization = true →
        accepted before ≠ [] ∧ before.any MoneyEvent.isRefusal = false ∧ accepted after = []) ∧
      ∀ action event next, moneyNext acc action = some (event, next) →
        event.isTurnedDown = true → next = acc) ∧
    ∀ fills order : List (BrokerDealMoneyEvidence F),
      (∀ fill ∈ fills, (BrokerPositionMoneyAccumulator.new seed).Matches fill) →
      (∀ x ∈ fills, ∀ y ∈ fills, x.dealId = y.dealId → x = y) →
      (∀ fill, fill ∈ fills ↔ fill ∈ order) →
      volumeSum (firsts (·.dealId) fills) ≤ I64.maxValue →
      absoluteSum (firsts (·.dealId) fills) ≤ I64.maxValue →
      LotsStayFinite fills → LotsStayFinite order →
      ∃ events acc events' acc',
        (moneyMachine seed).exec [] (.new seed) (fills.map .observes) = some (events, acc) ∧
        (moneyMachine seed).exec [] (.new seed) (order.map .observes) = some (events', acc') ∧
        AcceptsOnce fills events ∧ AcceptsOnce fills events' ∧
        acc.filledVolumeRawCentiUnits = acc'.filledVolumeRawCentiUnits ∧
        acc.componentSumRawScaled = acc'.componentSumRawScaled ∧
        ∀ expected, acc.verifyCompleteFilledVolume expected =
          acc'.verifyCompleteFilledVolume expected := by
  constructor
  · intro events acc hrun
    have hholds := holdsAccepted_run hrun
    refine ⟨hholds.volume, hholds.component, hholds.nodup, ?_, hholds.closed, ?_⟩
    · rw [hholds.finalizations]
      cases acc.finalized <;> decide
    · intro action event next hnext hdown
      exact turnedDown_unchanged hnext hdown
  · intro fills order hmatches hone hsame hvolume hmoney hlots hlots'
    have hperm := firsts_perm_of_same hone hsame
    have hvolumes : volumeSum (firsts (·.dealId) order) = volumeSum (firsts (·.dealId) fills) :=
      (hperm.symm.map _).sum_eq
    have hmoneys : moneySum (firsts (·.dealId) order) = moneySum (firsts (·.dealId) fills) :=
      (hperm.symm.map _).sum_eq
    have habsolutes : absoluteSum (firsts (·.dealId) order) =
        absoluteSum (firsts (·.dealId) fills) := (hperm.symm.map _).sum_eq
    have hone' : ∀ x ∈ order, ∀ y ∈ order, x.dealId = y.dealId → x = y := fun x hx y hy =>
      hone x ((hsame x).mpr hx) y ((hsame y).mpr hy)
    obtain ⟨events, acc, hexec, hholds⟩ := (holdsObserved_new seed).exec hmatches hone hvolume
      hmoney hlots
    obtain ⟨events', acc', hexec', hholds'⟩ := (holdsObserved_new seed).exec
      (fun fill hfill => hmatches fill ((hsame fill).mpr hfill)) hone' (hvolumes.trans_le hvolume)
      (habsolutes.trans_le hmoney) hlots'
    have hvolumeSame : acc.filledVolumeRawCentiUnits = acc'.filledVolumeRawCentiUnits := by
      rw [hholds.volume, hholds'.volume]
      exact hvolumes.symm
    refine ⟨events, acc, events', acc', hexec, hexec', hholds.acceptsOnce hone, ?_, hvolumeSame, ?_,
      ?_⟩
    · obtain ⟨hnodup, hmem, hanswers⟩ := hholds'.acceptsOnce hone'
      exact ⟨hnodup, fun fill => (hmem fill).trans (hsame fill).symm, hanswers⟩
    · rw [hholds.money, hholds'.money]
      exact hmoneys.symm
    · intro expected
      unfold BrokerPositionMoneyAccumulator.verifyCompleteFilledVolume
      rw [hvolumeSame]

section Sample

def sampleFill (dealId volume component : Int) (lots : ℚ) (hvolume : 0 < volume)
    (hcomponent : I64.InRange component) : BrokerDealMoneyEvidence ℚ where
  environment := "demo"
  accountId := 1
  dealId := dealId
  orderId := 10 + dealId
  positionId := 7
  symbolId := 1
  symbolName := "EURUSD"
  tradeSide := "SELL"
  filledVolumeRawCentiUnits := volume
  contractUnitsPerLot := 100000
  actualFilledLots := lots
  executionTimestampMs := 1000 + dealId
  executionPrice := 11 / 10
  entryPrice := 1
  moneyDigits := 2
  grossProfitRawScaled := component
  commissionRawScaledSigned := 0
  swapRawScaledSigned := 0
  componentSumRawScaled := component
  grossProfitAccountCurrency := ⟨"USD", component / 100⟩
  commissionAccountCurrencySigned := ⟨"USD", 0⟩
  swapAccountCurrencySigned := ⟨"USD", 0⟩
  pnlConversionFeeState := .notApplied
  pnlConversionFeeAccountCurrencySigned := ⟨"USD", 0⟩
  componentSumAccountCurrency := ⟨"USD", component / 100⟩
  volumeScaleIdentitySha256 := "scale"
  dealIdentitySha256 := if dealId = 1 then "first" else "second"
  volume_pos := hvolume
  component_inRange := hcomponent

@[reducible]
def samplePowers : FloatOps.Elementary ℚ :=
  ⟨fun x => 1 + x, fun x => x - 1, fun x _ => x, fun x n => x ^ n⟩

/-- A gain and a loss, the gain observed twice or after the loss. -/
theorem sampleFills_money : letI := samplePowers
    ∃ gain loss : BrokerDealMoneyEvidence ℚ, gain.componentSumRawScaled = 1000 ∧
      loss.componentSumRawScaled = -400 ∧ ∃ events acc events' acc',
        (moneyMachine gain).exec [] (.new gain) ([gain, loss, gain].map .observes) =
          some (events, acc) ∧
        (moneyMachine gain).exec [] (.new gain) ([loss, gain].map .observes) =
          some (events', acc') ∧
        AcceptsOnce [gain, loss, gain] events ∧ AcceptsOnce [gain, loss, gain] events' ∧
        acc.componentSumRawScaled = acc'.componentSumRawScaled := by
  let _ := samplePowers
  let gain := sampleFill 1 5000000 1000 (1 / 2) (by decide) (by decide)
  let loss := sampleFill 2 3000000 (-400) (3 / 10) (by decide) (by decide)
  have hdistinct : ∀ x ∈ [gain, loss, gain], ∀ y ∈ [gain, loss, gain],
      x.dealId = y.dealId → x = y := by
    simp [gain, loss, sampleFill]
  have hsame (fill : BrokerDealMoneyEvidence ℚ) :
      fill ∈ [gain, loss, gain] ↔ fill ∈ [loss, gain] := by
    simp only [List.mem_cons, List.not_mem_nil, or_false]
    tauto
  obtain ⟨-, horders⟩ := position_money_exact gain
  obtain ⟨events, acc, events', acc', hexec, hexec', honce, honce', -, hmoney, -⟩ :=
    horders [gain, loss, gain] [loss, gain] (by decide) hdistinct hsame (by decide) (by decide)
      (fun _ _ => rfl) fun _ _ => rfl
  exact ⟨gain, loss, rfl, rfl, events, acc, events', acc', hexec, hexec', honce, honce', hmoney⟩

end Sample

end DealEconomics

end Neoethos
