import Neoethos.ArchiveIndexes
import Neoethos.ListIndex
import Mathlib.Data.Finset.Image

namespace Neoethos

open FloatOps (lit le isFinite)

variable {G F K : Type*} [FloatOps F] [FloatOps.Valued F]

namespace BoundedProfitableArchive

/-- The first of the offers under its key that attain the best qualifying net profit. -/
def FirstBest (key : G → K) (offers : List (G × Vector F 11)) (o : ArchiveObservation G F) : Prop :=
  ∃ before after, offers = before ++ (o.gene, o.metrics) :: after ∧
    (∀ p ∈ before, qualifies p.2 = true → key p.1 = key o.gene →
      netProfit p.2 < netProfit o.metrics) ∧
    ∀ p ∈ after, qualifies p.2 = true → key p.1 = key o.gene →
      netProfit p.2 ≤ netProfit o.metrics

variable {key : G → K} {offers : List (G × Vector F 11)} {o : ArchiveObservation G F}

theorem FirstBest.mem (h : FirstBest key offers o) : (o.gene, o.metrics) ∈ offers := by
  obtain ⟨before, after, rfl, _, _⟩ := h
  simp

theorem FirstBest.le (h : FirstBest key offers o) {p : G × Vector F 11} (hp : p ∈ offers)
    (hq : qualifies p.2 = true) (hkey : key p.1 = key o.gene) :
    netProfit p.2 ≤ netProfit o.metrics := by
  obtain ⟨before, after, rfl, hbefore, hafter⟩ := h
  obtain hp | hp := List.mem_append.mp hp
  · exact (hbefore p hp hq hkey).le
  · obtain rfl | hp := List.mem_cons.mp hp
    · exact le_rfl
    · exact hafter p hp hq hkey

theorem FirstBest.snoc (h : FirstBest key offers o) {p : G × Vector F 11}
    (hp : qualifies p.2 = true → key p.1 = key o.gene → netProfit p.2 ≤ netProfit o.metrics) :
    FirstBest key (offers ++ [p]) o := by
  obtain ⟨before, after, rfl, hbefore, hafter⟩ := h
  refine ⟨before, after ++ [p], by simp, hbefore, ?_⟩
  intro p' hp' hq hkey
  obtain hp' | hp' := List.mem_append.mp hp'
  · exact hafter p' hp' hq hkey
  · rw [List.mem_singleton.mp hp'] at hq hkey ⊢
    exact hp hq hkey

theorem firstBest_last {gene : G} {metrics : Vector F 11} (sequence : Nat)
    (h : ∀ p ∈ offers, qualifies p.2 = true → key p.1 = key gene →
      netProfit p.2 < netProfit metrics) :
    FirstBest key (offers ++ [(gene, metrics)]) ⟨gene, metrics, sequence⟩ :=
  ⟨offers, [], rfl, h, by simp⟩

/-- What the archive knows about all the offers so far. -/
structure Best (key : G → K) (capacity : Nat) (offers : List (G × Vector F 11))
    (a : BoundedProfitableArchive G F K) : Prop where
  indexed : a.Indexed key
  capacity_eq : a.capacity = capacity
  qualified : ∀ o ∈ a.observations, qualifies o.metrics = true
  first : ∀ o ∈ a.observations, FirstBest key offers o
  dropped : ∀ p ∈ offers, qualifies p.2 = true → a.positions (key p.1) = none →
    a.observations.length = capacity ∧ ∀ o ∈ a.observations, netProfit p.2 ≤ netProfit o.metrics
  sequence : a.nextSequence ≤ offers.length

theorem best_new (key : G → K) (capacity : Nat) :
    Best key capacity [] (new capacity : BoundedProfitableArchive G F K) where
  indexed := indexed_new key capacity
  capacity_eq := rfl
  qualified := by simp [new]
  first := by simp [new]
  dropped := by simp
  sequence := Nat.zero_le _

variable {capacity : Nat} {a : BoundedProfitableArchive G F K}

/-- No retained observation has a smaller profit than the worst rank. -/
theorem Best.worst_le (hb : Best key capacity offers a) {worst : ArchiveRank F}
    (h : a.worstRank = some worst) {previous : ArchiveObservation G F}
    (hget : a.observations[worst.slot]? = some previous) :
    isFinite worst.net = true ∧ FloatOps.Valued.value worst.net = netProfit previous.metrics ∧
      ∀ o ∈ a.observations, netProfit previous.metrics ≤ netProfit o.metrics := by
  obtain ⟨o', ho', hworst⟩ := hb.indexed.worst h
  obtain rfl := Option.some.inj (hget.symm.trans ho')
  have hfinite : ∀ o ∈ a.observations, isFinite o.metrics[0] = true :=
    fun o ho => finite_of_qualifies (hb.qualified o ho)
  have hprevious := hfinite previous (List.mem_of_getElem? hget)
  have hnet : isFinite worst.net = true := by
    rw [hworst]
    exact ArchiveRank.new_finite hprevious _ _
  have hvalue : FloatOps.Valued.value worst.net = netProfit previous.metrics := by
    rw [hworst]
    exact ArchiveRank.value_new hprevious _ _
  refine ⟨hnet, hvalue, ?_⟩
  intro o ho
  obtain ⟨slot, hslot⟩ := List.mem_iff_getElem?.mp ho
  have hrank : o.rank slot ∈ a.ranks := (hb.indexed.rank _).mpr ⟨o, hslot, rfl⟩
  have hle := (worstRank_spec h).2 _ hrank
  have hval := ArchiveRank.value_le_of_cmp hnet (ArchiveRank.new_finite (hfinite o ho) _ _) hle
  rw [hvalue] at hval
  exact hval.trans_eq (ArchiveRank.value_new (hfinite o ho) _ _)

/-- An offer that changes nothing keeps everything, when it was not better than what its key has,
or than anything retained in a full archive. -/
theorem Best.unchanged (hb : Best key capacity offers a) {p : G × Vector F 11}
    (hsame : ∀ o ∈ a.observations, qualifies p.2 = true → key p.1 = key o.gene →
      netProfit p.2 ≤ netProfit o.metrics)
    (hdropped : qualifies p.2 = true → a.positions (key p.1) = none →
      a.observations.length = capacity ∧
        ∀ o ∈ a.observations, netProfit p.2 ≤ netProfit o.metrics) :
    Best key capacity (offers ++ [p]) a where
  indexed := hb.indexed
  capacity_eq := hb.capacity_eq
  qualified := hb.qualified
  first o ho := (hb.first o ho).snoc (hsame o ho)
  dropped := by
    intro p' hp' hq hposition
    obtain hp' | hp' := List.mem_append.mp hp'
    · exact hb.dropped p' hp' hq hposition
    · rw [List.mem_singleton.mp hp'] at hq hposition ⊢
      exact hdropped hq hposition
  sequence := by
    have hsequence := hb.sequence
    simp only [List.length_append, List.length_singleton]
    omega

variable [DecidableEq K] {a' : BoundedProfitableArchive G F K} {gene : G} {metrics : Vector F 11}

omit [DecidableEq K] in
theorem Best.improved (hb : Best key capacity offers a) {slot : Nat}
    {incumbent : ArchiveObservation G F} (hq : qualifies metrics = true)
    (hposition : a.positions (key gene) = some slot)
    (hget : a.observations[slot]? = some incumbent)
    (hlt : netProfit incumbent.metrics < netProfit metrics)
    (hindexed : a'.Indexed key) (hcapacity : a'.capacity = a.capacity)
    (hpositions : a'.positions = a.positions)
    (hset : a'.observations = a.observations.set slot ⟨gene, metrics, incumbent.sequence⟩)
    (hsequence : a'.nextSequence = a.nextSequence) :
    Best key capacity (offers ++ [(gene, metrics)]) a' := by
  obtain ⟨o, ho, hkey⟩ := hb.indexed.get_of_position hposition
  obtain rfl := Option.some.inj (hget.symm.trans ho)
  have hmem := List.mem_of_getElem? hget
  have hlength : a'.observations.length = a.observations.length := by
    rw [hset, List.length_set]
  refine ⟨hindexed, hcapacity.trans hb.capacity_eq, ?_, ?_, ?_, ?_⟩
  · intro o ho
    rw [hset] at ho
    obtain rfl | ⟨i, _, hi⟩ := ListIndex.mem_set_cases ho
    · exact hq
    · exact hb.qualified o (List.mem_of_getElem? hi)
  · intro o ho
    rw [hset] at ho
    obtain rfl | ⟨i, his, hi⟩ := ListIndex.mem_set_cases ho
    · apply firstBest_last
      intro p hp hpq hpkey
      exact ((hb.first incumbent hmem).le hp hpq (hpkey.trans hkey.symm)).trans_lt hlt
    · apply (hb.first o (List.mem_of_getElem? hi)).snoc
      intro _ hsame
      exact absurd (hb.indexed.slot_inj hi hget (hsame.symm.trans hkey.symm)) his
  · intro p hp hpq hnone
    rw [hpositions] at hnone
    obtain hp | hp := List.mem_append.mp hp
    · obtain ⟨hfull, hle⟩ := hb.dropped p hp hpq hnone
      refine ⟨hlength.trans hfull, ?_⟩
      intro o ho
      rw [hset] at ho
      obtain rfl | ⟨i, _, hi⟩ := ListIndex.mem_set_cases ho
      · exact (hle incumbent hmem).trans hlt.le
      · exact hle o (List.mem_of_getElem? hi)
    · rw [List.mem_singleton.mp hp, hposition] at hnone
      simp at hnone
  · have := hb.sequence
    simp only [hsequence, List.length_append, List.length_singleton]
    omega

/-- The evicted key, and every key that was not retained before, has no greater profit than what
stays; the new observation beats them all. -/
theorem Best.replaced (hb : Best key capacity offers a) {worst : ArchiveRank F}
    {previous : ArchiveObservation G F} (hq : qualifies metrics = true)
    (hposition : a.positions (key gene) = none)
    (hfull : a.observations.length = a.capacity) (hworst : a.worstRank = some worst)
    (hget : a.observations[worst.slot]? = some previous)
    (hlt : netProfit previous.metrics < netProfit metrics)
    (hindexed : a'.Indexed key) (hcapacity : a'.capacity = a.capacity)
    (hpositions : a'.positions = Function.update
      (Function.update a.positions (key previous.gene) none) (key gene) (some worst.slot))
    (hset : a'.observations = a.observations.set worst.slot ⟨gene, metrics, a.nextSequence⟩)
    (hsequence : a'.nextSequence = a.nextSequence + 1) :
    Best key capacity (offers ++ [(gene, metrics)]) a' := by
  obtain ⟨_, _, hleast⟩ := hb.worst_le hworst hget
  have hmem := List.mem_of_getElem? hget
  have hlength : a'.observations.length = a.observations.length := by
    rw [hset, List.length_set]
  -- An offer at or below the evicted profit is at or below everything that is retained now.
  have hbelow : ∀ x, x ≤ netProfit previous.metrics →
      ∀ o ∈ a'.observations, x ≤ netProfit o.metrics := by
    intro x hx o ho
    rw [hset] at ho
    obtain rfl | ⟨i, _, hi⟩ := ListIndex.mem_set_cases ho
    · exact hx.trans hlt.le
    · exact hx.trans (hleast o (List.mem_of_getElem? hi))
  refine ⟨hindexed, hcapacity.trans hb.capacity_eq, ?_, ?_, ?_, ?_⟩
  · intro o ho
    rw [hset] at ho
    obtain rfl | ⟨i, _, hi⟩ := ListIndex.mem_set_cases ho
    · exact hq
    · exact hb.qualified o (List.mem_of_getElem? hi)
  · intro o ho
    rw [hset] at ho
    obtain rfl | ⟨i, his, hi⟩ := ListIndex.mem_set_cases ho
    · apply firstBest_last
      intro p hp hpq hpkey
      have hdropped := hb.dropped p hp hpq (by rw [hpkey]; exact hposition)
      exact (hdropped.2 previous hmem).trans_lt hlt
    · apply (hb.first o (List.mem_of_getElem? hi)).snoc
      intro _ hsame
      exact absurd hsame.symm (hb.indexed.not_key hposition hi)
  · intro p hp hpq hnone
    refine ⟨hlength.trans (hfull.trans hb.capacity_eq), ?_⟩
    have hne : key p.1 ≠ key gene := by
      intro hkey
      rw [hpositions, hkey, Function.update_self] at hnone
      simp at hnone
    rw [hpositions, Function.update_of_ne hne] at hnone
    obtain hp | hp := List.mem_append.mp hp
    · apply hbelow
      by_cases hevicted : key p.1 = key previous.gene
      · exact (hb.first previous hmem).le hp hpq hevicted
      · rw [Function.update_of_ne hevicted] at hnone
        exact (hb.dropped p hp hpq hnone).2 previous hmem
    · rw [List.mem_singleton.mp hp] at hne
      exact absurd rfl hne
  · have := hb.sequence
    simp only [hsequence, List.length_append, List.length_singleton]
    omega

theorem Best.inserted (hb : Best key capacity offers a) (hq : qualifies metrics = true)
    (hposition : a.positions (key gene) = none)
    (hroom : a.observations.length ≠ a.capacity) :
    Best key capacity (offers ++ [(gene, metrics)]) (a.append key gene metrics) := by
  -- With room left, every qualifying key so far is retained.
  have hretained : ∀ p ∈ offers, qualifies p.2 = true → a.positions (key p.1) ≠ none := by
    intro p hp hpq hnone
    exact hroom ((hb.dropped p hp hpq hnone).1.trans hb.capacity_eq.symm)
  have hmem : ∀ o ∈ (a.append key gene metrics).observations,
      o ∈ a.observations ∨ o = ⟨gene, metrics, a.nextSequence⟩ := by
    intro o ho
    obtain ho | ho := List.mem_append.mp ho
    · exact .inl ho
    · exact .inr (List.mem_singleton.mp ho)
  refine ⟨hb.indexed.append hposition hroom, hb.capacity_eq, ?_, ?_, ?_, ?_⟩
  · intro o ho
    obtain ho | rfl := hmem o ho
    · exact hb.qualified o ho
    · exact hq
  · intro o ho
    obtain ho | rfl := hmem o ho
    · apply (hb.first o ho).snoc
      intro _ hsame
      exact absurd hsame.symm ((hb.indexed.position_eq_none.mp hposition) o ho)
    · apply firstBest_last
      intro p hp hpq hpkey
      exact absurd (by rw [hpkey]; exact hposition) (hretained p hp hpq)
  · intro p hp hpq hnone
    have hne : key p.1 ≠ key gene := by
      intro hkey
      simp only [append, hkey, Function.update_self] at hnone
      simp at hnone
    simp only [append, Function.update_of_ne hne] at hnone
    obtain hp | hp := List.mem_append.mp hp
    · exact absurd hnone (hretained p hp hpq)
    · rw [List.mem_singleton.mp hp] at hne
      exact absurd rfl hne
  · have := hb.sequence
    simp only [append, List.length_append, List.length_singleton]
    omega

theorem Best.offer (hb : Best key capacity offers a) {outcome : ArchiveOffer}
    (h : a.offer key gene metrics = .ok (outcome, a')) :
    Best key capacity (offers ++ [(gene, metrics)]) a' := by
  have hstep := offerStep_of_offer h
  have hindexed := hstep.indexed hb.indexed
  cases hstep with
  | unqualified hq hr =>
    apply hb.unchanged
    · intro _ _ hq'
      simp [hq] at hq'
    · intro hq'
      simp [hq] at hq'
  | noCapacity hq hcapacity =>
    have hempty : a.observations = [] := by
      have := hb.indexed.bounded
      exact List.length_eq_zero_iff.mp (by omega)
    apply hb.unchanged
    · simp [hempty]
    · intro _ _
      refine ⟨?_, by simp [hempty]⟩
      rw [hempty, ← hb.capacity_eq, hcapacity]
      rfl
  | @rejectedDuplicate slot incumbent hq hposition hget hle =>
    obtain ⟨o, ho, hkey⟩ := hb.indexed.get_of_position hposition
    obtain rfl := Option.some.inj (hget.symm.trans ho)
    have hincumbent := hb.qualified incumbent (List.mem_of_getElem? hget)
    apply hb.unchanged
    · intro o ho _ hsame
      obtain ⟨i, hi⟩ := List.mem_iff_getElem?.mp ho
      obtain rfl := hb.indexed.slot_inj hi hget (hsame.symm.trans hkey.symm)
      rw [Option.some.inj (hi.symm.trans hget)]
      exact (le_iff_netProfit hq hincumbent).mp hle
    · intro _ hnone
      rw [hposition] at hnone
      simp at hnone
  | @improvedDuplicate slot incumbent hq hposition hget hle =>
    have hincumbent := hb.qualified incumbent (List.mem_of_getElem? hget)
    rw [le_iff_netProfit hq hincumbent, not_le] at hle
    exact hb.improved hq hposition hget hle hindexed rfl rfl rfl rfl
  | @rejectedCapacity worst hq hposition hfull hworst hle =>
    obtain ⟨previous, hget, _⟩ := hb.indexed.worst hworst
    obtain ⟨hfinite, hvalue, hleast⟩ := hb.worst_le hworst hget
    rw [FloatOps.Valued.le_iff _ _ (finite_of_qualifies hq) hfinite, hvalue] at hle
    apply hb.unchanged
    · intro o ho _ hsame
      exact absurd hsame.symm ((hb.indexed.position_eq_none.mp hposition) o ho)
    · intro _ _
      exact ⟨hfull.trans hb.capacity_eq, fun o ho => hle.trans (hleast o ho)⟩
  | @replacedWorst worst previous hq hposition hfull hworst hle hget =>
    obtain ⟨hfinite, hvalue, _⟩ := hb.worst_le hworst hget
    rw [FloatOps.Valued.le_iff _ _ (finite_of_qualifies hq) hfinite, hvalue, not_le] at hle
    exact hb.replaced hq hposition hfull hworst hget hle hindexed rfl rfl rfl rfl
  | inserted hq hposition hroom => exact hb.inserted hq hposition hroom

end BoundedProfitableArchive

end Neoethos
