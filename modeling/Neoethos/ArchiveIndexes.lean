import Neoethos.ProfitableArchive

namespace Neoethos

open FloatOps (lit le isFinite)

variable {G F K : Type*} [FloatOps F] [FloatOps.Valued F]

namespace BoundedProfitableArchive

/-- One key and one rank for each slot, and no others. -/
structure Indexed (key : G → K) (a : BoundedProfitableArchive G F K) : Prop where
  bounded : a.observations.length ≤ a.capacity
  position : ∀ k slot, a.positions k = some slot ↔
    ∃ o, a.observations[slot]? = some o ∧ key o.gene = k
  rank : ∀ r, r ∈ a.ranks ↔ ∃ o, a.observations[r.slot]? = some o ∧ r = o.rank r.slot
  size : a.ranks.size = a.observations.length

variable {key : G → K} {a : BoundedProfitableArchive G F K}

theorem indexed_new (key : G → K) (capacity : Nat) :
    (new capacity : BoundedProfitableArchive G F K).Indexed key where
  bounded := Nat.zero_le _
  position := by simp [new]
  rank := by simp [new]
  size := by simp [new]

theorem Indexed.get_of_position (hi : a.Indexed key) {k : K} {slot : Nat}
    (h : a.positions k = some slot) : ∃ o, a.observations[slot]? = some o ∧ key o.gene = k :=
  (hi.position k slot).mp h

theorem Indexed.slot_inj (hi : a.Indexed key) {slot slot' : Nat} {o o' : ArchiveObservation G F}
    (hget : a.observations[slot]? = some o) (hget' : a.observations[slot']? = some o')
    (hkey : key o.gene = key o'.gene) : slot = slot' := by
  have h := (hi.position _ slot).mpr ⟨o, hget, rfl⟩
  have h' := (hi.position _ slot').mpr ⟨o', hget', rfl⟩
  rw [hkey, h'] at h
  exact (Option.some.inj h).symm

theorem Indexed.keys_nodup (hi : a.Indexed key) :
    (a.observations.map fun o => key o.gene).Nodup := by
  rw [List.Nodup, List.pairwise_map, List.pairwise_iff_getElem]
  intro i j hilt hjlt hij hkey
  have := hi.slot_inj (List.getElem?_eq_getElem hilt) (List.getElem?_eq_getElem hjlt) hkey
  omega

theorem Indexed.not_key (hi : a.Indexed key) {k : K} (h : a.positions k = none) {slot : Nat}
    {o : ArchiveObservation G F} (hget : a.observations[slot]? = some o) : key o.gene ≠ k := by
  intro hkey
  rw [(hi.position k slot).mpr ⟨o, hget, hkey⟩] at h
  simp at h

theorem Indexed.position_eq_none (hi : a.Indexed key) {k : K} :
    a.positions k = none ↔ ∀ o ∈ a.observations, key o.gene ≠ k := by
  constructor
  · intro h o ho
    obtain ⟨slot, hget⟩ := List.mem_iff_getElem?.mp ho
    exact hi.not_key h hget
  · intro h
    cases hposition : a.positions k with
    | none => rfl
    | some slot =>
      obtain ⟨o, hget, hkey⟩ := hi.get_of_position hposition
      exact absurd hkey (h o (List.mem_of_getElem? hget))

theorem mem_insert_iff {ranks : Std.TreeSet (ArchiveRank F) ArchiveRank.cmp}
    {r s : ArchiveRank F} : s ∈ ranks.insert r ↔ s = r ∨ s ∈ ranks := by
  rw [Std.TreeSet.mem_insert, Std.LawfulEqCmp.compare_eq_iff_eq, eq_comm]

theorem mem_erase_iff {ranks : Std.TreeSet (ArchiveRank F) ArchiveRank.cmp}
    {r s : ArchiveRank F} : s ∈ ranks.erase r ↔ s ≠ r ∧ s ∈ ranks := by
  rw [Std.TreeSet.mem_erase, ne_eq, Std.LawfulEqCmp.compare_eq_iff_eq, ne_eq, eq_comm]

theorem size_insert_of_not_mem {ranks : Std.TreeSet (ArchiveRank F) ArchiveRank.cmp}
    {r : ArchiveRank F} (h : r ∉ ranks) : (ranks.insert r).size = ranks.size + 1 := by
  rw [Std.TreeSet.size_insert]
  exact if_neg h

theorem size_erase_of_mem {ranks : Std.TreeSet (ArchiveRank F) ArchiveRank.cmp}
    {r : ArchiveRank F} (h : r ∈ ranks) : (ranks.erase r).size = ranks.size - 1 := by
  rw [Std.TreeSet.size_erase]
  exact if_pos h

variable [DecidableEq K]

/-- Both indexes stay exact when an observation takes the slot of another, under the same key or
under one that was not retained. -/
theorem Indexed.set (hi : a.Indexed key) {slot : Nat} {old o : ArchiveObservation G F}
    (hget : a.observations[slot]? = some old)
    (hkey : key o.gene = key old.gene ∨ a.positions (key o.gene) = none) (nextSequence : Nat) :
    Indexed key
      { a with
        observations := a.observations.set slot o
        positions := Function.update (Function.update a.positions (key old.gene) none)
          (key o.gene) (some slot)
        ranks := (a.ranks.erase (old.rank slot)).insert (o.rank slot)
        nextSequence := nextSequence } := by
  have hslot : slot < a.observations.length := (List.getElem?_eq_some_iff.mp hget).1
  have hset : ∀ i, (a.observations.set slot o)[i]? =
      if i = slot then some o else a.observations[i]? := by
    intro i
    rw [List.getElem?_set]
    by_cases his : slot = i
    · subst his
      simp [hslot]
    · rw [if_neg his, if_neg (Ne.symm his)]
  refine ⟨by simpa using hi.bounded, ?_, ?_, ?_⟩
  · intro k i
    simp only [hset]
    by_cases hk : k = key o.gene
    · subst hk
      rw [Function.update_self]
      constructor
      · intro h
        obtain rfl := Option.some.inj h
        exact ⟨o, by simp, rfl⟩
      · rintro ⟨o', ho', hkey'⟩
        by_cases his : i = slot
        · rw [his]
        · rw [if_neg his] at ho'
          obtain hsame | hnone := hkey
          · exact absurd (hi.slot_inj ho' hget (hkey'.trans hsame)) his
          · exact absurd hkey' (hi.not_key hnone ho')
    · rw [Function.update_of_ne hk]
      by_cases hold : k = key old.gene
      · subst hold
        rw [Function.update_self]
        simp only [reduceCtorEq, false_iff, not_exists, not_and]
        intro o' ho' hkey'
        by_cases his : i = slot
        · rw [if_pos his] at ho'
          exact hk (hkey'.symm.trans (by rw [Option.some.inj ho']))
        · rw [if_neg his] at ho'
          exact his (hi.slot_inj ho' hget hkey')
      · rw [Function.update_of_ne hold, hi.position]
        by_cases his : i = slot
        · subst his
          simp only [if_true]
          constructor
          · rintro ⟨o', ho', hkey'⟩
            rw [hget] at ho'
            exact absurd (by rw [Option.some.inj ho', hkey']) hold
          · rintro ⟨o', ho', hkey'⟩
            exact absurd (by rw [Option.some.inj ho', hkey']) hk
        · simp only [if_neg his]
  · intro r
    rw [mem_insert_iff, mem_erase_iff, hi.rank]
    simp only [hset]
    by_cases hr : r.slot = slot
    · simp only [hr, if_true]
      constructor
      · rintro (rfl | ⟨hne, o', ho', hr'⟩)
        · exact ⟨o, rfl, rfl⟩
        · rw [hget] at ho'
          exact absurd (by rw [hr', Option.some.inj ho']) hne
      · rintro ⟨o', ho', hr'⟩
        exact .inl (by rw [hr', Option.some.inj ho'])
    · simp only [if_neg hr]
      constructor
      · rintro (rfl | ⟨_, h⟩)
        · exact absurd rfl hr
        · exact h
      · intro h
        exact .inr ⟨fun heq => hr (by rw [heq]; rfl), h⟩
  · have hold : old.rank slot ∈ a.ranks := (hi.rank _).mpr ⟨old, hget, rfl⟩
    have hnew : o.rank slot ∉ a.ranks.erase (old.rank slot) := by
      rw [mem_erase_iff, hi.rank]
      rintro ⟨hne, o', ho', hr⟩
      have ho'' : some old = some o' := hget.symm.trans ho'
      rw [← Option.some.inj ho''] at hr
      exact hne hr
    rw [size_insert_of_not_mem hnew, size_erase_of_mem hold, hi.size, List.length_set]
    omega

theorem Indexed.append (hi : a.Indexed key) {gene : G} {metrics : Vector F 11}
    (hposition : a.positions (key gene) = none) (hroom : a.observations.length ≠ a.capacity) :
    (a.append key gene metrics).Indexed key := by
  have hget : ∀ i, (a.observations ++ [⟨gene, metrics, a.nextSequence⟩])[i]? =
      if i = a.observations.length then some ⟨gene, metrics, a.nextSequence⟩
      else a.observations[i]? := by
    intro i
    by_cases hlast : i = a.observations.length
    · simp [hlast]
    · rw [if_neg hlast]
      by_cases hlt : i < a.observations.length
      · rw [List.getElem?_append_left hlt]
      · rw [List.getElem?_eq_none (by simp; omega), List.getElem?_eq_none (by omega)]
  have hbounded := hi.bounded
  refine ⟨?_, ?_, ?_, ?_⟩
  · simp only [BoundedProfitableArchive.append, List.length_append, List.length_singleton]
    omega
  · intro k i
    simp only [BoundedProfitableArchive.append, hget]
    by_cases hk : k = key gene
    · subst hk
      rw [Function.update_self]
      constructor
      · intro h
        obtain rfl := Option.some.inj h
        exact ⟨_, if_pos rfl, rfl⟩
      · rintro ⟨o', ho', hkey'⟩
        by_cases hlast : i = a.observations.length
        · rw [hlast]
        · rw [if_neg hlast] at ho'
          exact absurd hkey' (hi.not_key hposition ho')
    · rw [Function.update_of_ne hk, hi.position]
      by_cases hlast : i = a.observations.length
      · subst hlast
        simp only [if_true, List.getElem?_eq_none le_rfl]
        constructor
        · rintro ⟨o', ho', _⟩
          simp at ho'
        · rintro ⟨o', ho', hkey'⟩
          rw [← Option.some.inj ho'] at hkey'
          exact absurd hkey'.symm hk
      · simp only [if_neg hlast]
  · intro r
    simp only [BoundedProfitableArchive.append, mem_insert_iff, hi.rank, hget]
    by_cases hr : r.slot = a.observations.length
    · simp only [hr, if_true, List.getElem?_eq_none le_rfl]
      constructor
      · rintro (rfl | ⟨o', ho', _⟩)
        · exact ⟨_, rfl, rfl⟩
        · simp at ho'
      · rintro ⟨o', ho', hr'⟩
        exact .inl (by rw [hr', ← Option.some.inj ho']; rfl)
    · simp only [if_neg hr]
      constructor
      · rintro (rfl | h)
        · exact absurd rfl hr
        · exact h
      · exact .inr
  · have hnew : (.new metrics[0] a.nextSequence a.observations.length : ArchiveRank F) ∉
        a.ranks := by
      rw [hi.rank]
      rintro ⟨o', ho', _⟩
      have hlt := (List.getElem?_eq_some_iff.mp ho').1
      exact absurd hlt (by simp [ArchiveRank.new])
    simp only [BoundedProfitableArchive.append, size_insert_of_not_mem hnew, hi.size,
      List.length_append, List.length_singleton]

omit [DecidableEq K] in
/-- The worst rank belongs to an observation, the one in its slot. -/
theorem Indexed.worst (hi : a.Indexed key) {worst : ArchiveRank F}
    (h : a.worstRank = some worst) :
    ∃ o, a.observations[worst.slot]? = some o ∧ worst = o.rank worst.slot :=
  (hi.rank worst).mp (worstRank_spec h).1

theorem OfferStep.indexed {a' : BoundedProfitableArchive G F K} {gene : G}
    {metrics : Vector F 11} {outcome : ArchiveOffer}
    (h : OfferStep a key gene metrics outcome a') (hi : a.Indexed key) : a'.Indexed key := by
  cases h with
  | unqualified => exact hi
  | noCapacity => exact hi
  | rejectedDuplicate => exact hi
  | rejectedCapacity => exact hi
  | @improvedDuplicate slot incumbent hq hposition hget hle =>
    obtain ⟨o, ho, hkey⟩ := hi.get_of_position hposition
    obtain rfl := Option.some.inj (hget.symm.trans ho)
    have hset := hi.set (o := ⟨gene, metrics, incumbent.sequence⟩) hget (.inl hkey.symm)
      a.nextSequence
    have hsame : Function.update (Function.update a.positions (key incumbent.gene) none)
        (key gene) (some slot) = a.positions := by
      rw [← hkey, Function.update_idem, ← hposition, ← hkey, Function.update_eq_self]
    simp only [hsame] at hset
    exact hset
  | @replacedWorst worst previous hq hposition hfull hworst hle hget =>
    obtain ⟨o, ho, hrank⟩ := hi.worst hworst
    obtain rfl := Option.some.inj (hget.symm.trans ho)
    have hset := hi.set (o := ⟨gene, metrics, a.nextSequence⟩) hget (.inr hposition)
      (a.nextSequence + 1)
    rw [← hrank] at hset
    exact hset
  | inserted hq hposition hroom => exact hi.append hposition hroom

/-- Neither the `expect` nor an index can fail; the one error is the end of the sequence. -/
theorem Indexed.offer_error (hi : a.Indexed key) {gene : G} {metrics : Vector F 11}
    {e : OfferFailure} (h : a.offer key gene metrics = .error e) :
    e = .sequenceOverflow ∧ 2 ^ 64 ≤ a.nextSequence + 1 := by
  unfold offer at h
  split at h
  next => simp at h
  next =>
    split at h
    next => simp at h
    next =>
      split at h
      next => simp at h
      next hcapacity =>
        split at h
        next slot hposition =>
          obtain ⟨o, hget, _⟩ := hi.get_of_position hposition
          unfold offerDuplicate at h
          rw [hget] at h
          simp only at h
          split at h
          next => simp at h
          next => simp at h
        next =>
          unfold offerNew at h
          split at h
          next hfull =>
            split at h
            next hworst =>
              have hempty := worstRank_eq_none hworst
              rw [hi.size, hfull] at hempty
              exact absurd hempty hcapacity
            next worst hworst =>
              split at h
              next => simp at h
              next =>
                split at h
                next hover => exact ⟨by simpa using h.symm, hover⟩
                next =>
                  obtain ⟨o, hget, _⟩ := hi.worst hworst
                  unfold replaceWorst at h
                  rw [hget] at h
                  simp at h
          next =>
            split at h
            next hover => exact ⟨by simpa using h.symm, hover⟩
            next => simp at h

end BoundedProfitableArchive

end Neoethos
