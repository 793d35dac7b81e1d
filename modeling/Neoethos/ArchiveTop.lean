import Neoethos.ArchiveBest
import Neoethos.Fallible

namespace Neoethos

variable {G F K : Type*} [FloatOps F] [FloatOps.Valued F] [DecidableEq K]

namespace BoundedProfitableArchive

def offerAll (key : G → K) (a : BoundedProfitableArchive G F K) :
    List (G × Vector F 11) → Except OfferFailure (BoundedProfitableArchive G F K)
  | [] => .ok a
  | (gene, metrics) :: rest =>
    match a.offer key gene metrics with
    | .error e => .error e
    | .ok (_, a') => a'.offerAll key rest

omit [DecidableEq K] in
def retainedNets (a : BoundedProfitableArchive G F K) : Multiset ℚ :=
  ((a.observations.map fun o => netProfit o.metrics : List ℚ) : Multiset ℚ)

def netsOf (key : G → K) (offers : List (G × Vector F 11)) (k : K) : Finset ℚ :=
  ((offers.filter fun p => qualifies p.2 && key p.1 = k).map fun p => netProfit p.2).toFinset

def qualifyingKeys (key : G → K) (offers : List (G × Vector F 11)) : Finset K :=
  ((offers.filter fun p => qualifies p.2).map fun p => key p.1).toFinset

def keyMaxima (key : G → K) (offers : List (G × Vector F 11)) : Multiset (WithBot ℚ) :=
  (qualifyingKeys key offers).val.map fun k => (netsOf key offers k).max

variable {key : G → K} {offers : List (G × Vector F 11)} {capacity : Nat}
  {a : BoundedProfitableArchive G F K}

theorem mem_netsOf {k : K} {x : ℚ} : x ∈ netsOf key offers k ↔
    ∃ p ∈ offers, qualifies p.2 = true ∧ key p.1 = k ∧ netProfit p.2 = x := by
  simp [netsOf, and_assoc]

omit [FloatOps.Valued F] in
theorem mem_qualifyingKeys {k : K} : k ∈ qualifyingKeys key offers ↔
    ∃ p ∈ offers, qualifies p.2 = true ∧ key p.1 = k := by
  simp [qualifyingKeys, and_assoc]

theorem keyMaxima_perm {offers' : List (G × Vector F 11)} (h : offers'.Perm offers) :
    keyMaxima key offers' = keyMaxima key offers := by
  have hkeys : qualifyingKeys key offers' = qualifyingKeys key offers := by
    ext k
    simp only [mem_qualifyingKeys, h.mem_iff]
  have hnets : ∀ k, netsOf key offers' k = netsOf key offers k := by
    intro k
    ext x
    simp only [mem_netsOf, h.mem_iff]
  simp only [keyMaxima, hkeys, hnets]

/-- The archive has the greatest profit of each key that it retains. -/
theorem Best.max_netsOf (hb : Best key capacity offers a) {o : ArchiveObservation G F}
    (ho : o ∈ a.observations) :
    (netsOf key offers (key o.gene)).max = ((netProfit o.metrics : ℚ) : WithBot ℚ) := by
  have hfirst := hb.first o ho
  apply le_antisymm
  · apply Finset.max_le
    intro x hx
    obtain ⟨p, hp, hq, hkey, rfl⟩ := mem_netsOf.mp hx
    exact WithBot.coe_le_coe.mpr (hfirst.le hp hq hkey)
  · exact Finset.le_max (mem_netsOf.mpr ⟨_, hfirst.mem, hb.qualified o ho, rfl, rfl⟩)

/-- The keys with a qualifying offer are the retained ones and the others. -/
theorem Best.keys_split (hb : Best key capacity offers a) :
    (qualifyingKeys key offers).val =
      ((a.observations.map fun o => key o.gene : List K) : Multiset K) +
        ((qualifyingKeys key offers).filter fun k => a.positions k = none).val := by
  rw [← Multiset.filter_add_not (fun k => a.positions k ≠ none) (qualifyingKeys key offers).val]
  congr 1
  · apply (Multiset.Nodup.ext ((qualifyingKeys key offers).nodup.filter _)
      (Multiset.coe_nodup.mpr hb.indexed.keys_nodup)).mpr
    intro k
    rw [Multiset.mem_filter, Finset.mem_val, Multiset.mem_coe, List.mem_map, mem_qualifyingKeys]
    constructor
    · rintro ⟨_, hretained⟩
      by_contra hnone
      apply hretained
      rw [hb.indexed.position_eq_none]
      exact fun o ho hkey => hnone ⟨o, ho, hkey⟩
    · rintro ⟨o, ho, rfl⟩
      refine ⟨⟨_, (hb.first o ho).mem, hb.qualified o ho, rfl⟩, ?_⟩
      intro hnone
      exact hb.indexed.position_eq_none.mp hnone o ho rfl
  · rw [Finset.filter_val]
    apply Multiset.filter_congr
    simp

theorem Best.retainedNets_eq (hb : Best key capacity offers a) :
    a.retainedNets.map ((↑) : ℚ → WithBot ℚ) = TopValues.top capacity (keyMaxima key offers) := by
  have hbounded := hb.indexed.bounded
  have hcapacity := hb.capacity_eq
  have hkept : ((a.observations.map fun o => key o.gene : List K) : Multiset K).map
      (fun k => (netsOf key offers k).max) = a.retainedNets.map ((↑) : ℚ → WithBot ℚ) := by
    simp only [retainedNets, Multiset.map_coe, List.map_map]
    congr 1
    apply List.map_congr_left
    intro o ho
    exact hb.max_netsOf ho
  have hcard : (a.retainedNets.map ((↑) : ℚ → WithBot ℚ)).card = a.observations.length := by
    simp [retainedNets]
  have hdropped : ∀ k ∈ (qualifyingKeys key offers).filter fun k => a.positions k = none,
      a.observations.length = capacity ∧ ∀ o ∈ a.observations,
        (netsOf key offers k).max ≤ ((netProfit o.metrics : ℚ) : WithBot ℚ) := by
    intro k hk
    obtain ⟨hk, hnone⟩ := Finset.mem_filter.mp hk
    obtain ⟨p, hp, hq, rfl⟩ := mem_qualifyingKeys.mp hk
    refine ⟨(hb.dropped p hp hq hnone).1, ?_⟩
    intro o ho
    apply Finset.max_le
    intro x hx
    obtain ⟨p', hp', hq', hkey', rfl⟩ := mem_netsOf.mp hx
    exact WithBot.coe_le_coe.mpr ((hb.dropped p' hp' hq' (by rw [hkey']; exact hnone)).2 o ho)
  unfold keyMaxima
  rw [hb.keys_split, Multiset.map_add, hkept]
  symm
  apply TopValues.top_of_split
  · omega
  · intro hne
    obtain ⟨x, hx⟩ := Multiset.exists_mem_of_ne_zero hne
    obtain ⟨k, hk, _⟩ := Multiset.mem_map.mp hx
    rw [hcard]
    exact (hdropped k hk).1
  · intro x hx y hy
    obtain ⟨k, hk, rfl⟩ := Multiset.mem_map.mp hx
    obtain ⟨z, hz, rfl⟩ := Multiset.mem_map.mp hy
    obtain ⟨o, ho, rfl⟩ := List.mem_map.mp hz
    exact (hdropped k hk).2 o ho

/-- After every sequence of offers that do not fail, the archive knows them all. -/
theorem Best.offerAll {done : List (G × Vector F 11)} (hb : Best key capacity done a)
    {a' : BoundedProfitableArchive G F K} (h : a.offerAll key offers = .ok a') :
    Best key capacity (done ++ offers) a' := by
  induction offers generalizing a done with
  | nil =>
    cases h
    simpa using hb
  | cons p offers ih =>
    obtain ⟨gene, metrics⟩ := p
    unfold BoundedProfitableArchive.offerAll at h
    split at h
    next => simp at h
    next outcome next hoffer =>
      have hnext := ih (hb.offer hoffer) h
      rwa [List.append_assoc] at hnext

theorem Best.offerAll_error {done : List (G × Vector F 11)} (hb : Best key capacity done a)
    {e : OfferFailure} (h : a.offerAll key offers = .error e) :
    e = .sequenceOverflow ∧ 2 ^ 64 ≤ (done ++ offers).length := by
  induction offers generalizing a done with
  | nil => simp [BoundedProfitableArchive.offerAll] at h
  | cons p offers ih =>
    obtain ⟨gene, metrics⟩ := p
    unfold BoundedProfitableArchive.offerAll at h
    split at h
    next e' herror =>
      obtain ⟨he, hover⟩ := hb.indexed.offer_error herror
      have hsequence := hb.sequence
      refine ⟨by rw [← Except.error.inj h, he], ?_⟩
      simp only [List.length_append, List.length_cons]
      omega
    next outcome next hoffer =>
      have hnext := ih (hb.offer hoffer) h
      rwa [List.append_assoc] at hnext

/-- The archive fails only at the end of its admission sequence. Otherwise its indexes are exact,
every retained key has the first of its best qualifying offers, no dropped offer is better than
anything retained, and the retained profits are the top of the maxima of the keys, in whatever
order the offers came. An offer that is rejected changes nothing. -/
theorem archive_keeps_best (key : G → K) (capacity : Nat) (offers : List (G × Vector F 11)) :
    (∀ e, (new capacity : BoundedProfitableArchive G F K).offerAll key offers = .error e →
      e = .sequenceOverflow ∧ 2 ^ 64 ≤ offers.length) ∧
    (∀ a, (new capacity : BoundedProfitableArchive G F K).offerAll key offers = .ok a →
      a.capacity = capacity ∧ a.Indexed key ∧ (a.observations.map fun o => key o.gene).Nodup ∧
      (∀ o ∈ a.observations, qualifies o.metrics = true ∧ FirstBest key offers o) ∧
      (∀ p ∈ offers, qualifies p.2 = true → a.positions (key p.1) = none →
        ∀ o ∈ a.observations, netProfit p.2 ≤ netProfit o.metrics) ∧
      a.retainedNets.map ((↑) : ℚ → WithBot ℚ) =
        TopValues.top capacity (keyMaxima key offers) ∧
      ∀ offers' a', offers'.Perm offers →
        (new capacity : BoundedProfitableArchive G F K).offerAll key offers' = .ok a' →
        a'.retainedNets = a.retainedNets) ∧
    ∀ (a a' : BoundedProfitableArchive G F K) gene metrics outcome,
      a.offer key gene metrics = .ok (outcome, a') → outcome.isRejected = true → a' = a := by
  refine ⟨?_, ?_, ?_⟩
  · intro e h
    exact (best_new key capacity).offerAll_error h
  · intro a h
    have hb := (best_new key capacity).offerAll h
    rw [List.nil_append] at hb
    refine ⟨hb.capacity_eq, hb.indexed, hb.indexed.keys_nodup,
      fun o ho => ⟨hb.qualified o ho, hb.first o ho⟩,
      fun p hp hq hnone => (hb.dropped p hp hq hnone).2, hb.retainedNets_eq, ?_⟩
    intro offers' a' hperm h'
    have hb' := (best_new key capacity).offerAll h'
    rw [List.nil_append] at hb'
    have heq : a'.retainedNets.map ((↑) : ℚ → WithBot ℚ) =
        a.retainedNets.map ((↑) : ℚ → WithBot ℚ) := by
      rw [hb'.retainedNets_eq, hb.retainedNets_eq, keyMaxima_perm hperm]
    exact Multiset.map_injective WithBot.coe_injective heq
  · intro a a' gene metrics outcome h hr
    exact (offerStep_of_offer h).rejected hr

/-- Three identities and a fourth offer that brings the first one back. -/
def sampleOffers : List (Nat × Vector ℚ 11) :=
  [(0, 10), (1, 20), (2, 30), (0, 40)].map fun (index, net) =>
    (index, #v[net, 1, 10000, 1 / 10, 6 / 10, 12 / 10, net / 10, 5 / 10, 10, 5 / 10, 1 / 10])

theorem sampleOffers_keeps_best : ∃ a : BoundedProfitableArchive Nat ℚ Nat,
    (new 2).offerAll id sampleOffers = .ok a ∧ a.observations.map (·.gene) = [2, 0] ∧
      a.retainedNets.map ((↑) : ℚ → WithBot ℚ) =
        TopValues.top 2 (keyMaxima id sampleOffers) := by
  have hrun : ((new 2 : BoundedProfitableArchive Nat ℚ Nat).offerAll id
      sampleOffers).toOption.any (fun a => a.observations.map (·.gene) = [2, 0]) := by
    decide +kernel
  obtain ⟨a, ha, hgenes⟩ := Fallible.exists_ok_of_any hrun
  obtain ⟨_, _, _, _, _, htop, _⟩ := (archive_keeps_best id 2 sampleOffers).2.1 a ha
  exact ⟨a, ha, of_decide_eq_true hgenes, htop⟩

end BoundedProfitableArchive

end Neoethos
