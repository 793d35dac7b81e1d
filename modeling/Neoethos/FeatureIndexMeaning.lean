import Mathlib.Data.List.Forall2
import Mathlib.Data.List.Nodup
import Neoethos.Fallible
import Neoethos.FeatureIndex

namespace Neoethos

namespace CanonicalFeatureIndex

/-- No name occurs twice, and the map finds the position of every name. -/
structure Coherent (index : CanonicalFeatureIndex) : Prop where
  nodup : index.names.Nodup
  inverse : ∀ name idx, index.byName name = some idx ↔ index.names[idx]? = some name

/-- What an operation may do to the index: nothing but append names. -/
structure Grows (before after : CanonicalFeatureIndex) : Prop where
  coherent : after.Coherent
  names : before.names <+: after.names

theorem Coherent.refl_grows {index : CanonicalFeatureIndex} (h : index.Coherent) :
    index.Grows index := ⟨h, List.prefix_rfl⟩

theorem Grows.trans {a b c : CanonicalFeatureIndex} (hab : a.Grows b) (hbc : b.Grows c) :
    a.Grows c := ⟨hbc.coherent, hab.names.trans hbc.names⟩

theorem getElem?_of_prefix {before after : List String} {idx : Nat} {name : String}
    (h : before <+: after) (hn : before[idx]? = some name) : after[idx]? = some name := by
  obtain ⟨rest, rfl⟩ := h
  have hlt := (List.getElem?_eq_some_iff.mp hn).1
  rw [List.getElem?_append_left hlt, hn]

theorem Coherent.not_mem {index : CanonicalFeatureIndex} {name : String} (h : index.Coherent)
    (hn : index.byName name = none) : name ∉ index.names := by
  intro hm
  obtain ⟨idx, hlt, he⟩ := List.mem_iff_getElem.mp hm
  have hs := (h.inverse name idx).mpr (List.getElem?_eq_some_iff.mpr ⟨hlt, he⟩)
  rw [hn] at hs
  cases hs

theorem intern_spec {index after : CanonicalFeatureIndex} {name : String} {idx : Nat}
    (hc : index.Coherent) (h : index.intern name = (idx, after)) :
    index.Grows after ∧ after.names[idx]? = some name := by
  unfold intern at h
  split at h
  next found hfound =>
    cases h
    exact ⟨hc.refl_grows, (hc.inverse name _).mp hfound⟩
  next hnone =>
    cases h
    have hnew := hc.not_mem hnone
    refine ⟨⟨⟨?_, ?_⟩, List.prefix_append _ _⟩, by simp⟩
    · exact hc.nodup.append (List.nodup_singleton name) (by simpa using hnew)
    · intro other i
      by_cases ho : other = name
      · subst ho
        simp only [Function.update_self, Option.some.injEq]
        constructor
        · intro hi
          subst hi
          simp
        · intro hi
          rcases lt_or_ge i index.names.length with hlt | hge
          · rw [List.getElem?_append_left hlt] at hi
            exact absurd (List.mem_of_getElem? hi) hnew
          · have hlen := (List.getElem?_eq_some_iff.mp hi).1
            simp only [List.length_append, List.length_singleton] at hlen
            omega
      · show Function.update index.byName name (some index.names.length) other = some i ↔ _
        rw [Function.update_of_ne ho, hc.inverse]
        constructor
        · intro hi
          exact getElem?_of_prefix (List.prefix_append _ _) hi
        · intro hi
          rcases lt_or_ge i index.names.length with hlt | hge
          · rwa [List.getElem?_append_left hlt] at hi
          · rw [List.getElem?_append_right hge] at hi
            exact absurd (List.mem_of_getElem? hi) (by simpa using ho)

end CanonicalFeatureIndex

/-- A canonical index stands for the name that the local index stood for. -/
def SameName (names localNames : List String) (loc canonical : Nat) : Prop :=
  ∃ name, localNames[loc]? = some name ∧ names[canonical]? = some name

theorem SameName.mono {before after localNames : List String} {loc canonical : Nat}
    (hp : before <+: after) (h : SameName before localNames loc canonical) :
    SameName after localNames loc canonical := by
  obtain ⟨name, hl, hn⟩ := h
  exact ⟨name, hl, CanonicalFeatureIndex.getElem?_of_prefix hp hn⟩

/-- A remapped gene is the source gene up to its indices, and these keep their names. -/
structure KeepsMeaning {F : Type*} (names : List String) (r : Remapped F) : Prop where
  rest : r.target = { r.source with indices := r.target.indices }
  terms : List.Forall₂ (SameName names r.localNames) r.source.indices r.target.indices

theorem KeepsMeaning.mono {F : Type*} {before after : List String} {r : Remapped F}
    (hp : before <+: after) (h : KeepsMeaning before r) : KeepsMeaning after r :=
  ⟨h.rest, h.terms.imp fun _ _ hs => hs.mono hp⟩

namespace CanonicalFeatureIndex

variable {F : Type*} {index after : CanonicalFeatureIndex} {localNames : List String} {cursor : Nat}

/-- The names a failing term leaves behind are still appended only. -/
theorem remapTerms_spec {gene : Gene F} {term : Nat} {locals : List Nat}
    {result : Except String (List Nat)} (hc : index.Coherent)
    (h : remapTerms gene localNames cursor index term locals = (result, after)) :
    index.Grows after ∧
      ∀ indices, result = .ok indices →
        List.Forall₂ (SameName after.names localNames) locals indices := by
  induction locals generalizing index term result after with
  | nil =>
    cases h
    refine ⟨hc.refl_grows, ?_⟩
    intro indices he
    cases he
    exact List.Forall₂.nil
  | cons loc rest ih =>
    unfold remapTerms at h
    split at h
    next =>
      cases h
      exact ⟨hc.refl_grows, by intro _ he; cases he⟩
    next name hname =>
      split at h
      next =>
        cases h
        exact ⟨hc.refl_grows, by intro _ he; cases he⟩
      next =>
        rcases hi : index.intern name with ⟨idx, interned⟩
        rcases hr : remapTerms gene localNames cursor
          { interned with termsRemapped := interned.termsRemapped + 1 } (term + 1) rest
          with ⟨indices, last⟩
        rw [hi] at h
        simp only [hr, Prod.mk.injEq] at h
        obtain ⟨rfl, rfl⟩ := h
        obtain ⟨hgrow, hidx⟩ := intern_spec hc hi
        have hcounted : Coherent { interned with termsRemapped := interned.termsRemapped + 1 } :=
          ⟨hgrow.coherent.nodup, hgrow.coherent.inverse⟩
        obtain ⟨hlast, hterms⟩ := ih hcounted hr
        refine ⟨⟨hlast.coherent, hgrow.names.trans hlast.names⟩, ?_⟩
        intro out he
        obtain ⟨tail, htail, rfl⟩ := Fallible.map_ok_iff.mp he
        refine List.Forall₂.cons ⟨name, hname, ?_⟩ (hterms tail htail)
        exact getElem?_of_prefix hlast.names hidx

theorem remapGene_spec {gene : Gene F} {result : Except String (Gene F)} (hc : index.Coherent)
    (h : index.remapGene gene localNames cursor = (result, after)) :
    index.Grows after ∧
      ∀ out, result = .ok out → KeepsMeaning after.names ⟨gene, localNames, out⟩ := by
  unfold remapGene at h
  split at h
  next =>
    cases h
    exact ⟨hc.refl_grows, by intro _ he; cases he⟩
  next =>
    rcases hr : remapTerms gene localNames cursor index 0 gene.indices with ⟨indices, last⟩
    simp only [hr, Prod.mk.injEq] at h
    obtain ⟨rfl, rfl⟩ := h
    obtain ⟨hgrow, hterms⟩ := remapTerms_spec hc hr
    refine ⟨hgrow, ?_⟩
    intro out he
    obtain ⟨canonical, hok, rfl⟩ := Fallible.map_ok_iff.mp he
    exact ⟨rfl, hterms canonical hok⟩

theorem remapGenes_spec {genes outs : List (Gene F)} {failure : Option String}
    (hc : index.Coherent)
    (h : remapGenes localNames cursor index genes = (outs, failure, after)) :
    index.Grows after ∧
      ∀ p ∈ genes.zip outs, KeepsMeaning after.names ⟨p.1, localNames, p.2⟩ := by
  induction genes generalizing index outs failure after with
  | nil =>
    cases h
    exact ⟨hc.refl_grows, by simp⟩
  | cons gene rest ih =>
    unfold remapGenes at h
    split at h
    next e middle hg =>
      cases h
      exact ⟨(remapGene_spec hc hg).1, by simp⟩
    next out middle hg =>
      rcases hr : remapGenes localNames cursor middle rest with ⟨outs, failure, last⟩
      simp only [hr, Prod.mk.injEq] at h
      obtain ⟨rfl, rfl, rfl⟩ := h
      obtain ⟨hgrow, hgene⟩ := remapGene_spec hc hg
      obtain ⟨hlast, hrest⟩ := ih hgrow.coherent hr
      refine ⟨hgrow.trans hlast, ?_⟩
      intro p hp
      rw [List.zip_cons_cons] at hp
      rcases List.mem_cons.mp hp with rfl | hmem
      · exact (hgene out rfl).mono hlast.names
      · exact hrest p hmem

theorem remapPortfolio_spec {genes : List (Gene F)} (hc : index.Coherent) :
    index.Grows (index.remapPortfolio genes localNames cursor).2 ∧
      (index.remapPortfolio genes localNames cursor).2.names =
        (remapGenes localNames cursor index genes).2.2.names := by
  rcases hr : remapGenes localNames cursor index genes with ⟨outs, failure, last⟩
  obtain ⟨hgrow, -⟩ := remapGenes_spec hc hr
  unfold remapPortfolio
  rw [hr]
  cases failure with
  | some e => exact ⟨hgrow, rfl⟩
  | none =>
    by_cases hmore : index.names.length < last.names.length
    · simp only [hmore, if_true]
      exact ⟨⟨⟨hgrow.coherent.nodup, hgrow.coherent.inverse⟩, hgrow.names⟩, trivial⟩
    · simp only [hmore, if_false]
      exact ⟨hgrow, trivial⟩

theorem assertTermsInRange_ok {stage strategyId : String} {term : Nat} {indices : List Nat}
    (h : ∀ idx ∈ indices, idx < index.names.length) :
    index.assertTermsInRange stage strategyId term indices = .ok () := by
  induction indices generalizing term with
  | nil => rfl
  | cons idx rest ih =>
    have hlt := h idx List.mem_cons_self
    unfold assertTermsInRange
    rw [if_neg (by omega)]
    exact ih fun i hi => h i (List.mem_cons_of_mem idx hi)

theorem assertIndicesInRange_ok {genes : List (Gene F)} {stage : String}
    (h : ∀ gene ∈ genes, ∀ idx ∈ gene.indices, idx < index.names.length) :
    index.assertIndicesInRange genes stage = .ok () := by
  unfold assertIndicesInRange
  exact Fallible.forM_ok_iff.mpr fun gene hg => assertTermsInRange_ok (h gene hg)

end CanonicalFeatureIndex

open CanonicalFeatureIndex

variable {F : Type*}

theorem RemapCall.after_spec {index : CanonicalFeatureIndex} (hc : index.Coherent)
    (call : RemapCall F) :
    index.Grows (call.after index) ∧
      ∀ r ∈ call.remapped index, KeepsMeaning (call.after index).names r := by
  cases call with
  | remapGene gene localNames cursor =>
    rcases hg : index.remapGene gene localNames cursor with ⟨result, after⟩
    obtain ⟨hgrow, hmeaning⟩ := remapGene_spec hc hg
    simp only [RemapCall.after, RemapCall.remapped, hg]
    refine ⟨hgrow, ?_⟩
    intro r hr
    cases result with
    | error e => simp at hr
    | ok out =>
      rw [List.mem_singleton.mp hr]
      exact hmeaning out rfl
  | remapPortfolio genes localNames cursor =>
    obtain ⟨hgrow, hnames⟩ : index.Grows (index.remapPortfolio genes localNames cursor).2 ∧
        (index.remapPortfolio genes localNames cursor).2.names =
          (remapGenes localNames cursor index genes).2.2.names := remapPortfolio_spec hc
    refine ⟨hgrow, ?_⟩
    intro r hr
    obtain ⟨p, hp, rfl⟩ := List.mem_map.mp hr
    simp only [RemapCall.after]
    rw [hnames]
    exact (remapGenes_spec hc rfl).2 p hp

theorem coherent_new : CanonicalFeatureIndex.new.Coherent :=
  ⟨List.nodup_nil, by simp [CanonicalFeatureIndex.new]⟩

/-- The invariant of a run: the index is coherent and still means what it meant for every
gene remapped so far. -/
theorem featureIndex_run {history : List (List (Remapped F))} {index : CanonicalFeatureIndex}
    (h : (featureIndexMachine F).Run history index) :
    index.Coherent ∧ ∀ r ∈ history.flatten, KeepsMeaning index.names r := by
  refine Machine.Run.invariant
    (I := fun history (index : CanonicalFeatureIndex) =>
      index.Coherent ∧ ∀ r ∈ history.flatten, KeepsMeaning index.names r)
    ⟨coherent_new, by simp⟩ ?_ h
  intro history before call remapped after _ hi hn
  obtain ⟨hc, hold⟩ := hi
  obtain ⟨rfl, rfl⟩ := Prod.mk.inj (Option.some.inj hn)
  obtain ⟨hgrow, hnew⟩ := call.after_spec hc
  refine ⟨hgrow.coherent, ?_⟩
  intro r hr
  rw [List.flatten_append, List.flatten_singleton] at hr
  rcases List.mem_append.mp hr with hm | hm
  · exact (hold r hm).mono hgrow.names
  · exact hnew r hm

theorem names_prefix_of_exec {history later : List (List (Remapped F))}
    {index after : CanonicalFeatureIndex} {calls : List (RemapCall F)} (hc : index.Coherent)
    (h : (featureIndexMachine F).exec history index calls = some (later, after)) :
    index.names <+: after.names := by
  induction calls generalizing history index with
  | nil =>
    obtain ⟨-, rfl⟩ := Prod.mk.inj (Option.some.inj h)
    exact List.prefix_rfl
  | cons call rest ih =>
    have hgrow := (call.after_spec hc).1
    exact hgrow.names.trans (ih hgrow.coherent h)

theorem KeepsMeaning.getElem {names : List String} {r : Remapped F} (h : KeepsMeaning names r)
    {k loc canonical : Nat} (hl : r.source.indices[k]? = some loc)
    (hk : r.target.indices[k]? = some canonical) : SameName names r.localNames loc canonical := by
  obtain ⟨hlt, rfl⟩ := List.getElem?_eq_some_iff.mp hl
  obtain ⟨hkt, rfl⟩ := List.getElem?_eq_some_iff.mp hk
  exact h.terms.get hlt hkt

theorem KeepsMeaning.in_range {names : List String} {r : Remapped F} (h : KeepsMeaning names r)
    {idx : Nat} (hi : idx ∈ r.target.indices) : idx < names.length := by
  obtain ⟨k, hk, rfl⟩ := List.mem_iff_getElem.mp hi
  obtain ⟨name, -, hn⟩ := h.terms.get (h.terms.length_eq ▸ hk) hk
  exact (List.getElem?_eq_some_iff.mp hn).1

/-- Two canonical indices agree exactly when the names they came from do. -/
theorem canonical_eq_iff {index : CanonicalFeatureIndex} {r q : Remapped F} (hc : index.Coherent)
    (hr : KeepsMeaning index.names r) (hq : KeepsMeaning index.names q) {j k loc loc' i i' : Nat}
    (hj : r.source.indices[j]? = some loc) (hi : r.target.indices[j]? = some i)
    (hk : q.source.indices[k]? = some loc') (hi' : q.target.indices[k]? = some i') :
    i = i' ↔ r.localNames[loc]? = q.localNames[loc']? := by
  obtain ⟨name, hname, hn⟩ := hr.getElem hj hi
  obtain ⟨name', hname', hn'⟩ := hq.getElem hk hi'
  rw [hname, hname', Option.some.injEq]
  constructor
  · intro he
    rw [he, hn'] at hn
    exact (Option.some.inj hn).symm
  · intro he
    have hpos := (hc.inverse name i).mpr hn
    have hpos' := (hc.inverse name' i').mpr hn'
    rw [he, hpos'] at hpos
    exact (Option.some.inj hpos).symm

/-- The canonical index after any calls, failing ones included. The genes of `history` were
remapped at earlier states, so this says of every one of them that it keeps its meaning. -/
theorem canonical_index_keeps_meaning {history : List (List (Remapped F))}
    {index : CanonicalFeatureIndex} (h : (featureIndexMachine F).Run history index) :
    index.names.Nodup ∧
    (∀ name idx, index.byName name = some idx ↔ index.names[idx]? = some name) ∧
    (∀ calls later after, (featureIndexMachine F).exec history index calls = some (later, after) →
      index.names <+: after.names) ∧
    (∀ r ∈ history.flatten,
      r.target = { r.source with indices := r.target.indices } ∧
      r.target.indices.length = r.source.indices.length ∧
      ∀ (k loc canonical : Nat), r.source.indices[k]? = some loc →
        r.target.indices[k]? = some canonical →
        ∃ name, r.localNames[loc]? = some name ∧ index.names[canonical]? = some name) ∧
    (∀ r ∈ history.flatten, ∀ q ∈ history.flatten, ∀ (j k loc loc' i i' : Nat),
      r.source.indices[j]? = some loc → r.target.indices[j]? = some i →
      q.source.indices[k]? = some loc' → q.target.indices[k]? = some i' →
      (i = i' ↔ r.localNames[loc]? = q.localNames[loc']?)) ∧
    (∀ genes stage, (∀ gene ∈ genes, ∃ r ∈ history.flatten, r.target = gene) →
      index.assertIndicesInRange genes stage = .ok ()) := by
  obtain ⟨hc, hmeaning⟩ := featureIndex_run h
  refine ⟨hc.nodup, hc.inverse, ?_, ?_, ?_, ?_⟩
  · intro calls later after he
    exact names_prefix_of_exec hc he
  · intro r hr
    have hm := hmeaning r hr
    exact ⟨hm.rest, hm.terms.length_eq.symm, fun k loc canonical hl hk => hm.getElem hl hk⟩
  · intro r hr q hq j k loc loc' i i' hj hi hk hi'
    exact canonical_eq_iff hc (hmeaning r hr) (hmeaning q hq) hj hi hk hi'
  · intro genes stage hg
    apply assertIndicesInRange_ok
    intro gene hm idx hi
    obtain ⟨r, hr, rfl⟩ := hg gene hm
    exact (hmeaning r hr).in_range hi

def sampleGene (strategyId : String) (indices : List Nat) : Gene Nat where
  indices := indices
  weights := indices
  longThreshold := 0
  shortThreshold := 0
  fitness := 0
  sharpeRatio := 0
  winRate := 0
  maxDrawdown := 0
  profitFactor := 0
  expectancy := 0
  tradesCount := 0
  generation := 0
  strategyId := strategyId
  useOb := false
  useFvg := false
  useLiqSweep := false
  mtfConfirmation := false
  usePremiumDiscount := false
  useInducement := false
  useBos := false
  useChoch := false
  useEqh := false
  useEql := false
  useDisplacement := false
  tpPips := 0
  slPips := 0
  slicePassRate := 0
  consistency := 0
  stopVolMult := 0

/-- Batch 5 fails at its second term, after it interned its first name. -/
def sampleCalls : List (RemapCall Nat) :=
  [.remapGene (sampleGene "g3" [1]) ["x", "shared"] 3,
    .remapGene (sampleGene "greedy" [0, 7]) ["only"] 5,
    .remapPortfolio [sampleGene "g11" [2, 0]] ["p", "q", "shared"] 11]

theorem sampleCalls_keep_meaning : ∃ history index,
    (featureIndexMachine Nat).Run history index ∧ history.flatten.length = 2 ∧
      index.names = ["shared", "only", "p"] ∧
      ∀ r ∈ history.flatten, index.assertIndicesInRange [r.target] "run end" = .ok () := by
  obtain ⟨history, index, hrun, hp⟩ := Machine.run_of_exec_start (M := featureIndexMachine Nat)
    sampleCalls
    (fun history index => history.flatten.length = 2 ∧ index.names = ["shared", "only", "p"])
    (by decide +kernel)
  obtain ⟨hlen, hnames⟩ := of_decide_eq_true hp
  refine ⟨history, index, hrun, hlen, hnames, ?_⟩
  intro r hr
  obtain ⟨-, -, -, -, -, hrange⟩ := canonical_index_keeps_meaning hrun
  refine hrange _ _ ?_
  intro gene hg
  exact ⟨r, hr, (List.mem_singleton.mp hg).symm⟩

end Neoethos
