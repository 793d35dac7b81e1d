import Neoethos.FeatureAlignmentMeaning

namespace Neoethos

open Fallible (bind_ok_iff check_ok_iff refuse_ok_iff require_ok_iff mapM_ok_iff mapError_ok_iff
  map_ok_iff)

section Observed

variable {availableAt maxAge : Nat → Option Int} {forwardFill : Bool} {rows : Nat} {t : Int}

theorem lastObserved_some {row : Nat} {available : Int}
    (h : lastObserved availableAt rows t = some (row, available)) :
    row < rows ∧ availableAt row = some available ∧ available ≤ t := by
  obtain ⟨candidate, hcandidate, hrow⟩ := List.mem_filterMap.mp (List.mem_of_getLast? h)
  obtain ⟨_, hfound, hpair⟩ := Option.map_eq_some_iff.mp hrow
  obtain ⟨rfl, rfl⟩ := Prod.mk.inj hpair
  obtain ⟨hsome, hle⟩ := Option.filter_eq_some_iff.mp hfound
  exact ⟨List.mem_range.mp hcandidate, hsome, of_decide_eq_true hle⟩

theorem observedRow_source {featureRow : Nat}
    (h : observedRow availableAt maxAge forwardFill rows t = .source featureRow) :
    ∃ available, lastObserved availableAt rows t = some (featureRow, available) := by
  unfold observedRow at h
  split at h
  next => cases h
  next row available hlast =>
    split at h
    next => cases h
    next =>
      split at h
      next => cases h
      next =>
        obtain rfl := AlignedRow.source.inj h
        exact ⟨available, hlast⟩

theorem observedRow_lt {featureRow : Nat}
    (h : observedRow availableAt maxAge forwardFill rows t = .source featureRow) :
    featureRow < rows := by
  obtain ⟨_, hlast⟩ := observedRow_source h
  exact (lastObserved_some hlast).1

end Observed

section Paths

variable {F : Type} [FloatOps F] {nan : F} {baseMs featureOpenMs : List Int}
  {availableAtMs : List (Option Int)} {featureColumns out : List (FeatureColumnF64 F)}
  {forwardFill : Bool} {freshness : AlignmentFreshness}

/-- An aligned column shows, at each base time, the row that its source lets observe then. -/
def Observes (nan : F) (baseMs : List Int) (availableAt maxAge : Nat → Option Int)
    (forwardFill : Bool) (rows : Nat) (source aligned : FeatureColumnF64 F) : Prop :=
  aligned.name = source.name ∧ ∀ i, aligned.cell i = (baseMs[i]?).bind fun t =>
    source.shown nan (observedRow availableAt maxAge forwardFill rows t)

theorem ascending_of_validateMonotonic {values : List Int}
    (h : validateMonotonicTimestamps values = .ok ()) : values.Pairwise (· < ·) := by
  induction values with
  | nil => exact List.Pairwise.nil
  | cons first rest ih =>
    cases rest with
    | nil => exact List.pairwise_singleton _ _
    | cons second rest =>
      obtain ⟨hstep, h⟩ := check_ok_iff.mp h
      have hlt : first < second := not_le.mp (refuse_ok_iff.mp hstep)
      have hrest := ih h
      refine List.pairwise_cons.mpr ⟨?_, hrest⟩
      intro value hvalue
      obtain rfl | hvalue := List.mem_cons.mp hvalue
      · exact hlt
      · exact hlt.trans (List.rel_of_pairwise_cons hrest hvalue)

theorem ascending_of_canonical {values : List Int}
    (h : validateCanonicalMillisecondTimestamps values = .ok ()) : values.Pairwise (· < ·) := by
  obtain ⟨_, h⟩ := check_ok_iff.mp h
  obtain ⟨_, h⟩ := check_ok_iff.mp h
  exact ascending_of_validateMonotonic h

omit [FloatOps F] in
theorem length_of_checkColumns {rows : Nat} {names : List String}
    (h : checkColumns rows names featureColumns = .ok ()) :
    ∀ column ∈ featureColumns, column.values.length = rows := by
  induction featureColumns generalizing names with
  | nil => exact fun _ hmem => absurd hmem List.not_mem_nil
  | cons column columns ih =>
    obtain ⟨hlength, h⟩ := check_ok_iff.mp h
    obtain ⟨_, h⟩ := check_ok_iff.mp h
    have hlength : column.values.length = rows := not_not.mp (refuse_ok_iff.mp hlength)
    exact List.forall_mem_cons.mpr ⟨hlength, ih h⟩

theorem align_observes
    (h : alignFeatureColumnsAtExplicitAvailabilityMsWithFreshness nan baseMs featureOpenMs
      availableAtMs featureColumns forwardFill freshness = .ok out) :
    availableAtMs.length = featureOpenMs.length ∧
      List.Forall₂ (Observes nan baseMs (fun row => availableAtMs[row]?.join)
        (freshness.maxAge featureOpenMs availableAtMs) forwardFill availableAtMs.length)
        featureColumns out := by
  obtain ⟨_, h⟩ := check_ok_iff.mp h
  obtain ⟨hbase, h⟩ := check_ok_iff.mp h
  obtain ⟨_, h⟩ := check_ok_iff.mp h
  obtain ⟨hlength, h⟩ := check_ok_iff.mp h
  obtain ⟨hschedule, h⟩ := check_ok_iff.mp h
  obtain ⟨hcolumns, h⟩ := check_ok_iff.mp h
  obtain ⟨rows, hrows, h⟩ := bind_ok_iff.mp h
  have hlength : availableAtMs.length = featureOpenMs.length :=
    not_not.mp (refuse_ok_iff.mp hlength)
  have hbase := ascending_of_canonical (mapError_ok_iff.mp hbase)
  have hscheduled : Scheduled availableAtMs := by
    obtain ⟨hpairs, _⟩ := checkSchedule_ok hschedule
    rw [List.map_snd_zip (by omega)] at hpairs
    exact hpairs
  have hrows := alignRows_ok hscheduled hbase (fun _ _ => Nat.zero_le _) hrows
  have hlengths := length_of_checkColumns hcolumns
  refine ⟨hlength, ((List.forall₂_and_left _ _).mpr ⟨hlengths, mapM_ok_iff.mp h⟩).imp ?_⟩
  intro source aligned hboth
  obtain ⟨hsource, haligned⟩ := hboth
  have hinside (featureRow : Nat) (hmem : AlignedRow.source featureRow ∈ rows) :
      featureRow < source.values.length := by
    rw [hrows] at hmem
    obtain ⟨t, _, hrow⟩ := List.mem_map.mp hmem
    have hlt := observedRow_lt hrow
    omega
  obtain ⟨hname, hcells⟩ := alignedColumn_ok hinside haligned
  refine ⟨hname, ?_⟩
  intro i
  rw [hcells, hrows, List.getElem?_map, Option.bind_map]
  rfl

def lagAvailability (featureMs : List Int) (availabilityLagMs : Int) (row : Nat) : Option Int :=
  (featureMs[row]?).map (· + availabilityLagMs)

def nextOpen (featureOpenMs : List Int) (row : Nat) : Option Int := featureOpenMs[row + 1]?

def openSpan (featureOpenMs : List Int) (row : Nat) : Option Int := do
  let next ← featureOpenMs[row + 1]?
  let openMs ← featureOpenMs[row]?
  return next - openMs

theorem alignByMs_observes {maxAgeMs : Option Int} {availabilityLagMs : Int}
    (h : alignFeatureColumnsByMs nan baseMs featureOpenMs featureColumns forwardFill maxAgeMs
      availabilityLagMs = .ok out) :
    List.Forall₂ (Observes nan baseMs (lagAvailability featureOpenMs availabilityLagMs)
      (fun _ => maxAgeMs) forwardFill featureOpenMs.length) featureColumns out := by
  obtain ⟨_, h⟩ := check_ok_iff.mp h
  obtain ⟨availableAt, havailable, h⟩ := bind_ok_iff.mp h
  have hshift : availableAt =
      featureOpenMs.map fun timestamp => some (timestamp + availabilityLagMs) := by
    have hpairs := Fallible.eq_map_of_mapM_ok
      (g := fun entry => some (entry.1 + availabilityLagMs)) ?_ havailable
    · rw [hpairs, ← List.zipIdx_map_fst 0 featureOpenMs, List.map_map, List.zipIdx_map_fst]
      rfl
    · intro entry available hentry
      obtain ⟨shifted, hshifted, rfl⟩ := map_ok_iff.mp hentry
      obtain ⟨_, rfl⟩ := I64.checkedAdd_eq_some.mp (require_ok_iff.mp hshifted)
      rfl
  obtain ⟨hlength, hobserves⟩ := align_observes h
  rw [hlength] at hobserves
  have hlag : (fun row => availableAt[row]?.join) =
      lagAvailability featureOpenMs availabilityLagMs := by
    funext row
    unfold lagAvailability
    rw [hshift, List.getElem?_map]
    cases featureOpenMs[row]? <;> rfl
  rw [hlag] at hobserves
  exact hobserves

theorem alignCalendar_observes
    (h : alignCalendarFeatureColumnsByObservedNextOpenMs nan baseMs featureOpenMs featureColumns
      forwardFill = .ok out) :
    List.Forall₂ (Observes nan baseMs (nextOpen featureOpenMs) (openSpan featureOpenMs) forwardFill
      featureOpenMs.length) featureColumns out := by
  obtain ⟨hlength, hobserves⟩ := align_observes h
  have hnext (row : Nat) : ((featureOpenMs.drop 1).map some ++
      (if featureOpenMs = [] then [] else [none]))[row]?.join = featureOpenMs[row + 1]? := by
    cases featureOpenMs with
    | nil => rfl
    | cons first rest =>
      show (rest.map some ++ [none])[row]?.join = rest[row]?
      by_cases hrow : row < rest.length
      · rw [List.getElem?_append_left (by simpa using hrow), List.getElem?_map,
          List.getElem?_eq_getElem hrow]
        rfl
      · rw [List.getElem?_append_right (by simpa using hrow),
          List.getElem?_eq_none (l := rest) (by omega)]
        cases row - (rest.map some).length <;> rfl
  have hspan : AlignmentFreshness.observedSourceSpan.maxAge featureOpenMs
      ((featureOpenMs.drop 1).map some ++ (if featureOpenMs = [] then [] else [none])) =
        openSpan featureOpenMs := by
    funext row
    unfold AlignmentFreshness.maxAge openSpan
    rw [hnext]
  rw [hlength, hspan] at hobserves
  simp only [hnext] at hobserves
  exact hobserves

end Paths

section Known

variable {F : Type} {nan : F} {availableAt availableAt' maxAge maxAge' : Nat → Option Int}
  {forwardFill : Bool} {rows rows' : Nat} {t : Int}

/-- Two schedules have the same rows, of the same ages, available up to a time. -/
structure KnownAlike (availableAt availableAt' maxAge maxAge' : Nat → Option Int) (t : Int) :
    Prop where
  available : ∀ row available, available ≤ t →
    (availableAt row = some available ↔ availableAt' row = some available)
  age : ∀ row available, available ≤ t → availableAt row = some available →
    maxAge row = maxAge' row

/-- A column and its changed twin agree in the rows that are available up to a time. -/
def SameKnown (availableAt : Nat → Option Int) (t : Int) (column changed : FeatureColumnF64 F) :
    Prop :=
  column.name = changed.name ∧ ∀ row available, availableAt row = some available →
    available ≤ t → column.cell row = changed.cell row

theorem filterMap_range_of_none {α : Type*} {f : Nat → Option α} {count rows : Nat}
    (hcount : count ≤ rows) (hbehind : ∀ row, count ≤ row → f row = none) :
    (List.range rows).filterMap f = (List.range count).filterMap f := by
  induction hcount with
  | refl => rfl
  | @step rows hle ih =>
    rw [List.range_succ, List.filterMap_append, ih, List.filterMap_cons, hbehind rows hle]
    simp

theorem KnownAlike.lastObserved_eq (h : KnownAlike availableAt availableAt' maxAge maxAge' t)
    (hrows : ∀ row, rows ≤ row → availableAt row = none)
    (hrows' : ∀ row, rows' ≤ row → availableAt' row = none) {time : Int} (ht : time ≤ t) :
    lastObserved availableAt rows time = lastObserved availableAt' rows' time := by
  have hsame (row : Nat) :
      (availableAt row).filter (· ≤ time) = (availableAt' row).filter (· ≤ time) := by
    apply Option.ext
    intro available
    simp only [Option.filter_eq_some_iff, decide_eq_true_eq]
    constructor
    · intro hboth
      exact ⟨(h.available row available (hboth.2.trans ht)).mp hboth.1, hboth.2⟩
    · intro hboth
      exact ⟨(h.available row available (hboth.2.trans ht)).mpr hboth.1, hboth.2⟩
  unfold lastObserved
  rw [← filterMap_range_of_none (Nat.le_max_left rows rows'),
    ← filterMap_range_of_none (Nat.le_max_right rows rows')]
  · simp only [hsame]
  · intro row hle
    rw [hrows' row hle]
    rfl
  · intro row hle
    rw [hrows row hle]
    rfl

theorem KnownAlike.observedRow_eq (h : KnownAlike availableAt availableAt' maxAge maxAge' t)
    (hrows : ∀ row, rows ≤ row → availableAt row = none)
    (hrows' : ∀ row, rows' ≤ row → availableAt' row = none) {time : Int} (ht : time ≤ t) :
    observedRow availableAt maxAge forwardFill rows time =
      observedRow availableAt' maxAge' forwardFill rows' time := by
  unfold observedRow
  rw [← h.lastObserved_eq hrows hrows' ht]
  cases hlast : lastObserved availableAt rows time with
  | none => rfl
  | some found =>
    obtain ⟨row, available⟩ := found
    obtain ⟨_, hsome, hle⟩ := lastObserved_some hlast
    dsimp only
    rw [h.age row available (hle.trans ht) hsome]

/-- What a column shows up to a time is settled by the rows that are available by then. -/
theorem Observes.causal {baseMs baseMs' : List Int}
    {source source' aligned aligned' : FeatureColumnF64 F}
    (ho : Observes nan baseMs availableAt maxAge forwardFill rows source aligned)
    (ho' : Observes nan baseMs' availableAt' maxAge' forwardFill rows' source' aligned')
    (h : KnownAlike availableAt availableAt' maxAge maxAge' t)
    (hrows : ∀ row, rows ≤ row → availableAt row = none)
    (hrows' : ∀ row, rows' ≤ row → availableAt' row = none)
    (hcells : SameKnown availableAt t source source') {i : Nat} (hbase : baseMs[i]? = baseMs'[i]?)
    (ht : ∀ time ∈ baseMs[i]?, time ≤ t) : aligned.cell i = aligned'.cell i := by
  rw [ho.2 i, ho'.2 i, ← hbase]
  cases htime : baseMs[i]? with
  | none => rfl
  | some time =>
    have ht := ht time htime
    dsimp only [Option.bind_some]
    rw [← h.observedRow_eq hrows hrows' ht]
    cases hrow : observedRow availableAt maxAge forwardFill rows time with
    | alignmentMissing => rfl
    | stale => rfl
    | source row =>
      obtain ⟨available, hlast⟩ := observedRow_source hrow
      obtain ⟨_, hsome, hle⟩ := lastObserved_some hlast
      show source.maskedCell nan row = source'.maskedCell nan row
      unfold FeatureColumnF64.maskedCell
      rw [hcells.2 row available hsome (hle.trans ht)]

theorem forall₂_square {α β γ δ : Type*} {R : α → β → Prop} {S : α → γ → Prop} {T : β → δ → Prop}
    {as : List α} {bs : List β} {cs : List γ} {ds : List δ} (hab : List.Forall₂ R as bs)
    (hac : List.Forall₂ S as cs) (hbd : List.Forall₂ T bs ds) :
    List.Forall₂ (fun c d => ∃ a b, R a b ∧ S a c ∧ T b d) cs ds := by
  induction hab generalizing cs ds with
  | nil =>
    cases hac
    cases hbd
    exact .nil
  | @cons a b _ _ hr _ ih =>
    obtain _ | ⟨hs, hac⟩ := hac
    obtain _ | ⟨ht, hbd⟩ := hbd
    exact .cons ⟨a, b, hr, hs, ht⟩ (ih hac hbd)

/-- Two runs whose sources are alike up to a time show the same up to that time. -/
theorem columns_causal {past future future' : List Int}
    {columns changed out out' : List (FeatureColumnF64 F)}
    (hpast : ∀ time ∈ past, time ≤ t)
    (h : KnownAlike availableAt availableAt' maxAge maxAge' t)
    (hrows : ∀ row, rows ≤ row → availableAt row = none)
    (hrows' : ∀ row, rows' ≤ row → availableAt' row = none)
    (hcolumns : List.Forall₂ (SameKnown availableAt t) columns changed)
    (hout : List.Forall₂ (Observes nan (past ++ future) availableAt maxAge forwardFill rows)
      columns out)
    (hout' : List.Forall₂ (Observes nan (past ++ future') availableAt' maxAge' forwardFill rows')
      changed out') :
    List.Forall₂ (fun aligned aligned' => aligned.name = aligned'.name ∧
      ∀ i < past.length, aligned.cell i = aligned'.cell i) out out' := by
  refine (forall₂_square hcolumns hout hout').imp ?_
  intro aligned aligned' hboth
  obtain ⟨source, source', hsame, ho, ho'⟩ := hboth
  refine ⟨ho.1.trans (hsame.1.trans ho'.1.symm), ?_⟩
  intro i hi
  have hfront (rest : List Int) : (past ++ rest)[i]? = some past[i] := by
    rw [List.getElem?_append_left hi, List.getElem?_eq_getElem hi]
  refine ho.causal ho' h hrows hrows' hsame ((hfront future).trans (hfront future').symm) ?_
  intro time htime
  obtain rfl := Option.some.inj ((hfront future).symm.trans htime)
  exact hpast _ (List.getElem_mem hi)

end Known

section Grids

variable {known later later' : List Int} {t : Int}

/-- What a list holds up to a bound does not depend on an end that lies above the bound. -/
theorem getElem?_append_iff (hlater : ∀ y ∈ later, t < y) (hlater' : ∀ y ∈ later', t < y)
    {row : Nat} {x : Int} (hx : x ≤ t) :
    (known ++ later)[row]? = some x ↔ (known ++ later')[row]? = some x := by
  by_cases hrow : row < known.length
  · rw [List.getElem?_append_left hrow, List.getElem?_append_left hrow]
  · have hle : known.length ≤ row := by omega
    rw [List.getElem?_append_right hle, List.getElem?_append_right hle]
    constructor
    · intro hget
      have hlt := hlater x (List.mem_of_getElem? hget)
      omega
    · intro hget
      have hlt := hlater' x (List.mem_of_getElem? hget)
      omega

theorem lt_known_of_getElem? (hlater : ∀ y ∈ later, t < y) {row : Nat} {x : Int} (hx : x ≤ t)
    (hget : (known ++ later)[row]? = some x) : row < known.length := by
  by_contra hrow
  have hle : known.length ≤ row := by omega
  rw [List.getElem?_append_right hle] at hget
  have hlt := hlater x (List.mem_of_getElem? hget)
  omega

theorem lagAvailability_eq_some {featureMs : List Int} {lag available : Int} {row : Nat} :
    lagAvailability featureMs lag row = some available ↔
      featureMs[row]? = some (available - lag) := by
  unfold lagAvailability
  rw [Option.map_eq_some_iff]
  constructor
  · intro h
    obtain ⟨openMs, hopen, rfl⟩ := h
    rw [hopen]
    exact congrArg some (by omega)
  · intro h
    exact ⟨available - lag, h, by omega⟩

theorem lagAvailability_of_length_le {featureMs : List Int} {lag : Int} (row : Nat)
    (hle : featureMs.length ≤ row) : lagAvailability featureMs lag row = none := by
  unfold lagAvailability
  rw [List.getElem?_eq_none hle]
  rfl

theorem nextOpen_of_length_le {featureOpenMs : List Int} (row : Nat)
    (hle : featureOpenMs.length ≤ row) : nextOpen featureOpenMs row = none :=
  List.getElem?_eq_none (by omega)

theorem knownAlike_lag {lag : Int} {maxAge : Nat → Option Int}
    (hlater : ∀ y ∈ later, t < y + lag) (hlater' : ∀ y ∈ later', t < y + lag) :
    KnownAlike (lagAvailability (known ++ later) lag) (lagAvailability (known ++ later') lag)
      maxAge maxAge t := by
  refine ⟨?_, fun _ _ _ _ => rfl⟩
  intro row available hle
  rw [lagAvailability_eq_some, lagAvailability_eq_some]
  apply getElem?_append_iff (t := t - lag)
  · intro y hy
    have hlt := hlater y hy
    omega
  · intro y hy
    have hlt := hlater' y hy
    omega
  · omega

theorem knownAlike_nextOpen (hlater : ∀ y ∈ later, t < y) (hlater' : ∀ y ∈ later', t < y) :
    KnownAlike (nextOpen (known ++ later)) (nextOpen (known ++ later'))
      (openSpan (known ++ later)) (openSpan (known ++ later')) t := by
  refine ⟨fun row available hle => getElem?_append_iff hlater hlater' hle, ?_⟩
  intro row available hle hnext
  have hlt := lt_known_of_getElem? hlater hle hnext
  have hnext' := (getElem?_append_iff hlater hlater' hle).mp hnext
  unfold openSpan
  rw [show (known ++ later)[row + 1]? = some available from hnext, hnext',
    List.getElem?_append_left (by omega), List.getElem?_append_left (by omega)]

end Grids

section Alignment

variable {F : Type} [FloatOps F]

/-- An aligned column shows at each base time the last source row that is available then, and
no change of the rows and times that are still ahead changes what it shows up to a time. -/
theorem higher_timeframe_alignment_causal (nan : F)
    (columns changed out out' : List (FeatureColumnF64 F)) (forwardFill : Bool)
    (maxAgeMs : Option Int) (availabilityLagMs : Int) :
    (∀ baseMs featureMs, alignFeatureColumnsByMs nan baseMs featureMs columns forwardFill maxAgeMs
        availabilityLagMs = .ok out →
      List.Forall₂ (Observes nan baseMs (lagAvailability featureMs availabilityLagMs)
        (fun _ => maxAgeMs) forwardFill featureMs.length) columns out) ∧
    (∀ baseMs featureOpenMs, alignCalendarFeatureColumnsByObservedNextOpenMs nan baseMs
        featureOpenMs columns forwardFill = .ok out →
      List.Forall₂ (Observes nan baseMs (nextOpen featureOpenMs) (openSpan featureOpenMs)
        forwardFill featureOpenMs.length) columns out) ∧
    ∀ (t : Int) (past future future' known later later' : List Int), (∀ time ∈ past, time ≤ t) →
      ((∀ openMs ∈ later, t < openMs + availabilityLagMs) →
        (∀ openMs ∈ later', t < openMs + availabilityLagMs) →
        List.Forall₂ (SameKnown (lagAvailability (known ++ later) availabilityLagMs) t) columns
          changed →
        alignFeatureColumnsByMs nan (past ++ future) (known ++ later) columns forwardFill maxAgeMs
          availabilityLagMs = .ok out →
        alignFeatureColumnsByMs nan (past ++ future') (known ++ later') changed forwardFill
          maxAgeMs availabilityLagMs = .ok out' →
        List.Forall₂ (fun aligned aligned' => aligned.name = aligned'.name ∧
          ∀ i < past.length, aligned.cell i = aligned'.cell i) out out') ∧
      ((∀ openMs ∈ later, t < openMs) → (∀ openMs ∈ later', t < openMs) →
        List.Forall₂ (SameKnown (nextOpen (known ++ later)) t) columns changed →
        alignCalendarFeatureColumnsByObservedNextOpenMs nan (past ++ future) (known ++ later)
          columns forwardFill = .ok out →
        alignCalendarFeatureColumnsByObservedNextOpenMs nan (past ++ future') (known ++ later')
          changed forwardFill = .ok out' →
        List.Forall₂ (fun aligned aligned' => aligned.name = aligned'.name ∧
          ∀ i < past.length, aligned.cell i = aligned'.cell i) out out') := by
  refine ⟨fun _ _ h => alignByMs_observes h, fun _ _ h => alignCalendar_observes h, ?_⟩
  intro t past future future' known later later' hpast
  constructor
  · intro hlater hlater' hcolumns h h'
    exact columns_causal hpast (knownAlike_lag hlater hlater') lagAvailability_of_length_le
      lagAvailability_of_length_le hcolumns (alignByMs_observes h) (alignByMs_observes h')
  · intro hlater hlater' hcolumns h h'
    exact columns_causal hpast (knownAlike_nextOpen hlater hlater') nextOpen_of_length_le
      nextOpen_of_length_le hcolumns (alignCalendar_observes h) (alignCalendar_observes h')

/-- A run that ends behind the base time 3 s, and one that goes on with a changed open row and a
further one. -/
theorem weekly_alignment_causal :
    ∃ out out' : List (FeatureColumnF64 ℚ),
      alignCalendarFeatureColumnsByObservedNextOpenMs 0
        ([946684801000, 946684802000, 946684803000] ++ []) ([946684800000, 946684802000] ++ [])
        [⟨"close", [5, 7], [.valid, .valid]⟩] true = .ok out ∧
      alignCalendarFeatureColumnsByObservedNextOpenMs 0
        ([946684801000, 946684802000, 946684803000] ++ [946684804000])
        ([946684800000, 946684802000] ++ [946684804000])
        [⟨"close", [5, 9, 4], [.valid, .valid, .valid]⟩] true = .ok out' ∧
      List.Forall₂ (fun aligned aligned' => aligned.name = aligned'.name ∧
        ∀ i < 3, aligned.cell i = aligned'.cell i) out out' := by
  refine ⟨[⟨"close", [0, 5, 5], [.alignmentMissing, .valid, .valid]⟩],
    [⟨"close", [0, 5, 5, 9], [.alignmentMissing, .valid, .valid, .valid]⟩], by decide +kernel,
    by decide +kernel, ?_⟩
  refine ((higher_timeframe_alignment_causal 0 [⟨"close", [5, 7], [.valid, .valid]⟩]
    [⟨"close", [5, 9, 4], [.valid, .valid, .valid]⟩] _ _ true none 0).2.2 946684803000
    [946684801000, 946684802000, 946684803000] [] [946684804000] [946684800000, 946684802000] []
    [946684804000] (by decide)).2 (by decide) (by decide) (.cons ⟨rfl, ?_⟩ .nil)
    (by decide +kernel) (by decide +kernel)
  intro row available hnext hle
  match row with
  | 0 => rfl
  | row + 1 => cases hnext

end Alignment

end Neoethos
