import Neoethos.CapturePages
import Neoethos.Pagination

namespace Neoethos

open Pagination

namespace HonestBroker

variable {α : Type*} {timestamp : α → Int} {broker : HonestBroker α timestamp}

theorem mem_range {lower upper : Int} {x : α} :
    x ∈ broker.range lower upper ↔ x ∈ broker.log ∧ lower ≤ timestamp x ∧ timestamp x < upper := by
  simp [range]

theorem range_sorted (lower upper : Int) : Sorted timestamp (broker.range lower upper) :=
  broker.chronological.sublist List.filter_sublist

theorem below_range {lower upper t : Int} (ht : t ≤ upper) :
    below timestamp t (broker.range lower upper) = broker.range lower t := by
  unfold below range
  rw [List.filter_filter]
  apply List.filter_congr
  intro x _
  apply Bool.eq_iff_iff.mpr
  simp only [Bool.and_eq_true, decide_eq_true_eq]
  omega

theorem repeats_range {lower upper t : Int} :
    Repeats timestamp (broker.range lower upper) t ↔
      lower ≤ t ∧ t < upper ∧ Repeats timestamp broker.log t := by
  have inside : lower ≤ t ∧ t < upper →
      (Repeats timestamp (broker.range lower upper) t ↔ Repeats timestamp broker.log t) := by
    intro ht
    apply repeats_filter
    rintro x _ rfl
    simpa using ht
  constructor
  · intro h
    obtain ⟨x, hx, rfl⟩ := List.mem_map.mp h.mem
    have bounds := (mem_range.mp hx).2
    exact ⟨bounds.1, bounds.2, (inside bounds).mp h⟩
  · rintro ⟨hl, hu, h⟩
    exact (inside ⟨hl, hu⟩).mpr h

theorem range_append {lower mid upper : Int} (hl : lower ≤ mid) (hu : mid ≤ upper) :
    broker.range lower upper = broker.range lower mid ++ broker.range mid upper := by
  have hlate : (broker.range lower upper).filter (fun x => mid ≤ timestamp x) =
      broker.range mid upper := by
    unfold range
    rw [List.filter_filter]
    apply List.filter_congr
    intro x _
    apply Bool.eq_iff_iff.mpr
    simp only [Bool.and_eq_true, decide_eq_true_eq]
    omega
  rw [← below_append (range_sorted lower upper) mid, below_range hu, hlate]

end HonestBroker

/-- How a page source answers for an honest broker: a page is kept when its timestamps
are different, its entries are valid and, where a page needs entries, it has some. -/
structure PageSource.Serves {α β E : Type*} {timestamp : α → Int} (source : PageSource β E)
    (broker : HonestBroker α timestamp) (out : α → β) (needsEntries : Prop) (valid : α → Prop) :
    Prop where
  timestamp_out : ∀ x, source.timestamp (out x) = timestamp x
  fetch : ∀ w items more, source.fetch w = .ok (items, more) ↔
    ((needsEntries → broker.page w ≠ []) ∧ Distinct timestamp (broker.page w) ∧
      ∀ x ∈ broker.page w, valid x) ∧
    items = (broker.page w).map out ∧ more = broker.hasMore w

section Loop

variable {α β E : Type*} {timestamp : α → Int} {source : PageSource β E}
  {broker : HonestBroker α timestamp} {out : α → β} {needsEntries : Prop} {valid : α → Prop}

/-- Where a timestamp may be cut through without an error: above the lower bound and, where
pages need entries, with something older left for the next page. -/
def MayCut (broker : HonestBroker α timestamp) (lower : Int) (needsEntries : Prop) (t : Int) :
    Prop :=
  lower < t ∧ (needsEntries → ∃ x ∈ broker.log, lower ≤ timestamp x ∧ timestamp x < t)

/-- The condition under which the page loop over `[lower, upper)` returns pages. -/
structure Captures (broker : HonestBroker α timestamp) (needsEntries : Prop) (valid : α → Prop)
    (lower upper : Int) : Prop where
  cuts : SafeCuts timestamp broker.pageLimit (MayCut broker lower needsEntries)
    (broker.range lower upper)
  valid : ∀ x ∈ lastOfEach timestamp (broker.range lower upper), valid x
  entries : needsEntries → broker.range lower upper ≠ []

theorem captures_short {lower upper : Int}
    (short : (broker.range lower upper).length ≤ broker.pageLimit) :
    Captures broker needsEntries valid lower upper ↔
      (needsEntries → broker.range lower upper ≠ []) ∧
        Distinct timestamp (broker.range lower upper) ∧ ∀ x ∈ broker.range lower upper, valid x := by
  have sorted := broker.range_sorted lower upper
  constructor
  · rintro ⟨cuts, hv, entries⟩
    have distinct := (safeCuts_short sorted short).mp cuts
    rw [lastOfEach_of_distinct distinct] at hv
    exact ⟨entries, distinct, hv⟩
  · rintro ⟨entries, distinct, hv⟩
    exact ⟨(safeCuts_short sorted short).mpr distinct,
      by rw [lastOfEach_of_distinct distinct]; exact hv, entries⟩

theorem captures_cut {lower upper : Int} {pre more : List α} {o : α}
    (hsplit : broker.range lower upper = pre ++ o :: more) (hpre : pre ≠ [])
    (full : (o :: more).length = broker.pageLimit) :
    Captures broker needsEntries valid lower upper ↔
      (Distinct timestamp (o :: more) ∧ ∀ x ∈ o :: more, valid x) ∧ lower < timestamp o ∧
        Captures broker needsEntries valid lower (timestamp o) := by
  have sorted := broker.range_sorted lower upper
  have ho := HonestBroker.mem_range.mp (show o ∈ broker.range lower upper by simp [hsplit])
  have hrest : below timestamp (timestamp o) (pre ++ o :: more) = broker.range lower (timestamp o) := by
    rw [← hsplit]
    exact HonestBroker.below_range (Int.le_of_lt ho.2.2)
  obtain ⟨x, hx⟩ := List.exists_mem_of_ne_nil pre hpre
  have hxr := HonestBroker.mem_range.mp (show x ∈ broker.range lower upper by simp [hsplit, hx])
  rw [hsplit] at sorted
  have hxo := le_of_cut sorted hx
  constructor
  · rintro ⟨cuts, hv, entries⟩
    rw [hsplit] at cuts hv
    obtain ⟨distinct, hside, hcuts⟩ := (safeCuts_cut sorted full).mp cuts
    rw [lastOfEach_cut sorted distinct, hrest] at hv
    rw [hrest] at hcuts
    have hlower : lower < timestamp o := by
      by_cases heq : timestamp x = timestamp o
      · exact (hside (repeats_cut hx heq)).1
      · omega
    refine ⟨⟨distinct, fun y hy => hv y (List.mem_append_right _ hy)⟩, hlower, hcuts,
      fun y hy => hv y (List.mem_append_left _ hy), ?_⟩
    intro needs
    by_cases heq : timestamp x = timestamp o
    · obtain ⟨y, hy, hlow, hlt⟩ := (hside (repeats_cut hx heq)).2 needs
      exact List.ne_nil_of_mem (HonestBroker.mem_range.mpr ⟨hy, hlow, hlt⟩)
    · exact List.ne_nil_of_mem (HonestBroker.mem_range.mpr ⟨hxr.1, hxr.2.1, by omega⟩)
  · rintro ⟨⟨distinct, hpage⟩, hlower, hcuts, hv, entries⟩
    refine ⟨?_, ?_, fun _ => by simp [hsplit]⟩
    · rw [hsplit]
      refine (safeCuts_cut sorted full).mpr ⟨distinct, fun _ => ⟨hlower, ?_⟩, by rwa [hrest]⟩
      intro needs
      obtain ⟨y, hy⟩ := List.exists_mem_of_ne_nil _ (entries needs)
      have := HonestBroker.mem_range.mp hy
      exact ⟨y, this.1, this.2⟩
    · rw [hsplit, lastOfEach_cut sorted distinct, hrest]
      intro y hy
      rcases List.mem_append.mp hy with h | h
      · exact hv y h
      · exact hpage y h

/-- What the page loop over `[lower, pageTo)` must return: pages exactly under `Captures`, and
then the pages, oldest first, hold the newest entry of each timestamp. -/
def AnswersFor (broker : HonestBroker α timestamp) (out : α → β) (needsEntries : Prop)
    (valid : α → Prop) (lower pageTo : Int) (result : Except E (List (CapturedPage β))) : Prop :=
  ((∃ pages, result = .ok pages) ↔ Captures broker needsEntries valid lower pageTo) ∧
    ∀ pages, result = .ok pages → pages.reverse.flatMap (·.items) =
      (lastOfEach timestamp (broker.range lower pageTo)).map out

theorem answersFor_error {lower pageTo : Int} {e : E}
    (h : ¬Captures broker needsEntries valid lower pageTo) :
    AnswersFor broker out needsEntries valid lower pageTo (.error e) := by
  refine ⟨?_, by simp⟩
  simp only [reduceCtorEq, exists_false, false_iff]
  exact h

section Exchange

variable {w : EvidenceWindow} {pageSequence : Nat}

theorem capture_error {e : E} (hf : source.fetch w = .error e) :
    source.capture w.fromUnixMsInclusive w.toUnixMsExclusive pageSequence = .error e := by
  rw [PageSource.capture, EvidenceWindow.new_self]
  simp only [hf]

theorem capture_last {items : List β} (hf : source.fetch w = .ok (items, false)) :
    source.capture w.fromUnixMsInclusive w.toUnixMsExclusive pageSequence =
      .ok [⟨pageSequence, w, items, false⟩] := by
  rw [PageSource.capture, EvidenceWindow.new_self]
  simp only [hf, if_true]

theorem capture_more {oldest : β} {items : List β}
    (hf : source.fetch w = .ok (oldest :: items, true)) :
    source.capture w.fromUnixMsInclusive w.toUnixMsExclusive pageSequence =
      if source.timestamp oldest ≤ w.fromUnixMsInclusive ∨
          w.toUnixMsExclusive ≤ source.timestamp oldest then .error source.noOlderBoundary
      else if sequenceMax < pageSequence + 1 then .error source.sequenceOverflow
      else (source.capture w.fromUnixMsInclusive (source.timestamp oldest) (pageSequence + 1)).map
        (⟨pageSequence, w, oldest :: items, true⟩ :: ·) := by
  rw [PageSource.capture, EvidenceWindow.new_self]
  simp only [hf, Bool.true_eq_false, if_false, List.head?_cons]

variable (w) in
/-- A range that fits into one page is asked for once. -/
theorem answersFor_last (serves : source.Serves broker out needsEntries valid)
    (short : (broker.range w.fromUnixMsInclusive w.toUnixMsExclusive).length ≤ broker.pageLimit) :
    AnswersFor broker out needsEntries valid w.fromUnixMsInclusive w.toUnixMsExclusive
      (source.capture w.fromUnixMsInclusive w.toUnixMsExclusive pageSequence) := by
  have hpage : broker.page w = broker.range w.fromUnixMsInclusive w.toUnixMsExclusive :=
    newest_short short
  have last : broker.hasMore w = false := by simpa [HonestBroker.hasMore] using short
  cases hf : source.fetch w with
  | error e =>
    rw [capture_error hf]
    apply answersFor_error
    rw [captures_short short, ← hpage]
    intro accepted
    simp [(serves.fetch w _ _).mpr ⟨accepted, rfl, rfl⟩] at hf
  | ok r =>
    obtain ⟨items, more⟩ := r
    obtain ⟨accepted, rfl, rfl⟩ := (serves.fetch w items more).mp hf
    rw [last] at hf
    rw [capture_last hf]
    rw [hpage] at accepted ⊢
    refine ⟨?_, ?_⟩
    · rw [captures_short short]
      exact ⟨fun _ => accepted, fun _ => ⟨_, rfl⟩⟩
    · intro pages hp
      cases hp
      simp [lastOfEach_of_distinct accepted.2.1]

variable (w) in
/-- A full page: the loop goes on below the oldest timestamp of the page. -/
theorem answersFor_cut (serves : source.Serves broker out needsEntries valid)
    {pre rest : List α} {o : α}
    (hsplit : broker.range w.fromUnixMsInclusive w.toUnixMsExclusive = pre ++ o :: rest)
    (hpre : pre ≠ []) (full : (o :: rest).length = broker.pageLimit)
    (hpage : broker.page w = o :: rest) (room : pageSequence + 1 ≤ sequenceMax)
    (older : w.fromUnixMsInclusive < timestamp o →
      AnswersFor broker out needsEntries valid w.fromUnixMsInclusive (timestamp o)
        (source.capture w.fromUnixMsInclusive (timestamp o) (pageSequence + 1))) :
    AnswersFor broker out needsEntries valid w.fromUnixMsInclusive w.toUnixMsExclusive
      (source.capture w.fromUnixMsInclusive w.toUnixMsExclusive pageSequence) := by
  have more : broker.hasMore w = true := by
    have := List.length_pos_of_ne_nil hpre
    simp only [HonestBroker.hasMore, hsplit, List.length_append, full, decide_eq_true_eq]
    omega
  have ho := HonestBroker.mem_range.mp
    (show o ∈ broker.range w.fromUnixMsInclusive w.toUnixMsExclusive by simp [hsplit])
  cases hf : source.fetch w with
  | error e =>
    rw [capture_error hf]
    apply answersFor_error
    rw [captures_cut hsplit hpre full, ← hpage]
    rintro ⟨accepted, _⟩
    have entries : needsEntries → broker.page w ≠ [] := fun _ => by simp [hpage]
    simp [(serves.fetch w _ _).mpr ⟨⟨entries, accepted⟩, rfl, rfl⟩] at hf
  | ok r =>
    obtain ⟨items, hasMore⟩ := r
    obtain ⟨⟨_, accepted⟩, rfl, rfl⟩ := (serves.fetch w items hasMore).mp hf
    rw [more, hpage, List.map_cons] at hf
    rw [hpage] at accepted
    rw [capture_more hf]
    simp only [serves.timestamp_out]
    by_cases atLower : timestamp o ≤ w.fromUnixMsInclusive
    · -- the log has older entries of this timestamp, but the request cannot go on
      rw [if_pos (Or.inl atLower)]
      apply answersFor_error
      rw [captures_cut hsplit hpre full]
      rintro ⟨_, hlower, _⟩
      omega
    · rw [if_neg (by omega), if_neg (by omega)]
      obtain ⟨hiff, hitems⟩ := older (by omega)
      refine ⟨?_, ?_⟩
      · rw [captures_cut hsplit hpre full, ← hiff]
        simp only [Fallible.map_ok_iff]
        constructor
        · rintro ⟨_, pages, h, _⟩
          exact ⟨accepted, by omega, pages, h⟩
        · rintro ⟨_, _, pages, h⟩
          exact ⟨_, pages, h, rfl⟩
      · intro pages hp
        obtain ⟨olderPages, h, rfl⟩ := Fallible.map_ok_iff.mp hp
        have sorted := broker.range_sorted w.fromUnixMsInclusive w.toUnixMsExclusive
        have hrest : below timestamp (timestamp o) (pre ++ o :: rest) =
            broker.range w.fromUnixMsInclusive (timestamp o) := by
          rw [← hsplit]
          exact HonestBroker.below_range (Int.le_of_lt ho.2.2)
        rw [hsplit] at sorted ⊢
        rw [lastOfEach_cut sorted accepted.1, hrest, List.map_append, ← hitems olderPages h]
        simp

end Exchange

theorem capture_spec (serves : source.Serves broker out needsEntries valid) {lower pageTo : Int}
    {pageSequence : Nat} (hl : 0 ≤ lower) (hlt : lower < pageTo) (hmax : pageTo ≤ I64.maxValue)
    (room : pageSequence + (pageTo - lower).toNat ≤ sequenceMax) :
    AnswersFor broker out needsEntries valid lower pageTo
      (source.capture lower pageTo pageSequence) := by
  induction hn : (pageTo - lower).toNat using Nat.strong_induction_on generalizing pageTo
    pageSequence with
  | _ n ih =>
    by_cases short : (broker.range lower pageTo).length ≤ broker.pageLimit
    · exact answersFor_last ⟨lower, pageTo, hl, hlt, hmax⟩ serves short
    · obtain ⟨pre, o, rest, hsplit, hpre, full, hnew⟩ :=
        newest_long broker.positive (Nat.not_le.mp short)
      have ho := HonestBroker.mem_range.mp (show o ∈ broker.range lower pageTo by simp [hsplit])
      refine answersFor_cut ⟨lower, pageTo, hl, hlt, hmax⟩ serves hsplit hpre full hnew (by omega) ?_
      intro hlower
      exact ih (timestamp o - lower).toNat (by omega) hlower (by omega) (by omega) rfl

end Loop

end Neoethos
