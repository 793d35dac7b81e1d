import Mathlib.Algebra.Order.Field.Basic
import Mathlib.Algebra.Order.Group.MinMax
import Mathlib.Order.Bounds.Basic

/-! Drawdowns of a path: by its running maximum, and by the segments between its peaks. -/

namespace Neoethos.Drawdown

variable {F : Type*}

/-- A value of a path that may be its new peak, or one whose drop from the peak counts. -/
inductive Mark (F : Type*)
  | peak (x : F)
  | trough (x : F)
  deriving DecidableEq

namespace Mark

def value : Mark F → F
  | peak x => x
  | trough x => x

variable [LinearOrder F]

def raise (top : F) : Mark F → F
  | peak x => max top x
  | trough _ => top

def exceeds (top : F) : Mark F → Bool
  | peak x => decide (top < x)
  | trough _ => false

end Mark

/-- A part of a path since its last peak, with the largest drop of the parts before it. -/
structure Segment (F : Type*) where
  peak : F
  low : F
  done : F

/-- A path watched as a whole and over its latest stretch. -/
structure Watch (F : Type*) where
  peak : F
  worst : F
  stretch : Segment F

section Definitions

variable [Field F] [LinearOrder F]

/-- The drop to `x`, relative to the peak. -/
def drop (peak x : F) : F := (peak - x) / peak

def peakOf (top : F) (marks : List (Mark F)) : F := marks.foldl Mark.raise top

def maxDrop (top : F) : List (Mark F) → F
  | [] => 0
  | .peak x :: marks => maxDrop (max top x) marks
  | .trough x :: marks => max (drop top x) (maxDrop top marks)

def settled (top : F) : List (Mark F) → List (Mark F)
  | [] => []
  | mark :: marks =>
    if (mark :: marks).any (Mark.exceeds top) then mark :: settled (mark.raise top) marks else []

namespace Segment

def start (top done : F) : Segment F := ⟨top, top, done⟩

def mark (s : Segment F) : Mark F → Segment F
  | .peak x => if s.peak < x then ⟨x, x, max s.done (drop s.peak s.low)⟩ else s
  | .trough x => { s with low := min s.low x }

def total (s : Segment F) : F := max s.done (drop s.peak s.low)

end Segment

def Watch.mark (w : Watch F) : Mark F → Watch F
  | .peak x => { w with peak := max w.peak x, stretch := w.stretch.mark (.peak x) }
  | .trough x =>
    { w with worst := max w.worst (drop w.peak x), stretch := w.stretch.mark (.trough x) }

end Definitions

variable [Field F] [LinearOrder F] [IsStrictOrderedRing F]

section Drop

omit [LinearOrder F] [IsStrictOrderedRing F] in
theorem drop_self (x : F) : drop x x = 0 := by
  rw [drop, sub_self, zero_div]

theorem drop_le_drop {p q x y : F} (hp : 0 < p) (hpq : p ≤ q) (hy : 0 ≤ y) (hyx : y ≤ x) :
    drop p x ≤ drop q y := by
  have hq : 0 < q := hp.trans_le hpq
  have hdrop {r z : F} (hr : 0 < r) : drop r z = 1 - z / r := by
    rw [drop, sub_div, div_self hr.ne']
  rw [hdrop hp, hdrop hq]
  have hle : y / q ≤ x / p := div_le_div₀ (hy.trans hyx) hyx hp hpq
  exact sub_le_sub_left hle 1

theorem drop_min {p : F} (hp : 0 < p) (x y : F) :
    drop p (min x y) = max (drop p x) (drop p y) := by
  unfold drop
  rw [max_div_div_right hp.le, max_sub_sub_left]

end Drop

section Path

variable {marks : List (Mark F)}

omit [IsStrictOrderedRing F] in
theorem maxDrop_nonneg (top : F) (marks : List (Mark F)) : 0 ≤ maxDrop top marks := by
  induction marks generalizing top with
  | nil => exact le_refl 0
  | cons mark marks ih =>
    cases mark with
    | peak x => exact ih _
    | trough x => exact (ih top).trans (le_max_right _ _)

omit [IsStrictOrderedRing F] in
theorem isGreatest_maxDrop (top : F) (marks : List (Mark F)) :
    IsGreatest (insert 0 {d | ∃ front x back, marks = front ++ Mark.trough x :: back ∧
      drop (peakOf top front) x = d}) (maxDrop top marks) := by
  induction marks generalizing top with
  | nil =>
    constructor
    · exact .inl rfl
    · intro d hd
      rcases hd with rfl | ⟨front, x, back, heq, -⟩
      · exact le_refl _
      · simp at heq
  | cons mark marks ih =>
    obtain ⟨hmem, hupper⟩ := ih (mark.raise top)
    have hlater : maxDrop (mark.raise top) marks ∈
        insert 0 {d | ∃ front x back, mark :: marks = front ++ Mark.trough x :: back ∧
          drop (peakOf top front) x = d} := by
      rcases hmem with hzero | ⟨front, x, back, heq, hdrop⟩
      · exact .inl hzero
      · exact .inr ⟨mark :: front, x, back, by rw [heq]; rfl, hdrop⟩
    cases mark with
    | peak x =>
      refine ⟨hlater, ?_⟩
      intro d hd
      rcases hd with rfl | ⟨front, y, back, heq, rfl⟩
      · exact maxDrop_nonneg _ _
      · cases front with
        | nil => cases heq
        | cons first front =>
          obtain ⟨rfl, htail⟩ := List.cons.inj heq
          exact hupper (.inr ⟨front, y, back, htail, rfl⟩)
    | trough x =>
      constructor
      · change max (drop top x) (maxDrop top marks) ∈ _
        rcases max_choice (drop top x) (maxDrop top marks) with hmax | hmax
        · rw [hmax]
          exact .inr ⟨[], x, marks, rfl, rfl⟩
        · rw [hmax]
          exact hlater
      · intro d hd
        rcases hd with rfl | ⟨front, y, back, heq, rfl⟩
        · exact maxDrop_nonneg _ _
        · cases front with
          | nil =>
            cases heq
            exact le_max_left _ _
          | cons first front =>
            obtain ⟨rfl, htail⟩ := List.cons.inj heq
            exact (hupper (.inr ⟨front, y, back, htail, rfl⟩)).trans (le_max_right _ _)

omit [Field F] [IsStrictOrderedRing F] in
theorem le_peakOf (top : F) (marks : List (Mark F)) :
    top ≤ peakOf top marks ∧
      ∀ x, Mark.peak x ∈ marks → x ≤ peakOf top marks := by
  induction marks generalizing top with
  | nil => exact ⟨le_refl top, fun x hx => absurd hx List.not_mem_nil⟩
  | cons mark marks ih =>
    obtain ⟨htop, hmarks⟩ := ih (mark.raise top)
    have hraise : top ≤ mark.raise top := by
      cases mark with
      | peak x => exact le_max_left top x
      | trough x => exact le_refl top
    refine ⟨hraise.trans htop, ?_⟩
    intro x hx
    rcases List.mem_cons.mp hx with rfl | hx
    · exact (le_max_right top x).trans htop
    · exact hmarks x hx

omit [Field F] [IsStrictOrderedRing F] in
theorem peakOf_append (top : F) (front back : List (Mark F)) :
    peakOf top (front ++ back) = peakOf (peakOf top front) back :=
  List.foldl_append

omit [IsStrictOrderedRing F] in
theorem maxDrop_append (top : F) (front back : List (Mark F)) :
    maxDrop top (front ++ back) =
      max (maxDrop top front) (maxDrop (peakOf top front) back) := by
  induction front generalizing top with
  | nil => exact (max_eq_right (maxDrop_nonneg top back)).symm
  | cons mark front ih =>
    cases mark with
    | peak x => exact ih (max top x)
    | trough x =>
      change max _ (maxDrop top (front ++ back)) = max (max _ _) _
      rw [ih, max_assoc]
      rfl

end Path

section Segments

/-- The low of a segment is no higher than its peak, and all drops are counted from zero. -/
structure Segment.Valid (s : Segment F) : Prop where
  positive : 0 < s.peak
  low : s.low ≤ s.peak
  done : 0 ≤ s.done

variable {s : Segment F}

omit [IsStrictOrderedRing F] in
theorem Segment.Valid.mark (h : s.Valid) (m : Mark F) : (s.mark m).Valid := by
  cases m with
  | peak x =>
    unfold Segment.mark
    by_cases hnew : s.peak < x
    · simp only [hnew, if_true]
      exact ⟨h.positive.trans hnew, le_refl x, h.done.trans (le_max_left _ _)⟩
    · simp only [hnew, if_false]
      exact h
  | trough x => exact ⟨h.positive, (min_le_left _ _).trans h.low, h.done⟩

omit [IsStrictOrderedRing F] in
theorem Segment.peak_mark (s : Segment F) (m : Mark F) : (s.mark m).peak = m.raise s.peak := by
  cases m with
  | peak x =>
    unfold Segment.mark Mark.raise
    by_cases hnew : s.peak < x
    · simp only [hnew, if_true, max_eq_right hnew.le]
    · simp only [hnew, if_false, max_eq_left (not_lt.mp hnew)]
  | trough x => rfl

theorem Segment.total_foldl (h : s.Valid) (marks : List (Mark F)) :
    (marks.foldl Segment.mark s).total = max s.total (maxDrop s.peak marks) := by
  induction marks generalizing s with
  | nil =>
    have hnonneg : 0 ≤ s.total := h.done.trans (le_max_left _ _)
    exact (max_eq_left hnonneg).symm
  | cons m marks ih =>
    rw [List.foldl_cons, ih (h.mark m), Segment.peak_mark]
    cases m with
    | peak x =>
      change _ = max s.total (maxDrop (max s.peak x) marks)
      congr 1
      unfold Segment.mark
      by_cases hnew : s.peak < x
      · simp only [hnew, if_true, Segment.total, drop_self]
        exact max_eq_left (h.done.trans (le_max_left _ _))
      · simp only [hnew, if_false]
    | trough x =>
      change max (max s.done (drop s.peak (min s.low x))) (maxDrop s.peak marks) =
        max (max s.done (drop s.peak s.low)) (max (drop s.peak x) (maxDrop s.peak marks))
      rw [drop_min h.positive, ← max_assoc, ← max_assoc]

/-- What they have closed is the largest drop in front of the last new peak. -/
theorem Segment.done_foldl (h : s.Valid) (marks : List (Mark F)) :
    (marks.foldl Segment.mark s).done =
      if marks.any (Mark.exceeds s.peak) then max s.total (maxDrop s.peak (settled s.peak marks))
      else s.done := by
  induction marks generalizing s with
  | nil => rfl
  | cons m marks ih =>
    rw [List.foldl_cons, ih (h.mark m), Segment.peak_mark, settled]
    cases m with
    | peak x =>
      by_cases hnew : s.peak < x
      · have hmark : s.mark (.peak x) = ⟨x, x, s.total⟩ := by
          simp only [Segment.mark, hnew, if_true, Segment.total]
        have hraise : (Mark.peak x).raise s.peak = x := max_eq_right hnew.le
        have hnow : (Mark.peak x :: marks).any (Mark.exceeds s.peak) = true := by
          simp [Mark.exceeds, hnew]
        have hnonneg : 0 ≤ s.total := h.done.trans (le_max_left _ _)
        have htotal : Segment.total ⟨x, x, s.total⟩ = s.total := by
          rw [Segment.total, drop_self]
          exact max_eq_left hnonneg
        have hdrop (marks : List (Mark F)) :
            maxDrop s.peak (Mark.peak x :: marks) = maxDrop x marks := by
          rw [maxDrop, max_eq_right hnew.le]
        rw [hmark, hraise, if_pos hnow, if_pos hnow, htotal, hdrop]
        by_cases hlater : marks.any (Mark.exceeds x) = true
        · rw [if_pos hlater]
        · have hnone : settled x marks = [] := by
            cases marks with
            | nil => rfl
            | cons m marks => rw [settled, if_neg hlater]
          rw [if_neg hlater, hnone]
          exact (max_eq_left hnonneg).symm
      · have hmark : s.mark (.peak x) = s := by
          simp only [Segment.mark, hnew, if_false]
        have hraise : (Mark.peak x).raise s.peak = s.peak := max_eq_left (not_lt.mp hnew)
        have hsame : (Mark.peak x :: marks).any (Mark.exceeds s.peak) =
            marks.any (Mark.exceeds s.peak) := by
          simp [Mark.exceeds, hnew]
        rw [hmark, hraise, hsame]
        by_cases hlater : marks.any (Mark.exceeds s.peak) = true
        · rw [if_pos hlater, if_pos hlater, if_pos hlater, maxDrop, max_eq_left (not_lt.mp hnew)]
        · rw [if_neg hlater, if_neg hlater]
    | trough x =>
      have hsame : (Mark.trough x :: marks).any (Mark.exceeds s.peak) =
          marks.any (Mark.exceeds s.peak) := rfl
      rw [hsame]
      by_cases hlater : marks.any (Mark.exceeds s.peak) = true
      · have hraise : (Mark.trough x).raise s.peak = s.peak := rfl
        rw [hraise, if_pos hlater, if_pos hlater, if_pos hlater]
        change max (max s.done (drop s.peak (min s.low x))) _ =
          max (max s.done (drop s.peak s.low)) (max (drop s.peak x) _)
        rw [drop_min h.positive, ← max_assoc, ← max_assoc]
      · have hraise : (Mark.trough x).raise s.peak = s.peak := rfl
        rw [hraise, if_neg hlater, if_neg hlater]
        rfl

theorem Segment.foldl_start {top done : F} (htop : 0 < top) (hdone : 0 ≤ done)
    (marks : List (Mark F)) :
    (marks.foldl Segment.mark (Segment.start top done)).total = max done (maxDrop top marks) ∧
      (marks.foldl Segment.mark (Segment.start top done)).done =
        max done (maxDrop top (settled top marks)) := by
  have hvalid : (Segment.start top done).Valid := ⟨htop, le_refl top, hdone⟩
  have htotal : (Segment.start top done).total = done := by
    change max done (drop top top) = done
    rw [drop_self]
    exact max_eq_left hdone
  have hpeak : (Segment.start top done).peak = top := rfl
  rw [Segment.total_foldl hvalid, Segment.done_foldl hvalid, htotal, hpeak]
  refine ⟨rfl, ?_⟩
  by_cases hlater : marks.any (Mark.exceeds top) = true
  · rw [if_pos hlater]
  · have hnone : settled top marks = [] := by
      cases marks with
      | nil => rfl
      | cons m marks => rw [settled, if_neg hlater]
    rw [if_neg hlater, hnone]
    exact (max_eq_left hdone).symm

end Segments

section Watching

variable {w : Watch F}

omit [IsStrictOrderedRing F] in
theorem Watch.foldl (w : Watch F) (marks : List (Mark F)) :
    (marks.foldl Watch.mark w).peak = peakOf w.peak marks ∧
      (marks.foldl Watch.mark w).stretch = marks.foldl Segment.mark w.stretch := by
  induction marks generalizing w with
  | nil => exact ⟨rfl, rfl⟩
  | cons m marks ih =>
    obtain ⟨hpeak, hstretch⟩ := ih (w.mark m)
    rw [List.foldl_cons, hpeak, hstretch]
    cases m with
    | peak x => exact ⟨rfl, rfl⟩
    | trough x => exact ⟨rfl, rfl⟩

omit [IsStrictOrderedRing F] in
theorem Watch.worst_foldl (hworst : 0 ≤ w.worst) (marks : List (Mark F)) :
    (marks.foldl Watch.mark w).worst = max w.worst (maxDrop w.peak marks) := by
  induction marks generalizing w with
  | nil => exact (max_eq_left hworst).symm
  | cons m marks ih =>
    rw [List.foldl_cons]
    cases m with
    | peak x => exact ih hworst
    | trough x =>
      rw [ih (hworst.trans (le_max_left _ _))]
      exact max_assoc _ _ _

/-- Both peaks are positive, so that every drop can be measured. -/
structure Watch.Positive (w : Watch F) : Prop where
  peak : 0 < w.peak
  stretch : w.stretch.Valid

omit [IsStrictOrderedRing F] in
theorem Watch.Positive.mark (h : w.Positive) (m : Mark F) : (w.mark m).Positive := by
  have hstretch := h.stretch.mark m
  cases m with
  | peak x => exact ⟨h.peak.trans_le (le_max_left _ _), hstretch⟩
  | trough x => exact ⟨h.peak, hstretch⟩

omit [IsStrictOrderedRing F] in
theorem Watch.Positive.foldl (h : w.Positive) (marks : List (Mark F)) :
    (marks.foldl Watch.mark w).Positive := by
  induction marks generalizing w with
  | nil => exact h
  | cons m marks ih => exact ih (h.mark m)

/-- The latest stretch has seen no peak and no drop that the whole path has not. -/
structure Watch.Within (w : Watch F) : Prop where
  valid : w.stretch.Valid
  peak : w.stretch.peak ≤ w.peak
  total : w.stretch.total ≤ w.worst

theorem Watch.Within.mark (h : w.Within) {m : Mark F} (hm : 0 < m.value) : (w.mark m).Within := by
  have hvalid := h.valid.mark m
  cases m with
  | peak x =>
    refine ⟨hvalid, ?_, ?_⟩
    · change (w.stretch.mark (.peak x)).peak ≤ max w.peak x
      rw [Segment.peak_mark]
      exact max_le_max_right x h.peak
    · change (w.stretch.mark (.peak x)).total ≤ w.worst
      have hnonneg : 0 ≤ w.stretch.total := h.valid.done.trans (le_max_left _ _)
      by_cases hnew : w.stretch.peak < x
      · have hmark : w.stretch.mark (.peak x) = ⟨x, x, w.stretch.total⟩ := by
          simp only [Segment.mark, hnew, if_true, Segment.total]
        rw [hmark, Segment.total, drop_self]
        exact max_le h.total (hnonneg.trans h.total)
      · have hmark : w.stretch.mark (.peak x) = w.stretch := by
          simp only [Segment.mark, hnew, if_false]
        rw [hmark]
        exact h.total
  | trough x =>
    refine ⟨hvalid, h.peak, ?_⟩
    change max w.stretch.done (drop w.stretch.peak (min w.stretch.low x)) ≤
      max w.worst (drop w.peak x)
    rw [drop_min h.valid.positive, ← max_assoc]
    have hx : (0 : F) ≤ x := le_of_lt hm
    exact max_le_max h.total (drop_le_drop h.valid.positive h.peak hx (le_refl x))

theorem Watch.Within.foldl (h : w.Within) {marks : List (Mark F)}
    (hmarks : ∀ m ∈ marks, 0 < m.value) : (marks.foldl Watch.mark w).Within := by
  induction marks generalizing w with
  | nil => exact h
  | cons m marks ih =>
    rw [List.foldl_cons]
    apply ih (h.mark (hmarks m List.mem_cons_self))
    intro later hlater
    exact hmarks later (List.mem_cons_of_mem m hlater)

end Watching

end Neoethos.Drawdown
