import Mathlib.Data.List.Lattice
import Neoethos.FloatOps

/-- `f64::ceil`: the floor from the other side. -/
def FloatOps.ceil {F : Type*} [FloatOps F] (x : F) : F := -FloatOps.floor (-x)

namespace Neoethos

/-- The sublists of a length, in the order of `itertools`. -/
def combinationsOf {α : Type*} : List α → Nat → List (List α)
  | _, 0 => [[]]
  | [], _ + 1 => []
  | x :: xs, k + 1 => (combinationsOf xs k).map (x :: ·) ++ combinationsOf xs (k + 1)

theorem mem_combinationsOf {α : Type*} {xs c : List α} {k : Nat} :
    c ∈ combinationsOf xs k ↔ c.Sublist xs ∧ c.length = k := by
  induction xs generalizing c k with
  | nil =>
    cases k with
    | zero => simp [combinationsOf]
    | succ k =>
      simp only [combinationsOf, List.not_mem_nil, List.sublist_nil, false_iff, not_and]
      rintro rfl
      simp
  | cons x xs ih =>
    cases k with
    | zero =>
      simp only [combinationsOf, List.mem_singleton, List.length_eq_zero_iff]
      constructor
      · rintro rfl
        exact ⟨List.nil_sublist _, rfl⟩
      · intro h
        exact h.2
    | succ k =>
      simp only [combinationsOf, List.mem_append, List.mem_map, ih, List.sublist_cons_iff]
      constructor
      · intro h
        obtain ⟨rest, ⟨hsub, rfl⟩, rfl⟩ | ⟨hsub, hlength⟩ := h
        · exact ⟨.inr ⟨rest, rfl, hsub⟩, rfl⟩
        · exact ⟨.inl hsub, hlength⟩
      · intro h
        obtain ⟨hsub | ⟨rest, rfl, hsub⟩, hlength⟩ := h
        · exact .inr ⟨hsub, hlength⟩
        · exact .inl ⟨rest, ⟨hsub, Nat.succ.inj hlength⟩, rfl⟩

structure CombinatorialPurgedCV (F : Type*) where
  nSplits : Nat
  nTestGroups : Nat
  embargoPct : F
  purgePct : F

namespace CombinatorialPurgedCV

section Split

variable (nSamples nSplits purgeSize embargoSize : Nat)

/-- The bounds of a group; the last one takes what the division leaves. -/
def group (i : Nat) : Nat × Nat :=
  (i * (nSamples / nSplits), if i = nSplits - 1 then nSamples else (i + 1) * (nSamples / nSplits))

def indices (range : Nat × Nat) : List Nat := List.range' range.1 (range.2 - range.1)

/-- What one test group cuts off a training group, of which `valid` is left. -/
def cutFor (group test valid : Nat × Nat) : Nat × Nat :=
  let potentialEnd := test.1 - purgeSize
  let groupValidEnd :=
    if group.2 ≤ test.1 ∧ potentialEnd < valid.2 ∧ group.1 ≤ potentialEnd then potentialEnd else valid.2
  -- a sum that wraps in the source is below the group, so that it cuts nothing off either
  let potentialStart := test.2 + embargoSize
  let groupValidStart :=
    if test.2 ≤ group.1 ∧ valid.1 < potentialStart ∧ potentialStart ≤ group.2 then potentialStart
    else valid.1
  (groupValidStart, groupValidEnd)

def validRange (combination : List Nat) (g : Nat) : Nat × Nat :=
  combination.foldl (fun valid t => cutFor purgeSize embargoSize (group nSamples nSplits g)
    (group nSamples nSplits t) valid) (group nSamples nSplits g)

def testIdx (combination : List Nat) : List Nat :=
  ((List.range nSplits).filter (· ∈ combination)).flatMap fun i => indices (group nSamples nSplits i)

def trainIdx (combination : List Nat) : List Nat :=
  ((List.range nSplits).filter (· ∉ combination)).flatMap fun g =>
    let valid := validRange nSamples nSplits purgeSize embargoSize combination g
    if valid.1 < valid.2 then indices valid else []

def splitWith (nTestGroups : Nat) : List (List Nat × List Nat) :=
  if nSamples = 0 ∨ nSplits < 2 then []
  else if nSamples / nSplits = 0 then []
  else
    (combinationsOf (List.range nSplits) nTestGroups).filterMap fun combination =>
      let test := testIdx nSamples nSplits combination
      let train := trainIdx nSamples nSplits purgeSize embargoSize combination
      if ¬test.isEmpty ∧ ¬train.isEmpty then some (train, test) else none

end Split

variable {F : Type*} [FloatOps F] (cv : CombinatorialPurgedCV F) (nSamples : Nat)

def purgeSize : Nat := FloatOps.toUsize (FloatOps.ceil (FloatOps.ofInt nSamples * cv.purgePct))

def embargoSize : Nat := FloatOps.toUsize (FloatOps.ceil (FloatOps.ofInt nSamples * cv.embargoPct))

def split : List (List Nat × List Nat) :=
  splitWith nSamples cv.nSplits (cv.purgeSize nSamples) (cv.embargoSize nSamples) cv.nTestGroups

/-- The zones of a test group, in which no training sample may stand. -/
def InZone (nSamples nSplits purge embargo t i : Nat) : Prop :=
  let test := group nSamples nSplits t
  (test.1 ≤ i + purge ∧ i < test.1) ∨ (test.2 ≤ i ∧ i < test.2 + embargo)

/-- Every pair that is returned belongs to a choice of test groups, and its training samples are
those that stand in no group chosen and in no zone of one. -/
def LeavesNoLeak : Prop :=
  ∀ train test, (train, test) ∈ cv.split nSamples →
    train.Pairwise (· < ·) ∧ test.Pairwise (· < ·) ∧ train.Disjoint test ∧
    ∃ chosen : List Nat, chosen.Sublist (List.range cv.nSplits) ∧ chosen.length = cv.nTestGroups ∧
      test = chosen.flatMap (fun t => indices (group nSamples cv.nSplits t)) ∧
      ∀ i, i ∈ train ↔ i < nSamples ∧ i ∉ test ∧ ∀ t ∈ chosen,
        ¬InZone nSamples cv.nSplits (cv.purgeSize nSamples) (cv.embargoSize nSamples) t i

/-- A purge or an embargo that reaches past the far end of a training group, which is then left
as it is. -/
def Swallows (nSamples nSplits purge embargo t g : Nat) : Prop :=
  let test := group nSamples nSplits t
  let train := group nSamples nSplits g
  (train.2 ≤ test.1 ∧ test.1 - purge < train.1) ∨ (test.2 ≤ train.1 ∧ train.2 < test.2 + embargo)

/-- A cut that ends within the training group and takes `i` off it. -/
def CutsOff (nSamples nSplits purge embargo t g i : Nat) : Prop :=
  let test := group nSamples nSplits t
  let train := group nSamples nSplits g
  (train.2 ≤ test.1 ∧ train.1 ≤ test.1 - purge ∧ test.1 - purge ≤ i) ∨
    (test.2 ≤ train.1 ∧ test.2 + embargo ≤ train.2 ∧ i < test.2 + embargo)

section Groups

variable {n s i g t purge embargo : Nat} {combination : List Nat}

theorem mem_indices {range : Nat × Nat} : i ∈ indices range ↔ range.1 ≤ i ∧ i < range.2 := by
  rw [indices, List.mem_range'_1]
  omega

theorem mem_cutFor {group test valid : Nat × Nat} :
    i ∈ indices (cutFor purge embargo group test valid) ↔
      i ∈ indices valid ∧
      ¬((group.2 ≤ test.1 ∧ group.1 ≤ test.1 - purge ∧ test.1 - purge ≤ i) ∨
        (test.2 ≤ group.1 ∧ test.2 + embargo ≤ group.2 ∧ i < test.2 + embargo)) := by
  simp only [mem_indices, cutFor]
  split <;> split <;> omega

/-- What is left of a training group is what no test group cuts off. -/
theorem mem_validRange : i ∈ indices (validRange n s purge embargo combination g) ↔
    i ∈ indices (group n s g) ∧ ∀ t ∈ combination, ¬CutsOff n s purge embargo t g i := by
  suffices hfold : ∀ valid, i ∈ indices (combination.foldl (fun valid t =>
      cutFor purge embargo (group n s g) (group n s t) valid) valid) ↔
        i ∈ indices valid ∧ ∀ t ∈ combination, ¬CutsOff n s purge embargo t g i from hfold _
  induction combination with
  | nil => simp
  | cons t combination ih =>
    intro valid
    rw [List.foldl_cons, ih, mem_cutFor, List.forall_mem_cons, and_assoc]
    rfl

theorem mem_testIdx : i ∈ testIdx n s combination ↔
    ∃ t < s, t ∈ combination ∧ i ∈ indices (group n s t) := by
  simp only [testIdx, List.mem_flatMap, List.mem_filter, List.mem_range, decide_eq_true_eq,
    and_assoc]

theorem mem_trainIdx : i ∈ trainIdx n s purge embargo combination ↔
    ∃ g < s, g ∉ combination ∧ i ∈ indices (group n s g) ∧
      ∀ t ∈ combination, ¬CutsOff n s purge embargo t g i := by
  have hempty : ∀ valid : Nat × Nat,
      (if valid.1 < valid.2 then indices valid else []) = indices valid := by
    intro valid
    split
    next => rfl
    next h => simp [indices, Nat.sub_eq_zero_of_le (not_lt.mp h)]
  simp only [trainIdx, hempty, List.mem_flatMap, List.mem_filter, List.mem_range, decide_eq_true_eq,
    and_assoc, mem_validRange]

theorem group_le (hlt : g < t) (ht : t < s) : (group n s g).2 ≤ (group n s t).1 := by
  have hne : g ≠ s - 1 := by omega
  simp only [group, hne, if_false]
  exact Nat.mul_le_mul_right _ hlt

theorem group_lt (hm : 0 < n / s) (hg : g < s) : (group n s g).1 < (group n s g).2 := by
  have hle : s * (n / s) ≤ n := Nat.mul_div_le n s
  simp only [group]
  split
  next heq =>
    have hlt : g * (n / s) < s * (n / s) := Nat.mul_lt_mul_of_pos_right hg hm
    omega
  next => exact Nat.mul_lt_mul_of_pos_right (Nat.lt_succ_self g) hm

theorem group_le_samples (hg : g < s) : (group n s g).2 ≤ n := by
  have hle : s * (n / s) ≤ n := Nat.mul_div_le n s
  simp only [group]
  split
  next => exact le_rfl
  next => exact (Nat.mul_le_mul_right _ hg).trans hle

theorem exists_group (hs : 0 < s) (hm : 0 < n / s) (hi : i < n) : ∃ g < s, i ∈ indices (group n s g) := by
  have hlow : i / (n / s) * (n / s) ≤ i := Nat.div_mul_le_self i (n / s)
  have hhigh : i < (i / (n / s) + 1) * (n / s) :=
    (Nat.div_lt_iff_lt_mul hm).mp (Nat.lt_succ_self _)
  by_cases hlast : i / (n / s) < s - 1
  · refine ⟨i / (n / s), by omega, ?_⟩
    have hne : i / (n / s) ≠ s - 1 := by omega
    rw [mem_indices]
    simp only [group, hne, if_false]
    exact ⟨hlow, hhigh⟩
  · refine ⟨s - 1, by omega, ?_⟩
    rw [mem_indices]
    simp only [group, if_true]
    refine ⟨le_trans (Nat.mul_le_mul_right _ (not_lt.mp hlast)) hlow, hi⟩

theorem group_unique (hg : g < s) (ht : t < s) (hig : i ∈ indices (group n s g))
    (hit : i ∈ indices (group n s t)) : g = t := by
  rw [mem_indices] at hig hit
  obtain hlt | heq | hgt := lt_trichotomy g t
  · have hle := group_le (n := n) hlt ht
    omega
  · exact heq
  · have hle := group_le (n := n) hgt hg
    omega

end Groups

end CombinatorialPurgedCV

end Neoethos
