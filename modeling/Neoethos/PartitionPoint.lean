import Mathlib.Tactic.Common

/-! The binary search of ordered slices, as the standard library of the source runs it. -/

namespace Slice

variable {α : Type*} {p : α → Bool} {xs : List α}

/-- The loop of the search: the window `[base, base + size)` shrinks until one element is left. -/
def searchBase (p : α → Bool) (xs : List α) (base size : Nat) : Nat :=
  if 1 < size then
    let half := size / 2
    let mid := base + half
    searchBase p xs (if xs[mid]?.any p then mid else base) (size - half)
  else base
termination_by size

/-- The index of the first element of the second partition. On a slice that `p` does not
partition the search still returns an index. -/
def partitionPoint (p : α → Bool) (xs : List α) : Nat :=
  if xs.length = 0 then 0
  else
    let base := searchBase p xs 0 xs.length
    if xs[base]?.any p then base + 1 else base

/-- Every element that satisfies `p` stands before every element that does not. -/
def Partitioned (p : α → Bool) (xs : List α) : Prop := xs.Pairwise fun a b => p b → p a

theorem Partitioned.split (h : Partitioned p xs) : xs.filter p ++ xs.filter (fun x => !p x) = xs := by
  induction xs with
  | nil => rfl
  | cons a xs ih =>
    obtain ⟨ha, hxs⟩ := List.pairwise_cons.mp h
    by_cases hpa : p a = true
    · simp [hpa, ih hxs]
    · have hnone : ∀ x ∈ xs, p x = false := by
        intro x hx
        by_contra hpx
        exact hpa (ha x hx (by simpa using hpx))
      have hempty : xs.filter p = [] := by simpa using hnone
      have hall : xs.filter (fun x => !p x) = xs := by simpa using hnone
      simp [hpa, hempty, hall]

theorem any_getElem?_iff (h : Partitioned p xs) {i : Nat} :
    xs[i]?.any p = true ↔ i < (xs.filter p).length := by
  by_cases hi : i < (xs.filter p).length
  · have hget : xs[i]? = (xs.filter p)[i]? := by
      conv_lhs => rw [← h.split]
      exact List.getElem?_append_left hi
    rw [hget, List.getElem?_eq_getElem hi]
    have hmem : (xs.filter p)[i] ∈ xs.filter p := List.getElem_mem hi
    simp [hi, (List.mem_filter.mp hmem).2]
  · have hget : xs[i]? = (xs.filter fun x => !p x)[i - (xs.filter p).length]? := by
      conv_lhs => rw [← h.split]
      exact List.getElem?_append_right (by omega)
    simp only [hi, iff_false, Bool.not_eq_true]
    rw [hget, Option.any_eq_false_iff_get]
    intro hsome
    have hmem := List.mem_of_getElem? (Option.some_get hsome).symm
    simpa using (List.mem_filter.mp hmem).2

-- The window always holds the partition point, except that it may stand right behind it.
theorem searchBase_spec (h : Partitioned p xs) {base size : Nat} (hsize : 0 < size)
    (hlow : base = 0 ∨ base < (xs.filter p).length)
    (hhigh : (xs.filter p).length ≤ base + size) :
    (searchBase p xs base size = 0 ∨ searchBase p xs base size < (xs.filter p).length) ∧
      (xs.filter p).length ≤ searchBase p xs base size + 1 := by
  induction size using Nat.strongRecOn generalizing base with
  | ind size ih =>
    unfold searchBase
    split
    next hlarge =>
      have hmid := any_getElem?_iff h (i := base + size / 2)
      apply ih (size - size / 2) (by omega) (by omega)
      · split
        next hany => exact .inr (hmid.mp hany)
        next => exact hlow
      · split
        next hany => omega
        next hany =>
          have hnot := mt hmid.mpr hany
          omega
    next hsmall =>
      have hone : size = 1 := by omega
      subst hone
      exact ⟨hlow, hhigh⟩

theorem partitionPoint_eq (h : Partitioned p xs) :
    partitionPoint p xs = (xs.filter p).length := by
  have hle : (xs.filter p).length ≤ xs.length := List.length_filter_le p xs
  unfold partitionPoint
  split
  next hempty => omega
  next hempty =>
    have hpoint : (xs.filter p).length ≤ 0 + xs.length := by omega
    obtain ⟨hlow, hhigh⟩ := searchBase_spec h (by omega) (.inl rfl) hpoint
    have hbase := any_getElem?_iff h (i := searchBase p xs 0 xs.length)
    simp only
    split
    next hany =>
      have hlt := hbase.mp hany
      omega
    next hany =>
      have hnot := mt hbase.mpr hany
      omega

theorem drop_partitionPoint (h : Partitioned p xs) :
    xs.drop (partitionPoint p xs) = xs.filter fun x => !p x := by
  rw [partitionPoint_eq h]
  conv_lhs => enter [2]; rw [← h.split]
  exact List.drop_left

/-- The element at the partition point is the first one of the second partition. -/
theorem getElem?_partitionPoint (h : Partitioned p xs) :
    xs[partitionPoint p xs]? = xs.find? fun x => !p x := by
  have hget : (xs.drop (partitionPoint p xs))[0]? = xs[partitionPoint p xs]? := by
    rw [List.getElem?_drop, Nat.add_zero]
  rw [← hget, drop_partitionPoint h, ← List.head?_eq_getElem?, List.head?_filter]

def before (xs : List α) (index : Nat) : Option α := if index = 0 then none else xs[index - 1]?

theorem before_length_filter (h : Partitioned p xs) :
    before xs (xs.filter p).length = (xs.filter p).getLast? := by
  unfold before
  split
  next hempty => simp [List.eq_nil_of_length_eq_zero hempty]
  next hne =>
    rw [List.getLast?_eq_getElem?]
    conv_lhs => enter [1]; rw [← h.split]
    exact List.getElem?_append_left (by omega)

section Map

variable {β : Type*} (f : β → α) (ys : List β)

theorem searchBase_map (p : α → Bool) (base size : Nat) :
    searchBase p (ys.map f) base size = searchBase (fun y => p (f y)) ys base size := by
  induction size using Nat.strongRecOn generalizing base with
  | ind size ih =>
    have hany (mid : Nat) : (ys.map f)[mid]?.any p = ys[mid]?.any fun y => p (f y) := by
      rw [List.getElem?_map, Option.any_map]
    conv_lhs => unfold searchBase
    conv_rhs => unfold searchBase
    simp only [hany]
    by_cases hlarge : 1 < size
    · rw [if_pos hlarge, if_pos hlarge]
      exact ih (size - size / 2) (by omega) _
    · rw [if_neg hlarge, if_neg hlarge]

theorem partitionPoint_map (p : α → Bool) :
    partitionPoint p (ys.map f) = partitionPoint (fun y => p (f y)) ys := by
  unfold partitionPoint
  rw [List.length_map, searchBase_map]
  simp only [List.getElem?_map, Option.any_map]

theorem before_map (index : Nat) : before (ys.map f) index = (before ys index).map f := by
  unfold before
  split
  next => rfl
  next => exact List.getElem?_map

end Map

end Slice
