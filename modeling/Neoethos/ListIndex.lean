import Mathlib.Data.Finset.Max
import Mathlib.Data.List.Basic
import Mathlib.Data.List.Nodup
import Mathlib.Data.List.Range
import Mathlib.Data.List.Sort
import Mathlib.Data.Multiset.Sort
import Mathlib.Tactic.Common

/-! What stands where in a list after one write. -/

namespace ListIndex

variable {α : Type*}

theorem getElem?_snoc_iff {xs : List α} {x y : α} {i : Nat} :
    (xs ++ [x])[i]? = some y ↔ xs[i]? = some y ∨ i = xs.length ∧ x = y := by
  by_cases hi : i < xs.length
  · rw [List.getElem?_append_left hi]
    exact ⟨.inl, fun h => h.elim id fun h => absurd h.1 (by omega)⟩
  · rw [List.getElem?_append_right (by omega), List.getElem?_eq_none (by omega : xs.length ≤ i)]
    by_cases hlast : i = xs.length
    · simp [hlast]
    · have hpos : i - xs.length ≠ 0 := by omega
      simp [hlast, hpos]

theorem mem_set_cases {xs : List α} {i : Nat} {x y : α} (h : y ∈ xs.set i x) :
    y = x ∨ ∃ j, j ≠ i ∧ xs[j]? = some y := by
  obtain ⟨j, hj⟩ := List.mem_iff_getElem?.mp h
  rw [List.getElem?_set] at hj
  by_cases hij : i = j
  · rw [if_pos hij] at hj
    split at hj
    next => exact .inl (Option.some.inj hj).symm
    next => simp at hj
  · rw [if_neg hij] at hj
    exact .inr ⟨j, Ne.symm hij, hj⟩

/-- A write that keeps a projection keeps the list of projections. -/
theorem map_set_of_eq {β : Type*} {f : α → β} {xs : List α} {i : Nat} {x y : α}
    (hget : xs[i]? = some x) (hf : f y = f x) : (xs.set i y).map f = xs.map f := by
  rw [List.map_set, hf]
  have hi := (List.getElem?_eq_some_iff.mp hget)
  obtain ⟨hlt, rfl⟩ := hi
  apply List.ext_getElem?
  intro j
  by_cases hij : i = j
  · subst hij
    simp [hlt]
  · rw [List.getElem?_set_ne hij]

/-- A write moves a count by what it puts in and what it takes out. -/
theorem countP_set_add {p : α → Bool} {xs : List α} {i : Nat} {x y : α} (hget : xs[i]? = some x) :
    (xs.set i y).countP p + (if p x then 1 else 0) = xs.countP p + (if p y then 1 else 0) := by
  obtain ⟨hi, rfl⟩ := List.getElem?_eq_some_iff.mp hget
  have hle : (if p xs[i] then 1 else 0) ≤ xs.countP p := List.boole_getElem_le_countP hi
  rw [List.countP_set hi]
  omega

theorem ne_of_nodup {xs : List α} (h : xs.Nodup) {i j : Nat} {x y : α} (hij : i ≠ j)
    (hx : xs[i]? = some x) (hy : xs[j]? = some y) : x ≠ y := by
  rintro rfl
  obtain ⟨hi, rfl⟩ := List.getElem?_eq_some_iff.mp hx
  obtain ⟨hj, hxy⟩ := List.getElem?_eq_some_iff.mp hy
  exact hij ((List.Nodup.getElem_inj_iff h).mp hxy).symm

/-- The first place that is found cuts the list, and writes there change nothing else. -/
theorem split_of_findIdx? {p : α → Bool} {xs : List α} {i : Nat} (h : xs.findIdx? p = some i) :
    ∃ front x back, xs = front ++ x :: back ∧ p x = true ∧ (∀ y ∈ front, p y = false) ∧
      xs[i]? = some x ∧ (∀ f : α → α, xs.modify i f = front ++ f x :: back) ∧
      xs.eraseIdx i = front ++ back := by
  obtain ⟨hi, hx, hfront⟩ := List.findIdx?_eq_some_iff_getElem.mp h
  have hsplit : xs = xs.take i ++ xs[i] :: xs.drop (i + 1) := by
    rw [← List.drop_eq_getElem_cons hi, List.take_append_drop]
  refine ⟨xs.take i, xs[i], xs.drop (i + 1), hsplit, hx, ?_, List.getElem?_eq_getElem hi, ?_, ?_⟩
  · intro y hy
    obtain ⟨j, hj, rfl⟩ := List.mem_take_iff_getElem.mp hy
    have hji : j < i := by omega
    simpa using hfront j hji
  · intro f
    rw [List.modify_eq_take_cons_drop hi]
  · rw [List.eraseIdx_eq_take_drop_succ]

end ListIndex

namespace TopValues

variable {α : Type*} [LinearOrder α]

/-- The `n` greatest values, each as often as it occurs. -/
def top (n : Nat) (s : Multiset α) : Multiset α := ((s.sort (· ≥ ·)).take n : List α)

/-- A part that holds at most `n` values, and `n` if anything was left out, is the top when what
was left out is nowhere greater. -/
theorem top_of_split {kept dropped : Multiset α} {n : Nat} (hcard : kept.card ≤ n)
    (hfull : dropped ≠ 0 → kept.card = n) (hle : ∀ x ∈ dropped, ∀ y ∈ kept, x ≤ y) :
    top n (kept + dropped) = kept := by
  have hsort : (kept + dropped).sort (· ≥ ·) = kept.sort (· ≥ ·) ++ dropped.sort (· ≥ ·) := by
    apply List.Perm.eq_of_pairwise' (r := (· ≥ ·))
    · exact Multiset.pairwise_sort _ _
    · rw [List.pairwise_append]
      refine ⟨Multiset.pairwise_sort _ _, Multiset.pairwise_sort _ _, ?_⟩
      intro y hy x hx
      rw [Multiset.mem_sort] at hx hy
      exact hle x hx y hy
    · rw [← Multiset.coe_eq_coe, ← Multiset.coe_add]
      simp only [Multiset.sort_eq]
  have hlength : (kept.sort (· ≥ ·)).length = kept.card := Multiset.length_sort _
  unfold top
  by_cases hd : dropped = 0
  · subst hd
    rw [add_zero, List.take_of_length_le (by omega), Multiset.sort_eq]
  · rw [hsort, ← hfull hd, ← hlength, List.take_left, Multiset.sort_eq]

end TopValues

namespace Selection

variable {α β : Type*} {indices others : List Nat} {xs : List α}

/-- The items under the indices, in their order; an index beyond the list has none. -/
def pick (indices : List Nat) (xs : List α) : List α :=
  indices.filterMap fun index => xs[index]?

def Within (indices : List Nat) (length : Nat) : Prop := ∀ index ∈ indices, index < length

theorem pick_append (indices others : List Nat) (xs : List α) :
    pick (indices ++ others) xs = pick indices xs ++ pick others xs :=
  List.filterMap_append

theorem pick_map (f : α → β) (indices : List Nat) (xs : List α) :
    pick indices (xs.map f) = (pick indices xs).map f := by
  unfold pick
  rw [List.map_filterMap]
  congr 1
  funext index
  rw [List.getElem?_map]

theorem pick_cons_of_lt {index : Nat} {x : α} (h : xs[index]? = some x) :
    pick (index :: indices) xs = x :: pick indices xs :=
  List.filterMap_cons_some h

theorem within_cons {index length : Nat} :
    Within (index :: indices) length ↔ index < length ∧ Within indices length :=
  List.forall_mem_cons

theorem Within.tail {index length : Nat} (h : Within (index :: indices) length) :
    Within indices length := fun other hother => h other (List.mem_cons_of_mem _ hother)

theorem Within.exists_getElem? {index : Nat} (h : Within (index :: indices) xs.length) :
    ∃ x, xs[index]? = some x := by
  have hlt := h index List.mem_cons_self
  exact ⟨xs[index], List.getElem?_eq_getElem hlt⟩

theorem length_pick (h : Within indices xs.length) : (pick indices xs).length = indices.length := by
  induction indices with
  | nil => rfl
  | cons index indices ih =>
    obtain ⟨x, hx⟩ := h.exists_getElem?
    rw [pick_cons_of_lt hx, List.length_cons, List.length_cons, ih h.tail]

theorem getElem?_pick (h : Within indices xs.length) (k : Nat) :
    (pick indices xs)[k]? = indices[k]?.bind fun index => xs[index]? := by
  induction indices generalizing k with
  | nil => rfl
  | cons index indices ih =>
    obtain ⟨x, hx⟩ := h.exists_getElem?
    rw [pick_cons_of_lt hx]
    cases k with
    | zero => simp [hx]
    | succ k =>
      rw [List.getElem?_cons_succ, List.getElem?_cons_succ]
      exact ih h.tail k

theorem mem_of_mem_pick {x : α} (h : x ∈ pick indices xs) : x ∈ xs := by
  obtain ⟨index, -, hx⟩ := List.mem_filterMap.mp h
  exact List.mem_of_getElem? hx

theorem pick_pick (h : Within others xs.length) :
    pick indices (pick others xs) = pick (pick indices others) xs := by
  unfold pick
  rw [List.filterMap_filterMap]
  congr 1
  funext index
  exact getElem?_pick h index

theorem pick_range' (start count : Nat) (xs : List α) :
    pick (List.range' start count) xs = (xs.drop start).take count := by
  induction count generalizing start with
  | zero => rfl
  | succ count ih =>
    rw [List.range'_succ]
    cases hx : xs[start]? with
    | some x =>
      rw [pick_cons_of_lt hx, ih]
      obtain ⟨hlt, rfl⟩ := List.getElem?_eq_some_iff.mp hx
      rw [List.drop_eq_getElem_cons hlt, List.take_succ_cons]
    | none =>
      have hlength := List.getElem?_eq_none_iff.mp hx
      have hskip : pick (start :: List.range' (start + 1) count) xs =
          pick (List.range' (start + 1) count) xs := List.filterMap_cons_none hx
      rw [hskip, ih, List.drop_of_length_le hlength, List.drop_of_length_le (by omega)]
      rw [List.take_nil, List.take_nil]

theorem pick_range (xs : List α) : pick (List.range xs.length) xs = xs := by
  rw [List.range_eq_range', pick_range', List.drop_zero, List.take_length]

theorem pick_of_range' {start count : Nat} (h : Within indices count) :
    pick indices (List.range' start count) = indices.map (start + ·) := by
  induction indices with
  | nil => rfl
  | cons index indices ih =>
    obtain ⟨hindex, hrest⟩ := within_cons.mp h
    have hitem : (List.range' start count)[index]? = some (start + index) := by
      rw [List.getElem?_range' hindex, Nat.one_mul]
    rw [pick_cons_of_lt hitem, ih hrest, List.map_cons]

theorem within_range' {start count length : Nat} (h : start + count ≤ length) :
    Within (List.range' start count) length := by
  intro index hindex
  have hbounds := List.mem_range'_1.mp hindex
  omega

theorem Within.pick {length : Nat} (h : Within others length) :
    Within (pick indices others) length := by
  intro index hindex
  exact h index (mem_of_mem_pick hindex)

end Selection
