import Mathlib.Algebra.BigOperators.Group.List.Basic
import Mathlib.Data.List.Dedup
import Mathlib.Data.List.Induction
import Mathlib.Tactic.Common

/-! The items of a list that are the first of their key, and what is left of the others. -/

namespace FirstOfKey

variable {α κ : Type*} [DecidableEq κ] {key : α → κ} {xs : List α} {x : α}

def firsts (key : α → κ) (xs : List α) : List α :=
  xs.foldl (fun kept x => if key x ∈ kept.map key then kept else kept ++ [x]) []

theorem firsts_concat (key : α → κ) (xs : List α) (x : α) :
    firsts key (xs ++ [x]) =
      if key x ∈ (firsts key xs).map key then firsts key xs else firsts key xs ++ [x] :=
  List.foldl_concat ..

theorem mem_map_key_firsts {k : κ} : k ∈ (firsts key xs).map key ↔ k ∈ xs.map key := by
  induction xs using List.reverseRecOn with
  | nil => rfl
  | append_singleton xs x ih =>
    rw [firsts_concat]
    split
    next hmem =>
      rw [List.map_append, List.mem_append, ← ih, List.map_singleton, List.mem_singleton]
      constructor
      · exact .inl
      · rintro (hk | rfl)
        · exact hk
        · exact hmem
    next =>
      rw [List.map_append, List.map_append, List.mem_append, List.mem_append, ih]

theorem firsts_concat_of_mem (h : key x ∈ xs.map key) :
    firsts key (xs ++ [x]) = firsts key xs := by
  rw [firsts_concat, if_pos (mem_map_key_firsts.mpr h)]

theorem firsts_concat_of_not_mem (h : key x ∉ xs.map key) :
    firsts key (xs ++ [x]) = firsts key xs ++ [x] := by
  rw [firsts_concat, if_neg (mt mem_map_key_firsts.mp h)]

theorem nodup_map_key_firsts : ((firsts key xs).map key).Nodup := by
  induction xs using List.reverseRecOn with
  | nil => exact List.nodup_nil
  | append_singleton xs x ih =>
    rw [firsts_concat]
    split
    next => exact ih
    next hmem =>
      rw [List.map_append, List.map_singleton, List.nodup_append]
      refine ⟨ih, List.nodup_singleton _, ?_⟩
      intro a ha b hb hab
      rw [List.mem_singleton.mp hb] at hab
      exact hmem (hab ▸ ha)

theorem firsts_subset : firsts key xs ⊆ xs := by
  induction xs using List.reverseRecOn with
  | nil => exact List.Subset.refl _
  | append_singleton xs x ih =>
    rw [firsts_concat]
    split
    next => exact List.Subset.trans ih (List.subset_append_left _ _)
    next =>
      intro y hy
      rcases List.mem_append.mp hy with hy | hy
      · exact List.mem_append_left _ (ih hy)
      · exact List.mem_append_right _ hy

theorem firsts_prefix (xs ys : List α) : firsts key xs <+: firsts key (xs ++ ys) := by
  induction ys using List.reverseRecOn with
  | nil => simp
  | append_singleton ys y ih =>
    rw [← List.append_assoc, firsts_concat]
    split
    next => exact ih
    next => exact ih.trans (List.prefix_append _ _)

/-- Where a key has one item, every item is a first one. -/
theorem mem_firsts_iff (h : ∀ x ∈ xs, ∀ y ∈ xs, key x = key y → x = y) :
    x ∈ firsts key xs ↔ x ∈ xs := by
  constructor
  · intro hx
    exact firsts_subset hx
  · intro hx
    obtain ⟨first, hfirst, hkey⟩ := List.mem_map.mp
      (mem_map_key_firsts.mpr (List.mem_map_of_mem (f := key) hx))
    rw [← h first (firsts_subset hfirst) x hx hkey]
    exact hfirst

/-- Two lists of the same items, where a key has one item, have the same first ones. -/
theorem firsts_perm_of_same {ys : List α} (h : ∀ x ∈ xs, ∀ y ∈ xs, key x = key y → x = y)
    (hsame : ∀ x, x ∈ xs ↔ x ∈ ys) : (firsts key xs).Perm (firsts key ys) := by
  have hys : ∀ x ∈ ys, ∀ y ∈ ys, key x = key y → x = y := fun x hx y hy =>
    h x ((hsame x).mpr hx) y ((hsame y).mpr hy)
  rw [List.perm_ext_iff_of_nodup nodup_map_key_firsts.of_map nodup_map_key_firsts.of_map]
  intro x
  rw [mem_firsts_iff h, mem_firsts_iff hys]
  exact hsame x

section Later

variable [DecidableEq α]

def later (key : α → κ) (xs : List α) : List α :=
  xs.dedup.filter (· ∉ firsts key xs)

theorem firsts_perm : (xs.dedup.filter (· ∈ firsts key xs)).Perm (firsts key xs) := by
  rw [List.perm_ext_iff_of_nodup ((List.nodup_dedup xs).filter _) nodup_map_key_firsts.of_map]
  intro y
  rw [List.mem_filter, decide_eq_true_eq, List.mem_dedup]
  constructor
  · exact And.right
  · intro hy
    exact ⟨firsts_subset hy, hy⟩

/-- A sum over the distinct items is the sum over the first ones and the sum over the others. -/
theorem sum_firsts_add_sum_later {M : Type*} [AddCommMonoid M] (f : α → M) :
    ((firsts key xs).map f).sum + ((later key xs).map f).sum = (xs.dedup.map f).sum := by
  have hsplit := (List.filter_append_perm (fun x => decide (x ∈ firsts key xs)) xs.dedup).map f
  have hlater : xs.dedup.filter (fun x => !decide (x ∈ firsts key xs)) = later key xs := by
    unfold later
    congr 1
    funext x
    simp
  rw [← (firsts_perm.map f).sum_eq, ← hsplit.sum_eq, List.map_append, List.sum_append, hlater]

end Later

end FirstOfKey
