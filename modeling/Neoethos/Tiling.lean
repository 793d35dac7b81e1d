import Mathlib

/-! Half-open intervals listed from the newest to the oldest, each ending where the one
before it starts. -/

namespace Tiling

variable {α : Type*} [LinearOrder α]

/-- The intervals fill the range from `lower` to `upper`. -/
def Tiles (lower : α) : α → List (α × α) → Prop
  | upper, [] => upper = lower
  | upper, i :: older => i.2 = upper ∧ i.1 < i.2 ∧ Tiles lower i.1 older

theorem Tiles.lower_le {lower upper : α} {is : List (α × α)} (h : Tiles lower upper is) :
    lower ≤ upper := by
  induction is generalizing upper with
  | nil => exact le_of_eq h.symm
  | cons i older ih =>
    obtain ⟨rfl, hi, hr⟩ := h
    exact le_of_lt (lt_of_le_of_lt (ih hr) hi)

theorem Tiles.bounds {lower upper : α} {is : List (α × α)} (h : Tiles lower upper is)
    {i : α × α} (hi : i ∈ is) : lower ≤ i.1 ∧ i.2 ≤ upper := by
  induction is generalizing upper with
  | nil => simp at hi
  | cons j older ih =>
    obtain ⟨rfl, hj, hr⟩ := h
    rcases List.mem_cons.mp hi with rfl | hold
    · exact ⟨hr.lower_le, le_refl _⟩
    · obtain ⟨hl, hu⟩ := ih hr hold
      exact ⟨hl, le_of_lt (lt_of_le_of_lt hu hj)⟩

/-- A later interval of the list ends before an earlier one starts. -/
theorem Tiles.ordered {lower upper : α} {is : List (α × α)} (h : Tiles lower upper is) :
    is.Pairwise fun newer older => older.2 ≤ newer.1 := by
  induction is generalizing upper with
  | nil => exact List.Pairwise.nil
  | cons i older ih =>
    obtain ⟨-, -, hr⟩ := h
    exact List.Pairwise.cons (fun j hj => (hr.bounds hj).2) (ih hr)

theorem Tiles.disjoint {lower upper : α} {is : List (α × α)} (h : Tiles lower upper is) :
    is.Pairwise fun i j => Disjoint (Set.Ico i.1 i.2) (Set.Ico j.1 j.2) := by
  refine h.ordered.imp ?_
  intro newer older hle
  rw [Set.disjoint_left]
  intro t hn ho
  exact absurd (lt_of_lt_of_le ho.2 hle) (not_lt.mpr hn.1)

theorem Tiles.covers {lower upper t : α} {is : List (α × α)} (h : Tiles lower upper is)
    (hl : lower ≤ t) (hu : t < upper) : ∃ i ∈ is, i.1 ≤ t ∧ t < i.2 := by
  induction is generalizing upper with
  | nil => exact absurd hu (not_lt.mpr (le_trans (le_of_eq h) hl))
  | cons i older ih =>
    obtain ⟨rfl, -, hr⟩ := h
    by_cases ht : i.1 ≤ t
    · exact ⟨i, List.mem_cons_self, ht, hu⟩
    · obtain ⟨j, hj, hb⟩ := ih hr (not_le.mp ht)
      exact ⟨j, List.mem_cons_of_mem i hj, hb⟩

theorem Tiles.union {lower upper : α} {is : List (α × α)} (h : Tiles lower upper is) :
    ⋃ i ∈ is, Set.Ico i.1 i.2 = Set.Ico lower upper := by
  ext t
  simp only [Set.mem_iUnion, exists_prop, Set.mem_Ico]
  constructor
  · intro hm
    obtain ⟨i, hi, hl, hu⟩ := hm
    obtain ⟨hlow, hup⟩ := h.bounds hi
    exact ⟨le_trans hlow hl, lt_of_lt_of_le hu hup⟩
  · intro ht
    exact h.covers ht.1 ht.2

theorem Tiles.append {lower middle upper : α} {newer older : List (α × α)}
    (hn : Tiles middle upper newer) (ho : Tiles lower middle older) :
    Tiles lower upper (newer ++ older) := by
  induction newer generalizing upper with
  | nil =>
    have he : upper = middle := hn
    rw [he]
    exact ho
  | cons i rest ih =>
    obtain ⟨he, hi, hr⟩ := hn
    exact ⟨he, hi, ih hr⟩

theorem Tiles.refine {ι : Type*} {lower upper : α} {whole : ι → α × α} {parts : ι → List (α × α)}
    {xs : List ι} (h : Tiles lower upper (xs.map whole))
    (hp : ∀ x ∈ xs, Tiles (whole x).1 (whole x).2 (parts x)) :
    Tiles lower upper (xs.flatMap parts) := by
  induction xs generalizing upper with
  | nil => exact h
  | cons x rest ih =>
    obtain ⟨he, -, hr⟩ := h
    have hx := hp x List.mem_cons_self
    rw [he] at hx
    exact hx.append (ih hr fun y hy => hp y (List.mem_cons_of_mem x hy))

/-- Items that happen within their own intervals happen in the order of the intervals. -/
theorem Tiles.chronological {ι : Type*} {happens : ι → α → Prop} {lower upper : α}
    {xs : List ι} {is : List (α × α)} (h : Tiles lower upper is)
    (hin : List.Forall₂ (fun x i => ∀ t, happens x t → i.1 ≤ t ∧ t < i.2) xs is) :
    xs.Pairwise fun newer older => ∀ s t, happens older s → happens newer t → s < t := by
  induction hin generalizing upper with
  | nil => exact List.Pairwise.nil
  | @cons x i rest js hx hrest ih =>
    obtain ⟨-, -, hr⟩ := h
    refine List.Pairwise.cons ?_ (ih hr)
    intro y hy s t hs ht
    obtain ⟨n, hn, rfl⟩ := List.mem_iff_getElem.mp hy
    have hj := hrest.get hn (hrest.length_eq ▸ hn) s hs
    have hb := hr.bounds (List.getElem_mem (hrest.length_eq ▸ hn))
    exact lt_of_lt_of_le (lt_of_lt_of_le hj.2 hb.2) (hx t ht).1

end Tiling
