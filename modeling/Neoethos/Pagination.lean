import Mathlib.Data.Finset.Card
import Mathlib.Data.List.Nodup

/-! Reading a sorted log in pages of the newest `k` items, where the oldest key of a page
is the exclusive upper bound of the next one. The items of a key that a page cut goes
through are read only as far as the page holds them. -/

namespace Pagination

variable {α κ : Type*} [LinearOrder κ] (key : α → κ)

/-- The page that a request for a range holding `l` is answered with. -/
def newest (k : Nat) (l : List α) : List α := l.drop (l.length - k)

/-- What is left of `l` below an exclusive upper bound. -/
def below (t : κ) (l : List α) : List α := l.filter fun x => key x < t

def Sorted (l : List α) : Prop := l.Pairwise fun x y => key x ≤ key y

def Distinct (l : List α) : Prop := l.Pairwise fun x y => key x < key y

def Repeats (l : List α) (t : κ) : Prop := 1 < (l.map key).count t

/-- How many different keys there are from the newest one down to `t`. -/
def rank (l : List α) (t : κ) : Nat := ((l.map key).toFinset.filter fun u => t ≤ u).card

def lastOfEach : List α → List α
  | [] => []
  | x :: l => if key x ∈ l.map key then lastOfEach l else x :: lastOfEach l

/-- Every repeated key is where a page of `k` different keys ends, and meets `side`. -/
def SafeCuts (k : Nat) (side : κ → Prop) (l : List α) : Prop :=
  ∀ t, Repeats key l t → k ∣ rank key l t ∧ side t

variable {key} {k : Nat} {l pre page : List α} {o : α} {t : κ}

theorem Repeats.mem (h : Repeats key l t) : t ∈ l.map key :=
  List.count_pos_iff.mp (Nat.lt_of_succ_lt h)

theorem not_repeats_of_distinct (h : Distinct key l) : ¬Repeats key l t := by
  have nodup : (l.map key).Nodup := List.pairwise_map.mpr (h.imp fun hlt => ne_of_lt hlt)
  exact Nat.not_lt.mpr (List.nodup_iff_count_le_one.mp nodup t)

/-- A filter that keeps all items of a key keeps its repetitions. -/
theorem repeats_filter {p : α → Bool} (keeps : ∀ x ∈ l, key x = t → p x = true) :
    Repeats key (l.filter p) t ↔ Repeats key l t := by
  have hcount : ((l.filter p).map key).count t = (l.map key).count t := by
    unfold List.count
    rw [List.countP_map, List.countP_map, List.countP_filter]
    apply List.countP_congr
    intro x hx
    simp only [Function.comp_apply, Bool.and_eq_true, beq_iff_eq]
    exact ⟨fun h => h.1, fun h => ⟨h, keeps x hx h⟩⟩
  unfold Repeats
  rw [hcount]

theorem distinct_iff (sorted : Sorted key l) : Distinct key l ↔ ∀ t, ¬Repeats key l t := by
  constructor
  · intro h t
    exact not_repeats_of_distinct h
  · intro h
    have nodup : (l.map key).Nodup :=
      List.nodup_iff_count_le_one.mpr fun t => Nat.not_lt.mp (h t)
    have different := List.pairwise_map.mp nodup
    exact (sorted.and different).imp fun ⟨hle, hne⟩ => lt_of_le_of_ne hle hne

theorem lastOfEach_sublist (l : List α) : (lastOfEach key l).Sublist l := by
  induction l with
  | nil => exact List.Sublist.refl _
  | cons x l ih =>
    rw [lastOfEach]
    split
    next => exact ih.cons x
    next => exact ih.cons_cons x

theorem lastOfEach_of_distinct (h : Distinct key l) : lastOfEach key l = l := by
  induction l with
  | nil => rfl
  | cons x l ih =>
    obtain ⟨hx, hl⟩ := List.pairwise_cons.mp h
    have hm : key x ∉ l.map key := by
      intro hm
      obtain ⟨y, hy, heq⟩ := List.mem_map.mp hm
      exact absurd heq (ne_of_gt (hx y hy))
    rw [lastOfEach, if_neg hm, ih hl]

theorem not_repeats_lastOfEach (l : List α) : ¬Repeats key (lastOfEach key l) t := by
  induction l with
  | nil => simp [lastOfEach, Repeats]
  | cons x l ih =>
    rw [lastOfEach]
    split
    next => exact ih
    next fresh =>
      intro h
      unfold Repeats at h ih
      rw [List.map_cons, List.count_cons] at h
      split at h
      next heq =>
        have hx : key x = t := by simpa using heq
        have absent : t ∉ (lastOfEach key l).map key := by
          intro hm
          obtain ⟨y, hy, hkey⟩ := List.mem_map.mp hm
          apply fresh
          rw [hx, ← hkey]
          exact List.mem_map_of_mem ((lastOfEach_sublist l).subset hy)
        rw [List.count_eq_zero_of_not_mem absent] at h
        omega
      next => omega

theorem lastOfEach_eq_iff (sorted : Sorted key l) :
    lastOfEach key l = l ↔ ∀ t, ¬Repeats key l t := by
  constructor
  · intro h t
    rw [← h]
    exact not_repeats_lastOfEach l
  · intro h
    exact lastOfEach_of_distinct ((distinct_iff sorted).mpr h)

theorem lastOfEach_append (separate : ∀ x ∈ pre, ∀ y ∈ page, key x < key y) :
    lastOfEach key (pre ++ page) = lastOfEach key pre ++ lastOfEach key page := by
  induction pre with
  | nil => rfl
  | cons x pre ih =>
    have hx : key x ∉ page.map key := by
      intro hm
      obtain ⟨y, hy, heq⟩ := List.mem_map.mp hm
      exact absurd heq (ne_of_gt (separate x (by simp) y hy))
    have ih := ih fun a ha y hy => separate a (List.mem_cons_of_mem x ha) y hy
    by_cases hm : key x ∈ pre.map key
    · have hm' : key x ∈ (pre ++ page).map key := by
        rw [List.map_append]
        exact List.mem_append_left _ hm
      rw [List.cons_append, lastOfEach, if_pos hm', lastOfEach, if_pos hm, ih]
    · have hm' : key x ∉ (pre ++ page).map key := by
        rw [List.map_append, List.mem_append]
        exact not_or.mpr ⟨hm, hx⟩
      rw [List.cons_append, lastOfEach, if_neg hm', lastOfEach, if_neg hm, ih, List.cons_append]

theorem mem_below {x : α} : x ∈ below key t l ↔ x ∈ l ∧ key x < t := by
  simp [below]

theorem below_append (sorted : Sorted key l) (t : κ) :
    below key t l ++ l.filter (fun x => t ≤ key x) = l := by
  induction l with
  | nil => rfl
  | cons x l ih =>
    obtain ⟨hx, hl⟩ := List.pairwise_cons.mp sorted
    have ih := ih hl
    unfold below at *
    rcases lt_or_ge (key x) t with hlt | hge
    · simp [hlt, not_le.mpr hlt, ih]
    · have none : l.filter (fun y => key y < t) = [] := by
        apply List.filter_eq_nil_iff.mpr
        intro y hy
        simpa using le_trans hge (hx y hy)
      rw [none, List.nil_append] at ih
      simp [not_lt.mpr hge, hge, none, ih]

theorem rank_pos (h : t ∈ l.map key) : 0 < rank key l t := by
  apply Finset.card_pos.mpr
  exact ⟨t, by simpa using h⟩

theorem rank_lt_length (h : Repeats key l t) : rank key l t < l.length := by
  have hcard : (l.map key).toFinset.card < l.length := by
    apply lt_of_le_of_ne
    · simpa using (l.map key).toFinset_card_le
    · intro heq
      have nodup : (l.map key).Nodup := by
        rw [← Multiset.coe_nodup, ← Multiset.toFinset_card_eq_card_iff_nodup]
        simpa using heq
      exact Nat.not_lt.mpr (List.nodup_iff_count_le_one.mp nodup t) h
  exact lt_of_le_of_lt (Finset.card_filter_le _ _) hcard

theorem not_dvd_rank (h : Repeats key l t) (short : l.length ≤ k) : ¬k ∣ rank key l t := by
  intro hdvd
  have hk := Nat.le_of_dvd (rank_pos h.mem) hdvd
  have := rank_lt_length h
  omega

theorem safeCuts_short {side : κ → Prop} (sorted : Sorted key l) (short : l.length ≤ k) :
    SafeCuts key k side l ↔ Distinct key l := by
  rw [distinct_iff sorted]
  constructor
  · intro h t ht
    exact not_dvd_rank ht short (h t ht).1
  · intro h t ht
    exact absurd ht (h t)

theorem newest_short (short : l.length ≤ k) : newest k l = l := by
  simp [newest, Nat.sub_eq_zero_of_le short]

theorem newest_long (positive : 0 < k) (long : k < l.length) :
    ∃ pre o more, l = pre ++ o :: more ∧ pre ≠ [] ∧ (o :: more).length = k ∧
      newest k l = o :: more := by
  have hlen : (newest k l).length = k := by
    simp only [newest, List.length_drop]
    omega
  have hsplit : l = l.take (l.length - k) ++ newest k l := by simp [newest]
  cases hpage : newest k l with
  | nil =>
    rw [hpage] at hlen
    simp at hlen
    omega
  | cons o more =>
    rw [hpage] at hsplit hlen
    refine ⟨l.take (l.length - k), o, more, hsplit, ?_, hlen, rfl⟩
    intro empty
    have := congrArg List.length empty
    simp only [List.length_take, List.length_nil] at this
    omega

end Pagination

namespace Pagination

variable {α κ : Type*} [LinearOrder κ] {key : α → κ} {k : Nat} {pre more : List α} {o : α} {t : κ}

theorem le_of_cut (sorted : Sorted key (pre ++ o :: more)) {x : α} (hx : x ∈ pre) :
    key x ≤ key o := (List.pairwise_append.mp sorted).2.2 x hx o (by simp)

theorem ge_of_cut (sorted : Sorted key (pre ++ o :: more)) {x : α} (hx : x ∈ o :: more) :
    key o ≤ key x := by
  have hpage := (List.pairwise_append.mp sorted).2.1
  rcases List.mem_cons.mp hx with rfl | hx
  · exact le_refl _
  · exact (List.pairwise_cons.mp hpage).1 x hx

theorem rank_of_le (sorted : Sorted key (pre ++ o :: more)) (ht : key o ≤ t) :
    rank key (pre ++ o :: more) t = rank key (o :: more) t := by
  unfold rank
  congr 1
  ext u
  simp only [Finset.mem_filter, List.mem_toFinset, List.map_append, List.mem_append]
  constructor
  · rintro ⟨hu | hu, hle⟩
    · obtain ⟨x, hx, rfl⟩ := List.mem_map.mp hu
      have hxo := le_of_cut sorted hx
      have heq : key x = key o := le_antisymm hxo (le_trans ht hle)
      exact ⟨by rw [heq]; simp, hle⟩
    · exact ⟨hu, hle⟩
  · rintro ⟨hu, hle⟩
    exact ⟨Or.inr hu, hle⟩

theorem rank_of_lt (sorted : Sorted key (pre ++ o :: more)) (distinct : Distinct key (o :: more))
    (ht : t < key o) :
    rank key (pre ++ o :: more) t =
      rank key (below key (key o) (pre ++ o :: more)) t + (o :: more).length := by
  have nodup : ((o :: more).map key).Nodup :=
    List.pairwise_map.mpr (distinct.imp fun hlt => ne_of_lt hlt)
  have hpage : ((o :: more).map key).toFinset.card = (o :: more).length := by
    rw [List.toFinset_card_of_nodup nodup, List.length_map]
  unfold rank
  rw [← hpage, ← Finset.card_union_of_disjoint]
  · congr 1
    ext u
    simp only [Finset.mem_filter, Finset.mem_union, List.mem_toFinset]
    constructor
    · rintro ⟨hu, hle⟩
      obtain ⟨x, hx, rfl⟩ := List.mem_map.mp hu
      rcases List.mem_append.mp hx with hpre | hmem
      · rcases lt_or_eq_of_le (le_of_cut sorted hpre) with hlt | heq
        · exact Or.inl ⟨List.mem_map_of_mem (mem_below.mpr ⟨hx, hlt⟩), hle⟩
        · exact Or.inr (by rw [heq]; simp)
      · exact Or.inr (List.mem_map_of_mem hmem)
    · rintro (⟨hu, hle⟩ | hu)
      · obtain ⟨x, hx, rfl⟩ := List.mem_map.mp hu
        exact ⟨List.mem_map_of_mem (mem_below.mp hx).1, hle⟩
      · obtain ⟨x, hx, rfl⟩ := List.mem_map.mp hu
        refine ⟨List.mem_map_of_mem (List.mem_append_right _ hx), ?_⟩
        exact le_trans (le_of_lt ht) (ge_of_cut sorted hx)
  · rw [Finset.disjoint_left]
    intro u hu hpage
    obtain ⟨x, hx, rfl⟩ := List.mem_map.mp (List.mem_toFinset.mp (Finset.mem_filter.mp hu).1)
    obtain ⟨y, hy, heq⟩ := List.mem_map.mp (List.mem_toFinset.mp hpage)
    have hlt := (mem_below.mp hx).2
    have hge := ge_of_cut sorted hy
    rw [heq] at hge
    exact absurd hlt (not_lt.mpr hge)

theorem rank_page (sorted : Sorted key (pre ++ o :: more)) (distinct : Distinct key (o :: more)) :
    rank key (pre ++ o :: more) (key o) = (o :: more).length := by
  have nodup : ((o :: more).map key).Nodup :=
    List.pairwise_map.mpr (distinct.imp fun hlt => ne_of_lt hlt)
  have all : ((o :: more).map key).toFinset.filter (fun u => key o ≤ u) =
      ((o :: more).map key).toFinset := by
    apply Finset.filter_true_of_mem
    intro u hu
    obtain ⟨x, hx, rfl⟩ := List.mem_map.mp (List.mem_toFinset.mp hu)
    exact ge_of_cut sorted hx
  rw [rank_of_le sorted le_rfl, rank, all, List.toFinset_card_of_nodup nodup, List.length_map]

theorem repeats_below (ht : t < key o) :
    Repeats key (below key (key o) l) t ↔ Repeats key l t := by
  apply repeats_filter
  rintro x _ rfl
  simpa using ht

theorem repeats_page (h : Repeats key (o :: more) t) : Repeats key (pre ++ o :: more) t := by
  unfold Repeats at *
  rw [List.map_append, List.count_append]
  omega

theorem repeats_cut {x : α} (hx : x ∈ pre) (heq : key x = key o) :
    Repeats key (pre ++ o :: more) (key o) := by
  unfold Repeats
  have hpre : 0 < (pre.map key).count (key o) :=
    List.count_pos_iff.mpr (by rw [← heq]; exact List.mem_map_of_mem hx)
  have hpage : 0 < ((o :: more).map key).count (key o) := List.count_pos_iff.mpr (by simp)
  rw [List.map_append, List.count_append]
  omega

/-- A log that needs more than one page: the page must have different keys, the key it
ends with may go on below the page, and the rest is read below that key. -/
theorem safeCuts_cut {side : κ → Prop} (sorted : Sorted key (pre ++ o :: more))
    (full : (o :: more).length = k) :
    SafeCuts key k side (pre ++ o :: more) ↔
      Distinct key (o :: more) ∧ (Repeats key (pre ++ o :: more) (key o) → side (key o)) ∧
        SafeCuts key k side (below key (key o) (pre ++ o :: more)) := by
  have sortedPage := (List.pairwise_append.mp sorted).2.1
  constructor
  · intro h
    have distinct : Distinct key (o :: more) := by
      rw [distinct_iff sortedPage]
      intro t ht
      obtain ⟨x, hx, rfl⟩ := List.mem_map.mp ht.mem
      have hdvd := (h _ (repeats_page ht)).1
      rw [rank_of_le sorted (ge_of_cut sorted hx)] at hdvd
      exact not_dvd_rank ht full.le hdvd
    refine ⟨distinct, fun ht => (h _ ht).2, ?_⟩
    intro t ht
    obtain ⟨x, hx, rfl⟩ := List.mem_map.mp ht.mem
    have hlt := (mem_below.mp hx).2
    obtain ⟨hdvd, hside⟩ := h _ ((repeats_below hlt).mp ht)
    rw [rank_of_lt sorted distinct hlt, full] at hdvd
    exact ⟨(Nat.dvd_add_left (Nat.dvd_refl k)).mp hdvd, hside⟩
  · rintro ⟨distinct, hside, h⟩ t ht
    obtain ⟨x, hx, rfl⟩ := List.mem_map.mp ht.mem
    rcases lt_or_ge (key x) (key o) with hlt | hge
    · obtain ⟨hdvd, hs⟩ := h _ ((repeats_below hlt).mpr ht)
      rw [rank_of_lt sorted distinct hlt, full]
      exact ⟨(Nat.dvd_add_left (Nat.dvd_refl k)).mpr hdvd, hs⟩
    · -- above the key the page ends with, all items of a key are in the page
      have heq : key x = key o := by
        by_contra hne
        have hgt : key o < key x := lt_of_le_of_ne hge (Ne.symm hne)
        have absent : key x ∉ pre.map key := by
          intro hm
          obtain ⟨y, hy, hkey⟩ := List.mem_map.mp hm
          have hle := le_of_cut sorted hy
          rw [hkey] at hle
          exact absurd hgt (not_lt.mpr hle)
        have hpage : Repeats key (o :: more) (key x) := by
          unfold Repeats at *
          rwa [List.map_append, List.count_append, List.count_eq_zero_of_not_mem absent,
            Nat.zero_add] at ht
        exact not_repeats_of_distinct distinct hpage
      rw [heq] at ht ⊢
      rw [rank_page sorted distinct, full]
      exact ⟨Nat.dvd_refl k, hside ht⟩

theorem lastOfEach_cut (sorted : Sorted key (pre ++ o :: more))
    (distinct : Distinct key (o :: more)) :
    lastOfEach key (pre ++ o :: more) =
      lastOfEach key (below key (key o) (pre ++ o :: more)) ++ o :: more := by
  induction pre with
  | nil =>
    have empty : below key (key o) (o :: more) = [] := by
      apply List.filter_eq_nil_iff.mpr
      intro x hx
      have hge := ge_of_cut sorted hx
      simpa using hge
    rw [List.nil_append, lastOfEach_of_distinct distinct, empty]
    rfl
  | cons x pre ih =>
    have ih := ih (List.pairwise_cons.mp sorted).2
    have hle : key x ≤ key o := le_of_cut sorted (by simp)
    rcases lt_or_eq_of_le hle with hlt | heq
    · have hmem : key x ∈ (pre ++ o :: more).map key ↔
          key x ∈ (below key (key o) (pre ++ o :: more)).map key := by
        simp only [List.mem_map, mem_below]
        constructor
        · rintro ⟨y, hy, hkey⟩
          exact ⟨y, ⟨hy, by rw [hkey]; exact hlt⟩, hkey⟩
        · rintro ⟨y, ⟨hy, _⟩, hkey⟩
          exact ⟨y, hy, hkey⟩
      have hbelow : below key (key o) (x :: pre ++ o :: more) =
          x :: below key (key o) (pre ++ o :: more) := by
        simp [below, hlt]
      rw [hbelow, List.cons_append, lastOfEach, lastOfEach]
      simp only [hmem]
      split
      next => exact ih
      next => rw [ih, List.cons_append]
    · have hmem : key x ∈ (pre ++ o :: more).map key := by
        rw [heq]
        simp
      have hbelow : below key (key o) (x :: pre ++ o :: more) =
          below key (key o) (pre ++ o :: more) := by
        simp [below, heq]
      rw [hbelow, List.cons_append, lastOfEach, if_pos hmem, ih]

end Pagination
