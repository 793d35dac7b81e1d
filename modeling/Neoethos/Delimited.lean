import Mathlib.Data.List.Induction
import Mathlib.Tactic.Common

/-! Items that each end in a delimiter, and what a cut leaves of them. -/

namespace Delimited

section Join

variable {α : Type*} {d : α} {item : List α}

def join (d : α) (items : List (List α)) : List α :=
  items.flatMap fun item => item ++ [d]

theorem join_append (xs ys : List (List α)) : join d (xs ++ ys) = join d xs ++ join d ys :=
  List.flatMap_append

theorem join_singleton (item : List α) : join d [item] = item ++ [d] := by
  simp [join]

/-- A closed item that is cut is either whole or holds no delimiter. -/
theorem take_closed (h : d ∉ item) (n : Nat) :
    (item ++ [d]).take n = item ++ [d] ∧ item.length < n ∨
      d ∉ (item ++ [d]).take n ∧ n ≤ item.length := by
  by_cases hn : item.length < n
  · left
    have hlength : (item ++ [d]).length ≤ n := by
      rw [List.length_append, List.length_singleton]
      omega
    exact ⟨List.take_of_length_le hlength, hn⟩
  · right
    have hle : n ≤ item.length := by omega
    rw [List.take_append_of_le_length hle]
    exact ⟨fun hd => h (List.mem_of_mem_take hd), hle⟩

end Join

variable {α : Type*} [DecidableEq α]

/-- `Iterator::rposition` on a slice. -/
def rposition (p : α → Bool) (xs : List α) : Option Nat :=
  (xs.reverse.findIdx? p).map fun fromEnd => xs.length - 1 - fromEnd

def completeLen (d : α) (xs : List α) : Nat :=
  match rposition (· = d) xs with
  | some idx => idx + 1
  | none => 0

variable {d : α} {tail front item : List α} {items : List (List α)}

theorem findIdx?_reverse_eq_none (h : d ∉ tail) : tail.reverse.findIdx? (· = d) = none := by
  rw [List.findIdx?_eq_none_iff]
  intro x hx
  have hne : x ≠ d := by
    rintro rfl
    exact h (List.mem_reverse.mp hx)
  simpa using hne

theorem completeLen_of_not_mem (h : d ∉ tail) : completeLen d tail = 0 := by
  rw [completeLen, rposition, findIdx?_reverse_eq_none h]
  rfl

theorem completeLen_append_cons (h : d ∉ tail) :
    completeLen d (front ++ d :: tail) = front.length + 1 := by
  have hfind : (front ++ d :: tail).reverse.findIdx? (· = d) = some tail.length := by
    have hreverse : (front ++ d :: tail).reverse = tail.reverse ++ d :: front.reverse := by simp
    rw [hreverse, List.findIdx?_append, findIdx?_reverse_eq_none h, List.findIdx?_cons]
    simp
  have hlength : (front ++ d :: tail).length = front.length + tail.length + 1 := by
    rw [List.length_append, List.length_cons]
    omega
  have hposition : rposition (· = d) (front ++ d :: tail) = some front.length := by
    rw [rposition, hfind, Option.map_some]
    apply congrArg some
    omega
  rw [completeLen, hposition]

/-- The complete part of joined items and a rest is the joined items. -/
theorem completeLen_join_append (h : d ∉ tail) :
    completeLen d (join d items ++ tail) = (join d items).length := by
  induction items using List.reverseRecOn with
  | nil => exact completeLen_of_not_mem h
  | append_singleton items item _ =>
    have hsplit : join d (items ++ [item]) ++ tail = (join d items ++ item) ++ d :: tail := by
      rw [join_append, join_singleton]
      simp
    rw [hsplit, completeLen_append_cons h, join_append, join_singleton]
    simp only [List.length_append, List.length_singleton]
    omega

theorem forall_ne_of_not_mem (h : d ∉ item) : ∀ x ∈ item, (x == d) = false := by
  intro x hx
  have hne : x ≠ d := by
    rintro rfl
    exact h hx
  simpa using hne

theorem splitOn_of_not_mem (h : d ∉ tail) : tail.splitOn d = [tail] := by
  rw [List.splitOn_eq_splitOnP, List.splitOnP_eq_singleton (forall_ne_of_not_mem h)]

theorem splitOn_join_append (h : ∀ item ∈ items, d ∉ item) (rest : List α) :
    (join d items ++ rest).splitOn d = items ++ rest.splitOn d := by
  induction items with
  | nil => rfl
  | cons item items ih =>
    rw [List.forall_mem_cons] at h
    have hsplit : join d (item :: items) ++ rest = item ++ d :: (join d items ++ rest) := by
      simp [join]
    rw [hsplit, List.splitOn_eq_splitOnP,
      List.splitOnP_append_cons_of_forall_mem (forall_ne_of_not_mem h.1) d (by simp),
      ← List.splitOn_eq_splitOnP, ih h.2]
    rfl

theorem splitOn_join (h : ∀ item ∈ items, d ∉ item) : (join d items).splitOn d = items ++ [[]] := by
  have hsplit := splitOn_join_append h []
  rwa [List.append_nil] at hsplit

end Delimited
