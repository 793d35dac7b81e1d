import Mathlib.Tactic.Common

/-! Signed 64-bit arithmetic over `Int`, as the standard library of the source defines it. -/

namespace I64

def minValue : Int := -9223372036854775808

def maxValue : Int := 9223372036854775807

def InRange (a : Int) : Prop := minValue ≤ a ∧ a ≤ maxValue

instance (a : Int) : Decidable (InRange a) := inferInstanceAs (Decidable (_ ∧ _))

def checkedAdd (a b : Int) : Option Int := if InRange (a + b) then some (a + b) else none

def checkedSub (a b : Int) : Option Int := if InRange (a - b) then some (a - b) else none

def saturatingSub (a b : Int) : Int := max minValue (min maxValue (a - b))

theorem checkedAdd_eq_some {a b c : Int} : checkedAdd a b = some c ↔ InRange (a + b) ∧ c = a + b := by
  unfold checkedAdd
  split
  next h => simp [h, eq_comm]
  next h => simp [h]

theorem checkedSub_eq_some {a b c : Int} : checkedSub a b = some c ↔ InRange (a - b) ∧ c = a - b := by
  unfold checkedSub
  split
  next h => simp [h, eq_comm]
  next h => simp [h]

theorem saturatingSub_of_inRange {a b : Int} (h : InRange (a - b)) : saturatingSub a b = a - b := by
  obtain ⟨low, high⟩ := h
  unfold saturatingSub
  omega

end I64

namespace Neoethos

/-- A validated `EvidenceWindowV1`: half open, not empty, and its bounds are `i64`. -/
structure EvidenceWindow where
  fromUnixMsInclusive : Int
  toUnixMsExclusive : Int
  nonNegative : 0 ≤ fromUnixMsInclusive
  nonEmpty : fromUnixMsInclusive < toUnixMsExclusive
  bounded : toUnixMsExclusive ≤ I64.maxValue
  deriving DecidableEq

/-- `EvidenceWindowV1::new`; the error carries the bounds its text shows. The last
condition only says that the upper bound is an `i64`. -/
def EvidenceWindow.new (lower upper : Int) : Except (Int × Int) EvidenceWindow :=
  if h : 0 ≤ lower ∧ lower < upper ∧ upper ≤ I64.maxValue then .ok ⟨lower, upper, h.1, h.2.1, h.2.2⟩
  else .error (lower, upper)

def EvidenceWindow.covers (w required : EvidenceWindow) : Bool :=
  w.fromUnixMsInclusive ≤ required.fromUnixMsInclusive &&
    required.toUnixMsExclusive ≤ w.toUnixMsExclusive

theorem EvidenceWindow.new_ok {lower upper : Int} {w : EvidenceWindow} :
    EvidenceWindow.new lower upper = .ok w ↔
      w.fromUnixMsInclusive = lower ∧ w.toUnixMsExclusive = upper := by
  unfold EvidenceWindow.new
  split
  next h =>
    constructor
    · intro heq
      cases heq
      exact ⟨rfl, rfl⟩
    · rintro ⟨rfl, rfl⟩
      rfl
  next h =>
    simp only [reduceCtorEq, false_iff]
    rintro ⟨rfl, rfl⟩
    exact h ⟨w.nonNegative, w.nonEmpty, w.bounded⟩

theorem EvidenceWindow.new_self (w : EvidenceWindow) :
    EvidenceWindow.new w.fromUnixMsInclusive w.toUnixMsExclusive = .ok w :=
  EvidenceWindow.new_ok.mpr ⟨rfl, rfl⟩

end Neoethos
