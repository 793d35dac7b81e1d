import Mathlib.Data.List.Basic
import Mathlib.Tactic.Common

/-! Computations that draw from a random stream and may panic: that one never does, and what it
returns, whatever the stream holds. -/

namespace RandomDraws

variable {R α β : Type} {P : α → Prop} {Q : β → Prop}

abbrev Draw (R : Type) := StateT R Option

def ofStream (m : StateM R α) : Draw R α :=
  fun rng => some (m rng)

def crash : Draw R α :=
  fun _ => none

def indexed (xs : List α) (i : Nat) : Draw R α :=
  match xs[i]? with
  | some x => pure x
  | none => crash

def onStream (other : R) (m : Draw R α) : Draw R α :=
  fun rng => (m other).map fun out => (out.1, rng)

def Always (m : Draw R α) (P : α → Prop) : Prop :=
  ∀ rng, ∃ a rng', m rng = some (a, rng') ∧ P a

namespace Always

theorem pure {a : α} (h : P a) : Always (Pure.pure a : Draw R α) P :=
  fun rng => ⟨a, rng, rfl, h⟩

theorem ofStream {m : StateM R α} (h : ∀ rng, P (m rng).1) : Always (ofStream m) P :=
  fun rng => ⟨(m rng).1, (m rng).2, rfl, h rng⟩

theorem indexed {xs : List α} {i : Nat} (h : i < xs.length) (hxs : ∀ x ∈ xs, P x) :
    Always (RandomDraws.indexed xs i : Draw R α) P := by
  unfold RandomDraws.indexed
  rw [List.getElem?_eq_getElem h]
  exact .pure (hxs _ (List.getElem_mem h))

theorem onStream {m : Draw R α} (h : Always m P) (other : R) : Always (onStream other m) P := by
  intro rng
  obtain ⟨a, rng', hrun, ha⟩ := h other
  refine ⟨a, rng, ?_, ha⟩
  unfold RandomDraws.onStream
  rw [hrun, Option.map_some]

theorem bind {m : Draw R α} {f : α → Draw R β} (hm : Always m P)
    (hf : ∀ a, P a → Always (f a) Q) : Always (m >>= f) Q := by
  intro rng
  obtain ⟨a, rng', hrun, ha⟩ := hm rng
  obtain ⟨b, rng'', hnext, hb⟩ := hf a ha rng'
  refine ⟨b, rng'', ?_, hb⟩
  calc (m >>= f) rng
      = (m rng).bind fun out => f out.1 out.2 := rfl
    _ = f a rng' := by rw [hrun, Option.bind_some]
    _ = some (b, rng'') := hnext

theorem imp {m : Draw R α} {P' : α → Prop} (hm : Always m P) (h : ∀ a, P a → P' a) :
    Always m P' := by
  intro rng
  obtain ⟨a, rng', hrun, ha⟩ := hm rng
  exact ⟨a, rng', hrun, h a ha⟩

theorem ite {c : Prop} [Decidable c] {m m' : Draw R α} (hm : c → Always m P)
    (hm' : ¬ c → Always m' P) : Always (if c then m else m') P := by
  split
  next h => exact hm h
  next h => exact hm' h

theorem mapM {f : β → Draw R α} {xs : List β} (hf : ∀ x ∈ xs, Always (f x) P) :
    Always (xs.mapM f) fun ys => ys.length = xs.length ∧ ∀ y ∈ ys, P y := by
  induction xs with
  | nil => exact .pure ⟨rfl, fun y hy => absurd hy List.not_mem_nil⟩
  | cons x rest ih =>
    rw [List.mapM_cons]
    refine .bind (hf x List.mem_cons_self) fun y hy => ?_
    refine .bind (ih fun z hz => hf z (List.mem_cons_of_mem x hz)) fun ys hys => .pure ?_
    exact ⟨congrArg (· + 1) hys.1, List.forall_mem_cons.mpr ⟨hy, hys.2⟩⟩

end Always

def repeatM {m : Type → Type} [Monad m] (turn : α → m α) : Nat → α → m α
  | 0, a => Pure.pure a
  | n + 1, a => turn a >>= repeatM turn n

theorem repeatM_add (turn : α → StateM R α) (m n : Nat) (a : α) (rng : R) :
    repeatM turn (m + n) a rng =
      repeatM turn n (repeatM turn m a rng).1 (repeatM turn m a rng).2 := by
  induction m generalizing a rng with
  | zero =>
    rw [Nat.zero_add]
    rfl
  | succ m ih =>
    rw [Nat.succ_add]
    exact ih (turn a rng).1 (turn a rng).2

theorem Always.repeatM {turn : α → Draw R α} (hturn : ∀ a, P a → Always (turn a) P) (n : Nat)
    {a : α} (ha : P a) : Always (repeatM turn n a) P := by
  induction n generalizing a with
  | zero => exact .pure ha
  | succ n ih => exact .bind (hturn a ha) fun b hb => ih hb

/-- A loop whose turns count: what holds after each of them holds at the end. -/
theorem Always.repeatM_count {turn : α → Draw R α} {P : Nat → α → Prop}
    (hturn : ∀ k a, P k a → Always (turn a) (P (k + 1))) (n : Nat) {k : Nat} {a : α} (ha : P k a) :
    Always (RandomDraws.repeatM turn n a) (P (k + n)) := by
  induction n generalizing k a with
  | zero => exact .pure ha
  | succ n ih =>
    have hlength : k + (n + 1) = k + 1 + n := by omega
    rw [hlength]
    exact .bind (hturn k a ha) fun b hb => ih hb

end RandomDraws
