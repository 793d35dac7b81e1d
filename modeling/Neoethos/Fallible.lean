import Mathlib.Data.List.Forall2
import Mathlib.Data.List.Induction
import Mathlib.Tactic.Common

/-! Rules for computations in `Except`. -/

universe u

namespace Fallible

variable {ε δ : Type*} {α β : Type u}

theorem map_ok_iff {α β : Type*} {f : α → β} {x : Except ε α} {y : β} :
    x.map f = .ok y ↔ ∃ a, x = .ok a ∧ f a = y := by
  cases x with
  | error e => simp [Except.map]
  | ok a => simp [Except.map]

theorem map_error_iff {f : α → β} {x : Except ε α} {e : ε} :
    x.map f = .error e ↔ x = .error e := by
  cases x with
  | error e => simp [Except.map]
  | ok a => simp [Except.map]

theorem ok_bind {a : α} {f : α → Except ε β} : (Except.ok a >>= f) = f a := rfl

theorem error_bind {e : ε} {f : α → Except ε β} : (Except.error e >>= f) = .error e := rfl

theorem bind_ok_iff {x : Except ε α} {f : α → Except ε β} {y : β} :
    (x >>= f) = .ok y ↔ ∃ a, x = .ok a ∧ f a = .ok y := by
  cases x with
  | error e => simp [bind, Except.bind]
  | ok a => simp [bind, Except.bind]

theorem bind_error_iff {x : Except ε α} {f : α → Except ε β} {e : ε} :
    (x >>= f) = .error e ↔ x = .error e ∨ ∃ a, x = .ok a ∧ f a = .error e := by
  cases x with
  | error e' => simp [bind, Except.bind]
  | ok a => simp [bind, Except.bind]

/-- A change of the values goes through a computation when it goes through what follows. -/
theorem map_bind_map {α' β' : Type u} {m : α → α'} {r : β → β'} {f : α → Except ε β}
    {g : α' → Except ε β'} (x : Except ε α) (h : ∀ a, g (m a) = (f a).map r) :
    (x.map m >>= g) = (x >>= f).map r := by
  cases x with
  | error e => rfl
  | ok a => exact h a

theorem bind_map {β' : Type u} {r : β → β'} {f : α → Except ε β} {g : α → Except ε β'}
    (x : Except ε α) (h : ∀ a, g a = (f a).map r) : (x >>= g) = (x >>= f).map r := by
  cases x with
  | error e => rfl
  | ok a => exact h a

theorem check_ok_iff {x : Except ε PUnit} {f : PUnit → Except ε α} {y : α} :
    (x >>= f) = .ok y ↔ x = .ok ⟨⟩ ∧ f ⟨⟩ = .ok y := by
  rw [bind_ok_iff]
  constructor
  · intro h
    obtain ⟨⟨⟩, hx, hy⟩ := h
    exact ⟨hx, hy⟩
  · intro h
    exact ⟨⟨⟩, h⟩

theorem mapError_ok_iff {f : ε → δ} {x : Except ε α} {y : α} :
    x.mapError f = .ok y ↔ x = .ok y := by
  cases x with
  | error e => simp [Except.mapError]
  | ok a => simp [Except.mapError]

theorem exists_ok_of_any {p : α → Bool} {x : Except ε α} (h : x.toOption.any p = true) :
    ∃ a, x = .ok a ∧ p a = true := by
  cases x with
  | error e => simp [Except.toOption] at h
  | ok a => exact ⟨a, rfl, h⟩

theorem forM_ok_iff {γ : Type*} {f : γ → Except ε PUnit} {xs : List γ} :
    forM xs f = .ok ⟨⟩ ↔ ∀ x ∈ xs, f x = .ok ⟨⟩ := by
  induction xs with
  | nil => simp [pure, Except.pure]
  | cons a xs ih => rw [List.forM_cons, check_ok_iff, ih, List.forall_mem_cons]

section Traverse

variable {γ : Type*} {f : γ → Except ε α} {xs ys : List γ}

theorem mapM_ok_iff {as : List α} :
    xs.mapM f = .ok as ↔ List.Forall₂ (fun x a => f x = .ok a) xs as := by
  induction xs generalizing as with
  | nil => simp [pure, Except.pure, eq_comm]
  | cons x xs ih =>
    simp only [List.mapM_cons, bind_ok_iff, ih, List.forall₂_cons_left_iff, pure, Except.pure,
      Except.ok.injEq]
    constructor
    · intro h
      obtain ⟨a, ha, as', has, rfl⟩ := h
      exact ⟨a, as', ha, has, rfl⟩
    · intro h
      obtain ⟨a, as', ha, has, rfl⟩ := h
      exact ⟨a, ha, as', has, rfl⟩

theorem mapM_congr {g : γ → Except ε α} (h : ∀ x ∈ xs, f x = g x) : xs.mapM f = xs.mapM g := by
  induction xs with
  | nil => rfl
  | cons x xs ih =>
    rw [List.forall_mem_cons] at h
    rw [List.mapM_cons, List.mapM_cons, h.1, ih h.2]

theorem eq_map_of_mapM_ok {g : γ → α} {as : List α} (hg : ∀ x a, f x = .ok a → a = g x)
    (h : xs.mapM f = .ok as) : as = xs.map g := by
  replace h := (mapM_ok_iff.mp h).imp hg
  induction h with
  | nil => rfl
  | cons hhead _ ih => rw [List.map_cons, hhead, ih]

theorem mapM_eq_map {g : γ → α} (h : ∀ x ∈ xs, f x = .ok (g x)) : xs.mapM f = .ok (xs.map g) := by
  rw [mapM_ok_iff]
  induction xs with
  | nil => exact .nil
  | cons x xs ih =>
    rw [List.forall_mem_cons] at h
    exact .cons h.1 (ih h.2)

theorem mapM_inverse {γ α : Type u} {f : γ → Except ε α} {g : α → Except ε γ} {xs : List γ}
    {as : List α} (hinverse : ∀ x a, f x = .ok a → g a = .ok x) (h : xs.mapM f = .ok as) :
    as.mapM g = .ok xs := by
  refine mapM_ok_iff.mpr (List.Forall₂.flip ((mapM_ok_iff.mp h).imp ?_))
  intro x a ha
  exact hinverse x a ha

theorem mapM_append_ok {as bs : List α} (hxs : xs.mapM f = .ok as) (hys : ys.mapM f = .ok bs) :
    (xs ++ ys).mapM f = .ok (as ++ bs) := by
  rw [List.mapM_append, hxs, hys]
  rfl

theorem exists_mapM_ok_iff : (∃ as, xs.mapM f = .ok as) ↔ ∀ x ∈ xs, ∃ a, f x = .ok a := by
  simp only [mapM_ok_iff]
  induction xs with
  | nil => simp
  | cons x xs ih =>
    rw [List.forall_mem_cons, ← ih]
    simp only [List.forall₂_cons_left_iff]
    constructor
    · intro h
      obtain ⟨_, a, as, ha, has, rfl⟩ := h
      exact ⟨⟨a, ha⟩, as, has⟩
    · intro h
      obtain ⟨⟨a, ha⟩, as, has⟩ := h
      exact ⟨a :: as, a, as, ha, has, rfl⟩

theorem mapM_map_ok_iff {β : Type*} {g : α → β} {bs : List β} :
    (xs.mapM fun x => (f x).map g) = .ok bs ↔ ∃ as, xs.mapM f = .ok as ∧ as.map g = bs := by
  simp only [mapM_ok_iff, map_ok_iff]
  induction xs generalizing bs with
  | nil => simp [eq_comm]
  | cons x xs ih =>
    simp only [List.forall₂_cons_left_iff, ih]
    constructor
    · intro h
      obtain ⟨_, _, ⟨a, ha, rfl⟩, ⟨as, has, rfl⟩, rfl⟩ := h
      exact ⟨a :: as, ⟨a, as, ha, has, rfl⟩, rfl⟩
    · intro h
      obtain ⟨_, ⟨a, as, ha, has, rfl⟩, rfl⟩ := h
      exact ⟨g a, as.map g, ⟨a, ha, rfl⟩, ⟨as, has, rfl⟩, rfl⟩

/-- Two lists that a computation gives to the same list are one. -/
theorem forall₂_ok_unique {as bs : List α} (has : List.Forall₂ (fun x a => f x = .ok a) xs as)
    (hbs : List.Forall₂ (fun x a => f x = .ok a) xs bs) : as = bs :=
  Except.ok.inj ((mapM_ok_iff.mpr has).symm.trans (mapM_ok_iff.mpr hbs))

end Traverse

def refuse (bad : Prop) [Decidable bad] (e : ε) : Except ε PUnit :=
  if bad then .error e else .ok ⟨⟩

@[simp] theorem refuse_ok_iff {bad : Prop} [Decidable bad] {e : ε} :
    refuse bad e = .ok ⟨⟩ ↔ ¬bad := by
  unfold refuse
  split <;> simp [*]

def require (x : Option α) (e : ε) : Except ε α :=
  match x with
  | some a => .ok a
  | none => .error e

@[simp] theorem require_ok_iff {x : Option α} {e : ε} {a : α} :
    require x e = .ok a ↔ x = some a := by
  cases x <;> simp [require]

/-- Runs `f` on every two neighbours of a list, in order. -/
def forPairs {γ : Type*} (f : γ → γ → Except ε PUnit) : List γ → Except ε PUnit
  | a :: b :: xs => do
    f a b
    forPairs f (b :: xs)
  | _ => .ok ⟨⟩

theorem forPairs_ok_iff {γ : Type*} {f : γ → γ → Except ε PUnit} {xs : List γ} :
    forPairs f xs = .ok ⟨⟩ ↔ xs.IsChain fun a b => f a b = .ok ⟨⟩ := by
  induction xs with
  | nil => simp [forPairs]
  | cons a xs ih =>
    cases xs with
    | nil => simp [forPairs]
    | cons b xs => rw [forPairs, check_ok_iff, ih, List.isChain_cons_cons]

section Fold

variable {γ : Type*} {f : α → γ → Except ε α} {xs ys : List γ} {x : γ} {s s' : α}

theorem foldlM_nil_ok_iff : ([] : List γ).foldlM f s = .ok s' ↔ s = s' := by
  simp [pure, Except.pure]

theorem foldlM_cons_ok_iff :
    (x :: xs).foldlM f s = .ok s' ↔ ∃ m, f s x = .ok m ∧ xs.foldlM f m = .ok s' := by
  rw [List.foldlM_cons, bind_ok_iff]

theorem foldlM_append_ok_iff :
    (xs ++ ys).foldlM f s = .ok s' ↔ ∃ m, xs.foldlM f s = .ok m ∧ ys.foldlM f m = .ok s' := by
  rw [List.foldlM_append, bind_ok_iff]

theorem foldlM_snoc_ok_iff :
    (xs ++ [x]).foldlM f s = .ok s' ↔ ∃ m, xs.foldlM f s = .ok m ∧ f m x = .ok s' := by
  simp only [foldlM_append_ok_iff, foldlM_cons_ok_iff, foldlM_nil_ok_iff, exists_eq_right]

theorem foldlM_around_ok_iff :
    (xs ++ x :: ys).foldlM f s = .ok s' ↔
      ∃ m m', xs.foldlM f s = .ok m ∧ f m x = .ok m' ∧ ys.foldlM f m' = .ok s' := by
  simp only [foldlM_append_ok_iff, foldlM_cons_ok_iff, exists_and_left]

/-- A property of the state and of what was folded so far holds at the end of a fold. -/
theorem foldlM_invariant {I : List γ → α → Prop} (initial : I [] s)
    (step : ∀ xs x m m', I xs m → f m x = .ok m' → I (xs ++ [x]) m')
    (h : xs.foldlM f s = .ok s') : I xs s' := by
  induction xs using List.reverseRecOn generalizing s' with
  | nil =>
    obtain rfl := foldlM_nil_ok_iff.mp h
    exact initial
  | append_singleton xs x ih =>
    obtain ⟨m, hm, hx⟩ := foldlM_snoc_ok_iff.mp h
    exact step xs x m s' (ih hm) hx

end Fold

/-- Two computations succeed with the same value or both fail, whatever their errors. -/
def Agree (x : Except ε α) (y : Except δ α) : Prop := ∀ a, x = .ok a ↔ y = .ok a

section Never

def Never (bad : ε) (x : Except ε α) : Prop := x ≠ .error bad

variable {bad : ε}

theorem never_ok (a : α) : Never bad (.ok a) := fun h => by cases h

theorem never_error {α : Type u} {e : ε} (h : e ≠ bad) : Never bad (.error e : Except ε α) :=
  fun heq => h (Except.error.inj heq)

theorem Never.bind {x : Except ε α} {f : α → Except ε β} (hx : Never bad x)
    (hf : ∀ a, x = .ok a → Never bad (f a)) : Never bad (x >>= f) := by
  cases x with
  | error e => exact never_error fun h => hx (congrArg Except.error h)
  | ok a => exact hf a rfl

theorem never_refuse {p : Prop} [Decidable p] {e : ε} (h : e ≠ bad) : Never bad (refuse p e) := by
  unfold refuse
  split
  next => exact never_error h
  next => exact never_ok _

theorem never_require {x : Option α} {e : ε} (h : e ≠ bad) : Never bad (require x e) := by
  cases x with
  | none => exact never_error h
  | some a => exact never_ok a

theorem never_mapError {x : Except δ α} {f : δ → ε} (h : ∀ e, f e ≠ bad) :
    Never bad (x.mapError f) := by
  cases x with
  | error e => exact never_error (h e)
  | ok a => exact never_ok a

theorem never_mapM {γ : Type*} {f : γ → Except ε α} {xs : List γ} (h : ∀ x, Never bad (f x)) :
    Never bad (xs.mapM f) := by
  induction xs with
  | nil => exact never_ok _
  | cons x xs ih =>
    rw [List.mapM_cons]
    exact (h x).bind fun _ _ => ih.bind fun _ _ => never_ok _

end Never

end Fallible
