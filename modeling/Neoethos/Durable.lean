import Mathlib.Data.List.Basic
import Mathlib.Tactic.Common

/-! Computations over a store that outlives them. A computation may die between any two of its
writes, and the rules of pre- and postconditions say what the store is then. -/

class DurableStore (σ : Type) (ω : outParam Type) where
  write : σ → ω → σ

/-- What a computation does from a state of the store: its writes, in order, and how it ends. -/
def Durable (σ ω ε α : Type) : Type := σ → List ω × Except ε α

namespace Durable

variable {σ ω ε α β : Type} [DurableStore σ ω]

def after (s : σ) (ws : List ω) : σ := ws.foldl DurableStore.write s

instance : Monad (Durable σ ω ε) where
  pure a := fun _ => ([], .ok a)
  bind x f := fun s =>
    match x s with
    | (ws, .error e) => (ws, .error e)
    | (ws, .ok a) => (ws ++ (f a (after s ws)).1, (f a (after s ws)).2)

def get : Durable σ ω ε σ := fun s => ([], .ok s)

def fail (e : ε) : Durable σ ω ε α := fun _ => ([], .error e)

def lift (x : Except ε α) : Durable σ ω ε α := fun _ => ([], x)

def write (w : ω) : Durable σ ω ε Unit := fun _ => ([w], .ok ())

def attempt (x : Durable σ ω ε α) : Durable σ ω ε (Except ε α) := fun s => ((x s).1, .ok (x s).2)

def Along (C : σ → Prop) (s : σ) : List ω → Prop
  | [] => True
  | w :: ws => C (DurableStore.write s w) ∧ Along C (DurableStore.write s w) ws

theorem bind_error {x : Durable σ ω ε α} {f : α → Durable σ ω ε β} {s : σ} {ws : List ω} {e : ε}
    (h : x s = (ws, .error e)) : (x >>= f) s = (ws, .error e) := by
  simp only [Bind.bind, h]

theorem bind_ok {x : Durable σ ω ε α} {f : α → Durable σ ω ε β} {s : σ} {ws : List ω} {a : α}
    (h : x s = (ws, .ok a)) :
    (x >>= f) s = (ws ++ (f a (after s ws)).1, (f a (after s ws)).2) := by
  simp only [Bind.bind, h]

theorem after_append (s : σ) (ws ws' : List ω) :
    after s (ws ++ ws') = after (after s ws) ws' :=
  List.foldl_append

theorem along_append {C : σ → Prop} {s : σ} {ws ws' : List ω} :
    Along C s (ws ++ ws') ↔ Along C s ws ∧ Along C (after s ws) ws' := by
  induction ws generalizing s with
  | nil => simp [Along, after]
  | cons w ws ih =>
    rw [List.cons_append, Along, Along, ih, and_assoc]
    rfl

/-- A computation that dies after some of its writes leaves the condition. -/
theorem Along.take {C : σ → Prop} {s : σ} {ws : List ω} (h : Along C s ws) (hs : C s) (n : Nat) :
    C (after s (ws.take n)) := by
  induction ws generalizing s n with
  | nil => simpa [after] using hs
  | cons w ws ih =>
    cases n with
    | zero => simpa [after] using hs
    | succ n => exact ih h.2 h.1 n

theorem Along.mono {C C' : σ → Prop} {s : σ} {ws : List ω} (h : Along C s ws)
    (hC : ∀ s, C s → C' s) : Along C' s ws := by
  induction ws generalizing s with
  | nil => trivial
  | cons w ws ih => exact ⟨hC _ h.1, ih h.2⟩

theorem Along.and {C C' : σ → Prop} {s : σ} {ws : List ω} (h : Along C s ws)
    (h' : Along C' s ws) : Along (fun s => C s ∧ C' s) s ws := by
  induction ws generalizing s with
  | nil => trivial
  | cons w ws ih => exact ⟨⟨h.1, h'.1⟩, ih h.2 h'.2⟩

theorem along_persistent {K : σ → Prop} (hK : ∀ s w, K s → K (DurableStore.write s w)) {s : σ}
    (hs : K s) (ws : List ω) : Along K s ws ∧ K (after s ws) := by
  induction ws generalizing s with
  | nil => exact ⟨trivial, hs⟩
  | cons w ws ih =>
    have hw := hK s w hs
    exact ⟨⟨hw, (ih hw).1⟩, (ih hw).2⟩

/-- From every state of `P` the computation keeps `C` after each write, and ends a success in `Q`
and a failure in `E`. -/
structure Triple (C P : σ → Prop) (x : Durable σ ω ε α) (Q : α → σ → Prop) (E : σ → Prop) :
    Prop where
  along : ∀ s, P s → Along C s (x s).1
  success : ∀ s a, P s → (x s).2 = .ok a → Q a (after s (x s).1)
  failure : ∀ s e, P s → (x s).2 = .error e → E (after s (x s).1)

namespace Triple

variable {C P E : σ → Prop} {Q : α → σ → Prop}

theorem pure {a : α} (h : ∀ s, P s → Q a s) :
    Triple C P (Pure.pure a : Durable σ ω ε α) Q E where
  along _ _ := trivial
  success s b hs hb := by
    obtain rfl := Except.ok.inj hb
    exact h s hs
  failure s e _ he := by cases he

theorem bind {x : Durable σ ω ε α} {f : α → Durable σ ω ε β} {R : α → σ → Prop}
    {Q : β → σ → Prop} (hx : Triple C P x R E) (hf : ∀ a, Triple C (R a) (f a) Q E) :
    Triple C P (x >>= f) Q E := by
  have hcases (s : σ) (hs : P s) : Along C s ((x >>= f) s).1 ∧
      (∀ b, ((x >>= f) s).2 = .ok b → Q b (after s ((x >>= f) s).1)) ∧
      ∀ e, ((x >>= f) s).2 = .error e → E (after s ((x >>= f) s).1) := by
    have halong := hx.along s hs
    rcases hrun : x s with ⟨ws, result⟩
    rw [hrun] at halong
    cases result with
    | error e =>
      have hE := hx.failure s e hs (by rw [hrun])
      rw [hrun] at hE
      rw [bind_error hrun]
      exact ⟨halong, fun b hb => (by cases hb), fun _ _ => hE⟩
    | ok a =>
      have hR := hx.success s a hs (by rw [hrun])
      rw [hrun] at hR
      rw [bind_ok hrun]
      refine ⟨along_append.mpr ⟨halong, (hf a).along _ hR⟩, ?_, ?_⟩
      · intro b hb
        rw [after_append]
        exact (hf a).success _ b hR hb
      · intro e he
        rw [after_append]
        exact (hf a).failure _ e hR he
  exact ⟨fun s hs => (hcases s hs).1, fun s b hs => (hcases s hs).2.1 b,
    fun s e hs => (hcases s hs).2.2 e⟩

theorem mono {P' E' : σ → Prop} {Q' : α → σ → Prop} {x : Durable σ ω ε α}
    (h : Triple C P x Q E) (hP : ∀ s, P' s → P s) (hQ : ∀ a s, Q a s → Q' a s)
    (hE : ∀ s, E s → E' s) : Triple C P' x Q' E' where
  along s hs := h.along s (hP s hs)
  success s a hs ha := hQ a _ (h.success s a (hP s hs) ha)
  failure s e hs he := hE _ (h.failure s e (hP s hs) he)

theorem pre {P' : σ → Prop} {x : Durable σ ω ε α} (h : Triple C P x Q E)
    (hP : ∀ s, P' s → P s) : Triple C P' x Q E :=
  h.mono hP (fun _ _ hq => hq) fun _ he => he

theorem and {C' P' E' : σ → Prop} {Q' : α → σ → Prop} {x : Durable σ ω ε α}
    (h : Triple C P x Q E) (h' : Triple C' P' x Q' E') :
    Triple (fun s => C s ∧ C' s) (fun s => P s ∧ P' s) x (fun a s => Q a s ∧ Q' a s)
      fun s => E s ∧ E' s where
  along s hs := (h.along s hs.1).and (h'.along s hs.2)
  success s a hs ha := ⟨h.success s a hs.1 ha, h'.success s a hs.2 ha⟩
  failure s e hs he := ⟨h.failure s e hs.1 he, h'.failure s e hs.2 he⟩

theorem or {C' P' E' : σ → Prop} {Q' : α → σ → Prop} {x : Durable σ ω ε α}
    (h : Triple C P x Q E) (h' : Triple C' P' x Q' E') :
    Triple (fun s => C s ∨ C' s) (fun s => P s ∨ P' s) x (fun a s => Q a s ∨ Q' a s)
      fun s => E s ∨ E' s where
  along s hs := hs.elim (fun hs => (h.along s hs).mono fun _ => .inl)
    fun hs => (h'.along s hs).mono fun _ => .inr
  success s a hs ha := hs.imp (fun hs => h.success s a hs ha) fun hs => h'.success s a hs ha
  failure s e hs he := hs.imp (fun hs => h.failure s e hs he) fun hs => h'.failure s e hs he

theorem persistent {K : σ → Prop} (hK : ∀ s w, K s → K (DurableStore.write s w))
    {x : Durable σ ω ε α} : Triple K K x (fun _ => K) K where
  along s hs := (along_persistent hK hs (x s).1).1
  success s _ hs _ := (along_persistent hK hs (x s).1).2
  failure s _ hs _ := (along_persistent hK hs (x s).1).2

theorem of_false {x : Durable σ ω ε α} : Triple C (fun _ => False) x Q E where
  along _ hs := hs.elim
  success _ _ hs := hs.elim
  failure _ _ hs := hs.elim

theorem at_state {x : Durable σ ω ε α} (h : ∀ s, P s → Triple C (· = s) x Q E) :
    Triple C P x Q E where
  along s hs := (h s hs).along s rfl
  success s a hs := (h s hs).success s a rfl
  failure s e hs := (h s hs).failure s e rfl

theorem start_at {x : Durable σ ω ε α} (h : Triple C P x Q E) {s : σ} (hs : P s) :
    Triple C (· = s) x Q E := by
  apply h.pre
  rintro _ rfl
  exact hs

theorem get_bind {f : σ → Durable σ ω ε α} (h : ∀ s, P s → Triple C (· = s) (f s) Q E) :
    Triple C P (Durable.get >>= f) Q E := by
  apply at_state
  intro s hs
  have hrun : (Durable.get >>= f) s = f s s := by
    simp [Bind.bind, Durable.get, after]
  have hf := h s hs
  refine ⟨?_, ?_, ?_⟩
  · rintro _ rfl
    rw [hrun]
    exact hf.along _ rfl
  · rintro _ a rfl
    rw [hrun]
    exact hf.success _ a rfl
  · rintro _ e rfl
    rw [hrun]
    exact hf.failure _ e rfl

theorem fail {e : ε} (h : ∀ s, P s → E s) : Triple C P (Durable.fail e : Durable σ ω ε α) Q E where
  along _ _ := trivial
  success s a _ ha := by cases ha
  failure s _ hs _ := h s hs

theorem lift {x : Except ε α} (hok : ∀ s a, P s → x = .ok a → Q a s)
    (herror : ∀ s e, P s → x = .error e → E s) :
    Triple C P (Durable.lift x : Durable σ ω ε α) Q E where
  along _ _ := trivial
  success s a hs ha := hok s a hs ha
  failure s e hs he := herror s e hs he

theorem write {w : ω} {Q : Unit → σ → Prop} (hC : ∀ s, P s → C (DurableStore.write s w))
    (hQ : ∀ s, P s → Q () (DurableStore.write s w)) :
    Triple C P (Durable.write w : Durable σ ω ε Unit) Q E where
  along s hs := ⟨hC s hs, trivial⟩
  success s _ hs _ := hQ s hs
  failure s e _ he := by cases he

theorem attempt {x : Durable σ ω ε α} (h : Triple C P x Q E) :
    Triple C P x.attempt (fun result s => match result with
      | .ok a => Q a s
      | .error _ => E s) E where
  along := h.along
  success s result hs hresult := by
    obtain rfl := Except.ok.inj hresult
    cases hx : (x s).2 with
    | ok a => exact h.success s a hs hx
    | error e => exact h.failure s e hs hx
  failure s e _ he := by cases he

/-- The rule for a loop over a list, with an invariant. -/
theorem forM {I : σ → Prop} {f : β → Durable σ ω ε PUnit} {xs : List β}
    (h : ∀ x ∈ xs, Triple C I (f x) (fun _ => I) E) :
    Triple C I (forM xs f) (fun _ => I) E := by
  induction xs with
  | nil => exact pure fun _ hs => hs
  | cons x xs ih =>
    rw [List.forM_cons]
    rw [List.forall_mem_cons] at h
    exact bind h.1 fun _ => ih h.2

end Triple

end Durable
