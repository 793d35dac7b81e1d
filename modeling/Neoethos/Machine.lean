import Mathlib.Data.List.Induction
import Mathlib.Logic.Relation
import Mathlib.Tactic.Common

/-- A machine is an initial state and a partial step function. An action stands
for everything the environment chooses; the event is what the step reports. -/
structure Machine (σ α ε : Type*) where
  start : σ
  next : σ → α → Option (ε × σ)

namespace Machine

variable {σ α ε : Type*}

/-- Finite runs from the initial state, with the events in the order they happened. -/
inductive Run (M : Machine σ α ε) : List ε → σ → Prop
  | start : Run M [] M.start
  | next {es s a e s'} : Run M es s → M.next s a = some (e, s') → Run M (es ++ [e]) s'

/-- An invariant of the state and of the history so far holds along every run. -/
theorem Run.invariant {M : Machine σ α ε} {I : List ε → σ → Prop} (initial : I [] M.start)
    (step : ∀ es s a e s', M.Run es s → I es s → M.next s a = some (e, s') → I (es ++ [e]) s')
    {es : List ε} {s : σ} (h : M.Run es s) : I es s := by
  induction h with
  | start => exact initial
  | next reach hn ih => exact step _ _ _ _ _ reach ih hn

theorem Run.state_invariant {M : Machine σ α ε} {I : σ → Prop} (initial : I M.start)
    (step : ∀ s a e s', I s → M.next s a = some (e, s') → I s')
    {es : List ε} {s : σ} (h : M.Run es s) : I s :=
  Run.invariant (I := fun _ s => I s) initial (fun _ s a e s' _ hs hn => step s a e s' hs hn) h

theorem Run.last {M : Machine σ α ε} {es : List ε} {e : ε} {s : σ} (h : M.Run (es ++ [e]) s) :
    ∃ t a, M.Run es t ∧ M.next t a = some (e, s) := by
  generalize hg : es ++ [e] = fs at h
  cases h with
  | start => simp at hg
  | next reach hn =>
    obtain ⟨rfl, he⟩ := List.append_inj' hg rfl
    cases he
    exact ⟨_, _, reach, hn⟩

/-- Every prefix of a history is the history of a run. -/
theorem Run.of_append {M : Machine σ α ε} {es fs : List ε} {s : σ} (h : M.Run (es ++ fs) s) :
    ∃ t, M.Run es t := by
  induction fs using List.reverseRecOn generalizing s with
  | nil => exact ⟨s, by simpa using h⟩
  | append_singleton fs f ih =>
    rw [← List.append_assoc] at h
    obtain ⟨t, _, ht, _⟩ := h.last
    exact ih ht

def exec (M : Machine σ α ε) : List ε → σ → List α → Option (List ε × σ)
  | es, s, [] => some (es, s)
  | es, s, a :: rest => (M.next s a).bind fun r => M.exec (es ++ [r.1]) r.2 rest

theorem run_of_exec {M : Machine σ α ε} {es fs : List ε} {s t : σ} {as : List α}
    (h : M.Run es s) (he : M.exec es s as = some (fs, t)) : M.Run fs t := by
  induction as generalizing es s with
  | nil =>
    obtain ⟨rfl, rfl⟩ := Prod.mk.inj (Option.some.inj he)
    exact h
  | cons a rest ih =>
    obtain ⟨⟨e, s'⟩, hn, he⟩ := Option.bind_eq_some_iff.mp he
    exact ih (Run.next h hn) he

/-- A decided property of an executed action list is a property of a run. -/
theorem run_of_exec_start {M : Machine σ α ε} (as : List α) (p : List ε → σ → Bool)
    (h : (M.exec [] M.start as).any (fun r => p r.1 r.2) = true) :
    ∃ es s, M.Run es s ∧ p es s = true := by
  cases he : M.exec [] M.start as with
  | none => simp [he] at h
  | some r => exact ⟨r.1, r.2, run_of_exec Run.start he, by simpa [he] using h⟩

def Later (M : Machine σ α ε) : σ → σ → Prop :=
  Relation.ReflTransGen fun s s' => ∃ a e, M.next s a = some (e, s')

theorem later_of_exec {M : Machine σ α ε} {es fs : List ε} {s t : σ} {as : List α}
    (he : M.exec es s as = some (fs, t)) : M.Later s t := by
  induction as generalizing es s with
  | nil =>
    obtain ⟨_, rfl⟩ := Prod.mk.inj (Option.some.inj he)
    exact .refl
  | cons a rest ih =>
    obtain ⟨⟨e, s'⟩, hn, he⟩ := Option.bind_eq_some_iff.mp he
    exact .head ⟨a, e, hn⟩ (ih he)

/-- Runs whose steps all meet a condition on the state before the step and on the action. -/
inductive RunUnder (M : Machine σ α ε) (P : σ → α → Prop) : List ε → σ → Prop
  | start : RunUnder M P [] M.start
  | next {es s a e s'} : RunUnder M P es s → P s a → M.next s a = some (e, s') →
      RunUnder M P (es ++ [e]) s'

/-- The invariant rule for the runs under a condition, with the history. -/
theorem RunUnder.invariant {M : Machine σ α ε} {P : σ → α → Prop} {I : List ε → σ → Prop}
    (initial : I [] M.start)
    (step : ∀ es s a e s', I es s → P s a → M.next s a = some (e, s') → I (es ++ [e]) s')
    {es : List ε} {s : σ} (h : M.RunUnder P es s) : I es s := by
  induction h with
  | start => exact initial
  | next _ hp hn ih => exact step _ _ _ _ _ ih hp hn

theorem RunUnder.state_invariant {M : Machine σ α ε} {P : σ → α → Prop} {I : σ → Prop}
    (initial : I M.start)
    (step : ∀ s a e s', I s → P s a → M.next s a = some (e, s') → I s')
    {es : List ε} {s : σ} (h : M.RunUnder P es s) : I s :=
  RunUnder.invariant (I := fun _ s => I s) initial
    (fun _ s a e s' hs hp hn => step s a e s' hs hp hn) h

/-- A condition that follows from another one in the states that the runs under that one reach. -/
theorem RunUnder.imp {M : Machine σ α ε} {P Q : σ → α → Prop} {I : σ → Prop} (initial : I M.start)
    (step : ∀ s a e s', I s → P s a → M.next s a = some (e, s') → I s' ∧ Q s a)
    {es : List ε} {s : σ} (h : M.RunUnder P es s) : M.RunUnder Q es s ∧ I s := by
  induction h with
  | start => exact ⟨RunUnder.start, initial⟩
  | next _ hp hn ih =>
    obtain ⟨hrun, hs⟩ := ih
    obtain ⟨hs', hq⟩ := step _ _ _ _ hs hp hn
    exact ⟨RunUnder.next hrun hq hn, hs'⟩

/-- The machine that refuses the steps that do not meet the condition. -/
def restrict (M : Machine σ α ε) (P : σ → α → Prop) [∀ s a, Decidable (P s a)] :
    Machine σ α ε where
  start := M.start
  next s a := if P s a then M.next s a else none

theorem runUnder_of_restrict {M : Machine σ α ε} {P : σ → α → Prop} [∀ s a, Decidable (P s a)]
    {es : List ε} {s : σ} (h : (M.restrict P).Run es s) : M.RunUnder P es s := by
  induction h with
  | start => exact RunUnder.start
  | next _ hn ih =>
    simp only [restrict] at hn
    split at hn
    next hp => exact RunUnder.next ih hp hn
    next => simp at hn

end Machine

variable {σ τ α β ε : Type*}

/-- The runs of a transition relation some of whose steps are silent. -/
inductive Trace (step : τ → Option β → τ → Prop) (start : τ) : List β → τ → Prop
  | start : Trace step start [] start
  | next {bs t o t'} : Trace step start bs t → step t o t' →
      Trace step start (bs ++ o.toList) t'

theorem Trace.invariant {step : τ → Option β → τ → Prop} {start : τ} {I : List β → τ → Prop}
    (initial : I [] start)
    (preserved : ∀ bs t o t', I bs t → step t o t' → I (bs ++ o.toList) t')
    {bs : List β} {t : τ} (h : Trace step start bs t) : I bs t := by
  induction h with
  | start => exact initial
  | next _ hs ih => exact preserved _ _ _ _ ih hs

theorem filterMap_append_toList (f : α → Option β) (es : List α) (o : Option α) :
    (es ++ o.toList).filterMap f = es.filterMap f ++ (o.bind f).toList := by
  cases o with
  | none => simp
  | some e => cases hf : f e <;> simp [hf]

theorem mem_append_toList {es : List α} {o : Option α} {e : α} :
    e ∈ es ++ o.toList ↔ e ∈ es ∨ o = some e := by
  simp [Option.mem_toList]
