import Neoethos.Machine
import Mathlib.Data.List.Nodup
import Mathlib.Logic.Function.Basic

/-- A channel for one message, seen from both ends. -/
inductive OneShot (α : Type*)
  | absent
  | empty
  | full (value : α)
  | hungUp
  | taken
  | closed

namespace OneShot

variable {α : Type*}

/-- Only an open channel takes the message: a receiver that is gone leaves it with the sender. -/
def send (c : OneShot α) (value : α) : OneShot α :=
  match c with
  | .empty => .full value
  | c => c

def hangUp : OneShot α → OneShot α
  | .empty => .hungUp
  | c => c

def read (lost : α) : OneShot α → Option α
  | .full value => some value
  | .hungUp => some lost
  | _ => none

def isClosed : OneShot α → Bool
  | .closed => true
  | _ => false

def isAwaited : OneShot α → Bool
  | .empty | .full _ | .hungUp => true
  | _ => false

theorem isClosed_iff {c : OneShot α} : c.isClosed = true ↔ c = .closed := by
  cases c <;> simp [isClosed]

theorem read_some {c : OneShot α} {lost value : α} (h : c.read lost = some value) :
    c = .full value ∨ (c = .hungUp ∧ value = lost) := by
  cases c <;> simp_all [read]

end OneShot

inductive DeskStatus
  | serving
  | closing
  | shut
  deriving DecidableEq

/-- Requests wait in one line for each class until they are answered, each through a channel of
its own. A request that has been granted and not yet been told so is in hand. -/
@[ext] structure Desk (ι κ ε β : Type*) where
  lines : κ → List ι
  hand : Option ι
  replies : ι → OneShot (Except ε β)
  cancelled : ι → Bool
  status : DeskStatus

inductive DeskEvent (ι κ ε β : Type*)
  | arrived (i : ι) (k : κ)
  | received (i : ι) (r : Except ε β)
  | granted (i : ι)
  | refused (i : ι) (e : ε)
  | closing

variable {ι κ ε β : Type*}

namespace Desk

def opened : Desk ι κ ε β where
  lines _ := []
  hand := none
  replies _ := .absent
  cancelled _ := false
  status := .serving

/-- The requester has given up: it said so, or it stopped listening. -/
def Abandoned (d : Desk ι κ ε β) (i : ι) : Prop :=
  d.cancelled i = true ∨ d.replies i = .closed

def Owes (d : Desk ι κ ε β) (i : ι) : Prop :=
  (∃ k, i ∈ d.lines k) ∨ d.hand = some i

variable [DecidableEq ι] [DecidableEq κ]

def reply (d : Desk ι κ ε β) (i : ι) (c : OneShot (Except ε β)) : Desk ι κ ε β :=
  { d with replies := Function.update d.replies i c }

def answer (d : Desk ι κ ε β) (k : κ) (line : List ι) (i : ι) (e : ε) : Desk ι κ ε β :=
  { d with lines := Function.update d.lines k line
           replies := Function.update d.replies i ((d.replies i).send (.error e)) }

def shutDown (d : Desk ι κ ε β) (left : List ι) : Desk ι κ ε β :=
  { d with lines := fun _ => []
           replies := fun i => if i ∈ left then (d.replies i).hangUp else d.replies i
           status := .shut }

end Desk

/-- The ways one channel can change in a step. -/
inductive ReplyStep (stopped : ε) (d : Desk ι κ ε β) (o : Option (DeskEvent ι κ ε β))
    (d' : Desk ι κ ε β) (i : ι) : OneShot (Except ε β) → OneShot (Except ε β) → Prop
  | same {c} : ReplyStep stopped d o d' i c c
  | opened {k} : o = some (.arrived i k) → ReplyStep stopped d o d' i .absent .empty
  | turnedAway : o = some (.received i (.error stopped)) → d.status = .shut →
      ReplyStep stopped d o d' i .absent .taken
  | received {c r} : o = some (.received i r) → d.cancelled i = false →
      c.read (.error stopped) = some r → ReplyStep stopped d o d' i c .taken
  | dropped {c} : c.isAwaited = true → ReplyStep stopped d o d' i c .closed
  | hungUp : d'.status = .shut → ReplyStep stopped d o d' i .empty .hungUp
  | given {v} : d.hand = some i → ReplyStep stopped d o d' i .empty (.full (.ok v))
  | failed {e} : o = some (.refused i e) ∨ d.cancelled i = true ∨
      (e = stopped ∧ d'.status = .closing) →
      ReplyStep stopped d o d' i .empty (.full (.error e))

variable {stopped : ε} {d d' : Desk ι κ ε β} {o : Option (DeskEvent ι κ ε β)}

theorem ReplyStep.send_error {i : ι} {e : ε}
    (h : o = some (.refused i e) ∨ d.Abandoned i ∨ (e = stopped ∧ d'.status = .closing)) :
    ReplyStep stopped d o d' i (d.replies i) ((d.replies i).send (.error e)) := by
  cases hc : d.replies i with
  | empty =>
    refine .failed ?_
    rcases h with h | h | h
    · exact Or.inl h
    · exact Or.inr (Or.inl (h.resolve_right (by simp [hc])))
    · exact Or.inr (Or.inr h)
  | absent => exact .same
  | full => exact .same
  | hungUp => exact .same
  | taken => exact .same
  | closed => exact .same

/-- What a step does to a line: somebody new stands behind it, or it closes up behind those who
leave it. -/
inductive LineStep (d : Desk ι κ ε β) (o : Option (DeskEvent ι κ ε β)) (d' : Desk ι κ ε β)
    (k : κ) : Prop
  | joined {i} : o = some (.arrived i k) → d.replies i = .absent →
      d'.lines k = d.lines k ++ [i] → LineStep d o d' k
  | closedUp : (d'.lines k).Sublist (d.lines k) →
      (∀ i ∈ d.lines k, i ∈ d'.lines k ∨ o = some (.granted i) ∨ (∃ e, o = some (.refused i e)) ∨
        d.Abandoned i ∨ d'.status ≠ .serving) → LineStep d o d' k

theorem LineStep.same {k : κ} (h : d'.lines k = d.lines k) : LineStep d o d' k :=
  .closedUp (h ▸ .refl _) fun _ hm => Or.inl (h ▸ hm)

variable [DecidableEq ι] [DecidableEq κ]

/-- What can happen at a desk. `stopped` is the error of a request that the desk turned away. -/
inductive DeskStep (stopped : ε) (d : Desk ι κ ε β) :
    Option (DeskEvent ι κ ε β) → Desk ι κ ε β → Prop
  | idle : DeskStep stopped d none d
  | arrived {i k} : d.replies i = .absent → d.status ≠ .shut →
      DeskStep stopped d (some (.arrived i k))
        { d with lines := Function.update d.lines k (d.lines k ++ [i])
                 replies := Function.update d.replies i .empty }
  | turnedAway {i} : d.replies i = .absent → d.status = .shut →
      DeskStep stopped d (some (.received i (.error stopped))) (d.reply i .taken)
  | cancelled {i} : DeskStep stopped d none
      { d with cancelled := Function.update d.cancelled i true }
  | dropped {i} : (d.replies i).isAwaited = true → DeskStep stopped d none (d.reply i .closed)
  | received {i r} : d.cancelled i = false → (d.replies i).read (.error stopped) = some r →
      DeskStep stopped d (some (.received i r)) (d.reply i .taken)
  | granted {i k rest} : d.status = .serving → d.hand = none → d.lines k = i :: rest →
      DeskStep stopped d (some (.granted i))
        { d with lines := Function.update d.lines k rest, hand := some i }
  | delivered {i v} : d.hand = some i →
      DeskStep stopped d none
        { d with hand := none
                 replies := Function.update d.replies i ((d.replies i).send (.ok v)) }
  | refused {i k rest e} : d.status = .serving → d.lines k = i :: rest →
      DeskStep stopped d (some (.refused i e)) (d.answer k rest i e)
  | withdrawn {i k before rest e} : d.Abandoned i → d.lines k = before ++ i :: rest →
      DeskStep stopped d none (d.answer k (before ++ rest) i e)
  | closing : d.status = .serving → d.hand = none →
      DeskStep stopped d (some .closing) { d with status := .closing }
  | stopped {i k rest} : d.status = .closing → d.lines k = i :: rest →
      DeskStep stopped d none (d.answer k rest i stopped)
  | shut {left} : d.status = .closing → (∀ i, i ∈ left ↔ ∃ k, i ∈ d.lines k) →
      DeskStep stopped d none (d.shutDown left)

theorem DeskStep.to {d'' : Desk ι κ ε β} (h : DeskStep stopped d o d') (eq : d'' = d') :
    DeskStep stopped d o d'' := eq ▸ h

theorem DeskStep.of_eq (eq : d' = d) : DeskStep stopped d none d' := DeskStep.idle.to eq

theorem DeskStep.replyStep (step : DeskStep stopped d o d') (j : ι) :
    ReplyStep stopped d o d' j (d.replies j) (d'.replies j) := by
  cases step with
  | idle => exact .same
  | @arrived i k fresh =>
    by_cases hj : j = i
    · subst hj
      simpa [fresh] using .opened rfl
    · simpa [hj] using .same
  | @turnedAway i fresh hs =>
    by_cases hj : j = i
    · subst hj
      simpa [Desk.reply, fresh] using .turnedAway rfl hs
    · simpa [Desk.reply, hj] using .same
  | cancelled => exact .same
  | @dropped i awaited =>
    by_cases hj : j = i
    · subst hj
      simpa [Desk.reply] using .dropped awaited
    · simpa [Desk.reply, hj] using .same
  | @received i r hc hr =>
    by_cases hj : j = i
    · subst hj
      simpa [Desk.reply] using .received rfl hc hr
    · simpa [Desk.reply, hj] using .same
  | granted => exact .same
  | @delivered i v hand =>
    by_cases hj : j = i
    · subst hj
      cases hc : d.replies j with
      | empty => simpa [OneShot.send, hc] using .given hand
      | absent => simpa [OneShot.send, hc] using .same
      | full => simpa [OneShot.send, hc] using .same
      | hungUp => simpa [OneShot.send, hc] using .same
      | taken => simpa [OneShot.send, hc] using .same
      | closed => simpa [OneShot.send, hc] using .same
    · simpa [hj] using .same
  | @refused i k rest e =>
    by_cases hj : j = i
    · subst hj
      simpa [Desk.answer] using ReplyStep.send_error (Or.inl rfl)
    · simpa [Desk.answer, hj] using .same
  | @withdrawn i k before rest e gone =>
    by_cases hj : j = i
    · subst hj
      simpa [Desk.answer] using ReplyStep.send_error (Or.inr (Or.inl gone))
    · simpa [Desk.answer, hj] using .same
  | closing => exact .same
  | @stopped i k rest hs =>
    by_cases hj : j = i
    · subst hj
      have hr : ReplyStep stopped d none (d.answer k rest j stopped) j (d.replies j)
          ((d.replies j).send (.error stopped)) := ReplyStep.send_error (Or.inr (Or.inr ⟨rfl, hs⟩))
      simpa [Desk.answer] using hr
    · simpa [Desk.answer, hj] using .same
  | @shut left =>
    by_cases hj : j ∈ left
    · cases hc : d.replies j with
      | empty => simpa [Desk.shutDown, hj, hc, OneShot.hangUp] using .hungUp rfl
      | absent => simpa [Desk.shutDown, hj, hc, OneShot.hangUp] using .same
      | full => simpa [Desk.shutDown, hj, hc, OneShot.hangUp] using .same
      | hungUp => simpa [Desk.shutDown, hj, hc, OneShot.hangUp] using .same
      | taken => simpa [Desk.shutDown, hj, hc, OneShot.hangUp] using .same
      | closed => simpa [Desk.shutDown, hj, hc, OneShot.hangUp] using .same
    · simpa [Desk.shutDown, hj] using .same

theorem DeskStep.lineStep (step : DeskStep stopped d o d') (k : κ) : LineStep d o d' k := by
  cases step with
  | @arrived i j fresh =>
    by_cases hk : k = j
    · subst hk
      exact .joined rfl fresh (by simp)
    · exact .same (by simp [hk])
  | @granted i j rest _ _ hl =>
    by_cases hk : k = j
    · subst hk
      refine .closedUp (by simp [hl]) ?_
      intro m hm
      rcases List.mem_cons.mp (hl ▸ hm) with rfl | hm
      · exact Or.inr (Or.inl rfl)
      · exact Or.inl (by simpa using hm)
    · exact .same (by simp [hk])
  | @refused i j rest e _ hl =>
    by_cases hk : k = j
    · subst hk
      refine .closedUp (by simp [Desk.answer, hl]) ?_
      intro m hm
      rcases List.mem_cons.mp (hl ▸ hm) with rfl | hm
      · exact Or.inr (Or.inr (Or.inl ⟨e, rfl⟩))
      · exact Or.inl (by simpa [Desk.answer] using hm)
    · exact .same (by simp [Desk.answer, hk])
  | @withdrawn i j before rest e gone hl =>
    by_cases hk : k = j
    · subst hk
      refine .closedUp (by simp [Desk.answer, hl]) ?_
      intro m hm
      rw [hl] at hm
      rcases List.mem_append.mp hm with hm | hm
      · exact Or.inl (by simp [Desk.answer, hm])
      · rcases List.mem_cons.mp hm with rfl | hm
        · exact Or.inr (Or.inr (Or.inr (Or.inl gone)))
        · exact Or.inl (by simp [Desk.answer, hm])
    · exact .same (by simp [Desk.answer, hk])
  | @stopped i j rest hs hl =>
    have closing : d.status ≠ .serving := by simp [hs]
    by_cases hk : k = j
    · subst hk
      refine .closedUp (by simp [Desk.answer, hl]) ?_
      exact fun _ _ => Or.inr (Or.inr (Or.inr (Or.inr closing)))
    · exact .same (by simp [Desk.answer, hk])
  | shut =>
    refine .closedUp (by simp [Desk.shutDown]) ?_
    exact fun _ _ => Or.inr (Or.inr (Or.inr (Or.inr (by simp [Desk.shutDown]))))
  | idle => exact .same rfl
  | turnedAway => exact .same rfl
  | cancelled => exact .same rfl
  | dropped => exact .same rfl
  | received => exact .same rfl
  | delivered => exact .same rfl
  | closing => exact .same rfl

theorem DeskStep.handStep (step : DeskStep stopped d o d') :
    d'.hand = d.hand ∨ d'.hand = none ∨ ∃ i, o = some (.granted i) ∧ d'.hand = some i := by
  cases step with
  | granted => exact Or.inr (Or.inr ⟨_, rfl, rfl⟩)
  | delivered => exact Or.inr (Or.inl rfl)
  | _ => exact Or.inl rfl

theorem DeskStep.statusStep (step : DeskStep stopped d o d') :
    (d'.status = d.status ∧ o ≠ some .closing) ∨
    (d.status = .serving ∧ d'.status = .closing ∧ o = some .closing) ∨
    (d.status = .closing ∧ d'.status = .shut ∧ o = none) := by
  cases step with
  | closing hs => exact Or.inr (Or.inl ⟨hs, rfl, rfl⟩)
  | shut hs => exact Or.inr (Or.inr ⟨hs, rfl, rfl⟩)
  | _ => exact Or.inl ⟨rfl, by simp⟩

theorem DeskStep.not_serving (step : DeskStep stopped d o d') (h : d.status ≠ .serving) :
    d'.status ≠ .serving := by
  rcases step.statusStep with ⟨hs, _⟩ | ⟨hs, _, _⟩ | ⟨_, hs, _⟩
  · rwa [hs]
  · exact absurd hs h
  · simp [hs]

theorem DeskStep.present (step : DeskStep stopped d o d') {i : ι} (h : d.replies i ≠ .absent) :
    d'.replies i ≠ .absent := by
  have hr := step.replyStep i
  generalize d.replies i = c at hr h
  generalize d'.replies i = c' at hr
  cases hr with
  | same => exact h
  | _ => simp

theorem DeskStep.taken (step : DeskStep stopped d o d') {i : ι} (h : d.replies i = .taken) :
    d'.replies i = .taken := by
  have hr := step.replyStep i
  rw [h] at hr
  generalize d'.replies i = c' at hr
  cases hr with
  | same => rfl
  | received _ _ hr => simp [OneShot.read] at hr
  | dropped hr => simp [OneShot.isAwaited] at hr

theorem DeskStep.cancelledStep (step : DeskStep stopped d o d') {i : ι}
    (h : d.cancelled i = true) : d'.cancelled i = true := by
  cases step with
  | @cancelled j =>
    by_cases hj : i = j
    · simp [hj]
    · simpa [hj] using h
  | _ => exact h

theorem DeskStep.abandoned (step : DeskStep stopped d o d') {i : ι} (h : d.Abandoned i) :
    d'.Abandoned i := by
  rcases h with h | h
  · exact Or.inl (step.cancelledStep h)
  · have hr := step.replyStep i
    rw [h] at hr
    refine Or.inr ?_
    generalize d'.replies i = c' at hr
    cases hr with
    | same => rfl
    | received _ _ hr => simp [OneShot.read] at hr
    | dropped => rfl

/-- Everybody the desk owes an answer stands in one place, once, and nobody else can still be
waiting. -/
structure Desk.Seated (d : Desk ι κ ε β) : Prop where
  nodup : ∀ k, (d.lines k).Nodup
  apart : ∀ i k k', i ∈ d.lines k → i ∈ d.lines k' → k = k'
  handApart : ∀ i k, d.hand = some i → i ∉ d.lines k
  owed : ∀ i, d.Owes i → d.replies i = .empty ∨ d.replies i = .closed
  owes : ∀ i, d.replies i = .empty → d.Owes i
  handServing : d.hand ≠ none → d.status = .serving
  shut : d.status = .shut → ∀ k, d.lines k = []
  hungUp : ∀ i, d.replies i = .hungUp → d.status = .shut

namespace Desk.Seated

omit [DecidableEq ι] [DecidableEq κ] in
theorem opened : (Desk.opened : Desk ι κ ε β).Seated := by
  constructor <;> simp [Desk.opened, Desk.Owes]

omit [DecidableEq ι] [DecidableEq κ] in
theorem not_owed (h : d.Seated) {i : ι} (hr : d.replies i = .absent) : ¬d.Owes i := by
  intro ho
  rcases h.owed i ho with he | he <;> simp [hr] at he

omit [DecidableEq κ] in
theorem reply (h : d.Seated) {i : ι} {c : OneShot (Except ε β)}
    (hc : c = .closed ∨ (c = .taken ∧ ¬d.Owes i)) : (d.reply i c).Seated where
  nodup := h.nodup
  apart := h.apart
  handApart := h.handApart
  owed j hj := by
    have hj : d.Owes j := hj
    by_cases hji : j = i
    · subst hji
      rcases hc with rfl | ⟨_, hno⟩
      · exact Or.inr (by simp [Desk.reply])
      · exact absurd hj hno
    · simpa [Desk.reply, hji] using h.owed j hj
  owes j hj := by
    by_cases hji : j = i
    · subst hji
      rcases hc with rfl | ⟨rfl, _⟩ <;> simp [Desk.reply] at hj
    · exact h.owes j (by simpa [Desk.reply, hji] using hj)
  handServing := h.handServing
  shut := h.shut
  hungUp j hj := by
    by_cases hji : j = i
    · subst hji
      rcases hc with rfl | ⟨rfl, _⟩ <;> simp [Desk.reply] at hj
    · exact h.hungUp j (by simpa [Desk.reply, hji] using hj)

omit [DecidableEq ι] in
/-- One leaves the line `k`: nobody else moves, and it stands nowhere any more. -/
theorem line_without (h : d.Seated) {i : ι} {k : κ} (before : List ι) {rest : List ι}
    (hl : d.lines k = before ++ i :: rest) (k' : κ) :
    (Function.update d.lines k (before ++ rest) k').Sublist (d.lines k') ∧
      i ∉ Function.update d.lines k (before ++ rest) k' ∧
      ∀ j, j ≠ i → j ∈ d.lines k' → j ∈ Function.update d.lines k (before ++ rest) k' := by
  by_cases hk : k' = k
  · subst hk
    have hn := h.nodup k'
    rw [hl] at hn ⊢
    refine ⟨by simp, ?_, ?_⟩
    · have hi := (List.nodup_middle.mp hn)
      simpa using (List.nodup_cons.mp hi).1
    · intro j hj hm
      rcases List.mem_append.mp hm with hm | hm
      · simp [hm]
      · simp [(List.mem_cons.mp hm).resolve_left hj]
  · have hi : i ∈ d.lines k := by simp [hl]
    refine ⟨by simp [hk], ?_, fun j _ hm => by simpa [hk] using hm⟩
    rw [Function.update_of_ne hk]
    exact fun hm => hk (h.apart i k' k hm hi)

theorem answer (h : d.Seated) {i : ι} {k : κ} (before : List ι) {rest : List ι} {e : ε}
    (hl : d.lines k = before ++ i :: rest) : (d.answer k (before ++ rest) i e).Seated := by
  have hi : i ∈ d.lines k := by simp [hl]
  have hline := h.line_without before hl
  have hsent : (d.replies i).send (.error e) = .full (.error e) ∨
      (d.replies i).send (.error e) = .closed := by
    rcases h.owed i (Or.inl ⟨k, hi⟩) with he | he <;> simp [he, OneShot.send]
  constructor
  case nodup => exact fun k' => (h.nodup k').sublist (hline k').1
  case apart =>
    exact fun j k₁ k₂ h₁ h₂ => h.apart j k₁ k₂ ((hline k₁).1.mem h₁) ((hline k₂).1.mem h₂)
  case handApart => exact fun j k' hj hm => h.handApart j k' hj ((hline k').1.mem hm)
  case owed =>
    intro j hj
    have hji : j ≠ i := by
      rintro rfl
      rcases hj with ⟨k', hj⟩ | hj
      · exact (hline k').2.1 hj
      · exact h.handApart j k hj hi
    have ho : d.Owes j := hj.imp (fun ⟨k', hj⟩ => ⟨k', (hline k').1.mem hj⟩) id
    simpa [Desk.answer, hji] using h.owed j ho
  case owes =>
    intro j hj
    have hji : j ≠ i := by
      rintro rfl
      rcases hsent with hs | hs <;> simp [Desk.answer, hs] at hj
    have hj : d.replies j = .empty := by simpa [Desk.answer, hji] using hj
    exact (h.owes j hj).imp (fun ⟨k', hm⟩ => ⟨k', (hline k').2.2 j hji hm⟩) id
  case handServing => exact h.handServing
  case shut =>
    intro hs
    have := h.shut hs k
    simp [hl] at this
  case hungUp =>
    intro j hj
    have hji : j ≠ i := by
      rintro rfl
      rcases hsent with hs | hs <;> simp [Desk.answer, hs] at hj
    exact h.hungUp j (by simpa [Desk.answer, hji] using hj)

theorem arrived (h : d.Seated) {i : ι} {k : κ} (fresh : d.replies i = .absent)
    (hs : d.status ≠ .shut) :
    ({ d with lines := Function.update d.lines k (d.lines k ++ [i])
              replies := Function.update d.replies i .empty } : Desk ι κ ε β).Seated := by
  have new : ∀ k', i ∉ d.lines k' := fun k' hm => h.not_owed fresh (Or.inl ⟨k', hm⟩)
  have mem : ∀ j k', j ≠ i →
      (j ∈ Function.update d.lines k (d.lines k ++ [i]) k' ↔ j ∈ d.lines k') := by
    intro j k' hj
    by_cases hk : k' = k
    · subst hk
      simp [hj]
    · simp [hk]
  have own : ∀ k', i ∈ Function.update d.lines k (d.lines k ++ [i]) k' → k' = k := by
    intro k' hm
    by_contra hk
    exact new k' (by simpa [hk] using hm)
  constructor
  case nodup =>
    intro k'
    by_cases hk : k' = k
    · subst hk
      simpa using List.nodup_append.mpr ⟨h.nodup k', List.nodup_singleton i,
        fun a ha b hb => by rintro rfl; exact new k' (List.mem_singleton.mp hb ▸ ha)⟩
    · simpa [hk] using h.nodup k'
  case apart =>
    intro j k₁ k₂ h₁ h₂
    by_cases hj : j = i
    · subst hj
      rw [own k₁ h₁, own k₂ h₂]
    · exact h.apart j k₁ k₂ ((mem j k₁ hj).mp h₁) ((mem j k₂ hj).mp h₂)
  case handApart =>
    intro j k' hj hm
    have hji : j ≠ i := by
      rintro rfl
      exact h.not_owed fresh (Or.inr hj)
    exact h.handApart j k' hj ((mem j k' hji).mp hm)
  case owed =>
    intro j hj
    by_cases hji : j = i
    · subst hji
      exact Or.inl (by simp)
    · have ho : d.Owes j := hj.imp (fun ⟨k', hm⟩ => ⟨k', (mem j k' hji).mp hm⟩) id
      simpa [hji] using h.owed j ho
  case owes =>
    intro j hj
    by_cases hji : j = i
    · subst hji
      exact Or.inl ⟨k, by simp⟩
    · have hj : d.replies j = .empty := by simpa [hji] using hj
      exact (h.owes j hj).imp (fun ⟨k', hm⟩ => ⟨k', (mem j k' hji).mpr hm⟩) id
  case handServing => exact h.handServing
  case shut => exact fun he => absurd he hs
  case hungUp =>
    intro j hj
    by_cases hji : j = i
    · subst hji
      simp at hj
    · exact h.hungUp j (by simpa [hji] using hj)

omit [DecidableEq ι] in
theorem granted (h : d.Seated) {i : ι} {k : κ} {rest : List ι} (hs : d.status = .serving)
    (hand : d.hand = none) (hl : d.lines k = i :: rest) :
    ({ d with lines := Function.update d.lines k rest, hand := some i } : Desk ι κ ε β).Seated := by
  have hi : i ∈ d.lines k := by simp [hl]
  have hline := h.line_without [] hl
  simp only [List.nil_append] at hline
  constructor
  case nodup => exact fun k' => (h.nodup k').sublist (hline k').1
  case apart =>
    exact fun j k₁ k₂ h₁ h₂ => h.apart j k₁ k₂ ((hline k₁).1.mem h₁) ((hline k₂).1.mem h₂)
  case handApart =>
    intro j k' hj
    cases Option.some.inj hj
    exact (hline k').2.1
  case owed =>
    intro j hj
    rcases hj with ⟨k', hm⟩ | hj
    · exact h.owed j (Or.inl ⟨k', (hline k').1.mem hm⟩)
    · cases Option.some.inj hj
      exact h.owed i (Or.inl ⟨k, hi⟩)
  case owes =>
    intro j hj
    by_cases hji : j = i
    · subst hji
      exact Or.inr rfl
    · rcases h.owes j hj with ⟨k', hm⟩ | hj
      · exact Or.inl ⟨k', (hline k').2.2 j hji hm⟩
      · simp [hand] at hj
  case handServing => exact fun _ => hs
  case shut =>
    intro he
    have he : d.status = .shut := he
    simp [hs] at he
  case hungUp => exact h.hungUp

omit [DecidableEq κ] in
theorem delivered (h : d.Seated) {i : ι} {v : β} (hand : d.hand = some i) :
    ({ d with hand := none
              replies := Function.update d.replies i ((d.replies i).send (.ok v)) } :
      Desk ι κ ε β).Seated := by
  have hsent : (d.replies i).send (.ok v) = .full (.ok v) ∨
      (d.replies i).send (.ok v) = .closed := by
    rcases h.owed i (Or.inr hand) with he | he <;> simp [he, OneShot.send]
  constructor
  case nodup => exact h.nodup
  case apart => exact h.apart
  case handApart => exact fun j k hj => by simp at hj
  case owed =>
    intro j hj
    have hm := hj.resolve_right (by simp)
    have hji : j ≠ i := by
      rintro rfl
      obtain ⟨k, hm⟩ := hm
      exact h.handApart j k hand hm
    simpa [hji] using h.owed j (Or.inl hm)
  case owes =>
    intro j hj
    have hji : j ≠ i := by
      rintro rfl
      rcases hsent with hs | hs <;> simp [hs] at hj
    have hj : d.replies j = .empty := by simpa [hji] using hj
    refine Or.inl ((h.owes j hj).resolve_right fun he => hji ?_)
    exact Option.some.inj (he.symm.trans hand)
  case handServing => exact fun hn => absurd rfl hn
  case shut => exact h.shut
  case hungUp =>
    intro j hj
    have hji : j ≠ i := by
      rintro rfl
      rcases hsent with hs | hs <;> simp [hs] at hj
    exact h.hungUp j (by simpa [hji] using hj)

omit [DecidableEq κ] in
theorem shutDown (h : d.Seated) {left : List ι} (hs : d.status = .closing)
    (hleft : ∀ i, i ∈ left ↔ ∃ k, i ∈ d.lines k) : (d.shutDown left).Seated := by
  have hand : d.hand = none := by
    by_contra hn
    simp [h.handServing hn] at hs
  constructor
  case nodup => exact fun k => List.nodup_nil
  case apart => exact fun j k k' hm => by simp [Desk.shutDown] at hm
  case handApart => exact fun j k hj => by simp [Desk.shutDown, hand] at hj
  case owed =>
    intro j hj
    simp [Desk.Owes, Desk.shutDown, hand] at hj
  case owes =>
    intro j hj
    by_cases hm : j ∈ left
    · cases hc : d.replies j <;> simp [Desk.shutDown, hm, hc, OneShot.hangUp] at hj
    · have hj : d.replies j = .empty := by simpa [Desk.shutDown, hm] using hj
      rcases h.owes j hj with ho | ho
      · exact absurd ((hleft j).mpr ho) hm
      · simp [hand] at ho
  case handServing => exact fun hn => absurd hand hn
  case shut => exact fun _ _ => rfl
  case hungUp => exact fun _ _ => rfl

end Desk.Seated

theorem DeskStep.seated (step : DeskStep stopped d o d') (h : d.Seated) : d'.Seated := by
  cases step with
  | idle => exact h
  | arrived fresh hs => exact h.arrived fresh hs
  | turnedAway fresh => exact h.reply (Or.inr ⟨rfl, h.not_owed fresh⟩)
  | cancelled =>
    exact ⟨h.nodup, h.apart, h.handApart, h.owed, h.owes, h.handServing, h.shut, h.hungUp⟩
  | dropped => exact h.reply (Or.inl rfl)
  | @received i r _ hr =>
    refine h.reply (Or.inr ⟨rfl, fun ho => ?_⟩)
    rcases h.owed i ho with he | he <;> simp [he, OneShot.read] at hr
  | granted hs hand hl => exact h.granted hs hand hl
  | delivered hand => exact h.delivered hand
  | refused _ hl => exact h.answer [] hl
  | withdrawn _ hl => exact h.answer _ hl
  | closing hs hand =>
    refine ⟨h.nodup, h.apart, h.handApart, h.owed, h.owes, fun hn => absurd hand hn, ?_, ?_⟩
    · simp
    · intro i hi
      have := h.hungUp i hi
      simp [hs] at this
  | stopped _ hl => exact h.answer [] hl
  | shut hs hleft => exact h.shutDown hs hleft
