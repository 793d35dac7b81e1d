import Neoethos.RequestDesk

variable {ι κ ε β : Type*}

namespace DeskEvent

/-- Who came to the line `k`. -/
def arrival [DecidableEq κ] (k : κ) : DeskEvent ι κ ε β → Option ι
  | .arrived i k' => if k' = k then some i else none
  | _ => none

def grant : DeskEvent ι κ ε β → Option ι
  | .granted i => some i
  | _ => none

def settlement : DeskEvent ι κ ε β → Option ι
  | .granted i => some i
  | .refused i _ => some i
  | _ => none

def receipt : DeskEvent ι κ ε β → Option ι
  | .received i _ => some i
  | _ => none

theorem arrival_eq [DecidableEq κ] {o : Option (DeskEvent ι κ ε β)} {i : ι} {k : κ} :
    o.bind (arrival k) = some i ↔ o = some (.arrived i k) := by
  rw [Option.bind_eq_some_iff]
  constructor
  · rintro ⟨e, rfl, he⟩
    cases e <;> simp_all [arrival]
  · rintro rfl
    exact ⟨_, rfl, by simp [arrival]⟩

theorem settlement_eq {o : Option (DeskEvent ι κ ε β)} {i : ι} :
    o.bind settlement = some i ↔ o = some (.granted i) ∨ ∃ e, o = some (.refused i e) := by
  rw [Option.bind_eq_some_iff]
  constructor
  · rintro ⟨e, rfl, he⟩
    cases e <;> simp_all [settlement]
  · rintro (rfl | ⟨e, rfl⟩)
    · exact ⟨_, rfl, rfl⟩
    · exact ⟨_, rfl, rfl⟩

theorem receipt_eq {o : Option (DeskEvent ι κ ε β)} {i : ι} :
    o.bind receipt = some i ↔ ∃ r, o = some (.received i r) := by
  rw [Option.bind_eq_some_iff]
  constructor
  · rintro ⟨e, rfl, he⟩
    cases e <;> simp_all [receipt]
  · rintro ⟨r, rfl⟩
    exact ⟨_, rfl, rfl⟩

end DeskEvent

/-- A list of what one kind of event names stays without repetition when a new event names
something new. -/
theorem nodup_append_event {α γ : Type*} {f : α → Option γ} {es : List α} {o : Option α}
    (h : (es.filterMap f).Nodup) (new : ∀ i, o.bind f = some i → i ∉ es.filterMap f) :
    ((es ++ o.toList).filterMap f).Nodup := by
  rw [filterMap_append_toList]
  cases ho : o.bind f with
  | none => simpa using h
  | some i =>
    refine List.nodup_append.mpr ⟨h, List.nodup_singleton i, ?_⟩
    intro a ha b hb hab
    cases List.mem_singleton.mp hb
    exact new i ho (hab ▸ ha)

theorem mem_filterMap_append_toList {α γ : Type*} {f : α → Option γ} {es : List α} {o : Option α}
    {i : γ} : i ∈ (es ++ o.toList).filterMap f ↔ i ∈ es.filterMap f ∨ o.bind f = some i := by
  rw [filterMap_append_toList, List.mem_append, Option.mem_toList]

variable [DecidableEq ι] [DecidableEq κ]
variable {stopped : ε} {d d' : Desk ι κ ε β} {o : Option (DeskEvent ι κ ε β)}

theorem DeskStep.arrives (step : DeskStep stopped d o d') {i : ι} {k : κ}
    (h : o = some (.arrived i k)) :
    d.replies i = .absent ∧ d'.replies i ≠ .absent ∧ i ∈ d'.lines k := by
  cases step with
  | arrived fresh =>
    cases h
    exact ⟨fresh, by simp, by simp⟩
  | _ => cases h

theorem DeskStep.settles (step : DeskStep stopped d o d') (hd : d.Seated) {i : ι}
    (h : o = some (.granted i) ∨ ∃ e, o = some (.refused i e)) :
    (∃ k, i ∈ d.lines k) ∧ ∀ k, i ∉ d'.lines k := by
  cases step with
  | @granted _ k _ _ _ hl =>
    have hi := h.resolve_right (by simp)
    cases hi
    exact ⟨⟨k, by simp [hl]⟩, fun k => (hd.line_without [] hl k).2.1⟩
  | @refused _ k _ _ _ hl =>
    obtain ⟨e, hi⟩ := h.resolve_left (by simp)
    cases hi
    exact ⟨⟨k, by simp [hl]⟩, fun k => (hd.line_without [] hl k).2.1⟩
  | _ =>
    rcases h with h | ⟨e, h⟩ <;> cases h

/-- Who gets an outcome had none before, and it is the one in the channel, or the error of those
who find nobody there. -/
theorem DeskStep.receives (step : DeskStep stopped d o d') {i : ι} {r : Except ε β}
    (h : o = some (.received i r)) :
    d'.replies i = .taken ∧
      ((d.replies i = .full r ∧ d.cancelled i = false) ∨
        (d.replies i = .hungUp ∧ r = .error stopped) ∨
        (d.replies i = .absent ∧ d.status = .shut ∧ r = .error stopped)) := by
  cases step with
  | turnedAway fresh hs =>
    cases h
    exact ⟨by simp [Desk.reply], Or.inr (Or.inr ⟨fresh, hs, rfl⟩)⟩
  | received hc hr =>
    cases h
    refine ⟨by simp [Desk.reply], ?_⟩
    rcases OneShot.read_some hr with hf | hu
    · exact Or.inl ⟨hf, hc⟩
    · exact Or.inr (Or.inl hu)
  | _ => cases h

structure Desk.Lined (es : List (DeskEvent ι κ ε β)) (d : Desk ι κ ε β) : Prop where
  present : ∀ i k, i ∈ es.filterMap (DeskEvent.arrival k) → d.replies i ≠ .absent
  once : ∀ k, (es.filterMap (DeskEvent.arrival k)).Nodup
  apart : ∀ i k k', i ∈ es.filterMap (DeskEvent.arrival k) →
    i ∈ es.filterMap (DeskEvent.arrival k') → k = k'
  inOrder : ∀ k, (d.lines k).Sublist (es.filterMap (DeskEvent.arrival k))
  accounted : ∀ i k, i ∈ es.filterMap (DeskEvent.arrival k) →
    i ∈ d.lines k ∨ i ∈ es.filterMap DeskEvent.settlement ∨ d.Abandoned i ∨ d.status ≠ .serving

/-- Whoever was granted or refused something has left the lines, once. -/
structure Desk.Settled (es : List (DeskEvent ι κ ε β)) (d : Desk ι κ ε β) : Prop where
  once : (es.filterMap DeskEvent.settlement).Nodup
  gone : ∀ i ∈ es.filterMap DeskEvent.settlement, (∀ k, i ∉ d.lines k) ∧ d.replies i ≠ .absent
  inHand : ∀ i, d.hand = some i → DeskEvent.granted i ∈ es

theorem DeskStep.settled {es : List (DeskEvent ι κ ε β)} (step : DeskStep stopped d o d')
    (hd : d.Seated) (h : d.Settled es) : d'.Settled (es ++ o.toList) where
  once := by
    refine nodup_append_event h.once fun i hi hm => ?_
    obtain ⟨⟨k, hk⟩, _⟩ := step.settles hd (DeskEvent.settlement_eq.mp hi)
    exact (h.gone i hm).1 k hk
  gone := by
    intro i hi
    rcases mem_filterMap_append_toList.mp hi with hi | hi
    · obtain ⟨hline, hr⟩ := h.gone i hi
      refine ⟨fun k hk => ?_, step.present hr⟩
      rcases step.lineStep k with ⟨_, fresh, hl⟩ | ⟨hsub, _⟩
      · rcases List.mem_append.mp (hl ▸ hk) with hm | hm
        · exact hline k hm
        · exact hr (List.mem_singleton.mp hm ▸ fresh)
      · exact hline k (hsub.mem hk)
    · obtain ⟨⟨k, hk⟩, hline⟩ := step.settles hd (DeskEvent.settlement_eq.mp hi)
      have hr : d.replies i ≠ .absent := fun ha => hd.not_owed ha (Or.inl ⟨k, hk⟩)
      exact ⟨hline, step.present hr⟩
  inHand := by
    intro i hi
    rcases step.handStep with hh | hh | ⟨j, ho, hh⟩
    · exact List.mem_append_left _ (h.inHand i (hh ▸ hi))
    · simp [hh] at hi
    · cases Option.some.inj (hh.symm.trans hi)
      exact mem_append_toList.mpr (Or.inr ho)

theorem DeskStep.lined {es : List (DeskEvent ι κ ε β)} (step : DeskStep stopped d o d')
    (h : d.Lined es) : d'.Lined (es ++ o.toList) where
  present := by
    intro i k hi
    rcases mem_filterMap_append_toList.mp hi with hi | hi
    · exact step.present (h.present i k hi)
    · exact (step.arrives (DeskEvent.arrival_eq.mp hi)).2.1
  once := by
    intro k
    refine nodup_append_event (h.once k) fun i hi hm => ?_
    exact h.present i k hm (step.arrives (DeskEvent.arrival_eq.mp hi)).1
  apart := by
    intro i k k' hi hi'
    rcases mem_filterMap_append_toList.mp hi with hi | hi
    · rcases mem_filterMap_append_toList.mp hi' with hi' | hi'
      · exact h.apart i k k' hi hi'
      · exact absurd (step.arrives (DeskEvent.arrival_eq.mp hi')).1 (h.present i k hi)
    · rcases mem_filterMap_append_toList.mp hi' with hi' | hi'
      · exact absurd (step.arrives (DeskEvent.arrival_eq.mp hi)).1 (h.present i k' hi')
      · have ho := DeskEvent.arrival_eq.mp hi
        rw [DeskEvent.arrival_eq.mp hi'] at ho
        cases ho
        rfl
  inOrder := by
    intro k
    rw [filterMap_append_toList]
    rcases step.lineStep k with ⟨ho, _, hl⟩ | ⟨hsub, _⟩
    · rw [hl, DeskEvent.arrival_eq.mpr ho]
      exact (h.inOrder k).append (.refl _)
    · exact (hsub.trans (h.inOrder k)).trans (List.sublist_append_left _ _)
  accounted := by
    intro i k hi
    rcases mem_filterMap_append_toList.mp hi with hi | hi
    · rcases h.accounted i k hi with hm | hm | hm | hm
      · rcases step.lineStep k with ⟨_, _, hl⟩ | ⟨_, hstay⟩
        · exact Or.inl (hl ▸ List.mem_append_left _ hm)
        · rcases hstay i hm with hm | ho | ho | ho | ho
          · exact Or.inl hm
          · exact Or.inr (Or.inl (mem_filterMap_append_toList.mpr
              (Or.inr (DeskEvent.settlement_eq.mpr (Or.inl ho)))))
          · exact Or.inr (Or.inl (mem_filterMap_append_toList.mpr
              (Or.inr (DeskEvent.settlement_eq.mpr (Or.inr ho)))))
          · exact Or.inr (Or.inr (Or.inl (step.abandoned ho)))
          · exact Or.inr (Or.inr (Or.inr ho))
      · exact Or.inr (Or.inl (mem_filterMap_append_toList.mpr (Or.inl hm)))
      · exact Or.inr (Or.inr (Or.inl (step.abandoned hm)))
      · exact Or.inr (Or.inr (Or.inr (step.not_serving hm)))
    · exact Or.inl (step.arrives (DeskEvent.arrival_eq.mp hi)).2.2

/-- What every outcome and every message on its way to become one comes from. -/
structure Desk.Answered (stopped : ε) (es : List (DeskEvent ι κ ε β)) (d : Desk ι κ ε β) :
    Prop where
  once : (es.filterMap DeskEvent.receipt).Nodup
  taken : ∀ i, d.replies i = .taken ↔ i ∈ es.filterMap DeskEvent.receipt
  given : ∀ i v, d.replies i = .full (.ok v) ∨ DeskEvent.received i (.ok v) ∈ es →
    DeskEvent.granted i ∈ es
  failed : ∀ i e, d.replies i = .full (.error e) →
    DeskEvent.refused i e ∈ es ∨ d.cancelled i = true ∨ (e = stopped ∧ d.status ≠ .serving)
  received : ∀ i e, DeskEvent.received i (.error e) ∈ es →
    DeskEvent.refused i e ∈ es ∨ (e = stopped ∧ d.status ≠ .serving)

theorem DeskStep.answered {es : List (DeskEvent ι κ ε β)} (step : DeskStep stopped d o d')
    (hd : d.Seated) (hs : d.Settled es) (h : d.Answered stopped es) :
    d'.Answered stopped (es ++ o.toList) where
  once := by
    refine nodup_append_event h.once fun i hi hm => ?_
    obtain ⟨r, ho⟩ := DeskEvent.receipt_eq.mp hi
    have ht := (h.taken i).mpr hm
    rcases (step.receives ho).2 with ⟨hc, _⟩ | ⟨hc, _⟩ | ⟨hc, _⟩ <;> simp [hc] at ht
  taken := by
    intro i
    rw [mem_filterMap_append_toList, ← h.taken i, DeskEvent.receipt_eq]
    constructor
    · intro ht
      have hr := step.replyStep i
      rw [ht] at hr
      generalize d.replies i = c at hr ⊢
      cases hr with
      | same => exact Or.inl rfl
      | turnedAway ho => exact Or.inr ⟨_, ho⟩
      | received ho => exact Or.inr ⟨_, ho⟩
    · rintro (ht | ⟨r, ho⟩)
      · exact step.taken ht
      · exact (step.receives ho).1
  given := by
    rintro i v (hf | hm)
    · have hr := step.replyStep i
      rw [hf] at hr
      generalize hc : d.replies i = c at hr
      cases hr with
      | same => exact List.mem_append_left _ (h.given i v (Or.inl hc))
      | given hand => exact List.mem_append_left _ (hs.inHand i hand)
    · rcases mem_append_toList.mp hm with hm | ho
      · exact List.mem_append_left _ (h.given i v (Or.inr hm))
      · rcases (step.receives ho).2 with ⟨hc, _⟩ | ⟨_, hr⟩ | ⟨_, _, hr⟩
        · exact List.mem_append_left _ (h.given i v (Or.inl hc))
        · cases hr
        · cases hr
  failed := by
    intro i e hf
    have hr := step.replyStep i
    rw [hf] at hr
    generalize hc : d.replies i = c at hr
    cases hr with
    | same =>
      rcases h.failed i e hc with hm | hm | ⟨rfl, hm⟩
      · exact Or.inl (List.mem_append_left _ hm)
      · exact Or.inr (Or.inl (step.cancelledStep hm))
      · exact Or.inr (Or.inr ⟨rfl, step.not_serving hm⟩)
    | failed hwhy =>
      rcases hwhy with ho | hm | ⟨rfl, hm⟩
      · exact Or.inl (mem_append_toList.mpr (Or.inr ho))
      · exact Or.inr (Or.inl (step.cancelledStep hm))
      · exact Or.inr (Or.inr ⟨rfl, by simp [hm]⟩)
  received := by
    intro i e hm
    rcases mem_append_toList.mp hm with hm | ho
    · rcases h.received i e hm with hm | ⟨rfl, hm⟩
      · exact Or.inl (List.mem_append_left _ hm)
      · exact Or.inr ⟨rfl, step.not_serving hm⟩
    · rcases (step.receives ho).2 with ⟨hc, hno⟩ | ⟨hc, hr⟩ | ⟨_, hst, hr⟩
      · rcases h.failed i e hc with hm | hm | ⟨rfl, hm⟩
        · exact Or.inl (List.mem_append_left _ hm)
        · simp [hno] at hm
        · exact Or.inr ⟨rfl, step.not_serving hm⟩
      · cases hr
        exact Or.inr ⟨rfl, step.not_serving (by simp [hd.hungUp i hc])⟩
      · cases hr
        exact Or.inr ⟨rfl, step.not_serving (by simp [hst])⟩

structure Desk.Closed (es : List (DeskEvent ι κ ε β)) (d : Desk ι κ ε β) : Prop where
  closing : DeskEvent.closing ∈ es ↔ d.status ≠ .serving
  last : es.Pairwise fun e f => e = .closing → ∀ i, f ≠ .granted i

theorem DeskStep.grants (step : DeskStep stopped d o d') {i : ι} (h : o = some (.granted i)) :
    d.status = .serving ∧ ∃ k rest, d.lines k = i :: rest := by
  cases step with
  | granted hs _ hl =>
    cases h
    exact ⟨hs, _, _, hl⟩
  | _ => cases h

theorem DeskStep.closed {es : List (DeskEvent ι κ ε β)} (step : DeskStep stopped d o d')
    (h : d.Closed es) : d'.Closed (es ++ o.toList) where
  closing := by
    rw [mem_append_toList, h.closing]
    rcases step.statusStep with ⟨hs, ho⟩ | ⟨hs, hs', ho⟩ | ⟨hs, hs', ho⟩
    · rw [hs]
      exact ⟨fun hm => hm.resolve_right ho, Or.inl⟩
    · simp [hs', ho]
    · simp [hs, hs']
  last := by
    refine List.pairwise_append.mpr ⟨h.last, ?_, ?_⟩
    · cases o <;> simp
    · rintro e he f hf rfl i rfl
      exact h.closing.mp he (step.grants (Option.mem_toList.mp hf)).1

/-- Everything that holds of a desk and its history. -/
structure Desk.Kept (stopped : ε) (es : List (DeskEvent ι κ ε β)) (d : Desk ι κ ε β) : Prop where
  seated : d.Seated
  lined : d.Lined es
  settled : d.Settled es
  answered : d.Answered stopped es
  closed : d.Closed es

omit [DecidableEq ι] in
theorem Desk.kept_opened : (Desk.opened : Desk ι κ ε β).Kept stopped [] where
  seated := Desk.Seated.opened
  lined := by constructor <;> simp [Desk.opened]
  settled := by constructor <;> simp [Desk.opened]
  answered := by constructor <;> simp [Desk.opened]
  closed := by constructor <;> simp [Desk.opened]

theorem Desk.kept_of_trace {es : List (DeskEvent ι κ ε β)}
    (h : Trace (DeskStep stopped) Desk.opened es d) : d.Kept stopped es :=
  h.invariant (I := fun es d => d.Kept stopped es) Desk.kept_opened
    fun _ _ _ _ hk step =>
      ⟨step.seated hk.seated, step.lined hk.lined, step.settled hk.seated hk.settled,
        step.answered hk.seated hk.settled hk.answered, step.closed hk.closed⟩

theorem filterMap_sublist_filterMap {α γ : Type*} {f g : α → Option γ}
    (h : ∀ a c, f a = some c → g a = some c) (l : List α) :
    (l.filterMap f).Sublist (l.filterMap g) := by
  induction l with
  | nil => simp
  | cons a l ih =>
    cases hf : f a with
    | none =>
      rw [List.filterMap_cons_none hf]
      cases hg : g a with
      | none => rwa [List.filterMap_cons_none hg]
      | some c => rw [List.filterMap_cons_some hg]; exact ih.cons c
    | some c =>
      rw [List.filterMap_cons_some hf, List.filterMap_cons_some (h a c hf)]
      exact ih.cons_cons c

theorem not_both_orders {α : Type*} {l : List α} (h : l.Nodup) {a b : α}
    (hab : [a, b].Sublist l) : ¬[b, a].Sublist l := by
  induction l with
  | nil => simp at hab
  | cons c l ih =>
    obtain ⟨hc, hl⟩ := List.nodup_cons.mp h
    have tail : ∀ {x y}, [x, y].Sublist (c :: l) → y ∈ l := by
      intro x y hxy
      rcases List.sublist_cons_iff.mp hxy with hxy | ⟨r, hr, hxy⟩
      · exact hxy.mem (List.mem_cons_of_mem _ (List.mem_singleton_self _))
      · cases hr
        exact hxy.mem (List.mem_singleton_self _)
    intro hba
    rcases List.sublist_cons_iff.mp hab with hab' | ⟨r, hr, _⟩
    · rcases List.sublist_cons_iff.mp hba with hba' | ⟨r, hr, _⟩
      · exact ih hl hab' hba'
      · cases hr
        exact hc (tail hab)
    · cases hr
      exact hc (tail hba)

namespace Desk.Kept

variable {es : List (DeskEvent ι κ ε β)}

omit [DecidableEq ι] in
theorem granted_once (h : d.Kept stopped es) : (es.filterMap DeskEvent.grant).Nodup := by
  refine h.settled.once.sublist (filterMap_sublist_filterMap ?_ es)
  intro e i he
  cases e <;> simp_all [DeskEvent.grant, DeskEvent.settlement]

/-- Whoever came before in the same line has been granted or refused something, or has given up. -/
theorem granted_in_order (h : d.Kept stopped es) {i : ι}
    (step : DeskStep stopped d (some (.granted i)) d') {j : ι} {k : κ}
    (before : [j, i].Sublist (es.filterMap (DeskEvent.arrival k))) :
    j ∈ es.filterMap DeskEvent.settlement ∨ d.Abandoned j := by
  obtain ⟨serving, k', rest, hl⟩ := step.grants rfl
  have hi : i ∈ es.filterMap (DeskEvent.arrival k') :=
    (h.lined.inOrder k').mem (hl ▸ List.mem_cons_self)
  have hk : k' = k := h.lined.apart i k' k hi (before.mem (by simp))
  subst hk
  rcases h.lined.accounted j k' (before.mem (by simp)) with hm | hm | hm | hm
  · have hji : j ≠ i := by
      rintro rfl
      simpa using before.nodup (h.lined.once k')
    have hj : j ∈ rest := (List.mem_cons.mp (hl ▸ hm)).resolve_left hji
    have after : [i, j].Sublist (d.lines k') := by
      rw [hl]
      exact (List.singleton_sublist.mpr hj).cons_cons i
    exact absurd before (not_both_orders (h.lined.once k') (after.trans (h.lined.inOrder k')))
  · exact Or.inl hm
  · exact Or.inr hm
  · exact absurd serving hm

omit [DecidableEq ι] in
/-- Behind closed doors everybody who came was granted or refused what was asked for, has given up,
or gets the error of those who were turned away. -/
theorem shut_answers (h : d.Kept stopped es) (hs : d.status = .shut) {i : ι}
    (present : d.replies i ≠ .absent) :
    DeskEvent.granted i ∈ es ∨ (∃ e, DeskEvent.refused i e ∈ es) ∨ d.Abandoned i ∨
      (d.replies i).read (.error stopped) = some (.error stopped) ∨
      DeskEvent.received i (.error stopped) ∈ es := by
  cases hc : d.replies i with
  | absent => exact absurd hc present
  | empty =>
    rcases h.seated.owes i hc with ⟨k, hm⟩ | hand
    · simp [h.seated.shut hs k] at hm
    · have := h.seated.handServing (by simp [hand])
      simp [hs] at this
  | full r =>
    cases r with
    | ok v => exact Or.inl (h.answered.given i v (Or.inl hc))
    | error e =>
      rcases h.answered.failed i e hc with hm | hm | ⟨rfl, _⟩
      · exact Or.inr (Or.inl ⟨e, hm⟩)
      · exact Or.inr (Or.inr (Or.inl (Or.inl hm)))
      · exact Or.inr (Or.inr (Or.inr (Or.inl rfl)))
  | hungUp => exact Or.inr (Or.inr (Or.inr (Or.inl rfl)))
  | taken =>
    obtain ⟨e, he, hi⟩ := List.mem_filterMap.mp ((h.answered.taken i).mp hc)
    cases e with
    | received j r =>
      cases Option.some.inj hi
      cases r with
      | ok v => exact Or.inl (h.answered.given i v (Or.inr he))
      | error e =>
        rcases h.answered.received i e he with hm | ⟨rfl, _⟩
        · exact Or.inr (Or.inl ⟨e, hm⟩)
        · exact Or.inr (Or.inr (Or.inr (Or.inr he)))
    | _ => cases hi
  | closed => exact Or.inr (Or.inr (Or.inl (Or.inr hc)))

end Desk.Kept
