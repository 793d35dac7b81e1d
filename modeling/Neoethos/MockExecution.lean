import Mathlib.Algebra.BigOperators.Group.List.Basic
import Mathlib.Data.List.Nodup
import Mathlib.Tactic.Linarith
import Neoethos.FloatOps
import Neoethos.PositionManager

/-! The replay's simulated execution, `execution.rs`, beside the books of its positions. -/

namespace Neoethos

open FloatOps (lit)

structure ReplayCostModel (F : Type*) where
  halfSpreadPrice : F
  slippagePrice : F
  commissionPerLot : F

/-- The direction and the volume of an open position, as `open_legs` holds them. -/
structure OpenLeg (F : Type*) where
  id : String
  sign : F
  volume : F
  deriving DecidableEq

structure MockExecutionAdapter (F : Type*) where
  nextId : Nat
  costs : ReplayCostModel F
  commissionCharged : F
  openLegs : List (OpenLeg F)

variable {F : Type*} [FloatOps F]

def ReplayCostModel.adverse (costs : ReplayCostModel F) : F :=
  costs.halfSpreadPrice + costs.slippagePrice

def mockPositionId (n : Nat) : String := s!"mock-pos-{n}"

namespace MockExecutionAdapter

def withCosts (costs : ReplayCostModel F) : MockExecutionAdapter F := ⟨0, costs, lit 0, []⟩

def execute (adapter : MockExecutionAdapter F) (intent : TradeIntent F) (markPrice : F) :
    MockExecutionAdapter F × ExecReport F :=
  let adverse := adapter.costs.adverse
  match intent with
  | .open _ dir volume _ _ _ =>
    let id := mockPositionId (adapter.nextId + 1)
    ({ adapter with
        nextId := adapter.nextId + 1
        openLegs := adapter.openLegs ++ [⟨id, dir.sign, volume⟩]
        commissionCharged := adapter.commissionCharged +
          adapter.costs.commissionPerLot * FloatOps.abs volume },
      ⟨.filled, some (markPrice + dir.sign * adverse), some id⟩)
  | .close positionId volume _ =>
    -- A position that was never opened here has no side and no volume.
    let leg := (adapter.openLegs.find? (·.id = positionId)).getD ⟨positionId, lit 0, lit 0⟩
    let closedVol := FloatOps.abs (volume.getD leg.volume)
    ({ adapter with
        openLegs :=
          if volume.isNone then adapter.openLegs.filter (·.id ≠ positionId)
          else adapter.openLegs
        commissionCharged := adapter.commissionCharged +
          adapter.costs.commissionPerLot * closedVol },
      ⟨.filled, some (markPrice - leg.sign * adverse), some positionId⟩)
  | .amend positionId _ _ =>
    ({ adapter with commissionCharged := adapter.commissionCharged + lit 0 },
      ⟨.filled, none, some positionId⟩)
  | .cancel _ =>
    ({ adapter with commissionCharged := adapter.commissionCharged + lit 0 },
      ⟨.filled, none, none⟩)

end MockExecutionAdapter

/-- The adapter and the books, with the volume that was opened and the volume that the books have
closed. -/
structure ReplayBooks where
  adapter : MockExecutionAdapter ℚ
  manager : PositionManager ℚ
  opened : ℚ
  closed : ℚ

def PositionManager.openVolume (mgr : PositionManager ℚ) : ℚ :=
  (mgr.openPositions.map (·.volume)).sum

namespace ReplayBooks

/-- An intent is executed at a mark, and its report reaches the books. -/
def step (b : ReplayBooks) (executed : TradeIntent ℚ × ℚ) : ReplayBooks :=
  let out := b.adapter.execute executed.1 executed.2
  let manager := b.manager.apply executed.1 out.2
  { adapter := out.1
    manager := manager
    opened := b.opened + match executed.1 with
      | .open _ _ volume _ _ _ => volume
      | _ => 0
    closed := b.closed + match executed.1 with
      | .close .. => b.manager.openVolume - manager.openVolume
      | _ => 0 }

def start (costs : ReplayCostModel ℚ) (manager : PositionManager ℚ) : ReplayBooks :=
  ⟨.withCosts costs, manager, 0, 0⟩

def run (b : ReplayBooks) (executed : List (TradeIntent ℚ × ℚ)) : ReplayBooks :=
  executed.foldl step b

def leg (p : Position ℚ) : OpenLeg ℚ := ⟨p.id, p.dir.sign, p.volume⟩

/-- The legs of the adapter are the open positions of the books, and what it charged is the
commission on the opened and the closed volume. -/
structure Agree (b : ReplayBooks) : Prop where
  legs : b.adapter.openLegs = b.manager.openPositions.map leg
  commission : b.adapter.commissionCharged =
    b.adapter.costs.commissionPerLot * (b.opened + b.closed)

/-- The intents that both sides take alike: an entry of some lots, an exit of all lots. A partial
exit changes nothing when the position is unknown and no commission is charged. -/
def InStep (b : ReplayBooks) : TradeIntent ℚ → Prop
  | .open _ _ volume _ _ _ => 0 ≤ volume ∨ b.adapter.costs.commissionPerLot = 0
  | .close _ none _ => True
  | .close positionId (some _) _ =>
    b.adapter.costs.commissionPerLot = 0 ∧ ∀ p ∈ b.manager.openPositions, p.id ≠ positionId
  | .amend .. => True
  | .cancel _ => True

end ReplayBooks

theorem mockPositionId_inj {m n : Nat} (h : mockPositionId m = mockPositionId n) : m = n := by
  have hlist : "mock-pos-".toList ++ (toString m).toList =
      "mock-pos-".toList ++ (toString n).toList := by
    rw [← String.toList_append, ← String.toList_append]
    exact congrArg String.toList h
  have hdigits := congrArg (fun ds => Nat.ofDigitChars 10 ds 0) (List.append_cancel_left hlist)
  simpa [Nat.toString_eq_ofList_toDigits] using hdigits

namespace PositionManager

variable {id : String} {change : Position ℚ → Option (Position ℚ)}

theorem map_update {β : Type*} {f : Position ℚ → β}
    (h : ∀ p, (change p).map f = some (f p)) (positions : List (Position ℚ)) :
    (update id change positions).map f = positions.map f := by
  induction positions with
  | nil => rfl
  | cons p rest ih =>
    unfold update
    split
    next =>
      obtain ⟨q, hq, hf⟩ := Option.map_eq_some_iff.mp (h p)
      rw [hq, Option.toList_some, List.singleton_append, List.map_cons, List.map_cons, hf]
    next => rw [List.map_cons, List.map_cons, ih]

theorem update_found {front back : List (Position ℚ)} {p : Position ℚ}
    (hfront : ∀ q ∈ front, q.id ≠ id) (hown : p.id = id) :
    update id change (front ++ p :: back) = front ++ (change p).toList ++ back := by
  induction front with
  | nil =>
    rw [List.nil_append, List.nil_append]
    exact if_pos hown
  | cons q front ih =>
    rw [List.cons_append, update, if_neg (hfront q List.mem_cons_self),
      ih fun r hr => hfront r (List.mem_cons_of_mem q hr)]
    rfl

variable {mgr : PositionManager ℚ} {report : ExecReport ℚ} {lots : Option ℚ} {reason : CloseReason}

theorem apply_close_unknown (h : ∀ p ∈ mgr.openPositions, p.id ≠ id) :
    mgr.apply (.close id lots reason) report = mgr := by
  unfold apply
  split
  next => rfl
  next =>
    have hnone : mgr.openPositions.find? (·.id = id) = none := by
      rw [List.find?_eq_none]
      intro p hp
      simpa using h p hp
    simp only [hnone]

theorem apply_close_known {front back : List (Position ℚ)} {p : Position ℚ}
    (hfilled : report.status = .filled) (hsplit : mgr.openPositions = front ++ p :: back)
    (hfront : ∀ q ∈ front, q.id ≠ p.id) :
    (mgr.apply (.close p.id lots reason) report).openPositions = front ++
      (if lots = none ∨ p.volume ≤ min (lots.getD p.volume) p.volume then []
        else [{ p with volume := p.volume - min (lots.getD p.volume) p.volume }]) ++ back := by
  have hfind : mgr.openPositions.find? (·.id = p.id) = some p := by
    rw [hsplit, List.find?_append, List.find?_eq_none.mpr (by simpa using hfront)]
    simp
  unfold apply
  rw [if_neg (not_not.mpr hfilled)]
  simp only [hfind]
  rw [hsplit, update_found hfront rfl]
  by_cases hwhole : lots = none ∨ p.volume ≤ min (lots.getD p.volume) p.volume
  · have hbool : (lots.isNone || FloatOps.le p.volume
        (FloatOps.min (lots.getD p.volume) p.volume)) = true := by
      simpa using hwhole
    rw [if_pos hwhole, hbool]
    rfl
  · have hbool : (lots.isNone || FloatOps.le p.volume
        (FloatOps.min (lots.getD p.volume) p.volume)) = false := by
      simpa [Option.isSome_iff_ne_none] using hwhole
    rw [if_neg hwhole, hbool]
    rfl

end PositionManager

namespace ReplayBooks

/-- What an agreeing run keeps: the ids of the legs are old ones of the adapter and different, and
volumes are not negative where they are charged. -/
structure Held (b : ReplayBooks) : Prop where
  agree : b.Agree
  issued : ∀ l ∈ b.adapter.openLegs, ∃ n ≤ b.adapter.nextId, l.id = mockPositionId n
  unique : (b.adapter.openLegs.map (·.id)).Nodup
  volumes : b.adapter.costs.commissionPerLot = 0 ∨ ∀ l ∈ b.adapter.openLegs, 0 ≤ l.volume

variable {b : ReplayBooks}

theorem split_of_open (h : b.Held) {p : Position ℚ} (hp : p ∈ b.manager.openPositions) :
    ∃ front back,
      b.manager.openPositions = front ++ p :: back ∧ ∀ q ∈ front ++ back, q.id ≠ p.id := by
  obtain ⟨front, back, hsplit⟩ := List.append_of_mem hp
  refine ⟨front, back, hsplit, ?_⟩
  have hunique : (b.manager.openPositions.map (·.id)).Nodup := by
    have hlegs := h.unique
    rw [h.agree.legs, List.map_map] at hlegs
    exact hlegs
  rw [hsplit, List.map_append, List.map_cons, List.nodup_middle, List.nodup_cons,
    ← List.map_append] at hunique
  intro q hq hsame
  exact hunique.1 (hsame ▸ List.mem_map_of_mem hq)

section Steps

variable (mark : ℚ)

theorem find?_legs (h : b.Agree) (positionId : String) :
    b.adapter.openLegs.find? (·.id = positionId) =
      (b.manager.openPositions.find? (·.id = positionId)).map leg := by
  rw [h.legs, List.find?_map]
  rfl

/-- The commission on an entry is exact unless its volume is negative. -/
theorem agree_open_iff (h : b.Agree) (symbol : String) (dir : Direction) (volume : ℚ)
    (sl tp : Option ℚ) (source : SignalSource) :
    (b.step (.open symbol dir volume sl tp source, mark)).Agree ↔
      b.InStep (.open symbol dir volume sl tp source) := by
  have hlegs : (b.step (.open symbol dir volume sl tp source, mark)).adapter.openLegs =
      (b.step (.open symbol dir volume sl tp source, mark)).manager.openPositions.map leg := by
    change b.adapter.openLegs ++ [_] = (b.manager.openPositions ++ [_]).map leg
    rw [List.map_append, ← h.legs]
    rfl
  have hcharged : (b.step (.open symbol dir volume sl tp source, mark)).adapter.commissionCharged =
      b.adapter.commissionCharged + b.adapter.costs.commissionPerLot * |volume| := by
    rw [← abs_rat]
    rfl
  have htotal : b.adapter.costs.commissionPerLot * (b.opened + volume + (b.closed + 0)) =
      b.adapter.commissionCharged + b.adapter.costs.commissionPerLot * volume := by
    rw [h.commission]
    ring
  constructor
  · intro hagree
    have hcommission := hagree.commission
    rw [hcharged] at hcommission
    change _ = b.adapter.costs.commissionPerLot * (b.opened + volume + (b.closed + 0))
      at hcommission
    rw [htotal] at hcommission
    rcases mul_eq_mul_left_iff.mp (add_left_cancel hcommission) with habs | hzero
    · exact .inl (abs_eq_self.mp habs)
    · exact .inr hzero
  · intro hin
    refine ⟨hlegs, ?_⟩
    rw [hcharged]
    change _ = b.adapter.costs.commissionPerLot * (b.opened + volume + (b.closed + 0))
    rw [htotal]
    rcases hin with hpos | hzero
    · rw [abs_of_nonneg hpos]
    · rw [hzero, zero_mul, zero_mul]

theorem close_unknown {positionId : String} (h : ∀ p ∈ b.manager.openPositions, p.id ≠ positionId)
    (lots : Option ℚ) (reason : CloseReason) :
    (b.step (.close positionId lots reason, mark)).manager = b.manager ∧
      (b.step (.close positionId lots reason, mark)).closed = b.closed := by
  have hmanager : (b.step (.close positionId lots reason, mark)).manager = b.manager := by
    change b.manager.apply (.close positionId lots reason)
      (b.adapter.execute (.close positionId lots reason) mark).2 = b.manager
    exact PositionManager.apply_close_unknown h
  refine ⟨hmanager, ?_⟩
  change b.closed + (b.manager.openVolume -
    (b.step (.close positionId lots reason, mark)).manager.openVolume) = b.closed
  rw [hmanager, sub_self, add_zero]

theorem close_charged (h : b.Agree) (positionId : String) (lots : Option ℚ)
    (reason : CloseReason) :
    (b.step (.close positionId lots reason, mark)).adapter.commissionCharged =
      b.adapter.commissionCharged + b.adapter.costs.commissionPerLot *
        |lots.getD (((b.manager.openPositions.find? fun p => p.id = positionId).map
          fun p => p.volume).getD 0)| := by
  rw [← abs_rat]
  change b.adapter.commissionCharged + b.adapter.costs.commissionPerLot * FloatOps.abs (lots.getD
    ((b.adapter.openLegs.find? (·.id = positionId)).getD ⟨positionId, 0, 0⟩).volume) = _
  rw [find?_legs h]
  cases b.manager.openPositions.find? (·.id = positionId) with
  | none => rfl
  | some p => rfl

def remainder (p : Position ℚ) (lots : Option ℚ) : List (Position ℚ) :=
  if lots = none ∨ p.volume ≤ min (lots.getD p.volume) p.volume then []
  else [{ p with volume := p.volume - min (lots.getD p.volume) p.volume }]

theorem close_known {front back : List (Position ℚ)} {p : Position ℚ}
    (hsplit : b.manager.openPositions = front ++ p :: back) (hfront : ∀ q ∈ front, q.id ≠ p.id)
    (lots : Option ℚ) (reason : CloseReason) :
    (b.step (.close p.id lots reason, mark)).manager.openPositions =
        front ++ remainder p lots ++ back ∧
      (b.step (.close p.id lots reason, mark)).closed =
        b.closed + (p.volume - ((remainder p lots).map (·.volume)).sum) := by
  have hpositions : (b.step (.close p.id lots reason, mark)).manager.openPositions =
      front ++ remainder p lots ++ back := by
    change (b.manager.apply (.close p.id lots reason)
      (b.adapter.execute (.close p.id lots reason) mark).2).openPositions = _
    exact PositionManager.apply_close_known rfl hsplit hfront
  refine ⟨hpositions, ?_⟩
  change b.closed + (b.manager.openVolume -
    (b.step (.close p.id lots reason, mark)).manager.openVolume) = _
  unfold PositionManager.openVolume
  rw [hpositions, hsplit]
  simp only [List.map_append, List.map_cons, List.sum_append, List.sum_cons]
  ring

theorem agree_closeAll (h : b.Held) (positionId : String) (reason : CloseReason) :
    (b.step (.close positionId none reason, mark)).Agree := by
  have hcharged := close_charged mark h.agree positionId none reason
  have hlegs : (b.step (.close positionId none reason, mark)).adapter.openLegs =
      b.adapter.openLegs.filter (·.id ≠ positionId) := rfl
  rw [h.agree.legs] at hlegs
  by_cases hopen : ∃ p ∈ b.manager.openPositions, p.id = positionId
  · obtain ⟨p, hp, rfl⟩ := hopen
    obtain ⟨front, back, hsplit, hothers⟩ := split_of_open h hp
    have hfront : ∀ q ∈ front, q.id ≠ p.id := fun q hq => hothers q (List.mem_append_left _ hq)
    obtain ⟨hpositions, hclosed⟩ := close_known mark hsplit hfront none reason
    have hnone : remainder p none = [] := if_pos (.inl rfl)
    rw [hnone] at hpositions hclosed
    have hfind : b.manager.openPositions.find? (·.id = p.id) = some p := by
      rw [hsplit, List.find?_append, List.find?_eq_none.mpr (by simpa using hfront)]
      simp
    constructor
    · rw [hlegs, hpositions, hsplit, List.filter_map, List.append_nil]
      congr 1
      rw [List.filter_append, List.filter_cons_of_neg (by simp [leg]), ← List.filter_append,
        List.filter_eq_self]
      intro q hq
      simp [leg, hothers q hq]
    · rw [hcharged, hfind, h.agree.commission]
      change _ + _ * |p.volume| = b.adapter.costs.commissionPerLot * (b.opened + 0 +
        (b.step (.close p.id none reason, mark)).closed)
      rw [hclosed]
      have hvolume : b.adapter.costs.commissionPerLot * |p.volume| =
          b.adapter.costs.commissionPerLot * p.volume := by
        rcases h.volumes with hzero | hpositive
        · rw [hzero, zero_mul, zero_mul]
        · have hleg : leg p ∈ b.adapter.openLegs := by
            rw [h.agree.legs]
            exact List.mem_map_of_mem hp
          have hnonneg : 0 ≤ p.volume := hpositive (leg p) hleg
          rw [abs_of_nonneg hnonneg]
      rw [hvolume]
      simp
      ring
  · push Not at hopen
    obtain ⟨hmanager, hclosed⟩ := close_unknown mark hopen none reason
    have hfind : b.manager.openPositions.find? (·.id = positionId) = none := by
      rw [List.find?_eq_none]
      simpa using hopen
    constructor
    · rw [hlegs, hmanager, List.filter_eq_self]
      simpa [leg] using hopen
    · rw [hcharged, hfind, h.agree.commission]
      change _ + _ * |(0 : ℚ)| = b.adapter.costs.commissionPerLot * (b.opened + 0 +
        (b.step (.close positionId none reason, mark)).closed)
      rw [hclosed, abs_zero, mul_zero, add_zero, add_zero]

theorem leg_ne_remainder {p : Position ℚ} {lots : ℚ} (hlots : 0 < lots) :
    [leg p] ≠ (remainder p (some lots)).map leg := by
  unfold remainder
  split
  next => simp
  next hpart =>
    intro hsame
    have hroom : ¬p.volume ≤ min lots p.volume := fun hle => hpart (.inr hle)
    have hmin : min lots p.volume = lots := by
      apply min_eq_left
      by_contra hmore
      exact hroom (by rw [min_eq_right (not_le.mp hmore).le])
    have hvolume : p.volume = p.volume - min lots p.volume :=
      congrArg OpenLeg.volume (List.singleton_inj.mp hsame)
    rw [hmin] at hvolume
    linarith

/-- A partial exit leaves the leg, so that both sides are alike only when nothing was open. -/
theorem agree_closePart_iff (h : b.Held) (positionId : String) {lots : ℚ} (hlots : 0 < lots)
    (reason : CloseReason) :
    (b.step (.close positionId (some lots) reason, mark)).Agree ↔
      b.InStep (.close positionId (some lots) reason) := by
  have hcharged := close_charged mark h.agree positionId (some lots) reason
  have hlegs : (b.step (.close positionId (some lots) reason, mark)).adapter.openLegs =
      b.manager.openPositions.map leg := h.agree.legs
  constructor
  · intro hagree
    have hopen : ∀ p ∈ b.manager.openPositions, p.id ≠ positionId := by
      rintro p hp rfl
      obtain ⟨front, back, hsplit, hothers⟩ := split_of_open h hp
      obtain ⟨hpositions, -⟩ := close_known mark hsplit
        (fun q hq => hothers q (List.mem_append_left _ hq)) (some lots) reason
      have hsame := hagree.legs
      rw [hlegs, hpositions, hsplit, List.append_assoc, List.map_append, List.map_append,
        List.map_append, List.append_cancel_left_eq, List.map_cons] at hsame
      exact leg_ne_remainder hlots (List.append_cancel_right
        (show [leg p] ++ back.map leg = _ from hsame))
    refine ⟨?_, hopen⟩
    obtain ⟨-, hclosed⟩ := close_unknown mark hopen (some lots) reason
    have hcommission := hagree.commission
    rw [hcharged, h.agree.commission] at hcommission
    change _ + _ * |lots| = b.adapter.costs.commissionPerLot * (b.opened + 0 +
      (b.step (.close positionId (some lots) reason, mark)).closed) at hcommission
    rw [hclosed, add_zero] at hcommission
    have hzero : b.adapter.costs.commissionPerLot * |lots| = 0 := by linarith
    exact (mul_eq_zero.mp hzero).resolve_right (abs_pos.mpr hlots.ne').ne'
  · intro hin
    obtain ⟨hfree, hopen⟩ := hin
    obtain ⟨hmanager, hclosed⟩ := close_unknown mark hopen (some lots) reason
    constructor
    · rw [hlegs, hmanager]
    · rw [hcharged, h.agree.commission]
      change _ + _ * _ = b.adapter.costs.commissionPerLot * _
      rw [hfree, zero_mul, zero_mul, zero_mul, add_zero]

/-- The other intents charge nothing and leave the sides and the volumes. -/
theorem agree_other (h : b.Agree) {intent : TradeIntent ℚ}
    (hadapter : (b.step (intent, mark)).adapter =
      { b.adapter with commissionCharged := b.adapter.commissionCharged + 0 })
    (hlegs : (b.step (intent, mark)).manager.openPositions.map leg =
      b.manager.openPositions.map leg)
    (hvolume : (b.step (intent, mark)).opened + (b.step (intent, mark)).closed =
      b.opened + b.closed) : (b.step (intent, mark)).Agree := by
  constructor
  · rw [hlegs, hadapter]
    exact h.legs
  · rw [hadapter, hvolume]
    exact (add_zero _).trans h.commission

theorem agree_amend (h : b.Agree) (positionId : String) (newSl newTp : Option ℚ) :
    (b.step (.amend positionId newSl newTp, mark)).Agree := by
  refine agree_other mark h rfl ?_ ?_
  · change (PositionManager.update positionId _ b.manager.openPositions).map leg = _
    exact PositionManager.map_update (fun p => rfl) _
  · change b.opened + 0 + (b.closed + 0) = b.opened + b.closed
    ring

theorem agree_cancel (h : b.Agree) (orderId : String) :
    (b.step (.cancel orderId, mark)).Agree := by
  refine agree_other mark h rfl rfl ?_
  change b.opened + 0 + (b.closed + 0) = b.opened + b.closed
  ring

end Steps

def PartialPositive : TradeIntent ℚ → Prop
  | .close _ (some lots) _ => 0 < lots
  | _ => True

/-- The two sides stay alike over an intent exactly when they both take it alike. -/
theorem Held.step_iff (h : b.Held) {intent : TradeIntent ℚ} (mark : ℚ)
    (hparts : PartialPositive intent) :
    (b.step (intent, mark)).Agree ↔ b.InStep intent := by
  cases intent with
  | «open» symbol dir volume sl tp source =>
    exact agree_open_iff mark h.agree symbol dir volume sl tp source
  | close positionId lots reason =>
    cases lots with
    | none => exact ⟨fun _ => trivial, fun _ => agree_closeAll mark h positionId reason⟩
    | some lots => exact agree_closePart_iff mark h positionId hparts reason
  | amend positionId newSl newTp =>
    exact ⟨fun _ => trivial, fun _ => agree_amend mark h.agree positionId newSl newTp⟩
  | cancel orderId => exact ⟨fun _ => trivial, fun _ => agree_cancel mark h.agree orderId⟩

theorem Held.step (h : b.Held) {intent : TradeIntent ℚ} {mark : ℚ}
    (hagree : (b.step (intent, mark)).Agree) (hin : b.InStep intent) :
    (b.step (intent, mark)).Held := by
  cases intent with
  | «open» symbol dir volume sl tp source =>
    have hlegs : (b.step (.open symbol dir volume sl tp source, mark)).adapter.openLegs =
        b.adapter.openLegs ++ [⟨mockPositionId (b.adapter.nextId + 1), dir.sign, volume⟩] := rfl
    refine ⟨hagree, ?_, ?_, ?_⟩
    · rw [hlegs]
      intro l hl
      rcases List.mem_append.mp hl with hold | hnew
      · obtain ⟨n, hn, hid⟩ := h.issued l hold
        exact ⟨n, Nat.le_succ_of_le hn, hid⟩
      · obtain rfl := List.mem_singleton.mp hnew
        exact ⟨b.adapter.nextId + 1, le_refl _, rfl⟩
    · rw [hlegs, List.map_append]
      refine h.unique.append (List.nodup_singleton _) (List.disjoint_singleton.mpr ?_)
      intro hmem
      obtain ⟨l, hl, hid⟩ := List.mem_map.mp hmem
      obtain ⟨n, hn, hissued⟩ := h.issued l hl
      have hsame : n = b.adapter.nextId + 1 := mockPositionId_inj (hissued.symm.trans hid)
      omega
    · rcases h.volumes with hfree | hpositive
      · exact .inl hfree
      · rcases hin with hvolume | hfree
        · right
          rw [hlegs]
          intro l hl
          rcases List.mem_append.mp hl with hold | hnew
          · exact hpositive l hold
          · obtain rfl := List.mem_singleton.mp hnew
            exact hvolume
        · exact .inl hfree
  | close positionId lots reason =>
    have hlegs : (b.step (.close positionId lots reason, mark)).adapter.openLegs.Sublist
        b.adapter.openLegs := by
      cases lots with
      | none => exact List.filter_sublist
      | some lots => exact List.Sublist.refl _
    refine ⟨hagree, fun l hl => h.issued l (hlegs.subset hl), h.unique.sublist (hlegs.map _), ?_⟩
    exact h.volumes.imp_right fun hpositive l hl => hpositive l (hlegs.subset hl)
  | amend positionId newSl newTp => exact ⟨hagree, h.issued, h.unique, h.volumes⟩
  | cancel orderId => exact ⟨hagree, h.issued, h.unique, h.volumes⟩

theorem Held.start (costs : ReplayCostModel ℚ) {manager : PositionManager ℚ}
    (hnone : manager.openPositions = []) : (start costs manager).Held := by
  refine ⟨⟨?_, ?_⟩, ?_, ?_, ?_⟩
  · change [] = manager.openPositions.map leg
    rw [hnone]
    rfl
  · change (0 : ℚ) = costs.commissionPerLot * (0 + 0)
    ring
  · intro l hl
    cases hl
  · exact List.nodup_nil
  · right
    intro l hl
    cases hl

/-- A whole run: the two sides are alike in every state exactly when every intent is one that they
take alike. -/
theorem Held.run_iff (h : b.Held) {executed : List (TradeIntent ℚ × ℚ)}
    (hparts : ∀ x ∈ executed, PartialPositive x.1) :
    (∀ front back, executed = front ++ back → (b.run front).Agree) ↔
      ∀ front x back, executed = front ++ x :: back → (b.run front).InStep x.1 := by
  induction executed generalizing b with
  | nil =>
    constructor
    · intro _ front x back hsplit
      simp at hsplit
    · intro _ front back hsplit
      obtain ⟨rfl, -⟩ := List.append_eq_nil_iff.mp hsplit.symm
      exact h.agree
  | cons first executed ih =>
    have hfirst := h.step_iff first.2 (hparts first List.mem_cons_self)
    have hrest (hin : b.InStep first.1) :=
      ih (h.step (hfirst.mpr hin) hin) fun x hx => hparts x (List.mem_cons_of_mem first hx)
    constructor
    · intro hagree
      have hin : b.InStep first.1 := hfirst.mp (hagree [first] executed rfl)
      have hlater := (hrest hin).mp fun front back hsplit =>
        hagree (first :: front) back (congrArg (first :: ·) hsplit)
      intro front x back hsplit
      cases front with
      | nil =>
        obtain ⟨rfl, -⟩ := List.cons.inj hsplit
        exact hin
      | cons y front =>
        obtain ⟨rfl, htail⟩ := List.cons.inj hsplit
        exact hlater front x back htail
    · intro hin
      have hlater := (hrest (hin [] first executed rfl)).mpr fun front x back hsplit =>
        hin (first :: front) x back (congrArg (first :: ·) hsplit)
      intro front back hsplit
      cases front with
      | nil => exact h.agree
      | cons y front =>
        obtain ⟨rfl, htail⟩ := List.cons.inj hsplit
        exact hlater front back htail

end ReplayBooks

/-- A fresh adapter and fresh books hold the same positions in every state of a run, and the
commission is that on the opened and closed volume, exactly when every intent is taken alike. -/
theorem mock_execution_agrees_iff (costs : ReplayCostModel ℚ) (manager : PositionManager ℚ)
    (executed : List (TradeIntent ℚ × ℚ)) (hnone : manager.openPositions = [])
    (hparts : ∀ x ∈ executed, ReplayBooks.PartialPositive x.1) :
    (∀ front back, executed = front ++ back →
      ((ReplayBooks.start costs manager).run front).Agree) ↔
    ∀ front x back, executed = front ++ x :: back →
      ((ReplayBooks.start costs manager).run front).InStep x.1 :=
  (ReplayBooks.Held.start costs hnone).run_iff hparts

def sampleReplayManager : PositionManager ℚ := ⟨[], 0, 0, 0, 0, 0, none, 0, none⟩

def sampleOpen : TradeIntent ℚ := .open "EURUSD" .long 2 none none .strategy

/-- Entries and whole exits. -/
theorem wholeExits_agree :
    ((ReplayBooks.start ⟨1, 0, 7⟩ sampleReplayManager).run
      [(sampleOpen, 100), (.close "mock-pos-1" none .signal, 110)]).Agree := by
  have hagree := (mock_execution_agrees_iff ⟨1, 0, 7⟩ sampleReplayManager
    [(sampleOpen, 100), (.close "mock-pos-1" none .signal, 110)] rfl (by
      simp [sampleOpen, ReplayBooks.PartialPositive])).mpr (by
      intro front x back hsplit
      have hmem : x ∈ [(sampleOpen, (100 : ℚ)), (.close "mock-pos-1" none .signal, 110)] := by
        rw [hsplit]
        simp
      rcases List.mem_cons.mp hmem with rfl | hlast
      · exact .inl (by norm_num)
      · obtain rfl := List.mem_singleton.mp hlast
        trivial)
  exact hagree _ [] rfl

/-- A partial exit leaves the leg of the adapter with all its volume. -/
theorem partialExit_disagrees :
    ¬((ReplayBooks.start ⟨1, 0, 7⟩ sampleReplayManager).run
      [(sampleOpen, 100), (.close "mock-pos-1" (some 1) .signal, 110)]).Agree := by
  intro h
  have hlegs := h.legs
  revert hlegs
  decide +kernel

end Neoethos
