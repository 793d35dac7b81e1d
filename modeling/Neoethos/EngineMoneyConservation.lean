import Mathlib.Algebra.BigOperators.Group.List.Basic
import Mathlib.Tactic.Linarith
import Neoethos.EngineMoneyAtomic
import Neoethos.FloatOps
import Neoethos.ListIndex

namespace Neoethos

structure MoneyFill where
  report : FilledExecutionReport ℚ
  ledger : ExecutionEconomicsView ℚ

namespace MoneyFill

def positionId (fill : MoneyFill) : String := fill.report.positionId

def lots (fill : MoneyFill) : ℚ := fill.report.actualFilledLots

def entryCommission (fill : MoneyFill) : ℚ := fill.ledger.entryCommissionAccountCurrency.amount

def exitCommission (fill : MoneyFill) : ℚ := fill.ledger.exitCommissionAccountCurrency.amount

def netPnl (fill : MoneyFill) : ℚ := fill.ledger.netPnlAccountCurrency.amount

def isEntry (fill : MoneyFill) : Bool := decide (fill.report.fillSide = .entry)

end MoneyFill

/-- What a fill does to the open positions. An exit takes lots of the position that has them. -/
inductive LotsMoved (fill : MoneyFill) :
    List (MoneyPosition ℚ) → List (MoneyPosition ℚ) → Prop
  | opened (positions : List (MoneyPosition ℚ)) (entry : fill.isEntry = true)
      (free : fill.positionId ∉ positions.map (·.positionId)) :
      LotsMoved fill positions
        (positions ++ [⟨fill.positionId, fill.report.symbol, fill.lots⟩])
  | added (front : List (MoneyPosition ℚ)) (p : MoneyPosition ℚ) (back : List (MoneyPosition ℚ))
      (entry : fill.isEntry = true) (own : p.positionId = fill.positionId) :
      LotsMoved fill (front ++ p :: back)
        (front ++ { p with remainingLots := p.remainingLots + fill.lots } :: back)
  | reduced (front : List (MoneyPosition ℚ)) (p : MoneyPosition ℚ)
      (back : List (MoneyPosition ℚ)) (exit : fill.isEntry = false)
      (own : p.positionId = fill.positionId) (room : fill.lots < p.remainingLots) :
      LotsMoved fill (front ++ p :: back)
        (front ++ { p with remainingLots := p.remainingLots - fill.lots } :: back)
  | closed (front : List (MoneyPosition ℚ)) (p : MoneyPosition ℚ) (back : List (MoneyPosition ℚ))
      (exit : fill.isEntry = false) (own : p.positionId = fill.positionId)
      (all : fill.lots = p.remainingLots) :
      LotsMoved fill (front ++ p :: back) (front ++ back)

structure FillApplied (s next : EngineMoneyState ℚ) (fill : MoneyFill) : Prop where
  opening : next.openingBalanceAccountCurrency = s.openingBalanceAccountCurrency
  realized : next.realizedPnlAccountCurrency.amount = s.realizedPnlAccountCurrency.amount +
    if fill.isEntry then -fill.entryCommission else fill.netPnl + fill.entryCommission
  entryCommission : next.entryCommissionAccountCurrency.amount =
    s.entryCommissionAccountCurrency.amount + if fill.isEntry then fill.entryCommission else 0
  exitCommission : next.exitCommissionAccountCurrency.amount =
    s.exitCommissionAccountCurrency.amount + if fill.isEntry then 0 else fill.exitCommission
  positive : 0 < fill.lots
  lots : LotsMoved fill s.positions next.positions

namespace EngineMoneyState

variable {c : MoneyConstructor ℚ} {s next : EngineMoneyState ℚ} {fill : MoneyFill}

def accept (c : MoneyConstructor ℚ) (s : EngineMoneyState ℚ) (fill : MoneyFill) :
    Option (EngineMoneyState ℚ) :=
  match applyFilledExecution c s fill.report fill.ledger with
  | (.ok _, next) => some next
  | (.error _, _) => none

def acceptAll (c : MoneyConstructor ℚ) (s : EngineMoneyState ℚ) (fills : List MoneyFill) :
    Option (EngineMoneyState ℚ) :=
  fills.foldlM (accept c) s

theorem commit_of_accept (h : s.accept c fill = some next) :
    s.commitFill c fill.report fill.ledger = .ok next := by
  unfold accept applyFilledExecution at h
  cases hcommit : s.commitFill c fill.report fill.ledger with
  | error error =>
    rw [hcommit] at h
    cases h
  | ok written =>
    rw [hcommit] at h
    dsimp only at h
    split at h
    next heq =>
      obtain ⟨-, rfl⟩ := Prod.mk.inj heq
      rw [Option.some.inj h]
    next => cases h

theorem lots_pos (h : s.checkFill fill.report fill.ledger = .ok ()) : 0 < fill.lots := by
  unfold checkFill at h
  obtain ⟨hreport, -⟩ := Fallible.check_ok_iff.mp h
  unfold FilledExecutionReport.validateAgainstView at hreport
  simp only [Fallible.check_ok_iff] at hreport
  obtain ⟨-, -, -, -, -, hlots, -⟩ := hreport
  unfold validateStandardLots at hlots
  rw [Fallible.refuse_ok_iff] at hlots
  have hpositive : 0 < fill.report.actualFilledLots := by
    simpa using fun hle => hlots (.inr hle)
  exact hpositive

theorem applied_of_applyEntry (hside : fill.report.fillSide = .entry) (hlots : 0 < fill.lots)
    (h : s.applyEntry c fill.report fill.ledger = .ok next) : FillApplied s next fill := by
  have hentry : fill.isEntry = true := by simp [MoneyFill.isEntry, hside]
  unfold applyEntry at h
  obtain ⟨-, h⟩ := Fallible.check_ok_iff.mp h
  obtain ⟨-, h⟩ := Fallible.check_ok_iff.mp h
  obtain ⟨commission, hc, h⟩ := Fallible.bind_ok_iff.mp h
  obtain ⟨realized, hr, h⟩ := Fallible.bind_ok_iff.mp h
  obtain ⟨-, rfl⟩ := accountMoney_ok_iff.mp hc
  obtain ⟨-, rfl⟩ := accountMoney_ok_iff.mp hr
  cases h
  refine ⟨rfl, ?_, ?_, ?_, hlots, ?_⟩
  · rw [if_pos hentry]
    exact sub_eq_add_neg _ _
  · rw [if_pos hentry]
    rfl
  · rw [if_pos hentry, add_zero]
  · dsimp only
    cases hfind : s.positions.findIdx? (·.positionId == fill.report.positionId) with
    | none =>
      have hfree : fill.positionId ∉ s.positions.map (·.positionId) := by
        intro hmem
        obtain ⟨p, hp, hid⟩ := List.mem_map.mp hmem
        have hmiss := List.findIdx?_eq_none_iff.mp hfind p hp
        simp [hid, MoneyFill.positionId] at hmiss
      exact LotsMoved.opened s.positions hentry hfree
    | some i =>
      obtain ⟨front, p, back, hsplit, hid, -, hget, hmodify, -⟩ := ListIndex.split_of_findIdx? hfind
      have hown : p.positionId = fill.positionId := eq_of_beq hid
      simp only [Option.bind_some, hget]
      rw [hmodify, hsplit]
      exact LotsMoved.added front p back hentry hown

theorem applied_of_applyExit (hside : fill.report.fillSide = .exit) (hlots : 0 < fill.lots)
    (h : s.applyExit c fill.report fill.ledger = .ok next) : FillApplied s next fill := by
  have hexit : fill.isEntry = false := by simp [MoneyFill.isEntry, hside]
  have hnot : ¬fill.isEntry = true := by simp [hexit]
  unfold applyExit at h
  obtain ⟨i, hfind, h⟩ := Fallible.bind_ok_iff.mp h
  obtain ⟨position, hposition, h⟩ := Fallible.bind_ok_iff.mp h
  obtain ⟨-, h⟩ := Fallible.check_ok_iff.mp h
  obtain ⟨hroom, h⟩ := Fallible.check_ok_iff.mp h
  obtain ⟨realized, hr, h⟩ := Fallible.bind_ok_iff.mp h
  obtain ⟨commission, hc, h⟩ := Fallible.bind_ok_iff.mp h
  obtain ⟨-, rfl⟩ := accountMoney_ok_iff.mp hc
  obtain ⟨-, rfl⟩ := accountMoney_ok_iff.mp hr
  cases h
  obtain ⟨front, p, back, hsplit, hid, -, hget, hmodify, herase⟩ :=
    ListIndex.split_of_findIdx? (Fallible.require_ok_iff.mp hfind)
  have hown : p.positionId = fill.positionId := eq_of_beq hid
  have hsame := hget.symm.trans (Fallible.require_ok_iff.mp hposition)
  obtain rfl : p = position := Option.some.inj hsame
  have hle : fill.lots ≤ p.remainingLots := by
    have hlots : fill.report.actualFilledLots ≤ p.remainingLots := by
      rw [Fallible.refuse_ok_iff] at hroom
      simpa using hroom
    exact hlots
  refine ⟨rfl, ?_, ?_, ?_, hlots, ?_⟩
  · rw [if_neg hnot]
    exact add_assoc _ _ _
  · rw [if_neg hnot, add_zero]
  · rw [if_neg hnot]
    rfl
  · dsimp only
    by_cases hall : fill.lots = p.remainingLots
    · have hall' : fill.report.actualFilledLots = p.remainingLots := hall
      rw [if_pos hall', if_pos (by simp), herase, hsplit]
      exact LotsMoved.closed front p back hexit hown hall
    · have hall' : ¬fill.report.actualFilledLots = p.remainingLots := hall
      have hrest : p.remainingLots - fill.report.actualFilledLots ≠ 0 := fun hzero =>
        hall (sub_eq_zero.mp hzero).symm
      rw [if_neg hall', if_neg (by simpa using hrest), hmodify, hsplit]
      exact LotsMoved.reduced front p back hexit hown (lt_of_le_of_ne hle hall)

theorem applied_of_accept (h : s.accept c fill = some next) : FillApplied s next fill := by
  have hcommit := commit_of_accept h
  unfold commitFill at hcommit
  obtain ⟨hcheck, hcommit⟩ := Fallible.check_ok_iff.mp hcommit
  obtain ⟨written, harm, hcommit⟩ := Fallible.bind_ok_iff.mp hcommit
  cases hcommit
  have hlots := lots_pos hcheck
  have happlied : FillApplied s written fill := by
    unfold applySide at harm
    split at harm
    next hside => exact applied_of_applyEntry hside hlots harm
    next hside => exact applied_of_applyExit hside hlots harm
  exact ⟨happlied.opening, happlied.realized, happlied.entryCommission, happlied.exitCommission,
    hlots, happlied.lots⟩

end EngineMoneyState

def entryFills (fills : List MoneyFill) : List MoneyFill := fills.filter (·.isEntry)

def exitFills (fills : List MoneyFill) : List MoneyFill := fills.filter (!·.isEntry)

def netLots (positionId : String) (fills : List MoneyFill) : ℚ :=
  (((entryFills fills).filter (·.positionId = positionId)).map (·.lots)).sum -
    (((exitFills fills).filter (·.positionId = positionId)).map (·.lots)).sum

namespace EngineMoneyState

def balance (s : EngineMoneyState ℚ) : ℚ :=
  s.openingBalanceAccountCurrency.amount + s.realizedPnlAccountCurrency.amount

def IsOpen (s : EngineMoneyState ℚ) (positionId : String) : Prop :=
  positionId ∈ s.positions.map (·.positionId)

/-- The recent fills begin with the latest opening of the position: it was absent before them, and
it is open behind each of them. -/
structure OpenSince (c : MoneyConstructor ℚ) (initial : EngineMoneyState ℚ) (positionId : String)
    (past recent : List MoneyFill) : Prop where
  absent : ∃ s, initial.acceptAll c past = some s ∧ ¬s.IsOpen positionId
  nonempty : recent ≠ []
  kept : ∀ front back, recent = front ++ back → front ≠ [] →
    ∃ s, initial.acceptAll c (past ++ front) = some s ∧ s.IsOpen positionId

structure Conserved (c : MoneyConstructor ℚ) (initial : EngineMoneyState ℚ)
    (fills : List MoneyFill) (s : EngineMoneyState ℚ) : Prop where
  positive : ∀ p ∈ s.positions, 0 < p.remainingLots
  unique : (s.positions.map (·.positionId)).Nodup
  remaining : ∀ p ∈ s.positions, ∃ past recent, fills = past ++ recent ∧
    OpenSince c initial p.positionId past recent ∧
    p.remainingLots = netLots p.positionId recent
  exits : ∀ past fill later, fills = past ++ fill :: later → fill.isEntry = false →
    ∃ before, initial.acceptAll c past = some before ∧
      ∃ p ∈ before.positions, p.positionId = fill.positionId ∧ fill.lots ≤ p.remainingLots
  entryCommission : s.entryCommissionAccountCurrency.amount =
    ((entryFills fills).map (·.entryCommission)).sum
  exitCommission : s.exitCommissionAccountCurrency.amount =
    ((exitFills fills).map (·.exitCommission)).sum
  balance : s.balance = initial.openingBalanceAccountCurrency.amount -
    ((entryFills fills).map (·.entryCommission)).sum +
      ((exitFills fills).map fun fill => fill.netPnl + fill.entryCommission).sum

end EngineMoneyState

section Fills

variable (fills : List MoneyFill) (fill : MoneyFill)

theorem entryFills_snoc :
    entryFills (fills ++ [fill]) = entryFills fills ++ if fill.isEntry then [fill] else [] := by
  unfold entryFills
  rw [List.filter_append]
  cases hentry : fill.isEntry with
  | true => simp [hentry]
  | false => simp [hentry]

theorem exitFills_snoc :
    exitFills (fills ++ [fill]) = exitFills fills ++ if fill.isEntry then [] else [fill] := by
  unfold exitFills
  rw [List.filter_append]
  cases hentry : fill.isEntry with
  | true => simp [hentry]
  | false => simp [hentry]

theorem netLots_snoc (positionId : String) :
    netLots positionId (fills ++ [fill]) = netLots positionId fills +
      if fill.positionId = positionId then (if fill.isEntry then fill.lots else -fill.lots)
      else 0 := by
  unfold netLots
  rw [entryFills_snoc, exitFills_snoc, List.filter_append, List.filter_append, List.map_append,
    List.map_append, List.sum_append, List.sum_append]
  by_cases hown : fill.positionId = positionId
  · cases hentry : fill.isEntry with
    | true =>
      simp [hown]
      ring
    | false =>
      simp [hown]
      ring
  · cases hentry : fill.isEntry with
    | true => simp [hown]
    | false => simp [hown]

end Fills

section Positions

variable {fill : MoneyFill} {positions later : List (MoneyPosition ℚ)}

theorem LotsMoved.unique (h : LotsMoved fill positions later)
    (hunique : (positions.map (·.positionId)).Nodup) : (later.map (·.positionId)).Nodup := by
  cases h with
  | opened _ entry free =>
    rw [List.map_append]
    exact hunique.append (List.nodup_singleton _) (List.disjoint_singleton.mpr free)
  | added front p back entry own =>
    rw [List.map_append, List.map_cons] at hunique ⊢
    exact hunique
  | reduced front p back exit own room =>
    rw [List.map_append, List.map_cons] at hunique ⊢
    exact hunique
  | closed front p back exit own all =>
    rw [List.map_append, List.map_cons] at hunique
    rw [List.map_append]
    exact hunique.sublist ((List.sublist_cons_self _ _).append_left _)

/-- Where an open position comes from: another one was left alone, the fill's own has other lots,
or it is new. -/
theorem LotsMoved.origin (h : LotsMoved fill positions later)
    (hunique : (positions.map (·.positionId)).Nodup) {p : MoneyPosition ℚ} (hp : p ∈ later) :
    (p ∈ positions ∧ fill.positionId ≠ p.positionId) ∨
    (fill.positionId = p.positionId ∧ ∃ old ∈ positions, old.positionId = p.positionId ∧
      p.remainingLots = old.remainingLots + (if fill.isEntry then fill.lots else -fill.lots) ∧
      (fill.isEntry = true ∨ 0 < p.remainingLots)) ∨
    (fill.positionId = p.positionId ∧ fill.isEntry = true ∧ p.remainingLots = fill.lots ∧
      p.positionId ∉ positions.map (·.positionId)) := by
  have hothers {front back : List (MoneyPosition ℚ)} {old : MoneyPosition ℚ}
      (hsplit : positions = front ++ old :: back) (hown : old.positionId = fill.positionId)
      (hmem : p ∈ front ++ back) : p ∈ positions ∧ fill.positionId ≠ p.positionId := by
    subst hsplit
    rw [List.map_append, List.map_cons, List.nodup_middle, List.nodup_cons] at hunique
    constructor
    · rw [List.mem_append] at hmem ⊢
      exact hmem.imp_right (List.mem_cons_of_mem _)
    · intro hsame
      apply hunique.1
      rw [hown, hsame, ← List.map_append]
      exact List.mem_map_of_mem hmem
  have hcut {front back : List (MoneyPosition ℚ)} {new : MoneyPosition ℚ}
      (hmem : p ∈ front ++ new :: back) : p ∈ front ++ back ∨ p = new := by
    rw [List.mem_append, List.mem_cons] at hmem
    rw [List.mem_append]
    tauto
  cases h with
  | opened _ entry free =>
    rw [List.mem_append, List.mem_singleton] at hp
    rcases hp with hold | rfl
    · refine .inl ⟨hold, ?_⟩
      intro hsame
      exact free (hsame ▸ List.mem_map_of_mem hold)
    · exact .inr (.inr ⟨rfl, entry, rfl, free⟩)
  | added front old back entry own =>
    rcases hcut hp with hmem | rfl
    · exact .inl (hothers rfl own hmem)
    · refine .inr (.inl ⟨own.symm, old, by simp, rfl, ?_, .inl entry⟩)
      rw [if_pos entry]
  | reduced front old back exit own room =>
    have hnot : ¬fill.isEntry = true := by simp [exit]
    rcases hcut hp with hmem | rfl
    · exact .inl (hothers rfl own hmem)
    · refine .inr (.inl ⟨own.symm, old, by simp, rfl, ?_, .inr (sub_pos.mpr room)⟩)
      rw [if_neg hnot]
      exact sub_eq_add_neg _ _
  | closed front old back exit own all => exact .inl (hothers rfl own hp)

theorem LotsMoved.exit (h : LotsMoved fill positions later) (hexit : fill.isEntry = false) :
    ∃ p ∈ positions, p.positionId = fill.positionId ∧ fill.lots ≤ p.remainingLots := by
  cases h with
  | opened _ entry free => simp [hexit] at entry
  | added front p back entry own => simp [hexit] at entry
  | reduced front p back exit own room => exact ⟨p, by simp, own, room.le⟩
  | closed front p back exit own all => exact ⟨p, by simp, own, all.le⟩

end Positions

namespace EngineMoneyState

variable {c : MoneyConstructor ℚ} {initial s next : EngineMoneyState ℚ} {fill : MoneyFill}
  {fills : List MoneyFill}

theorem acceptAll_snoc (h : initial.acceptAll c fills = some s)
    (hnext : s.accept c fill = some next) :
    initial.acceptAll c (fills ++ [fill]) = some next := by
  unfold acceptAll at h ⊢
  rw [List.foldlM_append, h]
  simpa using hnext

theorem OpenSince.snoc {positionId : String} {past recent : List MoneyFill}
    (h : OpenSince c initial positionId past recent)
    (hnext : initial.acceptAll c (past ++ (recent ++ [fill])) = some next)
    (hopen : next.IsOpen positionId) : OpenSince c initial positionId past (recent ++ [fill]) := by
  refine ⟨h.absent, by simp, ?_⟩
  intro front back hsplit hfront
  rcases List.eq_nil_or_concat back with rfl | ⟨earlier, last, rfl⟩
  · rw [List.append_nil] at hsplit
    subst hsplit
    exact ⟨next, hnext, hopen⟩
  · rw [List.concat_eq_append, ← List.append_assoc] at hsplit
    exact h.kept front earlier (List.append_inj_left' hsplit rfl) hfront

theorem Conserved.step (h : Conserved c initial fills s)
    (hrun : initial.acceptAll c fills = some s) (hnext : s.accept c fill = some next) :
    Conserved c initial (fills ++ [fill]) next := by
  have happlied := applied_of_accept hnext
  have hlater := acceptAll_snoc hrun hnext
  have horigin {p : MoneyPosition ℚ} (hp : p ∈ next.positions) :=
    happlied.lots.origin h.unique hp
  have hopen {p : MoneyPosition ℚ} (hp : p ∈ next.positions) : next.IsOpen p.positionId :=
    List.mem_map_of_mem hp
  refine ⟨?_, happlied.lots.unique h.unique, ?_, ?_, ?_, ?_, ?_⟩
  · intro p hp
    rcases horigin hp with ⟨hold, -⟩ | ⟨-, old, hold, -, hlots, hentry | hpositive⟩ |
      ⟨-, -, hlots, -⟩
    · exact h.positive p hold
    · rw [hlots, if_pos hentry]
      exact add_pos (h.positive old hold) happlied.positive
    · exact hpositive
    · rw [hlots]
      exact happlied.positive
  · intro p hp
    rcases horigin hp with ⟨hold, hother⟩ | ⟨hown, old, hold, hid, hlots, -⟩ |
      ⟨hown, hentry, hlots, hfree⟩
    · obtain ⟨past, recent, rfl, hsince, hremaining⟩ := h.remaining p hold
      rw [List.append_assoc] at hlater ⊢
      refine ⟨past, recent ++ [fill], rfl, hsince.snoc hlater (hopen hp), ?_⟩
      rw [netLots_snoc, if_neg hother, add_zero, hremaining]
    · obtain ⟨past, recent, rfl, hsince, hremaining⟩ := h.remaining old hold
      rw [hid] at hsince hremaining
      rw [List.append_assoc] at hlater ⊢
      refine ⟨past, recent ++ [fill], rfl, hsince.snoc hlater (hopen hp), ?_⟩
      rw [netLots_snoc, if_pos hown, hlots, hremaining]
    · refine ⟨fills, [fill], rfl, ⟨⟨s, hrun, hfree⟩, by simp, ?_⟩, ?_⟩
      · intro front back hsplit hfront
        cases front with
        | nil => exact absurd rfl hfront
        | cons first front =>
          obtain ⟨rfl, hnil⟩ := List.cons.inj hsplit
          obtain ⟨rfl, -⟩ := List.append_eq_nil_iff.mp hnil.symm
          exact ⟨next, hlater, hopen hp⟩
      · have hnet := netLots_snoc [] fill p.positionId
        rw [if_pos hown, if_pos hentry] at hnet
        rw [hlots]
        simpa [netLots, entryFills, exitFills] using hnet.symm
  · intro past exit later hsplit hexit
    rcases List.eq_nil_or_concat later with rfl | ⟨earlier, last, rfl⟩
    · obtain ⟨rfl, hlast⟩ := List.append_inj' hsplit rfl
      obtain rfl := List.singleton_inj.mp hlast
      exact ⟨s, hrun, happlied.lots.exit hexit⟩
    · rw [List.concat_eq_append, ← List.cons_append, ← List.append_assoc] at hsplit
      exact h.exits past exit earlier (List.append_inj_left' hsplit rfl) hexit
  · rw [happlied.entryCommission, h.entryCommission, entryFills_snoc, List.map_append,
      List.sum_append]
    cases fill.isEntry <;> simp
  · rw [happlied.exitCommission, h.exitCommission, exitFills_snoc, List.map_append,
      List.sum_append]
    cases fill.isEntry <;> simp
  · have hbalance := h.balance
    unfold EngineMoneyState.balance at hbalance ⊢
    rw [happlied.opening, happlied.realized, ← add_assoc, hbalance, entryFills_snoc, exitFills_snoc,
      List.map_append, List.map_append, List.sum_append, List.sum_append]
    cases fill.isEntry with
    | true =>
      simp
      ring
    | false => 
      simp
      ring

theorem Conserved.start (hentry : initial.entryCommissionAccountCurrency.amount = 0)
    (hexit : initial.exitCommissionAccountCurrency.amount = 0)
    (hrealized : initial.realizedPnlAccountCurrency.amount = 0) (hnone : initial.positions = []) :
    Conserved c initial [] initial := by
  refine ⟨?_, ?_, ?_, ?_, hentry, hexit, ?_⟩
  · simp [hnone]
  · simp [hnone]
  · simp [hnone]
  · intro past fill later hsplit
    simp at hsplit
  · unfold EngineMoneyState.balance
    rw [hrealized]
    simp [entryFills, exitFills]

theorem Conserved.run (h : Conserved c initial [] initial) {fills : List MoneyFill}
    (hrun : initial.acceptAll c fills = some s) :
    s.openingBalanceAccountCurrency = initial.openingBalanceAccountCurrency ∧
      Conserved c initial fills s := by
  induction fills using List.reverseRecOn generalizing s with
  | nil =>
    obtain rfl := Option.some.inj hrun
    exact ⟨rfl, h⟩
  | append_singleton fills fill ih =>
    have hsplit := hrun
    unfold acceptAll at hsplit
    rw [List.foldlM_append] at hsplit
    obtain ⟨before, hbefore, hlast⟩ := Option.bind_eq_some_iff.mp hsplit
    have hnext : before.accept c fill = some s := by simpa using hlast
    obtain ⟨hopening, hconserved⟩ := ih hbefore
    exact ⟨(applied_of_accept hnext).opening.trans hopening,
      hconserved.step hbefore hnext⟩

end EngineMoneyState

/-- Behind any accepted fills of a fresh state, lots and money are conserved. The statistics show
the balance, and once all is closed and the exits give back the entry commissions, it is the opening
balance and what the exits have earned. -/
theorem engine_money_conserved (c : MoneyConstructor ℚ) (opening : AccountMoney ℚ)
    (initial s : EngineMoneyState ℚ) (fills : List MoneyFill)
    (hnew : EngineMoneyState.new c opening = .ok initial)
    (h : initial.acceptAll c fills = some s) :
    EngineMoneyState.Conserved c initial fills s ∧
      initial.openingBalanceAccountCurrency = opening ∧
      (∀ stats, s.statsWithoutMark c = .ok stats →
        stats.balanceAccountCurrency.amount = s.balance) ∧
      (s.positions = [] →
        ((exitFills fills).map (·.entryCommission)).sum =
          ((entryFills fills).map (·.entryCommission)).sum →
        s.balance = opening.amount + ((exitFills fills).map (·.netPnl)).sum) := by
  unfold EngineMoneyState.new at hnew
  obtain ⟨-, hnew⟩ := Fallible.check_ok_iff.mp hnew
  obtain ⟨realized, hr, hnew⟩ := Fallible.bind_ok_iff.mp hnew
  obtain ⟨entry, he, hnew⟩ := Fallible.bind_ok_iff.mp hnew
  obtain ⟨exit, hx, hnew⟩ := Fallible.bind_ok_iff.mp hnew
  obtain ⟨-, rfl⟩ := accountMoney_ok_iff.mp hr
  obtain ⟨-, rfl⟩ := accountMoney_ok_iff.mp he
  obtain ⟨-, rfl⟩ := accountMoney_ok_iff.mp hx
  cases hnew
  have hstart : EngineMoneyState.Conserved c ⟨opening.currency, opening, ⟨opening.currency, 0⟩,
      ⟨opening.currency, 0⟩, ⟨opening.currency, 0⟩, [], none⟩ [] _ :=
    EngineMoneyState.Conserved.start rfl rfl rfl rfl
  obtain ⟨-, hconserved⟩ := hstart.run h
  refine ⟨hconserved, rfl, ?_, ?_⟩
  · intro stats hstats
    unfold EngineMoneyState.statsWithoutMark EngineMoneyState.statsWithUnrealized at hstats
    obtain ⟨-, hstats⟩ := Fallible.check_ok_iff.mp hstats
    obtain ⟨sha256, -, hstats⟩ := Fallible.bind_ok_iff.mp hstats
    obtain ⟨balance, hbalance, hstats⟩ := Fallible.bind_ok_iff.mp hstats
    obtain ⟨equity, -, hstats⟩ := Fallible.bind_ok_iff.mp hstats
    obtain ⟨-, hstats⟩ := Fallible.check_ok_iff.mp hstats
    cases hstats
    exact congrArg AccountMoney.amount (accountMoney_ok_iff.mp hbalance).2
  · intro hclosed hcommissions
    rw [hconserved.balance, ← hcommissions, List.sum_map_add]
    change opening.amount - _ + _ = _
    ring

def exactMoney : MoneyConstructor ℚ := ⟨fun _ _ => none, fun _ _ _ => rfl⟩

def sampleFill (side : FillSide) (digest : Char) (lots commission netPnl : ℚ) : MoneyFill where
  report :=
    { schemaVersion := 2
      fillIdentitySha256 := String.ofList (List.replicate 64 digest)
      positionId := "position-1"
      symbol := "EURUSD"
      fillSide := side
      actualFilledLots := lots
      fillPrice := 1
      filledAtUnixMs := 1700000000100
      executionEconomicsLedgerSha256 := String.ofList (List.replicate 64 digest) }
  ledger :=
    { accountCurrency := "USD"
      symbol := "EURUSD"
      filledLots := lots
      modeledEntryPrice := 1
      modeledExitPrice := 1
      entryFillTimestampUnixMs := 1700000000100
      exitFillTimestampUnixMs := 1700000000100
      entryFillIdentitySha256 := String.ofList (List.replicate 64 digest)
      exitFillIdentitySha256 := String.ofList (List.replicate 64 digest)
      ledgerSha256 := String.ofList (List.replicate 64 digest)
      entryCommissionAccountCurrency := ⟨"USD", commission⟩
      exitCommissionAccountCurrency := ⟨"USD", commission⟩
      netPnlAccountCurrency := ⟨"USD", netPnl⟩
      artifactClass := .researchOnly
      promotionEligibility := .notPromotionEligible }

/-- A position that is closed in two parts, which lose 3 and earn 10. -/
def sampleFills : List MoneyFill :=
  [sampleFill .entry 'a' 1 8 0, sampleFill .exit 'b' (1 / 4) 2 (-3),
    sampleFill .exit 'c' (3 / 4) 6 10]

theorem sampleFills_conserved :
    ∃ initial s, EngineMoneyState.new exactMoney ⟨"USD", 1000⟩ = .ok initial ∧
      initial.acceptAll exactMoney sampleFills = some s ∧
      EngineMoneyState.Conserved exactMoney initial sampleFills s ∧ s.balance = 1007 := by
  have hnew : EngineMoneyState.new exactMoney ⟨"USD", 1000⟩ =
      .ok ⟨"USD", ⟨"USD", 1000⟩, ⟨"USD", 0⟩, ⟨"USD", 0⟩, ⟨"USD", 0⟩, [], none⟩ := rfl
  have haccepted : (EngineMoneyState.acceptAll exactMoney ⟨"USD", ⟨"USD", 1000⟩, ⟨"USD", 0⟩,
      ⟨"USD", 0⟩, ⟨"USD", 0⟩, [], none⟩ sampleFills).map (·.positions) = some [] := by
    decide +kernel
  obtain ⟨s, hs, hclosed⟩ := Option.map_eq_some_iff.mp haccepted
  obtain ⟨hconserved, -, -, hbalance⟩ :=
    engine_money_conserved exactMoney ⟨"USD", 1000⟩ _ s sampleFills hnew hs
  refine ⟨_, s, hnew, hs, hconserved, ?_⟩
  rw [hbalance hclosed (by decide +kernel)]
  decide +kernel

end Neoethos
