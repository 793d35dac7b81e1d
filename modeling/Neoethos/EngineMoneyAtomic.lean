import Neoethos.EngineMoney
import Neoethos.Machine

namespace Neoethos

variable {F : Type} [FloatOps F] {c : MoneyConstructor F}

theorem accountMoney_ok_iff {currency : String} {amount : F} {money : AccountMoney F} :
    accountMoney c currency amount = .ok money ↔
      c.refusal currency amount = none ∧ money = ⟨currency, amount⟩ := by
  unfold accountMoney MoneyConstructor.new
  rw [Fallible.mapError_ok_iff]
  cases c.refusal currency amount with
  | some text => simp
  | none => simp [eq_comm]

def AccountMoney.TypedFor (money : AccountMoney F) (accountCurrency : String) : Prop :=
  money.currency = accountCurrency ∧ FloatOps.isFinite money.amount = true

theorem AccountMoney.TypedFor.mk_eq_iff {money : AccountMoney F} {currency : String} {amount : F}
    (h : money.TypedFor currency) :
    (⟨currency, amount⟩ : AccountMoney F) = money ↔ amount = money.amount := by
  obtain ⟨rfl, -⟩ := h
  cases money
  simp

theorem typedFor_of_accountMoney {currency : String} {amount : F} {money : AccountMoney F}
    (h : accountMoney c currency amount = .ok money) : money.TypedFor currency := by
  obtain ⟨hr, rfl⟩ := accountMoney_ok_iff.mp h
  exact ⟨rfl, c.finite _ _ hr⟩

theorem validateMoneyCurrency_ok_iff {label accountCurrency : String} {money : AccountMoney F} :
    validateMoneyCurrency label money accountCurrency = .ok () ↔
      money.TypedFor accountCurrency := by
  unfold validateMoneyCurrency AccountMoney.TypedFor
  rw [Fallible.check_ok_iff, Fallible.refuse_ok_iff, Fallible.refuse_ok_iff, not_not]
  simp only [Bool.not_eq_false]

namespace EngineMoneyState

structure Typed (s : EngineMoneyState F) : Prop where
  realized : s.realizedPnlAccountCurrency.TypedFor s.accountCurrency
  entryCommission : s.entryCommissionAccountCurrency.TypedFor s.accountCurrency
  exitCommission : s.exitCommissionAccountCurrency.TypedFor s.accountCurrency

theorem typed_of_new {opening : AccountMoney F} {s : EngineMoneyState F}
    (h : new c opening = .ok s) : s.Typed := by
  unfold new at h
  obtain ⟨-, h⟩ := Fallible.check_ok_iff.mp h
  obtain ⟨realized, hr, h⟩ := Fallible.bind_ok_iff.mp h
  obtain ⟨entry, he, h⟩ := Fallible.bind_ok_iff.mp h
  obtain ⟨exit, hx, h⟩ := Fallible.bind_ok_iff.mp h
  cases h
  exact ⟨typedFor_of_accountMoney hr, typedFor_of_accountMoney he, typedFor_of_accountMoney hx⟩

def realizedAfter (s : EngineMoneyState F) (report : FilledExecutionReport F)
    (ledger : ExecutionEconomicsView F) : F :=
  match report.fillSide with
  | .entry => s.realizedPnlAccountCurrency.amount - ledger.entryCommissionAccountCurrency.amount
  | .exit => s.realizedPnlAccountCurrency.amount + ledger.netPnlAccountCurrency.amount +
      ledger.entryCommissionAccountCurrency.amount

def balanceAfter (s : EngineMoneyState F) (report : FilledExecutionReport F)
    (ledger : ExecutionEconomicsView F) : F :=
  s.openingBalanceAccountCurrency.amount + s.realizedAfter report ledger

def heldFor (s : EngineMoneyState F) (report : FilledExecutionReport F) :
    Option (MoneyPosition F) :=
  s.positions.find? (·.positionId == report.positionId)

def lotsEntered (s : EngineMoneyState F) (report : FilledExecutionReport F) : F :=
  match s.heldFor report with
  | some position => position.remainingLots + report.actualFilledLots
  | none => report.actualFilledLots

/-- A report and its own ledger, in the currency of the account. -/
structure Paired [DecidableEq F] (s : EngineMoneyState F) (report : FilledExecutionReport F)
    (ledger : ExecutionEconomicsView F) : Prop where
  report : report.validateAgainstView ledger = .ok ()
  currency : ledger.accountCurrency = s.accountCurrency
  entryCommission : ledger.entryCommissionAccountCurrency.TypedFor s.accountCurrency
  exitCommission : ledger.exitCommissionAccountCurrency.TypedFor s.accountCurrency
  netPnl : ledger.netPnlAccountCurrency.TypedFor s.accountCurrency

/-- An entry of the symbol of its position, with a sum of lots and two sums of money that exist. -/
structure EntryAdmitted (c : MoneyConstructor F) (s : EngineMoneyState F)
    (report : FilledExecutionReport F) (ledger : ExecutionEconomicsView F) : Prop where
  symbol : ∀ position, s.heldFor report = some position → position.symbol = report.symbol
  lots : FloatOps.isFinite (s.lotsEntered report) = true
  commission : c.refusal s.accountCurrency (s.entryCommissionAccountCurrency.amount +
    ledger.entryCommissionAccountCurrency.amount) = none
  realized : c.refusal s.accountCurrency (s.realizedPnlAccountCurrency.amount -
    ledger.entryCommissionAccountCurrency.amount) = none

/-- An exit of lots that its position has, with two sums of money that exist. -/
structure ExitAdmitted (c : MoneyConstructor F) (s : EngineMoneyState F)
    (report : FilledExecutionReport F) (ledger : ExecutionEconomicsView F) : Prop where
  held : ∃ position, s.heldFor report = some position ∧ position.symbol = report.symbol ∧
    FloatOps.lt position.remainingLots report.actualFilledLots = false
  realized : c.refusal s.accountCurrency (s.realizedPnlAccountCurrency.amount +
    ledger.netPnlAccountCurrency.amount + ledger.entryCommissionAccountCurrency.amount) = none
  commission : c.refusal s.accountCurrency (s.exitCommissionAccountCurrency.amount +
    ledger.exitCommissionAccountCurrency.amount) = none

/-- Nothing that is looked at before the first write speaks against the fill. -/
def Admitted [DecidableEq F] (c : MoneyConstructor F) (s : EngineMoneyState F)
    (report : FilledExecutionReport F) (ledger : ExecutionEconomicsView F) : Prop :=
  s.Paired report ledger ∧
    match report.fillSide with
    | .entry => s.EntryAdmitted c report ledger
    | .exit => s.ExitAdmitted c report ledger

end EngineMoneyState

def MoneyPosition.lotsLeft [DecidableEq F] (position : MoneyPosition F)
    (report : FilledExecutionReport F) : F :=
  if report.actualFilledLots = position.remainingLots then FloatOps.lit 0
  else position.remainingLots - report.actualFilledLots

namespace EngineMoneyState

/-- A fill whose lots and money vanish in the sums, of the ledger that was applied last. -/
structure Vanishes [DecidableEq F] (s : EngineMoneyState F) (report : FilledExecutionReport F)
    (ledger : ExecutionEconomicsView F) : Prop where
  digest : s.latestExecutionEconomicsLedgerSha256 = some ledger.ledgerSha256
  realized : s.realizedAfter report ledger = s.realizedPnlAccountCurrency.amount
  side : match report.fillSide with
    | .entry => s.entryCommissionAccountCurrency.amount +
          ledger.entryCommissionAccountCurrency.amount = s.entryCommissionAccountCurrency.amount ∧
        ∃ position, s.heldFor report = some position ∧
          position.remainingLots + report.actualFilledLots = position.remainingLots
    | .exit => s.exitCommissionAccountCurrency.amount +
          ledger.exitCommissionAccountCurrency.amount = s.exitCommissionAccountCurrency.amount ∧
        ∃ position, s.heldFor report = some position ∧
          FloatOps.eq (position.lotsLeft report) (FloatOps.lit 0) = false ∧
          position.lotsLeft report = position.remainingLots

structure Wrote (s : EngineMoneyState F) (realized : F) (next : EngineMoneyState F) : Prop where
  currency : next.accountCurrency = s.accountCurrency
  opening : next.openingBalanceAccountCurrency = s.openingBalanceAccountCurrency
  typed : next.Typed
  amount : next.realizedPnlAccountCurrency.amount = realized

variable {s next : EngineMoneyState F} {report : FilledExecutionReport F}
  {ledger : ExecutionEconomicsView F}

theorem wrote_of_applyEntry (hs : s.Typed) (h : s.applyEntry c report ledger = .ok next) :
    Wrote s (s.realizedPnlAccountCurrency.amount - ledger.entryCommissionAccountCurrency.amount)
      next := by
  unfold applyEntry at h
  obtain ⟨-, h⟩ := Fallible.check_ok_iff.mp h
  obtain ⟨-, h⟩ := Fallible.check_ok_iff.mp h
  obtain ⟨commission, hc, h⟩ := Fallible.bind_ok_iff.mp h
  obtain ⟨realized, hr, h⟩ := Fallible.bind_ok_iff.mp h
  cases h
  obtain ⟨-, rfl⟩ := accountMoney_ok_iff.mp hr
  exact ⟨rfl, rfl, ⟨typedFor_of_accountMoney hr, typedFor_of_accountMoney hc, hs.exitCommission⟩,
    rfl⟩

variable [DecidableEq F]

theorem wrote_of_applyExit (hs : s.Typed) (h : s.applyExit c report ledger = .ok next) :
    Wrote s (s.realizedPnlAccountCurrency.amount + ledger.netPnlAccountCurrency.amount +
      ledger.entryCommissionAccountCurrency.amount) next := by
  unfold applyExit at h
  obtain ⟨index, -, h⟩ := Fallible.bind_ok_iff.mp h
  obtain ⟨position, -, h⟩ := Fallible.bind_ok_iff.mp h
  obtain ⟨-, h⟩ := Fallible.check_ok_iff.mp h
  obtain ⟨-, h⟩ := Fallible.check_ok_iff.mp h
  obtain ⟨realized, hr, h⟩ := Fallible.bind_ok_iff.mp h
  obtain ⟨commission, hc, h⟩ := Fallible.bind_ok_iff.mp h
  cases h
  obtain ⟨-, rfl⟩ := accountMoney_ok_iff.mp hr
  exact ⟨rfl, rfl, ⟨typedFor_of_accountMoney hr, hs.entryCommission, typedFor_of_accountMoney hc⟩,
    rfl⟩

theorem ledgerSha256_valid (h : s.checkFill report ledger = .ok ()) (label : String) :
    validateSha256 label ledger.ledgerSha256 = .ok () := by
  unfold checkFill at h
  obtain ⟨hv, -⟩ := Fallible.check_ok_iff.mp h
  unfold FilledExecutionReport.validateAgainstView at hv
  simp only [Fallible.check_ok_iff] at hv
  obtain ⟨-, -, hsha, -, -, -, -, -, hmatch, -⟩ := hv
  have hm := Fallible.refuse_ok_iff.mp hmatch
  push Not at hm
  rw [← hm.1]
  unfold validateSha256 at hsha ⊢
  rw [Fallible.refuse_ok_iff] at hsha ⊢
  exact hsha

/-- A committed fill is one of the two arms, with the digest of its ledger. -/
theorem wrote_of_commitFill (hs : s.Typed) (h : s.commitFill c report ledger = .ok next) :
    Wrote s (s.realizedAfter report ledger) next ∧
      next.latestExecutionEconomicsLedgerSha256 = some ledger.ledgerSha256 ∧
      ∀ label, validateSha256 label ledger.ledgerSha256 = .ok () := by
  unfold commitFill at h
  obtain ⟨hcheck, h⟩ := Fallible.check_ok_iff.mp h
  obtain ⟨written, harm, h⟩ := Fallible.bind_ok_iff.mp h
  cases h
  refine ⟨?_, rfl, ledgerSha256_valid hcheck⟩
  unfold realizedAfter
  unfold applySide at harm
  cases hside : report.fillSide with
  | entry =>
    rw [hside] at harm
    have hw := wrote_of_applyEntry hs harm
    exact ⟨hw.currency, hw.opening, ⟨hw.typed.realized, hw.typed.entryCommission,
      hw.typed.exitCommission⟩, hw.amount⟩
  | exit =>
    rw [hside] at harm
    have hw := wrote_of_applyExit hs harm
    exact ⟨hw.currency, hw.opening, ⟨hw.typed.realized, hw.typed.entryCommission,
      hw.typed.exitCommission⟩, hw.amount⟩

omit [DecidableEq F] in
/-- The statistics of a typed state fail only when the balance is refused. -/
theorem statsWithoutMark_ok_iff {sha256 : String} (hs : s.Typed)
    (hl : s.latestExecutionEconomicsLedgerSha256 = some sha256)
    (hv : ∀ label, validateSha256 label sha256 = .ok ()) :
    (∃ stats, s.statsWithoutMark c = .ok stats) ↔
      c.refusal s.accountCurrency (s.openingBalanceAccountCurrency.amount +
        s.realizedPnlAccountCurrency.amount) = none := by
  unfold statsWithoutMark statsWithUnrealized
  constructor
  · intro h
    obtain ⟨stats, h⟩ := h
    obtain ⟨-, h⟩ := Fallible.check_ok_iff.mp h
    obtain ⟨sha, -, h⟩ := Fallible.bind_ok_iff.mp h
    obtain ⟨balance, hb, -⟩ := Fallible.bind_ok_iff.mp h
    exact (accountMoney_ok_iff.mp hb).1
  · intro h
    let balance : AccountMoney F := ⟨s.accountCurrency,
      s.openingBalanceAccountCurrency.amount + s.realizedPnlAccountCurrency.amount⟩
    have hb := accountMoney_ok_iff.mpr ⟨h, (rfl : balance = _)⟩
    refine ⟨⟨engineMoneySchemaVersion, s.accountCurrency, sha256, s.realizedPnlAccountCurrency,
      .unavailable .missingMark, balance, .unavailable .missingMark, s.entryCommissionAccountCurrency,
      s.exitCommissionAccountCurrency, .researchOnly, .notPromotionEligible⟩,
      Fallible.check_ok_iff.mpr ⟨rfl, ?_⟩⟩
    refine Fallible.bind_ok_iff.mpr ⟨sha256, Fallible.require_ok_iff.mpr hl, ?_⟩
    refine Fallible.bind_ok_iff.mpr ⟨_, hb, ?_⟩
    refine Fallible.bind_ok_iff.mpr ⟨_, rfl, ?_⟩
    refine Fallible.check_ok_iff.mpr ⟨?_, rfl⟩
    unfold EngineMoneyStats.validate
    simp only [Fallible.check_ok_iff, Fallible.refuse_ok_iff]
    refine ⟨not_not.mpr rfl, hv _, validateMoneyCurrency_ok_iff.mpr hs.realized,
      validateMoneyCurrency_ok_iff.mpr (typedFor_of_accountMoney hb),
      validateMoneyCurrency_ok_iff.mpr hs.entryCommission,
      validateMoneyCurrency_ok_iff.mpr hs.exitCommission, rfl, rfl, ?_⟩
    simp

theorem checkFill_ok_iff : s.checkFill report ledger = .ok () ↔ s.Paired report ledger := by
  unfold checkFill
  simp only [Fallible.check_ok_iff, Fallible.refuse_ok_iff, validateMoneyCurrency_ok_iff]
  constructor
  · rintro ⟨hreport, -, hcurrency, -, -, hentry, hexit, hnet⟩
    exact ⟨hreport, not_not.mp hcurrency, hentry, hexit, hnet⟩
  · intro h
    have hmatches := h.report
    unfold FilledExecutionReport.validateAgainstView at hmatches
    simp only [Fallible.check_ok_iff, Fallible.refuse_ok_iff] at hmatches
    obtain ⟨-, -, -, -, -, -, -, -, hmatch, -⟩ := hmatches
    push Not at hmatch
    refine ⟨h.report, ?_, not_not.mpr h.currency, not_not.mpr hmatch.2.2, not_not.mpr hmatch.1,
      h.entryCommission, h.exitCommission, h.netPnl⟩
    cases ledger.artifactClass
    cases ledger.promotionEligibility
    simp

omit [FloatOps F] [DecidableEq F] in
theorem heldFor_eq : s.heldFor report =
    (s.positions.findIdx? (·.positionId == report.positionId)).bind fun index =>
      s.positions[index]? :=
  List.find?_eq_bind_findIdx?_getElem?

omit [FloatOps F] [DecidableEq F] in
theorem heldFor_of_index {index : Nat}
    (h : s.positions.findIdx? (·.positionId == report.positionId) = some index) :
    s.heldFor report = s.positions[index]? := by
  rw [heldFor_eq, h]
  rfl

omit [DecidableEq F] in
theorem applyEntry_ok_iff :
    (∃ next, s.applyEntry c report ledger = .ok next) ↔ s.EntryAdmitted c report ledger := by
  unfold applyEntry
  simp only [↓Fallible.check_ok_iff, Fallible.bind_ok_iff, Fallible.refuse_ok_iff,
    accountMoney_ok_iff, ← heldFor_eq]
  constructor
  · rintro ⟨next, hsymbol, hlots, commission, ⟨hcommission, -⟩, realized, ⟨hrealized, -⟩, -⟩
    refine ⟨fun position hheld => ?_, ?_, hcommission, hrealized⟩
    · simpa [hheld] using hsymbol
    · exact eq_true_of_ne_false hlots
  · intro h
    refine ⟨_, ?_, ?_, _, ⟨h.commission, rfl⟩, _, ⟨h.realized, rfl⟩, rfl⟩
    · cases hheld : s.heldFor report with
      | none => simp
      | some position => simp [h.symbol position hheld]
    · exact ne_false_of_eq_true h.lots

theorem applyExit_ok_iff :
    (∃ next, s.applyExit c report ledger = .ok next) ↔ s.ExitAdmitted c report ledger := by
  unfold applyExit
  simp only [↓Fallible.check_ok_iff, Fallible.bind_ok_iff, Fallible.refuse_ok_iff,
    Fallible.require_ok_iff, accountMoney_ok_iff]
  constructor
  · rintro ⟨next, index, hindex, position, hposition, hsymbol, hlots, realized, ⟨hrealized, -⟩,
      commission, ⟨hcommission, -⟩, -⟩
    refine ⟨⟨position, (heldFor_of_index hindex).trans hposition, not_not.mp hsymbol, ?_⟩,
      hrealized, hcommission⟩
    exact Bool.not_eq_true _ ▸ hlots
  · intro h
    obtain ⟨position, hheld, hsymbol, hlots⟩ := h.held
    rw [heldFor_eq] at hheld
    obtain ⟨index, hindex, hposition⟩ := Option.bind_eq_some_iff.mp hheld
    refine ⟨_, index, hindex, position, hposition, not_not.mpr hsymbol, ?_, _,
      ⟨h.realized, rfl⟩, _, ⟨h.commission, rfl⟩, rfl⟩
    rw [hlots]
    exact Bool.false_ne_true

/-- The writes are reached exactly by the fills that are admitted. -/
theorem commitFill_ok_iff :
    (∃ next, s.commitFill c report ledger = .ok next) ↔ s.Admitted c report ledger := by
  have hcommit : (∃ next, s.commitFill c report ledger = .ok next) ↔
      s.checkFill report ledger = .ok () ∧ ∃ next, s.applySide c report ledger = .ok next := by
    unfold commitFill
    simp only [↓Fallible.check_ok_iff, Fallible.bind_ok_iff]
    constructor
    · rintro ⟨next, hcheck, written, harm, -⟩
      exact ⟨hcheck, written, harm⟩
    · rintro ⟨hcheck, written, harm⟩
      exact ⟨_, hcheck, written, harm, rfl⟩
  rw [hcommit, checkFill_ok_iff]
  unfold Admitted applySide
  cases report.fillSide with
  | entry => rw [applyEntry_ok_iff]
  | exit => rw [applyExit_ok_iff]

omit [FloatOps F] [DecidableEq F] in
theorem relot_eq_iff (position : MoneyPosition F) (lots : F) :
    ({ position with remainingLots := lots } : MoneyPosition F) = position ↔
      lots = position.remainingLots := by
  cases position
  simp

theorem modify_eq_self_iff {α : Type*} {xs : List α} {i : Nat} {a : α} (h : xs[i]? = some a)
    (f : α → α) : xs.modify i f = xs ↔ f a = a := by
  obtain ⟨hi, rfl⟩ := List.getElem?_eq_some_iff.mp h
  rw [List.modify_eq_set_getElem?, h]
  constructor
  · intro heq
    have hat := congrArg (·[i]?) heq
    simpa [hi] using hat
  · intro hfix
    simp [hfix]

omit [DecidableEq F] in
theorem entry_eq_self_iff (hs : s.Typed) (h : s.applyEntry c report ledger = .ok next)
    (sha256 : String) :
    { next with latestExecutionEconomicsLedgerSha256 := some sha256 } = s ↔
      s.latestExecutionEconomicsLedgerSha256 = some sha256 ∧
      s.realizedPnlAccountCurrency.amount - ledger.entryCommissionAccountCurrency.amount =
        s.realizedPnlAccountCurrency.amount ∧
      s.entryCommissionAccountCurrency.amount + ledger.entryCommissionAccountCurrency.amount =
        s.entryCommissionAccountCurrency.amount ∧
      ∃ position, s.heldFor report = some position ∧
        position.remainingLots + report.actualFilledLots = position.remainingLots := by
  unfold applyEntry at h
  obtain ⟨-, h⟩ := Fallible.check_ok_iff.mp h
  obtain ⟨-, h⟩ := Fallible.check_ok_iff.mp h
  obtain ⟨commission, hc, h⟩ := Fallible.bind_ok_iff.mp h
  obtain ⟨realized, hr, h⟩ := Fallible.bind_ok_iff.mp h
  obtain ⟨-, rfl⟩ := accountMoney_ok_iff.mp hc
  obtain ⟨-, rfl⟩ := accountMoney_ok_iff.mp hr
  cases h
  rw [EngineMoneyState.ext_iff]
  simp only [true_and, hs.realized.mk_eq_iff, hs.entryCommission.mk_eq_iff]
  cases hindex : s.positions.findIdx? (·.positionId == report.positionId) with
  | none =>
    have hnone : s.heldFor report = none := by rw [heldFor_eq, hindex]; rfl
    simp [hnone]
  | some index =>
    have hlt := (List.findIdx?_eq_some_iff_getElem.mp hindex).1
    have hat : s.positions[index]? = some s.positions[index] := List.getElem?_eq_getElem hlt
    have hheld := (heldFor_of_index hindex).trans hat
    simp only [hheld, hat, Option.bind_some, modify_eq_self_iff hat, relot_eq_iff,
      Option.some.injEq, exists_eq_left']
    constructor
    · rintro ⟨hrealized, hcommission, hlots, hdigest⟩
      exact ⟨hdigest.symm, hrealized, hcommission, hlots⟩
    · rintro ⟨hdigest, hrealized, hcommission, hlots⟩
      exact ⟨hrealized, hcommission, hlots, hdigest.symm⟩

theorem exit_eq_self_iff (hs : s.Typed) (h : s.applyExit c report ledger = .ok next)
    (sha256 : String) :
    { next with latestExecutionEconomicsLedgerSha256 := some sha256 } = s ↔
      s.latestExecutionEconomicsLedgerSha256 = some sha256 ∧
      s.realizedPnlAccountCurrency.amount + ledger.netPnlAccountCurrency.amount +
        ledger.entryCommissionAccountCurrency.amount = s.realizedPnlAccountCurrency.amount ∧
      s.exitCommissionAccountCurrency.amount + ledger.exitCommissionAccountCurrency.amount =
        s.exitCommissionAccountCurrency.amount ∧
      ∃ position, s.heldFor report = some position ∧
        FloatOps.eq (position.lotsLeft report) (FloatOps.lit 0) = false ∧
        position.lotsLeft report = position.remainingLots := by
  unfold applyExit at h
  obtain ⟨index, hindex, h⟩ := Fallible.bind_ok_iff.mp h
  obtain ⟨position, hposition, h⟩ := Fallible.bind_ok_iff.mp h
  obtain ⟨-, h⟩ := Fallible.check_ok_iff.mp h
  obtain ⟨-, h⟩ := Fallible.check_ok_iff.mp h
  obtain ⟨realized, hr, h⟩ := Fallible.bind_ok_iff.mp h
  obtain ⟨commission, hc, h⟩ := Fallible.bind_ok_iff.mp h
  obtain ⟨-, rfl⟩ := accountMoney_ok_iff.mp hr
  obtain ⟨-, rfl⟩ := accountMoney_ok_iff.mp hc
  cases h
  have hat := Fallible.require_ok_iff.mp hposition
  have hheld := (heldFor_of_index (Fallible.require_ok_iff.mp hindex)).trans hat
  obtain ⟨hlt, -⟩ := List.getElem?_eq_some_iff.mp hat
  have hleft : (if report.actualFilledLots = position.remainingLots then FloatOps.lit 0
      else position.remainingLots - report.actualFilledLots) = position.lotsLeft report := rfl
  rw [EngineMoneyState.ext_iff]
  simp only [true_and, hs.realized.mk_eq_iff, hs.exitCommission.mk_eq_iff, hheld,
    Option.some.injEq, exists_eq_left', hleft]
  split
  next hzero =>
    -- an erased position leaves the list shorter
    have hshort : s.positions.eraseIdx index ≠ s.positions := fun heq =>
      absurd (List.eraseIdx_eq_self.mp heq) (Nat.not_le.mpr hlt)
    simp [hshort, hzero]
  next hsome =>
    simp only [modify_eq_self_iff hat, relot_eq_iff, eq_false_of_ne_true hsome, true_and]
    constructor
    · rintro ⟨hrealized, hcommission, hlots, hdigest⟩
      exact ⟨hdigest.symm, hrealized, hcommission, hlots⟩
    · rintro ⟨hdigest, hrealized, hcommission, hlots⟩
      exact ⟨hrealized, hcommission, hlots, hdigest.symm⟩

/-- What is written differs from what was there unless the fill vanishes in the sums. -/
theorem commitFill_eq_self_iff (hs : s.Typed) (h : s.commitFill c report ledger = .ok next) :
    next = s ↔ s.Vanishes report ledger := by
  unfold commitFill at h
  obtain ⟨-, h⟩ := Fallible.check_ok_iff.mp h
  obtain ⟨written, harm, h⟩ := Fallible.bind_ok_iff.mp h
  cases h
  have hvanishes : s.Vanishes report ledger ↔
      s.latestExecutionEconomicsLedgerSha256 = some ledger.ledgerSha256 ∧
        s.realizedAfter report ledger = s.realizedPnlAccountCurrency.amount ∧ _ :=
    ⟨fun h => ⟨h.digest, h.realized, h.side⟩, fun h => ⟨h.1, h.2.1, h.2.2⟩⟩
  rw [hvanishes]
  unfold applySide at harm
  unfold realizedAfter
  cases hside : report.fillSide with
  | entry =>
    rw [hside] at harm
    exact entry_eq_self_iff hs harm ledger.ledgerSha256
  | exit =>
    rw [hside] at harm
    exact exit_eq_self_iff hs harm ledger.ledgerSha256

end EngineMoneyState

def engineMoneyMachine [DecidableEq F] (c : MoneyConstructor F) (initial : EngineMoneyState F) :
    Machine (EngineMoneyState F) (FilledExecutionReport F × ExecutionEconomicsView F)
      (Except EngineMoneyError (EngineMoneyStats F)) where
  start := initial
  next s fill := some (applyFilledExecution c s fill.1 fill.2)

variable [DecidableEq F]

theorem typed_of_run {initial s : EngineMoneyState F} {opening : AccountMoney F}
    {history : List (Except EngineMoneyError (EngineMoneyStats F))}
    (hnew : EngineMoneyState.new c opening = .ok initial)
    (h : (engineMoneyMachine c initial).Run history s) : s.Typed := by
  refine Machine.Run.state_invariant (I := EngineMoneyState.Typed)
    (EngineMoneyState.typed_of_new hnew) ?_ h
  intro s fill e t hs hn
  have ht : (applyFilledExecution c s fill.1 fill.2).2 = t := by
    have heq : applyFilledExecution c s fill.1 fill.2 = (e, t) := Option.some.inj hn
    rw [heq]
  unfold applyFilledExecution at ht
  cases hc : s.commitFill c fill.1 fill.2 with
  | error err =>
    rw [hc] at ht
    rw [← ht]
    exact hs
  | ok next =>
    rw [hc] at ht
    rw [← ht]
    exact (EngineMoneyState.wrote_of_commitFill hs hc).1.typed

/-- A refused fill leaves the state as it was exactly when it is refused before the first write,
or has nothing to write, or the balance after it can be shown. -/
theorem refused_fill_unchanged_iff {initial s : EngineMoneyState F} {opening : AccountMoney F}
    {history : List (Except EngineMoneyError (EngineMoneyStats F))}
    (hnew : EngineMoneyState.new c opening = .ok initial)
    (h : (engineMoneyMachine c initial).Run history s) (report : FilledExecutionReport F)
    (ledger : ExecutionEconomicsView F) :
    (∀ e, (applyFilledExecution c s report ledger).1 = .error e →
        (applyFilledExecution c s report ledger).2 = s) ↔
      ¬s.Admitted c report ledger ∨ s.Vanishes report ledger ∨
        c.refusal s.accountCurrency (s.balanceAfter report ledger) = none := by
  have hs := typed_of_run hnew h
  unfold applyFilledExecution
  rw [← EngineMoneyState.commitFill_ok_iff]
  cases hc : s.commitFill c report ledger with
  | error err => simp
  | ok next =>
    obtain ⟨hw, hl, hv⟩ := EngineMoneyState.wrote_of_commitFill hs hc
    have hstats := EngineMoneyState.statsWithoutMark_ok_iff (c := c) hw.typed hl hv
    rw [hw.currency, hw.opening, hw.amount] at hstats
    rw [← EngineMoneyState.commitFill_eq_self_iff hs hc]
    simp only [Except.ok.injEq, exists_eq', not_true_eq_false, false_or]
    constructor
    · intro hatomic
      cases hr : next.statsWithoutMark c with
      | error err => exact .inl (hatomic err hr)
      | ok stats => exact .inr (hstats.mp ⟨stats, hr⟩)
    · intro hcond e he
      rcases hcond with hsame | haccepted
      · exact hsame
      · obtain ⟨stats, hok⟩ := hstats.mpr haccepted
        rw [hok] at he
        cases he

/-- Exact numbers of which only those up to a thousand are finite. -/
structure NarrowFloat where
  value : ℚ
  deriving DecidableEq

instance : FloatOps NarrowFloat where
  add x y := ⟨x.value + y.value⟩
  sub x y := ⟨x.value - y.value⟩
  mul x y := ⟨x.value * y.value⟩
  div x y := ⟨x.value / y.value⟩
  neg x := ⟨-x.value⟩
  lit x := ⟨x⟩
  ofInt x := ⟨x⟩
  negInfinity := ⟨-1001⟩
  lt x y := decide (x.value < y.value)
  le x y := decide (x.value ≤ y.value)
  eq x y := decide (x.value = y.value)
  isFinite x := decide (-1000 ≤ x.value ∧ x.value ≤ 1000)
  max x y := ⟨max x.value y.value⟩
  min x y := ⟨min x.value y.value⟩
  abs x := ⟨FloatOps.abs x.value⟩
  floor x := ⟨FloatOps.floor x.value⟩
  sqrt x := ⟨FloatOps.sqrt x.value⟩
  toUsize x := FloatOps.toUsize x.value

def finiteMoney : MoneyConstructor NarrowFloat where
  refusal _ amount :=
    if FloatOps.isFinite amount then none else some "account-money amount must be finite"
  finite _ amount h := by
    by_contra hf
    simp [hf] at h

def sampleUsd (amount : ℚ) : AccountMoney NarrowFloat := ⟨"USD", ⟨amount⟩⟩

def sampleLedger (digest : Char) : ExecutionEconomicsView NarrowFloat where
  accountCurrency := "USD"
  symbol := "EURUSD"
  filledLots := ⟨1⟩
  modeledEntryPrice := ⟨1.1⟩
  modeledExitPrice := ⟨1.2⟩
  entryFillTimestampUnixMs := 1700000000100
  exitFillTimestampUnixMs := 1700000000200
  entryFillIdentitySha256 := String.ofList (List.replicate 64 digest)
  exitFillIdentitySha256 := String.ofList (List.replicate 64 digest)
  ledgerSha256 := String.ofList (List.replicate 64 digest)
  entryCommissionAccountCurrency := sampleUsd 7
  exitCommissionAccountCurrency := sampleUsd 7
  netPnlAccountCurrency := sampleUsd 86
  artifactClass := .researchOnly
  promotionEligibility := .notPromotionEligible

def sampleReport (side : FillSide) (digest : Char) : FilledExecutionReport NarrowFloat where
  schemaVersion := 2
  fillIdentitySha256 := String.ofList (List.replicate 64 digest)
  positionId := "position-1"
  symbol := "EURUSD"
  fillSide := side
  actualFilledLots := ⟨1⟩
  fillPrice := match side with
    | .entry => ⟨1.1⟩
    | .exit => ⟨1.2⟩
  filledAtUnixMs := match side with
    | .entry => 1700000000100
    | .exit => 1700000000200
  executionEconomicsLedgerSha256 := String.ofList (List.replicate 64 digest)

def sampleMoneyState : EngineMoneyState NarrowFloat :=
  ⟨"USD", sampleUsd 950, sampleUsd 0, sampleUsd 0, sampleUsd 0, [], none⟩

def sampleEntryApplied : EngineMoneyState NarrowFloat :=
  (applyFilledExecution finiteMoney sampleMoneyState (sampleReport .entry 'a') (sampleLedger 'a')).2

theorem sampleEntryApplied_run : ∃ history,
    (engineMoneyMachine finiteMoney sampleMoneyState).Run history sampleEntryApplied :=
  ⟨_, Machine.Run.next (a := (sampleReport .entry 'a', sampleLedger 'a')) Machine.Run.start rfl⟩

/-- The exit closes the position and then finds that the balance is not finite. -/
theorem refused_exit_closes_position :
    ¬∀ (c : MoneyConstructor NarrowFloat) (opening : AccountMoney NarrowFloat)
      (initial s : EngineMoneyState NarrowFloat)
      (history : List (Except EngineMoneyError (EngineMoneyStats NarrowFloat)))
      (report : FilledExecutionReport NarrowFloat) (ledger : ExecutionEconomicsView NarrowFloat)
      (e : EngineMoneyError),
      EngineMoneyState.new c opening = .ok initial →
      (engineMoneyMachine c initial).Run history s →
      (applyFilledExecution c s report ledger).1 = .error e →
      (applyFilledExecution c s report ledger).2 = s := by
  intro h
  obtain ⟨history, hrun⟩ := sampleEntryApplied_run
  have hsame := h finiteMoney (sampleUsd 950) sampleMoneyState sampleEntryApplied history
    (sampleReport .exit 'b') (sampleLedger 'b')
    ⟨.invalidMoney, "cannot construct typed account money: account-money amount must be finite"⟩
    rfl hrun (by decide +kernel)
  have hpositions := congrArg (fun s : EngineMoneyState NarrowFloat => s.positions.length) hsame
  revert hpositions
  decide +kernel

theorem refused_fill_unchanged_sample :
    EngineMoneyState.new finiteMoney (sampleUsd 950) = .ok sampleMoneyState ∧
      ∀ e, (applyFilledExecution finiteMoney sampleMoneyState (sampleReport .exit 'a')
          (sampleLedger 'a')).1 = .error e →
        (applyFilledExecution finiteMoney sampleMoneyState (sampleReport .exit 'a')
          (sampleLedger 'a')).2 = sampleMoneyState := by
  have hnew : EngineMoneyState.new finiteMoney (sampleUsd 950) = .ok sampleMoneyState := rfl
  refine ⟨hnew, (refused_fill_unchanged_iff hnew Machine.Run.start _ _).mpr (.inl ?_)⟩
  -- there is no position that the exit could take its lots from
  rintro ⟨-, hexit⟩
  obtain ⟨position, hheld, -⟩ := EngineMoneyState.ExitAdmitted.held hexit
  cases hheld

end Neoethos
