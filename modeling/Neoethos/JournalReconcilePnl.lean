import Neoethos.FirstOfKey
import Neoethos.JournalReconcile
import Neoethos.JournalStoreWrites

namespace Neoethos

namespace JournalStore

section Query

variable {F : Type} {rows : List (ClosedTrade F)}

theorem byPosition_perm (h : (rows.map (·.positionId)).Nodup) :
    ((byPosition rows).entries.map fun entry => entry.2).Perm rows := by
  induction rows using List.reverseRecOn with
  | nil => exact List.Perm.refl _
  | append_singleton rows row ih =>
    rw [List.map_append, List.map_singleton, List.nodup_append] at h
    obtain ⟨hrows, -, hdisjoint⟩ := h
    have hnew : row.positionId ∉ byPosition rows := by
      intro hmem
      have hrow := (mem_byPosition rows row.positionId).mp hmem
      exact hdisjoint _ hrow _ (List.mem_singleton_self _) rfl
    have hconcat : byPosition (rows ++ [row]) = (byPosition rows).insert row.positionId row :=
      List.foldl_concat ..
    rw [hconcat, AList.entries_insert_of_notMem hnew, List.map_cons]
    exact ((ih hrows).cons row).trans (List.perm_append_singleton row rows).symm

theorem queryClosedTrades_perm (codec : RowCodec F) (disk : List UInt8)
    (h : ((readJsonl codec disk).map (·.positionId)).Nodup) :
    (queryClosedTrades codec disk none none).Perm (readJsonl codec disk) := by
  unfold queryClosedTrades
  dsimp only
  simp only [Option.all_none, Bool.and_self, List.filter_true]
  exact (List.mergeSort_perm _ _).trans (byPosition_perm h)

end Query

end JournalStore

namespace JournalReconcile

open JournalStore FirstOfKey

def CTraderDealSnapshot.isComplete {F : Type} (d : CTraderDealSnapshot F) : Bool :=
  d.componentSumAccountCurrency.isSome && d.grossProfit.isSome && d.fee.isSome && d.swap.isSome

def CTraderDealSnapshot.net (d : CTraderDealSnapshot ℚ) : ℚ :=
  d.componentSumAccountCurrency.getD 0

/-- The deals that appeared with all their financial components, with all repetitions. -/
def completeDeals {F : Type} (calls : List (ReconcileCall F)) : List (CTraderDealSnapshot F) :=
  (calls.flatMap (·.runtime.recentDeals)).filter (·.isComplete)

/-- The sum of the net profits that the whole journal is read with. -/
def journalNet (codec : RowCodec ℚ) (disk : List UInt8) : ℚ :=
  ((queryClosedTrades codec disk none none).map (·.netProfit)).sum

def brokerNet (deals : List (CTraderDealSnapshot ℚ)) : ℚ :=
  ((firsts (·.dealId) deals).map (·.net)).sum

def KeepsNet (codec : RowCodec ℚ) : Prop :=
  ∀ trade text row, codec.toText trade = .ok text → codec.fromText text = .ok row →
    row.netProfit = trade.netProfit

/-- A call whose capability is granted, whose symbols and sizes are known, and whose writes
succeed. -/
structure ReconcileCall.Settles {F : Type} [FloatOps F] (codec : RowCodec F)
    (contractSize : String → Option F) (call : ReconcileCall F) : Prop where
  granted : call.granted = true
  configured : call.configured = true
  resolves : ∀ deal ∈ call.runtime.recentDeals, deal.isComplete = true →
    ∃ symbol lots, dealSymbol call.names deal = some symbol ∧
      dealLots contractSize symbol deal.filledVolume = some lots
  serialises : ∀ deal ∈ call.runtime.recentDeals, ∀ index trade,
    call.closedTrade contractSize deal index = some trade → ∃ text, codec.toText trade = .ok text
  writes : ∀ index, (call.answers index).write = .whole

section Pnl

variable {codec : RowCodec ℚ} {contractSize : String → Option ℚ} {call : ReconcileCall ℚ}
  {deal : CTraderDealSnapshot ℚ} {deals : List (CTraderDealSnapshot ℚ)} {journal : TradeJournal}

/-- The row of a complete deal that resolves has its position and its component sum. -/
theorem closedTrade_eq_some {symbol : String} {lots : ℚ} (hcomplete : deal.isComplete = true)
    (hsymbol : dealSymbol call.names deal = some symbol)
    (hlots : dealLots contractSize symbol deal.filledVolume = some lots) (index : Nat) :
    ∃ trade, call.closedTrade contractSize deal index = some trade ∧
      trade.positionId = deal.positionId ∧ trade.netProfit = deal.net := by
  unfold CTraderDealSnapshot.isComplete at hcomplete
  simp only [Bool.and_eq_true] at hcomplete
  obtain ⟨⟨⟨hnet, hgross⟩, hfee⟩, hswap⟩ := hcomplete
  obtain ⟨net, hnet⟩ := Option.isSome_iff_exists.mp hnet
  obtain ⟨gross, hgross⟩ := Option.isSome_iff_exists.mp hgross
  obtain ⟨fee, hfee⟩ := Option.isSome_iff_exists.mp hfee
  obtain ⟨swap, hswap⟩ := Option.isSome_iff_exists.mp hswap
  unfold ReconcileCall.closedTrade closedTradeFromDeal CTraderDealSnapshot.net
  rw [hnet, hgross, hfee, hswap, hsymbol]
  simp only [Option.bind_eq_bind, Option.bind_some, hlots]
  exact ⟨_, rfl, rfl, rfl⟩

/-- The journal after the complete deals: closed lines, every position remembered, and one row for
each position, that has the component sum of its first deal. -/
structure HoldsFirsts (codec : RowCodec ℚ) (deals : List (CTraderDealSnapshot ℚ))
    (journal : TradeJournal) : Prop where
  lines : ∃ texts : List String, (∀ text ∈ texts, '\n' ∉ text.toList) ∧
    journal.disk = Delimited.join 10 (texts.map utf8)
  remembered : ∀ p, p ∈ journal.seenPositions codec ↔ p ∈ deals.map (·.positionId)
  rows : (readJsonl codec journal.disk).map (fun row => (row.positionId, row.netProfit)) =
    (firsts (·.positionId) deals).map fun d => (d.positionId, d.net)

theorem holdsFirsts_empty (codec : RowCodec ℚ) : HoldsFirsts codec [] ⟨[], none⟩ := by
  have hread : readJsonl codec [] = [] := rfl
  refine ⟨⟨[], by simp, rfl⟩, ?_, ?_⟩
  · intro p
    unfold TradeJournal.seenPositions
    rw [hread]
    simp
  · rw [hread]
    rfl

theorem HoldsFirsts.record (hcodec : codec.Lawful) (hnet : KeepsNet codec)
    (h : HoldsFirsts codec deals journal) {trade : JournalStore.ClosedTrade ℚ} {text : String}
    (hposition : trade.positionId = deal.positionId) (hprofit : trade.netProfit = deal.net)
    (htext : codec.toText trade = .ok text) :
    ∃ newly journal', recordClosedTrade codec journal trade .whole = (.ok newly, journal') ∧
      HoldsFirsts codec (deals ++ [deal]) journal' := by
  obtain ⟨texts, hnewline, hdisk⟩ := h.lines
  by_cases hseen : trade.positionId ∈ journal.seenPositions codec
  · refine ⟨false, ⟨journal.disk, some (journal.seenPositions codec)⟩, ?_, h.lines, ?_, ?_⟩
    · unfold recordClosedTrade
      rw [if_pos hseen]
    · intro p
      show p ∈ journal.seenPositions codec ↔ _
      rw [h.remembered, List.map_append, List.mem_append, List.map_singleton, List.mem_singleton]
      constructor
      · exact .inl
      · rintro (hp | rfl)
        · exact hp
        · rw [← hposition]
          exact (h.remembered _).mp hseen
    · rw [firsts_concat_of_mem (by rw [← hposition]; exact (h.remembered _).mp hseen)]
      exact h.rows
  · have hwhole : WritesRow codec trade text := ⟨rfl, htext⟩
    obtain ⟨row, hread, hrowPosition, hrow⟩ := readJsonl_closed hcodec hwhole
    have hrowNet := (hnet trade text row htext hrow).trans hprofit
    refine ⟨true, ⟨journal.disk ++ (utf8 text ++ [10]),
      some (insert trade.positionId (journal.seenPositions codec))⟩, ?_, ?_, ?_, ?_⟩
    · simp only [recordClosedTrade, if_neg hseen, htext, appendLine, utf8_push_newline]
    · refine ⟨texts ++ [text], ?_, ?_⟩
      · intro line hline
        rcases List.mem_append.mp hline with hline | hline
        · exact hnewline line hline
        · rw [List.mem_singleton.mp hline]
          exact not_newline hcodec htext
      · rw [hdisk, List.map_append, Delimited.join_append, List.map_singleton,
          Delimited.join_singleton]
    · intro p
      show p ∈ insert trade.positionId (journal.seenPositions codec) ↔ _
      rw [Finset.mem_insert, h.remembered, List.map_append, List.mem_append, List.map_singleton,
        List.mem_singleton, hposition, or_comm]
    · have hdecodes : (fromUtf8 (utf8 text ++ [10])).isSome = true := by
        rw [← Delimited.join_singleton]
        exact fromUtf8_join [text]
      have hbefore := h.rows
      rw [hdisk] at hbefore ⊢
      rw [readJsonl_append codec hnewline hdecodes, hread, List.map_append, hbefore,
        firsts_concat_of_not_mem (by rw [← hposition]; exact mt (h.remembered _).mpr hseen),
        List.map_append, List.map_singleton, List.map_singleton, hrowPosition, hposition, hrowNet]

theorem HoldsFirsts.reconcileDeal (hcodec : codec.Lawful) (hnet : KeepsNet codec)
    (hcall : call.Settles codec contractSize) {state : ReconcileState}
    (h : HoldsFirsts codec deals state.journal) (hdeal : deal ∈ call.runtime.recentDeals)
    (index : Nat) :
    HoldsFirsts codec (deals ++ [deal].filter (·.isComplete))
      (reconcileDeal codec contractSize call state (deal, index)).journal := by
  by_cases hcomplete : deal.isComplete = true
  · rw [List.filter_cons_of_pos hcomplete, List.filter_nil]
    obtain ⟨symbol, lots, hsymbol, hlots⟩ := hcall.resolves deal hdeal hcomplete
    obtain ⟨trade, htrade, hposition, hprofit⟩ :=
      closedTrade_eq_some hcomplete hsymbol hlots index
    obtain ⟨text, htext⟩ := hcall.serialises deal hdeal index trade htrade
    obtain ⟨newly, journal', hrecord, hholds⟩ := h.record hcodec hnet hposition hprofit htext
    unfold CTraderDealSnapshot.isComplete at hcomplete
    simp only [Bool.and_eq_true, Option.isSome_iff_ne_none] at hcomplete
    obtain ⟨⟨⟨hsum, hgross⟩, hfee⟩, hswap⟩ := hcomplete
    have hstep : (JournalReconcile.reconcileDeal codec contractSize call state
        (deal, index)).journal = journal' := by
      unfold JournalReconcile.reconcileDeal
      dsimp only
      rw [if_neg (by simpa using hsum), if_neg (by simp [hgross, hfee, hswap]), htrade,
        hcall.writes]
      dsimp only
      rw [hrecord]
      cases newly <;> rfl
    rw [hstep]
    exact hholds
  · rw [List.filter_cons_of_neg hcomplete, List.filter_nil, List.append_nil]
    have hstep : (JournalReconcile.reconcileDeal codec contractSize call state
        (deal, index)).journal = state.journal := by
      unfold JournalReconcile.reconcileDeal
      dsimp only
      split
      next => rfl
      next hsum =>
        rw [if_pos ?_]
        by_contra hothers
        apply hcomplete
        unfold CTraderDealSnapshot.isComplete
        simp only [Bool.or_eq_true, Option.isNone_iff_eq_none, not_or] at hsum hothers
        simp [Option.isSome_iff_ne_none, hsum, hothers]
    rw [hstep]
    exact h

theorem HoldsFirsts.reconcileDeals (hcodec : codec.Lawful) (hnet : KeepsNet codec)
    (hcall : call.Settles codec contractSize) {state : ReconcileState}
    (h : HoldsFirsts codec deals state.journal) (taken : List (CTraderDealSnapshot ℚ × Nat))
    (htaken : ∀ indexed ∈ taken, indexed.1 ∈ call.runtime.recentDeals) :
    HoldsFirsts codec (deals ++ (taken.map Prod.fst).filter (·.isComplete))
      (taken.foldl (JournalReconcile.reconcileDeal codec contractSize call) state).journal := by
  induction taken generalizing deals state with
  | nil =>
    rw [List.map_nil, List.filter_nil, List.append_nil]
    exact h
  | cons indexed rest ih =>
    obtain ⟨deal, index⟩ := indexed
    have hdeal := htaken (deal, index) List.mem_cons_self
    have hrest : ∀ indexed ∈ rest, indexed.1 ∈ call.runtime.recentDeals := fun indexed hindexed =>
      htaken indexed (List.mem_cons_of_mem _ hindexed)
    have hafter := ih (h.reconcileDeal hcodec hnet hcall hdeal index) hrest
    rw [List.append_assoc, ← List.filter_append] at hafter
    exact hafter

theorem HoldsFirsts.reconcile (hcodec : codec.Lawful) (hnet : KeepsNet codec)
    (hcall : call.Settles codec contractSize) (h : HoldsFirsts codec deals journal) :
    HoldsFirsts codec (deals ++ call.runtime.recentDeals.filter (·.isComplete))
      (reconcileBestEffort codec contractSize journal call).1.journal := by
  have htaken : ∀ indexed ∈ call.runtime.recentDeals.zipIdx,
      indexed.1 ∈ call.runtime.recentDeals := fun indexed hindexed =>
    List.fst_mem_of_mem_zipIdx hindexed
  let untouched : ReconcileState := ⟨⟨0, 0, 0, 0, 0, 0⟩, journal⟩
  have huntouched : HoldsFirsts codec deals untouched.journal := h
  have hafter := huntouched.reconcileDeals hcodec hnet hcall call.runtime.recentDeals.zipIdx htaken
  rw [List.zipIdx_map_fst] at hafter
  unfold reconcileBestEffort
  rw [hcall.granted, hcall.configured]
  exact hafter

theorem holdsFirsts_reconcileAll (hcodec : codec.Lawful) (hnet : KeepsNet codec)
    {calls : List (ReconcileCall ℚ)} (hcalls : ∀ call ∈ calls, call.Settles codec contractSize)
    (h : HoldsFirsts codec deals journal) :
    HoldsFirsts codec (deals ++ completeDeals calls)
      (reconcileAll codec contractSize journal calls) := by
  induction calls generalizing deals journal with
  | nil =>
    have hnone : completeDeals ([] : List (ReconcileCall ℚ)) = [] := rfl
    rw [hnone, List.append_nil]
    exact h
  | cons call rest ih =>
    have hcons : completeDeals (call :: rest) =
        call.runtime.recentDeals.filter (·.isComplete) ++ completeDeals rest := by
      unfold completeDeals
      rw [List.flatMap_cons, List.filter_append]
    have hfirst := h.reconcile hcodec hnet (hcalls call List.mem_cons_self)
    have hafter := ih (fun call hcall => hcalls call (List.mem_cons_of_mem _ hcall)) hfirst
    rw [List.append_assoc, ← hcons] at hafter
    exact hafter

theorem HoldsFirsts.journalNet_eq (h : HoldsFirsts codec deals journal) :
    journalNet codec journal.disk = ((firsts (·.positionId) deals).map (·.net)).sum := by
  have hpositions : (readJsonl codec journal.disk).map (·.positionId) =
      (firsts (·.positionId) deals).map (·.positionId) := by
    have hfst := congrArg (List.map Prod.fst) h.rows
    rwa [List.map_map, List.map_map] at hfst
  have hnets : (readJsonl codec journal.disk).map (·.netProfit) =
      (firsts (·.positionId) deals).map (·.net) := by
    have hsnd := congrArg (List.map Prod.snd) h.rows
    rwa [List.map_map, List.map_map] at hsnd
  have hnodup : ((readJsonl codec journal.disk).map (·.positionId)).Nodup := by
    rw [hpositions]
    exact nodup_map_key_firsts
  unfold journalNet
  rw [((queryClosedTrades_perm codec journal.disk hnodup).map _).sum_eq, hnets]

/-- Where a deal id has one content, the deal ids have the distinct deals. -/
theorem brokerNet_eq (hsame : ∀ d ∈ deals, ∀ d' ∈ deals, d.dealId = d'.dealId → d = d') :
    brokerNet deals = (deals.dedup.map (·.net)).sum := by
  have hperm : (firsts (·.dealId) deals).Perm deals.dedup := by
    rw [List.perm_ext_iff_of_nodup nodup_map_key_firsts.of_map (List.nodup_dedup _)]
    intro d
    rw [List.mem_dedup]
    exact mem_firsts_iff hsame
  unfold brokerNet
  exact (hperm.map _).sum_eq

/-- The journal has the broker's net profit exactly when the deals that another one of their
position came before add up to nothing. -/
theorem journalNet_eq_brokerNet_iff (hcodec : codec.Lawful) (hnet : KeepsNet codec)
    (calls : List (ReconcileCall ℚ)) (hcalls : ∀ call ∈ calls, call.Settles codec contractSize)
    (hsame : ∀ d ∈ completeDeals calls, ∀ d' ∈ completeDeals calls, d.dealId = d'.dealId → d = d') :
    journalNet codec (reconcileAll codec contractSize ⟨[], none⟩ calls).disk =
        brokerNet (completeDeals calls) ↔
      ((later (·.positionId) (completeDeals calls)).map (·.net)).sum = 0 := by
  have hholds := holdsFirsts_reconcileAll hcodec hnet hcalls (holdsFirsts_empty codec)
  rw [List.nil_append] at hholds
  have hsplit : ((firsts (·.positionId) (completeDeals calls)).map (·.net)).sum +
      ((later (·.positionId) (completeDeals calls)).map (·.net)).sum =
        ((completeDeals calls).dedup.map (·.net)).sum :=
    sum_firsts_add_sum_later CTraderDealSnapshot.net
  rw [hholds.journalNet_eq, brokerNet_eq hsame, ← hsplit]
  exact left_eq_add

end Pnl

section Sample

def sampleDeal (positionId dealId ms : Int) (net : ℚ) : CTraderDealSnapshot ℚ where
  dealId := dealId
  positionId := positionId
  symbolId := 1
  tradeSide := "SELL"
  filledVolume := 50000
  executionTimestampMs := ms
  executionPrice := none
  entryPrice := none
  grossProfit := some net
  fee := some 0
  swap := some 0
  componentSumAccountCurrency := some net
  balanceAfter := none

def sampleCall (deals : List (CTraderDealSnapshot ℚ)) : ReconcileCall ℚ where
  granted := true
  configured := true
  runtime := ⟨1, [], deals, 1000, 0⟩
  names := AList.insert 1 "EURUSD" ∅
  environment := "Demo"
  answers _ := ⟨3000, .whole⟩
  sampledAtUnixMs := 3000

def sampleContractSize (_ : String) : Option ℚ := some 100000

def samplePartialTrade (positionId : Int) (entryMs : Option Int) (ms : Int) (net : ℚ) :
    JournalStore.ClosedTrade ℚ where
  schemaVersion := 2
  recordedAtUnixMs := 3000
  positionId := positionId
  symbol := "EURUSD"
  side := "BUY"
  lots := 1 / 2
  accountId := some "1"
  environment := some "Demo"
  entryTsMs := entryMs
  entryPrice := none
  exitTsMs := some ms
  exitPrice := none
  grossProfit := net
  commission := 0
  swap := 0
  netProfit := net
  balanceAfter := none

def samplePartialBody (positionId entryMs ms net : String) : String :=
  "\"schemaVersion\":2,\"recordedAtUnixMs\":3000,\"positionId\":" ++ positionId ++
    ",\"symbol\":\"EURUSD\",\"side\":\"BUY\",\"lots\":0.5,\"accountId\":\"1\"," ++
    "\"environment\":\"Demo\",\"entryTsMs\":" ++ entryMs ++ ",\"entryPrice\":null," ++
    "\"exitTsMs\":" ++ ms ++ ",\"exitPrice\":null,\"grossProfit\":" ++ net ++
    ",\"commission\":0.0,\"swap\":0.0,\"netProfit\":" ++ net ++ ",\"balanceAfter\":null"

/-- The rows of a gain of ten, of a loss of four behind it, and of a loss of three on another
position. -/
def samplePartialRows : List (JournalStore.ClosedTrade ℚ × String) :=
  [(samplePartialTrade 7 none 1000 10,
      "\x7b" ++ samplePartialBody "7" "null" "1000" "10.0" ++ "\x7d"),
    (samplePartialTrade 7 (some 1000) 2000 (-4),
      "\x7b" ++ samplePartialBody "7" "1000" "2000" "-4.0" ++ "\x7d"),
    (samplePartialTrade 8 none 2000 (-3),
      "\x7b" ++ samplePartialBody "8" "null" "2000" "-3.0" ++ "\x7d")]

theorem samplePartialRows_lawful : (sampledCodec samplePartialRows).Lawful := by
  apply sampledCodec_lawful
  · decide +kernel
  · intro entry hentry
    simp only [samplePartialRows, List.mem_cons, List.not_mem_nil, or_false] at hentry
    obtain rfl | rfl | rfl := hentry
    · exact ⟨_, rfl⟩
    · exact ⟨_, rfl⟩
    · exact ⟨_, rfl⟩
  · decide +kernel

theorem samplePartialRows_keepsNet : KeepsNet (sampledCodec samplePartialRows) := by
  have hread : ∀ entry ∈ samplePartialRows,
      ((sampledCodec samplePartialRows).fromText entry.2).toOption = some entry.1 := by
    decide +kernel
  intro trade text row htext hrow
  have hback := hread _ (sampledCodec_toText htext)
  rw [hrow] at hback
  rw [Option.some.inj hback]

/-- Calls with these deals settle when the codec has the rows of them. -/
theorem sampleCall_settles (deals : List (CTraderDealSnapshot ℚ))
    (hresolves : ∀ deal ∈ deals, dealSymbol (sampleCall deals).names deal = some "EURUSD" ∧
      dealLots sampleContractSize "EURUSD" deal.filledVolume = some (1 / 2))
    (hrows : ∀ deal ∈ deals, ∃ trade ∈ samplePartialRows.map Prod.fst,
      (sampleCall deals).closedTrade sampleContractSize deal 0 = some trade) :
    (sampleCall deals).Settles (sampledCodec samplePartialRows) sampleContractSize := by
  have hwrites : ∀ trade ∈ samplePartialRows.map Prod.fst,
      ((sampledCodec samplePartialRows).toText trade).toOption.isSome = true := by
    decide +kernel
  refine ⟨rfl, rfl, ?_, ?_, fun _ => rfl⟩
  · intro deal hdeal _
    exact ⟨_, _, hresolves deal hdeal⟩
  · intro deal hdeal index trade htrade
    obtain ⟨row, hrow, hsame⟩ := hrows deal hdeal
    obtain rfl := Option.some.inj (hsame.symm.trans htrade)
    cases htext : (sampledCodec samplePartialRows).toText row with
    | ok text => exact ⟨text, rfl⟩
    | error e =>
      have hwritten := hwrites row hrow
      rw [htext] at hwritten
      cases hwritten

/-- The closing deals of two positions, the first of them in both snapshots. -/
def sampleWholeCloses : List (ReconcileCall ℚ) :=
  [sampleCall [sampleDeal 7 1 1000 10], sampleCall [sampleDeal 7 1 1000 10, sampleDeal 8 2 2000 (-3)]]

theorem two_positions_journalled :
    journalNet (sampledCodec samplePartialRows) (reconcileAll (sampledCodec samplePartialRows)
      sampleContractSize ⟨[], none⟩ sampleWholeCloses).disk =
        brokerNet (completeDeals sampleWholeCloses) ∧
      brokerNet (completeDeals sampleWholeCloses) = 7 := by
  refine ⟨?_, by decide +kernel⟩
  refine (journalNet_eq_brokerNet_iff samplePartialRows_lawful samplePartialRows_keepsNet _ ?_
    (by decide +kernel)).mpr (by decide +kernel)
  intro call hcall
  rcases List.mem_pair.mp hcall with rfl | rfl
  · exact sampleCall_settles _ (by decide +kernel) (by decide +kernel)
  · exact sampleCall_settles _ (by decide +kernel) (by decide +kernel)

/-- A position that is closed in two parts, by a gain of ten and a loss of four. -/
theorem partial_close_not_journalled : ¬∀ (codec : RowCodec ℚ) (contractSize : String → Option ℚ)
    (calls : List (ReconcileCall ℚ)), codec.Lawful → KeepsNet codec →
    (∀ call ∈ calls, call.Settles codec contractSize) →
    (∀ d ∈ completeDeals calls, ∀ d' ∈ completeDeals calls, d.dealId = d'.dealId → d = d') →
    journalNet codec (reconcileAll codec contractSize ⟨[], none⟩ calls).disk =
      brokerNet (completeDeals calls) := by
  intro hall
  let calls := [sampleCall [sampleDeal 7 1 1000 10, sampleDeal 7 2 2000 (-4)]]
  have hcalls : ∀ call ∈ calls,
      call.Settles (sampledCodec samplePartialRows) sampleContractSize := by
    intro call hcall
    rw [List.mem_singleton.mp hcall]
    apply sampleCall_settles
    · decide +kernel
    · decide +kernel
  have hnet := hall _ _ calls samplePartialRows_lawful samplePartialRows_keepsNet hcalls
    (by decide +kernel)
  have hholds := holdsFirsts_reconcileAll samplePartialRows_lawful samplePartialRows_keepsNet
    hcalls (holdsFirsts_empty _)
  rw [List.nil_append] at hholds
  rw [hholds.journalNet_eq] at hnet
  revert hnet
  decide +kernel

end Sample

end JournalReconcile

end Neoethos
