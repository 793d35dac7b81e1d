import Neoethos.JournalRecovery
import Neoethos.JournalStore

namespace Neoethos

theorem valid_of_append_left (cs : List Char) {bytes : ByteArray}
    (h : (cs.utf8Encode ++ bytes).IsValidUTF8) : bytes.IsValidUTF8 := by
  induction cs with
  | nil => simpa using h
  | cons c cs ih =>
    rw [List.utf8Encode_cons, ByteArray.append_assoc,
      ByteArray.isValidUTF8_utf8Encode_singleton_append_iff] at h
    exact ih h

theorem fromUtf8_eq_some_iff {bytes : List UInt8} {text : String} :
    fromUtf8 bytes = some text ↔ bytes = utf8 text := by
  constructor
  · intro h
    unfold fromUtf8 String.fromUTF8? at h
    split at h
    next hvalid =>
      obtain rfl := Option.some.inj h
      rfl
    next => cases h
  · rintro rfl
    exact fromUtf8_utf8 text

theorem fromUtf8_append (text : String) (bytes : List UInt8) :
    fromUtf8 (utf8 text ++ bytes) = (fromUtf8 bytes).map (text ++ ·) := by
  cases hbytes : fromUtf8 bytes with
  | some rest =>
    rw [fromUtf8_eq_some_iff.mp hbytes, ← utf8_append]
    exact fromUtf8_utf8 _
  | none =>
    cases hall : fromUtf8 (utf8 text ++ bytes) with
    | none => rfl
    | some whole =>
      have hvalid := (fromUtf8_isSome_iff _).mp (by rw [hall]; rfl :
        (fromUtf8 (utf8 text ++ bytes)).isSome = true)
      have hsplit : (⟨(utf8 text ++ bytes).toArray⟩ : ByteArray) =
          text.toList.utf8Encode ++ ⟨bytes.toArray⟩ := by
        rw [String.utf8Encode_toList]
        apply ByteArray.ext
        apply Array.ext'
        simp [utf8]
      rw [hsplit] at hvalid
      have hrest := (fromUtf8_isSome_iff bytes).mpr (valid_of_append_left _ hvalid)
      rw [hbytes] at hrest
      cases hrest

namespace JournalStore

section Rows

variable {F : Type} [FloatOps F] {codec : RowCodec F} {trade : ClosedTrade F} {text : String}
  {disk : List UInt8} {texts : List String}

/-- A number that is not finite is written as `null`, which is not read as a number. -/
def ClosedTrade.isFinite (trade : ClosedTrade F) : Bool :=
  [trade.lots, trade.grossProfit, trade.commission, trade.swap, trade.netProfit].all
    FloatOps.isFinite

/-- The documented behaviour of `serde_json` on a row: an object on one line, that is read back when
its numbers are finite. -/
structure RowCodec.Lawful (codec : RowCodec F) : Prop where
  noNewline : ∀ {trade text}, codec.toText trade = .ok text → 10 ∉ utf8 text
  first : ∀ {trade text}, codec.toText trade = .ok text → text.toList.head? = some '\x7b'
  last : ∀ {trade text}, codec.toText trade = .ok text → text.toList.getLast? = some '\x7d'
  fromText : ∀ {trade text}, trade.isFinite = true → codec.toText trade = .ok text →
    ∃ row, codec.fromText text = .ok row ∧ row.positionId = trade.positionId

theorem not_newline (hcodec : codec.Lawful) (h : codec.toText trade = .ok text) :
    '\n' ∉ text.toList :=
  mt newline_mem_utf8 (hcodec.noNewline h)

def WritesRow (codec : RowCodec F) (trade : ClosedTrade F) (text : String) : Prop :=
  trade.isFinite = true ∧ codec.toText trade = .ok text

theorem readRow_text (hcodec : codec.Lawful) (h : WritesRow codec trade text) :
    ∃ row, readRow codec text = some row ∧ row.positionId = trade.positionId ∧
      codec.fromText text = .ok row := by
  obtain ⟨hfinite, htext⟩ := h
  obtain ⟨row, hread, hposition⟩ := hcodec.fromText hfinite htext
  refine ⟨row, ?_, hposition, hread⟩
  have hfirst := hcodec.first htext
  have htrim := trim_of_ends hfirst (hcodec.last htext) (by decide) (by decide)
  have hsome : text ≠ "" := by
    rintro rfl
    cases hfirst
  unfold readRow
  rw [htrim, if_neg hsome, hread]
  rfl

omit [FloatOps F] in
theorem readJsonl_append (codec : RowCodec F) (hnewline : ∀ text ∈ texts, '\n' ∉ text.toList)
    {bytes : List UInt8} (hdecodes : (fromUtf8 bytes).isSome = true) :
    readJsonl codec (Delimited.join 10 (texts.map utf8) ++ bytes) =
      readJsonl codec (Delimited.join 10 (texts.map utf8)) ++ readJsonl codec bytes := by
  obtain ⟨rest, hrest⟩ := Option.isSome_iff_exists.mp hdecodes
  have hfile : fromUtf8 (utf8 (fileText texts)) = some (fileText texts) := fromUtf8_utf8 _
  unfold readJsonl
  rw [← utf8_fileText, fromUtf8_append, hfile, hrest]
  show (textLines (fileText texts ++ rest)).filterMap (readRow codec) = _
  rw [textLines_append hnewline, List.filterMap_append]

theorem decodes_append (texts : List String) (bytes : List UInt8) :
    (fromUtf8 (Delimited.join 10 (texts.map utf8) ++ bytes)).isSome =
      (fromUtf8 bytes).isSome := by
  rw [← utf8_fileText, fromUtf8_append, Option.isSome_map]

theorem fromUtf8_join (texts : List String) :
    (fromUtf8 (Delimited.join 10 (texts.map utf8))).isSome = true := by
  have hdecodes := decodes_append texts []
  rw [List.append_nil] at hdecodes
  rw [hdecodes]
  decide

theorem readJsonl_open (hcodec : codec.Lawful) (h : WritesRow codec trade text) :
    ∃ row, readJsonl codec (utf8 text) = [row] ∧ row.positionId = trade.positionId ∧
      codec.fromText text = .ok row := by
  obtain ⟨row, hread, hrow⟩ := readRow_text hcodec h
  refine ⟨row, ?_, hrow⟩
  have hsplit : text.toList.splitOn '\n' = [text.toList] :=
    Delimited.splitOn_of_not_mem (not_newline hcodec h.2)
  have hsome : text.toList ≠ [] := by
    intro hnil
    have hfirst := hcodec.first h.2
    rw [hnil] at hfirst
    cases hfirst
  have hlast : [text.toList].getLast?.filter (fun line => !line.isEmpty) = some text.toList := by
    rw [List.getLast?_singleton, Option.filter_some, if_pos (by simpa using hsome)]
  have hdecodes : fromUtf8 (utf8 text) = some text := fromUtf8_utf8 _
  have hlines : textLines text = [text] := by
    unfold textLines
    dsimp only
    rw [hsplit, hlast]
    simp
  unfold readJsonl
  rw [hdecodes]
  dsimp only
  rw [hlines, List.filterMap_cons_some hread, List.filterMap_nil]

theorem readJsonl_closed (hcodec : codec.Lawful) (h : WritesRow codec trade text) :
    ∃ row, readJsonl codec (utf8 text ++ [10]) = [row] ∧ row.positionId = trade.positionId ∧
      codec.fromText text = .ok row := by
  obtain ⟨row, hread, hrow⟩ := readRow_text hcodec h
  refine ⟨row, ?_, hrow⟩
  have hfile : utf8 text ++ [10] = utf8 (fileText [text]) := by
    rw [utf8_fileText, List.map_singleton, Delimited.join_singleton]
  have hdecodes : fromUtf8 (utf8 (fileText [text])) = some (fileText [text]) := fromUtf8_utf8 _
  have hlines : textLines (fileText [text]) = [text] := by
    apply textLines_fileText
    · intro other hother
      rw [List.mem_singleton.mp hother]
      exact not_newline hcodec h.2
    · intro other hother
      rw [List.mem_singleton.mp hother, hcodec.last h.2]
      decide
  unfold readJsonl
  rw [hfile, hdecodes]
  dsimp only
  rw [hlines, List.filterMap_cons_some hread, List.filterMap_nil]

def positions (codec : RowCodec F) (disk : List UInt8) : List Int :=
  (readJsonl codec disk).map (·.positionId)

omit [FloatOps F] in
theorem positions_append (codec : RowCodec F) {texts : List String}
    (hnewline : ∀ text ∈ texts, '\n' ∉ text.toList) {bytes : List UInt8}
    (hdecodes : (fromUtf8 bytes).isSome = true) :
    positions codec (Delimited.join 10 (texts.map utf8) ++ bytes) =
      positions codec (Delimited.join 10 (texts.map utf8)) ++ positions codec bytes := by
  unfold positions
  rw [readJsonl_append codec hnewline hdecodes, List.map_append]

omit [FloatOps F] in
theorem mem_byPosition (rows : List (ClosedTrade F)) (p : Int) :
    p ∈ byPosition rows ↔ p ∈ rows.map (·.positionId) := by
  induction rows using List.reverseRecOn with
  | nil => simp [byPosition]
  | append_singleton rows row ih =>
    unfold byPosition at ih ⊢
    rw [List.foldl_concat, AList.mem_insert, ih]
    simp [or_comm]

omit [FloatOps F] in
theorem byPosition_keyed (rows : List (ClosedTrade F)) :
    ∀ entry ∈ (byPosition rows).entries, entry.2.positionId = entry.1 := by
  induction rows using List.reverseRecOn with
  | nil =>
    intro entry hentry
    cases hentry
  | append_singleton rows row ih =>
    unfold byPosition at ih ⊢
    rw [List.foldl_concat]
    intro entry hentry
    rw [AList.entries_insert, List.mem_cons] at hentry
    obtain rfl | hentry := hentry
    · rfl
    · exact ih entry ((List.kerase_sublist _ _).subset hentry)

omit [FloatOps F] in
/-- Every position that can be read has exactly one row in a query of the whole journal. -/
theorem countP_query (codec : RowCodec F) (disk : List UInt8) {p : Int}
    (h : p ∈ positions codec disk) :
    (queryClosedTrades codec disk none none).countP (fun row => row.positionId = p) = 1 := by
  have hkeys : ((byPosition (readJsonl codec disk)).entries.map
      fun entry => entry.2.positionId) = (byPosition (readJsonl codec disk)).keys := by
    unfold AList.keys List.keys
    apply List.map_congr_left
    exact byPosition_keyed _
  have hmem : p ∈ (byPosition (readJsonl codec disk)).keys :=
    AList.mem_keys.mp ((mem_byPosition _ p).mpr h)
  have hone := List.count_eq_one_of_mem (byPosition (readJsonl codec disk)).keys_nodup hmem
  unfold queryClosedTrades
  dsimp only
  rw [(List.mergeSort_perm _ _).countP_eq]
  simp only [Option.all_none, Bool.and_self, List.filter_true, List.countP_map]
  rw [← hone, ← hkeys, List.count, List.countP_map]
  apply List.countP_congr
  intro entry _
  simp

end Rows

/-- The store, and the positions whose line this process did not write to the end. -/
structure StoreState where
  journal : TradeJournal
  cut : Finset Int

inductive StoreAction (F : Type)
  | records (trade : ClosedTrade F) (write : LineAppend)
  | restarts

/-- What a call returns: `Ok` of whether the row is new, or an error. -/
inductive StoreEvent
  | recorded (positionId : Int) (newly : Bool)
  | failed (positionId : Int) (error : RecordError)
  | restarted
  deriving DecidableEq

section Machine

variable {F : Type} [FloatOps F] (codec : RowCodec F)

/-- All of the row's text is written, be it without its newline. -/
def rowIsWritten (trade : ClosedTrade F) (write : LineAppend) : Bool :=
  (codec.toText trade).toOption.any fun line =>
    match write with
    | .whole => true
    | .stopped written => (utf8 line).length ≤ written

def storeNext (s : StoreState) : StoreAction F → Option (StoreEvent × StoreState)
  | .records trade write =>
    match recordClosedTrade codec s.journal trade write with
    | (.ok newly, journal) => some (.recorded trade.positionId newly, { s with journal := journal })
    | (.error e, journal) => some (.failed trade.positionId e,
        ⟨journal, if rowIsWritten codec trade write then s.cut
          else insert trade.positionId s.cut⟩)
  | .restarts => some (.restarted, ⟨{ s.journal with seen := none }, ∅⟩)

def storeMachine : Machine StoreState (StoreAction F) StoreEvent where
  start := ⟨⟨[], none⟩, ∅⟩
  next := storeNext codec

/-- A position that is remembered is not one whose line was cut, in a file that is still text; one
that is not remembered has a row with finite numbers, and the last line of the file is closed. -/
def Careful (s : StoreState) : StoreAction F → Prop
  | .records trade _ =>
    if trade.positionId ∈ s.journal.seenPositions codec then
      trade.positionId ∉ s.cut ∧ (fromUtf8 s.journal.disk).isSome = true
    else trade.isFinite = true ∧ AtLineBoundary s.journal.disk
  | .restarts => True

end Machine

section Invariant

variable {F : Type} [FloatOps F] {codec : RowCodec F} {s s' : StoreState}
  {events : List StoreEvent}

/-- The bytes are closed lines of text, and the rest of a cut one. -/
def HoldsLines (disk : List UInt8) : Prop :=
  ∃ (texts : List String) (tail : List UInt8), (∀ text ∈ texts, '\n' ∉ text.toList) ∧
    10 ∉ tail ∧ disk = Delimited.join 10 (texts.map utf8) ++ tail

/-- The file is lines, and as long as it is text every position that was reported, or is remembered
and not cut, can be read. -/
structure StoreHolds (codec : RowCodec F) (events : List StoreEvent) (s : StoreState) : Prop where
  lines : HoldsLines s.journal.disk
  reported : (fromUtf8 s.journal.disk).isSome = true → ∀ p newly, .recorded p newly ∈ events →
    p ∈ positions codec s.journal.disk
  remembered : (fromUtf8 s.journal.disk).isSome = true → ∀ set, s.journal.seen = some set →
    ∀ p ∈ set, p ∉ s.cut → p ∈ positions codec s.journal.disk

theorem positions_whole (hcodec : codec.Lawful) {trade : ClosedTrade F} {line : String}
    (hrow : WritesRow codec trade line) {texts : List String}
    (hnewline : ∀ text ∈ texts, '\n' ∉ text.toList) :
    HoldsLines (Delimited.join 10 (texts.map utf8) ++ (utf8 line ++ [10])) ∧
      positions codec (Delimited.join 10 (texts.map utf8) ++ (utf8 line ++ [10])) =
        positions codec (Delimited.join 10 (texts.map utf8)) ++ [trade.positionId] := by
  obtain ⟨row, hread, hposition, -⟩ := readJsonl_closed hcodec hrow
  have hjoin : utf8 line ++ [10] = Delimited.join 10 ([line].map utf8) := by
    rw [List.map_singleton, Delimited.join_singleton]
  constructor
  · refine ⟨texts ++ [line], [], ?_, by simp, ?_⟩
    · intro text htext
      rcases List.mem_append.mp htext with htext | htext
      · exact hnewline text htext
      · rw [List.mem_singleton.mp htext]
        exact not_newline hcodec hrow.2
    · rw [List.map_append, Delimited.join_append, ← hjoin, List.append_nil]
  · have hdecodes : (fromUtf8 (utf8 line ++ [10])).isSome = true := by
      rw [hjoin]
      exact fromUtf8_join _
    rw [positions_append codec hnewline hdecodes]
    unfold positions
    rw [hread, List.map_singleton, hposition]

/-- What a write leaves of a file that ends in a closed line: lines, with all the rows there were as
long as it is text, and with the row if its text is whole. -/
theorem appendLine_kept (hcodec : codec.Lawful) {trade : ClosedTrade F} {line : String}
    (hrow : WritesRow codec trade line) {texts : List String}
    (hnewline : ∀ text ∈ texts, '\n' ∉ text.toList) (write : LineAppend) {disk : List UInt8}
    (hdisk : (appendLine (Delimited.join 10 (texts.map utf8)) line write).1 = disk) :
    HoldsLines disk ∧
    ((fromUtf8 disk).isSome = true →
      positions codec (Delimited.join 10 (texts.map utf8)) ⊆ positions codec disk) ∧
    (rowIsWritten codec trade write = true → trade.positionId ∈ positions codec disk) := by
  have hclosed : disk = Delimited.join 10 (texts.map utf8) ++ (utf8 line ++ [10]) →
      HoldsLines disk ∧
      ((fromUtf8 disk).isSome = true →
        positions codec (Delimited.join 10 (texts.map utf8)) ⊆ positions codec disk) ∧
      (rowIsWritten codec trade write = true → trade.positionId ∈ positions codec disk) := by
    rintro rfl
    obtain ⟨hlines, hpositions⟩ := positions_whole hcodec hrow hnewline
    rw [hpositions]
    refine ⟨hlines, fun _ => List.subset_append_left _ _, fun _ => ?_⟩
    simp
  cases write with
  | whole =>
    unfold appendLine at hdisk
    rw [utf8_push_newline] at hdisk
    exact hclosed hdisk.symm
  | stopped written =>
    unfold appendLine at hdisk
    rw [utf8_push_newline] at hdisk
    dsimp only at hdisk
    rcases Delimited.take_closed (hcodec.noNewline hrow.2) written with ⟨htake, -⟩ | ⟨htake, hle⟩
    · rw [htake] at hdisk
      exact hclosed hdisk.symm
    · clear hclosed
      subst hdisk
      refine ⟨⟨texts, _, hnewline, htake, rfl⟩, ?_, ?_⟩
      · intro hdecodes
        rw [decodes_append] at hdecodes
        rw [positions_append codec hnewline hdecodes]
        exact List.subset_append_left _ _
      · intro hwritten
        -- the text is whole and its newline is missing
        have hlength : (utf8 line).length ≤ written := by
          unfold rowIsWritten at hwritten
          rw [hrow.2] at hwritten
          exact of_decide_eq_true hwritten
        obtain ⟨row, hread, hposition, -⟩ := readJsonl_open hcodec hrow
        have hall : (utf8 line ++ [10]).take written = utf8 line := by
          rw [List.take_append_of_le_length hle, List.take_of_length_le hlength]
        have hdecodes : (fromUtf8 (utf8 line)).isSome = true := by
          have hsome : fromUtf8 (utf8 line) = some line := fromUtf8_utf8 _
          rw [hsome]
          rfl
        rw [hall, positions_append codec hnewline hdecodes]
        unfold positions
        rw [hread]
        simp [hposition]

/-- A file of lines that ends in a newline is all closed lines. -/
theorem HoldsLines.closed {disk : List UInt8} (h : HoldsLines disk) (hend : AtLineBoundary disk) :
    ∃ texts : List String, (∀ text ∈ texts, '\n' ∉ text.toList) ∧
      disk = Delimited.join 10 (texts.map utf8) := by
  obtain ⟨texts, tail, hnewline, htail, rfl⟩ := h
  refine ⟨texts, hnewline, ?_⟩
  have hnil : tail = [] := by
    rcases List.eq_nil_or_concat tail with hnil | ⟨front, x, rfl⟩
    · exact hnil
    · exfalso
      rcases hend with hend | hend
      · simp at hend
      · rw [List.concat_eq_append, ← List.append_assoc, List.getLast?_concat] at hend
        obtain rfl := Option.some.inj hend
        exact htail (by simp)
  rw [hnil, List.append_nil]

omit [FloatOps F] in
/-- What a call can do: find the position remembered, fail before it writes, or write. -/
theorem storeNext_records {trade : ClosedTrade F} {write : LineAppend} {e : StoreEvent}
    (h : storeNext codec s (.records trade write) = some (e, s')) :
    (trade.positionId ∈ s.journal.seenPositions codec ∧ e = .recorded trade.positionId false ∧
      s' = ⟨⟨s.journal.disk, some (s.journal.seenPositions codec)⟩, s.cut⟩) ∨
    (trade.positionId ∉ s.journal.seenPositions codec ∧
      rowIsWritten codec trade write = false ∧ (∃ error, e = .failed trade.positionId error) ∧
      s' = ⟨⟨s.journal.disk, some (insert trade.positionId (s.journal.seenPositions codec))⟩,
        insert trade.positionId s.cut⟩) ∨
    (trade.positionId ∉ s.journal.seenPositions codec ∧ ∃ line, codec.toText trade = .ok line ∧
      s'.journal = ⟨(appendLine s.journal.disk line write).1,
        some (insert trade.positionId (s.journal.seenPositions codec))⟩ ∧
      (e = .recorded trade.positionId true ∧ rowIsWritten codec trade write = true ∧
        s'.cut = s.cut ∨
      (∃ error, e = .failed trade.positionId error) ∧
        s'.cut = if rowIsWritten codec trade write then s.cut
          else insert trade.positionId s.cut)) := by
  by_cases hseen : trade.positionId ∈ s.journal.seenPositions codec
  · left
    simp only [storeNext, recordClosedTrade, if_pos hseen] at h
    obtain ⟨rfl, rfl⟩ := Prod.mk.inj (Option.some.inj h)
    exact ⟨hseen, rfl, rfl⟩
  · right
    cases htext : codec.toText trade with
    | error detail =>
      left
      have hcut : rowIsWritten codec trade write = false := by
        unfold rowIsWritten
        rw [htext]
        rfl
      simp only [storeNext, recordClosedTrade, if_neg hseen, htext, hcut] at h
      obtain ⟨rfl, rfl⟩ := Prod.mk.inj (Option.some.inj h)
      exact ⟨hseen, hcut, ⟨_, rfl⟩, rfl⟩
    | ok line =>
      right
      simp only [storeNext, recordClosedTrade, if_neg hseen, htext] at h
      refine ⟨hseen, line, rfl, ?_⟩
      cases write with
      | whole =>
        have hwritten : rowIsWritten codec trade .whole = true := by
          unfold rowIsWritten
          rw [htext]
          rfl
        obtain ⟨rfl, rfl⟩ := Prod.mk.inj (Option.some.inj h)
        exact ⟨rfl, .inl ⟨rfl, hwritten, rfl⟩⟩
      | stopped written =>
        obtain ⟨rfl, rfl⟩ := Prod.mk.inj (Option.some.inj h)
        exact ⟨rfl, .inr ⟨⟨_, rfl⟩, rfl⟩⟩

omit [FloatOps F] in
/-- What the process remembers can be read, the cut lines apart. -/
theorem StoreHolds.seenPositions {events : List StoreEvent} (h : StoreHolds codec events s)
    (hdecodes : (fromUtf8 s.journal.disk).isSome = true) {p : Int}
    (hp : p ∈ s.journal.seenPositions codec) (hcut : p ∉ s.cut) :
    p ∈ positions codec s.journal.disk := by
  unfold TradeJournal.seenPositions at hp
  cases hseen : s.journal.seen with
  | some set =>
    rw [hseen] at hp
    exact h.remembered hdecodes set hseen p hp hcut
  | none =>
    rw [hseen] at hp
    exact List.mem_toFinset.mp hp

omit [FloatOps F] in
theorem StoreHolds.restarts {events : List StoreEvent} {e : StoreEvent}
    (h : StoreHolds codec events s) (hnext : storeNext codec s .restarts = some (e, s')) :
    StoreHolds codec (events ++ [e]) s' := by
  obtain ⟨rfl, rfl⟩ := Prod.mk.inj (Option.some.inj hnext)
  refine ⟨h.lines, ?_, ?_⟩
  · intro hdecodes p newly hp
    apply h.reported hdecodes p newly
    simpa using hp
  · intro _ set hset
    cases hset

theorem StoreHolds.records (hcodec : codec.Lawful) {events : List StoreEvent} {e : StoreEvent}
    {trade : ClosedTrade F} {write : LineAppend} (h : StoreHolds codec events s)
    (hcareful : Careful codec s (.records trade write))
    (hnext : storeNext codec s (.records trade write) = some (e, s')) :
    StoreHolds codec (events ++ [e]) s' := by
  unfold Careful at hcareful
  dsimp only at hcareful
  rcases storeNext_records hnext with ⟨hseen, rfl, rfl⟩ | ⟨-, -, ⟨error, rfl⟩, rfl⟩ |
    ⟨hseen, line, htext, hjournal, hend⟩
  · rw [if_pos hseen] at hcareful
    refine ⟨h.lines, ?_, ?_⟩
    · intro hdecodes p newly hp
      rcases List.mem_append.mp hp with hp | hp
      · exact h.reported hdecodes p newly hp
      · obtain ⟨rfl, -⟩ := StoreEvent.recorded.inj (List.mem_singleton.mp hp)
        exact h.seenPositions hdecodes hseen hcareful.1
    · intro hdecodes set hset p hp
      obtain rfl := Option.some.inj hset
      exact h.seenPositions hdecodes hp
  · refine ⟨h.lines, ?_, ?_⟩
    · intro hdecodes p newly hp
      apply h.reported hdecodes p newly
      simpa using hp
    · intro hdecodes set hset p hp hcut
      obtain rfl := Option.some.inj hset
      obtain ⟨hne, hcut⟩ := not_or.mp (mt Finset.mem_insert.mpr hcut)
      exact h.seenPositions hdecodes (Finset.mem_of_mem_insert_of_ne hp hne) hcut
  · rw [if_neg hseen] at hcareful
    obtain ⟨texts, hnewline, hdisk⟩ := h.lines.closed hcareful.2
    have hbefore : (fromUtf8 s.journal.disk).isSome = true := by
      rw [hdisk]
      exact fromUtf8_join texts
    have hwrite : (appendLine (Delimited.join 10 (texts.map utf8)) line write).1 =
        s'.journal.disk := by
      rw [hjournal, hdisk]
    obtain ⟨hlines, hkept, hnew⟩ := appendLine_kept hcodec ⟨hcareful.1, htext⟩ hnewline write hwrite
    rw [← hdisk] at hkept
    refine ⟨hlines, ?_, ?_⟩
    · intro hdecodes p newly hp
      rcases List.mem_append.mp hp with hp | hp
      · exact hkept hdecodes (h.reported hbefore p newly hp)
      · rcases hend with ⟨rfl, hwritten, -⟩ | ⟨⟨error, rfl⟩, -⟩
        · obtain ⟨rfl, -⟩ := StoreEvent.recorded.inj (List.mem_singleton.mp hp)
          exact hnew hwritten
        · simp at hp
    · intro hdecodes set hset p hp hcut
      rw [hjournal] at hset
      obtain rfl := Option.some.inj hset
      by_cases hwritten : rowIsWritten codec trade write = true
      · have hsame : s'.cut = s.cut := by
          rcases hend with ⟨-, -, hsame⟩ | ⟨-, hsame⟩
          · exact hsame
          · rw [hsame, if_pos hwritten]
        rw [hsame] at hcut
        rcases Finset.mem_insert.mp hp with rfl | hp
        · exact hnew hwritten
        · exact hkept hdecodes (h.seenPositions hbefore hp hcut)
      · have hgrown : s'.cut = insert trade.positionId s.cut := by
          rcases hend with ⟨-, hwhole, -⟩ | ⟨-, hgrown⟩
          · exact absurd hwhole hwritten
          · rw [hgrown, if_neg hwritten]
        rw [hgrown] at hcut
        obtain ⟨hne, hcut⟩ := not_or.mp (mt Finset.mem_insert.mpr hcut)
        exact hkept hdecodes
          (h.seenPositions hbefore (Finset.mem_of_mem_insert_of_ne hp hne) hcut)

theorem storeHolds_run (hcodec : codec.Lawful) {events : List StoreEvent}
    (h : (storeMachine codec).RunUnder (Careful codec) events s) :
    StoreHolds codec events s := by
  apply Machine.RunUnder.invariant ?_ ?_ h
  · refine ⟨⟨[], [], by simp, by simp, rfl⟩, ?_, ?_⟩
    · intro _ p newly hp
      cases hp
    · intro _ set hset
      cases hset
  · intro es t action e t' ih hcareful hnext
    cases action with
    | records trade write => exact ih.records hcodec hcareful hnext
    | restarts => exact ih.restarts hnext

omit [FloatOps F] in
theorem decodes_of_mem {disk : List UInt8} {p : Int} (h : p ∈ positions codec disk) :
    (fromUtf8 disk).isSome = true := by
  cases hdisk : fromUtf8 disk with
  | some text => rfl
  | none =>
    unfold positions readJsonl at h
    rw [hdisk] at h
    cases h

/-- After a call that returns `Ok`, the file is text. -/
theorem StoreHolds.recorded_decodes (hcodec : codec.Lawful) {events : List StoreEvent} {p : Int}
    {newly : Bool} {trade : ClosedTrade F} {write : LineAppend} (h : StoreHolds codec events s)
    (hcareful : Careful codec s (.records trade write))
    (hnext : storeNext codec s (.records trade write) = some (.recorded p newly, s')) :
    (fromUtf8 s'.journal.disk).isSome = true := by
  unfold Careful at hcareful
  dsimp only at hcareful
  rcases storeNext_records hnext with ⟨hseen, -, rfl⟩ | ⟨-, -, ⟨error, hfailed⟩, -⟩ |
    ⟨hseen, line, htext, hjournal, ⟨-, hwritten, -⟩ | ⟨⟨error, hfailed⟩, -⟩⟩
  · rw [if_pos hseen] at hcareful
    exact hcareful.2
  · cases hfailed
  · rw [if_neg hseen] at hcareful
    obtain ⟨texts, hnewline, hdisk⟩ := h.lines.closed hcareful.2
    have hwrite : (appendLine (Delimited.join 10 (texts.map utf8)) line write).1 =
        s'.journal.disk := by
      rw [hjournal, hdisk]
    obtain ⟨-, -, hnew⟩ := appendLine_kept hcodec ⟨hcareful.1, htext⟩ hnewline write hwrite
    exact decodes_of_mem (hnew hwritten)
  · cases hfailed

/-- While no call finds a position remembered whose line was cut, and every row is written behind a
closed line, a call that returns `Ok` leaves its position and every earlier one in the journal. -/
theorem recorded_positions_kept (hcodec : codec.Lawful) {events : List StoreEvent} {p : Int}
    {newly : Bool}
    (h : (storeMachine codec).RunUnder (Careful codec) (events ++ [.recorded p newly]) s) :
    p ∈ positions codec s.journal.disk ∧
      (queryClosedTrades codec s.journal.disk none none).countP
        (fun row => row.positionId = p) = 1 ∧
      ∀ q again, .recorded q again ∈ events → q ∈ positions codec s.journal.disk := by
  have hholds := storeHolds_run hcodec h
  have hdecodes : (fromUtf8 s.journal.disk).isSome = true := by
    generalize hevents : events ++ [.recorded p newly] = es at h
    cases h with
    | start =>
      have hlength := congrArg List.length hevents
      simp at hlength
    | @next before t action e _ hrun hcareful hnext =>
      obtain ⟨-, hlast⟩ := List.append_inj' hevents rfl
      obtain rfl := (List.cons.inj hlast).1
      cases action with
      | records trade write =>
        exact (storeHolds_run hcodec hrun).recorded_decodes hcodec hcareful hnext
      | restarts =>
        obtain ⟨hrestarted, -⟩ := Prod.mk.inj (Option.some.inj hnext)
        cases hrestarted
  have hmem : p ∈ positions codec s.journal.disk :=
    hholds.reported hdecodes p newly (by simp)
  refine ⟨hmem, countP_query codec _ hmem, ?_⟩
  intro q again hq
  exact hholds.reported hdecodes q again (List.mem_append_left _ hq)

end Invariant

section Sample

def sampledCodec (rows : List (ClosedTrade ℚ × String)) : RowCodec ℚ where
  toText trade := match rows.find? fun entry => entry.1 = trade with
    | some entry => .ok entry.2
    | none => .error "not in the sample"
  fromText text := match rows.find? fun entry => entry.2 = text with
    | some entry => .ok entry.1
    | none => .error "expected value at line 1 column 1"

variable {rows : List (ClosedTrade ℚ × String)} {trade : ClosedTrade ℚ} {text : String}

theorem sampledCodec_toText (h : (sampledCodec rows).toText trade = .ok text) :
    (trade, text) ∈ rows := by
  unfold sampledCodec at h
  dsimp only at h
  split at h
  next entry hfind =>
    obtain rfl := Except.ok.inj h
    have htrade := List.find?_some hfind
    simp only [decide_eq_true_eq] at htrade
    subst htrade
    exact List.mem_of_find?_eq_some hfind
  next => cases h

theorem sampledCodec_lawful (hnewline : ∀ entry ∈ rows, 10 ∉ utf8 entry.2)
    (hbraces : ∀ entry ∈ rows, ∃ body, entry.2 = "\x7b" ++ body ++ "\x7d")
    (hread : ∀ entry ∈ rows,
      ((sampledCodec rows).fromText entry.2).toOption = some entry.1) :
    (sampledCodec rows).Lawful := by
  constructor
  · intro trade text h
    exact hnewline _ (sampledCodec_toText h)
  · intro trade text h
    obtain ⟨body, rfl⟩ := hbraces _ (sampledCodec_toText h)
    simp
  · intro trade text h
    obtain ⟨body, rfl⟩ := hbraces _ (sampledCodec_toText h)
    rw [String.toList_append, List.getLast?_append]
    rfl
  · intro trade text _ h
    have hback := hread _ (sampledCodec_toText h)
    cases htext : (sampledCodec rows).fromText text with
    | ok row =>
      rw [htext] at hback
      exact ⟨row, rfl, congrArg (·.positionId) (Option.some.inj hback)⟩
    | error e =>
      rw [htext] at hback
      cases hback

def sampleTrade : ClosedTrade ℚ where
  schemaVersion := 2
  recordedAtUnixMs := 1000
  positionId := 1
  symbol := "EURUSD"
  side := "BUY"
  lots := 1 / 10
  accountId := none
  environment := none
  entryTsMs := none
  entryPrice := none
  exitTsMs := some 1000
  exitPrice := none
  grossProfit := 10
  commission := 0
  swap := 0
  netProfit := 10
  balanceAfter := none

def sampleBody : String :=
  "\"schemaVersion\":2,\"recordedAtUnixMs\":1000,\"positionId\":1,\"symbol\":\"EURUSD\"," ++
    "\"side\":\"BUY\",\"lots\":0.1,\"accountId\":null,\"environment\":null," ++
    "\"entryTsMs\":null,\"entryPrice\":null,\"exitTsMs\":1000,\"exitPrice\":null," ++
    "\"grossProfit\":10.0,\"commission\":0.0,\"swap\":0.0,\"netProfit\":10.0," ++
    "\"balanceAfter\":null"

def sampleRows : List (ClosedTrade ℚ × String) :=
  [(sampleTrade, "\x7b" ++ sampleBody ++ "\x7d")]

theorem sampleRows_lawful : (sampledCodec sampleRows).Lawful := by
  apply sampledCodec_lawful
  · decide +kernel
  · intro entry hentry
    rw [List.mem_singleton.mp hentry]
    exact ⟨_, rfl⟩
  · decide +kernel

instance (disk : List UInt8) : Decidable (AtLineBoundary disk) :=
  inferInstanceAs (Decidable (_ ∨ _))

instance {F : Type} [FloatOps F] (codec : RowCodec F) (s : StoreState) (action : StoreAction F) :
    Decidable (Careful codec s action) :=
  match action with
  | .records trade _ => inferInstanceAs (Decidable
      (if trade.positionId ∈ s.journal.seenPositions codec then
        trade.positionId ∉ s.cut ∧ (fromUtf8 s.journal.disk).isSome = true
      else trade.isFinite = true ∧ AtLineBoundary s.journal.disk))
  | .restarts => inferInstanceAs (Decidable True)

/-- A write fails and the process restarts; then the row is written, and the next call for its
position finds it remembered. -/
theorem recorded_once : ∃ s : StoreState,
    1 ∈ positions (sampledCodec sampleRows) s.journal.disk ∧
      (queryClosedTrades (sampledCodec sampleRows) s.journal.disk none none).countP
        (fun row => row.positionId = 1) = 1 ∧
      ∀ q again, .recorded q again ∈
          [StoreEvent.failed 1 .notAppended, .restarted, .recorded 1 true] →
        q ∈ positions (sampledCodec sampleRows) s.journal.disk := by
  let machine := (storeMachine (sampledCodec sampleRows)).restrict
    (Careful (sampledCodec sampleRows))
  let earlier : List StoreEvent := [.failed 1 .notAppended, .restarted, .recorded 1 true]
  let reached (events : List StoreEvent) (_ : StoreState) : Bool :=
    decide (events = earlier ++ [.recorded 1 false])
  have hexec : (machine.exec [] machine.start [.records sampleTrade (.stopped 0), .restarts,
      .records sampleTrade .whole, .records sampleTrade .whole]).any
      (fun r => reached r.1 r.2) = true := by
    decide +kernel
  obtain ⟨events, s, hrun, hevents⟩ := Machine.run_of_exec_start _ reached hexec
  obtain rfl := of_decide_eq_true hevents
  have hunder : (storeMachine (sampledCodec sampleRows)).RunUnder (Careful _)
      (earlier ++ [.recorded 1 false]) s :=
    Machine.runUnder_of_restrict hrun
  exact ⟨s, recorded_positions_kept sampleRows_lawful hunder⟩

/-- The first write fails before its first byte, and the call is repeated. -/
theorem failed_write_answers_recorded : ¬∀ (codec : RowCodec ℚ) (events : List StoreEvent) (p : Int)
    (newly : Bool) (s : StoreState), codec.Lawful →
    (storeMachine codec).Run (events ++ [.recorded p newly]) s →
    p ∈ positions codec s.journal.disk ∧
      (queryClosedTrades codec s.journal.disk none none).countP
        (fun row => row.positionId = p) = 1 ∧
      ∀ q again, .recorded q again ∈ events → q ∈ positions codec s.journal.disk := by
  intro hall
  let machine := storeMachine (sampledCodec sampleRows)
  let reached (events : List StoreEvent) (s : StoreState) : Bool :=
    decide (events = [.failed 1 .notAppended, .recorded 1 false] ∧
      1 ∉ positions (sampledCodec sampleRows) s.journal.disk)
  have hexec : (machine.exec [] machine.start
      [.records sampleTrade (.stopped 0), .records sampleTrade .whole]).any
      (fun r => reached r.1 r.2) = true := by
    decide +kernel
  obtain ⟨events, s, hrun, hreached⟩ := Machine.run_of_exec_start _ reached hexec
  obtain ⟨rfl, hlost⟩ := of_decide_eq_true hreached
  exact hlost (hall _ [.failed 1 .notAppended] 1 false s sampleRows_lawful hrun).1

end Sample

end JournalStore

end Neoethos
