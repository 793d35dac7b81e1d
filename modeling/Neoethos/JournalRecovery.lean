import Mathlib.Data.List.ReduceOption
import Neoethos.ClientMessage
import Neoethos.Journal
import Neoethos.TrialRoundTrip

namespace Neoethos

open Fallible

theorem utf8_append (s t : String) : utf8 (s ++ t) = utf8 s ++ utf8 t := by
  simp [utf8]

theorem utf8_newline : utf8 "\n" = [10] := by decide

theorem utf8_push_newline (text : String) : utf8 (text.push '\n') = utf8 text ++ [10] := by
  rw [String.push_eq_append, utf8_append]
  rfl

theorem newline_mem_utf8 {text : String} (h : '\n' ∈ text.toList) : 10 ∈ utf8 text := by
  obtain ⟨front, back, hsplit⟩ := List.append_of_mem h
  have htext : text = String.ofList front ++ ("\n" ++ String.ofList back) := by
    apply String.toList_inj.mp
    simp [hsplit]
  rw [htext, utf8_append, utf8_append, utf8_newline]
  simp

def fileText (texts : List String) : String :=
  String.ofList (Delimited.join '\n' (texts.map String.toList))

theorem utf8_fileText (texts : List String) :
    utf8 (fileText texts) = Delimited.join 10 (texts.map utf8) := by
  induction texts with
  | nil => decide
  | cons text texts ih =>
    have hcons : fileText (text :: texts) = text ++ ("\n" ++ fileText texts) := by
      apply String.toList_inj.mp
      simp [fileText, Delimited.join]
    rw [hcons, utf8_append, utf8_append, utf8_newline, ih]
    simp [Delimited.join]

theorem textLines_fileText {texts : List String}
    (hnewline : ∀ text ∈ texts, '\n' ∉ text.toList)
    (hlast : ∀ text ∈ texts, text.toList.getLast? ≠ some '\r') :
    textLines (fileText texts) = texts := by
  have hsplit : (fileText texts).toList.splitOn '\n' = texts.map String.toList ++ [[]] := by
    rw [fileText, String.toList_ofList]
    apply Delimited.splitOn_join
    intro item hitem
    obtain ⟨text, htext, rfl⟩ := List.mem_map.mp hitem
    exact hnewline text htext
  have hstrip : ∀ text ∈ texts, String.ofList (stripCarriageReturn text.toList) = text := by
    intro text htext
    rw [stripCarriageReturn, if_neg (hlast text htext), String.ofList_toList]
  simp only [textLines, hsplit, List.dropLast_concat, List.getLast?_concat, List.map_map]
  have hmap : texts.map ((fun line => String.ofList (stripCarriageReturn line)) ∘ String.toList) =
      texts := by
    conv => rhs; rw [← List.map_id texts]
    apply List.map_congr_left
    exact hstrip
  rw [hmap]
  simp

/-- The lines of a file of lines, and then those of what follows it. -/
theorem textLines_append {texts : List String} (hnewline : ∀ text ∈ texts, '\n' ∉ text.toList)
    (rest : String) :
    textLines (fileText texts ++ rest) = textLines (fileText texts) ++ textLines rest := by
  have hitems : ∀ item ∈ texts.map String.toList, '\n' ∉ item := by
    intro item hitem
    obtain ⟨text, htext, rfl⟩ := List.mem_map.mp hitem
    exact hnewline text htext
  have hfile : (fileText texts).toList = Delimited.join '\n' (texts.map String.toList) :=
    String.toList_ofList
  have hsome : rest.toList.splitOn '\n' ≠ [] := by
    rw [List.splitOn_eq_splitOnP]
    exact List.splitOnP_ne_nil _ _
  unfold textLines
  rw [String.toList_append, hfile, Delimited.splitOn_join_append hitems,
    Delimited.splitOn_join hitems]
  simp only [List.dropLast_append_of_ne_nil hsome, List.dropLast_concat, List.getLast?_concat,
    List.getLast?_append_of_ne_nil _ hsome, List.map_append, List.append_assoc]
  simp

theorem reduceOption_map_some {α : Type*} (xs : List α) : (xs.map some).reduceOption = xs := by
  induction xs with
  | nil => rfl
  | cons x xs ih => rw [List.map_cons, List.reduceOption_cons_of_some, ih]

section Codec

variable {R : Type} {codec : LineCodec R} {reread : R → Option R}

/-- The documented behaviour of `serde_json` on a line: an object on one line, whose schema is read
back as it is and whose record is read back as `reread` has it. -/
structure LineCodec.Lawful (codec : LineCodec R) (reread : R → Option R) : Prop where
  noNewline : ∀ {line text}, codec.toText line = .ok text → 10 ∉ utf8 text
  first : ∀ {line text}, codec.toText line = .ok text → text.toList.head? = some '\x7b'
  last : ∀ {line text}, codec.toText line = .ok text → text.toList.getLast? = some '\x7d'
  envelope : ∀ {line text}, codec.toText line = .ok text → codec.envelope text = .ok line.schema
  fromText : ∀ {line text}, codec.toText line = .ok text → (codec.fromText text).toOption =
    (reread line.record).map fun record => { line with record := record }

def Encodes (codec : LineCodec R) (record : R) (text : String) : Prop :=
  ∃ seq atMs, codec.toText ⟨JOURNAL_SCHEMA, seq, atMs, record⟩ = .ok text

/-- The bytes are the lines of the records, each closed by a newline. -/
def HoldsRecords (codec : LineCodec R) (records : List R) (complete : List UInt8) : Prop :=
  ∃ lines : List (R × String), (∀ line ∈ lines, Encodes codec line.1 line.2) ∧
    lines.map Prod.fst = records ∧ complete = Delimited.join 10 (lines.map fun line => utf8 line.2)

theorem readLine_ok_iff (hcodec : codec.Lawful reread) {record : R} {text : String}
    (h : Encodes codec record text) {index : Nat} {row : Option R} :
    readLine codec index text = .ok row ↔ ∃ read, reread record = some read ∧ row = some read := by
  obtain ⟨seq, atMs, htext⟩ := h
  have htrim : trim text ≠ "" := by
    rw [trim_of_ends (hcodec.first htext) (hcodec.last htext) (by decide) (by decide)]
    rintro rfl
    have hfirst := hcodec.first htext
    simp at hfirst
  have hread := hcodec.fromText htext
  have hrow : readLine codec index text = .ok row ↔
      ∃ parsed, codec.fromText text = .ok parsed ∧ row = some parsed.record := by
    rw [readLine, if_neg htrim, hcodec.envelope htext, bind_ok_iff]
    constructor
    · intro h
      obtain ⟨schema, -, hrest⟩ := h
      rw [check_ok_iff, bind_ok_iff] at hrest
      obtain ⟨-, parsed, hparsed, hrow⟩ := hrest
      exact ⟨parsed, mapError_ok_iff.mp hparsed, (Except.ok.inj hrow).symm⟩
    · intro h
      obtain ⟨parsed, hparsed, rfl⟩ := h
      refine ⟨JOURNAL_SCHEMA, rfl, ?_⟩
      rw [check_ok_iff, refuse_ok_iff, bind_ok_iff]
      exact ⟨not_not.mpr rfl, parsed, mapError_ok_iff.mpr hparsed, rfl⟩
  rw [hrow]
  constructor
  · intro h
    obtain ⟨parsed, hparsed, rfl⟩ := h
    rw [hparsed] at hread
    obtain ⟨read, hreread, hline⟩ := Option.map_eq_some_iff.mp hread.symm
    exact ⟨read, hreread, by rw [← hline]⟩
  · intro h
    obtain ⟨read, hreread, rfl⟩ := h
    rw [hreread, Option.map_some] at hread
    cases hfrom : codec.fromText text with
    | error e =>
      rw [hfrom] at hread
      cases hread
    | ok parsed =>
      rw [hfrom] at hread
      obtain rfl := Option.some.inj hread
      exact ⟨_, rfl, rfl⟩

theorem mapM_readLine_ok_iff (hcodec : codec.Lawful reread) {lines : List (R × String)}
    (h : ∀ line ∈ lines, Encodes codec line.1 line.2) {n : Nat} {rows : List (Option R)} :
    ((lines.map Prod.snd).zipIdx n).mapM (fun (line, index) => readLine codec index line) = .ok rows ↔
      ∃ read, List.Forall₂ (fun record r => reread record = some r) (lines.map Prod.fst) read ∧
        rows = read.map some := by
  induction lines generalizing n rows with
  | nil => simp [pure, Except.pure, eq_comm]
  | cons line lines ih =>
    rw [List.forall_mem_cons] at h
    rw [List.map_cons, List.zipIdx_cons, List.mapM_cons, bind_ok_iff]
    simp only [readLine_ok_iff hcodec h.1, bind_ok_iff, ih h.2, List.map_cons,
      List.forall₂_cons_left_iff]
    constructor
    · intro h
      obtain ⟨_, ⟨r, hr, rfl⟩, _, ⟨read, hread, rfl⟩, hrows⟩ := h
      refine ⟨r :: read, ⟨r, read, hr, hread, rfl⟩, ?_⟩
      exact (Except.ok.inj hrows).symm
    · intro h
      obtain ⟨_, ⟨r, read, hr, hread, rfl⟩, rfl⟩ := h
      exact ⟨_, ⟨r, hr, rfl⟩, _, ⟨read, hread, rfl⟩, rfl⟩

/-- A file of whole lines is read when every record is, as what each is read as. -/
theorem replayLines_ok_iff (hcodec : codec.Lawful reread) {records read : List R}
    {complete : List UInt8} (h : HoldsRecords codec records complete) :
    replayLines codec complete = .ok read ↔
      List.Forall₂ (fun record r => reread record = some r) records read := by
  obtain ⟨lines, hlines, rfl, rfl⟩ := h
  have hnewline : ∀ text ∈ lines.map Prod.snd, '\n' ∉ text.toList := by
    intro text htext hmem
    obtain ⟨line, hline, rfl⟩ := List.mem_map.mp htext
    obtain ⟨_, _, hencoded⟩ := hlines line hline
    exact hcodec.noNewline hencoded (newline_mem_utf8 hmem)
  have hlast : ∀ text ∈ lines.map Prod.snd, text.toList.getLast? ≠ some '\r' := by
    intro text htext
    obtain ⟨line, hline, rfl⟩ := List.mem_map.mp htext
    obtain ⟨_, _, hencoded⟩ := hlines line hline
    rw [hcodec.last hencoded]
    decide
  have hbytes : fromUtf8 (Delimited.join 10 (lines.map fun line => utf8 line.2)) =
      some (fileText (lines.map Prod.snd)) := by
    have hutf8 := utf8_fileText (lines.map Prod.snd)
    rw [List.map_map] at hutf8
    rw [← fromUtf8_utf8, ← utf8, hutf8]
    rfl
  rw [replayLines, hbytes]
  simp only [ok_bind, textLines_fileText hnewline hlast, bind_ok_iff, mapM_readLine_ok_iff hcodec hlines]
  constructor
  · intro h
    obtain ⟨_, ⟨records, hrecords, rfl⟩, hread⟩ := h
    rw [reduceOption_map_some] at hread
    obtain rfl := Except.ok.inj hread
    exact hrecords
  · intro h
    refine ⟨_, ⟨read, h, rfl⟩, ?_⟩
    rw [reduceOption_map_some]
    rfl

/-- The line that an append writes is the record's, and a cut of it holds no newline until it is
whole. -/
theorem encodeLine_ok (hcodec : codec.Lawful reread) {journal : Journal R} {record : R} {atMs : Int}
    {line : List UInt8} (h : journal.encodeLine codec record atMs = .ok line) :
    ∃ text, Encodes codec record text ∧ line = utf8 text ++ [10] ∧ 10 ∉ utf8 text := by
  rw [Journal.encodeLine, bind_ok_iff] at h
  obtain ⟨text, htext, hline⟩ := h
  rw [mapError_ok_iff] at htext
  rw [check_ok_iff] at hline
  obtain rfl := Except.ok.inj hline.2
  exact ⟨text, ⟨_, _, htext⟩, utf8_push_newline text, hcodec.noNewline htext⟩

theorem HoldsRecords.snoc {records : List R} {complete : List UInt8} {record : R} {text : String}
    (h : HoldsRecords codec records complete) (htext : Encodes codec record text) :
    HoldsRecords codec (records ++ [record]) (complete ++ (utf8 text ++ [10])) := by
  obtain ⟨lines, hlines, rfl, rfl⟩ := h
  refine ⟨lines ++ [(record, text)], ?_, by simp, ?_⟩
  · intro line hline
    rcases List.mem_append.mp hline with hline | hline
    · exact hlines line hline
    · obtain rfl := List.mem_singleton.mp hline
      exact htext
  · rw [List.map_append, Delimited.join_append]
    simp [Delimited.join]

theorem HoldsRecords.atLineBoundary {records : List R} {complete : List UInt8}
    (h : HoldsRecords codec records complete) : AtLineBoundary complete := by
  obtain ⟨lines, -, -, rfl⟩ := h
  induction lines using List.reverseRecOn with
  | nil => exact .inl rfl
  | append_singleton lines line _ =>
    right
    rw [List.map_append, Delimited.join_append]
    simp [Delimited.join]

/-- What is on the disk after a history, and what the open handle has of it. -/
structure JournalHistory (codec : LineCodec R) (events : List (JournalEvent R))
    (world : JournalWorld R) : Prop where
  disk : ∃ complete tail, world.disk.getD [] = complete ++ tail ∧
    HoldsRecords codec (writtenRecords events) complete ∧ 10 ∉ tail ∧
    tail.length = leftoverBytes events
  writer : ∀ journal ∈ world.writer, journal.records = writtenRecords events ∧
    leftoverBytes events = 0

theorem writtenRecords_append (events : List (JournalEvent R)) (e : JournalEvent R) :
    writtenRecords (events ++ [e]) = writtenRecords events ++ e.written.toList := by
  unfold writtenRecords
  rw [List.filterMap_append]
  cases hwritten : e.written with
  | none => simp [hwritten]
  | some record => simp [hwritten]

theorem leftoverBytes_append (events : List (JournalEvent R)) (e : JournalEvent R) :
    leftoverBytes (events ++ [e]) = e.leftover (leftoverBytes events) := by
  simp [leftoverBytes]

/-- An open reads the whole lines of a disk and cuts off the rest. -/
theorem openFile_eq (hcodec : codec.Lawful reread) {disk : Option (List UInt8)}
    {records : List R} {complete tail : List UInt8} (hdisk : disk.getD [] = complete ++ tail)
    (hholds : HoldsRecords codec records complete) (htail : 10 ∉ tail) :
    Journal.openFile codec disk =
      ((replayLines codec complete).map fun read =>
        ⟨read, read.length, ⟨read.length, tail.length⟩⟩, complete) := by
  cases disk with
  | none =>
    obtain ⟨rfl, rfl⟩ := List.append_eq_nil_iff.mp hdisk.symm
    have hnone : HoldsRecords codec [] ([] : List UInt8) := ⟨[], by simp, rfl, rfl⟩
    have hreplay := (replayLines_ok_iff hcodec hnone).mpr List.Forall₂.nil
    rw [hreplay]
    rfl
  | some bytes =>
    obtain rfl : bytes = complete ++ tail := hdisk
    have hlen : Delimited.completeLen 10 (complete ++ tail) = complete.length := by
      obtain ⟨lines, -, -, rfl⟩ := hholds
      exact Delimited.completeLen_join_append htail
    have hrest : (complete ++ tail).length - complete.length = tail.length := by
      rw [List.length_append]
      omega
    simp only [Journal.openFile, hlen, List.take_left, hrest]

theorem openFile_ok (hcodec : codec.Lawful reread) {disk : Option (List UInt8)}
    {records read : List R} {complete tail : List UInt8} (hdisk : disk.getD [] = complete ++ tail)
    (hholds : HoldsRecords codec records complete) (htail : 10 ∉ tail)
    (hread : List.Forall₂ (fun record r => reread record = some r) records read) :
    Journal.openFile codec disk =
      (.ok ⟨read, read.length, ⟨read.length, tail.length⟩⟩, complete) := by
  rw [openFile_eq hcodec hdisk hholds htail, (replayLines_ok_iff hcodec hholds).mpr hread]
  rfl

/-- An open that succeeds has read back every record of the disk. -/
theorem openFile_reads (hcodec : codec.Lawful reread) {disk : Option (List UInt8)}
    {records : List R} {complete tail left : List UInt8} {journal : Journal R}
    (hdisk : disk.getD [] = complete ++ tail) (hholds : HoldsRecords codec records complete)
    (htail : 10 ∉ tail) (h : Journal.openFile codec disk = (.ok journal, left)) :
    List.Forall₂ (fun record r => reread record = some r) records journal.records := by
  rw [openFile_eq hcodec hdisk hholds htail] at h
  obtain ⟨read, hread, rfl⟩ := map_ok_iff.mp (Prod.mk.inj h).1
  exact (replayLines_ok_iff hcodec hholds).mp hread

theorem exists_opens (codec : LineCodec R) {world : JournalWorld R} (h : world.writer = none) :
    ∃ e world', journalNext codec world .opens = some (e, world') := by
  rcases hopen : Journal.openFile codec world.disk with ⟨result, disk⟩
  cases result with
  | ok journal =>
    refine ⟨.opened journal, ⟨some disk, some journal⟩, ?_⟩
    simp only [journalNext, h, hopen]
  | error error =>
    refine ⟨.refused error, ⟨some disk, none⟩, ?_⟩
    simp only [journalNext, h, hopen]

theorem forall₂_reread_some (records : List R) :
    List.Forall₂ (fun record r => some record = some r) records records := by
  rw [List.forall₂_same]
  intro record _
  rfl

end Codec

section Exact

variable {R : Type} {codec : LineCodec R}

/-- A step that leaves the records and the rest as the history has them. -/
theorem JournalHistory.of_disk {events : List (JournalEvent R)} {world : JournalWorld R}
    (complete tail : List UInt8) (hdisk : world.disk.getD [] = complete ++ tail)
    (hholds : HoldsRecords codec (writtenRecords events) complete) (htail : 10 ∉ tail)
    (hlength : tail.length = leftoverBytes events) (hwriter : world.writer = none) :
    JournalHistory codec events world := by
  refine ⟨⟨complete, tail, hdisk, hholds, htail, hlength⟩, ?_⟩
  intro journal hjournal
  rw [hwriter] at hjournal
  cases hjournal

theorem JournalHistory.appends (hcodec : codec.Lawful some) {events : List (JournalEvent R)}
    {world world' : JournalWorld R} {e : JournalEvent R} {record : R} {atMs : Int}
    {write : LineWrite} (h : JournalHistory codec events world)
    (hnext : journalNext codec world (.appends record atMs write) = some (e, world')) :
    JournalHistory codec (events ++ [e]) world' := by
  obtain ⟨complete, tail, hdisk, hholds, htail, hlength⟩ := h.disk
  unfold journalNext at hnext
  cases hwriter : world.writer with
  | none => simp [hwriter] at hnext
  | some journal =>
    obtain ⟨hrecords, hclean⟩ := h.writer journal hwriter
    obtain rfl : tail = [] := List.length_eq_zero_iff.mp (hlength.trans hclean)
    rw [List.append_nil] at hdisk
    simp only [hwriter, hdisk, Journal.append, Journal.cutEvent] at hnext
    cases hline : journal.encodeLine codec record atMs with
    | error error =>
      -- nothing is written
      simp only [hline] at hnext
      obtain ⟨rfl, rfl⟩ := Prod.mk.inj (Option.some.inj hnext)
      apply JournalHistory.of_disk complete []
      · simp
      · rw [writtenRecords_append]
        simpa [JournalEvent.written] using hholds
      · simp
      · rw [leftoverBytes_append, hclean]
        rfl
      · rfl
    | ok line =>
      obtain ⟨text, htext, rfl, hnewline⟩ := encodeLine_ok hcodec hline
      have hsnoc := hholds.snoc htext
      cases write with
      | synced =>
        simp only [hline] at hnext
        obtain ⟨rfl, rfl⟩ := Prod.mk.inj (Option.some.inj hnext)
        constructor
        · refine ⟨complete ++ (utf8 text ++ [10]), [], by simp, ?_, by simp, ?_⟩
          · rw [writtenRecords_append]
            exact hsnoc
          · rw [leftoverBytes_append, JournalEvent.leftover, hclean]
            rfl
        · intro journal' hjournal'
          obtain rfl := Option.some.inj hjournal'
          rw [writtenRecords_append, leftoverBytes_append, JournalEvent.leftover, ← hrecords]
          exact ⟨rfl, hclean⟩
      | stopped written =>
        simp only [hline] at hnext
        obtain ⟨rfl, rfl⟩ := Prod.mk.inj (Option.some.inj hnext)
        have hlen : (utf8 text ++ [10]).length = (utf8 text).length + 1 := by simp
        rcases Delimited.take_closed hnewline written with ⟨htake, hwhole⟩ | ⟨hcut, hpart⟩
        · -- the whole line is on the disk, and the process does not know it
          have hdecide : decide ((utf8 text ++ [10]).length ≤ written) = true := by
            rw [decide_eq_true_iff]
            omega
          apply JournalHistory.of_disk (complete ++ (utf8 text ++ [10])) []
          · simp [htake]
          · rw [writtenRecords_append, hdecide]
            exact hsnoc
          · simp
          · rw [leftoverBytes_append, hdecide, hclean]
            rfl
          · rfl
        · have hdecide : decide ((utf8 text ++ [10]).length ≤ written) = false := by
            rw [decide_eq_false_iff_not]
            omega
          apply JournalHistory.of_disk complete ((utf8 text ++ [10]).take written)
          · simp
          · rw [writtenRecords_append, hdecide]
            simpa [JournalEvent.written] using hholds
          · exact hcut
          · rw [leftoverBytes_append, hdecide, hclean, List.length_take]
            exact (Nat.zero_add _).symm
          · rfl

theorem JournalHistory.opens (hcodec : codec.Lawful some) {events : List (JournalEvent R)}
    {world world' : JournalWorld R} {e : JournalEvent R} (h : JournalHistory codec events world)
    (hnext : journalNext codec world .opens = some (e, world')) :
    ∃ journal complete, e = .opened journal ∧ journal.records = writtenRecords events ∧
      journal.replay.truncatedTailBytes = leftoverBytes events ∧
      world' = ⟨some complete, some journal⟩ ∧ HoldsRecords codec (writtenRecords events) complete ∧
      ∃ tail, world.disk.getD [] = complete ++ tail ∧ tail.length = leftoverBytes events := by
  obtain ⟨complete, tail, hdisk, hholds, htail, hlength⟩ := h.disk
  have hopen := openFile_ok hcodec hdisk hholds htail (forall₂_reread_some _)
  unfold journalNext at hnext
  cases hwriter : world.writer with
  | some journal => simp [hwriter] at hnext
  | none =>
    simp only [hwriter, hopen] at hnext
    obtain ⟨rfl, rfl⟩ := Prod.mk.inj (Option.some.inj hnext)
    exact ⟨_, _, rfl, rfl, hlength, rfl, hholds, tail, hdisk, hlength⟩

theorem JournalHistory.step (hcodec : codec.Lawful some) {events : List (JournalEvent R)}
    {world world' : JournalWorld R} {e : JournalEvent R} {action : JournalAction R}
    (h : JournalHistory codec events world)
    (hnext : journalNext codec world action = some (e, world')) :
    JournalHistory codec (events ++ [e]) world' := by
  cases action with
  | opens =>
    obtain ⟨journal, complete, rfl, hrecords, -, rfl, hholds, -⟩ := h.opens hcodec hnext
    constructor
    · refine ⟨complete, [], by simp, ?_, by simp, ?_⟩
      · rw [writtenRecords_append]
        simpa [JournalEvent.written] using hholds
      · rw [leftoverBytes_append]
        rfl
    · intro journal' hjournal'
      obtain rfl := Option.some.inj hjournal'
      rw [writtenRecords_append, leftoverBytes_append]
      exact ⟨by simpa [JournalEvent.written] using hrecords, rfl⟩
  | appends record atMs write => exact h.appends hcodec hnext
  | closes =>
    unfold journalNext at hnext
    obtain ⟨journal, hwriter, hevent⟩ := Option.map_eq_some_iff.mp hnext
    obtain ⟨rfl, rfl⟩ := Prod.mk.inj hevent
    obtain ⟨complete, tail, hdisk, hholds, htail, hlength⟩ := h.disk
    apply JournalHistory.of_disk complete tail
    · exact hdisk
    · rw [writtenRecords_append]
      simpa [JournalEvent.written] using hholds
    · exact htail
    · rw [leftoverBytes_append]
      exact hlength
    · rfl

theorem journalHistory_run (hcodec : codec.Lawful some) {events : List (JournalEvent R)}
    {world : JournalWorld R} (h : (journalMachine codec).Run events world) :
    JournalHistory codec events world := by
  apply Machine.Run.invariant ?_ ?_ h
  · apply JournalHistory.of_disk [] []
    · rfl
    · exact ⟨[], by simp, rfl, rfl⟩
    · simp
    · rfl
    · rfl
  · intro events world action e world' _ hhistory hnext
    exact hhistory.step hcodec hnext

/-- Over every history of processes, an open succeeds and returns exactly the records whose complete
lines were written, in their order; it reports the bytes of the line that was cut, and these alone
go from the file, which then ends at the end of a line. -/
theorem open_returns_written (hcodec : codec.Lawful some) {events : List (JournalEvent R)}
    {world world' : JournalWorld R} {e : JournalEvent R}
    (h : (journalMachine codec).Run events world)
    (hnext : journalNext codec world .opens = some (e, world')) :
    ∃ journal complete, e = .opened journal ∧ journal.records = writtenRecords events ∧
      journal.replay.truncatedTailBytes = leftoverBytes events ∧
      world' = ⟨some complete, some journal⟩ ∧ AtLineBoundary complete ∧
      ∃ tail, world.disk.getD [] = complete ++ tail ∧ tail.length = leftoverBytes events := by
  obtain ⟨journal, complete, he, hrecords, hbytes, hworld, hholds, htail⟩ :=
    (journalHistory_run hcodec h).opens hcodec hnext
  exact ⟨journal, complete, he, hrecords, hbytes, hworld, hholds.atLineBoundary, htail⟩

end Exact

section Sample

/-- Two lines as `serde_json` writes them, of records that carry a number of bytes. -/
def sampleJournalLines : List (JournalLine Nat × String) :=
  [(⟨JOURNAL_SCHEMA, 0, 1700000000000, 12⟩,
      "\x7b\"schema\":\"neoethos.autoresearch.journal.v2\",\"seq\":0,\"at_ms\":1700000000000," ++
      "\"record\":\x7b\"type\":\"TruncatedTail\",\"bytes\":12\x7d\x7d"),
    (⟨JOURNAL_SCHEMA, 1, 1700000000500, 7⟩,
      "\x7b\"schema\":\"neoethos.autoresearch.journal.v2\",\"seq\":1,\"at_ms\":1700000000500," ++
      "\"record\":\x7b\"type\":\"TruncatedTail\",\"bytes\":7\x7d\x7d")]

instance : DecidableEq (JournalLine Nat) := fun a b =>
  decidable_of_iff (a.schema = b.schema ∧ a.seq = b.seq ∧ a.atMs = b.atMs ∧ a.record = b.record) (by
    cases a
    cases b
    simp)

def sampleLineCodec : LineCodec Nat where
  toText line := match sampleJournalLines.find? fun entry => entry.1 = line with
    | some entry => .ok entry.2
    | none => .error "not in the sample"
  envelope text := match sampleJournalLines.find? fun entry => entry.2 = text with
    | some entry => .ok entry.1.schema
    | none => .error "expected value at line 1 column 1"
  fromText text := match sampleJournalLines.find? fun entry => entry.2 = text with
    | some entry => .ok entry.1
    | none => .error "expected value at line 1 column 1"

theorem sampleLineCodec_toText {line : JournalLine Nat} {text : String}
    (h : sampleLineCodec.toText line = .ok text) : (line, text) ∈ sampleJournalLines := by
  unfold sampleLineCodec at h
  simp only at h
  split at h
  next entry hfind =>
    obtain rfl := Except.ok.inj h
    have hline := List.find?_some hfind
    simp only [decide_eq_true_eq] at hline
    subst hline
    exact List.mem_of_find?_eq_some hfind
  next => cases h

theorem sampleLineCodec_lawful : sampleLineCodec.Lawful some := by
  have hall : ∀ entry ∈ sampleJournalLines, 10 ∉ utf8 entry.2 ∧
      entry.2.toList.head? = some '\x7b' ∧ entry.2.toList.getLast? = some '\x7d' ∧
      (sampleLineCodec.envelope entry.2).toOption = some entry.1.schema ∧
      (sampleLineCodec.fromText entry.2).toOption = some entry.1 := by
    decide +kernel
  constructor
  · intro line text h
    exact (hall _ (sampleLineCodec_toText h)).1
  · intro line text h
    exact (hall _ (sampleLineCodec_toText h)).2.1
  · intro line text h
    exact (hall _ (sampleLineCodec_toText h)).2.2.1
  · intro line text h
    have henvelope := (hall _ (sampleLineCodec_toText h)).2.2.2.1
    cases hread : sampleLineCodec.envelope text with
    | ok schema =>
      rw [hread] at henvelope
      rw [Option.some.inj henvelope]
    | error e =>
      rw [hread] at henvelope
      cases henvelope
  · intro line text h
    exact (hall _ (sampleLineCodec_toText h)).2.2.2.2

/-- A process appends a record and dies twenty bytes into the next: the next open has the one record
and reports the twenty bytes. -/
theorem sampleJournal_reopened : ∃ events world journal complete,
    (journalMachine sampleLineCodec).Run events world ∧
      journalNext sampleLineCodec world .opens =
        some (.opened journal, ⟨some complete, some journal⟩) ∧
      journal.records = [12] ∧ journal.replay.truncatedTailBytes = 20 ∧ AtLineBoundary complete := by
  let actions : List (JournalAction Nat) :=
    [.opens, .appends 12 1700000000000 .synced, .appends 7 1700000000500 (.stopped 20)]
  let reached (events : List (JournalEvent Nat)) (world : JournalWorld Nat) : Bool :=
    decide (writtenRecords events = [12] ∧ leftoverBytes events = 20 ∧ world.writer.isNone = true)
  have hexec : ((journalMachine sampleLineCodec).exec [] (journalMachine sampleLineCodec).start
      actions).any (fun r => reached r.1 r.2) = true := by
    decide +kernel
  obtain ⟨events, world, hrun, hdecided⟩ := Machine.run_of_exec_start actions reached hexec
  obtain ⟨hwritten, hleftover, hwriter⟩ := of_decide_eq_true hdecided
  obtain ⟨e, world', hnext⟩ :=
    exists_opens sampleLineCodec (Option.isNone_iff_eq_none.mp hwriter)
  obtain ⟨journal, complete, rfl, hrecords, hbytes, rfl, hboundary, -⟩ :=
    open_returns_written sampleLineCodec_lawful hrun hnext
  exact ⟨events, world, journal, complete, hrun, hnext, hrecords.trans hwritten,
    hbytes.trans hleftover, hboundary⟩

end Sample

end Neoethos
