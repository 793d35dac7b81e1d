import Neoethos.JournalRecovery
import Neoethos.SessionReread

namespace Neoethos

open Fallible

structure SessionWriter (F : Type) where
  journal : Journal (Record F)
  session : Session F

inductive SessionWriterError
  | journal (error : JournalError)
  | session (error : SessionError)

structure SessionWorld (F : Type) where
  disk : Option (List UInt8)
  writer : Option (SessionWriter F)

inductive SessionAction (F : Type)
  | opens (atMs : Int) (write : LineWrite)
  | appends (record : Record F) (atMs : Int) (write : LineWrite)
  | closes

inductive SessionEvent (F : Type)
  | opened
  | refused (error : SessionWriterError)
  | accepted (record : Record F)
  | cut (record : Record F)
  | closed

section Writer

variable {F : Type} [FloatOps F] (codec : LineCodec (Record F)) (hash : CompactHash)

def SessionWriter.append (writer : SessionWriter F) (disk : List UInt8) (record : Record F)
    (atMs : Int) (write : LineWrite) :
    Except SessionWriterError (SessionWriter F) × List UInt8 :=
  match writer.journal.append codec disk record atMs write with
  | (.error e, disk) => (.error (.journal e), disk)
  | (.ok journal, disk) =>
    match writer.session.apply hash record with
    | .error e => (.error (.session e), disk)
    | .ok session => (.ok ⟨journal, session⟩, disk)

/-- `SessionWriter::open`. A tail that was cut off goes into the journal as a record. -/
def SessionWriter.openFile (disk : Option (List UInt8)) (atMs : Int) (write : LineWrite) :
    Except SessionWriterError (SessionWriter F) × List UInt8 :=
  match Journal.openFile codec disk with
  | (.error e, disk) => (.error (.journal e), disk)
  | (.ok journal, disk) =>
    match Session.fold hash journal.records with
    | .error e => (.error (.session e), disk)
    | .ok session =>
      let truncated := journal.replay.truncatedTailBytes
      if 0 < truncated then
        SessionWriter.append codec hash ⟨journal, session⟩ disk (.truncatedTail truncated) atMs
          write
      else (.ok ⟨journal, session⟩, disk)

/-- Processes open the journal and append records that the session takes. The writing of a line may
be cut, which ends the process. -/
def sessionNext (world : SessionWorld F) :
    SessionAction F → Option (SessionEvent F × SessionWorld F)
  | .opens atMs write =>
    match world.writer with
    | some _ => none
    | none =>
      match SessionWriter.openFile codec hash world.disk atMs write with
      | (.ok writer, disk) => some (.opened, ⟨some disk, some writer⟩)
      | (.error e, disk) => some (.refused e, ⟨some disk, none⟩)
  | .appends record atMs write =>
    match world.writer with
    | none => none
    | some writer =>
      match writer.session.apply hash record with
      | .error _ => none
      | .ok _ =>
        match writer.append codec hash (world.disk.getD []) record atMs write with
        | (.ok writer, disk) => some (.accepted record, ⟨some disk, some writer⟩)
        | (.error _, disk) => some (.cut record, ⟨some disk, none⟩)
  | .closes => world.writer.map fun _ => (.closed, ⟨world.disk, none⟩)

def sessionMachine : Machine (SessionWorld F) (SessionAction F) (SessionEvent F) where
  start := ⟨none, none⟩
  next := sessionNext codec hash

/-- A resume opens the journal and folds it, into the session that is in memory if there is one. -/
def SessionWorld.Reopens (world : SessionWorld F) : Prop :=
  ∃ journal disk session, Journal.openFile codec world.disk = (.ok journal, disk) ∧
    Session.fold hash journal.records = .ok session ∧
    ∀ writer ∈ world.writer, session = writer.session

/-- Every record that a step appends has finite floats where the fold needs them. -/
def DurableStep (world : SessionWorld F) : SessionAction F → Prop
  | .appends record _ _ => ∀ writer ∈ world.writer, record.Durable writer.session
  | _ => True

end Writer

section Lines

variable {R : Type} {codec : LineCodec R} {reread : R → Option R}

/-- What an append leaves on the disk: a part of a line that no newline is in, or the whole line. -/
theorem append_cases (hcodec : codec.Lawful reread) (journal : Journal R) (disk : List UInt8)
    (record : R) (atMs : Int) (write : LineWrite) :
    (∃ error tail, 10 ∉ tail ∧
      journal.append codec disk record atMs write = (.error error, disk ++ tail)) ∨
    ∃ text, Encodes codec record text ∧
      ((∃ error, journal.append codec disk record atMs write =
        (.error error, disk ++ (utf8 text ++ [10]))) ∨
      (write = .synced ∧ ∃ journal', journal.append codec disk record atMs write =
        (.ok journal', disk ++ (utf8 text ++ [10])))) := by
  unfold Journal.append
  cases hline : journal.encodeLine codec record atMs with
  | error error => exact .inl ⟨error, [], List.not_mem_nil, by simp⟩
  | ok line =>
    obtain ⟨text, htext, rfl, hnewline⟩ := encodeLine_ok hcodec hline
    cases write with
    | synced => exact .inr ⟨text, htext, .inr ⟨rfl, _, rfl⟩⟩
    | stopped written =>
      rcases Delimited.take_closed hnewline written with ⟨htake, -⟩ | ⟨hcut, -⟩
      · exact .inr ⟨text, htext, .inl ⟨.notWritten, by simp only [htake]⟩⟩
      · exact .inl ⟨_, _, hcut, rfl⟩

/-- An append that is synced, of a record that has a text. -/
theorem append_synced (hcodec : codec.Lawful reread) {journal : Journal R} (disk : List UInt8)
    {record : R} {atMs : Int} {text : String}
    (htext : codec.toText ⟨JOURNAL_SCHEMA, journal.nextSeq, atMs, record⟩ = .ok text) :
    journal.append codec disk record atMs .synced =
      (.ok { journal with
          nextSeq := journal.nextSeq + 1
          records := journal.records ++ [record] },
        disk ++ (utf8 text ++ [10])) := by
  have hnewline : '\n' ∉ text.toList := fun hmem => hcodec.noNewline htext (newline_mem_utf8 hmem)
  have hline : journal.encodeLine codec record atMs = .ok (utf8 text ++ [10]) := by
    rw [Journal.encodeLine, htext, ← utf8_push_newline, bind_ok_iff]
    refine ⟨text, rfl, ?_⟩
    rw [check_ok_iff, refuse_ok_iff]
    exact ⟨hnewline, rfl⟩
  simp only [Journal.append, hline]

theorem forall₂_snoc_left {α β : Type} {r : α → β → Prop} {xs : List α} {x : α} {ys : List β}
    (h : List.Forall₂ r (xs ++ [x]) ys) :
    ∃ front last, List.Forall₂ r xs front ∧ r x last ∧ ys = front ++ [last] := by
  induction xs generalizing ys with
  | nil =>
    obtain ⟨last, rest, hlast, hrest, rfl⟩ := List.forall₂_cons_left_iff.mp h
    obtain rfl := List.forall₂_nil_left_iff.mp hrest
    exact ⟨[], last, .nil, hlast, rfl⟩
  | cons y xs ih =>
    obtain ⟨first, rest, hfirst, hrest, rfl⟩ := List.forall₂_cons_left_iff.mp h
    obtain ⟨front, last, hfront, hlast, rfl⟩ := ih hrest
    exact ⟨first :: front, last, .cons hfirst hfront, hlast, rfl⟩

theorem forall₂_reread_unique {records read other : List R}
    (hread : List.Forall₂ (fun record r => reread record = some r) records read)
    (hother : List.Forall₂ (fun record r => reread record = some r) records other) :
    read = other := by
  induction hread generalizing other with
  | nil => exact (List.forall₂_nil_left_iff.mp hother).symm
  | cons hfirst _ ih =>
    obtain ⟨first, rest, hsame, hrest, rfl⟩ := List.forall₂_cons_left_iff.mp hother
    rw [Option.some.inj (hfirst.symm.trans hsame), ih hrest]

end Lines

section Runs

variable {F : Type} [FloatOps F] {codec : LineCodec (Record F)} {hash : CompactHash}
  {world world' : SessionWorld F} {events : List (SessionEvent F)}

/-- The disk holds whole lines, which fold as they are read back, and the session in memory is that
fold. -/
structure SessionKept (codec : LineCodec (Record F)) (hash : CompactHash) (disk : List UInt8)
    (records read : List (Record F)) (complete tail : List UInt8) (session : Session F)
    (writer : Option (SessionWriter F)) : Prop where
  split : disk = complete ++ tail
  holds : HoldsRecords codec records complete
  cut : 10 ∉ tail
  rereads : List.Forall₂ (fun record r => record.reread = some r) records read
  folds : Session.fold hash read = .ok session
  live : ∀ w ∈ writer, tail = [] ∧ w.session = session

def SessionWorld.Kept (codec : LineCodec (Record F)) (hash : CompactHash)
    (world : SessionWorld F) : Prop :=
  ∃ records read complete tail session,
    SessionKept codec hash (world.disk.getD []) records read complete tail session world.writer

theorem SessionWorld.Kept.reopens (hcodec : codec.Lawful Record.reread)
    (h : world.Kept codec hash) : world.Reopens codec hash := by
  obtain ⟨records, read, complete, tail, session, hkept⟩ := h
  have hopen := openFile_ok hcodec hkept.split hkept.holds hkept.cut hkept.rereads
  refine ⟨_, _, session, hopen, hkept.folds, ?_⟩
  intro writer hwriter
  exact (hkept.live writer hwriter).2.symm

theorem Record.Durable.reread_eq {session : Session F} {record : Record F}
    (h : record.Durable session) : record.reread = some (JsonFloats.reread record) :=
  if_pos h.plain

theorem SessionKept.snoc {records read : List (Record F)} {complete disk : List UInt8}
    {session session' : Session F} {writer : Option (SessionWriter F)}
    {record : Record F} {text : String}
    (h : SessionKept codec hash disk records read complete [] session writer)
    (hdurable : record.Durable session) (happly : session.apply hash record = .ok session')
    (htext : Encodes codec record text) (writer' : Option (SessionWriter F))
    (hwriter : ∀ w ∈ writer', w.session = session') :
    SessionKept codec hash (disk ++ (utf8 text ++ [10])) (records ++ [record])
      (read ++ [JsonFloats.reread record]) (complete ++ (utf8 text ++ [10])) [] session' writer' where
  split := by rw [h.split, List.append_nil, List.append_nil]
  holds := h.holds.snoc htext
  cut := List.not_mem_nil
  rereads := List.rel_append h.rereads (.cons hdurable.reread_eq .nil)
  folds := foldlM_snoc_ok_iff.mpr ⟨session, h.folds, (apply_reread_iff happly).mpr hdurable.kept⟩
  live := fun w hw => ⟨rfl, hwriter w hw⟩

/-- An append of a record that lasts keeps the disk in step, however the writing ends. -/
theorem append_kept (hcodec : codec.Lawful Record.reread) {writer : SessionWriter F}
    {records read : List (Record F)} {complete disk : List UInt8} {session' : Session F}
    {record : Record F} (atMs : Int) (write : LineWrite)
    (h : SessionKept codec hash disk records read complete [] writer.session (some writer))
    (hdurable : record.Durable writer.session)
    (happly : writer.session.apply hash record = .ok session') :
    SessionWorld.Kept codec hash
      ⟨some (writer.append codec hash disk record atMs write).2,
        (writer.append codec hash disk record atMs write).1.toOption⟩ := by
  unfold SessionWriter.append
  rcases append_cases hcodec writer.journal disk record atMs write with
    ⟨error, tail, htail, hcut⟩ | ⟨text, htext, hwhole⟩
  · rw [hcut]
    refine ⟨records, read, complete, tail, writer.session, ?_, h.holds, htail, h.rereads, h.folds, ?_⟩
    · have hdisk := h.split
      rw [List.append_nil] at hdisk
      rw [hdisk]
      rfl
    · intro w hw
      cases hw
  · rcases hwhole with ⟨error, hcut⟩ | ⟨-, journal, hsynced⟩
    · rw [hcut]
      exact ⟨_, _, _, _, session', h.snoc hdurable happly htext none (by simp)⟩
    · rw [hsynced]
      simp only [happly]
      refine ⟨_, _, _, _, session', h.snoc hdurable happly htext _ ?_⟩
      intro w hw
      obtain rfl := Option.some.inj hw
      rfl

theorem truncatedTail_durable (session : Session F) (bytes : Nat) :
    (Record.truncatedTail bytes).Durable session :=
  ⟨by simp [JsonFloats.plain], by simp [Record.kept]⟩

theorem openFile_kept (hcodec : codec.Lawful Record.reread) (h : world.Kept codec hash)
    (atMs : Int) (write : LineWrite) :
    SessionWorld.Kept codec hash
      ⟨some (SessionWriter.openFile codec hash world.disk atMs write).2,
        (SessionWriter.openFile codec hash world.disk atMs write).1.toOption⟩ := by
  obtain ⟨records, read, complete, tail, session, hkept⟩ := h
  have hopen := openFile_ok hcodec hkept.split hkept.holds hkept.cut hkept.rereads
  unfold SessionWriter.openFile
  simp only [hopen, hkept.folds]
  have hopened : SessionKept codec hash complete records read complete [] session
      (some ⟨⟨read, read.length, ⟨read.length, tail.length⟩⟩, session⟩) := by
    refine ⟨(List.append_nil _).symm, hkept.holds, List.not_mem_nil, hkept.rereads, hkept.folds, ?_⟩
    intro w hw
    obtain rfl := Option.some.inj hw
    exact ⟨rfl, rfl⟩
  split
  next => exact append_kept hcodec atMs write hopened (truncatedTail_durable session _) rfl
  next => exact ⟨_, _, _, _, _, hopened⟩

theorem sessionStep_kept (hcodec : codec.Lawful Record.reread) {action : SessionAction F}
    {event : SessionEvent F} (h : world.Kept codec hash) (hdurable : DurableStep world action)
    (hnext : sessionNext codec hash world action = some (event, world')) :
    world'.Kept codec hash := by
  cases action with
  | opens atMs write =>
    have hkept := openFile_kept hcodec h atMs write
    simp only [sessionNext] at hnext
    split at hnext
    next => cases hnext
    next =>
      rcases hopen : SessionWriter.openFile codec hash world.disk atMs write with ⟨result, disk⟩
      rw [hopen] at hnext hkept
      cases result with
      | ok writer =>
        obtain ⟨-, rfl⟩ := Prod.mk.inj (Option.some.inj hnext)
        exact hkept
      | error e =>
        obtain ⟨-, rfl⟩ := Prod.mk.inj (Option.some.inj hnext)
        exact hkept
  | appends record atMs write =>
    simp only [sessionNext] at hnext
    split at hnext
    next => cases hnext
    next writer hwriter =>
      split at hnext
      next => cases hnext
      next session' happly =>
        obtain ⟨records, read, complete, tail, session, hkept⟩ := h
        obtain ⟨rfl, rfl⟩ := hkept.live writer hwriter
        rw [hwriter] at hkept
        have happended := append_kept hcodec atMs write hkept (hdurable writer hwriter)
          happly
        rcases happend : writer.append codec hash (world.disk.getD []) record atMs write with
          ⟨result, disk⟩
        rw [happend] at hnext happended
        cases result with
        | ok writer' =>
          obtain ⟨-, rfl⟩ := Prod.mk.inj (Option.some.inj hnext)
          exact happended
        | error e =>
          obtain ⟨-, rfl⟩ := Prod.mk.inj (Option.some.inj hnext)
          exact happended
  | closes =>
    simp only [sessionNext] at hnext
    obtain ⟨writer, hwriter, hevent⟩ := Option.map_eq_some_iff.mp hnext
    obtain ⟨-, rfl⟩ := Prod.mk.inj hevent
    obtain ⟨records, read, complete, tail, session, hkept⟩ := h
    exact ⟨records, read, complete, tail, session, hkept.split, hkept.holds, hkept.cut, hkept.rereads,
      hkept.folds, by simp⟩

theorem sessionRun_kept (hcodec : codec.Lawful Record.reread)
    (h : (sessionMachine codec hash).RunUnder DurableStep events world) :
    world.Kept codec hash := by
  refine Machine.RunUnder.state_invariant ?_ ?_ h
  · exact ⟨[], [], [], [], Session.empty, rfl, ⟨[], by simp, rfl, rfl⟩, by simp, .nil, rfl,
      fun w hw => by cases hw⟩
  · intro world action event world' hkept hdurable hnext
    exact sessionStep_kept hcodec hkept hdurable hnext

/-- A record that was accepted and does not last shows when the journal is opened again. -/
theorem durable_of_reopens (hcodec : codec.Lawful Record.reread) (h : world.Kept codec hash)
    {record : Record F} {atMs : Int}
    (hnext : sessionNext codec hash world (.appends record atMs .synced) =
      some (.accepted record, world')) (hreopens : world'.Reopens codec hash) :
    DurableStep world (.appends record atMs .synced) := by
  intro writer hwriter
  obtain ⟨records, read, complete, tail, session, hkept⟩ := h
  obtain ⟨rfl, rfl⟩ := hkept.live writer hwriter
  have hdisk := hkept.split
  rw [List.append_nil] at hdisk
  simp only [sessionNext, Option.mem_def.mp hwriter, hdisk] at hnext
  split at hnext
  next => cases hnext
  next session' happly =>
    unfold SessionWriter.append at hnext
    rcases append_cases hcodec writer.journal complete record atMs .synced with
      ⟨error, tail, -, hcut⟩ | ⟨text, htext, ⟨error, hcut⟩ | ⟨-, journal, hsynced⟩⟩
    · rw [hcut] at hnext
      cases hnext
    · rw [hcut] at hnext
      cases hnext
    · rw [hsynced] at hnext
      simp only [happly] at hnext
      obtain ⟨-, rfl⟩ := Prod.mk.inj (Option.some.inj hnext)
      obtain ⟨reopened, left, session, hopen, hfold, hsame⟩ := hreopens
      obtain rfl := hsame _ rfl
      have hlines : (some (complete ++ (utf8 text ++ [10]))).getD [] =
          complete ++ (utf8 text ++ [10]) ++ [] := (List.append_nil _).symm
      have hreads := openFile_reads hcodec hlines (hkept.holds.snoc htext) List.not_mem_nil hopen
      obtain ⟨front, last, hfront, hlast, hrecords⟩ := forall₂_snoc_left hreads
      obtain rfl := forall₂_reread_unique hkept.rereads hfront
      rw [hrecords] at hfold
      obtain ⟨before, hbefore, hafter⟩ := foldlM_snoc_ok_iff.mp hfold
      obtain rfl := Except.ok.inj (hkept.folds.symm.trans hbefore)
      unfold Record.reread at hlast
      split at hlast
      next hplain =>
        obtain rfl := Option.some.inj hlast
        exact ⟨hplain, (apply_reread_iff happly).mp hafter⟩
      next => cases hlast

/-- In every run that appends lasting records only, a resume rebuilds the session that is in memory;
and after any further record that is accepted it does so exactly if that record lasts too. -/
theorem reopens_iff_durable (hcodec : codec.Lawful Record.reread)
    (h : (sessionMachine codec hash).RunUnder DurableStep events world) :
    world.Reopens codec hash ∧ ∀ record atMs world',
      sessionNext codec hash world (.appends record atMs .synced) =
          some (.accepted record, world') →
        (world'.Reopens codec hash ↔ DurableStep world (.appends record atMs .synced)) := by
  have hkept := sessionRun_kept hcodec h
  refine ⟨hkept.reopens hcodec, ?_⟩
  intro record atMs world' hnext
  constructor
  · exact durable_of_reopens hcodec hkept hnext
  · intro hdurable
    exact (sessionStep_kept hcodec hkept hdurable hnext).reopens hcodec

end Runs

section Sample

/-- Exact numbers, and one beyond them all that is not finite. -/
inductive CappedFloat
  | number (x : ℚ)
  | infinity
  deriving DecidableEq

namespace CappedFloat

def lift (f : ℚ → ℚ) : CappedFloat → CappedFloat
  | number x => number (f x)
  | infinity => infinity

def lift₂ (f : ℚ → ℚ → ℚ) : CappedFloat → CappedFloat → CappedFloat
  | number x, number y => number (f x y)
  | _, _ => infinity

def less : CappedFloat → CappedFloat → Bool
  | number x, number y => decide (x < y)
  | number _, infinity => true
  | infinity, _ => false

end CappedFloat

open CappedFloat in
instance : FloatOps CappedFloat where
  add := lift₂ (· + ·)
  sub := lift₂ (· - ·)
  mul := lift₂ (· * ·)
  div := lift₂ (· / ·)
  neg := lift (- ·)
  lit := number
  ofInt x := number x
  negInfinity := number FloatOps.negInfinity
  lt := less
  le x y := !less y x
  eq x y := decide (x = y)
  isFinite x := decide (x ≠ infinity)
  max x y := if less x y then y else x
  min x y := if less y x then y else x
  abs := lift FloatOps.abs
  floor := lift FloatOps.floor
  sqrt := lift FloatOps.sqrt
  toUsize
    | number x => FloatOps.toUsize x
    | infinity => 2 ^ 64 - 1

def sampleBest (eScreenPess : CappedFloat) : Record CappedFloat :=
  .bestEverAdvanced ⟨1, 0, "c", eScreenPess, 10, none, none⟩

def braced (fields : String) : String :=
  "\x7b" ++ fields ++ "\x7d"

theorem braced_ends (fields : String) : (braced fields).toList.head? = some '\x7b' ∧
    (braced fields).toList.getLast? = some '\x7d' := by
  have hopen : "\x7b".toList = ['\x7b'] := by decide
  have hclose : "\x7d".toList = ['\x7d'] := by decide
  rw [braced, String.toList_append, String.toList_append, hopen, hclose]
  exact ⟨rfl, List.getLast?_concat⟩

/-- A line as `serde_json` writes it. -/
def sampleBestText (seq atMs eScreenPess : String) : String :=
  braced ("\"schema\":\"neoethos.autoresearch.journal.v2\",\"seq\":" ++ seq ++ ",\"at_ms\":" ++
    atMs ++ ",\"record\":\x7b\"type\":\"BestEverAdvanced\",\"best\":\x7b\"sweep\":1,\"slot\":0," ++
    "\"config_hash\":\"c\",\"e_screen_pess\":" ++ eScreenPess ++
    ",\"n_trades\":10,\"dsr\":null,\"pbo\":null\x7d\x7d")

def sampleBestFirst : JournalLine (Record CappedFloat) × String :=
  (⟨JOURNAL_SCHEMA, 0, 1700000000000, sampleBest (.number 1)⟩,
    sampleBestText "0" "1700000000000" "1.0")

def sampleBestSecond : JournalLine (Record CappedFloat) × String :=
  (⟨JOURNAL_SCHEMA, 1, 1700000000500, sampleBest .infinity⟩,
    sampleBestText "1" "1700000000500" "null")

def sampleBestNext : JournalLine (Record CappedFloat) × String :=
  (⟨JOURNAL_SCHEMA, 1, 1700000000500, sampleBest (.number 2)⟩,
    sampleBestText "1" "1700000000500" "2.0")

def sampleBestLines : List (JournalLine (Record CappedFloat) × String) :=
  [sampleBestFirst, sampleBestSecond, sampleBestNext]

deriving instance DecidableEq for JournalLine

def sampleBestCodec : LineCodec (Record CappedFloat) where
  toText line := match sampleBestLines.find? fun entry => entry.1 = line with
    | some entry => .ok entry.2
    | none => .error "not in the sample"
  envelope text := match sampleBestLines.find? fun entry => entry.2 = text with
    | some entry => .ok entry.1.schema
    | none => .error "expected value at line 1 column 1"
  fromText text := match sampleBestLines.find? fun entry => entry.2 = text with
    | some entry => match entry.1.record.reread with
      | some record => .ok { entry.1 with record := record }
      | none => .error "invalid type: null, expected f64"
    | none => .error "expected value at line 1 column 1"

theorem sampleBestCodec_toText {line : JournalLine (Record CappedFloat)} {text : String}
    (h : sampleBestCodec.toText line = .ok text) : (line, text) ∈ sampleBestLines := by
  unfold sampleBestCodec at h
  simp only at h
  split at h
  next entry hfind =>
    obtain rfl := Except.ok.inj h
    have hline := List.find?_some hfind
    simp only [decide_eq_true_eq] at hline
    subst hline
    exact List.mem_of_find?_eq_some hfind
  next => cases h

theorem sampleBestCodec_lawful : sampleBestCodec.Lawful Record.reread := by
  have hends : ∀ entry ∈ sampleBestLines, entry.2.toList.head? = some '\x7b' ∧
      entry.2.toList.getLast? = some '\x7d' := by
    intro entry hentry
    simp only [sampleBestLines, List.mem_cons, List.not_mem_nil, or_false] at hentry
    obtain rfl | rfl | rfl := hentry
    · exact braced_ends _
    · exact braced_ends _
    · exact braced_ends _
  have hall : ∀ entry ∈ sampleBestLines, 10 ∉ utf8 entry.2 ∧
      (sampleBestCodec.envelope entry.2).toOption = some entry.1.schema ∧
      (sampleBestCodec.fromText entry.2).toOption =
        entry.1.record.reread.map fun record => { entry.1 with record := record } := by
    decide +kernel
  constructor
  · intro line text h
    exact (hall _ (sampleBestCodec_toText h)).1
  · intro line text h
    exact (hends _ (sampleBestCodec_toText h)).1
  · intro line text h
    exact (hends _ (sampleBestCodec_toText h)).2
  · intro line text h
    have henvelope := (hall _ (sampleBestCodec_toText h)).2.1
    cases hread : sampleBestCodec.envelope text with
    | ok schema =>
      rw [hread] at henvelope
      rw [Option.some.inj henvelope]
    | error e =>
      rw [hread] at henvelope
      cases henvelope
  · intro line text h
    exact (hall _ (sampleBestCodec_toText h)).2.2

def sampleCompactHash : CompactHash :=
  ⟨fun _ => [], fun _ => [], fun _ => [], fun _ => ""⟩

theorem sampleBestLines_toText : ∀ entry ∈ sampleBestLines,
    sampleBestCodec.toText entry.1 = .ok entry.2 := by
  have htext : ∀ entry ∈ sampleBestLines,
      (sampleBestCodec.toText entry.1).toOption = some entry.2 := by
    decide +kernel
  intro entry hentry
  have hencoded := htext entry hentry
  cases hresult : sampleBestCodec.toText entry.1 with
  | error e =>
    rw [hresult] at hencoded
    cases hencoded
  | ok text =>
    rw [hresult] at hencoded
    rw [Option.some.inj hencoded]

def sampleBestSession (records : List (Record CappedFloat)) : Session CappedFloat :=
  records.foldl (fun session record =>
    ((session.apply sampleCompactHash record).toOption).getD session) Session.empty

def sampleBestWorld (lines : List (JournalLine (Record CappedFloat) × String)) :
    SessionWorld CappedFloat :=
  let records := lines.map fun entry => entry.1.record
  ⟨some (Delimited.join 10 (lines.map fun entry => utf8 entry.2)),
    some ⟨⟨records, lines.length, ⟨0, 0⟩⟩, sampleBestSession records⟩⟩

theorem sampleBestWorld_appends (lines : List (JournalLine (Record CappedFloat) × String))
    (entry : JournalLine (Record CappedFloat) × String) (hentry : entry ∈ sampleBestLines)
    (hschema : entry.1.schema = JOURNAL_SCHEMA) (hseq : entry.1.seq = lines.length)
    (happlies : ∀ session : Session CappedFloat,
      ∃ session', session.apply sampleCompactHash entry.1.record = .ok session') :
    (sessionMachine sampleBestCodec sampleCompactHash).next (sampleBestWorld lines)
        (.appends entry.1.record entry.1.atMs .synced) =
      some (.accepted entry.1.record, sampleBestWorld (lines ++ [entry])) := by
  let records := lines.map fun entry => entry.1.record
  let journal : Journal (Record CappedFloat) := ⟨records, lines.length, ⟨0, 0⟩⟩
  have htext : sampleBestCodec.toText
      ⟨JOURNAL_SCHEMA, journal.nextSeq, entry.1.atMs, entry.1.record⟩ = .ok entry.2 := by
    have hencoded := sampleBestLines_toText entry hentry
    have hnext : journal.nextSeq = entry.1.seq := hseq.symm
    rw [← hschema, hnext]
    exact hencoded
  have happend := append_synced sampleBestCodec_lawful
    (Delimited.join 10 (lines.map fun entry => utf8 entry.2)) htext
  obtain ⟨session, happly⟩ := happlies (sampleBestSession records)
  have hsession : sampleBestSession (records ++ [entry.1.record]) = session := by
    unfold sampleBestSession at happly ⊢
    rw [List.foldl_append, List.foldl_cons, List.foldl_nil, happly]
    rfl
  simp only [sessionMachine, sessionNext, sampleBestWorld, happly, SessionWriter.append,
    Option.getD_some, happend, List.map_append, List.map_cons, List.map_nil,
    Delimited.join_append, Delimited.join_singleton, hsession, List.length_append,
    List.length_singleton, journal, records]

theorem sampleBestWorld_opened :
    (sessionMachine sampleBestCodec sampleCompactHash).next
        (sessionMachine sampleBestCodec sampleCompactHash).start (.opens 1700000000000 .synced) =
      some (.opened, sampleBestWorld []) := rfl

theorem sampleBestWorld_first :
    (sessionMachine sampleBestCodec sampleCompactHash).next (sampleBestWorld [])
        (.appends (sampleBest (.number 1)) 1700000000000 .synced) =
      some (.accepted (sampleBest (.number 1)), sampleBestWorld [sampleBestFirst]) :=
  sampleBestWorld_appends [] sampleBestFirst (List.mem_cons_self ..) rfl rfl fun _ => ⟨_, rfl⟩

theorem sampleBestWorld_second :
    (sessionMachine sampleBestCodec sampleCompactHash).next (sampleBestWorld [sampleBestFirst])
        (.appends (sampleBest .infinity) 1700000000500 .synced) =
      some (.accepted (sampleBest .infinity),
        sampleBestWorld [sampleBestFirst, sampleBestSecond]) :=
  sampleBestWorld_appends [sampleBestFirst] sampleBestSecond
    (List.mem_cons_of_mem _ (List.mem_cons_self ..)) rfl rfl fun _ => ⟨_, rfl⟩

theorem sampleBestWorld_next :
    (sessionMachine sampleBestCodec sampleCompactHash).next (sampleBestWorld [sampleBestFirst])
        (.appends (sampleBest (.number 2)) 1700000000500 .synced) =
      some (.accepted (sampleBest (.number 2)),
        sampleBestWorld [sampleBestFirst, sampleBestNext]) :=
  sampleBestWorld_appends [sampleBestFirst] sampleBestNext
    (List.mem_cons_of_mem _ (List.mem_cons_of_mem _ (List.mem_cons_self ..))) rfl rfl
    fun _ => ⟨_, rfl⟩

/-- A best result, then a better one without bound: the writer takes both, and no resume reads the
journal again. -/
theorem unbounded_best_not_reopened : ¬∀ (F : Type) [FloatOps F] (codec : LineCodec (Record F))
    (hash : CompactHash), codec.Lawful Record.reread →
      ∀ events world, (sessionMachine codec hash).Run events world → world.Reopens codec hash := by
  intro hreopens
  have hrun : (sessionMachine sampleBestCodec sampleCompactHash).Run
      [.opened, .accepted (sampleBest (.number 1)), .accepted (sampleBest .infinity)]
      (sampleBestWorld [sampleBestFirst, sampleBestSecond]) :=
    .next (.next (.next .start sampleBestWorld_opened) sampleBestWorld_first)
      sampleBestWorld_second
  obtain ⟨journal, left, _, hopen, _⟩ := hreopens CappedFloat sampleBestCodec sampleCompactHash
    sampleBestCodec_lawful _ _ hrun
  have hheld : HoldsRecords sampleBestCodec [sampleBest (.number 1), sampleBest .infinity]
      (Delimited.join 10 ([sampleBestFirst, sampleBestSecond].map fun entry => utf8 entry.2)) := by
    let lines := [sampleBestFirst, sampleBestSecond]
    refine ⟨lines.map fun entry => (entry.1.record, entry.2), ?_, rfl, rfl⟩
    intro line hline
    obtain ⟨entry, hentry, rfl⟩ := List.mem_map.mp hline
    have hschema : ∀ entry ∈ lines, entry.1.schema = JOURNAL_SCHEMA ∧ entry ∈ sampleBestLines := by
      simp [lines, sampleBestLines, sampleBestFirst, sampleBestSecond]
    refine ⟨entry.1.seq, entry.1.atMs, ?_⟩
    rw [← (hschema entry hentry).1]
    exact sampleBestLines_toText entry (hschema entry hentry).2
  have hreads := openFile_reads sampleBestCodec_lawful (List.append_nil _).symm hheld
    List.not_mem_nil hopen
  obtain ⟨_, _, _, hrest, _⟩ := List.forall₂_cons_left_iff.mp hreads
  obtain ⟨read, _, hread, _, _⟩ := List.forall₂_cons_left_iff.mp hrest
  have hnone : (sampleBest .infinity).reread = none := rfl
  rw [hnone] at hread
  cases hread

theorem sampleBest_durable (eScreenPess : ℚ) (session : Session CappedFloat) :
    (sampleBest (.number eScreenPess)).Durable session := by
  have hplain : JsonFloats.plain (sampleBest (.number eScreenPess)) = [.number eScreenPess] := rfl
  have hoptional : JsonFloats.optional
      (⟨1, 0, "c", .number eScreenPess, 10, none, none⟩ : BestEver CappedFloat) = [] := rfl
  refine ⟨?_, ?_⟩
  · rw [hplain]
    intro number hnumber
    obtain rfl := List.mem_singleton.mp hnumber
    rfl
  · simp [Record.kept, sampleBest, hoptional]

/-- Two finite best results, and the resume has them. -/
theorem sampleBest_reopens :
    (sampleBestWorld [sampleBestFirst, sampleBestNext]).Reopens sampleBestCodec
      sampleCompactHash := by
  have hdurable (lines : List (JournalLine (Record CappedFloat) × String)) (eScreenPess : ℚ)
      (atMs : Int) : DurableStep (sampleBestWorld lines)
        (.appends (sampleBest (.number eScreenPess)) atMs .synced) :=
    fun writer _ => sampleBest_durable eScreenPess writer.session
  have hrun : (sessionMachine sampleBestCodec sampleCompactHash).RunUnder DurableStep
      [.opened, .accepted (sampleBest (.number 1)), .accepted (sampleBest (.number 2))]
      (sampleBestWorld [sampleBestFirst, sampleBestNext]) :=
    .next (.next (.next .start trivial sampleBestWorld_opened) (hdurable _ 1 _)
      sampleBestWorld_first) (hdurable _ 2 _) sampleBestWorld_next
  exact (reopens_iff_durable sampleBestCodec_lawful hrun).1

end Sample

end Neoethos
