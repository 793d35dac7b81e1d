import Neoethos.TrialRoundTrip

namespace Neoethos

namespace DecodedTrialMatrix

theorem length_magic : TRIAL_RETURNS_MAGIC.length = 8 := by decide +kernel

theorem length_grid (keys : List Int64) :
    (keys.flatMap fun key => LittleEndian.encode 8 key.toUInt64.toNat).length =
      keys.length * 8 := by
  induction keys with
  | nil => rfl
  | cons key keys ih =>
    simp only [List.flatMap_cons, List.length_append, LittleEndian.length_encode,
      List.length_cons, ih]
    omega

theorem length_encodeHeader (keys : List Int64) (initialBalance : UInt64) (trials : Nat) :
    (encodeHeader keys initialBalance trials).length = HEADER_BYTES + keys.length * 8 := by
  simp only [encodeHeader, List.length_append, LittleEndian.length_encode, length_magic,
    length_grid, HEADER_BYTES]

theorem decode_header {keys : List Int64} {trials : Nat} (hgrid : keys ≠ [])
    (hkeys : keys.length < 2 ^ 32) (htrials : trials < 2 ^ 32) (initialBalance : UInt64)
    (rest : List UInt8) :
    decode (encodeHeader keys initialBalance trials ++ rest) =
      match decodeRows (encodeHeader keys initialBalance trials ++ rest) keys.length
        (encodeHeader keys initialBalance trials).length [] with
      | .error e => .error e
      | .ok (rows, cursor) =>
        let tail := (encodeHeader keys initialBalance trials ++ rest).length - cursor
        if 0 < tail ∧ rows = [] ∧ 0 < trials then .error (.truncatedRow 0)
        else .ok ⟨1, 1, initialBalance, keys, rows, trials, tail⟩ := by
  have hmagic := length_magic
  have hlength := length_encodeHeader keys initialBalance trials
  generalize hbytes : encodeHeader keys initialBalance trials ++ rest = bytes
  have hbound : HEADER_BYTES + keys.length * 8 ≤ bytes.length := by
    rw [← hbytes, List.length_append, hlength]
    omega
  set grid := keys.flatMap fun key => LittleEndian.encode 8 key.toUInt64.toNat with hgridDef
  have hfields : bytes = TRIAL_RETURNS_MAGIC ++ LittleEndian.encodeFields
      [(4, 1), (4, trials), (4, keys.length), (4, 1), (8, initialBalance.toNat), (8, 0)] ++
      (grid ++ rest) := by
    rw [← hbytes, encodeHeader]
    simp only [LittleEndian.encodeFields, List.flatMap_cons, List.flatMap_nil, List.append_nil,
      List.append_assoc, hgridDef]
  have htake : bytes.take 8 = TRIAL_RETURNS_MAGIC := by
    rw [hfields, List.append_assoc]
    exact List.take_left' hmagic
  have hversion : LittleEndian.read bytes 8 4 = 1 :=
    LittleEndian.read_field [] hfields (by rw [hmagic]; rfl) (by decide)
  have hcount : LittleEndian.read bytes 12 4 = trials :=
    LittleEndian.read_field [(4, 1)] hfields (by rw [hmagic]; rfl) htrials
  have hperiods : LittleEndian.read bytes 16 4 = keys.length :=
    LittleEndian.read_field [(4, 1), (4, trials)] hfields (by rw [hmagic]; rfl) hkeys
  have hflags : LittleEndian.read bytes 20 4 = 1 :=
    LittleEndian.read_field [(4, 1), (4, trials), (4, keys.length)] hfields
      (by rw [hmagic]; rfl) (by decide)
  have hbalance : LittleEndian.read bytes 24 8 = initialBalance.toNat :=
    LittleEndian.read_field [(4, 1), (4, trials), (4, keys.length), (4, 1)] hfields
      (by rw [hmagic]; rfl) initialBalance.toNat_lt
  have hperiodKeys : (leU64s bytes HEADER_BYTES keys.length).map UInt64.toInt64 = keys := by
    have hpart : bytes = (TRIAL_RETURNS_MAGIC ++ LittleEndian.encodeFields
        [(4, 1), (4, trials), (4, keys.length), (4, 1), (8, initialBalance.toNat), (8, 0)]) ++
        ((keys.map Int64.toUInt64).flatMap fun v => LittleEndian.encode 8 v.toNat) ++ rest := by
      rw [hfields, hgridDef, List.flatMap_map]
      simp only [List.append_assoc]
    rw [leU64s_append hpart _ (by rw [List.length_map]), List.map_map]
    · simp [Function.comp_def]
    · rw [List.length_append, hmagic, LittleEndian.length_encodeFields]
      rfl
  have hnonempty : keys.length ≠ 0 := by simpa using hgrid
  unfold decode
  rw [if_neg (by omega), if_neg (by simp [htake])]
  simp only [hversion, hcount, hperiods, hflags, hbalance, hperiodKeys, ne_eq, not_true_eq_false,
    if_false, if_neg hnonempty, UInt64.ofNat_toNat, hlength]
  exact if_neg (by omega)

/-- What a read row keeps of the written one: a long id may be cut to a prefix. -/
structure RowRead (periods : Nat) (row : TrialReturnRow) (d : DecodedTrialRow UInt64) : Prop where
  candidateIndex : d.candidateIndex = row.candidateIndex
  returns : d.returns = row.padded periods
  short : row.strategyId.utf8ByteSize ≤ 65535 → d.strategyId = row.strategyId
  cutId : ∃ rest, row.strategyId = d.strategyId ++ rest

/-- What the read matrix keeps of the written one. -/
structure ReadBack (matrix : TrialReturnMatrix) (rows : List TrialReturnRow)
    (m : DecodedTrialMatrix UInt64) : Prop where
  periodKeys : m.periodKeys = matrix.periodKeys
  initialBalance : m.initialBalance = matrix.initialBalance
  rows : List.Forall₂ (RowRead matrix.periodKeys.length) rows m.rows

def ReadsWhole (matrix : TrialReturnMatrix) (rows : List TrialReturnRow) : Prop :=
  ∃ m, decode (matrix.encode rows) = .ok m ∧ ReadBack matrix rows m ∧
    m.headerTrials = rows.length ∧ m.truncatedTailBytes = 0

def uncounted (matrix : TrialReturnMatrix) (rows : List TrialReturnRow) : List UInt8 :=
  encodeHeader matrix.periodKeys matrix.initialBalance 0 ++
    encodeRows rows matrix.periodKeys.length

/-- The first bytes of the file are read as the rows that are completely inside them. -/
def ReadsCut (matrix : TrialReturnMatrix) (rows : List TrialReturnRow) (n : Nat) : Prop :=
  ∃ inside cut m, rows = inside ++ cut ∧
    (uncounted matrix inside).length ≤ ((uncounted matrix rows).take n).length ∧
    (∀ row later, cut = row :: later → n < (uncounted matrix (inside ++ [row])).length) ∧
    decode ((uncounted matrix rows).take n) = .ok m ∧ ReadBack matrix inside m ∧
    m.truncatedTailBytes =
      ((uncounted matrix rows).take n).length - (uncounted matrix inside).length

theorem rowRead_of_reads {periods : Nat} {rows : List TrialReturnRow}
    {decoded : List (DecodedTrialRow UInt64)} (h : Reads periods rows decoded) :
    List.Forall₂ (RowRead periods) rows decoded := by
  refine h.imp ?_
  rintro row d ⟨strategyId, hid, rfl⟩
  obtain ⟨hshort, hrest⟩ := TrialReturnRow.keptId_spec hid
  exact ⟨rfl, rfl, hshort, hrest⟩

/-- The rows that are completely inside the first bytes, and what is left of the next one. -/
theorem exists_inside (periods n : Nat) (rows : List TrialReturnRow) :
    ∃ inside cut part, rows = inside ++ cut ∧
      (encodeRows rows periods).take n = encodeRows inside periods ++ part ∧
      (cut = [] ∧ part = [] ∨ ∃ row later, cut = row :: later ∧ part <+: row.encode periods ∧
        part.length < (row.encode periods).length ∧
        n < (encodeRows (inside ++ [row]) periods).length) := by
  induction rows generalizing n with
  | nil => exact ⟨[], [], [], rfl, by simp [encodeRows], .inl ⟨rfl, rfl⟩⟩
  | cons row rows ih =>
    by_cases hfits : (row.encode periods).length ≤ n
    · obtain ⟨inside, cut, part, hrows, htake, hcut⟩ := ih (n - (row.encode periods).length)
      refine ⟨row :: inside, cut, part, by rw [hrows]; rfl, ?_, ?_⟩
      · simp only [encodeRows, List.flatMap_cons] at htake ⊢
        rw [List.take_append, htake, List.take_of_length_le hfits, List.append_assoc]
      · refine hcut.imp id ?_
        rintro ⟨next, later, hnext, hpart, hshort, hn⟩
        refine ⟨next, later, hnext, hpart, hshort, ?_⟩
        simp only [encodeRows, List.cons_append, List.flatMap_cons, List.length_append] at hn ⊢
        omega
    · refine ⟨[], row :: rows, (row.encode periods).take n, rfl, ?_, .inr ⟨row, rows, rfl,
        List.take_prefix _ _, ?_, ?_⟩⟩
      · simp only [encodeRows, List.flatMap_cons, List.flatMap_nil, List.nil_append]
        rw [List.take_append_of_le_length (by omega)]
      · rw [List.length_take]
        omega
      · simp only [encodeRows, List.nil_append, List.flatMap_cons, List.flatMap_nil,
          List.append_nil]
        omega

section Format

variable {matrix : TrialReturnMatrix} {rows : List TrialReturnRow}

theorem length_uncounted (matrix : TrialReturnMatrix) (rows : List TrialReturnRow) :
    (uncounted matrix rows).length = HEADER_BYTES + matrix.periodKeys.length * 8 +
      (encodeRows rows matrix.periodKeys.length).length := by
  rw [uncounted, List.length_append, length_encodeHeader]

theorem decodeRows_end (bytes : List UInt8) (periods : Nat) {cursor : Nat}
    (hend : cursor = bytes.length) (acc : List (DecodedTrialRow UInt64)) :
    decodeRows bytes periods cursor acc = .ok (acc, cursor) := by
  rw [decodeRows, if_pos hend]

theorem decode_counted (hgrid : matrix.periodKeys ≠ [])
    (hperiods : matrix.periodKeys.length < 2 ^ 32) {count : Nat} (hcount : count < 2 ^ 32)
    (hrows : ∀ row ∈ rows, row.keptId.isSome = true) :
    ∃ m, decode (encodeHeader matrix.periodKeys matrix.initialBalance count ++
      encodeRows rows matrix.periodKeys.length) = .ok m ∧ ReadBack matrix rows m ∧
      m.headerTrials = count ∧ m.truncatedTailBytes = 0 := by
  have hheader := decode_header hgrid hperiods hcount matrix.initialBalance
    (encodeRows rows matrix.periodKeys.length)
  obtain ⟨decoded, hreads, hrun⟩ := decodeRows_rows matrix.periodKeys.length hrows
    (encodeHeader matrix.periodKeys matrix.initialBalance count) [] []
  rw [List.append_nil, List.nil_append] at hrun
  have hstop := decodeRows_end (encodeHeader matrix.periodKeys matrix.initialBalance count ++
      encodeRows rows matrix.periodKeys.length) matrix.periodKeys.length
    (by rw [List.length_append]) decoded
  rw [hrun.trans hstop] at hheader
  simp only [List.length_append, Nat.sub_self, Nat.lt_irrefl, false_and, if_false]
    at hheader
  exact ⟨_, hheader, ⟨rfl, rfl, rowRead_of_reads hreads⟩, rfl, rfl⟩

theorem readsWhole (hgrid : matrix.periodKeys ≠ []) (hperiods : matrix.periodKeys.length < 2 ^ 32)
    (hcount : rows.length < 2 ^ 32) (hrows : ∀ row ∈ rows, row.keptId.isSome = true) :
    ReadsWhole matrix rows :=
  decode_counted hgrid hperiods hcount hrows

theorem readsCut (hgrid : matrix.periodKeys ≠ []) (hperiods : matrix.periodKeys.length < 2 ^ 32)
    (hrows : ∀ row ∈ rows, row.keptId.isSome = true) {n : Nat}
    (hn : HEADER_BYTES + matrix.periodKeys.length * 8 ≤ n) : ReadsCut matrix rows n := by
  have hlength := length_encodeHeader matrix.periodKeys matrix.initialBalance 0
  obtain ⟨inside, cut, part, hsplit, htake, hcut⟩ := exists_inside matrix.periodKeys.length
    (n - (encodeHeader matrix.periodKeys matrix.initialBalance 0).length) rows
  have hbytes : (uncounted matrix rows).take n = uncounted matrix inside ++ part := by
    rw [uncounted, List.take_append, List.take_of_length_le (by omega), htake, uncounted,
      List.append_assoc]
  have hinside : ∀ row ∈ inside, row.keptId.isSome = true := by
    intro row hrow
    exact hrows row (by rw [hsplit]; exact List.mem_append_left _ hrow)
  obtain ⟨decoded, hreads, hrun⟩ := decodeRows_rows matrix.periodKeys.length hinside
    (encodeHeader matrix.periodKeys matrix.initialBalance 0) part []
  have hends : (encodeHeader matrix.periodKeys matrix.initialBalance 0).length +
      rowsEnd matrix.periodKeys.length inside = (uncounted matrix inside).length := by
    rw [uncounted, List.length_append]
    rfl
  have hstop : decodeRows (uncounted matrix inside ++ part) matrix.periodKeys.length
      (uncounted matrix inside).length decoded =
      .ok (decoded, (uncounted matrix inside).length) := by
    obtain ⟨_, rfl⟩ | ⟨row, later, _, hpart, hshort, _⟩ := hcut
    · exact decodeRows_end _ _ (by rw [List.append_nil]) decoded
    · exact decodeRows_cut hpart hshort decoded
  rw [List.nil_append, hends] at hrun
  have hheader := decode_header hgrid hperiods (by decide : 0 < 2 ^ 32) matrix.initialBalance
    (encodeRows inside matrix.periodKeys.length ++ part)
  rw [← List.append_assoc, hrun] at hheader
  change decode (uncounted matrix inside ++ part) = _ at hheader
  rw [← uncounted, hstop, ← hbytes] at hheader
  simp only [Nat.lt_irrefl, and_false, if_false] at hheader
  refine ⟨inside, cut, _, hsplit, ?_, ?_, hheader, ⟨rfl, rfl, rowRead_of_reads hreads⟩, rfl⟩
  · rw [hbytes, List.length_append]
    omega
  · intro row later hlater
    obtain ⟨hnil, _⟩ | ⟨row', later', hcons, _, _, hbeyond⟩ := hcut
    · rw [hnil] at hlater
      simp at hlater
    · rw [hcons] at hlater
      obtain ⟨rfl, _⟩ := List.cons.inj hlater
      rw [length_uncounted]
      omega

/-- A file that is read at all has ids that are read. -/
theorem readable_of_decode (hgrid : matrix.periodKeys ≠ [])
    (hperiods : matrix.periodKeys.length < 2 ^ 32) (hcount : rows.length < 2 ^ 32)
    {m : DecodedTrialMatrix UInt64} (h : decode (matrix.encode rows) = .ok m) :
    ∀ row ∈ rows, row.keptId.isSome = true := by
  intro row hrow
  by_contra hnone
  rw [Option.not_isSome_iff_eq_none] at hnone
  have hheader := decode_header hgrid hperiods hcount matrix.initialBalance
    (encodeRows rows matrix.periodKeys.length)
  obtain ⟨i, hrun⟩ := decodeRows_unreadable matrix.periodKeys.length ⟨row, hrow, hnone⟩
    (encodeHeader matrix.periodKeys matrix.initialBalance rows.length) [] []
  rw [List.append_nil] at hrun
  rw [hrun] at hheader
  rw [TrialReturnMatrix.encode, hheader] at h
  simp at h

end Format

/-- A file is read back, whole or cut, exactly when no id is cut inside a character. -/
theorem trial_matrix_reads_iff (matrix : TrialReturnMatrix) (rows : List TrialReturnRow)
    (hgrid : matrix.periodKeys ≠ []) (hperiods : matrix.periodKeys.length < 2 ^ 32)
    (hcount : rows.length < 2 ^ 32) :
    (ReadsWhole matrix rows ∧
      ∀ n, HEADER_BYTES + matrix.periodKeys.length * 8 ≤ n → ReadsCut matrix rows n) ↔
    ∀ row ∈ rows, 65535 < row.strategyId.utf8ByteSize →
      (⟨65535⟩ : String.Pos.Raw).IsValid row.strategyId := by
  constructor
  · rintro ⟨⟨m, hdecode, _⟩, _⟩ row hrow
    have hsome := readable_of_decode hgrid hperiods hcount hdecode row hrow
    exact row.keptId_isSome_iff.mp hsome
  · intro hbounds
    have hrows : ∀ row ∈ rows, row.keptId.isSome = true := by
      intro row hrow
      exact row.keptId_isSome_iff.mpr (hbounds row hrow)
    exact ⟨readsWhole hgrid hperiods hcount hrows, fun n hn => readsCut hgrid hperiods hrows hn⟩

/-- Two months and two trials, one with a return too few and one with a return too many. -/
def sampleTrialGrid : TrialReturnMatrix := ⟨[24313, 24314], 0x40c3880000000000⟩

def sampleTrialRows : List TrialReturnRow :=
  [⟨7, "s1", [0x3f847ae147ae147b]⟩, ⟨9, "σ2", [0, 0x3f847ae147ae147b, 1]⟩]

theorem sampleTrialRows_read : ReadsWhole sampleTrialGrid sampleTrialRows ∧
    ∀ n, HEADER_BYTES + 2 * 8 ≤ n → ReadsCut sampleTrialGrid sampleTrialRows n := by
  refine (trial_matrix_reads_iff sampleTrialGrid sampleTrialRows (by simp [sampleTrialGrid])
    (by decide) (by decide)).mpr ?_
  have hshort : ∀ row ∈ sampleTrialRows, row.strategyId.utf8ByteSize ≤ 65535 := by decide +kernel
  intro row hrow hlong
  have := hshort row hrow
  omega

/-- An id whose last character takes two bytes, behind characters of one byte. -/
def accentedId (n : Nat) : String := String.ofList (List.replicate n 'a' ++ ['é'])

theorem utf8ByteSize_replicate (n : Nat) :
    (String.ofList (List.replicate n 'a')).utf8ByteSize = n := by
  induction n with
  | zero => rfl
  | succ n ih =>
    have ha : (String.singleton 'a').utf8ByteSize = 1 := by decide
    rw [List.replicate_succ, String.ofList_cons, String.utf8ByteSize_append, ih, ha]
    omega

theorem utf8ByteSize_accentedId (n : Nat) : (accentedId n).utf8ByteSize = n + 2 := by
  have he : (String.ofList ['é']).utf8ByteSize = 2 := by decide
  rw [accentedId, String.ofList_append, String.utf8ByteSize_append, utf8ByteSize_replicate, he]

/-- Whatever characters are kept, their bytes are one fewer or one more. -/
theorem accentedId_cut (n : Nat) : ¬(⟨n + 1⟩ : String.Pos.Raw).IsValid (accentedId n) := by
  intro hvalid
  have hsize := utf8ByteSize_accentedId n
  rw [accentedId, String.Pos.Raw.isValid_ofList] at hvalid
  obtain ⟨i, hi⟩ := hvalid
  have hi : n + 1 = (String.ofList ((List.replicate n 'a' ++ ['é']).take i)).utf8ByteSize := hi
  by_cases hle : i ≤ n
  · rw [List.take_append_of_le_length (by rw [List.length_replicate]; exact hle),
      List.take_replicate, utf8ByteSize_replicate] at hi
    omega
  · have hall : (List.replicate n 'a' ++ ['é']).length ≤ i := by
      rw [List.length_append, List.length_replicate, List.length_singleton]
      omega
    rw [List.take_of_length_le hall] at hi
    rw [accentedId] at hsize
    omega

theorem long_id_unreadable : ¬∀ (matrix : TrialReturnMatrix) (rows : List TrialReturnRow),
    matrix.periodKeys ≠ [] → matrix.periodKeys.length < 2 ^ 32 → rows.length < 2 ^ 32 →
    ReadsWhole matrix rows := by
  intro hall
  have hgrid : sampleTrialGrid.periodKeys ≠ [] := by simp [sampleTrialGrid]
  obtain ⟨m, hdecode, _⟩ := hall sampleTrialGrid [⟨7, accentedId 65534, []⟩] hgrid (by decide)
    (by decide)
  have hsome := readable_of_decode hgrid (by decide) (by decide) hdecode _ List.mem_cons_self
  have hvalid := (TrialReturnRow.keptId_isSome_iff _).mp hsome
  have hlong : 65535 < (accentedId 65534).utf8ByteSize := by
    rw [utf8ByteSize_accentedId]
    omega
  exact accentedId_cut 65534 (hvalid hlong)

end DecodedTrialMatrix

end Neoethos
