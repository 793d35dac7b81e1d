import Mathlib.Data.List.Forall2
import Neoethos.TrialMatrix

namespace Neoethos

/-- The id that the reader makes of the bytes that are written. -/
def TrialReturnRow.keptId (row : TrialReturnRow) : Option String :=
  fromUtf8 (row.idBytes.take row.idLen)

theorem fromUtf8_utf8 (s : String) : fromUtf8 s.toUTF8.data.toList = some s := by
  have hvalid := s.isValidUTF8
  simp only [fromUtf8, Array.toArray_toList, String.toUTF8_eq_toByteArray, String.fromUTF8?,
    dif_pos hvalid]
  rfl

theorem length_utf8 (s : String) : s.toUTF8.data.toList.length = s.utf8ByteSize := by
  rw [Array.length_toList, String.toUTF8_eq_toByteArray]
  exact String.size_toByteArray

theorem fromUtf8_isSome_iff (bytes : List UInt8) :
    (fromUtf8 bytes).isSome = true ↔ (⟨bytes.toArray⟩ : ByteArray).IsValidUTF8 := by
  unfold fromUtf8 String.fromUTF8?
  split
  next h => simp [h]
  next h => simp [h]

namespace TrialReturnRow

variable {row : TrialReturnRow} {id : String}

theorem length_idBytes (row : TrialReturnRow) :
    row.idBytes.length = row.strategyId.utf8ByteSize :=
  length_utf8 row.strategyId

theorem take_idBytes (row : TrialReturnRow) (n : Nat) :
    (⟨(row.idBytes.take n).toArray⟩ : ByteArray) = row.strategyId.toByteArray.extract 0 n := by
  apply ByteArray.ext
  apply Array.ext'
  simp [idBytes]

/-- An id is read back when it is not cut inside a character. -/
theorem keptId_isSome_iff (row : TrialReturnRow) :
    row.keptId.isSome = true ↔
      (65535 < row.strategyId.utf8ByteSize →
        (⟨65535⟩ : String.Pos.Raw).IsValid row.strategyId) := by
  have hsize := row.length_idBytes
  rw [keptId, fromUtf8_isSome_iff, take_idBytes, idLen]
  by_cases hlong : 65535 < row.strategyId.utf8ByteSize
  · have hlen : min row.idBytes.length (2 ^ 16 - 1) = 65535 := by omega
    rw [hlen, String.Pos.Raw.isValid_iff_isValidUTF8_extract_zero]
    have hend : (⟨65535⟩ : String.Pos.Raw) ≤ row.strategyId.rawEndPos := by
      simp [String.Pos.Raw.le_iff]
      omega
    simp [hlong, hend]
  · have hlen : min row.idBytes.length (2 ^ 16 - 1) = row.strategyId.toByteArray.size := by
      rw [String.size_toByteArray]
      omega
    rw [hlen, ByteArray.extract_zero_size]
    simp [hlong, row.strategyId.isValidUTF8]

/-- The id that is read back is the whole id where that is short enough, and a prefix of it. -/
theorem keptId_spec (h : row.keptId = some id) :
    (row.strategyId.utf8ByteSize ≤ 65535 → id = row.strategyId) ∧
      ∃ rest, row.strategyId = id ++ rest := by
  have hsize := row.length_idBytes
  have hkept := (row.keptId_isSome_iff).mp (by simp [h])
  by_cases hlong : 65535 < row.strategyId.utf8ByteSize
  · obtain ⟨first, rest, hsplit, hpos⟩ := String.Pos.Raw.isValid_iff_exists_append.mp (hkept hlong)
    have hfirst : first.utf8ByteSize = 65535 := by
      simpa [String.Pos.Raw.ext_iff] using hpos.symm
    have hlen : row.idLen = 65535 := by
      unfold idLen
      omega
    have hbytes : row.idBytes.take row.idLen = first.toUTF8.data.toList := by
      have hfirst' : first.toUTF8.data.toList.length = 65535 := by
        rw [length_utf8, hfirst]
      rw [hlen, idBytes, hsplit, String.toUTF8_eq_toByteArray, String.toByteArray_append]
      rw [ByteArray.data_append, Array.toList_append, ← hfirst']
      exact List.take_left
    rw [keptId, hbytes, fromUtf8_utf8] at h
    obtain rfl := Option.some.inj h
    exact ⟨fun hshort => absurd hlong (by omega), rest, hsplit⟩
  · have hall : row.idBytes.take row.idLen = row.idBytes := by
      apply List.take_of_length_le
      unfold idLen
      omega
    rw [keptId, hall, idBytes, fromUtf8_utf8] at h
    obtain rfl := Option.some.inj h
    exact ⟨fun _ => rfl, "", by simp⟩

theorem length_padded (row : TrialReturnRow) (periods : Nat) :
    (row.padded periods).length = periods := by
  simp [padded]

theorem idLen_lt (row : TrialReturnRow) : row.idLen < 256 ^ 2 := by
  unfold idLen
  omega

theorem length_take_idBytes (row : TrialReturnRow) :
    (row.idBytes.take row.idLen).length = row.idLen := by
  rw [List.length_take]
  unfold idLen
  omega

theorem length_encode (row : TrialReturnRow) (periods : Nat) :
    (row.encode periods).length = 2 + row.idLen + 8 + periods * 8 := by
  have hreturns : ∀ vs : List UInt64,
      (vs.flatMap fun v => LittleEndian.encode 8 v.toNat).length = vs.length * 8 := by
    intro vs
    induction vs with
    | nil => rfl
    | cons v vs ih =>
      simp only [List.flatMap_cons, List.length_append, LittleEndian.length_encode,
        List.length_cons, ih]
      omega
  simp only [encode, List.length_append, LittleEndian.length_encode, length_take_idBytes, hreturns,
    length_padded]

end TrialReturnRow

theorem leU64s_append {bytes front back : List UInt8} {vs : List UInt64}
    (hbytes : bytes = front ++ (vs.flatMap fun v => LittleEndian.encode 8 v.toNat) ++ back)
    {start count : Nat} (hstart : start = front.length) (hcount : count = vs.length) :
    leU64s bytes start count = vs := by
  rw [← List.flatMap_map (g := LittleEndian.encode 8)] at hbytes
  have hbelow : ∀ n ∈ vs.map UInt64.toNat, n < 256 ^ 8 := by
    intro n hn
    obtain ⟨v, _, rfl⟩ := List.mem_map.mp hn
    exact v.toNat_lt
  have hread := LittleEndian.read_flatMap hbytes hstart hbelow
  rw [List.length_map] at hread
  calc
    leU64s bytes start count = ((List.range vs.length).map fun i =>
        LittleEndian.read bytes (start + i * 8) 8).map UInt64.ofNat := by
      rw [hcount, List.map_map]
      rfl
    _ = vs := by
      rw [hread, List.map_map]
      simp [Function.comp_def]

namespace DecodedTrialMatrix

/-- What the reader makes of a row whose id it can read. -/
def rowOf (row : TrialReturnRow) (periods : Nat) (strategyId : String) :
    DecodedTrialRow UInt64 :=
  ⟨row.candidateIndex, strategyId, row.padded periods⟩

/-- The loop reads one whole row and goes on behind it. -/
theorem decodeRows_encoded (front back : List UInt8) (row : TrialReturnRow) (periods : Nat)
    (rows : List (DecodedTrialRow UInt64)) :
    decodeRows (front ++ row.encode periods ++ back) periods front.length rows =
      match row.keptId with
      | none => .error (.badStrategyId rows.length)
      | some strategyId =>
        decodeRows (front ++ row.encode periods ++ back) periods
          (front.length + (row.encode periods).length) (rows ++ [rowOf row periods strategyId]) := by
  generalize hbytes : front ++ row.encode periods ++ back = bytes
  have hlength : bytes.length =
      front.length + (2 + row.idLen + 8 + periods * 8) + back.length := by
    rw [← hbytes, List.length_append, List.length_append, row.length_encode]
  have hidBytes := row.length_take_idBytes
  set index := LittleEndian.encode 8 row.candidateIndex.toNat with hindexDef
  set returns := (row.padded periods).flatMap fun v => LittleEndian.encode 8 v.toNat
    with hreturnsDef
  have hparts : bytes = front ++ LittleEndian.encode 2 row.idLen ++ row.idBytes.take row.idLen ++
      index ++ returns ++ back := by
    rw [← hbytes, TrialReturnRow.encode]
    simp only [List.append_assoc, hindexDef, hreturnsDef]
  have hidLen : LittleEndian.read bytes front.length 2 = row.idLen := by
    have hpart : bytes = front ++ LittleEndian.encode 2 row.idLen ++
        (row.idBytes.take row.idLen ++ index ++ returns ++ back) := by
      rw [hparts]
      simp only [List.append_assoc]
    exact LittleEndian.read_append hpart rfl row.idLen_lt
  have hid : LittleEndian.slice bytes (front.length + 2) (front.length + 2 + row.idLen) =
      row.idBytes.take row.idLen := by
    have hpart : bytes = (front ++ LittleEndian.encode 2 row.idLen) ++
        row.idBytes.take row.idLen ++ (index ++ returns ++ back) := by
      rw [hparts]
      simp only [List.append_assoc]
    apply LittleEndian.slice_append hpart
    · rw [List.length_append, LittleEndian.length_encode]
    · rw [hidBytes]
  have hindex : LittleEndian.read bytes (front.length + 2 + row.idLen) 8 =
      row.candidateIndex.toNat := by
    have hpart : bytes = (front ++ LittleEndian.encode 2 row.idLen ++
        row.idBytes.take row.idLen) ++ index ++ (returns ++ back) := by
      rw [hparts]
      simp only [List.append_assoc]
    apply LittleEndian.read_append hpart
    · simp only [List.length_append, LittleEndian.length_encode, hidBytes]
    · exact row.candidateIndex.toNat_lt
  have hreturns : leU64s bytes (front.length + 2 + row.idLen + 8) periods =
      row.padded periods := by
    have hpart : bytes = (front ++ LittleEndian.encode 2 row.idLen ++
        row.idBytes.take row.idLen ++ index) ++ returns ++ back := by
      rw [hparts]
    apply leU64s_append hpart
    · simp only [List.length_append, LittleEndian.length_encode, hidBytes, hindexDef]
    · rw [row.length_padded]
  rw [decodeRows, if_neg (by omega), if_neg (by omega)]
  simp only [hidLen, hid, hindex, hreturns, UInt64.ofNat_toNat]
  rw [if_neg (by omega), row.length_encode]
  have hend : front.length + 2 + row.idLen + 8 + periods * 8 =
      front.length + (2 + row.idLen + 8 + periods * 8) := by omega
  rw [hend]
  rfl

/-- The loop stops in front of a row that is cut. -/
theorem decodeRows_cut {front part : List UInt8} {row : TrialReturnRow} {periods : Nat}
    (hpart : part <+: row.encode periods) (hcut : part.length < (row.encode periods).length)
    (rows : List (DecodedTrialRow UInt64)) :
    decodeRows (front ++ part) periods front.length rows = .ok (rows, front.length) := by
  have hlength : (front ++ part).length = front.length + part.length := List.length_append
  rw [row.length_encode] at hcut
  by_cases hshort : part.length < 2
  · rw [decodeRows, hlength]
    split
    next => rfl
    next => rw [if_pos (by omega)]
  · obtain ⟨rest, hrest⟩ := hpart
    obtain ⟨tail, hsplit⟩ : ∃ tail, part = LittleEndian.encode 2 row.idLen ++ tail := by
      have htake : part.take 2 = LittleEndian.encode 2 row.idLen := by
        have hwhole : (row.encode periods).take 2 = LittleEndian.encode 2 row.idLen := by
          rw [TrialReturnRow.encode]
          simp only [List.append_assoc]
          exact List.take_left' (LittleEndian.length_encode 2 _)
        rw [← hwhole, ← hrest, List.take_append_of_le_length (by omega)]
      exact ⟨part.drop 2, by rw [← htake, List.take_append_drop]⟩
    have hidLen : LittleEndian.read (front ++ part) front.length 2 = row.idLen := by
      have hbytes : front ++ part = front ++ LittleEndian.encode 2 row.idLen ++ tail := by
        rw [hsplit, List.append_assoc]
      exact LittleEndian.read_append hbytes rfl row.idLen_lt
    rw [decodeRows, hlength, if_neg (by omega), if_neg (by omega)]
    simp only [hidLen]
    rw [if_pos (by omega)]

def rowsEnd (periods : Nat) (rows : List TrialReturnRow) : Nat :=
  (encodeRows rows periods).length

def Reads (periods : Nat) (rows : List TrialReturnRow)
    (decoded : List (DecodedTrialRow UInt64)) : Prop :=
  List.Forall₂ (fun row d => ∃ strategyId, row.keptId = some strategyId ∧
    d = rowOf row periods strategyId) rows decoded

/-- The loop reads whole rows until one of them has an id that it cannot read. -/
theorem decodeRows_rows (periods : Nat) {rows : List TrialReturnRow}
    (hrows : ∀ row ∈ rows, row.keptId.isSome = true) (front back : List UInt8)
    (acc : List (DecodedTrialRow UInt64)) :
    ∃ decoded, Reads periods rows decoded ∧
      decodeRows (front ++ encodeRows rows periods ++ back) periods front.length acc =
        decodeRows (front ++ encodeRows rows periods ++ back) periods
          (front.length + rowsEnd periods rows) (acc ++ decoded) := by
  induction rows generalizing front acc with
  | nil => exact ⟨[], .nil, by simp [rowsEnd, encodeRows]⟩
  | cons row rows ih =>
    obtain ⟨strategyId, hid⟩ := Option.isSome_iff_exists.mp (hrows row List.mem_cons_self)
    obtain ⟨decoded, hreads, hrest⟩ := ih (fun r hr => hrows r (List.mem_cons_of_mem _ hr))
      (front ++ row.encode periods) (acc ++ [rowOf row periods strategyId])
    refine ⟨rowOf row periods strategyId :: decoded, .cons ⟨strategyId, hid, rfl⟩ hreads, ?_⟩
    have hfirst := decodeRows_encoded front (encodeRows rows periods ++ back) row periods acc
    rw [hid] at hfirst
    have hbytes : front ++ encodeRows (row :: rows) periods ++ back =
        front ++ row.encode periods ++ (encodeRows rows periods ++ back) := by
      simp only [encodeRows, List.flatMap_cons, List.append_assoc]
    have hbytes' : front ++ row.encode periods ++ (encodeRows rows periods ++ back) =
        front ++ row.encode periods ++ encodeRows rows periods ++ back := by
      simp only [List.append_assoc]
    have hends : front.length + rowsEnd periods (row :: rows) =
        (front ++ row.encode periods).length + rowsEnd periods rows := by
      simp only [rowsEnd, encodeRows, List.flatMap_cons, List.length_append]
      omega
    rw [hbytes, hfirst, hends, hbytes', ← List.length_append]
    have hacc : acc ++ [rowOf row periods strategyId] ++ decoded =
        acc ++ rowOf row periods strategyId :: decoded := List.append_cons _ _ _ |>.symm
    rw [hacc] at hrest
    exact hrest

theorem decodeRows_unreadable (periods : Nat) {rows : List TrialReturnRow}
    (hrows : ∃ row ∈ rows, row.keptId = none) (front back : List UInt8)
    (acc : List (DecodedTrialRow UInt64)) :
    ∃ i, decodeRows (front ++ encodeRows rows periods ++ back) periods front.length acc =
      .error (.badStrategyId i) := by
  induction rows generalizing front acc with
  | nil => simp at hrows
  | cons row rows ih =>
    have hfirst := decodeRows_encoded front (encodeRows rows periods ++ back) row periods acc
    have hbytes : front ++ encodeRows (row :: rows) periods ++ back =
        front ++ row.encode periods ++ (encodeRows rows periods ++ back) := by
      simp only [encodeRows, List.flatMap_cons, List.append_assoc]
    rw [hbytes, hfirst]
    cases hid : row.keptId with
    | none => exact ⟨acc.length, rfl⟩
    | some strategyId =>
      have hlater : ∃ r ∈ rows, r.keptId = none := by
        obtain ⟨r, hr, hnone⟩ := hrows
        obtain rfl | hr := List.mem_cons.mp hr
        · rw [hid] at hnone
          simp at hnone
        · exact ⟨r, hr, hnone⟩
      obtain ⟨i, hi⟩ := ih hlater (front ++ row.encode periods)
        (acc ++ [rowOf row periods strategyId])
      have hbytes' : front ++ row.encode periods ++ (encodeRows rows periods ++ back) =
          front ++ row.encode periods ++ encodeRows rows periods ++ back := by
        simp only [List.append_assoc]
      refine ⟨i, ?_⟩
      rw [hbytes', ← List.length_append]
      exact hi

end DecodedTrialMatrix

end Neoethos
