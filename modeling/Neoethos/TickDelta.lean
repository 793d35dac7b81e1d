import Neoethos.Fallible
import Neoethos.I64
import Mathlib.Data.List.Chain
import Mathlib.Data.Rat.Defs

namespace Neoethos

/-- One row of `ProtoOATickData`; the first row of a page is absolute, later ones are deltas. -/
structure TickWireRow where
  timestamp : Int
  tick : Int
  deriving DecidableEq

structure DecodedCTraderTick (P : Type*) where
  timestampMs : Int
  price : P
  deriving DecidableEq

inductive CTraderTickDeltaError (P : Type*)
  | timestampOverflow (row : Nat)
  | rawPriceOverflow (row : Nat)
  | negativeTimestamp (row : Nat) (timestampMs : Int)
  | nonPositiveRawPrice (row : Nat) (rawPrice : Int)
  | notNewestFirst (row : Nat) (previousTimestampMs timestampMs : Int)
  | invalidConvertedPrice (row : Nat) (price : P)
  deriving DecidableEq

/-- `raw_decoded_error`: the ingress error `RawDecodedMismatch` without an artifact. -/
structure RawDecodedError where
  detail : String
  deriving DecidableEq

section Decoders

/- The conversion of a raw price is the same on both sides; `validPrice` says that the
converted price is finite and positive. -/
variable {P : Type*} (convertPrice : Int → P) (validPrice : P → Bool)

/-- A wire value is absolute in the first row and a signed delta in later ones. -/
def addDelta : Option Int → Int → Option Int
  | none, wire => some wire
  | some previous, wire => I64.checkedAdd previous wire

/-- The loop that both decoders have: every row sees the timestamp and raw price decoded
before it, and the first error ends the loop. -/
def decodeRows {P E : Type*} (decodeRow : Nat → Option Int → Option Int → TickWireRow →
    Except E (Int × Int × P)) : Nat → Option Int → Option Int → List (DecodedCTraderTick P) →
    List TickWireRow → Except E (List (DecodedCTraderTick P))
  | _, _, _, decoded, [] => .ok decoded
  | row, previousTimestamp, previousRawPrice, decoded, wire :: rest =>
    match decodeRow row previousTimestamp previousRawPrice wire with
    | .error e => .error e
    | .ok (timestampMs, rawPrice, price) =>
      decodeRows decodeRow (row + 1) (some timestampMs) (some rawPrice)
        (decoded ++ [⟨timestampMs, price⟩]) rest

/-- One pass of the loop in `decode_ctrader_tick_deltas`. -/
def decodeDeltaRow (row : Nat) (previousTimestamp previousRawPrice : Option Int)
    (wire : TickWireRow) : Except (CTraderTickDeltaError P) (Int × Int × P) :=
  match addDelta previousTimestamp wire.timestamp with
  | none => .error (.timestampOverflow row)
  | some timestampMs =>
    if timestampMs < 0 then .error (.negativeTimestamp row timestampMs)
    else match previousTimestamp.filter (· < timestampMs) with
      | some previous => .error (.notNewestFirst row previous timestampMs)
      | none =>
        match addDelta previousRawPrice wire.tick with
        | none => .error (.rawPriceOverflow row)
        | some rawPrice =>
          if rawPrice ≤ 0 then .error (.nonPositiveRawPrice row rawPrice)
          else if validPrice (convertPrice rawPrice) then
            .ok (timestampMs, rawPrice, convertPrice rawPrice)
          else .error (.invalidConvertedPrice row (convertPrice rawPrice))

def decodeCTraderTickDeltas (wireRows : List TickWireRow) :
    Except (CTraderTickDeltaError P) (List (DecodedCTraderTick P)) :=
  decodeRows (decodeDeltaRow convertPrice validPrice) 0 none none [] wireRows

/-- The capture side reverses the complete result, see `parse_tick_data_response`. -/
def captureTicks (wireRows : List TickWireRow) :
    Except (CTraderTickDeltaError P) (List (DecodedCTraderTick P)) :=
  (decodeCTraderTickDeltas convertPrice validPrice wireRows).map List.reverse

/-- One pass of the loop in `decode_tick_wire`. -/
def decodeWireRow (index : Nat) (previousTimestamp previousPrice : Option Int)
    (row : TickWireRow) : Except RawDecodedError (Int × Int × P) :=
  match addDelta previousTimestamp row.timestamp with
  | none => .error ⟨"tick row " ++ toString index ++ " timestamp overflows"⟩
  | some timestamp =>
    match addDelta previousPrice row.tick with
    | none => .error ⟨"tick row " ++ toString index ++ " price overflows"⟩
    | some rawPrice =>
      if timestamp < 0 ∨ rawPrice ≤ 0 ∨ previousTimestamp.any (· ≤ timestamp) = true then
        .error ⟨"tick row " ++ toString index ++ " violates exact newest-first delta contract"⟩
      else if validPrice (convertPrice rawPrice) then
        .ok (timestamp, rawPrice, convertPrice rawPrice)
      else .error ⟨"tick row " ++ toString index ++ " produces invalid exact price"⟩

def decodeTickWire (rows : List TickWireRow) :
    Except RawDecodedError (List (DecodedCTraderTick P)) :=
  if rows.isEmpty then .error ⟨"raw cTrader tick page contains no rows"⟩
  else (decodeRows (decodeWireRow convertPrice validPrice) 0 none none [] rows).map List.reverse

end Decoders

/-- The check of `capture_quote_pages` on neighbouring ticks of a page. -/
def strictlyAscending : List Int → Bool
  | first :: second :: rest => first < second && strictlyAscending (second :: rest)
  | _ => true

end Neoethos
