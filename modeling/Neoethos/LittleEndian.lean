import Mathlib.Algebra.Order.Ring.Nat
import Mathlib.Data.List.Basic
import Mathlib.Tactic.Common

/-! Fixed-width little-endian numbers in a byte list. -/

namespace LittleEndian

/-- The bytes of a number, the lowest first; what does not fit the width is dropped. -/
def encode : Nat → Nat → List UInt8
  | 0, _ => []
  | w + 1, n => UInt8.ofNat n :: encode w (n / 256)

def decode : List UInt8 → Nat
  | [] => 0
  | b :: bs => b.toNat + 256 * decode bs

def slice (bytes : List UInt8) (lower upper : Nat) : List UInt8 :=
  (bytes.drop lower).take (upper - lower)

def read (bytes : List UInt8) (start width : Nat) : Nat :=
  decode (slice bytes start (start + width))

@[simp] theorem length_encode (w n : Nat) : (encode w n).length = w := by
  induction w generalizing n with
  | zero => rfl
  | succ w ih => simp [encode, ih]

theorem decode_encode {w n : Nat} (h : n < 256 ^ w) : decode (encode w n) = n := by
  induction w generalizing n with
  | zero =>
    have hn : n = 0 := by simpa using h
    rw [hn]
    rfl
  | succ w ih =>
    have hdiv : n / 256 < 256 ^ w := by
      rw [Nat.pow_succ] at h
      omega
    have hbyte : (UInt8.ofNat n).toNat = n % 256 := UInt8.toNat_ofNat'
    rw [encode, decode, ih hdiv, hbyte]
    omega

theorem slice_append {bytes front part back : List UInt8} (hbytes : bytes = front ++ part ++ back)
    {lower upper : Nat} (hlower : lower = front.length) (hupper : upper = lower + part.length) :
    slice bytes lower upper = part := by
  have hdrop : bytes.drop lower = part ++ back := by
    rw [hbytes, hlower, List.append_assoc, List.drop_left]
  have hwidth : upper - lower = part.length := by omega
  rw [slice, hdrop, hwidth, List.take_left]

theorem read_append {bytes front back : List UInt8} {w n start : Nat}
    (hbytes : bytes = front ++ encode w n ++ back) (hstart : start = front.length)
    (hn : n < 256 ^ w) : read bytes start w = n := by
  rw [read, slice_append hbytes hstart (by rw [length_encode]), decode_encode hn]

def encodeFields (fields : List (Nat × Nat)) : List UInt8 :=
  fields.flatMap fun field => encode field.1 field.2

theorem length_encodeFields (fields : List (Nat × Nat)) :
    (encodeFields fields).length = (fields.map Prod.fst).sum := by
  induction fields with
  | nil => rfl
  | cons field fields ih =>
    simp only [encodeFields, List.flatMap_cons, List.length_append, length_encode, List.map_cons,
      List.sum_cons]
    rw [← ih]
    rfl

theorem read_field (before : List (Nat × Nat)) {after : List (Nat × Nat)}
    {bytes front back : List UInt8} {w n start : Nat}
    (hbytes : bytes = front ++ encodeFields (before ++ (w, n) :: after) ++ back)
    (hstart : start = front.length + (before.map Prod.fst).sum) (hn : n < 256 ^ w) :
    read bytes start w = n := by
  have hpart : bytes = (front ++ encodeFields before) ++ encode w n ++
      (encodeFields after ++ back) := by
    rw [hbytes]
    simp only [encodeFields, List.flatMap_append, List.flatMap_cons, List.append_assoc]
  apply read_append hpart _ hn
  rw [List.length_append, length_encodeFields, hstart]

theorem read_flatMap {bytes front back : List UInt8} {w start : Nat} {ns : List Nat}
    (hbytes : bytes = front ++ ns.flatMap (encode w) ++ back) (hstart : start = front.length)
    (hns : ∀ n ∈ ns, n < 256 ^ w) :
    (List.range ns.length).map (fun i => read bytes (start + i * w) w) = ns := by
  induction ns generalizing front start with
  | nil => rfl
  | cons n ns ih =>
    have hsame : bytes = front ++ encode w n ++ (ns.flatMap (encode w) ++ back) := by
      rw [hbytes, List.flatMap_cons]
      simp only [List.append_assoc]
    have hhead := read_append hsame hstart (hns n List.mem_cons_self)
    have hnext : start + w = (front ++ encode w n).length := by
      rw [List.length_append, length_encode, hstart]
    have htail := ih (by rw [hsame]; simp only [List.append_assoc]) hnext
      fun m hm => hns m (List.mem_cons_of_mem _ hm)
    rw [List.length_cons, List.range_succ_eq_map, List.map_cons, List.map_map]
    congr 1
    · rw [Nat.zero_mul, Nat.add_zero]
      exact hhead
    · calc
        _ = (List.range ns.length).map (fun i => read bytes (start + w + i * w) w) := by
          apply List.map_congr_left
          intro i _
          have hshift : start + (i + 1) * w = start + w + i * w := by
            rw [Nat.add_mul, Nat.one_mul]
            omega
          simp only [Function.comp_apply, Nat.succ_eq_add_one, hshift]
        _ = ns := htail

end LittleEndian
