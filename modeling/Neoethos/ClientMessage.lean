import Mathlib.Algebra.Order.Ring.Nat
import Neoethos.BrokerPartition

/-! The `clientMsgId` of an exchange: the namespace of the adapter, a counter and a label. -/

namespace Neoethos

/-- The lowest `width` hexadecimal digits of a number, in lower case. -/
def hexDigits : Nat → Nat → List Char
  | 0, _ => []
  | width + 1, n => hexDigits width (n / 16) ++ [Nat.digitChar (n % 16)]

theorem length_hexDigits (width n : Nat) : (hexDigits width n).length = width := by
  induction width generalizing n with
  | zero => rfl
  | succ width ih => simp [hexDigits, ih]

theorem digitChar_inj :
    ∀ a < 16, ∀ b < 16, Nat.digitChar a = Nat.digitChar b → a = b := by
  decide

theorem utf8Size_digitChar : ∀ d < 16, (Nat.digitChar d).utf8Size = 1 := by
  decide

theorem utf8ByteSize_hexDigits (width n : Nat) :
    (String.ofList (hexDigits width n)).utf8ByteSize = width := by
  induction width generalizing n with
  | zero => rfl
  | succ width ih =>
    have hdigit := utf8Size_digitChar (n % 16) (Nat.mod_lt n (by decide))
    unfold hexDigits
    rw [String.ofList_append, String.utf8ByteSize_append, ih]
    simp [hdigit]

theorem hexDigits_inj {width a b : Nat} (ha : a < 16 ^ width) (hb : b < 16 ^ width)
    (h : hexDigits width a = hexDigits width b) : a = b := by
  induction width generalizing a b with
  | zero =>
    rw [Nat.pow_zero] at ha hb
    omega
  | succ width ih =>
    obtain ⟨hinit, hlast⟩ := List.append_inj' h rfl
    have hdigit := digitChar_inj _ (Nat.mod_lt a (by decide)) _ (Nat.mod_lt b (by decide))
      (List.singleton_inj.mp hlast)
    have hrest := ih (Nat.div_lt_of_lt_mul (by rw [Nat.pow_succ'] at ha; exact ha))
      (Nat.div_lt_of_lt_mul (by rw [Nat.pow_succ'] at hb; exact hb)) hinit
    omega

def isNamespaceChar (c : Char) : Bool := c.isAlphanum || c = '-' || c = '_' || c = '.'

/-- `validate_client_message_namespace`. -/
def validateClientMessageNamespace {P : Type*} (text : String) : Except (CaptureError P) Unit :=
  Fallible.refuse (text = "" ∨ 80 < text.utf8ByteSize ∨ text ≠ trim text ∨
      text.toList.all isNamespaceChar = false)
    (.bail "cTrader clientMsgId namespace must be a bounded non-empty ASCII token")

/-- The namespace of an adapter; the constructor of the adapter refuses any other text. -/
structure ClientMessageNamespace where
  text : String
  valid : validateClientMessageNamespace (P := Empty) text = .ok ()

namespace ClientMessageNamespace

variable (ns : ClientMessageNamespace)

/-- The format of `next_client_msg_id`. -/
def msgId (sequence : Nat) (label : String) : String :=
  ns.text ++ "-" ++ String.ofList (hexDigits 16 sequence) ++ "-" ++ label

/-- `next_client_msg_id`: the identifier, and the counter after it. -/
def nextClientMsgId {P : Type*} (sequence : Nat) (label : String) :
    Except (CaptureError P) (String × Nat) :=
  if sequenceMax < sequence + 1 then .error (.bail "cTrader clientMsgId sequence overflow")
  else .ok (ns.msgId sequence label, sequence + 1)

theorem msgId_inj {a b : Nat} (ha : a ≤ sequenceMax) (hb : b ≤ sequenceMax) {label : String}
    (h : ns.msgId a label = ns.msgId b label) : a = b := by
  have hlists := congrArg String.toList h
  simp only [msgId, String.toList_append, String.toList_ofList, List.append_assoc,
    List.append_cancel_left_eq] at hlists
  have hdigits := (List.append_inj hlists (by simp [length_hexDigits])).1
  unfold sequenceMax at ha hb
  exact hexDigits_inj (by omega) (by omega) hdigits

end ClientMessageNamespace

/-- Letters, digits and the punctuation of an identifier lie in a range without white space
and without control characters. -/
theorem plain_of_bounds {c : Char} (h : 0x2d ≤ c.toNat ∧ c.toNat ≤ 0x7a) :
    isWhiteSpace c = false ∧ isControl c = false := by
  unfold isWhiteSpace isControl
  constructor
  · simp
    omega
  · simp
    omega

theorem bounds_of_isNamespaceChar {c : Char} (h : isNamespaceChar c = true) :
    0x2d ≤ c.toNat ∧ c.toNat ≤ 0x7a := by
  unfold isNamespaceChar Char.isAlphanum Char.isAlpha Char.isUpper Char.isLower Char.isDigit at h
  simp [UInt32.le_iff_toNat_le] at h
  rcases h with ((halnum | rfl) | rfl) | rfl
  · omega
  · decide
  · decide
  · decide

theorem trim_of_ends {text : String} {first last : Char} (hfirst : text.toList.head? = some first)
    (hlast : text.toList.getLast? = some last) (hf : isWhiteSpace first = false)
    (hl : isWhiteSpace last = false) : trim text = text := by
  have hhead : text.toList.dropWhile isWhiteSpace = text.toList := by
    cases htext : text.toList with
    | nil => rfl
    | cons c rest =>
      rw [htext] at hfirst
      obtain rfl := Option.some.inj hfirst
      rw [List.dropWhile_cons_of_neg (by simp [hf])]
  have htail : text.toList.reverse.dropWhile isWhiteSpace = text.toList.reverse := by
    cases htext : text.toList.reverse with
    | nil => rfl
    | cons c rest =>
      have hc : text.toList.getLast? = some c := by
        rw [← List.head?_reverse, htext]
        rfl
      rw [hlast] at hc
      obtain rfl := Option.some.inj hc
      rw [List.dropWhile_cons_of_neg (by simp [hl])]
  unfold trim
  rw [hhead, htail, List.reverse_reverse, String.ofList_toList]

theorem bounds_of_mem_hexDigits {width n : Nat} {c : Char} (h : c ∈ hexDigits width n) :
    0x2d ≤ c.toNat ∧ c.toNat ≤ 0x7a := by
  induction width generalizing n with
  | zero => cases h
  | succ width ih =>
    rcases List.mem_append.mp h with hinit | hlast
    · exact ih hinit
    · obtain rfl := List.mem_singleton.mp hlast
      have hdigits : ∀ d < 16, 0x2d ≤ (Nat.digitChar d).toNat ∧ (Nat.digitChar d).toNat ≤ 0x7a := by
        decide
      exact hdigits (n % 16) (Nat.mod_lt n (by decide))

namespace ClientMessageNamespace

variable (ns : ClientMessageNamespace)

theorem text_valid : ns.text.toList ≠ [] ∧ ns.text.utf8ByteSize ≤ 80 ∧
    ∀ c ∈ ns.text.toList, 0x2d ≤ c.toNat ∧ c.toNat ≤ 0x7a := by
  have hvalid := Fallible.refuse_ok_iff.mp ns.valid
  simp only [not_or, not_lt, Bool.not_eq_false, List.all_eq_true] at hvalid
  obtain ⟨hne, hsize, -, hchars⟩ := hvalid
  refine ⟨fun hnil => hne (String.toList_eq_nil_iff.mp hnil), hsize, fun c hc => ?_⟩
  exact bounds_of_isNamespaceChar (hchars c hc)

theorem tickMsgId_bounds (sequence : Nat) :
    ∀ c ∈ (ns.msgId sequence "ticks").toList, 0x2d ≤ c.toNat ∧ c.toNat ≤ 0x7a := by
  obtain ⟨-, -, hchars⟩ := ns.text_valid
  have hticks : ∀ c ∈ "-ticks".toList, 0x2d ≤ c.toNat ∧ c.toNat ≤ 0x7a := by
    simp
  intro c hc
  simp only [msgId, String.toList_append, String.toList_ofList, List.mem_append, or_assoc] at hc
  rcases hc with hc | hc | hc | hc | hc
  · exact hchars c hc
  · exact hticks c (by simpa using Or.inl hc)
  · exact bounds_of_mem_hexDigits hc
  · exact hticks c (by simpa using Or.inl hc)
  · exact hticks c (by simpa using Or.inr hc)

/-- An identifier of a tick exchange passes the check of a retained page. -/
theorem tickMsgId_valid (sequence : Nat) :
    trim (ns.msgId sequence "ticks") = ns.msgId sequence "ticks" ∧
      ns.msgId sequence "ticks" ≠ "" ∧ (ns.msgId sequence "ticks").utf8ByteSize ≤ 160 ∧
      (ns.msgId sequence "ticks").toList.any isControl = false := by
  obtain ⟨hne, hsize, -⟩ := ns.text_valid
  have hbounds := ns.tickMsgId_bounds sequence
  have hlist : (ns.msgId sequence "ticks").toList ≠ [] := by simp [msgId]
  refine ⟨?_, ?_, ?_, ?_⟩
  · have hfirst := List.head?_eq_some_head hlist
    have hlast := List.getLast?_eq_some_getLast hlist
    exact trim_of_ends hfirst hlast (plain_of_bounds (hbounds _ (List.head_mem hlist))).1
      (plain_of_bounds (hbounds _ (List.getLast_mem hlist))).1
  · intro hempty
    exact hlist (String.toList_eq_nil_iff.mpr hempty)
  · simp only [msgId, String.utf8ByteSize_append, utf8ByteSize_hexDigits]
    have hdash : "-".utf8ByteSize = 1 := rfl
    have hlabel : "ticks".utf8ByteSize = 5 := rfl
    omega
  · rw [List.any_eq_false]
    intro c hc
    rw [(plain_of_bounds (hbounds c hc)).2]
    exact Bool.false_ne_true

end ClientMessageNamespace

end Neoethos
