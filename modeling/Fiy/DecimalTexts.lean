import Mathlib.Algebra.Group.Nat.Defs
import Fiy.ByteStrings

/-!
# Numbers written out in decimal

What `std::to_string` writes for an unsigned value, seen as a text: its bytes are
digits, one number has one text, and every single digit is the text of a number.
-/

namespace DecimalTexts

open ByteStrings

/-- `'/'`, which no number contains. -/
abbrev slash : Byte := 47

theorem decimal_of_lt_ten {n : Nat} (small : n < 10) : decimal n = [n.digitChar.toUInt8] := by
  rw [decimal, Nat.toDigits_of_lt_base small]
  rfl

theorem decimal_ne_nil (n : Nat) : decimal n ≠ [] := by
  simp [decimal, Nat.toDigits_ne_nil]

theorem decimal_length_pos (n : Nat) : 0 < (decimal n).length :=
  List.length_pos_iff.mpr (decimal_ne_nil n)

theorem decimal_length_one_iff (n : Nat) : (decimal n).length = 1 ↔ n < 10 := by
  have positive := decimal_length_pos n
  have bound : (Nat.toDigits 10 n).length ≤ 1 ↔ n < 10 ^ 1 :=
    Nat.length_toDigits_le_iff (by omega) (by omega)
  simp only [decimal, List.length_map] at *
  omega

theorem digit_bounds {c : Char} (digit : c.isDigit = true) :
    48 ≤ c.toNat ∧ c.toNat ≤ 57 := by
  simp only [Char.isDigit, Bool.and_eq_true, decide_eq_true_eq] at digit
  exact ⟨UInt32.le_iff_toNat_le.mp digit.1, UInt32.le_iff_toNat_le.mp digit.2⟩

theorem toNat_toUInt8 {c : Char} (small : c.toNat < 256) : c.toUInt8.toNat = c.toNat := by
  rw [Char.toUInt8, UInt32.toNat_toUInt8]
  exact Nat.mod_eq_of_lt small

/-- A character that is a digit is one as a byte. -/
theorem isDigit_toUInt8 {c : Char} (digit : c.isDigit = true) : isDigit c.toUInt8 = true := by
  obtain ⟨low, high⟩ := digit_bounds digit
  simp only [isDigit, Bool.and_eq_true, decide_eq_true_eq, UInt8.le_iff_toNat_le,
    toNat_toUInt8 (show c.toNat < 256 by omega)]
  exact ⟨low, high⟩

theorem isDigit_of_mem_decimal {n : Nat} {b : Byte} (hb : b ∈ decimal n) :
    isDigit b = true := by
  obtain ⟨c, hc, rfl⟩ := List.mem_map.mp hb
  exact isDigit_toUInt8 (Nat.isDigit_of_mem_toDigits (by omega) (by omega) hc)

/-- The number a text of digits stands for. -/
def ofDecimal (t : Text) : Nat := t.foldl (fun acc b => 10 * acc + (b.toNat - 48)) 0

theorem foldl_digits (cs : List Char) (digits : ∀ c ∈ cs, c.isDigit = true) (start : Nat) :
    (cs.map Char.toUInt8).foldl (fun acc b => 10 * acc + (b.toNat - 48)) start =
      Nat.ofDigitChars 10 cs start := by
  induction cs generalizing start with
  | nil => rfl
  | cons c cs ih =>
    have bounds := digit_bounds (digits c List.mem_cons_self)
    have value := toNat_toUInt8 (show c.toNat < 256 by omega)
    rw [List.map_cons, List.foldl_cons, Nat.ofDigitChars_cons, value]
    exact ih (fun d hd => digits d (List.mem_cons_of_mem c hd)) _

@[simp] theorem ofDecimal_decimal (n : Nat) : ofDecimal (decimal n) = n := by
  rw [ofDecimal, decimal, foldl_digits _ (fun c hc =>
    Nat.isDigit_of_mem_toDigits (by omega) (by omega) hc)]
  exact Nat.ofDigitChars_ten_toDigits

theorem decimal_injective : Function.Injective decimal := by
  intro m n same
  rw [← ofDecimal_decimal m, same, ofDecimal_decimal]

/-- Every digit is written for a number below ten. -/
theorem exists_decimal {b : Byte} (digit : isDigit b = true) :
    ∃ n < 10, decimal n = [b] := by
  have bounds : 48 ≤ b.toNat ∧ b.toNat ≤ 57 := by
    simpa [isDigit, UInt8.le_iff_toNat_le] using digit
  refine ⟨b.toNat - 48, by omega, ?_⟩
  rw [decimal_of_lt_ten (by omega), List.singleton_inj]
  have char : (b.toNat - 48).digitChar.toNat = b.toNat := by
    rw [Nat.toNat_digitChar_of_lt_ten (by omega)]
    omega
  apply UInt8.toNat_inj.mp
  rw [toNat_toUInt8 (by omega), char]

theorem slash_notMem_of_digits {t : Text} (digits : ∀ b ∈ t, isDigit b = true) :
    slash ∉ t := by
  intro found
  have := digits slash found
  revert this
  decide

/-! ## Reading digits back -/

theorem digitVal_of_isDigit {b : Byte} (digit : isDigit b = true) :
    digitVal b = some (b.toNat - 48) ∧ b.toNat - 48 < 10 := by
  simp only [isDigit, Bool.and_eq_true, decide_eq_true_eq] at digit
  have bounds : 48 ≤ b.toNat ∧ b.toNat ≤ 57 := by
    simpa [UInt8.le_iff_toNat_le] using digit
  exact ⟨if_pos digit, by omega⟩

theorem leadingDigits_of_digits {t : Text} (digits : ∀ b ∈ t, isDigit b = true) :
    leadingDigits 10 t = t.map fun b => b.toNat - 48 := by
  induction t with
  | nil => rfl
  | cons b t ih =>
    obtain ⟨value, small⟩ := digitVal_of_isDigit (digits b List.mem_cons_self)
    simp only [leadingDigits, value, if_pos small, List.map_cons]
    rw [ih fun c hc => digits c (List.mem_cons_of_mem b hc)]

theorem foldl_leadingDigits (t : Text) (start : Nat) :
    (t.map fun b => b.toNat - 48).foldl (fun acc d => acc * 10 + d) start =
      t.foldl (fun acc b => 10 * acc + (b.toNat - 48)) start := by
  induction t generalizing start with
  | nil => rfl
  | cons b t ih =>
    rw [List.map_cons, List.foldl_cons, List.foldl_cons, ih, Nat.mul_comm]

theorem foldl_lt_pow {t : Text} (digits : ∀ b ∈ t, isDigit b = true) {start bound : Nat}
    (small : start < bound) :
    t.foldl (fun acc b => 10 * acc + (b.toNat - 48)) start < bound * 10 ^ t.length := by
  induction t generalizing start bound with
  | nil => simpa using small
  | cons b t ih =>
    have value := (digitVal_of_isDigit (digits b List.mem_cons_self)).2
    have next := ih (fun c hc => digits c (List.mem_cons_of_mem b hc))
      (show 10 * start + (b.toNat - 48) < bound * 10 by omega)
    rw [List.foldl_cons, List.length_cons, Nat.pow_succ']
    rwa [Nat.mul_assoc] at next

theorem ofDecimal_lt_pow {t : Text} (digits : ∀ b ∈ t, isDigit b = true) :
    ofDecimal t < 10 ^ t.length := by
  have bound := foldl_lt_pow digits (show 0 < 1 from Nat.one_pos)
  rwa [Nat.one_mul] at bound

/-- A text of digits is read back in base ten while it fits. -/
theorem leadingDigits_value {t : Text} (digits : ∀ b ∈ t, isDigit b = true) (some_ : t ≠ []) :
    leadingDigits 10 t ≠ [] ∧
      (leadingDigits 10 t).foldl (fun acc d => acc * 10 + d) 0 = ofDecimal t := by
  rw [leadingDigits_of_digits digits]
  exact ⟨by simpa using some_, foldl_leadingDigits t 0⟩

theorem fromChars_of_digits {t : Text} (digits : ∀ b ∈ t, isDigit b = true) (some_ : t ≠ [])
    (fits : ofDecimal t ≤ 9223372036854775807) : fromChars t 10 = some (ofDecimal t : Int) := by
  have unsigned : ¬ t.head? = some 45 := by
    intro minus
    have := digits 45 (List.mem_of_head? minus)
    revert this
    decide
  obtain ⟨listed, value⟩ := leadingDigits_value digits some_
  simp only [fromChars, if_neg unsigned, value, if_neg listed]
  rw [if_pos ⟨by omega, by omega⟩]

/-- A digit is no blank and no sign. -/
theorem solid_of_isDigit {b : Byte} (digit : isDigit b = true) :
    isSpace b = false ∧ b ≠ 45 ∧ b ≠ 43 := by
  simp only [isDigit, Bool.and_eq_true, decide_eq_true_eq, UInt8.le_iff_toNat_le,
    UInt8.reduceToNat] at digit
  simp only [isSpace, Bool.or_eq_false_iff, Bool.and_eq_false_iff, decide_eq_false_iff_not,
    ne_eq, UInt8.le_iff_toNat_le, ← UInt8.toNat_inj, UInt8.reduceToNat]
  omega

/-- What is no decimal digit ends the number. -/
theorem leadingDigits_of_other {t : Text} (other : ∀ b ∈ t.head?, isDigit b = false) :
    leadingDigits 10 t = [] := by
  cases t with
  | nil => rfl
  | cons b t =>
    have no_digit := other b rfl
    simp only [isDigit, Bool.and_eq_false_iff, decide_eq_false_iff_not] at no_digit
    have range : ¬ (48 ≤ b ∧ b ≤ 57) := fun digit => no_digit.elim (· digit.1) (· digit.2)
    rw [leadingDigits, digitVal, if_neg range]
    by_cases small : 97 ≤ b ∧ b ≤ 122
    · rw [if_pos small]
      refine if_neg ?_
      have low := UInt8.le_iff_toNat_le.mp small.1
      simp only [UInt8.reduceToNat] at low
      omega
    · rw [if_neg small]
      by_cases large : 65 ≤ b ∧ b ≤ 90
      · rw [if_pos large]
        refine if_neg ?_
        have low := UInt8.le_iff_toNat_le.mp large.1
        simp only [UInt8.reduceToNat] at low
        omega
      · rw [if_neg large]

theorem leadingDigits_front {digits rest : Text} (decimal : ∀ b ∈ digits, isDigit b = true)
    (other : ∀ b ∈ rest.head?, isDigit b = false) :
    leadingDigits 10 (digits ++ rest) = leadingDigits 10 digits := by
  induction digits with
  | nil => exact leadingDigits_of_other other
  | cons b digits ih =>
    obtain ⟨value, small⟩ := digitVal_of_isDigit (decimal b List.mem_cons_self)
    rw [List.cons_append, leadingDigits, leadingDigits, value,
      ih fun c mem => decimal c (List.mem_cons_of_mem b mem)]

/-- `strtol` reads the digits in front of something else. -/
theorem strtolValue_front {digits rest : Text} (decimal : ∀ b ∈ digits, isDigit b = true)
    (some_ : digits ≠ []) (other : ∀ b ∈ rest.head?, isDigit b = false) :
    strtolValue (digits ++ rest) = some (ofDecimal digits : Int) := by
  obtain ⟨listed, value⟩ := leadingDigits_value decimal some_
  have front := leadingDigits_front decimal other
  obtain ⟨b, digits, rfl⟩ := List.exists_cons_of_ne_nil some_
  obtain ⟨solid, minus, plus⟩ := solid_of_isDigit (decimal b List.mem_cons_self)
  have kept : (b :: digits ++ rest).dropWhile isSpace = b :: digits ++ rest := by
    rw [List.cons_append, List.dropWhile_cons_of_neg (by simp [solid])]
  have unsigned : ¬ ((b :: digits ++ rest).head? = some 45 ∨
      (b :: digits ++ rest).head? = some 43) := by
    simp [minus, plus]
  have positive : ¬ (b :: digits ++ rest).head? = some 45 := by simp [minus]
  simp only [strtolValue, kept, if_neg unsigned, front, value, if_neg listed, if_neg positive]

/-- And a text of digits. -/
theorem strtolValue_of_digits {t : Text} (digits : ∀ b ∈ t, isDigit b = true) (some_ : t ≠ []) :
    strtolValue t = some (ofDecimal t : Int) := by
  have whole := @strtolValue_front t [] digits some_ fun b none_ =>
    absurd none_ (Option.not_mem_none b)
  rwa [List.append_nil] at whole

/-- A blank in front of a number is skipped. -/
theorem strtolValue_blank (t : Text) : strtolValue (32 :: t) = strtolValue t := rfl

/-- A written number is read back. -/
theorem strtolValue_decimalInt (n : Int) : strtolValue (decimalInt n) = some n := by
  have digits := fun (b : Byte) => isDigit_of_mem_decimal (n := n.natAbs) (b := b)
  have some_ := decimal_ne_nil n.natAbs
  by_cases negative : n < 0
  · obtain ⟨listed, value⟩ := leadingDigits_value digits some_
    have kept : ((45 : Byte) :: decimal n.natAbs).dropWhile isSpace = 45 :: decimal n.natAbs := rfl
    rw [decimalInt, if_pos negative, strtolValue, kept]
    simp only [List.head?_cons, true_or, if_true, List.tail_cons, value, if_neg listed,
      ofDecimal_decimal, Option.some.injEq]
    omega
  · rw [decimalInt, if_neg negative, strtolValue_of_digits digits some_, ofDecimal_decimal,
      Option.some.injEq]
    omega

end DecimalTexts
