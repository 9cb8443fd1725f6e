import Mathlib
import Fiy.ContactsMod

/-!
# The base64 library

`encode_into` and `decode_into` of the library that the pictures are read with. Both work on
groups of bytes, through tables that have the digits, or their bits, at the places that a group
needs; what decides whether a text is refused is one comparison for each group. The Basic
credentials of a request are read by another decoder, which is compared here.
-/

namespace Base64Texts

open ByteStrings HostEnvironment ModConnectors ModLibrary ContactCards ContactsStore ContactsMod

/-! ## Tables -/

def alphabet : Text := "ABCDEFGHIJKLMNOPQRSTUVWXYZabcdefghijklmnopqrstuvwxyz0123456789+/"

/-- The digit of six bits. -/
def digit (value : Nat) : Byte := alphabet.getD value 0

/-- `encode_table_0` at a byte -/
def encodeTable0 (t : Nat) : Byte := digit (t >>> 2)

/-- `encode_table_1` at a byte -/
def encodeTable1 (t : Nat) : Byte := digit (t &&& 63)

def badChar : Nat := 0x01FFFFFF

/-- A table has the bits of a digit at their place, and the same number for all that is none. -/
def decodeTable (place : Nat → Nat) (t : Byte) : Nat := ((base64Val t).map place).getD badChar

/-- `decode_table_0` -/
def decodeTable0 : Byte → Nat := decodeTable fun v => v <<< 2

/-- `decode_table_1` -/
def decodeTable1 : Byte → Nat := decodeTable fun v => (v &&& 15) <<< 12 ||| v >>> 4

/-- `decode_table_2` -/
def decodeTable2 : Byte → Nat := decodeTable fun v => (v &&& 3) <<< 22 ||| (v >>> 2) <<< 8

/-- `decode_table_3` -/
def decodeTable3 : Byte → Nat := decodeTable fun v => v <<< 16

example : decodeTable1 122 = 0x3003 ∧ decodeTable2 122 = 0xC00C00 ∧ decodeTable3 61 = badChar := by
  decide

/-- The bytes of `temp`, the lowest first. -/
def tempBytes (temp : Nat) : Text :=
  [UInt8.ofNat (temp &&& 255), UInt8.ofNat (temp >>> 8 &&& 255), UInt8.ofNat (temp >>> 16 &&& 255)]

/-! ## Encoding -/

/-- The characters that are written, without the padding that is there before. -/
def encodeGroups : Text → Text
  | t1 :: t2 :: t3 :: rest =>
    encodeTable0 t1.toNat ::
      encodeTable1 ((t1.toNat &&& 3) <<< 4 ||| t2.toNat >>> 4 &&& 15) ::
      encodeTable1 ((t2.toNat &&& 15) <<< 2 ||| t3.toNat >>> 6 &&& 3) ::
      encodeTable1 t3.toNat :: encodeGroups rest
  | [t1, t2] =>
    [encodeTable0 t1.toNat, encodeTable1 ((t1.toNat &&& 3) <<< 4 ||| t2.toNat >>> 4 &&& 15),
      encodeTable1 ((t2.toNat &&& 15) <<< 2)]
  | [t1] => [encodeTable0 t1.toNat, encodeTable1 ((t1.toNat &&& 3) <<< 4)]
  | [] => []

def encodedSize (size : Nat) : Nat := (size / 3 + if 0 < size % 3 then 1 else 0) <<< 2

/-- `encode_into` -/
def encodeInto (data : Text) : Text :=
  let written := encodeGroups data
  written ++ List.replicate (encodedSize data.length - written.length) 61

/-! ## Decoding -/

inductive DecodeError
  | size
  | padding
  | character
  deriving DecidableEq, Repr

/-- What is read of a group; it is refused when a table has said so. -/
def group (temp count : Nat) : Except DecodeError Text :=
  if badChar ≤ temp then .error .character else .ok ((tempBytes temp).take count)

/-- The last group, which is shorter when there is padding. -/
def decodeLast (numPadding : Nat) (bytes : Text) : Except DecodeError Text :=
  match numPadding, bytes with
  | 1, t1 :: t2 :: t3 :: _ => group (decodeTable0 t1 ||| decodeTable1 t2 ||| decodeTable2 t3) 2
  | 2, t1 :: t2 :: _ => group (decodeTable0 t1 ||| decodeTable1 t2) 1
  | _, _ => .ok []

/-- The loop, with the number of groups that are left. -/
def decodeGroups (numPadding : Nat) : Nat → Text → Except DecodeError Text
  | i + 1, t1 :: t2 :: t3 :: t4 :: bytes => do
    let first ← group
      (decodeTable0 t1 ||| decodeTable1 t2 ||| decodeTable2 t3 ||| decodeTable3 t4) 3
    return first ++ (← decodeGroups numPadding i bytes)
  | _, bytes => decodeLast numPadding bytes

/-- `decode_into` -/
def decodeInto (text : Text) : Except DecodeError Text :=
  if text = [] then .ok []
  else if text.length &&& 3 ≠ 0 then .error .size
  else
    let numPadding := (text.drop (text.length - 4)).count 61
    if numPadding > 2 then .error .padding
    else decodeGroups numPadding (text.length >>> 2 - if numPadding ≠ 0 then 1 else 0) text

example : encodeInto (lit "hi") = lit "aGk=" ∧ decodeInto (lit "aGk=") = .ok (lit "hi") := by decide

/-! ## The bits of a group -/

theorem mask (x : Nat) : x &&& 3 = x % 4 ∧ x &&& 15 = x % 16 ∧ x &&& 63 = x % 64 ∧
    x &&& 255 = x % 256 :=
  ⟨Nat.and_two_pow_sub_one_eq_mod x 2, Nat.and_two_pow_sub_one_eq_mod x 4,
    Nat.and_two_pow_sub_one_eq_mod x 6, Nat.and_two_pow_sub_one_eq_mod x 8⟩

theorem or_byte (a b k : Nat) :
    (a ||| b) / 2 ^ k % 256 = a / 2 ^ k % 256 ||| b / 2 ^ k % 256 := by
  rw [Nat.or_div_two_pow]
  exact Nat.or_mod_two_pow (n := 8)

theorem or_low {a b : Nat} (k : Nat) (low : b < 2 ^ k) : 2 ^ k * a ||| b = 2 ^ k * a + b :=
  (Nat.two_pow_add_eq_or_of_lt low a).symm

/-- Where the tables put the bits of four digits. -/
theorem tempBytes_group {v1 v2 v3 v4 : Nat} (h1 : v1 < 64) (h2 : v2 < 64) (h3 : v3 < 64)
    (h4 : v4 < 64) :
    tempBytes (v1 <<< 2 ||| ((v2 &&& 15) <<< 12 ||| v2 >>> 4) |||
        ((v3 &&& 3) <<< 22 ||| (v3 >>> 2) <<< 8) ||| v4 <<< 16) =
      [UInt8.ofNat (v1 * 4 + v2 / 16), UInt8.ofNat (v2 % 16 * 16 + v3 / 4),
        UInt8.ofNat (v3 % 4 * 64 + v4)] := by
  simp only [tempBytes, mask, Nat.shiftLeft_eq, Nat.shiftRight_eq_div_pow, List.cons.injEq,
    and_true]
  refine ⟨congrArg UInt8.ofNat ?_, congrArg UInt8.ofNat ?_, congrArg UInt8.ofNat ?_⟩
  · have parts : v1 * 2 ^ 2 % 256 = 2 ^ 2 * v1 ∧ v2 % 16 * 2 ^ 12 % 256 = 0 ∧
        v2 / 2 ^ 4 % 256 = v2 / 16 ∧ v3 % 4 * 2 ^ 22 % 256 = 0 ∧ v3 / 2 ^ 2 * 2 ^ 8 % 256 = 0 ∧
        v4 * 2 ^ 16 % 256 = 0 := by omega
    have or_mod (a b : Nat) : (a ||| b) % 256 = a % 256 ||| b % 256 := Nat.or_mod_two_pow (n := 8)
    simp only [or_mod, parts, Nat.or_zero, Nat.zero_or]
    rw [or_low 2 (by omega)]
    omega
  · have parts : v1 * 2 ^ 2 / 2 ^ 8 % 256 = 0 ∧ v2 % 16 * 2 ^ 12 / 2 ^ 8 % 256 = 2 ^ 4 * (v2 % 16) ∧
        v2 / 2 ^ 4 / 2 ^ 8 % 256 = 0 ∧ v3 % 4 * 2 ^ 22 / 2 ^ 8 % 256 = 0 ∧
        v3 / 2 ^ 2 * 2 ^ 8 / 2 ^ 8 % 256 = v3 / 4 ∧ v4 * 2 ^ 16 / 2 ^ 8 % 256 = 0 := by omega
    simp only [or_byte, parts, Nat.or_zero, Nat.zero_or]
    rw [or_low 4 (by omega)]
    omega
  · have parts : v1 * 2 ^ 2 / 2 ^ 16 % 256 = 0 ∧ v2 % 16 * 2 ^ 12 / 2 ^ 16 % 256 = 0 ∧
        v2 / 2 ^ 4 / 2 ^ 16 % 256 = 0 ∧ v3 % 4 * 2 ^ 22 / 2 ^ 16 % 256 = 2 ^ 6 * (v3 % 4) ∧
        v3 / 2 ^ 2 * 2 ^ 8 / 2 ^ 16 % 256 = 0 ∧ v4 * 2 ^ 16 / 2 ^ 16 % 256 = v4 := by omega
    simp only [or_byte, parts, Nat.or_zero, Nat.zero_or]
    rw [or_low 6 (by omega)]
    omega

theorem base64Val_all : ∀ n < 256, (base64Val (UInt8.ofNat n)).all
    (fun v => decide (v < 64 ∧ digit v = UInt8.ofNat n)) = true := by
  decide +kernel

theorem base64Val_spec {b : Byte} {v : Nat} (is_ : base64Val b = some v) : v < 64 ∧ digit v = b := by
  have all := base64Val_all b.toNat b.toNat_lt
  rw [UInt8.ofNat_toNat, is_] at all
  exact of_decide_eq_true all

theorem base64Val_digit : ∀ v < 64, base64Val (digit v) = some v := by decide +kernel

/-! ## Groups -/

section tables
variable {b : Byte} {v : Nat} {place : Nat → Nat}

theorem decodeTable_of_digit (is_ : base64Val b = some v) : decodeTable place b = place v := by
  rw [decodeTable, is_]
  rfl

theorem decodeTable_of_other (other : base64Val b = none) : decodeTable place b = badChar := by
  rw [decodeTable, other]
  rfl

end tables

theorem group_of_bad {temp count : Nat} (bad : badChar ≤ temp) :
    group temp count = .error .character := if_pos bad

theorem group_of_small {temp count : Nat} (small : temp < 2 ^ 24) :
    group temp count = .ok ((tempBytes temp).take count) := by
  rw [group, if_neg]
  simp only [badChar]
  omega

/-- The bits of a digit stay below those of the number for what is none. -/
theorem places_small {v : Nat} (small : v < 64) :
    v <<< 2 < 2 ^ 24 ∧ ((v &&& 15) <<< 12 ||| v >>> 4) < 2 ^ 24 ∧
      ((v &&& 3) <<< 22 ||| (v >>> 2) <<< 8) < 2 ^ 24 ∧ v <<< 16 < 2 ^ 24 := by
  simp only [mask, Nat.shiftLeft_eq, Nat.shiftRight_eq_div_pow]
  refine ⟨by omega, Nat.or_lt_two_pow ?_ ?_, Nat.or_lt_two_pow ?_ ?_, by omega⟩
  all_goals omega

/-- The bytes of digits, or nothing if one of them is none. -/
def plain (bytes : Text) : Except DecodeError Text :=
  if ∀ b ∈ bytes, (base64Val b).isSome then .ok (base64Groups (bytes.filterMap base64Val))
  else .error .character

theorem plain_of_digits {bytes : Text} (digits : ∀ b ∈ bytes, (base64Val b).isSome) :
    plain bytes = .ok (base64Groups (bytes.filterMap base64Val)) := if_pos digits

theorem plain_of_other {bytes : Text} {b : Byte} (listed : b ∈ bytes) (other : base64Val b = none) :
    plain bytes = .error .character := by
  rw [plain, if_neg]
  intro digits
  simpa [other] using digits b listed

theorem group4_eq (t1 t2 t3 t4 : Byte) :
    group (decodeTable0 t1 ||| decodeTable1 t2 ||| decodeTable2 t3 ||| decodeTable3 t4) 3 =
      plain [t1, t2, t3, t4] := by
  cases d1 : base64Val t1 with
  | none =>
    rw [plain_of_other (by simp) d1, decodeTable0, decodeTable_of_other d1]
    exact group_of_bad (Nat.left_le_or.trans (Nat.left_le_or.trans Nat.left_le_or))
  | some v1 =>
  cases d2 : base64Val t2 with
  | none =>
    rw [plain_of_other (by simp) d2, decodeTable1, decodeTable_of_other d2]
    exact group_of_bad (Nat.right_le_or.trans (Nat.left_le_or.trans Nat.left_le_or))
  | some v2 =>
  cases d3 : base64Val t3 with
  | none =>
    rw [plain_of_other (by simp) d3, decodeTable2, decodeTable_of_other d3]
    exact group_of_bad (Nat.right_le_or.trans Nat.left_le_or)
  | some v3 =>
  cases d4 : base64Val t4 with
  | none =>
    rw [plain_of_other (by simp) d4, decodeTable3, decodeTable_of_other d4]
    exact group_of_bad Nat.right_le_or
  | some v4 =>
  have h1 := (base64Val_spec d1).1
  have h2 := (base64Val_spec d2).1
  have h3 := (base64Val_spec d3).1
  have h4 := (base64Val_spec d4).1
  have bound := Nat.or_lt_two_pow (Nat.or_lt_two_pow (Nat.or_lt_two_pow (places_small h1).1
    (places_small h2).2.1) (places_small h3).2.2.1) (places_small h4).2.2.2
  rw [plain_of_digits (by simp [d1, d2, d3, d4])]
  simp only [decodeTable0, decodeTable1, decodeTable2, decodeTable3, decodeTable_of_digit d1,
    decodeTable_of_digit d2, decodeTable_of_digit d3, decodeTable_of_digit d4]
  rw [group_of_small bound, tempBytes_group h1 h2 h3 h4]
  simp [d1, d2, d3, d4, base64Groups]

theorem group3_eq (t1 t2 t3 : Byte) :
    group (decodeTable0 t1 ||| decodeTable1 t2 ||| decodeTable2 t3) 2 = plain [t1, t2, t3] := by
  cases d1 : base64Val t1 with
  | none =>
    rw [plain_of_other (by simp) d1, decodeTable0, decodeTable_of_other d1]
    exact group_of_bad (Nat.left_le_or.trans Nat.left_le_or)
  | some v1 =>
  cases d2 : base64Val t2 with
  | none =>
    rw [plain_of_other (by simp) d2, decodeTable1, decodeTable_of_other d2]
    exact group_of_bad (Nat.right_le_or.trans Nat.left_le_or)
  | some v2 =>
  cases d3 : base64Val t3 with
  | none =>
    rw [plain_of_other (by simp) d3, decodeTable2, decodeTable_of_other d3]
    exact group_of_bad Nat.right_le_or
  | some v3 =>
  have h1 := (base64Val_spec d1).1
  have h2 := (base64Val_spec d2).1
  have h3 := (base64Val_spec d3).1
  have bound := Nat.or_lt_two_pow (Nat.or_lt_two_pow (places_small h1).1
    (places_small h2).2.1) (places_small h3).2.2.1
  have bytes := tempBytes_group h1 h2 h3 (Nat.zero_lt_succ 63)
  rw [Nat.zero_shiftLeft, Nat.or_zero] at bytes
  rw [plain_of_digits (by simp [d1, d2, d3])]
  simp only [decodeTable0, decodeTable1, decodeTable2, decodeTable_of_digit d1,
    decodeTable_of_digit d2, decodeTable_of_digit d3]
  rw [group_of_small bound, bytes]
  simp [d1, d2, d3, base64Groups]

theorem group2_eq (t1 t2 : Byte) :
    group (decodeTable0 t1 ||| decodeTable1 t2) 1 = plain [t1, t2] := by
  cases d1 : base64Val t1 with
  | none =>
    rw [plain_of_other (by simp) d1, decodeTable0, decodeTable_of_other d1]
    exact group_of_bad Nat.left_le_or
  | some v1 =>
  cases d2 : base64Val t2 with
  | none =>
    rw [plain_of_other (by simp) d2, decodeTable1, decodeTable_of_other d2]
    exact group_of_bad Nat.right_le_or
  | some v2 =>
  have h1 := (base64Val_spec d1).1
  have h2 := (base64Val_spec d2).1
  have bound := Nat.or_lt_two_pow (places_small h1).1 (places_small h2).2.1
  have bytes := tempBytes_group h1 h2 (Nat.zero_lt_succ 63) (Nat.zero_lt_succ 63)
  simp only [Nat.zero_and, Nat.zero_shiftLeft, Nat.zero_shiftRight, Nat.or_zero] at bytes
  rw [plain_of_digits (by simp [d1, d2])]
  simp only [decodeTable0, decodeTable1, decodeTable_of_digit d1, decodeTable_of_digit d2]
  rw [group_of_small bound, bytes]
  simp [d1, d2, base64Groups]

/-! ## Texts -/

theorem plain_group (t1 t2 t3 t4 : Byte) (rest : Text) :
    plain (t1 :: t2 :: t3 :: t4 :: rest) = (do
      let first ← plain [t1, t2, t3, t4]
      return first ++ (← plain rest)) := by
  by_cases digits : ∀ b ∈ [t1, t2, t3, t4], (base64Val b).isSome
  · rw [plain_of_digits digits]
    have listed := digits
    simp only [List.forall_mem_cons, Option.isSome_iff_exists] at listed
    obtain ⟨⟨v1, d1⟩, ⟨v2, d2⟩, ⟨v3, d3⟩, ⟨v4, d4⟩, -⟩ := listed
    by_cases later : ∀ b ∈ rest, (base64Val b).isSome
    · rw [plain_of_digits later, plain_of_digits]
      · simp [d1, d2, d3, d4, base64Groups, bind, Except.bind, pure, Except.pure]
      · simp only [List.forall_mem_cons]
        simp only [List.forall_mem_cons] at digits
        exact ⟨digits.1, digits.2.1, digits.2.2.1, digits.2.2.2.1, later⟩
    · simp only [not_forall, Option.not_isSome_iff_eq_none, exists_prop] at later
      obtain ⟨b, mem, other⟩ := later
      rw [plain_of_other mem other, plain_of_other (b := b) (by simp [mem]) other]
      rfl
  · simp only [not_forall, Option.not_isSome_iff_eq_none, exists_prop] at digits
    obtain ⟨b, mem, other⟩ := digits
    have within : b ∈ t1 :: t2 :: t3 :: t4 :: rest := by
      have front : t1 :: t2 :: t3 :: t4 :: rest = [t1, t2, t3, t4] ++ rest := rfl
      rw [front]
      exact List.mem_append_left _ mem
    rw [plain_of_other mem other, plain_of_other within other]
    rfl

/-- The digits of the last group, when it is not whole. -/
def lastDigits (numPadding : Nat) : Nat := if numPadding = 0 then 0 else 4 - numPadding

theorem decodeLast_eq {numPadding : Nat} (few : numPadding ≤ 2) {bytes : Text}
    (long : lastDigits numPadding ≤ bytes.length) :
    decodeLast numPadding bytes = plain (bytes.take (lastDigits numPadding)) := by
  have cases_ : numPadding = 0 ∨ numPadding = 1 ∨ numPadding = 2 := by omega
  rcases cases_ with rfl | rfl | rfl
  · rw [lastDigits, if_pos rfl, List.take_zero, plain_of_digits (by simp), decodeLast]
    · rfl
    · simp
    · simp
  · obtain ⟨t1, t2, t3, rest, rfl⟩ : ∃ t1 t2 t3 rest, bytes = t1 :: t2 :: t3 :: rest := by
      rcases bytes with _ | ⟨t1, _ | ⟨t2, _ | ⟨t3, rest⟩⟩⟩
      · simp [lastDigits] at long
      · simp [lastDigits] at long
      · simp [lastDigits] at long
      · exact ⟨t1, t2, t3, rest, rfl⟩
    exact group3_eq t1 t2 t3
  · obtain ⟨t1, t2, rest, rfl⟩ : ∃ t1 t2 rest, bytes = t1 :: t2 :: rest := by
      rcases bytes with _ | ⟨t1, _ | ⟨t2, rest⟩⟩
      · simp [lastDigits] at long
      · simp [lastDigits] at long
      · exact ⟨t1, t2, rest, rfl⟩
    exact group2_eq t1 t2

theorem decodeGroups_eq {numPadding : Nat} (few : numPadding ≤ 2) (i : Nat) {bytes : Text}
    (long : 4 * i + lastDigits numPadding ≤ bytes.length) :
    decodeGroups numPadding i bytes = plain (bytes.take (4 * i + lastDigits numPadding)) := by
  induction i generalizing bytes with
  | zero =>
    rw [decodeGroups, decodeLast_eq few (by omega), Nat.mul_zero, Nat.zero_add]
    simp
  | succ i ih =>
    obtain ⟨t1, t2, t3, t4, rest, rfl⟩ : ∃ t1 t2 t3 t4 rest,
        bytes = t1 :: t2 :: t3 :: t4 :: rest := by
      rcases bytes with _ | ⟨t1, _ | ⟨t2, _ | ⟨t3, _ | ⟨t4, rest⟩⟩⟩⟩
      · simp at long
      · simp only [List.length_cons, List.length_nil] at long
        omega
      · simp only [List.length_cons, List.length_nil] at long
        omega
      · simp only [List.length_cons, List.length_nil] at long
        omega
      · exact ⟨t1, t2, t3, t4, rest, rfl⟩
    simp only [List.length_cons] at long
    have cut : (t1 :: t2 :: t3 :: t4 :: rest).take (4 * (i + 1) + lastDigits numPadding) =
        t1 :: t2 :: t3 :: t4 :: rest.take (4 * i + lastDigits numPadding) := by
      rw [Nat.mul_succ, Nat.add_right_comm]
      rfl
    rw [cut, plain_group, decodeGroups, group4_eq, ih (by omega)]

/-- Whole groups of digits, with up to two signs of padding in the place of the last ones. -/
structure Padded (text digits : Text) (pad : Nat) : Prop where
  shape : text = digits ++ List.replicate pad 61
  few : pad ≤ 2
  whole : text.length % 4 = 0
  digits : ∀ b ∈ digits, (base64Val b).isSome

theorem padding_notMem {digits : Text} (digits_ : ∀ b ∈ digits, (base64Val b).isSome) :
    61 ∉ digits := by
  intro sign
  exact absurd (digits_ 61 sign) (by decide)

theorem loop_count {size pad : Nat} (whole : size % 4 = 0) (some_ : 0 < size) (few : pad ≤ 2) :
    4 * (size >>> 2 - if pad ≠ 0 then 1 else 0) + lastDigits pad = size - pad := by
  rw [Nat.shiftRight_eq_div_pow, lastDigits]
  by_cases none_ : pad = 0
  · rw [if_pos none_, if_neg (not_not.mpr none_)]
    omega
  · rw [if_neg none_, if_pos none_]
    omega

/-- The decoder takes padded texts, and gives the bytes of their digits. -/
theorem decodeInto_eq_ok_iff {text data : Text} :
    decodeInto text = .ok data ↔ ∃ digits pad, Padded text digits pad ∧
      data = base64Groups (digits.filterMap base64Val) := by
  constructor
  · intro decoded
    unfold decodeInto at decoded
    split at decoded
    next empty =>
      cases decoded
      exact ⟨[], 0, ⟨empty, by decide, by simp [empty], by simp⟩, rfl⟩
    next some_ =>
      split at decoded
      · cases decoded
      next whole =>
        rw [not_not, (mask _).1] at whole
        dsimp only at decoded
        generalize pad_ : (text.drop (text.length - 4)).count 61 = pad at decoded
        split at decoded
        · cases decoded
        next few =>
          rw [Nat.not_lt] at few
          have size : 0 < text.length := List.length_pos_iff.mpr some_
          have count := loop_count whole size few
          rw [decodeGroups_eq few _ (by omega), count, plain] at decoded
          split at decoded
          next digits =>
            refine ⟨text.take (text.length - pad), pad, ⟨?_, few, whole, digits⟩,
              (Except.ok.inj decoded).symm⟩
            -- the signs among the last four are all behind the digits
            have last : text.drop (text.length - 4) =
                (text.take (text.length - pad)).drop (text.length - 4) ++
                  text.drop (text.length - pad) := by
              rw [← List.drop_append_of_le_length, List.take_append_drop]
              rw [List.length_take]
              omega
            have none_ : ((text.take (text.length - pad)).drop (text.length - 4)).count 61 = 0 :=
              List.count_eq_zero.mpr fun sign => padding_notMem digits (List.mem_of_mem_drop sign)
            rw [last, List.count_append, none_, Nat.zero_add] at pad_
            have length : (text.drop (text.length - pad)).length = pad := by
              rw [List.length_drop]
              omega
            have signs := List.count_eq_length.mp (pad_.trans length.symm)
            have rest := List.eq_replicate_iff.mpr ⟨length, fun b mem => (signs b mem).symm⟩
            rw [← rest, List.take_append_drop]
          · cases decoded
  · rintro ⟨digits, pad, ⟨rfl, few, whole, digits_⟩, rfl⟩
    have length : (digits ++ List.replicate pad 61).length = digits.length + pad := by simp
    rw [length] at whole
    unfold decodeInto
    split
    next empty =>
      rw [(List.append_eq_nil_iff.mp empty).1]
      rfl
    next some_ =>
      have size : 0 < digits.length + pad := length ▸ List.length_pos_iff.mpr some_
      rw [length, if_neg (by rw [(mask _).1]; omega)]
      have last : (digits ++ List.replicate pad 61).drop (digits.length + pad - 4) =
          digits.drop (digits.length + pad - 4) ++ List.replicate pad 61 :=
        List.drop_append_of_le_length (by omega)
      have count : ((digits ++ List.replicate pad 61).drop (digits.length + pad - 4)).count 61 =
          pad := by
        rw [last, List.count_append, List.count_replicate_self, List.count_eq_zero.mpr, Nat.zero_add]
        exact fun sign => padding_notMem digits_ (List.mem_of_mem_drop sign)
      dsimp only
      rw [count, if_neg (by omega)]
      have loop := loop_count whole size few
      rw [decodeGroups_eq few _ (by rw [loop, length]; omega), loop, Nat.add_sub_cancel,
        List.take_left, plain_of_digits digits_]

theorem filterMap_padded {text digits : Text} {pad : Nat} (padded : Padded text digits pad) :
    text.filterMap base64Val = digits.filterMap base64Val ∧
      (text.takeWhile fun b => (base64Val b).isSome) = digits := by
  obtain ⟨rfl, -, -, digits_⟩ := padded
  have none_ : base64Val 61 = none := by decide
  constructor
  · rw [List.filterMap_append, List.filterMap_replicate_of_none none_, List.append_nil]
  · rw [List.takeWhile_append_of_pos digits_]
    cases pad with
    | zero => simp
    | succ pad => simp [List.replicate_succ, none_]

/-! ## There and back -/

/-- The bits of a text, six at a time. -/
def sixes : Text → List Nat
  | t1 :: t2 :: t3 :: rest =>
    t1.toNat / 4 :: (t1.toNat % 4 * 16 + t2.toNat / 16) ::
      (t2.toNat % 16 * 4 + t3.toNat / 64) :: t3.toNat % 64 :: sixes rest
  | [t1, t2] => [t1.toNat / 4, t1.toNat % 4 * 16 + t2.toNat / 16, t2.toNat % 16 * 4]
  | [t1] => [t1.toNat / 4, t1.toNat % 4 * 16]
  | [] => []

/-- The bits behind the last byte are zero. -/
def NothingSpare : List Nat → Prop
  | _ :: _ :: _ :: _ :: rest => NothingSpare rest
  | [_, _, c] => c % 4 = 0
  | [_, b] => b % 16 = 0
  | _ => True

theorem sixes_spec (data : Text) :
    (∀ v ∈ sixes data, v < 64) ∧ base64Groups (sixes data) = data ∧
      (sixes data).length + (3 - data.length % 3) % 3 = encodedSize data.length := by
  fun_induction sixes data with
  | case1 t1 t2 t3 rest ih =>
    obtain ⟨small, back, length⟩ := ih
    have h1 := t1.toNat_lt
    have h2 := t2.toNat_lt
    have h3 := t3.toNat_lt
    refine ⟨?_, ?_, ?_⟩
    · simp only [List.forall_mem_cons]
      exact ⟨by omega, by omega, by omega, by omega, small⟩
    · rw [base64Groups, back]
      have e1 : t1.toNat / 4 * 4 + (t1.toNat % 4 * 16 + t2.toNat / 16) / 16 = t1.toNat := by omega
      have e2 : (t1.toNat % 4 * 16 + t2.toNat / 16) % 16 * 16 +
          (t2.toNat % 16 * 4 + t3.toNat / 64) / 4 = t2.toNat := by omega
      have e3 : (t2.toNat % 16 * 4 + t3.toNat / 64) % 4 * 64 + t3.toNat % 64 = t3.toNat := by omega
      rw [e1, e2, e3, UInt8.ofNat_toNat, UInt8.ofNat_toNat, UInt8.ofNat_toNat]
    · simp only [encodedSize, Nat.shiftLeft_eq] at length ⊢
      simp only [List.length_cons]
      have less : (rest.length + 1 + 1 + 1) % 3 = rest.length % 3 := by omega
      have more : (rest.length + 1 + 1 + 1) / 3 = rest.length / 3 + 1 := by omega
      simp only [less, more]
      omega
  | case2 t1 t2 =>
    have h1 := t1.toNat_lt
    have h2 := t2.toNat_lt
    refine ⟨?_, ?_, by simp [encodedSize]⟩
    · simp only [List.forall_mem_cons]
      exact ⟨by omega, by omega, by omega, by simp⟩
    · have e1 : t1.toNat / 4 * 4 + (t1.toNat % 4 * 16 + t2.toNat / 16) / 16 = t1.toNat := by omega
      have e2 : (t1.toNat % 4 * 16 + t2.toNat / 16) % 16 * 16 + t2.toNat % 16 * 4 / 4 =
          t2.toNat := by omega
      rw [base64Groups, e1, e2, UInt8.ofNat_toNat, UInt8.ofNat_toNat]
  | case3 t1 =>
    have h1 := t1.toNat_lt
    refine ⟨?_, ?_, by simp [encodedSize]⟩
    · simp only [List.forall_mem_cons]
      exact ⟨by omega, by omega, by simp⟩
    · have e1 : t1.toNat / 4 * 4 + t1.toNat % 4 * 16 / 16 = t1.toNat := by omega
      rw [base64Groups, e1, UInt8.ofNat_toNat]
  | case4 => exact ⟨by simp, rfl, by decide⟩

/-- What stands behind the last byte is lost. -/
theorem sixes_base64Groups_iff {values : List Nat} (small : ∀ v ∈ values, v < 64)
    (long : values.length % 4 ≠ 1) : sixes (base64Groups values) = values ↔ NothingSpare values := by
  have byte {n : Nat} (fits : n < 256) : (UInt8.ofNat n).toNat = n := UInt8.toNat_ofNat_of_lt' fits
  fun_induction base64Groups values with
  | case1 a b c d rest ih =>
    simp only [List.forall_mem_cons] at small
    obtain ⟨ha, hb, hc, hd, small⟩ := small
    simp only [List.length_cons] at long
    refine Iff.trans ?_ (ih small (by omega))
    rw [sixes, byte (by omega), byte (by omega), byte (by omega)]
    have e1 : (a * 4 + b / 16) / 4 = a := by omega
    have e2 : (a * 4 + b / 16) % 4 * 16 + (b % 16 * 16 + c / 4) / 16 = b := by omega
    have e3 : (b % 16 * 16 + c / 4) % 16 * 4 + (c % 4 * 64 + d) / 64 = c := by omega
    have e4 : (c % 4 * 64 + d) % 64 = d := by omega
    simp only [e1, e2, e3, e4, List.cons.injEq, true_and]
  | case2 a b c =>
    simp only [List.forall_mem_cons] at small
    obtain ⟨ha, hb, hc, -⟩ := small
    rw [sixes, byte (by omega), byte (by omega), NothingSpare]
    simp only [List.cons.injEq, and_true]
    omega
  | case3 a b =>
    simp only [List.forall_mem_cons] at small
    obtain ⟨ha, hb, -⟩ := small
    rw [sixes, byte (by omega), NothingSpare]
    simp only [List.cons.injEq, and_true]
    omega
  | case4 values four three two =>
    rcases values with _ | ⟨a, _ | ⟨b, _ | ⟨c, _ | ⟨d, rest⟩⟩⟩⟩
    · simp [sixes, NothingSpare]
    · simp at long
    · exact absurd rfl (two a b)
    · exact absurd rfl (three a b c)
    · exact absurd rfl (four a b c d rest)

theorem encodeGroups_eq (data : Text) : encodeGroups data = (sixes data).map digit := by
  have masked {v : Nat} (small : v < 64) : encodeTable1 v = digit v := by
    rw [encodeTable1, (mask v).2.2.1, Nat.mod_eq_of_lt small]
  have high (t : Byte) : encodeTable0 t.toNat = digit (t.toNat / 4) := by
    rw [encodeTable0, Nat.shiftRight_eq_div_pow]
  have low (t : Byte) : encodeTable1 t.toNat = digit (t.toNat % 64) := by
    rw [encodeTable1, (mask _).2.2.1]
  have middle (t1 t2 : Byte) : encodeTable1 ((t1.toNat &&& 3) <<< 4 ||| t2.toNat >>> 4 &&& 15) =
      digit (t1.toNat % 4 * 16 + t2.toNat / 16) := by
    have h := t2.toNat_lt
    have bits : (t1.toNat &&& 3) <<< 4 ||| t2.toNat >>> 4 &&& 15 =
        t1.toNat % 4 * 16 + t2.toNat / 16 := by
      have whole : t2.toNat / 2 ^ 4 % 16 = t2.toNat / 16 := by omega
      simp only [mask, Nat.shiftLeft_eq, Nat.shiftRight_eq_div_pow, whole]
      rw [Nat.mul_comm, or_low 4 (by omega)]
    rw [bits, masked (by omega)]
  have upper (t2 t3 : Byte) : encodeTable1 ((t2.toNat &&& 15) <<< 2 ||| t3.toNat >>> 6 &&& 3) =
      digit (t2.toNat % 16 * 4 + t3.toNat / 64) := by
    have h := t3.toNat_lt
    have bits : (t2.toNat &&& 15) <<< 2 ||| t3.toNat >>> 6 &&& 3 =
        t2.toNat % 16 * 4 + t3.toNat / 64 := by
      have whole : t3.toNat / 2 ^ 6 % 4 = t3.toNat / 64 := by omega
      simp only [mask, Nat.shiftLeft_eq, Nat.shiftRight_eq_div_pow, whole]
      rw [Nat.mul_comm, or_low 2 (by omega)]
    rw [bits, masked (by omega)]
  have alone (t : Byte) : encodeTable1 ((t.toNat &&& 3) <<< 4) = digit (t.toNat % 4 * 16) ∧
      encodeTable1 ((t.toNat &&& 15) <<< 2) = digit (t.toNat % 16 * 4) := by
    simp only [mask, Nat.shiftLeft_eq]
    exact ⟨masked (by omega), masked (by omega)⟩
  fun_induction encodeGroups data with
  | case1 t1 t2 t3 rest ih =>
    rw [ih, high, middle, upper, low]
    rfl
  | case2 t1 t2 =>
    rw [high, middle, (alone t2).2]
    rfl
  | case3 t1 =>
    rw [high, (alone t1).1]
    rfl
  | case4 => rfl

/-- The padding of a text of this many bytes. -/
def padding (size : Nat) : Nat := (3 - size % 3) % 3

theorem encodeInto_eq (data : Text) :
    encodeInto data = (sixes data).map digit ++ List.replicate (padding data.length) 61 := by
  have length := (sixes_spec data).2.2
  rw [encodeInto, encodeGroups_eq]
  rw [List.length_map, ← length, Nat.add_sub_cancel_left, padding]

theorem filterMap_digits {values : List Nat} (small : ∀ v ∈ values, v < 64) :
    (values.map digit).filterMap base64Val = values := by
  induction values with
  | nil => rfl
  | cons v values ih =>
    rw [List.forall_mem_cons] at small
    rw [List.map_cons, List.filterMap_cons_some (base64Val_digit v small.1), ih small.2]

theorem padded_encodeInto (data : Text) :
    Padded (encodeInto data) ((sixes data).map digit) (padding data.length) := by
  obtain ⟨small, -, length⟩ := sixes_spec data
  refine ⟨encodeInto_eq data, ?_, ?_, ?_⟩
  · rw [padding]
    omega
  · rw [encodeInto_eq, List.length_append, List.length_map, List.length_replicate, padding, length,
      encodedSize, Nat.shiftLeft_eq]
    omega
  · intro b listed
    obtain ⟨v, mem, rfl⟩ := List.mem_map.mp listed
    rw [base64Val_digit v (small v mem)]
    rfl

/-- The digits of a text say how much padding there is. -/
theorem Padded.unique {text text' digits : Text} {pad pad' : Nat} (padded : Padded text digits pad)
    (padded' : Padded text' digits pad') : text = text' := by
  obtain ⟨rfl, few, whole, -⟩ := padded
  obtain ⟨rfl, few', whole', -⟩ := padded'
  simp only [List.length_append, List.length_replicate] at whole whole'
  have same : pad = pad' := by omega
  rw [same]

theorem decodeInto_encodeInto (data : Text) : decodeInto (encodeInto data) = .ok data := by
  obtain ⟨small, back, -⟩ := sixes_spec data
  rw [decodeInto_eq_ok_iff]
  exact ⟨_, _, padded_encodeInto data, by rw [filterMap_digits small, back]⟩

/-- Every text is read back from its encoding, and a text that is read is the encoding of what is
read exactly when nothing of it is left over. -/
theorem there_and_back :
    (∀ data, decodeInto (encodeInto data) = .ok data) ∧
    ∀ text data, decodeInto text = .ok data →
      (encodeInto data = text ↔ NothingSpare (text.filterMap base64Val)) := by
  constructor
  · exact decodeInto_encodeInto
  · intro text data decoded
    obtain ⟨digits, pad, padded, rfl⟩ := decodeInto_eq_ok_iff.mp decoded
    have small : ∀ v ∈ digits.filterMap base64Val, v < 64 := by
      intro v listed
      obtain ⟨b, -, is_⟩ := List.mem_filterMap.mp listed
      exact (base64Val_spec is_).1
    have spelled : (digits.filterMap base64Val).map digit = digits ∧
        (digits.filterMap base64Val).length = digits.length := by
      have valid := padded.digits
      clear padded small decoded
      induction digits with
      | nil => exact ⟨rfl, rfl⟩
      | cons b digits ih =>
        rw [List.forall_mem_cons] at valid
        obtain ⟨v, is_⟩ := Option.isSome_iff_exists.mp valid.1
        obtain ⟨same, length⟩ := ih valid.2
        rw [List.filterMap_cons_some is_, List.map_cons, same, (base64Val_spec is_).2,
          List.length_cons, length]
        exact ⟨rfl, rfl⟩
    have long : (digits.filterMap base64Val).length % 4 ≠ 1 := by
      have whole := padded.whole
      have few := padded.few
      rw [padded.shape, List.length_append, List.length_replicate] at whole
      rw [spelled.2]
      omega
    rw [(filterMap_padded padded).1, ← sixes_base64Groups_iff small long]
    have encoded := padded_encodeInto (base64Groups (digits.filterMap base64Val))
    constructor
    · intro same
      have read := (filterMap_padded encoded).1
      rw [filterMap_digits (sixes_spec _).1, same, (filterMap_padded padded).1] at read
      exact read.symm
    · intro same
      rw [same, spelled.1] at encoded
      exact encoded.unique padded

/-- A digit whose last bits are lost. -/
theorem spare_bits : decodeInto (lit "/x==") = .ok [255] ∧ encodeInto [255] ≠ lit "/x==" := by
  have decoded : decodeInto (lit "/x==") = .ok [255] := by decide
  refine ⟨decoded, fun same => ?_⟩
  have nothing := (there_and_back.2 _ _ decoded).mp same
  exact absurd (show 49 % 16 = 0 from nothing) (by decide)

/-! ## Pictures -/

/-- A host that is linked with the library. -/
def linked (host : ModHost) : ModHost :=
  { host with base64Decode := fun data => (decodeInto data).toOption }

def picture (mediaType data : Text) : Text := lit "data:" ++ (mediaType ++ 44 :: data)

theorem showPhoto_picture (host : ModHost) {mediaType : Text} (plain_ : 44 ∉ mediaType)
    (data : Text) :
    showPhoto (linked host) (picture mediaType data) =
      match decodeInto data with
      | .error _ => .error .base64
      | .ok raw => .ok [.respond (respond 200
          (lit "Access-Control-Allow-Origin: *\nCache-Control: max-age=300\nContentType: " ++
            mediaType.takeWhile (· ≠ 59)) raw)] := by
  have address : ¬ lit "http" <+: picture mediaType data := by
    rintro ⟨rest, same⟩
    have first : some (104 : Byte) = some 100 := congrArg List.head? same
    exact absurd first (by decide)
  have dataUrl : lit "data:" <+: picture mediaType data := List.prefix_append _ _
  have rest : (picture mediaType data).drop 5 = mediaType ++ 44 :: data := rfl
  rw [showPhoto, if_neg address, if_pos dataUrl, rest]
  simp only [cut_append plain_, linked, List.nil_append]
  cases decodeInto data <;> rfl

/-- A picture that a user may see is served as the bytes that were encoded. The handler throws
exactly where what stands behind the comma is no padded text. -/
theorem picture_served_iff (host : ModHost) (s : Store) (userStr : Text) (req : ModRequest)
    {mediaType data : Text} (plain_ : 44 ∉ mediaType)
    (stored : s.getPfp ((linked host).splitUserStr userStr).1 req.user req.domain =
      picture mediaType data) :
    (∀ bytes, getPfp (linked host) s userStr req = .ok [.respond (respond 200
        (lit "Access-Control-Allow-Origin: *\nCache-Control: max-age=300\nContentType: " ++
          mediaType.takeWhile (· ≠ 59)) bytes)] ↔ decodeInto data = .ok bytes) ∧
    (∀ bytes, data = encodeInto bytes → decodeInto data = .ok bytes) ∧
    (getPfp (linked host) s userStr req = .error .base64 ↔ ¬ ∃ digits pad, Padded data digits pad) := by
  have some_ : picture mediaType data ≠ [] := by simp [picture, lit]
  have shown : getPfp (linked host) s userStr req =
      showPhoto (linked host) (picture mediaType data) := by
    rw [getPfp]
    dsimp only
    rw [stored, if_neg some_]
  rw [shown, showPhoto_picture host plain_]
  refine ⟨fun bytes => ?_, ?_, ?_⟩
  · cases decodeInto data with
    | error e => simp
    | ok raw => simp [respond]
  · rintro bytes rfl
    exact decodeInto_encodeInto bytes
  · cases decoded : decodeInto data with
    | error e =>
      refine iff_of_true rfl ?_
      rintro ⟨digits, pad, padded⟩
      have read := decodeInto_eq_ok_iff.mpr ⟨digits, pad, padded, rfl⟩
      rw [decoded] at read
      cases read
    | ok raw =>
      obtain ⟨digits, pad, padded, -⟩ := decodeInto_eq_ok_iff.mp decoded
      exact iff_of_false (by simp) (not_not.mpr ⟨digits, pad, padded⟩)

def demoHost : ModHost where
  domain := "a.net"
  baseUri := "http://a.net/contacts"
  now := 0
  userInfo := fun _ => 0
  jsonString := some
  base64Decode := fun _ => none

/-- Bob shows everybody a picture. -/
def bobsPicture : Store :=
  (Store.empty.saveContact (linked demoHost)
    { owner := "bob", user := "bob"
      props := [⟨-1, "PHOTO", [], "data:image/png;base64,aGk=", 3⟩] }).2.2

def askForBob : ModRequest := ⟨.get, "/pfp/bob", [], none, none, none⟩

theorem bobs_picture_served : getPfp (linked demoHost) bobsPicture "bob" askForBob =
    .ok [.respond (respond 200
      "Access-Control-Allow-Origin: *\nCache-Control: max-age=300\nContentType: image/png" "hi")] := by
  have plain_ : 44 ∉ lit "image/png;base64" := by decide
  have stored : bobsPicture.getPfp ((linked demoHost).splitUserStr "bob").1 askForBob.user
      askForBob.domain = picture "image/png;base64" "aGk=" := by decide +kernel
  exact ((picture_served_iff demoHost bobsPicture "bob" askForBob plain_ stored).1 "hi").mpr
    (by decide)

end Base64Texts
