import Fiy.CheckedLoops
import Fiy.WebText

/-!
# URI components

`uri_decode` undoes `uri_encode`. The encoder writes few bytes: what it does not copy is a
plus sign or an escape. The decoder's loop looks ahead only where two more bytes are left.
-/

namespace UriComponents

open ByteStrings WebText CheckedLoops

/-! ## The decoder's loop -/

/-- One turn of `uri_decode`, at a position and with the result so far. The second digit
is looked at when the first one is a digit. -/
def decodeTurn (data : Text) : Nat × Text → Turn (Nat × Text) Text
  | (i, result) =>
    if i < data.length then
      .guard data[i]? fun b =>
        if b = 43 then .again (i + 1, result ++ [32])
        else if b = 37 then
          if i + 2 < data.length then
            .guard data[i + 1]? fun high => match hexVal high with
              | none => .again (i + 1, result ++ [37])
              | some x => .guard data[i + 2]? fun low => match hexVal low with
                | none => .again (i + 1, result ++ [37])
                | some y => .again (i + 3, result ++ [UInt8.ofNat (x * 16 + y)])
          else .again (i + 1, result ++ [37])
        else .again (i + 1, result ++ [b])
    else .leave result

theorem uriDecode_plus (rest : Text) : uriDecode (43 :: rest) = 32 :: uriDecode rest := rfl

theorem uriDecode_escape {high low : Byte} {b : Byte} {rest : Text}
    (escape : hexPair (high :: low :: rest) = some b) :
    uriDecode (37 :: high :: low :: rest) = b :: uriDecode rest := by
  have percent : ¬ (37 : Byte) = 43 := by decide
  simp only [uriDecode, uriDecodeFrom, if_neg percent, if_true, escape]

theorem uriDecode_percent {rest : Text} (literal_ : hexPair rest = none) :
    uriDecode (37 :: rest) = 37 :: uriDecode rest := by
  have percent : ¬ (37 : Byte) = 43 := by decide
  simp only [uriDecode, uriDecodeFrom, if_neg percent, if_true, literal_]

theorem uriDecode_other {b : Byte} (plus : b ≠ 43) (percent : b ≠ 37) (rest : Text) :
    uriDecode (b :: rest) = b :: uriDecode rest := by
  simp only [uriDecode, uriDecodeFrom, if_neg plus, if_neg percent]

/-- What a turn does with a percent sign is what the decoder does. -/
theorem decodeTurn_percent (before rest : Text) (result : Text) :
    (∃ high low later c, rest = high :: low :: later ∧ hexPair rest = some c ∧
      decodeTurn (before ++ 37 :: rest) (before.length, result) =
        .again (before.length + 3, result ++ [c])) ∨
    (hexPair rest = none ∧ decodeTurn (before ++ 37 :: rest) (before.length, result) =
      .again (before.length + 1, result ++ [37])) := by
  have inside : before.length < (before ++ 37 :: rest).length := by simp
  have here : (before ++ 37 :: rest)[before.length]? = some 37 := by simp
  have percent : ¬ (37 : Byte) = 43 := by decide
  have next : ∀ k, (before ++ 37 :: rest)[before.length + (k + 1)]? = rest[k]? := by
    intro k
    rw [List.getElem?_append_right (by omega), Nat.add_sub_cancel_left, List.getElem?_cons_succ]
  simp only [decodeTurn, if_pos inside, here, Turn.guard_some, if_neg percent, if_true, next 0,
    next 1]
  cases rest with
  | nil => exact Or.inr ⟨rfl, by simp⟩
  | cons high rest =>
    cases rest with
    | nil => exact Or.inr ⟨rfl, by simp⟩
    | cons low later =>
      have room : before.length + 2 < (before ++ 37 :: high :: low :: later).length := by simp
      simp only [if_pos room, List.getElem?_cons_zero, List.getElem?_cons_succ, Turn.guard_some,
        hexPair]
      cases hexVal high with
      | none => exact Or.inr ⟨rfl, rfl⟩
      | some x =>
        cases hexVal low with
        | none => exact Or.inr ⟨rfl, rfl⟩
        | some y => exact Or.inl ⟨high, low, later, _, rfl, rfl, rfl⟩

/-- A turn writes the byte the decoder gives for what it reads. -/
theorem decodeTurn_at (before : Text) (b : Byte) (rest result : Text) :
    ∃ read later c, b :: rest = read ++ later ∧ read ≠ [] ∧
      uriDecode (b :: rest) = c :: uriDecode later ∧
      decodeTurn (before ++ b :: rest) (before.length, result) =
        .again ((before ++ read).length, result ++ [c]) := by
  by_cases percent : b = 37
  · subst percent
    rcases decodeTurn_percent before rest result with
      ⟨high, low, later, c, rfl, escape, turn⟩ | ⟨literal_, turn⟩
    · refine ⟨[37, high, low], later, c, rfl, by simp, uriDecode_escape escape, ?_⟩
      rw [turn]
      simp
    · refine ⟨[37], rest, 37, rfl, by simp, uriDecode_percent literal_, ?_⟩
      rw [turn]
      simp
  · have inside : before.length < (before ++ b :: rest).length := by simp
    have here : (before ++ b :: rest)[before.length]? = some b := by simp
    simp only [decodeTurn, if_pos inside, here, Turn.guard_some, if_neg percent]
    by_cases plus : b = 43
    · subst plus
      exact ⟨[43], rest, 32, rfl, by simp, uriDecode_plus rest, by simp⟩
    · exact ⟨[b], rest, b, rfl, by simp, uriDecode_other plus percent rest, by simp [plus]⟩

/-- The loop gives what the decoder gives for the rest, and never looks outside. -/
theorem decode_ends_from (before rest result : Text) :
    Ends (decodeTurn (before ++ rest)) (before.length, result) (result ++ uriDecode rest) := by
  induction hlen : rest.length using Nat.strongRecOn generalizing before rest result with
  | ind n ih =>
    cases rest with
    | nil =>
      apply Ends.of_leave
      simp [decodeTurn, uriDecode, uriDecodeFrom]
    | cons b rest =>
      obtain ⟨read, later, c, split, some_, decoded, turn⟩ := decodeTurn_at before b rest result
      have shorter : later.length < n := by
        have lengths := congrArg List.length split
        rw [List.length_append] at lengths
        have := List.length_pos_iff.mpr some_
        omega
      have rest_ends := ih later.length shorter (before ++ read) later (result ++ [c]) rfl
      rw [ends_of_again turn, decoded, split]
      rw [List.append_assoc] at rest_ends
      simpa using rest_ends

theorem decode_ends (data : Text) : Ends (decodeTurn data) (0, []) (uriDecode data) :=
  decode_ends_from [] data []

/-! ## The codec -/

theorem hexVal_hexDigit : ∀ n < 16, hexVal (hexDigit n) = some n := by decide

theorem hexPair_charToHex (b : Byte) (rest : Text) : hexPair (charToHex b ++ rest) = some b := by
  have high : b.toNat / 16 < 16 := by
    have := b.toNat_lt
    omega
  have low : b.toNat % 16 < 16 := Nat.mod_lt _ (by decide)
  have whole : b.toNat / 16 * 16 + b.toNat % 16 = b.toNat := by omega
  simp only [charToHex, List.cons_append, hexPair, hexVal_hexDigit _ high, hexVal_hexDigit _ low,
    whole]
  exact congrArg some UInt8.ofNat_toNat

/-- What is copied is neither a plus sign nor a percent sign. -/
theorem isUnreserved_plain {b : Byte} (copied : isUnreserved b = true) : b ≠ 43 ∧ b ≠ 37 := by
  constructor
  · rintro rfl
    exact absurd copied (by decide)
  · rintro rfl
    exact absurd copied (by decide)

theorem uriDecode_encodeByte (b : Byte) (rest : Text) :
    uriDecode (encodeByte b ++ rest) = b :: uriDecode rest := by
  unfold encodeByte
  split
  next blank =>
    rw [blank]
    exact uriDecode_plus rest
  · split
    next copied =>
      obtain ⟨plus, percent⟩ := isUnreserved_plain copied
      exact uriDecode_other plus percent rest
    · exact uriDecode_escape (hexPair_charToHex b rest)

theorem uriDecode_uriEncode (s : Text) : uriDecode (uriEncode s) = s := by
  induction s with
  | nil => rfl
  | cons b s ih =>
    have step : uriEncode (b :: s) = encodeByte b ++ uriEncode s := rfl
    rw [step, uriDecode_encodeByte, ih]

/-- A byte that is no digit ends what an escape in front of it can read. -/
theorem uriDecode_append {b : Byte} (other : hexVal b = none) (front rest : Text) :
    uriDecode (front ++ b :: rest) = uriDecode front ++ uriDecode (b :: rest) := by
  have low (a : Byte) : hexPair (a :: b :: rest) = none := by
    rw [hexPair, other]
    cases hexVal a <;> rfl
  have high : hexPair (b :: rest) = none := by
    cases rest with
    | nil => rfl
    | cons c rest => simp only [hexPair, other]
  induction size : front.length using Nat.strong_induction_on generalizing front with
  | _ n ih =>
    cases front with
    | nil => rfl
    | cons a front =>
      have shorter := ih front.length (by simp at size; omega) front rfl
      by_cases plus : a = 43
      · subst plus
        rw [List.cons_append, uriDecode_plus, uriDecode_plus, shorter, List.cons_append]
      by_cases percent : a = 37
      · subst percent
        rw [List.cons_append]
        match front, shorter, size with
        | [], _, _ => exact uriDecode_percent high
        | [a], shorter, _ =>
          have alone : hexPair [a] = none := rfl
          have further : hexPair ([a] ++ b :: rest) = none := low a
          rw [uriDecode_percent further, uriDecode_percent alone, shorter, List.cons_append]
        | x :: y :: more, shorter, size =>
          cases pair : hexPair (x :: y :: more) with
          | some c =>
            have same : hexPair (x :: y :: (more ++ b :: rest)) = some c := pair
            rw [List.cons_append, List.cons_append, uriDecode_escape same, uriDecode_escape pair,
              ih more.length (by simp at size; omega) more rfl, List.cons_append]
          | none =>
            have same : hexPair ((x :: y :: more) ++ b :: rest) = none := pair
            rw [uriDecode_percent same, uriDecode_percent pair, shorter, List.cons_append]
      · rw [List.cons_append, uriDecode_other plus percent, uriDecode_other plus percent, shorter,
          List.cons_append]

theorem hexDigit_isAlnum : ∀ n < 16, isAlnum (hexDigit n) = true := by decide

/-- The bytes that an encoded component is made of. -/
def isComponentByte (b : Byte) : Bool := isUnreserved b || b = 43 || b = 37

theorem isComponentByte_of_isUnreserved {b : Byte} (copied : isUnreserved b = true) :
    isComponentByte b = true := by
  rw [isComponentByte, copied, Bool.true_or, Bool.true_or]

theorem isComponentByte_hexDigit {n : Nat} (digit : n < 16) :
    isComponentByte (hexDigit n) = true := by
  apply isComponentByte_of_isUnreserved
  rw [isUnreserved, hexDigit_isAlnum n digit, Bool.true_or]

theorem isComponentByte_encodeByte {b c : Byte} (mem : c ∈ encodeByte b) :
    isComponentByte c = true := by
  unfold encodeByte at mem
  split at mem
  · rw [List.mem_singleton.mp mem]
    decide
  · split at mem
    next copied =>
      rw [List.mem_singleton.mp mem]
      exact isComponentByte_of_isUnreserved copied
    · have small := b.toNat_lt
      rw [charToHex, List.mem_cons, List.mem_cons, List.mem_singleton] at mem
      rcases mem with rfl | rfl | rfl
      · decide
      · exact isComponentByte_hexDigit (by omega)
      · exact isComponentByte_hexDigit (Nat.mod_lt _ (by decide))

theorem isComponentByte_uriEncode {s : Text} {b : Byte} (mem : b ∈ uriEncode s) :
    isComponentByte b = true := by
  obtain ⟨c, _, inside⟩ := List.mem_flatMap.mp mem
  exact isComponentByte_encodeByte inside

/-- A byte of another kind is in no encoded component. -/
theorem notMem_uriEncode {b : Byte} (other : isComponentByte b = false) (s : Text) :
    b ∉ uriEncode s := by
  intro mem
  rw [isComponentByte_uriEncode mem] at other
  cases other

/-- The decoder undoes the encoder, which writes letters, digits, plus and percent signs and
eight other characters. None of them has a meaning in an address, a form or a cookie. -/
theorem component_codec (s : Text) :
    uriDecode (uriEncode s) = s ∧
    (∀ b ∈ uriEncode s, isAlnum b = true ∨ b ∈ lit "+%-_.!~*()") ∧
    ∀ b ∈ lit "&=?#/;\"'", b ∉ uriEncode s := by
  refine ⟨uriDecode_uriEncode s, ?_, ?_⟩
  · intro b mem
    have kind := isComponentByte_uriEncode mem
    simp only [isComponentByte, isUnreserved, Bool.or_eq_true, decide_eq_true_eq] at kind
    have more : lit "+%-_.!~*()" = 43 :: 37 :: lit "-_.!~*()" := by decide
    rw [more, List.mem_cons, List.mem_cons]
    tauto
  · intro b mem
    have other : ∀ c ∈ lit "&=?#/;\"'", isComponentByte c = false := by decide +kernel
    exact notMem_uriEncode (other b mem) s

end UriComponents
