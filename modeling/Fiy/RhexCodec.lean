import Mathlib.Data.Nat.Digits.Lemmas
import Fiy.CdnServer
import Fiy.CheckedLoops

/-!
# The identifiers of the storage server

`to_rhex` and `from_rhex` with the characters they write and read, and the numbers that come
back. The encoder puts the lowest digit in front. The decoder takes the first digit for the
highest one, moves once more behind the last one, and does not know the digits of 14 and 15.
-/

namespace RhexCodec

open ByteStrings CdnServer CheckedLoops

/-! ## The loops -/

/-- The types `to_rhex` is used for. -/
inductive IntType
  | int64
  | uint32
  deriving DecidableEq, Repr

namespace IntType

/-- The digits of the unsigned type -/
def digits : IntType → Nat
  | int64 => 64
  | uint32 => 32

def Holds : IntType → Int → Prop
  | int64, n => -9223372036854775808 ≤ n ∧ n < 9223372036854775808
  | uint32, n => 0 ≤ n ∧ n < 4294967296

instance : (T : IntType) → (n : Int) → Decidable (T.Holds n)
  | int64, n => inferInstanceAs (Decidable (-9223372036854775808 ≤ n ∧ _))
  | uint32, n => inferInstanceAs (Decidable (0 ≤ n ∧ _))

/-- `std::make_unsigned_t` -/
def unsigned : IntType → Int → Nat
  | int64, n => bits64 n
  | uint32, n => toUint32 n

/-- `max_hex_chars` -/
def maxHexChars (T : IntType) : Nat := (T.digits + 3) / 4

end IntType

/-- What `to_rhex` writes for a number, without the zero. -/
def written (T : IntType) (n : Int) : Text := toRhex (T.unsigned n)

/-- A turn of `to_rhex` on its buffer, from a position and what is left of the value. -/
def encodeTurn : Text × Nat × Nat → Turn (Text × Nat × Nat) Text
  | (ret, i, v) =>
    if i < ret.length then
      let ret := ret.set i (hexDigits.getD (v % 16) 0)
      if v / 16 ≠ 0 then .again (ret, i + 1, v / 16)
      else if i + 1 < ret.length then .leave (ret.set (i + 1) 0)
      else .fault
    else .fault

/-- A turn of `from_rhex` on the characters it is given. -/
def decodeTurn (s : Text) : Nat × Nat → Turn (Nat × Nat) Int
  | (i, ret) =>
    if i < s.length then
      -- the condition looks at the first character each time
      .guard s[0]? fun first => if first = 0 then .leave (ofBits64 ret)
        else .guard s[i]? fun c => .again (i + 1, match rhexDigit c with
          | some d => (ret + d) * 16 % 18446744073709551616
          | none => ret)
    else .leave (ofBits64 ret)

/-- A number comes back from its text and the text from its number, no other number has it, and
neither function leaves the characters it may use. -/
structure Codec (T : IntType) (n : Int) : Prop where
  decoded : fromRhex (written T n) = n
  encoded : written .int64 (fromRhex (written T n)) = written T n
  distinct : ∀ m, T.Holds m → written T m = written T n → m = n
  writes : ∀ buffer : Text, T.maxHexChars + 1 ≤ buffer.length → ∃ rest,
    Ends encodeTurn (buffer, 0, T.unsigned n) (written T n ++ 0 :: rest) ∧
      buffer.drop (T.maxHexChars + 1) <:+ rest ∧
      (written T n ++ 0 :: rest).length = buffer.length
  reads : ∀ s : Text, s.length < 256 → Ends (decodeTurn s) (0, 0) (fromRhex s)

/-- The last hexadecimal digit is zero, and the others read the same in both directions and are
less than 14. -/
def Mirrored (v : Nat) : Prop :=
  v = 0 ∨ ∃ others, Nat.digits 16 v = 0 :: others ∧ others.reverse = others ∧ ∀ d ∈ others, d < 14

/-! ## Texts -/

theorem toRhexFrom_ne (k n : Nat) : toRhexFrom (k + 1) n ≠ [] := List.cons_ne_nil _ _

theorem rhexDigit_hexDigits : ∀ d < 16,
    rhexDigit (hexDigits.getD d 0) = if d < 14 then some d else none := by decide +kernel

theorem hexDigits_injective : ∀ d < 16, ∀ e < 16,
    hexDigits.getD d 0 = hexDigits.getD e 0 → d = e := by decide +kernel

/-- Different numbers have different texts. -/
theorem toRhexFrom_injective {k m n : Nat} (small : m < 16 ^ k) (small' : n < 16 ^ k)
    (same : toRhexFrom k m = toRhexFrom k n) : m = n := by
  induction k generalizing m n with
  | zero =>
    rw [Nat.pow_zero] at small small'
    omega
  | succ k ih =>
    rw [Nat.pow_succ] at small small'
    obtain ⟨head, tail⟩ := List.cons.inj same
    have low := hexDigits_injective (m % 16) (by omega) (n % 16) (by omega) head
    have high : m / 16 = n / 16 := by
      by_cases last : m / 16 = 0
      · by_cases last' : n / 16 = 0
        · omega
        · rw [if_pos last, if_neg last'] at tail
          cases k with
          | zero =>
            rw [Nat.pow_zero] at small'
            omega
          | succ k => exact absurd tail.symm (toRhexFrom_ne k _)
      · by_cases last' : n / 16 = 0
        · rw [if_neg last, if_pos last'] at tail
          cases k with
          | zero =>
            rw [Nat.pow_zero] at small
            omega
          | succ k => exact absurd tail (toRhexFrom_ne k _)
        · rw [if_neg last, if_neg last'] at tail
          exact ih (by omega) (by omega) tail
    omega

theorem length_toRhexFrom {k j n : Nat} (small : n < 16 ^ (j + 1)) :
    (toRhexFrom k n).length ≤ j + 1 := by
  induction k generalizing j n with
  | zero => exact Nat.zero_le _
  | succ k ih =>
    rw [toRhexFrom, List.length_cons]
    by_cases last : n / 16 = 0
    · rw [if_pos last]
      exact Nat.succ_le_succ (Nat.zero_le _)
    · rw [if_neg last]
      cases j with
      | zero => omega
      | succ j =>
        rw [Nat.pow_succ] at small
        exact Nat.succ_le_succ (ih (by omega))

/-- The text of a number has its digits. -/
theorem toRhexFrom_digits {k n : Nat} (small : n < 16 ^ k) (some_ : n ≠ 0) :
    toRhexFrom k n = (Nat.digits 16 n).map (hexDigits.getD · 0) := by
  induction k generalizing n with
  | zero =>
    rw [Nat.pow_zero] at small
    omega
  | succ k ih =>
    rw [Nat.pow_succ] at small
    rw [toRhexFrom, Nat.digits_def' (by omega) (by omega), List.map_cons]
    by_cases last : n / 16 = 0
    · rw [if_pos last, last, Nat.digits_zero]
      rfl
    · rw [if_neg last, ih (by omega) last]

/-! ## Values -/

/-- The decoder reads the digits that it knows the other way round, and a zero behind them. -/
theorem decoded_digits (ds : List Nat) (small : ∀ d ∈ ds, d < 16) (start : Nat) :
    (ds.map (hexDigits.getD · 0)).foldl (fun ret b => match rhexDigit b with
        | some d => (ret + d) * 16 % 18446744073709551616
        | none => ret) (16 * start % 18446744073709551616) =
      16 * (ds.filter (· < 14)).foldl (fun value d => 16 * value + d) start
        % 18446744073709551616 := by
  induction ds generalizing start with
  | nil => rfl
  | cons d ds ih =>
    have later := fun e mem => small e (List.mem_cons_of_mem d mem)
    rw [List.map_cons, List.foldl_cons, rhexDigit_hexDigits d (small d List.mem_cons_self)]
    by_cases known : d < 14
    · rw [if_pos known, List.filter_cons_of_pos (by simpa using known), List.foldl_cons,
        ← ih later]
      congr 1
      simp only
      omega
    · rw [if_neg known, List.filter_cons_of_neg (by simpa using known)]
      exact ih later start

/-- Horner's scheme takes the highest digit first. -/
theorem foldl_ofDigits (ds : List Nat) (start : Nat) :
    ds.foldl (fun value d => 16 * value + d) start = Nat.ofDigits 16 (ds.reverse ++ [start]) := by
  induction ds generalizing start with
  | nil => simp
  | cons d ds ih =>
    rw [List.foldl_cons, ih, List.reverse_cons, List.append_assoc, Nat.ofDigits_append,
      Nat.ofDigits_append]
    congr 2
    simp [Nat.ofDigits_cons]
    omega

/-- The bits that come back. -/
theorem fromRhex_toRhex {v : Nat} (small : v < 16 ^ 16) (some_ : v ≠ 0) :
    fromRhex (toRhex v) = ofBits64 (Nat.ofDigits 16
      (0 :: ((Nat.digits 16 v).filter (· < 14)).reverse) % 18446744073709551616) := by
  have digits : toRhex v = (Nat.digits 16 v).map (hexDigits.getD · 0) :=
    toRhexFrom_digits small some_
  have below : ∀ d ∈ Nat.digits 16 v, d < 16 := fun d mem => Nat.digits_lt_base (by omega) mem
  have length : (toRhex v).length % 256 = (toRhex v).length :=
    Nat.mod_eq_of_lt ((length_toRhexFrom (j := 15) small).trans_lt (by omega))
  have front : (toRhex v).head? ≠ some 0 := by
    have digit : ∀ d < 16, hexDigits.getD d 0 ≠ 0 := by decide +kernel
    exact fun zero => digit (v % 16) (Nat.mod_lt v (by omega)) (Option.some.inj zero)
  have read := decoded_digits (Nat.digits 16 v) below 0
  rw [Nat.mul_zero, Nat.zero_mod, foldl_ofDigits, Nat.ofDigits_append_zero] at read
  rw [fromRhex, if_neg front, length, List.take_length, digits]
  refine congrArg ofBits64 (read.trans ?_)
  rw [Nat.ofDigits_cons, Nat.zero_add]

/-- Two numbers that fit into so many digits have the same ones. -/
theorem digits_padded {v : Nat} {ds : List Nat} (long : ds.length ≤ 16)
    (below : ∀ d ∈ ds, d < 16) (fits : (Nat.digits 16 v).length ≤ 16)
    (same : Nat.ofDigits 16 ds = v) :
    ds ++ List.replicate (16 - ds.length) 0 =
      Nat.digits 16 v ++ List.replicate (16 - (Nat.digits 16 v).length) 0 := by
  refine Nat.ofDigits_inj_of_len_eq (b := 16) (by omega) ?_ ?_ ?_ ?_
  · simp only [List.length_append, List.length_replicate]
    omega
  · intro d mem
    rcases List.mem_append.mp mem with mem | mem
    · exact below d mem
    · rw [List.eq_of_mem_replicate mem]
      omega
  · intro d mem
    rcases List.mem_append.mp mem with mem | mem
    · exact Nat.digits_lt_base (by omega) mem
    · rw [List.eq_of_mem_replicate mem]
      omega
  · rw [Nat.ofDigits_append_replicate_zero, Nat.ofDigits_append_replicate_zero, same,
      Nat.ofDigits_digits]

/-- What is read is cut off behind sixteen digits. -/
theorem ofDigits_mod_take (ds : List Nat) (below : ∀ d ∈ ds, d < 16) :
    Nat.ofDigits 16 ds % 16 ^ 16 = Nat.ofDigits 16 (ds.take 16) := by
  have kept : Nat.ofDigits 16 (ds.take 16) < 16 ^ (ds.take 16).length :=
    Nat.ofDigits_lt_base_pow_length (by omega) fun d mem => below d (List.mem_of_mem_take mem)
  by_cases long : ds.length ≤ 16
  · rw [List.take_of_length_le long] at kept ⊢
    exact Nat.mod_eq_of_lt (kept.trans_le (Nat.pow_le_pow_right (by omega) long))
  · have full : (ds.take 16).length = 16 := by
      rw [List.length_take]
      omega
    rw [full] at kept
    conv_lhs => rw [← List.take_append_drop 16 ds, Nat.ofDigits_append, full]
    rw [Nat.add_mul_mod_self_left, Nat.mod_eq_of_lt kept]

/-- Reversed digits behind a zero are the digits themselves. -/
theorem reversed_iff {first : Nat} {others : List Nat} (short : others.length ≤ 15) :
    (0 :: (first :: others).reverse).take 16 ++
        List.replicate (16 - ((0 :: (first :: others).reverse).take 16).length) 0 =
      (first :: others) ++ List.replicate (16 - (first :: others).length) 0 ↔
    first = 0 ∧ others.reverse = others := by
  by_cases full : others.length = 15
  · have cut_ : (0 :: (first :: others).reverse).take 16 = 0 :: others.reverse := by
      rw [List.reverse_cons, List.take_succ_cons,
        List.take_append_of_le_length (by rw [List.length_reverse, full]),
        List.take_of_length_le (by rw [List.length_reverse, full])]
    rw [cut_]
    simp only [List.length_cons, List.length_reverse, full, Nat.sub_self, List.replicate_zero,
      List.append_nil, List.cons.injEq]
    exact and_congr_left' eq_comm
  · have whole : (0 :: (first :: others).reverse).take 16 = 0 :: (others.reverse ++ [first]) := by
      rw [List.reverse_cons]
      refine List.take_of_length_le ?_
      simp only [List.length_cons, List.length_append, List.length_reverse, List.length_nil]
      omega
    have zeros : List.replicate (16 - (first :: others).length) 0 =
        0 :: List.replicate (14 - others.length) 0 := by
      rw [← List.replicate_succ, List.length_cons]
      congr 1
      omega
    have zeros' : 16 - (0 :: (others.reverse ++ [first])).length = 14 - others.length := by
      simp only [List.length_cons, List.length_append, List.length_reverse, List.length_nil]
      omega
    rw [whole, zeros, zeros', List.cons_append, List.cons_append, List.append_assoc,
      List.singleton_append]
    constructor
    · intro same
      obtain ⟨rfl, same⟩ := List.cons.inj same
      exact ⟨rfl, (List.append_inj same List.length_reverse).1⟩
    · rintro ⟨rfl, mirror⟩
      rw [mirror]

/-- Exactly the mirrored numbers come back. -/
theorem readBack_iff {v : Nat} (small : v < 16 ^ 16) (some_ : v ≠ 0) :
    Nat.ofDigits 16 (0 :: ((Nat.digits 16 v).filter (· < 14)).reverse) % 16 ^ 16 = v ↔
      Mirrored v := by
  have fits : (Nat.digits 16 v).length ≤ 16 := (Nat.digits_length_le_iff (by omega) v).mpr small
  have below : ∀ d ∈ 0 :: ((Nat.digits 16 v).filter (· < 14)).reverse, d < 14 := by
    intro d mem
    rcases List.mem_cons.mp mem with rfl | mem
    · omega
    · simpa using (List.mem_filter.mp (List.mem_reverse.mp mem)).2
  rw [ofDigits_mod_take _ fun d mem => (below d mem).trans (by omega)]
  obtain ⟨first, others, digits⟩ :=
    List.exists_cons_of_ne_nil (Nat.digits_ne_nil_iff_ne_zero.mpr some_)
  constructor
  · intro same
    have padded := digits_padded (List.length_take_le _ _)
      (fun d mem => (below d (List.mem_of_mem_take mem)).trans (by omega)) fits same
    -- no digit of what is read is unknown to the decoder
    have known : ∀ d ∈ Nat.digits 16 v, d < 14 := by
      intro d mem
      have here : d ∈ Nat.digits 16 v ++
          List.replicate (16 - (Nat.digits 16 v).length) 0 := List.mem_append_left _ mem
      rw [← padded] at here
      rcases List.mem_append.mp here with here | here
      · exact below d (List.mem_of_mem_take here)
      · rw [List.eq_of_mem_replicate here]
        omega
    have all : (Nat.digits 16 v).filter (· < 14) = Nat.digits 16 v :=
      List.filter_eq_self.mpr fun d mem => by simpa using known d mem
    rw [all, digits] at padded
    rw [digits, List.length_cons] at fits
    obtain ⟨rfl, mirror⟩ := (reversed_iff (by omega)).mp padded
    exact .inr ⟨others, digits, mirror, fun d mem => known d (digits ▸ List.mem_cons_of_mem 0 mem)⟩
  · rintro (zero | ⟨others', digits', mirror, known⟩)
    · exact absurd zero some_
    · have all : (Nat.digits 16 v).filter (· < 14) = Nat.digits 16 v := by
        refine List.filter_eq_self.mpr fun d mem => ?_
        rw [digits'] at mem
        rcases List.mem_cons.mp mem with rfl | mem
        · rfl
        · simpa using known d mem
      rw [digits', List.length_cons] at fits
      have padded := (@reversed_iff 0 others' (by omega)).mpr ⟨rfl, mirror⟩
      have same := congrArg (Nat.ofDigits 16) padded
      rw [Nat.ofDigits_append_replicate_zero, Nat.ofDigits_append_replicate_zero, ← digits',
        Nat.ofDigits_digits] at same
      rw [all, same]

/-! ## Buffers -/

theorem set_at (before rest : Text) (b c : Byte) :
    (before ++ b :: rest).set before.length c = before ++ c :: rest := by
  rw [List.set_append_right _ _ (Nat.le_refl _), Nat.sub_self, List.set_cons_zero]

theorem encodeTurn_last {v : Nat} (last : v / 16 = 0) (before rest : Text) (b c : Byte) :
    encodeTurn (before ++ b :: c :: rest, before.length, v) =
      .leave (before ++ hexDigits.getD (v % 16) 0 :: 0 :: rest) := by
  have here : before.length < (before ++ b :: c :: rest).length := by simp
  have behind : before.length + 1 <
      (before ++ hexDigits.getD (v % 16) 0 :: c :: rest).length := by simp
  simp only [encodeTurn, if_pos here, set_at, if_neg (not_not.mpr last), if_pos behind]
  have next := set_at (before ++ [hexDigits.getD (v % 16) 0]) rest c 0
  rw [List.length_append, List.length_singleton, List.append_assoc, List.append_assoc,
    List.singleton_append, List.singleton_append] at next
  rw [next]

theorem encodeTurn_more {v : Nat} (more : v / 16 ≠ 0) (before rest : Text) (b : Byte) :
    encodeTurn (before ++ b :: rest, before.length, v) =
      .again ((before ++ [hexDigits.getD (v % 16) 0]) ++ rest,
        (before ++ [hexDigits.getD (v % 16) 0]).length, v / 16) := by
  have here : before.length < (before ++ b :: rest).length := by simp
  rw [encodeTurn, if_pos here, set_at]
  simp only [if_pos more, List.append_assoc, List.singleton_append, List.length_append,
    List.length_singleton]

/-- The encoder writes the text and a zero, and nothing behind them. -/
theorem encode_ends {k v : Nat} (small : v < 16 ^ (k + 1)) (before buffer : Text)
    (room : (toRhexFrom (k + 1) v).length + 1 ≤ buffer.length) :
    Ends encodeTurn (before ++ buffer, before.length, v)
      (before ++ (toRhexFrom (k + 1) v ++
        0 :: buffer.drop ((toRhexFrom (k + 1) v).length + 1))) := by
  induction k generalizing v before buffer with
  | zero =>
    have last : v / 16 = 0 := by omega
    have text : toRhexFrom 1 v = [hexDigits.getD (v % 16) 0] := by rw [toRhexFrom, if_pos last]
    rw [text] at room ⊢
    match buffer, room with
    | b :: c :: rest, _ => exact Ends.of_leave (encodeTurn_last last before rest b c)
  | succ k ih =>
    by_cases last : v / 16 = 0
    · have text : toRhexFrom (k + 2) v = [hexDigits.getD (v % 16) 0] := by
        rw [toRhexFrom, if_pos last]
      rw [text] at room ⊢
      match buffer, room with
      | b :: c :: rest, _ => exact Ends.of_leave (encodeTurn_last last before rest b c)
    · have text : toRhexFrom (k + 2) v =
          hexDigits.getD (v % 16) 0 :: toRhexFrom (k + 1) (v / 16) := by
        rw [toRhexFrom, if_neg last]
      rw [text, List.length_cons] at room
      rw [Nat.pow_succ] at small
      match buffer, room with
      | b :: rest, room =>
        rw [ends_of_again (encodeTurn_more last before rest b)]
        have deeper := ih (by omega) (before ++ [hexDigits.getD (v % 16) 0]) rest
          (Nat.le_of_succ_le_succ room)
        rw [text, List.length_cons, List.drop_succ_cons, List.cons_append]
        have joined := List.append_assoc before [hexDigits.getD (v % 16) 0]
          (toRhexFrom (k + 1) (v / 16) ++
            0 :: rest.drop ((toRhexFrom (k + 1) (v / 16)).length + 1))
        rw [joined] at deeper
        exact deeper

/-- The decoder looks at the characters of its text only. -/
theorem decode_ends {s : Text} (first : s.head? ≠ some 0) (before rest : Text) (ret : Nat)
    (split : s = before ++ rest) :
    Ends (decodeTurn s) (before.length, ret) (ofBits64 (rest.foldl (fun ret b =>
      match rhexDigit b with
      | some d => (ret + d) * 16 % 18446744073709551616
      | none => ret) ret)) := by
  induction rest generalizing before ret with
  | nil =>
    rw [List.append_nil] at split
    refine Ends.of_leave ?_
    rw [decodeTurn, if_neg (by rw [split]; omega)]
    rfl
  | cons c rest ih =>
    have inside : before.length < s.length := by
      rw [split, List.length_append, List.length_cons]
      omega
    have here : s[before.length]? = some c := by
      rw [split, List.getElem?_append_right (Nat.le_refl _), Nat.sub_self]
      rfl
    obtain ⟨b, others, start⟩ : ∃ b others, s = b :: others :=
      List.exists_cons_of_length_pos (Nat.zero_lt_of_lt inside)
    have solid : b ≠ 0 := fun zero => first (by rw [start, zero]; rfl)
    have turn : decodeTurn s (before.length, ret) = .again (before.length + 1,
        match rhexDigit c with
        | some d => (ret + d) * 16 % 18446744073709551616
        | none => ret) := by
      have front : s[0]? = some b := by rw [start]; rfl
      rw [decodeTurn, if_pos inside, front, Turn.guard_some, if_neg solid, here, Turn.guard_some]
    rw [ends_of_again turn]
    have next := ih (before ++ [c]) (match rhexDigit c with
      | some d => (ret + d) * 16 % 18446744073709551616
      | none => ret) (by rw [split, List.append_assoc]; rfl)
    rwa [List.length_append, List.length_singleton] at next

theorem decode_ends_fromRhex {s : Text} (short : s.length < 256) :
    Ends (decodeTurn s) (0, 0) (fromRhex s) := by
  rw [fromRhex]
  by_cases zero : s.head? = some 0
  · obtain ⟨others, start⟩ := List.head?_eq_some_iff.mp zero
    rw [if_pos zero]
    refine Ends.of_leave ?_
    rw [start, decodeTurn, if_pos (by simp)]
    rfl
  · rw [if_neg zero, Nat.mod_eq_of_lt short, List.take_length]
    exact decode_ends zero [] s 0 rfl

/-! ## Codecs -/

namespace IntType
variable {T : IntType} {n : Int}

theorem Holds.int64 (holds : T.Holds n) : int64.Holds n := by
  cases T with
  | int64 => exact holds
  | uint32 =>
    obtain ⟨low, high⟩ := holds
    exact ⟨by omega, by omega⟩

theorem Holds.unsigned_eq (holds : T.Holds n) : T.unsigned n = bits64 n := by
  cases T with
  | int64 => rfl
  | uint32 =>
    obtain ⟨low, high⟩ := holds
    simp only [unsigned, toUint32, bits64]
    omega

theorem Holds.unsigned_lt (holds : T.Holds n) : T.unsigned n < 16 ^ (T.maxHexChars - 1 + 1) := by
  cases T with
  | int64 =>
    simp only [unsigned, bits64, maxHexChars, digits]
    omega
  | uint32 =>
    simp only [unsigned, toUint32, maxHexChars, digits]
    omega

end IntType

theorem ofBits64_eq_iff {n : Int} (holds : IntType.int64.Holds n) (bits : Nat) :
    ofBits64 bits = n ↔ bits % 18446744073709551616 = bits64 n := by
  obtain ⟨low, high⟩ := holds
  simp only [ofBits64, bits64]
  split
  · omega
  · omega

theorem bits64_injective {m n : Int} (holds : IntType.int64.Holds m)
    (holds' : IntType.int64.Holds n) (same : bits64 m = bits64 n) : m = n := by
  obtain ⟨low, high⟩ := holds
  obtain ⟨low', high'⟩ := holds'
  simp only [bits64] at same
  omega

theorem bits64_lt (n : Int) : bits64 n < 16 ^ 16 := by
  simp only [bits64]
  omega

/-- The number that comes back. -/
theorem decoded_iff {n : Int} (holds : IntType.int64.Holds n) :
    fromRhex (toRhex (bits64 n)) = n ↔ Mirrored (bits64 n) := by
  by_cases zero : bits64 n = 0
  · have none_ : n = 0 := bits64_injective holds (by decide) (zero.trans (by decide))
    rw [none_]
    exact iff_of_true (by decide +kernel) (.inl (by decide))
  · rw [fromRhex_toRhex (bits64_lt n) zero, ofBits64_eq_iff holds, Nat.mod_mod]
    exact readBack_iff (bits64_lt n) zero

/-- A number and its text are restored if and only if its digits are mirrored. -/
theorem rhex_iff (T : IntType) (n : Int) (holds : T.Holds n) :
    Codec T n ↔ Mirrored (T.unsigned n) := by
  have text : written T n = toRhex (bits64 n) := by rw [written, holds.unsigned_eq]
  rw [holds.unsigned_eq]
  constructor
  · intro codec
    refine (decoded_iff holds.int64).mp ?_
    rw [← text]
    exact codec.decoded
  · intro mirrored
    have decoded : fromRhex (written T n) = n := by
      rw [text]
      exact (decoded_iff holds.int64).mpr mirrored
    refine ⟨decoded, ?_, ?_, ?_, fun s short => decode_ends_fromRhex short⟩
    · rw [decoded, text]
      rfl
    · intro m holds' same
      rw [text, written, holds'.unsigned_eq] at same
      exact bits64_injective holds'.int64 holds.int64
        (toRhexFrom_injective (bits64_lt m) (bits64_lt n) same)
    · intro buffer room
      have short : (written T n).length ≤ T.maxHexChars - 1 + 1 :=
        length_toRhexFrom holds.unsigned_lt
      have some_ : 0 < T.maxHexChars := by cases T <;> decide
      have ends := encode_ends (k := 15) (holds.unsigned_eq ▸ bits64_lt n) [] buffer
        (show (written T n).length + 1 ≤ buffer.length by omega)
      refine ⟨buffer.drop ((written T n).length + 1), ends, ?_, ?_⟩
      · exact List.drop_suffix_drop_left buffer (by omega)
      · rw [List.length_append, List.length_cons, List.length_drop]
        omega

theorem rhex_iff_sixteen :
    Codec .int64 16 ↔ Mirrored (IntType.int64.unsigned 16) :=
  rhex_iff .int64 16 (by decide)

/-- One comes back as sixteen. -/
theorem one_not_restored :
    IntType.int64.Holds 1 ∧ ¬ Codec .int64 1 ∧ IntType.uint32.Holds 1 ∧ ¬ Codec .uint32 1 := by
  have sixteen : fromRhex (written .int64 1) = 16 := by decide +kernel
  have sixteen' : fromRhex (written .uint32 1) = 16 := by decide +kernel
  refine ⟨by decide, fun codec => ?_, by decide, fun codec => ?_⟩
  · exact absurd (sixteen.symm.trans codec.decoded) (by decide)
  · exact absurd (sixteen'.symm.trans codec.decoded) (by decide)

end RhexCodec
