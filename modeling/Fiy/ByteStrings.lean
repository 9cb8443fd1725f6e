import Mathlib.Data.List.Basic
import Mathlib.Data.List.TakeWhile

/-!
# Byte strings

The value semantics of `std::string` and `std::string_view`: a finite list of
8-bit bytes, embedded zeros included. The idiom `find` followed by two `substr`
calls is one operation, `cut`, and its lemmas are the only facts about scanning
that later modules use. Positions and allocation are not modelled.
-/

namespace ByteStrings

universe u

abbrev Byte := UInt8

abbrev Text := List Byte

/-- A source literal. Only ASCII literals occur. -/
def lit (s : String) : Text := s.toList.map Char.toUInt8

instance : Coe String Text := ⟨lit⟩

/-- A literal by its characters, to evaluate it. -/
theorem lit_ofList (chars : List Char) : lit (String.ofList chars) = chars.map Char.toUInt8 := by
  rw [lit, String.toList_ofList]

/-- Lists of texts are searched by comparing bytes. -/
instance : LawfulBEq Text := inferInstance

/-- `'\n'` -/
abbrev newline : Byte := 10

section cutting
variable {α : Type u} [DecidableEq α]

/-- The parts before and after the first `sep`, when there is one. -/
def cut (sep : α) : List α → Option (List α × List α)
  | [] => none
  | a :: rest =>
    if a = sep then some ([], rest)
    else (cut sep rest).map fun p => (a :: p.1, p.2)

theorem cut_append {sep : α} {before : List α} (absent : sep ∉ before)
    (after : List α) : cut sep (before ++ sep :: after) = some (before, after) := by
  induction before with
  | nil => simp [cut]
  | cons a before ih =>
    obtain ⟨hne, hrest⟩ := List.ne_and_not_mem_of_not_mem_cons absent
    simp [cut, Ne.symm hne, ih hrest]

theorem cut_eq_some_iff {sep : α} {text before after : List α} :
    cut sep text = some (before, after) ↔
      text = before ++ sep :: after ∧ sep ∉ before := by
  constructor
  · intro found
    induction text generalizing before with
    | nil => cases found
    | cons a text ih =>
      by_cases ha : a = sep
      · simp only [cut, ha, if_true, Option.some.injEq, Prod.mk.injEq] at found
        obtain ⟨rfl, rfl⟩ := found
        exact ⟨by simp [ha], List.not_mem_nil⟩
      · simp only [cut, ha, if_false, Option.map_eq_some_iff, Prod.mk.injEq] at found
        obtain ⟨⟨b, c⟩, htail, rfl, rfl⟩ := found
        obtain ⟨heq, habs⟩ := ih htail
        exact ⟨by simp [heq], List.not_mem_cons_of_ne_of_not_mem (Ne.symm ha) habs⟩
  · rintro ⟨rfl, absent⟩
    exact cut_append absent after

theorem cut_eq_none_iff {sep : α} {text : List α} : cut sep text = none ↔ sep ∉ text := by
  constructor
  · intro missing found
    obtain ⟨before, after, rfl, absent⟩ := List.eq_append_cons_of_mem found
    rw [cut_append absent] at missing
    cases missing
  · intro absent
    cases found : cut sep text with
    | none => rfl
    | some parts =>
      obtain ⟨rfl, _⟩ := cut_eq_some_iff.mp found
      simp at absent

/-- Both parts are shorter than the text they come from. -/
theorem cut_length {sep : α} {text before after : List α}
    (found : cut sep text = some (before, after)) :
    before.length + after.length + 1 = text.length := by
  obtain ⟨rfl, _⟩ := cut_eq_some_iff.mp found
  simp
  omega

end cutting

/-- The pieces of a split text have its bytes, and no separator among them. -/
theorem mem_of_mem_splitOnP {α : Type u} {sep : α → Bool} {text piece : List α}
    (listed : piece ∈ text.splitOnP sep) {a : α} (inside : a ∈ piece) :
    a ∈ text ∧ sep a = false := by
  induction text generalizing piece with
  | nil =>
    rw [List.splitOnP_nil, List.mem_singleton] at listed
    exact absurd (listed ▸ inside) List.not_mem_nil
  | cons b text ih =>
    rw [List.splitOnP_cons_eq_if_modifyHead] at listed
    split at listed
    · rcases List.mem_cons.mp listed with rfl | listed
      · cases inside
      · obtain ⟨mem, plain⟩ := ih listed inside
        exact ⟨List.mem_cons_of_mem b mem, plain⟩
    next plain =>
      cases pieces : text.splitOnP sep with
      | nil => exact absurd pieces (List.splitOnP_ne_nil sep text)
      | cons first rest =>
        rw [pieces] at ih listed
        rcases List.mem_cons.mp listed with rfl | listed
        · rcases List.mem_cons.mp inside with rfl | inside
          · exact ⟨List.mem_cons_self, Bool.eq_false_iff.mpr plain⟩
          · obtain ⟨mem, plain⟩ := ih List.mem_cons_self inside
            exact ⟨List.mem_cons_of_mem b mem, plain⟩
        · obtain ⟨mem, plain⟩ := ih (List.mem_cons_of_mem first listed) inside
          exact ⟨List.mem_cons_of_mem b mem, plain⟩

/-- What is not the separator comes from one of the pieces. -/
theorem mem_intercalate_iff {α : Type u} {sep a : α} (other : a ≠ sep) {pieces : List (List α)} :
    a ∈ List.intercalate [sep] pieces ↔ ∃ piece ∈ pieces, a ∈ piece := by
  induction pieces with
  | nil => simp
  | cons piece pieces ih =>
    cases pieces with
    | nil => simp
    | cons second rest =>
      rw [List.intercalate_cons_cons, List.mem_append, List.mem_append, List.mem_singleton, ih]
      simp [other]

/-- The text a C string ends at: everything before the first zero byte. -/
def cstr (t : Text) : Text := t.takeWhile (· ≠ 0)

theorem cstr_eq_self_iff {t : Text} : cstr t = t ↔ (0 : Byte) ∉ t := by
  rw [cstr, List.takeWhile_eq_self_iff]
  constructor
  · intro each found
    simpa using each 0 found
  · intro absent b hb
    simp only [decide_eq_true_eq]
    rintro rfl
    exact absent hb

/-- `tolower` of the C locale. -/
def lower (b : Byte) : Byte := if 65 ≤ b ∧ b ≤ 90 then b + 32 else b

def isDigit (b : Byte) : Bool := 48 ≤ b && b ≤ 57

/-- `isalnum` of the C locale. -/
def isAlnum (b : Byte) : Bool :=
  isDigit b || (65 ≤ b && b ≤ 90) || (97 ≤ b && b ≤ 122)

/-- Equality of header names and the like: ASCII case is ignored. -/
def iequals (a b : Text) : Bool := a.map lower = b.map lower

theorem iequals_refl (a : Text) : iequals a a = true := by simp [iequals]

theorem iequals_comm (a b : Text) : iequals a b = iequals b a := by
  simp [iequals, eq_comm]

theorem iequals_trans {a b c : Text} (hab : iequals a b = true)
    (hbc : iequals b c = true) : iequals a c = true := by
  simp only [iequals, decide_eq_true_eq] at *
  exact hab.trans hbc

/-- `std::to_string` of an unsigned value. -/
def decimal (n : Nat) : Text := (Nat.toDigits 10 n).map Char.toUInt8

/-- `std::to_string` of a signed value. -/
def decimalInt (n : Int) : Text :=
  if n < 0 then (45 : Byte) :: decimal n.natAbs else decimal n.natAbs

/-- The value of an alphanumeric digit. -/
def digitVal (b : Byte) : Option Nat :=
  if 48 ≤ b ∧ b ≤ 57 then some (b.toNat - 48)
  else if 97 ≤ b ∧ b ≤ 122 then some (b.toNat - 87)
  else if 65 ≤ b ∧ b ≤ 90 then some (b.toNat - 55)
  else none

/-- The digits of the longest numeric prefix in the given base. -/
def leadingDigits (base : Nat) : Text → List Nat
  | [] => []
  | b :: rest => match digitVal b with
    | some d => if d < base then d :: leadingDigits base rest else []
    | none => []

/-- `std::from_chars` into a signed 64-bit value: an optional minus sign and the
longest run of digits, with what follows ignored. `none` is a non-zero error code.
The library only specifies bases 2 to 36; other bases follow the same rule here. -/
def fromChars (t : Text) (base : Nat) : Option Int :=
  let negative := t.head? = some 45
  let digits := leadingDigits base (if negative then t.tail else t)
  let magnitude : Nat := digits.foldl (fun acc d => acc * base + d) 0
  let value : Int := if negative then -magnitude else magnitude
  if digits = [] then none
  else if -9223372036854775808 ≤ value ∧ value ≤ 9223372036854775807 then some value
  else none

example : fromChars "1700000000" 10 = some 1700000000 := by decide

/-- `isspace` of the C locale. -/
def isSpace (b : Byte) : Bool := b = 32 || (9 ≤ b && b ≤ 13)

/-- The number `strtol` finds in base 10, before it is fitted into a type: blanks, a sign
and digits, with what follows ignored. `none` when there are no digits. -/
def strtolValue (t : Text) : Option Int :=
  let t := t.dropWhile isSpace
  let negative := t.head? = some 45
  let digits := leadingDigits 10 (if t.head? = some 45 ∨ t.head? = some 43 then t.tail else t)
  let magnitude : Nat := digits.foldl (fun acc d => acc * 10 + d) 0
  if digits = [] then none else some (if negative then -magnitude else magnitude)

/-- `strtol`, which stops at the bounds of its type. -/
def strtol (t : Text) : Option Int :=
  (strtolValue t).map fun value => max (-9223372036854775808) (min 9223372036854775807 value)

/-- `std::stoll`: `none` when it throws. -/
def stoll (t : Text) : Option Int :=
  (strtolValue t).filter fun value => -9223372036854775808 ≤ value ∧ value ≤ 9223372036854775807

example : stoll " +42 apples" = some 42 := by decide

end ByteStrings
