import Fiy.CivilCalendar
import Fiy.ContactCards
import Fiy.DecimalTexts

/-!
# Cards as text

`to_vcard` and `VC::parse` with the `REV` line and its time. Content lines that are not
folded are split at their ends, and the times of four-digit years are read as written.
-/

namespace CardTexts

open ByteStrings WebText ModLibrary ContactCards ContactCards.VC CivilCalendar DecimalTexts

/-! ## Times -/

/-- `get_timestamp_str`: there is room for sixteen characters, and nothing is promised about
the buffer after a longer text. -/
def getTimestampStr (t : Int) : Option Text :=
  if (timestampStr t).length < 17 then some (timestampStr t) else none

/-- A conversion of `sscanf`, or a character that has to be there. -/
inductive Directive
  | int (width : Nat)
  | char (b : Byte)

/-- Blanks, a sign and digits, up to a width. -/
def scanInt (width : Nat) (t : Text) : Option (Int × Text) :=
  let t := t.dropWhile isSpace
  let signed := t.head? = some 45 ∨ t.head? = some 43
  let field := if signed then t.tail else t
  let digits := (field.take (if signed then width - 1 else width)).takeWhile isDigit
  if digits = [] then none
  else some (if t.head? = some 45 then -(ofDecimal digits : Int) else ofDecimal digits,
    field.drop digits.length)

/-- `sscanf`: the numbers that are assigned. -/
def sscanf : List Directive → Text → List Int
  | [], _ => []
  | .int width :: format, t => match scanInt width t with
    | none => []
    | some (n, rest) => n :: sscanf format rest
  | .char b :: format, t => if t.head? = some b then sscanf format t.tail else []

theorem sscanf_int {width : Nat} {t rest : Text} {n : Int} (read : scanInt width t = some (n, rest))
    (format : List Directive) : sscanf (.int width :: format) t = n :: sscanf format rest := by
  rw [sscanf, read]

theorem sscanf_char (b : Byte) (rest : Text) (format : List Directive) :
    sscanf (.char b :: format) (b :: rest) = sscanf format rest := by
  rw [sscanf, List.head?_cons, if_pos rfl, List.tail_cons]

/-- `%4d%2d%2dT%2d%2d%2d` -/
def timestampFormat : List Directive :=
  [.int 4, .int 2, .int 2, .char 84, .int 2, .int 2, .int 2]

/-- `mktime` on a server in UTC: values outside of their ranges are carried. -/
def mktime (year month day hour min sec : Int) : Int :=
  dayOfDate year month day * 86400 + hour * 3600 + min * 60 + sec

/-- `parse_timestamp_str`: what was not assigned is zero. -/
def parseTimestampStr (str : Text) : Int :=
  let fields := sscanf timestampFormat (cstr str)
  mktime (fields.getD 0 0) (fields.getD 1 0) (fields.getD 2 0) (fields.getD 3 0)
    (fields.getD 4 0) (fields.getD 5 0)

example : parseTimestampStr (timestampStr 1700000000) = 1700000000 := by decide +kernel

theorem scanInt_digits {digits : Text} (digit : ∀ b ∈ digits, isDigit b = true)
    (some_ : digits ≠ []) (rest : Text) :
    scanInt digits.length (digits ++ rest) = some ((ofDecimal digits : Int), rest) := by
  obtain ⟨b, more, rfl⟩ := List.exists_cons_of_ne_nil some_
  have first := solid_of_isDigit (digit b List.mem_cons_self)
  have kept : (b :: more ++ rest).dropWhile isSpace = b :: more ++ rest := by
    rw [List.cons_append, List.dropWhile_cons_of_neg (by simp [first.1])]
  have unsigned : ¬ ((b :: more ++ rest).head? = some 45 ∨
      (b :: more ++ rest).head? = some 43) := by
    simp [first.2]
  have positive : (b :: more ++ rest).head? ≠ some 45 := by simp [first.2]
  have taken : ((b :: more ++ rest).take (b :: more).length).takeWhile isDigit = b :: more := by
    rw [List.take_left, List.takeWhile_eq_self_iff]
    exact digit
  simp only [scanInt, kept, if_neg unsigned, taken, if_neg some_, if_neg positive,
    List.drop_left]

/-- A minus sign is one of the characters. -/
theorem scanInt_negative {digits : Text} (digit : ∀ b ∈ digits, isDigit b = true)
    (some_ : digits ≠ []) (rest : Text) :
    scanInt (digits.length + 1) (45 :: (digits ++ rest)) =
      some (-(ofDecimal digits : Int), rest) := by
  have kept : (45 :: (digits ++ rest)).dropWhile isSpace = 45 :: (digits ++ rest) := by
    rw [List.dropWhile_cons_of_neg (by decide)]
  have taken : ((digits ++ rest).take digits.length).takeWhile isDigit = digits := by
    rw [List.take_left, List.takeWhile_eq_self_iff]
    exact digit
  simp only [scanInt, kept, List.head?_cons, true_or, if_true, List.tail_cons,
    Nat.add_sub_cancel, taken, if_neg some_, List.drop_left]

theorem twoDigits_digits {n : Int} (from_ : 0 ≤ n) (below : n < 100) :
    (∀ b ∈ twoDigits n, isDigit b = true) ∧ (twoDigits n).length = 2 ∧
      (ofDecimal (twoDigits n) : Int) = n := by
  have all : ∀ n ∈ List.range 100, (twoDigits n).all isDigit = true ∧
      (twoDigits n).length = 2 ∧ (ofDecimal (twoDigits n) : Int) = n := by
    decide +kernel
  have here := all n.toNat (List.mem_range.mpr (by omega))
  have same : ((n.toNat : Nat) : Int) = n := Int.toNat_of_nonneg from_
  rwa [same, List.all_eq_true] at here

theorem scanInt_twoDigits {n : Int} (from_ : 0 ≤ n) (below : n < 100) (rest : Text) :
    scanInt 2 (twoDigits n ++ rest) = some (n, rest) := by
  obtain ⟨digits, length, value⟩ := twoDigits_digits from_ below
  have some_ : twoDigits n ≠ [] := by
    rw [← List.length_pos_iff]
    omega
  rw [← length, scanInt_digits digits some_, value]

theorem decimal_length {n k : Nat} (from_ : 10 ^ k ≤ n) (below : n < 10 ^ (k + 1)) (pos : 0 < k) :
    (decimal n).length = k + 1 := by
  have upper : (Nat.toDigits 10 n).length ≤ k + 1 ↔ n < 10 ^ (k + 1) :=
    Nat.length_toDigits_le_iff (by omega) (by omega)
  have lower : (Nat.toDigits 10 n).length ≤ k ↔ n < 10 ^ k :=
    Nat.length_toDigits_le_iff (by omega) (by omega)
  simp only [decimal, List.length_map]
  omega

/-- A year that takes four characters. -/
def FourCharacters (year : Int) : Prop := (1000 ≤ year ∧ year ≤ 9999) ∨ (-999 ≤ year ∧ year ≤ -100)

instance (year : Int) : Decidable (FourCharacters year) := inferInstanceAs (Decidable (_ ∨ _))

theorem decimalInt_year {year : Int} (four : FourCharacters year) (rest : Text) :
    (decimalInt year).length = 4 ∧ scanInt 4 (decimalInt year ++ rest) = some (year, rest) := by
  unfold decimalInt
  rcases four with ⟨from_, below⟩ | ⟨from_, below⟩
  · have length := decimal_length (n := year.natAbs) (k := 3) (by omega) (by omega) (by omega)
    have scan := scanInt_digits (fun b => isDigit_of_mem_decimal (n := year.natAbs))
      (decimal_ne_nil _) rest
    have value : ((year.natAbs : Nat) : Int) = year := by omega
    rw [length, ofDecimal_decimal, value] at scan
    rw [if_neg (by omega)]
    exact ⟨length, scan⟩
  · have length := decimal_length (n := year.natAbs) (k := 2) (by omega) (by omega) (by omega)
    have scan := scanInt_negative (fun b => isDigit_of_mem_decimal (n := year.natAbs))
      (decimal_ne_nil _) rest
    have value : -((year.natAbs : Nat) : Int) = year := by omega
    rw [length, ofDecimal_decimal, value] at scan
    rw [if_pos (by omega), List.length_cons, length]
    exact ⟨rfl, scan⟩

/-! ## Dates -/

/-- The date of a day is in the ranges of a calendar and stands for that day. -/
theorem civilDate_day (day : Int) :
    1 ≤ (civilDate day).2.1 ∧ (civilDate day).2.1 ≤ 12 ∧
    1 ≤ (civilDate day).2.2 ∧ (civilDate day).2.2 ≤ 31 ∧
    dayOfDate (civilDate day).1 (civilDate day).2.1 (civilDate day).2.2 = day := by
  have from_ : 0 ≤ (day + 719468) % 146097 := Int.emod_nonneg _ (by omega)
  have below : (day + 719468) % 146097 < 146097 := Int.emod_lt_of_pos _ (by omega)
  have whole : (day + 719468) / 146097 * 146097 + (day + 719468) % 146097 = day + 719468 := by omega
  have date : civilDate day =
      let era := (day + 719468) / 146097
      let doe := (day + 719468) % 146097
      let mp := shiftedMonth (dayOfYear doe)
      let month := if mp < 10 then mp + 3 else mp - 9
      (yearOfEra doe + era * 400 + (if month ≤ 2 then 1 else 0), month,
        dayOfYear doe - (153 * mp + 2) / 5 + 1) := rfl
  rw [date]
  generalize (day + 719468) / 146097 = era at whole ⊢
  generalize (day + 719468) % 146097 = doe at from_ below whole ⊢
  obtain ⟨_, _, first, last⟩ := bounds from_ below
  obtain ⟨mp_from, mp_below, day_from, day_below⟩ := shiftedMonth_bounds first last
  have days := firstOfShifted_era era doe from_ below
  have carried : ∀ (p : Prop) [Decidable p] (year : Int),
      year + (if p then 1 else 0) = if p then year + 1 else year := by
    intro p _ year
    split
    · rfl
    · exact Int.add_zero year
  simp only [carried, dayOfDate_shifted _ _ _ mp_from mp_below]
  generalize shiftedMonth (dayOfYear doe) = mp at *
  generalize dayOfYear doe - (153 * mp + 2) / 5 = d at *
  refine ⟨?_, ?_, by omega, by omega, by omega⟩
  · split <;> omega
  · split <;> omega

theorem timestampStr_eq (t : Int) : timestampStr t =
    decimalInt (civilDate (t / 86400)).1 ++ (twoDigits (civilDate (t / 86400)).2.1 ++
      (twoDigits (civilDate (t / 86400)).2.2 ++ (84 :: (twoDigits (t % 86400 / 3600) ++
        (twoDigits (t % 3600 / 60) ++ (twoDigits (t % 60) ++ [90])))))) := by
  simp only [timestampStr, List.append_assoc]
  rfl

theorem decimalInt_bytes {n : Int} {b : Byte} (mem : b ∈ decimalInt n) : 45 ≤ b.toNat := by
  have digits : b ∈ decimal n.natAbs → 45 ≤ b.toNat := by
    intro mem
    have digit := isDigit_of_mem_decimal mem
    simp only [isDigit, Bool.and_eq_true, decide_eq_true_eq, UInt8.le_iff_toNat_le,
      UInt8.reduceToNat] at digit
    omega
  unfold decimalInt at mem
  split at mem
  · rcases List.mem_cons.mp mem with rfl | mem
    · exact le_rfl
    · exact digits mem
  · exact digits mem

theorem twoDigits_bytes {n : Int} {b : Byte} (mem : b ∈ twoDigits n) : 45 ≤ b.toNat := by
  rw [twoDigits, List.mem_append] at mem
  rcases mem with mem | mem
  · split at mem
    · have zero : lit "0" = [48] := by decide
      rw [zero, List.mem_singleton] at mem
      subst mem
      decide
    · cases mem
  · exact decimalInt_bytes mem

theorem timestampStr_bytes {t : Int} {b : Byte} (mem : b ∈ timestampStr t) : 45 ≤ b.toNat := by
  simp only [timestampStr_eq, List.mem_append, List.mem_cons, List.not_mem_nil, or_false] at mem
  rcases mem with mem | mem | mem | rfl | mem | mem | mem | rfl
  · exact decimalInt_bytes mem
  · exact twoDigits_bytes mem
  · exact twoDigits_bytes mem
  · decide
  · exact twoDigits_bytes mem
  · exact twoDigits_bytes mem
  · exact twoDigits_bytes mem
  · decide

/-- A time in a year of four characters fits into the buffer and is read back. -/
theorem timestamp_returns {t : Int} (four : FourCharacters (civilDate (t / 86400)).1) :
    getTimestampStr t = some (timestampStr t) ∧ parseTimestampStr (timestampStr t) = t := by
  obtain ⟨month_from, month_below, day_from, day_below, day_⟩ := civilDate_day (t / 86400)
  have whole : cstr (timestampStr t) = timestampStr t := by
    rw [cstr_eq_self_iff]
    intro zero
    exact absurd (timestampStr_bytes zero) (by decide)
  have length : ∀ n : Int, 0 ≤ n → n < 100 → (twoDigits n).length = 2 :=
    fun n from_ below => (twoDigits_digits from_ below).2.1
  constructor
  · have short : (timestampStr t).length < 17 := by
      rw [timestampStr_eq]
      simp only [List.length_append, List.length_cons, List.length_nil,
        (decimalInt_year four []).1]
      rw [length _ (by omega) (by omega), length _ (by omega) (by omega),
        length _ (by omega) (by omega), length _ (by omega) (by omega),
        length _ (by omega) (by omega)]
      omega
    rw [getTimestampStr, if_pos short]
  · have scan : ∀ (n : Int) (rest : Text), 0 ≤ n → n < 100 →
        scanInt 2 (twoDigits n ++ rest) = some (n, rest) :=
      fun n rest from_ below => scanInt_twoDigits from_ below rest
    have fields : sscanf timestampFormat (timestampStr t) =
        [(civilDate (t / 86400)).1, (civilDate (t / 86400)).2.1, (civilDate (t / 86400)).2.2,
          t % 86400 / 3600, t % 3600 / 60, t % 60] := by
      rw [timestampStr_eq, timestampFormat, sscanf_int (decimalInt_year four _).2,
        sscanf_int (scan _ _ (by omega) (by omega)), sscanf_int (scan _ _ (by omega) (by omega)),
        sscanf_char, sscanf_int (scan _ _ (by omega) (by omega)),
        sscanf_int (scan _ _ (by omega) (by omega)), sscanf_int (scan _ _ (by omega) (by omega)),
        sscanf]
    simp only [parseTimestampStr, whole, fields, List.getD_cons_zero, List.getD_cons_succ, mktime,
      day_]
    omega

/-! ## Reading and writing -/

/-- `to_vcard`, if the time fits into its buffer. -/
def writeVcard (host : ModHost) (vc : VC) : Option Text :=
  if vc.invalid = false ∧ vc.updateTs ≠ 0 ∧ getTimestampStr vc.updateTs = none then none
  else some (vc.toVcard host)

/-- A line of `VC::parse`, with the `REV` line. -/
def readLine (host : ModHost) (card : VC) (line : Text) : Option VC :=
  match cut 58 line with
  | none => none
  | some (field, value) =>
    if field.takeWhile (· ≠ 59) = "REV" then
      some { card with updateTs := parseTimestampStr value }
    else parseLine host card line

def readLines (host : ModHost) : VC → List Text → Bool × VC
  | card, [] => (true, card)
  | card, line :: lines => match readLine host card line with
    | none => (false, card)
    | some card => readLines host card lines

/-- `VC::parse` -/
def readVcard (host : ModHost) (card : VC) (vc : Text) : Bool × VC :=
  let vc := trim vc
  if lit "BEGIN:VCARD" <+: vc then readLines host card (cardLines (unfoldLines vc))
  else (false, card)

section reading
variable {host : ModHost}

def withTime (t : Int) (card : VC) : VC := { card with updateTs := t }

/-- Other lines do not look at the time. -/
theorem parseLine_withTime (card : VC) (line : Text) (t : Int) :
    parseLine host (withTime t card) line = (parseLine host card line).map (withTime t) := by
  unfold parseLine
  cases cut 58 line with
  | none => rfl
  | some parts =>
    obtain ⟨field, value⟩ := parts
    simp only
    split_ifs
    · rfl
    · rfl
    · rfl
    · rfl
    · split
      · rfl
      · rfl

/-- Without the time the lines are read as the mod keeps them. -/
theorem readLine_withTime (card : VC) (line : Text) (t : Int) :
    (readLine host card line).map (withTime t) = parseLine host (withTime t card) line := by
  unfold readLine
  cases hcut : cut 58 line with
  | none => simp [parseLine, hcut]
  | some parts =>
    obtain ⟨field, value⟩ := parts
    simp only
    split
    next rev =>
      simp only [parseLine, hcut, rev]
      rfl
    next => exact (parseLine_withTime card line t).symm

theorem readLines_withTime (card : VC) (lines : List Text) (t : Int) :
    parseLines host (withTime t card) lines =
      ((readLines host card lines).1, withTime t (readLines host card lines).2) := by
  induction lines generalizing card with
  | nil => rfl
  | cons line lines ih =>
    have step : (readLine host card line).map (withTime t) =
        parseLine host (withTime t card) line := readLine_withTime card line t
    rw [parseLines, readLines, ← step]
    cases readLine host card line with
    | none => rfl
    | some next => exact ih next

/-- What the mod keeps of a posted card is what is read of it, without the time. -/
theorem parse_eq_readVcard (card : VC) (vc : Text) : card.parse host vc =
    ((readVcard host card vc).1, withTime card.updateTs (readVcard host card vc).2) := by
  unfold VC.parse readVcard
  simp only
  split
  · exact readLines_withTime card _ card.updateTs
  · rfl

theorem readLines_cons {card next : VC} {line : Text} (read : readLine host card line = some next)
    (lines : List Text) : readLines host card (line :: lines) = readLines host next lines := by
  rw [readLines, read]

end reading

/-! ## Lines -/

/-- A beginning without line ends is kept. -/
theorem unfoldLines_append {front : Text} (plain : newline ∉ front) (rest : Text) :
    unfoldLines (front ++ rest) = front ++ unfoldLines rest := by
  induction front with
  | nil => rfl
  | cons b front ih =>
    obtain ⟨other, plain⟩ := List.ne_and_not_mem_of_not_mem_cons plain
    rw [List.cons_append]
    cases next : front ++ rest with
    | nil =>
      obtain ⟨rfl, rfl⟩ := List.append_eq_nil_iff.mp next
      rfl
    | cons c more =>
      have kept : ¬ (b = newline ∧ isSpace c = true) := fun both => other both.1.symm
      rw [unfoldLines, if_neg kept, ← next, ih plain, List.cons_append]

theorem unfoldLines_cons {b : Byte} (other : b ≠ newline) (rest : Text) :
    unfoldLines (b :: rest) = b :: unfoldLines rest := by
  have plain : newline ∉ [b] := fun mem => other (List.mem_singleton.mp mem).symm
  exact unfoldLines_append plain rest

theorem unfoldLines_blank {b : Byte} (blank : isSpace b = true) (rest : Text) :
    unfoldLines (newline :: b :: rest) = unfoldLines rest := by
  rw [unfoldLines, if_pos ⟨rfl, blank⟩]

theorem unfoldLines_solid {rest : Text} (starts : startsLine rest = true) :
    unfoldLines (newline :: rest) = newline :: unfoldLines rest := by
  cases rest with
  | nil => cases starts
  | cons b rest =>
    have solid : ¬ (newline = newline ∧ isSpace b = true) := by simpa [startsLine] using starts
    rw [unfoldLines, if_neg solid]

theorem unfoldLines_crlf {rest : Text} (starts : startsLine rest = true) :
    unfoldLines (crlf ++ rest) = crlf ++ unfoldLines rest := by
  have split_ : crlf ++ rest = 13 :: newline :: rest := rfl
  have other : (13 : Byte) ≠ newline := by decide
  rw [split_, unfoldLines_cons other, unfoldLines_solid starts]
  rfl

theorem cardLines_cons (b : Byte) (rest : Text) : cardLines (b :: rest) =
    if b = 13 ∧ rest.head? = some newline ∧ startsLine rest.tail then cardLines rest
    else if (b = 13 ∨ b = newline) ∧ startsLine rest then [] :: cardLines rest
    else match cardLines rest with
      | [] => [[b]]
      | line :: lines => (b :: line) :: lines := rfl

theorem cardLines_ne_nil (t : Text) : cardLines t ≠ [] := by
  induction t with
  | nil => simp [cardLines]
  | cons b rest ih =>
    rw [cardLines_cons]
    split
    · exact ih
    · split
      · exact List.cons_ne_nil _ _
      · split
        · exact List.cons_ne_nil _ _
        · exact List.cons_ne_nil _ _

/-- The lines behind a line end are separate from those before it. -/
theorem cardLines_crlf {front rest : Text} (plain : newline ∉ front)
    (starts : startsLine rest = true) :
    cardLines (front ++ (crlf ++ rest)) = cardLines front ++ cardLines rest := by
  induction front with
  | nil =>
    have both : ([] : Text) ++ (crlf ++ rest) = 13 :: newline :: rest := rfl
    have solid : ¬ (newline = 13 ∧ rest.head? = some newline ∧ startsLine rest.tail = true) :=
      fun h => absurd h.1 (by decide)
    rw [both, cardLines_cons, if_pos ⟨rfl, rfl, starts⟩, cardLines_cons, if_neg solid,
      if_pos ⟨Or.inr rfl, starts⟩]
    rfl
  | cons b front ih =>
    obtain ⟨_, plain⟩ := List.ne_and_not_mem_of_not_mem_cons plain
    have head : (front ++ (crlf ++ rest)).head? ≠ some newline ∧ front.head? ≠ some newline := by
      cases front with
      | nil =>
        have return_ : (13 : Byte) ≠ newline := by decide
        simp [crlf, return_]
      | cons c front =>
        have other := (List.ne_and_not_mem_of_not_mem_cons plain).1
        simp [other.symm]
    have start : startsLine (front ++ (crlf ++ rest)) = startsLine front := by
      cases front with
      | nil => rfl
      | cons c front => rfl
    have whole : ¬ (b = 13 ∧ (front ++ (crlf ++ rest)).head? = some newline ∧
        startsLine (front ++ (crlf ++ rest)).tail = true) := fun h => head.1 h.2.1
    have part : ¬ (b = 13 ∧ front.head? = some newline ∧ startsLine front.tail = true) :=
      fun h => head.2 h.2.1
    rw [List.cons_append, cardLines_cons, if_neg whole, cardLines_cons b front, if_neg part, start,
      ih plain]
    split
    · rfl
    · cases lines : cardLines front with
      | nil => exact absurd lines (cardLines_ne_nil front)
      | cons line lines => rfl

/-- A text without line ends. -/
def Unbroken (t : Text) : Prop := ∀ b ∈ t, b ≠ 13 ∧ b ≠ newline

instance (t : Text) : Decidable (Unbroken t) :=
  List.decidableBAll (fun b => b ≠ 13 ∧ b ≠ newline) t

theorem cardLines_plain {t : Text} (plain : Unbroken t) : cardLines t = [t] := by
  induction t with
  | nil => rfl
  | cons b rest ih =>
    have other := plain b List.mem_cons_self
    rw [cardLines_cons, if_neg (fun h => other.1 h.1),
      if_neg (fun h => h.1.elim other.1 other.2),
      ih fun c mem => plain c (List.mem_cons_of_mem b mem)]

/-- A content line: it has no line ends and begins with something that is not blank. -/
structure IsLine (line : Text) : Prop where
  plain : Unbroken line
  starts : startsLine line = true

def joinLines (lines : List Text) (last : Text) : Text :=
  lines.flatMap (fun line => line ++ crlf) ++ last

theorem joinLines_cons (line : Text) (lines : List Text) (last : Text) :
    joinLines (line :: lines) last = line ++ (crlf ++ joinLines lines last) := by
  simp [joinLines]

theorem startsLine_append {t : Text} (starts : startsLine t = true) (rest : Text) :
    startsLine (t ++ rest) = true := by
  cases t with
  | nil => cases starts
  | cons b t => exact starts

theorem startsLine_joinLines {lines : List Text} {last : Text} (are : ∀ l ∈ lines, IsLine l)
    (is : IsLine last) : startsLine (joinLines lines last) = true := by
  cases lines with
  | nil => exact is.starts
  | cons line lines =>
    rw [joinLines_cons]
    exact startsLine_append (are line List.mem_cons_self).starts _

/-- Lines that are not folded come back one by one. -/
theorem cardLines_joinLines {lines : List Text} {last : Text} (are : ∀ l ∈ lines, IsLine l)
    (is : IsLine last) : unfoldLines (joinLines lines last) = joinLines lines last ∧
      cardLines (joinLines lines last) = lines ++ [last] := by
  induction lines with
  | nil =>
    have plain : newline ∉ last := fun mem => (is.plain newline mem).2 rfl
    have whole := unfoldLines_append plain []
    rw [List.append_nil] at whole
    refine ⟨?_, cardLines_plain is.plain⟩
    rw [joinLines, List.flatMap_nil, List.nil_append, whole, unfoldLines, List.append_nil]
  | cons line lines ih =>
    obtain ⟨first, are⟩ := List.forall_mem_cons.mp are
    obtain ⟨unfolded, lines_⟩ := ih are
    have plain : newline ∉ line := fun mem => (first.plain newline mem).2 rfl
    have starts := startsLine_joinLines are is
    rw [joinLines_cons, unfoldLines_append plain, unfoldLines_crlf starts, unfolded,
      cardLines_crlf plain starts, cardLines_plain first.plain, lines_]
    exact ⟨rfl, rfl⟩

end CardTexts
