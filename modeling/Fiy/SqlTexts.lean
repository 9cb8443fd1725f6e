import Mathlib.Data.List.Count
import Fiy.ByteStrings

/-!
# Texts of queries

The tokens a query is read as, and queries with the tokens they are written with. A scanner
reads byte by byte, so what two texts are read as together is known from what each of them is
read as and from the byte between them.
-/

namespace SqlTexts

open ByteStrings

/-! ## Tokens -/

/-- Words are in lower case. Doubled quotes in a string are not read. -/
inductive Token
  | word (lower : Text)
  | string (value : Text)
  | symbol (text : Text)
  deriving DecidableEq, Repr

/-- What the scanner is inside of, with what it has read of it backwards. -/
inductive Mode
  | between
  | word (rev : Text)
  | string (rev : Text)
  /-- `<` or `>`, which may be followed by `=` -/
  | order (b : Byte)
  deriving DecidableEq, Repr

def isWord (b : Byte) : Bool :=
  (48 ≤ b && b ≤ 57) || (65 ≤ b && b ≤ 90) || (97 ≤ b && b ≤ 122) || b = 95

def lowerByte (b : Byte) : Byte := if 65 ≤ b ∧ b ≤ 90 then b + 32 else b

/-- A byte that is not inside of anything. -/
def enter (b : Byte) : List Token × Mode :=
  if b = 32 then ([], .between)
  else if b = 39 then ([], .string [])
  else if isWord b then ([], .word [lowerByte b])
  else if b = 60 ∨ b = 62 then ([], .order b)
  else ([.symbol [b]], .between)

/-- What is read when the text ends. A string that is not closed is no token of a query. -/
def Mode.finish : Mode → List Token
  | .between => []
  | .word rev => [.word rev.reverse]
  | .string rev => [.symbol (39 :: rev.reverse)]
  | .order b => [.symbol [b]]

def step (mode : Mode) (b : Byte) : List Token × Mode :=
  match mode with
  | .between => enter b
  | .word rev =>
    if isWord b then ([], .word (lowerByte b :: rev))
    else (.word rev.reverse :: (enter b).1, (enter b).2)
  | .string rev => if b = 39 then ([.string rev.reverse], .between) else ([], .string (b :: rev))
  | .order c =>
    if b = 61 then ([.symbol [c, 61]], .between) else (.symbol [c] :: (enter b).1, (enter b).2)

def scan (mode : Mode) : Text → List Token × Mode
  | [] => ([], mode)
  | b :: t => ((step mode b).1 ++ (scan (step mode b).2 t).1, (scan (step mode b).2 t).2)

def tokens (t : Text) : List Token := (scan .between t).1 ++ (scan .between t).2.finish

example : tokens "SELECT id FROM T WHERE x>=? AND y='a b'" =
    [.word "select", .word "id", .word "from", .word "t", .word "where", .word "x",
      .symbol ">=", .symbol "?", .word "and", .word "y", .symbol "=", .string "a b"] := by decide

/-! ### Texts that are put together -/

theorem scan_append (mode : Mode) (t u : Text) : scan mode (t ++ u) =
    ((scan mode t).1 ++ (scan (scan mode t).2 u).1, (scan (scan mode t).2 u).2) := by
  induction t generalizing mode with
  | nil => rfl
  | cons b t ih =>
    rw [List.cons_append, scan, ih, scan, List.append_assoc]

/-- What is read of the start of a text stays. -/
theorem scan_front (t u : Text) : (scan .between t).1 <+: tokens (t ++ u) := by
  rw [tokens, scan_append, List.append_assoc]
  exact List.prefix_append _ _

/-- The text is not cut off in a string. -/
def Whole (t : Text) : Prop := ∀ rev, (scan .between t).2 ≠ .string rev

instance (t : Text) : Decidable (Whole t) :=
  match mode : (scan .between t).2 with
  | .string rev => .isFalse fun whole => whole rev mode
  | .between => .isTrue fun _ same => nomatch mode.symm.trans same
  | .word _ => .isTrue fun _ same => nomatch mode.symm.trans same
  | .order _ => .isTrue fun _ same => nomatch mode.symm.trans same

/-- Bytes that end what is in front of them. -/
def separates (b : Byte) : Bool := !isWord b && b != 61

theorem step_separates {mode : Mode} (outside : ∀ rev, mode ≠ .string rev) {b : Byte}
    (sep : separates b = true) :
    step mode b = (mode.finish ++ (enter b).1, (enter b).2) := by
  simp only [separates, Bool.and_eq_true, Bool.not_eq_true', bne_iff_ne, ne_eq] at sep
  cases mode with
  | between => rfl
  | word rev =>
    rw [step, sep.1]
    rfl
  | string rev => exact absurd rfl (outside rev)
  | order c =>
    rw [step, if_neg sep.2]
    rfl

theorem scan_separates {t : Text} (whole : Whole t) {b : Byte} (sep : separates b = true)
    (u : Text) : scan .between (t ++ b :: u) =
      (tokens t ++ ((enter b).1 ++ (scan (enter b).2 u).1), (scan (enter b).2 u).2) := by
  rw [scan_append, scan, step_separates whole sep, tokens]
  simp only [List.append_assoc]

/-- Two texts with a blank between them. -/
theorem tokens_blank {t : Text} (whole : Whole t) (u : Text) :
    tokens (t ++ 32 :: u) = tokens t ++ tokens u := by
  rw [tokens, scan_separates whole (by decide)]
  exact List.append_assoc _ _ _

theorem tokens_comma {t : Text} (whole : Whole t) (u : Text) :
    tokens (t ++ 44 :: u) = tokens t ++ .symbol "," :: tokens u := by
  rw [tokens, scan_separates whole (by decide)]
  exact List.append_assoc _ _ _

theorem whole_separates {t : Text} (whole : Whole t) {b : Byte} (sep : separates b = true)
    (plain : (enter b).2 = .between) {u : Text} (whole' : Whole u) : Whole (t ++ b :: u) := by
  intro rev
  rw [scan_separates whole sep, plain]
  exact whole' rev

/-- A text is read as these tokens, whatever follows behind a blank or a comma. -/
def Reads (t : Text) (read : List Token) : Prop := Whole t ∧ tokens t = read

instance (t : Text) (read : List Token) : Decidable (Reads t read) :=
  inferInstanceAs (Decidable (_ ∧ _))

theorem Reads.blank {t u : Text} {read more : List Token} (first : Reads t read)
    (rest : Reads u more) : Reads (t ++ 32 :: u) (read ++ more) :=
  ⟨whole_separates first.1 (by decide) rfl rest.1,
    (tokens_blank first.1 u).trans (first.2 ▸ rest.2 ▸ rfl)⟩

theorem Reads.comma {t u : Text} {read more : List Token} (first : Reads t read)
    (rest : Reads u more) : Reads (t ++ 44 :: u) (read ++ .symbol "," :: more) :=
  ⟨whole_separates first.1 (by decide) rfl rest.1,
    (tokens_comma first.1 u).trans (first.2 ▸ rest.2 ▸ rfl)⟩

/-! ### Bytes that are kept -/

def Token.text : Token → Text
  | .word t | .string t | .symbol t => t

/-- What has been read and is not in a token yet. -/
def Mode.held : Mode → Text
  | .between => []
  | .word rev | .string rev => rev
  | .order b => [b]

section kept
variable {b : Byte}

/-- How often a byte is in the tokens. -/
def occurs (b : Byte) (read : List Token) : Nat := (read.flatMap Token.text).count b

theorem occurs_append (read read' : List Token) :
    occurs b (read ++ read') = occurs b read + occurs b read' := by
  rw [occurs, List.flatMap_append, List.count_append]
  rfl

theorem isWord_lowerByte {c : Byte} (word : isWord c = true) : isWord (lowerByte c) = true := by
  unfold lowerByte
  split
  next upper =>
    have low : c.toNat ≤ 90 := UInt8.le_iff_toNat_le.mp upper.2
    have high : 65 ≤ c.toNat := UInt8.le_iff_toNat_le.mp upper.1
    simp only [isWord, Bool.or_eq_true, Bool.and_eq_true, decide_eq_true_eq,
      UInt8.le_iff_toNat_le]
    refine .inl (.inr ⟨?_, ?_⟩)
    all_goals
      rw [UInt8.toNat_add]
      have sum : (c.toNat + (32 : UInt8).toNat) % 2 ^ 8 = c.toNat + 32 :=
        Nat.mod_eq_of_lt (by have := (32 : UInt8).toNat_lt; change c.toNat + 32 < 256; omega)
      rw [sum]
    · change 97 ≤ _
      omega
    · change _ ≤ 122
      omega
  · exact word

theorem count_first (c : Byte) (t : Text) : (c :: t).count b = [c].count b + t.count b := by
  rw [← List.count_append]
  rfl

variable (symbol : isWord b = false)
include symbol

theorem count_lowerByte {c : Byte} (word : isWord c = true) (rev : Text) :
    (lowerByte c :: rev).count b = rev.count b := by
  refine List.count_cons_of_ne ?_
  rintro same
  rw [← same, isWord_lowerByte word] at symbol
  cases symbol

theorem count_word {c : Byte} (word : isWord c = true) (t : Text) :
    (c :: t).count b = t.count b := by
  refine List.count_cons_of_ne ?_
  rintro rfl
  rw [word] at symbol
  cases symbol

variable (blank : b ≠ 32) (quote : b ≠ 39)
include blank quote

theorem enter_keeps (c : Byte) :
    occurs b (enter c).1 + (enter c).2.held.count b = [c].count b := by
  unfold enter
  split
  next space =>
    exact (List.count_eq_zero.mpr fun mem => blank (space ▸ List.mem_singleton.mp mem)).symm
  split
  next mark =>
    exact (List.count_eq_zero.mpr fun mem => quote (mark ▸ List.mem_singleton.mp mem)).symm
  split
  next word =>
    rw [count_word symbol word]
    exact (Nat.zero_add _).trans (count_lowerByte symbol word [])
  split
  · exact Nat.zero_add _
  · rfl

theorem step_keeps (mode : Mode) (c : Byte) :
    occurs b (step mode c).1 + (step mode c).2.held.count b =
      mode.held.count b + [c].count b := by
  have ended : ∀ token : Token, occurs b (token :: (enter c).1) + (enter c).2.held.count b =
      token.text.count b + [c].count b := by
    intro token
    have here : occurs b [token] = token.text.count b :=
      congrArg (List.count b) (List.append_nil token.text)
    rw [← enter_keeps symbol blank quote c, ← Nat.add_assoc, ← here]
    exact congrArg (· + _) (occurs_append [token] (enter c).1)
  cases mode with
  | between => exact (enter_keeps symbol blank quote c).trans (Nat.zero_add _).symm
  | word rev =>
    simp only [step]
    split
    next word =>
      rw [count_word symbol word]
      exact (Nat.zero_add _).trans (count_lowerByte symbol word rev)
    · exact (ended _).trans (congrArg (· + _) List.count_reverse)
  | string rev =>
    simp only [step]
    split
    next mark =>
      rw [mark, List.count_eq_zero.mpr fun mem => quote (List.mem_singleton.mp mem)]
      simp [occurs, Token.text, Mode.held]
    · exact (Nat.zero_add _).trans ((count_first c rev).trans (Nat.add_comm _ _))
  | order d =>
    simp only [step]
    split
    next equals =>
      rw [equals, ← List.count_append]
      rfl
    · exact ended _

theorem scan_keeps (mode : Mode) (t : Text) :
    occurs b (scan mode t).1 + (scan mode t).2.held.count b = mode.held.count b + t.count b := by
  induction t generalizing mode with
  | nil => exact Nat.zero_add _
  | cons c t ih =>
    rw [scan, occurs_append, Nat.add_assoc, ih, ← Nat.add_assoc,
      step_keeps symbol blank quote mode c, Nat.add_assoc, ← count_first]

/-- A byte that is no letter, blank or quote is in the tokens as often as in the text. -/
theorem occurs_tokens (t : Text) : occurs b (tokens t) = t.count b := by
  have ended : ∀ mode : Mode, occurs b mode.finish = mode.held.count b := by
    intro mode
    cases mode with
    | between => rfl
    | word rev => simp [occurs, Mode.finish, Mode.held, Token.text]
    | string rev => simp [occurs, Mode.finish, Mode.held, Token.text, quote.symm]
    | order c => simp [occurs, Mode.finish, Mode.held, Token.text]
  rw [tokens, occurs_append, ended, scan_keeps symbol blank quote .between t]
  exact Nat.zero_add _

end kept

end SqlTexts
