import Fiy.CheckedLoops
import Fiy.DecimalTexts
import Fiy.GitPages
import Fiy.HeaderBlocks
import Fiy.TextViews

/-!
# Outputs of CGI programs

`parse_cgi_output` as the loop over positions that it is, and over what a program writes: lines
that end with CRLF, an empty one, and a body of any bytes.
-/

namespace CgiOutputs

open ByteStrings DecimalTexts CheckedLoops TextViews ModLibrary GitPages HeaderBlocks

/-! ## The loop -/

/-- What follows the loop: the body is everything behind the position where it stopped. -/
def withBody (s : Text) (ret : ModResponse) : Option Nat → ModResponse
  | none => ret
  | some end_ => { ret with body := s.drop (end_ + 2) }

/-- A turn of `parse_cgi_output` at the start of a line. -/
def cgiTurn (s : Text) : Nat × ModResponse → Turn (Nat × ModResponse) ModResponse
  | (start, ret) =>
    let end_ := findMark s [13, 10] start
    .guard (substr s start (end_.map (· - start))) fun line =>
      if line = [] then .leave (withBody s ret end_)
      else
        let ret := GitHost.cgiHeader ret line
        match end_ with
        | none => .leave ret
        | some stop =>
          let start := stop + 2
          if start < s.length ∧ s[start]? ≠ some newline then .again (start, ret)
          else .leave (withBody s ret end_)

theorem cutLine_eq (s : Text) : GitHost.cutLine s = cutMark [13, 10] s := by
  induction s using GitHost.cutLine.induct with
  | case1 rest => simp [GitHost.cutLine, cutMark]
  | case2 b rest other ih =>
    have elsewhere : ¬ ([13, 10] : Text) <+: b :: rest := by
      rintro ⟨after, same⟩
      obtain ⟨rfl, rfl⟩ := List.cons.inj same
      exact other after rfl rfl
    rw [GitHost.cutLine, cutMark, if_neg elsewhere, ih]
    exact other
  | case3 => simp [GitHost.cutLine, cutMark]

/-- What the loop asks of the character behind a line. -/
theorem goes_on_iff (front after : Text) :
    front.length < (front ++ after).length ∧ (front ++ after)[front.length]? ≠ some newline ↔
      ¬ (after = [] ∨ after.head? = some newline) := by
  rw [List.getElem?_append_right (Nat.le_refl _), Nat.sub_self, ← List.head?_eq_getElem?,
    List.length_append, not_or, ← ne_eq, ← List.length_pos_iff]
  exact and_congr_left' (by omega)

/-- A turn behind the text that was read: its line is what the first mark cuts off. -/
theorem cgiTurn_at (before rest : Text) (ret : ModResponse) :
    cgiTurn (before ++ rest) (before.length, ret) = match cutMark [13, 10] rest with
      | none => .leave (if rest = [] then ret else GitHost.cgiHeader ret rest)
      | some ([], body) => .leave { ret with body }
      | some (line, after) =>
        if after = [] ∨ after.head? = some newline then
          .leave { GitHost.cgiHeader ret line with body := after }
        else .again (before.length + line.length + 2, GitHost.cgiHeader ret line) := by
  have stop := findMark_at before rest [13, 10]
  cases parts : cutMark [13, 10] rest with
  | none =>
    rw [parts, Option.map_none] at stop
    simp only [cgiTurn, stop, Option.map_none, substr_rest, Turn.guard_some, withBody]
    split_ifs <;> rfl
  | some pair =>
    obtain ⟨line, after⟩ := pair
    have split := cutMark_eq parts
    rw [parts, Option.map_some] at stop
    have taken : substr (before ++ rest) before.length
        ((some (before.length + line.length)).map (· - before.length)) = some line := by
      rw [split, Option.map_some, Nat.add_sub_cancel_left]
      exact substr_part before line _
    have whole : before ++ rest = (before ++ (line ++ [13, 10])) ++ after := by
      rw [split]
      simp only [List.append_assoc]
    have place : before.length + line.length + 2 = (before ++ (line ++ [13, 10])).length := by
      simp only [List.length_append, List.length_cons, List.length_nil]
      omega
    have behind : (before ++ rest).drop (before.length + line.length + 2) = after := by
      rw [whole, place, List.drop_left]
    simp only [cgiTurn, stop, taken, Turn.guard_some, withBody, behind]
    cases line with
    | nil => rw [if_pos rfl]
    | cons b line =>
      have inside : before.length + (b :: line).length + 2 < (before ++ rest).length ∧
          (before ++ rest)[before.length + (b :: line).length + 2]? ≠ some newline ↔
            ¬ (after = [] ∨ after.head? = some newline) := by
        rw [whole, place]
        exact goes_on_iff _ after
      rw [if_neg (List.cons_ne_nil b line)]
      by_cases last : after = [] ∨ after.head? = some newline
      · rw [if_neg fun more => inside.mp more last]
        exact (if_pos last).symm
      · rw [if_pos (inside.mpr last)]
        exact (if_neg last).symm

/-- The loop comes to the response that the lines one after another give. -/
theorem cgi_ends (before rest : Text) (ret : ModResponse) {lines : Nat}
    (enough : rest.length < lines) :
    Ends (cgiTurn (before ++ rest)) (before.length, ret) (GitHost.parseCgiFrom lines ret rest) := by
  induction lines generalizing before rest ret with
  | zero => omega
  | succ lines ih =>
    have turn := cgiTurn_at before rest ret
    rw [GitHost.parseCgiFrom, cutLine_eq]
    rcases parts : cutMark [13, 10] rest with _ | ⟨_ | ⟨b, line⟩, after⟩
    · rw [parts] at turn
      exact Ends.of_leave turn
    · rw [parts] at turn
      exact Ends.of_leave turn
    · rw [parts] at turn
      simp only at turn ⊢
      split_ifs at turn ⊢ with last
      · exact Ends.of_leave turn
      · have split := cutMark_eq parts
        have whole : before ++ rest = (before ++ ((b :: line) ++ [13, 10])) ++ after := by
          rw [split]
          simp only [List.append_assoc]
        have place : before.length + (b :: line).length + 2 =
            (before ++ ((b :: line) ++ [13, 10])).length := by
          simp only [List.length_append, List.length_cons, List.length_nil]
          omega
        have shorter : after.length < lines := by
          rw [split, List.length_append, List.length_append] at enough
          simp only [List.length_cons] at enough
          omega
        rw [ends_of_again turn, whole, place]
        exact ih (before ++ ((b :: line) ++ [13, 10])) after _ shorter

/-- The loop always ends, with what the lines give. -/
theorem cgi_ends_parse (s : Text) :
    Ends (cgiTurn s) (0, { status := 200 }) (GitHost.parseCgiOutput s) :=
  cgi_ends [] s { status := 200 } (Nat.lt_succ_self _)

/-! ## Outputs -/

/-- A header line that does not tell the status. -/
structure CgiLine where
  name : Text
  value : Text
  token : name ≠ [] ∧ ∀ b ∈ name, isTokenChar b = true
  unbroken : ∀ b ∈ value, b ≠ 13 ∧ b ≠ 10
  other : iequals name "status" = false

def CgiLine.text (line : CgiLine) : Text := line.name ++ 58 :: 32 :: line.value

/-- A line with a decimal code, and anything but a digit behind it. -/
structure StatusLine where
  name : Text
  digits : Text
  reason : Text
  status : iequals name "status" = true
  some_ : digits ≠ []
  decimal : ∀ b ∈ digits, isDigit b = true
  /-- the code is an `int` -/
  fits : ofDecimal digits ≤ 2147483647
  ends : ∀ b ∈ reason.head?, isDigit b = false
  unbroken : ∀ b ∈ reason, b ≠ 13 ∧ b ≠ 10

namespace StatusLine

def text (line : StatusLine) : Text := line.name ++ 58 :: 32 :: (line.digits ++ line.reason)

def code (line : StatusLine) : Nat := ofDecimal line.digits

end StatusLine

/-- What a program writes: its header lines, with one that tells the status somewhere among them
if there is one, and the body. -/
structure CgiOutput where
  before : List CgiLine
  status : Option StatusLine
  after : List CgiLine
  body : Text

namespace CgiOutput
variable (output : CgiOutput)

def lines : List Text :=
  output.before.map CgiLine.text ++ (output.status.toList.map StatusLine.text ++
    output.after.map CgiLine.text)

def text : Text := output.lines.flatMap (· ++ [13, 10]) ++ 13 :: 10 :: output.body

/-- The other lines, each with the line end of a response. -/
def headers : Text := (output.before ++ output.after).flatMap fun line => line.text ++ [newline]

/-- The response that is meant. -/
def response : ModResponse where
  status := output.status.elim 200 fun line => line.code
  headers := if output.before ++ output.after = [] then none else some output.headers
  body := output.body

end CgiOutput

/-! ## Lines -/

theorem cutLine_line {line : Text} (unbroken : 13 ∉ line) (rest : Text) :
    GitHost.cutLine (line ++ 13 :: 10 :: rest) = some (line, rest) := by
  induction line with
  | nil => rfl
  | cons b line ih =>
    obtain ⟨other, deeper⟩ := List.ne_and_not_mem_of_not_mem_cons unbroken
    rw [List.cons_append, GitHost.cutLine, ih deeper]
    · rfl
    · exact fun _ same _ => other same.symm

/-- A line is put into the response, and what is behind it comes next. -/
theorem parseCgiFrom_line {line rest : Text} (unbroken : 13 ∉ line) (some_ : line ≠ [])
    (more : rest ≠ []) (solid : rest.head? ≠ some newline) (lines : Nat) (ret : ModResponse) :
    GitHost.parseCgiFrom (lines + 1) ret (line ++ 13 :: 10 :: rest) =
      GitHost.parseCgiFrom lines (GitHost.cgiHeader ret line) rest := by
  obtain ⟨b, line, rfl⟩ := List.exists_cons_of_ne_nil some_
  rw [GitHost.parseCgiFrom, cutLine_line unbroken]
  exact if_neg (not_or.mpr ⟨more, solid⟩)

/-- A line that a program writes: it does not start with a line end, and has none in it. -/
def Written (line : Text) : Prop := line ≠ [] ∧ 13 ∉ line ∧ line.head? ≠ some newline

theorem parseCgiFrom_lines {lines : List Text} (written : ∀ line ∈ lines, Written line)
    (body : Text) (turns : Nat) (ret : ModResponse) :
    GitHost.parseCgiFrom (turns + 1 + lines.length) ret
        (lines.flatMap (· ++ [13, 10]) ++ 13 :: 10 :: body) =
      { lines.foldl GitHost.cgiHeader ret with body } := by
  induction lines generalizing ret with
  | nil => rfl
  | cons line lines ih =>
    obtain ⟨⟨some_, unbroken, -⟩, later⟩ := List.forall_mem_cons.mp written
    have rest : (line :: lines).flatMap (· ++ [13, 10]) ++ 13 :: 10 :: body =
        line ++ 13 :: 10 :: (lines.flatMap (· ++ [13, 10]) ++ 13 :: 10 :: body) := by
      rw [List.flatMap_cons, List.append_assoc, List.append_assoc]
      rfl
    have solid : (lines.flatMap (· ++ [13, 10]) ++ 13 :: 10 :: body).head? ≠ some newline := by
      cases lines with
      | nil => exact fun same => absurd (Option.some.inj same) (by decide)
      | cons next lines =>
        obtain ⟨some_, -, start⟩ := later next List.mem_cons_self
        rw [List.flatMap_cons, List.append_assoc, List.append_assoc,
          List.head?_append_of_ne_nil next some_]
        exact start
    rw [rest, List.length_cons, ← Nat.add_assoc, parseCgiFrom_line unbroken some_ (by simp) solid,
      ih later, List.foldl_cons]

/-! ## Headers -/

theorem name_plain {name : Text} (token : ∀ b ∈ name, isTokenChar b = true) :
    58 ∉ name ∧ 13 ∉ name ∧ 10 ∉ name :=
  ⟨notMem_of_isTokenChar token (by decide), notMem_of_isTokenChar token (by decide),
    notMem_of_isTokenChar token (by decide)⟩

theorem CgiLine.cgiHeader (line : CgiLine) (ret : ModResponse) :
    GitHost.cgiHeader ret line.text =
      { ret with headers := some (ret.headers.getD [] ++ line.text ++ [newline]) } := by
  have parts : cut 58 line.text = some (line.name, 32 :: line.value) :=
    cut_append (name_plain line.token.2).1 _
  simp only [GitHost.cgiHeader, parts, Option.getD_some, line.other, Bool.false_eq_true, if_false]

theorem CgiLine.written (line : CgiLine) : Written line.text := by
  obtain ⟨some_, token⟩ := line.token
  obtain ⟨-, unbroken, solid⟩ := name_plain token
  refine ⟨by simp [CgiLine.text], fun mem => ?_, fun start => ?_⟩
  · rcases List.mem_append.mp mem with mem | mem
    · exact unbroken mem
    · simp only [List.mem_cons] at mem
      rcases mem with same | same | mem
      · exact absurd same (by decide)
      · exact absurd same (by decide)
      · exact (line.unbroken 13 mem).1 rfl
  · rw [CgiLine.text, List.head?_append_of_ne_nil _ some_] at start
    exact solid (List.mem_of_mem_head? start)

namespace StatusLine
variable (line : StatusLine)

/-- A name like that has letters only. -/
theorem notMem_name {b : Byte} (other : lower b ∉ lit "status") : b ∉ line.name := by
  intro mem
  have same : line.name.map lower = (lit "status").map lower := of_decide_eq_true line.status
  have letter : lower b ∈ (lit "status").map lower := same ▸ List.mem_map_of_mem mem
  have lowered : (lit "status").map lower = lit "status" := by decide
  exact other (lowered ▸ letter)

theorem name_ne : line.name ≠ [] := by
  intro empty
  have same : line.name.map lower = (lit "status").map lower := of_decide_eq_true line.status
  rw [empty] at same
  cases same

theorem cgiHeader (ret : ModResponse) :
    GitHost.cgiHeader ret line.text = { ret with status := line.code } := by
  have parts : cut 58 line.text = some (line.name, 32 :: (line.digits ++ line.reason)) :=
    cut_append (line.notMem_name (by decide)) _
  have fits := line.fits
  have code : strtol (32 :: (line.digits ++ line.reason)) = some (line.code : Int) := by
    rw [strtol, strtolValue_blank, strtolValue_front line.decimal line.some_ line.ends,
      Option.map_some, StatusLine.code]
    congr 1
    omega
  simp only [GitHost.cgiHeader, parts, Option.getD_some, line.status, if_true, code]

theorem written : Written line.text := by
  refine ⟨by simp [StatusLine.text], fun mem => ?_, fun start => ?_⟩
  · rcases List.mem_append.mp mem with mem | mem
    · exact line.notMem_name (by decide) mem
    · rcases List.mem_cons.mp mem with same | mem
      · exact absurd same (by decide)
      rcases List.mem_cons.mp mem with same | mem
      · exact absurd same (by decide)
      rcases List.mem_append.mp mem with mem | mem
      · exact absurd (line.decimal 13 mem) (by decide)
      · exact (line.unbroken 13 mem).1 rfl
  · rw [StatusLine.text, List.head?_append_of_ne_nil _ line.name_ne] at start
    exact line.notMem_name (by decide) (List.mem_of_mem_head? start)

end StatusLine

/-! ## Responses -/

/-- Lines that do not tell the status are put behind the headers. -/
theorem foldl_cgiHeader (lines : List CgiLine) (ret : ModResponse) :
    (lines.map CgiLine.text).foldl GitHost.cgiHeader ret =
      { ret with
        headers := if lines = [] then ret.headers
          else some (ret.headers.getD [] ++ lines.flatMap fun line => line.text ++ [newline]) } := by
  induction lines generalizing ret with
  | nil => rfl
  | cons line lines ih =>
    rw [List.map_cons, List.foldl_cons, line.cgiHeader, ih]
    cases lines with
    | nil => simp
    | cons next lines => simp [List.append_assoc]

variable (output : CgiOutput)

theorem written_lines : ∀ line ∈ output.lines, Written line := by
  intro line mem
  rcases List.mem_append.mp mem with mem | mem
  · obtain ⟨line, -, rfl⟩ := List.mem_map.mp mem
    exact line.written
  · rcases List.mem_append.mp mem with mem | mem
    · obtain ⟨line, -, rfl⟩ := List.mem_map.mp mem
      exact line.written
    · obtain ⟨line, -, rfl⟩ := List.mem_map.mp mem
      exact line.written

theorem foldl_lines : { output.lines.foldl GitHost.cgiHeader { status := 200 } with
    body := output.body } = output.response := by
  obtain ⟨before, status, after, body⟩ := output
  rw [CgiOutput.lines, List.foldl_append, List.foldl_append, foldl_cgiHeader, foldl_cgiHeader]
  cases status with
  | none =>
    cases before <;> cases after <;> simp [CgiOutput.response, CgiOutput.headers]
  | some line =>
    simp only [Option.toList_some, List.map_cons, List.map_nil, List.foldl_cons, List.foldl_nil,
      line.cgiHeader]
    cases before <;> cases after <;> simp [CgiOutput.response, CgiOutput.headers]

/-- There are as many turns as characters, and no more lines than that. -/
theorem length_lines_le (lines : List Text) :
    lines.length ≤ (lines.flatMap (· ++ [13, 10])).length := by
  induction lines with
  | nil => exact Nat.zero_le _
  | cons line lines ih =>
    rw [List.flatMap_cons, List.length_append, List.length_append, List.length_cons]
    simp only [List.length_cons, List.length_nil]
    omega

end CgiOutputs
