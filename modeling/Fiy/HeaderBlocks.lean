import Fiy.ModLibrary
import Fiy.OutgoingIdentity

/-!
# The header block of a mod request

A request's fields reach a mod as one text, which the mod's library reads in two ways
and the host in a third. What each reader makes of the text is computed for every list
of fields the HTTP parser lets through, and compared with the list.
-/

namespace HeaderBlocks

open ByteStrings KeyedTables HttpMessages ModConnectors ModLibrary PeerRequests OutgoingIdentity

/-! ## Readers -/

/-- A line without its end, and what follows the end. -/
def cutLine (text : Text) : Text × Text := (cut newline text).getD (text, [])

/-- One blank in front and one carriage return behind are dropped. -/
def mapValue (line : Text) : Text :=
  let v := if line.head? = some 32 then line.tail else line
  if v.getLast? = some 13 then v.dropLast else v

/-- `headers_map`: an existing key is kept. -/
def headersMapIn : Nat → Text → Table Text Text → Table Text Text
  | 0, _, ret => ret
  | lines + 1, fields, ret => match cut 58 fields with
    | none => ret
    | some (key, rest) =>
      headersMapIn lines (cutLine rest).2
        (emplace ret (key.map lower) (mapValue (cutLine rest).1)).2

def headersMap (req : ModRequest) : Table Text Text :=
  match req.headers with
  | none => ∅
  | some fields => headersMapIn (fields.length + 1) fields ∅

/-- `headers_map` looks at the byte behind a colon, and at the last one of a value. -/
def mapReadsOutside : Nat → Text → Bool
  | 0, _ => false
  | lines + 1, fields => match cut 58 fields with
    | none => false
    | some (_, rest) =>
      rest.isEmpty || (if (cutLine rest).1.head? = some 32 then (cutLine rest).1.tail
        else (cutLine rest).1).isEmpty || mapReadsOutside lines (cutLine rest).2

/-- `response_set_headers` skips blanks before it compares positions. A line end stops
it, the end of the last line does not. -/
def setReadsOutside : List Text → Bool
  | [] => false
  | line :: rest => match cut 58 line with
    | none => false
    | some (_, value) => rest.isEmpty && value.all isHeaderBlank || setReadsOutside rest

/-! ## Fields and their block -/

/-- The characters of a token. -/
def isTokenChar (b : Byte) : Bool :=
  isAlnum b || [33, 35, 36, 37, 38, 39, 42, 43, 45, 46, 94, 95, 96, 124, 126].contains b

/-- A field as the HTTP parser stores it. -/
structure HttpField where
  name : Text
  value : Text
  token : name ≠ [] ∧ ∀ b ∈ name, isTokenChar b = true
  unbroken : ∀ b ∈ value, b ≠ 13 ∧ b ≠ 10 ∧ b ≠ 0
  trimmed : (∀ b, value.head? = some b → isSpace b = false) ∧
    ∀ b, value.getLast? = some b → isSpace b = false

namespace HttpField

def pair (x : HttpField) : Text × Text := (x.name, x.value)

def line (x : HttpField) : Text := headerLine x.pair

end HttpField

abbrev toFields (fields : List HttpField) : Fields := fields.map HttpField.pair

/-- The lines after the first one. -/
def following (rest : List HttpField) : Text :=
  rest.flatMap fun x => lit "\r\n" ++ x.line

/-- Each field once, on a line of its own. -/
def block : List HttpField → Text
  | [] => []
  | x :: rest => x.line ++ following rest

/-- The first field twice. -/
def doubled : List HttpField → List HttpField
  | [] => []
  | x :: rest => x :: x :: rest

theorem toNat_of_isTokenChar {b : Byte} (token : isTokenChar b = true) :
    33 ≤ b.toNat ∧ b.toNat ≠ 58 := by
  simp only [isTokenChar, isAlnum, isDigit, List.contains_eq_mem, List.mem_cons,
    List.not_mem_nil, or_false, Bool.or_eq_true, Bool.and_eq_true, decide_eq_true_eq,
    UInt8.le_iff_toNat_le, ← UInt8.toNat_inj, UInt8.reduceToNat] at token
  omega

theorem isSpace_of_isTokenChar {b : Byte} (token : isTokenChar b = true) :
    isSpace b = false := by
  have low := toNat_of_isTokenChar token
  simp only [isSpace, Bool.or_eq_false_iff, Bool.and_eq_false_iff, decide_eq_false_iff_not,
    UInt8.le_iff_toNat_le, ← UInt8.toNat_inj, UInt8.reduceToNat]
  omega

theorem notMem_of_isTokenChar {name : Text} (token : ∀ b ∈ name, isTokenChar b = true)
    {b : Byte} (other : isTokenChar b = false) : b ∉ name := by
  intro found
  rw [token b found] at other
  cases other

namespace HttpField
variable (x : HttpField)

theorem line_eq : x.line = x.name ++ 58 :: 32 :: x.value := by
  rw [line, headerLine, List.append_assoc]
  rfl

theorem line_ne_nil : x.line ≠ [] := by
  rw [line_eq]
  simp

/-- A line has no line end and no zero byte. -/
theorem line_unbroken {b : Byte} (hb : b ∈ x.line) : b ≠ 13 ∧ b ≠ 10 ∧ b ≠ 0 := by
  rw [line_eq, List.mem_append, List.mem_cons, List.mem_cons] at hb
  rcases hb with hb | rfl | rfl | hb
  · have token := x.token.2
    refine ⟨?_, ?_, ?_⟩
    all_goals
      rintro rfl
      exact notMem_of_isTokenChar token (by decide) hb
  · decide
  · decide
  · exact x.unbroken b hb

theorem head_line : ∃ b rest, x.line = b :: rest ∧ isSpace b = false := by
  obtain ⟨b, rest, hname⟩ := List.exists_cons_of_ne_nil x.token.1
  refine ⟨b, rest ++ 58 :: 32 :: x.value, ?_, ?_⟩
  · rw [line_eq, hname, List.cons_append]
  · exact isSpace_of_isTokenChar (x.token.2 b (by simp [hname]))

theorem cut_line (more : Text) :
    cut 58 (x.line ++ more) = some (x.name, 32 :: (x.value ++ more)) := by
  rw [line_eq, List.append_assoc]
  exact cut_append (notMem_of_isTokenChar x.token.2 (by decide)) _

theorem newline_notMem_value : newline ∉ x.value := fun found => (x.unbroken _ found).2.1 rfl

/-- Blanks before the value are the one the writer put there. -/
theorem dropWhile_value {p : Byte → Bool} (blank : p 32 = true)
    (space : ∀ b, isSpace b = false → p b = false) (named : x.value ≠ []) (more : Text) :
    List.dropWhile p (32 :: (x.value ++ more)) = x.value ++ more := by
  obtain ⟨b, rest, hvalue⟩ := List.exists_cons_of_ne_nil named
  have first : p b = false := space b (x.trimmed.1 b (by simp [hvalue]))
  rw [List.dropWhile_cons_of_pos blank, hvalue, List.cons_append,
    List.dropWhile_cons_of_neg (by simp [first])]

end HttpField

/-! ## The text of the block -/

theorem following_cons (y : HttpField) (rest : List HttpField) :
    following (y :: rest) = 13 :: 10 :: block (y :: rest) := by
  simp only [following, List.flatMap_cons, block, List.append_assoc]
  rfl

theorem block_cons (x : HttpField) (rest : List HttpField) :
    block (x :: rest) = x.line ++ following rest := rfl

theorem zero_notMem_block (fields : List HttpField) : (0 : Byte) ∉ block fields := by
  cases fields with
  | nil => exact List.not_mem_nil
  | cons x rest =>
    induction rest generalizing x with
    | nil =>
      intro found
      rw [block_cons, List.mem_append] at found
      exact found.elim (fun h => (x.line_unbroken h).2.2 rfl) (fun h => by cases h)
    | cons y rest ih =>
      intro found
      rw [block_cons, following_cons, List.mem_append, List.mem_cons, List.mem_cons] at found
      rcases found with h | h | h | h
      · exact (x.line_unbroken h).2.2 rfl
      · exact absurd h (by decide)
      · exact absurd h (by decide)
      · exact ih y h

theorem cstr_block (fields : List HttpField) : cstr (block fields) = block fields := by
  rw [cstr, List.takeWhile_eq_self_iff]
  intro b hb
  simp only [decide_eq_true_eq]
  rintro rfl
  exact zero_notMem_block _ hb

/-- What the writer makes of a list: its first field is written twice. -/
theorem headersString_toFields (fields : List HttpField) :
    headersString (toFields fields) = if fields = [] then none else some (block (doubled fields)) := by
  cases fields with
  | nil => rfl
  | cons x rest =>
    have text : headerLine x.pair ++
        (toFields (x :: rest)).flatMap (fun field => lit "\r\n" ++ headerLine field) =
          block (doubled (x :: rest)) := by
      rw [toFields, List.flatMap_map]
      rfl
    rw [if_neg (List.cons_ne_nil x rest), ← cstr_block, ← text]
    rfl

theorem length_block (fields : List HttpField) : fields.length ≤ (block fields).length := by
  cases fields with
  | nil => exact Nat.zero_le _
  | cons x rest =>
    have positive : 0 < x.line.length := List.length_pos_iff.mpr x.line_ne_nil
    induction rest generalizing x with
    | nil =>
      rw [block_cons, List.length_append, List.length_singleton]
      omega
    | cons y rest ih =>
      have shorter := ih y (List.length_pos_iff.mpr y.line_ne_nil)
      rw [block_cons, following_cons, List.length_append]
      simp only [List.length_cons] at *
      omega

theorem cut_last (x : HttpField) : cut newline (32 :: (x.value ++ following [])) = none := by
  apply cut_eq_none_iff.mpr
  have blank : newline ≠ 32 := by decide
  simp [following, blank, x.newline_notMem_value]

/-- A line that is not the last one ends with a carriage return. -/
theorem cut_next (x y : HttpField) (rest : List HttpField) :
    cut newline (32 :: (x.value ++ following (y :: rest))) =
      some (32 :: (x.value ++ [13]), block (y :: rest)) := by
  have unbroken : newline ∉ 32 :: (x.value ++ [13]) := by
    have blank : newline ≠ 32 := by decide
    have return_ : newline ≠ 13 := by decide
    simp [blank, return_, x.newline_notMem_value]
  have parts : 32 :: (x.value ++ following (y :: rest)) =
      (32 :: (x.value ++ [13])) ++ newline :: block (y :: rest) := by
    simp [following_cons]
  rw [parts, cut_append unbroken]

theorem cutLine_value (x : HttpField) (rest : List HttpField) :
    cutLine (32 :: (x.value ++ following rest)) =
      (32 :: (x.value ++ if rest = [] then [] else [13]), block rest) := by
  cases rest with
  | nil =>
    rw [cutLine, cut_last]
    rfl
  | cons y rest =>
    rw [cutLine, cut_next]
    rfl

/-! ## `find_header` -/

/-- What is found in a block: an empty value gives the next line. -/
def foundIn (key : Text) : List HttpField → Text
  | [] => []
  | x :: rest =>
    if iequals x.name key then
      if x.value = [] then (rest.head?.map HttpField.line).getD [] else x.value
    else foundIn key rest

theorem takeWhile_following {t : Text} (unbroken : ∀ b ∈ t, b ≠ 13 ∧ b ≠ 10)
    (rest : List HttpField) :
    (t ++ following rest).takeWhile (fun b => b ≠ 13 ∧ b ≠ 10) = t := by
  rw [List.takeWhile_append_of_pos (by simpa using unbroken)]
  cases rest with
  | nil => simp [following]
  | cons y rest => simp [following_cons]

theorem findHeaderIn_block (key : Text) (fields : List HttpField) {lines : Nat}
    (enough : fields.length ≤ lines) :
    findHeaderIn key lines (block fields) = foundIn key fields := by
  induction fields generalizing lines with
  | nil =>
    cases lines with
    | zero => rfl
    | succ lines => rfl
  | cons x rest ih =>
    obtain ⟨lines, rfl⟩ : ∃ n, lines = n + 1 := ⟨lines - 1, by simp at enough; omega⟩
    have shorter : rest.length ≤ lines := by simpa using enough
    simp only [findHeaderIn, block_cons, x.cut_line, foundIn]
    split
    · by_cases named : x.value = []
      · rw [if_pos named, named, List.nil_append]
        cases rest with
        | nil => rfl
        | cons y rest =>
          obtain ⟨b, more, hline, head⟩ := y.head_line
          have skipped : List.dropWhile isSpace (32 :: following (y :: rest)) =
              y.line ++ following rest := by
            rw [following_cons, block_cons, hline, List.cons_append]
            rw [List.dropWhile_cons_of_pos (by decide), List.dropWhile_cons_of_pos (by decide),
              List.dropWhile_cons_of_pos (by decide), List.dropWhile_cons_of_neg (by simp [head])]
          rw [skipped]
          exact takeWhile_following (fun b hb => ⟨(y.line_unbroken hb).1, (y.line_unbroken hb).2.1⟩) _
      · rw [if_neg named, x.dropWhile_value (by decide) (fun _ h => h) named]
        exact takeWhile_following (fun b hb => ⟨(x.unbroken b hb).1, (x.unbroken b hb).2.1⟩) _
    · cases rest with
      | nil => simp only [cut_last, foundIn]
      | cons y rest =>
        simp only [cut_next]
        exact ih shorter

theorem findHeader_toFields (req : ModRequest) (fields : List HttpField) (key : Text)
    (written : req.headers = headersString (toFields fields)) :
    findHeader req key = foundIn key (doubled fields) := by
  rw [findHeader, written, headersString_toFields]
  cases fields with
  | nil => rfl
  | cons x rest =>
    rw [if_neg (List.cons_ne_nil x rest)]
    exact findHeaderIn_block key _ (length_block _)

/-- Reading stops at the first field of the name. -/
theorem foundIn_append {key : Text} {before : List HttpField} {x : HttpField}
    (first : ∀ y ∈ before, iequals y.name key = false) (hit : iequals x.name key = true)
    (after : List HttpField) :
    foundIn key (before ++ x :: after) =
      if x.value = [] then (after.head?.map HttpField.line).getD [] else x.value := by
  induction before with
  | nil => simp [foundIn, hit]
  | cons y before ih =>
    rw [List.cons_append, foundIn, if_neg (by simp [first y])]
    exact ih fun z hz => first z (List.mem_cons_of_mem y hz)

theorem foundIn_of_missing {key : Text} {fields : List HttpField}
    (missing : ∀ y ∈ fields, iequals y.name key = false) : foundIn key fields = [] := by
  induction fields with
  | nil => rfl
  | cons y fields ih =>
    rw [foundIn, if_neg (by simp [missing y])]
    exact ih fun z hz => missing z (List.mem_cons_of_mem y hz)

/-- A list has a first field of this name, or none. -/
theorem first_or_missing (key : Text) (fields : List HttpField) :
    (∀ y ∈ fields, iequals y.name key = false) ∨
      ∃ before x after, fields = before ++ x :: after ∧ iequals x.name key = true ∧
        ∀ y ∈ before, iequals y.name key = false := by
  induction fields with
  | nil => exact Or.inl fun y hy => by cases hy
  | cons x fields ih =>
    by_cases hit : iequals x.name key = true
    · exact Or.inr ⟨[], x, fields, rfl, hit, fun y hy => by cases hy⟩
    · have miss : iequals x.name key = false := by simpa using hit
      rcases ih with missing | ⟨before, z, after, rfl, hz, first⟩
      · exact Or.inl (List.forall_mem_cons.mpr ⟨miss, missing⟩)
      · exact Or.inr ⟨x :: before, z, after, rfl, hz, List.forall_mem_cons.mpr ⟨miss, first⟩⟩

theorem find_toFields_append {key : Text} {before : List HttpField} {x : HttpField}
    (first : ∀ y ∈ before, iequals y.name key = false) (hit : iequals x.name key = true)
    (after : List HttpField) :
    Fields.find (toFields (before ++ x :: after)) key = some x.value := by
  induction before with
  | nil => simp [Fields.find, HttpField.pair, hit]
  | cons y before ih =>
    have miss := first y List.mem_cons_self
    have rest := ih fun z hz => first z (List.mem_cons_of_mem y hz)
    simpa [Fields.find, HttpField.pair, miss] using rest

theorem find_toFields_of_missing {key : Text} {fields : List HttpField}
    (missing : ∀ y ∈ fields, iequals y.name key = false) :
    Fields.find (toFields fields) key = none := by
  induction fields with
  | nil => rfl
  | cons y fields ih =>
    have miss := missing y List.mem_cons_self
    have rest := ih fun z hz => missing z (List.mem_cons_of_mem y hz)
    simpa [Fields.find, HttpField.pair, miss] using rest

/-- `find_header` gives the first value of every name. -/
def FindsFirst (fields : List HttpField) : Prop :=
  ∀ req : ModRequest, req.headers = headersString (toFields fields) →
    ∀ key, findHeader req key = Fields.value (toFields fields) key

/-- A field that is the first of its name and empty is the last of the list, and not the
one that is written twice. -/
def EmptyOnlyLast (fields : List HttpField) : Prop :=
  ∀ before x after, fields = before ++ x :: after → x.value = [] →
    (∀ y ∈ before, iequals y.name x.name = false) → before ≠ [] ∧ after = []

/-- Doubling keeps the place of a first field. -/
theorem doubled_append (before : List HttpField) (x : HttpField) (after : List HttpField) :
    doubled (before ++ x :: after) =
      doubled before ++ x :: if before = [] then x :: after else after := by
  cases before <;> rfl

theorem mem_doubled {y : HttpField} {fields : List HttpField} :
    y ∈ doubled fields ↔ y ∈ fields := by
  cases fields <;> simp [doubled]

theorem findsFirst_iff (fields : List HttpField) :
    FindsFirst fields ↔ EmptyOnlyLast fields := by
  constructor
  · intro finds before x after heq empty first
    subst heq
    have found := finds ⟨.get, [], [], none, none, _⟩ rfl x.name
    rw [findHeader_toFields _ _ _ rfl, doubled_append,
      foundIn_append (fun y hy => first y (mem_doubled.mp hy)) (iequals_refl _), if_pos empty,
      Fields.value, find_toFields_append first (iequals_refl _), empty] at found
    by_cases opening : before = []
    · rw [if_pos opening] at found
      exact absurd found x.line_ne_nil
    · refine ⟨opening, ?_⟩
      rw [if_neg opening] at found
      cases after with
      | nil => rfl
      | cons y after => exact absurd found y.line_ne_nil
  · intro last req written key
    rw [findHeader_toFields req fields key written, Fields.value]
    rcases first_or_missing key fields with missing | ⟨before, x, after, rfl, hit, first⟩
    · rw [foundIn_of_missing fun y hy => missing y (mem_doubled.mp hy),
        find_toFields_of_missing missing]
      rfl
    · rw [doubled_append, foundIn_append (fun y hy => first y (mem_doubled.mp hy)) hit,
        find_toFields_append first hit]
      by_cases empty : x.value = []
      · have same : ∀ y ∈ before, iequals y.name x.name = false := by
          intro y hy
          by_contra both
          have miss := first y hy
          rw [iequals_trans (by simpa using both) hit] at miss
          cases miss
        obtain ⟨opening, rfl⟩ := last before x after rfl empty same
        rw [if_pos empty, if_neg opening, empty]
        rfl
      · rw [if_neg empty]
        rfl

/-! ## `headers_map` -/

/-- The blank and the carriage return are dropped, and nothing else. -/
theorem mapValue_value (x : HttpField) (rest : List HttpField) :
    mapValue (32 :: (x.value ++ if rest = [] then [] else [13])) = x.value := by
  cases rest with
  | nil =>
    have unbroken : x.value.getLast? ≠ some 13 := by
      intro last
      exact (x.unbroken 13 (List.mem_of_getLast? last)).1 rfl
    simp [mapValue, unbroken]
  | cons y rest => simp [mapValue]

/-- Adding the fields of a list one after the other, unless their key is there. -/
def emplaceAll (fields : List HttpField) (ret : Table Text Text) : Table Text Text :=
  fields.foldl (fun ret x => (emplace ret (x.name.map lower) x.value).2) ret

theorem headersMapIn_block (fields : List HttpField) {lines : Nat}
    (enough : fields.length < lines) (ret : Table Text Text) :
    headersMapIn lines (block fields) ret = emplaceAll fields ret := by
  induction fields generalizing lines ret with
  | nil =>
    obtain ⟨lines, rfl⟩ : ∃ n, lines = n + 1 := ⟨lines - 1, by simp at enough; omega⟩
    rfl
  | cons x rest ih =>
    obtain ⟨lines, rfl⟩ : ∃ n, lines = n + 1 := ⟨lines - 1, by simp at enough; omega⟩
    have shorter : rest.length < lines := by simpa using enough
    simp only [headersMapIn, block_cons, x.cut_line, cutLine_value, mapValue_value]
    exact ih shorter _

theorem lower_lower (b : Byte) : lower (lower b) = lower b := by
  simp only [lower, UInt8.le_iff_toNat_le, UInt8.reduceToNat]
  split
  · rename_i upper
    have shifted : (b + 32).toNat = b.toNat + 32 := by
      rw [UInt8.toNat_add]
      change (b.toNat + 32) % 256 = b.toNat + 32
      omega
    rw [if_neg (by omega)]
  · rfl

/-- Only lower-case keys are in the map, each with the first value of its name. -/
theorem lookup_emplaceAll (fields : List HttpField) (ret : Table Text Text) (key : Text) :
    (emplaceAll fields ret).lookup key = (ret.lookup key).or
      (if key.map lower = key then Fields.find (toFields fields) key else none) := by
  induction fields generalizing ret with
  | nil => simp [emplaceAll, Fields.find]
  | cons x rest ih =>
    have step : emplaceAll (x :: rest) ret =
        emplaceAll rest (emplace ret (x.name.map lower) x.value).2 := rfl
    rw [step, ih, lookup_emplace_snd, Option.or_assoc]
    congr 1
    by_cases same : key = x.name.map lower
    · subst same
      have hit : iequals x.name (x.name.map lower) = true := by
        simp [iequals, lower_lower]
      simp [lower_lower, Fields.find, HttpField.pair, hit]
    · rw [if_neg same, Option.none_or]
      by_cases lowered : key.map lower = key
      · have miss : iequals x.name key = false := by
          simp only [iequals, lowered, decide_eq_false_iff_not]
          exact fun h => same h.symm
        simp [Fields.find, HttpField.pair, miss]
      · rw [if_neg lowered, if_neg lowered]

theorem find_doubled (fields : List HttpField) (key : Text) :
    Fields.find (toFields (doubled fields)) key = Fields.find (toFields fields) key := by
  cases fields with
  | nil => rfl
  | cons x rest =>
    by_cases hit : iequals x.name key = true
    · simp [doubled, Fields.find, HttpField.pair, hit]
    · simp [doubled, Fields.find, HttpField.pair, hit]

/-- `headers_map` has the first value of every name under the name in lower case. -/
def MapsFirst (fields : List HttpField) : Prop :=
  ∀ req : ModRequest, req.headers = headersString (toFields fields) →
    ∀ key, (headersMap req).lookup key =
      if key.map lower = key then Fields.find (toFields fields) key else none

theorem mapsFirst (fields : List HttpField) : MapsFirst fields := by
  intro req written key
  have map_eq : headersMap req = emplaceAll (doubled fields) ∅ := by
    rw [headersMap, written, headersString_toFields]
    cases fields with
    | nil => rfl
    | cons x rest =>
      rw [if_neg (List.cons_ne_nil x rest)]
      exact headersMapIn_block _ (Nat.lt_succ_of_le (length_block _)) ∅
  rw [map_eq, lookup_emplaceAll, find_doubled]
  rfl

/-! ## `response_set_headers` -/

/-- A field of a block that is not the last one. -/
def returned (x : HttpField) : Text × Text := (x.name, x.value ++ [13])

/-- The pairs that are set from a block. -/
def received : List HttpField → Fields
  | [] => []
  | x :: rest => if rest = [] then [x.pair] else returned x :: received rest

theorem received_concat (fields : List HttpField) (x : HttpField) :
    received (fields ++ [x]) = fields.map returned ++ [x.pair] := by
  induction fields with
  | nil => rfl
  | cons y fields ih =>
    rw [List.cons_append, received, if_neg (by simp), ih]
    rfl

theorem isHeaderBlank_of_not_space {b : Byte} (solid : isSpace b = false) :
    isHeaderBlank b = false := by
  by_contra blank
  have cases_ : b = 32 ∨ b = 9 := by
      simpa [isHeaderBlank, or_iff_not_imp_left] using blank
  rcases cases_ with rfl | rfl
  · exact absurd solid (by decide)
  · exact absurd solid (by decide)

/-- The lines of a block. -/
def linesOf : List HttpField → List Text
  | [] => [[]]
  | x :: rest => if rest = [] then [x.line] else (x.line ++ [13]) :: linesOf rest

theorem splitOn_block (fields : List HttpField) :
    (block fields).splitOn newline = linesOf fields := by
  induction fields with
  | nil => rfl
  | cons x rest ih =>
    have solid : newline ∉ x.line := fun found => (x.line_unbroken found).2.1 rfl
    cases rest with
    | nil =>
      rw [block_cons, following, List.flatMap_nil, List.append_nil]
      exact List.splitOn_eq_singleton solid
    | cons y rest =>
      have parts : block (x :: y :: rest) = (x.line ++ [13]) ++ newline :: block (y :: rest) := by
        simp [block_cons, following_cons]
      have return_ : newline ≠ 13 := by decide
      rw [parts, List.splitOn_append_cons_of_beq _ _ (beq_self_eq_true newline),
        List.splitOn_eq_singleton (by simp [solid, return_]), ih]
      rfl

theorem headerPairs_linesOf (fields : List HttpField) :
    headerPairs (linesOf fields) = received fields := by
  induction fields with
  | nil => rfl
  | cons x rest ih =>
    have trim : ∀ more, (more = [] ∨ more = [13]) →
        List.dropWhile isHeaderBlank (32 :: (x.value ++ more)) = x.value ++ more := by
      intro more hmore
      by_cases named : x.value = []
      · rw [named]
        rcases hmore with rfl | rfl <;> rfl
      · exact x.dropWhile_value (by decide) (fun _ h => isHeaderBlank_of_not_space h) named more
    by_cases last : rest = []
    · have whole := x.cut_line []
      rw [List.append_nil] at whole
      simp only [linesOf, received, if_pos last, headerPairs, whole, trim [] (Or.inl rfl)]
      rw [List.append_nil]
      rfl
    · simp only [linesOf, received, if_neg last, headerPairs, x.cut_line, trim [13] (Or.inr rfl), ih]
      rfl

theorem parsedHeaders_toFields (fields : List HttpField) :
    parsedHeaders (headersString (toFields fields)) = received (doubled fields) := by
  rw [headersString_toFields]
  cases fields with
  | nil => rfl
  | cons x rest =>
    rw [if_neg (List.cons_ne_nil x rest), ← headerPairs_linesOf, ← splitOn_block]
    simp only [parsedHeaders, cstr_block]

/-- A message that the block is set on has a value of the list under each name. Values
are kept without surrounding blanks. -/
def SetsValues (fields : List HttpField) : Prop :=
  ∀ (msg : Fields), ∀ x ∈ fields, ∃ y ∈ fields, iequals y.name x.name = true ∧
    ((responseSetHeaders msg (headersString (toFields fields)) false).find x.name).map stored =
      some y.value

/-- There is only one name, so the last line is the last one of every name. -/
def OneName (fields : List HttpField) : Prop :=
  ∀ x ∈ fields, ∀ y ∈ fields, iequals x.name y.name = true

theorem stored_value (x : HttpField) : stored x.value = x.value := by
  have front : x.value.dropWhile isHeaderBlank = x.value := by
    cases hvalue : x.value with
    | nil => rfl
    | cons b rest =>
      have solid := x.trimmed.1 b (by simp [hvalue])
      rw [List.dropWhile_cons_of_neg (by simp [isHeaderBlank_of_not_space solid])]
  rw [stored, front, List.rdropWhile_eq_self_iff]
  intro named
  have solid := x.trimmed.2 _ (List.getLast?_eq_some_getLast named)
  simp [isHeaderBlank_of_not_space solid]

/-- The carriage return stays. -/
theorem return_mem_stored (value : Text) : (13 : Byte) ∈ stored (value ++ [13]) := by
  have kept : ∀ t : Text, (t ++ [13]).dropWhile isHeaderBlank = t.dropWhile isHeaderBlank ++ [13] := by
    intro t
    induction t with
    | nil => rfl
    | cons b t ih =>
      by_cases blank : isHeaderBlank b = true
      · simp [blank, ih]
      · simp [blank]
  rw [stored, kept, List.rdropWhile_concat_neg _ _ _ (by decide)]
  simp

theorem lastOf_returned {before : List HttpField} {name : Text} {value : Text}
    (found : lastOf (before.map returned) name = some value) : ∃ v, value = v ++ [13] := by
  obtain ⟨pair, hpair, rfl⟩ := Option.map_eq_some_iff.mp found
  have listed := List.mem_of_find?_eq_some hpair
  obtain ⟨y, _, rfl⟩ := List.mem_map.mp (List.mem_reverse.mp listed)
  exact ⟨y.value, rfl⟩

/-- A doubled list ends with the last field of the list. -/
theorem exists_doubled_concat (fields : List HttpField) (z : HttpField) :
    ∃ before, doubled (fields ++ [z]) = before ++ [z] := by
  cases fields with
  | nil => exact ⟨[z], rfl⟩
  | cons x rest => exact ⟨x :: x :: rest, rfl⟩

theorem setsValues_iff (fields : List HttpField) : SetsValues fields ↔ OneName fields := by
  induction fields using List.reverseRecOn with
  | nil => exact iff_of_true (fun _ _ hx => by cases hx) (fun _ hx => by cases hx)
  | append_singleton fields z _ =>
    obtain ⟨before, hdoubled⟩ := exists_doubled_concat fields z
    have set_eq : ∀ (msg : Fields) (name : Text),
        (responseSetHeaders msg (headersString (toFields (fields ++ [z]))) false).find name =
          if iequals z.name name then some z.value
          else (lastOf (before.map returned) name).or (msg.find name) := by
      intro msg name
      rw [responseSetHeaders_eq, find_setHeaders, parsedHeaders_toFields, hdoubled,
        received_concat, lastOf_concat]
      by_cases same : iequals z.name name = true
      · rw [if_pos same, HttpField.pair, if_pos same, Option.some_or]
      · rw [if_neg same, HttpField.pair, if_neg same]
    constructor
    · intro sets
      -- a name other than the last one's has a carriage return, or no value at all
      have same : ∀ x ∈ fields ++ [z], iequals z.name x.name = true := by
        intro x hx
        by_contra other
        obtain ⟨y, _, _, found⟩ := sets [] x hx
        rw [set_eq, if_neg other] at found
        obtain ⟨value, hvalue, kept⟩ := Option.map_eq_some_iff.mp found
        have none_before : Fields.find [] x.name = none := rfl
        rw [none_before, Option.or_none] at hvalue
        obtain ⟨v, rfl⟩ := lastOf_returned hvalue
        have returned_ := return_mem_stored v
        rw [kept] at returned_
        exact (y.unbroken 13 returned_).1 rfl
      intro x hx y hy
      have hx' := same x hx
      rw [iequals_comm] at hx'
      exact iequals_trans hx' (same y hy)
    · intro one msg x hx
      have hz : z ∈ fields ++ [z] := by simp
      refine ⟨z, hz, one z hz x hx, ?_⟩
      rw [set_eq, if_pos (one z hz x hx), Option.map_some, stored_value]

/-! ## Positions -/

/-- No reader looks outside the text it reads. `find_header` compares its positions. -/
def InBounds (fields : List HttpField) : Prop :=
  ∀ text, headersString (toFields fields) = some text →
    mapReadsOutside (text.length + 1) text = false ∧
    setReadsOutside (text.splitOn newline) = false

/-- The last value is not empty. -/
def LastNamed (fields : List HttpField) : Prop :=
  ∀ z, fields.getLast? = some z → z.value ≠ []

theorem getLast?_doubled (fields : List HttpField) :
    (doubled fields).getLast? = fields.getLast? := by
  cases fields <;> simp [doubled]

@[simp] theorem lastNamed_singleton (x : HttpField) : LastNamed [x] ↔ x.value ≠ [] := by
  simp [LastNamed]

@[simp] theorem lastNamed_cons (x y : HttpField) (rest : List HttpField) :
    LastNamed (x :: y :: rest) ↔ LastNamed (y :: rest) := by
  simp [LastNamed]

theorem all_blank_iff (x : HttpField) : x.value.all isHeaderBlank = true ↔ x.value = [] := by
  cases hvalue : x.value with
  | nil => simp
  | cons b rest =>
    have solid := x.trimmed.1 b (by simp [hvalue])
    simp [isHeaderBlank_of_not_space solid]

theorem linesOf_ne_nil (x : HttpField) (rest : List HttpField) : linesOf (x :: rest) ≠ [] := by
  rw [linesOf]
  split <;> simp

theorem setReadsOutside_iff (fields : List HttpField) :
    setReadsOutside (linesOf fields) = false ↔ LastNamed fields := by
  induction fields with
  | nil => exact iff_of_true rfl (fun z hz => by cases hz)
  | cons x rest ih =>
    cases rest with
    | nil =>
      have whole := x.cut_line []
      rw [List.append_nil, List.append_nil] at whole
      have blank : isHeaderBlank 32 = true := by decide
      simp only [linesOf, if_true, setReadsOutside, whole, List.isEmpty_nil, List.all_cons, blank,
        Bool.true_and, Bool.or_false, lastNamed_singleton]
      rw [ne_eq, ← all_blank_iff, Bool.not_eq_true]
    | cons y rest =>
      have more : (linesOf (y :: rest)).isEmpty = false := by
        simp [linesOf_ne_nil]
      rw [lastNamed_cons, ← ih]
      simp only [linesOf, if_neg (List.cons_ne_nil y rest), setReadsOutside, x.cut_line] at more ⊢
      simp only [more, Bool.false_and, Bool.false_or]

theorem mapReadsOutside_iff (fields : List HttpField) {lines : Nat}
    (enough : fields.length < lines) :
    mapReadsOutside lines (block fields) = false ↔ LastNamed fields := by
  induction fields generalizing lines with
  | nil =>
    obtain ⟨lines, rfl⟩ : ∃ n, lines = n + 1 := ⟨lines - 1, by simp at enough; omega⟩
    exact iff_of_true rfl (fun z hz => by cases hz)
  | cons x rest ih =>
    obtain ⟨lines, rfl⟩ : ∃ n, lines = n + 1 := ⟨lines - 1, by simp at enough; omega⟩
    have shorter : rest.length < lines := by simpa using enough
    simp only [mapReadsOutside, block_cons, x.cut_line, cutLine_value, List.head?_cons, if_true,
      List.tail_cons, List.isEmpty_cons, Bool.false_or, Bool.or_eq_false_iff, ih shorter]
    cases rest with
    | nil => simp [LastNamed]
    | cons y rest => simp

theorem inBounds_iff (fields : List HttpField) : InBounds fields ↔ LastNamed fields := by
  have named : LastNamed (doubled fields) ↔ LastNamed fields := by
    rw [LastNamed, getLast?_doubled, LastNamed]
  cases fields with
  | nil => exact iff_of_true (fun _ h => by cases h) (fun _ h => by cases h)
  | cons x rest =>
    rw [InBounds, headersString_toFields, if_neg (List.cons_ne_nil x rest)]
    simp only [Option.some.injEq, forall_eq']
    rw [mapReadsOutside_iff _ (Nat.lt_succ_of_le (length_block _)), splitOn_block,
      setReadsOutside_iff, named, and_self_iff]

/-! ## The codec -/

/-- The writer gives each field once, the three readers agree with the list, and none of
them looks outside of the text. -/
structure Codec (fields : List HttpField) : Prop where
  writes : (headersString (toFields fields)).getD [] = block fields
  finds : FindsFirst fields
  maps : MapsFirst fields
  sets : SetsValues fields
  inBounds : InBounds fields

theorem block_doubled_iff (fields : List HttpField) :
    block (doubled fields) = block fields ↔ fields = [] := by
  cases fields with
  | nil => simp [doubled]
  | cons x rest =>
    refine iff_of_false (fun same => ?_) (List.cons_ne_nil x rest)
    have lengths := congrArg List.length same
    simp only [doubled, block_cons, following_cons, List.length_append, List.length_cons] at lengths
    omega

theorem Codec.eq_nil {fields : List HttpField} (codec : Codec fields) : fields = [] := by
  have writes := codec.writes
  rw [headersString_toFields] at writes
  by_contra listed
  rw [if_neg listed, Option.getD_some, block_doubled_iff] at writes
  exact listed writes

/-- Only the empty list is written as it is. The readers by themselves go wrong for an
empty value that is not at the end, for a second name, and for an empty last value. -/
theorem codec_iff (fields : List HttpField) :
    (Codec fields ↔ fields = []) ∧
    (FindsFirst fields ↔ EmptyOnlyLast fields) ∧
    MapsFirst fields ∧
    (SetsValues fields ↔ OneName fields) ∧
    (InBounds fields ↔ LastNamed fields) := by
  refine ⟨?_, findsFirst_iff fields, mapsFirst fields, setsValues_iff fields, inBounds_iff fields⟩
  constructor
  · exact Codec.eq_nil
  · rintro rfl
    refine ⟨rfl, ?_, mapsFirst [], ?_, ?_⟩
    · exact (findsFirst_iff []).mpr fun before x after heq => by simp at heq
    · exact (setsValues_iff []).mpr fun _ hx => by cases hx
    · exact (inBounds_iff []).mpr fun _ hz => by cases hz

/-- Two fields, the first of them empty. -/
def emptyAccept : List HttpField :=
  [⟨"Accept", [], by decide +kernel, by decide +kernel, by decide +kernel⟩,
    ⟨"Host", "a.net", by decide +kernel, by decide +kernel, by decide +kernel⟩]

/-- The first field is there twice, its value is found to be the next line, and a message
gets a carriage return. -/
theorem emptyAccept_fails :
    headersString (toFields emptyAccept) = some (lit "Accept: \r\nAccept: \r\nHost: a.net") ∧
    findHeader ⟨.get, [], [], none, none, headersString (toFields emptyAccept)⟩ "accept" =
      lit "Accept: " ∧
    (responseSetHeaders [] (headersString (toFields emptyAccept)) false).find "Accept" =
      some (lit "\r") ∧
    ¬ Codec emptyAccept := by
  refine ⟨by decide, by decide, by decide, ?_⟩
  intro codec
  exact absurd codec.eq_nil (List.cons_ne_nil _ _)

end HeaderBlocks
