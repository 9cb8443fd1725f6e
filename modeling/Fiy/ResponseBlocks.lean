import Fiy.HeaderBlocks

/-!
# The header block of a response

A response's fields go through a text in both directions: a mod adds them to a `Response`,
the host writes the fields of a peer's answer, and `response_set_headers` reads both. Each
line ends with a line end, so that nothing is read behind the text.
-/

namespace ResponseBlocks

open ByteStrings HttpMessages PeerRequests HeaderBlocks

/-! ## Writers -/

/-- `Response::add_header` -/
def addHeader (headers field value : Text) : Text :=
  headers ++ field ++ lit ": " ++ value ++ [newline]

/-- `get_headers_string` -/
def getHeadersString (res : Fields) : Text :=
  res.foldl (fun ret f => ret ++ f.1 ++ lit ": " ++ f.2 ++ [newline]) []

/-- A field of a response, as the interface takes it. -/
structure ResponseField where
  name : Text
  value : Text
  token : name ≠ [] ∧ ∀ b ∈ name, isTokenChar b = true
  unbroken : ∀ b ∈ value, b ≠ 13 ∧ b ≠ 10
  trimmed : (∀ b, value.head? = some b → isHeaderBlank b = false) ∧
    ∀ b, value.getLast? = some b → isHeaderBlank b = false

namespace ResponseField

def pair (x : ResponseField) : Text × Text := (x.name, x.value)

def line (x : ResponseField) : Text := x.name ++ 58 :: 32 :: x.value

end ResponseField

abbrev pairsOf (fields : List ResponseField) : Fields := fields.map ResponseField.pair

/-- A line for each field. -/
def responseBlock (fields : List ResponseField) : Text :=
  fields.flatMap fun x => x.line ++ [newline]

theorem getHeadersString_eq (fields : List ResponseField) :
    getHeadersString (pairsOf fields) = responseBlock fields := by
  have from_ : ∀ ret : Text, (pairsOf fields).foldl
      (fun ret f => ret ++ f.1 ++ lit ": " ++ f.2 ++ [newline]) ret =
        ret ++ responseBlock fields := by
    induction fields with
    | nil => simp [responseBlock]
    | cons x rest ih =>
      intro ret
      have line : ret ++ x.name ++ lit ": " ++ x.value ++ [newline] =
          ret ++ (x.line ++ [newline]) := by
        have colon : lit ": " = [58, 32] := by decide
        simp [ResponseField.line, colon]
      rw [pairsOf, List.map_cons, List.foldl_cons]
      change (pairsOf rest).foldl _ (ret ++ x.name ++ lit ": " ++ x.value ++ [newline]) = _
      rw [line, ih, responseBlock, responseBlock, List.flatMap_cons, List.append_assoc]
  exact from_ []

theorem addHeaders_eq (fields : List ResponseField) :
    fields.foldl (fun headers x => addHeader headers x.name x.value) [] =
      responseBlock fields := by
  rw [← getHeadersString_eq, getHeadersString, List.foldl_map]
  rfl

/-! ## Reading the block -/

namespace ResponseField
variable (x : ResponseField)

theorem newline_notMem_line : newline ∉ x.line := by
  intro found
  rw [line, List.mem_append, List.mem_cons, List.mem_cons] at found
  rcases found with found | colon | blank | found
  · exact notMem_of_isTokenChar x.token.2 (by decide) found
  · exact absurd colon (by decide)
  · exact absurd blank (by decide)
  · exact (x.unbroken _ found).2 rfl

theorem zero_mem_line : 0 ∈ x.line ↔ 0 ∈ x.value := by
  have name : (0 : Byte) ∉ x.name := notMem_of_isTokenChar x.token.2 (by decide)
  simp [line, name]

theorem cut_line : cut 58 x.line = some (x.name, 32 :: x.value) :=
  cut_append (notMem_of_isTokenChar x.token.2 (by decide)) _

/-- The blank behind the colon is the only one that is skipped. -/
theorem dropWhile_value : (32 :: x.value).dropWhile isHeaderBlank = x.value := by
  rw [List.dropWhile_cons_of_pos (by decide)]
  cases hvalue : x.value with
  | nil => rfl
  | cons b rest =>
    have solid := x.trimmed.1 b (by rw [hvalue, List.head?_cons])
    rw [List.dropWhile_cons_of_neg (by simp [solid])]

end ResponseField

theorem zero_mem_responseBlock (fields : List ResponseField) :
    0 ∈ responseBlock fields ↔ ∃ x ∈ fields, 0 ∈ x.value := by
  simp only [responseBlock, List.mem_flatMap, List.mem_append, List.mem_singleton,
    ResponseField.zero_mem_line]
  constructor
  · rintro ⟨x, listed, found | other⟩
    · exact ⟨x, listed, found⟩
    · exact absurd other (by decide)
  · rintro ⟨x, listed, found⟩
    exact ⟨x, listed, Or.inl found⟩

theorem splitOn_responseBlock (fields : List ResponseField) :
    (responseBlock fields).splitOn newline = fields.map ResponseField.line ++ [[]] := by
  induction fields with
  | nil => rfl
  | cons x rest ih =>
    have parts : responseBlock (x :: rest) = x.line ++ newline :: responseBlock rest := by
      rw [responseBlock, List.flatMap_cons, List.append_assoc]
      rfl
    rw [parts, List.splitOn_append_cons_self, List.splitOn_eq_singleton x.newline_notMem_line, ih]
    rfl

theorem headerPairs_lines (fields : List ResponseField) :
    headerPairs (fields.map ResponseField.line ++ [[]]) = pairsOf fields := by
  induction fields with
  | nil => rfl
  | cons x rest ih =>
    simp only [List.map_cons, List.cons_append, headerPairs, x.cut_line, x.dropWhile_value, ih]
    rfl

/-- A line with a line end behind it stops the reader. -/
theorem setReadsOutside_lines (fields : List ResponseField) :
    setReadsOutside (fields.map ResponseField.line ++ [[]]) = false := by
  induction fields with
  | nil => rfl
  | cons x rest ih =>
    have more : (rest.map ResponseField.line ++ [[]]).isEmpty = false := by simp
    simp only [List.map_cons, List.cons_append, setReadsOutside, x.cut_line, more, ih,
      Bool.false_and, Bool.or_false]

/-! ## The fields of a message -/

/-- No name is there twice, whatever its case. -/
def DistinctNames (f : Fields) : Prop :=
  f.Pairwise fun field other => iequals field.1 other.1 = false

theorem distinctNames_set {f : Fields} (distinct : DistinctNames f) (name value : Text) :
    DistinctNames (f.set name value) := by
  rw [DistinctNames, Fields.set, List.pairwise_append]
  refine ⟨distinct.filter _, List.pairwise_singleton _ _, ?_⟩
  intro field kept other mem
  rw [List.mem_singleton] at mem
  subst mem
  simpa using (List.mem_filter.mp kept).2

theorem setHeaders_cons (f : Fields) (field : Text × Text) (pairs : Fields) :
    setHeaders f (field :: pairs) = setHeaders (f.set field.1 field.2) pairs := rfl

theorem distinctNames_setHeaders {f : Fields} (distinct : DistinctNames f) (pairs : Fields) :
    DistinctNames (setHeaders f pairs) := by
  induction pairs generalizing f with
  | nil => exact distinct
  | cons field pairs ih =>
    rw [setHeaders_cons]
    exact ih (distinctNames_set distinct field.1 field.2)

/-- New names are added one after the other. -/
theorem setHeaders_of_distinct {f pairs : Fields} (distinct : DistinctNames (f ++ pairs)) :
    setHeaders f pairs = f ++ pairs := by
  induction pairs generalizing f with
  | nil => rw [List.append_nil]; rfl
  | cons field pairs ih =>
    have kept : f.set field.1 field.2 = f ++ [field] := by
      rw [Fields.set, List.filter_eq_self.mpr]
      intro other mem
      have different := (List.pairwise_append.mp distinct).2.2 other mem field List.mem_cons_self
      rw [different]
      rfl
    rw [setHeaders_cons, kept, ih]
    · rw [List.append_assoc]
      rfl
    · rw [List.append_assoc]
      exact distinct

theorem mem_setHeaders {f pairs : Fields} {field : Text × Text} (mem : field ∈ setHeaders f pairs) :
    field ∈ f ∨ field ∈ pairs := by
  induction pairs generalizing f with
  | nil => exact Or.inl mem
  | cons first pairs ih =>
    rw [setHeaders_cons] at mem
    rcases ih mem with old | later
    · rw [Fields.set, List.mem_append, List.mem_singleton] at old
      rcases old with old | rfl
      · exact Or.inl (List.mem_filter.mp old).1
      · exact Or.inr List.mem_cons_self
    · exact Or.inr (List.mem_cons_of_mem _ later)

theorem mem_headerPairs {lines : List Text} {field : Text × Text}
    (mem : field ∈ headerPairs lines) :
    ∃ line ∈ lines, ∀ b ∈ field.2, b ∈ line := by
  induction lines with
  | nil => cases mem
  | cons line lines ih =>
    rw [headerPairs] at mem
    split at mem
    · cases mem
    next name value found =>
      rcases List.mem_cons.mp mem with rfl | later
      · refine ⟨line, List.mem_cons_self, ?_⟩
        intro b inside
        obtain ⟨rfl, _⟩ := cut_eq_some_iff.mp found
        have kept := (List.dropWhile_suffix isHeaderBlank).subset inside
        exact List.mem_append_right _ (List.mem_cons_of_mem _ kept)
      · obtain ⟨line', listed, bytes⟩ := ih later
        exact ⟨line', List.mem_cons_of_mem _ listed, bytes⟩

/-- A C string has no zero bytes, and so have the values that are read from it. -/
theorem zero_notMem_parsed (text : Text) {field : Text × Text}
    (mem : field ∈ parsedHeaders (some text)) : (0 : Byte) ∉ field.2 := by
  intro zero
  obtain ⟨line, listed, bytes⟩ := mem_headerPairs mem
  rw [List.splitOn_eq_splitOnP] at listed
  have inside := (mem_of_mem_splitOnP listed (bytes 0 zero)).1
  have nonzero := List.mem_takeWhile_imp inside
  simp at nonzero

/-! ## The codec -/

/-- An empty message gets the fields back, and nothing is read behind the block. -/
structure Returns (fields : List ResponseField) : Prop where
  message : responseSetHeaders [] (some (responseBlock fields)) false = pairsOf fields
  inBounds : setReadsOutside ((cstr (responseBlock fields)).splitOn newline) = false

theorem returns_of_distinct {fields : List ResponseField}
    (distinct : DistinctNames (pairsOf fields))
    (nonzero : ∀ x ∈ fields, 0 ∉ x.value) : Returns fields := by
  have whole : cstr (responseBlock fields) = responseBlock fields := by
    rw [cstr_eq_self_iff, zero_mem_responseBlock]
    rintro ⟨x, listed, zero⟩
    exact nonzero x listed zero
  constructor
  · have pairs : parsedHeaders (some (responseBlock fields)) = pairsOf fields := by
      simp only [parsedHeaders, whole, splitOn_responseBlock, headerPairs_lines]
    have set_ : responseSetHeaders [] (some (responseBlock fields)) false =
        setHeaders [] (parsedHeaders (some (responseBlock fields))) := rfl
    rw [set_, pairs]
    exact setHeaders_of_distinct distinct
  · rw [whole, splitOn_responseBlock]
    exact setReadsOutside_lines fields

theorem distinct_of_returns {fields : List ResponseField} (returns : Returns fields) :
    DistinctNames (pairsOf fields) := by
  rw [← returns.message]
  exact distinctNames_setHeaders List.Pairwise.nil _

theorem nonzero_of_returns {fields : List ResponseField} (returns : Returns fields) :
    ∀ x ∈ fields, 0 ∉ x.value := by
  intro x listed
  have mem : x.pair ∈ responseSetHeaders [] (some (responseBlock fields)) false := by
    rw [returns.message]
    exact List.mem_map_of_mem listed
  rcases mem_setHeaders mem with none_ | parsed
  · cases none_
  · exact zero_notMem_parsed _ parsed

/-- Both writers give the block, and the fields come back from it exactly when no name is
there twice and no value has a zero byte, which ends the C string. -/
theorem response_codec_iff (fields : List ResponseField) :
    fields.foldl (fun headers x => addHeader headers x.name x.value) [] = responseBlock fields ∧
    getHeadersString (pairsOf fields) = responseBlock fields ∧
    (Returns fields ↔ DistinctNames (pairsOf fields) ∧ ∀ x ∈ fields, 0 ∉ x.value) := by
  refine ⟨addHeaders_eq fields, getHeadersString_eq fields, ?_⟩
  constructor
  · intro returns
    exact ⟨distinct_of_returns returns, nonzero_of_returns returns⟩
  · rintro ⟨distinct, nonzero⟩
    exact returns_of_distinct distinct nonzero

/-- Two cookies are set. -/
def twoCookies : List ResponseField :=
  [⟨"Set-Cookie", "session=abc", by decide +kernel, by decide +kernel, by decide +kernel⟩,
    ⟨"Set-Cookie", "theme=dark", by decide +kernel, by decide +kernel, by decide +kernel⟩]

/-- Only the last one is left. -/
theorem twoCookies_lost :
    responseBlock twoCookies = lit "Set-Cookie: session=abc\nSet-Cookie: theme=dark\n" ∧
    responseSetHeaders [] (some (responseBlock twoCookies)) false =
      [(lit "Set-Cookie", lit "theme=dark")] ∧
    ¬ Returns twoCookies := by
  refine ⟨by decide +kernel, by decide +kernel, ?_⟩
  intro returns
  have distinct := distinct_of_returns returns
  exact absurd distinct (by unfold DistinctNames; decide +kernel)

end ResponseBlocks
