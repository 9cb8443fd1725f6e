import Fiy.CardTexts

/-!
# Cards that come back from their text

What is read of every line that `to_vcard` writes, put together to the whole card: the
properties in their order, the id and the time. A user without a domain comes back, and
another one does not.
-/

namespace CardRoundTrip

open ByteStrings WebText ModLibrary ContactCards ContactCards.VC CivilCalendar DecimalTexts
open CardTexts

/-! ## Properties -/

/-- The names that are not stored as properties. -/
def specialNames : List Text := skippedNames ++ ["UID", "X-FIY-PROFILE", "REV", "SOURCE"].map lit

/-- The parameters as they are listed. -/
def paramParts (params : Text) : List Text := if params = [] then [] else params.splitOn 59

/-- A property that the text is meant for. -/
structure EditableProp (p : CardProp) : Prop where
  name : p.name ∉ specialNames ∧ Unbroken p.name
  value : Unbroken p.value
  params : Unbroken p.params ∧ 58 ∉ p.params ∧
    ∀ part ∈ paramParts p.params, part ≠ [] ∧ ¬ lit "X-FIY-" <+: part
  visibility : 0 ≤ p.visibility ∧ p.visibility ≤ 3
  id : -1 ≤ p.id ∧ p.id ≤ 9223372036854775807

/-- Its name is one of the text form, and it does not stand for the user of the card. -/
structure PlainProp (p : CardProp) : Prop where
  name : 58 ∉ p.name ∧ 59 ∉ p.name ∧ ∀ b, p.name.head? = some b → isSpace b = false
  params : p.name = "X-SOCIALPROFILE" → ∀ part ∈ paramParts p.params, ¬ lit "TYPE=fiy" <+: part

/-- A line of `to_vcard` without its end. -/
def propText (profile : Bool) (p : CardProp) : Text :=
  p.name ++ (if p.params = [] then [] else lit ";" ++ p.params) ++
    (if p.visibility ≠ 0 ∨ profile then lit ";X-FIY-VISIBILITY=" ++ [visibilityByte p.visibility]
      else []) ++
    (if p.id ≥ 0 then lit ";X-FIY-ID=" ++ decimalInt p.id else []) ++
    lit ":" ++ p.value

/-- Parameters, each behind a semicolon. -/
def semicolons (parts : List Text) : Text := parts.flatMap fun part => 59 :: part

theorem semicolons_cons (part : Text) (parts : List Text) :
    semicolons (part :: parts) = 59 :: (part ++ semicolons parts) := rfl

theorem semicolons_append (parts more : List Text) :
    semicolons (parts ++ more) = semicolons parts ++ semicolons more := List.flatMap_append

/-- The parameters that a line has. -/
def partsOf (profile : Bool) (p : CardProp) : List Text :=
  paramParts p.params ++
    ((if p.visibility ≠ 0 ∨ profile then [lit "X-FIY-VISIBILITY=" ++ [visibilityByte p.visibility]]
      else []) ++
    if p.id ≥ 0 then [lit "X-FIY-ID=" ++ decimalInt p.id] else [])

theorem semicolons_paramParts (params : Text) :
    semicolons (paramParts params) = if params = [] then [] else 59 :: params := by
  unfold paramParts
  split
  · rfl
  · have joined : ∀ parts : List Text, parts ≠ [] →
        semicolons parts = 59 :: List.intercalate [59] parts := by
      intro parts some_
      induction parts with
      | nil => exact absurd rfl some_
      | cons part parts ih =>
        cases parts with
        | nil => simp [semicolons]
        | cons next parts =>
          rw [semicolons_cons, ih (List.cons_ne_nil _ _), List.intercalate_cons_cons]
          simp
    rw [joined _ (List.splitOn_ne_nil 59 params), List.intercalate_splitOn]

theorem propText_eq (profile : Bool) (p : CardProp) :
    propText profile p = (p.name ++ semicolons (partsOf profile p)) ++ 58 :: p.value := by
  have visible : lit ";X-FIY-VISIBILITY=" = 59 :: lit "X-FIY-VISIBILITY=" := rfl
  have id_ : lit ";X-FIY-ID=" = 59 :: lit "X-FIY-ID=" := rfl
  have semicolon : lit ";" = [59] := rfl
  have colon : lit ":" = [58] := rfl
  rw [partsOf, semicolons_append, semicolons_append, semicolons_paramParts, propText, visible, id_,
    semicolon, colon]
  split_ifs <;> simp [semicolons]

theorem splitOn_semicolons {first : Text} {parts : List Text} (first_ : 59 ∉ first)
    (plain : ∀ part ∈ parts, 59 ∉ part) :
    (first ++ semicolons parts).splitOn 59 = first :: parts := by
  induction parts generalizing first with
  | nil => rw [semicolons, List.flatMap_nil, List.append_nil, List.splitOn_eq_singleton first_]
  | cons part parts ih =>
    obtain ⟨part_, plain⟩ := List.forall_mem_cons.mp plain
    rw [semicolons_cons, List.splitOn_append_cons_self, List.splitOn_eq_singleton first_,
      ih part_ plain]
    rfl

theorem visibilityByte_eq {v : Int} (from_ : 0 ≤ v) (below : v ≤ 3) :
    isDigit (visibilityByte v) = true ∧ ∀ front : Text, front.length = 17 →
      visibilityParam (front ++ [visibilityByte v]) = v := by
  have four : v = 0 ∨ v = 1 ∨ v = 2 ∨ v = 3 := by omega
  have byte : (visibilityByte v).toNat = 48 + v.toNat ∧ isDigit (visibilityByte v) = true := by
    rcases four with rfl | rfl | rfl | rfl <;> decide
  refine ⟨byte.2, ?_⟩
  intro front length
  have here : (front ++ [visibilityByte v]).getD 17 0 = visibilityByte v := by
    rw [List.getD_eq_getElem?_getD, List.getElem?_append_right (by omega), length]
    rfl
  rw [visibilityParam, here, byte.1, int8]
  omega

/-- What the written parameters are made of, besides those of the property. -/
def isParamByte (b : Byte) : Bool :=
  b ∈ lit "X-FIY-VISIBILITY=" || b ∈ lit "X-FIY-ID=" || isDigit b

theorem mem_partsOf {p : CardProp} (editable : EditableProp p) {profile : Bool} {part : Text}
    (listed : part ∈ partsOf profile p) :
    part ≠ [] ∧ ∀ b ∈ part, (b ∈ p.params ∧ b ≠ 59) ∨ isParamByte b = true := by
  rw [partsOf, List.mem_append, List.mem_append] at listed
  rcases listed with listed | listed | listed
  · refine ⟨(editable.params.2.2 part listed).1, ?_⟩
    intro b mem
    unfold paramParts at listed
    split at listed
    · cases listed
    · rw [List.splitOn_eq_splitOnP] at listed
      obtain ⟨inside, other⟩ := mem_of_mem_splitOnP listed mem
      exact Or.inl ⟨inside, by simpa using other⟩
  · split at listed
    · obtain rfl := List.mem_singleton.mp listed
      refine ⟨List.cons_ne_nil _ _, ?_⟩
      intro b mem
      rw [List.mem_append, List.mem_singleton] at mem
      rcases mem with mem | rfl
      · exact Or.inr (by simp [isParamByte, mem])
      · exact Or.inr (by simp [isParamByte,
          (visibilityByte_eq editable.visibility.1 editable.visibility.2).1])
    · cases listed
  · split at listed
    next stored =>
      obtain rfl := List.mem_singleton.mp listed
      refine ⟨List.cons_ne_nil _ _, ?_⟩
      intro b mem
      rw [List.mem_append, decimalInt, if_neg (by omega)] at mem
      rcases mem with mem | mem
      · exact Or.inr (by simp [isParamByte, mem])
      · exact Or.inr (by simp [isParamByte, isDigit_of_mem_decimal mem])
    next => cases listed

theorem notMem_semicolons {p : CardProp} (editable : EditableProp p) (profile : Bool) {b : Byte}
    (other : isParamByte b = false) (params : b ∉ p.params) (semicolon : b ≠ 59) :
    b ∉ semicolons (partsOf profile p) := by
  rw [semicolons, List.mem_flatMap]
  rintro ⟨part, listed, mem⟩
  rcases List.mem_cons.mp mem with rfl | mem
  · exact semicolon rfl
  · rcases (mem_partsOf editable listed).2 b mem with inside | fixed
    · exact params inside.1
    · rw [other] at fixed
      cases fixed

theorem isLine_propText {p : CardProp} (editable : EditableProp p) (plain : PlainProp p)
    (profile : Bool) : IsLine (propText profile p) := by
  rw [propText_eq]
  constructor
  · have absent : ∀ b, b = 13 ∨ b = newline → b ∉ semicolons (partsOf profile p) := by
      intro b ends
      refine notMem_semicolons editable profile ?_ ?_ ?_
      · rcases ends with rfl | rfl <;> decide
      · intro mem
        have other := editable.params.1 b mem
        exact ends.elim other.1 other.2
      · rcases ends with rfl | rfl <;> decide
    intro b mem
    rw [List.mem_append, List.mem_append, List.mem_cons] at mem
    rcases mem with (mem | mem) | rfl | mem
    · exact editable.name.2 b mem
    · exact ⟨fun h => absent b (Or.inl h) mem, fun h => absent b (Or.inr h) mem⟩
    · decide
    · exact editable.value b mem
  · cases name : p.name with
    | nil =>
      cases partsOf profile p with
      | nil => rfl
      | cons part parts => rfl
    | cons b rest =>
      have solid := plain.name.2.2 b (by rw [name, List.head?_cons])
      simp [startsLine, solid]

/-- Parameters that mean nothing else are collected. -/
theorem parseParams_kept {social : Bool} {parts : List Text}
    (plain : ∀ part ∈ parts, ¬ lit "X-FIY-" <+: part ∧ (social → ¬ lit "TYPE=fiy" <+: part))
    (more : List Text) (found : Params) : parseParams social (parts ++ more) found =
      parseParams social more { found with params := found.params ++ semicolons parts } := by
  induction parts generalizing found with
  | nil => simp [semicolons]
  | cons part parts ih =>
    obtain ⟨⟨own, user⟩, plain⟩ := List.forall_mem_cons.mp plain
    have visibility : ¬ lit "X-FIY-VISIBILITY=" <+: part := fun h =>
      own (List.IsPrefix.trans (by decide) h)
    have id_ : ¬ lit "X-FIY-ID=" <+: part := fun h => own (List.IsPrefix.trans (by decide) h)
    have user_ : ¬ (lit "TYPE=fiy" <+: part ∧ social = true) := fun h => user h.2 h.1
    rw [List.cons_append, parseParams, if_neg visibility, if_neg id_, if_neg user_, ih plain]
    have semicolon : lit ";" = [59] := rfl
    simp [semicolons_cons, semicolon]

/-- A written number has no zero byte. -/
theorem cstr_decimalInt (n : Int) : cstr (decimalInt n) = decimalInt n := by
  rw [cstr_eq_self_iff]
  intro zero
  exact absurd (decimalInt_bytes zero) (by decide)

theorem parseParams_visibility {social : Bool} {v : Int} (from_ : 0 ≤ v) (below : v ≤ 3)
    (more : List Text) (found : Params) :
    parseParams social ((lit "X-FIY-VISIBILITY=" ++ [visibilityByte v]) :: more) found =
      parseParams social more { found with visibility := v } := by
  rw [parseParams, if_pos (List.prefix_append _ _), (visibilityByte_eq from_ below).2 _ rfl]

theorem parseParams_id {social : Bool} {n : Int} (from_ : 0 ≤ n) (below : n ≤ 9223372036854775807)
    (more : List Text) (found : Params) :
    parseParams social ((lit "X-FIY-ID=" ++ decimalInt n) :: more) found =
      parseParams social more { found with id := n } := by
  have other : ¬ lit "X-FIY-VISIBILITY=" <+: lit "X-FIY-ID=" ++ decimalInt n := by
    rintro ⟨rest, same⟩
    have sixth : (lit "X-FIY-VISIBILITY=" ++ rest)[6]? = some 86 := rfl
    have sixth' : (lit "X-FIY-ID=" ++ decimalInt n)[6]? = some 73 := rfl
    rw [same, sixth'] at sixth
    exact absurd sixth (by decide)
  have fits : max (-9223372036854775808) (min 9223372036854775807 n) = n := by omega
  have digits : (lit "X-FIY-ID=" ++ decimalInt n).drop 9 = decimalInt n := rfl
  rw [parseParams, if_neg other, if_pos (List.prefix_append _ _), digits, cstr_decimalInt, strtol,
    strtolValue_decimalInt, Option.map_some, fits]
  rfl

/-- The parameters of a line give those of the property, its visibility and its id. -/
theorem parseParams_partsOf {p : CardProp} (editable : EditableProp p) (plain : PlainProp p)
    (profile : Bool) : ∃ params, parseParams (p.name = "X-SOCIALPROFILE") (partsOf profile p) {} =
      some ⟨params, p.visibility, p.id⟩ ∧ params.tail = p.params := by
  obtain ⟨v_from, v_below⟩ := editable.visibility
  obtain ⟨id_from, id_below⟩ := editable.id
  have kept : ∀ part ∈ paramParts p.params, ¬ lit "X-FIY-" <+: part ∧
      (decide (p.name = "X-SOCIALPROFILE") = true → ¬ lit "TYPE=fiy" <+: part) := by
    intro part listed
    refine ⟨(editable.params.2.2 part listed).2, ?_⟩
    intro social
    exact plain.params (of_decide_eq_true social) part listed
  refine ⟨semicolons (paramParts p.params), ?_, ?_⟩
  · rw [partsOf, parseParams_kept kept, List.nil_append]
    by_cases visible : p.visibility ≠ 0 ∨ profile = true
    · rw [if_pos visible, List.singleton_append, parseParams_visibility v_from v_below]
      by_cases stored : p.id ≥ 0
      · rw [if_pos stored, parseParams_id stored id_below, parseParams]
      · have new : p.id = -1 := by omega
        rw [if_neg stored, parseParams, new]
    · have hidden : p.visibility = 0 := by
        by_contra other
        exact visible (Or.inl other)
      rw [if_neg visible, List.nil_append]
      by_cases stored : p.id ≥ 0
      · rw [if_pos stored, parseParams_id stored id_below, parseParams, hidden]
      · have new : p.id = -1 := by omega
        rw [if_neg stored, parseParams, new, hidden]
  · rw [semicolons_paramParts]
    split
    next empty => rw [empty, List.tail_nil]
    next => rfl

/-- The name of a line ends at the first semicolon. -/
theorem name_of_field {name : Text} (absent : 59 ∉ name) (parts : List Text) :
    (name ++ semicolons parts).takeWhile (· ≠ 59) = name ∧
      (name ++ semicolons parts).dropWhile (· ≠ 59) = semicolons parts := by
  have plain : ∀ b ∈ name, decide (b ≠ 59) = true := fun b mem =>
    decide_eq_true (ne_of_mem_of_not_mem mem absent)
  rw [List.takeWhile_append_of_pos plain, List.dropWhile_append_of_pos plain]
  cases parts with
  | nil => exact ⟨by simp [semicolons], rfl⟩
  | cons part parts => exact ⟨by simp [semicolons_cons], by simp [semicolons_cons]⟩

/-- A written property is read back behind the others. -/
theorem readLine_propText (host : ModHost) {p : CardProp} (editable : EditableProp p)
    (plain : PlainProp p) (profile : Bool) (card : VC) :
    readLine host card (propText profile p) = some { card with props := card.props ++ [p] } := by
  obtain ⟨colon, semicolon, _⟩ := plain.name
  obtain ⟨name, rawParams⟩ := name_of_field semicolon (partsOf profile p)
  have field : 58 ∉ p.name ++ semicolons (partsOf profile p) := by
    rw [List.mem_append, not_or]
    exact ⟨colon, notMem_semicolons editable profile (by decide) editable.params.2.1 (by decide)⟩
  have params : ((semicolons (partsOf profile p)).splitOn 59).filter (· ≠ []) =
      partsOf profile p := by
    have no_semicolon : ∀ part ∈ partsOf profile p, 59 ∉ part := by
      intro part listed mem
      rcases (mem_partsOf editable listed).2 59 mem with inside | fixed
      · exact inside.2 rfl
      · exact absurd fixed (by decide)
    have pieces : (semicolons (partsOf profile p)).splitOn 59 = [] :: partsOf profile p :=
      splitOn_semicolons List.not_mem_nil no_semicolon
    rw [pieces, List.filter_cons_of_neg (by simp), List.filter_eq_self]
    intro part listed
    exact decide_eq_true (mem_partsOf editable listed).1
  obtain ⟨found, parsed, tail⟩ := parseParams_partsOf editable plain profile
  have special := editable.name.1
  simp only [specialNames, List.map_cons, List.map_nil, List.mem_append, List.mem_cons,
    List.not_mem_nil, or_false, not_or] at special
  obtain ⟨skipped, uid, user, rev, source⟩ := special
  rw [propText_eq, readLine, cut_append field]
  simp only [name, if_neg rev, parseLine, cut_append field, if_neg skipped, if_neg uid, if_neg user,
    rawParams, params, parsed, tail]
  rw [if_neg (by simp [rev, source])]

/-! ## Cards -/

/-- A host whose names do not break a line. -/
structure CardHost where
  host : ModHost
  domain : Unbroken host.domain
  baseUri : Unbroken host.baseUri

/-- A card that the text is meant for: it has a name, and the users and properties of a
card. -/
structure EditableCard (vc : VC) : Prop where
  named : ∃ p ∈ vc.props, p.name = "N" ∨ p.name = "FN"
  props : ∀ p ∈ vc.props, EditableProp p
  id : -1 ≤ vc.id ∧ vc.id ≤ 9223372036854775807
  user : Unbroken vc.user

/-- The card comes back from its text. -/
def Restores (host : ModHost) (vc : VC) : Prop :=
  ∃ text, writeVcard host vc = some text ∧ ∃ card, readVcard host {} text = (true, card) ∧
    card.id = vc.id ∧ card.user = vc.user ∧ card.updateTs = vc.updateTs ∧ card.props = vc.props

/-- A card that is not invalid, with a time that the text has room for. -/
structure PlainCard (vc : VC) : Prop where
  valid : vc.invalid = false
  props : ∀ p ∈ vc.props, PlainProp p
  time : vc.updateTs = 0 ∨ FourCharacters (civilDate (vc.updateTs / 86400)).1

section cards
variable (host : ModHost) (vc : VC)

def userStr : Text := vc.user ++ lit "@" ++ host.domain

/-- The lines before the properties. -/
def headLines : List Text :=
  [lit "BEGIN:VCARD", lit "VERSION:4.0"] ++
  ((if vc.id ≥ 0 then
      [lit "SOURCE:" ++ (host.baseUri ++ (lit "/id/" ++ decimalInt vc.id)),
        lit "UID:" ++ decimalInt vc.id] else []) ++
  ((if vc.user ≠ [] ∧ vc.owner = vc.user then [lit "X-FIY-PROFILE:" ++ userStr host vc] else []) ++
  ((if vc.user ≠ [] then [lit "X-SOCIALPROFILE;TYPE=fiy:" ++ userStr host vc] else []) ++
  (if vc.updateTs ≠ 0 then [lit "REV:" ++ timestampStr vc.updateTs] else []))))

/-- All lines but the last one. -/
def vcardLines : List Text :=
  headLines host vc ++ vc.props.map (propText (vc.user = vc.owner))

theorem flatMap_ite (p : Prop) [Decidable p] (lines : List Text) :
    (if p then lines else []).flatMap (fun line => line ++ crlf) =
      if p then lines.flatMap (fun line => line ++ crlf) else [] := by
  split <;> rfl

theorem toVcard_eq (valid : vc.invalid = false)
    (named : ∃ p ∈ vc.props, p.name = "N" ∨ p.name = "FN") :
    vc.toVcard host = joinLines (vcardLines host vc) (lit "END:VCARD") := by
  have named_ : (vc.props.any fun p => decide (p.name = "N") || decide (p.name = "FN")) = true := by
    obtain ⟨p, listed, name⟩ := named
    rw [List.any_eq_true]
    exact ⟨p, listed, by simpa using name⟩
  rw [toVcard, if_neg (by simp [valid]), if_pos named_, joinLines, vcardLines, headLines]
  simp only [List.flatMap_append, flatMap_ite, List.flatMap_map, List.flatMap_cons,
    List.flatMap_nil, List.append_nil, List.append_assoc, userStr]
  rfl

theorem isLine_append {front t : Text} (line : IsLine front) (unbroken : Unbroken t) :
    IsLine (front ++ t) := by
  constructor
  · intro b mem
    exact (List.mem_append.mp mem).elim (line.plain b) (unbroken b)
  · exact startsLine_append line.starts t

theorem unbroken_of_bytes {t : Text} (bytes : ∀ b ∈ t, 45 ≤ b.toNat) : Unbroken t := by
  intro b mem
  have low := bytes b mem
  constructor
  · rintro rfl
    exact absurd low (by decide)
  · rintro rfl
    exact absurd low (by decide)

variable {host vc}

theorem unbroken_append {t u : Text} (left : Unbroken t) (right : Unbroken u) : Unbroken (t ++ u) :=
  fun b mem => (List.mem_append.mp mem).elim (left b) (right b)

/-- Every line is one as it stands. -/
theorem isLine_vcardLines (served : CardHost) (editable : EditableCard vc) (plain : PlainCard vc) :
    ∀ line ∈ vcardLines served.host vc, IsLine line := by
  have user : Unbroken (userStr served.host vc) :=
    unbroken_append (unbroken_append editable.user (by decide +kernel)) served.domain
  have id_ : Unbroken (decimalInt vc.id) := unbroken_of_bytes fun b => decimalInt_bytes
  intro line listed
  simp only [vcardLines, headLines, List.mem_append] at listed
  rcases listed with (listed | listed | listed | listed | listed) | listed
  · rcases List.mem_cons.mp listed with rfl | listed
    · exact ⟨by decide +kernel, rfl⟩
    · obtain rfl := List.mem_singleton.mp listed
      exact ⟨by decide +kernel, rfl⟩
  · split at listed
    · rcases List.mem_cons.mp listed with rfl | listed
      · exact isLine_append ⟨by decide +kernel, rfl⟩
          (unbroken_append served.baseUri (unbroken_append (by decide +kernel) id_))
      · obtain rfl := List.mem_singleton.mp listed
        exact isLine_append ⟨by decide +kernel, rfl⟩ id_
    · cases listed
  · split at listed
    · obtain rfl := List.mem_singleton.mp listed
      exact isLine_append ⟨by decide +kernel, rfl⟩ user
    · cases listed
  · split at listed
    · obtain rfl := List.mem_singleton.mp listed
      exact isLine_append ⟨by decide +kernel, rfl⟩ user
    · cases listed
  · split at listed
    · obtain rfl := List.mem_singleton.mp listed
      exact isLine_append ⟨by decide +kernel, rfl⟩ (unbroken_of_bytes fun b => timestampStr_bytes)
    · cases listed
  · obtain ⟨p, stored, rfl⟩ := List.mem_map.mp listed
    exact isLine_propText (editable.props p stored) (plain.props p stored) _

/-! ## The whole text -/

/-- A name with an at sign is taken for a user of another host, its own domain included. -/
theorem userOf_userStr (host : ModHost) (vc : VC) : userOf host (userStr host vc) =
    if 64 ∈ vc.user then userStr host vc else vc.user := by
  have at_ : lit "@" = [64] := rfl
  split
  next mem =>
    obtain ⟨name, domain, user, absent⟩ := List.eq_append_cons_of_mem mem
    have parts : cut 64 (userStr host vc) = some (name, domain ++ 64 :: host.domain) := by
      have text : userStr host vc = name ++ 64 :: (domain ++ 64 :: host.domain) := by
        simp [userStr, user, at_]
      rw [text]
      exact cut_append absent _
    have foreign : ¬ (domain ++ 64 :: host.domain = [] ∨
        domain ++ 64 :: host.domain = host.domain) := by
      rintro (empty | own)
      · simp at empty
      · have lengths := congrArg List.length own
        simp only [List.length_append, List.length_cons] at lengths
        omega
    simp only [userOf, ModHost.splitUserStr, parts, if_neg foreign]
    rw [if_neg (fun h => foreign (Or.inl h))]
  next absent =>
    have parts : cut 64 (userStr host vc) = some (vc.user, host.domain) := by
      have text : userStr host vc = vc.user ++ 64 :: host.domain := by simp [userStr, at_]
      rw [text]
      exact cut_append absent _
    simp [userOf, ModHost.splitUserStr, parts]

theorem readLines_ids (host : ModHost) (editable : EditableCard vc) {card : VC} (new : card.id = -1)
    (rest : List Text) :
    readLines host card ((if vc.id ≥ 0 then
      [lit "SOURCE:" ++ (host.baseUri ++ (lit "/id/" ++ decimalInt vc.id)),
        lit "UID:" ++ decimalInt vc.id] else []) ++ rest) =
      readLines host { card with id := vc.id } rest := by
  have bounds := editable.id
  split
  next stored =>
    have uid : (stoll (cstr (decimalInt vc.id))).getD card.id = vc.id := by
      have fits : decide (-9223372036854775808 ≤ vc.id ∧ vc.id ≤ 9223372036854775807) = true :=
        decide_eq_true (by omega)
      rw [cstr_decimalInt, stoll, strtolValue_decimalInt, Option.filter_some, if_pos fits,
        Option.getD_some]
    have source : readLine host card
        (lit "SOURCE:" ++ (host.baseUri ++ (lit "/id/" ++ decimalInt vc.id))) = some card := rfl
    have line : readLine host card (lit "UID:" ++ decimalInt vc.id) =
        some { card with id := (stoll (cstr (decimalInt vc.id))).getD card.id } := rfl
    rw [uid] at line
    rw [List.cons_append, readLines_cons source, List.singleton_append, readLines_cons line]
  next unsaved =>
    have same : vc.id = card.id := by omega
    rw [same, List.nil_append]

/-- The profile line says the same as the social one, which is there for every user. -/
theorem readLines_user (host : ModHost) (vc : VC) {card : VC} (new : card.user = [])
    (rest : List Text) :
    readLines host card ((if vc.user ≠ [] ∧ vc.owner = vc.user then
      [lit "X-FIY-PROFILE:" ++ userStr host vc] else []) ++ ((if vc.user ≠ [] then
      [lit "X-SOCIALPROFILE;TYPE=fiy:" ++ userStr host vc] else []) ++ rest)) =
      readLines host
        { card with user := if vc.user = [] then [] else userOf host (userStr host vc) } rest := by
  have social : ∀ card : VC,
      readLine host card (lit "X-SOCIALPROFILE;TYPE=fiy:" ++ userStr host vc) =
      some { card with user := userOf host (userStr host vc) } := fun _ => rfl
  have profile : readLine host card (lit "X-FIY-PROFILE:" ++ userStr host vc) =
      some { card with user := userOf host (userStr host vc) } := rfl
  by_cases empty : vc.user = []
  · rw [if_neg (fun h => h.1 empty), if_neg (not_not_intro empty), if_pos empty, ← new]
    rfl
  · rw [if_pos empty, if_neg empty]
    split
    · rw [List.singleton_append, readLines_cons profile, List.singleton_append,
        readLines_cons (social _)]
    · rw [List.nil_append, List.singleton_append, readLines_cons (social card)]

theorem readLines_rev (host : ModHost) (plain : PlainCard vc) {card : VC} (new : card.updateTs = 0)
    (rest : List Text) :
    readLines host card ((if vc.updateTs ≠ 0 then
      [lit "REV:" ++ timestampStr vc.updateTs] else []) ++ rest) =
      readLines host { card with updateTs := vc.updateTs } rest := by
  split
  next some_ =>
    have line : readLine host card (lit "REV:" ++ timestampStr vc.updateTs) =
        some { card with updateTs := parseTimestampStr (timestampStr vc.updateTs) } := rfl
    rw [(timestamp_returns (plain.time.resolve_left some_)).2] at line
    rw [List.singleton_append, readLines_cons line]
  next none_ =>
    have same : vc.updateTs = card.updateTs := by
      rw [new]
      exact not_not.mp none_
    rw [same, List.nil_append]

/-- The lines before the properties give the id, the user and the time. -/
theorem readLines_headLines (host : ModHost) (editable : EditableCard vc) (plain : PlainCard vc)
    (rest : List Text) : readLines host {} (headLines host vc ++ rest) = readLines host
      { id := vc.id
        user := if vc.user = [] then [] else userOf host (userStr host vc)
        updateTs := vc.updateTs } rest := by
  have begin_ : readLine host {} (lit "BEGIN:VCARD") = some {} := rfl
  have version : readLine host {} (lit "VERSION:4.0") = some {} := rfl
  simp only [headLines, List.append_assoc, List.cons_append, List.nil_append]
  rw [readLines_cons begin_, readLines_cons version, readLines_ids host editable rfl,
    readLines_user host vc rfl, readLines_rev host plain rfl]

theorem readLines_props (host : ModHost) {props : List CardProp}
    (editable : ∀ p ∈ props, EditableProp p) (plain : ∀ p ∈ props, PlainProp p) (profile : Bool)
    (card : VC) (rest : List Text) :
    readLines host card (props.map (propText profile) ++ rest) =
      readLines host { card with props := card.props ++ props } rest := by
  induction props generalizing card with
  | nil => simp
  | cons p props ih =>
    obtain ⟨first, editable⟩ := List.forall_mem_cons.mp editable
    obtain ⟨first', plain⟩ := List.forall_mem_cons.mp plain
    rw [List.map_cons, List.cons_append,
      readLines_cons (readLine_propText host first first' profile card), ih editable plain]
    simp

theorem trim_joinLines (lines : List Text) :
    trim (joinLines (lit "BEGIN:VCARD" :: lines) (lit "END:VCARD")) =
      joinLines (lit "BEGIN:VCARD" :: lines) (lit "END:VCARD") := by
  have front : ∀ rest : Text, (lit "BEGIN:VCARD" ++ rest).dropWhile isBlank =
      lit "BEGIN:VCARD" ++ rest := fun rest => rfl
  have back : ∀ text : Text, (text ++ lit "END:VCARD").rdropWhile isBlank =
      text ++ lit "END:VCARD" := by
    intro text
    have last : text ++ lit "END:VCARD" = (text ++ lit "END:VCAR") ++ [68] := by
      rw [List.append_assoc]
      rfl
    rw [last, List.rdropWhile_concat_neg _ _ _ (by decide)]
  rw [trim, joinLines_cons, front, ← joinLines_cons, joinLines, back]

/-- What is read of a written card. -/
theorem readVcard_writeVcard (served : CardHost) (editable : EditableCard vc)
    (plain : PlainCard vc) :
    ∃ text, writeVcard served.host vc = some text ∧ readVcard served.host {} text =
      (true, { id := vc.id
               user := if vc.user = [] then [] else userOf served.host (userStr served.host vc)
               updateTs := vc.updateTs
               props := vc.props }) := by
  refine ⟨vc.toVcard served.host, ?_, ?_⟩
  · rw [writeVcard, if_neg]
    rintro ⟨_, some_, unspecified⟩
    rw [(timestamp_returns (plain.time.resolve_left some_)).1] at unspecified
    cases unspecified
  · have last : IsLine (lit "END:VCARD") := ⟨by decide +kernel, rfl⟩
    obtain ⟨unfolded, lines⟩ := cardLines_joinLines (isLine_vcardLines served editable plain) last
    have cons : vcardLines served.host vc =
        lit "BEGIN:VCARD" :: (vcardLines served.host vc).tail := rfl
    have trimmed := trim_joinLines (vcardLines served.host vc).tail
    rw [← cons] at trimmed
    have starts :
        lit "BEGIN:VCARD" <+: joinLines (vcardLines served.host vc) (lit "END:VCARD") := by
      rw [cons, joinLines_cons]
      exact List.prefix_append _ _
    have end_ : ∀ card : VC, readLine served.host card (lit "END:VCARD") = some card := fun _ => rfl
    rw [toVcard_eq _ _ plain.valid editable.named]
    simp only [readVcard, trimmed, if_pos starts, unfolded, lines]
    rw [vcardLines, List.append_assoc, readLines_headLines served.host editable plain,
      readLines_props served.host editable.props plain.props, readLines_cons (end_ _)]
    rfl

/-- A card whose user has no domain comes back from its text. -/
theorem card_round_trip (served : CardHost) (editable : EditableCard vc) (plain : PlainCard vc)
    (local_ : 64 ∉ vc.user) : Restores served.host vc := by
  obtain ⟨text, written, read⟩ := readVcard_writeVcard served editable plain
  refine ⟨text, written, _, read, rfl, ?_, rfl, rfl⟩
  rw [userOf_userStr, if_neg local_]
  split
  next empty => exact empty.symm
  next => rfl

/-- The own domain is added to every user. -/
theorem remote_user_not_restored (served : CardHost) (editable : EditableCard vc)
    (plain : PlainCard vc) (remote : 64 ∈ vc.user) : ¬ Restores served.host vc := by
  obtain ⟨text, written, read⟩ := readVcard_writeVcard served editable plain
  rintro ⟨text', written', card, read', _, user, _⟩
  obtain rfl := Option.some.inj (written.symm.trans written')
  obtain rfl := (Prod.mk.inj (read.symm.trans read')).2
  have some_ : vc.user ≠ [] := List.ne_nil_of_mem remote
  simp only [if_neg some_, userOf_userStr, if_pos remote] at user
  have lengths := congrArg List.length user
  have at_ : (lit "@").length = 1 := rfl
  rw [userStr, List.length_append, List.length_append, at_] at lengths
  omega

end cards

/-! ## Cards outside of the form -/

theorem restores_iff (host : ModHost) (vc : VC) : Restores host vc ↔
    ((writeVcard host vc).any fun text => decide ((readVcard host {} text).1 = true ∧
      (readVcard host {} text).2.id = vc.id ∧ (readVcard host {} text).2.user = vc.user ∧
      (readVcard host {} text).2.updateTs = vc.updateTs ∧
      (readVcard host {} text).2.props = vc.props)) = true := by
  rw [Option.any_eq_true]
  constructor
  · rintro ⟨text, written, card, read, id_, user, time, props⟩
    refine ⟨text, written, decide_eq_true ?_⟩
    rw [read]
    exact ⟨rfl, id_, user, time, props⟩
  · rintro ⟨text, written, same⟩
    obtain ⟨ok, id_, user, time, props⟩ := of_decide_eq_true same
    exact ⟨text, written, _, Prod.ext ok rfl, id_, user, time, props⟩

def demoHost : CardHost where
  host :=
    { domain := "a.net", baseUri := "https://a.net/mods/contacts", now := 0
      userInfo := fun _ => 0, jsonString := some, base64Decode := some }
  domain := by decide +kernel
  baseUri := by decide +kernel

def bobProp : CardProp := ⟨7, "FN", [], "Bob", 1⟩

theorem editable_bobProp : EditableProp bobProp :=
  ⟨by decide +kernel, by decide +kernel, by decide +kernel, by decide +kernel, by decide +kernel⟩

theorem plain_bobProp : PlainProp bobProp := ⟨by decide +kernel, by decide +kernel⟩

/-- A card with a name and one more property. -/
def cardWith (p : CardProp) : VC :=
  { id := 3, owner := "bob", user := "bob", updateTs := 1700000000, props := [bobProp, p] }

theorem editable_cardWith {p : CardProp} (editable : EditableProp p) :
    EditableCard (cardWith p) := by
  have ids : (-1 : Int) ≤ 3 ∧ (3 : Int) ≤ 9223372036854775807 := by decide
  have user : Unbroken (lit "bob") := by decide +kernel
  refine ⟨⟨bobProp, List.mem_cons_self, Or.inr rfl⟩, ?_, ids, user⟩
  intro q listed
  rcases List.mem_cons.mp listed with rfl | listed
  · exact editable_bobProp
  · rwa [List.mem_singleton.mp listed]

/-- A note with parameters. -/
def noteProp : CardProp := ⟨-1, "NOTE", "LANGUAGE=en;PREF=1", "a; b: c", 0⟩

theorem note_restored : Restores demoHost.host (cardWith noteProp) := by
  have editable : EditableProp noteProp :=
    ⟨by decide +kernel, by decide +kernel, by decide +kernel, by decide +kernel, by decide +kernel⟩
  have plain : PlainProp noteProp := ⟨by decide +kernel, by decide +kernel⟩
  refine card_round_trip demoHost (editable_cardWith editable) ⟨by decide +kernel, ?_, ?_⟩
    (by decide +kernel)
  · intro q listed
    rcases List.mem_cons.mp listed with rfl | listed
    · exact plain_bobProp
    · rwa [List.mem_singleton.mp listed]
  · exact Or.inr (by decide +kernel)

/-- An invalid card is written as the empty text. -/
def unsavedCard : VC := { props := [bobProp] }

/-- A card of the year 10000. -/
def lateCard : VC := { id := 3, updateTs := 253402300800, props := [bobProp] }

/-- Names that end early or do not begin a line, and a second link to the user. -/
def oddProps : List CardProp :=
  [⟨-1, "A:B", [], "c", 0⟩, ⟨-1, "A;B", [], "c", 0⟩, ⟨-1, " A", [], "c", 0⟩,
    ⟨-1, "X-SOCIALPROFILE", "TYPE=fiy", "eve@b.net", 0⟩]

theorem odd_cards_not_restored :
    (EditableCard unsavedCard ∧ ¬ Restores demoHost.host unsavedCard) ∧
    (EditableCard lateCard ∧ ¬ Restores demoHost.host lateCard) ∧
    ∀ p ∈ oddProps, EditableCard (cardWith p) ∧ ¬ Restores demoHost.host (cardWith p) := by
  have only : ∀ vc : VC, vc.props = [bobProp] → ∀ q ∈ vc.props, EditableProp q := by
    intro vc props q listed
    rw [props, List.mem_singleton] at listed
    rw [listed]
    exact editable_bobProp
  refine ⟨⟨?_, ?_⟩, ⟨?_, ?_⟩, ?_⟩
  · exact ⟨⟨bobProp, List.mem_cons_self, Or.inr rfl⟩, only _ rfl, by decide, by decide +kernel⟩
  · rw [restores_iff]
    decide +kernel
  · exact ⟨⟨bobProp, List.mem_cons_self, Or.inr rfl⟩, only _ rfl, by decide, by decide +kernel⟩
  · rw [restores_iff]
    decide +kernel
  · intro p listed
    refine ⟨editable_cardWith ?_, ?_⟩
    · have all : ∀ p ∈ oddProps, (p.name ∉ specialNames ∧ Unbroken p.name) ∧ Unbroken p.value ∧
          (Unbroken p.params ∧ 58 ∉ p.params ∧
            ∀ part ∈ paramParts p.params, part ≠ [] ∧ ¬ lit "X-FIY-" <+: part) ∧
          (0 ≤ p.visibility ∧ p.visibility ≤ 3) ∧ -1 ≤ p.id ∧ p.id ≤ 9223372036854775807 := by
        decide +kernel
      obtain ⟨name, value, params, visibility, id_⟩ := all p listed
      exact ⟨name, value, params, visibility, id_⟩
    · rw [restores_iff]
      have all : ∀ p ∈ oddProps, ¬ ((writeVcard demoHost.host (cardWith p)).any fun text =>
          decide ((readVcard demoHost.host {} text).1 = true ∧
            (readVcard demoHost.host {} text).2.id = (cardWith p).id ∧
            (readVcard demoHost.host {} text).2.user = (cardWith p).user ∧
            (readVcard demoHost.host {} text).2.updateTs = (cardWith p).updateTs ∧
            (readVcard demoHost.host {} text).2.props = (cardWith p).props)) = true := by
        decide +kernel
      exact all p listed

end CardRoundTrip
