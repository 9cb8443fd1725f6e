import Fiy.ContactsAnswers
import Fiy.FrontendCards

/-!
# Cards that are saved from the page

The server writes a card, the page reads it, and what the page writes of it is posted to the
server again. All lines come back, but for what the page does not keep of the parameters and for
properties with the name of the text form itself. The list of all cards is cut at the ends of the
cards, where blanks behind the last value are lost.
-/

namespace FrontendSaves

open ByteStrings WebText ModLibrary EncodedTexts ContentLines CardTexts CardRoundTrip FrontendCards
open ContactCards (CardProp)
open ContactCards.VC (crlf toVcard userOf visibilityByte skippedNames unfoldLines startsLine)
open FrontendCards.VCProperty FrontendCards.VC

/-! ## Columns in characters -/

/-- A property whose columns are texts. -/
structure SpelledProp where
  id : Int := -1
  name : Str
  params : Str := []
  value : Str := []
  visibility : Int := 0
  deriving DecidableEq, Repr

namespace SpelledProp

def column (p : SpelledProp) : CardProp :=
  { id := p.id, name := utf8 p.name, params := utf8 p.params, value := utf8 p.value
    visibility := p.visibility }

/-- What the page leaves of a property. -/
def keep (p : SpelledProp) : SpelledProp := { p with params := kept p.params }

end SpelledProp

open SpelledProp

/-- The page takes the name as it is, and no parameter becomes one that the server adds. -/
structure Shown (p : SpelledProp) : Prop where
  name : FrontendCards.trim p.name = p.name
  params : ∀ part ∈ paramStrs p.params, ¬ "X-FIY-".toList <+: FrontendCards.trim part ∧
    (p.name = "X-SOCIALPROFILE".toList → ¬ "TYPE=fiy".toList <+: FrontendCards.trim part)

theorem utf8_semis (parts : List Str) : utf8 (semis parts) = semicolons (parts.map utf8) := by
  induction parts with
  | nil => rfl
  | cons part parts ih =>
    have rest : semis (part :: parts) = ';' :: (part ++ semis parts) := rfl
    rw [rest, utf8_cons_ascii (by decide), utf8_append, ih, List.map_cons, semicolons_cons]
    rfl

theorem semicolon_utf8 {part : Str} (plain : ';' ∉ part) : 59 ∉ utf8 part :=
  fun mem => plain ((mem_utf8_iff (c := ';') (by decide)).mp mem)

/-- The parameters of a column are those of its text. -/
theorem paramParts_utf8 (params : Str) :
    paramParts (utf8 params) = (paramStrs params).map utf8 := by
  by_cases empty : params = []
  · rw [empty]
    rfl
  · have some_ : utf8 params ≠ [] := fun none_ => empty (utf8_injective none_)
    have plain : ∀ part ∈ (paramStrs params).map utf8, 59 ∉ part := by
      intro part listed
      obtain ⟨t, mem, rfl⟩ := List.mem_map.mp listed
      exact semicolon_utf8 (paramStrs_plain mem)
    have text : ([] : Text) ++ semicolons ((paramStrs params).map utf8) = 59 :: utf8 params := by
      have pieces : params.splitOn ';' ≠ [] := List.splitOn_ne_nil _ _
      rw [List.nil_append, ← utf8_semis, paramStrs, if_neg empty, semis_eq pieces,
        List.intercalate_splitOn, utf8_cons_ascii (by decide)]
      rfl
    have split_ := splitOn_semicolons (List.not_mem_nil (a := (59 : UInt8))) plain
    rw [text, ← List.nil_append (59 :: utf8 params), List.splitOn_append_cons_self,
      List.splitOn_eq_singleton List.not_mem_nil] at split_
    rw [paramParts, if_neg some_]
    exact (List.cons.inj split_).2

/-! ## Properties on the page -/

section properties
variable {p : SpelledProp}

/-- What the server adds to the parameters. -/
def addedEntries (profile : Bool) (p : SpelledProp) : Entries :=
  (if p.visibility ≠ 0 ∨ profile then
    [("X-FIY-VISIBILITY".toList, [Char.ofNat (48 + p.visibility.toNat)])] else []) ++
  if p.id ≥ 0 then [("X-FIY-ID".toList, Nat.toDigits 10 p.id.natAbs)] else []

theorem visibility_cases (editable : EditableProp p.column) :
    p.visibility = 0 ∨ p.visibility = 1 ∨ p.visibility = 2 ∨ p.visibility = 3 := by
  have bounds : 0 ≤ p.visibility ∧ p.visibility ≤ 3 := editable.visibility
  omega

theorem trim_eq_self {s : Str} (first : ∀ c, s.head? = some c → FrontendCards.isSpace c = false)
    (last : ∀ c, s.getLast? = some c → FrontendCards.isSpace c = false) :
    FrontendCards.trim s = s := by
  have front : s.dropWhile FrontendCards.isSpace = s := by
    cases s with
    | nil => rfl
    | cons c s => rw [List.dropWhile_cons_of_neg (by simp [first c rfl])]
  rw [FrontendCards.trim, front, List.rdropWhile_eq_self_iff]
  intro some_
  have end_ := last (s.getLast some_) (List.getLast?_eq_some_getLast some_)
  simp [end_]

theorem digit_plain {c : Char} (digit : c.isDigit = true) :
    Ascii c ∧ c ≠ '=' ∧ c ≠ ';' ∧ FrontendCards.isSpace c = false := by
  simp only [Char.isDigit, Bool.and_eq_true, decide_eq_true_eq] at digit
  have from_ : 48 ≤ c.toNat := digit.1
  have below : c.toNat ≤ 57 := digit.2
  refine ⟨?_, ?_, ?_, ?_⟩
  · rw [Ascii]
    omega
  · rintro rfl
    exact absurd below (by decide)
  · rintro rfl
    exact absurd below (by decide)
  · simp only [FrontendCards.isSpace, Bool.or_eq_false_iff, Bool.and_eq_false_iff,
      decide_eq_false_iff_not]
    omega

/-- A parameter of the server: its key is no index, and its value are digits. -/
structure Added (e : Str × Str) : Prop where
  key : e.1 = "X-FIY-VISIBILITY".toList ∨ e.1 = "X-FIY-ID".toList
  value : e.2 ≠ [] ∧ ∀ c ∈ e.2, c.isDigit = true

theorem added_addedEntries (editable : EditableProp p.column) (profile : Bool) :
    ∀ e ∈ addedEntries profile p, Added e := by
  intro e mem
  rw [addedEntries, List.mem_append] at mem
  rcases mem with mem | mem
  · split at mem
    · obtain rfl := List.mem_singleton.mp mem
      refine ⟨Or.inl rfl, List.cons_ne_nil _ _, ?_⟩
      intro c listed
      rw [List.mem_singleton.mp listed]
      rcases visibility_cases editable with is_ | is_ | is_ | is_ <;> rw [is_] <;> decide
    · cases mem
  · split at mem
    · obtain rfl := List.mem_singleton.mp mem
      exact ⟨Or.inr rfl, Nat.toDigits_ne_nil,
        fun c => Nat.isDigit_of_mem_toDigits (by decide) (by decide)⟩
    · cases mem

theorem Added.plain {e : Str × Str} (added : Added e) :
    Entry e ∧ ';' ∉ entryText e ∧ FrontendCards.trim (entryText e) = entryText e ∧
      AllAscii (entryText e) ∧ arrayIndex e.1 = none ∧ e.1 ≠ proto ∧
      "X-FIY-".toList <+: e.1 := by
  obtain ⟨key, some_, digits⟩ := added
  have keys : ∀ k ∈ ["X-FIY-VISIBILITY".toList, "X-FIY-ID".toList], '=' ∉ k ∧ ';' ∉ k ∧
      (k.head? = some 'X') ∧ AllAscii k ∧ arrayIndex k = none ∧ k ≠ proto ∧
      "X-FIY-".toList <+: k := by decide +kernel
  obtain ⟨equals, semicolon, head, ascii, index, noProto, front⟩ := keys e.1 (by
    rw [List.mem_cons, List.mem_singleton]
    exact key)
  refine ⟨⟨equals, some_, fun mem => (digit_plain (digits _ mem)).2.1 rfl⟩, ?_, ?_, ?_, index,
    noProto, front⟩
  · rw [entryText, List.mem_append, List.mem_cons]
    rintro (mem | mem | mem)
    · exact semicolon mem
    · exact absurd mem (by decide)
    · exact (digit_plain (digits _ mem)).2.2.1 rfl
  · refine trim_eq_self ?_ ?_
    · intro c first
      rw [entryText, List.head?_append, head] at first
      obtain rfl := Option.some.inj first
      decide
    · intro c last
      have end_ : (entryText e).getLast? = e.2.getLast? := by
        rw [entryText, List.getLast?_append_of_ne_nil _ (List.cons_ne_nil _ _),
          List.getLast?_cons_of_ne_nil some_]
      rw [end_] at last
      exact (digit_plain (digits c (List.mem_of_getLast? last))).2.2.2
  · intro c mem
    rw [entryText, List.mem_append, List.mem_cons] at mem
    rcases mem with mem | rfl | mem
    · exact ascii c mem
    · decide
    · exact (digit_plain (digits c mem)).1

theorem partsOf_column (editable : EditableProp p.column) (profile : Bool) :
    partsOf profile p.column =
      ((paramStrs p.params ++ (addedEntries profile p).map entryText)).map utf8 := by
  have params : paramParts p.column.params = (paramStrs p.params).map utf8 := paramParts_utf8 _
  have visible : utf8 (entryText ("X-FIY-VISIBILITY".toList,
      [Char.ofNat (48 + p.visibility.toNat)])) =
        lit "X-FIY-VISIBILITY=" ++ [visibilityByte p.visibility] := by
    rcases visibility_cases editable with is_ | is_ | is_ | is_ <;> rw [is_] <;> decide +kernel
  have numbered : utf8 (entryText ("X-FIY-ID".toList, Nat.toDigits 10 p.id.natAbs)) =
      lit "X-FIY-ID=" ++ decimal p.id.natAbs := by
    have digits : ∀ c ∈ Nat.toDigits 10 p.id.natAbs, Ascii c := fun c mem =>
      (digit_plain (Nat.isDigit_of_mem_toDigits (by decide) (by decide) mem)).1
    have front : entryText ("X-FIY-ID".toList, Nat.toDigits 10 p.id.natAbs) =
        "X-FIY-ID=".toList ++ Nat.toDigits 10 p.id.natAbs := rfl
    rw [front, utf8_append, utf8_ascii digits, decimal]
    rfl
  have visibility_ : p.column.visibility = p.visibility := rfl
  have id_ : p.column.id = p.id := rfl
  rw [partsOf, params, List.map_append, addedEntries, List.map_append, List.map_append,
    visibility_, id_]
  congr 2
  · by_cases shows : p.visibility ≠ 0 ∨ profile = true
    · rw [if_pos shows, if_pos shows]
      exact congrArg (fun t => [t]) visible.symm
    · rw [if_neg shows, if_neg shows]
      rfl
  · by_cases stored : p.id ≥ 0
    · rw [if_pos stored, if_pos stored]
      have sign : decimalInt p.id = decimal p.id.natAbs := if_neg (by omega)
      rw [sign]
      exact congrArg (fun t => [t]) numbered.symm
    · rw [if_neg stored, if_neg stored]
      rfl

/-- A property is written in characters. -/
theorem propText_column (editable : EditableProp p.column) (profile : Bool) :
    propText profile p.column =
      utf8 (p.name ++ semis (paramStrs p.params ++ (addedEntries profile p).map entryText) ++
        ':' :: p.value) := by
  rw [propText_eq, partsOf_column editable, utf8_append, utf8_append, utf8_semis,
    utf8_cons_ascii (by decide)]
  rfl

/-! ## What is left of a property -/

theorem kept_chars {params : Str} {c : Char} (mem : c ∈ kept params) : c ∈ params ∨ c = ';' := by
  have whole : c ∈ semis ((paramsOf params).map entryText) := by
    have some_ : paramsString (paramsOf params) ≠ [] := List.ne_nil_of_mem mem
    rw [semis_entries, if_pos some_]
    exact List.mem_cons_of_mem _ mem
  obtain ⟨t, listed, mem⟩ := List.mem_flatMap.mp whole
  rcases List.mem_cons.mp mem with is_ | mem
  · exact Or.inr is_
  · obtain ⟨e, entry, rfl⟩ := List.mem_map.mp listed
    obtain ⟨-, part, inside, front⟩ := mem_paramsOf entry
    have mem := (front.isInfix.trans (trim_inside part)).subset mem
    left
    unfold paramStrs at inside
    split at inside
    · cases inside
    · rw [List.splitOn_eq_splitOnP] at inside
      exact (mem_of_mem_splitOnP inside mem).1

theorem utf8_kept {params : Str} {c : Char} (ascii : Ascii c) (other : c ≠ ';')
    (absent : c.toUInt8 ∉ utf8 params) : c.toUInt8 ∉ utf8 (kept params) := by
  intro mem
  rcases kept_chars ((mem_utf8_iff ascii).mp mem) with mem | is_
  · exact absent ((mem_utf8_iff ascii).mpr mem)
  · exact other is_

/-- Parameters that are kept begin a part of those that were there. -/
theorem mem_paramParts_kept {part : Text} (listed : part ∈ paramParts p.keep.column.params) :
    ∃ e ∈ paramsOf p.params, part = utf8 (entryText e) := by
  have params : paramParts p.keep.column.params = (paramStrs (kept p.params)).map utf8 :=
    paramParts_utf8 _
  rw [params, kept, paramStrs_entries paramsOf_plain, List.map_map] at listed
  obtain ⟨e, mem, rfl⟩ := List.mem_map.mp listed
  exact ⟨e, mem, rfl⟩

theorem not_begins (shown : Shown p) {e : Str × Str} (mem : e ∈ paramsOf p.params) :
    ¬ "X-FIY-".toList <+: entryText e ∧
      (p.name = "X-SOCIALPROFILE".toList → ¬ "TYPE=fiy".toList <+: entryText e) := by
  obtain ⟨-, part, listed, front⟩ := mem_paramsOf mem
  obtain ⟨fiy, social⟩ := shown.params part listed
  exact ⟨fun begins => fiy (begins.trans front),
    fun is_ begins => social is_ (begins.trans front)⟩

theorem editable_keep (editable : EditableProp p.column) (shown : Shown p) :
    EditableProp p.keep.column := by
  obtain ⟨unbroken, colon, -⟩ := editable.params
  refine ⟨editable.name, editable.value, ⟨?_, ?_, ?_⟩, editable.visibility, editable.id⟩
  · intro b mem
    constructor
    · rintro rfl
      exact utf8_kept (c := '\r') (by decide) (by decide) (fun inside => (unbroken _ inside).1 rfl)
        mem
    · rintro rfl
      exact utf8_kept (c := '\n') (by decide) (by decide) (fun inside => (unbroken _ inside).2 rfl)
        mem
  · exact utf8_kept (c := ':') (by decide) (by decide) colon
  · intro part listed
    obtain ⟨e, mem, rfl⟩ := mem_paramParts_kept listed
    refine ⟨?_, ?_⟩
    · intro empty
      have none_ : entryText e = [] := utf8_injective empty
      simp [entryText] at none_
    · exact fun begins => (not_begins shown mem).1 (prefix_of_utf8 (by decide) begins)

theorem plain_keep (plain : PlainProp p.column) (shown : Shown p) : PlainProp p.keep.column := by
  refine ⟨plain.name, ?_⟩
  intro social part listed begins
  obtain ⟨e, mem, rfl⟩ := mem_paramParts_kept listed
  have name : p.name = "X-SOCIALPROFILE".toList := by
    refine utf8_injective (social.trans ?_)
    decide
  exact (not_begins shown mem).2 name (prefix_of_utf8 (by decide) begins)

theorem ordered_added (editable : EditableProp p.column) (shown : Shown p) (profile : Bool) :
    Ordered (paramsOf p.params ++ addedEntries profile p) := by
  have added := added_addedEntries editable profile
  have ordered := ordered_paramsOf p.params
  refine ⟨?_, ?_, ?_⟩
  · rw [List.map_append, List.nodup_append]
    refine ⟨ordered.keys, ?_, ?_⟩
    · unfold addedEntries
      split
      · split
        · exact (by decide : ["X-FIY-VISIBILITY".toList, "X-FIY-ID".toList].Nodup)
        · exact List.nodup_singleton _
      · split
        · exact List.nodup_singleton _
        · exact List.nodup_nil
    · rintro k listed k' listed' rfl
      obtain ⟨e, mem, rfl⟩ := List.mem_map.mp listed
      obtain ⟨d, mem', same⟩ := List.mem_map.mp listed'
      have begins := (added d mem').plain.2.2.2.2.2.2
      rw [same] at begins
      exact (not_begins shown mem).1 (begins.trans (List.prefix_append _ _))
  · rw [List.pairwise_append]
    refine ⟨ordered.order, ?_, ?_⟩
    · refine List.pairwise_of_forall_mem_list ?_
      intro a _ b mem n index
      rw [(added b mem).plain.2.2.2.2.1] at index
      cases index
    · intro a _ b mem n index
      rw [(added b mem).plain.2.2.2.2.1] at index
      cases index
  · intro e mem
    rcases List.mem_append.mp mem with mem | mem
    · exact ordered.noProto e mem
    · exact (added e mem).plain.2.2.2.2.2.1

/-- The name of the text form, which no property of the page has. -/
def vcard : Str := "VCARD".toList

/-- The page reads the line of a property, and writes that of what it keeps. -/
theorem line_of_property (editable : EditableProp p.column) (plain : PlainProp p.column)
    (shown : Shown p) (profile : Bool) {line : Str}
    (text : utf8 line = propText profile p.column) :
    (p.name = vcard → fromLine line = none) ∧
    (p.name ≠ vcard → ∃ q, fromLine line = some q ∧ isVersion q = false ∧
      utf8 q.toLine = propText profile p.keep.column) := by
  have added := added_addedEntries editable profile
  rw [propText_column editable] at text
  obtain rfl := utf8_injective text
  have semicolon : ';' ∉ p.name := fun mem =>
    plain.name.2.1 ((mem_utf8_iff (c := ';') (by decide)).mpr mem)
  have parts : ∀ part ∈ paramStrs p.params ++ (addedEntries profile p).map entryText,
      ';' ∉ part := by
    intro part listed
    rcases List.mem_append.mp listed with listed | listed
    · exact paramStrs_plain listed
    · obtain ⟨e, mem, rfl⟩ := List.mem_map.mp listed
      exact (added e mem).plain.2.1
  have colon : ':' ∉ p.name ++ semis (paramStrs p.params ++ (addedEntries profile p).map
      entryText) := by
    rw [List.mem_append, not_or]
    refine ⟨fun mem => plain.name.1 ((mem_utf8_iff (c := ':') (by decide)).mpr mem), ?_⟩
    intro mem
    have absent := notMem_semicolons editable profile (b := 58) (by decide) editable.params.2.1
      (by decide)
    rw [partsOf_column editable, ← utf8_semis] at absent
    exact absent ((mem_utf8_iff (c := ':') (by decide)).mpr mem)
  have special : ∀ name ∈ ["BEGIN", "END", "VERSION"], p.name ≠ name.toList := by
    intro name listed is_
    refine editable.name.1 ?_
    have column : p.column.name = utf8 name.toList := congrArg utf8 is_
    have names : ∀ name ∈ ["BEGIN", "END", "VERSION"], utf8 name.toList ∈ specialNames := by
      decide +kernel
    rw [column]
    exact names name listed
  have line_ := fromLine_eq shown.name semicolon parts colon p.value
  constructor
  · intro is_
    rw [line_, if_pos]
    rw [is_]
    decide
  · intro other
    have named : p.name ∉ lineNames := by
      simp only [lineNames, List.map_cons, List.map_nil, List.mem_cons, List.not_mem_nil, or_false,
        not_or]
      exact ⟨special _ (by simp), special _ (by simp), other⟩
    have trimmed : ((addedEntries profile p).map entryText).map FrontendCards.trim =
        (addedEntries profile p).map entryText := by
      rw [List.map_map]
      exact List.map_congr_left fun e mem => (added e mem).plain.2.2.1
    rw [if_neg named, List.map_append, trimmed, List.foldl_append, ← paramsOf,
      foldl_addParam_entries _ (ordered_added editable shown profile)
        fun e mem => (added e mem).plain.1] at line_
    refine ⟨_, line_, ?_, ?_⟩
    · exact decide_eq_false (special _ (by simp))
    · have keep_ : addedEntries profile p.keep = addedEntries profile p := rfl
      have params : paramStrs p.keep.params = (paramsOf p.params).map entryText :=
        paramStrs_entries paramsOf_plain
      rw [propText_column (editable_keep editable shown), params, keep_, toLine_eq,
        List.map_append]
      rfl

end properties

/-! ## The other lines -/

/-- The lines of `to_vcard` between the version and the properties, up to their colon. -/
def headFields : List (Str × List Str) :=
  [("SOURCE".toList, []), ("UID".toList, []), ("X-FIY-PROFILE".toList, []),
    ("X-SOCIALPROFILE".toList, ["TYPE=fiy".toList]), ("REV".toList, [])]

/-- These lines come back as they are. -/
theorem line_of_field {field : Str × List Str} (listed : field ∈ headFields) (value : Str) :
    ∃ q, fromLine (field.1 ++ semis field.2 ++ ':' :: value) = some q ∧ isVersion q = false ∧
      q.toLine = field.1 ++ semis field.2 ++ ':' :: value := by
  have all : ∀ field ∈ headFields, FrontendCards.trim field.1 = field.1 ∧ ';' ∉ field.1 ∧
      (∀ part ∈ field.2, ';' ∉ part) ∧ ':' ∉ field.1 ++ semis field.2 ∧ field.1 ∉ lineNames ∧
      field.1 ≠ "VERSION".toList ∧
      ((field.2.map FrontendCards.trim).foldl addParam []).map entryText = field.2 := by
    decide +kernel
  obtain ⟨trimmed, name, parts, colon, named, version, back⟩ := all field listed
  refine ⟨_, (fromLine_eq trimmed name parts colon value).trans (if_neg named), ?_, ?_⟩
  · exact decide_eq_false version
  · rw [toLine_eq, back]

section cards
variable (host : ModHost) (vc : ContactCards.VC)

/-- The lines between the version and the properties. -/
def midLines : List Text := (headLines host vc).drop 2

theorem vcardLines_eq : vcardLines host vc = lit "BEGIN:VCARD" :: lit "VERSION:4.0" ::
    (midLines host vc ++ vc.props.map (propText (vc.user = vc.owner))) := rfl

theorem mem_midLines {line : Text} (listed : line ∈ midLines host vc) :
    ∃ field ∈ headFields, utf8 (field.1 ++ semis field.2 ++ [':']) <+: line := by
  have fields : ∀ i (inside : i < headFields.length), headFields[i] ∈ headFields :=
    fun i inside => List.getElem_mem inside
  simp only [midLines, headLines, List.cons_append, List.drop_succ_cons, List.drop_zero,
    List.nil_append, List.mem_append] at listed
  rcases listed with listed | listed | listed | listed
  · split at listed
    · rcases List.mem_cons.mp listed with rfl | listed
      · exact ⟨_, fields 0 (by decide), List.prefix_append _ _⟩
      · rw [List.mem_singleton.mp listed]
        exact ⟨_, fields 1 (by decide), List.prefix_append _ _⟩
    · cases listed
  · split at listed
    · rw [List.mem_singleton.mp listed]
      exact ⟨_, fields 2 (by decide), List.prefix_append _ _⟩
    · cases listed
  · split at listed
    · rw [List.mem_singleton.mp listed]
      exact ⟨_, fields 3 (by decide), List.prefix_append _ _⟩
    · cases listed
  · split at listed
    · rw [List.mem_singleton.mp listed]
      exact ⟨_, fields 4 (by decide), List.prefix_append _ _⟩
    · cases listed

theorem line_of_mid {line : Str} (listed : utf8 line ∈ midLines host vc) :
    ∃ q, fromLine line = some q ∧ isVersion q = false ∧ q.toLine = line := by
  obtain ⟨field, mem, value, text⟩ := mem_midLines host vc listed
  have ascii : ∀ field ∈ headFields, AllAscii (field.1 ++ semis field.2 ++ [':']) := by
    decide +kernel
  obtain ⟨rest, rfl, -⟩ := utf8_prefix _ (ascii field mem) text.symm
  have split_ : field.1 ++ semis field.2 ++ [':'] ++ rest =
      field.1 ++ semis field.2 ++ ':' :: rest := by simp
  rw [split_]
  exact line_of_field mem rest

end cards

/-! ## Lines and texts -/

/-- A text that ends its lines is one of lines on the page. -/
theorem utf8_joined {lines : List Text} {last : Text} {s : Str}
    (text : utf8 s = joinLines lines last) :
    ∃ ls rest, s = joined marks ls rest ∧ ls.map utf8 = lines ∧ utf8 rest = last := by
  induction lines generalizing s with
  | nil => exact ⟨[], s, rfl, rfl, text⟩
  | cons line lines ih =>
    rw [joinLines_cons] at text
    obtain ⟨l, more, rfl, rfl, ended⟩ := utf8_cut line (c := '\r') (by decide) text
    obtain ⟨next, rfl, behind⟩ := utf8_prefix ['\n'] (by decide) ended
    obtain ⟨ls, rest, rfl, rfl, rfl⟩ := ih behind
    exact ⟨l :: ls, rest, (joined_cons (m := marks) l ls rest).symm, rfl, rfl⟩

theorem joinLines_utf8 (ls : List Str) (last : Str) :
    utf8 (joined marks ls last) = joinLines (ls.map utf8) (utf8 last) := by
  induction ls with
  | nil => rfl
  | cons l ls ih =>
    rw [joined_cons, utf8_append, utf8_cons_ascii (by decide), utf8_cons_ascii (by decide), ih,
      List.map_cons, joinLines_cons]
    rfl

theorem first_of_trimmed {s : Str} (trimmed : FrontendCards.trim s = s) {c : Char}
    (first : s.head? = some c) : FrontendCards.isSpace c = false := by
  cases s with
  | nil => cases first
  | cons d s =>
    obtain rfl := Option.some.inj first
    by_contra blank
    rw [Bool.not_eq_false] at blank
    have short : (FrontendCards.trim (d :: s)).length ≤ s.length := by
      rw [FrontendCards.trim, List.dropWhile_cons_of_pos blank]
      exact ((List.rdropWhile_prefix _ _).isInfix.trans (List.dropWhile_suffix _).isInfix).length_le
    rw [trimmed, List.length_cons] at short
    omega

/-- A card whose columns are texts that the page takes as they are. -/
structure ShownCard (served : CardHost) (vc : ContactCards.VC) (ps : List SpelledProp) : Prop where
  editable : EditableCard vc
  plain : PlainCard vc
  spelled : vc.props = ps.map column
  shown : ∀ p ∈ ps, Shown p

section saves
variable {served : CardHost} {vc : ContactCards.VC} {ps : List SpelledProp}

theorem ShownCard.prop (card : ShownCard served vc ps) {p : SpelledProp} (listed : p ∈ ps) :
    EditableProp p.column ∧ PlainProp p.column := by
  have stored : p.column ∈ vc.props := by
    rw [card.spelled]
    exact List.mem_map_of_mem listed
  exact ⟨card.editable.props _ stored, card.plain.props _ stored⟩

theorem ShownCard.cases_line (card : ShownCard served vc ps) {line : Text}
    (listed : line ∈ vcardLines served.host vc) : line = lit "BEGIN:VCARD" ∨
      line = lit "VERSION:4.0" ∨ line ∈ midLines served.host vc ∨
      ∃ p ∈ ps, line = propText (vc.user = vc.owner) p.column := by
  rw [vcardLines_eq, List.mem_cons, List.mem_cons, List.mem_append, card.spelled, List.map_map,
    List.mem_map] at listed
  rcases listed with listed | listed | listed | ⟨p, mem, rfl⟩
  · exact Or.inl listed
  · exact Or.inr (Or.inl listed)
  · exact Or.inr (Or.inr (Or.inl listed))
  · exact Or.inr (Or.inr (Or.inr ⟨p, mem, rfl⟩))

/-- The lines of a card are lines for the page as well. -/
theorem ShownCard.line (card : ShownCard served vc ps) {l : Str}
    (listed : utf8 l ∈ vcardLines served.host vc) : Line marks l := by
  have unbroken := (isLine_vcardLines served card.editable card.plain _ listed).plain
  constructor
  · intro c mem
    constructor
    · rintro rfl
      exact (unbroken 13 ((mem_utf8_iff (c := '\r') (by decide)).mpr mem)).1 rfl
    · rintro rfl
      exact (unbroken 10 ((mem_utf8_iff (c := '\n') (by decide)).mpr mem)).2 rfl
  · rcases card.cases_line listed with is_ | is_ | mid | ⟨p, mem, is_⟩
    · have text : utf8 l = utf8 "BEGIN:VCARD".toList := by rw [is_]; decide
      rw [utf8_injective text]
      decide
    · have text : utf8 l = utf8 "VERSION:4.0".toList := by rw [is_]; decide
      rw [utf8_injective text]
      decide
    · obtain ⟨field, inside, value, text⟩ := mem_midLines _ _ mid
      have fields : ∀ field ∈ headFields, AllAscii (field.1 ++ semis field.2 ++ [':']) ∧
          starts marks (field.1 ++ semis field.2 ++ [':']) = true := by
        decide +kernel
      obtain ⟨ascii, solid⟩ := fields field inside
      obtain ⟨rest, rfl, -⟩ := utf8_prefix _ ascii text.symm
      exact starts_append solid rest
    · rw [propText_column (card.prop mem).1] at is_
      rw [utf8_injective is_]
      cases name : p.name with
      | nil =>
        cases paramStrs p.params ++ (addedEntries (vc.user = vc.owner) p).map entryText with
        | nil => rfl
        | cons part parts => rfl
      | cons c rest =>
        have solid := first_of_trimmed (card.shown p mem).name (c := c) (by rw [name]; rfl)
        simp [starts, marks, solid]

/-- The card that the page has of a card of the server, as the server would write it. -/
def returned (vc : ContactCards.VC) (ps : List SpelledProp) : ContactCards.VC :=
  { vc with props := ((ps.filter fun p => p.name ≠ vcard).map keep).map column }

theorem ShownCard.returned_plain (card : ShownCard served vc ps) :
    EditableCard (returned vc ps) ∧ PlainCard (returned vc ps) := by
  have props : ∀ q ∈ (returned vc ps).props, ∃ p ∈ ps, q = p.keep.column := by
    intro q listed
    obtain ⟨k, kept_, rfl⟩ := List.mem_map.mp listed
    obtain ⟨p, mem, rfl⟩ := List.mem_map.mp kept_
    exact ⟨p, (List.mem_filter.mp mem).1, rfl⟩
  refine ⟨⟨?_, ?_, card.editable.id, card.editable.user⟩, card.plain.valid, ?_, card.plain.time⟩
  · obtain ⟨q, stored, named⟩ := card.editable.named
    rw [card.spelled] at stored
    obtain ⟨p, listed, rfl⟩ := List.mem_map.mp stored
    have other : p.name ≠ vcard := by
      intro is_
      have column : p.column.name = utf8 vcard := congrArg utf8 is_
      rw [column] at named
      exact absurd named (by decide)
    exact ⟨p.keep.column, List.mem_map_of_mem (List.mem_map_of_mem
      (List.mem_filter.mpr ⟨listed, decide_eq_true other⟩)), named⟩
  · intro q listed
    obtain ⟨p, mem, rfl⟩ := props q listed
    exact editable_keep (card.prop mem).1 (card.shown p mem)
  · intro q listed
    obtain ⟨p, mem, rfl⟩ := props q listed
    exact plain_keep (card.prop mem).2 (card.shown p mem)

/-- What the page reads of the lines behind the version. -/
theorem ShownCard.filterMap_rest (card : ShownCard served vc ps) {rest : List Str}
    (lines : rest.map utf8 = midLines served.host vc ++
      vc.props.map (propText (vc.user = vc.owner))) :
    (∀ q ∈ rest.filterMap fromLine, isVersion q = false) ∧
      (rest.filterMap fromLine).map (fun q => utf8 q.toLine) = midLines served.host vc ++
        (returned vc ps).props.map (propText (vc.user = vc.owner)) := by
  obtain ⟨mids, props, rfl, mids_, props_⟩ := List.map_eq_append_iff.mp lines
  have first : (∀ q ∈ mids.filterMap fromLine, isVersion q = false) ∧
      (mids.filterMap fromLine).map (fun q => utf8 q.toLine) = mids.map utf8 := by
    have each : ∀ l ∈ mids, ∃ q, fromLine l = some q ∧ isVersion q = false ∧ q.toLine = l := by
      intro l listed
      refine line_of_mid served.host vc ?_
      rw [← mids_]
      exact List.mem_map_of_mem listed
    clear mids_ lines
    induction mids with
    | nil => exact ⟨by simp, rfl⟩
    | cons l mids ih =>
      obtain ⟨⟨q, read, version, back⟩, each⟩ := List.forall_mem_cons.mp each
      obtain ⟨versions, texts⟩ := ih each
      rw [List.filterMap_cons_some read, List.forall_mem_cons, List.map_cons, List.map_cons, texts,
        back]
      exact ⟨⟨version, versions⟩, rfl⟩
  have second : (∀ q ∈ props.filterMap fromLine, isVersion q = false) ∧
      (props.filterMap fromLine).map (fun q => utf8 q.toLine) =
        (returned vc ps).props.map (propText (vc.user = vc.owner)) := by
    have each : ∀ p ∈ ps, (EditableProp p.column ∧ PlainProp p.column) ∧ Shown p :=
      fun p listed => ⟨card.prop listed, card.shown p listed⟩
    rw [card.spelled, List.map_map] at props_
    simp only [returned]
    clear lines first mids_ card
    induction ps generalizing props with
    | nil =>
      rw [List.map_nil, List.map_eq_nil_iff] at props_
      rw [props_]
      exact ⟨by simp, rfl⟩
    | cons p ps ih =>
      obtain ⟨⟨⟨editable, plain⟩, shown⟩, each⟩ := List.forall_mem_cons.mp each
      obtain ⟨l, props, rfl, text, props_⟩ := List.map_eq_cons_iff.mp props_
      obtain ⟨versions, texts⟩ := ih props props_ each
      obtain ⟨dropped, back⟩ := line_of_property editable plain shown _ text
      by_cases is_ : p.name = vcard
      · rw [List.filterMap_cons_none (dropped is_), List.filter_cons_of_neg (by simpa using is_)]
        exact ⟨versions, texts⟩
      · obtain ⟨q, read, version, back⟩ := back is_
        rw [List.filterMap_cons_some read, List.filter_cons_of_pos (by simpa using is_),
          List.forall_mem_cons, List.map_cons, List.map_cons, List.map_cons, List.map_cons, texts,
          back]
        exact ⟨⟨version, versions⟩, rfl⟩
  rw [List.filterMap_append, List.forall_mem_append, List.map_append, first.2, second.2, mids_]
  exact ⟨⟨first.1, second.1⟩, rfl⟩

end saves

/-! ## What the page writes -/

theorem intercalate_joined (l : Str) (ls : List Str) (last : Str) :
    List.intercalate "\r\n".toList (l :: ls) ++ ("\r\n".toList ++ last) =
      joined marks (l :: ls) last := by
  induction ls generalizing l with
  | nil => simp [joined, List.intercalate, marks]
  | cons next ls ih =>
    rw [List.intercalate_cons_cons, joined_cons, ← ih]
    simp [marks]

/-- The line of a property behind the version. -/
def lineOf (p : VCProperty) : Str := if isVersion p then [] else p.toLine

theorem vCardString_eq {ps : List VCProperty} (some_ : ps ≠ []) {version : Str}
    (version_ : ((ps.find? isVersion).map toLine).getD "VERSION:4.0".toList = version) :
    vCardString ⟨ps⟩ = joined marks ("BEGIN:VCARD".toList :: version :: ps.map lineOf)
      "END:VCARD".toList := by
  obtain ⟨p, ps, rfl⟩ := List.exists_cons_of_ne_nil some_
  have begin_ : "BEGIN:VCARD\r\n".toList = "BEGIN:VCARD".toList ++ [marks.cr, marks.lf] := by decide
  have crlf_ : "\r\n".toList = [marks.cr, marks.lf] := by decide
  have end_ : "\r\nEND:VCARD".toList = "\r\n".toList ++ "END:VCARD".toList := by decide
  have body := intercalate_joined (lineOf p) (ps.map lineOf) "END:VCARD".toList
  have text : vCardString ⟨p :: ps⟩ = "BEGIN:VCARD\r\n".toList ++ (version ++ ("\r\n".toList ++
      (List.intercalate "\r\n".toList (lineOf p :: ps.map lineOf) ++
        "\r\nEND:VCARD".toList))) := by
    unfold vCardString
    simp only [version_]
    rfl
  rw [end_, body, crlf_, begin_] at text
  refine text.trans ?_
  simp only [List.map_cons, joined_cons, List.append_assoc, List.cons_append, List.nil_append]

/-- The server does not see empty lines. -/
theorem unfoldLines_gaps {lines : List Text}
    (are : ∀ l ∈ lines, newline ∉ l ∧ (l = [] ∨ startsLine l = true)) :
    unfoldLines (crlf ++ joinLines lines (lit "END:VCARD")) =
      crlf ++ joinLines (lines.filter (· ≠ [])) (lit "END:VCARD") := by
  induction lines with
  | nil => decide
  | cons l lines ih =>
    obtain ⟨⟨plain, starts_⟩, are⟩ := List.forall_mem_cons.mp are
    rw [joinLines_cons]
    by_cases empty : l = []
    · have return_ : ∀ t : Text, unfoldLines (crlf ++ t) = 13 :: unfoldLines (newline :: t) :=
        fun t => unfoldLines_cons (by decide) _
      have again : newline :: (crlf ++ joinLines lines (lit "END:VCARD")) =
          newline :: 13 :: newline :: joinLines lines (lit "END:VCARD") := rfl
      rw [empty, List.nil_append, return_, again, unfoldLines_blank (by decide), ← return_, ih are,
        List.filter_cons_of_neg (by simp)]
    · rw [unfoldLines_crlf (startsLine_append (starts_.resolve_left empty) _),
        unfoldLines_append plain, ih are, List.filter_cons_of_pos (by simp [empty]), joinLines_cons]

/-- What is read of a text with empty lines. -/
theorem readVcard_gaps (host : ModHost) (card : ContactCards.VC) {lines : List Text}
    (are : ∀ l ∈ lines, newline ∉ l ∧ (l = [] ∨ startsLine l = true)) :
    readVcard host card (joinLines (lit "BEGIN:VCARD" :: lines) (lit "END:VCARD")) =
      readLines host card (ContactCards.VC.cardLines
        (joinLines (lit "BEGIN:VCARD" :: lines.filter (· ≠ [])) (lit "END:VCARD"))) := by
  have starts_ :
      lit "BEGIN:VCARD" <+: joinLines (lit "BEGIN:VCARD" :: lines) (lit "END:VCARD") := by
    rw [joinLines_cons]
    exact List.prefix_append _ _
  simp only [readVcard, trim_joinLines, if_pos starts_]
  rw [joinLines_cons, unfoldLines_append (by decide), unfoldLines_gaps are, ← joinLines_cons]

def withOwner (owner : Text) (card : ContactCards.VC) : ContactCards.VC := { card with owner }

/-- Lines do not look at the owner. -/
theorem readLine_withOwner (host : ModHost) (owner : Text) (card : ContactCards.VC) (line : Text) :
    readLine host (withOwner owner card) line =
      (readLine host card line).map (withOwner owner) := by
  unfold readLine ContactCards.VC.parseLine
  cases cut 58 line with
  | none => rfl
  | some parts =>
    obtain ⟨field, value⟩ := parts
    simp only
    split_ifs
    · rfl
    · rfl
    · rfl
    · rfl
    · rfl
    · split
      · rfl
      · rfl

theorem readLines_withOwner (host : ModHost) (owner : Text) (lines : List Text) :
    ∀ card, readLines host (withOwner owner card) lines =
      ((readLines host card lines).1, withOwner owner (readLines host card lines).2) := by
  induction lines with
  | nil => exact fun _ => rfl
  | cons line lines ih =>
    intro card
    rw [readLines, readLines, readLine_withOwner]
    cases readLine host card line with
    | none => rfl
    | some next => exact ih next

/-- The card that is posted, by what is read of the body. -/
theorem posted_eq (host : ModHost) (requester body : Text) :
    ContactsMod.posted host requester body =
      withOwner requester (withTime 0 (readVcard host {} body).2) := by
  have read : (readVcard host { owner := requester } body).2 =
      withOwner requester (readVcard host {} body).2 := by
    simp only [readVcard]
    split
    · exact congrArg Prod.snd (readLines_withOwner host requester _ {})
    · rfl
  rw [ContactsMod.posted, parse_eq_readVcard, read]
  rfl

section saves
variable {served : CardHost} {vc : ContactCards.VC} {ps : List SpelledProp}

/-- What the server reads of a card that is saved as it was shown. -/
def savedFrom (host : ModHost) (vc : ContactCards.VC) (ps : List SpelledProp) : ContactCards.VC :=
  { returned vc ps with
    user := if vc.user = [] then [] else userOf host (userStr host vc), updateTs := 0 }

/-- The lines of a card are read by the page, and what it writes of them is posted. -/
theorem ShownCard.posted (card : ShownCard served vc ps) {ls : List Str}
    (lines : ls.map utf8 = vcardLines served.host vc) :
    ContactsMod.posted served.host vc.owner (utf8 (vCardString ⟨ls.filterMap fromLine⟩)) =
      savedFrom served.host vc ps := by
  rw [vcardLines_eq] at lines
  obtain ⟨begin_, more, rfl, begins, behind⟩ := List.map_eq_cons_iff.mp lines
  obtain ⟨version, rest, rfl, version_, properties⟩ := List.map_eq_cons_iff.mp behind
  obtain rfl : begin_ = "BEGIN:VCARD".toList := utf8_injective (begins.trans (by decide))
  obtain rfl : version = "VERSION:4.0".toList := utf8_injective (version_.trans (by decide))
  obtain ⟨others, texts⟩ := card.filterMap_rest properties
  have first : fromLine "BEGIN:VCARD".toList = none := by decide
  have second : fromLine "VERSION:4.0".toList = some ⟨"VERSION".toList, [], "4.0".toList⟩ := by
    decide
  obtain ⟨editable, plain⟩ := card.returned_plain
  obtain ⟨text, written, read⟩ := readVcard_writeVcard served editable plain
  have text_ : text = joinLines (lit "BEGIN:VCARD" :: (vcardLines served.host
      (returned vc ps)).tail) (lit "END:VCARD") := by
    have whole := toVcard_eq served.host (returned vc ps) plain.valid editable.named
    rw [writeVcard] at written
    split at written
    · cases written
    · exact (Option.some.inj written).symm.trans whole
  have solid : ∀ l ∈ (vcardLines served.host (returned vc ps)).tail,
      newline ∉ l ∧ (l = [] ∨ startsLine l = true) := by
    intro l mem
    have line := isLine_vcardLines served editable plain l (List.mem_of_mem_tail mem)
    exact ⟨fun feed => (line.plain _ feed).2 rfl, Or.inr line.starts⟩
  -- the page puts an empty line in front of the others
  have lines_ : (rest.filterMap fromLine).map lineOf = (rest.filterMap fromLine).map toLine := by
    refine List.map_congr_left fun q mem => if_neg ?_
    rw [others q mem]
    exact Bool.false_ne_true
  have tail_ : (vcardLines served.host (returned vc ps)).tail = lit "VERSION:4.0" ::
      ((rest.filterMap fromLine).map toLine).map utf8 := by
    rw [List.map_map]
    exact congrArg (lit "VERSION:4.0" :: ·) texts.symm
  have body : utf8 (vCardString ⟨("BEGIN:VCARD".toList :: "VERSION:4.0".toList :: rest).filterMap
      fromLine⟩) = joinLines (lit "BEGIN:VCARD" :: lit "VERSION:4.0" :: [] ::
        ((rest.filterMap fromLine).map toLine).map utf8) (lit "END:VCARD") := by
    have heads : utf8 "BEGIN:VCARD".toList = lit "BEGIN:VCARD" ∧
        utf8 "VERSION:4.0".toList = lit "VERSION:4.0" ∧
        utf8 "END:VCARD".toList = lit "END:VCARD" := by decide
    have version_ : ((List.find? isVersion (⟨"VERSION".toList, [], "4.0".toList⟩ ::
        rest.filterMap fromLine)).map toLine).getD "VERSION:4.0".toList = "VERSION:4.0".toList := by
      rw [List.find?_cons_of_pos (by decide)]
      decide
    rw [List.filterMap_cons_none first, List.filterMap_cons_some second,
      vCardString_eq (List.cons_ne_nil _ _) version_, joinLines_utf8, List.map_cons, List.map_cons, List.map_cons, lines_, heads.1, heads.2.1,
      heads.2.2]
    rfl
  rw [posted_eq, body, readVcard_gaps, List.filter_cons_of_pos (by decide),
    List.filter_cons_of_neg (by decide)]
  · rw [text_, readVcard_gaps served.host {} solid, tail_, List.filter_cons_of_pos (by decide)] at read
    rw [read]
    rfl
  · rw [tail_, List.forall_mem_cons] at solid
    rw [List.forall_mem_cons, List.forall_mem_cons]
    exact ⟨solid.1, ⟨by decide, Or.inl rfl⟩, solid.2⟩

end saves

end FrontendSaves
