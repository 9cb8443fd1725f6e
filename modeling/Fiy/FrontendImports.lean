import Fiy.FrontendSaves

/-!
# Files that are imported on the page

The cards of a file are converted before they are posted one by one. A card without an id is a
new one for the server, so what matters is that no line of what is posted gives it one, whatever
is in the file. The lines of the page and those of the server are not the same: a return goes on
with a blank of the page that the server does not take for one.
-/

namespace FrontendImports

open ByteStrings WebText ModLibrary EncodedTexts ContentLines CardTexts FrontendCards FrontendSaves
open RowTables ContactsStore ContactsMod
open ContactCards.VC (crlf cardLines startsLine)
open FrontendCards.VCProperty FrontendCards.VC

/-! ## `convertInternal` -/

def removedNames : List Str :=
  ["AGENT", "CLASS", "MAILER", "PROFILE", "SORT-STRING", "CLIENTPIDMAP", "UID"].map String.toList

/-- The table of properties, with what every object has. -/
def knownNames : List Str :=
  ["ADR", "AGENT", "ANNIVERSARY", "BDAY", "CALURI", "CATEGORIES", "CLASS", "CLIENTPIDMAP", "EMAIL",
    "FBURL", "FN", "GENDER", "GEO", "IMPP", "KEY", "KIND", "LABEL", "LANG", "LOGO", "MAILER",
    "MEMBER", "N", "NICKNAME", "NOTE", "ORG", "PHOTO", "PRODID", "PROFILE", "RELATED", "REV",
    "ROLE", "SORT-STRING", "SOURCE", "SOUND", "TEL", "TITLE", "TZ", "UID", "URL", "VERSION",
    "X-SOCIALPROFILE", "X-FIY-PROFILE", "constructor", "__defineGetter__", "__defineSetter__",
    "hasOwnProperty", "__lookupGetter__", "__lookupSetter__", "isPrototypeOf",
    "propertyIsEnumerable", "toString", "valueOf", "__proto__", "toLocaleString"].map String.toList

def imageTypes : List Str := ["png", "gif", "jpeg", "webp", "bmp", "x-icon"].map String.toList

/-- A parameter that is there and not empty. -/
def param (entries : Entries) (k : String) : Option Str :=
  ((entries.find? fun e => e.1 = k.toList).map Prod.snd).filter (· ≠ [])

/-- The type of an image: a key that names one comes first. -/
def imageType (entries : Entries) : Str :=
  (((entries.map Prod.fst).find? fun k => k.map Char.toLower ∈ imageTypes).or
    ((param entries "TYPE").or (param entries "type"))).getD []

/-- An image as its own address; one in another encoding is left out. -/
def convertImage (p : VCProperty) : Option VCProperty :=
  if p.name ≠ "PHOTO".toList ∧ p.name ≠ "LOGO".toList then some p
  else match (param p.params "ENCODING").or (param p.params "encoding") with
    | none => some p
    | some encoding =>
      if encoding ≠ "b".toList then none
      else
        let type := imageType p.params
        let params := p.params.filter fun e =>
          e.1 ≠ "encoding".toList ∧ e.1 ≠ "ENCODING".toList ∧ (type = [] ∨ e.1 ≠ type)
        if "data:image/".toList <+: p.value then some { p with params }
        else if "http".toList <+: p.value ∧ type ≠ [] then some { p with params }
        else some { p with
          params, value := "data:image/".toList ++ (type ++ (";base64,".toList ++ p.value)) }

def convertLabel (p : VCProperty) : VCProperty :=
  if p.name = "LABEL".toList then
    let type := match param p.params "TYPE" with
      | some type => type ++ ",LABEL".toList
      | none => "LABEL".toList
    { p with name := "ADR".toList, params := setParam p.params "TYPE".toList type }
  else p

/-- The first version is the new one. -/
def setVersion : List VCProperty → List VCProperty
  | [] => []
  | p :: ps => if isVersion p then { p with value := "4.0".toList } :: ps else p :: setVersion ps

def convertInternal (c : VC) : VC :=
  let properties := c.properties.filter fun p => p.name ∉ removedNames
  let properties := (properties.filterMap convertImage).map convertLabel
  let properties := if properties.any isVersion then setVersion properties
    else ⟨"VERSION".toList, [], "4.0".toList⟩ :: properties
  ⟨properties.filter fun p => p.name ∈ knownNames⟩

example : ((parseCards ("BEGIN:VCARD\nVERSION:2.1\nUID:7\nLABEL;TYPE=home:x\nPHOTO;ENCODING=b;" ++
    "TYPE=png:aGk=\nX-OTHER:1\nEND:VCARD").toList).map convertInternal).map vCardString =
      [("BEGIN:VCARD\r\nVERSION:4.0\r\n\r\nADR;TYPE=home,LABEL:x\r\nPHOTO;TYPE=png:" ++
        "data:image/png;base64,aGk=\r\nEND:VCARD").toList] := by
  decide +kernel

/-! ## Texts without line ends of the page -/

/-- Every return goes on with a blank of the page, or ends the text. -/
structure Tame (t : Str) : Prop where
  plain : '\n' ∉ t
  solid : ∀ a d b, t = a ++ '\r' :: d :: b → FrontendCards.isSpace d = true

/-- Something can stand behind it. -/
def Steady (t : Str) : Prop := Tame t ∧ t.getLast? ≠ some '\r'

theorem Tame.within {s t : Str} (tame : Tame t) (inside : s <:+: t) : Tame s := by
  obtain ⟨front, back, rfl⟩ := inside
  refine ⟨fun mem => tame.plain (by simp [mem]), ?_⟩
  rintro a d b rfl
  exact tame.solid (front ++ a) d (b ++ back) (by simp)

theorem Tame.nil : Tame [] := ⟨by simp, by simp⟩

theorem Steady.append {s t : Str} (steady : Steady s) (tame : Tame t) : Tame (s ++ t) := by
  refine ⟨?_, ?_⟩
  · rw [List.mem_append, not_or]
    exact ⟨steady.1.plain, tame.plain⟩
  · intro a d b text
    rcases List.append_eq_append_iff.mp text with ⟨more, rfl, behind⟩ | ⟨more, rfl, front⟩
    · exact tame.solid more d b behind
    · cases more with
      | nil => exact tame.solid [] d b front.symm
      | cons c more =>
        obtain ⟨rfl, behind⟩ := List.cons.inj front
        cases more with
        | nil => exact absurd List.getLast?_concat steady.2
        | cons c more =>
          obtain ⟨rfl, -⟩ := List.cons.inj behind
          exact steady.1.solid a _ more rfl

theorem Steady.append_steady {s t : Str} (steady : Steady s) (steady' : Steady t) :
    Steady (s ++ t) := by
  refine ⟨steady.append steady'.1, ?_⟩
  cases t with
  | nil =>
    rw [List.append_nil]
    exact steady.2
  | cons c t =>
    rw [List.getLast?_append_of_ne_nil _ (List.cons_ne_nil _ _)]
    exact steady'.2

/-- A text without returns and line feeds. -/
theorem steady_plain {t : Str} (plain : '\n' ∉ t ∧ '\r' ∉ t) : Steady t := by
  refine ⟨⟨plain.1, ?_⟩, fun last => plain.2 (List.mem_of_getLast? last)⟩
  rintro a d b rfl
  exact absurd (by simp) plain.2

/-- In front of something that is not blank. -/
theorem steady_of_next {s t : Str} {c : Char} (solid : FrontendCards.isSpace c = false)
    (inside : s ++ [c] <:+: t) (tame : Tame t) : Steady s := by
  have both := tame.within inside
  refine ⟨both.within (List.prefix_append _ _).isInfix, fun last => ?_⟩
  obtain ⟨front, rfl⟩ := List.getLast?_eq_some_iff.mp last
  have blank := both.solid front c [] (by simp)
  rw [solid] at blank
  cases blank

/-- Trimmed texts have no return at the end. -/
theorem steady_of_trimmed {s t : Str} (trimmed : s = FrontendCards.trim t) (tame : Tame s) :
    Steady s := by
  refine ⟨tame, fun last => ?_⟩
  have some_ : (t.dropWhile FrontendCards.isSpace).rdropWhile FrontendCards.isSpace ≠ [] := by
    intro empty
    rw [trimmed, FrontendCards.trim, empty] at last
    cases last
  have end_ := List.rdropWhile_last_not FrontendCards.isSpace _ some_
  rw [trimmed, FrontendCards.trim, List.getLast?_eq_some_getLast some_] at last
  rw [Option.some.inj last] at end_
  exact end_ rfl

/-- Every line feed that is left ends a line. -/
def Settled : Str → Prop
  | [] => True
  | c :: rest => (c = '\n' → starts marks rest = true) ∧ Settled rest

theorem settled_unfold (t : Str) (last : t.getLast? ≠ some '\n') :
    Settled (unfold marks t) := by
  fun_induction unfold marks t with
  | case1 => trivial
  | case2 c =>
    refine ⟨?_, trivial⟩
    rintro rfl
    exact absurd rfl last
  | case3 c next rest both ih =>
    cases rest with
    | nil => trivial
    | cons d rest => exact ih (by simpa using last)
  | case4 c next rest kept ih =>
    refine ⟨?_, ih (by simpa using last)⟩
    rintro rfl
    have solid : FrontendCards.isSpace next = false := by
      by_contra blank
      rw [Bool.not_eq_false] at blank
      exact kept ⟨rfl, blank⟩
    have other : next ≠ '\n' := by
      rintro rfl
      cases solid
    have first : (unfold marks (next :: rest)).head? = some next := by
      cases rest with
      | nil => rfl
      | cons d rest =>
        have kept' : ¬ (next = marks.lf ∧ marks.blank d = true) := fun h => other h.1
        rw [unfold, if_neg kept']
        rfl
    rw [starts, first]
    simp [marks, solid]

/-- The first piece begins as the text does, unless the text begins with the end of a line. -/
theorem split_head (t : Str) : ∃ piece pieces, split marks t = piece :: pieces ∧
    (piece = [] ∨ piece.head? = t.head?) := by
  fun_induction split marks t with
  | case1 => exact ⟨[], [], rfl, Or.inl rfl⟩
  | case2 c rest ends ih =>
    obtain ⟨rfl, next, solid⟩ := ends
    cases rest with
    | nil => cases next
    | cons d rest =>
      obtain rfl := Option.some.inj next
      have feed : ¬ (marks.lf = marks.cr ∧ rest.head? = some marks.lf ∧
          starts marks rest.tail = true) := fun h => absurd h.1 (by decide)
      rw [split_cons, if_neg feed, if_pos ⟨Or.inr rfl, solid⟩]
      exact ⟨[], _, rfl, Or.inl rfl⟩
  | case3 c rest _ _ _ => exact ⟨[], _, rfl, Or.inl rfl⟩
  | case4 c rest _ _ _ _ => exact ⟨[c], [], rfl, Or.inr rfl⟩
  | case5 c rest _ _ line lines _ _ => exact ⟨c :: line, lines, rfl, Or.inr rfl⟩

theorem tame_split (t : Str) (settled : Settled t) : ∀ piece ∈ split marks t, Tame piece := by
  fun_induction split marks t with
  | case1 => simp [Tame.nil]
  | case2 c rest ends ih => exact ih settled.2
  | case3 c rest _ ends ih =>
    rw [List.forall_mem_cons]
    exact ⟨Tame.nil, ih settled.2⟩
  | case4 c rest _ _ none_ ih =>
    obtain ⟨piece, pieces, some_, -⟩ := split_head rest
    rw [none_] at some_
    cases some_
  | case5 c rest within kept line lines split_ ih =>
    have tame := ih settled.2
    rw [split_, List.forall_mem_cons] at tame
    rw [List.forall_mem_cons]
    refine ⟨⟨?_, ?_⟩, tame.2⟩
    · intro mem
      rcases List.mem_cons.mp mem with is_ | mem
      · exact kept ⟨Or.inr is_.symm, settled.1 is_.symm⟩
      · exact tame.1.plain mem
    · intro a d b text
      cases a with
      | cons e a =>
        obtain ⟨-, text⟩ := List.cons.inj text
        exact tame.1.solid a d b text
      | nil =>
        -- a return that does not end the line
        obtain ⟨rfl, rfl⟩ := List.cons.inj text
        obtain ⟨piece, pieces, split', head⟩ := split_head rest
        rw [split_] at split'
        obtain ⟨rfl, -⟩ := List.cons.inj split'
        have first : rest.head? = some d := (head.resolve_left (List.cons_ne_nil _ _)).symm
        by_contra solid
        rw [Bool.not_eq_true] at solid
        refine kept ⟨Or.inl rfl, ?_⟩
        rw [starts, first]
        simp [marks, solid]

/-! ## Properties of a file -/

/-- A property whose line is one for the page. -/
structure Sound (p : VCProperty) : Prop where
  params : ∀ e ∈ p.params, Steady e.1 ∧ Steady e.2
  value : Tame p.value

theorem infix_intercalate {pieces : List Str} {piece sep : Str} (listed : piece ∈ pieces) :
    piece <:+: List.intercalate sep pieces := by
  induction pieces with
  | nil => cases listed
  | cons first pieces ih =>
    cases pieces with
    | nil =>
      rw [List.mem_singleton.mp listed]
      exact ⟨[], [], by simp [List.intercalate]⟩
    | cons next pieces =>
      rw [List.intercalate_cons_cons]
      rcases List.mem_cons.mp listed with rfl | listed
      · exact ⟨[], sep ++ List.intercalate sep (next :: pieces), by simp⟩
      · exact (ih listed).trans ⟨first ++ sep, [], by simp⟩

theorem sound_fromLine {line : Str} (tame : Tame line) {p : VCProperty}
    (read : fromLine line = some p) : Sound p := by
  obtain ⟨field, value, cut_, field_, value_⟩ : ∃ field value,
      (cut ':' line).getD (line.dropLast, line) = (field, value) ∧ field <:+: line ∧
        value <:+: line := by
    cases found : cut ':' line with
    | none => exact ⟨_, _, rfl, (List.dropLast_prefix line).isInfix, List.infix_refl _⟩
    | some parts =>
      obtain ⟨field, value⟩ := parts
      obtain ⟨rfl, -⟩ := cut_eq_some_iff.mp found
      exact ⟨field, value, rfl, (List.prefix_append _ _).isInfix, ⟨field ++ [':'], [], by simp⟩⟩
  have piece : ∀ part ∈ field.splitOn ';', Tame (FrontendCards.trim part) := by
    intro part listed
    have inside : part <:+: List.intercalate [';'] (field.splitOn ';') := infix_intercalate listed
    rw [List.intercalate_splitOn] at inside
    exact tame.within ((trim_inside part).trans (inside.trans field_))
  rw [fromLine, cut_] at read
  dsimp only at read
  split at read
  · cases read
  next key paramStrs parts =>
    split_ifs at read
    obtain rfl := Option.some.inj read
    refine ⟨?_, tame.within value_⟩
    intro e mem
    rcases mem_foldl_addParam mem with mem | ⟨entry, p, listed, spells⟩
    · cases mem
    · have listed' : p ∈ (field.splitOn ';').map FrontendCards.trim := by
        rw [parts]
        exact List.mem_cons_of_mem _ listed
      obtain ⟨part, mem, rfl⟩ := List.mem_map.mp listed'
      have tame_ := piece part mem
      have key_ : e.1 ++ ['='] <:+: FrontendCards.trim part :=
        List.IsInfix.trans ⟨[], e.2, by simp [entryText]⟩ spells.begins.isInfix
      refine ⟨steady_of_next (by decide) key_ tame_, ?_⟩
      rcases spells with is_ | more
      · -- the value ends the part
        have whole : Steady (FrontendCards.trim part) := steady_of_trimmed rfl tame_
        refine ⟨tame_.within ⟨e.1 ++ ['='], [], by rw [is_]; simp [entryText]⟩, ?_⟩
        intro last
        refine whole.2 ?_
        rw [is_, entryText, List.getLast?_append_of_ne_nil _ (List.cons_ne_nil _ _),
          List.getLast?_cons_of_ne_nil entry.value.1, last]
      · refine steady_of_next (c := '=') (by decide) ?_ tame_
        exact List.IsInfix.trans ⟨e.1 ++ ['='], [], by simp [entryText]⟩ more.isInfix

theorem sound_parseCard {s : Str} {c : VC} (read : parseCard s = some c) :
    ∀ p ∈ c.properties, Sound p := by
  unfold parseCard at read
  dsimp only at read
  split at read
  next begins =>
    obtain rfl := Option.some.inj read
    intro p mem
    obtain ⟨line, listed, from_⟩ := List.mem_filterMap.mp mem
    have last : (FrontendCards.trim s).getLast? ≠ some '\n' := by
      intro last
      have some_ : (s.dropWhile FrontendCards.isSpace).rdropWhile FrontendCards.isSpace ≠ [] := by
        intro empty
        rw [FrontendCards.trim, empty] at last
        cases last
      have end_ := List.rdropWhile_last_not FrontendCards.isSpace _ some_
      rw [FrontendCards.trim, List.getLast?_eq_some_getLast some_] at last
      rw [Option.some.inj last] at end_
      exact end_ rfl
    exact sound_fromLine (tame_split _ (settled_unfold _ last) line listed) from_
  · cases read

/-! ## What is posted -/

/-- A property that the server takes as a line of its own. -/
structure Posted (p : VCProperty) : Prop extends Sound p where
  known : p.name ∈ knownNames
  noId : p.name ≠ "UID".toList

theorem names_plain : ∀ name ∈ knownNames, ('\n' ∉ name ∧ '\r' ∉ name) ∧ ';' ∉ name ∧ ':' ∉ name ∧
    AllAscii name ∧ startsLine (utf8 name) = true ∧
    (name ≠ "UID".toList → utf8 name ≠ lit "UID") := by
  decide +kernel

theorem param_steady {p : VCProperty} (sound : Sound p) {k : String} {v : Str}
    (found : param p.params k = some v) : Steady v := by
  obtain ⟨found, -⟩ := Option.filter_eq_some_iff.mp found
  obtain ⟨e, mem, rfl⟩ := Option.map_eq_some_iff.mp found
  exact (sound.params e (List.mem_of_find?_eq_some mem)).2

theorem sound_convertImage {p q : VCProperty} (sound : Sound p) (kept_ : convertImage p = some q) :
    Sound q ∧ q.name = p.name := by
  have type : Steady (imageType p.params) := by
    unfold imageType
    cases found : (p.params.map Prod.fst).find? fun k => decide (k.map Char.toLower ∈ imageTypes) with
    | some k =>
      obtain ⟨e, mem, rfl⟩ := List.mem_map.mp (List.mem_of_find?_eq_some found)
      exact (sound.params e mem).1
    | none =>
      cases found' : (param p.params "TYPE").or (param p.params "type") with
      | none => exact ⟨Tame.nil, by simp⟩
      | some v =>
        rcases Option.or_eq_some_iff.mp found' with upper | ⟨-, lower⟩
        · exact param_steady sound upper
        · exact param_steady sound lower
  have params : ∀ keep : Str × Str → Bool, ∀ e ∈ p.params.filter keep, Steady e.1 ∧ Steady e.2 :=
    fun keep e mem => sound.params e (List.mem_filter.mp mem).1
  unfold convertImage at kept_
  split at kept_
  · obtain rfl := Option.some.inj kept_
    exact ⟨sound, rfl⟩
  · split at kept_
    · obtain rfl := Option.some.inj kept_
      exact ⟨sound, rfl⟩
    · split at kept_
      · cases kept_
      · dsimp only at kept_
        split_ifs at kept_
        · obtain rfl := Option.some.inj kept_
          exact ⟨⟨params _, sound.value⟩, rfl⟩
        · obtain rfl := Option.some.inj kept_
          exact ⟨⟨params _, sound.value⟩, rfl⟩
        · obtain rfl := Option.some.inj kept_
          refine ⟨⟨params _, ?_⟩, rfl⟩
          have front : Steady "data:image/".toList := steady_plain (by decide)
          have middle : Steady ";base64,".toList := steady_plain (by decide)
          exact front.append (type.append (middle.append sound.value))

theorem sound_convertLabel {p : VCProperty} (sound : Sound p) : Sound (convertLabel p) := by
  unfold convertLabel
  split
  · refine ⟨?_, sound.value⟩
    intro e mem
    dsimp only at mem
    rcases mem_setParam mem with mem | rfl
    · exact sound.params e mem
    · have key : Steady "TYPE".toList := steady_plain (by decide)
      refine ⟨key, ?_⟩
      dsimp only
      split
      next type found =>
        exact (param_steady sound found).append_steady (steady_plain (by decide))
      · exact steady_plain (by decide)
  · exact sound

theorem mem_setVersion {ps : List VCProperty} {q : VCProperty} (mem : q ∈ setVersion ps) :
    q ∈ ps ∨ isVersion q = true ∧ ∃ p ∈ ps, q = { p with value := "4.0".toList } := by
  induction ps with
  | nil => cases mem
  | cons p ps ih =>
    rw [setVersion] at mem
    split at mem
    next version =>
      rcases List.mem_cons.mp mem with rfl | mem
      · exact Or.inr ⟨version, p, List.mem_cons_self, rfl⟩
      · exact Or.inl (List.mem_cons_of_mem _ mem)
    · rcases List.mem_cons.mp mem with rfl | mem
      · exact Or.inl List.mem_cons_self
      · rcases ih mem with mem | ⟨version, p', mem, is_⟩
        · exact Or.inl (List.mem_cons_of_mem _ mem)
        · exact Or.inr ⟨version, p', List.mem_cons_of_mem _ mem, is_⟩

/-- Everything that is left of a file can be posted. -/
theorem posted_convertInternal {c : VC} (sound : ∀ p ∈ c.properties, Sound p) :
    ∀ p ∈ (convertInternal c).properties, Posted p := by
  have version : Sound ⟨"VERSION".toList, [], "4.0".toList⟩ :=
    ⟨by simp, (steady_plain (by decide)).1⟩
  have converted : ∀ p ∈ ((c.properties.filter fun p => p.name ∉ removedNames).filterMap
      convertImage).map convertLabel, Sound p ∧ p.name ≠ "UID".toList := by
    intro p mem
    obtain ⟨q, image, rfl⟩ := List.mem_map.mp mem
    obtain ⟨r, left_, kept_⟩ := List.mem_filterMap.mp image
    obtain ⟨inside, stays⟩ := List.mem_filter.mp left_
    obtain ⟨sound', name⟩ := sound_convertImage (sound r inside) kept_
    refine ⟨sound_convertLabel sound', ?_⟩
    unfold convertLabel
    split
    · exact (by decide : "ADR".toList ≠ "UID".toList)
    · rw [name]
      intro is_
      rw [is_] at stays
      exact absurd stays (by decide)
  intro p mem
  obtain ⟨mem, known⟩ := List.mem_filter.mp mem
  have all : Sound p ∧ p.name ≠ "UID".toList := by
    split at mem
    · rcases mem_setVersion mem with mem | ⟨version_, q, inside, rfl⟩
      · exact converted p mem
      · obtain ⟨sound', other⟩ := converted q inside
        exact ⟨⟨sound'.params, version.value⟩, other⟩
    · rcases List.mem_cons.mp mem with rfl | mem
      · exact ⟨version, by decide⟩
      · exact converted p mem
  exact ⟨all.1, of_decide_eq_true known, all.2⟩

/-! ## The lines of the server -/

/-- The lines behind the first one do not begin like a name. -/
theorem cardLines_tame (u : Text) (plain : newline ∉ u)
    (solid : ∀ a d b, u = a ++ 13 :: d :: b → ByteStrings.isSpace d = true ∨ 128 ≤ d.toNat) :
    ∃ first lines, cardLines u = first :: lines ∧ first <+: u ∧
      ∀ line ∈ lines, ∃ d rest, line = d :: rest ∧ 128 ≤ d.toNat := by
  induction u with
  | nil => exact ⟨[], [], rfl, List.prefix_refl _, by simp⟩
  | cons b rest ih =>
    obtain ⟨other, plain⟩ := List.ne_and_not_mem_of_not_mem_cons plain
    obtain ⟨first, lines, split_, front, high⟩ := ih plain fun a d b' text =>
      solid (b :: a) d b' (by rw [text]; rfl)
    have whole : ¬ (b = 13 ∧ rest.head? = some newline ∧ startsLine rest.tail = true) := by
      rintro ⟨-, next, -⟩
      exact plain (List.mem_of_head? next)
    rw [cardLines_cons, if_neg whole]
    split
    next ends =>
      obtain ⟨is_, starts_⟩ := ends
      obtain rfl : b = 13 := is_.resolve_right fun feed => other feed.symm
      refine ⟨[], cardLines rest, rfl, List.nil_prefix, ?_⟩
      rw [split_, List.forall_mem_cons]
      refine ⟨?_, high⟩
      cases rest with
      | nil => cases starts_
      | cons d rest =>
        have visible : ByteStrings.isSpace d = false := by simpa [startsLine] using starts_
        have high' : 128 ≤ d.toNat := by
          have next := solid [] d rest rfl
          rw [visible] at next
          exact next.resolve_left Bool.false_ne_true
        have low : d ≠ 13 ∧ d ≠ newline := by
          constructor
          · rintro rfl
            exact absurd high' (by decide)
          · rintro rfl
            exact absurd high' (by decide)
        rw [cardLines_cons, if_neg (fun h => low.1 h.1), if_neg (fun h => h.1.elim low.1 low.2)]
          at split_
        split at split_
        · obtain ⟨rfl, -⟩ := List.cons.inj split_
          exact ⟨d, [], rfl, high'⟩
        · obtain ⟨rfl, -⟩ := List.cons.inj split_
          exact ⟨d, _, rfl, high'⟩
    · rw [split_]
      exact ⟨b :: first, lines, rfl, List.cons_prefix_cons.mpr ⟨rfl, front⟩, high⟩

theorem tame_utf8 {t : Str} (tame : Tame t) : newline ∉ utf8 t ∧ ∀ a d b,
    utf8 t = a ++ 13 :: d :: b → ByteStrings.isSpace d = true ∨ 128 ≤ d.toNat := by
  refine ⟨fun mem => tame.plain ((mem_utf8_iff (c := '\n') (by decide)).mp mem), ?_⟩
  intro a d b text
  obtain ⟨s₁, s₂, rfl, -, rest⟩ := utf8_cut _ (c := '\r') (by decide) text
  cases s₂ with
  | nil => cases rest
  | cons c s₂ =>
    have blank := tame.solid s₁ c s₂ rfl
    by_cases ascii : Ascii c
    · rw [utf8_cons_ascii ascii] at rest
      obtain ⟨rfl, -⟩ := List.cons.inj rest
      left
      have code : c.toUInt8.toNat = c.toNat := toUInt8_toNat ascii
      have small : c.toNat < 128 := ascii
      simp only [FrontendCards.isSpace, Bool.or_eq_true, Bool.and_eq_true, decide_eq_true_eq] at blank
      have range : c.toNat = 32 ∨ 9 ≤ c.toNat ∧ c.toNat ≤ 13 := by omega
      simp only [ByteStrings.isSpace, Bool.or_eq_true, Bool.and_eq_true, decide_eq_true_eq,
        UInt8.le_iff_toNat_le, ← UInt8.toNat_inj, code]
      exact range
    · right
      have bytes : d ∈ String.utf8EncodeChar c := by
        rw [utf8_cons] at rest
        cases encoded : String.utf8EncodeChar c with
        | nil => exact absurd encoded String.utf8EncodeChar_ne_nil
        | cons e more =>
          rw [encoded] at rest
          obtain ⟨rfl, -⟩ := List.cons.inj rest
          exact List.mem_cons_self
      exact encode_other ascii bytes

theorem readLine_id {host : ModHost} {card next : ContactCards.VC} {line : Text}
    (read : readLine host card line = some next)
    (other : ∀ field value, cut 58 line = some (field, value) →
      field.takeWhile (· ≠ 59) ≠ lit "UID") : next.id = card.id := by
  unfold readLine at read
  cases found : cut 58 line with
  | none =>
    rw [found] at read
    cases read
  | some parts =>
    obtain ⟨field, value⟩ := parts
    rw [found] at read
    have noId := other field value found
    dsimp only at read
    split at read
    · obtain rfl := Option.some.inj read
      rfl
    · unfold ContactCards.VC.parseLine at read
      rw [found] at read
      dsimp only at read
      rw [if_neg noId] at read
      split_ifs at read
      · obtain rfl := Option.some.inj read
        rfl
      · obtain rfl := Option.some.inj read
        rfl
      · obtain rfl := Option.some.inj read
        rfl
      · split at read
        · obtain rfl := Option.some.inj read
          rfl
        · obtain rfl := Option.some.inj read
          rfl

/-- No name of these lines is the one of an id. -/
def NoId (line : Text) : Prop := ∀ field value, cut 58 line = some (field, value) →
  field.takeWhile (· ≠ 59) ≠ lit "UID"

theorem readLines_id (host : ModHost) (lines : List Text) (noId : ∀ line ∈ lines, NoId line) :
    ∀ card, (readLines host card lines).2.id = card.id := by
  induction lines with
  | nil => exact fun _ => rfl
  | cons line lines ih =>
    intro card
    obtain ⟨first, noId⟩ := List.forall_mem_cons.mp noId
    rw [readLines]
    cases read : readLine host card line with
    | none => rfl
    | some next =>
      dsimp only
      rw [ih noId next, readLine_id read first]

theorem noId_high {d : Byte} (high : 128 ≤ d.toNat) (rest : Text) : NoId (d :: rest) := by
  intro field value found is_
  obtain ⟨text, -⟩ := cut_eq_some_iff.mp found
  cases field with
  | nil =>
    obtain ⟨rfl, -⟩ := List.cons.inj text
    exact absurd high (by decide)
  | cons e field =>
    obtain ⟨rfl, -⟩ := List.cons.inj text
    have first := congrArg List.head? is_
    rw [List.takeWhile_cons] at first
    split at first
    · have same : d = 85 := Option.some.inj first
      rw [same] at high
      exact absurd high (by decide)
    · cases first

theorem noId_front {name first rest : Text} {x : Byte} (front : first <+: name ++ x :: rest)
    (plain : 58 ∉ name ∧ 59 ∉ name) (ends : x = 58 ∨ x = 59) (other : name ≠ lit "UID") :
    NoId first := by
  intro field value found
  obtain ⟨rfl, absent⟩ := cut_eq_some_iff.mp found
  have whole : (name.takeWhile (· ≠ 59)) = name := by
    rw [List.takeWhile_eq_self_iff]
    exact fun b mem => decide_eq_true (ne_of_mem_of_not_mem mem plain.2)
  have begins : field ++ [58] <+: name ++ x :: rest :=
    List.IsPrefix.trans ⟨value, by simp⟩ front
  have name_ : name ++ [x] <+: name ++ x :: rest := ⟨rest, by simp⟩
  have same (is_ : field ++ [58] = name ++ [x]) : field.takeWhile (· ≠ 59) ≠ lit "UID" := by
    rw [List.append_inj_left' is_ rfl, whole]
    exact other
  rcases List.prefix_or_prefix_of_prefix begins name_ with short | long
  · rcases List.prefix_concat_iff.mp short with is_ | within
    · exact same is_
    · exact absurd (within.subset (by simp)) plain.1
  · rcases List.prefix_concat_iff.mp long with is_ | ⟨more, rfl⟩
    · exact same is_.symm
    · rcases ends with rfl | rfl
      · exact absurd (by simp) absent
      · have all : ∀ b ∈ name, decide (b ≠ 59) = true := fun b mem =>
          decide_eq_true (ne_of_mem_of_not_mem mem plain.2)
        rw [List.append_assoc, List.takeWhile_append_of_pos all]
        simpa using other

theorem steady_semis {entries : Entries} (steady : ∀ e ∈ entries, Steady e.1 ∧ Steady e.2) :
    Steady (semis (entries.map entryText)) := by
  induction entries with
  | nil => exact ⟨Tame.nil, by simp [semis]⟩
  | cons e entries ih =>
    obtain ⟨⟨key, value⟩, steady⟩ := List.forall_mem_cons.mp steady
    have semicolon : Steady [';'] := steady_plain (by decide)
    have equals : Steady ['='] := steady_plain (by decide)
    have text : semis ((e :: entries).map entryText) =
        [';'] ++ (e.1 ++ (['='] ++ (e.2 ++ semis (entries.map entryText)))) := by
      simp [semis, entryText]
    rw [text]
    exact semicolon.append_steady (key.append_steady (equals.append_steady
      (value.append_steady (ih steady))))

/-- The line of a property that is posted, on the server. -/
theorem Posted.line {p : VCProperty} (posted : Posted p) :
    newline ∉ utf8 p.toLine ∧ startsLine (utf8 p.toLine) = true ∧
      ∀ line ∈ cardLines (utf8 p.toLine), NoId line := by
  obtain ⟨plain, semicolon, colon, -, starts_, other⟩ := names_plain p.name posted.known
  have tame : Tame p.toLine := by
    have mark : Steady [':'] := steady_plain (by decide)
    have text : p.toLine = p.name ++ (semis (p.params.map entryText) ++ ([':'] ++ p.value)) := by
      rw [toLine_eq]
      simp
    rw [text]
    exact (steady_plain plain).append ((steady_semis posted.params).append
      (mark.append posted.value))
  obtain ⟨x, rest, ends, text⟩ : ∃ x rest, (x = 58 ∨ x = 59) ∧
      utf8 p.toLine = utf8 p.name ++ x :: rest := by
    rw [toLine_eq]
    cases p.params with
    | nil =>
      refine ⟨58, utf8 p.value, Or.inl rfl, ?_⟩
      rw [List.map_nil, semis, List.flatMap_nil, List.append_nil, utf8_append,
        utf8_cons_ascii (by decide)]
      rfl
    | cons e entries =>
      refine ⟨59, utf8 (entryText e ++ semis (entries.map entryText)) ++ utf8 (':' :: p.value),
        Or.inr rfl, ?_⟩
      have cons : semis ((e :: entries).map entryText) =
          ';' :: (entryText e ++ semis (entries.map entryText)) := rfl
      rw [cons, utf8_append, utf8_append, utf8_cons_ascii (by decide), List.append_assoc]
      rfl
  obtain ⟨feeds, solid⟩ := tame_utf8 tame
  obtain ⟨first, lines, split_, front, high⟩ := cardLines_tame _ feeds solid
  refine ⟨feeds, ?_, ?_⟩
  · rw [text]
    exact startsLine_append starts_ _
  · rw [split_, List.forall_mem_cons]
    refine ⟨?_, ?_⟩
    · rw [text] at front
      exact noId_front front
        ⟨fun mem => colon ((mem_utf8_iff (c := ':') (by decide)).mp mem),
          fun mem => semicolon ((mem_utf8_iff (c := ';') (by decide)).mp mem)⟩ ends
        (other posted.noId)
    · intro line mem
      obtain ⟨d, rest, rfl, high'⟩ := high line mem
      exact noId_high high' rest

theorem cardLines_lines {lines : List Text}
    (are : ∀ l ∈ lines, newline ∉ l ∧ startsLine l = true) :
    cardLines (joinLines lines (lit "END:VCARD")) =
      lines.flatMap cardLines ++ [lit "END:VCARD"] := by
  induction lines with
  | nil => decide
  | cons l lines ih =>
    obtain ⟨⟨plain, -⟩, are⟩ := List.forall_mem_cons.mp are
    have starts_ : startsLine (joinLines lines (lit "END:VCARD")) = true := by
      cases lines with
      | nil => decide
      | cons next lines =>
        rw [joinLines_cons]
        exact startsLine_append (are next List.mem_cons_self).2 _
    rw [joinLines_cons, cardLines_crlf plain starts_, ih are, List.flatMap_cons, List.append_assoc]

theorem exists_version (c : VC) : ∃ q ∈ (convertInternal c).properties, isVersion q = true := by
  have known {q : VCProperty} (version : isVersion q = true) : q.name ∈ knownNames := by
    have name : q.name = "VERSION".toList := of_decide_eq_true version
    rw [name]
    decide
  have set_ (ps : List VCProperty) (some_ : ps.any isVersion = true) :
      ∃ q ∈ setVersion ps, isVersion q = true := by
    induction ps with
    | nil => cases some_
    | cons p ps ih =>
      rw [setVersion]
      split
      next version => exact ⟨_, List.mem_cons_self, version⟩
      next other =>
        rw [List.any_cons, Bool.or_eq_true] at some_
        obtain ⟨q, mem, version⟩ := ih (some_.resolve_left other)
        exact ⟨q, List.mem_cons_of_mem _ mem, version⟩
  unfold convertInternal
  dsimp only
  split
  next some_ =>
    obtain ⟨q, mem, version⟩ := set_ _ some_
    exact ⟨q, List.mem_filter.mpr ⟨mem, decide_eq_true (known version)⟩, version⟩
  · exact ⟨_, List.mem_filter.mpr ⟨List.mem_cons_self, by decide⟩, by decide⟩

/-- A card that is imported has no id for the server. -/
theorem imported_id (host : ModHost) (requester : Text) {file : Str} {c : VC}
    (listed : c ∈ parseCards file) :
    (posted host requester (utf8 (convertInternal c).vCardString)).id = -1 := by
  obtain ⟨piece, -, read⟩ := List.mem_filterMap.mp listed
  have all := posted_convertInternal (sound_parseCard read)
  obtain ⟨q, mem, version⟩ := exists_version c
  have some_ : (convertInternal c).properties ≠ [] := List.ne_nil_of_mem mem
  obtain ⟨v, found⟩ : ∃ v, (convertInternal c).properties.find? isVersion = some v :=
    Option.isSome_iff_exists.mp (List.find?_isSome.mpr ⟨q, mem, version⟩)
  have version_ : (((convertInternal c).properties.find? isVersion).map toLine).getD
      "VERSION:4.0".toList = v.toLine := by
    rw [found]
    rfl
  have lines : ∀ l ∈ (v.toLine :: (convertInternal c).properties.map lineOf).map utf8,
      l = [] ∨ newline ∉ l ∧ startsLine l = true ∧ ∀ line ∈ cardLines l, NoId line := by
    intro l mem
    rw [List.map_cons, List.mem_cons] at mem
    rcases mem with rfl | mem
    · exact Or.inr (all v (List.mem_of_find?_eq_some found)).line
    · obtain ⟨t, line, rfl⟩ := List.mem_map.mp mem
      obtain ⟨p, inside, rfl⟩ := List.mem_map.mp line
      unfold lineOf
      split
      · exact Or.inl rfl
      · exact Or.inr (all p inside).line
  have body : utf8 (convertInternal c).vCardString = joinLines (lit "BEGIN:VCARD" ::
      (v.toLine :: (convertInternal c).properties.map lineOf).map utf8) (lit "END:VCARD") := by
    have heads : utf8 "BEGIN:VCARD".toList = lit "BEGIN:VCARD" ∧
        utf8 "END:VCARD".toList = lit "END:VCARD" := by decide
    have text := vCardString_eq some_ version_
    have whole : (⟨(convertInternal c).properties⟩ : VC) = convertInternal c := rfl
    rw [whole] at text
    rw [text, joinLines_utf8, List.map_cons, heads.1, heads.2]
  have solid : ∀ l ∈ (v.toLine :: (convertInternal c).properties.map lineOf).map utf8,
      newline ∉ l ∧ (l = [] ∨ startsLine l = true) := by
    intro l mem
    rcases lines l mem with rfl | ⟨plain, starts_, -⟩
    · exact ⟨by simp, Or.inl rfl⟩
    · exact ⟨plain, Or.inr starts_⟩
  rw [posted_eq, body, readVcard_gaps host {} solid, cardLines_lines]
  · refine readLines_id host _ ?_ ({} : ContactCards.VC)
    rw [List.forall_mem_append, List.flatMap_cons, List.forall_mem_append]
    have ends : ∀ field : Text, 58 ∉ field ∧ 59 ∉ field → field ≠ lit "UID" →
        NoId (field ++ lit ":VCARD") := fun _ plain other =>
      noId_front (List.prefix_refl _) plain (Or.inl rfl) other
    have begin_ : cardLines (lit "BEGIN:VCARD") = [lit "BEGIN:VCARD"] := by decide
    refine ⟨⟨?_, ?_⟩, List.forall_mem_singleton.mpr (ends (lit "END") (by decide) (by decide))⟩
    · rw [begin_]
      exact List.forall_mem_singleton.mpr (ends (lit "BEGIN") (by decide) (by decide))
    · intro line mem
      obtain ⟨l, left_, inside⟩ := List.mem_flatMap.mp mem
      obtain ⟨listed, some_⟩ := List.mem_filter.mp left_
      rcases lines l listed with rfl | ⟨-, -, noId⟩
      · simp at some_
      · exact noId line inside
  · rw [List.forall_mem_cons]
    refine ⟨by decide, ?_⟩
    intro l mem
    obtain ⟨inside, some_⟩ := List.mem_filter.mp mem
    rcases lines l inside with rfl | ⟨plain, starts_, -⟩
    · simp at some_
    · exact ⟨plain, starts_⟩

/-! ## The database -/

/-- Nothing is changed or removed, and some cards of an owner are new. -/
structure Adds (owner : Text) (new : Nat) (s s' : Store) : Prop where
  cards : ∃ added, s'.cards.entries = s.cards.entries ++ added ∧ added.length = new ∧
    ∀ e ∈ added, e.2.owner = owner
  properties : s.properties.entries <+: s'.properties.entries
  cardProperties : s.cardProperties.entries <+: s'.cardProperties.entries
  profileCardProperties : s.profileCardProperties.entries <+: s'.profileCardProperties.entries

section database
variable {owner : Text} {s s' s'' : Store}

theorem Adds.refl (owner : Text) (s : Store) : Adds owner 0 s s :=
  ⟨⟨[], by simp, rfl, by simp⟩, List.prefix_refl _, List.prefix_refl _, List.prefix_refl _⟩

theorem Adds.trans {m n : Nat} (first : Adds owner m s s') (second : Adds owner n s' s'') :
    Adds owner (m + n) s s'' := by
  obtain ⟨more, cards, length, own⟩ := first.cards
  obtain ⟨more', cards', length', own'⟩ := second.cards
  refine ⟨⟨more ++ more', ?_, ?_, ?_⟩, first.properties.trans second.properties,
    first.cardProperties.trans second.cardProperties,
    first.profileCardProperties.trans second.profileCardProperties⟩
  · rw [cards', cards, List.append_assoc]
  · rw [List.length_append, length, length']
  · rw [List.forall_mem_append]
    exact ⟨own, own'⟩

theorem adds_insertProps (owner : Text) (profile : Bool) (cardId : Nat)
    (ps : List ContactCards.CardProp) : ∀ (s : Store) (h : cardId ≤ s.cards.sequence),
      Adds owner 0 s (Store.insertProps profile cardId ps s h).2 := by
  induction ps with
  | nil => exact fun s _ => Adds.refl owner s
  | cons p ps ih =>
    intro s h
    have one : Adds owner 0 s (s.insertProp profile cardId p h).2 := by
      cases profile
      · exact ⟨⟨[], by simp [Store.insertProp, Store.insertLink, Store.insertProperty], rfl, by simp⟩,
          List.prefix_append _ _, List.prefix_append _ _, List.prefix_refl _⟩
      · exact ⟨⟨[], by simp [Store.insertProp, Store.insertProfileLink, Store.insertProperty], rfl,
          by simp⟩, List.prefix_append _ _, List.prefix_refl _, List.prefix_append _ _⟩
    exact one.trans (ih _ _)

theorem adds_createNewContact (host : ModHost) (s : Store) (card : ContactCards.VC) :
    Adds card.owner 1 s (s.createNewContact host card).2.2 := by
  have row : Adds card.owner 1 s
      (s.insertCard ⟨card.owner, Store.userColumn card.user, host.now⟩) :=
    ⟨⟨[(s.cards.nextId, _)], rfl, rfl, by simp⟩, List.prefix_refl _, List.prefix_refl _,
      List.prefix_refl _⟩
  exact row.trans (adds_insertProps _ _ _ _ _ _)

end database

/-- The cards are posted one by one, in the order in which the server gets to them. -/
def importCards (host : ModHost) (requester : Text) (cs : List VC) (s : Store) : Store :=
  cs.foldl (fun s c => (save host s requester (utf8 (convertInternal c).vCardString)).2) s

/-- Importing a file, whatever it says and in whatever order its cards arrive, makes one new card
of the user for each card, and no row of the database is changed or removed. -/
theorem import_only_adds (host : ModHost) (requester : Text) (file : Str) (cs : List VC)
    (listed : ∀ c ∈ cs, c ∈ parseCards file) (s : Store) :
    Adds requester cs.length s (importCards host requester cs s) := by
  induction cs generalizing s with
  | nil => exact Adds.refl requester s
  | cons c cs ih =>
    obtain ⟨first, listed⟩ := List.forall_mem_cons.mp listed
    have one : Adds requester 1 s
        (save host s requester (utf8 (convertInternal c).vCardString)).2 := by
      have new : (posted host requester (utf8 (convertInternal c).vCardString)).id < 0 := by
        rw [imported_id host requester first]
        decide
      rw [save_store, Store.saveContact, if_pos new]
      have added := adds_createNewContact host s
        (posted host requester (utf8 (convertInternal c).vCardString))
      rwa [posted_owner] at added
    have rest := one.trans (ih listed _)
    rwa [Nat.add_comm] at rest

/-- A file that names a stored card and hides a line behind a return and a no-break space. -/
def trickyFile : Str :=
  "BEGIN:VCARD\nUID:1\nFN:Eve\nNOTE:a\r\u00a0b\r UID:1\nUID;X=1:1\nEND:VCARD".toList

theorem tricky_import : Adds "bob" 1
    (Store.empty.saveContact CardRoundTrip.demoHost.host { owner := "bob" }).2.2
    (importCards CardRoundTrip.demoHost.host "bob" (parseCards trickyFile)
      (Store.empty.saveContact CardRoundTrip.demoHost.host { owner := "bob" }).2.2) := by
  have one : (parseCards trickyFile).length = 1 := by decide +kernel
  have added := import_only_adds CardRoundTrip.demoHost.host "bob" trickyFile
    (parseCards trickyFile) (fun _ mem => mem)
    (Store.empty.saveContact CardRoundTrip.demoHost.host { owner := "bob" }).2.2
  rwa [one] at added

end FrontendImports
