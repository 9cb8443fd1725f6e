import Fiy.TextViews
import Fiy.UriComponents

/-!
# Cookie headers

`parse_cookies` over the pairs that `serialize_cookie` makes. A name has no equals sign and
neither names nor values have blanks or semicolons, so that only double quotes around a
value would be lost.
-/

namespace CookieHeaders

open ByteStrings KeyedTables WebText TextViews CheckedLoops UriComponents

/-! ## The loop -/

/-- What a pair adds: its first equals sign ends the name. -/
def addCookie (cookies : Table Text Text) (pair : Text) : Table Text Text :=
  match parseCookie pair with
  | none => cookies
  | some (key, val) => (emplace cookies key val).2

/-- The part of a turn that takes a pair apart. -/
def pairCookies (cookies : Table Text Text) (pair : Text) : Option (Table Text Text) :=
  match find pair 61 0 with
  | none => some cookies
  | some eq => do
    let key ← substr pair 0 (some eq)
    let val ← substr pair (eq + 1) none
    some (if trim key = [] then cookies else (emplace cookies (trim key) (unquote (trim val))).2)

/-- One turn of `parse_cookies`. -/
def cookieTurn (header : Text) :
    Nat × Table Text Text → Turn (Nat × Table Text Text) (Table Text Text)
  | (start, cookies) =>
    if start < header.length then
      let stop := find header 59 start
      .guard (substr header start (stop.map (· - start))) fun pair =>
        .guard (pairCookies cookies pair) fun cookies => match stop with
          | none => .leave cookies
          | some stop => .again (stop + 1, cookies)
    else .leave cookies

theorem pairCookies_eq (cookies : Table Text Text) (pair : Text) :
    pairCookies cookies pair = some (addCookie cookies pair) := by
  simp only [pairCookies, addCookie, parseCookie, find_start]
  cases hcut : cut 61 pair with
  | none => rfl
  | some parts =>
    obtain ⟨key, val⟩ := parts
    obtain ⟨rfl, _⟩ := cut_eq_some_iff.mp hcut
    have front : substr (key ++ 61 :: val) 0 (some key.length) = some key := substr_front key _
    have back : substr (key ++ 61 :: val) (key.length + 1) none = some val := by
      have rest := substr_rest (key ++ [61]) val
      simpa using rest
    simp only [Option.map_some, front, back, Option.bind_eq_bind, Option.bind_some]
    split <;> rfl

theorem cookies_ends_from (before rest : Text) (cookies : Table Text Text) :
    Ends (cookieTurn (before ++ rest)) (before.length, cookies)
      ((rest.splitOn 59).foldl addCookie cookies) := by
  induction hlen : rest.length using Nat.strongRecOn generalizing before rest cookies with
  | ind n ih =>
    by_cases empty : rest = []
    · subst empty
      apply Ends.of_leave
      simp [cookieTurn, addCookie, parseCookie, cut]
    · have inside : before.length < (before ++ rest).length := by
        have := List.length_pos_iff.mpr empty
        simp only [List.length_append]
        omega
      cases hcut : cut 59 rest with
      | none =>
        apply Ends.of_leave
        have absent := cut_eq_none_iff.mp hcut
        simp only [cookieTurn, if_pos inside, find_at, hcut, Option.map_none, substr_rest,
          Turn.guard_some, pairCookies_eq]
        rw [List.splitOn_eq_singleton absent]
        rfl
      | some parts =>
        obtain ⟨pair, after⟩ := parts
        obtain ⟨rfl, absent⟩ := cut_eq_some_iff.mp hcut
        have shorter : after.length < n := by
          rw [← hlen]
          simp
          omega
        have rest_ends := ih after.length shorter (before ++ pair ++ [59]) after
          (addCookie cookies pair) rfl
        have turn : cookieTurn (before ++ (pair ++ 59 :: after)) (before.length, cookies) =
            .again ((before ++ pair ++ [59]).length, addCookie cookies pair) := by
          have next : (before ++ pair ++ [59]).length = before.length + pair.length + 1 := by
            simp only [List.length_append, List.length_singleton]
          rw [next]
          simp only [cookieTurn, if_pos inside, find_at, hcut, Option.map_some,
            Nat.add_sub_cancel_left, substr_part, Turn.guard_some, pairCookies_eq]
        have text : before ++ (pair ++ 59 :: after) = before ++ pair ++ [59] ++ after := by simp
        rw [ends_of_again turn, List.splitOn_append_cons_self, List.splitOn_eq_singleton absent,
          text]
        exact rest_ends

/-- `parse_cookies`: on every header the loop ends, inside the header. -/
theorem cookies_ends (header : Text) : Ends (cookieTurn header) (0, ∅) (parseCookies header) :=
  cookies_ends_from [] header ∅

/-! ## Headers as they are sent -/

/-- A cookie that the two expressions accept, without double quotes around its value. -/
structure Cookie where
  name : Text
  value : Text
  isName : isCookieName name = true
  isValue : isCookieValue value = true
  bare : ∀ inner, value ≠ 34 :: (inner ++ [34])

namespace Cookie

def text (c : Cookie) : Text := c.name ++ 61 :: c.value

def pair (c : Cookie) : Text × Text := (c.name, c.value)

end Cookie

/-- `name=value; name=value` -/
def headerText (cookies : List Cookie) : Text := List.intercalate "; " (cookies.map Cookie.text)

theorem isBlank_of_visible {b : Byte} (visible : 33 ≤ b) : isBlank b = false := by
  have low : 33 ≤ b.toNat := UInt8.le_iff_toNat_le.mp visible
  simp only [isBlank, Bool.or_eq_false_iff, decide_eq_false_iff_not, ← UInt8.toNat_inj,
    UInt8.reduceToNat]
  omega

/-- A text without blanks is kept. -/
theorem trim_of_solid {t : Text} (solid : ∀ b ∈ t, isBlank b = false) : trim t = t := by
  have front : t.dropWhile isBlank = t := by
    cases t with
    | nil => rfl
    | cons b rest =>
      have first := solid b List.mem_cons_self
      rw [List.dropWhile_cons_of_neg (by simp [first])]
  rw [trim, front, List.rdropWhile_eq_self_iff]
  intro some_
  have last := solid _ (List.getLast_mem some_)
  simp [last]

theorem trim_cons_blank {t : Text} {b : Byte} (blank : isBlank b = true) :
    trim (b :: t) = trim t := by
  rw [trim, List.dropWhile_cons_of_pos blank, trim]

/-- A text that is not between double quotes is kept. -/
theorem unquote_of_bare {t : Text} (bare : ∀ inner, t ≠ 34 :: (inner ++ [34])) : unquote t = t := by
  rw [unquote, if_neg]
  rintro ⟨long, head, last⟩
  obtain ⟨rest, rfl⟩ := List.head?_eq_some_iff.mp head
  have some_ : rest ≠ [] := by
    rintro rfl
    simp at long
  have last_rest : rest.getLast? = some 34 := by
    rwa [List.getLast?_cons_of_ne_nil some_] at last
  obtain ⟨inner, rfl⟩ := List.getLast?_eq_some_iff.mp last_rest
  exact bare inner rfl

namespace Cookie
variable (c : Cookie)

theorem name_bytes : c.name ≠ [] ∧ ∀ b ∈ c.name, 33 ≤ b ∧ b ≠ 59 ∧ b ≠ 61 := by
  have accepted := c.isName
  simp only [isCookieName, Bool.and_eq_true, decide_eq_true_eq, List.all_eq_true] at accepted
  refine ⟨accepted.1, ?_⟩
  intro b mem
  obtain ⟨⟨⟨low, _⟩, semicolon⟩, equals⟩ := accepted.2 b mem
  exact ⟨low, semicolon, equals⟩

theorem value_bytes : ∀ b ∈ c.value, 33 ≤ b ∧ b ≠ 59 := by
  have accepted := c.isValue
  simp only [isCookieValue, Bool.and_eq_true, decide_eq_true_eq, List.all_eq_true] at accepted
  intro b mem
  obtain ⟨⟨low, _⟩, semicolon⟩ := accepted b mem
  exact ⟨low, semicolon⟩

theorem semicolon_notMem_text : (59 : Byte) ∉ c.text := by
  rw [text, List.mem_append, List.mem_cons]
  rintro (mem | equals | mem)
  · exact (c.name_bytes.2 _ mem).2.1 rfl
  · exact absurd equals (by decide)
  · exact (c.value_bytes _ mem).2 rfl

/-- A pair is read as it was written, with a blank before it or without. -/
theorem parseCookie_text : parseCookie c.text = some c.pair ∧
    parseCookie (32 :: c.text) = some c.pair := by
  have equals : (61 : Byte) ∉ c.name := fun mem => (c.name_bytes.2 _ mem).2.2 rfl
  have first : cut 61 c.text = some (c.name, c.value) := cut_append equals c.value
  have later : cut 61 (32 :: c.text) = some (32 :: c.name, c.value) := by
    have absent : (61 : Byte) ∉ 32 :: c.name := by
      rw [List.mem_cons, not_or]
      exact ⟨by decide, equals⟩
    exact cut_append absent c.value
  have name : trim c.name = c.name :=
    trim_of_solid fun b mem => isBlank_of_visible (c.name_bytes.2 b mem).1
  have value : unquote (trim c.value) = c.value := by
    rw [trim_of_solid fun b mem => isBlank_of_visible (c.value_bytes b mem).1,
      unquote_of_bare c.bare]
  have blank : trim (32 :: c.name) = c.name := by
    rw [trim_cons_blank (by decide), name]
  constructor
  · simp only [parseCookie, first, name, if_neg c.name_bytes.1, value]
    rfl
  · simp only [parseCookie, later, blank, if_neg c.name_bytes.1, value]
    rfl

theorem addCookie_text (cookies : Table Text Text) :
    addCookie cookies c.text = storeAll [c.pair] cookies ∧
    addCookie cookies (32 :: c.text) = storeAll [c.pair] cookies := by
  obtain ⟨first, later⟩ := c.parseCookie_text
  constructor
  · rw [addCookie, first]
    rfl
  · rw [addCookie, later]
    rfl

end Cookie

theorem headerText_cons_cons (c next : Cookie) (rest : List Cookie) :
    headerText (c :: next :: rest) = c.text ++ 59 :: 32 :: headerText (next :: rest) := by
  rw [headerText, List.map_cons, List.map_cons, List.intercalate_cons_cons, List.append_assoc]
  rfl

/-- The pieces of a header, each with a blank in front but the first. -/
theorem splitOn_headerText (c : Cookie) (rest : List Cookie) :
    (headerText (c :: rest)).splitOn 59 = c.text :: rest.map fun c => 32 :: c.text := by
  induction rest generalizing c with
  | nil =>
    rw [headerText, List.map_singleton, List.intercalate_singleton]
    exact List.splitOn_eq_singleton c.semicolon_notMem_text
  | cons next rest ih =>
    have blank : ((32 : Byte) == 59) = false := by decide
    rw [headerText_cons_cons, List.splitOn_append_cons_self,
      List.splitOn_eq_singleton c.semicolon_notMem_text, List.splitOn_cons_eq_if_modifyHead, blank,
      ih]
    rfl

theorem foldl_addCookie (cookies : List Cookie) (before : Table Text Text) :
    (cookies.map fun c => 32 :: c.text).foldl addCookie before =
      storeAll (cookies.map Cookie.pair) before := by
  induction cookies generalizing before with
  | nil => rfl
  | cons c rest ih =>
    rw [List.map_cons, List.foldl_cons, (c.addCookie_text before).2, ih]
    rfl

theorem parseCookies_headerText (cookies : List Cookie) :
    parseCookies (headerText cookies) = storeAll (cookies.map Cookie.pair) ∅ := by
  cases cookies with
  | nil => rfl
  | cons c rest =>
    have pieces : parseCookies (headerText (c :: rest)) =
        ((headerText (c :: rest)).splitOn 59).foldl addCookie ∅ := rfl
    rw [pieces, splitOn_headerText, List.foldl_cons, (c.addCookie_text ∅).1, foldl_addCookie]
    rfl

/-- The first value of a name counts. -/
theorem lookup_headerText (cookies : List Cookie) (key : Text) :
    (parseCookies (headerText cookies)).lookup key =
      (cookies.find? fun c => c.name = key).map Cookie.value := by
  rw [parseCookies_headerText, lookup_storeAll, AList.lookup_empty, Option.none_or, List.find?_map,
    Option.map_map]
  rfl

/-- With distinct names the map has the cookies and nothing else. -/
theorem lookup_of_distinct {cookies : List Cookie} (distinct : (cookies.map Cookie.name).Nodup)
    (key value : Text) : (parseCookies (headerText cookies)).lookup key = some value ↔
      ∃ c ∈ cookies, c.name = key ∧ c.value = value := by
  rw [lookup_headerText, Option.map_eq_some_iff]
  constructor
  · rintro ⟨c, found, same⟩
    exact ⟨c, List.mem_of_find?_eq_some found, by simpa using List.find?_some found, same⟩
  · rintro ⟨c, listed, rfl, rfl⟩
    exact ⟨c, find?_of_distinct distinct listed, rfl⟩

/-! ## Cookies that are written -/

/-- `serialize_cookie` without options -/
def serializeNameValue (name value : Text) : Text :=
  if isCookieName name then name ++ lit "=" ++ uriEncode value else []

theorem isComponentByte_bounds {b : Byte} (kind : isComponentByte b = true) :
    33 ≤ b ∧ b ≤ 126 ∧ b ≠ 59 ∧ b ≠ 34 := by
  simp only [isComponentByte, isUnreserved, Bool.or_eq_true, decide_eq_true_eq] at kind
  rcases kind with ((alnum | mark) | rfl) | rfl
  · simp only [isAlnum, isDigit, Bool.or_eq_true, Bool.and_eq_true, decide_eq_true_eq,
      UInt8.le_iff_toNat_le, UInt8.reduceToNat] at alnum
    simp only [UInt8.le_iff_toNat_le, ne_eq, ← UInt8.toNat_inj, UInt8.reduceToNat]
    omega
  · have marks : ∀ c ∈ lit "-_.!~*()", 33 ≤ c ∧ c ≤ 126 ∧ c ≠ 59 ∧ c ≠ 34 := by decide +kernel
    exact marks b mark
  · decide
  · decide

theorem isCookieValue_uriEncode (value : Text) : isCookieValue (uriEncode value) = true := by
  rw [isCookieValue, List.all_eq_true]
  intro b mem
  obtain ⟨low, high, semicolon, _⟩ := isComponentByte_bounds (isComponentByte_uriEncode mem)
  simp [low, high, semicolon]

/-- A name that is accepted, and the encoded value. -/
def encoded (name value : Text) (isName : isCookieName name = true) : Cookie where
  name
  value := uriEncode value
  isName
  isValue := isCookieValue_uriEncode value
  bare := by
    intro inner quoted
    have mem : (34 : Byte) ∈ uriEncode value := quoted ▸ List.mem_cons_self
    exact (isComponentByte_bounds (isComponentByte_uriEncode mem)).2.2.2 rfl

/-- Attributes, each behind a semicolon. -/
def IsAttributes (t : Text) : Prop := t = [] ∨ t.head? = some 59

theorem IsAttributes.append {t u : Text} (left : IsAttributes t) (right : IsAttributes u) :
    IsAttributes (t ++ u) := by
  rcases left with rfl | head
  · exact right
  · refine Or.inr ?_
    rw [List.head?_append, head, Option.some_or]

theorem isAttributes_ite {p : Prop} [Decidable p] {t : Text} (head : t.head? = some 59) :
    IsAttributes (if p then t else []) := by
  split
  · exact Or.inr head
  · exact Or.inl rfl

theorem isAttributes_priority (priority : Text) : IsAttributes (priorityText priority) := by
  unfold priorityText
  split
  · exact Or.inl rfl
  · split_ifs
    · exact Or.inr rfl
    · exact Or.inr rfl
    · exact Or.inr rfl
    · exact Or.inl rfl

theorem isAttributes_sameSite (sameSite : Text) : IsAttributes (sameSiteText sameSite) := by
  unfold sameSiteText
  split
  · exact Or.inl rfl
  · split_ifs
    · exact Or.inr rfl
    · exact Or.inr rfl
    · exact Or.inr rfl
    · exact Or.inl rfl

/-- What is written is such a cookie, with the attributes behind a semicolon. -/
theorem serializeCookie_encoded (name value : Text) (isName : isCookieName name = true) :
    serializeNameValue name value = (encoded name value isName).text ∧
    ∀ options : CookieOptions, options.encodeFn = some uriEncode →
      ∃ attributes, serializeCookie name value options =
        (encoded name value isName).text ++ attributes ∧ IsAttributes attributes := by
  constructor
  · rw [serializeNameValue, if_pos isName, List.append_assoc]
    rfl
  · intro options encodes
    have accepted : ¬ (!isCookieName name || !isCookieValue (uriEncode value)) = true := by
      simp [isName, isCookieValue_uriEncode]
    have text : (encoded name value isName).text = name ++ (lit "=" ++ uriEncode value) := rfl
    simp only [serializeCookie, encodes, if_neg accepted, text, List.append_assoc]
    refine ⟨_, rfl, ?_⟩
    repeat' apply IsAttributes.append
    all_goals first
      | exact isAttributes_ite rfl
      | exact isAttributes_priority _
      | exact isAttributes_sameSite _

/-- The pairs of a header come back as one map, whose first value of a name counts; what
`serialize_cookie` makes is such a pair, and the loop ends inside every header. -/
theorem cookie_codec :
    (∀ (cookies : List Cookie) (key : Text),
      (parseCookies (headerText cookies)).lookup key =
        (cookies.find? fun c => c.name = key).map Cookie.value) ∧
    (∀ cookies : List Cookie, (cookies.map Cookie.name).Nodup → ∀ key value,
      (parseCookies (headerText cookies)).lookup key = some value ↔
        ∃ c ∈ cookies, c.name = key ∧ c.value = value) ∧
    (∀ (name value : Text) (isName : isCookieName name = true),
      serializeNameValue name value = (encoded name value isName).text ∧
      ∀ options : CookieOptions, options.encodeFn = some uriEncode →
        ∃ attributes, serializeCookie name value options =
          (encoded name value isName).text ++ attributes ∧ IsAttributes attributes) ∧
    ∀ header : Text, Ends (cookieTurn header) (0, ∅) (parseCookies header) :=
  ⟨lookup_headerText, fun _ distinct => lookup_of_distinct distinct, serializeCookie_encoded,
    cookies_ends⟩

end CookieHeaders
