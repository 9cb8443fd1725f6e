import Fiy.TextViews
import Fiy.UriComponents

/-!
# Forms in requests

`parse_form_url_encoded` walks over the body twice for a pair, to the equals sign and to
the separator, and reads the body at positions that it has compared with its length. An
empty value is an error, although it is what a blank field is sent as.
-/

namespace UrlForms

open ByteStrings WebText TextViews CheckedLoops UriComponents

/-! ## The loop -/

inductive Phase
  /-- before the equals sign -/
  | key
  /-- behind it, with the key -/
  | value (first : Text)
  deriving DecidableEq, Repr

structure FormState where
  i : Nat := 0
  start : Nat := 0
  phase : Phase := .key
  ret : List (Text × Text)
  deriving DecidableEq, Repr

/-- The value is complete: the rest of the outer loop's body. -/
def endPair (s : Text) (i start : Nat) (first : Text) (ret : List (Text × Text)) :
    Turn FormState (Bool × List (Text × Text)) :=
  .guard (range s start i) fun part =>
    if uriDecode part = [] then .leave (false, ret)
    else if i + 1 < s.length then .again ⟨i + 1, i + 1, .key, ret ++ [(first, uriDecode part)]⟩
    else .leave (true, ret ++ [(first, uriDecode part)])

/-- One turn of the inner loops, or what is done between them. -/
def formTurn (s : Text) : FormState → Turn FormState (Bool × List (Text × Text))
  | ⟨i, start, .key, ret⟩ =>
    if i < s.length then
      .guard s[i]? fun b =>
        if b ≠ 61 then .again ⟨i + 1, start, .key, ret⟩
        else .guard (range s start i) fun part =>
          if uriDecode part = [] then .leave (false, ret)
          else .again ⟨i + 1, i + 1, .value (uriDecode part), ret⟩
    else .leave (false, ret)
  | ⟨i, start, .value first, ret⟩ =>
    if i < s.length then
      .guard s[i]? fun b =>
        if b ≠ 38 then .again ⟨i + 1, start, .value first, ret⟩
        else endPair s i start first ret
    else endPair s i start first ret

section turns
variable (before part rest : Text) (ret : List (Text × Text)) {r : Bool × List (Text × Text)}

theorem key_scan (absent : 61 ∉ part) :
    Ends (formTurn (before ++ (part ++ rest))) ⟨before.length, before.length, .key, ret⟩ r ↔
      Ends (formTurn (before ++ (part ++ rest)))
        ⟨(before ++ part).length, before.length, .key, ret⟩ r := by
  refine ends_of_scan (f := fun i => (⟨i, before.length, .key, ret⟩ : FormState)) (by simp) ?_
  intro i from_ below
  obtain ⟨b, mem, here⟩ := getElem?_part rest from_ below
  have inside := (List.getElem?_eq_some_iff.mp here).1
  have other : b ≠ 61 := ne_of_mem_of_not_mem mem absent
  simp only [formTurn, if_pos inside, here, Turn.guard_some, if_pos other]

theorem value_scan (absent : 38 ∉ part) (first : Text) :
    Ends (formTurn (before ++ (part ++ rest))) ⟨before.length, before.length, .value first, ret⟩ r ↔
      Ends (formTurn (before ++ (part ++ rest)))
        ⟨(before ++ part).length, before.length, .value first, ret⟩ r := by
  refine ends_of_scan (f := fun i => (⟨i, before.length, .value first, ret⟩ : FormState)) (by simp) ?_
  intro i from_ below
  obtain ⟨b, mem, here⟩ := getElem?_part rest from_ below
  have inside := (List.getElem?_eq_some_iff.mp here).1
  have other : b ≠ 38 := ne_of_mem_of_not_mem mem absent
  simp only [formTurn, if_pos inside, here, Turn.guard_some, if_pos other]

/-- At the equals sign. -/
theorem key_turn :
    formTurn (before ++ (part ++ 61 :: rest)) ⟨(before ++ part).length, before.length, .key, ret⟩ =
      if uriDecode part = [] then .leave (false, ret)
      else .again ⟨(before ++ part).length + 1, (before ++ part).length + 1,
        .value (uriDecode part), ret⟩ := by
  have inside : (before ++ part).length < (before ++ (part ++ 61 :: rest)).length := by simp
  have here : (before ++ (part ++ 61 :: rest))[(before ++ part).length]? = some 61 := by
    rw [← List.append_assoc]
    simp
  simp only [formTurn, if_pos inside, here, Turn.guard_some, ne_eq, not_true_eq_false, if_false,
    range_part]

/-- At the end of the text without an equals sign. -/
theorem key_end :
    formTurn (before ++ (part ++ [])) ⟨(before ++ part).length, before.length, .key, ret⟩ =
      .leave (false, ret) := by
  have outside : ¬ (before ++ part).length < (before ++ (part ++ [])).length := by simp
  simp only [formTurn, if_neg outside]

/-- At the separator. -/
theorem value_turn (first : Text) :
    formTurn (before ++ (part ++ 38 :: rest))
        ⟨(before ++ part).length, before.length, .value first, ret⟩ =
      if uriDecode part = [] then .leave (false, ret)
      else if rest = [] then .leave (true, ret ++ [(first, uriDecode part)])
      else .again ⟨(before ++ part).length + 1, (before ++ part).length + 1, .key,
        ret ++ [(first, uriDecode part)]⟩ := by
  have inside : (before ++ part).length < (before ++ (part ++ 38 :: rest)).length := by simp
  have here : (before ++ (part ++ 38 :: rest))[(before ++ part).length]? = some 38 := by
    rw [← List.append_assoc]
    simp
  have more : (before ++ part).length + 1 < (before ++ (part ++ 38 :: rest)).length ↔
      rest ≠ [] := by
    rw [← List.length_pos_iff]
    simp only [List.length_append, List.length_cons]
    omega
  simp only [formTurn, endPair, if_pos inside, here, Turn.guard_some, ne_eq, if_true, range_part,
    more, ite_not]

/-- At the end of the text. -/
theorem value_end (first : Text) :
    formTurn (before ++ (part ++ [])) ⟨(before ++ part).length, before.length, .value first, ret⟩ =
      if uriDecode part = [] then .leave (false, ret)
      else .leave (true, ret ++ [(first, uriDecode part)]) := by
  have outside : ¬ (before ++ part).length < (before ++ (part ++ [])).length := by simp
  have no_more : ¬ (before ++ part).length + 1 < (before ++ (part ++ [])).length := by
    simp only [List.length_append, List.length_nil]
    omega
  simp only [formTurn, endPair, if_neg outside, range_part, Turn.guard_some, if_neg no_more]

end turns

/-! ## The whole loop -/

/-- The loop from a position, where a pair starts. -/
abbrev startAt (before : Text) (ret : List (Text × Text)) : FormState :=
  ⟨before.length, before.length, .key, ret⟩

/-- Without an equals sign there is no pair. -/
theorem ends_without_key (before rest : Text) (ret : List (Text × Text)) (absent : 61 ∉ rest) :
    Ends (formTurn (before ++ rest)) (startAt before ret) (false, ret) := by
  have scan := key_scan before rest [] ret absent (r := (false, ret))
  have last := key_end before rest ret
  rw [List.append_nil] at scan last
  exact scan.mpr (Ends.of_leave last)

/-- The key and the equals sign. -/
theorem ends_of_key (before key rest : Text) (ret : List (Text × Text)) (absent : 61 ∉ key)
    (some_ : uriDecode key ≠ []) {r : Bool × List (Text × Text)} :
    Ends (formTurn (before ++ (key ++ 61 :: rest))) (startAt before ret) r ↔
      Ends (formTurn (before ++ (key ++ 61 :: rest)))
        ⟨(before ++ key).length + 1, (before ++ key).length + 1, .value (uriDecode key), ret⟩ r := by
  have turn := key_turn before key rest ret
  rw [if_neg some_] at turn
  rw [key_scan before key _ ret absent, ends_of_again turn]

theorem ends_of_blank_key (before key rest : Text) (ret : List (Text × Text)) (absent : 61 ∉ key)
    (blank : uriDecode key = []) :
    Ends (formTurn (before ++ (key ++ 61 :: rest))) (startAt before ret) (false, ret) := by
  have turn := key_turn before key rest ret
  rw [if_pos blank] at turn
  exact (key_scan before key _ ret absent).mpr (Ends.of_leave turn)

/-- From a value on: it is empty, the last one, or followed by another pair. -/
theorem value_round (before rest first : Text) (ret : List (Text × Text)) :
    let parts := (cut 38 rest).getD (rest, [])
    let r := (first, uriDecode parts.1)
    if uriDecode parts.1 = [] then
      Ends (formTurn (before ++ rest)) ⟨before.length, before.length, .value first, ret⟩ (false, ret)
    else if parts.2 = [] then
      Ends (formTurn (before ++ rest)) ⟨before.length, before.length, .value first, ret⟩
        (true, ret ++ [r])
    else ∃ read, before ++ rest = read ++ parts.2 ∧ ∀ a,
      Ends (formTurn (before ++ rest)) (startAt read (ret ++ [r])) a →
        Ends (formTurn (before ++ rest)) ⟨before.length, before.length, .value first, ret⟩ a := by
  cases hval : cut 38 rest with
  | none =>
    have scan := fun a => value_scan before rest [] ret (cut_eq_none_iff.mp hval) first (r := a)
    have last := value_end before rest ret first
    rw [List.append_nil] at last
    simp only [List.append_nil] at scan
    simp only [Option.getD_none, if_true, scan]
    split
    next blank =>
      rw [if_pos blank] at last
      exact Ends.of_leave last
    next some_ =>
      rw [if_neg some_] at last
      exact Ends.of_leave last
  | some parts =>
    obtain ⟨val, after⟩ := parts
    obtain ⟨rfl, absent⟩ := cut_eq_some_iff.mp hval
    have turn := value_turn before val after ret first
    have scan := fun a => value_scan before val (38 :: after) ret absent first (r := a)
    simp only [Option.getD_some, scan]
    split
    next blank =>
      rw [if_pos blank] at turn
      exact Ends.of_leave turn
    next some_ =>
      rw [if_neg some_] at turn
      split
      next last =>
        rw [if_pos last] at turn
        exact Ends.of_leave turn
      next more =>
        rw [if_neg more] at turn
        refine ⟨before ++ val ++ [38], by simp, ?_⟩
        intro a ends
        have length : (before ++ val).length + 1 = (before ++ val ++ [38]).length := by
          simp only [List.length_append, List.length_singleton]
        rw [ends_of_again turn, length]
        exact ends

/-- A round of the outer loop does what the parser does with a pair. -/
theorem round_ends (before rest : Text) (ret : List (Text × Text)) :
    match parsePair rest with
    | none => Ends (formTurn (before ++ rest)) (startAt before ret) (false, ret)
    | some (kv, after) =>
      if after = [] then Ends (formTurn (before ++ rest)) (startAt before ret) (true, ret ++ [kv])
      else ∃ read, before ++ rest = read ++ after ∧ ∀ a,
        Ends (formTurn (before ++ rest)) (startAt read (ret ++ [kv])) a →
          Ends (formTurn (before ++ rest)) (startAt before ret) a := by
  cases hkey : cut 61 rest with
  | none =>
    simp only [parsePair, hkey]
    exact ends_without_key before rest ret (cut_eq_none_iff.mp hkey)
  | some parts =>
    obtain ⟨key, more⟩ := parts
    obtain ⟨rfl, absent⟩ := cut_eq_some_iff.mp hkey
    by_cases blank : uriDecode key = []
    · simp only [parsePair, hkey, blank, true_or, if_true]
      exact ends_of_blank_key before key more ret absent blank
    · have value := value_round (before ++ key ++ [61]) more (uriDecode key) ret
      have from_key := fun a => ends_of_key before key more ret absent blank (r := a)
      have moved : before ++ (key ++ 61 :: more) = (before ++ key ++ [61]) ++ more := by simp
      have length : (before ++ key).length + 1 = (before ++ key ++ [61]).length := by
        simp only [List.length_append, List.length_singleton]
      rw [length, moved] at from_key
      rw [moved]
      simp only [parsePair, hkey, blank, false_or]
      by_cases empty : uriDecode ((cut 38 more).getD (more, [])).1 = []
      · simp only [if_pos empty] at value ⊢
        exact (from_key _).mpr value
      · simp only [if_neg empty] at value ⊢
        split
        next last =>
          rw [if_pos last] at value
          exact (from_key _).mpr value
        next more_ =>
          rw [if_neg more_] at value
          obtain ⟨read, split_, ends⟩ := value
          exact ⟨read, split_, fun a done => (from_key a).mpr (ends a done)⟩

/-- The loop ends with what the parser returns, behind what was in the list before. -/
theorem form_ends_from (before rest : Text) (ret : List (Text × Text)) :
    ∃ ok out, Ends (formTurn (before ++ rest)) (startAt before ret) (ok, ret ++ out) ∧
      parseFormUrlEncoded rest = if ok then some out else none := by
  induction hlen : rest.length using Nat.strongRecOn generalizing before rest ret with
  | ind n ih =>
    have round := round_ends before rest ret
    rw [parseFormUrlEncoded_eq]
    cases hpair : parsePair rest with
    | none =>
      simp only [hpair] at round ⊢
      exact ⟨false, [], by rwa [List.append_nil], rfl⟩
    | some parts =>
      obtain ⟨kv, after⟩ := parts
      simp only [hpair] at round ⊢
      by_cases last : after = []
      · simp only [if_pos last] at round ⊢
        exact ⟨true, [kv], round, rfl⟩
      · simp only [if_neg last] at round ⊢
        obtain ⟨read, split, ends⟩ := round
        have shorter : after.length < n := hlen ▸ parsePair_length hpair
        obtain ⟨ok, out, done, parsed⟩ := ih after.length shorter read after (ret ++ [kv]) rfl
        refine ⟨ok, kv :: out, ?_, ?_⟩
        · rw [split] at ends ⊢
          rw [List.append_assoc, List.singleton_append] at done
          exact ends _ done
        · rw [parsed]
          cases ok <;> rfl

/-- `parse_form_url_encoded`: on every body the loop ends, inside the body. -/
theorem form_ends (s : Text) (ret : List (Text × Text)) :
    ∃ ok out, Ends (formTurn s) (startAt [] ret) (ok, ret ++ out) ∧
      parseFormUrlEncoded s = if ok then some out else none :=
  form_ends_from [] s ret

/-! ## Forms as they are sent -/

/-- The fields of a form, each with a name. -/
structure Form where
  pairs : List (Text × Text)
  some_ : pairs ≠ []
  named : ∀ kv ∈ pairs, kv.1 ≠ []

def pairText (kv : Text × Text) : Text := uriEncode kv.1 ++ 61 :: uriEncode kv.2

/-- `application/x-www-form-urlencoded` -/
def formText (pairs : List (Text × Text)) : Text := List.intercalate [38] (pairs.map pairText)

theorem parsePair_pairText (kv : Text × Text) (rest : Text)
    (next : rest = [] ∨ rest.head? = some 38) : parsePair (pairText kv ++ rest) =
      if kv.1 = [] ∨ kv.2 = [] then none else some (kv, rest.tail) := by
  have key : (61 : Byte) ∉ uriEncode kv.1 := notMem_uriEncode (by decide) kv.1
  have separator : (38 : Byte) ∉ uriEncode kv.2 := notMem_uriEncode (by decide) kv.2
  have hkey : cut 61 (pairText kv ++ rest) = some (uriEncode kv.1, uriEncode kv.2 ++ rest) := by
    rw [pairText, List.append_assoc, List.cons_append]
    exact cut_append key _
  have hval : (cut 38 (uriEncode kv.2 ++ rest)).getD (uriEncode kv.2 ++ rest, []) =
      (uriEncode kv.2, rest.tail) := by
    cases rest with
    | nil =>
      rw [List.append_nil, cut_eq_none_iff.mpr separator]
      rfl
    | cons b rest =>
      obtain rfl : b = 38 := by simpa using next
      rw [cut_append separator]
      rfl
  simp only [parsePair, hkey, hval, uriDecode_uriEncode]

theorem formText_ne_nil (kv : Text × Text) (rest : List (Text × Text)) :
    formText (kv :: rest) ≠ [] := by
  cases rest with
  | nil => simp [formText, pairText]
  | cons kv' rest => simp [formText, pairText]

/-- The parser gives the list back unless a value is empty. -/
theorem parseForm_formText {pairs : List (Text × Text)} (some_ : pairs ≠ [])
    (named : ∀ kv ∈ pairs, kv.1 ≠ []) : parseFormUrlEncoded (formText pairs) =
      if ∀ kv ∈ pairs, kv.2 ≠ [] then some pairs else none := by
  induction pairs with
  | nil => exact absurd rfl some_
  | cons kv rest ih =>
    obtain ⟨key, named⟩ := List.forall_mem_cons.mp named
    rw [parseFormUrlEncoded_eq]
    cases rest with
    | nil =>
      have text : formText [kv] = pairText kv ++ [] := by
        rw [formText, List.map_singleton, List.intercalate_singleton, List.append_nil]
      rw [text, parsePair_pairText kv [] (Or.inl rfl)]
      by_cases blank : kv.2 = []
      · simp [blank]
      · simp [blank, key]
    | cons kv' rest =>
      have text : formText (kv :: kv' :: rest) = pairText kv ++ 38 :: formText (kv' :: rest) := by
        rw [formText, List.map_cons, List.map_cons, List.intercalate_cons_cons, List.append_assoc]
        rfl
      rw [text, parsePair_pairText kv _ (Or.inr rfl)]
      by_cases blank : kv.2 = []
      · simp [blank]
      · have rest_ := ih (List.cons_ne_nil kv' rest) named
        have whole : (∀ p ∈ kv :: kv' :: rest, p.2 ≠ []) ↔ ∀ p ∈ kv' :: rest, p.2 ≠ [] := by
          rw [List.forall_mem_cons]
          exact and_iff_right blank
        simp only [key, blank, or_self, if_false, List.tail_cons, formText_ne_nil, rest_, whole]
        split <;> rfl

/-- The text of the form is parsed into the list again. -/
def RoundTrips (form : Form) : Prop :=
  ∀ ret, Ends (formTurn (formText form.pairs)) (startAt [] ret) (true, ret ++ form.pairs)

theorem roundTrips_iff (form : Form) : RoundTrips form ↔ ∀ kv ∈ form.pairs, kv.2 ≠ [] := by
  have parsed := parseForm_formText form.some_ form.named
  constructor
  · intro trips
    by_contra blank
    rw [if_neg blank] at parsed
    obtain ⟨ok, out, ends, result⟩ := form_ends (formText form.pairs) []
    have same := (trips []).unique ends
    rw [parsed, ← (Prod.mk.inj same).1] at result
    cases result
  · intro full ret
    rw [if_pos full] at parsed
    obtain ⟨ok, out, ends, result⟩ := form_ends (formText form.pairs) ret
    rw [parsed] at result
    cases ok with
    | false => cases result
    | true =>
      cases result
      exact ends

/-- A form is parsed into its list exactly when no value is empty. Every body is parsed
without looking outside of it, and so is every part of it that is decoded. -/
theorem form_codec_iff (form : Form) (s : Text) (ret : List (Text × Text)) (part : Text) :
    (RoundTrips form ↔ ∀ kv ∈ form.pairs, kv.2 ≠ []) ∧
    (∃ ok out, Ends (formTurn s) (startAt [] ret) (ok, ret ++ out)) ∧
    Ends (decodeTurn part) (0, []) (uriDecode part) := by
  refine ⟨roundTrips_iff form, ?_, decode_ends part⟩
  obtain ⟨ok, out, ends, _⟩ := form_ends s ret
  exact ⟨ok, out, ends⟩

/-- A name and a field that was left blank. -/
def blankField : Form where
  pairs := [("user", "bob"), ("bio", [])]
  some_ := by simp
  named := by decide +kernel

/-- The form is refused after its first pair. -/
theorem blankField_refused :
    formText blankField.pairs = lit "user=bob&bio=" ∧
    loop (formTurn (formText blankField.pairs)) 14 (startAt [] []) =
      .done (false, [("user", "bob")]) ∧
    ¬ RoundTrips blankField := by
  refine ⟨by decide +kernel, by decide +kernel, ?_⟩
  intro trips
  exact absurd ((roundTrips_iff blankField).mp trips ("bio", []) (by decide +kernel)) (by simp)

end UrlForms
