import Fiy.ContactsAnswers

/-!
# Structured names

The value of an `N` property has up to five parts. The display name of a card without a
full name is made of them. A part is cut out by the position of its end where its length
is asked for, so the second part runs on as soon as a semicolon follows it.
-/

namespace StructuredNames

open ByteStrings ModLibrary ContactCards ContactsAnswers

/-- The non-empty parts with blanks between them, and for their commas. -/
def joined (parts : List Text) : Text :=
  List.intercalate (lit " ") ((parts.filter (· ≠ [])).map fun part =>
    part.map fun b => if b = 44 then 32 else b)

/-- The display name as the comment in `convert_structured_name` computes it. -/
def displayReference (value : Text) : Text :=
  let parts := value.splitOn 59
  let part := fun i => parts.getD i []
  joined [part 3, part 1, part 2, part 0, part 4]

example : displayReference "Doe;John,Jack;;Dr.;" = "Dr. John Jack Doe" := by decide

theorem convertStructuredName_eq {value surnames givenNames additionalNames prefixes suffixes : Text}
    {i j k l m : Nat} (first : VC.namePart value 0 = (surnames, i))
    (second : VC.namePart value i = (givenNames, j))
    (third : VC.namePart value j = (additionalNames, k))
    (fourth : VC.namePart value k = (prefixes, l))
    (fifth : VC.namePart value l = (suffixes, m)) :
    VC.convertStructuredName value =
      joined [prefixes, givenNames, additionalNames, surnames, suffixes] := by
  simp only [VC.convertStructuredName, first, second, third, fourth, fifth, joined]

/-! ## Parts -/

/-- Behind the end of the value there are only empty parts. -/
theorem namePart_end {value : Text} {i : Nat} (behind : value.length ≤ i) :
    VC.namePart value i = ([], i) :=
  if_pos behind

theorem namePart_last {value : Text} {i : Nat} (inside : i < value.length)
    (plain : 59 ∉ value.drop i) : VC.namePart value i = (value.drop i, value.length) := by
  simp only [VC.namePart, if_neg (not_le.2 inside), cut_eq_none_iff.2 plain]

/-- A part in front of a semicolon gets as many bytes as there are up to the semicolon from
the beginning of the whole value. -/
theorem namePart_cut {value part rest : Text} {i : Nat} (from_ : value.drop i = part ++ 59 :: rest)
    (plain : 59 ∉ part) :
    VC.namePart value i =
      ((part ++ 59 :: rest).take (i + part.length), i + part.length + 1) := by
  have inside : i < value.length := by
    have length := congrArg List.length from_
    simp only [List.length_drop, List.length_append, List.length_cons] at length
    omega
  simp only [VC.namePart, if_neg (not_le.2 inside), from_, cut_append plain rest]

/-! ## Names with at most one semicolon -/

theorem convertStructuredName_plain {value : Text} (plain : 59 ∉ value) :
    VC.convertStructuredName value = displayReference value := by
  by_cases empty : value = []
  · subst empty
    rfl
  · have finished := namePart_end (le_refl value.length)
    rw [convertStructuredName_eq
      (namePart_last (List.length_pos_iff.2 empty) plain) finished finished finished finished,
      displayReference, List.splitOn_eq_singleton plain]
    rfl

theorem convertStructuredName_pair {surnames givenNames : Text} (plain : 59 ∉ surnames)
    (plain' : 59 ∉ givenNames) :
    VC.convertStructuredName (surnames ++ 59 :: givenNames) =
      displayReference (surnames ++ 59 :: givenNames) := by
  have first : VC.namePart (surnames ++ 59 :: givenNames) 0 = (surnames, surnames.length + 1) := by
    rw [namePart_cut rfl plain, Nat.zero_add, List.take_left]
  have behind : (surnames ++ 59 :: givenNames).drop (surnames.length + 1) = givenNames := by
    rw [List.drop_append, List.drop_eq_nil_of_le (by omega)]
    simp
  have parts : (surnames ++ 59 :: givenNames).splitOn 59 = [surnames, givenNames] := by
    rw [List.splitOn_append_cons_self, List.splitOn_eq_singleton plain,
      List.splitOn_eq_singleton plain']
    rfl
  have finished := namePart_end (le_refl (surnames ++ 59 :: givenNames).length)
  by_cases empty : givenNames = []
  · subst empty
    have second := namePart_end (show (surnames ++ [59]).length ≤ surnames.length + 1 by simp)
    rw [convertStructuredName_eq first second second second second, displayReference, parts]
    rfl
  · have second := namePart_last
      (show surnames.length + 1 < (surnames ++ 59 :: givenNames).length by
        simpa using List.length_pos_iff.2 empty) (by rwa [behind])
    rw [convertStructuredName_eq first second finished finished finished, displayReference, parts,
      behind]
    rfl

/-! ## Names with more semicolons -/

theorem semicolon_mem_joined {parts : List Text} :
    59 ∈ joined parts ↔ ∃ part ∈ parts, 59 ∈ part := by
  have blank : (59 : Byte) ≠ 32 := by decide
  rw [joined, show lit " " = [32] from rfl, mem_intercalate_iff blank]
  simp only [List.mem_map, List.mem_filter, decide_eq_true_eq]
  constructor
  · rintro ⟨_, ⟨part, ⟨listed, _⟩, rfl⟩, mem⟩
    obtain ⟨b, mem, semicolon⟩ := List.mem_map.mp mem
    have same : b = 59 := by
      split at semicolon
      · exact absurd semicolon.symm blank
      · exact semicolon
    exact ⟨part, listed, same ▸ mem⟩
  · rintro ⟨part, listed, mem⟩
    exact ⟨_, ⟨part, ⟨listed, List.ne_nil_of_mem mem⟩, rfl⟩, List.mem_map.mpr ⟨59, mem, rfl⟩⟩

/-- The reference has no semicolon, since its parts have none. -/
theorem semicolon_notMem_displayReference (value : Text) : 59 ∉ displayReference value := by
  have plain : ∀ i, 59 ∉ (value.splitOn 59).getD i [] := by
    intro i mem
    rw [List.getD_eq_getElem?_getD] at mem
    cases part : (value.splitOn 59)[i]? with
    | none =>
      rw [part] at mem
      cases mem
    | some part' =>
      have listed := List.mem_of_getElem? part
      rw [part, Option.getD_some] at mem
      rw [List.splitOn_eq_splitOnP] at listed
      exact absurd (mem_of_mem_splitOnP listed mem).2 (by decide)
  rw [displayReference, semicolon_mem_joined]
  rintro ⟨part, listed, mem⟩
  simp only [List.mem_cons, List.not_mem_nil, or_false] at listed
  rcases listed with rfl | rfl | rfl | rfl | rfl <;> exact plain _ mem

/-- With two semicolons or more, the given names contain the second one. -/
theorem semicolon_mem_convertStructuredName {surnames givenNames rest : Text}
    (plain : 59 ∉ surnames) (plain' : 59 ∉ givenNames) :
    59 ∈ VC.convertStructuredName (surnames ++ 59 :: (givenNames ++ 59 :: rest)) := by
  have behind : (surnames ++ 59 :: (givenNames ++ 59 :: rest)).drop (0 + surnames.length + 1) =
      givenNames ++ 59 :: rest := by
    rw [List.drop_append, List.drop_eq_nil_of_le (by omega)]
    simp
  have first := namePart_cut (i := 0) (List.drop_zero (l := surnames ++ 59 :: (givenNames ++ 59 :: rest)))
    plain
  have second := namePart_cut behind plain'
  rw [convertStructuredName_eq first second rfl rfl rfl, semicolon_mem_joined]
  refine ⟨_, List.mem_cons_of_mem _ List.mem_cons_self, ?_⟩
  rw [List.take_append, List.mem_append]
  right
  have one : 0 + surnames.length + 1 + givenNames.length - givenNames.length =
      surnames.length + 1 := by omega
  rw [one, List.take_succ_cons]
  exact List.mem_cons_self

/-- Up to one semicolon, or at least two with plain texts in front of them. -/
theorem semicolons_cases (value : Text) :
    59 ∉ value ∨
    (∃ surnames givenNames, value = surnames ++ 59 :: givenNames ∧ 59 ∉ surnames ∧
      59 ∉ givenNames) ∨
    ∃ surnames givenNames rest, value = surnames ++ 59 :: (givenNames ++ 59 :: rest) ∧
      59 ∉ surnames ∧ 59 ∉ givenNames := by
  by_cases some_ : 59 ∈ value
  · obtain ⟨surnames, more, rfl, plain⟩ := List.eq_append_cons_of_mem some_
    by_cases again : 59 ∈ more
    · obtain ⟨givenNames, rest, rfl, plain'⟩ := List.eq_append_cons_of_mem again
      exact .inr (.inr ⟨surnames, givenNames, rest, rfl, plain, plain'⟩)
    · exact .inr (.inl ⟨surnames, more, rfl, plain, again⟩)
  · exact .inl some_

/-- The code and its comment agree on values with at most one semicolon. -/
theorem convertStructuredName_eq_iff (value : Text) :
    VC.convertStructuredName value = displayReference value ↔ value.count 59 ≤ 1 := by
  rcases semicolons_cases value with plain | ⟨surnames, givenNames, rfl, plain, plain'⟩ |
    ⟨surnames, givenNames, rest, rfl, plain, plain'⟩
  · simp [convertStructuredName_plain plain, List.count_eq_zero_of_not_mem plain]
  · simp [convertStructuredName_pair plain plain', List.count_eq_zero_of_not_mem plain,
      List.count_eq_zero_of_not_mem plain']
  · constructor
    · intro agree
      have mem : 59 ∈ VC.convertStructuredName (surnames ++ 59 :: (givenNames ++ 59 :: rest)) :=
        semicolon_mem_convertStructuredName plain plain'
      rw [agree] at mem
      exact absurd mem (semicolon_notMem_displayReference _)
    · intro few
      simp only [List.count_append, List.count_cons_self] at few
      omega

/-! ## Cards -/

/-- The JSON form of a card with this display name. -/
def jsonNamed (host : ModHost) (vc : VC) (name : Text) : Option Text := do
  let values := fun name : Text => (vc.props.filter fun p => p.name = name).map CardProp.value
  let bio ← host.jsonString (vc.firstValue "NOTE")
  let email ← host.jsonString (vc.firstValue "EMAIL")
  let name ← host.jsonString name
  let nick ← host.jsonString (vc.firstValue "NICKNAME")
  let socials ← VC.jsonList host (values "X-SOCIALPROFILE")
  let websites ← VC.jsonList host (values "URL")
  some <| lit "\x7b\"bio\":" ++ bio ++ lit ",\"email\":" ++ email ++ lit ",\"name\":" ++ name ++
    lit ",\"nick\":" ++ nick ++ lit ",\"socials\":" ++ socials ++ lit ",\"websites\":" ++
    websites ++ lit "\x7d"

theorem toInternalJson_eq (host : ModHost) (vc : VC) :
    vc.toInternalJson host = jsonNamed host vc (jsonName vc) := rfl

/-- The card has no full name, and this is the value of its first `N` property. -/
def NamedBy (vc : VC) (value : Text) : Prop :=
  vc.firstValue "FN" = [] ∧
    ((vc.props.filter fun p => p.name = lit "N").map CardProp.value).head? = some value

instance (vc : VC) (value : Text) : Decidable (NamedBy vc value) :=
  inferInstanceAs (Decidable (_ ∧ _))

theorem jsonName_of_namedBy {vc : VC} {value : Text} (named : NamedBy vc value) :
    jsonName vc = VC.convertStructuredName value := by
  obtain ⟨noFullName, first⟩ := named
  obtain ⟨rest, values⟩ := List.head?_eq_some_iff.mp first
  simp only [jsonName, noFullName, ne_eq, not_true_eq_false, if_false, values]

/-- The name in the JSON form is the reference when its value has at most one semicolon. -/
theorem display_name_iff {vc : VC} {value : Text} (named : NamedBy vc value) (host : ModHost) :
    vc.toInternalJson host = jsonNamed host vc (jsonName vc) ∧
      (jsonName vc = displayReference value ↔ value.count 59 ≤ 1) := by
  refine ⟨toInternalJson_eq host vc, ?_⟩
  rw [jsonName_of_namedBy named, convertStructuredName_eq_iff]

/-- A card of John Doe. -/
def johnsCard : VC := { id := 3, props := [⟨5, "N", [], "Doe;John;;", 0⟩] }

/-- His name is shown with the semicolons behind it. -/
theorem johns_semicolons :
    NamedBy johnsCard "Doe;John;;" ∧ jsonName johnsCard = "John;; ; Doe" ∧
      displayReference "Doe;John;;" = "John Doe" ∧
      johnsCard.toInternalJson demoHost ≠ jsonNamed demoHost johnsCard "John Doe" := by
  decide +kernel

/-- Without them it is shown as it should be. -/
theorem display_name_iff_john :
    VC.toInternalJson demoHost { johnsCard with props := [⟨5, "N", [], "Doe;John", 0⟩] } =
        jsonNamed demoHost { johnsCard with props := [⟨5, "N", [], "Doe;John", 0⟩] }
          (jsonName { johnsCard with props := [⟨5, "N", [], "Doe;John", 0⟩] }) ∧
      (jsonName { johnsCard with props := [⟨5, "N", [], "Doe;John", 0⟩] } =
        displayReference "Doe;John" ↔ (lit "Doe;John").count 59 ≤ 1) :=
  display_name_iff (by decide) demoHost

end StructuredNames
