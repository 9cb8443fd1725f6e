import Fiy.ByteStrings

/-!
# HTTP messages as the host reads and writes them

A field block is a list of name and value pairs in arrival order. Names are
compared without case. `set` removes every field of that name and appends one,
`erase` through an iterator removes a single field, `at` throws when the field is
absent. Versions, keep-alive and payload preparation are not modelled.
-/

namespace HttpMessages

open ByteStrings

abbrev Fields := List (Text × Text)

namespace Fields

/-- The first field of this name, as `find` returns it. -/
def find (f : Fields) (name : Text) : Option Text :=
  (List.find? (fun field => iequals field.1 name) f).map Prod.snd

/-- `operator[]`: the empty text when there is no such field. -/
def value (f : Fields) (name : Text) : Text := (find f name).getD []

/-- `set`: one field of this name remains, at the end. -/
def set (f : Fields) (name val : Text) : Fields :=
  List.filter (fun field => !iequals field.1 name) f ++ [(name, val)]

/-- `erase` of the iterator that `find` returned. -/
def eraseFirst (f : Fields) (name : Text) : Fields :=
  List.eraseP (fun field => iequals field.1 name) f

theorem find_set_self (f : Fields) (name val : Text) :
    find (set f name val) name = some val := by
  have none_left : List.find? (fun field => iequals field.1 name)
      (List.filter (fun field => !iequals field.1 name) f) = none := by
    rw [List.find?_eq_none]
    intro field hfield
    simpa using (List.mem_filter.mp hfield).2
  simp [find, set, none_left, iequals_refl]

theorem find_set_other (f : Fields) {name other : Text} (val : Text)
    (different : iequals name other = false) :
    find (set f name val) other = find f other := by
  have kept : ∀ field : Text × Text, iequals field.1 other = true →
      iequals field.1 name = false := by
    intro field hfield
    by_contra hname
    have hname' : iequals field.1 name = true := by simpa using hname
    rw [iequals_comm] at hname'
    rw [iequals_trans hname' hfield] at different
    cases different
  induction f with
  | nil => simp [find, set, different]
  | cons field f ih =>
    by_cases hfield : iequals field.1 other = true
    · simp [find, set, kept field hfield, hfield]
    · have hfield' : iequals field.1 other = false := by simpa using hfield
      by_cases hname : iequals field.1 name = true
      · simpa [find, set, hname, hfield'] using ih
      · simpa [find, set, hname, hfield'] using ih

theorem find_eraseFirst_other (f : Fields) {name other : Text}
    (different : iequals name other = false) :
    find (eraseFirst f name) other = find f other := by
  induction f with
  | nil => rfl
  | cons field f ih =>
    by_cases hname : iequals field.1 name = true
    · have hother : iequals field.1 other = false := by
        by_contra same
        have same' : iequals field.1 other = true := by simpa using same
        rw [iequals_comm] at hname
        rw [iequals_trans hname same'] at different
        cases different
      simp [find, eraseFirst, hname, hother]
    · by_cases hother : iequals field.1 other = true
      · simp [find, eraseFirst, hname, hother]
      · simpa [find, eraseFirst, hname, hother] using ih

theorem value_eraseFirst_other (f : Fields) {name other : Text}
    (different : iequals name other = false) :
    value (eraseFirst f name) other = value f other := by
  simp [value, find_eraseFirst_other f different]

end Fields

/-- The methods the host tells apart. Everything else is routed like `other`. -/
inductive Verb
  | get
  | post
  | other (code : Nat)
  deriving DecidableEq, Repr

/-- `verb::unknown` -/
def Verb.unknown : Verb := .other 0

/-- `verb::trace` -/
def Verb.trace : Verb := .other 8

structure Request where
  method : Verb
  target : Text
  fields : Fields
  body : Text
  deriving DecidableEq, Repr

structure Response where
  status : Nat
  fields : Fields := []
  body : Text := []
  deriving DecidableEq, Repr

end HttpMessages
