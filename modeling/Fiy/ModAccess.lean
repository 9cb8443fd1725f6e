import Fiy.KeyedTables
import Fiy.HostEnvironment

/-!
# Installed mods and who may use them

`parse_access_checker` turns the `access` text of a mod into a test on two nullable
C strings. The documented policy is stated separately, over requesters, and the two
are compared below. Mods are looked up by path and by id; the tables are filled
before the server accepts requests.
-/

namespace ModAccess

open ByteStrings KeyedTables HostEnvironment

/-- A blank or a comma. -/
def isSeparator (b : Byte) : Bool := b = 32 || b = 44

/-- The loop that stores the names, with a bound on its iterations. It starts at a
name, or at the end of the text. -/
def namesFrom : Nat → Text → List Text
  | 0, _ => []
  | _ + 1, [] => []
  | fuel + 1, start =>
    start.takeWhile (!isSeparator ·) ::
      namesFrom fuel ((start.dropWhile (!isSeparator ·)).dropWhile isSeparator)

/-- The set of names the checker captures. The text is read as a C string. -/
def whitelist (value : Text) : List Text :=
  namesFrom (cstr value).length ((cstr value).dropWhile isSeparator)

/-- The closure that `parse_access_checker` returns, by the branch it comes from. -/
inductive AccessChecker
  | everyone
  | nobody
  | federated
  | instanceLocal
  | listed (names : List Text)
  deriving DecidableEq, Repr

def parseAccessChecker (value : Text) : AccessChecker :=
  if value = [] ∨ value = lit "public" then .everyone
  else if value = lit "disabled" then .nobody
  else if value = lit "federated" then .federated
  else if value = lit "local" then .instanceLocal
  else .listed (whitelist value)

/-- The call `can_access(user, domain)`: `none` is a null pointer. The set is searched
for a string built from the pointer, which throws when it is null. -/
def AccessChecker.call (checker : AccessChecker) (user domain : Option Text) :
    Except Exn Bool :=
  match checker with
  | .everyone => .ok true
  | .nobody => .ok false
  | .federated => .ok user.isSome
  | .instanceLocal => .ok (user.isSome && domain.isNone)
  | .listed names =>
    if domain.isSome then .ok false
    else match user with
      | none => .error .nullString
      | some name => .ok (names.contains name)

/-! ## Mods -/

/-- What `start` of a shared library returned. -/
structure ModInfo where
  /-- the function pointer is not null -/
  onRequest : Bool
  deriving DecidableEq, Repr

inductive ModConnector
  | dll (modInfo : Option ModInfo)
  | net (uri bearerSend : Text) (https : Bool)
  deriving DecidableEq, Repr

structure Mod where
  id : Text
  path : Text
  /-- `none` is an empty function object -/
  canAccess : Option AccessChecker
  ipc : ModConnector
  deriving DecidableEq, Repr

structure Mods where
  byPath : Table Text Mod
  byId : Table Text Mod
  deriving DecidableEq

namespace Mods

def empty : Mods := ⟨∅, ∅⟩

def getMod (ms : Mods) (path : Text) : Option Mod := ms.byPath.lookup path

def getModById (ms : Mods) (id : Text) : Option Mod := ms.byId.lookup id

end Mods

/-! ## The documented policy -/

inductive Requester
  | anonymous
  | localUser (name : Text)
  | remote (name domain : Text)
  deriving DecidableEq, Repr

/-- The names between separators. -/
def documentedNames (value : Text) : List Text :=
  (value.splitOnP isSeparator).filter (· ≠ [])

/-- Whom the documentation of the `access` field admits. -/
def Admits (value : Text) (r : Requester) : Prop :=
  if value = [] ∨ value = lit "public" then True
  else if value = lit "disabled" then False
  else if value = lit "federated" then r ≠ .anonymous
  else if value = lit "local" then ∃ name, r = .localUser name
  else ∃ name, r = .localUser name ∧ name ∈ documentedNames value

theorem documentedNames_dropWhile (text : Text) :
    documentedNames (text.dropWhile isSeparator) = documentedNames text := by
  induction text with
  | nil => rfl
  | cons b text ih =>
    by_cases hb : isSeparator b = true
    · rw [List.dropWhile_cons_of_pos hb, ih]
      simp [documentedNames, List.splitOnP_cons_eq_if_modifyHead, hb]
    · rw [List.dropWhile_cons_of_neg hb]

theorem documentedNames_cons {name : Text} {sep : Byte}
    (inName : ∀ x ∈ name, isSeparator x = false) (nonempty : name ≠ [])
    (hsep : isSeparator sep = true) (rest : Text) :
    documentedNames (name ++ sep :: rest) = name :: documentedNames rest := by
  rw [documentedNames, List.splitOnP_append_cons_of_forall_mem inName sep hsep]
  simp [documentedNames, nonempty]

/-- The loop finds the names between separators. -/
theorem namesFrom_eq {fuel : Nat} {start : Text} (bound : start.length ≤ fuel)
    (aligned : ∀ b, start.head? = some b → isSeparator b = false) :
    namesFrom fuel start = documentedNames start := by
  induction fuel generalizing start with
  | zero =>
    have : start = [] := List.length_eq_zero_iff.mp (Nat.le_zero.mp bound)
    subst this
    rfl
  | succ fuel ih =>
    cases start with
    | nil => rfl
    | cons b text =>
      have hb : isSeparator b = false := aligned b rfl
      have inName : ∀ x ∈ (b :: text).takeWhile (!isSeparator ·), isSeparator x = false := by
        intro x hx
        simpa using List.mem_takeWhile_imp hx
      have nonempty : (b :: text).takeWhile (!isSeparator ·) ≠ [] := by simp [hb]
      have whole := List.takeWhile_append_dropWhile (p := (!isSeparator ·)) (l := b :: text)
      cases hrest : (b :: text).dropWhile (!isSeparator ·) with
      | nil =>
        rw [hrest, List.append_nil] at whole
        rw [namesFrom, hrest, whole]
        · have none_left : namesFrom fuel (List.dropWhile isSeparator []) = [] := by
            cases fuel <;> rfl
          rw [none_left, documentedNames,
            List.splitOnP_eq_singleton (whole ▸ inName)]
          simp
        · simp
      | cons sep rest =>
        have hsep : isSeparator sep = true := by
          have := List.head?_dropWhile_not (p := (!isSeparator ·)) (b :: text)
          rw [hrest] at this
          simpa using this
        have shorter : (rest.dropWhile isSeparator).length ≤ fuel := by
          have hle := (List.dropWhile_suffix (l := rest) isSeparator).length_le
          have hlen := congrArg List.length whole
          rw [hrest] at hlen
          simp only [List.length_append, List.length_cons] at hlen bound
          omega
        have tail := ih shorter (by
          intro x hx
          have := List.head?_dropWhile_not (p := isSeparator) rest
          rw [hx] at this
          simpa using this)
        have split := documentedNames_cons inName nonempty hsep rest
        rw [← hrest, whole] at split
        rw [namesFrom, hrest, List.dropWhile_cons_of_pos hsep, tail,
          documentedNames_dropWhile, split]
        simp

theorem mem_whitelist_iff (value name : Text) :
    name ∈ whitelist value ↔ name ∈ documentedNames (cstr value) := by
  have hlen := (List.dropWhile_suffix (l := cstr value) isSeparator).length_le
  rw [whitelist, namesFrom_eq hlen, documentedNames_dropWhile]
  intro b hb
  have := List.head?_dropWhile_not (p := isSeparator) (cstr value)
  rw [hb] at this
  simpa using this

/-- A text holds its own pieces only: no piece contains a separator. -/
theorem separator_notMem {value name : Text} (listed : name ∈ documentedNames value) {b : Byte}
    (inside : b ∈ name) : isSeparator b = false :=
  (mem_of_mem_splitOnP (List.mem_filter.mp listed).1 inside).2

theorem nil_notMem_documentedNames (value : Text) : [] ∉ documentedNames value := by
  simp [documentedNames]

theorem parseAccessChecker_listed {value : Text} {names : List Text}
    (h : parseAccessChecker value = .listed names) : names = whitelist value := by
  simp only [parseAccessChecker] at h
  split at h
  · cases h
  · split at h
    · cases h
    · split at h
      · cases h
      · split at h <;> cases h
        rfl

/-- The policy by the kind of checker the text is parsed into. -/
theorem admits_iff (value : Text) (r : Requester) :
    Admits value r ↔ match parseAccessChecker value with
      | .everyone => True
      | .nobody => False
      | .federated => r ≠ .anonymous
      | .instanceLocal => ∃ name, r = .localUser name
      | .listed _ => ∃ name, r = .localUser name ∧ name ∈ documentedNames value := by
  simp only [Admits, parseAccessChecker]
  split
  · rfl
  · split
    · rfl
    · split
      · rfl
      · split <;> rfl

end ModAccess
