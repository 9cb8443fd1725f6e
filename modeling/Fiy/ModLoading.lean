import Fiy.ModAccess
import Fiy.RepoDtos

/-!
# Loading the installed mods

`Mods::find_modules` with what each `module.json` says. The parser and the directories are given.
When a mod was installed is left out, as is what is only logged.
-/

namespace ModLoading

open ByteStrings KeyedTables ModAccess RepoDtos

/-! ## Files -/

/-- What leaves `find_modules` instead of a result. -/
inductive Fault
  /-- `std::invalid_argument` -/
  | invalidArgument
  /-- `std::out_of_range` -/
  | outOfRange
  /-- `nlohmann::json::out_of_range`, for a number that is too large -/
  | jsonOutOfRange
  /-- `std::filesystem::filesystem_error` -/
  | fileSystem
  /-- A connector is used that is null. -/
  | nullConnector
  deriving DecidableEq, Repr

/-- What `parse` throws. -/
inductive ParseError
  | invalid (what : Text)
  | outOfRange
  deriving DecidableEq, Repr

/-- A `module.json` -/
inductive ConfigFile
  | missing
  /-- `exists` throws. -/
  | unreadable
  | text (content : Text)
  deriving DecidableEq, Repr

/-- What is in the directory of the mods. -/
structure Entry where
  name : Text
  isDirectory : Bool
  config : ConfigFile
  deriving DecidableEq, Repr

structure Directory where
  entries : List Entry
  distinct : (entries.map Entry.name).Nodup

/-- The host. -/
structure Setup where
  /-- `data_dir` -/
  dataDir : Text
  /-- `nlohmann::json::parse` -/
  parse : Text → Except ParseError Json

/-! ## Versions -/

structure Version where
  major : Int
  minor : Int
  majorString : Text
  deriving DecidableEq, Repr

/-- `std::stoi` -/
def stoi (text : Text) : Except Fault Int :=
  match strtolValue (cstr text) with
  | none => .error .invalidArgument
  | some value =>
    if -2147483648 ≤ value ∧ value ≤ 2147483647 then .ok value else .error .outOfRange

/-- The position behind the number that `std::stoi` reads. -/
def numberEnd (text : Text) : Nat :=
  let rest := text.dropWhile isSpace
  let sign := if rest.head? = some 45 ∨ rest.head? = some 43 then 1 else 0
  (text.takeWhile isSpace).length + sign + (leadingDigits 10 (rest.drop sign)).length

/-- The minor version is read from the point on. -/
def Version.ofText (text : Text) : Except Fault Version := do
  let major ← stoi text
  let pos := numberEnd (cstr text)
  if text[pos]? ≠ some 46 then return ⟨major, 0, decimalInt major⟩
  return ⟨major, (strtol (cstr (text.drop pos))).getD 0, decimalInt major⟩

/-! ## Mods -/

inductive Connector
  /-- `ModConnectorDll` -/
  | dll (uri : Text)
  /-- `ModConnectorNet` -/
  | net (uri : Text) (https : Bool)
  deriving DecidableEq, Repr

/-- The fields that are texts of the file. -/
structure Metadata where
  id : Text := []
  path : Text := []
  name : Text := []
  description : Text := []
  icon : Text := []
  userDataDir : Text := []
  deriving DecidableEq, Repr

structure Mod extends Metadata where
  dataDir : Text
  config : Text := []
  version : Version := ⟨0, 0, lit "0"⟩
  loaded : Bool := true
  enabled : Bool := false
  running : Bool := false
  error : Text := []
  canAccess : Option AccessChecker := none
  ipc : Option Connector := none
  deriving DecidableEq, Repr

/-- `load_error` -/
def loadError (message : Text) (m : Mod) : Mod :=
  { m with error := m.error ++ message ++ lit "\n", loaded := false }

section load
variable (s : Setup) (conf : Json)

/-- `dir` -/
def modDir (m : Mod) : Text := s.dataDir ++ lit "/mods/" ++ m.dataDir

/-- `parse_file` -/
def parseFile (file : ConfigFile) (m : Mod) : Except Fault (Json × Mod) :=
  match file with
  | .unreadable => .error .fileSystem
  | .missing => .ok (.null, loadError (lit "missing module.json") m)
  | .text content =>
    let m := { m with config := modDir s m ++ lit "/module.json" }
    match s.parse content with
    | .error (.invalid what) =>
      .ok (.null, loadError (modDir s m ++ lit "/module.json: invalid JSON: " ++ what) m)
    | .error .outOfRange => .error .jsonOutOfRange
    | .ok conf =>
      if conf.isObject then .ok (conf, m)
      else .ok (.null, loadError (lit "module.json: should be an object") m)

/-- A key with a text for one of the fields. -/
def textField (key message : Text) (missing : Mod → Mod) (set : Text → Metadata → Metadata)
    (m : Mod) : Mod :=
  match conf.find key with
  | none => missing m
  | some value => match value.string? with
    | none => loadError message m
    | some text => { m with toMetadata := set text m.toMetadata }

def loadId : Mod → Mod :=
  textField conf "id" (lit "module.json: \"id\" should be a string") id
    fun id data => { data with id }

def loadPath : Mod → Mod :=
  textField conf "path"
    (lit "module.json: \"path\" should contain a uri component string") id
    fun path data => { data with path }

def loadName : Mod → Mod :=
  textField conf "name" (lit "module.json: \"name\" should be a string")
    (loadError (lit "module.json: missing key: name")) fun name data => { data with name }

def loadDescription : Mod → Mod :=
  textField conf "description" (lit "module.json: \"description\" should be a string")
    (loadError (lit "module.json: missing key: description"))
    fun description data => { data with description }

def loadDataDir (m : Mod) : Mod :=
  textField conf "data_dir" (lit "module.json: \"data_dir\" should be a string")
    (fun m => { m with userDataDir := modDir s m })
    (fun userDataDir data => { data with userDataDir }) m

def loadVersion (m : Mod) : Except Fault Mod :=
  match conf.find "version" with
  | none => .ok m
  | some value => match value.string? with
    | none => .ok (loadError
        (lit "module.json: \"version\" should be a string of format NN.nn") m)
    | some text => (Version.ofText text).map fun version => { m with version }

/-- `connector_uri`; it is empty where it is missing or no text. -/
def loadConnectorUri (m : Mod) : Text × Mod :=
  match conf.find "connector_uri" with
  | none => ([], m)
  | some value => match value.string? with
    | none => ([], loadError (lit "module.json: \"connector_uri\" should be a string") m)
    | some uri => (uri, m)

/-- The connector of a kind. A kind that is not known, or a socket, gives none. -/
def makeConnector (kind uri : Text) (m : Mod) : Mod :=
  if kind = lit "http" ∨ kind = lit "https" then
    if uri = [] then loadError
      (lit "module.json: \"connector_uri\" must be defined when \"ipc\" is set to \"" ++ kind ++
        lit "\"") m
    else { m with ipc := some (.net uri (decide (kind = lit "https"))) }
  else if kind = lit "shared_object" then
    { m with ipc := some (.dll (if uri = [] then modDir s m ++ lit "/module.so" else uri)) }
  else m

def loadConnector (m : Mod) : Mod :=
  let (uri, m) := loadConnectorUri conf m
  match conf.find "connector" with
  | none => loadError (lit "module.json: missing key: connector") m
  | some value => match value.string? with
    | none => loadError
        (lit ("module.json: \"connector\" should be either \"shared_object\", \"socket\" or" ++
          " \"tcp\"")) m
    | some kind => makeConnector s kind uri m

/-- Whether a number is not zero, as a `double`. -/
def nonzero? : Json → Option Bool
  | .integer value => some (decide (value ≠ 0))
  | .unsigned value => some (decide (value ≠ 0))
  | .float bits => some (decide (bits ≠ 0 ∧ bits ≠ 0x8000000000000000))
  | _ => none

def bool? : Json → Option Bool
  | .bool value => some value
  | _ => none

def enabledValue? (value : Json) : Option Bool := (bool? value).or (nonzero? value)

def loadEnabled (m : Mod) : Mod :=
  match conf.find "enabled" with
  | none => { m with enabled := false }
  | some value => match enabledValue? value with
    | some enabled => { m with enabled }
    | none => loadError (lit "module.json: \"enabled\" should be a boolean") m

def loadIcon (m : Mod) : Mod :=
  match conf.find "icon" with
  | none => m
  | some (.string icon) => { m with icon }
  | some .null => { m with icon := [] }
  | some _ => loadError
      (lit ("module.json: \"icon\" should be a string containing" ++
        " a path to request the module to get the icon")) m

def loadAccess (m : Mod) : Mod :=
  match conf.find "access" with
  | none => { m with canAccess := some (parseAccessChecker []) }
  | some (.string value) => { m with canAccess := some (parseAccessChecker value) }
  | some (.bool open_) =>
    { m with canAccess := some (parseAccessChecker (if open_ then [] else lit "disabled")) }
  | some _ => loadError
      (lit ("module.json: \"access\" should be either \"public\", \"federated\", \"local\"," ++
        " or a comma-separated list of local users allowed to use the mod")) m

/-- The end of `load` -/
def finish (m : Mod) : Mod := if m.error = [] then { m with loaded := true } else m

/-- `load`, behind the file -/
def load (m : Mod) : Except Fault Mod := do
  let m ← loadVersion conf (loadName conf (loadPath conf (loadId conf m)))
  let m := loadConnector s conf (loadDescription conf m)
  return finish (loadDataDir s conf (loadAccess conf (loadIcon conf (loadEnabled conf m))))

end load

/-- A mod is named after its directory as long as the file does not say otherwise. -/
def freshMod (e : Entry) : Mod :=
  { dataDir := e.name, userDataDir := e.name, id := e.name, path := e.name }

/-- `Mod::Mod`, with the file of its directory -/
def newMod (s : Setup) (e : Entry) : Except Fault Mod := do
  let (conf, m) ← parseFile s e.config (freshMod e)
  load s conf m

/-- `delete`, which stops the mod. A connector that was never started has nothing to stop. -/
def deleteMod (m : Mod) : Except Fault Unit :=
  match m.ipc with
  | none => .error .nullConnector
  | some _ => .ok ()

/-! ## The list -/

structure Mods where
  mods : List Mod
  /-- `m_mods_by_id` -/
  byId : Table Text Mod
  /-- `m_mods_lookup` -/
  byPath : Table Text Mod

/-- One turn of the loop over the directory, with the mod that is listed. -/
def visit (s : Setup) (e : Entry) : Except Fault (Option Mod) :=
  if ¬ e.isDirectory then .ok none
  else match newMod s e with
    | .error fault => .error fault
    | .ok m =>
      if ¬ m.enabled then (deleteMod m).map fun _ => none
      else if ¬ m.loaded then .ok none
      else .ok (some m)

def listMods (s : Setup) : List Entry → Except Fault (List Mod)
  | [] => .ok []
  | e :: rest => match visit s e with
    | .error fault => .error fault
    | .ok found => (listMods s rest).map fun mods => found.toList ++ mods

/-- The lookups; of two mods with one path the first is found, and of two with one id the last. -/
def populate (mods : List Mod) : Mods where
  mods
  byId := mods.foldl (fun table m => table.insert m.id m) ∅
  byPath := mods.foldl
    (fun table m => if (table.lookup m.path).isSome then table else table.insert m.path m) ∅

/-- `find_modules`; mods with one id are left as they were found. -/
def findModules (s : Setup) (directory : Directory) : Except Fault Mods :=
  (listMods s directory.entries).map fun mods =>
    populate (mods.mergeSort fun m1 m2 => decide (¬ m2.id < m1.id))

/-! ## What a file has to say -/

section requirements
variable (conf : Json)

/-- The text of a key; empty where there is none. -/
def textOf (key : Text) : Text := ((conf.find key).bind Json.string?).getD []

def TextIfPresent (key : Text) : Prop :=
  ∀ value, conf.find key = some value → value.string?.isSome

def TextPresent (key : Text) : Prop := ((conf.find key).bind Json.string?).isSome

/-- What the loader checks. -/
structure Checked : Prop where
  id : TextIfPresent conf "id"
  path : TextIfPresent conf "path"
  name : TextPresent conf "name"
  version : TextIfPresent conf "version"
  description : TextPresent conf "description"
  connectorUri : TextIfPresent conf "connector_uri"
  connector : TextPresent conf "connector"
  address : textOf conf "connector" ∈ [lit "http", lit "https"] → textOf conf "connector_uri" ≠ []
  enabled : ∀ value, conf.find "enabled" = some value → (enabledValue? value).isSome
  icon : ∀ value, conf.find "icon" = some value → (∃ icon, value = .string icon) ∨ value = .null
  access : ∀ value, conf.find "access" = some value →
    (∃ text, value = .string text) ∨ ∃ open_, value = .bool open_
  dataDir : TextIfPresent conf "data_dir"

/-- Two numbers with a point between them, "NN.nn". -/
def IsVersion (text : Text) : Prop :=
  ∃ major minor : Text, text = major ++ 46 :: minor ∧ major ≠ [] ∧ minor ≠ [] ∧
    (∀ b ∈ major, isDigit b = true) ∧ ∀ b ∈ minor, isDigit b = true

/-- What is documented for a file: what is checked, the kinds of connectors there are, and the
form of a version. -/
structure Meets : Prop extends Checked conf where
  kind : textOf conf "connector" ∈ [lit "shared_object", lit "http", lit "https"]
  form : ∀ text, (conf.find "version").bind Json.string? = some text → IsVersion text

/-- What `enabled` says. -/
def isEnabled : Bool := ((conf.find "enabled").bind enabledValue?).getD false

/-- A connector can be made for the file. -/
def Connects : Prop :=
  textOf conf "connector" = lit "shared_object" ∨
    textOf conf "connector" ∈ [lit "http", lit "https"] ∧ textOf conf "connector_uri" ≠ []

/-- A version begins with a number that an `int` can hold. -/
def VersionReads : Prop :=
  ∀ text, (conf.find "version").bind Json.string? = some text →
    ∃ n, strtolValue (cstr text) = some n ∧ -2147483648 ≤ n ∧ n ≤ 2147483647

end requirements

/-- The object in a file. -/
def objectIn (s : Setup) : ConfigFile → Option Json
  | .text content => match s.parse content with
    | .ok conf => if conf.isObject then some conf else none
    | .error _ => none
  | _ => none

/-- The directory leads to a mod that is right, or to none: its file has an object with a version
that can be read. A mod that is not enabled has a connector, and one that passes the checks meets
the rest of the requirements. -/
def Fine (s : Setup) (e : Entry) : Prop :=
  ∃ conf, objectIn s e.config = some conf ∧ VersionReads conf ∧
    (isEnabled conf = false → Connects conf) ∧
    (isEnabled conf = true → Checked conf → Meets conf)

/-- A mod as it has to be in the list. -/
structure Usable (m : Mod) : Prop where
  loaded : m.loaded = true
  ipc : m.ipc.isSome
  canAccess : m.canAccess.isSome

/-- Loading returns; what is listed is usable, and nothing is listed whose file does not meet the
requirements. -/
def Loads (s : Setup) (directory : Directory) : Prop :=
  ∃ mods, findModules s directory = .ok mods ∧
    ∀ m ∈ mods.mods, Usable m ∧ ∀ e ∈ directory.entries, e.name = m.dataDir →
      ∃ conf, objectIn s e.config = some conf ∧ Meets conf

/-! ## Steps of the loader -/

/-- A step of the loader that records an error unless what it reads is right. -/
structure Reads (right : Prop) (m after : Mod) : Prop where
  dataDir : after.dataDir = m.dataDir
  error : after.error = [] ↔ m.error = [] ∧ right
  marked : (m.error ≠ [] → m.loaded = false) → after.error ≠ [] → after.loaded = false

/-- The fields that only one step each sets. -/
structure Leaves (m after : Mod) : Prop where
  enabled : after.enabled = m.enabled
  ipc : after.ipc = m.ipc
  canAccess : after.canAccess = m.canAccess

theorem Leaves.rfl {m : Mod} : Leaves m m := ⟨Eq.refl _, Eq.refl _, Eq.refl _⟩

theorem Leaves.trans {a b c : Mod} (first : Leaves a b) (second : Leaves b c) : Leaves a c :=
  ⟨second.enabled.trans first.enabled, second.ipc.trans first.ipc,
    second.canAccess.trans first.canAccess⟩

theorem Reads.trans {p q : Prop} {a b c : Mod} (first : Reads p a b) (second : Reads q b c) :
    Reads (p ∧ q) a c where
  dataDir := second.dataDir.trans first.dataDir
  error := by rw [second.error, first.error, and_assoc]
  marked := fun start => second.marked (first.marked start)

theorem Reads.iff {p q : Prop} {a b : Mod} (reads : Reads p a b) (same : p ↔ q) : Reads q a b :=
  ⟨reads.dataDir, by rw [reads.error, same], reads.marked⟩

theorem loadError_reads {right : Prop} (wrong : ¬ right) (message : Text) (m : Mod) :
    Reads right m (loadError message m) where
  dataDir := rfl
  error := by simp [loadError, wrong, show lit "\n" = [10] from rfl]
  marked := fun _ _ => rfl

theorem loadError_leaves (message : Text) (m : Mod) : Leaves m (loadError message m) :=
  ⟨rfl, rfl, rfl⟩

/-- A step that records nothing. -/
theorem reads_of_right {right : Prop} (right_ : right) {m after : Mod}
    (dataDir : after.dataDir = m.dataDir) (error : after.error = m.error)
    (loaded : after.loaded = m.loaded) : Reads right m after where
  dataDir
  error := by rw [error, and_iff_left right_]
  marked := by
    rw [error, loaded]
    exact id

section steps
variable {s : Setup} {conf : Json}

theorem textField_leaves {missing : Mod → Mod} (missing_ : ∀ m, Leaves m (missing m))
    (key message : Text) (set : Text → Metadata → Metadata) (m : Mod) :
    Leaves m (textField conf key message missing set m) := by
  unfold textField
  cases conf.find key with
  | none => exact missing_ m
  | some value =>
    cases text : value.string? with
    | none => simpa [text] using loadError_leaves message m
    | some text_ => simp only [text]; exact ⟨rfl, rfl, rfl⟩

theorem textField_reads {missing : Mod → Mod} {right : Prop} {key : Text} {m : Mod}
    (missing_ : conf.find key = none → Reads right m (missing m))
    (right_ : ∀ value, conf.find key = some value → (right ↔ value.string?.isSome))
    (message : Text) (set : Text → Metadata → Metadata) :
    Reads right m (textField conf key message missing set m) := by
  unfold textField
  cases found : conf.find key with
  | none => exact missing_ found
  | some value =>
    have right_ := right_ value found
    cases text : value.string? with
    | none =>
      simp only [text]
      exact loadError_reads (by simp [right_, text]) message m
    | some text_ =>
      simp only [text]
      exact reads_of_right (by simp [right_, text]) rfl rfl rfl

/-- A key that may be missing. -/
theorem textField_optional {missing : Mod → Mod}
    (missing_ : ∀ (right : Prop) (m : Mod), right → Reads right m (missing m))
    (key message : Text) (set : Text → Metadata → Metadata) (m : Mod) :
    Reads (TextIfPresent conf key) m (textField conf key message missing set m) := by
  refine textField_reads ?_ ?_ message set
  · intro none_
    exact missing_ _ m (by simp [TextIfPresent, none_])
  · intro value found
    simp [TextIfPresent, found]

theorem textField_required (key message text : Text) (set : Text → Metadata → Metadata) (m : Mod) :
    Reads (TextPresent conf key) m (textField conf key message (loadError text) set m) := by
  refine textField_reads ?_ ?_ message set
  · intro none_
    exact loadError_reads (by simp [TextPresent, none_]) text m
  · intro value found
    simp [TextPresent, found]

theorem loadId_spec (m : Mod) :
    Reads (TextIfPresent conf "id") m (loadId conf m) ∧ Leaves m (loadId conf m) :=
  ⟨textField_optional (fun _ _ holds => reads_of_right holds rfl rfl rfl) _ _ _ m,
    textField_leaves (fun _ => .rfl) _ _ _ m⟩

theorem loadPath_spec (m : Mod) :
    Reads (TextIfPresent conf "path") m (loadPath conf m) ∧ Leaves m (loadPath conf m) :=
  ⟨textField_optional (fun _ _ holds => reads_of_right holds rfl rfl rfl) _ _ _ m,
    textField_leaves (fun _ => .rfl) _ _ _ m⟩

theorem loadName_spec (m : Mod) :
    Reads (TextPresent conf "name") m (loadName conf m) ∧ Leaves m (loadName conf m) :=
  ⟨textField_required _ _ _ _ m, textField_leaves (loadError_leaves _) _ _ _ m⟩

theorem loadDescription_spec (m : Mod) :
    Reads (TextPresent conf "description") m (loadDescription conf m) ∧
      Leaves m (loadDescription conf m) :=
  ⟨textField_required _ _ _ _ m, textField_leaves (loadError_leaves _) _ _ _ m⟩

theorem loadDataDir_spec (m : Mod) :
    Reads (TextIfPresent conf "data_dir") m (loadDataDir s conf m) ∧
      Leaves m (loadDataDir s conf m) := by
  refine ⟨textField_optional ?_ _ _ _ m, textField_leaves ?_ _ _ _ m⟩
  · exact fun _ _ holds => reads_of_right holds rfl rfl rfl
  · exact fun _ => ⟨rfl, rfl, rfl⟩

theorem loadVersion_reads {m after : Mod} (read : loadVersion conf m = .ok after) :
    Reads (TextIfPresent conf "version") m after ∧ Leaves m after := by
  unfold loadVersion at read
  cases found : conf.find "version" with
  | none =>
    rw [found] at read
    cases read
    exact ⟨reads_of_right (by simp [TextIfPresent, found]) rfl rfl rfl, .rfl⟩
  | some value =>
    simp only [found] at read
    cases text : value.string? with
    | none =>
      simp only [text] at read
      cases read
      exact ⟨loadError_reads (by simp [TextIfPresent, found, text]) _ m, loadError_leaves _ m⟩
    | some text_ =>
      simp only [text] at read
      cases version : Version.ofText text_ with
      | error fault =>
        rw [version] at read
        cases read
      | ok version_ =>
        rw [version] at read
        cases read
        exact ⟨reads_of_right (by simp [TextIfPresent, found, text]) rfl rfl rfl, rfl, rfl, rfl⟩

/-- The connector that a step makes, as far as it is there. -/
structure Makes (made : Prop) (m after : Mod) : Prop where
  enabled : after.enabled = m.enabled
  canAccess : after.canAccess = m.canAccess
  ipc : m.ipc = none → (after.ipc.isSome ↔ made)

theorem Leaves.makes {made : Prop} {m after : Mod} (leaves : Leaves m after) (nothing : ¬ made) :
    Makes made m after where
  enabled := leaves.enabled
  canAccess := leaves.canAccess
  ipc := fun none_ => by simp [leaves.ipc, none_, nothing]

theorem loadConnectorUri_spec (m : Mod) :
    (loadConnectorUri conf m).1 = textOf conf "connector_uri" ∧
      Reads (TextIfPresent conf "connector_uri") m (loadConnectorUri conf m).2 ∧
      Leaves m (loadConnectorUri conf m).2 := by
  unfold loadConnectorUri textOf
  cases found : conf.find "connector_uri" with
  | none => exact ⟨rfl, reads_of_right (by simp [TextIfPresent, found]) rfl rfl rfl, .rfl⟩
  | some value =>
    cases text : value.string? with
    | none =>
      simp only [text, Option.bind_some, Option.getD_none]
      exact ⟨trivial, loadError_reads (by simp [TextIfPresent, found, text]) _ m,
        loadError_leaves _ m⟩
    | some uri =>
      simp only [text, Option.bind_some, Option.getD_some]
      exact ⟨trivial, reads_of_right (by simp [TextIfPresent, found, text]) rfl rfl rfl, .rfl⟩

theorem makeConnector_spec (kind uri : Text) (m : Mod) :
    Reads (kind ∈ [lit "http", lit "https"] → uri ≠ []) m (makeConnector s kind uri m) ∧
      Makes (kind = lit "shared_object" ∨ kind ∈ [lit "http", lit "https"] ∧ uri ≠ []) m
        (makeConnector s kind uri m) := by
  have other : ¬ (lit "shared_object" = lit "http" ∨ lit "shared_object" = lit "https") := by decide
  unfold makeConnector
  by_cases net : kind = lit "http" ∨ kind = lit "https"
  · have listed : kind ∈ [lit "http", lit "https"] := by simpa using net
    have shared : kind ≠ lit "shared_object" := by
      rintro rfl
      exact other net
    rw [if_pos net]
    by_cases empty : uri = []
    · rw [if_pos empty]
      exact ⟨loadError_reads (by simp [listed, empty]) _ m,
        (loadError_leaves _ m).makes (by simp [shared, empty])⟩
    · rw [if_neg empty]
      exact ⟨reads_of_right (fun _ => empty) rfl rfl rfl, rfl, rfl, by simp [listed, empty]⟩
  · have unlisted : kind ∉ [lit "http", lit "https"] := by simpa using net
    have right : kind ∈ [lit "http", lit "https"] → uri ≠ [] := fun listed => absurd listed unlisted
    rw [if_neg net]
    by_cases shared : kind = lit "shared_object"
    · rw [if_pos shared]
      exact ⟨reads_of_right right rfl rfl rfl, rfl, rfl, by simp [shared]⟩
    · rw [if_neg shared]
      exact ⟨reads_of_right right rfl rfl rfl, Leaves.rfl.makes (by simp [shared, unlisted])⟩

/-- Whether the connector and its address are right. -/
structure ConnectorRight (conf : Json) : Prop where
  connectorUri : TextIfPresent conf "connector_uri"
  connector : TextPresent conf "connector"
  address : textOf conf "connector" ∈ [lit "http", lit "https"] → textOf conf "connector_uri" ≠ []

theorem connectorRight_iff : ConnectorRight conf ↔ TextIfPresent conf "connector_uri" ∧
    TextPresent conf "connector" ∧
      (textOf conf "connector" ∈ [lit "http", lit "https"] → textOf conf "connector_uri" ≠ []) :=
  ⟨fun ⟨uri, connector, address⟩ => ⟨uri, connector, address⟩,
    fun ⟨uri, connector, address⟩ => ⟨uri, connector, address⟩⟩

theorem loadConnector_spec (m : Mod) :
    Reads (ConnectorRight conf) m (loadConnector s conf m) ∧
      Makes (Connects conf) m (loadConnector s conf m) := by
  obtain ⟨uri, reads, leaves⟩ := @loadConnectorUri_spec conf m
  -- without a text there is no kind
  have plain : ¬ [] = lit "shared_object" ∧ [] ∉ [lit "http", lit "https"] := by decide
  have nothing (empty : textOf conf "connector" = []) : ¬ Connects conf := by
    rw [Connects, empty]
    exact not_or.mpr ⟨plain.1, fun net => plain.2 net.1⟩
  unfold loadConnector
  cases found : conf.find "connector" with
  | none =>
    have empty : textOf conf "connector" = [] := by simp [textOf, found]
    have error := @loadError_reads (TextPresent conf "connector" ∧
      (textOf conf "connector" ∈ [lit "http", lit "https"] → textOf conf "connector_uri" ≠ []))
      (by simp [TextPresent, found]) (lit "module.json: missing key: connector")
      (loadConnectorUri conf m).2
    exact ⟨(reads.trans error).iff connectorRight_iff.symm,
      (leaves.trans (loadError_leaves _ _)).makes (nothing empty)⟩
  | some value =>
    cases text : value.string? with
    | none =>
      have empty : textOf conf "connector" = [] := by simp [textOf, found, text]
      have error (message : Text) := @loadError_reads (TextPresent conf "connector" ∧
        (textOf conf "connector" ∈ [lit "http", lit "https"] → textOf conf "connector_uri" ≠ []))
        (by simp [TextPresent, found, text]) message (loadConnectorUri conf m).2
      simp only [text]
      exact ⟨(reads.trans (error _)).iff connectorRight_iff.symm,
        (leaves.trans (loadError_leaves _ _)).makes (nothing empty)⟩
    | some kind =>
      have kind_ : textOf conf "connector" = kind := by simp [textOf, found, text]
      have present : TextPresent conf "connector" := by simp [TextPresent, found, text]
      obtain ⟨connects, makes⟩ := makeConnector_spec (s := s) kind (loadConnectorUri conf m).1
        (loadConnectorUri conf m).2
      simp only [text]
      refine ⟨(reads.trans connects).iff ?_, ?_⟩
      · rw [connectorRight_iff, kind_, uri, and_iff_right present]
      · refine ⟨makes.enabled.trans leaves.enabled, makes.canAccess.trans leaves.canAccess, ?_⟩
        intro none_
        rw [makes.ipc (leaves.ipc.trans none_), Connects, kind_, uri]

theorem loadEnabled_spec (m : Mod) :
    Reads (∀ value, conf.find "enabled" = some value → (enabledValue? value).isSome) m
      (loadEnabled conf m) ∧
    (loadEnabled conf m).ipc = m.ipc ∧ (loadEnabled conf m).canAccess = m.canAccess ∧
      (m.enabled = false → (loadEnabled conf m).enabled = isEnabled conf) := by
  unfold loadEnabled isEnabled
  cases found : conf.find "enabled" with
  | none => exact ⟨reads_of_right (by simp) rfl rfl rfl, rfl, rfl, fun _ => rfl⟩
  | some value =>
    cases enabled : enabledValue? value with
    | none =>
      simp only [enabled]
      exact ⟨loadError_reads (by simp [enabled]) _ m, rfl, rfl, by simp [loadError, enabled]⟩
    | some enabled_ =>
      simp only [enabled]
      exact ⟨reads_of_right (by simp [enabled]) rfl rfl rfl, trivial, trivial, by simp [enabled]⟩

theorem loadIcon_spec (m : Mod) :
    Reads (∀ value, conf.find "icon" = some value →
      (∃ icon, value = .string icon) ∨ value = .null) m (loadIcon conf m) ∧
    Leaves m (loadIcon conf m) := by
  unfold loadIcon
  cases found : conf.find "icon" with
  | none => exact ⟨reads_of_right (by simp) rfl rfl rfl, .rfl⟩
  | some value =>
    cases value with
    | string icon | null => exact ⟨reads_of_right (by simp) rfl rfl rfl, rfl, rfl, rfl⟩
    | bool value | integer value | unsigned value | float value | array value | object value =>
      exact ⟨loadError_reads (by simp) _ m, loadError_leaves _ m⟩

theorem loadAccess_spec (m : Mod) :
    Reads (∀ value, conf.find "access" = some value →
      (∃ text, value = .string text) ∨ ∃ open_, value = .bool open_) m (loadAccess conf m) ∧
    (loadAccess conf m).ipc = m.ipc ∧ (loadAccess conf m).enabled = m.enabled ∧
      ((∀ value, conf.find "access" = some value →
        (∃ text, value = .string text) ∨ ∃ open_, value = .bool open_) →
          (loadAccess conf m).canAccess.isSome) := by
  unfold loadAccess
  cases found : conf.find "access" with
  | none => exact ⟨reads_of_right (by simp) rfl rfl rfl, rfl, rfl, fun _ => rfl⟩
  | some value =>
    cases value with
    | string value | bool value =>
      exact ⟨reads_of_right (by simp) rfl rfl rfl, rfl, rfl, fun _ => rfl⟩
    | null | integer value | unsigned value | float value | array value | object value =>
      exact ⟨loadError_reads (by simp) _ m, rfl, rfl, by simp⟩

end steps

/-! ## Mods as they are loaded -/

theorem ofText_ok_iff (text : Text) : (∃ version, Version.ofText text = .ok version) ↔
    ∃ n, strtolValue (cstr text) = some n ∧ -2147483648 ≤ n ∧ n ≤ 2147483647 := by
  have whole : (∃ version, Version.ofText text = .ok version) ↔ ∃ n, stoi text = .ok n := by
    unfold Version.ofText
    cases stoi text with
    | error fault => simp [bind, Except.bind]
    | ok major =>
      refine ⟨fun _ => ⟨major, rfl⟩, fun _ => ?_⟩
      simp only [bind, Except.bind]
      split
      · exact ⟨_, rfl⟩
      · exact ⟨_, rfl⟩
  rw [whole, stoi]
  cases strtolValue (cstr text) with
  | none => simp
  | some n =>
    by_cases fits : -2147483648 ≤ n ∧ n ≤ 2147483647
    · simp [fits]
    · simp [fits]

theorem loadVersion_ok_iff {conf : Json} (m : Mod) :
    (∃ after, loadVersion conf m = .ok after) ↔ VersionReads conf := by
  unfold loadVersion VersionReads
  cases found : conf.find "version" with
  | none => simp
  | some value =>
    cases text : value.string? with
    | none => simp [text]
    | some text_ =>
      simp only [text, Option.bind_some, Option.some.injEq, forall_eq']
      rw [← ofText_ok_iff]
      cases Version.ofText text_ with
      | error fault => simp [Except.map]
      | ok version => simp [Except.map]

theorem load_ok_iff {s : Setup} {conf : Json} (m : Mod) :
    (∃ after, load s conf m = .ok after) ↔ VersionReads conf := by
  rw [← loadVersion_ok_iff (loadName conf (loadPath conf (loadId conf m)))]
  unfold load
  cases loadVersion conf (loadName conf (loadPath conf (loadId conf m))) with
  | error fault => simp [bind, Except.bind]
  | ok after => simp [bind, Except.bind, pure, Except.pure]

/-- What becomes of a mod that is loaded from an object. -/
structure LoadedFrom (conf : Json) (m after : Mod) : Prop where
  dataDir : after.dataDir = m.dataDir
  loaded : after.loaded = true ↔ m.error = [] ∧ Checked conf
  enabled : after.enabled = isEnabled conf
  ipc : after.ipc.isSome ↔ Connects conf
  canAccess : Checked conf → after.canAccess.isSome

theorem finish_loaded {m : Mod} (marked : m.error ≠ [] → m.loaded = false) :
    (finish m).loaded = true ↔ m.error = [] := by
  unfold finish
  by_cases none_ : m.error = []
  · simp [none_]
  · simp [none_, marked none_]

theorem finish_leaves (m : Mod) : Leaves m (finish m) ∧ (finish m).dataDir = m.dataDir := by
  unfold finish
  split
  · exact ⟨⟨rfl, rfl, rfl⟩, rfl⟩
  · exact ⟨.rfl, rfl⟩

theorem load_spec {s : Setup} {conf : Json} {m after : Mod} (enabled : m.enabled = false)
    (ipc : m.ipc = none) (marked : m.error ≠ [] → m.loaded = false)
    (loaded : load s conf m = .ok after) : LoadedFrom conf m after := by
  unfold load at loaded
  cases version : loadVersion conf (loadName conf (loadPath conf (loadId conf m))) with
  | error fault =>
    rw [version] at loaded
    cases loaded
  | ok versioned =>
    rw [version] at loaded
    obtain rfl := Except.ok.inj loaded
    obtain ⟨id_, leaves⟩ := @loadId_spec conf m
    obtain ⟨path, leaves'⟩ := @loadPath_spec conf (loadId conf m)
    obtain ⟨name, leaves_⟩ := @loadName_spec conf (loadPath conf (loadId conf m))
    obtain ⟨version_, later⟩ := loadVersion_reads version
    obtain ⟨description, later'⟩ := @loadDescription_spec conf versioned
    obtain ⟨connector, makes⟩ :=
      @loadConnector_spec s conf (loadDescription conf versioned)
    generalize loadConnector s conf (loadDescription conf versioned) = connected at *
    obtain ⟨enabled_, ipc_, access_, sets⟩ := @loadEnabled_spec conf connected
    generalize loadEnabled conf connected = switched at *
    obtain ⟨icon, leaves_icon⟩ := @loadIcon_spec conf switched
    generalize loadIcon conf switched = decorated at *
    obtain ⟨access, ipc', enabled', opens⟩ := @loadAccess_spec conf decorated
    generalize loadAccess conf decorated = guarded at *
    obtain ⟨dataDir, last⟩ := @loadDataDir_spec s conf guarded
    obtain ⟨ends, dir⟩ := finish_leaves (loadDataDir s conf guarded)
    have begun := (((leaves.trans leaves').trans leaves_).trans later).trans later'
    have all := ((((((((id_.trans path).trans name).trans version_).trans description).trans
      connector).trans enabled_).trans icon).trans access).trans dataDir
    have connected_ : (finish (loadDataDir s conf guarded)).ipc = connected.ipc :=
      ends.ipc.trans (last.ipc.trans (ipc'.trans (leaves_icon.ipc.trans ipc_)))
    refine ⟨dir.trans all.dataDir, ?_, ?_, ?_, ?_⟩
    · rw [finish_loaded (all.marked marked), all.error]
      refine and_congr_right fun _ => ⟨?_, ?_⟩
      · rintro ⟨⟨⟨⟨⟨⟨⟨⟨⟨id, path⟩, name⟩, version⟩, description⟩, uri, connector, address⟩,
          enabled⟩, icon⟩, access⟩, dataDir⟩
        exact ⟨id, path, name, version, description, uri, connector, address, enabled, icon, access,
          dataDir⟩
      · rintro ⟨id, path, name, version, description, uri, connector, address, enabled, icon,
          access, dataDir⟩
        exact ⟨⟨⟨⟨⟨⟨⟨⟨⟨id, path⟩, name⟩, version⟩, description⟩, uri, connector, address⟩, enabled⟩,
          icon⟩, access⟩, dataDir⟩
    · rw [ends.enabled, last.enabled, enabled', leaves_icon.enabled]
      exact sets (makes.enabled.trans (begun.enabled.trans enabled))
    · rw [connected_]
      exact makes.ipc (begun.ipc.trans ipc)
    · intro checked
      rw [ends.canAccess, last.canAccess]
      exact opens checked.access

/-! ## Directories -/

section directories
variable {s : Setup}

theorem parseFile_of_object {file : ConfigFile} {conf : Json} (object : objectIn s file = some conf)
    (m : Mod) : ∃ config, parseFile s file m = .ok (conf, { m with config }) := by
  cases file with
  | missing => cases object
  | unreadable => cases object
  | text content =>
    unfold objectIn at object
    unfold parseFile
    cases parsed : s.parse content with
    | error e =>
      simp only [parsed] at object
      cases object
    | ok json =>
      simp only [parsed] at object ⊢
      split at object
      next isObject =>
        cases object
        exact ⟨_, if_pos isObject⟩
      · cases object

theorem parseFile_of_no_object {file : ConfigFile} (nothing : objectIn s file = none) (m : Mod) :
    (∃ fault, parseFile s file m = .error fault) ∨
      ∃ config message, parseFile s file m = .ok (.null, loadError message { m with config }) := by
  cases file with
  | missing => exact .inr ⟨m.config, lit "missing module.json", rfl⟩
  | unreadable => exact .inl ⟨.fileSystem, rfl⟩
  | text content =>
    unfold objectIn at nothing
    unfold parseFile
    cases parsed : s.parse content with
    | error e =>
      cases e with
      | invalid what =>
        simp only [parsed]
        exact .inr ⟨_, _, rfl⟩
      | outOfRange =>
        simp only [parsed]
        exact .inl ⟨.jsonOutOfRange, rfl⟩
    | ok json =>
      simp only [parsed] at nothing ⊢
      split at nothing
      · cases nothing
      next other => exact .inr ⟨_, _, if_neg other⟩

/-- Without an object in the file nothing is enabled, and nothing connects. -/
theorem newMod_of_no_object {e : Entry} (nothing : objectIn s e.config = none) :
    (∃ fault, newMod s e = .error fault) ∨
      ∃ m, newMod s e = .ok m ∧ m.enabled = false ∧ m.ipc = none := by
  unfold newMod
  rcases parseFile_of_no_object nothing (freshMod e) with
    ⟨fault, threw⟩ | ⟨config, message, parsed⟩
  · exact .inl ⟨fault, by rw [threw]; rfl⟩
  · rw [parsed]
    have reads : VersionReads .null := by
      intro text found
      cases found
    obtain ⟨m, loaded⟩ :=
      (load_ok_iff (s := s) (loadError message { freshMod e with config })).mpr reads
    have spec := load_spec rfl rfl (fun _ => rfl) loaded
    have unconnected : ¬ Connects .null := by
      have kinds : textOf .null "connector" = [] := rfl
      rw [Connects, kinds]
      rintro (shared | ⟨net, -⟩)
      · exact absurd shared (by decide)
      · exact absurd net (by decide)
    refine .inr ⟨m, loaded, spec.enabled, ?_⟩
    rwa [← spec.ipc, Option.not_isSome_iff_eq_none] at unconnected

theorem newMod_of_object {e : Entry} {conf : Json} (object : objectIn s e.config = some conf) :
    ((∃ m, newMod s e = .ok m) ↔ VersionReads conf) ∧
      ∀ m, newMod s e = .ok m → m.dataDir = e.name ∧ (m.loaded = true ↔ Checked conf) ∧
        m.enabled = isEnabled conf ∧ (m.ipc.isSome ↔ Connects conf) ∧
          (Checked conf → m.canAccess.isSome) := by
  obtain ⟨config, parsed⟩ := parseFile_of_object object (freshMod e)
  have new : newMod s e = load s conf { freshMod e with config } := by
    unfold newMod
    rw [parsed]
    rfl
  rw [new]
  refine ⟨load_ok_iff _, ?_⟩
  intro m loaded
  have spec := load_spec rfl rfl (fun wrong => absurd rfl wrong) loaded
  refine ⟨spec.dataDir, ?_, spec.enabled, spec.ipc, spec.canAccess⟩
  rw [spec.loaded]
  exact and_iff_right rfl

/-- A turn of the loop that leaves a list as it has to be. -/
def Visited (s : Setup) (e : Entry) : Prop :=
  ∃ found, visit s e = .ok found ∧ ∀ m ∈ found, Usable m ∧ m.dataDir = e.name ∧
    ∃ conf, objectIn s e.config = some conf ∧ Meets conf

theorem connects_of_meets {conf : Json} (meets : Meets conf) : Connects conf := by
  have kind := meets.kind
  rw [List.mem_cons] at kind
  rcases kind with shared | net
  · exact .inl shared
  · exact .inr ⟨net, meets.address net⟩

theorem visit_threw {e : Entry} (dir : e.isDirectory = true) {fault : Fault}
    (threw : newMod s e = .error fault) : visit s e = .error fault := by
  simp [visit, dir, threw]

theorem not_visited_of_threw {e : Entry} {fault : Fault} (threw : visit s e = .error fault) :
    ¬ Visited s e := by
  rintro ⟨found, listed, -⟩
  rw [threw] at listed
  cases listed

/-- A mod that is deleted needs its connector. -/
theorem visited_of_disabled {e : Entry} {m : Mod} (dir : e.isDirectory = true)
    (new : newMod s e = .ok m) (disabled : m.enabled = false) : Visited s e ↔ m.ipc.isSome := by
  have turn : visit s e = (deleteMod m).map fun _ => none := by simp [visit, dir, new, disabled]
  cases ipc : m.ipc with
  | none =>
    have threw : visit s e = .error .nullConnector := by
      rw [turn, deleteMod, ipc]
      rfl
    simp [not_visited_of_threw threw]
  | some connector =>
    have gone : visit s e = .ok none := by
      rw [turn, deleteMod, ipc]
      rfl
    simp [Visited, gone]

theorem visited_of_enabled {e : Entry} {m : Mod} (dir : e.isDirectory = true)
    (new : newMod s e = .ok m) (enabled : m.enabled = true) :
    Visited s e ↔ (m.loaded = true → Usable m ∧ m.dataDir = e.name ∧
      ∃ conf, objectIn s e.config = some conf ∧ Meets conf) := by
  cases loaded : m.loaded with
  | false =>
    have skipped : visit s e = .ok none := by simp [visit, dir, new, enabled, loaded]
    simp [Visited, skipped]
  | true =>
    have listed : visit s e = .ok (some m) := by simp [visit, dir, new, enabled, loaded]
    simp [Visited, listed]

/-- A directory is fine exactly when its turn is right. -/
theorem visited_iff (e : Entry) : Visited s e ↔ (e.isDirectory = true → Fine s e) := by
  cases dir : e.isDirectory with
  | false =>
    have skipped : visit s e = .ok none := by simp [visit, dir]
    simp [Visited, skipped]
  | true =>
    simp only [true_imp_iff]
    cases object : objectIn s e.config with
    | none =>
      have unfit : ¬ Fine s e := by
        rintro ⟨conf, found, -⟩
        rw [object] at found
        cases found
      rcases newMod_of_no_object object with ⟨fault, threw⟩ | ⟨m, new, disabled, ipc⟩
      · simp [unfit, not_visited_of_threw (visit_threw dir threw)]
      · simp [unfit, visited_of_disabled dir new disabled, ipc]
    | some conf =>
      obtain ⟨reads, spec⟩ := newMod_of_object object
      have fine : Fine s e ↔ VersionReads conf ∧ (isEnabled conf = false → Connects conf) ∧
          (isEnabled conf = true → Checked conf → Meets conf) := by
        simp [Fine, object]
      rw [fine]
      cases new : newMod s e with
      | error fault =>
        have unread : ¬ VersionReads conf := by
          rw [← reads, new]
          simp
        simp [unread, not_visited_of_threw (visit_threw dir new)]
      | ok m =>
        obtain ⟨name, loaded, enabled, ipc, canAccess⟩ := spec m new
        rw [and_iff_right (reads.mp ⟨m, new⟩), ← enabled]
        cases switched : m.enabled with
        | false => simp [visited_of_disabled dir new switched, ipc]
        | true =>
          rw [visited_of_enabled dir new switched, loaded]
          simp only [reduceCtorEq, false_imp_iff, true_and, true_imp_iff]
          refine imp_congr_right fun checked => ⟨?_, ?_⟩
          · rintro ⟨-, -, other, found, meets⟩
            cases object.symm.trans found
            exact meets
          · intro meets
            exact ⟨⟨loaded.mpr checked, ipc.mpr (connects_of_meets meets), canAccess checked⟩, name,
              conf, object, meets⟩

theorem visit_name {e : Entry} {m : Mod} (found : visit s e = .ok (some m)) :
    m.dataDir = e.name := by
  unfold visit at found
  split at found
  · cases found
  · cases new : newMod s e with
    | error fault =>
      rw [new] at found
      cases found
    | ok other =>
      simp only [new] at found
      split at found
      · cases gone : deleteMod other with
        | error fault =>
          rw [gone] at found
          cases found
        | ok nothing =>
          rw [gone] at found
          cases found
      next enabled =>
        split at found
        · cases found
        · cases found
          cases object : objectIn s e.config with
          | none =>
            rcases newMod_of_no_object object with ⟨fault, threw⟩ | ⟨m', new', disabled, -⟩
            · rw [threw] at new
              cases new
            · cases new.symm.trans new'
              exact absurd disabled (by simpa using enabled)
          | some conf => exact ((newMod_of_object object).2 m new).1

/-- The list has what the turns find. -/
theorem mem_listMods_iff {entries : List Entry} {mods : List Mod}
    (listed : listMods s entries = .ok mods) :
    (∀ e ∈ entries, ∃ found, visit s e = .ok found) ∧
      ∀ m, m ∈ mods ↔ ∃ e ∈ entries, visit s e = .ok (some m) := by
  induction entries generalizing mods with
  | nil =>
    cases listed
    simp
  | cons e rest ih =>
    unfold listMods at listed
    cases turn : visit s e with
    | error fault =>
      rw [turn] at listed
      cases listed
    | ok found =>
      simp only [turn] at listed
      cases later : listMods s rest with
      | error fault =>
        rw [later] at listed
        cases listed
      | ok more =>
        rw [later] at listed
        cases listed
        obtain ⟨turns, members⟩ := ih later
        refine ⟨List.forall_mem_cons.mpr ⟨⟨found, turn⟩, turns⟩, ?_⟩
        intro m
        rw [List.mem_append, members, List.exists_mem_cons_iff, turn]
        simp

theorem listMods_total {entries : List Entry}
    (turns : ∀ e ∈ entries, ∃ found, visit s e = .ok found) :
    ∃ mods, listMods s entries = .ok mods := by
  induction entries with
  | nil => exact ⟨[], rfl⟩
  | cons e rest ih =>
    obtain ⟨⟨found, turn⟩, turns⟩ := List.forall_mem_cons.mp turns
    obtain ⟨mods, later⟩ := ih turns
    refine ⟨found.toList ++ mods, ?_⟩
    rw [listMods, turn, later]
    rfl

end directories

def latestFile : Text := lit "\x7b\"version\": \"latest\"\x7d"

def demoSetup : Setup where
  dataDir := "/srv/fiy"
  parse := fun content =>
    if content = latestFile then .ok (.object [(lit "version", .string (lit "latest"))])
    else .error (.invalid "parse error")

def noFile : Directory := ⟨[⟨lit "old", true, .missing⟩], by decide⟩

def latest : Directory := ⟨[⟨lit "new", true, .text latestFile⟩], by decide⟩

end ModLoading
