import Fiy.DecimalTexts
import Fiy.ModLoading

/-!
# Writing `module.json`

`Mod::json` brings the file of a mod up to date, and `Mod::save` puts it in its place. Between
them they open the file for writing before it is read. How a mod is loaded from what they leave
is here: the text of `json` gives the mod back, and what `save` writes never does.
-/

namespace ModFiles

open ByteStrings DecimalTexts RepoDtos ModLoading
open ModAccess (AccessChecker parseAccessChecker)

/-! ## Fields of an object -/

/-- `json[key] = value` in the fields of an object, which are in order. -/
def insertField (key : Text) (value : Json) : List (Text × Json) → List (Text × Json)
  | [] => [(key, value)]
  | field :: rest =>
    if field.1 = key then (key, value) :: rest
    else if key < field.1 then (key, value) :: field :: rest
    else field :: insertField key value rest

/-- `json[key] = value`; null becomes an object. -/
def setField (key : Text) (value : Json) : Json → Json
  | .object fields => .object (insertField key value fields)
  | .null => .object [(key, value)]
  | other => other

/-- Values with nothing inside. -/
inductive Scalar : Json → Prop
  | string (text : Text) : Scalar (.string text)
  | bool (value : Bool) : Scalar (.bool value)

/-- What is read from a file, or nothing, with keys that are set. -/
inductive Edited (parse : Text → Except ParseError Json) : Json → Prop
  | read {content : Text} {conf : Json} (parsed : parse content = .ok conf)
    (isObject : conf.isObject = true) : Edited parse conf
  | nothing : Edited parse .null
  | set {conf : Json} (key : Text) {value : Json} (edited : Edited parse conf)
    (scalar : Scalar value) : Edited parse (setField key value conf)

/-- The host, with what writes a value as text. It refuses texts that are not UTF-8, and what it
writes is read as the same value again; nothing is read from an empty text. -/
structure Writer extends Setup where
  /-- `dump`; `none` when it throws. -/
  dump : Json → Option Text
  parse_dump : ∀ {value text}, Edited parse value → value.isObject = true →
    dump value = some text → parse text = .ok value
  parse_nil : ∃ what, parse [] = .error (.invalid what)

/-! ## Mods -/

/-- `str` -/
def Version.str (version : Version) : Text :=
  version.majorString ++ lit "." ++ decimalInt version.minor

/-- `uri` -/
def Connector.uri : Connector → Text
  | .dll uri | .net uri _ => uri

/-- The keys that `json` sets. -/
def updates (m : Mod) (connector : Connector) : List (Text × Json) :=
  [("id", .string m.id), ("path", .string m.path), ("version", .string (Version.str m.version)),
    ("name", .string m.name), ("description", .string m.description), ("icon", .string m.icon),
    ("enabled", .bool m.enabled), ("connector_uri", .string (Connector.uri connector))]

def updated (conf : Json) (m : Mod) (connector : Connector) : Json :=
  (updates m connector).foldl (fun conf field => setField field.1 field.2 conf) conf

inductive SaveFault
  | load (fault : Fault)
  /-- `nlohmann::json::type_error` -/
  | typeError
  deriving DecidableEq, Repr

section save
variable (w : Writer)

/-- `json`, with the mod as it is afterwards. -/
def json (file : ConfigFile) (m : Mod) : Mod × Except SaveFault Text :=
  match parseFile w.toSetup file m with
  | .error fault => (m, .error (.load fault))
  | .ok (conf, m) => match m.ipc with
    | none => (m, .error (.load .nullConnector))
    | some connector => match w.dump (updated conf m connector) with
      | none => (m, .error .typeError)
      | some text => (m, .ok text)

/-- What a call leaves. -/
structure Saved where
  file : ConfigFile
  mod : Mod
  threw : Option SaveFault
  deriving DecidableEq, Repr

/-- `save`. A file that can be opened for writing is empty from then on. -/
def save (writable : Bool) (file : ConfigFile) (m : Mod) : Saved :=
  let opened := if writable then .text [] else file
  match json w opened m with
  | (m, .error fault) => ⟨opened, m, some fault⟩
  | (m, .ok text) => ⟨if writable then .text text else file, m, none⟩

/-- `set_enabled` -/
def setEnabled (enabled writable : Bool) (file : ConfigFile) (m : Mod) : Saved :=
  if m.enabled = enabled then ⟨file, m, none⟩ else save w writable file { m with enabled }

end save

/-! ## Setting keys -/

theorem lookup_insertField (key key' : Text) (value : Json) (fields : List (Text × Json)) :
    (insertField key value fields).lookup key' =
      if key' = key then some value else fields.lookup key' := by
  induction fields with
  | nil =>
    by_cases same : key' = key
    · simp [insertField, same]
    · simp [insertField, same, List.lookup_cons, beq_false_of_ne same]
  | cons field rest ih =>
    obtain ⟨name, old⟩ := field
    rw [insertField]
    split
    next here =>
      cases here
      by_cases same : key' = name
      · simp [same]
      · simp [same, List.lookup_cons, beq_false_of_ne same]
    next other =>
      split
      · by_cases same : key' = key
        · simp [same]
        · simp only [if_neg same, List.lookup_cons, beq_false_of_ne same]
      · rw [List.lookup_cons, ih, List.lookup_cons]
        by_cases same : key' = key
        · cases same
          simp [beq_false_of_ne (Ne.symm other)]
        · simp only [if_neg same]

theorem find_setField {conf : Json} (fits : conf.isObject = true ∨ conf = .null)
    (key key' : Text) (value : Json) :
    (setField key value conf).find key' = if key' = key then some value else conf.find key' := by
  cases conf with
  | object fields => exact lookup_insertField key key' value fields
  | null =>
    by_cases same : key' = key
    · simp [setField, Json.find, same]
    · simp [setField, Json.find, same, List.lookup_cons, beq_false_of_ne same]
  | bool | integer | unsigned | float | string | array => simp [Json.isObject] at fits

theorem isObject_setField {conf : Json} (fits : conf.isObject = true ∨ conf = .null) (key : Text)
    (value : Json) : (setField key value conf).isObject = true := by
  cases conf with
  | object | null => rfl
  | bool | integer | unsigned | float | string | array => simp [Json.isObject] at fits

/-- Of keys that are set once each, every one has its value, and others are as they were. -/
theorem setFields_spec {parse : Text → Except ParseError Json} {fields : List (Text × Json)}
    (once : (fields.map Prod.fst).Nodup) (scalars : ∀ field ∈ fields, Scalar field.2) {conf : Json}
    (fits : conf.isObject = true ∨ conf = .null) (edited : Edited parse conf) :
    let after := fields.foldl (fun conf field => setField field.1 field.2 conf) conf
    (∀ key, after.find key = (fields.lookup key).or (conf.find key)) ∧ Edited parse after ∧
      (fields ≠ [] ∨ conf.isObject = true → after.isObject = true) := by
  induction fields generalizing conf with
  | nil => exact ⟨fun _ => rfl, edited, by simp⟩
  | cons field rest ih =>
    obtain ⟨key, value⟩ := field
    rw [List.map_cons, List.nodup_cons] at once
    obtain ⟨scalar, scalars⟩ := List.forall_mem_cons.mp scalars
    obtain ⟨finds, edited, object⟩ := ih once.2 scalars
      (.inl (isObject_setField fits key value)) (edited.set key scalar)
    refine ⟨fun key' => ?_, edited, fun _ => object (.inr (isObject_setField fits key value))⟩
    rw [List.foldl_cons, finds key', find_setField fits, List.lookup_cons]
    by_cases same : key' = key
    · have later : rest.lookup key' = none := by
        rw [List.lookup_eq_none_iff]
        intro field listed
        rw [bne_iff_ne]
        rintro rfl
        exact once.1 (List.mem_map.mpr ⟨field, listed, same⟩)
      rw [later, if_pos same, same, beq_self_eq_true]
      rfl
    · simp only [if_neg same, beq_false_of_ne same]

section written
variable {w : Writer} {conf : Json} {m : Mod} {connector : Connector}

theorem updates_once : ((updates m connector).map Prod.fst).Nodup := by
  simp only [updates, List.map_cons, List.map_nil]
  decide

theorem updates_scalars : ∀ field ∈ updates m connector, Scalar field.2 := by
  simp only [updates, List.forall_mem_cons]
  exact ⟨.string _, .string _, .string _, .string _, .string _, .string _, .bool _, .string _,
    by simp⟩

/-- What `json` writes is read as what was brought up to date. -/
theorem parse_updated {text : Text} (fits : conf.isObject = true ∨ conf = .null)
    (edited : Edited w.parse conf) (dumped : w.dump (updated conf m connector) = some text) :
    objectIn w.toSetup (.text text) = some (updated conf m connector) ∧
      ∀ key, (updated conf m connector).find key =
        ((updates m connector).lookup key).or (conf.find key) := by
  obtain ⟨finds, edited', object⟩ := setFields_spec updates_once updates_scalars fits edited
  have object : (updated conf m connector).isObject = true := object (.inl (by simp [updates]))
  refine ⟨?_, finds⟩
  rw [objectIn, w.parse_dump edited' object dumped]
  exact if_pos object

end written

/-! ## What `save` leaves -/

/-- The file is empty when it is read, and what is written has no connector. -/
theorem save_spec (w : Writer) (file : ConfigFile) (m : Mod) :
    ((save w true file m).threw.isSome ∧ (save w true file m).file = .text []) ∨
    ∃ text conf, (save w true file m).file = .text text ∧
      objectIn w.toSetup (.text text) = some conf ∧ conf.find "connector" = none ∧
      conf.find "enabled" = some (.bool m.enabled) := by
  obtain ⟨what, unread⟩ := w.parse_nil
  simp only [save, json, parseFile, unread, if_true]
  cases ipc : m.ipc with
  | none => exact .inl (by simp [loadError])
  | some connector =>
    simp only [loadError]
    split
    next m' fault threw => exact .inl ⟨rfl, rfl⟩
    next m' text written =>
      right
      split at written
      · cases written
      next text' dumped =>
        cases written
        obtain ⟨object, finds⟩ := parse_updated (.inr rfl) .nothing dumped
        refine ⟨text, _, rfl, object, ?_, ?_⟩
        · rw [finds]
          rfl
        · rw [finds]
          rfl

section visits
variable {s : Setup} {e : Entry}

/-- A mod without a connector stops the loop, or is passed over. -/
theorem visit_of_unconnected {conf : Json} (dir : e.isDirectory = true)
    (object : objectIn s e.config = some conf) (missing : conf.find "connector" = none) :
    (∀ m, visit s e ≠ .ok (some m)) ∧
      (isEnabled conf = false → ∃ fault, visit s e = .error fault) := by
  obtain ⟨-, spec⟩ := newMod_of_object object
  have unchecked : ¬ Checked conf := by
    intro checked
    have present := checked.connector
    simp [TextPresent, missing] at present
  have unconnected : ¬ Connects conf := by
    have kinds : textOf conf "connector" = [] := by simp [textOf, missing]
    rw [Connects, kinds]
    rintro (shared | ⟨net, -⟩)
    · exact absurd shared (by decide)
    · exact absurd net (by decide)
  cases new : newMod s e with
  | error fault =>
    have threw := visit_threw dir new
    rw [threw]
    exact ⟨by simp, fun _ => ⟨fault, rfl⟩⟩
  | ok m =>
    obtain ⟨-, loaded, enabled, ipc, -⟩ := spec m new
    have failed : m.loaded = false := by simpa using mt loaded.mp unchecked
    have none_ : m.ipc = none := by simpa using mt ipc.mp unconnected
    rw [← enabled]
    cases switched : m.enabled with
    | false =>
      have threw : visit s e = .error .nullConnector := by
        simp [visit, dir, new, switched, deleteMod, none_, Except.map]
      rw [threw]
      exact ⟨by simp, fun _ => ⟨_, rfl⟩⟩
    | true =>
      have skipped : visit s e = .ok none := by simp [visit, dir, new, switched, failed]
      rw [skipped]
      exact ⟨by simp, by simp⟩

theorem visit_of_no_object (dir : e.isDirectory = true) (nothing : objectIn s e.config = none) :
    ∃ fault, visit s e = .error fault := by
  rcases newMod_of_no_object nothing with ⟨fault, threw⟩ | ⟨m, new, disabled, ipc⟩
  · exact ⟨fault, visit_threw dir threw⟩
  · exact ⟨.nullConnector, by simp [visit, dir, new, disabled, deleteMod, ipc, Except.map]⟩

theorem visit_of_usable {m : Mod} (dir : e.isDirectory = true) (new : newMod s e = .ok m)
    (loaded : m.loaded = true) (ipc : m.ipc.isSome) :
    visit s e = .ok (if m.enabled then some m else none) := by
  obtain ⟨connector, ipc⟩ := Option.isSome_iff_exists.mp ipc
  cases switched : m.enabled with
  | false => simp [visit, dir, new, switched, deleteMod, ipc, Except.map]
  | true => simp [visit, dir, new, switched, loaded]

end visits

/-- Whatever a mod is, after `save` its directory holds no mod that is listed; a mod that is off
stops the loop. -/
theorem visit_saved {w : Writer} {e : Entry} (dir : e.isDirectory = true) (m : Mod) :
    (∀ m', visit w.toSetup { e with config := (save w true e.config m).file } ≠ .ok (some m')) ∧
      (m.enabled = false →
        ∃ fault, visit w.toSetup { e with config := (save w true e.config m).file } =
          .error fault) := by
  obtain ⟨what, unread⟩ := w.parse_nil
  rcases save_spec w e.config m with ⟨-, empty⟩ | ⟨text, conf, written, object, missing, switch⟩
  · rw [empty]
    have nothing : objectIn w.toSetup (.text []) = none := by simp only [objectIn, unread]
    obtain ⟨fault, threw⟩ := visit_of_no_object (e := { e with config := .text [] }) dir nothing
    rw [threw]
    exact ⟨by simp, fun _ => ⟨fault, rfl⟩⟩
  · rw [written]
    obtain ⟨unlisted, stops⟩ :=
      visit_of_unconnected (e := { e with config := .text text }) dir object missing
    refine ⟨unlisted, fun off => stops ?_⟩
    simp [isEnabled, switch, enabledValue?, bool?, off]

/-- What a mod is switched to holds after the next start exactly when it was so before. Switching
one off that is on keeps the host from starting, if its file can be written. -/
theorem set_enabled_iff {w : Writer} {e : Entry} (dir : e.isDirectory = true) {m : Mod}
    (new : newMod w.toSetup e = .ok m) (loaded : m.loaded = true) (ipc : m.ipc.isSome)
    (enabled writable : Bool) :
    (visit w.toSetup { e with config := (setEnabled w enabled writable e.config m).file } =
        .ok (if enabled then some (setEnabled w enabled writable e.config m).mod else none) ↔
      m.enabled = enabled) ∧
    (m.enabled = true → enabled = false → writable = true → ∀ directory : Directory,
      { e with config := (setEnabled w enabled writable e.config m).file } ∈ directory.entries →
        ∀ mods, findModules w.toSetup directory ≠ .ok mods) := by
  have before := visit_of_usable dir new loaded ipc
  by_cases same : m.enabled = enabled
  · simp only [setEnabled, if_pos same]
    refine ⟨iff_of_true ?_ same, fun on off => ?_⟩
    · rw [before, same]
    · simp [same, off] at on
  · simp only [setEnabled, if_neg same]
    obtain ⟨unlisted, stops⟩ := visit_saved (w := w) dir { m with enabled }
    refine ⟨iff_of_false ?_ same, ?_⟩
    · intro held
      cases writable with
      | true =>
        cases enabled with
        | true => exact unlisted _ held
        | false =>
          obtain ⟨fault, threw⟩ := stops rfl
          rw [threw] at held
          cases held
      | false =>
        have kept : (save w false e.config { m with enabled }).file = e.config := by
          simp only [save, Bool.false_eq_true, if_false]
          split <;> rfl
        rw [kept, before] at held
        cases enabled with
        | true =>
          have off : m.enabled = false := by simpa using same
          simp [off] at held
        | false =>
          have on : m.enabled = true := by simpa using same
          simp [on] at held
    · rintro on rfl rfl directory listed mods found
      obtain ⟨fault, threw⟩ := stops rfl
      unfold findModules at found
      cases list : listMods w.toSetup directory.entries with
      | error fault =>
        rw [list] at found
        cases found
      | ok mods =>
        obtain ⟨turns, -⟩ := mem_listMods_iff list
        obtain ⟨result, turn⟩ := turns _ listed
        rw [threw] at turn
        cases turn

/-! ## Versions -/

theorem strtolValue_decimalInt_front (n : Int) {rest : Text}
    (other : ∀ b ∈ rest.head?, isDigit b = false) :
    strtolValue (decimalInt n ++ rest) = some n := by
  have digits := fun (b : Byte) => isDigit_of_mem_decimal (n := n.natAbs) (b := b)
  have some_ := decimal_ne_nil n.natAbs
  by_cases negative : n < 0
  · obtain ⟨listed, value⟩ := leadingDigits_value digits some_
    have kept : ((45 : Byte) :: decimal n.natAbs ++ rest).dropWhile isSpace =
        45 :: (decimal n.natAbs ++ rest) := rfl
    rw [decimalInt, if_pos negative, strtolValue, kept]
    simp only [List.head?_cons, true_or, if_true, List.tail_cons, leadingDigits_front digits other,
      value, if_neg listed, ofDecimal_decimal, Option.some.injEq]
    omega
  · rw [decimalInt, if_neg negative, strtolValue_front digits some_ other, ofDecimal_decimal,
      Option.some.injEq]
    omega

theorem numberEnd_decimalInt_front (n : Int) {rest : Text}
    (other : ∀ b ∈ rest.head?, isDigit b = false) :
    numberEnd (decimalInt n ++ rest) = (decimalInt n).length := by
  have digits := fun (b : Byte) => isDigit_of_mem_decimal (n := n.natAbs) (b := b)
  have count : (leadingDigits 10 (decimal n.natAbs ++ rest)).length = (decimal n.natAbs).length := by
    rw [leadingDigits_front digits other, leadingDigits_of_digits digits, List.length_map]
  by_cases negative : n < 0
  · rw [decimalInt, if_pos negative, List.cons_append, numberEnd]
    have kept : ((45 : Byte) :: (decimal n.natAbs ++ rest)).dropWhile isSpace =
        45 :: (decimal n.natAbs ++ rest) := rfl
    have front : ((45 : Byte) :: (decimal n.natAbs ++ rest)).takeWhile isSpace = [] := rfl
    simp only [kept, front, List.head?_cons, true_or, if_true, List.drop_succ_cons, List.drop_zero,
      count, List.length_nil, List.length_cons]
    omega
  · rw [decimalInt, if_neg negative, numberEnd]
    obtain ⟨b, more, shape⟩ := List.exists_cons_of_ne_nil (decimal_ne_nil n.natAbs)
    obtain ⟨solid, minus, plus⟩ := solid_of_isDigit (digits b (by simp [shape]))
    have kept : (decimal n.natAbs ++ rest).dropWhile isSpace = decimal n.natAbs ++ rest := by
      rw [shape, List.cons_append, List.dropWhile_cons_of_neg (by simp [solid])]
    have front : (decimal n.natAbs ++ rest).takeWhile isSpace = [] := by
      rw [shape, List.cons_append, List.takeWhile_cons_of_neg (by simp [solid])]
    have unsigned : ¬ ((decimal n.natAbs ++ rest).head? = some 45 ∨
        (decimal n.natAbs ++ rest).head? = some 43) := by
      simp [shape, minus, plus]
    simp only [kept, front, if_neg unsigned, List.drop_zero, count, List.length_nil]
    omega

theorem strtol_point (rest : Text) : (strtol (cstr (46 :: rest))).getD 0 = 0 := by
  have shape : cstr (46 :: rest) = 46 :: cstr rest := rfl
  have none_ : strtolValue (46 :: cstr rest) = none := rfl
  rw [shape, strtol, none_]
  rfl

/-- The minor version is never read. -/
theorem ofText_eq {text : Text} {version : Version} (read : Version.ofText text = .ok version) :
    ∃ n : Int, -2147483648 ≤ n ∧ n ≤ 2147483647 ∧ version = ⟨n, 0, decimalInt n⟩ := by
  unfold Version.ofText at read
  cases number : stoi text with
  | error fault =>
    rw [number] at read
    cases read
  | ok n =>
    have fits : -2147483648 ≤ n ∧ n ≤ 2147483647 := by
      unfold stoi at number
      split at number
      · cases number
      · split at number
        next fits =>
          cases number
          exact fits
        · cases number
    refine ⟨n, fits.1, fits.2, ?_⟩
    rw [number] at read
    simp only [bind, Except.bind, pure, Except.pure] at read
    split at read
    · exact (Except.ok.inj read).symm
    next point =>
      rw [not_not] at point
      obtain ⟨inside, is_⟩ := List.getElem?_eq_some_iff.mp point
      rw [List.drop_eq_getElem_cons inside, is_, strtol_point] at read
      exact (Except.ok.inj read).symm

theorem ofText_str {n : Int} (low : -2147483648 ≤ n) (high : n ≤ 2147483647) :
    Version.ofText (Version.str ⟨n, 0, decimalInt n⟩) = .ok ⟨n, 0, decimalInt n⟩ := by
  have shape : Version.str ⟨n, 0, decimalInt n⟩ = decimalInt n ++ lit ".0" := by
    have point : lit "." ++ decimalInt 0 = lit ".0" := by decide
    rw [Version.str, List.append_assoc, point]
  have other : ∀ b ∈ (lit ".0").head?, isDigit b = false := by decide +kernel
  have whole : cstr (decimalInt n ++ lit ".0") = decimalInt n ++ lit ".0" := by
    rw [cstr_eq_self_iff, List.mem_append]
    rintro (null | null)
    · have absent : (0 : Byte) ∉ decimal n.natAbs := fun mem => by
        simpa [isDigit] using isDigit_of_mem_decimal mem
      unfold decimalInt at null
      split at null
      · exact absent (List.mem_of_ne_of_mem (by decide) null)
      · exact absent null
    · exact absurd null (by decide)
  have number : stoi (decimalInt n ++ lit ".0") = .ok n := by
    rw [stoi, whole, strtolValue_decimalInt_front n other]
    exact if_pos ⟨low, high⟩
  have point : (decimalInt n ++ lit ".0")[(decimalInt n).length]? = some 46 := by
    rw [List.getElem?_append_right (Nat.le_refl _), Nat.sub_self]
    rfl
  rw [shape, Version.ofText, number]
  simp only [bind, Except.bind, pure, Except.pure, whole, numberEnd_decimalInt_front n other, point,
    ne_eq, not_true_eq_false, if_false]
  rw [List.drop_left]
  rfl

/-! ## What `json` gives -/

section reads
variable {s : Setup} {conf : Json}

/-- The text of a key that may be missing. -/
def textOr (conf : Json) (key default : Text) : Text :=
  ((conf.find key).bind Json.string?).getD default

theorem textField_eq {key message : Text} {missing : Mod → Mod}
    {set : Text → Metadata → Metadata} {m : Mod} (right : TextIfPresent conf key) :
    ModLoading.textField conf key message missing set m =
      match (conf.find key).bind Json.string? with
      | none => missing m
      | some text => { m with toMetadata := set text m.toMetadata } := by
  unfold ModLoading.textField
  cases found : conf.find key with
  | none => rfl
  | some value =>
    obtain ⟨text, is_⟩ := Option.isSome_iff_exists.mp (right value found)
    simp only [is_, Option.bind_some]

theorem textIfPresent_of_present {key : Text} (present : TextPresent conf key) :
    TextIfPresent conf key := by
  intro value found
  rw [TextPresent, found] at present
  exact present

/-- The version of a file, where there is one. -/
def versionOf (conf : Json) (default : Version) : Except Fault Version :=
  match (conf.find "version").bind Json.string? with
  | none => .ok default
  | some text => Version.ofText text

/-- The connector of a file that passes the checks. -/
def connectorOf (s : Setup) (conf : Json) (m : Mod) : Option Connector :=
  let kind := textOf conf "connector"
  let uri := textOf conf "connector_uri"
  if kind = lit "http" ∨ kind = lit "https" then some (.net uri (decide (kind = lit "https")))
  else if kind = lit "shared_object" then
    some (.dll (if uri = [] then modDir s m ++ lit "/module.so" else uri))
  else m.ipc

def accessOf (conf : Json) : AccessChecker :=
  match conf.find "access" with
  | some (.string value) => parseAccessChecker value
  | some (.bool false) => parseAccessChecker (lit "disabled")
  | _ => parseAccessChecker []

/-- The icon of a file that passes the checks. -/
def iconOf (conf : Json) (default : Text) : Text :=
  match conf.find "icon" with
  | none => default
  | some value => value.string?.getD []

/-- A mod as a file without errors gives it. -/
def loadedMod (s : Setup) (conf : Json) (m : Mod) (version : Version) : Mod :=
  { m with
    id := textOr conf "id" m.id
    path := textOr conf "path" m.path
    name := textOf conf "name"
    description := textOf conf "description"
    icon := iconOf conf m.icon
    userDataDir := textOr conf "data_dir" (modDir s m)
    version
    loaded := true
    enabled := isEnabled conf
    canAccess := some (accessOf conf)
    ipc := connectorOf s conf m }

theorem loadId_eq (right : TextIfPresent conf "id") (m : Mod) :
    loadId conf m = { m with id := textOr conf "id" m.id } := by
  rw [loadId, textField_eq right, textOr]
  cases (conf.find "id").bind Json.string? <;> rfl

theorem loadPath_eq (right : TextIfPresent conf "path") (m : Mod) :
    loadPath conf m = { m with path := textOr conf "path" m.path } := by
  rw [loadPath, textField_eq right, textOr]
  cases (conf.find "path").bind Json.string? <;> rfl

theorem loadName_eq (right : TextPresent conf "name") (m : Mod) :
    loadName conf m = { m with name := textOf conf "name" } := by
  rw [loadName, textField_eq (textIfPresent_of_present right), textOf]
  obtain ⟨text, is_⟩ := Option.isSome_iff_exists.mp right
  rw [is_]
  rfl

theorem loadDescription_eq (right : TextPresent conf "description") (m : Mod) :
    loadDescription conf m = { m with description := textOf conf "description" } := by
  rw [loadDescription, textField_eq (textIfPresent_of_present right), textOf]
  obtain ⟨text, is_⟩ := Option.isSome_iff_exists.mp right
  rw [is_]
  rfl

theorem loadDataDir_eq (right : TextIfPresent conf "data_dir") (m : Mod) :
    loadDataDir s conf m = { m with userDataDir := textOr conf "data_dir" (modDir s m) } := by
  rw [loadDataDir, textField_eq right, textOr]
  cases (conf.find "data_dir").bind Json.string? <;> rfl

theorem loadVersion_eq (right : TextIfPresent conf "version") (m : Mod) :
    loadVersion conf m = (versionOf conf m.version).map fun version => { m with version } := by
  unfold loadVersion versionOf
  cases found : conf.find "version" with
  | none => rfl
  | some value =>
    obtain ⟨text, is_⟩ := Option.isSome_iff_exists.mp (right value found)
    simp only [is_, Option.bind_some]

theorem loadConnector_eq (checked : Checked conf) (m : Mod) :
    loadConnector s conf m = { m with ipc := connectorOf s conf m } := by
  have uri : loadConnectorUri conf m = (textOf conf "connector_uri", m) := by
    unfold loadConnectorUri textOf
    cases found : conf.find "connector_uri" with
    | none => rfl
    | some value =>
      obtain ⟨text, is_⟩ := Option.isSome_iff_exists.mp (checked.connectorUri value found)
      simp only [is_, Option.bind_some, Option.getD_some]
  obtain ⟨kind, is_⟩ := Option.isSome_iff_exists.mp checked.connector
  obtain ⟨value, found, text⟩ := Option.bind_eq_some_iff.mp is_
  have kind_ : textOf conf "connector" = kind := by rw [textOf, is_, Option.getD_some]
  have address := checked.address
  unfold loadConnector connectorOf
  simp only [uri, found, text, makeConnector]
  rw [kind_] at address ⊢
  by_cases net : kind = lit "http" ∨ kind = lit "https"
  · simp only [if_pos net, if_neg (address (by simpa using net))]
  · simp only [if_neg net]
    by_cases shared : kind = lit "shared_object"
    · simp only [if_pos shared]
    · simp only [if_neg shared]

theorem loadEnabled_eq (checked : Checked conf) (m : Mod) :
    loadEnabled conf m = { m with enabled := isEnabled conf } := by
  unfold loadEnabled isEnabled
  cases found : conf.find "enabled" with
  | none => rfl
  | some value =>
    obtain ⟨enabled, is_⟩ := Option.isSome_iff_exists.mp (checked.enabled value found)
    simp only [is_, Option.bind_some, Option.getD_some]

theorem loadIcon_eq (checked : Checked conf) (m : Mod) :
    loadIcon conf m = { m with icon := iconOf conf m.icon } := by
  unfold loadIcon iconOf
  cases found : conf.find "icon" with
  | none => rfl
  | some value =>
    rcases checked.icon value found with ⟨icon, rfl⟩ | rfl
    · rfl
    · rfl

theorem loadAccess_eq (checked : Checked conf) (m : Mod) :
    loadAccess conf m = { m with canAccess := some (accessOf conf) } := by
  unfold loadAccess accessOf
  cases found : conf.find "access" with
  | none => rfl
  | some value =>
    rcases checked.access value found with ⟨text, rfl⟩ | ⟨open_, rfl⟩
    · rfl
    · cases open_ <;> rfl

theorem load_eq (checked : Checked conf) {m : Mod} (error : m.error = []) :
    load s conf m = (versionOf conf m.version).map (loadedMod s conf m) := by
  unfold load
  rw [loadId_eq checked.id, loadPath_eq checked.path, loadName_eq checked.name,
    loadVersion_eq checked.version]
  cases versionOf conf m.version with
  | error fault => rfl
  | ok version =>
    simp only [Except.map, bind, Except.bind, pure, Except.pure]
    rw [loadDescription_eq checked.description, loadConnector_eq checked, loadEnabled_eq checked,
      loadIcon_eq checked, loadAccess_eq checked, loadDataDir_eq checked.dataDir, finish]
    exact congrArg Except.ok (if_pos error)

/-- The mod before its file is loaded. -/
def namedMod (s : Setup) (e : Entry) : Mod :=
  { freshMod e with config := modDir s (freshMod e) ++ lit "/module.json" }

theorem parseFile_eq {file : ConfigFile} (object : objectIn s file = some conf) (m : Mod) :
    parseFile s file m = .ok (conf, { m with config := modDir s m ++ lit "/module.json" }) := by
  cases file with
  | missing | unreadable => cases object
  | text content =>
    unfold objectIn at object
    unfold parseFile
    cases parsed : s.parse content with
    | error e =>
      simp only [parsed] at object
      cases object
    | ok value =>
      simp only [parsed] at object ⊢
      split at object
      next isObject =>
        cases object
        exact if_pos isObject
      · cases object

theorem newMod_eq {e : Entry} (object : objectIn s e.config = some conf) (checked : Checked conf) :
    newMod s e =
      (versionOf conf ⟨0, 0, lit "0"⟩).map (loadedMod s conf (namedMod s e)) := by
  rw [newMod, parseFile_eq object]
  exact load_eq checked rfl

/-- A mod that was loaded without errors, with the values of its file. -/
theorem newMod_of_loaded {e : Entry} {m : Mod} (new : newMod s e = .ok m)
    (loaded : m.loaded = true) (ipc : m.ipc.isSome) :
    ∃ conf version, objectIn s e.config = some conf ∧ Checked conf ∧ Connects conf ∧
      versionOf conf ⟨0, 0, lit "0"⟩ = .ok version ∧
      m = loadedMod s conf (namedMod s e) version := by
  cases object : objectIn s e.config with
  | none =>
    rcases newMod_of_no_object object with ⟨fault, threw⟩ | ⟨m', new', -, none_⟩
    · rw [new] at threw
      cases threw
    · cases new.symm.trans new'
      simp [none_] at ipc
  | some conf =>
    obtain ⟨-, loaded_, -, ipc_, -⟩ := (newMod_of_object object).2 m new
    have checked := loaded_.mp loaded
    rw [newMod_eq object checked] at new
    cases read : versionOf conf ⟨0, 0, lit "0"⟩ with
    | error fault =>
      rw [read] at new
      cases new
    | ok version =>
      rw [read] at new
      exact ⟨conf, version, rfl, checked, ipc_.mp ipc, read, (Except.ok.inj new).symm⟩

/-- The version of a mod is written as it was read. -/
theorem versionOf_str {version : Version} (read : versionOf conf ⟨0, 0, lit "0"⟩ = .ok version) :
    Version.ofText (Version.str version) = .ok version := by
  unfold versionOf at read
  split at read
  · cases read
    have zero : (⟨0, 0, lit "0"⟩ : Version) = ⟨0, 0, decimalInt 0⟩ := by decide
    rw [zero]
    exact ofText_str (by decide) (by decide)
  · obtain ⟨n, low, high, rfl⟩ := ofText_eq read
    exact ofText_str low high

/-- The connector is made of its address again. -/
theorem connectorOf_uri {conf' : Json} {m : Mod} {connector : Connector} (checked : Checked conf)
    (connects : Connects conf) (made : connectorOf s conf m = some connector)
    (kind : textOf conf' "connector" = textOf conf "connector")
    (uri : textOf conf' "connector_uri" = Connector.uri connector) :
    connectorOf s conf' m = some connector ∧ Connector.uri connector ≠ [] := by
  unfold connectorOf at made ⊢
  simp only [kind, uri]
  by_cases net : textOf conf "connector" = lit "http" ∨ textOf conf "connector" = lit "https"
  · simp only [if_pos net, Option.some.injEq] at made ⊢
    subst made
    exact ⟨rfl, checked.address (by simpa using net)⟩
  · simp only [if_neg net] at made ⊢
    have shared : textOf conf "connector" = lit "shared_object" := by
      rcases connects with shared | ⟨other, -⟩
      · exact shared
      · exact absurd (by simpa using other) net
    simp only [if_pos shared, Option.some.injEq] at made ⊢
    have some_ : Connector.uri connector ≠ [] := by
      rw [← made]
      simp only [Connector.uri]
      split
      · have mark : lit "/module.so" ≠ [] := by decide
        simp [mark]
      · assumption
    refine ⟨?_, some_⟩
    rw [if_neg some_, ← made]
    rfl

end reads

section back
variable {w : Writer} {conf conf' : Json} {m : Mod} {connector : Connector}

/-- What a file has to say about a mod for its text to be one that `json` made. -/
structure BroughtUp (conf conf' : Json) (m : Mod) (connector : Connector) : Prop where
  set : ∀ field ∈ updates m connector, conf'.find field.1 = some field.2
  kept : ∀ key ∈ [lit "connector", lit "access", lit "data_dir"], conf'.find key = conf.find key

theorem broughtUp (finds : ∀ key, conf'.find key =
    ((updates m connector).lookup key).or (conf.find key)) : BroughtUp conf conf' m connector where
  set := by
    intro field listed
    rw [finds]
    simp only [updates, List.mem_cons, List.not_mem_nil, or_false] at listed
    rcases listed with rfl | rfl | rfl | rfl | rfl | rfl | rfl | rfl
    all_goals rfl
  kept := by
    intro key listed
    rw [finds]
    simp only [List.mem_cons, List.not_mem_nil, or_false] at listed
    rcases listed with rfl | rfl | rfl
    all_goals rfl

theorem textOr_of_find {key text default : Text} (found : conf.find key = some (.string text)) :
    textOr conf key default = text := by
  rw [textOr, found]
  rfl

theorem textOf_of_find {key text : Text} (found : conf.find key = some (.string text)) :
    textOf conf key = text := textOr_of_find found

theorem textIfPresent_of_find {key text : Text} (found : conf.find key = some (.string text)) :
    TextIfPresent conf key := by
  intro value is_
  cases found.symm.trans is_
  rfl

theorem checked_of_broughtUp (checked : Checked conf) (up : BroughtUp conf conf' m connector)
    (address : Connector.uri connector ≠ []) : Checked conf' := by
  have set := up.set
  simp only [updates, List.forall_mem_cons] at set
  obtain ⟨id, path, version, name, description, icon, enabled, uri, -⟩ := set
  have kept := up.kept
  simp only [List.forall_mem_cons] at kept
  obtain ⟨kind, access, dir, -⟩ := kept
  refine
    { id := textIfPresent_of_find id
      path := textIfPresent_of_find path
      name := by rw [TextPresent, name]; rfl
      version := textIfPresent_of_find version
      description := by rw [TextPresent, description]; rfl
      connectorUri := textIfPresent_of_find uri
      connector := by rw [TextPresent, kind]; exact checked.connector
      address := fun _ => by rwa [textOf_of_find uri]
      enabled := fun value found => by cases enabled.symm.trans found; rfl
      icon := fun value found => .inl ⟨m.icon, (Option.some.inj (icon.symm.trans found)).symm⟩
      access := fun value found => checked.access value (access ▸ found)
      dataDir := fun value found => checked.dataDir value (dir ▸ found) }

theorem loadedMod_of_broughtUp {s : Setup} {version : Version} {path : Text} {enabled : Bool}
    {e : Entry} (checked : Checked conf) (connects : Connects conf)
    (read : versionOf conf ⟨0, 0, lit "0"⟩ = .ok version)
    (made : connectorOf s conf (namedMod s e) = some connector)
    (up : BroughtUp conf conf'
      { loadedMod s conf (namedMod s e) version with path, enabled } connector) :
    Checked conf' ∧ versionOf conf' ⟨0, 0, lit "0"⟩ = .ok version ∧
      loadedMod s conf' (namedMod s e) version =
      { loadedMod s conf (namedMod s e) version with path, enabled } := by
  have set := up.set
  simp only [updates, List.forall_mem_cons] at set
  obtain ⟨id, path_, version_, name, description, icon, enabled_, uri, -⟩ := set
  have kept := up.kept
  simp only [List.forall_mem_cons] at kept
  obtain ⟨kind, access, dir, -⟩ := kept
  obtain ⟨made', address⟩ := connectorOf_uri checked connects made
    (by rw [textOf, kind, textOf]) (textOf_of_find uri)
  refine ⟨checked_of_broughtUp checked up address, ?_, ?_⟩
  · rw [versionOf, version_]
    exact versionOf_str read
  have icon_ : iconOf conf' (namedMod s e).icon = iconOf conf (namedMod s e).icon := by
    rw [iconOf, icon]
    rfl
  have enabled' : isEnabled conf' = enabled := by
    rw [isEnabled, enabled_]
    rfl
  have access_ : accessOf conf' = accessOf conf := by rw [accessOf, access, accessOf]
  have dir_ : textOr conf' "data_dir" (modDir s (namedMod s e)) =
      textOr conf "data_dir" (modDir s (namedMod s e)) := by rw [textOr, dir, textOr]
  simp only [loadedMod, textOr_of_find id, textOr_of_find path_, textOf_of_find name,
    textOf_of_find description, icon_, enabled', access_, dir_, made', made]

theorem edited_of_objectIn {file : ConfigFile} (object : objectIn w.toSetup file = some conf) :
    conf.isObject = true ∧ Edited w.parse conf := by
  unfold objectIn at object
  split at object
  next content =>
    split at object
    next conf' parsed =>
      split at object
      next isObject =>
        cases object
        exact ⟨isObject, .read parsed isObject⟩
      · cases object
    · cases object
  · cases object

/-- The text of `json`, for a file that can be read. -/
theorem dump_of_json {file : ConfigFile} {text : Text}
    (object : objectIn w.toSetup file = some conf) (ipc : m.ipc = some connector)
    (written : (json w file m).2 = .ok text) :
    w.dump (updated conf m connector) = some text := by
  simp only [json, parseFile_eq object, ipc] at written
  split at written
  · cases written
  next text' dumped =>
    cases written
    exact dumped

end back

/-- Fields with texts and switches only. -/
abbrev Flat := List (Text × (Text ⊕ Bool))

def ofFlat (flat : Flat) : Json :=
  .object (flat.map fun field => (field.1, field.2.elim Json.string Json.bool))

def flatFields : List (Text × Json) → Option Flat
  | [] => some []
  | (key, .string text) :: rest => (flatFields rest).map ((key, .inl text) :: ·)
  | (key, .bool value) :: rest => (flatFields rest).map ((key, .inr value) :: ·)
  | _ => none

def toFlat : Json → Option Flat
  | .object fields => flatFields fields
  | _ => none

theorem ofFlat_of_toFlat {value : Json} {flat : Flat} (is_ : toFlat value = some flat) :
    value = ofFlat flat := by
  cases value with
  | object fields =>
    refine congrArg Json.object ?_
    change flatFields fields = some flat at is_
    induction fields generalizing flat with
    | nil =>
      cases is_
      rfl
    | cons field rest ih =>
      obtain ⟨key, value⟩ := field
      cases value with
      | string text =>
        obtain ⟨flat, later, rfl⟩ := Option.map_eq_some_iff.mp is_
        rw [ih later]
        rfl
      | bool value =>
        obtain ⟨flat, later, rfl⟩ := Option.map_eq_some_iff.mp is_
        rw [ih later]
        rfl
      | null | integer | unsigned | float | array | object => cases is_
  | null | bool | integer | unsigned | float | string | array => cases is_

/-- A mod in `/srv/mods/blog` -/
def blogFields : Flat :=
  [("connector", .inl "shared_object"), ("description", .inl "posts"), ("enabled", .inr true),
    ("name", .inl "Blog"), ("version", .inl "2")]

/-- What `json` makes of it when it is off, and what `save` leaves. -/
def offFields : Flat :=
  [("connector", .inl "shared_object"), ("connector_uri", .inl "/srv/mods/blog/module.so"),
    ("description", .inl "posts"), ("enabled", .inr false), ("icon", .inl []), ("id", .inl "blog"),
    ("name", .inl "Blog"), ("path", .inl "blog"), ("version", .inl "2.0")]

def leftFields : Flat := offFields.tail

def blogTexts : List (Text × Flat) :=
  [("blog", blogFields), ("off", offFields), ("left", leftFields)]

def demoWriter : Writer where
  dataDir := "/srv"
  parse := fun content => match blogTexts.lookup content with
    | some flat => .ok (ofFlat flat)
    | none => .error (.invalid "parse error")
  dump := fun value => (toFlat value).bind fun flat =>
    (blogTexts.find? fun text => decide (text.2 = flat)).map Prod.fst
  parse_dump := by
    intro value text _ _ dumped
    obtain ⟨flat, is_, found⟩ := Option.bind_eq_some_iff.mp dumped
    obtain ⟨⟨text', flat'⟩, listed, rfl⟩ := Option.map_eq_some_iff.mp found
    have same : flat' = flat := by simpa using List.find?_some listed
    have there := List.mem_of_find?_eq_some listed
    rw [ofFlat_of_toFlat is_, ← same]
    simp only [blogTexts, List.mem_cons, Prod.mk.injEq, List.not_mem_nil, or_false] at there
    rcases there with ⟨rfl, rfl⟩ | ⟨rfl, rfl⟩ | ⟨rfl, rfl⟩
    all_goals rfl
  parse_nil := ⟨_, rfl⟩

def blog : Entry := ⟨lit "blog", true, .text (lit "blog")⟩

def blogMod : Mod :=
  { namedMod demoWriter.toSetup blog with
    name := "Blog"
    description := "posts"
    userDataDir := "/srv/mods/blog"
    version := ⟨2, 0, "2"⟩
    enabled := true
    canAccess := some (parseAccessChecker [])
    ipc := some (.dll "/srv/mods/blog/module.so") }

theorem blogMod_new : newMod demoWriter.toSetup blog = .ok blogMod := by
  decide +kernel

theorem blog_stops_host :
    (setEnabled demoWriter false true blog.config blogMod).file = .text (lit "left") ∧
      ∀ mods, findModules demoWriter.toSetup
        ⟨[{ blog with config := (setEnabled demoWriter false true blog.config blogMod).file }],
          by simp⟩ ≠ .ok mods := by
  refine ⟨by decide +kernel, ?_⟩
  exact (set_enabled_iff rfl blogMod_new rfl rfl false true).2 rfl rfl rfl _ List.mem_cons_self

end ModFiles
