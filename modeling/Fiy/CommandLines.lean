import Fiy.ByteStrings

/-!
# The configuration of a command line

`FiyConfig::from_argv` with the files it reads. The parser of the configuration files and the
system are given. What is only logged is left out.
-/

namespace CommandLines

open ByteStrings

/-! ## Configurations -/

inductive Protocol
  | http
  | https
  deriving DecidableEq, Repr

/-- `FiyConfig`; the private keys are those of the library. -/
structure Config (κ : Type) where
  error : Bool := false
  dataDir : Text := lit "/opt/fiy"
  /-- `none` is a null pointer. -/
  hostname : Option Text := none
  salt : Text := []
  port : Int := 8848
  concurrency : Int := 4
  publicKey : Text := []
  privateKey : Option κ := none
  listenAddr : Text := []
  protocol : Option Protocol := none
  deriving DecidableEq

/-- What `ini_parse` calls its handler for, and the lines it cannot read. -/
inductive IniLine
  | entry (section_ key value : Text)
  | malformed
  deriving DecidableEq, Repr

structure System (κ : Type) where
  exists_ : Text → Bool
  isDirectory : Text → Bool
  /-- the lines of a configuration file that opens -/
  lines : Text → Option (List IniLine)
  /-- `load_file_as_string` -/
  loadFile : Text → Text
  /-- `load_private_key_from_pem` -/
  loadPrivateKey : Text → Option κ
  hardwareConcurrency : Int
  /-- `FIY_LISTEN_ADDR` in the environment -/
  listenAddr : Option Text

section configurations
variable {κ : Type} (sys : System κ)

/-- The number of threads that a value asks for. A negative one is taken off those there are. -/
def concurrencyOf (value : Text) : Int :=
  let threads := ((strtol value).map fun n => Int.bmod n 4294967296).getD 0
  if threads ≤ 0 then
    if sys.hardwareConcurrency ≤ -threads then 1 else sys.hardwareConcurrency + threads
  else threads

def protocolOf (value : Text) : Option Protocol :=
  if value = lit "https" ∨ value = lit "https://" then some .https
  else if value = lit "http" ∨ value = lit "http://" then some .http
  else none

/-- A value that is no port changes nothing. -/
def portOf (value : Text) (c : Config κ) : Int :=
  match fromChars value 10 with
  | some v => if v < 0 ∨ 65535 < v then c.port else v
  | none => c.port

/-- `set_key`; `none` when it returns false. -/
def setKey (section_ key value : Text) (c : Config κ) : Option (Config κ) :=
  if section_ ≠ [] then none
  else if key = lit "data_dir" then some { c with dataDir := value }
  else if key = lit "hostname" then some { c with hostname := some value }
  else if key = lit "salt" then some { c with salt := value }
  else if key = lit "port" then some { c with port := portOf value c }
  else if key = lit "concurrency" then some { c with concurrency := concurrencyOf sys value }
  else if key = lit "public_key" then some { c with publicKey := sys.loadFile value }
  else if key = lit "private_key" then
    some { c with privateKey := sys.loadPrivateKey (sys.loadFile value) }
  else if key = lit "address" then some { c with listenAddr := value }
  else if key = lit "protocol" then some { c with protocol := protocolOf value }
  else none

def knownKeys : List Text :=
  [lit "data_dir", lit "hostname", lit "salt", lit "port", lit "concurrency", lit "public_key",
    lit "private_key", lit "address", lit "protocol"]

/-- The address for a host name. -/
def defaultAddress (hostname : Text) : Text :=
  if 58 ∉ hostname ∨ lit "127.0.0.1" <+: hostname ∨ lit "localhost" <+: hostname then
    lit "127.0.0.1"
  else lit "0.0.0.0"

def defaultProtocol (hostname : Text) : Protocol :=
  if 58 ∈ hostname ∨ hostname = lit "localhost" ∨ hostname = lit "127.0.0.1" then .http else .https

/-- The keys that are not set, from their files. -/
def defaultKeys (c : Config κ) : Config κ :=
  let c := if c.publicKey = [] then
    { c with publicKey := sys.loadFile (c.dataDir ++ lit "/auth/pubkey.crt") } else c
  match c.privateKey with
  | some _ => c
  | none => { c with
      privateKey := sys.loadPrivateKey (sys.loadFile (c.dataDir ++ lit "/auth/privkey.pem")) }

/-- The address that is listened at; `none` when the host name that is needed is null. -/
def listenDefault (c : Config κ) : Option (Config κ) :=
  if c.listenAddr ≠ [] then some c
  else match sys.listenAddr with
    | some listenAddr => some { c with listenAddr }
    | none => c.hostname.map fun hostname => { c with listenAddr := defaultAddress hostname }

def protocolDefault (c : Config κ) : Option (Config κ) :=
  match c.protocol with
  | some _ => some c
  | none => c.hostname.map fun hostname => { c with protocol := some (defaultProtocol hostname) }

/-- `set_defaults` -/
def setDefaults (c : Config κ) : Option (Config κ) :=
  (listenDefault sys (defaultKeys sys c)).bind protocolDefault

/-- One line of a file, and whether one before it was wrong. -/
def readLine (state : Bool × Config κ) : IniLine → Bool × Config κ
  | .malformed => (true, state.2)
  | .entry section_ key value => match setKey sys section_ key value state.2 with
    | none => (true, state.2)
    | some c => (state.1, c)

/-- `parse` of the base class: whether the file was right, and what is configured then. -/
def parse (path : Text) (c : Config κ) : Bool × Config κ :=
  if ¬ sys.exists_ path then (false, { c with error := true })
  else match sys.lines path with
    | none => (false, { c with error := true })
    | some lines =>
      let (failed, c) := lines.foldl (readLine sys) (false, c)
      (!failed, { c with error := failed })

/-! ## Arguments -/

/-- How a call ends. -/
inductive Ended (κ : Type)
  | returned (ok : Bool) (c : Config κ)
  /-- `exit`, behind the usage -/
  | exited
  /-- A null pointer is read. -/
  | crashed
  deriving DecidableEq

/-- `from_file` -/
def fromFile (path : Text) (c : Config κ) : Ended κ :=
  let (ok, c) := parse sys path c
  match setDefaults sys c with
  | none => .crashed
  | some c => .returned ok c

def configFilePath : Text := lit "/opt/fiy/config.ini"

/-- The loop over the arguments. The value of a key is the argument it stands in. -/
def fromArgvLoop (c : Config κ) : List Text → Ended κ
  | [] => match setDefaults sys c with
    | none => .crashed
    | some c => .returned true c
  | arg :: rest =>
    if arg.head? ≠ some 45 then
      match fromFile sys arg c with
      | .returned _ c => match setDefaults sys c with
        | none => .crashed
        | some c => .returned false c
      | ended => ended
    else
      let key := arg.dropWhile (· = 45)
      if key = lit "help" then .exited
      else if rest = [] then .returned false { c with error := true }
      else match setKey sys [] key arg c with
        | none => .returned false { c with error := true }
        | some c => fromArgvLoop c rest

/-- `from_argv`, without the name of the program -/
def fromArgv (args : List Text) : Ended κ :=
  if args = [] then fromFile sys configFilePath {} else fromArgvLoop sys {} args

/-- How `FIY::start` goes on. -/
inductive Startup (κ : Type)
  | started (c : Config κ)
  /-- It returns false. -/
  | refused
  /-- It returns true, and no server runs. -/
  | skipped
  | exited
  | crashed
  deriving DecidableEq

/-- `FIY::start` up to the mods -/
def start (args : List Text) : Startup κ :=
  match fromArgv sys args with
  | .returned true c => if c.error then .refused else .started c
  | .returned false c => if c.error then .refused else .skipped
  | .exited => .exited
  | .crashed => .crashed

/-! ## What is documented -/

/-- What follows the name of a file: options with their values, an option that is not known or
has no value, or something else. -/
inductive Reading
  | options (pairs : List (Text × Text))
  | malformed
  | other
  deriving DecidableEq, Repr

/-- What `set_key` takes without a complaint. A host name may be anything. -/
def ValidValue (key value : Text) : Prop :=
  (key = lit "data_dir" → sys.isDirectory value) ∧
  (key = lit "port" → ∃ v ∈ fromChars value 10, 0 ≤ v ∧ v ≤ 65535) ∧
  (key = lit "concurrency" → strtol value ≠ none) ∧
  (key = lit "public_key" → sys.loadFile value ≠ []) ∧
  (key = lit "private_key" → (sys.loadPrivateKey (sys.loadFile value)).isSome) ∧
  (key = lit "protocol" → protocolOf value ≠ none ∨ value = [] ∨ value = lit "default")

instance (key value : Text) : Decidable (ValidValue sys key value) := by
  unfold ValidValue
  infer_instance

/-- The key of an argument "--key". -/
def keyOf (arg : Text) : Option Text :=
  if arg.head? = some 45 ∧ arg.dropWhile (· = 45) ≠ lit "help" then
    some (arg.dropWhile (· = 45))
  else none

def readOptions : List Text → Reading
  | [] => .options []
  | [arg] => if (keyOf arg).isSome then .malformed else .other
  | arg :: value :: rest => match keyOf arg with
    | none => .other
    | some key =>
      if key ∉ knownKeys then .malformed
      else match readOptions rest with
        | .options pairs =>
          if ValidValue sys key value then .options ((key, value) :: pairs) else .other
        | reading => reading

/-- The file and the options of "[CONFIG_FILE_PATH] [--key value]...". -/
def readArgs : List Text → Option Text × Reading
  | [] => (none, .options [])
  | arg :: rest =>
    if arg.head? ≠ some 45 then (some arg, readOptions sys rest)
    else (none, readOptions sys (arg :: rest))

/-- The file that is read, and whether it is valid. -/
def parsed (file : Option Text) : Bool × Config κ := parse sys (file.getD configFilePath) {}

/-- The file with the options in its place, and the defaults behind them. -/
def expected (file : Option Text) (pairs : List (Text × Text)) : Option (Config κ) :=
  setDefaults sys
    (pairs.foldl (fun c pair => (setKey sys [] pair.1 pair.2 c).getD c) (parsed sys file).2)

/-- What the documentation says of a command line. -/
def Right (args : List Text) : Prop :=
  match readArgs sys args with
  | (file, .options pairs) => (parsed sys file).1 = true →
    ∃ c, expected sys file pairs = some c ∧
      fromArgv sys args = .returned true c ∧ start sys args = .started c
  | (_, .malformed) => ∃ c, fromArgv sys args = .returned false c ∧ c.error = true
  | (_, .other) => True

/-! ## Where it holds -/

/-- There is a host name wherever one is needed for the defaults. -/
def Complete (c : Config κ) : Prop :=
  c.hostname.isSome ∨ c.protocol.isSome ∧ (c.listenAddr ≠ [] ∨ sys.listenAddr.isSome)

/-- An option with a known key -/
def isOption (arg : Text) : Bool :=
  arg.head? = some 45 ∧ arg.dropWhile (· = 45) ∈ knownKeys

/-- What the options before a text configure. Each is its own value. -/
def configured (c : Config κ) (args : List Text) : Config κ :=
  args.foldl (fun c arg => (setKey sys [] (arg.dropWhile (· = 45)) arg c).getD c) c

/-- Either there are no arguments and the default file is complete, or no valid file is to be
read. Of wrong arguments the first that is no known option is an option too, but not the one for
help, or it names a file that is not valid and still complete. -/
def Condition (args : List Text) : Prop :=
  match readArgs sys args with
  | (file, .options _) =>
    (parsed sys file).1 = true → args = [] ∧ Complete sys (parsed sys file).2
  | (_, .malformed) => match args.dropWhile isOption with
    | [] => True
    | arg :: _ =>
      if arg.head? = some 45 then arg.dropWhile (· = 45) ≠ lit "help"
      else
        let (ok, c) := parse sys arg (configured sys {} (args.takeWhile isOption))
        ok = false ∧ Complete sys c
  | (_, .other) => True

/-! ## Steps -/

omit sys in
theorem isSome_ite {α : Type} {p : Prop} [Decidable p] (a : α) (o : Option α) :
    (if p then some a else o).isSome ↔ p ∨ o.isSome := by
  by_cases h : p <;> simp [h]

theorem setKey_isSome (key value : Text) (c : Config κ) :
    (setKey sys [] key value c).isSome ↔ key ∈ knownKeys := by
  rw [setKey, if_neg (not_not.mpr rfl)]
  simp only [isSome_ite, Option.isSome_none, Bool.false_eq_true, or_false, knownKeys,
    List.mem_cons, List.not_mem_nil]

theorem keys_help : lit "help" ∉ knownKeys := by decide

theorem defaultKeys_keeps (c : Config κ) :
    (defaultKeys sys c).error = c.error ∧ (defaultKeys sys c).hostname = c.hostname ∧
      (defaultKeys sys c).protocol = c.protocol ∧
      (defaultKeys sys c).listenAddr = c.listenAddr := by
  unfold defaultKeys
  split_ifs <;> cases held : c.privateKey <;> simp [held]

theorem listenDefault_spec (c : Config κ) :
    (∃ listenAddr, listenDefault sys c = some { c with listenAddr } ∧
      (c.listenAddr ≠ [] → listenAddr ≠ []) ∧
      (c.hostname.isSome ∨ c.listenAddr ≠ [] ∨ sys.listenAddr.isSome)) ∨
    (listenDefault sys c = none ∧ c.hostname = none ∧ c.listenAddr = [] ∧
      sys.listenAddr = none) := by
  unfold listenDefault
  split_ifs with set
  · exact .inl ⟨c.listenAddr, rfl, id, .inr (.inl set)⟩
  · have unset : c.listenAddr = [] := by simpa using set
    cases found : sys.listenAddr with
    | some listenAddr => exact .inl ⟨listenAddr, rfl, absurd unset, by simp⟩
    | none => cases named : c.hostname with
      | none => exact .inr ⟨rfl, rfl, unset, rfl⟩
      | some hostname => exact .inl ⟨_, rfl, absurd unset, by simp⟩

theorem protocolDefault_spec (c : Config κ) :
    (∃ protocol, protocolDefault c = some { c with protocol := some protocol } ∧
      (c.hostname.isSome ∨ c.protocol.isSome)) ∨
    (protocolDefault c = none ∧ c.hostname = none ∧ c.protocol = none) := by
  unfold protocolDefault
  cases told : c.protocol with
  | some protocol => exact .inl ⟨protocol, by simp [← told], by simp⟩
  | none => cases named : c.hostname with
    | none => exact .inr ⟨rfl, rfl, rfl⟩
    | some hostname => exact .inl ⟨_, rfl, by simp⟩

/-- The defaults can be found when a host name is there wherever it is needed, and then they can
be found again. -/
theorem setDefaults_spec (c : Config κ) :
    (Complete sys c ∧ ∃ c', setDefaults sys c = some c' ∧ c'.error = c.error ∧
      Complete sys c') ∨
    (¬ Complete sys c ∧ setDefaults sys c = none) := by
  obtain ⟨same, host, protocol, address⟩ := defaultKeys_keeps sys c
  unfold setDefaults Complete
  rw [← host, ← protocol, ← address, ← same]
  generalize defaultKeys sys c = k
  obtain ⟨listenAddr, listens, kept, known⟩ | ⟨listens, unnamed, unset, unknown⟩ :=
    listenDefault_spec sys k
  · rw [listens, Option.bind_some]
    obtain ⟨protocol, speaks, known'⟩ | ⟨speaks, unnamed, untold⟩ :=
      protocolDefault_spec { k with listenAddr }
    · refine .inl ⟨by tauto, _, speaks, rfl, ?_⟩
      simp only [Option.isSome_some]
      tauto
    · refine .inr ⟨?_, speaks⟩
      simp_all
  · refine .inr ⟨?_, by rw [listens, Option.bind_none]⟩
    simp_all

theorem parse_error (path : Text) (c : Config κ) :
    (parse sys path c).2.error = !(parse sys path c).1 := by
  unfold parse
  split_ifs
  · cases sys.lines path with
    | none => rfl
    | some lines => simp
  · rfl

/-- A file is read, and then the defaults are found or a null pointer is read. -/
theorem fromFile_spec (path : Text) (c : Config κ) :
    (Complete sys (parse sys path c).2 ∧ ∃ c', setDefaults sys (parse sys path c).2 = some c' ∧
      fromFile sys path c = .returned (parse sys path c).1 c' ∧
      c'.error = !(parse sys path c).1 ∧ Complete sys c') ∨
    (¬ Complete sys (parse sys path c).2 ∧ fromFile sys path c = .crashed) := by
  unfold fromFile
  obtain ⟨complete, c', found, same, again⟩ | ⟨incomplete, missing⟩ :=
    setDefaults_spec sys (parse sys path c).2
  · exact .inl ⟨complete, c', found, by simp only [found], by rw [same, parse_error], again⟩
  · exact .inr ⟨incomplete, by simp only [missing]⟩

/-! ## The loop -/

theorem configured_cons (arg : Text) (rest : List Text) (c : Config κ) :
    configured sys c (arg :: rest) =
      configured sys ((setKey sys [] (arg.dropWhile (· = 45)) arg c).getD c) rest := rfl

theorem isOption_iff (arg : Text) :
    isOption arg ↔ arg.head? = some 45 ∧ arg.dropWhile (· = 45) ∈ knownKeys := by
  simp [isOption]

/-- The options in front are taken one by one. -/
theorem loop_append (front rest : List Text) (c : Config κ) (more : rest ≠ [])
    (options : ∀ arg ∈ front, isOption arg) :
    fromArgvLoop sys c (front ++ rest) = fromArgvLoop sys (configured sys c front) rest := by
  induction front generalizing c with
  | nil => rfl
  | cons arg front ih =>
    obtain ⟨dash, known⟩ := (isOption_iff arg).mp (options arg (by simp))
    have nohelp : arg.dropWhile (· = 45) ≠ lit "help" := fun help => keys_help (help ▸ known)
    obtain ⟨c', set⟩ := Option.isSome_iff_exists.mp ((setKey_isSome sys _ arg c).mpr known)
    have goes := ih c' fun arg h => options arg (by simp [h])
    rw [configured_cons, set, Option.getD_some, ← goes]
    simp [fromArgvLoop, dash, nohelp, more, set]

/-- The last option is never taken. -/
theorem loop_options (args : List Text) (c : Config κ) (some_ : args ≠ [])
    (options : ∀ arg ∈ args, isOption arg) :
    ∃ c', fromArgvLoop sys c args = .returned false c' ∧ c'.error = true := by
  obtain ⟨front, last, rfl⟩ := (List.eq_nil_or_concat args).resolve_left some_
  obtain ⟨dash, known⟩ := (isOption_iff last).mp (options last (by simp))
  have nohelp : last.dropWhile (· = 45) ≠ lit "help" := fun help => keys_help (help ▸ known)
  rw [List.concat_eq_append, loop_append sys front [last] c (by simp)
    fun arg h => options arg (by simp [h])]
  exact ⟨{ configured sys c front with error := true }, by simp [fromArgvLoop, dash, nohelp], rfl⟩

/-- At the first argument that is no known option. -/
theorem loop_stops (arg : Text) (rest : List Text) (c : Config κ) (other : ¬ isOption arg) :
    (arg.head? ≠ some 45 ∧ Complete sys (parse sys arg c).2 ∧
      ∃ c', fromArgvLoop sys c (arg :: rest) = .returned false c' ∧
        c'.error = !(parse sys arg c).1) ∨
    (arg.head? ≠ some 45 ∧ ¬ Complete sys (parse sys arg c).2 ∧
      fromArgvLoop sys c (arg :: rest) = .crashed) ∨
    (arg.head? = some 45 ∧ arg.dropWhile (· = 45) = lit "help" ∧
      fromArgvLoop sys c (arg :: rest) = .exited) ∨
    (arg.head? = some 45 ∧ arg.dropWhile (· = 45) ≠ lit "help" ∧
      ∃ c', fromArgvLoop sys c (arg :: rest) = .returned false c' ∧ c'.error = true) := by
  by_cases dash : arg.head? = some 45
  · by_cases help : arg.dropWhile (· = 45) = lit "help"
    · exact .inr (.inr (.inl ⟨dash, help, by simp [fromArgvLoop, dash, help]⟩))
    · have unknown : setKey sys [] (arg.dropWhile (· = 45)) arg c = none := by
        rw [← Option.not_isSome_iff_eq_none, setKey_isSome]
        exact fun known => other ((isOption_iff arg).mpr ⟨dash, known⟩)
      exact .inr (.inr (.inr ⟨dash, help, { c with error := true },
        by simp [fromArgvLoop, dash, help, unknown], rfl⟩))
  · obtain ⟨complete, c', -, read, error, again⟩ | ⟨incomplete, read⟩ := fromFile_spec sys arg c
    · obtain ⟨-, c'', found, same, -⟩ | ⟨incomplete, -⟩ := setDefaults_spec sys c'
      · exact .inl ⟨dash, complete, c'', by simp [fromArgvLoop, dash, read, found],
          by rw [same, error]⟩
      · exact absurd again incomplete
    · exact .inr (.inl ⟨dash, incomplete, by simp [fromArgvLoop, dash, read]⟩)

theorem options_takeWhile (args : List Text) : ∀ arg ∈ args.takeWhile isOption, isOption arg :=
  fun _ taken => List.mem_takeWhile_imp taken

theorem not_option {args rest : List Text} {arg : Text}
    (left : args.dropWhile isOption = arg :: rest) : ¬ isOption arg := by
  have head := List.head_dropWhile_not isOption (l := args) (by simp [left])
  simpa [left] using head

/-- With arguments the call never returns true. -/
theorem loop_not_true (args : List Text) (c c' : Config κ) (some_ : args ≠ []) :
    fromArgvLoop sys c args ≠ .returned true c' := by
  cases left : args.dropWhile isOption with
  | nil =>
    obtain ⟨c'', stops, -⟩ := loop_options sys args c some_ (List.dropWhile_eq_nil_iff.mp left)
    simp [stops]
  | cons arg rest =>
    have other : ¬ isOption arg := not_option left
    rw [← List.takeWhile_append_dropWhile (p := isOption) (l := args), left,
      loop_append sys _ _ c (by simp) (options_takeWhile args)]
    obtain ⟨-, -, c'', stops, -⟩ | ⟨-, -, stops⟩ | ⟨-, -, stops⟩ | ⟨-, -, c'', stops, -⟩ :=
      loop_stops sys arg rest (configured sys c (args.takeWhile isOption)) other <;> simp [stops]

/-- Whether the call refuses wrong arguments is decided by the first that is no known option. -/
theorem loop_refuses (args : List Text) (some_ : args ≠ []) :
    (∃ c, fromArgvLoop sys {} args = .returned false c ∧ c.error = true) ↔
    match args.dropWhile isOption with
    | [] => True
    | arg :: _ =>
      if arg.head? = some 45 then arg.dropWhile (· = 45) ≠ lit "help"
      else
        let (ok, c) := parse sys arg (configured sys {} (args.takeWhile isOption))
        ok = false ∧ Complete sys c := by
  cases left : args.dropWhile isOption with
  | nil =>
    simpa using loop_options sys args {} some_ (List.dropWhile_eq_nil_iff.mp left)
  | cons arg rest =>
    have other : ¬ isOption arg := not_option left
    have goes := loop_append sys (args.takeWhile isOption) (arg :: rest) {} (by simp)
      (options_takeWhile args)
    rw [← left, List.takeWhile_append_dropWhile] at goes
    rw [goes, left]
    obtain ⟨plain, complete, c', stops, error⟩ | ⟨plain, incomplete, stops⟩ |
      ⟨dash, help, stops⟩ | ⟨dash, help, c', stops, error⟩ :=
      loop_stops sys arg rest (configured sys {} (args.takeWhile isOption)) other
    · simp [stops, plain, complete, error]
    · simp [stops, plain, incomplete]
    · simp [stops, dash, help]
    · simp [stops, dash, help, error]

theorem not_right {args : List Text} {file : Option Text} {pairs : List (Text × Text)}
    (some_ : args ≠ []) (reads : readArgs sys args = (file, .options pairs))
    (valid : (parsed sys file).1 = true) : ¬ Right sys args := by
  unfold Right
  rw [reads]
  intro right
  obtain ⟨c, -, called, -⟩ := right valid
  rw [fromArgv, if_neg some_] at called
  exact loop_not_true sys args {} c some_ called

end configurations

/-- A host with one right file, which names the host. -/
def oneFile : System Unit where
  exists_ path := path = lit "/etc/fiy.ini"
  isDirectory _ := true
  lines _ := some [.entry [] (lit "hostname") (lit "example.com")]
  loadFile _ := []
  loadPrivateKey _ := none
  hardwareConcurrency := 8
  listenAddr := none

end CommandLines
