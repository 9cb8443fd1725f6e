import Fiy.FileTrees
import Fiy.WebText

/-!
# Files served by the static mod

A path is a text; `fs::path` reads its elements, and the system calls what stands before
the first zero byte. The root is only made absolute. `weakly_canonical` follows links as
long as the path exists, and takes the rest as it is written. Permissions, and the headers
and bodies of the responses, are left out: it only matters what is opened or listed.
-/

namespace StaticFiles

open ByteStrings WebText PathWalks FileTrees

/-- The names from the root to a place, the last one in front. -/
abbrev Place := List Text

/-! ## Paths -/

/-- The elements of an absolute `fs::path` behind its root directory. A slash at the end
counts as an empty name. -/
def elements (path : Text) : List Text :=
  let names := (path.splitOn 47).filter (· ≠ [])
  if names ≠ [] ∧ path.getLast? = some 47 then names ++ [[]] else names

/-- `operator/` of `fs::path` -/
def slash (path other : Text) : Text :=
  if other.head? = some 47 then other
  else if path = [] ∨ path.getLast? = some 47 then path ++ other
  else path ++ 47 :: other

/-- The canonical path of a place. -/
def placeText (place : Place) : Text := 47 :: List.intercalate [47] place.reverse

/-- `lexically_normal` of an absolute path: where a directory is meant, a slash is left. -/
def lexicallyNormal (path : Text) : Text :=
  let path := (elements path).map segmentMove
  let place := walk [] path
  let open_ := match path.getLast? with
    | some (.down _) => false
    | _ => true
  if open_ = true ∧ place ≠ [] then placeText place ++ [47] else placeText place

/-- What a name in a directory can be. -/
structure IsName (name : Text) : Prop where
  some_ : name ≠ []
  dot : name ≠ "."
  dots : name ≠ ".."
  slash : 47 ∉ name
  zero : 0 ∉ name

structure Disk extends FileTree Text where
  named : ∀ {name : Text} {place : Place} {n : Node Text}, node (name :: place) = some n →
    IsName name

/-- `PATH_MAX` -/
def pathMax : Nat := 4096

/-- The links a system call follows. -/
def maxLinks : Nat := 40

namespace Disk
variable (disk : Disk)

/-- `stat` of an absolute path -/
def status (path : Text) : Except Failure Place :=
  if pathMax ≤ (cstr path).length then .error .refused
  else disk.follow maxLinks [] ((elements (cstr path)).map segmentMove)

/-- The loop of `weakly_canonical`: the elements that exist, and the others. -/
def existing : Text → List Text → Except Failure (Text × List Text)
  | result, [] => .ok (result, [])
  | result, element :: rest => match disk.status (slash result element) with
    | .ok _ => existing (slash result element) rest
    | .error .missing => .ok (result, element :: rest)
    | .error .refused => .error .refused

/-- `fs::weakly_canonical`; a failure is thrown. -/
def weaklyCanonical (path : Text) : Except Failure Text :=
  match disk.status path with
  | .ok place => .ok (placeText place)
  | .error .refused => .error .refused
  | .error .missing => match disk.existing [47] (elements path) with
    | .error why => .error why
    | .ok (result, rest) => match disk.status result with
      | .error why => .error why
      | .ok place => .ok (lexicallyNormal (rest.foldl slash (placeText place)))

/-- The first index file there is in a directory. -/
def findIndex (directory : Text) : List Text → Except Failure (Option Place)
  | [] => .ok none
  | index :: rest => match disk.status (slash directory index) with
    | .error .refused => .error .refused
    | .error .missing => findIndex directory rest
    | .ok place => if disk.node place = some .file then .ok (some place)
      else findIndex directory rest

end Disk

/-! ## The mod -/

structure Site where
  disk : Disk
  /-- `g_static_root` -/
  root : Text
  index : List Text
  listDirectory : Bool
  absolute : root.head? = some 47
  /-- the root with its links followed -/
  home : Place
  resolved : disk.status root = .ok home

/-- The `mod_settings` -/
structure Settings where
  root : Text
  index : List Text := ["index.html", "index.htm", "index.xhtml"].map lit
  listDirectory : Bool := true

/-- The root of the settings, in the directory of the data where it is relative. -/
def configuredRoot (dataDir root : Text) : Text :=
  if root.head? = some 47 then root else slash dataDir root

/-- `fs::absolute` -/
def absolutePath (cwd path : Text) : Text := if path.head? = some 47 then path else slash cwd path

theorem absolutePath_absolute {cwd : Text} (rooted : cwd.head? = some 47) (path : Text) :
    (absolutePath cwd path).head? = some 47 := by
  unfold absolutePath slash
  have some_ : cwd ≠ [] := by
    rintro rfl
    cases rooted
  split_ifs
  · assumption
  · rwa [List.head?_append_of_ne_nil cwd some_]
  · rwa [List.head?_append_of_ne_nil cwd some_]

/-- `start`: the root has to be there. -/
def start (disk : Disk) (cwd dataDir : Text) (rooted : cwd.head? = some 47) (settings : Settings) :
    Option Site :=
  let root := configuredRoot dataDir settings.root
  if root = [] then none
  else match resolved : disk.status (absolutePath cwd root) with
    | .error _ => none
    | .ok home => some {
        disk
        root := absolutePath cwd root
        index := settings.index
        listDirectory := settings.listDirectory
        absolute := absolutePath_absolute rooted root
        home
        resolved }

inductive Answer
  /-- 400 -/
  | tooLong
  /-- 403 -/
  | forbidden
  /-- 404 -/
  | notFound
  /-- an open file -/
  | file (place : Place)
  /-- the names in a directory -/
  | listing (place : Place)
  /-- 500, a file system error -/
  | failed
  deriving DecidableEq, Repr

/-- What is opened or listed for an answer. -/
def Answer.reads : Answer → List Place
  | .file place => [place]
  | .listing place => [place]
  | _ => []

namespace Site
variable (site : Site)

/-- The part of the decoded path that is looked for, without slashes in front. -/
def urlPath (decoded : Text) : Text :=
  (decoded.takeWhile fun b => b ≠ 63 ∧ b ≠ 35).dropWhile (· = 47)

def decoded (path : Text) : Text := uriDecode (cstr path)

/-- The file that is asked for. -/
def target (path : Text) : Text := slash site.root (urlPath (decoded path))

/-- The comparison of the elements. -/
def Extends (normalized : Text) : Prop := elements site.root <+: elements normalized

instance (normalized : Text) : Decidable (site.Extends normalized) :=
  inferInstanceAs (Decidable (_ <+: _))

/-- What is at a path that has passed the comparison. -/
def serve (normalized : Text) : Answer :=
  match site.disk.status normalized with
  | .error .refused => .failed
  | .error .missing => .notFound
  | .ok place => match site.disk.node place with
    | some .dir => match site.disk.findIndex normalized site.index with
      | .error _ => .failed
      | .ok (some file) => .file file
      | .ok none => if site.listDirectory then .listing place else .notFound
    | some .file => .file place
    | _ => .notFound

def answer (path : Text) : Answer :=
  if pathMax ≤ (decoded path).length then .tooLong
  else match site.disk.weaklyCanonical (site.target path) with
    | .error _ => .failed
    | .ok normalized => if site.Extends normalized then site.serve normalized else .forbidden

/-- The page for missing files, which is loaded once. -/
def errorPage : List Place :=
  match site.disk.status (slash site.root "404.html") with
  | .ok place => [place]
  | .error _ => []

/-- `handle_request`: the answer, and what is opened or listed for it. -/
def handleRequest (first : Bool) (path : Text) : List Place × Answer :=
  ((if first then site.errorPage else []) ++ (site.answer path).reads, site.answer path)

/-- Everything that is read lies inside the resolved root. -/
def Contained (first : Bool) (path : Text) : Prop :=
  ∀ place ∈ (site.handleRequest first path).1, Inside place site.home

/-! ## When it is contained -/

/-- The index file of a directory lies inside the root, where there is one. -/
def IndexInside (directory : Text) : Prop :=
  ∀ file, site.disk.findIndex directory site.index = .ok (some file) → Inside file site.home

/-- A file lies inside the root. So does the index file of a directory, or the directory
itself if it is listed. -/
def ServedInside (normalized : Text) (place : Place) : Prop :=
  (site.disk.node place = some .file → Inside place site.home) ∧
    (site.disk.node place = some .dir → site.IndexInside normalized ∧
      (site.disk.findIndex normalized site.index = .ok none → site.listDirectory = true →
        Inside place site.home))

/-- The condition under which nothing outside the root is read. -/
structure Condition (first : Bool) (path : Text) : Prop where
  /-- The page for missing files is not a link that leads out. -/
  page : first = true → ∀ place, site.disk.status (slash site.root "404.html") = .ok place →
    Inside place site.home
  /-- If the path exists, the index file of a directory does not lead out. -/
  index : (decoded path).length < pathMax → ∀ place,
    site.disk.status (site.target path) = .ok place → site.Extends (placeText place) →
      site.disk.status (placeText place) = .ok place → site.disk.node place = some .dir →
        site.IndexInside (placeText place)
  /-- If it does not, what is found behind the path without its dots does not lie outside. -/
  tail : (decoded path).length < pathMax → site.disk.status (site.target path) = .error .missing →
    ∀ normalized place, site.disk.weaklyCanonical (site.target path) = .ok normalized →
      site.Extends normalized → site.disk.status normalized = .ok place →
        site.ServedInside normalized place

end Site

/-! ## Elements -/

theorem segmentMove_of_isName {name : Text} (h : IsName name) : segmentMove name = .down name := by
  rw [segmentMove, if_neg (not_or.mpr ⟨h.some_, h.dot⟩), if_neg h.dots]

theorem splitOn_placeText {place : Place} (named : ∀ name ∈ place, IsName name)
    (below : place ≠ []) : (placeText place).splitOn 47 = [] :: place.reverse := by
  have joined : (List.intercalate [47] place.reverse).splitOn 47 = place.reverse := by
    refine List.splitOn_intercalate 47 ?_ (mt List.reverse_eq_nil_iff.mp below)
    intro name mem
    exact (named name (List.mem_reverse.mp mem)).slash
  have first : (placeText place).splitOn 47 =
      [[]] ++ (List.intercalate [47] place.reverse).splitOn 47 :=
    List.splitOn_append_cons_self [] _
  rw [first, joined]
  rfl

/-- A path does not end with a slash where its last segment is a name. -/
theorem getLast?_of_splitOn {path : Text} {front : List Text} {last : Text} (some_ : last ≠ [])
    (split : path.splitOn 47 = front ++ [last]) : path.getLast? ≠ some 47 := by
  intro slash
  obtain ⟨before, rfl⟩ := List.getLast?_eq_some_iff.mp slash
  rw [List.splitOn_append_cons_self] at split
  have ends := congrArg List.getLast? split
  simp only [List.splitOn_nil, List.getLast?_concat, Option.some.injEq] at ends
  exact some_ ends.symm

theorem elements_placeText {place : Place} (named : ∀ name ∈ place, IsName name) :
    elements (placeText place) = place.reverse := by
  cases place with
  | nil => decide
  | cons last above =>
    have split := splitOn_placeText named (List.cons_ne_nil last above)
    have whole : ((placeText (last :: above)).splitOn 47).filter (· ≠ []) =
        (last :: above).reverse := by
      rw [split, List.filter_cons_of_neg (by simp), List.filter_eq_self]
      intro name mem
      simpa using (named name (List.mem_reverse.mp mem)).some_
    have ends : (placeText (last :: above)).getLast? ≠ some 47 := by
      have segments : (placeText (last :: above)).splitOn 47 = ([] :: above.reverse) ++ [last] := by
        rw [split, List.reverse_cons, List.cons_append]
      exact getLast?_of_splitOn (named last List.mem_cons_self).some_ segments
    simp only [elements, whole, ends, and_false, if_false]

/-- Every byte but the slashes is in one of the elements. -/
theorem mem_elements {path : Text} {b : Byte} (mem : b ∈ path) (other : b ≠ 47) :
    ∃ element ∈ elements path, b ∈ element := by
  have segments : b ∈ List.intercalate [47] (path.splitOn 47) := by
    rwa [List.intercalate_splitOn]
  obtain ⟨segment, split, inside⟩ := (mem_intercalate_iff other).mp segments
  refine ⟨segment, ?_, inside⟩
  have kept : segment ∈ (path.splitOn 47).filter (· ≠ []) :=
    List.mem_filter.mpr ⟨split, by simpa using List.ne_nil_of_mem inside⟩
  simp only [elements]
  split
  · exact List.mem_append_left _ kept
  · exact kept

/-! ## Canonical paths -/

section canonical
variable {disk : Disk} {place : Place}

theorem named_of_isReal (real : disk.IsReal place) : ∀ name ∈ place, IsName name := by
  induction place with
  | nil =>
    intro name mem
    cases mem
  | cons last above ih =>
    intro name mem
    rcases List.mem_cons.mp mem with rfl | mem
    · obtain ⟨n, there, _⟩ := real
      exact disk.named there
    · exact ih real.tail name mem

theorem moves_of_names (named : ∀ name ∈ place, IsName name) :
    place.reverse.map segmentMove = place.reverse.map Move.down := by
  apply List.map_congr_left
  intro name mem
  exact segmentMove_of_isName (named name (List.mem_reverse.mp mem))

/-- Without a zero byte in its elements, a path is what the system calls see. -/
theorem cstr_of_elements {path : Text} (named : ∀ element ∈ elements path, IsName element) :
    cstr path = path := by
  rw [cstr_eq_self_iff]
  intro zero
  obtain ⟨element, listed, inside⟩ := mem_elements zero (by decide)
  exact (named element listed).zero inside

theorem status_real {path : Text} (found : disk.status path = .ok place) : disk.IsReal place := by
  unfold Disk.status at found
  split at found
  · cases found
  · exact FileTree.follow_real FileTree.isReal_root found

/-- A path whose elements are the names of a real place leads there, unless it is too long. -/
theorem status_elements_eq {path : Text} (real : disk.IsReal place)
    (names : elements path = place.reverse) :
    disk.status path = if pathMax ≤ path.length then .error .refused else .ok place := by
  have named := named_of_isReal real
  have whole : cstr path = path := by
    apply cstr_of_elements
    intro element listed
    rw [names, List.mem_reverse] at listed
    exact named element listed
  rw [Disk.status, whole, names, moves_of_names named, FileTree.follow_names maxLinks real]

theorem status_of_elements {path : Text} {found : Place} (real : disk.IsReal place)
    (names : elements path = place.reverse) (status : disk.status path = .ok found) :
    found = place := by
  rw [status_elements_eq real names] at status
  split at status
  · cases status
  · cases status
    rfl

theorem status_placeText {found : Place} (real : disk.IsReal place)
    (status : disk.status (placeText place) = .ok found) : found = place :=
  status_of_elements real (elements_placeText (named_of_isReal real)) status

end canonical

section sites
variable {site : Site}

/-- A canonical path that extends the root, as it is written, lies inside the root. So the
root has to be canonical itself. -/
theorem inside_of_extends {place : Place} (real : site.disk.IsReal place)
    (extends_ : site.Extends (placeText place)) : Inside place site.home := by
  obtain ⟨below, names⟩ := extends_
  rw [elements_placeText (named_of_isReal real)] at names
  have inside : Inside place (elements site.root).reverse := by
    refine ⟨below.reverse, ?_⟩
    rw [← List.reverse_append, names, List.reverse_reverse]
  have home := status_of_elements (real.outer inside) (List.reverse_reverse _).symm site.resolved
  rwa [home]

theorem served_inside_iff {normalized : Text} {place : Place}
    (found : site.disk.status normalized = .ok place) :
    (∀ read ∈ (site.serve normalized).reads, Inside read site.home) ↔
      site.ServedInside normalized place := by
  unfold Site.serve Site.ServedInside Site.IndexInside
  simp only [found]
  cases kind : site.disk.node place with
  | none => simp [Answer.reads]
  | some n =>
    cases n with
    | file => simp [Answer.reads]
    | special => simp [Answer.reads]
    | link absolute target => simp [Answer.reads]
    | dir =>
      cases index : site.disk.findIndex normalized site.index with
      | error why => simp [Answer.reads]
      | ok file =>
        cases file with
        | some file => simp [Answer.reads]
        | none => cases site.listDirectory <;> simp [Answer.reads]

/-- What has passed the comparison is served from inside the root, or there is nothing. -/
theorem serve_reads_iff {normalized : Text} :
    (∀ read ∈ (site.serve normalized).reads, Inside read site.home) ↔
      ∀ place, site.disk.status normalized = .ok place → site.ServedInside normalized place := by
  cases status : site.disk.status normalized with
  | error why =>
    have unread : (site.serve normalized).reads = [] := by
      rw [Site.serve, status]
      cases why <;> rfl
    simp [unread]
  | ok place =>
    rw [served_inside_iff status]
    simp

theorem reads_of_existing {path : Text} {place : Place} (short : (Site.decoded path).length < pathMax)
    (found : site.disk.status (site.target path) = .ok place) :
    (∀ read ∈ (site.answer path).reads, Inside read site.home) ↔
      (site.Extends (placeText place) → site.disk.status (placeText place) = .ok place →
        site.disk.node place = some .dir → site.IndexInside (placeText place)) := by
  have real := status_real found
  rw [Site.answer, if_neg (Nat.not_le.mpr short), Disk.weaklyCanonical, found]
  by_cases extends_ : site.Extends (placeText place)
  · have inside := inside_of_extends real extends_
    simp only [extends_, if_true, serve_reads_iff, true_imp_iff]
    constructor
    · intro served status dir
      exact ((served place status).2 dir).1
    · intro index other status
      obtain rfl := status_placeText real status
      exact ⟨fun _ => inside, fun dir => ⟨index status dir, fun _ _ => inside⟩⟩
  · simp [extends_, Answer.reads]

theorem reads_of_tooLong {path : Text} (long : ¬ (Site.decoded path).length < pathMax) :
    (site.answer path).reads = [] := by
  rw [Site.answer, if_pos (Nat.not_lt.mp long)]
  rfl

theorem reads_iff_canonical {path : Text} (short : (Site.decoded path).length < pathMax) :
    (∀ read ∈ (site.answer path).reads, Inside read site.home) ↔
      ∀ normalized, site.disk.weaklyCanonical (site.target path) = .ok normalized →
        site.Extends normalized → ∀ place, site.disk.status normalized = .ok place →
          site.ServedInside normalized place := by
  rw [Site.answer, if_neg (Nat.not_le.mpr short)]
  cases site.disk.weaklyCanonical (site.target path) with
  | error why => simp [Answer.reads]
  | ok normalized =>
    by_cases extends_ : site.Extends normalized
    · simp [extends_, serve_reads_iff]
    · simp [extends_, Answer.reads]

theorem errorPage_inside_iff : (∀ read ∈ site.errorPage, Inside read site.home) ↔
    ∀ place, site.disk.status (slash site.root "404.html") = .ok place → Inside place site.home := by
  unfold Site.errorPage
  cases site.disk.status (slash site.root "404.html") <;> simp

theorem contained_parts (first : Bool) (path : Text) : site.Contained first path ↔
    (first = true → ∀ read ∈ site.errorPage, Inside read site.home) ∧
      ∀ read ∈ (site.answer path).reads, Inside read site.home := by
  unfold Site.Contained Site.handleRequest
  rw [List.forall_mem_append]
  cases first <;> simp

end sites

/-- Nothing outside the root is read exactly when the condition holds. -/
theorem contained_iff (site : Site) (first : Bool) (path : Text) :
    site.Contained first path ↔ site.Condition first path := by
  rw [contained_parts, errorPage_inside_iff]
  constructor
  · rintro ⟨page, reads⟩
    refine ⟨page, ?_, ?_⟩
    · intro short place found
      exact (reads_of_existing short found).mp reads
    · intro short _ normalized place canonical extends_ found
      exact (reads_iff_canonical short).mp reads normalized canonical extends_ place found
  · rintro ⟨page, index, tail⟩
    refine ⟨page, ?_⟩
    by_cases short : (Site.decoded path).length < pathMax
    · cases status : site.disk.status (site.target path) with
      | ok place => exact (reads_of_existing short status).mpr (index short place status)
      | error why =>
        rw [reads_iff_canonical short]
        intro normalized canonical extends_ place found
        cases why with
        | missing => exact tail short status normalized place canonical extends_ found
        | refused =>
          rw [Disk.weaklyCanonical, status] at canonical
          cases canonical
    · rw [reads_of_tooLong short]
      exact List.forall_mem_nil _

/-! ## Ways out -/

instance (name : Text) : Decidable (IsName name) :=
  decidable_of_iff (name ≠ [] ∧ name ≠ "." ∧ name ≠ ".." ∧ 47 ∉ name ∧ 0 ∉ name)
    ⟨fun ⟨a, b, c, d, e⟩ => ⟨a, b, c, d, e⟩, fun ⟨a, b, c, d, e⟩ => ⟨a, b, c, d, e⟩⟩

/-- The entry is the root, or a name in a directory that is listed too. -/
def Placed (entries : List (Place × Node Text)) : Place → Prop
  | [] => True
  | name :: place => List.lookup place entries = some .dir ∧ name.length ≤ 255 ∧ IsName name

instance (entries : List (Place × Node Text)) : (place : Place) → Decidable (Placed entries place)
  | [] => inferInstanceAs (Decidable True)
  | _ :: _ => inferInstanceAs (Decidable (_ ∧ _))

theorem placed_of_lookup {entries : List (Place × Node Text)} {place : Place} {n : Node Text}
    (placed : ∀ e ∈ entries, Placed entries e.1) (found : List.lookup place entries = some n) :
    Placed entries place := by
  obtain ⟨before, after, split, _⟩ := List.lookup_eq_some_iff.mp found
  exact placed (place, n) (split ▸ List.mem_append_right before List.mem_cons_self)

/-- The disk with these entries. -/
def diskOf (entries : List (Place × Node Text)) (root : List.lookup [] entries = some .dir)
    (placed : ∀ e ∈ entries, Placed entries e.1) : Disk where
  node := fun place => List.lookup place entries
  refuses := fun name => decide (255 < name.length)
  root
  parent := fun found => (placed_of_lookup placed found).1
  admitted := fun found => decide_eq_false (Nat.not_lt.mpr (placed_of_lookup placed found).2.1)
  named := fun found => (placed_of_lookup placed found).2.2

/-- A link out of the root, an index file and a page for missing files that are links. -/
def demoDisk : Disk :=
  diskOf [([], .dir), (["srv"], .dir), (["www", "srv"], .dir), (["etc"], .dir),
    (["passwd", "etc"], .file), (["out", "www", "srv"], .link true [.down "etc"]),
    (["docs", "www", "srv"], .dir),
    (["index.html", "docs", "www", "srv"], .link true [.down "etc", .down "passwd"]),
    (["404.html", "www", "srv"], .link true [.down "etc", .down "passwd"])]
    (by decide +kernel) (by decide +kernel)

def demoSite : Site where
  disk := demoDisk
  root := "/srv/www"
  index := ["index.html"]
  listDirectory := true
  absolute := by decide
  home := ["www", "srv"]
  resolved := by decide +kernel

/-- A link behind a directory that is not there, the directory above the root by way of a
zero byte, an index file, and the page for missing files. -/
theorem root_is_left :
    (demoSite.answer "/out/passwd" = .forbidden ∧
      demoSite.answer "/nope/../out/passwd" = .file ["passwd", "etc"] ∧
      ¬ demoSite.Contained false "/nope/../out/passwd") ∧
    (demoSite.answer "/nope/../..%00" = .listing ["srv"] ∧
      ¬ demoSite.Contained false "/nope/../..%00") ∧
    (demoSite.answer "/docs" = .file ["passwd", "etc"] ∧ ¬ demoSite.Contained false "/docs") ∧
    demoSite.answer "/none" = .notFound ∧ ¬ demoSite.Contained true "/none" := by
  unfold Site.Contained
  decide +kernel

end StaticFiles
