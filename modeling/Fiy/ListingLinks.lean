import Fiy.LinklessSites
import Fiy.StaticAnswers
import Fiy.UriComponents

/-!
# Links of a directory listing

What `list_directory_body` writes for an entry, and what the request for it looks up.
-/

namespace ListingLinks

open ByteStrings WebText UriComponents PathWalks FileTrees StaticFiles LinklessSites StaticAnswers

/-! ## Links -/

/-- The link of an entry, as it is written. -/
def entryLink (name : Text) (isDir : Bool) : Text :=
  lit "./" ++ uriEncode name ++ if isDir then lit "/" else []

theorem entryLine_link (name : Text) (isDir : Bool) :
    Server.entryLine (name, isDir) = lit "<a href=\"" ++ entryLink name isDir ++ lit "\">" ++
      name ++ (if isDir then lit "/" else []) ++ lit "</a>\n" := by
  have front : lit "<a href=\"./" = lit "<a href=\"" ++ lit "./" := by decide
  simp only [Server.entryLine, entryLink, front, List.append_assoc]

/-- `is_directory` of an entry -/
def isDirectory (disk : Disk) (directory name : Text) : Bool :=
  match disk.status (slash directory name) with
  | .ok place => decide (disk.node place = some .dir)
  | .error _ => false

/-- The path of a directory in the site, as the handler decodes it. -/
def directoryText (below : List Text) : Text := 47 :: below.flatMap fun name => name ++ [47]

section sites
variable (site : Site)

/-- The names that are looked up behind the root, unless the path is refused for its length. A
point stays where it is. -/
def lookedUp (path : Text) : Option (List Text) :=
  if pathMax ≤ (Site.decoded path).length then none
  else some ((names (Site.urlPath (Site.decoded path))).filter (· ≠ lit "."))

/-- A directory that the names lead to from the root. -/
structure Directory (below : List Text) (place : Place) : Prop where
  named : ∀ name ∈ below, IsName name
  found : site.disk.follow maxLinks [] ((names site.root ++ below).map segmentMove) = .ok place
  dir : site.disk.node place = some .dir

/-- A request leads to an entry: its name is looked up in the directory, and what is found is the
entry, unless that is a link to something else or the path too long for the system. -/
structure Opens (below : List Text) (place : Place) (name path : Text) : Prop where
  names : lookedUp path = some (below ++ [name])
  found : 0 ∉ site.root → site.disk.IsReal (name :: place) →
    (site.target path).length < pathMax →
    site.disk.weaklyCanonical (site.target path) = .ok (placeText (name :: place))

/-- Neither a query nor a fragment can begin in the text. -/
def Uncut (text : Text) : Prop := ∀ b ∈ text, b ≠ 63 ∧ b ≠ 35

instance (text : Text) : Decidable (Uncut text) :=
  List.decidableBAll (fun b => b ≠ 63 ∧ b ≠ 35) text

end sites

/-! ## Requests -/

/-- The path of an entry behind that of its directory. -/
def entryText (below : List Text) (name : Text) (isDir : Bool) : Text :=
  directoryText below ++ (lit "./" ++ (name ++ if isDir then lit "/" else []))

theorem uriDecode_entryLink (name : Text) (isDir : Bool) :
    uriDecode (entryLink name isDir) = lit "./" ++ (name ++ if isDir then lit "/" else []) := by
  have point : (46 : Byte) ≠ 43 ∧ (46 : Byte) ≠ 37 := by decide
  have slash_ : (47 : Byte) ≠ 43 ∧ (47 : Byte) ≠ 37 := by decide
  have dots (rest : Text) : uriDecode (lit "./" ++ rest) = lit "./" ++ uriDecode rest := by
    have front (rest : Text) : lit "./" ++ rest = 46 :: 47 :: rest := rfl
    rw [front, front, uriDecode_other point.1 point.2, uriDecode_other slash_.1 slash_.2]
  rw [entryLink, List.append_assoc, dots]
  cases isDir with
  | false => simp [uriDecode_uriEncode]
  | true =>
    have ends : lit "/" = 47 :: [] := rfl
    have nothing : uriDecode [47] = [47] := by decide
    simp only [if_true, ends]
    rw [uriDecode_append (by decide), uriDecode_uriEncode, nothing]

/-- The path of a directory and a link in it decode to the path of the entry. -/
theorem decoded_link {request : Text} {below : List Text} (name : Text) (isDir : Bool)
    (decoded : Site.decoded request = directoryText below) :
    Site.decoded (cstr request ++ entryLink name isDir) = entryText below name isDir := by
  have whole : cstr (cstr request ++ entryLink name isDir) =
      cstr request ++ entryLink name isDir := by
    rw [cstr_eq_self_iff, entryLink]
    have encoded : 0 ∉ uriEncode name := notMem_uriEncode (by decide) name
    have first : 0 ∉ cstr request := by
      intro zero
      simpa using List.mem_takeWhile_imp zero
    cases isDir with
    | false => simp [first, encoded, show (0 : Byte) ∉ lit "./" by decide]
    | true => simp [first, encoded, show (0 : Byte) ∉ lit "./" by decide,
        show (0 : Byte) ∉ lit "/" by decide]
  have begins : entryLink name isDir = 46 :: (entryLink name isDir).tail := rfl
  rw [Site.decoded, whole, begins, uriDecode_append (by decide), ← begins, uriDecode_entryLink]
  exact congrArg (· ++ _) decoded

/-! ## Names -/

theorem names_dropSlashes (text : Text) : names (text.dropWhile (· = 47)) = names text := by
  induction text with
  | nil => rfl
  | cons b text ih =>
    by_cases slash : b = 47
    · subst slash
      have behind : names (47 :: text) = names text := names_append [] text
      rw [List.dropWhile_cons_of_pos (by simp), ih, behind]
    · rw [List.dropWhile_cons_of_neg (by simpa using slash)]

theorem names_directoryText {below : List Text} (named : ∀ name ∈ below, IsName name)
    (rest : Text) : names (directoryText below ++ rest) = below ++ names rest := by
  have behind : names (directoryText below ++ rest) =
      names ((below.flatMap fun name => name ++ [47]) ++ rest) := names_append [] _
  rw [behind]
  induction below with
  | nil => rfl
  | cons name below ih =>
    obtain ⟨first, named⟩ := List.forall_mem_cons.mp named
    rw [List.flatMap_cons, List.append_assoc, List.append_assoc, List.singleton_append,
      names_append, names_of_isName first, ih named (names_append [] _), List.singleton_append,
      List.cons_append]

theorem names_entryText {below : List Text} {name : Text} (named : ∀ name ∈ below, IsName name)
    (name_ : IsName name) (isDir : Bool) :
    names (entryText below name isDir) = below ++ [lit ".", name] := by
  have point (rest : Text) : names (lit "./" ++ rest) = lit "." :: names rest :=
    names_append (lit ".") rest
  rw [entryText, names_directoryText named, point]
  cases isDir with
  | false => simp [names_of_isName name_]
  | true =>
    have slash : names (name ++ lit "/") = names name ++ names [] := names_append name []
    have nothing : names [] = [] := rfl
    simp [slash, nothing, names_of_isName name_]

theorem mem_entryText {below : List Text} {name : Text} {isDir : Bool} {b : Byte}
    (mem : b ∈ entryText below name isDir) :
    b = 46 ∨ b = 47 ∨ b ∈ name ∨ ∃ first ∈ below, b ∈ first := by
  rw [entryText, directoryText, List.mem_append, List.mem_append, List.mem_append,
    List.mem_cons, List.mem_flatMap] at mem
  rcases mem with (rfl | ⟨first, listed, inside⟩) | inside | inside | inside
  · exact .inr (.inl rfl)
  · rcases List.mem_append.mp inside with inside | inside
    · exact .inr (.inr (.inr ⟨first, listed, inside⟩))
    · exact .inr (.inl (List.mem_singleton.mp inside))
  · have point : lit "./" = [46, 47] := rfl
    rw [point, List.mem_pair] at inside
    exact inside.imp_right Or.inl
  · exact .inr (.inr (.inl inside))
  · cases isDir with
    | false => cases inside
    | true => exact .inr (.inl (List.mem_singleton.mp inside))

theorem uncut_entryText {below : List Text} {name : Text} (name_ : Uncut name)
    (below_ : ∀ name ∈ below, Uncut name) (isDir : Bool) : Uncut (entryText below name isDir) := by
  intro b mem
  rcases mem_entryText mem with rfl | rfl | inside | ⟨first, listed, inside⟩
  · decide
  · decide
  · exact name_ b inside
  · exact below_ first listed b inside

theorem urlPath_of_uncut {decoded : Text} (uncut : Uncut decoded) :
    Site.urlPath decoded = decoded.dropWhile (· = 47) := by
  have whole : (decoded.takeWhile fun b => b ≠ 63 ∧ b ≠ 35) = decoded := by
    rw [List.takeWhile_eq_self_iff]
    intro b mem
    exact decide_eq_true (uncut b mem)
  rw [Site.urlPath, whole]

/-- Whatever is looked up is in front of the query. -/
theorem uncut_of_mem_names {decoded name : Text} (listed : name ∈ names (Site.urlPath decoded)) :
    Uncut name := by
  intro b inside
  have mem := List.mem_takeWhile_imp
    ((List.dropWhile_sublist _).subset (mem_of_mem_names listed inside).1)
  simpa using mem

/-- The names that are looked up for a link are those of its entry, if nothing cuts the path. -/
theorem lookedUp_iff {path name : Text} {below : List Text} {isDir : Bool}
    (named : ∀ name ∈ below, IsName name) (name_ : IsName name)
    (decoded : Site.decoded path = entryText below name isDir) :
    lookedUp path = some (below ++ [name]) ↔
      (entryText below name isDir).length < pathMax ∧ Uncut name ∧
        ∀ name ∈ below, Uncut name := by
  rw [lookedUp, decoded]
  constructor
  · intro found
    split at found
    · cases found
    next short =>
      have same := Option.some.inj found
      have clean : ∀ first ∈ below ++ [name], Uncut first := by
        intro first listed
        rw [← same] at listed
        exact uncut_of_mem_names (List.mem_filter.mp listed).1
      exact ⟨Nat.not_le.mp short, clean name (by simp),
        fun first listed => clean first (List.mem_append_left _ listed)⟩
  · rintro ⟨short, uncut, uncut'⟩
    rw [if_neg (Nat.not_le.mpr short), urlPath_of_uncut (uncut_entryText uncut uncut' isDir),
      names_dropSlashes, names_entryText named name_, List.filter_append,
      List.filter_cons_of_neg (by simp), List.filter_cons_of_pos (by simpa using name_.dot)]
    have kept : below.filter (· ≠ lit ".") = below := by
      rw [List.filter_eq_self]
      intro first listed
      simpa using (named first listed).dot
    rw [kept]
    rfl

/-! ## Entries -/

section found
variable {site : Site} {below : List Text} {place : Place} {name path : Text}

/-- The path of an entry, relative to the root. -/
def relativeText (below : List Text) (name : Text) (isDir : Bool) : Text :=
  (below.flatMap fun name => name ++ [47]) ++ (lit "./" ++ (name ++ if isDir then lit "/" else []))

theorem relativeText_head (named : ∀ name ∈ below, IsName name) (isDir : Bool) :
    (relativeText below name isDir).head? ≠ some 47 := by
  rw [relativeText]
  cases below with
  | nil =>
    have point : lit "./" = [46, 47] := rfl
    simp [point]
  | cons first below =>
    have first_ := named first List.mem_cons_self
    rw [List.flatMap_cons, List.append_assoc, List.append_assoc,
      List.head?_append_of_ne_nil first first_.some_]
    exact relative_of_isName first_

theorem target_eq (named : ∀ name ∈ below, IsName name) {isDir : Bool}
    (decoded : Site.decoded path = entryText below name isDir)
    (uncut : Uncut (Site.decoded path)) :
    site.target path = slash site.root (relativeText below name isDir) := by
  have front : entryText below name isDir = 47 :: relativeText below name isDir := rfl
  have relative : (relativeText below name isDir).dropWhile (· = 47) =
      relativeText below name isDir := by
    have head : (relativeText below name isDir).head? ≠ some 47 := relativeText_head named isDir
    cases text : relativeText below name isDir with
    | nil => rfl
    | cons b rest =>
      rw [text] at head
      rw [List.dropWhile_cons_of_neg (by simpa using head)]
  rw [Site.target, urlPath_of_uncut uncut, decoded, front,
    List.dropWhile_cons_of_pos (by simp), relative]

/-- A path that ends in a name has no slash there. -/
theorem elements_of_name (name_ : IsName name) (front : Text) :
    elements (front ++ name) = names (front ++ name) := by
  have open_ : (front ++ name).getLast? ≠ some 47 := by
    rw [List.getLast?_append_of_ne_nil front name_.some_]
    intro last
    exact name_.slash (List.mem_of_getLast? last)
  simp only [elements, open_, and_false, if_false]
  rfl

theorem slash_ends {other : Text} (relative : other.head? ≠ some 47) {front : Text}
    (ends : other = front ++ name) (path : Text) : ∃ more, slash path other = more ++ name := by
  rw [slash, if_neg relative, ends]
  split
  · exact ⟨path ++ front, (List.append_assoc path front name).symm⟩
  · exact ⟨path ++ 47 :: front, (List.append_assoc path (47 :: front) name).symm⟩

theorem elements_slash {other : Text} (relative : other.head? ≠ some 47) (name_ : IsName name)
    {front : Text} (ends : other = front ++ name) (path : Text) :
    elements (slash path other) = names path ++ names other := by
  obtain ⟨more, whole⟩ := slash_ends relative ends path
  rw [← names_slash relative, whole, elements_of_name name_]

theorem names_target (named : ∀ name ∈ below, IsName name) (name_ : IsName name) (isDir : Bool) :
    names (slash site.root (relativeText below name isDir)) =
      names site.root ++ (below ++ [lit ".", name]) := by
  have front : names (entryText below name isDir) = names (relativeText below name isDir) :=
    names_append [] _
  rw [names_slash (relativeText_head named isDir), ← front, names_entryText named name_]

/-- An entry that is marked as a directory is one. -/
theorem dir_of_isDirectory {disk : Disk} (real : disk.IsReal (name :: place))
    (marked : isDirectory disk (placeText place) name = true) :
    disk.node (name :: place) = some .dir := by
  have named := named_of_isReal real
  have name_ := named name List.mem_cons_self
  have above : ∀ name ∈ place, IsName name :=
    fun n listed => named n (List.mem_cons_of_mem _ listed)
  unfold isDirectory at marked
  cases status : disk.status (slash (placeText place) name) with
  | error why =>
    rw [status] at marked
    cases marked
  | ok found =>
    have names_ : elements (slash (placeText place) name) = (name :: place).reverse := by
      rw [elements_slash (relative_of_isName name_) name_ (List.nil_append name).symm,
        names_placeText above, names_of_isName name_, List.reverse_cons]
    obtain rfl := status_of_elements real names_ status
    simpa [status] using marked

theorem relativeText_plain (named : ∀ name ∈ below, IsName name) (name_ : IsName name)
    (isDir : Bool) : 0 ∉ relativeText below name isDir := by
  intro zero
  rcases mem_entryText (List.mem_cons_of_mem 47 zero) with mem | mem | mem | ⟨first, listed, mem⟩
  · cases mem
  · cases mem
  · exact name_.zero mem
  · exact (named first listed).zero mem

/-- The elements of the path are its names. A slash at the end is only behind a directory, where
it leads nowhere else. -/
theorem elements_target (named : ∀ name ∈ below, IsName name)
    (real : site.disk.IsReal (name :: place)) (left : Nat) :
    ∃ more : List Text,
      elements (slash site.root
        (relativeText below name (isDirectory site.disk (placeText place) name))) =
          names site.root ++ (below ++ [lit ".", name]) ++ more ∧
        site.disk.follow left (name :: place) (more.map segmentMove) = .ok (name :: place) := by
  have name_ := named_of_isReal real name List.mem_cons_self
  cases marked : isDirectory site.disk (placeText place) name with
  | false =>
    refine ⟨[], ?_, FileTree.follow_nil left _⟩
    have ends : relativeText below name false =
        ((below.flatMap fun name => name ++ [47]) ++ lit "./") ++ name := by
      simp [relativeText]
    rw [elements_slash (relativeText_head named false) name_ ends,
      ← names_slash (relativeText_head named false), names_target named name_, List.append_nil]
  | true =>
    rcases elements_eq (slash site.root (relativeText below name true)) with same | same
    · exact ⟨[], by rw [same, names_target named name_, List.append_nil],
        FileTree.follow_nil left _⟩
    · refine ⟨[[]], by rw [same, names_target named name_], ?_⟩
      exact (FileTree.follow_stay_dir (dir_of_isDirectory real marked) []).trans
        (FileTree.follow_nil left _)

/-- The names lead to the entry, behind the directory. -/
theorem weaklyCanonical_target (directory : Directory site below place)
    (real : site.disk.IsReal (name :: place)) (whole : 0 ∉ site.root)
    (decoded : Site.decoded path =
      entryText below name (isDirectory site.disk (placeText place) name))
    (uncut : Uncut (Site.decoded path)) (short : (site.target path).length < pathMax) :
    site.disk.weaklyCanonical (site.target path) = .ok (placeText (name :: place)) := by
  have name_ := named_of_isReal real name List.mem_cons_self
  have named := directory.named
  have target : site.target path = _ := target_eq named decoded uncut
  have whole_ : cstr (site.target path) = site.target path :=
    cstr_eq_self_iff.mpr (target ▸ slash_plain whole (relativeText_plain named name_ _))
  obtain ⟨left, goesOn⟩ := FileTree.follow_goesOn _ _ _ _ directory.found
  obtain ⟨more, elements_, rests⟩ := elements_target named real left
  have status : site.disk.status (site.target path) = .ok (name :: place) := by
    have point : segmentMove (lit ".") = .stay := by decide
    have moves : (elements (site.target path)).map segmentMove =
        (names site.root ++ below).map segmentMove ++
          (.stay :: .down name :: more.map segmentMove) := by
      rw [target, elements_]
      simp [point, segmentMove_of_isName name_]
    rw [Disk.status, whole_, if_neg (Nat.not_le.mpr short), moves, goesOn,
      FileTree.follow_stay_dir directory.dir, FileTree.follow_down_real real, rests]
  rw [Disk.weaklyCanonical, status]

end found

theorem demo_absolute : (lit "/www").head? = some 47 := by decide

/-- A directory with two files, one of them with a question mark in its name. -/
def demoSite : Site where
  disk := diskOf [([], .dir), (["www"], .dir), (["docs", "www"], .dir),
    (["a b.txt", "docs", "www"], .file), (["a?b.txt", "docs", "www"], .file)]
    (by decide +kernel) (by decide +kernel)
  root := "/www"
  index := ["index.html"]
  listDirectory := true
  absolute := demo_absolute
  home := ["www"]
  resolved := by decide +kernel

theorem demo_directory : Directory demoSite ["docs"] ["docs", "www"] where
  named := by decide +kernel
  found := by decide +kernel
  dir := by decide +kernel

/-- The link to the second file, in the listing of its directory. -/
def questionLink : Text :=
  entryLink "a?b.txt" (isDirectory demoSite.disk (placeText ["docs", "www"]) "a?b.txt")

end ListingLinks
