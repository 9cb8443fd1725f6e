import Fiy.StaticFiles

/-!
# Sites without links

Where nothing below the root is a link and no path has a zero byte in it, what is left
after the normalisation is names only, and the comparison with the root is enough: the
root leads home, and from there a path of names stays inside.
-/

namespace LinklessSites

open ByteStrings PathWalks FileTrees StaticFiles

/-! ## Names -/

/-- The names of a path, between its slashes. -/
def names (path : Text) : List Text := (path.splitOn 47).filter (· ≠ [])

theorem mem_of_mem_names {path name : Text} (listed : name ∈ names path) {b : Byte}
    (inside : b ∈ name) : b ∈ path ∧ b ≠ 47 := by
  have piece := (List.mem_filter.mp listed).1
  rw [List.splitOn_eq_splitOnP] at piece
  simpa using mem_of_mem_splitOnP piece inside

theorem names_append (path rest : Text) : names (path ++ 47 :: rest) = names path ++ names rest := by
  rw [names, List.splitOn_append_cons_self, List.filter_append]
  rfl

theorem names_slash {path other : Text} (relative : other.head? ≠ some 47) :
    names (slash path other) = names path ++ names other := by
  rw [slash, if_neg relative]
  split
  next ends =>
    rcases ends with rfl | ends
    · rfl
    · obtain ⟨before, rfl⟩ := List.getLast?_eq_some_iff.mp ends
      have blank : names [] = [] := rfl
      rw [List.append_assoc, List.singleton_append, names_append, names_append, blank,
        List.append_nil]
  · exact names_append path other

theorem elements_eq (path : Text) :
    elements path = names path ∨ elements path = names path ++ [[]] := by
  simp only [elements]
  split
  · exact Or.inr rfl
  · exact Or.inl rfl

/-- A name that a path can be made of, and the path with it. -/
theorem names_of_isName {name : Text} (h : IsName name) : names name = [name] := by
  rw [names, List.splitOn_eq_singleton h.slash]
  simp [h.some_]

theorem relative_of_isName {name : Text} (h : IsName name) : name.head? ≠ some 47 := by
  intro slash
  exact h.slash (List.mem_of_mem_head? slash)

theorem names_elements {path : Text} : (elements path).filter (· ≠ []) = names path := by
  have kept : (names path).filter (· ≠ []) = names path := by
    rw [names, List.filter_filter]
    simp
  rcases elements_eq path with whole | slash
  · rw [whole, kept]
  · rw [slash, List.filter_append, kept]
    simp

theorem names_placeText {place : Place} (named : ∀ name ∈ place, IsName name) :
    names (placeText place) = place.reverse := by
  rw [← names_elements, elements_placeText named, List.filter_eq_self]
  intro name listed
  simpa using (named name (List.mem_reverse.mp listed)).some_

theorem placeText_plain {place : Place} (named : ∀ name ∈ place, IsName name) :
    0 ∉ placeText place := by
  rw [← cstr_eq_self_iff]
  apply cstr_of_elements
  intro element listed
  rw [elements_placeText named] at listed
  exact named element (List.mem_reverse.mp listed)

theorem slash_plain {path other : Text} (plain : 0 ∉ path) (rest : 0 ∉ other) :
    0 ∉ slash path other := by
  unfold slash
  split_ifs <;> simp [plain, rest]

theorem element_plain {path element : Text} (plain : 0 ∉ path) (listed : element ∈ elements path) :
    0 ∉ element := by
  have name_plain : ∀ name ∈ names path, 0 ∉ name := fun name listed zero =>
    plain (mem_of_mem_names listed zero).1
  rcases elements_eq path with whole | slash
  · exact name_plain element (whole ▸ listed)
  · rw [slash, List.mem_append, List.mem_singleton] at listed
    rcases listed with listed | rfl
    · exact name_plain element listed
    · exact List.not_mem_nil

theorem foldl_slash_plain {path : Text} {rest : List Text} (plain : 0 ∉ path)
    (later : ∀ element ∈ rest, 0 ∉ element) : 0 ∉ rest.foldl slash path := by
  induction rest generalizing path with
  | nil => exact plain
  | cons element rest ih =>
    obtain ⟨here, later⟩ := List.forall_mem_cons.mp later
    exact ih (slash_plain plain here) later

/-- A segment of a path that is gone down into is a name. -/
theorem isName_of_down {path element name : Text} (plain : 0 ∉ path)
    (listed : element ∈ elements path) (down : segmentMove element = .down name) : IsName name := by
  unfold segmentMove at down
  split_ifs at down with stay up
  cases down
  obtain ⟨some_, dot⟩ := not_or.mp stay
  refine ⟨some_, dot, up, ?_, element_plain plain listed⟩
  have kept : element ∈ names path := by
    rw [← names_elements]
    exact List.mem_filter.mpr ⟨listed, by simpa using some_⟩
  intro slash
  exact (mem_of_mem_names kept slash).2 rfl

theorem walk_named {path : List (Move Text)} {start : Place} (named : ∀ name ∈ start, IsName name)
    (downs : ∀ name, .down name ∈ path → IsName name) : ∀ name ∈ walk start path, IsName name := by
  induction path generalizing start with
  | nil => exact named
  | cons m path ih =>
    refine ih ?_ fun name later => downs name (List.mem_cons_of_mem m later)
    cases m with
    | stay => exact named
    | up => exact fun name listed => named name (List.mem_of_mem_tail listed)
    | down name => exact List.forall_mem_cons.mpr ⟨downs name List.mem_cons_self, named⟩

theorem lexicallyNormal_eq (path : Text) : ∃ more ∈ [[], [47]],
    lexicallyNormal path = placeText (walk [] ((elements path).map segmentMove)) ++ more := by
  simp only [lexicallyNormal]
  split_ifs
  · exact ⟨[47], by simp, rfl⟩
  · exact ⟨[], by simp, (List.append_nil _).symm⟩

/-- A path of names, for the system calls too. -/
def OfNames (path : Text) : Prop := 0 ∉ path ∧ ∀ name ∈ names path, IsName name

theorem placeText_ofNames {place : Place} (named : ∀ name ∈ place, IsName name) :
    OfNames (placeText place) := by
  refine ⟨placeText_plain named, ?_⟩
  intro name listed
  rw [names_placeText named, List.mem_reverse] at listed
  exact named name listed

theorem lexicallyNormal_ofNames {path : Text} (plain : 0 ∉ path) :
    OfNames (lexicallyNormal path) := by
  have named : ∀ name ∈ walk [] ((elements path).map segmentMove), IsName name := by
    refine walk_named (fun _ listed => absurd listed List.not_mem_nil) ?_
    intro name listed
    obtain ⟨element, listed, down⟩ := List.mem_map.mp listed
    exact isName_of_down plain listed down
  obtain ⟨zero, listed⟩ := placeText_ofNames named
  obtain ⟨more, slash, whole⟩ := lexicallyNormal_eq path
  rw [whole]
  rcases List.mem_pair.mp slash with rfl | rfl
  · rw [List.append_nil]
    exact ⟨zero, listed⟩
  · have ends : names [] = [] := rfl
    refine ⟨by simp [zero], ?_⟩
    rw [names_append, ends, List.append_nil]
    exact listed

theorem existing_rest {disk : Disk} {result found : Text} {path rest : List Text}
    (exists_ : disk.existing result path = .ok (found, rest)) : rest <:+ path := by
  induction path generalizing result with
  | nil =>
    cases exists_
    exact List.suffix_rfl
  | cons element path ih =>
    rw [Disk.existing] at exists_
    split at exists_
    · exact (ih exists_).trans (List.suffix_cons element path)
    · cases exists_
      exact List.suffix_rfl
    · cases exists_

/-- A path without zero bytes is canonical when only names are left of it. -/
theorem weaklyCanonical_ofNames {disk : Disk} {path normalized : Text} (plain : 0 ∉ path)
    (canonical : disk.weaklyCanonical path = .ok normalized) : OfNames normalized := by
  unfold Disk.weaklyCanonical at canonical
  split at canonical
  next place found =>
    cases canonical
    exact placeText_ofNames (named_of_isReal (status_real found))
  · cases canonical
  · split at canonical
    · cases canonical
    next result rest exists_ =>
      split at canonical
      · cases canonical
      next place found =>
        cases canonical
        have named := named_of_isReal (status_real found)
        refine lexicallyNormal_ofNames (foldl_slash_plain (placeText_plain named) ?_)
        intro element listed
        exact element_plain plain ((existing_rest exists_).subset listed)

theorem mem_of_findIndex {disk : Disk} {directory : Text} {index : List Text} {file : Place}
    (found : disk.findIndex directory index = .ok (some file)) :
    ∃ name ∈ index, disk.status (slash directory name) = .ok file := by
  induction index with
  | nil => cases found
  | cons name rest ih =>
    have later : disk.findIndex directory rest = .ok (some file) →
        ∃ other ∈ name :: rest, disk.status (slash directory other) = .ok file := by
      intro found
      obtain ⟨other, listed, there⟩ := ih found
      exact ⟨other, List.mem_cons_of_mem name listed, there⟩
    rw [Disk.findIndex] at found
    split at found
    · cases found
    · exact later found
    next there =>
      split at found
      · cases found
        exact ⟨name, List.mem_cons_self, there⟩
      · exact later found

/-! ## Inside the root -/

/-- A root without links or zero bytes, and index files that are named as files are. -/
structure Plain (site : Site) : Prop where
  linkless : site.disk.Linkless site.home
  root : 0 ∉ site.root
  index : ∀ name ∈ site.index, IsName name

section plain
variable {site : Site}

/-- The rest of a path behind the root is followed from where the root leads. -/
theorem follow_home (whole : 0 ∉ site.root) {rest : List (Move Text)} {place : Place}
    (found : site.disk.follow maxLinks [] ((names site.root).map segmentMove ++ rest) = .ok place) :
    ∃ left, site.disk.follow left site.home rest = .ok place := by
  obtain ⟨mid, left, front, found⟩ := FileTree.follow_splits _ _ _ _ _ found
  have resolved := site.resolved
  unfold Disk.status at resolved
  split at resolved
  · cases resolved
  · rw [cstr_eq_self_iff.mpr whole] at resolved
    rcases elements_eq site.root with same | slash
    · rw [same, front] at resolved
      cases resolved
      exact ⟨left, found⟩
    · rw [slash, List.map_append] at resolved
      obtain ⟨other, more, same, resolved⟩ := FileTree.follow_splits _ _ _ _ _ resolved
      rw [front] at same
      cases same
      exact ⟨left, FileTree.follow_stay resolved ▸ found⟩

/-- Behind the root, without links and without climbing, a path stays inside. -/
theorem inside_of_status (plain : Plain site) {path : Text} {below : List Text} {place : Place}
    (zero : 0 ∉ path) (behind : names path = names site.root ++ below)
    (flat : ∀ name ∈ below, name ≠ "..") (found : site.disk.status path = .ok place) :
    Inside place site.home := by
  have goes : ∃ more : List (Move Text), .up ∉ more ∧ (elements path).map segmentMove =
      (names site.root).map segmentMove ++ (below.map segmentMove ++ more) := by
    rcases elements_eq path with whole | slash
    · exact ⟨[], List.not_mem_nil, by rw [whole, behind, List.map_append, List.append_nil]⟩
    · refine ⟨[.stay], by decide, ?_⟩
      rw [slash, behind, List.map_append, List.map_append, List.append_assoc]
      rfl
  obtain ⟨more, later, goes⟩ := goes
  have level : .up ∉ below.map segmentMove ++ more := by
    rw [List.mem_append, List.mem_map]
    rintro (⟨name, listed, up⟩ | up)
    · unfold segmentMove at up
      split_ifs at up with _ dots
      exact flat name listed dots
    · exact later up
  have stays : Stays ([] : Place).length (below.map segmentMove ++ more) := stays_of_not_up level 0
  unfold Disk.status at found
  split at found
  · cases found
  · rw [cstr_eq_self_iff.mpr zero, goes] at found
    obtain ⟨left, found⟩ := follow_home plain.root found
    exact plain.linkless.follow_inside stays found

/-- What extends the root is the root with more names behind it. -/
theorem extends_names {normalized : Text} (extends_ : site.Extends normalized) :
    ∃ below, names normalized = names site.root ++ below := by
  obtain ⟨below, same⟩ := extends_
  refine ⟨below.filter (· ≠ []), ?_⟩
  rw [← names_elements, ← same, List.filter_append, names_elements]

theorem served_of_plain (plain : Plain site) {normalized : Text} (ofNames : OfNames normalized)
    (extends_ : site.Extends normalized) {place : Place}
    (found : site.disk.status normalized = .ok place) : site.ServedInside normalized place := by
  obtain ⟨zero, named⟩ := ofNames
  obtain ⟨below, behind⟩ := extends_names extends_
  have flat : ∀ name ∈ below, name ≠ ".." := fun name listed =>
    (named name (behind ▸ List.mem_append_right _ listed)).dots
  have inside := inside_of_status plain zero behind flat found
  refine ⟨fun _ => inside, fun _ => ⟨?_, fun _ _ => inside⟩⟩
  intro file first
  obtain ⟨name, listed, found⟩ := mem_of_findIndex first
  have isName := plain.index name listed
  have deeper : names (slash normalized name) = names site.root ++ (below ++ [name]) := by
    rw [names_slash (relative_of_isName isName), behind, names_of_isName isName, List.append_assoc]
  refine inside_of_status plain (slash_plain zero isName.zero) deeper ?_ found
  intro other mem
  rcases List.mem_append.mp mem with mem | mem
  · exact flat other mem
  · rw [List.mem_singleton.mp mem]
    exact isName.dots

/-- Without links in the root and without zero bytes nothing outside of it is read. -/
theorem contained_of_plain (plain : Plain site) {path : Text} (decoded : 0 ∉ Site.decoded path)
    (first : Bool) : site.Contained first path := by
  rw [contained_parts, errorPage_inside_iff]
  constructor
  · intro _ place found
    have behind : names (slash site.root "404.html") = names site.root ++ [lit "404.html"] :=
      names_slash (by decide)
    exact inside_of_status plain (slash_plain plain.root (by decide)) behind (by decide) found
  · have target : 0 ∉ site.target path := by
      refine slash_plain plain.root fun zero => decoded ?_
      exact List.takeWhile_subset _ ((List.dropWhile_suffix _).subset zero)
    by_cases short : (Site.decoded path).length < pathMax
    · rw [reads_iff_canonical short]
      intro normalized canonical extends_ place found
      have ofNames := weaklyCanonical_ofNames target canonical
      exact served_of_plain plain ofNames extends_ found
    · rw [reads_of_tooLong short]
      exact List.forall_mem_nil _

end plain
end LinklessSites
