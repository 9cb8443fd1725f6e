import Fiy.RepoDtos
import Fiy.TextViews

/-!
# The users of a commit

The constructor of `GitRepo::Commit`. What libgit2 says of a commit, of its note and of the mail
map is given to it.
-/

namespace NotedUsers

open ByteStrings TextViews GitRepos RepoDtos

/-! ## Commits of the library -/

/-- `git_signature`; a pointer may be null. -/
structure Signature where
  name : Option Text
  email : Option Text
  deriving DecidableEq, Repr

/-- `git_commit`, with the text of its note if it has one. -/
structure GitCommit where
  id : Text
  message : Text
  time : Int
  author : Option Signature
  committer : Option Signature
  note : Option Text
  deriving DecidableEq, Repr

/-- `git_mailmap`, with what the calls make of a signature of a commit; `none` when one fails, or
returns no signature. -/
structure Mailmap where
  resolve : Option Signature → Option Signature

/-! ## The constructor -/

/-- The name and the email of a signature, in the mail map or else of the commit itself. A null
pointer leaves the text of the user. -/
def signedBy (mailmap : Option Mailmap) (signature : Option Signature) : GitUser :=
  let u : GitUser := {}
  match (mailmap.bind fun m => m.resolve signature).or signature with
  | some sig => { u with name := sig.name.getD u.name, email := sig.email.getD u.email }
  | none => u

def hasUser (u : GitUser) : Bool := decide (u.fiyUser ≠ [])

/-- The user that a note has a key for; `none` when `substr` throws. -/
def notedBy (domain key notes : Text) (u : GitUser) : Option GitUser :=
  match findMark notes key 0 with
  | none => some u
  | some start =>
    let value := match find notes 10 (start + key.length) with
      | some stop => substr notes start (some (stop - start))
      | none => substr notes start none
    value.map fun canonical => setUser domain canonical u

/-- The email stands for a user that no note names. -/
def orEmail (domain : Text) (u : GitUser) : GitUser :=
  if hasUser u then u else setUser domain u.email u

def authorKey : Text := lit "FIY-author: "

def committerKey : Text := lit "FIY-committer: "

/-- `GitRepo::Commit(git_commit*, git_mailmap*)` -/
def ofCommit (domain : Text) (mailmap : Option Mailmap) : Option GitCommit → Option TreeCommit
  | none => some {}
  | some commit => do
    let author := signedBy mailmap commit.author
    let committer := signedBy mailmap commit.committer
    let (author, committer) ← match commit.note with
      | some note => do
        let notes := cstr note
        let author ← notedBy domain authorKey notes author
        let committer ← notedBy domain committerKey notes committer
        some (author, committer)
      | none => some (author, committer)
    some
      { id := commit.id
        message := commit.message
        ts := commit.time
        author := orEmail domain author
        committer := orEmail domain committer }

/-! ## What a note says -/

/-- The text that names a user: the value of the key, or the email. -/
def namedText (key notes email : Text) : Text :=
  match markedValue key 10 notes with
  | some value => if value = [] then email else value
  | none => email

/-- The domain behind the first at sign of a user, where one in front does not count. -/
def userDomain (domain canonical : Text) : Text :=
  ((cut 64 canonical.tail).map Prod.snd).getD domain

/-- A user is the one of a text, without the local domain, and its canonical form ends in the
domain of that text. -/
def Names (domain canonical : Text) (u : GitUser) : Prop :=
  u.fiyUser = (setUser domain canonical u).fiyUser ∧
    ∃ name, canonicalUser domain u = name ++ 64 :: userDomain domain canonical

/-- Notes with the same lines for the author and for the committer, whatever their order, the
other lines, and the end. -/
def SameLines (a b : Text) : Prop :=
  linesWith authorKey 10 (cstr a) = linesWith authorKey 10 (cstr b) ∧
    linesWith committerKey 10 (cstr a) = linesWith committerKey 10 (cstr b)

/-- The text of the note of a commit. -/
def noteText (commit : GitCommit) : Text := cstr (commit.note.getD [])

/-- Both users of a commit are the ones its note names, and only the lines for them matter. -/
structure Attributed (domain : Text) (mailmap : Option Mailmap) (commit : GitCommit)
    (c : TreeCommit) : Prop where
  made : ofCommit domain mailmap (some commit) = some c
  author : Names domain (namedText authorKey (noteText commit) c.author.email) c.author
  committer :
    Names domain (namedText committerKey (noteText commit) c.committer.email) c.committer
  lines : ∀ note, SameLines note (commit.note.getD []) →
    ofCommit domain mailmap (some { commit with note := some note }) = some c

/-- Where a note has the key the value is empty, and the key is the user of the email. -/
def KeyNotTaken (domain key notes email : Text) : Prop :=
  ∀ value, markedValue key 10 notes = some value →
    value = [] ∧ (setUser domain email {}).fiyUser = key

/-! ## Users -/

theorem setUser_fiyUser (domain canonical : Text) (u v : GitUser) :
    (setUser domain canonical u).fiyUser = (setUser domain canonical v).fiyUser := by
  unfold setUser
  cases cut 64 canonical with
  | none => rfl
  | some parts => rfl

theorem setUser_email (domain canonical : Text) (u : GitUser) :
    (setUser domain canonical u).email = u.email := by
  unfold setUser
  cases cut 64 canonical with
  | none => rfl
  | some parts => rfl

/-- The user of a text is the text, or what is in front of the local domain. -/
theorem setUser_cases (domain canonical : Text) (u : GitUser) :
    (setUser domain canonical u).fiyUser = canonical ∨
      canonical = (setUser domain canonical u).fiyUser ++ 64 :: domain ∧
        64 ∉ (setUser domain canonical u).fiyUser := by
  unfold setUser
  cases parts : cut 64 canonical with
  | none => exact .inl rfl
  | some parts_ =>
    obtain ⟨rfl, bare⟩ := cut_eq_some_iff.mp parts
    by_cases local_ : parts_.2 = domain
    · exact .inr (by simp [local_, bare])
    · exact .inl (by simp [local_])

/-- A text in front without an at sign stays in front of the user. -/
theorem setUser_append {front : Text} (bare : 64 ∉ front) (domain canonical : Text) (u : GitUser) :
    (setUser domain (front ++ canonical) u).fiyUser =
      front ++ (setUser domain canonical u).fiyUser := by
  unfold setUser
  cases parts : cut 64 canonical with
  | none =>
    have absent : cut 64 (front ++ canonical) = none := by
      rw [cut_eq_none_iff, List.mem_append, not_or]
      exact ⟨bare, cut_eq_none_iff.mp parts⟩
    rw [absent]
  | some parts_ =>
    obtain ⟨rfl, absent⟩ := cut_eq_some_iff.mp parts
    have deeper : 64 ∉ front ++ parts_.1 := by
      rw [List.mem_append, not_or]
      exact ⟨bare, absent⟩
    rw [← List.append_assoc, cut_append deeper]
    by_cases local_ : parts_.2 = domain
    · simp [local_]
    · simp [local_]

theorem canonicalUser_setUser (domain canonical : Text) (u : GitUser) :
    ∃ name, canonicalUser domain (setUser domain canonical u) =
      name ++ 64 :: userDomain domain canonical := by
  rcases setUser_cases domain canonical u with whole | ⟨split, bare⟩
  · rw [canonicalUser, whole, userDomain]
    cases parts : cut 64 canonical.tail with
    | none =>
      rw [if_neg (cut_eq_none_iff.mp parts), List.append_assoc]
      exact ⟨canonical, rfl⟩
    | some parts_ =>
      obtain ⟨tail, -⟩ := cut_eq_some_iff.mp parts
      have inside : 64 ∈ canonical.tail := by simp [tail]
      rw [if_pos inside]
      cases canonical with
      | nil => cases inside
      | cons c rest => exact ⟨c :: parts_.1, congrArg (List.cons c) tail⟩
  · have user : canonicalUser domain (setUser domain canonical u) = canonical := by
      rw [canonicalUser, if_neg fun inside => bare (List.mem_of_mem_tail inside),
        List.append_assoc]
      exact split.symm
    rw [user, userDomain]
    generalize (setUser domain canonical u).fiyUser = name at split bare
    subst split
    cases name with
    | nil =>
      -- the local domain may have an at sign of its own
      cases parts : cut 64 domain with
      | none => exact ⟨[], by simp [parts]⟩
      | some parts_ =>
        obtain ⟨rfl, -⟩ := cut_eq_some_iff.mp parts
        exact ⟨64 :: parts_.1, by simp [parts]⟩
    | cons c rest =>
      rw [List.cons_append, List.tail_cons, cut_append (List.not_mem_of_not_mem_cons bare)]
      exact ⟨c :: rest, rfl⟩

theorem names_iff {domain canonical : Text} {u : GitUser} :
    Names domain canonical u ↔ u.fiyUser = (setUser domain canonical {}).fiyUser := by
  constructor
  · rintro ⟨user, -⟩
    exact user.trans (setUser_fiyUser domain canonical u {})
  intro user
  have same := user.trans (setUser_fiyUser domain canonical {} u)
  obtain ⟨name, ends⟩ := canonicalUser_setUser domain canonical u
  refine ⟨same, name, ?_⟩
  rw [← ends, canonicalUser, canonicalUser, ← same]

/-! ## Notes -/

theorem takeWhile_of_cut {sep : Byte} {text before after : Text}
    (parts : cut sep text = some (before, after)) :
    text.takeWhile (fun b => decide (b ≠ sep)) = before := by
  obtain ⟨rfl, absent⟩ := cut_eq_some_iff.mp parts
  rw [takeWhile_line, List.takeWhile_eq_self_iff]
  intro b mem
  exact decide_eq_true (ne_of_mem_of_not_mem mem absent)

/-- The part that is taken begins with the key. -/
theorem notedBy_eq (domain key notes : Text) (u : GitUser) :
    notedBy domain key notes u =
      some ((markedValue key 10 notes).elim u fun value => setUser domain (key ++ value) u) := by
  have start : findMark notes key 0 = (cutMark key notes).map fun parts => parts.1.length := by
    have from_ := findMark_at [] notes key
    simpa using from_
  rw [notedBy, start, markedValue]
  cases parts : cutMark key notes with
  | none => rfl
  | some parts_ =>
    obtain ⟨before, after⟩ := parts_
    obtain rfl := cutMark_eq parts
    have position : before.length + key.length = (before ++ key).length := by simp
    simp only [Option.map_some, Option.elim_some, position, ← List.append_assoc]
    rw [find_at]
    cases line : cut 10 after with
    | none =>
      have rest : after.takeWhile (fun b => decide (b ≠ 10)) = after := by
        rw [List.takeWhile_eq_self_iff]
        intro b mem
        exact decide_eq_true (ne_of_mem_of_not_mem mem (cut_eq_none_iff.mp line))
      rw [rest, List.append_assoc]
      simp
    | some line_ =>
      rw [takeWhile_of_cut line]
      obtain ⟨rfl, -⟩ := cut_eq_some_iff.mp line
      have length : (before ++ key).length + line_.1.length - before.length =
          (key ++ line_.1).length := by
        simp only [List.length_append]
        omega
      have whole : before ++ key ++ (line_.1 ++ 10 :: line_.2) =
          before ++ ((key ++ line_.1) ++ 10 :: line_.2) := by simp
      simp only [Option.map_some]
      rw [length, whole, substr_part]
      rfl

/-- The user that the note or the email gives. -/
def notedUser (domain key notes : Text) (u : GitUser) : GitUser :=
  orEmail domain ((markedValue key 10 notes).elim u fun value => setUser domain (key ++ value) u)

theorem notedUser_email (domain key notes : Text) (u : GitUser) :
    (notedUser domain key notes u).email = u.email := by
  have noted : ((markedValue key 10 notes).elim u fun value =>
      setUser domain (key ++ value) u).email = u.email := by
    cases markedValue key 10 notes with
    | none => rfl
    | some value => exact setUser_email domain (key ++ value) u
  rw [notedUser, orEmail]
  split
  · exact noted
  · rw [setUser_email, noted]

theorem names_notedUser_iff {domain key : Text} (some_ : key ≠ []) (bare : 64 ∉ key)
    (notes : Text) {u : GitUser} (new : u.fiyUser = []) :
    Names domain (namedText key notes u.email) (notedUser domain key notes u) ↔
      KeyNotTaken domain key notes u.email := by
  rw [names_iff, notedUser, namedText, KeyNotTaken]
  cases found : markedValue key 10 notes with
  | none =>
    have nobody : hasUser u = false := by simp [hasUser, new]
    simp only [Option.elim_none, orEmail, nobody, reduceCtorEq, false_implies, implies_true,
      iff_true]
    exact setUser_fiyUser domain u.email u {}
  | some value =>
    have user := setUser_append bare domain value u
    have somebody : hasUser (setUser domain (key ++ value) u) = true := by
      simp [hasUser, user, some_]
    simp only [Option.elim_some, orEmail, somebody, if_true, user, Option.some.injEq, forall_eq']
    by_cases empty : value = []
    · have nothing : (setUser domain [] u).fiyUser = [] := rfl
      simp only [empty, nothing, List.append_nil, if_true, true_and]
      exact eq_comm
    · rw [if_neg empty, setUser_fiyUser domain value u {}]
      simp [empty, some_]

/-- Only the lines with the key matter. -/
theorem notedUser_lines {domain key a b : Text} (some_ : key ≠ []) (inline : 10 ∉ key)
    (lines : linesWith key 10 a = linesWith key 10 b) (u : GitUser) :
    notedUser domain key a u = notedUser domain key b u := by
  rw [notedUser, notedUser, markedValue_eq_head some_ inline, lines,
    ← markedValue_eq_head some_ inline]

theorem signedBy_fiyUser (mailmap : Option Mailmap) (signature : Option Signature) :
    (signedBy mailmap signature).fiyUser = [] := by
  unfold signedBy
  cases (mailmap.bind fun m => m.resolve signature).or signature with
  | none => rfl
  | some sig => rfl

theorem ofCommit_eq (domain : Text) (mailmap : Option Mailmap) (commit : GitCommit) :
    ofCommit domain mailmap (some commit) = some
      { id := commit.id
        message := commit.message
        ts := commit.time
        author := notedUser domain authorKey (noteText commit) (signedBy mailmap commit.author)
        committer :=
          notedUser domain committerKey (noteText commit)
            (signedBy mailmap commit.committer) } := by
  have nothing (key : Text) (some_ : key ≠ []) : markedValue key 10 (cstr []) = none := by
    simp [markedValue, cstr, cutMark, some_]
  unfold ofCommit noteText
  cases noted : commit.note with
  | none =>
    simp [noted, notedUser, nothing authorKey (by decide), nothing committerKey (by decide)]
  | some note => simp [noted, notedBy_eq, notedUser]

/-- The users are right when the note has neither key, or only without a value where the email
is the key itself. -/
theorem attributed_iff (domain : Text) (mailmap : Option Mailmap) (commit : GitCommit) :
    (∃ c, Attributed domain mailmap commit c) ↔
      KeyNotTaken domain authorKey (noteText commit) (signedBy mailmap commit.author).email ∧
        KeyNotTaken domain committerKey (noteText commit)
          (signedBy mailmap commit.committer).email := by
  have author := @names_notedUser_iff domain authorKey (by decide) (by decide)
    (noteText commit) _ (signedBy_fiyUser mailmap commit.author)
  have committer := @names_notedUser_iff domain committerKey (by decide) (by decide)
    (noteText commit) _ (signedBy_fiyUser mailmap commit.committer)
  constructor
  · rintro ⟨c, made, names, names', -⟩
    cases Option.some.inj ((ofCommit_eq domain mailmap commit).symm.trans made)
    simp only [notedUser_email] at names names'
    exact ⟨author.mp names, committer.mp names'⟩
  · rintro ⟨free, free'⟩
    refine ⟨_, ofCommit_eq domain mailmap commit, ?_, ?_, ?_⟩
    · simp only [notedUser_email]
      exact author.mpr free
    · simp only [notedUser_email]
      exact committer.mpr free'
    · rintro note ⟨lines, lines'⟩
      rw [ofCommit_eq]
      simp only [noteText, Option.getD_some]
      rw [notedUser_lines (by decide) (by decide) lines,
        notedUser_lines (by decide) (by decide) lines']

/-- A commit by an email address, whose note names the author. -/
def namedCommit : GitCommit where
  id := lit "a1"
  message := lit "first"
  time := 1
  author := some ⟨some (lit "Al"), some (lit "al@mail.net")⟩
  committer := some ⟨some (lit "Al"), some (lit "al@mail.net")⟩
  note := some (lit "FIY-author: alice@a.b\n")

theorem namedCommit_author :
    (ofCommit (lit "a.b") none (some namedCommit)).map (fun c => c.author.fiyUser) =
        some (lit "FIY-author: alice") ∧
      ¬ ∃ c, Attributed (lit "a.b") none namedCommit c := by
  constructor
  · decide +kernel
  · rintro ⟨c, made, ⟨user, -⟩, -, -⟩
    rw [ofCommit_eq] at made
    cases made
    exact absurd user (by decide +kernel)

end NotedUsers
