import Fiy.GitRepos

/-!
# Addresses of repositories

The documented form of an address against `from_path`, which reads it: what is in front of
the first slash behind the leading ones, and what is behind it.
-/

namespace RepoAddresses

open ByteStrings GitRepos

/-! ## The documented form -/

/-- Without the bytes that separate the parts of an address. -/
def Plain (t : Text) : Prop := ∀ b ∈ t, b ≠ 47 ∧ b ≠ 64 ∧ b ≠ 63

instance (t : Text) : Decidable (Plain t) := inferInstanceAs (Decidable (∀ b ∈ t, _))

/-- `[/...][@]user[@instance]/repo[.git][/...][?...]` in its parts. -/
structure Form where
  slashes : Nat
  escaped : Bool
  user : Text
  inst : Option Text
  repo : Text
  git : Bool
  rest : Text
  user_ne : user ≠ []
  user_plain : Plain user
  inst_plain : ∀ i ∈ inst, Plain i
  repo_ne : repo ≠ []
  repo_plain : Plain repo
  /-- an extension at the end is one -/
  repo_bare : git = false → ¬ lit ".git" <:+ repo
  rest_starts : rest = [] ∨ rest.head? = some 47 ∨ rest.head? = some 63

namespace Form

/-- The user, with an instance if there is one. -/
def owner (f : Form) : Text := f.user ++ f.inst.elim [] (64 :: ·)

/-- The repository, with its extension if there is one. -/
def named (f : Form) : Text := f.repo ++ if f.git then lit ".git" else []

def text (f : Form) : Text :=
  List.replicate f.slashes 47 ++ ((if f.escaped then [64] else []) ++
    (f.owner ++ 47 :: (f.named ++ f.rest)))

/-- The repository that the address names. -/
def basic (domain : Text) (f : Form) : BasicRepo where
  inst := if f.inst = some domain then [] else f.inst.getD []
  owner := f.user
  name := f.repo

end Form

/-! ## Reading -/

/-- An address without leading slashes and an at sign. -/
def address (url : Text) : Text :=
  let url := url.dropWhile (· = 47)
  if url.head? = some 64 then url.tail else url

/-- The bytes up to a subpath or a query. -/
def component (rest : Text) : Text := rest.takeWhile fun b => b ≠ 47 ∧ b ≠ 63

def dropGit (name : Text) : Text :=
  if lit ".git" <:+ name then name.take (name.length - 4) else name

/-- The user and the instance, which is empty without an at sign. -/
def ownerParts (user : Text) : Text × Text := (cut 64 user).getD (user, [])

/-- What an address of the documented form names. -/
def reference (domain url : Text) : Option BasicRepo :=
  match cut 47 (address url) with
  | none => none
  | some (user, rest) =>
    let owner := (ownerParts user).1
    let inst := (ownerParts user).2
    let name := dropGit (component rest)
    if owner ≠ [] ∧ Plain owner ∧ Plain inst ∧ name ≠ [] ∧ Plain name then
      some { inst := if inst = domain then [] else inst, owner, name }
    else none

/-! ### Parts -/

/-- The parts of a text at its first slash. -/
theorem slash_eq_iff {front front' back back' : Text} (plain : 47 ∉ front) (plain' : 47 ∉ front') :
    front ++ 47 :: back = front' ++ 47 :: back' ↔ front = front' ∧ back = back' := by
  constructor
  · intro same
    have cuts := (cut_append plain back).symm.trans
      ((congrArg (cut 47) same).trans (cut_append plain' back'))
    simpa using cuts
  · rintro ⟨rfl, rfl⟩
    rfl

theorem dropGit_append (name : Text) : dropGit (name ++ lit ".git") = name := by
  rw [dropGit, if_pos (List.suffix_append _ _), List.length_append]
  exact List.take_left

theorem dropGit_of_not {name : Text} (bare : ¬ lit ".git" <:+ name) : dropGit name = name :=
  if_neg bare

theorem dropGit_add (name : Text) :
    dropGit name ++ (if lit ".git" <:+ name then lit ".git" else []) = name := by
  by_cases git : lit ".git" <:+ name
  · obtain ⟨front, rfl⟩ := id git
    rw [dropGit_append, if_pos git]
  · rw [dropGit_of_not git, if_neg git, List.append_nil]

theorem dropGit_front (name : Text) : dropGit name <+: name := ⟨_, dropGit_add name⟩

theorem component_append {name rest : Text} (plain : ∀ b ∈ name, b ≠ 47 ∧ b ≠ 63)
    (starts : rest = [] ∨ rest.head? = some 47 ∨ rest.head? = some 63) :
    component (name ++ rest) = name := by
  have stop : rest.takeWhile (fun b => decide (b ≠ 47 ∧ b ≠ 63)) = [] := by
    cases rest with
    | nil => rfl
    | cons b rest =>
      rcases starts with none | slash | question
      · cases none
      · cases slash
        rfl
      · cases question
        rfl
  rw [component, List.takeWhile_append_of_pos fun b mem => decide_eq_true (plain b mem), stop,
    List.append_nil]

/-- What is behind a component is a subpath or a query. -/
theorem exists_component (rest : Text) :
    ∃ more, rest = component rest ++ more ∧
      (more = [] ∨ more.head? = some 47 ∨ more.head? = some 63) := by
  refine ⟨rest.dropWhile fun b => b ≠ 47 ∧ b ≠ 63, List.takeWhile_append_dropWhile.symm, ?_⟩
  cases tail : rest.dropWhile fun b => decide (b ≠ 47 ∧ b ≠ 63) with
  | nil => exact .inl rfl
  | cons b more =>
    have stops : ¬ (b ≠ 47 ∧ b ≠ 63) := by
      have head := List.head?_dropWhile_not (fun b : Byte => decide (b ≠ 47 ∧ b ≠ 63)) rest
      rw [tail] at head
      simpa using head
    rw [not_and_or, not_not, not_not] at stops
    rcases stops with rfl | rfl
    · exact .inr (.inl rfl)
    · exact .inr (.inr rfl)

theorem not_mem_component {b : Byte} {rest : Text} (mem : b ∈ component rest) :
    b ≠ 47 ∧ b ≠ 63 :=
  of_decide_eq_true (List.mem_takeWhile_imp (p := fun b => decide (b ≠ 47 ∧ b ≠ 63)) mem)

theorem ownerParts_none {user : Text} (absent : 64 ∉ user) : ownerParts user = (user, []) := by
  rw [ownerParts, cut_eq_none_iff.mpr absent]
  rfl

theorem ownerParts_append {owner : Text} (absent : 64 ∉ owner) (inst : Text) :
    ownerParts (owner ++ 64 :: inst) = (owner, inst) := by
  rw [ownerParts, cut_append absent]
  rfl

theorem eq_ownerParts (user : Text) :
    user = (ownerParts user).1 ++ ((cut 64 user).map Prod.snd).elim [] (64 :: ·) := by
  unfold ownerParts
  cases found : cut 64 user with
  | none => simp
  | some parts => exact (cut_eq_some_iff.mp found).1

theorem replicate_slashes (url : Text) :
    List.replicate (url.takeWhile fun b => decide (b = 47)).length 47 =
      url.takeWhile fun b => decide (b = 47) := by
  refine (List.eq_replicate_of_mem fun b mem => ?_).symm
  exact of_decide_eq_true (List.mem_takeWhile_imp (p := fun b => decide (b = 47)) mem)

/-- The sign that was taken away stands in front of an address. -/
theorem sign_address (url : Text) :
    (if (url.dropWhile fun b => decide (b = 47)).head? = some 64 then [64] else []) ++
      address url = url.dropWhile fun b => decide (b = 47) := by
  simp only [address]
  by_cases escaped : (url.dropWhile fun b => decide (b = 47)).head? = some 64
  · rw [if_pos escaped, if_pos escaped]
    exact List.cons_head?_tail escaped
  · rw [if_neg escaped, if_neg escaped, List.nil_append]

/-- The address behind its slashes and the sign that escapes it. -/
theorem address_append (slashes : Nat) (escaped : Bool) {text : Text}
    (slash : text.head? ≠ some 47) (sign : text.head? ≠ some 64) :
    address (List.replicate slashes 47 ++ ((if escaped then [64] else []) ++ text)) = text := by
  have dropped : ∀ rest : Text, rest.head? ≠ some 47 →
      (List.replicate slashes 47 ++ rest).dropWhile (fun b => decide (b = 47)) = rest := by
    intro rest other
    have all : ∀ b ∈ List.replicate slashes (47 : Byte), decide (b = 47) = true :=
      fun b mem => decide_eq_true (List.eq_of_mem_replicate mem)
    rw [List.dropWhile_append_of_pos all]
    cases rest with
    | nil => rfl
    | cons b rest =>
      refine List.dropWhile_cons_of_neg fun same => other ?_
      rw [of_decide_eq_true same]
      rfl
  cases escaped with
  | true =>
    rw [if_pos rfl, address, dropped _ (by simp)]
    rfl
  | false =>
    rw [if_neg (by decide), List.nil_append, address, dropped _ slash]
    exact if_neg sign

/-! ### Forms -/

section forms
variable {domain url : Text}

theorem ownerParts_owner (f : Form) : ownerParts f.owner = (f.user, f.inst.getD []) := by
  have absent : 64 ∉ f.user := fun mem => (f.user_plain 64 mem).2.1 rfl
  unfold Form.owner
  cases f.inst with
  | none => rw [Option.elim_none, List.append_nil, ownerParts_none absent]; rfl
  | some inst => rw [Option.elim_some, ownerParts_append absent]; rfl

theorem owner_slashless (f : Form) : 47 ∉ f.owner := by
  intro mem
  rcases List.mem_append.mp mem with mem | mem
  · exact (f.user_plain 47 mem).1 rfl
  · cases inst : f.inst with
    | none => simp [inst] at mem
    | some i =>
      rw [inst, Option.elim_some] at mem
      rcases List.mem_cons.mp mem with slash | mem
      · exact absurd slash (by decide)
      · exact (f.inst_plain i inst 47 mem).1 rfl

theorem dropGit_named (f : Form) : dropGit f.named = f.repo := by
  unfold Form.named
  cases git : f.git with
  | true => exact dropGit_append f.repo
  | false =>
    rw [if_neg (by decide), List.append_nil]
    exact dropGit_of_not (f.repo_bare git)

theorem component_named (f : Form) : component (f.named ++ f.rest) = f.named := by
  refine component_append (fun b mem => ?_) f.rest_starts
  rcases List.mem_append.mp mem with mem | mem
  · exact ⟨(f.repo_plain b mem).1, (f.repo_plain b mem).2.2⟩
  · have letters : ∀ b ∈ lit ".git", b ≠ 47 ∧ b ≠ 63 := by decide +kernel
    split at mem
    · exact letters b mem
    · cases mem

theorem address_text (f : Form) : address f.text = f.owner ++ 47 :: (f.named ++ f.rest) := by
  obtain ⟨b, user, first⟩ := List.exists_cons_of_ne_nil f.user_ne
  have head : (f.owner ++ 47 :: (f.named ++ f.rest)).head? = some b := by
    rw [Form.owner, first]
    rfl
  have plain := f.user_plain b (first ▸ List.mem_cons_self)
  refine address_append f.slashes f.escaped ?_ ?_
  · rw [head]
    exact fun same => plain.1 (Option.some.inj same)
  · rw [head]
    exact fun same => plain.2.1 (Option.some.inj same)

theorem reference_text (f : Form) : reference domain f.text = some (f.basic domain) := by
  have inst : Plain (f.inst.getD []) := by
    cases given : f.inst with
    | none => exact fun b mem => absurd mem List.not_mem_nil
    | some i => exact f.inst_plain i given
  rw [reference, address_text, cut_append (owner_slashless f)]
  simp only [ownerParts_owner, component_named, dropGit_named]
  rw [if_pos ⟨f.user_ne, f.user_plain, inst, f.repo_ne, f.repo_plain⟩]
  simp only [Form.basic, Option.some.injEq, BasicRepo.mk.injEq, and_true]
  cases f.inst with
  | none => simp
  | some i => simp

/-- An address that names something is of the documented form. -/
theorem form_of_reference {repo : BasicRepo} (named : reference domain url = some repo) :
    ∃ f : Form, f.text = url := by
  unfold reference at named
  split at named
  · cases named
  next user rest parts =>
    obtain ⟨whole, -⟩ := cut_eq_some_iff.mp parts
    obtain ⟨more, split, starts⟩ := exists_component rest
    simp only at named
    split at named
    next good =>
      obtain ⟨owner_ne, owner_plain, inst_plain, name_ne, name_plain⟩ := good
      refine ⟨{
        slashes := (url.takeWhile fun b => decide (b = 47)).length
        escaped := decide ((url.dropWhile fun b => decide (b = 47)).head? = some 64)
        user := (ownerParts user).1
        inst := (cut 64 user).map Prod.snd
        repo := dropGit (component rest)
        git := decide (lit ".git" <:+ component rest)
        rest := more
        user_ne := owner_ne
        user_plain := owner_plain
        inst_plain := ?_
        repo_ne := name_ne
        repo_plain := name_plain
        repo_bare := ?_
        rest_starts := starts }, ?_⟩
      · intro i given
        obtain ⟨parts, found, rfl⟩ := Option.map_eq_some_iff.mp given
        rw [ownerParts, found] at inst_plain
        exact inst_plain
      · intro bare
        rw [dropGit_of_not (of_decide_eq_false bare)]
        exact of_decide_eq_false bare
      · simp only [Form.text, Form.owner, Form.named, decide_eq_true_eq]
        rw [replicate_slashes, ← eq_ownerParts, dropGit_add, ← split, ← whole, sign_address]
        exact List.takeWhile_append_dropWhile
    · cases named

theorem form_iff : (∃ f : Form, f.text = url) ↔ (reference domain url).isSome = true := by
  constructor
  · rintro ⟨f, rfl⟩
    rw [reference_text]
    rfl
  · intro named
    obtain ⟨repo, named⟩ := Option.isSome_iff_exists.mp named
    exact form_of_reference named

end forms

/-! ## `from_path` -/

/-- `from_path` does on a fresh object what the documentation says. -/
def Meets (domain url : Text) : Prop :=
  ∃ valid repo, fromPath domain url = .ok (valid, repo) ∧
    (valid = true ↔ ∃ f : Form, f.text = url) ∧ ∀ f : Form, f.text = url → repo = f.basic domain

/-- Where it does not. -/
inductive Defect (url : Text) : Prop
  /-- the first byte that is no slash is looked for -/
  | slashes (long : 3 ≤ url.length) (all : ∀ b ∈ url, b = 47)
  /-- the extension is looked for in front of the beginning -/
  | short {user rest : Text} (parts : cut 47 (address url) = some (user, rest))
      (long : 3 ≤ (address url).length) (more : rest ≠ []) (at_ : 64 ∈ user ∨ 64 ∉ rest)
      (short : user.length + (component rest).length < 3)
  /-- an at sign behind the repository is taken for the one of the user -/
  | hidden {user rest : Text} (parts : cut 47 (address url) = some (user, rest))
      (user_ne : user ≠ []) (user_plain : Plain user) (name_ne : dropGit (component rest) ≠ [])
      (name_plain : Plain (dropGit (component rest))) (at_ : 64 ∈ rest)
  /-- the user is missing, or has something that is no part of a name -/
  | misread {user rest : Text} (parts : cut 47 (address url) = some (user, rest))
      (at_ : 64 ∈ user ∨ 64 ∉ rest) (long : 3 ≤ user.length + (component rest).length)
      (name_ne : dropGit (component rest) ≠ [])
      (wrong : (ownerParts user).1 = [] ∨ ¬ Plain (ownerParts user).1 ∨
        ¬ Plain (ownerParts user).2 ∨ ¬ Plain (dropGit (component rest)))

section reading
variable {domain url : Text}

theorem length_address (url : Text) : (address url).length ≤ url.length := by
  simp only [address]
  have dropped := List.length_dropWhile_le (fun b : Byte => decide (b = 47)) url
  split
  · rw [List.length_tail]
    omega
  · exact dropped

theorem parseOwner_short (short : (address url).length < 3) :
    parseOwner domain (address url) = .ok (false, {}) := if_pos short

/-- Leading slashes are looked for at the first byte. -/
theorem stripped_eq (url : Text) :
    (if url.head? = some 47 then url.dropWhile (fun b => decide (b = 47)) else url) =
      url.dropWhile fun b => decide (b = 47) := by
  split
  · rfl
  next other =>
    cases url with
    | nil => rfl
    | cons b rest =>
      have here : ¬ decide (b = 47) = true :=
        fun same => other (congrArg some (of_decide_eq_true same))
      exact (List.dropWhile_cons_of_neg (p := fun b => decide (b = 47)) here).symm

/-- `from_path` reads the address unless it finds nothing but slashes. -/
theorem fromPath_eq (domain url : Text) [Decidable (3 ≤ url.length ∧ ∀ b ∈ url, b = 47)] :
    fromPath domain url = if 3 ≤ url.length ∧ ∀ b ∈ url, b = 47 then .error .outOfRange
    else parseOwner domain (address url) := by
  unfold fromPath
  by_cases short : url.length < 3
  · rw [if_pos short, if_neg fun long => absurd long.1 (Nat.not_le.mpr short),
      parseOwner_short ((length_address url).trans_lt short)]
  · rw [if_neg short]
    by_cases all : ∀ b ∈ url, b = 47
    · rw [if_pos (by simpa using all), if_pos ⟨Nat.not_lt.mp short, all⟩]
    · have some_ : ¬ (3 ≤ url.length ∧ ∀ b ∈ url, b = 47) := fun long => all long.2
      rw [if_neg (by simpa using all), if_neg some_]
      simp only [stripped_eq]
      by_cases rest : (url.dropWhile fun b => decide (b = 47)).length < 3
      · rw [if_pos rest, parseOwner_short]
        simp only [address]
        split
        · rw [List.length_tail]
          omega
        · exact rest
      · rw [if_neg rest]
        rfl

/-- What is left of an owner, and what a name is read with. -/
theorem parseOwner_cut {user rest : Text} (long : 3 ≤ url.length)
    (parts : cut 47 url = some (user, rest)) : parseOwner domain url =
      if 64 ∈ user ∨ 64 ∉ rest then
        parseName ⟨if (ownerParts user).2 = domain then [] else (ownerParts user).2,
          (ownerParts user).1, []⟩ (user.length + 1) rest
      else .ok (false, {}) := by
  rw [parseOwner, if_neg (Nat.not_lt.mpr long), parts]
  cases found : cut 64 user with
  | none =>
    have absent := cut_eq_none_iff.mp found
    simp only [found, ownerParts_none absent, absent, false_or, ite_self]
    by_cases at_ : 64 ∈ rest
    · rw [if_pos at_, if_neg (not_not.mpr at_)]
    · rw [if_neg at_, if_pos at_]
  | some pair =>
    obtain ⟨rfl, absent⟩ := cut_eq_some_iff.mp found
    simp only [found, ownerParts_append absent]
    rw [if_pos (show 64 ∈ pair.1 ++ 64 :: pair.2 ∨ 64 ∉ rest from .inl (by simp))]

theorem parseName_eq {repo : BasicRepo} {before : Nat} {rest : Text} (more : rest ≠ [])
    (long : 4 ≤ before + (component rest).length) : parseName repo before rest =
      .ok (decide (dropGit (component rest) ≠ []), { repo with name := dropGit (component rest) }) := by
  rw [parseName, if_neg more]
  exact if_neg (Nat.not_lt.mpr long)

theorem meets_iff : Meets domain url ↔ ∃ valid repo, fromPath domain url = .ok (valid, repo) ∧
    valid = (reference domain url).isSome ∧ ∀ named, reference domain url = some named →
      repo = named := by
  refine exists_congr fun valid => exists_congr fun repo => and_congr_right fun _ => ?_
  rw [form_iff, ← Bool.eq_iff_iff]
  refine and_congr_right fun _ => ⟨fun parts named found => ?_, fun parts f same => ?_⟩
  · obtain ⟨f, same⟩ := form_of_reference found
    rw [parts f same, ← Option.some.injEq, ← reference_text, same, found]
  · exact parts (f.basic domain) (by rw [← same, reference_text])

theorem meets_of_ok {valid : Bool} {repo : BasicRepo}
    (read : fromPath domain url = .ok (valid, repo)) : Meets domain url ↔
      valid = (reference domain url).isSome ∧ ∀ named, reference domain url = some named →
        repo = named := by
  rw [meets_iff, read]
  constructor
  · rintro ⟨valid', repo', same, rest⟩
    cases same
    exact rest
  · exact fun rest => ⟨valid, repo, rfl, rest⟩

theorem not_meets_of_error {fault : Fault} (thrown : fromPath domain url = .error fault) :
    ¬ Meets domain url := by
  rintro ⟨valid, repo, read, -⟩
  rw [thrown] at read
  cases read

/-- Refusing an address is right when it names nothing. -/
theorem meets_of_refused {repo : BasicRepo} (read : fromPath domain url = .ok (false, repo)) :
    Meets domain url ↔ reference domain url = none := by
  rw [meets_of_ok read, ← Option.not_isSome_iff_eq_none, Bool.not_eq_true, eq_comm]
  refine and_iff_left_of_imp fun none_ named found => ?_
  rw [found] at none_
  cases none_

/-- What the parts in front of and behind the first slash name. -/
def Names (user rest : Text) : Prop :=
  (ownerParts user).1 ≠ [] ∧ Plain (ownerParts user).1 ∧ Plain (ownerParts user).2 ∧
    dropGit (component rest) ≠ [] ∧ Plain (dropGit (component rest))

theorem reference_cut (domain : Text) {user rest : Text}
    (parts : cut 47 (address url) = some (user, rest)) :
    (Names user rest → reference domain url = some
        ⟨if (ownerParts user).2 = domain then [] else (ownerParts user).2, (ownerParts user).1,
          dropGit (component rest)⟩) ∧
      (¬ Names user rest → reference domain url = none) := by
  simp only [reference, parts]
  exact ⟨fun names => if_pos names, fun names => if_neg names⟩

section parts
variable {user rest : Text} (parts : cut 47 (address url) = some (user, rest))
include parts

theorem meets_unread {repo : BasicRepo} (read : fromPath domain url = .ok (false, repo)) :
    Meets domain url ↔ ¬ Names user rest := by
  obtain ⟨good, bad⟩ := reference_cut domain parts
  rw [meets_of_refused read]
  refine ⟨fun none_ names => ?_, bad⟩
  rw [good names] at none_
  cases none_

theorem meets_read (read : fromPath domain url = .ok (decide (dropGit (component rest) ≠ []),
      ⟨if (ownerParts user).2 = domain then [] else (ownerParts user).2, (ownerParts user).1,
        dropGit (component rest)⟩)) :
    Meets domain url ↔ (dropGit (component rest) ≠ [] → Names user rest) := by
  obtain ⟨good, bad⟩ := reference_cut domain parts
  rw [meets_of_ok read]
  by_cases names : Names user rest
  · rw [good names]
    refine iff_of_true ⟨decide_eq_true names.2.2.2.1, ?_⟩ fun _ => names
    exact fun named same => Option.some.inj same
  · rw [bad names]
    constructor
    · rintro ⟨refused, -⟩ name
      rw [decide_eq_true name] at refused
      cases refused
    · intro nameless
      refine ⟨decide_eq_false fun name => names (nameless name), ?_⟩
      rintro named none_
      cases none_

/-- The defects of an address in which a slash is found. -/
theorem defect_cut : Defect url ↔
      (3 ≤ (address url).length ∧ rest ≠ [] ∧ (64 ∈ user ∨ 64 ∉ rest) ∧
        user.length + (component rest).length < 3) ∨
      (¬ (64 ∈ user ∨ 64 ∉ rest) ∧ Names user rest) ∨
      ((64 ∈ user ∨ 64 ∉ rest) ∧ 3 ≤ user.length + (component rest).length ∧
        dropGit (component rest) ≠ [] ∧ ¬ Names user rest) := by
  have same : ∀ {user' rest' : Text}, cut 47 (address url) = some (user', rest') →
      user = user' ∧ rest = rest' := by
    intro user' rest' parts'
    rw [parts] at parts'
    cases parts'
    exact ⟨rfl, rfl⟩
  constructor
  · intro defect
    cases defect with
    | slashes long all =>
      have none_ : url.dropWhile (fun b => decide (b = 47)) = [] :=
        List.dropWhile_eq_nil_iff.mpr fun b mem => decide_eq_true (all b mem)
      rw [address, none_] at parts
      cases parts
    | short parts' long more at_ short =>
      obtain ⟨rfl, rfl⟩ := same parts'
      exact .inl ⟨long, more, at_, short⟩
    | hidden parts' user_ne user_plain name_ne name_plain at_ =>
      obtain ⟨rfl, rfl⟩ := same parts'
      have absent : 64 ∉ user := fun mem => (user_plain 64 mem).2.1 rfl
      refine .inr (.inl ⟨not_or.mpr ⟨absent, not_not.mpr at_⟩, ?_⟩)
      rw [Names, ownerParts_none absent]
      exact ⟨user_ne, user_plain, fun b mem => absurd mem List.not_mem_nil, name_ne, name_plain⟩
    | misread parts' at_ long name_ne wrong =>
      obtain ⟨rfl, rfl⟩ := same parts'
      refine .inr (.inr ⟨at_, long, name_ne, fun names => ?_⟩)
      rcases wrong with empty | user | inst | name
      · exact names.1 empty
      · exact user names.2.1
      · exact inst names.2.2.1
      · exact name names.2.2.2.2
  · rintro (⟨long, more, at_, short⟩ | ⟨at_, names⟩ | ⟨at_, long, name_ne, wrong⟩)
    · exact .short parts long more at_ short
    · obtain ⟨absent, at_⟩ := not_or.mp at_
      rw [Names, ownerParts_none absent] at names
      exact .hidden parts names.1 names.2.1 names.2.2.2.1 names.2.2.2.2 (not_not.mp at_)
    · refine .misread parts at_ long name_ne ?_
      by_contra right
      simp only [not_or, not_not] at right
      exact wrong ⟨right.1, right.2.1, right.2.2.1, name_ne, right.2.2.2⟩

end parts

theorem length_component (rest : Text) : (component rest).length ≤ rest.length :=
  (List.takeWhile_prefix _).length_le

/-- Names have bytes on both sides of the slash. -/
theorem Names.length {user rest : Text} (names : Names user rest) :
    1 ≤ user.length ∧ 1 ≤ (component rest).length := by
  constructor
  · refine List.length_pos_iff.mpr ?_
    rintro rfl
    exact names.1 rfl
  · refine List.length_pos_iff.mpr fun empty => names.2.2.2.1 ?_
    rw [empty]
    rfl

/-- `from_path` reads an address as documented outside of these cases. -/
theorem fromPath_iff (domain url : Text) : Meets domain url ↔ ¬ Defect url := by
  have read := fromPath_eq domain url
  by_cases all : 3 ≤ url.length ∧ ∀ b ∈ url, b = 47
  · rw [if_pos all] at read
    exact iff_of_false (not_meets_of_error read) fun fine => fine (.slashes all.1 all.2)
  rw [if_neg all] at read
  cases parts : cut 47 (address url) with
  | none =>
    have refused : fromPath domain url = .ok (false, {}) := by
      rw [read, parseOwner, parts]
      exact ite_self _
    rw [meets_of_refused refused]
    refine iff_of_true (by rw [reference, parts]) fun defect => ?_
    cases defect with
    | slashes long slashes => exact all ⟨long, slashes⟩
    | short parts' => rw [parts] at parts'; cases parts'
    | hidden parts' => rw [parts] at parts'; cases parts'
    | misread parts' => rw [parts] at parts'; cases parts'
  | some pair =>
    obtain ⟨user, rest⟩ := pair
    have whole := cut_length parts
    have behind := length_component rest
    have sizes : Names user rest → 1 ≤ user.length ∧ 1 ≤ (component rest).length := Names.length
    rw [defect_cut parts]
    by_cases long : 3 ≤ (address url).length
    · rw [parseOwner_cut long parts] at read
      by_cases at_ : 64 ∈ user ∨ 64 ∉ rest
      · rw [if_pos at_] at read
        by_cases more : rest = []
        · -- nothing behind the slash
          rw [parseName, if_pos more] at read
          have nameless : ¬ dropGit (component rest) ≠ [] := not_not.mpr (by rw [more]; decide)
          have unnamed : ¬ Names user rest := fun names => nameless names.2.2.2.1
          have nothing : ¬ rest ≠ [] := not_not.mpr more
          rw [meets_unread parts read]
          simp only [nothing, nameless, unnamed, false_and, and_false, or_false, not_false_iff]
        · by_cases short : user.length + (component rest).length < 3
          · rw [parseName, if_neg more] at read
            have thrown : fromPath domain url = .error .outOfRange := by
              rw [read]
              exact if_pos (show user.length + 1 + (component rest).length < 4 by omega)
            exact iff_of_false (not_meets_of_error thrown) fun fine =>
              fine (.inl ⟨long, more, at_, short⟩)
          · rw [parseName_eq more (by omega)] at read
            rw [meets_read parts read]
            simp only [short, at_, Nat.not_lt.mp short, and_false, false_or, not_true, false_and,
              true_and, not_and, not_not]
      · rw [if_neg at_] at read
        rw [meets_unread parts read]
        simp only [at_, and_false, false_and, false_or, or_false, not_false_iff, true_and]
    · rw [parseOwner_short (Nat.not_le.mp long)] at read
      have unnamed : ¬ Names user rest := fun names => by
        have := sizes names
        omega
      have small : ¬ 3 ≤ user.length + (component rest).length := by omega
      rw [meets_unread parts read]
      simp only [unnamed, long, small, false_and, and_false, or_false, not_false_iff]

/-- An address of the documented form is read, when it is not too short and has no at sign
behind the repository alone. -/
theorem fromPath_form (domain : Text) (f : Form) (long : 3 ≤ f.owner.length + f.named.length)
    (at_ : 64 ∈ f.owner ∨ 64 ∉ f.rest) : fromPath domain f.text = .ok (true, f.basic domain) := by
  have parts : cut 47 (address f.text) = some (f.owner, f.named ++ f.rest) := by
    rw [address_text, cut_append (owner_slashless f)]
  have names : Names f.owner (f.named ++ f.rest) := by
    have named := (reference_cut domain parts).2
    rw [reference_text] at named
    by_contra unnamed
    cases named unnamed
  have seen : 64 ∈ f.owner ∨ 64 ∉ f.named ++ f.rest := by
    refine at_.imp_right fun absent mem => ?_
    rcases List.mem_append.mp mem with named | rest
    · rcases List.mem_append.mp named with repo | git
      · exact (f.repo_plain 64 repo).2.1 rfl
      · split at git
        · revert git
          decide
        · cases git
    · exact absent rest
  have fine : ¬ Defect f.text := by
    rw [defect_cut parts, component_named]
    rintro (⟨-, -, -, short⟩ | ⟨unseen, -⟩ | ⟨-, -, -, unnamed⟩)
    · omega
    · exact unseen seen
    · exact unnamed names
  obtain ⟨valid, repo, read, form, parts⟩ := (fromPath_iff domain f.text).mpr fine
  rw [read, form.mpr ⟨f, rfl⟩, parts f rfl]

end reading

/-- A path of two letters, and one with an at sign in its query. -/
theorem short_path_thrown :
    ¬ Meets "a.b" "a/b" ∧ ¬ Meets "a.b" "/alice/site?to=bob@c.d" := by
  constructor
  · have thrown : fromPath "a.b" "a/b" = .error .outOfRange := by decide
    exact not_meets_of_error thrown
  · have refused : fromPath "a.b" "/alice/site?to=bob@c.d" = .ok (false, {}) := by
      rw [lit_ofList, lit_ofList]
      decide
    rw [meets_of_refused refused]
    decide +kernel

end RepoAddresses
