import Fiy.RepoAddresses

/-!
# Canonical addresses

`canonical_url` is to write the path of the repository that `from_path` reads. Both cut an
address at the same slash.
-/

namespace CanonicalAddresses

open ByteStrings GitRepos RepoAddresses

/-- `canonical_url`. What is compared with the domain has the at sign in front. -/
def canonicalUrl (domain url : Text) : Except Fault Text :=
  if url.length < 3 then .ok []
  else if url.all (· = 47) then .error .outOfRange
  else
    let url := if url.head? = some 47 then url.dropWhile (· = 47) else url
    if url.length < 3 then .ok []
    else match cut 47 url with
      | none => .ok []
      | some (user, rest) => match cut 64 user with
        | none => if 64 ∈ rest then .ok [] else .ok (dropGit url)
        | some (owner, inst) =>
          .ok (dropGit (if 64 :: inst = domain then owner ++ 47 :: rest else url))

/-- Both read the address, and the canonical one is the path of what `from_path` finds. -/
def Agrees (domain url : Text) : Prop :=
  ∃ canonical valid repo, canonicalUrl domain url = .ok canonical ∧
    fromPath domain url = .ok (valid, repo) ∧ (canonical = [] ↔ valid = false) ∧
    (valid = true → canonical = repo.path)

/-- The user as `canonical_url` leaves it. -/
def keptUser (domain user : Text) : Text :=
  match cut 64 user with
  | none => user
  | some (owner, inst) => if 64 :: inst = domain then owner else user

/-- The user without the sign that escapes it. -/
def unescaped (user : Text) : Text := if user.head? = some 64 then user.tail else user

/-- The user as `path` writes it. -/
def shownUser (domain user : Text) : Text :=
  BasicRepo.ownerUser ⟨if (ownerParts user).2 = domain then [] else (ownerParts user).2,
    (ownerParts user).1, []⟩

/-- Where the two agree. -/
inductive Alike (domain url : Text) : Prop
  /-- both find no user -/
  | nothing (some_ : ¬ (3 ≤ url.length ∧ ∀ b ∈ url, b = 47))
      (userless : (url.dropWhile fun b => decide (b = 47)).length < 3 ∨
        47 ∉ url.dropWhile fun b => decide (b = 47))
  /-- both take an at sign behind the slash for the one of the user -/
  | hidden {user rest : Text}
      (parts : cut 47 (url.dropWhile fun b => decide (b = 47)) = some (user, rest))
      (absent : 64 ∉ user) (at_ : 64 ∈ rest)
  /-- a repository without subpath and query, whose owner is as in its path -/
  | path {user rest : Text}
      (parts : cut 47 (url.dropWhile fun b => decide (b = 47)) = some (user, rest))
      (whole : component rest = rest) (name_ne : dropGit rest ≠ [])
      (at_ : 64 ∈ unescaped user ∨ 64 ∉ rest) (long : 3 ≤ (unescaped user).length + rest.length)
      (same : keptUser domain user = shownUser domain (unescaped user))

/-- An extension at the end belongs to what is behind a slash or a question mark. -/
theorem git_suffix_iff {sep : Byte} (other : sep ∉ lit ".git") (front rest : Text) :
    lit ".git" <:+ front ++ sep :: rest ↔ lit ".git" <:+ rest := by
  constructor
  · intro git
    rcases List.suffix_or_suffix_of_suffix git (List.suffix_append front (sep :: rest)) with
      short | long
    · rcases List.suffix_cons_iff.mp short with same | inner
      · exact absurd (same ▸ List.mem_cons_self) other
      · exact inner
    · exact absurd (long.subset List.mem_cons_self) other
  · intro git
    exact (git.trans (List.suffix_cons sep rest)).trans (List.suffix_append front _)

theorem dropGit_append_cons {sep : Byte} (other : sep ∉ lit ".git") (front rest : Text) :
    dropGit (front ++ sep :: rest) = front ++ sep :: dropGit rest := by
  by_cases git : lit ".git" <:+ rest
  · obtain ⟨name, rfl⟩ := git
    rw [dropGit_append, ← List.cons_append, ← List.append_assoc, dropGit_append]
  · rw [dropGit_of_not git, dropGit_of_not ((git_suffix_iff other front rest).not.mpr git)]

/-- A subpath or a query stays in what has lost its extension. -/
theorem dropGit_component_iff (rest : Text) :
    dropGit rest = dropGit (component rest) ↔ component rest = rest := by
  constructor
  · intro same
    obtain ⟨more, split, starts⟩ := exists_component rest
    cases more with
    | nil => rw [← List.append_nil (component rest), ← split]
    | cons sep more =>
      have other : sep ∉ lit ".git" := by
        rcases starts with none | slash | question
        · cases none
        · cases slash
          decide
        · cases question
          decide
      have written : dropGit rest = component rest ++ sep :: dropGit more :=
        (congrArg dropGit split).trans (dropGit_append_cons other _ _)
      have inside : sep ∈ component rest := by
        refine (dropGit_front _).subset ?_
        rw [← same, written]
        simp
      have plain := not_mem_component inside
      rcases starts with none | slash | question
      · cases none
      · exact absurd (Option.some.inj slash) plain.1
      · exact absurd (Option.some.inj question) plain.2
  · intro same
    rw [same]

theorem dropWhile_slashless (url : Text) :
    (url.dropWhile fun b => decide (b = 47)).head? ≠ some 47 := by
  have head := List.head?_dropWhile_not (fun b : Byte => decide (b = 47)) url
  intro slash
  rw [slash] at head
  cases head

section canonical
variable {domain url : Text}

theorem canonicalUrl_eq (domain url : Text) [Decidable (3 ≤ url.length ∧ ∀ b ∈ url, b = 47)] :
    canonicalUrl domain url =
    let s := url.dropWhile fun b => decide (b = 47)
    if 3 ≤ url.length ∧ ∀ b ∈ url, b = 47 then .error .outOfRange
    else if s.length < 3 then .ok []
    else match cut 47 s with
      | none => .ok []
      | some (user, rest) =>
        if 64 ∈ user ∨ 64 ∉ rest then .ok (keptUser domain user ++ 47 :: dropGit rest)
        else .ok [] := by
  have shorter := List.length_dropWhile_le (fun b : Byte => decide (b = 47)) url
  unfold canonicalUrl
  simp only [stripped_eq]
  by_cases short : url.length < 3
  · have small : ¬ (3 ≤ url.length ∧ ∀ b ∈ url, b = 47) :=
      fun long => absurd long.1 (Nat.not_le.mpr short)
    rw [if_pos short, if_neg small, if_pos (shorter.trans_lt short)]
  rw [if_neg short]
  by_cases all : ∀ b ∈ url, b = 47
  · rw [if_pos (by simpa using all), if_pos ⟨Nat.not_lt.mp short, all⟩]
  have some_ : ¬ (3 ≤ url.length ∧ ∀ b ∈ url, b = 47) := fun long => all long.2
  rw [if_neg (by simpa using all), if_neg some_]
  by_cases rest : (url.dropWhile fun b => decide (b = 47)).length < 3
  · rw [if_pos rest, if_pos rest]
  rw [if_neg rest, if_neg rest]
  cases parts : cut 47 (url.dropWhile fun b => decide (b = 47)) with
  | none => rfl
  | some pair =>
    obtain ⟨user, rest⟩ := pair
    obtain ⟨whole, -⟩ := cut_eq_some_iff.mp parts
    simp only [whole, keptUser]
    cases found : cut 64 user with
    | none =>
      have absent := cut_eq_none_iff.mp found
      simp only [absent, false_or]
      by_cases at_ : 64 ∈ rest
      · rw [if_pos at_, if_neg (not_not.mpr at_)]
      · rw [if_neg at_, if_pos at_, dropGit_append_cons (by decide)]
    | some pair =>
      have mem : 64 ∈ user := by
        rw [(cut_eq_some_iff.mp found).1]
        exact List.mem_append_right _ List.mem_cons_self
      simp only [mem, true_or, if_true]
      split
      · rw [dropGit_append_cons (by decide)]
      · rw [dropGit_append_cons (by decide)]

/-- The address behind the slash is the same with the sign and without it. -/
theorem cut_address {user rest : Text}
    (parts : cut 47 (url.dropWhile fun b => decide (b = 47)) = some (user, rest)) :
    cut 47 (address url) = some (unescaped user, rest) := by
  have first := dropWhile_slashless url
  obtain ⟨whole, absent⟩ := cut_eq_some_iff.mp parts
  rw [address, whole]
  rw [whole] at first
  cases user with
  | nil => exact absurd rfl first
  | cons b user =>
    unfold unescaped
    by_cases escaped : (b :: user).head? = some 64
    · rw [if_pos escaped]
      have sign : (b :: user ++ 47 :: rest).head? = some 64 := escaped
      simp only [if_pos sign]
      exact cut_append (fun mem => absent (List.mem_cons_of_mem b mem)) rest
    · rw [if_neg escaped]
      have plain : ¬ (b :: user ++ 47 :: rest).head? = some 64 := escaped
      simp only [if_neg plain]
      exact cut_append absent rest

theorem agrees_of_ok {canonical : Text} {valid : Bool} {repo : BasicRepo}
    (written : canonicalUrl domain url = .ok canonical)
    (read : fromPath domain url = .ok (valid, repo)) : Agrees domain url ↔
      (canonical = [] ↔ valid = false) ∧ (valid = true → canonical = repo.path) := by
  rw [Agrees, written, read]
  constructor
  · rintro ⟨canonical', valid', repo', same, same', rest⟩
    cases same
    cases same'
    exact rest
  · exact fun rest => ⟨canonical, valid, repo, rfl, rfl, rest⟩

theorem not_agrees_of_error {fault : Fault} (thrown : fromPath domain url = .error fault) :
    ¬ Agrees domain url := by
  rintro ⟨canonical, valid, repo, -, read, -⟩
  rw [thrown] at read
  cases read

theorem agrees_of_refused {canonical : Text} {repo : BasicRepo}
    (written : canonicalUrl domain url = .ok canonical)
    (read : fromPath domain url = .ok (false, repo)) : Agrees domain url ↔ canonical = [] := by
  rw [agrees_of_ok written read]
  simp

theorem slashless_owner {user : Text} (absent : 47 ∉ user) : 47 ∉ keptUser domain user := by
  unfold keptUser
  split
  · exact absent
  next owner inst found =>
    split
    · obtain ⟨rfl, -⟩ := cut_eq_some_iff.mp found
      exact fun mem => absent (List.mem_append_left _ mem)
    · exact absent

theorem shownUser_none {user : Text} (absent : 64 ∉ user) : shownUser domain user = user := by
  rw [shownUser, ownerParts_none absent, BasicRepo.ownerUser]
  simp

theorem shownUser_append {owner : Text} (absent : 64 ∉ owner) (inst : Text) :
    shownUser domain (owner ++ 64 :: inst) =
      if inst = domain ∨ inst = [] then owner else owner ++ 64 :: inst := by
  rw [shownUser, ownerParts_append absent, BasicRepo.ownerUser]
  by_cases here : inst = domain
  · simp only [if_true, here, true_or]
  · simp only [here, if_false, false_or]
    exact if_congr Iff.rfl rfl (List.append_assoc owner [64] inst)

theorem slashless_shown {user : Text} (absent : 47 ∉ user) : 47 ∉ shownUser domain user := by
  cases found : cut 64 user with
  | none =>
    rw [shownUser_none (cut_eq_none_iff.mp found)]
    exact absent
  | some pair =>
    obtain ⟨rfl, plain⟩ := cut_eq_some_iff.mp found
    rw [shownUser_append plain]
    split
    · exact fun mem => absent (List.mem_append_left _ mem)
    · exact absent

theorem path_eq (inst owner name : Text) :
    (⟨inst, owner, name⟩ : BasicRepo).path =
      BasicRepo.ownerUser ⟨inst, owner, []⟩ ++ 47 :: name :=
  List.append_assoc _ [47] name

/-- What `from_path` makes of an address whose user and rest are known. -/
theorem agrees_cut {user rest : Text}
    (parts : cut 47 (url.dropWhile fun b => decide (b = 47)) = some (user, rest))
    (written : canonicalUrl domain url = .ok (keptUser domain user ++ 47 :: dropGit rest)) :
    Agrees domain url ↔ component rest = rest ∧ dropGit rest ≠ [] ∧
      (64 ∈ unescaped user ∨ 64 ∉ rest) ∧ 3 ≤ (unescaped user).length + rest.length ∧
      keptUser domain user = shownUser domain (unescaped user) := by
  have unread : ∀ {repo : BasicRepo}, fromPath domain url = .ok (false, repo) →
      ¬ Agrees domain url := by
    intro repo refused
    rw [agrees_of_refused written refused]
    simp
  have parts' := cut_address parts
  have plain : 47 ∉ user := (cut_eq_some_iff.mp parts).2
  have plain' : 47 ∉ unescaped user := (cut_eq_some_iff.mp parts').2
  have whole := cut_length parts'
  have behind := length_component rest
  have some_ : ¬ (3 ≤ url.length ∧ ∀ b ∈ url, b = 47) := by
    rintro ⟨-, all⟩
    rw [List.dropWhile_eq_nil_iff.mpr fun b mem => decide_eq_true (all b mem)] at parts
    cases parts
  have read := fromPath_eq domain url
  rw [if_neg some_] at read
  by_cases long : 3 ≤ (address url).length
  · rw [parseOwner_cut long parts'] at read
    by_cases at_ : 64 ∈ unescaped user ∨ 64 ∉ rest
    · rw [if_pos at_] at read
      by_cases more : rest = []
      · rw [parseName, if_pos more] at read
        refine iff_of_false (unread read) fun path => path.2.1 ?_
        rw [more]
        decide
      by_cases short : (unescaped user).length + (component rest).length < 3
      · rw [parseName, if_neg more] at read
        have thrown : fromPath domain url = .error .outOfRange := by
          rw [read]
          exact if_pos (show (unescaped user).length + 1 + (component rest).length < 4 by omega)
        refine iff_of_false (not_agrees_of_error thrown) fun path => ?_
        have enough := path.2.2.2.1
        rw [path.1] at short
        omega
      · rw [parseName_eq more (by omega)] at read
        by_cases name : dropGit (component rest) = []
        · rw [decide_eq_false (not_not.mpr name)] at read
          refine iff_of_false (unread read) fun path => path.2.1 ?_
          rw [← path.1]
          exact name
        · rw [decide_eq_true name] at read
          have path : keptUser domain user ++ 47 :: dropGit rest =
              shownUser domain (unescaped user) ++ 47 :: dropGit (component rest) ↔
              keptUser domain user = shownUser domain (unescaped user) ∧ component rest = rest := by
            rw [slash_eq_iff (slashless_owner plain) (slashless_shown plain'),
              dropGit_component_iff]
          rw [agrees_of_ok written read, path_eq]
          change (_ ↔ _) ∧ (true = true → keptUser domain user ++ 47 :: dropGit rest =
            shownUser domain (unescaped user) ++ 47 :: dropGit (component rest)) ↔ _
          rw [path]
          constructor
          · rintro ⟨-, same⟩
            obtain ⟨user, rest⟩ := same rfl
            rw [rest] at name short
            exact ⟨rest, name, at_, Nat.not_lt.mp short, user⟩
          · rintro ⟨rest, -, -, -, user⟩
            exact ⟨by simp, fun _ => ⟨user, rest⟩⟩
    · rw [if_neg at_] at read
      exact iff_of_false (unread read) fun path => at_ path.2.2.1
  · rw [parseOwner_short (Nat.not_le.mp long)] at read
    refine iff_of_false (unread read) fun path => ?_
    have enough := path.2.2.2.1
    omega

/-- The canonical form of an address is the path that is read from it in these cases. -/
theorem canonicalUrl_iff (domain url : Text) : Agrees domain url ↔ Alike domain url := by
  have written := canonicalUrl_eq domain url
  have read := fromPath_eq domain url
  simp only at written
  by_cases all : 3 ≤ url.length ∧ ∀ b ∈ url, b = 47
  · rw [if_pos all] at read
    refine iff_of_false (not_agrees_of_error read) fun alike => ?_
    have none_ : url.dropWhile (fun b => decide (b = 47)) = [] :=
      List.dropWhile_eq_nil_iff.mpr fun b mem => decide_eq_true (all.2 b mem)
    cases alike with
    | nothing some_ => exact some_ all
    | hidden parts => rw [none_] at parts; cases parts
    | path parts => rw [none_] at parts; cases parts
  rw [if_neg all] at written read
  cases parts : cut 47 (url.dropWhile fun b => decide (b = 47)) with
  | none =>
    have absent := cut_eq_none_iff.mp parts
    have absent' : cut 47 (address url) = none := by
      rw [cut_eq_none_iff]
      simp only [address]
      split
      · exact fun mem => absent (List.mem_of_mem_tail mem)
      · exact absent
    rw [parts, ite_self] at written
    rw [parseOwner, absent', ite_self] at read
    rw [agrees_of_refused written read]
    exact iff_of_true rfl (.nothing all (.inr absent))
  | some pair =>
    obtain ⟨user, rest⟩ := pair
    have parts' := cut_address parts
    rw [parts] at written
    by_cases short : (url.dropWhile fun b => decide (b = 47)).length < 3
    · have short' : (address url).length < 3 := by
        simp only [address]
        split
        · rw [List.length_tail]
          omega
        · exact short
      rw [if_pos short] at written
      rw [parseOwner_short short'] at read
      rw [agrees_of_refused written read]
      exact iff_of_true rfl (.nothing all (.inl short))
    rw [if_neg short] at written
    by_cases at_ : 64 ∈ user ∨ 64 ∉ rest
    · simp only [if_pos at_] at written
      rw [agrees_cut parts written]
      constructor
      · rintro ⟨whole, name_ne, seen, long, same⟩
        exact .path parts whole name_ne seen long same
      · intro alike
        cases alike with
        | nothing _ userless =>
          rcases userless with few | slashless
          · exact absurd few short
          · rw [cut_eq_none_iff.mpr slashless] at parts
            cases parts
        | hidden parts_ absent hidden =>
          rw [parts] at parts_
          cases parts_
          exact absurd hidden (at_.resolve_left absent)
        | path parts_ whole name_ne seen long same =>
          rw [parts] at parts_
          cases parts_
          exact ⟨whole, name_ne, seen, long, same⟩
    · simp only [if_neg at_] at written
      obtain ⟨absent, hidden⟩ := not_or.mp at_
      have unsigned : unescaped user = user := by
        refine if_neg fun sign => absent ?_
        rw [← List.cons_head?_tail sign]
        exact List.mem_cons_self
      rw [unsigned] at parts'
      have refused : fromPath domain url = .ok (false, {}) := by
        rw [read]
        by_cases long : 3 ≤ (address url).length
        · rw [parseOwner_cut long parts', if_neg at_]
        · exact parseOwner_short (Nat.not_le.mp long)
      rw [agrees_of_refused written refused]
      exact iff_of_true rfl (.hidden parts absent (not_not.mp hidden))

/-- For a domain without an at sign, the user is as in the path when it is not escaped, and
its instance is named and another one. -/
theorem kept_eq_shown_iff (plain : 64 ∉ domain) (user : Text) :
    keptUser domain user = shownUser domain (unescaped user) ↔ user.head? ≠ some 64 ∧
      ∀ owner inst, cut 64 user = some (owner, inst) → inst ≠ [] ∧ inst ≠ domain := by
  have kept : keptUser domain user = user := by
    unfold keptUser
    split
    · rfl
    next owner inst found =>
      have other : 64 :: inst ≠ domain := by
        rintro rfl
        exact plain List.mem_cons_self
      exact if_neg other
  have shorter : ∀ u : Text, (shownUser domain u).length ≤ u.length := by
    intro u
    cases found : cut 64 u with
    | none => rw [shownUser_none (cut_eq_none_iff.mp found)]
    | some pair =>
      obtain ⟨rfl, absent⟩ := cut_eq_some_iff.mp found
      rw [shownUser_append absent]
      split
      · simp
      · rfl
  rw [kept]
  by_cases escaped : user.head? = some 64
  · refine iff_of_false (fun same => ?_) fun fine => fine.1 escaped
    have tail := shorter (unescaped user)
    rw [← same, unescaped, if_pos escaped, List.length_tail] at tail
    have some_ : 0 < user.length := by
      rw [← List.cons_head?_tail escaped]
      exact Nat.succ_pos _
    omega
  · rw [unescaped, if_neg escaped]
    cases found : cut 64 user with
    | none =>
      rw [shownUser_none (cut_eq_none_iff.mp found)]
      exact iff_of_true rfl ⟨escaped, nofun⟩
    | some pair =>
      obtain ⟨owner, inst⟩ := pair
      obtain ⟨rfl, absent⟩ := cut_eq_some_iff.mp found
      rw [shownUser_append absent]
      by_cases dropped : inst = domain ∨ inst = []
      · rw [if_pos dropped]
        refine iff_of_false (by simp) fun fine => ?_
        obtain ⟨named, other⟩ := fine.2 owner inst rfl
        exact dropped.elim other named
      · rw [if_neg dropped]
        refine iff_of_true rfl ⟨escaped, ?_⟩
        rintro _ _ ⟨⟩
        exact ⟨fun empty => dropped (.inr empty), fun here => dropped (.inl here)⟩

end canonical

/-- The domain of the instance, the sign that escapes a name and a query stay. -/
theorem canonical_keeps :
    ¬ Agrees "a.b" "alice@a.b/site" ∧ ¬ Agrees "a.b" "@alice/site" ∧
      ¬ Agrees "a.b" "alice/site?page" := by
  refine ⟨?_, ?_, ?_⟩
  · have written : canonicalUrl "a.b" "alice@a.b/site" = .ok "alice@a.b/site" := by decide
    have read : fromPath "a.b" "alice@a.b/site" = .ok (true, ⟨[], "alice", "site"⟩) := by decide
    rw [agrees_of_ok written read]
    decide
  · have written : canonicalUrl "a.b" "@alice/site" = .ok "@alice/site" := by decide
    have read : fromPath "a.b" "@alice/site" = .ok (true, ⟨[], "alice", "site"⟩) := by decide
    rw [agrees_of_ok written read]
    decide
  · have written : canonicalUrl "a.b" "alice/site?page" = .ok "alice/site?page" := by decide
    have read : fromPath "a.b" "alice/site?page" = .ok (true, ⟨[], "alice", "site"⟩) := by decide
    rw [agrees_of_ok written read]
    decide

end CanonicalAddresses
