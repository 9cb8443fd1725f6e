import Mathlib.Data.List.Dedup
import Fiy.Templates

/-!
# Templates that are edited in place

`FileCache::mustache` replaces the tags in the template itself. An opening mark that is not
closed has everything behind it as its tag, and the search goes on from the place that is two
behind `npos`.
-/

namespace InPlaceTemplates

open ByteStrings TextViews CheckedLoops Templates

/-! ## The loop -/

/-- Tags with their replacements. The first rule of a tag counts. -/
abbrev Rules := List (Text × Text)

def npos : Nat := 18446744073709551615

/-- The loop over the rules. -/
def ruleFor (rules : Rules) (tag : Text) : Option (Text × Text) :=
  rules.find? fun rule => tag = rule.1

/-- A turn of `FileCache::mustache`, from a position in the string. The last number is not in the
source: it is where the text ends that was put in last, if that is some. -/
def mustacheTurn (rules : Rules) : Text × Nat × Nat → Turn (Text × Nat × Nat) Text
  | (templateString, i, edge) => match findMark templateString openMark i with
    | none => .leave templateString
    | some i =>
      let stop := findMark templateString closeMark (i + 2)
      -- a length that is too large takes the rest
      let length := stop.map fun stop => stop - (i + 2)
      .guard (substr templateString (i + 2) length) fun tag => match ruleFor rules tag with
        | some (needle, replacement) =>
          let rest := templateString.drop (i + (needle.length + 4))
          .again (templateString.take i ++ (replacement ++ rest), i + replacement.length,
            if replacement = [] then edge else i + replacement.length)
        | none => match stop with
          | some stop => .again (templateString, stop + 2, edge)
          | none => .again (templateString, (npos + 2) % 18446744073709551616, edge)

/-- The same loop, when no search may start in front of the end of a text that was put in. -/
def watchedTurn (rules : Rules) : Text × Nat × Nat → Turn (Text × Nat × Nat) Text :=
  checked (fun state => state.2.1 < state.2.2) (mustacheTurn rules)

/-! ## What is meant -/

def replacementOf (rules : Rules) (tag : Text) : Option Text := (ruleFor rules tag).map Prod.snd

def sortTags (tags : List Text) : List Text := tags.dedup.mergeSort fun a b => decide (¬ b < a)

theorem sorted_sortTags (tags : List Text) : (sortTags tags).Pairwise (· < ·) := by
  have distinct : (sortTags tags).Nodup :=
    (List.mergeSort_perm _ _).nodup_iff.mpr (List.nodup_dedup tags)
  have ordered : (sortTags tags).Pairwise fun a b => decide (¬ b < a) = true := by
    refine List.pairwise_mergeSort (fun a b c first second => ?_) (fun a b => ?_) _
    · rw [decide_eq_true_iff] at first second ⊢
      exact List.le_trans first second
    · rw [Bool.or_eq_true, decide_eq_true_iff, decide_eq_true_iff]
      exact List.le_total a b
  refine (ordered.and distinct).imp ?_
  rintro a b ⟨le, different⟩
  exact Std.lt_of_le_of_ne (of_decide_eq_true le) different

/-- The tags of the rules, sorted and without duplicates. -/
def sortedTags (rules : Rules) : Tags := ⟨sortTags (rules.map Prod.fst), sorted_sortTags _⟩

/-- The replacement of each tag. -/
def substitutions (rules : Rules) : Substitutions (sortedTags rules) true where
  subs := (sortedTags rules).tags.map fun tag => (replacementOf rules tag).getD []
  sized := List.length_map _

/-- The loop ends with what `MinSSR::mustache` comes to, and what was put in is not read again. -/
def Right (rules : Rules) (templateString : Text) : Prop :=
  ∃ out, Mustache templateString (sortedTags rules).tags (substitutions rules).subs out ∧
    Ends (mustacheTurn rules) (templateString, 0, 0) out ∧
    Ends (watchedTurn rules) (templateString, 0, 0) out

/-- Every opening mark is closed, or what is behind the first one that is not closed stays anyway:
as a tag that is replaced by itself, or with nothing in front of it. -/
def Fits (rules : Rules) (templateString : Text) : Prop :=
  match cutMark openMark (pieces templateString).2 with
  | none => True
  | some (before, rest) => match replacementOf rules rest with
    | some text => text = openMark ++ rest
    | none =>
      (before = [] ∧ ∀ piece ∈ (pieces templateString).1,
        piece.1 = [] ∧ replacementOf rules piece.2 = some []) ∧
      -- from the second brace on
      match cutMark openMark (123 :: rest) with
      | none => True
      | some (_, inner) => replacementOf rules inner = some (openMark ++ inner)

/-! ## One turn -/

section turns
variable {rules : Rules} {done text before rest tag after : Text} {edge : Nat}

/-- Where the text ends that was put in last. -/
def edgeAfter (edge : Nat) (done replacement : Text) : Nat :=
  if replacement = [] then edge else (done ++ replacement).length

theorem ruleFor_some {needle replacement : Text}
    (found : ruleFor rules tag = some (needle, replacement)) : needle = tag := by
  have same := List.find?_some found
  exact (of_decide_eq_true same).symm

theorem turn_none (missing : cutMark openMark text = none) :
    mustacheTurn rules (done ++ text, done.length, edge) = .leave (done ++ text) := by
  simp only [mustacheTurn, findMark_at, missing, Option.map_none]

/-- A mark that is closed, with what is found for the tag. -/
theorem turn_closed (opened : cutMark openMark text = some (before, rest))
    (closed : cutMark closeMark rest = some (tag, after)) :
    mustacheTurn rules (done ++ text, done.length, edge) =
      match replacementOf rules tag with
      | some replacement => .again ((done ++ before ++ replacement) ++ after,
          (done ++ before ++ replacement).length, edgeAfter edge (done ++ before) replacement)
      | none => .again ((done ++ before ++ fullTag tag) ++ after,
          (done ++ before ++ fullTag tag).length, edge) := by
  obtain rfl := cutMark_eq opened
  obtain rfl := cutMark_eq closed
  have front : done ++ (before ++ (openMark ++ (tag ++ (closeMark ++ after)))) =
      (done ++ before ++ openMark) ++ (tag ++ (closeMark ++ after)) := by simp
  have start : done.length + before.length + 2 = (done ++ before ++ openMark).length := by
    rw [List.length_append, List.length_append]
    rfl
  have whole : done ++ (before ++ (openMark ++ (tag ++ (closeMark ++ after)))) =
      (done ++ before) ++ (fullTag tag ++ after) := by simp [fullTag]
  have here : done.length + before.length = (done ++ before).length := by simp
  simp only [mustacheTurn, findMark_at, opened, Option.map_some]
  rw [start, front, findMark_at, closed, Option.map_some, Option.map_some,
    Nat.add_sub_cancel_left, substr_part, Turn.guard_some, ← front, whole]
  unfold replacementOf
  cases found : ruleFor rules tag with
  | none =>
    have next : (done ++ before ++ openMark).length + tag.length + 2 =
        (done ++ before ++ fullTag tag).length := by
      simp [openMark, length_fullTag]
      omega
    simp only [next, Option.map_none]
    rw [List.append_assoc (done ++ before)]
  | some rule =>
    obtain ⟨needle, replacement⟩ := rule
    obtain rfl := ruleFor_some found
    have behind : (done ++ before).length + (needle.length + 4) =
        (done ++ before ++ fullTag needle).length := by
      rw [@List.length_append _ _ (fullTag needle), length_fullTag]
    simp only [here, Option.map_some, List.take_left, behind]
    rw [← List.append_assoc _ _ after, List.drop_left, List.append_assoc _ _ after]
    simp only [List.length_append, edgeAfter]

/-- A mark that is not closed, with what is found for everything behind it. -/
theorem turn_open (opened : cutMark openMark text = some (before, rest))
    (unclosed : cutMark closeMark rest = none) :
    mustacheTurn rules (done ++ text, done.length, edge) =
      match replacementOf rules rest with
      | some replacement => .again (done ++ before ++ replacement,
          (done ++ before ++ replacement).length, edgeAfter edge (done ++ before) replacement)
      | none => .again (done ++ text, 1, edge) := by
  obtain rfl := cutMark_eq opened
  have front : done ++ (before ++ (openMark ++ rest)) = (done ++ before ++ openMark) ++ rest := by
    simp
  have start : done.length + before.length + 2 = (done ++ before ++ openMark).length := by
    rw [List.length_append, List.length_append]
    rfl
  have here : done.length + before.length = (done ++ before).length := by simp
  simp only [mustacheTurn, findMark_at, opened, Option.map_some]
  rw [start, front, findMark_at, unclosed, Option.map_none, Option.map_none, substr_rest,
    Turn.guard_some]
  unfold replacementOf
  cases found : ruleFor rules rest with
  | none => rfl
  | some rule =>
    obtain ⟨needle, replacement⟩ := rule
    obtain rfl := ruleFor_some found
    have outside : ((done ++ before ++ openMark) ++ needle).length ≤
        (done ++ before).length + (needle.length + 4) := by
      simp [openMark]
      omega
    simp only [here, Option.map_some]
    rw [List.drop_eq_nil_of_le outside, List.append_assoc (done ++ before), List.take_left,
      List.append_nil]
    simp only [List.length_append, edgeAfter]

theorem watchedTurn_of_le (rules : Rules) {text : Text} {i : Nat} (behind : edge ≤ i) :
    watchedTurn rules (text, i, edge) = mustacheTurn rules (text, i, edge) :=
  if_neg (Nat.not_lt.mpr behind)

theorem watchedTurn_of_lt {text : Text} {i : Nat} (inside : i < edge) :
    watchedTurn rules (text, i, edge) = .fault := if_pos inside

theorem le_length_append {n : Nat} (le : n ≤ done.length) (more : Text) :
    n ≤ (done ++ more).length := by
  rw [List.length_append]
  exact Nat.le_add_right_of_le le

theorem edgeAfter_le {replacement : Text} (behind : edge ≤ done.length) :
    edgeAfter edge done replacement ≤ (done ++ replacement).length := by
  unfold edgeAfter
  split
  · exact le_length_append behind _
  · exact Nat.le_refl _

end turns

/-! ## The tags that are closed -/

section pieces
variable {text before rest tag after : Text}

theorem pieces_none (missing : cutMark openMark text = none) : pieces text = ([], text) := by
  rw [pieces]
  split
  · rfl
  · rename_i found
    cases missing.symm.trans found

theorem pieces_open (opened : cutMark openMark text = some (before, rest))
    (unclosed : cutMark closeMark rest = none) : pieces text = ([], text) := by
  rw [pieces]
  split
  · rfl
  · rename_i found
    cases opened.symm.trans found
    split
    · rfl
    · rename_i closed
      cases unclosed.symm.trans closed

theorem pieces_closed (opened : cutMark openMark text = some (before, rest))
    (closed : cutMark closeMark rest = some (tag, after)) :
    pieces text = ((before, tag) :: (pieces after).1, (pieces after).2) := by
  rw [pieces]
  split
  · rename_i missing
    cases missing.symm.trans opened
  · rename_i found
    cases opened.symm.trans found
    split
    · rename_i unclosed
      cases unclosed.symm.trans closed
    · rename_i found
      cases closed.symm.trans found
      rfl

end pieces

section rules
variable (rules : Rules)

/-- What a tag becomes. -/
def shown (tag : Text) : Text := (replacementOf rules tag).getD (fullTag tag)

/-- What the tags that are closed become, with what is in front of each. -/
def front (text : Text) : Text :=
  (pieces text).1.flatMap fun piece => piece.1 ++ shown rules piece.2

theorem replaced_shown (text : Text) :
    replaced (shown rules) text = front rules text ++ (pieces text).2 := rfl

theorem mem_sortedTags (tag : Text) :
    tag ∈ (sortedTags rules).tags ↔ (replacementOf rules tag).isSome := by
  have listed : tag ∈ (sortedTags rules).tags ↔ tag ∈ rules.map Prod.fst :=
    List.mem_mergeSort.trans List.mem_dedup
  rw [listed, replacementOf, Option.isSome_map, ruleFor, List.find?_isSome, List.mem_map]
  refine exists_congr fun rule => and_congr_right' ?_
  rw [decide_eq_true_iff]
  exact eq_comm

/-- The sorted tags have the replacements of the rules. -/
theorem valueOf_rules (tag : Text) :
    valueOf (sortedTags rules) (substitutions rules).subs tag = shown rules tag := by
  have sized : (substitutions rules).subs.length = (sortedTags rules).tags.length :=
    (substitutions rules).sized
  unfold valueOf shown
  split
  · rename_i listed
    obtain ⟨replacement, found⟩ :=
      Option.isSome_iff_exists.mp ((mem_sortedTags rules tag).mp listed)
    have inside := List.idxOf_lt_length_of_mem listed
    rw [found, Option.getD_some, substitutions, List.getD_eq_getElem?_getD, List.getElem?_map,
      List.getElem?_eq_getElem inside, List.getElem_idxOf inside, Option.map_some, found]
    rfl
  · rename_i unlisted
    rw [mem_sortedTags, Option.not_isSome_iff_eq_none] at unlisted
    rw [unlisted, List.getD_eq_getElem?_getD, List.getElem?_eq_none (Nat.le_of_eq sized)]

/-- The result of the other engine is the only one that counts. -/
theorem right_iff_ends (text : Text) : Right rules text ↔
    Ends (watchedTurn rules) (text, 0, 0) (front rules text ++ (pieces text).2) := by
  have same : valueOf (sortedTags rules) (substitutions rules).subs = shown rules :=
    funext (valueOf_rules rules)
  have other (out : Text) := mustache_iff (substitutions rules) text out
  rw [same, replaced_shown] at other
  constructor
  · rintro ⟨out, mustache, -, ends⟩
    exact (other out).mp mustache ▸ ends
  · intro ends
    exact ⟨_, (other _).mpr rfl, ends.of_checked, ends⟩

/-- The loop comes behind the tags that are closed. -/
theorem ends_pieces (done text : Text) {edge : Nat} (behind : edge ≤ done.length) :
    ∃ edge' ≤ (done ++ front rules text).length, ∀ out,
      Ends (watchedTurn rules) (done ++ text, done.length, edge) out ↔
        Ends (watchedTurn rules) ((done ++ front rules text) ++ (pieces text).2,
          (done ++ front rules text).length, edge') out := by
  unfold front
  fun_induction pieces text generalizing done edge with
  | case1 t opened => exact ⟨edge, by simpa using behind, fun out => by simp⟩
  | case2 t before rest opened closed => exact ⟨edge, by simpa using behind, fun out => by simp⟩
  | case3 t before rest opened tag after closed ih =>
    have turn := (watchedTurn_of_le rules behind).trans (turn_closed opened closed)
    have further : edge ≤ (done ++ before).length := le_length_append behind _
    have text_ : done ++ ((before, tag) :: (pieces after).1).flatMap (fun piece =>
          piece.1 ++ shown rules piece.2) =
        done ++ before ++ shown rules tag ++ (pieces after).1.flatMap fun piece =>
          piece.1 ++ shown rules piece.2 := by simp
    rw [text_]
    unfold shown at ih ⊢
    cases found : replacementOf rules tag with
    | none =>
      rw [found] at turn
      obtain ⟨edge', le, same⟩ := ih (done ++ before ++ fullTag tag) (le_length_append further _)
      exact ⟨edge', le, fun out => (ends_of_again turn).trans (same out)⟩
    | some replacement =>
      rw [found] at turn
      obtain ⟨edge', le, same⟩ := ih (done ++ before ++ replacement) (edgeAfter_le further)
      exact ⟨edge', le, fun out => (ends_of_again turn).trans (same out)⟩

end rules

/-! ## Marks that are not closed -/

/-- Behind every opening mark there is a closing one, and no brace at the end can start one. -/
structure Closed (text : Text) : Prop where
  closed : ∀ a b, text = a ++ (openMark ++ b) → closeMark <:+: b
  last : ∀ a, text ≠ a ++ [123]

/-- No opening mark starts in the text, whatever follows. -/
def Unopened (text : Text) : Prop := ∀ a b, text ++ [123] ≠ a ++ (openMark ++ b)

section closed
variable {text done before rest : Text}

/-- The first opening mark is found. -/
theorem unopened_of_cut (opened : cutMark openMark text = some (before, rest)) :
    Unopened before := by
  intro a b earlier
  have whole : text = a ++ (openMark ++ (b ++ 123 :: rest)) := by
    rw [cutMark_eq opened, ← List.append_assoc openMark, ← List.append_assoc a, ← earlier]
    simp [openMark]
  obtain ⟨before', after, found, le⟩ := cutMark_append_le openMark a (b ++ 123 :: rest)
  rw [← whole, opened] at found
  cases found
  have length := congrArg List.length earlier
  simp only [List.length_append, openMark, List.length_cons, List.length_nil] at length
  omega

theorem closed_nil : Closed [] where
  closed a b same := by simp [openMark] at same
  last a same := by simp at same

/-- An opening mark starts behind a text, with its last character, or in it. -/
theorem openMark_split {more a b : Text} (same : openMark ++ b = more ++ a) :
    more = [] ∧ a = openMark ++ b ∨ more = [123] ∧ a = 123 :: b ∨
      ∃ others, more = openMark ++ others ∧ b = others ++ a := by
  rcases more with _ | ⟨c, _ | ⟨d, others⟩⟩
  · exact .inl ⟨rfl, same.symm⟩
  · obtain ⟨rfl, tail⟩ := List.cons.inj same
    exact .inr (.inl ⟨rfl, tail.symm⟩)
  · obtain ⟨rfl, tail⟩ := List.cons.inj same
    obtain ⟨rfl, tail'⟩ := List.cons.inj tail
    exact .inr (.inr ⟨others, rfl, tail'⟩)

/-- A closing mark at the end closes all. -/
theorem closed_close (text : Text) : Closed (text ++ closeMark) where
  closed a b same := by
    have other : (123 : Byte) ∉ closeMark := by decide
    rcases List.append_eq_append_iff.mp same with ⟨more, -, inside⟩ | ⟨more, -, inside⟩
    · exact absurd (inside ▸ by simp [openMark]) other
    · rcases openMark_split inside with ⟨-, ends⟩ | ⟨-, ends⟩ | ⟨others, -, rfl⟩
      · exact absurd (ends ▸ by simp [openMark]) other
      · exact absurd (ends ▸ List.mem_cons_self) other
      · exact (List.suffix_append others closeMark).isInfix
  last a same := by
    have ends := congrArg List.getLast? same
    simp [closeMark] at ends

theorem Closed.append (closed : Closed done) (unopened : Unopened before) :
    Closed (done ++ before) where
  closed a b same := by
    rcases List.append_eq_append_iff.mp same with ⟨more, -, inside⟩ | ⟨more, rfl, inside⟩
    · exact absurd (by rw [inside]; simp) (unopened more (b ++ [123]))
    · rcases openMark_split inside with ⟨-, rfl⟩ | ⟨rfl, -⟩ | ⟨others, rfl, rfl⟩
      · exact absurd (by simp) (unopened [] (b ++ [123]))
      · exact absurd rfl (closed.last a)
      · exact (closed.closed a others rfl).trans (List.prefix_append others before).isInfix
  last a same := by
    rcases List.eq_nil_or_concat before with rfl | ⟨front, c, rfl⟩
    · rw [List.append_nil] at same
      exact closed.last a same
    · rw [List.concat_eq_append, ← List.append_assoc] at same
      obtain ⟨-, rfl⟩ := List.append_singleton_inj.mp same
      exact absurd (by simp [openMark]) (unopened front [])

/-- Behind the first character. -/
theorem closed_tail_append (closed : Closed done.tail) (unopened : Unopened before) :
    Closed (done ++ before).tail := by
  cases done with
  | cons c done => exact closed.append unopened
  | nil =>
    cases before with
    | nil => exact closed_nil
    | cons c before =>
      refine closed_nil.append fun a b earlier => unopened (c :: a) b ?_
      rw [List.cons_append, earlier, List.cons_append]

theorem closed_tail_fullTag (done tag : Text) : Closed (done ++ fullTag tag).tail := by
  cases done with
  | nil => exact closed_close (123 :: tag)
  | cons c done =>
    have ends : (c :: done ++ fullTag tag).tail = (done ++ (openMark ++ tag)) ++ closeMark := by
      simp [fullTag]
    exact ends ▸ closed_close _

theorem Closed.behind (front : Text) (closed : Closed (front ++ text)) : Closed text where
  closed a b same := closed.closed (front ++ a) b (by rw [same, List.append_assoc])
  last a same := closed.last (front ++ a) (by rw [same, List.append_assoc])

theorem split_of_le {a b c d : Text} (same : a ++ b = c ++ d) (le : c.length ≤ a.length) :
    ∃ more, a = c ++ more ∧ d = more ++ b := by
  obtain ⟨more, rfl⟩ : c <+: a :=
    List.prefix_of_prefix_length_le (List.prefix_append c d) (same ▸ List.prefix_append a b) le
  rw [List.append_assoc] at same
  exact ⟨more, rfl, (List.append_cancel_left same).symm⟩

/-- From the front of a text in which all is closed the loop comes to the mark behind it. -/
theorem pieces_of_closed (closed : Closed done) (unclosed : cutMark closeMark rest = none) :
    ∃ before, cutMark openMark (pieces (done ++ (openMark ++ rest))).2 = some (before, rest) := by
  induction size : done.length using Nat.strong_induction_on generalizing done with
  | _ n ih =>
    obtain ⟨before, behind, opened, le⟩ := cutMark_append_le openMark done rest
    obtain ⟨more, rfl, inside⟩ := split_of_le (cutMark_eq opened) le
    rcases openMark_split inside with ⟨rfl, found⟩ | ⟨rfl, -⟩ | ⟨more, rfl, rfl⟩
    · obtain rfl : rest = behind := List.append_cancel_left found
      exact ⟨before, by rw [pieces_open opened unclosed, opened]⟩
    · exact absurd rfl (closed.last before)
    · -- the mark is in the closed part, and so is what closes it
      obtain ⟨u, v, rfl⟩ := closed.closed before more rfl
      obtain ⟨tag, after, cut, short⟩ := cutMark_append_le closeMark u (v ++ (openMark ++ rest))
      obtain ⟨more, same, rfl⟩ : ∃ more, u ++ closeMark ++ v = tag ++ closeMark ++ more ∧
          after = more ++ (openMark ++ rest) := by
        refine split_of_le (?_ : _ = tag ++ closeMark ++ after) ?_
        · rw [List.append_assoc tag, ← cutMark_eq cut]
          simp
        · simp only [List.length_append]
          omega
      have text : u ++ closeMark ++ v ++ (openMark ++ rest) =
          u ++ (closeMark ++ (v ++ (openMark ++ rest))) := by simp
      have rest_ : Closed more := by
        refine Closed.behind (before ++ (openMark ++ (tag ++ closeMark))) ?_
        rw [same] at closed
        simpa using closed
      have shorter : more.length < n := by
        rw [← size, same]
        simp only [List.length_append, openMark, List.length_cons]
        omega
      rw [pieces_closed opened (text ▸ cut)]
      exact ih more.length shorter rest_ rfl

end closed

/-! ## Searches that start again -/

section again
variable {rules : Rules} {rest : Text}

/-- There is a mark that is not closed, with something in front of it. Unless what was put in will
be read again, all marks in front of it are closed. -/
def Unclosed (rules : Rules) (rest : Text) : Text × Nat × Nat → Prop
  | (templateString, i, edge) => i < edge ∨ ∃ done text before,
      templateString = done ++ text ∧ i = done.length ∧
      cutMark openMark (pieces text).2 = some (before, rest) ∧
      done ++ (front rules text ++ before) ≠ [] ∧ (edge ≤ 1 → Closed done.tail)

/-- From the second character on, the mark is found again. -/
theorem unclosed_again (unclosed : cutMark closeMark rest = none) {first : Text} {edge : Nat}
    (some_ : first ≠ []) (closed : edge ≤ 1 → Closed first.tail) :
    Unclosed rules rest (first ++ (openMark ++ rest), 1, edge) := by
  by_cases read : 1 < edge
  · exact .inl read
  · cases first with
    | nil => exact absurd rfl some_
    | cons c others =>
      obtain ⟨before, last⟩ := pieces_of_closed (closed (Nat.not_lt.mp read)) unclosed
      exact .inr ⟨[c], others ++ (openMark ++ rest), before, rfl, rfl, last, by simp,
        fun _ => closed_nil⟩

/-- What is in front stays closed when a tag in it is replaced. -/
theorem closed_replaced {done first replacement : Text} {edge : Nat}
    (closed : edge ≤ 1 → Closed (done ++ first).tail)
    (small : edgeAfter edge (done ++ first) replacement ≤ 1) :
    Closed (done ++ first ++ replacement).tail := by
  unfold edgeAfter at small
  split_ifs at small with empty
  · rw [empty, List.append_nil]
    exact closed small
  · have short : (done ++ first ++ replacement).tail.length = 0 := by
      rw [List.length_tail]
      omega
    exact List.length_eq_zero_iff.mp short ▸ closed_nil

/-- The search goes on behind a tag that is closed, or from the second character. -/
theorem unclosed_turn (unclosed : cutMark closeMark rest = none)
    (unknown : replacementOf rules rest = none) (state : Text × Nat × Nat)
    (inv : Unclosed rules rest state) :
    (∃ next, watchedTurn rules state = .again next ∧ Unclosed rules rest next) ∨
      watchedTurn rules state = .fault := by
  obtain ⟨templateString, i, edge⟩ := state
  by_cases inside : i < edge
  · exact .inr (watchedTurn_of_lt inside)
  refine .inl ?_
  obtain ⟨done, text, before, rfl, rfl, last, some_, closed⟩ := inv.resolve_left inside
  rw [watchedTurn_of_le rules (Nat.not_lt.mp inside)]
  cases opened : cutMark openMark text with
  | none =>
    rw [pieces_none opened, opened] at last
    cases last
  | some parts =>
    obtain ⟨first, behind⟩ := parts
    have closed_ (small : edge ≤ 1) : Closed (done ++ first).tail :=
      closed_tail_append (closed small) (unopened_of_cut opened)
    cases cut : cutMark closeMark behind with
    | none =>
      have none_ : front rules text = [] := by rw [front, pieces_open opened cut]; rfl
      rw [pieces_open opened cut, opened] at last
      obtain ⟨rfl, rfl⟩ := Prod.mk.inj (Option.some.inj last)
      rw [none_, List.nil_append] at some_
      refine ⟨_, by rw [turn_open opened cut, unknown], ?_⟩
      rw [cutMark_eq opened, ← List.append_assoc]
      exact unclosed_again unclosed some_ closed_
    | some parts =>
      obtain ⟨tag, after⟩ := parts
      have tags := pieces_closed opened cut
      have text_ : front rules text = first ++ (shown rules tag ++ front rules after) := by
        rw [front, tags, List.flatMap_cons, List.append_assoc]
        rfl
      rw [tags] at last
      rw [turn_closed opened cut]
      unfold shown at text_
      cases found : replacementOf rules tag with
      | none =>
        rw [found] at text_
        refine ⟨_, rfl, .inr ⟨_, after, before, rfl, rfl, last, ?_, fun _ => ?_⟩⟩
        · simpa [text_] using some_
        · exact closed_tail_fullTag (done ++ first) tag
      | some replacement =>
        rw [found] at text_
        refine ⟨_, rfl, .inr ⟨_, after, before, rfl, rfl, last, ?_, closed_replaced closed_⟩⟩
        simpa [text_] using some_

theorem not_ends_of_unclosed (unclosed : cutMark closeMark rest = none)
    (unknown : replacementOf rules rest = none) {state : Text × Nat × Nat}
    (inv : Unclosed rules rest state) (out : Text) : ¬ Ends (watchedTurn rules) state out :=
  not_ends_of_invariant (Unclosed rules rest) (unclosed_turn unclosed unknown) inv

end again

/-! ## Both engines -/

section both
variable {rules : Rules} {done text before rest : Text} {edge : Nat}

theorem ends_leave (missing : cutMark openMark text = none) (behind : edge ≤ done.length)
    (out : Text) : Ends (watchedTurn rules) (done ++ text, done.length, edge) out ↔
      out = done ++ text := by
  have turn := (watchedTurn_of_le rules behind).trans (turn_none missing)
  constructor
  · intro ends
    exact ends.unique (.of_leave turn)
  · rintro rfl
    exact .of_leave turn

/-- A mark that is not closed has a tag of the rules behind it, and that is the end. -/
theorem ends_open (opened : cutMark openMark text = some (before, rest))
    (unclosed : cutMark closeMark rest = none) {replacement : Text}
    (known : replacementOf rules rest = some replacement) (behind : edge ≤ done.length)
    (out : Text) : Ends (watchedTurn rules) (done ++ text, done.length, edge) out ↔
      out = done ++ before ++ replacement := by
  have turn := (watchedTurn_of_le rules behind).trans (turn_open opened unclosed)
  rw [known] at turn
  have nothing : cutMark openMark [] = none := by decide
  have leaves := @ends_leave rules (done ++ before ++ replacement) [] _ nothing
    (edgeAfter_le (le_length_append behind before)) out
  rw [List.append_nil] at leaves
  exact (ends_of_again turn).trans leaves

theorem vanished_iff (text before : Text) : front rules text ++ before = [] ↔
    before = [] ∧ ∀ piece ∈ (pieces text).1, piece.1 = [] ∧
      replacementOf rules piece.2 = some [] := by
  rw [List.append_eq_nil_iff, front, List.flatMap_eq_nil_iff, and_comm]
  refine and_congr_right' (forall₂_congr fun piece _ => ?_)
  rw [List.append_eq_nil_iff, shown]
  refine and_congr_right' ?_
  cases replacementOf rules piece.2 with
  | none => simp [fullTag, openMark]
  | some replacement => simp

theorem unclosed_behind (front : Text) (unclosed : cutMark closeMark (front ++ rest) = none) :
    cutMark closeMark rest = none := by
  cases cut : cutMark closeMark rest with
  | none => rfl
  | some parts =>
    obtain ⟨tag, after⟩ := parts
    obtain ⟨_, _, found, -⟩ := cutMark_append_le closeMark (front ++ tag) after
    rw [List.append_assoc, ← cutMark_eq cut, unclosed] at found
    cases found

/-- What is left behind the tags has no mark that is closed. -/
theorem unclosed_of_pieces (opened : cutMark openMark (pieces text).2 = some (before, rest)) :
    cutMark closeMark rest = none := by
  fun_induction pieces text with
  | case1 t missing => cases missing.symm.trans opened
  | case2 t front behind found closed =>
    cases found.symm.trans opened
    exact closed
  | case3 t front behind found tag after closed ih => exact ih opened

/-- Where the search starts again with nothing in front. -/
theorem ends_again (unclosed : cutMark closeMark rest = none) :
    Ends (watchedTurn rules) (openMark ++ rest, 1, 0) (openMark ++ rest) ↔
      match cutMark openMark (123 :: rest) with
      | none => True
      | some (_, inner) => replacementOf rules inner = some (openMark ++ inner) := by
  have start : (openMark ++ rest, 1, 0) =
      (([123] : Text) ++ 123 :: rest, ([123] : Text).length, 0) := rfl
  rw [start]
  cases opened : cutMark openMark (123 :: rest) with
  | none => exact iff_true_intro ((ends_leave opened (Nat.zero_le _) _).mpr rfl)
  | some parts =>
    obtain ⟨front, inner⟩ := parts
    have text := cutMark_eq opened
    have unclosed' : cutMark closeMark inner = none := by
      have whole : cutMark closeMark ((front ++ openMark) ++ inner) = none := by
        rw [List.append_assoc, ← text, cutMark, if_neg (by simp [closeMark]), unclosed]
        rfl
      exact unclosed_behind _ whole
    cases known : replacementOf rules inner with
    | some replacement =>
      have whole : openMark ++ rest = [123] ++ front ++ (openMark ++ inner) := by
        rw [List.append_assoc, ← text]
        rfl
      simp only [known]
      rw [ends_open opened unclosed' known (Nat.zero_le _), whole, List.append_cancel_left_eq,
        Option.some_inj]
      exact eq_comm
    | none =>
      refine iff_of_false (not_ends_of_unclosed unclosed' known ?_ _) (by simp [known])
      exact .inr ⟨[123], 123 :: rest, front, rfl, rfl, by rw [pieces_open opened unclosed', opened],
        by simp, fun _ => closed_nil⟩

/-- The edited template is what the other engine makes of it if and only if nothing is left open,
or what is left open stays. -/
theorem in_place_iff (rules : Rules) (templateString : Text) :
    Right rules templateString ↔ Fits rules templateString := by
  rw [right_iff_ends]
  obtain ⟨edge, le, same⟩ := ends_pieces rules [] templateString (Nat.zero_le _)
  have start := same (front rules templateString ++ (pieces templateString).2)
  rw [List.nil_append, List.nil_append, List.length_nil] at start
  rw [List.nil_append] at le
  unfold Fits
  cases opened : cutMark openMark (pieces templateString).2 with
  | none => exact iff_true_intro (start.mpr ((ends_leave opened le _).mpr rfl))
  | some parts =>
    obtain ⟨before, rest⟩ := parts
    have unclosed := unclosed_of_pieces opened
    have last := cutMark_eq opened
    cases known : replacementOf rules rest with
    | some replacement =>
      simp only [known]
      rw [start, ends_open opened unclosed known le, last, ← List.append_assoc,
        List.append_cancel_left_eq]
      exact eq_comm
    | none =>
      simp only [known]
      rw [← vanished_iff]
      by_cases vanished : front rules templateString ++ before = []
      · rw [← ends_again unclosed, and_iff_right vanished, start]
        obtain ⟨none_, rfl⟩ := List.append_eq_nil_iff.mp vanished
        rw [none_] at le ⊢
        obtain rfl := Nat.le_zero.mp le
        have turn := (watchedTurn_of_le rules le).trans
          (@turn_open rules [] _ _ _ _ opened unclosed)
        rw [known] at turn
        rw [last] at turn ⊢
        exact ends_of_again turn
      · refine iff_of_false (not_ends_of_unclosed unclosed known ?_ _) fun fits => vanished fits.1
        exact .inr ⟨[], templateString, before, rfl, rfl, opened, vanished, fun _ => closed_nil⟩

end both

/-- From the second character on the same mark is found each time. -/
theorem open_diverges :
    Diverges (mustacheTurn []) (lit "x\x7b\x7ba", 0, 0) ∧ ¬ Right [] (lit "x\x7b\x7ba") := by
  have first : mustacheTurn [] (lit "x\x7b\x7ba", 0, 0) = .again (lit "x\x7b\x7ba", 1, 0) := by
    decide +kernel
  have second : mustacheTurn [] (lit "x\x7b\x7ba", 1, 0) = .again (lit "x\x7b\x7ba", 1, 0) := by
    decide +kernel
  have forever : Diverges (mustacheTurn []) (lit "x\x7b\x7ba", 0, 0) := by
    refine diverges_of_invariant (fun s => s.1 = lit "x\x7b\x7ba" ∧ s.2.1 ≤ 1 ∧ s.2.2 = 0) ?_
      ⟨rfl, Nat.zero_le _, rfl⟩
    rintro ⟨s, i, edge⟩ ⟨rfl, le, rfl⟩
    match i, le with
    | 0, _ => exact ⟨_, first, rfl, Nat.le_refl _, rfl⟩
    | 1, _ => exact ⟨_, second, rfl, Nat.le_refl _, rfl⟩
  refine ⟨forever, ?_⟩
  rintro ⟨out, -, ends, -⟩
  exact forever.not_ends ends

end InPlaceTemplates
