import Fiy.ByteStrings
import Fiy.CheckedLoops
import Fiy.SortedLists
import Fiy.TextViews

/-!
# Templates

`mustache` looks for the tags of a template each time, and `ParsedTemplate` keeps their
places in a text that is without them. Both are two loops, over the template and over the
places that were found. Sizes are exact numbers: a difference below zero would be an error.
-/

namespace Templates

open ByteStrings TextViews CheckedLoops SortedLists

/-! ## What is meant -/

/-- Two opening braces -/
def openMark : Text := [123, 123]

/-- Two closing braces -/
def closeMark : Text := [125, 125]

def fullTag (tag : Text) : Text := openMark ++ (tag ++ closeMark)

/-- Sorted tags without duplicates. -/
structure Tags where
  tags : List Text
  sorted : tags.Pairwise (· < ·)

/-- One entry for each tag, and one more as the default unless unknown tags are left. -/
structure Substitutions (tags : Tags) (leaveUnknown : Bool) where
  subs : List Text
  sized : subs.length = tags.tags.length + if leaveUnknown then 0 else 1

/-- What is before each tag, the tag, and what is left behind the last one. -/
def pieces (t : Text) : List (Text × Text) × Text :=
  match _opened : cutMark openMark t with
  | none => ([], t)
  | some (before, rest) => match _closed : cutMark closeMark rest with
    | none => ([], t)
    | some (tag, after) => ((before, tag) :: (pieces after).1, (pieces after).2)
termination_by t.length
decreasing_by all_goals
  rw [cutMark_eq _opened, cutMark_eq _closed]
  simp [openMark]
  omega

/-- One pass over the template, in which each tag is replaced by a text. -/
def replaced (value : Text → Text) (t : Text) : Text :=
  ((pieces t).1.flatMap fun piece => piece.1 ++ value piece.2) ++ (pieces t).2

/-- The entry of a tag. An unknown tag stays or becomes the default entry. -/
def valueOf (tags : Tags) (subs : List Text) (tag : Text) : Text :=
  if tag ∈ tags.tags then subs.getD (tags.tags.idxOf tag) []
  else subs.getD tags.tags.length (fullTag tag)

/-! ## The engines -/

/-- `index` -/
def index (sortedTags : List Text) (tag : Text) : Nat := search sortedTags tag

/-- A place in a text, with the index of a substitution or, for an unknown tag, `-1` less the
length of the tag. -/
abbrev Mark := Nat × Int

section loops
variable {β : Type}

/-- One turn of the loops that look for tags. -/
def scanTurn (t : Text) (store : β → Nat → Nat → Text → β) : Nat × β → Turn (Nat × β) β
  | (prev, found) => match findMark t openMark prev with
    | none => .leave found
    | some i => match findMark t closeMark (i + 2) with
      | none => .leave found
      | some stop => .guard (substr t (i + 2) (some (stop - (i + 2)))) fun tag =>
          .again (stop + 2, store found prev i tag)

/-- What `mustache` keeps of a tag. -/
def storeReplacement (tags subs : List Text) (replacements : List Mark) (_prev i : Nat)
    (tag : Text) : List Mark :=
  let idx := index tags tag
  if idx < subs.length then
    replacements ++ [(i, if idx = tags.length then -(tag.length : Int) - 1 else idx)]
  else replacements

/-- What the constructor of `ParsedTemplate` keeps of a tag, with the place in the text
without tags. -/
def storePoint (tags : List Text) (leaveUnknown : Bool) :
    Nat × List Mark → Nat → Nat → Text → Nat × List Mark
  | (offset, points), prev, i, tag =>
    let offset := offset + (i - prev)
    let idx := index tags tag
    if idx = tags.length then
      if leaveUnknown then (offset + (tag.length + 4), points)
      else (offset, points ++ [(offset, -1 - (tag.length : Int))])
    else (offset, points ++ [(offset, (idx : Int))])

/-- An unsigned difference -/
def difference (a b : Nat) : Option Nat := if b ≤ a then some (a - b) else none

/-- One turn of the loops over the places: the text up to the place is copied, something is
added, and `i` moves over the tag. The places are counted by `count`. -/
def copyMark (source : Text) (added : Int → Option Text) (width counted : Int → Option Nat) :
    Nat × Nat × Text → Mark → Option (Nat × Nat × Text)
  | (i, count, ret), (place, n) => do
    let l ← difference place count
    let before ← substr source i (some l)
    let text ← added n
    let w ← width n
    let c ← counted n
    some (i + l + w, count + l + c, ret ++ before ++ text)

end loops

def substitution (subs : List Text) (n : Int) : Option Text :=
  if n < 0 then subs[subs.length - 1]? else subs[n.toNat]?

/-- The length of a tag with its braces. -/
def tagWidth (tags : List Text) (n : Int) : Option Nat :=
  if n < 0 then some (4 + (-(n + 1)).toNat) else tags[n.toNat]?.map (4 + ·.length)

/-- The second loop of `mustache`: places are positions in the template. -/
def copyTemplate (t : Text) (tags subs : List Text) (replacements : List Mark) : Option Text := do
  let (i, _, ret) ← replacements.foldlM
    (copyMark t (substitution subs) (tagWidth tags) (tagWidth tags)) (0, 0, [])
  let rest ← substr t i none
  some (ret ++ rest)

/-- `mustache` -/
def Mustache (t : Text) (tags subs : List Text) (out : Text) : Prop :=
  ∃ replacements, Ends (scanTurn t (storeReplacement tags subs)) (0, []) replacements ∧
    copyTemplate t tags subs replacements = some out

structure ParsedTemplate where
  strippedTemplate : Text
  substitutionPoints : List Mark
  deriving DecidableEq, Repr

/-- The second loop of the constructor: tags are not copied and not counted. -/
def stripTemplate (t : Text) (tags : List Text) (points : List Mark) : Option Text := do
  let (i, _, stripped) ← points.foldlM
    (copyMark t (fun _ => some []) (tagWidth tags) fun _ => some 0) (0, 0, [])
  if i < t.length then
    let rest ← substr t i none
    some (stripped ++ rest)
  else some stripped

namespace ParsedTemplate

/-- The constructor -/
def Parses (t : Text) (tags : List Text) (leaveUnknown : Bool) (p : ParsedTemplate) : Prop :=
  ∃ offset, Ends (scanTurn t (storePoint tags leaveUnknown)) (0, 0, [])
      (offset, p.substitutionPoints) ∧
    stripTemplate t tags p.substitutionPoints = some p.strippedTemplate

/-- `process` -/
def process (p : ParsedTemplate) (subs : List Text) : Option Text := do
  let (prev, _, ret) ← p.substitutionPoints.foldlM
    (copyMark p.strippedTemplate (substitution subs) (fun _ => some 0) fun _ => some 0) (0, 0, [])
  let rest ← substr p.strippedTemplate prev none
  some (ret ++ rest)

end ParsedTemplate

/-! ## The places of the tags -/

section scanning
variable {β : Type} (store : β → Nat → Nat → Text → β)

/-- The tags that are found, one after the other. -/
def storePieces : Nat → β → List (Text × Text) → β
  | _, found, [] => found
  | prev, found, (before, tag) :: ps =>
    storePieces (prev + before.length + tag.length + 4)
      (store found prev (prev + before.length) tag) ps

theorem scan_ends_from (before rest : Text) (found : β) :
    Ends (scanTurn (before ++ rest) store) (before.length, found)
      (storePieces store before.length found (pieces rest).1) := by
  fun_induction pieces rest generalizing before found with
  | case1 t opened =>
    apply Ends.of_leave
    simp [scanTurn, findMark_at, opened, storePieces]
  | case2 t left rest opened closed =>
    obtain rfl := cutMark_eq opened
    have close := findMark_at (before ++ left ++ openMark) rest closeMark
    have text : before ++ left ++ openMark ++ rest =
        before ++ (left ++ (openMark ++ rest)) := by simp
    have start : (before ++ left ++ openMark).length = before.length + left.length + 2 := by
      simp only [List.length_append]
      rfl
    rw [closed, text, start] at close
    apply Ends.of_leave
    simp only [scanTurn, findMark_at, opened, Option.map_some, close, Option.map_none, storePieces]
  | case3 t left rest opened tag after closed ih =>
    obtain rfl := cutMark_eq opened
    obtain rfl := cutMark_eq closed
    have close := findMark_at (before ++ left ++ openMark) (tag ++ (closeMark ++ after)) closeMark
    have text : before ++ left ++ openMark ++ (tag ++ (closeMark ++ after)) =
        before ++ (left ++ (openMark ++ (tag ++ (closeMark ++ after)))) := by simp
    have start : (before ++ left ++ openMark).length = before.length + left.length + 2 := by
      simp only [List.length_append]
      rfl
    have tag_ := substr_part (before ++ left ++ openMark) tag (closeMark ++ after)
    rw [closed, text, start] at close
    rw [text, start] at tag_
    have turn : scanTurn (before ++ (left ++ (openMark ++ (tag ++ (closeMark ++ after))))) store
        (before.length, found) = .again (before.length + left.length + 2 + tag.length + 2,
          store found before.length (before.length + left.length) tag) := by
      simp only [scanTurn, findMark_at, opened, Option.map_some, close, Nat.add_sub_cancel_left,
        tag_, Turn.guard_some]
    have text' : before ++ (left ++ (openMark ++ (tag ++ (closeMark ++ after)))) =
        (before ++ left ++ openMark ++ tag ++ closeMark) ++ after := by simp
    have next : before.length + left.length + 2 + tag.length + 2 =
        (before ++ left ++ openMark ++ tag ++ closeMark).length := by
      simp only [List.length_append]
      rfl
    have sum : before.length + left.length + tag.length + 4 =
        before.length + left.length + 2 + tag.length + 2 := by omega
    rw [ends_of_again turn, storePieces, sum, next, text']
    exact ih _ _

end scanning

/-- Which tags are replaced, and what stands for the replacement. -/
def chosen (tags : Tags) (leaveUnknown : Bool) (tag : Text) : Option Int :=
  if tag ∈ tags.tags then some (tags.tags.idxOf tag)
  else if leaveUnknown then none
  else some (-(tag.length : Int) - 1)

/-- The places of the replaced tags, where a replaced tag counts as `width`. -/
def marks (choose : Text → Option Int) (width : Text → Nat) :
    Nat → List (Text × Text) → List Mark
  | _, [] => []
  | offset, (before, tag) :: ps => match choose tag with
    | none => marks choose width (offset + before.length + (tag.length + 4)) ps
    | some n => (offset + before.length, n) ::
        marks choose width (offset + before.length + width tag) ps

section places
variable {tags : Tags} {leave : Bool}

theorem index_of_mem {tag : Text} (mem : tag ∈ tags.tags) :
    index tags.tags tag = tags.tags.idxOf tag ∧ tags.tags.idxOf tag < tags.tags.length := by
  rw [index, search_eq_idxOf tags.sorted]
  exact ⟨rfl, List.idxOf_lt_length_of_mem mem⟩

theorem index_of_notMem {tag : Text} (unknown : tag ∉ tags.tags) :
    index tags.tags tag = tags.tags.length := by
  rw [index, search_eq_idxOf tags.sorted, List.idxOf_of_notMem unknown]

theorem storeReplacement_eq (subs : Substitutions tags leave) (found : List Mark) (prev i : Nat)
    (tag : Text) : storeReplacement tags.tags subs.subs found prev i tag =
      found ++ ((chosen tags leave tag).map fun n => (i, n)).toList := by
  have sized := subs.sized
  unfold storeReplacement chosen
  by_cases mem : tag ∈ tags.tags
  · obtain ⟨index_, inside⟩ := index_of_mem mem
    have enough : tags.tags.idxOf tag < subs.subs.length := by omega
    have known : tags.tags.idxOf tag ≠ tags.tags.length := by omega
    simp only [index_, enough, if_true, known, if_false, mem]
    rfl
  · rw [index_of_notMem mem]
    cases leave with
    | true => simp [mem, sized]
    | false => simp [mem, sized]

theorem storePoint_eq (offset : Nat) (points : List Mark) (prev i : Nat) (tag : Text) :
    storePoint tags.tags leave (offset, points) prev i tag =
      (offset + (i - prev) + (if (chosen tags leave tag).isSome then 0 else tag.length + 4),
        points ++ ((chosen tags leave tag).map fun n => (offset + (i - prev), n)).toList) := by
  unfold storePoint chosen
  by_cases mem : tag ∈ tags.tags
  · obtain ⟨index_, inside⟩ := index_of_mem mem
    have known : tags.tags.idxOf tag ≠ tags.tags.length := by omega
    simp only [index_, known, if_false, mem, if_true]
    rfl
  · have order : -1 - (tag.length : Int) = -(tag.length : Int) - 1 := by omega
    simp only [index_of_notMem mem, if_true, mem, if_false, order]
    cases leave with
    | true => simp
    | false => simp

/-- What `mustache` finds. -/
theorem replacements_eq (subs : Substitutions tags leave) (offset : Nat) (found : List Mark)
    (ps : List (Text × Text)) :
    storePieces (storeReplacement tags.tags subs.subs) offset found ps =
      found ++ marks (chosen tags leave) (fun tag => tag.length + 4) offset ps := by
  induction ps generalizing offset found with
  | nil => simp [storePieces, marks]
  | cons piece ps ih =>
    obtain ⟨before, tag⟩ := piece
    rw [storePieces, storeReplacement_eq, ih, marks, Nat.add_assoc (offset + before.length)]
    cases chosen tags leave tag with
    | none => simp
    | some n => simp

/-- What the constructor of `ParsedTemplate` finds. -/
theorem points_eq (prev offset : Nat) (found : List Mark) (ps : List (Text × Text)) :
    (storePieces (storePoint tags.tags leave) prev (offset, found) ps).2 =
      found ++ marks (chosen tags leave) (fun _ => 0) offset ps := by
  induction ps generalizing prev offset found with
  | nil => simp [storePieces, marks]
  | cons piece ps ih =>
    obtain ⟨before, tag⟩ := piece
    rw [storePieces, storePoint_eq, ih, marks, Nat.add_sub_cancel_left]
    cases chosen tags leave tag with
    | none => simp
    | some n => simp

end places

/-! ## Copying -/

section copying
variable {source : Text} {added : Int → Option Text} {width counted : Int → Option Nat}
variable {choose : Text → Option Int} {shown put : Text → Text} {count : Text → Nat}

/-- The text of pieces, with the text that a replaced tag has. -/
def textOf (choose : Text → Option Int) (value : Text → Text) (ps : List (Text × Text)) : Text :=
  ps.flatMap fun piece =>
    piece.1 ++ if (choose piece.2).isSome then value piece.2 else fullTag piece.2

/-- At a mark the part before it is copied, and then the replacement. -/
theorem copyMark_at {tag : Text} {n : Int} (known : added n = some (put tag) ∧
    width n = some (shown tag).length ∧ counted n = some (count tag)) {done part rest : Text}
    (text : source = done ++ (part ++ (shown tag ++ rest))) (here : Nat) (ret : Text) :
    copyMark source added width counted (done.length, here, ret) (here + part.length, n) =
      some ((done ++ part ++ shown tag).length, here + part.length + count tag,
        ret ++ part ++ put tag) := by
  obtain ⟨added_, width_, counted_⟩ := known
  have front : substr source done.length (some part.length) = some part := by
    rw [text, substr_part]
  have le : here ≤ here + part.length := by omega
  have length : here + part.length - here = part.length := by omega
  simp only [copyMark, difference, if_pos le, length, front, added_, width_, counted_,
    Option.bind_eq_bind, Option.bind_some, List.length_append]

/-- From a place on, with a gap in front of it that was not copied yet. -/
theorem copy_pieces
    (known : ∀ tag n, choose tag = some n → added n = some (put tag) ∧
      width n = some (shown tag).length ∧ counted n = some (count tag))
    (ps : List (Text × Text)) (last done gap ret : Text) (here : Nat)
    (text : source = done ++ (gap ++ (textOf choose shown ps ++ last))) :
    ∃ copied tail here' out, source = copied ++ tail ∧
      (marks choose count (here + gap.length) ps).foldlM (copyMark source added width counted)
        (done.length, here, ret) = some (copied.length, here', out) ∧
      out ++ tail = ret ++ (gap ++ (textOf choose put ps ++ last)) := by
  induction ps generalizing done gap ret here with
  | nil =>
    refine ⟨done, gap ++ last, here, ret, ?_, rfl, ?_⟩
    · simpa [textOf] using text
    · simp [textOf]
  | cons piece ps ih =>
    obtain ⟨before, tag⟩ := piece
    cases chosen_ : choose tag with
    | none =>
      have text_ : source =
          done ++ ((gap ++ before ++ fullTag tag) ++ (textOf choose shown ps ++ last)) := by
        simpa [textOf, chosen_] using text
      have place : here + gap.length + before.length + (tag.length + 4) =
          here + (gap ++ before ++ fullTag tag).length := by
        simp [fullTag, openMark, closeMark]
        omega
      obtain ⟨copied, tail, here', out, whole, run, same⟩ := ih done _ ret here text_
      refine ⟨copied, tail, here', out, whole, ?_, ?_⟩
      · simp only [marks, chosen_, place]
        exact run
      · rw [same]
        simp [textOf, chosen_]
    | some n =>
      have text_ : source =
          done ++ ((gap ++ before) ++ (shown tag ++ (textOf choose shown ps ++ last))) := by
        simpa [textOf, chosen_] using text
      have step := copyMark_at (known tag n chosen_) text_ here ret
      rw [List.length_append, ← Nat.add_assoc here] at step
      have next : source =
          (done ++ (gap ++ before) ++ shown tag) ++ ([] ++ (textOf choose shown ps ++ last)) := by
        simpa using text_
      obtain ⟨copied, tail, here', out, whole, run, same⟩ := ih _ []
        (ret ++ (gap ++ before) ++ put tag) (here + gap.length + before.length + count tag) next
      refine ⟨copied, tail, here', out, whole, ?_, ?_⟩
      · simp only [marks, chosen_, List.foldlM_cons, step]
        exact run
      · rw [same]
        simp [textOf, chosen_]

end copying

/-! ## Both engines -/

theorem length_fullTag (tag : Text) : (fullTag tag).length = tag.length + 4 := by
  simp [fullTag, openMark, closeMark]

theorem pieces_text (t : Text) (choose : Text → Option Int) :
    t = textOf choose fullTag (pieces t).1 ++ (pieces t).2 := by
  fun_induction pieces t with
  | case1 t opened => simp [textOf]
  | case2 t before rest opened closed => simp [textOf]
  | case3 t before rest opened tag after closed ih =>
    rw [cutMark_eq opened, cutMark_eq closed]
    simp only [textOf, ite_self] at ih
    simp only [textOf, ite_self, List.flatMap_cons, fullTag, List.append_assoc]
    simp only [fullTag] at ih
    rw [← ih]

section engines
variable {tags : Tags} {leave : Bool} (subs : Substitutions tags leave)

/-- The replacement of a chosen tag. -/
theorem substitution_chosen {tag : Text} {n : Int} (chosen_ : chosen tags leave tag = some n) :
    substitution subs.subs n = some (valueOf tags subs.subs tag) := by
  have sized := subs.sized
  unfold chosen at chosen_
  unfold substitution valueOf
  by_cases mem : tag ∈ tags.tags
  · have inside : tags.tags.idxOf tag < subs.subs.length := by
      have := List.idxOf_lt_length_of_mem mem
      omega
    rw [if_pos mem] at chosen_ ⊢
    cases chosen_
    rw [if_neg (by omega), Int.toNat_natCast, List.getD_eq_getElem?_getD,
      List.getElem?_eq_getElem inside, Option.getD_some]
  · rw [if_neg mem] at chosen_ ⊢
    cases leave with
    | true => cases chosen_
    | false =>
      have last : tags.tags.length < subs.subs.length := by simp [sized]
      have here : subs.subs.length - 1 = tags.tags.length := by simp [sized]
      cases chosen_
      rw [if_pos (by omega), here, List.getD_eq_getElem?_getD, List.getElem?_eq_getElem last,
        Option.getD_some]

/-- What is left out of the text for a chosen tag. -/
theorem tagWidth_chosen {tag : Text} {n : Int} (chosen_ : chosen tags leave tag = some n) :
    tagWidth tags.tags n = some (fullTag tag).length := by
  rw [length_fullTag]
  unfold chosen at chosen_
  unfold tagWidth
  by_cases mem : tag ∈ tags.tags
  · have inside := List.idxOf_lt_length_of_mem mem
    rw [if_pos mem] at chosen_
    cases chosen_
    rw [if_neg (by omega), Int.toNat_natCast, List.getElem?_eq_getElem inside,
      List.getElem_idxOf inside, Option.map_some, Nat.add_comm]
  · rw [if_neg mem] at chosen_
    cases leave with
    | true => cases chosen_
    | false =>
      have length : (-(-(tag.length : Int) - 1 + 1)).toNat = tag.length := by omega
      cases chosen_
      rw [if_pos (by omega), length, Nat.add_comm]

/-- A tag that is not chosen stays as it is. -/
theorem replaced_eq (t : Text) : replaced (valueOf tags subs.subs) t =
    textOf (chosen tags leave) (valueOf tags subs.subs) (pieces t).1 ++ (pieces t).2 := by
  have values : (fun piece : Text × Text => piece.1 ++ valueOf tags subs.subs piece.2) =
      fun piece => piece.1 ++ if (chosen tags leave piece.2).isSome then
        valueOf tags subs.subs piece.2 else fullTag piece.2 := by
    funext piece
    cases chosen_ : chosen tags leave piece.2 with
    | some n => simp
    | none =>
      have sized := subs.sized
      unfold chosen at chosen_
      split_ifs at chosen_ with mem unknown
      rw [if_pos unknown] at sized
      simp [valueOf, mem, sized]
  rw [replaced, textOf, values]

theorem copyTemplate_eq (t : Text) : copyTemplate t tags.tags subs.subs
    (marks (chosen tags leave) (fun tag => tag.length + 4) 0 (pieces t).1) =
      some (replaced (valueOf tags subs.subs) t) := by
  have known : ∀ tag n, chosen tags leave tag = some n →
      substitution subs.subs n = some (valueOf tags subs.subs tag) ∧
        tagWidth tags.tags n = some (fullTag tag).length ∧
        tagWidth tags.tags n = some (tag.length + 4) := by
    intro tag n chosen_
    have width := tagWidth_chosen chosen_
    exact ⟨substitution_chosen subs chosen_, width, length_fullTag tag ▸ width⟩
  obtain ⟨copied, tail, here, out, whole, run, same⟩ :=
    copy_pieces known (pieces t).1 (pieces t).2 [] [] [] 0 (pieces_text t _)
  have rest : substr t copied.length none = some tail := by
    rw [whole]
    exact substr_rest copied tail
  simp only [List.length_nil, Nat.add_zero] at run
  simp only [copyTemplate, run, Option.bind_eq_bind, Option.bind_some, rest, same,
    List.nil_append, replaced_eq]

/-- The template without the tags that are chosen. -/
def stripped (tags : Tags) (leave : Bool) (t : Text) : Text :=
  textOf (chosen tags leave) (fun _ => []) (pieces t).1 ++ (pieces t).2

theorem stripTemplate_eq (tags : Tags) (leave : Bool) (t : Text) : stripTemplate t tags.tags
    (marks (chosen tags leave) (fun _ => 0) 0 (pieces t).1) = some (stripped tags leave t) := by
  have known : ∀ tag n, chosen tags leave tag = some n →
      (some [] : Option Text) = some [] ∧ tagWidth tags.tags n = some (fullTag tag).length ∧
        some 0 = some 0 := fun tag n chosen_ => ⟨rfl, tagWidth_chosen chosen_, rfl⟩
  obtain ⟨copied, tail, here, out, whole, run, same⟩ :=
    copy_pieces known (pieces t).1 (pieces t).2 [] [] [] 0 (pieces_text t _)
  simp only [List.length_nil, Nat.add_zero] at run
  simp only [stripTemplate, run, Option.bind_eq_bind, Option.bind_some]
  rw [stripped]
  split
  next inside =>
    have rest : substr t copied.length none = some tail := by
      rw [whole]
      exact substr_rest copied tail
    simp only [rest, Option.bind_some, same, List.nil_append]
  next outside =>
    have length := congrArg List.length whole
    rw [List.length_append] at length
    obtain rfl : tail = [] := List.length_eq_zero_iff.mp (by omega)
    rw [List.append_nil] at same
    rw [same]
    rfl

theorem process_eq (t : Text) : ParsedTemplate.process
    ⟨stripped tags leave t, marks (chosen tags leave) (fun _ => 0) 0 (pieces t).1⟩ subs.subs =
      some (replaced (valueOf tags subs.subs) t) := by
  have known : ∀ tag n, chosen tags leave tag = some n →
      substitution subs.subs n = some (valueOf tags subs.subs tag) ∧
        some 0 = some ([] : Text).length ∧ some 0 = some 0 :=
    fun tag n chosen_ => ⟨substitution_chosen subs chosen_, rfl, rfl⟩
  obtain ⟨copied, tail, here, out, whole, run, same⟩ :=
    copy_pieces known (pieces t).1 (pieces t).2 [] [] [] 0 (Eq.refl (stripped tags leave t))
  have rest : substr (stripped tags leave t) copied.length none = some tail := by
    rw [whole]
    exact substr_rest copied tail
  simp only [List.length_nil, Nat.add_zero] at run
  simp only [ParsedTemplate.process, run, Option.bind_eq_bind, Option.bind_some, rest, same,
    List.nil_append, replaced_eq]

theorem mustache_iff (t out : Text) : Mustache t tags.tags subs.subs out ↔
    out = replaced (valueOf tags subs.subs) t := by
  have scan := scan_ends_from (storeReplacement tags.tags subs.subs) [] t []
  rw [List.nil_append, replacements_eq] at scan
  have copy := copyTemplate_eq subs t
  constructor
  · rintro ⟨replacements, ends, copied⟩
    rw [ends.unique scan] at copied
    exact Option.some.inj (copied.symm.trans copy)
  · rintro rfl
    exact ⟨_, scan, copy⟩

theorem parses_iff (tags : Tags) (leave : Bool) (t : Text) (p : ParsedTemplate) :
    p.Parses t tags.tags leave ↔
      p = ⟨stripped tags leave t, marks (chosen tags leave) (fun _ => 0) 0 (pieces t).1⟩ := by
  have scan := scan_ends_from (storePoint tags.tags leave) [] t (0, [])
  rw [List.nil_append] at scan
  have points : (storePieces (storePoint tags.tags leave) ([] : Text).length (0, [])
      (pieces t).1).2 = _ := points_eq 0 0 [] (pieces t).1
  rw [List.nil_append] at points
  have strip := stripTemplate_eq tags leave t
  constructor
  · rintro ⟨offset, ends, strips⟩
    have found : p.substitutionPoints = _ := (congrArg Prod.snd (ends.unique scan)).trans points
    rw [found, strip] at strips
    obtain ⟨template, found_⟩ := p
    cases found
    cases strips
    rfl
  · rintro rfl
    refine ⟨(storePieces (storePoint tags.tags leave) 0 (0, []) (pieces t).1).1, ?_, strip⟩
    rw [← points]
    exact scan

/-- Both engines end, and come to the template with each tag replaced in one pass. -/
theorem engines_agree (t out : Text) :
    (Mustache t tags.tags subs.subs out ↔ out = replaced (valueOf tags subs.subs) t) ∧
    ((∃ p : ParsedTemplate, p.Parses t tags.tags leave ∧ p.process subs.subs = some out) ↔
      out = replaced (valueOf tags subs.subs) t) := by
  refine ⟨mustache_iff subs t out, ?_⟩
  have processed := process_eq subs t
  constructor
  · rintro ⟨p, parses, process⟩
    rw [(parses_iff tags leave t p).mp parses] at process
    exact Option.some.inj (process.symm.trans processed)
  · rintro rfl
    exact ⟨_, (parses_iff tags leave t _).mpr rfl, processed⟩

end engines

end Templates
