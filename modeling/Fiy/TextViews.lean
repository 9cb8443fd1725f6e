import Fiy.ByteStrings

/-!
# Positions in a text

The operations of `std::string_view` that take positions, with the arguments they are not
defined for. A position stands for what has been read before it: at the end of a beginning,
a search is a `cut` of the rest. No length, or no position to stop at, means the rest.
-/

namespace TextViews

open ByteStrings

universe u
variable {α : Type u}

/-- `substr` throws behind the end. -/
def substr (text : List α) (start : Nat) (length : Option Nat) : Option (List α) :=
  if start ≤ text.length then
    some (length.elim (text.drop start) fun n => (text.drop start).take n)
  else none

/-- `remove_prefix` is only defined up to the end. -/
def removePrefix (text : List α) : Option Nat → Option (List α)
  | none => none
  | some n => if n ≤ text.length then some (text.drop n) else none

/-- The part between two pointers into the text. -/
def range (text : List α) (start stop : Nat) : Option (List α) :=
  if start ≤ stop ∧ stop ≤ text.length then some ((text.drop start).take (stop - start)) else none

/-- `find_first_of`, from the beginning -/
def findFirst (text : List α) (wanted : α → Bool) : Option Nat := text.findIdx? wanted

/-- `find` -/
def find [DecidableEq α] (text : List α) (sep : α) (start : Nat) : Option Nat :=
  ((text.drop start).findIdx? fun a => decide (a = sep)).map (start + ·)

theorem substr_at (before rest : List α) (length : Option Nat) :
    substr (before ++ rest) before.length length =
      some (length.elim rest fun n => rest.take n) := by
  rw [substr, if_pos (by simp), List.drop_left]

@[simp] theorem substr_rest (before rest : List α) :
    substr (before ++ rest) before.length none = some rest := substr_at before rest none

@[simp] theorem substr_part (before part rest : List α) :
    substr (before ++ (part ++ rest)) before.length (some part.length) = some part := by
  rw [substr_at, Option.elim_some, List.take_left]

@[simp] theorem substr_front (part rest : List α) :
    substr (part ++ rest) 0 (some part.length) = some part := substr_part [] part rest

@[simp] theorem range_part (before part rest : List α) :
    range (before ++ (part ++ rest)) before.length (before ++ part).length = some part := by
  have inside : before.length ≤ (before ++ part).length ∧
      (before ++ part).length ≤ (before ++ (part ++ rest)).length := by
    simp only [List.length_append]
    omega
  rw [range, if_pos inside, List.drop_left, List.length_append, Nat.add_sub_cancel_left,
    List.take_left]

@[simp] theorem removePrefix_front (before rest : List α) :
    removePrefix (before ++ rest) (some before.length) = some rest := by
  rw [removePrefix, if_pos (by simp), List.drop_left]

/-- A position behind a beginning and before a rest is in the part between them. -/
theorem getElem?_part {before part : List α} {i : Nat} (rest : List α) (from_ : before.length ≤ i)
    (below : i < (before ++ part).length) :
    ∃ a ∈ part, (before ++ (part ++ rest))[i]? = some a := by
  obtain ⟨k, rfl⟩ := Nat.exists_eq_add_of_le from_
  have inside : k < part.length := by
    rw [List.length_append] at below
    omega
  refine ⟨part[k], List.getElem_mem inside, ?_⟩
  rw [List.getElem?_append_right (by omega), Nat.add_sub_cancel_left,
    List.getElem?_append_left inside, List.getElem?_eq_getElem inside]

theorem findFirst_append {wanted : α → Bool} {before : List α} {a : α}
    (unwanted : ∀ b ∈ before, wanted b = false) (hit : wanted a = true) (rest : List α) :
    findFirst (before ++ a :: rest) wanted = some before.length := by
  have missing : before.findIdx? wanted = none := List.findIdx?_eq_none_iff.mpr unwanted
  rw [findFirst, List.findIdx?_append, missing, List.findIdx?_cons, if_pos hit]
  simp

theorem findFirst_eq_none {wanted : α → Bool} {text : List α}
    (unwanted : ∀ b ∈ text, wanted b = false) : findFirst text wanted = none :=
  List.findIdx?_eq_none_iff.mpr unwanted

section find
variable [DecidableEq α]

/-- A search from the end of a beginning cuts the rest. -/
theorem find_at (before rest : List α) (sep : α) :
    find (before ++ rest) sep before.length =
      (cut sep rest).map fun parts => before.length + parts.1.length := by
  rw [find, List.drop_left]
  cases hcut : cut sep rest with
  | none =>
    have absent := cut_eq_none_iff.mp hcut
    have missing : rest.findIdx? (fun a => decide (a = sep)) = none := by
      rw [List.findIdx?_eq_none_iff]
      intro a mem
      exact decide_eq_false (ne_of_mem_of_not_mem mem absent)
    rw [missing]
    rfl
  | some parts =>
    obtain ⟨rfl, absent⟩ := cut_eq_some_iff.mp hcut
    have found : findFirst (parts.1 ++ sep :: parts.2) (fun a => decide (a = sep)) =
        some parts.1.length :=
      findFirst_append (fun a mem => decide_eq_false (ne_of_mem_of_not_mem mem absent))
        (decide_eq_true rfl) parts.2
    rw [findFirst] at found
    rw [found]
    rfl

theorem find_start (text : List α) (sep : α) :
    find text sep 0 = (cut sep text).map fun parts => parts.1.length := by
  have start := find_at [] text sep
  simpa using start

end find

section marks
variable [DecidableEq α]

/-- The parts before and after the first place where a mark stands. -/
def cutMark (mark : List α) : List α → Option (List α × List α)
  | [] => if mark = [] then some ([], []) else none
  | a :: rest =>
    if mark <+: a :: rest then some ([], (a :: rest).drop mark.length)
    else (cutMark mark rest).map fun parts => (a :: parts.1, parts.2)

/-- `find` with a text: the first position where it stands. -/
def findMark (text mark : List α) (start : Nat) : Option Nat :=
  ((text.drop start).tails.findIdx? fun rest => decide (mark <+: rest)).map (start + ·)

theorem cutMark_eq {mark text before after : List α}
    (found : cutMark mark text = some (before, after)) :
    text = before ++ (mark ++ after) := by
  induction text generalizing before with
  | nil =>
    unfold cutMark at found
    split at found
    next empty =>
      cases found
      simp [empty]
    next => cases found
  | cons a rest ih =>
    unfold cutMark at found
    split at found
    next here =>
      cases found
      rw [List.nil_append]
      exact (List.prefix_iff_eq_append.mp here).symm
    next =>
      obtain ⟨⟨b, c⟩, deeper, same⟩ := Option.map_eq_some_iff.mp found
      cases same
      rw [ih deeper, List.cons_append]

theorem findMark_at (before rest mark : List α) :
    findMark (before ++ rest) mark before.length =
      (cutMark mark rest).map fun parts => before.length + parts.1.length := by
  rw [findMark, List.drop_left]
  have indices : (rest.tails.findIdx? fun rest => decide (mark <+: rest)) =
      (cutMark mark rest).map fun parts => parts.1.length := by
    induction rest with
    | nil =>
      by_cases empty : mark = []
      · simp [cutMark, empty]
      · simp [cutMark, empty]
    | cons a rest ih =>
      rw [List.tails, List.findIdx?_cons, ih, cutMark]
      by_cases here : mark <+: a :: rest
      · simp [here]
      · simp [here, Function.comp_def]
  rw [indices, Option.map_map]
  rfl

/-- A mark that stands somewhere is found, there or before. -/
theorem cutMark_append_le (mark front rest : List α) :
    ∃ before after, cutMark mark (front ++ (mark ++ rest)) = some (before, after) ∧
      before.length ≤ front.length := by
  induction front with
  | nil =>
    rw [List.nil_append]
    cases whole : mark ++ rest with
    | nil => exact ⟨[], [], by rw [cutMark, if_pos (List.append_eq_nil_iff.mp whole).1], by simp⟩
    | cons a text =>
      have here : mark <+: a :: text := whole ▸ List.prefix_append mark rest
      exact ⟨[], _, by rw [cutMark, if_pos here], by simp⟩
  | cons a front ih =>
    obtain ⟨before, after, found, le⟩ := ih
    rw [List.cons_append, cutMark]
    split
    · exact ⟨[], _, rfl, Nat.zero_le _⟩
    · exact ⟨a :: before, after, by rw [found]; rfl, Nat.succ_le_succ le⟩

section lines
variable {mark : List α} {sep : α}

omit [DecidableEq α] in
theorem prefix_of_prefix_line (outside : sep ∉ mark) {line rest : List α}
    (here : mark <+: line ++ sep :: rest) : mark <+: line := by
  rcases List.prefix_or_prefix_of_prefix here (List.prefix_append line (sep :: rest)) with
    front | ⟨more, rfl⟩
  · exact front
  have next : more <+: sep :: rest := (List.prefix_append_right_inj line).mp here
  cases more with
  | nil => simp
  | cons a more =>
    obtain rfl : a = sep := (List.cons_prefix_cons.mp next).1
    exact absurd (by simp) outside

/-- A mark within a line is found in the first line that has it. -/
theorem cutMark_line (some_ : mark ≠ []) (outside : sep ∉ mark) (line rest : List α) :
    cutMark mark (line ++ sep :: rest) =
      match cutMark mark line with
      | some (before, after) => some (before, after ++ sep :: rest)
      | none => (cutMark mark rest).map fun parts => (line ++ sep :: parts.1, parts.2) := by
  induction line with
  | nil =>
    have elsewhere : ¬ mark <+: sep :: rest := fun here =>
      some_ (List.prefix_nil.mp (@prefix_of_prefix_line α mark sep outside [] rest here))
    have nothing : cutMark mark [] = none := by simp [cutMark, some_]
    rw [List.nil_append, nothing, cutMark, if_neg elsewhere]
    rfl
  | cons a line ih =>
    rw [List.cons_append, cutMark, cutMark]
    by_cases here : mark <+: a :: line
    · have further : mark <+: a :: (line ++ sep :: rest) :=
        here.trans (List.prefix_append (a :: line) (sep :: rest))
      rw [if_pos here, if_pos further, ← List.cons_append,
        List.drop_append_of_le_length here.length_le]
    · have elsewhere : ¬ mark <+: a :: (line ++ sep :: rest) := fun further =>
        here (@prefix_of_prefix_line α mark sep outside (a :: line) rest further)
      rw [if_neg here, if_neg elsewhere, ih]
      cases cutMark mark line with
      | none => simp [Function.comp_def]
      | some parts => rfl

/-- What follows a mark up to the end of its line. -/
def markedValue (mark : List α) (sep : α) (text : List α) : Option (List α) :=
  (cutMark mark text).map fun parts => parts.2.takeWhile fun a => decide (a ≠ sep)

theorem takeWhile_line (line rest : List α) :
    (line ++ sep :: rest).takeWhile (fun a => decide (a ≠ sep)) =
      line.takeWhile fun a => decide (a ≠ sep) := by
  induction line with
  | nil => simp
  | cons a line ih => rw [List.cons_append, List.takeWhile_cons, List.takeWhile_cons, ih]

theorem markedValue_line (some_ : mark ≠ []) (outside : sep ∉ mark) (line rest : List α) :
    markedValue mark sep (line ++ sep :: rest) =
      (markedValue mark sep line).or (markedValue mark sep rest) := by
  rw [markedValue, cutMark_line some_ outside, markedValue, markedValue]
  cases cutMark mark line with
  | none => simp [Function.comp_def]
  | some parts => simp only [Option.map_some, takeWhile_line, Option.or]

theorem markedValue_eq_findSome (some_ : mark ≠ []) (outside : sep ∉ mark) (text : List α) :
    markedValue mark sep text = (text.splitOn sep).findSome? (markedValue mark sep) := by
  induction size : text.length using Nat.strong_induction_on generalizing text with
  | _ n ih =>
    cases parts : cut sep text with
    | none =>
      rw [List.splitOn_eq_singleton (cut_eq_none_iff.mp parts), List.findSome?_singleton]
    | some parts_ =>
      obtain ⟨rfl, first⟩ := cut_eq_some_iff.mp parts
      have rest := ih parts_.2.length (by simp at size; omega) parts_.2 rfl
      rw [markedValue_line some_ outside, rest,
        List.splitOn_append_cons_self_of_not_mem first, List.findSome?_cons]
      cases markedValue mark sep parts_.1 with
      | none => rfl
      | some value => rfl

/-- The lines in which a mark stands. -/
def linesWith (mark : List α) (sep : α) (text : List α) : List (List α) :=
  (text.splitOn sep).filter fun line => (cutMark mark line).isSome

/-- Of the lines with the mark the first one matters, and nothing else. -/
theorem markedValue_eq_head (some_ : mark ≠ []) (outside : sep ∉ mark) (text : List α) :
    markedValue mark sep text = (linesWith mark sep text).head?.bind (markedValue mark sep) := by
  rw [markedValue_eq_findSome some_ outside, linesWith]
  induction text.splitOn sep with
  | nil => rfl
  | cons line rest ih =>
    rw [List.findSome?_cons, ih, List.filter_cons]
    cases found : cutMark mark line with
    | none => simp [markedValue, found]
    | some parts => simp [markedValue, found]

end lines

end marks

end TextViews
