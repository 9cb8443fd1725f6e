import Fiy.ByteStrings

/-!
# Folded content lines

Texts over any alphabet that has two characters for the end of a line and a test for blanks. A
line goes on behind a line feed and a blank, and it ends at a line end that no blank follows.
Lines that are written one after another come back one by one.
-/

namespace ContentLines

universe u

/-- What an alphabet has for lines. -/
structure Marks (α : Type u) where
  cr : α
  lf : α
  blank : α → Bool
  distinct : cr ≠ lf
  crBlank : blank cr = true
  lfBlank : blank lf = true

variable {α : Type u} [DecidableEq α] (m : Marks α)

/-- Joins lines that are folded. -/
def unfold : List α → List α
  | [] => []
  | [c] => [c]
  | c :: next :: rest =>
    if c = m.lf ∧ m.blank next then unfold rest else c :: unfold (next :: rest)

/-- Something that is not blank is next. -/
def starts (t : List α) : Bool := match t.head? with
  | none => false
  | some c => !m.blank c

/-- The pieces between line ends. Of both characters together the second one ends the line. -/
def split : List α → List (List α)
  | [] => [[]]
  | c :: rest =>
    if c = m.cr ∧ rest.head? = some m.lf ∧ starts m rest.tail then split rest
    else if (c = m.cr ∨ c = m.lf) ∧ starts m rest then [] :: split rest
    else match split rest with
      | [] => [[c]]
      | line :: lines => (c :: line) :: lines

/-- A line as it is written. -/
structure Line (t : List α) : Prop where
  plain : ∀ c ∈ t, c ≠ m.cr ∧ c ≠ m.lf
  solid : starts m t = true

/-- The lines, each with its end, and what is behind them. -/
def joined (lines : List (List α)) (last : List α) : List α :=
  lines.flatMap (fun line => line ++ [m.cr, m.lf]) ++ last

variable {m}

omit [DecidableEq α] in
theorem joined_cons (line : List α) (lines : List (List α)) (last : List α) :
    joined m (line :: lines) last = line ++ m.cr :: m.lf :: joined m lines last := by
  simp [joined]

omit [DecidableEq α] in
theorem starts_append {t : List α} (solid : starts m t = true) (rest : List α) :
    starts m (t ++ rest) = true := by
  cases t with
  | nil => cases solid
  | cons c t => exact solid

omit [DecidableEq α] in
theorem starts_joined {lines : List (List α)} {last : List α} (are : ∀ l ∈ lines, Line m l)
    (is : Line m last) : starts m (joined m lines last) = true := by
  cases lines with
  | nil => exact is.solid
  | cons line lines =>
    rw [joined_cons]
    exact starts_append (are line List.mem_cons_self).solid _

/-- Without a line feed nothing is folded. -/
theorem unfold_append {front : List α} (plain : m.lf ∉ front) (rest : List α) :
    unfold m (front ++ rest) = front ++ unfold m rest := by
  induction front with
  | nil => rfl
  | cons c front ih =>
    obtain ⟨other, plain⟩ := List.ne_and_not_mem_of_not_mem_cons plain
    rw [List.cons_append]
    cases next : front ++ rest with
    | nil =>
      obtain ⟨rfl, rfl⟩ := List.append_eq_nil_iff.mp next
      rfl
    | cons d more =>
      have kept : ¬ (c = m.lf ∧ m.blank d = true) := fun both => other both.1.symm
      rw [unfold, if_neg kept, ← next, ih plain, List.cons_append]

theorem unfold_solid {rest : List α} (solid : starts m rest = true) :
    unfold m (m.lf :: rest) = m.lf :: unfold m rest := by
  cases rest with
  | nil => cases solid
  | cons c rest =>
    have kept : ¬ (m.lf = m.lf ∧ m.blank c = true) := by simpa [starts] using solid
    rw [unfold, if_neg kept]

theorem split_cons (c : α) (rest : List α) : split m (c :: rest) =
    if c = m.cr ∧ rest.head? = some m.lf ∧ starts m rest.tail then split m rest
    else if (c = m.cr ∨ c = m.lf) ∧ starts m rest then [] :: split m rest
    else match split m rest with
      | [] => [[c]]
      | line :: lines => (c :: line) :: lines := rfl

/-- A line end that something follows ends the line. -/
theorem split_ended {line rest : List α} (plain : ∀ c ∈ line, c ≠ m.cr ∧ c ≠ m.lf)
    (solid : starts m rest = true) :
    split m (line ++ m.cr :: m.lf :: rest) = line :: split m rest := by
  induction line with
  | nil =>
    have feed : ¬ (m.lf = m.cr ∧ rest.head? = some m.lf ∧ starts m rest.tail = true) :=
      fun h => m.distinct h.1.symm
    rw [List.nil_append, split_cons, if_pos ⟨rfl, rfl, solid⟩, split_cons, if_neg feed,
      if_pos ⟨Or.inr rfl, solid⟩]
  | cons c line ih =>
    have other := plain c List.mem_cons_self
    rw [List.cons_append, split_cons, if_neg (fun h => other.1 h.1),
      if_neg (fun h => h.1.elim other.1 other.2),
      ih fun d mem => plain d (List.mem_cons_of_mem c mem)]

theorem split_plain {line : List α} (plain : ∀ c ∈ line, c ≠ m.cr ∧ c ≠ m.lf) :
    split m line = [line] := by
  induction line with
  | nil => rfl
  | cons c line ih =>
    have other := plain c List.mem_cons_self
    rw [split_cons, if_neg (fun h => other.1 h.1), if_neg (fun h => h.1.elim other.1 other.2),
      ih fun d mem => plain d (List.mem_cons_of_mem c mem)]

/-- Lines that are written one after another come back one by one. -/
theorem split_joined {lines : List (List α)} {last : List α} (are : ∀ l ∈ lines, Line m l)
    (is : Line m last) : split m (unfold m (joined m lines last)) = lines ++ [last] := by
  have both : unfold m (joined m lines last) = joined m lines last ∧
      split m (joined m lines last) = lines ++ [last] := by
    induction lines with
    | nil =>
      have feed : m.lf ∉ last := fun mem => (is.plain _ mem).2 rfl
      have whole := unfold_append feed []
      rw [List.append_nil] at whole
      refine ⟨?_, split_plain is.plain⟩
      rw [joined, List.flatMap_nil, List.nil_append, whole, unfold, List.append_nil]
    | cons line lines ih =>
      obtain ⟨first, are⟩ := List.forall_mem_cons.mp are
      obtain ⟨unfolded, lines_⟩ := ih are
      have feed : m.lf ∉ line ++ [m.cr] := by
        rw [List.mem_append, List.mem_singleton, not_or]
        exact ⟨fun mem => (first.plain _ mem).2 rfl, m.distinct.symm⟩
      have solid := starts_joined are is
      have front : line ++ m.cr :: m.lf :: joined m lines last =
          (line ++ [m.cr]) ++ m.lf :: joined m lines last := by simp
      rw [joined_cons, split_ended first.plain solid, lines_, front, unfold_append feed,
        unfold_solid solid, unfolded]
      exact ⟨rfl, rfl⟩
  rw [both.1, both.2]

end ContentLines
