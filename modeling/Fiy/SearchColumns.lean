import Fiy.SearchStatements

/-!
# The columns of a search

A comma stands behind every field but a fork, and the last one is taken away.
-/

namespace SearchColumns

open ByteStrings GitRepos GitSearch SqlTexts SqlQueries SearchStatements

section columns

/-- A field without the comma behind it. -/
def fieldText (part : Part) : Text := dropComma (fieldPart part)

/-- The columns as they are written, with what the commas should be. -/
def columnsText (fields : List Part) : Text := dropComma (fields.flatMap fieldPart)

def joinedColumns (fields : List Part) : Text := [(44 : Byte)].intercalate (fields.map fieldText)

/-- What is evaluated of the text of a field. -/
def IsField (part : Part) (t : Text) : Prop :=
  t = dropComma t ++ (if part = .fork then [] else [44]) ∧ t ≠ [] ∧
    Reads (dropComma t) (Select.columnTokens (fieldColumn part))

instance (part : Part) (t : Text) : Decidable (IsField part t) :=
  inferInstanceAs (Decidable (_ ∧ _))

theorem isField (part : Part) : IsField part (fieldPart part) := by
  cases part with
  | invalid | internalId | path | description | likes | visibility | fork | createTs | updateTs
    | tickets =>
    rw [fieldPart, lit_ofList]
    decide +kernel

theorem fieldPart_eq (part : Part) :
    fieldPart part = fieldText part ++ if part = .fork then [] else [44] := (isField part).1

theorem fieldPart_ne (part : Part) : fieldPart part ≠ [] := (isField part).2.1

theorem reads_field (part : Part) :
    Reads (fieldText part) (Select.columnTokens (fieldColumn part)) := (isField part).2.2

theorem dropComma_append (front : Text) {back : Text} (ne : back ≠ []) :
    dropComma (front ++ back) = front ++ dropComma back := by
  have last : (front ++ back).getLast? = back.getLast? := by
    rw [List.getLast?_append, List.getLast?_eq_some_getLast ne]
    rfl
  rw [dropComma, dropComma, last, List.dropLast_append_of_ne_nil ne]
  split
  · rfl
  · rfl

theorem columnsText_cons (part : Part) {fields : List Part} (ne : fields ≠ []) :
    columnsText (part :: fields) = fieldPart part ++ columnsText fields := by
  obtain ⟨next, fields, rfl⟩ := List.exists_cons_of_ne_nil ne
  refine dropComma_append (fieldPart part) fun empty => ?_
  exact fieldPart_ne next (List.append_eq_nil_iff.mp empty).1

theorem columnsText_single (part : Part) : columnsText [part] = fieldText part :=
  congrArg dropComma (List.append_nil _)

/-- The commas are there, unless a fork is in front of another field. -/
theorem columnsText_joined {fields : List Part} (ne : fields ≠ [])
    (forkless : .fork ∉ fields.dropLast) : columnsText fields = joinedColumns fields := by
  induction fields with
  | nil => exact absurd rfl ne
  | cons part fields ih =>
    cases fields with
    | nil => exact (columnsText_single part).trans List.intercalate_singleton.symm
    | cons next fields =>
      rw [List.dropLast_cons_cons, List.mem_cons, not_or] at forkless
      rw [columnsText_cons part (List.cons_ne_nil _ _), ih (List.cons_ne_nil _ _) forkless.2,
        fieldPart_eq, if_neg (Ne.symm forkless.1)]
      exact List.append_assoc _ _ _

/-- Every other fork lacks one. -/
theorem columnsText_commas {fields : List Part} (ne : fields ≠ []) :
    (columnsText fields).count 44 + fields.dropLast.count .fork = (joinedColumns fields).count 44 := by
  induction fields with
  | nil => exact absurd rfl ne
  | cons part fields ih =>
    cases fields with
    | nil =>
      rw [columnsText_single, joinedColumns, List.map_singleton, List.intercalate_singleton]
      rfl
    | cons next fields =>
      have rest := ih (List.cons_ne_nil _ _)
      rw [List.dropLast_cons_cons, List.count_cons, columnsText_cons part (List.cons_ne_nil _ _)]
      rw [joinedColumns, List.map_cons, List.map_cons, List.intercalate_cons_cons,
        ← List.map_cons, ← joinedColumns, List.count_append, List.count_append, List.count_append,
        ← rest, fieldPart_eq, List.count_append]
      by_cases fork : part = .fork
      · rw [if_pos fork, if_pos (beq_iff_eq.mpr fork)]
        simp only [List.count_nil, List.count_singleton_self]
        omega
      · rw [if_neg fork, if_neg fun same => fork (beq_iff_eq.mp same)]
        omega

theorem reads_joined {fields : List Part} (ne : fields ≠ []) : Reads (joinedColumns fields)
    ([.symbol ","].intercalate ((fields.map fieldColumn).map Select.columnTokens)) := by
  induction fields with
  | nil => exact absurd rfl ne
  | cons part fields ih =>
    cases fields with
    | nil =>
      rw [joinedColumns, List.map_singleton, List.map_singleton, List.map_singleton,
        List.intercalate_singleton, List.intercalate_singleton]
      exact reads_field part
    | cons next fields =>
      have rest := ih (List.cons_ne_nil _ _)
      have both := (reads_field part).comma rest
      simpa only [joinedColumns, List.map_cons, List.intercalate_cons_cons, List.append_assoc,
        List.singleton_append] using both

end columns

end SearchColumns
