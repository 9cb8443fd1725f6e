import Mathlib.Data.List.Basic

/-!
# Escaped texts

Some characters are written as texts that start with a mark, which is written so itself. Texts of
which none is the beginning of another are read back from left to right.
-/

namespace EscapeTables

universe u

/-- The characters that are escaped, with the texts for them. -/
structure EscapeTable (α : Type u) where
  entries : List (α × List α)
  mark : α
  marked : ∀ e ∈ entries, e.2.head? = some mark
  /-- The mark is escaped itself. -/
  covered : mark ∈ entries.map Prod.fst
  /-- Behind the mark nothing needs to be escaped. -/
  clean : ∀ e ∈ entries, ∀ c ∈ entries.map Prod.fst, c ∉ e.2.tail
  /-- No text is the beginning of another. -/
  separate : ∀ e ∈ entries, ∀ f ∈ entries, e.2 <+: f.2 → e = f

namespace EscapeTable
variable {α : Type u} [DecidableEq α] (table : EscapeTable α)

def escapeOne (a : α) : List α :=
  ((table.entries.find? fun e => e.1 = a).map Prod.snd).getD [a]

def escape (text : List α) : List α := text.flatMap table.escapeOne

/-- From left to right, a text of the table is one character. -/
def unescape : List α → List α
  | [] => []
  | a :: rest => match table.entries.find? fun e => e.2 <+: a :: rest with
    | some e => e.1 :: unescape (rest.drop (e.2.length - 1))
    | none => a :: unescape rest
termination_by text => text.length
decreasing_by all_goals simp; try omega

/-- The text starts one of the table's. -/
def Starts (text : List α) : Prop := ∃ e ∈ table.entries, e.2 <+: text

theorem escape_append (s t : List α) : table.escape (s ++ t) = table.escape s ++ table.escape t :=
  List.flatMap_append

theorem escape_cons (a : α) (text : List α) :
    table.escape (a :: text) = table.escapeOne a ++ table.escape text := List.flatMap_cons

/-- A character stays, or there is an entry for it. -/
theorem escapeOne_cases (a : α) :
    (∃ e ∈ table.entries, e.1 = a ∧ table.escapeOne a = e.2) ∨
      a ∉ table.entries.map Prod.fst ∧ table.escapeOne a = [a] := by
  cases found : table.entries.find? fun e => e.1 = a with
  | some e =>
    have same := List.find?_some found
    exact .inl ⟨e, List.mem_of_find?_eq_some found, by simpa using same, by simp [escapeOne, found]⟩
  | none =>
    rw [List.find?_eq_none] at found
    refine .inr ⟨?_, ?_⟩
    · intro listed
      obtain ⟨e, mem, same⟩ := List.mem_map.mp listed
      exact found e mem (decide_eq_true same)
    · rw [escapeOne, List.find?_eq_none.mpr found]
      rfl

variable {table}

omit [DecidableEq α] in
/-- An entry's text is the mark and what is behind it. -/
theorem entry_text {e : α × List α} (mem : e ∈ table.entries) : e.2 = table.mark :: e.2.tail := by
  have head := table.marked e mem
  cases text : e.2 with
  | nil => simp [text] at head
  | cons a rest =>
    rw [text] at head
    rw [Option.some.inj head, List.tail_cons]

/-- What is escaped does not occur any more, the mark excepted. -/
theorem notMem_escape {c : α} (listed : c ∈ table.entries.map Prod.fst) (other : c ≠ table.mark)
    (text : List α) : c ∉ table.escape text := by
  intro mem
  obtain ⟨a, -, mem⟩ := List.mem_flatMap.mp mem
  obtain ⟨e, inside, -, written⟩ | ⟨unlisted, written⟩ := table.escapeOne_cases a
  · rw [written, entry_text inside, List.mem_cons] at mem
    exact mem.elim other (table.clean e inside c listed)
  · rw [written, List.mem_singleton] at mem
    exact unlisted (mem ▸ listed)

/-- Every mark starts an entry. -/
theorem starts_of_mark {text before after : List α}
    (split : table.escape text = before ++ table.mark :: after) :
    table.Starts (table.mark :: after) := by
  induction text generalizing before with
  | nil => simp [escape] at split
  | cons a text ih =>
    rw [escape_cons] at split
    -- the mark is within the first character's text or behind it
    rcases List.append_eq_append_iff.mp split with ⟨more, rfl, rest⟩ | ⟨more, first, rest⟩
    · exact ih rest
    · cases more with
      | nil => exact @ih [] rest.symm
      | cons b more =>
        rw [List.cons_append] at rest
        obtain ⟨rfl, rfl⟩ := List.cons.inj rest
        obtain ⟨e, inside, -, written⟩ | ⟨unlisted, written⟩ := table.escapeOne_cases a
        · rw [written, entry_text inside] at first
          cases before with
          | nil =>
            obtain ⟨-, tail⟩ := List.cons.inj first
            refine ⟨e, inside, ?_⟩
            rw [entry_text inside, tail]
            exact List.prefix_append _ _
          | cons c before =>
            obtain ⟨-, tail⟩ := List.cons.inj first
            have here : table.mark ∈ e.2.tail := by simp [tail]
            exact absurd here (table.clean e inside _ table.covered)
        · rw [written] at first
          have here : table.mark ∈ [a] := by simp [first]
          exact absurd (List.mem_singleton.mp here ▸ table.covered) unlisted

/-- A text of the table is read as its character. -/
theorem unescape_entry {e : α × List α} (mem : e ∈ table.entries) (rest : List α) :
    table.unescape (e.2 ++ rest) = e.1 :: table.unescape rest := by
  have text := entry_text mem
  have found : (table.entries.find? fun f => f.2 <+: table.mark :: (e.2.tail ++ rest)) =
      some e := by
    have here : e.2 <+: table.mark :: (e.2.tail ++ rest) := by
      rw [← List.cons_append, ← text]
      exact List.prefix_append _ _
    cases found : table.entries.find? fun f => f.2 <+: table.mark :: (e.2.tail ++ rest) with
    | none => exact absurd (decide_eq_true here) (List.find?_eq_none.mp found e mem)
    | some f =>
      have inside := List.mem_of_find?_eq_some found
      have there : f.2 <+: table.mark :: (e.2.tail ++ rest) := by
        simpa using List.find?_some found
      rcases List.prefix_or_prefix_of_prefix here there with front | front
      · rw [table.separate e mem f inside front]
      · rw [table.separate f inside e mem front]
  have behind : (e.2.tail ++ rest).drop (e.2.length - 1) = rest := by
    rw [← List.length_tail, List.drop_left]
  rw [text, List.cons_append, unescape, found]
  simp only [behind]

theorem unescape_other {a : α} (other : a ≠ table.mark) (rest : List α) :
    table.unescape (a :: rest) = a :: table.unescape rest := by
  have missing : (table.entries.find? fun e => e.2 <+: a :: rest) = none := by
    rw [List.find?_eq_none]
    intro e mem starts
    rw [decide_eq_true_iff, entry_text mem, List.cons_prefix_cons] at starts
    exact other starts.1.symm
  rw [unescape, missing]

/-- What was escaped is read back. -/
theorem unescape_escape (text : List α) : table.unescape (table.escape text) = text := by
  induction text with
  | nil => simp [escape, unescape]
  | cons a text ih =>
    rw [escape_cons]
    obtain ⟨e, inside, rfl, written⟩ | ⟨unlisted, written⟩ := table.escapeOne_cases a
    · rw [written, unescape_entry inside, ih]
    · have other : a ≠ table.mark := fun same => unlisted (same ▸ table.covered)
      rw [written, List.singleton_append, unescape_other other, ih]

theorem escape_injective {s t : List α} (same : table.escape s = table.escape t) : s = t := by
  have back := @unescape_escape α _ table
  rw [← back s, same, back]

end EscapeTable

end EscapeTables
