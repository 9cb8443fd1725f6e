import Mathlib.Data.List.Basic
import Mathlib.Data.List.Sort

/-!
# Tables of numbered rows

The rows of a database table under their row numbers, in the order of the numbers. A row
that is added gets the number after the greatest one; a table with a sequence also
never gives a number twice. Statements that select, change or delete rows are
filters and maps, since no query of the programs modelled here depends on more of a
table than its rows in order.
-/

namespace RowTables

universe u v

/-- A selection is determined by what it says of the rows that are there. -/
theorem filter_eq_filter_iff {α : Type u} {rows : List α} {p q : α → Bool} :
    rows.filter p = rows.filter q ↔ ∀ row ∈ rows, p row = q row := by
  constructor
  · intro same row mem
    have picked := congrArg (row ∈ ·) same
    simp only [List.mem_filter, mem, true_and, eq_iff_iff] at picked
    exact Bool.eq_iff_iff.mpr picked
  · exact List.filter_congr

structure Rows (α : Type u) where
  entries : List (Nat × α)
  sorted : entries.Pairwise fun a b => a.1 < b.1

namespace Rows
variable {α : Type u} {β : Type v}

def empty : Rows α := ⟨[], .nil⟩

/-- The greatest number, 0 in an empty table. -/
def lastId (t : Rows α) : Nat := (t.entries.getLast?.map Prod.fst).getD 0

/-- The number of the row that is added next. -/
def nextId (t : Rows α) : Nat := t.lastId + 1

theorem le_lastId (t : Rows α) {e : Nat × α} (he : e ∈ t.entries) : e.1 ≤ t.lastId := by
  obtain ⟨front, last, hlast⟩ := List.eq_nil_or_concat' t.entries |>.resolve_left
    (List.ne_nil_of_mem he)
  have sorted := t.sorted
  rw [hlast, List.pairwise_append] at sorted
  simp only [lastId, hlast, List.getLast?_concat, Option.map_some, Option.getD_some]
  rw [hlast] at he
  rcases List.mem_append.mp he with front | same
  · exact (sorted.2.2 e front last (by simp)).le
  · exact (congrArg Prod.fst (List.mem_singleton.mp same)).le

/-- Add a row under a number above all others. -/
def push (t : Rows α) (id : Nat) (a : α) (above : ∀ e ∈ t.entries, e.1 < id) : Rows α where
  entries := t.entries ++ [(id, a)]
  sorted := by
    rw [List.pairwise_append]
    refine ⟨t.sorted, List.pairwise_singleton _ _, ?_⟩
    intro e he last hlast
    cases List.mem_singleton.mp hlast
    exact above e he

def insert (t : Rows α) (a : α) : Rows α :=
  t.push t.nextId a fun _ he => Nat.lt_succ_of_le (t.le_lastId he)

/-- Keep the rows that pass the test. -/
def filter (p : Nat → α → Bool) (t : Rows α) : Rows α where
  entries := t.entries.filter fun e => p e.1 e.2
  sorted := t.sorted.sublist List.filter_sublist

/-- Change rows in place. -/
def modify (f : Nat → α → α) (t : Rows α) : Rows α where
  entries := t.entries.map fun e => (e.1, f e.1 e.2)
  sorted := List.pairwise_map.mpr t.sorted

/-- Some row passes the test. -/
def any (p : Nat → α → Bool) (t : Rows α) : Bool := t.entries.any fun e => p e.1 e.2

/-- The first row that passes the test. -/
def find? (p : Nat → α → Bool) (t : Rows α) : Option (Nat × α) :=
  t.entries.find? fun e => p e.1 e.2

@[ext]
theorem ext {s t : Rows α} (h : s.entries = t.entries) : s = t := by
  cases s
  cases t
  cases h
  rfl

@[simp]
theorem mem_insert {t : Rows α} {a : α} {e : Nat × α} :
    e ∈ (t.insert a).entries ↔ e ∈ t.entries ∨ e = (t.nextId, a) := by
  simp [insert, push]

theorem any_insert (t : Rows α) (a : α) (p : Nat → α → Bool) :
    (t.insert a).any p = (t.any p || p t.nextId a) := by
  simp [insert, push, any]

@[simp]
theorem nextId_insert (t : Rows α) (a : α) : (t.insert a).nextId = t.nextId + 1 := by
  simp [insert, push, nextId, lastId]

@[simp]
theorem mem_filter {t : Rows α} {p : Nat → α → Bool} {e : Nat × α} :
    e ∈ (t.filter p).entries ↔ e ∈ t.entries ∧ p e.1 e.2 = true := by
  simp [filter]

@[simp]
theorem mem_modify {t : Rows α} {f : Nat → α → α} {e : Nat × α} :
    e ∈ (t.modify f).entries ↔ ∃ a, (e.1, a) ∈ t.entries ∧ f e.1 a = e.2 := by
  obtain ⟨id, b⟩ := e
  simp only [modify, List.mem_map, Prod.mk.injEq, Prod.exists]
  constructor
  · rintro ⟨_, a, mem, rfl, rfl⟩
    exact ⟨a, mem, rfl⟩
  · rintro ⟨a, mem, rfl⟩
    exact ⟨id, a, mem, rfl, rfl⟩

/-- A number is given to one row. -/
theorem unique (t : Rows α) {id : Nat} {a b : α} (ha : (id, a) ∈ t.entries)
    (hb : (id, b) ∈ t.entries) : a = b := by
  by_contra different
  have apart : (t.entries.map Prod.fst).Nodup :=
    List.pairwise_map.mpr (t.sorted.imp fun h => Nat.ne_of_lt h)
  exact different (congrArg Prod.snd (List.inj_on_of_nodup_map apart ha hb rfl))

/-- A table is determined by its rows. -/
theorem ext_mem {s t : Rows α} (h : ∀ e, e ∈ s.entries ↔ e ∈ t.entries) : s = t := by
  have : Std.Irrefl fun a b : Nat × α => a.1 < b.1 := ⟨fun a => Nat.lt_irrefl a.1⟩
  have : Std.Antisymm fun a b : Nat × α => a.1 < b.1 :=
    ⟨fun _ _ hab hba => absurd hab (Nat.lt_asymm hba)⟩
  exact ext (s.sorted.eq_of_mem_iff t.sorted h)

/-- What two selections pick is determined by what each of them picks. -/
theorem filter_or_congr {s t : Rows α} {p q p' q' : Nat → α → Bool}
    (hp : s.filter p = t.filter p') (hq : s.filter q = t.filter q') :
    s.filter (fun i a => p i a || q i a) = t.filter fun i a => p' i a || q' i a := by
  apply ext_mem
  intro e
  have left := congrArg (e ∈ ·.entries) hp
  have right := congrArg (e ∈ ·.entries) hq
  simp only [mem_filter, eq_iff_iff] at left right
  simp only [mem_filter, Bool.or_eq_true, and_or_left]
  exact or_congr left right

theorem filter_and (t : Rows α) (p q : Nat → α → Bool) :
    t.filter (fun i a => p i a && q i a) = (t.filter p).filter q := by
  apply ext_mem
  intro e
  simp [and_assoc]

/-- The same rows with other contents. -/
def map (f : α → β) (t : Rows α) : Rows β where
  entries := t.entries.map fun e => (e.1, f e.2)
  sorted := List.pairwise_map.mpr t.sorted

@[simp]
theorem nextId_map (f : α → β) (t : Rows α) : (t.map f).nextId = t.nextId := by
  simp [nextId, lastId, map, Function.comp_def]

theorem map_insert (f : α → β) (t : Rows α) (a : α) :
    (t.insert a).map f = (t.map f).insert (f a) := by
  apply ext
  change (t.entries ++ [(t.nextId, a)]).map _ = t.entries.map _ ++ [((t.map f).nextId, f a)]
  rw [nextId_map, List.map_append]
  rfl

theorem map_filter (f : α → β) (t : Rows α) (p : Nat → β → Bool) :
    (t.map f).filter p = (t.filter fun i a => p i (f a)).map f := by
  apply ext
  simp [map, filter, List.filter_map, Function.comp_def]

theorem any_map (f : α → β) (t : Rows α) (p : Nat → β → Bool) :
    (t.map f).any p = t.any fun i a => p i (f a) := by
  simp [map, any, Function.comp_def]

end Rows

/-- A table whose numbers are never given again. -/
structure AutoRows (α : Type u) extends Rows α where
  sequence : Nat
  bounded : ∀ e ∈ entries, e.1 ≤ sequence

namespace AutoRows
variable {α : Type u}

def empty : AutoRows α := ⟨Rows.empty, 0, fun _ he => absurd he List.not_mem_nil⟩

/-- The number of the row that is added next. -/
def nextId (t : AutoRows α) : Nat := t.sequence + 1

def insert (t : AutoRows α) (a : α) : AutoRows α where
  toRows := t.toRows.push t.nextId a fun e he => Nat.lt_succ_of_le (t.bounded e he)
  sequence := t.nextId
  bounded := by
    intro e he
    rcases List.mem_append.mp he with old | new
    · exact (t.bounded e old).trans (Nat.le_succ _)
    · cases List.mem_singleton.mp new
      exact le_refl _

def filter (p : Nat → α → Bool) (t : AutoRows α) : AutoRows α where
  toRows := t.toRows.filter p
  sequence := t.sequence
  bounded := fun e he => t.bounded e (List.mem_of_mem_filter he)

def modify (f : Nat → α → α) (t : AutoRows α) : AutoRows α where
  toRows := t.toRows.modify f
  sequence := t.sequence
  bounded := by
    intro e he
    obtain ⟨a, mem, -⟩ := Rows.mem_modify.mp he
    exact t.bounded (e.1, a) mem

@[simp]
theorem mem_insert {t : AutoRows α} {a : α} {e : Nat × α} :
    e ∈ (t.insert a).entries ↔ e ∈ t.entries ∨ e = (t.nextId, a) := by
  simp [insert, Rows.push]

@[simp]
theorem mem_filter {t : AutoRows α} {p : Nat → α → Bool} {e : Nat × α} :
    e ∈ (t.filter p).entries ↔ e ∈ t.entries ∧ p e.1 e.2 = true := Rows.mem_filter

@[simp]
theorem mem_modify {t : AutoRows α} {f : Nat → α → α} {e : Nat × α} :
    e ∈ (t.modify f).entries ↔ ∃ a, (e.1, a) ∈ t.entries ∧ f e.1 a = e.2 := Rows.mem_modify

end AutoRows

end RowTables
