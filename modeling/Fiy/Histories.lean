import Mathlib.Data.List.TakeWhile
import Mathlib.Logic.Relation
import Mathlib.Tactic.Common

/-!
# Histories

An acyclic graph in which every point has a list of parents, the first of which is the one that
it is compared with. A value that is present somewhere was introduced or changed at a point that
can be reached from there. A walk visits the points in some order, and a search along it stops
at the first point with a property.
-/

namespace Histories

universe u v

structure History (α : Type u) where
  parents : α → List α
  acyclic : WellFounded fun parent child => parent ∈ parents child

namespace History
variable {α : Type u} {β : Type v} (h : History α)

def Reaches : α → α → Prop := Relation.ReflTransGen fun child parent => parent ∈ h.parents child

/-- The value appears at a point without parents, or it is another one than at the first parent. -/
def Introduces (value : α → β) (absent : β) (a : α) : Prop :=
  match h.parents a with
  | [] => value a ≠ absent
  | parent :: _ => value a ≠ value parent

variable {h}

/-- What is closed under parents has everything that can be reached. -/
theorem Reaches.closed {p : α → Prop} {start a : α} (reached : h.Reaches start a) (here : p start)
    (closed : ∀ child, p child → ∀ parent ∈ h.parents child, p parent) : p a := by
  induction reached with
  | refl => exact here
  | tail _ parent ih => exact closed _ ih _ parent

/-- A value that is present comes from somewhere. -/
theorem exists_introduces (value : α → β) (absent : β) {start : α}
    (present : value start ≠ absent) : ∃ a, h.Reaches start a ∧ h.Introduces value absent a := by
  induction start using h.acyclic.induction with
  | _ start ih =>
    cases line : h.parents start with
    | nil => exact ⟨start, .refl, by rw [Introduces, line]; exact present⟩
    | cons parent others =>
      have mem : parent ∈ h.parents start := line ▸ List.mem_cons_self
      by_cases same : value start = value parent
      · obtain ⟨a, reached, introduces⟩ := ih parent mem (same ▸ present)
        exact ⟨a, .head mem reached, introduces⟩
      · exact ⟨start, .refl, by rw [Introduces, line]; exact same⟩

end History

/-! ## Searches along a walk -/

section search
variable {α : Type u} {p q : α → Prop} {order : List α} {a b : α}

/-- The first point of a list that has a property. -/
def IsFirst (p : α → Prop) (order : List α) (a : α) : Prop :=
  ∃ before after, order = before ++ a :: after ∧ p a ∧ ∀ b ∈ before, ¬ p b

open Classical in
/-- What stands in front of the first point that has a property. -/
noncomputable def before (p : α → Prop) (order : List α) : List α :=
  order.takeWhile fun b => ¬ p b

theorem exists_isFirst (there : ∃ a ∈ order, p a) : ∃ a, IsFirst p order a := by
  induction order with
  | nil => exact absurd there (by simp)
  | cons b order ih =>
    by_cases here : p b
    · exact ⟨b, [], order, rfl, here, by simp⟩
    · obtain ⟨a, mem, holds⟩ := there
      rcases List.mem_cons.mp mem with rfl | mem
      · exact absurd holds here
      · obtain ⟨a, front, after, rfl, holds, none_⟩ := ih ⟨a, mem, holds⟩
        exact ⟨a, b :: front, after, rfl, holds, List.forall_mem_cons.mpr ⟨here, none_⟩⟩

/-- A search along a list finds the first point. -/
theorem find?_eq_some_iff_isFirst [DecidablePred p] :
    order.find? (fun b => decide (p b)) = some a ↔ IsFirst p order a := by
  rw [List.find?_eq_some_iff_append]
  constructor
  · rintro ⟨holds, front, after, split, none_⟩
    exact ⟨front, after, split, of_decide_eq_true holds, fun b mem => by simpa using none_ b mem⟩
  · rintro ⟨front, after, split, holds, none_⟩
    exact ⟨decide_eq_true holds, front, after, split, fun b mem => by simpa using none_ b mem⟩

theorem IsFirst.unique (first : IsFirst p order a) (first' : IsFirst p order b) : a = b := by
  classical
  rw [← find?_eq_some_iff_isFirst] at first first'
  exact Option.some.inj (first.symm.trans first')

theorem IsFirst.mem (first : IsFirst p order a) : a ∈ order := by
  obtain ⟨front, after, rfl, -⟩ := first
  exact List.mem_append_right _ List.mem_cons_self

theorem IsFirst.holds (first : IsFirst p order a) : p a := by
  obtain ⟨front, after, -, holds, -⟩ := first
  exact holds

theorem not_of_mem_before (mem : b ∈ before p order) : ¬ p b := by
  classical
  exact of_decide_eq_true (List.mem_takeWhile_imp (p := fun b => decide (¬ p b)) mem)

theorem mem_of_mem_before (mem : b ∈ before p order) : b ∈ order :=
  (List.takeWhile_prefix _).subset mem

theorem before_append {front after : List α} (holds : p a) (none_ : ∀ b ∈ front, ¬ p b) :
    before p (front ++ a :: after) = front := by
  classical
  rw [before, List.takeWhile_append_of_pos fun b mem => decide_eq_true (none_ b mem),
    List.takeWhile_cons_of_neg (by simpa using holds), List.append_nil]

/-- A search for one property comes to the first point with another one if and only if it stops
there, and not before. -/
theorem IsFirst.iff (first : IsFirst p order a) :
    IsFirst q order a ↔ q a ∧ ∀ b ∈ before p order, ¬ q b := by
  obtain ⟨front, after, rfl, holds, none_⟩ := first
  rw [before_append holds none_]
  constructor
  · rintro ⟨front', after', split, stops, none'⟩
    refine ⟨stops, fun b mem => none' b ?_⟩
    -- both fronts are what stands in front of the point itself
    have cut : ∀ {front after : List α}, a ∉ front → before (· = a) (front ++ a :: after) = front :=
      fun absent => before_append rfl fun c mem same => absent (same ▸ mem)
    have same := congrArg (before (· = a)) split
    rw [cut fun mem => none_ a mem holds, cut fun mem => none' a mem stops] at same
    exact same ▸ mem
  · exact fun stops => ⟨front, after, rfl, stops.1, stops.2⟩

end search

end Histories
