import Mathlib.Data.List.Basic
import Mathlib.Data.List.Nodup

/-!
# Binary search

The lower bound of a key in a sorted list: the entries before it are below the key, and the
others are not. In a list without duplicates it finds the position of the key.
-/

namespace SortedLists

universe u
variable {α : Type u} [LT α] [DecidableLT α]

/-- The part of the list that is searched, by its start and its length, is halved. -/
def lowerBoundFrom (l : List α) (key : α) (first len : Nat) : Nat :=
  if len = 0 then first
  else match l[first + len / 2]? with
    | none => first
    | some a =>
      if a < key then lowerBoundFrom l key (first + len / 2 + 1) (len - len / 2 - 1)
      else lowerBoundFrom l key first (len / 2)
termination_by len

def lowerBound (l : List α) (key : α) : Nat := lowerBoundFrom l key 0 l.length

/-- The entries before a position are below the key, and the others are not. -/
structure Splits (l : List α) (key : α) (below above : Nat) : Prop where
  below : ∀ i a, l[i]? = some a → i < below → a < key
  above : ∀ i a, l[i]? = some a → above ≤ i → ¬ a < key

section sorted
variable [Trans (α := α) (· < ·) (· < ·) (· < ·)] {l : List α} {key : α}

omit [DecidableLT α] in
/-- In a sorted list a later entry is not smaller than an earlier one. -/
theorem not_lt_of_sorted (sorted : l.Pairwise (· < ·)) {i j : Nat} {a b : α}
    (first : l[i]? = some a) (second : l[j]? = some b) (le : i ≤ j) (least : ¬ a < key) :
    ¬ b < key := by
  obtain ⟨hi, rfl⟩ := List.getElem?_eq_some_iff.mp first
  obtain ⟨hj, rfl⟩ := List.getElem?_eq_some_iff.mp second
  rcases Nat.lt_or_eq_of_le le with lt | rfl
  · intro smaller
    have step : l[i] < l[j] := List.pairwise_iff_getElem.mp sorted i j hi hj lt
    exact least (Trans.trans step smaller)
  · exact least

theorem splits_lowerBoundFrom (sorted : l.Pairwise (· < ·)) (first len : Nat)
    (inside : first + len ≤ l.length) (bounds : Splits l key first (first + len)) :
    Splits l key (lowerBoundFrom l key first len) (lowerBoundFrom l key first len) := by
  fun_induction lowerBoundFrom l key first len with
  | case1 first => exact bounds
  | case2 first len some_ missing =>
    rw [List.getElem?_eq_none_iff] at missing
    omega
  | case3 first len some_ a middle smaller ih =>
    refine ih (by omega) ⟨?_, ?_⟩
    · intro i b entry before
      by_contra least
      exact not_lt_of_sorted sorted entry middle (by omega) least smaller
    · intro i b entry after
      exact bounds.above i b entry (by omega)
  | case4 first len some_ a middle least ih =>
    refine ih (by omega) ⟨bounds.below, ?_⟩
    intro i b entry after
    exact not_lt_of_sorted sorted middle entry after least

theorem splits_lowerBound (sorted : l.Pairwise (· < ·)) (key : α) :
    Splits l key (lowerBound l key) (lowerBound l key) := by
  refine splits_lowerBoundFrom sorted 0 l.length (by omega) ⟨?_, ?_⟩
  · intro i a _ before
    omega
  · intro i a entry after
    obtain ⟨inside, _⟩ := List.getElem?_eq_some_iff.mp entry
    omega

/-- The lower bound of a key that is in the list is its position. -/
theorem lowerBound_eq [Std.Irrefl (α := α) (· < ·)] (sorted : l.Pairwise (· < ·)) {i : Nat}
    (entry : l[i]? = some key) : lowerBound l key = i := by
  have bounds := splits_lowerBound sorted key
  have le : lowerBound l key ≤ i := by
    by_contra before
    exact Std.Irrefl.irrefl key (bounds.below i key entry (by omega))
  rcases Nat.lt_or_eq_of_le le with lt | same
  · obtain ⟨hi, rfl⟩ := List.getElem?_eq_some_iff.mp entry
    have inside : lowerBound l l[i] < l.length := by omega
    have step := List.pairwise_iff_getElem.mp sorted _ i inside hi lt
    exact absurd step (bounds.above _ _ (List.getElem?_eq_getElem inside) (Nat.le_refl _))
  · exact same

end sorted

section search
variable [DecidableEq α] [Trans (α := α) (· < ·) (· < ·) (· < ·)] [Std.Irrefl (α := α) (· < ·)]

/-- The position of a key, or the length of the list. -/
def search (l : List α) (key : α) : Nat :=
  let i := lowerBound l key
  if l[i]? = some key then i else l.length

theorem search_eq_idxOf [BEq α] [LawfulBEq α] {l : List α} (sorted : l.Pairwise (· < ·)) (key : α) :
    search l key = l.idxOf key := by
  by_cases mem : key ∈ l
  · have inside := List.idxOf_lt_length_of_mem mem
    have entry : l[l.idxOf key]? = some key := by
      rw [List.getElem?_eq_getElem inside, List.getElem_idxOf inside]
    rw [search, lowerBound_eq sorted entry, if_pos entry]
  · have missing : l[lowerBound l key]? ≠ some key := fun entry =>
      mem (List.mem_of_getElem? entry)
    rw [search, if_neg missing, List.idxOf_of_notMem mem]

end search

end SortedLists
