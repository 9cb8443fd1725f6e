import Mathlib.Algebra.BigOperators.Group.List.Basic
import Mathlib.Algebra.GroupWithZero.Nat

/-!
# Callbacks held by pending operations

An asynchronous computation as the operations that are pending, the number of calls
its callback has had, and whether the process has ended. An operation holds the
callback a number of times, its weight. The computation owes `n` calls when the calls
made and the calls held add up to `n`; one that owes a single call makes it exactly
once by the time nothing is pending.
-/

namespace PendingWork

universe u

structure Pool (α : Type u) where
  pending : List α := []
  calls : Nat := 0
  ended : Bool := false
  deriving DecidableEq

variable {α : Type u}

namespace Pool

def call (s : Pool α) : Pool α := { s with calls := s.calls + 1 }

def enqueue (s : Pool α) (op : α) : Pool α := { s with pending := s.pending ++ [op] }

/-- The process ends, and nothing is pending any more. -/
def abort (s : Pool α) : Pool α := { s with pending := [], ended := true }

/-- One pending operation, and the pool without it. -/
def take (s : Pool α) (i : Nat) : Option (α × Pool α) :=
  s.pending[i]?.map fun op => (op, { s with pending := s.pending.eraseIdx i })

end Pool

/-- Calls made and calls held. -/
def total (weight : α → Nat) (s : Pool α) : Nat := s.calls + (s.pending.map weight).sum

structure Owes (weight : α → Nat) (n : Nat) (s : Pool α) : Prop where
  running : s.ended = false
  sum : total weight s = n

variable {weight : α → Nat} {s t : Pool α} {n m : Nat}

theorem Owes.unique (h : Owes weight n s) (h' : Owes weight m s) : n = m :=
  h.sum.symm.trans h'.sum

theorem Owes.call (h : Owes weight n s) : Owes weight (n + 1) s.call where
  running := h.running
  sum := by
    have := h.sum
    simp only [total, Pool.call] at this ⊢
    omega

theorem Owes.enqueue (h : Owes weight n s) (op : α) :
    Owes weight (n + weight op) (s.enqueue op) where
  running := h.running
  sum := by
    have := h.sum
    simp only [total, Pool.enqueue, List.map_append, List.map_singleton, List.sum_append,
      List.sum_singleton] at this ⊢
    omega

/-- Taking an operation out takes the calls it holds out. -/
theorem Owes.take {i : Nat} {op : α} (h : Owes weight n s) (taken : s.take i = some (op, t)) :
    ∃ m, n = m + weight op ∧ Owes weight m t := by
  obtain ⟨found, hfound, heq⟩ := Option.map_eq_some_iff.mp taken
  obtain ⟨rfl, rfl⟩ := Prod.mk.inj heq
  obtain ⟨hi, hget⟩ := List.getElem?_eq_some_iff.mp hfound
  have perm := (List.getElem_cons_eraseIdx_perm hi).map weight
  rw [hget, List.map_cons] at perm
  have split := perm.sum_eq
  rw [List.sum_cons] at split
  refine ⟨_, ?_, h.running, rfl⟩
  have := h.sum
  simp only [total] at this ⊢
  omega

theorem not_owes_abort (s : Pool α) : ¬ Owes weight n s.abort := fun h => by cases h.running

/-- The callback is never called twice, and it has been called when nothing is pending. -/
theorem Owes.exactly_once (h : Owes weight 1 s) :
    s.calls ≤ 1 ∧ (s.pending = [] → s.calls = 1) := by
  have sum := h.sum
  rw [total] at sum
  refine ⟨by omega, fun settled => ?_⟩
  rw [settled] at sum
  exact sum

end PendingWork
