import Mathlib.Data.List.Basic
import Mathlib.Logic.Function.Basic

/-!
# Locks for several readers or one writer

The state of a lock, and what it says about the program positions of the threads: each
position is in a section under the lock, for reading or for writing, or in none. While the
lock agrees with the positions, a thread outside of all sections does not have the lock,
and two threads in a writing section are the same.
-/

namespace SharedLocks

universe u

inductive Mode
  | read
  | write
  deriving DecidableEq, Repr

structure SharedLock (τ : Type u) where
  readers : List τ
  writer : Option τ
  deriving DecidableEq, Repr

namespace SharedLock

section states
variable {τ : Type u}

def free : SharedLock τ := ⟨[], none⟩

def Holds (l : SharedLock τ) (t : τ) : Prop := t ∈ l.readers ∨ l.writer = some t

/-- `none`: the thread waits. -/
def tryLock (l : SharedLock τ) (t : τ) : Mode → Option (SharedLock τ)
  | .read => if l.writer.isNone = true then some { l with readers := t :: l.readers } else none
  | .write =>
    if l.writer.isNone = true ∧ l.readers.isEmpty = true then some { l with writer := some t }
    else none

/-- The lock is held as the positions of the threads say. -/
structure Agrees (l : SharedLock τ) (region : τ → Option Mode) : Prop where
  nodup : l.readers.Nodup
  reading : ∀ t, t ∈ l.readers ↔ region t = some .read
  writing : ∀ t, l.writer = some t ↔ region t = some .write

theorem agrees_free : Agrees (free : SharedLock τ) fun _ => none where
  nodup := List.nodup_nil
  reading := fun t => by simp [free]
  writing := fun t => by simp [free]

variable {l : SharedLock τ} {region : τ → Option Mode} {t u : τ}

theorem Agrees.holds_iff (agrees : l.Agrees region) : l.Holds t ↔ region t ≠ none := by
  rw [Holds, agrees.reading, agrees.writing]
  cases region t with
  | none => simp
  | some mode => cases mode <;> simp

theorem Agrees.writer_unique (agrees : l.Agrees region) (first : region t = some .write)
    (second : region u = some .write) : t = u := by
  have here := (agrees.writing t).mpr first
  have there := (agrees.writing u).mpr second
  rw [here] at there
  exact Option.some.inj there

end states

section moves
variable {τ : Type u} [DecidableEq τ]

instance (l : SharedLock τ) (t : τ) : Decidable (l.Holds t) := inferInstanceAs (Decidable (_ ∨ _))

def unlock (l : SharedLock τ) (t : τ) : Mode → SharedLock τ
  | .read => { l with readers := l.readers.erase t }
  | .write => { l with writer := none }

variable {l l' : SharedLock τ} {region : τ → Option Mode} {t : τ}

namespace Agrees

/-- Only the sections matter. -/
theorem stay (agrees : l.Agrees region) {mode : Option Mode} (same : region t = mode) :
    l.Agrees (Function.update region t mode) := by
  rwa [← same, Function.update_eq_self]

theorem lock (agrees : l.Agrees region) {mode : Mode} (outside : region t = none)
    (taken : l.tryLock t mode = some l') : l'.Agrees (Function.update region t (some mode)) := by
  have absent : t ∉ l.readers := by simp [agrees.reading, outside]
  cases mode with
  | read =>
    simp only [tryLock] at taken
    split at taken
    · cases taken
      refine ⟨List.nodup_cons.mpr ⟨absent, agrees.nodup⟩, ?_, ?_⟩
      · intro u
        by_cases same : u = t
        · simp [same]
        · simp [same, agrees.reading]
      · intro u
        by_cases same : u = t
        · simp [same, agrees.writing, outside]
        · simp [same, agrees.writing]
    · cases taken
  | write =>
    simp only [tryLock] at taken
    split at taken
    next unused =>
      cases taken
      refine ⟨agrees.nodup, ?_, ?_⟩
      · intro u
        by_cases same : u = t
        · simp [same, absent]
        · simp [same, agrees.reading]
      · intro u
        by_cases same : u = t
        · simp [same]
        · have other : region u ≠ some .write := by
            rw [ne_eq, ← agrees.writing, Option.isNone_iff_eq_none.mp unused.1]
            simp
          simp [same, Ne.symm same, other]
    · cases taken

theorem unlock (agrees : l.Agrees region) {mode : Mode} (inside : region t = some mode) :
    (l.unlock t mode).Agrees (Function.update region t none) := by
  cases mode with
  | read =>
    refine ⟨agrees.nodup.erase t, ?_, ?_⟩
    · intro u
      rw [SharedLock.unlock, agrees.nodup.mem_erase_iff, agrees.reading]
      by_cases same : u = t
      · simp [same]
      · simp [same]
    · intro u
      by_cases same : u = t
      · simp [same, SharedLock.unlock, agrees.writing, inside]
      · simp [same, SharedLock.unlock, agrees.writing]
  | write =>
    refine ⟨agrees.nodup, ?_, ?_⟩
    · intro u
      by_cases same : u = t
      · simp [same, SharedLock.unlock, agrees.reading, inside]
      · simp [same, SharedLock.unlock, agrees.reading]
    · intro u
      by_cases same : u = t
      · simp [same, SharedLock.unlock]
      · have other : region u ≠ some .write := fun writes => same (agrees.writer_unique writes inside)
        simp [same, SharedLock.unlock, other]

end Agrees

end moves

end SharedLock

end SharedLocks
