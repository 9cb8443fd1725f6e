import Fiy.ByteStrings

/-!
# Walks through a tree of names

A place is the list of names that lead to it, the last one in front, so that a place lies
inside another one when the other one is a suffix. A path is a list of moves; above the
root there is nothing. Where a path ends inside a place, it either started there and never
left, or it came to exactly that place and did not climb above it afterwards.
-/

namespace PathWalks

open ByteStrings

universe u

inductive Move (α : Type u)
  | stay
  | up
  | down (name : α)
  deriving DecidableEq, Repr

section walks
variable {α : Type u}

def move (place : List α) : Move α → List α
  | .stay => place
  | .up => place.tail
  | .down name => name :: place

/-- Where a path leads to. -/
def walk (start : List α) (path : List (Move α)) : List α := path.foldl move start

def Inside (inner outer : List α) : Prop := outer <:+ inner

instance [DecidableEq α] (inner outer : List α) : Decidable (Inside inner outer) :=
  inferInstanceAs (Decidable (_ <:+ _))

/-- The path does not climb higher than this many levels above its start. -/
def Stays : Nat → List (Move α) → Prop
  | _, [] => True
  | depth, .stay :: path => Stays depth path
  | depth, .down _ :: path => Stays (depth + 1) path
  | 0, .up :: _ => False
  | depth + 1, .up :: path => Stays depth path

theorem walk_append (start : List α) (path after : List (Move α)) :
    walk start (path ++ after) = walk (walk start path) after := List.foldl_append

theorem stays_of_not_up {path : List (Move α)} (flat : .up ∉ path) (depth : Nat) :
    Stays depth path := by
  induction path generalizing depth with
  | nil => trivial
  | cons m path ih =>
    have later := fun found => flat (List.mem_cons_of_mem m found)
    cases m with
    | stay => exact ih later depth
    | down name => exact ih later (depth + 1)
    | up => exact absurd List.mem_cons_self flat

theorem Stays.inside {path : List (Move α)} {below place : List α}
    (stays : Stays below.length path) : Inside (walk (below ++ place) path) place := by
  induction path generalizing below with
  | nil => exact List.suffix_append below place
  | cons m path ih =>
    cases m with
    | stay => exact ih stays
    | down name =>
      have stays : Stays (name :: below).length path := stays
      exact ih stays
    | up =>
      cases below with
      | nil => exact stays.elim
      | cons name below =>
        have stays : Stays below.length path := stays
        exact ih stays

/-- A path that ends inside a place has been there all the time, or entered it. -/
theorem inside_walk_iff {place start : List α} {path : List (Move α)} :
    Inside (walk start path) place ↔
      (∃ below, start = below ++ place ∧ Stays below.length path) ∨
        ∃ before after, path = before ++ after ∧ walk start before = place ∧ Stays 0 after := by
  constructor
  · intro inside
    induction path generalizing start with
    | nil =>
      obtain ⟨below, rfl⟩ := inside
      exact Or.inl ⟨below, rfl, trivial⟩
    | cons m path ih =>
      have inside : Inside (walk (move start m) path) place := inside
      rcases ih inside with ⟨below, here, stays⟩ |
        ⟨before, after, rfl, there, stays⟩
      · cases m with
        | stay => exact Or.inl ⟨below, here, stays⟩
        | down name =>
          cases below with
          | nil => exact Or.inr ⟨[.down name], path, rfl, here, stays⟩
          | cons other below =>
            obtain ⟨rfl, rfl⟩ := List.cons.inj here
            exact Or.inl ⟨below, rfl, stays⟩
        | up =>
          cases start with
          | nil =>
            obtain ⟨rfl, rfl⟩ := List.append_eq_nil_iff.mp here.symm
            exact Or.inr ⟨[.up], path, rfl, rfl, stays⟩
          | cons name start =>
            obtain rfl : start = below ++ place := here
            exact Or.inl ⟨name :: below, rfl, stays⟩
      · exact Or.inr ⟨m :: before, after, rfl, there, stays⟩
  · rintro (⟨below, rfl, stays⟩ | ⟨before, after, rfl, rfl, stays⟩)
    · exact stays.inside
    · rw [walk_append]
      have stays : Stays ([] : List α).length after := stays
      exact stays.inside

end walks

/-! ## Paths of a file system -/

/-- A segment between two slashes. -/
def segmentMove (segment : Text) : Move Text :=
  if segment = [] ∨ segment = "." then .stay
  else if segment = ".." then .up
  else .down segment

def moves (path : Text) : List (Move Text) := (path.splitOn 47).map segmentMove

/-- What a path designates, with relative paths from the given place. -/
def resolve (here : List Text) (path : Text) : List Text :=
  walk (if path.head? = some 47 then [] else here) (moves path)

theorem moves_slash (path rest : Text) : moves (path ++ 47 :: rest) = moves path ++ moves rest := by
  simp only [moves, List.splitOn_append_cons_self, List.map_append]

/-- A path is walked from the directory it starts in. -/
theorem resolve_slash (here : List Text) (dir rest : Text) :
    resolve here (dir ++ 47 :: rest) = walk (resolve here (dir ++ [47])) (moves rest) := by
  have root : (dir ++ 47 :: rest).head? = (dir ++ [47]).head? := by cases dir <;> rfl
  have last : moves [] = [Move.stay] := rfl
  simp only [resolve, root, moves_slash, walk_append, last]
  rfl

/-- A path leads through this place, from where it starts to where it ends. -/
def Visits (here : List Text) (path : Text) (place : List Text) : Prop :=
  ∃ before after, moves path = before ++ after ∧
    walk (if path.head? = some 47 then [] else here) before = place

/-- What is at a path depends on what is at these places. -/
def Touches (here : List Text) (path : Text) (place : List Text) : Prop :=
  Visits here path place ∨ Inside place (resolve here path)

/-- The way to a directory is part of the way to what is in it. -/
theorem Visits.slash {here : List Text} {dir : Text} {place : List Text}
    (visits : Visits here dir place) (some_ : dir ≠ []) (rest : Text) :
    Visits here (dir ++ 47 :: rest) place := by
  obtain ⟨before, after, split, there⟩ := visits
  refine ⟨before, after ++ moves rest, ?_, ?_⟩
  · rw [moves_slash, split, List.append_assoc]
  · rwa [List.head?_append_of_ne_nil dir some_]

example : resolve [] "/data/repos/a/./b//../c" = ["c", "a", "repos", "data"] := by decide

end PathWalks
