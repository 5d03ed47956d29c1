/-!
# Slot tables

A slot table hands out small numbers for the values put into it.  A number that is freed is given
out again, the most recently freed one first; only when none is free is a new number used.
-/

namespace GuestShell

/-- Values under numbers; `free` lists the vacant numbers, the next one to use first. -/
structure Slots (α : Type) where
  cells : List (Option α)
  free : List Nat

namespace Slots

variable {α : Type}

/-- The table without values. -/
def empty : Slots α := ⟨[], []⟩

instance : Inhabited (Slots α) := ⟨empty⟩

/-- The value under a number. -/
def get? (s : Slots α) (k : Nat) : Option α := (s.cells[k]?).join

/-- The number that the next value gets. -/
def next (s : Slots α) : Nat := s.free.head?.getD s.cells.length

/-- Puts a value under the next number. -/
def insert (s : Slots α) (v : α) : Slots α :=
  match s.free with
  | [] => ⟨s.cells ++ [some v], []⟩
  | k :: free => ⟨s.cells.set k (some v), free⟩

/-- Frees a number that is in use. -/
def remove (s : Slots α) (k : Nat) : Slots α :=
  if (s.get? k).isSome then ⟨s.cells.set k none, k :: s.free⟩ else s

/-- Changes the value under a number. -/
def modify (s : Slots α) (k : Nat) (f : α → α) : Slots α :=
  match s.get? k with
  | some v => ⟨s.cells.set k (some (f v)), s.free⟩
  | none => s

/-- Changes every value. -/
def map (s : Slots α) (f : α → α) : Slots α := ⟨s.cells.map (·.map f), s.free⟩

end Slots

end GuestShell
