import Mathlib.Data.List.Sublists
import Mathlib.Logic.Relation

/-!
# A bounded FIFO with its history

The abstract machine adds at the back, takes from the front, and, where it may
evict, replaces the oldest of a full buffer by the new element. It remembers
what entered and what left. In every reachable state the history splits into
what left and what is still there, and the buffer is within its bound.
-/

/-- An element left a buffer from its front: it was taken, or it was evicted. -/
inductive Departure (α : Type*)
  | taken (element : α)
  | evicted (element : α)
deriving DecidableEq

namespace Departure

variable {α : Type*}

/-- The element that left. -/
def element : Departure α → α
  | .taken a => a
  | .evicted a => a

/-- The element, if it was taken. -/
def taken? : Departure α → Option α
  | .taken a => some a
  | .evicted _ => none

/-- The element, if it was evicted. -/
def evicted? : Departure α → Option α
  | .taken _ => none
  | .evicted a => some a

/-- What was taken and what was evicted are together what left. -/
theorem taken_evicted_perm (left : List (Departure α)) :
    (left.map element).Perm (left.filterMap evicted? ++ left.filterMap taken?) := by
  induction left with
  | nil => exact List.Perm.nil
  | cons d left ih =>
      cases d with
      | taken a => exact (ih.cons a).trans List.perm_middle.symm
      | evicted a => exact ih.cons a

theorem taken_sublist (left : List (Departure α)) :
    (left.filterMap taken?).Sublist (left.map element) := by
  induction left with
  | nil => exact List.Sublist.slnil
  | cons d left ih =>
      cases d with
      | taken a => exact ih.cons_cons a
      | evicted a => exact ih.cons a

/-- Where nothing was evicted, all that left was taken. -/
theorem taken_of_evicted_eq_nil {left : List (Departure α)}
    (h : left.filterMap evicted? = []) : left.filterMap taken? = left.map element := by
  induction left with
  | nil => rfl
  | cons d left ih =>
      cases d with
      | taken a => exact congrArg (a :: ·) (ih h)
      | evicted a => simp [evicted?] at h

end Departure

/-- The buffered elements, oldest first, and what entered and left so far. -/
@[ext] structure BoundedFifo (α : Type*) where
  items : List α
  entered : List α
  left : List (Departure α)

namespace BoundedFifo

variable {α : Type*}

/-- No element has entered. -/
def empty : BoundedFifo α := ⟨[], [], []⟩

/-- One step of a buffer of the given capacity, which evicts only if it may. -/
inductive Step (capacity : Nat) (evicting : Prop) : BoundedFifo α → BoundedFifo α → Prop
  | enter (f : BoundedFifo α) (a : α) (room : f.items.length < capacity) :
      Step capacity evicting f ⟨f.items ++ [a], f.entered ++ [a], f.left⟩
  | displace (f : BoundedFifo α) (a oldest : α) (rest : List α) (may : evicting)
      (full : f.items.length = capacity) (items : f.items = oldest :: rest) :
      Step capacity evicting f
        ⟨rest ++ [a], f.entered ++ [a], f.left ++ [.evicted oldest]⟩
  | take (f : BoundedFifo α) (oldest : α) (rest : List α) (items : f.items = oldest :: rest) :
      Step capacity evicting f ⟨rest, f.entered, f.left ++ [.taken oldest]⟩

/-- Reachable from the empty buffer. -/
def Reachable (capacity : Nat) (evicting : Prop) (f : BoundedFifo α) : Prop :=
  Relation.ReflTransGen (Step capacity evicting) empty f

section Reachable

variable {capacity : Nat} {evicting : Prop} {f : BoundedFifo α}
  (h : Reachable capacity evicting f)
include h

theorem Reachable.bounded : f.items.length ≤ capacity := by
  induction h with
  | refl => exact Nat.zero_le _
  | tail _ step ih =>
      cases step with
      | enter a room =>
          rw [List.length_append, List.length_singleton]
          omega
      | displace a oldest rest may full items =>
          simp only [items, List.length_cons] at full
          simp only [List.length_append, List.length_singleton]
          omega
      | take oldest rest items =>
          simp only [items, List.length_cons] at ih
          exact (Nat.le_succ _).trans ih

/-- What entered is what left followed by what is still buffered. -/
theorem Reachable.conserved : f.entered = f.left.map Departure.element ++ f.items := by
  induction h with
  | refl => rfl
  | tail _ step ih =>
      cases step with
      | enter a room => simp [ih]
      | displace a oldest rest may full items => simp [ih, items, Departure.element]
      | take oldest rest items => simp [ih, items, Departure.element]

theorem Reachable.evicting_of_evicted (hne : f.left.filterMap Departure.evicted? ≠ []) :
    evicting := by
  induction h with
  | refl => exact absurd rfl hne
  | tail _ step ih =>
      cases step with
      | enter a room => exact ih hne
      | displace a oldest rest may full items => exact may
      | take oldest rest items =>
          apply ih
          simpa [List.filterMap_append, Departure.evicted?] using hne

end Reachable

end BoundedFifo
