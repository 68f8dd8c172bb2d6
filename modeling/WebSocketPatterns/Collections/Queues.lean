import Mathlib.Data.List.Basic
import Mathlib.Algebra.Order.Ring.Int

/-!
# Bounded queues

`AsyncQueue` is `asyncio.Queue` without its waiters: a FIFO whose `put_nowait`
fails exactly when it holds `maxsize` items, and which is unbounded when
`maxsize` is not positive. `Deque` is `collections.deque`, whose `append`
discards the head when the length bound is reached. Both carry their bound as
a field.
-/

/-- `asyncio.Queue`: the items in the order they were put. -/
@[ext] structure AsyncQueue (α : Type*) where
  maxsize : Int
  items : List α
  bounded : 0 < maxsize → (items.length : Int) ≤ maxsize

namespace AsyncQueue

variable {α : Type*}

/-- `asyncio.Queue(maxsize)`. -/
def new (maxsize : Int) : AsyncQueue α where
  maxsize := maxsize
  items := []
  bounded := fun h => by simpa using le_of_lt h

/-- `qsize()`. -/
def qsize (q : AsyncQueue α) : Nat := q.items.length

/-- `full()`: never when the queue is unbounded. -/
def full (q : AsyncQueue α) : Prop := 0 < q.maxsize ∧ q.maxsize ≤ q.qsize

instance (q : AsyncQueue α) : Decidable q.full :=
  inferInstanceAs (Decidable (_ ∧ _))

/-- `put_nowait`; `none` is the `QueueFull` exception. -/
def putNowait (q : AsyncQueue α) (a : α) : Option (AsyncQueue α) :=
  if h : q.full then none
  else some
    { maxsize := q.maxsize
      items := q.items ++ [a]
      bounded := fun hpos => by
        simp only [full, qsize, not_and, not_le] at h
        have hlt := h hpos
        simp only [List.length_append, List.length_singleton]
        omega }

/-- `get_nowait`; `none` is the `QueueEmpty` exception. -/
def getNowait (q : AsyncQueue α) : Option (α × AsyncQueue α) :=
  match h : q.items with
  | [] => none
  | a :: rest => some (a,
      { maxsize := q.maxsize
        items := rest
        bounded := fun hpos => by
          have hb := q.bounded hpos
          simp only [h, List.length_cons] at hb
          omega })

@[simp] theorem new_items (n : Int) : (new n : AsyncQueue α).items = [] := rfl

theorem putNowait_eq_none_iff (q : AsyncQueue α) (a : α) : q.putNowait a = none ↔ q.full := by
  simp [putNowait]

/-- A successful put appends its item and changes nothing else. -/
theorem putNowait_eq_some_iff (q r : AsyncQueue α) (a : α) :
    q.putNowait a = some r ↔
      ¬ q.full ∧ r.maxsize = q.maxsize ∧ r.items = q.items ++ [a] := by
  unfold putNowait
  split
  case isTrue h => simp [h]
  case isFalse h =>
    simp only [Option.some.injEq, h, not_false_eq_true, true_and]
    constructor
    · rintro rfl
      exact ⟨rfl, rfl⟩
    · rintro ⟨hm, hi⟩
      exact AsyncQueue.ext hm.symm hi.symm

theorem putNowait_maxsize {q r : AsyncQueue α} {a : α} (h : q.putNowait a = some r) :
    r.maxsize = q.maxsize :=
  ((putNowait_eq_some_iff q r a).mp h).2.1

theorem getNowait_eq_none_iff (q : AsyncQueue α) : q.getNowait = none ↔ q.items = [] := by
  unfold getNowait
  split <;> simp_all

/-- A successful get removes the oldest item and changes nothing else. -/
theorem getNowait_eq_some_iff (q r : AsyncQueue α) (a : α) :
    q.getNowait = some (a, r) ↔ q.items = a :: r.items ∧ r.maxsize = q.maxsize := by
  unfold getNowait
  split
  case h_1 h => simp [h]
  case h_2 b rest h =>
    simp only [Option.some.injEq, Prod.mk.injEq, h, List.cons.injEq]
    constructor
    · rintro ⟨rfl, rfl⟩
      exact ⟨⟨rfl, rfl⟩, rfl⟩
    · rintro ⟨⟨rfl, hr⟩, hm⟩
      exact ⟨rfl, AsyncQueue.ext hm.symm hr⟩

theorem getNowait_of_items {q : AsyncQueue α} {a : α} {rest : List α} (h : q.items = a :: rest) :
    ∃ r, q.getNowait = some (a, r) ∧ r.items = rest := by
  cases hg : q.getNowait with
  | none => simp [(getNowait_eq_none_iff q).mp hg] at h
  | some got =>
      have hi := ((getNowait_eq_some_iff q got.2 got.1).mp hg).1
      simp only [h, List.cons.injEq] at hi
      exact ⟨got.2, by rw [hi.1], hi.2.symm⟩

end AsyncQueue

/-- `collections.deque`: `maxlen` is `none` for an unbounded one. -/
@[ext] structure Deque (α : Type*) where
  maxlen : Option Nat
  items : List α
  bounded : ∀ n, maxlen = some n → items.length ≤ n

namespace Deque

variable {α : Type*}

/-- `deque(maxlen=maxlen)`. -/
def new (maxlen : Option Nat) : Deque α where
  maxlen := maxlen
  items := []
  bounded := fun _ _ => Nat.zero_le _

/-- The length bound is reached. -/
def atMaxlen (d : Deque α) : Prop := d.maxlen = some d.items.length

instance (d : Deque α) : Decidable d.atMaxlen :=
  inferInstanceAs (Decidable (_ = _))

/-- `append`: at the bound the head of the extended deque is discarded. -/
def append (d : Deque α) (a : α) : Deque α where
  maxlen := d.maxlen
  items := if d.atMaxlen then (d.items ++ [a]).tail else d.items ++ [a]
  bounded := by
    intro n hn
    have hb := d.bounded n hn
    split
    case isTrue => simpa using hb
    case isFalse h =>
      have hne : d.items.length ≠ n := fun he => h (hn.trans (congrArg some he.symm))
      simp only [List.length_append, List.length_singleton]
      omega

/-- The item `append` discards. -/
def displaced (d : Deque α) (a : α) : Option α :=
  if d.atMaxlen then (d.items ++ [a]).head? else none

/-- `popleft`; `none` when the deque is empty. -/
def popleft (d : Deque α) : Option (α × Deque α) :=
  match h : d.items with
  | [] => none
  | a :: rest => some (a,
      { maxlen := d.maxlen
        items := rest
        bounded := fun n hn => by
          have hb := d.bounded n hn
          simp only [h, List.length_cons] at hb
          omega })

@[simp] theorem new_items (n : Option Nat) : (new n : Deque α).items = [] := rfl

theorem append_items (d : Deque α) (a : α) :
    (d.append a).items = if d.atMaxlen then (d.items ++ [a]).tail else d.items ++ [a] := rfl

/-- An append loses no item but the one it discards. -/
theorem displaced_append (d : Deque α) (a : α) :
    (d.displaced a).toList ++ (d.append a).items = d.items ++ [a] := by
  rw [displaced, append_items]
  split
  · cases d.items <;> rfl
  · rfl

theorem popleft_eq_none_iff (d : Deque α) : d.popleft = none ↔ d.items = [] := by
  unfold popleft
  split <;> simp_all

/-- A successful `popleft` removes the oldest item and changes nothing else. -/
theorem popleft_eq_some_iff (d e : Deque α) (a : α) :
    d.popleft = some (a, e) ↔ d.items = a :: e.items ∧ e.maxlen = d.maxlen := by
  unfold popleft
  split
  case h_1 h => simp [h]
  case h_2 b rest h =>
    simp only [Option.some.injEq, Prod.mk.injEq, h, List.cons.injEq]
    constructor
    · rintro ⟨rfl, rfl⟩
      exact ⟨⟨rfl, rfl⟩, rfl⟩
    · rintro ⟨⟨rfl, he⟩, hm⟩
      exact ⟨rfl, Deque.ext hm.symm he⟩

end Deque
