import WebSocketPatterns.PubSub.Delivery
import Mathlib.Algebra.BigOperators.Group.Finset.Basic

/-!
# What publishes report and what consumers get

Each `publish` returns how many subscribers received its message. Over a run
these numbers add up to what the consumers of all subscribers that ever were
have yielded and what is still buffered for them, whoever unsubscribed, lagged
or never read. A consumer that has ended leaves nothing behind.
-/

namespace WebSocketPatterns.PubSub.BusState

open Transition

variable {P : Type*}

/-- The number that a publish returns, and zero for every other action. -/
def returned (σ : BusState P) : BusAction P → Nat
  | .publish channel payload publisherId skipLagging now =>
      (σ.bus.publish channel payload publisherId skipLagging now).2
  | _ => 0

/-- The sum of what the publishes of a run returned. -/
def totalReturned (acts : List (BusAction P)) : Nat :=
  ((trace step start acts).map fun visit => visit.1.returned visit.2).sum

/-- What a subscriber has got: yielded by its consumer, or buffered for it. -/
def got (σ : BusState P) (r : Nat) : Nat := (σ.yielded r).length + (σ.buffered r).length

/-- What all subscribers have got. -/
def totalGot (σ : BusState P) : Nat := ∑ r ∈ Finset.range σ.subscribers.length, σ.got r

theorem countP_range (p : Nat → Bool) (n : Nat) :
    (List.range n).countP p = ∑ r ∈ Finset.range n, if p r then 1 else 0 := by
  induction n with
  | zero => rfl
  | succ n ih =>
      rw [List.range_succ, List.countP_append, ih, Finset.sum_range_succ, List.countP_singleton]

section Steps

variable {σ τ : BusState P} (inv : σ.Inv)
include inv

/-- An action returns the number of subscribers that accept a message of it. -/
theorem Inv.returned_eq (a : BusAction P) :
    σ.returned a = ∑ r ∈ Finset.range σ.subscribers.length, (σ.accepted r a).toList.length := by
  cases a with
  | publish channel payload publisherId skipLagging now =>
      rw [returned, inv.publish_delivered, countP_range]
      apply Finset.sum_congr rfl
      intro r _
      cases σ.accepted r (.publish channel payload publisherId skipLagging now) <;> rfl
  | _ => simp [returned, accepted]

theorem Inv.step_got {a : BusAction P} (h : σ.step a = some τ) (r : Nat) :
    τ.got r = σ.got r + (σ.accepted r a).toList.length := by
  have hlength := congrArg List.length (inv.delivery_step h r)
  simpa only [List.length_append, got] using hlength

/-- A subscriber that was just created has got nothing. -/
theorem Inv.got_of_new {r : Nat} (h : σ.subscribers.length ≤ r) : σ.got r = 0 := by
  obtain ⟨_, hyielded, hitems⟩ := inv.known r h
  rw [got, hyielded, buffered, hitems]
  rfl

/-- An action adds to what all subscribers have got as many messages as it returns. -/
theorem Inv.step_totalGot {a : BusAction P} (h : σ.step a = some τ) :
    τ.totalGot = σ.totalGot + σ.returned a := by
  have hsame : ∑ r ∈ Finset.range σ.subscribers.length, τ.got r =
      σ.totalGot + σ.returned a := by
    calc
      ∑ r ∈ Finset.range σ.subscribers.length, τ.got r =
          ∑ r ∈ Finset.range σ.subscribers.length,
            (σ.got r + (σ.accepted r a).toList.length) :=
        Finset.sum_congr rfl fun r _ => inv.step_got h r
      _ = σ.totalGot + σ.returned a := by
        rw [Finset.sum_add_distrib, inv.returned_eq, totalGot]
  rcases inv.step_subscribers h with ⟨_, hsubs⟩ | ⟨_, _, _, rfl, hadded, _⟩
  · rw [totalGot, hsubs, hsame]
  · have hnew : τ.got σ.subscribers.length = 0 := by
      rw [inv.step_got h, inv.got_of_new le_rfl]
      rfl
    rw [totalGot, hadded, List.length_append, List.length_singleton, Finset.sum_range_succ, hsame,
      hnew, Nat.add_zero]

end Steps

theorem totalGot_of_run {acts : List (BusAction P)} {σ : BusState P}
    (run : Run step start acts σ) : σ.totalGot = totalReturned acts := by
  induction run with
  | nil => rfl
  | snoc run h ih =>
      rw [(inv_of_run run).step_totalGot h, ih, totalReturned, totalReturned, run.trace_snoc,
        List.map_append, List.sum_append]
      simp

/-- Over every run, the numbers that the publishes returned add up to what all subscribers have
got; and when the consumers of all subscribers have ended, to what they have yielded. -/
theorem publishes_accounted {acts : List (BusAction P)} {σ : BusState P}
    (run : Run step start acts σ) :
    totalReturned acts =
      ∑ r ∈ Finset.range σ.subscribers.length, ((σ.yielded r).length + (σ.buffered r).length) ∧
    ((∀ r, r < σ.subscribers.length → (σ.consumers r).ended = true) →
      totalReturned acts = ∑ r ∈ Finset.range σ.subscribers.length, (σ.yielded r).length) := by
  have htotal := totalGot_of_run run
  refine ⟨htotal.symm, ?_⟩
  intro hended
  rw [← htotal, totalGot]
  apply Finset.sum_congr rfl
  intro r hr
  have hdrained := (inv_of_run run).drained r (hended r (Finset.mem_range.mp hr))
  rw [got, hdrained]
  rfl

/-- Two subscribers of one channel, one of which is unsubscribed before it has read anything. -/
def leaveUnreadActs : List (BusAction Nat) :=
  [.subscribe "feed" "s1" 4, .subscribe "feed" "s2" 1, .publish "feed" 1 "" false 0,
    .publish "feed" 2 "" false 0, .unsubscribe 0, .publish "feed" 3 "" false 0, .consume 0,
    .consume 0, .consume 0, .consume 1, .closeChannel "feed", .consume 1]

theorem publishes_accounted_leave_unread :
    totalReturned leaveUnreadActs = 3 ∧
      ∃ σ, Run step start leaveUnreadActs σ ∧
        ∑ r ∈ Finset.range σ.subscribers.length, (σ.yielded r).length = 3 := by
  have run := run_get (show (exec step start leaveUnreadActs).isSome from by decide)
  have hreturned : totalReturned leaveUnreadActs = 3 := by decide
  refine ⟨hreturned, _, run, ?_⟩
  exact ((publishes_accounted run).2 (by decide)).symm.trans hreturned

end WebSocketPatterns.PubSub.BusState
