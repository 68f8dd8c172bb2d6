import WebSocketPatterns.Backpressure.DrainReference

/-!
# One drain after the other

A batch size bounds what one call of `drain` sends, and a send that fails ends
the call at once with its message lost. How many calls empty a queue depends
on both: a call without a failure takes a whole batch, and one with a failure
takes at least the message that failed.
-/

namespace WebSocketPatterns.Backpressure

variable {α : Type*}

/-- A call `drain(send_fn, batch_size)`, with the outcome of each of its sends. -/
structure DrainCall (α : Type*) where
  send : α → Nat → Bool
  batchSize : Int

namespace DrainResult

/-- The sends that raised. -/
def failures (r : DrainResult α) : Nat := r.calls.length - r.returned

/-- The next call's result added to that of the calls before it. -/
def followedBy (r next : DrainResult α) : DrainResult α where
  queue := next.queue
  returned := r.returned + next.returned
  calls := r.calls ++ next.calls

/-- The books of one or more drains: each message handed over was queued, the oldest first and
each once, and each send is counted as a success or as a failure, and nothing else is. -/
structure Accounts (q : SendQueue α) (r : DrainResult α) : Prop where
  handed : r.calls ++ r.queue.content = q.content
  returned_le : r.returned ≤ r.calls.length
  stats : r.queue.stats =
    { q.stats with
      messagesSent := q.stats.messagesSent + r.returned
      sendErrors := q.stats.sendErrors + r.failures }

theorem failures_followedBy {q : SendQueue α} {r next : DrainResult α} (hr : Accounts q r)
    (hnext : Accounts r.queue next) :
    (r.followedBy next).failures = r.failures + next.failures := by
  have hle := hr.returned_le
  have hnextLe := hnext.returned_le
  simp only [failures, followedBy, List.length_append]
  omega

theorem Accounts.followedBy {q : SendQueue α} {r next : DrainResult α} (hr : Accounts q r)
    (hnext : Accounts r.queue next) : Accounts q (r.followedBy next) where
  handed := by
    calc
      (r.calls ++ next.calls) ++ next.queue.content = r.calls ++ r.queue.content := by
        rw [List.append_assoc, hnext.handed]
      _ = q.content := hr.handed
  returned_le := by
    rw [DrainResult.followedBy, List.length_append]
    exact Nat.add_le_add hr.returned_le hnext.returned_le
  stats := by
    rw [failures_followedBy hr hnext]
    change next.queue.stats = _
    rw [hnext.stats, hr.stats]
    simp only [DrainResult.followedBy, Nat.add_assoc]

/-- Where a whole batch was handed over, the messages behind it are left. -/
theorem Accounts.content_of_calls {q : SendQueue α} {r : DrainResult α} (hr : Accounts q r)
    {n : Nat} (h : r.calls = q.content.take n) : r.queue.content = q.content.drop n := by
  have hsplit := hr.handed
  rw [h] at hsplit
  exact List.append_cancel_left (hsplit.trans (List.take_append_drop n q.content).symm)

/-- The calls handed over a batch for each of them without a failure, and one message for each
of the others. -/
structure Covers (r : DrainResult α) (calls batch : Nat) : Prop where
  failures_le : r.failures ≤ calls
  covered : (calls - r.failures) * batch + r.failures ≤ r.calls.length

theorem Covers.followedBy {q : SendQueue α} {r next : DrainResult α} {calls batch : Nat}
    (hr : Accounts q r) (hnext : Accounts r.queue next) (hcovers : next.Covers calls batch)
    (hkind : r.failures = 0 ∧ batch ≤ r.calls.length ∨ r.failures = 1) :
    (r.followedBy next).Covers (calls + 1) batch := by
  obtain ⟨hle, hcovered⟩ := hcovers
  have hfailures := failures_followedBy hr hnext
  have hlength : (r.followedBy next).calls.length = r.calls.length + next.calls.length :=
    List.length_append
  rcases hkind with ⟨hnone, hbatch⟩ | hone
  · rw [hnone, Nat.zero_add] at hfailures
    refine ⟨by omega, ?_⟩
    rw [hfailures, hlength]
    calc
      (calls + 1 - next.failures) * batch + next.failures =
          batch + ((calls - next.failures) * batch + next.failures) := by
        rw [Nat.sub_add_comm hle, Nat.add_mul, Nat.one_mul]
        omega
      _ ≤ r.calls.length + next.calls.length := Nat.add_le_add hbatch hcovered
  · rw [hone] at hfailures
    have htaken : 1 ≤ r.calls.length := by
      rw [failures] at hone
      omega
    refine ⟨by omega, ?_⟩
    rw [hfailures, hlength]
    calc
      (calls + 1 - (1 + next.failures)) * batch + (1 + next.failures) =
          1 + ((calls - next.failures) * batch + next.failures) := by
        rw [Nat.add_comm calls 1, Nat.add_sub_add_left]
        omega
      _ ≤ r.calls.length + next.calls.length := Nat.add_le_add htaken hcovered

end DrainResult

namespace SendQueue

/-- The books of one drain, from what it does according to the reference. -/
theorem Follows.accounts {q : SendQueue α} {remaining k : Nat} {r : DrainResult α}
    (h : q.Follows (q.content.take remaining) k 0 [] r)
    (hk : k ≤ (q.content.take remaining).length) :
    r.Accounts q ∧
      (r.failures = 0 ∧ r.calls = q.content.take remaining ∨ r.failures = 1) := by
  have hcalls : r.calls = (q.content.take remaining).take (k + 1) := h.called
  have hreturned : r.returned = k := h.returned.trans (Nat.zero_add k)
  have hlength : r.calls.length = min (k + 1) (q.content.take remaining).length := by
    rw [hcalls, List.length_take]
  have hfailures : r.failures = if k = (q.content.take remaining).length then 0 else 1 := by
    rw [DrainResult.failures, hlength, hreturned]
    split <;> omega
  have hprefix : r.calls <+: q.content := by
    rw [hcalls]
    exact (List.take_prefix _ _).trans (List.take_prefix _ _)
  refine ⟨⟨?_, ?_, ?_⟩, ?_⟩
  · rw [h.content, ← hcalls]
    nth_rewrite 1 [List.prefix_iff_eq_take.mp hprefix]
    exact List.take_append_drop _ _
  · omega
  · rw [h.stats, hreturned, hfailures]
  · by_cases hall : k = (q.content.take remaining).length
    · left
      refine ⟨hfailures.trans (if_pos hall), ?_⟩
      rw [hcalls]
      exact List.take_of_length_le (by omega)
    · exact Or.inr (hfailures.trans (if_neg hall))

theorem drainAlone_accounts (q : SendQueue α) (send : α → Nat → Bool) (batchSize : Int) :
    (q.drainAlone send batchSize).Accounts q ∧
      ((q.drainAlone send batchSize).failures = 0 ∧
          (q.drainAlone send batchSize).calls = q.content.take batchSize.toNat ∨
        (q.drainAlone send batchSize).failures = 1) := by
  have hfollows := drainLoop_follows send batchSize.toNat q 0 []
  exact hfollows.accounts (leadingSends_le _ _ _)

/-- The listed calls of `drain`, each made when the one before it has returned. -/
def drainEach (q : SendQueue α) : List (DrainCall α) → DrainResult α
  | [] => ⟨q, 0, []⟩
  | call :: rest =>
      let first := q.drainAlone call.send call.batchSize
      first.followedBy (first.queue.drainEach rest)

theorem drainEach_accounts (drains : List (DrainCall α)) :
    ∀ q : SendQueue α, (q.drainEach drains).Accounts q := by
  induction drains with
  | nil =>
      intro q
      exact ⟨rfl, le_rfl, rfl⟩
  | cons call rest ih =>
      intro q
      exact (q.drainAlone_accounts call.send call.batchSize).1.followedBy (ih _)

/-- While a message is left, every call without a failure has taken a whole batch. -/
theorem drainEach_covers {batch : Nat} (drains : List (DrainCall α)) :
    ∀ q : SendQueue α, (∀ call ∈ drains, (batch : Int) ≤ call.batchSize) →
      (q.drainEach drains).queue.content ≠ [] →
        (q.drainEach drains).Covers drains.length batch := by
  induction drains with
  | nil =>
      intro q _ _
      exact ⟨le_rfl, by simp [drainEach, DrainResult.failures]⟩
  | cons call rest ih =>
      intro q hbatch hleft
      obtain ⟨hfirst, hkind⟩ := q.drainAlone_accounts call.send call.batchSize
      have hothers := drainEach_accounts rest (q.drainAlone call.send call.batchSize).queue
      have hcovers := ih _ (fun other hmem => hbatch other (List.mem_cons_of_mem _ hmem)) hleft
      apply hcovers.followedBy hfirst hothers
      rcases hkind with ⟨hnone, hwhole⟩ | hone
      · left
        refine ⟨hnone, ?_⟩
        -- what is left at the end was left by the first call too
        have hmore : q.content.drop call.batchSize.toNat ≠ [] := by
          rw [← hfirst.content_of_calls hwhole, ← hothers.handed]
          exact List.append_ne_nil_of_right_ne_nil _ hleft
        have hbound := hbatch call List.mem_cons_self
        have hpos := List.length_pos_iff.mpr hmore
        rw [List.length_drop] at hpos
        rw [hwhole, List.length_take]
        omega
      · exact Or.inr hone

/-- Without a failure the calls take as much as one call with all their batches. -/
theorem calls_of_failures_eq_zero (drains : List (DrainCall α)) :
    ∀ q : SendQueue α, (q.drainEach drains).failures = 0 →
      (q.drainEach drains).calls =
        q.content.take (drains.map fun call => call.batchSize.toNat).sum := by
  induction drains with
  | nil =>
      intro q _
      rfl
  | cons call rest ih =>
      intro q hnone
      obtain ⟨hfirst, hkind⟩ := q.drainAlone_accounts call.send call.batchSize
      have hothers := drainEach_accounts rest (q.drainAlone call.send call.batchSize).queue
      have hsum := hnone
      rw [drainEach, DrainResult.failures_followedBy hfirst hothers] at hsum
      obtain ⟨hzero, hrest⟩ := Nat.add_eq_zero_iff.mp hsum
      rcases hkind with ⟨_, hwhole⟩ | hone
      · rw [drainEach, DrainResult.followedBy, List.map_cons, List.sum_cons, List.take_add]
        dsimp only
        rw [ih _ hrest, hwhole, hfirst.content_of_calls hwhole]
      · exact absurd (hone.symm.trans hzero) (by decide)

/-- A queue of five messages. -/
def fiveQueued : SendQueue Nat :=
  [1, 2, 3, 4, 5].foldl (fun q message => (q.enqueue message).queue) (new "c" 8 .disconnect)

/-- Three calls with batches of two; the first send of all fails. -/
def failFirst : List (DrainCall Nat) :=
  [⟨fun message _ => message ≠ 1, 2⟩, ⟨fun message _ => message ≠ 1, 2⟩,
    ⟨fun message _ => message ≠ 1, 2⟩]

end SendQueue

end WebSocketPatterns.Backpressure
