import WebSocketPatterns.Backpressure.QueueRuns

/-!
# A drain that runs alone

When no other call touches the queue, `drain` is one loop over pop and send.
The reference says what it does in terms of the queued messages and of the
number of leading sends that succeed; the loop is also what the system of
interleaved calls does when the sends of one drain end one after the other.
-/

namespace WebSocketPatterns.Backpressure

open Transition

variable {α : Type*}

/-- What one call of `drain` did: the queue it left, the number it returned, and the messages
it called `send_fn` on. -/
structure DrainResult (α : Type*) where
  queue : SendQueue α
  returned : Nat
  calls : List α

namespace SendQueue

/-- The loop of `drain`; `send` says of the message and of the number of calls before it
whether `send_fn` returns or raises. -/
def drainLoop (send : α → Nat → Bool) : Nat → SendQueue α → Nat → List α → DrainResult α
  | 0, q, sent, calls => ⟨q, sent, calls⟩
  | remaining + 1, q, sent, calls =>
      match q.pop with
      | none => ⟨q, sent, calls⟩
      | some (message, popped) =>
          if send message calls.length then
            drainLoop send remaining
              { popped with stats.messagesSent := popped.stats.messagesSent + 1 } (sent + 1)
              (calls ++ [message])
          else
            ⟨{ popped with stats.sendErrors := popped.stats.sendErrors + 1 }, sent,
              calls ++ [message]⟩

/-- `drain(send_fn, batch_size)` from its call to its return. -/
def drainAlone (q : SendQueue α) (send : α → Nat → Bool) (batchSize : Int) : DrainResult α :=
  q.drainLoop send batchSize.toNat 0 []

/-- The number of leading messages whose sends succeed, the first one being call `index`. -/
def leadingSends (send : α → Nat → Bool) (messages : List α) (index : Nat) : Nat :=
  ((messages.zipIdx index).takeWhile fun call => send call.1 call.2).length

theorem leadingSends_cons (send : α → Nat → Bool) (message : α) (messages : List α)
    (index : Nat) :
    leadingSends send (message :: messages) index =
      if send message index then leadingSends send messages (index + 1) + 1 else 0 := by
  rw [leadingSends, List.zipIdx_cons, List.takeWhile_cons]
  split <;> rfl

theorem leadingSends_le (send : α → Nat → Bool) (messages : List α) (index : Nat) :
    leadingSends send messages index ≤ messages.length := by
  have hprefix : (messages.zipIdx index).takeWhile (fun call => send call.1 call.2) <+:
      messages.zipIdx index := List.takeWhile_prefix _
  simpa [leadingSends] using hprefix.length_le

/-- Only an empty queue has nothing to pop. -/
theorem content_of_pop_none {q : SendQueue α} (h : q.pop = none) : q.content = [] := by
  unfold pop at h
  split at h
  case h_1 a ha =>
    split at h
    case h_1 hg =>
      rw [content_of_some ha]
      exact (AsyncQueue.getNowait_eq_none_iff a).mp hg
    case h_2 => simp at h
  case h_2 ha =>
    split at h
    case h_1 hp =>
      rw [content_of_none ha]
      exact (Deque.popleft_eq_none_iff q.queue).mp hp
    case h_2 => simp at h

/-- What a drain does according to the reference, from `sent` sends counted and the listed
calls made on: `k` sends of the batch succeed, and the one after them, if there is one, fails. -/
structure Follows (q : SendQueue α) (batch : List α) (k sent : Nat) (calls : List α)
    (result : DrainResult α) : Prop where
  returned : result.returned = sent + k
  called : result.calls = calls ++ batch.take (k + 1)
  content : result.queue.content = q.content.drop (batch.take (k + 1)).length
  stats : result.queue.stats =
    { q.stats with
      messagesSent := q.stats.messagesSent + k
      sendErrors := q.stats.sendErrors + if k = batch.length then 0 else 1 }
  strategy : result.queue.strategy = q.strategy
  maxSize : result.queue.maxSize = q.maxSize

/-- A loop without an iteration left, or on an empty queue, does nothing. -/
theorem follows_nil (q : SendQueue α) (sent : Nat) (calls : List α) :
    q.Follows [] 0 sent calls ⟨q, sent, calls⟩ :=
  ⟨rfl, (List.append_nil calls).symm, rfl, rfl, rfl, rfl⟩

/-- The send of the first message fails: the loop ends. -/
theorem follows_raised {q popped : SendQueue α} {message : α}
    (h : q.pop = some (message, popped)) (batch : List α) (sent : Nat) (calls : List α) :
    q.Follows (message :: batch) 0 sent calls
      ⟨{ popped with stats.sendErrors := popped.stats.sendErrors + 1 }, sent,
        calls ++ [message]⟩ := by
  obtain ⟨hcontent, hstrategy, hmax, hstats⟩ := pop_eq_some h
  refine ⟨rfl, rfl, ?_, ?_, hstrategy, hmax⟩
  · rw [hcontent]
    rfl
  · simp only [hstats]
    rfl

/-- The send of the first message succeeds: the loop goes on with the rest. -/
theorem Follows.sent {q popped : SendQueue α} {message : α}
    (h : q.pop = some (message, popped)) {batch : List α} {k sent : Nat} {calls : List α}
    {result : DrainResult α}
    (rest : Follows { popped with stats.messagesSent := popped.stats.messagesSent + 1 } batch k
      (sent + 1) (calls ++ [message]) result) :
    q.Follows (message :: batch) (k + 1) sent calls result := by
  obtain ⟨hcontent, hstrategy, hmax, hstats⟩ := pop_eq_some h
  refine ⟨?_, ?_, ?_, ?_, rest.strategy.trans hstrategy, rest.maxSize.trans hmax⟩
  · rw [rest.returned]
    omega
  · rw [rest.called, List.append_assoc]
    rfl
  · rw [rest.content, hcontent]
    rfl
  · rw [rest.stats]
    simp only [hstats, List.length_cons, Nat.add_right_cancel_iff, Nat.add_assoc,
      Nat.add_comm 1 k]

/-- The loop follows the reference on the messages its iterations reach. -/
theorem drainLoop_follows (send : α → Nat → Bool) (remaining : Nat) :
    ∀ (q : SendQueue α) (sent : Nat) (calls : List α),
      q.Follows (q.content.take remaining)
        (leadingSends send (q.content.take remaining) calls.length) sent calls
        (drainLoop send remaining q sent calls) := by
  induction remaining with
  | zero =>
      intro q sent calls
      exact follows_nil q sent calls
  | succ remaining ih =>
      intro q sent calls
      cases hp : q.pop with
      | none =>
          rw [content_of_pop_none hp, drainLoop, hp]
          exact follows_nil q sent calls
      | some got =>
          obtain ⟨message, popped⟩ := got
          obtain ⟨hcontent, _⟩ := pop_eq_some hp
          rw [hcontent, List.take_succ_cons, leadingSends_cons, drainLoop, hp]
          dsimp only
          split
          · have hrest := ih
              { popped with stats.messagesSent := popped.stats.messagesSent + 1 } (sent + 1)
              (calls ++ [message])
            rw [List.length_append, List.length_singleton] at hrest
            exact hrest.sent hp
          · exact follows_raised hp _ sent calls

/-- A drain that runs alone, for every queue, batch size and outcome of the sends: with `k` the
number of leading successes among the first `min(batch_size, d)` sends, it calls `send_fn` on
the queued messages in order up to the first failure, returns `k` and counts `k` sends; without
a failure exactly the `k` messages sent are gone, with one exactly the failed message is gone
besides them and one error is counted; and no other counter and no setting changes. -/
theorem drain_follows_reference (q : SendQueue α) (send : α → Nat → Bool) (batchSize : Int) :
    let batch := q.content.take batchSize.toNat
    let k := leadingSends send batch 0
    let result := q.drainAlone send batchSize
    batch.length = min batchSize.toNat q.depth ∧
    result.returned = k ∧
    result.queue.stats.messagesSent = q.stats.messagesSent + k ∧
    (k = batch.length → result.calls = q.content.take k ∧
      result.queue.content = q.content.drop k ∧
      result.queue.stats.sendErrors = q.stats.sendErrors) ∧
    (k ≠ batch.length → k < batch.length ∧ result.calls = q.content.take (k + 1) ∧
      result.queue.content = q.content.drop (k + 1) ∧
      result.queue.stats.sendErrors = q.stats.sendErrors + 1) ∧
    result.queue.stats.messagesQueued = q.stats.messagesQueued ∧
    result.queue.stats.messagesDropped = q.stats.messagesDropped ∧
    result.queue.stats.highWaterMark = q.stats.highWaterMark ∧
    result.queue.strategy = q.strategy ∧ result.queue.maxSize = q.maxSize := by
  intro batch k result
  have hfollows : q.Follows batch k 0 [] result := drainLoop_follows send batchSize.toNat q 0 []
  have hlen : batch.length = min batchSize.toNat q.depth := by
    rw [depth_eq]
    exact List.length_take
  have hle : k ≤ batch.length := leadingSends_le send batch 0
  have hbatch : batch = q.content.take batch.length :=
    List.prefix_iff_eq_take.mp (List.take_prefix _ _)
  refine ⟨hlen, hfollows.returned.trans (Nat.zero_add k), by rw [hfollows.stats], ?_, ?_,
    by rw [hfollows.stats], by rw [hfollows.stats], by rw [hfollows.stats], hfollows.strategy,
    hfollows.maxSize⟩
  · intro hall
    have htake : batch.take (k + 1) = q.content.take k := by
      rw [List.take_of_length_le (by omega), hall]
      exact hbatch
    refine ⟨?_, ?_, ?_⟩
    · rw [hfollows.called, htake, List.nil_append]
    · rw [hfollows.content, List.take_of_length_le (by omega), ← hall]
    · rw [hfollows.stats]
      simp only [if_pos hall, Nat.add_zero]
  · intro hfailed
    have hlt : k < batch.length := lt_of_le_of_ne hle hfailed
    have htake : batch.take (k + 1) = q.content.take (k + 1) := by
      rw [hbatch, List.take_take, Nat.min_eq_left hlt]
    refine ⟨hlt, ?_, ?_, ?_⟩
    · rw [hfollows.called, htake, List.nil_append]
    · rw [hfollows.content, List.length_take, Nat.min_eq_left hlt]
    · rw [hfollows.stats]
      simp only [if_neg hfailed]

end SendQueue

namespace SendSystem

/-- How the send of one call ends, for the drain suspended at the given position. -/
def reply (send : α → Nat → Bool) (position : Nat) (call : α × Nat) : SendAction α :=
  if send call.1 call.2 then .sendReturned position else .sendRaised position

/-- The system after a drain that ran alone. -/
def drained (σ : SendSystem α) (queue : SendQueue α) (calls : List α) (returned : Nat) :
    SendSystem α :=
  { σ with
    queue := queue
    departed := σ.departed ++ calls.map Departure.taken
    returnedSends := σ.returnedSends + returned }

/-- The send of the last suspended drain ends: that drain goes on. -/
theorem step_reply (σ : SendSystem α) (popped : SendQueue α) (d : Drain α) :
    let suspended := σ.advance σ.drains (popped, .sending d)
    let σ' : SendSystem α := { σ with departed := σ.departed ++ [.taken d.message] }
    suspended.step (.sendReturned σ.drains.length) =
        some (σ'.advance σ.drains (popped.sendReturned d)) ∧
      suspended.step (.sendRaised σ.drains.length) =
        some (σ'.advance σ.drains (popped.sendRaised d)) := by
  intro suspended σ'
  have hat : suspended.drains[σ.drains.length]? = some d := List.getElem?_concat_length
  have herase : suspended.drains.eraseIdx σ.drains.length = σ.drains := by
    simp [suspended, advance, List.eraseIdx_append_of_length_le]
  -- running a drain replaces the queue and the suspended drains
  have hbase : ∀ result, suspended.advance σ.drains result = σ'.advance σ.drains result := by
    intro result
    rw [advance, advance]
    split <;> rfl
  constructor
  · rw [step, hat, Option.map_some, herase, hbase]
    rfl
  · rw [step, hat, Option.map_some, herase, hbase]
    rfl

theorem advance_returned (σ : SendSystem α) (queue : SendQueue α) (sent : Nat) :
    σ.advance σ.drains (queue, .returned sent) = σ.drained queue [] sent := by
  simp [advance, drained]

/-- In a system in which nothing but the sends of one drain ends, the drain is its loop. -/
theorem exec_drainLoop (send : α → Nat → Bool) (remaining : Nat) :
    ∀ (σ : SendSystem α) (q : SendQueue α) (sent : Nat) (calls : List α),
      let result := SendQueue.drainLoop send remaining q sent calls
      ∃ made, result.calls = calls ++ made ∧
        exec step (σ.advance σ.drains (q.drainNext remaining sent))
            ((made.zipIdx calls.length).map (reply send σ.drains.length)) =
          some (σ.drained result.queue made result.returned) := by
  induction remaining with
  | zero =>
      intro σ q sent calls
      refine ⟨[], (List.append_nil calls).symm, ?_⟩
      simp [SendQueue.drainNext, SendQueue.drainLoop, exec, advance_returned]
  | succ remaining ih =>
      intro σ q sent calls
      cases hp : q.pop with
      | none =>
          refine ⟨[], by simp [SendQueue.drainLoop, hp], ?_⟩
          simp [SendQueue.drainNext, SendQueue.drainLoop, hp, exec, advance_returned]
      | some got =>
          obtain ⟨message, popped⟩ := got
          by_cases hsend : send message calls.length = true
          · obtain ⟨made, hcalls, hexec⟩ := ih
              { σ with departed := σ.departed ++ [.taken message] }
              { popped with stats.messagesSent := popped.stats.messagesSent + 1 } (sent + 1)
              (calls ++ [message])
            refine ⟨message :: made, ?_, ?_⟩
            · simpa [SendQueue.drainLoop, hp, hsend] using hcalls
            · have hstep := (step_reply σ popped ⟨message, remaining, sent⟩).1
              rw [SendQueue.sendReturned] at hstep
              rw [List.zipIdx_cons, List.map_cons, reply, if_pos hsend, SendQueue.drainNext, hp]
              dsimp only
              rw [exec, hstep, Option.bind_some]
              rw [List.length_append, List.length_singleton] at hexec
              refine hexec.trans ?_
              simp [drained, SendQueue.drainLoop, hp, hsend]
          · refine ⟨[message], by simp [SendQueue.drainLoop, hp, hsend], ?_⟩
            have hstep := (step_reply σ popped ⟨message, remaining, sent⟩).2
            simp only [SendQueue.drainNext, SendQueue.drainLoop, hp, hsend, List.zipIdx_singleton,
              List.map_singleton, reply, exec, if_false, Bool.false_eq_true, hstep,
              Option.bind_some]
            simp [SendQueue.sendRaised, advance, drained]

/-- A drain call followed by the ends of its own sends is a drain that runs alone, whatever
other calls are suspended meanwhile. -/
theorem exec_drainAlone (σ : SendSystem α) (send : α → Nat → Bool) (batchSize : Int) :
    let result := σ.queue.drainAlone send batchSize
    exec step σ (.drain batchSize ::
        result.calls.zipIdx.map (reply send σ.drains.length)) =
      some (σ.drained result.queue result.calls result.returned) := by
  intro result
  obtain ⟨made, hcalls, hexec⟩ := exec_drainLoop send batchSize.toNat σ σ.queue 0 []
  obtain rfl : made = result.calls := hcalls.symm
  exact hexec

end SendSystem

end WebSocketPatterns.Backpressure
