import WebSocketPatterns.Backpressure.DrainReference
import WebSocketPatterns.Benchmarks.Broadcast
import WebSocketPatterns.Transition.Progress
import Mathlib.Algebra.Order.BigOperators.Group.Finset

/-!
# Runs of the two broadcasts

A queue is empty between two broadcasts, so that a broadcast through the queues
finds room in each of them under every strategy, and the drain that follows finds
the one message. Both broadcasts therefore deliver the same, whatever the order
in which their coroutines run, and the queues drop nothing.
-/

namespace WebSocketPatterns.Backpressure

variable {α : Type*}

/-- What the counters say after so many calls of `enqueue` on an empty queue and so many sends.
The deque of DROP_OLDEST counts a call as a drop when it has just been filled. -/
structure SendStats.Tally (cfg : BackpressureConfig) (calls sends : Nat) (stats : SendStats) :
    Prop where
  sent : stats.messagesSent = sends
  errors : stats.sendErrors = 0
  counted : stats.messagesQueued + stats.messagesDropped = calls
  dropped : stats.messagesDropped =
    if cfg.strategy = .dropOldest ∧ cfg.maxQueueSize = 1 then calls else 0

namespace SendQueue

/-- A queue configured like this, with these messages, after so many calls and sends. -/
structure Holds (cfg : BackpressureConfig) (content : List α) (calls sends : Nat)
    (q : SendQueue α) : Prop where
  maxSize : q.maxSize = cfg.maxQueueSize
  strategy : q.strategy = cfg.strategy
  content : q.content = content
  tally : q.stats.Tally cfg calls sends

variable {cfg : BackpressureConfig} {q : SendQueue α} {calls sends : Nat}

theorem new_holds (cfg : BackpressureConfig) (connectionId : String) :
    (new connectionId cfg.maxQueueSize cfg.strategy : SendQueue α).Holds cfg [] 0 0 where
  maxSize := rfl
  strategy := rfl
  content := new_content connectionId cfg.maxQueueSize cfg.strategy
  tally := ⟨rfl, rfl, rfl, by simp [new]⟩

/-- An empty queue takes a message at once, under every strategy. -/
theorem enqueue_of_empty (hmax : 0 < q.maxSize) (hempty : q.content = []) (message : α) :
    (q.enqueue message).returned = some true ∧ (q.enqueue message).entered = true ∧
      (q.enqueue message).queue.stats.messagesQueued = q.stats.messagesQueued +
        (if q.strategy = .dropOldest ∧ q.maxSize = 1 then 0 else 1) ∧
      (q.enqueue message).queue.stats.messagesDropped = q.stats.messagesDropped +
        if q.strategy = .dropOldest ∧ q.maxSize = 1 then 1 else 0 := by
  have hroom : ∀ a, q.asyncQueue = some a → ¬ a.full := by
    intro a ha hfull
    rw [content_of_some ha] at hempty
    have hle : a.maxsize ≤ a.items.length := hfull.2
    rw [(maxsize_of_some ha).1, hempty] at hle
    simp at hle
    omega
  cases hs : q.strategy with
  | dropOldest =>
      have ha := (asyncQueue_eq_none_iff q).mpr (.inl hs)
      have hitems : q.queue.items = [] := (content_of_none ha).symm.trans hempty
      have happend : (q.markHighWater.queue.append message).items.length = 1 := by
        have hlen : ¬ q.queue.atMaxlen := by
          rw [Deque.atMaxlen, q.maxlen_eq, BackpressureStrategy.maxlen, if_pos hs, hitems]
          simpa using hmax.ne'
        change (q.queue.append message).items.length = 1
        rw [Deque.append_items, if_neg hlen, hitems]
        rfl
      simp only [enqueue, markHighWater_strategy, hs, true_and, happend]
      by_cases hone : q.maxSize = 1
      · rw [if_pos hone, if_pos hone, if_pos (show 1 = q.markHighWater.maxSize from hone.symm)]
        exact ⟨rfl, rfl⟩
      · rw [if_neg hone, if_neg hone, if_neg fun he : 1 = q.markHighWater.maxSize => hone he.symm]
        exact ⟨rfl, rfl⟩
  | dropNewest =>
      obtain ⟨a, ha⟩ := Option.ne_none_iff_exists'.mp
        ((asyncQueue_eq_none_iff q).not.mpr (by simp [hs]))
      simp only [enqueue, markHighWater_strategy, markHighWater_asyncQueue, hs, ha, Option.any_some,
        hroom a ha, decide_false, Bool.false_eq_true, reduceCtorEq, false_and, if_false]
      exact put_of_room (q := q.markHighWater) ha (hroom a ha) message
  | blockSender =>
      obtain ⟨a, ha⟩ := Option.ne_none_iff_exists'.mp (asyncQueue_ne_none hs)
      simp only [enqueue, markHighWater_strategy, hs, reduceCtorEq, false_and, if_false]
      exact put_of_room (q := q.markHighWater) ha (hroom a ha) message
  | disconnect =>
      have hfull : q.markHighWater.isFull = false := by
        rw [isFull, decide_eq_false_iff_not, depth_eq, not_le]
        change q.content.length < q.maxSize
        rw [hempty]
        exact hmax
      simp only [enqueue, markHighWater_strategy, hs, hfull]
      simp [markHighWater]

theorem Holds.enqueue (h : q.Holds cfg [] calls sends) (hmax : 0 < cfg.maxQueueSize)
    (message : α) :
    (q.enqueue message).returned = some true ∧
      (q.enqueue message).queue.Holds cfg [message] (calls + 1) sends := by
  have hpos : 0 < q.maxSize := h.maxSize ▸ hmax
  obtain ⟨hreturned, hentered, hqueued, hdropped⟩ := enqueue_of_empty hpos h.content message
  have frame := q.enqueue_frame message
  rw [h.strategy, h.maxSize] at hqueued hdropped
  have htally := h.tally
  refine ⟨hreturned, frame.maxSize.trans h.maxSize, frame.strategy.trans h.strategy, ?_, ?_⟩
  · cases q.enqueue_effect message with
    | kept entered _ _ => simp [hentered] at entered
    | added _ _ _ content =>
        rw [content, h.content]
        rfl
    | displaced _ _ _ _ full _ =>
        rw [h.content] at full
        exact absurd full.symm hpos.ne'
  · refine ⟨frame.messagesSent.trans htally.sent, frame.sendErrors.trans htally.errors, ?_, ?_⟩
    · rw [hqueued, hdropped, ← htally.counted]
      split <;> omega
    · rw [hdropped, htally.dropped]
      split <;> rfl

/-- A drain takes the only message and waits for its send. -/
theorem Holds.drain {message : α} (h : q.Holds cfg [message] calls sends) :
    ∃ r d, q.drain 10 = (r, .sending d) ∧ d.message = message ∧ r.Holds cfg [] calls sends := by
  cases hp : q.pop with
  | none => simpa [content_of_pop_none hp] using h.content
  | some popped =>
      obtain ⟨got, r⟩ := popped
      obtain ⟨hcontent, hstrategy, hmax, hstats⟩ := pop_eq_some hp
      obtain ⟨hgot, hrest⟩ := List.cons.inj (h.content.symm.trans hcontent)
      refine ⟨r, ⟨got, 9, 0⟩, ?_, hgot.symm, hmax.trans h.maxSize, hstrategy.trans h.strategy,
        hrest.symm, ?_⟩
      · change q.drainNext (9 + 1) 0 = _
        rw [drainNext, hp]
      · rw [hstats]
        exact h.tally

/-- The send has ended and the queue is empty: so does the drain. -/
theorem Holds.sendReturned (h : q.Holds cfg [] calls sends) (d : Drain α) :
    ∃ r n, q.sendReturned d = (r, .returned n) ∧ r.Holds cfg [] calls (sends + 1) := by
  let counted : SendQueue α := { q with stats.messagesSent := q.stats.messagesSent + 1 }
  have hempty : counted.pop = none := by
    rw [Option.eq_none_iff_forall_ne_some]
    rintro ⟨got, r⟩ hp
    obtain ⟨hcontent, -⟩ := pop_eq_some hp
    exact List.cons_ne_nil _ _ (hcontent.symm.trans h.content)
  have hsent : counted.Holds cfg [] calls (sends + 1) :=
    ⟨h.maxSize, h.strategy, h.content, congrArg (· + 1) h.tally.sent, h.tally.errors,
      h.tally.counted, h.tally.dropped⟩
  refine ⟨counted, d.sent + 1, ?_, hsent⟩
  change counted.drainNext d.remaining (d.sent + 1) = _
  cases d.remaining with
  | zero => rfl
  | succ remaining => rw [drainNext, hempty]

end SendQueue

end WebSocketPatterns.Backpressure

namespace WebSocketPatterns.Benchmarks

open Backpressure Transition

variable {α : Type*} {n : Nat}

section Clients

theorem clientId_injective {i j : Nat} (h : "client-" ++ toString i = "client-" ++ toString j) :
    i = j := by
  have htext : ∀ k : Nat, (toString k).toList = Nat.toDigits 10 k := fun k => String.toList_ofList
  have hdigits : Nat.toDigits 10 i = Nat.toDigits 10 j := by
    have h := congrArg String.toList h
    rw [String.toList_append, String.toList_append, htext, htext] at h
    exact List.append_cancel_left h
  calc i = Nat.ofDigitChars 10 (Nat.toDigits 10 i) 0 :=
        (Nat.ofDigitChars_toDigits (by decide) (by decide)).symm
    _ = Nat.ofDigitChars 10 (Nat.toDigits 10 j) 0 := by rw [hdigits]
    _ = j := Nat.ofDigitChars_toDigits (by decide) (by decide)

/-- The clients of the benchmark have ids of their own. -/
theorem nodup_benchmarkClients (n : Nat) :
    ((benchmarkClients α n).map ClientBuffer.clientId).Nodup := by
  rw [benchmarkClients, List.map_map]
  exact List.nodup_range.map fun _ _ h => clientId_injective h

end Clients

namespace RawBroadcast

/-- What was broadcast. -/
def payloads (acts : List (RawAction α)) : List α :=
  acts.filterMap fun
    | .broadcast payload => some payload
    | _ => none

theorem payloads_snoc (acts : List (RawAction α)) (a : RawAction α) :
    payloads (acts ++ [a]) = payloads acts ++ payloads [a] :=
  List.filterMap_append

/-- What the `gather` has yet to send to a client. -/
def owed : RawStage α → Nat → List α
  | .idle, _ => []
  | .sending payload tasks, i => if tasks i = .finished then [] else [payload]

/-- What holds between any two actions. -/
structure Inv (n : Nat) (history : List α) (σ : RawBroadcast α) : Prop where
  ids : σ.clients.map ClientBuffer.clientId = (benchmarkClients α n).map ClientBuffer.clientId
  served : ∀ i c, σ.clients[i]? = some c → c.received ++ owed σ.stage i = history

theorem start_inv (n : Nat) : (start n : RawBroadcast α).Inv n [] where
  ids := rfl
  served := by
    intro i c hi
    obtain ⟨j, -, rfl⟩ := List.mem_map.mp (List.mem_of_getElem? hi)
    rfl

theorem Inv.step {σ τ : RawBroadcast α} {acts : List (RawAction α)} {a : RawAction α}
    (inv : σ.Inv n (payloads acts)) (hstep : σ.step a = some τ) :
    τ.Inv n (payloads (acts ++ [a])) := by
  rw [payloads_snoc]
  cases a with
  | broadcast payload =>
      simp only [RawBroadcast.step] at hstep
      split at hstep
      · rename_i hidle
        obtain rfl := Option.some.inj hstep
        refine ⟨inv.ids, ?_⟩
        intro i c hi
        have hserved := inv.served i c hi
        rw [hidle, owed, List.append_nil] at hserved
        rw [hserved]
        rfl
      · simp at hstep
  | begin i =>
      simp only [RawBroadcast.step] at hstep
      split at hstep
      · simp at hstep
      · rename_i payload tasks hstage
        split at hstep
        · rename_i htodo
          obtain rfl := Option.some.inj hstep
          refine ⟨inv.ids, ?_⟩
          intro j c hj
          have hserved := inv.served j c hj
          rw [hstage] at hserved
          refine Eq.trans ?_ (hserved.trans (List.append_nil _).symm)
          simp only [owed]
          by_cases hji : j = i
          · subst j
            rw [Function.update_self, htodo.2]
            rfl
          · rw [Function.update_of_ne hji]
        · simp at hstep
  | send i =>
      simp only [RawBroadcast.step] at hstep
      split at hstep
      · simp at hstep
      · rename_i payload tasks hstage
        obtain ⟨c, hi, hstep⟩ := Option.bind_eq_some_iff.mp hstep
        split at hstep
        · rename_i hsleeping
          obtain rfl := Option.some.inj hstep
          have hids : (σ.clients.set i (c.send payload)).map ClientBuffer.clientId =
              σ.clients.map ClientBuffer.clientId := map_set_of_eq hi rfl
          refine ⟨hids.trans inv.ids, ?_⟩
          intro j c' hj
          rw [List.getElem?_set] at hj
          refine Eq.trans ?_ (List.append_nil _).symm
          split at hj
          · subst j
            have hserved := inv.served i c hi
            simp only [hstage, owed, hsleeping, reduceCtorEq, if_false] at hserved
            split at hj
            · rw [← Option.some.inj hj]
              simpa [owed, ClientBuffer.send] using hserved
            · simp at hj
          · rename_i hne
            have hserved := inv.served j c' hj
            rw [hstage] at hserved
            simpa only [owed, Function.update_of_ne (Ne.symm hne)] using hserved
        · simp at hstep
  | gathered =>
      simp only [RawBroadcast.step] at hstep
      split at hstep
      · simp at hstep
      · rename_i payload tasks hstage
        split at hstep
        · rename_i hall
          obtain rfl := Option.some.inj hstep
          refine ⟨inv.ids, ?_⟩
          intro i c hi
          have hfinished : tasks i = .finished := by
            have hlt := (List.getElem?_eq_some_iff.mp hi).1
            simpa using List.all_eq_true.mp hall i (List.mem_range.mpr hlt)
          have hserved := inv.served i c hi
          rw [hstage, owed, if_pos hfinished] at hserved
          exact hserved.trans (List.append_nil _).symm
        · simp at hstep

theorem inv_of_run {acts : List (RawAction α)} {σ : RawBroadcast α}
    (run : Run step (start n) acts σ) : σ.Inv n (payloads acts) :=
  run.invariant (I := fun acts σ => σ.Inv n (payloads acts)) (start_inv n)
    fun _ _ _ _ inv hstep => inv.step hstep

end RawBroadcast

namespace QueuedBroadcast

variable {cfg : BackpressureConfig} {history : List α} {σ τ : QueuedBroadcast α}

/-- What was broadcast. -/
def payloads (acts : List (QueuedAction α)) : List α :=
  acts.filterMap fun
    | .broadcast payload => some payload
    | _ => none

theorem payloads_snoc (acts : List (QueuedAction α)) (a : QueuedAction α) :
    payloads (acts ++ [a]) = payloads acts ++ payloads [a] :=
  List.filterMap_append

/-- Where a broadcast stands with one client and its queue. -/
inductive ClientAt (cfg : BackpressureConfig) (history : List α) (c : ClientBuffer α)
    (q : SendQueue α) (i : Nat) : QueuedStage α → Prop
  | idle (received : c.received = history)
      (queue : q.Holds cfg [] history.length history.length) : ClientAt cfg history c q i .idle
  | toEnqueue (payload : α) (tasks : Nat → QueueTask α) (task : tasks i = .todo)
      (received : c.received ++ [payload] = history)
      (queue : q.Holds cfg [] c.received.length c.received.length) :
      ClientAt cfg history c q i (.enqueuing payload tasks)
  | enqueued (payload : α) (tasks : Nat → QueueTask α) (task : tasks i = .finished)
      (received : c.received ++ [payload] = history)
      (queue : q.Holds cfg [payload] history.length c.received.length) :
      ClientAt cfg history c q i (.enqueuing payload tasks)
  | toDrain (payload : α) (tasks : Nat → QueueTask α) (task : tasks i = .todo)
      (received : c.received ++ [payload] = history)
      (queue : q.Holds cfg [payload] history.length c.received.length) :
      ClientAt cfg history c q i (.draining tasks)
  | sending (drain : Drain α) (tasks : Nat → QueueTask α) (task : tasks i = .sending drain)
      (received : c.received ++ [drain.message] = history)
      (queue : q.Holds cfg [] history.length c.received.length) :
      ClientAt cfg history c q i (.draining tasks)
  | drained (tasks : Nat → QueueTask α) (task : tasks i = .finished)
      (received : c.received = history)
      (queue : q.Holds cfg [] history.length history.length) :
      ClientAt cfg history c q i (.draining tasks)

/-- What holds between any two actions. -/
structure Inv (cfg : BackpressureConfig) (n : Nat) (history : List α) (σ : QueuedBroadcast α) :
    Prop where
  ids : σ.clients.map ClientBuffer.clientId = (benchmarkClients α n).map ClientBuffer.clientId
  connected : ∀ i < n, σ.queueOf i = some i
  served : ∀ i c, σ.clients[i]? = some c → ClientAt cfg history c (σ.queues i) i σ.stage

/-- Only the task of the client itself matters. -/
theorem ClientAt.update_enqueuing {c : ClientBuffer α} {q : SendQueue α} {i j : Nat}
    {payload : α} {tasks : Nat → QueueTask α}
    (h : ClientAt cfg history c q j (.enqueuing payload tasks)) (hne : j ≠ i)
    (task : QueueTask α) :
    ClientAt cfg history c q j (.enqueuing payload (Function.update tasks i task)) := by
  cases h with
  | toEnqueue _ _ htask received queue =>
      exact .toEnqueue _ _ ((Function.update_of_ne hne _ _).trans htask) received queue
  | enqueued _ _ htask received queue =>
      exact .enqueued _ _ ((Function.update_of_ne hne _ _).trans htask) received queue

theorem ClientAt.update_draining {c : ClientBuffer α} {q : SendQueue α} {i j : Nat}
    {tasks : Nat → QueueTask α} (h : ClientAt cfg history c q j (.draining tasks)) (hne : j ≠ i)
    (task : QueueTask α) :
    ClientAt cfg history c q j (.draining (Function.update tasks i task)) := by
  cases h with
  | toDrain _ _ htask received queue =>
      exact .toDrain _ _ ((Function.update_of_ne hne _ _).trans htask) received queue
  | sending _ _ htask received queue =>
      exact .sending _ _ ((Function.update_of_ne hne _ _).trans htask) received queue
  | drained _ htask received queue =>
      exact .drained _ ((Function.update_of_ne hne _ _).trans htask) received queue

section Start

/-- Adding clients under new ids keeps those added before, and finds each under its own. -/
theorem foldl_addConnection (cfg : BackpressureConfig) (clients : List (ClientBuffer α)) :
    ∀ (k : Nat) (σ : QueuedBroadcast α), σ.controller.cfg = cfg →
      (clients.map ClientBuffer.clientId).Nodup →
      (∀ i, (σ.queues i).Holds cfg [] 0 0) →
      let τ := (clients.zipIdx k).foldl addConnection σ
      τ.clients = σ.clients ∧ τ.stage = σ.stage ∧ (∀ i, (τ.queues i).Holds cfg [] 0 0) ∧
        (∀ i c, clients[i]? = some c → τ.controller.getQueue c.clientId = some (k + i)) ∧
        ∀ clientId ∉ clients.map ClientBuffer.clientId,
          τ.controller.getQueue clientId = σ.controller.getQueue clientId := by
  induction clients with
  | nil =>
      intro k σ _ _ hqueues
      exact ⟨rfl, rfl, hqueues, by simp, fun _ _ => rfl⟩
  | cons c clients ih =>
      intro k σ hcfg hnodup hqueues
      rw [List.map_cons, List.nodup_cons] at hnodup
      have hqueues' : ∀ i, ((σ.addConnection (c, k)).queues i).Holds cfg [] 0 0 := by
        intro i
        by_cases hi : i = k
        · subst i
          simp only [addConnection, Function.update_self, hcfg]
          exact SendQueue.new_holds cfg c.clientId
        · simp only [addConnection, Function.update_of_ne hi]
          exact hqueues i
      obtain ⟨hclients, hstage, hholds, hfound, hkept⟩ :=
        ih (k + 1) (σ.addConnection (c, k)) hcfg hnodup.2 hqueues'
      have hget : ∀ clientId, (σ.addConnection (c, k)).controller.getQueue clientId =
          if clientId = c.clientId then some k else σ.controller.getQueue clientId :=
        fun clientId => BackpressureController.getQueue_addConnection _ _ _ _
      refine ⟨hclients, hstage, hholds, ?_, ?_⟩
      · intro i d hi
        cases i with
        | zero =>
            obtain rfl : c = d := Option.some.inj hi
            exact (hkept c.clientId hnodup.1).trans ((hget c.clientId).trans (if_pos rfl))
        | succ i =>
            have hd := hfound i d hi
            rw [Nat.add_assoc, Nat.add_comm 1 i] at hd
            exact hd
      · intro clientId hmem
        rw [List.map_cons, List.mem_cons, not_or] at hmem
        exact (hkept clientId hmem.2).trans ((hget clientId).trans (if_neg hmem.1))

theorem start_inv (cfg : BackpressureConfig) (n : Nat) :
    (start cfg n : QueuedBroadcast α).Inv cfg n [] := by
  obtain ⟨hclients, hstage, hholds, hfound, -⟩ := foldl_addConnection cfg
    (benchmarkClients α n) 0
    { controller := BackpressureController.new cfg
      queues := fun _ => SendQueue.new "" cfg.maxQueueSize cfg.strategy
      clients := benchmarkClients α n
      stage := .idle } rfl (nodup_benchmarkClients n) fun _ => SendQueue.new_holds cfg ""
  change (start cfg n).clients = _ at hclients
  change (start cfg n).stage = _ at hstage
  refine ⟨congrArg _ hclients, ?_, ?_⟩
  · intro i hi
    have hlt : i < (benchmarkClients α n).length := by
      simpa [benchmarkClients] using hi
    have hget := List.getElem?_eq_getElem hlt
    have hqueue := hfound i _ hget
    rw [Nat.zero_add] at hqueue
    rw [queueOf, hclients]
    exact (congrArg (Option.bind · _) hget).trans hqueue
  · intro i c hi
    rw [hclients] at hi
    obtain ⟨j, -, rfl⟩ := List.mem_map.mp (List.mem_of_getElem? hi)
    rw [hstage]
    exact .idle rfl (hholds i)

end Start

section Measure

/-- The steps an `enqueue` has left. -/
def toEnqueue : QueueTask α → Nat
  | .todo => 1
  | _ => 0

/-- The steps a `drain` has left. -/
def toDrain : QueueTask α → Nat
  | .todo => 2
  | .sending _ => 1
  | _ => 0

/-- The steps a broadcast has left. -/
def remaining (n : Nat) (σ : QueuedBroadcast α) : Nat :=
  match σ.stage with
  | .idle => 0
  | .enqueuing _ tasks => ∑ i ∈ Finset.range n, toEnqueue (tasks i) + (2 * n + 2)
  | .draining tasks => ∑ i ∈ Finset.range n, toDrain (tasks i) + 1

theorem sum_update (weight : QueueTask α → Nat) (tasks : Nat → QueueTask α) {i : Nat}
    (hi : i < n) (task : QueueTask α) :
    ∑ j ∈ Finset.range n, weight (Function.update tasks i task j) + weight (tasks i) =
      ∑ j ∈ Finset.range n, weight (tasks j) + weight task := by
  have hmem := Finset.mem_range.mpr hi
  rw [← Finset.add_sum_erase _ _ hmem,
    ← Finset.add_sum_erase (Finset.range n) (fun j => weight (tasks j)) hmem]
  have hrest : ∑ j ∈ (Finset.range n).erase i, weight (Function.update tasks i task j) =
      ∑ j ∈ (Finset.range n).erase i, weight (tasks j) := by
    apply Finset.sum_congr rfl
    intro j hj
    rw [Function.update_of_ne (Finset.ne_of_mem_erase hj)]
  rw [hrest, Function.update_self]
  omega

theorem sum_le (weight : QueueTask α → Nat) (k n : Nat) (tasks : Nat → QueueTask α)
    (hle : ∀ task, weight task ≤ k) : ∑ i ∈ Finset.range n, weight (tasks i) ≤ n * k := by
  calc ∑ i ∈ Finset.range n, weight (tasks i)
      ≤ ∑ _i ∈ Finset.range n, k := Finset.sum_le_sum fun i _ => hle (tasks i)
    _ = n * k := by simp

theorem remaining_le (n : Nat) (σ : QueuedBroadcast α) : σ.remaining n ≤ 3 * n + 2 := by
  rw [remaining]
  split
  · exact Nat.zero_le _
  · rename_i payload tasks hstage
    have hle := sum_le toEnqueue 1 n tasks fun task => by cases task <;> simp [toEnqueue]
    omega
  · rename_i tasks hstage
    have hle := sum_le toDrain 2 n tasks fun task => by cases task <;> simp [toDrain]
    omega

end Measure

section Steps

variable {acts : List (QueuedAction α)} {a : QueuedAction α} {i : Nat}

theorem Inv.length (inv : σ.Inv cfg n history) : σ.clients.length = n := by
  simpa [benchmarkClients] using congrArg List.length inv.ids

/-- The queue found for a client is its own. -/
theorem Inv.queueOf_eq (inv : σ.Inv cfg n history) {queue : Nat}
    (h : σ.queueOf i = some queue) : queue = i ∧ ∃ c, σ.clients[i]? = some c := by
  obtain ⟨c, hi, -⟩ := Option.bind_eq_some_iff.mp h
  have hlt := (List.getElem?_eq_some_iff.mp hi).1
  rw [inv.connected i (inv.length ▸ hlt)] at h
  exact ⟨(Option.some.inj h).symm, c, hi⟩

/-- A step that concerns one client and its queue. -/
theorem Inv.update (inv : σ.Inv cfg n history) {c : ClientBuffer α} (c' : ClientBuffer α)
    {q : SendQueue α} (hi : σ.clients[i]? = some c) (hid : c'.clientId = c.clientId)
    (hcontroller : τ.controller = σ.controller) (hclients : τ.clients = σ.clients.set i c')
    (hqueues : τ.queues = Function.update σ.queues i q)
    (hself : ClientAt cfg history c' q i τ.stage)
    (hother : ∀ j d r, j ≠ i → ClientAt cfg history d r j σ.stage →
      ClientAt cfg history d r j τ.stage) : τ.Inv cfg n history := by
  have hids : τ.clients.map ClientBuffer.clientId = σ.clients.map ClientBuffer.clientId := by
    rw [hclients]
    exact map_set_of_eq hi hid
  refine ⟨hids.trans inv.ids, ?_, ?_⟩
  · intro j hj
    have hqueue := inv.connected j hj
    have hkeys : ∀ ρ : QueuedBroadcast α, ρ.queueOf j =
        ((ρ.clients.map ClientBuffer.clientId)[j]?).bind ρ.controller.getQueue := by
      intro ρ
      rw [List.getElem?_map, Option.bind_map]
      rfl
    rw [hkeys] at hqueue ⊢
    rw [hids, hcontroller]
    exact hqueue
  · intro j d hj
    rw [hclients, List.getElem?_set] at hj
    rw [hqueues]
    split at hj
    · subst j
      split at hj
      · rw [Function.update_self, ← Option.some.inj hj]
        exact hself
      · simp at hj
    · rename_i hne
      rw [Function.update_of_ne (Ne.symm hne)]
      exact hother j d _ (Ne.symm hne) (inv.served j d hj)

theorem Inv.lt_of_getElem? (inv : σ.Inv cfg n history) {c : ClientBuffer α}
    (hi : σ.clients[i]? = some c) : i < n :=
  inv.length ▸ (List.getElem?_eq_some_iff.mp hi).1

theorem clients_eq_set {clients : List (ClientBuffer α)} {c : ClientBuffer α}
    (hi : clients[i]? = some c) : clients = clients.set i c := by
  obtain ⟨hlt, rfl⟩ := List.getElem?_eq_some_iff.mp hi
  exact (List.set_getElem_self hlt).symm

/-- A step that takes all clients from one stage to the next. -/
theorem Inv.next (inv : σ.Inv cfg n history) {longer : List α} (hclients : τ.clients = σ.clients)
    (hcontroller : τ.controller = σ.controller) (hqueues : τ.queues = σ.queues)
    (hserved : ∀ i c, i < n → ClientAt cfg history c (σ.queues i) i σ.stage →
      ClientAt cfg longer c (σ.queues i) i τ.stage) : τ.Inv cfg n longer := by
  refine ⟨hclients ▸ inv.ids, ?_, ?_⟩
  · intro i hi
    rw [queueOf, hclients, hcontroller]
    exact inv.connected i hi
  · intro i c hi
    rw [hclients] at hi
    rw [hqueues]
    exact hserved i c (inv.length ▸ (List.getElem?_eq_some_iff.mp hi).1) (inv.served i c hi)

theorem Inv.newTasks_eq (inv : σ.Inv cfg n history) (hi : i < n) : σ.newTasks i = .todo := by
  rw [newTasks, inv.connected i hi]
  rfl

theorem Inv.finished_of_gathered (inv : σ.Inv cfg n history) {tasks : Nat → QueueTask α}
    (h : σ.gathered tasks = true) (hi : i < n) : tasks i = .finished := by
  have hfinished := List.all_eq_true.mp h i (List.mem_range.mpr (inv.length.symm ▸ hi))
  cases ht : tasks i <;> simp [ht, QueueTask.isFinished] at hfinished ⊢

theorem Inv.exists_unfinished (inv : σ.Inv cfg n history) {tasks : Nat → QueueTask α}
    (h : ¬ σ.gathered tasks = true) : ∃ i < n, tasks i ≠ .finished := by
  by_contra hall
  apply h
  rw [gathered, List.all_eq_true]
  intro i hi
  rw [List.mem_range, inv.length] at hi
  have hfinished : tasks i = .finished := by
    by_contra hne
    exact hall ⟨i, hi, hne⟩
  rw [hfinished]
  rfl

theorem Inv.broadcast (inv : σ.Inv cfg n history) {payload : α}
    (hstep : σ.step (.broadcast payload) = some τ) : τ.Inv cfg n (history ++ [payload]) := by
  simp only [QueuedBroadcast.step] at hstep
  split at hstep
  · rename_i hidle
    obtain rfl := Option.some.inj hstep
    refine inv.next rfl rfl rfl ?_
    intro i c hi hserved
    rw [hidle] at hserved
    cases hserved with
    | idle received queue =>
        refine .toEnqueue payload _ (inv.newTasks_eq hi) (received ▸ rfl) ?_
        rw [received]
        exact queue
  · simp at hstep

theorem Inv.enqueue (inv : σ.Inv cfg n history) (hmax : 0 < cfg.maxQueueSize)
    (hstep : σ.step (.enqueue i) = some τ) :
    τ.Inv cfg n history ∧ τ.remaining n < σ.remaining n := by
  simp only [QueuedBroadcast.step] at hstep
  split at hstep
  · rename_i payload tasks hstage
    obtain ⟨queue, hqueue, hstep⟩ := Option.bind_eq_some_iff.mp hstep
    obtain ⟨rfl, c, hi⟩ := inv.queueOf_eq hqueue
    have hserved := inv.served queue c hi
    rw [hstage] at hserved
    split at hstep
    · rename_i htodo
      obtain rfl := Option.some.inj hstep
      cases hserved with
      | enqueued _ _ task _ _ => simp [htodo] at task
      | toEnqueue _ _ task received holds =>
          obtain ⟨hreturned, hholds⟩ := holds.enqueue hmax payload
          have hlength : c.received.length + 1 = history.length := by
            simpa using congrArg List.length received
          rw [hlength] at hholds
          have htask : QueueTask.ofOutcome ((σ.queues queue).enqueue payload) = .finished := by
            rw [QueueTask.ofOutcome, hreturned]
            rfl
          rw [settle, htask]
          constructor
          · refine inv.update c hi rfl rfl (clients_eq_set hi) rfl ?_ ?_
            · exact .enqueued _ _ (Function.update_self _ _ _) received hholds
            · intro j d r hne hj
              rw [hstage] at hj
              exact hj.update_enqueuing hne _
          · have hsum := sum_update toEnqueue tasks (inv.lt_of_getElem? hi) .finished
            simp only [remaining, hstage, htodo, toEnqueue] at hsum ⊢
            omega
    · simp at hstep
  · simp at hstep

/-- No put waits, since every queue was empty. -/
theorem Inv.wake (inv : σ.Inv cfg n history) : σ.step (.wake i) = none := by
  rw [Option.eq_none_iff_forall_ne_some]
  intro τ hstep
  simp only [QueuedBroadcast.step] at hstep
  split at hstep
  · rename_i payload tasks hstage
    obtain ⟨queue, hqueue, hstep⟩ := Option.bind_eq_some_iff.mp hstep
    obtain ⟨rfl, c, hi⟩ := inv.queueOf_eq hqueue
    have hserved := inv.served queue c hi
    rw [hstage] at hserved
    split at hstep
    · rename_i hputting
      cases hserved with
      | toEnqueue _ _ task _ _ => simp [hputting] at task
      | enqueued _ _ task _ _ => simp [hputting] at task
    · simp at hstep
  · simp at hstep

theorem Inv.enqueued (inv : σ.Inv cfg n history) (hstep : σ.step .enqueued = some τ) :
    τ.Inv cfg n history ∧ τ.remaining n < σ.remaining n := by
  simp only [QueuedBroadcast.step] at hstep
  split at hstep
  · rename_i payload tasks hstage
    split at hstep
    · rename_i hgathered
      obtain rfl := Option.some.inj hstep
      constructor
      · refine inv.next rfl rfl rfl ?_
        intro i c hi hserved
        rw [hstage] at hserved
        have hfinished := inv.finished_of_gathered hgathered hi
        cases hserved with
        | toEnqueue _ _ task _ _ => simp [hfinished] at task
        | enqueued _ _ _ received queue =>
            exact .toDrain payload _ (inv.newTasks_eq hi) received queue
      · have hle := sum_le toDrain 2 n σ.newTasks fun task => by cases task <;> simp [toDrain]
        simp only [remaining, hstage]
        omega
    · simp at hstep
  · simp at hstep

theorem Inv.drain (inv : σ.Inv cfg n history) (hstep : σ.step (.drain i) = some τ) :
    τ.Inv cfg n history ∧ τ.remaining n < σ.remaining n := by
  simp only [QueuedBroadcast.step] at hstep
  split at hstep
  · rename_i tasks hstage
    obtain ⟨queue, hqueue, hstep⟩ := Option.bind_eq_some_iff.mp hstep
    obtain ⟨rfl, c, hi⟩ := inv.queueOf_eq hqueue
    have hserved := inv.served queue c hi
    rw [hstage] at hserved
    split at hstep
    · rename_i htodo
      obtain rfl := Option.some.inj hstep
      cases hserved with
      | sending _ _ task _ _ => simp [htodo] at task
      | drained _ task _ _ => simp [htodo] at task
      | toDrain payload _ task received holds =>
          obtain ⟨r, d, hdrain, rfl, hholds⟩ := holds.drain
          rw [hdrain, advance, QueueTask.ofProgress]
          constructor
          · refine inv.update c hi rfl rfl (clients_eq_set hi) rfl ?_ ?_
            · exact .sending d _ (Function.update_self _ _ _) received hholds
            · intro j e s hne hj
              rw [hstage] at hj
              exact hj.update_draining hne _
          · have hsum := sum_update toDrain tasks (inv.lt_of_getElem? hi) (.sending d)
            simp only [remaining, hstage, htodo, toDrain] at hsum ⊢
            omega
    · simp at hstep
  · simp at hstep

theorem Inv.send (inv : σ.Inv cfg n history) (hstep : σ.step (.send i) = some τ) :
    τ.Inv cfg n history ∧ τ.remaining n < σ.remaining n := by
  simp only [QueuedBroadcast.step] at hstep
  split at hstep
  · rename_i tasks hstage
    obtain ⟨queue, hqueue, hstep⟩ := Option.bind_eq_some_iff.mp hstep
    obtain ⟨rfl, c, hi⟩ := inv.queueOf_eq hqueue
    have hserved := inv.served queue c hi
    rw [hstage] at hserved
    split at hstep
    · rename_i c' drain hi' hsending
      obtain rfl : c = c' := Option.some.inj (hi.symm.trans hi')
      obtain rfl := Option.some.inj hstep
      cases hserved with
      | toDrain _ _ task _ _ => simp [hsending] at task
      | drained _ task _ _ => simp [hsending] at task
      | sending drain' _ task received holds =>
          obtain rfl : drain = drain' := QueueTask.sending.inj (hsending.symm.trans task)
          obtain ⟨r, sent, hreturned, hholds⟩ := holds.sendReturned drain
          have hlength : c.received.length + 1 = history.length := by
            simpa using congrArg List.length received
          rw [hlength] at hholds
          rw [hreturned, advance, QueueTask.ofProgress]
          constructor
          · refine inv.update (c.send drain.message) hi rfl rfl rfl rfl ?_ ?_
            · exact .drained _ (Function.update_self _ _ _) received hholds
            · intro j e s hne hj
              rw [hstage] at hj
              exact hj.update_draining hne _
          · have hsum := sum_update toDrain tasks (inv.lt_of_getElem? hi) .finished
            simp only [remaining, hstage, hsending, toDrain] at hsum ⊢
            omega
    · simp at hstep
  · simp at hstep

theorem Inv.drained (inv : σ.Inv cfg n history) (hstep : σ.step .drained = some τ) :
    τ.Inv cfg n history ∧ τ.remaining n < σ.remaining n := by
  simp only [QueuedBroadcast.step] at hstep
  split at hstep
  · rename_i tasks hstage
    split at hstep
    · rename_i hgathered
      obtain rfl := Option.some.inj hstep
      constructor
      · refine inv.next rfl rfl rfl ?_
        intro i c hi hserved
        rw [hstage] at hserved
        have hfinished := inv.finished_of_gathered hgathered hi
        cases hserved with
        | toDrain _ _ task _ _ => simp [hfinished] at task
        | sending _ _ task _ _ => simp [hfinished] at task
        | drained _ _ received queue => exact .idle received queue
      · simp only [remaining, hstage]
        exact Nat.succ_pos _
    · simp at hstep
  · simp at hstep

/-- An action other than a call of `broadcast_with_bp`. -/
def OfBroadcast : QueuedAction α → Prop
  | .broadcast _ => False
  | _ => True

/-- Every step of a broadcast uses up one of those it has left. -/
theorem Inv.goes_on (inv : σ.Inv cfg n history) (hmax : 0 < cfg.maxQueueSize)
    (ha : OfBroadcast a) (hstep : σ.step a = some τ) :
    τ.Inv cfg n history ∧ τ.remaining n < σ.remaining n := by
  cases a with
  | broadcast payload => exact ha.elim
  | enqueue i => exact inv.enqueue hmax hstep
  | wake i => simp [inv.wake] at hstep
  | enqueued => exact inv.enqueued hstep
  | drain i => exact inv.drain hstep
  | send i => exact inv.send hstep
  | drained => exact inv.drained hstep

theorem payloads_of_ofBroadcast (ha : OfBroadcast a) : payloads [a] = [] := by
  cases a with
  | broadcast payload => exact ha.elim
  | _ => rfl

theorem Inv.step (inv : σ.Inv cfg n (payloads acts)) (hmax : 0 < cfg.maxQueueSize)
    (hstep : σ.step a = some τ) : τ.Inv cfg n (payloads (acts ++ [a])) := by
  rw [payloads_snoc]
  by_cases ha : OfBroadcast a
  · rw [payloads_of_ofBroadcast ha, List.append_nil]
    exact (inv.goes_on hmax ha hstep).1
  · cases a with
    | broadcast payload => exact inv.broadcast hstep
    | _ => exact absurd trivial ha

theorem inv_of_run (hmax : 0 < cfg.maxQueueSize) (run : Run step (start cfg n) acts σ) :
    σ.Inv cfg n (payloads acts) :=
  run.invariant (I := fun acts σ => σ.Inv cfg n (payloads acts)) (start_inv cfg n)
    fun _ _ _ _ inv hstep => inv.step hmax hstep

end Steps

section Progress

variable {acts rest : List (QueuedAction α)}

/-- Until a broadcast has returned, one of its coroutines can run, or it can go on itself. -/
theorem Inv.enabled (inv : σ.Inv cfg n history) (hbusy : σ.stage ≠ .idle) :
    ∃ a, OfBroadcast a ∧ (σ.step a).isSome = true := by
  cases hstage : σ.stage with
  | idle => exact absurd hstage hbusy
  | enqueuing payload tasks =>
      by_cases hgathered : σ.gathered tasks = true
      · exact ⟨.enqueued, trivial, by simp [QueuedBroadcast.step, hstage, hgathered]⟩
      · obtain ⟨i, hi, hunfinished⟩ := inv.exists_unfinished hgathered
        have hqueue := inv.connected i hi
        obtain ⟨-, c, hc⟩ := inv.queueOf_eq hqueue
        have hserved := inv.served i c hc
        rw [hstage] at hserved
        cases hserved with
        | toEnqueue _ _ task _ _ =>
            exact ⟨.enqueue i, trivial, by simp [QueuedBroadcast.step, hstage, hqueue, task]⟩
        | enqueued _ _ task _ _ => exact absurd task hunfinished
  | draining tasks =>
      by_cases hgathered : σ.gathered tasks = true
      · exact ⟨.drained, trivial, by simp [QueuedBroadcast.step, hstage, hgathered]⟩
      · obtain ⟨i, hi, hunfinished⟩ := inv.exists_unfinished hgathered
        have hqueue := inv.connected i hi
        obtain ⟨-, c, hc⟩ := inv.queueOf_eq hqueue
        have hserved := inv.served i c hc
        rw [hstage] at hserved
        cases hserved with
        | toDrain _ _ task _ _ =>
            exact ⟨.drain i, trivial, by simp [QueuedBroadcast.step, hstage, hqueue, task]⟩
        | sending _ _ task _ _ =>
            exact ⟨.send i, trivial, by simp [QueuedBroadcast.step, hstage, hqueue, hc, task]⟩
        | drained _ task _ _ => exact absurd task hunfinished

section Runs

variable (hmax : 0 < cfg.maxQueueSize) (run : Run step (start cfg n) acts σ)
include hmax run

/-- Between two rounds, every client has received what was broadcast, in order; its queue is
empty and has counted one call and one send a round. No call was counted as a drop, except by
DROP_OLDEST with a bound of one, which counts each as one though nothing is ever evicted. -/
theorem rounds_delivered (hidle : σ.stage = .idle) :
    σ.clients.length = n ∧ ∀ i c, σ.clients[i]? = some c →
      c.received = payloads acts ∧ (σ.queues i).content = [] ∧
      (σ.queues i).stats.messagesSent = (payloads acts).length ∧
      (σ.queues i).stats.messagesQueued + (σ.queues i).stats.messagesDropped =
        (payloads acts).length ∧
      (σ.queues i).stats.messagesDropped =
        if cfg.strategy = .dropOldest ∧ cfg.maxQueueSize = 1 then (payloads acts).length
        else 0 := by
  have inv := inv_of_run hmax run
  refine ⟨inv.length, ?_⟩
  intro i c hi
  have hserved := inv.served i c hi
  rw [hidle] at hserved
  cases hserved with
  | idle received queue =>
      exact ⟨received, queue.content, queue.tally.sent, queue.tally.counted, queue.tally.dropped⟩

/-- A broadcast returns after at most three steps for each client and two of its own, in
whatever order its coroutines run, and from everywhere on the way it can return. -/
theorem broadcast_cannot_hang (more : Run step σ rest τ) (hrest : ∀ a ∈ rest, OfBroadcast a) :
    rest.length ≤ 3 * n + 2 ∧
      ∃ further ω, (∀ a ∈ further, OfBroadcast a) ∧ Run step τ further ω ∧ ω.stage = .idle := by
  have inv := inv_of_run hmax run
  obtain ⟨invτ, hbound⟩ : τ.Inv cfg n (payloads acts) ∧
      rest.countP (fun _ => true) + τ.remaining n ≤ σ.remaining n := by
    refine more.countP_add_le (I := fun ω => ω.Inv cfg n (payloads acts)) ?_ inv hrest
    intro υ a ω ha hυ hstep
    obtain ⟨hω, hlt⟩ := hυ.goes_on hmax ha hstep
    exact ⟨hω, hlt.le, fun _ => hlt⟩
  refine ⟨?_, ?_⟩
  · have hle := remaining_le n σ
    rw [List.countP_true] at hbound
    omega
  · have henabled : ∀ ω : QueuedBroadcast α, ω.Inv cfg n (payloads acts) → ¬ ω.stage = .idle →
        ∃ a υ, OfBroadcast a ∧ ω.step a = some υ ∧ υ.Inv cfg n (payloads acts) ∧
          υ.remaining n < ω.remaining n := by
      intro ω inv hbusy
      obtain ⟨a, ha, henabled⟩ := inv.enabled hbusy
      obtain ⟨υ, hstep⟩ := Option.isSome_iff_exists.mp henabled
      obtain ⟨hυ, hlt⟩ := inv.goes_on hmax ha hstep
      exact ⟨a, υ, ha, hstep, hυ, hlt⟩
    obtain ⟨further, ω, hfurther, run', -, hω⟩ := exists_run_to henabled τ invτ
    exact ⟨further, ω, hfurther, run', hω⟩

end Runs

end Progress

/-- The configuration of `run_benchmark`. -/
def benchmarkConfig : BackpressureConfig where
  maxQueueSize := 64
  strategy := .dropOldest

/-- Two rounds with two clients, whose coroutines overlap in the first one. -/
def twoRounds : List (QueuedAction Nat) :=
  [.broadcast 7, .enqueue 1, .enqueue 0, .enqueued, .drain 0, .drain 1, .send 1, .send 0, .drained,
    .broadcast 8, .enqueue 0, .enqueue 1, .enqueued, .drain 0, .send 0, .drain 1, .send 1, .drained]

theorem two_rounds_delivered :
    let σ := (exec step (start benchmarkConfig 2) twoRounds).get (by decide +kernel)
    let c := (σ.clients[1]?).get (by decide +kernel)
    c.received = [7, 8] ∧ (σ.queues 1).stats.messagesSent = 2 := by
  intro σ c
  have run : Run step (start benchmarkConfig 2) twoRounds σ := run_get (by decide +kernel)
  have hidle : σ.stage = .idle := rfl
  have hi : σ.clients[1]? = some c := (Option.some_get (by decide +kernel)).symm
  obtain ⟨hreceived, -, hsent, -⟩ := (rounds_delivered (by decide) run hidle).2 1 c hi
  exact ⟨hreceived, hsent⟩

/-- Most of a round of three: two coroutines have drained their queues, one is in its send. -/
def mostOfRound : List (QueuedAction Nat) :=
  [.enqueue 1, .enqueue 0, .enqueue 2, .enqueued, .drain 2, .send 2, .drain 0, .drain 1, .send 1]

/-- The nine steps taken are within the bound of eleven, and the round can be completed. -/
theorem round_of_three_cannot_hang :
    let σ := (exec step (start benchmarkConfig 3) [.broadcast 7]).get (by decide +kernel)
    let τ := (exec step σ mostOfRound).get (by decide +kernel)
    mostOfRound.length = 9 ∧ mostOfRound.length ≤ 3 * 3 + 2 ∧
      ∃ further ω, (∀ a ∈ further, OfBroadcast a) ∧ Run step τ further ω ∧ ω.stage = .idle := by
  intro σ τ
  have run : Run step (start benchmarkConfig 3) [.broadcast 7] σ := run_get (by decide +kernel)
  have more : Run step σ mostOfRound τ := run_get (by decide +kernel)
  exact ⟨rfl, broadcast_cannot_hang (by decide) run more (by simp [mostOfRound, OfBroadcast])⟩

end QueuedBroadcast

section Agreement

variable {cfg : BackpressureConfig} {acts : List (RawAction α)} {bcts : List (QueuedAction α)}
  {σ : RawBroadcast α} {τ : QueuedBroadcast α}

/-- The broadcast through the queues delivers what the plain one delivers: after the same
rounds, run in any order each, the clients are the same. -/
theorem broadcasts_agree (hmax : 0 < cfg.maxQueueSize)
    (raw : Run RawBroadcast.step (RawBroadcast.start n) acts σ)
    (queued : Run QueuedBroadcast.step (QueuedBroadcast.start cfg n) bcts τ)
    (hrounds : RawBroadcast.payloads acts = QueuedBroadcast.payloads bcts)
    (hσ : σ.stage = .idle) (hτ : τ.stage = .idle) :
    σ.clients = τ.clients := by
  have inv := RawBroadcast.inv_of_run raw
  have inv' := QueuedBroadcast.inv_of_run hmax queued
  have hids := inv.ids.trans inv'.ids.symm
  apply List.ext_getElem?
  intro i
  have hid := congrArg (fun ids => ids[i]?) hids
  simp only [List.getElem?_map] at hid
  cases hc : σ.clients[i]? with
  | none =>
      rw [hc] at hid
      exact (Option.map_eq_none_iff.mp hid.symm).symm
  | some c =>
      rw [hc] at hid
      obtain ⟨d, hd, hdid⟩ := Option.map_eq_some_iff.mp hid.symm
      have hreceived : c.received ++ [] = RawBroadcast.payloads acts := by
        have hserved := inv.served i c hc
        rw [hσ] at hserved
        exact hserved
      have hreceived' : d.received = QueuedBroadcast.payloads bcts := by
        have hserved := inv'.served i d hd
        rw [hτ] at hserved
        cases hserved with
        | idle received queue => exact received
      rw [hd]
      have hcd : c.received = d.received := by
        rw [hreceived', ← hrounds, ← hreceived, List.append_nil]
      cases c
      cases d
      exact congrArg some (congrArg₂ ClientBuffer.mk hdid.symm hcd)

/-- The same rounds with the plain broadcast. -/
def twoRawRounds : List (RawAction Nat) :=
  [.broadcast 7, .begin 1, .begin 0, .send 0, .send 1, .gathered, .broadcast 8, .begin 0, .send 0,
    .begin 1, .send 1, .gathered]

theorem two_rounds_agree :
    let σ := (exec RawBroadcast.step (RawBroadcast.start 2) twoRawRounds).get (by decide +kernel)
    let τ := (exec QueuedBroadcast.step (QueuedBroadcast.start QueuedBroadcast.benchmarkConfig 2)
      QueuedBroadcast.twoRounds).get (by decide +kernel)
    σ.clients = τ.clients := by
  intro σ τ
  have raw : Run RawBroadcast.step (RawBroadcast.start 2) twoRawRounds σ :=
    run_get (by decide +kernel)
  have queued : Run QueuedBroadcast.step
      (QueuedBroadcast.start QueuedBroadcast.benchmarkConfig 2) QueuedBroadcast.twoRounds τ :=
    run_get (by decide +kernel)
  exact broadcasts_agree (by decide) raw queued (by decide) rfl rfl

end Agreement

end WebSocketPatterns.Benchmarks
