import WebSocketPatterns.Backpressure.QueueRuns
import Mathlib.Data.List.Perm.Subperm

/-!
# The send queue refines a bounded FIFO

Every action of the interleaved system is answered by at most one step of the
abstract buffer: a put or an append that takes effect enters or displaces, a
pop of a drain takes, and everything else leaves the buffer alone.
-/

namespace WebSocketPatterns.Backpressure

open Transition Relation

variable {α : Type*}

namespace SendSystem

/-- The abstract buffer a state stands for. -/
def toFifo (σ : SendSystem α) : BoundedFifo α :=
  ⟨σ.queue.content, σ.entered.map Prod.snd, σ.departed⟩

/-- The abstract steps of a queue with the configuration of this one. -/
def FifoStep (q : SendQueue α) : BoundedFifo α → BoundedFifo α → Prop :=
  BoundedFifo.Step q.maxSize (q.strategy = .dropOldest)

theorem settle_toFifo {σ : SendSystem α} (hmax : 0 < σ.queue.maxSize) (sender : Nat)
    {message : α} {o : Outcome α} (h : σ.queue.Effect message o) :
    ReflTransGen (FifoStep σ.queue) σ.toFifo (σ.settle sender message o).toFifo := by
  cases h with
  | kept entered evicted content =>
      have he : (σ.settle sender message o).toFifo = σ.toFifo := by
        simp [toFifo, settle, entered, evicted, content]
      rw [he]
  | added entered evicted room content =>
      have he : (σ.settle sender message o).toFifo =
          ⟨σ.toFifo.items ++ [message], σ.toFifo.entered ++ [message], σ.toFifo.left⟩ := by
        simp [toFifo, settle, entered, evicted, content]
      rw [he]
      exact .single (.enter σ.toFifo message (room hmax))
  | displaced oldest entered evicted dropOldest full content =>
      obtain ⟨rest, hitems, hrest⟩ := SendQueue.exists_rest_of_full hmax full content
      have he : (σ.settle sender message o).toFifo =
          ⟨rest ++ [message], σ.toFifo.entered ++ [message],
            σ.toFifo.left ++ [.evicted oldest]⟩ := by
        simp [toFifo, settle, entered, evicted, hrest]
      rw [he]
      exact .single (.displace σ.toFifo message oldest rest dropOldest full hitems)

theorem advance_toFifo {σ : SendSystem α} {others : List (Drain α)}
    {result : SendQueue α × DrainProgress α}
    (h : result.2.handed.toList ++ result.1.content = σ.queue.content) :
    ReflTransGen (FifoStep σ.queue) σ.toFifo (σ.advance others result).toFifo := by
  obtain ⟨q, progress⟩ := result
  cases progress with
  | returned sent =>
      have he : (σ.advance others (q, .returned sent)).toFifo = σ.toFifo := by
        simpa [toFifo, advance, DrainProgress.handed] using h
      rw [he]
  | sending d =>
      have hitems : σ.queue.content = d.message :: q.content := h.symm
      exact .single (.take σ.toFifo d.message q.content hitems)

/-- Every action is answered by steps of the abstract buffer. -/
theorem step_toFifo {σ τ : SendSystem α} (hmax : 0 < σ.queue.maxSize) {a : SendAction α}
    (h : σ.step a = some τ) : ReflTransGen (FifoStep σ.queue) σ.toFifo τ.toFifo := by
  cases stepped h with
  | enqueue sender message _ =>
      let σ' : SendSystem α := { σ with offered := σ.offered ++ [(sender, message)] }
      exact settle_toFifo (σ := σ') hmax sender (SendQueue.enqueue_effect σ.queue message)
  | wake sender message _ =>
      exact settle_toFifo hmax sender (SendQueue.put_effect σ.queue message)
  | cancel sender message _ => exact .refl
  | drained others q remaining sent _ same _ _ =>
      exact advance_toFifo (Stepped.drained_content same remaining sent).1

/-- The state stands for the abstract buffer, and its queue is configured as given. -/
def Represents (maxSize : Nat) (strategy : BackpressureStrategy) (σ : SendSystem α)
    (f : BoundedFifo α) : Prop :=
  σ.queue.maxSize = maxSize ∧ σ.queue.strategy = strategy ∧ σ.toFifo = f

theorem Represents.step {maxSize : Nat} {strategy : BackpressureStrategy} {σ τ : SendSystem α}
    {f : BoundedFifo α} (hrep : σ.Represents maxSize strategy f) (hmax : 0 < maxSize)
    {a : SendAction α} (h : σ.step a = some τ) :
    ∃ g, ReflTransGen (BoundedFifo.Step maxSize (strategy = .dropOldest)) f g ∧
      τ.Represents maxSize strategy g := by
  obtain ⟨rfl, rfl, rfl⟩ := hrep
  obtain ⟨hstrategy, hmaxSize⟩ := step_config h
  exact ⟨τ.toFifo, step_toFifo hmax h, hmaxSize, hstrategy, rfl⟩

/-! ## Evictions and the senders' order -/

/-- The messages of one sender, in the order listed. -/
def ofSender (s : Nat) (l : List (Nat × α)) : List α :=
  l.filterMap fun e => if e.1 = s then some e.2 else none

@[simp] theorem ofSender_append (s : Nat) (l m : List (Nat × α)) :
    ofSender s (l ++ m) = ofSender s l ++ ofSender s m :=
  List.filterMap_append

/-- The messages of a sender that entered, then the one it waits with. -/
def keptOf (σ : SendSystem α) (s : Nat) : List α :=
  ofSender s σ.entered ++ (σ.waiting s).toList

theorem settle_keptOf (σ : SendSystem α) (sender : Nat) (message : α) (o : Outcome α) (s : Nat) :
    (σ.settle sender message o).keptOf s =
      if s = sender then ofSender s σ.entered ++ o.retained message else σ.keptOf s := by
  by_cases hs : s = sender
  · subst hs
    cases he : o.entered <;> cases hr : o.returned <;>
      simp [keptOf, settle, Outcome.retained, he, hr, ofSender]
  · cases he : o.entered <;> simp [keptOf, settle, hs, Ne.symm hs, he, ofSender]

/-- Between the two states nothing was evicted, or, under DROP_OLDEST and from a full queue,
its oldest message was. -/
def EvictsOnlyOldest (σ τ : SendSystem α) : Prop :=
  τ.evicted = σ.evicted ∨
    σ.queue.strategy = .dropOldest ∧ σ.queue.depth = σ.queue.maxSize ∧
      ∃ oldest rest message, σ.queue.content = oldest :: rest ∧
        τ.queue.content = rest ++ [message] ∧ τ.evicted = σ.evicted ++ [oldest]

section Steps

variable {σ τ : SendSystem α} {a : SendAction α} (h : σ.step a = some τ)
include h

/-- A step keeps what it was given, in the sender's order; blocking senders lose nothing. -/
theorem step_keptOf (s : Nat) :
    ∃ new, ofSender s τ.offered = ofSender s σ.offered ++ new ∧
      (τ.keptOf s).Sublist (σ.keptOf s ++ new) ∧
      (σ.queue.strategy = .blockSender → a ≠ .cancel s → τ.keptOf s = σ.keptOf s ++ new) := by
  cases stepped h with
  | enqueue sender message free =>
      refine ⟨if s = sender then [message] else [], ?_⟩
      rw [settle_keptOf]
      by_cases hs : s = sender
      · subst hs
        simp only [if_true]
        refine ⟨by simp [settle, ofSender], ?_, ?_⟩
        · have hsub := SendQueue.enqueue_retained_sublist σ.queue message
          simpa [keptOf, free] using hsub
        · intro hblock _
          simp [keptOf, free, SendQueue.enqueue_retained hblock message]
      · simp [settle, hs, Ne.symm hs, ofSender, keptOf]
  | wake sender message waits =>
      refine ⟨[], by simp [settle], ?_⟩
      rw [settle_keptOf]
      by_cases hs : s = sender
      · subst hs
        rw [if_pos rfl]
        constructor
        · have hsub := SendQueue.put_retained_sublist σ.queue message
          simpa [keptOf, waits] using hsub
        · intro hblock _
          simp [keptOf, waits,
            SendQueue.put_retained (SendQueue.asyncQueue_ne_none hblock) message]
      · simp [hs]
  | cancel sender message waits =>
      refine ⟨[], by simp, ?_⟩
      by_cases hs : s = sender
      · subst hs
        simp [keptOf, waits]
      · simp [keptOf, hs]
  | drained others q remaining sent _ _ _ _ =>
      obtain ⟨hwaiting, hoffered, hentered⟩ :=
        advance_senders σ others (q.drainNext remaining sent)
      refine ⟨[], ?_⟩
      simp [keptOf, hwaiting, hoffered, hentered]

theorem step_evicted (hmax : 0 < σ.queue.maxSize) : σ.EvictsOnlyOldest τ := by
  have hsettle : ∀ (σ' : SendSystem α) (sender : Nat) (message : α) (o : Outcome α),
      σ'.evicted = σ.evicted → σ.queue.Effect message o →
      τ = σ'.settle sender message o → σ.EvictsOnlyOldest τ := by
    intro σ' sender message o hσ heffect hτ
    cases heffect with
    | kept _ evicted _ => exact Or.inl (by rw [hτ, settle_evicted, evicted, hσ]; simp)
    | added _ evicted _ _ => exact Or.inl (by rw [hτ, settle_evicted, evicted, hσ]; simp)
    | displaced oldest _ evicted dropOldest full content =>
        obtain ⟨rest, hitems, hrest⟩ := SendQueue.exists_rest_of_full hmax full content
        refine Or.inr ⟨dropOldest, (SendQueue.depth_eq _).trans full, oldest, rest, message,
          hitems, ?_, ?_⟩
        · rw [hτ, settle_queue, hrest]
        · rw [hτ, settle_evicted, evicted, hσ]
          rfl
  cases stepped h with
  | enqueue sender message _ =>
      exact hsettle { σ with offered := σ.offered ++ [(sender, message)] } sender message _ rfl
        (SendQueue.enqueue_effect σ.queue message) rfl
  | wake sender message _ =>
      exact hsettle σ sender message _ rfl (SendQueue.put_effect σ.queue message) rfl
  | cancel sender message _ => exact Or.inl rfl
  | drained others q remaining sent _ _ _ _ => exact Or.inl (advance_evicted σ others _)

end Steps

section Runs

variable {connectionId : String} {maxSize : Nat} {strategy : BackpressureStrategy}
  {acts : List (SendAction α)} {σ : SendSystem α}
  (run : Run step (start connectionId maxSize strategy) acts σ)
include run

theorem toFifo_of_run (hmax : 0 < maxSize) :
    BoundedFifo.Reachable maxSize (strategy = .dropOldest) σ.toFifo := by
  have hstart : (start connectionId maxSize strategy : SendSystem α).Represents maxSize strategy
      BoundedFifo.empty := by
    refine ⟨rfl, rfl, ?_⟩
    simp only [toFifo, start, SendQueue.new_content, BoundedFifo.empty, List.map_nil]
  obtain ⟨f, hreach, _, _, rfl⟩ := run.simulation hstart fun _ _ _ _ hrep h => hrep.step hmax h
  exact hreach

theorem keptOf_of_run (s : Nat) : (σ.keptOf s).Sublist (ofSender s σ.offered) := by
  induction run with
  | nil => exact List.Sublist.refl _
  | snoc _ h ih =>
      obtain ⟨new, hoffered, hkept, _⟩ := step_keptOf h s
      rw [hoffered]
      exact hkept.trans (ih.append_right new)

/-- Blocking senders that are not cancelled have every message kept, in order. -/
theorem keptOf_of_blockSender (hblock : strategy = .blockSender) {s : Nat}
    (hcancel : .cancel s ∉ acts) : σ.keptOf s = ofSender s σ.offered := by
  induction run with
  | nil => rfl
  | snoc run h ih =>
      simp only [List.mem_append, List.mem_singleton, not_or] at hcancel
      obtain ⟨new, hoffered, _, hkept⟩ := step_keptOf h s
      rw [hoffered, hkept ((config_of_run run).1.trans hblock) (Ne.symm hcancel.2),
        ih hcancel.1]

/-- What entered the queue was offered, each offer entering at most once. -/
theorem entered_subperm_offered : σ.entered.Subperm σ.offered := by
  classical
  rw [List.subperm_ext_iff]
  rintro ⟨s, message⟩ _
  have hcount : ∀ l : List (Nat × α), l.count (s, message) = (ofSender s l).count message := by
    intro l
    induction l with
    | nil => rfl
    | cons e l ih =>
        obtain ⟨t, m⟩ := e
        by_cases ht : t = s
        · subst ht
          simpa [ofSender, List.count_cons] using ih
        · simpa [ofSender, ht] using ih
  rw [hcount, hcount]
  have hsub := (List.sublist_append_left (ofSender s σ.entered) _).trans (keptOf_of_run run s)
  exact hsub.count_le message

end Runs

/-- The interleaved send queue refines the bounded FIFO of its capacity: (a) the bound;
(b) what was handed over and what is queued are what entered, in order, minus what was
evicted; (c) nothing is handed over more often than it was offered; (d) only the oldest
message of a full DROP_OLDEST queue is ever evicted; (e) under BLOCK_SENDER each sender's
messages are, in its order, those handed over, those queued, and the one it waits with. -/
theorem refines_bounded_fifo {connectionId : String} {maxSize : Nat}
    {strategy : BackpressureStrategy} {acts : List (SendAction α)} {σ : SendSystem α}
    (hmax : 0 < maxSize) (run : Run step (start connectionId maxSize strategy) acts σ) :
    BoundedFifo.Reachable maxSize (strategy = .dropOldest) σ.toFifo ∧
    σ.queue.depth ≤ maxSize ∧
    (σ.entered.map Prod.snd = σ.departed.map Departure.element ++ σ.queue.content ∧
      (σ.handed ++ σ.queue.content).Sublist (σ.entered.map Prod.snd) ∧
      (σ.entered.map Prod.snd).Perm (σ.evicted ++ (σ.handed ++ σ.queue.content))) ∧
    σ.handed.Subperm (σ.offered.map Prod.snd) ∧
    (∀ a τ, σ.step a = some τ → σ.EvictsOnlyOldest τ) ∧
    (strategy = .blockSender → (∀ s, .cancel s ∉ acts) →
      ∃ handedOver queued : List (Nat × α),
        handedOver.map Prod.snd = σ.handed ∧ queued.map Prod.snd = σ.queue.content ∧
        ∀ s, ofSender s σ.offered =
          ofSender s handedOver ++ ofSender s queued ++ (σ.waiting s).toList) := by
  have hreach := toFifo_of_run run hmax
  obtain ⟨hs, hm⟩ := config_of_run run
  have hconserved : σ.entered.map Prod.snd =
      σ.departed.map Departure.element ++ σ.queue.content := hreach.conserved
  have hsub : (σ.handed ++ σ.queue.content).Sublist (σ.entered.map Prod.snd) := by
    rw [hconserved]
    exact (Departure.taken_sublist σ.departed).append_right _
  refine ⟨hreach, ?_, ⟨hconserved, hsub, ?_⟩, ?_, ?_, ?_⟩
  · rw [SendQueue.depth_eq]
    exact hreach.bounded
  · rw [hconserved, ← List.append_assoc]
    exact (Departure.taken_evicted_perm σ.departed).append_right _
  · have hhanded := (List.sublist_append_left σ.handed _).trans hsub
    obtain ⟨l, hperm, hl⟩ := entered_subperm_offered run
    exact hhanded.subperm.trans ⟨l.map Prod.snd, hperm.map Prod.snd, hl.map Prod.snd⟩
  · intro a τ h
    exact step_evicted h (by rw [hm]; exact hmax)
  · intro hblock hcancel
    have hnone : σ.departed.filterMap Departure.evicted? = [] := by
      by_contra hne
      have hold : strategy = .dropOldest := hreach.evicting_of_evicted hne
      rw [hblock] at hold
      simp at hold
    have hsplit : σ.entered.map Prod.snd = σ.handed ++ σ.queue.content := by
      rw [hconserved, ← Departure.taken_of_evicted_eq_nil hnone]
      rfl
    refine ⟨σ.entered.take σ.handed.length, σ.entered.drop σ.handed.length, ?_, ?_, ?_⟩
    · rw [List.map_take, hsplit, List.take_left]
    · rw [List.map_drop, hsplit, List.drop_left]
    · intro s
      rw [← keptOf_of_blockSender run hblock (hcancel s), keptOf, ← ofSender_append,
        List.take_append_drop]

/-- Two senders share a queue of one message; the second waits until a drain makes room. -/
def sharedActs : List (SendAction Nat) :=
  [.enqueue 0 7, .enqueue 1 8, .drain 10, .wake 1, .sendReturned 0, .enqueue 0 9]

theorem refines_bounded_fifo_shared :
    let σ := (exec step (start "c" 1 .blockSender) sharedActs).get (by decide)
    σ.queue.depth ≤ 1 ∧ [7, 8].Subperm (σ.offered.map Prod.snd) ∧
      ∃ handedOver queued : List (Nat × Nat),
        handedOver.map Prod.snd = [7, 8] ∧ queued.map Prod.snd = [9] ∧
        ofSender 0 handedOver ++ ofSender 0 queued = [7, 9] := by
  have run := run_get
    (show (exec step (start "c" 1 .blockSender) sharedActs).isSome from by decide)
  obtain ⟨_, ha, _, hc, _, he⟩ := refines_bounded_fifo (by decide) run
  obtain ⟨handedOver, queued, hh, hq, hs⟩ := he rfl (by simp [sharedActs])
  refine ⟨ha, hc, handedOver, queued, hh, hq, ?_⟩
  have h0 := (hs 0).symm
  rw [show (SendSystem.waiting _ 0) = none from by decide] at h0
  simpa using h0.trans (by decide)

end SendSystem

end WebSocketPatterns.Backpressure
