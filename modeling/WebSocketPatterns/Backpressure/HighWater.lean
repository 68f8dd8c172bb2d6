import WebSocketPatterns.Backpressure.QueueRuns

/-!
# The high water mark

`enqueue` samples the depth before it adds its message, and nothing else samples
it. The mark is therefore the largest depth that some call of `enqueue` met,
which is the peak depth only once a call was made at the peak.
-/

namespace WebSocketPatterns.Backpressure

open Transition

variable {α : Type*}

/-- The largest of the listed depths; zero if there is none. -/
def peakOf (depths : List Nat) : Nat := depths.foldl max 0

theorem peakOf_append_singleton (depths : List Nat) (depth : Nat) :
    peakOf (depths ++ [depth]) = max (peakOf depths) depth := by
  rw [peakOf, List.foldl_append]
  rfl

theorem le_peakOf {depths : List Nat} {depth : Nat} (h : depth ∈ depths) :
    depth ≤ peakOf depths := by
  induction depths using List.reverseRecOn with
  | nil => simp at h
  | append_singleton depths last ih =>
      rw [peakOf_append_singleton]
      rcases List.mem_append.mp h with hmem | hlast
      · exact (ih hmem).trans (le_max_left _ _)
      · obtain rfl := List.mem_singleton.mp hlast
        exact le_max_right _ _

/-- A positive peak is one of the listed depths. -/
theorem peakOf_mem {depths : List Nat} (h : peakOf depths ≠ 0) : peakOf depths ∈ depths := by
  induction depths using List.reverseRecOn with
  | nil => exact absurd rfl h
  | append_singleton depths last ih =>
      rw [peakOf_append_singleton] at h ⊢
      rcases le_total (peakOf depths) last with hle | hle
      · rw [max_eq_right hle]
        simp
      · rw [max_eq_left hle] at h ⊢
        exact List.mem_append_left _ (ih h)

/-- The action is a call of `enqueue`. -/
def SendAction.isEnqueue : SendAction α → Bool
  | .enqueue _ _ => true
  | _ => false

namespace SendQueue

theorem put_highWaterMark (q : SendQueue α) (message : α) :
    (q.put message).queue.stats.highWaterMark = q.stats.highWaterMark := by
  unfold put
  split
  · rfl
  · split <;> rfl

/-- `enqueue` samples the depth it meets. -/
theorem enqueue_highWaterMark (q : SendQueue α) (message : α) :
    (q.enqueue message).queue.stats.highWaterMark = max q.stats.highWaterMark q.depth := by
  have hput := put_highWaterMark q.markHighWater message
  unfold enqueue
  dsimp only
  split
  · split <;> rfl
  · split
    · rfl
    · exact hput
  · exact hput
  · split <;> rfl

theorem not_full_of_room {q : SendQueue α} {a : AsyncQueue α} (ha : q.asyncQueue = some a)
    (room : q.content.length < q.maxSize) : ¬ a.full := by
  rintro ⟨_, hle⟩
  rw [(maxsize_of_some ha).1, AsyncQueue.qsize, ← content_of_some ha] at hle
  omega

/-- A put into an asyncio queue that is not full puts its message. -/
theorem put_entered {q : SendQueue α} {a : AsyncQueue α} (ha : q.asyncQueue = some a)
    (hfull : ¬ a.full) (message : α) : (q.put message).entered = true := by
  unfold put
  split
  case h_1 hnone => simp [ha] at hnone
  case h_2 b hsome =>
    obtain rfl : a = b := Option.some.inj (ha.symm.trans hsome)
    split
    case h_1 hp => exact absurd ((AsyncQueue.putNowait_eq_none_iff _ _).mp hp) hfull
    case h_2 => rfl

/-- Both strategies with an asyncio queue enter the message while that queue is not full. -/
theorem enqueue_entered_of_not_full {q : SendQueue α} {a : AsyncQueue α}
    (ha : q.asyncQueue = some a) (hfull : ¬ a.full) (message : α) :
    (q.enqueue message).entered = true := by
  have hput : (q.markHighWater.put message).entered = true :=
    put_entered (q := q.markHighWater) ha hfull message
  rcases (maxsize_of_some ha).2 with hs | hs
  · simpa [enqueue, hs] using hput
  · simpa [enqueue, hs, ha, hfull] using hput

/-- Below its bound the queue takes every message, whatever the strategy. -/
theorem enqueue_entered {q : SendQueue α} (room : q.content.length < q.maxSize) (message : α) :
    (q.enqueue message).entered = true := by
  cases ha : q.asyncQueue with
  | some a => exact enqueue_entered_of_not_full ha (not_full_of_room ha room) message
  | none =>
      rcases (asyncQueue_eq_none_iff q).mp ha with hs | hs
      · exact (enqueue_dropOldest hs message).2.1
      · have hfull : q.markHighWater.isFull = false := by
          rw [isFull, decide_eq_false_iff_not, depth_eq]
          exact Nat.not_le.mpr room
        simp [enqueue, hs, hfull]

/-- A message that has entered and evicted nothing makes the queue deeper by one. -/
theorem enqueue_depth_of_entered {q : SendQueue α} {message : α}
    (entered : (q.enqueue message).entered = true)
    (hkeeps : q.strategy = .dropOldest → q.depth ≠ q.maxSize) :
    (q.enqueue message).queue.depth = q.depth + 1 := by
  rw [depth_eq] at hkeeps
  rw [depth_eq, depth_eq]
  cases q.enqueue_effect message with
  | kept hentered _ _ => simp [entered] at hentered
  | added _ _ _ content => rw [content, List.length_append, List.length_singleton]
  | displaced _ _ _ dropOldest full _ => exact absurd full (hkeeps dropOldest)

end SendQueue

namespace SendSystem

/-- The depth a call of `enqueue` samples. -/
def sampled (σ : SendSystem α) (a : SendAction α) : Option Nat :=
  if a.isEnqueue then some σ.queue.depth else none

section Runs

variable (connectionId : String) (maxSize : Nat) (strategy : BackpressureStrategy)

/-- The largest depth of the run so far. -/
def peak (acts : List (SendAction α)) : Nat :=
  peakOf ((visited step (start connectionId maxSize strategy) acts).map fun σ => σ.queue.depth)

/-- The depths the calls of `enqueue` of the run have met. -/
def samples (acts : List (SendAction α)) : List Nat :=
  (trace step (start connectionId maxSize strategy) acts).filterMap fun visit =>
    visit.1.sampled visit.2

end Runs

/-- The mark changes in `enqueue` only. -/
theorem step_highWaterMark {σ τ : SendSystem α} {a : SendAction α} (h : σ.step a = some τ) :
    τ.queue.stats.highWaterMark =
      (σ.sampled a).elim σ.queue.stats.highWaterMark (max σ.queue.stats.highWaterMark) := by
  cases a with
  | enqueue sender message =>
      cases stepped h with
      | enqueue _ _ _ => exact SendQueue.enqueue_highWaterMark σ.queue message
      | drained _ _ _ _ serves => exact absurd rfl (serves sender message)
  | wake sender =>
      obtain ⟨message, _, rfl⟩ := Option.map_eq_some_iff.mp h
      exact SendQueue.put_highWaterMark σ.queue message
  | cancel sender =>
      obtain ⟨_, _, rfl⟩ := Option.map_eq_some_iff.mp h
      rfl
  | drain batchSize =>
      obtain rfl := Option.some.inj h
      exact congrArg SendStats.highWaterMark (advance_stats σ σ.drains σ.queue batchSize.toNat 0)
  | sendReturned i =>
      obtain ⟨d, _, rfl⟩ := Option.map_eq_some_iff.mp h
      rw [SendQueue.sendReturned, advance_stats]
      rfl
  | sendRaised i =>
      obtain ⟨d, _, rfl⟩ := Option.map_eq_some_iff.mp h
      rw [advance_queue]
      rfl

section Runs

variable {connectionId : String} {maxSize : Nat} {strategy : BackpressureStrategy}
  {acts : List (SendAction α)} {σ τ : SendSystem α} {a : SendAction α}

theorem highWaterMark_of_run (run : Run step (start connectionId maxSize strategy) acts σ) :
    σ.queue.stats.highWaterMark = peakOf (samples connectionId maxSize strategy acts) := by
  have hstep : ∀ pre (ω : SendSystem α) b υ,
      Run step (start connectionId maxSize strategy) pre ω → ω.step b = some υ →
      υ.queue.stats.highWaterMark = (ω.sampled b).elim ω.queue.stats.highWaterMark
        (max ω.queue.stats.highWaterMark) := fun _ _ _ _ _ h => step_highWaterMark h
  exact run.view_eq hstep

theorem peak_snoc (run : Run step (start connectionId maxSize strategy) acts σ)
    (h : σ.step a = some τ) :
    peak connectionId maxSize strategy (acts ++ [a]) =
      max (peak connectionId maxSize strategy acts) τ.queue.depth := by
  rw [peak, run.visited_snoc h, List.map_append, List.map_singleton, peakOf_append_singleton]
  rfl

/-- The samples are depths of visited states. -/
theorem le_peak_of_sample {depth : Nat} (h : depth ∈ samples connectionId maxSize strategy acts) :
    depth ≤ peak connectionId maxSize strategy acts := by
  obtain ⟨visit, hvisit, hsample⟩ := List.mem_filterMap.mp h
  obtain ⟨_, hdepth⟩ := Option.ite_none_right_eq_some.mp hsample
  obtain rfl := Option.some.inj hdepth
  exact le_peakOf (List.mem_map_of_mem (mem_visited_of_mem_trace hvisit))

/-- The mark is the peak depth exactly if the peak was met by a call of `enqueue`. -/
theorem highWaterMark_eq_peak_iff
    (run : Run step (start connectionId maxSize strategy) acts σ) :
    σ.queue.stats.highWaterMark = peak connectionId maxSize strategy acts ↔
      peak connectionId maxSize strategy acts = 0 ∨
        ∃ visit ∈ trace step (start connectionId maxSize strategy) acts,
          visit.2.isEnqueue = true ∧
            visit.1.queue.depth = peak connectionId maxSize strategy acts := by
  rw [highWaterMark_of_run run]
  have hle : peakOf (samples connectionId maxSize strategy acts) ≤
      peak connectionId maxSize strategy acts := by
    by_cases hzero : peakOf (samples connectionId maxSize strategy acts) = 0
    · rw [hzero]
      exact Nat.zero_le _
    · exact le_peak_of_sample (peakOf_mem hzero)
  have hsample : ∀ visit ∈ trace step (start connectionId maxSize strategy) acts,
      visit.2.isEnqueue = true →
        visit.1.queue.depth ∈ samples connectionId maxSize strategy acts := by
    intro visit hvisit hcall
    exact List.mem_filterMap.mpr ⟨visit, hvisit, if_pos hcall⟩
  constructor
  · intro heq
    by_cases hzero : peakOf (samples connectionId maxSize strategy acts) = 0
    · exact Or.inl (heq.symm.trans hzero)
    · obtain ⟨visit, hvisit, hmet⟩ := List.mem_filterMap.mp (peakOf_mem hzero)
      obtain ⟨hcall, hdepth⟩ := Option.ite_none_right_eq_some.mp hmet
      exact Or.inr ⟨visit, hvisit, hcall, (Option.some.inj hdepth).trans heq⟩
  · rintro (hzero | ⟨visit, hvisit, hcall, hdepth⟩)
    · rw [hzero] at hle ⊢
      exact Nat.le_zero.mp hle
    · exact le_antisymm hle (hdepth ▸ le_peakOf (hsample visit hvisit hcall))

/-- No message is queued and none waits. -/
structure Untouched (σ : SendSystem α) : Prop where
  empty : σ.queue.content = []
  nobodyWaits : ∀ sender, σ.waiting sender = none
  unmarked : σ.queue.stats.highWaterMark = 0

/-- Without a call of `enqueue` nothing enters the queue. -/
theorem Untouched.step (hσ : σ.Untouched) (h : σ.step a = some τ) (ha : a.isEnqueue = false) :
    τ.Untouched := by
  have hmark := step_highWaterMark h
  simp only [sampled, ha, Bool.false_eq_true, if_false, Option.elim_none, hσ.unmarked] at hmark
  cases stepped h with
  | enqueue sender message _ => simp [SendAction.isEnqueue] at ha
  | wake sender message waits => simp [hσ.nobodyWaits sender] at waits
  | cancel sender message waits => simp [hσ.nobodyWaits sender] at waits
  | drained others q remaining sent _ same _ _ =>
      obtain ⟨hcontent, _⟩ := Stepped.drained_content same remaining sent
      obtain ⟨hwaiting, _⟩ := advance_senders σ others (q.drainNext remaining sent)
      rw [hσ.empty] at hcontent
      refine ⟨?_, ?_, hmark⟩
      · rw [advance_queue]
        exact (List.append_eq_nil_iff.mp hcontent).2
      · rw [hwaiting]
        exact hσ.nobodyWaits

/-- The first call of `enqueue` raises the depth and samples the empty queue. -/
theorem Untouched.step_enqueue (hσ : σ.Untouched) (hmax : 0 < σ.queue.maxSize)
    (h : σ.step a = some τ) (ha : a.isEnqueue = true) :
    τ.queue.depth = 1 ∧ τ.queue.stats.highWaterMark = 0 := by
  have hdepth : σ.queue.depth = 0 := by rw [SendQueue.depth_eq, hσ.empty, List.length_nil]
  have hmark := step_highWaterMark h
  simp only [sampled, ha, if_true, Option.elim_some, hσ.unmarked, hdepth] at hmark
  refine ⟨?_, hmark⟩
  cases stepped h with
  | enqueue sender message _ =>
      have hentered : (σ.queue.enqueue message).entered = true :=
        SendQueue.enqueue_entered (by rw [hσ.empty]; exact hmax) message
      have hkeeps : σ.queue.depth ≠ σ.queue.maxSize := hdepth ▸ hmax.ne
      rw [settle_queue, SendQueue.enqueue_depth_of_entered hentered fun _ => hkeeps, hdepth]
  | wake sender message _ => simp [SendAction.isEnqueue] at ha
  | cancel sender message _ => simp [SendAction.isEnqueue] at ha
  | drained others q remaining sent serves _ _ _ =>
      cases a with
      | enqueue sender message => exact absurd rfl (serves sender message)
      | _ => simp [SendAction.isEnqueue] at ha

/-- Before the first call of `enqueue` of a run the queue is empty and its peak zero. -/
theorem untouched_of_run (run : Run step (start connectionId maxSize strategy) acts σ)
    (hnone : EachStep step (start connectionId maxSize strategy)
      (fun _ _ a => a.isEnqueue = false) acts) :
    σ.Untouched ∧ peak connectionId maxSize strategy acts = 0 := by
  induction run with
  | nil =>
      have hcontent : (start connectionId maxSize strategy : SendSystem α).queue.content = [] :=
        SendQueue.new_content connectionId maxSize strategy
      refine ⟨⟨hcontent, fun _ => rfl, rfl⟩, ?_⟩
      simp [peak, visited, peakOf, SendQueue.depth_eq, hcontent]
  | snoc run h ih =>
      obtain ⟨hbefore, ha⟩ := (EachStep.snoc_iff run).mp hnone
      obtain ⟨huntouched, hpeak⟩ := ih hbefore
      have huntouched' := huntouched.step h ha
      refine ⟨huntouched', ?_⟩
      rw [peak_snoc run h, hpeak, SendQueue.depth_eq, huntouched'.empty]
      rfl

/-- In every run, the mark is the peak depth in the state reached exactly if that peak is zero
or was met by a call of `enqueue`; and it is the peak depth in all states of the run exactly
if the run makes no call of `enqueue`. -/
theorem high_water_mark_is_peak_iff (hmax : 0 < maxSize)
    (run : Run step (start connectionId maxSize strategy) acts σ) :
    (σ.queue.stats.highWaterMark = peak connectionId maxSize strategy acts ↔
      peak connectionId maxSize strategy acts = 0 ∨
        ∃ visit ∈ trace step (start connectionId maxSize strategy) acts,
          visit.2.isEnqueue = true ∧
            visit.1.queue.depth = peak connectionId maxSize strategy acts) ∧
    (Throughout step (start connectionId maxSize strategy)
        (fun pre ω => ω.queue.stats.highWaterMark = peak connectionId maxSize strategy pre) acts ↔
      EachStep step (start connectionId maxSize strategy)
        (fun _ _ a => a.isEnqueue = false) acts) := by
  refine ⟨highWaterMark_eq_peak_iff run, ?_⟩
  constructor
  · intro hpeaks
    induction run with
    | nil => simp
    | @snoc acts ω a τ run h ih =>
        obtain ⟨hbefore, hlast⟩ := (Throughout.snoc_iff (run.snoc h)).mp hpeaks
        have hnone := ih hbefore
        refine (EachStep.snoc_iff run).mpr ⟨hnone, ?_⟩
        by_contra ha
        obtain ⟨huntouched, _⟩ := untouched_of_run run hnone
        rw [← (config_of_run run).2] at hmax
        obtain ⟨hdepth, hmark⟩ := huntouched.step_enqueue hmax h (by simpa using ha)
        rw [hmark, peak_snoc run h, hdepth] at hlast
        omega
  · intro hnone pre post ω he hrun
    have hbefore : EachStep step (start connectionId maxSize strategy)
        (fun _ _ a => a.isEnqueue = false) pre := by
      intro pre' b post' υ he' hrun'
      exact hnone pre' b (post' ++ post) υ (by simp [he, he']) hrun'
    obtain ⟨huntouched, hpeak⟩ := untouched_of_run hrun hbefore
    exact huntouched.unmarked.trans hpeak.symm

end Runs

/-- A second message is refused by the full queue, and its call meets the peak. -/
def refusedActs : List (SendAction Nat) := [.enqueue 0 7, .enqueue 0 8, .drain 1, .sendReturned 0]

theorem high_water_mark_is_peak_refused :
    let σ := (exec step (start "c" 1 .disconnect) refusedActs).get (by decide)
    σ.queue.stats.highWaterMark = peak "c" 1 .disconnect refusedActs ∧
      peak "c" 1 .disconnect refusedActs = 1 := by
  have run := run_get (show (exec step (start "c" 1 .disconnect) refusedActs).isSome from by decide)
  have hpeak : peak "c" 1 .disconnect refusedActs = 1 := by decide
  have hmet : ∃ visit ∈ trace step (start "c" 1 .disconnect) refusedActs,
      visit.2.isEnqueue = true ∧
        visit.1.queue.depth = peak "c" 1 .disconnect refusedActs := by decide
  exact ⟨(high_water_mark_is_peak_iff (by decide) run).1.mpr (Or.inr hmet), hpeak⟩

/-- After the first message the queue of one is full, and the mark is still zero. -/
theorem high_water_mark_below_depth :
    ∃ σ : SendSystem Nat, Run step (start "c" 1 .blockSender) [.enqueue 0 7] σ ∧
      σ.queue.isFull = true ∧ σ.queue.depth = 1 ∧ σ.queue.stats.highWaterMark = 0 ∧
      σ.queue.stats.highWaterMark ≠ peak "c" 1 .blockSender [SendAction.enqueue 0 7] :=
  ⟨_, run_get (by decide), by decide, by decide, by decide, by decide⟩

end SendSystem

end WebSocketPatterns.Backpressure
