import WebSocketPatterns.Dashboard.Simulation
import WebSocketPatterns.PubSub.Delivery

/-!
# Runs of the dashboard

Every handler subscribes once, as it starts, so that handlers and subscribers have
the same numbers; a handler has ended exactly when its subscriber was unsubscribed.
The registry and the controller are written together and therefore keep the same
keys in the same order, whatever ids the handlers draw.
-/

namespace WebSocketPatterns.Dashboard

open Backpressure PubSub Shutdown Transition

namespace DashboardState

/-- What holds between any two actions. -/
structure Inv (σ : DashboardState) : Prop where
  feed : σ.feed.Inv
  counted : σ.feed.subscribers.length = σ.handlers.length
  numbered : ∀ i (h : ClientHandler), σ.handlers[i]? = some h → h.subscriber = i
  subscribed : ∀ sub ∈ σ.feed.subscribers, sub.channel = feedChannel ∧ sub.maxQueueSize = 256
  bounded : ∀ sub ∈ σ.feed.subscribers, (σ.feed.bus.queues sub.queue).maxsize = 256
  stopped : ∀ i (h : ClientHandler), σ.handlers[i]? = some h →
    (σ.feed.stopped i = none ↔ h.outcome = none)
  received : ∀ i (h : ClientHandler), σ.handlers[i]? = some h →
    h.ws.received = (σ.feed.yielded i).map Message.payload
  closed : ∀ h ∈ σ.handlers, h.ws.closed = h.outcome.isSome
  ended : ∀ h ∈ σ.handlers, h.outcome = none ∨ h.outcome = some .returned
  keys : σ.manager.registry.connections.keys = σ.manager.bp.queues.keys
  owned : ∀ connId ∈ σ.manager.registry.connections.keys,
    ∃ h ∈ σ.handlers, h.outcome = none ∧ h.connId = connId
  unused : ∀ r, (σ.manager.queues r).stats.messagesQueued = 0 ∧
    (σ.manager.queues r).stats.messagesDropped = 0 ∧ (σ.manager.queues r).stats.messagesSent = 0

theorem start_inv (cfg : BackpressureConfig) : (start cfg).Inv where
  feed := BusState.start_inv
  counted := rfl
  numbered := by simp [start]
  subscribed := by simp [start, BusState.start]
  bounded := by simp [start, BusState.start]
  stopped := by simp [start]
  received := by simp [start]
  closed := by simp [start]
  ended := by simp [start]
  keys := rfl
  owned := by simp [start, ConnectionManager.new, ConnectionRegistry.new]
  unused := by simp [start, ConnectionManager.new, SendQueue.new]

theorem running_eq_some_iff {σ : DashboardState} {i : Nat} {h : ClientHandler} :
    σ.running i = some h ↔ σ.handlers[i]? = some h ∧ h.outcome = none := by
  simp [running, Option.filter_eq_some_iff]

/-- The handler in the place of another one, and the others as they were. -/
theorem getElem?_set_eq_some_iff {handlers : List ClientHandler} {i j : Nat}
    {old new h : ClientHandler} (hi : handlers[i]? = some old) :
    (handlers.set i new)[j]? = some h ↔ (j = i ∧ h = new) ∨ (j ≠ i ∧ handlers[j]? = some h) := by
  have hlt : i < handlers.length := (List.getElem?_eq_some_iff.mp hi).1
  by_cases hj : j = i
  · subst hj
    simp [hlt, eq_comm]
  · simp [hj, Ne.symm hj]

section Steps

variable {σ τ : DashboardState} (inv : σ.Inv)
include inv

theorem Inv.subscriber_of_handler {i : Nat} {h : ClientHandler} (hi : σ.handlers[i]? = some h) :
    ∃ sub, σ.feed.subscribers[i]? = some sub ∧ sub ∈ σ.feed.subscribers ∧ sub.queue = i := by
  have hlt : i < σ.feed.subscribers.length := by
    rw [inv.counted]
    exact (List.getElem?_eq_some_iff.mp hi).1
  have hsub := List.getElem?_eq_getElem hlt
  exact ⟨_, hsub, (inv.feed.getElem?_iff i _).mp hsub⟩

/-- A running handler's queue holds no sentinel, so that its generator does not end. -/
theorem Inv.got_message {i : Nat} {h : ClientHandler} (hrun : σ.running i = some h)
    {item : Option (Message MetricsUpdate)} {q : AsyncQueue (Option (Message MetricsUpdate))}
    (hget : (σ.feed.bus.queues i).getNowait = some (item, q)) : ∃ msg, item = some msg := by
  obtain ⟨hi, houtcome⟩ := running_eq_some_iff.mp hrun
  have hnone := (inv.feed.running i ((inv.stopped i h hi).mpr houtcome)).2
  rw [((AsyncQueue.getNowait_eq_some_iff _ _ _).mp hget).1] at hnone
  cases item with
  | none => simp at hnone
  | some msg => exact ⟨msg, rfl⟩

/-- The generator yields a message and the socket takes it. -/
theorem Inv.advance {i : Nat} {h : ClientHandler} (hrun : σ.running i = some h)
    {msg : Message MetricsUpdate} {q : AsyncQueue (Option (Message MetricsUpdate))}
    (hget : (σ.feed.bus.queues i).getNowait = some (some msg, q)) {feed : BusState MetricsUpdate}
    (hfeed : σ.feed.step (.consume i) = some feed) :
    Inv { σ with
      feed := feed
      handlers := σ.handlers.set i
        { h with ws := { h.ws with received := h.ws.received ++ [msg.payload] } } } := by
  obtain ⟨hi, houtcome⟩ := running_eq_some_iff.mp hrun
  have hinv := inv.feed.step hfeed
  have hmaxsize := fun r hr => inv.feed.step_maxsize hfeed (r := r) hr
  obtain ⟨item, q', hended, hget', rfl⟩ := BusState.step_consume hfeed
  obtain ⟨rfl, rfl⟩ := Prod.mk.inj (Option.some.inj (hget.symm.trans hget'))
  constructor
  case feed => exact hinv
  case counted => simpa using inv.counted
  case numbered =>
    intro j g hj
    obtain ⟨rfl, rfl⟩ | ⟨-, hj⟩ := (getElem?_set_eq_some_iff hi).mp hj
    · exact inv.numbered j h hi
    · exact inv.numbered j g hj
  case subscribed => exact inv.subscribed
  case bounded =>
    intro sub hsub
    rw [hmaxsize sub.queue (inv.feed.queue_lt hsub)]
    exact inv.bounded sub hsub
  case stopped =>
    intro j g hj
    obtain ⟨rfl, rfl⟩ | ⟨-, hj⟩ := (getElem?_set_eq_some_iff hi).mp hj
    · exact inv.stopped j h hi
    · exact inv.stopped j g hj
  case received =>
    intro j g hj
    obtain ⟨rfl, rfl⟩ | ⟨hne, hj⟩ := (getElem?_set_eq_some_iff hi).mp hj
    · simp [BusState.yielded, Consumer.resume, inv.received j h hi]
    · simpa [BusState.yielded, hne] using inv.received j g hj
  case closed =>
    intro g hg
    obtain ⟨j, hj⟩ := List.mem_iff_getElem?.mp hg
    obtain ⟨rfl, rfl⟩ | ⟨-, hj⟩ := (getElem?_set_eq_some_iff hi).mp hj
    · exact inv.closed h (List.mem_of_getElem? hi)
    · exact inv.closed g (List.mem_of_getElem? hj)
  case ended =>
    intro g hg
    obtain ⟨j, hj⟩ := List.mem_iff_getElem?.mp hg
    obtain ⟨rfl, rfl⟩ | ⟨-, hj⟩ := (getElem?_set_eq_some_iff hi).mp hj
    · exact inv.ended h (List.mem_of_getElem? hi)
    · exact inv.ended g (List.mem_of_getElem? hj)
  case keys => exact inv.keys
  case owned =>
    intro connId hkey
    obtain ⟨g, hg, hrunning, hid⟩ := inv.owned connId hkey
    obtain ⟨j, hj⟩ := List.mem_iff_getElem?.mp hg
    by_cases hji : j = i
    · subst hji
      obtain rfl := Option.some.inj (hi.symm.trans hj)
      exact ⟨_, List.mem_of_getElem? ((getElem?_set_eq_some_iff hi).mpr (.inl ⟨rfl, rfl⟩)),
        hrunning, hid⟩
    · exact ⟨g, List.mem_of_getElem? ((getElem?_set_eq_some_iff hi).mpr (.inr ⟨hji, hj⟩)),
        hrunning, hid⟩
  case unused => exact inv.unused

/-- The cleanup of a handler that was running. -/
theorem Inv.finish {i : Nat} {h : ClientHandler} (hrun : σ.running i = some h)
    (hstep : σ.finish i h .returned = some τ) : τ.Inv := by
  obtain ⟨hi, houtcome⟩ := running_eq_some_iff.mp hrun
  obtain ⟨feed, hfeed, rfl⟩ := Option.map_eq_some_iff.mp hstep
  rw [inv.numbered i h hi] at hfeed
  have hinv := inv.feed.step hfeed
  have hmaxsize := fun r hr => inv.feed.step_maxsize hfeed (r := r) hr
  obtain ⟨sub, hsub, rfl, rfl⟩ := inv.feed.step_unsubscribe hfeed
  constructor
  case feed => exact hinv
  case counted => simpa using inv.counted
  case numbered =>
    intro j g hj
    obtain ⟨rfl, rfl⟩ | ⟨-, hj⟩ := (getElem?_set_eq_some_iff hi).mp hj
    · exact inv.numbered sub.queue h hi
    · exact inv.numbered j g hj
  case subscribed => exact inv.subscribed
  case bounded =>
    intro other hother
    rw [hmaxsize other.queue (inv.feed.queue_lt hother)]
    exact inv.bounded other hother
  case stopped =>
    intro j g hj
    rw [BusState.markStopped_eq_none_iff, List.mem_singleton]
    obtain ⟨rfl, rfl⟩ | ⟨hne, hj⟩ := (getElem?_set_eq_some_iff hi).mp hj
    · simp
    · simp [hne, inv.stopped j g hj]
  case received =>
    intro j g hj
    obtain ⟨rfl, rfl⟩ | ⟨-, hj⟩ := (getElem?_set_eq_some_iff hi).mp hj
    · exact inv.received sub.queue h hi
    · exact inv.received j g hj
  case closed =>
    intro g hg
    obtain ⟨j, hj⟩ := List.mem_iff_getElem?.mp hg
    obtain ⟨rfl, rfl⟩ | ⟨-, hj⟩ := (getElem?_set_eq_some_iff hi).mp hj
    · rfl
    · exact inv.closed g (List.mem_of_getElem? hj)
  case ended =>
    intro g hg
    obtain ⟨j, hj⟩ := List.mem_iff_getElem?.mp hg
    obtain ⟨rfl, rfl⟩ | ⟨-, hj⟩ := (getElem?_set_eq_some_iff hi).mp hj
    · exact .inr rfl
    · exact inv.ended g (List.mem_of_getElem? hj)
  case keys =>
    change (AList.erase h.connId _).keys = (AList.erase h.connId _).keys
    rw [AList.keys_erase, AList.keys_erase, inv.keys]
  case owned =>
    intro connId hkey
    change connId ∈ (AList.erase h.connId _).keys at hkey
    rw [AList.keys_erase, (AList.keys_nodup _).mem_erase_iff] at hkey
    obtain ⟨g, hg, hrunning, hid⟩ := inv.owned connId hkey.2
    obtain ⟨j, hj⟩ := List.mem_iff_getElem?.mp hg
    have hji : j ≠ sub.queue := by
      rintro rfl
      obtain rfl := Option.some.inj (hi.symm.trans hj)
      exact hkey.1 hid.symm
    exact ⟨g, List.mem_of_getElem? ((getElem?_set_eq_some_iff hi).mpr (.inr ⟨hji, hj⟩)),
      hrunning, hid⟩
  case unused => exact inv.unused

/-- A handler connects and subscribes; its id may be that of another one. -/
theorem Inv.connect {draw : Uuid4} {clientId : String} {connectedAt : ℚ} {task : Nat}
    {now lifetime : ℚ}
    (hstep : σ.step (.connect draw clientId connectedAt task now lifetime) = some τ) : τ.Inv := by
  simp only [DashboardState.step] at hstep
  obtain ⟨feed, hfeed, rfl⟩ := Option.map_eq_some_iff.mp hstep
  have hinv := inv.feed.step hfeed
  have hmaxsize := fun r hr => inv.feed.step_maxsize hfeed (r := r) hr
  have hsubscribers := inv.feed.step_subscribers hfeed
  obtain ⟨hno, -⟩ | ⟨channel, subscriberId, maxQueueSize, ha, hsubs, hqueue⟩ := hsubscribers
  · exact absurd rfl (hno _ _ _)
  obtain ⟨rfl, rfl, rfl⟩ := BusAction.subscribe.inj ha
  have hstopped : feed.stopped = σ.feed.stopped ∧ feed.consumers = σ.feed.consumers := by
    obtain rfl := Option.some.inj hfeed
    exact ⟨rfl, rfl⟩
  have hnext : σ.feed.bus.nextQueue = σ.handlers.length := by
    rw [inv.feed.counted, inv.counted]
  have hnew := inv.feed.known σ.feed.subscribers.length le_rfl
  have hsplit : ∀ {j : Nat} {g new : ClientHandler}, (σ.handlers ++ [new])[j]? = some g →
      σ.handlers[j]? = some g ∨ (j = σ.handlers.length ∧ g = new) := by
    intro j g new hj
    rcases Nat.lt_trichotomy j σ.handlers.length with hlt | rfl | hgt
    · rw [List.getElem?_append_left hlt] at hj
      exact .inl hj
    · simp only [List.getElem?_concat_length, Option.some.injEq] at hj
      exact .inr ⟨rfl, hj.symm⟩
    · rw [List.getElem?_eq_none (by simp; omega)] at hj
      simp at hj
  constructor
  case feed => exact hinv
  case counted => simp [hsubs, inv.counted]
  case numbered =>
    intro j g hj
    obtain hj | ⟨rfl, rfl⟩ := hsplit hj
    · exact inv.numbered j g hj
    · exact hnext
  case subscribed =>
    intro sub hsub
    rw [hsubs, List.mem_append, List.mem_singleton] at hsub
    rcases hsub with hsub | rfl
    · exact inv.subscribed sub hsub
    · exact ⟨rfl, rfl⟩
  case bounded =>
    intro sub hsub
    rw [hsubs, List.mem_append, List.mem_singleton] at hsub
    rcases hsub with hsub | rfl
    · rw [hmaxsize sub.queue (inv.feed.queue_lt hsub)]
      exact inv.bounded sub hsub
    · rw [hqueue]
      rfl
  case stopped =>
    intro j g hj
    rw [hstopped.1]
    obtain hj | ⟨rfl, rfl⟩ := hsplit hj
    · exact inv.stopped j g hj
    · rw [← inv.counted]
      simp [hnew.1]
  case received =>
    intro j g hj
    rw [BusState.yielded, hstopped.2]
    obtain hj | ⟨rfl, rfl⟩ := hsplit hj
    · exact inv.received j g hj
    · have hyielded : (σ.feed.consumers σ.feed.subscribers.length).yielded = [] := hnew.2.1
      rw [← inv.counted, hyielded]
      rfl
  case closed =>
    intro g hg
    rcases List.mem_append.mp hg with hg | hg
    · exact inv.closed g hg
    · rw [List.mem_singleton.mp hg]
      rfl
  case ended =>
    intro g hg
    rcases List.mem_append.mp hg with hg | hg
    · exact inv.ended g hg
    · rw [List.mem_singleton.mp hg]
      exact .inl rfl
  case keys =>
    change (Dict.set _ (makeConnectionId draw) _).keys = (Dict.set _ (makeConnectionId draw) _).keys
    rw [Dict.keys_set, Dict.keys_set, inv.keys]
  case owned =>
    intro connId hkey
    change connId ∈ (Dict.set _ (makeConnectionId draw) _).keys at hkey
    rw [Dict.keys_set] at hkey
    have hcases :
        connId ∈ σ.manager.registry.connections.keys ∨ connId = makeConnectionId draw := by
      split at hkey
      · exact .inl hkey
      · simpa using hkey
    rcases hcases with hkey | rfl
    · obtain ⟨g, hg, hrunning, hid⟩ := inv.owned connId hkey
      exact ⟨g, List.mem_append_left _ hg, hrunning, hid⟩
    · exact ⟨_, List.mem_append_right _ (List.mem_singleton.mpr rfl), rfl, rfl⟩
  case unused =>
    intro r
    simp only [ConnectionManager.connect, Function.update_apply]
    split
    · exact ⟨rfl, rfl, rfl⟩
    · exact inv.unused r

theorem Inv.produce {now published : ℚ} (hstep : σ.step (.produce now published) = some τ) :
    τ.Inv ∧ σ.stopEvent = false ∧ τ.tick = σ.tick + 1 ∧ τ.handlers = σ.handlers ∧
      σ.feed.step (.publish feedChannel (metricsUpdate σ.tick now) "producer" true published) =
        some τ.feed := by
  simp only [DashboardState.step] at hstep
  split at hstep
  · simp at hstep
  · rename_i hstop
    obtain ⟨feed, hfeed, rfl⟩ := Option.map_eq_some_iff.mp hstep
    refine ⟨?_, Bool.eq_false_iff.mpr hstop, rfl, rfl, hfeed⟩
    have hinv := inv.feed.step hfeed
    have hmaxsize := fun r hr => inv.feed.step_maxsize hfeed (r := r) hr
    obtain rfl := Option.some.inj hfeed
    exact
      { feed := hinv
        counted := inv.counted
        numbered := inv.numbered
        subscribed := inv.subscribed
        bounded := by
          intro sub hsub
          rw [hmaxsize sub.queue (inv.feed.queue_lt hsub)]
          exact inv.bounded sub hsub
        stopped := inv.stopped
        received := inv.received
        closed := inv.closed
        ended := inv.ended
        keys := inv.keys
        owned := inv.owned
        unused := inv.unused }

/-- A handler that takes an item forwards a message, and then goes on or ends. -/
theorem Inv.step_receive {i : Nat} {now : ℚ} (hstep : σ.step (.receive i now) = some τ) :
    ∃ h msg q feed, σ.running i = some h ∧
      (σ.feed.bus.queues i).getNowait = some (some msg, q) ∧
      σ.feed.step (.consume i) = some feed ∧
      let forwarded : ClientHandler :=
        { h with ws := { h.ws with received := h.ws.received ++ [msg.payload] } }
      let σ' : DashboardState :=
        { σ with feed := feed, handlers := σ.handlers.set i forwarded }
      σ'.running i = some forwarded ∧
        (τ = σ' ∨ σ'.finish i forwarded .returned = some τ) := by
  obtain ⟨h, hrun, hstep⟩ := Option.bind_eq_some_iff.mp hstep
  obtain ⟨hi, houtcome⟩ := running_eq_some_iff.mp hrun
  rw [inv.numbered i h hi] at hstep
  obtain ⟨⟨item, q⟩, hget, hstep⟩ := Option.bind_eq_some_iff.mp hstep
  obtain ⟨feed, hfeed, hstep⟩ := Option.bind_eq_some_iff.mp hstep
  obtain ⟨msg, rfl⟩ := inv.got_message hrun hget
  have hopen : h.ws.closed = false := by
    rw [inv.closed h (List.mem_of_getElem? hi), houtcome]
    rfl
  refine ⟨h, msg, q, feed, hrun, hget, hfeed, ?_, ?_⟩
  · exact running_eq_some_iff.mpr
      ⟨(getElem?_set_eq_some_iff hi).mpr (.inl ⟨rfl, rfl⟩), houtcome⟩
  · have hsend : h.ws.sendJson msg.payload =
        .ok { h.ws with received := h.ws.received ++ [msg.payload] } := by
      simp [FakeWebSocket.sendJson, hopen]
    simp only [forward, hsend] at hstep
    split at hstep
    · right
      rw [DashboardState.finish, List.set_set]
      exact hstep
    · exact .inl (Option.some.inj hstep).symm

theorem Inv.step {a : DashboardAction} (hstep : σ.step a = some τ) : τ.Inv := by
  cases a with
  | connect draw clientId connectedAt task now lifetime => exact inv.connect hstep
  | receive i now =>
      obtain ⟨h, msg, q, feed, hrun, hget, hfeed, hrun', rfl | hfinish⟩ := inv.step_receive hstep
      · exact inv.advance hrun hget hfeed
      · exact (inv.advance hrun hget hfeed).finish hrun' hfinish
  | cancel i =>
      obtain ⟨h, hrun, hfinish⟩ := Option.bind_eq_some_iff.mp hstep
      exact inv.finish hrun hfinish
  | produce now published => exact (inv.produce hstep).1
  | stop =>
      obtain rfl := Option.some.inj hstep
      exact { inv with }

end Steps

theorem inv_of_run {cfg : BackpressureConfig} {acts : List DashboardAction} {σ : DashboardState}
    (run : Run step (start cfg) acts σ) : σ.Inv :=
  run.invariant (I := fun _ σ => σ.Inv) (start_inv cfg) fun _ _ _ _ inv h => inv.step h

section Delivery

/-- The update that the producer puts in a handler's queue: the handler is running, and fewer
than 204 of the 256 places are taken. -/
def offered (σ : DashboardState) (i : Nat) : DashboardAction → Option MetricsUpdate
  | .produce now _ =>
      if (σ.running i).isSome ∧ (σ.feed.bus.queues i).qsize < 204
      then some (metricsUpdate σ.tick now) else none
  | _ => none

/-- The updates that a run put in a handler's queue. -/
def offeredAll (cfg : BackpressureConfig) (acts : List DashboardAction) (i : Nat) :
    List MetricsUpdate :=
  (trace step (start cfg) acts).filterMap fun visit => visit.1.offered i visit.2

section Steps

variable {σ τ : DashboardState} (inv : σ.Inv)
include inv

/-- What the bus accepts for a handler's subscriber. -/
theorem Inv.accepted_eq (i : Nat) (now published : ℚ) :
    σ.feed.accepted i (.publish feedChannel (metricsUpdate σ.tick now) "producer" true published) =
      (σ.offered i (.produce now published)).map
        fun update => ⟨feedChannel, update, published, "producer"⟩ := by
  cases hi : σ.handlers[i]? with
  | none =>
      have hnone : σ.feed.subscribers[i]? = none := by
        rw [List.getElem?_eq_none_iff, inv.counted]
        exact List.getElem?_eq_none_iff.mp hi
      simp [BusState.accepted, hnone, offered, running, hi]
  | some h =>
      obtain ⟨sub, hsub, hmem, rfl⟩ := inv.subscriber_of_handler hi
      obtain ⟨hchannel, hsize⟩ := inv.subscribed sub hmem
      have hlag :
          σ.feed.bus.isLagging sub = true ↔ 204 ≤ (σ.feed.bus.queues sub.queue).qsize := by
        rw [InMemoryMessageBus.isLagging_iff, hsize]
        exact Nat.cast_le
      have hfull :
          (σ.feed.bus.queues sub.queue).full → 204 ≤ (σ.feed.bus.queues sub.queue).qsize := by
        rw [AsyncQueue.full, inv.bounded sub hmem]
        omega
      have hrun : (σ.running sub.queue).isSome = true ↔ σ.feed.stopped sub.queue = none := by
        rw [inv.stopped sub.queue h hi]
        cases houtcome : h.outcome <;> simp [running, hi, houtcome]
      by_cases hoffered : (σ.running sub.queue).isSome ∧
          (σ.feed.bus.queues sub.queue).qsize < 204
      · have hcond : sub.channel = feedChannel ∧ σ.feed.stopped sub.queue = none ∧
            ¬ (true = true ∧ σ.feed.bus.isLagging sub = true) ∧
            ¬ (σ.feed.bus.queues sub.queue).full := by
          refine ⟨hchannel, hrun.mp hoffered.1, ?_, ?_⟩
          · rintro ⟨-, h⟩
            exact absurd (hlag.mp h) (not_le.mpr hoffered.2)
          · intro h
            exact absurd (hfull h) (not_le.mpr hoffered.2)
        rw [BusState.accepted, hsub, Option.bind_some, if_pos hcond, offered, if_pos hoffered]
        rfl
      · have hcond : ¬ (sub.channel = feedChannel ∧ σ.feed.stopped sub.queue = none ∧
            ¬ (true = true ∧ σ.feed.bus.isLagging sub = true) ∧
            ¬ (σ.feed.bus.queues sub.queue).full) := by
          rintro ⟨-, hstopped, hnot, -⟩
          exact hoffered ⟨hrun.mpr hstopped, not_le.mp fun h => hnot ⟨rfl, hlag.mpr h⟩⟩
        rw [BusState.accepted, hsub, Option.bind_some, if_neg hcond, offered, if_neg hoffered]
        rfl

/-- A finished handler keeps what its generator has yielded and what is buffered for it. -/
theorem Inv.finish_delivery {i : Nat} {h : ClientHandler} {outcome : TaskOutcome}
    (hstep : σ.finish i h outcome = some τ) (j : Nat) :
    τ.feed.yielded j ++ τ.feed.buffered j = σ.feed.yielded j ++ σ.feed.buffered j := by
  obtain ⟨feed, hfeed, rfl⟩ := Option.map_eq_some_iff.mp hstep
  rw [inv.feed.delivery_step hfeed j]
  exact List.append_nil _

/-- Only the producer adds to what a client has and will get. -/
theorem Inv.delivery_step {a : DashboardAction} (hstep : σ.step a = some τ) (j : Nat) :
    (τ.feed.yielded j ++ τ.feed.buffered j).map Message.payload =
      (σ.feed.yielded j ++ σ.feed.buffered j).map Message.payload ++ (σ.offered j a).toList := by
  cases a with
  | connect draw clientId connectedAt task now lifetime =>
      simp only [DashboardState.step] at hstep
      obtain ⟨feed, hfeed, rfl⟩ := Option.map_eq_some_iff.mp hstep
      rw [inv.feed.delivery_step hfeed j]
      simp [BusState.accepted, offered]
  | receive i now =>
      obtain ⟨h, msg, q, feed, hrun, hget, hfeed, hrun', hτ⟩ := inv.step_receive hstep
      have hconsume := inv.feed.delivery_step hfeed j
      have hinv := inv.advance hrun hget hfeed
      have hsame : τ.feed.yielded j ++ τ.feed.buffered j = feed.yielded j ++ feed.buffered j := by
        rcases hτ with rfl | hfinish
        · rfl
        · exact hinv.finish_delivery hfinish j
      rw [hsame, hconsume]
      simp [BusState.accepted, offered]
  | cancel i =>
      obtain ⟨h, -, hfinish⟩ := Option.bind_eq_some_iff.mp hstep
      rw [inv.finish_delivery hfinish j]
      simp [offered]
  | produce now published =>
      obtain ⟨-, -, -, -, hfeed⟩ := inv.produce hstep
      rw [inv.feed.delivery_step hfeed j, inv.accepted_eq, List.map_append]
      cases σ.offered j (.produce now published) <;> rfl
  | stop =>
      obtain rfl := Option.some.inj hstep
      simp [offered]

/-- Ticks only grow, and past every update that is published. -/
theorem Inv.tick_step {a : DashboardAction} (hstep : σ.step a = some τ) (j : Nat) :
    σ.tick ≤ τ.tick ∧ ∀ update ∈ σ.offered j a,
      update.tick = σ.tick ∧ σ.tick < τ.tick ∧
        update = metricsUpdate update.tick update.timestamp := by
  cases a with
  | connect draw clientId connectedAt task now lifetime =>
      simp only [DashboardState.step] at hstep
      obtain ⟨feed, -, rfl⟩ := Option.map_eq_some_iff.mp hstep
      exact ⟨le_rfl, by simp [offered]⟩
  | receive i now =>
      obtain ⟨h, msg, q, feed, -, -, -, -, rfl | hfinish⟩ := inv.step_receive hstep
      · exact ⟨le_rfl, by simp [offered]⟩
      · obtain ⟨feed', -, rfl⟩ := Option.map_eq_some_iff.mp hfinish
        exact ⟨le_rfl, by simp [offered]⟩
  | cancel i =>
      obtain ⟨h, -, hfinish⟩ := Option.bind_eq_some_iff.mp hstep
      obtain ⟨feed, -, rfl⟩ := Option.map_eq_some_iff.mp hfinish
      exact ⟨le_rfl, by simp [offered]⟩
  | produce now published =>
      obtain ⟨-, -, htick, -, -⟩ := inv.produce hstep
      refine ⟨by omega, ?_⟩
      intro update hupdate
      rw [offered, Option.mem_def, Option.ite_none_right_eq_some] at hupdate
      obtain ⟨-, hupdate⟩ := hupdate
      obtain rfl := Option.some.inj hupdate
      exact ⟨rfl, by omega, rfl⟩
  | stop =>
      obtain rfl := Option.some.inj hstep
      exact ⟨le_rfl, by simp [offered]⟩

end Steps

variable {cfg : BackpressureConfig} {acts : List DashboardAction} {σ : DashboardState}

theorem offeredAll_snoc (run : Run step (start cfg) acts σ) (a : DashboardAction) (i : Nat) :
    offeredAll cfg (acts ++ [a]) i = offeredAll cfg acts i ++ (σ.offered i a).toList := by
  rw [offeredAll, run.trace_snoc, List.filterMap_append, offeredAll]
  cases h : σ.offered i a <;> simp [h]

theorem delivery_of_run (run : Run step (start cfg) acts σ) (i : Nat) :
    (σ.feed.yielded i ++ σ.feed.buffered i).map Message.payload = offeredAll cfg acts i := by
  induction run with
  | nil => rfl
  | snoc run h ih => rw [(inv_of_run run).delivery_step h i, ih, offeredAll_snoc run]

/-- The updates come in the order of their ticks, none of them twice. -/
theorem ticks_of_run (run : Run step (start cfg) acts σ) (i : Nat) :
    ((offeredAll cfg acts i).map MetricsUpdate.tick).Pairwise (· < ·) ∧
      ∀ update ∈ offeredAll cfg acts i,
        update.tick < σ.tick ∧ update = metricsUpdate update.tick update.timestamp := by
  induction run with
  | nil => simp [offeredAll, trace]
  | @snoc acts σ a τ run h ih =>
      obtain ⟨hsorted, hupdates⟩ := ih
      obtain ⟨hle, hoffered⟩ := (inv_of_run run).tick_step h i
      rw [offeredAll_snoc run]
      constructor
      · rw [List.map_append, List.pairwise_append]
        refine ⟨hsorted, ?_, ?_⟩
        · cases σ.offered i a <;> simp
        · intro old hold new hnew
          obtain ⟨update, hupdate, rfl⟩ := List.mem_map.mp hold
          obtain ⟨update', hupdate', rfl⟩ := List.mem_map.mp hnew
          rw [(hoffered update' (Option.mem_toList.mp hupdate')).1]
          exact (hupdates update hupdate).1
      · intro update hmem
        rcases List.mem_append.mp hmem with hmem | hmem
        · exact ⟨(hupdates update hmem).1.trans_le hle, (hupdates update hmem).2⟩
        · obtain ⟨htick, hlt, hdata⟩ := hoffered update (Option.mem_toList.mp hmem)
          exact ⟨htick ▸ hlt, hdata⟩

/-- In every state of a run, what a client has received, followed by what waits for it, is what
the producer published while the client's handler was running and fewer than 204 updates
waited; it is received in the order of the ticks, none twice. -/
theorem updates_reach_clients_in_order (run : Run step (start cfg) acts σ) {i : Nat}
    {h : ClientHandler} (hi : σ.handlers[i]? = some h) :
    h.ws.received ++ (σ.feed.buffered i).map Message.payload = offeredAll cfg acts i ∧
      (h.ws.received.map MetricsUpdate.tick).Pairwise (· < ·) ∧
      ∀ update ∈ h.ws.received,
        update.tick < σ.tick ∧ update = metricsUpdate update.tick update.timestamp := by
  have hdelivered := delivery_of_run run i
  rw [List.map_append, ← (inv_of_run run).received i h hi] at hdelivered
  obtain ⟨hsorted, hupdates⟩ := ticks_of_run run i
  refine ⟨hdelivered, ?_, ?_⟩
  · rw [← hdelivered, List.map_append, List.pairwise_append] at hsorted
    exact hsorted.1
  · intro update hmem
    apply hupdates
    rw [← hdelivered]
    exact List.mem_append_left _ hmem

/-- Two clients whose ids collide: the first is cancelled, the second stays past its deadline. -/
def twoClients : List DashboardAction :=
  [.produce 0 0, .connect (ServerState.uuid (.last 15) (.last 15)) "client-1" 0 0 0 3, .produce 1 1,
    .connect (ServerState.uuid (.last 15) (.castSucc (.last 14))) "client-2" 1 1 1 1,
    .produce 2 2, .receive 1 2, .receive 0 2, .cancel 0, .produce 3 3]

theorem updates_reach_two_clients :
    let σ := (exec step (start {}) twoClients).get (by decide +kernel)
    let h := (σ.handlers[0]?).get (by decide +kernel)
    h.ws.received ++ (σ.feed.buffered 0).map Message.payload =
      [metricsUpdate 1 1, metricsUpdate 2 2] := by
  intro σ h
  have run : Run step (start {}) twoClients σ := run_get (by decide +kernel)
  have hi : σ.handlers[0]? = some h := (Option.some_get (by decide +kernel)).symm
  exact (updates_reach_clients_in_order run hi).1.trans (by decide +kernel)

end Delivery

section Cleanup

variable {cfg : BackpressureConfig} {acts : List DashboardAction} {σ : DashboardState}

/-- The feed lists the subscribers of the running handlers. -/
theorem Inv.isLive_eq (inv : σ.Inv) :
    σ.feed.subscribers.map (σ.feed.isLive feedChannel) =
      σ.handlers.map fun h => h.outcome.isNone := by
  apply List.ext_getElem?
  intro i
  rw [List.getElem?_map, List.getElem?_map]
  cases hi : σ.handlers[i]? with
  | none =>
      have hnone : σ.feed.subscribers[i]? = none := by
        rw [List.getElem?_eq_none_iff, inv.counted]
        exact List.getElem?_eq_none_iff.mp hi
      rw [hnone]
      rfl
  | some h =>
      obtain ⟨sub, hsub, hmem, rfl⟩ := inv.subscriber_of_handler hi
      have hstopped := inv.stopped sub.queue h hi
      rw [hsub, Option.map_some, Option.map_some, BusState.isLive, (inv.subscribed sub hmem).1,
        Option.some.injEq, Bool.eq_iff_iff]
      simp [hstopped]

theorem Inv.subscriberCount_eq (inv : σ.Inv) :
    σ.feed.bus.subscriberCount feedChannel = σ.handlers.countP fun h => h.outcome.isNone := by
  calc
    σ.feed.bus.subscriberCount feedChannel =
        σ.feed.subscribers.countP (σ.feed.isLive feedChannel) := by
      rw [InMemoryMessageBus.subscriberCount, inv.feed.listed, List.countP_eq_length_filter]
    _ = (σ.feed.subscribers.map (σ.feed.isLive feedChannel)).countP id := by
      rw [List.countP_map]
      rfl
    _ = σ.handlers.countP fun h => h.outcome.isNone := by
      rw [inv.isLive_eq, List.countP_map]
      rfl

/-- Without running handlers no channel has subscribers. -/
theorem Inv.channelCount_eq_zero (inv : σ.Inv)
    (hended : ∀ h ∈ σ.handlers, h.outcome.isSome = true) : σ.feed.bus.channelCount = 0 := by
  have hdead : ∀ sub ∈ σ.feed.subscribers, ∀ ch, σ.feed.isLive ch sub = false := by
    intro sub hmem ch
    obtain ⟨i, hi⟩ := List.mem_iff_getElem?.mp hmem
    obtain ⟨-, rfl⟩ := (inv.feed.getElem?_iff i sub).mp hi
    have hlt : sub.queue < σ.handlers.length := by
      rw [← inv.counted]
      exact inv.feed.queue_lt hmem
    have hhandler := List.getElem?_eq_getElem hlt
    have hstopped := (inv.stopped sub.queue _ hhandler).not
    have houtcome := hended _ (List.mem_of_getElem? hhandler)
    rw [Option.isSome_iff_ne_none] at houtcome
    have hsome := Option.isSome_iff_ne_none.mpr (hstopped.mpr houtcome)
    simp [BusState.isLive, Option.isNone_eq_false_iff.mpr hsome]
  have hnone : ∀ ch, σ.feed.bus.channels.lookup ch = none := by
    intro ch
    have hempty : σ.feed.bus.subs ch = [] := by
      rw [inv.feed.listed, List.filter_eq_nil_iff]
      intro sub hmem
      simp [hdead sub hmem ch]
    cases hlookup : σ.feed.bus.channels.lookup ch with
    | none => rfl
    | some subs =>
        rw [InMemoryMessageBus.subs, hlookup, Option.getD_some] at hempty
        exact absurd (hempty ▸ hlookup) (inv.feed.keyed ch)
  rw [InMemoryMessageBus.channelCount, Dict.len_eq_length_keys, List.length_eq_zero_iff,
    List.eq_nil_iff_forall_not_mem]
  intro ch hkey
  obtain ⟨subs, hlookup⟩ := (Dict.mem_keys_iff _ ch).mp hkey
  simp [hnone ch] at hlookup

/-- Nothing is ever queued or sent through the manager, and its queues are as many as its
registered connections. -/
theorem Inv.globalBpStats_eq (inv : σ.Inv) :
    σ.manager.globalBpStats = ⟨σ.manager.activeCount, 0, 0, 0, 0⟩ := by
  have hlen : σ.manager.bp.queues.len = σ.manager.activeCount := by
    rw [ConnectionManager.activeCount, ConnectionRegistry.activeCount, Dict.len_eq_length_keys,
      Dict.len_eq_length_keys, inv.keys]
  have hsum : ∀ counter : SendStats → Nat, (∀ r, counter (σ.manager.queues r).stats = 0) →
      ((σ.manager.bp.queues.values.map fun queue => (σ.manager.queues queue).stats).map
        counter).sum = 0 := by
    intro counter hzero
    rw [List.map_map]
    apply List.sum_eq_zero
    intro n hn
    obtain ⟨queue, -, rfl⟩ := List.mem_map.mp hn
    exact hzero queue
  simp only [ConnectionManager.globalBpStats, BackpressureController.globalStats, hlen,
    hsum SendStats.messagesQueued fun r => (inv.unused r).1,
    hsum SendStats.messagesDropped fun r => (inv.unused r).2.1,
    hsum SendStats.messagesSent fun r => (inv.unused r).2.2]
  simp

/-- In every state of a run: a handler has ended exactly when its socket is closed, and never
with an exception; the registry and the controller have the same keys in the same order; the
feed has one subscriber for each running handler; and once all handlers have ended, the
registry, the controller and the bus are empty. -/
theorem handlers_clean_up (run : Run step (start cfg) acts σ) :
    (∀ h ∈ σ.handlers, h.ws.closed = h.outcome.isSome ∧
      (h.outcome = none ∨ h.outcome = some .returned)) ∧
    σ.manager.registry.connections.keys = σ.manager.bp.queues.keys ∧
    σ.feed.bus.subscriberCount feedChannel =
      σ.handlers.countP (fun h => h.outcome.isNone) ∧
    σ.manager.globalBpStats = ⟨σ.manager.activeCount, 0, 0, 0, 0⟩ ∧
    ((∀ h ∈ σ.handlers, h.outcome.isSome = true) →
      σ.manager.activeCount = 0 ∧ σ.manager.bp.queues.len = 0 ∧ σ.feed.bus.channelCount = 0) := by
  have inv := inv_of_run run
  refine ⟨fun h hmem => ⟨inv.closed h hmem, inv.ended h hmem⟩, inv.keys, inv.subscriberCount_eq,
    inv.globalBpStats_eq, ?_⟩
  intro hended
  have hkeys : σ.manager.registry.connections.keys = [] := by
    rw [List.eq_nil_iff_forall_not_mem]
    intro connId hkey
    obtain ⟨h, hmem, hrunning, -⟩ := inv.owned connId hkey
    simpa [hrunning] using hended h hmem
  refine ⟨?_, ?_, inv.channelCount_eq_zero hended⟩
  · rw [ConnectionManager.activeCount, ConnectionRegistry.activeCount, Dict.len_eq_length_keys,
      hkeys]
    rfl
  · rw [Dict.len_eq_length_keys, ← inv.keys, hkeys]
    rfl

theorem two_clients_clean_up :
    let σ := (exec step (start {}) twoClients).get (by decide +kernel)
    σ.handlers.length = 2 ∧ σ.manager.activeCount = 0 ∧ σ.feed.bus.channelCount = 0 := by
  intro σ
  have run : Run step (start {}) twoClients σ := run_get (by decide +kernel)
  have hclean := (handlers_clean_up run).2.2.2.2 (by decide +kernel)
  exact ⟨by decide +kernel, hclean.1, hclean.2.2⟩

end Cleanup

end DashboardState

end WebSocketPatterns.Dashboard
