import WebSocketPatterns.ShutdownDemo.EchoHandlers
import WebSocketPatterns.Transition.Progress

/-!
# Runs of the shutdown demo

Whatever the interleaving, a handler's replies are the echo of what it took from
its queue, and its socket carries one close frame once it has ended. If moreover
every handler draws an id of its own, and none starts while `close_all` is
suspended, the registry lists the running handlers, and `close_all` returns when
all of them have ended, which no order of their steps can keep from happening.
-/

namespace WebSocketPatterns.ShutdownDemo

open Shutdown Transition

namespace FakeWebSocket

variable {ws ws' : FakeWebSocket}

/-- A message of the client only waits in the queue. -/
theorem put_eq_some {msg : Option String} (h : ws.put msg = some ws') :
    ∃ messages, ws' = { ws with messages := messages } ∧
      messages.items = ws.messages.items ++ [msg] := by
  obtain ⟨messages, hput, rfl⟩ := Option.map_eq_some_iff.mp h
  exact ⟨messages, rfl, ((AsyncQueue.putNowait_eq_some_iff _ _ _).mp hput).2.2⟩

/-- On an open socket the loop body takes EOF, or a text that it echoes. -/
theorem echo_eq_some {result : Except HandlerException Unit} (hopen : ws.closed = false)
    (h : ws.echo = some (result, ws')) :
    (∃ text messages, ws.messages.items = none :: messages.items ∧
      result = .error (.eof text) ∧ ws' = { ws with messages := messages }) ∨
    ∃ text messages, ws.messages.items = some text :: messages.items ∧ result = .ok () ∧
      ws' = { ws with messages := messages, sent := ws.sent ++ ["echo: " ++ text] } := by
  obtain ⟨received, hreceive, hresult⟩ := Option.map_eq_some_iff.mp h
  obtain ⟨⟨msg, messages⟩, hget, rfl⟩ := Option.map_eq_some_iff.mp hreceive
  have hitems := ((AsyncQueue.getNowait_eq_some_iff _ _ _).mp hget).1
  cases msg with
  | none =>
      obtain ⟨rfl, rfl⟩ := Prod.mk.inj hresult
      exact .inl ⟨_, messages, hitems, rfl, rfl⟩
  | some text =>
      have hsend : FakeWebSocket.sendText { ws with messages := messages } ("echo: " ++ text) =
          .ok { ws with messages := messages, sent := ws.sent ++ ["echo: " ++ text] } :=
        if_neg (by simp [hopen])
      simp only [hsend] at hresult
      obtain ⟨rfl, rfl⟩ := Prod.mk.inj hresult
      exact .inr ⟨text, messages, hitems, rfl, rfl⟩

end FakeWebSocket

/-- What the client of a handler has sent. -/
def inbound (i : Nat) (acts : List DemoAction) : List (Option String) :=
  acts.filterMap fun
    | .put j msg => if j = i then some msg else none
    | _ => none

theorem inbound_snoc (i : Nat) (acts : List DemoAction) (a : DemoAction) :
    inbound i (acts ++ [a]) = inbound i acts ++ inbound i [a] :=
  List.filterMap_append

/-- The reply to a text. -/
def reply (text : String) : String := "echo: " ++ text

/-- A handler and what its client has sent: it took some texts and replied to each in turn, and
took EOF if that is how it ended; it has sent one close frame if it has ended. -/
structure EchoHandler.Inv (sent : List (Option String)) (h : EchoHandler) : Prop where
  echoed : ∃ texts : List String,
    sent = texts.map some ++ (if h.outcome = some .returned then [none] else []) ++
      h.ws.messages.items ∧
    h.ws.sent = texts.map reply
  closed : h.ws.closed = h.outcome.isSome
  frames : h.ws.frames = if h.outcome.isSome then [(1001, "Server shutting down")] else []
  graceful : h.outcome ≠ some .raised

namespace EchoHandler

variable {h : EchoHandler} {sent : List (Option String)}

theorem start_inv (clientId connId : String) :
    EchoHandler.Inv [] { ws := { clientId := clientId }, connId := connId } where
  echoed := ⟨[], rfl, rfl⟩
  closed := rfl
  frames := rfl
  graceful := nofun

theorem Inv.put (inv : h.Inv sent) {msg : Option String} {ws : FakeWebSocket}
    (hput : h.ws.put msg = some ws) : EchoHandler.Inv (sent ++ [msg]) { h with ws := ws } := by
  obtain ⟨messages, rfl, hitems⟩ := FakeWebSocket.put_eq_some hput
  obtain ⟨texts, hsent, hreplies⟩ := inv.echoed
  refine ⟨⟨texts, ?_, hreplies⟩, inv.closed, inv.frames, inv.graceful⟩
  rw [hitems, hsent, List.append_assoc _ h.ws.messages.items]

/-- A text is taken and echoed. -/
theorem Inv.echo (inv : h.Inv sent) (hrunning : h.outcome = none) {text : String}
    {messages : AsyncQueue (Option String)}
    (hitems : h.ws.messages.items = some text :: messages.items) :
    EchoHandler.Inv sent { h with
      ws := { h.ws with messages := messages, sent := h.ws.sent ++ ["echo: " ++ text] } } := by
  obtain ⟨texts, hsent, hreplies⟩ := inv.echoed
  refine ⟨⟨texts ++ [text], ?_, ?_⟩, inv.closed, inv.frames, inv.graceful⟩
  · simp [hsent, hitems, hrunning]
  · rw [List.map_append, ← hreplies]
    rfl

/-- The `finally` closes the socket; EOF has been taken if that is what ended the loop. -/
theorem Inv.cleanUp (inv : h.Inv sent) (hrunning : h.outcome = none)
    {exception : HandlerException} {messages : AsyncQueue (Option String)}
    (htaken : h.ws.messages.items =
      (if DemoState.outcomeOf exception = .returned then [none] else []) ++ messages.items)
    (hgraceful : DemoState.outcomeOf exception ≠ .raised) :
    EchoHandler.Inv sent { h with
      ws := FakeWebSocket.close { h.ws with messages := messages } .goingAway
        "Server shutting down"
      outcome := some (DemoState.outcomeOf exception) } := by
  obtain ⟨texts, hsent, hreplies⟩ := inv.echoed
  refine ⟨⟨texts, ?_, hreplies⟩, rfl, ?_, ?_⟩
  · rw [hsent, hrunning, htaken]
    simp only [reduceCtorEq, if_false, List.append_nil, Option.some.injEq, List.append_assoc]
    rfl
  · simp [FakeWebSocket.close, inv.frames, hrunning, CloseCode.value]
  · simpa using hgraceful

end EchoHandler

namespace DemoState

variable {σ τ : DemoState} {i : Nat}

theorem running_eq_some_iff {h : EchoHandler} :
    σ.running i = some h ↔ σ.handlers[i]? = some h ∧ h.outcome = none := by
  rw [running, Option.filter_eq_some_iff, Option.isNone_iff_eq_none]

theorem isDone_eq_false_iff : σ.isDone i = false ↔ ∃ h, σ.running i = some h := by
  rw [isDone, Option.isNone_eq_false_iff, Option.isSome_iff_exists]

/-- What a handler's action does to the handlers and the registry. -/
inductive HandlerStep (σ : DemoState) : DemoState → Prop
  | stays (i : Nat) (h h' : EchoHandler) (hi : σ.handlers[i]? = some h)
      (hid : h'.connId = h.connId) (houtcome : h'.outcome = h.outcome) :
      HandlerStep σ { σ with handlers := σ.handlers.set i h' }
  | ends (i : Nat) (h h' : EchoHandler) (hi : σ.running i = some h)
      (hid : h'.connId = h.connId) (houtcome : h'.outcome.isSome = true) :
      HandlerStep σ { σ with
        registry := σ.registry.deregister h.connId
        handlers := σ.handlers.set i h' }

section Inversion

theorem step_put {msg : Option String} (hstep : σ.step (.put i msg) = some τ) :
    ∃ h ws, σ.handlers[i]? = some h ∧ h.ws.put msg = some ws ∧
      τ = { σ with handlers := σ.handlers.set i { h with ws := ws } } := by
  simp only [step] at hstep
  obtain ⟨h, hi, hmap⟩ := Option.bind_eq_some_iff.mp hstep
  obtain ⟨ws, hput, rfl⟩ := Option.map_eq_some_iff.mp hmap
  exact ⟨h, ws, hi, hput, rfl⟩

theorem step_receive (hstep : σ.step (.receive i) = some τ) :
    ∃ h result ws, σ.running i = some h ∧ i ∉ σ.askedToStop ∧ h.ws.echo = some (result, ws) ∧
      ((∃ exception, result = .error exception ∧ τ = σ.cleanUp i { h with ws := ws } exception) ∨
        (result = .ok () ∧ τ = { σ with handlers := σ.handlers.set i { h with ws := ws } })) := by
  simp only [step] at hstep
  obtain ⟨h, hi, hstep⟩ := Option.bind_eq_some_iff.mp hstep
  split at hstep
  · simp at hstep
  · rename_i hasked
    obtain ⟨⟨result, ws⟩, hecho, rfl⟩ := Option.map_eq_some_iff.mp hstep
    refine ⟨h, result, ws, hi, hasked, hecho, ?_⟩
    cases result with
    | error exception => exact .inl ⟨exception, rfl, rfl⟩
    | ok => exact .inr ⟨rfl, rfl⟩

theorem step_cancelled (hstep : σ.step (.cancelled i) = some τ) :
    ∃ h, σ.running i = some h ∧ i ∈ σ.askedToStop ∧ τ = σ.cleanUp i h .cancelled := by
  simp only [step] at hstep
  obtain ⟨h, hi, hstep⟩ := Option.bind_eq_some_iff.mp hstep
  split at hstep
  · rename_i hasked
    exact ⟨h, hi, hasked, (Option.some.inj hstep).symm⟩
  · simp at hstep

theorem step_waitReturns (hstep : σ.step .waitReturns = some τ) :
    ∃ count tasks, σ.progress = .waiting count tasks ∧
      τ = σ.resume (σ.registry.waitReturned count
        (tasks.dedup.filter fun task => !σ.isDone task)) := by
  simp only [step] at hstep
  split at hstep
  · rename_i count tasks hprogress
    exact ⟨count, tasks, hprogress, (Option.some.inj hstep).symm⟩
  · simp at hstep

theorem step_gatherReturns (hstep : σ.step .gatherReturns = some τ) :
    ∃ count pending, σ.progress = .gathering count pending ∧
      (∀ task ∈ pending, σ.isDone task = true) ∧
      τ = σ.resume (σ.registry.finishClose count) := by
  simp only [step] at hstep
  split at hstep
  · rename_i count pending hprogress
    split at hstep
    · rename_i hall
      exact ⟨count, pending, hprogress, List.all_eq_true.mp hall, (Option.some.inj hstep).symm⟩
    · simp at hstep
  · simp at hstep

theorem step_closeAll (hstep : σ.step .closeAll = some τ) :
    (∃ count, σ.progress = .returned count) ∧ τ = σ.resume σ.registry.closeAll := by
  simp only [step] at hstep
  split at hstep
  · rename_i count hprogress
    exact ⟨⟨count, hprogress⟩, (Option.some.inj hstep).symm⟩
  · simp at hstep

theorem handlerStep_put {msg : Option String} (hstep : σ.step (.put i msg) = some τ) :
    σ.HandlerStep τ := by
  obtain ⟨h, ws, hi, -, rfl⟩ := step_put hstep
  exact .stays i h _ hi rfl rfl

theorem handlerStep_receive (hstep : σ.step (.receive i) = some τ) : σ.HandlerStep τ := by
  obtain ⟨h, result, ws, hi, -, -, ⟨exception, -, rfl⟩ | ⟨-, rfl⟩⟩ := step_receive hstep
  · exact .ends i h _ hi rfl rfl
  · exact .stays i h _ (running_eq_some_iff.mp hi).1 rfl rfl

theorem handlerStep_cancelled (hstep : σ.step (.cancelled i) = some τ) : σ.HandlerStep τ := by
  obtain ⟨h, hi, -, rfl⟩ := step_cancelled hstep
  exact .ends i h _ hi rfl rfl

end Inversion

section Echoes

variable {acts : List DemoAction} {a : DemoAction}

/-- What holds between any two actions of any run. -/
structure Inv (acts : List DemoAction) (σ : DemoState) : Prop where
  handler : ∀ i (h : EchoHandler), σ.handlers[i]? = some h → h.Inv (inbound i acts)
  silent : ∀ i, σ.handlers.length ≤ i → inbound i acts = []

theorem start_inv : Inv [] start where
  handler := by simp [start]
  silent := fun _ _ => rfl

/-- An action that leaves the handlers alone, and with which no client sends. -/
theorem Inv.frame (inv : σ.Inv acts) (ha : ∀ i, inbound i [a] = [])
    (hτ : τ.handlers = σ.handlers) : τ.Inv (acts ++ [a]) := by
  constructor
  case handler =>
    intro i h hi
    rw [inbound_snoc, ha, List.append_nil]
    exact inv.handler i h (hτ ▸ hi)
  case silent =>
    intro i hlen
    rw [inbound_snoc, ha, List.append_nil]
    exact inv.silent i (hτ ▸ hlen)

/-- An action of one handler or its client. -/
theorem Inv.set (inv : σ.Inv acts) {h h' : EchoHandler} (hi : σ.handlers[i]? = some h)
    (ha : ∀ j, j ≠ i → inbound j [a] = []) (hτ : τ.handlers = σ.handlers.set i h')
    (hinv : h'.Inv (inbound i acts ++ inbound i [a])) : τ.Inv (acts ++ [a]) := by
  obtain ⟨hlt, -⟩ := List.getElem?_eq_some_iff.mp hi
  constructor
  case handler =>
    intro j g hj
    rw [inbound_snoc]
    rw [hτ, List.getElem?_set] at hj
    split at hj
    · subst i
      exact Option.some.inj hj ▸ hinv
    · rename_i hne
      rw [ha j (Ne.symm hne), List.append_nil]
      exact inv.handler j g hj
  case silent =>
    intro j hlen
    rw [hτ, List.length_set] at hlen
    rw [inbound_snoc, ha j (by omega), List.append_nil]
    exact inv.silent j hlen

theorem Inv.connect (inv : σ.Inv acts) {draw : Uuid4} {clientId : String} {connectedAt : ℚ}
    (hstep : σ.step (.connect draw clientId connectedAt) = some τ) :
    τ.Inv (acts ++ [.connect draw clientId connectedAt]) := by
  obtain rfl := Option.some.inj hstep
  constructor
  case handler =>
    intro i h hi
    rw [inbound_snoc]
    change h.Inv (inbound i acts ++ [])
    rw [List.append_nil]
    rw [List.getElem?_append] at hi
    split at hi
    · exact inv.handler i h hi
    · rename_i hlen
      rw [List.getElem?_singleton] at hi
      split at hi
      · rw [inv.silent i (by omega), ← Option.some.inj hi]
        exact EchoHandler.start_inv clientId _
      · simp at hi
  case silent =>
    intro i hlen
    rw [List.length_append, List.length_singleton] at hlen
    rw [inbound_snoc, inv.silent i (by omega)]
    rfl

theorem Inv.step (inv : σ.Inv acts) (hstep : σ.step a = some τ) : τ.Inv (acts ++ [a]) := by
  cases a with
  | connect draw clientId connectedAt => exact inv.connect hstep
  | put i msg =>
      obtain ⟨h, ws, hi, hput, rfl⟩ := step_put hstep
      have hi' : inbound i [.put i msg] = [msg] := by simp [inbound]
      refine inv.set hi ?_ rfl (hi' ▸ (inv.handler i h hi).put hput)
      intro j hne
      simp [inbound, Ne.symm hne]
  | receive i =>
      obtain ⟨h, result, ws, hi, -, hecho, hτ⟩ := step_receive hstep
      obtain ⟨hi, hrunning⟩ := running_eq_some_iff.mp hi
      have hinv := inv.handler i h hi
      have hopen : h.ws.closed = false := by rw [hinv.closed, hrunning]; rfl
      obtain ⟨text, messages, hitems, rfl, rfl⟩ | ⟨text, messages, hitems, rfl, rfl⟩ :=
        FakeWebSocket.echo_eq_some hopen hecho
      · obtain ⟨exception, he, rfl⟩ | ⟨he, -⟩ := hτ
        · obtain rfl := Except.error.inj he
          refine inv.set hi (fun _ _ => rfl) rfl ?_
          rw [show inbound i [DemoAction.receive i] = [] from rfl, List.append_nil]
          exact hinv.cleanUp hrunning hitems nofun
        · simp at he
      · obtain ⟨exception, he, -⟩ | ⟨-, rfl⟩ := hτ
        · simp at he
        · refine inv.set hi (fun _ _ => rfl) rfl ?_
          rw [show inbound i [DemoAction.receive i] = [] from rfl, List.append_nil]
          exact hinv.echo hrunning hitems
  | cancelled i =>
      obtain ⟨h, hi, -, rfl⟩ := step_cancelled hstep
      obtain ⟨hi, hrunning⟩ := running_eq_some_iff.mp hi
      refine inv.set hi (fun _ _ => rfl) rfl ?_
      rw [show inbound i [DemoAction.cancelled i] = [] from rfl, List.append_nil]
      exact (inv.handler i h hi).cleanUp hrunning rfl nofun
  | closeAll =>
      obtain ⟨-, rfl⟩ := step_closeAll hstep
      exact inv.frame (fun _ => rfl) rfl
  | waitReturns =>
      obtain ⟨_, _, -, rfl⟩ := step_waitReturns hstep
      exact inv.frame (fun _ => rfl) rfl
  | gatherReturns =>
      obtain ⟨_, _, -, -, rfl⟩ := step_gatherReturns hstep
      exact inv.frame (fun _ => rfl) rfl

theorem inv_of_run (run : Run step start acts σ) : σ.Inv acts :=
  run.invariant start_inv fun _ _ _ _ inv hstep => inv.step hstep

end Echoes

section Drain

variable {count : Nat} {a : DemoAction}

/-- `close_all` is suspended. -/
def suspended (σ : DemoState) : Bool :=
  match σ.progress with
  | .returned _ => false
  | _ => true

/-- A handler that starts draws an id no handler drew before, and `close_all` is not suspended
then. -/
def Orderly (σ : DemoState) : DemoAction → Prop
  | .connect draw _ _ =>
      makeConnectionId draw ∉ σ.handlers.map EchoHandler.connId ∧ σ.suspended = false
  | _ => True

instance (σ : DemoState) (a : DemoAction) : Decidable (σ.Orderly a) :=
  match a with
  | .connect _ _ _ => inferInstanceAs (Decidable (_ ∧ _))
  | .put _ _ | .receive _ | .cancelled _ | .closeAll | .waitReturns | .gatherReturns =>
      .isTrue trivial

/-- Every running handler was asked to stop and is one of these. -/
def Awaits (σ : DemoState) (tasks : List Nat) : Prop :=
  ∀ i h, σ.running i = some h → i ∈ tasks ∧ i ∈ σ.askedToStop

/-- Where a drain stands. -/
inductive Draining (count : Nat) (σ : DemoState) : Prop
  | waiting (tasks : List Nat) (progress : σ.progress = .waiting count tasks)
      (awaits : σ.Awaits tasks)
  | gathering (pending : List Nat) (progress : σ.progress = .gathering count pending)
      (awaits : σ.Awaits pending)
  | returned (progress : σ.progress = .returned count) (ended : ∀ i, σ.running i = none)
      (empty : σ.registry.activeCount = 0)

/-- In an orderly run, the registry lists the running handlers. -/
structure Tracked (σ : DemoState) : Prop where
  nodup : (σ.handlers.map EchoHandler.connId).Nodup
  entry : ∀ connId info, σ.registry.get connId = some info →
    ∃ h, σ.running info.task = some h ∧ h.connId = connId
  registered : ∀ i h, σ.running i = some h →
    ∃ info, σ.registry.get h.connId = some info ∧ info.task = i
  draining : σ.suspended = true → ∃ count, σ.Draining count

section Running

variable {h h' : EchoHandler} (hτ : τ.handlers = σ.handlers.set i h')
include hτ

theorem running_set (hlt : i < σ.handlers.length) (j : Nat) :
    τ.running j =
      if j = i then (some h').filter fun h => h.outcome.isNone else σ.running j := by
  rw [running, hτ, List.getElem?_set]
  split
  · rename_i he
    rw [if_pos he.symm]
  · rename_i hne
    rw [if_neg (Ne.symm hne)]
    rfl

/-- A handler whose outcome stays is running if it was. -/
theorem running_of_stays (hi : σ.handlers[i]? = some h) (houtcome : h'.outcome = h.outcome)
    (j : Nat) :
    τ.running j = if j = i then (σ.running i).map fun _ => h' else σ.running j := by
  obtain ⟨hlt, -⟩ := List.getElem?_eq_some_iff.mp hi
  have hrunning : σ.running i = (some h).filter fun h => h.outcome.isNone := by
    rw [running, hi]
  rw [running_set hτ hlt, hrunning]
  cases ho : h.outcome <;> simp [Option.filter, houtcome, ho]

/-- A handler that ends is the only one that no longer runs. -/
theorem running_of_ends (hi : σ.running i = some h) (houtcome : h'.outcome.isSome = true)
    (j : Nat) : τ.running j = if j = i then none else σ.running j := by
  obtain ⟨hlt, -⟩ := List.getElem?_eq_some_iff.mp (running_eq_some_iff.mp hi).1
  rw [running_set hτ hlt]
  simp [Option.filter, Option.isNone_eq_false_iff.mpr houtcome]

end Running

/-- A handler that runs after an action of a handler ran before it, under the same id. -/
theorem HandlerStep.running_of (hs : σ.HandlerStep τ) {j : Nat} {g' : EchoHandler}
    (hj : τ.running j = some g') : ∃ g, σ.running j = some g ∧ g.connId = g'.connId := by
  cases hs with
  | stays i h h' hi hid houtcome =>
      rw [running_of_stays rfl hi houtcome] at hj
      split at hj
      · subst j
        obtain ⟨g, hg, rfl⟩ := Option.map_eq_some_iff.mp hj
        obtain rfl : h = g := Option.some.inj (hi.symm.trans (running_eq_some_iff.mp hg).1)
        exact ⟨h, hg, hid.symm⟩
      · exact ⟨g', hj, rfl⟩
  | ends i h h' hi hid houtcome =>
      rw [running_of_ends rfl hi houtcome] at hj
      split at hj
      · simp at hj
      · exact ⟨g', hj, rfl⟩

/-- Two running handlers with one id are the same handler. -/
theorem Tracked.running_inj (tracked : σ.Tracked) {j : Nat} {g h : EchoHandler}
    (hi : σ.running i = some h) (hj : σ.running j = some g) (hid : g.connId = h.connId) :
    j = i := by
  have hi' : (σ.handlers.map EchoHandler.connId)[i]? = some h.connId := by
    rw [List.getElem?_map, (running_eq_some_iff.mp hi).1]
    rfl
  have hj' : (σ.handlers.map EchoHandler.connId)[j]? = some h.connId := by
    rw [List.getElem?_map, (running_eq_some_iff.mp hj).1]
    exact congrArg some hid
  obtain ⟨hlt, -⟩ := List.getElem?_eq_some_iff.mp hj'
  exact (List.getElem?_inj hlt tracked.nodup).mp (hj'.trans hi'.symm)

/-- When all the tasks are done, no handler runs. -/
theorem Awaits.ended {tasks : List Nat} (awaits : σ.Awaits tasks)
    (hdone : ∀ task ∈ tasks, σ.isDone task = true) (j : Nat) : σ.running j = none := by
  cases hj : σ.running j with
  | none => rfl
  | some g =>
      have hended := hdone j (awaits j g hj).1
      simp [isDone, hj] at hended

theorem Draining.handlerStep (draining : σ.Draining count) (hs : σ.HandlerStep τ) :
    τ.Draining count := by
  have hprogress : τ.progress = σ.progress := by cases hs <;> rfl
  have hasked : τ.askedToStop = σ.askedToStop := by cases hs <;> rfl
  have hawaits : ∀ tasks, σ.Awaits tasks → τ.Awaits tasks := by
    intro tasks awaits j g' hj
    obtain ⟨g, hg, -⟩ := hs.running_of hj
    rw [hasked]
    exact awaits j g hg
  cases draining with
  | waiting tasks progress awaits =>
      exact .waiting tasks (hprogress.trans progress) (hawaits tasks awaits)
  | gathering pending progress awaits =>
      exact .gathering pending (hprogress.trans progress) (hawaits pending awaits)
  | returned progress ended empty =>
      refine .returned (hprogress.trans progress) ?_ ?_
      · intro j
        rw [Option.eq_none_iff_forall_ne_some]
        intro g' hj
        obtain ⟨g, hg, -⟩ := hs.running_of hj
        simp [ended j] at hg
      · cases hs with
        | stays => exact empty
        | ends i h h' hi => simp [ended i] at hi

/-- The wait is over: the handlers that still run are those that are gathered. -/
theorem Draining.waitReturns (draining : σ.Draining count)
    (hstep : σ.step .waitReturns = some τ) : τ.Draining count := by
  obtain ⟨count', tasks', hprogress, rfl⟩ := step_waitReturns hstep
  cases draining with
  | gathering _ progress _ => simp [progress] at hprogress
  | returned progress _ _ => simp [progress] at hprogress
  | waiting tasks progress awaits =>
      obtain ⟨rfl, rfl⟩ := CloseProgress.waiting.inj (progress.symm.trans hprogress)
      have hmem : ∀ task, task ∈ (tasks.dedup.filter fun task => !σ.isDone task) ↔
          task ∈ tasks ∧ σ.isDone task = false := by simp
      rw [ConnectionRegistry.waitReturned]
      split
      · rename_i hempty
        refine .returned rfl (awaits.ended fun task htask => ?_) rfl
        by_contra hrunning
        have hpending := (hmem task).mpr ⟨htask, by simpa using hrunning⟩
        simp [List.isEmpty_iff.mp hempty] at hpending
      · refine .gathering _ rfl ?_
        intro j g hj
        obtain ⟨htask, hasked⟩ := awaits j g hj
        exact ⟨(hmem j).mpr ⟨htask, isDone_eq_false_iff.mpr ⟨g, hj⟩⟩,
          List.mem_append_left _ hasked⟩

theorem Draining.gatherReturns (draining : σ.Draining count)
    (hstep : σ.step .gatherReturns = some τ) : τ.Draining count := by
  obtain ⟨count', pending', hprogress, hdone, rfl⟩ := step_gatherReturns hstep
  cases draining with
  | waiting _ progress _ => simp [progress] at hprogress
  | returned progress _ _ => simp [progress] at hprogress
  | gathering pending progress awaits =>
      obtain ⟨rfl, rfl⟩ := CloseProgress.gathering.inj (progress.symm.trans hprogress)
      exact .returned rfl (awaits.ended hdone) rfl

/-- A call of `close_all` asks every running handler to stop. -/
theorem Tracked.draining_closeAll (tracked : σ.Tracked) :
    (σ.resume σ.registry.closeAll).Draining σ.registry.activeCount := by
  have htasks : ∀ i h, σ.running i = some h →
      i ∈ σ.registry.connections.values.map ConnectionInfo.task := by
    intro i h hi
    obtain ⟨info, hget, rfl⟩ := tracked.registered i h hi
    have hvalue := (ConnectionRegistry.mem_values_iff _ info).mpr ⟨_, hget⟩
    exact List.mem_map_of_mem hvalue
  have hprogress : (σ.resume σ.registry.closeAll).progress = _ := σ.registry.closeAll_progress
  obtain ⟨hregistry, hcancels⟩ := σ.registry.closeAll_spec
  split at hprogress
  · rename_i hnone
    rw [hnone]
    refine .returned hprogress ?_ ?_
    · intro i
      rw [Option.eq_none_iff_forall_ne_some]
      intro h hi
      obtain ⟨info, hinfo, -⟩ := List.mem_map.mp (htasks i h hi)
      have hlen : σ.registry.connections.values.length = 0 := by
        rw [← hnone, ConnectionRegistry.activeCount, Dict.len, Dict.values, List.length_map]
      rw [List.length_eq_zero_iff.mp hlen] at hinfo
      simp at hinfo
    · change σ.registry.closeAll.registry.activeCount = 0
      rw [hregistry]
      exact hnone
  · refine .waiting _ hprogress ?_
    intro i h hi
    refine ⟨htasks i h hi, List.mem_append_right _ ?_⟩
    rw [hcancels]
    exact htasks i h hi

theorem start_tracked : Tracked start where
  nodup := List.nodup_nil
  entry := by simp [start]
  registered := by simp [running, start]
  draining := nofun

theorem Tracked.handlerStep (tracked : σ.Tracked) (hs : σ.HandlerStep τ) : τ.Tracked := by
  have hids : τ.handlers.map EchoHandler.connId = σ.handlers.map EchoHandler.connId := by
    cases hs with
    | stays i h h' hi hid => exact map_set_of_eq hi hid
    | ends i h h' hi hid => exact map_set_of_eq (running_eq_some_iff.mp hi).1 hid
  have hdraining : τ.suspended = true → ∃ count, τ.Draining count := by
    intro hsuspended
    have hσ : σ.suspended = true := by cases hs <;> exact hsuspended
    obtain ⟨count, draining⟩ := tracked.draining hσ
    exact ⟨count, draining.handlerStep hs⟩
  refine ⟨hids ▸ tracked.nodup, ?_, ?_, hdraining⟩
  case refine_1 =>
    intro connId info hget
    cases hs with
    | stays i h h' hi hid houtcome =>
        obtain ⟨g, hg, hgid⟩ := tracked.entry connId info hget
        rw [running_of_stays rfl hi houtcome]
        split
        · rename_i he
          rw [he] at hg
          obtain rfl : h = g := Option.some.inj (hi.symm.trans (running_eq_some_iff.mp hg).1)
          refine ⟨h', ?_, hid.trans hgid⟩
          rw [hg, Option.map_some]
        · exact ⟨g, hg, hgid⟩
    | ends i h h' hi hid houtcome =>
        change (σ.registry.deregister h.connId).get connId = some info at hget
        rw [ConnectionRegistry.get_deregister] at hget
        split at hget
        · simp at hget
        · rename_i hne
          obtain ⟨g, hg, hgid⟩ := tracked.entry connId info hget
          refine ⟨g, ?_, hgid⟩
          rw [running_of_ends rfl hi houtcome, if_neg]
          · exact hg
          · rintro rfl
            obtain rfl : g = h := Option.some.inj (hg.symm.trans hi)
            exact hne hgid.symm
  case refine_2 =>
    intro j g' hj
    obtain ⟨g, hg, hgid⟩ := hs.running_of hj
    obtain ⟨info, hget, htask⟩ := tracked.registered j g hg
    refine ⟨info, ?_, htask⟩
    rw [← hgid]
    cases hs with
    | stays => exact hget
    | ends i h h' hi hid houtcome =>
        change (σ.registry.deregister h.connId).get g.connId = some info
        rw [ConnectionRegistry.get_deregister, if_neg]
        · exact hget
        · intro he
          obtain rfl := tracked.running_inj hi hg he
          rw [running_of_ends rfl hi houtcome, if_pos rfl] at hj
          simp at hj

theorem Tracked.connect (tracked : σ.Tracked) {draw : Uuid4} {clientId : String}
    {connectedAt : ℚ} (horderly : σ.Orderly (.connect draw clientId connectedAt))
    (hstep : σ.step (.connect draw clientId connectedAt) = some τ) : τ.Tracked := by
  obtain rfl := Option.some.inj hstep
  obtain ⟨hfresh, hquiet⟩ := horderly
  let new : EchoHandler := { ws := { clientId := clientId }, connId := makeConnectionId draw }
  have hrunning : ∀ i, (((σ.handlers ++ [new])[i]?).filter fun h => h.outcome.isNone) =
      if i = σ.handlers.length then some new else σ.running i := by
    intro i
    rw [List.getElem?_append]
    split
    · rename_i hlt
      rw [if_neg (by omega)]
      rfl
    · rename_i hge
      rw [List.getElem?_singleton]
      split
      · rw [if_pos (by omega)]
        rfl
      · rw [if_neg (by omega), running, List.getElem?_eq_none (by omega)]
  have hold : ∀ i h, σ.running i = some h → i < σ.handlers.length ∧
      h.connId ≠ makeConnectionId draw := by
    intro i h hi
    have hi := (running_eq_some_iff.mp hi).1
    refine ⟨(List.getElem?_eq_some_iff.mp hi).1, ?_⟩
    intro he
    exact hfresh (he ▸ List.mem_map_of_mem (List.mem_of_getElem? hi))
  constructor
  case nodup =>
    rw [List.map_append, List.nodup_append]
    refine ⟨tracked.nodup, List.nodup_singleton _, ?_⟩
    rintro connId hmem _ hnew rfl
    obtain rfl : connId = makeConnectionId draw := List.mem_singleton.mp hnew
    exact hfresh hmem
  case entry =>
    intro connId info hget
    rw [ConnectionRegistry.get_register] at hget
    split at hget
    · rename_i he
      obtain rfl := Option.some.inj hget
      exact ⟨new, (hrunning _).trans (if_pos rfl), he.symm⟩
    · obtain ⟨h, hi, hid⟩ := tracked.entry connId info hget
      have hne : info.task ≠ σ.handlers.length := (hold _ h hi).1.ne
      exact ⟨h, ((hrunning _).trans (if_neg hne)).trans hi, hid⟩
  case registered =>
    intro i h hi
    have hi : _ = some h := (hrunning i).symm.trans hi
    split at hi
    · rename_i he
      obtain rfl := Option.some.inj hi
      exact ⟨_, (ConnectionRegistry.get_register _ _ _).trans (if_pos rfl), he.symm⟩
    · obtain ⟨info, hget, htask⟩ := tracked.registered i h hi
      refine ⟨info, ?_, htask⟩
      rw [ConnectionRegistry.get_register, if_neg (hold i h hi).2]
      exact hget
  case draining =>
    intro hsuspended
    exact absurd (hquiet.symm.trans hsuspended) Bool.false_ne_true

/-- The registry is as it was, or no handler runs and it is empty. -/
theorem Tracked.resume (tracked : σ.Tracked) {result : CloseStep}
    (draining : (σ.resume result).Draining count)
    (hget : (∀ connId, result.registry.get connId = σ.registry.get connId) ∨
      (∀ connId, result.registry.get connId = none) ∧ ∀ i, σ.running i = none) :
    (σ.resume result).Tracked := by
  refine ⟨tracked.nodup, ?_, ?_, fun _ => ⟨count, draining⟩⟩
  case refine_1 =>
    intro connId info hinfo
    change result.registry.get connId = some info at hinfo
    rcases hget with hsame | ⟨hnone, -⟩
    · exact tracked.entry connId info ((hsame connId).symm.trans hinfo)
    · simp [hnone] at hinfo
  case refine_2 =>
    intro i h hi
    rcases hget with hsame | ⟨-, hended⟩
    · obtain ⟨info, hinfo, htask⟩ := tracked.registered i h hi
      exact ⟨info, (hsame _).trans hinfo, htask⟩
    · change σ.running i = some h at hi
      simp [hended i] at hi

/-- A drain that has returned left no handler running. -/
theorem Draining.of_returned (draining : σ.Draining count) {result : Nat}
    (hprogress : σ.progress = .returned result) :
    (∀ i, σ.running i = none) ∧ σ.registry.activeCount = 0 ∧ result = count := by
  cases draining with
  | waiting _ progress _ => simp [progress] at hprogress
  | gathering _ progress _ => simp [progress] at hprogress
  | returned progress ended empty =>
      exact ⟨ended, empty, CloseProgress.returned.inj (hprogress.symm.trans progress)⟩

theorem Tracked.finishClose (tracked : σ.Tracked) {result : Nat}
    (draining : (σ.resume (σ.registry.finishClose result)).Draining count) :
    (σ.resume (σ.registry.finishClose result)).Tracked := by
  have hprogress : (σ.resume (σ.registry.finishClose result)).progress = .returned result := rfl
  exact tracked.resume draining (.inr ⟨fun _ => rfl, (draining.of_returned hprogress).1⟩)

theorem Tracked.step (tracked : σ.Tracked) (horderly : σ.Orderly a)
    (hstep : σ.step a = some τ) : τ.Tracked := by
  cases a with
  | connect draw clientId connectedAt => exact tracked.connect horderly hstep
  | put i msg => exact tracked.handlerStep (handlerStep_put hstep)
  | receive i => exact tracked.handlerStep (handlerStep_receive hstep)
  | cancelled i => exact tracked.handlerStep (handlerStep_cancelled hstep)
  | closeAll =>
      obtain ⟨-, rfl⟩ := step_closeAll hstep
      exact tracked.resume tracked.draining_closeAll (.inl σ.registry.get_closeAll)
  | waitReturns =>
      obtain ⟨count', tasks, hprogress, hτ⟩ := step_waitReturns hstep
      obtain ⟨count, draining⟩ := tracked.draining (by simp [suspended, hprogress])
      have draining := draining.waitReturns hstep
      subst hτ
      rw [ConnectionRegistry.waitReturned] at draining ⊢
      split at draining
      · rename_i hempty
        rw [if_pos hempty]
        exact tracked.finishClose draining
      · rename_i hpending
        rw [if_neg hpending]
        exact tracked.resume draining (.inl fun _ => rfl)
  | gatherReturns =>
      obtain ⟨count', pending, hprogress, -, hτ⟩ := step_gatherReturns hstep
      obtain ⟨count, draining⟩ := tracked.draining (by simp [suspended, hprogress])
      have draining := draining.gatherReturns hstep
      subst hτ
      exact tracked.finishClose draining

theorem tracked_of_run {acts : List DemoAction} (run : Run step start acts σ)
    (horderly : EachStep step start (fun _ => Orderly) acts) : σ.Tracked := by
  induction run with
  | nil => exact start_tracked
  | snoc run h ih =>
      obtain ⟨hbefore, hlast⟩ := (EachStep.snoc_iff run).mp horderly
      exact (ih hbefore).step hlast h

/-- The number of handlers that have not ended. -/
def runningCount (σ : DemoState) : Nat := σ.handlers.countP fun h => h.outcome.isNone

/-- `active_count` is the number of running handlers. -/
theorem Tracked.activeCount_eq (tracked : σ.Tracked) :
    σ.registry.activeCount = σ.runningCount := by
  let ids := (σ.handlers.filter fun h => h.outcome.isNone).map EchoHandler.connId
  have hids : ids.Nodup := tracked.nodup.sublist (List.filter_sublist.map _)
  have hmem : ∀ connId, connId ∈ σ.registry.connections.keys ↔ connId ∈ ids := by
    intro connId
    rw [Dict.mem_keys_iff, List.mem_map]
    constructor
    · rintro ⟨info, hget⟩
      obtain ⟨h, hi, hid⟩ := tracked.entry connId info hget
      obtain ⟨hi, hrunning⟩ := running_eq_some_iff.mp hi
      refine ⟨h, List.mem_filter.mpr ⟨List.mem_of_getElem? hi, ?_⟩, hid⟩
      rw [hrunning]
      rfl
    · rintro ⟨h, hmem, rfl⟩
      obtain ⟨hmem, hrunning⟩ := List.mem_filter.mp hmem
      obtain ⟨i, hi⟩ := List.getElem?_of_mem hmem
      have hrun := running_eq_some_iff.mpr ⟨hi, Option.isNone_iff_eq_none.mp hrunning⟩
      obtain ⟨info, hget, -⟩ := tracked.registered i h hrun
      exact ⟨info, hget⟩
  calc σ.registry.activeCount
      = σ.registry.connections.keys.length := Dict.len_eq_length_keys _
    _ = ids.length := ((List.perm_ext_iff_of_nodup (AList.keys_nodup _) hids).mpr hmem).length_eq
    _ = σ.runningCount := by
      rw [List.length_map, runningCount, List.countP_eq_length_filter]

/-- An action other than a handler's start and a call of `close_all`. -/
def OfDrain : DemoAction → Prop
  | .connect _ _ _ => False
  | .closeAll => False
  | _ => True

/-- An action of a handler or of `close_all`, not of a client. -/
def serverSide : DemoAction → Bool
  | .put _ _ => false
  | _ => true

/-- The steps that a drain has left. -/
def remaining (σ : DemoState) : Nat :=
  σ.runningCount +
    match σ.progress with
    | .waiting _ _ => 2
    | .gathering _ _ => 1
    | .returned _ => 0

theorem runningCount_set {h : EchoHandler} (hi : σ.handlers[i]? = some h) (h' : EchoHandler) :
    runningCount { σ with handlers := σ.handlers.set i h' } + (if h.outcome.isNone then 1 else 0) =
      σ.runningCount + if h'.outcome.isNone then 1 else 0 := by
  obtain ⟨hlt, rfl⟩ := List.getElem?_eq_some_iff.mp hi
  have hle : (if σ.handlers[i].outcome.isNone then 1 else 0) ≤ σ.runningCount := by
    split
    · rename_i hrunning
      exact List.countP_pos_iff.mpr ⟨_, List.getElem_mem hlt, hrunning⟩
    · exact Nat.zero_le _
  rw [runningCount, List.countP_set hlt]
  change σ.runningCount - _ + _ + _ = _
  omega

/-- A drain goes on, and every step of the server uses up one of those that are left. -/
theorem Draining.step (draining : σ.Draining count) (ha : OfDrain a)
    (hstep : σ.step a = some τ) :
    τ.Draining count ∧ τ.remaining ≤ σ.remaining ∧
      (serverSide a = true → τ.remaining < σ.remaining) := by
  cases a with
  | connect _ _ _ => exact ha.elim
  | closeAll => exact ha.elim
  | put i msg =>
      have hs := handlerStep_put hstep
      obtain ⟨h, ws, hi, -, rfl⟩ := step_put hstep
      have hcount := runningCount_set hi { h with ws := ws }
      refine ⟨draining.handlerStep hs, ?_, nofun⟩
      exact Nat.add_le_add_right (Nat.add_right_cancel hcount).le _
  | receive i =>
      obtain ⟨h, result, ws, hi, hasked, -⟩ := step_receive hstep
      cases draining with
      | waiting tasks progress awaits => exact absurd (awaits i h hi).2 hasked
      | gathering pending progress awaits => exact absurd (awaits i h hi).2 hasked
      | returned progress ended empty => simp [ended i] at hi
  | cancelled i =>
      have hs := handlerStep_cancelled hstep
      obtain ⟨h, hi, -, rfl⟩ := step_cancelled hstep
      obtain ⟨hi, hrunning⟩ := running_eq_some_iff.mp hi
      have hcount := runningCount_set hi { h with
        ws := h.ws.close .goingAway "Server shutting down"
        outcome := some (outcomeOf .cancelled) }
      rw [hrunning] at hcount
      have hlt : (σ.cleanUp i h .cancelled).remaining < σ.remaining :=
        Nat.add_lt_add_right (Nat.lt_of_succ_le hcount.le) _
      exact ⟨draining.handlerStep hs, hlt.le, fun _ => hlt⟩
  | waitReturns =>
      have hτ := draining.waitReturns hstep
      obtain ⟨count', tasks, hprogress, rfl⟩ := step_waitReturns hstep
      have hlt : remaining (σ.resume (σ.registry.waitReturned count'
          (tasks.dedup.filter fun task => !σ.isDone task))) < σ.remaining := by
        rw [ConnectionRegistry.waitReturned]
        simp only [remaining, hprogress]
        split
        · exact Nat.add_lt_add_left Nat.zero_lt_two _
        · exact Nat.add_lt_add_left Nat.one_lt_two _
      exact ⟨hτ, hlt.le, fun _ => hlt⟩
  | gatherReturns =>
      have hτ := draining.gatherReturns hstep
      obtain ⟨count', pending, hprogress, -, rfl⟩ := step_gatherReturns hstep
      have hlt : remaining (σ.resume (σ.registry.finishClose count')) < σ.remaining := by
        simp only [remaining, hprogress]
        exact Nat.lt_add_one _
      exact ⟨hτ, hlt.le, fun _ => hlt⟩

/-- Until `close_all` has returned, the server can take a step. -/
theorem Draining.enabled (draining : σ.Draining count)
    (hprogress : ¬ ∃ result, σ.progress = .returned result) :
    ∃ a, OfDrain a ∧ serverSide a = true ∧ (σ.step a).isSome = true := by
  cases draining with
  | returned progress _ _ => exact absurd ⟨count, progress⟩ hprogress
  | waiting tasks progress awaits =>
      exact ⟨.waitReturns, trivial, rfl, by simp [DemoState.step, progress]⟩
  | gathering pending progress awaits =>
      by_cases hdone : pending.all σ.isDone = true
      · exact ⟨.gatherReturns, trivial, rfl, by simp [DemoState.step, progress, hdone]⟩
      · obtain ⟨task, hmem, hrunning⟩ : ∃ task ∈ pending, σ.isDone task = false := by
          simpa using hdone
        obtain ⟨h, hi⟩ := isDone_eq_false_iff.mp hrunning
        have hasked := (awaits task h hi).2
        exact ⟨.cancelled task, trivial, rfl, by simp [DemoState.step, hi, hasked]⟩

section Call

variable {acts more : List DemoAction} {called : DemoState} (run : Run step start acts σ)
  (horderly : EachStep step start (fun _ => Orderly) acts)
  (hcall : σ.step .closeAll = some called) (rest : Run step called more τ)
  (hmore : ∀ a ∈ more, OfDrain a)
include run horderly hcall rest hmore

/-- However a drain of an orderly run has gone on, it is in one of its three phases, and the
steps taken so far are steps it no longer has. -/
theorem draining_of_run :
    τ.Draining σ.runningCount ∧ more.countP serverSide + τ.remaining ≤ σ.runningCount + 2 := by
  have tracked := tracked_of_run run horderly
  obtain ⟨-, rfl⟩ := step_closeAll hcall
  have draining := tracked.activeCount_eq ▸ tracked.draining_closeAll
  obtain ⟨hτ, hbound⟩ := rest.countP_add_le (I := Draining σ.runningCount) (μ := remaining)
    (fun _ _ _ ha hs hstep => hs.step ha hstep) draining hmore
  refine ⟨hτ, hbound.trans ?_⟩
  change σ.runningCount + _ ≤ σ.runningCount + 2
  apply Nat.add_le_add_left
  split <;> decide

/-- A `close_all` called in any state of an orderly run, and returned after any actions of the
handlers and their clients: its result is the number of handlers that ran at the call, and every
handler has ended gracefully. Its client, told so by one close frame, was sent the echo of all
that the handler took from its queue. -/
theorem close_all_ends_handlers {result : Nat} (hreturned : τ.progress = .returned result) :
    result = σ.runningCount ∧ τ.registry.activeCount = 0 ∧
      ∀ i h, τ.handlers[i]? = some h →
        (h.outcome = some .returned ∨ h.outcome = some .cancelled) ∧ h.ws.closed = true ∧
        h.ws.frames = [(1001, "Server shutting down")] ∧
        ∃ texts : List String,
          inbound i (acts ++ .closeAll :: more) =
            texts.map some ++ (if h.outcome = some .returned then [none] else []) ++
              h.ws.messages.items ∧
          h.ws.sent = texts.map reply := by
  obtain ⟨draining, -⟩ := draining_of_run run horderly hcall rest hmore
  obtain ⟨hended, hempty, hresult⟩ := draining.of_returned hreturned
  refine ⟨hresult, hempty, ?_⟩
  intro i h hi
  have inv := (inv_of_run (run.append (Run.cons_iff.mpr ⟨called, hcall, rest⟩))).handler i h hi
  have hsome : h.outcome.isSome = true := by
    rw [← Option.not_isNone, Bool.not_eq_true']
    by_contra hnone
    have hnone := Option.isNone_iff_eq_none.mp (by simpa using hnone)
    have hrunning := running_eq_some_iff.mpr ⟨hi, hnone⟩
    simp [hended i] at hrunning
  refine ⟨?_, inv.closed.trans hsome, inv.frames.trans (if_pos hsome), inv.echoed⟩
  have hgraceful := inv.graceful
  obtain ⟨outcome, houtcome⟩ := Option.isSome_iff_exists.mp hsome
  rw [houtcome] at hgraceful ⊢
  cases outcome with
  | returned => exact .inl rfl
  | cancelled => exact .inr rfl
  | raised => exact absurd rfl hgraceful

end Call

/-- Two handlers: one has replied to a text and ends on its client's EOF, the other one has a
text waiting when `close_all` is called. -/
def helloActs : List DemoAction :=
  [.connect (ServerState.uuid (.last 15) (.last 15)) "hello-client" 0,
    .connect (ServerState.uuid (.castSucc (.last 14)) (.last 15)) "world-client" 1,
    .put 0 (some "hello"), .receive 0, .put 1 (some "world"), .receive 1, .put 0 none, .receive 0,
    .put 1 (some "late")]

/-- A text arrives during the drain, which the timeout of `asyncio.wait` cuts short. -/
def helloDrain : List DemoAction :=
  [.put 1 (some "later"), .waitReturns, .cancelled 1, .gatherReturns]

theorem close_all_ends_two_handlers :
    let σ := (exec step start helloActs).get (by decide +kernel)
    let called := (σ.step .closeAll).get (by decide +kernel)
    let τ := (exec step called helloDrain).get (by decide +kernel)
    τ.progress = .returned 1 ∧ 1 = σ.runningCount ∧ τ.registry.activeCount = 0 := by
  intro σ called τ
  have run : Run step start helloActs σ := run_get (by decide +kernel)
  have horderly : EachStep step start (fun _ => Orderly) helloActs := by decide +kernel
  have hcall : σ.step .closeAll = some called := (Option.some_get (by decide +kernel)).symm
  have rest : Run step called helloDrain τ := run_get (by decide +kernel)
  have hmore : ∀ a ∈ helloDrain, OfDrain a := by simp [helloDrain, OfDrain]
  have hreturned : τ.progress = .returned 1 := by decide +kernel
  obtain ⟨hresult, hempty, -⟩ := close_all_ends_handlers run horderly hcall rest hmore hreturned
  exact ⟨hreturned, hresult, hempty⟩

end Drain

end DemoState

namespace BrokenHandler

/-- What the client of the broken handler has sent. -/
def inbound (acts : List BrokenAction) : List (Option String) :=
  acts.filterMap fun
    | .put msg => some msg
    | _ => none

theorem inbound_snoc (acts : List BrokenAction) (a : BrokenAction) :
    inbound (acts ++ [a]) = inbound acts ++ inbound [a] :=
  List.filterMap_append

/-- What holds between any two actions. -/
structure Inv (acts : List BrokenAction) (h : BrokenHandler) : Prop where
  echoed : ∃ taken, inbound acts = taken ++ h.ws.messages.items ∧
    h.ws.sent = (taken.filterMap id).map reply
  silent : h.ws.closed = false ∧ h.ws.frames = []
  outcome : h.outcome = if .cancel ∈ acts then some .cancelled else none

variable {acts : List BrokenAction} {a : BrokenAction} {h h' : BrokenHandler}

theorem Inv.step (inv : h.Inv acts) (hstep : h.step a = some h') : h'.Inv (acts ++ [a]) := by
  obtain ⟨taken, htaken, hsent⟩ := inv.echoed
  cases a with
  | put msg =>
      obtain ⟨ws, hput, rfl⟩ := Option.map_eq_some_iff.mp hstep
      obtain ⟨messages, rfl, hitems⟩ := FakeWebSocket.put_eq_some hput
      refine ⟨⟨taken, ?_, hsent⟩, inv.silent, by simpa using inv.outcome⟩
      rw [inbound_snoc, htaken, hitems, List.append_assoc]
      rfl
  | receive =>
      simp only [BrokenHandler.step] at hstep
      split at hstep
      · simp at hstep
      · obtain ⟨⟨result, ws⟩, hecho, rfl⟩ := Option.map_eq_some_iff.mp hstep
        have houtcome : h.outcome =
            if .cancel ∈ acts ++ [.receive] then some .cancelled else none := by
          simpa using inv.outcome
        obtain ⟨text, messages, hitems, rfl, rfl⟩ | ⟨text, messages, hitems, rfl, rfl⟩ :=
          FakeWebSocket.echo_eq_some inv.silent.1 hecho
        · refine ⟨⟨taken ++ [none], ?_, ?_⟩, inv.silent, houtcome⟩
          · rw [inbound_snoc, htaken, hitems]
            simp [inbound, BrokenHandler.except]
          · simpa [BrokenHandler.except] using hsent
        · refine ⟨⟨taken ++ [some text], ?_, ?_⟩, inv.silent, houtcome⟩
          · rw [inbound_snoc, htaken, hitems]
            simp [inbound]
          · simp [hsent, reply]
  | cancel =>
      simp only [BrokenHandler.step] at hstep
      split at hstep
      · simp at hstep
      · obtain rfl := Option.some.inj hstep
        refine ⟨⟨taken, ?_, hsent⟩, inv.silent, by simp [BrokenHandler.except]⟩
        rw [inbound_snoc, htaken]
        exact List.append_nil _

/-- Nothing but a cancellation ends the broken handler, no EOF either: it goes on to echo all it
takes, and its client is never sent a close frame. -/
theorem broken_handler_never_closes {clientId : String}
    (run : Run step { ws := { clientId := clientId } } acts h) :
    (h.outcome = if .cancel ∈ acts then some .cancelled else none) ∧
      h.ws.closed = false ∧ h.ws.frames = [] ∧
      ∃ taken, inbound acts = taken ++ h.ws.messages.items ∧
        h.ws.sent = (taken.filterMap id).map reply := by
  have inv : h.Inv acts := by
    refine run.invariant (I := Inv) ⟨⟨[], rfl, rfl⟩, ⟨rfl, rfl⟩, rfl⟩ ?_
    exact fun _ _ _ _ inv hstep => inv.step hstep
  exact ⟨inv.outcome, inv.silent.1, inv.silent.2, inv.echoed⟩

/-- EOF does not end it, and the text after EOF is echoed too. -/
def brokenActs : List BrokenAction :=
  [.put (some "hello"), .put none, .put (some "world"), .receive, .receive, .receive, .cancel]

theorem broken_handler_outlives_eof :
    let h := (exec step { ws := { clientId := "broken-client" } } brokenActs).get (by decide)
    h.ws.sent = ["echo: hello", "echo: world"] ∧ h.outcome = some .cancelled ∧
      h.ws.closed = false := by
  intro h
  have run : Run step { ws := { clientId := "broken-client" } } brokenActs h := run_get (by decide)
  have hbroken := broken_handler_never_closes run
  exact ⟨by decide, hbroken.1.trans (by decide), hbroken.2.1⟩

end BrokenHandler

end WebSocketPatterns.ShutdownDemo
