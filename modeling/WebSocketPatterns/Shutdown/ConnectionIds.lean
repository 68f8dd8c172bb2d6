import WebSocketPatterns.Collections.Hex
import WebSocketPatterns.Shutdown.Registry
import WebSocketPatterns.Transition.Run
import Mathlib.Data.List.Perm.Subperm

/-!
# Connection ids and the handlers that draw them

`make_connection_id` keeps the first eight hexadecimal digits of a UUID, which
are 32 of its 122 random bits. A handler draws an id, registers under it, and
deregisters it when it exits; two handlers that are live at once with the same
eight digits share one entry of the registry.
-/

namespace WebSocketPatterns.Shutdown

open Transition

/-- A value of `uuid4()`: 128 bits, of which the version and the variant are fixed. -/
structure Uuid4 where
  int : Nat
  bounded : int < 2 ^ 128
  version : int / 2 ^ 76 % 16 = 4
  variant : int / 2 ^ 62 % 4 = 2
deriving DecidableEq

namespace Uuid4

/-- `str(uuid)`: 32 hexadecimal digits in groups of 8, 4, 4, 4 and 12. -/
def str (u : Uuid4) : String :=
  let hex := hexDigits 32 u.int
  String.ofList (hex.take 8 ++ '-' :: ((hex.drop 8).take 4 ++ '-' :: ((hex.drop 12).take 4 ++
    '-' :: ((hex.drop 16).take 4 ++ '-' :: hex.drop 20))))

/-- The 32 most significant bits. -/
def timeLow (u : Uuid4) : Nat := u.int / 2 ^ 96

end Uuid4

/-- `make_connection_id()`, given the UUID it draws. -/
def makeConnectionId (draw : Uuid4) : String := String.ofList (draw.str.toList.take 8)

theorem makeConnectionId_eq (u : Uuid4) :
    makeConnectionId u = String.ofList (hexDigits 8 u.timeLow) := by
  have hlead : (hexDigits 32 u.int).take 8 = hexDigits 8 u.timeLow :=
    HexDigits.take_eq 8 24 u.int
  rw [makeConnectionId, Uuid4.str, String.toList_ofList, hlead, List.take_left']
  exact HexDigits.length_eq 8 u.timeLow

/-- Two draws give the same id exactly when their first 32 bits agree. -/
theorem makeConnectionId_eq_iff (u v : Uuid4) :
    makeConnectionId u = makeConnectionId v ↔ u.timeLow = v.timeLow := by
  have hbound : ∀ w : Uuid4, w.timeLow < 16 ^ 8 := by
    intro w
    exact Nat.div_lt_of_lt_mul (lt_of_lt_of_eq w.bounded (by norm_num))
  rw [makeConnectionId_eq, makeConnectionId_eq, String.ofList_inj]
  exact HexDigits.inj (hbound u) (hbound v)

/-- A handler that has registered and has not exited. -/
structure LiveHandler where
  draw : Uuid4
  info : ConnectionInfo
deriving DecidableEq

/-- The registry, the UUIDs drawn so far, and the live handlers in the order they connected. -/
structure ServerState where
  registry : ConnectionRegistry
  drawn : List Uuid4
  live : List LiveHandler

/-- A handler draws its id and registers, or deregisters and exits; handlers are named by
their position among the live ones. -/
inductive ServerAction
  | connect (draw : Uuid4) (clientId : String) (connectedAt : ℚ) (task : Nat)
  | exit (handler : Nat)
deriving DecidableEq

namespace ServerState

/-- An empty registry; nothing was drawn. -/
def start : ServerState where
  registry := ConnectionRegistry.new
  drawn := []
  live := []

/-- One action; `none` when there is no such handler, or the UUID was drawn before. -/
def step (σ : ServerState) : ServerAction → Option ServerState
  | .connect draw clientId connectedAt task =>
      if draw ∈ σ.drawn then none
      else
        let info : ConnectionInfo := ⟨makeConnectionId draw, clientId, connectedAt, task⟩
        some
          { registry := σ.registry.register info
            drawn := draw :: σ.drawn
            live := σ.live ++ [⟨draw, info⟩] }
  | .exit i =>
      (σ.live[i]?).map fun h =>
        { σ with
          registry := σ.registry.deregister h.info.connectionId
          live := σ.live.eraseIdx i }

/-- The registry counts the live handlers and has the own entry of each, so that a
`close_all` started now cancels them all. -/
structure TracksLive (σ : ServerState) : Prop where
  counted : σ.registry.activeCount = σ.live.length
  found : ∀ h ∈ σ.live, σ.registry.get h.info.connectionId = some h.info
  cancelled : ∀ h ∈ σ.live, h.info.task ∈ σ.registry.closeAll.cancels

/-- No handler connects with a UUID whose first 32 bits are those of a live handler's. -/
def DrawsApart (σ : ServerState) : ServerAction → Prop
  | .connect draw _ _ _ => ∀ h ∈ σ.live, h.draw.timeLow ≠ draw.timeLow
  | .exit _ => True

instance (σ : ServerState) (a : ServerAction) : Decidable (σ.DrawsApart a) := by
  cases a <;> unfold DrawsApart <;> infer_instance

/-- What holds between any two actions: every entry is that of a live handler, which drew
its key. -/
structure Inv (σ : ServerState) : Prop where
  drew : ∀ h ∈ σ.live, h.info.connectionId = makeConnectionId h.draw
  owned : ∀ connectionId info, σ.registry.get connectionId = some info →
    ∃ h ∈ σ.live, h.info = info ∧ info.connectionId = connectionId

theorem start_inv : start.Inv where
  drew := by simp [start]
  owned := by simp [start]

/-- The ids of the live handlers. -/
def liveIds (σ : ServerState) : List String := σ.live.map fun h => h.info.connectionId

/-- The last clause follows from the second: `close_all` cancels whatever is found. -/
theorem tracksLive_of_found {σ : ServerState} (hcount : σ.registry.activeCount = σ.live.length)
    (hfound : ∀ h ∈ σ.live, σ.registry.get h.info.connectionId = some h.info) :
    σ.TracksLive where
  counted := hcount
  found := hfound
  cancelled := by
    intro h hmem
    rw [σ.registry.closeAll_spec.2]
    apply List.mem_map_of_mem
    exact (σ.registry.mem_values_iff h.info).mpr ⟨_, hfound h hmem⟩

section Steps

variable {σ τ : ServerState} {a : ServerAction}

theorem step_connect {draw : Uuid4} {clientId : String} {connectedAt : ℚ} {task : Nat}
    (h : σ.step (.connect draw clientId connectedAt task) = some τ) :
    τ = { registry :=
            σ.registry.register ⟨makeConnectionId draw, clientId, connectedAt, task⟩
          drawn := draw :: σ.drawn
          live := σ.live ++ [⟨draw, ⟨makeConnectionId draw, clientId, connectedAt, task⟩⟩] } := by
  simp only [step] at h
  split at h
  · simp at h
  · exact (Option.some.inj h).symm

theorem Inv.step (inv : σ.Inv) (h : σ.step a = some τ) : τ.Inv := by
  cases a with
  | connect draw clientId connectedAt task =>
      obtain rfl := step_connect h
      constructor
      · intro handler hmem
        rcases List.mem_append.mp hmem with hmem | hmem
        · exact inv.drew handler hmem
        · obtain rfl := List.mem_singleton.mp hmem
          rfl
      · intro connectionId info hget
        rw [ConnectionRegistry.get_register] at hget
        split at hget
        · rename_i hid
          obtain rfl := Option.some.inj hget
          exact ⟨_, List.mem_append_right _ (List.mem_singleton.mpr rfl), rfl, hid.symm⟩
        · obtain ⟨handler, hmem, hinfo⟩ := inv.owned connectionId info hget
          exact ⟨handler, List.mem_append_left _ hmem, hinfo⟩
  | exit i =>
      obtain ⟨gone, hi, rfl⟩ := Option.map_eq_some_iff.mp h
      constructor
      · intro handler hmem
        exact inv.drew handler (List.mem_of_mem_eraseIdx hmem)
      · intro connectionId info hget
        rw [ConnectionRegistry.get_deregister] at hget
        split at hget
        · simp at hget
        · rename_i hne
          obtain ⟨handler, hmem, rfl, hid⟩ := inv.owned connectionId info hget
          refine ⟨handler, ?_, rfl, hid⟩
          obtain ⟨j, hj⟩ := List.mem_iff_getElem?.mp hmem
          rw [List.mem_eraseIdx_iff_getElem?]
          refine ⟨j, ?_, hj⟩
          rintro rfl
          obtain rfl := Option.some.inj (hj.symm.trans hi)
          exact hne hid.symm

/-- Where the registry tracks the live handlers, their ids are distinct: it has no other
keys, and as many entries as there are handlers. -/
theorem Inv.nodup_liveIds (inv : σ.Inv) (htracks : σ.TracksLive) : σ.liveIds.Nodup := by
  have hsub : σ.registry.connections.keys ⊆ σ.liveIds := by
    intro connectionId hkey
    obtain ⟨info, hget⟩ := (Dict.mem_keys_iff _ connectionId).mp hkey
    obtain ⟨handler, hmem, rfl, hid⟩ := inv.owned connectionId info hget
    exact List.mem_map.mpr ⟨handler, hmem, hid⟩
  have hlen : σ.liveIds.length ≤ σ.registry.connections.keys.length := by
    have hkeys : σ.registry.connections.keys.length = σ.registry.activeCount :=
      List.length_map _
    rw [hkeys, htracks.counted, liveIds, List.length_map]
  have hperm : σ.registry.connections.keys.Perm σ.liveIds :=
    (List.subperm_of_subset σ.registry.connections.keys_nodup hsub).perm_of_length_le hlen
  exact hperm.nodup_iff.mp σ.registry.connections.keys_nodup

/-- A handler that connects is tracked exactly when its draw is apart from the live ones. -/
theorem Inv.connect_tracksLive_iff (inv : σ.Inv) (htracks : σ.TracksLive) {draw : Uuid4}
    {clientId : String} {connectedAt : ℚ} {task : Nat}
    (h : σ.step (.connect draw clientId connectedAt task) = some τ) :
    τ.TracksLive ↔ ∀ handler ∈ σ.live, handler.draw.timeLow ≠ draw.timeLow := by
  obtain rfl := step_connect h
  have hsame : ∀ handler ∈ σ.live, handler.info.connectionId = makeConnectionId draw ↔
      handler.draw.timeLow = draw.timeLow := by
    intro handler hmem
    rw [inv.drew handler hmem]
    exact makeConnectionId_eq_iff handler.draw draw
  constructor
  · intro htracks' handler hmem hlow
    -- the new entry replaces that of a live handler, so there is one entry too few
    have hkey : (σ.registry.get (makeConnectionId draw)).isSome = true := by
      rw [← (hsame handler hmem).mpr hlow, htracks.found handler hmem]
      rfl
    have hcount := htracks'.counted
    rw [ConnectionRegistry.activeCount_register, if_pos hkey, htracks.counted,
      List.length_append, List.length_singleton] at hcount
    omega
  · intro hapart
    have hfree : (σ.registry.get (makeConnectionId draw)).isSome = false := by
      rw [Option.isSome_eq_false_iff, Option.isNone_iff_eq_none,
        Option.eq_none_iff_forall_ne_some]
      intro info hget
      obtain ⟨handler, hmem, rfl, hid⟩ := inv.owned _ info hget
      exact hapart handler hmem ((hsame handler hmem).mp hid)
    apply tracksLive_of_found
    · rw [ConnectionRegistry.activeCount_register, hfree, htracks.counted, List.length_append]
      rfl
    · intro handler hmem
      rw [ConnectionRegistry.get_register]
      rcases List.mem_append.mp hmem with hmem | hmem
      · rw [if_neg (fun hid => hapart handler hmem ((hsame handler hmem).mp hid))]
        exact htracks.found handler hmem
      · obtain rfl := List.mem_singleton.mp hmem
        exact if_pos rfl

/-- An exit removes the entry of the handler that exits, and of no other. -/
theorem Inv.exit_tracksLive (inv : σ.Inv) (htracks : σ.TracksLive) {i : Nat}
    (h : σ.step (.exit i) = some τ) : τ.TracksLive := by
  obtain ⟨gone, hi, rfl⟩ := Option.map_eq_some_iff.mp h
  have hlt : i < σ.live.length := (List.getElem?_eq_some_iff.mp hi).1
  have hmem : gone ∈ σ.live := List.mem_of_getElem? hi
  apply tracksLive_of_found
  · rw [ConnectionRegistry.activeCount_deregister, htracks.found gone hmem, htracks.counted,
      List.length_eraseIdx_of_lt hlt]
    rfl
  · intro handler hstays
    obtain ⟨j, hne, hj⟩ := List.mem_eraseIdx_iff_getElem?.mp hstays
    have hid : handler.info.connectionId ≠ gone.info.connectionId := by
      intro he
      apply hne
      have hjlt : j < σ.liveIds.length := by
        rw [liveIds, List.length_map]
        exact (List.getElem?_eq_some_iff.mp hj).1
      apply (List.getElem?_inj hjlt (inv.nodup_liveIds htracks)).mp
      simp [liveIds, hi, hj, he]
    rw [ConnectionRegistry.get_deregister, if_neg hid]
    exact htracks.found handler (List.mem_of_getElem? hj)

theorem Inv.step_tracksLive_iff (inv : σ.Inv) (htracks : σ.TracksLive)
    (h : σ.step a = some τ) : τ.TracksLive ↔ σ.DrawsApart a := by
  cases a with
  | connect draw clientId connectedAt task => exact inv.connect_tracksLive_iff htracks h
  | exit i => exact iff_of_true (inv.exit_tracksLive htracks h) trivial

end Steps

theorem inv_of_run {acts : List ServerAction} {σ : ServerState}
    (run : Run step start acts σ) : σ.Inv :=
  run.invariant (I := fun _ σ => σ.Inv) start_inv fun _ _ _ _ inv h => inv.step h

/-- In every state of a run the registry tracks the live handlers if and only if no handler
connects while one is live whose UUID has the same first 32 bits. -/
theorem tracks_live_iff {acts : List ServerAction} {σ : ServerState}
    (run : Run step start acts σ) :
    Throughout step start (fun _ σ => σ.TracksLive) acts ↔
      EachStep step start (fun _ σ a => σ.DrawsApart a) acts := by
  refine throughout_iff_eachStep ?_ ?_ run
  · exact tracksLive_of_found rfl (by simp [start])
  · intro _ _ _ _ run htracks h
    exact (inv_of_run run).step_tracksLive_iff htracks h

/-- The UUID with these first 32 bits and these last 48, and zeros where it is free. -/
def uuid (timeLow node : Fin 16) : Uuid4 where
  int := timeLow * 2 ^ 96 + 4 * 2 ^ 76 + 2 * 2 ^ 62 + node
  bounded := by omega
  version := by omega
  variant := by omega

/-- The first bits of an exited handler's UUID are drawn again. -/
def redrawnActs : List ServerAction :=
  [.connect (uuid 1 1) "u" 0 0, .connect (uuid 2 1) "v" 1 1, .exit 0, .connect (uuid 1 2) "w" 2 2]

theorem tracks_live_redrawn :
    Throughout step start (fun _ σ => σ.TracksLive) redrawnActs := by
  have run := run_get (show (exec step start redrawnActs).isSome from by decide +kernel)
  apply (tracks_live_iff run).mpr
  decide +kernel

/-- Two live handlers drew distinct UUIDs with the same first 32 bits. -/
def collidingActs : List ServerAction :=
  [.connect (uuid 1 1) "u" 0 0, .connect (uuid 1 2) "v" 1 1]

/-- The registry has one entry for the two, and `close_all` does not cancel the first. -/
theorem live_handler_overwritten :
    uuid 1 1 ≠ uuid 1 2 ∧ ∃ σ, Run step start collidingActs σ ∧ σ.live.length = 2 ∧
      σ.registry.activeCount = 1 ∧ σ.registry.closeAll.cancels = [1] ∧ ¬ σ.TracksLive := by
  refine ⟨by decide, _, run_get (by decide +kernel), by decide +kernel, by decide +kernel,
    by decide +kernel, ?_⟩
  intro htracks
  exact absurd htracks.counted (by decide +kernel)

end ServerState

end WebSocketPatterns.Shutdown
