import WebSocketPatterns.PubSub.Termination
import Mathlib.Data.List.Dedup

/-!
# The registry as the set of live subscriptions

The abstract registry is one list: the subscriptions that were made and neither
unsubscribed nor closed, in the order they were made. The bus keeps the same
information in one list for each channel, under keys that it creates and pops.
-/

namespace WebSocketPatterns.PubSub

open Transition

variable {P : Type*}

/-- The live subscriptions in subscription order, and how many were ever made. -/
structure Subscriptions where
  made : Nat
  live : List Subscriber
deriving DecidableEq

namespace Subscriptions

/-- No subscription was made. -/
def empty : Subscriptions := ⟨0, []⟩

/-- A subscription is added last; an unsubscription removes one, a close all of a channel. -/
def apply (S : Subscriptions) : BusAction P → Subscriptions
  | .subscribe channel subscriberId maxQueueSize =>
      ⟨S.made + 1, S.live ++ [⟨subscriberId, channel, S.made, maxQueueSize⟩]⟩
  | .unsubscribe r => { S with live := S.live.filter fun sub => decide (sub.queue ≠ r) }
  | .closeChannel channel =>
      { S with live := S.live.filter fun sub => decide (sub.channel ≠ channel) }
  | .publish _ _ _ _ _ => S
  | .consume _ => S

/-- The live subscriptions after the listed actions. -/
def after (acts : List (BusAction P)) : Subscriptions := acts.foldl apply empty

/-- The live subscriptions of one channel. -/
def ofChannel (S : Subscriptions) (channel : String) : List Subscriber :=
  S.live.filter fun sub => decide (sub.channel = channel)

/-- The channels that have a live subscription. -/
def channels (S : Subscriptions) : List String := (S.live.map Subscriber.channel).dedup

theorem mem_channels_iff (S : Subscriptions) (channel : String) :
    channel ∈ S.channels ↔ S.ofChannel channel ≠ [] := by
  rw [channels, List.mem_dedup, List.mem_map, ofChannel, ne_eq, List.filter_eq_nil_iff]
  push Not
  simp

theorem channels_nodup (S : Subscriptions) : S.channels.Nodup := List.nodup_dedup _

end Subscriptions

namespace BusState

/-- The bus has made these subscriptions, and its record of unsubscriptions leaves these live. -/
def Represents (σ : BusState P) (S : Subscriptions) : Prop :=
  S.made = σ.subscribers.length ∧
    S.live = σ.subscribers.filter fun sub => (σ.stopped sub.queue).isNone

theorem start_represents : (start : BusState P).Represents Subscriptions.empty := ⟨rfl, rfl⟩

section Steps

variable {σ τ : BusState P} (inv : σ.Inv) {a : BusAction P} (h : σ.step a = some τ)
include inv

theorem Inv.represents_step {S : Subscriptions} (hS : σ.Represents S) (h : σ.step a = some τ) :
    τ.Represents (S.apply a) := by
  obtain ⟨hmade, hlive⟩ := hS
  have hstopped := inv.step_stopped h
  have hunmarked : ∀ refs r, (σ.markStopped refs r).isNone =
      ((σ.stopped r).isNone && decide (r ∉ refs)) := by
    intro refs r
    rw [Bool.eq_iff_iff, Option.isNone_iff_eq_none, markStopped_eq_none_iff]
    simp
  -- an action that creates no subscriber filters by what it stops
  have hfilter : τ.subscribers = σ.subscribers →
      (τ.subscribers.filter fun sub => (τ.stopped sub.queue).isNone) =
        S.live.filter fun sub => decide (sub.queue ∉ σ.stops a) := by
    intro hsame
    rw [hsame, hstopped, hlive, List.filter_filter]
    apply List.filter_congr
    intro sub _
    rw [hunmarked, Bool.and_comm]
  cases a with
  | subscribe channel subscriberId maxQueueSize =>
      obtain rfl := Option.some.inj h
      have hnew := (inv.known σ.subscribers.length le_rfl).1
      constructor
      · simp [Subscriptions.apply, hmade]
      · simp [Subscriptions.apply, hmade, hlive, InMemoryMessageBus.subscribe, inv.counted, hnew,
          List.filter_append]
  | publish channel payload publisherId skipLagging now =>
      obtain rfl := Option.some.inj h
      exact ⟨hmade, hlive⟩
  | unsubscribe r =>
      obtain ⟨sub, hsub, hqueue, rfl⟩ := inv.step_unsubscribe h
      refine ⟨hmade, ?_⟩
      rw [hfilter rfl]
      simp [Subscriptions.apply, stops]
  | closeChannel channel =>
      obtain rfl := Option.some.inj h
      refine ⟨hmade, ?_⟩
      rw [hfilter rfl]
      apply List.filter_congr
      intro sub hmem
      rw [hlive, List.mem_filter, Option.isNone_iff_eq_none] at hmem
      rw [Bool.eq_iff_iff, decide_eq_true_eq, decide_eq_true_eq, not_iff_not]
      constructor
      · intro hc
        apply List.mem_map_of_mem
        exact (inv.mem_subs_iff channel sub).mpr ⟨hmem.1, hc, hmem.2⟩
      · intro hq
        obtain ⟨other, hother, he⟩ := List.mem_map.mp hq
        obtain ⟨hin, hc, _⟩ := (inv.mem_subs_iff channel other).mp hother
        exact inv.eq_of_queue_eq hin hmem.1 he ▸ hc
  | consume r =>
      obtain ⟨_, _, _, _, rfl⟩ := step_consume h
      exact ⟨hmade, hlive⟩

/-- The lists of the bus are those of the abstract registry, split by channel. -/
theorem Inv.subs_eq_ofChannel {S : Subscriptions} (hS : σ.Represents S) (channel : String) :
    σ.bus.subs channel = S.ofChannel channel := by
  rw [inv.listed, Subscriptions.ofChannel, hS.2, List.filter_filter]
  rfl

/-- A key of the bus has a list, and the list is not empty. -/
theorem Inv.lookup_eq (channel : String) :
    σ.bus.channels.lookup channel =
      if σ.bus.subs channel = [] then none else some (σ.bus.subs channel) := by
  cases hl : σ.bus.channels.lookup channel with
  | none => simp [InMemoryMessageBus.subs, hl]
  | some listed =>
      have hne : listed ≠ [] := by
        rintro rfl
        exact inv.keyed channel hl
      simp [InMemoryMessageBus.subs, hl, hne]

end Steps

theorem represents_after {acts : List (BusAction P)} {σ : BusState P}
    (run : Run step start acts σ) : σ.Represents (Subscriptions.after acts) := by
  induction run with
  | nil => exact start_represents
  | snoc run h ih =>
      rw [Subscriptions.after, List.foldl_append]
      exact (inv_of_run run).represents_step ih h

/-- The channel whose list an action may change. -/
def ownChannel (σ : BusState P) : BusAction P → Option String
  | .subscribe channel _ _ => some channel
  | .unsubscribe r => (σ.subscribers[r]?).map Subscriber.channel
  | .closeChannel channel => some channel
  | _ => none

/-- The registry of the bus says what the live subscriptions say. -/
structure Refines (σ : BusState P) (S : Subscriptions) : Prop where
  lookup : ∀ channel, σ.bus.channels.lookup channel =
    if S.ofChannel channel = [] then none else some (S.ofChannel channel)
  listedOnce : ∀ sub ∈ σ.subscribers, ∀ channel, (σ.bus.subs channel).count sub =
    if sub ∈ S.live ∧ channel = sub.channel then 1 else 0
  ordered : ∀ channel, (σ.bus.subs channel).Sublist σ.subscribers
  distinct : σ.subscribers.Nodup
  channelCount : σ.bus.channelCount = S.channels.length
  subscriberCount : ∀ channel, σ.bus.subscriberCount channel = (S.ofChannel channel).length
  closed : ∀ channel, (σ.bus.closeChannel channel).channels.lookup channel = none
  frame : ∀ a τ, σ.step a = some τ → ∀ channel, σ.ownChannel a ≠ some channel →
    τ.bus.channels.lookup channel = σ.bus.channels.lookup channel

section Refinement

variable {σ : BusState P} (inv : σ.Inv) {S : Subscriptions} (hS : σ.Represents S)
include inv

theorem Inv.subscribers_nodup : σ.subscribers.Nodup :=
  List.Nodup.of_map _ inv.queues_nodup

/-- Each list holds a subscriber once or not at all. -/
theorem Inv.count_subs (channel : String) (sub : Subscriber) :
    (σ.bus.subs channel).count sub = if sub ∈ σ.bus.subs channel then 1 else 0 := by
  have hnodup : (σ.bus.subs channel).Nodup := List.Nodup.of_map _ (inv.subs_queues_nodup channel)
  split
  · rename_i hmem
    exact List.count_eq_one_of_mem hnodup hmem
  · rename_i hmem
    exact List.count_eq_zero_of_not_mem hmem

/-- The keys are the channels that have a live subscription. -/
theorem Inv.channelCount_eq (hS : σ.Represents S) :
    σ.bus.channelCount = S.channels.length := by
  rw [InMemoryMessageBus.channelCount, Dict.len_eq_length_keys]
  apply List.Perm.length_eq
  rw [List.perm_ext_iff_of_nodup σ.bus.channels.keys_nodup S.channels_nodup]
  intro channel
  rw [Dict.mem_keys_iff, S.mem_channels_iff, ← inv.subs_eq_ofChannel hS, inv.lookup_eq]
  split
  · rename_i hempty
    simp [hempty]
  · rename_i hne
    simp [hne]

theorem Inv.lookup_closeChannel (channel : String) :
    (σ.bus.closeChannel channel).channels.lookup channel = none := by
  have inv' := inv.closeChannel channel
  obtain ⟨_, hempty, _⟩ := inv.closeChannel_spec channel
  exact (inv'.lookup_eq channel).trans (if_pos hempty)

/-- An action on one channel leaves the lists of all others as they are. -/
theorem Inv.step_lookup_of_ne {τ : BusState P} {a : BusAction P} (h : σ.step a = some τ)
    {channel : String} (hne : σ.ownChannel a ≠ some channel) :
    τ.bus.channels.lookup channel = σ.bus.channels.lookup channel := by
  cases a with
  | subscribe own subscriberId maxQueueSize =>
      obtain rfl := Option.some.inj h
      have hch : channel ≠ own := fun he => hne (congrArg some he.symm)
      simp [InMemoryMessageBus.subscribe, Dict.lookup_set, hch]
  | publish own payload publisherId skipLagging now =>
      obtain rfl := Option.some.inj h
      simp
  | unsubscribe r =>
      obtain ⟨sub, hsub, hqueue, rfl⟩ := inv.step_unsubscribe h
      have hat := (inv.getElem?_iff r sub).mpr ⟨hsub, hqueue⟩
      have hch : channel ≠ sub.channel := by
        rintro rfl
        exact hne (congrArg (Option.map Subscriber.channel) hat)
      rw [InMemoryMessageBus.unsubscribe_lookup, if_neg hch]
  | closeChannel own =>
      obtain rfl := Option.some.inj h
      have hch : channel ≠ own := fun he => hne (congrArg some he.symm)
      obtain ⟨_, _, hother, _⟩ := inv.closeChannel_spec own
      exact hother channel hch
  | consume r =>
      obtain ⟨_, _, _, _, rfl⟩ := step_consume h
      rfl

end Refinement

/-- After every run the registry is that of the subscriptions made and neither unsubscribed
nor closed, whatever was unsubscribed twice, closed, or created again. -/
theorem registry_refines_live_subscriptions {acts : List (BusAction P)} {σ : BusState P}
    (run : Run step start acts σ) : σ.Refines (Subscriptions.after acts) := by
  have inv := inv_of_run run
  have hS := represents_after run
  constructor
  case lookup =>
    intro channel
    rw [inv.lookup_eq, inv.subs_eq_ofChannel hS]
  case listedOnce =>
    intro sub hsub channel
    rw [inv.count_subs, inv.subs_eq_ofChannel hS, Subscriptions.ofChannel]
    simp only [List.mem_filter, decide_eq_true_eq, eq_comm (a := channel)]
  case ordered =>
    intro channel
    rw [inv.listed]
    exact List.filter_sublist
  case distinct => exact inv.subscribers_nodup
  case channelCount => exact inv.channelCount_eq hS
  case subscriberCount =>
    intro channel
    exact congrArg List.length (inv.subs_eq_ofChannel hS channel)
  case closed => exact inv.lookup_closeChannel
  case frame =>
    intro a τ h channel hne
    exact inv.step_lookup_of_ne h hne

/-- One of two subscribers of the same name leaves twice, the channel is closed and made
again, and the other one leaves the new channel in which it is not listed. -/
def staleActs : List (BusAction Nat) :=
  [.subscribe "ch" "s" 2, .subscribe "ch" "s" 2, .unsubscribe 0, .unsubscribe 0,
    .closeChannel "ch", .subscribe "ch" "s" 2, .unsubscribe 1]

theorem registry_refines_live_subscriptions_stale :
    let σ := (exec step start staleActs).get (by decide)
    σ.bus.channels.lookup "ch" = some [⟨"s", "ch", 2, 2⟩] ∧ σ.bus.channelCount = 1 := by
  have run := run_get (show (exec step start staleActs).isSome from by decide)
  have h := registry_refines_live_subscriptions run
  exact ⟨(h.lookup "ch").trans (by decide), h.channelCount.trans (by decide)⟩

end BusState

end WebSocketPatterns.PubSub
