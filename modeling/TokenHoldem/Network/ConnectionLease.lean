import Mathlib.Data.Finset.Basic
import TokenHoldem.Primitives

/-!
# Connection leases

`ConnectionLeaseBehaviour` of `token-holdem-network/src/connection_lease.rs` tells the handlers
of the connections of a peer, through a queue, whether the peer is retained. A connection may
open or close while commands are queued.

- `Leased` — what every step keeps: once the queued commands are delivered, the handler of every
  live connection keeps it alive exactly if its peer is retained;
- `connection_leases_consistent` — so it does whenever nothing is queued.
-/

namespace TokenHoldem

open Function List

structure ConnectionId where
  index : Nat
deriving DecidableEq

/-- `ToSwarm::NotifyHandler` with `LeaseCommand::SetRetained`. -/
structure LeaseEvent where
  peerId : PeerId
  connectionId : ConnectionId
  retained : Bool
deriving DecidableEq

/-- The map of the source is a function that gives an absent peer no connection. -/
structure ConnectionLeaseBehaviour where
  retainedPeers : Finset PeerId
  connections : PeerId → Finset ConnectionId
  pendingEvents : List LeaseEvent

structure ConnectionLeaseHandler where
  retained : Bool

namespace ConnectionLeaseBehaviour

def initial : ConnectionLeaseBehaviour := ⟨∅, fun _ => ∅, []⟩

variable (state : ConnectionLeaseBehaviour) (peerId : PeerId)

/-- `notify_peer`, with the connections of the peer in the order in which the set is read. -/
def notifyPeer (retained : Bool) (connectionIds : List ConnectionId) : ConnectionLeaseBehaviour :=
  { state with pendingEvents := state.pendingEvents ++
      connectionIds.map fun connectionId => { peerId, connectionId, retained } }

variable (connectionIds : List ConnectionId)

def retainPeer : ConnectionLeaseBehaviour :=
  if peerId ∈ state.retainedPeers then state else
  notifyPeer { state with retainedPeers := insert peerId state.retainedPeers } peerId true
    connectionIds

def releasePeer : ConnectionLeaseBehaviour :=
  if peerId ∈ state.retainedPeers then
    notifyPeer { state with retainedPeers := state.retainedPeers.erase peerId } peerId false
      connectionIds
  else state

/-- `handle_established_inbound_connection` and `handle_established_outbound_connection`. -/
def handleEstablished : ConnectionLeaseHandler := ⟨peerId ∈ state.retainedPeers⟩

/-- `on_swarm_event` for `ConnectionEstablished`. -/
def connectionEstablished (connectionId : ConnectionId) : ConnectionLeaseBehaviour :=
  { state with
    connections := update state.connections peerId
      (insert connectionId (state.connections peerId)) }

/-- `on_swarm_event` for `ConnectionClosed`. -/
def connectionClosed (connectionId : ConnectionId) (remainingEstablished : Nat) :
    ConnectionLeaseBehaviour :=
  { state with
    connections := update state.connections peerId
      (if remainingEstablished = 0 then ∅ else (state.connections peerId).erase connectionId) }

end ConnectionLeaseBehaviour

/-- `on_behaviour_event`, for a handler that the event may or may not be addressed to. -/
def ConnectionLeaseHandler.onEvent (connectionId : ConnectionId) (handler : ConnectionLeaseHandler)
    (event : LeaseEvent) : ConnectionLeaseHandler :=
  if event.connectionId = connectionId then ⟨event.retained⟩ else handler

/-- The behaviour with the live connections and every connection id that was ever given out. -/
structure LeaseSwarm where
  behaviour : ConnectionLeaseBehaviour
  handlers : ConnectionId → Option (PeerId × ConnectionLeaseHandler)
  used : Finset ConnectionId

namespace LeaseSwarm

open ConnectionLeaseBehaviour hiding initial

def initial : LeaseSwarm := ⟨.initial, fun _ => none, ∅⟩

section

variable (swarm : LeaseSwarm) (peerId : PeerId) (connectionId : ConnectionId)

def establish : LeaseSwarm where
  behaviour := swarm.behaviour.connectionEstablished peerId connectionId
  handlers := update swarm.handlers connectionId
    (some (peerId, swarm.behaviour.handleEstablished peerId))
  used := insert connectionId swarm.used

def close (remaining : Nat) : LeaseSwarm := { swarm with
  behaviour := swarm.behaviour.connectionClosed peerId connectionId remaining
  handlers := update swarm.handlers connectionId none }

/-- `remaining` is 0 exactly if the peer has no other connection. -/
def Counts (remaining : Nat) : Prop :=
  remaining = 0 ↔ ∀ other handler,
    swarm.handlers other = some (peerId, handler) → other = connectionId

end

/-- What can happen. The swarm gives out no connection id twice, and knows how many connections
of the peer are left when it reports that one has closed. -/
inductive Step : LeaseSwarm → LeaseSwarm → Prop
  | retain {swarm} (peerId : PeerId) (order : List ConnectionId)
      (read : order.toFinset = swarm.behaviour.connections peerId) :
      Step swarm { swarm with behaviour := swarm.behaviour.retainPeer peerId order }
  | release {swarm} (peerId : PeerId) (order : List ConnectionId)
      (read : order.toFinset = swarm.behaviour.connections peerId) :
      Step swarm { swarm with behaviour := swarm.behaviour.releasePeer peerId order }
  | establish {swarm} (peerId : PeerId) (connectionId : ConnectionId)
      (new : connectionId ∉ swarm.used) : Step swarm (swarm.establish peerId connectionId)
  | close {swarm} (peerId : PeerId) (connectionId : ConnectionId) (handler : ConnectionLeaseHandler)
      (remaining : Nat) (live : swarm.handlers connectionId = some (peerId, handler))
      (counted : swarm.Counts peerId connectionId remaining) :
      Step swarm (swarm.close peerId connectionId remaining)
  /-- `poll` hands the first event to its handler, if the connection is still there. -/
  | poll {swarm} (event : LeaseEvent) (rest : List LeaseEvent)
      (queue : swarm.behaviour.pendingEvents = event :: rest) :
      Step swarm { swarm with
        behaviour := { swarm.behaviour with pendingEvents := rest }
        handlers := fun connectionId => (swarm.handlers connectionId).map fun (peerId, handler) =>
          (peerId, handler.onEvent connectionId event) }

inductive Reach : LeaseSwarm → Prop
  | initial : Reach initial
  | step {swarm next} (reach : Reach swarm) (step : Step swarm next) : Reach next

/-- The behaviour has exactly the live connections. -/
def Tracked (swarm : LeaseSwarm) : Prop :=
  ∀ peerId connectionId, connectionId ∈ swarm.behaviour.connections peerId ↔
    ∃ handler, swarm.handlers connectionId = some (peerId, handler)

structure Leased (swarm : LeaseSwarm) : Prop where
  ids : swarm.Tracked
  settled : ∀ connectionId peerId handler,
    swarm.handlers connectionId = some (peerId, handler) →
      (swarm.behaviour.pendingEvents.foldl (·.onEvent connectionId) handler).retained =
        decide (peerId ∈ swarm.behaviour.retainedPeers)
  usedLive : ∀ connectionId, swarm.handlers connectionId ≠ none → connectionId ∈ swarm.used
  usedEvent : ∀ event ∈ swarm.behaviour.pendingEvents, event.connectionId ∈ swarm.used

variable {swarm next : LeaseSwarm}

theorem Leased.initial : initial.Leased where
  ids _ _ := by simp [LeaseSwarm.initial, ConnectionLeaseBehaviour.initial]
  settled _ _ _ := nofun
  usedLive _ h := absurd rfl h
  usedEvent _ := nofun

variable {connectionId : ConnectionId}

theorem foldl_onEvent_of_forall_ne {events : List LeaseEvent}
    (h : ∀ event ∈ events, event.connectionId ≠ connectionId) (handler : ConnectionLeaseHandler) :
    events.foldl (·.onEvent connectionId) handler = handler := by
  induction events with
  | nil => rfl
  | cons event events ih =>
    obtain ⟨hfirst, hrest⟩ := forall_mem_cons.mp h
    simp only [foldl_cons, ConnectionLeaseHandler.onEvent, if_neg hfirst]
    exact ih hrest

theorem foldl_onEvent_notify (order : List ConnectionId) (peerId : PeerId) (retained : Bool)
    (connectionId : ConnectionId) (handler : ConnectionLeaseHandler) :
    (order.map fun id => LeaseEvent.mk peerId id retained).foldl (·.onEvent connectionId) handler =
      if connectionId ∈ order then ⟨retained⟩ else handler := by
  induction order generalizing handler with
  | nil => rfl
  | cons id order ih =>
    simp only [map_cons, foldl_cons, ih, ConnectionLeaseHandler.onEvent, mem_cons]
    rcases eq_or_ne id connectionId with rfl | hid
    · simp
    · simp [hid, hid.symm]

/-- The peer is retained or released, and all its connections are told. -/
theorem Leased.notify (h : swarm.Leased) {peerId : PeerId} {order : List ConnectionId}
    (read : order.toFinset = swarm.behaviour.connections peerId) (retainedPeers : Finset PeerId)
    (others : ∀ other ≠ peerId, other ∈ retainedPeers ↔ other ∈ swarm.behaviour.retainedPeers) :
    Leased { swarm with
      behaviour := { swarm.behaviour with retainedPeers }.notifyPeer peerId
        (peerId ∈ retainedPeers) order } := by
  have horder : ∀ id, id ∈ order ↔ ∃ handler, swarm.handlers id = some (peerId, handler) := by
    intro id
    rw [← h.ids peerId id, ← read, mem_toFinset]
  refine ⟨h.ids, ?_, h.usedLive, ?_⟩
  · intro id peer handler live
    have hsettled := h.settled id peer handler live
    simp only [notifyPeer, foldl_append, foldl_onEvent_notify]
    by_cases hpeer : peer = peerId
    · subst hpeer
      exact congrArg ConnectionLeaseHandler.retained (if_pos ((horder id).mpr ⟨handler, live⟩))
    · have hnot : id ∉ order := by
        rw [horder]
        rintro ⟨_, live'⟩
        cases live.symm.trans live'
        exact hpeer rfl
      rw [if_neg hnot, hsettled]
      exact decide_eq_decide.mpr (others peer hpeer).symm
  · intro event hevent
    rcases mem_append.mp hevent with hold | hnew
    · exact h.usedEvent event hold
    · obtain ⟨id, hid, rfl⟩ := mem_map.mp hnew
      obtain ⟨handler, live⟩ := (horder id).mp hid
      exact h.usedLive id (by simp [live])

theorem Leased.establish (h : swarm.Leased) (peerId : PeerId) (new : connectionId ∉ swarm.used) :
    (swarm.establish peerId connectionId).Leased := by
  have hfree : swarm.handlers connectionId = none :=
    not_not.mp fun live => new (h.usedLive connectionId live)
  refine ⟨?_, ?_, ?_, ?_⟩
  · intro peer id
    have hids := h.ids peer id
    by_cases hid : id = connectionId
    · rw [hid, hfree] at hids
      by_cases hpeer : peer = peerId <;>
        simp [LeaseSwarm.establish, connectionEstablished, hid, hpeer, hids, eq_comm]
    · by_cases hpeer : peer = peerId <;>
        simp [LeaseSwarm.establish, connectionEstablished, hid, hpeer, h.ids _ id]
  · intro id peer handler live
    by_cases hid : id = connectionId
    · -- no queued command is for a new connection
      subst hid
      cases (update_self ..).symm.trans live
      rw [foldl_onEvent_of_forall_ne]
      · rfl
      · rintro event hevent rfl
        exact new (h.usedEvent event hevent)
    · exact h.settled id peer handler ((update_of_ne hid ..).symm.trans live)
  · intro id live
    by_cases hid : id = connectionId
    · exact Finset.mem_insert.mpr (.inl hid)
    · exact Finset.mem_insert_of_mem
        (h.usedLive id (by simpa [LeaseSwarm.establish, hid] using live))
  · exact fun event hevent => Finset.mem_insert_of_mem (h.usedEvent event hevent)

theorem Leased.close (h : swarm.Leased) {peerId : PeerId} {handler : ConnectionLeaseHandler}
    {remaining : Nat} (live : swarm.handlers connectionId = some (peerId, handler))
    (counted : swarm.Counts peerId connectionId remaining) :
    (swarm.close peerId connectionId remaining).Leased := by
  have hstays : ∀ {id peer handler},
      update swarm.handlers connectionId none id = some (peer, handler) →
        swarm.handlers id = some (peer, handler) := by
    intro id peer handler hlive
    by_cases hid : id = connectionId
    · simp [hid] at hlive
    · simpa [hid] using hlive
  refine ⟨?_, fun id peer handler hlive => h.settled id peer handler (hstays hlive), ?_,
    h.usedEvent⟩
  · intro peer id
    have hids := h.ids peer id
    by_cases hpeer : peer = peerId
    · subst hpeer
      by_cases hid : id = connectionId
      · by_cases hzero : remaining = 0 <;> simp [LeaseSwarm.close, connectionClosed, hid, hzero]
      · by_cases hzero : remaining = 0
        · -- the peer has no other connection
          simp only [LeaseSwarm.close, connectionClosed, hzero, if_true,
            update_self, Finset.notMem_empty, update_of_ne hid, false_iff]
          rintro ⟨handler, hother⟩
          exact hid (counted.mp hzero id handler hother)
        · simp [LeaseSwarm.close, connectionClosed, hzero, hid, hids]
    · by_cases hid : id = connectionId
      · -- the connection that has closed was of another peer
        subst hid
        simpa [LeaseSwarm.close, connectionClosed, hpeer, Ne.symm hpeer, live] using hids
      · simp [LeaseSwarm.close, connectionClosed, hpeer, hid, hids]
  · intro id hlive
    obtain ⟨⟨peer, handler⟩, hlive⟩ := Option.ne_none_iff_exists'.mp hlive
    exact h.usedLive id (by simp [hstays hlive])

/-- The step: what happens keeps the queue and the handlers together. -/
theorem Leased.step (h : swarm.Leased) (step : Step swarm next) : next.Leased := by
  cases step with
  | retain peerId order read =>
    unfold retainPeer
    split
    · exact h
    · simpa using h.notify read (insert peerId swarm.behaviour.retainedPeers)
        fun other hother => by simp [hother]
  | release peerId order read =>
    unfold releasePeer
    split
    · simpa using h.notify read (swarm.behaviour.retainedPeers.erase peerId)
        fun other hother => by simp [hother]
    · exact h
  | establish peerId connectionId new => exact h.establish peerId new
  | close peerId connectionId handler remaining live counted => exact h.close live counted
  | poll event rest queue =>
    refine ⟨?_, ?_, ?_, ?_⟩
    · intro peer id
      refine (h.ids peer id).trans ?_
      cases hlive : swarm.handlers id <;> simp [hlive, Prod.ext_iff]
    · -- the command at the head has reached its handler
      intro id peer handler live
      obtain ⟨⟨_, before⟩, hbefore, hsame⟩ := Option.map_eq_some_iff.mp live
      cases hsame
      have hsettled := h.settled id peer before hbefore
      rwa [queue, foldl_cons] at hsettled
    · intro id live
      exact h.usedLive id (by simpa using live)
    · exact fun event hevent => h.usedEvent event (queue ▸ mem_cons_of_mem _ hevent)

theorem Reach.leased (reach : swarm.Reach) : swarm.Leased := by
  induction reach with
  | initial => exact .initial
  | step _ step ih => exact ih.step step

/-- In every state that is reached, `connections` has exactly the live connections; and if no
event is pending, the handler of each keeps it alive exactly if its peer is retained. -/
theorem connection_leases_consistent (reach : swarm.Reach) :
    swarm.Tracked ∧ (swarm.behaviour.pendingEvents = [] → ∀ connectionId peerId handler,
      swarm.handlers connectionId = some (peerId, handler) →
        (handler.retained = true ↔ peerId ∈ swarm.behaviour.retainedPeers)) := by
  refine ⟨reach.leased.ids, fun hidle connectionId peerId handler live => ?_⟩
  have hsettled := reach.leased.settled connectionId peerId handler live
  rw [hidle] at hsettled
  rw [show handler.retained = _ from hsettled, decide_eq_true_iff]

/-- A connection is open when its peer becomes retained, and is told so. -/
theorem connection_leases_consistent_told :
    ∃ swarm : LeaseSwarm, swarm.handlers ⟨0⟩ = some (⟨1⟩, ⟨true⟩) ∧
      ((⟨true⟩ : ConnectionLeaseHandler).retained = true ↔
        (⟨1⟩ : PeerId) ∈ swarm.behaviour.retainedPeers) := by
  have reach := ((Reach.initial.step (.establish ⟨1⟩ ⟨0⟩ (Finset.notMem_empty _))).step
    (.retain ⟨1⟩ [⟨0⟩] (by decide +kernel))).step (.poll ⟨⟨1⟩, ⟨0⟩, true⟩ [] (by decide +kernel))
  exact ⟨_, rfl, (connection_leases_consistent reach).2 rfl ⟨0⟩ ⟨1⟩ ⟨true⟩ rfl⟩

end LeaseSwarm

end TokenHoldem
