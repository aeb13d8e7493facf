import Mathlib.Data.List.Basic
import Mathlib.Data.List.Induction
import Mathlib.Logic.Function.Basic

/-!
# The stream of events to the clients

`runtime_supervisor.rs`: one actor appends an event to the journal, which numbers it, and then
broadcasts it. A client subscribes to the broadcast before it takes a snapshot of the journal,
and then drops the events of the broadcast that the snapshot covers. The two orders make the
stream free of gaps, whatever happens between any two of these steps. Numbers are `u64`
and saturate.

- `Numbered` — the events in the journal are numbered one by one, up to the largest number;
- `Attached` — what a client has received: the events it has read, from its snapshot on;
- `Numbered.step`, `Numbered.step_follows` — every step keeps both;
- `stream_without_gaps` — in every run a client that has not been told that it lags has
  received the events appended after its snapshot, in order, as far as it has read.
-/

namespace TokenHoldem

open List

/-- `u64::MAX`. -/
def lastSequence : Nat := 18446744073709551615

/-- `u64::saturating_add` of one. -/
def nextSequence (sequence : Nat) : Nat := min (sequence + 1) lastSequence

/-- `RuntimeEvent`. -/
structure NumberedEvent (α : Type) where
  generation : Nat
  sequence : Nat
  event : α

inductive ClientPhase where
  | detached
  | subscribed
  | attached
  | lagged
deriving DecidableEq

/-- A client's connection. -/
structure StreamClient (α : Type) where
  phase : ClientPhase
  /-- How many events of the broadcast the receiver has passed. -/
  position : Nat
  /-- `delivered_sequence`. -/
  delivered : Nat
  /-- The live events that were sent to the client. -/
  received : List (NumberedEvent α)
  /-- How many events there were in all when the snapshot was taken. -/
  attachedAt : Nat

/-- A connection before the handshake. -/
def StreamClient.new {α : Type} : StreamClient α where
  phase := .detached
  position := 0
  delivered := 0
  received := []
  attachedAt := 0

/-- The journal, the broadcast and the clients. -/
structure EventStream (α : Type) where
  generation : Nat
  latestSequence : Nat
  /-- All events that were ever appended. -/
  appended : List (NumberedEvent α)
  /-- All events that were ever broadcast. -/
  sent : List (NumberedEvent α)
  /-- The event that the actor has appended and not yet broadcast. -/
  inFlight : Option (NumberedEvent α)
  clients : Nat → StreamClient α

/-- What can happen. -/
inductive StreamStep (α : Type) where
  | append (event : α)
  | broadcast
  | resetGeneration
  | subscribe (client : Nat)
  | snapshot (client : Nat)
  | receive (client : Nat)
  | detach (client : Nat)

namespace EventStream

variable {α : Type}

/-- The stream when the supervisor starts. -/
def initial : EventStream α where
  generation := 1
  latestSequence := 0
  appended := []
  sent := []
  inFlight := none
  clients _ := .new

/-- The event that `EventJournal::append` makes. -/
def numbered (stream : EventStream α) (event : α) : NumberedEvent α where
  generation := stream.generation
  sequence := nextSequence stream.latestSequence
  event := event

/-- A client is changed. -/
def setClient (stream : EventStream α) (client : Nat) (connection : StreamClient α) :
    EventStream α :=
  { stream with clients := Function.update stream.clients client connection }

/-- A client receives the next event of the broadcast. -/
def receive (capacity : Nat) (stream : EventStream α) (connection : StreamClient α) :
    StreamClient α :=
  if capacity < stream.sent.length - connection.position then
    { connection with phase := .lagged }
  else
    match stream.sent[connection.position]? with
    | none => connection
    | some event =>
      if connection.delivered < event.sequence then
        { connection with
          position := connection.position + 1
          delivered := event.sequence
          received := connection.received ++ [event] }
      else { connection with position := connection.position + 1 }

/-- A step; one that is not possible changes nothing. `accepts` are the events that `append`
takes, which have a type and are not too long, and `capacity` is that of the broadcast. -/
def step (accepts : α → Bool) (capacity : Nat) (stream : EventStream α) :
    StreamStep α → EventStream α
  | .append event =>
    if stream.inFlight.isNone ∧ accepts event then
      { stream with
        latestSequence := nextSequence stream.latestSequence
        appended := stream.appended ++ [stream.numbered event]
        inFlight := some (stream.numbered event) }
    else stream
  | .broadcast =>
    match stream.inFlight with
    | none => stream
    | some event => { stream with sent := stream.sent ++ [event], inFlight := none }
  | .resetGeneration =>
    if stream.inFlight.isNone then
      { stream with generation := nextSequence stream.generation }
    else stream
  | .subscribe client =>
    if (stream.clients client).phase = .detached then
      stream.setClient client
        { stream.clients client with phase := .subscribed, position := stream.sent.length }
    else stream
  | .snapshot client =>
    if (stream.clients client).phase = .subscribed then
      stream.setClient client
        { stream.clients client with
          phase := .attached
          delivered := stream.latestSequence
          received := []
          attachedAt := stream.appended.length }
    else stream
  | .receive client =>
    if (stream.clients client).phase = .attached then
      stream.setClient client (receive capacity stream (stream.clients client))
    else stream
  | .detach client => stream.setClient client .new

/-- The stream after some steps. -/
def run (accepts : α → Bool) (capacity : Nat) (steps : List (StreamStep α)) : EventStream α :=
  steps.foldl (step accepts capacity) initial

/-! ## Numbers -/

/-- The events are numbered from one on, as long as there are numbers, and the last one may be
still to be broadcast. -/
structure Numbered (stream : EventStream α) : Prop where
  sent : stream.appended = stream.sent ++ stream.inFlight.toList
  latest : stream.latestSequence = min stream.appended.length lastSequence
  sequence : ∀ i event, stream.appended[i]? = some event →
    event.sequence = min (i + 1) lastSequence

theorem Numbered.initial : (initial : EventStream α).Numbered where
  sent := rfl
  latest := rfl
  sequence i event hevent := by simp [EventStream.initial] at hevent

variable {stream : EventStream α} {connection : StreamClient α}

theorem Numbered.append (hnumbered : stream.Numbered) (hidle : stream.inFlight = none) (event : α) :
    Numbered { stream with
      latestSequence := nextSequence stream.latestSequence
      appended := stream.appended ++ [stream.numbered event]
      inFlight := some (stream.numbered event) } where
  sent := by simp [hnumbered.sent, hidle]
  latest := by
    simp only [nextSequence, hnumbered.latest, length_append, length_singleton]
    omega
  sequence i found hfound := by
    rw [getElem?_append] at hfound
    split at hfound
    · exact hnumbered.sequence i found hfound
    next hlast =>
      have hi : i = stream.appended.length := by
        have hlt := (List.getElem?_eq_some_iff.mp hfound).1
        rw [length_singleton] at hlt
        omega
      subst hi
      obtain rfl : stream.numbered event = found := by simpa using hfound
      simp only [numbered, nextSequence, hnumbered.latest]
      omega

theorem Numbered.setClient (hnumbered : stream.Numbered) (client : Nat)
    (connection : StreamClient α) : (stream.setClient client connection).Numbered :=
  ⟨hnumbered.sent, hnumbered.latest, hnumbered.sequence⟩

theorem Numbered.step {stream : EventStream α} (hnumbered : stream.Numbered) (accepts : α → Bool)
    (capacity : Nat) (next : StreamStep α) : (stream.step accepts capacity next).Numbered := by
  cases next with
  | append event =>
    simp only [EventStream.step]
    split
    next hidle => exact hnumbered.append (Option.isNone_iff_eq_none.mp hidle.1) event
    · exact hnumbered
  | broadcast =>
    simp only [EventStream.step]
    split
    · exact hnumbered
    next event hflight =>
      have hsent := hnumbered.sent
      rw [hflight] at hsent
      exact ⟨by simpa using hsent, hnumbered.latest, hnumbered.sequence⟩
  | resetGeneration =>
    simp only [EventStream.step]
    split
    · exact ⟨hnumbered.sent, hnumbered.latest, hnumbered.sequence⟩
    · exact hnumbered
  | detach client => exact hnumbered.setClient client _
  | subscribe client | snapshot client | receive client =>
    simp only [EventStream.step]
    split
    · exact hnumbered.setClient client _
    · exact hnumbered

/-! ## Clients -/

/-- What a client has received. -/
structure Attached (stream : EventStream α) (connection : StreamClient α) : Prop where
  position : connection.position ≤ stream.sent.length
  attachedAt : connection.attachedAt ≤ stream.appended.length
  delivered : connection.delivered = max connection.attachedAt connection.position
  received : connection.received =
    (stream.sent.take connection.position).drop connection.attachedAt

/-- What is known of a connection in its phase. -/
def Follows (stream : EventStream α) (connection : StreamClient α) : Prop :=
  match connection.phase with
  | .detached => True
  | .subscribed => connection.position ≤ stream.sent.length
  | .attached => stream.Attached connection
  | .lagged => True

/-- Events that are appended or broadcast later change nothing for a connection. -/
theorem Follows.later {later : EventStream α} (hfollows : stream.Follows connection)
    (hsent : stream.sent <+: later.sent)
    (happended : stream.appended.length ≤ later.appended.length) : later.Follows connection := by
  unfold Follows at hfollows ⊢
  split at hfollows
  · trivial
  · exact Nat.le_trans hfollows hsent.length_le
  · refine ⟨Nat.le_trans hfollows.position hsent.length_le,
      Nat.le_trans hfollows.attachedAt happended, hfollows.delivered, ?_⟩
    obtain ⟨rest, hrest⟩ := hsent
    rw [hfollows.received, ← hrest, take_append_of_le_length hfollows.position]
  · trivial

theorem Numbered.sequence_sent (hnumbered : stream.Numbered)
    (hfew : stream.appended.length ≤ lastSequence) {i : Nat} {event : NumberedEvent α}
    (hevent : stream.sent[i]? = some event) : event.sequence = i + 1 := by
  have hlt := (List.getElem?_eq_some_iff.mp hevent).1
  have happended : stream.appended[i]? = some event := by
    rw [hnumbered.sent, getElem?_append_left hlt, hevent]
  have hle := (List.getElem?_eq_some_iff.mp happended).1
  rw [hnumbered.sequence i event happended]
  omega

/-- The event that is received is the next one; it is passed on unless the snapshot covers it. -/
theorem Attached.receive (hnumbered : stream.Numbered)
    (hfew : stream.appended.length ≤ lastSequence) (hphase : connection.phase = .attached)
    (hattached : stream.Attached connection) (capacity : Nat) :
    stream.Follows (receive capacity stream connection) := by
  unfold EventStream.receive
  split
  · trivial
  split
  · simpa only [Follows, hphase] using hattached
  next event hevent =>
    have hsequence := hnumbered.sequence_sent hfew hevent
    have hlt := (List.getElem?_eq_some_iff.mp hevent).1
    have htake : stream.sent.take (connection.position + 1) =
        stream.sent.take connection.position ++ [event] := by
      rw [take_add_one, hevent]
      rfl
    have hlength : (stream.sent.take connection.position).length = connection.position :=
      length_take_of_le hattached.position
    split
    next hnew =>
      rw [hattached.delivered, hsequence] at hnew
      simp only [Follows, hphase]
      have hpast : connection.attachedAt ≤ connection.position := by omega
      refine ⟨hlt, hattached.attachedAt, ?_, ?_⟩
      · rw [hsequence]
        exact (Nat.max_eq_right (Nat.le_succ_of_le hpast)).symm
      · dsimp only
        rw [htake, drop_append_of_le_length (by rw [hlength]; exact hpast),
          ← hattached.received]
    next hold =>
      rw [hattached.delivered, hsequence] at hold
      simp only [Follows, hphase]
      have hahead : connection.position + 1 ≤ connection.attachedAt := by omega
      refine ⟨hlt, hattached.attachedAt, ?_, ?_⟩
      · rw [hattached.delivered]
        dsimp only
        omega
      · have hshort : (stream.sent.take (connection.position + 1)).length ≤
            connection.attachedAt := Nat.le_trans (length_take_le ..) hahead
        dsimp only
        rw [hattached.received, drop_eq_nil_of_le (by omega),
          drop_eq_nil_of_le hshort]

theorem Follows.setClient (hfollows : ∀ client, stream.Follows (stream.clients client))
    {client : Nat} (hconnection : stream.Follows connection) (other : Nat) :
    (stream.setClient client connection).Follows
      ((stream.setClient client connection).clients other) := by
  have hsame : ∀ found, stream.Follows found → (stream.setClient client connection).Follows found :=
    fun found hfound => hfound.later (prefix_refl _) (Nat.le_refl _)
  by_cases hother : other = client
  · rw [hother]
    simpa [EventStream.setClient] using hsame connection hconnection
  · simpa [EventStream.setClient, hother] using hsame _ (hfollows other)

theorem appended_le_step (stream : EventStream α) (accepts : α → Bool) (capacity : Nat)
    (next : StreamStep α) :
    stream.appended.length ≤ (stream.step accepts capacity next).appended.length := by
  cases next with
  | append event =>
    simp only [EventStream.step]
    split
    · simp
    · exact Nat.le_refl _
  | detach client => exact Nat.le_refl _
  | broadcast | resetGeneration | subscribe client | snapshot client | receive client =>
    simp only [EventStream.step]
    split <;> exact Nat.le_refl _

/-- Every step keeps what is known of the connections, as long as there are numbers. -/
theorem Numbered.step_follows (hnumbered : stream.Numbered)
    (hfollows : ∀ client, stream.Follows (stream.clients client)) (accepts : α → Bool)
    (capacity : Nat) (next : StreamStep α)
    (hfew : (stream.step accepts capacity next).appended.length ≤ lastSequence) (client : Nat) :
    (stream.step accepts capacity next).Follows
      ((stream.step accepts capacity next).clients client) := by
  have hbefore := Nat.le_trans (appended_le_step stream accepts capacity next) hfew
  cases next with
  | append event =>
    simp only [EventStream.step]
    split
    · exact (hfollows client).later (prefix_refl _) (by simp)
    · exact hfollows client
  | broadcast =>
    simp only [EventStream.step]
    split
    · exact hfollows client
    · exact (hfollows client).later ⟨_, rfl⟩ (Nat.le_refl _)
  | resetGeneration =>
    simp only [EventStream.step]
    split
    · exact (hfollows client).later (prefix_refl _) (Nat.le_refl _)
    · exact hfollows client
  | subscribe chosen =>
    simp only [EventStream.step]
    split
    · refine Follows.setClient hfollows ?_ client
      exact Nat.le_refl stream.sent.length
    · exact hfollows client
  | snapshot chosen =>
    simp only [EventStream.step]
    split
    next hphase =>
      refine Follows.setClient hfollows ?_ client
      have hposition := hfollows chosen
      simp only [Follows, hphase] at hposition
      -- the snapshot covers at least what has been broadcast
      have hsent : stream.sent.length ≤ stream.appended.length := by
        rw [hnumbered.sent, length_append]
        exact Nat.le_add_right _ _
      refine ⟨hposition, Nat.le_refl _, ?_, ?_⟩
      · rw [hnumbered.latest]
        dsimp only
        omega
      · exact (drop_eq_nil_of_le (Nat.le_trans (length_take_le ..)
          (Nat.le_trans hposition hsent))).symm
    · exact hfollows client
  | receive chosen =>
    simp only [EventStream.step]
    split
    next hphase =>
      refine Follows.setClient hfollows ?_ client
      have hattached := hfollows chosen
      simp only [Follows, hphase] at hattached
      exact hattached.receive hnumbered hbefore hphase capacity
    · exact hfollows client
  | detach chosen =>
    refine Follows.setClient hfollows ?_ client
    trivial

variable (accepts : α → Bool) (capacity : Nat) (steps : List (StreamStep α))

theorem run_append (next : StreamStep α) :
    run accepts capacity (steps ++ [next]) =
      (run accepts capacity steps).step accepts capacity next := by
  simp [run]

theorem run_numbered : (run accepts capacity steps).Numbered := by
  induction steps using reverseRecOn with
  | nil => exact Numbered.initial
  | append_singleton steps next ih =>
    rw [run_append]
    exact ih.step accepts capacity next

theorem run_follows (hfew : (run accepts capacity steps).appended.length ≤ lastSequence)
    (client : Nat) :
    (run accepts capacity steps).Follows ((run accepts capacity steps).clients client) := by
  induction steps using reverseRecOn generalizing client with
  | nil => trivial
  | append_singleton steps next ih =>
    rw [run_append] at hfew ⊢
    have hbefore := Nat.le_trans (appended_le_step _ accepts capacity next) hfew
    exact (run_numbered accepts capacity steps).step_follows (ih hbefore) accepts capacity next hfew
      client

/-- As long as there are numbers: in every run of one actor that appends, broadcasts and resets
generations, and of any clients, the numbers are strictly increasing, and a client that is
attached, and so has not been told that it lags, has received the first of the events appended
after its snapshot, in order, and all of them once it has read all that was appended. -/
theorem stream_without_gaps
    (hfew : (run accepts capacity steps).appended.length ≤ lastSequence) :
    (run accepts capacity steps).appended.Pairwise (·.sequence < ·.sequence) ∧
      ∀ client, ((run accepts capacity steps).clients client).phase = .attached →
        ((run accepts capacity steps).clients client).received <+:
            (run accepts capacity steps).appended.drop
              ((run accepts capacity steps).clients client).attachedAt ∧
          (((run accepts capacity steps).clients client).position =
              (run accepts capacity steps).appended.length →
            ((run accepts capacity steps).clients client).received =
              (run accepts capacity steps).appended.drop
                ((run accepts capacity steps).clients client).attachedAt) := by
  have hnumbered := run_numbered accepts capacity steps
  have hfollows := run_follows accepts capacity steps hfew
  generalize run accepts capacity steps = stream at *
  constructor
  · rw [pairwise_iff_getElem]
    intro i j hi hj hij
    rw [hnumbered.sequence i _ (getElem?_eq_getElem hi),
      hnumbered.sequence j _ (getElem?_eq_getElem hj)]
    omega
  · intro client hphase
    have hattached := hfollows client
    simp only [Follows, hphase] at hattached
    have htake : stream.sent.take (stream.clients client).position =
        stream.appended.take (stream.clients client).position := by
      rw [hnumbered.sent, take_append_of_le_length hattached.position]
    rw [hattached.received, htake]
    constructor
    · rw [drop_take]
      exact take_prefix ..
    · intro hread
      rw [hread, take_length]

/-- A client that attaches between the two halves of a publication. -/
def lateClient : List (StreamStep Unit) :=
  [.append (), .subscribe 0, .snapshot 0, .broadcast, .append (), .broadcast,
    .receive 0, .receive 0]

theorem stream_without_gaps_late :
    ((run (fun _ => true) 16 lateClient).clients 0).received <+:
      (run (fun _ => true) 16 lateClient).appended.drop
        ((run (fun _ => true) 16 lateClient).clients 0).attachedAt ∧
    ((run (fun _ => true) 16 lateClient).clients 0).received.length = 1 :=
  ⟨((stream_without_gaps (fun _ => true) 16 lateClient (by decide +kernel)).2 0
    (by decide +kernel)).1, by decide +kernel⟩

/-- Some publications in a row. -/
def publications (count : Nat) : List (StreamStep Unit) :=
  (replicate count [.append (), .broadcast]).flatten

theorem run_publications (count : Nat) :
    (run (fun _ => true) 16 (publications count)).appended.length = count ∧
      (run (fun _ => true) 16 (publications count)).inFlight = none := by
  induction count with
  | zero => exact ⟨rfl, rfl⟩
  | succ count ih =>
    have hsplit : publications (count + 1) =
        publications count ++ [.append ()] ++ [.broadcast] := by
      simp [publications, replicate_succ']
    rw [hsplit, run_append, run_append]
    simp [EventStream.step, ih.1, ih.2]

/-- The last number is given out again and again. -/
theorem numbers_run_out :
    ∃ steps : List (StreamStep Unit), ∃ first second : NumberedEvent Unit, ∃ i j : Nat, i < j ∧
      (run (fun _ => true) 16 steps).appended[i]? = some first ∧
      (run (fun _ => true) 16 steps).appended[j]? = some second ∧
      first.sequence = second.sequence := by
  have hlength := (run_publications (lastSequence + 1)).1
  have hnumbered := run_numbered (fun _ => true) 16 (publications (lastSequence + 1))
  refine ⟨publications (lastSequence + 1), ?_⟩
  generalize run (fun _ => true) 16 (publications (lastSequence + 1)) = stream
    at hlength hnumbered ⊢
  have hone : 1 ≤ lastSequence := by decide
  have hfirst : lastSequence - 1 < stream.appended.length := by omega
  have hsecond : lastSequence < stream.appended.length := by omega
  refine ⟨stream.appended[lastSequence - 1], stream.appended[lastSequence], lastSequence - 1,
    lastSequence, by omega, getElem?_eq_getElem hfirst, getElem?_eq_getElem hsecond, ?_⟩
  rw [hnumbered.sequence _ _ (getElem?_eq_getElem hfirst),
    hnumbered.sequence _ _ (getElem?_eq_getElem hsecond)]
  omega

end EventStream

end TokenHoldem
