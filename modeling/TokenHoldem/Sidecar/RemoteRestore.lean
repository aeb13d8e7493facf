import Mathlib.Data.List.Nodup
import Mathlib.Data.List.Sort
import TokenHoldem.Primitives

/-!
# Restoring an identity from the archive

`restore_remote_identity` asks every configured archive node for the encrypted identity
behind a locator and waits: `pending_remote_restore` of `main.rs` says that it waits, and the
maps of `ArchiveRuntime` (`archive_runtime.rs`) say what for. Every answer takes one request
away, and the last one ends the restore. `configure_peers` empties the maps without ending
it.

- `Waiting` — what ties the restore to the requests: only its locator has any, and they are
  as many as the count of the fetch says;
- `Waiting.run` — every call keeps it, unless it configures the archive during a restore, and
  a restore that goes on waits for no request that the call has answered;
- `Waiting.canEnd_run_iff` — new peers leave a restore with nothing to wait for;
- `remote_restore_ends` — in runs without such a call a restore has a request to wait for, and
  is over once all of them have been answered.
-/

namespace TokenHoldem

open Library Function FixedBytes
open List hiding beq_eq_decide

/-- What an identity is stored under. -/
abbrev Locator := Bytes32

/-- `PendingRequest`. `Put`, `Fetch` and `List`, which are about receipts, are one case: what
is kept of them is not read here. -/
inductive PendingRequest where
  | receipt
  | recoveryPut (locator : Locator)
  | recoveryFetch (locator : Locator)
deriving DecidableEq

structure PendingUpload where
  remaining : Nat
  required : Nat
  confirmed : Finset PeerId
  finished : Bool

structure PendingFetch where
  remaining : Nat
  finished : Bool

/-- How a restore ends. -/
inductive RestoreReport where
  | restored (locator : Locator)
  | failed (locator : Locator)

/-- The locator of a report. -/
def RestoreReport.locator : RestoreReport → Locator
  | .restored locator => locator
  | .failed locator => locator

/-- The events of the archive that `process_archive_events` looks at. -/
inductive RecoveryEvent where
  | fetched (locator : Locator)
  | failed (locator : Locator)

/-- The parts of `RuntimeState` and `ArchiveRuntime` that take part in a restore. -/
structure RestoreRuntime where
  peers : List PeerId
  minimumConfirmedReplicas : Nat
  /-- The number of the next request that the swarm sends. -/
  nextRequest : Nat
  pendingRequests : List (Nat × PendingRequest)
  recoveryUploads : Locator → Option PendingUpload
  recoveryFetches : Locator → Option PendingFetch
  recoveredEnvelopes : Locator → List Bytes
  /-- The locator and the payload of the identity that is loaded. -/
  identity : Option (Locator × Bytes)
  /-- `pending_remote_restore`, with its locator. -/
  pendingRemoteRestore : Option Locator
  /-- There is a session, a hand, a ticket or a room that is being joined. -/
  busy : Bool
  reports : List RestoreReport

namespace RestoreRuntime

/-- The state at the start. -/
def initial : RestoreRuntime where
  peers := []
  minimumConfirmedReplicas := 1
  nextRequest := 0
  pendingRequests := []
  recoveryUploads _ := none
  recoveryFetches _ := none
  recoveredEnvelopes _ := []
  identity := none
  pendingRemoteRestore := none
  busy := false
  reports := []

/-! ## The archive runtime -/

section Runtime

variable (state : RestoreRuntime) (locator : Locator)

/-- `send_request` to every peer. -/
def sendToPeers (request : PendingRequest) : RestoreRuntime :=
  { state with
    nextRequest := state.nextRequest + state.peers.length
    pendingRequests := state.pendingRequests ++
      (range state.peers.length).map fun i => (state.nextRequest + i, request) }

/-- `ArchiveRuntime::configure_peers`; nothing changes when it fails. -/
def configurePeers (peers : List PeerId) (minimumConfirmedReplicas : Nat) : Option RestoreRuntime :=
  let peers := (peers.insertionSort (· ≤ ·)).dedup
  if peers = [] ∨ minimumConfirmedReplicas = 0 ∨ peers.length < minimumConfirmedReplicas then none
  else some { state with
    peers, minimumConfirmedReplicas
    pendingRequests := []
    recoveryUploads := fun _ => none
    recoveryFetches := fun _ => none
    recoveredEnvelopes := fun _ => [] }

def maxRecoveryEnvelopeBytes : Nat := 64 * 1024

/-- `validate_recovery_locator`. -/
def ValidLocator (locator : Locator) : Prop := locator ≠ ofNat 0
deriving Decidable

/-- `validate_recovery_object`. -/
def ValidObject (locator : Locator) (envelope : Bytes) : Prop :=
  ValidLocator locator ∧ envelope ≠ [] ∧ envelope.length ≤ maxRecoveryEnvelopeBytes
deriving Decidable

def publishRecovery (envelope : Bytes) : Option (RestoreRuntime × List RecoveryEvent) :=
  if ¬ ValidObject locator envelope then none
  else if state.peers = [] then some (state, [.failed locator])
  else
    let others := state.pendingRequests.filter fun entry => entry.2 ≠ .recoveryPut locator
    let sent := sendToPeers { state with pendingRequests := others } (.recoveryPut locator)
    let upload : PendingUpload :=
      { remaining := state.peers.length, required := state.minimumConfirmedReplicas
        confirmed := ∅, finished := false }
    some ({ sent with
      recoveryUploads := update sent.recoveryUploads locator (some upload) }, [])

/-- `ArchiveRuntime::fetch_recovery`, for a valid locator. -/
def fetchRecovery : RestoreRuntime × List RecoveryEvent :=
  if state.peers = [] then (state, [.failed locator])
  else if (state.recoveryFetches locator).any (·.finished = false) then (state, [])
  else
    let sent := sendToPeers { state with
      recoveredEnvelopes := update state.recoveredEnvelopes locator [] }
        (.recoveryFetch locator)
    let fetch : PendingFetch := { remaining := state.peers.length, finished := false }
    ({ sent with
      recoveryFetches := update sent.recoveryFetches locator (some fetch) }, [])

def takeRecoveredEnvelope : Option (Bytes × RestoreRuntime) :=
  match state.recoveredEnvelopes locator with
  | [] => none
  | envelope :: candidates =>
    some (envelope, { state with
      recoveredEnvelopes := update state.recoveredEnvelopes locator candidates })

def recoveryFetchIsExhausted : Bool :=
  (state.recoveryFetches locator).all (·.remaining = 0)

def cancelRecoveryFetch : RestoreRuntime :=
  { state with
    pendingRequests := state.pendingRequests.filter fun entry => entry.2 ≠ .recoveryFetch locator
    recoveryFetches := update state.recoveryFetches locator none
    recoveredEnvelopes := update state.recoveredEnvelopes locator [] }

def finishRecoveryFetchAttempt : RestoreRuntime × List RecoveryEvent :=
  match state.recoveryFetches locator with
  | none => (state, [])
  | some fetch =>
    let remaining := fetch.remaining - 1
    if fetch.finished = false ∧ remaining = 0 then
      ({ state with
        recoveryFetches :=
          update state.recoveryFetches locator (some { remaining, finished := true }) },
        if state.recoveredEnvelopes locator ≠ [] then [] else [.failed locator])
    else
      ({ state with
        recoveryFetches :=
          update state.recoveryFetches locator (some { fetch with remaining }) }, [])

def finishRecoveryPutAttempt
    (confirmedPeer : Option PeerId) : RestoreRuntime × List RecoveryEvent :=
  match state.recoveryUploads locator with
  | none => (state, [])
  | some upload =>
    let remaining := upload.remaining - 1
    let confirmed := confirmedPeer.elim upload.confirmed fun peer => insert peer upload.confirmed
    let stored (finished : Bool) : RestoreRuntime :=
      { state with
        recoveryUploads := update state.recoveryUploads locator
          (some { upload with
            remaining
            confirmed
            finished }) }
    if upload.required ≤ confirmed.card ∧ confirmedPeer.isSome then (stored true, [])
    else if upload.finished = false ∧ remaining = 0 then (stored true, [.failed locator])
    else (stored upload.finished, [])

/-- A `ControlResponse` to one of these requests. Whether the signature of the node verifies,
under the key it has used before, and how many of the listed receipts are new, is part of
the input. -/
inductive ArchiveAnswer where
  | listed (newAddresses : Nat)
  | recoveryStored (locator : Locator) (inTime verified : Bool)
  | recoveryFetch (locator : Locator) (verified : Bool) (envelope : Option Bytes)
  | rejected
  | mismatched

def handleRecoveryFetchResponse :
    ArchiveAnswer → RestoreRuntime × List RecoveryEvent
  | .recoveryFetch answered true (some envelope) =>
    if answered = locator ∧ ValidObject locator envelope then
      let candidates := state.recoveredEnvelopes locator ++ [envelope]
      let stored := { state with
        recoveredEnvelopes := update state.recoveredEnvelopes locator candidates }
      match state.recoveryFetches locator with
      | none => (stored, [])
      | some fetch =>
        let remaining := fetch.remaining - 1
        ({ stored with
          recoveryFetches := update state.recoveryFetches locator
            (some { remaining, finished := remaining = 0 }) }, [.fetched locator])
    else state.finishRecoveryFetchAttempt locator
  | _ => state.finishRecoveryFetchAttempt locator

def handleRecoveryPutResponse (peer : PeerId) (locator : Locator) :
    ArchiveAnswer → RestoreRuntime × List RecoveryEvent
  | .recoveryStored answered true true =>
    if answered = locator then state.finishRecoveryPutAttempt locator (some peer)
    else state.finishRecoveryPutAttempt locator none
  | _ => state.finishRecoveryPutAttempt locator none

/-- `handle_list_response` asks every peer for every receipt that is new; the other answers
about receipts send nothing. -/
def handleReceiptResponse : ArchiveAnswer → RestoreRuntime
  | .listed newAddresses => (fun state => state.sendToPeers .receipt)^[newAddresses] state
  | _ => state

/-- The state without a request. -/
def dropRequest (request : Nat) : RestoreRuntime :=
  { state with pendingRequests := state.pendingRequests.filter fun entry => entry.1 ≠ request }

def handleResponse (request : Nat) (peer : PeerId)
    (answer : ArchiveAnswer) : RestoreRuntime × List RecoveryEvent :=
  match state.pendingRequests.lookup request with
  | none => (state, [])
  | some .receipt => ((state.dropRequest request).handleReceiptResponse answer, [])
  | some (.recoveryPut locator) =>
    (state.dropRequest request).handleRecoveryPutResponse peer locator answer
  | some (.recoveryFetch locator) =>
    (state.dropRequest request).handleRecoveryFetchResponse locator answer

/-! ## The main loop -/

def failRemoteRestore : RestoreRuntime :=
  match state.pendingRemoteRestore with
  | none => state
  | some locator =>
    { state.cancelRecoveryFetch locator with
      pendingRemoteRestore := none
      reports := state.reports ++ [.failed locator] }

/-- The loop of `process_archive_events`: failed restores end, and the locator of an
envelope that has been fetched is noted. -/
def noteEvents (state : RestoreRuntime) : List RecoveryEvent → RestoreRuntime × Bool
  | [] => (state, false)
  | .fetched locator :: events =>
    let (after, ready) := state.noteEvents events
    (after, decide (state.pendingRemoteRestore = some locator) || ready)
  | .failed locator :: events =>
    if state.pendingRemoteRestore = some locator then state.failRemoteRestore.noteEvents events
    else state.noteEvents events

/-- `sync_statistics`: every peer is asked for the receipts of the player. -/
def syncStatistics : RestoreRuntime :=
  if state.identity.isNone then state else state.sendToPeers .receipt

/-- `publish_identity_recovery` and then `sync_statistics`. The first fails if the identity
is no valid object, and has no event about an envelope. -/
def publishIdentityRecovery : RestoreRuntime :=
  match state.identity with
  | none => state
  | some (locator, payload) =>
    match state.publishRecovery locator payload with
    | none => state
    | some (published, events) => (published.noteEvents events).1.syncStatistics

/-- `complete_remote_restore`: `opens` says whether the candidate can be decrypted and its
identity be activated. -/
def completeRemoteRestore (opens : Bytes → Bool) : RestoreRuntime :=
  if state.busy then state
  else
    match state.pendingRemoteRestore with
    | none => state
    | some locator =>
      match state.takeRecoveredEnvelope locator with
      | none => state
      | some (payload, state) =>
        if opens payload then
          publishIdentityRecovery { state.cancelRecoveryFetch locator with
            pendingRemoteRestore := none
            identity := some (locator, payload)
            reports := state.reports ++ [.restored locator] }
        else if state.recoveryFetchIsExhausted locator then state.failRemoteRestore
        else state

def processArchiveEvents (opens : Bytes → Bool) (events : List RecoveryEvent) : RestoreRuntime :=
  let (noted, ready) := state.noteEvents events
  if ready then noted.completeRemoteRestore opens else noted

/-- What the event loop does, as far as it touches a restore. -/
inductive RestoreCall where
  /-- `restore_remote_identity`, once the account and the secret have been checked. -/
  | restoreRemoteIdentity (locator : Locator) (opens : Bytes → Bool)
  | configureArchiveNodes (peers : List PeerId) (minimumConfirmedReplicas : Nat)
  /-- `CreateIdentity`, and `EnsureIdentity`, with the identity that is created. -/
  | createIdentity (locator : Locator) (payload : Bytes)
  /-- `RestoreIdentity`, with the identity in the envelope. -/
  | restoreIdentity (locator : Locator) (payload : Bytes)
  | syncStatistics
  /-- A receipt is fetched, or published. -/
  | requestReceipt
  /-- The account is another one (`reconcile_account`). -/
  | switchAccount
  /-- A table, a room or a ticket is taken; it needs `validate_local_buy_in`. -/
  | enter
  | leave
  | response (request : Nat) (peer : PeerId) (answer : ArchiveAnswer) (opens : Bytes → Bool)
  | failure (request : Nat) (peer : PeerId) (opens : Bytes → Bool)

/-- The state after a call. -/
def run : RestoreCall → RestoreRuntime
  | .restoreRemoteIdentity locator opens =>
    if state.busy ∨ state.pendingRemoteRestore.isSome ∨ ¬ ValidLocator locator then state
    else
      let (fetching, events) := state.fetchRecovery locator
      { fetching with pendingRemoteRestore := some locator }.processArchiveEvents opens events
  | .configureArchiveNodes peers minimumConfirmedReplicas =>
    match state.configurePeers peers minimumConfirmedReplicas with
    | none => state
    | some configured => configured.publishIdentityRecovery
  | .createIdentity locator payload =>
    if state.pendingRemoteRestore.isSome ∨ state.identity.isSome then state
    else { state with identity := some (locator, payload) }.publishIdentityRecovery
  | .restoreIdentity locator payload =>
    if state.busy ∨ state.pendingRemoteRestore.isSome then state
    else { state with identity := some (locator, payload) }.publishIdentityRecovery
  | .syncStatistics => state.syncStatistics
  | .requestReceipt => state.sendToPeers .receipt
  | .switchAccount =>
    if state.busy then state else { state.failRemoteRestore with identity := none }
  | .enter => if state.pendingRemoteRestore.isSome then state else { state with busy := true }
  | .leave => { state with busy := false }
  | .response request peer answer opens =>
    let (answered, events) := state.handleResponse request peer answer
    answered.processArchiveEvents opens events
  | .failure request peer opens =>
    let (answered, events) := state.handleResponse request peer .rejected
    answered.processArchiveEvents opens events

/-- The state after some calls. -/
def runAll (calls : List RestoreCall) : RestoreRuntime :=
  calls.foldl run state

/-! ## The requests of a restore -/

/-- The numbers of the requests for a locator that nobody has answered. -/
def outstanding : List Nat :=
  (state.pendingRequests.filter fun entry => entry.2 = .recoveryFetch locator).map Prod.fst

/-- No two requests have one number, and the next one is new. -/
structure Numbered : Prop where
  nodup : (state.pendingRequests.map Prod.fst).Nodup
  fresh : ∀ entry ∈ state.pendingRequests, entry.1 < state.nextRequest

end Runtime

section Requests

variable {state : RestoreRuntime} {locator : Locator}

theorem mem_outstanding {request : Nat} : request ∈ state.outstanding locator ↔
      (request, .recoveryFetch locator) ∈ state.pendingRequests := by
  simp [outstanding]

theorem Numbered.filter (hnumbered : state.Numbered)
    (keep : Nat × PendingRequest → Bool) :
    Numbered { state with pendingRequests := state.pendingRequests.filter keep } where
  nodup := hnumbered.nodup.sublist (filter_sublist.map Prod.fst)
  fresh entry hentry := hnumbered.fresh entry (mem_of_mem_filter hentry)

theorem Numbered.sendToPeers (hnumbered : state.Numbered)
    (request : PendingRequest) : (state.sendToPeers request).Numbered := by
  constructor
  · have hnew : ((range state.peers.length).map (state.nextRequest + ·)).Nodup :=
      nodup_range.map fun _ _ h => Nat.add_left_cancel h
    have happend : (state.pendingRequests.map Prod.fst ++
        (range state.peers.length).map (state.nextRequest + ·)).Nodup := by
      refine hnumbered.nodup.append hnew ?_
      intro number hold hsent
      obtain ⟨entry, hentry, rfl⟩ := mem_map.mp hold
      obtain ⟨i, -, hi⟩ := mem_map.mp hsent
      have := hnumbered.fresh entry hentry
      omega
    simpa [RestoreRuntime.sendToPeers, comp_def] using happend
  · intro entry hentry
    rcases mem_append.mp hentry with hold | hsent
    · exact Nat.lt_of_lt_of_le (hnumbered.fresh entry hold) (Nat.le_add_right _ _)
    · obtain ⟨i, hi, rfl⟩ := mem_map.mp hsent
      exact Nat.add_lt_add_left (mem_range.mp hi) _

variable {request : PendingRequest} {number : Nat}

theorem outstanding_sendToPeers_of_ne (hother : request ≠ .recoveryFetch locator) :
    (state.sendToPeers request).outstanding locator = state.outstanding locator := by
  simp [outstanding, sendToPeers, filter_map, comp_def, hother]

theorem length_outstanding_sendToPeers (state : RestoreRuntime) (locator : Locator) :
    ((state.sendToPeers (.recoveryFetch locator)).outstanding locator).length =
      (state.outstanding locator).length + state.peers.length := by
  simp [outstanding, sendToPeers, filter_map, comp_def]

theorem outstanding_filter {keep : Nat × PendingRequest → Bool}
    (hkeep : ∀ entry ∈ state.pendingRequests, entry.2 = .recoveryFetch locator → keep entry) :
    outstanding { state with pendingRequests := state.pendingRequests.filter keep } locator =
      state.outstanding locator := by
  simp only [outstanding, filter_filter]
  congr 1
  refine filter_congr fun entry hentry => ?_
  by_cases hfetch : entry.2 = .recoveryFetch locator
  · simp [hfetch, hkeep entry hentry hfetch]
  · simp [hfetch]

theorem outstanding_cancelRecoveryFetch (state : RestoreRuntime) (locator : Locator) :
    (state.cancelRecoveryFetch locator).outstanding locator = [] := by
  simp [outstanding, cancelRecoveryFetch]

theorem outstanding_cancelRecoveryFetch_of_ne {locator other : Locator} (hne : other ≠ locator) :
    (state.cancelRecoveryFetch locator).outstanding other = state.outstanding other :=
  outstanding_filter fun entry _ hfetch => by simp [hfetch, hne]

theorem Numbered.unique (hnumbered : state.Numbered) {request' : PendingRequest}
    (hmem : (number, request) ∈ state.pendingRequests)
    (hmem' : (number, request') ∈ state.pendingRequests) : request = request' :=
  congrArg Prod.snd (inj_on_of_nodup_map hnumbered.nodup hmem hmem' rfl)

theorem mem_of_lookup {entries : List (Nat × PendingRequest)}
    (hlookup : entries.lookup number = some request) : (number, request) ∈ entries := by
  obtain ⟨before, after, hentries, -⟩ := lookup_eq_some_iff.mp hlookup
  simp [hentries]

theorem Numbered.lookup (hnumbered : state.Numbered)
    (hmem : (number, request) ∈ state.pendingRequests) :
    state.pendingRequests.lookup number = some request := by
  cases hlookup : state.pendingRequests.lookup number with
  | none =>
    have := lookup_eq_none_iff.mp hlookup _ hmem
    simp at this
  | some found => rw [hnumbered.unique hmem (mem_of_lookup hlookup)]

theorem outstanding_dropRequest (state : RestoreRuntime) (number : Nat) (locator : Locator) :
    (state.dropRequest number).outstanding locator =
      (state.outstanding locator).filter (· != number) := by
  simp only [outstanding, dropRequest, filter_filter, filter_map, comp_def]
  congr 1
  refine filter_congr fun entry _ => ?_
  rw [Bool.and_comm, bne, decide_not, beq_eq_decide]

theorem length_outstanding_dropRequest (hnumbered : state.Numbered)
    (hmem : (number, .recoveryFetch locator) ∈ state.pendingRequests) :
    ((state.dropRequest number).outstanding locator).length =
      (state.outstanding locator).length - 1 := by
  have hnodup : (state.outstanding locator).Nodup :=
    hnumbered.nodup.sublist (filter_sublist.map Prod.fst)
  rw [outstanding_dropRequest, ← hnodup.erase_eq_filter,
    length_erase_of_mem (mem_outstanding.mpr hmem)]

end Requests

/-! ## What a restore waits for -/

/-- Nothing is known of any locator but one. -/
structure Alone (state : RestoreRuntime) (locator : Locator) : Prop where
  numbered : state.Numbered
  noEnvelope : ∀ other, other ≠ locator → state.recoveredEnvelopes other = []
  noFetch : ∀ other, other ≠ locator → state.recoveryFetches other = none
  unasked : ∀ other, other ≠ locator → state.outstanding other = []

/-- The archive waits for what the restore waits for. -/
structure Waiting (state : RestoreRuntime) : Prop where
  numbered : state.Numbered
  /-- Every envelope has been tried. -/
  noEnvelope : ∀ locator, state.recoveredEnvelopes locator = []
  fetching : ∀ locator, state.recoveryFetches locator =
    if state.pendingRemoteRestore = some locator then
      some { remaining := (state.outstanding locator).length, finished := false } else none
  asked : ∀ locator, state.outstanding locator ≠ [] ↔ state.pendingRemoteRestore = some locator
  idle : state.pendingRemoteRestore.isSome → state.busy = false

theorem Waiting.initial : RestoreRuntime.initial.Waiting where
  numbered := ⟨nodup_nil, fun _ hentry => absurd hentry not_mem_nil⟩
  noEnvelope _ := rfl
  fetching _ := rfl
  asked _ := by simp [RestoreRuntime.initial, outstanding]
  idle h := nomatch h

/-- A state in which nothing that the invariant reads has changed. -/
structure SameRestore (before after : RestoreRuntime) : Prop where
  numbered : before.Numbered → after.Numbered
  envelopes : after.recoveredEnvelopes = before.recoveredEnvelopes
  fetches : after.recoveryFetches = before.recoveryFetches
  outstanding : ∀ locator, after.outstanding locator = before.outstanding locator
  pending : after.pendingRemoteRestore = before.pendingRemoteRestore
  busy : after.busy = before.busy
  reports : after.reports = before.reports

namespace SameRestore

variable {first second third : RestoreRuntime}

@[refl]
theorem refl (state : RestoreRuntime) : SameRestore state state :=
  ⟨id, rfl, rfl, fun _ => rfl, rfl, rfl, rfl⟩

theorem trans (hfirst : SameRestore first second) (hsecond : SameRestore second third) :
    SameRestore first third where
  numbered h := hsecond.numbered (hfirst.numbered h)
  envelopes := hsecond.envelopes.trans hfirst.envelopes
  fetches := hsecond.fetches.trans hfirst.fetches
  outstanding locator := (hsecond.outstanding locator).trans (hfirst.outstanding locator)
  pending := hsecond.pending.trans hfirst.pending
  busy := hsecond.busy.trans hfirst.busy
  reports := hsecond.reports.trans hfirst.reports

theorem waiting (hsame : SameRestore first second) (hwaiting : first.Waiting) : second.Waiting where
  numbered := hsame.numbered hwaiting.numbered
  noEnvelope locator := by rw [hsame.envelopes, hwaiting.noEnvelope]
  fetching locator := by
    rw [hsame.fetches, hsame.pending, hsame.outstanding, hwaiting.fetching]
  asked locator := by rw [hsame.outstanding, hsame.pending, hwaiting.asked]
  idle := by rw [hsame.pending, hsame.busy]; exact hwaiting.idle

theorem sendToPeers (state : RestoreRuntime) {request : PendingRequest}
    (hother : ∀ locator, request ≠ .recoveryFetch locator) :
    SameRestore state (state.sendToPeers request) where
  numbered h := h.sendToPeers request
  envelopes := rfl
  fetches := rfl
  outstanding locator := outstanding_sendToPeers_of_ne (hother locator)
  pending := rfl
  busy := rfl
  reports := rfl

theorem setUploads (state : RestoreRuntime) (recoveryUploads : Locator → Option PendingUpload) :
    SameRestore state { state with recoveryUploads } :=
  ⟨fun h => ⟨h.nodup, h.fresh⟩, rfl, rfl, fun _ => rfl, rfl, rfl, rfl⟩

theorem setIdentity (state : RestoreRuntime) (identity : Option (Locator × Bytes)) :
    SameRestore state { state with identity } :=
  ⟨fun h => ⟨h.nodup, h.fresh⟩, rfl, rfl, fun _ => rfl, rfl, rfl, rfl⟩

theorem filter {state : RestoreRuntime} {keep : Nat × PendingRequest → Bool}
    (hkeep : ∀ entry ∈ state.pendingRequests, ∀ locator,
      entry.2 = .recoveryFetch locator → keep entry) :
    SameRestore state { state with pendingRequests := state.pendingRequests.filter keep } where
  numbered h := h.filter keep
  envelopes := rfl
  fetches := rfl
  outstanding locator := outstanding_filter fun entry hentry => hkeep entry hentry locator
  pending := rfl
  busy := rfl
  reports := rfl

theorem syncStatistics (state : RestoreRuntime) : SameRestore state state.syncStatistics := by
  unfold RestoreRuntime.syncStatistics
  split
  · rfl
  · exact .sendToPeers state fun _ => nofun

theorem publishRecovery {state published : RestoreRuntime} {locator : Locator}
    {payload : Bytes} {events : List RecoveryEvent}
    (hpublished : state.publishRecovery locator payload = some (published, events)) :
    SameRestore state published := by
  unfold RestoreRuntime.publishRecovery at hpublished
  split at hpublished
  · contradiction
  split at hpublished
  · cases hpublished
    rfl
  cases hpublished
  -- the uploads for the locator are dropped, and sent again
  have hdrop := @SameRestore.filter state (fun entry => entry.2 ≠ .recoveryPut locator)
    fun entry _ other hfetch => by simp [hfetch]
  have hsend := SameRestore.sendToPeers { state with
      pendingRequests := state.pendingRequests.filter fun entry =>
        entry.2 ≠ .recoveryPut locator } (fun _ => nofun : ∀ other,
          PendingRequest.recoveryPut locator ≠ .recoveryFetch other)
  exact (hdrop.trans hsend).trans (.setUploads _ _)

end SameRestore

variable {state : RestoreRuntime} {locator : Locator}

theorem noteEvents_of_none (hnone : state.pendingRemoteRestore = none)
    (events : List RecoveryEvent) :
    state.noteEvents events = (state, false) := by
  induction events with
  | nil => rfl
  | cons event events ih => cases event <;> simp [noteEvents, hnone, ih]

/-- Publishing an identity changes no restore when there is none, or when there are peers. -/
theorem SameRestore.publishIdentityRecovery {state : RestoreRuntime}
    (hquiet : state.pendingRemoteRestore = none ∨ state.peers ≠ []) :
    SameRestore state state.publishIdentityRecovery := by
  unfold RestoreRuntime.publishIdentityRecovery
  split
  · rfl
  next locator payload _ =>
    split
    · rfl
    next published events hpublished =>
      have hsame := SameRestore.publishRecovery hpublished
      have hnoted : (published.noteEvents events).1 = published := by
        rcases hquiet with hnone | hpeers
        · rw [noteEvents_of_none (hsame.pending.trans hnone)]
        · have : events = [] := by
            unfold RestoreRuntime.publishRecovery at hpublished
            split at hpublished
            · contradiction
            · cases hpublished
              rfl
          rw [this]
          rfl
      rw [hnoted]
      exact hsame.trans (.syncStatistics published)

/-! ## What a call does -/

/-- A call answers a request. -/
def RestoreCall.Answers (call : RestoreCall) (number : Nat) : Prop :=
  match call with
  | .response request _ _ _ => request = number
  | .failure request _ _ => request = number
  | _ => False

/-- What a call does to a restore that waits: it ends with a report, or waits on, and for
none of the requests that the call answers. -/
def Progress (before after : RestoreRuntime) (call : RestoreCall) : Prop :=
  ∃ new, after.reports = before.reports ++ new ∧
    ∀ locator, before.pendingRemoteRestore = some locator →
      (∃ report ∈ new, report.locator = locator) ∨
        after.pendingRemoteRestore = some locator ∧
          ∀ number ∈ after.outstanding locator,
            number ∈ before.outstanding locator ∧ ¬ call.Answers number

theorem SameRestore.progress {before after : RestoreRuntime} {call : RestoreCall}
    (hsame : SameRestore before after)
    (hanswers : ∀ locator, before.pendingRemoteRestore = some locator →
      ∀ number ∈ before.outstanding locator, ¬ call.Answers number) :
    Progress before after call := by
  refine ⟨[], by rw [hsame.reports, append_nil], fun locator hpending => .inr ⟨?_, ?_⟩⟩
  · rw [hsame.pending, hpending]
  · intro number hnumber
    rw [hsame.outstanding] at hnumber
    exact ⟨hnumber, hanswers locator hpending number hnumber⟩

theorem Progress.of_none {before after : RestoreRuntime} {call : RestoreCall}
    {new : List RestoreReport} (hreports : after.reports = before.reports ++ new)
    (hnone : before.pendingRemoteRestore = none) : Progress before after call :=
  ⟨new, hreports, fun locator hpending => by simp [hnone] at hpending⟩

namespace Alone

variable {state : RestoreRuntime} {locator : Locator} (halone : state.Alone locator)

include halone

theorem setFetch (fetch : Option PendingFetch) :
    Alone { state with
      recoveryFetches := update state.recoveryFetches locator fetch } locator where
  numbered := ⟨halone.numbered.nodup, halone.numbered.fresh⟩
  noEnvelope := halone.noEnvelope
  noFetch other hother := by simp [hother, halone.noFetch other hother]
  unasked := halone.unasked

theorem setEnvelopes (envelopes : List Bytes) :
    Alone { state with
      recoveredEnvelopes := update state.recoveredEnvelopes locator envelopes }
      locator where
  numbered := ⟨halone.numbered.nodup, halone.numbered.fresh⟩
  noEnvelope other hother := by simp [hother, halone.noEnvelope other hother]
  noFetch := halone.noFetch
  unasked := halone.unasked

theorem setPending (pendingRemoteRestore : Option Locator) :
    Alone { state with pendingRemoteRestore } locator where
  numbered := ⟨halone.numbered.nodup, halone.numbered.fresh⟩
  noEnvelope := halone.noEnvelope
  noFetch := halone.noFetch
  unasked := halone.unasked

theorem sendToPeers :
    (state.sendToPeers (.recoveryFetch locator)).Alone locator where
  numbered := halone.numbered.sendToPeers _
  noEnvelope := halone.noEnvelope
  noFetch := halone.noFetch
  unasked other hother := by
    rw [outstanding_sendToPeers_of_ne (by simpa using Ne.symm hother),
      halone.unasked other hother]

theorem dropRequest (number : Nat) :
    (state.dropRequest number).Alone locator where
  numbered := halone.numbered.filter _
  noEnvelope := halone.noEnvelope
  noFetch := halone.noFetch
  unasked other hother := by
    rw [outstanding_dropRequest, halone.unasked other hother, filter_nil]

/-- The restore of the only locator waits on. -/
theorem waits (hpending : state.pendingRemoteRestore = some locator) (hidle : state.busy = false)
    (hasked : state.outstanding locator ≠ [])
    (hfetch : state.recoveryFetches locator =
      some { remaining := (state.outstanding locator).length, finished := false })
    (hempty : state.recoveredEnvelopes locator = []) : state.Waiting := by
  constructor
  · exact halone.numbered
  · intro other
    by_cases hother : other = locator
    · rw [hother, hempty]
    · exact halone.noEnvelope other hother
  · intro other
    by_cases hother : other = locator
    · rw [hother, hfetch, if_pos hpending]
    · rw [halone.noFetch other hother, hpending, if_neg (by simpa using Ne.symm hother)]
  · intro other
    by_cases hother : other = locator
    · rw [hother]
      exact iff_of_true hasked hpending
    · rw [halone.unasked other hother, hpending]
      exact iff_of_false (fun h => h rfl) (by simpa using Ne.symm hother)
  · exact fun _ => hidle

end Alone

/-- The restore of the only locator ends. -/
theorem Alone.waiting (halone : state.Alone locator) (identity : Option (Locator × Bytes))
    (reports : List RestoreReport) :
    Waiting { state.cancelRecoveryFetch locator with
      pendingRemoteRestore := none
      identity
      reports } := by
  have hunasked : ∀ other, (state.cancelRecoveryFetch locator).outstanding other = [] := by
    intro other
    by_cases hother : other = locator
    · rw [hother, outstanding_cancelRecoveryFetch]
    · rw [outstanding_cancelRecoveryFetch_of_ne hother, halone.unasked other hother]
  constructor
  · exact ⟨(halone.numbered.filter _).nodup, (halone.numbered.filter _).fresh⟩
  · intro other
    by_cases hother : other = locator
    · simp [cancelRecoveryFetch, hother]
    · simp [cancelRecoveryFetch, hother, halone.noEnvelope other hother]
  · intro other
    by_cases hother : other = locator
    · simp [cancelRecoveryFetch, hother]
    · simp [cancelRecoveryFetch, hother, halone.noFetch other hother]
  · intro other
    exact ⟨fun hasked => absurd (hunasked other) hasked, nofun⟩
  · exact nofun

theorem Waiting.alone (hwaiting : state.Waiting)
    (hpending : ∀ other, state.pendingRemoteRestore = some other → other = locator) :
    state.Alone locator where
  numbered := hwaiting.numbered
  noEnvelope other _ := hwaiting.noEnvelope other
  noFetch other hother := by
    rw [hwaiting.fetching, if_neg fun h => hother (hpending other h)]
  unasked other hother := by
    by_contra hasked
    exact hother (hpending other ((hwaiting.asked other).mp hasked))

theorem Alone.failRemoteRestore (halone : state.Alone locator)
    (hpending : state.pendingRemoteRestore = some locator) : state.failRemoteRestore.Waiting ∧
      state.failRemoteRestore.reports = state.reports ++ [.failed locator] := by
  unfold RestoreRuntime.failRemoteRestore
  rw [hpending]
  exact ⟨halone.waiting _ _, rfl⟩

/-- The calls that keep the archive and the restore together: the peers are not replaced
while a restore waits. -/
def Spares (state : RestoreRuntime) : RestoreCall → Prop
  | .configureArchiveNodes peers minimumConfirmedReplicas =>
    state.pendingRemoteRestore = none ∨
      state.configurePeers peers minimumConfirmedReplicas = none
  | _ => True

section Calls

variable {state : RestoreRuntime} {locator : Locator}

/-- A restore begins: with peers it has as many requests as there are, without it is over. -/
theorem Waiting.restoreRemoteIdentity (hwaiting : state.Waiting) (locator : Locator)
    (opens : Bytes → Bool) : (state.run (.restoreRemoteIdentity locator opens)).Waiting ∧
      Progress state (state.run (.restoreRemoteIdentity locator opens))
        (.restoreRemoteIdentity locator opens) := by
  simp only [run]
  split
  · exact ⟨hwaiting, SameRestore.progress (.refl state) fun _ _ _ _ => id⟩
  next hnew =>
    have hnone : state.pendingRemoteRestore = none := by
      simp only [not_or, Option.not_isSome_iff_eq_none] at hnew
      exact hnew.2.1
    have hfree : state.busy = false := by
      simp only [not_or, Bool.not_eq_true] at hnew
      exact hnew.1
    have halone : state.Alone locator := hwaiting.alone (by simp [hnone])
    unfold fetchRecovery
    split
    · -- nobody to ask
      obtain ⟨hafter, hreports⟩ := (halone.setPending (some locator)).failRemoteRestore rfl
      have hrun : processArchiveEvents { state with pendingRemoteRestore := some locator } opens
          [.failed locator] =
          failRemoteRestore { state with pendingRemoteRestore := some locator } := by
        simp [processArchiveEvents, noteEvents]
      rw [hrun]
      exact ⟨hafter, Progress.of_none hreports hnone⟩
    next hpeers =>
      have hfetch : state.recoveryFetches locator = none := by
        rw [hwaiting.fetching, hnone, if_neg nofun]
      simp only [hfetch, Option.any_none, Bool.false_eq_true, if_false]
      refine ⟨?_, Progress.of_none (append_nil _).symm hnone⟩
      have hlength : ((state.sendToPeers (.recoveryFetch locator)).outstanding locator).length =
          state.peers.length := by
        rw [length_outstanding_sendToPeers, Nat.add_eq_right, length_eq_zero_iff]
        by_contra hasked
        simpa [hnone] using (hwaiting.asked locator).mp hasked
      have hasked : (state.sendToPeers (.recoveryFetch locator)).outstanding locator ≠ [] := by
        rw [← length_pos_iff, hlength]
        exact length_pos_iff.mpr hpeers
      refine ((((halone.setEnvelopes []).sendToPeers).setFetch _).setPending _).waits rfl hfree
        hasked ?_ ?_
      · refine (update_self ..).trans ?_
        rw [← hlength]
        rfl
      · exact update_self ..

/-! ### Answers -/

theorem processArchiveEvents_failed (opens : Bytes → Bool) (locator : Locator) :
    state.processArchiveEvents opens [.failed locator] =
      if state.pendingRemoteRestore = some locator then state.failRemoteRestore else state := by
  simp only [processArchiveEvents, noteEvents]
  split <;> rfl

theorem processArchiveEvents_fetched (opens : Bytes → Bool) (locator : Locator) :
    state.processArchiveEvents opens [.fetched locator] =
      if state.pendingRemoteRestore = some locator then state.completeRemoteRestore opens
      else state := by
  simp [processArchiveEvents, noteEvents]

theorem completeRemoteRestore_eq {payload : Bytes} {candidates : List Bytes}
    (hidle : state.busy = false) (hpending : state.pendingRemoteRestore = some locator)
    (hcandidate : state.recoveredEnvelopes locator = payload :: candidates) (opens : Bytes → Bool) :
    state.completeRemoteRestore opens = let taken := { state with
        recoveredEnvelopes := update state.recoveredEnvelopes locator candidates }
      if opens payload then
        publishIdentityRecovery { taken.cancelRecoveryFetch locator with
          pendingRemoteRestore := none
          identity := some (locator, payload)
          reports := taken.reports ++ [.restored locator] }
      else if taken.recoveryFetchIsExhausted locator then taken.failRemoteRestore
      else taken := by
  simp only [completeRemoteRestore, hidle, hpending, takeRecoveredEnvelope, hcandidate,
    Bool.false_eq_true, if_false]

/-- A request for the locator has been answered, and the count not yet lowered. -/
structure Answered (state : RestoreRuntime) (locator : Locator) : Prop
    extends Alone state locator where
  pending : state.pendingRemoteRestore = some locator
  idle : state.busy = false
  fetching : state.recoveryFetches locator =
    some { remaining := (state.outstanding locator).length + 1, finished := false }
  empty : state.recoveredEnvelopes locator = []

/-- The restore ends with one report, or waits for the other requests. -/
def Settles (state after : RestoreRuntime) (locator : Locator) : Prop :=
  after.Waiting ∧
    ((∃ report : RestoreReport, report.locator = locator ∧
        after.reports = state.reports ++ [report]) ∨
      after.pendingRemoteRestore = some locator ∧ after.reports = state.reports ∧
        after.outstanding locator = state.outstanding locator)

theorem Waiting.answered (hwaiting : state.Waiting) {number : Nat}
    (hmem : (number, .recoveryFetch locator) ∈ state.pendingRequests) :
    (state.dropRequest number).Answered locator := by
  have hasked : state.outstanding locator ≠ [] :=
    ne_nil_of_mem (mem_outstanding.mpr hmem)
  have hpending : state.pendingRemoteRestore = some locator := (hwaiting.asked locator).mp hasked
  have halone : state.Alone locator := hwaiting.alone fun other hother => by
    simpa [hpending, eq_comm] using hother
  have hpositive := length_pos_iff.mpr hasked
  constructor
  · exact halone.dropRequest number
  · exact hpending
  · exact hwaiting.idle (by simp [hpending])
  · have hlength := length_outstanding_dropRequest hwaiting.numbered hmem
    rw [hlength, Nat.sub_add_cancel hpositive]
    exact (hwaiting.fetching locator).trans (if_pos hpending)
  · exact hwaiting.noEnvelope locator

theorem Answered.finishRecoveryFetchAttempt (hanswered : state.Answered locator)
    (opens : Bytes → Bool) :
    state.Settles (processArchiveEvents (state.finishRecoveryFetchAttempt locator).1 opens
      (state.finishRecoveryFetchAttempt locator).2) locator := by
  simp only [RestoreRuntime.finishRecoveryFetchAttempt, hanswered.fetching, hanswered.empty,
    Nat.add_sub_cancel]
  by_cases hlast : (state.outstanding locator).length = 0
  · -- the last request: the restore has failed
    simp only [hlast, and_self, if_true, ne_eq, not_true_eq_false, if_false]
    rw [processArchiveEvents_failed, if_pos hanswered.pending]
    obtain ⟨hafter, hreports⟩ :=
      (hanswered.toAlone.setFetch (some { remaining := 0, finished := true })).failRemoteRestore
        hanswered.pending
    exact ⟨hafter, .inl ⟨.failed locator, rfl, hreports⟩⟩
  · simp only [hlast, and_false, if_false]
    refine ⟨(hanswered.toAlone.setFetch _).waits hanswered.pending hanswered.idle ?_ ?_
      hanswered.empty, .inr ⟨hanswered.pending, rfl, rfl⟩⟩
    · exact fun h => hlast (length_eq_zero_iff.mpr h)
    · exact update_self ..

/-- A candidate is taken out at once. -/
theorem Answered.candidate (hanswered : state.Answered locator)
    (envelope : Bytes) (opens : Bytes → Bool) :
    state.Settles (completeRemoteRestore { state with
      recoveredEnvelopes := update state.recoveredEnvelopes locator [envelope]
      recoveryFetches := update state.recoveryFetches locator
        (some { remaining := (state.outstanding locator).length
                finished := (state.outstanding locator).length = 0 }) } opens) locator := by
  have halone := (hanswered.toAlone.setFetch (some
    { remaining := (state.outstanding locator).length
      finished := (state.outstanding locator).length = 0 })).setEnvelopes []
  rw [@completeRemoteRestore_eq { state with
      recoveredEnvelopes := update state.recoveredEnvelopes locator [envelope]
      recoveryFetches := update state.recoveryFetches locator
        (some { remaining := (state.outstanding locator).length
                finished := (state.outstanding locator).length = 0 }) } locator envelope []
    hanswered.idle hanswered.pending (update_self ..)]
  simp only [update_idem]
  split
  · -- it opens: the identity is loaded
    have hafter := halone.waiting (some (locator, envelope)) (state.reports ++ [.restored locator])
    have hsame t (hnone : t.pendingRemoteRestore = none) :=
      @SameRestore.publishIdentityRecovery t (.inl hnone)
    exact ⟨(hsame _ rfl).waiting hafter, .inl ⟨.restored locator, rfl, (hsame _ rfl).reports⟩⟩
  split
  next hlast =>
    obtain ⟨hafter, hreports⟩ := halone.failRemoteRestore hanswered.pending
    exact ⟨hafter, .inl ⟨.failed locator, rfl, hreports⟩⟩
  next hlast =>
    have hmore : (state.outstanding locator).length ≠ 0 := by
      simpa [recoveryFetchIsExhausted] using hlast
    refine ⟨halone.waits hanswered.pending hanswered.idle ?_ ?_ (update_self ..),
      .inr ⟨hanswered.pending, rfl, rfl⟩⟩
    · exact fun h => hmore (length_eq_zero_iff.mpr h)
    · simp only [update_self, hmore, decide_false]
      rfl

theorem Answered.handleRecoveryFetchResponse (hanswered : state.Answered locator)
    (answer : ArchiveAnswer) (opens : Bytes → Bool) :
    state.Settles (processArchiveEvents (state.handleRecoveryFetchResponse locator answer).1 opens
      (state.handleRecoveryFetchResponse locator answer).2) locator := by
  unfold RestoreRuntime.handleRecoveryFetchResponse
  split
  next answered envelope =>
    split
    · simp only [hanswered.fetching, hanswered.empty, nil_append, Nat.add_sub_cancel]
      rw [processArchiveEvents_fetched, if_pos hanswered.pending]
      exact hanswered.candidate envelope opens
    · exact hanswered.finishRecoveryFetchAttempt opens
  · exact hanswered.finishRecoveryFetchAttempt opens

theorem SameRestore.dropRequest (hnumbered : state.Numbered) {number : Nat}
    {request : PendingRequest} (hmem : (number, request) ∈ state.pendingRequests)
    (hother : ∀ locator, request ≠ .recoveryFetch locator) :
    SameRestore state (state.dropRequest number) := by
  refine .filter fun entry hentry locator hfetch => ?_
  have : entry.1 ≠ number := by
    rintro rfl
    exact hother locator ((hnumbered.unique hmem hentry).trans hfetch)
  simpa using this

theorem SameRestore.handleReceiptResponse (state : RestoreRuntime) (answer : ArchiveAnswer) :
    SameRestore state (state.handleReceiptResponse answer) := by
  cases answer with
  | listed newAddresses =>
    simp only [RestoreRuntime.handleReceiptResponse]
    induction newAddresses generalizing state with
    | zero => rfl
    | succ n ih => exact (@SameRestore.sendToPeers state .receipt fun _ => nofun).trans (ih _)
  | _ => rfl

theorem finishRecoveryPutAttempt_cases (state : RestoreRuntime) (locator : Locator)
    (confirmedPeer : Option PeerId) :
    SameRestore state (state.finishRecoveryPutAttempt locator confirmedPeer).1 ∧
      ((state.finishRecoveryPutAttempt locator confirmedPeer).2 = [] ∨
        (state.finishRecoveryPutAttempt locator confirmedPeer).2 = [.failed locator]) := by
  unfold finishRecoveryPutAttempt
  split
  · exact ⟨.refl state, .inl rfl⟩
  dsimp only
  split
  · exact ⟨.setUploads state _, .inl rfl⟩
  split
  · exact ⟨.setUploads state _, .inr rfl⟩
  · exact ⟨.setUploads state _, .inl rfl⟩

theorem handleRecoveryPutResponse_cases (state : RestoreRuntime) (peer : PeerId)
    (locator : Locator) (answer : ArchiveAnswer) :
    SameRestore state (state.handleRecoveryPutResponse peer locator answer).1 ∧
      ((state.handleRecoveryPutResponse peer locator answer).2 = [] ∨
        (state.handleRecoveryPutResponse peer locator answer).2 = [.failed locator]) := by
  unfold handleRecoveryPutResponse
  split
  · split <;> exact finishRecoveryPutAttempt_cases state locator _
  · exact finishRecoveryPutAttempt_cases state locator _

theorem Waiting.failRemoteRestore (hwaiting : state.Waiting) : state.failRemoteRestore.Waiting ∧
      ∃ new, state.failRemoteRestore.reports = state.reports ++ new ∧
        ∀ locator, state.pendingRemoteRestore = some locator →
          ∃ report ∈ new, report.locator = locator := by
  cases hpending : state.pendingRemoteRestore with
  | none =>
    have : state.failRemoteRestore = state := by simp [RestoreRuntime.failRemoteRestore, hpending]
    rw [this]
    exact ⟨hwaiting, [], (append_nil _).symm, nofun⟩
  | some locator =>
    have halone : state.Alone locator := hwaiting.alone fun other hother => by
      simpa [hpending, eq_comm] using hother
    obtain ⟨hafter, hreports⟩ := halone.failRemoteRestore hpending
    refine ⟨hafter, _, hreports, fun other hother => ⟨_, mem_singleton_self _, ?_⟩⟩
    simpa [RestoreReport.locator] using hother

/-- A failed upload ends a restore of the same locator. -/
theorem Waiting.processFailed (hwaiting : state.Waiting) (locator : Locator)
    (opens : Bytes → Bool) (call : RestoreCall)
    (hanswers : ∀ locator, state.pendingRemoteRestore = some locator →
      ∀ number ∈ state.outstanding locator, ¬ call.Answers number) :
    (state.processArchiveEvents opens [.failed locator]).Waiting ∧
      Progress state (state.processArchiveEvents opens [.failed locator]) call := by
  rw [processArchiveEvents_failed]
  split
  · obtain ⟨hafter, new, hreports, hends⟩ := hwaiting.failRemoteRestore
    exact ⟨hafter, new, hreports, fun other hother => .inl (hends other hother)⟩
  · exact ⟨hwaiting, SameRestore.progress (.refl state) hanswers⟩

/-- What an answer does. -/
theorem Waiting.answer (hwaiting : state.Waiting) (request : Nat) (peer : PeerId)
    (answer : ArchiveAnswer) (opens : Bytes → Bool) {call : RestoreCall}
    (hcall : ∀ number, call.Answers number ↔ request = number) :
    (processArchiveEvents (state.handleResponse request peer answer).1 opens
      (state.handleResponse request peer answer).2).Waiting ∧
      Progress state (processArchiveEvents (state.handleResponse request peer answer).1 opens
        (state.handleResponse request peer answer).2) call := by
  unfold handleResponse
  -- a request that is not for an identity is none of those the restore waits for
  have hother {found : Option PendingRequest}
      (hlookup : state.pendingRequests.lookup request = found)
      (hfound : ∀ locator, found ≠ some (.recoveryFetch locator)) :
      ∀ locator, ∀ number ∈ state.outstanding locator, ¬ call.Answers number := by
    intro locator number hnumber hanswers
    obtain rfl := (hcall number).mp hanswers
    exact hfound locator
      (hlookup.symm.trans (hwaiting.numbered.lookup (mem_outstanding.mp hnumber)))
  split
  next hlookup =>
    exact ⟨hwaiting, SameRestore.progress (.refl state) fun locator _ =>
      hother hlookup (fun _ => nofun) locator⟩
  next hlookup =>
    have hsame := (SameRestore.dropRequest hwaiting.numbered (mem_of_lookup hlookup)
      fun _ => nofun).trans (.handleReceiptResponse _ answer)
    exact ⟨hsame.waiting hwaiting, hsame.progress fun locator _ =>
      hother hlookup (fun _ => nofun) locator⟩
  next locator hlookup =>
    have hdrop := SameRestore.dropRequest hwaiting.numbered (mem_of_lookup hlookup)
      (fun _ => nofun)
    obtain ⟨hput, hevents⟩ :=
      handleRecoveryPutResponse_cases (state.dropRequest request) peer locator answer
    have hsame := hdrop.trans hput
    rcases hevents with hevents | hevents
    · rw [hevents]
      exact ⟨hsame.waiting hwaiting, hsame.progress fun locator _ =>
        hother hlookup (fun _ => nofun) locator⟩
    · rw [hevents]
      obtain ⟨hafter, new, hreports, hends⟩ :=
        (hsame.waiting hwaiting).processFailed locator opens call
          fun other _ number hnumber => by
            rw [hsame.outstanding] at hnumber
            exact hother hlookup (fun _ => nofun) other number hnumber
      refine ⟨hafter, new, by rw [hreports, hsame.reports], fun other hpending => ?_⟩
      rw [← hsame.outstanding]
      exact hends other (hsame.pending.trans hpending)
  next locator hlookup =>
    have hmem := mem_of_lookup hlookup
    have hanswered := hwaiting.answered hmem
    obtain ⟨hafter, hsettled⟩ := hanswered.handleRecoveryFetchResponse answer opens
    have hpending : state.pendingRemoteRestore = some locator := hanswered.pending
    refine ⟨hafter, ?_⟩
    rcases hsettled with ⟨report, hreport, hreports⟩ | ⟨hwaits, hreports, houtstanding⟩
    · refine ⟨[report], hreports, fun other hother => .inl ⟨report, mem_singleton_self _, ?_⟩⟩
      simpa [hreport, hpending] using hother
    · refine ⟨[], hreports.trans (append_nil _).symm, fun other hother => .inr ?_⟩
      obtain rfl : locator = other := by simpa [hpending] using hother
      refine ⟨hwaits, fun number hnumber => ?_⟩
      rw [houtstanding, outstanding_dropRequest, mem_filter] at hnumber
      refine ⟨hnumber.1, fun hanswers => ?_⟩
      simp [(hcall number).mp hanswers] at hnumber

theorem Waiting.setBusy (hwaiting : state.Waiting) {busy : Bool}
    (hbusy : state.pendingRemoteRestore.isSome → busy = false) :
    Waiting { state with busy } :=
  ⟨⟨hwaiting.numbered.nodup, hwaiting.numbered.fresh⟩, hwaiting.noEnvelope, hwaiting.fetching,
    hwaiting.asked, hbusy⟩

variable {minimumConfirmedReplicas : Nat} {configured : RestoreRuntime}

theorem configurePeers_eq {peers : List PeerId}
    (hconfigured : state.configurePeers peers minimumConfirmedReplicas = some configured) :
    configured.peers ≠ [] ∧ configured = { state with
      peers := configured.peers
      minimumConfirmedReplicas
      pendingRequests := []
      recoveryUploads := fun _ => none
      recoveryFetches := fun _ => none
      recoveredEnvelopes := fun _ => [] } := by
  unfold configurePeers at hconfigured
  dsimp only at hconfigured
  split at hconfigured
  · contradiction
  next hvalid =>
    cases hconfigured
    exact ⟨fun hempty => hvalid (.inl hempty), rfl⟩

/-- New peers for a state without a restore. -/
theorem Waiting.configurePeers (hwaiting : state.Waiting)
    (hnone : state.pendingRemoteRestore = none) {peers : List PeerId}
    (hconfigured : state.configurePeers peers minimumConfirmedReplicas = some configured) :
    configured.Waiting := by
  rw [(configurePeers_eq hconfigured).2]
  constructor
  · exact ⟨nodup_nil, fun _ hentry => absurd hentry not_mem_nil⟩
  · exact fun _ => rfl
  · intro locator
    rw [hnone, if_neg nofun]
  · intro locator
    simp [outstanding, hnone]
  · exact hwaiting.idle

/-- The step: what a call does to a state in which the archive and the restore agree. -/
theorem Waiting.run (hwaiting : state.Waiting) {call : RestoreCall} (hspares : state.Spares call) :
    (state.run call).Waiting ∧ Progress state (state.run call) call := by
  -- most calls answer nothing
  have hsame {after : RestoreRuntime} (hafter : SameRestore state after)
      (hanswers : ∀ number, ¬ call.Answers number) :
      after.Waiting ∧ Progress state after call :=
    ⟨hafter.waiting hwaiting, hafter.progress fun _ _ number _ => hanswers number⟩
  cases call with
  | restoreRemoteIdentity locator opens => exact hwaiting.restoreRemoteIdentity locator opens
  | configureArchiveNodes peers minimumConfirmedReplicas =>
    simp only [RestoreRuntime.run]
    split
    · exact hsame (.refl state) fun _ => id
    next configured hconfigured =>
      have hnone : state.pendingRemoteRestore = none :=
        hspares.resolve_right (by simp [hconfigured])
      have hafter := hwaiting.configurePeers hnone hconfigured
      have hpublish : SameRestore configured configured.publishIdentityRecovery :=
        .publishIdentityRecovery (.inr (configurePeers_eq hconfigured).1)
      refine ⟨hpublish.waiting hafter, @Progress.of_none _ _ _ [] ?_ hnone⟩
      rw [hpublish.reports, (configurePeers_eq hconfigured).2, append_nil]
  | createIdentity locator payload =>
    simp only [RestoreRuntime.run]
    split
    · exact hsame (.refl state) fun _ => id
    next hnew =>
      simp only [not_or, Option.not_isSome_iff_eq_none] at hnew
      exact hsame ((SameRestore.setIdentity state _).trans
        (.publishIdentityRecovery (.inl hnew.1))) fun _ => id
  | restoreIdentity locator payload =>
    simp only [RestoreRuntime.run]
    split
    · exact hsame (.refl state) fun _ => id
    next hnew =>
      simp only [not_or, Option.not_isSome_iff_eq_none] at hnew
      exact hsame ((SameRestore.setIdentity state _).trans
        (.publishIdentityRecovery (.inl hnew.2))) fun _ => id
  | syncStatistics => exact hsame (.syncStatistics state) fun _ => id
  | requestReceipt => exact hsame (.sendToPeers state fun _ => nofun) fun _ => id
  | switchAccount =>
    simp only [RestoreRuntime.run]
    split
    · exact hsame (.refl state) fun _ => id
    · obtain ⟨hafter, new, hreports, hends⟩ := hwaiting.failRemoteRestore
      exact ⟨(SameRestore.setIdentity _ none).waiting hafter, new, hreports,
        fun locator hpending => .inl (hends locator hpending)⟩
  | enter =>
    simp only [RestoreRuntime.run]
    split
    · exact hsame (.refl state) fun _ => id
    next hnone =>
      have hnone : state.pendingRemoteRestore = none := Option.not_isSome_iff_eq_none.mp hnone
      exact ⟨hwaiting.setBusy (by simp [hnone]),
        Progress.of_none (append_nil _).symm hnone⟩
  | leave =>
    exact ⟨hwaiting.setBusy fun _ => rfl, [], (append_nil _).symm,
      fun locator hpending => .inr ⟨hpending, fun number hnumber => ⟨hnumber, id⟩⟩⟩
  | response request peer answer opens =>
    exact hwaiting.answer request peer answer opens fun _ => Iff.rfl
  | failure request peer opens =>
    exact hwaiting.answer request peer .rejected opens fun _ => Iff.rfl

end Calls

/-! ## Runs -/

/-- No call of a run replaces the peers while a restore waits. -/
def SparesAll (state : RestoreRuntime) : List RestoreCall → Prop
  | [] => True
  | call :: calls => state.Spares call ∧ (state.run call).SparesAll calls

section Runs

variable {state : RestoreRuntime}

variable {calls : List RestoreCall}

theorem Waiting.runAll (hwaiting : state.Waiting) (hspares : state.SparesAll calls) :
    (state.runAll calls).Waiting := by
  induction calls generalizing state with
  | nil => exact hwaiting
  | cons call calls ih => exact ih (hwaiting.run hspares.1).1 hspares.2

/-- A restore that waits has a request that is outstanding, or an envelope to try. -/
def CanEnd (state : RestoreRuntime) : Prop :=
  ∀ locator, state.pendingRemoteRestore = some locator →
    state.outstanding locator ≠ [] ∨ state.recoveredEnvelopes locator ≠ []

theorem Waiting.canEnd (hwaiting : state.Waiting) : state.CanEnd :=
  fun locator hpending => .inl ((hwaiting.asked locator).mpr hpending)

/-- New peers leave a restore with nothing to wait for. -/
theorem Waiting.canEnd_run_iff (hwaiting : state.Waiting)
    (call : RestoreCall) : (state.run call).CanEnd ↔ state.Spares call := by
  constructor
  · intro hcan
    cases call with
    | configureArchiveNodes peers minimumConfirmedReplicas =>
      by_contra hspares
      simp only [Spares, not_or, ← ne_eq, Option.ne_none_iff_exists'] at hspares
      obtain ⟨⟨locator, hpending⟩, configured, hconfigured⟩ := hspares
      have hrun : state.run (.configureArchiveNodes peers minimumConfirmedReplicas) =
          configured.publishIdentityRecovery := by
        simp only [RestoreRuntime.run, hconfigured]
      obtain ⟨hpeers, heq⟩ := configurePeers_eq hconfigured
      have hpublish := SameRestore.publishIdentityRecovery (.inr hpeers)
      rw [hrun] at hcan
      rcases hcan locator (by rw [hpublish.pending, heq, hpending]) with hasked | hcandidate
      · rw [hpublish.outstanding, heq] at hasked
        exact hasked rfl
      · rw [hpublish.envelopes, heq] at hcandidate
        exact hcandidate rfl
    | _ => trivial
  · intro hspares
    exact (hwaiting.run hspares).1.canEnd

theorem Waiting.reports_runAll (hwaiting : state.Waiting) (hspares : state.SparesAll calls) :
    ∃ new, (state.runAll calls).reports = state.reports ++ new := by
  induction calls generalizing state with
  | nil => exact ⟨[], (append_nil _).symm⟩
  | cons call calls ih =>
    obtain ⟨hafter, first, hfirst, -⟩ := hwaiting.run hspares.1
    obtain ⟨later, hlater⟩ := ih hafter hspares.2
    exact ⟨first ++ later, by
      rw [← append_assoc, ← hfirst]
      exact hlater⟩

/-- A restore is over once every request that it waits for has been answered. -/
theorem Waiting.ends (hwaiting : state.Waiting) (hspares : state.SparesAll calls)
    {locator : Locator} (hpending : state.pendingRemoteRestore = some locator)
    (hanswered : ∀ number ∈ state.outstanding locator, ∃ call ∈ calls, call.Answers number) :
    ∃ new, (state.runAll calls).reports = state.reports ++ new ∧
      ∃ report ∈ new, report.locator = locator := by
  induction calls generalizing state with
  | nil =>
    -- no call answers the request that there must be
    obtain ⟨number, hnumber⟩ :=
      exists_mem_of_ne_nil _ ((hwaiting.asked locator).mpr hpending)
    obtain ⟨call, hcall, -⟩ := hanswered number hnumber
    exact absurd hcall not_mem_nil
  | cons call calls ih =>
    obtain ⟨hafter, first, hfirst, hprogress⟩ := hwaiting.run hspares.1
    rcases hprogress locator hpending with ⟨report, hreport, hlocator⟩ | ⟨hwaits, hshrinks⟩
    · obtain ⟨later, hlater⟩ := hafter.reports_runAll hspares.2
      refine ⟨first ++ later, ?_, report, mem_append_left _ hreport, hlocator⟩
      rw [← append_assoc, ← hfirst]
      exact hlater
    · have hleft : ∀ number ∈ (state.run call).outstanding locator,
          ∃ later ∈ calls, later.Answers number := by
        intro number hnumber
        obtain ⟨hbefore, hnot⟩ := hshrinks number hnumber
        obtain ⟨answer, hanswer, hanswers⟩ := hanswered number hbefore
        rcases mem_cons.mp hanswer with rfl | hlater
        · exact absurd hanswers hnot
        · exact ⟨answer, hlater, hanswers⟩
      obtain ⟨later, hlater, report, hreport, hlocator⟩ := ih hafter hspares.2 hwaits hleft
      refine ⟨first ++ later, ?_, report, mem_append_right _ hreport, hlocator⟩
      rw [← append_assoc, ← hfirst]
      exact hlater

end Runs

/-- In every run in which the archive is not configured during a restore, a restore that waits
has something to wait for, the next call keeps it so exactly if it does not configure the
archive, and the restore ends, with a report, when what it waits for has been answered. -/
theorem remote_restore_ends (calls : List RestoreCall) (hspares : initial.SparesAll calls) :
    (initial.runAll calls).CanEnd ∧
      (∀ call, ((initial.runAll calls).run call).CanEnd ↔
        (initial.runAll calls).Spares call) ∧
      ∀ locator more, (initial.runAll calls).pendingRemoteRestore = some locator →
        (initial.runAll calls).SparesAll more →
        (∀ number ∈ (initial.runAll calls).outstanding locator,
          ∃ call ∈ more, call.Answers number) →
        ∃ new, (initial.runAll (calls ++ more)).reports =
            (initial.runAll calls).reports ++ new ∧
          ∃ report ∈ new, report.locator = locator := by
  have hwaiting : (initial.runAll calls).Waiting := Waiting.initial.runAll hspares
  refine ⟨hwaiting.canEnd, hwaiting.canEnd_run_iff, ?_⟩
  intro locator more hpending hmore hanswered
  have happend : initial.runAll (calls ++ more) = (initial.runAll calls).runAll more :=
    foldl_append
  rw [happend]
  exact hwaiting.ends hmore hpending hanswered

/-- The only peer is asked for the envelope behind a locator. -/
def restoring (locator : Locator) : List RestoreCall :=
  [.configureArchiveNodes [⟨0⟩] 1, .restoreRemoteIdentity locator fun _ => false]

theorem remote_restore_ends_failure :
    (initial.runAll (restoring (ofNat 7))).CanEnd ∧
      ∃ new, (initial.runAll (restoring (ofNat 7) ++
            [.failure 0 ⟨0⟩ fun _ => false])).reports =
          (initial.runAll (restoring (ofNat 7))).reports ++ new ∧
        ∃ report ∈ new, report.locator = ofNat 7 := by
  have hends := remote_restore_ends (restoring (ofNat 7)) ⟨.inl rfl, trivial, trivial⟩
  refine ⟨hends.1, hends.2.2 (ofNat 7) [.failure 0 ⟨0⟩ fun _ => false]
    (by decide +kernel) ⟨trivial, trivial⟩ fun number hnumber =>
      ⟨_, mem_singleton_self _, ?_⟩⟩
  have hsingle : (initial.runAll (restoring (ofNat 7))).outstanding
      (ofNat 7) = [0] := by decide +kernel
  rw [hsingle] at hnumber
  exact (mem_singleton.mp hnumber).symm

/-- The peers are configured again while the restore waits: no request is left for it, no
envelope has come, and every other way to an identity is refused while it waits. -/
theorem reconfiguring_wedges_restore :
    ∃ state, state = initial.runAll (restoring (ofNat 7) ++
        [.configureArchiveNodes [⟨0⟩] 1]) ∧
      state.pendingRemoteRestore = some (ofNat 7) ∧
      state.outstanding (ofNat 7) = [] ∧
      state.recoveredEnvelopes (ofNat 7) = [] ∧ state.reports = [] ∧
      ∀ locator opens, state.run (.restoreRemoteIdentity locator opens) = state := by
  refine ⟨_, rfl, by decide +kernel, by decide +kernel, by decide +kernel, by decide +kernel, ?_⟩
  intro locator opens
  have hpending : (initial.runAll (restoring (ofNat 7) ++
      [.configureArchiveNodes [⟨0⟩] 1])).pendingRemoteRestore.isSome := by decide +kernel
  simp only [RestoreRuntime.run, hpending, true_or, or_true, if_true]

end RestoreRuntime

end TokenHoldem
