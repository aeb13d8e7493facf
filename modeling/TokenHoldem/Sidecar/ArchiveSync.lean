import Mathlib.Data.Finset.Basic
import TokenHoldem.Sidecar.RemoteRestore
import TokenHoldem.Sidecar.VolunteerArchive

/-!
# Fetching the receipts of a player

`sync_player` of `ArchiveRuntime` (`archive_runtime.rs`) asks every archive which receipts of a
player it has, and fetches those that are new from all of them. An address is new if it has
no entry in `fetches`. An entry is made when a fetch starts and is never removed, also not
when every archive has failed to answer: such a receipt is not fetched again.

- `Covered` — a receipt has been verified, or an archive that has it is being asked;
- `Complete` — what a round keeps: whatever was listed so far, or has an entry, is covered;
- `Stuck` — what a round cannot mend: an entry, and nobody asked who has the receipt;
- `sync_complete_iff` — a round that is answered honestly brings every receipt that is listed
  exactly if every receipt with an entry was covered before.
-/

namespace TokenHoldem

open Library List Function VolunteerArchive

/-- `PendingRequest::Fetch` and `PendingRequest::List`, with the peer that the swarm has
asked. The other requests touch none of the fields modelled here. -/
inductive SyncRequest where
  | fetch (peer : PeerId) (address : ContentAddress)
  | list (peer : PeerId) (playerId : PlayerId)
deriving DecidableEq

structure PendingList where
  remaining : Nat
  received : Finset ContentAddress

/-- The parts of `ArchiveRuntime` that take part in a sync. The peers are configured. -/
structure SyncRuntime where
  peers : List PeerId
  nextRequest : Nat
  pendingRequests : Nat → Option SyncRequest
  fetches : ContentAddress → Option PendingFetch
  lists : PlayerId → Option PendingList
  verifiedReceipts : ContentAddress → Option CoSignedReceipt

/-- An answer to a request. Whether the signature of the node verifies, under the key it has
used before, is part of the input. -/
inductive SyncAnswer where
  | fetched (address : ContentAddress) (signed : Bool) (content : Option Bytes)
  | listed (playerId : PlayerId) (signed : Bool) (addresses : List ContentAddress)
  | rejected

namespace SyncRuntime

/-- The runtime when `configure_peers` has just set the peers. It keeps the receipts that
have been verified so far. -/
def configured (peers : List PeerId) (verifiedReceipts : ContentAddress → Option CoSignedReceipt) :
    SyncRuntime where
  peers
  nextRequest := 0
  pendingRequests _ := none
  fetches _ := none
  lists _ := none
  verifiedReceipts

variable (state : SyncRuntime)

/-- The peer that gets a request with a number, when the next requests are sent. -/
def asked (number : Nat) : Option PeerId :=
  if state.nextRequest ≤ number then state.peers[number - state.nextRequest]? else none

/-- `send_request` to every peer. -/
def send (request : PeerId → SyncRequest) : SyncRuntime :=
  { state with
    nextRequest := state.nextRequest + state.peers.length
    pendingRequests := fun number =>
      ((state.asked number).map request).or (state.pendingRequests number) }

variable (address : ContentAddress)

def startFetch : SyncRuntime :=
  let sent := state.send fun peer => .fetch peer address
  { sent with
    fetches := update state.fetches address
      (some { remaining := state.peers.length, finished := false }) }

def syncPlayer (playerId : PlayerId) : SyncRuntime :=
  if state.peers = [] then state
  else
    let sent := state.send fun peer => .list peer playerId
    { sent with
      lists := update state.lists playerId
        (some { remaining := state.peers.length, received := ∅ }) }

def fetchReceipt : SyncRuntime :=
  if (state.verifiedReceipts address).isSome ∨ (state.fetches address).isSome ∨ state.peers = []
  then state else state.startFetch address

def finishFetchAttempt : SyncRuntime :=
  match state.fetches address with
  | none => state
  | some fetch =>
    let remaining := fetch.remaining - 1
    { state with
      fetches := update state.fetches address
        (some { remaining, finished := fetch.finished || remaining == 0 }) }

def finishListAttempt (playerId : PlayerId) : SyncRuntime :=
  match state.lists playerId with
  | none => state
  | some list =>
    { state with
      lists := update state.lists playerId
        (some { list with remaining := list.remaining - 1 }) }

section Responses

variable (P : Primitives) (decode : Bytes → Option CoSignedReceipt)

/-- The receipt in some content, if it passes the checks of `handle_fetch_response`. -/
def acceptedReceipt (nowUnixMs : UInt64) (address : ContentAddress) (content : Bytes) :
    Option CoSignedReceipt :=
  if maxArchiveContentBytes < content.length ∨ ContentAddress.fromContent P content ≠ address then
    none
  else (decode content).filter fun receipt => isOk (receipt.verify P nowUnixMs)

variable (state : SyncRuntime)

def handleFetchResponse (nowUnixMs : UInt64) (address answered : ContentAddress) (signed : Bool)
    (content : Option Bytes) : SyncRuntime :=
  if answered ≠ address ∨ signed = false then state.finishFetchAttempt address
  else
    match content.bind (acceptedReceipt P decode nowUnixMs address) with
    | none => state.finishFetchAttempt address
    | some receipt =>
      { state with
        verifiedReceipts := update state.verifiedReceipts address (some receipt)
        fetches := update state.fetches address
          ((state.fetches address).map fun fetch => { fetch with finished := true }) }

/-- The addresses of a list that are fetched: neither listed before in this round, nor
verified, nor with an entry. -/
def newAddresses (list : PendingList) (addresses : List ContentAddress) : List ContentAddress :=
  addresses.filter fun address =>
    address ∉ list.received ∧ (state.verifiedReceipts address).isNone ∧
      (state.fetches address).isNone

def handleListResponse (playerId answered : PlayerId) (signed : Bool)
    (addresses : List ContentAddress) : SyncRuntime :=
  if answered ≠ playerId ∨ maxPlayerArchives < addresses.length ∨ signed = false then
    state.finishListAttempt playerId
  else
    match state.lists playerId with
    | none => state
    | some list =>
      let addresses := sortedElements addresses.toFinset
      (state.newAddresses list addresses).foldl startFetch
        { state with
          lists := update state.lists playerId
            (some { remaining := list.remaining - 1
                    received := list.received ∪ addresses.toFinset }) }

/-- The state without a request. -/
def dropRequest (number : Nat) : SyncRuntime :=
  { state with pendingRequests := update state.pendingRequests number none }

/-- `ArchiveRuntime::handle_response` and, with `rejected`, `handle_failure`. -/
def handleResponse (nowUnixMs : UInt64) (number : Nat) (answer : SyncAnswer) : SyncRuntime :=
  match state.pendingRequests number, answer with
  | none, _ => state
  | some (.fetch _ address), .fetched answered signed content =>
    (state.dropRequest number).handleFetchResponse P decode nowUnixMs address answered signed
      content
  | some (.list _ playerId), .listed answered signed addresses =>
    (state.dropRequest number).handleListResponse playerId answered signed addresses
  | some (.fetch _ address), _ => (state.dropRequest number).finishFetchAttempt address
  | some (.list _ playerId), _ => (state.dropRequest number).finishListAttempt playerId

/-- `publish_receipt`, with the bytes that the receipt is serialized to. The requests that it
sends are of another kind. -/
def publishReceipt (nowUnixMs : UInt64) (receipt : CoSignedReceipt) (content : Bytes) :
    SyncRuntime :=
  if isOk (receipt.verify P nowUnixMs) ∧ content.length ≤ maxArchiveContentBytes then
    { state with
      verifiedReceipts := update state.verifiedReceipts (.fromContent P content) (some receipt) }
  else state

/-- What happens to the archive runtime while its configuration stays. -/
inductive SyncCall where
  | publishReceipt (nowUnixMs : UInt64) (receipt : CoSignedReceipt) (content : Bytes)
  | syncPlayer (playerId : PlayerId)
  | fetchReceipt (address : ContentAddress)
  | response (nowUnixMs : UInt64) (number : Nat) (answer : SyncAnswer)

def run : SyncCall → SyncRuntime
  | .publishReceipt nowUnixMs receipt content =>
    state.publishReceipt P nowUnixMs receipt content
  | .syncPlayer playerId => state.syncPlayer playerId
  | .fetchReceipt address => state.fetchReceipt address
  | .response nowUnixMs number answer => state.handleResponse P decode nowUnixMs number answer

end Responses

/-! ## Honest archives -/

/-- What the archives have: receipts, and lists of those of a player. -/
structure Archives where
  holds : PeerId → ContentAddress → Option Bytes
  index : PeerId → PlayerId → List ContentAddress

/-- The honest answer to a request. -/
def Archives.answer (archives : Archives) : SyncRequest → SyncAnswer
  | .fetch peer address => .fetched address true (archives.holds peer address)
  | .list peer playerId => .listed playerId true (archives.index peer playerId)

/-- A request is answered honestly. -/
def answerHonestly (P : Primitives) (decode : Bytes → Option CoSignedReceipt)
    (archives : Archives) (state : SyncRuntime) (step : Nat × UInt64) : SyncRuntime :=
  match state.pendingRequests step.1 with
  | none => state
  | some request => state.handleResponse P decode step.2 step.1 (archives.answer request)

/-! ## Sending -/

/-- The numbers of the requests to come are free. -/
def Fresh (state : SyncRuntime) : Prop :=
  ∀ number, state.nextRequest ≤ number → state.pendingRequests number = none

section Send

variable {state : SyncRuntime} {request : PeerId → SyncRequest} {number : Nat} {found : SyncRequest}

theorem Fresh.lt (hfresh : state.Fresh) (hfound : state.pendingRequests number = some found) :
    number < state.nextRequest := by
  by_contra hnot
  rw [hfresh number (Nat.le_of_not_lt hnot)] at hfound
  cases hfound

theorem Fresh.send (hfresh : state.Fresh) (request : PeerId → SyncRequest) :
    (state.send request).Fresh := by
  intro number hnumber
  have hlast : state.nextRequest + state.peers.length ≤ number := hnumber
  have hasked : state.asked number = none := by
    rw [asked, if_pos (Nat.le_of_add_right_le hlast), List.getElem?_eq_none_iff]
    omega
  simp [SyncRuntime.send, hasked, hfresh number (Nat.le_of_add_right_le hlast)]

theorem Fresh.send_of_some (hfresh : state.Fresh)
    (hfound : state.pendingRequests number = some found) :
    (state.send request).pendingRequests number = some found := by
  have hasked : state.asked number = none := if_neg (Nat.not_le_of_lt (hfresh.lt hfound))
  simp [SyncRuntime.send, hasked, hfound]

theorem exists_send {peer : PeerId} (hpeer : peer ∈ state.peers) :
    ∃ number, (state.send request).pendingRequests number = some (request peer) := by
  obtain ⟨i, hi⟩ := mem_iff_getElem?.mp hpeer
  refine ⟨state.nextRequest + i, ?_⟩
  simp [SyncRuntime.send, asked, hi]

theorem send_cases (hfound : (state.send request).pendingRequests number = some found) :
    state.pendingRequests number = some found ∨ ∃ peer ∈ state.peers, found = request peer := by
  simp only [SyncRuntime.send, Option.or_eq_some_iff, Option.map_eq_some_iff] at hfound
  rcases hfound with ⟨peer, hasked, rfl⟩ | ⟨-, hold⟩
  · refine .inr ⟨peer, ?_, rfl⟩
    unfold asked at hasked
    split at hasked
    · exact mem_of_getElem? hasked
    · cases hasked
  · exact .inl hold

end Send

/-- What starting some fetches does. -/
structure Starts (before : SyncRuntime) (addresses : List ContentAddress) (after : SyncRuntime) :
    Prop where
  peers : after.peers = before.peers
  lists : after.lists = before.lists
  verified : after.verifiedReceipts = before.verifiedReceipts
  fresh : after.Fresh
  kept : ∀ number request, before.pendingRequests number = some request →
    after.pendingRequests number = some request
  sent : ∀ address ∈ addresses, ∀ peer ∈ before.peers,
    ∃ number, after.pendingRequests number = some (.fetch peer address)
  origin : ∀ number request, after.pendingRequests number = some request →
    before.pendingRequests number = some request ∨
      ∃ peer, ∃ address ∈ addresses, request = .fetch peer address
  entries : ∀ address, (after.fetches address).isSome →
    (before.fetches address).isSome ∨ address ∈ addresses
  entered : ∀ address, (before.fetches address).isSome → (after.fetches address).isSome

theorem Fresh.startFetch {state : SyncRuntime} (hfresh : state.Fresh) (address : ContentAddress) :
    Starts state [address] (state.startFetch address) where
  peers := rfl
  lists := rfl
  verified := rfl
  fresh := hfresh.send _
  kept _ _ hfound := hfresh.send_of_some hfound
  sent other hother peer hpeer := by
    rw [mem_singleton.mp hother]
    exact exists_send hpeer
  origin number request hfound := by
    rcases send_cases hfound with hold | ⟨peer, -, rfl⟩
    · exact .inl hold
    · exact .inr ⟨peer, address, mem_singleton_self _, rfl⟩
  entries other hother := by
    by_cases hsame : other = address
    · exact .inr (mem_singleton.mpr hsame)
    · left
      simpa [SyncRuntime.startFetch, hsame] using hother
  entered other hother := by
    by_cases hsame : other = address
    · simp [SyncRuntime.startFetch, hsame]
    · simpa [SyncRuntime.startFetch, hsame] using hother

theorem Fresh.startFetches {state : SyncRuntime} (hfresh : state.Fresh)
    (addresses : List ContentAddress) :
    Starts state addresses (addresses.foldl SyncRuntime.startFetch state) := by
  induction addresses generalizing state with
  | nil =>
    exact ⟨rfl, rfl, rfl, hfresh, fun _ _ h => h, fun _ h => absurd h not_mem_nil,
      fun _ _ h => .inl h, fun _ h => .inl h, fun _ h => h⟩
  | cons address addresses ih =>
    have hfirst := hfresh.startFetch address
    have hrest := ih hfirst.fresh
    constructor
    · exact hrest.peers.trans hfirst.peers
    · exact hrest.lists.trans hfirst.lists
    · exact hrest.verified.trans hfirst.verified
    · exact hrest.fresh
    · exact fun number request h => hrest.kept _ _ (hfirst.kept _ _ h)
    · intro other hother peer hpeer
      rcases mem_cons.mp hother with rfl | hlater
      · obtain ⟨number, hnumber⟩ := hfirst.sent other (mem_singleton_self _) peer hpeer
        exact ⟨number, hrest.kept _ _ hnumber⟩
      · exact hrest.sent other hlater peer (hfirst.peers ▸ hpeer)
    · intro number request hfound
      rcases hrest.origin number request hfound with hold | ⟨peer, other, hother, hrequest⟩
      · rcases hfirst.origin number request hold with hold | ⟨peer, other, hother, hrequest⟩
        · exact .inl hold
        · exact .inr ⟨peer, other, mem_cons.mpr (.inl (mem_singleton.mp hother)), hrequest⟩
      · exact .inr ⟨peer, other, mem_cons_of_mem _ hother, hrequest⟩
    · intro other hother
      rcases hrest.entries other hother with hold | hlater
      · rcases hfirst.entries other hold with hold | hsame
        · exact .inl hold
        · exact .inr (mem_cons.mpr (.inl (mem_singleton.mp hsame)))
      · exact .inr (mem_cons_of_mem _ hlater)
    · exact fun other h => hrest.entered other (hfirst.entered other h)

/-! ## A round -/

section Round

variable (P : Primitives) (decode : Bytes → Option CoSignedReceipt) (archives : Archives)
variable (nowUnixMs : UInt64)

/-- The archive has a valid receipt under the address. -/
def Offers (peer : PeerId) (address : ContentAddress) : Prop :=
  ((archives.holds peer address).bind (acceptedReceipt P decode nowUnixMs address)).isSome = true

/-- One of the archives lists a valid receipt of the player that it has. -/
def Listed (peers : List PeerId) (playerId : PlayerId) (address : ContentAddress) : Prop :=
  ∃ peer ∈ peers, address ∈ archives.index peer playerId ∧
    Offers P decode archives nowUnixMs peer address

/-- The receipt has been verified, or is being asked for where it is. -/
def Covered (state : SyncRuntime) (address : ContentAddress) : Prop :=
  (state.verifiedReceipts address).isSome ∨
    ∃ number peer, state.pendingRequests number = some (.fetch peer address) ∧
      Offers P decode archives nowUnixMs peer address

/-- During a round: whatever has an entry is covered, and so is what was listed so far. -/
structure Complete (playerId : PlayerId) (state : SyncRuntime) : Prop where
  fresh : state.Fresh
  entries : ∀ address, Listed P decode archives nowUnixMs state.peers playerId address →
    (state.fetches address).isSome → Covered P decode archives nowUnixMs state address
  received : ∃ list, state.lists playerId = some list ∧ ∀ address ∈ list.received,
    Listed P decode archives nowUnixMs state.peers playerId address →
      Covered P decode archives nowUnixMs state address
  listed : ∀ peer ∈ state.peers,
    (∃ number, state.pendingRequests number = some (.list peer playerId)) ∨
      ∀ address ∈ archives.index peer playerId,
        Listed P decode archives nowUnixMs state.peers playerId address →
          Covered P decode archives nowUnixMs state address

/-- The receipt has an entry, and nobody is asked who has it. -/
structure Stuck (address : ContentAddress) (state : SyncRuntime) : Prop where
  fresh : state.Fresh
  entry : (state.fetches address).isSome
  unverified : state.verifiedReceipts address = none
  unasked : ∀ number peer, state.pendingRequests number = some (.fetch peer address) →
    ¬ Offers P decode archives nowUnixMs peer address

end Round

section Steps

variable {P : Primitives} {decode : Bytes → Option CoSignedReceipt} {archives : Archives}
variable {nowUnixMs time : UInt64} {playerId : PlayerId} {state after : SyncRuntime}
variable {number : Nat}

theorem Fresh.dropRequest (hfresh : state.Fresh) (number : Nat) :
    (state.dropRequest number).Fresh := by
  intro other hother
  by_cases hsame : other = number
  · simp [SyncRuntime.dropRequest, hsame]
  · simpa [SyncRuntime.dropRequest, hsame] using hfresh other hother

theorem dropRequest_of_ne {request found : SyncRequest} {other : Nat}
    (hrequest : state.pendingRequests number = some request)
    (hfound : state.pendingRequests other = some found) (hne : found ≠ request) :
    (state.dropRequest number).pendingRequests other = some found := by
  have hother : other ≠ number := by
    rintro rfl
    exact hne (Option.some.inj (hfound.symm.trans hrequest))
  simpa [dropRequest, hother] using hfound

theorem pending_of_dropRequest {found : SyncRequest} {other : Nat}
    (hfound : (state.dropRequest number).pendingRequests other = some found) :
    state.pendingRequests other = some found := by
  by_cases hother : other = number
  · simp [dropRequest, hother] at hfound
  · simpa [dropRequest, hother] using hfound

variable {address : ContentAddress} {peer : PeerId} {addresses : List ContentAddress}

theorem Covered.mono (hcovered : Covered P decode archives nowUnixMs state address)
    (hverified : (state.verifiedReceipts address).isSome → (after.verifiedReceipts address).isSome)
    (hasked : ∀ number peer, state.pendingRequests number = some (.fetch peer address) →
      Offers P decode archives nowUnixMs peer address →
        Covered P decode archives nowUnixMs after address) :
    Covered P decode archives nowUnixMs after address := by
  rcases hcovered with hold | ⟨number, peer, hrequest, hoffers⟩
  · exact .inl (hverified hold)
  · exact hasked number peer hrequest hoffers

/-- A step that covers no less, makes no entry and keeps what was listed. -/
theorem Complete.frame
    (hcomplete : Complete P decode archives nowUnixMs playerId state) (hfresh : after.Fresh)
    (hpeers : after.peers = state.peers) (hlists : ∀ list, state.lists playerId = some list →
      ∃ kept, after.lists playerId = some kept ∧ kept.received = list.received)
    (hentries : ∀ address, (after.fetches address).isSome → (state.fetches address).isSome)
    (hasked : ∀ number, ∀ peer ∈ state.peers,
      state.pendingRequests number = some (.list peer playerId) →
        after.pendingRequests number = some (.list peer playerId))
    (hcovered : ∀ address, Covered P decode archives nowUnixMs state address →
      Covered P decode archives nowUnixMs after address) :
    Complete P decode archives nowUnixMs playerId after := by
  constructor
  · exact hfresh
  · intro address hlisted hentry
    exact hcovered address (hcomplete.entries address (hpeers ▸ hlisted) (hentries address hentry))
  · obtain ⟨list, hlist, hreceived⟩ := hcomplete.received
    obtain ⟨kept, hkept, hsame⟩ := hlists list hlist
    refine ⟨kept, hkept, fun address haddress hlisted => ?_⟩
    exact hcovered address (hreceived address (hsame ▸ haddress) (hpeers ▸ hlisted))
  · intro peer hpeer
    rw [hpeers] at hpeer ⊢
    rcases hcomplete.listed peer hpeer with ⟨number, hrequest⟩ | hall
    · exact .inl ⟨number, hasked number peer hpeer hrequest⟩
    · exact .inr fun address haddress hlisted => hcovered address (hall address haddress hlisted)

theorem isSome_finishFetchAttempt (state : SyncRuntime) (address other : ContentAddress) :
    ((state.finishFetchAttempt address).fetches other).isSome = (state.fetches other).isSome := by
  unfold finishFetchAttempt
  split
  · rfl
  next fetch hfetch =>
    by_cases hsame : other = address
    · simp [hsame, hfetch]
    · simp [hsame]

theorem finishFetchAttempt_frame (state : SyncRuntime) (address : ContentAddress) :
    (state.finishFetchAttempt address).peers = state.peers ∧
      (state.finishFetchAttempt address).nextRequest = state.nextRequest ∧
      (state.finishFetchAttempt address).pendingRequests = state.pendingRequests ∧
      (state.finishFetchAttempt address).lists = state.lists ∧
      (state.finishFetchAttempt address).verifiedReceipts = state.verifiedReceipts := by
  unfold finishFetchAttempt
  split <;> exact ⟨rfl, rfl, rfl, rfl, rfl⟩

theorem finishListAttempt_frame (state : SyncRuntime) (answered : PlayerId) :
    (state.finishListAttempt answered).peers = state.peers ∧
      (state.finishListAttempt answered).nextRequest = state.nextRequest ∧
      (state.finishListAttempt answered).pendingRequests = state.pendingRequests ∧
      (state.finishListAttempt answered).fetches = state.fetches ∧
      (state.finishListAttempt answered).verifiedReceipts = state.verifiedReceipts := by
  unfold finishListAttempt
  split <;> exact ⟨rfl, rfl, rfl, rfl, rfl⟩

theorem received_finishListAttempt (state : SyncRuntime) (answered : PlayerId)
    {list : PendingList} (hlist : state.lists playerId = some list) :
    ∃ kept, (state.finishListAttempt answered).lists playerId = some kept ∧
      kept.received = list.received := by
  unfold finishListAttempt
  split
  · exact ⟨list, hlist, rfl⟩
  next found hfound =>
    by_cases hsame : playerId = answered
    · subst hsame
      obtain rfl : list = found := Option.some.inj (hlist.symm.trans hfound)
      exact ⟨_, update_self .., rfl⟩
    · exact ⟨list, by simpa [hsame] using hlist, rfl⟩

theorem Fresh.finishFetchAttempt (hfresh : state.Fresh) (address : ContentAddress) :
    (state.finishFetchAttempt address).Fresh := by
  obtain ⟨-, hnext, hpending, -, -⟩ := finishFetchAttempt_frame state address
  intro other hother
  rw [hpending]
  exact hfresh other (hnext ▸ hother)

theorem Fresh.finishListAttempt (hfresh : state.Fresh) (answered : PlayerId) :
    (state.finishListAttempt answered).Fresh := by
  obtain ⟨-, hnext, hpending, -, -⟩ := finishListAttempt_frame state answered
  intro other hother
  rw [hpending]
  exact hfresh other (hnext ▸ hother)

/-! ### Fetches -/

theorem Complete.fetch (hcomplete : Complete P decode archives nowUnixMs playerId state)
    (hrequest : state.pendingRequests number = some (.fetch peer address))
    (hsteady : Offers P decode archives time peer address ↔
      Offers P decode archives nowUnixMs peer address) :
    Complete P decode archives nowUnixMs playerId
      ((state.dropRequest number).handleFetchResponse P decode time address address true
        (archives.holds peer address)) := by
  simp only [handleFetchResponse, ne_eq, not_true_eq_false, Bool.true_eq_false, or_self, if_false]
  split
  next hrefused =>
    -- the archive does not have it, so the requests that cover a receipt are others
    have hnot : ¬ Offers P decode archives nowUnixMs peer address := by
      rw [← hsteady, Offers, hrefused]
      exact Bool.false_ne_true
    obtain ⟨hpeers, -, hpending, hlists, hverified⟩ :=
      finishFetchAttempt_frame (state.dropRequest number) address
    refine hcomplete.frame ((hcomplete.fresh.dropRequest number).finishFetchAttempt address) hpeers
      ?_ ?_ ?_ ?_
    · intro list hlist
      rw [hlists]
      exact ⟨list, hlist, rfl⟩
    · intro other hentry
      rw [isSome_finishFetchAttempt] at hentry
      exact hentry
    · intro other asked _ hlist
      rw [hpending]
      exact dropRequest_of_ne hrequest hlist nofun
    · intro other hcovered
      refine hcovered.mono (by rw [hverified]; exact id) fun witness offering hwitness hoffers =>
        .inr ⟨witness, offering, ?_, hoffers⟩
      rw [hpending]
      refine dropRequest_of_ne hrequest hwitness ?_
      intro hsame
      cases hsame
      exact hnot hoffers
  next receipt _ =>
    refine hcomplete.frame (hcomplete.fresh.dropRequest number) rfl
      (fun list hlist => ⟨list, hlist, rfl⟩) ?_ ?_ ?_
    · intro other hentry
      by_cases hsame : other = address
      · simpa [hsame, dropRequest] using hentry
      · simpa [hsame, dropRequest] using hentry
    · intro other asked _ hlist
      exact dropRequest_of_ne hrequest hlist nofun
    · intro other hcovered
      by_cases hsame : other = address
      · exact .inl (by simp [hsame])
      · refine hcovered.mono (by simp [hsame, dropRequest]) fun witness offering hwitness hoffers =>
          .inr ⟨witness, offering, ?_, hoffers⟩
        refine dropRequest_of_ne hrequest hwitness ?_
        intro heq
        cases heq
        exact hsame rfl

theorem Stuck.fetch (hstuck : Stuck P decode archives nowUnixMs address state)
    {answered : ContentAddress}
    (hrequest : state.pendingRequests number = some (.fetch peer answered))
    (hsteady : Offers P decode archives time peer answered ↔
      Offers P decode archives nowUnixMs peer answered) : Stuck P decode archives nowUnixMs address
      ((state.dropRequest number).handleFetchResponse P decode time answered answered true
        (archives.holds peer answered)) := by
  simp only [handleFetchResponse, ne_eq, not_true_eq_false, Bool.true_eq_false, or_self, if_false]
  split
  next hrefused =>
    obtain ⟨-, -, hpending, -, hverified⟩ :=
      finishFetchAttempt_frame (state.dropRequest number) answered
    constructor
    · exact (hstuck.fresh.dropRequest number).finishFetchAttempt answered
    · rw [isSome_finishFetchAttempt]
      exact hstuck.entry
    · rw [hverified]
      exact hstuck.unverified
    · intro other asked hasked
      rw [hpending] at hasked
      exact hstuck.unasked other asked (pending_of_dropRequest hasked)
  next receipt haccepted =>
    -- what is accepted is another receipt
    have hoffers : Offers P decode archives nowUnixMs peer answered := by
      rw [← hsteady, Offers, haccepted]
      rfl
    have hother : address ≠ answered := by
      rintro rfl
      exact hstuck.unasked number peer hrequest hoffers
    constructor
    · exact hstuck.fresh.dropRequest number
    · simpa [hother, dropRequest] using hstuck.entry
    · simpa [hother, dropRequest] using hstuck.unverified
    · intro other asked hasked
      exact hstuck.unasked other asked (pending_of_dropRequest hasked)

/-! ### Lists -/

theorem mem_sortedElements_toFinset :
    address ∈ sortedElements addresses.toFinset ↔ address ∈ addresses := by
  rw [← Multiset.mem_coe, coe_sortedElements, Finset.mem_val, mem_toFinset]

theorem mem_newAddresses {list : PendingList} : address ∈ state.newAddresses list addresses ↔
      address ∈ addresses ∧ address ∉ list.received ∧ state.verifiedReceipts address = none ∧
        state.fetches address = none := by
  simp [newAddresses]

section

variable (hcomplete : Complete P decode archives nowUnixMs playerId state)

include hcomplete

/-- An answer that is put off: the list of the player has not been read. -/
theorem Complete.unread {answered : PlayerId}
    (hrequest : state.pendingRequests number = some (.list peer answered))
    (hother : answered = playerId → peer ∉ state.peers) (hfresh : after.Fresh)
    (hpeers : after.peers = state.peers)
    (hpending : after.pendingRequests = (state.dropRequest number).pendingRequests)
    (hfetches : after.fetches = state.fetches)
    (hverified : after.verifiedReceipts = state.verifiedReceipts)
    (hlists : ∀ list, state.lists playerId = some list →
      ∃ kept, after.lists playerId = some kept ∧ kept.received = list.received) :
    Complete P decode archives nowUnixMs playerId after := by
  refine hcomplete.frame hfresh hpeers hlists (by simp [hfetches]) ?_ ?_
  · intro other asked hasked hlist
    rw [hpending]
    refine dropRequest_of_ne hrequest hlist ?_
    intro hsame
    cases hsame
    exact hother rfl hasked
  · intro address hcovered
    refine hcovered.mono (by simp [hverified]) fun witness offering hwitness hoffers =>
      .inr ⟨witness, offering, ?_, hoffers⟩
    rw [hpending]
    exact dropRequest_of_ne hrequest hwitness nofun

/-- A list is read: what it names is covered, by the fetches that start now at the latest. -/
theorem Complete.read {answered : PlayerId}
    (hrequest : state.pendingRequests number = some (.list peer answered)) {list : PendingList}
    (hlist : state.lists answered = some list)
    (haddresses : ∀ address, address ∈ addresses ↔ address ∈ archives.index peer answered)
    (remaining : Nat) (hafter : Starts { state.dropRequest number with
      lists := update state.lists answered
        (some { remaining, received := list.received ∪ addresses.toFinset }) }
      (state.newAddresses list addresses) after) :
    Complete P decode archives nowUnixMs playerId after := by
  have hpeers : after.peers = state.peers := hafter.peers
  have hverified : after.verifiedReceipts = state.verifiedReceipts := hafter.verified
  have hmono : ∀ address, Covered P decode archives nowUnixMs state address →
      Covered P decode archives nowUnixMs after address := by
    intro address hcovered
    refine hcovered.mono (by rw [hverified]; exact id) fun witness offering hwitness hoffers =>
      .inr ⟨witness, offering, ?_, hoffers⟩
    exact hafter.kept _ _ (dropRequest_of_ne hrequest hwitness nofun)
  -- a fetch that starts asks everybody, and so somebody who has the receipt
  have hstarted : ∀ address ∈ state.newAddresses list addresses,
      Listed P decode archives nowUnixMs state.peers playerId address →
        Covered P decode archives nowUnixMs after address := by
    rintro address haddress ⟨offering, hoffering, -, hoffers⟩
    obtain ⟨witness, hwitness⟩ := hafter.sent address haddress offering hoffering
    exact .inr ⟨witness, offering, hwitness, hoffers⟩
  have hnamed : answered = playerId → ∀ address ∈ addresses,
      Listed P decode archives nowUnixMs state.peers playerId address →
        Covered P decode archives nowUnixMs after address := by
    rintro rfl address haddress hlisted
    obtain ⟨found, hfound, hreceived⟩ := hcomplete.received
    obtain rfl : found = list := Option.some.inj (hfound.symm.trans hlist)
    by_cases hold : address ∈ found.received
    · exact hmono address (hreceived address hold hlisted)
    cases hknown : state.verifiedReceipts address with
    | some receipt => exact hmono address (.inl (by simp [hknown]))
    | none =>
      cases hentry : state.fetches address with
      | some fetch => exact hmono address (hcomplete.entries address hlisted (by simp [hentry]))
      | none =>
        exact hstarted address (mem_newAddresses.mpr ⟨haddress, hold, hknown, hentry⟩) hlisted
  constructor
  · exact hafter.fresh
  · intro address hlisted hentry
    rw [hpeers] at hlisted
    rcases hafter.entries address hentry with hold | hnew
    · exact hmono address (hcomplete.entries address hlisted hold)
    · exact hstarted address hnew hlisted
  · obtain ⟨found, hfound, hreceived⟩ := hcomplete.received
    by_cases hsame : playerId = answered
    · refine ⟨_, (congrFun hafter.lists playerId).trans (by
        rw [hsame]
        exact update_self ..), fun address haddress hlisted => ?_⟩
      rw [hpeers] at hlisted
      rcases Finset.mem_union.mp haddress with hold | hnew
      · obtain rfl : found = list :=
          Option.some.inj (hfound.symm.trans (hsame ▸ hlist))
        exact hmono address (hreceived address hold hlisted)
      · exact hnamed hsame.symm address (mem_toFinset.mp hnew) hlisted
    · refine ⟨found, (congrFun hafter.lists playerId).trans
        ((update_of_ne hsame ..).trans hfound), fun address haddress hlisted => ?_⟩
      exact hmono address (hreceived address haddress (hpeers ▸ hlisted))
  · intro asked hasked
    rw [hpeers] at hasked ⊢
    rcases hcomplete.listed asked hasked with ⟨other, hother⟩ | hall
    · by_cases hthis : SyncRequest.list asked playerId = .list peer answered
      · cases hthis
        exact .inr fun address haddress => hnamed rfl address ((haddresses address).mpr haddress)
      · exact .inl ⟨other, hafter.kept _ _ (dropRequest_of_ne hrequest hother hthis)⟩
    · exact .inr fun address haddress hlisted => hmono address (hall address haddress hlisted)

theorem Complete.list (hsmall : ∀ peer ∈ state.peers,
      (archives.index peer playerId).length ≤ maxPlayerArchives) {answered : PlayerId}
    (hrequest : state.pendingRequests number = some (.list peer answered)) :
    Complete P decode archives nowUnixMs playerId
      ((state.dropRequest number).handleListResponse answered answered true
        (archives.index peer answered)) := by
  have hdrop := hcomplete.fresh.dropRequest number
  simp only [handleListResponse, ne_eq, not_true_eq_false, Bool.true_eq_false, or_false, false_or]
  split
  next hlong =>
    obtain ⟨hpeers, -, hpending, hfetches, hverified⟩ :=
      finishListAttempt_frame (state.dropRequest number) answered
    refine hcomplete.unread hrequest ?_ (hdrop.finishListAttempt answered) hpeers hpending hfetches
      hverified fun list hlist => received_finishListAttempt _ answered hlist
    rintro rfl hpeer
    exact absurd (hsmall peer hpeer) (Nat.not_le_of_lt hlong)
  · split
    next hnone =>
      refine hcomplete.unread hrequest ?_ hdrop rfl rfl rfl rfl fun list hlist => ⟨list, hlist, rfl⟩
      rintro rfl
      obtain ⟨list, hlist, -⟩ := hcomplete.received
      rw [show state.lists answered = none from hnone] at hlist
      cases hlist
    next list hlist =>
      exact hcomplete.read hrequest hlist (fun _ => mem_sortedElements_toFinset) _
        (Fresh.startFetches (by exact hdrop) _)

end

theorem Stuck.list (hstuck : Stuck P decode archives nowUnixMs address state)
    {answered : PlayerId} :
    Stuck P decode archives nowUnixMs address
      ((state.dropRequest number).handleListResponse answered answered true
        (archives.index peer answered)) := by
  have hdrop : Stuck P decode archives nowUnixMs address (state.dropRequest number) :=
    ⟨hstuck.fresh.dropRequest number, hstuck.entry, hstuck.unverified, fun other asked hasked =>
      hstuck.unasked other asked (pending_of_dropRequest hasked)⟩
  simp only [handleListResponse, ne_eq, not_true_eq_false, Bool.true_eq_false, or_false, false_or]
  split
  · obtain ⟨-, -, hpending, hfetches, hverified⟩ :=
      finishListAttempt_frame (state.dropRequest number) answered
    exact ⟨hdrop.fresh.finishListAttempt answered, by rw [hfetches]; exact hdrop.entry,
      by rw [hverified]; exact hdrop.unverified, by rw [hpending]; exact hdrop.unasked⟩
  · split
    · exact hdrop
    next list hlist =>
      have hstarts := @Fresh.startFetches { state.dropRequest number with
          lists := update state.lists answered (some
            { remaining := list.remaining - 1
              received := list.received ∪
                (sortedElements (archives.index peer answered).toFinset).toFinset }) }
        (by exact hdrop.fresh) ((state.dropRequest number).newAddresses list
          (sortedElements (archives.index peer answered).toFinset))
      constructor
      · exact hstarts.fresh
      · exact hstarts.entered address hdrop.entry
      · exact (congrFun hstarts.verified address).trans hdrop.unverified
      · intro other asked hasked
        rcases hstarts.origin other _ hasked with hold | ⟨offering, started, hstarted, hsame⟩
        · exact hdrop.unasked other asked hold
        · -- a receipt with an entry is not fetched again
          cases hsame
          have hentry := hdrop.entry
          rw [(mem_newAddresses.mp hstarted).2.2.2] at hentry
          cases hentry

/-! ### Rounds -/

theorem syncPlayer_of_peers (hpeers : state.peers ≠ []) (playerId : PlayerId) :
    state.syncPlayer playerId =
      { state.send fun peer => .list peer playerId with
        lists := update state.lists playerId
          (some { remaining := state.peers.length, received := ∅ }) } :=
  if_neg hpeers

theorem Complete.syncPlayer (hfresh : state.Fresh) (hpeers : state.peers ≠ [])
    (hentries : ∀ address, Listed P decode archives nowUnixMs state.peers playerId address →
      (state.fetches address).isSome → Covered P decode archives nowUnixMs state address) :
    Complete P decode archives nowUnixMs playerId (state.syncPlayer playerId) := by
  rw [syncPlayer_of_peers hpeers]
  constructor
  · exact hfresh.send _
  · intro address hlisted hentry
    refine (hentries address hlisted hentry).mono id fun witness offering hwitness hoffers =>
      .inr ⟨witness, offering, hfresh.send_of_some hwitness, hoffers⟩
  · exact ⟨_, update_self .., fun address haddress =>
      absurd haddress (Finset.notMem_empty address)⟩
  · intro peer hpeer
    exact .inl (exists_send hpeer)

theorem Stuck.syncPlayer (hstuck : Stuck P decode archives nowUnixMs address state)
    (playerId : PlayerId) :
    Stuck P decode archives nowUnixMs address (state.syncPlayer playerId) := by
  unfold SyncRuntime.syncPlayer
  split
  · exact hstuck
  constructor
  · exact hstuck.fresh.send _
  · exact hstuck.entry
  · exact hstuck.unverified
  · intro number peer hasked
    rcases send_cases hasked with hold | ⟨asked, -, hsame⟩
    · exact hstuck.unasked number peer hold
    · cases hsame

/-- The validity of the receipts that the archives have does not change during the round. -/
def SteadyRound (P : Primitives) (decode : Bytes → Option CoSignedReceipt) (archives : Archives)
    (nowUnixMs : UInt64) (round : List (Nat × UInt64)) : Prop :=
  ∀ step ∈ round, ∀ peer address, Offers P decode archives step.2 peer address ↔
    Offers P decode archives nowUnixMs peer address

theorem peers_startFetches (state : SyncRuntime) (addresses : List ContentAddress) :
    (addresses.foldl startFetch state).peers = state.peers := by
  induction addresses generalizing state with
  | nil => rfl
  | cons address addresses ih => exact ih _

theorem peers_handleListResponse (state : SyncRuntime) (asked answered : PlayerId) (signed : Bool)
    (addresses : List ContentAddress) :
    (state.handleListResponse asked answered signed addresses).peers = state.peers := by
  unfold handleListResponse
  split
  · exact (finishListAttempt_frame state asked).1
  split
  · rfl
  · exact peers_startFetches ..

theorem peers_handleFetchResponse (state : SyncRuntime) (time : UInt64)
    (asked answered : ContentAddress) (signed : Bool) (content : Option Bytes) :
    (state.handleFetchResponse P decode time asked answered signed content).peers =
      state.peers := by
  unfold handleFetchResponse
  split
  · exact (finishFetchAttempt_frame state asked).1
  split
  · exact (finishFetchAttempt_frame state asked).1
  · rfl

theorem peers_handleResponse (state : SyncRuntime) (time : UInt64) (number : Nat)
    (answer : SyncAnswer) :
    (state.handleResponse P decode time number answer).peers = state.peers := by
  unfold handleResponse
  split
  · rfl
  · exact peers_handleFetchResponse ..
  · exact peers_handleListResponse ..
  · exact (finishFetchAttempt_frame _ _).1
  · exact (finishListAttempt_frame _ _).1

theorem Complete.answerHonestly (hcomplete : Complete P decode archives nowUnixMs playerId state)
    (hsmall : ∀ peer ∈ state.peers, (archives.index peer playerId).length ≤ maxPlayerArchives)
    {step : Nat × UInt64} (hsteady : ∀ peer address, Offers P decode archives step.2 peer address ↔
      Offers P decode archives nowUnixMs peer address) :
    Complete P decode archives nowUnixMs playerId
      (state.answerHonestly P decode archives step) := by
  unfold SyncRuntime.answerHonestly
  cases hrequest : state.pendingRequests step.1 with
  | none => exact hcomplete
  | some request =>
    cases request with
    | fetch peer address =>
      simp only [handleResponse, hrequest, Archives.answer]
      exact hcomplete.fetch hrequest (hsteady peer address)
    | list peer answered =>
      simp only [handleResponse, hrequest, Archives.answer]
      exact hcomplete.list hsmall hrequest

theorem Stuck.answerHonestly (hstuck : Stuck P decode archives nowUnixMs address state)
    {step : Nat × UInt64} (hsteady : ∀ peer address, Offers P decode archives step.2 peer address ↔
      Offers P decode archives nowUnixMs peer address) :
    Stuck P decode archives nowUnixMs address (state.answerHonestly P decode archives step) := by
  unfold SyncRuntime.answerHonestly
  cases hrequest : state.pendingRequests step.1 with
  | none => exact hstuck
  | some request =>
    cases request with
    | fetch peer answered =>
      simp only [handleResponse, hrequest, Archives.answer]
      exact hstuck.fetch hrequest (hsteady peer answered)
    | list peer answered =>
      simp only [handleResponse, hrequest, Archives.answer]
      exact hstuck.list

theorem peers_answerHonestly (state : SyncRuntime) (step : Nat × UInt64) :
    (state.answerHonestly P decode archives step).peers = state.peers := by
  unfold SyncRuntime.answerHonestly
  split
  · rfl
  · exact peers_handleResponse ..

theorem Complete.round (hcomplete : Complete P decode archives nowUnixMs playerId state)
    (hsmall : ∀ peer ∈ state.peers, (archives.index peer playerId).length ≤ maxPlayerArchives)
    {round : List (Nat × UInt64)} (hsteady : SteadyRound P decode archives nowUnixMs round) :
    Complete P decode archives nowUnixMs playerId
      (round.foldl (SyncRuntime.answerHonestly P decode archives) state) ∧
      (round.foldl (SyncRuntime.answerHonestly P decode archives) state).peers = state.peers := by
  induction round generalizing state with
  | nil => exact ⟨hcomplete, rfl⟩
  | cons step round ih =>
    obtain ⟨hstep, hrest⟩ := forall_mem_cons.mp hsteady
    have hpeers : (state.answerHonestly P decode archives step).peers = state.peers :=
      peers_answerHonestly state step
    obtain ⟨hafter, hsame⟩ := ih (hcomplete.answerHonestly hsmall hstep) (hpeers ▸ hsmall) hrest
    exact ⟨hafter, hsame.trans hpeers⟩

theorem Stuck.round (hstuck : Stuck P decode archives nowUnixMs address state)
    {round : List (Nat × UInt64)} (hsteady : SteadyRound P decode archives nowUnixMs round) :
    Stuck P decode archives nowUnixMs address
      (round.foldl (SyncRuntime.answerHonestly P decode archives) state) := by
  induction round generalizing state with
  | nil => exact hstuck
  | cons step round ih =>
    obtain ⟨hstep, hrest⟩ := forall_mem_cons.mp hsteady
    exact ih (hstuck.answerHonestly hstep) hrest

/-! ### Histories -/

theorem Fresh.run (hfresh : state.Fresh) (call : SyncCall) : (state.run P decode call).Fresh := by
  cases call with
  | publishReceipt time receipt content =>
    simp only [SyncRuntime.run, publishReceipt]
    split <;> exact hfresh
  | syncPlayer playerId =>
    simp only [SyncRuntime.run, SyncRuntime.syncPlayer]
    split
    · exact hfresh
    · exact hfresh.send _
  | fetchReceipt address =>
    simp only [SyncRuntime.run, SyncRuntime.fetchReceipt]
    split
    · exact hfresh
    · exact (hfresh.startFetch address).fresh
  | response time number answer =>
    have hdrop := hfresh.dropRequest number
    simp only [SyncRuntime.run, handleResponse]
    split
    · exact hfresh
    · unfold handleFetchResponse
      split
      · exact hdrop.finishFetchAttempt _
      split
      · exact hdrop.finishFetchAttempt _
      · exact hdrop
    · unfold handleListResponse
      split
      · exact hdrop.finishListAttempt _
      split
      · exact hdrop
      · exact (Fresh.startFetches (by exact hdrop) _).fresh
    · exact hdrop.finishFetchAttempt _
    · exact hdrop.finishListAttempt _

theorem peers_run (state : SyncRuntime) (call : SyncCall) :
    (state.run P decode call).peers = state.peers := by
  cases call with
  | publishReceipt time receipt content =>
    simp only [SyncRuntime.run, publishReceipt]
    split <;> rfl
  | syncPlayer playerId =>
    simp only [SyncRuntime.run, SyncRuntime.syncPlayer]
    split <;> rfl
  | fetchReceipt address =>
    simp only [SyncRuntime.run, SyncRuntime.fetchReceipt]
    split <;> rfl
  | response time number answer => exact peers_handleResponse ..

theorem Fresh.answerHonestly (hfresh : state.Fresh) (step : Nat × UInt64) :
    (state.answerHonestly P decode archives step).Fresh := by
  unfold SyncRuntime.answerHonestly
  split
  · exact hfresh
  · exact hfresh.run (.response step.2 step.1 _)

theorem Fresh.round (hfresh : state.Fresh) (round : List (Nat × UInt64)) :
    (round.foldl (SyncRuntime.answerHonestly P decode archives) state).Fresh := by
  induction round generalizing state with
  | nil => exact hfresh
  | cons step round ih => exact ih (hfresh.answerHonestly step)

/-- A round is over when no number that has been used is of a request without an answer. -/
theorem Fresh.answered (hfresh : state.Fresh)
    (hused : ∀ number < state.nextRequest, state.pendingRequests number = none) (number : Nat) :
    state.pendingRequests number = none := by
  by_cases hnumber : number < state.nextRequest
  · exact hused number hnumber
  · exact hfresh number (Nat.le_of_not_lt hnumber)

theorem history_spec (hfresh : state.Fresh) (history : List SyncCall) :
    (history.foldl (SyncRuntime.run P decode) state).Fresh ∧
      (history.foldl (SyncRuntime.run P decode) state).peers = state.peers := by
  induction history generalizing state with
  | nil => exact ⟨hfresh, rfl⟩
  | cons call history ih =>
    obtain ⟨hafter, hpeers⟩ := ih (hfresh.run call)
    exact ⟨hafter, hpeers.trans (peers_run state call)⟩

end Steps

/-- After any history with the same archives: a round of `sync_player` in which every list and
fetch request is answered honestly, in whatever order, leaves every valid receipt that an
archive lists verified, exactly if before it every such receipt with an entry in `fetches`
was verified, or was being asked for at an archive that has it. -/
theorem sync_complete_iff (P : Primitives) (decode : Bytes → Option CoSignedReceipt)
    (archives : Archives) (nowUnixMs : UInt64) (peers : List PeerId) (hpeers : peers ≠ [])
    (playerId : PlayerId)
    (hsmall : ∀ peer ∈ peers, (archives.index peer playerId).length ≤ maxPlayerArchives)
    (known : ContentAddress → Option CoSignedReceipt) (history : List SyncCall)
    (round : List (Nat × UInt64)) (hsteady : SteadyRound P decode archives nowUnixMs round)
    (before after : SyncRuntime)
    (hbefore : before = history.foldl (SyncRuntime.run P decode) (configured peers known))
    (hafter : after = round.foldl (SyncRuntime.answerHonestly P decode archives)
      (before.syncPlayer playerId))
    (hanswered : ∀ number, after.pendingRequests number = none) :
    (∀ address, Listed P decode archives nowUnixMs peers playerId address →
      (after.verifiedReceipts address).isSome) ↔
      ∀ address, Listed P decode archives nowUnixMs peers playerId address →
        (before.fetches address).isSome →
          Covered P decode archives nowUnixMs before address := by
  obtain ⟨hfresh, hsame⟩ : before.Fresh ∧ before.peers = peers := by
    rw [hbefore]
    exact history_spec (fun _ _ => rfl) history
  constructor
  · intro hverified address hlisted hentry
    by_contra hcovered
    -- nobody is asked who has it, and so it stays
    have hstuck : Stuck P decode archives nowUnixMs address before := by
      refine ⟨hfresh, hentry, ?_, fun number peer hasked hoffers =>
        hcovered (.inr ⟨number, peer, hasked, hoffers⟩)⟩
      by_contra hknown
      exact hcovered (.inl (Option.isSome_iff_ne_none.mpr hknown))
    have hend := (hstuck.syncPlayer playerId).round hsteady
    have hknown := hverified address hlisted
    rw [hafter, hend.unverified] at hknown
    cases hknown
  · rintro hentries address ⟨peer, hpeer, hindex, hoffers⟩
    have hstart : Complete P decode archives nowUnixMs playerId (before.syncPlayer playerId) :=
      .syncPlayer hfresh (by rwa [hsame]) (by rwa [hsame])
    have hstartPeers : (before.syncPlayer playerId).peers = peers :=
      (@peers_run P decode before (.syncPlayer playerId)).trans hsame
    obtain ⟨hend, hendPeers⟩ := hstart.round (by rwa [hstartPeers]) hsteady
    rw [← hafter, hstartPeers] at hendPeers
    rw [← hafter] at hend
    have hcovered : Covered P decode archives nowUnixMs after address := by
      rcases hend.listed peer (by rwa [hendPeers]) with ⟨number, hrequest⟩ | hall
      · rw [hanswered] at hrequest
        cases hrequest
      · refine hall address hindex ?_
        rw [hendPeers]
        exact ⟨peer, hpeer, hindex, hoffers⟩
    rcases hcovered with hknown | ⟨number, offering, hrequest, -⟩
    · exact hknown
    · rw [hanswered] at hrequest
      cases hrequest

/-! ### One archive with one receipt -/

/-- The address of the receipt. -/
def onlyAddress : ContentAddress := ContentAddress.fromContent .plain [1]

/-- The archive has the receipt, and lists it for its first player. -/
def onlyArchive : Archives where
  holds _ address := if address = onlyAddress then some [1] else none
  index _ playerId := if playerId = firstPlayer then [onlyAddress] else []

/-- A round after a history with the archive. -/
def onlyRound (history : List SyncCall) (round : List (Nat × UInt64)) : SyncRuntime :=
  round.foldl (answerHonestly .plain plainArchive.decode onlyArchive)
    (syncPlayer (history.foldl (SyncRuntime.run .plain plainArchive.decode)
      (configured [⟨0⟩] fun _ => none)) firstPlayer)

theorem onlyRound_fresh (history : List SyncCall) (round : List (Nat × UInt64)) :
    (onlyRound history round).Fresh :=
  Fresh.round (@Fresh.run .plain plainArchive.decode _
    (history_spec (fun _ _ => rfl) history).1 (.syncPlayer _)) round

theorem only_listed : Listed .plain plainArchive.decode onlyArchive 30 [⟨0⟩]
      firstPlayer onlyAddress :=
  ⟨⟨0⟩, mem_singleton_self _, by decide +kernel, by unfold Offers; decide +kernel⟩

/-- The receipt has been listed, and is still being fetched when the next round begins. -/
def onlyHistory : List SyncCall :=
  [.syncPlayer firstPlayer, .response 30 0 (.listed firstPlayer true [onlyAddress])]

theorem sync_complete_only :
    ((onlyRound onlyHistory [(2, 30), (1, 30)]).verifiedReceipts onlyAddress).isSome := by
  have hsmall : ∀ peer ∈ [(⟨0⟩ : PeerId)],
      (onlyArchive.index peer firstPlayer).length ≤ maxPlayerArchives := by
    decide +kernel
  have hsteady : SteadyRound .plain plainArchive.decode onlyArchive 30
      [(2, 30), (1, 30)] := by
    intro step hstep peer address
    rcases mem_pair.mp hstep with rfl | rfl <;> exact Iff.rfl
  have hanswered := (onlyRound_fresh onlyHistory [(2, 30), (1, 30)]).answered (by decide +kernel)
  refine (sync_complete_iff .plain plainArchive.decode onlyArchive 30 [⟨0⟩]
    (cons_ne_nil _ _) firstPlayer hsmall (fun _ => none) onlyHistory [(2, 30), (1, 30)] hsteady
    _ (onlyRound onlyHistory [(2, 30), (1, 30)]) rfl rfl hanswered).mpr
    (fun address hlisted _ => ?_) onlyAddress only_listed
  obtain ⟨peer, -, hindex, hoffers⟩ := hlisted
  obtain rfl : address = onlyAddress := by simpa [onlyArchive] using hindex
  exact .inr ⟨1, ⟨0⟩, by decide +kernel, hoffers⟩

/-- The receipt is listed, and the archive fails to answer once. In the next round it answers
everything, and the receipt is not asked for. -/
theorem failed_fetch_is_final :
    Listed .plain plainArchive.decode onlyArchive 30 [⟨0⟩]
        firstPlayer onlyAddress ∧
      (∀ number, (onlyRound [.syncPlayer firstPlayer,
        .response 30 0 (.listed firstPlayer true [onlyAddress]),
        .response 30 1 .rejected] [(2, 30)]).pendingRequests number = none) ∧
      (onlyRound [.syncPlayer firstPlayer,
        .response 30 0 (.listed firstPlayer true [onlyAddress]),
        .response 30 1 .rejected] [(2, 30)]).verifiedReceipts onlyAddress = none :=
  ⟨only_listed, (onlyRound_fresh _ _).answered (by decide +kernel), by decide +kernel⟩

end SyncRuntime

end TokenHoldem
