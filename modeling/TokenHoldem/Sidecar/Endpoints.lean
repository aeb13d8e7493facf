import TokenHoldem.Network.Room
import TokenHoldem.Sidecar.TablePool
import TokenHoldem.Sidecar.TableSession.Publish

/-!
# Dialling the endpoints of verified documents

Every signed document with an endpoint is checked by `validate_session_endpoint`.
The check asks for the last `/p2p` component of an address; the code that dials
asks for the last component of all.

- `directRoomRecipient_isOk_iff`: an accepted endpoint has a recipient exactly
  when each of its addresses ends in a peer after some transport;
- `EndpointDocument.endpoint_of_verified`: verified documents have accepted
  endpoints;
- `tickPool_yields`: a tick of the pool fails only over the node itself, as long
  as the documents in its directory are dialable.
-/

namespace TokenHoldem

open Library List

variable {P : Primitives}

/-! ## Accepted endpoints -/

/-- An endpoint that `validate_session_endpoint` accepts. -/
structure AcceptedEndpoint (P : Primitives) where
  peerId : Bytes
  addresses : List Bytes
  expected : PeerId
  accepted : validateSessionEndpoint P peerId addresses = .ok expected

/-- An address with a transport and, as its last component, a peer. -/
def Dialable (address : Multiaddr) : Prop :=
  ∃ transport peerId, transport ≠ [] ∧ address = transport ++ [.p2p peerId]

/-- Every address of an endpoint is a transport with a peer as its last component. -/
def AllDialable (P : Primitives) (addresses : List Bytes) : Prop :=
  ∀ raw ∈ addresses, ∀ address, P.multiaddr raw = some address → Dialable address

theorem checkAddresses_eq_ok {expected : PeerId} {seen addresses : List Bytes}
    (h : checkAddresses P expected seen addresses = .ok ()) {raw : Bytes} (hraw : raw ∈ addresses) :
    ∃ address, P.multiaddr raw = some address ∧ lastPeerId address = some expected := by
  induction addresses generalizing seen with
  | nil => exact absurd hraw not_mem_nil
  | cons first rest ih =>
    obtain ⟨-, h⟩ := ensure_bind_eq_ok.mp h
    obtain ⟨address, haddress, h⟩ := okOr_bind_eq_ok.mp h
    obtain ⟨hlast, h⟩ := ensure_bind_eq_ok.mp h
    rcases mem_cons.mp hraw with rfl | hrest
    · exact ⟨address, haddress, hlast⟩
    · exact ih h hrest

namespace AcceptedEndpoint

variable (endpoint : AcceptedEndpoint P)

theorem peerIdFromBytes : P.peerIdFromBytes endpoint.peerId = some endpoint.expected := by
  have h := endpoint.accepted
  unfold validateSessionEndpoint at h
  obtain ⟨expected, hexpected, h⟩ := okOr_bind_eq_ok.mp h
  obtain ⟨-, h⟩ := ensure_bind_eq_ok.mp h
  cases (unit_bind_eq_ok.mp h).2
  exact hexpected

theorem addresses_ne_nil : endpoint.addresses ≠ [] := by
  have h := endpoint.accepted
  unfold validateSessionEndpoint at h
  obtain ⟨expected, -, h⟩ := okOr_bind_eq_ok.mp h
  exact (ensure_bind_eq_ok.mp h).1.1

theorem address {raw : Bytes} (hraw : raw ∈ endpoint.addresses) :
    ∃ address, P.multiaddr raw = some address ∧ lastPeerId address = some endpoint.expected := by
  have h := endpoint.accepted
  unfold validateSessionEndpoint at h
  obtain ⟨expected, -, h⟩ := okOr_bind_eq_ok.mp h
  obtain ⟨-, h⟩ := ensure_bind_eq_ok.mp h
  obtain ⟨hchecked, h⟩ := unit_bind_eq_ok.mp h
  cases h
  exact checkAddresses_eq_ok hchecked hraw

end AcceptedEndpoint

/-- An address whose last `/p2p` component is the expected one and whose last
component is a `/p2p` component ends in the expected peer. -/
theorem lastPeerId_append_p2p {transport : Multiaddr} {peerId : PeerId} :
    lastPeerId (transport ++ [.p2p peerId]) = some peerId := by
  simp [lastPeerId]

theorem dialable_iff {address : Multiaddr} : Dialable address ↔ address.dropLast ≠ [] ∧
      ∃ peerId ∈ lastPeerId address, address.getLast? = some (.p2p peerId) := by
  constructor
  · rintro ⟨transport, peerId, htransport, rfl⟩
    exact ⟨by rwa [dropLast_concat], peerId, lastPeerId_append_p2p, getLast?_concat⟩
  · rintro ⟨htransport, peerId, -, hlast⟩
    exact ⟨address.dropLast, peerId, htransport, (dropLast_append_getLast? _ hlast).symm⟩

instance Dialable.instDecidable (address : Multiaddr) : Decidable (Dialable address) :=
  decidable_of_iff _ dialable_iff.symm

instance AllDialable.instDecidable (P : Primitives) (addresses : List Bytes) :
    Decidable (AllDialable P addresses) :=
  inferInstanceAs (Decidable (∀ raw ∈ addresses, ∀ address ∈ P.multiaddr raw, Dialable address))

/-! ## The parsers on an accepted endpoint -/

section Parsers

variable {endpoint : AcceptedEndpoint P} {raw : Bytes}

/-- `peer_dial_address` succeeds exactly on a dialable address. -/
theorem peerDialAddress_isOk_iff (hraw : raw ∈ endpoint.addresses) :
    isOk (peerDialAddress P raw endpoint.expected) = true ↔
      ∀ address, P.multiaddr raw = some address → Dialable address := by
  obtain ⟨address, hparsed, hlast⟩ := endpoint.address hraw
  constructor
  · intro h address' hparsed'
    obtain ⟨dial, h⟩ := isOk_eq_true.mp h
    unfold peerDialAddress at h
    obtain ⟨found, hfound, h⟩ := okOr_bind_eq_ok.mp h
    obtain ⟨hend, h⟩ := ensure_bind_eq_ok.mp h
    obtain ⟨htransport, -⟩ := ensure_bind_eq_ok.mp h
    have hsame : found = address' := Option.some.inj (hfound.symm.trans hparsed')
    subst hsame
    exact ⟨found.dropLast, endpoint.expected, htransport, (dropLast_append_getLast? _ hend).symm⟩
  · intro h
    obtain ⟨transport, peerId, htransport, rfl⟩ := h address hparsed
    have hpeer : peerId = endpoint.expected := by
      rw [lastPeerId_append_p2p] at hlast
      exact Option.some.inj hlast
    subst hpeer
    refine isOk_eq_true.mpr ⟨transport, ?_⟩
    unfold peerDialAddress
    refine okOr_bind_eq_ok.mpr ⟨_, hparsed, ?_⟩
    refine ensure_bind_eq_ok.mpr ⟨getLast?_concat, ?_⟩
    refine ensure_bind_eq_ok.mpr ⟨by rwa [dropLast_concat], ?_⟩
    rw [dropLast_concat]
    rfl

/-- The pool strips the same last component, and needs no transport before it. -/
theorem poolDialAddress_isOk (texts : DialTexts) (hraw : raw ∈ endpoint.addresses)
    (h : ∀ address, P.multiaddr raw = some address → Dialable address) :
    isOk (poolDialAddress P texts endpoint.expected raw) = true := by
  obtain ⟨address, hparsed, hlast⟩ := endpoint.address hraw
  obtain ⟨transport, peerId, -, rfl⟩ := h address hparsed
  rw [lastPeerId_append_p2p] at hlast
  refine isOk_eq_true.mpr ⟨_, okOr_bind_eq_ok.mpr ⟨_, hparsed, ensure_bind_eq_ok.mpr ⟨?_, rfl⟩⟩⟩
  rw [getLast?_concat, Option.some.inj hlast]

theorem preferredDialAddress_isSome {addresses : List Multiaddr} (h : addresses ≠ []) :
    ∃ address, preferredDialAddress addresses = some address := by
  unfold preferredDialAddress
  cases hmin : addresses.argmin dialPriority with
  | some address => exact ⟨address, rfl⟩
  | none => exact absurd (argmin_eq_none.mp hmin) h

/-- A list of addresses that can all be turned into dial addresses has a
preferred one. -/
theorem preferred_of_mapM {f : Bytes → Except SessionError Multiaddr} {addresses : List Bytes}
    (nonempty : addresses ≠ []) (h : ∀ raw ∈ addresses, isOk (f raw) = true) :
    ∃ dials dial, addresses.mapM f = .ok dials ∧ preferredDialAddress dials = some dial := by
  obtain ⟨dials, hdials⟩ := isOk_eq_true.mp (isOk_mapM.mpr h)
  have hne : dials ≠ [] := by
    intro hnil
    have hlength := length_of_mapM_eq_ok hdials
    rw [hnil] at hlength
    exact nonempty (length_eq_zero_iff.mp hlength.symm)
  obtain ⟨dial, hdial⟩ := preferredDialAddress_isSome hne
  exact ⟨dials, dial, hdials, hdial⟩

theorem poolDialTarget_isOk (texts : DialTexts) (h : AllDialable P endpoint.addresses) :
    isOk (poolDialTarget P texts endpoint.expected endpoint.addresses) = true := by
  obtain ⟨dials, dial, hdials, hdial⟩ := preferred_of_mapM endpoint.addresses_ne_nil
    fun raw hraw => poolDialAddress_isOk texts hraw (h raw hraw)
  exact isOk_eq_true.mpr ⟨dial, bind_eq_ok.mpr ⟨dials, hdials, okOr_eq_ok.mpr hdial⟩⟩

/-- `direct_room_recipient` succeeds exactly on a dialable endpoint. -/
theorem directRoomRecipient_isOk_iff :
    isOk (directRoomRecipient P endpoint.peerId endpoint.addresses) = true ↔
      AllDialable P endpoint.addresses := by
  constructor
  · intro h raw hraw
    obtain ⟨recipient, h⟩ := isOk_eq_true.mp h
    unfold directRoomRecipient at h
    obtain ⟨peerId, hpeer, h⟩ := okOr_bind_eq_ok.mp h
    rw [endpoint.peerIdFromBytes] at hpeer
    cases hpeer
    obtain ⟨dials, hdials, -⟩ := bind_eq_ok.mp h
    have hall := isOk_mapM.mp (isOk_eq_true.mpr ⟨dials, hdials⟩) raw hraw
    rw [isOk_mapError] at hall
    exact (peerDialAddress_isOk_iff hraw).mp hall
  · intro h
    obtain ⟨dials, dial, hdials, hdial⟩ := preferred_of_mapM endpoint.addresses_ne_nil
      (f := fun raw => (peerDialAddress P raw endpoint.expected).mapError
        (.context "牌桌共识参与者拨号地址无效"))
      fun raw hraw => by
        rw [isOk_mapError]
        exact (peerDialAddress_isOk_iff hraw).mpr (h raw hraw)
    refine isOk_eq_true.mpr ⟨⟨endpoint.expected, [dial]⟩, ?_⟩
    refine okOr_bind_eq_ok.mpr ⟨_, endpoint.peerIdFromBytes, bind_eq_ok.mpr ⟨dials, hdials, ?_⟩⟩
    exact okOr_bind_eq_ok.mpr ⟨dial, hdial, rfl⟩

/-- The peer of a roster's seat can be handed over exactly when the claim of its
player has a dialable endpoint. -/
theorem readyPeer_isOk_iff {membership : MembershipProposal} {rosterSeat : HandRosterSeat}
    {seat : MembershipSeatClaim} (found : membership.seatByPlayer rosterSeat.playerId = some seat)
    (hpeer : endpoint.peerId = seat.joinIntent.ticket.sessionPeerId)
    (haddresses : endpoint.addresses = seat.joinIntent.ticket.sessionAddresses) :
    isOk (readyPeer P membership rosterSeat) = true ↔ AllDialable P endpoint.addresses := by
  constructor
  · intro h raw hraw
    obtain ⟨ready, h⟩ := isOk_eq_true.mp h
    obtain ⟨claim, hclaim, h⟩ := okOr_bind_eq_ok.mp h
    obtain ⟨peerId, hpeerId, h⟩ := okOr_bind_eq_ok.mp h
    obtain ⟨dials, hdials, -⟩ := bind_eq_ok.mp h
    cases Option.some.inj (found.symm.trans hclaim)
    rw [← hpeer, endpoint.peerIdFromBytes] at hpeerId
    cases hpeerId
    rw [← haddresses] at hdials
    exact (peerDialAddress_isOk_iff hraw).mp
      (isOk_mapM.mp (isOk_eq_true.mpr ⟨dials, hdials⟩) raw hraw)
  · intro h
    obtain ⟨dials, dial, hdials, hdial⟩ := preferred_of_mapM endpoint.addresses_ne_nil
      fun raw hraw => (peerDialAddress_isOk_iff hraw).mpr (h raw hraw)
    refine isOk_eq_true.mpr ⟨(endpoint.expected, [dial]), ?_⟩
    refine okOr_bind_eq_ok.mpr ⟨seat, found, ?_⟩
    refine okOr_bind_eq_ok.mpr ⟨endpoint.expected, hpeer ▸ endpoint.peerIdFromBytes, ?_⟩
    rw [← haddresses]
    exact bind_eq_ok.mpr ⟨dials, hdials, okOr_bind_eq_ok.mpr ⟨dial, hdial, rfl⟩⟩

end Parsers

/-! ## Documents -/

/-- The signed documents that carry an endpoint. -/
inductive EndpointDocument where
  | ticket (ticket : PoolTicket)
  | joinIntent (intent : JoinIntent)
  | advertisement (advertisement : TableAdvertisement)
  | invite (invite : FriendRoomInvite)

namespace EndpointDocument

def peerId : EndpointDocument → Bytes
  | .ticket document => document.sessionPeerId
  | .joinIntent intent => intent.ticket.sessionPeerId
  | .advertisement document => document.admissionPeerId
  | .invite document => document.hostSessionPeerId

def addresses : EndpointDocument → List Bytes
  | .ticket document => document.sessionAddresses
  | .joinIntent intent => intent.ticket.sessionAddresses
  | .advertisement document => document.admissionAddresses
  | .invite document => document.hostSessionAddresses

/-- The document's own `verify_at` accepts it. -/
def Verified (P : Primitives) (now : UInt64) : EndpointDocument → Prop
  | .ticket document => document.verifyAt P now = .ok ()
  | .joinIntent intent => intent.verifyAt P now = .ok ()
  | .advertisement document => document.verifyAt P now = .ok ()
  | .invite document => document.verifyAt P now = .ok ()

end EndpointDocument

/-- The endpoint has been accepted. -/
abbrev Accepted (P : Primitives) (peerId : Bytes) (addresses : List Bytes) : Prop :=
  ∃ endpoint : AcceptedEndpoint P, endpoint.peerId = peerId ∧ endpoint.addresses = addresses

theorem validateEndpoint_eq_ok {peerId : Bytes} {addresses : List Bytes}
    (h : validateEndpoint P peerId addresses = .ok ()) : Accepted P peerId addresses := by
  unfold validateEndpoint at h
  cases hchecked : validateSessionEndpoint P peerId addresses with
  | ok expected => exact ⟨⟨peerId, addresses, expected, hchecked⟩, rfl, rfl⟩
  | error e =>
    rw [hchecked] at h
    cases e <;> cases h

variable {now : UInt64}

theorem PoolTicket.endpoint_of_verifyAt {ticket : PoolTicket} (h : ticket.verifyAt P now = .ok ()) :
    Accepted P ticket.sessionPeerId ticket.sessionAddresses := by
  unfold verifyAt at h
  obtain ⟨-, h⟩ := ensure_bind_eq_ok.mp h
  obtain ⟨hfields, -⟩ := unit_bind_eq_ok.mp h
  unfold validateFields at hfields
  exact validateEndpoint_eq_ok (unit_bind_eq_ok.mp hfields).1

theorem JoinIntent.ticket_of_verifyAt {intent : JoinIntent} (h : intent.verifyAt P now = .ok ()) :
    intent.ticket.verifyAt P now = .ok () := by
  unfold verifyAt at h
  obtain ⟨-, h⟩ := ensure_bind_eq_ok.mp h
  exact mapError_eq_ok_iff.mp (unit_bind_eq_ok.mp h).1

theorem TableAdvertisement.endpoint_of_verifyAt {advertisement : TableAdvertisement}
    (h : advertisement.verifyAt P now = .ok ()) :
    Accepted P advertisement.admissionPeerId advertisement.admissionAddresses := by
  unfold verifyAt at h
  obtain ⟨-, h⟩ := ensure_bind_eq_ok.mp h
  obtain ⟨hfields, -⟩ := unit_bind_eq_ok.mp h
  unfold validateFields at hfields
  simp only [unit_bind_eq_ok] at hfields
  exact validateEndpoint_eq_ok hfields.2.2.2.1

theorem FriendRoomInvite.endpoint_of_verifyAt {invite : FriendRoomInvite}
    (h : invite.verifyAt P now = .ok ()) :
    Accepted P invite.hostSessionPeerId invite.hostSessionAddresses := by
  unfold verifyAt at h
  obtain ⟨-, h⟩ := ensure_bind_eq_ok.mp h
  obtain ⟨hfields, -⟩ := unit_bind_eq_ok.mp h
  unfold validateFields at hfields
  obtain ⟨-, hfields⟩ := unit_bind_eq_ok.mp hfields
  have hendpoint := (unit_bind_eq_ok.mp hfields).1
  unfold FriendRoomInvite.validateEndpoint at hendpoint
  cases hchecked : validateSessionEndpoint P invite.hostSessionPeerId
      invite.hostSessionAddresses with
  | ok expected => exact ⟨⟨_, _, expected, hchecked⟩, rfl, rfl⟩
  | error e =>
    rw [hchecked] at hendpoint
    cases e <;> cases hendpoint

/-- The endpoint of a verified document has been accepted. -/
theorem EndpointDocument.endpoint_of_verified {document : EndpointDocument}
    (h : document.Verified P now) : Accepted P document.peerId document.addresses := by
  cases document with
  | ticket ticket => exact PoolTicket.endpoint_of_verifyAt h
  | joinIntent intent => exact PoolTicket.endpoint_of_verifyAt (JoinIntent.ticket_of_verifyAt h)
  | advertisement advertisement => exact TableAdvertisement.endpoint_of_verifyAt h
  | invite invite => exact FriendRoomInvite.endpoint_of_verifyAt h

/-! ## The pool

A tick of a pool that holds dialable documents fails only over its own ticket
and its own advertisement. -/

/-- The errors of a tick that are about the node itself. -/
inductive LocalFault : SessionError → Prop
  | ticketExpiry : LocalFault (.message "公开池票据有效期溢出")
  | ticket (error : TablePoolProtocolError) : LocalFault (.context "无法签发公开池票据" (.pool error))
  | advertisementExpiry : LocalFault (.message "牌桌广告有效期溢出")
  | advertisement (error : TablePoolProtocolError) :
    LocalFault (.context "无法签发牌桌广告" (.pool error))
  | unranked : LocalFault (.message "本地公开池票据不在确定性候选排序中")
  | rank : LocalFault (.message "公开池候选排名超出范围")

/-- Every advertisement in the directory is dialable. -/
def DialableTables (P : Primitives) (pool : ActivePool) : Prop :=
  ∀ advertisement ∈ values pool.advertisements, AllDialable P advertisement.admissionAddresses

/-- Every ticket and every advertisement in the directory is dialable. -/
structure DialableDirectory (P : Primitives) (pool : ActivePool) : Prop where
  tickets : ∀ ticket ∈ values pool.tickets, AllDialable P ticket.sessionAddresses
  tables : DialableTables P pool

section Pool

variable (swarm : PoolSwarm)

variable {advertisement : TableAdvertisement} {now : UInt64} {ticket : PoolTicket}
  {input : PoolTick} {pool : ActivePool} {e : SessionError} {addresses : List Bytes}
  {device : DeviceIdentity} {certificate : DeviceCertificate} {nonce : FixedBytes 16}
  {snapshot : LocalTableAdvertisement}

theorem dialAdvertisement_isOk (verified : advertisement.verifyAt P now = .ok ())
    (dialable : AllDialable P advertisement.admissionAddresses) :
    dialAdvertisement P swarm advertisement = .ok () := by
  obtain ⟨endpoint, hpeer, haddresses⟩ := TableAdvertisement.endpoint_of_verifyAt verified
  unfold dialAdvertisement
  refine okOr_bind_eq_ok.mpr ⟨endpoint.expected, hpeer ▸ endpoint.peerIdFromBytes, ?_⟩
  split
  · rfl
  · rw [← haddresses] at dialable ⊢
    obtain ⟨dial, hdial⟩ := isOk_eq_true.mp (poolDialTarget_isOk advertisementDialTexts dialable)
    exact bind_eq_ok.mpr ⟨dial, hdial, rfl⟩

/-- A step of the loop over the tickets succeeds and touches only the explicit peers. -/
theorem synchronizeTicket_ok (pool : ActivePool) {endpoint : AcceptedEndpoint P}
    (peerId : endpoint.peerId = ticket.sessionPeerId)
    (addresses : endpoint.addresses = ticket.sessionAddresses)
    (dialable : AllDialable P ticket.sessionAddresses) :
    ∃ explicitPeers, (synchronizeTicket P swarm ticket).run pool
      = .ok () { pool with explicitPeers } := by
  have hparsed := endpoint.peerIdFromBytes
  rw [peerId] at hparsed
  rw [← addresses] at dialable
  obtain ⟨dial, hdial⟩ := isOk_eq_true.mp (poolDialTarget_isOk ticketDialTexts dialable)
  rw [addresses] at hdial
  by_cases skip : endpoint.expected = swarm.localPeerId ∨ endpoint.expected ∈ pool.explicitPeers ∨
      shouldInitiatePeerDial swarm.localPeerId endpoint.expected = false
  · refine ⟨pool.explicitPeers, ?_⟩
    unfold synchronizeTicket
    simp [hparsed, skip]
  · by_cases connected : swarm.isConnected endpoint.expected = true
    · refine ⟨endpoint.expected :: pool.explicitPeers, ?_⟩
      unfold synchronizeTicket
      simp [hparsed, skip, connected, PoolM.update]
    · refine ⟨pool.explicitPeers, ?_⟩
      unfold synchronizeTicket
      simp [hparsed, connected, hdial, PoolM.lift]

theorem synchronizeTickets_ok (pool : ActivePool) {tickets : List PoolTicket}
    (verified : ∀ ticket ∈ tickets, ticket.verifyAt P now = .ok ())
    (dialable : ∀ ticket ∈ tickets, AllDialable P ticket.sessionAddresses) :
    ∃ explicitPeers, (synchronizeTickets P swarm tickets).run pool
      = .ok () { pool with explicitPeers } := by
  induction tickets generalizing pool with
  | nil => exact ⟨pool.explicitPeers, rfl⟩
  | cons ticket tickets ih =>
    rw [forall_mem_cons] at verified dialable
    obtain ⟨endpoint, hpeer, haddresses⟩ := PoolTicket.endpoint_of_verifyAt verified.1
    obtain ⟨peers, hstep⟩ := synchronizeTicket_ok swarm pool hpeer haddresses dialable.1
    obtain ⟨peers', hrest⟩ := ih { pool with explicitPeers := peers } verified.2 dialable.2
    refine ⟨peers', ?_⟩
    rw [synchronizeTickets, run_bind_ok hstep]
    exact hrest

theorem selectTableAdvertisement_eq_some {advertisements : List TableAdvertisement}
    {level : StakeLevel} {selected : TableAdvertisement}
    (h : selectTableAdvertisement P advertisements level now = some selected) :
    selected ∈ advertisements ∧ selected.verifyAt P now = .ok () := by
  -- the fold returns one of the advertisements that passed the filter
  have hfold : ∀ (rest : List TableAdvertisement) (first : TableAdvertisement),
      rest.foldl (fun best advertisement =>
        if compareAdvertisements best advertisement = .gt then advertisement else best) first
        ∈ first :: rest := by
    intro rest
    induction rest with
    | nil => simp
    | cons second rest ih =>
      intro first
      rw [foldl_cons]
      split
      · exact mem_cons_of_mem _ (ih second)
      · rcases mem_cons.mp (ih first) with hfirst | hrest
        · rw [hfirst]
          exact mem_cons_self
        · exact mem_cons_of_mem _ (mem_cons_of_mem _ hrest)
  unfold selectTableAdvertisement at h
  dsimp only at h
  split at h
  · cases h
  · rename_i first rest heligible
    have hmem := hfold rest first
    rw [Option.some.inj h, ← heligible, mem_filter] at hmem
    have hok : isOk (selected.verifyAt P now) = true := by
      have hall := hmem.2
      simp only [Bool.decide_and, Bool.and_eq_true, decide_eq_true_eq] at hall
      exact hall.1
    obtain ⟨⟨⟩, hverified⟩ := isOk_eq_true.mp hok
    exact ⟨hmem.1, hverified⟩

/-- A decision about advertised tables fails only over the local ticket. -/
theorem decideTick_error (tables : DialableTables P pool)
    (h : decideTick P swarm input pool = .error e) : LocalFault e := by
  have hdial : ∀ {candidates : List TableAdvertisement} {level : StakeLevel}
      {selected : TableAdvertisement}, (∀ a ∈ candidates, a ∈ values pool.advertisements) →
      selectTableAdvertisement P candidates level input.now = some selected →
      dialAdvertisement P swarm selected = .ok () := by
    intro candidates level selected hcandidates hselected
    obtain ⟨hmem, hverified⟩ := selectTableAdvertisement_eq_some hselected
    exact dialAdvertisement_isOk swarm hverified (tables _ (hcandidates _ hmem))
  have hjoin : ∀ a ∈ joinCandidates P swarm pool, a ∈ values pool.advertisements :=
    fun a ha => (mem_filter.mp ha).1
  unfold decideTick at h
  cases hphase : pool.phase with
  | joining tableId startedAt =>
    rw [hphase] at h
    cases h
  | creating tableId =>
    rw [hphase] at h
    cases h
  | inRoom =>
    rw [hphase] at h
    dsimp only at h
    unfold decideSingletonConvergence at h
    split at h
    · cases h
    · rename_i own _
      split at h
      · cases h
      · split at h
        · cases h
        · rename_i selected hselected
          rw [hdial (fun a ha => hjoin a (mem_filter.mp ha).1) hselected] at h
          cases h
  | searching =>
    rw [hphase] at h
    dsimp only at h
    unfold decideNextAction at h
    split at h
    · rename_i selected hselected
      rw [hdial hjoin hselected] at h
      cases h
    · -- no table to join: the error, if any, is about the rank of the local ticket
      rcases bind_eq_error.mp h with hrank | ⟨rank, -, h⟩
      · obtain ⟨-, rfl⟩ := okOr_eq_error.mp hrank
        exact .unranked
      · rcases bind_eq_error.mp h with hsmall | ⟨⟨⟩, -, h⟩
        · obtain ⟨-, rfl⟩ := ensure_eq_error.mp hsmall
          exact .rank
        · split at h <;> cases h

theorem issueTicket_error {level : StakeLevel} {buyIn : Chips}
    (h : issueTicket P swarm level buyIn addresses device certificate now nonce = .error e) :
    LocalFault e := by
  rcases bind_eq_error.mp h with hexpiry | ⟨expiresAt, -, h⟩
  · obtain ⟨-, rfl⟩ := okOr_eq_error.mp hexpiry
    exact .ticketExpiry
  · obtain ⟨error, -, rfl⟩ := mapError_eq_error.mp h
    exact .ticket error

theorem issueAdvertisement_error
    (h : issueAdvertisement P ticket snapshot addresses device certificate now nonce = .error e) :
    LocalFault e := by
  rcases bind_eq_error.mp h with hexpiry | ⟨expiresAt, -, h⟩
  · obtain ⟨-, rfl⟩ := okOr_eq_error.mp hexpiry
    exact .advertisementExpiry
  · obtain ⟨error, -, rfl⟩ := mapError_eq_error.mp h
    exact .advertisement error

/-- The own advertisement has the addresses the tick was given. -/
theorem issueAdvertisement_addresses
    (h : issueAdvertisement P ticket snapshot addresses device certificate now nonce
      = .ok advertisement) : advertisement.admissionAddresses = addresses := by
  obtain ⟨expiresAt, -, h⟩ := okOr_bind_eq_ok.mp h
  rw [mapError_eq_ok_iff, TableAdvertisement.issue] at h
  obtain ⟨-, h⟩ := unit_bind_eq_ok.mp h
  obtain ⟨attestation, -, h⟩ := bind_eq_ok.mp h
  cases h
  rfl

/-- What each part of the tick keeps true, unless it fails over the node itself. -/
abbrev KeepsTables (P : Primitives) (pool : ActivePool) (x : PoolM Unit) : Prop :=
  Yields (fun _ after => DialableTables P after) LocalFault pool x

theorem synchronizeExplicitPoolPeers_keeps
    (verified : ∀ ticket ∈ values pool.tickets, ticket.verifyAt P now = .ok ())
    (directory : DialableDirectory P pool) :
    KeepsTables P pool (synchronizeExplicitPoolPeers P swarm) := by
  unfold synchronizeExplicitPoolPeers
  apply Yields.get_bind
  refine Yields.ite (fun _ => .pure directory.tables) fun _ => ?_
  obtain ⟨peers, hrun⟩ := synchronizeTickets_ok swarm pool verified directory.tickets
  exact .of_ok hrun directory.tables

theorem yields_lift_bind {α β : Type} {R : β → ActivePool → Prop} {x : Except SessionError α}
    {k : α → PoolM β} (failure : ∀ e, x = .error e → LocalFault e)
    (h : ∀ a, x = .ok a → Yields R LocalFault pool (k a)) :
    Yields R LocalFault pool (PoolM.lift x >>= k) := by
  cases x with
  | ok a =>
    have hk := h a rfl
    exact ⟨hk.result, hk.failure⟩
  | error e => exact .of_error rfl (failure e rfl)

theorem renewLocalTicket_keeps (tables : DialableTables P pool) :
    KeepsTables P pool (renewLocalTicket P swarm input) := by
  unfold renewLocalTicket
  apply Yields.get_bind
  refine Yields.ite (fun _ => ?_) fun _ => .pure tables
  refine yields_lift_bind (fun e he => issueTicket_error swarm he) fun renewed _ => ?_
  exact .modify tables

theorem publishDirectory_keeps (tables : DialableTables P pool)
    (own : AllDialable P input.sessionAddresses) :
    KeepsTables P pool (publishDirectory P input) := by
  unfold publishDirectory
  -- publishing the ticket changes no advertisement
  refine Yields.bind (Q := fun _ after => DialableTables P after) ?_ fun _ after tables => ?_
  · apply Yields.modify
    split <;> exact tables
  apply Yields.get_bind
  split
  · exact .pure tables
  · refine Yields.ite (fun _ => ?_) fun _ => .pure tables
    refine yields_lift_bind (fun e he => issueAdvertisement_error he)
      fun advertisement hissued => ?_
    apply Yields.modify
    intro a ha
    rcases mem_values_insert ha with rfl | ha
    · rw [issueAdvertisement_addresses hissued]
      exact own
    · exact tables a ha

theorem tickPool_yields (directory : DialableDirectory P pool)
    (own : AllDialable P input.sessionAddresses) :
    Yields (fun _ _ => True) LocalFault pool (tickPool P swarm input) := by
  unfold tickPool
  -- the documents that are left have been verified in this tick
  let retained := pool.retainVerified P input.now
  have htickets : values retained.tickets
      = (values pool.tickets).filter fun ticket => isOk (ticket.verifyAt P input.now) :=
    values_filter
  have htables : values retained.advertisements = (values pool.advertisements).filter
      fun advertisement => isOk (advertisement.verifyAt P input.now) := values_filter
  have hverified : ∀ ticket ∈ values retained.tickets, ticket.verifyAt P input.now = .ok () := by
    intro ticket hticket
    rw [htickets, mem_filter] at hticket
    obtain ⟨⟨⟩, hok⟩ := isOk_eq_true.mp hticket.2
    exact hok
  have hdirectory : DialableDirectory P retained := by
    refine ⟨fun ticket hticket => ?_, fun advertisement hadvertisement => ?_⟩
    · rw [htickets] at hticket
      exact directory.tickets ticket (mem_filter.mp hticket).1
    · rw [htables] at hadvertisement
      exact directory.tables advertisement (mem_filter.mp hadvertisement).1
  apply Yields.modify_bind
  refine (synchronizeExplicitPoolPeers_keeps swarm hverified hdirectory).bind
    fun _ after tables => ?_
  refine (renewLocalTicket_keeps swarm tables).bind fun _ after tables => ?_
  refine (publishDirectory_keeps tables own).bind fun _ after tables => ?_
  let expired := after.expireJoinAttempt input.nowMonotonic
  have hexpired : DialableTables P expired := by
    have hsame : expired.advertisements = after.advertisements := by
      change (after.expireJoinAttempt input.nowMonotonic).advertisements = _
      unfold ActivePool.expireJoinAttempt
      split
      · split <;> rfl
      · rfl
    intro a ha
    rw [hsame] at ha
    exact tables a ha
  apply Yields.modify_bind
  apply Yields.get_bind
  refine yields_lift_bind (fun e he => decideTick_error swarm hexpired he) ?_
  rintro (_ | decision) -
  · exact .pure trivial
  · exact .of_ok rfl trivial

end Pool

end TokenHoldem
