import TokenHoldem.Network.SignedDocuments
import TokenHoldem.Sidecar.Endpoints
import TokenHoldem.Sidecar.TableSession.World

/-!
# Dialling the players of a table

A session that holds verified memberships and rosters dials the players named in
them. When all their endpoints are dialable, every part of a call that turns an
endpoint into an address succeeds: `publishActiveMessages_yields`,
`synchronizeExplicitSessionPeers_yields` and `SoundRoster.readyTable_isOk`. One
address with a component after the peer is enough to make a tick fail
(`trailing_component_stops_tick`).
-/

namespace TokenHoldem

open Library Option HandRosterProposal MembershipProposal Room FixedBytes List

variable {P : Primitives}

/-! ## The table of a verified roster -/

namespace SignedHandRosterProposal

variable {signed : SignedHandRosterProposal} {now : UInt64}
  (verified : signed.verifyAt P now = .ok ())

include verified

theorem contents_of_verifyAt : ReadyHandRoster.validate signed.proposal.readyRoster = .ok () ∧
      signed.proposal.validateContents P signed.membership = .ok () := by
  have hproposal := verifyAt_eq_ok verified
  exact ⟨validate_of_verify hproposal, (verify_eq_ok hproposal).2.2⟩

theorem membershipContents_of_verifyAt :
    signed.membership.proposal.validateContents P now = .ok () :=
  validateContents_of_verifyAt
    (SignedMembershipProposal.verifyAt_eq_ok (coordinator_of_verifyAt verified).1)

/-- Every seat of the roster is the seat of a member with an accepted endpoint. -/
theorem readyPeer_isOk_iff {rosterSeat : HandRosterSeat}
    (hseat : rosterSeat ∈ signed.proposal.readyRoster.seats) :
    ∃ seat ∈ signed.membership.proposal.seats,
      signed.membership.proposal.seatByPlayer rosterSeat.playerId = some seat ∧
        (isOk (readyPeer P signed.membership.proposal rosterSeat) = true ↔
          AllDialable P seat.joinIntent.ticket.sessionAddresses) := by
  obtain ⟨_, seat, hof⟩ :=
    endpointOf_of_rosterSeat (contents_of_verifyAt verified).2 hseat
  have hmem := (seatByPlayer_eq_some hof.found).1
  obtain ⟨hintent, -⟩ := validateContents_intents
    (membershipContents_of_verifyAt verified) (mem_append_left _ (List.mem_map_of_mem hmem))
  obtain ⟨endpoint, hpeer, haddresses⟩ :=
    PoolTicket.endpoint_of_verifyAt (JoinIntent.ticket_of_verifyAt hintent)
  refine ⟨seat, hmem, hof.found, ?_⟩
  rw [← haddresses]
  exact TokenHoldem.readyPeer_isOk_iff hof.found hpeer haddresses

/-- The seats of a roster in the order of their indices. -/
def orderedSeats (signed : SignedHandRosterProposal) : List HandRosterSeat :=
  sortByKey (fun seat : HandRosterSeat => seat.handIndex.toNat) signed.proposal.readyRoster.seats

/-- A player of the roster can be handed its table exactly when every peer can. -/
theorem readyTable_isOk_iff {player : PlayerId}
    (takesPart : player ∈ signed.proposal.readyRoster.seats.map HandRosterSeat.playerId) :
    isOk (readyTableFromProposal P signed player) = true ↔
      ∀ rosterSeat ∈ signed.proposal.readyRoster.seats,
        isOk (readyPeer P signed.membership.proposal rosterSeat) = true := by
  have hlocal :
      ∃ i, signed.orderedSeats.findIdx? (fun seat => seat.playerId = player) = some i := by
    obtain ⟨rosterSeat, hmem, hplayer⟩ := List.mem_map.mp takesPart
    refine isSome_iff_exists.mp (findIdx?_isSome.trans ?_)
    exact List.any_eq_true.mpr ⟨rosterSeat, mem_sortByKey.mpr hmem, decide_eq_true hplayer⟩
  have hdealer : ∃ i, signed.orderedSeats.findIdx? (fun seat =>
      seat.physicalSeat = signed.proposal.readyRoster.dealerSeat) = some i := by
    obtain ⟨rosterSeat, hmem, hphysical⟩ :=
      (ReadyHandRoster.validate_eq_ok (contents_of_verifyAt verified).1).2.1
    refine isSome_iff_exists.mp (findIdx?_isSome.trans ?_)
    exact List.any_eq_true.mpr ⟨rosterSeat, mem_sortByKey.mpr hmem, decide_eq_true hphysical⟩
  obtain ⟨localSeat, hlocal⟩ := hlocal
  obtain ⟨dealerIndex, hdealer⟩ := hdealer
  have hordered : (∀ rosterSeat ∈ signed.proposal.readyRoster.seats,
      isOk (readyPeer P signed.membership.proposal rosterSeat) = true) ↔
      isOk (signed.orderedSeats.mapM (readyPeer P signed.membership.proposal)) = true := by
    rw [isOk_mapM]
    exact ⟨fun h seat hseat => h seat (mem_sortByKey.mp hseat),
      fun h seat hseat => h seat (mem_sortByKey.mpr hseat)⟩
  rw [hordered]
  constructor
  · intro h
    obtain ⟨table, h⟩ := isOk_eq_true.mp h
    obtain ⟨_, -, h⟩ := okOr_bind_eq_ok.mp h
    obtain ⟨_, -, h⟩ := okOr_bind_eq_ok.mp h
    obtain ⟨peers, hpeers, -⟩ := bind_eq_ok.mp h
    exact isOk_eq_true.mpr ⟨peers, hpeers⟩
  · intro h
    obtain ⟨peers, hpeers⟩ := isOk_eq_true.mp h
    exact isOk_eq_true.mpr ⟨_, okOr_bind_eq_ok.mpr ⟨localSeat, hlocal,
      okOr_bind_eq_ok.mpr ⟨dealerIndex, hdealer, bind_eq_ok.mpr ⟨peers, hpeers, rfl⟩⟩⟩⟩

end SignedHandRosterProposal

/-! ## Sound documents -/

/-- A membership proposal that was verified and whose players can all be dialled. -/
structure SoundMembership (P : Primitives) (signed : SignedMembershipProposal) : Prop where
  verified : ∃ now, signed.verifyAt P now = .ok ()
  dialable : ∀ intent ∈ signed.proposal.seats.map MembershipSeatClaim.joinIntent
    ++ signed.proposal.waiting, AllDialable P intent.ticket.sessionAddresses

/-- A roster that was verified, of a membership whose players can all be dialled. -/
structure SoundRoster (P : Primitives) (signed : SignedHandRosterProposal) : Prop where
  verified : ∃ now, signed.verifyAt P now = .ok ()
  membership : SoundMembership P signed.membership

/-- A session that holds sound documents only. -/
structure SoundSession (P : Primitives) (active : ActiveSession) : Prop where
  membership : ∀ signed ∈ active.membership, SoundMembership P signed
  pendingMembership : ∀ signed ∈ active.pendingMembership, SoundMembership P signed
  certificate : ∀ confirmed ∈ active.membershipCertificate, SoundMembership P confirmed.proposal
  pendingRoster : ∀ signed ∈ active.pendingRoster, SoundRoster P signed
  rosterCertificate : ∀ confirmed ∈ active.rosterCertificate, SoundRoster P confirmed.proposal

namespace SoundMembership

variable {signed : SignedMembershipProposal} (sound : SoundMembership P signed)

include sound

theorem endpoint {intent : JoinIntent}
    (hintent : intent ∈ signed.proposal.seats.map MembershipSeatClaim.joinIntent
      ++ signed.proposal.waiting) :
    ∃ endpoint : AcceptedEndpoint P, endpoint.peerId = intent.ticket.sessionPeerId ∧
      endpoint.addresses = intent.ticket.sessionAddresses ∧
      AllDialable P intent.ticket.sessionAddresses := by
  obtain ⟨now, hverified⟩ := sound.verified
  have hcontents := validateContents_of_verifyAt (SignedMembershipProposal.verifyAt_eq_ok hverified)
  obtain ⟨hintentVerified, -⟩ := validateContents_intents hcontents hintent
  obtain ⟨endpoint, hpeer, haddresses⟩ :=
    PoolTicket.endpoint_of_verifyAt (JoinIntent.ticket_of_verifyAt hintentVerified)
  exact ⟨endpoint, hpeer, haddresses, sound.dialable intent hintent⟩

/-- The recipient of any player of the membership can be worked out. -/
theorem recipient {intent : JoinIntent}
    (hintent : intent ∈ signed.proposal.seats.map MembershipSeatClaim.joinIntent
      ++ signed.proposal.waiting) :
    isOk (directRoomRecipient P intent.ticket.sessionPeerId intent.ticket.sessionAddresses)
      = true := by
  obtain ⟨endpoint, hpeer, haddresses, hdialable⟩ := sound.endpoint hintent
  rw [← hpeer, ← haddresses]
  rw [← haddresses] at hdialable
  exact directRoomRecipient_isOk_iff.mpr hdialable

theorem membershipRecipients_isOk : isOk (membershipRecipients P signed.proposal) = true :=
  isOk_mapM.mpr fun _ hintent => sound.recipient hintent

theorem coordinator_isOk (active : ActiveSession) :
    isOk (localIsMembershipCoordinator P active signed.proposal) = true := by
  obtain ⟨now, hverified⟩ := sound.verified
  obtain ⟨hclaim, -⟩ := SignedMembershipProposal.coordinator_of_verifyAt hverified
  exact isOk_eq_true.mpr ⟨_, okOr_bind_eq_ok.mpr ⟨_, hclaim, rfl⟩⟩

theorem coordinatorRecipient_isOk :
    isOk (membershipCoordinatorRecipient P signed.proposal) = true := by
  obtain ⟨now, hverified⟩ := sound.verified
  obtain ⟨hclaim, seat, hseat⟩ := SignedMembershipProposal.coordinator_of_verifyAt hverified
  obtain ⟨recipient, hrecipient⟩ := isOk_eq_true.mp (sound.recipient (mem_append_left _
    (List.mem_map_of_mem (mem_of_find?_eq_some hseat))))
  refine isOk_eq_true.mpr ⟨recipient, okOr_bind_eq_ok.mpr ⟨seat, ?_, hrecipient⟩⟩
  rw [hclaim]
  exact hseat

end SoundMembership

namespace SoundRoster

variable {signed : SignedHandRosterProposal} (sound : SoundRoster P signed)

include sound

theorem contents : ReadyHandRoster.validate signed.proposal.readyRoster = .ok () ∧
      signed.proposal.validateContents P signed.membership = .ok () := by
  obtain ⟨now, hverified⟩ := sound.verified
  exact SignedHandRosterProposal.contents_of_verifyAt hverified

theorem recipient {endpoint : RosterEndpoint} (hendpoint : endpoint ∈ signed.proposal.endpoints) :
    isOk (directRoomRecipient P endpoint.sessionPeerId endpoint.sessionAddresses) = true := by
  obtain ⟨rosterSeat, seat, hof⟩ :=
    endpointOf_of_endpoint sound.contents.2 hendpoint
  rw [hof.peerId, hof.addresses]
  exact sound.membership.recipient (mem_append_left _
    (List.mem_map_of_mem (seatByPlayer_eq_some hof.found).1))

theorem rosterRecipients_isOk : isOk (rosterRecipients P signed.proposal) = true :=
  isOk_mapM.mpr fun _ hendpoint => sound.recipient hendpoint

/-- Every seat of the membership takes part, so the coordinator has an endpoint. -/
theorem coordinatorRecipient_isOk : isOk (rosterCoordinatorRecipient P signed) = true := by
  obtain ⟨now, hverified⟩ := sound.verified
  obtain ⟨-, seat, hseat⟩ := SignedHandRosterProposal.coordinator_of_verifyAt hverified
  obtain ⟨hvalid, hcontents⟩ := sound.contents
  obtain ⟨hmem, hclaim⟩ : seat ∈ signed.membership.proposal.seats ∧
      seat.joinIntent.claimId P = signed.coordinatorClaimId :=
    ⟨mem_of_find?_eq_some hseat, by simpa using find?_some hseat⟩
  obtain ⟨rosterSeat, hrosterSeat, hplayer⟩ := exists_rosterSeat hvalid
    (validateContents_membership hcontents).1 hmem
  obtain ⟨endpoint, found, hof⟩ :=
    endpointOf_of_rosterSeat hcontents hrosterSeat
  -- the seat found by the player is the coordinator's
  have hsame : found = seat := by
    obtain ⟨hfound, hfoundPlayer⟩ := seatByPlayer_eq_some hof.found
    exact validateContents_seats
      (SignedHandRosterProposal.membershipContents_of_verifyAt hverified) hfound hmem
      (.inr (hfoundPlayer.trans hplayer))
  have hsome : (signed.proposal.endpointForClaim signed.coordinatorClaimId).isSome = true := by
    refine find?_isSome.mpr ⟨endpoint, hof.endpoint_mem, ?_⟩
    rw [hof.claim, hsame, hclaim]
    exact decide_eq_true rfl
  obtain ⟨chosen, hchosen⟩ := isSome_iff_exists.mp hsome
  obtain ⟨recipient, hrecipient⟩ :=
    isOk_eq_true.mp (sound.recipient (mem_of_find?_eq_some hchosen))
  exact isOk_eq_true.mpr ⟨recipient, okOr_bind_eq_ok.mpr ⟨chosen, hchosen, hrecipient⟩⟩

theorem readyPeer_isOk {rosterSeat : HandRosterSeat}
    (hseat : rosterSeat ∈ signed.proposal.readyRoster.seats) :
    isOk (readyPeer P signed.membership.proposal rosterSeat) = true := by
  obtain ⟨now, hverified⟩ := sound.verified
  obtain ⟨seat, hmem, -, hready⟩ :=
    SignedHandRosterProposal.readyPeer_isOk_iff hverified hseat
  exact hready.mpr (sound.membership.dialable _ (mem_append_left _ (List.mem_map_of_mem hmem)))

/-- A player of the roster can be handed its table. -/
theorem readyTable_isOk {player : PlayerId}
    (takesPart : (signed.proposal.endpointForPlayer player).isSome = true) :
    isOk (readyTableFromProposal P signed player) = true := by
  obtain ⟨now, hverified⟩ := sound.verified
  obtain ⟨endpoint, hendpoint, hplayer⟩ := find?_isSome.mp takesPart
  obtain ⟨rosterSeat, _, hof⟩ :=
    endpointOf_of_endpoint sound.contents.2 hendpoint
  have hseated : player ∈ signed.proposal.readyRoster.seats.map HandRosterSeat.playerId := by
    rw [hof.player] at hplayer
    exact List.mem_map.mpr ⟨rosterSeat, hof.rosterSeat_mem, of_decide_eq_true hplayer⟩
  exact (SignedHandRosterProposal.readyTable_isOk_iff hverified hseated).mpr
    fun _ hseat => sound.readyPeer_isOk hseat

end SoundRoster

/-! ## What a session sends -/

section Session

open SessionM

/-- A part of a tick that succeeds and leaves the session as it is. -/
abbrev PartSucceeds (s : Running) (x : SessionM Unit) : Prop :=
  Yields (fun _ after => after.active = s.active) (fun _ => False) s x

theorem deliverConsensusMessage_succeeds {message : RoomWireMessage}
    {recipients : Except SessionError (List DirectRoomRecipient)} (s : Running)
    (h : isOk recipients = true) : PartSucceeds s (deliverConsensusMessage message recipients) := by
  obtain ⟨list, rfl⟩ := isOk_eq_true.mp h
  exact .of_ok rfl rfl

theorem isOk_ite {c : Prop} [Decidable c] {ε α : Type} {x y : Except ε α} (hx : isOk x = true)
    (hy : isOk y = true) : isOk (if c then x else y) = true := by
  split <;> assumption

theorem isOk_map {ε α β : Type} {f : α → β} {x : Except ε α} (h : isOk x = true) :
    isOk (x.map f) = true := by
  obtain ⟨a, rfl⟩ := isOk_eq_true.mp h
  rfl

theorem PartSucceeds.lift_bind {α ε : Type} {wrap : ε → SessionError} {x : Except ε α} {s : Running}
    {k : α → SessionM Unit} (h : isOk x = true) (hk : ∀ a, PartSucceeds s (k a)) :
    PartSucceeds s (lift wrap x >>= k) := by
  obtain ⟨a, rfl⟩ := isOk_eq_true.mp h
  exact ⟨(hk a).result, (hk a).failure⟩

theorem yields_getActive_bind {Q : Unit → Running → Prop} {F : SessionError → Prop} {s : Running}
    {k : ActiveSession → SessionM Unit} (h : Yields Q F s (k s.active)) :
    Yields Q F s (getActive >>= k) := ⟨h.result, h.failure⟩

variable {s : Running} (sound : SoundSession P s.active)

include sound

theorem publishRosterCertificate_succeeds : PartSucceeds s (publishRosterCertificate P) := by
  unfold publishRosterCertificate
  apply yields_getActive_bind
  split
  · exact .pure rfl
  · rename_i confirmed hconfirmed
    exact deliverConsensusMessage_succeeds s
      (isOk_ite (sound.rosterCertificate confirmed hconfirmed).rosterRecipients_isOk rfl)

theorem publishMembershipCertificate_succeeds :
    PartSucceeds s (publishMembershipCertificate P) := by
  unfold publishMembershipCertificate
  apply yields_getActive_bind
  split
  · exact .pure rfl
  · rename_i confirmed hconfirmed
    have hsound := sound.certificate confirmed hconfirmed
    refine PartSucceeds.lift_bind (hsound.coordinator_isOk _) fun isCoordinator => ?_
    exact deliverConsensusMessage_succeeds s (isOk_ite hsound.membershipRecipients_isOk rfl)

theorem publishLeave_succeeds : PartSucceeds s (publishLeave P s.active) := by
  unfold publishLeave
  split
  · exact .pure rfl
  · refine deliverConsensusMessage_succeeds s ?_
    unfold leaveRecipients
    split
    · rfl
    · rename_i membership hmembership
      exact (sound.membership membership hmembership).membershipRecipients_isOk

theorem publishMembershipProposal_succeeds :
    PartSucceeds s (publishMembershipProposal P s.active) := by
  unfold publishMembershipProposal
  split
  · exact .pure rfl
  · rename_i signed hpending
    have hsound := sound.pendingMembership signed hpending
    refine PartSucceeds.lift_bind (hsound.coordinator_isOk _) fun isCoordinator => ?_
    exact Yields.ite
      (fun _ => deliverConsensusMessage_succeeds s hsound.membershipRecipients_isOk)
      fun _ => .pure rfl

theorem publishMembershipAcceptance_succeeds :
    PartSucceeds s (publishMembershipAcceptance P s.active) := by
  unfold publishMembershipAcceptance
  split
  · rename_i acceptance signed hacceptance hsigned
    -- the proposal is the pending one or the certified one
    have hsound : SoundMembership P signed := by
      unfold membershipProposalForLocalAcceptance at hsigned
      rw [hacceptance] at hsigned
      rcases mem_append.mp (mem_of_find?_eq_some hsigned) with hmem | hmem
      · exact sound.pendingMembership signed (mem_toList.mp hmem)
      · obtain ⟨confirmed, hconfirmed, rfl⟩ := map_eq_some_iff.mp (mem_toList.mp hmem)
        exact sound.certificate confirmed hconfirmed
    refine PartSucceeds.lift_bind (hsound.coordinator_isOk _) fun isCoordinator => ?_
    exact deliverConsensusMessage_succeeds s
      (isOk_ite rfl (isOk_map hsound.coordinatorRecipient_isOk))
  · exact .pure rfl

theorem publishRosterProposal_succeeds : PartSucceeds s (publishRosterProposal P s.active) := by
  unfold publishRosterProposal
  split
  · exact .pure rfl
  · rename_i signed hpending
    exact Yields.ite (fun _ => deliverConsensusMessage_succeeds s
      (sound.pendingRoster signed hpending).rosterRecipients_isOk) fun _ => .pure rfl

theorem publishRosterAcceptance_succeeds : PartSucceeds s (publishRosterAcceptance P s.active) := by
  unfold publishRosterAcceptance
  split
  · rename_i acceptance signed hacceptance hsigned
    have hsound : SoundRoster P signed := by
      unfold rosterProposalForLocalAcceptance at hsigned
      rw [hacceptance] at hsigned
      rcases mem_append.mp (mem_of_find?_eq_some hsigned) with hmem | hmem
      · exact sound.pendingRoster signed (mem_toList.mp hmem)
      · obtain ⟨confirmed, hconfirmed, rfl⟩ := map_eq_some_iff.mp (mem_toList.mp hmem)
        exact sound.rosterCertificate confirmed hconfirmed
    exact deliverConsensusMessage_succeeds s
      (isOk_ite rfl (isOk_map hsound.coordinatorRecipient_isOk))
  · exact .pure rfl

omit sound in
/-- A part that reads the session once is run on a session that has not changed. -/
theorem PartSucceeds.of_active {active : ActiveSession} {x : ActiveSession → SessionM Unit}
    (h : ∀ s : Running, SoundSession P s.active → PartSucceeds s (x s.active))
    (hsound : SoundSession P active) (hs : s.active = active) : PartSucceeds s (x active) := by
  subst hs
  exact h s hsound

/-- Publishing succeeds in a sound session. -/
theorem publishActiveMessages_yields {nowMonotonic : Nat} :
    Yields (fun _ _ => True) (fun _ => False) s (publishActiveMessages P nowMonotonic) := by
  unfold publishActiveMessages
  refine Yields.bind (publishRosterCertificate_succeeds sound) fun _ t ht => ?_
  rw [← ht] at sound
  refine Yields.bind (publishMembershipCertificate_succeeds sound) fun _ u hu => ?_
  rw [← hu] at sound
  apply yields_getActive_bind
  refine Yields.ite (fun _ => ?_) fun _ => .pure trivial
  refine Yields.bind (Q := fun _ after => after.active = u.active) (.of_ok rfl rfl)
    fun _ a ha => ?_
  refine Yields.bind (PartSucceeds.of_active (fun _ => publishLeave_succeeds) sound ha)
    fun _ b hb => ?_
  have hb' := hb.trans ha
  refine Yields.bind
    (PartSucceeds.of_active (fun _ => publishMembershipProposal_succeeds) sound hb')
    fun _ c hc => ?_
  have hc' := hc.trans hb'
  refine Yields.bind
    (PartSucceeds.of_active (fun _ => publishMembershipAcceptance_succeeds) sound hc')
    fun _ d hd => ?_
  have hd' := hd.trans hc'
  refine Yields.bind (PartSucceeds.of_active (fun _ => publishRosterProposal_succeeds) sound hd')
    fun _ e he => ?_
  have he' := he.trans hd'
  refine Yields.bind (PartSucceeds.of_active (fun _ => publishRosterAcceptance_succeeds) sound he')
    fun _ f _ => ?_
  exact .of_ok rfl trivial

/-- So does the synchronisation of the explicit peers. -/
theorem synchronizeExplicitSessionPeers_yields {localPeerId : PeerId} :
    Yields (fun _ _ => True) (fun _ => False) s
      (synchronizeExplicitSessionPeers P localPeerId) := by
  have hdesired : isOk (desiredPeers P localPeerId s.active) = true := by
    have hmembers : ∀ signed ∈ s.active.membership.toList ++ s.active.pendingMembership.toList,
        isOk (membershipRecipients P signed.proposal) = true := by
      intro signed hsigned
      rcases mem_append.mp hsigned with hmem | hmem
      · exact (sound.membership signed (mem_toList.mp hmem)).membershipRecipients_isOk
      · exact (sound.pendingMembership signed (mem_toList.mp hmem)).membershipRecipients_isOk
    obtain ⟨members, hmapped⟩ := isOk_eq_true.mp (isOk_mapM.mpr hmembers)
    exact isOk_eq_true.mpr ⟨_, bind_eq_ok.mpr ⟨members, hmapped, rfl⟩⟩
  obtain ⟨desired, hdesired⟩ := isOk_eq_true.mp hdesired
  unfold synchronizeExplicitSessionPeers
  apply yields_getActive_bind
  refine Yields.ite (fun _ => .pure trivial) fun _ => ?_
  rw [hdesired]
  exact .of_ok rfl trivial

end Session

/-! ## Accepted endpoints are usable exactly when they are dialable -/

/-- The session and the pool can dial the endpoint. -/
structure AcceptedEndpoint.Usable (endpoint : AcceptedEndpoint P) : Prop where
  recipient : isOk (directRoomRecipient P endpoint.peerId endpoint.addresses) = true
  dial : ∀ raw ∈ endpoint.addresses, isOk (peerDialAddress P raw endpoint.expected) = true
  pool : ∀ ticket : PoolTicket, ticket.sessionPeerId = endpoint.peerId →
    ticket.sessionAddresses = endpoint.addresses → ∀ swarm pool,
      ∃ after, (synchronizeTicket P swarm ticket).run pool = .ok () after

theorem usable_iff_dialable (endpoint : AcceptedEndpoint P) :
    endpoint.Usable ↔ AllDialable P endpoint.addresses := by
  constructor
  · intro usable
    exact directRoomRecipient_isOk_iff.mp usable.recipient
  · intro dialable
    refine ⟨directRoomRecipient_isOk_iff.mpr dialable,
      fun raw hraw => (peerDialAddress_isOk_iff hraw).mpr (dialable raw hraw),
      fun ticket hpeer haddresses swarm pool => ?_⟩
    obtain ⟨peers, hrun⟩ := synchronizeTicket_ok swarm pool hpeer.symm haddresses.symm
      (haddresses ▸ dialable)
    exact ⟨_, hrun⟩

/-- An accepted endpoint is usable exactly when each of its addresses ends in a
peer after some transport. The endpoints of verified documents are accepted; while
the documents a node holds are dialable, its pool's ticks fail only over the node
itself, and its sessions can always publish, connect and hand over a table. -/
theorem endpoints_usable_iff_dialable (P : Primitives) :
    (∀ endpoint : AcceptedEndpoint P, endpoint.Usable ↔ AllDialable P endpoint.addresses) ∧
      (∀ (document : EndpointDocument) (now : UInt64), document.Verified P now →
        ∃ endpoint : AcceptedEndpoint P, endpoint.peerId = document.peerId ∧
          endpoint.addresses = document.addresses) ∧
      (∀ (swarm : PoolSwarm) (input : PoolTick) (pool : ActivePool), DialableDirectory P pool →
        AllDialable P input.sessionAddresses →
        Yields (fun _ _ => True) LocalFault pool (tickPool P swarm input)) ∧
      (∀ (s : Running) (localPeerId : PeerId) (nowMonotonic : Nat), SoundSession P s.active →
        Yields (fun _ _ => True) (fun _ => False) s
            (synchronizeExplicitSessionPeers P localPeerId) ∧
          Yields (fun _ _ => True) (fun _ => False) s (publishActiveMessages P nowMonotonic)) ∧
      ∀ (signed : SignedHandRosterProposal) (player : PlayerId), SoundRoster P signed →
        (signed.proposal.endpointForPlayer player).isSome = true →
        isOk (readyTableFromProposal P signed player) = true := by
  refine ⟨usable_iff_dialable, fun _ _ verified => EndpointDocument.endpoint_of_verified verified,
    fun swarm _ _ directory own => tickPool_yields swarm directory own,
    fun _ _ _ sound => ⟨synchronizeExplicitSessionPeers_yields sound,
      publishActiveMessages_yields sound⟩,
    fun _ _ sound takesPart => sound.readyTable_isOk takesPart⟩

/-! ## An address with a component after the peer -/

/-- The primitives of the plain runs, which also parse a relay address: the peer
is not its last component. -/
def Primitives.relayed : Primitives := { Primitives.plain with
  multiaddr := fun raw => match raw with
    | [byte] => some [.tcp 1, .p2p ⟨byte.toNat⟩]
    | [byte, 0] => some [.tcp 1, .p2p ⟨byte.toNat⟩, .p2pCircuit]
    | _ => none }

/-- The join intent of the second peer, with the given addresses. -/
def guestIntent (addresses : List Bytes) : Except SessionError JoinIntent := do
  let guest := plainIdentity 2
  let ticket ← issueLocalSessionTicket .relayed plainRoom.level (chips 40) addresses guest
    plainEpoch (ofNat 0)
  issueJoinIntent .relayed plainRoom.tableId ticket guest plainEpoch (ofNat 0)

def hostTicket : Except SessionError PoolTicket :=
  issueLocalSessionTicket .relayed plainRoom.level (chips 40) [[1]] (plainIdentity 1)
    plainEpoch (ofNat 0)

/-- The first peer creates the table. -/
def hostSession : Except SessionError Running := do
  let host := plainIdentity 1
  let ticket ← hostTicket
  TableSession.create .relayed host plainRoom.tableId host.certificate.playerId ticket
    plainEpoch (ofNat 0)

/-- The pool of the first peer, whose table has free seats, with one other ticket. -/
def hostPool (own guest : PoolTicket) : ActivePool where
  localTicket := own
  tickets := (∅ : Std.TreeMap PoolTicketId PoolTicket).insert (guest.id .relayed) guest
  advertisements := ∅
  rejectedTables := []
  explicitPeers := []
  searchStartedAt := 0
  phase := .creating plainRoom.tableId
  localAdvertisement := some
    { tableId := plainRoom.tableId, memberCount := 1, waitingCount := 0, lifecycle := .waiting
      membershipVersion := 1, membershipHash := ofNat 0
      creatorPlayerId := own.playerId, convergenceEligible := true }
  lastTicketPublishedAt := none
  lastAdvertisementPublishedAt := none

/-- A tick of the first peer. -/
def hostTick : PoolTick where
  sessionAddresses := [[1]]
  device := (plainIdentity 1).device
  certificate := (plainIdentity 1).certificate
  now := plainEpoch
  nowMonotonic := 0
  ticketNonce := ofNat 0
  advertisementNonce := ofNat 0
  tableNonce := ofNat 0

theorem allDialable_relayed {addresses : List Bytes} (h : ∀ raw ∈ addresses, raw.length = 1) :
    AllDialable .relayed addresses := by
  intro raw hraw address haddress
  obtain ⟨byte, rfl⟩ := length_eq_one_iff.mp (h raw hraw)
  cases haddress
  exact ⟨[.tcp 1], _, cons_ne_nil _ _, rfl⟩

/-- A membership that verifies, of players whose addresses are single bytes. -/
abbrev PlainMembership (now : UInt64) (signed : SignedMembershipProposal) : Prop :=
  signed.verifyAt .relayed now = .ok () ∧
    ∀ intent ∈ signed.proposal.seats.map MembershipSeatClaim.joinIntent
      ++ signed.proposal.waiting, ∀ raw ∈ intent.ticket.sessionAddresses, raw.length = 1

theorem PlainMembership.sound {now : UInt64} {signed : SignedMembershipProposal}
    (h : PlainMembership now signed) : SoundMembership .relayed signed :=
  ⟨⟨now, h.1⟩, fun intent hintent => allDialable_relayed (h.2 intent hintent)⟩

/-- A roster of two players, the session of a table that has just been created, and a pool
with the ticket of a guest. -/
theorem endpoints_usable_iff_dialable_pair :
    ∃ roster ∈ SignedDocument.pairRoster .relayed, ∃ created own intent,
      isOk (readyTableFromProposal .relayed roster.1 roster.2.2.playerId) = true ∧
      hostSession = .ok created ∧
      Yields (fun _ _ => True) (fun _ => False) created (publishActiveMessages .relayed 0) ∧
      hostTicket = .ok own ∧ guestIntent [[2]] = .ok intent ∧
      Yields (fun _ _ => True) LocalFault (hostPool own intent.ticket)
        (tickPool .relayed ⟨⟨1⟩, fun _ => false⟩ hostTick) := by
  have hcheck : (∃ roster ∈ SignedDocument.pairRoster .relayed,
      roster.1.verifyAt .relayed 5 = .ok () ∧ PlainMembership 5 roster.1.membership ∧
        (roster.1.proposal.endpointForPlayer roster.2.2.playerId).isSome = true) ∧
      (∃ created, hostSession = .ok created ∧
        (∀ signed ∈ created.active.membership, PlainMembership plainEpoch signed) ∧
        (∀ confirmed ∈ created.active.membershipCertificate,
          PlainMembership plainEpoch confirmed.proposal) ∧
        created.active.pendingMembership = none ∧ created.active.pendingRoster = none ∧
        created.active.rosterCertificate = none) ∧
      ∃ own, hostTicket = .ok own ∧ ∃ intent, guestIntent [[2]] = .ok intent ∧
        ∀ ticket ∈ values (hostPool own intent.ticket).tickets,
          ∀ raw ∈ ticket.sessionAddresses, raw.length = 1 := by
    decide +kernel
  obtain ⟨⟨roster, hroster, hverified, hmembers, htakes⟩, ⟨created, hsession, hmembership,
    hcertificate, hnone, hnoRoster, hnoHand⟩, own, hown, intent, hintent, htickets⟩ := hcheck
  obtain ⟨-, -, hticks, hsessions, htables⟩ := endpoints_usable_iff_dialable .relayed
  refine ⟨roster, hroster, created, own, intent, ?_, hsession, ?_, hown, hintent, ?_⟩
  · exact htables _ _ ⟨⟨5, hverified⟩, hmembers.sound⟩ htakes
  · exact (hsessions created ⟨1⟩ 0 ⟨fun signed h => (hmembership signed h).sound, by simp [hnone],
      fun confirmed h => (hcertificate confirmed h).sound, by simp [hnoRoster],
      by simp [hnoHand]⟩).2
  · refine hticks _ _ _ ⟨fun ticket h => allDialable_relayed (htickets ticket h), ?_⟩
      (allDialable_relayed (by simp [hostTick]))
    intro advertisement h
    cases h

/-- A guest whose verified join intent has a relay address that does not end in
the guest's peer id. The host takes the intent, and its next tick fails with the
guest's membership pending; so does a tick of a pool that holds the ticket, which
stays in the directory. -/
theorem trailing_component_stops_tick :
    ∃ intent, guestIntent [[2, 0]] = .ok intent ∧
      intent.verifyAt .relayed plainEpoch = .ok () ∧
      isOk (directRoomRecipient .relayed intent.ticket.sessionPeerId
        intent.ticket.sessionAddresses) = false ∧
      (∃ created, hostSession = .ok created ∧
        ∃ (_ : Unit) (joined : Running), (handleMessage .relayed (plainIdentity 1) (some ⟨2⟩)
          (.joinIntent intent) plainEpoch 0).run created = .ok () joined ∧
        ∃ after, (tick .relayed (plainIdentity 1) [[1]] plainEpoch 0
          ⟨ofNat 1, ofNat 2⟩).run joined
            = .error (.context "牌桌共识参与者拨号地址无效"
              (.message "逐手玩家拨号地址没有绑定预期 PeerId")) after ∧
            after.active.pendingMembership.isSome = true) ∧
      ∃ own, hostTicket = .ok own ∧
        ∃ after, (tickPool .relayed ⟨⟨1⟩, fun _ => false⟩ hostTick).run
          (hostPool own intent.ticket)
            = .error (.message "公开池票据地址没有以会话 PeerId 结尾") after ∧
              after.tickets.size = 1 := by
  decide +kernel

end TokenHoldem
