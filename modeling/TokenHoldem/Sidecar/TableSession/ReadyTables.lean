import TokenHoldem.Domain.Start
import TokenHoldem.Sidecar.TableSession.Dialling

/-!
# The table handed to the hand

`ready_table_from_proposal` puts a table together from three lists: the seats of the
roster, in the order of their indices, the seats of the membership, found by player,
and the endpoints in the members' tickets. A verified roster is only checked piece by
piece, in two crates.

- `ReadyTable.Aligned`: the lists of the table belong together, place by place;
- `aligned_of_readyTable`, `startChecks_of_readyTable`: what is handed over is aligned,
  and the hand of the domain can start with it;
- `ready_table_fits_iff`: something is handed over exactly when every member can be
  dialled.
-/

namespace TokenHoldem

open Library HoldemHand List HandRosterSeat

variable {P : Primitives}

/-- The five lists of a table have one length, and what they hold at one place is of
one claim of the membership. -/
structure ReadyTable.Aligned (P : Primitives) (membership : MembershipProposal)
    (table : ReadyTable) : Prop where
  peerIds_length : table.peerIds.length = table.players.length
  devicePublicKeys_length : table.devicePublicKeys.length = table.players.length
  buyIns_length : table.buyIns.length = table.players.length
  physicalSeats_length : table.physicalSeats.length = table.players.length
  claim : ∀ i < table.players.length, ∃ seat ∈ membership.seats,
    table.players[i]? = some seat.joinIntent.playerId ∧
      table.peerIds[i]? = P.peerIdFromBytes seat.joinIntent.ticket.sessionPeerId ∧
      table.devicePublicKeys[i]? = some seat.joinIntent.devicePublicKey ∧
      table.buyIns[i]? = some seat.joinIntent.ticket.requestedBuyIn ∧
      table.physicalSeats[i]? = some seat.physicalSeat.value

/-- A table that is aligned, knows the local player and the dealer, and can be played
if its level is one of the levels that can be built. -/
structure ReadyTable.Fits (P : Primitives) (signed : SignedHandRosterProposal)
    (localPlayer : PlayerId) (table : ReadyTable) : Prop where
  aligned : table.Aligned P signed.membership.proposal
  localSeat : table.players[table.localSeat]? = some localPlayer
  dealer : ∃ seat ∈ signed.membership.proposal.seats,
    seat.physicalSeat = signed.proposal.readyRoster.dealerSeat ∧
      table.players[table.dealerIndex]? = some seat.joinIntent.playerId
  level : table.level = signed.membership.proposal.level
  starts : ∀ level : BuiltLevel, level.toStakeLevel = table.level →
    ∃ hand, start table.level (table.players.zip table.buyIns) table.dealerIndex = .ok hand

/-! ## What is handed over -/

theorem readyPeer_eq_ok {membership : MembershipProposal} {rosterSeat : HandRosterSeat}
    {peer : PeerId × List Multiaddr} (h : readyPeer P membership rosterSeat = .ok peer)
    {seat : MembershipSeatClaim} (found : membership.seatByPlayer rosterSeat.playerId = some seat) :
    P.peerIdFromBytes seat.joinIntent.ticket.sessionPeerId = some peer.1 := by
  obtain ⟨claim, hclaim, h⟩ := okOr_bind_eq_ok.mp h
  rw [found] at hclaim
  cases hclaim
  obtain ⟨peerId, hpeerId, h⟩ := okOr_bind_eq_ok.mp h
  obtain ⟨addresses, -, h⟩ := bind_eq_ok.mp h
  obtain ⟨address, -, h⟩ := okOr_bind_eq_ok.mp h
  cases h
  exact hpeerId

/-- The members' tickets ask for an amount that their level allows at a table for two
to six. -/
theorem PoolTicket.buyIn_of_verifyAt {ticket : PoolTicket} {now : UInt64}
    (h : ticket.verifyAt P now = .ok ()) :
    ticket.level.minimumPlayers = 2 ∧ ticket.level.maximumPlayers = 6 ∧
      ticket.level.minimumBuyIn ≤ ticket.requestedBuyIn ∧
      ticket.requestedBuyIn ≤ ticket.level.maximumBuyIn := by
  unfold verifyAt validateFields at h
  simp only [unit_bind_eq_ok, ensure_eq_ok] at h
  obtain ⟨-, ⟨-, ⟨hminimum, hmaximum⟩, hbuyIn, -⟩, -⟩ := h
  exact ⟨hminimum, hmaximum, hbuyIn⟩

namespace SignedHandRosterProposal

variable {signed : SignedHandRosterProposal} {now : UInt64} {player : PlayerId}
  {table : ReadyTable}

/-- The fields of the table are read off the seats of the roster in their order. -/
theorem readyTable_eq_ok (h : readyTableFromProposal P signed player = .ok table) :
    signed.orderedSeats.findIdx? (fun seat => seat.playerId = player) = some table.localSeat ∧
      signed.orderedSeats.findIdx? (fun seat =>
        seat.physicalSeat = signed.proposal.readyRoster.dealerSeat) = some table.dealerIndex ∧
      (∃ peers, signed.orderedSeats.mapM (readyPeer P signed.membership.proposal) = .ok peers ∧
        table.peerIds = peers.map Prod.fst) ∧ table.level = signed.membership.proposal.level ∧
      table.players = signed.orderedSeats.map playerId ∧
      table.devicePublicKeys = signed.orderedSeats.map devicePublicKey ∧
      table.buyIns = signed.orderedSeats.map buyIn ∧
      table.physicalSeats = signed.orderedSeats.map fun seat => seat.physicalSeat.value := by
  obtain ⟨localSeat, hlocal, h⟩ := okOr_bind_eq_ok.mp h
  obtain ⟨dealerIndex, hdealer, h⟩ := okOr_bind_eq_ok.mp h
  obtain ⟨peers, hpeers, h⟩ := bind_eq_ok.mp h
  cases h
  exact ⟨hlocal, hdealer, ⟨peers, hpeers, rfl⟩, rfl, rfl, rfl, rfl, rfl⟩

/-- The place that a search for a seat finds. -/
theorem getElem?_of_findIdx? {seats : List HandRosterSeat} {p : HandRosterSeat → Bool} {i : Nat}
    (h : seats.findIdx? p = some i) : ∃ seat ∈ seats, seats[i]? = some seat ∧ p seat = true := by
  obtain ⟨hi, hp, -⟩ := findIdx?_eq_some_iff_getElem.mp h
  exact ⟨seats[i], getElem_mem hi, getElem?_eq_getElem hi, hp⟩

variable (verified : signed.verifyAt P now = .ok ())

include verified

variable {rosterSeat : HandRosterSeat}

/-- The claim of the player on a seat of the roster. -/
theorem claim_of_orderedSeat (hseat : rosterSeat ∈ signed.orderedSeats) :
    ∃ seat ∈ signed.membership.proposal.seats,
      signed.membership.proposal.seatByPlayer rosterSeat.playerId = some seat ∧
        rosterSeat.playerId = seat.joinIntent.playerId ∧
        rosterSeat.devicePublicKey = seat.joinIntent.devicePublicKey ∧
        rosterSeat.buyIn = seat.joinIntent.ticket.requestedBuyIn ∧
        rosterSeat.physicalSeat = seat.physicalSeat := by
  have hfrozen := HandRosterProposal.validateRosterMembership_eq_ok
    (HandRosterProposal.validateContents_membership (contents_of_verifyAt verified).2).1
  obtain ⟨seat, hfound, hphysical, hdevice, hbuyIn⟩ :=
    hfrozen.2.2.2 rosterSeat (mem_sortByKey.mp hseat)
  obtain ⟨hmem, hplayer⟩ := MembershipProposal.seatByPlayer_eq_some hfound
  exact ⟨seat, hmem, hfound, hplayer.symm, hdevice, hbuyIn, hphysical⟩

theorem aligned_of_readyTable (h : readyTableFromProposal P signed player = .ok table) :
    table.Aligned P signed.membership.proposal := by
  obtain ⟨-, -, ⟨peers, hpeers, hpeerIds⟩, -, hplayers, hdevices, hbuyIns, hphysicals⟩ :=
    readyTable_eq_ok h
  have hpaired := forall₂_of_mapM_eq_ok hpeers
  refine ⟨?_, ?_, ?_, ?_, fun i hi => ?_⟩
  · rw [hpeerIds, hplayers, length_map, length_map, hpaired.length_eq]
  · rw [hdevices, hplayers, length_map, length_map]
  · rw [hbuyIns, hplayers, length_map, length_map]
  · rw [hphysicals, hplayers, length_map, length_map]
  · -- one seat of the roster gives all five entries at `i`, and its player gives the claim
    rw [hplayers, length_map] at hi
    obtain ⟨seat, hmem, hfound, hplayer, hdevice, hbuyIn, hphysical⟩ :=
      claim_of_orderedSeat verified (getElem_mem hi)
    have hi' : i < peers.length := hpaired.length_eq ▸ hi
    have hpeer := readyPeer_eq_ok (forall₂_iff_get.mp hpaired |>.2 i hi hi') hfound
    refine ⟨seat, hmem, ?_, ?_, ?_, ?_, ?_⟩
    · rw [hplayers, getElem?_map, getElem?_eq_getElem hi, Option.map_some, hplayer]
    · rw [hpeerIds, getElem?_map, getElem?_eq_getElem hi', hpeer]
      rfl
    · rw [hdevices, getElem?_map, getElem?_eq_getElem hi, Option.map_some, hdevice]
    · rw [hbuyIns, getElem?_map, getElem?_eq_getElem hi, Option.map_some, hbuyIn]
    · rw [hphysicals, getElem?_map, getElem?_eq_getElem hi, Option.map_some, hphysical]

/-- The members' tickets are for the level of the membership. -/
theorem buyIn_of_orderedSeat (hseat : rosterSeat ∈ signed.orderedSeats) :
    signed.membership.proposal.level.minimumPlayers = 2 ∧
      signed.membership.proposal.level.maximumPlayers = 6 ∧
      signed.membership.proposal.level.minimumBuyIn ≤ rosterSeat.buyIn ∧
      rosterSeat.buyIn ≤ signed.membership.proposal.level.maximumBuyIn := by
  obtain ⟨seat, hmem, -, -, -, hbuyIn, -⟩ := claim_of_orderedSeat verified hseat
  obtain ⟨hintent, -, hlevel⟩ := MembershipProposal.validateContents_intents
    (membershipContents_of_verifyAt verified) (mem_append_left _ (mem_map_of_mem hmem))
  rw [hbuyIn, ← hlevel]
  exact PoolTicket.buyIn_of_verifyAt (JoinIntent.ticket_of_verifyAt hintent)

/-- The checks of `HoldemHand::start` hold of what is handed over. -/
theorem startChecks_of_readyTable (h : readyTableFromProposal P signed player = .ok table) :
    StartChecks table.level (table.players.zip table.buyIns) table.dealerIndex := by
  obtain ⟨-, hdealer, -, hlevel, hplayers, -, hbuyIns, -⟩ := readyTable_eq_ok h
  have hvalid := (contents_of_verifyAt verified).1
  have hperm : signed.orderedSeats.Perm signed.proposal.readyRoster.seats :=
    sortByKey_perm _ _
  have hcount := ReadyHandRoster.count_of_validate hvalid
  obtain ⟨hdealerLt, -, -⟩ := findIdx?_eq_some_iff_getElem.mp hdealer
  have hzip : table.players.zip table.buyIns
      = signed.orderedSeats.map fun seat => (seat.playerId, seat.buyIn) := by
    rw [hplayers, hbuyIns, zip_map']
  obtain ⟨hminimum, hmaximum, -⟩ := buyIn_of_orderedSeat verified (getElem_mem hdealerLt)
  rw [hlevel, hzip]
  refine ⟨?_, ?_, ?_, ?_, ?_, ?_⟩
  · rw [hminimum, length_map, hperm.length_eq]
    exact hcount.1
  · rw [hmaximum, length_map, hperm.length_eq]
    exact hcount.2
  · rwa [length_map]
  · rw [map_map]
    exact (hperm.map _).nodup_iff.mpr (ReadyHandRoster.nodup_players_of_validate hvalid)
  · intro entry hentry
    obtain ⟨seat, hseat, rfl⟩ := mem_map.mp hentry
    exact (buyIn_of_orderedSeat verified hseat).2.2.1
  · intro entry hentry
    obtain ⟨seat, hseat, rfl⟩ := mem_map.mp hentry
    exact (buyIn_of_orderedSeat verified hseat).2.2.2

theorem fits_of_readyTable (h : readyTableFromProposal P signed player = .ok table) :
    table.Fits P signed player := by
  obtain ⟨hlocal, hdealer, -, hlevel, hplayers, -⟩ := readyTable_eq_ok h
  refine ⟨aligned_of_readyTable verified h, ?_, ?_, hlevel, ?_⟩
  · obtain ⟨rosterSeat, -, hat, hplayer⟩ := getElem?_of_findIdx? hlocal
    rw [hplayers, getElem?_map, hat, Option.map_some, of_decide_eq_true hplayer]
  · obtain ⟨rosterSeat, hmem, hat, hphysical⟩ := getElem?_of_findIdx? hdealer
    obtain ⟨seat, hseat, -, hplayer, -, -, hsame⟩ := claim_of_orderedSeat verified hmem
    refine ⟨seat, hseat, hsame.symm.trans (of_decide_eq_true hphysical), ?_⟩
    rw [hplayers, getElem?_map, hat, Option.map_some, hplayer]
  · intro level hbuilt
    have hchecks := startChecks_of_readyTable verified h
    rw [← hbuilt] at hchecks ⊢
    exact start_isOk_iff.mpr hchecks

/-! ## When something is handed over -/

/-- A player of a verified roster is handed a table that fits exactly when every
address of every member ends in the member's peer, after some transport. -/
theorem ready_table_fits_iff
    (takesPart : player ∈ signed.proposal.readyRoster.seats.map playerId) :
    (∃ table, readyTableFromProposal P signed player = .ok table ∧ table.Fits P signed player) ↔
      ∀ seat ∈ signed.membership.proposal.seats,
        AllDialable P seat.joinIntent.ticket.sessionAddresses := by
  have hready := readyTable_isOk_iff verified takesPart
  obtain ⟨hvalid, hcontents⟩ := contents_of_verifyAt verified
  have hmembership := membershipContents_of_verifyAt verified
  constructor
  · rintro ⟨table, htable, -⟩ seat hseat
    -- the roster freezes all members, so this one has a seat in it
    obtain ⟨rosterSeat, hrosterSeat, hplayer⟩ := HandRosterProposal.exists_rosterSeat hvalid
      (HandRosterProposal.validateContents_membership hcontents).1 hseat
    obtain ⟨found, hmem, hfound, hdialable⟩ := readyPeer_isOk_iff verified hrosterSeat
    have hsame : found = seat :=
      MembershipProposal.validateContents_seats hmembership hmem hseat
        (.inr ((MembershipProposal.seatByPlayer_eq_some hfound).2.trans hplayer))
    rw [← hsame]
    exact hdialable.mp (hready.mp (isOk_eq_true.mpr ⟨table, htable⟩) rosterSeat hrosterSeat)
  · intro dialable
    have hpeers : ∀ rosterSeat ∈ signed.proposal.readyRoster.seats,
        isOk (readyPeer P signed.membership.proposal rosterSeat) = true := by
      intro rosterSeat hrosterSeat
      obtain ⟨seat, hmem, -, hdialable⟩ := readyPeer_isOk_iff verified hrosterSeat
      exact hdialable.mpr (dialable seat hmem)
    obtain ⟨table, htable⟩ := isOk_eq_true.mp (hready.mpr hpeers)
    exact ⟨table, htable, fits_of_readyTable verified htable⟩

end SignedHandRosterProposal

/-! ## A member behind a relay -/

/-- The first two peers agree on a membership, and the first proposes their hand. The
second has the given addresses. -/
def guestRoster (addresses : List Bytes) : Except SessionError SignedHandRosterProposal := do
  let host := Room.plainIdentity 1
  let ticket ← hostTicket
  let own ← issueJoinIntent .relayed Room.plainRoom.tableId ticket host Room.plainEpoch
    (FixedBytes.ofNat 0)
  let guest ← guestIntent addresses
  let proposal ← (MembershipProposal.assemble .relayed Room.plainRoom.tableId Room.plainRoom.level 1
    none [⟨⟨1⟩, own⟩, ⟨⟨2⟩, guest⟩] [] [] Room.plainEpoch).mapError .session
  let membership ← (SignedMembershipProposal.issue .relayed proposal Room.plainEpoch host.device
    host.certificate).mapError .session
  let table ← (proposal.asMembership .relayed).mapError .session
  let roster ← (ReadyHandRoster.fromMembership .relayed table 1 none none).mapError .handRoster
  let frozen ← (HandRosterProposal.assemble .relayed roster membership Room.plainEpoch).mapError
    .roster
  (SignedHandRosterProposal.issue .relayed frozen membership Room.plainEpoch host.device
    host.certificate).mapError .roster

theorem ready_table_fits_direct :
    ∃ signed, guestRoster [[2]] = .ok signed ∧
      signed.verifyAt .relayed Room.plainEpoch = .ok () ∧
      ∃ table, readyTableFromProposal .relayed signed (Room.plainIdentity 1).certificate.playerId
        = .ok table ∧ table.Fits .relayed signed (Room.plainIdentity 1).certificate.playerId := by
  obtain ⟨signed, hsigned, hverified, htakesPart, hdialable⟩ :
      ∃ signed, guestRoster [[2]] = .ok signed ∧
        signed.verifyAt .relayed Room.plainEpoch = .ok () ∧
        (Room.plainIdentity 1).certificate.playerId
          ∈ signed.proposal.readyRoster.seats.map playerId ∧
        ∀ seat ∈ signed.membership.proposal.seats,
          AllDialable .relayed seat.joinIntent.ticket.sessionAddresses := by
    decide +kernel
  exact ⟨signed, hsigned, hverified,
    (SignedHandRosterProposal.ready_table_fits_iff hverified htakesPart).mpr hdialable⟩

/-- With one member whose verified address goes on after the peer, the roster of the
hand verifies and nobody gets a table. -/
theorem relayed_member_bars_table :
    ∃ signed, guestRoster [[2, 0]] = .ok signed ∧
      signed.verifyAt .relayed Room.plainEpoch = .ok () ∧
      (Room.plainIdentity 1).certificate.playerId
        ∈ signed.proposal.readyRoster.seats.map playerId ∧
      readyTableFromProposal .relayed signed (Room.plainIdentity 1).certificate.playerId
        = .error (.message "逐手玩家拨号地址没有绑定预期 PeerId") := by
  decide +kernel

end TokenHoldem
