import TokenHoldem.Network.TableSession

/-!
# Membership proposals and acceptances

The second half of `token-holdem-network/src/table_session.rs`. A membership is
confirmed once every player it seats has signed an acceptance of it.

- `MembershipProposal.verifyAt_eq_ok`: a verified proposal carries its own hash;
- `MembershipAcceptance.verifyAt_eq_ok`: a verified acceptance is signed by the
  device of the seat it names;
- `verifyMembershipAcceptances_eq_ok`: a full set of acceptances has one for
  every seat.
-/

namespace TokenHoldem

open Library List

structure MembershipSeatClaim where
  physicalSeat : PhysicalSeat
  joinIntent : JoinIntent
deriving DecidableEq

def MembershipSeatClaim.asMember (seat : MembershipSeatClaim) : TableMember :=
  { playerId := seat.joinIntent.playerId, devicePublicKey := seat.joinIntent.devicePublicKey,
    buyIn := seat.joinIntent.ticket.requestedBuyIn, physicalSeat := seat.physicalSeat }

structure MembershipProposal where
  version : UInt8
  tableId : TableId
  level : StakeLevel
  membershipVersion : UInt64
  previousMembershipHash : Option Bytes32
  seats : List MembershipSeatClaim
  waiting : List JoinIntent
  leaveIntents : List LeaveIntent
  proposalHash : Bytes32
deriving DecidableEq

def membershipProposalDomain : Bytes := textBytes "token-holdem/membership-proposal/v1\x00"

namespace MembershipProposal

def seatByPlayer (proposal : MembershipProposal) (playerId : PlayerId) :
    Option MembershipSeatClaim :=
  proposal.seats.find? fun seat => seat.joinIntent.playerId = playerId

variable {proposal : MembershipProposal} {seat : MembershipSeatClaim} {now : UInt64}

theorem seatByPlayer_eq_some {playerId : PlayerId}
    (h : proposal.seatByPlayer playerId = some seat) :
    seat ∈ proposal.seats ∧ seat.joinIntent.playerId = playerId := by
  unfold seatByPlayer at h
  exact ⟨mem_of_find?_eq_some h, by simpa using find?_some h⟩

variable (P : Primitives)

def coordinatorClaimId (proposal : MembershipProposal) : Option JoinClaimId :=
  (proposal.seats.argmin MembershipSeatClaim.physicalSeat).map fun seat =>
    seat.joinIntent.claimId P

def seatByClaimId (proposal : MembershipProposal) (claimId : JoinClaimId) :
    Option MembershipSeatClaim :=
  proposal.seats.find? fun seat => seat.joinIntent.claimId P = claimId

def asMembership (proposal : MembershipProposal) :
    Except TableSessionProtocolError TableMembership :=
  (TableMembership.new proposal.tableId proposal.membershipVersion
    (proposal.seats.map MembershipSeatClaim.asMember)
    (proposal.waiting.map (JoinIntent.asCandidate P))).mapError .membership

def validateJoinIntent (proposal : MembershipProposal) (now : UInt64) (intent : JoinIntent) :
    Except TableSessionProtocolError Unit := do
  intent.verifyAt P now
  ensure (intent.tableId = proposal.tableId) .wrongTable
  ensure (intent.level = proposal.level) .wrongStakeLevel

/-- The loop of `validate_contents` over the leave intents. -/
def validateLeaveIntents (proposal : MembershipProposal) (now : UInt64) :
    List PlayerId → List LeaveIntent → Except TableSessionProtocolError Unit
  | _, [] => .ok ()
  | leaving, intent :: intents => do
    intent.verifyAt P now
    ensure (intent.tableId = proposal.tableId) .wrongTable
    ensure (intent.playerId ∉ leaving) .duplicateLeaveIntent
    validateLeaveIntents proposal now (intent.playerId :: leaving) intents

def validateContents (proposal : MembershipProposal) (now : UInt64) :
    Except TableSessionProtocolError Unit := do
  ensure (proposal.membershipVersion ≠ 0) .invalidMembershipVersion
  ensure (proposal.seats ≠ [] ∧ proposal.seats.length ≤ tableCapacity)
    (.invalidMembershipSize proposal.seats.length)
  ensure (proposal.waiting.length ≤ waitingCapacity) .waitingListFull
  ensure (proposal.leaveIntents.length ≤ tableCapacity + waitingCapacity) .tooManyLeaveIntents
  ensure (increasing MembershipSeatClaim.physicalSeat proposal.seats ∧
    increasing (JoinIntent.claimId P) proposal.waiting ∧
    increasing (LeaveIntent.id P) proposal.leaveIntents) .nonCanonicalOrdering
  checkAll (fun seat => proposal.validateJoinIntent P now seat.joinIntent) proposal.seats
  checkAll (proposal.validateJoinIntent P now) proposal.waiting
  proposal.validateLeaveIntents P now [] proposal.leaveIntents
  let _ ← proposal.asMembership P
  return ()

def canonicalUnsignedBytes (proposal : MembershipProposal) : Bytes :=
  membershipProposalDomain ++ [proposal.version] ++ proposal.tableId.asBytes
    ++ levelBytes proposal.level ++ u64Bytes proposal.membershipVersion
    ++ optionalHashBytes proposal.previousMembershipHash
    ++ [UInt8.ofNat proposal.seats.length]
    ++ proposal.seats.flatMap (fun seat =>
      seat.physicalSeat.value :: (seat.joinIntent.claimId P).asBytes)
    ++ [UInt8.ofNat proposal.waiting.length]
    ++ proposal.waiting.flatMap (fun intent => (intent.claimId P).asBytes)
    ++ [UInt8.ofNat proposal.leaveIntents.length]
    ++ proposal.leaveIntents.flatMap (fun intent => (intent.id P).asBytes)

def assemble (tableId : TableId) (level : StakeLevel) (membershipVersion : UInt64)
    (previousMembershipHash : Option Bytes32) (seats : List MembershipSeatClaim)
    (waiting : List JoinIntent) (leaveIntents : List LeaveIntent) (now : UInt64) :
    Except TableSessionProtocolError MembershipProposal := do
  let proposal : MembershipProposal :=
    { version := 1, tableId, level, membershipVersion, previousMembershipHash,
      seats := sortByKey MembershipSeatClaim.physicalSeat seats,
      waiting := sortByKey (JoinIntent.claimId P) waiting,
      leaveIntents := sortByKey (LeaveIntent.id P) leaveIntents,
      proposalHash := FixedBytes.ofNat 0 }
  proposal.validateContents P now
  return { proposal with proposalHash := P.hash (proposal.canonicalUnsignedBytes P) }

def verifyAt (proposal : MembershipProposal) (now : UInt64) :
    Except TableSessionProtocolError Unit := do
  ensure (proposal.version = 1) (.unsupportedMembershipProposalVersion proposal.version)
  proposal.validateContents P now
  ensure (P.hash (proposal.canonicalUnsignedBytes P) = proposal.proposalHash)
    .membershipProposalHashMismatch

variable {P}

/-- At one level, the canonical bytes determine the version. -/
theorem membershipVersion_eq_of_canonicalUnsignedBytes {a b : MembershipProposal}
    (level : a.level = b.level) (h : a.canonicalUnsignedBytes P = b.canonicalUnsignedBytes P) :
    a.membershipVersion = b.membershipVersion := by
  simp only [canonicalUnsignedBytes, append_assoc, level] at h
  obtain ⟨-, h⟩ := append_inj h rfl
  obtain ⟨-, h⟩ := append_inj h rfl
  obtain ⟨-, h⟩ := append_inj h (by simp)
  obtain ⟨-, h⟩ := append_inj h rfl
  exact u64Bytes_inj (append_inj h (by simp)).1

theorem verifyAt_eq_ok (h : proposal.verifyAt P now = .ok ()) :
    P.hash (proposal.canonicalUnsignedBytes P) = proposal.proposalHash := by
  unfold verifyAt at h
  obtain ⟨-, h⟩ := ensure_bind_eq_ok.mp h
  obtain ⟨-, h⟩ := unit_bind_eq_ok.mp h
  exact ensure_eq_ok.mp h

theorem validateContents_of_verifyAt (h : proposal.verifyAt P now = .ok ()) :
    proposal.validateContents P now = .ok () := by
  unfold verifyAt at h
  obtain ⟨-, h⟩ := ensure_bind_eq_ok.mp h
  exact (unit_bind_eq_ok.mp h).1

theorem assemble_eq_ok {tableId : TableId} {level : StakeLevel} {membershipVersion : UInt64}
    {previousMembershipHash : Option Bytes32} {seats : List MembershipSeatClaim}
    {waiting : List JoinIntent} {leaveIntents : List LeaveIntent}
    (h : assemble P tableId level membershipVersion previousMembershipHash seats
      waiting leaveIntents
      now = .ok proposal) : proposal.tableId = tableId ∧ proposal.level = level ∧
      proposal.membershipVersion = membershipVersion ∧
      proposal.previousMembershipHash = previousMembershipHash ∧
      proposal.seats = sortByKey MembershipSeatClaim.physicalSeat seats ∧
      proposal.leaveIntents = sortByKey (LeaveIntent.id P) leaveIntents := by
  unfold assemble at h
  cases (unit_bind_eq_ok.mp h).2
  exact ⟨rfl, rfl, rfl, rfl, rfl, rfl⟩

section

variable (h : proposal.validateContents P now = .ok ())

include h

/-- Everybody a valid proposal seats or lets wait has a valid join intent for its
table and its level. -/
theorem validateContents_intents {intent : JoinIntent}
    (hintent : intent ∈ proposal.seats.map MembershipSeatClaim.joinIntent ++ proposal.waiting) :
    intent.verifyAt P now = .ok () ∧ intent.tableId = proposal.tableId ∧
      intent.level = proposal.level := by
  unfold validateContents at h
  simp only [unit_bind_eq_ok, ensure_eq_ok, checkAll_eq_ok] at h
  obtain ⟨-, -, -, -, -, hseats, hwaiting, -⟩ := h
  have hvalid : proposal.validateJoinIntent P now intent = .ok () := by
    rcases mem_append.mp hintent with hmem | hmem
    · obtain ⟨seat, hseat, rfl⟩ := mem_map.mp hmem
      exact hseats seat hseat
    · exact hwaiting intent hmem
  unfold validateJoinIntent at hvalid
  simpa only [unit_bind_eq_ok, ensure_eq_ok] using hvalid

/-- Valid contents list the seats in their order, and form a membership. -/
theorem validateContents_eq_ok :
    (proposal.seats.Pairwise fun a b => a.physicalSeat < b.physicalSeat) ∧
      ∃ membership, proposal.asMembership P = .ok membership := by
  unfold validateContents at h
  simp only [unit_bind_eq_ok, ensure_eq_ok] at h
  obtain ⟨-, -, -, -, ⟨hincreasing, -, -⟩, -, -, -, h⟩ := h
  obtain ⟨membership, hmembership, -⟩ := bind_eq_ok.mp h
  exact ⟨increasing_iff.mp hincreasing, membership, hmembership⟩

/-- Valid contents list the waiting intents in the order of their claims. -/
theorem validateContents_waiting :
    proposal.waiting.Pairwise fun a b => a.claimId P < b.claimId P := by
  unfold validateContents at h
  simp only [unit_bind_eq_ok, ensure_eq_ok] at h
  obtain ⟨-, -, -, -, ⟨-, hincreasing, -⟩, -⟩ := h
  exact increasing_iff.mp hincreasing

/-- Valid contents seat no player and no physical seat twice. -/
theorem validateContents_seats {a b : MembershipSeatClaim} (ha : a ∈ proposal.seats)
    (hb : b ∈ proposal.seats)
    (same : a.physicalSeat = b.physicalSeat ∨ a.joinIntent.playerId = b.joinIntent.playerId) :
    a = b := by
  obtain ⟨hordered, membership, hmembership⟩ := validateContents_eq_ok h
  rw [asMembership, mapError_eq_ok_iff] at hmembership
  have hseats : (proposal.seats.map MembershipSeatClaim.physicalSeat).Nodup := by
    rw [nodup_iff_pairwise_ne, pairwise_map]
    exact hordered.imp ne_of_lt
  have hseat : a.physicalSeat = b.physicalSeat := by
    rcases same with hseat | hplayer
    · exact hseat
    · have := TableMembership.new_eq_ok hmembership (mem_map_of_mem ha) (mem_map_of_mem hb) hplayer
      exact congrArg TableMember.physicalSeat this
  exact inj_on_of_nodup_map hseats ha hb hseat

/-- The lowest seat is the first one, so it is also found by its claim. -/
theorem seatByClaimId_coordinatorClaimId {claimId : JoinClaimId}
    (lowest : proposal.coordinatorClaimId P = some claimId)
    (found : proposal.seatByClaimId P claimId = some seat) :
    seat ∈ proposal.seats ∧ ∀ other ∈ proposal.seats, seat.physicalSeat ≤ other.physicalSeat := by
  refine ⟨mem_of_find?_eq_some found, ?_⟩
  obtain ⟨least, hleast, hid⟩ := Option.map_eq_some_iff.mp lowest
  have hordered := (validateContents_eq_ok h).1
  have hmem : least ∈ proposal.seats := argmin_mem hleast
  unfold seatByClaimId at found
  cases hseats : proposal.seats with
  | nil => simp [hseats] at hmem
  | cons first rest =>
    rw [hseats, pairwise_cons] at hordered
    have hfirst : ∀ other ∈ first :: rest, first.physicalSeat ≤ other.physicalSeat :=
      forall_mem_cons.mpr ⟨le_rfl, fun other hother => (hordered.1 other hother).le⟩
    have heq : least = first := by
      refine validateContents_seats h hmem (hseats ▸ mem_cons_self) (.inl ?_)
      exact le_antisymm (le_of_mem_argmin (hseats ▸ mem_cons_self) hleast)
        (hfirst least (hseats ▸ hmem))
    rw [hseats, find?_cons_of_pos (by simp [← hid, heq])] at found
    rw [← Option.some.inj found]
    exact hfirst

end

end MembershipProposal

/-! ## Signed proposals -/

structure SignedMembershipProposal where
  version : UInt8
  proposal : MembershipProposal
  coordinatorClaimId : JoinClaimId
  attestation : DeviceAttestation
deriving DecidableEq

def canonicalSignedMembershipBytes (version : UInt8) (proposalHash : Bytes32)
    (coordinatorClaimId : JoinClaimId) : Bytes :=
  membershipProposalDomain ++ [version] ++ proposalHash.toBytes ++ coordinatorClaimId.asBytes

namespace SignedMembershipProposal

variable (P : Primitives)

def issue (proposal : MembershipProposal) (now : UInt64) (device : DeviceIdentity)
    (certificate : DeviceCertificate) :
    Except TableSessionProtocolError SignedMembershipProposal := do
  proposal.verifyAt P now
  let coordinatorClaimId ← okOr .missingCoordinator (proposal.coordinatorClaimId P)
  let coordinator ← okOr .missingCoordinator (proposal.seatByClaimId P coordinatorClaimId)
  ensure (coordinator.joinIntent.validateSigner P device certificate) .unauthorizedCoordinator
  let attestation ← (DeviceAttestation.issue P membershipProposalDomain
    (canonicalSignedMembershipBytes 1 proposal.proposalHash coordinatorClaimId) now device
    certificate).mapError .attestation
  return { version := 1, proposal, coordinatorClaimId, attestation }

def verifyAt (signed : SignedMembershipProposal) (now : UInt64) :
    Except TableSessionProtocolError Unit := do
  ensure (signed.version = 1) (.unsupportedSignedMembershipProposalVersion signed.version)
  signed.proposal.verifyAt P now
  ensure (signed.proposal.coordinatorClaimId P = some signed.coordinatorClaimId)
    .unauthorizedCoordinator
  let coordinator ← okOr .missingCoordinator
    (signed.proposal.seatByClaimId P signed.coordinatorClaimId)
  ensure (signed.attestation.certificate.playerId = coordinator.joinIntent.playerId ∧
    signed.attestation.certificate.devicePublicKey = coordinator.joinIntent.devicePublicKey)
    .unauthorizedCoordinator
  (signed.attestation.verify P membershipProposalDomain
    (canonicalSignedMembershipBytes signed.version signed.proposal.proposalHash
      signed.coordinatorClaimId) now).mapError .attestation

variable {P}

variable {now : UInt64} {signed : SignedMembershipProposal}

theorem issue_eq_ok {proposal : MembershipProposal} {device : DeviceIdentity}
    {certificate : DeviceCertificate} (h : issue P proposal now device certificate = .ok signed) :
    signed.proposal = proposal := by
  unfold issue at h
  obtain ⟨-, h⟩ := unit_bind_eq_ok.mp h
  obtain ⟨claimId, -, h⟩ := okOr_bind_eq_ok.mp h
  obtain ⟨coordinator, -, h⟩ := okOr_bind_eq_ok.mp h
  obtain ⟨-, h⟩ := ensure_bind_eq_ok.mp h
  obtain ⟨attestation, -, h⟩ := bind_eq_ok.mp h
  cases h
  rfl

theorem verifyAt_eq_ok (h : signed.verifyAt P now = .ok ()) :
    signed.proposal.verifyAt P now = .ok () := by
  unfold verifyAt at h
  obtain ⟨-, h⟩ := ensure_bind_eq_ok.mp h
  exact (unit_bind_eq_ok.mp h).1

/-- A verified proposal names the seat of its coordinator. -/
theorem coordinator_of_verifyAt (h : signed.verifyAt P now = .ok ()) :
    signed.proposal.coordinatorClaimId P = some signed.coordinatorClaimId ∧
      ∃ seat, signed.proposal.seatByClaimId P signed.coordinatorClaimId = some seat := by
  unfold verifyAt at h
  obtain ⟨-, h⟩ := ensure_bind_eq_ok.mp h
  obtain ⟨-, h⟩ := unit_bind_eq_ok.mp h
  obtain ⟨hclaim, h⟩ := ensure_bind_eq_ok.mp h
  obtain ⟨seat, hseat, -⟩ := okOr_bind_eq_ok.mp h
  exact ⟨hclaim, seat, hseat⟩

end SignedMembershipProposal

/-! ## Acceptances

Memberships and hand rosters are accepted with documents of one shape that
differ in their domain. -/

/-- What an acceptance accepts. -/
inductive Ballot where
  | membership
  | roster

/-- `MEMBERSHIP_ACCEPTANCE_DOMAIN` and `HAND_ROSTER_ACCEPTANCE_DOMAIN`. -/
def Ballot.domain : Ballot → Bytes
  | .membership => textBytes "token-holdem/membership-acceptance/v1\x00"
  | .roster => textBytes "token-holdem/hand-roster-acceptance/v1\x00"

structure Acceptance (ballot : Ballot) where
  version : UInt8
  proposalHash : Bytes32
  claimId : JoinClaimId
  playerId : PlayerId
  devicePublicKey : DevicePublicKey
  acceptedAtUnixMs : UInt64
  attestation : DeviceAttestation

abbrev MembershipAcceptance := Acceptance .membership
abbrev HandRosterAcceptance := Acceptance .roster

namespace Acceptance

variable {ballot : Ballot}

/-- `canonical_membership_acceptance_bytes` and `canonical_roster_acceptance_bytes`. -/
def canonicalBytes (acceptance : Acceptance ballot) : Bytes :=
  ballot.domain ++ [acceptance.version] ++ acceptance.proposalHash.toBytes
    ++ acceptance.claimId.asBytes ++ acceptance.playerId.asBytes
    ++ acceptance.devicePublicKey.asBytes ++ u64Bytes acceptance.acceptedAtUnixMs

/-- The canonical bytes determine the accepted proposal. -/
theorem proposalHash_eq_of_canonicalBytes {a b : Acceptance ballot}
    (h : a.canonicalBytes = b.canonicalBytes) : a.proposalHash = b.proposalHash := by
  unfold canonicalBytes at h
  obtain ⟨h, -⟩ := append_inj' h (by simp)
  obtain ⟨h, -⟩ := append_inj' h (by simp)
  obtain ⟨h, -⟩ := append_inj' h (by simp)
  obtain ⟨h, -⟩ := append_inj' h (by simp)
  exact FixedBytes.toBytes_injective (append_inj' h (by simp)).2

variable (P : Primitives)

variable (acceptance : Acceptance ballot)

/-- The bytes a device signs to issue an acceptance. -/
def signedBytes : Bytes :=
  canonicalSigningBytes ballot.domain (P.hash acceptance.canonicalBytes)

/-- Whether the device key of the attestation signed this acceptance. -/
def SignatureHolds : Prop :=
  P.verifies acceptance.attestation.certificate.devicePublicKey.bytes (acceptance.signedBytes P)
    acceptance.attestation.signature = true

/-- The loop of `verify_membership_acceptances` and `verify_hand_roster_acceptances`
over the acceptances: each is verified and names a claim of its own. -/
def observeClaims {ε : Type} (verify : Acceptance ballot → Except ε Unit) (duplicate : ε) :
    List JoinClaimId → List (Acceptance ballot) → Except ε (List JoinClaimId)
  | observed, [] => .ok observed
  | observed, acceptance :: acceptances => do
    verify acceptance
    ensure (acceptance.claimId ∉ observed) duplicate
    observeClaims verify duplicate (acceptance.claimId :: observed) acceptances

/-- The body shared by `verify_membership_acceptances` and
`verify_hand_roster_acceptances`: the claims observed are exactly the expected ones. -/
def verifyComplete {ε : Type} (verify : Acceptance ballot → Except ε Unit)
    (duplicate incomplete : ε) (expected : List JoinClaimId)
    (acceptances : List (Acceptance ballot)) : Except ε Unit := do
  let observed ← observeClaims verify duplicate [] acceptances
  ensure ((∀ claim ∈ observed, claim ∈ expected) ∧ ∀ claim ∈ expected, claim ∈ observed)
    incomplete

variable {P}

variable {acceptances : List (Acceptance ballot)}

theorem observeClaims_eq_ok {ε : Type} {verify : Acceptance ballot → Except ε Unit} {duplicate : ε}
    {observed result : List JoinClaimId}
    (h : observeClaims verify duplicate observed acceptances = .ok result) :
    (∀ a ∈ acceptances, verify a = .ok ()) ∧
      ∀ claim, claim ∈ result ↔ claim ∈ observed ∨ ∃ a ∈ acceptances, a.claimId = claim := by
  induction acceptances generalizing observed with
  | nil =>
    cases h
    simp
  | cons a rest ih =>
    rw [observeClaims] at h
    obtain ⟨ha, h⟩ := unit_bind_eq_ok.mp h
    obtain ⟨-, h⟩ := ensure_bind_eq_ok.mp h
    obtain ⟨hrest, hresult⟩ := ih h
    refine ⟨forall_mem_cons.mpr ⟨ha, hrest⟩, fun claim => ?_⟩
    rw [hresult claim]
    grind

/-- A full set of acceptances: every one verifies and every expected claim has one. -/
theorem verifyComplete_eq_ok {ε : Type} {verify : Acceptance ballot → Except ε Unit}
    {duplicate incomplete : ε} {expected : List JoinClaimId}
    (h : verifyComplete verify duplicate incomplete expected acceptances = .ok ()) :
    (∀ a ∈ acceptances, verify a = .ok ()) ∧
      ∀ claim ∈ expected, ∃ a ∈ acceptances, a.claimId = claim := by
  unfold verifyComplete at h
  obtain ⟨observed, hobserved, h⟩ := bind_eq_ok.mp h
  obtain ⟨hverified, hclaims⟩ := observeClaims_eq_ok hobserved
  obtain ⟨-, hcomplete⟩ := ensure_eq_ok.mp h
  refine ⟨hverified, fun claim hclaim => ?_⟩
  simpa using (hclaims claim).mp (hcomplete claim hclaim)

end Acceptance

namespace MembershipAcceptance

variable (P : Primitives)

def issue (signed : SignedMembershipProposal) (claimId : JoinClaimId) (acceptedAtUnixMs : UInt64)
    (device : DeviceIdentity) (certificate : DeviceCertificate) :
    Except TableSessionProtocolError MembershipAcceptance := do
  signed.verifyAt P acceptedAtUnixMs
  let seat ← okOr (.claimNotInMembership claimId) (signed.proposal.seatByClaimId P claimId)
  ensure (seat.joinIntent.validateSigner P device certificate) .acceptanceIdentityMismatch
  let unsigned : MembershipAcceptance :=
    { version := 1, proposalHash := signed.proposal.proposalHash, claimId,
      playerId := seat.joinIntent.playerId, devicePublicKey := seat.joinIntent.devicePublicKey,
      acceptedAtUnixMs, attestation := ⟨certificate, FixedBytes.ofNat 0, FixedBytes.ofNat 0⟩ }
  let attestation ← (DeviceAttestation.issue P (Ballot.domain .membership) unsigned.canonicalBytes
    acceptedAtUnixMs device certificate).mapError .attestation
  return { unsigned with attestation }

def verifyAt (signed : SignedMembershipProposal) (now : UInt64)
    (acceptance : MembershipAcceptance) : Except TableSessionProtocolError Unit := do
  ensure (acceptance.version = 1) (.unsupportedMembershipAcceptanceVersion acceptance.version)
  signed.verifyAt P now
  ensure (acceptance.proposalHash = signed.proposal.proposalHash) .acceptanceProposalMismatch
  let seat ← okOr (.claimNotInMembership acceptance.claimId)
    (signed.proposal.seatByClaimId P acceptance.claimId)
  ensure (acceptance.playerId = seat.joinIntent.playerId ∧
    acceptance.devicePublicKey = seat.joinIntent.devicePublicKey ∧
    acceptance.attestation.certificate.playerId = acceptance.playerId ∧
    acceptance.attestation.certificate.devicePublicKey = acceptance.devicePublicKey)
    .acceptanceIdentityMismatch
  ensure (isSignedTimeNotFuture acceptance.acceptedAtUnixMs now ∧
    isSignedTimeBeforeExpiry acceptance.acceptedAtUnixMs seat.joinIntent.expiresAtUnixMs)
    .acceptanceOutsideValidityWindow
  (acceptance.attestation.verify P (Ballot.domain .membership) acceptance.canonicalBytes
    now).mapError .attestation

variable {P}

variable {signed : SignedMembershipProposal} {acceptance : MembershipAcceptance}

theorem issue_eq_ok {claimId : JoinClaimId} {now : UInt64} {device : DeviceIdentity}
    {certificate : DeviceCertificate}
    (h : issue P signed claimId now device certificate = .ok acceptance) :
    signed.verifyAt P now = .ok () ∧ acceptance.proposalHash = signed.proposal.proposalHash ∧
      acceptance.attestation.certificate.devicePublicKey = device.publicKey P := by
  unfold issue at h
  obtain ⟨hsigned, h⟩ := unit_bind_eq_ok.mp h
  obtain ⟨seat, -, h⟩ := okOr_bind_eq_ok.mp h
  obtain ⟨-, h⟩ := ensure_bind_eq_ok.mp h
  obtain ⟨attestation, hissued, h⟩ := bind_eq_ok.mp h
  rw [mapError_eq_ok_iff] at hissued
  obtain ⟨hkey, rfl⟩ := DeviceAttestation.issue_eq_ok hissued
  cases h
  exact ⟨hsigned, rfl, hkey⟩

/-- A verified acceptance names a seat of the proposal and carries a signature
of that seat's device. -/
theorem verifyAt_eq_ok {now : UInt64} (h : verifyAt P signed now acceptance = .ok ()) :
    acceptance.proposalHash = signed.proposal.proposalHash ∧ acceptance.SignatureHolds P ∧
      ∃ seat ∈ signed.proposal.seats, seat.joinIntent.claimId P = acceptance.claimId ∧
        acceptance.attestation.certificate.devicePublicKey = seat.joinIntent.devicePublicKey := by
  unfold verifyAt at h
  obtain ⟨-, h⟩ := ensure_bind_eq_ok.mp h
  obtain ⟨-, h⟩ := unit_bind_eq_ok.mp h
  obtain ⟨hhash, h⟩ := ensure_bind_eq_ok.mp h
  obtain ⟨seat, hseat, h⟩ := okOr_bind_eq_ok.mp h
  obtain ⟨⟨-, hdevice, -, hcertificate⟩, h⟩ := ensure_bind_eq_ok.mp h
  obtain ⟨-, h⟩ := ensure_bind_eq_ok.mp h
  rw [mapError_eq_ok_iff] at h
  refine ⟨hhash, (DeviceAttestation.verify_eq_ok h).2, seat, mem_of_find?_eq_some hseat, ?_,
    hcertificate.trans hdevice⟩
  simpa using find?_some hseat

end MembershipAcceptance

def verifyMembershipAcceptances (P : Primitives) (signed : SignedMembershipProposal)
    (acceptances : List MembershipAcceptance) (now : UInt64) :
    Except TableSessionProtocolError Unit := do
  signed.verifyAt P now
  Acceptance.verifyComplete (MembershipAcceptance.verifyAt P signed now) .duplicateAcceptance
    .incompleteAcceptances (signed.proposal.seats.map fun seat => seat.joinIntent.claimId P)
    acceptances

theorem verifyMembershipAcceptances_eq_ok {P : Primitives} {signed : SignedMembershipProposal}
    {acceptances : List MembershipAcceptance} {now : UInt64}
    (h : verifyMembershipAcceptances P signed acceptances now = .ok ()) :
    signed.verifyAt P now = .ok () ∧
      (∀ a ∈ acceptances, MembershipAcceptance.verifyAt P signed now a = .ok ()) ∧
      ∀ seat ∈ signed.proposal.seats, ∃ a ∈ acceptances, a.claimId = seat.joinIntent.claimId P := by
  unfold verifyMembershipAcceptances at h
  obtain ⟨hsigned, h⟩ := unit_bind_eq_ok.mp h
  obtain ⟨hverified, hcomplete⟩ := Acceptance.verifyComplete_eq_ok h
  exact ⟨hsigned, hverified, fun seat hseat => hcomplete _ (mem_map_of_mem hseat)⟩

end TokenHoldem
