import TokenHoldem.Network.HandRosterProtocol
import TokenHoldem.Network.TableAdvertisement
import TokenHoldem.Network.Validity

/-!
# Issuing and verifying signed documents

The eight kinds of documents that devices sign in the lobby and at a table. Each has an
`issue`, which takes the time, and a `verify_at`.

- **Completeness**: what has been issued verifies at the time it was issued. The windows of
  the document itself are open then, and the documents it embeds have been verified at
  that time by `issue`.
- **Intervals** (`Interval`): the times at which a document verifies have no gap. `verify_at`
  looks at the time only through windows (`InForce`) and, for an acceptance, through the
  time it was given.

`signed_documents_verify` states both for all kinds.
-/

namespace TokenHoldem

open Library List DeviceAttestation FixedBytes

variable {P : Primitives} {t now : UInt64}

/-! ## Intervals of time -/

/-- A check that passes at two times passes at all times between them. -/
def Interval (passes : UInt64 → Prop) : Prop :=
  ∀ a b now, passes a → passes b → a ≤ now → now ≤ b → passes now

theorem Interval.and {p q : UInt64 → Prop} (hp : Interval p) (hq : Interval q) :
    Interval fun now => p now ∧ q now :=
  fun a b now ha hb hle hge =>
    ⟨hp a b now ha.1 hb.1 hle hge, hq a b now ha.2 hb.2 hle hge⟩

/-- A check whose outcome, once it has passed, is that of a check of intervals. -/
theorem Interval.of_iff {passes body : UInt64 → Prop}
    (h : ∀ {t now}, passes t → (passes now ↔ body now)) (hbody : Interval body) :
    Interval passes := by
  intro a b now ha hb hle hge
  exact (h ha).mpr (hbody a b now ((h ha).mp ha) ((h ha).mp hb) hle hge)

theorem toNat_le_saturatingAdd (a b : UInt64) : a.toNat ≤ (saturatingAdd a b).toNat := by
  have := a.toNat_lt
  rw [toNat_saturatingAdd]
  omega

/-- A signed time is not in the future from some time on. -/
theorem interval_notFuture (timestamp : UInt64) :
    Interval fun now => isSignedTimeNotFuture timestamp now = true := by
  intro a b now ha _ hle _
  simp only [isSignedTimeNotFuture, decide_eq_true_eq, UInt64.le_iff_toNat_le,
    toNat_saturatingAdd] at ha hle ⊢
  omega

theorem interval_window (window : Window) :
    Interval fun now => isSignedTimeWindowActive window.1 window.2 now = true := by
  simp only [isSignedTimeWindowActive, Bool.and_eq_true]
  refine (interval_notFuture window.1).and ?_
  intro a b now _ hb _ hge
  simp only [isSignedTimeBeforeExpiry, decide_eq_true_eq, UInt64.lt_iff_toNat_lt,
    UInt64.le_iff_toNat_le] at hb hge ⊢
  omega

theorem interval_inForce (windows : List Window) : Interval (InForce windows) :=
  fun a b now ha hb hle hge window hwindow =>
    interval_window window a b now (ha window hwindow) (hb window hwindow) hle hge

variable {expiresAt : UInt64} {nonce : FixedBytes 16} {device : DeviceIdentity}
  {certificate : DeviceCertificate} {advertisement : TableAdvertisement} {tableId : TableId}
  {membershipVersion : UInt64} {signed : SignedMembershipProposal}
  {acceptance : MembershipAcceptance}

/-- The window of a document is open when the document is made. -/
theorem window_open_at_start {createdAt maximum : UInt64}
    (h : lifetimeWithin createdAt expiresAt maximum) :
    isSignedTimeWindowActive createdAt expiresAt createdAt = true := by
  have hstart := toNat_le_saturatingAdd createdAt maxSignedMessageClockSkewMs
  have hend := toNat_le_saturatingAdd expiresAt maxSignedMessageClockSkewMs
  have hlt := UInt64.lt_iff_toNat_lt.mp h.1
  simp only [isSignedTimeWindowActive, isSignedTimeNotFuture, isSignedTimeBeforeExpiry,
    Bool.and_eq_true, decide_eq_true_eq, UInt64.lt_iff_toNat_lt, UInt64.le_iff_toNat_le]
  exact ⟨hstart, by omega⟩

/-! ## Tickets, advertisements and intents -/

theorem PoolTicket.verifyAt_of_issue (law : P.SignaturesVerify) {sessionPeerId : Bytes}
    {sessionAddresses : List Bytes} {level : StakeLevel} {requestedBuyIn : Chips}
    {ticket : PoolTicket}
    (h : issue P sessionPeerId sessionAddresses level requestedBuyIn t expiresAt nonce device
      certificate = .ok ticket) : ticket.verifyAt P t = .ok () := by
  unfold issue at h
  obtain ⟨hfields, h⟩ := unit_bind_eq_ok.mp h
  obtain ⟨attestation, rfl, hattestation, rfl⟩ := verify_of_seal law h
  have hlifetime : lifetimeWithin t expiresAt maxTicketLifetimeMs := by
    unfold validateFields at hfields
    simp only [unit_bind_eq_ok, ensure_eq_ok] at hfields
    exact hfields.2.2.2
  unfold verifyAt
  simp only [unit_bind_eq_ok, ensure_eq_ok, mapError_eq_ok_iff]
  exact ⟨trivial, hfields, window_open_at_start hlifetime, ⟨trivial, trivial⟩, hattestation⟩

def TableAdvertisement.windows (advertisement : TableAdvertisement) : List Window :=
  [(advertisement.createdAtUnixMs, advertisement.expiresAtUnixMs)]
    ++ [advertisement.attestation.certificate.window]

theorem TableAdvertisement.verifyAt_iff (h : advertisement.verifyAt P t = .ok ()) :
    advertisement.verifyAt P now = .ok () ↔ InForce advertisement.windows now := by
  unfold verifyAt at h ⊢
  simp only [unit_bind_eq_ok, ensure_eq_ok, mapError_eq_ok_iff] at h ⊢
  obtain ⟨hversion, hfields, -, hidentity, hattestation⟩ := h
  rw [verify_iff hattestation, windows]
  simp only [inForce_append, inForce_singleton]
  tauto

theorem TableAdvertisement.verifyAt_of_issue (law : P.SignaturesVerify) {level : StakeLevel}
    {memberCount waitingCount : UInt8} {lifecycle : TableLifecycle} {membershipHash : Bytes32}
    {creatorPlayerId : PlayerId} {admissionPeerId : Bytes} {admissionAddresses : List Bytes}
    (h : issue P tableId level memberCount waitingCount lifecycle membershipVersion membershipHash
      creatorPlayerId admissionPeerId admissionAddresses t expiresAt nonce device certificate
        = .ok advertisement) : advertisement.verifyAt P t = .ok () := by
  unfold issue at h
  obtain ⟨hfields, h⟩ := unit_bind_eq_ok.mp h
  obtain ⟨attestation, rfl, hattestation, rfl⟩ := verify_of_seal law h
  have hlifetime : lifetimeWithin t expiresAt maxAdvertisementLifetimeMs := by
    unfold validateFields at hfields
    simp only [unit_bind_eq_ok, ensure_eq_ok] at hfields
    exact hfields.2.2.2.2
  unfold verifyAt
  simp only [unit_bind_eq_ok, ensure_eq_ok, mapError_eq_ok_iff]
  exact ⟨trivial, hfields, window_open_at_start hlifetime, ⟨trivial, trivial⟩, hattestation⟩

theorem JoinIntent.verifyAt_of_issue (law : P.SignaturesVerify) {ticket : PoolTicket}
    {intent : JoinIntent}
    (h : issue P tableId ticket t expiresAt nonce device certificate = .ok intent) :
    intent.verifyAt P t = .ok () := by
  unfold issue at h
  obtain ⟨hticket, h⟩ := unit_bind_eq_ok.mp h
  obtain ⟨hwindow, h⟩ := unit_bind_eq_ok.mp h
  obtain ⟨hsigner, h⟩ := ensure_bind_eq_ok.mp h
  obtain ⟨attestation, rfl, hattestation, rfl⟩ := verify_of_seal law h
  have hlifetime : lifetimeWithin t expiresAt maxIntentLifetimeMs := by
    unfold validateWindow at hwindow
    exact ensure_eq_ok.mp (unit_bind_eq_ok.mp hwindow).1
  unfold verifyAt
  simp only [unit_bind_eq_ok, ensure_eq_ok]
  refine ⟨trivial, hticket, hwindow, window_open_at_start hlifetime,
    ⟨hsigner.1.symm, hsigner.2.1.symm⟩, ?_⟩
  rw [mapError_eq_ok_iff]
  exact hattestation

theorem LeaveIntent.verifyAt_of_issue (law : P.SignaturesVerify) {afterHandNumber : Option UInt64}
    {intent : LeaveIntent}
    (h : issue P tableId afterHandNumber membershipVersion t expiresAt nonce device certificate
      = .ok intent) : intent.verifyAt P t = .ok () := by
  unfold issue at h
  obtain ⟨hfields, h⟩ := unit_bind_eq_ok.mp h
  obtain ⟨-, h⟩ := ensure_bind_eq_ok.mp h
  obtain ⟨attestation, rfl, hattestation, rfl⟩ := verify_of_seal law h
  have hlifetime : lifetimeWithin t expiresAt maxIntentLifetimeMs := by
    unfold validateFields at hfields
    exact ensure_eq_ok.mp (ensure_bind_eq_ok.mp hfields).2
  unfold verifyAt
  simp only [unit_bind_eq_ok, ensure_eq_ok, mapError_eq_ok_iff]
  exact ⟨trivial, hfields, window_open_at_start hlifetime, ⟨trivial, trivial⟩, hattestation⟩

/-! ## Acceptances of memberships -/

/-- A seated join intent has not run out when the membership verifies. -/
theorem SignedMembershipProposal.before_expiry_of_seatByClaimId {claimId : JoinClaimId}
    {seat : MembershipSeatClaim} (h : signed.verifyAt P now = .ok ())
    (found : signed.proposal.seatByClaimId P claimId = some seat) :
    isSignedTimeBeforeExpiry now seat.joinIntent.expiresAtUnixMs = true :=
  before_expiry h seat (mem_of_find?_eq_some found)

theorem isSignedTimeNotFuture_self (timestamp : UInt64) :
    isSignedTimeNotFuture timestamp timestamp = true := by
  rw [isSignedTimeNotFuture, decide_eq_true_eq, UInt64.le_iff_toNat_le]
  exact toNat_le_saturatingAdd timestamp _

theorem MembershipAcceptance.verifyAt_iff (h : verifyAt P signed t acceptance = .ok ()) :
    verifyAt P signed now acceptance = .ok () ↔
      InForce (signed.windows ++ [acceptance.attestation.certificate.window]) now ∧
        isSignedTimeNotFuture acceptance.acceptedAtUnixMs now = true := by
  unfold verifyAt at h ⊢
  simp only [unit_bind_eq_ok, ensure_eq_ok, okOr_bind_eq_ok, mapError_eq_ok_iff] at h ⊢
  obtain ⟨hversion, hsigned, hhash, seat, hseat, hidentity, htime, hattestation⟩ := h
  rw [SignedMembershipProposal.verifyAt_iff hsigned, verify_iff hattestation, inForce_append]
  constructor
  · rintro ⟨-, hwindows, -, _, -, -, hpast, hcertificate⟩
    exact ⟨⟨hwindows, hcertificate⟩, hpast.1⟩
  · rintro ⟨⟨hwindows, hcertificate⟩, hpast⟩
    exact ⟨hversion, hwindows, hhash, seat, hseat, hidentity, ⟨hpast, htime.2⟩, hcertificate⟩

theorem MembershipAcceptance.verifyAt_of_issue (law : P.SignaturesVerify) {claimId : JoinClaimId}
    (h : issue P signed claimId t device certificate = .ok acceptance) :
    verifyAt P signed t acceptance = .ok () := by
  unfold issue at h
  obtain ⟨hsigned, h⟩ := unit_bind_eq_ok.mp h
  obtain ⟨seat, hseat, h⟩ := okOr_bind_eq_ok.mp h
  obtain ⟨hsigner, h⟩ := ensure_bind_eq_ok.mp h
  obtain ⟨attestation, rfl, hattestation, rfl⟩ := verify_of_seal law h
  unfold verifyAt
  simp only [unit_bind_eq_ok, ensure_eq_ok, okOr_bind_eq_ok, mapError_eq_ok_iff]
  exact ⟨trivial, hsigned, trivial, seat, hseat, ⟨rfl, rfl, hsigner.1.symm, hsigner.2.1.symm⟩,
    ⟨isSignedTimeNotFuture_self t,
      SignedMembershipProposal.before_expiry_of_seatByClaimId hsigned hseat⟩, hattestation⟩

/-! ## Hand rosters -/

namespace SignedHandRosterProposal

def windows (signed : SignedHandRosterProposal) : List Window :=
  signed.membership.windows ++ [signed.attestation.certificate.window]

variable {signed : SignedHandRosterProposal}

theorem verifyAt_iff (h : signed.verifyAt P t = .ok ()) :
    signed.verifyAt P now = .ok () ↔ InForce signed.windows now := by
  unfold verifyAt at h ⊢
  simp only [unit_bind_eq_ok, ensure_eq_ok, okOr_bind_eq_ok, mapError_eq_ok_iff] at h ⊢
  obtain ⟨hversion, hmembership, hproposal, hclaim, seat, hseat, hidentity, hattestation⟩ := h
  rw [SignedMembershipProposal.verifyAt_iff hmembership,
    verify_iff hattestation, windows, inForce_append]
  constructor
  · rintro ⟨-, hwindows, -, -, _, -, -, hcertificate⟩
    exact ⟨hwindows, hcertificate⟩
  · rintro ⟨hwindows, hcertificate⟩
    exact ⟨hversion, hwindows, hproposal, hclaim, seat, hseat, hidentity, hcertificate⟩

theorem verifyAt_of_issue (law : P.SignaturesVerify) {proposal : HandRosterProposal}
    {membership : SignedMembershipProposal} {device : DeviceIdentity}
    {certificate : DeviceCertificate}
    (h : issue P proposal membership t device certificate = .ok signed) :
    signed.verifyAt P t = .ok () := by
  unfold issue at h
  obtain ⟨hmembership, h⟩ := unit_bind_eq_ok.mp h
  obtain ⟨hproposal, h⟩ := unit_bind_eq_ok.mp h
  obtain ⟨claimId, hclaim, h⟩ := okOr_bind_eq_ok.mp h
  obtain ⟨seat, hseat, h⟩ := okOr_bind_eq_ok.mp h
  obtain ⟨hsigner, h⟩ := ensure_bind_eq_ok.mp h
  obtain ⟨attestation, rfl, hattestation, rfl⟩ := verify_of_seal law h
  unfold verifyAt
  simp only [unit_bind_eq_ok, ensure_eq_ok, okOr_bind_eq_ok]
  refine ⟨trivial, hmembership, hproposal, hclaim, seat, hseat,
    ⟨hsigner.1.symm, hsigner.2.1.symm⟩, ?_⟩
  rw [mapError_eq_ok_iff]
  exact hattestation

/-- The strings whose digests name the claims of the members. -/
def claimStrings (P : Primitives) (signed : SignedHandRosterProposal) : List Bytes :=
  signed.membership.proposal.seats.flatMap fun seat =>
    [seat.joinIntent.ticket.canonicalUnsignedBytes, seat.joinIntent.canonicalUnsignedBytes P]

/-- The digest keeps the strings apart. -/
def ClaimsApart (P : Primitives) (signed : SignedHandRosterProposal) : Prop :=
  ∀ a ∈ signed.claimStrings P, ∀ b ∈ signed.claimStrings P, P.hash a = P.hash b → a = b

/-- Then no two members of a verified membership have one claim. -/
theorem ClaimsApart.seat_eq (apart : signed.ClaimsApart P)
    (verified : signed.verifyAt P now = .ok ()) {a b : MembershipSeatClaim}
    (ha : a ∈ signed.membership.proposal.seats) (hb : b ∈ signed.membership.proposal.seats)
    (same : a.joinIntent.claimId P = b.joinIntent.claimId P) : a = b := by
  have hstring : ∀ {seat : MembershipSeatClaim}, seat ∈ signed.membership.proposal.seats →
      seat.joinIntent.ticket.canonicalUnsignedBytes ∈ signed.claimStrings P ∧
        seat.joinIntent.canonicalUnsignedBytes P ∈ signed.claimStrings P := by
    intro seat hseat
    exact ⟨mem_flatMap.mpr ⟨seat, hseat, mem_cons_self⟩,
      mem_flatMap.mpr ⟨seat, hseat, mem_cons_of_mem _ mem_cons_self⟩⟩
  have hintent := apart _ (hstring ha).2 _ (hstring hb).2 (congrArg Identifier.bytes same)
  have hticket := apart _ (hstring ha).1 _ (hstring hb).1
    (congrArg Identifier.bytes (JoinIntent.ticketId_eq_of_canonicalUnsignedBytes hintent))
  have hdevice := PoolTicket.devicePublicKey_eq_of_canonicalUnsignedBytes hticket
  have hmembership := SignedMembershipProposal.verifyAt_eq_ok (coordinator_of_verifyAt verified).1
  obtain ⟨hordered, membership, hbuilt⟩ := MembershipProposal.validateContents_eq_ok
    (MembershipProposal.validateContents_of_verifyAt hmembership)
  rw [MembershipProposal.asMembership, mapError_eq_ok_iff] at hbuilt
  obtain ⟨-, -, hmembers, hvalid⟩ :=
    TableMembership.members_of_new hbuilt (pairwise_map.mpr hordered)
  have hdevices := (TableMembership.validate_eq_ok hvalid).2.1
  rw [hmembers, map_map] at hdevices
  exact inj_on_of_nodup_map hdevices ha hb hdevice

end SignedHandRosterProposal

namespace HandRosterAcceptance

variable {signed : SignedHandRosterProposal} {acceptance : HandRosterAcceptance}

theorem verifyAt_iff (h : verifyAt P signed t acceptance = .ok ()) :
    verifyAt P signed now acceptance = .ok () ↔
      InForce (signed.windows ++ [acceptance.attestation.certificate.window]) now ∧
        isSignedTimeNotFuture acceptance.acceptedAtUnixMs now = true := by
  unfold verifyAt at h ⊢
  simp only [unit_bind_eq_ok, ensure_eq_ok, okOr_bind_eq_ok] at h ⊢
  obtain ⟨hversion, hsigned, hhash, endpoint, hendpoint, h⟩ := h
  obtain ⟨intent, hintent, h⟩ := bind_eq_ok.mp h
  simp only [unit_bind_eq_ok, ensure_eq_ok, mapError_eq_ok_iff] at h
  obtain ⟨hplayer, hdevice, hcertificate, htime, hattestation⟩ := h
  rw [SignedHandRosterProposal.verifyAt_iff hsigned, inForce_append]
  constructor
  · rintro ⟨-, hwindows, -, _, -, h⟩
    obtain ⟨_, -, h⟩ := bind_eq_ok.mp h
    simp only [unit_bind_eq_ok, ensure_eq_ok, mapError_eq_ok_iff] at h
    obtain ⟨-, -, -, hpast, hverified⟩ := h
    exact ⟨⟨hwindows, (verify_iff hattestation).mp hverified⟩, hpast.1⟩
  · rintro ⟨⟨hwindows, hverified⟩, hpast⟩
    refine ⟨hversion, hwindows, hhash, endpoint, hendpoint, bind_eq_ok.mpr ⟨intent, hintent, ?_⟩⟩
    simp only [unit_bind_eq_ok, ensure_eq_ok, mapError_eq_ok_iff]
    exact ⟨hplayer, hdevice, hcertificate, ⟨hpast, htime.2⟩,
      (verify_iff hattestation).mpr hverified⟩

/-- The intent under the claim of an endpoint is that of the endpoint's player and device. -/
theorem endpoint_of_intentForEndpoint {endpoint : RosterEndpoint} {intent : JoinIntent}
    (verified : signed.verifyAt P now = .ok ()) (apart : signed.ClaimsApart P)
    (listed : endpoint ∈ signed.proposal.endpoints)
    (found : intentForEndpoint P signed endpoint = .ok intent) :
    endpoint.playerId = intent.playerId ∧ endpoint.devicePublicKey = intent.devicePublicKey ∧
      isSignedTimeBeforeExpiry now intent.expiresAtUnixMs = true := by
  rw [intentForEndpoint, okOr_eq_ok, Option.map_eq_some_iff] at found
  obtain ⟨claimed, hclaimed, rfl⟩ := found
  have hcontents := (HandRosterProposal.verify_eq_ok
    (SignedHandRosterProposal.verifyAt_eq_ok verified)).2.2
  obtain ⟨rosterSeat, seat, hof⟩ := HandRosterProposal.endpointOf_of_endpoint hcontents listed
  obtain ⟨hseat, hplayer⟩ := MembershipProposal.seatByPlayer_eq_some hof.found
  have hclaim : claimed.joinIntent.claimId P = endpoint.claimId := by
    simpa using find?_some hclaimed
  have hsame : claimed = seat := apart.seat_eq verified (mem_of_find?_eq_some hclaimed) hseat
    (hclaim.trans hof.claim)
  subst hsame
  exact ⟨hof.player.trans hplayer.symm, hof.device,
    SignedMembershipProposal.before_expiry_of_seatByClaimId
      (SignedHandRosterProposal.coordinator_of_verifyAt verified).1 hclaimed⟩

theorem verifyAt_of_issue (law : P.SignaturesVerify) (apart : signed.ClaimsApart P)
    {claimId : JoinClaimId} {device : DeviceIdentity} {certificate : DeviceCertificate}
    (h : issue P signed claimId t device certificate = .ok acceptance) :
    verifyAt P signed t acceptance = .ok () := by
  unfold issue at h
  obtain ⟨hsigned, h⟩ := unit_bind_eq_ok.mp h
  obtain ⟨endpoint, hendpoint, h⟩ := okOr_bind_eq_ok.mp h
  obtain ⟨intent, hintent, h⟩ := bind_eq_ok.mp h
  obtain ⟨hsigner, h⟩ := ensure_bind_eq_ok.mp h
  obtain ⟨attestation, rfl, hattestation, rfl⟩ := verify_of_seal law h
  obtain ⟨hplayer, hdevice, hexpiry⟩ := endpoint_of_intentForEndpoint hsigned apart
    (mem_of_find?_eq_some hendpoint) hintent
  unfold verifyAt
  simp only [unit_bind_eq_ok, ensure_eq_ok, okOr_bind_eq_ok]
  refine ⟨trivial, hsigned, trivial, endpoint, hendpoint, bind_eq_ok.mpr ⟨intent, hintent, ?_⟩⟩
  simp only [unit_bind_eq_ok, ensure_eq_ok, mapError_eq_ok_iff]
  exact ⟨trivial, trivial, ⟨(hplayer.trans hsigner.1).symm, (hdevice.trans hsigner.2.1).symm⟩,
    ⟨isSignedTimeNotFuture_self t, hexpiry⟩, hattestation⟩

end HandRosterAcceptance

/-! ## All kinds -/

/-- A signed document; an acceptance comes with the proposal it accepts. -/
inductive SignedDocument where
  | ticket (ticket : PoolTicket)
  | advertisement (advertisement : TableAdvertisement)
  | joinIntent (intent : JoinIntent)
  | leaveIntent (intent : LeaveIntent)
  | membershipProposal (signed : SignedMembershipProposal)
  | membershipAcceptance (signed : SignedMembershipProposal) (acceptance : MembershipAcceptance)
  | rosterProposal (signed : SignedHandRosterProposal)
  | rosterAcceptance (signed : SignedHandRosterProposal) (acceptance : HandRosterAcceptance)

namespace SignedDocument

/-- `verify_at` returns `Ok`. -/
def Verifies (P : Primitives) : SignedDocument → UInt64 → Prop
  | .ticket issued, now => issued.verifyAt P now = .ok ()
  | .advertisement issued, now => issued.verifyAt P now = .ok ()
  | .joinIntent intent, now => intent.verifyAt P now = .ok ()
  | .leaveIntent intent, now => intent.verifyAt P now = .ok ()
  | .membershipProposal signed, now => signed.verifyAt P now = .ok ()
  | .membershipAcceptance signed acceptance, now =>
    MembershipAcceptance.verifyAt P signed now acceptance = .ok ()
  | .rosterProposal signed, now => signed.verifyAt P now = .ok ()
  | .rosterAcceptance signed acceptance, now =>
    HandRosterAcceptance.verifyAt P signed now acceptance = .ok ()

/-- `issue` has returned the document at time `t`. -/
inductive Issued (P : Primitives) (t : UInt64) : SignedDocument → Prop
  | ticket {peerId : Bytes} {addresses : List Bytes} {level : StakeLevel} {buyIn : Chips}
      {expiresAt : UInt64} {nonce : FixedBytes 16} {device : DeviceIdentity}
      {certificate : DeviceCertificate} {ticket : PoolTicket}
      (h : PoolTicket.issue P peerId addresses level buyIn t expiresAt nonce device certificate
        = .ok ticket) : Issued P t (.ticket ticket)
  | advertisement {tableId : TableId} {level : StakeLevel} {memberCount waitingCount : UInt8}
      {lifecycle : TableLifecycle} {membershipVersion : UInt64} {membershipHash : Bytes32}
      {creatorPlayerId : PlayerId} {peerId : Bytes} {addresses : List Bytes} {expiresAt : UInt64}
      {nonce : FixedBytes 16} {device : DeviceIdentity} {certificate : DeviceCertificate}
      {advertisement : TableAdvertisement}
      (h : TableAdvertisement.issue P tableId level memberCount waitingCount lifecycle
        membershipVersion membershipHash creatorPlayerId peerId addresses t expiresAt nonce device
        certificate = .ok advertisement) : Issued P t (.advertisement advertisement)
  | joinIntent {tableId : TableId} {ticket : PoolTicket} {expiresAt : UInt64}
      {nonce : FixedBytes 16} {device : DeviceIdentity} {certificate : DeviceCertificate}
      {intent : JoinIntent}
      (h : JoinIntent.issue P tableId ticket t expiresAt nonce device certificate = .ok intent) :
      Issued P t (.joinIntent intent)
  | leaveIntent {tableId : TableId} {afterHandNumber : Option UInt64}
      {membershipVersion expiresAt : UInt64} {nonce : FixedBytes 16} {device : DeviceIdentity}
      {certificate : DeviceCertificate} {intent : LeaveIntent}
      (h : LeaveIntent.issue P tableId afterHandNumber membershipVersion t expiresAt nonce device
        certificate = .ok intent) : Issued P t (.leaveIntent intent)
  | membershipProposal {proposal : MembershipProposal} {device : DeviceIdentity}
      {certificate : DeviceCertificate} {signed : SignedMembershipProposal}
      (h : SignedMembershipProposal.issue P proposal t device certificate = .ok signed) :
      Issued P t (.membershipProposal signed)
  | membershipAcceptance {signed : SignedMembershipProposal} {claimId : JoinClaimId}
      {device : DeviceIdentity} {certificate : DeviceCertificate}
      {acceptance : MembershipAcceptance}
      (h : MembershipAcceptance.issue P signed claimId t device certificate = .ok acceptance) :
      Issued P t (.membershipAcceptance signed acceptance)
  | rosterProposal {proposal : HandRosterProposal} {membership : SignedMembershipProposal}
      {device : DeviceIdentity} {certificate : DeviceCertificate}
      {signed : SignedHandRosterProposal}
      (h : SignedHandRosterProposal.issue P proposal membership t device certificate
        = .ok signed) : Issued P t (.rosterProposal signed)
  | rosterAcceptance {signed : SignedHandRosterProposal} {claimId : JoinClaimId}
      {device : DeviceIdentity} {certificate : DeviceCertificate}
      {acceptance : HandRosterAcceptance}
      (h : HandRosterAcceptance.issue P signed claimId t device certificate = .ok acceptance) :
      Issued P t (.rosterAcceptance signed acceptance)

/-- The digest keeps the claims of the members apart, where an acceptance of a roster
looks a member up by its claim. -/
def ClaimsApart (P : Primitives) : SignedDocument → Prop
  | .rosterAcceptance signed _ => signed.ClaimsApart P
  | _ => True

theorem interval_verifies (document : SignedDocument) : Interval (document.Verifies P) := by
  cases document with
  | ticket ticket =>
    exact .of_iff PoolTicket.verifyAt_iff (interval_inForce ticket.windows)
  | advertisement advertisement =>
    exact .of_iff TableAdvertisement.verifyAt_iff (interval_inForce advertisement.windows)
  | joinIntent intent =>
    exact .of_iff JoinIntent.verifyAt_iff (interval_inForce intent.windows)
  | leaveIntent intent =>
    exact .of_iff LeaveIntent.verifyAt_iff (interval_inForce intent.windows)
  | membershipProposal signed =>
    exact .of_iff SignedMembershipProposal.verifyAt_iff (interval_inForce signed.windows)
  | membershipAcceptance signed acceptance =>
    exact .of_iff MembershipAcceptance.verifyAt_iff
      ((interval_inForce _).and (interval_notFuture acceptance.acceptedAtUnixMs))
  | rosterProposal signed =>
    exact .of_iff SignedHandRosterProposal.verifyAt_iff (interval_inForce signed.windows)
  | rosterAcceptance signed acceptance =>
    exact .of_iff HandRosterAcceptance.verifyAt_iff
      ((interval_inForce _).and (interval_notFuture acceptance.acceptedAtUnixMs))

/-- A document verifies when it is issued, and the times at which it verifies are an
interval: what has stopped verifying never verifies again. -/
theorem signed_documents_verify (law : P.SignaturesVerify) :
    (∀ (t : UInt64) (document : SignedDocument), Issued P t document → document.ClaimsApart P →
      document.Verifies P t) ∧
    ∀ document : SignedDocument, Interval (document.Verifies P) := by
  refine ⟨fun t document hissued happart => ?_, interval_verifies⟩
  cases hissued with
  | ticket h => exact PoolTicket.verifyAt_of_issue law h
  | advertisement h => exact TableAdvertisement.verifyAt_of_issue law h
  | joinIntent h => exact JoinIntent.verifyAt_of_issue law h
  | leaveIntent h => exact LeaveIntent.verifyAt_of_issue law h
  | membershipProposal h => exact SignedMembershipProposal.verifyAt_of_issue law h
  | membershipAcceptance h => exact MembershipAcceptance.verifyAt_of_issue law h
  | rosterProposal h => exact SignedHandRosterProposal.verifyAt_of_issue law h
  | rosterAcceptance h => exact HandRosterAcceptance.verifyAt_of_issue law happart h

/-- Two players join a table, and the first one proposes them as its members and as the
roster of the first hand; with the claim and the certificate of the second. -/
def pairRoster (P : Primitives) :
    Option (SignedHandRosterProposal × JoinClaimId × DeviceCertificate) := do
  let tableId : TableId := ⟨ofNat 7⟩
  let device (k : Nat) : DeviceIdentity := ⟨ofNat k⟩
  let sit (k : Nat) : Option (DeviceCertificate × JoinIntent) := do
    let certificate ← (RootIdentity.issueDeviceCertificate P ⟨ofNat (100 + k)⟩
      ((device k).publicKey P) "device" 1 1000).toOption
    let ticket ← (PoolTicket.issue P [UInt8.ofNat k] [[UInt8.ofNat k]] oneTwoLevel
      (chips 40) 5 100 (ofNat 0) (device k) certificate).toOption
    let intent ← (JoinIntent.issue P tableId ticket 5 100 (ofNat 0) (device k)
      certificate).toOption
    return (certificate, intent)
  let (host, first) ← sit 1
  let (guest, second) ← sit 2
  let proposal ← (MembershipProposal.assemble P tableId oneTwoLevel 1 none
    [⟨⟨1⟩, first⟩, ⟨⟨2⟩, second⟩] [] [] 5).toOption
  let membership ← (SignedMembershipProposal.issue P proposal 5 (device 1) host).toOption
  let members ← (proposal.asMembership P).toOption
  let ready ← (ReadyHandRoster.fromMembership P members 1 none none).toOption
  let roster ← (HandRosterProposal.assemble P ready membership 5).toOption
  let signed ← (SignedHandRosterProposal.issue P roster membership 5 (device 1) host).toOption
  return (signed, second.claimId P, guest)

/-- The second player accepts the roster. -/
theorem signed_documents_verify_roster :
    ∃ signed claimId certificate acceptance,
      pairRoster .plain = some (signed, claimId, certificate) ∧ signed.ClaimsApart .plain ∧
      HandRosterAcceptance.issue .plain signed claimId 6 ⟨ofNat 2⟩ certificate = .ok acceptance ∧
      HandRosterAcceptance.verifyAt .plain signed 6 acceptance = .ok () := by
  have hissued : ∃ roster ∈ pairRoster .plain,
      (∀ a ∈ roster.1.claimStrings .plain, ∀ b ∈ roster.1.claimStrings .plain,
        Primitives.plain.hash a = Primitives.plain.hash b → a = b) ∧
      ∃ acceptance, HandRosterAcceptance.issue .plain roster.1 roster.2.1 6 ⟨ofNat 2⟩ roster.2.2
        = .ok acceptance ∧ True := by
    decide +kernel
  obtain ⟨⟨signed, claimId, certificate⟩, hroster, happart, acceptance, hissued, -⟩ := hissued
  exact ⟨signed, claimId, certificate, acceptance, hroster, happart, hissued,
    (signed_documents_verify Primitives.plain_signaturesVerify).1 6
      (.rosterAcceptance signed acceptance) (.rosterAcceptance hissued) happart⟩

end SignedDocument

end TokenHoldem
