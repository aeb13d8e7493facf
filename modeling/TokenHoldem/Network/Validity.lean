import TokenHoldem.Network.MembershipProposal

/-!
# Documents and the time

A signed document is verified at some time, and its checks look at that time
only through validity windows: of the document, of the documents it embeds and
of the certificates that signed them. `windows` collects them. A document that
was verified once is verified at another time exactly when all its windows are
open then (`verifyAt_iff`).
-/

namespace TokenHoldem

open Library DeviceAttestation

/-- From when and until when a document is valid. -/
abbrev Window := UInt64 × UInt64

/-- All windows are open, up to the clock skew. -/
def InForce (windows : List Window) (now : UInt64) : Prop :=
  ∀ window ∈ windows, isSignedTimeWindowActive window.1 window.2 now = true

instance instDecidableInForce (windows : List Window) (now : UInt64) :
    Decidable (InForce windows now) :=
  List.decidableBAll
    (fun window : Window => isSignedTimeWindowActive window.1 window.2 now = true) windows

@[simp] theorem inForce_append {a b : List Window} {now : UInt64} :
    InForce (a ++ b) now ↔ InForce a now ∧ InForce b now :=
  List.forall_mem_append

@[simp] theorem inForce_singleton {window : Window} {now : UInt64} :
    InForce [window] now ↔ isSignedTimeWindowActive window.1 window.2 now = true := by
  simp [InForce]

@[simp] theorem inForce_flatMap {α : Type} {items : List α} {windows : α → List Window}
    {now : UInt64} :
    InForce (items.flatMap windows) now ↔ ∀ item ∈ items, InForce (windows item) now := by
  simp only [InForce, List.mem_flatMap]
  exact ⟨fun h item hitem window hwindow => h window ⟨item, hitem, hwindow⟩,
    fun h window ⟨item, hitem, hwindow⟩ => h item hitem window hwindow⟩

def DeviceCertificate.window (certificate : DeviceCertificate) : Window :=
  (certificate.issuedAtUnixMs, certificate.expiresAtUnixMs)

def PoolTicket.windows (ticket : PoolTicket) : List Window :=
  [(ticket.createdAtUnixMs, ticket.expiresAtUnixMs)] ++ [ticket.attestation.certificate.window]

def JoinIntent.windows (intent : JoinIntent) : List Window :=
  intent.ticket.windows ++ [(intent.createdAtUnixMs, intent.expiresAtUnixMs)]
    ++ [intent.attestation.certificate.window]

def LeaveIntent.windows (intent : LeaveIntent) : List Window :=
  [(intent.createdAtUnixMs, intent.expiresAtUnixMs)] ++ [intent.attestation.certificate.window]

def MembershipProposal.windows (proposal : MembershipProposal) : List Window :=
  proposal.seats.flatMap (fun seat => seat.joinIntent.windows)
    ++ proposal.waiting.flatMap JoinIntent.windows
    ++ proposal.leaveIntents.flatMap LeaveIntent.windows

def SignedMembershipProposal.windows (signed : SignedMembershipProposal) : List Window :=
  signed.proposal.windows ++ [signed.attestation.certificate.window]

variable {P : Primitives} {t now : UInt64}

/-! ## Certificates, tickets and intents -/

variable {certificate : DeviceCertificate} {attestation : DeviceAttestation}

theorem DeviceCertificate.verifyAt_iff (h : certificate.verifyAt P t = .ok ()) :
    certificate.verifyAt P now = .ok () ↔ InForce [certificate.window] now := by
  unfold verifyAt at h ⊢
  simp only [unit_bind_eq_ok, ensure_eq_ok] at h ⊢
  obtain ⟨hversion, hkey, hplayer, hsignature, -⟩ := h
  simp only [hversion, hkey, hplayer, hsignature, true_and, inForce_singleton, window]

theorem DeviceAttestation.verify_iff {domain payload : Bytes}
    (h : attestation.verify P domain payload t = .ok ()) :
    attestation.verify P domain payload now = .ok () ↔
      InForce [attestation.certificate.window] now := by
  unfold verify at h ⊢
  simp only [unit_bind_eq_ok, ensure_eq_ok, mapError_eq_ok_iff] at h ⊢
  obtain ⟨hcertificate, hhash, hsignature⟩ := h
  rw [DeviceCertificate.verifyAt_iff hcertificate]
  simp only [hhash, hsignature, and_true]

theorem PoolTicket.verifyAt_iff {ticket : PoolTicket} (h : ticket.verifyAt P t = .ok ()) :
    ticket.verifyAt P now = .ok () ↔ InForce ticket.windows now := by
  unfold verifyAt at h ⊢
  simp only [unit_bind_eq_ok, ensure_eq_ok, mapError_eq_ok_iff] at h ⊢
  obtain ⟨hversion, hfields, -, hidentity, hattestation⟩ := h
  rw [verify_iff hattestation, windows]
  simp only [inForce_append, inForce_singleton]
  tauto

theorem JoinIntent.verifyAt_iff {intent : JoinIntent} (h : intent.verifyAt P t = .ok ()) :
    intent.verifyAt P now = .ok () ↔ InForce intent.windows now := by
  unfold verifyAt at h ⊢
  simp only [unit_bind_eq_ok, ensure_eq_ok, mapError_eq_ok_iff] at h ⊢
  obtain ⟨hversion, hticket, hwindow, -, hidentity, hattestation⟩ := h
  rw [PoolTicket.verifyAt_iff hticket, verify_iff hattestation, windows]
  simp only [inForce_append, inForce_singleton]
  tauto

theorem LeaveIntent.verifyAt_iff {intent : LeaveIntent} (h : intent.verifyAt P t = .ok ()) :
    intent.verifyAt P now = .ok () ↔ InForce intent.windows now := by
  unfold verifyAt at h ⊢
  simp only [unit_bind_eq_ok, ensure_eq_ok, mapError_eq_ok_iff] at h ⊢
  obtain ⟨hversion, hfields, -, hidentity, hattestation⟩ := h
  rw [verify_iff hattestation, windows]
  simp only [inForce_append, inForce_singleton]
  tauto

/-- A join intent that verifies has not run out. -/
theorem JoinIntent.before_expiry {intent : JoinIntent} (h : intent.verifyAt P now = .ok ()) :
    isSignedTimeBeforeExpiry now intent.expiresAtUnixMs = true := by
  have hwindows := (verifyAt_iff h).mp h
  simp only [windows, inForce_append, inForce_singleton, isSignedTimeWindowActive,
    Bool.and_eq_true] at hwindows
  exact hwindows.1.2.2

/-- An attestation verifies right when it is issued. -/
theorem DeviceAttestation.verify_of_issue (law : P.SignaturesVerify) {domain payload : Bytes}
    {device : DeviceIdentity}
    (h : issue P domain payload now device certificate = .ok attestation) :
    attestation.verify P domain payload now = .ok () := by
  obtain ⟨hkey, hattestation⟩ := issue_eq_ok h
  unfold issue at h
  obtain ⟨hcertificate, -⟩ := unit_bind_eq_ok.mp h
  subst hattestation
  obtain ⟨hvalid, hsignature⟩ := law device.seed (canonicalSigningBytes domain (P.hash payload))
  have hbytes : certificate.devicePublicKey.bytes = P.verifyingKey device.seed := by
    rw [hkey]
    rfl
  unfold verify DeviceCertificate.verifyDeviceSignature
  simp only [unit_bind_eq_ok, ensure_eq_ok, mapError_eq_ok_iff, hbytes] at hcertificate ⊢
  exact ⟨hcertificate, trivial, hvalid, hsignature⟩

/-- A document is sealed with an attestation that verifies. -/
theorem DeviceAttestation.verify_of_seal (law : P.SignaturesVerify) {ε α : Type}
    {wrap : DeviceAttestationError → ε} {make : DeviceAttestation → α} {domain payload : Bytes}
    {device : DeviceIdentity} {document : α}
    (h : ((issue P domain payload now device certificate).mapError wrap >>= fun attestation =>
      pure (make attestation)) = .ok document) :
    ∃ attestation : DeviceAttestation, attestation.certificate = certificate ∧
      attestation.verify P domain payload now = .ok () ∧ make attestation = document := by
  obtain ⟨attestation, hissued, h⟩ := bind_eq_ok.mp h
  rw [mapError_eq_ok_iff] at hissued
  have hattestation := verify_of_issue law hissued
  obtain ⟨-, rfl⟩ := issue_eq_ok hissued
  exact ⟨_, rfl, hattestation, Except.ok.inj h⟩

/-! ## Proposals -/

namespace MembershipProposal

variable {proposal : MembershipProposal}

theorem validateJoinIntent_iff {intent : JoinIntent}
    (h : proposal.validateJoinIntent P t intent = .ok ()) :
    proposal.validateJoinIntent P now intent = .ok () ↔ InForce intent.windows now := by
  unfold validateJoinIntent at h ⊢
  simp only [unit_bind_eq_ok, ensure_eq_ok] at h ⊢
  obtain ⟨hintent, htable, hlevel⟩ := h
  rw [JoinIntent.verifyAt_iff hintent]
  simp only [htable, hlevel, and_true]

theorem validateLeaveIntents_iff {leaving : List PlayerId} {intents : List LeaveIntent}
    (h : proposal.validateLeaveIntents P t leaving intents = .ok ()) :
    proposal.validateLeaveIntents P now leaving intents = .ok () ↔
      ∀ intent ∈ intents, InForce intent.windows now := by
  induction intents generalizing leaving with
  | nil => simp [validateLeaveIntents]
  | cons intent intents ih =>
    rw [validateLeaveIntents, unit_bind_eq_ok, ensure_bind_eq_ok, ensure_bind_eq_ok] at h ⊢
    obtain ⟨hintent, htable, hfresh, hrest⟩ := h
    rw [LeaveIntent.verifyAt_iff hintent, ih hrest, List.forall_mem_cons]
    tauto

/-- What the contents of a proposal are checked for besides the documents in it. -/
theorem validateContents_iff (h : proposal.validateContents P t = .ok ()) :
    proposal.validateContents P now = .ok () ↔ InForce proposal.windows now := by
  unfold validateContents at h ⊢
  simp only [unit_bind_eq_ok, ensure_eq_ok, checkAll_eq_ok] at h ⊢
  obtain ⟨hversion, hseats, hwaiting, hleaves, hordered, hseated, hqueued, hleaving, hrest⟩ := h
  rw [validateLeaveIntents_iff hleaving, windows, inForce_append, inForce_append, inForce_flatMap,
    inForce_flatMap, inForce_flatMap]
  have hjoins : (∀ seat ∈ proposal.seats,
      proposal.validateJoinIntent P now seat.joinIntent = .ok ()) ↔
        ∀ seat ∈ proposal.seats, InForce seat.joinIntent.windows now :=
    forall₂_congr fun seat hseat => validateJoinIntent_iff (hseated seat hseat)
  have hqueue : (∀ intent ∈ proposal.waiting, proposal.validateJoinIntent P now intent = .ok ()) ↔
      ∀ intent ∈ proposal.waiting, InForce intent.windows now :=
    forall₂_congr fun intent hintent => validateJoinIntent_iff (hqueued intent hintent)
  rw [hjoins, hqueue]
  constructor
  · rintro ⟨-, -, -, -, -, hseats, hwaiting, hleaves, -⟩
    exact ⟨⟨hseats, hwaiting⟩, hleaves⟩
  · rintro ⟨⟨hjoined, hwaited⟩, hleft⟩
    exact ⟨hversion, hseats, hwaiting, hleaves, hordered, hjoined, hwaited, hleft, hrest⟩

theorem verifyAt_iff (h : proposal.verifyAt P t = .ok ()) :
    proposal.verifyAt P now = .ok () ↔ InForce proposal.windows now := by
  unfold verifyAt at h ⊢
  simp only [unit_bind_eq_ok, ensure_eq_ok] at h ⊢
  obtain ⟨hversion, hcontents, hhash⟩ := h
  rw [validateContents_iff hcontents]
  tauto

end MembershipProposal

namespace SignedMembershipProposal

variable {signed : SignedMembershipProposal}

theorem verifyAt_iff (h : signed.verifyAt P t = .ok ()) :
    signed.verifyAt P now = .ok () ↔ InForce signed.windows now := by
  unfold verifyAt at h ⊢
  simp only [unit_bind_eq_ok, ensure_eq_ok, okOr_bind_eq_ok, mapError_eq_ok_iff] at h ⊢
  obtain ⟨hversion, hproposal, hclaim, coordinator, hcoordinator, hidentity, hattestation⟩ := h
  rw [MembershipProposal.verifyAt_iff hproposal, windows, inForce_append]
  constructor
  · rintro ⟨-, hwindows, -, _, -, -, hcertificate⟩
    exact ⟨hwindows, (verify_iff hattestation).mp hcertificate⟩
  · rintro ⟨hwindows, hcertificate⟩
    exact ⟨hversion, hwindows, hclaim, coordinator, hcoordinator, hidentity,
      (verify_iff hattestation).mpr hcertificate⟩

/-- A proposal verifies right when it is issued. -/
theorem verifyAt_of_issue (law : P.SignaturesVerify) {proposal : MembershipProposal}
    {device : DeviceIdentity} {certificate : DeviceCertificate}
    (h : issue P proposal now device certificate = .ok signed) :
    signed.verifyAt P now = .ok () := by
  unfold issue at h
  obtain ⟨hproposal, h⟩ := unit_bind_eq_ok.mp h
  obtain ⟨claimId, hclaim, h⟩ := okOr_bind_eq_ok.mp h
  obtain ⟨coordinator, hcoordinator, h⟩ := okOr_bind_eq_ok.mp h
  obtain ⟨hsigner, h⟩ := ensure_bind_eq_ok.mp h
  obtain ⟨attestation, rfl, hattestation, rfl⟩ := verify_of_seal law h
  unfold verifyAt
  simp only [unit_bind_eq_ok, ensure_eq_ok, okOr_bind_eq_ok, mapError_eq_ok_iff]
  exact ⟨trivial, hproposal, hclaim, coordinator, hcoordinator,
    ⟨hsigner.1.symm, hsigner.2.1.symm⟩, hattestation⟩

/-- Nobody whose join intent has run out is seated in a proposal that verifies. -/
theorem before_expiry (h : signed.verifyAt P now = .ok ()) : ∀ seat ∈ signed.proposal.seats,
      isSignedTimeBeforeExpiry now seat.joinIntent.expiresAtUnixMs = true := by
  intro seat hseat
  have hproposal := verifyAt_eq_ok h
  unfold MembershipProposal.verifyAt at hproposal
  obtain ⟨-, hproposal⟩ := ensure_bind_eq_ok.mp hproposal
  obtain ⟨hcontents, -⟩ := unit_bind_eq_ok.mp hproposal
  unfold MembershipProposal.validateContents at hcontents
  simp only [unit_bind_eq_ok, ensure_eq_ok, checkAll_eq_ok] at hcontents
  have hjoin := hcontents.2.2.2.2.2.1 seat hseat
  unfold MembershipProposal.validateJoinIntent at hjoin
  exact JoinIntent.before_expiry (unit_bind_eq_ok.mp hjoin).1

end SignedMembershipProposal

end TokenHoldem
