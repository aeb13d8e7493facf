import TokenHoldem.Library.Fallible
import TokenHoldem.Network.HandRosterProtocol

/-!
# The state of a table session

`ActiveSession` of `token-holdem-sidecar/src/table_session_runtime.rs`, and the
effects of its methods that outlive a call: documents signed, messages sent,
memberships and rosters activated, hands ended. A method runs in `SessionM`,
which keeps what it changed before it failed, as `&mut self -> Result` does.
-/

namespace TokenHoldem

open Library

/-- What `anyhow` carries in this file: a text, a text put before another
error, or an error of one of the protocol crates. -/
inductive SessionError where
  | message (text : String)
  | context (text : String) (cause : SessionError)
  | session (error : TableSessionProtocolError)
  | roster (error : HandRosterProtocolError)
  | handRoster (error : HandRosterError)
  | pool (error : TablePoolProtocolError)
  | membership (error : MembershipError)
  /-- An error of libp2p, which nothing looks into. -/
  | libp2p
deriving DecidableEq

/-- `CertifiedMembership`: a proposal with the acceptances of all its seats. -/
structure CertifiedMembership where
  proposal : SignedMembershipProposal
  acceptances : List MembershipAcceptance

/-- `CertifiedRoster`: a hand roster with the acceptances of all its endpoints. -/
structure CertifiedRoster where
  proposal : SignedHandRosterProposal
  acceptances : List HandRosterAcceptance

/-- `RoomWireMessage`, with the variants of `TableSessionMessage` and
`HandRosterMessage` it wraps. -/
inductive RoomWireMessage where
  | joinIntent (intent : JoinIntent)
  | leaveIntent (intent : LeaveIntent)
  | membershipProposal (signed : SignedMembershipProposal)
  | membershipAcceptance (acceptance : MembershipAcceptance)
  | rosterProposal (signed : SignedHandRosterProposal)
  | rosterAcceptance (acceptance : HandRosterAcceptance)
  | certifiedMembership (certificate : CertifiedMembership)
  | certifiedRoster (certificate : CertifiedRoster)

structure DirectRoomRecipient where
  peerId : PeerId
  addresses : List Multiaddr

structure ReadyTable where
  tableId : TableId
  rosterHash : Bytes32
  handNumber : UInt64
  level : StakeLevel
  localSeat : Nat
  dealerIndex : Nat
  physicalSeats : List UInt8
  players : List PlayerId
  devicePublicKeys : List DevicePublicKey
  peerIds : List PeerId
  peerAddresses : List (List Multiaddr)
  buyIns : List Chips
deriving DecidableEq

structure ActiveSession where
  tableId : TableId
  creatorPlayerId : PlayerId
  level : StakeLevel
  localJoin : JoinIntent
  admissionRecipient : Option DirectRoomRecipient
  joins : Std.TreeMap JoinClaimId JoinIntent
  leaves : Std.TreeMap PlayerId LeaveIntent
  membership : Option SignedMembershipProposal
  membershipCertificate : Option CertifiedMembership
  /-- Instants are milliseconds of the monotonic clock. -/
  lastSessionMessagesPublishedAt : Option Nat
  explicitPeers : List PeerId
  disconnectedExplicitPeers : Std.TreeMap PeerId Nat
  ownsExplicitPeers : Bool
  pendingMembership : Option SignedMembershipProposal
  membershipAcceptances : Std.TreeMap JoinClaimId MembershipAcceptance
  localMembershipAcceptance : Option MembershipAcceptance
  pendingRoster : Option SignedHandRosterProposal
  activeRoster : Option SignedHandRosterProposal
  rosterCertificate : Option CertifiedRoster
  rosterAcceptances : Std.TreeMap JoinClaimId HandRosterAcceptance
  localRosterAcceptance : Option HandRosterAcceptance
  countdownStartedAt : Option Nat
  handActive : Bool
  handClockKnown : Bool
  nextHandNumber : UInt64
  previousReceiptHash : Option Bytes32
  previousDealerSeat : Option PhysicalSeat
  readyTable : Option ReadyTable
  localLeave : Option LeaveIntent
  localLeaveStartedAt : Option Nat
  localLeaveMembershipStartedAt : Option Nat
  leaveCompleted : Bool

namespace ActiveSession

variable (P : Primitives)

def new (tableId : TableId) (creatorPlayerId : PlayerId) (localJoin : JoinIntent)
    (admissionRecipient : Option DirectRoomRecipient) : ActiveSession where
  tableId := tableId
  creatorPlayerId := creatorPlayerId
  level := localJoin.level
  localJoin := localJoin
  admissionRecipient := admissionRecipient
  joins := (∅ : Std.TreeMap JoinClaimId JoinIntent).insert (localJoin.claimId P) localJoin
  leaves := ∅
  membership := none
  membershipCertificate := none
  lastSessionMessagesPublishedAt := none
  explicitPeers := []
  disconnectedExplicitPeers := ∅
  ownsExplicitPeers := false
  pendingMembership := none
  membershipAcceptances := ∅
  localMembershipAcceptance := none
  pendingRoster := none
  activeRoster := none
  rosterCertificate := none
  rosterAcceptances := ∅
  localRosterAcceptance := none
  countdownStartedAt := none
  handActive := false
  handClockKnown := false
  nextHandNumber := 1
  previousReceiptHash := none
  previousDealerSeat := none
  readyTable := none
  localLeave := none
  localLeaveStartedAt := none
  localLeaveMembershipStartedAt := none
  leaveCompleted := false

end ActiveSession

structure SignedLeaveAbandonment where
  playerId : PlayerId
  handNumber : UInt64
  dealerSeat : PhysicalSeat
  evidenceHash : Bytes32

/-! ## Effects -/

/-- A document the local device signs in a session. -/
inductive Signed where
  | ticket (ticket : PoolTicket)
  | joinIntent (intent : JoinIntent)
  | leaveIntent (intent : LeaveIntent)
  | membershipProposal (signed : SignedMembershipProposal)
  | membershipAcceptance (signed : SignedMembershipProposal) (acceptance : MembershipAcceptance)
  | rosterProposal (signed : SignedHandRosterProposal)
  | rosterAcceptance (signed : SignedHandRosterProposal) (acceptance : HandRosterAcceptance)

namespace Signed

/-- The kind of a document, as its signature names it. -/
def domain : Signed → Bytes
  | .ticket _ => poolTicketDomain
  | .joinIntent _ => joinIntentDomain
  | .leaveIntent _ => leaveIntentDomain
  | .membershipProposal _ => membershipProposalDomain
  | .membershipAcceptance _ _ => Ballot.domain .membership
  | .rosterProposal _ => handRosterProposalDomain
  | .rosterAcceptance _ _ => Ballot.domain .roster

/-- The bytes whose hash is signed. -/
def payload (P : Primitives) : Signed → Bytes
  | .ticket pool => pool.canonicalUnsignedBytes
  | .joinIntent intent => intent.canonicalUnsignedBytes P
  | .leaveIntent intent => intent.canonicalUnsignedBytes
  | .membershipProposal signed =>
    canonicalSignedMembershipBytes signed.version signed.proposal.proposalHash
      signed.coordinatorClaimId
  | .membershipAcceptance _ acceptance => acceptance.canonicalBytes
  | .rosterProposal signed =>
    canonicalSignedRosterBytes signed.version signed.proposal.proposalHash
      signed.coordinatorClaimId
  | .rosterAcceptance _ acceptance => acceptance.canonicalBytes

/-- The bytes the signature of a document is over. -/
def bytes (P : Primitives) (document : Signed) : Bytes :=
  canonicalSigningBytes document.domain (P.hash (document.payload P))

theorem domain_eq_membership {document : Signed} (h : document.domain = Ballot.domain .membership) :
    ∃ signed acceptance, document = .membershipAcceptance signed acceptance := by
  cases document with
  | membershipAcceptance signed acceptance => exact ⟨signed, acceptance, rfl⟩
  | _ =>
    exfalso
    revert h
    simp only [domain]
    decide +kernel

end Signed

/-- What a method of the session leaves behind besides the new state. -/
inductive Effect where
  /-- A session starts, in `create` or in `join`. -/
  | entered
  | signed (document : Signed)
  | sent (message : RoomWireMessage)
  /-- `maybe_propose_membership` has signed its own proposal in the state `before`. -/
  | proposedMembership (before : ActiveSession) (now : UInt64) (signed : SignedMembershipProposal)
  /-- `accept_membership_proposal` makes a proposal the pending one, in the state
  `before`. -/
  | openedMembership (before : ActiveSession) (now : UInt64) (signed : SignedMembershipProposal)
  /-- `accept_roster_proposal` is about to sign in the state `before`. -/
  | rosterBallot (before : ActiveSession) (signed : SignedHandRosterProposal)
  /-- `activate_membership` in the state `before`, or the first membership of a
  table when it is created. -/
  | activatedMembership (before : Option ActiveSession) (certificate : CertifiedMembership)
  /-- `activate_roster` in the state `before`. -/
  | activatedRoster (before : ActiveSession) (certificate : CertifiedRoster)
  /-- `finish_hand_boundary` in the state `before`. -/
  | boundary (before : ActiveSession) (evidenceHash : Bytes32)
  /-- The event `HandAbortedForLeave`. The caller sees it, and aborts the hand, only when
  the call returns `Ok`. -/
  | handAborted (abandonment : SignedLeaveAbandonment)

/-- A session in the middle of a call, with what the call has done so far. -/
structure Running where
  active : ActiveSession
  trace : List Effect

abbrev SessionM := EStateM SessionError Running

namespace SessionM

def getActive : SessionM ActiveSession := do return (← get).active

def update (change : ActiveSession → ActiveSession) : SessionM Unit :=
  modify fun running => { running with active := change running.active }

def record (effect : Effect) : SessionM Unit :=
  modify fun running => { running with trace := running.trace ++ [effect] }

/-- `anyhow::ensure!`. -/
def check (condition : Prop) [Decidable condition] (text : String) : SessionM Unit :=
  if condition then pure () else throw (.message text)

/-- `option.context(text)?`. -/
def someOr {α : Type} (text : String) (option : Option α) : SessionM α :=
  orThrow (.message text) option

/-- `result?` for an error of one of the protocol crates. -/
def lift {ε α : Type} (wrap : ε → SessionError) : Except ε α → SessionM α
  | .ok a => pure a
  | .error e => throw (wrap e)

theorem run_getActive_bind {β : Type} (k : ActiveSession → SessionM β) (s : Running) :
    (getActive >>= k).run s = (k s.active).run s := rfl

theorem run_lift_eq_ok {ε α : Type} {wrap : ε → SessionError} {x : Except ε α} {s t : Running}
    {a : α} : (lift wrap x).run s = .ok a t ↔ x = .ok a ∧ t = s := by
  rcases x with e | a'
  · constructor <;> rintro ⟨⟩
    contradiction
  · constructor
    · rintro ⟨⟩
      exact ⟨rfl, rfl⟩
    · rintro ⟨⟨⟩, rfl⟩
      rfl

section Ends

variable {Q : Running → Prop} {s : Running} {α β ε : Type}

theorem ends_getActive {k : ActiveSession → SessionM β} (h : Ends Q s (k s.active)) :
    Ends Q s (getActive >>= k) := h

variable {change : ActiveSession → ActiveSession} {k : Unit → SessionM β}

theorem ends_update (h : Q { s with active := change s.active }) : Ends Q s (update change) := h

theorem ends_update_bind (h : Ends Q { s with active := change s.active } (k ())) :
    Ends Q s (update change >>= k) := h

theorem ends_record {effect : Effect} (h : Q { s with trace := s.trace ++ [effect] }) :
    Ends Q s (record effect) := h

theorem ends_record_bind {effect : Effect}
    (h : Ends Q { s with trace := s.trace ++ [effect] } (k ())) :
    Ends Q s (record effect >>= k) := h

theorem ends_lift_bind {wrap : ε → SessionError} {x : Except ε α} {k : α → SessionM β} (hs : Q s)
    (h : ∀ a, x = .ok a → Ends Q s (k a)) : Ends Q s (lift wrap x >>= k) := by
  cases x with
  | ok a => exact h a rfl
  | error e => exact hs

theorem ends_someOr_bind {text : String} {o : Option α} {k : α → SessionM β} (hs : Q s)
    (h : ∀ a, o = some a → Ends Q s (k a)) : Ends Q s (someOr text o >>= k) := by
  cases o with
  | some a => exact h a rfl
  | none => exact hs

theorem ends_check_bind {c : Prop} [Decidable c] {text : String} (hs : Q s)
    (h : c → Ends Q s (k ())) : Ends Q s (check c text >>= k) := by
  unfold check
  split
  · exact h ‹_›
  · exact hs

end Ends

section Keeps

variable {γ α β ε : Type} {f : Running → γ}

theorem keeps_getActive_bind {k : ActiveSession → SessionM β} (h : ∀ active, Keeps f (k active)) :
    Keeps f (getActive >>= k) := fun s => h s.active s

theorem keeps_update {change : ActiveSession → ActiveSession}
    (h : ∀ s : Running, f { s with active := change s.active } = f s) : Keeps f (update change) := h

theorem keeps_record {effect : Effect}
    (h : ∀ s : Running, f { s with trace := s.trace ++ [effect] } = f s) :
    Keeps f (record effect) := h

theorem keeps_lift {wrap : ε → SessionError} {x : Except ε α} : Keeps f (lift wrap x) := by
  cases x <;> exact fun _ => rfl

theorem keeps_someOr {text : String} {o : Option α} : Keeps f (someOr text o) := .orThrow _ _

theorem keeps_check {c : Prop} [Decidable c] {text : String} : Keeps f (check c text) :=
  .ite (.pure _) (.throw _)

end Keeps

end SessionM

end TokenHoldem
