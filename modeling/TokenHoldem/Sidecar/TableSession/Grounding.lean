import Mathlib.Data.Set.Function
import TokenHoldem.Library.Unanimity
import TokenHoldem.Sidecar.TableSession.World

/-!
# Acceptances are grounded in signatures

Whatever acceptances a peer of a room holds, sends or activates something with,
those that verify under the key of a peer of the room were signed by that peer:
a session only keeps acceptances that arrive or that its own device signs.

- `Room.grounded_of_reach`: this holds in every world reached;
- `Room.Grounded.membership_vote`: a peer seated in an activated membership has
  voted for it, and for nothing else under its hash.
-/

namespace TokenHoldem

open Library TableSession List

namespace Room

variable {P : Primitives} {room : Room P}

/-- What an effect of a peer rests on. -/
def EffectGrounded (log : room.Log) : Effect → Prop
  | .signed (.membershipAcceptance signed acceptance) =>
    acceptance.proposalHash = signed.proposal.proposalHash ∧ signed.proposal.level = room.level ∧
      ∃ now, signed.verifyAt P now = .ok ()
  | .signed (.rosterAcceptance signed acceptance) =>
    acceptance.proposalHash = signed.proposal.proposalHash ∧ ∃ now, signed.verifyAt P now = .ok ()
  | .sent message =>
    (∀ a ∈ message.membershipAcceptances, Unforged log a) ∧
      ∀ a ∈ message.rosterAcceptances, Unforged log a
  | .activatedMembership _ confirmed =>
    confirmed.proposal.proposal.level = room.level ∧ (∃ now, confirmed.verifyAt P now = .ok ()) ∧
      ∀ a ∈ confirmed.acceptances, Unforged log a
  | .activatedRoster _ confirmed =>
    (∃ now, confirmed.verifyAt P now = .ok ()) ∧ ∀ a ∈ confirmed.acceptances, Unforged log a
  | _ => True

/-- What a session holds is in scope and not forged. -/
structure SessionGrounded (log : room.Log) (c : Consensus) : Prop where
  level : c.level = room.level
  pending : ∀ signed ∈ c.pendingMembership, signed.proposal.level = room.level
  memberships : ∀ a ∈ c.heldMembership, Unforged log a
  rosters : ∀ a ∈ c.heldRoster, Unforged log a

structure Grounded (w : room.World) : Prop where
  effects : ∀ peer, ∀ effect ∈ log w peer, EffectGrounded (log w) effect
  sessions : ∀ peer, ∀ active ∈ (w peer).session, SessionGrounded (log w) active.consensus

section

variable {w : room.World} {log : room.Log} {peer : room.Peer} {c : Consensus} {ballot : Ballot}

theorem EffectGrounded.add {effect : Effect} (h : EffectGrounded log effect)
    (effects : List Effect) : EffectGrounded (log.add peer effects) effect := by
  cases effect with
  | signed document =>
    cases document <;> exact h
  | sent message => exact ⟨fun a ha => (h.1 a ha).add effects, fun a ha => (h.2 a ha).add effects⟩
  | activatedMembership before confirmed =>
    exact ⟨h.1, h.2.1, fun a ha => (h.2.2 a ha).add effects⟩
  | activatedRoster before confirmed => exact ⟨h.1, fun a ha => (h.2 a ha).add effects⟩
  | _ => trivial

theorem SessionGrounded.add (h : SessionGrounded log c) (effects : List Effect) :
    SessionGrounded (log.add peer effects) c where
  level := h.level
  pending := h.pending
  memberships a ha := (h.memberships a ha).add effects
  rosters a ha := (h.rosters a ha).add effects

variable {effects : List Effect} {a : ActiveSession}

/-- Only the peer that acts has to be looked at. -/
theorem Grounded.put (h : Grounded w) {session : Option ActiveSession}
    (heffects : ∀ effect ∈ effects, EffectGrounded ((Room.log w).add peer effects) effect)
    (hsession : ∀ active ∈ session,
      SessionGrounded ((Room.log w).add peer effects) active.consensus) :
    Grounded (put w peer session effects) where
  effects other effect heffect := by
    rw [log_put] at heffect ⊢
    rcases Log.mem_add.mp heffect with hold | ⟨-, hnew⟩
    · exact (h.effects other effect hold).add effects
    · exact heffects effect hnew
  sessions other active hactive := by
    rw [log_put]
    by_cases hother : other = peer
    · subst hother
      rw [put_session] at hactive
      exact hsession active hactive
    · rw [Room.put, Function.update_of_ne hother] at hactive
      exact (h.sessions other active hactive).add effects

/-- An acceptance that the peer itself signs. -/
theorem Unforged.own {a : Acceptance ballot} {document : Signed} (hkey : a.signer = room.key peer)
    (hsigned : .signed document ∈ effects) (hbytes : document.bytes P = a.signedBytes P) :
    Unforged (log.add peer effects) a := by
  intro other hother _
  -- the device belongs to one peer only
  obtain rfl : other = peer := room.device_injective (hother.trans hkey)
  refine mem_map.mpr ⟨document, ?_, hbytes⟩
  rw [mem_signedDocuments]
  exact Log.mem_add.mpr (.inr ⟨rfl, hsigned⟩)

/-- Nothing the network delivers is forged. -/
theorem Grounded.received (h : Grounded w) {source : Option PeerId} {message : RoomWireMessage}
    (hopened : room.opened (Room.log w) source message) :
    (∀ a ∈ message.membershipAcceptances, Unforged (Room.log w) a) ∧
      ∀ a ∈ message.rosterAcceptances, Unforged (Room.log w) a := by
  rcases hopened with ⟨sender, -, hsent⟩ | hunforged
  · exact h.effects sender _ (mem_sentMessages.mp hsent)
  · exact hunforged

/-- A session stays grounded if whatever is new in it is. -/
theorem SessionGrounded.change {d : Consensus} (h : SessionGrounded log c)
    (level : d.level = c.level)
    (pending : ∀ signed ∈ d.pendingMembership,
      signed ∈ c.pendingMembership ∨ signed.proposal.level = c.level)
    (memberships : ∀ a ∈ d.heldMembership, a ∈ c.heldMembership ∨ Unforged log a)
    (rosters : ∀ a ∈ d.heldRoster, a ∈ c.heldRoster ∨ Unforged log a) :
    SessionGrounded log d where
  level := level.trans h.level
  pending signed hsigned := by
    rcases pending signed hsigned with hold | hlevel
    · exact h.pending signed hold
    · exact hlevel.trans h.level
  memberships a ha := (memberships a ha).elim (h.memberships a) id
  rosters a ha := (rosters a ha).elim (h.rosters a) id

section Moves

variable {received : Option RoomWireMessage} {b : ActiveSession}
  (h : SessionGrounded log a.consensus) (hreceived : ∀ message ∈ received,
    (∀ x ∈ message.membershipAcceptances, Unforged log x) ∧
      ∀ x ∈ message.rosterAcceptances, Unforged log x)
  (hmove : Move P (room.identity peer) received a effects b)

include h hreceived hmove

open Consensus in
/-- Every move keeps its session grounded. -/
theorem SessionGrounded.move : SessionGrounded (log.add peer effects) b.consensus := by
  have h : SessionGrounded (log.add peer effects) a.consensus := h.add effects
  cases hmove with
  | quiet same => rwa [same]
  | note harmless => exact h
  | proposeMembership => exact h
  | takeMembership change =>
    rw [change]
    exact h.change rfl (by nofun) (fun _ => .inl) fun _ => .inl
  | forgetMembership change =>
    rw [change]
    refine h.change rfl (by nofun) (fun x hx => .inl ?_) fun _ => .inl
    simp only [mem_heldMembership, values_empty] at hx ⊢
    grind
  | openMembership signed now opening change =>
    rw [change]
    refine h.change rfl (fun other hother => .inr ?_) (fun x hx => .inl ?_) fun _ => .inl
    · rw [← Option.some.inj hother]
      exact opening.level
    · simp only [mem_heldMembership, values_empty] at hx ⊢
      grind
  | voteMembership signed claimId now acceptance pending issued change =>
    have hown : Unforged (log.add peer [.signed (.membershipAcceptance signed acceptance)])
        acceptance :=
      .own (MembershipAcceptance.issue_eq_ok issued).2.2 (mem_singleton_self _) rfl
    rw [change]
    refine h.change rfl (fun _ => .inl) (fun x hx => ?_) fun _ => .inl
    rcases mem_heldMembership.mp hx with hx | hx | hx
    · rcases mem_values_insert hx with rfl | hx
      · exact .inr hown
      · exact .inl (mem_heldMembership.mpr (.inl hx))
    · rw [← Option.some.inj hx]
      exact .inr hown
    · exact .inl (mem_heldMembership.mpr (.inr (.inr hx)))
  | collectMembership acceptance origin change =>
    rw [change]
    refine h.change rfl (fun _ => .inl) (fun x hx => ?_) fun _ => .inl
    rcases mem_heldMembership.mp hx with hx | hx
    · rcases mem_values_insert hx with rfl | hx
      · exact .inr (((hreceived _ origin).1 x (mem_singleton_self x)).add _)
      · exact .inl (mem_heldMembership.mpr (.inl hx))
    · exact .inl (mem_heldMembership.mpr (.inr hx))
  | activateMembership before confirmed now verified origin same change =>
    rw [change]
    refine h.change rfl (by nofun) (fun x hx => ?_) fun x hx => .inl ?_
    · rcases mem_heldMembership.mp hx with hx | hx | ⟨_, ⟨⟩, hx⟩
      · cases hx
      · exact .inl (mem_heldMembership.mpr (.inr (.inl hx)))
      · rcases origin with ⟨-, hheld⟩ | ⟨hmessage, -⟩
        · exact .inl (mem_heldMembership.mpr (.inl (hheld x hx)))
        · exact .inr (((hreceived _ hmessage).1 x hx).add _)
    · simp only [mem_heldRoster, values_empty] at hx ⊢
      grind
  | voteRoster signed claimId now acceptance known receipt number members issued change =>
    have hown : Unforged (log.add peer
        [.rosterBallot a signed, .signed (.rosterAcceptance signed acceptance)]) acceptance :=
      .own (HandRosterAcceptance.issue_eq_ok issued).2.2
        (mem_cons_of_mem _ (mem_singleton_self _)) rfl
    rw [change]
    refine h.change rfl (fun _ => .inl) (fun _ => .inl) fun x hx => ?_
    rcases mem_heldRoster.mp hx with hx | hx | hx
    · rcases mem_values_insert hx with rfl | hx
      · exact .inr hown
      · cases hx
    · rw [← Option.some.inj hx]
      exact .inr hown
    · exact .inl (mem_heldRoster.mpr (.inr (.inr hx)))
  | adoptClock number receipt later change =>
    rw [change]
    exact h.change rfl (fun _ => .inl) (fun _ => .inl) fun _ => .inl
  | collectRoster acceptance origin change =>
    rw [change]
    refine h.change rfl (fun _ => .inl) (fun _ => .inl) fun x hx => ?_
    rcases mem_heldRoster.mp hx with hx | hx
    · rcases mem_values_insert hx with rfl | hx
      · exact .inr (((hreceived _ origin).2 x (mem_singleton_self x)).add _)
      · exact .inl (mem_heldRoster.mpr (.inl hx))
    · exact .inl (mem_heldRoster.mpr (.inr hx))
  | takeRoster change =>
    rw [change]
    exact h.change rfl (fun _ => .inl) (fun _ => .inl) fun _ => .inl
  | activateRoster before confirmed now verified origin same change =>
    rw [change]
    refine h.change rfl (fun _ => .inl) (fun _ => .inl) fun x hx => ?_
    rcases mem_heldRoster.mp hx with hx | hx | ⟨_, ⟨⟩, hx⟩
    · cases hx
    · exact .inl (mem_heldRoster.mpr (.inr (.inl hx)))
    · rcases origin with ⟨-, hheld⟩ | ⟨hmessage, -⟩
      · exact .inl (mem_heldRoster.mpr (.inl (hheld x hx)))
      · exact .inr (((hreceived _ hmessage).2 x hx).add _)
  | endHand evidenceHash change =>
    rw [change]
    exact h.change rfl (fun _ => .inl) (fun _ => .inl) fun _ => .inl
  | boundary evidenceHash next hand number change =>
    rw [change]
    refine h.change rfl (by nofun) (fun x hx => .inl ?_) fun x hx => .inl ?_
    · simp only [mem_heldMembership, values_empty] at hx ⊢
      grind
    · simp only [mem_heldRoster, values_empty] at hx ⊢
      grind

/-- Every move has grounded effects. -/
theorem EffectGrounded.move : ∀ effect ∈ effects, EffectGrounded log effect := by
  cases hmove with
  | note harmless =>
    rintro _ (_ | ⟨_, ⟨⟩⟩)
    cases harmless with
    | sent message memberships rosters =>
      exact ⟨fun x hx => h.memberships x (memberships x hx),
        fun x hx => h.rosters x (rosters x hx)⟩
    | _ => trivial
  | voteMembership signed claimId now acceptance pending issued change =>
    rintro _ (_ | ⟨_, ⟨⟩⟩)
    obtain ⟨verified, hhash, -⟩ := MembershipAcceptance.issue_eq_ok issued
    exact ⟨hhash, h.pending signed pending, now, verified⟩
  | activateMembership before confirmed now verified origin same change =>
    rintro _ (_ | ⟨_, ⟨⟩⟩)
    rcases origin with ⟨hpending, hheld⟩ | ⟨hmessage, scope⟩
    · exact ⟨h.pending _ hpending, ⟨now, verified⟩, fun x hx =>
        h.memberships x (Consensus.mem_heldMembership.mpr (.inl (hheld x hx)))⟩
    · exact ⟨(validateMembershipScope_eq_ok scope).trans h.level, ⟨now, verified⟩,
        (hreceived _ hmessage).1⟩
  | voteRoster signed claimId now acceptance known receipt number members issued change =>
    rintro _ (_ | ⟨_, _ | ⟨_, ⟨⟩⟩⟩)
    · trivial
    · obtain ⟨verified, hhash, -⟩ := HandRosterAcceptance.issue_eq_ok issued
      exact ⟨hhash, now, verified⟩
  | activateRoster before confirmed now verified origin same change =>
    rintro _ (_ | ⟨_, ⟨⟩⟩)
    rcases origin with ⟨-, hheld⟩ | ⟨hmessage, -⟩
    · exact ⟨⟨now, verified⟩, fun x hx =>
        h.rosters x (Consensus.mem_heldRoster.mpr (.inl (hheld x hx)))⟩
    · exact ⟨⟨now, verified⟩, (hreceived _ hmessage).2⟩
  | proposeMembership signed now laid =>
    rintro _ (_ | ⟨_, ⟨⟩⟩)
    trivial
  | openMembership signed now opening change =>
    rintro _ (_ | ⟨_, ⟨⟩⟩)
    trivial
  | boundary evidenceHash next hand number change =>
    rintro _ (_ | ⟨_, ⟨⟩⟩)
    trivial
  | _ => exact fun effect heffect => absurd heffect not_mem_nil

end Moves

/-- A session starts grounded. -/
theorem Entry.grounded (h : Entry P (room.identity peer) room.tableId room.level a effects) :
    (∀ effect ∈ effects, EffectGrounded (log.add peer effects) effect) ∧
      SessionGrounded (log.add peer effects) a.consensus := by
  cases h with
  | created localJoin claimId now acceptance confirmed issued sameLevel verified own state =>
    obtain ⟨hsigned, hhash, hkey⟩ := MembershipAcceptance.issue_eq_ok issued
    have hforged : ∀ x ∈ confirmed.acceptances, Unforged (log.add peer [.entered,
        .signed (.joinIntent localJoin), .signed (.membershipProposal confirmed.proposal),
        .signed (.membershipAcceptance confirmed.proposal acceptance),
        .activatedMembership none confirmed]) x := by
      intro x hx
      have hvote : Effect.signed (.membershipAcceptance confirmed.proposal acceptance) ∈
          [Effect.entered, .signed (.joinIntent localJoin),
            .signed (.membershipProposal confirmed.proposal),
            .signed (.membershipAcceptance confirmed.proposal acceptance),
            .activatedMembership none confirmed] := by simp
      rw [own x hx]
      exact .own hkey hvote rfl
    refine ⟨?_, ?_⟩
    · simp only [forall_mem_cons]
      exact ⟨trivial, trivial, trivial, ⟨hhash, sameLevel, now, hsigned⟩,
        ⟨sameLevel, ⟨now, verified⟩, hforged⟩, fun _ h => absurd h not_mem_nil⟩
    · rw [state]
      refine ⟨rfl, by nofun, fun x hx => ?_, fun x hx => ?_⟩
      · rcases Consensus.mem_heldMembership.mp hx with hx | hx | ⟨_, ⟨⟩, hx⟩
        · cases hx
        · cases hx
        · exact hforged x hx
      · rcases Consensus.mem_heldRoster.mp hx with hx | hx | ⟨_, hx, -⟩ <;> cases hx
  | joined localJoin state =>
    refine ⟨?_, ?_⟩
    · simp only [forall_mem_cons]
      exact ⟨trivial, trivial, fun _ h => absurd h not_mem_nil⟩
    · rw [state]
      refine ⟨rfl, by nofun, fun x hx => ?_, fun x hx => ?_⟩
      · rcases Consensus.mem_heldMembership.mp hx with hx | hx | ⟨_, hx, -⟩ <;> cases hx
      · rcases Consensus.mem_heldRoster.mp hx with hx | hx | ⟨_, hx, -⟩ <;> cases hx

theorem grounded_of_reach {safe : Condition room} (h : Reach room.opened safe w) : Grounded w := by
  refine Reach.by_moves (I := Grounded) ?start ?enter ?move ?drop h
  case start => exact ⟨fun _ _ h => absurd h not_mem_nil, fun _ _ h => nomatch h⟩
  case enter =>
    intro w peer active effects ih entry _
    obtain ⟨heffects, hsession⟩ := Entry.grounded entry
    exact ih.put heffects fun _ hactive => Option.some.inj hactive ▸ hsession
  case move =>
    intro w peer received active effects next ih hactive hdelivered hmove _
    have hheld := ih.sessions peer active hactive
    have hreceived : ∀ message ∈ received, _ := fun message hmessage =>
      ih.received (hdelivered message hmessage).choose_spec
    refine ih.put (fun effect heffect => ?_) fun _ hnext => Option.some.inj hnext ▸ ?_
    · exact (EffectGrounded.move hheld hreceived hmove effect heffect).add effects
    · exact hheld.move hreceived hmove
  case drop =>
    intro w peer ih
    exact ih.put (fun _ h => absurd h not_mem_nil) fun _ h => nomatch h

end

/-! ## Votes behind activations -/

/-- The strings hashed for the claim of a seat. -/
def seatBytes (P : Primitives) (seat : MembershipSeatClaim) : List Bytes :=
  [seat.joinIntent.canonicalUnsignedBytes P, seat.joinIntent.ticket.canonicalUnsignedBytes]

/-- The strings that are hashed for an effect, as far as the agreement rests on
their hashes. -/
def hashedBytes (P : Primitives) : Effect → List Bytes
  | .signed (.membershipAcceptance signed acceptance) =>
    [acceptance.canonicalBytes, signed.proposal.canonicalUnsignedBytes P]
  | .signed (.rosterAcceptance signed acceptance) =>
    [acceptance.canonicalBytes, signed.proposal.canonicalUnsignedBytes,
      signed.proposal.readyRoster.canonicalBytes]
  | .activatedMembership _ confirmed =>
    confirmed.proposal.proposal.canonicalUnsignedBytes P
      :: confirmed.acceptances.map Acceptance.canonicalBytes
      ++ confirmed.proposal.proposal.seats.flatMap (seatBytes P)
  | .activatedRoster _ confirmed =>
    [confirmed.proposal.proposal.canonicalUnsignedBytes,
        confirmed.proposal.proposal.readyRoster.canonicalBytes]
      ++ confirmed.acceptances.map Acceptance.canonicalBytes
      ++ confirmed.proposal.membership.proposal.seats.flatMap (seatBytes P)
  | _ => []

/-- The hash has no collision on what the peers have hashed. -/
def CollisionFree (log : room.Log) : Prop :=
  Set.InjOn P.hash {bytes | ∃ peer, ∃ effect ∈ log peer, bytes ∈ hashedBytes P effect}

section

variable {w : room.World} {log : room.Log} {peer member : room.Peer}

theorem CollisionFree.eq (h : CollisionFree log) {p q : room.Peer} {e f : Effect} {x y : Bytes}
    (he : e ∈ log p) (hx : x ∈ hashedBytes P e) (hf : f ∈ log q) (hy : y ∈ hashedBytes P f)
    (hash : P.hash x = P.hash y) : x = y :=
  h ⟨p, e, he, hx⟩ ⟨q, f, hf, hy⟩ hash

/-- For a run of finitely many peers, it is enough to look at the digests. -/
theorem collisionFree_of_nodup {peers : List room.Peer} (all : ∀ peer, peer ∈ peers)
    (h : ((peers.flatMap fun peer => (log peer).flatMap (hashedBytes P)).dedup.map P.hash).Nodup) :
    CollisionFree log := by
  rintro x ⟨p, e, he, hx⟩ y ⟨q, f, hf, hy⟩ hash
  have mem : ∀ (peer : room.Peer) (effect : Effect) (bytes : Bytes), effect ∈ log peer →
      bytes ∈ hashedBytes P effect →
      bytes ∈ (peers.flatMap fun peer => (log peer).flatMap (hashedBytes P)).dedup := by
    intro peer effect bytes heffect hbytes
    rw [mem_dedup, mem_flatMap]
    exact ⟨peer, all peer, mem_flatMap.mpr ⟨effect, heffect, hbytes⟩⟩
  exact inj_on_of_nodup_map h (mem p e x he hx) (mem q f y hf hy) hash

variable {seat : MembershipSeatClaim}

/-- Two seats with one claim are seats of one device. -/
theorem CollisionFree.device_eq (h : CollisionFree log) {e : Effect} (he : e ∈ log peer)
    {other : MembershipSeatClaim} (hseat : ∀ x ∈ seatBytes P seat, x ∈ hashedBytes P e)
    (hother : ∀ x ∈ seatBytes P other, x ∈ hashedBytes P e)
    (claim : seat.joinIntent.claimId P = other.joinIntent.claimId P) :
    seat.joinIntent.devicePublicKey = other.joinIntent.devicePublicKey := by
  have hintent := h.eq he (hseat _ mem_cons_self) he (hother _ mem_cons_self)
    (congrArg Identifier.bytes claim)
  have hticket := h.eq he (hseat _ (mem_cons_of_mem _ mem_cons_self)) he
    (hother _ (mem_cons_of_mem _ mem_cons_self))
    (congrArg Identifier.bytes (JoinIntent.ticketId_eq_of_canonicalUnsignedBytes hintent))
  exact PoolTicket.devicePublicKey_eq_of_canonicalUnsignedBytes hticket

/-- The document of a peer behind an acceptance under its key. -/
theorem Unforged.document {ballot : Ballot} {a : Acceptance ballot} (h : Unforged log a)
    (hkey : room.key peer = a.signer) (hholds : a.SignatureHolds P) :
    ∃ document, .signed document ∈ log peer ∧ document.domain = ballot.domain ∧
      P.hash (document.payload P) = P.hash a.canonicalBytes := by
  obtain ⟨document, hdocument, hbytes⟩ := mem_map.mp (h peer hkey hholds)
  obtain ⟨hdomain, hhash⟩ := canonicalSigningBytes_inj hbytes
  exact ⟨document, mem_signedDocuments.mp hdocument, hdomain, hhash⟩

/-- A membership proposal is about its version. -/
def membershipSubject : Subject SignedMembershipProposal UInt64 Bytes32 where
  slot signed := signed.proposal.membershipVersion
  value signed := signed.proposal.proposalHash

def certifiedMembershipSubject : Subject CertifiedMembership UInt64 Bytes32 where
  slot confirmed := membershipSubject.slot confirmed.proposal
  value confirmed := membershipSubject.value confirmed.proposal

/-- A peer whose device is seated in an activated membership has voted for it. -/
theorem Grounded.membership_vote (h : Grounded w) (free : CollisionFree (Room.log w))
    {confirmed : CertifiedMembership}
    (hactivated : confirmed ∈ activatedMemberships (Room.log w peer))
    (hseat : seat ∈ confirmed.proposal.proposal.seats)
    (hkey : seat.joinIntent.devicePublicKey = room.key member) :
    Backs membershipSubject certifiedMembershipSubject
      {signed | signed ∈ votedMemberships (Room.log w member)} confirmed := by
  obtain ⟨before, hactivated⟩ := mem_activatedMemberships.mp hactivated
  obtain ⟨hlevel, ⟨now, hverified⟩, hunforged⟩ := h.effects peer _ hactivated
  obtain ⟨hproposal, haccepted, hcomplete⟩ := verifyMembershipAcceptances_eq_ok hverified
  -- the acceptance for the seat is signed with the device of the seat
  obtain ⟨a, ha, hclaim⟩ := hcomplete seat hseat
  obtain ⟨hhash, hholds, other, hother, hotherClaim, hsigner⟩ :=
    MembershipAcceptance.verifyAt_eq_ok (haccepted a ha)
  have hseatBytes : ∀ s ∈ confirmed.proposal.proposal.seats, ∀ x ∈ seatBytes P s,
      x ∈ hashedBytes P (.activatedMembership before confirmed) := fun s hs x hx =>
    mem_append_right _ (mem_flatMap.mpr ⟨s, hs, hx⟩)
  have hdevice := free.device_eq hactivated (hseatBytes seat hseat) (hseatBytes other hother)
    (hclaim.symm.trans hotherClaim.symm)
  -- so the member has signed it, as an acceptance of the same proposal
  obtain ⟨document, hdocument, hdomain, hpayload⟩ :=
    (hunforged a ha).document (hkey.symm.trans (hdevice.trans hsigner.symm)) hholds
  obtain ⟨signed, vote, rfl⟩ := Signed.domain_eq_membership hdomain
  obtain ⟨hvote, hvoteLevel, before', hvoteVerified⟩ := h.effects member _ hdocument
  have hbytes := free.eq hdocument mem_cons_self hactivated
    (mem_append_left _ (mem_cons_of_mem _ (mem_map_of_mem ha))) hpayload
  have hsame : signed.proposal.proposalHash = confirmed.proposal.proposal.proposalHash := by
    rw [← hvote, Acceptance.proposalHash_eq_of_canonicalBytes hbytes, hhash]
  refine ⟨signed, mem_votedMemberships.mpr ⟨vote, hdocument⟩, ?_, hsame⟩
  refine MembershipProposal.membershipVersion_eq_of_canonicalUnsignedBytes
    (hvoteLevel.trans hlevel.symm) (free.eq hdocument (mem_cons_of_mem _ mem_cons_self)
      hactivated (mem_append_left _ mem_cons_self) ?_)
  rw [MembershipProposal.verifyAt_eq_ok (SignedMembershipProposal.verifyAt_eq_ok hvoteVerified),
    MembershipProposal.verifyAt_eq_ok (SignedMembershipProposal.verifyAt_eq_ok hproposal), hsame]

end

end Room

end TokenHoldem
