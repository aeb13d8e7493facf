import TokenHoldem.Sidecar.TableSession.Grounding

/-!
# Agreement on memberships

Do peers around one table agree on every version of its membership? A
membership needs the acceptances of its own seats only, whoever sat there
before, and a peer that has accepted one proposal of a version may go on to
accept another one. So the answer is no: two peers whose seats run out at the
same time each go on alone (`memberships_fork`).

They do agree in every run in which a peer accepts one proposal of a version
only and any two memberships of a version have an honest member in common
(`memberships_agree`).
-/

namespace TokenHoldem

open Library TableSession

namespace Room

variable {P : Primitives} {room : Room P}

/-- The device of the peer has a seat in the membership. -/
def Seats (confirmed : CertifiedMembership) (peer : room.Peer) : Prop :=
  ∃ seat ∈ confirmed.proposal.proposal.seats, seat.joinIntent.devicePublicKey = room.key peer
deriving Decidable

/-- Before a peer accepts a membership proposal it has accepted no other one of
that version, and when a membership is activated it shares an honest member with
every membership of its version that was activated before. -/
def membershipDiscipline (room : Room P) : Condition room := fun log peer effect =>
  (∀ signed ∈ effect.membershipVote?, ∀ other ∈ votedMemberships (log peer),
      other.proposal.membershipVersion = signed.proposal.membershipVersion →
      other.proposal.proposalHash = signed.proposal.proposalHash) ∧
    ∀ confirmed ∈ effect.membership?, ∀ peer, ∀ other ∈ activatedMemberships (log peer),
      other.proposal.proposal.membershipVersion = confirmed.proposal.proposal.membershipVersion →
      ∃ member : room.Peer, Seats other member ∧ Seats confirmed member

instance instDecidableMembershipDiscipline [Fintype room.Peer] (log : room.Log)
    (peer : room.Peer) (effect : Effect) :
    Decidable (room.membershipDiscipline log peer effect) :=
  inferInstanceAs (Decidable ((∀ _ ∈ effect.membershipVote?, _) ∧ ∀ _ ∈ effect.membership?, _))

/-- Two votes of one peer for one version are for one proposal. -/
def VotesAgree (x y : room.Peer × SignedMembershipProposal) : Prop :=
  x.1 = y.1 → x.2.proposal.membershipVersion = y.2.proposal.membershipVersion →
    x.2.proposal.proposalHash = y.2.proposal.proposalHash

/-- Two memberships of one version are the same or have an honest member in common. -/
def MembershipsMeet (x y : room.Peer × CertifiedMembership) : Prop :=
  x.2.proposal.proposal.membershipVersion = y.2.proposal.proposal.membershipVersion →
    x.2 = y.2 ∨ ∃ member : room.Peer, Seats x.2 member ∧ Seats y.2 member

theorem votes_agree {w : room.World} {network : Network room}
    (h : Reach network room.membershipDiscipline w) :
    Log.Pairwise Effect.membershipVote? VotesAgree (log w) := by
  refine h.by_effects (by nofun) fun log peer effect ih met => ?_
  refine ih.add (fun _ _ _ => rfl) (fun x y hxy hpeer hversion => ?_)
    fun signed hsigned q other hother => ?_
  · exact (hxy hpeer.symm hversion.symm).symm
  · rintro rfl
    exact met.1 signed hsigned other hother

theorem memberships_meet {w : room.World} {network : Network room}
    (h : Reach network room.membershipDiscipline w) :
    Log.Pairwise Effect.membership? MembershipsMeet (log w) := by
  refine h.by_effects (by nofun) fun log peer effect ih met => ?_
  refine ih.add (fun _ _ => .inl rfl) (fun x y hxy hversion => ?_)
    fun confirmed hconfirmed q other hother hversion => ?_
  · rcases hxy hversion.symm with hsame | ⟨member, hx, hy⟩
    · exact .inl hsame.symm
    · exact .inr ⟨member, hy, hx⟩
  · exact .inr (met.2 confirmed hconfirmed q other hother hversion)

/-- In a disciplined run, no two peers ever activate different memberships of
one version. -/
theorem memberships_agree {w : room.World}
    (reached : Reach room.opened room.membershipDiscipline w) (free : CollisionFree (log w))
    {p q : room.Peer} {c d : CertifiedMembership} (hc : c ∈ activatedMemberships (log w p))
    (hd : d ∈ activatedMemberships (log w q))
    (version : c.proposal.proposal.membershipVersion = d.proposal.proposal.membershipVersion) :
    c.proposal.proposal.proposalHash = d.proposal.proposal.proposalHash := by
  have grounded := grounded_of_reach reached
  rcases memberships_meet reached p q c d hc hd version with hsame | ⟨member, hcm, hdm⟩
  · exact congrArg (fun confirmed => confirmed.proposal.proposal.proposalHash) hsame
  · obtain ⟨cseat, hcseat, hckey⟩ := hcm
    obtain ⟨dseat, hdseat, hdkey⟩ := hdm
    -- the member has voted for both, and only once
    have once : VotesOnce membershipSubject {signed | signed ∈ votedMemberships (log w member)} :=
      fun x hx y hy => votes_agree reached member member x y hx hy rfl
    exact once.agree (grounded.membership_vote free hc hcseat hckey)
      (grounded.membership_vote free hd hdseat hdkey) version

/-- Two peers come to sit at one table. -/
def pairScript : List (Turn plainRoom) :=
  [.create 0, .join 1 0, .tick 1 0, .hand 1 0 isJoinIntent 0,
    .tick 0 1000, .hand 0 1 isMembershipProposal 1000,
    .tick 1 2000, .hand 1 0 isMembershipAcceptance 2000,
    .tick 0 3000, .hand 0 1 isCertifiedMembership 3000]

/-- Then both seats run out, at the same time. -/
def forkScript : List (Turn plainRoom) := pairScript ++ [.tick 0 2160000, .tick 1 2160000]

variable (w : plainRoom.World)

/-- The digests of all strings that the peers of the room have hashed. -/
def plainDigests : List Bytes32 :=
  ((List.finRange 4).flatMap fun peer =>
    (log w peer).flatMap (hashedBytes Primitives.plain)).dedup.map Primitives.plain.hash

theorem collisionFree_of_plainDigests {w : plainRoom.World} (h : (plainDigests w).Nodup) :
    CollisionFree (log w) := collisionFree_of_nodup List.mem_finRange h

/-- Two memberships of one version that two peers have activated. -/
def SameVersion (p q : plainRoom.Peer) (c d : CertifiedMembership) : Prop :=
  c ∈ activatedMemberships (log w p) ∧ d ∈ activatedMemberships (log w q) ∧
    c.proposal.proposal.membershipVersion = d.proposal.proposal.membershipVersion

/-- The activated memberships of two peers, in pairs of one version. -/
def versionPairs (p q : plainRoom.Peer) : List (CertifiedMembership × CertifiedMembership) :=
  ((activatedMemberships (log w p)).product (activatedMemberships (log w q))).filter fun pair =>
    pair.1.proposal.proposal.membershipVersion = pair.2.proposal.proposal.membershipVersion

theorem sameVersion_of_mem {w : plainRoom.World} {p q : plainRoom.Peer}
    {pair : CertifiedMembership × CertifiedMembership} (h : pair ∈ versionPairs w p q) :
    SameVersion w p q pair.1 pair.2 := by
  obtain ⟨hmem, hversion⟩ := List.mem_filter.mp h
  obtain ⟨hc, hd⟩ := List.mem_product.mp hmem
  exact ⟨hc, hd, of_decide_eq_true hversion⟩

/-- The pair has agreed on a version without any collision of digests. -/
def pairCheck : Bool :=
  versionPairs w (0 : Fin 4) (1 : Fin 4) ≠ [] ∧ (plainDigests w).Nodup

theorem memberships_agree_pair :
    ∃ (w : plainRoom.World) (p q : plainRoom.Peer) (c d : CertifiedMembership),
      Reach plainRoom.opened plainRoom.membershipDiscipline w ∧ p ≠ q ∧ SameVersion w p q c d ∧
        c.proposal.proposal.proposalHash = d.proposal.proposal.proposalHash := by
  have hplay :
      (play plainRoom.membershipDiscipline plainRoom.start pairScript).any pairCheck = true := by
    decide +kernel
  obtain ⟨w, hreach, hcheck⟩ := exists_reach_of_play hplay
  obtain ⟨hpairs, hdigests⟩ := of_decide_eq_true hcheck
  obtain ⟨pair, hpair⟩ := List.exists_mem_of_ne_nil _ hpairs
  have hsame := sameVersion_of_mem hpair
  exact ⟨w, (0 : Fin 4), (1 : Fin 4), pair.1, pair.2, hreach.opened_of_honest,
    show (0 : Fin 4) ≠ 1 by decide, hsame, memberships_agree hreach.opened_of_honest
      (collisionFree_of_plainDigests hdigests) hsame.1 hsame.2.1 hsame.2.2⟩

/-- The pair has split, without any collision of digests. -/
def forkCheck : Bool :=
  (versionPairs w (0 : Fin 4) (1 : Fin 4)).any (fun pair =>
    pair.1.proposal.proposal.proposalHash ≠ pair.2.proposal.proposal.proposalHash) ∧
    (plainDigests w).Nodup

/-- Two honest peers activate different memberships of one version. Nothing was
forged, no digests collide, and only messages of the two were delivered. -/
theorem memberships_fork :
    ∃ (w : plainRoom.World) (p q : plainRoom.Peer) (c d : CertifiedMembership),
      Reach plainRoom.honest plainRoom.anything w ∧ CollisionFree (log w) ∧ SameVersion w p q c d ∧
        c.proposal.proposal.proposalHash ≠ d.proposal.proposal.proposalHash := by
  have hplay : (play plainRoom.anything plainRoom.start forkScript).any forkCheck = true := by
    decide +kernel
  obtain ⟨w, hreach, hcheck⟩ := exists_reach_of_play hplay
  obtain ⟨hfork, hdigests⟩ := of_decide_eq_true hcheck
  obtain ⟨pair, hpair, hdiffer⟩ := List.any_eq_true.mp hfork
  exact ⟨w, (0 : Fin 4), (1 : Fin 4), pair.1, pair.2, hreach,
    collisionFree_of_plainDigests hdigests, sameVersion_of_mem hpair, of_decide_eq_true hdiffer⟩

end Room

end TokenHoldem
