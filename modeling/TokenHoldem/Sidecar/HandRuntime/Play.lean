import TokenHoldem.Sidecar.HandRuntime.Runtime
import TokenHoldem.Sidecar.TableSession.World

/-!
# A hand to run

Primitives with which the model of the hand runs, a table for two, and scripts of
calls. `handRun_of_play` turns a script that has been played into a run, so that
what happens in it can be checked by evaluation.
-/

namespace TokenHoldem

open Library HandPrimitives

variable {L : HandPrimitives}

/-! ## Scripts -/

/-- A call of a script, chosen by the state in which it is made. -/
abbrev HandTurn (L : HandPrimitives) := ActiveHand L.ziffle → HandCommand L.ziffle

/-- The calls of a script, one after the other. -/
def playTurns (L : HandPrimitives) (s : TracedHand L.ziffle) :
    List (HandTurn L) → TracedHand L.ziffle
  | [] => s
  | turn :: rest =>
    let called := (turn s.active).after L s.active
    playTurns L { active := called.active, trace := s.trace ++ called.trace } rest

/-- A hand that is started and played by a script. -/
def playHand (L : HandPrimitives) (table : ReadyTable) (seed : L.ziffle.Seed)
    (execution : HandExecutionContext L.ziffle) (turns : List (HandTurn L)) :
    Option (TracedHand L.ziffle) :=
  match initialHand L table seed with
  | .error _ => none
  | .ok active =>
    match (beginHand L execution).run { active, trace := [] } with
    | .error _ _ => none
    | .ok _ started => some (playTurns L started turns)

variable {table : ReadyTable} {s : TracedHand L.ziffle}
  {turns : List (HandTurn L)} {execution : HandExecutionContext L.ziffle}

theorem handRun_of_playTurns (h : HandRun L table s.trace s.active) :
    HandRun L table (playTurns L s turns).trace (playTurns L s turns).active := by
  induction turns generalizing s with
  | nil => exact h
  | cons turn rest ih => exact ih (h.call (turn s.active))

theorem handRun_of_play {seed : L.ziffle.Seed}
    (h : playHand L table seed execution turns = some s) :
    HandRun L table s.trace s.active := by
  unfold playHand at h
  split at h
  · exact nomatch h
  next active hinitial =>
    split at h
    · exact nomatch h
    next started hbegin =>
      cases h
      exact handRun_of_playTurns (.start hinitial hbegin)

/-- A script that has been checked reaches a state in which the check holds. -/
theorem exists_handRun_of_play {seed : L.ziffle.Seed}
    {check : TracedHand L.ziffle → Bool}
    (h : (playHand L table seed execution turns).any check = true) :
    ∃ s, HandRun L table s.trace s.active ∧ check s = true := by
  cases hplay : playHand L table seed execution turns with
  | none => simp [hplay] at h
  | some s =>
    rw [hplay] at h
    exact ⟨s, handRun_of_play hplay, h⟩

/-! ## Primitives to run a hand with -/

/-- A type with one value, and an empty encoding. -/
def Encoded.blank : Encoded where
  Carrier := Unit
  write _ := []
  read bytes := some ((), bytes)

/-- A library in which every proof verifies and the deck stays in order. -/
def Ziffle.plain : Ziffle where
  Seed := Unit
  SecretKey := Unit
  PublicKey := .blank
  OwnershipProof := .blank
  VerifiedPublicKey := Unit
  AggregatePublicKey := Unit
  MaskedDeck := .blank
  ShuffleProof := .blank
  VerifiedMaskedDeck := Unit
  MaskedCard := Nat
  RevealToken := .blank
  RevealTokenProof := .blank
  VerifiedRevealToken := Unit
  keygen _ _ := ((), (), ())
  verifyOwnership _ _ _ := some ()
  aggregatePublicKey _ := ()
  shuffleInitialDeck _ _ _ := ((), ())
  verifyInitialShuffle _ _ _ _ := some ()
  shuffleDeck _ _ _ _ := ((), ())
  verifyShuffle _ _ _ _ _ := some ()
  card _ index := index.val
  revealToken _ _ _ _ _ := ((), ())
  verifyReveal _ _ _ _ _ := some ()
  revealCard _ card := some card

/-- An action is written as what it signs and its signature. -/
def HandPrimitives.plain : HandPrimitives where
  toPrimitives := .plain
  ziffle := .plain
  cborAction action := action.canonicalUnsignedBytes ++ action.attestation.signature.toBytes

/-! ## A table for two -/

/-- The certificate of the player at a seat. -/
def seatCertificate (index : Nat) : DeviceCertificate := Room.plainCertificate (index + 1)

/-- The context of a call at a seat, some milliseconds after the beginning. -/
def seatExecution (index elapsed : Nat) : HandExecutionContext Ziffle.plain where
  nowUnixMs := Room.plainEpoch + UInt64.ofNat elapsed
  device := ⟨FixedBytes.ofNat (index + 1)⟩
  certificate := seatCertificate index
  draws := { shuffle := (), holeShare := fun _ => (), publicShare := fun _ => () }

/-- The table of two players with these buy-ins, seen from one of them. -/
def pairTable (level : StakeLevel) (buyIns : List Chips) (localSeat : Nat) : ReadyTable where
  tableId := Identifier.ofNat 77
  rosterHash := FixedBytes.ofNat 5
  handNumber := 1
  level := level
  localSeat := localSeat
  dealerIndex := 0
  physicalSeats := [1, 2]
  players := [(seatCertificate 0).playerId, (seatCertificate 1).playerId]
  devicePublicKeys := [(seatCertificate 0).devicePublicKey, (seatCertificate 1).devicePublicKey]
  peerIds := [⟨1⟩, ⟨2⟩]
  peerAddresses := [[], []]
  buyIns := buyIns

variable (elapsed : Nat)

/-- A public message of the other seat. -/
def HandTurn.hear (message : HandScope → HandPublicMessage) :
    HandTurn plain := fun active =>
  .publicMessage (seatExecution 0 elapsed) (some ⟨2⟩) (message active.scope)

/-- The share of the other seat for a hole card of the local one. -/
def HandTurn.holeShare (cardIndex : UInt8) : HandTurn plain :=
  fun active => .privateMessage (seatExecution 0 elapsed) ⟨2⟩
    { scope := active.scope, fromSeat := 2, toSeat := 1, cardIndex, packet := ⟨[], []⟩ }

/-- The other seat deals, as seen from seat 1: its key, its shuffle, its shares and its
readiness. -/
def dealTurns : List (HandTurn plain) :=
  [.hear 1 fun scope => .keyAnnouncement scope 2 ⟨[], []⟩,
    .hear 2 fun scope => .shuffle scope 2 ⟨[], []⟩, .holeShare 3 0, .holeShare 4 1,
    .hear 5 fun scope => .dealReady scope 2]

/-- The local player acts. -/
def HandTurn.act (action : PlayerAction) : HandTurn plain :=
  fun active => .submitAction (seatExecution 0 elapsed)
    { tableId := active.table.tableId, handNumber := active.handNumber
      sequence := active.sequence
      publicStateHash := ((active.publicStateHash .plain).toOption).getD (FixedBytes.ofNat 0) }
    action

/-- An action of the other seat, signed at the given time for the state it meets. -/
def remoteAction (active : ActiveHand Ziffle.plain) (issuedAt : UInt64) (action : PlayerAction) :
    Option SignedHandAction :=
  match active.publicStateHash .plain with
  | .error _ => none
  | .ok stateHash =>
    (SignedHandAction.issue .plain active.scope (active.sequence + 1) stateHash 2 action issuedAt
      ⟨FixedBytes.ofNat 2⟩ (seatCertificate 1)).toOption

/-- The other player acts. -/
def HandTurn.hearAction (issuedAt : UInt64) (action : PlayerAction) :
    HandTurn plain := fun active =>
  match remoteAction active issuedAt action with
  | none => .requestSafeLeave
  | some signed => .publicMessage (seatExecution 0 elapsed) (some ⟨2⟩)
      (.actionCommitted active.scope (active.sequence + 1) signed)

/-- The share of the other seat for a public card. -/
def HandTurn.share (cardIndex : UInt8) : HandTurn plain :=
  .hear elapsed fun scope => .communityRevealShare scope 2 cardIndex ⟨[], []⟩

end TokenHoldem
