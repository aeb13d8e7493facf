import TokenHoldem.Domain.Card
import TokenHoldem.Library.Checked
import TokenHoldem.Primitives

/-!
# Mental poker

`token-holdem-mental-poker/src/lib.rs`: the adapter between the network messages
and the `ziffle` crate, whose source is not part of the repository. `Ziffle` is
the interface the adapter uses; the adapter decodes a message, lets the library
verify it and passes on what was verified.

A draw from the system's random generator is a value of type `Seed` that the
caller supplies.
-/

namespace TokenHoldem

open Library

def standardDeckSize : Nat := 52

/-! ## The library -/

/-- A type with a compressed encoding: `read` returns the value and the bytes it
has not used. -/
structure Encoded where
  Carrier : Type
  write : Carrier → Bytes
  read : Bytes → Option (Carrier × Bytes)

instance instCoeSortEncoded : CoeSort Encoded Type := ⟨Encoded.Carrier⟩

/-- What the adapter uses of `ziffle`, for a deck of 52 cards. A verified value
exists only as the result of a verification. -/
structure Ziffle where
  Seed : Type
  SecretKey : Type
  PublicKey : Encoded
  OwnershipProof : Encoded
  VerifiedPublicKey : Type
  AggregatePublicKey : Type
  MaskedDeck : Encoded
  ShuffleProof : Encoded
  VerifiedMaskedDeck : Type
  MaskedCard : Type
  RevealToken : Encoded
  RevealTokenProof : Encoded
  VerifiedRevealToken : Type
  keygen : Seed → Bytes → SecretKey × PublicKey × OwnershipProof
  verifyOwnership : OwnershipProof → PublicKey → Bytes → Option VerifiedPublicKey
  aggregatePublicKey : List VerifiedPublicKey → AggregatePublicKey
  shuffleInitialDeck : Seed → AggregatePublicKey → Bytes → MaskedDeck × ShuffleProof
  verifyInitialShuffle :
    AggregatePublicKey → MaskedDeck → ShuffleProof → Bytes → Option VerifiedMaskedDeck
  shuffleDeck : Seed → AggregatePublicKey → VerifiedMaskedDeck → Bytes → MaskedDeck × ShuffleProof
  verifyShuffle : AggregatePublicKey → VerifiedMaskedDeck → MaskedDeck → ShuffleProof → Bytes →
    Option VerifiedMaskedDeck
  /-- A deck is an array of its masked cards. -/
  card : VerifiedMaskedDeck → Fin standardDeckSize → MaskedCard
  revealToken : Seed → MaskedCard → SecretKey → PublicKey → Bytes → RevealToken × RevealTokenProof
  verifyReveal : RevealTokenProof → VerifiedPublicKey → RevealToken → MaskedCard → Bytes →
    Option VerifiedRevealToken
  /-- `AggregateRevealToken::new` and `Shuffle::reveal_card`. -/
  revealCard : List VerifiedRevealToken → MaskedCard → Option Nat

namespace Ziffle

/-- `MaskedDeck::get`. -/
def get (Z : Ziffle) (deck : Z.VerifiedMaskedDeck) (index : Nat) : Option Z.MaskedCard :=
  if h : index < standardDeckSize then some (Z.card deck ⟨index, h⟩) else none

end Ziffle

/-! ## Messages -/

structure KeyAnnouncement where
  publicKey : Bytes
  ownershipProof : Bytes
deriving DecidableEq

structure ShufflePacket where
  deck : Bytes
  proof : Bytes
deriving DecidableEq

structure RevealSharePacket where
  token : Bytes
  proof : Bytes
deriving DecidableEq

/-- `MentalPokerError`, without the texts of the encoding library. -/
inductive MentalPokerError where
  | contextTooShort
  | notEnoughParticipants
  | serialization
  | trailingBytes (count : Nat)
  | invalidOwnershipProof
  | invalidShuffleProof
  | invalidRevealProof
  | cardIndexOutOfRange (index : Nat)
  | missingRevealShares (expected actual : Nat)
  | unableToRevealCard
  | invalidRevealedCard (index : Nat)
deriving DecidableEq

def deserialize (E : Encoded) (bytes : Bytes) : Except MentalPokerError E := do
  let (value, remaining) ← okOr .serialization (E.read bytes)
  ensure (remaining = []) (.trailingBytes remaining.length)
  return value

/-! ## The engine -/

structure PlayerKeyMaterial (Z : Ziffle) where
  secretKey : Z.SecretKey
  publicKey : Z.PublicKey
  announcement : KeyAnnouncement

structure VerifiedDeck (Z : Ziffle) where
  deck : Z.VerifiedMaskedDeck
  encoded : Bytes

/-- `MentalPokerEngine`; the shuffle it holds has no state of its own. -/
structure MentalPokerEngine where
  context : Bytes

namespace MentalPokerEngine

def new (context : Bytes) : Except MentalPokerError MentalPokerEngine := do
  ensure (16 ≤ context.length) .contextTooShort
  return { context }

variable (Z : Ziffle) (engine : MentalPokerEngine)

variable (seed : Z.Seed)

/-- `PlayerKeyMaterial::generate`. -/
def generateKeys : PlayerKeyMaterial Z :=
  let (secretKey, publicKey, proof) := Z.keygen seed engine.context
  { secretKey, publicKey,
    announcement :=
      { publicKey := Z.PublicKey.write publicKey
        ownershipProof := Z.OwnershipProof.write proof } }

def verifyKeyAnnouncement (announcement : KeyAnnouncement) :
    Except MentalPokerError Z.VerifiedPublicKey := do
  let publicKey ← deserialize Z.PublicKey announcement.publicKey
  let proof ← deserialize Z.OwnershipProof announcement.ownershipProof
  okOr .invalidOwnershipProof (Z.verifyOwnership proof publicKey engine.context)

def aggregateKey (participants : List Z.VerifiedPublicKey) :
    Except MentalPokerError Z.AggregatePublicKey := do
  ensure (2 ≤ participants.length) .notEnoughParticipants
  return Z.aggregatePublicKey participants

/-- The packet of a deck and its proof. -/
def shufflePacket (shuffled : Z.MaskedDeck × Z.ShuffleProof) : ShufflePacket where
  deck := Z.MaskedDeck.write shuffled.1
  proof := Z.ShuffleProof.write shuffled.2

def initialShuffle (aggregateKey : Z.AggregatePublicKey) : ShufflePacket :=
  shufflePacket Z (Z.shuffleInitialDeck seed aggregateKey engine.context)

def reshuffle (aggregateKey : Z.AggregatePublicKey) (previous : VerifiedDeck Z) : ShufflePacket :=
  shufflePacket Z (Z.shuffleDeck seed aggregateKey previous.deck engine.context)

/-- What `verify_initial_shuffle` and `verify_reshuffle` share: the packet is
decoded, and the deck kept once the proof is verified. -/
def verifyPacket (packet : ShufflePacket)
    (verify : Z.MaskedDeck → Z.ShuffleProof → Option Z.VerifiedMaskedDeck) :
    Except MentalPokerError (VerifiedDeck Z) := do
  let deck ← deserialize Z.MaskedDeck packet.deck
  let proof ← deserialize Z.ShuffleProof packet.proof
  let verified ← okOr .invalidShuffleProof (verify deck proof)
  return { deck := verified, encoded := packet.deck }

def verifyInitialShuffle (aggregateKey : Z.AggregatePublicKey) (packet : ShufflePacket) :
    Except MentalPokerError (VerifiedDeck Z) :=
  verifyPacket Z packet fun deck proof =>
    Z.verifyInitialShuffle aggregateKey deck proof engine.context

def verifyReshuffle (aggregateKey : Z.AggregatePublicKey) (previous : VerifiedDeck Z)
    (packet : ShufflePacket) : Except MentalPokerError (VerifiedDeck Z) :=
  verifyPacket Z packet fun deck proof =>
    Z.verifyShuffle aggregateKey previous.deck deck proof engine.context

variable (deck : VerifiedDeck Z)

variable (cardIndex : Nat)

def createRevealShare (player : PlayerKeyMaterial Z) :
    Except MentalPokerError RevealSharePacket := do
  let card ← okOr (.cardIndexOutOfRange cardIndex) (Z.get deck.deck cardIndex)
  let (token, proof) :=
    Z.revealToken seed card player.secretKey player.publicKey engine.context
  return { token := Z.RevealToken.write token, proof := Z.RevealTokenProof.write proof }

def verifyRevealShare (participantKey : Z.VerifiedPublicKey) (packet : RevealSharePacket) :
    Except MentalPokerError Z.VerifiedRevealToken := do
  let card ← okOr (.cardIndexOutOfRange cardIndex) (Z.get deck.deck cardIndex)
  let token ← deserialize Z.RevealToken packet.token
  let proof ← deserialize Z.RevealTokenProof packet.proof
  okOr .invalidRevealProof (Z.verifyReveal proof participantKey token card engine.context)

def revealCard (deck : VerifiedDeck Z) (cardIndex : Nat) (shares : List Z.VerifiedRevealToken)
    (participantCount : Nat) : Except MentalPokerError Nat := do
  ensure (shares.length = participantCount) (.missingRevealShares participantCount shares.length)
  let card ← okOr (.cardIndexOutOfRange cardIndex) (Z.get deck.deck cardIndex)
  okOr .unableToRevealCard (Z.revealCard shares card)

def revealHoldemCard (shares : List Z.VerifiedRevealToken) (participantCount : Nat) :
    Except MentalPokerError Card := do
  let revealed ← revealCard Z deck cardIndex shares participantCount
  ensure (revealed < 256) (.invalidRevealedCard revealed)
  okOr (.invalidRevealedCard revealed) (Card.fromDeckIndex (UInt8.ofNat revealed))

variable {Z} {engine}

/-- A share is created for the cards of the deck only. -/
theorem createRevealShare_eq_ok {seed : Z.Seed} {deck : VerifiedDeck Z} {cardIndex : Nat}
    {player : PlayerKeyMaterial Z} {packet : RevealSharePacket}
    (h : engine.createRevealShare Z seed deck cardIndex player = .ok packet) :
    cardIndex < standardDeckSize := by
  obtain ⟨card, hcard, -⟩ := okOr_bind_eq_ok.mp h
  unfold Ziffle.get at hcard
  split at hcard
  · assumption
  · cases hcard

theorem exists_createRevealShare (seed : Z.Seed) (deck : VerifiedDeck Z) {cardIndex : Nat}
    (player : PlayerKeyMaterial Z) (h : cardIndex < standardDeckSize) :
    ∃ packet, engine.createRevealShare Z seed deck cardIndex player = .ok packet := by
  unfold createRevealShare Ziffle.get
  rw [dif_pos h]
  exact ⟨_, rfl⟩

end MentalPokerEngine

/-! ## The transcript -/

/-- `ProtocolTranscript`, by the bytes its hasher has been fed. -/
structure ProtocolTranscript where
  fed : Bytes

namespace ProtocolTranscript

/-- `ProtocolTranscript::default`. -/
def empty : ProtocolTranscript := ⟨textBytes "token-holdem/mental-poker-transcript/v1\x00"⟩

variable (transcript : ProtocolTranscript)

def appendParts (eventType : Bytes) (parts : List Bytes) : ProtocolTranscript :=
  ⟨transcript.fed ++ writeBytes eventType ++ parts.flatMap writeBytes⟩

def appendKey (announcement : KeyAnnouncement) : ProtocolTranscript :=
  transcript.appendParts (textBytes "key") [announcement.publicKey, announcement.ownershipProof]

def appendShuffle (packet : ShufflePacket) : ProtocolTranscript :=
  transcript.appendParts (textBytes "shuffle") [packet.deck, packet.proof]

def appendRevealShare (packet : RevealSharePacket) : ProtocolTranscript :=
  transcript.appendParts (textBytes "reveal") [packet.token, packet.proof]

def hash (P : Primitives) (transcript : ProtocolTranscript) : Bytes32 := P.hash transcript.fed

end ProtocolTranscript

end TokenHoldem
