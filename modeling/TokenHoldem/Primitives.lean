import TokenHoldem.Library.Wire
import TokenHoldem.Domain.Chips
import TokenHoldem.Domain.Identity

/-!
# Third-party primitives

The protocol code calls into libraries whose source is not part of the
repository: blake3, ed25519-dalek and the address types of libp2p. They are the
fields of one structure that every definition takes as a parameter, so what is
proved holds for any such library; what a result needs of them (no collisions,
no forgeries) it states.
-/

namespace TokenHoldem

open Library

/-- `SignatureBytes`: the 64 bytes of an Ed25519 signature. -/
abbrev SignatureBytes := FixedBytes 64

/-- `libp2p::PeerId`. The code only compares peer ids and looks them up in
ordered maps. -/
structure PeerId where
  index : Nat

namespace PeerId

theorem index_injective : Function.Injective PeerId.index := by
  rintro ⟨a⟩ ⟨b⟩ h
  simpa using h

instance instLinearOrder : LinearOrder PeerId := LinearOrder.lift' PeerId.index index_injective

instance instDecidableMem (peerId : PeerId) (peers : List PeerId) : Decidable (peerId ∈ peers) :=
  List.instDecidableMemOfLawfulBEq peerId peers

end PeerId

/-- `libp2p::multiaddr::Protocol`, with the components the code tells apart. -/
inductive Protocol where
  | p2p (peerId : PeerId)
  | p2pCircuit
  | tcp (port : UInt16)
  /-- `Dns`, `Dns4`, `Dns6` and `Dnsaddr`, which are never told apart. -/
  | dns (name : String)
  | ip4 (a b c d : UInt8)
  | ip6 (octets : FixedBytes 16)
  | other (code : Nat)
deriving DecidableEq

/-- `libp2p::Multiaddr`. -/
abbrev Multiaddr := List Protocol

structure Primitives where
  /-- `blake3::hash`. -/
  hash : Bytes → Bytes32
  /-- `SigningKey::from_bytes(seed).verifying_key()`. -/
  verifyingKey : Bytes32 → Bytes32
  /-- `SigningKey::from_bytes(seed).sign(message)`. -/
  sign : Bytes32 → Bytes → SignatureBytes
  /-- Whether `VerifyingKey::from_bytes` accepts the bytes. -/
  validKey : Bytes32 → Bool
  /-- Whether `key.verify(message, signature)` succeeds. -/
  verifies : Bytes32 → Bytes → SignatureBytes → Bool
  /-- `PeerId::from_bytes`. -/
  peerIdFromBytes : Bytes → Option PeerId
  /-- `PeerId::to_bytes`. -/
  peerIdToBytes : PeerId → Bytes
  /-- `Multiaddr::try_from`. -/
  multiaddr : Bytes → Option Multiaddr

namespace Primitives

/-- A signature verifies under the key of the seed it was made with. -/
def SignaturesVerify (P : Primitives) : Prop :=
  ∀ seed message, P.validKey (P.verifyingKey seed) = true ∧
    P.verifies (P.verifyingKey seed) message (P.sign seed message) = true

/-- A digest for runs of the model: the number that the bytes spell to base 257. -/
def plainHash (bytes : Bytes) : Bytes32 :=
  FixedBytes.ofNat (bytes.foldl (fun number byte => number * 257 + byte.toNat + 1) 1)

/-- Primitives to run the model with. A signature is the digest and the key, a
peer id and its address are one byte. -/
def plain : Primitives where
  hash := plainHash
  verifyingKey := id
  sign seed message := FixedBytes.ofNat ((plainHash message).val * 256 ^ 32 + seed.val)
  validKey _ := true
  verifies key message signature := signature.val = (plainHash message).val * 256 ^ 32 + key.val
  peerIdFromBytes
    | [byte] => some ⟨byte.toNat⟩
    | _ => none
  peerIdToBytes peerId := [UInt8.ofNat peerId.index]
  multiaddr
    | [byte] => some [.tcp 1, .p2p ⟨byte.toNat⟩]
    | _ => none

theorem plain_signaturesVerify : plain.SignaturesVerify := by
  intro seed message
  refine ⟨rfl, ?_⟩
  have hhash := (plainHash message).lt
  have hseed := seed.lt
  have hfits : (plainHash message).val * 256 ^ 32 + seed.val < 256 ^ 64 := by omega
  simp only [plain, decide_eq_true_eq, FixedBytes.ofNat, Nat.mod_eq_of_lt hfits, id]

end Primitives

namespace FixedBytes

variable {n : Nat}

/-- The bytes themselves. -/
def toBytes (bytes : FixedBytes n) : Bytes := beBytes n bytes.val

@[simp] theorem length_toBytes (bytes : FixedBytes n) : bytes.toBytes.length = n :=
  length_beBytes n _

theorem toBytes_injective : Function.Injective (toBytes : FixedBytes n → Bytes) := by
  intro a b h
  exact val_injective (beBytes_inj a.lt b.lt h)

end FixedBytes

namespace Identifier

variable {kind : IdentifierKind}

/-- `id.as_bytes()`. -/
def asBytes (id : Identifier kind) : Bytes := id.bytes.toBytes

@[simp] theorem length_asBytes (id : Identifier kind) : id.asBytes.length = 32 :=
  FixedBytes.length_toBytes _

theorem asBytes_injective : Function.Injective (asBytes : Identifier kind → Bytes) :=
  FixedBytes.toBytes_injective.comp bytes_injective

end Identifier

/-- The bytes of a text: a byte-string literal or `text.as_bytes()`. -/
def textBytes (text : String) : Bytes := text.toUTF8.data.toList

/-- `write_optional_hash`. -/
def optionalHashBytes : Option Bytes32 → Bytes
  | some hash => 1 :: hash.toBytes
  | none => [0]

namespace Chips

/-- `amount.value().to_be_bytes()`. -/
def toBytes (amount : Chips) : Bytes := beBytes 8 amount.value

end Chips

end TokenHoldem
