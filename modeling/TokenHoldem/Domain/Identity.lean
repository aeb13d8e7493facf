import Mathlib.Order.Nat
import Mathlib.Order.Lattice
import Mathlib.Tactic.Positivity

/-!
# Identifiers

`token-holdem-domain/src/identity.rs` declares its 32-byte identifiers with one
macro, `bytes32_identifier!`; here they are one type with a tag. The bytes are
kept as the big-endian number they spell: two byte strings of one length
compare lexicographically exactly as these numbers do, so `Ord` is the order of
the numbers.
-/

namespace TokenHoldem

/-- `[u8; n]`, as the number its bytes spell. -/
structure FixedBytes (n : Nat) where
  val : Nat
  lt : val < 256 ^ n

namespace FixedBytes

variable {n : Nat}

theorem val_injective : Function.Injective (FixedBytes.val : FixedBytes n → Nat) := by
  rintro ⟨a, _⟩ ⟨b, _⟩ h
  simpa using h

instance : LinearOrder (FixedBytes n) := LinearOrder.lift' FixedBytes.val val_injective

/-- The bytes that spell `k`, for a number that fits `n` bytes. -/
def ofNat (k : Nat) : FixedBytes n :=
  ⟨k % 256 ^ n, Nat.mod_lt _ (by positivity)⟩

instance : Inhabited (FixedBytes n) := ⟨ofNat 0⟩

end FixedBytes

/-- `[u8; 32]`: raw digests and keys. -/
abbrev Bytes32 := FixedBytes 32

/-- What a 32-byte identifier names. -/
inductive IdentifierKind where
  | player
  | device
  | table
  | joinClaim
  | poolTicket
  | leaveIntent
  | hand

/-- A 32-byte identifier of one kind. -/
structure Identifier (kind : IdentifierKind) where
  bytes : Bytes32

namespace Identifier

variable {kind : IdentifierKind}

theorem bytes_injective : Function.Injective (Identifier.bytes : Identifier kind → Bytes32) := by
  rintro ⟨a⟩ ⟨b⟩ h
  simpa using h

instance : LinearOrder (Identifier kind) := LinearOrder.lift' Identifier.bytes bytes_injective

instance : Inhabited (Identifier kind) := ⟨⟨default⟩⟩

instance instDecidableMem (id : Identifier kind) (ids : List (Identifier kind)) :
    Decidable (id ∈ ids) := List.instDecidableMemOfLawfulBEq id ids

/-- The identifier whose bytes spell `k`. -/
def ofNat (k : Nat) : Identifier kind := ⟨FixedBytes.ofNat k⟩

end Identifier

abbrev PlayerId := Identifier .player
abbrev DevicePublicKey := Identifier .device
abbrev TableId := Identifier .table
abbrev JoinClaimId := Identifier .joinClaim
abbrev PoolTicketId := Identifier .poolTicket
abbrev LeaveIntentId := Identifier .leaveIntent
abbrev HandId := Identifier .hand

end TokenHoldem
