import Mathlib.Algebra.Group.Nat.Defs
import Mathlib.Algebra.Order.Ring.Nat
import Mathlib.Tactic.Positivity

/-!
# Fixed-width byte encodings

The canonical byte strings that are hashed and signed are concatenations of
fields of known width and of length-prefixed fields. A fixed-width field can be
read back (`beBytes_inj`), so two equal concatenations agree field by field
(`List.append_inj`).
-/

namespace TokenHoldem.Library

/-- A byte string. -/
abbrev Bytes := List UInt8

/-- The last `width` bytes of a number, most significant byte first. -/
def beBytes : Nat → Nat → Bytes
  | 0, _ => []
  | width + 1, value =>
    UInt8.ofNat (value / 256 ^ width) :: beBytes width (value % 256 ^ width)

@[simp] theorem length_beBytes (width value : Nat) : (beBytes width value).length = width := by
  induction width generalizing value with
  | zero => rfl
  | succ width ih => simp [beBytes, ih]

/-- A number that fits can be read back from its bytes. -/
theorem beBytes_inj {width a b : Nat} (ha : a < 256 ^ width) (hb : b < 256 ^ width)
    (hab : beBytes width a = beBytes width b) : a = b := by
  induction width generalizing a b with
  | zero =>
    rw [pow_zero] at ha hb
    omega
  | succ width ih =>
    have hpos : 0 < 256 ^ width := by positivity
    rw [beBytes, beBytes, List.cons.injEq] at hab
    obtain ⟨hhead, htail⟩ := hab
    have hrest : a % 256 ^ width = b % 256 ^ width :=
      ih (Nat.mod_lt _ hpos) (Nat.mod_lt _ hpos) htail
    -- the leading byte is the quotient, which is below 256
    have hlt : ∀ n < 256 ^ (width + 1), n / 256 ^ width < 256 := fun n hn =>
      Nat.div_lt_of_lt_mul (by rwa [← pow_succ])
    have hlead : a / 256 ^ width = b / 256 ^ width := by
      have := congrArg UInt8.toNat hhead
      rwa [UInt8.toNat_ofNat', UInt8.toNat_ofNat', Nat.mod_eq_of_lt (hlt a ha),
        Nat.mod_eq_of_lt (hlt b hb)] at this
    rw [← Nat.div_add_mod a (256 ^ width), ← Nat.div_add_mod b (256 ^ width), hlead, hrest]

/-- `value.to_be_bytes()` of a `u64`. -/
def u64Bytes (value : UInt64) : Bytes := beBytes 8 value.toNat

@[simp] theorem length_u64Bytes (value : UInt64) : (u64Bytes value).length = 8 :=
  length_beBytes 8 _

theorem u64Bytes_inj {a b : UInt64} (hab : u64Bytes a = u64Bytes b) : a = b :=
  UInt64.toNat_inj.mp (beBytes_inj a.toNat_lt b.toNat_lt hab)

/-- `(value as u32).to_be_bytes()`. -/
def u32Bytes (value : Nat) : Bytes := beBytes 4 (value % 2 ^ 32)

@[simp] theorem length_u32Bytes (value : Nat) : (u32Bytes value).length = 4 :=
  length_beBytes 4 _

/-- `write_bytes`: a length prefix and the bytes. -/
def writeBytes (value : Bytes) : Bytes := u32Bytes value.length ++ value

/-- `write_addresses`: a count and the length-prefixed items. -/
def writeAddresses (addresses : List Bytes) : Bytes :=
  u32Bytes addresses.length ++ addresses.flatMap writeBytes

end TokenHoldem.Library
