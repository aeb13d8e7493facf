import TokenHoldem.Library.PrefixCode
import TokenHoldem.Primitives

/-!
# The fields of canonical bytes

What is hashed and signed is written field by field. Each kind of field is a prefix
code, so equal bytes have equal fields.
-/

namespace TokenHoldem

open Library

theorem textBytes_injective : Function.Injective textBytes := by
  intro a b hab
  have hdata : a.toUTF8.data = b.toUTF8.data := Array.toList_inj.mp hab
  exact String.toByteArray_inj.mp (ByteArray.ext hdata)

theorem chipsCode : PrefixCode (fun _ => True) Chips.toBytes :=
  (PrefixCode.beBytes 8).comap (fun _ _ _ _ => Chips.ext) fun amount _ => amount.lt

theorem u64Code : PrefixCode (fun _ => True) u64Bytes :=
  .of_length length_u64Bytes fun _ _ _ _ => u64Bytes_inj

theorem u32Code : PrefixCode (· < 2 ^ 32) u32Bytes := by
  intro a b ha hb s t heq
  unfold u32Bytes at heq
  rw [Nat.mod_eq_of_lt ha, Nat.mod_eq_of_lt hb] at heq
  exact PrefixCode.beBytes 4 ha hb heq

theorem fixedBytesCode {n : Nat} :
    PrefixCode (fun _ => True) (FixedBytes.toBytes : FixedBytes n → Bytes) :=
  .of_length FixedBytes.length_toBytes fun _ _ _ _ h => FixedBytes.toBytes_injective h

theorem identifierCode {kind : IdentifierKind} :
    PrefixCode (fun _ => True) (Identifier.asBytes : Identifier kind → Bytes) :=
  .of_length Identifier.length_asBytes fun _ _ _ _ h => Identifier.asBytes_injective h

/-- Bytes behind their length in four bytes. -/
theorem writtenBytesCode : PrefixCode (fun bytes : Bytes => bytes.length < 2 ^ 32) writeBytes :=
  u32Code.prefixed

/-- A text behind its length in four bytes. -/
theorem writtenTextCode : PrefixCode (fun text : String => (textBytes text).length < 2 ^ 32)
    fun text => writeBytes (textBytes text) :=
  writtenBytesCode.comap (fun _ _ _ _ => @textBytes_injective _ _) fun _ h => h

end TokenHoldem
