import TokenHoldem.Domain.Receipt
import TokenHoldem.Identity.Certificate

/-!
# Signed receipts

`token-holdem-identity/src/receipt_signature.rs`: a participant's signature of a
receipt, and the receipt that all participants have signed. What such a receipt
amounts to is proved where it is collected, in `Sidecar.ReceiptAgreement`.
-/

namespace TokenHoldem

open Library

structure ParticipantSignature where
  certificate : DeviceCertificate
  signature : SignatureBytes
deriving DecidableEq

inductive SignedReceiptError where
  | receipt (error : ReceiptError)
  | certificate (error : CertificateError)
  | receiptFromFuture (settledAt now : UInt64)
  | certificateDoesNotMatchDevice
  | playerMissingFromReceipt
  | receiptUsesDifferentDevice
  | unexpectedSigner (playerId : PlayerId)
  | duplicatePlayerSignature (playerId : PlayerId)
  | missingSignatures (expected actual : Nat)
deriving DecidableEq

/-- `signature_message`. -/
def receiptSignatureMessage (receipt : HandReceipt) : Bytes :=
  textBytes "token-holdem/receipt-signature/v1\x00" ++ receipt.canonicalBytes

def validateReceiptTime (receipt : HandReceipt) (now : UInt64) : Except SignedReceiptError Unit :=
  ensure (isSignedTimeNotFuture receipt.settledAtUnixMs now)
    (.receiptFromFuture receipt.settledAtUnixMs now)

namespace ParticipantSignature

variable (P : Primitives)

def playerId (signature : ParticipantSignature) : PlayerId := signature.certificate.playerId

def create (receipt : HandReceipt) (device : DeviceIdentity) (certificate : DeviceCertificate)
    (now : UInt64) : Except SignedReceiptError ParticipantSignature := do
  receipt.validate.mapError .receipt
  (certificate.verifyAt P now).mapError .certificate
  validateReceiptTime receipt now
  (certificate.verifyAt P receipt.settledAtUnixMs).mapError .certificate
  ensure (certificate.devicePublicKey = device.publicKey P) .certificateDoesNotMatchDevice
  let outcome ← okOr .playerMissingFromReceipt (receipt.outcomeFor certificate.playerId)
  ensure (outcome.devicePublicKey = certificate.devicePublicKey) .receiptUsesDifferentDevice
  return { certificate, signature := device.sign P (receiptSignatureMessage receipt) }

def verifyFor (signature : ParticipantSignature) (receipt : HandReceipt) (now : UInt64) :
    Except SignedReceiptError Unit := do
  receipt.validate.mapError .receipt
  validateReceiptTime receipt now
  (signature.certificate.verifyAt P receipt.settledAtUnixMs).mapError .certificate
  let outcome ← okOr (.unexpectedSigner signature.playerId) (receipt.outcomeFor signature.playerId)
  ensure (outcome.devicePublicKey = signature.certificate.devicePublicKey)
    .receiptUsesDifferentDevice
  (signature.certificate.verifyDeviceSignature P (receiptSignatureMessage receipt)
    signature.signature).mapError .certificate

end ParticipantSignature

structure CoSignedReceipt where
  receipt : HandReceipt
  signatures : List ParticipantSignature

namespace CoSignedReceipt

variable (P : Primitives)

/-- The loop of `verify`: the players that have signed. -/
def checkSigners (receipt : HandReceipt) (now : UInt64)
    (expected : Std.TreeMap PlayerId DevicePublicKey) :
    Finset PlayerId → List ParticipantSignature → Except SignedReceiptError (Finset PlayerId)
  | signed, [] => .ok signed
  | signed, participant :: rest => do
    participant.verifyFor P receipt now
    let playerId := participant.playerId
    ensure (playerId ∉ signed) (.duplicatePlayerSignature playerId)
    let device ← okOr (.unexpectedSigner playerId) expected[playerId]?
    ensure (device = participant.certificate.devicePublicKey) .receiptUsesDifferentDevice
    checkSigners receipt now expected (insert playerId signed) rest

def verify (coSigned : CoSignedReceipt) (now : UInt64) : Except SignedReceiptError Unit := do
  coSigned.receipt.validate.mapError .receipt
  let expected : Std.TreeMap PlayerId DevicePublicKey :=
    coSigned.receipt.outcomes.foldl
      (fun map outcome => map.insert outcome.playerId outcome.devicePublicKey) ∅
  let signed ← checkSigners P coSigned.receipt now expected ∅ coSigned.signatures
  ensure (signed.card = expected.size) (.missingSignatures expected.size signed.card)

end CoSignedReceipt

end TokenHoldem
