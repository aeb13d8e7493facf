import TokenHoldem.Network.Hand

/-!
# Consensus on a receipt

`token-holdem-sidecar/src/receipt_runtime.rs`: a peer collects the signatures of
all participants for the one receipt it has formed itself.
-/

namespace TokenHoldem

open Library

/-- The errors of the sidecar's hand code: a text of its own, a text put before
another error, or an error of one of the crates below. -/
inductive HandError where
  | message (text : String)
  | context (text : String) (cause : HandError)
  | mentalPoker (error : MentalPokerError)
  | holdem (error : HoldemError)
  | action (error : SignedHandActionError)
  | receipt (error : ReceiptError)
  | signature (error : SignedReceiptError)
  /-- `玩家 {player_id} 提交了冲突结算签名`. -/
  | conflictingSignature (playerId : PlayerId)
deriving DecidableEq

/-- `result.context(text)` for an error of one of the crates. -/
def withContext {ε α : Type} (text : String) (wrap : ε → HandError) (result : Except ε α) :
    Except HandError α :=
  result.mapError fun error => .context text (wrap error)

@[simp] theorem withContext_eq_ok {ε α : Type} {text : String} {wrap : ε → HandError}
    {result : Except ε α} {a : α} : withContext text wrap result = .ok a ↔ result = .ok a :=
  mapError_eq_ok_iff

structure ReceiptConsensus where
  receipt : HandReceipt
  signatures : Std.TreeMap PlayerId ParticipantSignature
  finalized : Bool

namespace ReceiptConsensus

variable (P : Primitives)

def start (receipt : HandReceipt) (device : DeviceIdentity) (certificate : DeviceCertificate)
    (now : UInt64) : Except HandError (ReceiptConsensus × ParticipantSignature) := do
  let signature ← withContext "无法签署本手牌结算凭证" .signature
    (ParticipantSignature.create P receipt device certificate now)
  return ({ receipt, signatures := (∅ : Std.TreeMap _ _).insert signature.playerId signature,
            finalized := false }, signature)

/-- `ReceiptConsensus::accept`: the new state, and whether the signature is new. -/
def accept (consensus : ReceiptConsensus) (receipt : HandReceipt)
    (signature : ParticipantSignature) (now : UInt64) :
    Except HandError (ReceiptConsensus × Bool) := do
  ensure (receipt = consensus.receipt) (.message "收到与本地结算不一致的冲突凭证")
  withContext "参与者结算签名无效" .signature (signature.verifyFor P receipt now)
  match consensus.signatures[signature.playerId]? with
  | some existing =>
    ensure (existing = signature) (.conflictingSignature signature.playerId)
    return (consensus, false)
  | none =>
    return ({ consensus with
      signatures := consensus.signatures.insert signature.playerId signature }, true)

/-- `ReceiptConsensus::try_finalize`: the receipt once every participant has signed. -/
def tryFinalize (consensus : ReceiptConsensus) (now : UInt64) :
    Except HandError (ReceiptConsensus × Option CoSignedReceipt) := do
  if consensus.finalized ∨ consensus.signatures.size ≠ consensus.receipt.outcomes.length then
    return (consensus, none)
  else
    let receipt : CoSignedReceipt :=
      { receipt := consensus.receipt, signatures := values consensus.signatures }
    withContext "全桌联合签名凭证验证失败" .signature (receipt.verify P now)
    return ({ consensus with finalized := true }, some receipt)

/-! ## What the methods return -/

variable {P}

variable {consensus next : ReceiptConsensus}

/-- A signature is accepted for the own receipt, and it is new or known. -/
theorem accept_eq_ok {receipt : HandReceipt} {signature : ParticipantSignature} {now : UInt64}
    {inserted : Bool} (h : consensus.accept P receipt signature now = .ok (next, inserted)) :
    receipt = consensus.receipt ∧ signature.verifyFor P consensus.receipt now = .ok () ∧
      (consensus.signatures[signature.playerId]? = some signature ∧ next = consensus ∨
        consensus.signatures[signature.playerId]? = none ∧ next = { consensus with
          signatures := consensus.signatures.insert signature.playerId signature }) := by
  unfold accept at h
  obtain ⟨rfl, h⟩ := ensure_bind_eq_ok.mp h
  obtain ⟨hverified, h⟩ := unit_bind_eq_ok.mp h
  refine ⟨rfl, withContext_eq_ok.mp hverified, ?_⟩
  split at h
  next existing hexisting =>
    obtain ⟨heq, h⟩ := ensure_bind_eq_ok.mp h
    obtain ⟨rfl, -⟩ := Prod.mk.inj (Except.ok.inj h)
    exact .inl ⟨heq ▸ hexisting, rfl⟩
  next hnone =>
    obtain ⟨rfl, -⟩ := Prod.mk.inj (Except.ok.inj h)
    exact .inr ⟨hnone, rfl⟩

/-- Either signatures are missing and nothing changes, or the receipt is complete and
verifies. -/
theorem tryFinalize_eq_ok {now : UInt64} {result : Option CoSignedReceipt}
    (h : consensus.tryFinalize P now = .ok (next, result)) :
    result = none ∧ next = consensus ∨ ∃ coSigned, result = some coSigned ∧
        coSigned = ⟨consensus.receipt, values consensus.signatures⟩ ∧
        coSigned.verify P now = .ok () ∧ next = { consensus with finalized := true } := by
  unfold tryFinalize at h
  split at h
  · obtain ⟨rfl, rfl⟩ := Prod.mk.inj (Except.ok.inj h)
    exact .inl ⟨rfl, rfl⟩
  · obtain ⟨hverified, hresult⟩ := unit_bind_eq_ok.mp h
    obtain ⟨rfl, rfl⟩ := Prod.mk.inj (Except.ok.inj hresult)
    exact .inr ⟨_, rfl, rfl, withContext_eq_ok.mp hverified, rfl⟩

end ReceiptConsensus

end TokenHoldem
