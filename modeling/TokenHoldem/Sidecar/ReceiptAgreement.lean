import TokenHoldem.Domain.ReceiptForm
import TokenHoldem.Sidecar.ReceiptRuntime
import TokenHoldem.Sidecar.TableSession.World

/-!
# What a consensus on a receipt amounts to

A peer starts a consensus with its own signature and accepts the signatures of the
others in the order in which they arrive, valid and invalid ones, some of them twice
and some of them made for another receipt.

- `CoSignedReceipt.verify_eq_ok_iff`: a co-signed receipt verifies exactly when the
  receipt is valid and as many different participants have signed it as it names.
- `receipt_consensus_exact`: after any such calls the receipt is co-signed exactly
  when every participant has signed, and the result depends on the accepted
  signatures only.
-/

namespace TokenHoldem

open Library List HandReceipt

variable {P : Primitives}

/-! ## The verifier -/

variable {receipt : HandReceipt} {signature : ParticipantSignature}

theorem HandReceipt.nodup_playerId (valid : receipt.validate = .ok ()) :
    (receipt.outcomes.map HandOutcome.playerId).Nodup := by
  rw [Nodup, pairwise_map]
  exact (sorted_of_validate valid).2.2.2.imp fun h => ne_of_lt h

/-- A signature that verifies is one of the device that the receipt names for its player. -/
theorem ParticipantSignature.outcome_of_verifyFor {now : UInt64}
    (h : signature.verifyFor P receipt now = .ok ()) :
    receipt.validate = .ok () ∧ ∃ outcome, receipt.outcomeFor signature.playerId = some outcome ∧
      outcome.devicePublicKey = signature.certificate.devicePublicKey := by
  unfold verifyFor at h
  obtain ⟨hvalid, h⟩ := unit_bind_eq_ok.mp h
  obtain ⟨-, h⟩ := unit_bind_eq_ok.mp h
  obtain ⟨-, h⟩ := unit_bind_eq_ok.mp h
  obtain ⟨outcome, houtcome, h⟩ := okOr_bind_eq_ok.mp h
  obtain ⟨hdevice, -⟩ := ensure_bind_eq_ok.mp h
  exact ⟨mapError_eq_ok_iff.mp hvalid, outcome, houtcome, hdevice⟩

/-- The device is the one of the outcome that the receipt has for the signer. -/
theorem ParticipantSignature.device_of_verifyFor {now : UInt64} {outcome : HandOutcome}
    (houtcome : outcome ∈ receipt.outcomes) (hplayer : signature.playerId = outcome.playerId)
    (h : signature.verifyFor P receipt now = .ok ()) :
    signature.certificate.devicePublicKey = outcome.devicePublicKey := by
  obtain ⟨hvalid, found, hfound, hdevice⟩ := outcome_of_verifyFor h
  obtain ⟨hmem, hsame⟩ := outcomeFor_eq_some hfound
  have heq := inj_on_of_nodup_map (nodup_playerId hvalid) hmem houtcome (hsame.trans hplayer)
  rw [← hdevice, heq]

namespace CoSignedReceipt

/-- The loop of `verify`, with the devices that the receipt itself names. -/
theorem checkSigners_eq_ok_iff {receipt : HandReceipt} {now : UInt64}
    {expected : Std.TreeMap PlayerId DevicePublicKey} (hexpected : ∀ player, expected[player]? =
      (receipt.outcomeFor player).map HandOutcome.devicePublicKey)
    {signed signed' : Finset PlayerId} {signatures : List ParticipantSignature} :
    checkSigners P receipt now expected signed signatures = .ok signed' ↔
      (∀ signature ∈ signatures, signature.verifyFor P receipt now = .ok () ∧
        signature.playerId ∉ signed) ∧ (signatures.map ParticipantSignature.playerId).Nodup ∧
      signed' = (signatures.map ParticipantSignature.playerId).toFinset ∪ signed := by
  induction signatures generalizing signed with
  | nil => simp [checkSigners, eq_comm]
  | cons signature rest ih =>
    rw [checkSigners, unit_bind_eq_ok, ensure_bind_eq_ok, okOr_bind_eq_ok]
    simp only [ensure_bind_eq_ok, ih, hexpected]
    constructor
    · rintro ⟨hverified, hnew, device, -, -, hrest, hnodup, rfl⟩
      refine ⟨?_, ?_, ?_⟩
      · intro other hother
        rcases mem_cons.mp hother with rfl | hother
        · exact ⟨hverified, hnew⟩
        · obtain ⟨hv, hn⟩ := hrest other hother
          exact ⟨hv, fun hin => hn (Finset.mem_insert_of_mem hin)⟩
      · rw [map_cons, nodup_cons]
        refine ⟨fun hin => ?_, hnodup⟩
        obtain ⟨other, hother, heq⟩ := mem_map.mp hin
        exact (hrest other hother).2 (heq ▸ Finset.mem_insert_self _ _)
      · rw [map_cons, toFinset_cons, Finset.union_insert, Finset.insert_union]
    · rintro ⟨hall, hnodup, rfl⟩
      rw [map_cons, nodup_cons] at hnodup
      obtain ⟨hverified, hnew⟩ := hall signature mem_cons_self
      obtain ⟨-, outcome, houtcome, hdevice⟩ :=
        ParticipantSignature.outcome_of_verifyFor hverified
      refine ⟨hverified, hnew, _, by rw [houtcome]; rfl, hdevice, ?_, hnodup.2, ?_⟩
      · intro other hother
        obtain ⟨hv, hn⟩ := hall other (mem_cons_of_mem _ hother)
        refine ⟨hv, fun hin => ?_⟩
        rcases Finset.mem_insert.mp hin with heq | hin
        · exact hnodup.1 (mem_map.mpr ⟨other, hother, heq⟩)
        · exact hn hin
      · rw [map_cons, toFinset_cons, Finset.union_insert, Finset.insert_union]

/-- A co-signed receipt verifies exactly when the receipt is valid and as many
different participants have validly signed it as it names. -/
theorem verify_eq_ok_iff {coSigned : CoSignedReceipt} {now : UInt64} :
    coSigned.verify P now = .ok () ↔ coSigned.receipt.validate = .ok () ∧
      (∀ signature ∈ coSigned.signatures, signature.verifyFor P coSigned.receipt now = .ok ()) ∧
      (coSigned.signatures.map ParticipantSignature.playerId).Nodup ∧
      coSigned.signatures.length = coSigned.receipt.outcomes.length := by
  unfold verify
  rw [unit_bind_eq_ok, mapError_eq_ok_iff]
  refine and_congr_right fun hvalid => ?_
  have hdistinct := nodup_playerId hvalid
  have hsize : (coSigned.receipt.outcomes.foldl (fun map outcome =>
      map.insert outcome.playerId outcome.devicePublicKey)
      (∅ : Std.TreeMap PlayerId DevicePublicKey)).size = coSigned.receipt.outcomes.length := by
    rw [size_foldl_insert hdistinct (by simp)]
    simp
  have hexpected : ∀ player, (coSigned.receipt.outcomes.foldl (fun map outcome =>
      map.insert outcome.playerId outcome.devicePublicKey)
      (∅ : Std.TreeMap PlayerId DevicePublicKey))[player]? =
        (coSigned.receipt.outcomeFor player).map HandOutcome.devicePublicKey := by
    intro player
    rw [getElem?_foldl_insert hdistinct, HandReceipt.outcomeFor]
    simp
  dsimp only
  rw [bind_eq_ok]
  simp only [checkSigners_eq_ok_iff hexpected, ensure_eq_ok, hsize]
  constructor
  · rintro ⟨signed, ⟨hall, hnodup, rfl⟩, hcard⟩
    refine ⟨fun signature hsignature => (hall signature hsignature).1, hnodup, ?_⟩
    rwa [Finset.union_empty, toFinset_card_of_nodup hnodup, length_map] at hcard
  · rintro ⟨hall, hnodup, hlength⟩
    refine ⟨_, ⟨fun signature hsignature => ⟨hall signature hsignature, ?_⟩, hnodup, rfl⟩, ?_⟩
    · exact Finset.notMem_empty _
    · rwa [Finset.union_empty, toFinset_card_of_nodup hnodup, length_map]

end CoSignedReceipt

/-! ## Calls of `accept` -/

/-- One call of `accept`. -/
structure AcceptCall where
  receipt : HandReceipt
  signature : ParticipantSignature
  nowUnixMs : UInt64

namespace ReceiptConsensus

/-- The state after some calls of `accept`; a refused call changes nothing. -/
def afterCalls (P : Primitives) (consensus : ReceiptConsensus) : List AcceptCall → ReceiptConsensus
  | [] => consensus
  | call :: rest =>
    match consensus.accept P call.receipt call.signature call.nowUnixMs with
    | .ok (next, _) => afterCalls P next rest
    | .error _ => afterCalls P consensus rest

/-- The signatures that these calls have accepted, for the first or for another time. -/
def acceptedBy (P : Primitives) (consensus : ReceiptConsensus) :
    List AcceptCall → List ParticipantSignature
  | [] => []
  | call :: rest =>
    match consensus.accept P call.receipt call.signature call.nowUnixMs with
    | .ok (next, _) => call.signature :: acceptedBy P next rest
    | .error _ => acceptedBy P consensus rest

/-- The map of a consensus on `receipt` holds exactly these signatures, each of which
verified when it came in. -/
structure Gathered (P : Primitives) (receipt : HandReceipt)
    (accepted : List ParticipantSignature) (consensus : ReceiptConsensus) : Prop where
  forReceipt : consensus.receipt = receipt
  unfinished : consensus.finalized = false
  mem_iff : ∀ signature : ParticipantSignature, signature ∈ accepted ↔
    consensus.signatures[signature.playerId]? = some signature
  keyed : ∀ (player : PlayerId) (signature : ParticipantSignature),
    consensus.signatures[player]? = some signature → signature.playerId = player
  verified : ∀ signature ∈ accepted, ∃ now, signature.verifyFor P receipt now = .ok ()

variable {receipt : HandReceipt} {accepted : List ParticipantSignature}
  {consensus : ReceiptConsensus} {device : DeviceIdentity} {certificate : DeviceCertificate}
  {now : UInt64} {own : ParticipantSignature} {next : ReceiptConsensus}
  {signature : ParticipantSignature}

theorem Gathered.congr {accepted' : List ParticipantSignature}
    (h : Gathered P receipt accepted consensus)
    (same : ∀ signature, signature ∈ accepted' ↔ signature ∈ accepted) :
    Gathered P receipt accepted' consensus :=
  { h with
    mem_iff := fun signature => (same signature).trans (h.mem_iff signature)
    verified := fun signature hs => h.verified signature ((same signature).mp hs) }

theorem gathered_start (valid : own.verifyFor P receipt now = .ok ())
    (h : start P receipt device certificate now = .ok (consensus, own)) :
    Gathered P receipt [own] consensus := by
  obtain ⟨signature, -, h⟩ := bind_eq_ok.mp h
  cases h
  have hget : ∀ player, ((∅ : Std.TreeMap PlayerId ParticipantSignature).insert own.playerId
      own)[player]? = if own.playerId = player then some own else none := by
    intro player
    rw [getElem?_insert_ite]
    simp
  refine ⟨rfl, rfl, fun signature => ?_, fun player signature hs => ?_, fun signature hs => ?_⟩
  · rw [hget, mem_singleton]
    constructor
    · rintro rfl
      rw [if_pos rfl]
    · intro hs
      rw [Option.ite_none_right_eq_some] at hs
      exact (Option.some.inj hs.2).symm
  · rw [hget, Option.ite_none_right_eq_some] at hs
    rw [← hs.1, Option.some.inj hs.2]
  · rw [mem_singleton.mp hs]
    exact ⟨now, valid⟩

theorem Gathered.accept {other : HandReceipt} {inserted : Bool}
    (h : Gathered P receipt accepted consensus)
    (haccept : consensus.accept P other signature now = .ok (next, inserted)) :
    Gathered P receipt (signature :: accepted) next := by
  obtain ⟨-, hverified, hknown | hnew⟩ := accept_eq_ok haccept
  · obtain ⟨hmem, rfl⟩ := hknown
    refine h.congr fun other => ?_
    rw [mem_cons, or_iff_right_of_imp]
    rintro rfl
    exact (h.mem_iff other).mpr hmem
  · obtain ⟨hnone, rfl⟩ := hnew
    have hget : ∀ player, (consensus.signatures.insert signature.playerId signature)[player]? =
        if signature.playerId = player then some signature else consensus.signatures[player]? :=
      fun player => getElem?_insert_ite
    refine ⟨h.forReceipt, h.unfinished, fun other => ?_, fun player other hs => ?_,
      fun other hs => ?_⟩
    · rw [mem_cons, h.mem_iff, hget]
      split
      next heq =>
        rw [Option.some.injEq, heq.symm, hnone, eq_comm]
        simp
      next hne =>
        refine or_iff_right fun heq => hne ?_
        rw [heq]
    · rw [hget] at hs
      split at hs
      next heq => rwa [← Option.some.inj hs]
      · exact h.keyed player other hs
    · rcases mem_cons.mp hs with rfl | hs
      · exact ⟨now, h.forReceipt ▸ hverified⟩
      · exact h.verified other hs

/-- What a consensus has gathered after some calls. -/
theorem Gathered.afterCalls (h : Gathered P receipt accepted consensus) (calls : List AcceptCall) :
    Gathered P receipt (accepted ++ consensus.acceptedBy P calls)
      (consensus.afterCalls P calls) := by
  induction calls generalizing consensus accepted with
  | nil => simpa [ReceiptConsensus.afterCalls, acceptedBy] using h
  | cons call rest ih =>
    cases hcall : consensus.accept P call.receipt call.signature call.nowUnixMs with
    | error e =>
      rw [ReceiptConsensus.afterCalls, acceptedBy, hcall]
      exact ih h
    | ok result =>
      rw [ReceiptConsensus.afterCalls, acceptedBy, hcall]
      refine (ih (h.accept hcall)).congr fun signature => ?_
      simp only [mem_append, mem_cons]
      tauto

/-! ## Exactness -/

section

variable (h : Gathered P receipt accepted consensus)

include h

theorem Gathered.mem_values : signature ∈ values consensus.signatures ↔ signature ∈ accepted := by
  rw [Library.mem_values, h.mem_iff]
  constructor
  · rintro ⟨player, hs⟩
    rw [h.keyed player signature hs]
    exact hs
  · exact fun hs => ⟨_, hs⟩

/-- Two signatures of one player are never both accepted. -/
theorem Gathered.unique {other : ParticipantSignature} (hs : signature ∈ accepted)
    (ho : other ∈ accepted) (same : signature.playerId = other.playerId) : signature = other := by
  have hstored := (h.mem_iff signature).mp hs
  rw [same, (h.mem_iff other).mp ho] at hstored
  exact (Option.some.inj hstored).symm

/-- The players of the collected signatures are different, -/
theorem Gathered.nodup_players :
    ((values consensus.signatures).map ParticipantSignature.playerId).Nodup := by
  have hkeys : (values consensus.signatures).map ParticipantSignature.playerId =
      consensus.signatures.keys := by
    rw [← Std.TreeMap.map_fst_toList_eq_keys, values, map_map]
    refine map_congr_left fun entry hentry => ?_
    exact h.keyed entry.1 entry.2 (Std.TreeMap.mem_toList_iff_getElem?_eq_some.mp hentry)
  rw [hkeys]
  exact Std.TreeMap.nodup_keys

/-- and they are players of the receipt. -/
theorem Gathered.players_subset : (values consensus.signatures).map ParticipantSignature.playerId ⊆
      receipt.outcomes.map HandOutcome.playerId := by
  intro player hplayer
  obtain ⟨signature, hs, rfl⟩ := mem_map.mp hplayer
  obtain ⟨now, hverified⟩ := h.verified signature (h.mem_values.mp hs)
  obtain ⟨-, outcome, houtcome, -⟩ := ParticipantSignature.outcome_of_verifyFor hverified
  obtain ⟨hmem, hsame⟩ := outcomeFor_eq_some houtcome
  exact mem_map.mpr ⟨outcome, hmem, hsame⟩

/-- What has been gathered determines the map. -/
theorem Gathered.getElem?_eq {consensus' : ReceiptConsensus}
    (h' : Gathered P receipt accepted consensus') (player : PlayerId) :
    consensus.signatures[player]? = consensus'.signatures[player]? := by
  refine Option.ext fun signature => ?_
  constructor
  · intro hs
    obtain rfl := h.keyed player signature hs
    exact (h'.mem_iff signature).mp ((h.mem_iff signature).mpr hs)
  · intro hs
    obtain rfl := h'.keyed player signature hs
    exact (h.mem_iff signature).mp ((h'.mem_iff signature).mpr hs)

/-- What `try_finalize` returns is what has been gathered, and it verifies. -/
theorem Gathered.of_finalized {coSigned : CoSignedReceipt}
    (hfinal : consensus.tryFinalize P now = .ok (next, some coSigned)) :
    coSigned = ⟨receipt, values consensus.signatures⟩ ∧ coSigned.verify P now = .ok () := by
  rcases tryFinalize_eq_ok hfinal with ⟨hnone, -⟩ | ⟨coSigned', hsome, hformed, hverified, -⟩
  · exact nomatch hnone
  · cases hsome
    rw [h.forReceipt] at hformed
    exact ⟨hformed, hverified⟩

/-- `try_finalize` returns a receipt exactly when the verifier accepts what has been
gathered: a verified receipt is complete. -/
theorem Gathered.finalizes_iff :
    (∃ next coSigned, consensus.tryFinalize P now = .ok (next, some coSigned)) ↔
      (CoSignedReceipt.mk receipt (values consensus.signatures)).verify P now = .ok () := by
  constructor
  · rintro ⟨next, coSigned, hfinal⟩
    obtain ⟨rfl, hverified⟩ := h.of_finalized hfinal
    exact hverified
  · intro hverified
    have hlength := (CoSignedReceipt.verify_eq_ok_iff.mp hverified).2.2.2
    rw [length_values] at hlength
    unfold tryFinalize
    rw [h.forReceipt, if_neg (by simp [h.unfinished, hlength])]
    refine ⟨_, _, unit_bind_eq_ok.mpr ⟨withContext_eq_ok.mpr hverified, rfl⟩⟩

/-- The verifier accepts what has been gathered exactly when every player of the
receipt has signed validly. -/
theorem Gathered.verify_iff (valid : receipt.validate = .ok ()) :
    (CoSignedReceipt.mk receipt (values consensus.signatures)).verify P now = .ok () ↔
      ∀ outcome ∈ receipt.outcomes, ∃ signature ∈ accepted,
        signature.playerId = outcome.playerId ∧ signature.verifyFor P receipt now = .ok () := by
  rw [CoSignedReceipt.verify_eq_ok_iff]
  have hdistinct := nodup_playerId valid
  have hsub := h.nodup_players.subperm h.players_subset
  constructor
  · rintro ⟨-, hverified, -, hlength⟩ outcome houtcome
    -- As many different players as the receipt names: they are all of them.
    have hperm := hsub.perm_of_length_le (by simp [hlength])
    have hsigned := hperm.mem_iff.mpr (mem_map_of_mem houtcome)
    obtain ⟨signature, hs, hplayer⟩ := mem_map.mp hsigned
    exact ⟨signature, h.mem_values.mp hs, hplayer, hverified signature hs⟩
  · intro hall
    refine ⟨valid, fun signature hs => ?_, h.nodup_players, ?_⟩
    · have hplayer := h.players_subset (mem_map_of_mem hs)
      obtain ⟨outcome, houtcome, heq⟩ := mem_map.mp hplayer
      obtain ⟨other, hother, hsame, hverified⟩ := hall outcome houtcome
      rwa [h.unique (h.mem_values.mp hs) hother (heq.symm.trans hsame.symm)]
    · have hsuper : receipt.outcomes.map HandOutcome.playerId ⊆
          (values consensus.signatures).map ParticipantSignature.playerId := by
        intro player hplayer
        obtain ⟨outcome, houtcome, rfl⟩ := mem_map.mp hplayer
        obtain ⟨signature, hs, hsame, -⟩ := hall outcome houtcome
        exact mem_map.mpr ⟨signature, h.mem_values.mpr hs, hsame⟩
      have hle := hsub.length_le
      have hge := (hdistinct.subperm hsuper).length_le
      simp only [length_map] at hle hge
      exact le_antisymm hle hge

end

/-- The own signature verifies. -/
theorem verifyFor_of_start (signing : P.SignaturesVerify)
    (h : start P receipt device certificate now = .ok (consensus, own)) :
    own.verifyFor P receipt now = .ok () := by
  obtain ⟨signature, hcreate, h⟩ := bind_eq_ok.mp h
  cases h
  have hcreate := withContext_eq_ok.mp hcreate
  unfold ParticipantSignature.create at hcreate
  obtain ⟨hvalid, hcreate⟩ := unit_bind_eq_ok.mp hcreate
  obtain ⟨-, hcreate⟩ := unit_bind_eq_ok.mp hcreate
  obtain ⟨htime, hcreate⟩ := unit_bind_eq_ok.mp hcreate
  obtain ⟨hcertificate, hcreate⟩ := unit_bind_eq_ok.mp hcreate
  obtain ⟨hown, hcreate⟩ := ensure_bind_eq_ok.mp hcreate
  obtain ⟨outcome, houtcome, hcreate⟩ := okOr_bind_eq_ok.mp hcreate
  obtain ⟨hdevice, hcreate⟩ := ensure_bind_eq_ok.mp hcreate
  cases hcreate
  obtain ⟨hkey, hverifies⟩ := signing device.seed (receiptSignatureMessage receipt)
  unfold ParticipantSignature.verifyFor DeviceCertificate.verifyDeviceSignature
  rw [unit_bind_eq_ok, unit_bind_eq_ok, unit_bind_eq_ok, okOr_bind_eq_ok]
  refine ⟨hvalid, htime, hcertificate, outcome, houtcome, ?_⟩
  rw [ensure_bind_eq_ok, mapError_eq_ok_iff, ensure_bind_eq_ok, ensure_eq_ok]
  have hbytes : certificate.devicePublicKey.bytes = P.verifyingKey device.seed := by
    rw [hown]
    rfl
  refine ⟨hdevice, ?_, ?_⟩
  · rw [hbytes]
    exact hkey
  · rw [hbytes]
    exact hverifies

theorem gathered_of_start {startedAt : UInt64} (signing : P.SignaturesVerify)
    (started : start P receipt device certificate startedAt = .ok (consensus, own))
    (calls : List AcceptCall) :
    Gathered P receipt (own :: consensus.acceptedBy P calls) (consensus.afterCalls P calls) :=
  (gathered_start (verifyFor_of_start signing started) started).afterCalls calls

end ReceiptConsensus

open ReceiptConsensus in
/-- A consensus that has been started and fed with any calls of `accept` returns a
co-signed receipt exactly when for every player of the receipt exactly one valid
signature of the player's device has been accepted. The result verifies, holds only
accepted signatures of this receipt, and another peer that has accepted the same
signatures, in whatever order and at whatever times, gets the same one. -/
theorem receipt_consensus_exact (signing : P.SignaturesVerify) {receipt : HandReceipt}
    {device : DeviceIdentity} {certificate : DeviceCertificate} {startedAt : UInt64}
    {consensus : ReceiptConsensus} {own : ParticipantSignature}
    (started : start P receipt device certificate startedAt = .ok (consensus, own))
    (calls : List AcceptCall) (now : UInt64) :
    ((∃ next coSigned, (consensus.afterCalls P calls).tryFinalize P now
        = .ok (next, some coSigned)) ↔
      ∀ outcome ∈ receipt.outcomes, ∃! signature : ParticipantSignature,
        signature ∈ own :: consensus.acceptedBy P calls ∧
        signature.playerId = outcome.playerId ∧
        signature.certificate.devicePublicKey = outcome.devicePublicKey ∧
        signature.verifyFor P receipt now = .ok ()) ∧
    ∀ next coSigned, (consensus.afterCalls P calls).tryFinalize P now = .ok (next, some coSigned) →
      coSigned.receipt = receipt ∧ coSigned.verify P now = .ok () ∧
      (∀ signature ∈ coSigned.signatures, signature ∈ own :: consensus.acceptedBy P calls ∧
        signature.verifyFor P receipt now = .ok ()) ∧
      ∀ (device' : DeviceIdentity) (certificate' : DeviceCertificate) (startedAt' now' : UInt64)
        (consensus' : ReceiptConsensus) (own' : ParticipantSignature) (calls' : List AcceptCall)
        (next' : ReceiptConsensus) (coSigned' : CoSignedReceipt),
        start P receipt device' certificate' startedAt' = .ok (consensus', own') →
        (∀ signature, signature ∈ own :: consensus.acceptedBy P calls ↔
          signature ∈ own' :: consensus'.acceptedBy P calls') →
        (consensus'.afterCalls P calls').tryFinalize P now' = .ok (next', some coSigned') →
        coSigned' = coSigned := by
  have hgathered := gathered_of_start signing started calls
  have hvalid := (ParticipantSignature.outcome_of_verifyFor (verifyFor_of_start signing started)).1
  constructor
  · rw [hgathered.finalizes_iff, hgathered.verify_iff hvalid]
    refine forall₂_congr fun outcome houtcome => ?_
    constructor
    · rintro ⟨signature, hs, hplayer, hverified⟩
      have hdevice := signature.device_of_verifyFor houtcome hplayer hverified
      refine ⟨signature, ⟨hs, hplayer, hdevice, hverified⟩, ?_⟩
      rintro other ⟨ho, hother, -⟩
      exact hgathered.unique ho hs (hother.trans hplayer.symm)
    · rintro ⟨signature, ⟨hs, hplayer, -, hverified⟩, -⟩
      exact ⟨signature, hs, hplayer, hverified⟩
  · intro next coSigned hfinal
    obtain ⟨rfl, hverified⟩ := hgathered.of_finalized hfinal
    refine ⟨rfl, hverified, fun signature hs => ?_, ?_⟩
    · exact ⟨hgathered.mem_values.mp hs, (CoSignedReceipt.verify_eq_ok_iff.mp hverified).2.1 _ hs⟩
    · intro device' certificate' startedAt' now' consensus' own' calls' next' coSigned' started'
        same hfinal'
      have hgathered' := gathered_of_start signing started' calls'
      obtain ⟨rfl, -⟩ := hgathered'.of_finalized hfinal'
      rw [CoSignedReceipt.mk.injEq]
      exact ⟨rfl, values_congr fun player => (hgathered'.congr same).getElem?_eq hgathered player⟩

/-- What device `k` leaves a hand with. -/
def plainOutcome (k startingStack endingStack : Nat) : HandOutcome where
  playerId := (Room.plainCertificate k).playerId
  devicePublicKey := (Room.plainCertificate k).devicePublicKey
  startingStack := chips startingStack
  endingStack := chips endingStack

/-- A hand in which device 1 has lost 40 chips to device 2. -/
def pairReceipt : HandReceipt :=
  .form (FixedBytes.ofNat 77) 1 "1-2" (FixedBytes.ofNat 0) 20
    [plainOutcome 1 100 60, plainOutcome 2 100 140]

/-- Device 1 collects the signature of device 2, which comes twice. -/
def pairCalls : List AcceptCall :=
  match ParticipantSignature.create .plain pairReceipt ⟨FixedBytes.ofNat 2⟩
      (Room.plainCertificate 2) 30 with
  | .ok signature => [⟨pairReceipt, signature, 31⟩, ⟨pairReceipt, signature, 32⟩]
  | .error _ => []

open ReceiptConsensus in
theorem receipt_consensus_exact_pair :
    ∃ consensus own, start .plain pairReceipt ⟨FixedBytes.ofNat 1⟩ (Room.plainCertificate 1) 25 =
        .ok (consensus, own) ∧
      ∃ next coSigned, (consensus.afterCalls .plain pairCalls).tryFinalize .plain 33 =
          .ok (next, some coSigned) ∧ coSigned.verify .plain 33 = .ok () := by
  have hrun : isOk (start .plain pairReceipt ⟨FixedBytes.ofNat 1⟩ (Room.plainCertificate 1) 25 >>=
      fun started => (started.1.afterCalls .plain pairCalls).tryFinalize .plain 33 >>=
        fun final => okOr (.message "") final.2) = true := by
    decide +kernel
  obtain ⟨coSigned, hrun⟩ := isOk_eq_true.mp hrun
  obtain ⟨⟨consensus, own⟩, hstart, hrun⟩ := bind_eq_ok.mp hrun
  obtain ⟨⟨next, result⟩, hfinal, hrun⟩ := bind_eq_ok.mp hrun
  obtain rfl := okOr_eq_ok.mp hrun
  refine ⟨consensus, own, hstart, next, coSigned, hfinal, ?_⟩
  have hexact := receipt_consensus_exact Primitives.plain_signaturesVerify hstart pairCalls 33
  exact (hexact.2 next coSigned hfinal).2.1

end TokenHoldem
