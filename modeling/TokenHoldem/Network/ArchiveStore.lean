import Mathlib.Data.Finset.Dedup
import TokenHoldem.Identity.ReceiptSignature

/-!
# The replicated store

`token-holdem-network/src/archive_store.rs` keeps content at several volunteer peers at once;
`token-holdem-application/src/publish_receipt.rs` publishes a receipt there and counts the
replicas that were confirmed. The count is one of answers: a peer that is configured twice
is asked twice and counts twice.

- `confirmed_eq` — what the loop of `put` counts;
- `publishReceipt_eq_ok_iff` — what it takes to publish;
- `scan_eq_some`, `scan_of_offered` — what the loop of `get` returns;
- `publishes_to_distinct_iff` — publishing reaches the required number of different peers
  exactly when no peer is configured twice; reading is right whatever the replicas answer.
-/

namespace TokenHoldem

open Library List

/-! ## Content -/

abbrev ContentAddress := Bytes32

def ContentAddress.fromContent (P : Primitives) (content : Bytes) : ContentAddress :=
  P.hash content

structure ReplicatedContent where
  address : ContentAddress
  confirmedReplicas : UInt16
deriving DecidableEq

inductive StoreError where
  | unavailable (reason : String)
  | rejected (reason : String)
  | integrityMismatch

structure ArchiveRequest where
  address : ContentAddress
  content : Bytes
  requestedReplicationSeconds : UInt64

structure ArchiveResponse where
  address : ContentAddress
  acceptedUntilUnixMs : UInt64
  archiveNodePublicKey : Bytes
  archiveNodeSignature : Bytes

structure ArchiveFetchResponse where
  address : ContentAddress
  content : Option Bytes
  archiveNodePublicKey : Bytes
  archiveNodeSignature : Bytes

structure ArchiveListResponse where
  playerId : PlayerId
  addresses : List ContentAddress
  archiveNodePublicKey : Bytes
  archiveNodeSignature : Bytes

/-- `ArchiveReplicaClient`: the answers of the replicas. A peer that is asked twice may
answer differently, so an answer depends on the number of the call too. -/
structure ArchiveReplicaClient where
  putReplica : Nat → PeerId → ArchiveRequest → Except StoreError ArchiveResponse
  getReplica : Nat → PeerId → ContentAddress → Except StoreError ArchiveFetchResponse

/-- `u16::saturating_add` of one. -/
def saturatingSucc (n : UInt16) : UInt16 := if n.toNat + 1 < 2 ^ 16 then n + 1 else n

theorem toNat_saturatingSucc (n : UInt16) :
    (saturatingSucc n).toNat = min (n.toNat + 1) (2 ^ 16 - 1) := by
  have hn := n.toNat_lt
  unfold saturatingSucc
  split
  · rw [UInt16.toNat_add]
    simp only [UInt16.reduceToNat]
    omega
  · omega

/-! ## The store -/

/-- A store that `new` accepts. -/
structure P2pRemoteEventStore where
  client : ArchiveReplicaClient
  archivePeers : List PeerId
  requestedReplicationSeconds : UInt64
  configured : archivePeers ≠ []
  retained : requestedReplicationSeconds ≠ 0

namespace P2pRemoteEventStore

def new (client : ArchiveReplicaClient) (archivePeers : List PeerId)
    (requestedReplicationSeconds : UInt64) : Except StoreError P2pRemoteEventStore :=
  if configured : archivePeers = [] then .error (.unavailable "没有配置志愿归档节点")
  else if retained : requestedReplicationSeconds = 0 then .error (.rejected "副本保留时间不能为零")
  else .ok { client, archivePeers, requestedReplicationSeconds, configured, retained }

variable (P : Primitives)

variable (store : P2pRemoteEventStore)

/-- What `put` asks of every peer. -/
def request (content : Bytes) : ArchiveRequest where
  address := .fromContent P content
  content := content
  requestedReplicationSeconds := store.requestedReplicationSeconds

/-- One round of the loop of `put`. -/
def countResponse (address : ContentAddress) :
    UInt16 × Option StoreError → Except StoreError ArchiveResponse → UInt16 × Option StoreError
  | (confirmed, lastError), .ok acceptance =>
    if acceptance.address = address then (saturatingSucc confirmed, lastError)
    else (confirmed, some .integrityMismatch)
  | (confirmed, _), .error error => (confirmed, some error)

def put (content : Bytes) : Except StoreError ReplicatedContent :=
  let address := ContentAddress.fromContent P content
  let responses := store.archivePeers.zipIdx.map fun call =>
    store.client.putReplica call.2 call.1 (store.request P content)
  let counted := responses.foldl (countResponse address) (0, none)
  if counted.1 = 0 then
    .error (counted.2.getD (.unavailable "所有志愿归档节点均未确认副本"))
  else .ok { address, confirmedReplicas := counted.1 }

/-- The loop of `get`. -/
def scan (P : Primitives) (address : ContentAddress)
    (sawIntegrityFailure sawSuccessfulAbsence : Bool)
    (lastError : Option StoreError) :
    List (Except StoreError ArchiveFetchResponse) → Except StoreError (Option Bytes)
  | [] =>
    if sawIntegrityFailure then .error .integrityMismatch
    else if sawSuccessfulAbsence then .ok none
    else .error (lastError.getD (.unavailable "所有志愿归档节点均不可用"))
  | .ok response :: responses =>
    if response.address ≠ address then scan P address true sawSuccessfulAbsence lastError responses
    else
      match response.content with
      | some content =>
        if ContentAddress.fromContent P content = address then .ok (some content)
        else scan P address true sawSuccessfulAbsence lastError responses
      | none => scan P address sawIntegrityFailure true lastError responses
  | .error error :: responses =>
    scan P address sawIntegrityFailure sawSuccessfulAbsence (some error) responses

def get (address : ContentAddress) : Except StoreError (Option Bytes) :=
  scan P address false false none <| store.archivePeers.zipIdx.map fun call =>
    store.client.getReplica call.2 call.1 address

end P2pRemoteEventStore

/-! ## Publishing a receipt -/

structure ReplicationPolicy where
  minimumConfirmedReplicas : UInt16

inductive PublishReceiptError where
  | invalidReplicationPolicy
  | invalidReceipt (error : SignedReceiptError)
  | serialization (reason : String)
  | store (error : StoreError)
  | insufficientReplicas (required confirmed : UInt16)

def ReplicationPolicy.new (minimumConfirmedReplicas : UInt16) :
    Except PublishReceiptError ReplicationPolicy := do
  ensure (minimumConfirmedReplicas ≠ 0) .invalidReplicationPolicy
  return { minimumConfirmedReplicas }

/-- `PublishReceipt::execute`, with `serde_json::to_vec` as a parameter. -/
def publishReceipt (P : Primitives) (serialize : CoSignedReceipt → Except String Bytes)
    (store : P2pRemoteEventStore) (policy : ReplicationPolicy) (receipt : CoSignedReceipt)
    (now : UInt64) : Except PublishReceiptError ReplicatedContent := do
  (receipt.verify P now).mapError .invalidReceipt
  let content ← (serialize receipt).mapError .serialization
  let expectedAddress := ContentAddress.fromContent P content
  let replicated ← (store.put P content).mapError .store
  ensure (replicated.address = expectedAddress) (.store .integrityMismatch)
  ensure (policy.minimumConfirmedReplicas ≤ replicated.confirmedReplicas)
    (.insufficientReplicas policy.minimumConfirmedReplicas replicated.confirmedReplicas)
  return replicated

namespace P2pRemoteEventStore

variable {P : Primitives} {store : P2pRemoteEventStore} {content : Bytes} {address : ContentAddress}

/-! ## Counting confirmations -/

/-- Whether an answer confirms the address. -/
def confirms (address : ContentAddress) : Except StoreError ArchiveResponse → Bool
  | .ok acceptance => acceptance.address = address
  | .error _ => false

/-- The calls of `put` whose answer confirms the content. -/
def confirmingCalls (P : Primitives) (store : P2pRemoteEventStore) (content : Bytes) :
    List (PeerId × Nat) :=
  store.archivePeers.zipIdx.filter fun call =>
    confirms (.fromContent P content)
      (store.client.putReplica call.2 call.1 (store.request P content))

/-- The peers that confirm the content. -/
def confirmingPeers (P : Primitives) (store : P2pRemoteEventStore) (content : Bytes) :
    Finset PeerId :=
  ((store.confirmingCalls P content).map Prod.fst).toFinset

theorem toNat_countResponse (counted : UInt16 × Option StoreError)
    (response : Except StoreError ArchiveResponse) :
    (countResponse address counted response).1.toNat =
      min (counted.1.toNat + if confirms address response then 1 else 0) (2 ^ 16 - 1) := by
  have hlt := counted.1.toNat_lt
  cases response with
  | error error =>
    simp only [countResponse, confirms]
    simp
    omega
  | ok acceptance =>
    by_cases haddress : acceptance.address = address
    · simp only [countResponse, confirms, toNat_saturatingSucc, haddress, decide_true, if_true]
    · simp only [countResponse, confirms, haddress, decide_false]
      simp
      omega

theorem toNat_foldl_countResponse (responses : List (Except StoreError ArchiveResponse))
    (counted : UInt16 × Option StoreError) :
    (responses.foldl (countResponse address) counted).1.toNat =
      min (counted.1.toNat + responses.countP (confirms address)) (2 ^ 16 - 1) := by
  induction responses generalizing counted with
  | nil =>
    have hlt := counted.1.toNat_lt
    simp only [foldl_nil, countP_nil]
    omega
  | cons response responses ih =>
    rw [foldl_cons, ih, toNat_countResponse, countP_cons]
    omega

variable {replicated : ReplicatedContent} {lastError : Option StoreError}
  {responses : List (Except StoreError ArchiveFetchResponse)}

/-- `put` counts answers. -/
theorem confirmed_eq (h : store.put P content = .ok replicated) :
    replicated.address = .fromContent P content ∧ replicated.confirmedReplicas.toNat =
      min (store.confirmingCalls P content).length (2 ^ 16 - 1) := by
  unfold put at h
  dsimp only at h
  split at h
  · cases h
  · cases h
    refine ⟨rfl, ?_⟩
    rw [toNat_foldl_countResponse, countP_map, countP_eq_length_filter]
    exact congrArg (min · _) (Nat.zero_add _)

/-- One confirmation is enough for `put`. -/
theorem exists_put_eq_ok (h : store.confirmingCalls P content ≠ []) :
    ∃ replicated, store.put P content = .ok replicated := by
  unfold put
  dsimp only
  rw [if_neg]
  · exact ⟨_, rfl⟩
  · intro hnone
    have hcount := congrArg UInt16.toNat hnone
    rw [toNat_foldl_countResponse, countP_map, countP_eq_length_filter] at hcount
    have hlength : 0 < (store.confirmingCalls P content).length := length_pos_iff.mpr h
    simp only [UInt16.toNat_zero, Nat.zero_add] at hcount
    unfold confirmingCalls at hlength
    simp only [Function.comp_def] at hcount
    omega

/-- Different peers answer once each. -/
theorem card_confirmingPeers (distinct : store.archivePeers.Nodup) :
    (store.confirmingPeers P content).card = (store.confirmingCalls P content).length := by
  have hnodup : ((store.confirmingCalls P content).map Prod.fst).Nodup := by
    refine Nodup.sublist (filter_sublist.map Prod.fst) ?_
    rwa [zipIdx_map_fst]
  rw [confirmingPeers, toFinset_card_of_nodup hnodup, length_map]

/-- What it takes to publish: the address that `put` returns is always the right one. -/
theorem publishReceipt_eq_ok_iff {serialize : CoSignedReceipt → Except String Bytes}
    {policy : ReplicationPolicy} {receipt : CoSignedReceipt} {now : UInt64} :
    publishReceipt P serialize store policy receipt now = .ok replicated ↔
      receipt.verify P now = .ok () ∧ ∃ content, serialize receipt = .ok content ∧
        store.put P content = .ok replicated ∧
        policy.minimumConfirmedReplicas ≤ replicated.confirmedReplicas := by
  unfold publishReceipt
  rw [unit_bind_eq_ok, mapError_eq_ok_iff]
  simp only [bind_eq_ok, mapError_eq_ok_iff]
  refine and_congr_right fun _ => exists_congr fun content => and_congr_right fun _ => ?_
  constructor
  · rintro ⟨replicated', hput, hchecked⟩
    obtain ⟨-, -, u, hmany, hreturn⟩ := hchecked
    cases hreturn
    exact ⟨hput, ensure_eq_ok.mp hmany⟩
  · rintro ⟨hput, hmany⟩
    exact ⟨replicated, hput, (), ensure_eq_ok.mpr (confirmed_eq hput).1, (),
      ensure_eq_ok.mpr hmany, rfl⟩

/-! ## Different peers -/

/-- Whatever the replicas answer, a receipt that is published has been confirmed by as many
different peers as the policy asks for. -/
def Replicates (P : Primitives) (serialize : CoSignedReceipt → Except String Bytes)
    (store : P2pRemoteEventStore) (receipt : CoSignedReceipt) (now : UInt64) : Prop :=
  ∀ client policy content replicated, serialize receipt = .ok content →
    publishReceipt P serialize { store with client } policy receipt now = .ok replicated →
    policy.minimumConfirmedReplicas.toNat ≤
      (confirmingPeers P { store with client } content).card

/-- A receipt that can be sent to the store. -/
def Publishable (P : Primitives) (serialize : CoSignedReceipt → Except String Bytes)
    (receipt : CoSignedReceipt) (now : UInt64) : Prop :=
  receipt.verify P now = .ok () ∧ ∃ content, serialize receipt = .ok content

section

variable {serialize : CoSignedReceipt → Except String Bytes} {receipt : CoSignedReceipt}
  {now : UInt64}

theorem replicates_of_nodup (distinct : store.archivePeers.Nodup) :
    store.Replicates P serialize receipt now := by
  intro client policy content replicated hcontent hpublished
  obtain ⟨-, content', hcontent', hput, hmany⟩ := publishReceipt_eq_ok_iff.mp hpublished
  cases hcontent.symm.trans hcontent'
  rw [@card_confirmingPeers P { store with client } content distinct]
  have hcount := (confirmed_eq hput).2
  have hmany := UInt16.le_iff_toNat_le.mp hmany
  omega

/-- Replicas of which only one is willing, and it confirms whenever it is asked. -/
def onlyConfirms (peer : PeerId) : ArchiveReplicaClient where
  putReplica _ asked request :=
    if asked = peer then .ok ⟨request.address, 1, [], []⟩ else .error (.rejected "refused")
  getReplica _ _ _ := .error (.unavailable "offline")

theorem confirmingCalls_onlyConfirms (peer : PeerId) :
    confirmingCalls P { store with client := onlyConfirms peer } content =
      store.archivePeers.zipIdx.filter (·.1 = peer) := by
  refine filter_congr fun call _ => ?_
  by_cases h : call.1 = peer
  · simp [onlyConfirms, h, confirms, request]
  · simp [onlyConfirms, h, confirms]

/-- A peer that is configured twice can confirm the content twice on its own. -/
theorem nodup_of_replicates (publishable : Publishable P serialize receipt now)
    (h : store.Replicates P serialize receipt now) : store.archivePeers.Nodup := by
  obtain ⟨hverified, content, hcontent⟩ := publishable
  rw [nodup_iff_count_le_one]
  intro peer
  by_contra! htwice
  have hcalls : (confirmingCalls P { store with client := onlyConfirms peer } content).length =
      store.archivePeers.count peer := by
    rw [confirmingCalls_onlyConfirms, ← countP_eq_length_filter, count]
    conv_rhs => rw [← zipIdx_map_fst 0 store.archivePeers, countP_map]
    exact countP_congr fun call _ => by simp
  have hcalled : confirmingCalls P { store with client := onlyConfirms peer } content ≠ [] :=
    length_pos_iff.mp (by omega)
  obtain ⟨replicated, hput⟩ := exists_put_eq_ok hcalled
  have hcount := (confirmed_eq hput).2
  have hmany : (2 : UInt16) ≤ replicated.confirmedReplicas := by
    rw [UInt16.le_iff_toNat_le, hcount, hcalls]
    simp only [UInt16.reduceToNat]
    omega
  have hdistinct := h (onlyConfirms peer) ⟨2⟩ content replicated hcontent
    (publishReceipt_eq_ok_iff.mpr ⟨hverified, content, hcontent, hput, hmany⟩)
  have hone : confirmingPeers P { store with client := onlyConfirms peer } content ⊆ {peer} := by
    intro other hother
    rw [confirmingPeers, confirmingCalls_onlyConfirms, mem_toFinset, mem_map] at hother
    obtain ⟨call, hcall, rfl⟩ := hother
    simpa using (mem_filter.mp hcall).2
  have hcard := Finset.card_le_card hone
  rw [Finset.card_singleton] at hcard
  exact absurd (hdistinct.trans hcard) (by decide)

end

/-! ## Reading -/

theorem scan_eq_some {sawFailure sawAbsence : Bool}
    (h : scan P address sawFailure sawAbsence lastError responses = .ok (some content)) :
    .fromContent P content = address := by
  fun_induction scan P address sawFailure sawAbsence lastError responses with
  | case1 | case2 | case3 => cases h
  | case4 _ _ _ _ _ _ ih => exact ih h
  | case5 sawFailure sawAbsence lastError response responses haddress found hfound hhash =>
    cases h
    exact hhash
  | case6 _ _ _ _ _ _ _ _ _ ih => exact ih h
  | case7 _ _ _ _ _ _ _ ih => exact ih h
  | case8 _ _ _ _ _ ih => exact ih h

/-- An answer with the address and matching content ends the loop, unless an earlier one does. -/
theorem scan_of_offered {sawFailure sawAbsence : Bool} (hhash : .fromContent P content = address)
    {offered : ArchiveFetchResponse} (haddress : offered.address = address)
    (hcontent : offered.content = some content) (h : .ok offered ∈ responses) :
    ∃ found, scan P address sawFailure sawAbsence lastError responses = .ok (some found) := by
  fun_induction scan P address sawFailure sawAbsence lastError responses with
  | case1 | case2 | case3 => cases h
  | case4 _ _ _ _ _ hother ih =>
    refine ih (mem_of_ne_of_mem ?_ h)
    rintro ⟨⟩
    exact hother haddress
  | case5 => exact ⟨_, rfl⟩
  | case6 _ _ _ response _ _ corrupted hfound hmismatch ih =>
    refine ih (mem_of_ne_of_mem ?_ h)
    rintro ⟨⟩
    cases hfound.symm.trans hcontent
    exact hmismatch hhash
  | case7 _ _ _ response _ _ habsent ih =>
    refine ih (mem_of_ne_of_mem ?_ h)
    rintro ⟨⟩
    exact nomatch habsent.symm.trans hcontent
  | case8 _ _ _ _ _ ih => exact ih (mem_of_ne_of_mem (by simp) h)

/-- Publishing reaches as many different peers as the policy asks for, whatever the replicas
answer, exactly when no peer is configured twice (or the receipt is not one that can be
published). Reading returns only content of the address, and content of the address
whenever some replica offers it. -/
theorem publishes_to_distinct_iff (P : Primitives) (store : P2pRemoteEventStore) :
    (∀ serialize receipt now, store.Replicates P serialize receipt now ↔
      store.archivePeers.Nodup ∨ ¬ Publishable P serialize receipt now) ∧
    (∀ address content, store.get P address = .ok (some content) →
      .fromContent P content = address) ∧
    ∀ address content, ContentAddress.fromContent P content = address →
      (∃ call ∈ store.archivePeers.zipIdx, ∃ offered,
        store.client.getReplica call.2 call.1 address = .ok offered ∧
          offered.address = address ∧ offered.content = some content) →
      ∃ found, store.get P address = .ok (some found) ∧
        ContentAddress.fromContent P found = .fromContent P content := by
  refine ⟨fun serialize receipt now => ⟨fun h => ?_, ?_⟩, fun address content h => scan_eq_some h,
    fun address content hhash ⟨call, hcall, offered, hoffered, haddress, hcontent⟩ => ?_⟩
  · by_cases publishable : Publishable P serialize receipt now
    · exact .inl (nodup_of_replicates publishable h)
    · exact .inr publishable
  · rintro (distinct | hrefused)
    · exact replicates_of_nodup distinct
    · intro client policy content replicated hcontent hpublished
      obtain ⟨hverified, -⟩ := publishReceipt_eq_ok_iff.mp hpublished
      exact absurd ⟨hverified, content, hcontent⟩ hrefused
  · have hmem : .ok offered ∈ store.archivePeers.zipIdx.map fun call =>
        store.client.getReplica call.2 call.1 address := mem_map.mpr ⟨call, hcall, hoffered⟩
    obtain ⟨found, hfound⟩ := scan_of_offered hhash haddress hcontent hmem
    exact ⟨found, hfound, (scan_eq_some hfound).trans hhash.symm⟩

/-- The receipt of a hand that two players have signed. -/
def signedByTwo (handNumber : UInt64) : Option CoSignedReceipt := do
  let device (k : Nat) : DeviceIdentity := ⟨FixedBytes.ofNat k⟩
  let certificate (k : Nat) : Option DeviceCertificate :=
    (RootIdentity.issueDeviceCertificate .plain ⟨FixedBytes.ofNat (100 + k)⟩
      ((device k).publicKey .plain) "device" 1 1000).toOption
  let first ← certificate 1
  let second ← certificate 2
  let receipt ← (HandReceipt.settle (FixedBytes.ofNat 77) handNumber "1-2" (FixedBytes.ofNat 0) 20
    [⟨first.playerId, first.devicePublicKey, ⟨100, by decide⟩, ⟨60, by decide⟩⟩,
      ⟨second.playerId, second.devicePublicKey, ⟨100, by decide⟩, ⟨140, by decide⟩⟩]).toOption
  let signature ← (ParticipantSignature.create .plain receipt (device 1) first 30).toOption
  let signature' ← (ParticipantSignature.create .plain receipt (device 2) second 30).toOption
  some ⟨receipt, [signature, signature']⟩

/-- A store with one peer that is configured twice. -/
def doubledStore : P2pRemoteEventStore where
  client := onlyConfirms ⟨7⟩
  archivePeers := [⟨7⟩, ⟨7⟩]
  requestedReplicationSeconds := 86400
  configured := by decide
  retained := by decide

/-- The receipt counts as published to two replicas, and one peer has it. -/
theorem doubled_peer_counts_twice :
    ((signedByTwo 1).bind fun receipt =>
      (publishReceipt .plain (fun _ => .ok [1]) doubledStore ⟨2⟩ receipt 30).toOption) =
        some ⟨.fromContent .plain [1], 2⟩ ∧
      (doubledStore.confirmingPeers .plain [1]).card = 1 := by
  decide +kernel

end P2pRemoteEventStore

end TokenHoldem
