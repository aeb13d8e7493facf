import TokenHoldem.Domain.Receipt
import TokenHoldem.FieldCodes
import TokenHoldem.Library.Bisection

/-!
# The canonical form of a receipt

Every participant forms the receipt of a hand on its own, so there must be one form of
it only.

- `settle_perm` — the order in which the outcomes are given does not matter;
- `validate_iff_settle` — a receipt is valid exactly when it is its own form;
- `canonicalBytes_inj` — valid receipts are known by their bytes;
- `searchOutcome_eq_some_iff` — the search finds the outcome of a player.
-/

namespace TokenHoldem

open Library

namespace HandReceipt

/-- `HandReceipt::outcome_for`, with its search by bisection. -/
def searchOutcome (receipt : HandReceipt) (playerId : PlayerId) : Option HandOutcome :=
  binarySearchBy (fun outcome => compare outcome.playerId playerId) receipt.outcomes

section

variable {matchId : MatchId} {handNumber : UInt64} {stakeLevelId : String}
  {transcriptHash : Bytes32} {settledAtUnixMs : UInt64} {outcomes outcomes' : List HandOutcome}
  {receipt : HandReceipt}

/-- A valid receipt names its players in increasing order. -/
theorem sorted_of_validate (valid : receipt.validate = .ok ()) :
    receipt.version = 1 ∧ isBlank receipt.stakeLevelId = false ∧ 2 ≤ receipt.outcomes.length ∧
      receipt.outcomes.Pairwise fun a b => a.playerId < b.playerId := by
  unfold validate at valid
  obtain ⟨hversion, valid⟩ := ensure_bind_eq_ok.mp valid
  obtain ⟨hnamed, valid⟩ := ensure_bind_eq_ok.mp valid
  obtain ⟨hmany, valid⟩ := ensure_bind_eq_ok.mp valid
  obtain ⟨hordered, -⟩ := unit_bind_eq_ok.mp valid
  exact ⟨hversion, hnamed, hmany, checkOrder_eq_ok_iff.mp hordered⟩

/-- When `settle` succeeds, and with what. -/
theorem settle_eq_ok_iff :
    settle matchId handNumber stakeLevelId transcriptHash settledAtUnixMs outcomes = .ok receipt ↔
      receipt = form matchId handNumber stakeLevelId transcriptHash settledAtUnixMs outcomes ∧
        receipt.validate = .ok () := by
  unfold settle
  rw [ensure_bind_eq_ok, ensure_bind_eq_ok, unit_bind_eq_ok]
  constructor
  · rintro ⟨-, -, hvalid, hreturn⟩
    cases hreturn
    exact ⟨rfl, hvalid⟩
  · rintro ⟨rfl, hvalid⟩
    obtain ⟨-, hnamed, hmany, -⟩ := sorted_of_validate hvalid
    have hlength := (sortByKey_perm HandOutcome.playerId outcomes).length_eq
    exact ⟨hnamed, hmany.trans_eq hlength, hvalid, rfl⟩

/-- The order in which the outcomes are given does not matter. -/
theorem settle_perm (hperm : outcomes'.Perm outcomes)
    (h : settle matchId handNumber stakeLevelId transcriptHash settledAtUnixMs outcomes
      = .ok receipt) :
    settle matchId handNumber stakeLevelId transcriptHash settledAtUnixMs outcomes'
      = .ok receipt := by
  obtain ⟨rfl, hvalid⟩ := settle_eq_ok_iff.mp h
  obtain ⟨-, -, -, hsorted⟩ := sorted_of_validate hvalid
  refine settle_eq_ok_iff.mpr ⟨?_, hvalid⟩
  unfold form
  rw [sortByKey_eq_of_perm (hperm.trans (sortByKey_perm _ _).symm) hsorted]

/-- A receipt is valid exactly when it is what `settle` makes of its own fields. -/
theorem validate_iff_settle : receipt.validate = .ok () ↔
    settle receipt.matchId receipt.handNumber receipt.stakeLevelId receipt.transcriptHash
      receipt.settledAtUnixMs receipt.outcomes = .ok receipt := by
  rw [settle_eq_ok_iff]
  refine ⟨fun hvalid => ⟨?_, hvalid⟩, And.right⟩
  obtain ⟨hversion, -, -, hsorted⟩ := sorted_of_validate hvalid
  have hsame : sortByKey HandOutcome.playerId receipt.outcomes = receipt.outcomes :=
    sortByKey_eq_of_perm (List.Perm.refl _) hsorted
  obtain ⟨version, matchId, handNumber, stakeLevelId, transcriptHash, settledAtUnixMs, outcomes⟩ :=
    receipt
  obtain rfl : version = 1 := hversion
  show HandReceipt.mk _ _ _ _ _ _ outcomes = HandReceipt.mk _ _ _ _ _ _ (sortByKey _ outcomes)
  rw [hsame]

end

/-! ## The bytes -/

/-- The record of one outcome. -/
def outcomeBytes (outcome : HandOutcome) : Bytes :=
  outcome.playerId.asBytes ++ outcome.devicePublicKey.asBytes
    ++ outcome.startingStack.toBytes ++ outcome.endingStack.toBytes

theorem outcomeCode : PrefixCode (fun _ => True) outcomeBytes := by
  intro a b _ _ s t heq
  simp only [outcomeBytes, List.append_assoc] at heq
  obtain ⟨hplayer, heq⟩ := identifierCode trivial trivial heq
  obtain ⟨hdevice, heq⟩ := identifierCode trivial trivial heq
  obtain ⟨hstart, heq⟩ := chipsCode trivial trivial heq
  obtain ⟨hend, heq⟩ := chipsCode trivial trivial heq
  refine ⟨?_, heq⟩
  obtain ⟨_, _, _, _⟩ := a
  obtain ⟨_, _, _, _⟩ := b
  simp only [HandOutcome.mk.injEq]
  exact ⟨hplayer, hdevice, hstart, hend⟩

/-- The name of the level and the number of outcomes fit their length fields. -/
def Fits (receipt : HandReceipt) : Prop :=
  (textBytes receipt.stakeLevelId).length < 2 ^ 32 ∧ receipt.outcomes.length < 2 ^ 32

theorem canonicalBytes_inj {a b : HandReceipt} (ha : a.Fits) (hb : b.Fits)
    (heq : a.canonicalBytes = b.canonicalBytes) : a = b := by
  simp only [canonicalBytes, List.append_assoc] at heq
  obtain ⟨-, heq⟩ := List.append_inj heq rfl
  obtain ⟨hversion, heq⟩ := List.cons.inj heq
  obtain ⟨hmatch, heq⟩ := fixedBytesCode trivial trivial heq
  obtain ⟨hnumber, heq⟩ := u64Code trivial trivial heq
  obtain ⟨hlevel, heq⟩ := writtenTextCode ha.1 hb.1 heq
  obtain ⟨hhash, heq⟩ := fixedBytesCode trivial trivial heq
  obtain ⟨htime, heq⟩ := u64Code trivial trivial heq
  have houtcomes : a.outcomes = b.outcomes :=
    (u32Code.counted outcomeCode).inj ⟨ha.2, fun _ _ => trivial⟩ ⟨hb.2, fun _ _ => trivial⟩ heq
  obtain ⟨_, _, _, _, _, _, _⟩ := a
  obtain ⟨_, _, _, _, _, _, _⟩ := b
  simp only [HandReceipt.mk.injEq]
  exact ⟨hversion, hmatch, hnumber, hlevel, hhash, htime, houtcomes⟩

/-! ## The outcome of a player -/

/-- On a valid receipt the search finds the outcome of a player. -/
theorem searchOutcome_eq_some_iff {receipt : HandReceipt} (valid : receipt.validate = .ok ())
    {player : PlayerId} {outcome : HandOutcome} : receipt.searchOutcome player = some outcome ↔
      outcome ∈ receipt.outcomes ∧ outcome.playerId = player :=
  binarySearchBy_eq_some_iff (sorted_of_validate valid).2.2.2

theorem outcomeFor_eq_some {receipt : HandReceipt} {player : PlayerId} {outcome : HandOutcome}
    (h : receipt.outcomeFor player = some outcome) :
    outcome ∈ receipt.outcomes ∧ outcome.playerId = player := by
  have hplayer := List.find?_some h
  exact ⟨List.mem_of_find?_eq_some h, of_decide_eq_true hplayer⟩

/-- It is the outcome that a search from the front finds. -/
theorem searchOutcome_eq_outcomeFor {receipt : HandReceipt} (valid : receipt.validate = .ok ())
    (player : PlayerId) : receipt.searchOutcome player = receipt.outcomeFor player := by
  cases hfound : receipt.outcomeFor player with
  | some outcome => exact (searchOutcome_eq_some_iff valid).mpr (outcomeFor_eq_some hfound)
  | none =>
    refine Option.eq_none_iff_forall_ne_some.mpr fun outcome hsearch => ?_
    obtain ⟨houtcome, hplayer⟩ := (searchOutcome_eq_some_iff valid).mp hsearch
    exact List.find?_eq_none.mp hfound outcome houtcome (decide_eq_true hplayer)

/-- Receipts have one form: `settle` does not depend on the order of the outcomes, a
receipt is valid exactly when it is what `settle` makes of its own fields, valid receipts
are known by their bytes, and the search finds the only outcome of a player or that there
is none. -/
theorem receipts_canonical :
    (∀ matchId handNumber stakeLevelId transcriptHash settledAtUnixMs
        (outcomes outcomes' : List HandOutcome), outcomes'.Perm outcomes → ∀ receipt,
      (settle matchId handNumber stakeLevelId transcriptHash settledAtUnixMs outcomes'
        = .ok receipt ↔
      settle matchId handNumber stakeLevelId transcriptHash settledAtUnixMs outcomes
        = .ok receipt)) ∧
    (∀ receipt : HandReceipt, receipt.validate = .ok () ↔
      settle receipt.matchId receipt.handNumber receipt.stakeLevelId receipt.transcriptHash
        receipt.settledAtUnixMs receipt.outcomes = .ok receipt) ∧
    (∀ a b : HandReceipt, a.validate = .ok () → b.validate = .ok () → a.Fits → b.Fits →
      a.canonicalBytes = b.canonicalBytes → a = b) ∧
    ∀ receipt : HandReceipt, receipt.validate = .ok () → ∀ player,
      (∃ outcome ∈ receipt.outcomes, outcome.playerId = player ∧
        (∀ other ∈ receipt.outcomes, other.playerId = player → other = outcome) ∧
        receipt.searchOutcome player = some outcome) ∨
      ((∀ outcome ∈ receipt.outcomes, outcome.playerId ≠ player) ∧
        receipt.searchOutcome player = none) := by
  refine ⟨fun _ _ _ _ _ outcomes outcomes' hperm receipt =>
      ⟨settle_perm hperm.symm, settle_perm hperm⟩,
    fun receipt => validate_iff_settle, fun a b _ _ ha hb => canonicalBytes_inj ha hb,
    fun receipt valid player => ?_⟩
  cases hfound : receipt.searchOutcome player with
  | none =>
    refine .inr ⟨fun outcome houtcome hplayer => ?_, rfl⟩
    rw [(searchOutcome_eq_some_iff valid).mpr ⟨houtcome, hplayer⟩] at hfound
    cases hfound
  | some outcome =>
    obtain ⟨houtcome, hplayer⟩ := (searchOutcome_eq_some_iff valid).mp hfound
    refine .inl ⟨outcome, houtcome, hplayer, fun other hother hsame => ?_, rfl⟩
    have hother := (searchOutcome_eq_some_iff valid).mpr ⟨hother, hsame⟩
    exact Option.some.inj (hother.symm.trans hfound)

end HandReceipt

end TokenHoldem
