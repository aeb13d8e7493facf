import TokenHoldem.Domain.Calls
import TokenHoldem.Domain.Progress
import TokenHoldem.Domain.PublicState
import TokenHoldem.FieldCodes

/-!
# What the public digest determines

Players sign `public_state_hash` before they act. The bytes behind it can be read
back field by field (`publicStateBytes_agree`), and what they leave out of a hand
— the player limits and the buy-in range of its level — is looked at by `start`
only. So two hands with the same bytes answer every sequence of calls alike.

* `replies_played` — the answers of a hand depend on its `played` part only.
* `publicStateBytes_determine_play` — equal bytes, equal play.
-/

namespace TokenHoldem

open Library HoldemHand List

variable {h h₁ h₂ : HoldemHand}

/-! ## The part of a hand that is played -/

/-- A level as far as a hand in progress reads it. -/
def StakeLevel.played (level : StakeLevel) : StakeLevel :=
  { level with
    minimumBuyIn := Chips.zero, maximumBuyIn := Chips.zero
    minimumPlayers := 0, maximumPlayers := 0 }

/-- A hand without what only `start` looks at. -/
def HoldemHand.played (h : HoldemHand) : HoldemHand := { h with level := h.level.played }

theorem commit_commutes (i : Nat) (amount : Chips) : Commutes played (commit i amount) :=
  .get_bind (fun _ => rfl) fun _ => .bind (.orThrow _ _) fun _ => .bind (.modify fun _ => rfl)
    fun _ => .bind (.orThrow _ _) fun _ => .bind (.modify fun _ => rfl) fun _ =>
      .bind (.orThrow _ _) fun _ => .bind (.modify fun _ => rfl) fun _ =>
        .ite (.modify fun _ => rfl) (.pure _)

theorem applyAction_commutes (i : Nat) (p : PlayerId) (a : PlayerAction) :
    Commutes played (applyAction i p a) := by
  cases a with
  | fold => exact .bind (.modify fun _ => rfl) fun _ => .modify fun _ => rfl
  | check => exact .get_bind (fun _ => rfl) fun _ => .ite (.throw _) (.modify fun _ => rfl)
  | call =>
    exact .get_bind (fun _ => rfl) fun _ => .ite (.throw _) (.bind (commit_commutes i _) fun _ =>
      .modify fun _ => rfl)
  | raiseTo target =>
    refine .get_bind (fun _ => rfl) fun _ => .ite (.throw _) (.ite (.throw _) ?_)
    refine .bind (.orThrow _ _) fun _ => .ite (.throw _) (.bind (.orThrow _ _) fun _ => ?_)
    refine .ite (.throw _) (.get_bind (fun _ => rfl) fun _ => ?_)
    refine .bind (commit_commutes i _) fun _ => .bind (.modify fun _ => rfl) fun _ => ?_
    exact .ite (.bind (.orThrow _ _) fun _ => .modify fun _ => rfl) (.modify fun _ => rfl)

theorem award_commutes (p : PlayerId) (amount : Chips) : Commutes played (award p amount) :=
  .get_bind (fun _ => rfl) fun _ => .bind (.orThrow _ _) fun _ => .bind (.orThrow _ _) fun _ =>
    .modify fun _ => rfl

theorem buildSettlement_commutes : Commutes played buildSettlement :=
  .get_bind (fun _ => rfl) fun _ => .ite (.throw _) (.pure _)

theorem advanceStreet_commutes : Commutes played advanceStreet := by
  unfold advanceStreet
  generalize 5 = calls
  induction calls with
  | zero => exact .throw _
  | succ calls ih =>
    refine .get_bind (fun _ => rfl) fun _ => .bind (.orThrow _ _) fun _ =>
      .bind (.modify fun _ => rfl) fun _ => ?_
    refine .ite (.bind (.modify fun _ => rfl) fun _ => .pure _) ?_
    refine .bind (.modify fun _ => rfl) fun _ => .get_bind (fun _ => rfl) fun _ => ?_
    exact .ite (.bind (.modify fun _ => rfl) fun _ => ih) (.pure _)

theorem act_commutes (p : PlayerId) (a : PlayerAction) : Commutes played (act p a) := by
  refine .get_bind (fun _ => rfl) fun _ => .bind (.orThrow _ _) fun i => ?_
  refine .ite (.throw _) (.bind (applyAction_commutes i p a) fun _ => ?_)
  refine .get_bind (fun _ => rfl) fun _ => ?_
  split
  · refine .bind (.bind (.get_bind (fun _ => rfl) fun _ => .bind (.orThrow _ _) fun _ => ?_)
      fun _ => buildSettlement_commutes) fun _ => .pure _
    exact .bind (award_commutes _ _) fun _ => .modify fun _ => rfl
  · refine .ite advanceStreet_commutes (.bind (.modify fun _ => rfl) fun _ => ?_)
    exact .get_bind (fun _ => rfl) fun _ => .bind (.orThrow _ _) fun _ => .pure _

theorem awardEach_commutes (amount : Chips) (players : List PlayerId) :
    Commutes played (awardEach amount players) := by
  induction players with
  | nil => exact .pure _
  | cons player rest ih => exact .bind (award_commutes player amount) fun _ => ih

theorem settleLayers_commutes (contenders : List PlayerId) (ranks : PlayerId → HandRank)
    (thresholds : List Chips) :
    ∀ previous, Commutes played (settleLayers contenders ranks previous thresholds) := by
  induction thresholds with
  | nil => exact fun _ => .pure _
  | cons threshold rest ih =>
    intro previous
    refine .bind (.get_bind (fun _ => rfl) fun _ => .bind (.orThrow _ _) fun _ => ?_) fun _ =>
      ih threshold
    split
    · split
      · exact award_commutes _ _
      · exact .throw _
    · exact .bind (awardEach_commutes _ _) fun _ => .get_bind (fun _ => rfl) fun _ =>
        awardEach_commutes _ _

theorem settleShowdown_commutes (board : Board) (holeCards : HoleCards) :
    Commutes played (settleShowdown board holeCards) := by
  refine .bind (.get_bind (fun _ => rfl) fun _ => ?_) fun _ => buildSettlement_commutes
  refine .ite (.throw _) (.ite (.throw _) (.ite (.throw _) ?_))
  exact .bind (settleLayers_commutes _ _ _ _) fun _ => .modify fun _ => rfl

theorem HandCall.perform_commutes (c : HandCall) : Commutes played c.perform := by
  cases c with
  | act p a => exact .bind (act_commutes p a) fun _ => .pure _
  | settle board holeCards => exact .bind (settleShowdown_commutes board holeCards) fun _ => .pure _

/-! ## Answers -/

/-- What the caller sees of a result. -/
def answer {α : Type} : EStateM.Result HoldemError HoldemHand α → Except HoldemError α
  | .ok a _ => .ok a
  | .error e _ => .error e

/-- The answers to a sequence of calls. A failed call is followed by the next one,
on the hand as it was left. -/
def replies : List HandCall → HoldemHand → List (Except HoldemError HandReply)
  | [], _ => []
  | c :: rest, h => answer (c.perform.run h) :: replies rest (endState (c.perform.run h))

theorem replies_played (calls : List HandCall) (h : HoldemHand) :
    replies calls h.played = replies calls h := by
  induction calls generalizing h with
  | nil => rfl
  | cons c rest ih =>
    unfold replies
    rw [c.perform_commutes h]
    cases c.perform.run h with
    | ok a h' => exact congrArg _ (ih h')
    | error e h' => exact congrArg _ (ih h')

/-! ## Reading the bytes back -/

/-- The hands agree on everything the digest is about. -/
structure HoldemHand.Agree (h₁ h₂ : HoldemHand) : Prop where
  levelId : h₁.level.id = h₂.level.id
  smallBlind : h₁.level.smallBlind = h₂.level.smallBlind
  bigBlind : h₁.level.bigBlind = h₂.level.bigBlind
  dealerIndex : h₁.dealerIndex = h₂.dealerIndex
  street : h₁.street = h₂.street
  seats : h₁.seats = h₂.seats
  pending : h₁.pending = h₂.pending
  raiseRights : h₁.raiseRights = h₂.raiseRights
  currentBet : h₁.currentBet = h₂.currentBet
  lastFullRaise : h₁.lastFullRaise = h₂.lastFullRaise
  nextToAct : h₁.nextToAct = h₂.nextToAct

theorem HoldemHand.Agree.played_eq (ha : Agree h₁ h₂) : h₁.played = h₂.played := by
  have hlevel : h₁.level.played = h₂.level.played := by
    unfold StakeLevel.played
    rw [ha.levelId, ha.smallBlind, ha.bigBlind]
  unfold played
  rw [hlevel, ha.dealerIndex, ha.street, ha.seats, ha.pending, ha.raiseRights, ha.currentBet,
    ha.lastFullRaise, ha.nextToAct]

/-- `append_bytes` of a text. -/
theorem textCode : PrefixCode (fun text : String => (textBytes text).length < 256 ^ 8)
    fun text => beBytes 8 (textBytes text).length ++ textBytes text :=
  (PrefixCode.beBytes 8).prefixed.comap (fun _ _ _ _ => @textBytes_injective _ _) fun _ h => h

theorem streetTag_injective : Function.Injective streetTag := by
  intro a b hab
  cases a <;> cases b <;> first | rfl | cases hab

theorem seatStatusTag_injective : Function.Injective seatStatusTag := by
  intro a b hab
  cases a <;> cases b <;> first | rfl | cases hab

/-- The record of one seat. -/
def seatBytes (seat : SeatState) : Bytes :=
  seat.playerId.asBytes ++ seat.startingStack.toBytes ++ seat.stack.toBytes
    ++ seat.totalCommitted.toBytes ++ seat.streetCommitted.toBytes ++ [seatStatusTag seat.status]

theorem seatCode : PrefixCode (fun _ => True) seatBytes := by
  intro a b _ _ s t heq
  simp only [seatBytes, append_assoc] at heq
  obtain ⟨hid, heq⟩ := identifierCode trivial trivial heq
  obtain ⟨hstart, heq⟩ := chipsCode trivial trivial heq
  obtain ⟨hstack, heq⟩ := chipsCode trivial trivial heq
  obtain ⟨htotal, heq⟩ := chipsCode trivial trivial heq
  obtain ⟨hstreet, heq⟩ := chipsCode trivial trivial heq
  obtain ⟨hstatus, heq⟩ := List.cons.inj heq
  refine ⟨?_, heq⟩
  cases a
  cases b
  simp_all [seatStatusTag_injective.eq_iff]

/-- `append_player_set` of a set that fits its count. -/
theorem playerSetCode : PrefixCode (fun players : Finset PlayerId => players.card < 256)
    playerSetBytes := by
  have hlist := PrefixCode.byte.counted (@identifierCode .player)
  have hset := hlist.comap (Q := fun players : Finset PlayerId => players.card < 256)
    (fun _ _ _ _ => @sortedElements_injective _ _ _ _)
    (fun players hfits => ⟨(length_sortedElements players).trans_lt hfits, fun _ _ => trivial⟩)
  intro a b ha hb s t heq
  refine hset ha hb ?_
  simp only [length_sortedElements]
  exact heq

/-- The last two bytes: a flag and the index of the player on turn. -/
def turnBytes : Option Nat → Bytes
  | some index => [1, UInt8.ofNat index]
  | none => [0, 0]

theorem turnBytes_inj {a b : Option Nat} (ha : ∀ i, a = some i → i < 256)
    (hb : ∀ i, b = some i → i < 256) (heq : turnBytes a = turnBytes b) : a = b := by
  cases a with
  | none =>
    cases b with
    | none => rfl
    | some j => exact absurd (List.cons.inj heq).1 (by decide)
  | some i =>
    cases b with
    | none => exact absurd (List.cons.inj heq).1 (by decide)
    | some j => rw [PrefixCode.byte.inj (ha i rfl) (hb j rfl) (List.cons.inj heq).2]

/-- The counts and indices of a hand fit the single bytes they are written in. -/
structure HoldemHand.FitsBytes (h : HoldemHand) : Prop where
  dealer : h.dealerIndex < 256
  seats : h.seats.length < 256
  pending : h.pending.card < 256
  rights : h.raiseRights.card < 256
  next : ∀ i, h.nextToAct = some i → i < 256

theorem publicStateBytes_eq (h : HoldemHand) :
    h.publicStateBytes = textBytes "token-holdem/public-betting-state/v1\x00" ++
      ((beBytes 8 (textBytes h.level.id).length ++ textBytes h.level.id) ++
      (h.level.smallBlind.toBytes ++ (h.level.bigBlind.toBytes ++
      ([UInt8.ofNat h.dealerIndex] ++ ([streetTag h.street] ++ ([UInt8.ofNat h.seats.length] ++
      (h.seats.flatMap seatBytes ++ (playerSetBytes h.pending ++ (playerSetBytes h.raiseRights ++
      (h.currentBet.toBytes ++ (h.lastFullRaise.toBytes ++ turnBytes h.nextToAct))))))))))) := by
  unfold publicStateBytes
  simp only [append_assoc, cons_append, nil_append]
  cases h.nextToAct <;> rfl

/-- The bytes of two hands are equal only if the hands agree. -/
theorem publicStateBytes_agree (hid₁ : (textBytes h₁.level.id).length < 2 ^ 64)
    (hid₂ : (textBytes h₂.level.id).length < 2 ^ 64) (hf₁ : h₁.FitsBytes) (hf₂ : h₂.FitsBytes)
    (heq : h₁.publicStateBytes = h₂.publicStateBytes) : Agree h₁ h₂ := by
  rw [publicStateBytes_eq, publicStateBytes_eq] at heq
  have heq := append_cancel_left heq
  obtain ⟨hlevel, heq⟩ := textCode hid₁ hid₂ heq
  obtain ⟨hsmall, heq⟩ := chipsCode trivial trivial heq
  obtain ⟨hbig, heq⟩ := chipsCode trivial trivial heq
  obtain ⟨hdealer, heq⟩ := PrefixCode.byte hf₁.dealer hf₂.dealer heq
  obtain ⟨hstreet, heq⟩ := List.cons.inj heq
  obtain ⟨hcount, heq⟩ := PrefixCode.byte hf₁.seats hf₂.seats heq
  obtain ⟨hseats, heq⟩ := seatCode.flatMap hcount (fun _ _ => trivial) (fun _ _ => trivial) heq
  obtain ⟨hpending, heq⟩ := playerSetCode hf₁.pending hf₂.pending heq
  obtain ⟨hrights, heq⟩ := playerSetCode hf₁.rights hf₂.rights heq
  obtain ⟨hbet, heq⟩ := chipsCode trivial trivial heq
  obtain ⟨hraise, heq⟩ := chipsCode trivial trivial heq
  exact ⟨hlevel, hsmall, hbig, hdealer, streetTag_injective hstreet, hseats, hpending, hrights,
    hbet, hraise, turnBytes_inj hf₁.next hf₂.next heq⟩

/-! ## Reachable hands -/

variable {seats : List (PlayerId × Chips)}

/-- A hand that `start` accepted has at most 255 seats: their number is bounded
by the `u8` of the level. -/
theorem Called.length_lt {level : StakeLevel} {dealer : Nat} (hc : Called level seats dealer h) :
    dealer < seats.length ∧ seats.length < 256 := by
  induction hc with
  | start hs =>
    have hchecks := startChecks_of_ok hs
    exact ⟨hchecks.dealer_lt, hchecks.players_le.trans_lt level.maximumPlayers.toNat_lt⟩
  | call _ _ ih => exact ih

theorem card_le_of_seated {players : Finset PlayerId} (hmem : ∀ p ∈ players, p ∈ seats.map (·.1)) :
    players.card ≤ seats.length := by
  have hsub : players ⊆ (seats.map (·.1)).toFinset := fun p hp => mem_toFinset.mpr (hmem p hp)
  calc players.card ≤ (seats.map (·.1)).toFinset.card := Finset.card_le_card hsub
    _ ≤ (seats.map (·.1)).length := toFinset_card_le _
    _ = seats.length := length_map _

theorem Called.fitsBytes {level : StakeLevel} {dealer : Nat} (hc : Called level seats dealer h) :
    h.FitsBytes := by
  have hs := hc.seatedAt
  obtain ⟨hdealer, hlt⟩ := hc.length_lt
  refine ⟨hs.dealerIndex ▸ hdealer.trans hlt, hs.size.trans_lt hlt,
    (card_le_of_seated hs.pending).trans_lt hlt, (card_le_of_seated hs.rights).trans_lt hlt,
    fun i hi => (hs.next_lt i hi).trans hlt⟩

/-- Two hands, however they were reached, whose public bytes are equal agree on
everything that is played, and so they answer every sequence of actions and
showdowns with the same outcomes, settlements and errors. A `String` is shorter
than `2 ^ 64` bytes. -/
theorem publicStateBytes_determine_play {level₁ level₂ : StakeLevel}
    {seats₁ seats₂ : List (PlayerId × Chips)} {dealer₁ dealer₂ : Nat}
    (hc₁ : Called level₁ seats₁ dealer₁ h₁) (hc₂ : Called level₂ seats₂ dealer₂ h₂)
    (hid₁ : (textBytes h₁.level.id).length < 2 ^ 64)
    (hid₂ : (textBytes h₂.level.id).length < 2 ^ 64)
    (heq : h₁.publicStateBytes = h₂.publicStateBytes) :
    Agree h₁ h₂ ∧ ∀ calls, replies calls h₁ = replies calls h₂ := by
  have hagree := publicStateBytes_agree hid₁ hid₂ hc₁.fitsBytes hc₂.fitsBytes heq
  refine ⟨hagree, fun calls => ?_⟩
  rw [← replies_played calls h₁, ← replies_played calls h₂, hagree.played_eq]

/-- The first hand at a level and at the same level without a limit on buy-ins. -/
theorem publicStateBytes_determine_opening :
    ∃ h₁ h₂, Called oneTwoLevel headsUp 0 h₁ ∧
      Called deepLevel headsUp 0 h₂ ∧ h₁.level ≠ h₂.level ∧
      Agree h₁ h₂ ∧ ∀ calls, replies calls h₁ = replies calls h₂ := by
  let bytes := ((play oneTwoLevel headsUp 0 []).map publicStateBytes).getD []
  obtain ⟨h₁, hr₁, hl₁, hid₁, hb₁⟩ := exists_reach_of_play oneTwoLevel headsUp 0 []
    (fun h => h.level = oneTwoLevel ∧ (textBytes h.level.id).length < 2 ^ 64 ∧
      h.publicStateBytes = bytes) (by decide +kernel)
  obtain ⟨h₂, hr₂, hl₂, hid₂, hb₂⟩ := exists_reach_of_play deepLevel headsUp 0 []
    (fun h => h.level = deepLevel ∧ (textBytes h.level.id).length < 2 ^ 64 ∧
      h.publicStateBytes = bytes) (by decide +kernel)
  refine ⟨h₁, h₂, hr₁.called, hr₂.called, ?_, ?_⟩
  · rw [hl₁, hl₂]
    decide
  · exact publicStateBytes_determine_play hr₁.called hr₂.called hid₁ hid₂ (hb₁.trans hb₂.symm)

end TokenHoldem
