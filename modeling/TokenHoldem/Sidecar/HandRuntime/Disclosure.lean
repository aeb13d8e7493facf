import TokenHoldem.Sidecar.HandRuntime.Calls
import TokenHoldem.Sidecar.HandRuntime.Play

/-!
# Which shares a peer gives away

A card can be decrypted by whoever holds a share of every seat for it, so a peer
protects the cards by the shares that it does not create. The history of a hand lists
all shares that the peer has created and all that it has sent.

- `discloses_only_what_is_due`: in every run, whatever messages come in, a share is
  for a hole card and goes to its owner alone, or it is public and for a board card
  whose street has begun or a hole card of a contender at the showdown. There is no
  public share for a hole card of a seat that has folded.
-/

namespace TokenHoldem

open Library HoldemHand

variable {L : HandPrimitives} {input : HandInput} {trace effects : List (HandEffect L.ziffle)}
  {a b : ActiveHand L.ziffle} {cardIndex : UInt8} {packet : RevealSharePacket}

/-! ## The layout of the deck -/

theorem toNat_getD_tryU8 (value : Nat) :
    ((tryU8 value).getD 255).toNat = if value < 256 then value else 255 := by
  unfold tryU8
  split
  next hlt =>
    rw [Option.getD_some, UInt8.toNat_ofNat']
    exact Nat.mod_eq_of_lt hlt
  · rfl

theorem toNat_saturatingAddU8 (a b : UInt8) :
    (saturatingAddU8 a b).toNat = min (a.toNat + b.toNat) 255 := by
  unfold saturatingAddU8
  split
  next hlt =>
    rw [UInt8.toNat_add, Nat.mod_eq_of_lt hlt]
    omega
  · have : (255 : UInt8).toNat = 255 := rfl
    omega

/-- The hole cards of a seat lie at twice its index. -/
theorem toNat_of_mem_holeIndexList {seat : Nat} (h : cardIndex ∈ holeIndexList seat)
    (inDeck : cardIndex.toNat < standardDeckSize) :
    cardIndex.toNat = 2 * seat ∨ cardIndex.toNat = 2 * seat + 1 := by
  have hone : (1 : UInt8).toNat = 1 := rfl
  have hbase := toNat_getD_tryU8 (seat * 2)
  unfold standardDeckSize at inDeck
  rcases List.mem_cons.mp h with rfl | h
  · simp only [holeIndices] at inDeck ⊢
    split at hbase <;> omega
  · rw [List.mem_singleton.mp h] at inDeck ⊢
    simp only [holeIndices, toNat_saturatingAddU8] at inDeck ⊢
    split at hbase <;> omega

/-- The board lies behind all hole cards. -/
theorem toNat_of_mem_boardIndices {playerCount : Nat}
    (h : cardIndex ∈ (boardIndices playerCount).toList)
    (inDeck : cardIndex.toNat < standardDeckSize) : 2 * playerCount < cardIndex.toNat := by
  have hbase := toNat_getD_tryU8 (playerCount * 2)
  unfold standardDeckSize at inDeck
  simp only [boardIndices, Vector.toList_mk, List.mem_cons, List.not_mem_nil, or_false] at h
  have hoffset : ∀ offset : UInt8, 0 < offset.toNat →
      cardIndex = saturatingAddU8 ((tryU8 (playerCount * 2)).getD 255) offset →
      2 * playerCount < cardIndex.toNat := by
    intro offset hpos hcard
    rw [hcard, toNat_saturatingAddU8] at inDeck ⊢
    split at hbase <;> omega
  rcases h with h | h | h | h | h
  · exact hoffset 1 (by decide) h
  · exact hoffset 2 (by decide) h
  · exact hoffset 3 (by decide) h
  · exact hoffset 5 (by decide) h
  · exact hoffset 7 (by decide) h

open List

/-! ## When a public share is due -/

/-- The street with which a board card is turned over. -/
def boardStreet (playerCount : Nat) (cardIndex : UInt8) : Option Street :=
  if cardIndex ∈ flopIndices playerCount then some .flop
  else if cardIndex = turnIndex playerCount then some .turn
  else if cardIndex = riverIndex playerCount then some .river
  else none

/-- A board card whose street has begun. -/
def BoardCardDue (playerCount : Nat) (hand : HoldemHand) (cardIndex : UInt8) : Prop :=
  ∃ street, boardStreet playerCount cardIndex = some street ∧ hand.street.left ≤ street.left

/-- A hole card of a contender at the showdown. -/
def HoleCardDue (hand : HoldemHand) (cardIndex : UInt8) : Prop :=
  ∃ index seat, hand.seats[index]? = some seat ∧ cardIndex ∈ holeIndexList index ∧
    hand.street = .showdown ∧ seat.status ≠ .folded

variable {playerCount : Nat} {hand : HoldemHand}

theorem boardCardDue_flop (h : cardIndex ∈ flopIndices playerCount) (begun : hand.street.left ≤ 3) :
    BoardCardDue playerCount hand cardIndex := ⟨.flop, by rw [boardStreet, if_pos h], begun⟩

theorem boardCardDue_turn (begun : hand.street.left ≤ 2) :
    BoardCardDue playerCount hand (turnIndex playerCount) := by
  by_cases hflop : turnIndex playerCount ∈ flopIndices playerCount
  · exact boardCardDue_flop hflop (by omega)
  · exact ⟨.turn, by rw [boardStreet, if_neg hflop, if_pos rfl], begun⟩

theorem boardCardDue_river (begun : hand.street.left ≤ 1) :
    BoardCardDue playerCount hand (riverIndex playerCount) := by
  by_cases hflop : riverIndex playerCount ∈ flopIndices playerCount
  · exact boardCardDue_flop hflop (by omega)
  · by_cases hturn : riverIndex playerCount = turnIndex playerCount
    · rw [hturn]
      exact boardCardDue_turn (by omega)
    · exact ⟨.river, by rw [boardStreet, if_neg hflop, if_neg hturn, if_pos rfl], begun⟩

theorem mem_boardIndices_iff :
    cardIndex ∈ (boardIndices playerCount).toList ↔ cardIndex ∈ flopIndices playerCount ∨
      cardIndex = turnIndex playerCount ∨ cardIndex = riverIndex playerCount := by
  simp [boardIndices, flopIndices, turnIndex, riverIndex, or_assoc]

/-- At the showdown the whole board is due. -/
theorem boardCardDue_of_mem (hstreet : hand.street = .showdown)
    (h : cardIndex ∈ (boardIndices playerCount).toList) :
    BoardCardDue playerCount hand cardIndex := by
  have hleft : hand.street.left = 0 := by rw [hstreet]; rfl
  rcases mem_boardIndices_iff.mp h with hflop | rfl | rfl
  · exact boardCardDue_flop hflop (by omega)
  · exact boardCardDue_turn (by omega)
  · exact boardCardDue_river (by omega)

theorem BoardCardDue.mem (h : BoardCardDue playerCount hand cardIndex) :
    cardIndex ∈ (boardIndices playerCount).toList := by
  obtain ⟨street, hstreet, -⟩ := h
  unfold boardStreet at hstreet
  rw [mem_boardIndices_iff]
  split at hstreet
  next hflop => exact .inl hflop
  · split at hstreet
    next hturn => exact .inr (.inl hturn)
    · split at hstreet
      next hriver => exact .inr (.inr hriver)
      · exact nomatch hstreet

theorem mem_sortedIndices {indices : List UInt8} :
    cardIndex ∈ sortedIndices indices ↔ cardIndex ∈ indices := by
  rw [sortedIndices, mem_insertionSort, mem_dedup]

/-- The cards that an outcome calls for are due. -/
theorem due_of_calledCards {outcome : ActionOutcome}
    {reason : RevealReason} {indices : List UInt8} (announces : hand.Announces outcome)
    (called : calledCards playerCount hand outcome = some (reason, indices))
    (h : cardIndex ∈ indices) :
    (BoardCardDue playerCount hand cardIndex ∨ HoleCardDue hand cardIndex) ∧
      (hand.street = .showdown → hand.nextToAct = none) := by
  cases outcome with
  | waitingFor player => exact nomatch called
  | handComplete settlement => exact nomatch called
  | streetAdvanced street next =>
    obtain ⟨hstreet, -⟩ := announces
    subst hstreet
    rcases hstreet : hand.street <;> rw [hstreet] at called <;> cases called <;>
      rw [mem_sortedIndices] at h
    · exact ⟨.inl (boardCardDue_flop h (by rw [hstreet]; decide)), nofun⟩
    · rw [mem_singleton.mp h]
      exact ⟨.inl (boardCardDue_turn (by rw [hstreet]; decide)), nofun⟩
    · rw [mem_singleton.mp h]
      exact ⟨.inl (boardCardDue_river (by rw [hstreet]; decide)), nofun⟩
  | showdownReady =>
    obtain ⟨hstreet, hnext⟩ := announces
    cases called
    rw [mem_sortedIndices, showdownIndices, mem_append] at h
    refine ⟨?_, fun _ => hnext⟩
    rcases h with h | h
    · exact .inl (boardCardDue_of_mem hstreet h)
    · obtain ⟨⟨seat, index⟩, hseat, hcard⟩ := mem_flatMap.mp h
      split at hcard
      next hstatus =>
        refine .inr ⟨index, seat, ?_, hcard, hstreet, hstatus⟩
        exact mem_zipIdx_iff_getElem?.mp hseat
      · exact absurd hcard not_mem_nil

/-! ## What one move creates and sends -/

theorem mem_commitEffects {origin : ActionOrigin} {sequence : Nat} {action : SignedHandAction}
    {effect : HandEffect L.ziffle} (h : effect ∈ commitEffects a origin sequence action) :
    effect = .committed a origin sequence action ∨
      effect = .sentPublic (.actionCommitted a.scope sequence action) := by
  cases origin with
  | «local» => simpa [commitEffects] using h
  | remote => exact .inl (mem_singleton.mp h)

theorem mem_commitEffects_committed (a : ActiveHand L.ziffle) (origin : ActionOrigin)
    (sequence : Nat) (action : SignedHandAction) :
    .committed a origin sequence action ∈ commitEffects a origin sequence action :=
  mem_cons_self

/-- A public share is created right after an action, for a card that is due. -/
structure CreatedInTurn (a : ActiveHand L.ziffle) (effects : List (HandEffect L.ziffle))
    (b before : ActiveHand L.ziffle) (cardIndex : UInt8) (hand : HoldemHand) : Prop where
  betting : before.hand = some hand
  stored : b.hand = some hand
  committed : ∃ origin action, .committed a origin before.sequence action ∈ effects
  inDeck : cardIndex.toNat < standardDeckSize
  due : BoardCardDue a.playerCount hand cardIndex ∨ HoleCardDue hand cardIndex
  closed : hand.street = .showdown → hand.nextToAct = none

/-- Where a share or a message of a move comes from. -/
inductive ShareOrigin (trace : List (HandEffect L.ziffle)) (a : ActiveHand L.ziffle)
    (effects : List (HandEffect L.ziffle)) (b : ActiveHand L.ziffle) :
    HandEffect L.ziffle → Prop
  | sent {message} (sendable : Sendable a message) :
      ShareOrigin trace a effects b (.sentPublic message)
  | sentAction {sequence action} :
      ShareOrigin trace a effects b (.sentPublic (.actionCommitted a.scope sequence action))
  | sentShare {scope seat cardIndex packet before}
      (created : .createdPublicShare before cardIndex packet ∈ effects) :
      ShareOrigin trace a effects b
        (.sentPublic (.communityRevealShare scope seat cardIndex packet))
  | relayed {message} : ShareOrigin trace a effects b (.relayed message)
  | sentPrivate {owner peer message} (recipient : a.table.peerIds[owner]? = some peer)
      (addressed : seatU8 (owner + 1) = .ok message.toSeat)
      (created : .createdHoleShare owner message.cardIndex message.packet ∈ trace) :
      ShareOrigin trace a effects b (.sentPrivate peer message)
  | createdHole {owner cardIndex packet} (seated : owner < a.playerCount)
      (owned : cardIndex ∈ holeIndexList owner) :
      ShareOrigin trace a effects b (.createdHoleShare owner cardIndex packet)
  | createdPublic {before cardIndex packet hand}
      (inTurn : CreatedInTurn a effects b before cardIndex hand) :
      ShareOrigin trace a effects b (.createdPublicShare before cardIndex packet)
  | resumed {sequence action} : ShareOrigin trace a effects b (.resumed sequence action)
  | committed {before origin sequence action} :
      ShareOrigin trace a effects b (.committed before origin sequence action)
  | showdown {before} : ShareOrigin trace a effects b (.showdown before)
  | settling {before execution} : ShareOrigin trace a effects b (.settling before execution)
  | finalized {receipt} : ShareOrigin trace a effects b (.finalized receipt)

theorem ShareOrigin.of_commitEffects {origin : ActionOrigin} {sequence : Nat}
    {action : SignedHandAction} {effect : HandEffect L.ziffle}
    (h : effect ∈ commitEffects a origin sequence action) :
    ShareOrigin trace a effects b effect := by
  rcases mem_commitEffects h with rfl | rfl
  · exact .committed
  · exact .sentAction

/-- The shares of a reveal that an action calls for. -/
theorem ShareOrigin.of_contributes {now : UInt64} {origin : ActionOrigin} {sequence : Nat}
    {action : SignedHandAction} {hand hand' : HoldemHand} {outcome : ActionOutcome}
    {reason : RevealReason} {indices : List UInt8} {shares : Shares}
    {created : List (HandEffect L.ziffle)} {outbound : List HandPublicMessage}
    {effect : HandEffect L.ziffle}
    (acted : (act action.playerId action.action).run hand = .ok outcome hand')
    (called : calledCards a.playerCount hand' outcome = some (reason, indices))
    (contributes : Contributes
      { a.commitTo now sequence action hand' with turnStartedAtUnixMs := none } indices shares
        created outbound)
    (stored : b.hand = some hand')
    (hsub : commitEffects a origin sequence action ⊆ effects) (h : effect ∈ created) :
    ShareOrigin trace a effects b effect := by
  obtain ⟨before, card, made, rfl, hcard, hin⟩ := contributes.creates _ h
  obtain ⟨hdue, hover⟩ := due_of_calledCards (act_announces acted) called hcard
  have hcommitted := hsub (mem_commitEffects_committed a origin sequence action)
  exact .createdPublic ⟨rfl, stored, ⟨origin, action, hcommitted⟩, hin, hdue, hover⟩

theorem HandMove.shareOrigin {effect : HandEffect L.ziffle}
    (move : HandMove L input trace a effects b) (h : effect ∈ effects) :
    ShareOrigin trace a effects b effect := by
  cases move with
  | sent message sendable =>
    cases mem_singleton.mp h
    exact .sent sendable
  | relayed =>
    cases mem_singleton.mp h
    exact .relayed
  | holeShareCreated owner cardIndex packet seated owned =>
    cases mem_singleton.mp h
    exact .createdHole seated owned
  | sentPrivate owner peer message recipient addressed created =>
    cases mem_singleton.mp h
    exact .sentPrivate recipient addressed created
  | resumed =>
    cases mem_singleton.mp h
    exact .resumed
  | committed now origin sequence action => exact .of_commitEffects h
  | advanced now origin sequence action hand hand' outcome reason indices shares created outbound
      acceptable betting acted called contributes =>
    rcases mem_append.mp h with h | h
    · rcases mem_append.mp h with h | h
      · exact .of_commitEffects h
      · have hsub := subset_append_of_subset_left (outbound.map HandEffect.sentPublic)
          (subset_append_left (commitEffects a origin sequence action) created)
        exact .of_contributes acted called contributes rfl hsub h
    · obtain ⟨message, hmessage, rfl⟩ := mem_map.mp h
      obtain ⟨seat, card, packet, before, rfl, hcreated⟩ := contributes.sends message hmessage
      exact .sentShare (mem_append_left _ (mem_append_right _ hcreated))
  | stalled now origin sequence action hand hand' outcome reason indices shares created acceptable
      betting acted called contributes failed =>
    rcases mem_append.mp h with h | h
    · exact .of_commitEffects h
    · exact .of_contributes acted called contributes rfl (subset_append_left _ _) h
  | showdownRun =>
    cases mem_singleton.mp h
    exact .showdown
  | settled =>
    cases mem_singleton.mp h
    exact .settling
  | wedged =>
    cases mem_singleton.mp h
    exact .settling
  | finalized =>
    cases mem_singleton.mp h
    exact .finalized
  | _ => exact absurd h not_mem_nil

/-! ## What a whole run gives away -/

/-- All shares that are created or sent are due. -/
structure Discloses (table : ReadyTable) (history : List (HandEffect L.ziffle)) : Prop where
  /-- A share created outside of a reveal is for a hole card of the seat it is made for. -/
  hole : ∀ owner cardIndex packet, .createdHoleShare owner cardIndex packet ∈ history →
    owner < table.players.length ∧ cardIndex ∈ holeIndexList owner
  /-- What is sent privately is such a share, and it goes to the peer of that seat. -/
  privately : ∀ peer message, .sentPrivate peer message ∈ history →
    ∃ owner < table.players.length, table.peerIds[owner]? = some peer ∧
      message.toSeat.toNat = owner + 1 ∧ message.cardIndex ∈ holeIndexList owner ∧
      .createdHoleShare owner message.cardIndex message.packet ∈ history
  /-- A public share is created when an action has been committed, and its card is due then. -/
  publicly : ∀ before cardIndex packet, .createdPublicShare before cardIndex packet ∈ history →
    ∃ hand earlier origin action, before.hand = some hand ∧
      .committed earlier origin before.sequence action ∈ history ∧
      (BoardCardDue table.players.length hand cardIndex ∨ HoleCardDue hand cardIndex)
  /-- No other share is ever made public. -/
  published : ∀ scope seat cardIndex packet,
    .sentPublic (.communityRevealShare scope seat cardIndex packet) ∈ history →
    ∃ before, .createdPublicShare before cardIndex packet ∈ history

/-- The seats of the showdown at which a share was created are those of the betting state. -/
def StandsAsShown (history : List (HandEffect L.ziffle)) (active : ActiveHand L.ziffle) : Prop :=
  ∀ before cardIndex packet, .createdPublicShare before cardIndex packet ∈ history →
    ∃ shown, before.hand = some shown ∧ cardIndex.toNat < standardDeckSize ∧
      (shown.street = .showdown → ∃ hand, active.hand = some hand ∧
        hand.nextToAct = none ∧ hand.standing = shown.standing)

/-- What is known in every state of a hand. -/
structure DiscloseInv (table : ReadyTable) (history : List (HandEffect L.ziffle))
    (active : ActiveHand L.ziffle) : Prop where
  atTable : active.table = table
  discloses : Discloses table history
  stands : StandsAsShown history active
  dealt : active.hand.isSome = true → active.localHoleCards.isSome = true

section

variable {table : ReadyTable} {history : List (HandEffect L.ziffle)} {active : ActiveHand L.ziffle}

theorem Discloses.nil : Discloses table ([] : List (HandEffect L.ziffle)) where
  hole := fun _ _ _ h => absurd h not_mem_nil
  privately := fun _ _ h => absurd h not_mem_nil
  publicly := fun _ _ _ h => absurd h not_mem_nil
  published := fun _ _ _ _ h => absurd h not_mem_nil

theorem Discloses.step (h : Discloses table (history ++ trace)) (hat : a.table = table)
    (move : HandMove L input trace a effects b) :
    Discloses table (history ++ trace ++ effects) where
  hole := by
    intro owner cardIndex packet hmem
    rcases mem_append.mp hmem with hmem | hmem
    · exact h.hole owner cardIndex packet hmem
    · cases move.shareOrigin hmem with
      | createdHole seated owned => exact ⟨hat ▸ seated, owned⟩
  privately := by
    intro peer message hmem
    rcases mem_append.mp hmem with hmem | hmem
    · obtain ⟨owner, howner, hpeer, hto, hcard, hcreated⟩ := h.privately peer message hmem
      exact ⟨owner, howner, hpeer, hto, hcard, mem_append_left _ hcreated⟩
    · cases move.shareOrigin hmem with
      | @sentPrivate owner _ _ recipient addressed created =>
        have hcreated := mem_append_right history created
        obtain ⟨howner, hcard⟩ := h.hole _ _ _ hcreated
        exact ⟨owner, howner, hat ▸ recipient, tryU8_eq_some.mp (okOr_eq_ok.mp addressed), hcard,
          mem_append_left _ hcreated⟩
  publicly := by
    intro before cardIndex packet hmem
    rcases mem_append.mp hmem with hmem | hmem
    · obtain ⟨hand, earlier, origin, action, hhand, hcommitted, hdue⟩ :=
        h.publicly before cardIndex packet hmem
      exact ⟨hand, earlier, origin, action, hhand, mem_append_left _ hcommitted, hdue⟩
    · cases move.shareOrigin hmem with
      | @createdPublic _ _ _ hand inTurn =>
        obtain ⟨origin, action, hcommitted⟩ := inTurn.committed
        exact ⟨hand, a, origin, action, inTurn.betting, mem_append_right _ hcommitted,
          hat ▸ inTurn.due⟩
  published := by
    intro scope seat cardIndex packet hmem
    rcases mem_append.mp hmem with hmem | hmem
    · obtain ⟨before, hcreated⟩ := h.published scope seat cardIndex packet hmem
      exact ⟨before, mem_append_left _ hcreated⟩
    · cases move.shareOrigin hmem with
      | sent sendable => exact sendable.elim
      | sentShare created => exact ⟨_, mem_append_right _ created⟩

/-- With nobody on turn no action changes the hand, and a showdown keeps the statuses. -/
theorem BettingStep.standing {hand : HoldemHand} (step : BettingStep a b)
    (dealt : a.localHoleCards.isSome = true) (betting : a.hand = some hand)
    (closed : hand.nextToAct = none) :
    ∃ hand', b.hand = some hand' ∧ hand'.nextToAct = none ∧ hand'.standing = hand.standing := by
  cases step with
  | kept same => exact ⟨hand, same.trans betting, closed, rfl⟩
  | started _ first =>
    rw [first] at dealt
    exact nomatch dealt
  | acted hand₀ playerId action betting₀ stored =>
    cases Option.some.inj (betting₀.symm.trans betting)
    rw [act_of_next_eq_none closed] at stored
    exact ⟨hand, stored, closed, rfl⟩
  | shown hand₀ board holes betting₀ stored =>
    cases Option.some.inj (betting₀.symm.trans betting)
    refine ⟨_, stored, ?_, settleShowdown_keeps_standing board holes hand⟩
    exact (settleShowdown_keeps_nextToAct board holes hand).trans closed

theorem HandMove.dealt (move : HandMove L input trace a effects b)
    (dealt : a.hand.isSome = true → a.localHoleCards.isSome = true) :
    b.hand.isSome = true → b.localHoleCards.isSome = true := by
  cases move with
  | aside change =>
    obtain ⟨_, _, _, _, _, _, _, rfl⟩ := change
    exact dealt
  | decrypted => exact fun _ => rfl
  | started => exact fun _ => rfl
  | refused _ _ _ _ _ _ _ betting => exact fun _ => dealt (by rw [betting]; rfl)
  | committed _ _ _ _ _ _ _ _ betting => exact fun _ => dealt (by rw [betting]; rfl)
  | advanced _ _ _ _ _ _ _ _ _ _ _ _ _ betting => exact fun _ => dealt (by rw [betting]; rfl)
  | stalled _ _ _ _ _ _ _ _ _ _ _ _ betting => exact fun _ => dealt (by rw [betting]; rfl)
  | showdownRun _ _ _ _ _ _ _ _ betting => exact fun _ => dealt (by rw [betting]; rfl)
  | _ => exact dealt

theorem DiscloseInv.step (h : DiscloseInv table (history ++ trace) a)
    (move : HandMove L input trace a effects b) :
    DiscloseInv table (history ++ trace ++ effects) b where
  atTable := move.sameHand.table.trans h.atTable
  discloses := h.discloses.step h.atTable move
  stands := by
    intro before cardIndex packet hmem
    rcases mem_append.mp hmem with hmem | hmem
    · obtain ⟨shown, hshown, hin, hstands⟩ := h.stands before cardIndex packet hmem
      refine ⟨shown, hshown, hin, fun hstreet => ?_⟩
      obtain ⟨hand, hhand, hover, hstanding⟩ := hstands hstreet
      have hdealt := h.dealt (by rw [hhand]; rfl)
      obtain ⟨hand', hhand', hover', hstanding'⟩ := move.bettingStep.standing hdealt hhand hover
      exact ⟨hand', hhand', hover', hstanding'.trans hstanding⟩
    · cases move.shareOrigin hmem with
      | @createdPublic _ _ _ hand inTurn =>
        exact ⟨hand, inTurn.betting, inTurn.inDeck, fun hstreet =>
          ⟨hand, inTurn.stored, inTurn.closed hstreet, rfl⟩⟩
  dealt := move.dealt h.dealt

theorem HandRun.discloseInv (run : HandRun L table history active) :
    DiscloseInv table history active := by
  refine run.by_moves (fun {seed active} hinitial => ?_) fun h move => h.step move
  obtain ⟨engine, localSeat, -, rfl⟩ := initialHand_eq_ok hinitial
  refine ⟨rfl, .nil, ?_, ?_⟩
  · intro before cardIndex packet hcreated
    exact absurd hcreated not_mem_nil
  · intro hdealt
    exact absurd hdealt Bool.false_ne_true

theorem status_of_standing {hand hand' : HoldemHand} (h : hand.standing = hand'.standing)
    {index : Nat} {seat seat' : SeatState} (hs : hand.seats[index]? = some seat)
    (hs' : hand'.seats[index]? = some seat') : seat.status = seat'.status := by
  have hat := congrArg (fun list : List (Chips × SeatStatus) => list[index]?) h
  simp only [HoldemHand.standing, getElem?_map, hs, hs', Option.map_some] at hat
  exact (Prod.mk.inj (Option.some.inj hat)).2

/-- In every run of a hand, against any messages, the peer creates shares only for the
hole cards of a seat, which it sends to the peer of that seat alone, and public ones for
board cards whose street has begun and hole cards of contenders at the showdown. So it
has no public share of a hole card of a seat that has folded in its betting state. -/
theorem discloses_only_what_is_due (run : HandRun L table history active) :
    Discloses table history ∧ ∀ hand index seat, active.hand = some hand →
      hand.seats[index]? = some seat → seat.status = .folded → index < table.players.length →
      ∀ before cardIndex packet, .createdPublicShare before cardIndex packet ∈ history →
        cardIndex ∉ holeIndexList index := by
  have hinv := run.discloseInv
  refine ⟨hinv.discloses, ?_⟩
  intro hand index seat hhand hseat hfolded hindex before cardIndex packet hcreated hhole
  obtain ⟨shown, hshown, hin, hstands⟩ := hinv.stands before cardIndex packet hcreated
  have hat := toNat_of_mem_holeIndexList hhole hin
  obtain ⟨shown', _, _, _, hshown', -, hdue⟩ :=
    hinv.discloses.publicly before cardIndex packet hcreated
  cases Option.some.inj (hshown.symm.trans hshown')
  rcases hdue with hboard | ⟨other, seat', hseat', hother, hstreet, hstatus⟩
  · have := toNat_of_mem_boardIndices hboard.mem hin
    omega
  · -- The card belongs to one seat only.
    have hat' := toNat_of_mem_holeIndexList hother hin
    obtain rfl : other = index := by omega
    obtain ⟨hand', hhand', -, hstanding⟩ := hstands hstreet
    cases Option.some.inj (hhand.symm.trans hhand')
    exact hstatus ((status_of_standing hstanding hseat hseat').symm.trans hfolded)

/-- Whether a public share has been created for a card. -/
def createdPublicly {Z : Ziffle} (cardIndex : UInt8) : HandEffect Z → Bool
  | .createdPublicShare _ card _ => card = cardIndex
  | _ => false

theorem createdPublicly_eq_true {Z : Ziffle} {cardIndex : UInt8} {effect : HandEffect Z}
    (h : createdPublicly cardIndex effect = true) :
    ∃ before packet, effect = .createdPublicShare before cardIndex packet := by
  cases effect with
  | createdPublicShare before card packet =>
    obtain rfl : card = cardIndex := of_decide_eq_true h
    exact ⟨before, packet, rfl⟩
  | _ => exact nomatch h

/-- The small blind calls and the big blind checks: the shares of the flop are created. -/
theorem discloses_only_what_is_due_flop :
    ∃ (history : List (HandEffect Ziffle.plain)) (active : ActiveHand Ziffle.plain),
      HandRun .plain (pairTable oneTwoLevel [chips 40, chips 40] 0) history active ∧
      (∃ before packet, .createdPublicShare before 5 packet ∈ history) ∧
      Discloses (L := .plain)
        (pairTable oneTwoLevel [chips 40, chips 40] 0) history := by
  have hplay : (playHand .plain (pairTable oneTwoLevel [chips 40, chips 40] 0) ()
      (seatExecution 0 0) (dealTurns ++ [.act 6 .call, .hearAction 7 1000007 .check])).any
        (fun s => s.trace.any (createdPublicly 5)) = true := by
    decide +kernel
  obtain ⟨s, hrun, hcreated⟩ := exists_handRun_of_play hplay
  obtain ⟨effect, hmem, heffect⟩ := any_eq_true.mp hcreated
  obtain ⟨before, packet, rfl⟩ := createdPublicly_eq_true heffect
  exact ⟨s.trace, s.active, hrun, ⟨before, packet, hmem⟩, (discloses_only_what_is_due hrun).1⟩

end

end TokenHoldem
