import TokenHoldem.Sidecar.HandRuntime.Moves

/-!
# Every call is a sequence of moves

One lemma for each method of the hand: started where the call has come by moves, it
ends where the call has come by moves, whether it succeeds or fails.

- `HandCommand.came`: this holds of every call.
- `HandRun.by_moves`: what holds at the start and is kept by every move holds in
  every state of a hand.
-/

namespace TokenHoldem

open Library TracedM List Option

variable {L : HandPrimitives} {input : HandInput} {a : ActiveHand L.ziffle}
  {conflict : Option ActionConflictEvidence}
  {s : TracedHand L.ziffle}

variable {message : HandPublicMessage} {draws : Draws L.ziffle}
  {t u : TracedHand L.ziffle} {deck : VerifiedDeck L.ziffle}
  {active : ActiveHand L.ziffle} {cardIndex : UInt8}
  {Q : TracedHand L.ziffle → Prop} {now : UInt64}
  {execution : HandExecutionContext L.ziffle} {hand : HoldemHand} {pending : PendingReveal}
  {shares : Shares} {b : ActiveHand L.ziffle} {indices : List UInt8}
  {created : List (HandEffect L.ziffle)} {outbound : List HandPublicMessage} {sequence : Nat}
  {action : SignedHandAction} {source : PeerId}

section

variable (h : Calm L input a conflict s)

include h

theorem calm_queuePublicMessage (sendable : Sendable s.active message) :
    Ends (Calm L input a conflict) s (queuePublicMessage L message) :=
  h.move (.sent message sendable) rfl rfl

/-! ## Dealing -/

theorem calm_aggregateKeys : Ends (Calm L input a conflict) s (aggregateKeys L) := by
  refine ends_getActive (.ite (fun hfirst => ?_) fun _ => .pure h)
  refine ends_expect_bind h fun keys hkeys => ?_
  refine ends_expect_bind h fun aggregate haggregate => ?_
  refine ends_expect_bind h fun transcript htranscript => ?_
  refine ends_update_bind (ends_expect (h.silent ?_ rfl rfl))
  exact .aggregated keys aggregate transcript (isNone_iff_eq_none.mp hfirst.1) hkeys
    (withContext_eq_ok.mp haggregate) htranscript

theorem calm_ensureLocalShuffle :
    Ends (Calm L input a conflict) s (ensureLocalShuffle L draws) := by
  refine ends_getActive (.ite (fun _ => .pure h) fun hturn => ?_)
  rw [not_or, not_or, not_lt, Bool.not_eq_true, isSome_eq_false_iff, isNone_iff_eq_none] at hturn
  refine ends_expect_bind h fun packet _ => ?_
  refine ends_update_bind (calm_queuePublicMessage (h.silent ?_ rfl rfl) trivial)
  exact .shuffleAdded _ packet hturn.2.2 (.inl hturn.1)

theorem calm_advanceShuffles {rounds : Nat} :
    Ends (Calm L input a conflict) s (advanceShuffles L draws rounds) := by
  induction rounds generalizing s with
  | zero => exact .pure h
  | succ rounds ih =>
    refine ends_getActive ?_
    dsimp only
    split
    · exact .pure h
    next packet hpacket =>
      refine ends_expect_bind h fun deck hdeck => ?_
      have hnext := h.silent (.shuffled packet deck hpacket hdeck) rfl rfl
      refine ends_update_bind (ends_expect_bind hnext fun _ _ => ?_)
      refine .ite (fun _ => .pure hnext) fun _ => ?_
      exact (calm_ensureLocalShuffle hnext).seq fun _ t ht => ih ht

theorem calm_runShuffles : Ends (Calm L input a conflict) s (runShuffles L draws) := by
  refine ends_getActive (.ite (fun _ => ?_) fun _ => .pure h)
  exact (calm_ensureLocalShuffle h).seq fun _ t ht => calm_advanceShuffles ht

end

/-- A share that is about to be sent: it goes to the owner of the card, and this call
has created it. -/
def Deliverable (t : TracedHand L.ziffle) (delivery : PeerId × HandPrivateMessage) : Prop :=
  ∃ owner, t.active.table.peerIds[owner]? = some delivery.1 ∧
    seatU8 (owner + 1) = .ok delivery.2.toSeat ∧
    .createdHoleShare owner delivery.2.cardIndex delivery.2.packet ∈ t.trace

/-- The state of a call that has started to deal. -/
structure CalmDealing (L : HandPrimitives) (input : HandInput) (a : ActiveHand L.ziffle)
    (conflict : Option ActionConflictEvidence)
    (s t : TracedHand L.ziffle) : Prop where
  calm : Calm L input a conflict t
  table : t.active.table = s.active.table
  stage : t.active.shuffleStage = s.active.shuffleStage
  trace : s.trace ⊆ t.trace

theorem CalmDealing.trans (h : CalmDealing L input a conflict s t)
    (h' : CalmDealing L input a conflict t u) :
    CalmDealing L input a conflict s u where
  calm := h'.calm
  table := h'.table.trans h.table
  stage := h'.stage.trans h.stage
  trace := Subset.trans h.trace h'.trace

theorem CalmDealing.deliverable {delivery : PeerId × HandPrivateMessage}
    (h : CalmDealing L input a conflict t u) (hd : Deliverable t delivery) :
    Deliverable u delivery := by
  obtain ⟨owner, hpeer, hseat, hcreated⟩ := hd
  exact ⟨owner, by rw [h.table]; exact hpeer, hseat, h.trace hcreated⟩

theorem returns_createHoleShares {fromSeat : UInt8} {cards : List (Nat × UInt8)}
    (h : Calm L input a conflict s)
    (hcards : ∀ card ∈ cards, card.1 < s.active.playerCount ∧ card.2 ∈ holeIndexList card.1) :
    Returns (fun outbound t => CalmDealing L input a conflict s t ∧ ∀ delivery ∈ outbound,
        Deliverable t delivery) (Calm L input a conflict) s
      (createHoleShares L draws fromSeat deck cards) := by
  induction cards generalizing s with
  | nil =>
    refine .pure ⟨⟨h, rfl, rfl, Subset.refl _⟩, ?_⟩
    intro delivery hdelivery
    exact absurd hdelivery not_mem_nil
  | cons card rest ih =>
    obtain ⟨owner, cardIndex⟩ := card
    obtain ⟨hseated, howned⟩ := hcards _ mem_cons_self
    have hrest := fun card hcard => hcards card (mem_cons_of_mem _ hcard)
    refine returns_getActive ?_
    refine returns_expect_bind (fun _ _ => h) fun toSeat hto => ?_
    refine returns_expect_bind (fun _ _ => h) fun packet hpacket => ?_
    have hindex := MentalPokerEngine.createRevealShare_eq_ok (withContext_eq_ok.mp hpacket)
    have hcreated := h.move (.holeShareCreated owner cardIndex packet hseated howned hindex) rfl rfl
    refine returns_record_bind (.ite (fun _ => ?_) fun _ => ?_)
    · -- The own card: its share is kept.
      refine returns_update_bind (.imp (ih (hcreated.aside ?_) ?_) (fun outbound t ht => ?_)
        fun _ ht => ht)
      · exact ⟨_, _, _, _, _, _, .refl _, rfl⟩
      · exact hrest
      · refine ⟨?_, ht.2⟩
        exact ⟨ht.1.calm, ht.1.table, ht.1.stage, Subset.trans (subset_append_left _ _) ht.1.trace⟩
    · refine returns_expect_bind (fun _ _ => hcreated) fun peer hpeer => ?_
      refine (ih hcreated hrest).bind fun outbound t ht => .pure ⟨?_, ?_⟩
      · exact ⟨ht.1.calm, ht.1.table, ht.1.stage, Subset.trans (subset_append_left _ _) ht.1.trace⟩
      · intro delivery hdelivery
        rcases mem_cons.mp hdelivery with rfl | hdelivery
        · refine ht.1.deliverable ⟨owner, okOr_eq_ok.mp hpeer, hto, ?_⟩
          exact mem_append_right _ (mem_singleton.mpr rfl)
        · exact ht.2 delivery hdelivery

/-- Sending changes neither the table nor what has been created. -/
theorem ends_sendHoleShares {outbound : List (PeerId × HandPrivateMessage)}
    (h : Calm L input a conflict s) (deliverable : ∀ delivery ∈ outbound, Deliverable s delivery) :
    Ends (CalmDealing L input a conflict s) s (forEach (fun delivery =>
      record (.sentPrivate delivery.1 delivery.2)) outbound : ActiveHandM L.ziffle Unit) := by
  refine ends_forEach ⟨h, rfl, rfl, Subset.refl _⟩ fun delivery hdelivery t ht => ?_
  obtain ⟨owner, hpeer, hseat, hcreated⟩ := ht.deliverable (deliverable delivery hdelivery)
  have hsent := ht.calm.move (.sentPrivate owner delivery.1 delivery.2 hpeer hseat hcreated) rfl rfl
  exact ends_record (ht.trans ⟨hsent, rfl, rfl, subset_append_left _ _⟩)

/-- Hole cards go to the seats of the hand. -/
theorem mem_holeCardsToDeal {card : Nat × UInt8} (h : card ∈ active.holeCardsToDeal L) :
    card.1 < active.playerCount ∧ card.2 ∈ holeIndexList card.1 := by
  obtain ⟨owner, howner, hcard⟩ := mem_flatMap.mp h
  obtain ⟨cardIndex, hindex, rfl⟩ := mem_map.mp hcard
  exact ⟨mem_range.mp howner, hindex⟩

theorem calm_beginHoleDistribution (h : Calm L input a conflict s)
    (complete : s.active.shuffleStage.toNat = s.active.playerCount) :
    Ends (Calm L input a conflict) s (beginHoleDistribution L draws) := by
  refine ends_getActive ?_
  refine ends_expect_bind h fun deck _ => ?_
  refine ends_expect_bind h fun fromSeat _ => ?_
  refine (returns_createHoleShares h fun card => mem_holeCardsToDeal).ends_bind
    fun outbound t ht => ?_
  refine (ends_sendHoleShares ht.1.calm ht.2).bind (fun _ hu => hu.calm) fun _ u hu => ?_
  have hdealt := ht.1.trans hu
  refine ends_update (hdealt.calm.silent (.distributed ?_) rfl rfl)
  rw [hdealt.stage, ActiveHand.playerCount, hdealt.table]
  exact complete

theorem calm_distributeHoleCards (h : Calm L input a conflict s) :
    Ends (Calm L input a conflict) s (distributeHoleCards L draws) := by
  refine ends_getActive (.ite (fun hcomplete => ?_) fun _ => .pure h)
  exact (calm_beginHoleDistribution h hcomplete.1).seq fun _ t ht => ends_expect ht

/-- A card is revealed from a verified deck only. -/
theorem revealIfComplete_eq_some {card : Card}
    (h : active.revealIfComplete L cardIndex = .ok (some card)) :
    active.verifiedKeys.isSome = true ∧ active.deck.isSome = true := by
  unfold ActiveHand.revealIfComplete at h
  split at h
  · exact nomatch h
  · split at h
    · exact nomatch h
    · obtain ⟨keys, hkeys, h⟩ := okOr_bind_eq_ok.mp h
      obtain ⟨deck, hdeck, -⟩ := okOr_bind_eq_ok.mp h
      exact ⟨by rw [hkeys]; rfl, by rw [hdeck]; rfl⟩

/-- Revealed cards need keys and a deck. -/
theorem revealLocalHoleCards_eq_some {cards : Card × Card}
    (h : active.revealLocalHoleCards L = .ok (some cards)) :
    active.verifiedKeys.isSome = true ∧ active.deck.isSome = true := by
  obtain ⟨first, hfirst, h⟩ := bind_eq_ok.mp h
  obtain ⟨second, -, h⟩ := bind_eq_ok.mp h
  rcases first with - | first
  · exact nomatch h
  · exact revealIfComplete_eq_some hfirst

/-- The betting starts, or nothing has changed. -/
theorem ends_startBettingHand_bind {k : Unit → ActiveHandM L.ziffle Unit} (failed : Q s)
    (started : ∀ hand, HoldemHand.start s.active.table.level
        (s.active.table.players.zip s.active.table.buyIns) s.active.dealerIndex = .ok hand →
      Ends Q { s with active := { s.active with hand := some hand } } (k ())) :
    Ends Q s (startBettingHand L >>= k) := by
  refine Returns.ends_bind (Q := fun _ t => Ends Q t (k ())) ?_ fun _ _ ht => ht
  refine returns_getActive (returns_expect_bind (fun _ _ => failed) fun hand hhand => ?_)
  exact started hand (withContext_eq_ok.mp hhand)

theorem calm_dealLocalCards (h : Calm L input a none s) :
    Ends (Calm L input a none) s (dealLocalCards L) := by
  refine ends_getActive (.ite (fun hdealt => ?_) fun _ => .pure h)
  have hfirst := isNone_iff_eq_none.mp hdealt.1
  refine ends_expect_bind h fun cards hcards => ?_
  rcases cards with - | cards
  · exact .pure h
  obtain ⟨hkeys, hdeck⟩ := revealLocalHoleCards_eq_some hcards
  have hdecrypted := h.silent (.decrypted cards h.conflict hfirst) rfl rfl
  refine ends_update_bind (ends_startBettingHand_bind hdecrypted fun hand hhand => ?_)
  have hstarted : Calm L input a none { s with active :=
      { s.active with localHoleCards := some cards, hand := some hand } } := by
    have hmove := h.bet (.started cards hand h.conflict hfirst hdealt.2 hkeys hdeck hhand) rfl ?_
    · rwa [append_nil] at hmove
    · -- a hand starts before the flop
      rintro - _ ⟨⟩ hcomplete
      rw [(start_opened hhand).street] at hcomplete
      cases hcomplete
  refine ends_expect_bind hstarted fun localSeat hseat => ?_
  have hready := hstarted.silent (.readyOwn localSeat hseat rfl rfl) rfl rfl
  refine ends_update_bind ?_
  refine (calm_queuePublicMessage hready (by exact ⟨hseat, rfl, rfl⟩)).seq fun _ t ht => ?_
  exact ends_getActive (ends_expect_bind ht fun _ _ => ends_expect ht)

/-! ## Settlement -/

theorem calm_tryFinalizeReceipt (h : Calm L input a conflict s) :
    Ends (Calm L input a conflict) s (tryFinalizeReceipt L now) := by
  refine ends_getActive ?_
  split
  · exact .pure h
  next consensus hconsensus =>
    refine .ite (fun _ => .pure h) fun hopen => ?_
    refine ends_expect_bind h fun result hresult => ?_
    obtain ⟨consensus', receipt⟩ := result
    have hkept : Calm L input a conflict
        { s with active := { s.active with receiptConsensus := some consensus' } } := by
      refine h.aside ⟨_, _, _, _, _, _, ?_, rfl⟩
      rw [hconsensus]
      rcases ReceiptConsensus.tryFinalize_eq_ok hresult with ⟨-, rfl⟩ | ⟨_, -, -, -, rfl⟩
      · exact .refl _
      · exact .some rfl fun _ => rfl
    refine ends_update_bind ?_
    rcases receipt with - | receipt
    · exact .pure hkept
    · refine ends_expect_bind hkept fun _ _ => ends_expect_bind hkept fun _ _ => ?_
      exact ends_update_bind (ends_record (h.move
        (.finalized now consensus consensus' receipt hconsensus (by simpa using hopen)
          hresult) rfl rfl))

theorem calm_acceptReceiptSignature {receipt : HandReceipt} {signature : ParticipantSignature}
    (h : Calm L input a conflict s) :
    Ends (Calm L input a conflict) s (acceptReceiptSignature L receipt signature now) := by
  refine ends_getActive ?_
  refine ends_expect_bind h fun _ _ => ends_expect_bind h fun _ _ => ?_
  split
  · refine ends_expect_bind h fun pending _ => ?_
    exact ends_update (h.aside ⟨_, _, _, _, _, _, .refl _, rfl⟩)
  next consensus hconsensus =>
    refine ends_expect_bind h fun result hresult => ?_
    obtain ⟨consensus', inserted⟩ := result
    have hkept : Calm L input a conflict
        { s with active := { s.active with receiptConsensus := some consensus' } } := by
      refine h.aside ⟨_, _, _, _, _, _, ?_, rfl⟩
      rw [hconsensus]
      obtain ⟨-, -, ⟨-, rfl⟩ | ⟨-, rfl⟩⟩ := ReceiptConsensus.accept_eq_ok hresult
      · exact .refl _
      · exact .some rfl id
    refine ends_update_bind (.ite (fun _ => ?_) fun _ => calm_tryFinalizeReceipt hkept)
    exact ends_getActive (ends_expect_bind hkept fun _ _ => calm_tryFinalizeReceipt hkept)

/-- A settlement that balances ends the hand, once. -/
theorem calm_finishSettlement {settlement : HoldemSettlement}
    (moves : HandMoves L input a s.trace s.active) (free : s.active.actionConflict = none)
    (called : a.Tidy → ∀ hand ∈ s.active.hand, Called s.active.table.level
      (s.active.table.players.zip s.active.table.buyIns) s.active.dealerIndex hand)
    (balances : Balances s.active settlement) (first : Unsettled s.trace s.active) :
    Ends (Calm L input a none) s (finishSettlement L execution settlement) := by
  refine ends_getActive (ends_record_bind (ends_update_bind ?_))
  -- Whatever fails from here on, the hand counts as settled.
  have hmove : ∀ {consensus : Option ReceiptConsensus}, HandMove L input s.trace s.active
      [.settling s.active execution] { s.active with
        settled := true, turnStartedAtUnixMs := none, receiptConsensus := consensus } →
      Calm L input a none
        { active := { s.active with
            settled := true, turnStartedAtUnixMs := none, receiptConsensus := consensus }
          trace := s.trace ++ [.settling s.active execution] } := fun move =>
    ⟨⟨.snoc moves move, fun start => ⟨called start, fun _ _ _ => .inr rfl⟩⟩, free⟩
  have hwedged := fun failed => hmove (.wedged execution settlement free balances failed first)
  refine ends_expect_cases (fun e he => hwedged fun receipt _ hbuilt => ?_) fun receipt hbuilt => ?_
  · exact nomatch he.symm.trans hbuilt
  refine ends_expect_cases (fun e he => hwedged fun receipt' started hbuilt' => ?_)
    fun started hstarted => ?_
  · cases Except.ok.inj (hbuilt.symm.trans hbuilt')
    exact fun hstarted => nomatch he.symm.trans hstarted
  obtain ⟨consensus, signature⟩ := started
  have hsettled := hmove (.settled execution settlement receipt consensus signature free balances
    hbuilt hstarted first)
  refine ends_update_bind ?_
  refine (calm_queuePublicMessage hsettled (by exact trivial)).seq fun _ t ht => ?_
  refine ends_getActive ?_
  refine ends_expect_bind ht fun _ _ => ends_expect_bind ht fun _ _ => ?_
  have hcleared : Calm L input a none
      { t with active := { t.active with pendingReceiptSignatures := ∅ } } :=
    ht.aside ⟨_, _, _, _, _, _, .refl _, rfl⟩
  refine ends_update_bind (.seq (ends_forEach hcleared fun entry _ u hu => ?_) fun _ u hu =>
    calm_tryFinalizeReceipt hu)
  exact ends_attempt (calm_acceptReceiptSignature hu)

/-! ## Turning over cards -/

/-- `onHand` leaves the betting state where the method leaves it. -/
theorem ends_onHand_bind {α β : Type} {missing text : String} {method : HandM α}
    {k : α → ActiveHandM L.ziffle β} (betting : s.active.hand = some hand)
    (failed : ∀ e hand', method.run hand = .error e hand' →
      Q { s with active := { s.active with hand := some hand' } })
    (returned : ∀ value hand', method.run hand = .ok value hand' →
      Ends Q { s with active := { s.active with hand := some hand' } } (k value)) :
    Ends Q s (onHand missing text method >>= k) := by
  refine Returns.ends_bind (Q := fun value t => Ends Q t (k value)) ?_ fun _ _ ht => ht
  refine returns_getActive (returns_expect_bind ?_ fun hand' hbetting => ?_)
  · intro e he
    rw [ActiveHand.betting, betting] at he
    exact nomatch he
  · cases Option.some.inj (betting.symm.trans (okOr_eq_ok.mp hbetting))
    split
    next value hand' hrun => exact returned value hand' hrun
    next e hand' hrun => exact failed e hand' hrun

theorem returns_revealCards (before : List UInt8) {cards : List UInt8} (h : Calm L input a none s)
    (asked : s.active.pendingReveal = some pending) (split : pending.indices = before ++ cards)
    (earlier : Revealed s.active before) :
    Returns (fun _ t => Calm L input a none t ∧ t.active.pendingReveal = some pending)
      (Calm L input a none) s (revealCards L cards) := by
  induction cards generalizing s before with
  | nil => exact .pure ⟨h, asked⟩
  | cons cardIndex rest ih =>
    have hsplit : pending.indices = (before ++ [cardIndex]) ++ rest := by simp [split]
    refine returns_getActive (.ite (fun hshown => ?_) fun hhidden => ?_)
    · refine ih _ h asked hsplit fun other hother => ?_
      rcases mem_append.mp hother with hother | hother
      · exact earlier other hother
      · rwa [mem_singleton.mp hother]
    · split
      · exact .pure ⟨h, asked⟩
      next packets hpackets =>
      refine .ite (fun _ => .pure ⟨h, asked⟩) fun _ => ?_
      refine returns_expect_bind (fun _ _ => h) fun keys hkeys => ?_
      refine returns_expect_bind (fun _ _ => h) fun deck hdeck => ?_
      refine returns_expect_bind (fun _ _ => h) fun shares hshares => ?_
      refine returns_expect_bind (fun _ _ => h) fun card hcard => ?_
      refine returns_expect_bind (fun _ _ => h) fun transcript htranscript => ?_
      have hopened := h.silent (.cardRevealed pending before rest cardIndex packets keys deck shares
        card transcript h.conflict asked split earlier (by simpa using hhidden) hpackets
        (okOr_eq_ok.mp hkeys) (okOr_eq_ok.mp hdeck) hshares
        (withContext_eq_ok.mp hcard) htranscript)
        rfl rfl
      refine returns_update_bind (ih _ hopened asked hsplit fun other hother => ?_)
      show ((s.active.publicCards.insert cardIndex card)[other]?).isSome = true
      rw [getElem?_insert_ite]
      split
      · rfl
      next hne =>
        rcases mem_append.mp hother with hother | hother
        · exact earlier other hother
        · exact absurd (mem_singleton.mp hother).symm hne

theorem calm_settleAtShowdown (h : Calm L input a none s)
    (asked : s.active.pendingReveal = some pending) (reason : pending.reason = .showdown)
    (complete : Revealed s.active pending.indices) :
    Ends (Calm L input a none) { s with active := { s.active with pendingReveal := none } }
      (settleAtShowdown L execution) := by
  have hlost := fun lost =>
    h.silent (.showdownLost pending h.conflict asked reason complete lost) rfl rfl
  refine ends_getActive ?_
  refine ends_expect_cases (fun e he => hlost ?_) fun board hboard => ?_
  · rintro ⟨_, board, _, _, hboard, _⟩
    exact nomatch he.symm.trans hboard
  refine ends_expect_cases (fun e he => hlost ?_) fun hand hhand => ?_
  · rintro ⟨hand, _, _, hhand, _⟩
    exact nomatch he.symm.trans (okOr_eq_ok.mpr hhand)
  have hbetting : s.active.hand = some hand := okOr_eq_ok.mp hhand
  refine ends_expect_cases (fun e he => hlost ?_) fun holes hholes => ?_
  · rintro ⟨hand', _, holes, hhand', _, hholes⟩
    cases Option.some.inj (hbetting.symm.trans hhand')
    exact nomatch he.symm.trans hholes
  have hrun := h.bet (.showdownRun pending hand board holes h.conflict asked reason complete
    hbetting hboard hholes) rfl (by
      -- at the showdown nobody is asked, before and after
      rintro tidy _ ⟨⟩ hcomplete
      rcases settleShowdown_street board (fun p => holes[p]?) hand with hsame | ⟨hshow, -⟩
      · rw [hsame] at hcomplete ⊢
        exact tidy.settled hand hbetting hcomplete
      · exact .inl ((settleShowdown_keeps_nextToAct board (fun p => holes[p]?) hand).trans
          ((tidy.called hand hbetting).onCourse.showdown hshow)))
  refine ends_record_bind (ends_onHand_bind hbetting (fun e hand' hfailed => ?_)
    fun settlement hand' hsettled => ?_)
  · rw [hfailed] at hrun
    exact hrun
  · rw [hsettled] at hrun
    exact calm_finishSettlement hrun.came.moves hrun.conflict
      (fun start => (hrun.came.tidy start).called)
      ⟨hand', rfl, settleShowdown_balances hsettled⟩
      ⟨rfl, .inr ⟨_, mem_append_right _ mem_cons_self, rfl⟩⟩

theorem calm_tryCompletePublicReveal (h : Calm L input a none s) :
    Ends (Calm L input a none) s (tryCompletePublicReveal L execution) := by
  refine ends_getActive ?_
  split
  · exact .pure h
  next pending asked =>
    have hcards := returns_revealCards [] h asked rfl fun _ hnone =>
      absurd hnone not_mem_nil
    refine hcards.ends_bind fun complete t ht => ?_
    refine ends_getActive (.ite (fun hcomplete => ?_) fun _ => .pure ht.1)
    have hrevealed : Revealed t.active pending.indices := all_eq_true.mp hcomplete.2
    refine ends_update_bind ?_
    split
    next hreason =>
      have hstreet :=
        ht.1.silent (.streetRevealed pending ht.1.conflict ht.2 hreason hrevealed) rfl rfl
      have hclock : Calm L input a none { t with active := { t.active with
          pendingReveal := none, turnStartedAtUnixMs := some execution.nowUnixMs } } :=
        hstreet.aside ⟨_, _, _, _, _, _, .refl _, rfl⟩
      exact ends_update_bind (ends_getActive (ends_expect hclock))
    next hreason => exact calm_settleAtShowdown ht.1 ht.2 hreason hrevealed

/-! ## Committing actions -/

theorem Shares.Extends.refl (shares : Shares) : shares.Extends shares := fun _ _ _ h => h

theorem Shares.Extends.trans {shares' shares'' : Shares} (h : shares.Extends shares')
    (h' : shares'.Extends shares'') : shares.Extends shares'' :=
  fun cardIndex seat packet hp => h' cardIndex seat packet (h cardIndex seat packet hp)

/-- A share for a card that has none of its seat yet replaces nothing. -/
theorem Shares.extends_insert {seat : UInt8} {packet : RevealSharePacket}
    (fresh : (shares.of cardIndex)[seat]? = none) :
    shares.Extends (shares.insert cardIndex ((shares.of cardIndex).insert seat packet)) := by
  intro card other held hheld
  unfold Shares.of
  rw [getElem?_insert_ite]
  split
  next hcard =>
    subst hcard
    rw [getD_some, getElem?_insert_ite]
    split
    next hseat =>
      subst hseat
      rw [hheld] at fresh
      exact nomatch fresh
    · exact hheld
  · exact hheld

/-- Storing what is there already replaces nothing. -/
theorem Shares.extends_insert_self :
    shares.Extends (shares.insert cardIndex (shares.of cardIndex)) := by
  intro card other held hheld
  unfold Shares.of
  rw [getElem?_insert_ite]
  split
  next hcard =>
    subst hcard
    exact hheld
  · exact hheld

theorem Contributes.nil : Contributes b indices b.publicShares [] [] where
  grows := .refl _
  creates := fun _ h => absurd h not_mem_nil
  sends := fun _ h => absurd h not_mem_nil

/-- A new share is created and announced, and others follow. -/
theorem Contributes.cons {b : ActiveHand L.ziffle} {cardIndex seat : UInt8} {rest : List UInt8}
    {packet : RevealSharePacket} {shares : Shares} {created : List (HandEffect L.ziffle)}
    {outbound : List HandPublicMessage} (inDeck : cardIndex.toNat < standardDeckSize)
    (fresh : (b.publicShares.of cardIndex)[seat]? = none)
    (h : Contributes
      { b with
        publicShares := b.publicShares.insert cardIndex
          ((b.publicShares.of cardIndex).insert seat packet) } rest shares created outbound) :
    Contributes b (cardIndex :: rest) shares (.createdPublicShare b cardIndex packet :: created)
      (.communityRevealShare b.scope seat cardIndex packet :: outbound) where
  grows := (Shares.extends_insert fresh).trans h.grows
  creates := by
    intro effect heffect
    rcases mem_cons.mp heffect with rfl | heffect
    · exact ⟨b.publicShares, cardIndex, packet, rfl, mem_cons_self, inDeck⟩
    · obtain ⟨before, card, made, rfl, hcard, hin⟩ := h.creates effect heffect
      exact ⟨before, card, made, rfl, mem_cons_of_mem _ hcard, hin⟩
  sends := by
    intro message hmessage
    rcases mem_cons.mp hmessage with rfl | hmessage
    · exact ⟨seat, cardIndex, packet, b, rfl, mem_cons_self⟩
    · obtain ⟨from', card, made, before, rfl, hmade⟩ := h.sends message hmessage
      exact ⟨from', card, made, before, rfl, mem_cons_of_mem _ hmade⟩

theorem Contributes.mono {indices' : List UInt8} (h : Contributes b indices shares created outbound)
    (hsub : indices ⊆ indices') :
    Contributes b indices' shares created outbound where
  grows := h.grows
  creates := by
    intro effect heffect
    obtain ⟨before, card, made, rfl, hcard, hin⟩ := h.creates effect heffect
    exact ⟨before, card, made, rfl, hsub hcard, hin⟩
  sends := h.sends

theorem Contributes.silent (h : Contributes b indices shares created outbound) :
    Contributes b indices shares created [] :=
  { h with sends := fun _ hnone => absurd hnone not_mem_nil }

/-- The state after some shares have been created. -/
def Traced.contributed (s : TracedHand L.ziffle) (shares : Shares)
    (created : List (HandEffect L.ziffle)) : TracedHand L.ziffle :=
  { active := { s.active with publicShares := shares }, trace := s.trace ++ created }

/-- Shares are created in order, as far as the cards are in the deck. -/
theorem returns_createPublicShares {localSeat : UInt8} {cards : List UInt8} : Returns
      (fun outbound t => ∃ shares created, t = Traced.contributed s shares created ∧
        Contributes s.active cards shares created outbound)
      (fun t => ∃ shares created, t = Traced.contributed s shares created ∧
        Contributes s.active cards shares created [] ∧
        ∃ cardIndex ∈ cards, ¬cardIndex.toNat < standardDeckSize) s
      (createPublicShares L draws localSeat deck cards) := by
  induction cards generalizing s with
  | nil => exact .pure ⟨_, [], by simp [Traced.contributed], .nil⟩
  | cons cardIndex rest ih =>
    refine returns_getActive (.ite (fun _ => ?_) fun hfresh => ?_)
    · -- The own share for this card exists.
      refine ih.imp ?_ ?_
      · rintro outbound t ⟨shares, created, ht, hc⟩
        exact ⟨shares, created, ht, hc.mono (subset_cons_self _ _)⟩
      · rintro t ⟨shares, created, ht, hc, card, hcard, hout⟩
        exact ⟨shares, created, ht, hc.mono (subset_cons_self _ _), card,
          mem_cons_of_mem _ hcard, hout⟩
    · refine returns_expect_bind (fun e he => ?_) fun packet hpacket => ?_
      · refine ⟨_, [], by simp [Traced.contributed], .nil, cardIndex, mem_cons_self, ?_⟩
        intro hin
        obtain ⟨packet, hpacket⟩ := s.active.engine.exists_createRevealShare
          (draws.publicShare cardIndex) deck s.active.localKey hin
        rw [hpacket] at he
        exact nomatch he
      have hin := MentalPokerEngine.createRevealShare_eq_ok (withContext_eq_ok.mp hpacket)
      have hnone : (s.active.publicShares.of cardIndex)[localSeat]? = none := by simpa using hfresh
      refine returns_record_bind
        (returns_update_bind (Returns.bind (.imp ih (fun _ _ h => h) ?_) ?_))
      · rintro t ⟨shares, created, rfl, hc, card, hcard, hout⟩
        refine ⟨shares, _ :: created, ?_, (hc.cons hin hnone).silent, card,
          mem_cons_of_mem _ hcard, hout⟩
        simp [Traced.contributed]
      · rintro outbound t ⟨shares, created, rfl, hc⟩
        refine .pure ⟨shares, _ :: created, ?_, hc.cons hin hnone⟩
        simp [Traced.contributed]

/-- A reveal is asked for with all own shares, or it fails for a reason that does not
depend on the call. -/
theorem ends_requestPublicReveal {reason : RevealReason} (done : ∀ shares created outbound,
      Contributes s.active (sortedIndices indices) shares created outbound →
      Q { active := { s.active with
            publicShares := shares
            pendingReveal := some { reason, indices := sortedIndices indices } }
          trace := s.trace ++ created ++ outbound.map .sentPublic })
    (failed : ∀ shares created, Contributes s.active (sortedIndices indices) shares created [] →
      ¬CanContribute s.active (sortedIndices indices) → Q (Traced.contributed s shares created)) :
    Ends Q s (requestPublicReveal L draws indices reason) := by
  have hbare : ∀ hcannot, Q s := fun hcannot => by
    simpa [Traced.contributed] using failed s.active.publicShares [] .nil hcannot
  refine ends_getActive ?_
  refine ends_expect_cases (fun e he => hbare fun hcan => ?_) fun deck hdeck => ?_
  · obtain ⟨deck, hdeck⟩ := isSome_iff_exists.mp hcan.deck
    rw [hdeck] at he
    exact nomatch he
  refine ends_expect_cases (fun e he => hbare fun hcan => ?_) fun localSeat hseat => ?_
  · obtain ⟨seat, hseat⟩ := hcan.seat
    exact nomatch he.symm.trans hseat
  refine Returns.ends_bind (returns_createPublicShares.imp (fun _ _ h => h) ?_) ?_
  · rintro t ⟨shares, created, rfl, hc, card, hcard, hout⟩
    exact failed shares created hc fun hcan => hout (hcan.inDeck card hcard)
  · rintro outbound t ⟨shares, created, rfl, hc⟩
    have hsent : (forEach (queuePublicMessage L) outbound).run (Traced.contributed s shares created)
        = .ok () _ := run_forEach_record
    unfold Ends
    rw [run_bind_ok hsent]
    exact done shares created outbound hc

/-- A street without cards calls none. -/
theorem calledCards_of_error {playerCount : Nat} {street : Street} {next : Option PlayerId}
    {e : HandError} (h : streetIndices playerCount street = .error e) :
    calledCards playerCount hand (.streetAdvanced street next) = none := by
  cases street <;> simp_all [streetIndices, calledCards]

theorem calledCards_of_ok {playerCount : Nat} {street : Street} {next : Option PlayerId}
    (h : streetIndices playerCount street = .ok indices) :
    calledCards playerCount hand (.streetAdvanced street next) =
      some (.street, sortedIndices indices) := by
  cases street <;> simp_all [streetIndices, calledCards]

/-- An action that does not win the hand leaves a hand in order. -/
theorem ActiveHand.Tidy.open_of_acted (tidy : b.Tidy) (betting : b.hand = some hand)
    (playerId : PlayerId) (action : PlayerAction) (goesOn : ∀ settlement hand',
      (act playerId action).run hand ≠ .ok (.handComplete settlement) hand') :
    (endState ((act playerId action).run hand)).street = .complete →
      (endState ((act playerId action).run hand)).nextToAct = none ∨ b.settled = true := by
  intro hcomplete
  by_cases hdone : hand.street = .complete
  · rcases tidy.settled hand betting hdone with hnone | hsettled
    · rw [act_of_next_eq_none hnone]
      exact .inl hnone
    · exact .inr hsettled
  · obtain ⟨settlement, hand', hrun⟩ := (tidy.called hand betting).complete_of_act hdone hcomplete
    exact absurd hrun (goesOn settlement hand')

/-- An action has been committed: its outcome is handled. -/
theorem came_handleActionOutcome (execution : HandExecutionContext L.ziffle) (now : UInt64)
    {origin : ActionOrigin} {hand' : HoldemHand} {outcome : ActionOutcome} (h : Came L input a s)
    (acceptable : Acceptable L input s.trace s.active origin sequence action)
    (betting : s.active.hand = some hand)
    (acted : (act action.playerId action.action).run hand = .ok outcome hand') :
    Ends (Came L input a)
      { active := s.active.commitTo now sequence action hand'
        trace := s.trace ++ commitEffects s.active origin sequence action }
      (handleActionOutcome L execution outcome) := by
  -- Only a last fold completes the hand.
  have hopen : (∀ settlement, outcome ≠ .handComplete settlement) → s.active.Tidy →
      hand'.street = .complete → hand'.nextToAct = none ∨ s.active.settled = true := by
    intro hgoes tidy
    have := tidy.open_of_acted betting action.playerId action.action
    rw [acted] at this
    exact this fun settlement hand' heq => by
      cases heq
      exact hgoes settlement rfl
  have hcommitted : calledCards s.active.playerCount hand' outcome = none →
      (∀ settlement, outcome ≠ .handComplete settlement) → Came L input a
        { active := s.active.commitTo now sequence action hand'
          trace := s.trace ++ commitEffects s.active origin sequence action } := by
    intro huncalled hgoes
    refine h.bet (.committed now origin sequence action hand hand' outcome acceptable betting acted
      huncalled) ?_
    rintro tidy _ ⟨⟩
    exact hopen hgoes tidy
  -- A reveal that the outcome calls for.
  have hreveal : ∀ indices reason, calledCards s.active.playerCount hand' outcome =
      some (reason, sortedIndices indices) → Ends (Came L input a)
        { active := { s.active.commitTo now sequence action hand' with turnStartedAtUnixMs := none }
          trace := s.trace ++ commitEffects s.active origin sequence action }
        (requestPublicReveal L execution.draws indices reason) := by
    intro indices reason hcalled
    have hgoes : ∀ settlement, outcome ≠ .handComplete settlement := by
      rintro settlement rfl
      cases hcalled
    refine ends_requestPublicReveal (fun shares created outbound hc => ?_)
      fun shares created hc hcannot => ?_
    · have := h.bet (.advanced now origin sequence action hand hand' outcome reason _ shares
        created outbound acceptable betting acted hcalled hc) (by
          rintro tidy _ ⟨⟩
          exact hopen hgoes tidy)
      simpa only [← append_assoc] using this
    · have := h.bet (.stalled now origin sequence action hand hand' outcome reason _ shares
        created acceptable betting acted hcalled hc
        fun hcan => hcannot ⟨hcan.1, hcan.2, hcan.3⟩) (by
          rintro tidy _ ⟨⟩
          exact hopen hgoes tidy)
      rw [← append_assoc] at this
      exact this
  cases outcome with
  | waitingFor player => exact ends_getActive (ends_expect (hcommitted rfl fun _ => nofun))
  | streetAdvanced street next =>
    refine ends_update_bind (ends_getActive (ends_expect_cases (fun e he => ?_)
      fun indices hindices => ?_))
    · -- There are no cards for the street.
      exact (hcommitted (calledCards_of_error he) fun _ => nofun).aside
        ⟨_, _, _, _, _, _, .refl _, rfl⟩
    · exact (hreveal indices .street (calledCards_of_ok hindices)).seq fun _ t ht =>
        ends_getActive (ends_expect ht)
  | showdownReady =>
    refine ends_update_bind (ends_getActive (ends_expect_cases (fun e he => nomatch he)
      fun shown hshown => ?_))
    cases Option.some.inj (okOr_eq_ok.mp hshown)
    exact (hreveal _ .showdown rfl).seq fun _ t ht => ends_getActive (ends_expect ht)
  | handComplete settlement =>
    have hmove : HandMove L input s.trace s.active (commitEffects s.active origin sequence action)
        (s.active.commitTo now sequence action hand') :=
      .committed now origin sequence action hand hand' _ acceptable betting acted rfl
    have hended : Ends (Calm L input a none)
        { active := s.active.commitTo now sequence action hand'
          trace := s.trace ++ commitEffects s.active origin sequence action }
        (finishSettlement L execution settlement) :=
      calm_finishSettlement (.snoc h.moves hmove) acceptable.free
        (fun start => hmove.called (h.tidy start).called) ⟨hand', rfl, act_announces acted⟩
        ⟨acceptable.noReveal, .inl acceptable.unsettled⟩
    exact hended.imp fun _ ht => ht.came

/-- Only the peer on a seat speaks for it. -/
theorem verifySeatSource_eq_ok {seat : UInt8} (h : active.verifySeatSource seat source = .ok ()) :
    seat ≠ 0 ∧ active.table.peerIds[seat.toNat - 1]? = some source := by
  unfold ActiveHand.verifySeatSource TokenHoldem.seatIndex at h
  obtain ⟨index, hindex, h⟩ := bind_eq_ok.mp h
  split at hindex
  · exact nomatch hindex
  next hseat =>
    cases hindex
    obtain ⟨expected, hexpected, h⟩ := okOr_bind_eq_ok.mp h
    rw [ensure_eq_ok] at h
    exact ⟨hseat, h ▸ hexpected⟩

/-- A public message comes from a peer at the table. -/
theorem verifyPublicSource_eq_ok {source : Option PeerId}
    (h : active.verifyPublicSource source message = .ok ()) :
    ∃ peer, source = some peer ∧ peer ∈ active.table.peerIds ∧
      (isRelayablePublicMessage message = false → ∃ seat, active.claimedSeat message = .ok seat ∧
        active.verifySeatSource seat peer = .ok ()) := by
  obtain ⟨peer, hpeer, h⟩ := okOr_bind_eq_ok.mp h
  obtain ⟨hmember, h⟩ := ensure_bind_eq_ok.mp h
  refine ⟨peer, hpeer, hmember, fun hrelay => ?_⟩
  rw [hrelay, if_neg Bool.false_ne_true] at h
  exact bind_eq_ok.mp h

section

variable (h : Came L input a s)

include h

/-- Two actions of one number are a conflict. -/
theorem came_resolveReplayedAction {accepted conflicting : SignedHandAction}
    (present : s.active.committedActions[sequence]? = some accepted) :
    Ends (Came L input a) s (resolveReplayedAction L sequence accepted conflicting now) := by
  refine ends_getActive (ends_check_bind h fun _ => ?_)
  refine ends_expect_bind h fun actor _ => ?_
  obtain ⟨playerId, devicePublicKey⟩ := actor
  refine ends_expect_bind h fun _ _ => .ite (fun _ => .pure h) fun hdiffer => ?_
  exact ends_update (h.silent (.conflicted sequence accepted conflicting present hdiffer) rfl)

/-- An action is committed once; another one for its number is a conflict. -/
theorem came_commitAction {origin : ActionOrigin}
    (licensed : Licensed input s.trace s.active sequence action origin) :
    Ends (Came L input a) s (commitAction L execution sequence action origin) := by
  refine ends_getActive ?_
  split
  next existing present =>
    exact .ite (fun _ => .pure h) fun _ => came_resolveReplayedAction h present
  next fresh =>
    refine ends_check_bind h fun hfree => ends_check_bind h fun hnext => ?_
    refine ends_expect_bind h fun actor _ => ?_
    obtain ⟨playerId, devicePublicKey⟩ := actor
    refine ends_expect_bind h fun expected hexpected => ?_
    refine ends_expect_bind h fun _ hverified => ends_check_bind h fun hopen => ?_
    obtain ⟨-, hbound, hplayer⟩ := SignedHandAction.verifyFor_eq_ok (withContext_eq_ok.mp hverified)
    have acceptable : Acceptable L input s.trace s.active origin sequence action :=
      { licensed, fresh, next := hnext, bound := hbound ▸ hexpected, unsettled := hopen.2
        free := isNone_iff_eq_none.mp hfree, noReveal := isNone_iff_eq_none.mp hopen.1 }
    cases hbetting : s.active.hand with
    | none =>
      -- The state hash has been computed, so there is a betting state.
      obtain ⟨hand, hhand, -⟩ := okOr_bind_eq_ok.mp hexpected
      exact nomatch hbetting.symm.trans hhand
    | some hand =>
      subst hplayer
      refine ends_onHand_bind hbetting (fun e hand' hfailed => ?_) fun outcome hand' acted => ?_
      · have hrefused := h.bet
          (.refused origin sequence action hand hand' e acceptable hbetting hfailed) (by
            rintro tidy _ ⟨⟩
            have := tidy.open_of_acted hbetting action.playerId action.action
            rw [hfailed] at this
            exact this fun _ _ => nofun)
        rwa [append_nil] at hrefused
      · have hhandled :=
          came_handleActionOutcome execution execution.nowUnixMs h acceptable hbetting
          acted
        refine ends_record_bind (ends_update_bind (.ite (fun horigin => ?_) fun horigin => ?_))
        · subst horigin
          have htrace : s.trace ++ commitEffects s.active .local sequence action =
              s.trace ++ [.committed s.active .local sequence action] ++
                [.sentPublic (.actionCommitted s.active.scope sequence action)] := by
            simp [commitEffects]
          rw [htrace] at hhandled
          exact hhandled
        · have hremote : origin = .remote := by
            cases origin with
            | «local» => exact absurd rfl horigin
            | remote => rfl
          subst hremote
          exact hhandled

theorem came_acceptOrDeferRemoteAction {scope : HandScope}
    (handled : input = some (source, .actionCommitted scope sequence action)) :
    Ends (Came L input a) s (acceptOrDeferRemoteAction L execution sequence action) := by
  have hcommit : Ends (Came L input a) s (commitAction L execution sequence action .remote) :=
    came_commitAction h (.received source scope handled)
  refine ends_getActive (.ite (fun _ => hcommit) fun _ => ?_)
  refine ends_check_bind h fun _ => ends_expect_bind h fun actor _ => ?_
  obtain ⟨playerId, devicePublicKey⟩ := actor
  refine ends_expect_bind h fun _ _ => ends_expect_bind h fun hand _ => ?_
  refine ends_check_bind h fun _ => ends_expect_bind h fun stateHash _ => ?_
  refine .ite (fun _ => ends_expect_bind h fun pending hpending => ?_) fun _ => hcommit
  rcases insertConsistent_eq_ok hpending with ⟨-, rfl⟩ | ⟨hfresh, rfl⟩
  · exact ends_update h
  · exact ends_update (h.silent (.deferred source scope sequence action handled hfresh) rfl)

theorem came_commitDeferredWithin {rounds : Nat} :
    Ends (Came L input a) s (commitDeferredWithin L execution rounds) := by
  induction rounds generalizing s with
  | zero => exact .pure h
  | succ rounds ih =>
    refine ends_getActive (.ite (fun _ => .pure h) fun _ => ?_)
    dsimp only
    split
    · exact .pure h
    next action hwaiting =>
      refine ends_expect_bind h fun stateHash _ => .ite (fun _ => .pure h) fun _ => ?_
      have hresumed := h.move (.resumed _ action hwaiting) rfl
      refine ends_update_bind (ends_record_bind ?_)
      refine (came_commitAction hresumed (.resumed ?_)).seq fun _ t ht => ih ht
      exact mem_append_right _ (mem_singleton.mpr rfl)

theorem came_commitLocalAction {action : PlayerAction} :
    Ends (Came L input a) s (commitLocalAction L execution action) := by
  refine ends_getActive (ends_check_bind h fun _ => ends_check_bind h fun _ => ?_)
  refine ends_check_bind h fun _ => ends_check_bind h fun hready => ?_
  refine ends_expect_bind h fun hand _ => ends_check_bind h fun _ => ?_
  refine ends_check_bind h fun _ => ends_expect_bind h fun stateHash _ => ?_
  refine ends_expect_bind h fun localSeat _ => ends_expect_bind h fun signed _ => ?_
  exact came_commitAction h (.own hready)

/-! ## Calls -/

/-- `drive` does nothing once a conflict is known. -/
theorem came_drive : Ends (Came L input a) s (drive L execution) := by
  refine ends_getActive (.ite (fun _ => .pure h) fun hfree => ?_)
  have hcalm : Calm L input a none s := ⟨h, by simpa using hfree⟩
  refine .imp ?_ fun _ (ht : Calm L input a none _) => ht.came
  refine (calm_aggregateKeys hcalm).seq fun _ t ht => ?_
  refine (calm_runShuffles ht).seq fun _ t ht => ?_
  refine (calm_distributeHoleCards ht).seq fun _ t ht => ?_
  refine (calm_dealLocalCards ht).seq fun _ t ht => ?_
  refine (calm_tryCompletePublicReveal ht).seq fun _ t ht => ?_
  refine ends_getActive (.ite (fun _ => ?_) fun _ => .pure ht)
  have hclock : Calm L input a none { t with active := { t.active with
      turnStartedAtUnixMs := some execution.nowUnixMs } } :=
    ht.aside ⟨_, _, _, _, _, _, .refl _, rfl⟩
  exact ends_update_bind (ends_getActive (ends_expect hclock))

theorem came_acceptPublicMessage (handled : input = some (source, message))
    (verified : s.active.verifyPublicSource (some source) message = .ok ()) :
    Ends (Came L input a) s (acceptPublicMessage L execution message) := by
  obtain ⟨peer, hpeer, -, hclaimed⟩ := verifyPublicSource_eq_ok verified
  cases Option.some.inj hpeer
  cases message with
  | keyAnnouncement scope seat announcement =>
    refine ends_getActive
      (ends_expect_bind h fun _ _ => ends_expect_bind h fun announcements ha => ?_)
    rcases insertConsistent_eq_ok ha with ⟨-, rfl⟩ | ⟨hfresh, rfl⟩
    · exact ends_update_bind (ends_expect h)
    · exact ends_update_bind (ends_expect (h.silent (.announced seat announcement hfresh) rfl))
  | shuffle scope seat packet =>
    obtain ⟨_, hseat, hsource⟩ := hclaimed rfl
    cases hseat
    obtain ⟨hne, hindex⟩ := verifySeatSource_eq_ok hsource
    refine ends_getActive (ends_expect_bind h fun packets hp => ?_)
    rcases insertConsistent_eq_ok hp with ⟨-, rfl⟩ | ⟨hfresh, rfl⟩
    · exact ends_update h
    · refine ends_update (h.silent (.shuffleAdded seat packet hfresh (.inr ?_)) rfl)
      have := (List.getElem?_eq_some_iff.mp hindex).1
      omega
  | communityRevealShare scope seat cardIndex packet =>
    refine ends_getActive (ends_expect_bind h fun _ hverified => ?_)
    refine ends_expect_bind h fun shares hshares => ends_update (h.silent (.shared _ ?_) rfl)
    rcases insertConsistent_eq_ok hshares with ⟨hheld, rfl⟩ | ⟨hfresh, rfl⟩
    · exact Shares.extends_insert_self
    · exact Shares.extends_insert hfresh
  | dealReady scope seat =>
    obtain ⟨_, hseat, hsource⟩ := hclaimed rfl
    cases hseat
    refine ends_getActive (.ite (fun _ => .pure h) fun _ => ?_)
    have hready := h.silent (.readyHeard source scope seat handled hsource) rfl
    refine ends_update_bind (ends_getActive (ends_expect_bind hready fun _ _ => ?_))
    exact .ite (fun _ => ends_expect hready) fun _ => .pure hready
  | receiptSignature scope receipt signature =>
    exact (calm_acceptReceiptSignature ⟨h, rfl⟩).imp fun _ ht => ht.came
  | actionCommitted scope sequence action => exact came_acceptOrDeferRemoteAction h handled

theorem came_handlePublicMessage {source : Option PeerId}
    (hinput : input = source.map fun peer => (peer, message)) :
    Ends (Came L input a) s (handlePublicMessage L execution source message) := by
  refine ends_getActive (ends_expect_bind h fun _ _ => ends_expect_bind h fun _ hverified => ?_)
  obtain ⟨peer, rfl, -, -⟩ := verifyPublicSource_eq_ok hverified
  refine (came_acceptPublicMessage h hinput hverified).seq fun _ t ht => ?_
  refine (came_drive ht).seq fun _ t ht => ?_
  refine .seq (ends_getActive (came_commitDeferredWithin ht)) fun _ t ht => ?_
  exact .ite (fun _ => ends_record (ht.move (.relayed peer message hinput) rfl)) fun _ => .pure ht

theorem came_handlePrivate {message : HandPrivateMessage} :
    Ends (Came L input a) s (handlePrivate L execution source message) := by
  refine .seq (ends_getActive ?_) fun _ t ht => came_drive ht
  refine ends_expect_bind h fun _ _ => ends_expect_bind h fun _ _ => ?_
  refine ends_check_bind h fun _ => ends_check_bind h fun _ => ends_expect_bind h fun shares _ => ?_
  exact ends_update (h.aside ⟨_, _, _, _, _, _, .refl _, rfl⟩)

theorem came_tickHand : Ends (Came L input a) s (tickHand L execution) := by
  refine (came_drive h).seq fun _ t ht => ends_getActive (ends_expect_bind ht fun action _ => ?_)
  rcases action with - | action
  · exact .pure ht
  · exact (came_commitLocalAction ht).seq fun _ u hu => came_drive hu

theorem came_submitAction {expected : HandActionPrecondition} {action : PlayerAction} :
    Ends (Came L input a) s (submitAction L execution expected action) := by
  refine ends_getActive (ends_expect_bind h fun _ _ => ends_check_bind h fun _ => ?_)
  refine ends_check_bind h fun _ => ?_
  exact (came_commitLocalAction h).seq fun _ t ht => came_drive ht

theorem came_stateEventIfDealt : Ends (Came L input a) s (stateEventIfDealt L) :=
  ends_getActive (.ite (fun _ => ends_expect h) fun _ => .pure h)

theorem came_peerDisconnected {peerId : PeerId} :
    Ends (Came L input a) s (peerDisconnected L peerId) := by
  refine ends_getActive (.ite (fun _ => .pure h) fun _ => ends_update_bind ?_)
  exact came_stateEventIfDealt (h.aside ⟨_, _, _, _, _, _, .refl _, rfl⟩)

theorem came_peerConnected {peerId : PeerId} :
    Ends (Came L input a) s (peerConnected L peerId) := by
  refine ends_getActive (.ite (fun _ => .pure h) fun _ => ends_update_bind ?_)
  exact came_stateEventIfDealt (h.aside ⟨_, _, _, _, _, _, .refl _, rfl⟩)

end

/-- Every call is a sequence of moves. -/
theorem HandCommand.came (command : HandCommand L.ziffle) (a : ActiveHand L.ziffle) :
    Came L command.input a (command.after L a) := by
  have hstart : Came L command.input a { active := a, trace := [] } := .refl
  cases command with
  | tick execution => exact came_tickHand hstart
  | publicMessage execution source message => exact came_handlePublicMessage hstart rfl
  | privateMessage execution source message => exact came_handlePrivate hstart
  | submitAction execution expected action => exact came_submitAction hstart
  | peerDisconnected peerId => exact came_peerDisconnected hstart
  | peerConnected peerId => exact came_peerConnected hstart
  | requestSafeLeave => exact hstart.aside ⟨_, _, _, _, _, _, .refl _, rfl⟩

theorem came_beginHand (h : Came L input a s) :
    Ends (Came L input a) s (beginHand L execution) := by
  refine ends_getActive (ends_expect_bind h fun localSeat _ => ?_)
  have hsent := h.move (.sent (.keyAnnouncement s.active.scope localSeat
    s.active.localKey.announcement) trivial) rfl
  refine ends_record_bind ?_
  exact ends_expect_bind hsent fun _ _ => ends_expect_bind hsent fun _ _ => came_drive hsent

/-! ## Runs -/

section

variable {table : ReadyTable} {history : List (HandEffect L.ziffle)}
  {I : List (HandEffect L.ziffle) → ActiveHand L.ziffle → Prop}

/-- What every move keeps, the moves of a call keep. -/
theorem HandMoves.keep {trace : List (HandEffect L.ziffle)} {b : ActiveHand L.ziffle}
    (step : ∀ {trace a effects b}, I (history ++ trace) a → HandMove L input trace a effects b →
      I (history ++ trace ++ effects) b)
    (start : I history a) (moves : HandMoves L input a trace b) : I (history ++ trace) b := by
  induction moves with
  | refl => rwa [append_nil]
  | snoc _ move ih =>
    rw [← append_assoc]
    exact step ih move

/-- What holds at the start and is kept by every move holds in every state of a hand. -/
theorem HandRun.by_moves
    (start : ∀ {seed active}, initialHand L table seed = .ok active → I [] active)
    (step : ∀ {history input trace a effects b}, I (history ++ trace) a →
      HandMove L input trace a effects b → I (history ++ trace ++ effects) b)
    (run : HandRun L table history a) : I history a := by
  induction run with
  | @start _ _ active started hinitial hbegin =>
    have hfirst : Came L none active { active := active, trace := [] } := .refl
    have hcame := (came_beginHand hfirst).of_ok hbegin
    have hkept : I ([] ++ started.trace) started.active := hcame.moves.keep step (start hinitial)
    exact hkept
  | call command _ ih => exact (command.came _).moves.keep step ih

end

end TokenHoldem
