import TokenHoldem.Sidecar.TableSession.Abandonment
import TokenHoldem.Sidecar.TableSession.LayoutRefinement
import TokenHoldem.Sidecar.TableSession.MembershipAgreement

/-!
# Coming back to a table

Joins and leaves are kept in two maps. A layout between two hands leaves out every player
of whom a leave intent is held, whenever it was signed: nothing compares it with the
player's join intent, and a leave is dropped only when it has run out.

- `nextMembershipLayout_mem_iff` — who gets a place in the layout;
- `returning_player_placed_iff` — a player who comes back gets one exactly when no leave
  intent of that player is held.
-/

namespace TokenHoldem

open Library List

variable {P : Primitives} {active : ActiveSession} {now : UInt64} {validJoins : List JoinIntent}

/-- The player of the intent has no seat and the session has not seen it leave. -/
def ActiveSession.AsksForPlace (active : ActiveSession) (validJoins : List JoinIntent)
    (intent : JoinIntent) : Prop :=
  intent.playerId ∉ (values (keptSeats active (joinsByPlayer validJoins))).map JoinIntent.playerId ∧
    ¬ active.leaves.contains intent.playerId
deriving Decidable

/-- The seats that are not kept and the places in the queue. -/
def ActiveSession.placesLeft (active : ActiveSession) (validJoins : List JoinIntent) : Nat :=
  tableCapacity - (keptSeats active (joinsByPlayer validJoins)).size + waitingCapacity

/-- Between two hands a place goes to those who keep their seats and to the first of the
candidates. -/
theorem nextMembershipLayout_mem_iff (idle : active.handActive = false) {join : JoinIntent} :
    (∃ layout, nextMembershipLayout P active validJoins = .ok layout ∧
      (join ∈ layout.1.map MembershipSeatClaim.joinIntent ∨ join ∈ layout.2)) ↔
    join ∈ values (keptSeats active (joinsByPlayer validJoins)) ∨
      join ∈ (layoutCandidates P active validJoins).take (active.placesLeft validJoins) := by
  have hlayout : nextMembershipLayout P active validJoins = .ok _ := nextMembershipLayout_eq_ok idle
  have hseated := nextMembershipLayout_seated idle hlayout
  simp only [hlayout, Except.ok.injEq, exists_eq_left', mem_sortByKey]
  rw [hseated.mem_iff, ActiveSession.placesLeft, take_add, mem_append, mem_append, or_assoc]

/-- The candidates stand in the order of the valid joins. -/
theorem layoutCandidates_canonical (idle : active.handActive = false) :
    layoutCandidates P active (canonicalPlayerJoins P active now) =
      (canonicalPlayerJoins P active now).filter fun intent =>
        active.AsksForPlace (canonicalPlayerJoins P active now) intent := by
  have hsorted : (canonicalPlayerJoins P active now).Pairwise fun a b =>
      a.claimId P ≤ b.claimId P := by
    rw [canonicalPlayerJoins_eq]
    exact pairwise_insertionSort (fun a b : JoinIntent => a.claimId P ≤ b.claimId P) _
  rw [layoutCandidates, sortByKey, (hsorted.filter _).insertionSort_eq, idle]
  simp only [Bool.false_eq_true, or_false]
  rfl

/-- A player who is not at the table, with a valid join intent and a place left for it in
the order of the claims, gets a place between two hands exactly when the session holds no
leave intent of that player, however old. -/
theorem returning_player_placed_iff (idle : active.handActive = false) {join : JoinIntent}
    {earlier later : List JoinIntent}
    (order : canonicalPlayerJoins P active now = earlier ++ join :: later)
    (absent : ∀ signed ∈ active.membership, ∀ seat ∈ signed.proposal.seats,
      seat.joinIntent.playerId ≠ join.playerId)
    (room : (earlier.filter fun intent =>
        active.AsksForPlace (canonicalPlayerJoins P active now) intent).length <
      active.placesLeft (canonicalPlayerJoins P active now)) :
    (∃ layout, nextMembershipLayout P active (canonicalPlayerJoins P active now) = .ok layout ∧
      (join ∈ layout.1.map MembershipSeatClaim.joinIntent ∨ join ∈ layout.2)) ↔
    active.leaves.contains join.playerId = false := by
  have hunseated : join.playerId ∉ (values (keptSeats active (joinsByPlayer
      (canonicalPlayerJoins P active now)))).map JoinIntent.playerId := by
    intro hin
    obtain ⟨kept, hkept, hplayer⟩ := mem_map.mp hin
    obtain ⟨physical, hphysical⟩ := mem_values.mp hkept
    cases hcurrent : active.membership with
    | none =>
      rw [keptSeats, hcurrent] at hphysical
      simp at hphysical
    | some signed =>
      obtain ⟨seat, hseat, -, hknown⟩ := getElem?_keptSeats hcurrent hphysical
      refine absent signed hcurrent seat hseat ?_
      rw [← hplayer, (getElem?_joinsByPlayer hknown).2]
  have hkept : join ∉ values (keptSeats active (joinsByPlayer
      (canonicalPlayerJoins P active now))) := fun hin => hunseated (mem_map_of_mem hin)
  rw [nextMembershipLayout_mem_iff idle, or_iff_right hkept, layoutCandidates_canonical idle]
  constructor
  · intro hplaced
    have hasks := of_decide_eq_true (mem_filter.mp (mem_of_mem_take hplaced)).2
    exact Bool.eq_false_iff.mpr hasks.2
  · intro hstays
    have hasks : active.AsksForPlace (canonicalPlayerJoins P active now) join :=
      ⟨hunseated, Bool.eq_false_iff.mp hstays⟩
    generalize hasksFor : (fun intent => decide (active.AsksForPlace
      (canonicalPlayerJoins P active now) intent)) = asks at room ⊢
    have hjoin : asks join = true := hasksFor ▸ decide_eq_true hasks
    rw [order, filter_append, filter_cons_of_pos hjoin, mem_take_iff_getElem]
    refine ⟨(earlier.filter asks).length, ?_, ?_⟩
    · rw [length_append, length_cons, ← order]
      omega
    · rw [getElem_append_right (Nat.le_refl _)]
      simp

namespace Room

/-- The creator knows the first join intent of the second player. -/
def arrivalScript : List (Turn plainRoom) :=
  [.create 0, .join 1 0, .tick 1 0, .hand 1 0 isJoinIntent 0]

/-- The second player has had a seat, leaves it, and joins again. -/
def returnScript : List (Turn plainRoom) :=
  let address := Primitives.plain.peerIdToBytes (plainRoom.identity (0 : Fin 4)).peerId
  pairScript ++ [.act (1 : Fin 4) (.requestLeave (plainTime 4000) 4000 (FixedBytes.ofNat 3)),
    .hand 1 0 isLeaveIntent 4000, .tick 0 5000, .act (1 : Fin 4) .close,
    .act (1 : Fin 4) (.join plainRoom.tableId
      (plainRoom.identity (0 : Fin 4)).certificate.playerId address [address]
      (plainTicket 1 (plainTime 6000)) (plainTime 6000) (FixedBytes.ofNat 4)),
    .tick 1 6000, .hand 1 0 isJoinIntent 6000]

/-- The second player. -/
def secondPlayer : PlayerId := (plainRoom.identity (1 : Fin 4)).certificate.playerId

/-- A new player gets a place. -/
theorem returning_player_placed_first :
    ∃ (w : plainRoom.World) (active : ActiveSession),
      Reach plainRoom.honest plainRoom.anything w ∧ (w (0 : Fin 4)).session = some active ∧
      ∃ join ∈ canonicalPlayerJoins .plain active (plainTime 1000), join.playerId = secondPlayer ∧
        ∃ layout, nextMembershipLayout .plain active
            (canonicalPlayerJoins .plain active (plainTime 1000)) = .ok layout ∧
          (join ∈ layout.1.map MembershipSeatClaim.joinIntent ∨ join ∈ layout.2) := by
  obtain ⟨w, hreach, hcheck⟩ := @exists_reach_of_play _ plainRoom plainRoom.anything _ arrivalScript
    (fun w => decide (∃ active ∈ (w (0 : Fin 4)).session, active.handActive = false ∧
      (canonicalPlayerJoins .plain active (plainTime 1000)).length ≤ waitingCapacity ∧
      ∃ join ∈ canonicalPlayerJoins .plain active (plainTime 1000), join.playerId = secondPlayer ∧
        (∀ signed ∈ active.membership, ∀ seat ∈ signed.proposal.seats,
          seat.joinIntent.playerId ≠ join.playerId) ∧
        active.leaves.contains join.playerId = false)) (by decide +kernel)
  obtain ⟨active, hactive, hidle, hfew, join, hjoin, hplayer, habsent, hstays⟩ :=
    of_decide_eq_true hcheck
  obtain ⟨earlier, later, horder⟩ := append_of_mem hjoin
  refine ⟨w, active, hreach, hactive, join, hjoin, hplayer,
    (returning_player_placed_iff hidle horder habsent ?_).mpr hstays⟩
  have hlength := length_filter_le (fun intent => decide (active.AsksForPlace
    (canonicalPlayerJoins .plain active (plainTime 1000)) intent)) earlier
  have hall := congrArg length horder
  rw [length_append, length_cons] at hall
  unfold ActiveSession.placesLeft
  omega

/-- The second player leaves between two hands and the creator certifies a table without
it. Then the player signs a new join intent, which the creator takes. Five seats and the
whole queue are free, but the next layout has no place for the player. -/
theorem returning_player_shut_out :
    ∃ (w : plainRoom.World) (active : ActiveSession),
      Reach plainRoom.honest plainRoom.anything w ∧ (w (0 : Fin 4)).session = some active ∧
      active.handActive = false ∧
      (∀ signed ∈ active.membership, secondPlayer ∉ (signed.proposal.seats.map
        MembershipSeatClaim.joinIntent ++ signed.proposal.waiting).map JoinIntent.playerId) ∧
      ∃ leave ∈ active.leaves[secondPlayer]?,
      ∃ join ∈ canonicalPlayerJoins .plain active (plainTime 7000),
        join.playerId = secondPlayer ∧ leave.createdAtUnixMs < join.createdAtUnixMs ∧
        ∃ layout, nextMembershipLayout .plain active
            (canonicalPlayerJoins .plain active (plainTime 7000)) = .ok layout ∧
          layout.1.length = 1 ∧ layout.2 = [] ∧
          ∀ claim ∈ layout.1, claim.joinIntent.playerId ≠ secondPlayer :=
  exists_session_of_play returnScript (by decide +kernel)

end Room

end TokenHoldem
