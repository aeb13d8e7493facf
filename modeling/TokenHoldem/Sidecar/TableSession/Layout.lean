import TokenHoldem.Sidecar.TableSession.Membership

/-!
# Who keeps a seat

What `canonical_player_joins` and `next_membership_layout` make of the current
membership. A member keeps its seat as long as the session holds a valid join
intent of it and has not seen it leave (`nextMembershipLayout_keeps`), and no
member is given another seat (`nextMembershipLayout_stays`).
-/

namespace TokenHoldem

open Library List

variable {P : Primitives} {active : ActiveSession} {now : UInt64} {validJoins : List JoinIntent}

/-- The session holds a valid join intent of the player for its table. -/
def ActiveSession.HoldsJoin (P : Primitives) (active : ActiveSession) (now : UInt64)
    (player : PlayerId) : Prop :=
  ∃ intent ∈ values active.joins, isOk (intent.verifyAt P now) = true ∧
    intent.tableId = active.tableId ∧ intent.level = active.level ∧ intent.playerId = player
deriving Decidable

/-- The member may be left out of the next layout: no hand is going on and a
leave intent of it is known. -/
def ActiveSession.Released (active : ActiveSession) (player : PlayerId) : Prop :=
  active.handActive = false ∧ active.leaves.contains player = true
deriving Decidable

theorem preferredJoin_eq (current intent : JoinIntent) :
    preferredJoin P current intent = intent ∨ preferredJoin P current intent = current := by
  unfold preferredJoin
  split
  · exact .inl rfl
  · exact .inr rfl

/-! ## The joins that count -/

/-- One round of the loop of `canonical_player_joins`. -/
def keepPreferred (P : Primitives) (active : ActiveSession) (now : UInt64)
    (byPlayer : Std.TreeMap PlayerId JoinIntent) (intent : JoinIntent) :
    Std.TreeMap PlayerId JoinIntent :=
  if isOk (intent.verifyAt P now) ∧ intent.tableId = active.tableId ∧
      intent.level = active.level then
    match byPlayer[intent.playerId]? with
    | none => byPlayer.insert intent.playerId intent
    | some current => byPlayer.insert intent.playerId (preferredJoin P current intent)
  else byPlayer

theorem canonicalPlayerJoins_eq :
    canonicalPlayerJoins P active now = sortByKey (JoinIntent.claimId P)
      (values ((values active.joins).foldl (keepPreferred P active now) ∅)) := rfl

/-- A round only brings in the intent it looks at. -/
theorem getElem?_keepPreferred (byPlayer : Std.TreeMap PlayerId JoinIntent) (intent : JoinIntent)
    (player : PlayerId) (join : JoinIntent)
    (h : (keepPreferred P active now byPlayer intent)[player]? = some join) :
    byPlayer[player]? = some join ∨
      (join = intent ∧ isOk (join.verifyAt P now) = true ∧ join.tableId = active.tableId ∧
        join.level = active.level ∧ join.playerId = player) := by
  unfold keepPreferred at h
  split at h
  · rename_i hvalid
    obtain ⟨hverified, htable, hlevel⟩ := hvalid
    split at h
    · rename_i hnone
      rw [Std.TreeMap.getElem?_insert] at h
      split at h
      · rename_i hplayer
        cases h
        exact .inr ⟨rfl, hverified, htable, hlevel, compare_eq_iff_eq.mp hplayer⟩
      · exact .inl h
    · rename_i current hcurrent
      rw [Std.TreeMap.getElem?_insert] at h
      split at h
      · rename_i hplayer
        have hplayer := compare_eq_iff_eq.mp hplayer
        rcases preferredJoin_eq (P := P) current intent with heq | heq <;> rw [heq] at h <;> cases h
        · exact .inr ⟨rfl, hverified, htable, hlevel, hplayer⟩
        · exact .inl (hplayer ▸ hcurrent)
      · exact .inl h
  · exact .inl h

variable {player : PlayerId} {join : JoinIntent}

theorem isSome_keepPreferred (byPlayer : Std.TreeMap PlayerId JoinIntent) (intent : JoinIntent)
    (h : (byPlayer[player]?).isSome = true) :
    ((keepPreferred P active now byPlayer intent)[player]?).isSome = true := by
  unfold keepPreferred
  split
  · split <;> exact isSome_insert h
  · exact h

/-- What the loop of `canonical_player_joins` keeps for a player is a valid join intent
of that player. -/
theorem getElem?_keptJoins
    (h : ((values active.joins).foldl (keepPreferred P active now) ∅)[player]? = some join) :
    join ∈ values active.joins ∧ isOk (join.verifyAt P now) = true ∧
      join.tableId = active.tableId ∧ join.level = active.level ∧ join.playerId = player := by
  rcases getElem?_foldl getElem?_keepPreferred h with hempty | ⟨intent, hintent, rfl, hvalid⟩
  · simp at hempty
  · exact ⟨hintent, hvalid⟩

/-- The players that count are those of whom a valid join intent is held. -/
theorem mem_canonicalPlayerJoins :
    (∃ join ∈ canonicalPlayerJoins P active now, join.playerId = player) ↔
      active.HoldsJoin P now player := by
  rw [canonicalPlayerJoins_eq]
  simp only [mem_sortByKey, mem_values]
  constructor
  · rintro ⟨join, ⟨key, hkey⟩, rfl⟩
    obtain ⟨hintent, hverified, htable, hlevel, -⟩ := getElem?_keptJoins hkey
    exact ⟨join, hintent, hverified, htable, hlevel, rfl⟩
  · rintro ⟨intent, hintent, hverified, htable, hlevel, rfl⟩
    have hsome : (((values active.joins).foldl (keepPreferred P active now)
        ∅)[intent.playerId]?).isSome = true := by
      refine isSome_foldl_of_mem isSome_keepPreferred (fun byPlayer => ?_) hintent
      rw [keepPreferred, if_pos ⟨hverified, htable, hlevel⟩]
      split <;> simp
    obtain ⟨join, hjoin⟩ := Option.isSome_iff_exists.mp hsome
    exact ⟨join, ⟨_, hjoin⟩, (getElem?_keptJoins hjoin).2.2.2.2⟩

/-- `joins_by_player` of `next_membership_layout`. -/
def joinsByPlayer (validJoins : List JoinIntent) : Std.TreeMap PlayerId JoinIntent :=
  validJoins.foldl (fun byPlayer intent => byPlayer.insert intent.playerId intent) ∅

theorem getElem?_joinsByPlayer (h : (joinsByPlayer validJoins)[player]? = some join) :
    join ∈ validJoins ∧ join.playerId = player := by
  have := getElem?_foldl (Q := fun item key value => value = item ∧ item.playerId = key)
    (fun map item key value hvalue => by
      rw [Std.TreeMap.getElem?_insert] at hvalue
      split at hvalue
      · rename_i hkey
        cases hvalue
        exact .inr ⟨rfl, compare_eq_iff_eq.mp hkey⟩
      · exact .inl hvalue) h
  rcases this with hempty | ⟨item, hitem, rfl, hplayer⟩
  · simp at hempty
  · exact ⟨hitem, hplayer⟩

theorem getElem?_joinsByPlayer_of_mem (distinct : (validJoins.map JoinIntent.playerId).Nodup)
    (h : join ∈ validJoins) : (joinsByPlayer validJoins)[join.playerId]? = some join := by
  have hlookup : (joinsByPlayer validJoins)[join.playerId]? =
      ((validJoins.find? (·.playerId = join.playerId)).map id).or
        (∅ : Std.TreeMap PlayerId JoinIntent)[join.playerId]? :=
    getElem?_foldl_insert distinct
  rw [hlookup, find?_key_of_mem distinct h]
  rfl

theorem isSome_joinsByPlayer (h : join ∈ validJoins) :
    ∃ known, (joinsByPlayer validJoins)[join.playerId]? = some known := by
  refine Option.isSome_iff_exists.mp (isSome_foldl_of_mem (fun _ _ hsome => ?_) (fun _ => ?_) h)
  · exact isSome_insert hsome
  · simp

/-! ## The seats that are kept -/

/-- One round of the loop of `next_membership_layout` over the current seats. -/
def keepSeat (active : ActiveSession) (byPlayer : Std.TreeMap PlayerId JoinIntent)
    (seats : Std.TreeMap PhysicalSeat JoinIntent) (seat : MembershipSeatClaim) :
    Std.TreeMap PhysicalSeat JoinIntent :=
  if active.Released seat.joinIntent.playerId then seats
  else match byPlayer[seat.joinIntent.playerId]? with
    | some intent => seats.insert seat.physicalSeat intent
    | none => seats

theorem keptSeats_eq {membership : SignedMembershipProposal}
    (current : active.membership = some membership) (byPlayer : Std.TreeMap PlayerId JoinIntent) :
    keptSeats active byPlayer = membership.proposal.seats.foldl (keepSeat active byPlayer) ∅ := by
  rw [keptSeats, current]
  rfl

section

variable {membership : SignedMembershipProposal} {byPlayer : Std.TreeMap PlayerId JoinIntent}
  (current : active.membership = some membership)
include current

theorem getElem?_keptSeats {physical : PhysicalSeat} {join : JoinIntent}
    (h : (keptSeats active byPlayer)[physical]? = some join) :
    ∃ seat ∈ membership.proposal.seats, seat.physicalSeat = physical ∧
      byPlayer[seat.joinIntent.playerId]? = some join := by
  rw [keptSeats_eq current] at h
  have := getElem?_foldl (Q := fun (seat : MembershipSeatClaim) key value =>
    seat.physicalSeat = key ∧ byPlayer[seat.joinIntent.playerId]? = some value)
    (fun seats seat key value hvalue => by
      unfold keepSeat at hvalue
      split at hvalue
      · exact .inl hvalue
      · split at hvalue
        · rename_i hknown
          rw [Std.TreeMap.getElem?_insert] at hvalue
          split at hvalue
          · rename_i hkey
            cases hvalue
            exact .inr ⟨compare_eq_iff_eq.mp hkey, hknown⟩
          · exact .inl hvalue
        · exact .inl hvalue) h
  rcases this with hempty | hseat
  · simp at hempty
  · exact hseat

/-- A member that is known and not released keeps its seat. -/
theorem keptSeats_of_mem {seat : MembershipSeatClaim} {join : JoinIntent}
    (distinct : ∀ a ∈ membership.proposal.seats, ∀ b ∈ membership.proposal.seats,
      a.physicalSeat = b.physicalSeat → a = b) (hseat : seat ∈ membership.proposal.seats)
    (stays : ¬ active.Released seat.joinIntent.playerId)
    (known : byPlayer[seat.joinIntent.playerId]? = some join) :
    (keptSeats active byPlayer)[seat.physicalSeat]? = some join := by
  have hsome : ((keptSeats active byPlayer)[seat.physicalSeat]?).isSome = true := by
    rw [keptSeats_eq current]
    refine isSome_foldl_of_mem (fun seats other hsome => ?_) (fun seats => ?_) hseat
    · unfold keepSeat
      split
      · exact hsome
      · split
        · exact isSome_insert hsome
        · exact hsome
    · rw [keepSeat, if_neg stays, known]
      simp
  obtain ⟨kept, hkept⟩ := Option.isSome_iff_exists.mp hsome
  -- the seat is kept for the member that has it
  obtain ⟨other, hother, hphysical, hknown⟩ := getElem?_keptSeats current hkept
  rw [distinct other hother seat hseat hphysical, known] at hknown
  rw [hkept, hknown]

end

/-! ## The candidates -/

theorem firstFreeSeat_eq_some {seats : Std.TreeMap PhysicalSeat JoinIntent}
    {physical : PhysicalSeat} (h : firstFreeSeat seats = some physical) :
    seats[physical]? = none := by
  have hfree := find?_some h
  simpa using hfree

/-- Placing the candidates moves nobody; during a hand it seats nobody. -/
theorem placeCandidates_eq_ok {handActive : Bool} {candidates : List JoinIntent}
    {layout result : Layout}
    (h : candidates.foldlM (placeCandidate handActive) layout = .ok result) :
    (∀ (k : PhysicalSeat) join, layout.seats[k]? = some join → result.seats[k]? = some join) ∧
      ∀ (k : PhysicalSeat) join, result.seats[k]? = some join →
        layout.seats[k]? = some join ∨ (join ∈ candidates ∧ handActive = false) := by
  induction candidates generalizing layout with
  | nil =>
    cases h
    exact ⟨fun _ _ hk => hk, fun _ _ hk => .inl hk⟩
  | cons first rest ih =>
    rw [foldlM_cons] at h
    obtain ⟨next, hnext, h⟩ := bind_eq_ok.mp h
    obtain ⟨hkept, hnew⟩ := ih h
    unfold placeCandidate at hnext
    split at hnext
    · have hsame : next.seats = layout.seats := by
        split at hnext <;> cases hnext <;> rfl
      rw [hsame] at hkept hnew
      refine ⟨hkept, fun k join hk => ?_⟩
      rcases hnew k join hk with hold | ⟨hmem, hhand⟩
      · exact .inl hold
      · exact .inr ⟨mem_cons_of_mem _ hmem, hhand⟩
    · rename_i hseating
      obtain ⟨physical, hphysical, hnext⟩ := okOr_bind_eq_ok.mp hnext
      cases hnext
      have hfree := firstFreeSeat_eq_some hphysical
      have hhand : handActive = false := by
        cases handActive
        · rfl
        · exact absurd (.inl rfl) hseating
      constructor
      · intro k join hk
        apply hkept
        rw [Std.TreeMap.getElem?_insert, if_neg]
        · exact hk
        · intro heq
          rw [compare_eq_iff_eq.mp heq, hk] at hfree
          cases hfree
      · intro k join hk
        rcases hnew k join hk with hold | ⟨hmem, hhand⟩
        · rw [Std.TreeMap.getElem?_insert] at hold
          split at hold
          · cases hold
            exact .inr ⟨mem_cons_self, hhand⟩
          · exact .inl hold
        · exact .inr ⟨mem_cons_of_mem _ hmem, hhand⟩

/-! ## The next layout -/

/-- The candidates of `next_membership_layout`. -/
def layoutCandidates (P : Primitives) (active : ActiveSession) (validJoins : List JoinIntent) :
    List JoinIntent :=
  sortByKey (JoinIntent.claimId P) (validJoins.filter fun intent =>
    intent.playerId ∉ (values (keptSeats active (joinsByPlayer validJoins))).map
      JoinIntent.playerId ∧
      (¬ active.leaves.contains intent.playerId ∨ active.handActive = true))

/-- Every seat of the layout was kept or is given to a candidate. -/
theorem nextMembershipLayout_seats {layout : List MembershipSeatClaim × List JoinIntent}
    (h : nextMembershipLayout P active validJoins = .ok layout) :
    (∀ (k : PhysicalSeat) join, (keptSeats active (joinsByPlayer validJoins))[k]? = some join →
        ⟨k, join⟩ ∈ layout.1) ∧ ∀ claim ∈ layout.1,
        (keptSeats active (joinsByPlayer validJoins))[claim.physicalSeat]? = some claim.joinIntent ∨
          (claim.joinIntent ∈ layoutCandidates P active validJoins ∧
            active.handActive = false) := by
  unfold nextMembershipLayout at h
  obtain ⟨placed, hplaced, h⟩ := bind_eq_ok.mp h
  obtain ⟨hkept, hnew⟩ := placeCandidates_eq_ok hplaced
  cases h
  constructor
  · intro k join hk
    exact mem_map.mpr ⟨(k, join),
      Std.TreeMap.mem_toList_iff_getElem?_eq_some.mpr (hkept k join hk), rfl⟩
  · intro claim hclaim
    obtain ⟨⟨k, join⟩, hentry, rfl⟩ := mem_map.mp hclaim
    exact hnew k join (Std.TreeMap.mem_toList_iff_getElem?_eq_some.mp hentry)

section

variable {membership : SignedMembershipProposal}
  {layout : List MembershipSeatClaim × List JoinIntent}
  (current : active.membership = some membership)
  (distinct : ∀ a ∈ membership.proposal.seats, ∀ b ∈ membership.proposal.seats,
    a.physicalSeat = b.physicalSeat → a = b)
include current distinct

variable {seat : MembershipSeatClaim}

/-- A member with a valid join keeps its seat unless it is released. -/
theorem nextMembershipLayout_keeps
    (h : nextMembershipLayout P active (canonicalPlayerJoins P active now) = .ok layout)
    (hseat : seat ∈ membership.proposal.seats) (stays : ¬ active.Released seat.joinIntent.playerId)
    (joined : active.HoldsJoin P now seat.joinIntent.playerId) :
    ∃ claim ∈ layout.1, claim.physicalSeat = seat.physicalSeat ∧
      claim.joinIntent.playerId = seat.joinIntent.playerId := by
  obtain ⟨join, hjoin, hplayer⟩ := mem_canonicalPlayerJoins.mpr joined
  obtain ⟨known, hknown⟩ := isSome_joinsByPlayer hjoin
  rw [hplayer] at hknown
  have hkept := keptSeats_of_mem current distinct hseat stays hknown
  exact ⟨_, (nextMembershipLayout_seats h).1 _ _ hkept, rfl, (getElem?_joinsByPlayer hknown).2⟩

/-- A member that is seated again sits on a seat it had. -/
theorem nextMembershipLayout_stays (h : nextMembershipLayout P active validJoins = .ok layout)
    (hseat : seat ∈ membership.proposal.seats) {claim : MembershipSeatClaim}
    (hclaim : claim ∈ layout.1) (same : claim.joinIntent.playerId = seat.joinIntent.playerId) :
    ∃ old ∈ membership.proposal.seats, old.joinIntent.playerId = seat.joinIntent.playerId ∧
      claim.physicalSeat = old.physicalSeat := by
  rcases (nextMembershipLayout_seats h).2 claim hclaim with hkept | ⟨hcandidate, hhand⟩
  · obtain ⟨old, hold, hphysical, hknown⟩ := getElem?_keptSeats current hkept
    have hplayer := (getElem?_joinsByPlayer hknown).2
    exact ⟨old, hold, hplayer.symm.trans same, hphysical.symm⟩
  · -- a candidate has not left and is not seated yet, but this member would have been kept
    exfalso
    rw [layoutCandidates, mem_sortByKey, mem_filter, decide_eq_true_eq] at hcandidate
    obtain ⟨hvalid, hfree, hleft⟩ := hcandidate
    have hstays : ¬ active.Released seat.joinIntent.playerId := by
      rintro ⟨-, hleaves⟩
      rcases hleft with hnot | htrue
      · exact hnot (same ▸ hleaves)
      · rw [hhand] at htrue
        cases htrue
    obtain ⟨known, hknown⟩ := isSome_joinsByPlayer hvalid
    have hkept := keptSeats_of_mem current distinct hseat hstays (same ▸ hknown)
    refine hfree (mem_map.mpr ⟨known, mem_values.mpr ⟨_, hkept⟩, ?_⟩)
    exact (getElem?_joinsByPlayer hknown).2

end

end TokenHoldem
