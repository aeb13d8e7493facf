import TokenHoldem.Domain.Seating
import TokenHoldem.Sidecar.TableSession.Layout
import TokenHoldem.Sidecar.TableSession.World

/-!
# The next layout against the rule of the domain

Between two hands the runtime lays out the next membership itself, in
`next_membership_layout`. The domain has a rule for the same step,
`reconcile_at_hand_boundary`, which the runtime does not call. Both keep the members who
do not leave and give the lowest free seats to the first claims. They stop differently:
the runtime when six members are seated, the domain when no seat from 1 to 6 is free.

- `foldlM_placeCandidate` — what the loop of the runtime over the candidates does;
- `nextMembershipLayout_idle` — the layout between two hands, without the loops;
- `nextMembershipLayout_refines_iff` — the two agree, unless a member sits on a seat that
  the table does not have and the candidates are too many, or the version is the last one.
-/

namespace TokenHoldem

open Library TableMembership List MembershipSeatClaim JoinIntent

variable {P : Primitives} {active : ActiveSession} {now : UInt64} {validJoins : List JoinIntent}

/-- The players whose leave intents the session holds. -/
def ActiveSession.leavers (active : ActiveSession) : Finset PlayerId := active.leaves.keys.toFinset

theorem ActiveSession.mem_leavers {player : PlayerId} :
    player ∈ active.leavers ↔ active.leaves.contains player = true := by
  rw [leavers, mem_toFinset, Std.TreeMap.mem_keys, Std.TreeMap.contains_iff_mem]

/-! ## Giving out the free seats -/

/-- The seats of the table that are free. -/
def openSeats (seats : Std.TreeMap PhysicalSeat JoinIntent) : List PhysicalSeat :=
  properSeats.filter fun seat => ¬ seats.contains seat

variable (seats : Std.TreeMap PhysicalSeat JoinIntent)

theorem firstFreeSeat_eq_head? : firstFreeSeat seats = (openSeats seats).head? := by
  have hseats : [1, 2, 3, 4, 5, 6].map PhysicalSeat.mk = properSeats := rfl
  rw [firstFreeSeat, hseats, openSeats, head?_filter]

/-- Once the first free seat is given away, the other ones are left. -/
theorem openSeats_insert {seats : Std.TreeMap PhysicalSeat JoinIntent} {first : PhysicalSeat}
    {rest : List PhysicalSeat} (free : openSeats seats = first :: rest) (intent : JoinIntent) :
    openSeats (seats.insert first intent) = rest := by
  have hsorted : (first :: rest).Pairwise (· < ·) := free ▸ properSeats_sorted.filter _
  have hfilter : openSeats (seats.insert first intent) =
      (openSeats seats).filter fun seat => seat ≠ first := by
    rw [openSeats, openSeats, filter_filter]
    refine filter_congr fun seat _ => ?_
    rw [← Bool.decide_and]
    refine decide_eq_decide.mpr ?_
    rw [Std.TreeMap.contains_insert, Bool.or_eq_true, not_or, beq_iff_eq,
      compare_eq_iff_eq, eq_comm]
  rw [hfilter, free, filter_cons_of_neg (by simp), filter_eq_self]
  intro seat hseat
  exact decide_eq_true ((pairwise_cons.mp hsorted).1 seat hseat).ne'

/-- Every seat of the table is free or taken. -/
theorem capacity_le_openSeats : tableCapacity ≤ (openSeats seats).length + seats.size := by
  have htaken : properSeats.filter (fun seat => seats.contains seat) ⊆ seats.keys := by
    intro seat hseat
    rw [Std.TreeMap.mem_keys, ← Std.TreeMap.contains_iff_mem]
    exact (mem_filter.mp hseat).2
  have hnodup : (properSeats.filter fun seat => seats.contains seat).Nodup :=
    (properSeats_sorted.imp ne_of_lt).filter _
  have hlength := (hnodup.subperm htaken).length_le
  rw [Std.TreeMap.length_keys] at hlength
  have hsplit := properSeats.length_eq_length_filter_add fun seat => seats.contains seat
  have hopen : (openSeats seats).length =
      (properSeats.filter fun seat => !seats.contains seat).length := by
    refine congrArg length (filter_congr fun seat _ => ?_)
    cases seats.contains seat <;> rfl
  have hsix : properSeats.length = tableCapacity := rfl
  omega

/-- Between two hands the candidates get the free seats in their order until six members
are seated, and the next ones wait. -/
theorem foldlM_placeCandidate (candidates : List JoinIntent) (layout : Layout) :
    candidates.foldlM (placeCandidate false) layout = .ok
      { seats := (((openSeats layout.seats).take (tableCapacity - layout.seats.size)).zip
          candidates).foldl (fun seats entry => seats.insert entry.1 entry.2) layout.seats
        waiting := layout.waiting ++ (candidates.drop (tableCapacity - layout.seats.size)).take
          (waitingCapacity - layout.waiting.length) } := by
  induction candidates generalizing layout with
  | nil => simp [pure, Except.pure]
  | cons candidate rest ih =>
    rw [foldlM_cons]
    by_cases hfull : tableCapacity ≤ layout.seats.size
    · -- nobody is seated any more
      have hzero : tableCapacity - layout.seats.size = 0 := by omega
      by_cases hroom : layout.waiting.length < waitingCapacity
      · have hstep : placeCandidate false layout candidate =
            .ok { layout with waiting := layout.waiting ++ [candidate] } := by
          rw [placeCandidate, if_pos (.inr hfull), if_pos hroom]
        have hleft : waitingCapacity - layout.waiting.length =
            waitingCapacity - (layout.waiting.length + 1) + 1 := by omega
        rw [hstep]
        refine (ih { layout with waiting := layout.waiting ++ [candidate] }).trans ?_
        simp only [hzero, hleft, take_zero, zip_nil_left, foldl_nil, drop_zero,
          append_assoc, singleton_append, length_append, length_singleton,
          take_succ_cons]
      · have hstep : placeCandidate false layout candidate = .ok layout := by
          rw [placeCandidate, if_pos (.inr hfull), if_neg hroom]
        have hnone : waitingCapacity - layout.waiting.length = 0 := by omega
        rw [hstep]
        refine (ih layout).trans ?_
        simp only [hzero, hnone, take_zero, zip_nil_left]
    · obtain ⟨first, free, hopen⟩ : ∃ first free, openSeats layout.seats = first :: free := by
        refine exists_cons_of_length_pos ?_
        have := capacity_le_openSeats layout.seats
        omega
      have hstep : placeCandidate false layout candidate =
          .ok { layout with seats := layout.seats.insert first candidate } := by
        rw [placeCandidate, if_neg (by simpa using hfull), firstFreeSeat_eq_head?, hopen]
        rfl
      have hnew : ¬ layout.seats.contains first = true := by
        have hmem : first ∈ openSeats layout.seats := hopen ▸ mem_cons_self
        exact of_decide_eq_true (mem_filter.mp hmem).2
      have hsize : (layout.seats.insert first candidate).size = layout.seats.size + 1 := by
        rw [Std.TreeMap.size_insert, if_neg fun hin => hnew (Std.TreeMap.contains_iff_mem.mp hin)]
      have hleft : tableCapacity - layout.seats.size =
          tableCapacity - (layout.seats.size + 1) + 1 := by omega
      rw [hstep]
      refine (ih { layout with seats := layout.seats.insert first candidate }).trans ?_
      rw [hsize, openSeats_insert hopen, hopen, hleft, take_succ_cons, zip_cons_cons,
        foldl_cons, drop_succ_cons]

/-- Those who get the free seats sit on them, and nobody else moves. -/
theorem toList_placed (candidates : List JoinIntent) (n : Nat) :
    ((((openSeats seats).take n).zip candidates).foldl
        (fun seats entry => seats.insert entry.1 entry.2) seats).toList.Perm
      (seats.toList ++ ((openSeats seats).take n).zip candidates) := by
  have hdistinct : ((((openSeats seats).take n).zip candidates).map Prod.fst).Nodup := by
    rw [map_fst_zip_eq_take]
    have hsorted : (openSeats seats).Pairwise (· < ·) := properSeats_sorted.filter _
    exact (hsorted.imp ne_of_lt).sublist ((take_sublist _ _).trans (take_sublist _ _))
  have hfresh : ∀ entry ∈ ((openSeats seats).take n).zip candidates, entry.1 ∉ seats := by
    intro entry hentry hin
    have hopen := mem_of_mem_take (of_mem_zip hentry).1
    exact of_decide_eq_true (mem_filter.mp hopen).2 (Std.TreeMap.contains_iff_mem.mpr hin)
  have hentries : ((((openSeats seats).take n).zip candidates).foldl
      (fun seats entry => seats.insert entry.1 entry.2) seats).toList.Perm (seats.toList ++
        (((openSeats seats).take n).zip candidates).map fun entry => (entry.1, entry.2)) :=
    toList_foldl_insert_perm hdistinct hfresh
  rwa [map_id'] at hentries

/-! ## The layout between two hands -/

/-- The seats and the waiting list between two hands, in terms of the candidates. -/
theorem nextMembershipLayout_eq_ok (idle : active.handActive = false) :
    nextMembershipLayout P active validJoins = .ok
      ((((((openSeats (keptSeats active (joinsByPlayer validJoins))).take
          (tableCapacity - (keptSeats active (joinsByPlayer validJoins)).size)).zip
            (layoutCandidates P active validJoins)).foldl
              (fun seats entry => seats.insert entry.1 entry.2)
              (keptSeats active (joinsByPlayer validJoins))).toList.map
                fun entry => ⟨entry.1, entry.2⟩),
        sortByKey (claimId P) (((layoutCandidates P active validJoins).drop
          (tableCapacity - (keptSeats active (joinsByPlayer validJoins)).size)).take
            waitingCapacity)) := by
  have hplaced := foldlM_placeCandidate (layoutCandidates P active validJoins)
    ⟨keptSeats active (joinsByPlayer validJoins), []⟩
  rw [← idle] at hplaced
  unfold nextMembershipLayout
  refine (congrArg (· >>= _) hplaced).trans ?_
  rw [idle]
  rfl

/-- Who gets a seat between two hands: those who keep theirs, and the first candidates. -/
theorem nextMembershipLayout_seated (idle : active.handActive = false)
    {layout : List MembershipSeatClaim × List JoinIntent}
    (h : nextMembershipLayout P active validJoins = .ok layout) :
    (layout.1.map joinIntent).Perm
      (values (keptSeats active (joinsByPlayer validJoins)) ++
        (layoutCandidates P active validJoins).take
          (tableCapacity - (keptSeats active (joinsByPlayer validJoins)).size)) := by
  rw [nextMembershipLayout_eq_ok idle] at h
  cases h
  generalize keptSeats active (joinsByPlayer validJoins) = seats
  have hopen := capacity_le_openSeats seats
  have hjoins : ∀ entries : List (PhysicalSeat × JoinIntent), (entries.map
      fun entry => (⟨entry.1, entry.2⟩ : MembershipSeatClaim)).map joinIntent =
        entries.map Prod.snd := by
    intro entries
    rw [map_map]
    rfl
  dsimp only
  rw [hjoins]
  refine ((toList_placed seats _ _).map Prod.snd).trans (Perm.of_eq ?_)
  rw [map_append, map_snd_zip_eq_take, length_take, Nat.min_eq_left (by omega)]
  rfl

variable {membership : TableMembership}

/-- What a proposal with valid contents is as a membership of the domain. -/
theorem MembershipProposal.asMembership_fields {proposal : MembershipProposal}
    (valid : proposal.validateContents P now = .ok ())
    (built : proposal.asMembership P = .ok membership) :
    membership.version = proposal.membershipVersion ∧
      membership.members = proposal.seats.map asMember ∧
      membership.waiting = proposal.waiting.map (asCandidate P) ∧
      validate membership = .ok () := by
  have hseats := (validateContents_eq_ok valid).1
  have hwaiting := validateContents_waiting valid
  rw [asMembership, mapError_eq_ok_iff] at built
  obtain ⟨-, hversion, hmembers, hvalid⟩ := members_of_new built (pairwise_map.mpr hseats)
  refine ⟨hversion, hmembers, ?_, hvalid⟩
  rw [(fields_of_new built).2.1]
  exact sortByKey_eq_of_perm (Perm.refl _) (pairwise_map.mpr hwaiting)

section

variable {signed : SignedMembershipProposal} {membership : TableMembership}
  (idle : active.handActive = false) (current : active.membership = some signed)
  (valid : signed.proposal.validateContents P now = .ok ())
  (built : signed.proposal.asMembership P = .ok membership)
  (joins : validJoins.Perm (signed.proposal.seats.map joinIntent ++ signed.proposal.waiting))

include valid built in
/-- No two of the join intents of a valid proposal are of one player. -/
theorem nodup_players_of_valid :
    ((signed.proposal.seats.map joinIntent ++ signed.proposal.waiting).map playerId).Nodup := by
  obtain ⟨-, hmembers, hwaiting, hvalid⟩ := MembershipProposal.asMembership_fields valid built
  have hplayers := (validate_iff.mp hvalid).2.2.2.1
  rw [players, hmembers, hwaiting, map_map, map_map] at hplayers
  rw [map_append, map_map]
  exact hplayers

include valid built joins in
/-- The session finds the intent of the membership under the player. -/
theorem joinsByPlayer_of_mem {intent : JoinIntent}
    (listed : intent ∈ signed.proposal.seats.map joinIntent ++
      signed.proposal.waiting) : (joinsByPlayer validJoins)[intent.playerId]? = some intent := by
  have hdistinct : (validJoins.map playerId).Nodup :=
    (joins.map _).nodup_iff.mpr (nodup_players_of_valid valid built)
  exact getElem?_joinsByPlayer_of_mem hdistinct (joins.mem_iff.mpr listed)

/-- The seats of those who do not leave. -/
def keptClaims (active : ActiveSession) (proposal : MembershipProposal) :
    List MembershipSeatClaim :=
  proposal.seats.filter fun seat => seat.joinIntent.playerId ∉ active.leavers

/-- The waiting intents of those who do not leave. -/
def stayingIntents (active : ActiveSession) (proposal : MembershipProposal) : List JoinIntent :=
  proposal.waiting.filter fun intent => intent.playerId ∉ active.leavers

include idle current valid built joins in
theorem keptSeats_idle : (keptSeats active (joinsByPlayer validJoins)).toList =
    (keptClaims active signed.proposal).map fun seat => (seat.physicalSeat, seat.joinIntent) := by
  have hloop : ∀ (claims : List MembershipSeatClaim) (seats : Std.TreeMap PhysicalSeat JoinIntent),
      claims ⊆ signed.proposal.seats →
      claims.foldl (keepSeat active (joinsByPlayer validJoins)) seats =
        (claims.filter fun seat => seat.joinIntent.playerId ∉ active.leavers).foldl
          (fun seats seat => seats.insert seat.physicalSeat seat.joinIntent) seats := by
    intro claims
    induction claims with
    | nil => exact fun _ _ => rfl
    | cons claim rest ih =>
      intro seats hsubset
      obtain ⟨hclaim, hrest⟩ := cons_subset.mp hsubset
      rw [foldl_cons, ih _ hrest]
      have hreleased : active.Released claim.joinIntent.playerId ↔
          claim.joinIntent.playerId ∈ active.leavers := by
        rw [ActiveSession.mem_leavers]
        exact and_iff_right idle
      by_cases hleaves : claim.joinIntent.playerId ∈ active.leavers
      · rw [filter_cons_of_neg (by simpa using hleaves), keepSeat,
          if_pos (hreleased.mpr hleaves)]
      · have hlisted : claim.joinIntent ∈ signed.proposal.seats.map joinIntent ++
            signed.proposal.waiting := mem_append_left _ (mem_map_of_mem hclaim)
        rw [filter_cons_of_pos (by simpa using hleaves), foldl_cons, keepSeat,
          if_neg (fun h => hleaves (hreleased.mp h)),
          joinsByPlayer_of_mem valid built joins hlisted]
  rw [keptSeats_eq current, hloop _ _ (Subset.refl _)]
  exact toList_foldl_insert ((MembershipProposal.validateContents_eq_ok valid).1.filter _)

include idle current valid built joins in
/-- The candidates are those who wait and do not leave, in the order of their claims. -/
theorem layoutCandidates_idle :
    layoutCandidates P active validJoins = stayingIntents active signed.proposal := by
  have hkept : values (keptSeats active (joinsByPlayer validJoins)) =
      (keptClaims active signed.proposal).map joinIntent := by
    rw [values, keptSeats_idle idle current valid built joins, map_map]
    rfl
  have hnodup := nodup_players_of_valid valid built
  rw [map_append] at hnodup
  have hdisjoint := (nodup_append'.mp hnodup).2.2
  have hperm : (validJoins.filter fun intent => intent.playerId ∉
      (values (keptSeats active (joinsByPlayer validJoins))).map playerId ∧
      (¬ active.leaves.contains intent.playerId ∨ active.handActive = true)).Perm
        (stayingIntents active signed.proposal) := by
    refine (joins.filter _).trans (Perm.of_eq ?_)
    rw [filter_append, filter_eq_nil_iff.mpr, nil_append]
    · refine filter_congr fun intent hintent => decide_eq_decide.mpr ?_
      rw [idle, ActiveSession.mem_leavers, hkept, map_map]
      simp only [Bool.false_eq_true, or_false]
      refine and_iff_right fun hin => ?_
      refine hdisjoint ?_ (mem_map_of_mem hintent)
      rw [map_map]
      exact (filter_sublist.map _).subset hin
    · -- a seated player keeps the seat or leaves
      intro intent hintent
      rw [decide_eq_true_eq, idle, hkept]
      obtain ⟨claim, hclaim, rfl⟩ := mem_map.mp hintent
      rintro ⟨hunseated, hstays | hfalse⟩
      · refine hunseated (mem_map_of_mem (mem_map_of_mem ?_))
        refine mem_filter.mpr ⟨hclaim, decide_eq_true ?_⟩
        rwa [ActiveSession.mem_leavers]
      · cases hfalse
  have hsorted : (stayingIntents active signed.proposal).Pairwise fun a b =>
      a.claimId P < b.claimId P :=
    (MembershipProposal.validateContents_waiting valid).filter _
  rw [layoutCandidates]
  exact sortByKey_eq_of_perm hperm hsorted

include valid built in
theorem keeping_leavers : membership.keeping active.leavers =
    (keptClaims active signed.proposal).map asMember := by
  rw [keeping, (MembershipProposal.asMembership_fields valid built).2.1, filter_map]
  rfl

include valid built in
theorem staying_leavers : membership.staying active.leavers =
    (stayingIntents active signed.proposal).map (asCandidate P) := by
  rw [staying, (MembershipProposal.asMembership_fields valid built).2.2.1, filter_map]
  rfl

include idle current valid built joins in
theorem openSeats_idle : openSeats (keptSeats active (joinsByPlayer validJoins)) =
    membership.freeSeats active.leavers := by
  refine filter_congr fun seat _ => decide_eq_decide.mpr (not_congr ?_)
  rw [Std.TreeMap.contains_iff_mem, ← Std.TreeMap.mem_keys, ← Std.TreeMap.map_fst_toList_eq_keys,
    keptSeats_idle idle current valid built joins, keeping_leavers valid built, map_map,
    map_map]
  rfl

include idle current valid built joins in
/-- The layout between two hands: the kept seats, the lowest free ones for the first
claims as long as there are fewer than six members, and who is left of the claims. -/
theorem nextMembershipLayout_idle :
    ∃ layout, nextMembershipLayout P active validJoins = .ok layout ∧
      (layout.1.Pairwise fun a b => a.physicalSeat < b.physicalSeat) ∧
      layout.1.Perm (keptClaims active signed.proposal ++
        (((membership.freeSeats active.leavers).take
          (tableCapacity - (keptClaims active signed.proposal).length)).zip
            (stayingIntents active signed.proposal)).map fun entry => ⟨entry.1, entry.2⟩) ∧
      layout.2 = (stayingIntents active signed.proposal).drop
        (tableCapacity - (keptClaims active signed.proposal).length) := by
  have hkept := keptSeats_idle idle current valid built joins
  have hsize : (keptSeats active (joinsByPlayer validJoins)).size =
      (keptClaims active signed.proposal).length := by
    rw [← Std.TreeMap.length_toList, hkept, length_map]
  have hopen := openSeats_idle idle current valid built joins
  have hroom : (stayingIntents active signed.proposal).length ≤ waitingCapacity := by
    obtain ⟨-, -, hwaiting, hvalid⟩ := MembershipProposal.asMembership_fields valid built
    have hfew := (validate_iff.mp hvalid).2.1
    rw [hwaiting, length_map] at hfew
    exact (length_filter_le _ _).trans hfew
  rw [nextMembershipLayout_eq_ok idle, layoutCandidates_idle idle current valid built joins, hsize,
    hopen]
  refine ⟨_, rfl, ?_, ?_, ?_⟩
  · rw [pairwise_map]
    exact toList_sorted _
  · have hentries := toList_placed (keptSeats active (joinsByPlayer validJoins))
      (stayingIntents active signed.proposal)
      (tableCapacity - (keptClaims active signed.proposal).length)
    rw [hopen, hkept] at hentries
    refine (hentries.map _).trans (Perm.of_eq ?_)
    rw [map_append, map_map]
    exact congrArg (· ++ _) (map_id _)
  · have hsorted : (stayingIntents active signed.proposal).Pairwise fun a b =>
        a.claimId P < b.claimId P :=
      (MembershipProposal.validateContents_waiting valid).filter _
    have hall : ((stayingIntents active signed.proposal).drop
        (tableCapacity - (keptClaims active signed.proposal).length)).length ≤ waitingCapacity := by
      rw [length_drop]
      omega
    dsimp only
    rw [take_of_length_le hall]
    exact sortByKey_eq_of_perm (Perm.refl _) (hsorted.sublist (drop_sublist _ _))

end

/-! ## Against the domain -/

/-- Every seat of the table is free or kept. -/
theorem length_freeSeats (valid : validate membership = .ok ()) (leaving : Finset PlayerId) :
    (membership.freeSeats leaving).length + ((membership.keeping leaving).filter fun member =>
      member.physicalSeat ∈ properSeats).length = tableCapacity := by
  have hsorted := (keysMatch_boundaryStart leaving (validate_iff.mp valid).2.2.1).sorted
  rw [values_boundaryStart] at hsorted
  have hnodup : ((membership.keeping leaving).map TableMember.physicalSeat).Nodup := by
    rw [nodup_iff_pairwise_ne, pairwise_map]
    exact hsorted.imp ne_of_lt
  have hperm : (properSeats.filter fun seat =>
      seat ∈ (membership.keeping leaving).map TableMember.physicalSeat).Perm
      (((membership.keeping leaving).map TableMember.physicalSeat).filter fun seat =>
        seat ∈ properSeats) := by
    refine (perm_ext_iff_of_nodup ((properSeats_sorted.imp ne_of_lt).filter _)
      (hnodup.filter _)).mpr fun seat => ?_
    simp only [mem_filter, decide_eq_true_eq]
    exact and_comm
  have hsplit := properSeats.length_eq_length_filter_add fun seat =>
    seat ∈ (membership.keeping leaving).map TableMember.physicalSeat
  have hfree : (membership.freeSeats leaving).length = (properSeats.filter fun seat =>
      !decide (seat ∈ (membership.keeping leaving).map TableMember.physicalSeat)).length :=
    congrArg length (filter_congr fun seat _ => decide_not)
  rw [hperm.length_eq, filter_map, length_map, ← hfree] at hsplit
  have hsix : properSeats.length = tableCapacity := rfl
  rw [← hsix, hsplit, Nat.add_comm]
  rfl

/-- As long as there is room for all, or for as many as there are free seats, it does not
matter whether the members or the free seats are counted. -/
theorem take_zip_of_fits {α β : Type} {free : List α} {candidates : List β} {room : Nat}
    (fits : room = free.length ∨ (candidates.length ≤ room ∧ room ≤ free.length)) :
    (free.take room).zip candidates = free.zip candidates ∧
      candidates.drop room = candidates.drop free.length := by
  rcases fits with rfl | ⟨hfew, hfree⟩
  · rw [take_length]
    exact ⟨rfl, rfl⟩
  · constructor
    · calc (free.take room).zip candidates
          = (free.take room).zip (candidates.take room) := by rw [take_of_length_le hfew]
        _ = (free.zip candidates).take room := take_zipWith.symm
        _ = free.zip candidates := by
          rw [take_of_length_le]
          rw [length_zip]
          omega
    · rw [drop_eq_nil_of_le hfew, drop_eq_nil_of_le (hfew.trans hfree)]

/-- Between two hands the layout of the runtime is that of the domain exactly when the
version can grow and every kept seat is a seat of the table, or all who want a seat fit. -/
theorem nextMembershipLayout_refines_iff {signed : SignedMembershipProposal}
    {membership : TableMembership} (idle : active.handActive = false)
    (current : active.membership = some signed) (verified : signed.verifyAt P now = .ok ())
    (built : signed.proposal.asMembership P = .ok membership)
    (joins : validJoins.Perm
      (signed.proposal.seats.map joinIntent ++ signed.proposal.waiting)) :
    (∃ layout next, nextMembershipLayout P active validJoins = .ok layout ∧
      membership.reconcileAtHandBoundary active.leavers = .ok next ∧
      layout.1.map asMember = next.members ∧
      layout.2.map (asCandidate P) = next.waiting) ↔
    membership.version.toNat < 2 ^ 64 - 1 ∧
      ((∀ member ∈ membership.keeping active.leavers, 1 ≤ member.physicalSeat.value.toNat ∧
          member.physicalSeat.value.toNat ≤ tableCapacity) ∨
        (membership.keeping active.leavers).length + (membership.staying active.leavers).length ≤
          tableCapacity) := by
  have hcontents := MembershipProposal.validateContents_of_verifyAt
    (SignedMembershipProposal.verifyAt_eq_ok verified)
  obtain ⟨-, -, hwaiting, hvalid⟩ := MembershipProposal.asMembership_fields hcontents built
  have hfree := length_freeSeats hvalid active.leavers
  have hpromoted : (membership.promoted active.leavers).length =
      min (membership.freeSeats active.leavers).length
        (membership.staying active.leavers).length := by
    rw [promoted, length_map, length_zip]
  constructor
  · rintro ⟨layout, next, -, hnext, -, -⟩
    obtain ⟨hlast, hfew⟩ := few_of_reconcileAtHandBoundary hvalid hnext
    rw [length_append, hpromoted] at hfew
    refine ⟨by omega, ?_⟩
    by_cases hproper : ∀ member ∈ membership.keeping active.leavers,
        1 ≤ member.physicalSeat.value.toNat ∧ member.physicalSeat.value.toNat ≤ tableCapacity
    · exact .inl hproper
    · -- the domain has a seat more than the runtime, and nobody may be left to take it
      right
      have hless : ((membership.keeping active.leavers).filter fun member =>
          member.physicalSeat ∈ properSeats).length <
            (membership.keeping active.leavers).length := by
        rw [length_filter_lt_length_iff_exists]
        push Not at hproper
        obtain ⟨member, hmember, himproper⟩ := hproper
        refine ⟨member, hmember, ?_⟩
        rw [decide_eq_true_eq, mem_properSeats]
        omega
      omega
  · rintro ⟨hlast, hroom⟩
    have hkept : (membership.keeping active.leavers).length =
        (keptClaims active signed.proposal).length := by
      rw [keeping_leavers hcontents built, length_map]
    have hstaying : (membership.staying active.leavers).length =
        (stayingIntents active signed.proposal).length := by
      rw [staying_leavers hcontents built, length_map]
    have hle : ((membership.keeping active.leavers).filter fun member =>
        member.physicalSeat ∈ properSeats).length ≤ (membership.keeping active.leavers).length :=
      length_filter_le _ _
    have hsix : (membership.keeping active.leavers).length ≤ tableCapacity :=
      (length_filter_le _ _).trans (validate_iff.mp hvalid).1
    have hfits : tableCapacity - (keptClaims active signed.proposal).length =
          (membership.freeSeats active.leavers).length ∨
        ((stayingIntents active signed.proposal).length ≤
            tableCapacity - (keptClaims active signed.proposal).length ∧
          tableCapacity - (keptClaims active signed.proposal).length ≤
            (membership.freeSeats active.leavers).length) := by
      rcases hroom with hproper | hfew
      · left
        have hall : (membership.keeping active.leavers).filter (fun member =>
            member.physicalSeat ∈ properSeats) = membership.keeping active.leavers :=
          filter_eq_self.mpr fun member hmember =>
            decide_eq_true (mem_properSeats.mpr (hproper member hmember))
        rw [hall] at hfree
        omega
      · right
        omega
    have hfew : (membership.keeping active.leavers ++
        membership.promoted active.leavers).length ≤ tableCapacity := by
      rw [length_append, hpromoted]
      omega
    have hclaims : membership.waiting.Pairwise fun a b => a.claimId ≤ b.claimId := by
      rw [hwaiting, pairwise_map]
      exact (MembershipProposal.validateContents_waiting hcontents).imp le_of_lt
    obtain ⟨layout, hlayout, hsorted, hseats, hleft⟩ :=
      nextMembershipLayout_idle idle current hcontents built joins
    obtain ⟨next, hnext, -, -, hsorted', hmembers, hleft'⟩ :=
      reconcileAtHandBoundary_of_few hvalid hclaims (by omega) hfew
    obtain ⟨hzip, hdrop⟩ := take_zip_of_fits hfits
    refine ⟨layout, next, hlayout, hnext, ?_, ?_⟩
    · refine Perm.eq_of_pairwise (fun a b _ _ hab hba => absurd hab hba.asymm)
        (pairwise_map.mpr hsorted) hsorted' ((hseats.map _).trans ?_)
      refine Perm.trans (Perm.of_eq ?_) hmembers.symm
      rw [hzip, map_append, map_map, keeping_leavers hcontents built, promoted,
        staying_leavers hcontents built, zip_map_right, map_map]
      rfl
    · rw [hleft, hleft', hdrop, staying_leavers hcontents built, map_drop]

section

open Room TableSession

/-- The ticket and the join intent of a peer. -/
def plainJoin (k : Nat) : Except SessionError (PoolTicket × JoinIntent) := do
  let identity := plainIdentity k
  let ticket ← issueLocalSessionTicket .plain plainRoom.level (chips 40)
    [Primitives.plain.peerIdToBytes identity.peerId] identity plainEpoch (FixedBytes.ofNat 0)
  let intent ← issueJoinIntent .plain plainRoom.tableId ticket identity plainEpoch
    (FixedBytes.ofNat 0)
  return (ticket, intent)

/-- The first peer, alone on a seat, certifies a membership in which others wait. -/
def soleCertificate (seat : PhysicalSeat) (others : List Nat) :
    Except SessionError CertifiedMembership := do
  let host := plainIdentity 1
  let (_, own) ← plainJoin 1
  let waiting ← others.mapM plainJoin
  let certificate : Except TableSessionProtocolError CertifiedMembership := do
    let proposal ← MembershipProposal.assemble .plain plainRoom.tableId plainRoom.level 1 none
      [⟨seat, own⟩] (waiting.map Prod.snd) [] plainEpoch
    let signed ← SignedMembershipProposal.issue .plain proposal plainEpoch host.device
      host.certificate
    let acceptance ← MembershipAcceptance.issue .plain signed (own.claimId .plain) plainEpoch
      host.device host.certificate
    CertifiedMembership.assemble .plain signed [acceptance] plainEpoch
  certificate.mapError fun error => .context "" (.session error)

/-- The second peer has joined and received that certificate. -/
def waitingSession (seat : PhysicalSeat) (others : List Nat) :
    Except SessionError ActiveSession := do
  let host := Primitives.plain.peerIdToBytes (plainIdentity 1).peerId
  let (ticket, _) ← plainJoin 2
  let certificate ← soleCertificate seat others
  let joined ← join .plain (plainIdentity 2) plainRoom.tableId
    (plainIdentity 1).certificate.playerId
    host [host] ticket plainEpoch (FixedBytes.ofNat 0)
  (handleMessage .plain (plainIdentity 2) (some (plainIdentity 1).peerId)
    (.certifiedMembership certificate) plainEpoch 0).after joined.active

/-- One of two waiting players is on a table with a single member. -/
theorem nextMembershipLayout_refines_waiting :
    ∃ active, waitingSession ⟨1⟩ [2, 3] = .ok active ∧ ∃ signed ∈ active.membership,
      ∃ membership, signed.proposal.asMembership .plain = .ok membership ∧
      ∃ layout next,
        nextMembershipLayout .plain active (canonicalPlayerJoins .plain active plainEpoch)
          = .ok layout ∧
        membership.reconcileAtHandBoundary active.leavers = .ok next ∧
        layout.1.map asMember = next.members ∧
        layout.2.map (asCandidate .plain) = next.waiting := by
  have hsession : ∃ active, waitingSession ⟨1⟩ [2, 3] = .ok active ∧ ∃ signed ∈ active.membership,
      active.handActive = false ∧ signed.verifyAt .plain plainEpoch = .ok () ∧
      (canonicalPlayerJoins .plain active plainEpoch).Perm
        (signed.proposal.seats.map joinIntent ++ signed.proposal.waiting) ∧
      ∃ membership, signed.proposal.asMembership .plain = .ok membership ∧
        membership.version.toNat < 2 ^ 64 - 1 ∧
        (membership.keeping active.leavers).length + (membership.staying active.leavers).length ≤
          tableCapacity := by
    decide +kernel
  obtain ⟨active, hactive, signed, hsigned, hidle, hverified, hjoins, membership, hmembership,
    hversion, hfits⟩ := hsession
  exact ⟨active, hactive, signed, hsigned, membership, hmembership,
    (nextMembershipLayout_refines_iff hidle hsigned hverified hmembership hjoins).mpr
      ⟨hversion, .inr hfits⟩⟩

/-- The only member sits on seat 9, and six players wait. The runtime seats five of them;
the domain has seats for all six, and a table of seven is refused. -/
theorem ninth_seat_divides_layouts :
    ∃ active, waitingSession ⟨9⟩ [2, 3, 4, 5, 6, 7] = .ok active ∧ ∃ signed ∈ active.membership,
      active.handActive = false ∧ signed.verifyAt .plain plainEpoch = .ok () ∧
      (canonicalPlayerJoins .plain active plainEpoch).Perm
        (signed.proposal.seats.map joinIntent ++ signed.proposal.waiting) ∧
      isOk (nextMembershipLayout .plain active (canonicalPlayerJoins .plain active plainEpoch))
        = true ∧
      ∃ membership, signed.proposal.asMembership .plain = .ok membership ∧
        isOk (membership.reconcileAtHandBoundary active.leavers) = false := by
  decide +kernel

end

end TokenHoldem
