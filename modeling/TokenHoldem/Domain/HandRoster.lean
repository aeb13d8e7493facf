import TokenHoldem.Domain.Membership

/-!
# Hand rosters

`token-holdem-domain/src/hand_roster.rs`: the members of a table frozen for one
hand, with the seat of the dealer.
-/

namespace TokenHoldem

open Library List PhysicalSeat

structure HandRosterSeat where
  physicalSeat : PhysicalSeat
  handIndex : UInt8
  playerId : PlayerId
  devicePublicKey : DevicePublicKey
  buyIn : Chips
deriving DecidableEq

structure ReadyHandRoster where
  tableId : TableId
  handNumber : UInt64
  membershipVersion : UInt64
  previousReceiptHash : Option Bytes32
  dealerSeat : PhysicalSeat
  seats : List HandRosterSeat
  rosterHash : Bytes32
deriving DecidableEq

inductive HandRosterError where
  | invalidHandNumber
  | invalidPlayerCount (count : Nat)
  | duplicatePhysicalSeat
  | duplicateHandIndex
  | duplicatePlayer
  | duplicateDevice
  | nonContiguousHandIndices
  | dealerSeatMissing
  | rosterHashMismatch
  | membership (error : MembershipError)
deriving DecidableEq

def nextDealer (previous : Option PhysicalSeat) (occupied : List PhysicalSeat) :
    Option PhysicalSeat :=
  match previous with
  | none => occupied.min?
  | some previous =>
    (range' 1 6).findSome? fun offset =>
      -- `previous - 1 + offset` is a sum of `u8`s
      let value := (previous.value - 1 + UInt8.ofNat offset) % 6 + 1
      match new value with
      | .ok seat => if seat ∈ occupied then some seat else none
      | .error _ => none

variable {occupied : List PhysicalSeat} {previous : PhysicalSeat}

/-- The dealer is one of the occupied seats. -/
theorem mem_of_nextDealer {previous : Option PhysicalSeat} {dealer : PhysicalSeat}
    (h : nextDealer previous occupied = some dealer) : dealer ∈ occupied := by
  cases previous with
  | none => exact min?_mem h
  | some previous =>
    obtain ⟨offset, -, hfound⟩ := exists_of_findSome?_eq_some h
    dsimp only at hfound
    split at hfound
    · split at hfound
      · cases hfound
        assumption
      · cases hfound
    · cases hfound

/-- Every proper seat is one to six places after any other. -/
theorem exists_offset {seat : PhysicalSeat} (proper : isOk (new previous.value) = true)
    (proper' : isOk (new seat.value) = true) :
    ∃ offset ∈ range' 1 6, (previous.value - 1 + UInt8.ofNat offset) % 6 + 1 = seat.value := by
  have hround : ∀ i j : Fin 6, ∃ offset ∈ range' 1 6,
      (UInt8.ofNat (i.val + 1) - 1 + UInt8.ofNat offset) % 6 + 1 = UInt8.ofNat (j.val + 1) := by
    decide
  have hnumber : ∀ value : UInt8, isOk (new value) = true →
      ∃ i : Fin 6, value = UInt8.ofNat (i.val + 1) := by
    intro value hvalue
    unfold new at hvalue
    split at hvalue
    · rename_i hrange
      have hlt : value.toNat - 1 < 6 := by
        have := hrange.2
        unfold tableCapacity at this
        omega
      refine ⟨⟨value.toNat - 1, hlt⟩, ?_⟩
      rw [Nat.sub_add_cancel hrange.1]
      exact (UInt8.ofNat_toNat).symm
    · cases hvalue
  obtain ⟨i, hi⟩ := hnumber _ proper
  obtain ⟨j, hj⟩ := hnumber _ proper'
  rw [hi, hj]
  exact hround i j

/-- From a proper seat the search goes once around the table, so it finds an
occupied proper seat. -/
theorem nextDealer_isSome {seat : PhysicalSeat}
    (proper : isOk (new previous.value) = true) (hseat : seat ∈ occupied)
    (hproper : isOk (new seat.value) = true) :
    (nextDealer (some previous) occupied).isSome = true := by
  obtain ⟨offset, hoffset, hvalue⟩ := exists_offset proper hproper
  refine findSome?_isSome_iff.mpr ⟨offset, hoffset, ?_⟩
  obtain ⟨built, hbuilt⟩ := isOk_eq_true.mp hproper
  have hsame : built = seat := by
    unfold new at hbuilt
    split at hbuilt
    · exact (Except.ok.inj hbuilt).symm
    · cases hbuilt
  simp [hvalue, hbuilt, hsame, hseat]

namespace ReadyHandRoster

def canonicalBytes (roster : ReadyHandRoster) : Bytes :=
  textBytes "token-holdem/hand-roster/v1\x00" ++ roster.tableId.asBytes
    ++ u64Bytes roster.handNumber ++ u64Bytes roster.membershipVersion
    ++ optionalHashBytes roster.previousReceiptHash
    ++ [roster.dealerSeat.value, UInt8.ofNat roster.seats.length]
    ++ roster.seats.flatMap fun seat =>
      [seat.physicalSeat.value, seat.handIndex] ++ seat.playerId.asBytes
        ++ seat.devicePublicKey.asBytes ++ seat.buyIn.toBytes

/-- The loop of `validate` over the seats: none of the four keys repeats. -/
def checkSeats : List HandRosterSeat → List HandRosterSeat → Except HandRosterError Unit
  | _, [] => .ok ()
  | seen, seat :: seats => do
    ensure (seat.physicalSeat ∉ seen.map HandRosterSeat.physicalSeat) .duplicatePhysicalSeat
    ensure (seat.handIndex ∉ seen.map HandRosterSeat.handIndex) .duplicateHandIndex
    ensure (seat.playerId ∉ seen.map HandRosterSeat.playerId) .duplicatePlayer
    ensure (seat.devicePublicKey ∉ seen.map HandRosterSeat.devicePublicKey) .duplicateDevice
    checkSeats (seat :: seen) seats

/-- Two seats of one roster differ in every key that `validate` compares. -/
def SeatsDiffer (a b : HandRosterSeat) : Prop :=
  a.physicalSeat ≠ b.physicalSeat ∧ a.handIndex ≠ b.handIndex ∧ a.playerId ≠ b.playerId ∧
    a.devicePublicKey ≠ b.devicePublicKey

theorem checkSeats_eq_ok_iff {seen seats : List HandRosterSeat} : checkSeats seen seats = .ok () ↔
      seats.Pairwise SeatsDiffer ∧ ∀ a ∈ seen, ∀ b ∈ seats, SeatsDiffer a b := by
  induction seats generalizing seen with
  | nil => simp [checkSeats]
  | cons seat seats ih =>
    unfold checkSeats
    simp only [ensure_bind_eq_ok, ih, mem_map, not_exists, not_and, pairwise_cons, forall_mem_cons]
    constructor
    · rintro ⟨hphysical, hindex, hplayer, hdevice, hpairwise, hfirst, hseen⟩
      exact ⟨⟨hfirst, hpairwise⟩, fun a ha =>
        ⟨⟨hphysical a ha, hindex a ha, hplayer a ha, hdevice a ha⟩, hseen a ha⟩⟩
    · rintro ⟨⟨hfirst, hpairwise⟩, hseen⟩
      exact ⟨fun a ha => (hseen a ha).1.1, fun a ha => (hseen a ha).1.2.1,
        fun a ha => (hseen a ha).1.2.2.1, fun a ha => (hseen a ha).1.2.2.2, hpairwise, hfirst,
        fun a ha => (hseen a ha).2⟩

def validate (roster : ReadyHandRoster) : Except HandRosterError Unit := do
  ensure (2 ≤ roster.seats.length ∧ roster.seats.length ≤ 6)
    (.invalidPlayerCount roster.seats.length)
  checkSeats [] roster.seats
  ensure (roster.dealerSeat ∈ roster.seats.map HandRosterSeat.physicalSeat) .dealerSeatMissing
  -- equality of the sets of indices, both without repetition
  ensure ((roster.seats.map HandRosterSeat.handIndex).Perm
    ((range roster.seats.length).map UInt8.ofNat)) .nonContiguousHandIndices

variable (P : Primitives)

def fromMembership (membership : TableMembership) (handNumber : UInt64)
    (previousReceiptHash : Option Bytes32) (previousDealerSeat : Option PhysicalSeat) :
    Except HandRosterError ReadyHandRoster := do
  ensure (handNumber ≠ 0) .invalidHandNumber
  let members := membership.members
  ensure (2 ≤ members.length ∧ members.length ≤ 6) (.invalidPlayerCount members.length)
  let dealerSeat ← okOr .dealerSeatMissing
    (nextDealer previousDealerSeat (members.map TableMember.physicalSeat))
  let seats := members.zipIdx.map fun entry =>
    { physicalSeat := entry.1.physicalSeat, handIndex := UInt8.ofNat entry.2,
      playerId := entry.1.playerId, devicePublicKey := entry.1.devicePublicKey,
      buyIn := entry.1.buyIn : HandRosterSeat }
  let roster : ReadyHandRoster :=
    { tableId := membership.tableId, handNumber, membershipVersion := membership.version,
      previousReceiptHash, dealerSeat, seats, rosterHash := FixedBytes.ofNat 0 }
  validate roster
  return { roster with rosterHash := P.hash roster.canonicalBytes }

def verify (roster : ReadyHandRoster) : Except HandRosterError Unit := do
  validate roster
  ensure (P.hash roster.canonicalBytes = roster.rosterHash) .rosterHashMismatch

variable {roster : ReadyHandRoster} {membership : TableMembership} {handNumber : UInt64}
  {previousReceiptHash : Option Bytes32} {previousDealerSeat : Option PhysicalSeat}

/-- What a valid roster satisfies. -/
theorem validate_eq_ok (h : validate roster = .ok ()) : roster.seats.Pairwise SeatsDiffer ∧
      (∃ seat ∈ roster.seats, seat.physicalSeat = roster.dealerSeat) ∧
      (roster.seats.map HandRosterSeat.handIndex).Perm
        ((range roster.seats.length).map UInt8.ofNat) := by
  unfold validate at h
  obtain ⟨-, h⟩ := ensure_bind_eq_ok.mp h
  obtain ⟨hseats, h⟩ := unit_bind_eq_ok.mp h
  obtain ⟨hdealer, h⟩ := ensure_bind_eq_ok.mp h
  exact ⟨(checkSeats_eq_ok_iff.mp hseats).1, mem_map.mp hdealer, ensure_eq_ok.mp h⟩

theorem count_of_validate (h : validate roster = .ok ()) :
    2 ≤ roster.seats.length ∧ roster.seats.length ≤ 6 :=
  (ensure_bind_eq_ok.mp h).1

theorem nodup_players_of_validate (h : validate roster = .ok ()) :
    (roster.seats.map HandRosterSeat.playerId).Nodup := by
  rw [nodup_iff_pairwise_ne, pairwise_map]
  exact (validate_eq_ok h).1.imp fun differ => differ.2.2.1

/-- The members of a table in the order of their seats, frozen for a hand. -/
def frozenSeats (members : List TableMember) : List HandRosterSeat :=
  members.zipIdx.map fun entry =>
    { physicalSeat := entry.1.physicalSeat, handIndex := UInt8.ofNat entry.2,
      playerId := entry.1.playerId, devicePublicKey := entry.1.devicePublicKey,
      buyIn := entry.1.buyIn }

variable {P}

/-- Of two frozen members, all keys differ: the position in the list is one of them. -/
theorem frozenSeats_pairwise {members : List TableMember} (count : members.length ≤ 6)
    (seats : (members.map TableMember.physicalSeat).Nodup)
    (players : (members.map TableMember.playerId).Nodup)
    (devices : (members.map TableMember.devicePublicKey).Nodup) :
    (frozenSeats members).Pairwise SeatsDiffer := by
  unfold frozenSeats
  rw [pairwise_map, pairwise_iff_getElem]
  intro i j hi hj hij
  rw [length_zipIdx] at hi hj
  have hdiffer : ∀ {κ : Type} (key : TableMember → κ), (members.map key).Nodup →
      key members[i] ≠ key members[j] := by
    intro κ key hnodup heq
    have hi' : i < (members.map key).length := by simpa using hi
    have hj' : j < (members.map key).length := by simpa using hj
    have hsame : (members.map key)[i] = (members.map key)[j] := by simpa using heq
    exact hij.ne ((Nodup.getElem_inj_iff hnodup).mp hsame)
  refine ⟨?_, ?_, ?_, ?_⟩
  · simpa using hdiffer _ seats
  · intro heq
    have := congrArg UInt8.toNat heq
    simp only [getElem_zipIdx, UInt8.toNat_ofNat', Nat.zero_add] at this
    omega
  · simpa using hdiffer _ players
  · simpa using hdiffer _ devices

variable (members : List TableMember)

theorem handIndex_frozenSeats : (frozenSeats members).map HandRosterSeat.handIndex
      = (range members.length).map UInt8.ofNat := by
  rw [frozenSeats, range_eq_range', ← zipIdx_map_snd 0 members, map_map, map_map]
  rfl

@[simp] theorem length_frozenSeats : (frozenSeats members).length = members.length := by
  simp [frozenSeats]

theorem physicalSeat_frozenSeats : (frozenSeats members).map HandRosterSeat.physicalSeat
      = members.map TableMember.physicalSeat := by
  rw [frozenSeats, map_map]
  conv_rhs => rw [← zipIdx_map_fst 0 members, map_map]
  rfl

/-- The roster that `from_membership` builds around a dealer. -/
def frozenRoster (P : Primitives) (membership : TableMembership) (handNumber : UInt64)
    (previousReceiptHash : Option Bytes32) (dealerSeat : PhysicalSeat) : ReadyHandRoster :=
  let roster : ReadyHandRoster :=
    { tableId := membership.tableId, handNumber, membershipVersion := membership.version,
      previousReceiptHash, dealerSeat, seats := frozenSeats membership.members,
      rosterHash := FixedBytes.ofNat 0 }
  { roster with rosterHash := P.hash roster.canonicalBytes }

/-- When `from_membership` succeeds, and with what. -/
theorem fromMembership_eq_ok_iff (valid : TableMembership.validate membership = .ok ())
    (seats : (membership.members.map TableMember.physicalSeat).Nodup) :
    fromMembership P membership handNumber previousReceiptHash previousDealerSeat = .ok roster ↔
      handNumber ≠ 0 ∧ 2 ≤ membership.members.length ∧ ∃ dealer, nextDealer previousDealerSeat
            (membership.members.map TableMember.physicalSeat) = some dealer ∧
          roster = frozenRoster P membership handNumber previousReceiptHash dealer := by
  obtain ⟨hplayers, hdevices, hcount⟩ := TableMembership.validate_eq_ok valid
  have hcount : membership.members.length ≤ 6 := hcount
  unfold fromMembership
  simp only [okOr_bind_eq_ok, unit_bind_eq_ok, ensure_eq_ok]
  constructor
  · rintro ⟨hnumber, ⟨htwo, -⟩, dealer, hdealer, -, hroster⟩
    exact ⟨hnumber, htwo, dealer, hdealer, (Except.ok.inj hroster).symm⟩
  · rintro ⟨hnumber, htwo, dealer, hdealer, rfl⟩
    refine ⟨hnumber, ⟨htwo, hcount⟩, dealer, hdealer, ?_, rfl⟩
    -- the frozen seats pass the checks of `validate`
    unfold validate
    simp only [unit_bind_eq_ok, ensure_eq_ok]
    refine ⟨⟨?_, ?_⟩, ?_, ?_, ?_⟩
    · exact htwo.trans_eq (length_frozenSeats _).symm
    · exact (length_frozenSeats _).trans_le hcount
    · exact checkSeats_eq_ok_iff.mpr ⟨frozenSeats_pairwise hcount seats hplayers hdevices, by simp⟩
    · exact (physicalSeat_frozenSeats membership.members).symm ▸ mem_of_nextDealer hdealer
    · have hindices := handIndex_frozenSeats membership.members
      have hlength := length_frozenSeats membership.members
      unfold frozenSeats at hindices hlength
      rw [hindices, hlength]

theorem fromMembership_eq_ok
    (h : fromMembership P membership handNumber previousReceiptHash previousDealerSeat
      = .ok roster) : roster.handNumber = handNumber := by
  unfold fromMembership at h
  obtain ⟨-, h⟩ := ensure_bind_eq_ok.mp h
  obtain ⟨-, h⟩ := ensure_bind_eq_ok.mp h
  obtain ⟨dealerSeat, -, h⟩ := okOr_bind_eq_ok.mp h
  cases (unit_bind_eq_ok.mp h).2
  rfl

/-- A roster that has just been made passes its own check. -/
theorem verify_of_fromMembership
    (h : fromMembership P membership handNumber previousReceiptHash previousDealerSeat
      = .ok roster) : verify P roster = .ok () := by
  unfold fromMembership at h
  obtain ⟨-, h⟩ := ensure_bind_eq_ok.mp h
  obtain ⟨-, h⟩ := ensure_bind_eq_ok.mp h
  obtain ⟨dealerSeat, -, h⟩ := okOr_bind_eq_ok.mp h
  obtain ⟨hvalid, h⟩ := unit_bind_eq_ok.mp h
  cases h
  -- neither the checks nor the bytes read the hash
  exact unit_bind_eq_ok.mpr ⟨hvalid, ensure_eq_ok.mpr rfl⟩

end ReadyHandRoster

end TokenHoldem
