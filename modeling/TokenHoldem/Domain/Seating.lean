import TokenHoldem.Domain.Membership
import TokenHoldem.Identity.Certificate

/-!
# Who moves up at the end of a hand

The rest of `token-holdem-domain/src/membership.rs`: joins are queued while a hand
is played, and at its end the leaving players give their seats to the waiting ones.

- `validate_iff` — what a valid membership is;
- `Reconciled` — what the end of a hand has to do with a membership, said without
  the loop that does it;
- `reconcileAtHandBoundary_reconciles` — the loop does it and its result is valid.
-/

namespace TokenHoldem

open Library List JoinCandidate Identifier

/-- A candidate who gets a seat. -/
def JoinCandidate.seatedAt (candidate : JoinCandidate) (seat : PhysicalSeat) : TableMember :=
  ⟨candidate.playerId, candidate.devicePublicKey, candidate.buyIn, seat⟩

namespace TableMembership

/-! ## Valid memberships -/

/-- The players at the table, seated or waiting. -/
def players (membership : TableMembership) : List PlayerId :=
  membership.members.map TableMember.playerId ++ membership.waiting.map playerId

/-- Their devices. -/
def devices (membership : TableMembership) : List DevicePublicKey :=
  membership.members.map TableMember.devicePublicKey
    ++ membership.waiting.map devicePublicKey

/-- A loop of `checkFresh` meets players and devices that are all different and new. -/
theorem foldlM_checkFresh_eq_ok_iff {α : Type} {player : α → PlayerId}
    {device : α → DevicePublicKey}
    {items : List α} {seen result : Seen} :
    items.foldlM (fun seen item => checkFresh seen (player item) (device item)) seen = .ok result ↔
      ((items.map player).Nodup ∧ ∀ item ∈ items, player item ∉ seen.1) ∧
      ((items.map device).Nodup ∧ ∀ item ∈ items, device item ∉ seen.2) ∧
      result = ((items.map player).reverse ++ seen.1, (items.map device).reverse ++ seen.2) := by
  induction items generalizing seen with
  | nil => simp [eq_comm, pure, Except.pure]
  | cons item rest ih =>
    rw [foldlM_cons]
    unfold checkFresh
    simp only [bind_eq_ok, ensure_eq_ok, exists_and_left, exists_const]
    constructor
    · rintro ⟨next, ⟨hplayer, hdevice, hnext⟩, hrest⟩
      cases hnext
      obtain ⟨⟨hplayers, hnew⟩, ⟨hdevices, hnew'⟩, rfl⟩ := ih.mp hrest
      simp only [mem_cons, not_or] at hnew hnew'
      refine ⟨⟨?_, ?_⟩, ⟨?_, ?_⟩, by simp⟩
      · refine nodup_cons.mpr ⟨fun hin => ?_, hplayers⟩
        obtain ⟨other, hother, heq⟩ := mem_map.mp hin
        exact (hnew other hother).1 heq
      · exact forall_mem_cons.mpr ⟨hplayer, fun other hother => (hnew other hother).2⟩
      · refine nodup_cons.mpr ⟨fun hin => ?_, hdevices⟩
        obtain ⟨other, hother, heq⟩ := mem_map.mp hin
        exact (hnew' other hother).1 heq
      · exact forall_mem_cons.mpr ⟨hdevice, fun other hother => (hnew' other hother).2⟩
    · rintro ⟨⟨hplayers, hnew⟩, ⟨hdevices, hnew'⟩, rfl⟩
      rw [map_cons, nodup_cons] at hplayers hdevices
      refine ⟨_, ⟨hnew item mem_cons_self, hnew' item mem_cons_self, rfl⟩, ih.mpr ?_⟩
      simp only [mem_cons, not_or]
      refine ⟨⟨hplayers.2, fun other hother => ⟨fun heq => hplayers.1 ?_, ?_⟩⟩,
        ⟨hdevices.2, fun other hother => ⟨fun heq => hdevices.1 ?_, ?_⟩⟩, by simp⟩
      · exact mem_map.mpr ⟨other, hother, heq⟩
      · exact hnew other (mem_cons_of_mem _ hother)
      · exact mem_map.mpr ⟨other, hother, heq⟩
      · exact hnew' other (mem_cons_of_mem _ hother)

/-- The loop over the seats also compares each key with the seat of its member. -/
theorem foldlM_seats_eq_ok_iff {entries : List (PhysicalSeat × TableMember)} {seen result : Seen} :
    entries.foldlM (fun seen entry => do
      ensure (entry.2.physicalSeat = entry.1) MembershipError.seatKeyMismatch
      checkFresh seen entry.2.playerId entry.2.devicePublicKey) seen = .ok result ↔
    (∀ entry ∈ entries, entry.2.physicalSeat = entry.1) ∧
      entries.foldlM (fun seen entry => checkFresh seen entry.2.playerId entry.2.devicePublicKey)
        seen = .ok result := by
  induction entries generalizing seen with
  | nil => simp
  | cons entry rest ih =>
    simp only [foldlM_cons, bind_eq_ok, ensure_eq_ok, forall_mem_cons, ih]
    constructor
    · rintro ⟨next, ⟨_, hkey, hnext⟩, hkeys, hrest⟩
      exact ⟨⟨hkey, hkeys⟩, next, hnext, hrest⟩
    · rintro ⟨⟨hkey, hkeys⟩, next, hnext, hrest⟩
      exact ⟨next, ⟨(), hkey, hnext⟩, hkeys, hrest⟩

/-- The seats are filed under their own numbers. -/
def KeysMatch (seats : Std.TreeMap PhysicalSeat TableMember) : Prop :=
  ∀ (seat : PhysicalSeat) (member : TableMember), seats[seat]? = some member →
    member.physicalSeat = seat

variable {membership : TableMembership} {seats : Std.TreeMap PhysicalSeat TableMember}
  {members : List TableMember} {waiting : List JoinCandidate}

/-- A membership is valid when it fits the table and the queue, and no player and no
device occurs twice. -/
theorem validate_iff : validate membership = .ok () ↔ membership.members.length ≤ tableCapacity ∧
      membership.waiting.length ≤ waitingCapacity ∧ KeysMatch membership.seats ∧
      membership.players.Nodup ∧ membership.devices.Nodup := by
  unfold validate
  rw [ensure_bind_eq_ok, ensure_bind_eq_ok]
  simp only [bind_eq_ok, foldlM_seats_eq_ok_iff, foldlM_checkFresh_eq_ok_iff]
  have hkeys : (∀ entry ∈ membership.seats.toList, entry.2.physicalSeat = entry.1) ↔
      KeysMatch membership.seats := by
    constructor
    · intro h seat member hmember
      exact h (seat, member) (Std.TreeMap.mem_toList_iff_getElem?_eq_some.mpr hmember)
    · intro h entry hentry
      exact h entry.1 entry.2 (Std.TreeMap.mem_toList_iff_getElem?_eq_some.mp hentry)
  have hmap : ∀ {κ : Type} (key : TableMember → κ),
      membership.seats.toList.map (fun entry => key entry.2) = membership.members.map key := by
    intro κ key
    rw [members, values, map_map]
    rfl
  have hlength : membership.seats.size = membership.members.length := by
    rw [members, length_values]
  rw [hlength, hkeys, hmap TableMember.playerId, hmap TableMember.devicePublicKey]
  unfold players devices
  simp only [nodup_append', disjoint_right, mem_map]
  constructor
  · rintro ⟨hsize, hwaiting, seated, ⟨hkeys, ⟨hplayers, -⟩, ⟨hdevices, -⟩, rfl⟩, _,
      ⟨⟨hplayers', hnew⟩, ⟨hdevices', hnew'⟩, -⟩, -⟩
    simp only [append_nil, mem_reverse] at hnew hnew'
    refine ⟨hsize, hwaiting, hkeys, ⟨hplayers, hplayers', ?_⟩, hdevices, hdevices', ?_⟩
    · rintro _ ⟨candidate, hcandidate, rfl⟩ hin
      exact hnew candidate hcandidate (mem_map.mpr hin)
    · rintro _ ⟨candidate, hcandidate, rfl⟩ hin
      exact hnew' candidate hcandidate (mem_map.mpr hin)
  · rintro ⟨hsize, hwaiting, hkeys, ⟨hplayers, hplayers', hnew⟩, hdevices, hdevices', hnew'⟩
    refine ⟨hsize, hwaiting, _, ⟨hkeys, ⟨hplayers, by simp⟩, ⟨hdevices, by simp⟩, rfl⟩, _,
      ⟨⟨hplayers', fun candidate hcandidate hin => ?_⟩,
        ⟨hdevices', fun candidate hcandidate hin => ?_⟩, rfl⟩, rfl⟩
    · simp only [append_nil, mem_reverse, mem_map] at hin
      exact hnew ⟨candidate, hcandidate, rfl⟩ hin
    · simp only [append_nil, mem_reverse, mem_map] at hin
      exact hnew' ⟨candidate, hcandidate, rfl⟩ hin

/-- Members filed under their own seats come in the order of the seats. -/
theorem KeysMatch.sorted (keys : KeysMatch seats) :
    (values seats).Pairwise fun a b : TableMember => a.physicalSeat < b.physicalSeat := by
  have hordered : seats.toList.Pairwise fun a b => a.1 < b.1 :=
    Std.TreeMap.ordered_keys_toList.imp fun h => compare_lt_iff_lt.mp h
  rw [values, pairwise_map]
  refine hordered.imp_of_mem fun {a b} ha hb hlt => ?_
  rw [keys a.1 a.2 (Std.TreeMap.mem_toList_iff_getElem?_eq_some.mp ha),
    keys b.1 b.2 (Std.TreeMap.mem_toList_iff_getElem?_eq_some.mp hb)]
  exact hlt

/-- Members with different seats all get theirs. -/
theorem seatMembers_of_nodup (distinct : (members.map TableMember.physicalSeat).Nodup) :
    ∃ seats, seatMembers members = .ok seats := by
  suffices ∀ start : Std.TreeMap PhysicalSeat TableMember,
      (∀ member ∈ members, member.physicalSeat ∉ start) →
      ∃ seats, members.foldlM (fun seats member => do
        ensure (¬ seats.contains member.physicalSeat) MembershipError.duplicatePhysicalSeat
        return seats.insert member.physicalSeat member) start = .ok seats from
    this ∅ fun _ _ => Std.TreeMap.not_mem_emptyc
  intro start fresh
  induction members generalizing start with
  | nil => exact ⟨start, rfl⟩
  | cons first rest ih =>
    rw [map_cons, nodup_cons] at distinct
    have hfree : ¬ start.contains first.physicalSeat = true := fun hin =>
      fresh first mem_cons_self (Std.TreeMap.contains_iff_mem.mp hin)
    obtain ⟨seats, hseats⟩ := ih distinct.2 (start.insert first.physicalSeat first) (by
      intro member hmember hin
      rcases Std.TreeMap.mem_insert.mp hin with heq | hin
      · exact distinct.1 (mem_map.mpr ⟨member, hmember, (compare_eq_iff_eq.mp heq).symm⟩)
      · exact fresh member (mem_cons_of_mem _ hmember) hin)
    refine ⟨seats, ?_⟩
    rw [foldlM_cons, bind_eq_ok]
    exact ⟨_, ensure_bind_eq_ok.mpr ⟨hfree, rfl⟩, hseats⟩

theorem keysMatch_of_seatMembers (h : seatMembers members = .ok seats) : KeysMatch seats := by
  intro seat member hmember
  obtain ⟨rfl, distinct⟩ := seatMembers_eq_ok h
  have hlookup : (members.foldl (fun seats member => seats.insert member.physicalSeat member)
      (∅ : Std.TreeMap PhysicalSeat TableMember))[seat]? =
        ((members.find? (·.physicalSeat = seat)).map id).or
          (∅ : Std.TreeMap PhysicalSeat TableMember)[seat]? :=
    getElem?_foldl_insert distinct
  rw [hlookup, Std.TreeMap.getElem?_emptyc, Option.or_none, Option.map_id] at hmember
  simpa using find?_some hmember

/-- What `new` builds. -/
theorem fields_of_new {tableId : TableId} {version : UInt64}
    (built : new tableId version members waiting = .ok membership) : membership.version = version ∧
      membership.waiting = sortByKey claimId waiting ∧
      validate membership = .ok () := by
  unfold new at built
  obtain ⟨seats, -, built⟩ := bind_eq_ok.mp built
  obtain ⟨hvalid, built⟩ := unit_bind_eq_ok.mp built
  cases built
  exact ⟨rfl, rfl, hvalid⟩

/-- `new` takes members in the order of their seats, and candidates, among whom no player
and no device occurs twice. -/
theorem new_of_sorted (tableId : TableId) (version : UInt64)
    (sorted : members.Pairwise fun a b => a.physicalSeat < b.physicalSeat)
    (few : members.length ≤ tableCapacity) (room : waiting.length ≤ waitingCapacity)
    (distinct : (members.map TableMember.playerId ++ waiting.map playerId).Nodup)
    (distinct' : (members.map TableMember.devicePublicKey ++ waiting.map devicePublicKey).Nodup) :
    ∃ membership, new tableId version members waiting = .ok membership ∧
      membership.tableId = tableId ∧ membership.version = version ∧ membership.members = members ∧
      membership.waiting = sortByKey claimId waiting := by
  have hseats : (members.map TableMember.physicalSeat).Nodup := by
    rw [nodup_iff_pairwise_ne, pairwise_map]
    exact sorted.imp ne_of_lt
  obtain ⟨filed, hfiled⟩ := seatMembers_of_nodup hseats
  have hmembers : values filed = members := values_seatMembers hfiled sorted
  have hperm := sortByKey_perm claimId waiting
  refine ⟨⟨tableId, version, filed, sortByKey claimId waiting⟩, ?_, rfl, rfl, hmembers, rfl⟩
  rw [new, bind_eq_ok]
  refine ⟨filed, hfiled, unit_bind_eq_ok.mpr ⟨validate_iff.mpr ?_, rfl⟩⟩
  refine ⟨?_, hperm.length_eq.trans_le room, keysMatch_of_seatMembers hfiled, ?_, ?_⟩
  · exact (congrArg length hmembers).trans_le few
  · show (map _ (values filed) ++ _).Nodup
    rw [hmembers]
    exact ((hperm.map _).append_left _).nodup_iff.mpr distinct
  · show (map _ (values filed) ++ _).Nodup
    rw [hmembers]
    exact ((hperm.map _).append_left _).nodup_iff.mpr distinct'

/-! ## The end of a hand -/

/-- The seats from 1 to `TABLE_CAPACITY`. -/
def properSeats : List PhysicalSeat :=
  (range' 1 tableCapacity).filterMap fun value =>
    (PhysicalSeat.new (UInt8.ofNat value)).toOption

/-- What the loop of `reconcile_at_hand_boundary` works on: the new seats, the players
and devices on them, the seats that are left and the candidates that go on waiting. -/
structure Boundary where
  seats : Std.TreeMap PhysicalSeat TableMember
  players : List PlayerId
  devices : List DevicePublicKey
  available : List PhysicalSeat
  remaining : List JoinCandidate

/-- One round of the loop. -/
def boundaryStep (leaving : Finset PlayerId) (boundary : Boundary) (candidate : JoinCandidate) :
    Boundary :=
  if candidate.playerId ∈ leaving ∨ candidate.playerId ∈ boundary.players ∨
      candidate.devicePublicKey ∈ boundary.devices then boundary
  else match boundary.available with
    | seat :: available => { boundary with
        seats := boundary.seats.insert seat (candidate.seatedAt seat)
        players := candidate.playerId :: boundary.players
        devices := candidate.devicePublicKey :: boundary.devices
        available := available }
    | [] =>
      if boundary.remaining.length < waitingCapacity then
        { boundary with remaining := boundary.remaining ++ [candidate] }
      else boundary

/-- What the loop begins with: the seats of those who stay. -/
def boundaryStart (membership : TableMembership) (leaving : Finset PlayerId) : Boundary :=
  let seats := membership.seats.filter fun _ member => member.playerId ∉ leaving
  { seats
    players := (values seats).map TableMember.playerId
    devices := (values seats).map TableMember.devicePublicKey
    available := properSeats.filter fun seat => ¬ seats.contains seat
    remaining := [] }

def reconcileAtHandBoundary (membership : TableMembership) (leaving : Finset PlayerId) :
    Except MembershipError TableMembership := do
  let boundary := membership.waiting.foldl (boundaryStep leaving) (membership.boundaryStart leaving)
  let version ← okOr .versionOverflow (checkedAdd membership.version 1)
  new membership.tableId version (values boundary.seats) boundary.remaining

section

variable (membership : TableMembership) (leaving : Finset PlayerId)

/-- The members who keep their seats. -/
def keeping : List TableMember := membership.members.filter fun member => member.playerId ∉ leaving

/-- The candidates who want a seat, in the order of their claims. -/
def staying : List JoinCandidate :=
  membership.waiting.filter fun candidate => candidate.playerId ∉ leaving

/-- The seats that nobody keeps, from the lowest on. -/
def freeSeats : List PhysicalSeat :=
  properSeats.filter fun seat => seat ∉ (membership.keeping leaving).map TableMember.physicalSeat

/-- Each free seat goes to the next candidate. -/
def promoted : List TableMember :=
  ((membership.freeSeats leaving).zip (membership.staying leaving)).map fun entry =>
    entry.2.seatedAt entry.1

end

/-- The membership after a hand at whose end the players `leaving` leave. -/
structure Reconciled (membership : TableMembership) (leaving : Finset PlayerId)
    (next : TableMembership) : Prop where
  tableId : next.tableId = membership.tableId
  version : next.version.toNat = membership.version.toNat + 1
  /-- Who does not leave keeps seat, device and buy-in. -/
  keeps : ∀ member ∈ membership.members, member.playerId ∉ leaving → member ∈ next.members
  gone : ∀ player ∈ leaving, player ∉ next.players
  /-- Every other seated or waiting player appears exactly once, and nobody else does. -/
  once : ∀ player ∈ membership.players, player ∉ leaving → next.players.count player = 1
  known : ∀ player ∈ next.players, player ∈ membership.players
  /-- The lowest free seats go to the first candidates in the order of their claims. -/
  byClaim : (membership.staying leaving).Pairwise fun a b => a.claimId ≤ b.claimId
  bySeat : (membership.freeSeats leaving).Pairwise (· < ·)
  promotes : ∀ entry ∈ (membership.freeSeats leaving).zip (membership.staying leaving),
    entry.2.seatedAt entry.1 ∈ next.members
  /-- The other candidates go on waiting. -/
  waiting : next.waiting =
    (membership.staying leaving).drop (membership.freeSeats leaving).length
  /-- Nobody waits while a seat is free. -/
  full : ∀ seat ∈ properSeats, seat ∉ next.members.map TableMember.physicalSeat → next.waiting = []

/-! ### The loop -/

/-- Over candidates who are all new at the table, the loop gives the seats that are left
to those who do not leave, in their order. -/
theorem foldl_boundaryStep (leaving : Finset PlayerId) {boundary : Boundary}
    {candidates : List JoinCandidate} (players : (candidates.map playerId).Nodup)
    (devices : (candidates.map devicePublicKey).Nodup)
    (fresh : ∀ candidate ∈ candidates, candidate.playerId ∉ boundary.players ∧
      candidate.devicePublicKey ∉ boundary.devices)
    (room : boundary.remaining.length + candidates.length ≤ waitingCapacity) :
    (candidates.foldl (boundaryStep leaving) boundary).seats =
        (boundary.available.zip
          (candidates.filter fun candidate => candidate.playerId ∉ leaving)).foldl
          (fun seats entry => seats.insert entry.1 (entry.2.seatedAt entry.1)) boundary.seats ∧
      (candidates.foldl (boundaryStep leaving) boundary).remaining = boundary.remaining ++
        (candidates.filter fun candidate => candidate.playerId ∉ leaving).drop
          boundary.available.length := by
  induction candidates generalizing boundary with
  | nil => simp
  | cons candidate rest ih =>
    rw [map_cons, nodup_cons] at players devices
    rw [length_cons] at room
    obtain ⟨⟨hplayer, hdevice⟩, hrest⟩ := forall_mem_cons.mp fresh
    rw [foldl_cons]
    by_cases hleaves : candidate.playerId ∈ leaving
    · -- a leaving candidate is passed over
      have hstep : boundaryStep leaving boundary candidate = boundary := if_pos (.inl hleaves)
      rw [hstep, filter_cons_of_neg (by simpa using hleaves)]
      exact ih players.2 devices.2 hrest (by omega)
    · have hnew : ¬ (candidate.playerId ∈ leaving ∨ candidate.playerId ∈ boundary.players ∨
          candidate.devicePublicKey ∈ boundary.devices) := by
        simp only [not_or]
        exact ⟨hleaves, hplayer, hdevice⟩
      rw [filter_cons_of_pos (by simpa using hleaves)]
      cases havailable : boundary.available with
      | nil =>
        have hstep : boundaryStep leaving boundary candidate =
            { boundary with remaining := boundary.remaining ++ [candidate] } := by
          rw [boundaryStep, if_neg hnew, havailable]
          exact if_pos (by omega)
        rw [hstep]
        have hroom :
            (boundary.remaining ++ [candidate]).length + rest.length ≤ waitingCapacity := by
          rw [length_append, length_singleton]
          omega
        obtain ⟨hseats, hremaining⟩ := @ih { boundary with
          remaining := boundary.remaining ++ [candidate] } players.2 devices.2 hrest hroom
        rw [hseats, hremaining, havailable]
        simp
      | cons seat available =>
        have hstep : boundaryStep leaving boundary candidate = { boundary with
            seats := boundary.seats.insert seat (candidate.seatedAt seat)
            players := candidate.playerId :: boundary.players
            devices := candidate.devicePublicKey :: boundary.devices
            available := available } := by
          rw [boundaryStep, if_neg hnew, havailable]
        rw [hstep]
        refine ih players.2 devices.2 (fun other hother => ?_)
          (show boundary.remaining.length + rest.length ≤ _ by omega)
        simp only [mem_cons, not_or]
        refine ⟨⟨fun heq => players.1 ?_, (hrest other hother).1⟩,
          fun heq => devices.1 ?_, (hrest other hother).2⟩
        · exact heq ▸ mem_map_of_mem hother
        · exact heq ▸ mem_map_of_mem hother

/-! ### Its result -/

theorem mem_properSeats {seat : PhysicalSeat} :
    seat ∈ properSeats ↔ 1 ≤ seat.value.toNat ∧ seat.value.toNat ≤ tableCapacity := by
  have hlist : properSeats = [⟨1⟩, ⟨2⟩, ⟨3⟩, ⟨4⟩, ⟨5⟩, ⟨6⟩] := rfl
  obtain ⟨value⟩ := seat
  rw [hlist]
  simp only [mem_cons, not_mem_nil, or_false, PhysicalSeat.mk.injEq, ← UInt8.toNat_inj]
  show _ ↔ 1 ≤ value.toNat ∧ value.toNat ≤ 6
  simp
  omega

theorem properSeats_sorted : properSeats.Pairwise (· < ·) := by decide

theorem KeysMatch.contains_iff (keys : KeysMatch seats) (seat : PhysicalSeat) :
    seats.contains seat = true ↔ seat ∈ (values seats).map TableMember.physicalSeat := by
  rw [Std.TreeMap.contains_iff_mem, Std.TreeMap.mem_iff_isSome_getElem?, Option.isSome_iff_exists,
    mem_map]
  constructor
  · rintro ⟨member, hmember⟩
    exact ⟨member, mem_values.mpr ⟨seat, hmember⟩, keys seat member hmember⟩
  · rintro ⟨member, hmember, rfl⟩
    obtain ⟨key, hkey⟩ := mem_values.mp hmember
    rw [keys key member hkey]
    exact ⟨member, hkey⟩

/-- There are no more members than proper seats. -/
theorem KeysMatch.length_le (keys : KeysMatch seats)
    (proper : ∀ member : TableMember, member ∈ values seats → member.physicalSeat ∈ properSeats) :
    (values seats).length ≤ tableCapacity := by
  have hnodup : ((values seats).map TableMember.physicalSeat).Nodup := by
    rw [nodup_iff_pairwise_ne, pairwise_map]
    exact keys.sorted.imp ne_of_lt
  have hsubset : (values seats).map TableMember.physicalSeat ⊆ properSeats := by
    intro seat hseat
    obtain ⟨member, hmember, rfl⟩ := mem_map.mp hseat
    exact proper member hmember
  have hlength := (hnodup.subperm hsubset).length_le
  rwa [length_map] at hlength

section

variable {membership : TableMembership} (leaving : Finset PlayerId)

/-- Who keeps a seat is found on it in the map the loop begins with. -/
theorem values_boundaryStart :
    values (membership.boundaryStart leaving).seats = membership.keeping leaving :=
  values_filter

theorem keysMatch_boundaryStart (keys : KeysMatch membership.seats) :
    KeysMatch (membership.boundaryStart leaving).seats := by
  intro seat member hmember
  have hentry := Std.TreeMap.mem_toList_iff_getElem?_eq_some.mpr hmember
  unfold boundaryStart at hentry
  rw [Std.TreeMap.toList_filter] at hentry
  exact keys seat member (Std.TreeMap.mem_toList_iff_getElem?_eq_some.mp (mem_of_mem_filter hentry))

theorem available_boundaryStart (keys : KeysMatch membership.seats) :
    (membership.boundaryStart leaving).available = membership.freeSeats leaving := by
  refine filter_congr fun seat _ => ?_
  have hiff := (keysMatch_boundaryStart leaving keys).contains_iff seat
  rw [values_boundaryStart] at hiff
  exact decide_eq_decide.mpr (not_congr hiff)

variable {leaving}

/-- The candidates are the promoted members and those who go on waiting. -/
theorem map_promoted {κ : Type} {key : TableMember → κ} {key' : JoinCandidate → κ}
    (same : ∀ (candidate : JoinCandidate) seat, key (candidate.seatedAt seat) = key' candidate) :
    (membership.promoted leaving).map key ++
        ((membership.staying leaving).drop (membership.freeSeats leaving).length).map key'
      = (membership.staying leaving).map key' := by
  have hpromoted : (membership.promoted leaving).map key =
      ((membership.staying leaving).take (membership.freeSeats leaving).length).map key' := by
    rw [← map_snd_zip_eq_take, promoted, map_map, map_map]
    exact map_congr_left fun entry _ => same entry.2 entry.1
  rw [hpromoted, ← map_append, take_append_drop]

theorem mem_promoted {member : TableMember} : member ∈ membership.promoted leaving ↔
    ∃ entry ∈ (membership.freeSeats leaving).zip (membership.staying leaving),
      entry.2.seatedAt entry.1 = member :=
  mem_map

theorem seat_of_promoted {member : TableMember} (h : member ∈ membership.promoted leaving) :
    member.physicalSeat ∈ membership.freeSeats leaving := by
  obtain ⟨entry, hentry, rfl⟩ := mem_promoted.mp h
  exact (of_mem_zip hentry).1

variable (leaving)

/-- A key that no two people at the table share is not shared after the hand. -/
theorem nodup_reconciled {κ : Type} {key : TableMember → κ} {key' : JoinCandidate → κ}
    (same : ∀ (candidate : JoinCandidate) seat, key (candidate.seatedAt seat) = key' candidate)
    (distinct : (membership.members.map key ++ membership.waiting.map key').Nodup) :
    ((membership.keeping leaving ++ membership.promoted leaving).map key ++
      ((membership.staying leaving).drop
        (membership.freeSeats leaving).length).map key').Nodup := by
  rw [map_append, append_assoc, map_promoted same]
  exact distinct.sublist ((filter_sublist.map key).append (filter_sublist.map key'))

/-- The seats after the loop. -/
theorem boundary_seats (valid : validate membership = .ok ()) :
    KeysMatch (membership.waiting.foldl (boundaryStep leaving)
        (membership.boundaryStart leaving)).seats ∧
      (values (membership.waiting.foldl (boundaryStep leaving)
        (membership.boundaryStart leaving)).seats).Perm
          (membership.keeping leaving ++ membership.promoted leaving) ∧
      (membership.waiting.foldl (boundaryStep leaving)
        (membership.boundaryStart leaving)).remaining =
          (membership.staying leaving).drop (membership.freeSeats leaving).length := by
  obtain ⟨-, hroom, hkeys, hplayers, hdevices⟩ := validate_iff.mp valid
  have hplayers := nodup_append'.mp hplayers
  have hdevices := nodup_append'.mp hdevices
  have hfresh : ∀ candidate ∈ membership.waiting,
      candidate.playerId ∉ (membership.boundaryStart leaving).players ∧
        candidate.devicePublicKey ∉ (membership.boundaryStart leaving).devices := by
    intro candidate hcandidate
    have hplayersStart : (membership.boundaryStart leaving).players =
        (membership.keeping leaving).map TableMember.playerId :=
      congrArg (map _) (values_boundaryStart leaving)
    have hdevicesStart : (membership.boundaryStart leaving).devices =
        (membership.keeping leaving).map TableMember.devicePublicKey :=
      congrArg (map _) (values_boundaryStart leaving)
    rw [hplayersStart, hdevicesStart]
    constructor
    · intro hin
      exact hplayers.2.2 ((filter_sublist.map _).subset hin) (mem_map_of_mem hcandidate)
    · intro hin
      exact hdevices.2.2 ((filter_sublist.map _).subset hin) (mem_map_of_mem hcandidate)
  obtain ⟨hseats, hremaining⟩ := foldl_boundaryStep leaving hplayers.2.1 hdevices.2.1
    hfresh (show 0 + _ ≤ _ by rwa [Nat.zero_add])
  rw [available_boundaryStart leaving hkeys] at hseats hremaining
  change _ = ((membership.freeSeats leaving).zip (membership.staying leaving)).foldl _ _ at hseats
  have hdistinct : (((membership.freeSeats leaving).zip (membership.staying leaving)).map
      Prod.fst).Nodup := by
    rw [map_fst_zip_eq_take]
    have hsorted : (membership.freeSeats leaving).Pairwise (· < ·) := properSeats_sorted.filter _
    exact (hsorted.imp ne_of_lt).sublist (take_sublist _ _)
  have hstart := keysMatch_boundaryStart leaving hkeys
  have hnew : ∀ entry ∈ (membership.freeSeats leaving).zip (membership.staying leaving),
      entry.1 ∉ (membership.boundaryStart leaving).seats := by
    intro entry hentry hin
    have hfree := (mem_filter.mp (of_mem_zip hentry).1).2
    rw [← Std.TreeMap.contains_iff_mem, hstart.contains_iff, values_boundaryStart] at hin
    exact of_decide_eq_true hfree hin
  refine ⟨?_, ?_, hremaining⟩
  · intro seat member hmember
    rw [hseats, getElem?_foldl_insert hdistinct] at hmember
    cases hfind : ((membership.freeSeats leaving).zip (membership.staying leaving)).find?
        (·.1 = seat) with
    | none =>
      rw [hfind] at hmember
      exact hstart seat member hmember
    | some entry =>
      rw [hfind] at hmember
      obtain rfl := Option.some.inj hmember
      show entry.1 = seat
      simpa using find?_some hfind
  · rw [hseats, ← values_boundaryStart]
    exact values_foldl_insert_perm hdistinct hnew

variable {leaving} {next : TableMembership}

/-- The members after a hand are those who keep a seat and the promoted candidates, if the
table is large enough for them. -/
theorem reconcileAtHandBoundary_of_few (valid : validate membership = .ok ())
    (byClaim : membership.waiting.Pairwise fun a b => a.claimId ≤ b.claimId)
    (notLast : membership.version.toNat + 1 < 2 ^ 64)
    (few : (membership.keeping leaving ++ membership.promoted leaving).length ≤ tableCapacity) :
    ∃ next, membership.reconcileAtHandBoundary leaving = .ok next ∧
      next.tableId = membership.tableId ∧ next.version = membership.version + 1 ∧
      (next.members.Pairwise fun a b => a.physicalSeat < b.physicalSeat) ∧
      next.members.Perm (membership.keeping leaving ++ membership.promoted leaving) ∧
      next.waiting = (membership.staying leaving).drop (membership.freeSeats leaving).length := by
  obtain ⟨-, hroom, -, hplayers, hdevices⟩ := validate_iff.mp valid
  obtain ⟨hkeys, hperm, hremaining⟩ := boundary_seats leaving valid
  generalize hdone : membership.waiting.foldl (boundaryStep leaving)
    (membership.boundaryStart leaving) = done at hkeys hperm hremaining
  have hdrop : done.remaining.length ≤ waitingCapacity := by
    rw [hremaining, length_drop]
    exact (Nat.sub_le _ _).trans ((length_filter_le _ _).trans hroom)
  have hdistinct := nodup_reconciled leaving (fun _ _ => rfl) hplayers
  have hdistinct' := nodup_reconciled leaving (fun _ _ => rfl) hdevices
  rw [← hremaining] at hdistinct hdistinct'
  obtain ⟨next, hnext, htable, hversion, hmembers, hwaiting⟩ :=
    new_of_sorted membership.tableId (membership.version + 1) hkeys.sorted
      (hperm.length_eq.trans_le few) hdrop
      (((hperm.map _).append_right _).nodup_iff.mpr hdistinct)
      (((hperm.map _).append_right _).nodup_iff.mpr hdistinct')
  refine ⟨next, ?_, htable, hversion, ?_, ?_, ?_⟩
  · unfold reconcileAtHandBoundary
    rw [hdone, okOr_bind_eq_ok]
    exact ⟨_, if_pos notLast, hnext⟩
  · rw [hmembers]
    exact hkeys.sorted
  · rw [hmembers]
    exact hperm
  · have hstaying : (membership.staying leaving).Pairwise fun a b => a.claimId ≤ b.claimId :=
      byClaim.filter _
    rw [hwaiting, hremaining]
    exact (hstaying.sublist (drop_sublist _ _)).insertionSort_eq

/-- It has to be: the result is checked. -/
theorem few_of_reconcileAtHandBoundary (valid : validate membership = .ok ())
    (reconciled : membership.reconcileAtHandBoundary leaving = .ok next) :
    membership.version.toNat + 1 < 2 ^ 64 ∧
      (membership.keeping leaving ++ membership.promoted leaving).length ≤ tableCapacity := by
  obtain ⟨hkeys, hperm, -⟩ := boundary_seats leaving valid
  unfold reconcileAtHandBoundary at reconciled
  obtain ⟨version, hversion, hnew⟩ := okOr_bind_eq_ok.mp reconciled
  constructor
  · unfold checkedAdd at hversion
    split at hversion
    · rename_i hlt
      exact hlt
    · cases hversion
  · obtain ⟨-, -, hmembers, hvalid⟩ := members_of_new hnew hkeys.sorted
    have hfew := (validate_iff.mp hvalid).1
    rw [hmembers] at hfew
    exact hperm.length_eq.symm.trans_le hfew

end

/-- At the end of a hand a membership is reconciled. -/
theorem reconcileAtHandBoundary_reconciles {tableId : TableId} {version : UInt64}
    {members : List TableMember} {waiting : List JoinCandidate} {membership : TableMembership}
    (built : new tableId version members waiting = .ok membership)
    (proper : ∀ member ∈ membership.members, 1 ≤ member.physicalSeat.value.toNat ∧
      member.physicalSeat.value.toNat ≤ tableCapacity)
    (notLast : version.toNat < 2 ^ 64 - 1) (leaving : Finset PlayerId) :
    ∃ next, membership.reconcileAtHandBoundary leaving = .ok next ∧
      Reconciled membership leaving next := by
  obtain ⟨rfl, hqueue, hvalid⟩ := fields_of_new built
  have hclaims : membership.waiting.Pairwise fun a b => a.claimId ≤ b.claimId := by
    rw [hqueue]
    exact pairwise_insertionSort (fun a b : JoinCandidate => a.claimId ≤ b.claimId) waiting
  obtain ⟨-, -, -, hplayers, -⟩ := validate_iff.mp hvalid
  obtain ⟨hkeys, hboundary, -⟩ := boundary_seats leaving hvalid
  have hlast : membership.version.toNat + 1 < 2 ^ 64 := by omega
  -- everybody sits on one of the six seats
  have hfew : (membership.keeping leaving ++ membership.promoted leaving).length ≤
      tableCapacity := by
    rw [← hboundary.length_eq]
    refine hkeys.length_le fun member hmember => ?_
    rcases mem_append.mp (hboundary.mem_iff.mp hmember) with hkept | hpromoted
    · exact mem_properSeats.mpr (proper member (mem_of_mem_filter hkept))
    · exact mem_of_mem_filter (seat_of_promoted hpromoted)
  obtain ⟨next, hnext, htable, hversion, -, hperm, hwaiting⟩ :=
    reconcileAtHandBoundary_of_few hvalid hclaims hlast hfew
  -- the players after the hand are those who keep a seat and those who wanted one
  have hall : next.players.Perm ((membership.keeping leaving).map TableMember.playerId ++
      (membership.staying leaving).map playerId) := by
    unfold players
    rw [hwaiting]
    refine ((hperm.map _).append_right _).trans ?_
    rw [map_append, append_assoc, map_promoted fun _ _ => rfl]
  have hbefore : ((membership.keeping leaving).map TableMember.playerId ++
      (membership.staying leaving).map playerId).Sublist membership.players :=
    (filter_sublist.map _).append (filter_sublist.map _)
  refine ⟨next, hnext, ?_⟩
  constructor
  · exact htable
  · rw [hversion, UInt64.toNat_add]
    exact Nat.mod_eq_of_lt hlast
  · intro member hmember hstays
    refine hperm.mem_iff.mpr (mem_append_left _ (mem_filter.mpr ⟨hmember, ?_⟩))
    exact decide_eq_true hstays
  · intro player hplayer hin
    rcases mem_append.mp (hall.mem_iff.mp hin) with hin | hin
    · obtain ⟨member, hmember, rfl⟩ := mem_map.mp hin
      exact of_decide_eq_true (mem_filter.mp hmember).2 hplayer
    · obtain ⟨candidate, hcandidate, rfl⟩ := mem_map.mp hin
      exact of_decide_eq_true (mem_filter.mp hcandidate).2 hplayer
  · intro player hplayer hstays
    refine count_eq_one_of_mem (hall.nodup_iff.mpr (hplayers.sublist hbefore)) ?_
    rw [hall.mem_iff, mem_append]
    rcases mem_append.mp hplayer with hin | hin
    · obtain ⟨member, hmember, rfl⟩ := mem_map.mp hin
      exact .inl (mem_map_of_mem (mem_filter.mpr ⟨hmember, decide_eq_true hstays⟩))
    · obtain ⟨candidate, hcandidate, rfl⟩ := mem_map.mp hin
      exact .inr (mem_map_of_mem (mem_filter.mpr ⟨hcandidate, decide_eq_true hstays⟩))
  · exact fun player hplayer => hbefore.subset (hall.mem_iff.mp hplayer)
  · exact hclaims.filter _
  · exact properSeats_sorted.filter _
  · intro entry hentry
    exact hperm.mem_iff.mpr (mem_append_right _ (mem_promoted.mpr ⟨entry, hentry, rfl⟩))
  · exact hwaiting
  · intro seat hseat hfree
    rw [hwaiting, drop_eq_nil_iff]
    by_contra hlong
    -- otherwise every free seat has been given away
    have hgiven : seat ∈ ((membership.freeSeats leaving).zip (membership.staying leaving)).map
        Prod.fst := by
      rw [map_fst_zip_eq_take, take_of_length_le (by omega)]
      refine mem_filter.mpr ⟨hseat, decide_eq_true fun hkept => hfree ?_⟩
      obtain ⟨member, hmember, rfl⟩ := mem_map.mp hkept
      exact mem_map_of_mem (hperm.mem_iff.mpr (mem_append_left _ hmember))
    obtain ⟨entry, hentry, rfl⟩ := mem_map.mp hgiven
    refine hfree (mem_map.mpr ⟨entry.2.seatedAt entry.1, ?_, rfl⟩)
    exact hperm.mem_iff.mpr (mem_append_right _ (mem_promoted.mpr ⟨entry, hentry, rfl⟩))

/-- The member on the first seat leaves, and the first of two candidates takes it. -/
theorem reconcileAtHandBoundary_frees_seat :
    ∃ membership, new (ofNat 1) 1
        [⟨ofNat 1, ofNat 1, chips 40, ⟨1⟩⟩,
          ⟨ofNat 2, ofNat 2, chips 40, ⟨4⟩⟩]
        [⟨ofNat 8, ofNat 3, ofNat 3, chips 40⟩,
          ⟨ofNat 7, ofNat 4, ofNat 4, chips 40⟩] = .ok membership ∧
      ∃ next, membership.reconcileAtHandBoundary {ofNat 1} = .ok next ∧
        Reconciled membership {ofNat 1} next := by
  have hbuilt : ∃ membership, new (ofNat 1) 1
        [⟨ofNat 1, ofNat 1, chips 40, ⟨1⟩⟩,
          ⟨ofNat 2, ofNat 2, chips 40, ⟨4⟩⟩]
        [⟨ofNat 8, ofNat 3, ofNat 3, chips 40⟩,
          ⟨ofNat 7, ofNat 4, ofNat 4, chips 40⟩] = .ok membership ∧
      ∀ member ∈ membership.members, 1 ≤ member.physicalSeat.value.toNat ∧
        member.physicalSeat.value.toNat ≤ tableCapacity := by
    decide +kernel
  obtain ⟨membership, hbuilt, hproper⟩ := hbuilt
  exact ⟨membership, hbuilt, reconcileAtHandBoundary_reconciles hbuilt hproper (by decide) _⟩

end TableMembership

end TokenHoldem
