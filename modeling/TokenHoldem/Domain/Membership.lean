import TokenHoldem.Library.Checked
import TokenHoldem.Library.Collections
import TokenHoldem.Primitives

/-!
# Table membership

`token-holdem-domain/src/membership.rs`: who sits where at a table and who waits
for a seat.
-/

namespace TokenHoldem

open Library List

def tableCapacity : Nat := 6

def waitingCapacity : Nat := 6

/-- A seat number. `PhysicalSeat::new` admits 1 to 6 only, but a seat decoded
from the wire is not checked. -/
structure PhysicalSeat where
  value : UInt8

namespace PhysicalSeat

theorem toNat_injective : Function.Injective fun seat : PhysicalSeat => seat.value.toNat := by
  rintro ⟨a⟩ ⟨b⟩ h
  exact congrArg _ (UInt8.toNat_inj.mp h)

instance instLinearOrder : LinearOrder PhysicalSeat :=
  LinearOrder.lift' (fun seat : PhysicalSeat => seat.value.toNat) toNat_injective

instance instDecidableEq : DecidableEq PhysicalSeat := instLinearOrder.toDecidableEq

end PhysicalSeat

inductive MembershipError where
  | invalidPhysicalSeat (value : UInt8)
  | tooManyMembers
  | waitingListFull
  | duplicatePhysicalSeat
  | duplicatePlayer
  | duplicateDevice
  | seatKeyMismatch
  | versionOverflow
deriving DecidableEq

def PhysicalSeat.new (value : UInt8) : Except MembershipError PhysicalSeat :=
  if 1 ≤ value.toNat ∧ value.toNat ≤ tableCapacity then .ok ⟨value⟩
  else .error (.invalidPhysicalSeat value)

structure TableMember where
  playerId : PlayerId
  devicePublicKey : DevicePublicKey
  buyIn : Chips
  physicalSeat : PhysicalSeat

structure JoinCandidate where
  claimId : JoinClaimId
  playerId : PlayerId
  devicePublicKey : DevicePublicKey
  buyIn : Chips
deriving DecidableEq

structure TableMembership where
  tableId : TableId
  version : UInt64
  seats : Std.TreeMap PhysicalSeat TableMember
  waiting : List JoinCandidate

namespace TableMembership

/-- `membership.members()`, in the order of the seats. -/
def members (membership : TableMembership) : List TableMember := values membership.seats

/-- The players and devices met so far by the loops of `validate`. -/
abbrev Seen := List PlayerId × List DevicePublicKey

/-- One round of a loop of `validate`: a player and a device that are both new. -/
def checkFresh (seen : Seen) (player : PlayerId) (device : DevicePublicKey) :
    Except MembershipError Seen := do
  ensure (player ∉ seen.1) .duplicatePlayer
  ensure (device ∉ seen.2) .duplicateDevice
  return (player :: seen.1, device :: seen.2)

def validate (membership : TableMembership) : Except MembershipError Unit := do
  ensure (membership.seats.size ≤ tableCapacity) .tooManyMembers
  ensure (membership.waiting.length ≤ waitingCapacity) .waitingListFull
  let seated ← membership.seats.toList.foldlM (fun seen entry => do
    ensure (entry.2.physicalSeat = entry.1) MembershipError.seatKeyMismatch
    checkFresh seen entry.2.playerId entry.2.devicePublicKey) (([], []) : Seen)
  let _ ← membership.waiting.foldlM
    (fun seen candidate => checkFresh seen candidate.playerId candidate.devicePublicKey) seated
  return ()

/-- The seats of the members, each of which may be taken once. -/
def seatMembers (members : List TableMember) :
    Except MembershipError (Std.TreeMap PhysicalSeat TableMember) :=
  members.foldlM (fun seats member => do
    ensure (¬ seats.contains member.physicalSeat) MembershipError.duplicatePhysicalSeat
    return seats.insert member.physicalSeat member) ∅

def new (tableId : TableId) (version : UInt64) (members : List TableMember)
    (waiting : List JoinCandidate) : Except MembershipError TableMembership := do
  let seats ← seatMembers members
  let membership : TableMembership :=
    { tableId, version, seats, waiting := sortByKey JoinCandidate.claimId waiting }
  validate membership
  return membership

variable {members : List TableMember} {seats : Std.TreeMap PhysicalSeat TableMember}
  {membership : TableMembership} {waiting : List JoinCandidate}

/-- Every member gets the seat it asks for, which nobody else has asked for. -/
theorem seatMembers_eq_ok (h : seatMembers members = .ok seats) :
    seats = members.foldl (fun seats member => seats.insert member.physicalSeat member) ∅ ∧
      (members.map TableMember.physicalSeat).Nodup := by
  suffices ∀ {start : Std.TreeMap PhysicalSeat TableMember},
      members.foldlM (fun seats member => do
        ensure (¬ seats.contains member.physicalSeat) MembershipError.duplicatePhysicalSeat
        return seats.insert member.physicalSeat member) start = .ok seats →
      seats = members.foldl (fun seats member => seats.insert member.physicalSeat member) start ∧
        (members.map TableMember.physicalSeat).Nodup ∧
        ∀ member ∈ members, member.physicalSeat ∉ start from
    ⟨(this h).1, (this h).2.1⟩
  clear h
  intro start h
  induction members generalizing start with
  | nil =>
    cases h
    simp
  | cons first rest ih =>
    rw [foldlM_cons] at h
    obtain ⟨next, hnext, h⟩ := bind_eq_ok.mp h
    obtain ⟨hfree, hnext⟩ := ensure_bind_eq_ok.mp hnext
    cases hnext
    obtain ⟨hseats, hnodup, hfresh⟩ := ih h
    simp only [Std.TreeMap.mem_insert, not_or] at hfresh
    refine ⟨hseats, ?_, forall_mem_cons.mpr ⟨?_, fun member hmember => (hfresh member hmember).2⟩⟩
    · rw [map_cons, nodup_cons]
      refine ⟨fun hmem => ?_, hnodup⟩
      obtain ⟨member, hmember, heq⟩ := mem_map.mp hmem
      exact (hfresh member hmember).1 (by rw [heq]; exact Std.ReflCmp.compare_self)
    · exact fun hin => hfree (Std.TreeMap.contains_iff_mem.mpr hin)

theorem getElem?_seatMembers (h : seatMembers members = .ok seats) {member : TableMember}
    (hmember : member ∈ members) : seats[member.physicalSeat]? = some member := by
  obtain ⟨rfl, hnodup⟩ := seatMembers_eq_ok h
  have hlookup : (members.foldl (fun seats member => seats.insert member.physicalSeat member)
      (∅ : Std.TreeMap PhysicalSeat TableMember))[member.physicalSeat]? =
        ((members.find? (·.physicalSeat = member.physicalSeat)).map id).or
          (∅ : Std.TreeMap PhysicalSeat TableMember)[member.physicalSeat]? :=
    getElem?_foldl_insert hnodup
  rw [hlookup, find?_key_of_mem hnodup hmember]
  rfl

/-- Members listed in the order of their seats are the members of the map. -/
theorem values_seatMembers (h : seatMembers members = .ok seats)
    (sorted : members.Pairwise fun a b => a.physicalSeat < b.physicalSeat) :
    values seats = members := by
  obtain ⟨rfl, -⟩ := seatMembers_eq_ok h
  have hvalues : values (members.foldl (fun seats member =>
      seats.insert member.physicalSeat member) ∅) = members.map id := values_foldl_insert sorted
  rwa [map_id] at hvalues

/-- The loop of `validate` over the seats meets every player and every device once. -/
theorem nodup_of_checkFresh {entries : List (PhysicalSeat × TableMember)} {seen result : Seen}
    (h : entries.foldlM (fun seen entry => do
      ensure (entry.2.physicalSeat = entry.1) MembershipError.seatKeyMismatch
      checkFresh seen entry.2.playerId entry.2.devicePublicKey) seen = .ok result) :
    (entries.Pairwise fun a b =>
        a.2.playerId ≠ b.2.playerId ∧ a.2.devicePublicKey ≠ b.2.devicePublicKey) ∧
      ∀ entry ∈ entries, entry.2.playerId ∉ seen.1 ∧ entry.2.devicePublicKey ∉ seen.2 := by
  induction entries generalizing seen with
  | nil => simp
  | cons first rest ih =>
    rw [foldlM_cons] at h
    obtain ⟨next, hnext, h⟩ := bind_eq_ok.mp h
    obtain ⟨-, hnext⟩ := ensure_bind_eq_ok.mp hnext
    unfold checkFresh at hnext
    obtain ⟨hplayer, hnext⟩ := ensure_bind_eq_ok.mp hnext
    obtain ⟨hdevice, hnext⟩ := ensure_bind_eq_ok.mp hnext
    cases hnext
    obtain ⟨hpairwise, hfresh⟩ := ih h
    simp only [mem_cons, not_or] at hfresh
    constructor
    · refine pairwise_cons.mpr ⟨fun entry hentry => ?_, hpairwise⟩
      obtain ⟨⟨hplayers, -⟩, hdevices, -⟩ := hfresh entry hentry
      exact ⟨Ne.symm hplayers, Ne.symm hdevices⟩
    · refine forall_mem_cons.mpr ⟨⟨hplayer, hdevice⟩, fun entry hentry => ?_⟩
      exact ⟨(hfresh entry hentry).1.2, (hfresh entry hentry).2.2⟩

/-- A membership seats no player and no device twice, and at most six of them. -/
theorem validate_eq_ok (h : validate membership = .ok ()) :
    (membership.members.map TableMember.playerId).Nodup ∧
      (membership.members.map TableMember.devicePublicKey).Nodup ∧
      membership.members.length ≤ tableCapacity := by
  unfold validate at h
  obtain ⟨hsize, h⟩ := ensure_bind_eq_ok.mp h
  obtain ⟨-, h⟩ := ensure_bind_eq_ok.mp h
  obtain ⟨seen, hseen, -⟩ := bind_eq_ok.mp h
  have hpairwise := (nodup_of_checkFresh hseen).1
  refine ⟨?_, ?_, by rwa [members, length_values]⟩
  · rw [members, values, map_map, nodup_iff_pairwise_ne, pairwise_map]
    exact hpairwise.imp And.left
  · rw [members, values, map_map, nodup_iff_pairwise_ne, pairwise_map]
    exact hpairwise.imp And.right

/-- What `new` returns for members listed in the order of their seats. -/
theorem members_of_new {tableId : TableId} {version : UInt64}
    (h : new tableId version members waiting = .ok membership)
    (sorted : members.Pairwise fun a b => a.physicalSeat < b.physicalSeat) :
    membership.tableId = tableId ∧ membership.version = version ∧
      membership.members = members ∧ validate membership = .ok () := by
  unfold new at h
  obtain ⟨seats, hseats, h⟩ := bind_eq_ok.mp h
  obtain ⟨hvalid, h⟩ := unit_bind_eq_ok.mp h
  cases h
  exact ⟨rfl, rfl, values_seatMembers hseats sorted, hvalid⟩

/-- No player is a member twice. -/
theorem new_eq_ok {tableId : TableId} {version : UInt64}
    (h : new tableId version members waiting = .ok membership) {a b : TableMember}
    (ha : a ∈ members) (hb : b ∈ members) (same : a.playerId = b.playerId) : a = b := by
  unfold new at h
  obtain ⟨seats, hseats, h⟩ := bind_eq_ok.mp h
  obtain ⟨hvalid, -⟩ := unit_bind_eq_ok.mp h
  have hmem : ∀ member ∈ members, member ∈ values seats := fun member hmember =>
    mem_values.mpr ⟨_, getElem?_seatMembers hseats hmember⟩
  exact inj_on_of_nodup_map (validate_eq_ok hvalid).1 (hmem a ha) (hmem b hb) same

end TableMembership

end TokenHoldem
