import TokenHoldem.Domain.Chips

/-!
# Stake levels

`token-holdem-domain/src/table.rs`. A `StakeLevel` is a plain record, because a
level that arrives over the wire is decoded field by field; `StakeLevel.new` is
the checked constructor, and `BuiltLevel` is the type of its results.
-/

namespace TokenHoldem

structure StakeLevel where
  id : String
  smallBlind : Chips
  bigBlind : Chips
  minimumBuyIn : Chips
  maximumBuyIn : Chips
  minimumPlayers : UInt8
  maximumPlayers : UInt8
deriving DecidableEq

inductive StakeLevelError where
  | emptyId
  | invalidBlinds
  | invalidBuyInRange
  | invalidPlayerRange
deriving DecidableEq, Repr

/-- `char::is_whitespace`: the Unicode `White_Space` property. -/
def isWhitespace (c : Char) : Bool :=
  let n := c.toNat
  (0x9 ≤ n && n ≤ 0xD) || n == 0x20 || n == 0x85 || n == 0xA0 || n == 0x1680 ||
    (0x2000 ≤ n && n ≤ 0x200A) || n == 0x2028 || n == 0x2029 || n == 0x202F ||
    n == 0x205F || n == 0x3000

/-- `text.trim().is_empty()`: nothing is left once white space is cut off. -/
def isBlank (text : String) : Bool := text.toList.all isWhitespace

namespace StakeLevel

/-- `StakeLevel::new`, with its checks in the order the source makes them. -/
def new (id : String) (smallBlind bigBlind minimumBuyIn maximumBuyIn : Chips)
    (minimumPlayers maximumPlayers : UInt8) : Except StakeLevelError StakeLevel :=
  if isBlank id then .error .emptyId
  else if smallBlind = Chips.zero ∨ bigBlind.value ≤ smallBlind.value then .error .invalidBlinds
  else if minimumBuyIn.value < bigBlind.value ∨ maximumBuyIn.value < minimumBuyIn.value then
    .error .invalidBuyInRange
  else if ¬(2 ≤ minimumPlayers.toNat ∧ minimumPlayers.toNat ≤ 9) ∨
      ¬(minimumPlayers.toNat ≤ maximumPlayers.toNat ∧ maximumPlayers.toNat ≤ 9) then
    .error .invalidPlayerRange
  else
    .ok { id, smallBlind, bigBlind, minimumBuyIn, maximumBuyIn, minimumPlayers, maximumPlayers }

end StakeLevel

/-- A level that `StakeLevel::new` returns: the record with the facts its checks
establish. -/
structure BuiltLevel extends StakeLevel where
  id_nonblank : isBlank id = false
  smallBlind_pos : 0 < smallBlind.value
  smallBlind_lt : smallBlind.value < bigBlind.value
  bigBlind_le : bigBlind.value ≤ minimumBuyIn.value
  buyIn_le : minimumBuyIn.value ≤ maximumBuyIn.value
  two_le_players : 2 ≤ minimumPlayers.toNat
  players_le : minimumPlayers.toNat ≤ maximumPlayers.toNat
  players_le_nine : maximumPlayers.toNat ≤ 9

namespace BuiltLevel

instance instCoeStakeLevel : Coe BuiltLevel StakeLevel := ⟨toStakeLevel⟩

/-- `StakeLevel::new` returns exactly the built levels: it accepts the fields of
every one of them, -/
theorem new_eq_ok (level : BuiltLevel) :
    StakeLevel.new level.id level.smallBlind level.bigBlind level.minimumBuyIn
      level.maximumBuyIn level.minimumPlayers level.maximumPlayers = .ok level.toStakeLevel := by
  have h1 := level.id_nonblank
  have h2 : level.smallBlind ≠ Chips.zero := fun h => by
    have := level.smallBlind_pos
    simp [h] at this
  have h3 := level.smallBlind_lt
  have h4 := level.bigBlind_le
  have h5 := level.buyIn_le
  have h6 := level.two_le_players
  have h7 := level.players_le
  have h8 := level.players_le_nine
  unfold StakeLevel.new
  rw [if_neg (by simp [h1]), if_neg (by simp [h2]; omega), if_neg (by omega),
    if_neg (by omega)]

/-- and what it returns satisfies every condition. -/
theorem exists_of_new_eq_ok {id : String} {sb bb lo hi : Chips} {m n : UInt8} {level : StakeLevel}
    (h : StakeLevel.new id sb bb lo hi m n = .ok level) :
    ∃ built : BuiltLevel, built.toStakeLevel = level := by
  unfold StakeLevel.new at h
  split_ifs at h with h1 h2 h3 h4
  cases h
  have hsb : 0 < sb.value := by
    rcases Nat.eq_zero_or_pos sb.value with h0 | h0
    · exact absurd (.inl (Chips.ext h0)) h2
    · exact h0
  exact ⟨{ id, smallBlind := sb, bigBlind := bb, minimumBuyIn := lo, maximumBuyIn := hi,
           minimumPlayers := m, maximumPlayers := n, id_nonblank := by simpa using h1,
           smallBlind_pos := hsb, smallBlind_lt := by omega, bigBlind_le := by omega,
           buyIn_le := by omega, two_le_players := by omega, players_le := by omega,
           players_le_nine := by omega }, rfl⟩

end BuiltLevel

/-- `k` chips, for an amount that fits. -/
def chips (k : Nat) : Chips := ⟨k % 2 ^ 64, Nat.mod_lt _ (by decide)⟩

/-- The level of the source's unit tests: blinds 1 and 2, buy-ins 40 to 200. -/
def oneTwoLevel : BuiltLevel where
  id := "1-2"
  smallBlind := chips 1
  bigBlind := chips 2
  minimumBuyIn := chips 40
  maximumBuyIn := chips 200
  minimumPlayers := 2
  maximumPlayers := 6
  id_nonblank := by decide
  smallBlind_pos := by decide
  smallBlind_lt := by decide
  bigBlind_le := by decide
  buyIn_le := by decide
  two_le_players := by decide
  players_le := by decide
  players_le_nine := by decide

end TokenHoldem
