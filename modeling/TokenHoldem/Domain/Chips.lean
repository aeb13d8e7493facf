import Mathlib.Algebra.Group.Nat.Defs
import Mathlib.Order.Lattice
import Mathlib.Order.Nat

/-!
# Chips

`token-holdem-domain/src/chips.rs`. A chip amount is a `u64`; every sum and
difference the betting code forms goes through a checked operation, so an
amount that does not fit is an explicit `none` and never a wrapped number.
Results of whole settlements are signed (`i128` in the source, which holds
every difference of two `u64` values) and are plain integers here.
-/

namespace TokenHoldem

/-- A chip amount: a number together with the proof that it fits a `u64`. -/
structure Chips where
  value : Nat
  lt : value < 2 ^ 64

namespace Chips

variable {a b : Chips}

@[ext] theorem ext (h : a.value = b.value) : a = b := by
  cases a; cases b; simp_all

theorem value_injective : Function.Injective Chips.value := fun _ _ => Chips.ext

instance : LinearOrder Chips := LinearOrder.lift' Chips.value value_injective

theorem le_iff_value : a ≤ b ↔ a.value ≤ b.value := Iff.rfl

def zero : Chips := ⟨0, by decide⟩

/-- The single chip handed out for an odd remainder. -/
def one : Chips := ⟨1, by decide⟩

@[simp] theorem zero_value : zero.value = 0 := rfl
@[simp] theorem one_value : one.value = 1 := rfl

instance : Inhabited Chips := ⟨zero⟩

def checkedAdd (a b : Chips) : Option Chips :=
  if h : a.value + b.value < 2 ^ 64 then some ⟨a.value + b.value, h⟩ else none

def checkedSub (a b : Chips) : Option Chips :=
  if b.value ≤ a.value then some ⟨a.value - b.value, by have := a.lt; omega⟩ else none

/-- `u64::checked_mul` on an amount and a head count. -/
def checkedMul (a : Chips) (k : Nat) : Option Chips :=
  if h : a.value * k < 2 ^ 64 then some ⟨a.value * k, h⟩ else none

/-- `u64::saturating_sub`. -/
def saturatingSub (a b : Chips) : Chips :=
  ⟨a.value - b.value, by have := a.lt; omega⟩

/-- `u64::min`. -/
def least (a b : Chips) : Chips :=
  ⟨min a.value b.value, by have := a.lt; omega⟩

/-- `u64` division by a head count. -/
def div (a : Chips) (k : Nat) : Chips :=
  ⟨a.value / k, lt_of_le_of_lt (Nat.div_le_self _ _) a.lt⟩

@[simp] theorem saturatingSub_value (a b : Chips) :
    (a.saturatingSub b).value = a.value - b.value := rfl

@[simp] theorem least_value (a b : Chips) : (a.least b).value = min a.value b.value := rfl

@[simp] theorem div_value (a : Chips) (k : Nat) : (a.div k).value = a.value / k := rfl

theorem checkedAdd_eq_some {c : Chips} : a.checkedAdd b = some c ↔ c.value = a.value + b.value := by
  unfold checkedAdd
  split
  · simp only [Option.some.injEq, Chips.ext_iff]
    exact eq_comm
  · have := c.lt
    simp only [reduceCtorEq, false_iff]
    omega

theorem checkedAdd_eq_none : a.checkedAdd b = none ↔ 2 ^ 64 ≤ a.value + b.value := by
  unfold checkedAdd
  split <;> simp <;> omega

theorem checkedSub_eq_some {c : Chips} : a.checkedSub b = some c ↔ c.value + b.value = a.value := by
  unfold checkedSub
  split
  · simp only [Option.some.injEq, Chips.ext_iff]
    omega
  · simp only [reduceCtorEq, false_iff]
    omega

theorem checkedMul_eq_some {c : Chips} {k : Nat} :
    a.checkedMul k = some c ↔ c.value = a.value * k := by
  unfold checkedMul
  split
  · simp only [Option.some.injEq, Chips.ext_iff]
    exact eq_comm
  · have := c.lt
    simp only [reduceCtorEq, false_iff]
    omega

theorem checkedMul_eq_none {k : Nat} : a.checkedMul k = none ↔ 2 ^ 64 ≤ a.value * k := by
  unfold checkedMul
  split <;> simp <;> omega

end Chips

end TokenHoldem
