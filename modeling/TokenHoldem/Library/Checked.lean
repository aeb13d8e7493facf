import Mathlib.Data.List.Forall2
import Mathlib.Logic.Basic

/-!
# Computations that may fail

Validation code is a sequence of checks that stops at the first one that does
not hold. `Except` with `do` models it; the lemmas here say when such a
sequence succeeds, so that the facts a successful validation establishes are
read off one check at a time.

- `ensure_bind_eq_ok`, `bind_eq_ok`: peel the first check off;
- `checkAll_eq_ok`, `isOk_mapM`: a loop of checks succeeds iff each of them does.
-/

namespace TokenHoldem.Library

variable {ε ε' α β : Type}

/-- `if !condition { return Err(error) }`. -/
def ensure (condition : Prop) [Decidable condition] (error : ε) : Except ε Unit :=
  if condition then .ok () else .error error

/-- `option.ok_or(error)?`. -/
def okOr (error : ε) : Option α → Except ε α
  | some a => .ok a
  | none => .error error

variable {e : ε} {o : Option α} {x : Except ε α} {f : α → Except ε β} {rename : ε → ε'}
  {items : List α}

@[simp] theorem ensure_eq_ok {c : Prop} [Decidable c] {u : Unit} : ensure c e = .ok u ↔ c := by
  unfold ensure
  split <;> simp_all

@[simp] theorem okOr_eq_ok {a : α} : okOr e o = .ok a ↔ o = some a := by
  cases o <;> simp [okOr]

/-- A bind succeeds exactly when both of its parts do. -/
theorem bind_eq_ok {b : β} : (x >>= f) = .ok b ↔ ∃ a, x = .ok a ∧ f a = .ok b := by
  cases x with
  | ok a => simp [bind, Except.bind]
  | error e => simp [bind, Except.bind]

/-- A check lets the computation go on exactly when its condition holds. -/
theorem ensure_bind_eq_ok {c : Prop} [Decidable c] {f : Unit → Except ε β} {b : β} :
    (ensure c e >>= f) = .ok b ↔ c ∧ f () = .ok b := by
  constructor
  · intro h
    obtain ⟨_, hc, hf⟩ := bind_eq_ok.mp h
    exact ⟨ensure_eq_ok.mp hc, hf⟩
  · rintro ⟨hc, hf⟩
    exact bind_eq_ok.mpr ⟨(), ensure_eq_ok.mpr hc, hf⟩

/-- A check that returns nothing, followed by the rest. -/
theorem unit_bind_eq_ok {x : Except ε Unit} {f : Unit → Except ε β} {b : β} :
    (x >>= f) = .ok b ↔ x = .ok () ∧ f () = .ok b := by
  constructor
  · intro h
    obtain ⟨_, hx, hf⟩ := bind_eq_ok.mp h
    exact ⟨hx, hf⟩
  · rintro ⟨hx, hf⟩
    exact bind_eq_ok.mpr ⟨(), hx, hf⟩

theorem okOr_bind_eq_ok {b : β} : (okOr e o >>= f) = .ok b ↔ ∃ a, o = some a ∧ f a = .ok b := by
  simp [bind_eq_ok]

/-- Renaming an error never turns a failure into a success. -/
@[simp] theorem mapError_eq_ok_iff {a : α} : x.mapError rename = .ok a ↔ x = .ok a := by
  rcases x with e | a'
  · constructor <;> nofun
  · exact Except.ok.injEq a' a ▸ Except.ok.injEq a' a ▸ Iff.rfl

/-- A bind fails in its first part or, after that succeeded, in its second. -/
theorem bind_eq_error : (x >>= f) = .error e ↔ x = .error e ∨ ∃ a, x = .ok a ∧ f a = .error e := by
  cases x with
  | ok a => simp [bind, Except.bind]
  | error e => simp [bind, Except.bind]

@[simp] theorem okOr_eq_error {e' : ε} : okOr e o = .error e' ↔ o = none ∧ e = e' := by
  cases o <;> simp [okOr]

@[simp] theorem ensure_eq_error {c : Prop} [Decidable c] {e' : ε} :
    ensure c e = .error e' ↔ ¬ c ∧ e = e' := by
  unfold ensure
  split <;> simp_all

@[simp] theorem mapError_eq_error {e' : ε'} :
    x.mapError rename = .error e' ↔ ∃ e, x = .error e ∧ rename e = e' := by
  rcases x with e | a
  · constructor
    · intro h
      exact ⟨e, rfl, Except.error.inj h⟩
    · rintro ⟨_, heq, rfl⟩
      cases heq
      rfl
  · constructor <;> nofun

/-- `result.is_ok()`. -/
def isOk : Except ε α → Bool
  | .ok _ => true
  | .error _ => false

@[simp] theorem isOk_eq_true : isOk x = true ↔ ∃ a, x = .ok a := by
  cases x <;> simp [isOk]

@[simp] theorem isOk_mapError : isOk (x.mapError rename) = isOk x := by
  cases x <;> rfl

instance decidableExistsOfOk {x : Except ε α} {Q : α → Prop} [DecidablePred Q] :
    Decidable (∃ a, x = .ok a ∧ Q a) :=
  match x with
  | .error _ => .isFalse (by simp)
  | .ok a => decidable_of_iff (Q a) (by simp)

/-- `for item in items { check(item)?; }`. -/
def checkAll (check : α → Except ε Unit) : List α → Except ε Unit
  | [] => .ok ()
  | item :: items => do
    check item
    checkAll check items

/-- A loop of checks succeeds exactly when every single check does. -/
@[simp] theorem checkAll_eq_ok {check : α → Except ε Unit} {u : Unit} :
    checkAll check items = .ok u ↔ ∀ item ∈ items, check item = .ok () := by
  induction items with
  | nil => simp [checkAll]
  | cons item items ih =>
    rw [checkAll, unit_bind_eq_ok, ih]
    simp

/-- A loop that collects results succeeds exactly when it does on every item. -/
theorem isOk_mapM : isOk (items.mapM f) = true ↔ ∀ item ∈ items, isOk (f item) = true := by
  induction items with
  | nil => simp [isOk, pure, Except.pure]
  | cons item items ih =>
    rw [List.mapM_cons, isOk_eq_true, List.forall_mem_cons, ← ih, isOk_eq_true, isOk_eq_true]
    constructor
    · rintro ⟨results, h⟩
      obtain ⟨result, hitem, h⟩ := bind_eq_ok.mp h
      obtain ⟨rest, hrest, -⟩ := bind_eq_ok.mp h
      exact ⟨⟨result, hitem⟩, rest, hrest⟩
    · rintro ⟨⟨result, hitem⟩, rest, hrest⟩
      exact ⟨result :: rest, bind_eq_ok.mpr ⟨result, hitem, bind_eq_ok.mpr ⟨rest, hrest, rfl⟩⟩⟩

/-- The loop returns the result of each item at the item's place. -/
theorem forall₂_of_mapM_eq_ok {results : List β} (h : items.mapM f = .ok results) :
    List.Forall₂ (fun item result => f item = .ok result) items results := by
  induction items generalizing results with
  | nil =>
    cases h
    exact .nil
  | cons item items ih =>
    rw [List.mapM_cons] at h
    obtain ⟨result, hitem, h⟩ := bind_eq_ok.mp h
    obtain ⟨rest, hrest, h⟩ := bind_eq_ok.mp h
    cases h
    exact .cons hitem (ih hrest)

/-- The loop returns as many results as there are items. -/
theorem length_of_mapM_eq_ok {results : List β} (h : items.mapM f = .ok results) :
    results.length = items.length :=
  (forall₂_of_mapM_eq_ok h).length_eq.symm

end TokenHoldem.Library
