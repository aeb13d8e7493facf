import Mathlib.Logic.Basic

/-!
# Stateful computations that may fail

A method of type `&mut self -> Result<α, ε>` that gives up half-way leaves the
object as it was at that point. `EStateM ε σ α` is exactly this: both results
carry the state. The lemmas here take a bind apart, so that no proof about a
program written with `do` has to unfold the monad.
-/

namespace TokenHoldem.Library

open EStateM (Result)

universe u

variable {ε σ α β : Type u}

instance decidableEqResult [DecidableEq ε] [DecidableEq σ] [DecidableEq α] :
    DecidableEq (Result ε σ α)
  | .ok a s, .ok b t => decidable_of_iff (a = b ∧ s = t) (by simp)
  | .error e s, .error e' t => decidable_of_iff (e = e' ∧ s = t) (by simp)
  | .ok _ _, .error _ _ => .isFalse (by simp)
  | .error _ _, .ok _ _ => .isFalse (by simp)

/-- `option.ok_or(error)?`. -/
def orThrow (error : ε) : Option α → EStateM ε σ α
  | some a => pure a
  | none => throw error

@[simp] theorem run_orThrow_some (e : ε) (a : α) (s : σ) :
    (orThrow e (some a) : EStateM ε σ α).run s = .ok a s := rfl

@[simp] theorem run_orThrow_none (e : ε) (s : σ) :
    (orThrow e none : EStateM ε σ α).run s = .error e s := rfl

variable {x : EStateM ε σ α} {s : σ}

/-- Running a bind whose first part succeeds. -/
theorem run_bind_ok {f : α → EStateM ε σ β} {t : σ} {a : α} (h : x.run s = .ok a t) :
    (x >>= f).run s = (f a).run t := by
  simp [h]

/-- Running a bind whose first part fails. -/
theorem run_bind_error {f : α → EStateM ε σ β} {t : σ} {e : ε} (h : x.run s = .error e t) :
    (x >>= f).run s = .error e t := by
  simp [h]

/-- A bind succeeds exactly when both of its parts do. -/
theorem run_bind_eq_ok_iff {f : α → EStateM ε σ β} {s' : σ} {b : β} :
    (x >>= f).run s = .ok b s' ↔ ∃ a t, x.run s = .ok a t ∧ (f a).run t = .ok b s' := by
  cases h : x.run s with
  | ok a t => simp [run_bind_ok h, and_assoc]
  | error e t => simp [run_bind_error h]

/-- A bind fails in its first part or, after that succeeded, in its second. -/
theorem run_bind_eq_error_iff {f : α → EStateM ε σ β} {s' : σ} {e : ε} :
    (x >>= f).run s = .error e s' ↔
      x.run s = .error e s' ∨ ∃ a t, x.run s = .ok a t ∧ (f a).run t = .error e s' := by
  cases h : x.run s with
  | ok a t => simp [run_bind_ok h, and_assoc]
  | error e' t => simp [run_bind_error h]

/-- `option.ok_or(error)?` lets the computation go on exactly when there is a value. -/
theorem run_orThrow_bind_eq_ok_iff {e : ε} {o : Option α} {f : α → EStateM ε σ β} {s' : σ} {b : β} :
    (orThrow e o >>= f).run s = .ok b s' ↔ ∃ a, o = some a ∧ (f a).run s = .ok b s' := by
  cases o <;> simp

/-! ## Deciding results -/

instance decidableExistsError {r : Result ε σ α} {e : ε} {Q : σ → Prop} [DecidableEq ε]
    [DecidablePred Q] :
    Decidable (∃ s, r = .error e s ∧ Q s) :=
  match r with
  | .ok _ _ => .isFalse (by simp)
  | .error e' s => decidable_of_iff (e' = e ∧ Q s)
      ⟨fun ⟨he, hq⟩ => ⟨s, by rw [he], hq⟩, by rintro ⟨_, ⟨⟩, hq⟩; exact ⟨rfl, hq⟩⟩

instance decidableExistsOk {r : Result ε σ α} {Q : α → σ → Prop} [∀ a, DecidablePred (Q a)] :
    Decidable (∃ a s, r = .ok a s ∧ Q a s) :=
  match r with
  | .error _ _ => .isFalse (by simp)
  | .ok a s => decidable_of_iff (Q a s)
      ⟨fun hq => ⟨a, s, rfl, hq⟩, by rintro ⟨_, _, ⟨⟩, hq⟩; exact hq⟩

/-! ## Frame rules -/

/-- The state a computation ends in, whether it succeeds or fails. -/
def endState : Result ε σ α → σ
  | .ok _ s => s
  | .error _ s => s

@[simp] theorem endState_ok (a : α) (s : σ) : endState (.ok a s : Result ε σ α) = s := rfl

@[simp] theorem endState_error (e : ε) (s : σ) : endState (.error e s : Result ε σ α) = s := rfl

variable {γ : Type*} {f : σ → γ}

/-- `x` never changes the part `f` of the state, not even when it fails. -/
def Keeps (f : σ → γ) (x : EStateM ε σ α) : Prop := ∀ s, f (endState (x.run s)) = f s

namespace Keeps

theorem pure (a : α) : Keeps f (pure a : EStateM ε σ α) := fun _ => rfl

theorem throw (e : ε) : Keeps f (throw e : EStateM ε σ α) := fun _ => rfl

theorem get : Keeps f (get : EStateM ε σ σ) := fun _ => rfl

theorem orThrow (e : ε) (o : Option α) : Keeps f (orThrow e o : EStateM ε σ α) := by
  cases o <;> exact fun _ => rfl

theorem modify {g : σ → σ} (h : ∀ s, f (g s) = f s) : Keeps f (modify g : EStateM ε σ PUnit) := h

variable {x : EStateM ε σ α} {k : α → EStateM ε σ β}

theorem bind (hx : Keeps f x) (hk : ∀ a, Keeps f (k a)) : Keeps f (x >>= k) := by
  intro s
  have hxs := hx s
  cases h : x.run s with
  | ok a t =>
    rw [h] at hxs
    rw [run_bind_ok h]
    exact (hk a t).trans hxs
  | error e t =>
    rw [h] at hxs
    rw [run_bind_error h]
    exact hxs

theorem ite {c : Prop} [Decidable c] {y : EStateM ε σ α} (hx : Keeps f x) (hy : Keeps f y) :
    Keeps f (if c then x else y) := by
  split
  · exact hx
  · exact hy

theorem of_ok (hx : Keeps f x) {s t : σ} {a : α} (h : x.run s = .ok a t) : f t = f s := by
  have := hx s
  rwa [h] at this

theorem of_error (hx : Keeps f x) {s t : σ} {e : ε} (h : x.run s = .error e t) : f t = f s := by
  have := hx s
  rwa [h] at this

/-- Only the first part of a computation counts when the rest keeps `f`. -/
theorem endState_bind (hk : ∀ a, Keeps f (k a)) (s : σ) :
    f (endState ((x >>= k).run s)) = f (endState (x.run s)) := by
  cases h : x.run s with
  | ok a t =>
    rw [run_bind_ok h]
    exact hk a t
  | error e t => rw [run_bind_error h]; rfl

/-- What is read off a part that is kept is kept. -/
theorem comp {δ : Type*} (hx : Keeps f x) (g : γ → δ) : Keeps (fun s => g (f s)) x :=
  fun s => congrArg g (hx s)

end Keeps

/-! ## Postconditions

A postcondition of the state alone, which has to hold at the end of a
computation whether it succeeds or fails. -/

/-- Started in `s`, `x` ends in a state that satisfies `Q`. -/
def Ends (Q : σ → Prop) (s : σ) (x : EStateM ε σ α) : Prop := Q (endState (x.run s))

namespace Ends

variable {Q : σ → Prop} {s : σ}

theorem pure {a : α} (h : Q s) : Ends Q s (pure a : EStateM ε σ α) := h

theorem throw {e : ε} (h : Q s) : Ends Q s (throw e : EStateM ε σ α) := h

theorem get (h : Q s) : Ends Q s (get : EStateM ε σ σ) := h

theorem orThrow {e : ε} {o : Option α} (h : Q s) : Ends Q s (orThrow e o) := by
  cases o <;> exact h

theorem modify {change : σ → σ} (h : Q (change s)) :
    Ends Q s (modify change : EStateM ε σ PUnit) := h

variable {x : EStateM ε σ α} {k : α → EStateM ε σ β}

/-- The first part establishes `R`, also when it fails; the rest goes on from there. -/
theorem bind {R : σ → Prop} (hx : Ends R s x) (weaker : ∀ t, R t → Q t)
    (hk : ∀ a t, R t → Ends Q t (k a)) : Ends Q s (x >>= k) := by
  unfold Ends at *
  cases h : x.run s with
  | ok a t =>
    rw [h] at hx
    rw [run_bind_ok h]
    exact hk a t hx
  | error e t =>
    rw [h] at hx
    rw [run_bind_error h]
    exact weaker t hx

/-- Both parts keep `Q`. -/
theorem seq (hx : Ends Q s x) (hk : ∀ a t, Q t → Ends Q t (k a)) : Ends Q s (x >>= k) :=
  hx.bind (fun _ ht => ht) hk

theorem imp {R : σ → Prop} (hx : Ends R s x) (weaker : ∀ t, R t → Q t) : Ends Q s x := weaker _ hx

theorem of_ok (hx : Ends Q s x) {t : σ} {a : α} (h : x.run s = .ok a t) : Q t := by
  unfold Ends at hx
  rwa [h] at hx

theorem ite {c : Prop} [Decidable c] {y : EStateM ε σ α} (hx : c → Ends Q s x)
    (hy : ¬ c → Ends Q s y) : Ends Q s (if c then x else y) := by
  split
  · exact hx ‹_›
  · exact hy ‹_›

end Ends

/-! ## Postconditions of the result

What a computation returns may be needed too; a failure then has a
postcondition of its own. -/

/-- Started in `s`, `x` returns a result and a state that satisfy `Q`, or fails in a
state that satisfies `E`. -/
def Returns (Q : α → σ → Prop) (E : σ → Prop) (s : σ) (x : EStateM ε σ α) : Prop :=
  match x.run s with
  | .ok a t => Q a t
  | .error _ t => E t

namespace Returns

variable {Q : α → σ → Prop} {E : σ → Prop} {s : σ}

theorem pure {a : α} (h : Q a s) : Returns Q E s (pure a : EStateM ε σ α) := h

variable {x : EStateM ε σ α} {k : α → EStateM ε σ β}

theorem bind {R : β → σ → Prop} (hx : Returns Q E s x) (hk : ∀ a t, Q a t → Returns R E t (k a)) :
    Returns R E s (x >>= k) := by
  unfold Returns at *
  cases h : x.run s with
  | ok a t =>
    rw [h] at hx
    rw [run_bind_ok h]
    exact hk a t hx
  | error e t =>
    rw [h] at hx
    rw [run_bind_error h]
    exact hx

theorem imp {Q' : α → σ → Prop} {E' : σ → Prop} (hx : Returns Q E s x)
    (result : ∀ a t, Q a t → Q' a t) (failure : ∀ t, E t → E' t) : Returns Q' E' s x := by
  unfold Returns at *
  cases h : x.run s with
  | ok a t =>
    rw [h] at hx
    exact result a t hx
  | error e t =>
    rw [h] at hx
    exact failure t hx

theorem ite {c : Prop} [Decidable c] {y : EStateM ε σ α} (hx : c → Returns Q E s x)
    (hy : ¬ c → Returns Q E s y) : Returns Q E s (if c then x else y) := by
  split
  · exact hx ‹_›
  · exact hy ‹_›

/-- The rest of a computation goes on with what its first part returns. -/
theorem ends_bind {P : σ → Prop} (hx : Returns Q P s x) (hk : ∀ a t, Q a t → Ends P t (k a)) :
    Ends P s (x >>= k) := by
  unfold Returns at hx
  unfold Ends at *
  cases h : x.run s with
  | ok a t =>
    rw [h] at hx
    rw [run_bind_ok h]
    exact hk a t hx
  | error e t =>
    rw [h] at hx
    rw [run_bind_error h]
    exact hx

end Returns

/-! ## Postconditions of the error

What a failure is about, when that is what matters. -/

/-- Started in `s`, `x` returns a result and a state that satisfy `Q`, or fails
with an error that satisfies `F`. -/
structure Yields (Q : α → σ → Prop) (F : ε → Prop) (s : σ) (x : EStateM ε σ α) : Prop where
  result : ∀ a t, x.run s = .ok a t → Q a t
  failure : ∀ e t, x.run s = .error e t → F e

namespace Yields

variable {Q : α → σ → Prop} {F : ε → Prop} {s : σ}

variable {x : EStateM ε σ α} {R : β → σ → Prop}

theorem of_ok {a : α} {t : σ} (run : x.run s = .ok a t) (h : Q a t) : Yields Q F s x := by
  constructor
  · intro a' t' hrun
    rw [run] at hrun
    cases hrun
    exact h
  · intro e t' hrun
    rw [run] at hrun
    cases hrun

theorem of_error {e : ε} {t : σ} (run : x.run s = .error e t) (h : F e) : Yields Q F s x := by
  constructor
  · intro a t' hrun
    rw [run] at hrun
    cases hrun
  · intro e' t' hrun
    rw [run] at hrun
    cases hrun
    exact h

theorem pure {a : α} (h : Q a s) : Yields Q F s (pure a : EStateM ε σ α) := of_ok rfl h

theorem modify {Q : PUnit → σ → Prop} {change : σ → σ} (h : Q ⟨⟩ (change s)) :
    Yields Q F s (modify change) := of_ok rfl h

theorem bind {k : α → EStateM ε σ β} (hx : Yields Q F s x)
    (hk : ∀ a t, Q a t → Yields R F t (k a)) :
    Yields R F s (x >>= k) := by
  constructor
  · intro b t hrun
    obtain ⟨a, mid, hfirst, hrest⟩ := run_bind_eq_ok_iff.mp hrun
    exact (hk a mid (hx.result a mid hfirst)).result b t hrest
  · intro e t hrun
    rcases run_bind_eq_error_iff.mp hrun with hfirst | ⟨a, mid, hfirst, hrest⟩
    · exact hx.failure e t hfirst
    · exact (hk a mid (hx.result a mid hfirst)).failure e t hrest

theorem get_bind {k : σ → EStateM ε σ β} (h : Yields R F s (k s)) : Yields R F s (get >>= k) :=
  ⟨h.result, h.failure⟩

theorem modify_bind {change : σ → σ} {k : PUnit → EStateM ε σ β}
    (h : Yields R F (change s) (k ⟨⟩)) :
    Yields R F s ((modifyThe σ change : EStateM ε σ PUnit) >>= k) := ⟨h.result, h.failure⟩

theorem ite {c : Prop} [Decidable c] {y : EStateM ε σ α} (hx : c → Yields Q F s x)
    (hy : ¬ c → Yields Q F s y) : Yields Q F s (if c then x else y) := by
  split
  · exact hx ‹_›
  · exact hy ‹_›

end Yields

/-! ## What a computation does not look at

A change of the state that a computation neither reads nor overwrites can be made
before or after it. -/

/-- The result with its state changed. -/
def mapState (change : σ → σ) : Result ε σ α → Result ε σ α
  | .ok a s => .ok a (change s)
  | .error e s => .error e (change s)

/-- `x` does not depend on what `change` changes. -/
def Commutes (change : σ → σ) (x : EStateM ε σ α) : Prop :=
  ∀ s, x.run (change s) = mapState change (x.run s)

namespace Commutes

variable {change : σ → σ}

theorem pure (a : α) : Commutes change (pure a : EStateM ε σ α) := fun _ => rfl

theorem throw (e : ε) : Commutes change (throw e : EStateM ε σ α) := fun _ => rfl

theorem orThrow (e : ε) (o : Option α) : Commutes change (orThrow e o : EStateM ε σ α) := by
  cases o <;> exact fun _ => rfl

theorem modify {g : σ → σ} (h : ∀ s, g (change s) = change (g s)) :
    Commutes change (modify g : EStateM ε σ PUnit) := by
  intro s
  change Result.ok _ (g (change s)) = Result.ok _ (change (g s))
  rw [h]

theorem bind {x : EStateM ε σ α} {k : α → EStateM ε σ β} (hx : Commutes change x)
    (hk : ∀ a, Commutes change (k a)) : Commutes change (x >>= k) := by
  intro s
  have hxs := hx s
  cases h : x.run s with
  | ok a t =>
    rw [h] at hxs
    rw [run_bind_ok h, run_bind_ok hxs]
    exact hk a t
  | error e t =>
    rw [h] at hxs
    rw [run_bind_error h, run_bind_error hxs]
    rfl

/-- What a computation reads first is the same before and after the change. -/
theorem get_bind {k : σ → EStateM ε σ β} (hsame : ∀ s, k (change s) = k s)
    (hk : ∀ s, Commutes change (k s)) : Commutes change (get >>= k) := by
  intro s
  change (k (change s)).run (change s) = mapState change ((k s).run s)
  rw [hsame]
  exact hk s s

theorem ite {c : Prop} [Decidable c] {x y : EStateM ε σ α} (hx : Commutes change x)
    (hy : Commutes change y) : Commutes change (if c then x else y) := by
  split
  · exact hx
  · exact hy

end Commutes

end TokenHoldem.Library
