import TokenHoldem.Library.Checked
import TokenHoldem.Library.Fallible

/-!
# Stateful computations that leave a trace

A method of a runtime changes its object, may fail half-way, and on the way does
things that outlive the call: it sends messages and creates secrets. `Traced`
pairs the object with a list of such effects, and `TracedM` is `EStateM` over
it, so a call that fails keeps both the changes and the effects it has made.

- `ends_getActive`, `ends_update_bind`, `ends_record_bind`, `ends_expect_bind`,
  `ends_check_bind`: what holds at the end of a call, read off line by line.
- `ends_forEach`: what every round of a loop keeps, the loop keeps.
-/

namespace TokenHoldem.Library

/-- An object in the middle of a call, with what the call has done so far. -/
structure Traced (σ τ : Type) where
  active : σ
  trace : List τ

abbrev TracedM (ε σ τ : Type) := EStateM ε (Traced σ τ)

namespace TracedM

variable {ε σ τ α β : Type}

def getActive : TracedM ε σ τ σ := do return (← get).active

def update (change : σ → σ) : TracedM ε σ τ Unit :=
  modify fun running => { running with active := change running.active }

def record (effect : τ) : TracedM ε σ τ Unit :=
  modify fun running => { running with trace := running.trace ++ [effect] }

/-- `if !condition { bail!(error) }`. -/
def check (condition : Prop) [Decidable condition] (error : ε) : TracedM ε σ τ Unit :=
  if condition then pure () else throw error

/-- `result?`. -/
def expect : Except ε α → TracedM ε σ τ α
  | .ok a => pure a
  | .error e => throw e

/-- A call whose error is reported and not passed on. -/
def attempt (x : TracedM ε σ τ Unit) : TracedM ε σ τ Unit := fun s =>
  match x.run s with
  | .ok _ t => .ok () t
  | .error _ t => .ok () t

/-- `for item in items { body(item)?; }`. -/
def forEach (body : α → TracedM ε σ τ Unit) : List α → TracedM ε σ τ Unit
  | [] => pure ()
  | item :: items => do
    body item
    forEach body items

variable {s : Traced σ τ}

theorem run_getActive_bind (k : σ → TracedM ε σ τ β) :
    (getActive >>= k).run s = (k s.active).run s := rfl

theorem run_attempt (x : TracedM ε σ τ Unit) : (attempt x).run s = .ok () (endState (x.run s)) := by
  have hrun : (attempt x).run s = match x.run s with
      | .ok _ t => .ok () t
      | .error _ t => .ok () t := rfl
  rw [hrun]
  cases x.run s with
  | ok a t => rfl
  | error e t => rfl

/-! ## Postconditions -/

section Ends

variable {Q : Traced σ τ → Prop}

theorem ends_getActive {k : σ → TracedM ε σ τ β} (h : Ends Q s (k s.active)) :
    Ends Q s (getActive >>= k) := h

theorem ends_update {change : σ → σ} (h : Q { s with active := change s.active }) :
    Ends Q s (update change : TracedM ε σ τ Unit) := h

variable {k : Unit → TracedM ε σ τ β} {x : Except ε α}

theorem ends_update_bind {change : σ → σ} (h : Ends Q { s with active := change s.active } (k ())) :
    Ends Q s (update change >>= k) := h

theorem ends_record {effect : τ} (h : Q { s with trace := s.trace ++ [effect] }) :
    Ends Q s (record effect : TracedM ε σ τ Unit) := h

theorem ends_record_bind {effect : τ} (h : Ends Q { s with trace := s.trace ++ [effect] } (k ())) :
    Ends Q s (record effect >>= k) := h

theorem ends_expect (hs : Q s) : Ends Q s (expect x : TracedM ε σ τ α) := by
  cases x with
  | ok a => exact hs
  | error e => exact hs

theorem ends_expect_bind {k : α → TracedM ε σ τ β} (hs : Q s)
    (h : ∀ a, x = .ok a → Ends Q s (k a)) :
    Ends Q s (expect x >>= k) := by
  cases x with
  | ok a => exact h a rfl
  | error e => exact hs

/-- `ends_expect_bind` where the failure has to be used. -/
theorem ends_expect_cases {k : α → TracedM ε σ τ β} (failed : ∀ e, x = .error e → Q s)
    (h : ∀ a, x = .ok a → Ends Q s (k a)) : Ends Q s (expect x >>= k) := by
  cases x with
  | ok a => exact h a rfl
  | error e => exact failed e rfl

theorem ends_check_bind {c : Prop} [Decidable c] {e : ε} (hs : Q s) (h : c → Ends Q s (k ())) :
    Ends Q s (check c e >>= k) := by
  unfold check
  split
  · exact h ‹_›
  · exact hs

theorem ends_attempt {x : TracedM ε σ τ Unit} (h : Ends Q s x) : Ends Q s (attempt x) := by
  rw [Ends, run_attempt]
  exact h

/-- A loop keeps what each of its rounds keeps. -/
theorem ends_forEach {body : α → TracedM ε σ τ Unit} {items : List α} (hs : Q s)
    (h : ∀ item ∈ items, ∀ t, Q t → Ends Q t (body item)) : Ends Q s (forEach body items) := by
  induction items generalizing s with
  | nil => exact hs
  | cons item items ih =>
    refine .seq (h item List.mem_cons_self s hs) fun _ t ht => ?_
    exact ih ht fun other hother => h other (List.mem_cons_of_mem _ hother)

end Ends

theorem run_forEach_record {effect : α → τ} {items : List α} :
    (forEach (fun item => record (effect item)) items : TracedM ε σ τ Unit).run s =
      .ok () { s with trace := s.trace ++ items.map effect } := by
  induction items generalizing s with
  | nil => simp [forEach]
  | cons item items ih =>
    have hfirst : (record (effect item) : TracedM ε σ τ Unit).run s =
        .ok () { s with trace := s.trace ++ [effect item] } := rfl
    rw [forEach, run_bind_ok hfirst, ih]
    simp

/-! ## Postconditions of the result -/

section Returns

variable {Q : β → Traced σ τ → Prop} {E : Traced σ τ → Prop}

theorem returns_getActive {k : σ → TracedM ε σ τ β} (h : Returns Q E s (k s.active)) :
    Returns Q E s (getActive >>= k) := h

theorem returns_update {Q : Unit → Traced σ τ → Prop} {change : σ → σ}
    (h : Q () { s with active := change s.active }) :
    Returns Q E s (update change : TracedM ε σ τ Unit) := h

variable {k : Unit → TracedM ε σ τ β}

theorem returns_update_bind {change : σ → σ}
    (h : Returns Q E { s with active := change s.active } (k ())) :
    Returns Q E s (update change >>= k) := h

theorem returns_record_bind {effect : τ}
    (h : Returns Q E { s with trace := s.trace ++ [effect] } (k ())) :
    Returns Q E s (record effect >>= k) := h

theorem returns_expect_bind {x : Except ε α} {k : α → TracedM ε σ τ β}
    (failed : ∀ e, x = .error e → E s) (h : ∀ a, x = .ok a → Returns Q E s (k a)) :
    Returns Q E s (expect x >>= k) := by
  cases x with
  | ok a => exact h a rfl
  | error e => exact failed e rfl

end Returns

end TracedM

end TokenHoldem.Library
