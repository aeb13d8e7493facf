import Mathlib.Logic.Function.Basic

/-!
# The lock of the node cache

`recordVerifiedNode` of `scripts/community-network.mjs` reads the cache file and replaces it,
under a lock file that `withExclusiveFileLock` creates and removes. A lock that is too old is
removed by whoever finds it: `removeStaleFileLock` looks at the file and then removes what is
there.

- `Guarded` — what every step keeps as long as no call removes another lock than the one it
  has looked at;
- `node_cache_exclusive` — then at most one call at a time is inside, and no update is lost;
- `fresh_lock_removed` — but of two calls that find the same old lock, one can remove the new
  lock of the other, and the cache loses a node.
-/

namespace TokenHoldem.Scripts

variable {Node Cache : Type}

/-- `FILE_LOCK_STALE_MS`. -/
def fileLockStaleMs : Nat := 15000

/-- The lock file. Which call has created it tells it from every other lock file. -/
structure LockFile where
  owner : Nat
  mtimeMs : Nat

/-- Where a call of `recordVerifiedNode` stands. -/
inductive CallPhase (Node Cache : Type) where
  | idle
  | opening (node : Node)
  /-- `open` has found a lock file. -/
  | checking (node : Node)
  /-- `stat` has found the lock of `seen`, and it is stale. -/
  | removing (node : Node) (seen : Nat)
  | holding (node : Node)
  | loaded (node : Node) (existing : Cache)
  /-- The `finally` block; the cache has been written, or there was an error. -/
  | closing (node : Node) (written : Bool)
  | returned (node : Node)
  /-- The call has thrown an error, or its process has crashed. -/
  | ended

namespace CallPhase

/-- Between the creation of the lock and its removal. -/
@[simp, grind] def inside : CallPhase Node Cache → Bool
  | holding _ | loaded _ _ | closing _ _ => true
  | idle | opening _ | checking _ | removing _ _ | returned _ | ended => false

@[simp, grind] def past : CallPhase Node Cache → Bool
  | returned _ | ended => true
  | idle | opening _ | checking _ | removing _ _ | holding _ | loaded _ _ | closing _ _ => false

theorem past_eq_false {phase : CallPhase Node Cache} (h : phase.inside) : phase.past = false := by
  cases phase <;> trivial

end CallPhase

structure CacheWorld (Node Cache : Type) where
  now : Nat
  lock : Option LockFile
  cache : Cache
  calls : Nat → CallPhase Node Cache
  /-- The nodes in the order in which they were written. -/
  recorded : List Node

namespace CacheWorld

def initial (cache : Cache) : CacheWorld Node Cache := ⟨0, none, cache, fun _ => .idle, []⟩

def goto (w : CacheWorld Node Cache) (id : Nat) (phase : CallPhase Node Cache) :
    CacheWorld Node Cache := { w with calls := Function.update w.calls id phase }

@[simp, grind =] theorem calls_goto (w : CacheWorld Node Cache) (id j : Nat)
    (phase : CallPhase Node Cache) :
    (w.goto id phase).calls j = if j = id then phase else w.calls j :=
  Function.update_apply ..

@[grind =] theorem cache_goto (w : CacheWorld Node Cache) (id : Nat)
    (phase : CallPhase Node Cache) : (w.goto id phase).cache = w.cache := rfl

@[grind =] theorem recorded_goto (w : CacheWorld Node Cache) (id : Nat)
    (phase : CallPhase Node Cache) : (w.goto id phase).recorded = w.recorded := rfl

/-- No live process has held the lock longer than the limit. -/
def Prompt (w : CacheWorld Node Cache) : Prop :=
  ∀ lock ∈ w.lock, (w.calls lock.owner).inside → w.now - lock.mtimeMs ≤ fileLockStaleMs
deriving Decidable

section

variable (record : Node → Cache → Cache) (aimed : Prop)

/-- A call goes on: its phases before and after, and the lock file after. `aimed` says that it
removes no other lock than the one it has looked at. -/
inductive Moves (w : CacheWorld Node Cache) (id : Nat) :
    CallPhase Node Cache → CallPhase Node Cache → Option LockFile → Prop
  | start (node : Node) : Moves w id .idle (.opening node) w.lock
  | create (node : Node) (free : w.lock = none) :
      Moves w id (.opening node) (.holding node) (some ⟨id, w.now⟩)
  | exists_ (node : Node) (taken : w.lock ≠ none) :
    Moves w id (.opening node) (.checking node) w.lock
  /-- The lock is gone or not stale: the call tries again after a while. -/
  | retry (node : Node) (young : ∀ lock ∈ w.lock, w.now - lock.mtimeMs ≤ fileLockStaleMs) :
      Moves w id (.checking node) (.opening node) w.lock
  | stale (node : Node) (lock : LockFile) (found : w.lock = some lock)
      (old : fileLockStaleMs < w.now - lock.mtimeMs) :
      Moves w id (.checking node) (.removing node lock.owner) w.lock
  | remove (node : Node) (seen : Nat) (same : aimed → ∀ lock ∈ w.lock, lock.owner = seen) :
      Moves w id (.removing node seen) (.opening node) none
  | load (node : Node) : Moves w id (.holding node) (.loaded node w.cache) w.lock
  | fail (node : Node) (phase : CallPhase Node Cache)
      (inside : phase = .holding node ∨ ∃ existing, phase = .loaded node existing) :
      Moves w id phase (.closing node false) w.lock
  | release (node : Node) (written : Bool) :
      Moves w id (.closing node written) (if written then .returned node else .ended) none
  /-- A crash, or the end of the time that a call waits for the lock. -/
  | crash (phase : CallPhase Node Cache) (running : phase.past = false) :
      Moves w id phase .ended w.lock

/-- What can happen. `record` is what a call makes of the cache it has loaded. -/
inductive Step (w : CacheWorld Node Cache) : CacheWorld Node Cache → Prop
  | move (id : Nat) {phase : CallPhase Node Cache} {lock : Option LockFile}
      (moves : Moves aimed w id (w.calls id) phase lock) :
      Step w { w.goto id phase with lock }
  /-- `atomicWriteJson` renames a file that nobody else writes to. -/
  | write (id : Nat) (node : Node) (existing : Cache)
    (before : w.calls id = .loaded node existing) :
      Step w { w.goto id (.closing node true) with
        cache := record node existing
        recorded := w.recorded ++ [node] }
  | wait (ms : Nat) : Step w { w with now := w.now + ms }

inductive Reach (cache : Cache) : CacheWorld Node Cache → Prop
  | initial : Reach cache (initial cache)
  | step {w next : CacheWorld Node Cache} (reach : Reach cache w)
      (step : Step record aimed w next) (prompt : next.Prompt) : Reach cache next

end

variable {record : Node → Cache → Cache} {cache : Cache} {w next : CacheWorld Node Cache}

/-- The call that is inside owns the lock, a lock that is about to be removed is of a call that
is over, and the cache has all updates. -/
structure Guarded (record : Node → Cache → Cache) (cache : Cache) (w : CacheWorld Node Cache) :
    Prop where
  owned : ∀ id, (w.calls id).inside → ∃ lock ∈ w.lock, lock.owner = id
  begun : ∀ lock ∈ w.lock, (w.calls lock.owner).inside ∨ (w.calls lock.owner).past
  seenPast : ∀ id node seen, w.calls id = .removing node seen → (w.calls seen).past
  current : ∀ id node existing, w.calls id = .loaded node existing → existing = w.cache
  updated : w.cache = w.recorded.foldl (fun cache node => record node cache) cache
  written : ∀ id node, w.calls id = .closing node true ∨ w.calls id = .returned node →
    node ∈ w.recorded

theorem Guarded.initial (record : Node → Cache → Cache) (cache : Cache) :
    (CacheWorld.initial cache).Guarded record cache where
  owned _ := nofun
  begun _ := nofun
  seenPast _ _ _ := nofun
  current _ _ _ := nofun
  updated := rfl
  written _ _ h := by rcases h with h | h <;> cases h

theorem Guarded.exclusive (h : w.Guarded record cache) {i j : Nat} (hi : (w.calls i).inside)
    (hj : (w.calls j).inside) : i = j := by
  obtain ⟨lock, hlock, rfl⟩ := h.owned i hi
  obtain ⟨lock', hlock', rfl⟩ := h.owned j hj
  rw [Option.mem_unique hlock hlock']

/-- A call that goes on keeps to the others as long as removals are aimed. -/
theorem Guarded.move (h : w.Guarded record cache) (prompt : w.Prompt) {id : Nat}
    {before phase : CallPhase Node Cache} {lock : Option LockFile} (at_ : w.calls id = before)
    (moves : Moves True w id before phase lock) :
    { w.goto id phase with lock }.Guarded record cache := by
  have hexclusive : ∀ i j, (w.calls i).inside → (w.calls j).inside → i = j :=
    fun _ _ => h.exclusive
  obtain ⟨howned, hbegun, hseen, hcurrent, hupdated, hwritten⟩ := h
  cases moves with
  | start node | exists_ node taken | retry node young | load node =>
    constructor <;> grind -linarith
  | create node free =>
    have hnobody : ∀ j, ¬ (w.calls j).inside := by
      intro j hinside
      obtain ⟨_, hfile, -⟩ := howned j hinside
      simp [free] at hfile
    refine ⟨fun j hj => ⟨_, rfl, by grind -linarith⟩, ?_, ?_, ?_, ?_, ?_⟩ <;> grind -linarith
  | stale node lock found old =>
    -- whoever holds the lock has not held it for so long
    have hover : (w.calls lock.owner).past := (hbegun lock found).resolve_left fun hinside =>
      absurd (prompt lock found hinside) (Nat.not_le.mpr old)
    constructor <;> grind -linarith
  | remove node seen same =>
    -- the owner of the lock is over, so nobody is inside
    have hover := hseen id node seen at_
    have hnobody : ∀ j, ¬ (w.calls j).inside := by
      intro j hinside
      obtain ⟨file, hfile, rfl⟩ := howned j hinside
      rw [← same trivial file hfile, CallPhase.past_eq_false hinside] at hover
      cases hover
    constructor <;> grind -linarith
  | fail node phase inside => rcases inside with rfl | ⟨_, rfl⟩ <;> constructor <;> grind -linarith
  | release node written => cases written <;> constructor <;> grind -linarith
  | crash phase running => constructor <;> grind -linarith

theorem Guarded.step (h : w.Guarded record cache) (prompt : w.Prompt)
    (step : Step record True w next) : next.Guarded record cache := by
  cases step with
  | move id moves => exact h.move prompt rfl moves
  | write id node existing before =>
    have hrunning : ¬ (w.calls id).past := by simp [before]
    -- nobody else has loaded the cache
    have halone : ∀ j, (w.calls j).inside → j = id :=
      fun j hj => h.exclusive hj (by simp [before])
    refine ⟨fun j hj => h.owned j ?_, fun file hfile => ?_, fun j node seen hj => ?_,
      fun j node existing hj => ?_, ?_, fun j other hj => ?_⟩
    · grind -linarith
    · grind -linarith [h.begun file hfile]
    · grind -linarith [h.seenPast j node seen]
    · grind -linarith
    · simp [h.current id node existing before, h.updated]
    · grind -linarith [h.written j other]
  | wait ms => exact ⟨h.owned, h.begun, h.seenPast, h.current, h.updated, h.written⟩

theorem Reach.guarded (reach : Reach record True cache w) : w.Guarded record cache ∧ w.Prompt := by
  induction reach with
  | initial => exact ⟨.initial record cache, nofun⟩
  | step _ step prompt ih => exact ⟨ih.1.step ih.2 step, prompt⟩

/-- In every run in which each removal hits the lock that was looked at, at most one call at a
time is inside, the cache has all nodes that were written, and a call that has returned has
written its node. -/
theorem node_cache_exclusive (reach : Reach record True cache w) :
    (∀ i j, (w.calls i).inside → (w.calls j).inside → i = j) ∧
      w.cache = w.recorded.foldl (fun cache node => record node cache) cache ∧
      ∀ id node, w.calls id = .returned node → node ∈ w.recorded :=
  ⟨fun _ _ => reach.guarded.1.exclusive, reach.guarded.1.updated,
    fun id node hreturned => reach.guarded.1.written id node (.inr hreturned)⟩

/-- A process crashes with the lock. Call 1 finds the lock stale, removes it and records its
node; call 2, which came while call 1 was inside, waits and records its own after it. -/
theorem node_cache_exclusive_recovered :
    ∃ w : CacheWorld Nat (List Nat), Reach List.cons True [] w ∧ w.calls 0 = .ended ∧
      (w.calls 1 = .returned 7 ∧ 7 ∈ w.recorded) ∧ (w.calls 2 = .returned 8 ∧ 8 ∈ w.recorded) ∧
      w.cache = w.recorded.foldl (fun cache node => node :: cache) [] ∧ w.cache = [8, 7] := by
  have crashed := ((((@Reach.initial Nat (List Nat) List.cons True []).step
    (.move 0 (.start 6)) (by decide)).step (.move 0 (.create 6 rfl)) (by decide)).step
    (.move 0 (.crash _ (by decide))) (by decide)).step (.wait 15001) (by decide)
  have removed := (((crashed.step (.move 1 (.start 7)) (by decide)).step
    (.move 1 (.exists_ 7 (by simp [goto, CacheWorld.initial]))) (by decide)).step
    (.move 1 (.stale 7 ⟨0, 0⟩ rfl (by decide))) (by decide)).step
    (.move 1 (.remove 7 0 (by simp [goto, CacheWorld.initial]))) (by decide)
  have waited := (((((removed.step (.move 1 (.create 7 rfl)) (by decide)).step
    (.move 2 (.start 8)) (by decide)).step (.move 2 (.exists_ 8 (by simp [goto]))) (by decide)).step
    (.move 1 (.load 7)) (by decide)).step (.move 2 (.retry 8 (by simp [goto]))) (by decide))
  have first := (waited.step (.write 1 7 [] rfl) (by decide)).step
    (.move 1 (.release 7 true)) (by decide)
  have reach := (((first.step (.move 2 (.create 8 rfl)) (by decide)).step
    (.move 2 (.load 8)) (by decide)).step (.write 2 8 [7] rfl) (by decide)).step
    (.move 2 (.release 8 true)) (by decide)
  have hkept := node_cache_exclusive reach
  exact ⟨_, reach, rfl, ⟨rfl, hkept.2.2 1 7 rfl⟩, ⟨rfl, hkept.2.2 2 8 rfl⟩, hkept.2.1, rfl⟩

/-- A process crashes with the lock. Calls 1 and 2 both find it stale; call 2 removes it and
locks anew, call 1 removes that lock, and both are inside. The node of call 2 is lost. -/
theorem fresh_lock_removed :
    ∃ w w' : CacheWorld Nat (List Nat), Reach List.cons False [] w ∧ Reach List.cons False [] w' ∧
      (w.calls 1).inside ∧ (w.calls 2).inside ∧ w'.calls 2 = .returned 8 ∧ 8 ∉ w'.cache := by
  have crashed := ((((@Reach.initial Nat (List Nat) List.cons False []).step
    (.move 0 (.start 6)) (by decide)).step (.move 0 (.create 6 rfl)) (by decide)).step
    (.move 0 (.crash _ (by decide))) (by decide)).step (.wait 15001) (by decide)
  have found := (((((crashed.step (.move 1 (.start 7)) (by decide)).step
    (.move 1 (.exists_ 7 nofun)) (by decide)).step (.move 1 (.stale 7 ⟨0, 0⟩ rfl (by decide)))
    (by decide)).step (.move 2 (.start 8)) (by decide)).step (.move 2 (.exists_ 8 nofun))
    (by decide)).step (.move 2 (.stale 8 ⟨0, 0⟩ rfl (by decide))) (by decide)
  have both := ((((found.step (.move 2 (.remove 8 0 nofun)) (by decide)).step
    (.move 2 (.create 8 rfl)) (by decide)).step (.move 2 (.load 8)) (by decide)).step
    (.move 1 (.remove 7 0 nofun)) (by decide)).step (.move 1 (.create 7 rfl)) (by decide)
  have lost := (((both.step (.move 1 (.load 7)) (by decide)).step (.write 2 8 [] rfl)
    (by decide)).step (.write 1 7 [] rfl) (by decide)).step (.move 2 (.release 8 true)) (by decide)
  exact ⟨_, _, both, lost, rfl, rfl, rfl, by decide⟩

end CacheWorld

end TokenHoldem.Scripts
