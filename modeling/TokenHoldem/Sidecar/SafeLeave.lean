import TokenHoldem.Sidecar.HandRuntime.Play
import TokenHoldem.Sidecar.ProtocolTick
import TokenHoldem.Sidecar.TableSession.Dialling
import TokenHoldem.Sidecar.TableSession.Frames

/-!
# Leaving a table in bounded time

A player who has asked to leave waits for the hand and the membership to let go.
After two minutes the sidecar closes the session on its own, in the last part of its
periodic tick. `leave_bounded` says that this happens in time in every run in which
the earlier parts of the ticks succeed; nothing that other peers send can prevent it
in any other way.

- `Retains` — a computation keeps the leave of a session or closes it;
- `forcedPart_closes` — the last part of a tick after the deadline closes the session;
- `leave_bounded` — the bound over whole runs;
- `undialable_host_delays_leave` — an error in the session part of every tick keeps the
  session open for longer.
-/

namespace TokenHoldem

open Library TickM Room FixedBytes HandPrimitives List

variable {Z : Ziffle} {α β : Type}

/-! ## One session -/

/-- The leave of a session and when it was asked for. -/
abbrev LocalLeave := Option LeaveIntent × Option Nat

/-- While session number `n` is open it has the leave `leave`. -/
structure RuntimeState.Holds (n : Nat) (leave : LocalLeave) (s : RuntimeState Z) : Prop where
  entered : n ≤ s.entered
  leave : s.entered = n → ∀ active, s.session = some active →
    (active.localLeave, active.localLeaveStartedAt) = leave

/-- Session number `n` is no longer open. -/
def RuntimeState.Closed (n : Nat) (s : RuntimeState Z) : Prop :=
  s.session.isNone = true ∨ n < s.entered
deriving Decidable

/-- Whatever session is open, `x` keeps its leave or closes it. -/
def Retains (x : TickM Z α) : Prop :=
  ∀ n leave s, RuntimeState.Holds n leave s → Ends (RuntimeState.Holds n leave) s x

namespace Retains

theorem pure (a : α) : Retains (pure a : TickM Z α) := fun _ _ _ h => h

theorem throw (e : TickError) : Retains (throw e : TickM Z α) := fun _ _ _ h => h

variable {x : TickM Z α} {change : RuntimeState Z → RuntimeState Z} {k : Unit → TickM Z β}

theorem bind {k : α → TickM Z β} (hx : Retains x) (hk : ∀ a, Retains (k a)) :
    Retains (x >>= k) := fun n leave s h => (hx n leave s h).seq fun a => hk a n leave

theorem get_bind {k : RuntimeState Z → TickM Z β} (hk : ∀ s, Retains (k s)) :
    Retains (get >>= k) := fun n leave s h => hk s n leave s h

theorem ite {c : Prop} [Decidable c] {y : TickM Z α} (hx : Retains x) (hy : Retains y) :
    Retains (if c then x else y) := by
  split
  · exact hx
  · exact hy

/-- A change of the pool or the hand. -/
theorem modified (hsession : ∀ s, (change s).session = s.session)
    (hentered : ∀ s, (change s).entered = s.entered) : Retains (modify change : TickM Z Unit) := by
  intro n leave s h
  refine ⟨(hentered s).symm ▸ h.entered, fun hn active hactive => ?_⟩
  exact h.leave ((hentered s).symm.trans hn) active ((hsession s).symm.trans hactive)

theorem updateSession {change : ActiveSession → ActiveSession}
    (hchange : ∀ active, ((change active).localLeave, (change active).localLeaveStartedAt)
      = (active.localLeave, active.localLeaveStartedAt)) :
    Retains (updateSession change : TickM Z Unit) := by
  intro n leave s h
  refine ⟨h.entered, fun hn active hactive => ?_⟩
  obtain ⟨before, hbefore, rfl⟩ := Option.map_eq_some_iff.mp hactive
  exact (hchange before).trans (h.leave hn before hbefore)

theorem modify_bind (hsession : ∀ s, (change s).session = s.session)
    (hentered : ∀ s, (change s).entered = s.entered) (hk : ∀ u, Retains (k u)) :
    Retains (modify change >>= k) :=
  (modified hsession hentered).bind hk

theorem updateSession_bind {change : ActiveSession → ActiveSession}
    (hchange : ∀ active, ((change active).localLeave, (change active).localLeaveStartedAt)
      = (active.localLeave, active.localLeaveStartedAt)) (hk : ∀ u, Retains (k u)) :
    Retains (TickM.updateSession change >>= k) :=
  (updateSession hchange).bind hk

theorem closeSession : Retains (closeSession : TickM Z Unit) :=
  fun _ _ _ h => ⟨h.entered, fun _ _ hactive => nomatch hactive⟩

theorem enterSession (result : Except SessionError Running) :
    Retains (enterSession result : TickM Z (List Effect)) := by
  intro n leave s h
  cases result with
  | error e => exact h
  | ok running =>
    have hn := h.entered
    exact ⟨Nat.le_succ_of_le hn, fun heq => absurd (show s.entered + 1 = n from heq) (by omega)⟩

/-- A call of the session that keeps the leave. -/
theorem onSession {call : SessionM Unit} (hcall : Keeps Running.leave call) :
    Retains (onSession call : TickM Z (List Effect)) := by
  intro n leave s h
  unfold Ends
  cases hsession : s.session with
  | none => rwa [run_onSession_none hsession]
  | some active =>
    have hkept := hcall ⟨active, []⟩
    have hheld : s.entered = n → Running.leave ⟨active, []⟩ = leave :=
      fun hn => h.leave hn active hsession
    rw [run_onSession_some hsession]
    cases hrun : call.run ⟨active, []⟩ <;> rw [hrun] at hkept <;>
      refine ⟨h.entered, fun hn after hafter => ?_⟩ <;> cases hafter <;>
      exact hkept.trans (hheld hn)

theorem onPool (call : PoolM (Option α)) : Retains (onPool call : TickM Z (Option α)) := by
  intro n leave s h
  obtain ⟨pool, hpool⟩ := endState_onPool call s
  unfold Ends
  rw [hpool]
  exact ⟨h.entered, h.leave⟩

theorem onHandRuntime (call : HandRuntimeM Z α) : Retains (onHandRuntime call : TickM Z α) := by
  intro n leave s h
  obtain ⟨hand, hhand⟩ := endState_onHandRuntime call s
  unfold Ends
  rw [hhand]
  exact ⟨h.entered, h.leave⟩

theorem check (c : Prop) [Decidable c] (text : String) : Retains (check c text : TickM Z Unit) :=
  .ite (.pure _) (.throw _)

theorem someOr (text : String) (o : Option α) : Retains (someOr text o : TickM Z α) := by
  cases o <;> exact fun _ _ _ h => h

theorem forEach {body : α → TickM Z Unit} (hbody : ∀ item, Retains (body item))
    (items : List α) : Retains (forEach body items) := by
  induction items with
  | nil => exact .pure _
  | cons item items ih => exact (hbody item).bind fun _ => ih

/-- No session is taken back. -/
theorem entered_le (hx : Retains x) (s : RuntimeState Z) :
    s.entered ≤ (endState (x.run s)).entered := by
  cases hsession : s.session with
  | none =>
    exact (hx s.entered (none, none) s ⟨le_rfl, fun _ _ h => by simp [hsession] at h⟩).entered
  | some active =>
    refine (hx s.entered (active.localLeave, active.localLeaveStartedAt) s
      ⟨le_rfl, fun _ other hother => ?_⟩).entered
    obtain rfl := Option.some.inj (hsession.symm.trans hother)
    rfl

end Retains

/-! ## The parts of a tick -/

section

variable {L : HandPrimitives} {identity : LocalIdentity} {input : ProtocolTick L.ziffle}

theorem completeLocalLeave_retains : Retains (completeLocalLeave : TickM Z Unit) :=
  (Retains.onHandRuntime _).bind fun _ => Retains.closeSession.bind fun _ =>
    .modified (fun _ => rfl) fun _ => rfl

theorem abortHands_retains (tableId : Option TableId) (events : List Effect) :
    Retains (abortHands tableId events : TickM Z Unit) := by
  refine .forEach (fun event => ?_) events
  split
  · exact .onHandRuntime _
  · exact .pure _

theorem markJoined_retains : Retains (markJoined : TickM Z Unit) := by
  refine .get_bind fun state => ?_
  split
  · refine .ite ?_ (.pure _)
    split
    · exact .pure _
    · refine Retains.modify_bind (fun _ => rfl) (fun _ => rfl) fun _ => ?_
      exact .updateSession fun _ => rfl
  · exact .pure _

theorem takeLeaveCompleted_retains : Retains (takeLeaveCompleted : TickM Z Bool) :=
  .get_bind fun _ => Retains.updateSession_bind (fun _ => rfl) fun _ => .pure _

theorem takeReadyTable_retains : Retains (takeReadyTable : TickM Z (Option ReadyTable)) := by
  refine .get_bind fun _ => Retains.updateSession_bind (fun active => ?_) fun _ => .pure _
  split <;> rfl

variable {startHand : ReadyTable → TickM Z Unit} {active : ActiveSession}

theorem processTableSessionEvents_retains (hstart : ∀ table, Retains (startHand table))
    (events : List Effect) : Retains (processTableSessionEvents startHand events) := by
  refine .get_bind fun state => (abortHands_retains _ events).bind fun _ => ?_
  refine markJoined_retains.bind fun _ => takeLeaveCompleted_retains.bind fun completed => ?_
  refine .ite completeLocalLeave_retains (takeReadyTable_retains.bind fun ready => ?_)
  split
  · exact .pure _
  · exact hstart _

theorem processHandEvents_retains {processEvents : List Effect → TickM L.ziffle Unit}
    (hevents : ∀ events, Retains (processEvents events)) :
    Retains (processHandEvents L input processEvents) := by
  refine (Retains.onHandRuntime _).bind fun receipts => ?_
  refine (Retains.forEach (fun receipt => ?_) receipts).bind fun _ => ?_
  · split
    · exact .pure _
    · exact .throw _
  · refine (Retains.onHandRuntime _).bind fun boundary => ?_
    split
    · exact .pure _
    · refine .get_bind fun state => (Retains.someOr _ _).bind fun _ => ?_
      exact (Retains.onSession finishHandBoundary_leave).bind hevents

theorem processSessionEvents_retains (events : List Effect) :
    Retains (processSessionEvents L input events) := by
  refine processTableSessionEvents_retains (fun table => ?_) events
  refine (Retains.onHandRuntime _).bind fun _ => processHandEvents_retains fun events => ?_
  exact processTableSessionEvents_retains (fun _ => .pure _) events

theorem processPoolDecision_retains (decision : PoolDecision) :
    Retains (processPoolDecision L identity input decision) := by
  have hmigrate : Retains (migrateForDecision decision : TickM L.ziffle Unit) := by
    refine .get_bind fun state => ?_
    split
    · refine Retains.closeSession.bind fun _ => .ite (.pure _) ?_
      split
      · exact .throw _
      · exact (Retains.check _ _).bind fun _ => .modified (fun _ => rfl) fun _ => rfl
    · exact .pure _
    · exact .throw _
  refine hmigrate.bind fun _ => .get_bind fun state => (Retains.someOr _ _).bind fun pool => ?_
  cases decision with
  | create tableId creatorPlayerId =>
    exact (Retains.enterSession _).bind processSessionEvents_retains
  | join advertisement =>
    refine (Retains.someOr _ _).bind fun _ => (Retains.enterSession _).bind fun events => ?_
    refine Retains.modify_bind (fun _ => rfl) (fun _ => rfl) fun _ => ?_
    exact processSessionEvents_retains events

theorem poolPart_retains : Retains (poolPart L identity input) := by
  refine Retains.modify_bind (fun _ => rfl) (fun _ => rfl) fun _ => .get_bind fun before => ?_
  refine (Retains.onPool _).bind fun decision => ?_
  have hevents : ∀ expired, Retains (processPoolEvents expired : TickM L.ziffle Unit) := by
    intro expired
    refine .get_bind fun state => ?_
    split
    · exact .ite .closeSession (.pure _)
    · exact .pure _
  refine (hevents _).bind fun _ => ?_
  split
  · exact .pure _
  · exact processPoolDecision_retains _

/-- Up to the last part, a tick keeps the leave of the session or closes it. -/
theorem earlierParts_retains : Retains (earlierParts L identity input) := by
  refine (Retains.check _ _).bind fun _ => poolPart_retains.bind fun _ => ?_
  have hsession : Retains (sessionPart L identity input) :=
    (Retains.onSession tick_leave).bind processSessionEvents_retains
  refine hsession.bind fun _ => (Retains.onHandRuntime _).bind fun _ => ?_
  exact processHandEvents_retains processSessionEvents_retains

theorem forcedPart_retains : Retains (forcedPart L input) :=
  .get_bind fun _ => (Retains.onSession forceLocalLeaveIfDue_leave).bind
    processSessionEvents_retains

/-! ## The deadline -/

/-- A leave that is due, or completed already, is completed by the check. -/
theorem forceLocalLeaveIfDue_run {intent : LeaveIntent} {t now : Nat} (handStalled : Bool)
    (hleave : (active.localLeave, active.localLeaveStartedAt)
      = (some intent, some t)) (hdue : t + absoluteSafeLeaveTimeout ≤ now) :
    ∃ after, (forceLocalLeaveIfDue handStalled now).run ⟨active, []⟩ = .ok () ⟨after, []⟩ ∧
      after.leaveCompleted = true := by
  rw [Prod.mk.injEq] at hleave
  obtain ⟨hintent, hstarted⟩ := hleave
  unfold forceLocalLeaveIfDue
  rw [SessionM.run_getActive_bind]
  split
  · rename_i hdone
    rcases hdone with hnone | hcompleted
    · rw [hintent] at hnone
      cases hnone
    · exact ⟨active, rfl, hcompleted⟩
  · rw [hstarted]
    have hreason : forcedLeaveReason active.handActive handStalled (now - t)
        (active.localLeaveMembershipStartedAt.map fun started => now - started) ≠ none := by
      have helapsed : absoluteSafeLeaveTimeout ≤ now - t := by omega
      unfold forcedLeaveReason
      split
      · simp
      · split
        · simp
        · simp
    refine ⟨{ active with leaveCompleted := true }, ?_, rfl⟩
    show (if _ = none then _ else SessionM.update _).run _ = _
    rw [if_neg hreason]
    rfl

/-- Marking the table as joined does not touch the leave. -/
theorem markJoined_run {s : RuntimeState Z} (hsession : s.session = some active) :
    ∃ s₁ active₁, (markJoined : TickM Z Unit).run s = .ok () s₁ ∧ s₁.session = some active₁ ∧
      active₁.leaveCompleted = active.leaveCompleted := by
  obtain ⟨pool, session, hand, entered⟩ := s
  obtain rfl : session = some active := hsession
  cases pool with
  | none => exact ⟨_, active, rfl, rfl, rfl⟩
  | some pool =>
    show ∃ s₁ active₁, (markJoinedIn active pool : TickM Z Unit).run _ = .ok () s₁ ∧ _ ∧ _
    unfold markJoinedIn
    split
    · cases pool.markJoined active.tableId with
      | none => exact ⟨_, active, rfl, rfl, rfl⟩
      | some joined => exact ⟨_, _, rfl, rfl, rfl⟩
    · exact ⟨_, active, rfl, rfl, rfl⟩

/-- A session whose leave is completed is closed when its events are passed on. -/
theorem processTableSessionEvents_closes {s : RuntimeState Z} (hsession : s.session = some active)
    (hcompleted : active.leaveCompleted = true) :
    (endState ((processTableSessionEvents startHand []).run s)).session = none := by
  obtain ⟨s₁, active₁, hjoined, hsession₁, hcompleted₁⟩ := markJoined_run hsession
  have htaken : (takeLeaveCompleted : TickM Z Bool).run s₁ = .ok true
      { s₁ with session := some { active₁ with leaveCompleted := false } } := by
    show EStateM.Result.ok (s₁.session.any _) { s₁ with session := s₁.session.map _ } = _
    rw [hsession₁]
    show EStateM.Result.ok active₁.leaveCompleted _ = _
    rw [hcompleted₁, hcompleted]
    rfl
  have hrun : (processTableSessionEvents startHand []).run s = (completeLocalLeave).run
      { s₁ with session := some { active₁ with leaveCompleted := false } } := by
    refine (run_bind_ok (show (get : TickM Z _).run s = .ok s s from rfl)).trans ?_
    refine (run_bind_ok (show (abortHands _ [] : TickM Z Unit).run s = .ok () s from rfl)).trans ?_
    exact (run_bind_ok hjoined).trans (run_bind_ok htaken)
  rw [hrun]
  rfl

/-- The last part of a tick after the deadline closes the session. -/
theorem forcedPart_closes {n t : Nat} {intent : LeaveIntent} {s : RuntimeState L.ziffle}
    (h : s.Holds n (some intent, some t))
    (hdue : t + absoluteSafeLeaveTimeout ≤ input.forcedMonotonic) :
    Ends (RuntimeState.Closed n) s (forcedPart L input) := by
  rcases Nat.lt_or_eq_of_le h.entered with hlater | hsame
  · exact .inr (Nat.lt_of_lt_of_le hlater (forcedPart_retains.entered_le s))
  · left
    have hrun : (forcedPart L input).run s = ((do
        let events ← onSession
          (forceLocalLeaveIfDue s.hand.safeLeaveIsStalled input.forcedMonotonic)
        processSessionEvents L input events) : TickM L.ziffle Unit).run s := rfl
    rw [hrun]
    cases hsession : s.session with
    | none =>
      rw [run_bind_ok (run_onSession_none hsession)]
      obtain ⟨pool, session, hand, entered⟩ := s
      obtain rfl : session = none := hsession
      rfl
    | some active =>
      obtain ⟨after, hforced, hcompleted⟩ := forceLocalLeaveIfDue_run s.hand.safeLeaveIsStalled
        (h.leave hsame.symm active hsession) hdue
      have hcall : (onSession (forceLocalLeaveIfDue s.hand.safeLeaveIsStalled
          input.forcedMonotonic)).run s = .ok [] { s with session := some after } := by
        rw [run_onSession_some hsession, hforced]
      rw [run_bind_ok hcall]
      refine Option.isNone_iff_eq_none.mpr (processTableSessionEvents_closes ?_ hcompleted)
      rfl

end

/-! ## Runs -/

/-- What happens to the sidecar: a tick, a call of the session, or anything to the
pool and the hand. -/
inductive RuntimeMove (Z : Ziffle) where
  | tick (input : ProtocolTick Z)
  | session (command : TableSession.Command)
  | pool (changed : Option ActivePool)
  | hand (changed : HandRuntime Z)

section

variable (L : HandPrimitives) (identity : LocalIdentity)

/-- A call of the session; a table is entered only without one. -/
def RuntimeState.call {Z : Ziffle} (s : RuntimeState Z) (call : TableSession.Call) :
    RuntimeState Z :=
  match call, s.session with
  | .enter (.ok running), none =>
    { s with session := some running.active, entered := s.entered + 1 }
  | .enter _, _ => s
  | .run call, some active =>
    { s with session := some (endState (call.run ⟨active, []⟩)).active }
  | .run _, none => s
  | .drop, _ => { s with session := none }

/-- The state after a move, whether it succeeds or fails. -/
def RuntimeMove.apply (move : RuntimeMove L.ziffle) (s : RuntimeState L.ziffle) :
    RuntimeState L.ziffle :=
  match move with
  | .tick input => endState ((protocolTick L identity input).run s)
  | .session command => s.call (command.call L.toPrimitives identity)
  | .pool changed => { s with pool := changed }
  | .hand changed => { s with hand := changed }

/-- The moves of a run, each with its time on the monotonic clock. -/
abbrev RuntimeRun := List (Nat × RuntimeMove L.ziffle)

/-- The state after a run. -/
def RuntimeRun.after (run : RuntimeRun L) (s : RuntimeState L.ziffle) : RuntimeState L.ziffle :=
  run.foldl (fun s move => move.2.apply L identity s) s

/-- A tick gets to its check of a local leave: the parts before report no error. -/
def RuntimeMove.Passes (move : RuntimeMove L.ziffle) (s : RuntimeState L.ziffle) : Prop :=
  match move with
  | .tick input => (earlierParts L identity input).succeeds s = true
  | .session _ | .pool _ | .hand _ => True

instance instDecidablePasses (move : RuntimeMove L.ziffle) (s : RuntimeState L.ziffle) :
    Decidable (move.Passes L identity s) :=
  match move with
  | .tick input => inferInstanceAs (Decidable ((earlierParts L identity input).succeeds s = true))
  | .session _ | .pool _ | .hand _ => .isTrue trivial

/-- From the time `since` on every tick gets to its check of a local leave. -/
def RuntimeRun.Unhindered (since : Nat) : RuntimeRun L → RuntimeState L.ziffle → Prop
  | [], _ => True
  | move :: run, s => (since ≤ move.1 → move.2.Passes L identity s) ∧
      RuntimeRun.Unhindered since run (move.2.apply L identity s)

instance instDecidableUnhindered (since : Nat) (run : RuntimeRun L) (s : RuntimeState L.ziffle) :
    Decidable (RuntimeRun.Unhindered L identity since run s) :=
  match run with
  | [] => .isTrue trivial
  | move :: run =>
    have := instDecidableUnhindered since run (move.2.apply L identity s)
    inferInstanceAs (Decidable ((since ≤ move.1 → move.2.Passes L identity s) ∧
      RuntimeRun.Unhindered L identity since run (move.2.apply L identity s)))

end

section

variable {L : HandPrimitives} {identity : LocalIdentity}

/-- The times of the moves after `t`: they do not decrease, a tick reads its time for
the check of a local leave, and between `t` and the end there is a tick in every `d`
milliseconds. -/
structure RuntimeRun.Timed (d t : Nat) (run : RuntimeRun L) : Prop where
  sorted : run.Pairwise fun a b => a.1 ≤ b.1
  later : ∀ move ∈ run, t ≤ move.1
  reads : ∀ time input, (time, .tick input) ∈ run → input.forcedMonotonic = time
  ticks : ∀ since, t ≤ since → (∃ move ∈ run, since + d ≤ move.1) →
    ∃ time input, (time, .tick input) ∈ run ∧ since ≤ time ∧ time ≤ since + d

variable {P : Primitives} {n t : Nat} {intent : LeaveIntent} {s : RuntimeState L.ziffle}

/-- A session that has asked to leave is not asked a second time. -/
theorem requestLeave_of_leaving {now : UInt64} {nowMonotonic : Nat} {nonce : FixedBytes 16}
    {s : Running} (h : s.active.localLeave.isSome = true) :
    (requestLeave P identity now nowMonotonic nonce).run s = .ok () s := by
  unfold requestLeave
  rw [SessionM.run_getActive_bind, if_pos h]
  rfl

/-- Every command on an open session that has asked to leave keeps the leave. -/
theorem call_leave {command : TableSession.Command} {call : SessionM Unit} {s : Running}
    (hcall : command.call P identity = .run call) (h : s.active.localLeave.isSome = true) :
    (endState (call.run s)).leave = s.leave := by
  cases command with
  | create | join | close => cases hcall
  | tick => cases hcall; exact tick_leave s
  | message => cases hcall; exact handleMessage_leave s
  | requestLeave =>
    cases hcall
    rw [requestLeave_of_leaving h]
    rfl
  | forceLocalLeaveIfDue => cases hcall; exact forceLocalLeaveIfDue_leave s
  | handBoundary => cases hcall; exact finishHandBoundary_leave s
  | peerConnected | adoptExplicitPeers | takeLeaveCompleted => cases hcall; rfl
  | peerDisconnected | takeReadyTable =>
    cases hcall
    refine SessionM.keeps_update (fun s => ?_) s
    simp only [Running.leave]
    split <;> rfl

/-- A call of a session that has asked to leave keeps the leave, or closes it. -/
theorem call_holds {s : RuntimeState Z} (h : s.Holds n (some intent, some t))
    (command : TableSession.Command) :
    (s.call (command.call P identity)).Holds n (some intent, some t) := by
  unfold RuntimeState.call
  split
  · have hn := h.entered
    exact ⟨Nat.le_succ_of_le hn, fun heq => absurd (show s.entered + 1 = n from heq) (by omega)⟩
  · exact h
  · rename_i call active hcall hactive
    refine ⟨h.entered, fun hn after hafter => ?_⟩
    cases hafter
    have hheld := h.leave hn active hactive
    have hsome : active.localLeave.isSome = true := by
      rw [show active.localLeave = some intent from congrArg Prod.fst hheld]
      rfl
    exact (call_leave (s := ⟨active, []⟩) hcall hsome).trans hheld
  · exact h
  · exact ⟨h.entered, fun _ _ hactive => nomatch hactive⟩

theorem RuntimeMove.holds (h : s.Holds n (some intent, some t)) (move : RuntimeMove L.ziffle) :
    (move.apply L identity s).Holds n (some intent, some t) := by
  cases move with
  | tick input =>
    exact (Retains.bind earlierParts_retains fun _ => forcedPart_retains) n _ s h
  | session command => exact call_holds h command
  | pool pool => exact ⟨h.entered, h.leave⟩
  | hand hand => exact ⟨h.entered, h.leave⟩

theorem RuntimeRun.holds (h : s.Holds n (some intent, some t)) (run : RuntimeRun L) :
    (run.after L identity s).Holds n (some intent, some t) := by
  induction run generalizing s with
  | nil => exact h
  | cons move run ih => exact ih (move.2.holds h)

/-- The rest of a run is unhindered, too. -/
theorem RuntimeRun.Unhindered.drop {since : Nat} {first rest : RuntimeRun L}
    (h : RuntimeRun.Unhindered L identity since (first ++ rest) s) :
    RuntimeRun.Unhindered L identity since rest (first.after L identity s) := by
  induction first generalizing s with
  | nil => exact h
  | cons move first ih => exact ih h.2

/-- After a request the session has a leave, which has been asked for by then. -/
theorem leave_of_request {active : ActiveSession} {after : Running} {now : UInt64}
    {nonce : FixedBytes 16}
    (hrequest : (requestLeave P identity now t nonce).run ⟨active, []⟩ = .ok () after)
    (hbefore : active.localLeave.isSome = true →
      ∃ started ∈ active.localLeaveStartedAt, started ≤ t) :
    ∃ intent started, after.leave = (some intent, some started) ∧ started ≤ t := by
  by_cases hleaving : active.localLeave.isSome = true
  · -- a second request changes nothing
    obtain ⟨started, hstarted, hle⟩ := hbefore hleaving
    obtain ⟨intent, hintent⟩ := Option.isSome_iff_exists.mp hleaving
    rw [requestLeave_of_leaving (s := ⟨active, []⟩) hleaving] at hrequest
    obtain rfl : ⟨active, []⟩ = after := by
      cases hrequest
      rfl
    exact ⟨intent, started, Prod.ext hintent hstarted, hle⟩
  · obtain ⟨_, intent, -, hleave⟩ := requestLeave_eq_ok hrequest (by simpa using hleaving)
    exact ⟨intent, t, hleave, le_rfl⟩

/-- A tick after the deadline whose earlier parts succeed closes the session. -/
theorem protocolTick_closes {input : ProtocolTick L.ziffle} (h : s.Holds n (some intent, some t))
    (hdue : t + absoluteSafeLeaveTimeout ≤ input.forcedMonotonic)
    (hearlier : RuntimeMove.Passes L identity (.tick input) s) :
    (endState ((protocolTick L identity input).run s)).Closed n := by
  obtain ⟨⟨⟩, s₁, hrun⟩ := TickM.succeeds_iff.mp hearlier
  unfold protocolTick
  rw [run_bind_ok hrun]
  exact forcedPart_closes ((earlierParts_retains n _ s h).of_ok hrun) hdue

/-- A request to leave has succeeded at the time `t`. In every run after it with a tick
every `d` milliseconds, in which the earlier parts of a tick report no error once the
two minutes are over, the session is closed at most two minutes and `d` milliseconds
after `t`, whatever else happens to the session, the pool and the hand. -/
theorem leave_bounded {s : RuntimeState L.ziffle} {active : ActiveSession} {after : Running}
    {now : UInt64} {t d : Nat} {nonce : FixedBytes 16} {run : RuntimeRun L}
    (hrequest : (requestLeave L.toPrimitives identity now t nonce).run ⟨active, []⟩ = .ok () after)
    (hbefore : active.localLeave.isSome = true →
      ∃ started ∈ active.localLeaveStartedAt, started ≤ t)
    (hsession : s.session = some after.active) (htimed : run.Timed d t)
    (hlong : ∃ move ∈ run, t + absoluteSafeLeaveTimeout + d ≤ move.1)
    (hearlier : RuntimeRun.Unhindered L identity (t + absoluteSafeLeaveTimeout) run s) :
    ∃ first rest : RuntimeRun L, run = first ++ rest ∧
      (∀ move ∈ first, move.1 ≤ t + absoluteSafeLeaveTimeout + d) ∧
      (first.after L identity s).Closed s.entered := by
  obtain ⟨intent, started, hleave, hstarted⟩ := leave_of_request hrequest hbefore
  have hholds : s.Holds s.entered (some intent, some started) := by
    refine ⟨le_rfl, fun _ other hother => ?_⟩
    obtain rfl := Option.some.inj (hsession.symm.trans hother)
    exact hleave
  -- the first tick after the deadline comes in time
  obtain ⟨time, input, hmem, hdue, htime⟩ := htimed.ticks _ (Nat.le_add_right t _) hlong
  obtain ⟨first, rest, hsplit⟩ := append_of_mem hmem
  refine ⟨first ++ [(time, .tick input)], rest, by simp [hsplit], fun move hmove => ?_, ?_⟩
  · rcases mem_append.mp hmove with hbefore | hlast
    · have hsorted := htimed.sorted
      rw [hsplit, pairwise_append] at hsorted
      exact (hsorted.2.2 move hbefore _ mem_cons_self).trans htime
    · rw [mem_singleton.mp hlast]
      exact htime
  · rw [hsplit] at hearlier
    unfold RuntimeRun.after
    rw [foldl_append]
    refine protocolTick_closes (RuntimeRun.holds hholds first) ?_ (hearlier.drop.1 hdue)
    rw [htimed.reads time input hmem]
    exact le_trans (Nat.add_le_add_right hstarted _) hdue

end

/-! ## A host that cannot be dialled -/

/-- The second peer has joined the table of the first one and has a seat. -/
def guestSession : Except SessionError ActiveSession := do
  let host := plainIdentity 1
  let guest := plainIdentity 2
  let created ← hostSession
  let intent ← guestIntent [[2]]
  let joined ← TableSession.join .relayed guest plainRoom.tableId host.certificate.playerId [1]
    [[1]] intent.ticket plainEpoch (ofNat 0)
  let asked ← (handleMessage .relayed host (some ⟨2⟩) (.joinIntent joined.active.localJoin)
    plainEpoch 0).after created.active
  let offering ← (tick .relayed host [[1]] plainEpoch 0
    ⟨ofNat 1, ofNat 2⟩).after asked
  let proposal ← okOr (.message "") offering.pendingMembership
  let offered ← (handleMessage .relayed guest (some ⟨1⟩) (.membershipProposal proposal)
    plainEpoch 0).after joined.active
  let acceptance ← okOr (.message "") offered.localMembershipAcceptance
  let hosting ← (handleMessage .relayed host (some ⟨2⟩) (.membershipAcceptance acceptance)
    plainEpoch 0).after offering
  let certificate ← okOr (.message "") hosting.membershipCertificate
  (handleMessage .relayed guest (some ⟨1⟩) (.certifiedMembership certificate)
    plainEpoch 0).after offered

/-- The next membership, without the leaving guest. -/
def hostProposal (guest : ActiveSession) (addresses : List Bytes) :
    Except SessionError SignedMembershipProposal := do
  let host := plainIdentity 1
  let ticket ← issueLocalSessionTicket .relayed plainRoom.level (chips 40) addresses host
    plainEpoch (ofNat 3)
  let intent ← issueJoinIntent .relayed plainRoom.tableId ticket host plainEpoch
    (ofNat 3)
  let membership ← okOr (.message "") guest.membership
  let seats := membership.proposal.seats.filter fun seat =>
    seat.joinIntent.playerId = host.certificate.playerId
  let proposal ← (MembershipProposal.assemble .relayed plainRoom.tableId plainRoom.level 3
    (some membership.proposal.proposalHash)
    (seats.map fun seat => { seat with joinIntent := intent })
    [] (values guest.leaves) plainEpoch).mapError .session
  (SignedMembershipProposal.issue .relayed proposal plainEpoch host.device
    host.certificate).mapError .session

/-- The plain hands, with these addresses. -/
def HandPrimitives.relayed : HandPrimitives := { plain with toPrimitives := .relayed }

/-- A tick of the second peer, some milliseconds after the beginning. -/
def guestTick (elapsed : Nat) : ProtocolTick relayed.ziffle where
  swarm := ⟨⟨2⟩, fun _ => false⟩
  sessionAddresses := [[2]]
  poolNow := plainEpoch + UInt64.ofNat elapsed
  poolMonotonic := elapsed
  ticketNonce := ofNat 4
  advertisementNonce := ofNat 5
  tableNonce := ofNat 6
  decisionNow := plainEpoch + UInt64.ofNat elapsed
  decisionNonce := ofNat 7
  sessionNow := plainEpoch + UInt64.ofNat elapsed
  sessionMonotonic := elapsed
  sessionNonces := ⟨ofNat 8, ofNat 9⟩
  execution := seatExecution 1 elapsed
  seed := ()
  boundaryMonotonic := elapsed
  forcedMonotonic := elapsed
  archive := fun _ => .ok ()

/-- A tick every minute. -/
def guestTicks : RuntimeRun relayed :=
  [(60000, .tick (guestTick 60000)), (120000, .tick (guestTick 120000)),
    (180000, .tick (guestTick 180000))]

def guestState (active : ActiveSession) : RuntimeState relayed.ziffle where
  pool := none
  session := some active
  hand := .idle
  entered := 1

/-- Moves at the beginning, then a tick every minute. -/
theorem guestTicks_timed (start : RuntimeRun relayed)
    (hstart : ∀ move ∈ start, move.1 = 0 ∧ ∀ input, move.2 ≠ .tick input) :
    (start ++ guestTicks : RuntimeRun relayed).Timed 60000 0 := by
  have hmem : ∀ elapsed, elapsed = 60000 ∨ elapsed = 120000 ∨ elapsed = 180000 →
      (elapsed, .tick (guestTick elapsed)) ∈ start ++ guestTicks := by
    rintro elapsed (rfl | rfl | rfl) <;> exact mem_append_right _ (by simp [guestTicks])
  have htimes : ∀ move ∈ start ++ guestTicks, move.1 ≤ 180000 := by
    intro move hmove
    rcases mem_append.mp hmove with hmove | hmove
    · rw [(hstart move hmove).1]
      omega
    · simp only [guestTicks, mem_cons, not_mem_nil, or_false] at hmove
      rcases hmove with rfl | rfl | rfl <;> simp
  constructor
  · refine pairwise_append.mpr ⟨?_, by simp [guestTicks], fun move hmove _ _ => ?_⟩
    · exact pairwise_of_forall_mem_list fun a ha b hb => by rw [(hstart a ha).1]; omega
    · rw [(hstart move hmove).1]
      omega
  · exact fun _ _ => Nat.zero_le _
  · intro time input hmove
    rcases mem_append.mp hmove with hmove | hmove
    · exact absurd rfl ((hstart _ hmove).2 input)
    · simp only [guestTicks, mem_cons, Prod.mk.injEq, RuntimeMove.tick.injEq,
        not_mem_nil, or_false] at hmove
      rcases hmove with ⟨rfl, rfl⟩ | ⟨rfl, rfl⟩ | ⟨rfl, rfl⟩ <;> rfl
  · rintro since - ⟨move, hmove, hlater⟩
    have hend := htimes move hmove
    -- the next full minute
    rcases (show since ≤ 60000 ∨ (60000 < since ∧ since ≤ 120000) by omega) with hsoon | hsoon
    · exact ⟨60000, _, hmem 60000 (by omega), by omega, by omega⟩
    · exact ⟨120000, _, hmem 120000 (by omega), by omega, by omega⟩

/-- The guest asks to leave and the host stays silent: after three minutes the session
is closed. -/
theorem leave_bounded_silent_host :
    ∃ (active : ActiveSession) (after : Running), guestSession = .ok active ∧
      (requestLeave .relayed (plainIdentity 2) plainEpoch 0 (ofNat 0)).run
        ⟨active, []⟩ = .ok () after ∧
      ∃ first rest : RuntimeRun relayed, guestTicks = first ++ rest ∧
        (∀ move ∈ first, move.1 ≤ 0 + absoluteSafeLeaveTimeout + 60000) ∧
        (first.after relayed (plainIdentity 2)
          (guestState after.active)).Closed 1 := by
  have hcheck : ∃ active, guestSession = .ok active ∧ active.localLeave = none ∧
      ∃ (_ : Unit) (after : Running), (requestLeave .relayed (plainIdentity 2) plainEpoch 0
        (ofNat 0)).run ⟨active, []⟩ = .ok () after ∧
      RuntimeRun.Unhindered relayed (plainIdentity 2)
        (0 + absoluteSafeLeaveTimeout) guestTicks (guestState after.active) := by
    decide +kernel
  obtain ⟨active, hactive, hnone, _, after, hrequest, hearlier⟩ := hcheck
  refine ⟨active, after, hactive, hrequest, ?_⟩
  exact leave_bounded hrequest (fun h => by rw [hnone] at h; cases h) rfl
    (guestTicks_timed [] fun _ h => nomatch h)
    ⟨_, mem_cons_of_mem _ (mem_cons_of_mem _ mem_cons_self), le_rfl⟩ hearlier

/-- The guest asks to leave, and the host answers with the next membership, in which
its own verified join intent has an address that does not end in its peer id. Then
every tick of the guest fails in the session part, and after three minutes, with a
tick every minute, the session is still open. -/
theorem undialable_host_delays_leave :
    ∃ (active : ActiveSession) (after : Running) (proposal : SignedMembershipProposal)
      (run : RuntimeRun relayed), guestSession = .ok active ∧
      active.localLeave = none ∧
      (requestLeave .relayed (plainIdentity 2) plainEpoch 0 (ofNat 0)).run
        ⟨active, []⟩ = .ok () after ∧
      hostProposal after.active [[1, 0]] = .ok proposal ∧
      run = [(0, .session (.message (some ⟨1⟩) (.membershipProposal proposal) plainEpoch 0))]
        ++ guestTicks ∧
      run.Timed 60000 0 ∧ (∃ move ∈ run, 0 + absoluteSafeLeaveTimeout + 60000 ≤ move.1) ∧
      ∀ first rest : RuntimeRun relayed, run = first ++ rest →
        ¬ (first.after relayed (plainIdentity 2)
          (guestState after.active)).Closed 1 := by
  have hcheck : ∃ active, guestSession = .ok active ∧ active.localLeave = none ∧
      ∃ (_ : Unit) (after : Running), (requestLeave .relayed (plainIdentity 2) plainEpoch 0
        (ofNat 0)).run ⟨active, []⟩ = .ok () after ∧
      ∃ proposal, hostProposal after.active [[1, 0]] = .ok proposal ∧
      ∀ first ∈ inits ([(0, .session (.message (some ⟨1⟩) (.membershipProposal proposal)
        plainEpoch 0))] ++ guestTicks), ¬ RuntimeState.Closed 1 (RuntimeRun.after
          relayed (plainIdentity 2) first (guestState after.active)) := by
    decide +kernel
  obtain ⟨active, hactive, hnone, _, after, hrequest, proposal, hproposal, hopen⟩ := hcheck
  refine ⟨active, after, proposal, _, hactive, hnone, hrequest, hproposal, rfl,
    guestTicks_timed _ fun move hmove => ?_, ?_, fun first rest hsplit => ?_⟩
  · rw [mem_singleton.mp hmove]
    exact ⟨rfl, fun _ h => nomatch h⟩
  · exact ⟨(180000, .tick (guestTick 180000)), mem_append_right _
      (mem_cons_of_mem _ (mem_cons_of_mem _ mem_cons_self)), le_rfl⟩
  · exact hopen first ((mem_inits _ _).mpr ⟨rest, hsplit.symm⟩)

end TokenHoldem
