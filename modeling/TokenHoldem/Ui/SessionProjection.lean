import Mathlib.Data.Int.CharZero
import Mathlib.Data.List.Basic
import Mathlib.Logic.Function.Basic

/-!
# The two projections of a session

The supervisor (`runtime_protocol.rs`) and the plugin (`session-event-projection.mjs`) each
keep, for a user interface that connects late, one event per slot. They were written twice,
over JSON: a hand is compared by its table and its number, which Rust reads as a `u64` and
JavaScript as a safe integer, and the steps of a protocol by what a record or a `match` says
of their names.

- `Fits`, `Sound` — what the event in a slot is known to carry;
- `Sound.observe` — one event: the projections do the same, and the slots stay sound;
- `projections_agree` — after any events of the sidecar both hold the same events;
- `projections_differ_negative` — with a count that the sidecar never writes they do not.
-/

namespace TokenHoldem.Ui

/-! ## Events -/

/-- A JSON value. Of an array or an object only its text is known. -/
inductive JsonValue where
  | null
  | bool (value : Bool)
  | number (value : Int)
  | string (value : String)
  | composite (text : String)
deriving DecidableEq

/-- The types of events that the projections tell apart. -/
inductive SidecarEventType where
  | identityReady
  | identityCleared
  | statisticsUpdated
  | poolJoined
  | poolDirectoryUpdated
  | poolJoiningTable
  | poolJoinAttemptExpired
  | poolCreatingTable
  | poolTableJoined
  | poolCancelled
  | friendRoomCreated
  | friendRoomJoining
  | friendRoomJoined
  | roomEntered
  | roomSnapshot
  | membershipConfirmation
  | handRosterConfirmation
  | nextHandReady
  | safeLeaveRequested
  | safeLeaveForced
  | safeLeaveCompleted
  | roomClosed
  | handProtocolStarted
  | handProtocolProgress
  | handReady
  | handState
  | handActionConflict
  | handSettled
  | receiptConsensusProgress
  | receiptFinalized
  | handSessionInterrupted
  | handSessionResumed
  | handLeft
  | handAbortedForLeave
  | other (name : String)
deriving DecidableEq

/-- The type with a name. -/
def SidecarEventType.ofName : String → SidecarEventType
  | "identity_ready" => identityReady
  | "identity_cleared" => identityCleared
  | "statistics_updated" => statisticsUpdated
  | "pool_joined" => poolJoined
  | "pool_directory_updated" => poolDirectoryUpdated
  | "pool_joining_table" => poolJoiningTable
  | "pool_join_attempt_expired" => poolJoinAttemptExpired
  | "pool_creating_table" => poolCreatingTable
  | "pool_table_joined" => poolTableJoined
  | "pool_cancelled" => poolCancelled
  | "friend_room_created" => friendRoomCreated
  | "friend_room_joining" => friendRoomJoining
  | "friend_room_joined" => friendRoomJoined
  | "room_entered" => roomEntered
  | "room_snapshot" => roomSnapshot
  | "membership_confirmation" => membershipConfirmation
  | "hand_roster_confirmation" => handRosterConfirmation
  | "next_hand_ready" => nextHandReady
  | "safe_leave_requested" => safeLeaveRequested
  | "safe_leave_forced" => safeLeaveForced
  | "safe_leave_completed" => safeLeaveCompleted
  | "room_closed" => roomClosed
  | "hand_protocol_started" => handProtocolStarted
  | "hand_protocol_progress" => handProtocolProgress
  | "hand_ready" => handReady
  | "hand_state" => handState
  | "hand_action_conflict" => handActionConflict
  | "hand_settled" => handSettled
  | "receipt_consensus_progress" => receiptConsensusProgress
  | "receipt_finalized" => receiptFinalized
  | "hand_session_interrupted" => handSessionInterrupted
  | "hand_session_resumed" => handSessionResumed
  | "hand_left" => handLeft
  | "hand_aborted_for_leave" => handAbortedForLeave
  | name => other name

/-- `Number.MAX_SAFE_INTEGER`, which is `2 ^ 53 - 1`. -/
def maxSafeInteger : Nat := 9007199254740991

/-- `RuntimeEvent`: an event with its number, as a JSON object. -/
structure RuntimeEvent where
  sequence : Nat
  event : String → Option JsonValue

/-- The type of an event, if it is a string. -/
def RuntimeEvent.type? (entry : RuntimeEvent) : Option SidecarEventType :=
  match entry.event "type" with
  | some (.string name) => some (.ofName name)
  | _ => none

/-- The slots of a projection; Rust and JavaScript spell their names differently. -/
inductive Slot where
  | identity
  | statistics
  | pool
  | poolDirectory
  | poolPhase
  | friendRoom
  | roomEntered
  | roomSnapshot
  | membership
  | roster
  | nextHand
  | safeLeave
  | handStarted
  | handProgress
  | handReady
  | handState
  | handTerminal
  | receipt
  | interruption
deriving DecidableEq

/-- What is in the slots. -/
abbrev Slots := Slot → Option RuntimeEvent

namespace Slots

/-- No slot is filled. -/
def empty : Slots := fun _ => none

variable (slots : Slots)

def insert (slot : Slot) (entry : RuntimeEvent) : Slots :=
  Function.update slots slot (some entry)

def remove (slot : Slot) : Slots :=
  Function.update slots slot none

def removeAll (removed : List Slot) : Slots :=
  removed.foldl remove slots

end Slots

/-! ## The projection of the supervisor -/

namespace Rust

/-- `u64::MAX`. -/
def u64Max : Nat := 18446744073709551615

/-- `Value::as_u64`. -/
def asU64 : JsonValue → Option Nat
  | .number value => if 0 ≤ value ∧ value.toNat ≤ u64Max then some value.toNat else none
  | _ => none

/-- `Value::as_str`. -/
def asStr : JsonValue → Option String
  | .string value => some value
  | _ => none

def handScope (event : RuntimeEvent) : Option (String × Nat) := do
  let table ← (← event.event "table_id") |> asStr
  let hand ← (← event.event "hand_number") |> asU64
  return (table, hand)

def handProgressOrder (event : RuntimeEvent) : Option Nat := do
  match ← (← event.event "phase") |> asStr with
  | "key_exchange" => some 0
  | "shuffling" => some 1
  | "dealing" => some 2
  | _ => none

variable (slots : Slots)

def clearPool : Slots :=
  slots.removeAll [.pool, .poolDirectory, .poolPhase]

def clearRoom : Slots :=
  slots.removeAll
    [.friendRoom, .roomEntered, .roomSnapshot, .membership, .roster, .nextHand, .safeLeave]

def clearHand : Slots :=
  slots.removeAll
    [.handStarted, .handProgress, .handReady, .handState, .handTerminal, .receipt, .interruption]

variable (event : RuntimeEvent)

def shouldReplaceHand : Bool :=
  match slots .handStarted with
  | none => true
  | some current =>
    match handScope current, handScope event with
    | some (currentTable, currentHand), some (incomingTable, incomingHand) =>
      decide (currentTable = incomingTable ∧ currentHand < incomingHand)
    | _, _ => true

def belongsToProjectedHand : Bool :=
  match slots .handStarted with
  | none => true
  | some started =>
    match handScope started, handScope event with
    | some left, some right => decide (left = right)
    | _, _ => true

def shouldStoreHandProgress : Bool :=
  if !belongsToProjectedHand slots event then false
  else if (handScope event).any fun scope =>
      [Slot.handReady, .handState, .handTerminal].any fun slot =>
        ((slots slot).bind handScope).any (· = scope) then false
  else
    match slots .handProgress with
    | none => true
    | some current =>
      if handScope current ≠ handScope event then true
      else
        match handProgressOrder current, handProgressOrder event with
        | none, _ => true
        | some _, none => true
        | some currentOrder, some incomingOrder =>
          if incomingOrder < currentOrder then false
          else incomingOrder != currentOrder ||
            decide (((current.event "completed").bind asU64).getD 0 ≤
              ((event.event "completed").bind asU64).getD 0)

def observe : Slots :=
  match event.type? with
  | none => slots
  | some .identityReady =>
    let slots :=
      if ((slots .identity).bind fun entry => entry.event "player_id") ≠ event.event "player_id"
      then slots.remove .statistics else slots
    slots.insert .identity event
  | some .identityCleared => (slots.remove .identity).remove .statistics
  | some .statisticsUpdated => slots.insert .statistics event
  | some .poolJoined => (clearPool slots).insert .pool event
  | some .poolDirectoryUpdated => slots.insert .poolDirectory event
  | some .poolJoiningTable | some .poolJoinAttemptExpired | some .poolCreatingTable
  | some .poolTableJoined => slots.insert .poolPhase event
  | some .poolCancelled => clearPool slots
  | some .friendRoomCreated | some .friendRoomJoining | some .friendRoomJoined =>
    slots.insert .friendRoom event
  | some .roomEntered => (clearHand (clearRoom slots)).insert .roomEntered event
  | some .roomSnapshot =>
    let slots := slots.insert .roomSnapshot event
    if (event.event "local_role").bind asStr ≠ some "leaving" then slots.remove .safeLeave
    else slots
  | some .membershipConfirmation => slots.insert .membership event
  | some .handRosterConfirmation => slots.insert .roster event
  | some .nextHandReady => slots.insert .nextHand event
  | some .safeLeaveRequested | some .safeLeaveForced => slots.insert .safeLeave event
  | some .safeLeaveCompleted => clearHand (clearRoom (clearPool slots))
  | some .roomClosed => clearHand (clearRoom slots)
  | some .handProtocolStarted =>
    if !shouldReplaceHand slots event then slots
    else (clearHand slots).insert .handStarted event
  | some .handProtocolProgress =>
    if shouldStoreHandProgress slots event then slots.insert .handProgress event else slots
  | some .handReady =>
    if belongsToProjectedHand slots event then
      (slots.remove .handProgress).insert .handReady event
    else slots
  | some .handState =>
    if belongsToProjectedHand slots event then
      (slots.remove .handProgress).insert .handState event
    else slots
  | some .handActionConflict | some .handSettled =>
    if belongsToProjectedHand slots event then
      (slots.remove .handProgress).insert .handTerminal event
    else slots
  | some .receiptConsensusProgress | some .receiptFinalized =>
    if belongsToProjectedHand slots event then slots.insert .receipt event else slots
  | some .handSessionInterrupted | some .handSessionResumed =>
    if belongsToProjectedHand slots event then slots.insert .interruption event else slots
  | some .handLeft | some .handAbortedForLeave => clearHand slots
  | some (.other _) => slots

end Rust

/-! ## The projection of the plugin -/

namespace Js

/-- `===` of two fields: arrays and objects of different events are different. -/
def strictEquals : Option JsonValue → Option JsonValue → Bool
  | some (.composite _), some (.composite _) => false
  | left, right => decide (left = right)

/-- `Number.isSafeInteger`. -/
def isSafeInteger (value : Int) : Bool := decide (value.natAbs ≤ maxSafeInteger)

def handScope (entry : RuntimeEvent) : Option (String × Int) :=
  match entry.event "table_id", entry.event "hand_number" with
  | some (.string tableId), some (.number handNumber) =>
    if isSafeInteger handNumber then some (tableId, handNumber) else none
  | _, _ => none

def sameHand (left right : String × Int) : Bool := decide (left.1 = right.1 ∧ left.2 = right.2)

def sameScopedEntry (left right : RuntimeEvent) : Bool :=
  match handScope left, handScope right with
  | some leftScope, some rightScope => sameHand leftScope rightScope
  | _, _ => false

/-- The name of the property that a value stands for. -/
def propertyKey : Option JsonValue → String
  | none => "undefined"
  | some .null => "null"
  | some (.bool value) => toString value
  | some (.number value) => toString value
  | some (.string value) => value
  | some (.composite text) => text

/-- `HAND_PROGRESS_ORDER`; no property that every object has is an integer. -/
def handProgressOrder (phase : Option JsonValue) : Option Nat :=
  match propertyKey phase with
  | "key_exchange" => some 0
  | "shuffling" => some 1
  | "dealing" => some 2
  | _ => none

/-- `>=` of two fields, for numbers. -/
def atLeast : Option JsonValue → Option JsonValue → Bool
  | some (.number left), some (.number right) => decide (right ≤ left)
  | _, _ => false

variable (slots : Slots)

def clearPool : Slots :=
  slots.removeAll [.pool, .poolDirectory, .poolPhase]

def clearRoom : Slots :=
  slots.removeAll
    [.friendRoom, .roomEntered, .roomSnapshot, .membership, .roster, .nextHand, .safeLeave]

def clearHand : Slots :=
  slots.removeAll
    [.handStarted, .handProgress, .handReady, .handState, .handTerminal, .receipt, .interruption]

variable (entry : RuntimeEvent)

/-- `#shouldReplaceHand`. -/
def shouldReplaceHand : Bool :=
  match slots .handStarted with
  | none => true
  | some current =>
    match handScope current, handScope entry with
    | some currentScope, some incomingScope =>
      decide (currentScope.1 = incomingScope.1 ∧ currentScope.2 < incomingScope.2)
    | _, _ => true

/-- `#belongsToProjectedHand`. -/
def belongsToProjectedHand : Bool :=
  match slots .handStarted with
  | none => true
  | some started =>
    match handScope started, handScope entry with
    | some startedScope, some incomingScope => sameHand startedScope incomingScope
    | _, _ => true

/-- `#shouldStoreHandProgress`. -/
def shouldStoreHandProgress : Bool :=
  if !belongsToProjectedHand slots entry then false
  else if (handScope entry).any fun scope =>
      [Slot.handReady, .handState, .handTerminal].any fun slot =>
        ((slots slot).bind handScope).any fun projectedScope => sameHand scope projectedScope
    then false
  else
    match slots .handProgress with
    | none => true
    | some current =>
      if !sameScopedEntry current entry then true
      else
        match handProgressOrder (current.event "phase"),
          handProgressOrder (entry.event "phase") with
        | some currentOrder, some incomingOrder =>
          if incomingOrder < currentOrder then false
          else incomingOrder != currentOrder ||
            atLeast (entry.event "completed") (current.event "completed")
        | _, _ => true

def poolPhaseEvents : List SidecarEventType :=
  [.poolJoiningTable, .poolJoinAttemptExpired, .poolCreatingTable, .poolTableJoined]

def friendRoomEvents : List SidecarEventType :=
  [.friendRoomCreated, .friendRoomJoining, .friendRoomJoined]

def handTerminalEvents : List SidecarEventType := [.handActionConflict, .handSettled]

def receiptEvents : List SidecarEventType := [.receiptConsensusProgress, .receiptFinalized]

def interruptionEvents : List SidecarEventType := [.handSessionInterrupted, .handSessionResumed]

/-- `SessionEventProjection.observe`. -/
def observe : Slots :=
  match entry.type? with
  | none => slots
  | some .identityReady =>
    let slots :=
      if !strictEquals ((slots .identity).bind fun entry => entry.event "player_id")
        (entry.event "player_id") then slots.remove .statistics else slots
    slots.insert .identity entry
  | some .identityCleared => (slots.remove .identity).remove .statistics
  | some .statisticsUpdated => slots.insert .statistics entry
  | some .poolJoined => (clearPool slots).insert .pool entry
  | some .poolDirectoryUpdated => slots.insert .poolDirectory entry
  | some .poolCancelled => clearPool slots
  | some .roomEntered => (clearHand (clearRoom slots)).insert .roomEntered entry
  | some .roomSnapshot =>
    let slots := slots.insert .roomSnapshot entry
    if !strictEquals (entry.event "local_role") (some (.string "leaving")) then
      slots.remove .safeLeave
    else slots
  | some .membershipConfirmation => slots.insert .membership entry
  | some .handRosterConfirmation => slots.insert .roster entry
  | some .nextHandReady => slots.insert .nextHand entry
  | some .safeLeaveRequested | some .safeLeaveForced => slots.insert .safeLeave entry
  | some .safeLeaveCompleted => clearHand (clearRoom (clearPool slots))
  | some .roomClosed => clearHand (clearRoom slots)
  | some .handProtocolStarted =>
    if !shouldReplaceHand slots entry then slots
    else (clearHand slots).insert .handStarted entry
  | some .handProtocolProgress =>
    if !shouldStoreHandProgress slots entry then slots else slots.insert .handProgress entry
  | some .handReady =>
    if !belongsToProjectedHand slots entry then slots
    else (slots.remove .handProgress).insert .handReady entry
  | some .handState =>
    if !belongsToProjectedHand slots entry then slots
    else (slots.remove .handProgress).insert .handState entry
  | some .handLeft | some .handAbortedForLeave => clearHand slots
  | some eventType =>
    if eventType ∈ poolPhaseEvents then slots.insert .poolPhase entry
    else if eventType ∈ friendRoomEvents then slots.insert .friendRoom entry
    else if eventType ∈ handTerminalEvents ∧ belongsToProjectedHand slots entry then
      (slots.remove .handProgress).insert .handTerminal entry
    else if eventType ∈ receiptEvents ∧ belongsToProjectedHand slots entry then
      slots.insert .receipt entry
    else if eventType ∈ interruptionEvents ∧ belongsToProjectedHand slots entry then
      slots.insert .interruption entry
    else slots

end Js

/-! ## The events of the sidecar -/

/-- The types of events whose hand the projections read. -/
def SidecarEventType.OfHand : SidecarEventType → Prop
  | handProtocolStarted | handProtocolProgress | handReady | handState | handActionConflict
  | handSettled | receiptConsensusProgress | receiptFinalized | handSessionInterrupted
  | handSessionResumed => True
  | _ => False

namespace RuntimeEvent

variable (entry : RuntimeEvent)

/-- The event names its hand, and the number of the hand is a safe integer. -/
def Scoped : Prop :=
  ∃ (tableId : String) (handNumber : Nat), entry.event "table_id" = some (.string tableId) ∧
    entry.event "hand_number" = some (.number handNumber) ∧ handNumber ≤ maxSafeInteger

/-- The event says how far a step of the protocol is. -/
def Counted : Prop :=
  ∃ (phase : String) (completed : Nat), entry.event "phase" = some (.string phase) ∧
    entry.event "completed" = some (.number completed) ∧ completed ≤ maxSafeInteger

/-- The event names a player. -/
def Named : Prop :=
  ∃ playerId : String, entry.event "player_id" = some (.string playerId)

/-- The event has the fields that the sidecar writes for its type. -/
structure WellFormed (entry : RuntimeEvent) : Prop where
  named : entry.type? = some .identityReady → entry.Named
  ofHand : ∀ eventType, entry.type? = some eventType → eventType.OfHand → entry.Scoped
  counted : entry.type? = some .handProtocolProgress → entry.Counted

theorem asU64_of_safe {value : Nat} (hsafe : value ≤ maxSafeInteger) :
    Rust.asU64 (.number value) = some value := by
  have hu64 : (0 : Int) ≤ value ∧ (value : Int).toNat ≤ Rust.u64Max := by
    unfold maxSafeInteger at hsafe
    unfold Rust.u64Max
    omega
  rw [Rust.asU64, if_pos hu64, Int.toNat_natCast]

theorem Scoped.handScope {entry : RuntimeEvent} (hscoped : entry.Scoped) :
    ∃ (tableId : String) (handNumber : Nat),
      Rust.handScope entry = some (tableId, handNumber) ∧
      Js.handScope entry = some (tableId, (handNumber : Int)) := by
  obtain ⟨tableId, handNumber, htable, hhand, hsafe⟩ := hscoped
  refine ⟨tableId, handNumber, ?_, ?_⟩
  · simp [Rust.handScope, htable, hhand, Rust.asStr, asU64_of_safe hsafe]
  · have hjs : Js.isSafeInteger handNumber = true :=
      decide_eq_true (by rwa [Int.natAbs_natCast])
    simp only [Js.handScope, htable, hhand, hjs, if_true]

end RuntimeEvent

/-- What the event in a slot carries. -/
def Slot.Fits : Slot → RuntimeEvent → Prop
  | identity, entry => entry.Named
  | handStarted, entry | handReady, entry | handState, entry | handTerminal, entry => entry.Scoped
  | handProgress, entry => entry.Scoped ∧ entry.Counted
  | _, _ => True

namespace Slots

/-- Every slot holds an event that fits. -/
def Sound (slots : Slots) : Prop :=
  ∀ slot entry, slots slot = some entry → slot.Fits entry

theorem Sound.empty : Slots.empty.Sound := by
  intro slot entry hentry
  cases hentry

variable {slots : Slots} {entry : RuntimeEvent}

theorem Sound.insert (hsound : slots.Sound) {slot : Slot} (hfits : slot.Fits entry) :
    (slots.insert slot entry).Sound := by
  intro other found hfound
  by_cases hother : other = slot
  · subst hother
    have : entry = found := by simpa [Slots.insert] using hfound
    exact this ▸ hfits
  · exact hsound other found (by simpa [Slots.insert, hother] using hfound)

theorem Sound.remove (hsound : slots.Sound) (slot : Slot) : (slots.remove slot).Sound := by
  intro other found hfound
  by_cases hother : other = slot
  · subst hother
    simp [Slots.remove] at hfound
  · exact hsound other found (by simpa [Slots.remove, hother] using hfound)

theorem Sound.removeAll (hsound : slots.Sound) (removed : List Slot) :
    (slots.removeAll removed).Sound := by
  induction removed generalizing slots with
  | nil => exact hsound
  | cons slot removed ih => exact ih (hsound.remove slot)

/-! ## The same decisions -/

section Decisions

variable {slots : Slots} {entry : RuntimeEvent}

theorem Sound.hand_eq (hsound : slots.Sound) (hscoped : entry.Scoped) :
    Rust.shouldReplaceHand slots entry = Js.shouldReplaceHand slots entry ∧
      Rust.belongsToProjectedHand slots entry =
        Js.belongsToProjectedHand slots entry := by
  unfold Rust.shouldReplaceHand Js.shouldReplaceHand
    Rust.belongsToProjectedHand Js.belongsToProjectedHand
  cases hstarted : slots .handStarted with
  | none => exact ⟨rfl, rfl⟩
  | some current =>
    obtain ⟨_, _, hrust, hjs⟩ :=
      RuntimeEvent.Scoped.handScope (hsound .handStarted current hstarted)
    obtain ⟨_, _, hrust', hjs'⟩ := hscoped.handScope
    simp [hrust, hjs, hrust', hjs', Js.sameHand]

/-- The slots that a step of the protocol comes too late for. -/
theorem Sound.projected_eq (hsound : slots.Sound) {slot : Slot}
    (hslot : slot ∈ [Slot.handReady, .handState, .handTerminal]) (tableId : String)
    (handNumber : Nat) :
    ((slots slot).bind Rust.handScope).any (· = (tableId, handNumber)) =
      ((slots slot).bind Js.handScope).any fun projectedScope =>
        Js.sameHand (tableId, (handNumber : Int)) projectedScope := by
  cases hfilled : slots slot with
  | none => rfl
  | some projected =>
    have hfits : projected.Scoped := by
      have := hsound slot projected hfilled
      simp only [List.mem_cons, List.not_mem_nil, or_false] at hslot
      rcases hslot with rfl | rfl | rfl <;> exact this
    obtain ⟨_, _, hrust, hjs⟩ := hfits.handScope
    simp [hrust, hjs, Js.sameHand, eq_comm]

theorem sameScopedEntry_iff {left right : RuntimeEvent} (hleft : left.Scoped)
    (hright : right.Scoped) : Rust.handScope left = Rust.handScope right ↔
      Js.sameScopedEntry left right = true := by
  obtain ⟨_, _, hrust, hjs⟩ := hleft.handScope
  obtain ⟨_, _, hrust', hjs'⟩ := hright.handScope
  simp [Js.sameScopedEntry, Js.sameHand, hrust, hjs, hrust', hjs']

theorem handProgressOrder_eq (hcounted : entry.Counted) : Rust.handProgressOrder entry =
      Js.handProgressOrder (entry.event "phase") := by
  obtain ⟨phase, -, hphase, -⟩ := hcounted
  simp [Rust.handProgressOrder, Js.handProgressOrder, hphase,
    Rust.asStr, Js.propertyKey]

theorem completed_eq {left right : RuntimeEvent} (hleft : left.Counted) (hright : right.Counted) :
    decide (((left.event "completed").bind Rust.asU64).getD 0 ≤
      ((right.event "completed").bind Rust.asU64).getD 0) =
      Js.atLeast (right.event "completed") (left.event "completed") := by
  obtain ⟨-, completed, -, hcompleted, hsafe⟩ := hleft
  obtain ⟨-, completed', -, hcompleted', hsafe'⟩ := hright
  simp [hcompleted, hcompleted', RuntimeEvent.asU64_of_safe hsafe,
    RuntimeEvent.asU64_of_safe hsafe', Js.atLeast]

theorem Sound.shouldStoreHandProgress_eq (hsound : slots.Sound) (hscoped : entry.Scoped)
    (hcounted : entry.Counted) : Rust.shouldStoreHandProgress slots entry =
      Js.shouldStoreHandProgress slots entry := by
  unfold Rust.shouldStoreHandProgress Js.shouldStoreHandProgress
  rw [(hsound.hand_eq hscoped).2]
  obtain ⟨tableId, handNumber, hrust, hjs⟩ := hscoped.handScope
  have hlate : ([Slot.handReady, .handState, .handTerminal].any fun slot =>
      ((slots slot).bind Rust.handScope).any (· = (tableId, handNumber))) =
      [Slot.handReady, .handState, .handTerminal].any fun slot =>
        ((slots slot).bind Js.handScope).any fun projectedScope =>
          Js.sameHand (tableId, (handNumber : Int)) projectedScope := by
    simp only [List.any_cons, List.any_nil]
    rw [hsound.projected_eq (by simp), hsound.projected_eq (by simp),
      hsound.projected_eq (by simp)]
  simp only [hrust, hjs, Option.any_some, hlate]
  cases hprogress : slots .handProgress with
  | none => rfl
  | some current =>
    obtain ⟨hcurrent, hcount⟩ := hsound .handProgress current hprogress
    have hsame := sameScopedEntry_iff hcurrent hscoped
    rw [hrust] at hsame
    simp only [ne_eq, hsame, handProgressOrder_eq hcount, handProgressOrder_eq hcounted,
      completed_eq hcount hcounted]
    cases Js.sameScopedEntry current entry with
    | false => rfl
    | true =>
      cases Js.handProgressOrder (current.event "phase") with
      | none => rfl
      | some currentOrder =>
        cases Js.handProgressOrder (entry.event "phase") <;> rfl

end Decisions

/-! ## The same slots -/

theorem strictEquals_named (hsound : slots.Sound) (hnamed : entry.Named) :
    Js.strictEquals ((slots .identity).bind fun entry => entry.event "player_id")
      (entry.event "player_id") =
      decide (((slots .identity).bind fun entry => entry.event "player_id") =
        entry.event "player_id") := by
  obtain ⟨playerId, hplayer⟩ := hnamed
  rw [hplayer]
  cases hidentity : slots .identity with
  | none => rfl
  | some current =>
    obtain ⟨currentId, hcurrent⟩ := hsound .identity current hidentity
    simp only [Option.bind_some, hcurrent]
    rfl

theorem strictEquals_string (value : Option JsonValue) (text : String) :
    Js.strictEquals value (some (.string text)) =
      decide (value.bind Rust.asStr = some text) := by
  rcases value with _ | (_ | _ | _ | value | _) <;>
    simp [Js.strictEquals, Rust.asStr]

/-- One event. -/
theorem Sound.observe_eq (hsound : slots.Sound) (hformed : entry.WellFormed) :
    Rust.observe slots entry = Js.observe slots entry := by
  unfold Rust.observe Js.observe
  cases htype : entry.type? with
  | none => rfl
  | some eventType =>
    have hhand := hformed.ofHand eventType htype
    cases eventType with
    | identityReady =>
      simp only [strictEquals_named hsound (hformed.named htype)]
      simp
    | roomSnapshot =>
      simp only [strictEquals_string]
      simp
    | handProtocolStarted =>
      simp only [(hsound.hand_eq (hhand trivial)).1]
      rfl
    | handProtocolProgress =>
      simp only [hsound.shouldStoreHandProgress_eq (hhand trivial) (hformed.counted htype)]
      cases Js.shouldStoreHandProgress slots entry <;> rfl
    | handReady | handState =>
      simp only [(hsound.hand_eq (hhand trivial)).2]
      cases Js.belongsToProjectedHand slots entry <;> rfl
    | handActionConflict | handSettled | receiptConsensusProgress | receiptFinalized
    | handSessionInterrupted | handSessionResumed =>
      simp only [(hsound.hand_eq (hhand trivial)).2]
      cases Js.belongsToProjectedHand slots entry <;> rfl
    | _ => rfl

theorem Sound.observe (hsound : slots.Sound) (hformed : entry.WellFormed) :
    (Rust.observe slots entry).Sound := by
  unfold Rust.observe
  cases htype : entry.type? with
  | none => exact hsound
  | some eventType =>
    have hhand := hformed.ofHand eventType htype
    cases eventType with
    | identityReady =>
      refine Sound.insert ?_ (hformed.named htype)
      split
      · exact hsound.remove _
      · exact hsound
    | identityCleared => exact (hsound.remove _).remove _
    | poolJoined => exact (hsound.removeAll _).insert trivial
    | poolCancelled => exact hsound.removeAll _
    | roomEntered => exact ((hsound.removeAll _).removeAll _).insert trivial
    | roomSnapshot =>
      have hinserted : (slots.insert .roomSnapshot entry).Sound := hsound.insert trivial
      dsimp only
      split
      · exact hinserted.remove _
      · exact hinserted
    | safeLeaveCompleted => exact ((hsound.removeAll _).removeAll _).removeAll _
    | roomClosed => exact (hsound.removeAll _).removeAll _
    | handProtocolStarted =>
      dsimp only
      split
      · exact hsound
      · exact (hsound.removeAll _).insert (hhand trivial)
    | handProtocolProgress =>
      dsimp only
      split
      · exact hsound.insert ⟨hhand trivial, hformed.counted htype⟩
      · exact hsound
    | handReady | handState | handActionConflict | handSettled =>
      dsimp only
      split
      · exact (hsound.remove _).insert (hhand trivial)
      · exact hsound
    | receiptConsensusProgress | receiptFinalized | handSessionInterrupted
    | handSessionResumed =>
      dsimp only
      split
      · exact hsound.insert trivial
      · exact hsound
    | handLeft | handAbortedForLeave => exact hsound.removeAll _
    | other _ => exact hsound
    | _ => exact hsound.insert trivial

theorem Sound.observeAll_eq (hsound : slots.Sound) {entries : List RuntimeEvent}
    (hformed : ∀ entry ∈ entries, entry.WellFormed) :
    entries.foldl Rust.observe slots = entries.foldl Js.observe slots := by
  induction entries generalizing slots with
  | nil => rfl
  | cons entry entries ih =>
    rw [List.forall_mem_cons] at hformed
    rw [List.foldl_cons, List.foldl_cons, ← hsound.observe_eq hformed.1]
    exact ih (hsound.observe hformed.1) hformed.2

/-- After any events with the fields that the sidecar writes, the projections fill the same
slots with the same events. -/
theorem projections_agree (entries : List RuntimeEvent)
    (hformed : ∀ entry ∈ entries, entry.WellFormed) :
    entries.foldl Rust.observe Slots.empty =
      entries.foldl Js.observe Slots.empty :=
  Sound.empty.observeAll_eq hformed

/-- An event with the given fields. -/
def jsonEvent (sequence : Nat) (type : String) (fields : List (String × JsonValue)) :
    RuntimeEvent :=
  ⟨sequence, fun name => (("type", .string type) :: fields).lookup name⟩

/-- An event of the first hand of a table. -/
def handEvent (sequence : Nat) (type : String) (fields : List (String × JsonValue)) :
    RuntimeEvent :=
  jsonEvent sequence type (("table_id", .string "table") :: ("hand_number", .number 1) :: fields)

theorem handEvent_wellFormed {sequence : Nat} {type : String} {fields : List (String × JsonValue)}
    (hplayer : SidecarEventType.ofName type ≠ .identityReady)
    (hcounted : SidecarEventType.ofName type = .handProtocolProgress →
      (handEvent sequence type fields).Counted) : (handEvent sequence type fields).WellFormed where
  named h := absurd (Option.some.inj h) hplayer
  ofHand _ _ _ := ⟨"table", 1, rfl, rfl, by decide⟩
  counted h := hcounted (Option.some.inj h)

/-- A player who sees a hand start, the keys exchanged, the shuffle and the first state. -/
def firstHand : List RuntimeEvent :=
  [jsonEvent 1 "identity_ready" [("player_id", .string "player")],
    handEvent 2 "hand_protocol_started" [],
    handEvent 3 "hand_protocol_progress"
      [("phase", .string "key_exchange"), ("completed", .number 2)],
    handEvent 4 "hand_protocol_progress" [("phase", .string "shuffling"), ("completed", .number 1)],
    handEvent 5 "hand_state" []]

/-- The state of the hand takes the place of its progress, in both projections. -/
theorem projections_agree_first_hand :
    firstHand.foldl Rust.observe Slots.empty =
        firstHand.foldl Js.observe Slots.empty ∧
      [Slot.identity, .handStarted, .handProgress, .handState].map (fun slot =>
        (firstHand.foldl Rust.observe Slots.empty slot).map RuntimeEvent.sequence) =
        [some 1, some 2, none, some 5] := by
  refine ⟨projections_agree firstHand ?_, by decide +kernel⟩
  unfold firstHand
  simp only [List.forall_mem_cons, List.not_mem_nil, false_implies, implies_true, and_true]
  refine ⟨⟨fun _ => ⟨"player", rfl⟩, ?_, fun h => by cases h⟩, ?_, ?_, ?_, ?_⟩
  · intro eventType h hhand
    cases h
    exact hhand.elim
  · exact handEvent_wellFormed (by decide) fun h => absurd h (by decide)
  · exact handEvent_wellFormed (by decide) fun _ => ⟨"key_exchange", 2, rfl, rfl, by decide⟩
  · exact handEvent_wellFormed (by decide) fun _ => ⟨"shuffling", 1, rfl, rfl, by decide⟩
  · exact handEvent_wellFormed (by decide) fun h => absurd h (by decide)

/-- Two steps whose counts are negative numbers in the safe range. -/
def negativeCounts : List RuntimeEvent :=
  [handEvent 1 "hand_protocol_progress"
    [("phase", .string "shuffling"), ("completed", .number (-1))],
    handEvent 2 "hand_protocol_progress"
      [("phase", .string "shuffling"), ("completed", .number (-2))]]

/-- Rust reads a count that is no `u64` as zero and keeps the second step, JavaScript compares
the numbers and keeps the first. -/
theorem projections_differ_negative :
    (∀ entry ∈ negativeCounts, entry.Scoped) ∧
      (negativeCounts.foldl Rust.observe Slots.empty .handProgress).map
        RuntimeEvent.sequence = some 2 ∧
      (negativeCounts.foldl Js.observe Slots.empty .handProgress).map
        RuntimeEvent.sequence = some 1 := by
  refine ⟨?_, by decide +kernel, by decide +kernel⟩
  unfold negativeCounts
  simp only [List.forall_mem_cons, List.not_mem_nil, false_implies, implies_true, and_true]
  exact ⟨⟨"table", 1, rfl, rfl, by decide⟩, ⟨"table", 1, rfl, rfl, by decide⟩⟩

end Slots

end TokenHoldem.Ui
