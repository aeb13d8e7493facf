import Mathlib.Logic.Function.Basic
import TokenHoldem.Sidecar.TableSession.Moves

/-!
# Peers around one table

A *room* is a set of honest peers that run `TableSessionRuntime` on one table; a
*world* is the session of each of them with everything it has done so far. Peers
act one at a time in any order, with any clocks. A message may be delivered at
any time, any number of times or never; there are two networks:

- `Room.honest`: only what a peer of the room has sent is delivered;
- `Room.opened`: others send messages too, with any source and any content, but
  they cannot sign for a peer of the room.

`Room.Reach` says which worlds are reached, `Room.Reach.by_moves` is its
induction rule, one move of one session at a time.
-/

namespace TokenHoldem

open Library TableSession List FixedBytes Primitives Function

/-! ## Reading a history -/

namespace Effect

def signed? : Effect → Option Signed
  | .signed document => some document
  | _ => none

def sent? : Effect → Option RoomWireMessage
  | .sent message => some message
  | _ => none

def membershipVote? : Effect → Option SignedMembershipProposal
  | .signed (.membershipAcceptance proposal _) => some proposal
  | _ => none

def membership? : Effect → Option CertifiedMembership
  | .activatedMembership _ confirmed => some confirmed
  | _ => none

end Effect

variable (history : List Effect)

/-- Everything that was signed. -/
def signedDocuments : List Signed := history.filterMap Effect.signed?

/-- Everything that was sent. -/
def sentMessages : List RoomWireMessage := history.filterMap Effect.sent?

/-- The membership proposals that were accepted with a signature. -/
def votedMemberships : List SignedMembershipProposal :=
  history.filterMap Effect.membershipVote?

/-- The memberships that were activated. -/
def activatedMemberships : List CertifiedMembership :=
  history.filterMap Effect.membership?

/-- The device an acceptance claims to be signed by. -/
def Acceptance.signer {ballot : Ballot} (acceptance : Acceptance ballot) : DevicePublicKey :=
  acceptance.attestation.certificate.devicePublicKey

/-! ## Worlds -/

structure Room (P : Primitives) where
  Peer : Type
  decEq : DecidableEq Peer
  identity : Peer → LocalIdentity
  /-- Every device is one peer. -/
  device_injective : Injective fun peer => (identity peer).device.publicKey P
  tableId : TableId
  level : StakeLevel

/-- A peer: its session, if it has one, and what it has done. -/
structure Node where
  session : Option ActiveSession
  history : List Effect

namespace Room

variable {P : Primitives} (room : Room P)

instance instDecidableEqPeer : DecidableEq room.Peer := room.decEq

/-- The device key of a peer. -/
def key (peer : room.Peer) : DevicePublicKey := (room.identity peer).device.publicKey P

abbrev World := room.Peer → Node

/-- What each peer has done. -/
abbrev Log := room.Peer → List Effect

/-- No peer has done anything yet. -/
def start : room.World := fun _ => ⟨none, []⟩

variable {room}

def log (w : room.World) : room.Log := fun peer => (w peer).history

/-- The log after more effects of one peer. -/
def Log.add (log : room.Log) (peer : room.Peer) (effects : List Effect) : room.Log :=
  update log peer (log peer ++ effects)

/-- The world after more effects of one peer, which leave it a session or none. -/
def put (w : room.World) (peer : room.Peer) (session : Option ActiveSession)
    (effects : List Effect) : room.World :=
  update w peer ⟨session, (w peer).history ++ effects⟩

/-- A peer that carries out a command. -/
def act (w : room.World) (peer : room.Peer) (command : Command) : room.World :=
  let result := TableSession.step P (room.identity peer) command (w peer).session
  put w peer result.1 result.2

/-- The effects of a command. -/
def effects (w : room.World) (peer : room.Peer) (command : Command) : List Effect :=
  (TableSession.step P (room.identity peer) command (w peer).session).2

/-- An acceptance that verifies under the key of a peer was signed by it. -/
def Unforged (log : room.Log) {ballot : Ballot} (acceptance : Acceptance ballot) : Prop :=
  ∀ peer, room.key peer = acceptance.signer → acceptance.SignatureHolds P →
    acceptance.signedBytes P ∈ (signedDocuments (log peer)).map (Signed.bytes P)

/-- Which messages the network may deliver, and as coming from whom. -/
abbrev Network (room : Room P) := room.Log → Option PeerId → RoomWireMessage → Prop

/-- Only what a peer has sent is delivered. -/
def honest (room : Room P) : Network room := fun log source message =>
  ∃ sender, source = some (room.identity sender).peerId ∧ message ∈ sentMessages (log sender)

/-- Anybody may send anything that needs no forged acceptance. -/
def opened (room : Room P) : Network room := fun log source message =>
  room.honest log source message ∨
    (∀ a ∈ message.membershipAcceptances, Unforged log a) ∧
      ∀ a ∈ message.rosterAcceptances, Unforged log a

/-- The commands a peer of the room may carry out. -/
def Admissible (network : Network room) (log : room.Log) : Command → Prop
  | .create tableId _ ticket _ _ => tableId = room.tableId ∧ ticket.level = room.level
  | .join tableId _ _ _ ticket _ _ => tableId = room.tableId ∧ ticket.level = room.level
  | .message source payload _ _ => network log source payload
  | _ => True

/-- A condition on an effect of a peer, given the log right before it. -/
abbrev Condition (room : Room P) := room.Log → room.Peer → Effect → Prop

/-- Every effect of a call meets the condition. -/
def Safe (safe : Condition room) (peer : room.Peer) : room.Log → List Effect → Prop
  | _, [] => True
  | log, effect :: effects =>
    safe log peer effect ∧ Safe safe peer (log.add peer [effect]) effects

/-- The worlds reached by any number of commands whose effects meet a condition. -/
inductive Reach (network : Network room) (safe : Condition room) : room.World → Prop
  | start : Reach network safe room.start
  | step {w : room.World} (peer : room.Peer) (command : Command) (reached : Reach network safe w)
      (admissible : Admissible network (log w) command)
      (met : Safe safe peer (log w) (effects w peer command)) :
      Reach network safe (act w peer command)

/-- The condition that rules nothing out. -/
def anything (room : Room P) : Condition room := fun _ _ _ => True

instance instDecidableAnything (log : room.Log) (peer : room.Peer) (effect : Effect) :
    Decidable (room.anything log peer effect) := .isTrue trivial

/-! ## Logs grow -/

section

variable {log : room.Log} {peer : room.Peer} {w : room.World} {safe : Condition room}
  {ballot : Ballot}

@[simp] theorem Log.add_self (log : room.Log) (peer : room.Peer) (effects : List Effect) :
    log.add peer effects peer = log peer ++ effects := by
  simp [Log.add]

variable {other : room.Peer} {effects history : List Effect} {message : RoomWireMessage}

theorem Log.add_of_ne (h : other ≠ peer) (effects : List Effect) :
    log.add peer effects other = log other := by
  rw [Log.add, update_of_ne h]

@[simp] theorem Log.add_nil (log : room.Log) (peer : room.Peer) : log.add peer [] = log := by
  simp [Log.add]

theorem Log.add_append (log : room.Log) (peer : room.Peer) (effects more : List Effect) :
    log.add peer (effects ++ more) = (log.add peer effects).add peer more := by
  simp [Log.add]

theorem Log.mem_add {effect : Effect} :
    effect ∈ log.add peer effects other ↔ effect ∈ log other ∨ other = peer ∧ effect ∈ effects := by
  by_cases h : other = peer
  · subst h
    simp
  · simp [Log.add_of_ne h, h]

@[simp] theorem log_put (session : Option ActiveSession) (effects : List Effect) :
    Room.log (put w peer session effects) = (Room.log w).add peer effects := by
  funext other
  by_cases h : other = peer
  · subst h
    simp [Room.log, put]
  · simp [Room.log, put, Log.add_of_ne h, update_of_ne h]

theorem put_put (s t : Option ActiveSession) (effects more : List Effect) :
    put (put w peer s effects) peer t more = put w peer t (effects ++ more) := by
  simp [put]

theorem put_self {session : Option ActiveSession} (h : (w peer).session = session) :
    put w peer session [] = w := by
  subst h
  simp [put]

@[simp] theorem put_session (session : Option ActiveSession) (effects : List Effect) :
    (put w peer session effects peer).session = session := by
  simp [put]

theorem mem_signedDocuments {document : Signed} :
    document ∈ signedDocuments history ↔ .signed document ∈ history := by
  unfold signedDocuments
  rw [mem_filterMap]
  constructor
  · rintro ⟨effect, hmem, heffect⟩
    cases effect <;> cases heffect
    exact hmem
  · exact fun hmem => ⟨_, hmem, rfl⟩

theorem mem_sentMessages : message ∈ sentMessages history ↔ .sent message ∈ history := by
  unfold sentMessages
  rw [mem_filterMap]
  constructor
  · rintro ⟨effect, hmem, heffect⟩
    cases effect <;> cases heffect
    exact hmem
  · exact fun hmem => ⟨_, hmem, rfl⟩

theorem mem_votedMemberships {signed : SignedMembershipProposal} :
    signed ∈ votedMemberships history ↔
      ∃ acceptance, .signed (.membershipAcceptance signed acceptance) ∈ history := by
  unfold votedMemberships
  rw [mem_filterMap]
  constructor
  · rintro ⟨effect, hmem, heffect⟩
    unfold Effect.membershipVote? at heffect
    split at heffect <;> cases heffect
    exact ⟨_, hmem⟩
  · exact fun ⟨_, hmem⟩ => ⟨_, hmem, rfl⟩

theorem mem_activatedMemberships {confirmed : CertifiedMembership} :
    confirmed ∈ activatedMemberships history ↔
      ∃ before, .activatedMembership before confirmed ∈ history := by
  unfold activatedMemberships
  rw [mem_filterMap]
  constructor
  · rintro ⟨effect, hmem, heffect⟩
    unfold Effect.membership? at heffect
    split at heffect <;> cases heffect
    exact ⟨_, hmem⟩
  · exact fun ⟨_, hmem⟩ => ⟨_, hmem, rfl⟩

/-- Any two things that peers have done are related. -/
def Log.Pairwise {α : Type} (read : Effect → Option α)
    (R : room.Peer × α → room.Peer × α → Prop) (log : room.Log) : Prop :=
  ∀ p q x y, x ∈ (log p).filterMap read → y ∈ (log q).filterMap read → R (p, x) (q, y)

/-- What is read off a history grows with it. -/
theorem Log.mem_filterMap_add {α : Type} {read : Effect → Option α} {x : α} :
    x ∈ (log.add peer effects other).filterMap read ↔
      x ∈ (log other).filterMap read ∨ other = peer ∧ x ∈ effects.filterMap read := by
  simp only [mem_filterMap, Log.mem_add]
  grind

/-- One more thing done has to be related to everything before it. -/
theorem Log.Pairwise.add {α : Type} {read : Effect → Option α}
    {R : room.Peer × α → room.Peer × α → Prop} (h : Log.Pairwise read R log)
    (refl : ∀ x, R x x) (symm : ∀ x y, R x y → R y x) {effect : Effect}
    (new : ∀ x ∈ read effect, ∀ q, ∀ y ∈ (log q).filterMap read, R (q, y) (peer, x)) :
    Log.Pairwise read R (log.add peer [effect]) := by
  intro p q x y hx hy
  have single : ∀ z ∈ [effect].filterMap read, z ∈ read effect := by
    intro z hz
    obtain ⟨_, hmem, hread⟩ := mem_filterMap.mp hz
    exact mem_singleton.mp hmem ▸ hread
  rcases Log.mem_filterMap_add.mp hx with oldx | ⟨hp, newx⟩ <;>
    rcases Log.mem_filterMap_add.mp hy with oldy | ⟨hq, newy⟩
  · exact h p q x y oldx oldy
  · exact hq ▸ new y (single y newy) p x oldx
  · exact hp ▸ symm _ _ (new x (single x newx) q y oldy)
  · rw [hp, hq, Option.some.inj ((single x newx).symm.trans (single y newy))]
    exact refl _

theorem Unforged.add {a : Acceptance ballot} (h : Unforged log a) (effects : List Effect) :
    Unforged (log.add peer effects) a := by
  intro other hkey hholds
  obtain ⟨document, hdocument, hbytes⟩ := mem_map.mp (h other hkey hholds)
  refine mem_map.mpr ⟨document, ?_, hbytes⟩
  rw [mem_signedDocuments] at hdocument ⊢
  exact Log.mem_add.mpr (.inl hdocument)

theorem opened_add {source : Option PeerId} (h : room.opened log source message)
    (effects : List Effect) : room.opened (log.add peer effects) source message := by
  rcases h with ⟨sender, hsource, hsent⟩ | ⟨hmemberships, hrosters⟩
  · refine .inl ⟨sender, hsource, ?_⟩
    rw [mem_sentMessages] at hsent ⊢
    exact Log.mem_add.mpr (.inl hsent)
  · exact .inr ⟨fun a ha => (hmemberships a ha).add effects,
      fun a ha => (hrosters a ha).add effects⟩

theorem safe_append {more : List Effect} : Safe safe peer log (effects ++ more) ↔
      Safe safe peer log effects ∧ Safe safe peer (log.add peer effects) more := by
  induction effects generalizing log with
  | nil => simp [Safe]
  | cons effect effects ih =>
    rw [cons_append, Safe, Safe, ih, ← Log.add_append, singleton_append, and_assoc]

end

/-! ## Induction on effects and on moves -/

variable {network : Network room} {safe : Condition room} {w : room.World}

/-- What holds of the empty log and is kept by every effect that meets the
condition holds of the log of every world reached. -/
theorem Reach.by_effects {I : room.Log → Prop} (start : I fun _ => [])
    (effect : ∀ log peer effect, I log → safe log peer effect → I (log.add peer [effect]))
    (h : Reach network safe w) : I (log w) := by
  have run : ∀ (peer : room.Peer) (effects : List Effect) (log : room.Log), I log →
      Safe safe peer log effects → I (log.add peer effects) := by
    intro peer effects
    induction effects with
    | nil => exact fun log hlog _ => (Log.add_nil log peer).symm ▸ hlog
    | cons first rest ih =>
      intro log hlog met
      rw [← singleton_append, Log.add_append]
      exact ih _ (effect log peer first hlog met.1) met.2
  induction h with
  | start => exact start
  | @step w peer command _ _ met ih =>
    unfold act
    rw [log_put]
    exact run peer _ _ ih met

theorem Admissible.entered {log : room.Log} {command : Command} {tableId : TableId}
    {level : StakeLevel} (h : Admissible network log command)
    (enters : command.Enters tableId level) : room.tableId = tableId ∧ room.level = level := by
  cases command <;>
    first | exact enters.elim | exact ⟨h.1.symm.trans enters.1, h.2.symm.trans enters.2⟩

theorem Admissible.received {log : room.Log} {command : Command}
    (h : Admissible network log command) :
    ∀ message ∈ command.received, ∃ source, network log source message := by
  intro message hmessage
  rw [Option.mem_def] at hmessage
  cases command with
  | message source payload =>
    obtain rfl := Option.some.inj hmessage
    exact ⟨source, h⟩
  | _ => simp [Command.received] at hmessage

/-- What holds at the start and is kept by every way to enter, every move and
every way to drop a session holds in every world reached. -/
theorem Reach.by_moves {I : room.World → Prop} (start : I room.start)
    (enter : ∀ w peer active effects, I w →
      Entry P (room.identity peer) room.tableId room.level active effects →
      Safe safe peer (log w) effects → I (put w peer (some active) effects))
    (move : ∀ w peer received active effects next, I w → (w peer).session = some active →
      (∀ message ∈ received, ∃ source, room.opened (log w) source message) →
      Move P (room.identity peer) received active effects next →
      Safe safe peer (log w) effects → I (put w peer (some next) effects))
    (drop : ∀ w peer, I w → I (put w peer none [])) (h : Reach room.opened safe w) : I w := by
  induction h with
  | start => exact start
  | @step w peer command _ admissible met ih =>
    unfold effects at met
    unfold act
    rcases TableSession.step_moves (P := P) command (w peer).session with
      ⟨tableId, level, active, effects, enters, entry, hstep⟩ |
      ⟨active, next, effects, hactive, moves, hstep⟩ | hstep | hstep
    · rw [hstep] at met ⊢
      obtain ⟨rfl, rfl⟩ := admissible.entered enters
      exact enter w peer active effects ih entry met
    · rw [hstep] at met ⊢
      clear hstep
      induction moves with
      | refl => exact (put_self hactive).symm ▸ ih
      | @tail b c effects more _ last run =>
        obtain ⟨met, last_met⟩ := safe_append.mp met
        rw [← put_put (some b)]
        refine move _ peer command.received b more c (run met) (put_session ..) ?_ last ?_
        · rw [log_put]
          intro message hmessage
          obtain ⟨source, hopened⟩ := admissible.received message hmessage
          exact ⟨source, opened_add hopened effects⟩
        · rwa [log_put]
    · rw [hstep]
      exact (put_self rfl).symm ▸ ih
    · rw [hstep]
      exact drop w peer ih

/-- What holds of a peer that has done nothing and is kept by every way to enter,
every move and every way to drop a session holds of every peer: of what it has
done and of the session it has. -/
theorem Reach.by_peers {I : List Effect → Option ActiveSession → Prop} (start : I [] none)
    (enter : ∀ peer history session active effects, I history session →
      Entry P (room.identity peer) room.tableId room.level active effects →
      I (history ++ effects) (some active))
    (move : ∀ log peer received history active effects next, I history (some active) →
      Move P (room.identity peer) received active effects next →
      Safe safe peer log effects → I (history ++ effects) (some next))
    (drop : ∀ history session, I history session → I history none) (h : Reach room.opened safe w)
    (peer : room.Peer) : I (w peer).history (w peer).session := by
  -- the peer that acts is looked at, the others stay as they are
  have step : ∀ (w : room.World) (peer : room.Peer) (session : Option ActiveSession)
      (effects : List Effect), (∀ peer, I (w peer).history (w peer).session) →
      I ((w peer).history ++ effects) session → ∀ other,
      I (put w peer session effects other).history (put w peer session effects other).session := by
    intro w peer session effects hw hpeer other
    by_cases hother : other = peer
    · subst hother
      simpa [put] using hpeer
    · rw [put, update_of_ne hother]
      exact hw other
  refine Reach.by_moves (I := fun w => ∀ peer, I (w peer).history (w peer).session)
    ?_ ?_ ?_ ?_ h peer
  · exact fun _ => start
  · intro w peer active effects hw entry _
    exact step w peer _ effects hw (enter peer _ _ active effects (hw peer) entry)
  · intro w peer received active effects next hw hactive _ hmove met
    have hpeer := hw peer
    rw [hactive] at hpeer
    exact step w peer _ effects hw
      (move (log w) peer received _ active effects next hpeer hmove met)
  · intro w peer hw
    refine step w peer none [] hw ?_
    rw [append_nil]
    exact drop _ _ (hw peer)

/-- What every way to enter establishes of the session and of what was done, and
every move keeps, holds of all sessions and all histories. -/
theorem Reach.by_sessions {I : ActiveSession → Prop} {J : Effect → Prop}
    (enter : ∀ peer active effects,
      Entry P (room.identity peer) room.tableId room.level active effects →
      I active ∧ ∀ effect ∈ effects, J effect)
    (move : ∀ log peer received active effects next, I active →
      Move P (room.identity peer) received active effects next →
      Safe safe peer log effects → I next ∧ ∀ effect ∈ effects, J effect)
    (h : Reach room.opened safe w) : (∀ peer active, (w peer).session = some active → I active) ∧
      ∀ peer, ∀ effect ∈ (w peer).history, J effect := by
  have peers := h.by_peers (I := fun history session =>
    (∀ active, session = some active → I active) ∧ ∀ effect ∈ history, J effect) ?_ ?_ ?_ ?_
  · exact ⟨fun peer => (peers peer).1, fun peer => (peers peer).2⟩
  · exact ⟨fun _ h => (nomatch h), fun _ h => absurd h not_mem_nil⟩
  · intro peer history session active effects hold entry
    obtain ⟨hactive, heffects⟩ := enter peer active effects entry
    exact ⟨fun _ h => Option.some.inj h ▸ hactive,
      forall_mem_append.mpr ⟨hold.2, heffects⟩⟩
  · intro log peer received history active effects next hold hmove met
    obtain ⟨hnext, heffects⟩ :=
      move log peer received active effects next (hold.1 active rfl) hmove met
    exact ⟨fun _ h => Option.some.inj h ▸ hnext, forall_mem_append.mpr ⟨hold.2, heffects⟩⟩
  · exact fun history session hold => ⟨fun _ h => (nomatch h), hold.2⟩

/-! ## Playing a script -/

/-- A peer acts on its own, or is handed the last message of some kind that
another one has sent. -/
inductive Turn (room : Room P) where
  | act (peer : room.Peer) (command : Command)
  | deliver (sender receiver : room.Peer) (pick : RoomWireMessage → Bool) (now : UInt64)
      (nowMonotonic : Nat)

section

variable {safe : Condition room} [∀ log peer effect, Decidable (safe log peer effect)]

instance instDecidableSafe (peer : room.Peer) : ∀ (log : room.Log) (effects : List Effect),
    Decidable (Safe safe peer log effects)
  | _, [] => .isTrue trivial
  | log, effect :: effects =>
    haveI := instDecidableSafe peer (log.add peer [effect]) effects
    inferInstanceAs (Decidable (safe log peer effect ∧ _))

/-- Whether a command other than a delivery is one of this room's. -/
def isLocal (room : Room P) : Command → Bool
  | .create tableId _ ticket _ _ => tableId = room.tableId ∧ ticket.level = room.level
  | .join tableId _ _ _ ticket _ _ => tableId = room.tableId ∧ ticket.level = room.level
  | .message _ _ _ _ => false
  | _ => true

/-- The command of a turn, if it can be taken. -/
def Turn.command (w : room.World) : Turn room → Option (room.Peer × Command)
  | .act peer command => if room.isLocal command then some (peer, command) else none
  | .deliver sender receiver pick now nowMonotonic =>
    ((sentMessages (log w sender)).reverse.find? pick).map fun message =>
      (receiver, .message (some (room.identity sender).peerId) message now nowMonotonic)

variable (safe) in
/-- Takes the turns one after the other, as long as the condition is met. -/
def play (w : room.World) : List (Turn room) → Option room.World
  | [] => some w
  | turn :: turns =>
    match turn.command w with
    | none => none
    | some (peer, command) =>
      if Safe safe peer (log w) (effects w peer command) then play (act w peer command) turns
      else none

theorem Turn.command_admissible {w : room.World} {turn : Turn room} {peer : room.Peer}
    {command : Command} (h : turn.command w = some (peer, command)) :
    Admissible room.honest (log w) command := by
  cases turn with
  | act actor local' =>
    simp only [Turn.command, Option.ite_none_right_eq_some, Option.some.injEq, Prod.mk.injEq] at h
    obtain ⟨hlocal, rfl, rfl⟩ := h
    cases local' <;> simp_all [isLocal, Admissible]
  | deliver sender receiver pick now nowMonotonic =>
    simp only [Turn.command, Option.map_eq_some_iff, Prod.mk.injEq] at h
    obtain ⟨message, hfind, rfl, rfl⟩ := h
    exact ⟨sender, rfl, mem_reverse.mp (mem_of_find?_eq_some hfind)⟩

theorem reach_of_play {w w' : room.World} {turns : List (Turn room)}
    (hw : Reach room.honest safe w) (h : play safe w turns = some w') :
    Reach room.honest safe w' := by
  induction turns generalizing w with
  | nil => exact Option.some.inj h ▸ hw
  | cons turn turns ih =>
    rw [play] at h
    cases hcommand : turn.command w with
    | none => simp [hcommand] at h
    | some taken =>
      obtain ⟨peer, command⟩ := taken
      simp only [hcommand, Option.ite_none_right_eq_some] at h
      exact ih (.step peer command hw (Turn.command_admissible hcommand) h.1) h.2

/-- A script that can be played to its end reaches a world in which what it is
checked for holds. -/
theorem exists_reach_of_play {turns : List (Turn room)} {check : room.World → Bool}
    (h : (play safe room.start turns).any check = true) :
    ∃ w, Reach room.honest safe w ∧ check w = true := by
  cases hplay : play safe room.start turns with
  | none => simp [hplay] at h
  | some w =>
    rw [hplay] at h
    exact ⟨w, reach_of_play .start hplay, h⟩

/-- The same for the session of a peer. -/
theorem exists_session_of_play (turns : List (Turn room)) {peer : room.Peer}
    {holds : ActiveSession → Prop} [DecidablePred holds]
    (h : (play safe room.start turns).any
      (fun w => decide (∃ active ∈ (w peer).session, holds active)) = true) :
    ∃ w active, Reach room.honest safe w ∧ (w peer).session = some active ∧ holds active := by
  obtain ⟨w, hreach, hcheck⟩ := exists_reach_of_play h
  obtain ⟨active, hactive, hholds⟩ := of_decide_eq_true hcheck
  exact ⟨w, active, hreach, hactive, hholds⟩

end

/-- Whatever happens when only peers of the room send also happens when others do. -/
theorem Reach.opened_of_honest (h : Reach room.honest safe w) : Reach room.opened safe w := by
  induction h with
  | start => exact .start
  | @step w peer command _ admissible met ih =>
    refine .step peer command ih ?_ met
    cases command with
    | message source payload => exact .inl admissible
    | _ => exact admissible

/-! ## A room to run -/

section

/-- The kinds of messages a script picks. -/
def isJoinIntent : RoomWireMessage → Bool
  | .joinIntent _ => true
  | _ => false

def isMembershipProposal : RoomWireMessage → Bool
  | .membershipProposal _ => true
  | _ => false

def isMembershipAcceptance : RoomWireMessage → Bool
  | .membershipAcceptance _ => true
  | _ => false

def isCertifiedMembership : RoomWireMessage → Bool
  | .certifiedMembership _ => true
  | _ => false

def isRosterProposal : RoomWireMessage → Bool
  | .rosterProposal _ => true
  | _ => false

def isRosterAcceptance : RoomWireMessage → Bool
  | .rosterAcceptance _ => true
  | _ => false

/-- The certificate of device `k`, valid all the time. -/
def plainCertificate (k : Nat) : DeviceCertificate :=
  let unsigned : DeviceCertificate :=
    { version := deviceCertificateVersion
      playerId := playerIdFromRootKey .plain (ofNat (100 + k))
      rootPublicKey := ofNat (100 + k), devicePublicKey := Identifier.ofNat k
      label := "device", issuedAtUnixMs := 1, expiresAtUnixMs := 1000000000000
      rootSignature := ofNat 0 }
  { unsigned with
    rootSignature := plain.sign (ofNat (100 + k))
      unsigned.canonicalUnsignedBytes }

def plainIdentity (k : Nat) : LocalIdentity :=
  ⟨⟨ofNat k⟩, plainCertificate k, ⟨k⟩⟩

/-- Four peers at a table with blinds 1 and 2. -/
def plainRoom : Room .plain where
  Peer := Fin 4
  decEq := inferInstance
  identity peer := plainIdentity (peer.val + 1)
  device_injective := by
    intro a b h
    revert a b
    decide +kernel
  tableId := Identifier.ofNat 77
  level := oneTwoLevel

instance instFintypePlainPeer : Fintype plainRoom.Peer := inferInstanceAs (Fintype (Fin 4))

instance instNeZeroPlainPeers : NeZero 4 := ⟨by decide⟩

/-- The ticket a peer enters with, good for half an hour from `now` on. -/
def plainTicket (peer : Fin 4) (now : UInt64) : PoolTicket :=
  let unsigned : PoolTicket :=
    { version := poolDocumentVersion, playerId := (plainRoom.identity peer).certificate.playerId
      devicePublicKey := plainRoom.key peer
      sessionPeerId := plain.peerIdToBytes (plainRoom.identity peer).peerId
      sessionAddresses := [plain.peerIdToBytes (plainRoom.identity peer).peerId]
      level := plainRoom.level, requestedBuyIn := chips 40, createdAtUnixMs := now
      expiresAtUnixMs := now + sessionTicketLifetimeMs, nonce := ofNat 0
      attestation := ⟨(plainRoom.identity peer).certificate, ofNat 0,
        ofNat 0⟩ }
  let payloadHash := plain.hash unsigned.canonicalUnsignedBytes
  { unsigned with
    attestation := ⟨(plainRoom.identity peer).certificate, payloadHash,
      (plainRoom.identity peer).device.sign .plain
        (canonicalSigningBytes poolTicketDomain payloadHash)⟩ }

/-- The wall clock when the runs begin. -/
def plainEpoch : UInt64 := 1000000

/-- A peer creates the table. -/
def Turn.create (peer : Fin 4) : Turn plainRoom :=
  .act peer (.create plainRoom.tableId (plainRoom.identity peer).certificate.playerId
    (plainTicket peer plainEpoch) plainEpoch (ofNat 0))

/-- A peer joins the table of another. -/
def Turn.join (peer creator : Fin 4) : Turn plainRoom :=
  let address := plain.peerIdToBytes (plainRoom.identity creator).peerId
  .act peer (.join plainRoom.tableId (plainRoom.identity creator).certificate.playerId address
    [address] (plainTicket peer plainEpoch) plainEpoch (ofNat 0))

/-- A tick, some milliseconds after the beginning. -/
def Turn.tick (peer : Fin 4) (elapsed : Nat) : Turn plainRoom :=
  .act peer (.tick [plain.peerIdToBytes (plainRoom.identity peer).peerId]
    (plainEpoch + UInt64.ofNat elapsed) elapsed ⟨ofNat 1, ofNat 2⟩)

/-- A delivery, some milliseconds after the beginning. -/
def Turn.hand (sender receiver : Fin 4) (pick : RoomWireMessage → Bool) (elapsed : Nat) :
    Turn plainRoom :=
  .deliver sender receiver pick (plainEpoch + UInt64.ofNat elapsed) elapsed

end

end Room

/-- What a call that succeeds makes of a session. -/
def SessionM.after (call : SessionM Unit) (active : ActiveSession) :
    Except SessionError ActiveSession :=
  match call.run ⟨active, []⟩ with
  | .ok _ t => .ok t.active
  | .error e _ => .error e

end TokenHoldem
