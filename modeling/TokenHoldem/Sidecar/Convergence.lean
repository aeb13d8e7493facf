import Mathlib.Data.Finset.Max
import Mathlib.Data.List.Induction
import TokenHoldem.Sidecar.Endpoints
import TokenHoldem.Sidecar.TableSession.World

/-!
# Players alone at their tables

A player who is alone at a table moves to an advertised table that has members, or a
lower id. Several such players may decide at once, each on the advertisements it has;
`singleton_moves_acyclic` says that they do not all move. Who opens a table when there is
none to join is a matter of rank (`ranking_has_lowest`).
-/

namespace TokenHoldem

open Library List Room

/-- Peers with a table of their own. The advertisements of these tables that they hold,
old ones too, are of one member. -/
structure Singletons (ι : Type) where
  swarm : ι → PoolSwarm
  pool : ι → ActivePool
  now : ι → UInt64
  own : ι → LocalTableAdvertisement
  advertised : ∀ i, (pool i).localAdvertisement = some (own i)
  alone : ∀ i j, ∀ advertisement ∈ values (pool i).advertisements,
    advertisement.tableId = (own j).tableId → advertisement.memberCount.toNat < 2

variable {P : Primitives} {ι : Type} {peers : Singletons ι} {i j : ι}

/-- One of the peers decides to move to the table of another. -/
def Singletons.MovesTo (P : Primitives) (peers : Singletons ι) (i j : ι) : Prop :=
  ∃ advertisement, decideSingletonConvergence P (peers.swarm i) (peers.pool i) (peers.now i)
      = .ok (some (.join advertisement)) ∧ advertisement.tableId = (peers.own j).tableId

theorem Singletons.MovesTo.lt (h : peers.MovesTo P i j) :
    (peers.own j).tableId < (peers.own i).tableId := by
  obtain ⟨advertisement, decided, same⟩ := h
  rw [decideSingletonConvergence, peers.advertised i] at decided
  dsimp only at decided
  split at decided
  · cases decided
  split at decided
  · cases decided
  rename_i selected hselected
  obtain ⟨_, -, decided⟩ := bind_eq_ok.mp decided
  cases decided
  obtain ⟨hjoin, hbetter⟩ := mem_filter.mp (selectTableAdvertisement_eq_some hselected).1
  have hfew := peers.alone i j _ (mem_filter.mp hjoin).1 same
  rw [← same]
  exact (of_decide_eq_true hbetter).2.resolve_left hfew.not_ge

/-- The moves between the tables do not run in a circle, and somebody stays. -/
theorem singleton_moves_acyclic [Fintype ι] [Inhabited ι] (peers : Singletons ι) :
    (∀ i, ¬Relation.TransGen (peers.MovesTo P) i i) ∧ ∃ i, ∀ j, ¬peers.MovesTo P i j := by
  constructor
  · intro i cycle
    have hlt : ∀ {j}, Relation.TransGen (peers.MovesTo P) i j →
        (peers.own j).tableId < (peers.own i).tableId := by
      intro j moves
      induction moves with
      | single move => exact move.lt
      | tail _ move ih => exact move.lt.trans ih
    exact lt_irrefl _ (hlt cycle)
  · obtain ⟨i, -, hleast⟩ := Finset.univ.exists_min_image (fun i => (peers.own i).tableId)
      Finset.univ_nonempty
    exact ⟨i, fun j move => (hleast j (Finset.mem_univ j)).not_gt move.lt⟩

/-- The table of a peer who is alone at it. -/
def loneTable (peer : Fin 4) : LocalTableAdvertisement where
  tableId := Identifier.ofNat (peer.val + 1)
  memberCount := 1
  waitingCount := 0
  lifecycle := .waiting
  membershipVersion := 1
  membershipHash := FixedBytes.ofNat 0
  creatorPlayerId := (plainIdentity (peer.val + 1)).certificate.playerId
  convergenceEligible := true

/-- What such a peer tells the pool. -/
def loneAdvertisement (peer : Fin 4) : Option TableAdvertisement :=
  let identity := plainIdentity (peer.val + 1)
  (issueAdvertisement .plain (plainTicket peer plainEpoch) (loneTable peer)
    [Primitives.plain.peerIdToBytes identity.peerId] identity.device identity.certificate
    plainEpoch (FixedBytes.ofNat 0)).toOption

/-- The pool of such a peer, who has heard of one other peer. -/
def lonePool (peer heard : Fin 4) : ActivePool where
  localTicket := plainTicket peer plainEpoch
  tickets := ∅
  advertisements := (loneAdvertisement heard).elim ∅ fun advertisement =>
    (∅ : Std.TreeMap TableId TableAdvertisement).insert advertisement.tableId advertisement
  rejectedTables := []
  explicitPeers := []
  searchStartedAt := 0
  phase := .inRoom
  localAdvertisement := some (loneTable peer)
  lastTicketPublishedAt := none
  lastAdvertisementPublishedAt := none

/-- Three peers in a circle, each of whom has heard of the one before it. -/
def circle : Singletons (Fin 3) where
  swarm peer := ⟨⟨peer.val + 1⟩, fun _ => false⟩
  pool peer := lonePool peer.castSucc (peer + 2).castSucc
  now _ := plainEpoch
  own peer := loneTable peer.castSucc
  advertised _ := rfl
  alone := by decide +kernel

/-- The third peer moves to the second table and the second peer to the first, and the first
one stays, although it has heard of the third. -/
theorem singleton_moves_acyclic_circle :
    circle.MovesTo .plain 2 1 ∧ circle.MovesTo .plain 1 0 ∧
      (∀ i, ¬Relation.TransGen (circle.MovesTo .plain) i i) ∧
      ∃ i, ∀ j, ¬circle.MovesTo .plain i j := by
  have hmoves : ∀ peer : Fin 2, ∃ advertisement ∈ loneAdvertisement peer.castSucc.castSucc,
      decideSingletonConvergence .plain (circle.swarm peer.succ) (circle.pool peer.succ)
        (circle.now peer.succ) = .ok (some (.join advertisement)) ∧
      advertisement.tableId = (circle.own peer.castSucc).tableId := by
    decide +kernel
  exact ⟨(hmoves 1).imp fun _ h => h.2, (hmoves 0).imp fun _ h => h.2,
    singleton_moves_acyclic circle⟩

/-! ## The ranking of tickets -/

/-- Of the tickets of a player that verify and are of the level, the one with the lowest id
was found. -/
def Lowest (P : Primitives) (level : StakeLevel) (now : UInt64) (tickets : List PoolTicket)
    (player : PlayerId) (found : Option PoolTicket) : Prop :=
  let counts (t : PoolTicket) := isOk (t.verifyAt P now) ∧ t.level = level ∧ t.playerId = player
  (∀ t ∈ found, t ∈ tickets ∧ counts t) ∧ ∀ u ∈ tickets, counts u → ∃ t ∈ found, t.id P ≤ u.id P

/-- In whatever order the tickets come, the ranking has the lowest one of each player. -/
theorem ranking_has_lowest (level : StakeLevel) (now : UInt64) (tickets : List PoolTicket)
    (player : PlayerId) :
    Lowest P level now tickets player (ticketsByPlayer P level now tickets)[player]? := by
  induction tickets using reverseRecOn with
  | nil => simp [Lowest, ticketsByPlayer]
  | append_singleton tickets ticket ih =>
    rw [ticketsByPlayer, foldl_append, ← ticketsByPlayer, foldl_cons, foldl_nil]
    unfold Lowest at *
    split
    · grind
    · split
      · -- the first one of its player
        rw [getElem?_insert_ite]
        grind
      · split
        · rw [getElem?_insert_ite]
          grind
        · grind

end TokenHoldem
