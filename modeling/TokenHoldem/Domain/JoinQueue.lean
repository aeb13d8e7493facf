import TokenHoldem.Domain.Seating

/-!
# The queue of joins

`queue_joins` of `token-holdem-domain/src/membership.rs` adds candidates to the queue,
sorts it by claim and drops the candidates whose player or device is already there.

- `greedyQueue` — the queue in which a candidate is dropped only for a seated member or
  for a candidate that is retained itself;
- `mem_codeQueue_iff` — whom the code retains: a candidate who is dropped for its device
  still takes the place of its player;
- `queueJoins_greedy_iff` — the two queues are the same exactly when no candidate is
  shadowed in this way.
-/

namespace TokenHoldem

open Library List TableMember Identifier

namespace TableMembership

/-! ## The code -/

/-- `waiting.retain(..)` in `deduplicate_waiting`, with the sets of players and devices
met so far. The player is inserted before the device is looked at. -/
def retainFresh (seatedPlayers : List PlayerId) (seatedDevices : List DevicePublicKey) :
    List PlayerId → List DevicePublicKey → List JoinCandidate → List JoinCandidate
  | _, _, [] => []
  | players, devices, candidate :: rest =>
    if candidate.playerId ∈ seatedPlayers ∨ candidate.devicePublicKey ∈ seatedDevices ∨
        candidate.playerId ∈ players then
      retainFresh seatedPlayers seatedDevices players devices rest
    else if candidate.devicePublicKey ∈ devices then
      retainFresh seatedPlayers seatedDevices (candidate.playerId :: players) devices rest
    else candidate :: retainFresh seatedPlayers seatedDevices (candidate.playerId :: players)
      (candidate.devicePublicKey :: devices) rest

variable (membership : TableMembership)

def deduplicateWaiting : TableMembership := { membership with
  waiting := retainFresh (membership.members.map playerId)
    (membership.members.map devicePublicKey) [] [] membership.waiting }

/-- The queue with the new candidates, in the order of the claims. -/
def claimOrder (joins : List JoinCandidate) : List JoinCandidate :=
  sortByKey JoinCandidate.claimId (membership.waiting ++ joins)

def queueJoins (joins : List JoinCandidate) : Except MembershipError TableMembership := do
  let version ← okOr .versionOverflow (checkedAdd membership.version 1)
  let next := deduplicateWaiting { membership with version, waiting := membership.claimOrder joins }
  validate next
  return next

/-! ## The greedy queue -/

/-- A candidate brings the player or the device of a seated member. -/
def ClashesWithSeat (members : List TableMember) (candidate : JoinCandidate) : Prop :=
  candidate.playerId ∈ members.map playerId ∨
    candidate.devicePublicKey ∈ members.map devicePublicKey
deriving Decidable

/-- Two candidates share their player or their device. -/
def Clash (a b : JoinCandidate) : Prop :=
  a.playerId = b.playerId ∨ a.devicePublicKey = b.devicePublicKey
deriving Decidable

/-- The greedy queue: in the order of the claims, a candidate is dropped if it clashes
with a seated member or with an earlier candidate that was itself retained. -/
def greedyQueue (members : List TableMember) (retained : List JoinCandidate) :
    List JoinCandidate → List JoinCandidate
  | [] => []
  | candidate :: rest =>
    if ClashesWithSeat members candidate ∨ ∃ earlier ∈ retained, Clash earlier candidate then
      greedyQueue members retained rest
    else candidate :: greedyQueue members (candidate :: retained) rest

/-- A candidate of the greedy queue comes after one with the same player that clashes
with a retained candidate in its device. -/
def Shadowed (members : List TableMember) (candidates : List JoinCandidate) : Prop :=
  ∃ a b c, [a, b, c].Sublist candidates ∧ a ∈ greedyQueue members [] candidates ∧
    c ∈ greedyQueue members [] candidates ∧ b.devicePublicKey = a.devicePublicKey ∧
    b.playerId = c.playerId

section

variable {members : List TableMember} {players : List PlayerId} {devices : List DevicePublicKey}
  {retained candidates before after : List JoinCandidate} {candidate : JoinCandidate}

theorem greedyQueue_sublist : (greedyQueue members retained candidates).Sublist candidates := by
  induction candidates generalizing retained with
  | nil => exact Sublist.refl _
  | cons first rest ih =>
    unfold greedyQueue
    split
    · exact ih.cons _
    · exact ih.cons_cons _

/-- Whom the greedy queue retains. -/
theorem mem_greedyQueue_iff (distinct : (before ++ candidate :: after).Nodup) :
    candidate ∈ greedyQueue members retained (before ++ candidate :: after) ↔
      ¬ ClashesWithSeat members candidate ∧ (∀ earlier ∈ retained, ¬ Clash earlier candidate) ∧
        ∀ earlier ∈ before, earlier ∈ greedyQueue members retained (before ++ candidate :: after) →
          ¬ Clash earlier candidate := by
  induction before generalizing retained with
  | nil =>
    have hlater : candidate ∉ after := (nodup_cons.mp distinct).1
    simp only [nil_append, greedyQueue]
    split
    · rename_i hclash
      constructor
      · exact fun hin => absurd (greedyQueue_sublist.subset hin) hlater
      · rintro ⟨hseat, hretained, -⟩
        rcases hclash with hclash | ⟨earlier, hearlier, hclash⟩
        · exact absurd hclash hseat
        · exact absurd hclash (hretained earlier hearlier)
    · rename_i hfree
      simp only [not_or, not_exists, not_and] at hfree
      exact ⟨fun _ => ⟨hfree.1, hfree.2, by simp⟩, fun _ => mem_cons_self⟩
  | cons first before ih =>
    rw [cons_append, nodup_cons] at distinct
    have hne : first ≠ candidate := fun heq => distinct.1 (heq ▸ by simp)
    simp only [cons_append, greedyQueue, forall_mem_cons]
    split
    · -- the first candidate is dropped
      have hdropped : first ∉ greedyQueue members retained (before ++ candidate :: after) :=
        fun hin => distinct.1 (greedyQueue_sublist.subset hin)
      rw [ih distinct.2]
      simp [hdropped]
    · rename_i hfree
      rw [mem_cons, ih distinct.2, forall_mem_cons]
      have hothers : ∀ earlier ∈ before, (earlier ∈ first :: greedyQueue members (first :: retained)
          (before ++ candidate :: after) ↔ earlier ∈ greedyQueue members (first :: retained)
          (before ++ candidate :: after)) := by
        intro earlier hearlier
        rw [mem_cons, or_iff_right]
        rintro rfl
        exact distinct.1 (mem_append_left _ hearlier)
      constructor
      · rintro (heq | ⟨hseat, ⟨hfirst, hretained⟩, hbefore⟩)
        · exact absurd heq.symm hne
        · exact ⟨hseat, hretained, fun _ => hfirst, fun earlier hearlier hin =>
            hbefore earlier hearlier ((hothers earlier hearlier).mp hin)⟩
      · rintro ⟨hseat, hretained, hfirst, hbefore⟩
        exact .inr ⟨hseat, ⟨hfirst mem_cons_self, hretained⟩, fun earlier hearlier hin =>
          hbefore earlier hearlier ((hothers earlier hearlier).mpr hin)⟩

/-! ## Whom the code retains -/

/-- The queue of the code, over the seated members. -/
def codeQueue (members : List TableMember) (players : List PlayerId)
    (devices : List DevicePublicKey) (candidates : List JoinCandidate) : List JoinCandidate :=
  retainFresh (members.map playerId) (members.map devicePublicKey) players
    devices candidates

/-- One round: a candidate is passed over, is dropped for its device, or is retained. -/
theorem codeQueue_cons : codeQueue members players devices (candidate :: after) =
    if ClashesWithSeat members candidate ∨ candidate.playerId ∈ players then
      codeQueue members players devices after else if candidate.devicePublicKey ∈ devices then
      codeQueue members (candidate.playerId :: players) devices after
    else candidate :: codeQueue members (candidate.playerId :: players)
      (candidate.devicePublicKey :: devices) after :=
  if_congr or_assoc.symm rfl rfl

theorem codeQueue_sublist : (codeQueue members players devices candidates).Sublist candidates := by
  induction candidates generalizing players devices with
  | nil => exact Sublist.refl _
  | cons first rest ih =>
    rw [codeQueue_cons]
    split
    · exact ih.cons _
    · split
      · exact ih.cons _
      · exact ih.cons_cons _

/-- The code retains a candidate with a new device whose player has not been met on any
candidate before, retained or not, that leaves the seated members alone. -/
theorem mem_codeQueue_iff (distinct : (before ++ candidate :: after).Nodup) :
    candidate ∈ codeQueue members players devices (before ++ candidate :: after) ↔
      (¬ ClashesWithSeat members candidate ∧ candidate.playerId ∉ players ∧
        candidate.devicePublicKey ∉ devices) ∧
      (∀ earlier ∈ before, ¬ ClashesWithSeat members earlier →
        earlier.playerId ≠ candidate.playerId) ∧
      ∀ earlier ∈ before, earlier ∈ codeQueue members players devices
        (before ++ candidate :: after) → earlier.devicePublicKey ≠ candidate.devicePublicKey := by
  induction before generalizing players devices with
  | nil =>
    have hlater : candidate ∉ after := (nodup_cons.mp distinct).1
    rw [nil_append, codeQueue_cons]
    split
    · rename_i hskip
      constructor
      · exact fun hin => absurd (codeQueue_sublist.subset hin) hlater
      · rintro ⟨⟨hseat, hplayer, -⟩, -⟩
        rcases hskip with hskip | hskip
        · exact absurd hskip hseat
        · exact absurd hskip hplayer
    · rename_i hnew
      simp only [not_or] at hnew
      split
      · rename_i hdevice
        constructor
        · exact fun hin => absurd (codeQueue_sublist.subset hin) hlater
        · rintro ⟨⟨-, -, hfree⟩, -⟩
          exact absurd hdevice hfree
      · rename_i hdevice
        exact ⟨fun _ => ⟨⟨hnew.1, hnew.2, hdevice⟩, by simp, by simp⟩, fun _ => mem_cons_self⟩
  | cons first before ih =>
    rw [cons_append, nodup_cons] at distinct
    have hne : candidate ≠ first := fun heq => distinct.1 (heq ▸ by simp)
    have hdropped : ∀ players devices,
        first ∉ codeQueue members players devices (before ++ candidate :: after) :=
      fun _ _ hin => distinct.1 (codeQueue_sublist.subset hin)
    rw [cons_append, codeQueue_cons]
    simp only [forall_mem_cons]
    split
    · rename_i hskip
      rw [ih distinct.2]
      refine and_congr_right fun hfresh => ?_
      -- its player is seated or has been met, so it is not the candidate's
      have hfirst : ¬ ClashesWithSeat members first → first.playerId ≠ candidate.playerId := by
        intro hseat heq
        rcases hskip with hskip | hskip
        · exact hseat hskip
        · exact hfresh.2.1 (heq ▸ hskip)
      constructor
      · rintro ⟨hplayers, hdevices⟩
        exact ⟨⟨hfirst, hplayers⟩, fun hin => absurd hin (hdropped _ _), hdevices⟩
      · rintro ⟨⟨-, hplayers⟩, -, hdevices⟩
        exact ⟨hplayers, hdevices⟩
    · rename_i hnew
      simp only [not_or] at hnew
      split
      · rw [ih distinct.2]
        simp only [mem_cons, not_or]
        constructor
        · rintro ⟨⟨hseat, ⟨hplayer, hmet⟩, hdevice⟩, hplayers, hdevices⟩
          exact ⟨⟨hseat, hmet, hdevice⟩, ⟨fun _ => Ne.symm hplayer, hplayers⟩,
            fun hin => absurd hin (hdropped _ _), hdevices⟩
        · rintro ⟨⟨hseat, hmet, hdevice⟩, ⟨hplayer, hplayers⟩, -, hdevices⟩
          exact ⟨⟨hseat, ⟨Ne.symm (hplayer hnew.1), hmet⟩, hdevice⟩, hplayers, hdevices⟩
      · have hothers : ∀ earlier ∈ before, ∀ queue : List JoinCandidate,
            (earlier ∈ first :: queue ↔ earlier ∈ queue) := by
          intro earlier hearlier queue
          rw [mem_cons, or_iff_right]
          rintro rfl
          exact distinct.1 (mem_append_left _ hearlier)
        rw [mem_cons, or_iff_right hne, ih distinct.2]
        simp only [mem_cons (a := candidate.playerId), mem_cons (a := candidate.devicePublicKey),
          not_or]
        constructor
        · rintro ⟨⟨hseat, ⟨hplayer, hmet⟩, hdevice, hused⟩, hplayers, hdevices⟩
          exact ⟨⟨hseat, hmet, hused⟩, ⟨fun _ => Ne.symm hplayer, hplayers⟩,
            fun _ => Ne.symm hdevice, fun earlier hearlier hin =>
              hdevices earlier hearlier ((hothers earlier hearlier _).mp hin)⟩
        · rintro ⟨⟨hseat, hmet, hused⟩, ⟨hplayer, hplayers⟩, hdevice, hdevices⟩
          exact ⟨⟨hseat, ⟨Ne.symm (hplayer hnew.1), hmet⟩,
            Ne.symm (hdevice mem_cons_self), hused⟩, hplayers, fun earlier hearlier hin =>
              hdevices earlier hearlier ((hothers earlier hearlier _).mpr hin)⟩

/-- No two retained candidates clash, nor one with a seated member. -/
theorem codeQueue_pairwise : (codeQueue members players devices candidates).Pairwise (fun a b =>
        a.playerId ≠ b.playerId ∧ a.devicePublicKey ≠ b.devicePublicKey) ∧
      ∀ candidate ∈ codeQueue members players devices candidates,
        ¬ ClashesWithSeat members candidate ∧ candidate.playerId ∉ players ∧
          candidate.devicePublicKey ∉ devices := by
  induction candidates generalizing players devices with
  | nil => exact ⟨List.Pairwise.nil, fun _ h => nomatch h⟩
  | cons first rest ih =>
    rw [codeQueue_cons]
    split
    · exact ih
    · rename_i hnew
      simp only [not_or] at hnew
      split
      · obtain ⟨hpairwise, hfresh⟩ := @ih (first.playerId :: players) devices
        refine ⟨hpairwise, fun other hother => ?_⟩
        obtain ⟨hseat, hplayer, hdevice⟩ := hfresh other hother
        exact ⟨hseat, fun hin => hplayer (mem_cons_of_mem _ hin), hdevice⟩
      · rename_i hdevice
        obtain ⟨hpairwise, hfresh⟩ := @ih (first.playerId :: players)
          (first.devicePublicKey :: devices)
        simp only [mem_cons, not_or] at hfresh
        refine ⟨pairwise_cons.mpr ⟨fun other hother => ?_, hpairwise⟩,
          forall_mem_cons.mpr ⟨⟨hnew.1, hnew.2, hdevice⟩, fun other hother => ?_⟩⟩
        · obtain ⟨-, ⟨hplayer, -⟩, hdevice, -⟩ := hfresh other hother
          exact ⟨Ne.symm hplayer, Ne.symm hdevice⟩
        · obtain ⟨hseat, ⟨-, hplayer⟩, -, hdevice⟩ := hfresh other hother
          exact ⟨hseat, hplayer, hdevice⟩

/-! ## When the two queues agree -/

/-- Without a shadow the code retains whom the greedy queue retains. -/
theorem mem_codeQueue_of_unshadowed (distinct : candidates.Nodup)
    (clear : ¬ Shadowed members candidates) (hsplit : candidates = before ++ after)
    (hcandidate : candidate ∈ before) : candidate ∈ codeQueue members [] [] candidates ↔
      candidate ∈ greedyQueue members [] candidates := by
  -- from one candidate to the next, in the order of the claims
  induction before using reverseRecOn generalizing after candidate with
  | nil => cases hcandidate
  | append_singleton before last ih =>
    rw [append_assoc, singleton_append] at hsplit
    have hearlier : ∀ earlier ∈ before, (earlier ∈ codeQueue members [] [] candidates ↔
        earlier ∈ greedyQueue members [] candidates) := fun _ h => ih hsplit h
    rcases mem_append.mp hcandidate with hbefore | hlast
    · exact hearlier candidate hbefore
    · obtain rfl := mem_singleton.mp hlast
      have hcode : candidate ∈ codeQueue members [] [] (before ++ candidate :: after) ↔ _ :=
        mem_codeQueue_iff (hsplit ▸ distinct)
      have hgreedy : candidate ∈ greedyQueue members [] (before ++ candidate :: after) ↔ _ :=
        mem_greedyQueue_iff (hsplit ▸ distinct)
      rw [← hsplit] at hcode hgreedy
      rw [hcode, hgreedy]
      constructor
      · rintro ⟨⟨hseat, -⟩, hplayers, hdevices⟩
        refine ⟨hseat, by simp, fun earlier hin hretained hclash => ?_⟩
        have hcoded := (hearlier earlier hin).mpr hretained
        rcases hclash with hclash | hclash
        · exact hplayers earlier hin (codeQueue_pairwise.2 earlier hcoded).1 hclash
        · exact hdevices earlier hin hcoded hclash
      · rintro ⟨hseat, -, hclear⟩
        have hin : candidate ∈ greedyQueue members [] candidates :=
          hgreedy.mpr ⟨hseat, by simp, hclear⟩
        refine ⟨⟨hseat, by simp, by simp⟩, fun b hb hbseat heq => ?_,
          fun earlier hbefore hcoded heq =>
          hclear earlier hbefore ((hearlier earlier hbefore).mp hcoded) (.inr heq)⟩
        -- a candidate with the same player has been dropped for a retained one, in its device
        obtain ⟨front, back, rfl⟩ := append_of_mem hb
        rw [append_assoc, cons_append] at hsplit
        have hb' : b ∈ greedyQueue members [] (front ++ b :: (back ++ candidate :: after)) ↔ _ :=
          mem_greedyQueue_iff (hsplit ▸ distinct)
        rw [← hsplit] at hb'
        by_cases hbin : b ∈ greedyQueue members [] candidates
        · exact hclear b hb hbin (.inl heq)
        · rw [hb'] at hbin
          push Not at hbin
          obtain ⟨a, ha, hain, hclash⟩ := hbin hbseat (by simp)
          rcases hclash with hplayer | hdevice
          · exact hclear a (mem_append_left _ ha) hain (.inl (hplayer.trans heq))
          · refine clear ⟨a, b, candidate, ?_, hain, hin, hdevice.symm, heq⟩
            rw [hsplit]
            have hfront : [a].Sublist front := singleton_sublist.mpr ha
            have hback : [candidate].Sublist (back ++ candidate :: after) :=
              singleton_sublist.mpr (by simp)
            exact hfront.append (hback.cons_cons b)

theorem codeQueue_eq_greedyQueue_iff
    (sorted : candidates.Pairwise fun a b => a.claimId < b.claimId) :
    codeQueue members [] [] candidates = greedyQueue members [] candidates ↔
      ¬ Shadowed members candidates := by
  have distinct : candidates.Nodup := sorted.imp fun h heq => h.ne (congrArg _ heq)
  constructor
  · rintro heq ⟨a, b, c, horder, ha, hc, hdevice, hplayer⟩
    obtain ⟨front, back, hsplit, hfront, hback⟩ := append_sublist_iff.mp
      (show ([a, b] ++ [c]).Sublist candidates from horder)
    obtain ⟨middle, after, rfl⟩ := append_of_mem (singleton_sublist.mp hback)
    have hb : b ∈ front ++ middle := mem_append_left _ (hfront.subset (by simp))
    rw [← append_assoc] at hsplit
    -- the shadow leaves the seated members alone, as those two do whose keys it has
    have hunseated : ∀ candidate ∈ greedyQueue members [] candidates,
        ¬ ClashesWithSeat members candidate := fun candidate hcandidate =>
      (codeQueue_pairwise.2 candidate (heq ▸ hcandidate)).1
    have hbseat : ¬ ClashesWithSeat members b := by
      rintro (hseated | hseated)
      · exact hunseated c hc (.inl (hplayer ▸ hseated))
      · exact hunseated a ha (.inr (hdevice ▸ hseated))
    have hcode : c ∈ codeQueue members [] [] (front ++ middle ++ c :: after) ↔ _ :=
      mem_codeQueue_iff (hsplit ▸ distinct)
    rw [← hsplit, heq] at hcode
    exact (hcode.mp hc).2.1 b hb hbseat hplayer
  · intro clear
    refine Perm.eq_of_pairwise (fun a b _ _ hab hba => absurd hab hba.asymm)
      (sorted.sublist codeQueue_sublist) (sorted.sublist greedyQueue_sublist) ?_
    refine (perm_ext_iff_of_nodup (distinct.sublist codeQueue_sublist)
      (distinct.sublist greedyQueue_sublist)).mpr fun candidate => ?_
    constructor
    · intro hin
      exact (mem_codeQueue_of_unshadowed distinct clear (append_nil _).symm
        (codeQueue_sublist.subset hin)).mp hin
    · intro hin
      exact (mem_codeQueue_of_unshadowed distinct clear (append_nil _).symm
        (greedyQueue_sublist.subset hin)).mpr hin

end

/-- A queue without repetitions that fits leaves the membership valid. -/
theorem validate_deduplicated {membership : TableMembership} {candidates : List JoinCandidate}
    (version : UInt64) (valid : validate membership = .ok ())
    (fits : (codeQueue membership.members [] [] candidates).length ≤ waitingCapacity) :
    validate (deduplicateWaiting { membership with version, waiting := candidates }) = .ok () := by
  obtain ⟨hfew, -, hkeys, hplayers, hdevices⟩ := validate_iff.mp valid
  have hqueue : (codeQueue membership.members [] [] candidates).Pairwise _ ∧ _ :=
    codeQueue_pairwise
  obtain ⟨hpairwise, hfresh⟩ := hqueue
  refine validate_iff.mpr ⟨hfew, fits, hkeys, nodup_append'.mpr ⟨?_, ?_, ?_⟩,
    nodup_append'.mpr ⟨?_, ?_, ?_⟩⟩
  · exact (nodup_append'.mp hplayers).1
  · exact pairwise_map.mpr (hpairwise.imp And.left)
  · intro player hseated hwaiting
    obtain ⟨candidate, hcandidate, rfl⟩ := mem_map.mp hwaiting
    exact (hfresh candidate hcandidate).1 (.inl hseated)
  · exact (nodup_append'.mp hdevices).1
  · exact pairwise_map.mpr (hpairwise.imp And.right)
  · intro device hseated hwaiting
    obtain ⟨candidate, hcandidate, rfl⟩ := mem_map.mp hwaiting
    exact (hfresh candidate hcandidate).1 (.inr hseated)

/-- For every valid membership and candidates with claims of their own whose greedy queue
fits: `queue_joins` succeeds with the greedy queue exactly when the version can go up and
no candidate is shadowed. The order of the candidates never matters. -/
theorem queueJoins_greedy_iff {membership : TableMembership} {joins : List JoinCandidate}
    (valid : validate membership = .ok ())
    (distinct : ((membership.waiting ++ joins).map JoinCandidate.claimId).Nodup)
    (fits : (greedyQueue membership.members [] (membership.claimOrder joins)).length
      ≤ waitingCapacity) :
    ((∃ next, membership.queueJoins joins = .ok next ∧
        next.waiting = greedyQueue membership.members [] (membership.claimOrder joins)) ↔
      membership.version.toNat < 2 ^ 64 - 1 ∧
        ¬ Shadowed membership.members (membership.claimOrder joins)) ∧
    ∀ reordered : List JoinCandidate, reordered.Perm joins →
      membership.queueJoins reordered = membership.queueJoins joins := by
  have hsorted : (membership.claimOrder joins).Pairwise fun a b => a.claimId < b.claimId :=
    sortByKey_sorted distinct
  rw [← codeQueue_eq_greedyQueue_iff hsorted]
  refine ⟨⟨?_, ?_⟩, fun reordered hperm => ?_⟩
  · rintro ⟨next, hnext, hwaiting⟩
    unfold queueJoins at hnext
    obtain ⟨version, hversion, hnext⟩ := okOr_bind_eq_ok.mp hnext
    obtain ⟨-, hnext⟩ := unit_bind_eq_ok.mp hnext
    cases hnext
    refine ⟨?_, hwaiting⟩
    unfold checkedAdd at hversion
    split at hversion
    · rename_i hroom
      have hroom : membership.version.toNat + 1 < 2 ^ 64 := hroom
      omega
    · cases hversion
  · rintro ⟨hversion, hqueue⟩
    have hadd : checkedAdd membership.version 1 = some (membership.version + 1) :=
      if_pos (show membership.version.toNat + 1 < 2 ^ 64 by omega)
    have hvalid := validate_deduplicated (membership.version + 1) valid (hqueue ▸ fits)
    refine ⟨deduplicateWaiting { membership with
      version := membership.version + 1, waiting := membership.claimOrder joins }, ?_, hqueue⟩
    unfold queueJoins
    rw [okOr_bind_eq_ok]
    exact ⟨_, hadd, unit_bind_eq_ok.mpr ⟨hvalid, rfl⟩⟩
  · have hsame : membership.claimOrder reordered = membership.claimOrder joins := by
      have hperm' := hperm.append_left membership.waiting
      exact sortByKey_eq_of_perm (hperm'.trans (sortByKey_perm _ _).symm) hsorted
    unfold queueJoins
    rw [hsame]

/-- A table with one member on the first seat. -/
def lonelyMember : List TableMember := [⟨ofNat 9, ofNat 9, chips 40, ⟨1⟩⟩]

/-- A candidate with the given claim, player and device. -/
def queued (claim player device : Nat) : JoinCandidate :=
  ⟨ofNat claim, ofNat player, ofNat device, chips 40⟩

/-- Of two candidates with one device the one with the lower claim is queued. -/
theorem queueJoins_greedy_iff_one_device :
    ∃ membership, new (ofNat 1) 1 lonelyMember [] = .ok membership ∧
      ∃ next, membership.queueJoins [queued 2 2 1, queued 1 1 1] = .ok next ∧
        next.waiting = greedyQueue membership.members []
          (membership.claimOrder [queued 2 2 1, queued 1 1 1]) := by
  have hbuilt : ∃ membership, new (ofNat 1) 1 lonelyMember [] = .ok membership ∧
      validate membership = .ok () ∧
      ((membership.waiting ++ [queued 2 2 1, queued 1 1 1]).map JoinCandidate.claimId).Nodup ∧
      (greedyQueue membership.members []
        (membership.claimOrder [queued 2 2 1, queued 1 1 1])).length ≤ waitingCapacity ∧
      membership.version.toNat < 2 ^ 64 - 1 ∧
      (membership.claimOrder [queued 2 2 1, queued 1 1 1]).length = 2 := by
    decide +kernel
  obtain ⟨membership, hbuilt, hvalid, hdistinct, hfits, hversion, htwo⟩ := hbuilt
  refine ⟨membership, hbuilt, (queueJoins_greedy_iff hvalid hdistinct hfits).1.mpr ⟨hversion, ?_⟩⟩
  -- two candidates are not enough for a shadow
  rintro ⟨a, b, c, horder, -⟩
  have hlength := horder.length_le
  rw [htwo] at hlength
  exact absurd hlength (by simp)

/-- The second candidate is dropped because it has the device of the first, and the third
because it has the player of the second, although nobody in the queue has it. -/
theorem dropped_candidate_shadows :
    ∃ membership, new (ofNat 1) 1 lonelyMember [] = .ok membership ∧
      ∃ next, membership.queueJoins [queued 1 1 1, queued 2 2 1, queued 3 2 2] = .ok next ∧
        next.waiting = [queued 1 1 1] ∧
        greedyQueue membership.members []
          (membership.claimOrder [queued 1 1 1, queued 2 2 1, queued 3 2 2])
            = [queued 1 1 1, queued 3 2 2] := by
  decide +kernel

end TableMembership

end TokenHoldem
