import TokenHoldem.Domain.ReceiptForm
import TokenHoldem.Library.Fallible
import TokenHoldem.Network.ArchiveStore

/-!
# The volunteer archive

`VolunteerArchive` of `token-holdem-sidecar/src/archive_runtime.rs`: a directory of receipts,
named by the hash of their bytes, with one directory per player that lists the receipts the
player is in. A file is written under a temporary name and renamed, so that no reader meets
half a file. A crash may come after any step. What it can leave behind is a temporary file,
and in a player's directory that is a name which `list` cannot read.

- `atomicWrite_cases`, `writeIndex_cases` — what is on the disk after a write, wherever it
  is cut off;
- `put_disk`, `put_stored` — a put removes nothing and never leaves half an object, and one
  that is accepted has stored all of its receipt;
- `list_eq_ok` — when a player's directory is listed;
- `archive_durable` — in every run of puts that are not cut off while the player's index
  holds a temporary file, all receipts of the player are listed and can be fetched.
-/

namespace TokenHoldem

open Library List Option Function ContentAddress Prod

/-! ## The disk -/

/-- The random bytes in the name of a temporary file. -/
abbrev Nonce := FixedBytes 8

/-- The names that the archive gives its files. -/
inductive FileName where
  | address (address : ContentAddress)
  /-- `.tmp-` and the nonce. -/
  | temporary (nonce : Nonce)

/-- A directory, with its temporary files apart. -/
structure Directory where
  files : List (ContentAddress × Bytes)
  temporaries : List (Nonce × Bytes)

namespace Directory

def empty : Directory := ⟨[], []⟩

variable (directory : Directory)

/-- `fs::read` of a file, `none` when it does not exist. -/
def read (address : ContentAddress) : Option Bytes :=
  (directory.files.find? (·.1 = address)).map snd

/-- `fs::read_dir`. -/
def readDir : List FileName :=
  directory.files.map (fun file => .address file.1) ++
    directory.temporaries.map fun file => .temporary file.1

variable (nonce : Nonce)

/-- `OpenOptions::create_new`. -/
def create : Directory :=
  { directory with temporaries := directory.temporaries ++ [(nonce, [])] }

/-- `write_all` to a temporary file. -/
def write (content : Bytes) : Directory :=
  { directory with temporaries := directory.temporaries.map fun file =>
      if file.1 = nonce then (nonce, content) else file }

/-- `fs::rename` of a temporary file. -/
def rename (address : ContentAddress) : Directory where
  files := directory.files ++
    (directory.temporaries.filter (·.1 = nonce)).map fun file => (address, file.2)
  temporaries := directory.temporaries.filter (·.1 ≠ nonce)

end Directory

/-- The directories that puts write to. -/
inductive Place where
  | objects
  | player (playerId : PlayerId)
deriving DecidableEq

/-- The directories, `none` when one has not been created. -/
abbrev Disk := Place → Option Directory

/-- The disk once `open` has created its directories. -/
def Disk.opened : Disk
  | .objects => some .empty
  | .player _ => none

/-- A file of a directory. -/
def Disk.read (disk : Disk) (place : Place) (address : ContentAddress) : Option Bytes :=
  (disk place).bind fun directory => directory.read address

/-! ## Steps -/

inductive ArchiveError where
  /-- The machine has crashed: nothing is returned. -/
  | crashed
  | message (text : String)

/-- A disk, and the number of steps before the crash. -/
structure Machine where
  disk : Disk
  steps : Nat

abbrev ArchiveM := EStateM ArchiveError Machine

variable (place : Place)

/-- One step: it is made, or the machine has crashed before. -/
def fsStep (change : Directory → Directory) : ArchiveM Unit := fun machine =>
  if machine.steps = 0 then .error .crashed machine
  else .ok () { disk := update machine.disk place
                  (some (change ((machine.disk place).getD .empty)))
                steps := machine.steps - 1 }

/-- `fs::create_dir_all`. -/
def createDir : ArchiveM Unit := do
  let machine ← get
  if (machine.disk place).isSome then pure () else fsStep place id

/-- `OpenOptions::create_new(true).open`. -/
def createNew (nonce : Nonce) : ArchiveM Unit := do
  let machine ← get
  if nonce ∈ ((machine.disk place).getD .empty).temporaries.map fst then
    throw (.message "无法创建临时归档对象")
  else fsStep place (·.create nonce)

/-- `atomic_write_if_absent`. The steps succeed unless the machine crashes, so the rename
never fails. -/
def atomicWriteIfAbsent (address : ContentAddress) (content : Bytes) (nonce : Nonce) :
    ArchiveM Unit := do
  let machine ← get
  match machine.disk.read place address with
  | some existing =>
    if existing ≠ content then throw (.message "内容地址发生不可接受的磁盘冲突") else pure ()
  | none =>
    createDir place
    createNew place nonce
    fsStep place (·.write nonce content)
    fsStep place id -- `sync_all`
    fsStep place (·.rename nonce address)

/-! ## Requests -/

def maxArchiveContentBytes : Nat := 256 * 1024

def maxArchiveEntries : Nat := 100000

def maxPlayerArchives : Nat := 20000

def maxReplicationSeconds : UInt64 := 365 * 24 * 60 * 60

/-- `u64::saturating_mul`. -/
def saturatingMul (a b : UInt64) : UInt64 :=
  if a.toNat * b.toNat < 2 ^ 64 then a * b else UInt64.ofNat (2 ^ 64 - 1)

def acceptanceSigningBytes (address : ContentAddress) (acceptedUntilUnixMs : UInt64) : Bytes :=
  textBytes "token-holdem/archive-accept/v1\x00" ++ address.toBytes ++ u64Bytes acceptedUntilUnixMs

def fetchSigningBytes (P : Primitives) (address : ContentAddress) (content : Option Bytes) :
    Bytes :=
  textBytes "token-holdem/archive-fetch/v1\x00" ++ address.toBytes ++
    match content with
    | some content => 1 :: (P.hash content).toBytes
    | none => [0]

def listSigningBytes (playerId : PlayerId) (addresses : List ContentAddress) : Bytes :=
  textBytes "token-holdem/archive-list/v1\x00" ++ playerId.asBytes ++ u32Bytes addresses.length
    ++ addresses.flatMap FixedBytes.toBytes

/-- `parse_content_address` of a file name. -/
def parseContentAddress : FileName → Except ArchiveError ContentAddress
  | .address address => .ok address
  | .temporary _ => .error (.message "内容地址不是合法十六进制")

/-- The archive: its primitives, `serde_json::from_slice` and the seed of its key. -/
structure VolunteerArchive where
  primitives : Primitives
  decode : Bytes → Option CoSignedReceipt
  signer : Bytes32

/-- One request to store a receipt, with what the machine does meanwhile. -/
structure PutAttempt where
  request : ArchiveRequest
  nowUnixMs : UInt64
  /-- The nonces that are drawn: one for the object, and one for each outcome. -/
  nonce : Nat → Nonce
  /-- The steps before the machine crashes; a put that needs no more is not cut off. -/
  steps : Nat

namespace VolunteerArchive

variable (archive : VolunteerArchive)

def publicKey : Bytes := (archive.primitives.verifyingKey archive.signer).toBytes

variable (disk : Disk)

variable (attempt : PutAttempt)

/-- The checks of `put` before it writes. -/
def checkPut : Except ArchiveError CoSignedReceipt := do
  let request := attempt.request
  ensure (request.content ≠ [] ∧ request.content.length ≤ maxArchiveContentBytes)
    (.message "归档内容必须为 1 字节到 256 KiB")
  ensure (request.requestedReplicationSeconds ≠ 0 ∧
      request.requestedReplicationSeconds ≤ maxReplicationSeconds)
    (.message "请求的归档保留期超出允许范围")
  ensure (fromContent archive.primitives request.content = request.address)
    (.message "归档请求的内容地址不匹配")
  let receipt ← okOr (.message "归档内容不是联合签名凭证") (archive.decode request.content)
  (receipt.verify archive.primitives attempt.nowUnixMs).mapError
    fun _ => .message "归档内容没有通过联合签名验证"
  ensure ((disk.read .objects request.address).isSome ∨
      (((disk .objects).getD .empty).readDir.take (maxArchiveEntries + 1)).length <
        maxArchiveEntries)
    (.message "归档节点已达到最大条目数")
  return receipt

/-- One round of the loop of `put`: the index entry of a player, a file with the byte `1`. -/
def writeIndex (address : ContentAddress) (nonce : Nonce) (playerId : PlayerId) :
    ArchiveM Unit := do
  createDir (.player playerId)
  atomicWriteIfAbsent (.player playerId) address [49] nonce

/-- The loop of `put` over the outcomes, with the number of the next nonce. -/
def writeIndexes (address : ContentAddress) (nonce : Nat → Nonce) :
    Nat → List PlayerId → ArchiveM Unit
  | _, [] => pure ()
  | drawn, playerId :: players => do
    writeIndex address (nonce drawn) playerId
    writeIndexes address nonce (drawn + 1) players

/-- The answer of `put`. -/
def accept : ArchiveM ArchiveResponse := do
  let address := attempt.request.address
  let acceptedUntilUnixMs ← orThrow (.message "归档保留截止时间溢出")
    (checkedAdd attempt.nowUnixMs
      (saturatingMul attempt.request.requestedReplicationSeconds 1000))
  return {
    address, acceptedUntilUnixMs
    archiveNodePublicKey := archive.publicKey
    archiveNodeSignature := (archive.primitives.sign archive.signer
      (acceptanceSigningBytes address acceptedUntilUnixMs)).toBytes }

def put : ArchiveM ArchiveResponse := do
  let machine ← get
  match archive.checkPut machine.disk attempt with
  | .error error => throw error
  | .ok receipt =>
    let address := attempt.request.address
    atomicWriteIfAbsent .objects address attempt.request.content (attempt.nonce 0)
    writeIndexes address attempt.nonce 1 (receipt.receipt.outcomes.map HandOutcome.playerId)
    accept archive attempt

def fetch (address : ContentAddress) : Except ArchiveError ArchiveFetchResponse := do
  let content := disk.read .objects address
  ensure (∀ found ∈ content, found.length ≤ maxArchiveContentBytes ∧
      fromContent archive.primitives found = address)
    (.message "归档对象未通过内容哈希校验")
  return {
    address, content
    archiveNodePublicKey := archive.publicKey
    archiveNodeSignature := (archive.primitives.sign archive.signer
      (fetchSigningBytes archive.primitives address content)).toBytes }

/-- The loop of `list` over the entries of a directory. -/
def readEntries (addresses : List ContentAddress) :
    List FileName → Except ArchiveError (List ContentAddress)
  | [] => .ok addresses
  | name :: names => do
    ensure (addresses.length < maxPlayerArchives) (.message "玩家归档索引超过安全上限")
    let address ← parseContentAddress name
    readEntries (addresses ++ [address]) names

/-- The addresses that `list` reads. -/
def readIndex (playerId : PlayerId) : Except ArchiveError (List ContentAddress) :=
  match disk (.player playerId) with
  | none => .ok []
  | some directory => readEntries [] (directory.readDir.take (maxPlayerArchives + 1))

def list (playerId : PlayerId) : Except ArchiveError ArchiveListResponse := do
  let found ← readIndex disk playerId
  let addresses := (found.insertionSort (· ≤ ·)).dedup
  return {
    playerId, addresses
    archiveNodePublicKey := archive.publicKey
    archiveNodeSignature := (archive.primitives.sign archive.signer
      (listSigningBytes playerId addresses)).toBytes }

end VolunteerArchive

/-! ## What a write leaves -/

namespace Directory

variable {directory : Directory} {address other : ContentAddress} {content : Bytes} {nonce : Nonce}

/-- The directory with one more file. -/
def wrote (directory : Directory) (address : ContentAddress) (content : Bytes) : Directory :=
  { directory with files := directory.files ++ [(address, content)] }

theorem read_wrote (absent : directory.read address = none) :
    (directory.wrote address content).read other =
      if other = address then some content else directory.read other := by
  unfold read wrote
  rw [find?_append]
  by_cases hother : other = address
  · subst hother
    have habsent : directory.files.find? (·.1 = other) = none := by simpa [read] using absent
    rw [habsent, if_pos rfl]
    simp
  · rw [if_neg hother]
    have hne : ¬ address = other := fun h => hother h.symm
    simp [hne]

theorem read_congr {directory' : Directory} (h : directory'.files = directory.files) :
    directory'.read other = directory.read other := by
  rw [read, h, read]

/-- A temporary file that has been created, written and renamed is the new file. -/
theorem rename_write_create (fresh : nonce ∉ directory.temporaries.map fst) :
    ((directory.create nonce).write nonce content).rename nonce address =
      directory.wrote address content := by
  have hother : ∀ file ∈ directory.temporaries, file.1 ≠ nonce := by
    intro file hfile heq
    exact fresh (heq ▸ mem_map_of_mem hfile)
  have hwritten : (directory.temporaries.map fun file =>
      if file.1 = nonce then (nonce, content) else file) = directory.temporaries :=
    (map_congr_left fun file hfile => if_neg (hother file hfile)).trans (map_id' _)
  have hnone : directory.temporaries.filter (·.1 = nonce) = [] :=
    filter_eq_nil_iff.mpr fun file hfile => by simpa using hother file hfile
  have hall : directory.temporaries.filter (·.1 ≠ nonce) = directory.temporaries :=
    filter_eq_self.mpr fun file hfile => by simpa using hother file hfile
  simp only [create, write, rename, wrote, map_append, hwritten, filter_append, hnone, hall]
  simp

end Directory

/-- A directory that does not exist has no files. -/
theorem Disk.read_eq (disk : Disk) (place : Place) (address : ContentAddress) :
    disk.read place address = ((disk place).getD .empty).read address := by
  rw [Disk.read]
  cases disk place with
  | none => rfl
  | some directory => rfl

theorem Disk.read_update_self (disk : Disk) (place : Place) (directory : Directory)
    (address : ContentAddress) :
    Disk.read (update disk place (some directory)) place address = directory.read address := by
  rw [Disk.read, update_self, bind_some]

namespace Machine

open VolunteerArchive

variable {machine : Machine} {place : Place} {directory : Directory} {address : ContentAddress}
  {content : Bytes} {nonce : Nonce} {change : Directory → Directory}

theorem run_fsStep_zero (h : machine.steps = 0) :
    (fsStep place change).run machine = .error .crashed machine := if_pos h

variable {disk : Disk} {steps : Nat}

theorem run_fsStep_succ (hdir : disk place = some directory) :
    (fsStep place change).run ⟨disk, steps + 1⟩ =
      .ok () ⟨update disk place (some (change directory)), steps⟩ := by
  have hrun : (fsStep place change).run ⟨disk, steps + 1⟩ = .ok () ⟨update disk place
      (some (change ((disk place).getD .empty))), steps⟩ := rfl
  rw [hrun, hdir, getD_some]

theorem run_createNew (hdir : disk place = some directory) :
    (createNew place nonce).run ⟨disk, steps⟩ =
      (if nonce ∈ directory.temporaries.map fst then throw (.message "无法创建临时归档对象")
        else fsStep place (·.create nonce) : ArchiveM Unit).run ⟨disk, steps⟩ := by
  have hrun : (createNew place nonce).run ⟨disk, steps⟩ =
      (if nonce ∈ ((disk place).getD .empty).temporaries.map fst then
          throw (.message "无法创建临时归档对象")
        else fsStep place (·.create nonce) : ArchiveM Unit).run ⟨disk, steps⟩ := rfl
  rw [hrun, hdir, getD_some]

/-- What `atomic_write_if_absent` can come to in a directory that exists. -/
inductive AtomicWrite (machine : Machine) (place : Place) (directory : Directory)
    (address : ContentAddress) (content : Bytes) : EStateM.Result ArchiveError Machine Unit → Prop
  | present (same : directory.read address = some content) :
      AtomicWrite machine place directory address content (.ok () machine)
  | refused (error : ArchiveError) :
      AtomicWrite machine place directory address content (.error error machine)
  | written (absent : directory.read address = none) (enough : 4 ≤ machine.steps) :
      AtomicWrite machine place directory address content
        (.ok () ⟨update machine.disk place (some (directory.wrote address content)),
          machine.steps - 4⟩)
  /-- Cut off while there is a temporary file. -/
  | torn (absent : directory.read address = none) (begun : 0 < machine.steps)
      (cut : machine.steps < 4) (left : Directory) (same : left.files = directory.files) :
      AtomicWrite machine place directory address content
        (.error .crashed ⟨update machine.disk place (some left), 0⟩)

theorem atomicWrite_cases (hdir : machine.disk place = some directory) :
    AtomicWrite machine place directory address content
      ((atomicWriteIfAbsent place address content nonce).run machine) := by
  obtain ⟨disk, steps⟩ := machine
  replace hdir : disk place = some directory := hdir
  have hread : disk.read place address = directory.read address := by
    rw [Disk.read, hdir, bind_some]
  have hrun : (atomicWriteIfAbsent place address content nonce).run ⟨disk, steps⟩ =
      (match disk.read place address with
        | some existing => if existing ≠ content then throw (.message "内容地址发生不可接受的磁盘冲突")
            else pure ()
        | none => do
          createDir place
          createNew place nonce
          fsStep place (·.write nonce content)
          fsStep place id
          fsStep place (·.rename nonce address) : ArchiveM Unit).run ⟨disk, steps⟩ := rfl
  rw [hrun, hread]
  cases hfound : directory.read address with
  | some existing =>
    by_cases hsame : existing = content
    · subst hsame
      simpa using AtomicWrite.present hfound
    · simp only [ne_eq, hsame, not_false_eq_true, if_true]
      exact .refused _
  | none =>
    have hdirectory : (createDir place).run ⟨disk, steps⟩ = .ok () ⟨disk, steps⟩ := by
      have hexists : (disk place).isSome = true := by rw [hdir, isSome_some]
      have hcreate : (createDir place).run ⟨disk, steps⟩ =
          (if (disk place).isSome then pure () else fsStep place id : ArchiveM Unit).run
            ⟨disk, steps⟩ :=
        rfl
      rw [hcreate, if_pos hexists]
      rfl
    dsimp only
    rw [run_bind_ok hdirectory]
    by_cases hfresh : nonce ∈ directory.temporaries.map fst
    · rw [run_bind_error ((run_createNew hdir).trans (by rw [if_pos hfresh]; rfl))]
      exact .refused _
    · have hcreate : ∀ n, (createNew place nonce).run ⟨disk, n⟩ =
          (fsStep place (·.create nonce)).run ⟨disk, n⟩ := by
        intro n
        rw [run_createNew hdir, if_neg hfresh]
      -- the write is cut off after none, one, two, three or all four of its steps
      rcases steps with _ | _ | _ | _ | steps
      · rw [run_bind_error ((hcreate _).trans (run_fsStep_zero rfl))]
        exact .refused _
      · rw [run_bind_ok ((hcreate _).trans (run_fsStep_succ hdir)),
          run_bind_error (run_fsStep_zero rfl)]
        exact .torn hfound (by simp) (by simp) _ rfl
      · rw [run_bind_ok ((hcreate _).trans (run_fsStep_succ hdir)),
          run_bind_ok (run_fsStep_succ (update_self ..)), run_bind_error (run_fsStep_zero rfl),
          update_idem]
        exact .torn hfound (by simp) (by simp) _ rfl
      · rw [run_bind_ok ((hcreate _).trans (run_fsStep_succ hdir)),
          run_bind_ok (run_fsStep_succ (update_self ..)),
          run_bind_ok (run_fsStep_succ (update_self ..)), run_fsStep_zero rfl,
          update_idem, update_idem]
        exact .torn hfound (by simp) (by simp) _ rfl
      · rw [run_bind_ok ((hcreate _).trans (run_fsStep_succ hdir)),
          run_bind_ok (run_fsStep_succ (update_self ..)),
          run_bind_ok (run_fsStep_succ (update_self ..)),
          run_fsStep_succ (update_self ..), update_idem, update_idem,
          update_idem, id, Directory.rename_write_create hfresh]
        exact .written hfound (by simp)

/-- The steps that creating the directory of a player takes. -/
def directoryCost (disk : Disk) (playerId : PlayerId) : Nat :=
  if (disk (.player playerId)).isSome then 0 else 1

/-- The steps that the index entry of a player takes. -/
def indexCost (disk : Disk) (address : ContentAddress) (playerId : PlayerId) : Nat :=
  directoryCost disk playerId + if (disk.read (.player playerId) address).isSome then 0 else 4

/-- What one round can come to. -/
inductive IndexWrite (machine : Machine) (address : ContentAddress) (playerId : PlayerId) :
    EStateM.Result ArchiveError Machine Unit → Prop
  | present (same : machine.disk.read (.player playerId) address = some [49])
      (exact : indexCost machine.disk address playerId = 0) :
      IndexWrite machine address playerId (.ok () machine)
  | written (absent : machine.disk.read (.player playerId) address = none)
      (enough : indexCost machine.disk address playerId ≤ machine.steps) :
      IndexWrite machine address playerId
        (.ok () ⟨update machine.disk (.player playerId)
            (some (((machine.disk (.player playerId)).getD .empty).wrote address [49])),
          machine.steps - indexCost machine.disk address playerId⟩)
  | refused (error : ArchiveError) (left : Disk) (steps : Nat)
      (kept : left = machine.disk ∨ machine.disk (.player playerId) = none ∧
        left = update machine.disk (.player playerId) (some .empty)) :
      IndexWrite machine address playerId (.error error ⟨left, steps⟩)
  /-- Cut off while there is a temporary file. -/
  | torn (absent : machine.disk.read (.player playerId) address = none)
      (begun : directoryCost machine.disk playerId < machine.steps)
      (cut : machine.steps < indexCost machine.disk address playerId) (left : Directory)
      (same : left.files = ((machine.disk (.player playerId)).getD .empty).files) :
      IndexWrite machine address playerId
        (.error .crashed ⟨update machine.disk (.player playerId) (some left), 0⟩)

/-- The directory of a player is there, or created in one step. -/
theorem createDir_cases (machine : Machine) (playerId : PlayerId) :
    (createDir (.player playerId)).run machine = .error .crashed machine ∨
    ∃ disk steps, (createDir (.player playerId)).run machine = .ok () ⟨disk, steps⟩ ∧
      steps + directoryCost machine.disk playerId = machine.steps ∧
      disk (.player playerId) = some ((machine.disk (.player playerId)).getD .empty) ∧
      (disk = machine.disk ∨ machine.disk (.player playerId) = none ∧
        disk = update machine.disk (.player playerId) (some .empty)) := by
  obtain ⟨disk, steps⟩ := machine
  have hrun : (createDir (.player playerId)).run ⟨disk, steps⟩ =
      (if (disk (.player playerId)).isSome then pure ()
        else fsStep (.player playerId) id : ArchiveM Unit).run ⟨disk, steps⟩ := rfl
  rw [hrun, directoryCost]
  dsimp only
  obtain hdir | ⟨directory, hdir⟩ := eq_none_or_eq_some (disk (.player playerId))
  · simp only [hdir, isSome_none, Bool.false_eq_true, if_false, getD_none, true_and]
    cases steps with
    | zero => exact .inl rfl
    | succ steps =>
      refine .inr ⟨update disk (.player playerId) (some .empty), steps, ?_, rfl,
        update_self .., .inr rfl⟩
      have hstep : (fsStep (.player playerId) id).run ⟨disk, steps + 1⟩ = .ok ()
          ⟨update disk (.player playerId)
            (some (id ((disk (.player playerId)).getD .empty))), steps⟩ := rfl
      rw [hstep, hdir]
      rfl
  · simp only [hdir, isSome_some, if_true, getD_some]
    exact .inr ⟨disk, steps, rfl, rfl, hdir, .inl rfl⟩

theorem writeIndex_cases (machine : Machine) (address : ContentAddress) (nonce : Nonce)
    (playerId : PlayerId) :
    IndexWrite machine address playerId ((writeIndex address nonce playerId).run machine) := by
  rcases createDir_cases machine playerId
    with hcrashed | ⟨disk, steps, hcreated, hsteps, hdir, hdisk⟩
  · rw [writeIndex, run_bind_error hcrashed]
    exact .refused _ _ _ (.inl rfl)
  · rw [writeIndex, run_bind_ok hcreated]
    have hread := machine.disk.read_eq (.player playerId) address
    have hupdate : ∀ directory, update disk (.player playerId) directory =
        update machine.disk (.player playerId) directory := by
      intro directory
      rcases hdisk with rfl | ⟨-, rfl⟩
      · rfl
      · exact update_idem ..
    have hwrite := @atomicWrite_cases ⟨disk, steps⟩ (.player playerId) _ address [49] nonce hdir
    generalize
      (atomicWriteIfAbsent (.player playerId) address [49] nonce).run ⟨disk, steps⟩ = result
      at hwrite ⊢
    cases hwrite with
    | present same =>
      have hthere : machine.disk (.player playerId) ≠ none := by
        intro hnone
        rw [hnone] at same
        exact nomatch same
      rcases hdisk with rfl | ⟨hnone, -⟩
      · have hcost : directoryCost machine.disk playerId = 0 :=
          if_pos (isSome_iff_ne_none.mpr hthere)
        have hsame : steps = machine.steps := by omega
        rw [hsame]
        refine .present (hread.trans same) ?_
        rw [indexCost, hread, same, hcost]
        rfl
      · exact absurd hnone hthere
    | refused error => exact .refused error disk steps hdisk
    | written absent enough =>
      have hcost :
          indexCost machine.disk address playerId = directoryCost machine.disk playerId + 4 := by
        rw [indexCost, hread, absent]
        rfl
      have hleft : steps - 4 = machine.steps - indexCost machine.disk address playerId := by omega
      dsimp only
      rw [hupdate, hleft]
      exact .written (hread.trans absent) (by simp only at enough; omega)
    | torn absent begun cut left same =>
      have hcost :
          indexCost machine.disk address playerId = directoryCost machine.disk playerId + 4 := by
        rw [indexCost, hread, absent]
        rfl
      dsimp only at begun cut ⊢
      rw [hupdate]
      exact .torn (hread.trans absent) (by omega) (by omega) left same

end Machine

namespace VolunteerArchive

open Machine

variable {archive : VolunteerArchive} {machine : Machine} {disk disk' : Disk}
  {address : ContentAddress} {nonce : Nat → Nonce} {players : List PlayerId} {playerId : PlayerId}

/-! ## What a put keeps -/

/-- No file is removed or changed. -/
def Extends (disk disk' : Disk) : Prop :=
  ∀ place address content, disk.read place address = some content →
    disk'.read place address = some content

theorem Extends.refl (disk : Disk) : Extends disk disk := fun _ _ _ h => h

theorem Extends.trans {disk'' : Disk} (h : Extends disk disk') (h' : Extends disk' disk'') :
    Extends disk disk'' := fun _ _ _ hread => h' _ _ _ (h _ _ _ hread)

/-- A directory that keeps its files. -/
theorem extends_update {place : Place} {left : Directory}
    (keeps : ∀ address content, disk.read place address = some content →
      left.read address = some content) : Extends disk (update disk place (some left)) := by
  intro place' address content hread
  by_cases hplace : place' = place
  · subst hplace
    rw [Disk.read_update_self]
    exact keeps address content hread
  · rwa [Disk.read, update_of_ne hplace]

/-- Every object is stored whole. -/
def Sound (archive : VolunteerArchive) (disk : Disk) : Prop :=
  ∀ address content, disk.read .objects address = some content →
    content.length ≤ maxArchiveContentBytes ∧
      fromContent archive.primitives content = address

variable {result : EStateM.Result ArchiveError Machine Unit} {drawn : Nat} {machine' : Machine}
  {before : Disk × List PutAttempt}

/-- What one round does to the disk. -/
theorem indexWrite_disk (h : IndexWrite machine address playerId result) :
    Extends machine.disk (endState result).disk ∧
      ∀ place, place ≠ .player playerId → (endState result).disk place = machine.disk place := by
  have hread := machine.disk.read_eq (.player playerId)
  cases h with
  | present => exact ⟨.refl _, fun _ _ => rfl⟩
  | written absent enough =>
    refine ⟨extends_update fun other content hother => ?_, fun place h => update_of_ne h ..⟩
    rw [Directory.read_wrote ((hread address).symm.trans absent), ← hread, hother, if_neg]
    rintro rfl
    exact nomatch absent.symm.trans hother
  | refused error left steps kept =>
    rcases kept with rfl | ⟨hnone, rfl⟩
    · exact ⟨.refl _, fun _ _ => rfl⟩
    · refine ⟨extends_update fun other content hother => ?_, fun place h => update_of_ne h ..⟩
      rw [hread, hnone] at hother
      exact hother
  | torn absent begun cut left same =>
    refine ⟨extends_update fun other content hother => ?_, fun place h => update_of_ne h ..⟩
    rw [Directory.read_congr same, ← hread, hother]

/-- The loop removes nothing, and changes the directories of its players only. -/
theorem writeIndexes_disk (drawn : Nat) :
    Extends machine.disk (endState ((writeIndexes address nonce drawn players).run machine)).disk ∧
      ∀ place, (∀ playerId ∈ players, place ≠ .player playerId) →
        (endState ((writeIndexes address nonce drawn players).run machine)).disk place =
          machine.disk place := by
  induction players generalizing machine drawn with
  | nil => exact ⟨.refl _, fun _ _ => rfl⟩
  | cons playerId players ih =>
    have hround := writeIndex_cases machine address (nonce drawn) playerId
    obtain ⟨hextends, hframe⟩ := indexWrite_disk hround
    rw [writeIndexes]
    cases hrun : (writeIndex address (nonce drawn) playerId).run machine with
    | error e machine' =>
      rw [run_bind_error hrun]
      rw [hrun] at hextends hframe
      exact ⟨hextends, fun place hplace => hframe place (hplace playerId mem_cons_self)⟩
    | ok u machine' =>
      rw [run_bind_ok hrun]
      rw [hrun] at hextends hframe
      obtain ⟨hextends', hframe'⟩ := @ih machine' (drawn + 1)
      refine ⟨hextends.trans hextends', fun place hplace => ?_⟩
      rw [hframe' place fun other hother => hplace other (mem_cons_of_mem _ hother)]
      exact hframe place (hplace playerId mem_cons_self)

/-- A loop that ends has made the entries of all its players. -/
theorem writeIndexes_indexed
    (h : (writeIndexes address nonce drawn players).run machine = .ok () machine')
    (hplayer : playerId ∈ players) : machine'.disk.read (.player playerId) address = some [49] := by
  induction players generalizing machine drawn with
  | nil => cases hplayer
  | cons first players ih =>
    obtain ⟨u, between, hfirst, hrest⟩ := run_bind_eq_ok_iff.mp h
    rcases mem_cons.mp hplayer with rfl | hplayer
    · have hround := writeIndex_cases machine address (nonce drawn) playerId
      have hkept := (@writeIndexes_disk between address nonce players (drawn + 1)).1
      rw [hrest] at hkept
      refine hkept _ _ _ ?_
      rw [hfirst] at hround
      cases hround with
      | present same => exact same
      | written absent enough =>
        rw [Disk.read_update_self,
          Directory.read_wrote ((machine.disk.read_eq _ _).symm.trans absent), if_pos rfl]
    · exact ih hrest hplayer

/-! ## The index of a player -/

/-- The directory of a player can be listed: it has no temporary file, and not too many
files. -/
def Listable (playerId : PlayerId) (disk : Disk) : Prop :=
  ((disk (.player playerId)).getD .empty).temporaries = [] ∧
    ((disk (.player playerId)).getD .empty).files.length ≤ maxPlayerArchives

/-- The crash after so many steps of the loop comes while the index of the player has a
temporary file. -/
def CutInIndex (disk : Disk) (address : ContentAddress) (playerId : PlayerId) :
    List PlayerId → Nat → Prop
  | [], _ => False
  | first :: players, steps =>
    if first = playerId then
      disk.read (.player playerId) address = none ∧ directoryCost disk playerId < steps ∧
        steps < indexCost disk address playerId
    else
      indexCost disk address first ≤ steps ∧
        CutInIndex disk address playerId players (steps - indexCost disk address first)

instance instDecidableCutInIndex (disk : Disk) (address : ContentAddress) (playerId : PlayerId) :
    (players : List PlayerId) → (steps : Nat) →
      Decidable (CutInIndex disk address playerId players steps)
  | [], _ => .isFalse id
  | first :: players, steps =>
    have := instDecidableCutInIndex disk address playerId players
      (steps - indexCost disk address first)
    decidable_of_iff _ (Iff.of_eq (CutInIndex.eq_2 disk address playerId steps first players).symm)

/-- There is room for one more entry, or it is there. -/
def HasRoom (disk : Disk) (address : ContentAddress) (playerId : PlayerId) : Prop :=
  (disk.read (.player playerId) address).isSome ∨
    ((disk (.player playerId)).getD .empty).files.length < maxPlayerArchives
deriving Decidable

section

variable (h : disk' (.player playerId) = disk (.player playerId))

include h

theorem Listable.congr (listable : Listable playerId disk) : Listable playerId disk' := by
  rwa [Listable, h]

theorem HasRoom.congr (room : HasRoom disk address playerId) : HasRoom disk' address playerId := by
  rwa [HasRoom, Disk.read, h]

theorem directoryCost_congr : directoryCost disk' playerId = directoryCost disk playerId := by
  rw [directoryCost, h, directoryCost]

theorem indexCost_congr : indexCost disk' address playerId = indexCost disk address playerId := by
  rw [indexCost, directoryCost_congr h, Disk.read, h, indexCost, Disk.read]

end

/-- A round that ends has taken its steps. -/
theorem indexWrite_steps (h : IndexWrite machine address playerId (.ok () machine')) :
    machine'.steps + indexCost machine.disk address playerId = machine.steps := by
  cases h with
  | present same exact => omega
  | written absent enough => exact Nat.sub_add_cancel enough

/-- The round of the player itself. -/
theorem listable_own (h : IndexWrite machine address playerId result)
    (listable : Listable playerId machine.disk) (room : HasRoom machine.disk address playerId)
    (uncut : ¬ (machine.disk.read (.player playerId) address = none ∧
      directoryCost machine.disk playerId < machine.steps ∧
        machine.steps < indexCost machine.disk address playerId)) :
    Listable playerId (endState result).disk := by
  cases h with
  | present => exact listable
  | written absent enough =>
    have hfiles :
        ((machine.disk (.player playerId)).getD .empty).files.length < maxPlayerArchives := by
      rcases room with hthere | hroom
      · rw [absent] at hthere
        exact nomatch hthere
      · exact hroom
    refine ⟨?_, ?_⟩
    · simpa [Directory.wrote] using listable.1
    · simpa [Directory.wrote] using Nat.succ_le_of_lt hfiles
  | refused error left steps kept =>
    rcases kept with rfl | ⟨hnone, rfl⟩
    · exact listable
    · exact ⟨by simp [Directory.empty], by simp [Directory.empty]⟩
  | torn absent begun cut left same => exact absurd ⟨absent, begun, cut⟩ uncut

/-- A loop that is not cut off while the player's index has a temporary file leaves the
index as one that can be listed. -/
theorem writeIndexes_listable (distinct : players.Nodup)
    (unchanged : ∀ other ∈ players, machine.disk (.player other) = disk (.player other))
    (listable : Listable playerId machine.disk)
    (room : playerId ∈ players → HasRoom disk address playerId)
    (uncut : ¬ CutInIndex disk address playerId players machine.steps) :
    Listable playerId (endState ((writeIndexes address nonce drawn players).run machine)).disk := by
  induction players generalizing machine drawn with
  | nil => exact listable
  | cons first players ih =>
    have hround := writeIndex_cases machine address (nonce drawn) first
    have hsame := unchanged first mem_cons_self
    obtain ⟨hfirst, hrest⟩ := nodup_cons.mp distinct
    rw [CutInIndex] at uncut
    rw [writeIndexes]
    by_cases howner : first = playerId
    · -- the rest of the loop does not come back to the player
      subst howner
      rw [if_pos rfl] at uncut
      have hread :
          machine.disk.read (.player first) address = disk.read (.player first) address := by
        rw [Disk.read, hsame, Disk.read]
      have hown := listable_own hround listable ((room mem_cons_self).congr hsame)
        (by rwa [hread, directoryCost_congr hsame, indexCost_congr hsame])
      cases hrun : (writeIndex address (nonce drawn) first).run machine with
      | error e machine' =>
        rw [run_bind_error hrun]
        rwa [hrun] at hown
      | ok u machine' =>
        rw [run_bind_ok hrun]
        rw [hrun] at hown
        refine hown.congr
          ((writeIndexes_disk (drawn + 1)).2 (.player first) fun other hother heq => ?_)
        exact hfirst (Place.player.inj heq ▸ hother)
    · rw [if_neg howner] at uncut
      obtain ⟨-, hframe⟩ := indexWrite_disk hround
      have hkept := hframe (.player playerId) fun h => howner (Place.player.inj h).symm
      cases hrun : (writeIndex address (nonce drawn) first).run machine with
      | error e machine' =>
        rw [run_bind_error hrun]
        rw [hrun] at hkept
        exact listable.congr hkept
      | ok u machine' =>
        rw [run_bind_ok hrun]
        rw [hrun] at hkept hframe hround
        have hsteps := indexWrite_steps hround
        rw [indexCost_congr hsame] at hsteps
        have hleft : machine.steps - indexCost disk address first = machine'.steps := by omega
        refine ih hrest ?_ (listable.congr hkept)
          (fun hplayer => room (mem_cons_of_mem _ hplayer)) ?_
        · intro other hother
          refine (hframe (.player other) fun h => ?_).trans
            (unchanged other (mem_cons_of_mem _ hother))
          exact hfirst (Place.player.inj h ▸ hother)
        · rw [← hleft]
          exact fun hcut => uncut ⟨by omega, hcut⟩

/-! ## Puts -/

/-- The steps that the object takes. -/
def objectCost (disk : Disk) (address : ContentAddress) : Nat :=
  if (disk.read .objects address).isSome then 0 else 4

/-- The put leaves the player's index as one that can be listed: if the receipt names the
player, there is room for its entry, and the crash does not come while the entry has its
temporary name. -/
def Safe (archive : VolunteerArchive) (playerId : PlayerId) (disk : Disk) (attempt : PutAttempt) :
    Prop :=
  ∀ receipt ∈ archive.decode attempt.request.content,
    let players := receipt.receipt.outcomes.map HandOutcome.playerId
    let address := attempt.request.address
    playerId ∈ players → HasRoom disk address playerId ∧
      ¬ (objectCost disk address ≤ attempt.steps ∧
        CutInIndex disk address playerId players (attempt.steps - objectCost disk address))
deriving Decidable

/-- The disk after a put, and the put if it has been accepted. -/
def serve (archive : VolunteerArchive) (served : Disk × List PutAttempt) (attempt : PutAttempt) :
    Disk × List PutAttempt :=
  match (archive.put attempt).run ⟨served.1, attempt.steps⟩ with
  | .ok _ machine => (machine.disk, served.2 ++ [attempt])
  | .error _ machine => (machine.disk, served.2)

/-- The disk after some puts, and those that have been accepted. -/
def served (archive : VolunteerArchive) (attempts : List PutAttempt) : Disk × List PutAttempt :=
  attempts.foldl archive.serve (.opened, [])

variable {attempt : PutAttempt} {receipt : CoSignedReceipt}

theorem checkPut_eq_ok (h : archive.checkPut disk attempt = .ok receipt) :
    attempt.request.content.length ≤ maxArchiveContentBytes ∧
      fromContent archive.primitives attempt.request.content =
        attempt.request.address ∧ archive.decode attempt.request.content = some receipt ∧
      receipt.receipt.validate = .ok () := by
  obtain ⟨⟨-, hsize⟩, h⟩ := ensure_bind_eq_ok.mp h
  obtain ⟨-, h⟩ := ensure_bind_eq_ok.mp h
  obtain ⟨haddress, h⟩ := ensure_bind_eq_ok.mp h
  obtain ⟨receipt', hdecoded, h⟩ := okOr_bind_eq_ok.mp h
  obtain ⟨hverified, h⟩ := unit_bind_eq_ok.mp h
  obtain ⟨-, h⟩ := ensure_bind_eq_ok.mp h
  cases h
  have hvalid := (unit_bind_eq_ok.mp (mapError_eq_ok_iff.mp hverified)).1
  exact ⟨hsize, haddress, hdecoded, mapError_eq_ok_iff.mp hvalid⟩

section

variable {directory : Directory} {content : Bytes}

/-- What writing the object does to the disk. -/
theorem objectWrite_disk {result : EStateM.Result ArchiveError Machine Unit}
    (hdir : machine.disk .objects = some directory)
    (h : AtomicWrite machine .objects directory address content result) :
    Extends machine.disk (endState result).disk ∧ ((endState result).disk .objects).isSome ∧
      (∀ place, place ≠ .objects → (endState result).disk place = machine.disk place) ∧
      ∀ other found, (endState result).disk.read .objects other = some found →
        machine.disk.read .objects other = some found ∨ other = address ∧ found = content := by
  have hread : ∀ other, machine.disk.read .objects other = directory.read other := by
    intro other
    rw [Disk.read, hdir, bind_some]
  have hsome : (machine.disk .objects).isSome = true := by rw [hdir, isSome_some]
  cases h with
  | present same => exact ⟨.refl _, hsome, fun _ _ => rfl, fun _ _ h => .inl h⟩
  | refused error => exact ⟨.refl _, hsome, fun _ _ => rfl, fun _ _ h => .inl h⟩
  | written absent enough =>
    refine ⟨extends_update fun other found hother => ?_, ?_,
      fun place h => update_of_ne h .., fun other found hother => ?_⟩
    · rw [Directory.read_wrote absent, ← hread, hother, if_neg]
      rintro rfl
      exact nomatch absent.symm.trans ((hread _).symm.trans hother)
    · simp
    · replace hother := (Disk.read_update_self ..).symm.trans hother
      rw [Directory.read_wrote absent] at hother
      split at hother
      next hsame => exact .inr ⟨hsame, (Option.some.inj hother).symm⟩
      · exact .inl ((hread other).trans hother)
  | torn absent begun cut left same =>
    refine ⟨extends_update fun other found hother => ?_, ?_,
      fun place h => update_of_ne h .., fun other found hother => .inl ?_⟩
    · rw [Directory.read_congr same, ← hread, hother]
    · simp
    · replace hother := (Disk.read_update_self ..).symm.trans hother
      rw [Directory.read_congr same] at hother
      exact (hread other).trans hother

/-- An object that has been written is there, and has taken its steps. -/
theorem objectWrite_ok {machine' : Machine} (hdir : machine.disk .objects = some directory)
    (h : AtomicWrite machine .objects directory address content (.ok () machine')) :
    machine'.disk.read .objects address = some content ∧
      machine'.steps + objectCost machine.disk address = machine.steps := by
  have hread : machine.disk.read .objects address = directory.read address := by
    rw [Disk.read, hdir, bind_some]
  cases h with
  | present same =>
    refine ⟨hread.trans same, ?_⟩
    rw [objectCost, hread, same]
    rfl
  | written absent enough =>
    refine ⟨?_, ?_⟩
    · rw [Disk.read_update_self, Directory.read_wrote absent, if_pos rfl]
    · rw [objectCost, hread, absent]
      exact Nat.sub_add_cancel enough

end

/-- An object that fits its address may be added. -/
theorem Sound.write {content : Bytes} (sound : archive.Sound disk)
    (hread : ∀ other found, disk'.read .objects other = some found →
      disk.read .objects other = some found ∨ other = address ∧ found = content)
    (hsize : content.length ≤ maxArchiveContentBytes)
    (haddress : fromContent archive.primitives content = address) :
    archive.Sound disk' := by
  intro other found hfound
  rcases hread other found hfound with hold | ⟨rfl, rfl⟩
  · exact sound other found hold
  · exact ⟨hsize, haddress⟩

/-- What puts keep of the disk. -/
structure Intact (archive : VolunteerArchive) (disk : Disk) : Prop where
  opened : (disk .objects).isSome
  sound : archive.Sound disk

theorem nodup_players (valid : receipt.receipt.validate = .ok ()) :
    (receipt.receipt.outcomes.map HandOutcome.playerId).Nodup :=
  (pairwise_map.mpr (HandReceipt.sorted_of_validate valid).2.2.2).imp fun h => h.ne

theorem put_run : (archive.put attempt).run machine =
    (match archive.checkPut machine.disk attempt with
      | .error error => throw error
      | .ok receipt => do
        atomicWriteIfAbsent .objects attempt.request.address attempt.request.content
          (attempt.nonce 0)
        writeIndexes attempt.request.address attempt.nonce 1
          (receipt.receipt.outcomes.map HandOutcome.playerId)
        accept archive attempt : ArchiveM ArchiveResponse).run machine := rfl

/-- The answer changes nothing. -/
theorem endState_accept :
    endState ((writeIndexes address nonce drawn players >>= fun _ => accept archive attempt).run
      machine) = endState ((writeIndexes address nonce drawn players).run machine) := by
  have hkeeps : Keeps id (accept archive attempt) := .bind (.orThrow _ _) fun _ => .pure _
  exact Keeps.endState_bind (fun _ => hkeeps) machine

/-- A put removes nothing, leaves no half of an object, and keeps the index of a player
listable when it is safe for the player. -/
theorem put_disk (intact : archive.Intact machine.disk) :
    Extends machine.disk (endState ((archive.put attempt).run machine)).disk ∧
      archive.Intact (endState ((archive.put attempt).run machine)).disk ∧
      (Listable playerId machine.disk → machine.steps = attempt.steps →
        archive.Safe playerId machine.disk attempt →
        Listable playerId (endState ((archive.put attempt).run machine)).disk) := by
  rw [put_run]
  cases hcheck : archive.checkPut machine.disk attempt with
  | error error => exact ⟨.refl _, intact, fun h _ _ => h⟩
  | ok receipt =>
    obtain ⟨hsize, haddress, hdecoded, hvalid⟩ := checkPut_eq_ok hcheck
    obtain ⟨directory, hdir⟩ := isSome_iff_exists.mp intact.opened
    have hobject := @atomicWrite_cases machine .objects directory attempt.request.address
      attempt.request.content (attempt.nonce 0) hdir
    dsimp only
    cases hrun : (atomicWriteIfAbsent .objects attempt.request.address attempt.request.content
        (attempt.nonce 0)).run machine with
    | error e machine' =>
      rw [hrun] at hobject
      obtain ⟨hextends, hopened, hframe, hread⟩ := objectWrite_disk hdir hobject
      rw [run_bind_error hrun]
      exact ⟨hextends, ⟨hopened, intact.sound.write hread hsize haddress⟩,
        fun listable _ _ => listable.congr (hframe _ (by simp))⟩
    | ok u machine' =>
      rw [hrun] at hobject
      obtain ⟨hextends, hopened, hframe, hread⟩ := objectWrite_disk hdir hobject
      have hsteps := (objectWrite_ok hdir hobject).2
      rw [run_bind_ok hrun]
      rw [endState_accept]
      obtain ⟨hextends', hframe'⟩ :=
        @writeIndexes_disk machine' attempt.request.address attempt.nonce
        (receipt.receipt.outcomes.map HandOutcome.playerId) 1
      have hobjects := hframe' .objects fun _ _ => by simp
      refine ⟨hextends.trans hextends', ⟨hobjects ▸ hopened, ?_⟩, fun listable hstart safe => ?_⟩
      · have hsound := intact.sound.write hread hsize haddress
        intro other found hfound
        rw [Disk.read, hobjects] at hfound
        exact hsound other found hfound
      · have hkept := listable.congr (hframe (.player playerId) (by simp))
        by_cases hnamed : playerId ∈ receipt.receipt.outcomes.map HandOutcome.playerId
        · obtain ⟨room, uncut⟩ := safe receipt hdecoded hnamed
          have hleft : attempt.steps - objectCost machine.disk attempt.request.address =
              machine'.steps := by omega
          refine writeIndexes_listable (nodup_players hvalid)
            (fun other _ => hframe (.player other) (by simp)) hkept (fun _ => room) ?_
          rw [← hleft]
          exact fun hcut => uncut ⟨by omega, hcut⟩
        · refine hkept.congr (hframe' (.player playerId) fun other hother heq => ?_)
          exact hnamed (Place.player.inj heq ▸ hother)

/-- A put that is accepted has stored the receipt and listed it for all its players. -/
theorem put_stored (intact : archive.Intact machine.disk) {response : ArchiveResponse}
    (h : (archive.put attempt).run machine = .ok response machine') :
    machine'.disk.read .objects attempt.request.address = some attempt.request.content ∧
      ∀ receipt ∈ archive.decode attempt.request.content,
        ∀ player ∈ receipt.receipt.outcomes.map HandOutcome.playerId,
          machine'.disk.read (.player player) attempt.request.address = some [49] := by
  rw [put_run] at h
  cases hcheck : archive.checkPut machine.disk attempt with
  | error error =>
    rw [hcheck] at h
    exact nomatch h
  | ok receipt =>
    rw [hcheck] at h
    obtain ⟨-, -, hdecoded, -⟩ := checkPut_eq_ok hcheck
    obtain ⟨directory, hdir⟩ := isSome_iff_exists.mp intact.opened
    obtain ⟨u, between, hobject, h⟩ := run_bind_eq_ok_iff.mp h
    obtain ⟨u', after, hindexes, haccept⟩ := run_bind_eq_ok_iff.mp h
    have hsame : after = machine' := by
      have hkeeps : Keeps id (accept archive attempt) := .bind (.orThrow _ _) fun _ => .pure _
      exact (hkeeps.of_ok haccept).symm
    subst hsame
    have hwritten := @atomicWrite_cases machine .objects directory attempt.request.address
      attempt.request.content (attempt.nonce 0) hdir
    rw [hobject] at hwritten
    have hkept := (@writeIndexes_disk between attempt.request.address attempt.nonce
      (receipt.receipt.outcomes.map HandOutcome.playerId) 1).1
    rw [hindexes] at hkept
    refine ⟨hkept _ _ _ (objectWrite_ok hdir hwritten).1,
      fun receipt' hreceipt player hplayer => ?_⟩
    cases hdecoded.symm.trans hreceipt
    exact writeIndexes_indexed hindexes hplayer

/-! ## Reading -/

theorem readEntries_eq_ok {addresses parsed : List ContentAddress}
    (h : addresses.length + parsed.length ≤ maxPlayerArchives) :
    readEntries addresses (parsed.map .address) = .ok (addresses ++ parsed) := by
  induction parsed generalizing addresses with
  | nil => simp [readEntries]
  | cons address parsed ih =>
    rw [length_cons] at h
    have hroom : addresses.length < maxPlayerArchives := by omega
    have hrest : (addresses ++ [address]).length + parsed.length ≤ maxPlayerArchives := by
      rw [length_append, length_singleton]
      omega
    rw [map_cons, readEntries, ensure, if_pos hroom]
    refine (ih hrest).trans ?_
    rw [append_assoc]
    rfl

/-- A directory without temporary files and with not too many files is listed. -/
theorem list_eq_ok (listable : Listable playerId disk) :
    ∃ response, archive.list disk playerId = .ok response ∧
      ∀ address content, disk.read (.player playerId) address = some content →
        address ∈ response.addresses := by
  obtain ⟨htemporaries, hfew⟩ := listable
  have hfound : ∃ found, readIndex disk playerId = .ok found ∧
      ∀ address content, disk.read (.player playerId) address = some content → address ∈ found := by
    rw [readIndex]
    cases hdir : disk (.player playerId) with
    | none =>
      refine ⟨[], rfl, fun address content hread => ?_⟩
      rw [Disk.read, hdir] at hread
      exact nomatch hread
    | some directory =>
      rw [hdir, getD_some] at htemporaries hfew
      refine ⟨directory.files.map fst, ?_, fun address content hread => ?_⟩
      · have hnames : directory.readDir = (directory.files.map fst).map .address := by
          rw [Directory.readDir, htemporaries, map_nil, append_nil, List.map_map]
          rfl
        have hlength : (directory.files.map fst).length ≤ maxPlayerArchives := by
          rwa [length_map]
        dsimp only
        rw [hnames, take_of_length_le (by rw [length_map]; omega)]
        exact readEntries_eq_ok (by simpa using hfew)
      · rw [Disk.read, hdir, bind_some, Directory.read, map_eq_some_iff] at hread
        obtain ⟨file, hfile, -⟩ := hread
        have hname : file.1 = address := by simpa using find?_some hfile
        exact hname ▸ mem_map_of_mem (mem_of_find?_eq_some hfile)
  obtain ⟨found, hfound, hmem⟩ := hfound
  refine ⟨_, bind_eq_ok.mpr ⟨found, hfound, rfl⟩, fun address content hread => ?_⟩
  exact mem_dedup.mpr ((mem_insertionSort _).mpr (hmem address content hread))

theorem fetch_eq_ok (sound : archive.Sound disk) {content : Bytes}
    (h : disk.read .objects address = some content) :
    ∃ response, archive.fetch disk address = .ok response ∧ response.content = some content := by
  have hchecked : ∀ found ∈ disk.read .objects address, found.length ≤ maxArchiveContentBytes ∧
      fromContent archive.primitives found = address := fun found hfound =>
    sound address found hfound
  refine ⟨_, ensure_bind_eq_ok.mpr ⟨hchecked, rfl⟩, h⟩

/-! ## Runs -/

/-- What a run has stored. -/
structure Stored (archive : VolunteerArchive) (served : Disk × List PutAttempt) : Prop where
  intact : archive.Intact served.1
  objects : ∀ attempt ∈ served.2,
    served.1.read .objects attempt.request.address = some attempt.request.content
  indexes : ∀ attempt ∈ served.2, ∀ receipt ∈ archive.decode attempt.request.content,
    ∀ player ∈ receipt.receipt.outcomes.map HandOutcome.playerId,
      served.1.read (.player player) attempt.request.address = some [49]

theorem stored_opened : archive.Stored (.opened, []) where
  intact := ⟨rfl, nofun⟩
  objects := nofun
  indexes := nofun

/-- A put, accepted or not, keeps what has been stored before. -/
theorem Stored.serve (h : archive.Stored before) (attempt : PutAttempt) :
    archive.Stored (archive.serve before attempt) := by
  obtain ⟨hextends, hintact, -⟩ :=
    @put_disk archive ⟨before.1, attempt.steps⟩ default attempt h.intact
  unfold VolunteerArchive.serve
  split
  next response machine hrun =>
    rw [hrun] at hextends hintact
    obtain ⟨hobject, hindexes⟩ := put_stored h.intact hrun
    refine ⟨hintact, fun other hother => ?_, fun other hother => ?_⟩
    · rcases mem_append.mp hother with hother | hother
      · exact hextends _ _ _ (h.objects other hother)
      · rw [mem_singleton.mp hother]
        exact hobject
    · rcases mem_append.mp hother with hother | hother
      · exact fun receipt hreceipt player hplayer =>
          hextends _ _ _ (h.indexes other hother receipt hreceipt player hplayer)
      · rw [mem_singleton.mp hother]
        exact hindexes
  next error machine hrun =>
    rw [hrun] at hextends hintact
    exact ⟨hintact, fun other hother => hextends _ _ _ (h.objects other hother),
      fun other hother receipt hreceipt player hplayer =>
        hextends _ _ _ (h.indexes other hother receipt hreceipt player hplayer)⟩

theorem stored_served (attempts : List PutAttempt) : archive.Stored (archive.served attempts) := by
  have hrun : ∀ before, archive.Stored before →
      archive.Stored (attempts.foldl archive.serve before) := by
    induction attempts with
    | nil => exact fun before h => h
    | cons attempt attempts ih => exact fun before h => ih _ (h.serve attempt)
  exact hrun _ stored_opened

theorem listable_serve (h : archive.Stored before) (listable : Listable playerId before.1)
    (safe : archive.Safe playerId before.1 attempt) :
    Listable playerId (archive.serve before attempt).1 := by
  have hkept := (@put_disk archive ⟨before.1, attempt.steps⟩ playerId attempt h.intact).2.2 listable
    rfl safe
  rw [VolunteerArchive.serve]
  split
  next hrun =>
    rw [hrun] at hkept
    exact hkept
  next hrun =>
    rw [hrun] at hkept
    exact hkept

/-- All puts are safe for the player, at the disks they meet. -/
def SafeRun (archive : VolunteerArchive) (playerId : PlayerId) :
    Disk × List PutAttempt → List PutAttempt → Prop
  | _, [] => True
  | before, attempt :: attempts =>
    archive.Safe playerId before.1 attempt ∧
      SafeRun archive playerId (archive.serve before attempt) attempts

instance instDecidableSafeRun (archive : VolunteerArchive) (playerId : PlayerId) :
    (before : Disk × List PutAttempt) → (attempts : List PutAttempt) →
      Decidable (archive.SafeRun playerId before attempts)
  | _, [] => .isTrue trivial
  | before, attempt :: attempts =>
    have := instDecidableSafeRun archive playerId (archive.serve before attempt) attempts
    inferInstanceAs (Decidable (_ ∧ _))

theorem listable_served {attempts : List PutAttempt}
    (safe : archive.SafeRun playerId (.opened, []) attempts) :
    Listable playerId (archive.served attempts).1 := by
  have hrun : ∀ before, archive.Stored before → Listable playerId before.1 →
      archive.SafeRun playerId before attempts →
      Listable playerId (attempts.foldl archive.serve before).1 := by
    clear safe
    induction attempts with
    | nil => exact fun before _ listable _ => listable
    | cons attempt attempts ih =>
      rintro before h listable ⟨hsafe, hrest⟩
      exact ih _ (h.serve attempt) (listable_serve h listable hsafe) hrest
  exact hrun _ stored_opened ⟨rfl, Nat.zero_le _⟩ safe

/-- In every run of puts, cut off or not, that are safe for a player, the player's directory
can be listed and the list has every accepted receipt that names the player; and every
accepted receipt can be fetched, byte for byte. -/
theorem archive_durable (archive : VolunteerArchive) (playerId : PlayerId)
    (attempts : List PutAttempt) (safe : archive.SafeRun playerId (.opened, []) attempts) :
    (∃ response, archive.list (archive.served attempts).1 playerId = .ok response ∧
      ∀ attempt ∈ (archive.served attempts).2,
        ∀ receipt ∈ archive.decode attempt.request.content,
          playerId ∈ receipt.receipt.outcomes.map HandOutcome.playerId →
          attempt.request.address ∈ response.addresses) ∧
    ∀ attempt ∈ (archive.served attempts).2,
      ∃ response, archive.fetch (archive.served attempts).1 attempt.request.address = .ok response ∧
        response.content = some attempt.request.content := by
  have hstored := @stored_served archive attempts
  obtain ⟨response, hlist, hmem⟩ := @list_eq_ok archive _ playerId (listable_served safe)
  refine ⟨⟨response, hlist, fun attempt hattempt receipt hreceipt hnamed => ?_⟩,
    fun attempt hattempt => fetch_eq_ok hstored.intact.sound (hstored.objects attempt hattempt)⟩
  exact hmem _ _ (hstored.indexes attempt hattempt receipt hreceipt playerId hnamed)

/-- An archive for runs of the model: a byte is the receipt of the hand with that number. -/
def plainArchive : VolunteerArchive where
  primitives := .plain
  decode
    | [hand] => P2pRemoteEventStore.signedByTwo hand.toUInt64
    | _ => none
  signer := FixedBytes.ofNat 9

/-- A receipt is put, and the machine crashes after some steps. -/
def plainPut (content : Bytes) (steps : Nat) : PutAttempt where
  request := ⟨fromContent .plain content, content, 86400⟩
  nowUnixMs := 30
  nonce drawn := FixedBytes.ofNat drawn
  steps := steps

/-- The first player of the receipts. -/
def firstPlayer : PlayerId := RootIdentity.playerId .plain ⟨FixedBytes.ofNat 101⟩

/-- A put that crashes while its object is written does no harm. -/
theorem archive_durable_object :
    (∃ response, plainArchive.list (plainArchive.served [plainPut [1] 100, plainPut [2] 3]).1
        firstPlayer = .ok response ∧
      ∀ attempt ∈ (plainArchive.served [plainPut [1] 100, plainPut [2] 3]).2,
        ∀ receipt ∈ plainArchive.decode attempt.request.content,
          firstPlayer ∈ receipt.receipt.outcomes.map HandOutcome.playerId →
          attempt.request.address ∈ response.addresses) ∧
    ∀ attempt ∈ (plainArchive.served [plainPut [1] 100, plainPut [2] 3]).2,
      ∃ response, plainArchive.fetch (plainArchive.served [plainPut [1] 100, plainPut [2] 3]).1
          attempt.request.address = .ok response ∧
        response.content = some attempt.request.content :=
  archive_durable plainArchive firstPlayer [plainPut [1] 100, plainPut [2] 3]
    (by decide +kernel)

/-- The first put is accepted and listed; after a second one that crashes when the index
entry of the player has been created, the player's receipts are not listed any more. -/
theorem crash_blocks_list :
    (plainArchive.served [plainPut [1] 100]).2.length = 1 ∧
      isOk (plainArchive.list (plainArchive.served [plainPut [1] 100]).1 firstPlayer) = true ∧
      isOk (plainArchive.list (plainArchive.served [plainPut [1] 100, plainPut [2] 5]).1
        firstPlayer) = false := by
  decide +kernel

end VolunteerArchive

end TokenHoldem
