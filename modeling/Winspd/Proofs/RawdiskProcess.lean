import Winspd.Lib.Threads
import Winspd.Proofs.PartitionTable
import Winspd.Rawdisk.Process

/-!
# What the threads of the raw disk hold

The accounts of the threads of the process. That of the main thread is the resources
it has, the last acquired first, and what it knows about the file: the functions of
`rawdisk.c` release in the reverse order on every path. A thread for a console event
holds the lock of the guard, and a dispatcher thread has the object that its unit
leads to.

`ProcessAccount.May` says what is allowed at each point, and the functions of
`rawdisk.c` are safe for it, one lemma for each. Whether what they use is still
there is not a matter of one thread, and is left to `Proofs.RawdiskLifetimes`.
-/

namespace Winspd.Proofs

open Winspd.Lib Winspd.Sys Winspd.Shared Winspd.Rawdisk

/-! ## Accounts -/

inductive ResourceKind
  | memory
  | file
  | mapping
  | view
  | unit
  deriving DecidableEq, Repr

/-- What the main thread knows about the file, and has done to it. -/
inductive FileStage
  | unknown
  | sized (size : UInt64)
  | pointed (size newSize : UInt64)
  | ended (size newSize : UInt64)
  | tabled (newSize : UInt64) (table : List UInt8)

structure MainAccount where
  held : List (ResourceKind × Nat)
  file : FileStage
  /-- The parameters of the unit. -/
  params : StorageUnitParams
  userContext : Option RawDiskObject
  /-- There can be dispatcher threads. -/
  dispatching : Bool
  /-- It has the lock of the guard. -/
  locked : Bool
  /-- `Pointer` of the guard. -/
  guarded : Option Nat

/-- The result of `SpdDefinePartitionTable` for one partition. -/
def definesTable (partition : SpdPartition) : UInt32 × List UInt8 :=
  spdDefinePartitionTable (fun _ => partition) 1 []

def objectHeld (o : RawDiskObject) : List (ResourceKind × Nat) :=
  [(.unit, o.storageUnit), (.view, o.pointer), (.mapping, o.mapping), (.file, o.handle),
    (.memory, o.memory)]

namespace MainAccount

def Frees (g : MainAccount) (kind : ResourceKind) (r : Nat) : Prop :=
  g.held.head? = some (kind, r) ∧ g.dispatching = false ∧ g.guarded = none

def push (g : MainAccount) (kind : ResourceKind) (r : Nat) : MainAccount :=
  { g with held := (kind, r) :: g.held }

def pop (g : MainAccount) : MainAccount := { g with held := g.held.tail }

def next (g : MainAccount) : (a : ProcessAction) → a.Answer → MainAccount
  | .malloc, some memory => g.push .memory memory
  | .free (some _), _ => g.pop
  | .createFile, .ok handle => g.push .file handle
  | .getFileSizeEx _, .ok size => { g with file := .sized size }
  | .setFilePointerEx _ distance, error =>
      match g.file with
      | .sized size => if error = 0 then { g with file := .pointed size distance } else g
      | _ => g
  | .setEndOfFile _, error =>
      match g.file with
      | .pointed size newSize => if error = 0 then { g with file := .ended size newSize } else g
      | _ => g
  | .createFileMapping _, .ok mapping => g.push .mapping mapping
  | .mapViewOfFile _, .ok pointer => g.push .view pointer
  | .unmapViewOfFile _, _ => g.pop
  | .closeHandle _, _ => g.pop
  | .spdDefinePartitionTable partition _, error =>
      match g.file with
      | .ended _ newSize =>
          if error = mbrSuccess then { g with file := .tabled newSize (definesTable partition).2 }
          else g
      | _ => g
  | .spdStorageUnitCreate params, .ok storageUnit =>
      { g.push .unit storageUnit with params := params }
  | .spdStorageUnitCreate params, .error _ => { g with params := params }
  | .spdStorageUnitDelete _, _ => g.pop
  | .setUserContext _ rawDisk, _ => { g with userContext := some rawDisk }
  | .spdStorageUnitStartDispatcher _ _, error => { g with dispatching := error = 0 }
  | .spdStorageUnitWaitDispatcher _, _ => { g with dispatching := false }
  | .acquireExclusive, _ => { g with locked := true }
  | .releaseExclusive, _ => { g with locked := false }
  | .setPointer pointer, _ => { g with guarded := pointer }
  | _, _ => g

def May (g : MainAccount) : ProcessAction → Prop
  | .uuidCreate | .wideCharToMultiByte .. | .free none | .setConsoleCtrlHandler => True
  | .exitProcess _ => True
  | .malloc | .createFile | .spdStorageUnitCreate _ => g.dispatching = false
  | .free (some memory) => g.Frees .memory memory
  | .setSparse handle => (.file, handle) ∈ g.held
  | .getFileSizeEx handle => (.file, handle) ∈ g.held ∧ g.file = .unknown
  -- the size of a file that is not empty does not change
  | .setFilePointerEx handle distance =>
      (.file, handle) ∈ g.held ∧ ∃ size, g.file = .sized size ∧
      (size = 0 ∨ size = distance)
  | .setEndOfFile handle => (.file, handle) ∈ g.held ∧ ∃ size newSize,
      g.file = .pointed size newSize
  | .createFileMapping handle => (.file, handle) ∈ g.held ∧ g.dispatching = false
  | .mapViewOfFile mapping => (.mapping, mapping) ∈ g.held ∧ g.dispatching = false
  | .unmapViewOfFile pointer => g.Frees .view pointer
  | .closeHandle handle => g.Frees .mapping handle ∨ g.Frees .file handle
  | .spdDefinePartitionTable partition pointer => (.view, pointer) ∈ g.held ∧
      ∃ newSize, g.file = .ended 0 newSize ∧
        ((definesTable partition).1 = mbrSuccess →
          (definesTable partition).2.length ≤ newSize.toNat)
  | .file pointer handle a => (.view, pointer) ∈ g.held ∧ (.file, handle) ∈ g.held ∧
      (a = .flushViewOfFile 0 0 ∨ a = .flushFileBuffers)
  | .spdStorageUnitDelete storageUnit => g.Frees .unit storageUnit
  | .setUserContext storageUnit rawDisk =>
      storageUnit = rawDisk.storageUnit ∧ g.held = objectHeld rawDisk ∧ g.dispatching = false
  | .spdStorageUnitStartDispatcher storageUnit _ => g.dispatching = false ∧ ∃ rawDisk,
      g.userContext = some rawDisk ∧ storageUnit = rawDisk.storageUnit ∧
      g.held = objectHeld rawDisk
  | .spdStorageUnitWaitDispatcher storageUnit => (.unit, storageUnit) ∈ g.held
  | .acquireExclusive => g.locked = false
  | .releaseExclusive => g.locked = true
  | .setPointer pointer => g.locked = true ∧ ∀ storageUnit, pointer = some storageUnit →
      (.unit, storageUnit) ∈ g.held
  | _ => False

def Told : (a : ProcessAction) → a.Answer → Prop
  | .createFile, .error error => error ≠ 0
  | .getFileSizeEx _, .error error => error ≠ 0
  | .createFileMapping _, .error error => error ≠ 0
  | .mapViewOfFile _, .error error => error ≠ 0
  | .spdStorageUnitCreate _, .error error => error ≠ 0
  | .spdDefinePartitionTable partition _, error => error = (definesTable partition).1
  | _, _ => True

end MainAccount

inductive ProcessAccount
  | main (g : MainAccount)
  | outside
  /-- With the lock of the guard, and what was read of its pointer. -/
  | console (pointer : Option Nat)
  | dispatcher (rawDisk : RawDiskObject)

namespace ProcessAccount

def next : ProcessAccount → (a : ProcessAction) → a.Answer → ProcessAccount
  | .main g, a, r => .main (g.next a r)
  | _, .acquireShared, _ => .console none
  | _, .releaseShared, _ => .outside
  | .console _, .readPointer, pointer => .console pointer
  | _, .beginThread, rawDisk => .dispatcher rawDisk
  | _, .endThread, _ => .outside
  | g, _, _ => g

def May : ProcessAccount → ProcessAction → Prop
  | .main g, a => g.May a
  | .outside, .consoleCtrl | .outside, .acquireShared | .outside, .beginThread => True
  | .console _, .readPointer | .console _, .releaseShared => True
  | .console pointer, .spdStorageUnitShutdown storageUnit =>
      storageUnit = pointer ∧ pointer ≠ none
  | .dispatcher rawDisk, .useUnit storageUnit => storageUnit = rawDisk.storageUnit
  | .dispatcher rawDisk, .createThread storageUnit => storageUnit = rawDisk.storageUnit
  | .dispatcher rawDisk, .file pointer handle _ =>
      pointer = rawDisk.pointer ∧ handle = rawDisk.handle
  | .dispatcher _, .endThread => True
  | _, _ => False

def Told : ProcessAccount → (a : ProcessAction) → a.Answer → Prop
  | .main _, a, r => MainAccount.Told a r
  -- nobody has changed it
  | .console (some storageUnit), .readPointer, pointer => pointer = some storageUnit
  | _, _, _ => True

def Settled : ProcessAccount → Prop
  | .main g => g.held = []
  | .outside => True
  | _ => False

end ProcessAccount

def processRules : Rules ProcessAction ProcessAction.Answer ProcessAccount where
  start := .outside
  track a r g := g.next a r
  May g a := g.May a
  Answers g a r := g.Told a r
  Settled g := g.Settled

/-! ## The table -/

section

variable {args : RawDiskArgs}

theorem definesTable_cases (partition : SpdPartition) :
    (SpdPartition.Unrepresentable partition ∧ (definesTable partition).1 ≠ mbrSuccess) ∨
      (¬ SpdPartition.Unrepresentable partition ∧ (definesTable partition).1 = mbrSuccess ∧
        TableOf (fun _ => partition) 1 (definesTable partition).2) := by
  have hfail : mbrInvalidParameter ≠ mbrSuccess := by decide
  unfold definesTable
  rcases @spdDefinePartitionTable_cases (fun _ => partition) 1 [] with
    ⟨hlarge | ⟨i, -, hno⟩, heq⟩ | ⟨hle, hfits, heq⟩
  · exact absurd hlarge (by decide)
  · rw [heq]
    exact .inl ⟨hno, hfail⟩
  · rw [heq]
    exact .inr ⟨hfits 0 (by decide), rfl, tableOf_fill hle hfits⟩

theorem blockAddress_toNat : args.partition.blockAddress.toNat =
    if args.blockLength.toNat ≤ 4096 then 4096 / args.blockLength.toNat else 1 := by
  have hle : args.blockLength ≤ 4096 ↔ args.blockLength.toNat ≤ 4096 := UInt32.le_iff_toNat_le
  unfold RawDiskArgs.partition
  by_cases h : args.blockLength.toNat ≤ 4096
  · simp [hle, h]
  · simp [hle, h]

theorem partition_unrepresentable_iff : SpdPartition.Unrepresentable args.partition ↔
    args.blockCount.toNat ≤ args.partition.blockAddress.toNat ∨
    2 ^ 32 ≤ args.blockCount.toNat := by
  have hcount : args.partition.blockCount.toNat =
      (2 ^ 64 - args.partition.blockAddress.toNat + args.blockCount.toNat) % 2 ^ 64 :=
    UInt64.toNat_sub ..
  have hbc := args.blockCount.toNat_lt
  have hba := args.partition.blockAddress.toNat_lt
  have hzero : args.partition.blockCount = 0 ↔ args.partition.blockCount.toNat = 0 := by
    rw [← UInt64.toNat_inj, UInt64.toNat_zero]
  rw [SpdPartition.Unrepresentable, hzero, hcount]
  omega

theorem size_toNat (hsmall : args.blockCount.toNat * args.blockLength.toNat < 2 ^ 64) :
    args.size.toNat = args.blockCount.toNat * args.blockLength.toNat := by
  unfold RawDiskArgs.size
  rw [UInt64.toNat_mul, UInt32.toNat_toUInt64, Nat.mod_eq_of_lt hsmall]

theorem blockLength_pos (hsize : args.size ≠ 0) : 0 < args.blockLength.toNat := by
  refine Nat.pos_of_ne_zero fun h => hsize ?_
  rw [← UInt64.toNat_inj, UInt64.toNat_zero,
    size_toNat (by rw [h, Nat.mul_zero]; exact Nat.two_pow_pos 64), h,
    Nat.mul_zero]

theorem record_before (hlength : 0 < args.blockLength.toNat) :
    512 ≤ args.partition.blockAddress.toNat * args.blockLength.toNat := by
  rw [blockAddress_toNat]
  split
  · next hle =>
      have hdiv := Nat.div_add_mod' 4096 args.blockLength.toNat
      have hmod := Nat.mod_lt 4096 hlength
      have hpos : 1 ≤ 4096 / args.blockLength.toNat := Nat.div_pos hle hlength
      have hmul := Nat.le_mul_of_pos_left args.blockLength.toNat hpos
      omega
  · omega

theorem table_fits (hsize : args.size ≠ 0) (h : (definesTable args.partition).1 = mbrSuccess) :
    (definesTable args.partition).2.length ≤ args.size.toNat := by
  rcases definesTable_cases args.partition with ⟨-, hfail⟩ | ⟨hfits, -, htable⟩
  · exact absurd h hfail
  · rw [partition_unrepresentable_iff, not_or, Nat.not_le, Nat.not_le] at hfits
    obtain ⟨hfirst, hcount⟩ := hfits
    have hlength := args.blockLength.toNat_lt
    have hsmall : args.blockCount.toNat * args.blockLength.toNat < 2 ^ 64 := by
      calc args.blockCount.toNat * args.blockLength.toNat
          ≤ 2 ^ 32 * args.blockLength.toNat := Nat.mul_le_mul_right _ (Nat.le_of_lt hcount)
        _ < 2 ^ 64 := by omega
    rw [htable.length, size_toNat hsmall]
    calc 512 ≤ args.partition.blockAddress.toNat * args.blockLength.toNat :=
          record_before (blockLength_pos hsize)
      _ ≤ args.blockCount.toNat * args.blockLength.toNat :=
          Nat.mul_le_mul_right _ (Nat.le_of_lt hfirst)

end

/-! ## RawDiskCreate -/

variable {g : MainAccount} {args : RawDiskArgs} {params : StorageUnitParams} {error : UInt32}
  {held rest : List (ResourceKind × Nat)} {stage : FileStage} {r : Nat} {kind : ResourceKind}

theorem main_bind {α : Type} {Q : α → ProcessAccount → Prop} {a : ProcessAction}
    {f : a.Answer → ProcessProg α} (hmay : g.May a)
    (h : ∀ r, MainAccount.Told a r → processRules.Safe Q (.main (g.next a r)) (f r)) :
    processRules.Safe Q (.main g) (processAction a >>= f) := .perform_bind hmay h

/-- There are no dispatcher threads, and the guard is not set. -/
def MainAccount.Quiet (g : MainAccount) : Prop :=
  g.dispatching = false ∧ g.locked = false ∧ g.guarded = none

theorem ifThere_bind {α : Type} {Q : α → ProcessAccount → Prop} {p : Nat → ProcessProg Unit}
    {f : Unit → ProcessProg α} {x : Option Nat} (hquiet : g.Quiet)
    (hheld : g.held = (x.map fun r => (kind, r)).toList ++ rest)
    (hp : ∀ r, g.Frees kind r → processRules.Safe (fun _ g' => g' = .main g.pop)
      (.main g) (p r))
    (hf : processRules.Safe Q (.main { g with held := rest }) (f ())) :
    processRules.Safe Q (.main g) (ifThere p x >>= f) := by
  cases x with
  | none =>
      obtain rfl : g.held = rest := hheld
      exact hf
  | some r =>
      have hfrees : g.Frees kind r := by
        refine ⟨?_, hquiet.1, hquiet.2.2⟩
        rw [hheld]
        rfl
      have hpop : g.pop = { g with held := rest } := by
        unfold MainAccount.pop
        rw [hheld]
        rfl
      refine (hp r hfrees).bind fun _ g' hg' => ?_
      rw [hg', hpop]
      exact hf

def localsHeld (v : RawDiskLocals) : List (ResourceKind × Nat) :=
  (v.storageUnit.map fun r => (.unit, r)).toList ++ ((v.pointer.map fun r => (.view, r)).toList ++
    ((v.mapping.map fun r => (.mapping, r)).toList ++ ((v.handle.map fun r => (.file, r)).toList ++
      ((v.rawDisk.map fun r => (.memory, r)).toList ++ []))))

def MadeFile (args : RawDiskArgs) : FileStage → Prop
  | .ended size newSize => newSize = args.size ∧ newSize ≠ 0 ∧
      (size = newSize ∨ size = 0 ∧ (definesTable args.partition).1 ≠ mbrSuccess)
  | .tabled newSize table => newSize = args.size ∧ newSize ≠ 0 ∧
      (definesTable args.partition).1 = mbrSuccess ∧ table = (definesTable args.partition).2
  | _ => False

/-- The account, when `RawDiskCreate` has returned. -/
def CreateEnds (args : RawDiskArgs) (r : Except UInt32 RawDiskObject) (g : ProcessAccount) : Prop :=
  ∃ x : MainAccount, g = .main x ∧ x.Quiet ∧
    match r with
    | .error error => error ≠ 0 ∧ x.held = []
    | .ok rawDisk => x.held = objectHeld rawDisk ∧ x.userContext = some rawDisk ∧
        rawDisk.rawDisk.blockCount = args.blockCount ∧
        rawDisk.rawDisk.blockLength = args.blockLength ∧
        x.params.blockCount = args.blockCount ∧ x.params.blockLength = args.blockLength ∧
        MadeFile args x.file

theorem rawDiskExit_safe {v : RawDiskLocals} (hquiet : g.Quiet) (hheld : g.held = localsHeld v)
    (herror : error ≠ 0) :
    processRules.Safe (CreateEnds args) (.main g) (rawDiskExit v error) := by
  refine ifThere_bind hquiet hheld (fun r hfrees => ⟨hfrees, fun _ _ => rfl⟩) ?_
  refine ifThere_bind hquiet rfl (fun r hfrees => ⟨hfrees, fun _ _ => rfl⟩) ?_
  refine ifThere_bind hquiet rfl (fun r hfrees => ⟨.inl hfrees, fun _ _ => rfl⟩) ?_
  refine ifThere_bind hquiet rfl (fun r hfrees => ⟨.inr hfrees, fun _ _ => rfl⟩) ?_
  cases hdisk : v.rawDisk with
  | none => exact main_bind trivial fun _ _ => ⟨_, rfl, hquiet, herror, rfl⟩
  | some rawDisk =>
      refine main_bind ⟨rfl, hquiet.1, hquiet.2.2⟩ fun _ _ => ?_
      exact ⟨_, rfl, hquiet, herror, rfl⟩

def creating (held : List (ResourceKind × Nat)) (stage : FileStage) (params : StorageUnitParams)
    (userContext : Option RawDiskObject) : MainAccount :=
  ⟨held, stage, params, userContext, false, false, none⟩

theorem quiet_creating {userContext : Option RawDiskObject} :
    (creating held stage params userContext).Quiet := ⟨rfl, rfl, rfl⟩

variable {userContext : Option RawDiskObject} {params₀ : StorageUnitParams}
  {rawDisk handle mapping pointer : Nat} {sparse : Bool} {size newSize : UInt64}

def EndSet (args : RawDiskArgs) (size newSize : UInt64) : Prop :=
  newSize = args.size ∧ newSize ≠ 0 ∧ (size = 0 ∨ size = newSize)

theorem rawDiskTable_safe (hended : EndSet args size newSize) (hview : (.view, pointer) ∈ held)
    (hfile : (.file, handle) ∈ held) :
    processRules.Safe
      (fun _ g => ∃ stage, g = .main (creating held stage params userContext) ∧
        MadeFile args stage)
      (.main (creating held (.ended size newSize) params userContext))
      (rawDiskTable args handle pointer (size = 0)) := by
  obtain ⟨hnew, hne, hsize⟩ := hended
  unfold rawDiskTable
  by_cases hzero : size = 0
  · subst hzero
    rw [if_pos (decide_eq_true rfl)]
    have hfits : (definesTable args.partition).1 = mbrSuccess →
        (definesTable args.partition).2.length ≤ newSize.toNat := by
      rw [hnew]
      exact table_fits (hnew ▸ hne)
    refine main_bind ⟨hview, newSize, rfl, hfits⟩ fun error htold => ?_
    obtain rfl : error = (definesTable args.partition).1 := htold
    by_cases hok : (definesTable args.partition).1 = mbrSuccess
    · rw [if_pos hok]
      have hnext : (creating held (.ended 0 newSize) params userContext).next
          (.spdDefinePartitionTable args.partition pointer) (definesTable args.partition).1 =
          creating held (.tabled newSize (definesTable args.partition).2) params userContext :=
        if_pos hok
      rw [hnext]
      refine main_bind ⟨hview, hfile, .inl rfl⟩ fun _ _ => ?_
      refine main_bind ⟨hview, hfile, .inr rfl⟩ fun _ _ => ?_
      exact ⟨_, rfl, hnew, hne, hok, rfl⟩
    · rw [if_neg hok]
      have hnext : (creating held (.ended 0 newSize) params userContext).next
          (.spdDefinePartitionTable args.partition pointer) (definesTable args.partition).1 =
          creating held (.ended 0 newSize) params userContext := if_neg hok
      rw [hnext]
      exact ⟨_, rfl, hnew, hne, .inr ⟨rfl, hok⟩⟩
  · rw [if_neg (by rw [decide_eq_true_eq]; exact hzero)]
    exact ⟨_, rfl, hnew, hne, .inl (hsize.resolve_left hzero)⟩

theorem rawDiskUnit_safe (hmade : MadeFile args stage)
    (hcount : params.blockCount = args.blockCount)
    (hlength : params.blockLength = args.blockLength) :
    processRules.Safe (CreateEnds args)
      (.main (creating [(.view, pointer), (.mapping, mapping), (.file, handle), (.memory, rawDisk)]
        stage params₀ userContext))
      (rawDiskUnit args params sparse rawDisk handle mapping pointer) := by
  refine main_bind rfl fun r htold => ?_
  cases r with
  | error error => exact rawDiskExit_safe quiet_creating rfl htold
  | ok storageUnit =>
      refine main_bind ⟨rfl, rfl, rfl⟩ fun _ _ => ?_
      exact ⟨_, rfl, ⟨rfl, rfl, rfl⟩, rfl, rfl, rfl, rfl, hcount, hlength, hmade⟩

theorem rawDiskMap_safe (hended : EndSet args size newSize)
    (hcount : params.blockCount = args.blockCount)
    (hlength : params.blockLength = args.blockLength) :
    processRules.Safe (CreateEnds args)
      (.main (creating [(.file, handle), (.memory, rawDisk)] (.ended size newSize) params₀
        userContext))
      (rawDiskMap args params sparse (size = 0) rawDisk handle) := by
  refine main_bind ⟨List.mem_cons_self, rfl⟩ fun r htold => ?_
  cases r with
  | error error => exact rawDiskExit_safe quiet_creating rfl htold
  | ok mapping =>
      refine main_bind ⟨List.mem_cons_self, rfl⟩ fun r htold => ?_
      cases r with
      | error error => exact rawDiskExit_safe quiet_creating rfl htold
      | ok pointer =>
          refine (rawDiskTable_safe hended List.mem_cons_self ?_).bind fun _ g hg => ?_
          · exact List.mem_cons_of_mem _ (List.mem_cons_of_mem _ List.mem_cons_self)
          · obtain ⟨stage, rfl, hmade⟩ := hg
            exact rawDiskUnit_safe hmade hcount hlength

theorem rawDiskResize_safe (hended : EndSet args size newSize)
    (hcount : params.blockCount = args.blockCount)
    (hlength : params.blockLength = args.blockLength) :
    processRules.Safe (CreateEnds args)
      (.main (creating [(.file, handle), (.memory, rawDisk)] (.sized size) params₀ userContext))
      (rawDiskResize args params sparse (size = 0) newSize rawDisk handle) := by
  refine main_bind ⟨List.mem_cons_self, size, rfl, hended.2.2⟩ fun error _ => ?_
  by_cases herror : error = errorSuccess
  · subst herror
    rw [if_neg (by simp)]
    refine main_bind ⟨List.mem_cons_self, size, newSize, rfl⟩ fun error _ => ?_
    by_cases herror : error = errorSuccess
    · subst herror
      rw [if_neg (by simp)]
      exact rawDiskMap_safe hended hcount hlength
    · rw [if_pos herror]
      have hnext : (creating [(.file, handle), (.memory, rawDisk)] (.pointed size newSize) params₀
          userContext).next (.setEndOfFile handle) error =
          creating [(.file, handle), (.memory, rawDisk)] (.pointed size newSize) params₀
            userContext :=
        if_neg herror
      have hexit : processRules.Safe (CreateEnds args)
          (.main (creating [(.file, handle), (.memory, rawDisk)] (.pointed size newSize) params₀
            userContext))
          (rawDiskExit ⟨some rawDisk, some handle, none, none, none⟩ error) :=
        rawDiskExit_safe quiet_creating rfl herror
      rw [← hnext] at hexit
      exact hexit
  · rw [if_pos herror]
    have hnext : (creating [(.file, handle), (.memory, rawDisk)] (.sized size) params₀
        userContext).next (.setFilePointerEx handle newSize) error =
        creating [(.file, handle), (.memory, rawDisk)] (.sized size) params₀ userContext :=
      if_neg herror
    rw [hnext]
    exact rawDiskExit_safe quiet_creating rfl herror

theorem rawDiskOpened_safe (hcount : params.blockCount = args.blockCount)
    (hlength : params.blockLength = args.blockLength) :
    processRules.Safe (CreateEnds args)
      (.main (creating [(.file, handle), (.memory, rawDisk)] .unknown params₀ userContext))
      (rawDiskOpened args params rawDisk handle) := by
  refine main_bind List.mem_cons_self fun sparse _ => ?_
  refine main_bind ⟨List.mem_cons_self, rfl⟩ fun r htold => ?_
  cases r with
  | error error => exact rawDiskExit_safe quiet_creating rfl htold
  | ok size =>
      dsimp only
      generalize hfile : (if decide (size = 0) = true then args.size else size) = fileSize
      split
      · have herror : errorInvalidParameter ≠ 0 := by decide
        exact rawDiskExit_safe quiet_creating rfl herror
      · next hsize =>
          rw [not_or, not_ne_iff] at hsize
          obtain ⟨hne, heq⟩ := hsize
          refine rawDiskResize_safe ⟨heq.symm, hne, ?_⟩ hcount hlength
          by_cases hzero : size = 0
          · exact .inl hzero
          · rw [if_neg (by simpa using hzero)] at hfile
            exact .inr hfile

theorem rawDiskParams_safe :
    processRules.Safe
      (fun params g' => g' = .main g ∧ ∀ p, params = some p →
        p.blockCount = args.blockCount ∧ p.blockLength = args.blockLength)
      (.main g) (rawDiskParams args) := by
  refine main_bind trivial fun guid _ => main_bind trivial fun productId _ => ?_
  cases productId with
  | none => exact ⟨rfl, fun p hp => by cases hp⟩
  | some productId =>
      refine main_bind trivial fun productRevision _ => ?_
      cases productRevision with
      | none => exact ⟨rfl, fun p hp => by cases hp⟩
      | some productRevision =>
          refine ⟨rfl, fun p hp => ?_⟩
          cases hp
          exact ⟨rfl, rfl⟩

theorem rawDiskCreate_safe :
    processRules.Safe (CreateEnds args) (.main (creating [] .unknown params₀ userContext))
      (rawDiskCreate args) := by
  refine rawDiskParams_safe.bind fun params g hg => ?_
  obtain ⟨rfl, hparams⟩ := hg
  cases params with
  | none =>
      have herror : errorInvalidParameter ≠ 0 := by decide
      exact rawDiskExit_safe quiet_creating rfl herror
  | some params =>
      obtain ⟨hcount, hlength⟩ := hparams params rfl
      refine main_bind rfl fun rawDisk _ => ?_
      cases rawDisk with
      | none =>
          have herror : Rawdisk.errorNotEnoughMemory ≠ 0 := by decide
          exact rawDiskExit_safe quiet_creating rfl herror
      | some rawDisk =>
          refine main_bind rfl fun r htold => ?_
          cases r with
          | error error => exact rawDiskExit_safe quiet_creating rfl htold
          | ok handle => exact rawDiskOpened_safe hcount hlength

/-! ## The threads -/

variable {object : RawDiskObject}

theorem spdGuardSet_bind {α : Type} {Q : α → ProcessAccount → Prop}
    {f : Unit → ProcessProg α}
    {pointer : Option Nat} (hlocked : g.locked = false)
    (hpointer : ∀ storageUnit, pointer = some storageUnit → (.unit, storageUnit) ∈ g.held)
    (hf : processRules.Safe Q (.main { g with guarded := pointer }) (f ())) :
    processRules.Safe Q (.main g) (spdGuardSet pointer >>= f) := by
  obtain ⟨held, stage, params, userContext, dispatching, locked, guarded⟩ := g
  obtain rfl : locked = false := hlocked
  refine main_bind rfl fun _ _ => main_bind ⟨rfl, hpointer⟩ fun _ _ =>
    main_bind rfl fun _ _ => ?_
  exact hf

theorem rawDiskDelete_safe (hquiet : g.Quiet) (hheld : g.held = objectHeld object) :
    processRules.Safe (fun _ => processRules.Settled) (.main g) (rawDiskDelete object) := by
  obtain ⟨held, stage, params, userContext, dispatching, locked, guarded⟩ := g
  obtain ⟨rfl, rfl, rfl⟩ := hquiet
  obtain rfl : held = objectHeld object := hheld
  refine main_bind ⟨rfl, rfl, rfl⟩ fun _ _ => ?_
  refine main_bind ⟨List.mem_cons_self, ?_, .inl rfl⟩ fun _ _ => ?_
  · exact List.mem_cons_of_mem _ (List.mem_cons_of_mem _ List.mem_cons_self)
  refine main_bind ⟨List.mem_cons_self, ?_, .inr rfl⟩ fun _ _ => ?_
  · exact List.mem_cons_of_mem _ (List.mem_cons_of_mem _ List.mem_cons_self)
  refine main_bind ⟨rfl, rfl, rfl⟩ fun _ _ => ?_
  refine main_bind (.inl ⟨rfl, rfl, rfl⟩) fun _ _ => ?_
  refine main_bind (.inr ⟨rfl, rfl, rfl⟩) fun _ _ => ?_
  exact ⟨⟨rfl, rfl, rfl⟩, fun _ _ => rfl⟩

theorem failProcess_safe :
    processRules.Safe (fun _ => processRules.Settled) (.main g) (failProcess error) :=
  main_bind trivial fun never _ => never.elim

theorem rawDiskMain_safe :
    processRules.Safe (fun _ => processRules.Settled) (.main (creating [] .unknown .zero none))
      (rawDiskMain args) := by
  refine rawDiskCreate_safe.bind fun r g' hg' => ?_
  obtain ⟨g, rfl, hquiet, hg⟩ := hg'
  cases r with
  | error error => exact failProcess_safe
  | ok object =>
      obtain ⟨hheld, hcontext, -⟩ := hg
      obtain ⟨held, stage, params, userContext, dispatching, locked, guarded⟩ := g
      obtain ⟨rfl, rfl, rfl⟩ := hquiet
      obtain rfl : held = objectHeld object := hheld
      refine main_bind ⟨rfl, object, hcontext, rfl, rfl⟩ fun error _ => ?_
      split
      · exact failProcess_safe
      · refine spdGuardSet_bind rfl ?_ (main_bind trivial fun _ _ => ?_)
        · rintro storageUnit ⟨⟩
          exact List.mem_cons_self
        · refine main_bind List.mem_cons_self fun _ _ => ?_
          refine spdGuardSet_bind rfl (fun _ h => by cases h) ?_
          exact rawDiskDelete_safe ⟨rfl, rfl, rfl⟩ rfl

theorem consoleCtrlHandler_safe :
    processRules.Safe (fun _ => processRules.Settled) .outside consoleCtrlHandler := by
  refine .perform_bind trivial fun _ _ => .perform_bind trivial fun _ _ => ?_
  refine .perform_bind trivial fun pointer _ => ?_
  cases pointer with
  | none => exact ⟨trivial, fun _ _ => trivial⟩
  | some storageUnit =>
      refine .perform_bind trivial fun pointer htold => ?_
      obtain rfl : pointer = some storageUnit := htold
      refine .perform_bind ⟨rfl, Option.some_ne_none _⟩ fun _ _ => ?_
      exact ⟨trivial, fun _ _ => trivial⟩

theorem dispatcherUses_safe {uses : List DispatcherUse} :
    processRules.Safe (fun _ g => g = .dispatcher object) (.dispatcher object)
      (dispatcherUses object uses) := by
  induction uses with
  | nil => rfl
  | cons use uses ih =>
      have huse : processRules.Safe (fun _ g => g = .dispatcher object) (.dispatcher object)
          (use.prog object) := by
        cases use with
        | unit | create => exact ⟨rfl, fun _ _ => rfl⟩
        | file a => exact ⟨⟨rfl, rfl⟩, fun _ _ => rfl⟩
      refine huse.bind fun _ g hg => ?_
      rw [hg]
      exact ih

theorem diskDispatcherThread_safe {uses : List DispatcherUse} :
    processRules.Safe (fun _ => processRules.Settled) .outside (diskDispatcherThread uses) := by
  refine .perform_bind trivial fun object _ => ?_
  refine dispatcherUses_safe.bind fun _ g hg => ?_
  rw [hg]
  exact ⟨trivial, fun _ _ => trivial⟩

end Winspd.Proofs
