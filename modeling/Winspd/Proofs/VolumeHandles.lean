import Winspd.Launcher.Kill

/-!
# The handles of the dismounted volumes

The handles that are open between the calls of `SvcInstanceKill` are the stored
ones (`StoredOwned`), unless a call finds both a volume that it can dismount
and one that is in use (`Mixed`). Then `OpenAndDismountVolumesForProcessId`
closes what it has opened, and returns how many these were all the same;
`SvcInstanceKill` takes them for open and closes them again.

The loop goes on until it has as many handles as there is room for, so what is
said of a call is said of the volumes it comes to (`visited`).
-/

namespace Winspd.Proofs

open Winspd.Lib Winspd.Launcher

variable {processId : UInt32} {log : HandleLog} {handles : List Nat}

/-! ## What a call finds -/

/-- The process that serves a volume, when it is found out. -/
def volumeOwner : VolumeQuery → Option UInt32
  | .identifiers ids => getVolumeOwnerProcessId ids
  | _ => none

/-- The volume is left dismounted, and its handle open. -/
def staysOpen : VolumeDismount → Bool
  | .dismounted => true
  | _ => false

def volumeInUse : VolumeDismount → Bool
  | .openFails error => errorDeviceInUse = error
  | .lockFails error | .dismountFails error =>
      errorAccessDenied = error ∨ errorDeviceInUse = error
  | .dismounted => false

/-- A volume of the process that is dismounted. -/
def opens (processId : UInt32) (v : VisitedVolume) : Bool :=
  volumeOwner v.query = some processId ∧ staysOpen v.dismount

/-- A volume of the process that is in use. -/
def inUse (processId : UInt32) (v : VisitedVolume) : Bool :=
  volumeOwner v.query = some processId ∧ volumeInUse v.dismount

/-- The volumes that are come to while there is room. -/
def visited (processId : UInt32) : Nat → List VisitedVolume → List VisitedVolume
  | _, [] => []
  | 0, _ :: _ => []
  | room + 1, v :: vs =>
      v :: visited processId (if opens processId v then room else room + 1) vs

def found (processId : UInt32) : VolumeEnumeration → List VisitedVolume
  | .fails _ => []
  | .volumes visits => visited processId killHandles visits

/-- One volume of the process is dismounted, and another one is in use. -/
def Mixed (processId : UInt32) (enumeration : VolumeEnumeration) : Prop :=
  (∃ v ∈ found processId enumeration, opens processId v) ∧
    ∃ v ∈ found processId enumeration, inUse processId v

/-! ## What is open -/

theorem holds_opened (h : log.Holds handles) : (HandleLog.opened log).Holds handles :=
  h.acquire.release

theorem closeHandles_eq :
    closeHandles log handles = { log with events := log.events ++ handles.map .free } := by
  induction handles generalizing log with
  | nil => simp [closeHandles]
  | cons handle handles ih => simp [closeHandles, ih, ResourceLog.release]

theorem holds_closeHandles (h : log.Holds handles) : (closeHandles log handles).Holds [] := by
  induction handles generalizing log with
  | nil => exact h
  | cons handle handles ih => exact ih h.release

/-! ## One volume -/

theorem query_owner {query : VolumeQuery} :
    (getVolumeOwnerProcessIdCall log query).2.toOption = volumeOwner query := by
  cases query with
  | identifiers ids =>
      simp only [getVolumeOwnerProcessIdCall, volumeOwner]
      cases getVolumeOwnerProcessId ids <;> rfl
  | _ => rfl

theorem holds_query (h : log.Holds handles) (query : VolumeQuery) :
    (getVolumeOwnerProcessIdCall log query).1.Holds handles := by
  cases query with
  | openFails error => exact h
  | identifiers ids =>
      simp only [getVolumeOwnerProcessIdCall]
      cases getVolumeOwnerProcessId ids <;> exact holds_opened h
  | _ => exact holds_opened h

theorem dismountError_inUse {error : LastError} :
    errorDeviceInUse = dismountError error ↔
      errorAccessDenied = error.val ∨ errorDeviceInUse = error.val := by
  unfold dismountError
  split <;> simp_all

theorem dismount_cases (h : log.Holds handles) (dismount : VolumeDismount) :
    (staysOpen dismount = true ∧ volumeInUse dismount = false ∧
      ∃ log' handle, openAndDismountVolume log dismount = (log', .ok handle) ∧
        log'.Holds (handles ++ [handle])) ∨
    (staysOpen dismount = false ∧
      ∃ log' error, openAndDismountVolume log dismount = (log', .error error) ∧
        log'.Holds handles ∧ (errorDeviceInUse = error ↔ volumeInUse dismount = true)) := by
  cases dismount with
  | dismounted =>
      have hperm := h.acquire.perm (List.perm_append_singleton _ _).symm
      exact .inl ⟨rfl, rfl, _, _, rfl, hperm⟩
  | openFails error =>
      refine .inr ⟨rfl, _, _, rfl, h, ?_⟩
      simp [volumeInUse]
  | lockFails error =>
      refine .inr ⟨rfl, _, _, rfl, holds_opened h, ?_⟩
      rw [dismountError_inUse]
      simp [volumeInUse]
  | dismountFails error =>
      refine .inr ⟨rfl, _, _, rfl, holds_opened h, ?_⟩
      rw [dismountError_inUse]
      simp [volumeInUse]

/-! ## All volumes -/

variable {count : Nat} {visits : List VisitedVolume}

/-- What the loop has done, from the one state to the other, with these volumes. -/
structure LoopDone (processId : UInt32) (vs : List VisitedVolume) (s s' : DismountLoop) :
    Prop where
  owned : s'.log.Holds s'.handles
  handles : s'.handles.length = s.handles.length + vs.countP (opens processId)
  devicesInUse : s'.devicesInUse = s.devicesInUse + vs.countP (inUse processId)

variable {s s' s'' : DismountLoop} {v : VisitedVolume} {vs ws : List VisitedVolume}

namespace LoopDone

theorem nil (h : s.log.Holds s.handles) : LoopDone processId [] s s := ⟨h, rfl, rfl⟩

theorem append (h : LoopDone processId vs s s') (h' : LoopDone processId ws s' s'') :
    LoopDone processId (vs ++ ws) s s'' := by
  refine ⟨h'.owned, ?_, ?_⟩
  · have hfirst := h.handles
    have hrest := h'.handles
    rw [List.countP_append]
    omega
  · have hfirst := h.devicesInUse
    have hrest := h'.devicesInUse
    rw [List.countP_append]
    omega

end LoopDone

theorem dismountLoop_turn (processId : UInt32) (v : VisitedVolume) (vs : List VisitedVolume)
    (h : s.log.Holds s.handles) (hroom : s.handles.length < count) :
    ∃ s', dismountLoop processId count (v :: vs) s = dismountLoop processId count vs s' ∧
      LoopDone processId [v] s s' := by
  rw [dismountLoop, if_neg (by omega)]
  simp only [query_owner]
  have hquery := holds_query h v.query
  by_cases howner : volumeOwner v.query = some processId
  · rw [if_neg (not_not.mpr howner)]
    rcases dismount_cases hquery v.dismount with
      ⟨hstays, huse, log', handle, heq, howned⟩ | ⟨hstays, log', error, heq, howned, huse⟩
    · have hopens : opens processId v = true := by simp [opens, howner, hstays]
      have huse : inUse processId v = false := by simp [inUse, huse]
      rw [heq]
      exact ⟨_, rfl, howned, by simp [hopens], by simp [huse]⟩
    · have hopens : opens processId v = false := by simp [opens, hstays]
      have huse : inUse processId v = true ↔ errorDeviceInUse = error := by
        simp [inUse, howner, huse]
      rw [heq]
      refine ⟨_, rfl, howned, by simp [hopens], ?_⟩
      simp only [List.countP_singleton, huse]
      split <;> simp
  · have hopens : opens processId v = false := by simp [opens, howner]
    have huse : inUse processId v = false := by simp [inUse, howner]
    rw [if_pos howner]
    exact ⟨_, rfl, hquery, by simp [hopens], by simp [huse]⟩

/-- By induction on the volumes. After a turn there is room for one handle less
when the volume was dismounted. -/
theorem dismountLoop_done (processId : UInt32) (count : Nat) (visits : List VisitedVolume)
    (h : s.log.Holds s.handles) :
    LoopDone processId (visited processId (count - s.handles.length) visits) s
      (dismountLoop processId count visits s) := by
  induction visits generalizing s with
  | nil =>
      rw [visited]
      exact .nil h
  | cons v vs ih =>
      by_cases hroom : count ≤ s.handles.length
      · have hnone : count - s.handles.length = 0 := by omega
        rw [hnone, visited, dismountLoop, if_pos hroom]
        exact .nil h
      · obtain ⟨room, hsome⟩ : ∃ room, count - s.handles.length = room + 1 :=
          ⟨count - s.handles.length - 1, by omega⟩
        obtain ⟨s', heq, hturn⟩ := dismountLoop_turn processId v vs h
          (Nat.lt_of_not_le hroom)
        have hrest := ih hturn.owned
        have hlen := hturn.handles
        have hless : count - s'.handles.length =
            if opens processId v then room else room + 1 := by
          rw [List.countP_singleton] at hlen
          split at hlen <;> rename_i hopens <;> simp only [hopens] <;> simp <;> omega
        rw [hless] at hrest
        rw [hsome, visited, heq]
        exact hturn.append hrest

/-! ## One call -/

variable {enumeration : VolumeEnumeration} {call : KillCall} {x : InstanceVolumes}

/-- What `OpenAndDismountVolumesForProcessId` leaves. -/
inductive DismountDone (processId : UInt32) (enumeration : VolumeEnumeration)
    (r : DismountResult) : Prop
  /-- The handles are open. -/
  | success (error : r.error = errorSuccess) (owned : r.log.Holds r.handles)
      (mixed : ¬ Mixed processId enumeration)
  /-- They are closed, if there are any. -/
  | failure (error : r.error ≠ errorSuccess) (owned : r.log.Holds [])
      (mixed : r.handles ≠ [] ↔ Mixed processId enumeration)

theorem openAndDismountVolumes_count :
    (openAndDismountVolumesForProcessId log processId count enumeration).count =
      (openAndDismountVolumesForProcessId log processId count enumeration).handles.length := by
  cases enumeration <;> rfl

theorem openAndDismountVolumes_done (processId : UInt32) (enumeration : VolumeEnumeration)
    (h : log.Holds []) :
    DismountDone processId enumeration
      (openAndDismountVolumesForProcessId log processId killHandles enumeration) := by
  cases enumeration with
  | fails error =>
      have hnot : ¬ Mixed processId (.fails error) := by simp [Mixed, found]
      refine .failure error.property h (iff_of_false ?_ hnot)
      exact not_not.mpr rfl
  | volumes visits =>
      have hdone := dismountLoop_done processId killHandles visits (s := ⟨log, [], 0⟩) h
      have howned := hdone.owned
      have hlen := hdone.handles
      have hdevices := hdone.devicesInUse
      simp only [List.length_nil, Nat.sub_zero, Nat.zero_add] at hlen hdevices
      simp only [openAndDismountVolumesForProcessId]
      generalize dismountLoop processId killHandles visits ⟨log, [], 0⟩ = s at *
      by_cases hnone : 0 = s.devicesInUse
      · rw [if_pos hnone, if_neg (not_not.mpr rfl)]
        refine .success rfl howned fun hmixed => ?_
        have hpos := List.countP_pos_iff.mpr hmixed.2
        simp only [found] at hpos
        omega
      · rw [if_neg hnone, if_pos (by decide)]
        have herror : errorDeviceInUse ≠ errorSuccess := by decide
        refine .failure herror (holds_closeHandles howned) ?_
        have huse : ∃ v ∈ visited processId killHandles visits, inUse processId v := by
          rw [← List.countP_pos_iff]
          omega
        rw [← List.length_pos_iff, hlen, List.countP_pos_iff]
        exact (and_iff_left huse).symm

/-- The handles that are open are the stored ones. -/
def StoredOwned (x : InstanceVolumes) : Prop := x.log.Holds (x.volumeHandles.getD [])

theorem svcInstanceKill_owned (h : StoredOwned x)
    (hmixed : x.volumeHandles = none → ¬ Mixed processId call.enumeration) :
    StoredOwned (svcInstanceKill processId x call).1 := by
  unfold svcInstanceKill
  split
  · exact h
  · have hnone : x.volumeHandles = none := ‹_›
    have howned : x.log.Holds [] := by simpa [StoredOwned, hnone] using h
    simp only [openAndDismountVolumes_count, List.take_length]
    cases openAndDismountVolumes_done processId call.enumeration howned with
    | success herror howned =>
        split
        · exact howned
        · exact holds_closeHandles howned
    | failure herror howned hmixed' =>
        have hnot := hmixed hnone
        have hempty := not_not.mp (mt hmixed'.mp hnot)
        rw [if_neg (fun hok => herror hok.1.symm), hempty]
        exact howned

theorem svcInstanceKill_mixed (h : StoredOwned x) (hnone : x.volumeHandles = none)
    (hmixed : Mixed processId call.enumeration) :
    ∃ handle, lifetime handle (svcInstanceKill processId x call).1.log.events = none := by
  have howned : x.log.Holds [] := by simpa [StoredOwned, hnone] using h
  unfold svcInstanceKill
  simp only [hnone, openAndDismountVolumes_count, List.take_length]
  cases openAndDismountVolumes_done processId call.enumeration howned with
  | success _ _ hnot => exact absurd hmixed hnot
  | failure herror howned hmixed' =>
      obtain ⟨handle, rest, hhandles⟩ := List.exists_cons_of_ne_nil (hmixed'.mpr hmixed)
      rw [if_neg (fun hok => herror hok.1.symm), hhandles, closeHandles_eq]
      exact ⟨handle, howned.owns.free_unowned List.not_mem_nil⟩

/-! ## All calls -/

/-- Over the life of an instance: what is open between the calls is what is
stored, and at the end every handle that was opened was closed once, and no
other. -/
structure HandlesClosedOnce (processId : UInt32) (calls : List KillCall) : Prop where
  returned : ∀ pre post, calls = pre ++ post →
    Owns (svcInstanceKills processId pre).log.events
      ((svcInstanceKills processId pre).volumeHandles.getD [])
  released : AllFreed (svcInstanceReleaseVolumes (svcInstanceKills processId calls)).events

/-- No call that tries to dismount finds one volume that it dismounts and one that
is in use. -/
def NeverMixed (processId : UInt32) (calls : List KillCall) : Prop :=
  ∀ pre call post, calls = pre ++ call :: post →
    (svcInstanceKills processId pre).volumeHandles = none → ¬ Mixed processId call.enumeration

theorem svcInstanceKills_snoc {calls : List KillCall} :
    svcInstanceKills processId (calls ++ [call]) =
      (svcInstanceKill processId (svcInstanceKills processId calls) call).1 :=
  List.foldl_concat ..

variable {calls : List KillCall}

theorem svcInstanceKills_owned (h : NeverMixed processId calls) :
    StoredOwned (svcInstanceKills processId calls) := by
  induction calls using List.reverseRecOn with
  | nil => exact ResourceLog.Holds.empty
  | append_singleton calls call ih =>
      rw [svcInstanceKills_snoc]
      refine svcInstanceKill_owned (ih fun pre c post heq => ?_) (h calls call [] rfl)
      exact h pre c (post ++ [call]) (by simp [heq])

theorem release_freed {x : InstanceVolumes} (h : StoredOwned x) :
    AllFreed (svcInstanceReleaseVolumes x).events := by
  rw [← owns_nil_iff]
  unfold svcInstanceReleaseVolumes
  unfold StoredOwned at h
  split <;> rename_i hhandles <;> rw [hhandles] at h
  · exact (holds_closeHandles h).owns
  · exact h.owns

/-- The first call that is mixed closes a handle again. By induction on the calls,
so that up to the last of them what is open is what is stored. -/
theorem neverMixed_of_returned (h : ∀ pre post, calls = pre ++ post →
    Owns (svcInstanceKills processId pre).log.events
      ((svcInstanceKills processId pre).volumeHandles.getD [])) :
    NeverMixed processId calls := by
  induction calls using List.reverseRecOn with
  | nil =>
      intro pre call post heq
      simp at heq
  | append_singleton calls last ih =>
      have hcalls : NeverMixed processId calls :=
        ih fun pre post heq => h pre (post ++ [last]) (by simp [heq])
      intro pre call post heq hnone hmixed
      rcases List.eq_nil_or_concat post with rfl | ⟨post, call', rfl⟩
      · obtain ⟨rfl, hlast⟩ := List.append_inj' heq rfl
        cases hlast
        have hlog := (h (calls ++ [last]) [] (by simp)).lifetime
        obtain ⟨handle, htwice⟩ :=
          svcInstanceKill_mixed (svcInstanceKills_owned hcalls) hnone hmixed
        rw [svcInstanceKills_snoc] at hlog
        have hsome := hlog handle
        rw [htwice] at hsome
        cases hsome
      · rw [List.concat_eq_append, ← List.cons_append, ← List.append_assoc] at heq
        obtain ⟨rfl, -⟩ := List.append_inj' heq rfl
        exact hcalls pre call post rfl hnone hmixed

/-- Every handle of a volume is closed once, in every sequence of calls, if and only if no
call finds a volume in use beside one that it dismounts. -/
theorem volume_handles :
    HandlesClosedOnce processId calls ↔ NeverMixed processId calls := by
  constructor
  · intro h
    exact neverMixed_of_returned h.returned
  · intro h
    refine ⟨fun pre post heq => ?_, release_freed (svcInstanceKills_owned h)⟩
    refine (svcInstanceKills_owned fun pre' call post' heq' => ?_).owns
    exact h pre' call (post' ++ post) (by simp [heq, heq'])

/-! ## A handle that is closed twice -/

/-- The identifier of the disks of process 1. -/
def oneIdentifier : StorageIdentifier :=
  ⟨storageIdCodeSetBinary, storageIdTypeVendorSpecific, storageIdAssocDevice,
    [0x50, 0x49, 0x44, 0x20, 0, 0, 0, 1]⟩

/-- A process with two volumes. Another process has a file open on the second. -/
def oneOfTwo : KillCall where
  forced := false
  enumeration := .volumes
    [⟨.identifiers [oneIdentifier], .dismounted⟩,
      ⟨.identifiers [oneIdentifier], .lockFails ⟨errorAccessDenied, by decide⟩⟩]
  allocated := true

theorem volume_handles_twice :
    (svcInstanceKills 1 [oneOfTwo]).log.events =
        [.alloc 0, .free 0, .alloc 1, .alloc 2, .free 2, .alloc 3, .free 3, .free 1, .free 1] ∧
      lifetime 1 (svcInstanceReleaseVolumes (svcInstanceKills 1 [oneOfTwo])).events = none ∧
      ¬ HandlesClosedOnce 1 [oneOfTwo] := by
  have hevents : (svcInstanceKills 1 [oneOfTwo]).log.events =
      [.alloc 0, .free 0, .alloc 1, .alloc 2, .free 2, .alloc 3, .free 3, .free 1, .free 1] := by
    decide
  have htwice : lifetime 1
      (svcInstanceReleaseVolumes (svcInstanceKills 1 [oneOfTwo])).events = none := by decide
  refine ⟨hevents, htwice, fun h => ?_⟩
  have hfreed := h.released 1
  rw [htwice] at hfreed
  cases hfreed

end Winspd.Proofs
