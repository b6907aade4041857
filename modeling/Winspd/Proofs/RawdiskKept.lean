import Winspd.Proofs.RawdiskData

/-!
# What the raw disk keeps

Where `rawdisk_read` and `rawdisk_write` are about any transfers, this is about those
that nothing else disturbs. What matters is which requests the driver hands out, because
nothing is done to the file but for a request (`fileEvents_asked`).

A READ gets the bytes of the last WRITE (`rawdisk_read_back`). The bytes of a WRITE with
force unit access, or to a unit without a cache, are on the medium when it is completed
(`rawdisk_durable`). No byte is ever on the medium that was neither in the file at the
start nor asked for (`rawdisk_bytes`), and no thread is ever stopped by what it does, such
as an access outside of the view (`rawdisk_never_stuck`).
-/

namespace Winspd.Proofs

open Winspd.Lib Winspd.Sys Winspd.Shared Winspd.Spec Winspd.Rawdisk

variable {disk : Disk} {unit : StorageUnitParams} {rawDisk : RawDisk} {order : MemcpyOrder}
  {srb srb' : Srb} {range range' : CdbRange}
  {w w' w₀ w₁ w₂ w₃ w₄ w₅ w₆ w₇ v : DiskWorld}
  {ev : DiskEvent} {ls ls' ls₀ ls'' : List DiskEvent} {a a' : Addr} {p j : Nat} {byte : UInt8}
  {mem : ScsiMem} {ioqMem : SpdIoq} {file : RawDiskFile} {data : List UInt8} {r : Request}
  {x : FileEvent}

/-! ## The requests of a run -/

def held (w : DiskWorld) : List Request := w.accounts.filterMap DiskServing.request

def handedOut (ls : List DiskEvent) : List Request := (unitEvents ls).filterMap UnitEvent.handed

theorem mem_held : r ∈ held w ↔ ∃ g ∈ w.accounts, g.request = some r := List.mem_filterMap

theorem handedOut_append : handedOut (ls ++ ls') = handedOut ls ++ handedOut ls' := by
  simp only [handedOut, unitEvents, List.filterMap_append]

/-- A request that a thread has after a step it had before, or was handed in it. -/
theorem DiskStep.held (hw : DiskVerified disk rawDisk w) (h : DiskStep disk rawDisk order w ev w')
    (hr : r ∈ held w') :
    r ∈ held w ∨ ∃ a x, ev = .act a x ∧ DiskThreads.handedBy a x = some r := by
  obtain ⟨g', hg', hgr⟩ := mem_held.mp hr
  cases ev with
  | enter =>
      obtain ⟨hstep, -⟩ := h
      cases hstep with
      | enter =>
          rcases List.mem_cons.mp hg' with rfl | hg'
          · cases hgr
          · exact .inl (mem_held.mpr ⟨g', hg', hgr⟩)
  | leave =>
      obtain ⟨hstep, -⟩ := h
      cases hstep with
      | leave =>
          refine .inl (mem_held.mpr ⟨g', ?_, hgr⟩)
          exact Threads.accounts_middle.mem_iff.mpr (List.mem_cons_of_mem _ hg')
  | act act y =>
      obtain ⟨g, gs, hperm, -, -, -, hperm'⟩ := hw.acting h
      rcases List.mem_cons.mp (hperm'.mem_iff.mp hg') with rfl | hg'
      · rcases track_request hgr with hgr | hgr
        · exact .inl (mem_held.mpr ⟨g, hperm.mem_iff.mpr List.mem_cons_self, hgr⟩)
        · exact .inr ⟨act, y, rfl, hgr⟩
      · exact .inl (mem_held.mpr ⟨g', hperm.mem_iff.mpr (List.mem_cons_of_mem _ hg'), hgr⟩)

theorem mem_handedOut_single {act : DiskAction} {y : act.Answer}
    (h : DiskThreads.handedBy act y = some r) : r ∈ handedOut [.act act y] := by
  obtain ⟨op, rfl⟩ := handedBy_unit h
  have hhanded := handedBy_handed h
  simp [handedOut, unitEvents, unitEventOf, hhanded]

theorem held_run (hw : DiskVerified disk rawDisk w)
    (hrun : Run (DiskStep disk rawDisk order) w ls w') (hr : r ∈ held w') :
    r ∈ held w ++ handedOut ls := by
  induction hrun generalizing r with
  | nil => exact List.mem_append_left _ hr
  | @snoc ls ev v v' hrun hstep ih =>
      rw [handedOut_append, ← List.append_assoc, List.mem_append]
      rcases hstep.held (diskRun_verified hw hrun) hr with hr | ⟨act, y, rfl, hhanded⟩
      · exact .inl (ih hr)
      · exact .inr (mem_handedOut_single hhanded)

/-- Nothing but a flush is done to the file, unless a request asks for it. -/
theorem fileEvents_asked (hw : DiskVerified disk rawDisk w)
    (hrun : Run (DiskStep disk rawDisk order) w ls w') (hx : x ∈ fileEvents ls) :
    (∃ offset length, x.1 = .flushViewOfFile offset length ∨ x.1 = .flushFileBuffers) ∨
      ∃ r ∈ held w ++ handedOut ls, FileMay disk.unit.storageUnitParams r x.1 := by
  obtain ⟨ls₁, ev, ls₂, v, v', c, rfl, hbefore, hstep, -, hev, -⟩ := run_fileEvent hrun hx
  cases ev with
  | enter => cases hev
  | leave => cases hev
  | act act y =>
      cases act with
      | file act =>
          cases hev
          obtain ⟨g, gs, hperm, -, hmay, -, -⟩ := (diskRun_verified hw hbefore).acting hstep
          have hfile : DiskThreads.MayFile disk.unit.storageUnitParams g act := hmay
          unfold DiskThreads.MayFile at hfile
          split at hfile
          · next r hr =>
              have hheld := held_run hw hbefore
                (mem_held.mpr ⟨g, hperm.mem_iff.mpr List.mem_cons_self, hr⟩)
              refine .inr ⟨r, ?_, hfile⟩
              rw [handedOut_append, ← List.append_assoc]
              exact List.mem_append_left _ hheld
          · exact .inl hfile
      | _ => cases hev

/-! ## Bytes that nothing else writes -/

/-- If the request writes at `p`, it writes this byte. -/
def Agrees (unit : StorageUnitParams) (p : Nat) (byte : UInt8) (r : Request) : Prop :=
  ∀ b, WritesAt unit r p b → b = byte

theorem Agrees.keeps (h : Agrees unit p byte r)
    (hmay : FileMay unit r x.1) : KeepsByte p byte x := by
  obtain ⟨act, answer⟩ := x
  cases act with
  | store offset b =>
      intro hp
      subst hp
      exact h b hmay
  | setZeroData fileOffset beyondFinalZero => exact fun hlo hhi => (h 0 (hmay p hlo hhi)).symm
  | _ => trivial

theorem keeps_of_agrees (hw : DiskVerified disk rawDisk w)
    (hrun : Run (DiskStep disk rawDisk order) w ls w')
    (h : ∀ r ∈ held w ++ handedOut ls, Agrees disk.unit.storageUnitParams p byte r) :
    ∀ x ∈ fileEvents ls, KeepsByte p byte x := by
  intro x hx
  rcases fileEvents_asked hw hrun hx with ⟨offset, length, hflush⟩ | ⟨r, hr, hmay⟩
  · obtain ⟨act, answer⟩ := x
    obtain rfl | rfl := hflush <;> trivial
  · exact (h r hr).keeps hmay

/-- The request writes to no byte of the range. -/
def Elsewhere (unit : StorageUnitParams) (range : CdbRange) (r : Request) : Prop :=
  ∀ j < transferBytes unit range, ∀ byte, ¬ WritesAt unit r (firstByte unit range + j) byte

theorem Elsewhere.agrees (h : Elsewhere unit range r) (hj : j < transferBytes unit range) :
    Agrees unit (firstByte unit range + j) byte r := fun b hb => absurd hb (h j hj b)

theorem IsPiece.agrees {n : Nat} (h : IsPiece unit srb range n r) (hu : UnitOk unit)
    (hop : scsiOp srb.cdb = .write) (hdata : srb.dataBuffer = some data)
    (hget : data[j]? = some byte) : Agrees unit (firstByte unit range + j) byte r := by
  obtain ⟨blockAddress, blockCount, hreq, haddress, -⟩ := h.req
  have hbytes := h.bytes hop data hdata
  obtain ⟨req, buf⟩ := r
  dsimp only at hreq hbytes
  subst hreq
  intro b hb
  rw [requestLength, requestBlocks_transferOp, List.length_range'] at hbytes
  have htransfer : transferOp srb.cdb = TransactOp.write := by
    rw [transferOp, if_pos (by simp [hop])]
  rw [htransfer] at hb
  obtain ⟨k, hk, hp, hbuf⟩ := hb
  rw [haddress, Nat.add_mul, Nat.mul_assoc, hu.chunkBlocks_mul, firstByte, Nat.add_assoc,
    Nat.add_right_inj] at hp
  have hk' := congrArg (fun l : List UInt8 => l[k]?) hbytes
  simp only [List.getElem?_take_of_lt hk, List.getElem?_drop] at hk'
  dsimp only at hbuf
  rw [hbuf, ← hp, hget, Option.some.injEq] at hk'
  exact hk'

section Write

variable (hc : CarriedOut disk rawDisk order a srb w₀ w₁ ls w₂ w₃)
  (hw₀ : DiskVerified disk rawDisk w₀)
include hc hw₀

theorem CarriedOut.started_handed : ∃ op uev, UnitEvent.handed uev = none ∧
    DiskStep disk rawDisk order w₀ (.act (.unit op) uev) w₁ := by
  obtain ⟨storResult, uev, -, hstart⟩ := hc.start
  obtain ⟨g, gs, -, hinv, hmay, ⟨choice, hexec⟩, -⟩ := hw₀.acting hstart
  obtain ⟨hop, hunit, -⟩ := DiskSys.unitStep hmay hstart.promised hexec
  obtain ⟨q, hdriver⟩ := hinv.driver
  refine ⟨_, uev, hdriver.handed_none hunit fun buf heq => ?_, hstart⟩
  rw [hop] at heq
  cases heq

theorem CarriedOut.held_started (hr : r ∈ held w₁) : r ∈ held w₀ := by
  obtain ⟨op, uev, hnone, hstart⟩ := hc.started_handed hw₀
  rcases hstart.held hw₀ hr with hr | ⟨act, x, heq, hhanded⟩
  · exact hr
  · cases heq
    simp [handedBy_handed hhanded] at hnone

variable (hrw : ReadOrWrite disk.unit.storageUnitParams srb range)
include hrw

theorem CarriedOut.held_done (hr : r ∈ held w₃) : r ∈ held w₂ := by
  obtain ⟨hw, ht⟩ := (hc.started hw₀ hrw).run hrw (hc.verified hw₀).1 hc.run hc.live
  obtain ⟨op, ev, hsuccess, hdone⟩ := hc.done
  rcases hdone.held hw hr with hr | ⟨act, x, heq, hhanded⟩
  · exact hr
  · obtain ⟨g, gs, -, hinv, hmay, ⟨choice, hexec⟩, -⟩ := hw.acting hdone
    obtain ⟨hop, hunit, -⟩ := DiskSys.unitStep hmay hdone.promised hexec
    obtain ⟨q, hch⟩ := ht.chunking
    obtain ⟨-, rsp, dataBuffer, hrsp, -⟩ := hch.succeed hrw hunit hsuccess
    rw [hop] at hrsp
    subst hrsp
    cases heq
    cases hhanded

theorem CarriedOut.agrees (hop : scsiOp srb.cdb = .write) (hdata : srb.dataBuffer = some data)
    (hr : r ∈ held w₀ ++ handedOut ls) (hhint : r.1.hint = srb.miniportContext)
    (hget : data[j]? = some byte) :
    Agrees disk.unit.storageUnitParams (firstByte disk.unit.storageUnitParams range + j) byte
      r := by
  rcases List.mem_append.mp hr with hr | hr
  · obtain ⟨g, hg, hgr⟩ := mem_held.mp hr
    exact absurd ⟨r, hgr, hhint⟩ (hc.fresh g hg)
  · obtain ⟨-, ht⟩ := (hc.started hw₀ hrw).run hrw (hc.verified hw₀).1 hc.run hc.live
    obtain ⟨uev, huev, hhanded⟩ := List.mem_filterMap.mp hr
    have hrequest : r ∈ requestsFor srb.miniportContext (unitEvents ls) :=
      List.mem_filterMap.mpr ⟨uev, huev, requestFor_eq_some.mpr ⟨hhanded, hhint⟩⟩
    obtain ⟨q, hch⟩ := ht.chunking
    obtain ⟨n, hn⟩ := List.mem_iff_getElem?.mp hrequest
    exact (hch.pieces n r hn).agrees hrw.unitOk hop hdata hget

/-- A byte of a WRITE, as long as no other request writes in its place. -/
theorem CarriedOut.kept (hop : scsiOp srb.cdb = .write) (hdata : srb.dataBuffer = some data)
    (hj : j < transferBytes disk.unit.storageUnitParams range)
    (hafter : Run (DiskStep disk rawDisk order) w₃ ls' v)
    (hothers : ∀ r ∈ held w₀ ++ handedOut ls, r.1.hint = srb.miniportContext ∨ ∀ byte,
      Agrees disk.unit.storageUnitParams (firstByte disk.unit.storageUnitParams range + j) byte r)
    (hlater : ∀ r ∈ handedOut ls', ∀ byte,
      Agrees disk.unit.storageUnitParams (firstByte disk.unit.storageUnitParams range + j) byte r) :
    ∃ byte, data[j]? = some byte ∧
      InView (firstByte disk.unit.storageUnitParams range + j) byte v.shared.file ∧
      (forced disk.unit.storageUnitParams range = true →
        OnMedium (firstByte disk.unit.storageUnitParams range + j) byte v.shared.file) := by
  obtain ⟨hw₁, hw₂, hw₃⟩ := hc.verified hw₀
  obtain ⟨byte, hget, hput⟩ := (hc.delivered hw₀ hrw).write hop data hdata j hj
  obtain ⟨ls₁, ls₂, v₁, rfl, hbefore, hrest, -, hkept⟩ := hc.put hw₀ hrw hj hput
  have hearlier : ∀ r ∈ held w₀ ++ handedOut (ls₁ ++ ls₂),
      Agrees disk.unit.storageUnitParams
      (firstByte disk.unit.storageUnitParams range + j) byte r := fun r hr =>
    (hothers r hr).elim (fun hhint => hc.agrees hw₀ hrw hop hdata hr hhint hget) fun h => h byte
  -- the requests there are in the run, at any time
  have hstarted : ∀ {r}, r ∈ held w₁ ++ handedOut (ls₁ ++ ls₂) →
      r ∈ held w₀ ++ handedOut (ls₁ ++ ls₂) := fun hr =>
    (List.mem_append.mp hr).elim (fun hr => List.mem_append_left _ (hc.held_started hw₀ hr))
      (List.mem_append_right _)
  have hrest_keeps : ∀ x ∈ fileEvents ls₂,
      KeepsByte (firstByte disk.unit.storageUnitParams range + j) byte x := by
    refine keeps_of_agrees (diskRun_verified hw₁ hbefore) hrest fun r hr =>
      hearlier r (hstarted ?_)
    rw [handedOut_append, ← List.append_assoc]
    rcases List.mem_append.mp hr with hr | hr
    · exact List.mem_append_left _ (held_run hw₁ hbefore hr)
    · exact List.mem_append_right _ hr
  have hafter_keeps : ∀ x ∈ fileEvents ls',
      KeepsByte (firstByte disk.unit.storageUnitParams range + j) byte x := by
    refine keeps_of_agrees hw₃ hafter fun r hr => ?_
    rcases List.mem_append.mp hr with hr | hr
    · exact hearlier r (hstarted (held_run hw₁ hc.run (hc.held_done hw₀ hrw hr)))
    · exact hlater r hr byte
  obtain ⟨hview, hmedium⟩ := hkept hrest_keeps
  have hkeeps := keeps_run hafter hafter_keeps
  exact ⟨byte, hget, hkeeps.1 hview, fun hforced => hkeeps.2.2 (hmedium hforced)⟩

end Write

theorem handedOut_cons {op : UnitOp} {uev : UnitEvent} (h : uev.handed = none) :
    handedOut (.act (.unit op) uev :: ls) = handedOut ls := by
  simp [handedOut, unitEvents, unitEventOf, h]

/-- What a WRITE wrote a READ gets, if nothing else writes to the blocks of the READ in
the meantime. -/
theorem rawdisk_read_back (hb : Backed disk.unit.storageUnitParams rawDisk file.size)
    (hrun : Run (DiskStep disk rawDisk order) (.start mem ioqMem file) ls₀ w₀)
    (hwrite : CarriedOut disk rawDisk order a srb w₀ w₁ ls w₂ w₃)
    (hbetween : Run (DiskStep disk rawDisk order) w₃ ls' w₄)
    (hread : CarriedOut disk rawDisk order a' srb' w₄ w₅ ls'' w₆ w₇)
    (hop : scsiOp srb.cdb = .write) (hrange : spdCdbGetRange srb.cdb = some range)
    (hlength : transferBytes disk.unit.storageUnitParams range < 2 ^ 32)
    (hdata : srb.dataBuffer = some data)
    (hop' : scsiOp srb'.cdb = .read) (hrange' : spdCdbGetRange srb'.cdb = some range')
    (hfirst : range.blockAddress.toNat ≤ range'.blockAddress.toNat)
    (hlast : range'.blockAddress.toNat + range'.blockCount.toNat ≤
      range.blockAddress.toNat + range.blockCount.toNat)
    (hothers : ∀ r ∈ held w₀ ++ handedOut ls,
      r.1.hint = srb.miniportContext ∨ Elsewhere disk.unit.storageUnitParams range' r)
    (hlater : ∀ r ∈ handedOut (ls' ++ ls''), Elsewhere disk.unit.storageUnitParams range' r) :
    ∃ data', (w₇.shared.unit.mem.srb a').dataBuffer = some data' ∧
      data'.take (transferBytes disk.unit.storageUnitParams range') =
        (data.drop (firstByte disk.unit.storageUnitParams range' -
          firstByte disk.unit.storageUnitParams range)).take
            (transferBytes disk.unit.storageUnitParams range') := by
  have hw₀ := reached_verified hb hrun
  have hrw : ReadOrWrite disk.unit.storageUnitParams srb range :=
    ⟨hb.unitOk, .inr hop, hrange, hlength⟩
  have hw₄ := diskRun_verified (hwrite.verified hw₀).2.2 hbetween
  -- the bytes of the READ are among those of the WRITE
  have hle : firstByte disk.unit.storageUnitParams range ≤
      firstByte disk.unit.storageUnitParams range' := Nat.mul_le_mul_right _ hfirst
  have hin : firstByte disk.unit.storageUnitParams range' +
      transferBytes disk.unit.storageUnitParams range' ≤
        firstByte disk.unit.storageUnitParams range +
          transferBytes disk.unit.storageUnitParams range := by
    simp only [firstByte, transferBytes, ← Nat.add_mul]
    exact Nat.mul_le_mul_right _ hlast
  have hrw' : ReadOrWrite disk.unit.storageUnitParams srb' range' := by
    refine ⟨hb.unitOk, .inl hop', hrange', ?_⟩
    have hle' : transferBytes disk.unit.storageUnitParams range' ≤
        transferBytes disk.unit.storageUnitParams range := by omega
    exact hle'.trans_lt hlength
  obtain ⟨data', hdata', hloads⟩ := hread.loads hw₄ hrw' hop'
  refine ⟨data', hdata', List.ext_getElem? fun j => ?_⟩
  rw [List.getElem?_take, List.getElem?_take]
  split
  · next hj =>
      obtain ⟨ls₁, ls₂, v, rfl, hbefore, -, hget⟩ := hloads j hj
      obtain ⟨op, uev, hnone, hstarted⟩ := hread.started_handed hw₄
      -- the byte of the WRITE that is read here
      obtain ⟨k, hk, hp⟩ : ∃ k < transferBytes disk.unit.storageUnitParams range,
          firstByte disk.unit.storageUnitParams range + k =
            firstByte disk.unit.storageUnitParams range' + j :=
        ⟨firstByte disk.unit.storageUnitParams range' + j -
          firstByte disk.unit.storageUnitParams range, by omega, by omega⟩
      have hspared : ∀ {r}, Elsewhere disk.unit.storageUnitParams range' r → ∀ byte,
          Agrees disk.unit.storageUnitParams
            (firstByte disk.unit.storageUnitParams range + k) byte r := by
        intro r h byte
        rw [hp]
        exact h.agrees hj
      have hlater' : ∀ r ∈ handedOut (ls' ++ .act (.unit op) uev :: ls₁),
          Elsewhere disk.unit.storageUnitParams range' r := by
        intro r hr
        refine hlater r ?_
        rw [handedOut_append, handedOut_cons hnone] at hr
        rw [handedOut_append, handedOut_append, ← List.append_assoc]
        exact List.mem_append_left _ hr
      obtain ⟨byte, hbyte, hview, -⟩ := hwrite.kept hw₀ hrw hop hdata hk
        (hbetween.append (.cons hstarted hbefore)) (fun r hr => (hothers r hr).imp id hspared)
        fun r hr => hspared (hlater' r hr)
      rw [hget, ← hp, hview.view, ← hbyte, List.getElem?_drop]
      congr 1
      omega
  · rfl

/-- With force unit access, or without a cache, what a WRITE wrote is on the medium when
it is completed, and as long as nothing else writes there. -/
theorem rawdisk_durable (hb : Backed disk.unit.storageUnitParams rawDisk file.size)
    (hrun : Run (DiskStep disk rawDisk order) (.start mem ioqMem file) ls₀ w₀)
    (hwrite : CarriedOut disk rawDisk order a srb w₀ w₁ ls w₂ w₃)
    (hafter : Run (DiskStep disk rawDisk order) w₃ ls' v)
    (hop : scsiOp srb.cdb = .write) (hrange : spdCdbGetRange srb.cdb = some range)
    (hlength : transferBytes disk.unit.storageUnitParams range < 2 ^ 32)
    (hdata : srb.dataBuffer = some data)
    (hforced : forced disk.unit.storageUnitParams range = true)
    (hothers : ∀ r ∈ held w₀ ++ handedOut ls,
      r.1.hint = srb.miniportContext ∨ Elsewhere disk.unit.storageUnitParams range r)
    (hlater : ∀ r ∈ handedOut ls', Elsewhere disk.unit.storageUnitParams range r) :
    ∀ j < transferBytes disk.unit.storageUnitParams range,
      data[j]? =
        some (v.shared.file.durable (firstByte disk.unit.storageUnitParams range + j)) := by
  have hw₀ := reached_verified hb hrun
  have hrw : ReadOrWrite disk.unit.storageUnitParams srb range :=
    ⟨hb.unitOk, .inr hop, hrange, hlength⟩
  intro j hj
  obtain ⟨byte, hget, -, hmedium⟩ := hwrite.kept hw₀ hrw hop hdata hj hafter
    (fun r hr => (hothers r hr).imp id fun h _ => h.agrees hj) fun r hr _ => (hlater r hr).agrees hj
  rw [(hmedium hforced).durable, hget]

/-! ## Where the bytes come from -/

/-- The byte was in the file at first, or it was asked for. -/
def FromFile (unit : StorageUnitParams) (file : RawDiskFile) (rs : List Request) (p : Nat)
    (byte : UInt8) : Prop :=
  byte = file.view p ∨ ∃ r ∈ rs, AllowedRequest unit r ∧ WritesAt unit r p byte

theorem FromFile.mono {rs rs' : List Request} (h : FromFile unit file rs p byte)
    (hsub : rs ⊆ rs') : FromFile unit file rs' p byte := by
  refine h.imp id ?_
  rintro ⟨r, hr, hasked⟩
  exact ⟨r, hsub hr, hasked⟩

/-- In the view, written back and on the medium. -/
structure BytesFrom (unit : StorageUnitParams) (file : RawDiskFile) (rs : List Request)
    (f : RawDiskFile) : Prop where
  view : ∀ p, FromFile unit file rs p (f.view p)
  written : ∀ p, FromFile unit file rs p (f.written p)
  durable : ∀ p, FromFile unit file rs p (f.durable p)

variable {f f' : RawDiskFile} {rs : List Request}

theorem FileAction.exec_bytesFrom {act : FileAction} {y : act.Answer} {c : FileChoice}
    (h : act.exec f c = some (f', y)) (hfrom : BytesFrom unit file rs f)
    (hasked : (∃ offset length, act = .flushViewOfFile offset length ∨
      act = .flushFileBuffers) ∨
      ∃ r ∈ rs, AllowedRequest unit r ∧ FileMay unit r act) : BytesFrom unit file rs f' := by
  cases act with
  | load offset =>
      cases c <;> simp only [FileAction.exec, reduceCtorEq] at h
      all_goals
        split at h
        · cases h
          exact hfrom
        · cases h
  | store offset b =>
      have hb : FromFile unit file rs offset.toNat b := by
        rcases hasked with ⟨_, _, h | h⟩ | hasked
        · cases h
        · cases h
        · exact .inr hasked
      cases c <;> simp only [FileAction.exec, reduceCtorEq] at h
      · split at h
        · cases h
          refine ⟨fun p => ?_, hfrom.written, hfrom.durable⟩
          by_cases hp : p = offset.toNat
          · subst hp
            simpa using hb
          · show FromFile unit file rs p (Function.update f.view offset.toNat b p)
            rw [Function.update_of_ne hp]
            exact hfrom.view p
        · cases h
      · split at h
        · cases h
          exact hfrom
        · cases h
  | flushViewOfFile offset length =>
      cases c <;> simp only [FileAction.exec, reduceCtorEq] at h
      · cases h
        refine ⟨hfrom.view, fun p => ?_, hfrom.durable⟩
        show FromFile unit file rs p (if Flushes offset length p then f.view p else f.written p)
        split
        · exact hfrom.view p
        · exact hfrom.written p
      · cases h
        exact hfrom
  | flushFileBuffers =>
      cases c <;> simp only [FileAction.exec, reduceCtorEq] at h
      · cases h
        exact ⟨hfrom.view, hfrom.written, hfrom.written⟩
      · cases h
        exact hfrom
  | setZeroData fileOffset beyondFinalZero =>
      cases c <;> simp only [FileAction.exec, reduceCtorEq] at h
      · cases h
        refine ⟨fun p => ?_, hfrom.written, hfrom.durable⟩
        show FromFile unit file rs p
          (if fileOffset.toNat ≤ p ∧ p < beyondFinalZero.toNat then 0 else f.view p)
        split
        · next hin =>
            rcases hasked with ⟨_, _, h | h⟩ | ⟨r, hr, hallowed, hmay⟩
            · cases h
            · cases h
            · exact .inr ⟨r, hr, hallowed, hmay p hin.1 hin.2⟩
        · exact hfrom.view p
      · cases h
        exact hfrom

theorem handedOut_ok (hw : DiskVerified disk rawDisk w)
    (hrun : Run (DiskStep disk rawDisk order) w ls w') (hr : r ∈ handedOut ls) :
    DiskThreads.HandedOk disk.unit.storageUnitParams r := by
  obtain ⟨uev, huev, hhanded⟩ := List.mem_filterMap.mp hr
  obtain ⟨ev, hev, hof⟩ := List.mem_filterMap.mp huev
  obtain ⟨ls₁, ls₂, rfl⟩ := List.append_of_mem hev
  obtain ⟨v, hbefore, hafter⟩ := hrun.split
  obtain ⟨v', hstep, -⟩ := Run.cons_iff.mp hafter
  cases ev with
  | enter => cases hof
  | leave => cases hof
  | act act y =>
      cases act with
      | unit op =>
          cases hof
          obtain ⟨g, gs, -, hinv, hmay, ⟨choice, hexec⟩, -⟩ :=
            (diskRun_verified hw hbefore).acting hstep
          obtain ⟨-, hunit, -⟩ := DiskSys.unitStep hmay hstep.promised hexec
          obtain ⟨q, hdriver⟩ := hinv.driver
          exact hdriver.handedOk hinv.backed.unitOk hunit hhanded
      | _ => cases hof

theorem BytesFrom.step (hfrom : BytesFrom unit file rs w.shared.file)
    (h : FileChange w.shared.file ev w'.shared.file)
    (hasked : ∀ x, fileEventOf ev = some x →
      (∃ offset length, x.1 = .flushViewOfFile offset length ∨ x.1 = .flushFileBuffers) ∨
        ∃ r ∈ rs, AllowedRequest unit r ∧ FileMay unit r x.1) :
    BytesFrom unit file rs w'.shared.file := by
  cases h with
  | none file' => rwa [file']
  | exec exec event => exact FileAction.exec_bytesFrom exec hfrom (hasked _ event)
  | @writeBack p' file' =>
      rw [file']
      refine ⟨hfrom.view, fun p => ?_, hfrom.durable⟩
      show FromFile unit file rs p
          (Function.update w.shared.file.written p' (w.shared.file.view p') p)
      by_cases hp : p = p'
      · rw [hp, Function.update_self]
        exact hfrom.view p'
      · rw [Function.update_of_ne hp]
        exact hfrom.written p
  | @makeDurable p' file' =>
      rw [file']
      refine ⟨hfrom.view, hfrom.written, fun p => ?_⟩
      show FromFile unit file rs p
        (Function.update w.shared.file.durable p' (w.shared.file.written p') p)
      by_cases hp : p = p'
      · rw [hp, Function.update_self]
        exact hfrom.written p'
      · rw [Function.update_of_ne hp]
        exact hfrom.durable p

/-- In every reachable state every byte of the file, and on the medium, was there at
first, or one of the requests that were handed out has asked for it at this place. -/
theorem rawdisk_bytes (hb : Backed disk.unit.storageUnitParams rawDisk file.size)
    (hwritten : file.written = file.view) (hdurable : file.durable = file.view)
    (hrun : Run (DiskStep disk rawDisk order) (.start mem ioqMem file) ls w) :
    BytesFrom disk.unit.storageUnitParams file (handedOut ls) w.shared.file := by
  have hw : DiskVerified disk rawDisk (.start mem ioqMem file) := diskVerified_start hb
  refine hrun.history
    (I := fun ls w => BytesFrom disk.unit.storageUnitParams file (handedOut ls) w.shared.file) ?_ ?_
  · refine ⟨fun p => .inl rfl, fun p => .inl ?_, fun p => .inl ?_⟩
    · exact congrFun hwritten p
    · exact congrFun hdurable p
  · intro ls w ev w' hrun hfrom hstep
    have hsub : handedOut ls ⊆ handedOut (ls ++ [ev]) := by
      rw [handedOut_append]
      exact List.subset_append_left _ _
    have hgrown :
        BytesFrom disk.unit.storageUnitParams file (handedOut (ls ++ [ev])) w.shared.file :=
      ⟨fun p => (hfrom.view p).mono hsub, fun p => (hfrom.written p).mono hsub,
        fun p => (hfrom.durable p).mono hsub⟩
    refine hgrown.step hstep.fileChange fun x hx => ?_
    have hevent : x ∈ fileEvents (ls ++ [ev]) := by
      rw [fileEvents_snoc, hx]
      exact List.mem_append_right _ (List.mem_singleton_self _)
    rcases fileEvents_asked hw (hrun.snoc hstep) hevent with hflush | ⟨r, hr, hmay⟩
    · exact .inl hflush
    · exact .inr ⟨r, hr, (handedOut_ok hw (hrun.snoc hstep) hr).allowed, hmay⟩

/-! ## No thread is stopped -/

theorem FileAction.exec_of_may {act : FileAction} (hb : Backed unit rawDisk f.size)
    {g : DiskServing}
    (hrequest : ∀ r, g.request = some r → DiskThreads.HandedOk unit r)
    (hmay : DiskThreads.MayFile unit g act) : ∃ y, act.exec f .succeeds = some y := by
  unfold DiskThreads.MayFile at hmay
  split at hmay
  · next r hr =>
      have hallowed := (hrequest r hr).allowed
      cases act with
      | load offset =>
          obtain ⟨k, hk⟩ := hmay
          exact ⟨_, if_pos (hallowed.reads_lt hb hk)⟩
      | store offset b => exact ⟨_, if_pos (hallowed.writes_lt hb hmay)⟩
      | _ => exact ⟨_, rfl⟩
  · obtain ⟨offset, length, rfl | rfl⟩ := hmay
    · exact ⟨_, rfl⟩
    · exact ⟨_, rfl⟩

/-- A thread of the raw disk can take its next step, unless it waits for something that
does not come. -/
theorem rawdisk_never_stuck (hb : Backed disk.unit.storageUnitParams rawDisk file.size)
    (hrun : Run (DiskStep disk rawDisk order) (.start mem ioqMem file) ls w)
    {t : Thread DiskAction DiskAction.Answer DiskServing} (ht : t ∈ w.threads) {act : DiskAction}
    (hnext : t.prog.next = some act) (hwait : act ≠ .wait)
    (hop : ∀ op, act = .unit op → op.Transacts) :
    ∃ y w', DiskStep disk rawDisk order w (.act act y) w' ∧
      DiskThreads.track act y t.account ∈ w'.accounts := by
  have hw := reached_verified hb hrun
  have hmay : DiskThreads.May disk.unit.storageUnitParams rawDisk t.account act :=
    (hw.safe t ht).next hnext
  have hexec : ∃ y s', DiskAction.Exec disk w.shared act y s' := by
    cases act with
    | unit op =>
        have hallowed : op.Allowed disk.unit.storageUnitParams w.shared.unit.live :=
          UnitOp.exec_transact_lengths hmay fun hnot => absurd (hop op rfl) hnot
        obtain ⟨q, hdriver⟩ := hw.inv.driver
        obtain ⟨uev, s', rfl, hunit⟩ := hdriver.transacts hw.inv.backed.unitOk
          (hop op rfl) hallowed
        have hexec : ∃ x, DiskAction.exec disk w.shared (.unit uev.op) .runs = some x := by
          rw [DiskAction.exec, hunit.exec]
          exact ⟨_, rfl⟩
        obtain ⟨⟨s', y⟩, hexec⟩ := hexec
        exact ⟨y, s', .runs, hexec⟩
    | file act =>
        obtain ⟨y, hy⟩ := FileAction.exec_of_may hw.inv.backed
          (hw.inv.requests t.account (List.mem_map_of_mem ht)) hmay
        have hexec : DiskAction.exec disk w.shared (.file act) (.file .succeeds) =
            some ({ w.shared with file := y.1 }, y.2) := by
          rw [DiskAction.exec, hy]
          rfl
        exact ⟨_, _, _, hexec⟩
    | begin => exact ⟨(0 : UInt32), w.shared, .ends 0, rfl⟩
    | waitEnds => exact ⟨(0 : UInt32), w.shared, .ends 0, rfl⟩
    | writeBack p => exact ⟨(), _, .runs, rfl⟩
    | makeDurable p => exact ⟨(), _, .runs, rfl⟩
    | wait => exact absurd rfl hwait
  obtain ⟨y, s', hexec⟩ := hexec
  obtain ⟨w', hstep, -, haccount⟩ :=
    Threads.step_of_mem (L := diskRules _ rawDisk) ht hnext hexec
  refine ⟨y, w', ⟨hstep, ?_⟩, haccount⟩
  unfold Promised
  split
  · next op uev heq =>
      cases heq
      exact fun hnot => absurd (hop op rfl) hnot
  · trivial

/-! ## A block that is written and read -/

theorem elsewhere_of_read {blockAddress : UInt64} {blockCount : UInt32} {flag : Bool}
    (h : r.1.op = .read blockAddress blockCount flag) : Elsewhere unit range r := by
  intro j _ byte hwrites
  rw [WritesAt, h] at hwrites
  exact hwrites

/-- Its own request is all that is handed out for the WRITE. -/
theorem sampleWritten_handed :
    ∃ w₁ ls w₂ ev w₃, sampleWritten = some (w₁, ls, w₂, ev, w₃) ∧
    w₃.shared.unit.live = [] ∧ ∀ r ∈ held sampleWorld ++ handedOut ls,
      r.1.hint = 0x1000 := by
  have h : (sampleWritten.map fun x => (x.2.2.2.2.shared.unit.live,
      (held sampleWorld ++ handedOut x.2.1).map fun r => r.1.hint)) = some ([], [0x1000]) := by rfl
  obtain ⟨⟨w₁, ls, w₂, ev, w₃⟩, hx, heq⟩ := Option.map_eq_some_iff.mp h
  rw [Prod.mk.injEq] at heq
  refine ⟨w₁, ls, w₂, ev, w₃, hx, heq.1, fun r hr => ?_⟩
  have hmem := List.mem_map_of_mem (f := fun r : Request => r.1.hint) hr
  rw [heq.2] at hmem
  exact List.mem_singleton.mp hmem

theorem sampleReadAfter_handed :
    ∃ w₁ ls w₂ ev w₃, sampleReadAfter = some (w₁, ls, w₂, ev, w₃) ∧
    ∀ r ∈ handedOut ls, r.1.op = .read 0 1 false := by
  have h : (sampleReadAfter.map fun x => (handedOut x.2.1).map fun r => r.1.op) =
      some [.read 0 1 false] := by rfl
  obtain ⟨⟨w₁, ls, w₂, ev, w₃⟩, hx, heq⟩ := Option.map_eq_some_iff.mp h
  refine ⟨w₁, ls, w₂, ev, w₃, hx, fun r hr => ?_⟩
  have hmem := List.mem_map_of_mem (f := fun r : Request => r.1.op) hr
  rw [heq] at hmem
  exact List.mem_singleton.mp hmem

/-- The READ gets the bytes of the WRITE. -/
theorem rawdisk_read_back_block : ∃ w₀ w₁ ls w w' data,
    CarriedOut sampleDisk sampleRawDisk .forward 0x2000 sampleReadBack w₀ w₁ ls w w' ∧
      (w'.shared.unit.mem.srb 0x2000).dataBuffer = some data ∧
      data.take 16 = (((List.range 16).map UInt8.ofNat).drop 0).take 16 := by
  obtain ⟨w₁, ls, w₂, ev, w₃, h, hlive, hothers⟩ := sampleWritten_handed
  obtain ⟨w₁', ls', w₄, ev', w₅, h', hread⟩ := sampleReadAfter_handed
  obtain ⟨hbetween, hc⟩ := sampleReadAfter_carried h hlive h'
  exact ⟨_, _, _, _, _, (rawdisk_read_back sampleFile_backed sampleWorld_run
    (sampleWritten_carried h) hbetween hc rfl sampleForcedWrite_range (by decide) rfl rfl
    sampleReadBack_range (by decide) (by decide) (fun r hr => .inl (hothers r hr))
    fun r hr => elsewhere_of_read (hread r hr)).imp fun data hdata => ⟨hc, hdata⟩⟩

/-- And they are on the medium. -/
theorem rawdisk_durable_block : ∃ w₁ ls w₂ w₃,
    CarriedOut sampleDisk sampleRawDisk .forward 0x2000 sampleForcedWrite sampleWorld w₁ ls
      w₂ w₃ ∧
      ∀ j < 16, ((List.range 16).map UInt8.ofNat)[j]? = some
        (w₃.shared.file.durable (0 + j)) := by
  obtain ⟨w₁, ls, w₂, ev, w₃, h, -, hothers⟩ := sampleWritten_handed
  have hc := sampleWritten_carried h
  exact ⟨w₁, ls, w₂, w₃, hc, rawdisk_durable sampleFile_backed sampleWorld_run hc .nil
    rfl sampleForcedWrite_range (by decide) rfl rfl (fun r hr => .inl (hothers r hr))
    fun r hr => (by cases hr)⟩

theorem rawdisk_bytes_block : ∃ ls w, Run SampleStep
    (.start (sampleMem sampleForcedWrite) zeroedIoq sampleFile) ls w ∧
      BytesFrom sampleDisk.unit.storageUnitParams sampleFile (handedOut ls) w.shared.file := by
  obtain ⟨w₁, ls, w₂, ev, w₃, h, -⟩ := sampleWritten_handed
  obtain ⟨ls', hwhole⟩ := (sampleWritten_carried h).whole
  have hrun := sampleWorld_run.append hwhole
  exact ⟨_, _, hrun, rawdisk_bytes sampleFile_backed rfl rfl hrun⟩

theorem rawdisk_never_stuck_first : ∃ y w', SampleStep sampleWorld (.act .begin y) w' ∧
    DiskThreads.track .begin y ⟨none, []⟩ ∈ w'.accounts :=
  rawdisk_never_stuck (t := dispatcherThread) sampleFile_backed sampleWorld_run
    (List.mem_cons_of_mem _ List.mem_cons_self) rfl (by simp) (by simp)

end Winspd.Proofs
