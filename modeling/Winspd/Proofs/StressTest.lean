import Winspd.Lib.Run
import Winspd.Proofs.StressBuffer

/-!
# The requests of the stress test

In a round the address is below the number of blocks, and the count is at least
one and fits the data buffer (`RoundInv`). So there is no division by zero, and
what is filled, tested and transferred is in the buffer. The range is cut off at
the end of the unit, but for a sum that does not fit 64 bits: then the count is
taken as it is, and the range leaves the unit (`RoundInv.inside_iff`).
-/

namespace Winspd.Proofs

open Winspd.Lib Winspd.Sys Winspd.Shared Winspd.Stgtest

/-- What `StgOpenPipe` has tested. -/
structure UnitAccepted (params : StorageUnitParams) : Prop where
  blocks : 0 < params.blockCount.toNat
  length : 16 ≤ params.blockLength.toNat
  max : 0 < params.maxTransferLength.toNat
  multiple : params.blockLength.toNat ∣ params.maxTransferLength.toNat

theorem unitAccepted {params : StorageUnitParams} (h : stgOpenPipeAccepts params = true) :
    UnitAccepted params := by
  simp only [stgOpenPipeAccepts, not_or, decide_eq_true_eq, not_not] at h
  obtain ⟨hblocks, hlength, hmax, hmultiple⟩ := h
  refine ⟨?_, ?_, ?_, ?_⟩
  · exact Nat.pos_of_ne_zero fun h0 => hblocks (UInt64.toNat_inj.mp h0.symm)
  · exact Nat.le_of_not_lt fun hlt => hlength (UInt32.lt_iff_toNat_lt.mpr hlt)
  · exact Nat.pos_of_ne_zero fun h0 => hmax (UInt32.toNat_inj.mp h0.symm)
  · have hmod := congrArg UInt32.toNat hmultiple
    rw [UInt32.toNat_mod] at hmod
    exact Nat.dvd_of_mod_eq_zero hmod.symm

variable {a : Stress} {s s₁ s' : StressState}

/-- The range of a round, once it is drawn. -/
structure RoundInv (a : Stress) (s : StressState) : Prop where
  address : s.blockAddress.toNat < a.params.blockCount.toNat
  pos : 0 < s.blockCount.toNat
  fit : s.blockCount.toNat * a.params.blockLength.toNat ≤ a.params.maxTransferLength.toNat
  cut : s.opBlockCount =
    if s.blockAddress + s.blockCount.toUInt64 ≤ a.params.blockCount then s.blockCount
    else (a.params.blockCount - s.blockAddress).toUInt32

/-! ## The range -/

/-- What the count is cut down to, when the sum fits, and when it does not. -/
theorem RoundInv.cut_eq (h : RoundInv a s) :
    (s.blockAddress.toNat + s.blockCount.toNat < 2 ^ 64 →
      s.opBlockCount.toNat =
        min s.blockCount.toNat (a.params.blockCount.toNat - s.blockAddress.toNat)) ∧
    (2 ^ 64 ≤ s.blockAddress.toNat + s.blockCount.toNat → s.opBlockCount = s.blockCount) := by
  have haddress := h.address
  have hlt := s.blockAddress.toNat_lt
  have hclt := s.blockCount.toNat_lt
  have hsum : (s.blockAddress + s.blockCount.toUInt64).toNat =
      (s.blockAddress.toNat + s.blockCount.toNat) % 2 ^ 64 := by
    rw [UInt64.toNat_add, UInt32.toNat_toUInt64]
  have hsub : (a.params.blockCount - s.blockAddress).toNat =
      a.params.blockCount.toNat - s.blockAddress.toNat :=
    UInt64.toNat_sub_of_le _ _ (UInt64.le_iff_toNat_le.mpr (Nat.le_of_lt haddress))
  rw [h.cut]
  constructor
  · intro hfits
    rw [Nat.mod_eq_of_lt hfits] at hsum
    split
    · next hle =>
        rw [UInt64.le_iff_toNat_le, hsum] at hle
        omega
    · next hgt =>
        rw [UInt64.le_iff_toNat_le, hsum] at hgt
        rw [UInt64.toNat_toUInt32, hsub, Nat.mod_eq_of_lt (by omega)]
        omega
  · intro hover
    have hwrap : (s.blockAddress.toNat + s.blockCount.toNat) % 2 ^ 64 =
        s.blockAddress.toNat + s.blockCount.toNat - 2 ^ 64 := by omega
    refine if_pos ?_
    rw [UInt64.le_iff_toNat_le, hsum, hwrap]
    omega

theorem RoundInv.op_bounds (h : RoundInv a s) :
    0 < s.opBlockCount.toNat ∧ s.opBlockCount.toNat ≤ s.blockCount.toNat := by
  have haddress := h.address
  have hpos := h.pos
  rcases Nat.lt_or_ge (s.blockAddress.toNat + s.blockCount.toNat) (2 ^ 64) with hfits | hover
  · rw [h.cut_eq.1 hfits]
    omega
  · rw [h.cut_eq.2 hover]
    omega

/-- The range is inside the unit exactly if the sum does not overflow. -/
theorem RoundInv.inside_iff (h : RoundInv a s) :
    s.blockAddress.toNat + s.opBlockCount.toNat ≤ a.params.blockCount.toNat ↔
      s.blockAddress.toNat + s.blockCount.toNat < 2 ^ 64 := by
  have haddress := h.address
  have hlt := a.params.blockCount.toNat_lt
  rcases Nat.lt_or_ge (s.blockAddress.toNat + s.blockCount.toNat) (2 ^ 64) with hfits | hover
  · rw [h.cut_eq.1 hfits]
    omega
  · rw [h.cut_eq.2 hover]
    omega

/-! ## A round -/

theorem mod64_some {x y : UInt64} (h : 0 < y.toNat) :
    ∃ z, mod64 x y = some z ∧ z.toNat < y.toNat := by
  have hne : y ≠ 0 := by
    rintro rfl
    exact absurd h (by decide)
  refine ⟨x % y, if_neg hne, ?_⟩
  rw [UInt64.toNat_mod]
  exact Nat.mod_lt _ h

theorem mod32_some {x y : UInt32} (h : 0 < y.toNat) :
    ∃ z, mod32 x y = some z ∧ z.toNat < y.toNat := by
  have hne : y ≠ 0 := by
    rintro rfl
    exact absurd h (by decide)
  refine ⟨x % y, if_neg hne, ?_⟩
  rw [UInt32.toNat_mod]
  exact Nat.mod_lt _ h

theorem drawAddress_some (h : UnitAccepted a.params) (s : StressState) :
    ∃ seed blockAddress, a.drawAddress s =
        some { s with seed := seed, blockAddress := blockAddress } ∧
      blockAddress.toNat < a.params.blockCount.toNat := by
  unfold Stress.drawAddress
  dsimp only [Option.bind_eq_bind]
  obtain ⟨z, hz, hlt⟩ := mod64_some h.blocks
  rw [hz]
  exact ⟨_, z, rfl, hlt⟩

theorem maxBlockCount_some (h : UnitAccepted a.params) :
    ∃ n, a.maxBlockCount = some n ∧ 0 < n.toNat ∧
      n.toNat * a.params.blockLength.toNat ≤ a.params.maxTransferLength.toNat := by
  have hlength := h.length
  have hne : a.params.blockLength ≠ 0 := by
    intro h0
    rw [h0] at hlength
    exact absurd hlength (by decide)
  refine ⟨_, if_neg hne, ?_, ?_⟩
  · rw [UInt32.toNat_div]
    exact Nat.div_pos (Nat.le_of_dvd h.max h.multiple) (by omega)
  · rw [UInt32.toNat_div]
    exact Nat.div_mul_le_self _ _

/-- The count is at least one, and at most what the data buffer is made for. -/
theorem drawCount_some (h : UnitAccepted a.params) (s : StressState) :
    ∃ seed blockCount, a.drawCount s = some { s with seed := seed, blockCount := blockCount } ∧
      0 < blockCount.toNat ∧
      blockCount.toNat * a.params.blockLength.toNat ≤ a.params.maxTransferLength.toNat := by
  obtain ⟨n, hmax, hpos, hfit⟩ := maxBlockCount_some h
  have hcount : ∀ x : UInt32, x.toNat ≤ n.toNat →
      0 < (if x = 0 then 1 else x).toNat ∧
        (if x = 0 then 1 else x).toNat * a.params.blockLength.toNat ≤
          a.params.maxTransferLength.toNat := by
    intro x hx
    split
    · exact ⟨by decide, Nat.le_trans (Nat.mul_le_mul_right _ hpos) hfit⟩
    · next hne =>
        refine ⟨Nat.pos_of_ne_zero fun h0 => hne (UInt32.toNat_inj.mp h0), ?_⟩
        exact Nat.le_trans (Nat.mul_le_mul_right _ hx) hfit
  unfold Stress.drawCount
  rw [hmax]
  dsimp only [Option.bind_eq_bind, Option.bind_some]
  split
  · obtain ⟨z, hz, hlt⟩ :=
      mod32_some (x := UInt32.ofNat (ofLe (genRandomBytes s.seed 4).2)) hpos
    rw [hz]
    exact ⟨_, _, rfl, hcount z (Nat.le_of_lt hlt)⟩
  · split
    · exact ⟨_, _, rfl, hcount n (Nat.le_refl _)⟩
    · next hle =>
        refine ⟨_, _, rfl, hcount s.blockCount ?_⟩
        exact Nat.le_of_not_lt fun hlt => hle (UInt32.lt_iff_toNat_lt.mpr hlt)

/-- The address and the count that a turn of the loop is about, before the count
is cut. -/
def roundRange (a : Stress) (s : StressState) : Option (Nat × Nat) :=
  (if s.j = 0 then a.drawAddress s >>= a.drawCount else some s).map fun s =>
    (s.blockAddress.toNat, s.blockCount.toNat)

theorem round_some (h : UnitAccepted a.params) (hround : s.j ≠ 0 → RoundInv a s) :
    ∃ s₁, (if s.j = 0 then a.beginRound s else some s) = some s₁ ∧ RoundInv a s₁ ∧
      s₁.dataBuffer = s.dataBuffer ∧ s₁.i = s.i ∧ s₁.j = s.j ∧
      roundRange a s = some (s₁.blockAddress.toNat, s₁.blockCount.toNat) := by
  by_cases hj : s.j = 0
  · obtain ⟨seed, blockAddress, haddress, hlt⟩ := drawAddress_some h s
    obtain ⟨seed', blockCount, hcount, hpos, hfit⟩ :=
      drawCount_some h { s with seed := seed, blockAddress := blockAddress }
    rw [roundRange, if_pos hj, if_pos hj, Stress.beginRound, haddress]
    dsimp only [Option.bind_eq_bind, Option.bind_some]
    rw [hcount]
    exact ⟨_, rfl, ⟨hlt, hpos, hfit, rfl⟩, rfl, rfl, rfl, rfl⟩
  · rw [roundRange, if_neg hj, if_neg hj]
    exact ⟨s, rfl, hround hj, rfl, rfl, rfl, rfl⟩

/-! ## A request -/

variable {req : SpdIoctlTransactReq}

/-- The range that a request names: in the request, or in the descriptor in front
of the data buffer. -/
inductive RequestNames (req : SpdIoctlTransactReq) (dataBuffer : List UInt8) : Nat → Nat → Prop
  | range (hkind : req.kind = transactReadKind ∨ req.kind = transactWriteKind ∨
      req.kind = transactFlushKind) :
      RequestNames req dataBuffer req.blockAddress.toNat req.blockCount.toNat
  | unmap {blockAddress : UInt64} {blockCount : UInt32} (hkind : req.kind = transactUnmapKind)
      (hcount : req.count = 1)
      (hread : readAt dataBuffer 0 16 = some (stgUnmapDescriptor blockAddress blockCount)) :
      RequestNames req dataBuffer blockAddress.toNat blockCount.toNat

theorem RoundInv.fits (h : RoundInv a s) (haccept : UnitAccepted a.params)
    (hbuffer : s.dataBuffer.length = a.params.maxTransferLength.toNat) :
    BlocksFit a.params.blockLength s.opBlockCount.toNat s.dataBuffer := by
  have hlength := haccept.length
  have hlt := a.params.maxTransferLength.toNat_lt
  refine ⟨by omega, ?_, by omega⟩
  rw [hbuffer]
  exact Nat.le_trans (Nat.mul_le_mul_right _ h.op_bounds.2) h.fit

/-- The letters stand for the four kinds, and there is at least one. -/
def KindsOk (kinds : List UInt8) : Prop :=
  kinds ≠ [] ∧ ∀ kind ∈ kinds, kind = transactReadKind ∨ kind = transactWriteKind ∨
    kind = transactFlushKind ∨ kind = transactUnmapKind

theorem opKinds_ok (opSet : WString) : KindsOk (opKinds opSet) := by
  unfold opKinds
  dsimp only
  split
  · exact ⟨by simp, fun kind hkind => by simp at hkind; tauto⟩
  · next hne =>
      refine ⟨fun h => hne (by rw [h]; rfl), fun kind hkind => ?_⟩
      obtain ⟨c, -, hc⟩ := List.mem_filterMap.mp hkind
      unfold opKind at hc
      split at hc
      · cases hc; exact .inl rfl
      · split at hc
        · cases hc; exact .inr (.inl rfl)
        · split at hc
          · cases hc; exact .inr (.inr (.inl rfl))
          · split at hc
            · cases hc; exact .inr (.inr (.inr rfl))
            · cases hc

/-- A request names the range of its round, and only the data buffer is written
for it. -/
theorem prepare_some (hkinds : KindsOk a.opKinds) (haccept : UnitAccepted a.params)
    (hround : RoundInv a s) (hbuffer : s.dataBuffer.length = a.params.maxTransferLength.toNat) :
    ∃ dataBuffer testOpKind req, a.prepare s =
        some ({ s with dataBuffer := dataBuffer, testOpKind := testOpKind }, req) ∧
      dataBuffer.length = s.dataBuffer.length ∧
      RequestNames req dataBuffer s.blockAddress.toNat s.opBlockCount.toNat := by
  have hlen : 0 < a.opKinds.length := List.length_pos_iff.mpr hkinds.1
  have hlt : s.i.toNat % a.opKinds.length < a.opKinds.length := Nat.mod_lt _ hlen
  obtain ⟨kind, hkind, hmem⟩ : ∃ kind, a.kind s = some kind ∧ kind ∈ a.opKinds :=
    ⟨_, List.getElem?_eq_getElem hlt, List.getElem_mem hlt⟩
  rw [Stress.prepare, hkind]
  dsimp only [Option.bind_eq_bind, Option.bind_some]
  rcases hkinds.2 kind hmem with rfl | rfl | rfl | rfl
  · rw [if_pos rfl]
    exact ⟨_, _, _, rfl, rfl, .range (.inl rfl)⟩
  · obtain ⟨buffer', hfill, hsame, -⟩ := fillOrTest_fill (hround.fits haccept hbuffer)
    rw [if_neg (by decide), if_pos rfl, hfill]
    exact ⟨_, _, _, rfl, hsame, .range (.inr (.inl rfl))⟩
  · rw [if_neg (by decide), if_neg (by decide), if_pos rfl]
    exact ⟨_, _, _, rfl, rfl, .range (.inr (.inr rfl))⟩
  · have hsize : (stgUnmapDescriptor s.blockAddress s.opBlockCount).length = 16 := by
      simp [stgUnmapDescriptor, length_toLe]
    have hroom : 16 ≤ s.dataBuffer.length := by
      rw [hbuffer]
      exact Nat.le_trans haccept.length (Nat.le_of_dvd haccept.max haccept.multiple)
    obtain ⟨buffer', hwrite⟩ := exists_writeAt s.dataBuffer 0
      (stgUnmapDescriptor s.blockAddress s.opBlockCount) (by omega)
    rw [if_neg (by decide), if_neg (by decide), if_neg (by decide), if_pos rfl, hwrite]
    refine ⟨_, _, _, rfl, length_writeAt hwrite, .unmap rfl rfl ?_⟩
    rw [← hsize]
    exact readAt_writeAt hwrite

/-! ## A response -/

theorem writeLength_le {dataBuffer : List UInt8} {address count : Nat}
    (haccept : UnitAccepted a.params) (hnames : RequestNames req dataBuffer address count)
    (hfit : count * a.params.blockLength.toNat ≤ a.params.maxTransferLength.toNat) :
    (stgWriteLength a.params req).toNat ≤ a.params.maxTransferLength.toNat := by
  have hlt := a.params.maxTransferLength.toNat_lt
  unfold stgWriteLength
  cases hnames with
  | range hkind =>
      split
      · rw [UInt32.toNat_mul, Nat.mod_eq_of_lt (by omega)]
        exact hfit
      · split
        · next hunmap =>
            rw [hunmap] at hkind
            exact absurd hkind (by decide)
        · exact Nat.zero_le _
  | unmap hkind hcount _ =>
      rw [if_neg (by rw [hkind]; decide), if_pos hkind, hcount]
      exact Nat.le_trans haccept.length (Nat.le_of_dvd haccept.max haccept.multiple)

/-- The transaction reads and writes in its buffers only, and what it leaves is a
data buffer of the same size. -/
theorem stgTransactPipe_some {params : StorageUnitParams} {dataBuffer : List UInt8}
    (hbuffer : dataBuffer.length = params.maxTransferLength.toNat)
    (hwrite : (stgWriteLength params req).toNat ≤ params.maxTransferLength.toNat)
    (answer : StgAnswer) :
    ∃ r, stgTransactPipe params req dataBuffer answer = some r ∧
      ∀ rsp dataBuffer', r = .ok (rsp, dataBuffer') →
        dataBuffer'.length = dataBuffer.length := by
  obtain ⟨message, hmessage⟩ : ∃ message, stgMessage params ⟨req, some dataBuffer⟩ =
      some message := by
    have hle : ¬ stgWriteLength params req > params.maxTransferLength := fun hgt =>
      absurd (UInt32.lt_iff_toNat_lt.mp hgt) (Nat.not_lt.mpr hwrite)
    have hread : readAt dataBuffer 0 (stgWriteLength params req).toNat = some _ :=
      readAt_eq_some.mpr ⟨by omega, rfl⟩
    simp only [stgMessage, stgPayload, if_neg hle, hread, Option.map_some]
    exact ⟨_, rfl⟩
  cases answer with
  | fails error => exact ⟨.error error, by rw [stgTransactPipe, hmessage]; rfl, by simp⟩
  | responds rsp data =>
      rw [stgTransactPipe, hmessage]
      dsimp only [Option.bind_eq_bind, Option.bind_some]
      unfold stgResponse
      dsimp only
      split
      · exact ⟨_, rfl, by simp⟩
      · split
        · exact ⟨_, rfl, by simp⟩
        · split
          · split
            · exact ⟨_, rfl, by simp⟩
            · next hle =>
                have hle' : (req.blockCount * params.blockLength).toNat ≤ dataBuffer.length := by
                  rw [hbuffer]
                  exact Nat.le_of_not_lt fun hlt => hle (UInt32.lt_iff_toNat_lt.mpr hlt)
                rw [if_neg (Nat.not_lt.mpr hle')]
                refine ⟨_, rfl, fun rsp' dataBuffer' h => ?_⟩
                cases h
                simp only [fillBuffer, List.length_append, List.length_take, List.length_replicate,
                  List.length_drop]
                omega
          · refine ⟨_, rfl, fun rsp' dataBuffer' h => ?_⟩
            cases h
            rfl

theorem testRead_some
    (hfits : BlocksFit a.params.blockLength s.opBlockCount.toNat s.dataBuffer) :
    ∃ ok, a.testRead s = some ok ∧
      (ok = true → s.testOpKind = transactWriteKind →
        ∀ i < s.opBlockCount.toNat, blockBytes a.params.blockLength i s.dataBuffer =
          blockFill a.params.blockLength (s.blockAddress + UInt64.ofNat i)) := by
  unfold Stress.testRead
  split
  · rw [fillOrTest_test (.inl rfl) hfits]
    exact ⟨_, rfl, fun hok _ => of_decide_eq_true hok⟩
  · next hwrite =>
      split
      · rw [fillOrTest_test (.inr rfl) hfits]
        exact ⟨_, rfl, fun _ h => absurd h.symm hwrite⟩
      · exact ⟨_, rfl, fun _ h => absurd h.symm hwrite⟩

/-- How a turn goes on. What was read behind a write has passed its test. -/
theorem complete_some (haccept : UnitAccepted a.params) (hround : RoundInv a s)
    (hbuffer : s.dataBuffer.length = a.params.maxTransferLength.toNat)
    (hnames : RequestNames req s.dataBuffer s.blockAddress.toNat s.opBlockCount.toNat)
    (answer : StgAnswer) :
    ∃ r, a.complete s req answer = some r ∧ ∀ s', r = .ok s' →
      ∃ dataBuffer, s' = { s with
          dataBuffer := dataBuffer, i := s.i + 1, j := (s.j + 1) % a.opKinds.length } ∧
        dataBuffer.length = s.dataBuffer.length ∧
        (req.kind = transactReadKind → s.testOpKind = transactWriteKind →
          ∀ i < s.opBlockCount.toNat, blockBytes a.params.blockLength i dataBuffer =
            blockFill a.params.blockLength (s.blockAddress + UInt64.ofNat i)) := by
  have hfits := hround.fits haccept hbuffer
  obtain ⟨r, hr, hsame⟩ := stgTransactPipe_some hbuffer
    (writeLength_le haccept hnames (hbuffer ▸ hfits.fit)) answer
  rw [Stress.complete, hr]
  dsimp only [Option.bind_eq_bind, Option.bind_some]
  cases r with
  | error error => exact ⟨_, rfl, by simp⟩
  | ok r =>
      obtain ⟨rsp, dataBuffer⟩ := r
      have hlen := hsame rsp dataBuffer rfl
      have hfits' : BlocksFit a.params.blockLength s.opBlockCount.toNat dataBuffer :=
        ⟨hfits.pos, hlen ▸ hfits.fit, hlen ▸ hfits.lt⟩
      dsimp only
      split
      · exact ⟨_, rfl, by simp⟩
      · next hcheck =>
          have hkind : req.kind = rsp.kind := (not_not.mp hcheck).2.1
          split
          · obtain ⟨ok, hok, htest⟩ :=
              @testRead_some a { s with dataBuffer := dataBuffer } hfits'
            rw [hok]
            dsimp only [Option.bind_some]
            cases ok with
            | false => exact ⟨_, rfl, fun s' h => (by cases h)⟩
            | true =>
                refine ⟨_, rfl, fun s' h => ?_⟩
                cases h
                exact ⟨dataBuffer, rfl, hlen, fun _ => htest rfl⟩
          · next hother =>
              refine ⟨_, rfl, fun s' h => ?_⟩
              cases h
              exact ⟨dataBuffer, rfl, hlen, fun hread => absurd (hkind.symm.trans hread) hother⟩

/-! ## Runs -/

structure StressInv (a : Stress) (s : StressState) : Prop where
  buffer : s.dataBuffer.length = a.params.maxTransferLength.toNat
  round : s.j ≠ 0 → RoundInv a s

theorem issue_eq :
    a.issue s = (if s.j = 0 then a.beginRound s else some s).bind a.prepare := by
  unfold Stress.issue
  split
  · rfl
  · rfl

theorem StressInv.issue (h : StressInv a s) (hkinds : KindsOk a.opKinds)
    (haccept : UnitAccepted a.params) :
    ∃ s₁ req, a.issue s = some (s₁, req) ∧ RoundInv a s₁ ∧
      s₁.dataBuffer.length = a.params.maxTransferLength.toNat ∧ s₁.i = s.i ∧
      s₁.j = s.j ∧
      roundRange a s = some (s₁.blockAddress.toNat, s₁.blockCount.toNat) ∧
      RequestNames req s₁.dataBuffer s₁.blockAddress.toNat s₁.opBlockCount.toNat := by
  obtain ⟨s₀, hround, hinv, hbuffer, hi, hj, hrange⟩ := round_some haccept h.round
  have hlen : s₀.dataBuffer.length = a.params.maxTransferLength.toNat :=
    (congrArg List.length hbuffer).trans h.buffer
  obtain ⟨dataBuffer, testOpKind, req, hprepare, hsame, hnames⟩ :=
    prepare_some hkinds haccept hinv hlen
  refine ⟨{ s₀ with dataBuffer := dataBuffer, testOpKind := testOpKind }, req, ?_,
    ⟨hinv.address, hinv.pos, hinv.fit, hinv.cut⟩, hsame.trans hlen, hi, hj, hrange, hnames⟩
  rw [issue_eq, hround]
  exact hprepare

theorem StressInv.step {ev : StressEvent} (h : StressInv a s) (hkinds : KindsOk a.opKinds)
    (haccept : UnitAccepted a.params) (hstep : StressStep a s ev s') : StressInv a s' := by
  obtain ⟨s₁, req, hissue, hround, hbuffer, -, -, -, hnames⟩ := h.issue hkinds haccept
  cases hstep with
  | turn hcount hissue' hcomplete =>
      cases hissue.symm.trans hissue'
      obtain ⟨r, hr, hnext⟩ := complete_some haccept hround hbuffer hnames _
      rw [hr] at hcomplete
      obtain ⟨dataBuffer, rfl, hlen, -⟩ := hnext s' (Option.some_inj.mp hcomplete)
      exact ⟨hlen.trans hbuffer,
        fun _ => ⟨hround.address, hround.pos, hround.fit, hround.cut⟩⟩

variable {args : StressArgs} {dataBuffer : List UInt8} {ls : List StressEvent}

theorem stressInv_run (haccept : UnitAccepted args.params)
    (hbuffer : dataBuffer.length = args.params.maxTransferLength.toNat)
    (hrun : Run (StressStep args.stress) (args.start dataBuffer) ls s) :
    StressInv args.stress s :=
  hrun.inv ⟨hbuffer, fun hj => absurd rfl hj⟩ fun h hstep =>
    h.step (opKinds_ok args.opSet) haccept hstep

theorem toNat_address {address : UInt64} {i : Nat} (h : address.toNat + i + 1 < 2 ^ 64) :
    (address + UInt64.ofNat i).toNat = address.toNat + i := by
  rw [UInt64.toNat_add, UInt64.toNat_ofNat', Nat.mod_eq_of_lt (show i < 2 ^ 64 by omega),
    Nat.mod_eq_of_lt (by omega)]

/-- The test of the stress test can not be fooled: `HashMix64` tells all words
apart, a buffer is accepted if every block of it is what a fill writes for the
address of that block, and then no block is what a fill writes for another
address, nor what is expected after an unmap. A read that passes has returned
every block from its own address. -/
theorem stress_not_fooled :
    Function.Injective hashMix64 ∧ hashMix64 0 = 0 ∧
    (∀ (blockLength : UInt32) (blocks : Nat) (a b : UInt64) (n m : UInt32)
        (buffer fresh : List UInt8),
      8 ≤ blockLength.toNat → blocks < 2 ^ 64 → a.toNat + n.toNat ≤ blocks →
      b.toNat + m.toNat ≤ blocks → BlocksFit blockLength n.toNat buffer →
      BlocksFit blockLength m.toNat fresh →
      ∃ filled ok,
        fillOrTest fresh blockLength b m transactReservedKind = some (true, filled) ∧
        (∀ j < m.toNat, blockBytes blockLength j filled =
          blockFill blockLength (b + UInt64.ofNat j)) ∧
        fillOrTest buffer blockLength a n transactWriteKind = some (ok, buffer) ∧
        (ok = true ↔ ∀ i < n.toNat, blockBytes blockLength i buffer =
          blockFill blockLength (a + UInt64.ofNat i)) ∧
        (ok = true → ∀ i < n.toNat,
          blockBytes blockLength i buffer ≠ List.replicate (8 * (blockLength.toNat / 8)) 0 ∧
          ∀ j < m.toNat, blockBytes blockLength i buffer = blockBytes blockLength j filled ↔
            a.toNat + i = b.toNat + j)) ∧
    ∀ (args : StressArgs) (dataBuffer : List UInt8) (ls : List StressEvent)
      (s s₁ s' : StressState) (req : SpdIoctlTransactReq) (answer : StgAnswer),
      stgOpenPipeAccepts args.params = true →
      dataBuffer.length = args.params.maxTransferLength.toNat →
      Run (StressStep args.stress) (args.start dataBuffer) ls s →
      args.stress.issue s = some (s₁, req) →
      args.stress.complete s₁ req answer = some (.ok s') →
      req.kind = transactReadKind → s₁.testOpKind = transactWriteKind →
      ∀ i < s'.opBlockCount.toNat,
        blockBytes args.params.blockLength i s'.dataBuffer =
          blockFill args.params.blockLength (s'.blockAddress + UInt64.ofNat i) ∧
        (∀ address, blockBytes args.params.blockLength i s'.dataBuffer =
          blockFill args.params.blockLength address →
            address = s'.blockAddress + UInt64.ofNat i) ∧
        (s'.blockAddress.toNat + i < args.params.blockCount.toNat →
          blockBytes args.params.blockLength i s'.dataBuffer ≠
            List.replicate (8 * (args.params.blockLength.toNat / 8)) 0) := by
  refine ⟨hashMix64_injective, hashMix64_zero, ?_, ?_⟩
  · intro blockLength blocks a b n m buffer fresh hwords hblocks ha hb hfits hfresh
    obtain ⟨filled, hfill, -, hfilled⟩ := @fillOrTest_fill fresh blockLength b m hfresh
    refine ⟨filled, _, hfill, hfilled, fillOrTest_test (.inl rfl) hfits, decide_eq_true_iff,
      fun hok i hi => ?_⟩
    have hblock : blockBytes blockLength i buffer = blockFill blockLength (a + UInt64.ofNat i) :=
      of_decide_eq_true hok i hi
    have hai := toNat_address (show a.toNat + i + 1 < 2 ^ 64 by omega)
    refine ⟨?_, fun j hj => ?_⟩
    · rw [hblock]
      exact blockFill_ne_zeros hwords (by omega)
    · have hbj := toNat_address (show b.toNat + j + 1 < 2 ^ 64 by omega)
      rw [hblock, hfilled j hj, ← hai, ← hbj]
      constructor
      · exact fun h => congrArg UInt64.toNat (blockFill_injective hwords h)
      · exact fun h => congrArg _ (UInt64.toNat_inj.mp h)
  · intro args dataBuffer ls s s₁ s' req answer haccept hbuffer hrun hissue hcomplete hread htest
      i hi
    have hunit := unitAccepted haccept
    have hwords : 8 ≤ args.params.blockLength.toNat := Nat.le_trans (by decide) hunit.length
    obtain ⟨s₁', req', hissue', hround, hlen, -, -, -, hnames⟩ :=
      (stressInv_run hunit hbuffer hrun).issue (opKinds_ok args.opSet) hunit
    cases hissue.symm.trans hissue'
    obtain ⟨r, hr, hnext⟩ := complete_some hunit hround hlen hnames answer
    rw [hr] at hcomplete
    obtain ⟨dataBuffer', rfl, -, htested⟩ := hnext s' (Option.some_inj.mp hcomplete)
    have hblock : blockBytes args.params.blockLength i dataBuffer' =
        blockFill args.params.blockLength (s₁.blockAddress + UInt64.ofNat i) :=
      htested hread htest i hi
    refine ⟨hblock, fun address haddress => ?_, fun hinside => ?_⟩
    · exact (blockFill_injective hwords (hblock.symm.trans haddress)).symm
    · have hinside' : s₁.blockAddress.toNat + i < args.params.blockCount.toNat := hinside
      have hlt := args.params.blockCount.toNat_lt
      have haddress := toNat_address (show s₁.blockAddress.toNat + i + 1 < 2 ^ 64 by omega)
      exact fun hzeros => blockFill_ne_zeros hwords (by omega) (hblock.symm.trans hzeros)

/-- A write to block 1 and a read of it. -/
def oneBlock : StressArgs where
  params :=
    { StorageUnitParams.zero with blockCount := 4, blockLength := 16, maxTransferLength := 16 }
  opCount := 2
  opSet := .empty
  blockAddress := 1
  blockCount := 1
  randomSeed := 1
  threadId := 0

def goodAnswer (hint : UInt64) (kind : UInt8) (data : List UInt8) : StgAnswer :=
  .responds ⟨hint, kind, ⟨scsistatGood, 0, 0, 0, 0, false⟩⟩ data

def readState : StressState := ⟨1, 1, 1, 1, transactWriteKind, blockFill 16 1, 1, 1⟩

def readBack : SpdIoctlTransactReq := ⟨1, transactReadKind, 1, 1, true⟩

theorem stress_not_fooled_read :
    (∃ filled ok,
      fillOrTest (List.replicate 64 0) 16 0 4 transactReservedKind = some (true, filled) ∧
      fillOrTest (List.replicate 32 0) 16 1 2 transactWriteKind =
        some (ok, List.replicate 32 0) ∧
      (ok = true ↔ ∀ i < 2, blockBytes 16 i (List.replicate 32 0) =
        blockFill 16 (1 + UInt64.ofNat i))) ∧
    ∃ ls s s₁ s' req answer, Run (StressStep oneBlock.stress)
        (oneBlock.start (List.replicate 16 0)) ls s ∧
      oneBlock.stress.issue s = some (s₁, req) ∧
      oneBlock.stress.complete s₁ req answer = some (.ok s') ∧
      blockBytes 16 0 s'.dataBuffer = blockFill 16 (s'.blockAddress + UInt64.ofNat 0) := by
  constructor
  · obtain ⟨filled, ok, hfill, -, htest, hiff, -⟩ := stress_not_fooled.2.2.1 16 4 1 0 2 4
      (List.replicate 32 0) (List.replicate 64 0) (by decide) (by decide) (by decide) (by decide)
      ⟨by decide, by decide, by decide⟩ ⟨by decide, by decide, by decide⟩
    exact ⟨filled, ok, hfill, htest, hiff⟩
  · have hwrite : StressStep oneBlock.stress (oneBlock.start (List.replicate 16 0))
        ⟨_, goodAnswer 0 transactWriteKind []⟩ readState := .turn (by decide) rfl rfl
    have hissue : oneBlock.stress.issue readState = some (readState, readBack) := rfl
    have hcomplete : oneBlock.stress.complete readState readBack
        (goodAnswer 1 transactReadKind (blockFill 16 1)) =
          some (.ok { readState with i := 2, j := 0 }) := rfl
    refine ⟨_, _, _, _, _, _, .single hwrite, hissue, hcomplete, ?_⟩
    exact (stress_not_fooled.2.2.2 oneBlock _ _ _ _ _ _ _ (by decide) List.length_replicate
      (.single hwrite) hissue hcomplete rfl rfl 0 (by decide)).1

/-- A turn issues one request, for at least one block and for no more than the data
buffer is made for, and neither the turn nor its end divides by zero or leaves
that buffer. The range is inside the unit exactly if the address and the count
of the round add up to less than 2^64, which they do on units that are not about
as large. -/
theorem stress_requests (haccept : stgOpenPipeAccepts args.params = true)
    (hbuffer : dataBuffer.length = args.params.maxTransferLength.toNat)
    (hrun : Run (StressStep args.stress) (args.start dataBuffer) ls s) :
    ∃ s₁ req address count range,
      args.stress.issue s = some (s₁, req) ∧
      s₁.dataBuffer.length = args.params.maxTransferLength.toNat ∧
      (∀ answer, (args.stress.complete s₁ req answer).isSome) ∧
      RequestNames req s₁.dataBuffer address count ∧
      1 ≤ count ∧ count ≤ args.params.maxTransferLength.toNat /
        args.params.blockLength.toNat ∧
      roundRange args.stress s = some range ∧
      (address + count ≤ args.params.blockCount.toNat ↔ range.1 + range.2 < 2 ^ 64) ∧
      (args.params.blockCount.toNat +
          args.params.maxTransferLength.toNat / args.params.blockLength.toNat ≤ 2 ^ 64 →
        address + count ≤ args.params.blockCount.toNat) := by
  have hunit := unitAccepted haccept
  have hlength := hunit.length
  obtain ⟨s₁, req, hissue, hround, hlen, -, -, hrange, hnames⟩ :=
    (stressInv_run hunit hbuffer hrun).issue (opKinds_ok args.opSet) hunit
  obtain ⟨hpos, hle⟩ := hround.op_bounds
  have haddress := hround.address
  have hmax : s₁.blockCount.toNat ≤
      args.params.maxTransferLength.toNat / args.params.blockLength.toNat :=
    (Nat.le_div_iff_mul_le (by omega)).mpr hround.fit
  refine ⟨s₁, req, _, _, _, hissue, hlen, fun answer => ?_, hnames, hpos, Nat.le_trans hle hmax,
    hrange, hround.inside_iff, fun hsmall => hround.inside_iff.mpr ?_⟩
  · obtain ⟨r, hr, -⟩ := complete_some hunit hround hlen hnames answer
    rw [hr]
    rfl
  · have hlt : s₁.blockAddress.toNat < args.params.blockCount.toNat := haddress
    omega

/-- A unit of 2^64 - 1 blocks, and eight blocks from its last one on. -/
def lastBlocks : StressArgs where
  params :=
    { StorageUnitParams.zero with
      blockCount := 0xffffffffffffffff, blockLength := 16, maxTransferLength := 128 }
  opCount := 1
  opSet := .empty
  blockAddress := 0xfffffffffffffffe
  blockCount := 8
  randomSeed := 1
  threadId := 0

theorem stress_requests_last :
    ∃ s₁ req address count range,
      lastBlocks.stress.issue (lastBlocks.start (List.replicate 128 0)) = some (s₁, req) ∧
      s₁.dataBuffer.length = 128 ∧
      (∀ answer, (lastBlocks.stress.complete s₁ req answer).isSome) ∧
      RequestNames req s₁.dataBuffer address count ∧ 1 ≤ count ∧ count ≤ 128 / 16 ∧
      roundRange lastBlocks.stress (lastBlocks.start (List.replicate 128 0)) = some range ∧
      (address + count ≤ 0xffffffffffffffff ↔ range.1 + range.2 < 2 ^ 64) ∧
      (0xffffffffffffffff + 128 / 16 ≤ 2 ^ 64 → address + count ≤ 0xffffffffffffffff) :=
  stress_requests (show stgOpenPipeAccepts lastBlocks.params = true by decide)
    List.length_replicate .nil

/-- These eight blocks are asked for, of which there is one. -/
theorem stress_requests_overflow :
    ¬∀ (args : StressArgs) (dataBuffer : List UInt8) (ls : List StressEvent) (s : StressState),
      stgOpenPipeAccepts args.params = true →
      dataBuffer.length = args.params.maxTransferLength.toNat →
      Run (StressStep args.stress) (args.start dataBuffer) ls s → args.stress.opCount > s.i →
      ∀ s₁ req address count, args.stress.issue s = some (s₁, req) →
        RequestNames req s₁.dataBuffer address count →
        address + count ≤ args.params.blockCount.toNat := by
  intro h
  have haccept : stgOpenPipeAccepts lastBlocks.params = true := by decide
  have hbuffer : (List.replicate 128 0 : List UInt8).length =
      lastBlocks.params.maxTransferLength.toNat := List.length_replicate
  have hunit := unitAccepted haccept
  obtain ⟨s₁, req, hissue, hround, -, -, -, hrange, hnames⟩ :=
    (stressInv_run hunit hbuffer .nil).issue (opKinds_ok lastBlocks.opSet) hunit
  have hinside := h lastBlocks _ _ _ haccept hbuffer .nil (by decide) s₁ req _ _ hissue hnames
  have hsum := hround.inside_iff.mp hinside
  have hdrawn : roundRange lastBlocks.stress (lastBlocks.start (List.replicate 128 0)) =
      some (0xfffffffffffffffe, 8) := rfl
  have hpair := Prod.mk.inj (Option.some_inj.mp (hdrawn.symm.trans hrange))
  omega

end Winspd.Proofs
