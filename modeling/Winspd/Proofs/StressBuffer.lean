import Winspd.Lib.XorShift
import Winspd.Stgtest.Run

/-!
# What a block is filled with, and what the test accepts

`HashMix64` is injective, so blocks of different addresses are filled with
different words, and only address -1 is filled with zeros, which no device of
fewer than 2^64 blocks has. A test of a block looks at the words that a fill has
written, all of them (`fillOrTestWords_test`, `fillOrTestWords_fill`), and the
loop over the blocks does so for each block with its own address.
-/

namespace Winspd.Proofs

open Winspd.Lib Winspd.Sys Winspd.Shared Winspd.Stgtest

/-! ## The hash -/

theorem toBitVec_hashMix64 (k : UInt64) : (hashMix64 k).toBitVec =
    xorShift 33 (xorShift 33 (xorShift 33 k.toBitVec * 0xff51afd7ed558ccd#64) *
      0xc4ceb9fe1a85ec53#64) := rfl

theorem firstMultiplier : 0xff51afd7ed558ccd#64 * 0x4f74430c22a54005#64 = 1#64 := by decide

theorem secondMultiplier : 0xc4ceb9fe1a85ec53#64 * 0x9cb4b2f8129337db#64 = 1#64 := by decide

theorem hashMix64_injective : Function.Injective hashMix64 := by
  intro x y hxy
  have hshift : Function.Injective (xorShift (w := 64) 33) := xorShift_injective (by decide)
  have hbits : (hashMix64 x).toBitVec = (hashMix64 y).toBitVec := congrArg _ hxy
  rw [toBitVec_hashMix64, toBitVec_hashMix64] at hbits
  have hsecond := hshift (mul_injective secondMultiplier (hshift hbits))
  exact UInt64.toBitVec_inj.mp (hshift (mul_injective firstMultiplier hsecond))

theorem hashMix64_zero : hashMix64 0 = 0 := by decide

theorem hashMix64_ne_zero {k : UInt64} (h : k ≠ 0) : hashMix64 k ≠ 0 := by
  intro hzero
  rw [← hashMix64_zero] at hzero
  exact h (hashMix64_injective hzero)

/-! ## Words -/

def wordBytes (n : Nat) (word : UInt64) : List UInt8 :=
  (List.replicate n (toLe 8 word.toNat)).flatten

theorem length_wordBytes (n : Nat) (word : UInt64) : (wordBytes n word).length = 8 * n := by
  rw [wordBytes, List.length_flatten, List.map_replicate, length_toLe, List.sum_replicate_nat,
    Nat.mul_comm]

theorem wordBytes_succ (n : Nat) (word : UInt64) :
    wordBytes (n + 1) word = toLe 8 word.toNat ++ wordBytes n word := by
  rw [wordBytes, List.replicate_succ, List.flatten_cons]
  rfl

theorem ofLe_word (word : UInt64) : ofLe (toLe 8 word.toNat) = word.toNat := by
  rw [ofLe_toLe]
  exact Nat.mod_eq_of_lt word.toNat_lt

theorem ofLe_eq_iff {bs : List UInt8} (word : UInt64) (h : bs.length = 8) :
    ofLe bs = word.toNat ↔ bs = toLe 8 word.toNat := by
  constructor
  · intro hval
    rw [← hval, ← h, toLe_ofLe]
  · rintro rfl
    exact ofLe_word word

theorem wordBytes_injective {n : Nat} {word word' : UInt64} (hn : 0 < n)
    (h : wordBytes n word = wordBytes n word') : word = word' := by
  obtain ⟨n, rfl⟩ := Nat.exists_eq_add_one.mpr hn
  rw [wordBytes_succ, wordBytes_succ] at h
  have hlen : (toLe 8 word.toNat).length = (toLe 8 word'.toNat).length := by
    rw [length_toLe, length_toLe]
  have hvalue := congrArg ofLe (List.append_inj h hlen).1
  rw [ofLe_word, ofLe_word] at hvalue
  exact UInt64.toNat_inj.mp hvalue

variable {off n j : Nat} {hashAddress : UInt64} {buffer : List UInt8}

def testWord (kind : UInt8) (hashAddress : UInt64) : UInt64 :=
  if transactWriteKind = kind then hashAddress else 0

theorem take_words (n : Nat) (word : UInt64) {off : Nat} (hle : off + 8 ≤ buffer.length) :
    (buffer.drop off).take (8 * (n + 1)) = wordBytes (n + 1) word ↔
      (buffer.drop off).take 8 = toLe 8 word.toNat ∧
        (buffer.drop (off + 8)).take (8 * n) = wordBytes n word := by
  have hlen : ((buffer.drop off).take 8).length = (toLe 8 word.toNat).length := by
    rw [List.length_take, List.length_drop, length_toLe]
    omega
  have hsplit : (buffer.drop off).take (8 * (n + 1)) =
      (buffer.drop off).take 8 ++ (buffer.drop (off + 8)).take (8 * n) := by
    rw [Nat.mul_succ, Nat.add_comm, List.take_add, List.drop_drop]
  rw [hsplit, wordBytes_succ]
  constructor
  · intro h
    exact List.append_inj h hlen
  · rintro ⟨hfirst, hrest⟩
    rw [hfirst, hrest]

/-- A test goes on if all words are the one it compares with. -/
theorem fillOrTestWords_test {kind : UInt8}
    (hkind : kind = transactWriteKind ∨ kind = transactUnmapKind)
    (hle : off + 8 * (j + n) ≤ buffer.length) :
    fillOrTestWords off hashAddress kind n j buffer =
      some (decide ((buffer.drop (off + 8 * j)).take (8 * n) =
        wordBytes n (testWord kind hashAddress)), buffer) := by
  induction n generalizing j with
  | zero => simp [fillOrTestWords, wordBytes]
  | succ n ih =>
      have hread : readAt buffer (off + 8 * j) 8 = some ((buffer.drop (off + 8 * j)).take 8) :=
        readAt_eq_some.mpr ⟨by omega, rfl⟩
      have hword := ofLe_eq_iff (testWord kind hashAddress) (length_readAt hread)
      have hnext := ih (j := j + 1) (by omega)
      have hstep : fillOrTestWords off hashAddress kind (n + 1) j buffer =
          if ofLe ((buffer.drop (off + 8 * j)).take 8) ≠ (testWord kind hashAddress).toNat then
            some (false, buffer)
          else fillOrTestWords off hashAddress kind n (j + 1) buffer := by
        rcases hkind with rfl | rfl
        · rw [fillOrTestWords, if_neg (by decide), if_pos rfl, hread]
          rfl
        · rw [fillOrTestWords, if_neg (by decide), if_neg (by decide), if_pos rfl, hread]
          rfl
      rw [hstep, hnext]
      have hroom : off + 8 * j + 8 ≤ buffer.length := by omega
      have hwords := take_words n (testWord kind hashAddress) hroom
      split
      · next hne =>
          have hdiff : ¬ (buffer.drop (off + 8 * j)).take (8 * (n + 1)) =
              wordBytes (n + 1) (testWord kind hashAddress) :=
            fun h => hne (hword.mpr (hwords.mp h).1)
          rw [decide_eq_false hdiff]
      · next heq =>
          have hfirst := hword.mp (not_not.mp heq)
          have hiff : (buffer.drop (off + 8 * j)).take (8 * (n + 1)) =
              wordBytes (n + 1) (testWord kind hashAddress) ↔
                (buffer.drop (off + 8 * (j + 1))).take (8 * n) =
                  wordBytes n (testWord kind hashAddress) :=
            hwords.trans (and_iff_right hfirst)
          rw [decide_eq_decide.mpr hiff]

theorem fillOrTestWords_fill (hle : off + 8 * (j + n) ≤ buffer.length) :
    ∃ buffer', fillOrTestWords off hashAddress transactReservedKind n j buffer =
        some (true, buffer') ∧
      writeAt buffer (off + 8 * j) (wordBytes n hashAddress) = some buffer' := by
  induction n generalizing j buffer with
  | zero =>
      refine ⟨buffer, rfl, ?_⟩
      rw [writeAt_eq_some]
      exact ⟨hle, by simp [wordBytes]⟩
  | succ n ih =>
      have hlen : (toLe 8 hashAddress.toNat).length = 8 := length_toLe _ _
      obtain ⟨buffer₁, hwrite⟩ := exists_writeAt buffer (off + 8 * j)
        (toLe 8 hashAddress.toNat)
        (by omega)
      obtain ⟨buffer', hfill, hrest⟩ := @ih (j + 1) buffer₁
        (by rw [length_writeAt hwrite]; omega)
      refine ⟨buffer', ?_, ?_⟩
      · rw [fillOrTestWords, if_pos rfl, hwrite]
        exact hfill
      · rw [wordBytes_succ]
        refine writeAt_append hwrite ?_
        rw [hlen]
        exact hrest

/-! ## Blocks -/

/-- What of a block is filled and tested: the words in it. -/
def blockBytes (blockLength : UInt32) (i : Nat) (buffer : List UInt8) : List UInt8 :=
  (buffer.drop (i * blockLength.toNat)).take (8 * (blockLength.toNat / 8))

/-- What a block of that address is filled with. -/
def blockFill (blockLength : UInt32) (address : UInt64) : List UInt8 :=
  wordBytes (blockLength.toNat / 8) (hashMix64 (address + 1))

def blockTest (kind : UInt8) (blockLength : UInt32) (address : UInt64) : List UInt8 :=
  wordBytes (blockLength.toNat / 8) (testWord kind (hashMix64 (address + 1)))

variable {blockLength : UInt32} {blockAddress : UInt64} {i : Nat}

theorem toNat_words : (blockLength / 8).toNat = blockLength.toNat / 8 := UInt32.toNat_div _ _

/-- The blocks are in the buffer, which is no larger than the system makes it. -/
structure BlocksFit (blockLength : UInt32) (n : Nat) (buffer : List UInt8) : Prop where
  pos : 0 < blockLength.toNat
  fit : n * blockLength.toNat ≤ buffer.length
  lt : buffer.length < 2 ^ 32

theorem BlocksFit.next (h : BlocksFit blockLength (i + (n + 1)) buffer) :
    (UInt32.ofNat i * blockLength).toNat = i * blockLength.toNat ∧
      (UInt32.ofNat i).toUInt64 = UInt64.ofNat i ∧
      UInt32.ofNat i + 1 = UInt32.ofNat (i + 1) ∧
      i * blockLength.toNat + 8 * (0 + (blockLength / 8).toNat) ≤ (i + 1) * blockLength.toNat ∧
      (i + 1) * blockLength.toNat ≤ buffer.length := by
  have hpos := h.pos
  have hlt := h.lt
  have hfit : (i + 1) * blockLength.toNat ≤ buffer.length :=
    Nat.le_trans (Nat.mul_le_mul_right _ (by omega)) h.fit
  have hle : i * blockLength.toNat ≤ (i + 1) * blockLength.toNat :=
    Nat.mul_le_mul_right _ (Nat.le_succ i)
  have hi : i ≤ i * blockLength.toNat := Nat.le_mul_of_pos_right i hpos
  have htoNat : (UInt32.ofNat i).toNat = i :=
    UInt32.toNat_ofNat_of_lt' (show i < 2 ^ 32 by omega)
  refine ⟨?_, ?_, ?_, ?_, hfit⟩
  · rw [UInt32.toNat_mul, htoNat, Nat.mod_eq_of_lt (by omega)]
  · rw [← UInt64.ofNat_uInt32ToNat, htoNat]
  · rw [UInt32.ofNat_add]
    rfl
  · have hwords := Nat.mul_div_le blockLength.toNat 8
    rw [toNat_words, Nat.succ_mul i]
    omega

theorem blockBytes_take (hwords : 8 * (blockLength.toNat / 8) ≤ blockLength.toNat) :
    blockBytes blockLength i buffer =
      blockBytes blockLength i (buffer.take ((i + 1) * blockLength.toNat)) := by
  rw [blockBytes, blockBytes, List.drop_take, List.take_take, Nat.succ_mul i,
    Nat.add_sub_cancel_left,
    Nat.min_eq_left hwords]

theorem fillOrTestBlocks_test {kind : UInt8}
    (hkind : kind = transactWriteKind ∨ kind = transactUnmapKind)
    (h : BlocksFit blockLength (i + n) buffer) :
    fillOrTestBlocks blockLength blockAddress kind n (UInt32.ofNat i) buffer =
      some (decide (∀ k < n, blockBytes blockLength (i + k) buffer =
        blockTest kind blockLength (blockAddress + UInt64.ofNat (i + k))), buffer) := by
  induction n generalizing i with
  | zero => simp [fillOrTestBlocks]
  | succ n ih =>
      obtain ⟨hoff, hindex, hnext, hwords, hroom⟩ := h.next
      have htest : fillOrTestWords (i * blockLength.toNat)
          (hashMix64 (blockAddress + UInt64.ofNat i + 1)) kind (blockLength.toNat / 8) 0 buffer =
            some (decide (blockBytes blockLength i buffer =
              blockTest kind blockLength (blockAddress + UInt64.ofNat i)), buffer) := by
        rw [toNat_words] at hwords
        exact fillOrTestWords_test hkind (Nat.le_trans hwords hroom)
      have hrest := @ih (i + 1) (by rwa [Nat.add_assoc, Nat.add_comm 1])
      have hsplit : (∀ k < n + 1, blockBytes blockLength (i + k) buffer =
            blockTest kind blockLength (blockAddress + UInt64.ofNat (i + k))) ↔
          blockBytes blockLength i buffer =
              blockTest kind blockLength (blockAddress + UInt64.ofNat i) ∧
            ∀ k < n, blockBytes blockLength (i + 1 + k) buffer =
              blockTest kind blockLength (blockAddress + UInt64.ofNat (i + 1 + k)) := by
        rw [Nat.forall_lt_succ_left]
        simp only [Nat.add_zero, Nat.add_assoc, Nat.add_comm 1]
      rw [fillOrTestBlocks, hoff, hindex, hnext, toNat_words, htest]
      dsimp only [Option.bind_eq_bind, Option.bind_some]
      split
      · next hblock =>
          rw [hrest, decide_eq_decide.mpr (hsplit.trans (and_iff_right (of_decide_eq_true hblock)))]
      · next hblock =>
          rw [decide_eq_false fun h => hblock (decide_eq_true (hsplit.mp h).1)]

/-- A fill of blocks that are in the buffer. What is in front of them stays. -/
theorem fillOrTestBlocks_fill (h : BlocksFit blockLength (i + n) buffer) :
    ∃ buffer', fillOrTestBlocks blockLength blockAddress transactReservedKind n (UInt32.ofNat i)
        buffer = some (true, buffer') ∧
      buffer'.length = buffer.length ∧
      buffer'.take (i * blockLength.toNat) = buffer.take (i * blockLength.toNat) ∧
      ∀ k < n, blockBytes blockLength (i + k) buffer' =
        blockFill blockLength (blockAddress + UInt64.ofNat (i + k)) := by
  induction n generalizing i buffer with
  | zero => exact ⟨buffer, rfl, rfl, rfl, fun k hk => absurd hk (Nat.not_lt_zero k)⟩
  | succ n ih =>
      obtain ⟨hoff, hindex, hnext, hwords, hroom⟩ := h.next
      rw [toNat_words] at hwords
      obtain ⟨buffer₁, hfill, hwrite⟩ := @fillOrTestWords_fill (i * blockLength.toNat)
        (blockLength.toNat / 8) 0 (hashMix64 (blockAddress + UInt64.ofNat i + 1)) buffer
        (Nat.le_trans hwords hroom)
      have hlen := length_writeAt hwrite
      have hfit : BlocksFit blockLength (i + 1 + n) buffer₁ :=
        ⟨h.pos, by rw [hlen, Nat.add_assoc, Nat.add_comm 1]; exact h.fit, hlen ▸ h.lt⟩
      obtain ⟨buffer', hrest, hlen', htake, hblocks⟩ := ih hfit
      rw [Nat.mul_zero, Nat.add_zero] at hwrite
      refine ⟨buffer', ?_, hlen'.trans hlen, ?_, ?_⟩
      · rw [fillOrTestBlocks, hoff, hindex, hnext, toNat_words, hfill]
        exact hrest
      · have hle : i * blockLength.toNat ≤ (i + 1) * blockLength.toNat :=
          Nat.mul_le_mul_right _ (Nat.le_succ i)
        have hfront := congrArg (List.take (i * blockLength.toNat)) htake
        rw [List.take_take, List.take_take, Nat.min_eq_left hle] at hfront
        rw [hfront, take_writeAt hwrite]
      · rw [Nat.forall_lt_succ_left]
        constructor
        · -- the blocks that are filled later are all behind this one
          have hmul := Nat.mul_div_le blockLength.toNat 8
          have hread := readAt_eq_some.mp (readAt_writeAt hwrite)
          rw [Nat.add_zero, blockBytes_take hmul, htake, ← blockBytes_take hmul, blockBytes,
            ← length_wordBytes (blockLength.toNat / 8), hread.2]
          rfl
        · intro k hk
          have hblock := hblocks k hk
          rwa [Nat.add_assoc, Nat.add_comm 1] at hblock

/-! ## All blocks -/

variable {blockCount : UInt32}

/-- What is accepted: blocks that are all what they are tested for. -/
theorem fillOrTest_test {kind : UInt8}
    (hkind : kind = transactWriteKind ∨ kind = transactUnmapKind)
    (h : BlocksFit blockLength blockCount.toNat buffer) :
    fillOrTest buffer blockLength blockAddress blockCount kind =
      some (decide (∀ i < blockCount.toNat, blockBytes blockLength i buffer =
        blockTest kind blockLength (blockAddress + UInt64.ofNat i)), buffer) := by
  have htest := @fillOrTestBlocks_test blockCount.toNat buffer blockLength blockAddress 0 _ hkind
    (by rwa [Nat.zero_add])
  simp only [Nat.zero_add] at htest
  exact htest

theorem fillOrTest_fill (h : BlocksFit blockLength blockCount.toNat buffer) :
    ∃ buffer', fillOrTest buffer blockLength blockAddress blockCount transactReservedKind =
        some (true, buffer') ∧
      buffer'.length = buffer.length ∧
      ∀ i < blockCount.toNat, blockBytes blockLength i buffer' =
        blockFill blockLength (blockAddress + UInt64.ofNat i) := by
  obtain ⟨buffer', hfill, hlen, -, hblocks⟩ := @fillOrTestBlocks_fill blockCount.toNat buffer
    blockLength blockAddress 0 (by rwa [Nat.zero_add])
  simp only [Nat.zero_add] at hblocks
  exact ⟨buffer', hfill, hlen, hblocks⟩

theorem blockTest_unmap {address : UInt64} : blockTest transactUnmapKind blockLength address =
    List.replicate (8 * (blockLength.toNat / 8)) 0 := by
  have hword : testWord transactUnmapKind (hashMix64 (address + 1)) = 0 := if_neg (by decide)
  have hzeros : toLe 8 (0 : UInt64).toNat = List.replicate 8 0 := by decide
  rw [blockTest, hword, wordBytes, hzeros, List.flatten_replicate_replicate, Nat.mul_comm]

variable {address address' : UInt64}

theorem blockFill_injective (hlen : 8 ≤ blockLength.toNat)
    (h : blockFill blockLength address = blockFill blockLength address') : address = address' := by
  have hwords : 0 < blockLength.toNat / 8 := Nat.div_pos hlen (by decide)
  exact (UInt64.add_left_inj 1).mp (hashMix64_injective (wordBytes_injective hwords h))

/-- The one that is added keeps all addresses of a device away from zero. -/
theorem blockFill_ne_zeros (hlen : 8 ≤ blockLength.toNat)
    (haddress : address.toNat + 1 < 2 ^ 64) :
    blockFill blockLength address ≠ List.replicate (8 * (blockLength.toNat / 8)) 0 := by
  have hwords : 0 < blockLength.toNat / 8 := Nat.div_pos hlen (by decide)
  rw [← @blockTest_unmap blockLength address]
  intro h
  have hzero : hashMix64 (address + 1) = 0 := wordBytes_injective hwords h
  refine hashMix64_ne_zero ?_ hzero
  intro hsum
  have hvalue := congrArg UInt64.toNat hsum
  have hmod : (address.toNat + 1) % 2 ^ 64 = 0 := (UInt64.toNat_add address 1).symm.trans hvalue
  omega

end Winspd.Proofs
