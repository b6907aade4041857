import Winspd.Lib.Decimal
import Winspd.Proofs.LaunchCodec

/-!
# The replies of the launcher

A command comes to an outcome: an error, or characters for the client. The
launcher writes the outcome in its buffer as text (`encode`), and the client
takes the reply apart again (`spdLaunchReceive`). A success gets across
whatever its characters are, as far as the client has room for them, and
anything that is not a reply is a broken pipe.

A failure is the error in decimal. The launcher prints it as a signed number
and the client reads digits only, so what comes across is the error if it has
no sign, and a broken pipe otherwise (`spdLaunchReceive_failure`).
-/

namespace Winspd.Proofs

open Winspd.Lib Winspd.Shared Winspd.Launcher

variable {bytes received buffer : List UInt8} {chars : List UInt16} {mem : Nat → UInt8}
  {error launcherError : UInt32} {size : Option UInt32} {i n p : Nat}

/-! ## Characters in bytes -/

/-- The wide characters of a buffer; the byte that is left over is not looked
at. -/
def wideChars : List UInt8 → List UInt16
  | b₀ :: b₁ :: rest => UInt16.ofNat (ofLe [b₀, b₁]) :: wideChars rest
  | _ => []

theorem length_wideChars : (wideChars bytes).length = bytes.length / 2 := by
  induction bytes using wideChars.induct with
  | case1 b₀ b₁ rest ih =>
      simp only [wideChars, List.length_cons, ih]
      omega
  | case2 bytes hshort =>
      match bytes, hshort with
      | [], _ => rfl
      | [b], _ => simp [wideChars]
      | b₀ :: b₁ :: rest, hshort => exact absurd rfl (hshort b₀ b₁ rest)

theorem wcharAt_eq : wcharAt bytes i = (wideChars bytes)[i]? := by
  induction bytes using wideChars.induct generalizing i with
  | case1 b₀ b₁ rest ih =>
      cases i with
      | zero => simp [wcharAt, readAt, wideChars]
      | succ i =>
          rw [wideChars, List.getElem?_cons_succ, ← ih, wcharAt, wcharAt]
          have hread : readAt (b₀ :: b₁ :: rest) (2 * (i + 1)) 2 = readAt rest (2 * i) 2 := by
            simp [readAt, Nat.mul_add]
          rw [hread]
  | case2 bytes hshort =>
      rcases bytes with - | ⟨b₀, - | ⟨b₁, rest⟩⟩
      · simp [wcharAt, readAt, wideChars]
      · simp [wcharAt, readAt, wideChars]
      · exact absurd rfl (hshort b₀ b₁ rest)

theorem wideChars_wcharBytes : wideChars (wcharBytes chars) = chars := by
  induction chars with
  | nil => rfl
  | cons c cs ih =>
      have hcons : wcharBytes (c :: cs) = toLe 2 c.toNat ++ wcharBytes cs := rfl
      have hbytes : toLe 2 c.toNat = [UInt8.ofNat c.toNat, UInt8.ofNat (c.toNat / 256)] := by
        simp [toLe]
      rw [hcons, hbytes, List.cons_append, List.cons_append, List.nil_append, wideChars, ih,
        ← hbytes, ofNat_ofLe_toLe]

/-! ## The number of a failure -/

theorem isDigit_iff {c : UInt16} : (0x30 > c ∨ c > 0x39) ↔ ¬ IsDigit c.toNat := by
  unfold IsDigit
  simp only [gt_iff_lt, UInt16.lt_iff_toNat_lt, UInt16.reduceToNat]
  omega

/-- The client has the number the digits are, modulo `2 ^ 32`. -/
theorem spdLaunchDigits_eq (h : p + n = (wideChars bytes).length) :
    spdLaunchDigits bytes n p launcherError = some (UInt32.ofNat
      (leadingValue launcherError.toNat (((wideChars bytes).drop p).map UInt16.toNat))) := by
  induction n generalizing p launcherError with
  | zero =>
      rw [List.drop_eq_nil_of_le (by omega)]
      simp [spdLaunchDigits]
  | succ n ih =>
      have hp : p < (wideChars bytes).length := by omega
      rw [spdLaunchDigits, wcharAt_eq, List.getElem?_eq_getElem hp, List.drop_eq_getElem_cons hp,
        List.map_cons]
      simp only [Option.bind_eq_bind, Option.bind_some]
      generalize (wideChars bytes)[p] = c
      by_cases hc : IsDigit c.toNat
      · have hno : ¬ (0x30 > c ∨ c > 0x39) := by
          rw [isDigit_iff]
          exact not_not.mpr hc
        have hdigit : c.toUInt32 - 0x30 = UInt32.ofNat (c.toNat - 0x30) := by
          rw [← UInt32.toNat_inj, UInt32.toNat_sub_of_le]
          · have hlt := c.toNat_lt
            simp
            omega
          · rw [UInt32.le_iff_toNat_le]
            simpa using hc.1
        rw [if_neg hno, ih (by omega), leadingValue_digit hc, Option.some.injEq,
          ← UInt32.toNat_inj, UInt32.toNat_ofNat', UInt32.toNat_ofNat']
        refine leadingValue_modEq ?_
        rw [hdigit, UInt32.toNat_add, UInt32.toNat_mul, UInt32.toNat_ofNat']
        unfold Nat.ModEq
        simp
      · rw [if_pos (isDigit_iff.mpr hc), leadingValue, if_neg hc]
        simp

/-! ## What the client makes of a reply -/

theorem wcharAt_zero {c : UInt16} {cs : List UInt16} (h : wideChars received = c :: cs) :
    wcharAt received 0 = some c := by
  rw [wcharAt_eq, h]
  rfl

theorem two_le_length {c : UInt16} {cs : List UInt16} (h : wideChars received = c :: cs) :
    2 ≤ received.length := by
  have hlen := @length_wideChars received
  rw [h, List.length_cons] at hlen
  omega

/-- The digits behind the `!`. -/
theorem spdLaunchReceive_failure (h : wideChars received = spdLaunchCmdFailure :: chars) :
    spdLaunchReceive received buffer size = some ⟨errorSuccess,
      if 0 = UInt32.ofNat (leadingValue 0 (chars.map UInt16.toNat)) then errorBrokenPipe
      else UInt32.ofNat (leadingValue 0 (chars.map UInt16.toNat)), buffer, size⟩ := by
  have hlen := @length_wideChars received
  have hchars : (wideChars received).length = chars.length + 1 := by rw [h, List.length_cons]
  have hdigits := @spdLaunchDigits_eq received 0 (received.length / 2 - 1) 1 (by omega)
  rw [h, List.drop_one, List.tail_cons] at hdigits
  unfold spdLaunchReceive
  rw [if_pos (two_le_length h), wcharAt_zero h]
  have hne : ¬ spdLaunchCmdSuccess = spdLaunchCmdFailure := by decide
  simp only [Option.bind_eq_bind, Option.bind_some, if_neg hne, if_true, hdigits]
  rfl

/-- What is behind the `$`, as far as there is room for it. -/
theorem spdLaunchReceive_success (h : wideChars received = spdLaunchCmdSuccess :: chars)
    (hlen : received.length < 2 ^ 32)
    (hroom : ∀ n, size = some n → n.toNat ≤ buffer.length) :
    spdLaunchReceive received buffer size = some ⟨errorSuccess, 0,
      match size with
      | none => buffer
      | some n => (received.drop 2).take n.toNat ++
          buffer.drop (min n.toNat (received.length - 2)),
      size.map fun _ => UInt32.ofNat (received.length - 2)⟩ := by
  have htwo := two_le_length h
  unfold spdLaunchReceive
  rw [if_pos htwo, wcharAt_zero h]
  simp only [Option.bind_eq_bind, Option.bind_some, if_true]
  cases size with
  | none => rfl
  | some n =>
      have hsub : UInt32.ofNat received.length - 2 = UInt32.ofNat (received.length - 2) := by
        rw [← UInt32.toNat_inj, UInt32.toNat_sub_of_le]
        · simp
          omega
        · rw [UInt32.le_iff_toNat_le, UInt32.toNat_ofNat', Nat.mod_eq_of_lt hlen]
          exact htwo
      have hmin : (if n < UInt32.ofNat (received.length - 2) then n
          else UInt32.ofNat (received.length - 2)).toNat = min n.toNat (received.length - 2) := by
        have hlt : (UInt32.ofNat (received.length - 2)).toNat = received.length - 2 := by
          rw [UInt32.toNat_ofNat', Nat.mod_eq_of_lt (by omega)]
        split
        · next hno =>
            rw [UInt32.lt_iff_toNat_lt, hlt] at hno
            omega
        · next hno =>
            rw [UInt32.lt_iff_toNat_lt, hlt] at hno
            omega
      have hread : readAt received 2 (min n.toNat (received.length - 2)) =
          some ((received.drop 2).take n.toNat) := by
        rw [readAt_eq_some]
        refine ⟨by omega, ?_⟩
        rw [List.take_eq_take_iff, List.length_drop]
        omega
      have hfits := hroom n rfl
      have hwrite : writeAt buffer 0 ((received.drop 2).take n.toNat) =
          some ((received.drop 2).take n.toNat ++
            buffer.drop (min n.toNat (received.length - 2))) := by
        rw [writeAt_eq_some]
        simp only [List.length_take, List.length_drop, List.take_zero, List.nil_append]
        refine ⟨by omega, by rw [Nat.zero_add]⟩
      rw [hsub]
      simp only [hmin, hread, hwrite, Option.bind_some, Option.map_some]

/-- What is not a reply: there is no character, or another one in front, or a
failure without a number. -/
inductive NotReply : List UInt16 → Prop
  | empty : NotReply []
  | unknown {c : UInt16} {cs : List UInt16} (hsuccess : c ≠ spdLaunchCmdSuccess)
      (hfailure : c ≠ spdLaunchCmdFailure) : NotReply (c :: cs)
  | noDigits {cs : List UInt16} (h : ∀ c, cs.head? = some c → ¬ IsDigit c.toNat) :
      NotReply (spdLaunchCmdFailure :: cs)

theorem spdLaunchReceive_notReply (h : NotReply (wideChars received)) :
    spdLaunchReceive received buffer size = some
      ⟨errorSuccess, errorBrokenPipe, buffer, size⟩ := by
  generalize hchars : wideChars received = chars at h
  cases h with
  | empty =>
      have hlen := @length_wideChars received
      rw [hchars, List.length_nil] at hlen
      unfold spdLaunchReceive
      rw [if_neg (by omega)]
  | unknown hsuccess hfailure =>
      unfold spdLaunchReceive
      rw [if_pos (two_le_length hchars), wcharAt_zero hchars]
      simp only [Option.bind_eq_bind, Option.bind_some, if_neg (Ne.symm hsuccess),
        if_neg (Ne.symm hfailure)]
  | @noDigits cs hstop =>
      have hzero : leadingValue 0 (cs.map UInt16.toNat) = 0 := by
        refine leadingValue_stop fun c hc => ?_
        rw [List.head?_map, Option.map_eq_some_iff] at hc
        obtain ⟨c', hc', rfl⟩ := hc
        exact hstop c' hc'
      rw [spdLaunchReceive_failure hchars, hzero]
      rfl

theorem spdLaunchReceive_isSome (hlen : received.length < 2 ^ 32)
    (hroom : ∀ n, size = some n → n.toNat ≤ buffer.length) :
    (spdLaunchReceive received buffer size).isSome := by
  match hchars : wideChars received with
  | [] => rw [spdLaunchReceive_notReply (by rw [hchars]; exact .empty), Option.isSome_some]
  | c :: cs =>
      by_cases hsuccess : c = spdLaunchCmdSuccess
      · subst hsuccess
        rw [spdLaunchReceive_success hchars hlen hroom, Option.isSome_some]
      · by_cases hfailure : c = spdLaunchCmdFailure
        · subst hfailure
          rw [spdLaunchReceive_failure hchars, Option.isSome_some]
        · rw [spdLaunchReceive_notReply (by rw [hchars]; exact .unknown hsuccess hfailure),
            Option.isSome_some]

/-! ## Outcomes -/

/-- What a command came to, given the error it ended with. -/
def outcomeOf (error : UInt32) : Except UInt32 (List UInt16) :=
  if error = errorSuccess then .ok [] else .error error

/-- What a request comes to: the characters for the client, or the error. -/
def LaunchRequest.outcome : LaunchRequest → LauncherProg (Except UInt32 (List UInt16))
  | .start className instanceName _ => do
      let error ← svcInstanceStart className instanceName
      pure (outcomeOf error)
  | .stop className instanceName forced => do
      let error ← svcInstanceStop className instanceName forced
      pure (outcomeOf error)
  | .getInfo className instanceName =>
      svcInstanceGetInfo className instanceName (spdLaunchPipeBufferSize - 1)
  | .getNameList => do
      let names ← svcInstanceGetNameList (spdLaunchPipeBufferSize - 1)
      pure (.ok names)
  | .quit => pure (.ok [])
  | .invalid => pure (.error errorInvalidParameter)

/-- An outcome in the buffer, and `*PSize`. -/
def encode (mem : Nat → UInt8) : Except UInt32 (List UInt16) → (Nat → UInt8) × Nat
  | .ok chars =>
      svcPipeTransactResult errorSuccess (store mem 2 (wcharBytes chars)) (chars.length * 2)
  | .error error => svcPipeTransactResult error mem (spdLaunchPipeBufferSize - 1)

/-- An error is one, and there is room for the characters. -/
def OutcomeFits : Except UInt32 (List UInt16) → Prop
  | .ok chars => chars.length * 2 ≤ spdLaunchPipeBufferSize - 1
  | .error error => error ≠ errorSuccess

theorem outcomeOf_fits : OutcomeFits (outcomeOf error) := by
  unfold outcomeOf
  split
  · exact Nat.zero_le _
  · next hne => exact hne

theorem LaunchRequest.outcome_fits {request : LaunchRequest} :
    (LaunchRequest.outcome request).Returns OutcomeFits := by
  cases request with
  | start className instanceName args => exact .any_bind fun error => .pure outcomeOf_fits
  | stop className instanceName forced => exact .any_bind fun error => .pure outcomeOf_fits
  | getInfo className instanceName =>
      refine Rules.Safe.mono svcInstanceGetInfo_returns fun r _ hr => ?_
      match r with
      | .ok info => exact hr.2 info rfl
      | .error error => exact hr.1 error rfl
  | getNameList => exact svcInstanceGetNameList_returns.bind fun names hnames => .pure hnames
  | quit => exact .pure (Nat.zero_le _)
  | invalid => exact .pure (by show errorInvalidParameter ≠ errorSuccess; decide)

theorem svcPipeTransactResult_error (hne : error ≠ errorSuccess) (n n' : Nat) :
    svcPipeTransactResult error mem n = svcPipeTransactResult error mem n' := by
  rw [svcPipeTransactResult, svcPipeTransactResult, if_neg hne, if_neg hne]

theorem encode_outcomeOf : encode mem (outcomeOf error) = svcPipeTransactResult error mem 0 := by
  unfold outcomeOf
  split
  · next hsuccess =>
      have hstore : store mem 2 (wcharBytes []) = mem := by
        funext i
        simp [store, wcharBytes]
      rw [encode, hstore, hsuccess]
      rfl
  · next hne => exact svcPipeTransactResult_error hne _ _

theorem svcPipeTransactAnswer_encode {request : LaunchRequest} :
    svcPipeTransactAnswer mem request = LaunchRequest.outcome request >>= fun outcome =>
      pure (encode mem outcome) := by
  cases request with
  | start className instanceName args =>
      rw [svcPipeTransactAnswer, LaunchRequest.outcome, Prog.bind_assoc]
      simp only [Prog.pure_eq, Prog.ret_bind, encode_outcomeOf]
  | stop className instanceName forced =>
      rw [svcPipeTransactAnswer, LaunchRequest.outcome, Prog.bind_assoc]
      simp only [Prog.pure_eq, Prog.ret_bind, encode_outcomeOf]
  | getInfo className instanceName =>
      rw [svcPipeTransactAnswer, LaunchRequest.outcome]
      congr 1
      funext r
      cases r <;> rfl
  | getNameList =>
      rw [svcPipeTransactAnswer, LaunchRequest.outcome, Prog.bind_assoc]
      rfl
  | quit => exact congrArg pure (@encode_outcomeOf mem errorSuccess).symm
  | invalid => exact congrArg pure (@encode_outcomeOf mem errorInvalidParameter).symm

/-! ## Outcomes as bytes -/

def replyChars : Except UInt32 (List UInt16) → List UInt16
  | .ok chars => spdLaunchCmdSuccess :: chars
  | .error error => spdLaunchCmdFailure :: decimalChars error.toInt32 ++ [0]

theorem replyBytes_of_holdsAt (h : HoldsAt mem 0 bytes) :
    replyBytes (mem, bytes.length) = bytes := by
  have hbytes := h.map_range
  simp only [Nat.zero_add] at hbytes
  exact hbytes

theorem replyBytes_encode {outcome : Except UInt32 (List UInt16)} (h : OutcomeFits outcome) :
    replyBytes (encode mem outcome) = wcharBytes (replyChars outcome) := by
  cases outcome with
  | ok chars =>
      have hlen : (wcharBytes (replyChars (.ok chars))).length = chars.length * 2 + 2 := by
        rw [length_wcharBytes, replyChars, List.length_cons]
        omega
      have hfront : (wcharBytes [spdLaunchCmdSuccess]).length = 2 := length_wcharBytes _
      have hholds : HoldsAt (store (store mem 2 (wcharBytes chars)) 0
          (wcharBytes [spdLaunchCmdSuccess])) 0 (wcharBytes (replyChars (.ok chars))) := by
        have hsplit : wcharBytes (replyChars (.ok chars)) =
            wcharBytes [spdLaunchCmdSuccess] ++ wcharBytes chars := by
          simp [wcharBytes, replyChars]
        rw [hsplit, holdsAt_append, hfront]
        -- the `$` is written in front of what is there
        exact ⟨holdsAt_store, holdsAt_store.congr fun i hi _ => store_of_le (by omega)⟩
      have hbytes := replyBytes_of_holdsAt hholds
      rw [hlen] at hbytes
      exact hbytes
  | error error =>
      have hne : error ≠ errorSuccess := h
      rw [encode, svcPipeTransactResult, if_neg hne]
      -- the length counts the NUL that `wsprintfW` writes
      have hlen : (wcharBytes (replyChars (.error error))).length =
          ((spdLaunchCmdFailure :: decimalChars error.toInt32).length + 1) * 2 := by
        rw [length_wcharBytes, replyChars, List.length_append, List.length_singleton]
      have hbytes := replyBytes_of_holdsAt (@holdsAt_store _ mem 0
        (wcharBytes (replyChars (.error error))))
      rw [hlen] at hbytes
      exact hbytes

theorem toInt_toInt32_of_lt (h : error.toNat < 2 ^ 31) : error.toInt32.toInt = error.toNat := by
  have hbits : error.toInt32.toInt = error.toBitVec.toInt := rfl
  have htoNat : error.toBitVec.toNat = error.toNat := rfl
  rw [hbits, BitVec.toInt_eq_toNat_cond, htoNat, if_pos (by omega)]

theorem toInt_toInt32_of_le (h : 2 ^ 31 ≤ error.toNat) : error.toInt32.toInt < 0 := by
  have hlt := error.toNat_lt
  have hbits : error.toInt32.toInt = error.toBitVec.toInt := rfl
  have htoNat : error.toBitVec.toNat = error.toNat := rfl
  rw [hbits, BitVec.toInt_eq_toNat_cond, htoNat, if_neg (by omega)]
  omega

theorem leadingValue_decimalChars (h : error.toNat < 2 ^ 31) :
    leadingValue 0 ((decimalChars error.toInt32 ++ [0]).map UInt16.toNat) = error.toNat := by
  have hint := toInt_toInt32_of_lt h
  have hno : ¬ error.toInt32 < 0 := by
    rw [Int32.lt_iff_toInt_lt, hint]
    simp
  have habs : error.toInt32.toInt.natAbs = error.toNat := by omega
  have hcodes : ((Nat.toDigits 10 error.toNat).map fun c => UInt16.ofNat c.toNat).map UInt16.toNat =
      (Nat.toDigits 10 error.toNat).map Char.toNat := by
    rw [List.map_map]
    refine List.map_congr_left fun c hc => ?_
    have hdigit := isDigit_toNat (Nat.isDigit_of_mem_toDigits (by decide) (by decide) hc)
    have hle := hdigit.2
    simp only [Function.comp_apply, UInt16.toNat_ofNat']
    omega
  unfold decimalChars
  simp only [habs, if_neg hno]
  rw [List.map_append, hcodes]
  exact leadingValue_toDigits fun c hc => by
    cases hc
    decide

theorem head_decimalChars (h : 2 ^ 31 ≤ error.toNat) :
    (decimalChars error.toInt32).head? = some 0x2d := by
  have hneg : error.toInt32 < 0 := by
    rw [Int32.lt_iff_toInt_lt]
    exact toInt_toInt32_of_le h
  unfold decimalChars
  simp only [if_pos hneg, List.head?_cons]

/-! ## Both sides -/

/-- The client has the outcome: the error, or the characters it has room for and
how many bytes there were. -/
def CallDelivered (outcome : Except UInt32 (List UInt16)) (buffer : List UInt8)
    (size : Option UInt32) (call : Option LaunchCall) : Prop :=
  ∃ r, call = some r ∧ r.error = errorSuccess ∧
    match outcome with
    | .error error => r.launcherError = error
    | .ok chars => r.launcherError = 0 ∧ ∀ n, size = some n →
        r.size = some (UInt32.ofNat (chars.length * 2)) ∧
        r.buffer = (wcharBytes chars).take n.toNat ++
          buffer.drop (min n.toNat (chars.length * 2))

theorem callDelivered_iff {outcome : Except UInt32 (List UInt16)} (hfits : OutcomeFits outcome)
    (hroom : ∀ n, size = some n → n.toNat ≤ buffer.length) :
    CallDelivered outcome buffer size
        (spdLaunchReceive (replyBytes (encode mem outcome)) buffer size) ↔
      ∀ error, outcome = .error error → error.toNat < 2 ^ 31 := by
  rw [replyBytes_encode hfits]
  cases outcome with
  | ok chars =>
      have hshort : chars.length * 2 ≤ 4095 := hfits
      have hlen : (wcharBytes (replyChars (.ok chars))).length = chars.length * 2 + 2 := by
        rw [length_wcharBytes, replyChars, List.length_cons]
        omega
      have hdrop : (wcharBytes (replyChars (.ok chars))).drop 2 = wcharBytes chars := by
        simp [wcharBytes, replyChars, toLe]
      have hcall := @spdLaunchReceive_success _ buffer chars size
        (@wideChars_wcharBytes (replyChars (.ok chars))) (by omega) hroom
      rw [hdrop, hlen, Nat.add_sub_cancel] at hcall
      refine iff_of_true ⟨_, hcall, rfl, rfl, fun n hn => ?_⟩ (by simp)
      subst hn
      exact ⟨rfl, rfl⟩
  | error error =>
      have hne : error ≠ errorSuccess := hfits
      have hwide := @wideChars_wcharBytes (replyChars (.error error))
      by_cases hsign : error.toNat < 2 ^ 31
      · have hcall := @spdLaunchReceive_failure _ buffer
          (decimalChars error.toInt32 ++ [0]) size hwide
        rw [leadingValue_decimalChars hsign, UInt32.ofNat_toNat,
          if_neg (show ¬ 0 = error from Ne.symm hne)] at hcall
        refine iff_of_true ⟨_, hcall, rfl, rfl⟩ ?_
        intro error' h
        cases h
        exact hsign
      · have hnot : NotReply (replyChars (.error error)) := by
          refine @NotReply.noDigits (decimalChars error.toInt32 ++ [0]) fun c hc => ?_
          rw [List.head?_append, head_decimalChars (by omega)] at hc
          cases hc
          decide
        have hcall := @spdLaunchReceive_notReply _ buffer size (by rw [hwide]; exact hnot)
        refine iff_of_false ?_ fun h => hsign (h error rfl)
        rintro ⟨r, hr, -, hcode⟩
        rw [hcall] at hr
        cases hr
        -- the error of a broken pipe has no sign
        have hcode : errorBrokenPipe = error := hcode
        rw [← hcode] at hsign
        exact hsign (by decide)

/-- What a request comes to is what the launcher replies, and every outcome gets
to the client, but for errors with a sign. Anything but a reply is a broken
pipe, digits behind a `!` are the error whatever is behind them, and of whatever
comes the client reads no more than that. -/
theorem launcher_reply (mem : Nat → UInt8) (buffer : List UInt8) (size : Option UInt32) :
    (∀ (debug : Bool) (room : Nat), 2 ≤ room →
      svcPipeTransact debug mem room =
        LaunchRequest.outcome (svcPipeTransactRequest debug (wchars mem) (room / 2)).2 >>=
          fun outcome => pure ⟨(encode mem outcome).1, (encode mem outcome).2,
            (svcPipeTransactRequest debug (wchars mem) (room / 2)).1⟩) ∧
    (∀ request, (LaunchRequest.outcome request).Returns OutcomeFits) ∧
    (∀ (outcome : Except UInt32 (List UInt16)) (message : List UInt8)
        (transact : List UInt8 → Except UInt32 (List UInt8)) (command : UInt16)
        (args : List LaunchArg),
      OutcomeFits outcome → spdLaunchCallLauncherPipe command args = some (.ok message) →
      transact message = .ok (replyBytes (encode mem outcome)) →
      (∀ n, size = some n → n.toNat ≤ buffer.length) →
      (CallDelivered outcome buffer size (spdLaunchCall true transact command args buffer size) ↔
        ∀ error, outcome = .error error → error.toNat < 2 ^ 31)) ∧
    (∀ received, NotReply (wideChars received) →
      spdLaunchReceive received buffer size =
        some ⟨errorSuccess, errorBrokenPipe, buffer, size⟩) ∧
    (∀ received chars, wideChars received = spdLaunchCmdFailure :: chars →
      spdLaunchReceive received buffer size = some ⟨errorSuccess,
        if 0 = UInt32.ofNat (leadingValue 0 (chars.map UInt16.toNat)) then errorBrokenPipe
        else UInt32.ofNat (leadingValue 0 (chars.map UInt16.toNat)), buffer, size⟩) ∧
    ∀ received : List UInt8, received.length < 2 ^ 32 →
      (∀ n, size = some n → n.toNat ≤ buffer.length) →
      (spdLaunchReceive received buffer size).isSome := by
  refine ⟨fun debug room hroom => ?_, fun request => LaunchRequest.outcome_fits, ?_,
    fun received => spdLaunchReceive_notReply, fun received chars => spdLaunchReceive_failure,
    fun received => spdLaunchReceive_isSome⟩
  · have hno : ¬ room < 2 := by omega
    rw [svcPipeTransact, if_neg hno]
    dsimp only
    rw [svcPipeTransactAnswer_encode]
    simp only [Prog.bind_assoc, Prog.pure_eq, Prog.ret_bind]
  · intro outcome message transact command args hfits hmessage htransact hroom
    have hcall : spdLaunchCall true transact command args buffer size =
        spdLaunchReceive (replyBytes (encode mem outcome)) buffer size := by
      simp [spdLaunchCall, hmessage, htransact]
    rw [hcall]
    exact callDelivered_iff hfits hroom

/-- The start of an instance that is there already. -/
theorem launcher_reply_exists :
    CallDelivered (.error errorAlreadyExists) [] none
      (spdLaunchCall true
        (fun _ => .ok (replyBytes (encode (fun _ => 0) (.error errorAlreadyExists))))
        LaunchCommand.start.char (launchArgs [some [0x61, 0], some [0x62, 0]]) [] none) := by
  have hfits : OutcomeFits (.error errorAlreadyExists) := by
    show errorAlreadyExists ≠ errorSuccess
    decide
  have hmessage : spdLaunchCallLauncherPipe LaunchCommand.start.char
      (launchArgs [some [0x61, 0], some [0x62, 0]]) =
        some (.ok (wcharBytes [0x53, 0x61, 0, 0x62, 0])) := rfl
  refine ((launcher_reply (fun _ => 0) [] none).2.2.1 (.error errorAlreadyExists) _ _ _ _ hfits
    hmessage rfl (by simp)).mpr ?_
  intro error h
  cases h
  decide

/-- An `HRESULT`, "access denied". -/
def hresultAccessDenied : UInt32 := 0x80070005

theorem launcher_reply_signed :
    ¬∀ (outcome : Except UInt32 (List UInt16)) (mem : Nat → UInt8) (buffer : List UInt8)
      (size : Option UInt32), OutcomeFits outcome →
      (∀ n, size = some n → n.toNat ≤ buffer.length) →
      CallDelivered outcome buffer size
        (spdLaunchReceive (replyBytes (encode mem outcome)) buffer size) := by
  intro hall
  have hfits : OutcomeFits (.error hresultAccessDenied) := by
    show hresultAccessDenied ≠ errorSuccess
    decide
  have hdelivered := hall (.error hresultAccessDenied) (fun _ => 0) [] none hfits (by simp)
  exact absurd ((callDelivered_iff hfits (by simp)).mp hdelivered hresultAccessDenied rfl)
    (by decide)

end Winspd.Proofs
