import Winspd.Launcher.Pipe

/-!
# The messages of the launcher's pipe

The client's side and the launcher's side take strings apart by different
rules: the client counts, and the launcher looks for a NUL and for the end of
the message. The two agree on the messages of the client: a command and the
strings that were passed, as far as they fit the buffer, are what the launcher
takes from the buffer that the message was read to.

Anybody may write to the pipe. Of a message with any bytes the launcher reads
only what is there, and its reply fits the buffer. A `PipeScan` is `Inside` when
nothing behind the message was read and every part ends in a NUL of the message,
and every part that is looked for keeps it so.
-/

namespace Winspd.Proofs

open Winspd.Lib Winspd.Shared Winspd.Launcher

/-! ## The client -/

/-- The string is passed in this entry: with a NUL at its end and no length, or
with its length. -/
def LaunchArg.Passes (arg : LaunchArg) (s : WString) : Prop :=
  ∃ memory, arg.memory = some memory ∧
    (arg.length = -1 ∧ s.terminated <+: memory ∨
      arg.length ≠ -1 ∧ arg.length.toNat = s.length ∧ s.chars <+: memory)

def launchChars (command : UInt16) (strings : List WString) : List UInt16 :=
  command :: strings.flatMap WString.terminated

theorem length_terminated (s : WString) : s.terminated.length = s.length + 1 := by
  rw [WString.terminated, List.length_append]
  rfl

theorem lstrlenW_terminated {s : WString} {memory : List UInt16} (h : s.terminated <+: memory) :
    lstrlenW memory = some (UInt32.ofNat s.length) := by
  obtain ⟨rest, rfl⟩ := h
  have hfront : s.chars.findIdx? (fun c => decide (c = 0)) = none := by
    rw [List.findIdx?_eq_none_iff]
    intro c hc
    exact decide_eq_false fun h0 => s.noNul (h0 ▸ hc)
  have hidx : (s.chars ++ ([0] ++ rest)).findIdx? (fun c => decide (c = 0)) = some s.length := by
    rw [List.findIdx?_append, hfront, Option.none_or, List.singleton_append,
      List.findIdx?_cons, if_pos (by decide), Option.map_some, Nat.zero_add]
    rfl
  rw [lstrlenW, WString.terminated, List.append_assoc, hidx]
  rfl

theorem readAt_prefix {α : Type*} {xs ys : List α} (h : xs <+: ys) :
    readAt ys 0 xs.length = some xs := by
  obtain ⟨rest, rfl⟩ := h
  rw [readAt_eq_some, List.drop_zero]
  refine ⟨?_, List.take_left' rfl⟩
  rw [List.length_append]
  omega

/-- What `Length` is, for a string that is passed. -/
theorem LaunchArg.Passes.length {arg : LaunchArg} {s : WString} {memory : List UInt16}
    (h : LaunchArg.Passes arg s) (hmem : arg.memory = some memory)
    (hlt : s.length < UInt32.size) :
    ∃ length : UInt32, arg.copied memory = some length ∧ length.toNat = s.length ∧
      s.chars <+: memory := by
  unfold LaunchArg.copied
  obtain ⟨memory', hmem', hcase⟩ := h
  obtain rfl : memory = memory' := Option.some_inj.mp (hmem.symm.trans hmem')
  rcases hcase with ⟨hnone, hprefix⟩ | ⟨hsome, hlen, hprefix⟩
  · refine ⟨UInt32.ofNat s.length, ?_, UInt32.toNat_ofNat_of_lt hlt, ?_⟩
    · rw [if_pos hnone, lstrlenW_terminated hprefix]
    · exact (List.prefix_append _ _).trans hprefix
  · exact ⟨arg.length, if_neg hsome, hlen, hprefix⟩

/-- One string that is passed: it is written, or there is no room for it. -/
theorem spdLaunchPut_cons {arg : LaunchArg} {s : WString} {args : List LaunchArg}
    {pipeBuf : List UInt16} (harg : LaunchArg.Passes arg s) (hlt : s.length < 2 ^ 31)
    (hbuf : pipeBuf.length * 2 ≤ spdLaunchPipeBufferSize) :
    spdLaunchPut pipeBuf (arg :: args) =
      if spdLaunchPipeBufferSize < (pipeBuf.length + s.terminated.length) * 2 then
        some (.error errorInvalidParameter)
      else spdLaunchPut (pipeBuf ++ s.terminated) args := by
  rw [spdLaunchPipeBufferSize] at hbuf
  have hsize : s.length < UInt32.size := by
    rw [UInt32.size]
    omega
  obtain ⟨memory, hmem, -⟩ := id harg
  obtain ⟨length, hlength, htoNat, hprefix⟩ := harg.length hmem hsize
  have hsum : (UInt32.ofNat pipeBuf.length + length + 1).toNat =
      pipeBuf.length + (s.length + 1) := by
    rw [UInt32.toNat_add, UInt32.toNat_add, UInt32.toNat_ofNat', htoNat, UInt32.toNat_one]
    omega
  have hread : readAt memory 0 length.toNat = some s.chars := by
    rw [htoNat]
    exact readAt_prefix hprefix
  have hchars : pipeBuf.length + s.chars.length + 1 = pipeBuf.length + (s.length + 1) := rfl
  simp only [spdLaunchPut, hmem, hlength, Option.bind_eq_bind, Option.bind_some, hsum, hread,
    length_terminated]
  split
  · rfl
  · next hfits =>
      rw [hchars, if_neg hfits, WString.terminated, List.append_assoc]

theorem spdLaunchPut_passes {args : List LaunchArg} {strings : List WString}
    {pipeBuf : List UInt16} (h : List.Forall₂ LaunchArg.Passes args strings)
    (hfit : (pipeBuf.length + (strings.flatMap WString.terminated).length) * 2 ≤
      spdLaunchPipeBufferSize) :
    spdLaunchPut pipeBuf args =
      some (.ok (pipeBuf ++ strings.flatMap WString.terminated)) := by
  induction h generalizing pipeBuf with
  | nil => rw [spdLaunchPut, List.flatMap_nil, List.append_nil]
  | @cons arg s args strings harg _ ih =>
      have hlen := length_terminated s
      rw [List.flatMap_cons, List.length_append] at hfit
      rw [spdLaunchPipeBufferSize] at hfit ih
      rw [spdLaunchPut_cons harg (by omega) (by rw [spdLaunchPipeBufferSize]; omega),
        if_neg (by rw [spdLaunchPipeBufferSize]; omega),
        ih (by rw [List.length_append]; omega), List.flatMap_cons, List.append_assoc]

theorem spdLaunchCallLauncherPipe_passes {command : UInt16} {args : List LaunchArg}
    {strings : List WString} (h : List.Forall₂ LaunchArg.Passes args strings)
    (hfit : (launchChars command strings).length * 2 ≤ spdLaunchPipeBufferSize) :
    spdLaunchCallLauncherPipe command args =
      some (.ok (wcharBytes (launchChars command strings))) := by
  have hput : spdLaunchPut [command] args =
      some (.ok ([command] ++ strings.flatMap WString.terminated)) := by
    refine spdLaunchPut_passes h ?_
    rwa [launchChars, List.length_cons, Nat.add_comm] at hfit
  rw [spdLaunchCallLauncherPipe, hput]
  rfl

theorem spdLaunch_messages {className instanceName : Option (List UInt16)}
    {argv : List (Option (List UInt16))} {x y : WString} {args : List WString}
    (hnames : List.Forall₂ LaunchArg.Passes (launchArgs [className, instanceName]) [x, y])
    (hargs : List.Forall₂ LaunchArg.Passes (launchArgs argv) args) (hlen : argv.length ≤ 9)
    (hfit : (launchChars LaunchCommand.start.char (x :: y :: args)).length * 2 ≤
      spdLaunchPipeBufferSize) :
    spdLaunchStart className instanceName argv =
        some (.ok (wcharBytes (launchChars LaunchCommand.start.char (x :: y :: args)))) ∧
      spdLaunchStop className instanceName =
        some (.ok (wcharBytes (launchChars LaunchCommand.stop.char [x, y]))) ∧
      spdLaunchGetInfo className instanceName =
        some (.ok (wcharBytes (launchChars LaunchCommand.getInfo.char [x, y]))) ∧
      spdLaunchGetNameList =
        some (.ok (wcharBytes (launchChars LaunchCommand.getNameList.char []))) := by
  have hfit' :
      ∀ command, (launchChars command [x, y]).length * 2 ≤ spdLaunchPipeBufferSize := by
    intro command
    simp only [launchChars, List.flatMap_cons, List.flatMap_nil, List.length_cons,
      List.length_append, List.length_nil] at hfit ⊢
    omega
  refine ⟨?_, spdLaunchCallLauncherPipe_passes hnames (hfit' _),
    spdLaunchCallLauncherPipe_passes hnames (hfit' _),
    spdLaunchCallLauncherPipe_passes .nil (by decide)⟩
  obtain ⟨hx, hy⟩ := List.forall₂_cons.mp hnames
  obtain ⟨hy, -⟩ := List.forall₂_cons.mp hy
  rw [spdLaunchStart, if_neg (by omega)]
  exact spdLaunchCallLauncherPipe_passes (.cons hx (.cons hy hargs)) hfit

/-! ## The buffer -/

theorem length_wcharBytes (chars : List UInt16) : (wcharBytes chars).length = chars.length * 2 := by
  induction chars with
  | nil => rfl
  | cons c chars ih =>
      rw [wcharBytes, List.flatMap_cons, List.length_append, length_toLe, ← wcharBytes, ih,
        List.length_cons]
      omega

theorem ofNat_ofLe_toLe (c : UInt16) : UInt16.ofNat (ofLe (toLe 2 c.toNat)) = c := by
  have hlt : c.toNat < 256 ^ 2 := Nat.lt_of_lt_of_le c.toNat_lt (by decide)
  rw [ofLe_toLe, Nat.mod_eq_of_lt hlt, UInt16.ofNat_toNat]

theorem holdsAt_wchars {mem : Nat → UInt8} {p : Nat} {chars : List UInt16}
    (h : HoldsAt mem (2 * p) (wcharBytes chars)) : HoldsAt (wchars mem) p chars := by
  induction chars generalizing p with
  | nil => trivial
  | cons c chars ih =>
      rw [wcharBytes, List.flatMap_cons, holdsAt_append, length_toLe] at h
      obtain ⟨⟨hlow, hhigh, -⟩, htail⟩ := h
      refine ⟨?_, ih htail⟩
      rw [wchars, hlow, hhigh]
      exact ofNat_ofLe_toLe c

theorem svcPipeRead_eq_some {message : List UInt8} {mem mem' : Nat → UInt8} {size : Nat} :
    svcPipeRead message mem = some (mem', size) ↔
      message.length ≤ spdLaunchPipeBufferSize ∧ store mem 0 message = mem' ∧
        message.length = size := by
  unfold svcPipeRead
  split
  · next h => simp [h]
  · next h => simp [h]

/-! ## What the launcher takes from a message -/

section Parts

variable {pipeBuf : Nat → UInt16} {pipeBufEnd : Nat} {s : PipeScan}

theorem svcPipeTransactGetPart_holds {x : WString} (h : HoldsAt pipeBuf s.p x.terminated)
    (hend : s.p + x.length < pipeBufEnd) :
    (svcPipeTransactGetPart pipeBuf pipeBufEnd s).2 = some x ∧
      (svcPipeTransactGetPart pipeBuf pipeBufEnd s).1.p = s.p + x.length + 1 := by
  have hlt : x.chars.length < pipeBufEnd - s.p := by
    have hx : x.chars.length = x.length := rfl
    omega
  have hscan := scanTo_terminated h x.noNul hlt
  have hpart :
      (⟨(scanTo 0 pipeBuf (pipeBufEnd - s.p) s.p).1, sep_not_mem_scanTo⟩ : WString) = x :=
    WString.mk.injEq .. ▸ hscan
  unfold svcPipeTransactGetPart
  simp only [hpart, if_pos hend, and_self]

theorem svcPipeTransactGetPart_end (h : s.p = pipeBufEnd) :
    (svcPipeTransactGetPart pipeBuf pipeBufEnd s).2 = none ∧
      (svcPipeTransactGetPart pipeBuf pipeBufEnd s).1.p = pipeBufEnd := by
  unfold svcPipeTransactGetPart
  simp [h, scanTo, WString.length]

theorem svcPipeTransactGetArgs_holds {args : List WString} {n : Nat}
    (h : HoldsAt pipeBuf s.p (args.flatMap WString.terminated))
    (hend : s.p + (args.flatMap WString.terminated).length = pipeBufEnd) (hn : args.length ≤ n) :
    (svcPipeTransactGetArgs pipeBuf pipeBufEnd n s).2 = args := by
  induction args generalizing n s with
  | nil =>
      cases n with
      | zero => rfl
      | succ n =>
          have hnone : (svcPipeTransactGetPart pipeBuf pipeBufEnd s).2 = none :=
            (svcPipeTransactGetPart_end hend).1
          rw [svcPipeTransactGetArgs]
          split
          · rfl
          · next heq =>
              rw [heq] at hnone
              cases hnone
  | cons x args ih =>
      cases n with
      | zero => cases hn
      | succ n =>
          have hx := length_terminated x
          rw [List.flatMap_cons, holdsAt_append, hx] at h
          rw [List.flatMap_cons, List.length_append, hx] at hend
          have hlt : s.p + x.length < pipeBufEnd := by omega
          obtain ⟨hpart, hp⟩ := svcPipeTransactGetPart_holds h.1 hlt
          rw [svcPipeTransactGetArgs]
          split
          · next heq =>
              rw [heq] at hpart
              cases hpart
          · next s' arg heq =>
              rw [heq] at hpart hp
              obtain rfl : arg = x := Option.some_inj.mp hpart
              have hp' : s'.p = s.p + (arg.length + 1) := hp
              refine congrArg (arg :: ·) (ih ?_ ?_ (Nat.le_of_succ_le_succ hn))
              · rw [hp']
                exact h.2
              · omega

/-- `ClassName` and `InstanceName`, and what is behind them. -/
theorem svcPipeTransactGetPart_names {strings : List WString}
    (h : HoldsAt pipeBuf s.p (strings.flatMap WString.terminated))
    (hend : s.p + (strings.flatMap WString.terminated).length = pipeBufEnd) :
    let className := svcPipeTransactGetPart pipeBuf pipeBufEnd s
    let instanceName := svcPipeTransactGetPart pipeBuf pipeBufEnd className.1
    (strings.length < 2 ∧ ∀ f, LaunchRequest.named className.2 instanceName.2 f = .invalid) ∨
      ∃ x y args, strings = x :: y :: args ∧
        (∀ f, LaunchRequest.named className.2 instanceName.2 f = f x y) ∧
        HoldsAt pipeBuf instanceName.1.p (args.flatMap WString.terminated) ∧
        instanceName.1.p + (args.flatMap WString.terminated).length = pipeBufEnd := by
  intro className instanceName
  match strings with
  | [] =>
      have hnone : className.2 = none := (svcPipeTransactGetPart_end hend).1
      refine .inl ⟨by decide, fun f => ?_⟩
      rw [hnone]
      rfl
  | [x] =>
      rw [List.flatMap_cons, List.flatMap_nil, List.append_nil] at h hend
      rw [length_terminated] at hend
      have hlt : s.p + x.length < pipeBufEnd := by omega
      obtain ⟨hx, hp⟩ := svcPipeTransactGetPart_holds h hlt
      have hnone : instanceName.2 = none :=
        (svcPipeTransactGetPart_end (hp.trans (by omega))).1
      refine .inl ⟨Nat.one_lt_two, fun f => ?_⟩
      rw [hnone]
      unfold LaunchRequest.named
      split
      · next heq => cases heq
      · rfl
  | x :: y :: args =>
      rw [List.flatMap_cons, List.flatMap_cons, holdsAt_append, holdsAt_append,
        length_terminated, length_terminated] at h
      rw [List.flatMap_cons, List.flatMap_cons, List.length_append, List.length_append,
        length_terminated, length_terminated] at hend
      have hltx : s.p + x.length < pipeBufEnd := by omega
      obtain ⟨hx, hpx⟩ := svcPipeTransactGetPart_holds h.1 hltx
      have hplace : className.1.p = s.p + (x.length + 1) := hpx
      have hy : HoldsAt pipeBuf className.1.p y.terminated := by
        rw [hplace]
        exact h.2.1
      have hlty : className.1.p + y.length < pipeBufEnd := by omega
      obtain ⟨hy, hpy⟩ := svcPipeTransactGetPart_holds hy hlty
      have hplace' : instanceName.1.p = s.p + (x.length + 1) + (y.length + 1) := by
        rw [← hplace]
        exact hpy
      refine .inr ⟨x, y, args, rfl, fun f => ?_, ?_, by omega⟩
      · have hx' : className.2 = some x := hx
        have hy' : instanceName.2 = some y := hy
        rw [hx', hy']
        rfl
      · rw [hplace']
        exact h.2.2

end Parts

/-- What a command asks for with these strings. -/
def LaunchCommand.request (debug : Bool) : LaunchCommand → List WString → LaunchRequest
  | .start, className :: instanceName :: args => .start className instanceName args
  | .stop, className :: instanceName :: _ => .stop className instanceName false
  | .stopForced, className :: instanceName :: _ => .stop className instanceName true
  | .getInfo, className :: instanceName :: _ => .getInfo className instanceName
  | .getNameList, _ => .getNameList
  | .quit, _ => if debug then .quit else .invalid
  | _, _ => .invalid

theorem LaunchCommand.request_short {debug : Bool} {command : LaunchCommand}
    {strings : List WString} (h : strings.length < 2)
    (hnames : command ∈ [.start, .stop, .stopForced, .getInfo]) :
    LaunchCommand.request debug command strings = .invalid := by
  match strings with
  | [] | [_] =>
      simp only [List.mem_cons, List.not_mem_nil, or_false] at hnames
      rcases hnames with rfl | rfl | rfl | rfl <;> rfl
  | _ :: _ :: _ =>
      simp only [List.length_cons] at h
      omega

theorem ofChar_char (command : LaunchCommand) :
    LaunchCommand.ofChar command.char = some command := by
  cases command <;> rfl

/-- The launcher takes from the buffer what the client has put in its message. -/
theorem svcPipeTransactRequest_holds {debug : Bool} {pipeBuf : Nat → UInt16}
    {command : LaunchCommand} {strings : List WString}
    (h : HoldsAt pipeBuf 0 (launchChars command.char strings)) (hargs : strings.length ≤ 2 + 9) :
    (svcPipeTransactRequest debug pipeBuf (launchChars command.char strings).length).2 =
      LaunchCommand.request debug command strings := by
  have hfirst : pipeBuf 0 = command.char := h.1
  have hend : 1 + (strings.flatMap WString.terminated).length =
      (launchChars command.char strings).length := by
    rw [launchChars, List.length_cons]
    omega
  have hnames := svcPipeTransactGetPart_names (s := ⟨1, [0], []⟩) h.2 hend
  unfold svcPipeTransactRequest
  rw [hfirst, ofChar_char]
  cases command with
  | getNameList | quit => rfl
  | start =>
      rcases hnames with ⟨hshort, hinvalid⟩ | ⟨x, y, args, rfl, hnamed, hholds, hrest⟩
      · exact (hinvalid _).trans (LaunchCommand.request_short hshort (by decide)).symm
      · have hlen : args.length ≤ 9 := by
          simp only [List.length_cons] at hargs
          omega
        refine (hnamed _).trans ?_
        exact congrArg (LaunchRequest.start x y) (svcPipeTransactGetArgs_holds hholds hrest hlen)
  | stop | stopForced | getInfo =>
      rcases hnames with ⟨hshort, hinvalid⟩ | ⟨x, y, args, rfl, hnamed, -⟩
      · exact (hinvalid _).trans (LaunchCommand.request_short hshort (by decide)).symm
      · exact hnamed _

/-! ## Any message -/

/-- Nothing behind the message was read, and the parts end in front of its end. -/
structure ScanInside (pipeBuf : Nat → UInt16) (pipeBufEnd : Nat) (s : PipeScan) : Prop where
  next : s.p ≤ pipeBufEnd
  reads : ∀ i ∈ s.reads, i < pipeBufEnd
  parts : ∀ part ∈ s.parts, part.1 + part.2.length < pipeBufEnd ∧
    HoldsAt pipeBuf part.1 part.2.terminated

section Inside

variable {pipeBuf : Nat → UInt16} {pipeBufEnd : Nat} {s : PipeScan}

theorem ScanInside.getPart (h : ScanInside pipeBuf pipeBufEnd s) :
    ScanInside pipeBuf pipeBufEnd (svcPipeTransactGetPart pipeBuf pipeBufEnd s).1 := by
  have hnext := h.next
  have hlen := @length_scanTo _ _ 0 pipeBuf (pipeBufEnd - s.p) s.p
  have hreads : ∀ i ∈ s.reads ++ (scanTo 0 pipeBuf (pipeBufEnd - s.p) s.p).2,
      i < pipeBufEnd := by
    intro i hi
    rcases List.mem_append.mp hi with hi | hi
    · exact h.reads i hi
    · have hlt := mem_reads_scanTo hi
      omega
  unfold svcPipeTransactGetPart
  dsimp only [WString.length]
  split
  · next hlt =>
      refine ⟨hlt, hreads, fun part hpart => ?_⟩
      rcases List.mem_append.mp hpart with hpart | hpart
      · exact h.parts part hpart
      · obtain rfl := List.mem_singleton.mp hpart
        have hfound : (scanTo 0 pipeBuf (pipeBufEnd - s.p) s.p).1.length < pipeBufEnd - s.p := by
          omega
        exact ⟨hlt, holdsAt_scanTo hfound⟩
  · exact ⟨by dsimp only; omega, hreads, h.parts⟩

/-- A part that is returned is one of those that were found. -/
theorem svcPipeTransactGetPart_mem {x : WString}
    (h : (svcPipeTransactGetPart pipeBuf pipeBufEnd s).2 = some x) :
    (s.p, x) ∈ (svcPipeTransactGetPart pipeBuf pipeBufEnd s).1.parts := by
  unfold svcPipeTransactGetPart at h ⊢
  dsimp only at h ⊢
  split
  · next hlt =>
      rw [if_pos hlt] at h
      cases h
      exact List.mem_append_right _ (List.mem_singleton.mpr rfl)
  · next hlt =>
      rw [if_neg hlt] at h
      cases h

theorem ScanInside.getArgs {n : Nat} (h : ScanInside pipeBuf pipeBufEnd s) :
    ScanInside pipeBuf pipeBufEnd (svcPipeTransactGetArgs pipeBuf pipeBufEnd n s).1 := by
  induction n generalizing s with
  | zero => exact h
  | succ n ih =>
      have hpart := h.getPart
      rw [svcPipeTransactGetArgs]
      split
      · next heq =>
          rw [heq] at hpart
          exact hpart
      · next heq =>
          rw [heq] at hpart
          exact ih hpart

theorem scanInside_request {debug : Bool} (h : 1 ≤ pipeBufEnd) :
    ScanInside pipeBuf pipeBufEnd (svcPipeTransactRequest debug pipeBuf pipeBufEnd).1 := by
  have hstart : ScanInside pipeBuf pipeBufEnd ⟨1, [0], []⟩ := by
    refine ⟨h, fun i hi => ?_, fun part hpart => by cases hpart⟩
    obtain rfl := List.mem_singleton.mp hi
    exact h
  unfold svcPipeTransactRequest
  dsimp only
  split
  · exact hstart.getPart.getPart.getArgs
  · exact hstart.getPart.getPart
  · exact hstart.getPart.getPart
  · exact hstart.getPart.getPart
  · exact hstart
  · exact hstart
  · exact hstart

end Inside

/-! ## The reply -/

/-- The buffer with the reply is as large as it was, and so is the reply at
most. -/
def ReplyFits (mem : Nat → UInt8) (reply : (Nat → UInt8) × Nat) : Prop :=
  reply.2 ≤ spdLaunchPipeBufferSize ∧ ∀ i, spdLaunchPipeBufferSize ≤ i → reply.1 i = mem i

theorem length_decimalChars (x : Int32) : (decimalChars x).length ≤ 11 := by
  have hmin := Int32.le_toInt x
  have hmax := Int32.toInt_lt x
  have hdigits : (Nat.toDigits 10 x.toInt.natAbs).length ≤ 10 :=
    Nat.toDigits_length 10 _ 10 (by decide) (by omega)
  unfold decimalChars
  dsimp only
  split
  · rw [List.length_cons, List.length_map]
    omega
  · rw [List.length_map]
    omega

theorem svcPipeTransactResult_fits {error : UInt32} {mem : Nat → UInt8} {size : Nat}
    (h : error = errorSuccess → size + 2 ≤ spdLaunchPipeBufferSize) :
    ReplyFits mem (svcPipeTransactResult error mem size) := by
  unfold svcPipeTransactResult
  split
  · next hsuccess =>
      refine ⟨h hsuccess, fun i hi => ?_⟩
      dsimp only
      rw [spdLaunchPipeBufferSize] at hi
      refine store_of_le ?_
      rw [length_wcharBytes, List.length_singleton]
      omega
  · have hlen := length_decimalChars error.toInt32
    refine ⟨?_, fun i hi => ?_⟩
    · dsimp only
      rw [List.length_cons, spdLaunchPipeBufferSize]
      omega
    · dsimp only
      rw [spdLaunchPipeBufferSize] at hi
      refine store_of_le ?_
      rw [length_wcharBytes, List.length_append, List.length_cons, List.length_singleton]
      omega

/-- A reply with characters behind the `$`. -/
theorem svcPipeTransactResult_chars {mem : Nat → UInt8} {chars : List UInt16}
    (h : chars.length * 2 ≤ spdLaunchPipeBufferSize - 1) :
    ReplyFits mem (svcPipeTransactResult errorSuccess (store mem 2 (wcharBytes chars))
      (chars.length * 2)) := by
  rw [spdLaunchPipeBufferSize] at h
  obtain ⟨hsize, hmem⟩ := @svcPipeTransactResult_fits errorSuccess
    (store mem 2 (wcharBytes chars)) (chars.length * 2) (fun _ => by
      rw [spdLaunchPipeBufferSize]
      omega)
  refine ⟨hsize, fun i hi => (hmem i hi).trans (store_of_le ?_)⟩
  rw [spdLaunchPipeBufferSize] at hi
  rw [length_wcharBytes]
  omega

theorem withInstance_returns {α : Type} {className instanceName : WString} {missing : α}
    {found : Nat → LauncherProg α} {Q : α → Prop} (hmissing : Q missing)
    (hfound : ∀ id, (found id).Returns Q) :
    (withInstance className instanceName missing found).Returns Q := by
  refine .any_bind fun _ => .any_bind fun r => ?_
  match r with
  | none => exact .any_bind fun _ => .pure hmissing
  | some id => exact (hfound id).bind fun x hx => .any_bind fun _ => .pure hx

/-- What is returned fits, or there is an error: the size is not that of a reply
then. -/
theorem svcInstanceGetInfo_returns {className instanceName : WString} {size : Nat} :
    (svcInstanceGetInfo className instanceName size).Returns fun r =>
      (∀ error, r = .error error → error ≠ errorSuccess) ∧
        ∀ info, r = .ok info → info.length * 2 ≤ size := by
  have herror : ∀ error, error ≠ errorSuccess →
      (∀ e, (.error error : Except UInt32 (List UInt16)) = .error e → e ≠ errorSuccess) ∧
        ∀ info, (.error error : Except UInt32 (List UInt16)) = .ok info →
          info.length * 2 ≤ size := by
    intro error hne
    refine ⟨fun e he => ?_, fun info hinfo => by cases hinfo⟩
    cases he
    exact hne
  refine withInstance_returns (herror _ (by decide)) fun id => .any_bind fun error => ?_
  split
  · next hne => exact .pure (herror error hne)
  · refine .any_bind fun x => .pure ?_
    split
    · exact herror _ (by decide)
    · next hfits =>
        refine ⟨fun e he => (by cases he), fun info hinfo => ?_⟩
        cases hinfo
        exact Nat.le_of_not_lt hfits

theorem svcNameList_returns {room : Nat} {entries : List Nat} :
    (svcNameList room entries).Returns fun names => names.length ≤ room := by
  induction entries generalizing room with
  | nil => exact .pure (Nat.zero_le _)
  | cons id rest ih =>
      refine .any_bind fun x => ?_
      dsimp only
      split
      · exact .pure (Nat.zero_le _)
      · refine ih.bind fun more hmore => .pure ?_
        rw [List.length_append]
        omega

theorem svcInstanceGetNameList_returns {size : Nat} :
    (svcInstanceGetNameList size).Returns fun names => names.length * 2 ≤ size := by
  refine .any_bind fun _ => .any_bind fun entries => svcNameList_returns.bind fun names hnames => ?_
  exact .any_bind fun _ => .pure (by omega)

theorem svcPipeTransactAnswer_returns {mem : Nat → UInt8} {request : LaunchRequest} :
    (svcPipeTransactAnswer mem request).Returns (ReplyFits mem) := by
  have hempty : ∀ error, ReplyFits mem (svcPipeTransactResult error mem 0) :=
    fun error => svcPipeTransactResult_fits fun _ => by decide
  cases request with
  | start className instanceName args => exact .any_bind fun error => .pure (hempty error)
  | stop className instanceName forced => exact .any_bind fun error => .pure (hempty error)
  | quit => exact .pure (hempty _)
  | invalid => exact .pure (hempty _)
  | getInfo className instanceName =>
      refine svcInstanceGetInfo_returns.bind fun r hr => ?_
      match r with
      | .ok info => exact .pure (svcPipeTransactResult_chars (hr.2 info rfl))
      | .error error =>
          exact .pure (svcPipeTransactResult_fits fun h => absurd h (hr.1 error rfl))
  | getNameList =>
      exact svcInstanceGetNameList_returns.bind fun names hnames =>
        .pure (svcPipeTransactResult_chars hnames)

/-- The launcher reads the message of a command and strings that fit, and takes
them from its buffer. -/
theorem svcPipeRead_request {debug : Bool} {command : LaunchCommand} {strings : List WString}
    {mem : Nat → UInt8} (hargs : strings.length ≤ 2 + 9)
    (hfit : (launchChars command.char strings).length * 2 ≤ spdLaunchPipeBufferSize) :
    ∃ mem' size,
      svcPipeRead (wcharBytes (launchChars command.char strings)) mem = some (mem', size) ∧
        2 ≤ size ∧ (svcPipeTransactRequest debug (wchars mem') (size / 2)).2 =
          LaunchCommand.request debug command strings := by
  have hlen := length_wcharBytes (launchChars command.char strings)
  have hholds : HoldsAt (wchars (store mem 0 (wcharBytes (launchChars command.char strings)))) 0
      (launchChars command.char strings) := holdsAt_wchars holdsAt_store
  refine ⟨_, _, svcPipeRead_eq_some.mpr ⟨hlen ▸ hfit, rfl, rfl⟩, ?_, ?_⟩
  · rw [hlen, launchChars, List.length_cons]
    omega
  · rw [hlen, Nat.mul_div_cancel _ (by decide)]
    exact svcPipeTransactRequest_holds hholds hargs

/-- What is read from a message and what is written in reply to it, whatever the
message is. -/
theorem svcPipeTransact_returns {debug : Bool} {mem : Nat → UInt8} {size : Nat}
    (hsize : size ≤ spdLaunchPipeBufferSize) :
    (svcPipeTransact debug mem size).Returns fun reply =>
      ScanInside (wchars mem) (size / 2) reply.scan ∧
      ReplyFits mem (reply.memory, reply.size) := by
  unfold svcPipeTransact
  split
  · refine .pure ⟨⟨Nat.zero_le _, fun i hi => ?_, fun part hpart => ?_⟩, hsize,
      fun _ _ => rfl⟩
    · cases hi
    · cases hpart
  · next hlt =>
      refine svcPipeTransactAnswer_returns.bind fun reply hreply => .pure ⟨?_, hreply⟩
      exact scanInside_request (by omega)

/-! ## Both sides -/

/-- The launcher takes from the message of a client the command and the strings
that the client has passed, when these fit the buffer. Of any message it reads
only what is there, every part ends in front of the end of the message, and the
reply fits the buffer. -/
theorem launcher_pipe :
    (∀ (debug : Bool) (command : LaunchCommand) (strings : List WString) (args : List LaunchArg)
        (mem : Nat → UInt8),
      strings.length ≤ 2 + 9 → List.Forall₂ LaunchArg.Passes args strings →
      (launchChars command.char strings).length * 2 ≤ spdLaunchPipeBufferSize →
      ∃ message mem' size,
        spdLaunchCallLauncherPipe command.char args = some (.ok message) ∧
          svcPipeRead message mem = some (mem', size) ∧ 2 ≤ size ∧
          (svcPipeTransactRequest debug (wchars mem') (size / 2)).2 =
            LaunchCommand.request debug command strings) ∧
    (∀ (pipeBuf : Nat → UInt16) (pipeBufEnd : Nat) (s : PipeScan),
      ScanInside pipeBuf pipeBufEnd s →
      ScanInside pipeBuf pipeBufEnd (svcPipeTransactGetPart pipeBuf pipeBufEnd s).1 ∧
        ∀ x, (svcPipeTransactGetPart pipeBuf pipeBufEnd s).2 = some x →
          (s.p, x) ∈ (svcPipeTransactGetPart pipeBuf pipeBufEnd s).1.parts) ∧
    ∀ (debug : Bool) (message : List UInt8) (mem mem' : Nat → UInt8) (size : Nat),
      svcPipeRead message mem = some (mem', size) →
      (svcPipeTransact debug mem' size).Returns fun reply =>
        ScanInside (wchars mem') (size / 2) reply.scan ∧
          reply.size ≤ spdLaunchPipeBufferSize ∧
          ∀ i, spdLaunchPipeBufferSize ≤ i → reply.memory i = mem' i := by
  refine ⟨fun debug command strings args mem hargs hpassed hfit => ?_, ?_, ?_⟩
  · obtain ⟨mem', size, hread, hsize, hrequest⟩ := svcPipeRead_request hargs hfit
    exact ⟨_, mem', size, spdLaunchCallLauncherPipe_passes hpassed hfit, hread, hsize, hrequest⟩
  · exact fun pipeBuf pipeBufEnd s h => ⟨h.getPart, fun x hx => svcPipeTransactGetPart_mem hx⟩
  · intro debug message mem mem' size hread
    obtain ⟨hle, -, rfl⟩ := svcPipeRead_eq_some.mp hread
    exact svcPipeTransact_returns hle

/-- A start with two arguments, one of them passed with its length. The instance
has no name, and the last argument is empty, too. -/
theorem launcher_pipe_start :
    ∃ message mem' size,
      spdLaunchCallLauncherPipe 0x53
          [⟨some [0x61, 0], -1⟩, ⟨some [0], -1⟩, ⟨some [0x62, 0x63, 0x64], 2⟩,
            ⟨some [0], -1⟩] =
        some (.ok message) ∧
      svcPipeRead message (fun _ => 0xff) = some (mem', size) ∧ 2 ≤ size ∧
      (svcPipeTransactRequest false (wchars mem') (size / 2)).2 =
        .start ⟨[0x61], by decide⟩ .empty [⟨[0x62, 0x63], by decide⟩, .empty] := by
  have hterminated : ∀ s : WString, LaunchArg.Passes ⟨some s.terminated, -1⟩ s :=
    fun s => ⟨_, rfl, .inl ⟨rfl, List.prefix_refl _⟩⟩
  have hlength : LaunchArg.Passes ⟨some [0x62, 0x63, 0x64], 2⟩ ⟨[0x62, 0x63], by decide⟩ :=
    ⟨_, rfl, .inr ⟨by decide, rfl, [0x64], rfl⟩⟩
  exact launcher_pipe.1 false .start
    [⟨[0x61], by decide⟩, .empty, ⟨[0x62, 0x63], by decide⟩, .empty] _ _ (by decide)
    (.cons (hterminated ⟨[0x61], by decide⟩) (.cons (hterminated .empty) (.cons hlength
      (.cons (hterminated .empty) .nil)))) (by decide)

end Winspd.Proofs
