import Winspd.Launcher.Pipe
import Winspd.Lib.CommandLine
import Winspd.Proofs.Substitution

/-!
# The arguments of a client

The words that the process of a service finds in its command line are those of
the service's template, with the arguments of the client in their places
(`serviceSlots`). Which words there are does not depend on the arguments, and an
argument does not change another one, as long as no argument that is used ends
in a backslash. Where one does, the launcher does not escape it, and its closing
quotation mark is taken for text or the backslashes are halved.

The template is read by the rules that the process reads its command line with.
That a place stands as a word of its own means that one can be read there.
-/

namespace Winspd.Proofs

open Winspd.Lib Winspd.Shared Winspd.Launcher

/-- The rules of `CommandLineToArgvW`. -/
def windowsQuoting : Quoting UInt16 where
  quote := doubleQuote
  backslash := 0x5c
  blank c := c = wideSpace ∨ c = 0x09
  quote_ne := by decide
  quote_blank := by decide
  backslash_blank := by decide

/-- Strings that a client can send: each fits in the buffer of the pipe. -/
structure ClientArguments where
  args : List WString
  fits : ∀ s ∈ args, (s.length + 1) * 2 ≤ spdLaunchPipeBufferSize

/-- The executable is text of the registry, as the template is. -/
def executableText (executable : WString) : Piece UInt16 Nat → List (Piece UInt16 Nat)
  | .place 0 => (quoted executable).map .text
  | p => [p]

def templatePieces (executable : WString) (string : List UInt16) : List (Piece UInt16 Nat) :=
  (pieces percent argumentPlace string).flatMap (executableText executable)

/-- What follows the executable in the command line. -/
def servicePieces (x : ServiceClass) : List (Piece UInt16 Nat) :=
  match x.commandLine with
  | some s => .text wideSpace :: templatePieces x.executable s.chars
  | none => []

/-- The words of a service, when each of `%1` to `%9` stands as a word of its
own. -/
def serviceSlots (pair : Option Bool) (x : ServiceClass) : Option (List (Slot UInt16 Nat)) :=
  slots windowsQuoting pair none (servicePieces x)

/-- An argument as the process is to find it. -/
def argumentWord (x : ServiceClass) (args : List WString) (i : Nat) : List UInt16 :=
  withoutQuotes ((createArgv x args).getD i .empty)

/-- The process finds the executable, and then the words of the service with the
arguments in their places. -/
def ArgumentsKept (platform : Platform) (pair : Option Bool) (image : List UInt16)
    (x : ServiceClass) (args : List WString) (sl : List (Slot UInt16 Nat)) : Prop :=
  ∃ line, svcInstanceCommandLine platform true x args = some (.ok (line ++ [0])) ∧
    commandLineToArgv windowsQuoting pair image line =
      withoutQuotes x.executable :: sl.map (Slot.fill (argumentWord x args))

variable {platform : Platform} {pair : Option Bool} {image : List UInt16} {x : ServiceClass}
  {args : List WString} {client : ClientArguments} {s : WString} {sl : List (Slot UInt16 Nat)}

/-! ## The command line -/

theorem quoted_eq : quoted s = enquote windowsQuoting (withoutQuotes s) := rfl

theorem quote_notMem : windowsQuoting.quote ∉ withoutQuotes s := by
  intro h
  simpa [windowsQuoting] using (List.mem_filter.mp h).2

theorem expand_templatePieces {filling : Nat → List UInt16} {string : List UInt16}
    (hzero : filling 0 = quoted s) :
    expand filling (templatePieces s string) =
      expand filling (pieces percent argumentPlace string) := by
  unfold templatePieces
  induction pieces percent argumentPlace string with
  | nil => rfl
  | cons p ps ih =>
      rw [List.flatMap_cons, expand_append, ih]
      match p with
      | .text c => rfl
      | .place (i + 1) =>
          rw [executableText, expand_place, expand_place, expand_nil, List.append_nil]
          simp
      | .place 0 =>
          rw [executableText, expand_map_text, expand_place, hzero]

def serviceLine (x : ServiceClass) (args : List WString) : List UInt16 :=
  expand (fun i => quoted ((createArgv x args).getD i .empty)) (servicePieces x)

theorem substituted_commandLineBuf :
    substituted (createArgv x args) x.commandLineBuf =
      quoted x.executable ++ serviceLine x args := by
  have hzero : argumentPlace digitZero = some 0 := rfl
  unfold serviceLine servicePieces ServiceClass.commandLineBuf substituted
  cases x.commandLine with
  | some s =>
      dsimp only
      rw [expand_text, expand_templatePieces rfl, List.cons_append, List.cons_append,
        pieces_place hzero, expand_place, List.cons_append, pieces_plain (by decide), expand_text]
      rfl
  | none =>
      dsimp only
      rw [pieces_place hzero, expand_place, pieces_nil, expand_nil]
      rfl

theorem commandLineBuf_noNul : (0 : UInt16) ∉ x.commandLineBuf := by
  unfold ServiceClass.commandLineBuf
  cases x.commandLine with
  | some s =>
      intro h
      rcases List.mem_append.mp h with h | h
      · revert h
        decide
      · exact s.noNul h
  | none =>
      dsimp only
      decide

theorem length_commandLineBuf : x.commandLineBuf.length < 512 := by
  unfold ServiceClass.commandLineBuf
  cases hline : x.commandLine with
  | some s =>
      have hfits := x.commandLine_fits s hline
      rw [WString.length] at hfits
      dsimp only
      rw [List.length_append]
      show 3 + _ < 512
      omega
  | none =>
      dsimp only
      decide

/-- The vector that `SvcInstanceCreate` makes. -/
def createVector (x : ServiceClass) (args : List WString) : ArgumentVector where
  args := createArgv x args
  few := by
    unfold createArgv
    rw [List.length_cons, List.length_take]
    omega

theorem length_createArgv (s : WString) (hs : s ∈ createArgv x client.args) :
    s.length ≤ 2048 := by
  rcases List.mem_cons.mp hs with rfl | hs
  · have hfits := x.executable_fits
    omega
  · have hfits := client.fits s (List.mem_of_mem_take hs)
    rw [spdLaunchPipeBufferSize] at hfits
    omega

theorem client_allocatable (platform : Platform) (x : ServiceClass) (client : ClientArguments) :
    Allocatable platform (substituted (createArgv x client.args) x.commandLineBuf).length := by
  have harg : ∀ i, (quoted ((createArgv x client.args).getD i .empty)).length ≤ 2050 := by
    intro i
    have hlen : ((createArgv x client.args).getD i .empty).length ≤ 2048 := by
      by_cases hi : i < (createArgv x client.args).length
      · rw [List.getD_eq_getElem _ _ hi]
        exact length_createArgv _ (List.getElem_mem hi)
      · rw [List.getD_eq_default _ _ (Nat.le_of_not_lt hi)]
        exact Nat.zero_le _
    have hfilter := List.length_filter_le (fun c => doubleQuote ≠ c)
      ((createArgv x client.args).getD i .empty).chars
    rw [length_quoted, withoutQuotes]
    rw [WString.length] at hlen
    omega
  have hstring := length_commandLineBuf (x := x)
  have hpieces : (pieces percent argumentPlace x.commandLineBuf).length ≤
      x.commandLineBuf.length := length_pieces_le
  have hexpand := length_expand_le (pieces percent argumentPlace x.commandLineBuf)
    (show 0 < 2050 by decide) harg
  have hlen : (substituted (createArgv x client.args) x.commandLineBuf).length ≤ 2050 * 511 := by
    refine Nat.le_trans hexpand (Nat.mul_le_mul_left _ ?_)
    omega
  unfold Allocatable
  cases platform <;> simp only [Platform.sizeofPvoid] <;> omega

/-- What the process is started with: a `%` at the end is read on behind. -/
theorem svcInstanceCommandLine_eq :
    svcInstanceCommandLine platform true x client.args =
      if paired percent x.commandLineBuf then
        some (.ok (quoted x.executable ++ serviceLine x client.args ++ [0]))
      else none := by
  have heq := svcInstanceReplaceArguments_eq platform true (createVector x client.args)
    ⟨x.commandLineBuf, commandLineBuf_noNul⟩
  refine Eq.trans heq ?_
  show (if paired percent x.commandLineBuf = false then _ else _) = _
  cases hpaired : paired percent x.commandLineBuf with
  | false => rfl
  | true =>
      have hroom := room_iff.mpr (client_allocatable platform x client)
      rw [if_neg (by decide), if_neg (by decide), if_pos rfl, ← substituted_commandLineBuf]
      show (written _ [] (substituted (createArgv x client.args) x.commandLineBuf ++ [0])).map _ = _
      have hfits : (substituted (createArgv x client.args) x.commandLineBuf ++ [0]).length ≤
          allocatedSize platform (UInt32.ofNat
            (substituted (createVector x client.args).args x.commandLineBuf).length) / 2 := by
        rw [List.length_append]
        exact hroom
      rw [written_eq_some_iff.mpr hfits]
      rfl

/-! ## The arguments -/

/-- The service finds the client's arguments as they were sent if and only if no escape of
the template is left over and no argument that stands in it ends with a backslash. -/
theorem client_arguments (h : serviceSlots pair x = some sl) :
    ArgumentsKept platform pair image x client.args sl ↔
      paired percent x.commandLineBuf = true ∧
        ∀ i, Slot.place i ∈ sl →
          (argumentWord x client.args i).getLast? ≠ some windowsQuoting.backslash := by
  have hread : commandLineToArgv windowsQuoting pair image
      (quoted x.executable ++ serviceLine x client.args) =
        withoutQuotes x.executable ::
          splitWords windowsQuoting pair none (serviceLine x client.args) := by
    rw [quoted_eq]
    exact commandLineToArgv_enquote quote_notMem
  have hquote : ∀ i, windowsQuoting.quote ∉ argumentWord x client.args i :=
    fun i => quote_notMem
  have hwords := split_expand_iff h hquote
  unfold ArgumentsKept
  rw [svcInstanceCommandLine_eq]
  cases hpaired : paired percent x.commandLineBuf with
  | false => simp
  | true =>
      rw [if_pos rfl, ← hwords, and_iff_right rfl]
      constructor
      · rintro ⟨line, hline, hargv⟩
        have heq := List.append_cancel_right (Except.ok.inj (Option.some.inj hline))
        rw [← heq, hread] at hargv
        exact (List.cons.inj hargv).2
      · intro hargv
        refine ⟨_, rfl, ?_⟩
        rw [hread]
        exact congrArg _ hargv

/-- A service whose executable is `s`, and whose command line is `%1 b`. -/
def serviceOne : ServiceClass where
  executable := ⟨[0x73], by decide⟩
  commandLine := some ⟨[percent, 0x31, wideSpace, 0x62], by decide⟩
  executable_fits := by decide
  commandLine_fits := by
    intro s hs
    cases hs
    decide

def slotsOne : List (Slot UInt16 Nat) := [.place 1, .text [0x62]]

theorem serviceSlots_one : serviceSlots none serviceOne = some slotsOne := by decide

/-- The argument `c d`. -/
def argumentBlank : ClientArguments := ⟨[⟨[0x63, wideSpace, 0x64], by decide⟩], by decide⟩

/-- The argument `c\`. -/
def argumentBackslash : ClientArguments := ⟨[⟨[0x63, 0x5c], by decide⟩], by decide⟩

theorem client_arguments_blank :
    serviceSlots none serviceOne = some slotsOne ∧
      ArgumentsKept .x64 none [] serviceOne argumentBlank.args slotsOne := by
  refine ⟨serviceSlots_one, (client_arguments serviceSlots_one).mpr
    ⟨by decide, fun i hi => ?_⟩⟩
  rcases List.mem_cons.mp hi with hi | hi
  · cases hi
    decide
  · simp at hi

/-- The command line is `"s" "c\" b`: the process finds two arguments and not three. -/
theorem client_arguments_backslash :
    commandLineToArgv windowsQuoting none []
        (quoted serviceOne.executable ++ serviceLine serviceOne argumentBackslash.args) =
        [[0x73], [0x63, doubleQuote, wideSpace, 0x62]] ∧
      ∃ (x : ServiceClass) (client : ClientArguments) (sl : List (Slot UInt16 Nat)),
        serviceSlots none x = some sl ∧ ¬ ArgumentsKept .x64 none [] x client.args sl := by
  have hargv : commandLineToArgv windowsQuoting none []
      (quoted serviceOne.executable ++ serviceLine serviceOne argumentBackslash.args) =
        [[0x73], [0x63, doubleQuote, wideSpace, 0x62]] := by decide
  refine ⟨hargv, serviceOne, argumentBackslash, slotsOne, serviceSlots_one, ?_⟩
  rintro ⟨line, hline, hkept⟩
  rw [svcInstanceCommandLine_eq, if_pos (by decide)] at hline
  have heq := List.append_cancel_right (Except.ok.inj (Option.some.inj hline))
  rw [← heq, hargv] at hkept
  revert hkept
  decide

end Winspd.Proofs
