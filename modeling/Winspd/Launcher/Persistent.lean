import Winspd.Launcher.Pipe

/-!
# Persistent instances: `launcher.c`

An instance of a class with `Persistent` set is kept in the registry: a value
of the key `Instances` of its class, with the name of the instance, that holds
its arguments, its security descriptor as a string, and another NUL. When the
service starts, the instances of all classes are created again.

The keys of the classes are in the order in which the registry enumerates them,
and so are the values. The registry gives a name or a value only to a buffer
that it fits; the buffer of the value keeps what was in it behind.
-/

namespace Winspd.Launcher

open Winspd.Lib Winspd.Shared

def regMultiSz : UInt32 := 7

structure RegValue where
  name : WString
  type : UInt32
  data : List UInt8

/-- The key of a class, as far as it is used here: its value `Persistent`, and
the values of its key `Instances`. -/
structure RegClass where
  name : WString
  persistent : Option UInt32
  instances : Option (List RegValue)

/-! ## At the start of an instance -/

/-- What `ArgBuf` is filled with. -/
def svcInstanceArgBuf (args : List WString) (security : WString) : List UInt16 :=
  args.flatMap WString.terminated ++ security.terminated ++ [0]

/-- `SvcInstanceSetPersistent`: the value it sets in the `Instances` of the class,
if it gets there. `security` is the string of the security descriptor. -/
def svcInstanceSetPersistent (persistent : Option UInt32) (security : Option WString)
    (instanceName : WString) (args : List WString) : Option RegValue := do
  let persistent ← persistent
  if persistent = 0 then none
  else do
    let security ← security
    some ⟨instanceName, regMultiSz, wcharBytes (svcInstanceArgBuf args security)⟩

/-! ## At the start of the service -/

/-- The arguments of `SvcInstanceCreate`. -/
structure CreateCall where
  className : WString
  instanceName : WString
  args : List WString
  externalSecurity : WString
  deriving DecidableEq, Repr

/-- The sizes of the arrays `ClassName`, `InstanceName` and `RegValue`, in
characters, and of `Argv`. -/
def classNameSize : Nat := 64
def instanceNameSize : Nat := 264
def regValueSize : Nat := 1536
def persistentArgvSize : Nat := 11

/-- The loop that fills `Argv`, from `P` on, with room for so many. `none` when
it reads behind `RegValue`. -/
def svcRecordArgv (regValue : Nat → UInt16) (size : Nat) : Nat → Nat → Option (List WString)
  | 0, _ => some []
  | n + 1, p =>
      if p * 2 < size then
        let arg : WString := ⟨(scanTo 0 regValue (regValueSize - p) p).1, sep_not_mem_scanTo⟩
        if p + arg.length < regValueSize then
          (svcRecordArgv regValue size n (p + arg.length + 1)).map fun rest => arg :: rest
        else none
      else some []

/-- What is made of the strings of a record. -/
def svcRecordCall (className instanceName : WString) (argv : List WString) : Option CreateCall :=
  let argc := argv.length
  if 2 < argc then
    argv[argc - 2]?.map fun security =>
      ⟨className, instanceName, argv.take (argc - 2), security⟩
  else none

/-- The loop over the values of `Instances`: the calls of `SvcInstanceCreate`, and
`RegValue`. -/
def svcStartInstances (className : WString) :
    List RegValue → (Nat → UInt8) → Option (List CreateCall × (Nat → UInt8))
  | [], mem => some ([], mem)
  | value :: values, mem =>
      if instanceNameSize < value.name.length + 1 ∨ regValueSize * 2 < value.data.length then
        -- `ERROR_MORE_DATA`
        some ([], mem)
      else if value.type ≠ regMultiSz then some ([], store mem 0 value.data)
      else do
        let mem := store mem 0 value.data
        let argv ← svcRecordArgv (wchars mem) value.data.length persistentArgvSize 0
        let (calls, mem) ← svcStartInstances className values mem
        some ((svcRecordCall className value.name argv).toList ++ calls, mem)

/-- `SvcInstanceStartAllPersistent`: the calls of `SvcInstanceCreate`. -/
def svcStartAllPersistent : List RegClass → (Nat → UInt8) → Option (List CreateCall)
  | [], _ => some []
  | c :: cs, mem =>
      if classNameSize < c.name.length + 1 then some []
      else
        match c.instances with
        | none => svcStartAllPersistent cs mem
        | some values => do
            let (calls, mem) ← svcStartInstances c.name values mem
            let rest ← svcStartAllPersistent cs mem
            some (calls ++ rest)

end Winspd.Launcher
