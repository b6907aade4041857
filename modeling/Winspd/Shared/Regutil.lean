import Winspd.Lib.KeyTree
import Winspd.Shared.Stghandle

/-!
# shared/regutil.c: `RegAddEntries` and `RegDeleteEntries`

Keys and values are added to the registry by a list of entries, and deleted by
the same list. An entry without a name and a value ends a section. One without a
value is a key: it is opened, or created when it has a type. The others are values
of the key that was reached last, or of `Key` itself.

The registry below `Key` is a tree, and an open key is the path to it. How a
name is a path of keys, or the name of a value, is given. Of the calls that add
any may fail, for any reason. Those that delete fail for what is in the registry.
-/

namespace Winspd.Shared

open Winspd.Lib

/-- What names mean to the registry: keys are separated by backslashes, and
capital and small letters are the same. -/
structure RegNames (κ ν : Type) where
  keyPath : List UInt16 → List κ
  valueName : Option (List UInt16) → ν

/-- The names of Windows, as far as they have no letters but those of ASCII. -/
def windowsNames : RegNames (List UInt16) (List UInt16) where
  keyPath name := (name.map foldCase).splitOn 0x5c
  valueName name := (name.getD []).map foldCase
where
  foldCase (c : UInt16) : UInt16 := if 0x41 ≤ c ∧ c ≤ 0x5a then c + 0x20 else c

def wide (s : String) : List UInt16 := s.toList.map fun c => UInt16.ofNat c.toNat

/-- `REGENTRY`. The value is the bytes that there are of it, by its size. -/
structure RegEntry where
  name : Option (List UInt16)
  type : UInt32
  value : Option (List UInt8)
  deriving DecidableEq, Repr

/-- Values have a type and data. -/
abbrev Registry (κ ν : Type) := KeyTree κ ν (UInt32 × List UInt8)

/-- A call that fails. If it was to create a key, then it has created so many of
the keys on its path. -/
structure RegFailure where
  error : UInt32
  fails : error ≠ 0
  made : Nat

variable {κ ν : Type} [DecidableEq κ] [DecidableEq ν]

/-! ## The registry -/

/-- `RegOpenKeyExW`. -/
def regOpenKeyEx (x : RegNames κ ν) (t : Registry κ ν) (base : List κ) (name : List UInt16) :
    Except UInt32 (List κ) :=
  let key := base ++ x.keyPath name
  if t.keys key then .ok key else .error errorFileNotFound

/-- `RegDeleteTree`. -/
def regDeleteTree (x : RegNames κ ν) (t : Registry κ ν) (base : List κ) (name : List UInt16) :
    UInt32 × Registry κ ν :=
  let key := base ++ x.keyPath name
  if t.keys key then (errorSuccess, t.remove key) else (errorFileNotFound, t)

/-- `RegDeleteValue`. -/
def regDeleteValue (x : RegNames κ ν) (t : Registry κ ν) (base : List κ)
    (name : Option (List UInt16)) : UInt32 × Registry κ ν :=
  match t.values base (x.valueName name) with
  | none => (errorFileNotFound, t)
  | some _ => (errorSuccess, t.eraseValue base (x.valueName name))

/-! ## `RegAddEntries` -/

/-- The variables of the loops. `flag` is `*PKeyAdded`, or `*PKeyDeleted`, and
only `RegDeleteEntries` has `skip`. -/
structure RegLoop (κ ν : Type) where
  error : UInt32
  registry : Registry κ ν
  entryKey : Option (List κ)
  flag : Bool
  skip : Bool

def RegLoop.start (t : Registry κ ν) : RegLoop κ ν := ⟨errorSuccess, t, none, false, false⟩

/-- `0 != EntryKey ? EntryKey : Key`. -/
def RegLoop.key (s : RegLoop κ ν) : List κ := s.entryKey.getD []

def regAddEntry (x : RegNames κ ν) (failure : Option RegFailure) (s : RegLoop κ ν)
    (e : RegEntry) :
    RegLoop κ ν :=
  match e.name, e.value with
  | none, none => { s with entryKey := none }
  | some name, none =>
      let key := s.key ++ x.keyPath name
      if e.type = 0 then
        match failure with
        | some f => { s with error := f.error }
        | none =>
            match regOpenKeyEx x s.registry s.key name with
            | .error error => { s with error := error }
            | .ok tempKey => { s with entryKey := some tempKey }
      else
        match failure with
        | some f =>
            { s with
              error := f.error
              registry := s.registry.insert (key.take (s.key.length + f.made)) }
        | none =>
            { s with
              registry := s.registry.insert key
              entryKey := some key
              flag := s.flag || !s.registry.keys key }
  | name, some value =>
      match failure with
      | some f => { s with error := f.error }
      | none =>
          { s with registry := s.registry.setValue s.key (x.valueName name) (e.type, value) }

/-- The loop, from an entry on. -/
def regAddLoop (x : RegNames κ ν) (failures : Nat → Option RegFailure) :
    Nat → RegLoop κ ν → List RegEntry → RegLoop κ ν
  | _, s, [] => s
  | i, s, e :: es =>
      let s' := regAddEntry x (failures i) s e
      if s'.error ≠ errorSuccess then s' else regAddLoop x failures (i + 1) s' es

/-- `RegAddEntries`. -/
def regAddEntries (x : RegNames κ ν) (failures : Nat → Option RegFailure)
    (entries : List RegEntry) (t : Registry κ ν) : RegLoop κ ν :=
  regAddLoop x failures 0 (.start t) entries

/-! ## `RegDeleteEntries` -/

def regDeleteEntry (x : RegNames κ ν) (s : RegLoop κ ν) (e : RegEntry) : RegLoop κ ν :=
  match e.name, e.value with
  | none, none => { s with entryKey := none, skip := false }
  | some name, none =>
      if s.skip then s
      else if e.type = 0 then
        match regOpenKeyEx x s.registry s.key name with
        | .error error => { s with error := error }
        | .ok tempKey => { s with entryKey := some tempKey }
      else
        let r := regDeleteTree x s.registry s.key name
        let s := { s with registry := r.2, flag := s.flag || r.1 = errorSuccess, skip := true }
        if r.1 = errorSuccess ∨ r.1 = errorFileNotFound then { s with entryKey := none }
        else { s with error := r.1 }
  | name, some _ =>
      if s.skip then s
      else
        let r := regDeleteValue x s.registry s.key name
        let s := { s with registry := r.2 }
        if r.1 = errorSuccess ∨ r.1 = errorFileNotFound then s else { s with error := r.1 }

def regDeleteLoop (x : RegNames κ ν) : RegLoop κ ν → List RegEntry → RegLoop κ ν
  | s, [] => s
  | s, e :: es =>
      let s' := regDeleteEntry x s e
      if s'.error ≠ errorSuccess then s' else regDeleteLoop x s' es

/-- `RegDeleteEntries`. -/
def regDeleteEntries (x : RegNames κ ν) (entries : List RegEntry) (t : Registry κ ν) :
    RegLoop κ ν :=
  regDeleteLoop x (.start t) entries

end Winspd.Shared
