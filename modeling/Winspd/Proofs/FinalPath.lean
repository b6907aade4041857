import Winspd.Shellex.Mount

/-!
# The final path name of a file that cannot be opened

The directory of a name is what is in front of its last backslash, together with
that backslash. So the directory of a directory is that directory itself
(`IsDirBase.again`), and when it cannot be opened either, `GetFinalPathName` is
called with the same name once more. This goes on as long as `CreateFileW` fails
(`getFinalPathName_endless`), and the paths get shorter in all calls if and only
if that does not happen (`getFinalPathName_resolves`).

What is returned does not end in two backslashes if this holds of what the system
returns. So the final path of the directory, less its backslash if there is one,
ends in none.

`Mount` has the launcher start an instance on that name (`mount_success`), and
does not return either when the calls go on for ever (`mount_endless`).
-/

namespace Winspd.Proofs

open Winspd.Shared Winspd.Launcher Winspd.Shellex

variable {calls : Nat → PathCalls} {size : UInt32} {c : UInt16}
  {name dir base p q r buf path : List UInt16} {k n : Nat}

/-! ## The last backslash -/

theorem behindLast_not_mem {last : Option Nat} (h : c ∉ p) : behindLast c n last p = last := by
  induction p generalizing n with
  | nil => rfl
  | cons x p ih =>
      rw [List.mem_cons, not_or] at h
      rw [behindLast, if_neg h.1, ih h.2]

theorem behindLast_append {last : Option Nat} (h : c ∉ r) :
    behindLast c n last (q ++ c :: r) = some (n + q.length + 1) := by
  induction q generalizing n last with
  | nil =>
      rw [List.nil_append, behindLast, if_pos rfl, behindLast_not_mem h]
      rfl
  | cons x q ih =>
      rw [List.cons_append, behindLast, ih, List.length_cons]
      exact congrArg some (by omega)

theorem exists_last_mem (h : c ∈ p) : ∃ q r, p = q ++ c :: r ∧ c ∉ r := by
  obtain ⟨r, q, happend, hnot⟩ := List.eq_append_cons_of_mem (List.mem_reverse.mpr h)
  refine ⟨q.reverse, r.reverse, ?_, fun hmem => hnot (List.mem_reverse.mp hmem)⟩
  rw [← List.reverse_reverse p, happend]
  simp

/-- A directory and a base name. -/
structure IsDirBase (name dir base : List UInt16) : Prop where
  append : name = dir ++ 0x5c :: base
  base : 0x5c ∉ base
  fits : (dir.length + 1) * 2 + 2 ≤ sizeofPathName

theorem IsDirBase.dirBaseName (h : IsDirBase name dir base) :
    dirBaseName name = some (dir ++ [0x5c], base) := by
  have hlast : behindLast 0x5c 0 none name = some (dir.length + 1) := by
    rw [h.append, behindLast_append h.base, Nat.zero_add]
  have hsplit : name = (dir ++ [0x5c]) ++ base := by rw [h.append]; simp
  have hlen : (dir ++ [0x5c]).length = dir.length + 1 := by simp
  rw [Shellex.dirBaseName, hlast]
  dsimp only
  rw [if_neg (Nat.not_lt.mpr h.fits), hsplit, ← hlen, List.take_left, List.drop_left]

theorem isDirBase_of_some (h : dirBaseName name = some (p, base)) :
    ∃ dir, p = dir ++ [0x5c] ∧ IsDirBase name dir base := by
  by_cases hmem : 0x5c ∈ name
  · obtain ⟨dir, r, happend, hnot⟩ := exists_last_mem hmem
    have hlast : behindLast 0x5c 0 none name = some (dir.length + 1) := by
      rw [happend, behindLast_append hnot, Nat.zero_add]
    by_cases hfits : (dir.length + 1) * 2 + 2 ≤ sizeofPathName
    · have hdir : IsDirBase name dir r := ⟨happend, hnot, hfits⟩
      rw [hdir.dirBaseName] at h
      cases h
      exact ⟨dir, rfl, hdir⟩
    · rw [Shellex.dirBaseName, hlast] at h
      dsimp only at h
      rw [if_pos (Nat.lt_of_not_le hfits)] at h
      cases h
  · rw [Shellex.dirBaseName, behindLast_not_mem hmem] at h
    cases h

theorem IsDirBase.again (h : IsDirBase name dir base) : IsDirBase (dir ++ [0x5c]) dir [] :=
  ⟨rfl, List.not_mem_nil, h.fits⟩

/-! ## The calls -/

/-- The file is opened by somebody for himself alone. -/
def Exclusive (calls : Nat → PathCalls) (k : Nat) : Prop :=
  (calls k).create = .fails errorSharingViolation

/-- The call on `p`, inside `k` others, makes one on `q`. -/
def Recurs (calls : Nat → PathCalls) (k : Nat) (p q : List UInt16) : Prop :=
  Exclusive calls k ∧ ∃ base, dirBaseName p = some (q, base)

/-- The calls that are made in a call on `name`: inside how many others, and with
which paths. -/
inductive InnerCall (calls : Nat → PathCalls) (name : List UInt16) : Nat → List UInt16 → Prop
  | start : InnerCall calls name 0 name
  | inner {k : Nat} {p q : List UInt16} (h : InnerCall calls name k p)
      (hrecurs : Recurs calls k p q) : InnerCall calls name (k + 1) q

/-- What the system does: a call that fails says so, and no final path ends in two
backslashes. -/
structure DocumentedPaths (calls : Nat → PathCalls) : Prop where
  fails : ∀ k, (calls k).create ≠ .fails 0
  lastError : ∀ k final, (calls k).create ≠ .handle final 0
  final : ∀ k p error, (calls k).create ≠ .handle (some (p ++ [0x5c, 0x5c])) error

/-! ## What one call does -/

theorem getFinalPathName_handle {final : Option (List UInt16)} {lastError : UInt32}
    (hcreate : (calls k).create = .handle final lastError) :
    getFinalPathName calls size (n + 1) k name buf =
      some (finalPathOfHandle final lastError size buf) := by
  rw [getFinalPathName, hcreate]

theorem getFinalPathName_fails {error : UInt32} (hcreate : (calls k).create = .fails error)
    (hother : errorSharingViolation ≠ error) :
    getFinalPathName calls size (n + 1) k name buf = some (error, buf) := by
  rw [getFinalPathName, hcreate]
  exact if_neg hother

theorem getFinalPathName_noDir (hexclusive : Exclusive calls k) (hdir : dirBaseName name = none) :
    getFinalPathName calls size (n + 1) k name buf = some (errorSharingViolation, buf) := by
  rw [getFinalPathName, hexclusive]
  dsimp only
  rw [if_pos rfl, hdir]

theorem getFinalPathName_recurs (hexclusive : Exclusive calls k)
    (hdir : dirBaseName name = some (dir, base)) :
    getFinalPathName calls size (n + 1) k name buf =
      (getFinalPathName calls size n (k + 1) dir buf).map
        (addBaseName (calls k).find base size) := by
  rw [getFinalPathName, hexclusive]
  dsimp only
  rw [if_pos rfl, hdir]
  dsimp only [Option.bind_eq_bind]
  rw [Option.map_eq_bind]
  rfl

theorem getFinalPathName_alone (h : ∀ dir, ¬ Recurs calls k name dir) :
    ∃ r, ∀ n, getFinalPathName calls size (n + 1) k name buf = some r := by
  cases hcreate : (calls k).create with
  | handle final lastError => exact ⟨_, fun n => getFinalPathName_handle hcreate⟩
  | fails error =>
      by_cases hsharing : errorSharingViolation = error
      · subst hsharing
        cases hdir : dirBaseName name with
        | none => exact ⟨_, fun n => getFinalPathName_noDir hcreate hdir⟩
        | some d => exact absurd ⟨hcreate, d.2, hdir⟩ (h d.1)
      · exact ⟨_, fun n => getFinalPathName_fails hcreate hsharing⟩

/-! ## What is returned -/

theorem finalPathOfHandle_success {final : Option (List UInt16)} {lastError : UInt32}
    (hlast : lastError ≠ 0)
    (h : finalPathOfHandle final lastError size buf = (Launcher.errorSuccess, path)) :
    final = some path ∧ (path.length + 1) * 2 ≤ size.toNat := by
  have hfails : ∀ b : List UInt16, (lastError, b) ≠ (Launcher.errorSuccess, path) := by
    intro b heq
    exact hlast (Prod.mk.inj heq).1
  unfold finalPathOfHandle getFinalPathNameByHandle at h
  cases final with
  | none =>
      dsimp only at h
      rw [if_pos (Or.inl rfl)] at h
      exact absurd h (hfails _)
  | some p =>
      dsimp only at h
      generalize hroom : (if 2 ≤ size.toNat then (size.toNat - 2) / 2 else 0) = room at h
      by_cases hfits : p.length + 1 ≤ room
      · rw [if_pos hfits] at h
        dsimp only at h
        split at h
        · exact absurd h (hfails _)
        · cases h
          refine ⟨rfl, ?_⟩
          split at hroom <;> omega
      · rw [if_neg hfits] at h
        dsimp only at h
        rw [if_pos (Or.inr (by omega))] at h
        exact absurd h (hfails _)

/-- The final path of a directory, one backslash, and a base name. -/
def Joined (parent base path : List UInt16) : Prop :=
  ∃ p, p.getLast? ≠ some 0x5c ∧ (parent = p ∨ parent = p ++ [0x5c]) ∧
    path = p ++ 0x5c :: base

theorem addBaseName_success {find : Option UInt32} {parent : UInt32 × List UInt16}
    (h : addBaseName find base size parent = (Launcher.errorSuccess, path)) :
    parent.1 = Launcher.errorSuccess ∧
      path = (if parent.2.getLast? = some 0x5c then parent.2.dropLast else parent.2) ++
        0x5c :: base ∧
      (path.length + 1) * 2 ≤ size.toNat := by
  have hsharing : ∀ b :
      List UInt16, (errorSharingViolation, b) ≠ (Launcher.errorSuccess, path) := by
    intro b heq
    exact absurd (Prod.mk.inj heq).1 (by decide)
  unfold addBaseName at h
  dsimp only at h
  generalize (if parent.2.getLast? = some 0x5c then parent.2.dropLast else parent.2) = p at h ⊢
  split at h
  · exact absurd h (hsharing _)
  · next hparent =>
      split at h
      · exact absurd h (hsharing _)
      · split at h
        · exact absurd h (hsharing _)
        · split at h
          · exact absurd (Prod.mk.inj h).1 (by decide)
          · next hroom =>
              obtain ⟨-, rfl⟩ := Prod.mk.inj h
              refine ⟨not_not.mp hparent, rfl, ?_⟩
              rw [List.length_append, List.length_cons]
              omega

theorem joined_of_drop {parent : List UInt16} (h : ∀ p, parent ≠ p ++ [0x5c, 0x5c]) :
    Joined parent base
      ((if parent.getLast? = some 0x5c then parent.dropLast else parent) ++ 0x5c :: base) := by
  split
  · next hlast =>
      obtain ⟨p, rfl⟩ := List.getLast?_eq_some_iff.mp hlast
      refine ⟨p, fun htwo => ?_, .inr rfl, by rw [List.dropLast_concat]⟩
      obtain ⟨p, rfl⟩ := List.getLast?_eq_some_iff.mp htwo
      exact h p (List.append_assoc _ _ _)
  · next hlast => exact ⟨parent, hlast, .inl rfl, rfl⟩

theorem Joined.not_two {parent : List UInt16} (hbase : 0x5c ∉ base)
    (h : Joined parent base path) :
    ∀ p, path ≠ p ++ [0x5c, 0x5c] := by
  rintro p hpath
  obtain ⟨q, hq, -, rfl⟩ := h
  rcases List.eq_nil_or_concat base with rfl | ⟨b, x, rfl⟩
  · have hsame : q ++ [0x5c] = (p ++ [0x5c]) ++ [0x5c] := hpath.trans (by simp)
    obtain rfl := List.append_cancel_right hsame
    exact hq (List.getLast?_concat)
  · have hsame : (q ++ 0x5c :: b) ++ [x] = (p ++ [0x5c]) ++ [0x5c] := by
      simpa using hpath
    have hx : [x] = [0x5c] := (List.append_inj' hsame rfl).2
    cases hx
    exact hbase (by simp)

/-- A final path that is returned: it has room, and does not end in two backslashes. -/
theorem getFinalPathName_success (hdoc : DocumentedPaths calls)
    (h : getFinalPathName calls size n k name buf = some (Launcher.errorSuccess, path)) :
    (path.length + 1) * 2 ≤ size.toNat ∧ ∀ p, path ≠ p ++ [0x5c, 0x5c] := by
  induction n generalizing k name path with
  | zero => cases h
  | succ n ih =>
      cases hcreate : (calls k).create with
      | handle final lastError =>
          rw [getFinalPathName_handle hcreate] at h
          have hlast : lastError ≠ 0 := fun hzero => hdoc.lastError k final (hzero ▸ hcreate)
          obtain ⟨rfl, hroom⟩ := finalPathOfHandle_success hlast (Option.some.inj h)
          exact ⟨hroom, fun p hp => hdoc.final k p lastError (hp ▸ hcreate)⟩
      | fails error =>
          by_cases hsharing : errorSharingViolation = error
          · subst hsharing
            cases hdir : dirBaseName name with
            | none =>
                rw [getFinalPathName_noDir hcreate hdir] at h
                exact absurd (Prod.mk.inj (Option.some.inj h)).1 (by decide)
            | some d =>
                obtain ⟨d, b⟩ := d
                rw [getFinalPathName_recurs hcreate hdir] at h
                obtain ⟨⟨error, parent⟩, hparent, hadd⟩ := Option.map_eq_some_iff.mp h
                obtain ⟨hok, rfl, hroom⟩ := addBaseName_success hadd
                obtain rfl : error = Launcher.errorSuccess := hok
                obtain ⟨dir, -, hbase⟩ := isDirBase_of_some hdir
                exact ⟨hroom, (joined_of_drop (ih hparent).2).not_two hbase.base⟩
          · rw [getFinalPathName_fails hcreate hsharing] at h
            have hzero : error = 0 := (Prod.mk.inj (Option.some.inj h)).1
            exact absurd (hzero ▸ hcreate) (hdoc.fails k)

theorem getFinalPathName_joined (hdoc : DocumentedPaths calls) (hexclusive : Exclusive calls k)
    (hdir : dirBaseName name = some (dir, base))
    (h : getFinalPathName calls size (n + 1) k name buf = some (Launcher.errorSuccess, path)) :
    ∃ parent, getFinalPathName calls size n (k + 1) dir buf =
        some (Launcher.errorSuccess, parent) ∧
      Joined parent base path := by
  rw [getFinalPathName_recurs hexclusive hdir] at h
  obtain ⟨⟨error, parent⟩, hparent, hadd⟩ := Option.map_eq_some_iff.mp h
  obtain ⟨hok, rfl, -⟩ := addBaseName_success hadd
  obtain rfl : error = Launcher.errorSuccess := hok
  exact ⟨parent, hparent, joined_of_drop (getFinalPathName_success hdoc hparent).2⟩

/-! ## The paths get shorter -/

/-- It comes to an end, on shorter and shorter paths, and what it returns through
the directory is the directory's final path, a backslash and the base name. -/
structure Resolves (calls : Nat → PathCalls) (size : UInt32) (name buf : List UInt16) : Prop where
  shorter : ∀ k p q, InnerCall calls name k p → Recurs calls k p q → q.length < p.length
  ends : ∃ n r, ∀ m, getFinalPathName calls size (n + m) 0 name buf = some r
  joined : ∀ n dir base path, Exclusive calls 0 → dirBaseName name = some (dir, base) →
    getFinalPathName calls size (n + 1) 0 name buf = some (Launcher.errorSuccess, path) →
    (path.length + 1) * 2 ≤ size.toNat ∧ ∃ parent,
      getFinalPathName calls size n 1 dir buf = some (Launcher.errorSuccess, parent) ∧
        Joined parent base path

/-- When somebody has opened the file for himself alone, then its name does not
end in the backslash, and nobody has opened the directory so. -/
def Resolvable (calls : Nat → PathCalls) (name : List UInt16) : Prop :=
  Exclusive calls 0 → ∀ dir base, IsDirBase name dir base → base ≠ [] ∧
  ¬ Exclusive calls 1

theorem InnerCall.of_resolvable (hcall : InnerCall calls name k p) (h : Resolvable calls name) :
    k = 0 ∧ p = name ∨ k = 1 ∧ ¬ Exclusive calls 1 := by
  induction hcall with
  | start => exact .inl ⟨rfl, rfl⟩
  | inner hcall hrecurs ih =>
      rcases ih with ⟨rfl, rfl⟩ | ⟨rfl, hone⟩
      · obtain ⟨hexclusive, base, hdir⟩ := hrecurs
        obtain ⟨dir, -, hbase⟩ := isDirBase_of_some hdir
        exact .inr ⟨rfl, (h hexclusive dir base hbase).2⟩
      · exact absurd hrecurs.1 hone

theorem Resolvable.shorter (h : Resolvable calls name) (hcall : InnerCall calls name k p)
    (hrecurs : Recurs calls k p q) : q.length < p.length := by
  rcases hcall.of_resolvable h with ⟨rfl, rfl⟩ | ⟨rfl, hone⟩
  · obtain ⟨hexclusive, base, hdir⟩ := hrecurs
    obtain ⟨dir, rfl, hbase⟩ := isDirBase_of_some hdir
    have hne : 0 < base.length := List.length_pos_iff.mpr (h hexclusive dir base hbase).1
    rw [hbase.append, List.length_append, List.length_append, List.length_singleton,
      List.length_cons]
    omega
  · exact absurd hrecurs.1 hone

theorem Resolvable.ends (h : Resolvable calls name) :
    ∃ n r, ∀ m, getFinalPathName calls size (n + m) 0 name buf = some r := by
  by_cases hrecurs : ∃ dir, Recurs calls 0 name dir
  · obtain ⟨d, hexclusive, base, hdir⟩ := hrecurs
    obtain ⟨dir, -, hbase⟩ := isDirBase_of_some hdir
    have hone := (h hexclusive dir base hbase).2
    obtain ⟨r, hr⟩ := @getFinalPathName_alone calls size d buf 1 fun _ hrecurs => hone hrecurs.1
    refine ⟨2, addBaseName (calls 0).find base size r, fun m => ?_⟩
    rw [show 2 + m = m + 1 + 1 by omega, getFinalPathName_recurs hexclusive hdir, hr]
    rfl
  · obtain ⟨r, hr⟩ := @getFinalPathName_alone calls size name buf 0 fun dir hdir =>
      hrecurs ⟨dir, hdir⟩
    exact ⟨1, r, fun m => by rw [Nat.add_comm, hr]⟩

/-- A name that is not resolved so: a path in the calls does not get shorter. -/
theorem resolvable_of_shorter
    (h : ∀ k p q, InnerCall calls name k p → Recurs calls k p q → q.length < p.length) :
    Resolvable calls name := by
  intro hexclusive dir base hbase
  have hrecurs : Recurs calls 0 name (dir ++ [0x5c]) := ⟨hexclusive, base, hbase.dirBaseName⟩
  refine ⟨fun hnil => ?_, fun hone => ?_⟩
  · subst hnil
    rw [hbase.append] at hrecurs h
    exact Nat.lt_irrefl _ (h 0 _ _ .start hrecurs)
  · have hagain : Recurs calls 1 (dir ++ [0x5c]) (dir ++ [0x5c]) :=
      ⟨hone, [], hbase.again.dirBaseName⟩
    exact Nat.lt_irrefl _ (h 1 _ _ (.inner .start hrecurs) hagain)

/-- `GetFinalPathName` does what it is for if and only if it is not called with the
same directory again. -/
theorem getFinalPathName_resolves (calls : Nat → PathCalls) (size : UInt32)
    (name buf : List UInt16) (hdoc : DocumentedPaths calls) :
    Resolves calls size name buf ↔ Resolvable calls name := by
  refine ⟨fun h => resolvable_of_shorter h.shorter, fun h => ?_⟩
  refine ⟨fun k p q => h.shorter, h.ends, fun n dir base path hexclusive hdir hpath => ?_⟩
  exact ⟨(getFinalPathName_success hdoc hpath).1,
    getFinalPathName_joined hdoc hexclusive hdir hpath⟩

/-- A file that cannot be opened in a directory that can. -/
def exclusiveFile (k : Nat) : PathCalls :=
  if k = 0 then ⟨.fails errorSharingViolation, some 0x20⟩
  else ⟨.handle (some [0x43, 0x3a, 0x5c, 0x64]) 2, none⟩

/-- `C:\d\f`. -/
theorem getFinalPathName_resolves_file :
    Resolves exclusiveFile 528 [0x43, 0x3a, 0x5c, 0x64, 0x5c, 0x66] [] := by
  refine (getFinalPathName_resolves _ _ _ _ ⟨fun k => ?_, fun k final => ?_,
    fun k p error => ?_⟩).mpr
    fun _ dir base hbase => ⟨fun hnil => ?_, fun hone => FileOpened.noConfusion hone⟩
  · unfold exclusiveFile
    split <;> decide
  · unfold exclusiveFile
    split <;> simp
  · unfold exclusiveFile
    split
    · simp
    · intro heq
      have hlast := congrArg List.getLast? (Option.some.inj (FileOpened.handle.inj heq).1)
      simp at hlast
  · have hlast := congrArg List.getLast? hbase.append
    rw [hnil] at hlast
    simp at hlast

/-! ## It does not come to an end -/

theorem endless_of_exclusive (hall : ∀ k, Exclusive calls k) (hbase : IsDirBase name dir base) :
    getFinalPathName calls size n k name buf = none := by
  induction n generalizing k name base with
  | zero => rfl
  | succ n ih =>
      rw [getFinalPathName_recurs (hall k) hbase.dirBaseName, ih hbase.again]
      rfl

/-- A later call that does not fail so ends all calls in front of it. -/
theorem ends_of_not_exclusive {j : Nat} (h : ¬ Exclusive calls (k + j)) :
    ∃ n r, getFinalPathName calls size n k name buf = some r := by
  induction j generalizing k name with
  | zero =>
      obtain ⟨r, hr⟩ := @getFinalPathName_alone calls size name buf k fun _ hrecurs =>
        h hrecurs.1
      exact ⟨1, r, hr 0⟩
  | succ j ih =>
      by_cases hrecurs : ∃ dir, Recurs calls k name dir
      · obtain ⟨d, hexclusive, base, hdir⟩ := hrecurs
        obtain ⟨n, r, hr⟩ := @ih d (k + 1) (by rwa [Nat.add_assoc, Nat.add_comm 1])
        refine ⟨n + 1, addBaseName (calls k).find base size r, ?_⟩
        rw [getFinalPathName_recurs hexclusive hdir, hr]
        rfl
      · obtain ⟨r, hr⟩ := @getFinalPathName_alone calls size name buf k fun dir hdir =>
          hrecurs ⟨dir, hdir⟩
        exact ⟨1, r, hr 0⟩

/-- It does not come to an end if and only if no call of `CreateFileW` succeeds or
fails for another reason. -/
theorem getFinalPathName_endless (calls : Nat → PathCalls) (size : UInt32)
    (name buf : List UInt16) :
    (∀ n, getFinalPathName calls size n 0 name buf = none) ↔
      (∃ dir base, IsDirBase name dir base) ∧ ∀ k, Exclusive calls k := by
  refine ⟨fun h => ⟨?_, fun k => ?_⟩, ?_⟩
  · by_contra hno
    have halone : ∀ dir, ¬ Recurs calls 0 name dir := by
      rintro d ⟨-, base, hdir⟩
      obtain ⟨dir, -, hbase⟩ := isDirBase_of_some hdir
      exact hno ⟨dir, base, hbase⟩
    obtain ⟨r, hr⟩ := @getFinalPathName_alone calls size name buf 0 halone
    exact absurd ((hr 0).symm.trans (h 1)) (by simp)
  · by_contra hnot
    obtain ⟨n, r, hr⟩ := @ends_of_not_exclusive calls size name buf 0 k (by rwa [Nat.zero_add])
    exact absurd (hr.symm.trans (h n)) (by simp)
  · rintro ⟨⟨dir, base, hbase⟩, hall⟩ n
    exact endless_of_exclusive hall hbase

/-- `C:\d\f`, where the directory cannot be opened either. -/
theorem getFinalPathName_resolves_directory :
    DocumentedPaths (fun _ => ⟨.fails errorSharingViolation, none⟩) ∧
      ¬ Resolves (fun _ => ⟨.fails errorSharingViolation, none⟩) 528
        [0x43, 0x3a, 0x5c, 0x64, 0x5c, 0x66] [] ∧
      ∀ n, getFinalPathName (fun _ => ⟨.fails errorSharingViolation, none⟩) 528 n 0
        [0x43, 0x3a, 0x5c, 0x64, 0x5c, 0x66] [] = none := by
  have hbase : IsDirBase [0x43, 0x3a, 0x5c, 0x64, 0x5c, 0x66] [0x43, 0x3a, 0x5c, 0x64] [0x66] :=
    ⟨rfl, by decide, by decide⟩
  have hendless :
      ∀ n, getFinalPathName (fun _ => ⟨.fails errorSharingViolation, none⟩) 528 n 0
      [0x43, 0x3a, 0x5c, 0x64, 0x5c, 0x66] [] = none :=
    fun n => endless_of_exclusive (fun _ => rfl) hbase
  refine ⟨⟨fun _ => by decide, fun _ _ => by simp, fun _ _ _ => by simp⟩,
    fun h => ?_, hendless⟩
  obtain ⟨n, r, hr⟩ := h.ends
  exact absurd ((hr 0).symm.trans (hendless _)) (by simp)

/-! ## Mounting -/

theorem mountError_eq_success {call : LaunchCall} :
    mountError call = Launcher.errorSuccess ↔
      call.error = Launcher.errorSuccess ∧
        (call.launcherError = Launcher.errorSuccess ∨
          call.launcherError = Launcher.errorAlreadyExists) := by
  unfold mountError
  constructor
  · intro h
    split at h
    · exact absurd h (by decide)
    · next hno =>
        rw [not_or, not_not] at hno
        refine ⟨hno.1, ?_⟩
        split at h
        · next hexists => exact .inr hexists.symm
        · exact .inl h
  · rintro ⟨herror, hlauncher⟩
    have hfound : ¬ Launcher.errorFileNotFound = call.launcherError := by
      rcases hlauncher with h | h <;> rw [h] <;> decide
    rw [if_neg (by rw [not_or, not_not]; exact ⟨herror, hfound⟩)]
    rcases hlauncher with h | h
    · rw [h, if_neg (by decide)]
    · rw [h, if_pos rfl]

variable {stack : Nat} {allocated : Bool} {transact : List UInt8 → Except UInt32 (List UInt8)}

/-- When `Mount` succeeds, the launcher has started an instance of the class that
the extension names on the final path name, or has one already. -/
theorem mount_success (hdoc : DocumentedPaths calls)
    (h : mount calls stack buf allocated transact name = some Launcher.errorSuccess) :
    ∃ n path call, behindLast 0x2e 0 none name = some n ∧
      getFinalPathName calls (UInt32.ofNat sizeofPathName) stack 0 name buf =
        some (Launcher.errorSuccess, path) ∧
      (path.length + 1) * 2 ≤ sizeofPathName ∧
      spdLaunchCall allocated transact LaunchCommand.start.char
        (launchArgs [some (name.drop n ++ [0]), some (path ++ [0]), some (path ++ [0])]) []
        none = some call ∧
      call.error = Launcher.errorSuccess ∧
      (call.launcherError = Launcher.errorSuccess ∨
        call.launcherError = Launcher.errorAlreadyExists) := by
  unfold mount at h
  split at h
  · exact absurd (Option.some.inj h) (by decide)
  · next n hlast =>
      obtain ⟨⟨error, path⟩, hpath, h⟩ := Option.bind_eq_some_iff.mp h
      split at h
      · next hfailed => exact absurd (Option.some.inj h) hfailed
      · next hok =>
          obtain rfl : error = Launcher.errorSuccess := not_not.mp hok
          obtain ⟨call, hcall, h⟩ := Option.bind_eq_some_iff.mp h
          obtain ⟨herror, hlauncher⟩ := mountError_eq_success.mp (Option.some.inj h)
          exact ⟨n, path, call, hlast, hpath, (getFinalPathName_success hdoc hpath).1, hcall,
            herror, hlauncher⟩

/-- `Mount` does not return when the file and its directory cannot be opened. -/
theorem mount_endless (hall : ∀ k, Exclusive calls k) (hbase : IsDirBase name dir base)
    (hlast : behindLast 0x2e 0 none name = some n) :
    mount calls stack buf allocated transact name = none := by
  simp only [mount, hlast, endless_of_exclusive hall hbase, Option.bind_eq_bind, Option.bind_none]

end Winspd.Proofs
