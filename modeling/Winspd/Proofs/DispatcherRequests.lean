import Mathlib.Data.List.Perm.Basic
import Winspd.Proofs.DispatcherTurns

/-!
# Requests of the dispatcher

Three invariants over all threads. `TurnInv`: an account knows what its thread
has to hand over. `BufferInv`: a data buffer belongs to the thread it was
allocated for. `CountInv`: a request that was handed out has been answered, or
some thread has it in hand, or it waits for user code, and only one of these.

None of them follows from another, and each is about its own part of an account:
the turn, the buffer, the requests. They are proved in this order because a later
one uses an earlier: that a buffer is its thread's needs the numbers of the threads
to differ, and a request is counted by the turn of the thread that has it in hand.
-/

namespace Winspd.Proofs

open Winspd.Lib Winspd.Sys Winspd.Shared

variable {interface : Interface} {ls : List DispatcherEvent} {ev : DispatcherEvent}
  {s s' : DispatcherUnit} {g g' : AnswerAccount} {gs gs' : List AnswerAccount}
  {a : DispatcherAction} {r : a.Answer} {t id : Nat}

namespace AnswerAccount

def number : AnswerAccount → Option Nat
  | .thread self _ _ => some self
  | _ => none

def owns : AnswerAccount → Option (Nat × Nat)
  | .thread self (some dataBuffer) _ => some (self, dataBuffer)
  | _ => none

def held : AnswerAccount → Option Nat
  | .answering request _ | .thread _ _ (.got request) => some request.origin.id
  | .thread _ _ (.owes response) => some response.origin.id
  | _ => none

end AnswerAccount

/-! ## Turns -/

structure TurnInv (interface : Interface) (ls : List DispatcherEvent) (s : DispatcherUnit)
    (gs : List AnswerAccount) : Prop where
  unborn : ∀ t, s.next ≤ t → s.status t = .none
  numbers : (gs.filterMap AnswerAccount.number).Nodup
  running : ∀ g ∈ gs, ∀ t, g.number = some t → s.status t = .running
  turns : ∀ g ∈ gs, ∀ t b turn, g = .thread t b turn → loopTurn interface t ls = turn
  /-- A thread that has not begun has done nothing. -/
  fresh : ∀ t, s.status t ≠ .running → s.status t ≠ .ended →
    loopTurn interface t ls = .empty

namespace TurnInv

theorem perm (hperm : gs.Perm gs') (h : TurnInv interface ls s gs) :
    TurnInv interface ls s gs' where
  unborn := h.unborn
  numbers := (hperm.filterMap _).nodup_iff.mp h.numbers
  running g hg := h.running g (hperm.mem_iff.mpr hg)
  turns g hg := h.turns g (hperm.mem_iff.mpr hg)
  fresh := h.fresh

theorem cons_user (hg : g.number = none) :
    TurnInv interface ls s (g :: gs) ↔ TurnInv interface ls s gs := by
  have hnumbers : (g :: gs).filterMap AnswerAccount.number = gs.filterMap AnswerAccount.number :=
    List.filterMap_cons_none hg
  constructor
  · intro h
    exact ⟨h.unborn, hnumbers ▸ h.numbers, fun k hk => h.running k (List.mem_cons_of_mem _ hk),
      fun k hk => h.turns k (List.mem_cons_of_mem _ hk), h.fresh⟩
  · intro h
    refine ⟨h.unborn, hnumbers ▸ h.numbers,
      List.forall_mem_cons.mpr ⟨fun t ht => ?_, h.running⟩,
      List.forall_mem_cons.mpr ⟨fun t b turn heq => ?_, h.turns⟩, h.fresh⟩
    · rw [hg] at ht
      cases ht
    · rw [heq] at hg
      cases hg

theorem other (h : TurnInv interface ls s (g :: gs)) (hg : g.number = some t) :
    ∀ k ∈ gs, k.number ≠ some t := by
  intro k hk hkt
  have hnumbers := h.numbers
  rw [List.filterMap_cons_some hg] at hnumbers
  exact (List.nodup_cons.mp hnumbers).1 (List.mem_filterMap.mpr ⟨k, hk, hkt⟩)

theorem quiet (h : TurnInv interface ls s gs)
    (hturn : ∀ t turn, LoopTurn.next interface t turn ev = turn)
    (hstatus : ∀ t, s.status t = .running ∨ s.status t = .ended → s'.status t = s.status t)
    (hunborn : ∀ t, s'.next ≤ t → s'.status t = .none) :
    TurnInv interface (ls ++ [ev]) s' gs where
  unborn := hunborn
  numbers := h.numbers
  running g hg t ht := by
    have hrunning := h.running g hg t ht
    rw [hstatus t (.inl hrunning), hrunning]
  turns g hg t b turn heq := by
    rw [loopTurn_snoc, hturn]
    exact h.turns g hg t b turn heq
  fresh t hrunning hended := by
    rw [loopTurn_snoc, hturn]
    refine h.fresh t (fun hr => ?_) fun he => ?_
    · exact hrunning ((hstatus t (.inl hr)).trans hr)
    · exact hended ((hstatus t (.inr he)).trans he)

theorem rebuffer {b : Option Nat} {turn : LoopTurn} (b' : Option Nat)
    (h : TurnInv interface ls s (.thread t b turn :: gs)) :
    TurnInv interface ls s (.thread t b' turn :: gs) where
  unborn := h.unborn
  numbers := h.numbers
  running := List.forall_mem_cons.mpr
    ⟨h.running (.thread t b turn) List.mem_cons_self,
      fun k hk => h.running k (List.mem_cons_of_mem _ hk)⟩
  turns := List.forall_mem_cons.mpr ⟨fun t' b'' turn' heq => by
    cases heq
    exact h.turns _ List.mem_cons_self t b turn rfl,
    fun k hk => h.turns k (List.mem_cons_of_mem _ hk)⟩
  fresh := h.fresh

theorem go {b : Option Nat} {turn turn' : LoopTurn}
    (h : TurnInv interface ls s (.thread t b turn :: gs)) (hnext : s'.next = s.next)
    (hstatus : s'.status = s.status)
    (hturn : LoopTurn.next interface t turn ev = turn')
    (hothers : ∀ t' turn, t' ≠ t → LoopTurn.next interface t' turn ev = turn) :
    TurnInv interface (ls ++ [ev]) s' (.thread t b turn' :: gs) where
  unborn t' ht' := by
    rw [hstatus]
    exact h.unborn t' (hnext ▸ ht')
  numbers := h.numbers
  running := by
    rw [hstatus]
    exact List.forall_mem_cons.mpr
      ⟨h.running (.thread t b turn) List.mem_cons_self,
      fun k hk => h.running k (List.mem_cons_of_mem _ hk)⟩
  turns := by
    refine List.forall_mem_cons.mpr ⟨fun t' b' turn'' heq => ?_,
      fun k hk t' b' turn'' heq => ?_⟩
    · cases heq
      rw [loopTurn_snoc, h.turns _ List.mem_cons_self t b turn rfl, hturn]
    · have hne : t' ≠ t := fun heq' =>
        h.other rfl k hk (by rw [heq, heq']; rfl)
      rw [loopTurn_snoc, hothers t' _ hne]
      exact h.turns k (List.mem_cons_of_mem _ hk) t' b' turn'' heq
  fresh t' hrunning hended := by
    rw [hstatus] at hrunning hended
    have hne : t' ≠ t := fun heq => by
      subst heq
      exact hrunning (h.running _ List.mem_cons_self t' rfl)
    rw [loopTurn_snoc, hothers t' _ hne]
    exact h.fresh t' hrunning hended

theorem begin (h : TurnInv interface ls s (.user :: gs)) (hready : s.status t = .ready) :
    TurnInv interface (ls ++ [.act .begin t]) (s.setStatus t .running)
      (.thread t none .empty :: gs) := by
  have hnew : ∀ k ∈ gs, k.number ≠ some t := fun k hk hkt => by
    have hrunning := h.running k (List.mem_cons_of_mem _ hk) t hkt
    rw [hready] at hrunning
    cases hrunning
  have hothers : ∀ t', t' ≠ t → (s.setStatus t .running).status t' = s.status t' :=
    fun t' hne => Function.update_of_ne hne ..
  have hself : (s.setStatus t .running).status t = .running := Function.update_self ..
  have hrest := (cons_user rfl).mp h
  refine ⟨fun t' ht' => ?_, List.nodup_cons.mpr ⟨fun hmem => ?_, hrest.numbers⟩,
    List.forall_mem_cons.mpr ⟨fun t' ht' => ?_, fun k hk t' ht' => ?_⟩,
    List.forall_mem_cons.mpr ⟨fun t' b turn heq => ?_, fun k hk t' b turn heq => ?_⟩,
    fun t' hrunning hended => ?_⟩
  · have hnone := h.unborn t' ht'
    rw [hothers t' fun heq => by rw [heq, hready] at hnone; cases hnone]
    exact hnone
  · obtain ⟨k, hk, hkt⟩ := List.mem_filterMap.mp hmem
    exact hnew k hk hkt
  · cases ht'
    exact hself
  · rw [hothers t' fun heq => hnew k hk (heq ▸ ht')]
    exact hrest.running k hk t' ht'
  · cases heq
    rw [loopTurn_snoc]
    exact h.fresh t (by rw [hready]; nofun) (by rw [hready]; nofun)
  · rw [loopTurn_snoc]
    exact hrest.turns k hk t' b turn heq
  · have hne : t' ≠ t := fun heq => hrunning (heq ▸ hself)
    rw [hothers t' hne] at hrunning hended
    rw [loopTurn_snoc]
    exact h.fresh t' hrunning hended

theorem endThread {b : Option Nat} {turn : LoopTurn}
    (h : TurnInv interface ls s (.thread t b turn :: gs)) :
    TurnInv interface (ls ++ [.act (.endThread t) ()]) (s.setStatus t .ended) (.user :: gs) := by
  have hrunning := h.running _ List.mem_cons_self t rfl
  have hothers : ∀ t', t' ≠ t → (s.setStatus t .ended).status t' = s.status t' :=
    fun t' hne => Function.update_of_ne hne ..
  refine (cons_user rfl).mpr ⟨fun t' ht' => ?_, ?_, fun k hk t' ht' => ?_,
    fun k hk t' b turn heq => ?_, fun t' hr he => ?_⟩
  · have hnone := h.unborn t' ht'
    rw [hothers t' fun heq => by rw [heq, hrunning] at hnone; cases hnone]
    exact hnone
  · exact h.numbers.sublist ((List.sublist_cons_self _ gs).filterMap _)
  · rw [hothers t' fun heq => h.other rfl k hk (heq ▸ ht')]
    exact h.running k (List.mem_cons_of_mem _ hk) t' ht'
  · rw [loopTurn_snoc]
    exact h.turns k (List.mem_cons_of_mem _ hk) t' b turn heq
  · have hne : t' ≠ t := fun heq => he (heq ▸ Function.update_self ..)
    rw [hothers t' hne] at hr he
    rw [loopTurn_snoc]
    exact h.fresh t' hr he

theorem setStatus {status status' : ThreadStatus} (h : TurnInv interface ls s gs)
    (hstatus : s.status t = status) (hnot : status ≠ .running ∧ status ≠ .ended)
    (hturn : ∀ t turn, LoopTurn.next interface t turn ev = turn)
    (hs' : s'.status = Function.update s.status t status') (hnext : s.next ≤ s'.next)
    (hborn : t < s'.next) : TurnInv interface (ls ++ [ev]) s' gs := by
  refine h.quiet hturn (fun t' ht' => ?_) fun t' ht' => ?_
  · have hne : t' ≠ t := fun heq => by
      rw [heq, hstatus] at ht'
      exact ht'.elim hnot.1 hnot.2
    rw [hs', Function.update_of_ne hne]
  · rw [hs', Function.update_of_ne (by omega)]
    exact h.unborn t' (by omega)

theorem exec (h : TurnInv interface ls s (g :: gs)) (hmay : g.May interface a)
    (hexec : a.Exec s r s') :
    TurnInv interface (ls ++ [.act a r]) s' (AnswerAccount.track interface a r g :: gs) := by
  have heffect := exec_dispatcherEffect hexec
  cases a with
  | wait => exact absurd heffect id
  | begin =>
      obtain rfl : g = .user := hmay
      obtain ⟨hready, rfl⟩ := heffect
      exact h.begin hready
  | endThread self =>
      obtain ⟨b, rfl⟩ : g.Idle self := hmay
      obtain rfl := heffect
      exact h.endThread
  | transact self response dataBuffer =>
      obtain ⟨turn, rfl, -, -⟩ : ∃ turn, g = .thread self (some dataBuffer) turn ∧
          _ ∧ _ := hmay
      obtain ⟨error, req⟩ := r
      have hsame : s'.next = s.next ∧ s'.status = s.status := by
        obtain ⟨q, -, -, rfl⟩ | ⟨-, rfl⟩ : (∃ q, _ ∧ _ ∧ s' = _) ∨ _ := heffect
        · exact ⟨rfl, rfl⟩
        · exact ⟨rfl, rfl⟩
      exact h.go hsame.1 hsame.2 (if_pos rfl) fun t' turn hne => if_neg hne.symm
  | operation self call request status dataBuffer =>
      obtain ⟨rfl, -, -⟩ : g = .thread self (some dataBuffer) (.got request) ∧ _ ∧ _ := hmay
      obtain ⟨complete, status⟩ := r
      obtain rfl : s' = _ := heffect
      exact h.go rfl rfl (if_pos rfl) fun t' turn hne => if_neg hne.symm
  | bufferAlloc self =>
      obtain rfl : g = .thread self none .empty := hmay
      have hsame : s'.next = s.next ∧ s'.status = s.status := by
        cases r with
        | none =>
            obtain rfl := heffect
            exact ⟨rfl, rfl⟩
        | some b =>
            obtain ⟨-, rfl⟩ := heffect
            exact ⟨rfl, rfl⟩
      exact (h.rebuffer r).quiet (fun _ _ => rfl) (fun t _ => by rw [hsame.2])
        fun t ht => by rw [hsame.2]; exact h.unborn t (hsame.1 ▸ ht)
  | bufferFree b =>
      obtain ⟨self, rfl⟩ : ∃ self, g = .thread self b .empty := hmay
      obtain rfl := heffect
      exact (h.rebuffer none).quiet (fun _ _ => rfl) (fun _ _ => rfl) h.unborn
  | createFirstThread | createThread =>
      cases r with
      | ok thread =>
          obtain ⟨rfl, rfl⟩ := heffect
          exact h.setStatus (h.unborn _ (Nat.le_refl _)) ⟨nofun, nofun⟩ (fun _ _ => rfl) rfl
            (Nat.le_succ _) (Nat.lt_succ_self _)
      | error error =>
          obtain rfl := heffect
          exact h.quiet (fun _ _ => rfl) (fun _ _ => rfl) h.unborn
  | resumeThread thread =>
      obtain rfl | ⟨hsuspended, rfl⟩ : s' = s ∨ _ := heffect
      · exact h.quiet (fun _ _ => rfl) (fun _ _ => rfl) h.unborn
      · have hborn : thread < s.next := Nat.lt_of_not_le fun hle => by
          rw [h.unborn thread hle] at hsuspended
          cases hsuspended
        exact h.setStatus hsuspended ⟨nofun, nofun⟩ (fun _ _ => rfl) rfl (Nat.le_refl _) hborn
  | takePending =>
      obtain rfl : g = .user := hmay
      obtain ⟨index, -, rfl⟩ := heffect
      exact (cons_user rfl).mpr (((cons_user rfl).mp h).quiet (fun _ _ => rfl) (fun _ _ => rfl)
        h.unborn)
  | sendResponse response dataBuffer =>
      obtain ⟨request, status, rfl, -⟩ :
          ∃ request status, g = .answering request status ∧ _ := hmay
      obtain rfl := heffect
      exact (cons_user rfl).mpr (((cons_user rfl).mp h).quiet (fun _ _ => rfl) (fun _ _ => rfl)
        h.unborn)
  | readThreadCount | readThreadId | waitThread =>
      obtain ⟨rfl, -⟩ := heffect
      exact h.quiet (fun _ _ => rfl) (fun _ _ => rfl) h.unborn
  | _ =>
      obtain rfl := heffect
      exact h.quiet (fun _ _ => rfl) (fun _ _ => rfl) h.unborn

end TurnInv

/-! ## Data buffers -/

/-- Who has a data buffer, when an event is about it. -/
def bufferMark (dataBuffer : Nat) : DispatcherEvent → Option (Option Nat)
  | .act (.bufferAlloc self) (some b) => if b = dataBuffer then some (some self) else none
  | .act (.bufferFree b) _ => if b = some dataBuffer then some none else none
  | _ => none

/-- About threads and their data buffers. -/
structure BufferInv (ls : List DispatcherEvent) (s : DispatcherUnit) (xs : List (Nat × Nat)) :
    Prop where
  differ : (xs.map Prod.snd).Nodup
  owned : ∀ x ∈ xs, x.2 ∈ s.buffers ∧ LastIs (bufferMark x.2) ls (some x.1)

namespace BufferInv

variable {xs xs' : List (Nat × Nat)}

theorem perm (hperm : xs.Perm xs') (h : BufferInv ls s xs) : BufferInv ls s xs' where
  differ := (hperm.map _).nodup_iff.mp h.differ
  owned x hx := h.owned x (hperm.mem_iff.mpr hx)

theorem sublist (hsub : xs'.Sublist xs) (h : BufferInv ls s xs) : BufferInv ls s xs' where
  differ := h.differ.sublist (hsub.map _)
  owned x hx := h.owned x (hsub.subset hx)

theorem quiet (h : BufferInv ls s xs) (hev : ∀ b, bufferMark b ev = none)
    (hbuffers : s'.buffers = s.buffers) : BufferInv (ls ++ [ev]) s' xs where
  differ := h.differ
  owned x hx := by
    rw [hbuffers]
    exact ⟨(h.owned x hx).1, (h.owned x hx).2.keep (hev x.2)⟩

theorem alloc {b : Nat} (h : BufferInv ls s xs) (hfresh : b ∉ s.buffers) :
    BufferInv (ls ++ [.act (.bufferAlloc t) (some b)]) { s with buffers := b :: s.buffers }
      ((t, b) :: xs) where
  differ := by
    refine List.nodup_cons.mpr ⟨fun hmem => ?_, h.differ⟩
    obtain ⟨x, hx, rfl⟩ := List.mem_map.mp hmem
    exact hfresh (h.owned x hx).1
  owned := by
    refine List.forall_mem_cons.mpr ⟨⟨List.mem_cons_self, .last (if_pos rfl)⟩,
      fun x hx => ?_⟩
    obtain ⟨hmem, hlast⟩ := h.owned x hx
    refine ⟨List.mem_cons_of_mem _ hmem, hlast.keep (if_neg fun heq => ?_)⟩
    subst heq
    exact hfresh hmem

theorem free {b : Option Nat} (h : BufferInv ls s xs) (hb : ∀ x ∈ xs, b ≠ some x.2) :
    BufferInv (ls ++ [.act (.bufferFree b) ()])
      { s with buffers := s.buffers.filter fun b' => some b' ≠ b } xs where
  differ := h.differ
  owned x hx := by
    obtain ⟨hmem, hlast⟩ := h.owned x hx
    refine ⟨List.mem_filter.mpr ⟨hmem, decide_eq_true (hb x hx).symm⟩, ?_⟩
    exact hlast.keep (if_neg (hb x hx))

theorem exec (h : BufferInv ls s ((g :: gs).filterMap AnswerAccount.owns))
    (hmay : g.May interface a) (hexec : a.Exec s r s') :
    BufferInv (ls ++ [.act a r]) s'
      ((AnswerAccount.track interface a r g :: gs).filterMap AnswerAccount.owns) := by
  have heffect := exec_dispatcherEffect hexec
  cases a with
  | wait => exact absurd heffect id
  | bufferAlloc self =>
      obtain rfl : g = .thread self none .empty := hmay
      cases r with
      | none =>
          obtain rfl := heffect
          exact h.quiet (fun _ => rfl) rfl
      | some b =>
          obtain ⟨hfresh, rfl⟩ := heffect
          exact h.alloc hfresh
  | bufferFree b =>
      obtain ⟨self, rfl⟩ : ∃ self, g = .thread self b .empty := hmay
      obtain rfl := heffect
      cases b with
      | none => exact h.free fun _ _ => nofun
      | some b =>
          -- nobody else has it
          have hrest := h.sublist (List.sublist_cons_self _ _)
          refine hrest.free fun x hx heq => ?_
          cases heq
          exact (List.nodup_cons.mp h.differ).1 (List.mem_map.mpr ⟨x, hx, rfl⟩)
  | begin =>
      obtain rfl : g = .user := hmay
      obtain ⟨-, rfl⟩ := heffect
      exact h.quiet (fun _ => rfl) rfl
  | endThread self =>
      obtain ⟨b, rfl⟩ : g.Idle self := hmay
      obtain rfl := heffect
      cases b with
      | none => exact h.quiet (fun _ => rfl) rfl
      | some b => exact (h.sublist (List.sublist_cons_self _ _)).quiet (fun _ => rfl) rfl
  | transact self response dataBuffer =>
      obtain ⟨turn, rfl, -, -⟩ : ∃ turn, g = .thread self (some dataBuffer) turn ∧
          _ ∧ _ := hmay
      obtain ⟨q, -, -, rfl⟩ | ⟨-, rfl⟩ : (∃ q, _ ∧ _ ∧ s' = _) ∨ _ := heffect
      · exact h.quiet (fun _ => rfl) rfl
      · exact h.quiet (fun _ => rfl) rfl
  | operation self call request status dataBuffer =>
      obtain ⟨rfl, -, -⟩ : g = .thread self (some dataBuffer) (.got request) ∧ _ ∧ _ := hmay
      obtain rfl : s' = _ := heffect
      exact h.quiet (fun _ => rfl) rfl
  | createFirstThread | createThread =>
      cases r with
      | ok thread =>
          obtain ⟨rfl, rfl⟩ := heffect
          exact h.quiet (fun _ => rfl) rfl
      | error error =>
          obtain rfl := heffect
          exact h.quiet (fun _ => rfl) rfl
  | resumeThread thread =>
      obtain rfl | ⟨-, rfl⟩ : s' = s ∨ _ := heffect
      · exact h.quiet (fun _ => rfl) rfl
      · exact h.quiet (fun _ => rfl) rfl
  | takePending =>
      obtain rfl : g = .user := hmay
      obtain ⟨index, -, rfl⟩ := heffect
      exact h.quiet (fun _ => rfl) rfl
  | sendResponse response dataBuffer =>
      obtain ⟨request, status, rfl, -⟩ :
          ∃ request status, g = .answering request status ∧ _ := hmay
      obtain rfl := heffect
      exact h.quiet (fun _ => rfl) rfl
  | readThreadCount | readThreadId | waitThread =>
      obtain ⟨rfl, -⟩ := heffect
      exact h.quiet (fun _ => rfl) rfl
  | _ =>
      obtain rfl := heffect
      exact h.quiet (fun _ => rfl) rfl

end BufferInv

/-! ## Requests -/

/-- The number of a request that is handed out. -/
def receiveMark : DispatcherEvent → Option Nat
  | .act (.transact ..) (error, req) =>
      if error = 0 ∧ (req.getD .zero).req.hint ≠ 0 then
        some (req.getD .zero).origin.id
      else none
  | _ => none

/-- The number of the request that a response is for. -/
def answerMark : DispatcherEvent → Option Nat
  | .act (.transact _ response _) _ => response.map fun response => response.origin.id
  | .act (.sendResponse response _) _ => some response.origin.id
  | _ => none

/-- A request whose operation returns `FALSE`. -/
def falseMark : DispatcherEvent → Option Request
  | .act (.operation _ _ request _ _) (complete, _) => if complete then none else some request
  | _ => none

def takenMark : DispatcherEvent → Option Request
  | .act .takePending x => some x.1
  | _ => none

/-- How many times a request waits for user code. -/
def waiting (s : DispatcherUnit) (id : Nat) : Nat := tally (fun q => some q.origin.id) s.pending id

structure CountInv (ls : List DispatcherEvent) (s : DispatcherUnit) (gs : List AnswerAccount) :
    Prop where
  counts : ∀ id, tally receiveMark ls id =
    tally answerMark ls id + tally AnswerAccount.held gs id + waiting s id
  once : ∀ id, tally receiveMark ls id ≤ 1
  fresh : ∀ id, s.nextRequest ≤ id → tally receiveMark ls id = 0
  pending : ∀ q, tally falseMark ls q = tally some s.pending q + tally takenMark ls q
  answering : ∀ q status, .answering q status ∈ gs → 0 < tally takenMark ls q

namespace CountInv

theorem perm (hperm : gs.Perm gs') (h : CountInv ls s gs) : CountInv ls s gs' where
  counts id := by
    rw [← tally_perm hperm]
    exact h.counts id
  once := h.once
  fresh := h.fresh
  pending := h.pending
  answering q status hmem := h.answering q status (hperm.mem_iff.mpr hmem)

theorem cons_user : CountInv ls s (.user :: gs) ↔ CountInv ls s gs := by
  have htally : ∀ id, tally AnswerAccount.held (.user :: gs) id =
      tally AnswerAccount.held gs id := fun id => by
    rw [tally_cons, if_neg nofun, Nat.add_zero]
  constructor
  · intro h
    exact { h with
      counts := fun id => htally id ▸ h.counts id
      answering := fun q status hmem => h.answering q status (List.mem_cons_of_mem _ hmem) }
  · intro h
    refine { h with
      counts := fun id => (htally id).symm ▸ h.counts id
      answering := fun q status hmem => ?_ }
    rcases List.mem_cons.mp hmem with heq | hmem
    · cases heq
    · exact h.answering q status hmem

theorem quiet (h : CountInv ls s (g :: gs)) (hheld : g'.held = g.held)
    (hanswering : ∀ q status, g' = .answering q status → g = .answering q status)
    (hreceive : receiveMark ev = none) (hanswer : answerMark ev = none)
    (hfalse : falseMark ev = none) (htaken : takenMark ev = none)
    (hpending : s'.pending = s.pending) (hnext : s'.nextRequest = s.nextRequest) :
    CountInv (ls ++ [ev]) s' (g' :: gs) where
  counts id := by
    have hcounts := h.counts id
    rw [tally_cons] at hcounts
    rw [tally_snoc, tally_snoc, tally_cons, hreceive, hanswer, if_neg nofun, hheld,
      waiting, hpending,
      Nat.add_zero, Nat.add_zero]
    exact hcounts
  once id := by
    rw [tally_snoc, hreceive, if_neg nofun]
    exact h.once id
  fresh id hid := by
    rw [tally_snoc, hreceive, if_neg nofun]
    exact h.fresh id (hnext ▸ hid)
  pending q := by
    rw [tally_snoc, tally_snoc, hfalse, htaken, if_neg nofun, hpending]
    exact h.pending q
  answering q status hmem := by
    rw [tally_snoc, htaken, if_neg nofun]
    rcases List.mem_cons.mp hmem with heq | hmem
    · exact h.answering q status (hanswering q status heq.symm ▸ List.mem_cons_self)
    · exact h.answering q status (List.mem_cons_of_mem _ hmem)

theorem move (h : CountInv ls s (g :: gs))
    (hmove : ∀ id, (if receiveMark ev = some id then 1 else 0) +
        (if g.held = some id then 1 else 0) + waiting s id =
      (if answerMark ev = some id then 1 else 0) + (if g'.held = some id then 1 else 0) +
        waiting s' id) (id : Nat) :
    tally receiveMark (ls ++ [ev]) id = tally answerMark (ls ++ [ev]) id +
      tally AnswerAccount.held (g' :: gs) id + waiting s' id := by
  have hcounts := h.counts id
  have hid := hmove id
  rw [tally_cons] at hcounts
  rw [tally_snoc, tally_snoc, tally_cons]
  omega

/-- A transact call hands over what is due, and brings what is next. -/
theorem transact {b : Option Nat} {turn : LoopTurn} {self dataBuffer : Nat} {error : UInt32}
    {req : Option Request} (h : CountInv ls s (.thread t b turn :: gs))
    (hgot : ∀ request, turn ≠ .got request)
    (hreq : (∃ q, error = 0 ∧ req = some ⟨q, ⟨0, s.nextRequest⟩⟩ ∧
      s' = { s with nextRequest := s.nextRequest + 1 }) ∨ req = none ∧ s' = s) :
    CountInv (ls ++ [.act (.transact self turn.due dataBuffer) (error, req)]) s'
      (.thread t b (.afterTransact interface error req) :: gs) := by
  have hheld : (AnswerAccount.thread t b turn).held = turn.due.map fun rsp => rsp.origin.id := by
    cases turn with
    | got request => exact absurd rfl (hgot request)
    | empty | owes => rfl
  have hheld' : (AnswerAccount.thread t b (.afterTransact interface error req)).held =
      receiveMark (.act (.transact self turn.due dataBuffer) (error, req)) := by
    unfold LoopTurn.afterTransact receiveMark
    by_cases he : error = 0
    · by_cases hhint : (req.getD .zero).req.hint = 0
      · simp [he, hhint, AnswerAccount.held]
      · by_cases hcall : interface.call (req.getD .zero).req = none
        · simp [he, hhint, hcall, AnswerAccount.held, responseTo]
        · simp [he, hhint, hcall, AnswerAccount.held]
    · simp [he, AnswerAccount.held]
  have hpending : s'.pending = s.pending := by
    obtain ⟨q, -, -, rfl⟩ | ⟨-, rfl⟩ := hreq
    · rfl
    · rfl
  -- a request that comes has a new number
  have hnew : ∀ id, receiveMark (.act (.transact self turn.due dataBuffer) (error, req)) =
      some id → id = s.nextRequest ∧ s'.nextRequest = s.nextRequest + 1 := fun id hid => by
    obtain ⟨q, rfl, rfl, rfl⟩ | ⟨rfl, -⟩ := hreq
    · simp only [receiveMark] at hid
      split at hid
      · cases hid
        exact ⟨rfl, rfl⟩
      · cases hid
    · simp [receiveMark, Request.zero, SpdIoctlTransactReq.zero] at hid
  have hnext : s.nextRequest ≤ s'.nextRequest := by
    obtain ⟨q, -, -, rfl⟩ | ⟨-, rfl⟩ := hreq
    · exact Nat.le_succ _
    · exact Nat.le_refl _
  refine ⟨h.move fun id => ?_, fun id => ?_, fun id hid => ?_, fun q => ?_,
    fun q status hmem => ?_⟩
  · rw [hheld, hheld', waiting, waiting, hpending]
    show _ + (if turn.due.map _ = some id then 1 else 0) + _ =
      (if turn.due.map _ = some id then 1 else 0) + _ + _
    omega
  · have honce := h.once id
    rw [tally_snoc]
    split
    · next hid =>
        have hzero := h.fresh id (Nat.le_of_eq (hnew id hid).1.symm)
        omega
    · omega
  · have hzero := h.fresh id (Nat.le_trans hnext hid)
    rw [tally_snoc, hzero, if_neg]
    intro heq
    obtain ⟨rfl, hsucc⟩ := hnew id heq
    omega
  · rw [tally_snoc, tally_snoc, if_neg nofun, if_neg nofun, hpending]
    exact h.pending q
  · rw [tally_snoc, if_neg nofun]
    rcases List.mem_cons.mp hmem with heq | hmem
    · cases heq
    · exact h.answering q status (List.mem_cons_of_mem _ hmem)

theorem operation {b : Option Nat} {self dataBuffer : Nat} {call : OperationCall}
    {request : Request} {status status' : StorageUnitStatus} {complete : Bool}
    (h : CountInv ls s (.thread t b (.got request) :: gs)) :
    CountInv (ls ++ [.act (.operation self call request status dataBuffer) (complete, status')])
      { s with pending := if complete then s.pending else request :: s.pending }
      (.thread t b (.afterOperation request complete status') :: gs) := by
  refine ⟨h.move fun id => ?_, fun id => ?_, fun id hid => ?_, fun q => ?_,
    fun q status hmem => ?_⟩
  · cases complete with
    | true => rfl
    | false =>
        show 0 + (if some request.origin.id = some id then 1 else 0) + _ =
          0 + 0 + tally (fun q => some q.origin.id) (request :: s.pending) id
        rw [tally_cons]
        simp only [waiting]
        omega
  · rw [tally_snoc]
    exact h.once id
  · rw [tally_snoc]
    exact h.fresh id hid
  · have hpending := h.pending q
    cases complete with
    | true =>
        rw [tally_snoc, tally_snoc]
        exact hpending
    | false =>
        show tally falseMark (ls ++ _) q = tally some (request :: s.pending) q + _
        rw [tally_snoc, tally_snoc, tally_cons]
        show tally falseMark ls q + (if some request = some q then 1 else 0) =
          tally some s.pending q + (if some request = some q then 1 else 0) +
            (tally takenMark ls q + 0)
        omega
  · rw [tally_snoc]
    rcases List.mem_cons.mp hmem with heq | hmem
    · cases heq
    · exact h.answering q status (List.mem_cons_of_mem _ hmem)

theorem takePending {index : Nat} {x : Request × StorageUnitStatus × Option Nat}
    (h : CountInv ls s (.user :: gs)) (hindex : s.pending[index]? = some x.1) :
    CountInv (ls ++ [.act .takePending x]) { s with pending := s.pending.eraseIdx index }
      (.answering x.1 x.2.1 :: gs) := by
  obtain ⟨hlt, hget⟩ := List.getElem?_eq_some_iff.mp hindex
  have hperm : s.pending.Perm (x.1 :: s.pending.eraseIdx index) := by
    rw [← hget]
    exact (List.getElem_cons_eraseIdx_perm hlt).symm
  refine ⟨h.move fun id => ?_, fun id => ?_, fun id hid => ?_, fun q => ?_,
    fun q status hmem => ?_⟩
  · show 0 + 0 + tally _ s.pending id = 0 + (if some x.1.origin.id = some id then 1 else 0) +
      tally _ (s.pending.eraseIdx index) id
    rw [tally_perm hperm, tally_cons]
    omega
  · rw [tally_snoc]
    exact h.once id
  · rw [tally_snoc]
    exact h.fresh id hid
  · have hpending := h.pending q
    rw [tally_perm hperm, tally_cons] at hpending
    rw [tally_snoc, tally_snoc]
    show tally falseMark ls q + 0 = tally some (s.pending.eraseIdx index) q +
      (tally takenMark ls q + if some x.1 = some q then 1 else 0)
    omega
  · rw [tally_snoc]
    rcases List.mem_cons.mp hmem with heq | hmem
    · cases heq
      show 0 < _ + if some x.1 = some x.1 then 1 else 0
      rw [if_pos rfl]
      omega
    · have hpos := h.answering q status (List.mem_cons_of_mem _ hmem)
      omega

theorem sendResponse {request : Request} {status : StorageUnitStatus} {b : Option Nat}
    {error : UInt32} (h : CountInv ls s (.answering request status :: gs)) :
    CountInv (ls ++ [.act (.sendResponse (responseTo request status) b) error]) s
      (.user :: gs) := by
  refine ⟨h.move fun id => ?_, fun id => ?_, fun id hid => ?_, fun q => ?_,
    fun q status hmem => ?_⟩
  · show 0 + (if some request.origin.id = some id then 1 else 0) + _ =
      (if some request.origin.id = some id then 1 else 0) + 0 + _
    omega
  · rw [tally_snoc]
    exact h.once id
  · rw [tally_snoc]
    exact h.fresh id hid
  · rw [tally_snoc, tally_snoc]
    exact h.pending q
  · rw [tally_snoc]
    rcases List.mem_cons.mp hmem with heq | hmem
    · cases heq
    · exact h.answering q status (List.mem_cons_of_mem _ hmem)

theorem exec (h : CountInv ls s (g :: gs)) (hmay : g.May interface a) (hexec : a.Exec s r s') :
    CountInv (ls ++ [.act a r]) s' (AnswerAccount.track interface a r g :: gs) := by
  have heffect := exec_dispatcherEffect hexec
  have hsame : ∀ q status, g = .answering q status → g = .answering q status := fun _ _ h => h
  cases a with
  | wait => exact absurd heffect id
  | transact self response dataBuffer =>
      obtain ⟨turn, rfl, rfl, hgot⟩ :
          ∃ turn, g = .thread self (some dataBuffer) turn ∧ _ ∧ _ :=
        hmay
      exact h.transact hgot heffect
  | operation self call request status dataBuffer =>
      obtain ⟨rfl, -, -⟩ : g = .thread self (some dataBuffer) (.got request) ∧ _ ∧ _ := hmay
      obtain rfl : s' = _ := heffect
      exact h.operation
  | takePending =>
      obtain rfl : g = .user := hmay
      obtain ⟨index, hindex, rfl⟩ := heffect
      exact h.takePending hindex
  | sendResponse response dataBuffer =>
      obtain ⟨request, status, rfl, rfl⟩ :
          ∃ request status, g = .answering request status ∧ _ :=
        hmay
      obtain rfl := heffect
      exact h.sendResponse
  | bufferAlloc self =>
      obtain rfl : g = .thread self none .empty := hmay
      cases r with
      | none =>
          obtain rfl := heffect
          exact h.quiet rfl nofun rfl rfl rfl rfl rfl rfl
      | some b =>
          obtain ⟨-, rfl⟩ := heffect
          exact h.quiet rfl nofun rfl rfl rfl rfl rfl rfl
  | bufferFree b =>
      obtain ⟨self, rfl⟩ : ∃ self, g = .thread self b .empty := hmay
      obtain rfl := heffect
      exact h.quiet rfl nofun rfl rfl rfl rfl rfl rfl
  | begin =>
      obtain rfl : g = .user := hmay
      obtain ⟨-, rfl⟩ := heffect
      exact h.quiet rfl nofun rfl rfl rfl rfl rfl rfl
  | endThread self =>
      obtain ⟨b, rfl⟩ : g.Idle self := hmay
      obtain rfl := heffect
      exact h.quiet rfl nofun rfl rfl rfl rfl rfl rfl
  | createFirstThread | createThread =>
      cases r with
      | ok thread =>
          obtain ⟨rfl, rfl⟩ := heffect
          exact h.quiet rfl hsame rfl rfl rfl rfl rfl rfl
      | error error =>
          obtain rfl := heffect
          exact h.quiet rfl hsame rfl rfl rfl rfl rfl rfl
  | resumeThread thread =>
      obtain rfl | ⟨-, rfl⟩ : s' = s ∨ _ := heffect
      · exact h.quiet rfl hsame rfl rfl rfl rfl rfl rfl
      · exact h.quiet rfl hsame rfl rfl rfl rfl rfl rfl
  | readThreadCount | readThreadId | waitThread =>
      obtain ⟨rfl, -⟩ := heffect
      exact h.quiet rfl hsame rfl rfl rfl rfl rfl rfl
  | _ =>
      obtain rfl := heffect
      exact h.quiet rfl hsame rfl rfl rfl rfl rfl rfl

end CountInv

end Winspd.Proofs
