import Winspd.Shared.Stgunit

/-!
# The rule of the dispatcher's loop

`dispatcherLoop` makes its calls in turns: a transact call, and when there is a
request a dispatch. `H` is what a thread's account says while it has a request
to dispatch, `J` while it has a response or none to hand over, `K` when its
loop has ended. A loop whose calls go from one to the other is safe, for as
many rounds as it makes.
-/

namespace Winspd.Proofs

open Winspd.Lib Winspd.Shared

variable {A : Type} {R : A → Type} {G β : Type} {L : Rules A R G}
  {calls : DispatcherCalls A R β} {interface : Interface}

/-- `J` and `H` know the data buffer, too. -/
theorem dispatcherLoop_buffer {J : Option Response → β → G → Prop}
    {H : Request → β → G → Prop}
    {K : G → Prop} {fuel : Nat} {response : Option Response} {dataBuffer : β} {g : G}
    (htransact : ∀ {response dataBuffer g}, J response dataBuffer g → L.Safe (fun r g =>
      (r.error ≠ 0 → K g) ∧
        (r.error = 0 → (r.req.getD .zero).req.hint = 0 → J none r.dataBuffer g) ∧
        (r.error = 0 → (r.req.getD .zero).req.hint ≠ 0 →
          H (r.req.getD .zero) r.dataBuffer g)) g
      (calls.transact response dataBuffer))
    (hdispatch : ∀ {request dataBuffer g}, H request dataBuffer g → L.Safe (fun x g =>
      J (if x.1 then some x.2.1 else none) x.2.2 g) g (dispatch calls interface request dataBuffer))
    (hforever : ∀ {response dataBuffer g}, J response dataBuffer g →
      L.Safe (fun _ => K) g calls.forever)
    (hg : J response dataBuffer g) :
    L.Safe (fun _ => K) g (dispatcherLoop calls interface fuel response dataBuffer) := by
  induction fuel generalizing response dataBuffer g with
  | zero => exact hforever hg
  | succ fuel ih =>
      refine (htransact hg).bind fun r g hr => ?_
      obtain ⟨herror, hempty, hrequest⟩ := hr
      by_cases he : r.error = 0
      · simp only [he, ne_eq, not_true_eq_false, if_false]
        by_cases hhint : (r.req.getD .zero).req.hint = 0
        · simp only [hhint, if_true]
          exact ih (hempty he hhint)
        · simp only [hhint, if_false]
          refine (hdispatch (hrequest he hhint)).bind fun x g hx => ?_
          exact ih hx
      · simp only [ne_eq, he, not_false_eq_true, if_true]
        exact herror he

theorem dispatcherLoop_safe {J : Option Response → G → Prop} {H : Request → G → Prop}
    {K : G → Prop} {fuel : Nat} {response : Option Response} {dataBuffer : β} {g : G}
    (htransact : ∀ {response g} dataBuffer, J response g → L.Safe (fun r g =>
      (r.error ≠ 0 → K g) ∧ (r.error = 0 → (r.req.getD .zero).req.hint = 0 → J none g) ∧
        (r.error = 0 → (r.req.getD .zero).req.hint ≠ 0 → H (r.req.getD .zero) g)) g
      (calls.transact response dataBuffer))
    (hdispatch : ∀ {request g} dataBuffer, H request g → L.Safe (fun x g =>
      J (if x.1 then some x.2.1 else none) g) g (dispatch calls interface request dataBuffer))
    (hforever : ∀ {response g}, J response g → L.Safe (fun _ => K) g calls.forever)
    (hg : J response g) :
    L.Safe (fun _ => K) g (dispatcherLoop calls interface fuel response dataBuffer) :=
  dispatcherLoop_buffer (J := fun response _ => J response) (H := fun request _ => H request)
    (fun hj => htransact _ hj) (fun hh => hdispatch _ hh) hforever hg

theorem dispatch_safe {J : Option Response → G → Prop} {request : Request} {dataBuffer : β}
    {g : G}
    (hoperation : ∀ call, interface.call request.req = some call →
      L.Safe (fun x g => J (if x.1 then some (responseTo request x.2.1) else none) g) g
        (calls.operation call request zeroStatus dataBuffer))
    (hinvalid : interface.call request.req = none →
      J (some (responseTo request (spdStorageUnitStatusSetIllegal zeroStatus))) g) :
    L.Safe (fun x g => J (if x.1 then some x.2.1 else none) g) g
      (dispatch calls interface request dataBuffer) := by
  unfold dispatch
  cases hcall : interface.call request.req with
  | none => exact hinvalid hcall
  | some call => exact (hoperation call hcall).bind fun x g hx => hx

end Winspd.Proofs
