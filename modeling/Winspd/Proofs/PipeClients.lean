import Winspd.Proofs.PipeActions
import Winspd.Proofs.PipeRequests

/-!
# Who gets a response

Every message of a client has one origin, and at any time the origin is in one
place: in the pipe, with a thread, with user code, or with the response that
went out. This holds in every run, and no request is answered twice.

A response carries no generation of the connection. That it goes to the client
that asked depends on what threads and user code have in hand when a client
opens the pipe: if that is nothing, all there is to answer comes from this
client until the next one comes.
-/

namespace Winspd.Proofs

open Winspd.Lib Winspd.Sys Winspd.Shared

abbrev RequestThreads := Threads PipeAction PipeAction.Answer PipeServer RequestAccount

abbrev RequestStep (params : StorageUnitParams) (interface : Interface) :
    RequestThreads → PipeEvent → RequestThreads → Prop :=
  Threads.Step (requestRules params) PipeAction.Exec (PipeEntry params interface)

def requestInit : RequestThreads := ⟨.init, []⟩

variable {params : StorageUnitParams} {interface : Interface} {s s' : PipeServer}
  {a : PipeAction} {r : a.Answer} {t t' : Traffic} {g g' : RequestAccount}
  {gs gs' : List RequestAccount} {ls : List PipeEvent} {ev : PipeEvent} {o : Origin}
  {request : Request} {unserved : Prop}

/-! ## Where a request is -/

def requestsOf (t : Traffic) (gs : List RequestAccount) : List Request :=
  t.pending ++ gs.filterMap fun g => g.map Prod.fst

def originCount (t : Traffic) (gs : List RequestAccount) (o : Origin) : Nat :=
  (t.inbox.map Prod.snd).count o + ((requestsOf t gs).map Request.origin).count o +
    (t.delivered.map fun d => d.response.origin).count o

def WasRead (ls : List PipeEvent) (request : Request) : Prop :=
  ∃ size payload, .act (.readFile size) (.ok (.whole request.req payload, request.origin)) ∈ ls

/-- `unserved` is whether clients open the pipe only when nobody has a request. -/
structure ClientInv (unserved : Prop) (ls : List PipeEvent) (t : Traffic)
    (gs : List RequestAccount) : Prop where
  unique : ∀ o, originCount t gs o ≤ 1
  fresh : ∀ o, t.nextId ≤ o.id → originCount t gs o = 0
  inbox : ∀ x ∈ t.inbox, x.2.client = t.client
  requests : ∀ request ∈ requestsOf t gs,
    WasRead ls request ∧ (unserved → request.origin.client = t.client)
  delivered : ∀ d ∈ t.delivered, (unserved → d.response.origin.client = d.client) ∧
    ∃ request status, WasRead ls request ∧ d.response = responseTo request status

theorem WasRead.snoc (h : WasRead ls request) : WasRead (ls ++ [ev]) request := by
  obtain ⟨size, payload, hmem⟩ := h
  exact ⟨size, payload, List.mem_append_left _ hmem⟩

theorem requestsOf_perm (hperm : gs.Perm gs') : (requestsOf t gs).Perm (requestsOf t gs') :=
  (hperm.filterMap _).append_left _

theorem requestsOf_none : requestsOf t (none :: gs) = requestsOf t gs := rfl

theorem mem_requestsOf_some {stage : RequestStage} {request' : Request} :
    request' ∈ requestsOf t (some (request, stage) :: gs) ↔
      request' = request ∨ request' ∈ requestsOf t gs := by
  simp only [requestsOf, List.filterMap_cons, Option.map_some, List.mem_append, List.mem_cons]
  tauto

theorem count_requestsOf_some {stage : RequestStage} :
    ((requestsOf t (some (request, stage) :: gs)).map Request.origin).count o =
      ((requestsOf t gs).map Request.origin).count o + if request.origin = o then 1 else 0 := by
  simp only [requestsOf, List.filterMap_cons, Option.map_some, List.map_append, List.map_cons,
    List.count_append, List.count_cons, beq_iff_eq]
  omega

namespace ClientInv

theorem perm (hperm : gs.Perm gs') (h : ClientInv unserved ls t gs) :
    ClientInv unserved ls t gs' := by
  have hcount : ∀ o, originCount t gs' o = originCount t gs o := fun o => by
    unfold originCount
    rw [((requestsOf_perm hperm).map _).count_eq]
  exact ⟨fun o => by rw [hcount]; exact h.unique o,
    fun o ho => by rw [hcount]; exact h.fresh o ho, h.inbox,
    fun request hr => h.requests request ((requestsOf_perm hperm).mem_iff.mpr hr), h.delivered⟩

theorem of_le (h : ClientInv unserved ls t gs)
    (hcount : ∀ o, originCount t' gs' o ≤ originCount t gs o)
    (hclient : t'.client = t.client) (hid : t'.nextId = t.nextId)
    (hinbox : ∀ x ∈ t'.inbox, ∃ y ∈ t.inbox, y.2 = x.2)
    (hrequests : ∀ request ∈ requestsOf t' gs', request ∈ requestsOf t gs ∨
      WasRead (ls ++ [ev]) request ∧ (unserved → request.origin.client = t.client))
    (hdelivered : ∀ d ∈ t'.delivered, d ∈ t.delivered ∨ d.client = t.client ∧
      ∃ request ∈ requestsOf t gs, ∃ status, d.response = responseTo request status) :
    ClientInv unserved (ls ++ [ev]) t' gs' := by
  refine ⟨fun o => Nat.le_trans (hcount o) (h.unique o), fun o ho => ?_, fun x hx => ?_,
    fun request hr => ?_, fun d hd => ?_⟩
  · rw [hid] at ho
    exact Nat.eq_zero_of_le_zero (Nat.le_trans (hcount o) (Nat.le_of_eq (h.fresh o ho)))
  · obtain ⟨y, hy, heq⟩ := hinbox x hx
    rw [hclient, ← heq]
    exact h.inbox y hy
  · rw [hclient]
    rcases hrequests request hr with hr | hr
    · exact ⟨(h.requests request hr).1.snoc, (h.requests request hr).2⟩
    · exact hr
  · rcases hdelivered d hd with hd | ⟨hc, request, hr, status, heq⟩
    · obtain ⟨hc, request, status, hread, heq⟩ := h.delivered d hd
      exact ⟨hc, request, status, hread.snoc, heq⟩
    · obtain ⟨hread, hclient⟩ := h.requests request hr
      exact ⟨fun hu => by rw [heq, hc]; exact hclient hu, request, status, hread.snoc, heq⟩

/-- A thread keeps its request or drops it, and nothing else happens. -/
theorem keep (h : ClientInv unserved ls t (g :: gs))
    (hg : g' = none ∨ g'.map Prod.fst = g.map Prod.fst) :
    ClientInv unserved (ls ++ [ev]) t (g' :: gs) := by
  rcases hg with rfl | hg
  · cases g with
    | none =>
        exact h.of_le (fun _ => Nat.le_refl _) rfl rfl (fun x hx => ⟨x, hx, rfl⟩)
          (fun _ hr => .inl hr) (fun _ hd => .inl hd)
    | some x =>
        refine h.of_le (fun o => ?_) rfl rfl (fun x hx => ⟨x, hx, rfl⟩) (fun request hr => ?_)
          (fun _ hd => .inl hd)
        · unfold originCount
          rw [count_requestsOf_some, requestsOf_none]
          omega
        · exact .inl (mem_requestsOf_some.mpr (.inr hr))
  · have hsame : requestsOf t (g' :: gs) = requestsOf t (g :: gs) := by
      unfold requestsOf
      rw [List.filterMap_cons, List.filterMap_cons, hg]
    have hcount : ∀ o, originCount t (g' :: gs) o ≤ originCount t (g :: gs) o := fun o => by
      unfold originCount
      exact Nat.le_of_eq (by rw [hsame])
    exact h.of_le hcount rfl rfl (fun x hx => ⟨x, hx, rfl⟩)
      (fun request hr => .inl (by rwa [← hsame])) (fun _ hd => .inl hd)

/-- A request is read, and the thread has it if it is accepted. -/
theorem read {size : UInt32} {message : Message} {origin : Origin}
    {inbox : List (Message × Origin)} (h : ClientInv unserved ls t (none :: gs))
    (hinbox : t.inbox = (message, origin) :: inbox)
    (hev : ev = .act (.readFile size) (.ok (message, origin)))
    (hg : g' = none ∨ ∃ req payload stage, message = .whole req payload ∧
      g' = some (⟨req, origin⟩, stage)) :
    ClientInv unserved (ls ++ [ev]) { t with inbox := inbox } (g' :: gs) := by
  have horigin : origin.client = t.client := h.inbox (message, origin) (by rw [hinbox]; simp)
  refine h.of_le (fun o => ?_) rfl rfl (fun x hx => ⟨x, by rw [hinbox]; simp [hx], rfl⟩)
    (fun request hr => ?_) (fun _ hd => .inl hd)
  · unfold originCount
    rw [hinbox, List.map_cons, List.count_cons, requestsOf_none]
    rcases hg with rfl | ⟨req, payload, stage, -, rfl⟩
    · exact Nat.add_le_add_right (Nat.add_le_add_right (Nat.le_add_right _ _) _) _
    · rw [count_requestsOf_some]
      simp only [beq_iff_eq]
      show _ + (((requestsOf t gs).map Request.origin).count o + _) + _ ≤ _
      omega
  · rcases hg with rfl | ⟨req, payload, stage, rfl, rfl⟩
    · exact .inl hr
    · rcases mem_requestsOf_some.mp hr with rfl | hr
      · exact .inr ⟨⟨size, payload, by rw [hev]; simp⟩, fun _ => horigin⟩
      · exact .inl hr

theorem park {stage : RequestStage} (h : ClientInv unserved ls t (some (request, stage) :: gs)) :
    ClientInv unserved (ls ++ [ev]) { t with pending := request :: t.pending } (none :: gs) := by
  have hperm : (requestsOf { t with pending := request :: t.pending } (none :: gs)).Perm
      (requestsOf t (some (request, stage) :: gs)) := List.perm_middle.symm
  refine h.of_le (fun o => ?_) rfl rfl (fun x hx => ⟨x, hx, rfl⟩)
    (fun request' hr => .inl (hperm.mem_iff.mp hr)) (fun _ hd => .inl hd)
  unfold originCount
  exact Nat.le_of_eq (by rw [(hperm.map _).count_eq])

theorem unpark {index : Nat} {stage : RequestStage} (h : ClientInv unserved ls t (none :: gs))
    (hindex : t.pending[index]? = some request) :
    ClientInv unserved (ls ++ [ev]) { t with pending := t.pending.eraseIdx index }
      (some (request, stage) :: gs) := by
  obtain ⟨hlt, hget⟩ := List.getElem?_eq_some_iff.mp hindex
  have hpending : t.pending.Perm (request :: t.pending.eraseIdx index) := by
    rw [← hget]
    exact (List.getElem_cons_eraseIdx_perm hlt).symm
  have hperm : (requestsOf { t with pending := t.pending.eraseIdx index }
      (some (request, stage) :: gs)).Perm (requestsOf t (none :: gs)) :=
    List.perm_middle.trans (hpending.symm.append_right _)
  refine h.of_le (fun o => ?_) rfl rfl (fun x hx => ⟨x, hx, rfl⟩)
    (fun request' hr => .inl (hperm.mem_iff.mp hr)) (fun _ hd => .inl hd)
  unfold originCount
  exact Nat.le_of_eq (by rw [(hperm.map _).count_eq])

theorem deliver {stage : RequestStage} {status : StorageUnitStatus} {data : List UInt8}
    (h : ClientInv unserved ls t (some (request, stage) :: gs)) :
    ClientInv unserved (ls ++ [ev])
      { t with delivered := t.delivered ++ [⟨t.client, responseTo request status, data⟩] }
      (none :: gs) := by
  refine h.of_le (fun o => ?_) rfl rfl (fun x hx => ⟨x, hx, rfl⟩) (fun request' hr => ?_)
    (fun d hd => ?_)
  · unfold originCount
    rw [count_requestsOf_some, requestsOf_none, List.map_append, List.count_append]
    have hone : (List.map (fun d => d.response.origin)
        [(⟨t.client, responseTo request status, data⟩ : Delivered)]).count o =
        if request.origin = o then 1 else 0 := by
      rw [List.map_singleton, List.count_singleton]
      simp [responseTo]
    rw [hone]
    show (t.inbox.map Prod.snd).count o + ((requestsOf t gs).map Request.origin).count o + _ ≤ _
    omega
  · exact .inl (mem_requestsOf_some.mpr (.inr hr))
  · rcases List.mem_append.mp hd with hd | hd
    · exact .inl hd
    · rw [List.mem_singleton.mp hd]
      exact .inr ⟨rfl, request, mem_requestsOf_some.mpr (.inl rfl), status, rfl⟩

theorem lose (h : ClientInv unserved ls t gs) :
    ClientInv unserved (ls ++ [ev]) { t with inbox := [] } gs := by
  refine h.of_le (fun o => ?_) rfl rfl (fun x hx => absurd hx List.not_mem_nil)
    (fun _ hr => .inl hr) (fun _ hd => .inl hd)
  unfold originCount
  show (List.map Prod.snd ([] : List (Message × Origin))).count o + _ + _ ≤ _
  rw [List.map_nil, List.count_nil]
  exact Nat.add_le_add_right (Nat.add_le_add_right (Nat.zero_le _) _) _

theorem torn (h : ClientInv unserved ls (traffic s) (g :: gs)) :
    ClientInv unserved (ls ++ [ev]) (traffic s.disconnectPipe) (g :: gs) := by
  rcases @traffic_disconnectPipe s with heq | heq
  · rw [heq]
    exact h.keep (.inr rfl)
  · rw [heq]
    exact h.lose

theorem opened (h : ClientInv unserved ls t gs) (hnone : unserved → requestsOf t gs = []) :
    ClientInv unserved (ls ++ [ev]) { t with client := t.client + 1, inbox := [] } gs := by
  have hcount : ∀ o, originCount { t with client := t.client + 1, inbox := [] } gs o ≤
      originCount t gs o := fun o => by
    unfold originCount
    show (List.map Prod.snd ([] : List (Message × Origin))).count o + _ + _ ≤ _
    rw [List.map_nil, List.count_nil]
    exact Nat.add_le_add_right (Nat.add_le_add_right (Nat.zero_le _) _) _
  refine ⟨fun o => Nat.le_trans (hcount o) (h.unique o), fun o ho => ?_,
    fun x hx => absurd hx List.not_mem_nil, fun request hr => ?_, fun d hd => ?_⟩
  · exact Nat.eq_zero_of_le_zero (Nat.le_trans (hcount o) (Nat.le_of_eq (h.fresh o ho)))
  · refine ⟨(h.requests request hr).1.snoc, fun hu => ?_⟩
    rw [show requestsOf { t with client := t.client + 1, inbox := [] } gs = [] from hnone hu] at hr
    exact absurd hr List.not_mem_nil
  · obtain ⟨hc, request, status, hread, heq⟩ := h.delivered d hd
    exact ⟨hc, request, status, hread.snoc, heq⟩

theorem sent {message : Message} (h : ClientInv unserved ls t gs) :
    ClientInv unserved (ls ++ [ev])
      { t with
        inbox := t.inbox ++ [(message, ⟨t.client, t.nextId⟩)]
        nextId := t.nextId + 1 } gs := by
  have hcount : ∀ o, originCount
      { t with
        inbox := t.inbox ++ [(message, ⟨t.client, t.nextId⟩)]
        nextId := t.nextId + 1 } gs o =
      originCount t gs o + if (⟨t.client, t.nextId⟩ : Origin) = o then 1 else 0 := fun o => by
    unfold originCount
    show (List.map Prod.snd (t.inbox ++ [(message, (⟨t.client, t.nextId⟩ : Origin))])).count o +
      ((requestsOf t gs).map Request.origin).count o + _ = _
    rw [List.map_append, List.count_append, List.map_singleton, List.count_singleton]
    simp only [beq_iff_eq]
    omega
  refine ⟨fun o => ?_, fun o ho => ?_, fun x hx => ?_, fun request hr => ?_, fun d hd => ?_⟩
  · rw [hcount]
    split
    · next heq =>
        have hzero := h.fresh o (Nat.le_of_eq (by rw [← heq]))
        omega
    · exact h.unique o
  · have ho : t.nextId + 1 ≤ o.id := ho
    have hne : ¬ (⟨t.client, t.nextId⟩ : Origin) = o := fun heq => by
      rw [← heq] at ho
      exact Nat.not_succ_le_self _ ho
    rw [hcount, h.fresh o (by omega), if_neg hne]
  · rcases List.mem_append.mp hx with hx | hx
    · exact h.inbox x hx
    · rw [List.mem_singleton.mp hx]
  · exact ⟨(h.requests request hr).1.snoc, (h.requests request hr).2⟩
  · obtain ⟨hc, request, status, hread, heq⟩ := h.delivered d hd
    exact ⟨hc, request, status, hread.snoc, heq⟩

theorem onMessage_cases {message : Message} {origin : Origin} :
    RequestAccount.onMessage params message origin = none ∨
      ∃ req payload stage, message = .whole req payload ∧
        RequestAccount.onMessage params message origin = some (⟨req, origin⟩, stage) := by
  cases message with
  | short _ => exact .inl rfl
  | whole req payload =>
      have hhand : ∀ x : RequestAccount, x = RequestAccount.hand ⟨req, origin⟩ →
          x = none ∨ ∃ req' payload' stage, Message.whole req payload = .whole req' payload' ∧
            x = some (⟨req', origin⟩, stage) := by
        intro x hx
        subst hx
        unfold RequestAccount.hand
        split
        · exact .inl rfl
        · exact .inr ⟨req, payload, _, rfl, rfl⟩
      unfold RequestAccount.onMessage
      dsimp only
      split
      · split
        · exact .inl rfl
        · exact .inr ⟨req, payload, _, rfl, rfl⟩
      · split
        · split
          · exact .inl rfl
          · exact hhand _ rfl
        · exact hhand _ rfl

theorem exec (h : ClientInv unserved ls (traffic s) (g :: gs)) (hmay : g.May params a)
    (hexec : a.Exec s r s')
    (hopen : a = .clientOpen → unserved → requestsOf (traffic s) (g :: gs) = []) :
    ClientInv unserved (ls ++ [.act a r]) (traffic s')
      (RequestAccount.track params a r g :: gs) := by
  have heffect := exec_trafficEffect hexec
  cases a with
  | readFile size =>
      have hg : g = none := hmay
      subst hg
      match r, heffect with
      | .error _, .inl heq =>
          rw [heq]
          exact h.keep (.inl rfl)
      | .error _, .inr ⟨message, rest, origin, inbox, hinbox, heq⟩ =>
          rw [heq]
          refine h.of_le (fun o => ?_) rfl rfl (fun x hx => ?_) (fun _ hr => .inl hr)
            (fun _ hd => .inl hd)
          · unfold originCount
            rw [show (traffic s).inbox = (message, origin) :: inbox from hinbox, List.map_cons,
              List.map_cons]
            exact Nat.le_refl _
          · rw [show (traffic s).inbox = (message, origin) :: inbox from hinbox]
            rcases List.mem_cons.mp hx with rfl | hx
            · exact ⟨(message, origin), by simp, rfl⟩
            · exact ⟨x, by simp [hx], rfl⟩
      | .ok (message, origin), ⟨inbox, hinbox, heq⟩ =>
          rw [heq]
          exact h.read hinbox rfl onMessage_cases
  | writeFile response data =>
      obtain ⟨request, status, hwrite, rfl⟩ := hmay
      obtain ⟨stage, rfl⟩ : ∃ stage, g = some (request, stage) := by
        rcases hwrite with ⟨rfl, -⟩ | ⟨buffer, rfl, -⟩
        · exact ⟨_, rfl⟩
        · exact ⟨_, rfl⟩
      rcases heffect with ⟨-, heq⟩ | ⟨-, heq⟩
      · rw [heq]
        exact h.keep (.inl rfl)
      · rw [heq]
        exact h.deliver
  | operation call request status dataBuffer =>
      have hg : g = some (request, .handed true) := hmay
      subst hg
      obtain ⟨complete, status', dataBuffer'⟩ := r
      have heq : traffic s' = _ := heffect
      rw [heq]
      cases complete with
      | true => exact h.keep (.inr rfl)
      | false => exact h.park
  | takePending =>
      have hg : g = none := hmay
      subst hg
      obtain ⟨request, status, dataBuffer⟩ := r
      obtain ⟨index, hindex, heq⟩ := heffect
      rw [heq]
      exact h.unpark hindex
  | disconnectNamedPipe =>
      have heq : traffic s' = traffic s.disconnectPipe := heffect
      rw [heq]
      exact h.torn
  | disconnect connected =>
      have heq : traffic s' = if (r : Bool) = true then traffic s.disconnectPipe else traffic s :=
        heffect
      rw [heq]
      split
      · exact h.torn
      · exact h.keep (.inr rfl)
  | clientOpen =>
      have heq : traffic s' = _ := heffect
      rw [heq]
      exact h.opened (hopen rfl)
  | clientSend message =>
      have heq : traffic s' = _ := heffect
      rw [heq]
      exact h.sent
  | putHintValue request value =>
      have heq : traffic s' = traffic s := heffect
      have hg : g = some (request, .received) := hmay.1
      subst hg
      rw [heq]
      refine h.keep ?_
      unfold RequestAccount.track RequestAccount.hand
      dsimp only
      split
      · split
        · exact .inl rfl
        · exact .inr rfl
      · exact .inl rfl
  | takeHintValue response =>
      have heq : traffic s' = traffic s := heffect
      rw [heq]
      refine h.keep (.inr ?_)
      show (g.map fun x => (x.1, RequestStage.taken)).map Prod.fst = g.map Prod.fst
      rw [Option.map_map]
      rfl
  | overlappedInit | unitIsListed | memAlloc | connectNamedPipe | waitConnect | writeParams =>
      have heq : traffic s' = traffic s := heffect
      rw [heq]
      refine h.keep ?_
      unfold RequestAccount.track
      dsimp only
      split
      · exact .inr rfl
      · exact .inl rfl
  | _ =>
      have heq : traffic s' = traffic s := heffect
      rw [heq]
      exact h.keep (.inr rfl)

end ClientInv

/-! ## Runs -/

/-- A client opens the pipe only when no thread and no user code has a request
to answer. -/
def OpensUnserved (w : RequestThreads) : PipeEvent → Prop
  | .act .clientOpen _ => (∀ t ∈ w.threads, t.account = none) ∧ w.shared.pending = []
  | _ => True

variable {w w' : RequestThreads}

theorem requestsOf_nil (haccounts : ∀ g ∈ gs, g = none) (hpending : t.pending = []) :
    requestsOf t gs = [] := by
  unfold requestsOf
  rw [hpending, List.nil_append, List.filterMap_eq_nil_iff]
  intro g hg
  rw [haccounts g hg]
  rfl

theorem clientInv_init : ClientInv unserved [] (traffic .init) [] := by
  refine ⟨fun o => Nat.zero_le 1, fun o _ => rfl, ?_, ?_, ?_⟩
  all_goals exact fun _ h => absurd h List.not_mem_nil

theorem ClientInv.step (hw : Threads.Verified (requestRules params)
      (fun s gs => ClientInv unserved ls (traffic s) gs) w)
    (hstep : RequestStep params interface w ev w') (hopens : unserved → OpensUnserved w ev) :
    Threads.Verified (requestRules params)
      (fun s gs => ClientInv unserved (ls ++ [ev]) (traffic s) gs) w' := by
  refine hw.step_to (C := fun w ev => unserved → OpensUnserved w ev) (fun hp h => h.perm hp)
    (fun hp h => h.perm hp) (fun _ h => ?_) (fun _ _ h => ?_) pipeEntry_requests
    (fun {s us vs a k g r s'} hev hothers hC hmay h hexec => ?_) hopens hstep
  · exact h.of_le (fun _ => Nat.le_refl _) rfl rfl (fun x hx => ⟨x, hx, rfl⟩)
      (fun _ hr => .inl hr) (fun _ hd => .inl hd)
  · have hdrop := @ClientInv.keep _ _ none _ _ ev _ h (.inl rfl)
    exact ⟨hdrop.unique, hdrop.fresh, hdrop.inbox, hdrop.requests, hdrop.delivered⟩
  · subst hev
    refine ⟨h.exec hmay hexec fun hopen hu => ?_, trivial⟩
    subst hopen
    obtain ⟨haccounts, hpending⟩ := hC hu
    refine requestsOf_nil (fun g' hg' => ?_) hpending
    rcases List.mem_cons.mp hg' with rfl | hg'
    · exact haccounts _ (List.mem_append_right _ List.mem_cons_self)
    · obtain ⟨t, ht, rfl⟩ := List.mem_map.mp hg'
      exact haccounts t (Threads.mem_middle ht)

theorem requestRun_clientInv
    (hrun : Run (fun w ev w' => RequestStep params interface w ev w' ∧ OpensUnserved w ev)
      requestInit ls w) :
    Threads.Verified (requestRules params)
      (fun s gs => ClientInv True ls (traffic s) gs) w :=
  hrun.history (I := fun ls w =>
      Threads.Verified (requestRules params) (fun s gs => ClientInv True ls (traffic s) gs) w)
    ⟨clientInv_init, fun _ h => absurd h List.not_mem_nil⟩
    fun _ hw hstep => ClientInv.step hw hstep.1 fun _ => hstep.2

/-- Every response goes to the client that sent the request, on the connection
it was read from, and no request is answered twice. -/
theorem pipe_responses
    (hrun : Run (fun w ev w' => RequestStep params interface w ev w' ∧ OpensUnserved w ev)
      requestInit ls w) :
    (∀ d ∈ w.shared.delivered, d.response.origin.client = d.client ∧
      ∃ request status, WasRead ls request ∧ d.response = responseTo request status) ∧
      (w.shared.delivered.map fun d => d.response.origin).Nodup ∧
      ∀ pre response data post, ls = pre ++ .act
        (.writeFile response data) errorSuccess :: post →
        ∃ w₀, Run (RequestStep params interface) requestInit pre w₀ ∧
          w₀.shared.pipe = .connected ∧ w₀.shared.client = response.origin.client := by
  have h := (requestRun_clientInv hrun).inv
  refine ⟨fun d hd => ⟨(h.delivered d hd).1 trivial, (h.delivered d hd).2⟩, ?_,
    fun pre response data post heq => ?_⟩
  · rw [List.nodup_iff_count_le_one]
    intro o
    exact Nat.le_trans (Nat.le_add_left _ _) (h.unique o)
  · subst heq
    obtain ⟨w₀, hpre, hpost⟩ := hrun.split
    obtain ⟨w₁, ⟨hstep, -⟩, -⟩ := Run.cons_iff.mp hpost
    have hw₀ := requestRun_clientInv hpre
    obtain ⟨g, gs, hinv, hmay, ⟨c, hexec⟩, -⟩ := hw₀.acting (fun hp h => h.perm hp) hstep
    obtain ⟨request, status, hwrite, rfl⟩ := hmay
    have hmem : request ∈ requestsOf (traffic w₀.shared) (g :: gs) := by
      rcases hwrite with ⟨rfl, -⟩ | ⟨buffer, rfl, -⟩
      · exact mem_requestsOf_some.mpr (.inl rfl)
      · exact mem_requestsOf_some.mpr (.inl rfl)
    refine ⟨w₀, hpre.mono And.left, ?_, ((hinv.requests request hmem).2 trivial).symm⟩
    cases c with
    | ends error =>
        simp only [PipeAction.exec] at hexec
        split at hexec
        · split at hexec
          · next hpipe => exact hpipe
          · cases hexec
        · next he =>
            simp only [Option.some.injEq, Prod.mk.injEq] at hexec
            exact absurd hexec.2 he
    | _ => cases hexec

/-! ## Two clients -/

theorem requestPlays_run {ms : List (Choice × Threads.Move (PipeEntry params interface))}
    {ok : List PipeEvent → RequestThreads → PipeEvent → Bool}
    {P : List PipeEvent → RequestThreads → PipeEvent → Prop}
    (hok : ∀ ls w ev, ok ls w ev = true → P ls w ev)
    (h : Threads.plays (requestRules params) (fun c s a => a.exec s c) ok [] requestInit ms =
      some (ls, w)) : RunWhen (RequestStep params interface) P requestInit ls w :=
  Threads.plays_run (fun c _ _ _ _ h => ⟨c, h⟩) hok .nil h

/-- Blocks of 512 bytes, two at a time. -/
def sampleParams : StorageUnitParams :=
  { StorageUnitParams.zero with blockLength := 512, maxTransferLength := 1024 }

def allOperations : Interface := ⟨true, true, true, true⟩

abbrev Schedule := List (Choice × Threads.Move (PipeEntry sampleParams allOperations))

/-- `n` turns of one thread in which nothing fails. -/
def turns (i n : Nat) : Schedule := List.replicate n (.ends errorSuccess, .turn i)

def clientOpens : Schedule := (.ends errorSuccess, .enter _ .clientOpen) :: turns 0 2

def clientSends (req : SpdIoctlTransactReq) : Schedule :=
  (.ends errorSuccess, .enter _ (.clientSend (.whole req []))) :: turns 0 2

def threadStarts (rounds : Nat) : Schedule :=
  [(.ends errorSuccess, .enter _ (.dispatcher rounds []))]

/-- A client opens the pipe, a dispatcher thread connects, and the client
sends. -/
def firstRequest (req : SpdIoctlTransactReq) : Schedule :=
  clientOpens ++ threadStarts 2 ++ turns 0 7 ++ clientSends req

/-- Another thread calls, fails to read, and disconnects the client. -/
def disconnects (rounds : Nat) : Schedule :=
  threadStarts rounds ++ turns 0 5 ++ [(.ends errorNoData, .turn 0)] ++ turns 0 1

def sampleFlush : SpdIoctlTransactReq := ⟨7, transactFlushKind, 0, 0, false⟩

def serveFlush : Schedule :=
  firstRequest sampleFlush ++ turns 0 1 ++ [(.returns true none [], .turn 0)]

/-- The thread writes the response, in its next call. -/
def flushAnswered : Schedule := serveFlush ++ turns 0 6

/-- Before that the client is disconnected. The next client opens the pipe, and
gets the response. -/
def flushStrays : Schedule := serveFlush ++ disconnects 1 ++ turns 1 5 ++ clientOpens ++ turns 1 4

/-- `OpensUnserved`, as a check. -/
def opensUnserved (w : RequestThreads) : PipeEvent → Bool
  | .act .clientOpen _ => w.threads.all (fun t => t.account = none) && w.shared.pending.isEmpty
  | _ => true

theorem opensUnserved_iff (h : opensUnserved w ev = true) : OpensUnserved w ev := by
  cases ev with
  | enter | leave => trivial
  | act a r =>
      cases a with
      | clientOpen =>
          obtain ⟨haccounts, hpending⟩ := (Bool.and_eq_true _ _).mp h
          refine ⟨fun t ht => ?_, List.isEmpty_iff.mp hpending⟩
          exact of_decide_eq_true (List.all_eq_true.mp haccounts t ht)
      | _ => trivial

theorem pipe_responses_flushAnswered :
    ∃ ls w, Run (RequestStep sampleParams allOperations) requestInit ls w ∧
      w.shared.delivered ≠ [] ∧ ∀ d ∈ w.shared.delivered,
        d.response.origin.client = d.client := by
  have hfinal : (Threads.plays (requestRules sampleParams) (fun c s a => a.exec s c)
      (fun _ => opensUnserved) [] requestInit flushAnswered).map
        (fun x => x.2.shared.delivered.length) = some 1 := by rfl
  obtain ⟨⟨ls, w⟩, hplays, hone⟩ := Option.map_eq_some_iff.mp hfinal
  have hrun := (requestPlays_run (fun _ w ev h => @opensUnserved_iff ev w h) hplays).steps
  have hone : w.shared.delivered.length = 1 := hone
  refine ⟨ls, w, hrun.mono And.left, fun h => ?_, fun d hd => ((pipe_responses hrun).1 d hd).1⟩
  rw [h] at hone
  cases hone

/-- Client 2 gets the response to client 1's flush. -/
theorem pipe_responses_strays :
    ∃ ls w, Run (RequestStep sampleParams allOperations) requestInit ls w ∧
      ∃ d ∈ w.shared.delivered, d.client = 2 ∧ d.response.origin.client = 1 := by
  have hfinal : (Threads.plays (requestRules sampleParams) (fun c s a => a.exec s c)
      (fun _ _ _ => true) [] requestInit flushStrays).map (fun x =>
        x.2.shared.delivered.map fun d =>
        (d.client, d.response.origin.client)) = some [(2, 1)] := by rfl
  obtain ⟨⟨ls, w⟩, hplays, hlist⟩ := Option.map_eq_some_iff.mp hfinal
  have hrun : RunWhen _ (fun _ _ _ => True) _ ls w :=
    requestPlays_run (fun _ _ _ _ => trivial) hplays
  refine ⟨ls, w, hrun.run, ?_⟩
  have hmem : (2, 1) ∈ w.shared.delivered.map fun d => (d.client, d.response.origin.client) := by
    rw [show w.shared.delivered.map _ = _ from hlist]
    exact List.mem_singleton_self _
  obtain ⟨d, hd, heq⟩ := List.mem_map.mp hmem
  rw [Prod.mk.injEq] at heq
  exact ⟨d, hd, heq.1, heq.2⟩

end Winspd.Proofs
