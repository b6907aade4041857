import Winspd.Proofs.PipeClients

/-!
# The table of Read lengths

A Read is put in the table of hints when it is handed out, and taken out when
it is answered. The table is that of the unit, and nobody clears it when a
connection ends. So it is the table of the Reads that are out on the current
connection as long as no connection is torn down while some are, or while a
thread is about to put one in; as long as every Read is answered with a data
buffer; and as long as clients ask for Reads that have a hint and whose length
is a 32-bit number.

`outstandingReads` is what the history says is out, and `ReadsMeet` are these
conditions.

Four kinds of steps touch the table or what is out: a Read is put in when it is
handed out, taken out when it is answered, answered without having been in, or
forgotten when the connection ends. The other steps are `ReadInv.quiet`. There is a
lemma for every action, and `ReadInv.exec` puts them together.
-/

namespace Winspd.Proofs

open Winspd.Lib Winspd.Sys Winspd.Shared

/-- The Reads without the one that a response is for. -/
def readsWithout (reads : List Request) (response : Response) : List Request :=
  reads.filter fun request => request.origin ≠ response.origin

/-- What an event does to the Reads that are out. -/
def readStep (reads : List Request) : PipeEvent → List Request
  | .act (.putHintValue request _) put => if put = true then request :: reads else reads
  | .act (.takeHintValue response) _ => readsWithout reads response
  | .act (.writeFile response _) error =>
      if error = errorSuccess then readsWithout reads response else reads
  | .act .disconnectNamedPipe _ => []
  | .act (.disconnect _) done => if done = true then [] else reads
  | .act .clientOpen _ => []
  | _ => reads

/-- The Reads that were handed out on the current connection and have not been
answered. -/
def outstandingReads (ls : List PipeEvent) : List Request := ls.foldl readStep []

/-- The length of a Read, which is not computed modulo `2 ^ 32`. -/
def readLength (params : StorageUnitParams) (req : SpdIoctlTransactReq) : Nat :=
  req.blockCount.toNat * params.blockLength.toNat

/-- Nothing is out, and no thread has a Read to put in the table. -/
def ReadsSettled (reads : List Request) (gs : List RequestAccount) : Prop :=
  reads = [] ∧ ∀ g ∈ gs, ∀ request, g ≠ some (request, .received)

/-- A message is no Read, or one with a hint, whose length is a 32-bit number
unless the server refuses it. -/
def ReadFits (params : StorageUnitParams) : Message → Prop
  | .short _ => True
  | .whole req _ => req.kind = transactReadKind →
      req.hint ≠ 0 ∧
        (readLength params req < 2 ^ 32 ∨ params.maxTransferLength < dataLength params req)

/-- What is asked of a step, when these Reads are out and threads have these
accounts. -/
def ReadsMeet (params : StorageUnitParams) (reads : List Request) (gs : List RequestAccount) :
    PipeEvent → Prop
  | .act (.readFile _) (.ok (message, _)) => ReadFits params message
  | .act .takePending (request, _, dataBuffer) =>
      request.req.kind = transactReadKind → dataBuffer.isSome = true
  | .act .disconnectNamedPipe _ => ReadsSettled reads gs
  | .act (.disconnect _) done => done = true → ReadsSettled reads gs
  | _ => True

variable {params : StorageUnitParams} {interface : Interface} {s s' : PipeServer}
  {a : PipeAction} {r : a.Answer} {g g' : RequestAccount} {gs gs' : List RequestAccount}
  {ls : List PipeEvent} {ev : PipeEvent} {request request' : Request} {reads : List Request}
  {response : Response} {w w' : RequestThreads}

theorem outstandingReads_snoc :
    outstandingReads (ls ++ [ev]) = readStep (outstandingReads ls) ev := by
  rw [outstandingReads, List.foldl_append]
  rfl

theorem dataLength_read (hkind : request.req.kind = transactReadKind)
    (hfits : readLength params request.req < 2 ^ 32) :
    (dataLength params request.req).toNat = readLength params request.req := by
  have hne : ¬ request.req.kind = transactUnmapKind := by rw [hkind]; decide
  rw [dataLength, if_neg hne, UInt32.toNat_mul]
  exact Nat.mod_eq_of_lt hfits

/-- No request that is out has this origin. -/
def NotOut (reads : List Request) (o : Origin) : Prop := ∀ x ∈ reads, x.origin ≠ o

/-- A Read with a hint, whose length is a 32-bit number. -/
def IsRead (params : StorageUnitParams) (client : Nat) (request : Request) : Prop :=
  request.req.kind = transactReadKind ∧ request.req.hint ≠ 0 ∧
    readLength params request.req < 2 ^ 32 ∧ request.origin.client = client

/-- The Reads of threads that will be answered are out, and nothing else of
theirs is. -/
def HeldOk (params : StorageUnitParams) (reads : List Request) (client : Nat) :
    RequestAccount → Prop
  | none => True
  | some (request, .received) => IsRead params client request ∧ NotOut reads request.origin
  | some (request, .handed buffer) =>
      (request.req.kind = transactReadKind → request ∈ reads ∧ buffer = true) ∧
        (request.req.kind ≠ transactReadKind → NotOut reads request.origin)
  | some (request, .taken) => NotOut reads request.origin

def Down (s : PipeServer) : Prop := s.pipe = .listening ∨ s.pipe = .disconnected

structure ReadInv (params : StorageUnitParams) (reads : List Request) (s : PipeServer)
    (gs : List RequestAccount) : Prop where
  ok : s.hashBuckets.Ok hashIndex
  get : ∀ hint value, s.hashBuckets.get hashIndex hint = some value ↔
    ∃ request ∈ reads, request.req.hint = hint ∧ dataLength params request.req = value
  hints : (reads.map fun request => request.req.hint).Nodup
  origins : (reads.map Request.origin).Nodup
  out : ∀ request ∈ reads, IsRead params s.client request ∧
    dataLength params request.req ≤ params.maxTransferLength ∧ request.origin.id < s.nextId
  held : ∀ g ∈ gs, HeldOk params reads s.client g
  pending : ∀ request ∈ s.pending, HeldOk params reads s.client (some (request, .handed true))
  inbox : ∀ x ∈ s.inbox, NotOut reads x.2
  down : Down s → s.inbox = [] ∧ ReadsSettled reads gs

/-! ## Lists of Reads -/

theorem readsWithout_of_notOut (h : NotOut reads response.origin) :
    readsWithout reads response = reads := by
  refine List.filter_eq_self.mpr fun x hx => ?_
  exact decide_eq_true (h x hx)

theorem mem_readsWithout (horigins : (reads.map Request.origin).Nodup) (hmem : request ∈ reads)
    (hresponse : response.origin = request.origin) :
    request' ∈ readsWithout reads response ↔ request' ∈ reads ∧ request' ≠ request := by
  rw [readsWithout, List.mem_filter, decide_eq_true_iff, hresponse]
  refine and_congr_right fun hmem' => ?_
  constructor
  · intro hne heq
    exact hne (by rw [heq])
  · intro hne heq
    exact hne (List.inj_on_of_nodup_map horigins hmem' hmem heq)

theorem readsWithout_sublist : (readsWithout reads response).Sublist reads := List.filter_sublist

theorem NotOut.sublist {o : Origin} {reads' : List Request} (h : NotOut reads o)
    (hsub : reads'.Sublist reads) : NotOut reads' o := fun x hx => h x (hsub.subset hx)

theorem ClientInv.distinct {unserved : Prop} {stage : RequestStage}
    (h : ClientInv unserved ls (traffic s) (some (request, stage) :: gs)) :
    (∀ x ∈ s.inbox, x.2 ≠ request.origin) ∧
      (∀ request' ∈ s.pending, request'.origin ≠ request.origin) ∧
      (∀ g ∈ gs, ∀ request' stage', g = some (request', stage') →
        request'.origin ≠ request.origin) ∧
      request.origin.id < s.nextId := by
  have hunique := h.unique request.origin
  have hcount : originCount (traffic s) (some (request, stage) :: gs) request.origin =
      originCount (traffic s) gs request.origin + 1 := by
    unfold originCount
    rw [count_requestsOf_some, if_pos rfl]
    omega
  have hzero : originCount (traffic s) gs request.origin = 0 := by omega
  unfold originCount at hzero
  have hinbox : ((traffic s).inbox.map Prod.snd).count request.origin = 0 := by omega
  have hrequests : ((requestsOf (traffic s) gs).map Request.origin).count request.origin = 0 := by
    omega
  rw [List.count_eq_zero, List.mem_map] at hinbox hrequests
  refine ⟨fun x hx heq => hinbox ⟨x, hx, heq⟩, fun request' hr heq => ?_,
    fun g hg request' stage' heq horigin => ?_, ?_⟩
  · exact hrequests ⟨request', List.mem_append_left _ hr, heq⟩
  · subst heq
    refine hrequests ⟨request', List.mem_append_right _ ?_, horigin⟩
    exact List.mem_filterMap.mpr ⟨_, hg, rfl⟩
  · by_contra hid
    have hnone := h.fresh request.origin (Nat.not_lt.mp hid)
    omega

theorem Down.of_pipe (hsame : s'.pipe = s.pipe) (hd : Down s') : Down s := by
  unfold Down at hd ⊢
  rwa [← hsame]

namespace ReadInv

variable {client : Nat}

theorem init : ReadInv params [] .init [] where
  ok := Hashed.ok_empty
  get hint value := by
    rw [show (PipeServer.init.hashBuckets).get hashIndex hint = none from rfl]
    simp
  hints := List.nodup_nil
  origins := List.nodup_nil
  out _ h := absurd h List.not_mem_nil
  held _ h := absurd h List.not_mem_nil
  pending _ h := absurd h List.not_mem_nil
  inbox _ h := absurd h List.not_mem_nil
  down _ := ⟨rfl, rfl, fun _ h => absurd h List.not_mem_nil⟩

theorem perm (hperm : gs.Perm gs') (h : ReadInv params reads s gs) : ReadInv params reads s gs' :=
  ⟨h.ok, h.get, h.hints, h.origins, h.out, fun g hg => h.held g (hperm.mem_iff.mpr hg),
    h.pending, h.inbox, fun hd => ⟨(h.down hd).1, (h.down hd).2.1,
      fun g hg => (h.down hd).2.2 g (hperm.mem_iff.mpr hg)⟩⟩

/-- With no client there is still no message, and no thread has just got one. -/
theorem stillDown (h : ReadInv params reads s (g :: gs)) (hdown : Down s' → Down s)
    (hinbox : s'.inbox = s.inbox) (hg : ∀ request, g' ≠ some (request, .received))
    (hd : Down s') : s'.inbox = [] ∧ ReadsSettled reads (g' :: gs) := by
  obtain ⟨hempty, hreads, hnone⟩ := h.down (hdown hd)
  refine ⟨hinbox.trans hempty, hreads, fun g'' hg'' => ?_⟩
  rcases List.mem_cons.mp hg'' with rfl | hg''
  · exact hg
  · exact hnone g'' (List.mem_cons_of_mem _ hg'')

theorem keep (h : ReadInv params reads s (g :: gs)) (htable : s'.hashBuckets = s.hashBuckets)
    (hclient : s'.client = s.client) (hid : s.nextId ≤ s'.nextId)
    (hpending : ∀ request ∈ s'.pending, request ∈ s.pending ∨
      g = some (request, .handed true))
    (hinbox : ∀ x ∈ s'.inbox, (∃ y ∈ s.inbox, y.2 = x.2) ∨ s.nextId ≤ x.2.id)
    (hg : HeldOk params reads s.client g')
    (hdown : Down s' → s'.inbox = [] ∧ ReadsSettled reads (g' :: gs)) :
    ReadInv params reads s' (g' :: gs) := by
  refine ⟨by rw [htable]; exact h.ok, by rw [htable]; exact h.get, h.hints, h.origins,
    fun request hr => ?_, fun g'' hg'' => ?_, fun request hr => ?_, fun x hx => ?_, hdown⟩
  · obtain ⟨hread, hle, hlt⟩ := h.out request hr
    rw [hclient]
    exact ⟨hread, hle, Nat.lt_of_lt_of_le hlt hid⟩
  · rw [hclient]
    rcases List.mem_cons.mp hg'' with rfl | hg''
    · exact hg
    · exact h.held g'' (List.mem_cons_of_mem _ hg'')
  · rw [hclient]
    rcases hpending request hr with hr | rfl
    · exact h.pending request hr
    · exact h.held _ List.mem_cons_self
  · rcases hinbox x hx with ⟨y, hy, heq⟩ | hnew
    · rw [← heq]
      exact h.inbox y hy
    · intro request hr heq
      have hlt := (h.out request hr).2.2
      rw [heq] at hlt
      omega

/-- A thread keeps its request or drops it, and nothing else happens. -/
theorem quiet (h : ReadInv params reads s (g :: gs)) (htable : s'.hashBuckets = s.hashBuckets)
    (htraffic : traffic s' = traffic s) (hpipe : Down s' → Down s)
    (hg : g' = none ∨ g' = g) : ReadInv params reads s' (g' :: gs) := by
  simp only [traffic, Traffic.mk.injEq] at htraffic
  obtain ⟨hclient, hid, hinbox, hpending, -⟩ := htraffic
  refine h.keep htable hclient (Nat.le_of_eq hid.symm)
    (fun request hr => .inl (by rwa [← hpending]))
    (fun x hx => .inl ⟨x, by rwa [← hinbox], rfl⟩) ?_ fun hd => ?_
  · rcases hg with rfl | rfl
    · trivial
    · exact h.held g' List.mem_cons_self
  · obtain ⟨hempty, hreads, hnone⟩ := h.down (hpipe hd)
    refine ⟨hinbox.trans hempty, hreads, fun g'' hg'' => ?_⟩
    rcases List.mem_cons.mp hg'' with rfl | hg''
    · rcases hg with rfl | rfl
      · exact fun _ h => by cases h
      · exact hnone _ List.mem_cons_self
    · exact hnone g'' (List.mem_cons_of_mem _ hg'')

theorem takeOut {status : StorageUnitStatus} {unserved : Prop}
    (h : ReadInv params reads s (some (request, .handed true) :: gs))
    (hclients : ClientInv unserved ls (traffic s) (some (request, .handed true) :: gs))
    (hkind : request.req.kind = transactReadKind)
    (htable : s'.hashBuckets = (s.hashBuckets.take hashIndex request.req.hint).2)
    (htraffic : traffic s' = traffic s) (hpipe : s'.pipe = s.pipe) :
    ReadInv params (readsWithout reads (responseTo request status)) s'
      (some (request, .taken) :: gs) := by
  simp only [traffic, Traffic.mk.injEq] at htraffic
  obtain ⟨hclient, hid, hinbox, hpending, -⟩ := htraffic
  have hmem : request ∈ reads := ((h.held _ List.mem_cons_self).1 hkind).1
  obtain ⟨-, hpendingNe, hothersNe, -⟩ := hclients.distinct
  have hwithout := fun request' => @mem_readsWithout request request' reads
    (responseTo request status) h.origins hmem rfl
  have hsub : (readsWithout reads (responseTo request status)).Sublist reads :=
    readsWithout_sublist
  refine ⟨?_, fun hint value => ?_, h.hints.sublist (hsub.map _), h.origins.sublist (hsub.map _),
    fun request' hr => ?_, fun g' hg' => ?_, fun request' hr => ?_, fun x hx => ?_, fun hd => ?_⟩
  · rw [htable]
    exact h.ok.take
  · -- no other Read that is out has the hint
    rw [htable, h.ok.get_take]
    by_cases hhint : hint = request.req.hint
    · rw [if_pos hhint]
      refine iff_of_false (by simp) ?_
      rintro ⟨request', hr, heq, -⟩
      obtain ⟨hr, hne⟩ := (hwithout request').mp hr
      exact hne (List.inj_on_of_nodup_map h.hints hr hmem (heq.trans hhint))
    · rw [if_neg hhint, h.get]
      constructor
      · rintro ⟨request', hr, heq, hvalue⟩
        refine ⟨request', (hwithout request').mpr ⟨hr, fun hsame => hhint ?_⟩, heq, hvalue⟩
        rw [← heq, hsame]
      · rintro ⟨request', hr, heq, hvalue⟩
        exact ⟨request', ((hwithout request').mp hr).1, heq, hvalue⟩
  · rw [hclient, hid]
    exact h.out request' (hsub.subset hr)
  · rw [hclient]
    rcases List.mem_cons.mp hg' with rfl | hg'
    · intro x hx heq
      obtain ⟨hx, hne⟩ := (hwithout x).mp hx
      exact hne (List.inj_on_of_nodup_map h.origins hx hmem heq)
    · have hok := h.held g' (List.mem_cons_of_mem _ hg')
      match g', hok with
      | none, _ => trivial
      | some (request', .received), hok => exact ⟨hok.1, hok.2.sublist hsub⟩
      | some (request', .taken), hok => exact NotOut.sublist hok hsub
      | some (request', .handed buffer), hok =>
          refine ⟨fun hk => ⟨(hwithout request').mpr ⟨(hok.1 hk).1, fun hsame => ?_⟩,
            (hok.1 hk).2⟩,
            fun hk => (hok.2 hk).sublist hsub⟩
          exact hothersNe _ hg' request' _ rfl (by rw [hsame])
  · rw [hclient]
    rw [hpending] at hr
    have hok := h.pending request' hr
    refine ⟨fun hk => ⟨(hwithout request').mpr ⟨(hok.1 hk).1, fun hsame => ?_⟩, rfl⟩,
      fun hk => (hok.2 hk).sublist hsub⟩
    exact hpendingNe request' hr (by rw [hsame])
  · rw [hinbox] at hx
    exact (h.inbox x hx).sublist hsub
  · have hd : Down s := by
      unfold Down at hd ⊢
      rwa [← hpipe]
    have hempty := (h.down hd).2.1
    rw [hempty] at hmem
    exact absurd hmem List.not_mem_nil

theorem putIn {memory : Bool} {unserved : Prop}
    (h : ReadInv params reads s (some (request, .received) :: gs))
    (hclients : ClientInv unserved ls (traffic s) (some (request, .received) :: gs))
    (hle : dataLength params request.req ≤ params.maxTransferLength)
    (htable : s.hashBuckets.put hashIndex memory request.req.hint (dataLength params request.req) =
      (true, s'.hashBuckets))
    (htraffic : traffic s' = traffic s) (hpipe : s'.pipe = s.pipe) :
    ReadInv params (request :: reads) s' (some (request, .handed true) :: gs) := by
  simp only [traffic, Traffic.mk.injEq] at htraffic
  obtain ⟨hclient, hid, hinbox, hpending, -⟩ := htraffic
  obtain ⟨hread, hnotOut⟩ := h.held _ List.mem_cons_self
  obtain ⟨hinboxNe, hpendingNe, hothersNe, hlt⟩ := hclients.distinct
  have hput : (s.hashBuckets.put hashIndex memory request.req.hint
      (dataLength params request.req)).1 = true := by rw [htable]
  have hnew : s'.hashBuckets = (s.hashBuckets.put hashIndex memory request.req.hint
      (dataLength params request.req)).2 := by rw [htable]
  have hnone := (Hashed.put_fst.mp hput).1
  refine ⟨?_, fun hint value => ?_, ?_, ?_, fun request' hr => ?_, fun g' hg' => ?_,
    fun request' hr => ?_, fun x hx => ?_, fun hd => ?_⟩
  · rw [hnew]
    exact h.ok.put
  · rw [hnew, Hashed.get_put hput]
    by_cases hhint : hint = request.req.hint
    · rw [if_pos hhint]
      constructor
      · intro heq
        cases heq
        exact ⟨request, List.mem_cons_self, hhint.symm, rfl⟩
      · rintro ⟨request', hr, heq, hvalue⟩
        rcases List.mem_cons.mp hr with rfl | hr
        · rw [hvalue]
        · have hsome :=
            (h.get request.req.hint value).mpr ⟨request', hr, heq.trans hhint, hvalue⟩
          rw [hnone] at hsome
          cases hsome
    · rw [if_neg hhint, h.get]
      constructor
      · rintro ⟨request', hr, heq⟩
        exact ⟨request', List.mem_cons_of_mem _ hr, heq⟩
      · rintro ⟨request', hr, heq, hvalue⟩
        rcases List.mem_cons.mp hr with rfl | hr
        · exact absurd heq.symm hhint
        · exact ⟨request', hr, heq, hvalue⟩
  · rw [List.map_cons, List.nodup_cons]
    refine ⟨fun hmem => ?_, h.hints⟩
    obtain ⟨request', hr, heq⟩ := List.mem_map.mp hmem
    have hsome := (h.get request.req.hint _).mpr ⟨request', hr, heq, rfl⟩
    rw [hnone] at hsome
    cases hsome
  · rw [List.map_cons, List.nodup_cons]
    refine ⟨fun hmem => ?_, h.origins⟩
    obtain ⟨request', hr, heq⟩ := List.mem_map.mp hmem
    exact hnotOut request' hr heq
  · rw [hclient, hid]
    rcases List.mem_cons.mp hr with rfl | hr
    · exact ⟨hread, hle, hlt⟩
    · exact h.out request' hr
  · rw [hclient]
    rcases List.mem_cons.mp hg' with rfl | hin
    · exact ⟨fun _ => ⟨List.mem_cons_self, rfl⟩, fun hk => absurd hread.1 hk⟩
    · have hok := h.held g' (List.mem_cons_of_mem _ hin)
      have hcons : ∀ request' stage, g' = some (request', stage) →
          NotOut reads request'.origin →
          NotOut (request :: reads) request'.origin := by
        intro request' stage heq hno x hx
        rcases List.mem_cons.mp hx with rfl | hx
        · exact fun hsame => hothersNe g' hin request' stage heq hsame.symm
        · exact hno x hx
      match g', hok with
      | none, _ => trivial
      | some (request', .received), hok => exact ⟨hok.1, hcons request' _ rfl hok.2⟩
      | some (request', .taken), hok => exact hcons request' _ rfl hok
      | some (request', .handed buffer), hok =>
          exact ⟨fun hk => ⟨List.mem_cons_of_mem _ (hok.1 hk).1, (hok.1 hk).2⟩,
            fun hk => hcons request' _ rfl (hok.2 hk)⟩
  · rw [hclient]
    rw [hpending] at hr
    have hok := h.pending request' hr
    refine ⟨fun hk => ⟨List.mem_cons_of_mem _ (hok.1 hk).1, rfl⟩, fun hk x hx => ?_⟩
    rcases List.mem_cons.mp hx with rfl | hx
    · exact fun hsame => hpendingNe request' hr hsame.symm
    · exact hok.2 hk x hx
  · rw [hinbox] at hx
    intro request' hr
    rcases List.mem_cons.mp hr with rfl | hr
    · exact fun hsame => hinboxNe x hx hsame.symm
    · exact h.inbox x hx request' hr
  · have hd : Down s := by
      unfold Down at hd ⊢
      rwa [← hpipe]
    exact absurd rfl ((h.down hd).2.2 _ List.mem_cons_self request)

theorem tornDown (h : ReadInv params reads s (g :: gs)) (hsettled : ReadsSettled reads (g :: gs))
    (htable : s'.hashBuckets = s.hashBuckets) (htraffic : traffic s' = traffic s.disconnectPipe) :
    ReadInv params [] s' (g :: gs) := by
  obtain ⟨rfl, hnone⟩ := hsettled
  have hinbox : s.disconnectPipe.inbox = [] := by
    unfold PipeServer.disconnectPipe
    split
    · next hpipe => exact (h.down (.inl hpipe)).1
    · rfl
  have hfields : s.disconnectPipe.client = s.client ∧ s.disconnectPipe.nextId = s.nextId ∧
      s.disconnectPipe.pending = s.pending := by
    unfold PipeServer.disconnectPipe
    split <;> exact ⟨rfl, rfl, rfl⟩
  simp only [traffic, Traffic.mk.injEq, hfields, hinbox] at htraffic
  obtain ⟨hclient, hid, hempty, hpending, -⟩ := htraffic
  refine h.keep htable hclient (Nat.le_of_eq hid.symm)
    (fun request hr => .inl (by rwa [← hpending]))
    (fun x hx => ?_) (h.held g List.mem_cons_self) fun _ => ⟨hempty, rfl, hnone⟩
  rw [hempty] at hx
  exact absurd hx List.not_mem_nil

theorem heldOk_onMessage {message : Message} {origin : Origin} {client : Nat}
    (hfits : ReadFits params message) (horigin : origin.client = client)
    (hno : NotOut reads origin) :
    HeldOk params reads client (RequestAccount.onMessage params message origin) := by
  cases message with
  | short _ => trivial
  | whole req payload =>
      have hhand : req.kind ≠ transactReadKind →
          HeldOk params reads client (RequestAccount.hand ⟨req, origin⟩) := by
        intro hkind
        unfold RequestAccount.hand
        split
        · trivial
        · exact ⟨fun hk => absurd hk hkind, fun _ => hno⟩
      unfold RequestAccount.onMessage
      dsimp only
      split
      · next hkind =>
          obtain ⟨hhint, hlength⟩ := hfits hkind
          split
          · trivial
          · next hle => exact ⟨⟨hkind, hhint, hlength.resolve_right hle, horigin⟩, hno⟩
      · next hkind =>
          split
          · split
            · trivial
            · exact hhand hkind
          · exact hhand hkind

theorem putHintValue {unserved : Prop} {request : Request} {value : UInt32}
    {r : PipeAction.Answer (.putHintValue request value)}
    (h : ReadInv params reads s (g :: gs))
    (hclients : ClientInv unserved ls (traffic s) (g :: gs))
    (hmay : g.May params (.putHintValue request value))
    (hexec : PipeAction.Exec s (.putHintValue request value) r s') :
    ReadInv params (readStep reads (.act (.putHintValue request value) r)) s'
      (RequestAccount.track params (.putHintValue request value) r g :: gs) := by
  have htraffic := exec_trafficEffect hexec
  have htable := exec_tableEffect hexec
  have hpipe := exec_pipeEffect hexec
  obtain ⟨rfl, hkind, rfl, hle⟩ := hmay
  obtain ⟨memory, htable⟩ := htable
  have hhint : request.req.hint ≠ 0 := (h.held _ List.mem_cons_self).1.2.1
  rcases Bool.eq_false_or_eq_true r with rfl | rfl
  · have hnew := h.putIn hclients hle htable htraffic hpipe
    have hhand : RequestAccount.track params (.putHintValue request (dataLength params request.req))
        true (some (request, .received)) = some (request, .handed true) := if_neg hhint
    rw [hhand]
    exact hnew
  · have hsame : s'.hashBuckets = s.hashBuckets := by
      have hput : (s.hashBuckets.put hashIndex memory request.req.hint
          (dataLength params request.req)).1 = false := by rw [htable]
      have hnot := Hashed.put_of_not hput
      rw [htable] at hnot
      exact hnot
    exact h.quiet hsame htraffic (Down.of_pipe hpipe) (.inl rfl)

theorem writeFile {response : Response} {data : List UInt8}
    {r : PipeAction.Answer (.writeFile response data)}
    (h : ReadInv params reads s (g :: gs))
    (hmay : g.May params (.writeFile response data))
    (hexec : PipeAction.Exec s (.writeFile response data) r s') :
    ReadInv params (readStep reads (.act (.writeFile response data) r)) s'
      (RequestAccount.track params (.writeFile response data) r g :: gs) := by
  have htraffic := exec_trafficEffect hexec
  have htable := exec_tableEffect hexec
  have hpipe := exec_pipeEffect hexec
  obtain ⟨request, status, hwrite, rfl⟩ := hmay
  -- a Read has been taken out already
  have hno : NotOut reads request.origin := by
    rcases hwrite with ⟨rfl, -⟩ | ⟨buffer, rfl, hbuffer⟩
    · exact h.held _ List.mem_cons_self
    · obtain ⟨hread, hother⟩ := h.held _ List.mem_cons_self
      by_cases hk : request.req.kind = transactReadKind
      · have hfalse := hbuffer hk
        rw [(hread hk).2] at hfalse
        cases hfalse
      · exact hother hk
  have hsame : readStep reads (.act (.writeFile (responseTo request status) data) r) = reads := by
    unfold readStep
    dsimp only
    split
    · exact readsWithout_of_notOut hno
    · rfl
  rw [hsame]
  have hfields : s'.client = s.client ∧ s'.nextId = s.nextId ∧ s'.inbox = s.inbox ∧
      s'.pending = s.pending := by
    rcases htraffic with ⟨-, heq⟩ | ⟨-, heq⟩
      <;> simp only [traffic, Traffic.mk.injEq] at heq
    · exact ⟨heq.1, heq.2.1, heq.2.2.1, heq.2.2.2.1⟩
    · exact ⟨heq.1, heq.2.1, heq.2.2.1, heq.2.2.2.1⟩
  obtain ⟨hclient, hid, hinbox, hpending⟩ := hfields
  refine h.keep htable hclient (Nat.le_of_eq hid.symm)
    (fun request hr => .inl (by rwa [← hpending]))
    (fun x hx => .inl ⟨x, by rwa [← hinbox], rfl⟩) trivial ?_
  exact h.stillDown (Down.of_pipe hpipe) hinbox fun _ h => by cases h

theorem readFile {unserved : Prop} {size : UInt32} {r : PipeAction.Answer (.readFile size)}
    (h : ReadInv params reads s (g :: gs))
    (hclients : ClientInv unserved ls (traffic s) (g :: gs))
    (hmay : g.May params (.readFile size)) (hexec : PipeAction.Exec s (.readFile size) r s')
    (hmeets : ReadsMeet params reads (g :: gs) (.act (.readFile size) r)) :
    ReadInv params (readStep reads (.act (.readFile size) r)) s'
      (RequestAccount.track params (.readFile size) r g :: gs) := by
  have htraffic := exec_trafficEffect hexec
  have htable := exec_tableEffect hexec
  have hpipe := exec_pipeEffect hexec
  have hg : g = none := hmay
  subst hg
  -- there is no message while no client is there
  have hup : s.inbox ≠ [] → ¬ Down s' := fun hne hd => by
    have hd' : Down s := by
      unfold Down at hd ⊢
      rwa [← show s'.pipe = s.pipe from hpipe]
    exact hne (h.down hd').1
  match r, htraffic with
  | .error _, .inl heq => exact h.quiet htable heq (Down.of_pipe hpipe) (.inl rfl)
  | .error _, .inr ⟨message, rest, origin, inbox, hinbox, heq⟩ =>
      simp only [traffic, Traffic.mk.injEq] at heq
      refine h.keep htable heq.1 (Nat.le_of_eq heq.2.1.symm)
        (fun request hr => .inl (by rwa [← heq.2.2.2.1])) (fun x hx => ?_) trivial
        fun hd => absurd hd (hup (by rw [hinbox]; simp))
      rw [heq.2.2.1] at hx
      rw [hinbox]
      rcases List.mem_cons.mp hx with rfl | hx
      · exact .inl ⟨(message, origin), List.mem_cons_self, rfl⟩
      · exact .inl ⟨x, List.mem_cons_of_mem _ hx, rfl⟩
  | .ok (message, origin), ⟨inbox, hinbox, heq⟩ =>
      simp only [traffic, Traffic.mk.injEq] at heq
      have hmem : (message, origin) ∈ s.inbox := by
        rw [hinbox]
        exact List.mem_cons_self
      refine h.keep htable heq.1 (Nat.le_of_eq heq.2.1.symm)
        (fun request hr => .inl (by rwa [← heq.2.2.2.1])) (fun x hx => ?_)
        (heldOk_onMessage hmeets (hclients.inbox _ hmem) (h.inbox _ hmem))
        fun hd => absurd hd (hup (by rw [hinbox]; simp))
      rw [heq.2.2.1] at hx
      rw [hinbox]
      exact .inl ⟨x, List.mem_cons_of_mem _ hx, rfl⟩

theorem operation {call : OperationCall} {request : Request} {status : StorageUnitStatus}
    {dataBuffer : List UInt8} {r : PipeAction.Answer (.operation call request status dataBuffer)}
    (h : ReadInv params reads s (g :: gs))
    (hmay : g.May params (.operation call request status dataBuffer))
    (hexec : PipeAction.Exec s (.operation call request status dataBuffer) r s') :
    ReadInv params (readStep reads (.act (.operation call request status dataBuffer) r)) s'
      (RequestAccount.track params (.operation call request status dataBuffer) r g :: gs) := by
  have htraffic := exec_trafficEffect hexec
  have htable := exec_tableEffect hexec
  have hpipe := exec_pipeEffect hexec
  have hg : g = some (request, .handed true) := hmay
  subst hg
  obtain ⟨complete, status', dataBuffer'⟩ := r
  cases complete with
  | true => exact h.quiet htable htraffic (Down.of_pipe hpipe) (.inr rfl)
  | false =>
      simp only [TrafficEffect, traffic, Traffic.mk.injEq] at htraffic
      obtain ⟨hclient, hid, hinbox, hpending, -⟩ := htraffic
      refine h.keep htable hclient (Nat.le_of_eq hid.symm) (fun request' hr => ?_)
        (fun x hx => .inl ⟨x, by rwa [← hinbox], rfl⟩) trivial
        (h.stillDown (Down.of_pipe hpipe) hinbox fun _ h => by cases h)
      rw [hpending] at hr
      rcases List.mem_cons.mp hr with rfl | hr
      · exact .inr rfl
      · exact .inl hr

theorem takePending {r : PipeAction.Answer .takePending}
    (h : ReadInv params reads s (g :: gs))
    (hexec : PipeAction.Exec s .takePending r s')
    (hmeets : ReadsMeet params reads (g :: gs) (.act .takePending r)) :
    ReadInv params (readStep reads (.act .takePending r)) s'
      (RequestAccount.track params .takePending r g :: gs) := by
  have htraffic := exec_trafficEffect hexec
  have htable := exec_tableEffect hexec
  have hpipe := exec_pipeEffect hexec
  obtain ⟨request, status, dataBuffer⟩ := r
  obtain ⟨index, hindex, heq⟩ := htraffic
  simp only [traffic, Traffic.mk.injEq] at heq
  obtain ⟨hclient, hid, hinbox, hpending, -⟩ := heq
  have hok := h.pending request (List.mem_of_getElem? hindex)
  refine h.keep htable hclient (Nat.le_of_eq hid.symm)
    (fun request' hr => .inl (List.mem_of_mem_eraseIdx (by rwa [← hpending])))
    (fun x hx => .inl ⟨x, by rwa [← hinbox], rfl⟩)
    ⟨fun hk => ⟨(hok.1 hk).1, hmeets hk⟩, hok.2⟩ ?_
  exact h.stillDown (Down.of_pipe hpipe) hinbox fun _ h => by cases h

theorem clientOpen {r : PipeAction.Answer .clientOpen}
    (h : ReadInv params reads s (g :: gs))
    (hexec : PipeAction.Exec s .clientOpen r s') :
    ReadInv params (readStep reads (.act .clientOpen r)) s'
      (RequestAccount.track params .clientOpen r g :: gs) := by
  have htraffic := exec_trafficEffect hexec
  have htable := exec_tableEffect hexec
  have hpipe := exec_pipeEffect hexec
  obtain ⟨hlistening, hconnected⟩ := hpipe
  obtain ⟨hempty, rfl, hnone⟩ := h.down (.inl hlistening)
  simp only [TrafficEffect, traffic, Traffic.mk.injEq] at htraffic
  obtain ⟨hclient, hid, hinbox, hpending, -⟩ := htraffic
  have hd : ¬ Down s' := by
    unfold Down
    rw [hconnected]
    decide
  refine ⟨by rw [htable]; exact h.ok, by rw [htable]; exact h.get, h.hints, h.origins,
    fun _ hr => absurd hr List.not_mem_nil, fun g' hg' => ?_, fun request hr => ?_,
    fun x hx => ?_, fun hd' => absurd hd' hd⟩
  · have hok := h.held g' hg'
    match g', hok with
    | none, _ => trivial
    | some (request, .received), _ => exact absurd rfl (hnone _ hg' request)
    | some (request, .taken), hok => exact hok
    | some (request, .handed _), hok => exact hok
  · rw [hpending] at hr
    exact h.pending request hr
  · rw [hinbox] at hx
    exact absurd hx List.not_mem_nil

theorem clientSend {message : Message} {r : PipeAction.Answer (.clientSend message)}
    (h : ReadInv params reads s (g :: gs))
    (hexec : PipeAction.Exec s (.clientSend message) r s') :
    ReadInv params (readStep reads (.act (.clientSend message) r)) s'
      (RequestAccount.track params (.clientSend message) r g :: gs) := by
  have htraffic := exec_trafficEffect hexec
  have htable := exec_tableEffect hexec
  have hpipe := exec_pipeEffect hexec
  simp only [TrafficEffect, traffic, Traffic.mk.injEq] at htraffic
  obtain ⟨hclient, hid, hinbox, hpending, -⟩ := htraffic
  have hd : ¬ Down s' := by
    unfold Down
    rw [hpipe.2]
    decide
  refine h.keep htable hclient (Nat.le_of_lt (by rw [hid]; exact Nat.lt_succ_self _))
    (fun request hr => .inl (by rwa [← hpending])) (fun x hx => ?_)
    (h.held g List.mem_cons_self) fun hd' => absurd hd' hd
  rw [hinbox] at hx
  rcases List.mem_append.mp hx with hx | hx
  · exact .inl ⟨x, hx, rfl⟩
  · rw [List.mem_singleton.mp hx]
    exact .inr (Nat.le_refl _)

theorem exec {unserved : Prop} (h : ReadInv params reads s (g :: gs))
    (hclients : ClientInv unserved ls (traffic s) (g :: gs)) (hmay : g.May params a)
    (hexec : a.Exec s r s') (hmeets : ReadsMeet params reads (g :: gs) (.act a r)) :
    ReadInv params (readStep reads (.act a r)) s' (RequestAccount.track params a r g :: gs) := by
  have htraffic := exec_trafficEffect hexec
  have htable := exec_tableEffect hexec
  have hpipe := exec_pipeEffect hexec
  cases a with
  | takeHintValue response =>
      obtain ⟨request, status, rfl, rfl, hkind⟩ := hmay
      exact h.takeOut hclients hkind htable htraffic hpipe
  | putHintValue request value => exact h.putHintValue hclients hmay hexec
  | writeFile response data => exact h.writeFile hmay hexec
  | readFile size => exact h.readFile hclients hmay hexec hmeets
  | operation call request status dataBuffer => exact h.operation hmay hexec
  | takePending => exact h.takePending hexec hmeets
  | disconnectNamedPipe => exact h.tornDown hmeets htable htraffic
  | disconnect connected =>
      rcases Bool.eq_false_or_eq_true r with rfl | rfl
      · exact h.tornDown (hmeets rfl) htable htraffic
      · exact h.quiet htable htraffic (Down.of_pipe hpipe) (.inr rfl)
  | clientOpen => exact h.clientOpen hexec
  | clientSend message => exact h.clientSend hexec
  | clientClose =>
      have hd : ¬ Down s' := by
        unfold Down
        rw [hpipe.2]
        decide
      exact h.quiet htable htraffic (fun hd' => absurd hd' hd) (.inr rfl)
  | connectNamedPipe =>
      refine h.quiet htable htraffic (fun hd => ?_) (Or.symm (ite_eq_or_eq _ _ _))
      rcases hpipe with ⟨hconnect, -⟩ | ⟨hsame, -⟩
      · unfold Down at hd ⊢
        rw [hconnect] at hd
        cases hp : s.pipe <;> rw [hp] at hd <;> simp [PipeState.connect] at hd ⊢
      · exact Down.of_pipe hsame hd
  | waitConnect | writeParams =>
      exact h.quiet htable htraffic (Down.of_pipe hpipe.1) (Or.symm (ite_eq_or_eq _ _ _))
  | overlappedInit | unitIsListed | memAlloc =>
      exact h.quiet htable htraffic (Down.of_pipe hpipe) (Or.symm (ite_eq_or_eq _ _ _))
  | _ => exact h.quiet htable htraffic (Down.of_pipe hpipe) (.inr rfl)

end ReadInv

/-! ## Runs -/

/-- What is asked of the steps of a run. -/
abbrev ReadsMeetAt (params : StorageUnitParams) (ls : List PipeEvent) (w : RequestThreads)
    (ev : PipeEvent) : Prop := ReadsMeet params (outstandingReads ls) w.accounts ev

theorem ReadsMeet.perm (hperm : gs.Perm gs') (h : ReadsMeet params reads gs ev) :
    ReadsMeet params reads gs' ev := by
  have hsettled : ReadsSettled reads gs → ReadsSettled reads gs' := fun h =>
    ⟨h.1, fun g hg => h.2 g (hperm.mem_iff.mpr hg)⟩
  cases ev with
  | enter | leave => trivial
  | act a r =>
      cases a with
      | disconnectNamedPipe => exact hsettled h
      | disconnect => exact fun hr => hsettled (h hr)
      | readFile =>
          cases r with
          | error => trivial
          | ok => exact h
      | takePending => exact h
      | _ => trivial

/-- What holds of a history and the state it leads to. -/
structure ReadRunInv (params : StorageUnitParams) (ls : List PipeEvent) (s : PipeServer)
    (gs : List RequestAccount) : Prop where
  clients : ClientInv False ls (traffic s) gs
  reads : ReadInv params (outstandingReads ls) s gs

theorem readRun_inv (hrun : RunWhen (RequestStep params interface) (ReadsMeetAt params)
      requestInit ls w) :
    Threads.Verified (requestRules params) (ReadRunInv params ls) w := by
  refine hrun.history (I := fun ls w =>
      Threads.Verified (requestRules params) (ReadRunInv params ls) w)
    ⟨⟨clientInv_init, .init⟩, fun _ h => absurd h List.not_mem_nil⟩
    fun {ls w ev w'} hw hstep hmeets => ?_
  have hclients : Threads.Verified (requestRules params)
      (fun s gs => ClientInv False (ls ++ [ev]) (traffic s) gs) w' :=
    ClientInv.step ⟨hw.inv.clients, hw.safe⟩ hstep fun hf => hf.elim
  have hreads : Threads.Verified (requestRules params)
      (fun s gs => ReadInv params (outstandingReads (ls ++ [ev])) s gs) w' := by
    refine hw.step_to (C := fun w ev => ReadsMeetAt params ls w ev)
      (fun hp h => ⟨h.clients.perm hp, h.reads.perm hp⟩) (fun hp h => h.perm hp)
      (fun hev h => ?_) (fun hev _ h => ?_) pipeEntry_requests
      (fun hev _ hC hmay h hexec => ?_) hmeets hstep
    · subst hev
      rw [outstandingReads_snoc]
      refine ⟨h.reads.ok, h.reads.get, h.reads.hints, h.reads.origins, h.reads.out,
        fun g hg => ?_, h.reads.pending, h.reads.inbox, fun hd => ?_⟩
      · rcases List.mem_cons.mp hg with rfl | hg
        · trivial
        · exact h.reads.held g hg
      · obtain ⟨hempty, hreads, hnone⟩ := h.reads.down hd
        refine ⟨hempty, hreads, fun g hg => ?_⟩
        rcases List.mem_cons.mp hg with rfl | hg
        · exact fun _ h => by cases h
        · exact hnone g hg
    · subst hev
      rw [outstandingReads_snoc]
      exact ⟨h.reads.ok, h.reads.get, h.reads.hints, h.reads.origins, h.reads.out,
        fun g hg => h.reads.held g (List.mem_cons_of_mem _ hg), h.reads.pending, h.reads.inbox,
        fun hd => ⟨(h.reads.down hd).1, (h.reads.down hd).2.1,
          fun g hg => (h.reads.down hd).2.2 g (List.mem_cons_of_mem _ hg)⟩⟩
    · subst hev
      rw [outstandingReads_snoc]
      exact ⟨h.reads.exec h.clients hmay hexec (hC.perm Threads.accounts_middle), trivial⟩
  exact ⟨⟨hclients.inv, hreads.inv⟩, hreads.safe⟩

/-- The items of the table are the Reads that are out on the current
connection: each in its bucket, one for each, with its length. A Read that fits
is refused for another Read that is out, and for nothing else but memory. -/
theorem read_lengths (hrun : RunWhen (RequestStep params interface) (ReadsMeetAt params)
      requestInit ls w) :
    (∀ i, ((w.shared.hashBuckets i).map Prod.fst).Nodup) ∧
      (∀ i hint value, (hint, value) ∈ w.shared.hashBuckets i ↔ hashIndex hint = i ∧
        ∃ request ∈ outstandingReads ls, request.req.hint = hint ∧
          readLength params request.req = value.toNat) ∧
      ((outstandingReads ls).map fun request => request.req.hint).Nodup ∧
      (∀ request ∈ outstandingReads ls, request.req.kind = transactReadKind ∧
        request.origin.client = w.shared.client ∧
        readLength params request.req ≤ params.maxTransferLength.toNat) ∧
      ∀ request value s', (PipeAction.putHintValue request value).exec w.shared
          (.ends errorSuccess) = some (s', false) →
        ∃ request' ∈ outstandingReads ls, request'.req.hint = request.req.hint := by
  have h := (readRun_inv hrun).inv.reads
  refine ⟨h.ok.keys, fun i hint value => ?_, h.hints, fun request hr => ?_,
    fun request value s' hput => ?_⟩
  · rw [h.ok.mem_iff, h.get]
    refine and_congr_right fun _ => exists_congr fun request => and_congr_right fun hr =>
      and_congr_right fun _ => ?_
    obtain ⟨⟨hkind, -, hlength, -⟩, -, -⟩ := h.out request hr
    rw [← dataLength_read hkind hlength]
    exact UInt32.toNat_inj.symm
  · obtain ⟨⟨hkind, -, hlength, hclient⟩, hle, -⟩ := h.out request hr
    refine ⟨hkind, hclient, ?_⟩
    rw [← dataLength_read hkind hlength]
    exact UInt32.le_iff_toNat_le.mp hle
  · simp only [PipeAction.exec] at hput
    split at hput
    · cases hput
    · simp only [Option.some.injEq, Prod.mk.injEq] at hput
      have hfalse := hput.2
      have hnot : ¬ (w.shared.hashBuckets.get hashIndex request.req.hint = none) := fun hnone => by
        have htrue : (w.shared.hashBuckets.put hashIndex true request.req.hint value).1 = true :=
          Hashed.put_fst.mpr ⟨hnone, rfl⟩
        rw [show (w.shared.hashBuckets.put hashIndex true request.req.hint value).1 = false from
          hfalse] at htrue
        cases htrue
      obtain ⟨value', hvalue⟩ := Option.ne_none_iff_exists'.mp hnot
      obtain ⟨request', hr, heq, -⟩ := (h.get _ _).mp hvalue
      exact ⟨request', hr, heq⟩

/-! ## Two Reads with one hint -/

def oneBlockRead : SpdIoctlTransactReq := ⟨7, transactReadKind, 0, 1, false⟩

def readOut : Schedule := firstRequest oneBlockRead ++ turns 0 2

/-- The client is disconnected, and the next one asks for a Read with the same
hint. -/
def readAgain : Schedule :=
  readOut ++ disconnects 2 ++ turns 0 5 ++ clientOpens ++ turns 0 3 ++ clientSends oneBlockRead ++
    turns 0 2

/-- `ReadsMeet` of the events of `readOut`, as a check. -/
def readsMeet (params : StorageUnitParams) : PipeEvent → Bool
  | .act (.readFile _) (.ok (.whole req _, _)) =>
      req.hint ≠ 0 ∧ readLength params req < 2 ^ 32
  | .act (.readFile _) (.ok (.short _, _)) => true
  | .act .takePending _ => false
  | .act .disconnectNamedPipe _ => false
  | .act (.disconnect _) _ => false
  | _ => true

theorem readsMeet_iff (h : readsMeet params ev = true) : ReadsMeet params reads gs ev := by
  cases ev with
  | enter | leave => trivial
  | act a r =>
      cases a with
      | readFile size =>
          match r with
          | .error _ => trivial
          | .ok (.short _, _) => trivial
          | .ok (.whole req _, _) =>
              obtain ⟨hhint, hlength⟩ := of_decide_eq_true h
              exact fun _ => ⟨hhint, .inl hlength⟩
      | takePending | disconnectNamedPipe | disconnect => cases h
      | _ => trivial

theorem read_lengths_readOut :
    ∃ ls w, Run (RequestStep sampleParams allOperations) requestInit ls w ∧
      (outstandingReads ls).length = 1 ∧
      ∀ i, ((w.shared.hashBuckets i).map Prod.fst).Nodup := by
  have hfinal : (Threads.plays (requestRules sampleParams) (fun c s a => a.exec s c)
      (fun _ _ => readsMeet sampleParams) [] requestInit readOut).map
        (fun x => (outstandingReads x.1).length) = some 1 := by rfl
  obtain ⟨⟨ls, w⟩, hplays, hone⟩ := Option.map_eq_some_iff.mp hfinal
  have hrun : RunWhen _ (ReadsMeetAt sampleParams) _ ls w :=
    requestPlays_run (fun _ _ _ h => readsMeet_iff h) hplays
  exact ⟨ls, w, hrun.run, hone, (read_lengths hrun).1⟩

/-- No Read is out, the table has an item, and a Read has been refused for
it. -/
theorem read_lengths_readAgain :
    ∃ ls w, Run (RequestStep sampleParams allOperations) requestInit ls w ∧
      outstandingReads ls = [] ∧ w.shared.hashBuckets.get hashIndex 7 = some 512 ∧
      .act (.putHintValue ⟨oneBlockRead, ⟨2, 1⟩⟩ 512) false ∈ ls := by
  have hfinal : (Threads.plays (requestRules sampleParams) (fun c s a => a.exec s c)
      (fun _ _ _ => true) [] requestInit readAgain).map (fun x =>
        (outstandingReads x.1, x.2.shared.hashBuckets.get hashIndex 7, x.1.getLast?)) =
      some ([], some 512, some (.act (.putHintValue ⟨oneBlockRead, ⟨2, 1⟩⟩ 512) false)) :=
        by rfl
  obtain ⟨⟨ls, w⟩, hplays, heq⟩ := Option.map_eq_some_iff.mp hfinal
  rw [Prod.mk.injEq, Prod.mk.injEq] at heq
  obtain ⟨hnone, hitem, hlast⟩ := heq
  have hrun : RunWhen _ (fun _ _ _ => True) _ ls w :=
    requestPlays_run (fun _ _ _ _ => trivial) hplays
  exact ⟨ls, w, hrun.run, hnone, hitem, List.mem_of_getLast? hlast⟩

end Winspd.Proofs
