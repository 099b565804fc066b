import Imq.RPC.Exchange
import Imq.Verified.RemoteCall

/-! # Which replies calls get

Nothing in a reply says which call it answers, so a call takes whatever stands
first at the socket.  While each call is issued only when nothing is left of
earlier ones, at most one message is under way, and it belongs to the one call
that may be waiting.

* `Phase` — where that message stands;
* `Moves` — what a step can have been, and `inv_*`, how each moves the message;
* `replies_match` — so every reply goes to its call;
* `unmatched_of_issue` — once something is left over, a call may get it.
-/

namespace Imq

open Lib

variable {σ τ : Type}

/-! ## What is delivered -/

theorem ClientCall.delivered_eq_get {text : JsonText} {call : ClientCall τ} {message : Message}
    (sync : call.rpcCall.async = false) (h : call.receipt = some (.received message)) :
    call.delivered text = some (RPCResponse.get text call.rpcCall (.received message)) := by
  simp [delivered, h, RPCResponse.get, sync]

/-- A message callback that returns was given what is delivered. -/
theorem ClientCall.delivered_of_callback {text : JsonText} {call : ClientCall τ}
    {message : Message} {response : Json} {s s' : τ}
    (h : call.receipt = some (.received message))
    (hrun : (RPCResponse.doMessageCallback text call.rpcCall message).run s = .ok (some response) s') :
    call.delivered text = some (.ok response) := by
  unfold RPCResponse.doMessageCallback at hrun
  cases hset : call.rpcCall.messageReceiptCallback with
  | none =>
    rw [hset] at hrun
    cases hrun
  | some callback =>
    cases hparsed : RPCResponse.parsedResponse text call.rpcCall message with
    | error e =>
      rw [hset, hparsed] at hrun
      cases hrun
    | ok parsed =>
      rw [hset, hparsed] at hrun
      change (callback parsed >>= fun _ => pure (some parsed)).run s = _ at hrun
      cases hcallback : (callback parsed).run s with
      | error e s'' =>
        rw [Cpp.run_bind_error hcallback] at hrun
        cases hrun
      | ok u s'' =>
        rw [Cpp.run_bind_ok hcallback] at hrun
        cases hrun
        simp [delivered, h, hparsed]

namespace Exchange

variable {text : JsonText} {pool : RPCServerWorkerPool σ} {identity : String} {client : RPCObject}
  {s s' : Exchange σ τ}

/-! ## Calls under a step -/

theorem isWaiting_iff {c : Nat} : s.isWaiting c = true ↔ s.Waiting c := by
  unfold isWaiting Waiting
  cases s.calls[c]? <;> simp

theorem getElem?_modify_self {calls : List (ClientCall τ)} {c : Nat} {call : ClientCall τ}
    (f : ClientCall τ → ClientCall τ) (h : calls[c]? = some call) :
    (calls.modify c f)[c]? = some (f call) := by
  simp [h]

theorem getElem?_modify_of_ne {calls : List (ClientCall τ)} {c d : Nat}
    (f : ClientCall τ → ClientCall τ) (h : d ≠ c) : (calls.modify c f)[d]? = calls[d]? := by
  simp [Ne.symm h]

/-- A call after a step is a call before it, changed if the step was about it. -/
theorem getElem?_modify_eq_some {calls : List (ClientCall τ)} {c d : Nat} {call : ClientCall τ}
    {f : ClientCall τ → ClientCall τ} (h : (calls.modify c f)[d]? = some call) :
    ∃ old, calls[d]? = some old ∧ call = if d = c then f old else old := by
  cases hold : calls[d]? with
  | none => simp [List.getElem?_modify, hold] at h
  | some old =>
    refine ⟨old, rfl, ?_⟩
    by_cases hd : d = c
    · subst hd
      rw [getElem?_modify_self f hold] at h
      simpa using h.symm
    · rw [getElem?_modify_of_ne f hd, hold] at h
      simpa [hd] using h.symm

theorem waiting_finish {c d : Nat} {receipt : Receipt} (h : (s.finish c receipt).Waiting d) :
    s.Waiting d ∧ d ≠ c := by
  obtain ⟨call, hcall, hreceipt⟩ := h
  obtain ⟨old, hold, rfl⟩ := getElem?_modify_eq_some hcall
  by_cases hd : d = c
  · simp [hd] at hreceipt
  · rw [if_neg hd] at hreceipt
    exact ⟨⟨old, hold, hreceipt⟩, hd⟩

/-- What a step can have been, and what it did. -/
inductive Moves (text : JsonText) (pool : RPCServerWorkerPool σ) (identity : String)
    (s : Exchange σ τ) : ExchangeStep σ τ → Exchange σ τ → Prop where
  | issue (rpcCall sent : RPCCall τ) : Moves text pool identity s (.issue rpcCall) (s.issue text sent)
  | serve (position c : Nat) (request : Message) (server : σ) (alive : s.server = some server)
      (taken : s.requests[position]? = some (c, request)) :
      Moves text pool identity s (.serve position)
        (s.serve text pool identity position c request server)
  | arrive (position : Nat) (reply : Nat × Message) (taken : s.replies[position]? = some reply) :
      Moves text pool identity s (.arrive position) (s.arrive position reply)
  | receive (c d : Nat) (reply : Message) (rest : List (Nat × Message))
      (first : s.inbox = (d, reply) :: rest) (waiting : s.Waiting c) :
      Moves text pool identity s (.receive c) (s.receive c reply rest)
  | timeOut (c : Nat) : Moves text pool identity s (.timeOut c) (s.finish c .timedOut)
  | stop (c : Nat) : Moves text pool identity s (.stop c) (s.finish c .stopped)
  | elsewhere (server : Option σ) (alive : s.server.isSome) :
      Moves text pool identity s (.elsewhere server) { s with server := server }

theorem moves_of_step {l : ExchangeStep σ τ}
    (next : s.step text pool identity client l = some s') : Moves text pool identity s l s' := by
  cases l with
  | issue rpcCall =>
    simp only [step] at next
    split at next
    next => cases next; exact .issue rpcCall _
    next => cases next
  | serve position =>
    simp only [step] at next
    split at next
    next alive taken => cases next; exact .serve position _ _ _ alive taken
    next => cases next
  | arrive position =>
    simp only [step] at next
    split at next
    next taken => cases next; exact .arrive position _ taken
    next => cases next
  | receive c =>
    simp only [step] at next
    split at next
    next first =>
      split at next
      next waiting => cases next; exact .receive c _ _ _ first (isWaiting_iff.mp waiting)
      next => cases next
    next => cases next
  | timeOut c =>
    simp only [step] at next
    split at next
    next => cases next; exact .timeOut c
    next => cases next
  | stop c =>
    simp only [step] at next
    split at next
    next => cases next; exact .stop c
    next => cases next
  | elsewhere server =>
    simp only [step] at next
    split at next
    next alive => cases next; exact .elsewhere server alive
    next => cases next

/-! ## The one message under way -/

/-- The messages under way or left unread. -/
def messages (s : Exchange σ τ) : List (Nat × Message) × List (Nat × Message) × List (Nat × Message) :=
  (s.requests, s.replies, s.inbox)

/-- Where the one message is, if there is one, and which calls may be waiting:
    only its own.  A call whose request brought the server down waits in vain. -/
inductive Phase (text : JsonText) (s : Exchange σ τ) : Prop where
  | quiet (stand : s.messages = ([], [], [])) (waiting : ∀ d, s.Waiting d → s.server = none)
  | requested (c : Nat) (call : ClientCall τ)
      (stand : s.messages = ([(c, call.rpcCall.frames text)], [], []))
      (issued : s.calls[c]? = some call) (unserved : call.computed = none)
      (waiting : ∀ d, s.Waiting d → d = c ∨ s.server = none)
  | replied (c : Nat) (call : ClientCall τ) (reply : Message)
      (stand : s.messages = ([], [(c, reply)], []))
      (issued : s.calls[c]? = some call) (served : call.computed = some reply)
      (waiting : ∀ d, s.Waiting d → d = c)
  | arrived (c : Nat) (call : ClientCall τ) (reply : Message)
      (stand : s.messages = ([], [], [(c, reply)]))
      (issued : s.calls[c]? = some call) (served : call.computed = some reply)
      (waiting : ∀ d, s.Waiting d → d = c)

/-- What a call has received is what the server sent in answer to it. -/
def Matched (s : Exchange σ τ) : Prop :=
  ∀ (c : Nat) (call : ClientCall τ) (message : Message), s.calls[c]? = some call →
    call.receipt = some (.received message) → call.computed = some message

theorem repliesMatch_of_matched (h : s.Matched) : s.RepliesMatch text := by
  intro call hcall response hdelivered
  obtain ⟨c, hc⟩ := List.mem_iff_getElem?.mp hcall
  unfold ClientCall.delivered at hdelivered
  split at hdelivered
  next message hreceipt =>
    rw [ClientCall.answer, h c call message hc hreceipt]
    exact hdelivered
  next => cases hdelivered

/-! ## Steps -/

/-- A request is answered to its client, unless an exception ends the server. -/
theorem routedTo_workBody (rpcCall : RPCCall τ) {server server' : σ} {sent : Option Message}
    (h : (RPCServerWorkerPool.workBody text pool (some (identity :: rpcCall.frames text))).run
      server = .ok sent server') : ∃ reply, routedTo identity sent = some reply := by
  rw [RPCCall.frames, RPCServerWorkerPool.workBody_of_accepted (accepted_request _ _ _)] at h
  split at h
  next =>
    generalize hperform : RPCServerWorkerPool.performRPC _ = perform at h
    cases hrun : perform.run server with
    | error e s =>
      rw [Cpp.run_bind_error hrun] at h
      cases h
    | ok result s =>
      rw [Cpp.run_bind_ok hrun] at h
      cases h
      exact ⟨_, if_pos rfl⟩
  next =>
    cases h
    exact ⟨_, if_pos rfl⟩

/-- What holds in every state of a run whose calls are issued when all is quiet. -/
structure Inv (text : JsonText) (s : Exchange σ τ) : Prop where
  phase : Phase text s
  matched : s.Matched

theorem inv_initial (server : σ) : Inv text (initial server : Exchange σ τ) where
  phase := .quiet rfl fun d hd => by
    obtain ⟨call, hcall, _⟩ := hd
    cases hcall
  matched := fun c call message hcall => by cases hcall

/-- A change that leaves the messages, and of each call its frames and its
    result, leaves the phase, as long as no further call waits. -/
theorem Phase.of_same_messages (h : Phase text s) (stand : s'.messages = s.messages)
    (server : s.server = none → s'.server = none)
    (calls : ∀ (c : Nat) (call : ClientCall τ), s.calls[c]? = some call →
      ∃ call', s'.calls[c]? = some call' ∧ call'.rpcCall = call.rpcCall ∧
        call'.computed = call.computed)
    (waiting : ∀ d, s'.Waiting d → s.Waiting d) : Phase text s' := by
  cases h with
  | quiet hstand hwaiting =>
    exact .quiet (stand.trans hstand) fun d hd => server (hwaiting d (waiting d hd))
  | requested c call hstand issued unserved hwaiting =>
    obtain ⟨call', issued', hrpcCall, hcomputed⟩ := calls c call issued
    refine .requested c call' ?_ issued' (hcomputed.trans unserved) fun d hd => ?_
    · rw [stand, hstand, hrpcCall]
    · exact (hwaiting d (waiting d hd)).imp id server
  | replied c call reply hstand issued served hwaiting =>
    obtain ⟨call', issued', _, hcomputed⟩ := calls c call issued
    exact .replied c call' reply (stand.trans hstand) issued' (hcomputed.trans served)
      fun d hd => hwaiting d (waiting d hd)
  | arrived c call reply hstand issued served hwaiting =>
    obtain ⟨call', issued', _, hcomputed⟩ := calls c call issued
    exact .arrived c call' reply (stand.trans hstand) issued' (hcomputed.trans served)
      fun d hd => hwaiting d (waiting d hd)

theorem Phase.of_quiet (h : Phase text s) (quiet : s.Quiet) (d : Nat) (hd : s.Waiting d) :
    s.server = none := by
  obtain ⟨hrequests, hreplies, hinbox⟩ := quiet
  cases h with
  | quiet _ waiting => exact waiting d hd
  | requested _ _ stand => simp [messages, hrequests] at stand
  | replied _ _ _ stand => simp [messages, hreplies] at stand
  | arrived _ _ _ stand => simp [messages, hinbox] at stand

/-- The work loop of a call ends with no reply that is not its own. -/
theorem matched_finish (h : s.Matched) {c : Nat} {receipt : Receipt}
    (own : ∀ (call : ClientCall τ) (message : Message), s.calls[c]? = some call →
      receipt = .received message → call.computed = some message) :
    (s.finish c receipt).Matched := by
  intro d call message hcall hreceipt
  obtain ⟨old, hold, rfl⟩ := getElem?_modify_eq_some hcall
  by_cases hd : d = c
  · subst hd
    simp only [if_true, Option.some.injEq] at hreceipt
    simpa using own old message hold hreceipt
  · rw [if_neg hd] at hreceipt ⊢
    exact h d old message hold hreceipt

theorem inv_giveUp (h : Inv text s) (c : Nat) {receipt : Receipt}
    (unreceived : ∀ message, receipt ≠ .received message) : Inv text (s.finish c receipt) where
  phase := by
    have stand : (s.finish c receipt).messages = s.messages := rfl
    apply h.phase.of_same_messages stand id
    · intro d call hcall
      by_cases hd : d = c
      · subst hd
        exact ⟨_, getElem?_modify_self _ hcall, rfl, rfl⟩
      · exact ⟨call, (getElem?_modify_of_ne _ hd).trans hcall, rfl, rfl⟩
    · intro d hd
      exact (waiting_finish hd).1
  matched := matched_finish h.matched fun _ message _ hreceipt => absurd hreceipt (unreceived message)

theorem inv_elsewhere (h : Inv text s) {server : Option σ} (alive : s.server.isSome) :
    Inv text { s with server := server } where
  phase := by
    have stand : messages { s with server := server } = s.messages := rfl
    apply h.phase.of_same_messages stand
    · intro hnone
      simp [hnone] at alive
    · exact fun c call hcall => ⟨call, hcall, rfl, rfl⟩
    · exact fun d hd => hd
  matched := h.matched

theorem inv_issue (h : Inv text s) (quiet : s.Quiet) (rpcCall : RPCCall τ) :
    Inv text (s.issue text rpcCall) where
  phase := by
    have issued : (s.issue text rpcCall).calls[s.calls.length]? = some { rpcCall := rpcCall } := by
      simp [issue]
    apply Phase.requested s.calls.length { rpcCall := rpcCall } _ issued rfl
    · intro d ⟨call, hcall, hreceipt⟩
      by_cases hd : d < s.calls.length
      · -- An earlier call still waits only if the server has gone.
        rw [issue, List.getElem?_append_left hd] at hcall
        exact .inr (h.phase.of_quiet quiet d ⟨call, hcall, hreceipt⟩)
      · have hlt := (List.getElem?_eq_some_iff.mp hcall).1
        simp only [issue, List.length_append, List.length_singleton] at hlt
        omega
    · simp [messages, issue, quiet.1, quiet.2.1, quiet.2.2]
  matched := by
    intro c call message hcall hreceipt
    by_cases hc : c < s.calls.length
    · rw [issue, List.getElem?_append_left hc] at hcall
      exact h.matched c call message hcall hreceipt
    · rw [issue, List.getElem?_append_right (by omega), List.getElem?_singleton] at hcall
      split at hcall
      next => cases hcall; cases hreceipt
      next => cases hcall

theorem inv_arrive (h : Inv text s) {position : Nat} {reply : Nat × Message}
    (hreply : s.replies[position]? = some reply) : Inv text (s.arrive position reply) where
  phase := by
    cases h.phase with
    | replied c call reply' stand issued served waiting =>
      simp only [messages, Prod.mk.injEq] at stand
      rw [stand.2.1, List.getElem?_singleton] at hreply
      split at hreply
      next hposition =>
        cases hreply
        refine .arrived c call reply' ?_ issued served waiting
        simp [messages, arrive, stand, hposition]
      next => cases hreply
    | quiet stand | requested _ _ stand | arrived _ _ _ stand =>
      simp only [messages, Prod.mk.injEq] at stand
      simp [stand.2.1] at hreply
  matched := h.matched

/-- The reply that stands first answers the one call that may be waiting. -/
theorem inv_receive (h : Inv text s) {c d : Nat} {reply : Message} {rest : List (Nat × Message)}
    (hinbox : s.inbox = (d, reply) :: rest) (hwaiting : s.Waiting c) :
    Inv text (s.receive c reply rest) := by
  cases h.phase with
  | arrived e call reply' stand issued served waiting =>
    simp only [messages, Prod.mk.injEq] at stand
    rw [stand.2.2, List.cons.injEq, Prod.mk.injEq] at hinbox
    obtain ⟨⟨rfl, rfl⟩, rfl⟩ := hinbox
    obtain rfl := waiting c hwaiting
    refine ⟨.quiet ?_ fun d hd => ?_, matched_finish h.matched fun call' message hcall' hmessage => ?_⟩
    · simp [messages, receive, finish, stand]
    · -- The call that waited has its reply now.
      obtain ⟨hd, hne⟩ := waiting_finish hd
      exact absurd (waiting d hd) hne
    · rw [issued] at hcall'
      cases hcall'
      cases hmessage
      exact served
  | quiet stand | requested _ _ stand | replied _ _ _ stand =>
    simp only [messages, Prod.mk.injEq] at stand
    simp [stand.2.2] at hinbox

theorem inv_serve (h : Inv text s) {position c : Nat} {request : Message} {server : σ}
    (hserver : s.server = some server) (hrequest : s.requests[position]? = some (c, request)) :
    Inv text (s.serve text pool identity position c request server) := by
  cases h.phase with
  | requested e call stand issued unserved waiting =>
    simp only [messages, Prod.mk.injEq] at stand
    obtain ⟨hrequests, hreplies, hinbox⟩ := stand
    rw [hrequests, List.getElem?_singleton] at hrequest
    split at hrequest
    next hposition =>
      cases hrequest
      subst hposition
      have waiting' : ∀ d, s.Waiting d → d = c := fun d hd =>
        (waiting d hd).resolve_right (by simp [hserver])
      unfold serve
      cases hrun : (RPCServerWorkerPool.workBody text pool
          (some (identity :: call.rpcCall.frames text))).run server with
      | error ex server' =>
        -- An exception has left the worker, and nobody will answer.
        refine ⟨.quiet ?_ fun _ _ => rfl, h.matched⟩
        simp [messages, hrequests, hreplies, hinbox]
      | ok sent server' =>
        obtain ⟨reply, hreply⟩ := routedTo_workBody call.rpcCall hrun
        simp only [hreply]
        refine ⟨.replied c { call with computed := some reply } reply ?_
          (getElem?_modify_self _ issued) rfl fun d hd => ?_, fun d call' message hcall' hreceipt => ?_⟩
        · simp [messages, hrequests, hreplies, hinbox]
        · obtain ⟨call', hcall', hreceipt⟩ := hd
          obtain ⟨old, hold, rfl⟩ := getElem?_modify_eq_some hcall'
          refine waiting' d ⟨old, hold, ?_⟩
          split at hreceipt <;> exact hreceipt
        · obtain ⟨old, hold, rfl⟩ := getElem?_modify_eq_some hcall'
          by_cases hd : d = c
          · -- A call has received nothing before its request is served.
            subst hd
            rw [if_pos rfl] at hreceipt
            rw [issued] at hold
            cases hold
            have hcomputed := h.matched d call message issued hreceipt
            rw [unserved] at hcomputed
            cases hcomputed
          · rw [if_neg hd] at hreceipt ⊢
            exact h.matched d old message hold hreceipt
    next => cases hrequest
  | quiet stand | replied _ _ _ stand | arrived _ _ _ stand =>
    simp only [messages, Prod.mk.injEq] at stand
    simp [stand.1] at hrequest

theorem inv_step {l : ExchangeStep σ τ} (h : Inv text s) (ok : s.IssuedWhenQuiet l)
    (next : s.step text pool identity client l = some s') : Inv text s' := by
  cases moves_of_step next with
  | issue rpcCall sent => exact inv_issue h ok sent
  | serve position c request server alive taken => exact inv_serve h alive taken
  | arrive position reply taken => exact inv_arrive h taken
  | receive c d reply rest first waiting => exact inv_receive h first waiting
  | timeOut c => exact inv_giveUp h c (by simp)
  | stop c => exact inv_giveUp h c (by simp)
  | elsewhere server alive => exact inv_elsewhere h alive

/-- If every call is issued only when nothing is left of earlier ones, then what
    a call is given is the server's answer to that call, whatever the order of
    the other steps, the delays and the calls that are given up. -/
theorem replies_match (server : σ) {ls : List (ExchangeStep σ τ)}
    (run : Run (step text pool identity client) IssuedWhenQuiet (initial server) ls s) :
    s.RepliesMatch text := by
  have keep : ∀ (s : Exchange σ τ) (l : ExchangeStep σ τ) (s' : Exchange σ τ), Inv text s →
      s.IssuedWhenQuiet l → s.step text pool identity client l = some s' → Inv text s' :=
    fun _ _ _ h ok next => inv_step h ok next
  exact repliesMatch_of_matched (run.invariant (inv_initial server) keep).matched

/-! ## A joiner and its leader -/

def leaderNode : HostAndPort := { host := "localhost", port := 17101 }

def joiningNode : HostAndPort := { host := "localhost", port := 17102 }

def leaderPool : RPCServerWorkerPool Cluster :=
  .ofRegistrations [("GetNodesInCluster", IMQNode.getNodesInCluster),
    ("CheckHealth", Health.checkHealthRPC)]

def leaderClient : RPCObject where
  kind := .client
  hostAndPort := leaderNode
  id := 0

def registrationCall : RPCCall Process where
  rpc := "GetNodesInCluster"
  args := Cluster.registerArgs joiningNode

def healthAnswer : Json := .object [("health", .number 1)]

def nodesAnswer : Json :=
  .object [("nodes", .object [("0", .string "localhost:17101"), ("1", .string "localhost:17102")])]

/-- The text of the four values that are sent. -/
def leaderText : JsonText := .ofValues
  (fun j =>
    if j.typeName = "null" then "null"
    else if (j.constAt "health").toOption.isSome then "\x7b\"health\":1\x7d"
    else if (j.constAt "nodes").toOption.isSome then
      "\x7b\"nodes\":\x7b\"0\":\"localhost:17101\",\"1\":\"localhost:17102\"\x7d\x7d"
    else "\x7b\"host\":\"localhost\",\"port\":17102,\"register_node\":true\x7d")
  [.null, Cluster.registerArgs joiningNode, healthAnswer, nodesAnswer]

def healthResponse : Json :=
  .object [("callee_info", calleeInfoJson leaderNode), ("health", .number 1)]

def nodesResponse : Json :=
  .object [("callee_info", calleeInfoJson leaderNode),
    ("nodes", .object [("0", .string "localhost:17101"), ("1", .string "localhost:17102")])]

theorem replies_match_one_by_one :
    ∃ s : Exchange Cluster Process,
      s.calls.map (·.delivered leaderText) =
        [some (.ok healthResponse), some (.ok nodesResponse)] ∧
      s.RepliesMatch leaderText := by
  have run : Run (step leaderText leaderPool "joiner" leaderClient) IssuedWhenQuiet
      (initial (Cluster.new.addNode leaderNode))
      [.issue Health.healthCall, .serve 0, .arrive 0, .receive 0,
        .issue registrationCall, .serve 0, .arrive 0, .receive 1] _ := Run.of_foldlM rfl
  exact ⟨_, rfl, replies_match _ run⟩

/-- The health check of the leader times out; its answer reaches the socket when
    `Bootstrap` waits for the nodes. -/
def lateAnswer : List (ExchangeStep Cluster Process) :=
  [.issue Health.healthCall, .timeOut 0, .issue registrationCall, .serve 0, .serve 0, .arrive 0,
    .arrive 0, .receive 1]

theorem bootstrap_receives_health_answer :
    ∃ s, Run (step leaderText leaderPool "joiner" leaderClient) unguarded
        (initial (Cluster.new.addNode leaderNode)) lateAnswer s ∧
      ¬ s.RepliesMatch leaderText := by
  refine ⟨_, Run.of_foldlM rfl, fun hmatch => ?_⟩
  have hanswer := hmatch _ (List.mem_of_getElem? (i := 1) rfl) _ rfl
  have hok : (some (.ok nodesResponse) : Option (Except Exn Json)) = some (.ok healthResponse) :=
    hanswer
  simp [nodesResponse, healthResponse] at hok

/-! ## Replies that are left over -/

/-- What a worker is to be given. -/
def RequestsIssued (text : JsonText) (s : Exchange σ τ) : Prop :=
  ∀ request ∈ s.requests, request.1 < s.calls.length ∧
    ∃ rpcCall : RPCCall τ, request.2 = rpcCall.frames text

theorem requestsIssued_step {l : ExchangeStep σ τ} (h : s.RequestsIssued text)
    (next : s.step text pool identity client l = some s') : s'.RequestsIssued text := by
  -- All steps but one leave the calls that there are and at most take a request away.
  have fewer : ∀ {t : Exchange σ τ}, t.requests ⊆ s.requests → t.calls.length = s.calls.length →
      t.RequestsIssued text := by
    intro t hsub hlength request hrequest
    rw [hlength]
    exact h request (hsub hrequest)
  cases moves_of_step next with
  | issue rpcCall sent =>
    intro request hrequest
    simp only [issue, List.length_append, List.length_singleton]
    rcases List.mem_append.mp hrequest with hold | hnew
    · obtain ⟨hlt, hframes⟩ := h request hold
      exact ⟨by omega, hframes⟩
    · rw [List.mem_singleton] at hnew
      subst hnew
      exact ⟨by omega, sent, rfl⟩
  | serve position c request server =>
    unfold serve
    apply fewer
    · split
      next => split <;> exact List.eraseIdx_subset
      next => exact List.eraseIdx_subset
    · split
      next => split <;> simp
      next => rfl
  | arrive => exact fewer (List.Subset.refl _) rfl
  | receive => exact fewer (List.Subset.refl _) (by simp [receive, finish])
  | timeOut | stop => exact fewer (List.Subset.refl _) (by simp [finish])
  | elsewhere => exact fewer (List.Subset.refl _) rfl

/-- Some way to go on ends with a call that is given what does not answer it. -/
def MayMismatch (text : JsonText) (pool : RPCServerWorkerPool σ) (identity : String)
    (client : RPCObject) (s : Exchange σ τ) : Prop :=
  ∃ ms s', Run (step text pool identity client) unguarded s ms s' ∧ ¬ s'.RepliesMatch text

theorem mayMismatch_of_step {l : ExchangeStep σ τ}
    (next : s.step text pool identity client l = some s')
    (h : s'.MayMismatch text pool identity client) : s.MayMismatch text pool identity client := by
  obtain ⟨ms, s'', run, hunmatched⟩ := h
  exact ⟨_, s'', (Run.nil.snoc trivial next).append run, hunmatched⟩

/-- A call that has been issued and nothing else. -/
def Untouched (s : Exchange σ τ) (c : Nat) : Prop :=
  ∃ call, s.calls[c]? = some call ∧ call.receipt = none ∧ call.computed = none

/-- An unanswered call takes a reply at the socket, which cannot be its own. -/
theorem unmatched_of_inbox {c : Nat} (hc : s.Untouched c) (hinbox : s.inbox ≠ []) :
    s.MayMismatch text pool identity client := by
  obtain ⟨call, hcall, hreceipt, hcomputed⟩ := hc
  obtain ⟨⟨d, reply⟩, rest, hinbox⟩ := List.exists_cons_of_ne_nil hinbox
  have hwaiting : s.isWaiting c = true := isWaiting_iff.mpr ⟨call, hcall, hreceipt⟩
  have next : s.step text pool identity client (.receive c) = some (s.receive c reply rest) := by
    simp [step, hinbox, hwaiting]
  refine ⟨_, _, Run.nil.snoc trivial next, fun hmatch => ?_⟩
  have hafter : (s.receive c reply rest).calls[c]? =
      some { call with receipt := some (.received reply) } := getElem?_modify_self _ hcall
  have hanswer := hmatch _ (List.mem_of_getElem? hafter) _ rfl
  simp [ClientCall.answer, hcomputed] at hanswer

theorem unmatched_of_replies {c : Nat} (hc : s.Untouched c) (hreplies : s.replies ≠ []) :
    s.MayMismatch text pool identity client := by
  obtain ⟨reply, rest, hreplies⟩ := List.exists_cons_of_ne_nil hreplies
  have next : s.step text pool identity client (.arrive 0) = some (s.arrive 0 reply) := by
    simp [step, hreplies]
  have hc' : (s.arrive 0 reply).Untouched c := hc
  exact mayMismatch_of_step next (unmatched_of_inbox hc' (by simp [arrive]))

theorem unmatched_of_requests
    (returns : ∀ name f, pool.rpcs.lookup name = some f →
      ∀ a s, ∃ result s', (f a).run s = .ok result s')
    {server : σ} (alive : s.server = some server) {c d : Nat} (hc : s.Untouched c)
    {rpcCall : RPCCall τ} {rest : List (Nat × Message)} (hne : d ≠ c)
    (hrequests : s.requests = (d, rpcCall.frames text) :: rest) :
    s.MayMismatch text pool identity client := by
  have hlength : (identity :: rpcCall.frames text).length ≠ 1 ∧
      (identity :: rpcCall.frames text).length ≠ 2 := by
    simp [RPCCall.frames]
  have hreturns : ∃ sent server', (RPCServerWorkerPool.workBody text pool
      (some (identity :: rpcCall.frames text))).run server = .ok sent server' :=
    RPCServerWorkerPool.workBody_returns returns hlength server
  obtain ⟨sent, server', hrun⟩ := hreturns
  obtain ⟨reply, hreply⟩ := routedTo_workBody rpcCall hrun
  have next : s.step text pool identity client (.serve 0) =
      some (s.serve text pool identity 0 d (rpcCall.frames text) server) := by
    simp [step, alive, hrequests]
  have hserve : s.serve text pool identity 0 d (rpcCall.frames text) server =
      { s with
        server := some server'
        calls := s.calls.modify d fun call => { call with computed := some reply }
        requests := rest
        replies := s.replies ++ [(d, reply)] } := by
    simp [serve, hrun, hreply, hrequests]
  have hc' : (s.serve text pool identity 0 d (rpcCall.frames text) server).Untouched c := by
    obtain ⟨call, hcall, hcall'⟩ := hc
    refine ⟨call, ?_, hcall'⟩
    rw [hserve]
    exact (getElem?_modify_of_ne _ (Ne.symm hne)).trans hcall
  exact mayMismatch_of_step next (unmatched_of_replies hc' (by rw [hserve]; simp))

/-- If something is left of earlier calls when a call is issued, that call may
    be given the answer to another. -/
theorem unmatched_of_issue
    (returns : ∀ name f, pool.rpcs.lookup name = some f →
      ∀ a s, ∃ result s', (f a).run s = .ok result s')
    {start : σ} {ls : List (ExchangeStep σ τ)}
    (run : Run (step text pool identity client) unguarded (initial start) ls s)
    (alive : s.server.isSome) (left : ¬ s.Quiet) {rpcCall : RPCCall τ}
    (issued : s.step text pool identity client (.issue rpcCall) = some s') :
    s'.MayMismatch text pool identity client := by
  have keep : ∀ (s : Exchange σ τ) (l : ExchangeStep σ τ) (s' : Exchange σ τ),
      s.RequestsIssued text → unguarded s l → s.step text pool identity client l = some s' →
      s'.RequestsIssued text := fun _ _ _ h _ next => requestsIssued_step h next
  have hrequests := run.invariant (fun _ h => by cases h) keep
  simp only [step] at issued
  split at issued
  next sent _ =>
    cases issued
    have hc : (s.issue text sent).Untouched s.calls.length :=
      ⟨{ rpcCall := sent }, by simp [issue], rfl, rfl⟩
    by_cases hinbox : s.inbox = []
    · by_cases hreplies : s.replies = []
      · -- Only a request is left, and the new one stands behind it.
        obtain ⟨⟨d, request⟩, rest, hcons⟩ := List.exists_cons_of_ne_nil fun h =>
          left ⟨h, hreplies, hinbox⟩
        obtain ⟨hlt, old, hframes⟩ := hrequests (d, request) (by simp [hcons])
        obtain ⟨server, hserver⟩ := Option.isSome_iff_exists.mp alive
        have hfirst : (s.issue text sent).requests = (d, old.frames text) ::
            (rest ++ [(s.calls.length, sent.frames text)]) := by
          rw [issue, hcons, ← hframes, List.cons_append]
        have hserver' : (s.issue text sent).server = some server := hserver
        exact unmatched_of_requests returns hserver' hc (Nat.ne_of_lt hlt) hfirst
      · exact unmatched_of_replies hc hreplies
    · exact unmatched_of_inbox hc hinbox
  next => cases issued

end Exchange

end Imq
