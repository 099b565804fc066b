import Imq.RPC.WorkerThreads
import Imq.Verified.RemoteCall

/-! # What the threads of a worker pool do with requests

* `change_of_step` — what a step can do;
* `answered_once` — in every run, no request is lost or answered twice;
* `all_answered` — a pool that is not stopped comes to rest, and then has answered all;
* `stop_ends_workers` — what is still done after `Stop`.
-/

namespace Imq

open Lib RPCServerWorkerPool

variable {σ : Type}

/-- The elements of a list that may be at work, one of which is replaced. -/
theorem sum_map_set {α : Type} {l : List α} {i : Nat} {a : α} (h : l[i]? = some a) (b : α)
    (f : α → Nat) : ((l.set i b).map f).sum + f a = (l.map f).sum + f b := by
  obtain ⟨hi, rfl⟩ := List.getElem?_eq_some_iff.mp h
  obtain ⟨l₁, l₂, hl, _, hset⟩ := @List.exists_of_set _ i b l hi
  have hmap := congrArg (fun l => (l.map f).sum) hl
  simp only [List.map_append, List.map_cons, List.sum_append, List.sum_cons] at hmap
  rw [hset]
  simp only [List.map_append, List.map_cons, List.sum_append, List.sum_cons]
  omega

namespace WorkerThreads

/-! ## What a step can do -/

inductive Change (text : JsonText) (pool : RPCServerWorkerPool σ) (numWorkers : Nat)
    (s : WorkerThreads σ) : WorkerThreadsStep σ → WorkerThreads σ → Prop
  | started : Change text pool numWorkers s .start
      { s with running := true, toCreate := s.toCreate + numWorkers }
  | stopped : Change text pool numWorkers s .stop { s with running := false }
  | created (more : s.toCreate ≠ 0) : Change text pool numWorkers s .createServerWorker
      { s with toCreate := s.toCreate - 1, workers := s.workers ++ [{}] }
  | requested (identity : String) (frames : Message) :
      Change text pool numWorkers s (.request identity frames) (s.request (identity :: frames))
  | dispatched {w : Nat} {worker : ServerWorker} {request : Numbered} {queue : List Numbered}
      (hw : s.workers[w]? = some worker) (hqueue : s.queue = request :: queue) :
      Change text pool numWorkers s (.dispatch w)
        ({ s with queue := queue }.setWorker w { worker with inbox := worker.inbox ++ [request] })
  | tested {w : Nat} {inbox : List Numbered} (hw : s.workers[w]? = some ⟨inbox, .testRunning⟩) :
      Change text pool numWorkers s (.work w)
        (s.setWorker w ⟨inbox, if s.running then .receive else .returned⟩)
  | taken {w : Nat} {request : Numbered} {inbox : List Numbered}
      (hw : s.workers[w]? = some ⟨request :: inbox, .receive⟩) :
      Change text pool numWorkers s (.work w) (s.setWorker w ⟨inbox, .perform request⟩)
  | performed {w : Nat} {request : Numbered} {inbox : List Numbered}
      (hw : s.workers[w]? = some ⟨inbox, .perform request⟩) {server server' : σ} {sent : Message}
      (hrun : (workBody text pool (some request.2)).run server = .ok (some sent) server') :
      Change text pool numWorkers s (.work w)
        ({ s with server := some server' }.setWorker w ⟨inbox, .send (request.1, sent)⟩)
  | crashed {w : Nat} {request : Numbered} {inbox : List Numbered}
      (hw : s.workers[w]? = some ⟨inbox, .perform request⟩) {server server' : σ} {e : Exn}
      (hrun : (workBody text pool (some request.2)).run server = .error e server') :
      Change text pool numWorkers s (.work w) { s with server := none }
  | sent {w : Nat} {reply : Numbered} {inbox : List Numbered}
      (hw : s.workers[w]? = some ⟨inbox, .send reply⟩) :
      Change text pool numWorkers s (.work w)
        ({ s with replies := s.replies ++ [reply] }.setWorker w ⟨inbox, .testRunning⟩)
  | interrupted {w : Nat} {inbox : List Numbered} (hw : s.workers[w]? = some ⟨inbox, .receive⟩) :
      Change text pool numWorkers s (.interrupt w) (s.setWorker w ⟨inbox, .testRunning⟩)
  | elsewhere (server : Option σ) :
      Change text pool numWorkers s (.elsewhere server) { s with server := server }

section

variable {text : JsonText} {pool : RPCServerWorkerPool σ} {numWorkers : Nat}
  {s s' : WorkerThreads σ} {l : WorkerThreadsStep σ}

theorem change_of_work {server : σ} {w : Nat} {worker : ServerWorker}
    (hw : s.workers[w]? = some worker) (next : s.work text pool server w worker = some s') :
    Change text pool numWorkers s (.work w) s' := by
  obtain ⟨inbox, phase⟩ := worker
  cases phase with
  | testRunning =>
    cases next
    exact .tested hw
  | receive =>
    cases inbox with
    | nil => cases next
    | cons request inbox =>
      cases next
      exact .taken hw
  | perform request =>
    cases next
    unfold perform
    cases hrun : (workBody text pool (some request.2)).run server with
    | error e server' => exact .crashed hw hrun
    | ok sent server' =>
      obtain ⟨reply, rfl⟩ := workBody_sends hrun
      exact .performed hw hrun
  | send reply =>
    cases next
    exact .sent hw
  | returned => cases next

theorem change_of_step (next : step text pool numWorkers s l = some s') :
    s.server.isSome ∧ Change text pool numWorkers s l s' := by
  unfold step at next
  split at next
  next => cases next
  next hserver =>
    cases next
    exact ⟨Option.isSome_of_mem hserver, .started⟩
  next hserver =>
    cases next
    exact ⟨Option.isSome_of_mem hserver, .stopped⟩
  next hserver =>
    split at next
    · cases next
    next more =>
      cases next
      exact ⟨Option.isSome_of_mem hserver, .created more⟩
  next identity frames hserver =>
    cases next
    exact ⟨Option.isSome_of_mem hserver, .requested identity frames⟩
  next w hserver =>
    obtain ⟨worker, hw, next⟩ := Option.bind_eq_some_iff.mp next
    unfold dispatch at next
    split at next
    next request queue hqueue =>
      cases next
      exact ⟨Option.isSome_of_mem hserver, .dispatched hw hqueue⟩
    · cases next
  next w hserver =>
    obtain ⟨worker, hw, next⟩ := Option.bind_eq_some_iff.mp next
    exact ⟨Option.isSome_of_mem hserver, change_of_work hw next⟩
  next w hserver =>
    obtain ⟨⟨inbox, phase⟩, hw, next⟩ := Option.bind_eq_some_iff.mp next
    unfold interrupt at next
    split at next
    next hphase =>
      cases hphase
      cases next
      exact ⟨Option.isSome_of_mem hserver, .interrupted hw⟩
    · cases next
  next server hserver =>
    cases next
    exact ⟨Option.isSome_of_mem hserver, .elsewhere server⟩

end

/-! ## Requests are conserved -/

end WorkerThreads

/-- The numbers of the requests that a worker has taken and not answered. -/
def WorkPhase.atHand : WorkPhase → List Nat
  | .perform request => [request.1]
  | .send reply => [reply.1]
  | .testRunning | .receive | .returned => []

def ServerWorker.atHand (worker : ServerWorker) : List Nat :=
  worker.inbox.map Prod.fst ++ worker.phase.atHand

namespace WorkerThreads

/-- The numbers of the requests that no reply has been sent to. -/
def pending (s : WorkerThreads σ) : List Nat :=
  s.queue.map Prod.fst ++ s.workers.flatMap ServerWorker.atHand

/-- Every request is pending or answered, and counts once. -/
def Conserved (s : WorkerThreads σ) : Prop :=
  (s.replies.map Prod.fst ++ s.pending).Perm (List.range s.received.length)

/-- How often a request is met with. -/
def tally (s : WorkerThreads σ) (n : Nat) : Nat :=
  (s.replies.map Prod.fst).count n + (s.queue.map Prod.fst).count n +
    (s.workers.map fun worker => worker.atHand.count n).sum

theorem conserved_iff_tally (s : WorkerThreads σ) :
    s.Conserved ↔ ∀ n, s.tally n = (List.range s.received.length).count n := by
  unfold Conserved pending
  rw [List.perm_iff_count]
  refine forall_congr' fun n => ?_
  rw [List.count_append, List.count_append, List.count_flatMap, ← Nat.add_assoc]
  rfl

section

variable {text : JsonText} {pool : RPCServerWorkerPool σ} {numWorkers : Nat}
  {s s' : WorkerThreads σ} {l : WorkerThreadsStep σ}

theorem conserved_change (h : s.Conserved) (change : Change text pool numWorkers s l s') :
    s'.Conserved := by
  rw [conserved_iff_tally] at h ⊢
  intro n
  have hn := h n
  cases change with
  | started => exact hn
  | stopped => exact hn
  | created more =>
    rw [← hn]
    simp [tally, ServerWorker.atHand, WorkPhase.atHand]
  | requested identity frames =>
    simp only [tally, request, List.map_append, List.count_append, List.map_singleton,
      List.length_append, List.length_singleton, List.range_succ] at hn ⊢
    omega
  | @dispatched w worker request queue hw hqueue =>
    have hset := sum_map_set hw { worker with inbox := worker.inbox ++ [request] }
      fun worker => worker.atHand.count n
    simp only [tally, setWorker, hqueue, List.map_cons, List.count_cons, ServerWorker.atHand,
      List.map_append, List.count_append, List.map_nil, List.count_nil] at hn hset ⊢
    omega
  | @tested w inbox hw =>
    -- Whichever way the test goes, the worker has nothing at hand in the phase itself.
    generalize hphase : (if s.running then WorkPhase.receive else .returned) = phase
    have hnone : phase.atHand = WorkPhase.testRunning.atHand := by
      rw [← hphase]
      split <;> rfl
    have hset := sum_map_set hw ⟨inbox, phase⟩ fun worker => worker.atHand.count n
    simp only [tally, setWorker, ServerWorker.atHand, hnone] at hn hset ⊢
    omega
  | @taken w request inbox hw =>
    have hset := sum_map_set hw ⟨inbox, .perform request⟩ fun worker => worker.atHand.count n
    simp only [tally, setWorker, ServerWorker.atHand, WorkPhase.atHand, List.map_cons,
      List.count_append, List.count_cons, List.count_nil] at hn hset ⊢
    omega
  | @performed w request inbox hw server server' sent hrun =>
    have hset := sum_map_set hw ⟨inbox, .send (request.1, sent)⟩
      fun worker => worker.atHand.count n
    simp only [tally, setWorker, ServerWorker.atHand, WorkPhase.atHand] at hn hset ⊢
    omega
  -- The request stays where it is: nothing is sent for it any more.
  | crashed hw hrun => exact hn
  | @sent w reply inbox hw =>
    have hset := sum_map_set hw ⟨inbox, .testRunning⟩ fun worker => worker.atHand.count n
    simp only [tally, setWorker, ServerWorker.atHand, WorkPhase.atHand, List.map_append,
      List.count_append, List.map_cons, List.map_nil, List.count_nil] at hn hset ⊢
    omega
  | @interrupted w inbox hw =>
    have hset := sum_map_set hw ⟨inbox, .testRunning⟩ fun worker => worker.atHand.count n
    simp only [tally, setWorker, ServerWorker.atHand, WorkPhase.atHand] at hn hset ⊢
    omega
  | elsewhere server => exact hn

end

/-! ## Replies -/

/-- The number of a request is that of the message. -/
def IsRequest (received : List Message) (r : Numbered) : Prop := received[r.1]? = some r.2

/-- A worker sends this after the message of that number. -/
def IsReply (text : JsonText) (pool : RPCServerWorkerPool σ) (received : List Message)
    (r : Numbered) : Prop :=
  ∃ message, received[r.1]? = some message ∧
    ∃ server server', (workBody text pool (some message)).run server = .ok (some r.2) server'

def PhaseInv (text : JsonText) (pool : RPCServerWorkerPool σ) (received : List Message) :
    WorkPhase → Prop
  | .perform request => IsRequest received request
  | .send reply => IsReply text pool received reply
  | .testRunning | .receive | .returned => True

structure WorkerInv (text : JsonText) (pool : RPCServerWorkerPool σ) (received : List Message)
    (worker : ServerWorker) : Prop where
  inbox : ∀ r ∈ worker.inbox, IsRequest received r
  phase : PhaseInv text pool received worker.phase

structure Inv (text : JsonText) (pool : RPCServerWorkerPool σ) (s : WorkerThreads σ) : Prop where
  queue : ∀ r ∈ s.queue, IsRequest s.received r
  worker : ∀ worker ∈ s.workers, WorkerInv text pool s.received worker
  reply : ∀ r ∈ s.replies, IsReply text pool s.received r

section

variable {text : JsonText} {pool : RPCServerWorkerPool σ} {numWorkers : Nat}
  {s s' : WorkerThreads σ} {l : WorkerThreadsStep σ}

theorem getElem?_received {received : List Message} {n : Nat} {message : Message}
    (h : received[n]? = some message) (more : List Message) :
    (received ++ more)[n]? = some message := by
  rw [List.getElem?_append_left (List.getElem?_eq_some_iff.mp h).1]
  exact h

theorem IsReply.append {received : List Message} {r : Numbered}
    (h : IsReply text pool received r) (more : List Message) :
    IsReply text pool (received ++ more) r := by
  obtain ⟨message, hmessage, hrun⟩ := h
  exact ⟨message, getElem?_received hmessage more, hrun⟩

theorem WorkerInv.append {received : List Message} {worker : ServerWorker}
    (h : WorkerInv text pool received worker) (more : List Message) :
    WorkerInv text pool (received ++ more) worker where
  inbox r hr := getElem?_received (h.inbox r hr) more
  phase := by
    have hphase := h.phase
    cases hat : worker.phase with
    | perform request =>
      rw [hat] at hphase
      exact getElem?_received hphase more
    | send reply =>
      rw [hat] at hphase
      exact hphase.append more
    | testRunning => trivial
    | receive => trivial
    | returned => trivial

theorem Inv.workerAt (h : Inv text pool s) {w : Nat} {worker : ServerWorker}
    (hw : s.workers[w]? = some worker) : WorkerInv text pool s.received worker :=
  h.worker worker (List.mem_of_getElem? hw)

theorem Inv.setWorker (h : Inv text pool s) {worker : ServerWorker}
    (hworker : WorkerInv text pool s.received worker) (w : Nat) :
    Inv text pool (s.setWorker w worker) where
  queue := h.queue
  worker other hother := by
    obtain hother | rfl := List.mem_or_eq_of_mem_set hother
    · exact h.worker other hother
    · exact hworker
  reply := h.reply

theorem inv_change (h : Inv text pool s) (change : Change text pool numWorkers s l s') :
    Inv text pool s' := by
  cases change with
  | started => exact ⟨h.queue, h.worker, h.reply⟩
  | stopped => exact ⟨h.queue, h.worker, h.reply⟩
  | created more =>
    refine ⟨h.queue, fun worker hworker => ?_, h.reply⟩
    obtain hworker | hworker := List.mem_append.mp hworker
    · exact h.worker worker hworker
    · cases List.mem_singleton.mp hworker
      exact ⟨nofun, trivial⟩
  | requested identity frames =>
    refine ⟨fun r hr => ?_, fun worker hworker => (h.worker worker hworker).append _,
      fun r hr => (h.reply r hr).append _⟩
    obtain hr | hr := List.mem_append.mp hr
    · exact getElem?_received (h.queue r hr) _
    · cases List.mem_singleton.mp hr
      exact List.getElem?_concat_length
  | dispatched hw hqueue =>
    -- The request goes from the head of the queue to the end of an inbox.
    have hqueued := h.queue
    rw [hqueue] at hqueued
    apply Inv.setWorker
    · exact ⟨fun r hr => hqueued r (List.mem_cons_of_mem _ hr), h.worker, h.reply⟩
    · refine ⟨fun r hr => ?_, (h.workerAt hw).phase⟩
      obtain hr | hr := List.mem_append.mp hr
      · exact (h.workerAt hw).inbox r hr
      · cases List.mem_singleton.mp hr
        exact hqueued _ List.mem_cons_self
  | tested hw =>
    apply h.setWorker
    refine ⟨(h.workerAt hw).inbox, ?_⟩
    dsimp only
    split <;> trivial
  | taken hw =>
    have hinbox := (h.workerAt hw).inbox
    apply h.setWorker
    exact ⟨fun r hr => hinbox r (List.mem_cons_of_mem _ hr), hinbox _ List.mem_cons_self⟩
  | performed hw hrun =>
    -- The reply is what the run gives, with the server as it is in this very step.
    apply Inv.setWorker
    · exact ⟨h.queue, h.worker, h.reply⟩
    · exact ⟨(h.workerAt hw).inbox, _, (h.workerAt hw).phase, _, _, hrun⟩
  | crashed hw hrun => exact ⟨h.queue, h.worker, h.reply⟩
  | sent hw =>
    apply Inv.setWorker
    · refine ⟨h.queue, h.worker, fun r hr => ?_⟩
      obtain hr | hr := List.mem_append.mp hr
      · exact h.reply r hr
      · cases List.mem_singleton.mp hr
        exact (h.workerAt hw).phase
    · exact ⟨(h.workerAt hw).inbox, trivial⟩
  | interrupted hw =>
    apply h.setWorker
    exact ⟨(h.workerAt hw).inbox, trivial⟩
  | elsewhere server => exact ⟨h.queue, h.worker, h.reply⟩

theorem inv_of_run {server : σ} {running : Bool} {guard : WorkerThreads σ → WorkerThreadsStep σ → Prop}
    {labels : List (WorkerThreadsStep σ)}
    (run : Run (step text pool numWorkers) guard (initial server running) labels s) :
    s.Conserved ∧ Inv text pool s := by
  apply run.invariant ⟨.refl _, ⟨nofun, nofun, nofun⟩⟩
  intro s l s' h _ next
  obtain ⟨_, change⟩ := change_of_step next
  exact ⟨conserved_change h.1 change, inv_change h.2 change⟩

end

/-- Whenever workers are started and stopped, and whatever the messages say: every request
    is pending or has been answered, and none is answered twice; a reply is what a worker
    sends after the request of its number; and if the request has no more than three frames,
    the reply goes to its sender. -/
theorem answered_once (text : JsonText) (pool : RPCServerWorkerPool σ) (numWorkers : Nat)
    (server : σ) (running : Bool) (labels : List (WorkerThreadsStep σ)) (s : WorkerThreads σ)
    (run : Run (step text pool numWorkers) unguarded (initial server running) labels s) :
    (s.replies.map Prod.fst ++ s.pending).Perm (List.range s.received.length) ∧
      ∀ r ∈ s.replies, IsReply text pool s.received r ∧
        ∀ identity frames, s.received[r.1]? = some (identity :: frames) → frames.length ≤ 2 →
          ∃ result, r.2 = [identity, text.dump result] := by
  obtain ⟨hconserved, h⟩ := inv_of_run run
  refine ⟨hconserved, fun r hr => ⟨h.reply r hr, fun identity frames hrequest hlength => ?_⟩⟩
  obtain ⟨message, hmessage, p, p', hrun⟩ := h.reply r hr
  cases hmessage.symm.trans hrequest
  have haccepted : Accepted (identity :: frames) := by
    unfold Accepted
    rw [List.length_cons]
    generalize frames.length = n at hlength
    obtain rfl | rfl | rfl : n = 0 ∨ n = 1 ∨ n = 2 := by omega
    all_goals decide
  have hreply : RepliesToSender text identity
      ((workBody text pool (some (identity :: frames))).run p) :=
    repliesToSender_of_accepted haccepted p
  rw [hrun] at hreply
  exact hreply

/-- Two workers are created, and each answers a client. -/
def servedTwice : List (WorkerThreadsStep Unit) :=
  [.start, .createServerWorker, .createServerWorker,
    .request "a" ["CheckHealth", "null"], .request "b" ["CheckHealth", "null"],
    .dispatch 1, .dispatch 0, .work 0, .work 1, .work 0, .work 1, .work 0, .work 1, .work 0,
    .work 1, .work 0, .work 1]

theorem answered_once_servedTwice :
    ∃ s, Run (step healthText healthPool 2) unguarded (initial () false) servedTwice s ∧
      (s.replies.map Prod.fst ++ s.pending).Perm (List.range s.received.length) ∧
      ∀ r ∈ s.replies, IsReply healthText healthPool s.received r ∧
        ∀ identity frames, s.received[r.1]? = some (identity :: frames) → frames.length ≤ 2 →
          ∃ result, r.2 = [identity, healthText.dump result] := by
  have hsome : (servedTwice.foldlM (fun s l => if unguarded s l then
      step healthText healthPool 2 s l else none) (initial () false)).isSome = true := by
    decide +kernel
  obtain ⟨s, hs⟩ := Option.isSome_iff_exists.mp hsome
  have run := Run.of_foldlM hs
  exact ⟨s, run, answered_once healthText healthPool 2 () false servedTwice s run⟩

/-! ## A pool that is not stopped -/

end WorkerThreads

/-- How many steps a worker takes up to the next `receive`. -/
def WorkPhase.steps : WorkPhase → Nat
  | .perform _ => 3
  | .send _ => 2
  | .testRunning => 1
  | .receive | .returned => 0

/-- With what has reached its socket. -/
def ServerWorker.steps (worker : ServerWorker) : Nat :=
  4 * worker.inbox.length + worker.phase.steps

namespace WorkerThreads

/-- What the pool does by itself. -/
def ownSteps : WorkerThreadsStep σ → Nat
  | .createServerWorker | .dispatch _ | .work _ => 1
  | .start | .stop | .request _ _ | .interrupt _ | .elsewhere _ => 0

/-- What it does at most for something that comes from outside. -/
def allowance (numWorkers : Nat) : WorkerThreadsStep σ → Nat
  | .start => 2 * numWorkers
  | .request _ _ => 5
  | .interrupt _ => 1
  | .stop | .createServerWorker | .dispatch _ | .work _ | .elsewhere _ => 0

/-- How many steps of its own the pool can still take. -/
def remaining (s : WorkerThreads σ) : Nat :=
  match s.server with
  | none => 0
  | some _ => 2 * s.toCreate + 5 * s.queue.length + (s.workers.map ServerWorker.steps).sum

/-- Nothing happens but what comes from outside. -/
def AtRest (text : JsonText) (pool : RPCServerWorkerPool σ) (numWorkers : Nat)
    (s : WorkerThreads σ) : Prop :=
  ∀ l, ownSteps l = 1 → step text pool numWorkers s l = none

/-- Clients make calls, and the pool is not stopped. -/
def CallsOnly (_ : WorkerThreads σ) : WorkerThreadsStep σ → Prop
  | .request _ frames => frames.length = 2
  | .stop => False
  | .elsewhere server => server.isSome
  | .start | .createServerWorker | .dispatch _ | .work _ | .interrupt _ => True

instance (s : WorkerThreads σ) (l : WorkerThreadsStep σ) : Decidable (s.CallsOnly l) :=
  match l with
  | .request _ frames => inferInstanceAs (Decidable (frames.length = 2))
  | .elsewhere server => inferInstanceAs (Decidable (server.isSome = true))
  | .stop => .isFalse id
  | .start | .createServerWorker | .dispatch _ | .work _ | .interrupt _ => .isTrue trivial

/-- What then holds of the pool. -/
structure Serving (s : WorkerThreads σ) : Prop where
  alive : s.server.isSome
  received : ∀ message ∈ s.received, message.length = 3
  workers : s.toCreate = 0 ∧ s.workers = [] ∨ s.running = true
  returned : ∀ worker ∈ s.workers, worker.phase ≠ .returned

section

variable {text : JsonText} {pool : RPCServerWorkerPool σ} {numWorkers : Nat}
  {s s' : WorkerThreads σ} {l : WorkerThreadsStep σ}

theorem steps_le_sum {w : Nat} {worker : ServerWorker} (hw : s.workers[w]? = some worker) :
    worker.steps ≤ (s.workers.map ServerWorker.steps).sum := by
  have hset := sum_map_set hw ⟨[], .returned⟩ ServerWorker.steps
  have hnone : (⟨[], .returned⟩ : ServerWorker).steps = 0 := rfl
  omega

theorem remaining_of_alive (alive : s.server.isSome) :
    s.remaining = 2 * s.toCreate + 5 * s.queue.length + (s.workers.map ServerWorker.steps).sum := by
  obtain ⟨server, hserver⟩ := Option.isSome_iff_exists.mp alive
  rw [remaining, hserver]

theorem remaining_le (s : WorkerThreads σ) :
    s.remaining ≤ 2 * s.toCreate + 5 * s.queue.length + (s.workers.map ServerWorker.steps).sum := by
  unfold remaining
  split
  · exact Nat.zero_le _
  · exact Nat.le_refl _

theorem remaining_change (alive : s.server.isSome) (change : Change text pool numWorkers s l s') :
    s'.remaining + ownSteps l ≤ s.remaining + allowance numWorkers l := by
  have hle := remaining_le s'
  rw [remaining_of_alive alive]
  cases change with
  | started =>
    simp only [ownSteps, allowance] at hle ⊢
    omega
  | stopped => exact hle
  | created more =>
    simp only [ownSteps, allowance, List.map_append, List.sum_append, List.map_singleton,
      List.sum_singleton, ServerWorker.steps, WorkPhase.steps, List.length_nil] at hle ⊢
    omega
  | requested identity frames =>
    simp only [ownSteps, allowance, request, List.length_append, List.length_singleton] at hle ⊢
    omega
  | @dispatched w worker request queue hw hqueue =>
    have hset := sum_map_set hw { worker with inbox := worker.inbox ++ [request] }
      ServerWorker.steps
    have hqueue' := congrArg List.length hqueue
    simp only [ownSteps, allowance, setWorker, ServerWorker.steps, List.length_append,
      List.length_cons, List.length_nil] at hle hset hqueue' ⊢
    omega
  | @tested w inbox hw =>
    -- The test is a step also of a worker that ends with it.
    have hset := sum_map_set hw ⟨inbox, if s.running then .receive else .returned⟩
      ServerWorker.steps
    have hphase : (if s.running then WorkPhase.receive else .returned).steps = 0 := by
      split <;> rfl
    have htest : WorkPhase.testRunning.steps = 1 := rfl
    simp only [ownSteps, allowance, setWorker, ServerWorker.steps] at hle hset ⊢
    omega
  | @taken w request inbox hw =>
    have hset := sum_map_set hw ⟨inbox, .perform request⟩ ServerWorker.steps
    simp only [ownSteps, allowance, setWorker, ServerWorker.steps, WorkPhase.steps,
      List.length_cons] at hle hset ⊢
    omega
  | @performed w request inbox hw server server' sent hrun =>
    have hset := sum_map_set hw ⟨inbox, .send (request.1, sent)⟩ ServerWorker.steps
    simp only [ownSteps, allowance, setWorker, ServerWorker.steps, WorkPhase.steps]
      at hle hset ⊢
    omega
  | @crashed w request inbox hw server server' e hrun =>
    -- Nothing moves without the server, so one step is all that has to be paid for.
    have hsum := steps_le_sum hw
    simp only [ownSteps, allowance, remaining, ServerWorker.steps, WorkPhase.steps] at hsum ⊢
    omega
  | @sent w reply inbox hw =>
    have hset := sum_map_set hw ⟨inbox, .testRunning⟩ ServerWorker.steps
    simp only [ownSteps, allowance, setWorker, ServerWorker.steps, WorkPhase.steps]
      at hle hset ⊢
    omega
  | @interrupted w inbox hw =>
    have hset := sum_map_set hw ⟨inbox, .testRunning⟩ ServerWorker.steps
    simp only [ownSteps, allowance, setWorker, ServerWorker.steps, WorkPhase.steps]
      at hle hset ⊢
    omega
  | elsewhere server => exact hle

theorem Serving.setWorker (h : Serving s) (hsome : s.workers ≠ []) {worker : ServerWorker}
    (hworker : worker.phase ≠ .returned) (w : Nat) : Serving (s.setWorker w worker) where
  alive := h.alive
  received := h.received
  workers := .inr (h.workers.resolve_left fun hnone => hsome hnone.2)
  returned other hother := by
    obtain hother | rfl := List.mem_or_eq_of_mem_set hother
    · exact h.returned other hother
    · exact hworker

theorem workers_ne_nil {w : Nat} {worker : ServerWorker} (hw : s.workers[w]? = some worker) :
    s.workers ≠ [] :=
  List.ne_nil_of_mem (List.mem_of_getElem? hw)

theorem serving_change (returns : ∀ name f, pool.rpcs.lookup name = some f →
      ∀ a s, ∃ result s', (f a).run s = .ok result s')
    (inv : Inv text pool s) (h : Serving s) (only : CallsOnly s l)
    (change : Change text pool numWorkers s l s') : Serving s' := by
  cases change with
  | started => exact ⟨h.alive, h.received, .inr rfl, h.returned⟩
  | stopped => cases only
  | created more =>
    refine ⟨h.alive, h.received, .inr (h.workers.resolve_left fun hnone => more hnone.1),
      fun worker hworker => ?_⟩
    obtain hworker | hworker := List.mem_append.mp hworker
    · exact h.returned worker hworker
    · cases List.mem_singleton.mp hworker
      exact nofun
  | requested identity frames =>
    refine ⟨h.alive, fun message hmessage => ?_, h.workers, h.returned⟩
    obtain hmessage | hmessage := List.mem_append.mp hmessage
    · exact h.received message hmessage
    · cases List.mem_singleton.mp hmessage
      exact congrArg (· + 1) only
  | dispatched hw hqueue =>
    have hphase := h.returned _ (List.mem_of_getElem? hw)
    apply Serving.setWorker
    · exact ⟨h.alive, h.received, h.workers, h.returned⟩
    · exact workers_ne_nil hw
    · exact hphase
  | tested hw =>
    have hrunning : s.running = true :=
      h.workers.resolve_left fun hnone => workers_ne_nil hw hnone.2
    apply h.setWorker (workers_ne_nil hw)
    rw [hrunning]
    exact WorkPhase.noConfusion
  | taken hw => exact h.setWorker (workers_ne_nil hw) WorkPhase.noConfusion _
  | performed hw hrun =>
    apply Serving.setWorker
    · exact ⟨rfl, h.received, h.workers, h.returned⟩
    · exact workers_ne_nil hw
    · exact WorkPhase.noConfusion
  | @crashed w request inbox hw server server' e hrun =>
    -- A request of three frames is answered.
    have hrequest : s.received[request.1]? = some request.2 := (inv.workerAt hw).phase
    have hlength := h.received _ (List.mem_of_getElem? hrequest)
    have hthree : request.2.length ≠ 1 ∧ request.2.length ≠ 2 := by omega
    obtain ⟨sent, p', hreturns⟩ := workBody_returns returns hthree server
    cases hreturns.symm.trans hrun
  | sent hw =>
    apply Serving.setWorker
    · exact ⟨h.alive, h.received, h.workers, h.returned⟩
    · exact workers_ne_nil hw
    · exact WorkPhase.noConfusion
  | interrupted hw => exact h.setWorker (workers_ne_nil hw) WorkPhase.noConfusion _
  | elsewhere server => exact ⟨only, h.received, h.workers, h.returned⟩

theorem created_le (change : Change text pool numWorkers s l s') :
    s.toCreate + s.workers.length ≤ s'.toCreate + s'.workers.length := by
  cases change with
  | started => exact Nat.add_le_add_right (Nat.le_add_right _ _) _
  | created more =>
    simp only [List.length_append, List.length_singleton]
    omega
  | stopped => exact Nat.le_refl _
  | requested identity frames => exact Nat.le_refl _
  | crashed hw hrun => exact Nat.le_refl _
  | elsewhere server => exact Nat.le_refl _
  | _ => simp only [setWorker, List.length_set, Nat.le_refl]

theorem worker_of_started {s₀ : WorkerThreads σ}
    {guard : WorkerThreads σ → WorkerThreadsStep σ → Prop} {labels : List (WorkerThreadsStep σ)}
    (run : Run (step text pool numWorkers) guard s₀ labels s) (started : .start ∈ labels) :
    numWorkers ≤ s.toCreate + s.workers.length := by
  induction run with
  | nil => cases started
  | snoc _ _ next ih =>
    obtain ⟨_, change⟩ := change_of_step next
    obtain started | started := List.mem_append.mp started
    · exact (ih started).trans (created_le change)
    · cases List.mem_singleton.mp started
      cases change
      exact (Nat.le_add_left _ _).trans (Nat.le_add_right _ _)

theorem atHand_of_atRest (h : Serving s) (rest : AtRest text pool numWorkers s) {w : Nat}
    {worker : ServerWorker} (hw : s.workers[w]? = some worker) : worker.atHand = [] := by
  obtain ⟨server, hserver⟩ := Option.isSome_iff_exists.mp h.alive
  have hwork : s.work text pool server w worker = none := by
    have hrest := rest (.work w) rfl
    simpa only [step, hserver, hw, Option.bind_some] using hrest
  have hreturned := h.returned worker (List.mem_of_getElem? hw)
  obtain ⟨inbox, phase⟩ := worker
  cases phase with
  | receive =>
    cases inbox with
    | nil => rfl
    | cons request inbox => cases hwork
  | testRunning => cases hwork
  | perform request => cases hwork
  | send reply => cases hwork
  | returned => exact absurd rfl hreturned

/-- A pool with workers rests only when it has nothing left to do. -/
theorem pending_of_atRest (h : Serving s) (rest : AtRest text pool numWorkers s)
    (some_worker : 0 < s.toCreate + s.workers.length) : s.pending = [] := by
  obtain ⟨server, hserver⟩ := Option.isSome_iff_exists.mp h.alive
  have hcreate : s.toCreate = 0 := by
    by_contra hmore
    have hrest := rest .createServerWorker rfl
    simp only [step, hserver, if_neg hmore] at hrest
    cases hrest
  obtain ⟨worker, hworker⟩ : ∃ worker, s.workers[0]? = some worker := by
    rw [← Option.isSome_iff_exists, isSome_getElem?]
    omega
  have hqueue : s.queue = [] := by
    have hrest := rest (.dispatch 0) rfl
    simp only [step, hserver, hworker, Option.bind_some, dispatch] at hrest
    split at hrest
    · cases hrest
    next hqueue => exact hqueue
  rw [pending, hqueue, List.map_nil, List.nil_append, List.flatMap_eq_nil_iff]
  intro worker hworker
  obtain ⟨w, hw⟩ := List.mem_iff_getElem?.mp hworker
  exact atHand_of_atRest h rest hw

theorem atRest_of_remaining (h : s.remaining = 0) : AtRest text pool numWorkers s := by
  intro l own
  by_contra hstep
  obtain ⟨s', next⟩ := Option.ne_none_iff_exists'.mp hstep
  obtain ⟨alive, change⟩ := change_of_step next
  have hless := remaining_change alive change
  have hallowance : allowance numWorkers l = 0 := by
    cases l with
    | createServerWorker => rfl
    | dispatch w => rfl
    | work w => rfl
    | _ => cases own
  omega

/-- Whatever comes from outside: the pool comes to rest after at most five steps for each
    request, two for each worker it creates and one for each signal. -/
theorem ownSteps_le {server : σ} {running : Bool}
    {guard : WorkerThreads σ → WorkerThreadsStep σ → Prop} {labels : List (WorkerThreadsStep σ)}
    (run : Run (step text pool numWorkers) guard (initial server running) labels s) :
    (labels.map ownSteps).sum ≤ (labels.map (allowance numWorkers)).sum := by
  have hpotential := run.potential trivial (fun _ _ _ _ _ _ => trivial) remaining ownSteps
    (allowance numWorkers) fun s l s' _ _ next => by
      obtain ⟨alive, change⟩ := change_of_step next
      exact remaining_change alive change
  have hinitial : (initial server running).remaining = 0 := rfl
  omega

theorem serving_of_run (returns : ∀ name f, pool.rpcs.lookup name = some f →
      ∀ a s, ∃ result s', (f a).run s = .ok result s')
    {server : σ} {running : Bool} {labels : List (WorkerThreadsStep σ)}
    (run : Run (step text pool numWorkers) CallsOnly (initial server running) labels s) :
    Inv text pool s ∧ Serving s := by
  apply run.invariant ⟨⟨nofun, nofun, nofun⟩, ⟨rfl, nofun, .inl ⟨rfl, rfl⟩, nofun⟩⟩
  intro s l s' h only next
  obtain ⟨_, change⟩ := change_of_step next
  exact ⟨inv_change h.1 change, serving_change returns h.1 h.2 only change⟩

end

/-- A pool that is not stopped, whose functions return and whose clients make calls, takes
    only so many steps of its own for what comes from outside; and whenever there is none
    left to take, every request has been answered, and no one twice. -/
theorem all_answered (text : JsonText) (pool : RPCServerWorkerPool σ) (numWorkers : Nat)
    (pos : 0 < numWorkers)
    (returns : ∀ name f, pool.rpcs.lookup name = some f →
      ∀ a s, ∃ result s', (f a).run s = .ok result s')
    (server : σ) (running : Bool) (labels : List (WorkerThreadsStep σ)) (s : WorkerThreads σ)
    (run : Run (step text pool numWorkers) CallsOnly (initial server running) labels s)
    (started : .start ∈ labels) :
    (labels.map ownSteps).sum ≤ (labels.map (allowance numWorkers)).sum ∧
      (AtRest text pool numWorkers s →
        (s.replies.map Prod.fst).Perm (List.range s.received.length)) := by
  refine ⟨ownSteps_le run, fun rest => ?_⟩
  obtain ⟨_, serving⟩ := serving_of_run returns run
  have hworkers := worker_of_started run started
  have hconserved := (inv_of_run run).1
  rw [Conserved, pending_of_atRest serving rest (by omega), List.append_nil] at hconserved
  exact hconserved

theorem all_answered_servedTwice :
    ∃ s, Run (step healthText healthPool 2) CallsOnly (initial () false) servedTwice s ∧
      AtRest healthText healthPool 2 s ∧
      (servedTwice.map ownSteps).sum ≤ (servedTwice.map (allowance 2)).sum ∧
      (AtRest healthText healthPool 2 s →
        (s.replies.map Prod.fst).Perm (List.range s.received.length)) := by
  have hany : ((servedTwice.foldlM (fun s l => if CallsOnly s l then
      step healthText healthPool 2 s l else none) (initial () false)).any fun s =>
        s.remaining == 0) = true := by
    decide +kernel
  obtain ⟨s, hs, hremaining⟩ := (Option.any_eq_true ..).mp hany
  have run := Run.of_foldlM hs
  refine ⟨s, run, atRest_of_remaining (beq_iff_eq.mp hremaining), ?_⟩
  exact all_answered healthText healthPool 2 (by decide) healthPool_returns () false servedTwice s
    run List.mem_cons_self

/-! ## After `Stop` -/

end WorkerThreads

/-- How many steps a worker takes at most once the flag is cleared. -/
def WorkPhase.toEnd : WorkPhase → Nat
  | .receive => 4
  | .perform _ => 3
  | .send _ => 2
  | .testRunning => 1
  | .returned => 0

/-- How many replies it still sends at most. -/
def WorkPhase.repliesToEnd : WorkPhase → Nat
  | .receive | .perform _ | .send _ => 1
  | .testRunning | .returned => 0

namespace WorkerThreads

/-- The pool is not started again. -/
def NoStart (_ : WorkerThreads σ) : WorkerThreadsStep σ → Prop
  | .start => False
  | _ => True

instance (s : WorkerThreads σ) (l : WorkerThreadsStep σ) : Decidable (s.NoStart l) :=
  match l with
  | .start => .isFalse id
  | .stop | .createServerWorker | .request _ _ | .dispatch _ | .work _ | .interrupt _
  | .elsewhere _ => .isTrue trivial

/-- What a worker does, and what ends its `receive`. -/
def stepsOf (w : Nat) : WorkerThreadsStep σ → Nat
  | .work v | .interrupt v => if v = w then 1 else 0
  | .start | .stop | .createServerWorker | .request _ _ | .dispatch _ | .elsewhere _ => 0

/-- The steps to the end of the worker `w`, which may not have been created yet. -/
def stepsToEnd (workers : List ServerWorker) (w : Nat) : Nat :=
  (workers[w]?.map fun worker => worker.phase.toEnd).getD 1

def toEnd (s : WorkerThreads σ) (w : Nat) : Nat :=
  if s.server.isSome then stepsToEnd s.workers w else 0

def repliesToEnd (s : WorkerThreads σ) : Nat :=
  s.replies.length + (s.workers.map fun worker => worker.phase.repliesToEnd).sum

theorem stepsToEnd_of_getElem? {workers : List ServerWorker} {w : Nat} {worker : ServerWorker}
    (hw : workers[w]? = some worker) : stepsToEnd workers w = worker.phase.toEnd := by
  rw [stepsToEnd, hw]
  rfl

theorem stepsToEnd_le (workers : List ServerWorker) (w : Nat) : stepsToEnd workers w ≤ 4 := by
  cases hw : workers[w]? with
  | none =>
    rw [stepsToEnd, hw]
    decide
  | some worker =>
    rw [stepsToEnd_of_getElem? hw]
    cases worker.phase with
    | _ => simp only [WorkPhase.toEnd, Nat.reduceLeDiff]

/-- A new worker has one step to its end, as it had before its creation. -/
theorem stepsToEnd_append (workers : List ServerWorker) (w : Nat) :
    stepsToEnd (workers ++ [({} : ServerWorker)]) w = stepsToEnd workers w := by
  unfold stepsToEnd
  obtain hlt | rfl | hgt := lt_trichotomy w workers.length
  · rw [List.getElem?_append_left hlt]
  · rw [List.getElem?_concat_length, List.getElem?_eq_none (Nat.le_refl _)]
    rfl
  · have hlength : (workers ++ [({} : ServerWorker)]).length ≤ w := by
      rw [List.length_append]
      exact hgt
    rw [List.getElem?_eq_none hlength, List.getElem?_eq_none (Nat.le_of_lt hgt)]

/-- A step of a worker `v` brings it nearer to its end, and no other. -/
theorem stepsToEnd_set {workers : List ServerWorker} {v : Nat} {old worker : ServerWorker}
    (hv : workers[v]? = some old) (cost : Nat)
    (pays : worker.phase.toEnd + cost ≤ old.phase.toEnd) (w : Nat) :
    stepsToEnd (workers.set v worker) w + (if v = w then cost else 0) ≤ stepsToEnd workers w := by
  by_cases hw : v = w
  · subst hw
    have hset := List.getElem?_set_self (List.getElem?_eq_some_iff.mp hv).1 (a := worker)
    rw [if_pos rfl, stepsToEnd_of_getElem? hset, stepsToEnd_of_getElem? hv]
    exact pays
  · rw [if_neg hw, stepsToEnd, List.getElem?_set_ne hw]
    exact Nat.le_refl _

section

variable {text : JsonText} {pool : RPCServerWorkerPool σ} {numWorkers : Nat}
  {s s' : WorkerThreads σ} {l : WorkerThreadsStep σ}

theorem toEnd_le_stepsToEnd (s : WorkerThreads σ) (w : Nat) :
    s.toEnd w ≤ stepsToEnd s.workers w := by
  unfold toEnd
  split
  · exact Nat.le_refl _
  · exact Nat.zero_le _

theorem toEnd_change (alive : s.server.isSome) (stopped : s.running = false)
    (change : Change text pool numWorkers s l s') (w : Nat) :
    s'.toEnd w + stepsOf w l ≤ s.toEnd w := by
  have hle := Nat.add_le_add_right (toEnd_le_stepsToEnd s' w) (stepsOf w l)
  have halive : s.toEnd w = stepsToEnd s.workers w := if_pos alive
  cases change with
  | @crashed v request inbox hv server server' e hrun =>
    -- Nothing follows.
    have hdead : ({ s with server := none } : WorkerThreads σ).toEnd w = 0 := rfl
    rw [hdead, halive, stepsOf]
    split
    next hw =>
      subst hw
      rw [stepsToEnd_of_getElem? hv]
      exact Nat.le_add_left 1 2
    · exact Nat.zero_le _
  | started => exact hle.trans_eq halive.symm
  | stopped => exact hle.trans_eq halive.symm
  | created more => exact hle.trans_eq ((stepsToEnd_append s.workers w).trans halive.symm)
  | requested identity frames => exact hle.trans_eq halive.symm
  | @dispatched v worker request queue hv hqueue =>
    have hphase : (⟨worker.inbox ++ [request], worker.phase⟩ : ServerWorker).phase.toEnd + 0 ≤
        worker.phase.toEnd := Nat.le_refl _
    have hset := stepsToEnd_set hv 0 hphase w
    rw [ite_self] at hset
    exact hle.trans (hset.trans_eq halive.symm)
  | @tested v inbox hv =>
    rw [stopped] at hle ⊢
    refine hle.trans (Nat.le_trans (stepsToEnd_set hv 1 ?_ w) halive.ge)
    exact Nat.le_refl 1
  | taken hv =>
    refine hle.trans (Nat.le_trans (stepsToEnd_set hv 1 ?_ w) halive.ge)
    exact Nat.le_refl 4
  | performed hv hrun =>
    refine hle.trans (Nat.le_trans (stepsToEnd_set hv 1 ?_ w) halive.ge)
    exact Nat.le_refl 3
  | sent hv =>
    refine hle.trans (Nat.le_trans (stepsToEnd_set hv 1 ?_ w) halive.ge)
    exact Nat.le_refl 2
  | interrupted hv =>
    refine hle.trans (Nat.le_trans (stepsToEnd_set hv 1 ?_ w) halive.ge)
    exact Nat.le_add_right 2 2
  | elsewhere server => exact hle.trans_eq halive.symm

/-- A reply uses up the one that its worker had left. -/
theorem repliesToEnd_change (stopped : s.running = false)
    (change : Change text pool numWorkers s l s') :
    s'.repliesToEnd ≤ s.repliesToEnd := by
  unfold repliesToEnd
  cases change with
  | started => exact Nat.le_refl _
  | stopped => exact Nat.le_refl _
  | created more =>
    -- A new worker waits: it sends nothing before it has come back to the test.
    simp only [List.map_append, List.sum_append, List.map_singleton, List.sum_singleton,
      WorkPhase.repliesToEnd, Nat.add_zero, Nat.le_refl]
  | requested identity frames => exact Nat.le_refl _
  | @dispatched w worker request queue hw hqueue =>
    have hset := sum_map_set hw { worker with inbox := worker.inbox ++ [request] }
      fun worker => worker.phase.repliesToEnd
    simp only [setWorker] at hset ⊢
    omega
  | @tested w inbox hw =>
    rw [stopped]
    have hset := sum_map_set hw ⟨inbox, .returned⟩ fun worker => worker.phase.repliesToEnd
    simp only [setWorker, WorkPhase.repliesToEnd] at hset ⊢
    exact Nat.le_of_eq (congrArg _ hset)
  | @taken w request inbox hw =>
    have hset := sum_map_set hw ⟨inbox, .perform request⟩ fun worker => worker.phase.repliesToEnd
    simp only [setWorker, WorkPhase.repliesToEnd] at hset ⊢
    omega
  | @performed w request inbox hw server server' sent hrun =>
    have hset := sum_map_set hw ⟨inbox, .send (request.1, sent)⟩
      fun worker => worker.phase.repliesToEnd
    simp only [setWorker, WorkPhase.repliesToEnd] at hset ⊢
    omega
  | crashed hw hrun => exact Nat.le_refl _
  | @sent w reply inbox hw =>
    have hset := sum_map_set hw ⟨inbox, .testRunning⟩ fun worker => worker.phase.repliesToEnd
    simp only [setWorker, WorkPhase.repliesToEnd, List.length_append, List.length_singleton]
      at hset ⊢
    omega
  | @interrupted w inbox hw =>
    have hset := sum_map_set hw ⟨inbox, .testRunning⟩ fun worker => worker.phase.repliesToEnd
    simp only [setWorker, WorkPhase.repliesToEnd] at hset ⊢
    omega
  | elsewhere server => exact Nat.le_refl _

theorem running_change (stopped : s.running = false) (noStart : NoStart s l)
    (change : Change text pool numWorkers s l s') : s'.running = false := by
  cases change with
  | started => cases noStart
  | stopped => rfl
  | _ => exact stopped

end

/-- Once the pool has been stopped, and as long as it is not started again: each worker
    takes at most four more steps, and what is still replied is at most one reply of each
    worker that has not come back to its test since. -/
theorem stop_ends_workers (text : JsonText) (pool : RPCServerWorkerPool σ) (numWorkers : Nat)
    (s : WorkerThreads σ) (stopped : s.running = false) (labels : List (WorkerThreadsStep σ))
    (s' : WorkerThreads σ) (run : Run (step text pool numWorkers) NoStart s labels s') :
    (∀ w, (labels.map (stepsOf w)).sum ≤ 4) ∧
      s'.replies.length ≤
        s.replies.length + (s.workers.map fun worker => worker.phase.repliesToEnd).sum := by
  have hkeep : ∀ s l s', s.running = false → NoStart s l →
      step text pool numWorkers s l = some s' → s'.running = false :=
    fun s l s' stopped noStart next => running_change stopped noStart (change_of_step next).2
  constructor
  · intro w
    have hpotential := run.potential stopped hkeep (fun s => s.toEnd w) (stepsOf w) (fun _ => 0)
      fun s l s' stopped _ next => by
        obtain ⟨alive, change⟩ := change_of_step next
        exact toEnd_change alive stopped change w
    have hle := (toEnd_le_stepsToEnd s w).trans (stepsToEnd_le s.workers w)
    rw [List.map_const', List.sum_replicate_nat] at hpotential
    omega
  · have hreplies := run.invariant (P := fun r => r.running = false ∧
        r.repliesToEnd ≤ s.repliesToEnd) ⟨stopped, Nat.le_refl _⟩ fun s l s' h noStart next => by
      refine ⟨hkeep s l s' h.1 noStart next, ?_⟩
      exact (repliesToEnd_change h.1 (change_of_step next).2).trans h.2
    exact (Nat.le_add_right _ _).trans hreplies.2

/-- A worker waits, and two requests have reached its socket. -/
def waitingWorker : WorkerThreads Unit where
  server := some ()
  running := false
  workers := [⟨[(0, ["a", "CheckHealth", "null"]), (1, ["b", "CheckHealth", "null"])], .receive⟩]
  received := [["a", "CheckHealth", "null"], ["b", "CheckHealth", "null"]]

/-- It answers the first of them and ends. -/
theorem stop_ends_workers_waitingWorker :
    ∃ s', Run (step healthText healthPool 1) NoStart waitingWorker
        [.work 0, .work 0, .work 0, .work 0] s' ∧
      s'.replies.length = 1 ∧ s'.pending = [1] ∧
      (∀ w, (([.work 0, .work 0, .work 0, .work 0] : List (WorkerThreadsStep Unit)).map
        (stepsOf w)).sum ≤ 4) ∧
      s'.replies.length ≤ waitingWorker.replies.length +
        (waitingWorker.workers.map fun worker => worker.phase.repliesToEnd).sum := by
  have hany : ((([.work 0, .work 0, .work 0, .work 0] : List (WorkerThreadsStep Unit)).foldlM
      (fun s l => if NoStart s l then step healthText healthPool 1 s l else none)
      waitingWorker).any fun s' => decide (s'.replies.length = 1 ∧ s'.pending = [1])) = true := by
    decide +kernel
  obtain ⟨s', hs, hend⟩ := (Option.any_eq_true ..).mp hany
  obtain ⟨hreplies, hpending⟩ := of_decide_eq_true hend
  have run := Run.of_foldlM hs
  exact ⟨s', run, hreplies, hpending,
    stop_ends_workers healthText healthPool 1 waitingWorker rfl _ s' run⟩

end WorkerThreads

end Imq
