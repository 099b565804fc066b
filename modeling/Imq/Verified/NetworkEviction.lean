import Imq.Verified.ConcurrentBootstrap
import Imq.Verified.NetworkPass

/-! # Whom a node of a network evicts

Nothing is assumed of the addresses and of what the messages say, except that a node's
workers are those of `IMQNode`.  Beside the network stands, for every node, how often in
a row its checks of each address have timed out.

* `Access.Settles`, `safe_awaitOutcome_records` — what the end of a check does;
* `WatchInv` — the records of a node count the time-outs in a row, five by five;
* `eviction_accurate` — how the content of a slot can change;
* `eviction_exact` — what a check that no other thread disturbs does to the table.
-/

namespace Imq

open Lib Cluster IMQNode RPCServerWorkerPool Json

/-! ## Records -/

namespace Network

variable {n : Nat}

/-- A network, and how often in a row the checks that each node makes of an address have
    timed out. -/
abbrev Watched (n : Nat) : Type := Network n × (Fin n → HostAndPort → Nat)

/-- The address whose response the health thread waits for. -/
def awaited : HealthStage → Option HostAndPort
  | .awaiting callee _ => some callee
  | _ => none

/-- The time-outs in a row after an outcome. -/
def countAfter (timeouts : Nat) : CallOutcome → Nat
  | .answered _ => 0
  | .timedOut => timeouts + 1
  | .neither => timeouts

def timeoutsAfter (s : Watched n) : NetworkStep n → Fin n → HostAndPort → Nat
  | .checkEnd i outcome, j, m =>
    if j = i ∧ awaited (s.1.node i).health = some m then countAfter (s.2 j m) outcome else s.2 j m
  | _, j, m => s.2 j m

def watch (text : JsonText) (identity : String → Fin n → String) (address : Fin n → HostAndPort)
    (s : Watched n) (label : NetworkStep n) : Option (Watched n) :=
  (step text identity address s.1 label).map fun s' => (s', timeoutsAfter s label)

/-- The record of a node whose checks have timed out so often in a row. -/
def RecordExact (timeouts : Nat) : Option Int32 → Prop
  | none => timeouts % 5 = 0
  | some retries => ∃ k, retries = Int32.ofNat k ∧ k ≤ 3 ∧ timeouts % 5 = k + 1

theorem recordExact_many_iff {timeouts : Nat} {retries : Int32}
    (h : RecordExact timeouts (some retries)) :
    Health.REMOVE_AFTER_NUM_RETRIES ≤ retries ↔ timeouts % 5 = 4 := by
  obtain ⟨k, rfl, hk, hmod⟩ := h
  rw [hmod]
  obtain rfl | rfl | rfl | rfl : k = 0 ∨ k = 1 ∨ k = 2 ∨ k = 3 := by omega
  all_goals decide

theorem recordExact_next {timeouts : Nat} {retries : Int32}
    (h : RecordExact timeouts (some retries)) (few : timeouts % 5 ≠ 4) :
    RecordExact (timeouts + 1) (some (retries + 1)) := by
  obtain ⟨k, rfl, hk, hmod⟩ := h
  refine ⟨k + 1, ?_, by omega, by omega⟩
  obtain rfl | rfl | rfl : k = 0 ∨ k = 1 ∨ k = 2 := by omega
  all_goals rfl

/-- Every fifth time-out in a row evicts. -/
def Evicts (timeouts : Nat) : Prop := timeouts % 5 = 0 ∧ 0 < timeouts

end Network

/-! ## The end of a check -/

/-- What the thread of a response may access: it frees slots only if it is to evict. -/
def Access.Settles (callee : HostAndPort) (evicts : Prop) : Access → Prop
  | .readNode _ | .getRPCObject _ | .addRPCClient _ | .isPotentiallyFailing _ => True
  | .writeNode _ node => node = {} ∧ evicts
  | .numRetries m | .markAsPotentiallyFailing m | .incrementNumberOfRetriesForNode m
  | .removeNodeFromPotentiallyFailingMap m => m = callee

/-- The access changes no record. -/
def Access.KeepsRecords (access : Access) : Prop :=
  ∀ p, (access.perform p).2.potentiallyFailing = p.potentiallyFailing

theorem Access.OnTable.keepsRecords {writes : Prop} {access : Access} (h : access.OnTable writes) :
    access.KeepsRecords := by
  cases access <;> first | exact fun _ => rfl | exact h.elim

theorem Access.OnTable.settles {callee : HostAndPort} {evicts : Prop} {access : Access}
    (h : access.OnTable False) : access.Settles callee evicts := by
  cases access <;> trivial

/-- The other threads of a node leave its records alone. -/
def settler (callee : HostAndPort) (evicts : Prop) : Contract Process Access where
  inv _ := True
  rely p p' := p'.potentiallyFailing = p.potentiallyFailing
  ok _ access := access.Settles callee evicts
  refl _ := rfl
  trans first second := second.trans first

namespace Health.Unlocked

open Network Cluster.Unlocked

/-- The record of the callee counts the time-outs, unless an exception has ended the thread. -/
def Recorded (callee : HostAndPort) (timeouts : Nat) : Except Exn Unit → Process → Prop
  | .ok _, p => RecordExact timeouts (p.potentiallyFailing callee)
  | .error _, _ => True

section

variable {callee : HostAndPort} {evicts : Prop} {timeouts : Nat} {α : Type} {p : Process}
  {retries : Option Int32}

/-- The rule of sequence for code that changes no record. -/
theorem safe_bind_keepsRecords {x : Code α} {f : α → Code Unit}
    (hx : x.Only fun access => access.Settles callee evicts ∧ access.KeepsRecords)
    (h : p.potentiallyFailing callee = retries)
    (hf : ∀ a p, p.potentiallyFailing callee = retries →
      Code.Safe (settler callee evicts) (Recorded callee timeouts) (f a) p) :
    Code.Safe (settler callee evicts) (Recorded callee timeouts) (x >>= f) p := by
  induction x generalizing p with
  | ended result =>
    cases result with
    | ok a => exact hf a p h
    | error e => exact fun _ _ _ => trivial
  | access access rest ih =>
    intro p' moved _
    obtain ⟨⟨settles, keeps⟩, hrest⟩ := hx
    refine ⟨settles, ih _ (hrest _) ?_⟩
    rw [keeps, moved]
    exact h

/-- The rule of sequence for a question about the records. -/
theorem safe_bind_question (access : Access) (settles : access.Settles callee evicts)
    (reads : ∀ p, p.potentiallyFailing callee = retries → (access.perform p).2 = p)
    (h : p.potentiallyFailing callee = retries)
    {f : access.Answer → Code Unit}
    (hf : ∀ p, p.potentiallyFailing callee = retries →
      Code.Safe (settler callee evicts) (Recorded callee timeouts) (f (access.perform p).1) p) :
    Code.Safe (settler callee evicts) (Recorded callee timeouts) (.make access >>= f) p := by
  intro p' moved _
  rw [← moved] at h
  refine ⟨settles, ?_⟩
  rw [reads p' h]
  exact hf p' h

/-- The last access sets the record of the callee. -/
theorem safe_make_recorded (access : Access) (settles : access.Settles callee evicts)
    (h : p.potentiallyFailing callee = retries)
    (recorded : ∀ p, p.potentiallyFailing callee = retries →
      RecordExact timeouts ((access.perform p).2.potentiallyFailing callee))
    {f : access.Answer → Unit} :
    Code.Safe (settler callee evicts) (Recorded callee timeouts)
      (.access access fun answer => pure (f answer)) p := by
  intro p' moved _
  refine ⟨settles, fun p'' moved' _ => ?_⟩
  show RecordExact timeouts (p''.potentiallyFailing callee)
  rw [moved']
  exact recorded p' (moved ▸ h)

end

/-- The record is taken away once the slot is free. -/
theorem safe_removeNodeFromCluster_records {callee : HostAndPort} {timeouts : Nat} {p : Process}
    {retries : Option Int32} (evicts : Evicts timeouts)
    (h : p.potentiallyFailing callee = retries) :
    Code.Safe (settler callee (Evicts timeouts)) (Recorded callee timeouts)
      (removeNodeFromCluster callee) p := by
  refine safe_bind_keepsRecords (.bind ((only_firstSlot ..).mono fun access ok =>
    ⟨ok.settles, ok.keepsRecords⟩) fun slot => ?_) h fun _ p hp => ?_
  · cases slot with
    | some i => exact .make ⟨⟨rfl, evicts⟩, fun _ => rfl⟩
    | none => exact .ended _
  · refine safe_make_recorded (.removeNodeFromPotentiallyFailingMap callee) rfl hp fun p _ => ?_
    show RecordExact timeouts (Function.update p.potentiallyFailing callee none callee)
    rw [Function.update_self]
    exact evicts.1

section

variable {callee : HostAndPort} {timeouts : Nat} {p : Process} {response : Json}
  (hcallee : calleeOf response = .ok callee)
  (h : RecordExact timeouts (p.potentiallyFailing callee))

include hcallee

theorem safe_healthyNodeCallback_records {evicts : Prop} :
    Code.Safe (settler callee evicts) (Recorded callee 0) (healthyNodeCallback response) p := by
  rw [healthyNodeCallback, hcallee]
  refine safe_bind_question (.isPotentiallyFailing callee) trivial (fun _ _ => rfl) rfl
    fun p' hp => ?_
  show Code.Safe _ _ (if (p'.potentiallyFailing callee).isSome = true then _ else _) p'
  rw [hp]
  cases hretries : p.potentiallyFailing callee with
  | none =>
    intro p'' moved _
    show RecordExact 0 (p''.potentiallyFailing callee)
    rw [moved, hp, hretries]
    rfl
  | some retries =>
    refine safe_make_recorded (.removeNodeFromPotentiallyFailingMap callee) rfl hp fun p _ => ?_
    show RecordExact 0 (Function.update p.potentiallyFailing callee none callee)
    rw [Function.update_self]
    rfl

include h

theorem safe_timedoutNodeCallback_records :
    Code.Safe (settler callee (Evicts (timeouts + 1))) (Recorded callee (timeouts + 1))
      (timedoutNodeCallback response) p := by
  rw [timedoutNodeCallback, hcallee]
  refine safe_bind_question (.isPotentiallyFailing callee) trivial (fun _ _ => rfl) rfl
    fun p' hp => ?_
  show Code.Safe _ _ (if (p'.potentiallyFailing callee).isSome = true then _ else _) p'
  rw [hp]
  cases hretries : p.potentiallyFailing callee with
  | none =>
    rw [hretries] at h hp
    have hzero : timeouts % 5 = 0 := h
    refine safe_make_recorded (.markAsPotentiallyFailing callee) rfl hp fun p hp => ?_
    show RecordExact (timeouts + 1) (Function.update p.potentiallyFailing callee _ callee)
    rw [Function.update_self, hp]
    exact ⟨0, rfl, by omega, by omega⟩
  | some retries =>
    rw [hretries] at h hp
    -- The number is asked for under the lock again, and is still there.
    refine safe_bind_question (.isPotentiallyFailing callee) trivial (fun _ _ => rfl) hp
      fun p'' hp' => ?_
    show Code.Safe _ _ ((if (p''.potentiallyFailing callee).isSome = true then _ else _) >>= _) p''
    rw [hp']
    refine safe_bind_question (.numRetries callee) rfl
      (fun _ h => congrArg Prod.snd (perform_numRetries_of_some h)) hp' fun p₃ hp₃ => ?_
    have hback : retries.toUInt32.toInt32 = retries := Int32.toInt32_toUInt32 retries
    show Code.Safe _ _
      (if ((p₃.potentiallyFailing callee).getD 0).toUInt32.toInt32 ≥ _ then _ else _) p₃
    rw [hp₃, Option.getD_some, hback]
    split
    next many =>
      have hfour := (recordExact_many_iff h).mp many
      refine safe_removeNodeFromCluster_records ⟨by omega, by omega⟩ hp₃
    next few =>
      have hfew : timeouts % 5 ≠ 4 := fun hfour => few ((recordExact_many_iff h).mpr hfour)
      refine safe_make_recorded (.incrementNumberOfRetriesForNode callee) rfl hp₃ fun p hp => ?_
      show RecordExact (timeouts + 1) (Function.update p.potentiallyFailing callee _ callee)
      rw [Function.update_self, hp]
      exact recordExact_next h hfew

end

/-- Whatever the outcome, the thread of the response brings the record of the callee up to
    date, and frees a slot only if it is to evict. -/
theorem safe_awaitOutcome_records (text : JsonText) {callee : HostAndPort} {timeouts : Nat}
    {p : Process} (h : RecordExact timeouts (p.potentiallyFailing callee)) (outcome : CallOutcome) :
    Code.Safe (settler callee (Evicts (countAfter timeouts outcome)))
      (Recorded callee (countAfter timeouts outcome)) (awaitOutcome text callee outcome) p := by
  cases outcome with
  | answered message =>
    rw [awaitOutcome]
    cases hparsed : RPCResponse.parsedResponse text (callTo callee) message with
    | error e => exact fun _ _ _ => trivial
    | ok response =>
      exact safe_healthyNodeCallback_records (RPCResponse.calleeOf_parsedResponse hparsed)
  | timedOut =>
    have hfresh : [("error", Json.string "TimeoutException")].lookup "callee_info" = none := by
      simp
    have hmeta := RPCResponse.addResponseMetadata_object (callTo callee) hfresh
    rw [awaitOutcome, TimeoutException.asJson, RPCException.asJson, hmeta]
    exact safe_timedoutNodeCallback_records (RPCResponse.calleeOf_addResponseMetadata hmeta) h
  | neither =>
    intro p' moved _
    show RecordExact timeouts (p'.potentiallyFailing callee)
    rw [moved]
    exact h

end Health.Unlocked

/-! ## The invariant -/

namespace Network

variable {n : Nat}

/-- The main thread does not touch the records. -/
def MainOnTable : MainStage → Prop
  | .free | .waiting _ => True
  | .calling code => code.Only (Access.OnTable True)
  | .taking code => code.Only (Access.OnTable True)

/-- The records count the time-outs in a row, but for a callee that is being settled, unless
    an exception has ended the health thread. -/
def HealthRecords (timeouts : HostAndPort → Nat) (p : Process) : HealthStage → Prop
  | .asleep | .checking _ | .awaiting _ _ => ∀ m, RecordExact (timeouts m) (p.potentiallyFailing m)
  | .listing code =>
    (∀ m, RecordExact (timeouts m) (p.potentiallyFailing m)) ∧ code.Only (Access.OnTable False)
  | .calling _ code =>
    (∀ m, RecordExact (timeouts m) (p.potentiallyFailing m)) ∧ code.Only (Access.OnTable False)
  | .settling callee _ code =>
    (∀ m, m ≠ callee → RecordExact (timeouts m) (p.potentiallyFailing m)) ∧
      code.Safe (settler callee (Evicts (timeouts callee)))
        (Health.Unlocked.Recorded callee (timeouts callee)) p
  | .ended => True

structure WatchInv (node : NetworkNode) (timeouts : HostAndPort → Nat) : Prop where
  main : MainOnTable node.main
  worker : ∀ w job, node.worker w = some job → job.code.Only (Access.OnTable True)
  health : HealthRecords timeouts node.process node.health

section

variable {timeouts : HostAndPort → Nat} {p p' : Process} {access : Access}

theorem HealthRecords.stable {health : HealthStage} (h : HealthRecords timeouts p health)
    (same : p'.potentiallyFailing = p.potentiallyFailing) : HealthRecords timeouts p' health := by
  cases health with
  | asleep => exact fun m => same ▸ h m
  | listing code => exact ⟨fun m => same ▸ h.1 m, h.2⟩
  | checking rest => exact fun m => same ▸ h m
  | calling rest code => exact ⟨fun m => same ▸ h.1 m, h.2⟩
  | awaiting callee rest => exact fun m => same ▸ h m
  | settling callee rest code => exact ⟨fun m hm => same ▸ h.1 m hm, h.2.stable same⟩
  | ended => trivial

theorem MainOnTable.of_access {main : MainStage} (h : MainOnTable main)
    {next : access.Answer → MainStage} (hmain : main.access = some ⟨access, next⟩) :
    access.OnTable True ∧ ∀ answer, MainOnTable (next answer) := by
  cases main with
  | free => cases hmain
  | calling code =>
    cases code with
    | ended result => cases hmain
    | access access rest => cases hmain; exact h
  | waiting rpcCall => cases hmain
  | taking code =>
    cases code with
    | ended result => cases hmain
    | access access rest => cases hmain; exact h

theorem only_of_jobAccess {job : Job} (h : job.code.Only (Access.OnTable True))
    {next : access.Answer → Job} (hjob : job.access = some ⟨access, next⟩) :
    access.OnTable True ∧ ∀ answer, (next answer).code.Only (Access.OnTable True) := by
  obtain ⟨endpoint, code⟩ := job
  cases code with
  | ended result => cases hjob
  | access access rest => cases hjob; exact h

/-- The records of other nodes stay when a check of one is settled. -/
theorem potentiallyFailing_perform_of_settles {callee : HostAndPort} {evicts : Prop}
    (settles : access.Settles callee evicts) {m : HostAndPort} (hm : m ≠ callee) :
    (access.perform p).2.potentiallyFailing m = p.potentiallyFailing m := by
  cases access with
  | numRetries _ | markAsPotentiallyFailing _ | incrementNumberOfRetriesForNode _
  | removeNodeFromPotentiallyFailingMap _ =>
    cases settles
    exact Function.update_of_ne hm ..
  | _ => rfl

theorem HealthRecords.of_access {health : HealthStage} (h : HealthRecords timeouts p health)
    {next : access.Answer → HealthStage} (hhealth : health.access = some ⟨access, next⟩) :
    HealthRecords timeouts (access.perform p).2 (next (access.perform p).1) := by
  cases health with
  | asleep => cases hhealth
  | listing code =>
    cases code with
    | ended result => cases hhealth
    | access access rest =>
      cases hhealth
      obtain ⟨ok, hrest⟩ := h.2
      exact ⟨fun m => ok.keepsRecords p ▸ h.1 m, hrest _⟩
  | checking rest => cases hhealth
  | calling rest code =>
    cases code with
    | ended result => cases hhealth
    | access access rest =>
      cases hhealth
      obtain ⟨ok, hrest⟩ := h.2
      exact ⟨fun m => ok.keepsRecords p ▸ h.1 m, hrest _⟩
  | awaiting callee rest => cases hhealth
  | settling callee rest code =>
    cases code with
    | ended result => cases hhealth
    | access access rest =>
      cases hhealth
      obtain ⟨settles, hrest⟩ := h.2.next trivial
      refine ⟨fun m hm => ?_, hrest⟩
      rw [potentiallyFailing_perform_of_settles settles hm]
      exact h.1 m hm
  | ended => cases hhealth

end

section

variable {s : Watched n} {i : Fin n} {node : NetworkNode}

theorem watchInv_setNode (h : ∀ j, WatchInv (s.1.node j) (s.2 j)) {timeouts : Fin n → HostAndPort → Nat}
    (hnode : WatchInv node (timeouts i)) (others : ∀ j, j ≠ i → timeouts j = s.2 j) (j : Fin n) :
    WatchInv ((s.1.setNode i node).node j) (timeouts j) := by
  by_cases hj : j = i
  · subst hj
    rwa [node_setNode_self]
  · rw [node_setNode_of_ne s.1 hj, others j hj]
    exact h j

theorem WatchInv.setWorker {timeouts : HostAndPort → Nat} (h : WatchInv node timeouts)
    (w : Fin NUM_WORKERS) {job : Option Job}
    (hjob : ∀ j, job = some j → j.code.Only (Access.OnTable True)) :
    WatchInv (node.setWorker w job) timeouts := by
  refine ⟨h.main, fun w' j hj => ?_, h.health⟩
  have hj : Function.update node.worker w job w' = some j := hj
  by_cases hw : w' = w
  · rw [hw, Function.update_self] at hj
    exact hjob j hj
  · rw [Function.update_of_ne hw] at hj
    exact h.worker w' j hj

theorem timeoutsAfter_of_ne {j : Fin n} (hj : j ≠ i) (outcome : CallOutcome) :
    timeoutsAfter s (.checkEnd i outcome) j = s.2 j :=
  funext fun _ => if_neg fun h => hj h.1

theorem timeoutsAfter_of_awaiting {callee : HostAndPort} {rest : List HostAndPort}
    (awaiting : (s.1.node i).health = .awaiting callee rest) (outcome : CallOutcome)
    (m : HostAndPort) :
    timeoutsAfter s (.checkEnd i outcome) i m =
      if callee = m then countAfter (s.2 i m) outcome else s.2 i m := by
  rw [timeoutsAfter, awaiting]
  simp [awaited]

theorem watchInv_checkEnd (text : JsonText) (h : WatchInv (s.1.node i) (s.2 i))
    {callee : HostAndPort} {rest : List HostAndPort}
    (awaiting : (s.1.node i).health = .awaiting callee rest) (outcome : CallOutcome) :
    WatchInv { s.1.node i with
      health := .settling callee rest (Health.Unlocked.awaitOutcome text callee outcome) }
      (timeoutsAfter s (.checkEnd i outcome) i) := by
  have hhealth := h.health
  rw [awaiting] at hhealth
  refine ⟨h.main, h.worker, fun m hm => ?_, ?_⟩
  · rw [timeoutsAfter_of_awaiting awaiting, if_neg (Ne.symm hm)]
    exact hhealth m
  · rw [timeoutsAfter_of_awaiting awaiting, if_pos rfl]
    exact Health.Unlocked.safe_awaitOutcome_records text (hhealth callee) outcome

end

/-- Every step keeps the records exact. -/
theorem watchInv_step {text : JsonText} {identity : String → Fin n → String}
    {address : Fin n → HostAndPort} {s : Watched n} {label : NetworkStep n} {s' : Network n}
    (h : ∀ j, WatchInv (s.1.node j) (s.2 j)) (next : step text identity address s.1 label = some s') :
    ∀ j, WatchInv (s'.node j) (timeoutsAfter s label j) := by
  cases moves_of_step next with
  | joinCall i l free =>
    exact watchInv_setNode h ⟨Cluster.Unlocked.only_bootstrapCall .., (h i).worker, (h i).health⟩
      fun _ _ => rfl
  | serve j w request idle sent own =>
    refine watchInv_setNode h ((h j).setWorker w fun job hjob => ?_) fun _ _ => rfl
    cases hjob
    exact IMQNode.Unlocked.only_workBody ..
  | joinEnd i receipt rpcCall waiting possible =>
    exact watchInv_setNode h ⟨Cluster.Unlocked.only_bootstrapEnd .., (h i).worker, (h i).health⟩
      fun _ _ => rfl
  | pass i asleep =>
    have hhealth := (h i).health
    rw [asleep] at hhealth
    exact watchInv_setNode h
      ⟨(h i).main, (h i).worker, hhealth, Cluster.Unlocked.only_listNodes _⟩ fun _ _ => rfl
  | passed i checking =>
    have hhealth := (h i).health
    rw [checking] at hhealth
    exact watchInv_setNode h ⟨(h i).main, (h i).worker, hhealth⟩ fun _ _ => rfl
  | checkSelf i callee rest checking own =>
    have hhealth := (h i).health
    rw [checking] at hhealth
    exact watchInv_setNode h ⟨(h i).main, (h i).worker, hhealth⟩ fun _ _ => rfl
  | check i callee rest checking other =>
    have hhealth := (h i).health
    rw [checking] at hhealth
    exact watchInv_setNode h
      ⟨(h i).main, (h i).worker, hhealth, Health.Unlocked.only_checkCall _⟩ fun _ _ => rfl
  | checkEnd i outcome callee rest awaiting possible =>
    -- The count has changed; the record follows while the health thread settles the check.
    exact watchInv_setNode h (watchInv_checkEnd text (h i) awaiting outcome)
      fun _ hj => timeoutsAfter_of_ne hj outcome
  | mainAccess i access next main =>
    -- Only the health thread makes accesses to the records.
    obtain ⟨ok, hnext⟩ := (h i).main.of_access main
    exact watchInv_setNode h
      ⟨hnext _, (h i).worker, (h i).health.stable (ok.keepsRecords _)⟩ fun _ _ => rfl
  | mainCalled i rpcCall main =>
    exact watchInv_setNode h ⟨trivial, (h i).worker, (h i).health⟩ fun _ _ => rfl
  | mainTaken i main =>
    exact watchInv_setNode h ⟨trivial, (h i).worker, (h i).health⟩ fun _ _ => rfl
  | mainThrew i e main =>
    exact watchInv_setNode h ⟨trivial, (h i).worker, (h i).health⟩ fun _ _ => rfl
  | healthAccess i access next health =>
    exact watchInv_setNode h
      ⟨(h i).main, (h i).worker, (h i).health.of_access health⟩ fun _ _ => rfl
  | healthListed i nodes health =>
    have hhealth := (h i).health
    rw [health] at hhealth
    exact watchInv_setNode h ⟨(h i).main, (h i).worker, hhealth.1⟩ fun _ _ => rfl
  | healthCalled i rest rpcCall health =>
    have hhealth := (h i).health
    rw [health] at hhealth
    exact watchInv_setNode h ⟨(h i).main, (h i).worker, hhealth.1⟩ fun _ _ => rfl
  | healthSettled i callee rest health =>
    have hhealth := (h i).health
    rw [health] at hhealth
    refine watchInv_setNode h ⟨(h i).main, (h i).worker, fun m => ?_⟩ fun _ _ => rfl
    by_cases hm : m = callee
    · rw [hm]
      exact hhealth.2.result trivial
    · exact hhealth.1 m hm
  | healthThrew i e health =>
    exact watchInv_setNode h ⟨(h i).main, (h i).worker, trivial⟩ fun _ _ => rfl
  | workerAccess j w job access next working code =>
    obtain ⟨ok, hnext⟩ := only_of_jobAccess ((h j).worker w job working) code
    have hnode : WatchInv { s.1.node j with process := (access.perform (s.1.node j).process).2 }
        (s.2 j) :=
      ⟨(h j).main, (h j).worker, (h j).health.stable (ok.keepsRecords _)⟩
    refine watchInv_setNode h (hnode.setWorker w fun job hjob => ?_) fun _ _ => rfl
    cases hjob
    exact hnext _
  | workerReplied j w endpoint sent working =>
    exact watchInv_setNode h ((h j).setWorker w nofun) fun _ _ => rfl
  | workerSilent j w endpoint working =>
    exact watchInv_setNode h ((h j).setWorker w nofun) fun _ _ => rfl
  | workerThrew j w endpoint e working =>
    exact watchInv_setNode h ((h j).setWorker w nofun) fun _ _ => rfl

/-! ## Who changes the process of a node -/

/-- The step is that a thread of the node makes this access. -/
def Makes (s : Network n) (i : Fin n) (access : Access) : NetworkStep n → Prop
  | .main j => j = i ∧ ∃ next, (s.node i).main.access = some ⟨access, next⟩
  | .health j => j = i ∧ ∃ next, (s.node i).health.access = some ⟨access, next⟩
  | .worker j w => j = i ∧ ∃ job next,
      (s.node i).worker w = some job ∧ job.access = some ⟨access, next⟩
  | _ => False

section

variable {text : JsonText} {identity : String → Fin n → String} {address : Fin n → HostAndPort}
  {s s' : Network n} {label : NetworkStep n}

theorem process_setNode (s : Network n) {i : Fin n} {node : NetworkNode}
    (same : node.process = (s.node i).process) (j : Fin n) :
    ((s.setNode i node).node j).process = (s.node j).process := by
  by_cases hj : j = i
  · subst hj
    rwa [node_setNode_self]
  · rw [node_setNode_of_ne s hj]

theorem process_access (s : Network n) {i : Fin n} {access : Access} {node : NetworkNode}
    (after : node.process = (access.perform (s.node i).process).2)
    (makes : s.Makes i access label) (j : Fin n) :
    ((s.setNode i node).node j).process = (s.node j).process ∨
      ∃ access, s.Makes j access label ∧
        ((s.setNode i node).node j).process = (access.perform (s.node j).process).2 := by
  by_cases hj : j = i
  · subst hj
    rw [node_setNode_self]
    exact .inr ⟨access, makes, after⟩
  · rw [node_setNode_of_ne s hj]
    exact .inl rfl

/-- Only accesses of its own threads change the process of a node. -/
theorem process_of_step (next : step text identity address s label = some s') (j : Fin n) :
    (s'.node j).process = (s.node j).process ∨
      ∃ access, s.Makes j access label ∧
        (s'.node j).process = (access.perform (s.node j).process).2 := by
  cases moves_of_step next with
  | mainAccess i access after main =>
    have makes : s.Makes i access (.main i) := ⟨rfl, after, main⟩
    refine process_access s ?_ makes j
    rfl
  | healthAccess i access after health =>
    have makes : s.Makes i access (.health i) := ⟨rfl, after, health⟩
    refine process_access s ?_ makes j
    rfl
  | workerAccess i w job access after working code =>
    have makes : s.Makes i access (.worker i w) := ⟨rfl, job, after, working, code⟩
    refine process_access s ?_ makes j
    rfl
  | _ =>
    refine .inl (process_setNode s ?_ j)
    rfl

end

/-! ## A check that nothing disturbs -/

/-- The health thread of a node settles a check, and no other thread changes the process. -/
def Undisturbed (j : Fin n) (s : Network n) (label : NetworkStep n) : Prop :=
  (∃ callee rest code, (s.node j).health = .settling callee rest code) ∧
    (label = .health j ∨ ∀ access, s.Makes j access label →
      (access.perform (s.node j).process).2 = (s.node j).process)

/-- How far the end of a check has got since it was the code `t₀`, in the process `p₀`. -/
def SettlesAlone (t₀ : Code Unit) (p₀ : Process) (node : NetworkNode) : Prop :=
  match node.health with
  | .settling _ _ code => Thread.Reaches Access.perform t₀ p₀ code node.process
  | _ => ∃ result, (Code.run t₀).run p₀ = Thread.resultIn result node.process

section

variable {text : JsonText} {identity : String → Fin n → String} {address : Fin n → HostAndPort}
  {s s' : Network n} {label : NetworkStep n} {j : Fin n} {t₀ : Code Unit} {p₀ : Process}
  {callee : HostAndPort} {rest : List HostAndPort} {code : Code Unit}

theorem health_setNode (s : Network n) {i : Fin n} {node : NetworkNode}
    (same : node.health = (s.node i).health) (j : Fin n) :
    ((s.setNode i node).node j).health = (s.node j).health := by
  by_cases hj : j = i
  · subst hj
    rwa [node_setNode_self]
  · rw [node_setNode_of_ne s hj]

/-- Other steps leave a health thread that settles a check where it is. -/
theorem health_of_step (next : step text identity address s label = some s')
    (settling : (s.node j).health = .settling callee rest code) (other : label ≠ .health j) :
    (s'.node j).health = .settling callee rest code := by
  have hself : ∀ i : Fin n, (s.node i).health ≠ .settling callee rest code → j ≠ i := by
    rintro i hi rfl
    exact hi settling
  rw [← settling]
  cases moves_of_step next with
  | pass i asleep => rw [node_setNode_of_ne s (hself i (by rw [asleep]; nofun))]
  | passed i checking => rw [node_setNode_of_ne s (hself i (by rw [checking]; nofun))]
  | checkSelf i _ _ checking own => rw [node_setNode_of_ne s (hself i (by rw [checking]; nofun))]
  | check i _ _ checking other => rw [node_setNode_of_ne s (hself i (by rw [checking]; nofun))]
  | checkEnd i outcome _ _ awaiting possible =>
    rw [node_setNode_of_ne s (hself i (by rw [awaiting]; nofun))]
  | healthAccess i access next health =>
    have hi : j ≠ i := fun hi => other (by rw [hi])
    rw [node_setNode_of_ne s hi]
  | healthListed i nodes health =>
    have hi : j ≠ i := fun hi => other (by rw [hi])
    rw [node_setNode_of_ne s hi]
  | healthCalled i rest rpcCall health =>
    have hi : j ≠ i := fun hi => other (by rw [hi])
    exact congrArg NetworkNode.health (node_setNode_of_ne s hi _)
  | healthSettled i callee rest health =>
    have hi : j ≠ i := fun hi => other (by rw [hi])
    rw [node_setNode_of_ne s hi]
  | healthThrew i e health =>
    have hi : j ≠ i := fun hi => other (by rw [hi])
    exact congrArg NetworkNode.health (node_setNode_of_ne s hi _)
  | _ =>
    refine health_setNode s ?_ j
    rfl

theorem settlesAlone_step (h : SettlesAlone t₀ p₀ (s.node j)) (undisturbed : Undisturbed j s label)
    (next : step text identity address s label = some s') : SettlesAlone t₀ p₀ (s'.node j) := by
  obtain ⟨⟨callee, rest, code, settling⟩, quiet⟩ := undisturbed
  unfold SettlesAlone at h
  rw [settling] at h
  by_cases hown : label = .health j
  · subst hown
    cases moves_of_step next with
    | healthAccess i access after health =>
      rw [settling] at health
      cases code with
      | ended result => cases health
      | access access rest =>
        cases health
        unfold SettlesAlone
        rw [node_setNode_self]
        exact h.access
    | healthListed i nodes health => rw [settling] at health; cases health
    | healthCalled i rest rpcCall health => rw [settling] at health; cases health
    | healthSettled i callee rest health =>
      rw [settling] at health
      cases health
      unfold SettlesAlone
      rw [node_setNode_self]
      exact ⟨_, h.run_of_ended⟩
    | healthThrew i e health =>
      rw [settling] at health
      obtain health | ⟨_, health⟩ | ⟨_, _, health⟩ := health
      · cases health
      · cases health
      · cases health
        have hnode : ((s.setNode j { s.node j with health := .ended }).throw .health e).node j =
            { s.node j with health := .ended } := node_setNode_self ..
        unfold SettlesAlone
        rw [hnode]
        exact ⟨_, h.run_of_ended⟩
  · -- A step of another thread changes neither the stage nor the process.
    have hhealth := health_of_step next settling hown
    have hsame : (s'.node j).process = (s.node j).process := by
      obtain hsame | ⟨access, makes, hprocess⟩ := process_of_step next j
      · exact hsame
      · rw [hprocess]
        exact (quiet.resolve_left hown) access makes
    unfold SettlesAlone
    rw [hhealth, hsame]
    exact h

end

/-- The end of a check settles the callee, or an answer that cannot be read has caused an
    exception. -/
theorem process_of_awaitOutcome {text : JsonText} {callee : HostAndPort} {outcome : CallOutcome}
    {p p' : Process} {result : Except Exn Unit}
    (ran : (Code.run (Health.Unlocked.awaitOutcome text callee outcome)).run p =
      Thread.resultIn result p') :
    p' = p.settle callee outcome ∨ (∃ message, outcome = .answered message) ∧ p' = p := by
  rw [Health.Unlocked.run_awaitOutcome] at ran
  cases hrun : (Health.awaitOutcome text (Health.callTo callee) outcome).run p with
  | ok given q =>
    rw [Cpp.run_bind_ok hrun] at ran
    obtain ⟨_, rfl⟩ := Thread.resultIn_injective (show Thread.resultIn (.ok ()) q = _ from ran)
    exact .inl (PassAndBootstrap.settled_of_awaitOutcome hrun)
  | error e q =>
    rw [Cpp.run_bind_error hrun] at ran
    obtain ⟨_, rfl⟩ := Thread.resultIn_injective (show Thread.resultIn (.error e) q = _ from ran)
    cases outcome with
    | answered message =>
      -- It is thrown where the answer is read, before the callback.
      refine .inr ⟨⟨message, rfl⟩, ?_⟩
      have hset : (Health.callTo callee).messageReceiptCallback =
        some Health.healthyNodeCallback := rfl
      cases hparsed : RPCResponse.parsedResponse text (Health.callTo callee) message with
      | ok reply =>
        have hcallee := RPCResponse.calleeOf_parsedResponse hparsed
        rw [Health.awaitOutcome, RPCResponse.run_doMessageCallback hset hparsed
          (Health.run_healthyNodeCallback hcallee p)] at hrun
        cases hrun
      | error e =>
        simp only [Health.awaitOutcome, RPCResponse.doMessageCallback, hset, hparsed] at hrun
        rw [Cpp.run_bind_error (Cpp.run_ofExcept_error e p)] at hrun
        cases hrun
        rfl
    | timedOut =>
      have readable : CallOutcome.timedOut.Readable text := trivial
      obtain ⟨callback, hok, _⟩ := Health.run_awaitOutcome readable callee p
      rw [hok] at hrun
      cases hrun
    | neither => cases hrun

/-- Every fifth time-out in a row takes one listing of the callee away, and nothing else
    changes the table. -/
theorem cluster_settle_of_recordExact {p : Process} {callee : HostAndPort} {timeouts : Nat}
    (h : RecordExact timeouts (p.potentiallyFailing callee)) (outcome : CallOutcome) :
    (outcome = .timedOut ∧ timeouts % 5 = 4 →
      (p.settle callee outcome).cluster = p.cluster.removeNode callee) ∧
    (¬ (outcome = .timedOut ∧ timeouts % 5 = 4) →
      (p.settle callee outcome).cluster = p.cluster) := by
  cases outcome with
  | answered message => exact ⟨fun h => CallOutcome.noConfusion h.1, fun _ => rfl⟩
  | timedOut =>
    rw [and_iff_right rfl]
    show (_ → (p.timedOut callee).cluster = _) ∧ (_ → (p.timedOut callee).cluster = _)
    cases hretries : p.potentiallyFailing callee with
    | none =>
      rw [hretries] at h
      have hzero : timeouts % 5 = 0 := h
      rw [Process.timedOut_of_none hretries]
      exact ⟨fun hfour => by omega, fun _ => rfl⟩
    | some retries =>
      rw [hretries] at h
      rw [Process.timedOut_of_some hretries, ← recordExact_many_iff h]
      exact ⟨fun many => by rw [if_pos many]; rfl, fun few => by rw [if_neg few]; rfl⟩
  | neither => exact ⟨fun h => CallOutcome.noConfusion h.1, fun _ => rfl⟩

/-- The health thread writes only to free a slot, and only when it has just seen a fifth
    time-out in a row. -/
theorem HealthRecords.write {timeouts : HostAndPort → Nat} {p : Process} {health : HealthStage}
    (h : HealthRecords timeouts p health) {slot : Fin MAX_NUM_NODES} {node : HostAndPort}
    {next : (Access.writeNode slot node).Answer → HealthStage}
    (writes : health.access = some ⟨.writeNode slot node, next⟩) :
    node = {} ∧ ∃ callee rest code,
      health = .settling callee rest code ∧ Evicts (timeouts callee) := by
  cases health with
  | asleep => cases writes
  | listing code =>
    cases code with
    | ended result => cases writes
    | access access rest => cases writes; exact h.2.1.elim
  | checking rest => cases writes
  | calling rest code =>
    cases code with
    | ended result => cases writes
    | access access rest => cases writes; exact h.2.1.elim
  | awaiting callee rest => cases writes
  | settling callee rest code =>
    cases code with
    | ended result => cases writes
    | access access after =>
      cases writes
      obtain ⟨free, evicts⟩ := (h.2.next trivial).1
      exact ⟨free, callee, rest, _, rfl, evicts⟩
  | ended => cases writes

section Runs

variable {text : JsonText} {identity : String → Fin n → String} {address : Fin n → HostAndPort}

theorem watchInv_of_run {labels : List (NetworkStep n)} {s : Watched n}
    (run : Run (watch text identity address) unguarded (initial address, fun _ _ => 0) labels s) :
    ∀ j, WatchInv (s.1.node j) (s.2 j) := by
  have hkeep : ∀ (s : Watched n) label s', (∀ j, WatchInv (s.1.node j) (s.2 j)) →
      unguarded s label → watch text identity address s label = some s' →
        ∀ j, WatchInv (s'.1.node j) (s'.2 j) := by
    intro s label s' h _ next
    obtain ⟨s'', hstep, rfl⟩ := Option.map_eq_some_iff.mp next
    exact watchInv_step h hstep
  exact run.invariant (fun j => ⟨trivial, nofun, fun m => rfl⟩) hkeep

/-! ## A node that never answers -/

/-- A run of the network is one of the watched network. -/
theorem exists_run_watch {guard : Network n → NetworkStep n → Prop} {s s' : Network n}
    {labels : List (NetworkStep n)} (run : Run (step text identity address) guard s labels s')
    (timeouts : Fin n → HostAndPort → Nat) :
    ∃ timeouts', Run (watch text identity address) (fun s label => guard s.1 label) (s, timeouts)
        labels (s', timeouts') ∧
      ((∀ i outcome, .checkEnd i outcome ∉ labels) → timeouts' = timeouts) := by
  induction run with
  | nil => exact ⟨timeouts, .nil, fun _ => rfl⟩
  | @snoc ls r r' label run ok next ih =>
    obtain ⟨timeouts', hrun, hsame⟩ := ih
    have hnext : watch text identity address (r, timeouts') label =
        some (r', timeoutsAfter (r, timeouts') label) := by
      rw [watch, next]
      rfl
    refine ⟨_, hrun.snoc ok hnext, fun hnone => ?_⟩
    rw [← hsame fun i outcome hmem => hnone i outcome (List.mem_append_left _ hmem)]
    cases label with
    | checkEnd i outcome => exact absurd (List.mem_append_right _ List.mem_cons_self) (hnone i outcome)
    | _ => rfl

/-- The node `i` lists itself and `callee`, and its health thread does nothing. -/
structure Resting (i : Fin n) (callee : HostAndPort) (table : Cluster) (s : Network n) : Prop where
  asleep : (s.node i).health = .asleep
  store : (s.node i).process.rpcStore.ServersOnlyAt (s.node i).process.metaStore
  other : callee ≠ (s.node i).process.metaStore
  listed : table.getNodesInCluster = [(s.node i).process.metaStore, callee]
  table : (s.node i).process.cluster = table

/-- The node waits for the response to its check of `callee`. -/
structure Checking (i : Fin n) (callee : HostAndPort) (table : Cluster) (s : Network n) : Prop where
  awaiting : (s.node i).health = .awaiting callee []
  store : (s.node i).process.rpcStore.ServersOnlyAt (s.node i).process.metaStore
  other : callee ≠ (s.node i).process.metaStore
  listed : table.getNodesInCluster = [(s.node i).process.metaStore, callee]
  table : (s.node i).process.cluster = table

variable (text identity address) in
theorem Resting.exists_run_checking {i : Fin n} {callee : HostAndPort} {table : Cluster}
    {s : Network n} (h : Resting i callee table s) :
    ∃ labels s', Run (step text identity address) unguarded s labels s' ∧
      (∀ j outcome, .checkEnd j outcome ∉ labels) ∧ Checking i callee table s' := by
  obtain ⟨k, hlisting⟩ := exists_run_snapshot text identity address unguarded
    (fun _ => trivial) trivial h.asleep
  rw [h.table, h.listed] at hlisting
  generalize hs₁ : s.setNode i _ = s₁ at hlisting
  have hnode₁ : s₁.node i = { s.node i with
      health := .checking [(s.node i).process.metaStore, callee] } := by
    rw [← hs₁]
    exact node_setNode_self ..
  -- The own address is passed over.
  have hself : Run (step text identity address) unguarded s₁ [.check i]
      (s₁.setNode i { s.node i with health := .checking [callee] }) := by
    apply Run.single trivial
    simp only [step, hnode₁, and_self, if_true]
  generalize hs₂ : s₁.setNode i _ = s₂ at hself
  have hnode₂ : s₂.node i = { s.node i with health := .checking [callee] } := by
    rw [← hs₂]
    exact node_setNode_self ..
  have hother : ¬ (callee.host = (s.node i).process.metaStore.host ∧
      callee.port = (s.node i).process.metaStore.port) := by
    intro he
    apply h.other
    cases callee
    exact congr (congrArg HostAndPort.mk he.1) he.2
  have hlisted : (s.node i).process.cluster.nodeInCluster callee = true := by
    apply nodeInCluster_of_mem
    rw [h.table, h.listed]
    simp
  obtain ⟨m, hcheck⟩ := exists_run_check text identity address unguarded (s := s₂) (i := i)
    (fun _ => trivial) trivial (by rw [hnode₂]) (by rw [hnode₂]; exact hother)
  have hcall := run_checkCall_of_listed h.store h.other hlisted
  rw [hnode₂, hcall] at hcheck
  generalize hs₃ : s₂.afterCheck text i [] _ = s₃ at hcheck
  have hnode₃ : s₃.node i = { s.node i with
      process := { (s.node i).process with
        rpcStore := ((s.node i).process.rpcStore.getRPCClient callee).2 }
      health := .awaiting callee [] } := by
    rw [← hs₃]
    refine (node_setNode_self ..).trans ?_
    rw [hnode₂]
    rfl
  refine ⟨_, _, (hlisting.append hself).append hcheck, fun j outcome hmem => by simp at hmem, ?_⟩
  exact ⟨by rw [hnode₃], by rw [hnode₃]; exact RPCStore.serversOnlyAt_getRPCClient h.store callee,
    by rw [hnode₃]; exact h.other, by rw [hnode₃]; exact h.listed, by rw [hnode₃]; exact h.table⟩

variable (text identity address) in
/-- A check times out, and nothing disturbs its end. -/
theorem Checking.exists_run_timedOut {i : Fin n} {callee : HostAndPort} {table : Cluster}
    {s : Network n} (h : Checking i callee table s) :
    ∃ s₁ k s', step text identity address s (.checkEnd i .timedOut) = some s₁ ∧
      Run (step text identity address) (Undisturbed i) s₁ (List.replicate k (.health i)) s' ∧
      s'.node i = { s.node i with
        process := (s.node i).process.settle callee .timedOut
        health := .checking [] } := by
  have next : step text identity address s (.checkEnd i .timedOut) = some (s.setNode i { s.node i with
      health := .settling callee [] (Health.Unlocked.awaitOutcome text callee .timedOut) }) := by
    simp only [step, h.awaiting]
    exact if_pos trivial
  generalize hs : s.setNode i _ = s₁ at next
  obtain ⟨k, run⟩ := exists_run_settling (s := s₁) text identity address (Undisturbed i)
    (fun s code settling => ⟨⟨callee, [], code, settling⟩, .inl rfl⟩)
    (by rw [← hs, node_setNode_self])
  have readable : CallOutcome.timedOut.Readable text := trivial
  obtain ⟨callback, hok, _⟩ := Health.run_awaitOutcome readable callee (s.node i).process
  rw [Health.Unlocked.run_awaitOutcome, afterCheckEnd_bind, ← hs, node_setNode_self,
    afterCheckEnd_setNode, hok, hs] at run
  exact ⟨s₁, k, _, next, run, node_setNode_self ..⟩

variable (text identity address) in
theorem Checking.exists_watched_timedOut {i : Fin n} {callee : HostAndPort} {table : Cluster}
    {s : Watched n} (h : Checking i callee table s.1) :
    ∃ s₁ k s', watch text identity address s (.checkEnd i .timedOut) = some s₁ ∧
      Run (watch text identity address) (fun s => Undisturbed i s.1) s₁
        (List.replicate k (.health i)) s' ∧
      s'.1.node i = { s.1.node i with
        process := (s.1.node i).process.settle callee .timedOut
        health := .checking [] } ∧
      s'.2 i callee = s.2 i callee + 1 := by
  obtain ⟨s₁, k, s', next, run, hnode⟩ := h.exists_run_timedOut text identity address
  obtain ⟨timeouts, hrun, hsame⟩ := exists_run_watch run (timeoutsAfter s (.checkEnd i .timedOut))
  refine ⟨(s₁, timeoutsAfter s (.checkEnd i .timedOut)), k, (s', timeouts), ?_, hrun, hnode, ?_⟩
  · rw [watch, next]
    rfl
  · show timeouts i callee = _
    have hnone : ∀ j outcome, NetworkStep.checkEnd j outcome ∉ List.replicate k (.health i) := by
      intro j outcome hmem
      cases List.eq_of_mem_replicate hmem
    rw [hsame hnone, timeoutsAfter_of_awaiting h.awaiting, if_pos rfl]
    rfl

/-- A check that times out and does not evict, and the end of the pass. -/
theorem Checking.exists_run_resting {i : Fin n} {callee : HostAndPort} {table : Cluster}
    {s : Watched n} (h : Checking i callee table s.1) (inv : WatchInv (s.1.node i) (s.2 i))
    (few : s.2 i callee % 5 ≠ 4) :
    ∃ labels s', Run (watch text identity address) unguarded s labels s' ∧
      Resting i callee table s'.1 ∧ s'.2 i callee = s.2 i callee + 1 := by
  have hrecord := inv.health
  rw [h.awaiting] at hrecord
  obtain ⟨s₁, k, s₂, next, run, hnode, hcount⟩ :=
    h.exists_watched_timedOut text identity address
  have hpassed : watch text identity address s₂ (.check i) =
      some (s₂.1.setNode i { s₂.1.node i with health := .asleep }, s₂.2) := by
    simp only [watch, step, hnode]
    rfl
  have hnode' := node_setNode_self s₂.1 i { s₂.1.node i with health := .asleep }
  have hkept := (cluster_settle_of_recordExact (hrecord callee) .timedOut).2 fun h => few h.2
  have hmeta : ((s.1.node i).process.settle callee .timedOut).metaStore =
      (s.1.node i).process.metaStore := Process.metaStore_settle ..
  have hstore := Process.rpcStore_settle (s.1.node i).process callee .timedOut
  refine ⟨_, _, ((Run.single trivial next).append (run.mono fun _ _ _ => trivial)).snoc trivial
    hpassed, ⟨?_, ?_, ?_, ?_, ?_⟩, hcount⟩
  all_goals rw [hnode']
  all_goals simp only [hnode, hmeta, hstore]
  · exact h.store
  · exact h.other
  · exact h.listed
  · rw [hkept]
    exact h.table

/-- Two nodes, of which the first has called the second to join it. -/
theorem exists_run_resting_twoNodes :
    ∃ labels s, Run (watch (.ofFormat noFloats) (fun _ _ => "client") twoNodes) unguarded
        (initial twoNodes, fun _ _ => 0) labels s ∧
      Resting 0 ⟨"b", 2⟩ ((Cluster.new.addNode ⟨"a", 1⟩).register ⟨"b", 2⟩) s.1 ∧
      s.2 0 ⟨"b", 2⟩ = 0 := by
  have links : Equivalence (Linked (n := 2) []) := Relation.EqvGen.is_equivalence _
  have h : Inv (.ofFormat noFloats) twoNodes _ (initial twoNodes) := inv_initial twoNodes links
  obtain ⟨k, run⟩ := exists_run_called (i := 0) (l := 1) (fun _ _ => "client") unguarded
    (fun _ => trivial) trivial addresses_twoNodes h (by decide) rfl (by decide)
  obtain ⟨timeouts, hrun, hsame⟩ := exists_run_watch run fun _ _ => 0
  have htimeouts := hsame fun j outcome hmem => by simp at hmem
  refine ⟨_, _, hrun.mono fun _ _ _ => trivial, ⟨rfl, ?_, ?_, ?_, rfl⟩, ?_⟩
  · exact RPCStore.serversOnlyAt_getRPCClient (h.node 0).process.store _
  · show (⟨"b", 2⟩ : HostAndPort) ≠ ⟨"a", 1⟩
    decide
  · show _ = [(⟨"a", 1⟩ : HostAndPort), ⟨"b", 2⟩]
    decide
  · rw [htimeouts]

/-- The node times out on checks of the second, of which it waits for the next. -/
theorem exists_run_checking_twoNodes (k : Nat) (few : k ≤ 4) :
    ∃ labels s, Run (watch (.ofFormat noFloats) (fun _ _ => "client") twoNodes) unguarded
        (initial twoNodes, fun _ _ => 0) labels s ∧
      Checking 0 ⟨"b", 2⟩ ((Cluster.new.addNode ⟨"a", 1⟩).register ⟨"b", 2⟩) s.1 ∧
      s.2 0 ⟨"b", 2⟩ = k := by
  have hnext : ∀ labels s, Run (watch (.ofFormat noFloats) (fun _ _ => "client") twoNodes) unguarded
      (initial twoNodes, fun _ _ => 0) labels s →
      Resting 0 ⟨"b", 2⟩ ((Cluster.new.addNode ⟨"a", 1⟩).register ⟨"b", 2⟩) s.1 →
      ∃ labels s', Run (watch (.ofFormat noFloats) (fun _ _ => "client") twoNodes) unguarded
          (initial twoNodes, fun _ _ => 0) labels s' ∧
        Checking 0 ⟨"b", 2⟩ ((Cluster.new.addNode ⟨"a", 1⟩).register ⟨"b", 2⟩) s'.1 ∧
        s'.2 = s.2 := by
    intro labels s run resting
    obtain ⟨labels', s', run', hnone, checking⟩ :=
      resting.exists_run_checking (.ofFormat noFloats) (fun _ _ => "client") twoNodes
    obtain ⟨timeouts, hrun, hsame⟩ := exists_run_watch run' s.2
    exact ⟨_, _, run.append hrun, checking, hsame hnone⟩
  induction k with
  | zero =>
    obtain ⟨labels, s, run, resting, hcount⟩ := exists_run_resting_twoNodes
    obtain ⟨labels', s', run', checking, hsame⟩ := hnext labels s run resting
    exact ⟨labels', s', run', checking, by rw [hsame, hcount]⟩
  | succ k ih =>
    obtain ⟨labels, s, run, checking, hcount⟩ := ih (by omega)
    obtain ⟨labels₁, s₁, run₁, resting, hcount₁⟩ :=
      checking.exists_run_resting (watchInv_of_run run 0) (by omega)
    obtain ⟨labels', s', run', checking', hsame⟩ := hnext _ s₁ (run.append run₁) resting
    exact ⟨labels', s', run', checking', by rw [hsame, hcount₁, hcount]⟩

/-- The fifth check of the second node times out, and nothing disturbs its end. -/
theorem exists_run_evicted_twoNodes :
    ∃ labels s s₁ k s', Run (watch (.ofFormat noFloats) (fun _ _ => "client") twoNodes) unguarded
        (initial twoNodes, fun _ _ => 0) labels s ∧
      Checking 0 ⟨"b", 2⟩ ((Cluster.new.addNode ⟨"a", 1⟩).register ⟨"b", 2⟩) s.1 ∧
      s.2 0 ⟨"b", 2⟩ = 4 ∧
      watch (.ofFormat noFloats) (fun _ _ => "client") twoNodes s (.checkEnd 0 .timedOut) =
        some s₁ ∧
      Run (watch (.ofFormat noFloats) (fun _ _ => "client") twoNodes)
        (fun s => Undisturbed 0 s.1) s₁ (List.replicate k (.health 0)) s' ∧
      s'.1.node 0 = { s.1.node 0 with
        process := (s.1.node 0).process.settle ⟨"b", 2⟩ .timedOut
        health := .checking [] } := by
  obtain ⟨labels, s, run, checking, hcount⟩ := exists_run_checking_twoNodes 4 (by decide)
  obtain ⟨s₁, k, s', next, run', hnode, _⟩ := checking.exists_watched_timedOut _ _ _
  exact ⟨labels, s, s₁, k, s', run, checking, hcount, next, run', hnode⟩

/-! ## Runs -/

/-- In every run, and whatever the messages say: if no other thread changes the process of a node
    while its health thread settles a check, then the node that was checked is removed from the
    table at every fifth time-out in a row, and else the table stays as it is. -/
theorem eviction_exact (text : JsonText) (identity : String → Fin n → String)
    (address : Fin n → HostAndPort) (j : Fin n) (labels : List (NetworkStep n)) (s : Watched n)
    (run : Run (watch text identity address) unguarded (initial address, fun _ _ => 0) labels s)
    (callee : HostAndPort) (awaits : awaited (s.1.node j).health = some callee)
    (outcome : CallOutcome) (s₁ : Watched n)
    (next : watch text identity address s (.checkEnd j outcome) = some s₁)
    (labels' : List (NetworkStep n)) (s' : Watched n)
    (run' : Run (watch text identity address) (fun s => Undisturbed j s.1) s₁ labels' s')
    (settled : ∀ callee rest code, (s'.1.node j).health ≠ .settling callee rest code) :
    (outcome = .timedOut ∧ s.2 j callee % 5 = 4 →
      (s'.1.node j).process.cluster = (s.1.node j).process.cluster.removeNode callee) ∧
    (¬ (outcome = .timedOut ∧ s.2 j callee % 5 = 4) →
      (s'.1.node j).process.cluster = (s.1.node j).process.cluster) := by
  have hhealth := (watchInv_of_run run j).health
  obtain ⟨s₁, hstep, rfl⟩ := Option.map_eq_some_iff.mp next
  cases moves_of_step hstep with
  | checkEnd _ _ _ rest awaiting possible =>
    rw [awaiting] at hhealth awaits
    cases awaits
    have hstart : SettlesAlone (Health.Unlocked.awaitOutcome text callee outcome)
        (s.1.node j).process ((s.1.setNode j { s.1.node j with
          health := .settling callee rest
            (Health.Unlocked.awaitOutcome text callee outcome) }).node j) := by
      rw [node_setNode_self]
      exact .refl
    have hkeep : ∀ r label r', SettlesAlone (Health.Unlocked.awaitOutcome text callee outcome)
        (s.1.node j).process (r.1.node j) → Undisturbed j r.1 label →
          watch text identity address r label = some r' →
            SettlesAlone (Health.Unlocked.awaitOutcome text callee outcome)
              (s.1.node j).process (r'.1.node j) := by
      intro r label r' h undisturbed next
      obtain ⟨s'', hstep, rfl⟩ := Option.map_eq_some_iff.mp next
      exact settlesAlone_step h undisturbed hstep
    have hend := run'.invariant hstart hkeep
    unfold SettlesAlone at hend
    split at hend
    next callee rest code health => exact absurd health (settled callee rest code)
    next =>
      obtain ⟨result, hran⟩ := hend
      have htable := cluster_settle_of_recordExact (hhealth callee) outcome
      obtain hsettled | ⟨⟨message, hanswered⟩, hsame⟩ := process_of_awaitOutcome hran
      · rw [hsettled]
        exact htable
      · rw [hsame, hanswered]
        exact ⟨fun h => CallOutcome.noConfusion h.1, fun _ => rfl⟩

theorem eviction_exact_twoNodes :
    ∃ labels s s₁ labels' s',
      Run (watch (.ofFormat noFloats) (fun _ _ => "client") twoNodes) unguarded
        (initial twoNodes, fun _ _ => 0) labels s ∧
      awaited (s.1.node 0).health = some ⟨"b", 2⟩ ∧ s.2 0 ⟨"b", 2⟩ = 4 ∧
      watch (.ofFormat noFloats) (fun _ _ => "client") twoNodes s (.checkEnd 0 .timedOut) =
        some s₁ ∧
      Run (watch (.ofFormat noFloats) (fun _ _ => "client") twoNodes)
        (fun s => Undisturbed 0 s.1) s₁ labels' s' ∧
      (CallOutcome.timedOut = .timedOut ∧ s.2 0 ⟨"b", 2⟩ % 5 = 4 →
        (s'.1.node 0).process.cluster = (s.1.node 0).process.cluster.removeNode ⟨"b", 2⟩) ∧
      (¬ (CallOutcome.timedOut = .timedOut ∧ s.2 0 ⟨"b", 2⟩ % 5 = 4) →
        (s'.1.node 0).process.cluster = (s.1.node 0).process.cluster) := by
  obtain ⟨labels, s, s₁, k, s', run, checking, hcount, next, run', hnode⟩ :=
    exists_run_evicted_twoNodes
  have awaits : awaited (s.1.node 0).health = some ⟨"b", 2⟩ := by
    rw [checking.awaiting]
    rfl
  have settled : ∀ callee rest code, (s'.1.node 0).health ≠ .settling callee rest code := by
    rw [hnode]
    exact nofun
  exact ⟨labels, s, s₁, _, s', run, awaits, hcount, next, run',
    eviction_exact (.ofFormat noFloats) (fun _ _ => "client") twoNodes 0 labels s run ⟨"b", 2⟩ awaits
      .timedOut s₁ next _ s' run' settled⟩

end Runs

end Network

end Imq
