import SpeechDispatch.Proofs.EventMoves

/-!
# Losing workers

An exit and a sweep differ only in who is lost: the lost workers are removed, and a task that is assigned to one of
them, which has it, is set back (`DispatchState.Loss`).  The result of a task commutes with any loss, if it is
forwarded: whichever comes first, the task is finished, its worker does not keep it, and all others are set back or not
as they would be without it (`DispatchState.loss_comm_response`).
-/

namespace SpeechDispatch.DispatchState

variable {α σ : Type} {s t : DispatchState α} {lost : Worker → Bool}

/-- Whether a task is lost with its worker: it is assigned to one of those lost, which has it. -/
def losesTask (s : DispatchState α) (lost : Worker → Bool) (task : Task α) : Bool :=
  task.assignedTo.any fun queue => (s.workers.workers.get? queue).any fun worker => lost worker && worker.holds task.id

/-- A task as it is left when workers are lost. -/
def leftBy (s : DispatchState α) (lost : Worker → Bool) (task : Task α) : Task α :=
  if s.losesTask lost task then task.setBack else task

@[simp] theorem id_leftBy (s : DispatchState α) (lost : Worker → Bool) (task : Task α) :
    (s.leftBy lost task).id = task.id := by
  unfold leftBy
  split <;> rfl

@[simp] theorem origin_leftBy (s : DispatchState α) (lost : Worker → Bool) (task : Task α) :
    (s.leftBy lost task).origin = task.origin := by
  unfold leftBy
  split <;> rfl

/-- The second state is the first without the workers that are lost. -/
structure Loss (s : DispatchState α) (lost : Worker → Bool) (t : DispatchState α) : Prop where
  settings_eq : t.settings = s.settings
  workers : ∀ queue, t.workers.workers.get? queue = (s.workers.workers.get? queue).filter (!lost ·)
  tasks : ∀ id, t.tasks.tasks.get? id = (s.tasks.tasks.get? id).map (s.leftBy lost)

theorem Loss.unique {t' : DispatchState α} (h : s.Loss lost t) (h' : s.Loss lost t') : t = t' := by
  have hsettings : t.settings = t'.settings := h.settings_eq.trans h'.settings_eq.symm
  have hworkers : t.workers.workers = t'.workers.workers :=
    Table.ext_get? fun queue => (h.workers queue).trans (h'.workers queue).symm
  have htasks : t.tasks.tasks = t'.tasks.tasks := Table.ext_get? fun id => (h.tasks id).trans (h'.tasks id).symm
  obtain ⟨⟨workers, staleAfter⟩, ⟨tasks, ceiling⟩, responseQueue, timeout⟩ := t
  obtain ⟨⟨workers', staleAfter'⟩, ⟨tasks', ceiling'⟩, responseQueue', timeout'⟩ := t'
  obtain ⟨rfl, rfl, rfl, rfl⟩ := DispatchSettings.mk.inj hsettings
  obtain rfl := hworkers
  obtain rfl := htasks
  rfl

/-! ### Exits and sweeps -/

/-- The exit of a worker is the loss of that worker. -/
theorem loss_exitWorker (hs : s.Named) (queue : String) : s.Loss (·.queue == queue) (s.exitWorker queue).2 := by
  refine ⟨s.settings_exitWorker queue, fun name => ?_, fun id => ?_⟩
  · rw [get?_workers_exitWorker]
    cases hworker : s.workers.workers.get? name with
    | none => simp
    | some worker =>
      rw [Option.filter_some, hs.workers hworker]
      by_cases hname : name = queue <;> simp [hname]
  · rw [get?_tasks_exitWorker hs.workers]
    cases htask : s.tasks.tasks.get? id with
    | none => rfl
    | some task =>
      obtain rfl := hs.tasks htask
      have hlost : s.losesTask (·.queue == queue) task = true ↔
          task.assignedTo = some queue ∧ (s.workers.workers.get? queue).any (·.holds task.id) = true := by
        simp only [losesTask, Option.any_eq_true, Bool.and_eq_true, beq_iff_eq]
        constructor
        · rintro ⟨name, hassigned, worker, hworker, rfl, hholds⟩
          obtain rfl := hs.workers hworker
          exact ⟨hassigned, worker, hworker, hholds⟩
        · rintro ⟨hassigned, worker, hworker, hholds⟩
          exact ⟨queue, hassigned, worker, hworker, hs.workers hworker, hholds⟩
      simp only [Option.map_some, leftBy, hlost]

/-- Those whom a sweep takes out are the silent workers. -/
theorem takeAll_silentQueues (hs : s.workers.Named) (now : Instant) (threshold : Int) :
    (∀ queue, (s.sweep now threshold).2.workers.workers.get? queue =
      (s.workers.workers.get? queue).filter (!·.isSilentFor now threshold)) ∧
    (∀ worker, worker ∈ (s.workers.workers.takeAll (s.workers.silentQueues now threshold)).1 ↔
      s.workers.workers.get? worker.queue = some worker ∧ worker.isSilentFor now threshold = true) ∧
    (s.sweep now threshold).1.removed = s.workers.silentQueues now threshold :=
  Table.takeAll_where hs (WorkerRegistry.nodup_silentQueues hs now threshold) (WorkerRegistry.mem_silentQueues hs)

theorem losesTask_silent_iff (hs : s.workers.Named) {now : Instant} {threshold : Int} {task : Task α} :
    s.losesTask (·.isSilentFor now threshold) task = true ↔
      ∃ worker ∈ (s.workers.workers.takeAll (s.workers.silentQueues now threshold)).1,
        LostWith task.id task worker := by
  simp only [losesTask, Option.any_eq_true, Bool.and_eq_true, (takeAll_silentQueues hs now threshold).2.1, LostWith]
  constructor
  · rintro ⟨queue, hassigned, worker, hworker, hsilent, hholds⟩
    obtain rfl := hs hworker
    exact ⟨worker, ⟨hworker, hsilent⟩, beq_iff_eq.1 hholds, hassigned⟩
  · rintro ⟨worker, ⟨hworker, hsilent⟩, hcurrent, hassigned⟩
    exact ⟨worker.queue, hassigned, worker, hworker, hsilent, beq_iff_eq.2 hcurrent⟩

/-- A sweep is the loss of the silent workers. -/
theorem loss_sweep (hs : s.Named) (now : Instant) (threshold : Int) :
    s.Loss (·.isSilentFor now threshold) (s.sweep now threshold).2 := by
  refine ⟨?_, (takeAll_silentQueues hs.workers now threshold).1, fun id => ?_⟩
  · have hceiling : (s.sweep now threshold).2.tasks.ceiling = s.tasks.ceiling := requeueHeld_ceiling ..
    exact congrArg (DispatchSettings.mk s.workers.staleAfter · s.responseQueue s.publishTimeoutMillis) hceiling
  · change (requeueHeld s.tasks
      (s.workers.workers.takeAll (s.workers.silentQueues now threshold)).1).2.tasks.get? id = _
    rw [get?_requeueHeld]
    cases htask : s.tasks.tasks.get? id with
    | none => rfl
    | some task =>
      obtain rfl := hs.tasks htask
      simp only [Option.map_some, leftBy, losesTask_silent_iff hs.workers]

/-! ### Results -/

/-- Whoever is not lost keeps what is assigned to it. -/
theorem assignedTo_leftBy_iff {queue : String} {worker : Worker} (hworker : s.workers.workers.get? queue = some worker)
    (hkept : lost worker = false) (task : Task α) :
    (s.leftBy lost task).assignedTo = some queue ↔ task.assignedTo = some queue := by
  unfold leftBy
  split
  · rename_i hlost
    simp only [losesTask, Option.any_eq_true, Bool.and_eq_true] at hlost
    obtain ⟨other, hassigned, w, hw, hlostW, -⟩ := hlost
    refine ⟨nofun, fun hqueue => ?_⟩
    obtain rfl := Option.some.inj (hassigned.symm.trans hqueue)
    obtain rfl := Option.some.inj (hworker.symm.trans hw)
    exact absurd hlostW (Bool.eq_false_iff.1 hkept)
  · exact Iff.rfl

/-- With a task that is finished, no other is lost or kept in its place. -/
theorem losesTask_releaseWorkerOf {task other : Task α} {id : String} (hne : other.id ≠ id) (now : Instant) :
    (s.releaseWorkerOf task id now).losesTask lost other = s.losesTask lost other := by
  unfold losesTask
  congr 1
  funext queue
  rw [get?_releaseWorkerOf]
  split
  · rename_i hreleased
    obtain ⟨worker, hworker, -, hcurrent⟩ := WorkerRegistry.isHolding_iff.1 hreleased.2
    have hbefore : worker.holds other.id = false := by
      rw [Worker.holds, hcurrent]
      exact beq_false_of_ne fun h => hne (Option.some.inj h).symm
    have hafter : (worker.freed now).holds other.id = false := rfl
    rw [hworker, Option.map_some, Option.any_some, Option.any_some, hbefore, hafter, Bool.and_false, Bool.and_false]
  · rfl

/-- A release frees the same worker after a loss as before it, if that one is still there. -/
theorem Loss.get?_releaseWorkerOf (h : s.Loss lost t)
    (hfreed : ∀ (worker : Worker) (now : Instant), lost (worker.freed now) = lost worker) (task : Task α)
    (id queue : String) (now : Instant) :
    (t.releaseWorkerOf (s.leftBy lost task) id now).workers.workers.get? queue =
      ((s.releaseWorkerOf task id now).workers.workers.get? queue).filter (!lost ·) := by
  have hleft := h.workers queue
  rw [DispatchState.get?_releaseWorkerOf, DispatchState.get?_releaseWorkerOf]
  cases hworker : s.workers.workers.get? queue with
  | none =>
    rw [hworker, Option.filter_none] at hleft
    rw [hleft, Option.map_none, ite_self, ite_self, Option.filter_none]
  | some worker =>
    rw [hworker, Option.filter_some] at hleft
    cases hlost : lost worker with
    | true =>
      rw [hlost] at hleft
      have hgone : t.workers.workers.get? queue = none := hleft
      rw [hgone, Option.map_none, ite_self]
      split
      · rw [Option.map_some, Option.filter_some, hfreed, hlost]
        rfl
      · rw [Option.filter_some, hlost]
        rfl
    | false =>
      rw [hlost] at hleft
      have hkept : t.workers.workers.get? queue = some worker := hleft
      have hholding : t.workers.isHolding queue id = s.workers.isHolding queue id := by
        simp only [WorkerRegistry.isHolding, hkept, hworker]
      simp only [hkept, hholding, assignedTo_leftBy_iff hworker hlost]
      split
      · rw [Option.map_some, Option.filter_some, hfreed, hlost]
        rfl
      · rw [Option.filter_some, hlost]
        rfl

/-- What a result frees and finishes is the same before and after a loss that does not ask who is busy. -/
theorem Loss.finished (h : s.Loss lost t) (hs : s.Named)
    (hfreed : ∀ (worker : Worker) (now : Instant), lost (worker.freed now) = lost worker) (task : Task α) (id : String)
    (now : Instant) :
    Loss ((s.releaseWorkerOf task id now).forget id) lost
      ((t.releaseWorkerOf (s.leftBy lost task) id now).forget id) := by
  refine ⟨?_, fun queue => h.get?_releaseWorkerOf hfreed task id queue now, fun other => ?_⟩
  · have hreleased := (t.settings_releaseWorkerOf (s.leftBy lost task) id now).trans h.settings_eq
    exact hreleased.trans (s.settings_releaseWorkerOf task id now).symm
  · rw [get?_forget, get?_forget]
    split
    · rfl
    · rename_i hother
      rw [releaseWorkerOf_tasks, releaseWorkerOf_tasks, h.tasks]
      cases htask : s.tasks.tasks.get? other with
      | none => rfl
      | some o =>
        have hne : o.id ≠ id := by
          rw [hs.tasks htask]
          exact hother
        have hsame : ((s.releaseWorkerOf task id now).forget id).losesTask lost o = s.losesTask lost o :=
          losesTask_releaseWorkerOf hne now
        simp only [Option.map_some, leftBy, hsame]

variable [Outlet σ]

/-- A result goes out as it would without the loss. -/
theorem Loss.forward_eq (h : s.Loss lost t) (task : Task α) (body : Bytes) (outlet : σ) :
    t.forward (s.leftBy lost task) body outlet = s.forward task body outlet := by
  have htimeout : t.publishTimeoutMillis = s.publishTimeoutMillis :=
    congrArg DispatchSettings.publishTimeoutMillis h.settings_eq
  simp only [forward, origin_leftBy, Task.callerCorrelation, id_leftBy, htimeout]

theorem processResponse_of_unknown {id : String} (h : s.tasks.tasks.get? id = none) (body : Bytes) (redelivered : Bool)
    (outlet : σ) (now : Instant) :
    s.processResponse id body redelivered outlet now = (.error (.unknownCorrelation id), s, outlet) := by
  rcases s.processResponse_cases id body redelivered outlet now with ⟨-, heq⟩ | ⟨task, htask, -⟩
  · exact heq
  · cases h.symm.trans htask

theorem processResponse_of_forwarded {id : String} {task : Task α} (htask : s.tasks.tasks.get? id = some task)
    {body : Bytes} {outlet : σ} (hok : (s.forward task body outlet).1 = .ok ()) (redelivered : Bool) (now : Instant) :
    s.processResponse id body redelivered outlet now =
      (.ok .ack, (s.releaseWorkerOf task id now).forget id, (s.forward task body outlet).2) := by
  rcases s.processResponse_cases id body redelivered outlet now with
    ⟨hnone, -⟩ | ⟨other, hother, ⟨-, heq⟩ | ⟨hfail, -⟩ | ⟨hfail, -⟩⟩
  · cases htask.symm.trans hnone
  all_goals obtain rfl := Option.some.inj (htask.symm.trans hother)
  · exact heq
  · exact absurd hok hfail
  · exact absurd hok hfail

/-- After a loss, a result that is forwarded does what it does without the loss, but for the loss. -/
theorem Loss.processResponse (h : s.Loss lost t) (hs : s.Named)
    (hfreed : ∀ (worker : Worker) (now : Instant), lost (worker.freed now) = lost worker) {id : String} {body : Bytes}
    {outlet : σ} (hok : ∀ task, s.tasks.tasks.get? id = some task → (s.forward task body outlet).1 = .ok ())
    (redelivered : Bool) (now : Instant) :
    ∃ t', (s.processResponse id body redelivered outlet now).2.1.Loss lost t' ∧
      t.processResponse id body redelivered outlet now = ((s.processResponse id body redelivered outlet now).1, t',
        (s.processResponse id body redelivered outlet now).2.2) := by
  have hget := h.tasks id
  cases htask : s.tasks.tasks.get? id with
  | none =>
    rw [htask, Option.map_none] at hget
    rw [processResponse_of_unknown htask, processResponse_of_unknown hget]
    exact ⟨t, h, rfl⟩
  | some task =>
    rw [htask, Option.map_some] at hget
    have hforward := h.forward_eq task body outlet
    have hok' : (t.forward (s.leftBy lost task) body outlet).1 = .ok () := by
      rw [hforward]
      exact hok task htask
    rw [processResponse_of_forwarded htask (hok task htask), processResponse_of_forwarded hget hok', hforward]
    exact ⟨_, h.finished hs hfreed task id now, rfl⟩

/-- In every state that can be reached, a result that goes to a caller or to nobody does the same before and after the
exit of any worker, and before and after any sweep: it is settled in the same way, with the same publications, and the
two leave the same registries.  Publications are what the outlet makes of them, which may be a record of them all. -/
theorem loss_comm_response [Quantity α] (staleAfter : Int) (ceiling : Nat) (responseQueue : String)
    (publishTimeoutMillis : Nat) (events : List (Event α σ)) (id : String) (body : Bytes) (redelivered : Bool)
    (outlet : σ) (now : Instant) (queue : String) (sweptAt : Instant) (threshold : Int) :
    let s : DispatchState α := (start staleAfter ceiling responseQueue publishTimeoutMillis).run events
    let answered := s.processResponse id body redelivered outlet now
    (∀ task replyTo, s.tasks.tasks.get? id = some task → task.origin.replyTo = some replyTo →
      (Outlet.publishWithin outlet s.publishTimeoutMillis replyTo ⟨body, some task.callerCorrelation, none⟩).1 =
        .ok ()) →
    (s.exitWorker queue).2.processResponse id body redelivered outlet now =
      (answered.1, (answered.2.1.exitWorker queue).2, answered.2.2) ∧
    (s.sweep sweptAt threshold).2.processResponse id body redelivered outlet now =
      (answered.1, (answered.2.1.sweep sweptAt threshold).2, answered.2.2) := by
  intro s answered hforward
  have hs : s.Named := named_run (named_start ..) events
  have hanswered : answered.2.1.Named := by
    have hafter := named_run hs [(.response id body redelivered outlet now : Event α σ)]
    exact hafter
  have hok : ∀ task, s.tasks.tasks.get? id = some task → (s.forward task body outlet).1 = .ok () := by
    intro task htask
    unfold forward
    cases hreply : task.origin.replyTo with
    | none => rfl
    | some replyTo => exact hforward task replyTo htask hreply
  constructor
  · obtain ⟨t, hloss, heq⟩ := (loss_exitWorker hs queue).processResponse hs (fun _ _ => rfl) hok redelivered now
    rw [heq, hloss.unique (loss_exitWorker hanswered queue)]
  · obtain ⟨t, hloss, heq⟩ :=
      (loss_sweep hs sweptAt threshold).processResponse hs (fun _ _ => rfl) hok redelivered now
    rw [heq, hloss.unique (loss_sweep hanswered sweptAt threshold)]

/-- A worker leaves while the result of its task is on the way: without the result the task would be set back. -/
theorem loss_comm_response_onTheWay :
    let outlet : Journal Publication := ⟨.accepted, []⟩
    let events : List (Event Rat (Journal Publication)) := [.registration ⟨"w", .register, 0⟩ 0,
      .work "t" ⟨"model", 1 / 2, 3⟩ 10 1000000 ⟨Bytes.ofText "{}", some "caller", none⟩ 1000000,
      .pass (fun _ _ _ _ => .ok (some "t")) outlet 2000000]
    let s : DispatchState Rat := (start 30 3 "results" 10000).run events
    let answered := s.processResponse "t" (Bytes.ofText "text") false outlet 3000000
    ((s.exitWorker "w").1 = some ["t"] ∧ (s.sweep 40000000 30).1 = ⟨["w"], ["t"]⟩ ∧ answered.2.2.sent.length = 1) ∧
    (s.exitWorker "w").2.processResponse "t" (Bytes.ofText "text") false outlet 3000000 =
      (answered.1, (answered.2.1.exitWorker "w").2, answered.2.2) ∧
    (s.sweep 40000000 30).2.processResponse "t" (Bytes.ofText "text") false outlet 3000000 =
      (answered.1, (answered.2.1.sweep 40000000 30).2, answered.2.2) := by
  intro outlet events s answered
  have hfacts : (s.exitWorker "w").1 = some ["t"] ∧ (s.sweep 40000000 30).1 = ⟨["w"], ["t"]⟩ ∧
      answered.2.2.sent.length = 1 := by decide +kernel
  refine ⟨hfacts, ?_⟩
  exact loss_comm_response 30 3 "results" 10000 events "t" (Bytes.ofText "text") false outlet 3000000 "w" 40000000 30
    fun _ _ _ _ => rfl

end SpeechDispatch.DispatchState
