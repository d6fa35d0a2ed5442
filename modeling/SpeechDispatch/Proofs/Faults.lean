import SpeechDispatch.Proofs.Transcript

/-!
# Operations that fail change nothing

Every operation on the registries checks its arguments before it does anything (`DispatchState.guardFault`).  What does
not pass is refused, and the registries that come back are the ones that were given; what passes succeeds, and its
effect is there.  Only a start has more to wait for: it succeeds if its message is accepted, and then both registries
are marked without fail.

* `DispatchState.perform` is an operation with all that can be seen of it: the error it ends with, the state it leaves
  and what it attempted to publish.
* `DispatchState.fault_perform`: without a publication to wait for, an operation fails if and only if its guard does.
-/

namespace SpeechDispatch

variable {α σ : Type}

/-- The error with which something ended. -/
def faultOf {β : Type} : Except DispatchError β → Option DispatchError
  | .ok _ => none
  | .error e => some e

@[simp] theorem faultOf_ok {β : Type} (b : β) : faultOf (.ok b) = none := rfl

@[simp] theorem faultOf_error {β : Type} (e : DispatchError) : faultOf (.error e : Except DispatchError β) = some e :=
  rfl

/-- An operation on the registries, with its arguments. -/
inductive Operation (α σ : Type)
  | applyRegistration (message : Registration) (now : Instant)
  | addTask (task : Task α) (now : Instant)
  | startOn (id queue : String) (outlet : σ) (now : Instant)
  | processResponse (id : String) (body : Bytes) (redelivered : Bool) (outlet : σ) (now : Instant)
  | markBusy (queue : String) (task : Task α) (now : Instant)
  | markFree (queue : String) (now : Instant)
  | markStarted (id worker : String)
  | requeue (id : String)
  | markForwardFailed (id : String) (now : Instant)

/-- What can be seen of an operation. -/
structure Performance (α : Type) where
  fault : Option DispatchError
  state : DispatchState α
  attempts : List Attempt

namespace DispatchState

/-- An operation on the workers alone, by what it answered and the registry it left. -/
def onWorkers (s : DispatchState α) (result : Except DispatchError Unit × WorkerRegistry) : Performance α :=
  ⟨faultOf result.1, { s with workers := result.2 }, []⟩

/-- An operation on the tasks alone, by what it answered and the registry it left. -/
def onTasks {β : Type} (s : DispatchState α) (result : Except DispatchError β × TaskRegistry α) : Performance α :=
  ⟨faultOf result.1, { s with tasks := result.2 }, []⟩

section Perform

variable [Quantity α] [Outlet σ]

def perform (s : DispatchState α) : Operation α σ → Performance α
  | .applyRegistration message now =>
    ⟨faultOf (s.applyRegistration message now).1, (s.applyRegistration message now).2, []⟩
  | .addTask task now => ⟨faultOf (s.addTask task now).1, (s.addTask task now).2, []⟩
  | .startOn id queue outlet now =>
    ⟨faultOf (s.startOn id queue outlet now).1, (s.startOn id queue outlet now).2.1,
      (s.startOn id queue (Transcript.mk outlet []) now).2.2.attempts⟩
  | .processResponse id body redelivered outlet now =>
    ⟨faultOf (s.processResponse id body redelivered outlet now).1,
      (s.processResponse id body redelivered outlet now).2.1,
      (s.processResponse id body redelivered (Transcript.mk outlet []) now).2.2.attempts⟩
  | .markBusy queue task now => s.onWorkers (s.workers.markBusy queue task now)
  | .markFree queue now => s.onWorkers (s.workers.markFree queue now)
  | .markStarted id worker => s.onTasks (s.tasks.markStarted id worker)
  | .requeue id => s.onTasks (s.tasks.requeue id)
  | .markForwardFailed id now => s.onTasks (s.tasks.markForwardFailed id now)

end Perform

/-- What is wrong with the arguments of an operation; of several faults the first counts. -/
def guardFault (s : DispatchState α) : Operation α σ → Option DispatchError
  | .applyRegistration message _ => if message.kind = .exit then none else faultOf message.sentAt
  | .addTask task _ =>
    if isBlank task.id then some (.invalidTask .missingId)
    else if isBlank task.modelType then some (.invalidTask (.missingType task.id))
    else if task.origin.payload.isEmpty then some (.invalidTask (.missingPayload task.id))
    else none
  | .startOn id queue _ _ =>
    match s.tasks.tasks.get? id with
    | none => some (.taskNotFound id)
    | some task =>
      if task.started then some (.invalidTask (.alreadyStarted id task.assignedTo))
      else
        match s.workers.workers.get? queue with
        | none => some (.workerNotFound queue)
        | some worker => if worker.busy then some (.workerBusy queue worker.currentTask) else none
  | .processResponse id _ _ _ _ => if (s.tasks.tasks.get? id).isNone then some (.unknownCorrelation id) else none
  | .markBusy queue _ _ =>
    match s.workers.workers.get? queue with
    | none => some (.workerNotFound queue)
    | some worker => if worker.busy then some (.workerBusy queue worker.currentTask) else none
  | .markFree queue _ =>
    match s.workers.workers.get? queue with
    | none => some (.workerNotFound queue)
    | some worker => if worker.busy then none else some (.workerNotBusy queue)
  | .markStarted id _ | .requeue id | .markForwardFailed id _ =>
    if (s.tasks.tasks.get? id).isNone then some (.taskNotFound id) else none

end DispatchState

/-! ### Operations on one registry -/

theorem faultOf_map {β γ : Type} (f : β → γ) (result : Except DispatchError β) :
    faultOf (result.map f) = faultOf result := by
  cases result <;> rfl

namespace WorkerRegistry

variable (r : WorkerRegistry)

theorem faultOf_markBusy [Quantity α] (queue : String) (task : Task α) (now : Instant) :
    faultOf (r.markBusy queue task now).1 =
      match r.workers.get? queue with
      | none => some (.workerNotFound queue)
      | some worker => if worker.busy then some (.workerBusy queue worker.currentTask) else none := by
  unfold markBusy
  cases r.workers.get? queue with
  | none => rfl
  | some worker => cases hbusy : worker.busy <;> simp [hbusy]

theorem faultOf_markFree (queue : String) (now : Instant) :
    faultOf (r.markFree queue now).1 =
      match r.workers.get? queue with
      | none => some (.workerNotFound queue)
      | some worker => if worker.busy then none else some (.workerNotBusy queue) := by
  unfold markFree
  cases r.workers.get? queue with
  | none => rfl
  | some worker => cases hbusy : worker.busy <;> simp [hbusy]

variable {r} {e : DispatchError}

/-- A task that cannot be given leaves the workers as they were. -/
theorem markBusy_of_fault [Quantity α] {queue : String} {task : Task α} {now : Instant}
    (h : faultOf (r.markBusy queue task now).1 = some e) : (r.markBusy queue task now).2 = r := by
  rcases r.markBusy_cases queue task now with ⟨-, hmark⟩ | ⟨_, -, -, hmark⟩ | ⟨_, -, -, hmark⟩
  · rw [hmark]
  · rw [hmark]
  · rw [hmark] at h
    cases h

/-- A worker that cannot be freed leaves the workers as they were. -/
theorem markFree_of_fault {queue : String} {now : Instant} (h : faultOf (r.markFree queue now).1 = some e) :
    (r.markFree queue now).2 = r := by
  rcases r.markFree_cases queue now with ⟨-, hmark⟩ | ⟨_, -, -, hmark⟩ | ⟨_, -, -, hmark⟩
  · rw [hmark]
  · rw [hmark]
  · rw [hmark] at h
    cases h

end WorkerRegistry

namespace TaskRegistry

variable {r : TaskRegistry α} {id : String} {f : Task α → Task α} {e : DispatchError}

/-- A change of a task fails if and only if the task is not there. -/
theorem faultOf_update (r : TaskRegistry α) (id : String) (f : Task α → Task α) :
    faultOf (r.update id f).1 = if (r.tasks.get? id).isNone then some (.taskNotFound id) else none := by
  unfold update
  cases r.tasks.get? id <;> rfl

/-- A change that is refused leaves the tasks as they were. -/
theorem update_of_fault (h : faultOf (r.update id f).1 = some e) : (r.update id f).2 = r := by
  rcases r.update_cases id f with ⟨-, hupdate⟩ | ⟨_, -, hupdate⟩
  · rw [hupdate]
  · rw [hupdate] at h
    cases h

end TaskRegistry

namespace DispatchState

variable [Quantity α] [Outlet σ]

omit [Quantity α] [Outlet σ] in
theorem faultOf_startable (s : DispatchState α) (id queue : String) (outlet : σ) (now : Instant) :
    faultOf (s.startable id queue) = s.guardFault (.startOn id queue outlet now) := by
  simp only [startable, guardFault, TaskRegistry.get?]
  cases s.tasks.tasks.get? id with
  | none => rfl
  | some task =>
    cases hstarted : task.started with
    | true => simp [hstarted]
    | false =>
      cases s.workers.workers.get? queue with
      | none => simp [hstarted]
      | some worker => cases hbusy : worker.busy <;> simp [hstarted, hbusy]

omit [Quantity α] [Outlet σ] in
private theorem fault_applyRegistration (s : DispatchState α) (message : Registration) (now : Instant) :
    faultOf (s.applyRegistration message now).1 = if message.kind = .exit then none else faultOf message.sentAt := by
  unfold applyRegistration
  cases message.kind with
  | exit => rfl
  | register | beat => cases message.sentAt <;> rfl

omit [Quantity α] [Outlet σ] in
private theorem fault_addTask (s : DispatchState α) (task : Task α) (now : Instant) :
    faultOf (s.addTask task now).1 = faultOf (s.tasks.add task).1 := by
  rcases s.addTask_cases task now with ⟨e, hadd, h⟩ | ⟨hadd, -, h⟩ | ⟨old, hadd, -, h⟩ <;> rw [hadd, h] <;> rfl

omit [Quantity α] in
private theorem fault_processResponse (s : DispatchState α) (id : String) (body : Bytes) (redelivered : Bool)
    (outlet : σ) (now : Instant) :
    faultOf (s.processResponse id body redelivered outlet now).1 =
      if (s.tasks.tasks.get? id).isNone then some (.unknownCorrelation id) else none := by
  rcases s.processResponse_cases id body redelivered outlet now with
    ⟨hnone, h⟩ | ⟨task, htask, ⟨-, h⟩ | ⟨-, -, h⟩ | ⟨-, -, h⟩⟩
  · rw [h, hnone]
    rfl
  all_goals
    rw [h, htask]
    rfl

/-- An operation that has not to wait for a publication fails if and only if its guard does, and with the same error. -/
theorem fault_perform (s : DispatchState α) {op : Operation α σ}
    (hop : ∀ id queue outlet now, op ≠ .startOn id queue outlet now) : (s.perform op).fault = s.guardFault op := by
  cases op with
  | applyRegistration message now => exact s.fault_applyRegistration message now
  | addTask task now =>
    refine (s.fault_addTask task now).trans ?_
    unfold TaskRegistry.add guardFault
    dsimp only
    split
    · rfl
    split
    · rfl
    split <;> rfl
  | startOn id queue outlet now => exact absurd rfl (hop id queue outlet now)
  | processResponse id body redelivered outlet now => exact s.fault_processResponse id body redelivered outlet now
  | markBusy queue task now => exact s.workers.faultOf_markBusy queue task now
  | markFree queue now => exact s.workers.faultOf_markFree queue now
  | markStarted id worker => exact (faultOf_map _ _).trans (s.tasks.faultOf_update id _)
  | requeue id => exact s.tasks.faultOf_update id _
  | markForwardFailed id now => exact (faultOf_map _ _).trans (s.tasks.faultOf_update id _)

/-- Whatever operation fails, at its guard or at its publication, the state is as it was. -/
theorem state_perform_of_fault (s : DispatchState α) {op : Operation α σ} {e : DispatchError}
    (h : (s.perform op).fault = some e) : (s.perform op).state = s := by
  cases op with
  | applyRegistration message now =>
    simp only [perform] at h ⊢
    rcases s.applyRegistration_cases message now with
      ⟨answer, -, happly⟩ | ⟨beatAt, -, -, happly⟩ | ⟨worker, -, -, happly⟩
    · rw [happly]
    · rw [happly] at h
      cases h
    · rw [happly] at h
      cases h
  | addTask task now =>
    simp only [perform] at h ⊢
    rcases s.addTask_cases task now with ⟨e', -, hadd⟩ | ⟨-, -, hadd⟩ | ⟨old, -, -, hadd⟩
    · rw [hadd]
    · rw [hadd] at h
      cases h
    · rw [hadd] at h
      cases h
  | startOn id queue outlet now =>
    simp only [perform] at h ⊢
    rcases s.startOn_cases id queue outlet now with ⟨e', -, hstart⟩ | ⟨task, e', outlet', -, -, hstart⟩ |
      ⟨task, worker, outlet', -, -, -, -, -, hstart⟩
    · rw [hstart]
    · rw [hstart]
    · rw [hstart] at h
      cases h
  | processResponse id body redelivered outlet now =>
    simp only [perform] at h ⊢
    rcases s.processResponse_cases id body redelivered outlet now with
      ⟨-, hresponse⟩ | ⟨task, -, ⟨-, hresponse⟩ | ⟨-, -, hresponse⟩ | ⟨-, -, hresponse⟩⟩
    · rw [hresponse]
    all_goals
      rw [hresponse] at h
      cases h
  | markBusy queue task now =>
    exact congrArg (fun workers => { s with workers }) (WorkerRegistry.markBusy_of_fault h)
  | markFree queue now => exact congrArg (fun workers => { s with workers }) (WorkerRegistry.markFree_of_fault h)
  | requeue id => exact congrArg (fun tasks => { s with tasks }) (TaskRegistry.update_of_fault h)
  | markStarted | markForwardFailed =>
    have hupdate := (faultOf_map _ _).symm.trans h
    exact congrArg (fun tasks => { s with tasks }) (TaskRegistry.update_of_fault hupdate)

/-- An operation that is refused by its guard publishes nothing. -/
theorem perform_of_guardFault (s : DispatchState α) {op : Operation α σ} {e : DispatchError}
    (h : s.guardFault op = some e) : (s.perform op).fault = some e ∧ (s.perform op).attempts = [] := by
  cases op with
  | startOn id queue outlet now =>
    have hfault : s.startable id queue = .error e := by
      rw [← s.faultOf_startable id queue outlet now] at h
      cases hstart : s.startable id queue with
      | ok task =>
        rw [hstart] at h
        cases h
      | error e' =>
        rw [hstart] at h
        exact congrArg Except.error (Option.some.inj h)
    simp only [perform]
    rw [attempts_startOn, hfault]
    refine ⟨?_, rfl⟩
    simp only [startOn, hfault, faultOf_error]
  | processResponse id body redelivered outlet now =>
    refine ⟨(s.fault_perform nofun).trans h, ?_⟩
    simp only [perform]
    rw [attempts_processResponse]
    simp only [guardFault] at h
    split at h
    · rename_i hnone
      rw [Option.isNone_iff_eq_none.1 hnone]
      rfl
    · cases h
  | applyRegistration | addTask | markBusy | markFree | markStarted | requeue | markForwardFailed =>
    exact ⟨(s.fault_perform nofun).trans h, rfl⟩

/-- A start whose guards have passed attempts one message.  It succeeds if and only if the message is accepted; then
both registries are marked, which does not fail. -/
theorem perform_startOn (s : DispatchState α) {id queue : String} {outlet : σ} {now : Instant}
    (h : s.guardFault (.startOn id queue outlet now) = none) :
    ∃ task workers tasks, s.tasks.tasks.get? id = some task ∧
      s.workers.markBusy queue task now = (.ok (), workers) ∧ s.tasks.markStarted id queue = (.ok (), tasks) ∧
      let accepted := (Outlet.publish outlet queue (s.dispatchMessage task)).1.isAccepted
      (s.perform (.startOn id queue outlet now)).attempts = [⟨queue, s.dispatchMessage task, accepted⟩] ∧
      ((s.perform (.startOn id queue outlet now)).fault = none ↔ accepted = true) ∧
      (accepted = true → (s.perform (.startOn id queue outlet now)).state = { s with workers, tasks } ∧
        tasks.tasks.get? id = some (task.startedOn queue) ∧ workers.isHolding queue task.id = true) := by
  have hstartable : ∃ task, s.startable id queue = .ok task := by
    rw [← s.faultOf_startable id queue outlet now] at h
    cases hstart : s.startable id queue with
    | ok task => exact ⟨task, rfl⟩
    | error e =>
      rw [hstart] at h
      cases h
  obtain ⟨task, hstart⟩ := hstartable
  obtain ⟨htask, -, worker, hworker, hidle⟩ := startable_eq_ok.1 hstart
  refine ⟨task, _, _, htask, WorkerRegistry.markBusy_of_idle hworker hidle task now,
    TaskRegistry.markStarted_of_get? queue htask, ?_⟩
  dsimp only [perform]
  rw [attempts_startOn, hstart]
  refine ⟨rfl, ?_⟩
  rw [← isOk_publishWithin outlet s.publishTimeoutMillis]
  -- what is left is one publication, and both of its ends
  rcases hpublish : Outlet.publishWithin outlet s.publishTimeoutMillis queue (s.dispatchMessage task) with
    ⟨e | _, outlet'⟩
  · simp only [startOn, hstart, hpublish]
    exact ⟨⟨nofun, nofun⟩, nofun⟩
  · simp only [startOn, hstart, hpublish, commitStart_eq now htask hworker hidle]
    refine ⟨⟨fun _ => rfl, fun _ => rfl⟩, fun _ => ⟨rfl, Table.get?_insert_self .., ?_⟩⟩
    exact WorkerRegistry.isHolding_iff.2 ⟨_, Table.get?_insert_self .., rfl, rfl⟩

/-- An operation that fails leaves both registries as they were, and one that is refused by its guard publishes nothing.
What passes its guard succeeds, except that a start has to have its message accepted; once that has happened, the task
is started on the worker and the worker is busy with it.  So a result fails for one reason only. -/
theorem committed_or_unchanged (s : DispatchState α) (op : Operation α σ) :
    (∀ e, (s.perform op).fault = some e → (s.perform op).state = s) ∧
    (∀ e, s.guardFault op = some e → (s.perform op).fault = some e ∧ (s.perform op).attempts = []) ∧
    (s.guardFault op = none →
      match op with
      | .startOn id queue outlet now =>
        ∃ task workers tasks, s.tasks.tasks.get? id = some task ∧
          s.workers.markBusy queue task now = (.ok (), workers) ∧ s.tasks.markStarted id queue = (.ok (), tasks) ∧
          let accepted := (Outlet.publish outlet queue (s.dispatchMessage task)).1.isAccepted
          (s.perform op).attempts = [⟨queue, s.dispatchMessage task, accepted⟩] ∧
          ((s.perform op).fault = none ↔ accepted = true) ∧
          (accepted = true → (s.perform op).state = { s with workers, tasks } ∧
            tasks.tasks.get? id = some (task.startedOn queue) ∧ workers.isHolding queue task.id = true)
      | _ => (s.perform op).fault = none) ∧
    (∀ id body redelivered outlet now, op = .processResponse id body redelivered outlet now →
      ∀ e, (s.perform op).fault = some e → e = .unknownCorrelation id ∧ (s.perform op).attempts = []) := by
  refine ⟨fun e h => s.state_perform_of_fault h, fun e h => s.perform_of_guardFault h, ?_, ?_⟩
  · intro hguard
    cases op with
    | startOn id queue outlet now => exact s.perform_startOn hguard
    | applyRegistration | addTask | processResponse | markBusy | markFree | markStarted | requeue | markForwardFailed =>
      exact (s.fault_perform nofun).trans hguard
  · rintro id body redelivered outlet now rfl e h
    have hguard : s.guardFault (.processResponse id body redelivered outlet now) = some e :=
      (s.fault_perform nofun).symm.trans h
    refine ⟨?_, (s.perform_of_guardFault hguard).2⟩
    simp only [guardFault] at hguard
    split at hguard
    · exact (Option.some.inj hguard).symm
    · cases hguard

end DispatchState

end SpeechDispatch
