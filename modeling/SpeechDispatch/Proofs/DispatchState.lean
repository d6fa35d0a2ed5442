import SpeechDispatch.DispatchState
import SpeechDispatch.Proofs.TaskRegistry
import SpeechDispatch.Proofs.WorkerRegistry

/-!
# What each operation on a dispatch does

One statement for each operation on the two registries, with all that can come of it.  Losing workers sets back the
tasks assigned to them (`get?_requeueHeld`), and a sweep is the exit of one silent worker after another
(`sweep_eq_foldl_exitWorker`).  A start either fails and changes nothing, or marks both sides (`startOn_cases`); a
result frees its worker and then ends the task or leaves it to wait (`processResponse_cases`).
-/

namespace SpeechDispatch.DispatchState

variable {α : Type}

/-- The worker is lost with the task under the id: it had the task, and the task is assigned to it. -/
def LostWith (id : String) (task : Task α) (worker : Worker) : Prop :=
  worker.currentTask = some id ∧ task.assignedTo = some worker.queue

instance (id : String) (task : Task α) : DecidablePred (LostWith id task) :=
  fun worker => inferInstanceAs (Decidable (worker.currentTask = some id ∧ task.assignedTo = some worker.queue))

/-! ### Workers that leave -/

private theorem requeueHeld_singleton (tasks : TaskRegistry α) (worker : Worker) :
    (∃ id task, tasks.tasks.get? id = some task ∧ LostWith id task worker ∧ requeueHeld tasks [worker] =
      ([id], { tasks with tasks := tasks.tasks.insert id task.setBack })) ∨
    ((∀ id task, tasks.tasks.get? id = some task → ¬ LostWith id task worker) ∧
      requeueHeld tasks [worker] = ([], tasks)) := by
  unfold requeueHeld
  cases hcurrent : worker.currentTask with
  | none => exact .inr ⟨fun id task _ hlost => by simp [LostWith, hcurrent] at hlost, rfl⟩
  | some id =>
    by_cases hassigned : tasks.isAssigned id worker.queue = true
    · obtain ⟨task, htask, hqueue⟩ := TaskRegistry.isAssigned_iff.1 hassigned
      simp only [hassigned, if_true, TaskRegistry.requeue_of_get? htask]
      exact .inl ⟨id, task, htask, ⟨hcurrent, hqueue⟩, rfl⟩
    · refine .inr ⟨fun other task htask hlost => hassigned ?_, ?_⟩
      · obtain rfl : id = other := Option.some.inj (hcurrent.symm.trans hlost.1)
        exact TaskRegistry.isAssigned_iff.2 ⟨task, htask, hlost.2⟩
      · simp only [hassigned]
        rfl

theorem requeueHeld_cons (tasks : TaskRegistry α) (worker : Worker) (rest : List Worker) :
    requeueHeld tasks (worker :: rest) =
      ((requeueHeld tasks [worker]).1 ++ (requeueHeld (requeueHeld tasks [worker]).2 rest).1,
        (requeueHeld (requeueHeld tasks [worker]).2 rest).2) := by
  cases hcurrent : worker.currentTask with
  | none => simp [requeueHeld, hcurrent]
  | some id =>
    by_cases hassigned : tasks.isAssigned id worker.queue = true
    · obtain ⟨task, htask, -⟩ := TaskRegistry.isAssigned_iff.1 hassigned
      simp [requeueHeld, hcurrent, hassigned, TaskRegistry.requeue_of_get? htask]
    · simp [requeueHeld, hcurrent, hassigned]

@[simp] theorem requeueHeld_ceiling (tasks : TaskRegistry α) (workers : List Worker) :
    (requeueHeld tasks workers).2.ceiling = tasks.ceiling := by
  induction workers generalizing tasks with
  | nil => rfl
  | cons worker rest ih =>
    rw [requeueHeld_cons, ih]
    rcases requeueHeld_singleton tasks worker with ⟨id, task, -, -, h⟩ | ⟨-, h⟩ <;> rw [h]

/-- A task assigned to one of the lost workers that had it is set back, once; all others are as they were. -/
theorem get?_requeueHeld (tasks : TaskRegistry α) (workers : List Worker) (id : String) :
    (requeueHeld tasks workers).2.tasks.get? id = (tasks.tasks.get? id).map fun task =>
      if ∃ worker ∈ workers, LostWith id task worker then task.setBack else task := by
  induction workers generalizing tasks with
  | nil => simp [requeueHeld]
  | cons worker rest ih =>
    rw [requeueHeld_cons, ih]
    rcases requeueHeld_singleton tasks worker with ⟨other, task, htask, hlost, h⟩ | ⟨hnone, h⟩
    · rw [h, Table.get?_insert]
      by_cases hid : id = other
      · subst hid
        -- once it is set back it is assigned to nobody, so no later worker takes it again
        have hback : ¬ ∃ worker ∈ rest, LostWith id task.setBack worker := by
          rintro ⟨w, -, hw⟩
          exact absurd hw.2 nofun
        have hthere : ∃ w ∈ worker :: rest, LostWith id task w := ⟨worker, List.mem_cons_self .., hlost⟩
        rw [if_pos rfl, htask, Option.map_some, Option.map_some, if_neg hback, if_pos hthere]
      · have hnot : ∀ t : Task α, ¬ LostWith id t worker := fun t ht =>
          hid (Option.some.inj (ht.1.symm.trans hlost.1))
        simp only [if_neg hid, List.mem_cons, exists_eq_or_imp, hnot, false_or]
    · rw [h]
      cases htask : tasks.tasks.get? id with
      | none => rfl
      | some task => simp only [Option.map_some, List.mem_cons, exists_eq_or_imp, hnone id task htask, false_or]

/-- The ids reported are those of the tasks that were set back. -/
theorem mem_requeueHeld {tasks : TaskRegistry α} {workers : List Worker} {id : String} :
    id ∈ (requeueHeld tasks workers).1 ↔
      ∃ task, tasks.tasks.get? id = some task ∧ ∃ worker ∈ workers, LostWith id task worker := by
  induction workers generalizing tasks with
  | nil => simp [requeueHeld]
  | cons worker rest ih =>
    rw [requeueHeld_cons, List.mem_append, ih, get?_requeueHeld]
    rcases requeueHeld_singleton tasks worker with ⟨other, task, htask, hlost, h⟩ | ⟨hnone, h⟩
    · rw [h, List.mem_singleton]
      by_cases hid : id = other
      · subst hid
        simp only [true_or, true_iff]
        exact ⟨task, htask, worker, List.mem_cons_self .., hlost⟩
      · have hnot : ∀ t : Task α, ¬ LostWith id t worker := fun t ht =>
          hid (Option.some.inj (ht.1.symm.trans hlost.1))
        simp [hid, hnot]
    · rw [h]
      cases htask : tasks.tasks.get? id with
      | none => simp
      | some task => simp [hnone id task htask]

/-- A task is set back once, whoever had it. -/
theorem nodup_requeueHeld (tasks : TaskRegistry α) (workers : List Worker) : (requeueHeld tasks workers).1.Nodup := by
  induction workers generalizing tasks with
  | nil => exact List.nodup_nil
  | cons worker rest ih =>
    rw [requeueHeld_cons]
    rcases requeueHeld_singleton tasks worker with ⟨id, task, -, -, h⟩ | ⟨-, h⟩
    · rw [h, List.singleton_append, List.nodup_cons]
      refine ⟨fun hmem => ?_, ih _⟩
      -- once it is set back it is assigned to nobody
      obtain ⟨again, hagain, w, -, hlost⟩ := mem_requeueHeld.1 hmem
      rw [Table.get?_insert_self] at hagain
      obtain rfl := Option.some.inj hagain
      exact absurd hlost.2 nofun
    · rw [h]
      exact ih _

theorem exitWorker_of_get? {s : DispatchState α} {queue : String} {worker : Worker}
    (h : s.workers.workers.get? queue = some worker) :
    s.exitWorker queue = (some (requeueHeld s.tasks [worker]).1,
      { s with
        workers := { s.workers with workers := s.workers.workers.erase queue }
        tasks := (requeueHeld s.tasks [worker]).2 }) := by
  simp only [exitWorker, WorkerRegistry.exit, h]

theorem exitWorker_of_get?_eq_none {s : DispatchState α} {queue : String}
    (h : s.workers.workers.get? queue = none) : s.exitWorker queue = (none, s) := by
  simp only [exitWorker, WorkerRegistry.exit, h]

/-- The exit of a worker sets back the task with which it is lost. -/
theorem exitWorker_of_lostWith {s : DispatchState α} {queue id : String} {worker : Worker} {task : Task α}
    (hworker : s.workers.workers.get? queue = some worker) (htask : s.tasks.tasks.get? id = some task)
    (hlost : LostWith id task worker) :
    s.exitWorker queue = (some [id],
      { s with
        workers := { s.workers with workers := s.workers.workers.erase queue }
        tasks := { s.tasks with tasks := s.tasks.tasks.insert id task.setBack } }) := by
  rw [exitWorker_of_get? hworker]
  rcases requeueHeld_singleton s.tasks worker with ⟨other, t, ht, hother, h⟩ | ⟨hnone, -⟩
  · obtain rfl : other = id := Option.some.inj (hother.1.symm.trans hlost.1)
    obtain rfl := Option.some.inj (htask.symm.trans ht)
    rw [h]
  · exact absurd hlost (hnone id task htask)

theorem get?_workers_exitWorker (s : DispatchState α) (queue name : String) :
    (s.exitWorker queue).2.workers.workers.get? name = if name = queue then none else s.workers.workers.get? name := by
  rw [← Table.get?_erase]
  cases h : s.workers.workers.get? queue with
  | none => rw [exitWorker_of_get?_eq_none h, Table.erase_of_get?_eq_none h]
  | some worker => rw [exitWorker_of_get? h]

/-- Whoever is busy after an exit is another worker, and was busy before. -/
theorem isHolding_exitWorker {s : DispatchState α} {queue name id : String} :
    (s.exitWorker queue).2.workers.isHolding name id = true ↔ name ≠ queue ∧ s.workers.isHolding name id = true := by
  rw [WorkerRegistry.isHolding_iff, WorkerRegistry.isHolding_iff, get?_workers_exitWorker]
  by_cases hname : name = queue
  · simp [hname]
  · simp [hname]

/-- The exit of a worker sets back the task that it had and that is assigned to it, and leaves every other. -/
theorem get?_tasks_exitWorker {s : DispatchState α} (hs : s.workers.Named) (queue id : String) :
    (s.exitWorker queue).2.tasks.tasks.get? id = (s.tasks.tasks.get? id).map fun task =>
      if task.assignedTo = some queue ∧ (s.workers.workers.get? queue).any (·.holds id) = true then task.setBack
      else task := by
  cases hworker : s.workers.workers.get? queue with
  | none =>
    rw [exitWorker_of_get?_eq_none hworker]
    simp
  | some worker =>
    rw [exitWorker_of_get? hworker]
    dsimp only
    rw [get?_requeueHeld]
    have hlost : ∀ task : Task α, (∃ w ∈ [worker], LostWith id task w) ↔
        task.assignedTo = some queue ∧ (some worker).any (·.holds id) = true := by
      intro task
      simp only [List.mem_singleton, exists_eq_left, LostWith, hs hworker, Option.any_some, Worker.holds, beq_iff_eq]
      exact and_comm
    simp only [hlost]

/-- A task is as it was after an exit, or was assigned to the worker and is set back. -/
theorem exists_of_get?_tasks_exitWorker {s : DispatchState α} (hs : s.workers.Named) {queue id : String}
    {task : Task α} (h : (s.exitWorker queue).2.tasks.tasks.get? id = some task) :
    ∃ old, s.tasks.tasks.get? id = some old ∧
      ((task = old.setBack ∧ old.assignedTo = some queue) ∨
        (task = old ∧ ¬ (old.assignedTo = some queue ∧ s.workers.isHolding queue id = true))) := by
  rw [get?_tasks_exitWorker hs] at h
  obtain ⟨old, hold, rfl⟩ := Option.map_eq_some_iff.1 h
  refine ⟨old, hold, ?_⟩
  split
  · rename_i hlost
    exact .inl ⟨rfl, hlost.1⟩
  · rename_i hnot
    refine .inr ⟨rfl, ?_⟩
    rintro ⟨hassigned, hholding⟩
    obtain ⟨worker, hworker, -, hcurrent⟩ := WorkerRegistry.isHolding_iff.1 hholding
    apply hnot
    rw [hworker, Option.any_some]
    exact ⟨hassigned, beq_iff_eq.2 hcurrent⟩

theorem applyRegistration_of_ne_exit {message : Registration} (hkind : message.kind ≠ .exit) (s : DispatchState α)
    (now : Instant) :
    s.applyRegistration message now =
      match message.sentAt with
      | .error e => (.error e, s)
      | .ok beatAt => (.ok ((s.workers.registerBeat message.queue beatAt now).1 != .stale),
          { s with workers := (s.workers.registerBeat message.queue beatAt now).2 }) := by
  unfold applyRegistration
  cases h : message.kind with
  | exit => exact absurd h hkind
  | register | beat => rfl

/-- A registration message is not taken and changes nothing, or it is a beat, or the exit of a worker that is there. -/
theorem applyRegistration_cases (s : DispatchState α) (message : Registration) (now : Instant) :
    (∃ answer, answer ≠ .ok true ∧ s.applyRegistration message now = (answer, s)) ∨
    (∃ beatAt, message.kind ≠ .exit ∧ message.sentAt = .ok beatAt ∧ s.applyRegistration message now =
      (.ok true, { s with workers := (s.workers.registerBeat message.queue beatAt now).2 })) ∨
    (∃ worker, message.kind = .exit ∧ s.workers.workers.get? message.queue = some worker ∧
      s.applyRegistration message now = (.ok true, (s.exitWorker message.queue).2)) := by
  unfold applyRegistration
  cases hkind : message.kind with
  | exit =>
    cases hworker : s.workers.workers.get? message.queue with
    | none => exact .inl ⟨.ok false, nofun, by simp only [exitWorker_of_get?_eq_none hworker]; rfl⟩
    | some worker => exact .inr (.inr ⟨worker, rfl, rfl, by simp only [exitWorker_of_get? hworker]; rfl⟩)
  | register | beat =>
    cases hsent : message.sentAt with
    | error e => exact .inl ⟨.error e, nofun, rfl⟩
    | ok beatAt =>
      dsimp only
      by_cases hstale : Instant.seconds s.workers.staleAfter < now - beatAt
      · refine .inl ⟨.ok false, nofun, ?_⟩
        simp only [WorkerRegistry.registerBeat, if_pos hstale]
        rfl
      · refine .inr (.inl ⟨beatAt, nofun, rfl, ?_⟩)
        simp only [WorkerRegistry.registerBeat, if_neg hstale]
        cases s.workers.workers.get? message.queue <;> rfl

/-- Taking workers out and setting back what they had is letting them leave one after another. -/
private theorem foldl_exitWorker (s : DispatchState α) (queues : List String) :
    queues.foldl (fun s queue => (s.exitWorker queue).2) s =
      { s with
        workers := { s.workers with workers := (s.workers.workers.takeAll queues).2 }
        tasks := (requeueHeld s.tasks (s.workers.workers.takeAll queues).1).2 } := by
  induction queues generalizing s with
  | nil => rfl
  | cons queue rest ih =>
    rw [List.foldl_cons, ih, Table.takeAll_cons]
    cases h : s.workers.workers.get? queue with
    | none =>
      rw [exitWorker_of_get?_eq_none h, Table.erase_of_get?_eq_none h]
      rfl
    | some worker =>
      rw [exitWorker_of_get? h, Option.toList_some, List.singleton_append,
        requeueHeld_cons s.tasks worker ((s.workers.workers.erase queue).takeAll rest).1]

theorem get?_workers_sweep (s : DispatchState α) (now : Instant) (threshold : Int) (queue : String) :
    (s.sweep now threshold).2.workers.workers.get? queue =
      if queue ∈ s.workers.silentQueues now threshold then none else s.workers.workers.get? queue :=
  Table.get?_takeAll ..

/-- A sweep that removes no worker changes nothing. -/
theorem sweep_of_removed_eq_nil {s : DispatchState α} {now : Instant} {threshold : Int}
    (h : (s.sweep now threshold).1.removed = []) : s.sweep now threshold = ({}, s) := by
  have hnone : (s.workers.workers.takeAll (s.workers.silentQueues now threshold)).1 = [] := List.map_eq_nil_iff.1 h
  have hsame := Table.takeAll_of_fst_eq_nil hnone
  unfold WorkerRegistry.silentQueues at hnone hsame
  simp only [sweep, WorkerRegistry.sweep, hnone, hsame]
  rfl

/-- A sweep does not touch the tasks of a worker that stays. -/
theorem get?_tasks_sweep_of_assignedTo {s : DispatchState α} (hs : s.workers.Named) {now : Instant} {threshold : Int}
    {queue : String} (hstays : queue ∉ s.workers.silentQueues now threshold) {id : String} {task : Task α}
    (hassigned : task.assignedTo = some queue) :
    (s.sweep now threshold).2.tasks.tasks.get? id = some task ↔ s.tasks.tasks.get? id = some task := by
  change (requeueHeld s.tasks
    (s.workers.workers.takeAll (s.workers.silentQueues now threshold)).1).2.tasks.get? id = _ ↔ _
  rw [get?_requeueHeld, Option.map_eq_some_iff]
  constructor
  · rintro ⟨old, hold, rfl⟩
    split at hassigned
    · cases hassigned
    · rename_i hnot
      rw [if_neg hnot]
      exact hold
  · intro htask
    refine ⟨task, htask, if_neg ?_⟩
    rintro ⟨worker, hmem, -, hqueue⟩
    obtain ⟨name, hsilent, hname⟩ := Table.mem_takeAll.1 hmem
    obtain rfl : queue = name := by
      rw [hs hname] at hqueue
      exact Option.some.inj (hassigned.symm.trans hqueue)
    exact hstays hsilent

/-- A sweep sets back the task with which a silent worker is lost. -/
theorem sweep_of_lostWith {s : DispatchState α} (hs : s.workers.Named) {queue id : String} {worker : Worker}
    {task : Task α} (hworker : s.workers.workers.get? queue = some worker) (htask : s.tasks.tasks.get? id = some task)
    (hlost : LostWith id task worker) {now : Instant} {threshold : Int}
    (hsilent : worker.isSilentFor now threshold = true) :
    id ∈ (s.sweep now threshold).1.requeued ∧
      (s.sweep now threshold).2.tasks.tasks.get? id = some task.setBack := by
  have htaken : worker ∈ (s.workers.workers.takeAll (s.workers.silentQueues now threshold)).1 :=
    Table.mem_takeAll.2 ⟨queue, (WorkerRegistry.mem_silentQueues hs).2 ⟨worker, hworker, hsilent⟩, hworker⟩
  constructor
  · exact mem_requeueHeld.2 ⟨task, htask, worker, htaken, hlost⟩
  · change (requeueHeld s.tasks
      (s.workers.workers.takeAll (s.workers.silentQueues now threshold)).1).2.tasks.get? id = _
    rw [get?_requeueHeld, htask, Option.map_some, if_pos ⟨worker, htaken, hlost⟩]

/-- A sweep is the exit of every silent worker in turn. -/
theorem sweep_eq_foldl_exitWorker (s : DispatchState α) (now : Instant) (threshold : Int) :
    (s.sweep now threshold).2 =
      (s.workers.silentQueues now threshold).foldl (fun s queue => (s.exitWorker queue).2) s := by
  rw [foldl_exitWorker]
  rfl

/-! ### Tasks that come and go -/

/-- The state without the task under the id. -/
def forget (s : DispatchState α) (id : String) : DispatchState α := { s with tasks := (s.tasks.remove id).2 }

/-- The state with another task under the id. -/
def putTask (s : DispatchState α) (id : String) (task : Task α) : DispatchState α :=
  { s with tasks := { s.tasks with tasks := s.tasks.tasks.insert id task } }

theorem get?_putTask (s : DispatchState α) (id other : String) (task : Task α) :
    (s.putTask id task).tasks.tasks.get? other = if other = id then some task else s.tasks.tasks.get? other :=
  Table.get?_insert ..

theorem get?_forget (s : DispatchState α) (id other : String) :
    (s.forget id).tasks.tasks.get? other = if other = id then none else s.tasks.tasks.get? other :=
  Table.get?_erase ..

/-- Putting a task in place of another is putting it where none is. -/
theorem putTask_forget (s : DispatchState α) (id : String) (task : Task α) :
    (s.forget id).putTask id task = s.putTask id task := by
  have htable : (s.tasks.tasks.erase id).insert id task = s.tasks.tasks.insert id task := by
    apply Table.ext_get?
    intro other
    rw [Table.get?_insert, Table.get?_insert, Table.get?_erase]
    split <;> rfl
  change { s with tasks := { s.tasks with tasks := (s.tasks.tasks.erase id).insert id task } } = _
  rw [htable]
  rfl

theorem isAssigned_putTask {s : DispatchState α} {id other queue : String} {task : Task α} :
    (s.putTask id task).tasks.isAssigned other queue = true ↔
      if other = id then task.assignedTo = some queue else s.tasks.isAssigned other queue = true := by
  rw [TaskRegistry.isAssigned_iff, get?_putTask]
  split
  · simp
  · exact TaskRegistry.isAssigned_iff.symm

theorem isAssigned_forget {s : DispatchState α} {id other queue : String} :
    (s.forget id).tasks.isAssigned other queue = true ↔ other ≠ id ∧ s.tasks.isAssigned other queue = true := by
  rw [TaskRegistry.isAssigned_iff, get?_forget, TaskRegistry.isAssigned_iff]
  split
  · rename_i hid
    simp [hid]
  · rename_i hid
    simp [hid]

/-- What is assigned to a worker stays so when another leaves. -/
theorem isAssigned_exitWorker_of_ne {s : DispatchState α} (hs : s.workers.Named) {queue name id : String}
    (hne : name ≠ queue) : (s.exitWorker queue).2.tasks.isAssigned id name = s.tasks.isAssigned id name := by
  rw [Bool.eq_iff_iff, TaskRegistry.isAssigned_iff, TaskRegistry.isAssigned_iff, get?_tasks_exitWorker hs]
  cases s.tasks.tasks.get? id with
  | none => simp
  | some task =>
    simp only [Option.map_some, Option.some.injEq, exists_eq_left']
    split
    · rename_i hlost
      rw [hlost.1]
      refine ⟨nofun, fun h => ?_⟩
      exact absurd (Option.some.inj h).symm hne
    · exact Iff.rfl

@[simp] theorem releaseWorkerOf_tasks (s : DispatchState α) (task : Task α) (id : String) (now : Instant) :
    (s.releaseWorkerOf task id now).tasks = s.tasks := by
  unfold releaseWorkerOf
  cases task.assignedTo <;> rfl

/-- A release frees the worker to which the task is assigned, if it holds it, and touches no other. -/
theorem get?_releaseWorkerOf (s : DispatchState α) (task : Task α) (id queue : String) (now : Instant) :
    (s.releaseWorkerOf task id now).workers.workers.get? queue =
      if task.assignedTo = some queue ∧ s.workers.isHolding queue id = true then
        (s.workers.workers.get? queue).map (·.freed now)
      else s.workers.workers.get? queue := by
  unfold releaseWorkerOf
  cases task.assignedTo with
  | none => simp
  | some other =>
    dsimp only
    rw [WorkerRegistry.get?_releaseIfHolding]
    by_cases hqueue : queue = other
    · subst hqueue
      simp
    · have hother : ¬ other = queue := fun h => hqueue h.symm
      simp [hqueue, hother]

/-- Only the worker to which the task is assigned is released, and only if it holds it. -/
theorem get?_releaseWorkerOf_of_some {s : DispatchState α} {task : Task α} {id queue : String} {now : Instant}
    {worker : Worker} (h : s.workers.workers.get? queue = some worker)
    (hnot : task.assignedTo = some queue → worker.currentTask ≠ some id) :
    (s.releaseWorkerOf task id now).workers.workers.get? queue = some worker := by
  unfold releaseWorkerOf
  cases hassigned : task.assignedTo with
  | none => exact h
  | some other =>
    change (s.workers.releaseIfHolding other id now).2.workers.get? queue = some worker
    by_cases hqueue : queue = other
    · exact WorkerRegistry.get?_releaseIfHolding_of_some h (hnot (hqueue ▸ hassigned))
    · rw [WorkerRegistry.get?_releaseIfHolding_of_ne _ _ _ hqueue, h]

/-- Workers that are busy after a release are those that were busy before, less the one released. -/
theorem get?_of_busy_releaseWorkerOf {s : DispatchState α} {task : Task α} {id queue : String} {now : Instant}
    {worker : Worker} (h : (s.releaseWorkerOf task id now).workers.workers.get? queue = some worker)
    (hbusy : worker.busy = true) :
    s.workers.workers.get? queue = some worker ∧
      (task.assignedTo = some queue → worker.currentTask ≠ some id) := by
  unfold releaseWorkerOf at h
  cases hassigned : task.assignedTo with
  | none =>
    rw [hassigned] at h
    exact ⟨h, nofun⟩
  | some other =>
    rw [hassigned] at h
    obtain ⟨hworker, hnot⟩ := WorkerRegistry.get?_of_busy_releaseIfHolding h hbusy
    refine ⟨hworker, fun hqueue htask => hnot ⟨?_, htask⟩⟩
    exact (Option.some.inj hqueue).symm

/-- A release takes the task from the worker to which it is assigned, and nothing from any other. -/
theorem isHolding_releaseWorkerOf {s : DispatchState α} {task : Task α} {id queue other : String} {now : Instant} :
    (s.releaseWorkerOf task id now).workers.isHolding queue other = true ↔
      s.workers.isHolding queue other = true ∧ ¬ (task.assignedTo = some queue ∧ other = id) := by
  rw [WorkerRegistry.isHolding_iff, WorkerRegistry.isHolding_iff]
  constructor
  · rintro ⟨worker, hworker, hbusy, hcurrent⟩
    obtain ⟨hbefore, hnot⟩ := get?_of_busy_releaseWorkerOf hworker hbusy
    refine ⟨⟨worker, hbefore, hbusy, hcurrent⟩, ?_⟩
    rintro ⟨hassigned, rfl⟩
    exact hnot hassigned hcurrent
  · rintro ⟨⟨worker, hworker, hbusy, hcurrent⟩, hnot⟩
    refine ⟨worker, get?_releaseWorkerOf_of_some hworker ?_, hbusy, hcurrent⟩
    intro hassigned hid
    exact hnot ⟨hassigned, Option.some.inj (hcurrent.symm.trans hid)⟩

/-- A worker that holds the task assigned to it is freed by a release. -/
theorem get?_releaseWorkerOf_of_isHolding {s : DispatchState α} {task : Task α} {id queue : String} {worker : Worker}
    (hworker : s.workers.workers.get? queue = some worker) (hassigned : task.assignedTo = some queue)
    (hholding : s.workers.isHolding queue id = true) (now : Instant) :
    (s.releaseWorkerOf task id now).workers.workers.get? queue = some (worker.freed now) := by
  unfold releaseWorkerOf
  rw [hassigned]
  change (s.workers.releaseIfHolding queue id now).2.workers.get? queue = _
  rw [WorkerRegistry.get?_releaseIfHolding, if_pos ⟨rfl, hholding⟩, hworker]
  rfl

/-- Whoever is registered after a release was registered before, under the same name. -/
theorem exists_of_get?_releaseWorkerOf {s : DispatchState α} {task : Task α} {id queue : String} {now : Instant}
    {worker : Worker} (h : (s.releaseWorkerOf task id now).workers.workers.get? queue = some worker) :
    ∃ old, s.workers.workers.get? queue = some old ∧ worker.queue = old.queue := by
  unfold releaseWorkerOf at h
  cases hassigned : task.assignedTo with
  | none =>
    rw [hassigned] at h
    exact ⟨worker, h, rfl⟩
  | some other =>
    rw [hassigned] at h
    change (s.workers.releaseIfHolding other id now).2.workers.get? queue = some worker at h
    rw [WorkerRegistry.get?_releaseIfHolding] at h
    split at h
    · rename_i hqueue
      obtain ⟨old, hold, rfl⟩ := Option.map_eq_some_iff.1 h
      exact ⟨old, hqueue.1 ▸ hold, rfl⟩
    · exact ⟨worker, h, rfl⟩

/-- A task taken in stands under its id, and the worker of the one it replaces is released. -/
theorem addTask_cases (s : DispatchState α) (task : Task α) (now : Instant) :
    (∃ e, (s.tasks.add task).1 = .error e ∧ s.addTask task now = (.error e, s)) ∨
    ((s.tasks.add task).1 = .ok none ∧ s.tasks.tasks.get? task.id = none ∧
      s.addTask task now = (.ok (), s.putTask task.id task)) ∨
    (∃ old, (s.tasks.add task).1 = .ok (some old) ∧ s.tasks.tasks.get? task.id = some old ∧
      s.addTask task now = (.ok (), (s.releaseWorkerOf old old.id now).putTask task.id task)) := by
  unfold addTask
  rcases s.tasks.add_cases task with ⟨e, hadd⟩ | hadd
  · exact .inl ⟨e, by rw [hadd], by rw [hadd]⟩
  · rw [hadd]
    cases s.tasks.tasks.get? task.id with
    | none => exact .inr (.inl ⟨rfl, rfl, rfl⟩)
    | some old =>
      refine .inr (.inr ⟨old, rfl, rfl, ?_⟩)
      dsimp only [releaseWorkerOf]
      cases old.assignedTo <;> rfl

/-- A task that its registry refuses is not taken in, and nothing is changed. -/
theorem addTask_of_error {s : DispatchState α} {task : Task α} {e : DispatchError}
    (h : (s.tasks.add task).1 = .error e) (now : Instant) : s.addTask task now = (.error e, s) := by
  rcases s.addTask_cases task now with ⟨e', hadd, heq⟩ | ⟨hadd, -⟩ | ⟨old, hadd, -⟩
  · obtain rfl : e' = e := Except.error.inj (hadd.symm.trans h)
    exact heq
  · cases hadd.symm.trans h
  · cases hadd.symm.trans h

/-- The state in which a worker has started on a task. -/
def bound [Quantity α] (s : DispatchState α) (task : Task α) (worker : Worker) (id queue : String) (now : Instant) :
    DispatchState α :=
  { s.putTask id (task.startedOn queue) with
    workers := { s.workers with workers := s.workers.workers.insert queue (worker.turnedTo task now) } }

/-- The worker that starts holds the task it starts on; what the others hold is unchanged. -/
theorem isHolding_bound [Quantity α] {s : DispatchState α} {task : Task α} {worker : Worker} {id queue : String}
    {now : Instant} {name other : String} :
    (s.bound task worker id queue now).workers.isHolding name other = true ↔
      if name = queue then other = task.id else s.workers.isHolding name other = true := by
  have hget : (s.bound task worker id queue now).workers.workers.get? name =
      if name = queue then some (worker.turnedTo task now) else s.workers.workers.get? name :=
    Table.get?_insert ..
  rw [WorkerRegistry.isHolding_iff, hget]
  split
  · constructor
    · rintro ⟨w, hw, -, hcurrent⟩
      obtain rfl := Option.some.inj hw
      exact (Option.some.inj hcurrent).symm
    · rintro rfl
      exact ⟨_, rfl, rfl, rfl⟩
  · exact WorkerRegistry.isHolding_iff.symm

theorem startable_eq_ok {s : DispatchState α} {id queue : String} {task : Task α} :
    s.startable id queue = .ok task ↔
      s.tasks.tasks.get? id = some task ∧ task.started = false ∧
        ∃ worker, s.workers.workers.get? queue = some worker ∧ worker.busy = false := by
  unfold startable TaskRegistry.get?
  cases s.tasks.tasks.get? id with
  | none => simp
  | some found =>
    by_cases hstarted : found.started = true
    · simp only [hstarted, if_true]
      refine ⟨nofun, ?_⟩
      rintro ⟨heq, hnot, -⟩
      obtain rfl := Option.some.inj heq
      exact absurd (hstarted.symm.trans hnot) nofun
    · cases s.workers.workers.get? queue with
      | none => simp [hstarted]
      | some worker =>
        by_cases hbusy : worker.busy = true
        · simp [hstarted, hbusy]
        · simp only [hstarted, hbusy, Option.some.injEq, exists_eq_left', and_true, Bool.false_eq_true, if_false,
            Except.ok.injEq]
          refine ⟨fun h => ⟨h, ?_⟩, fun h => h.1⟩
          exact h ▸ Bool.eq_false_iff.2 hstarted

/-- What could be started is started: marking both sides does not fail. -/
theorem commitStart_eq [Quantity α] {s : DispatchState α} {id queue : String} {task : Task α} {worker : Worker}
    (now : Instant) (htask : s.tasks.tasks.get? id = some task)
    (hworker : s.workers.workers.get? queue = some worker) (hidle : worker.busy = false) :
    s.commitStart task id queue now = (.ok (), s.bound task worker id queue now) := by
  simp only [commitStart, WorkerRegistry.markBusy_of_idle hworker hidle,
    TaskRegistry.markStarted_of_get? queue htask]
  rfl

variable {σ : Type} [Outlet σ]

/-- A start fails and changes nothing, or its message was accepted and both sides are marked. -/
theorem startOn_cases [Quantity α] (s : DispatchState α) (id queue : String) (outlet : σ) (now : Instant) :
    (∃ e, s.startable id queue = .error e ∧ s.startOn id queue outlet now = (.error e, s, outlet)) ∨
    (∃ task e outlet', s.startable id queue = .ok task ∧
      Outlet.publishWithin outlet s.publishTimeoutMillis queue (s.dispatchMessage task) = (.error e, outlet') ∧
      s.startOn id queue outlet now = (.error e, s, outlet')) ∨
    (∃ task worker outlet', s.tasks.tasks.get? id = some task ∧ task.started = false ∧
      s.workers.workers.get? queue = some worker ∧ worker.busy = false ∧
      Outlet.publishWithin outlet s.publishTimeoutMillis queue (s.dispatchMessage task) = (.ok (), outlet') ∧
      s.startOn id queue outlet now = (.ok (), s.bound task worker id queue now, outlet')) := by
  unfold startOn
  cases hstart : s.startable id queue with
  | error e => exact .inl ⟨e, rfl, rfl⟩
  | ok task =>
    cases hpublish : Outlet.publishWithin outlet s.publishTimeoutMillis queue (s.dispatchMessage task) with
    | mk result outlet' =>
      cases result with
      | error e => exact .inr (.inl ⟨task, e, outlet', rfl, hpublish, by simp only [hpublish]⟩)
      | ok _ =>
        obtain ⟨htask, hstarted, worker, hworker, hidle⟩ := startable_eq_ok.1 hstart
        refine .inr (.inr ⟨task, worker, outlet', htask, hstarted, hworker, hidle, hpublish, ?_⟩)
        simp only [hpublish, commitStart_eq now htask hworker hidle]

/-- A result of an unknown task changes nothing.  Otherwise the worker is released; then the task is finished, given
up or left to wait, by what became of the result. -/
theorem processResponse_cases (s : DispatchState α) (id : String) (body : Bytes) (redelivered : Bool) (outlet : σ)
    (now : Instant) :
    (s.tasks.tasks.get? id = none ∧
      s.processResponse id body redelivered outlet now = (.error (.unknownCorrelation id), s, outlet)) ∨
    ∃ task, s.tasks.tasks.get? id = some task ∧
      (((s.forward task body outlet).1 = .ok () ∧
        s.processResponse id body redelivered outlet now =
          (.ok .ack, (s.releaseWorkerOf task id now).forget id, (s.forward task body outlet).2)) ∨
      ((s.forward task body outlet).1 ≠ .ok () ∧ redelivered = true ∧
        s.processResponse id body redelivered outlet now =
          (.ok (.nack false), (s.releaseWorkerOf task id now).forget id, (s.forward task body outlet).2)) ∨
      ((s.forward task body outlet).1 ≠ .ok () ∧ redelivered = false ∧
        s.processResponse id body redelivered outlet now =
          (.ok (.nack true), (s.releaseWorkerOf task id now).putTask id (task.unforwarded now),
            (s.forward task body outlet).2))) := by
  unfold processResponse TaskRegistry.get?
  cases htask : s.tasks.tasks.get? id with
  | none => exact .inl ⟨rfl, rfl⟩
  | some task =>
    refine .inr ⟨task, rfl, ?_⟩
    -- the release leaves the task where it is, so the mark finds it
    have hrelease : (s.releaseWorkerOf task id now).tasks.tasks.get? id = some task := by
      rw [releaseWorkerOf_tasks, htask]
    dsimp only
    cases hforward : s.forward task body outlet with
    | mk result outlet' =>
      cases result with
      | ok _ => exact .inl ⟨rfl, rfl⟩
      | error e =>
        cases redelivered with
        | true => exact .inr (.inl ⟨nofun, rfl, rfl⟩)
        | false =>
          refine .inr (.inr ⟨nofun, rfl, ?_⟩)
          simp only [Bool.false_eq_true, if_false, TaskRegistry.markForwardFailed_of_get? now hrelease]
          rfl

/-- A result touches the workers only as the release of the task does. -/
theorem workers_processResponse {s : DispatchState α} {id : String} {task : Task α}
    (htask : s.tasks.tasks.get? id = some task) (body : Bytes) (redelivered : Bool) (outlet : σ) (now : Instant) :
    (s.processResponse id body redelivered outlet now).1 ≠ .error (.unknownCorrelation id) ∧
      (s.processResponse id body redelivered outlet now).2.1.workers = (s.releaseWorkerOf task id now).workers := by
  rcases s.processResponse_cases id body redelivered outlet now with
    ⟨hnone, -⟩ | ⟨other, hother, ⟨-, h⟩ | ⟨-, -, h⟩ | ⟨-, -, h⟩⟩
  · rw [htask] at hnone
    cases hnone
  all_goals
    obtain rfl := Option.some.inj (htask.symm.trans hother)
    rw [h]
    exact ⟨nofun, rfl⟩

/-! ### Evictions -/

theorem evictExhausted_of_eq_nil {s : DispatchState α} (h : s.evictExhausted.1 = []) : s.evictExhausted = ([], s) := by
  have hsame : s.evictExhausted.2.tasks.tasks = s.tasks.tasks := Table.takeAll_of_fst_eq_nil h
  refine Prod.ext h ?_
  change { s with tasks := { s.tasks with tasks := s.evictExhausted.2.tasks.tasks } } = s
  rw [hsame]

theorem evictUnredelivered_of_eq_nil {s : DispatchState α} {now : Instant} {threshold : Int}
    (h : (s.evictUnredelivered now threshold).1 = []) : s.evictUnredelivered now threshold = ([], s) := by
  have hsame : (s.evictUnredelivered now threshold).2.tasks.tasks = s.tasks.tasks := Table.takeAll_of_fst_eq_nil h
  refine Prod.ext h ?_
  change { s with tasks := { s.tasks with tasks := (s.evictUnredelivered now threshold).2.tasks.tasks } } = s
  rw [hsame]

theorem get?_evictExhausted (s : DispatchState α) (id : String) :
    s.evictExhausted.2.tasks.tasks.get? id = if id ∈ s.tasks.exhausted then none else s.tasks.tasks.get? id :=
  Table.get?_takeAll ..

theorem get?_evictUnredelivered (s : DispatchState α) (now : Instant) (threshold : Int) (id : String) :
    (s.evictUnredelivered now threshold).2.tasks.tasks.get? id =
      if id ∈ s.tasks.unredelivered now threshold then none else s.tasks.tasks.get? id :=
  Table.get?_takeAll ..

end SpeechDispatch.DispatchState
