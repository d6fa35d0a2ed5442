import SpeechDispatch.Proofs.DetectionRound
import SpeechDispatch.Proofs.RegistryRun

/-!
# The form of the registries

What can be relied on after any calls, whatever their arguments are and whether they are refused: every entry stands
under the name that it has itself, a worker is busy if and only if it has a task (`WorkerRegistry.WellFormed`), and a
tracked task is complete (`TaskRegistry.WellFormed`).

So the names that are collected from entries lead back to these entries.  The operations that collect the names of what
they remove, and remove by name afterwards, divide the registry by their condition: they hand over what satisfies it,
and the rest stays (`WorkerRegistry.sweep_eq`, `DispatchState.evictExhausted_eq`).
-/

namespace SpeechDispatch

variable {α : Type}

/-! ### Workers -/

/-- A worker is busy if and only if it has a task. -/
def Worker.BusyWithTask (worker : Worker) : Prop := worker.busy = true ↔ worker.currentTask.isSome = true

/-- A call that leaves a worker leaves one that is busy if and only if it has a task. -/
theorem WorkerCall.busyWithTask_onEntry [Quantity α] {staleAfter : Int} {name : String} {call : WorkerCall α}
    {entry : Option Worker} (hentry : ∀ worker ∈ entry, worker.BusyWithTask) :
    ∀ worker ∈ call.onEntry staleAfter name entry, worker.BusyWithTask := by
  intro worker hworker
  rcases cases_of_onEntry hworker with ⟨old, _, hold, rfl⟩ | ⟨now, -, ⟨_, rfl⟩ | ⟨old, -, ⟨task, rfl⟩ | rfl⟩⟩
  · exact hentry old hold
  · exact iff_of_false Bool.false_ne_true Bool.false_ne_true
  · exact iff_of_true rfl rfl
  · exact iff_of_false Bool.false_ne_true Bool.false_ne_true

namespace WorkerRegistry

/-- What holds of every registry of workers. -/
structure WellFormed (r : WorkerRegistry) : Prop where
  named : r.Named
  busyWithTask : ∀ {queue worker}, r.workers.get? queue = some worker → worker.BusyWithTask

theorem wellFormed_empty (staleAfter : Int) : ({ staleAfter } : WorkerRegistry).WellFormed :=
  ⟨named_empty staleAfter, fun h => nomatch h⟩

section Calls

variable [Quantity α]

theorem wellFormed_after {r : WorkerRegistry} (hr : r.WellFormed) (call : WorkerCall α) :
    (r.after call).WellFormed := by
  refine ⟨named_after hr.named call, fun {queue worker} hworker => ?_⟩
  rw [get?_after hr.named] at hworker
  exact WorkerCall.busyWithTask_onEntry (fun _ hold => hr.busyWithTask hold) worker hworker

theorem wellFormed_run {r : WorkerRegistry} (hr : r.WellFormed) (calls : List (WorkerCall α)) :
    (r.run calls).WellFormed :=
  List.foldlRecOn (motive := WellFormed) calls after hr fun _ ih call _ => wellFormed_after ih call

/-! ### Lists of workers -/

theorem queues_snapshot {r : WorkerRegistry} (hr : r.Named) (now : Instant) :
    (r.snapshot now : List (WorkerView α)).map (·.queue) = r.workers.names := by
  rw [snapshot, List.map_map]
  exact Table.map_values_eq_names hr

/-- The queues of the idle workers are those that the snapshot shows as idle. -/
theorem idleQueues_eq_snapshot (r : WorkerRegistry) (now : Instant) :
    r.idleQueues = ((r.snapshot now : List (WorkerView α)).filter (!·.busy)).map (·.queue) := by
  rw [snapshot, List.filter_map, List.map_map]
  rfl

end Calls

theorem names_pairwise (r : WorkerRegistry) : r.workers.names.Pairwise (· < ·) := List.pairwise_map.2 r.workers.sorted

theorem pairwise_idleQueues {r : WorkerRegistry} (hr : r.Named) : r.idleQueues.Pairwise (· < ·) := by
  have hall : (r.workers.values.map (·.queue)).Pairwise (· < ·) := by
    rw [Table.map_values_eq_names hr]
    exact r.names_pairwise
  exact hall.sublist (List.filter_sublist.map _)

/-- A sweep divides the workers into those that are silent and those that are not. -/
theorem sweep_eq {r : WorkerRegistry} (hr : r.Named) (now : Instant) (threshold : Int) :
    r.sweep now threshold = (r.workers.values.filter (·.isSilentFor now threshold),
      { r with workers := r.workers.filter (!·.isSilentFor now threshold) }) := by
  have htaken : r.workers.takeAll ((r.workers.values.filter (·.isSilentFor now threshold)).map (·.queue)) =
      (r.workers.values.filter (·.isSilentFor now threshold), r.workers.filter (!·.isSilentFor now threshold)) :=
    Table.takeAll_map_filter hr _
  rw [sweep, htaken]

end WorkerRegistry

/-! ### Tasks -/

/-- A call that leaves a task leaves a complete one. -/
theorem TaskCall.isComplete_onEntry {id : String} {call : TaskCall α} {entry : Option (Task α)}
    (hentry : ∀ task ∈ entry, task.IsComplete) : ∀ task ∈ call.onEntry id entry, task.IsComplete := by
  intro task htask
  cases call with
  | add new =>
    simp only [onEntry] at htask
    split at htask
    · rename_i hnew
      obtain rfl := Option.some.inj htask
      exact hnew.2
    · exact hentry task htask
  | remove other =>
    simp only [onEntry] at htask
    split at htask
    · cases htask
    · exact hentry task htask
  | requeue | markStarted | markForwardFailed =>
    simp only [onEntry] at htask
    split at htask
    · obtain ⟨old, hold, rfl⟩ := Option.map_eq_some_iff.1 htask
      exact hentry old hold
    · exact hentry task htask

namespace TaskRegistry

/-- What holds of every registry of tasks. -/
structure WellFormed (r : TaskRegistry α) : Prop where
  named : r.Named
  isComplete : ∀ {id task}, r.tasks.get? id = some task → task.IsComplete

theorem wellFormed_empty (ceiling : Nat) : ({ ceiling } : TaskRegistry α).WellFormed :=
  ⟨named_empty ceiling, fun h => nomatch h⟩

theorem wellFormed_after {r : TaskRegistry α} (hr : r.WellFormed) (call : TaskCall α) : (r.after call).WellFormed := by
  refine ⟨named_after hr.named call, fun {id task} htask => ?_⟩
  rw [get?_after] at htask
  exact TaskCall.isComplete_onEntry (fun _ hold => hr.isComplete hold) task htask

theorem wellFormed_run {r : TaskRegistry α} (hr : r.WellFormed) (calls : List (TaskCall α)) :
    (r.run calls).WellFormed :=
  List.foldlRecOn (motive := WellFormed) calls after hr fun _ ih call _ => wellFormed_after ih call

/-- Ids that are collected in the order of the table are in order. -/
theorem sortIds_map_filter {r : TaskRegistry α} (hr : r.Named) (p : Task α → Bool) :
    sortIds ((r.tasks.values.filter p).map (·.id)) = (r.tasks.values.filter p).map (·.id) := by
  have hall : (r.tasks.values.map (·.id)).Pairwise (· < ·) := by
    rw [Table.map_values_eq_names hr]
    exact List.pairwise_map.2 r.tasks.sorted
  refine List.mergeSort_of_pairwise ((hall.sublist (List.filter_sublist.map _)).imp ?_)
  intro a b hlt
  exact decide_eq_true (String.not_lt.1 fun hgt => String.lt_irrefl a (String.lt_trans hlt hgt))

theorem exhausted_eq {r : TaskRegistry α} (hr : r.Named) :
    r.exhausted = (r.tasks.values.filter (·.isGivenUp r.ceiling)).map (·.id) :=
  sortIds_map_filter hr _

theorem unredelivered_eq {r : TaskRegistry α} (hr : r.Named) (now : Instant) (threshold : Int) :
    r.unredelivered now threshold = (r.tasks.values.filter (isUnredelivered now threshold)).map (·.id) :=
  sortIds_map_filter hr _

end TaskRegistry

/-! ### Evictions -/

namespace DispatchState

variable {s : DispatchState α}

/-- The eviction divides the tasks into those that failed too often and those that did not. -/
theorem evictExhausted_eq (hs : s.tasks.Named) :
    s.evictExhausted = (s.tasks.tasks.values.filter (·.isGivenUp s.tasks.ceiling),
      { s with tasks := { s.tasks with tasks := s.tasks.tasks.filter (!·.isGivenUp s.tasks.ceiling) } }) := by
  rw [evictExhausted, TaskRegistry.exhausted_eq hs, Table.takeAll_map_filter hs]

/-- The eviction divides the tasks into those whose results have waited too long and those whose have not. -/
theorem evictUnredelivered_eq (hs : s.tasks.Named) (now : Instant) (threshold : Int) :
    s.evictUnredelivered now threshold =
      (s.tasks.tasks.values.filter (TaskRegistry.isUnredelivered now threshold),
        { s with tasks := { s.tasks with
          tasks := s.tasks.tasks.filter (!TaskRegistry.isUnredelivered now threshold ·) } }) := by
  rw [evictUnredelivered, TaskRegistry.unredelivered_eq hs, Table.takeAll_map_filter hs]

end DispatchState

/-- After any calls of the two registries, in any order and whether they are refused or not, every entry stands under
its own name, a worker is busy if and only if it has a task, and every tracked task is complete.  The lists of workers
are in the order of their queues, and the idle ones are those that the snapshot shows as idle.  So what a sweep or an
eviction removes is exactly what its condition selects, each entry once and in order, and the rest stays as it is. -/
theorem wellFormed_of_calls [Quantity α] (staleAfter : Int) (ceiling : Nat)
    (calls : List (WorkerCall α ⊕ TaskCall α)) :
    let r := ({ staleAfter } : WorkerRegistry).run (calls.filterMap Sum.getLeft?)
    let t := ({ ceiling } : TaskRegistry α).run (calls.filterMap Sum.getRight?)
    (∀ queue worker, r.workers.get? queue = some worker →
      worker.queue = queue ∧ (worker.busy = true ↔ worker.currentTask.isSome = true)) ∧
    (∀ id task, t.tasks.get? id = some task →
      task.id = id ∧ isBlank task.id = false ∧ isBlank task.modelType = false ∧ task.origin.payload.isEmpty = false) ∧
    r.idleQueues.Pairwise (· < ·) ∧
    (∀ now, let views : List (WorkerView α) := r.snapshot now
      (views.map (·.queue)).Pairwise (· < ·) ∧ views.map (·.queue) = r.workers.names ∧
        r.idleQueues = (views.filter (!·.busy)).map (·.queue)) ∧
    (∀ now threshold, r.sweep now threshold = (r.workers.values.filter (·.isSilentFor now threshold),
      { r with workers := r.workers.filter (!·.isSilentFor now threshold) })) ∧
    (∀ s : DispatchState α, s.tasks = t →
      t.exhausted = (t.tasks.values.filter (·.isGivenUp ceiling)).map (·.id) ∧
      s.evictExhausted = (t.tasks.values.filter (·.isGivenUp ceiling),
        { s with tasks := { t with tasks := t.tasks.filter (!·.isGivenUp ceiling) } }) ∧
      ∀ now threshold,
        t.unredelivered now threshold =
          (t.tasks.values.filter (TaskRegistry.isUnredelivered now threshold)).map (·.id) ∧
        s.evictUnredelivered now threshold = (t.tasks.values.filter (TaskRegistry.isUnredelivered now threshold),
          { s with tasks := { t with tasks := t.tasks.filter (!TaskRegistry.isUnredelivered now threshold ·) } })) := by
  intro r t
  have hr : r.WellFormed := WorkerRegistry.wellFormed_run (WorkerRegistry.wellFormed_empty staleAfter) _
  have ht : t.WellFormed := TaskRegistry.wellFormed_run (TaskRegistry.wellFormed_empty ceiling) _
  have hceiling : t.ceiling = ceiling := TaskRegistry.ceiling_run _ _
  refine ⟨fun queue worker hworker => ⟨hr.named hworker, hr.busyWithTask hworker⟩,
    fun id task htask => ⟨ht.named htask, ht.isComplete htask⟩, WorkerRegistry.pairwise_idleQueues hr.named, ?_,
    WorkerRegistry.sweep_eq hr.named, ?_⟩
  · intro now views
    have hqueues : views.map (·.queue) = r.workers.names := WorkerRegistry.queues_snapshot hr.named now
    refine ⟨?_, hqueues, r.idleQueues_eq_snapshot now⟩
    rw [hqueues]
    exact r.names_pairwise
  · rintro s hs
    have hnamed : s.tasks.Named := hs ▸ ht.named
    rw [← hceiling, ← hs]
    refine ⟨TaskRegistry.exhausted_eq hnamed, DispatchState.evictExhausted_eq hnamed, fun now threshold => ⟨?_, ?_⟩⟩
    · exact TaskRegistry.unredelivered_eq hnamed now threshold
    · exact DispatchState.evictUnredelivered_eq hnamed now threshold

/-- A worker joins and is given a task, once and again, and another is freed that is not there; the task fails, and one
without an id is added. -/
def mixedCalls : List (WorkerCall Rat ⊕ TaskCall Rat) :=
  let task : Task Rat := Task.arrive "t" ⟨"model", 1 / 2, 3⟩ 10 0 ⟨Bytes.ofText "{}", none, none⟩
  [.inl (.registerBeat "w" 0 0), .inr (.add task), .inl (.markBusy "w" task 0), .inl (.markBusy "w" task 0),
    .inl (.markFree "v" 0), .inr (.requeue "t"), .inr (.add { task with id := " " })]

/-- The calls that are refused leave no trace: the worker is busy with its task, and with one loss allowed that task is
all that is given up. -/
theorem wellFormed_of_calls_mixedCalls :
    let r := ({ staleAfter := 30 } : WorkerRegistry).run (mixedCalls.filterMap Sum.getLeft?)
    let t := ({ ceiling := 1 } : TaskRegistry Rat).run (mixedCalls.filterMap Sum.getRight?)
    let s : DispatchState Rat := ⟨r, t, "results", 10000⟩
    (∃ worker, r.workers.get? "w" = some worker ∧ worker.currentTask = some "t" ∧ worker.queue = "w" ∧
      worker.busy = true) ∧
    (r.snapshot 0 : List (WorkerView Rat)).map (·.queue) = ["w"] ∧ r.idleQueues = [] ∧
    s.evictExhausted.1.map (·.id) = ["t"] ∧ s.evictExhausted.2.tasks.tasks.names = [] := by
  intro r t s
  obtain ⟨hworkers, -, -, hviews, -, hevict⟩ := wellFormed_of_calls 30 1 mixedCalls
  have hbusy : (r.workers.get? "w").map (·.currentTask) = some (some "t") := by decide +kernel
  obtain ⟨worker, hworker, hcurrent⟩ := Option.map_eq_some_iff.1 hbusy
  obtain ⟨hqueue, hholds⟩ := hworkers "w" worker hworker
  obtain ⟨-, hnames, hidle⟩ := hviews 0
  obtain ⟨-, hevicted, -⟩ := hevict s rfl
  refine ⟨⟨worker, hworker, hcurrent, hqueue, hholds.2 ?_⟩, hnames.trans (by decide +kernel),
    hidle.trans (by decide +kernel), ?_, ?_⟩
  · rw [hcurrent]
    rfl
  all_goals
    rw [hevicted]
    decide +kernel

end SpeechDispatch
