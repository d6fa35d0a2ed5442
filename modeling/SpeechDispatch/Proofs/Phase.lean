import SpeechDispatch.Proofs.EventMoves

/-!
# Every tracked task is accounted for

A tracked task waits in the snapshot, or is to be given up, or is with a worker that is busy with it, or has a result
that waits to be delivered again; and it is in one of these phases only.  No event leaves a task outside of them, and
from each of the last two something brings it on: the loss of the worker, and the next eviction.

The phases follow from an invariant about both registries (`DispatchState.Consistent`), which every move keeps.
-/

namespace SpeechDispatch

variable {α σ : Type}

namespace DispatchState

/-! ### The two registries agree -/

/-- Started tasks are assigned, and the workers to which tasks are assigned are busy with them, unless the results of
these tasks have come already. -/
structure Consistent (s : DispatchState α) : Prop where
  started_iff : ∀ {id task}, s.tasks.tasks.get? id = some task → (task.started = true ↔ task.assignedTo.isSome = true)
  isHolding : ∀ {id task queue}, s.tasks.tasks.get? id = some task → task.assignedTo = some queue →
    task.forwardFailedAt = none → s.workers.isHolding queue id = true

namespace Consistent

variable {s : DispatchState α}

theorem started_of_assignedTo (hs : s.Consistent) {id queue : String} {task : Task α}
    (htask : s.tasks.tasks.get? id = some task) (hassigned : task.assignedTo = some queue) : task.started = true := by
  rw [hs.started_iff htask, hassigned]
  rfl

theorem assignedTo_ne_some (hs : s.Consistent) {id : String} {task : Task α}
    (htask : s.tasks.tasks.get? id = some task) (hwaits : task.started = false) (queue : String) :
    task.assignedTo ≠ some queue := by
  intro hassigned
  have hstarted := hs.started_of_assignedTo htask hassigned
  exact absurd (hstarted.symm.trans hwaits) nofun

/-- The tasks of another state are those of this one, less some, and their workers are as busy as before. -/
private theorem of_subset {s' : DispatchState α} (hs : s.Consistent)
    (htasks : ∀ {id task}, s'.tasks.tasks.get? id = some task → s.tasks.tasks.get? id = some task ∧
      ∀ {queue}, s.workers.isHolding queue id = true → s'.workers.isHolding queue id = true) : s'.Consistent := by
  constructor
  · intro id task h
    exact hs.started_iff (htasks h).1
  · intro id task queue h hassigned hnot
    obtain ⟨hbefore, hkept⟩ := htasks h
    exact hkept (hs.isHolding hbefore hassigned hnot)

/-- A task put in is assigned if and only if it is started, and is held unless its result has come. -/
private theorem putTask (hs : s.Consistent) {id : String} {task : Task α}
    (hstarted : task.started = true ↔ task.assignedTo.isSome = true)
    (hholding : ∀ {queue}, task.assignedTo = some queue → task.forwardFailedAt = none →
      s.workers.isHolding queue id = true) : (s.putTask id task).Consistent := by
  constructor
  · intro other t h
    rw [get?_putTask] at h
    split at h
    · obtain rfl := Option.some.inj h
      exact hstarted
    · exact hs.started_iff h
  · intro other t queue h hassigned hnot
    rw [get?_putTask] at h
    split at h
    · rename_i hid
      obtain rfl := Option.some.inj h
      rw [hid]
      exact hholding hassigned hnot
    · exact hs.isHolding h hassigned hnot

private theorem forget (hs : s.Consistent) (id : String) : (s.forget id).Consistent := by
  refine hs.of_subset fun {other task} h => ?_
  rw [get?_forget] at h
  split at h
  · cases h
  · exact ⟨h, fun hholding => hholding⟩

/-- Once the worker of a task is released, the task may go or be replaced; the others keep theirs. -/
private theorem forget_releaseWorkerOf (hs : s.Consistent) (task : Task α) (id : String) (now : Instant) :
    ((s.releaseWorkerOf task id now).forget id).Consistent := by
  refine hs.of_subset fun {other t} h => ?_
  rw [get?_forget, releaseWorkerOf_tasks] at h
  split at h
  · cases h
  · rename_i hne
    refine ⟨h, fun {queue} hholding => ?_⟩
    exact isHolding_releaseWorkerOf.2 ⟨hholding, fun hc => hne hc.2⟩

private theorem exitWorker (hs : s.Consistent) (hnamed : s.Named) (queue : String) :
    (s.exitWorker queue).2.Consistent := by
  constructor
  · intro id task h
    obtain ⟨old, hold, ⟨rfl, -⟩ | ⟨rfl, -⟩⟩ := exists_of_get?_tasks_exitWorker hnamed.workers h
    · exact ⟨nofun, nofun⟩
    · exact hs.started_iff hold
  · intro id task name h hassigned hnot
    obtain ⟨old, hold, ⟨rfl, -⟩ | ⟨rfl, hkept⟩⟩ := exists_of_get?_tasks_exitWorker hnamed.workers h
    · cases hassigned
    · have hholding := hs.isHolding hold hassigned hnot
      refine isHolding_exitWorker.2 ⟨?_, hholding⟩
      rintro rfl
      exact hkept ⟨hassigned, hholding⟩

private theorem bound [Quantity α] (hs : s.Consistent) (hnamed : s.Named) {task : Task α} {worker : Worker}
    {id queue : String} (now : Instant) (htask : s.tasks.tasks.get? id = some task)
    (hworker : s.workers.workers.get? queue = some worker) (hidle : worker.busy = false) :
    (s.bound task worker id queue now).Consistent := by
  constructor
  · intro other t h
    change (s.putTask id (task.startedOn queue)).tasks.tasks.get? other = some t at h
    rw [get?_putTask] at h
    split at h
    · obtain rfl := Option.some.inj h
      exact ⟨fun _ => rfl, fun _ => rfl⟩
    · exact hs.started_iff h
  · intro other t name h hassigned hnot
    change (s.putTask id (task.startedOn queue)).tasks.tasks.get? other = some t at h
    rw [get?_putTask] at h
    rw [isHolding_bound]
    split at h
    · rename_i hid
      obtain rfl := Option.some.inj h
      obtain rfl : queue = name := Option.some.inj hassigned
      rw [if_pos rfl, hid, hnamed.tasks htask]
    · have hholding := hs.isHolding h hassigned hnot
      rw [if_neg]
      · exact hholding
      -- the worker that starts was idle, so it held nothing
      · rintro rfl
        exact WorkerRegistry.not_isHolding_of_idle hworker hidle other hholding

/-- Every move keeps the registries consistent. -/
theorem move [Quantity α] {onlyPending : Prop} {s' : DispatchState α} {act : Act α}
    (hnamed : s.Named) (h : Move onlyPending s act s') (hs : s.Consistent) : s'.Consistent := by
  cases h with
  | beat queue beatAt now =>
    refine hs.of_subset fun {id task} htask => ⟨htask, fun {queue} hholding => ?_⟩
    rw [WorkerRegistry.isHolding_registerBeat]
    exact hholding
  | leave queue => exact hs.exitWorker hnamed queue
  | @accept task hnew hfree =>
    refine hs.putTask ?_ fun hassigned => ?_
    · rw [hnew.started, hnew.assignedTo]
      exact ⟨nofun, nofun⟩
    · rw [hnew.assignedTo] at hassigned
      cases hassigned
  | @replace task old now hnew hold =>
    have hid : old.id = task.id := hnamed.tasks hold
    -- the old task goes with the release of its worker, then the new one comes
    rw [← putTask_forget, hid]
    refine (hs.forget_releaseWorkerOf old task.id now).putTask ?_ fun hassigned => ?_
    · rw [hnew.started, hnew.assignedTo]
      exact ⟨nofun, nofun⟩
    · rw [hnew.assignedTo] at hassigned
      cases hassigned
  | start now htask _ _ hworker hidle => exact hs.bound hnamed now htask hworker hidle
  | finish | drop => exact hs.forget_releaseWorkerOf _ _ _
  | @defer id task now htask =>
    -- the task loses its worker and is excused by the mark that it gets
    rw [← putTask_forget]
    have hstarted : task.started = true ↔ task.assignedTo.isSome = true := hs.started_iff htask
    refine (hs.forget_releaseWorkerOf task id now).putTask hstarted fun _ hnot => ?_
    cases hnot
  | giveUp | expire => exact hs.forget _

end Consistent

theorem consistent_start (staleAfter : Int) (ceiling : Nat) (responseQueue : String) (publishTimeoutMillis : Nat) :
    (start staleAfter ceiling responseQueue publishTimeoutMillis : DispatchState α).Consistent :=
  ⟨nofun, nofun⟩

/-! ### Phases -/

/-- What a tracked task waits for. -/
inductive Phase
  /-- It waits for a worker. -/
  | pending
  /-- It is to be given up. -/
  | exhausted
  /-- It is with a worker that is busy with it. -/
  | held
  /-- Its result came, could not be forwarded, and is to come again. -/
  | undelivered
  deriving DecidableEq

variable [Quantity α]

/-- A task is in a phase.  The pending ones are those that the snapshot lists, and it lists each once and under its
type. -/
def InPhase (s : DispatchState α) (task : Task α) : Phase → Prop
  | .pending => s.tasks.snapshot.listed.filter (·.2.id == task.id) = [(task.modelType, task.view)]
  | .exhausted => task.started = false ∧ task.id ∈ s.tasks.exhausted
  | .held => task.started = true ∧ task.forwardFailedAt = none ∧
      ∃ queue worker, task.assignedTo = some queue ∧ s.workers.workers.get? queue = some worker ∧
        worker.busy = true ∧ worker.currentTask = some task.id
  | .undelivered => task.started = true ∧ task.forwardFailedAt.isSome = true

theorem inPhase_pending_iff {s : DispatchState α} (hs : s.Named) {id : String} {task : Task α}
    (htask : s.tasks.tasks.get? id = some task) :
    s.InPhase task .pending ↔ task.started = false ∧ task.isExhausted s.tasks.ceiling = false := by
  change s.tasks.snapshot.listed.filter (·.2.id == task.id) = [(task.modelType, task.view)] ↔ _
  rw [hs.tasks htask, TaskRegistry.filter_listed_snapshot hs.tasks htask]
  have hpending : task.isPending s.tasks.ceiling = true ↔
      task.started = false ∧ task.isExhausted s.tasks.ceiling = false := by
    rw [Task.isPending, Bool.and_eq_true, Bool.not_eq_true', Bool.not_eq_true']
  rw [← hpending]
  split
  · rename_i h
    exact ⟨fun _ => h, fun _ => rfl⟩
  · rename_i h
    exact ⟨nofun, fun hp => absurd hp h⟩

theorem inPhase_exhausted_iff {s : DispatchState α} (hs : s.Named) {id : String} {task : Task α}
    (htask : s.tasks.tasks.get? id = some task) :
    s.InPhase task .exhausted ↔ task.started = false ∧ task.isExhausted s.tasks.ceiling = true := by
  change task.started = false ∧ task.id ∈ s.tasks.exhausted ↔ _
  rw [hs.tasks htask, TaskRegistry.mem_exhausted hs.tasks]
  constructor
  · rintro ⟨hwaits, other, hother, -, h⟩
    obtain rfl := Option.some.inj (htask.symm.trans hother)
    exact ⟨hwaits, h⟩
  · rintro ⟨hwaits, h⟩
    exact ⟨hwaits, task, htask, hwaits, h⟩

/-- A started task whose result has not come is with the worker to which it is assigned. -/
private theorem Consistent.inPhase_held {s : DispatchState α} (hs : s.Consistent) (hnamed : s.Named) {id : String}
    {task : Task α} (htask : s.tasks.tasks.get? id = some task) (hstarted : task.started = true)
    (hnot : task.forwardFailedAt = none) : s.InPhase task .held := by
  obtain ⟨queue, hassigned⟩ := Option.isSome_iff_exists.1 ((hs.started_iff htask).1 hstarted)
  have hholding := hs.isHolding htask hassigned hnot
  rw [← hnamed.tasks htask] at hholding
  obtain ⟨worker, hworker, hbusy, hcurrent⟩ := WorkerRegistry.isHolding_iff.1 hholding
  exact ⟨hstarted, hnot, queue, worker, hassigned, hworker, hbusy, hcurrent⟩

private theorem Consistent.existsUnique_phase {s : DispatchState α} (hs : s.Consistent) (hnamed : s.Named)
    {id : String} {task : Task α} (htask : s.tasks.tasks.get? id = some task) : ∃! phase, s.InPhase task phase := by
  have hpending := inPhase_pending_iff hnamed htask
  have hexhausted := inPhase_exhausted_iff hnamed htask
  cases hstarted : task.started with
  | false =>
    -- only the first two phases are open to it, and the number of its failures tells which
    cases hgiven : task.isExhausted s.tasks.ceiling with
    | false =>
      refine ⟨.pending, hpending.2 ⟨hstarted, hgiven⟩, fun phase h => ?_⟩
      cases phase with
      | pending => rfl
      | exhausted => exact absurd ((hexhausted.1 h).2.symm.trans hgiven) nofun
      | held => exact absurd (h.1.symm.trans hstarted) nofun
      | undelivered => exact absurd (h.1.symm.trans hstarted) nofun
    | true =>
      refine ⟨.exhausted, hexhausted.2 ⟨hstarted, hgiven⟩, fun phase h => ?_⟩
      cases phase with
      | pending => exact absurd ((hpending.1 h).2.symm.trans hgiven) nofun
      | exhausted => rfl
      | held => exact absurd (h.1.symm.trans hstarted) nofun
      | undelivered => exact absurd (h.1.symm.trans hstarted) nofun
  | true =>
    cases hfailed : task.forwardFailedAt with
    | none =>
      refine ⟨.held, hs.inPhase_held hnamed htask hstarted hfailed, fun phase h => ?_⟩
      cases phase with
      | pending => exact absurd ((hpending.1 h).1.symm.trans hstarted) nofun
      | exhausted => exact absurd (h.1.symm.trans hstarted) nofun
      | held => rfl
      | undelivered =>
        rw [InPhase, hfailed] at h
        exact absurd h.2 nofun
    | some failedAt =>
      refine ⟨.undelivered, ⟨hstarted, by rw [hfailed]; rfl⟩, fun phase h => ?_⟩
      cases phase with
      | pending => exact absurd ((hpending.1 h).1.symm.trans hstarted) nofun
      | exhausted => exact absurd (h.1.symm.trans hstarted) nofun
      | held => exact absurd (h.2.1.symm.trans hfailed) nofun
      | undelivered => rfl

/-! ### Tasks of a run -/

/-- All that is known of a tracked task: it is started if and only if it is assigned, it is in one phase, and from the
phases that end from outside it is brought on. -/
structure Accounted (s : DispatchState α) (task : Task α) : Prop where
  started_iff : task.started = true ↔ task.assignedTo.isSome = true
  phase : ∃! phase, s.InPhase task phase
  /-- The exit of the worker sets the task back. -/
  setBack_exit : s.InPhase task .held → ∀ {queue}, task.assignedTo = some queue →
    (s.exitWorker queue).1 = some [task.id] ∧
      (s.exitWorker queue).2.tasks.tasks.get? task.id = some task.setBack
  /-- A sweep for which the worker is silent sets the task back. -/
  setBack_sweep : s.InPhase task .held → ∀ {queue worker now threshold}, task.assignedTo = some queue →
    s.workers.workers.get? queue = some worker → worker.isSilentFor now threshold = true →
    task.id ∈ (s.sweep now threshold).1.requeued ∧
      (s.sweep now threshold).2.tasks.tasks.get? task.id = some task.setBack
  /-- An eviction that comes late enough takes the task. -/
  evicted : s.InPhase task .undelivered → ∃ failedAt, task.forwardFailedAt = some failedAt ∧
    ∀ {now threshold}, Instant.seconds threshold ≤ now - failedAt → task ∈ (s.evictUnredelivered now threshold).1

private theorem InPhase.lostWith {s : DispatchState α} (hs : s.workers.Named) {task : Task α} {queue : String}
    (h : s.InPhase task .held) (hassigned : task.assignedTo = some queue) :
    ∃ worker, s.workers.workers.get? queue = some worker ∧ LostWith task.id task worker := by
  obtain ⟨-, -, name, worker, hname, hworker, -, hcurrent⟩ := h
  obtain rfl := Option.some.inj (hname.symm.trans hassigned)
  refine ⟨worker, hworker, hcurrent, ?_⟩
  rw [hs hworker]
  exact hassigned

private theorem Consistent.accounted {s : DispatchState α} (hs : s.Consistent) (hnamed : s.Named) {id : String}
    {task : Task α} (htask : s.tasks.tasks.get? id = some task) : s.Accounted task := by
  have hid : s.tasks.tasks.get? task.id = some task := by
    rw [hnamed.tasks htask]
    exact htask
  constructor
  case started_iff => exact hs.started_iff htask
  case phase => exact hs.existsUnique_phase hnamed htask
  case setBack_exit =>
    intro hheld queue hassigned
    obtain ⟨worker, hworker, hlost⟩ := InPhase.lostWith hnamed.workers hheld hassigned
    rw [exitWorker_of_lostWith hworker hid hlost]
    exact ⟨rfl, Table.get?_insert_self ..⟩
  case setBack_sweep =>
    intro hheld queue worker now threshold hassigned hworker hsilent
    obtain ⟨w, hw, hlost⟩ := InPhase.lostWith hnamed.workers hheld hassigned
    obtain rfl := Option.some.inj (hworker.symm.trans hw)
    exact sweep_of_lostWith hnamed.workers hworker hid hlost hsilent
  case evicted =>
    rintro ⟨-, hfailed⟩
    obtain ⟨failedAt, hat⟩ := Option.isSome_iff_exists.1 hfailed
    refine ⟨failedAt, hat, fun {now threshold} hlate => ?_⟩
    have hlisted : id ∈ s.tasks.unredelivered now threshold :=
      (TaskRegistry.mem_unredelivered hnamed.tasks).2 ⟨task, failedAt, htask, hat, hlate⟩
    exact Table.mem_takeAll.2 ⟨id, hlisted, htask⟩

variable [Outlet σ]

theorem consistent_run (staleAfter : Int) (ceiling : Nat) (responseQueue : String) (publishTimeoutMillis : Nat)
    (events : List (Event α σ)) :
    ((start staleAfter ceiling responseQueue publishTimeoutMillis : DispatchState α).run events).Consistent :=
  invariant_run Consistent.move (named_start ..) (consistent_start ..) events

/-- Whatever happens to a dispatcher, every task that it tracks is accounted for. -/
theorem accounted_of_run (staleAfter : Int) (ceiling : Nat) (responseQueue : String) (publishTimeoutMillis : Nat)
    (events : List (Event α σ)) {id : String} {task : Task α}
    (htask :
      ((start staleAfter ceiling responseQueue publishTimeoutMillis).run events).tasks.tasks.get? id = some task) :
    ((start staleAfter ceiling responseQueue publishTimeoutMillis).run events).Accounted task := by
  have hnamed := named_run (named_start (α := α) staleAfter ceiling responseQueue publishTimeoutMillis) events
  exact (consistent_run staleAfter ceiling responseQueue publishTimeoutMillis events).accounted hnamed htask

theorem accounted_firstDispatch :
    ∃ task, ((start 30 3 "results" 10000).run firstDispatch).tasks.tasks.get? "t" = some task ∧
      task.assignedTo = some "w" ∧ ((start 30 3 "results" 10000).run firstDispatch).Accounted task := by
  have hassigned : (((start 30 3 "results" 10000).run firstDispatch).tasks.tasks.get? "t").map (·.assignedTo) =
      some (some "w") := by decide +kernel
  obtain ⟨task, htask, hw⟩ := Option.map_eq_some_iff.1 hassigned
  exact ⟨task, htask, hw, accounted_of_run 30 3 "results" 10000 firstDispatch htask⟩

end DispatchState

end SpeechDispatch
