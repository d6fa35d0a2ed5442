import SpeechDispatch.Proofs.Table
import SpeechDispatch.TaskRegistry

/-!
# What the registry of tasks holds after each operation

The operations on a task that is there always succeed, and change that task only; one that fails leaves the registry as
it was (`add_cases`, `update_cases`).  The lists of ids to be given up or no longer waited for name exactly the tasks
that fit (`mem_exhausted`, `mem_unredelivered`).
-/

namespace SpeechDispatch

variable {α : Type}

namespace Task

/-- A task that waits again after its worker was lost. -/
def setBack (task : Task α) : Task α :=
  { task with assignedTo := none, started := false, failures := task.failures + 1 }

def startedOn (task : Task α) (worker : String) : Task α := { task with assignedTo := some worker, started := true }

/-- A task whose result could not be forwarded, now or before. -/
def unforwarded (task : Task α) (now : Instant) : Task α :=
  { task with forwardFailedAt := some (task.forwardFailedAt.getD now) }

end Task

namespace TaskRegistry

/-- Every task stands under its id. -/
def Named (r : TaskRegistry α) : Prop := ∀ {id task}, r.tasks.get? id = some task → task.id = id

/-- A task is refused, or it stands under its id in place of what was there. -/
theorem add_cases (r : TaskRegistry α) (task : Task α) :
    (∃ e, r.add task = (.error e, r)) ∨
      r.add task = (.ok (r.tasks.get? task.id), { r with tasks := r.tasks.insert task.id task }) := by
  unfold add
  split
  · exact .inl ⟨_, rfl⟩
  split
  · exact .inl ⟨_, rfl⟩
  split
  · exact .inl ⟨_, rfl⟩
  · exact .inr rfl

/-- A task is changed where it is, and the change is refused where there is none. -/
theorem update_cases (r : TaskRegistry α) (id : String) (f : Task α → Task α) :
    (r.tasks.get? id = none ∧ r.update id f = (.error (.taskNotFound id), r)) ∨
      ∃ task, r.tasks.get? id = some task ∧
        r.update id f = (.ok (f task), { r with tasks := r.tasks.insert id (f task) }) := by
  unfold update
  cases r.tasks.get? id with
  | none => exact .inl ⟨rfl, rfl⟩
  | some task => exact .inr ⟨task, rfl, rfl⟩

theorem requeue_of_get? {r : TaskRegistry α} {id : String} {task : Task α} (h : r.tasks.get? id = some task) :
    r.requeue id = (.ok task.setBack, { r with tasks := r.tasks.insert id task.setBack }) := by
  simp only [requeue, update, h]
  rfl

theorem markStarted_of_get? {r : TaskRegistry α} {id : String} {task : Task α} (worker : String)
    (h : r.tasks.get? id = some task) :
    r.markStarted id worker = (.ok (), { r with tasks := r.tasks.insert id (task.startedOn worker) }) := by
  simp only [markStarted, update, h]
  rfl

theorem markForwardFailed_of_get? {r : TaskRegistry α} {id : String} {task : Task α} (now : Instant)
    (h : r.tasks.get? id = some task) :
    r.markForwardFailed id now = (.ok (), { r with tasks := r.tasks.insert id (task.unforwarded now) }) := by
  simp only [markForwardFailed, update, h]
  rfl

theorem isAssigned_iff {r : TaskRegistry α} {id queue : String} :
    r.isAssigned id queue = true ↔ ∃ task, r.tasks.get? id = some task ∧ task.assignedTo = some queue := by
  unfold isAssigned
  cases r.tasks.get? id <;> simp

/-! ### Tasks to be removed -/

theorem mem_sortIds {ids : List String} {id : String} : id ∈ sortIds ids ↔ id ∈ ids := List.mem_mergeSort

private theorem mem_ids_filter {r : TaskRegistry α} (hnamed : r.Named) {p : Task α → Bool} {id : String} :
    id ∈ sortIds ((r.tasks.values.filter p).map (·.id)) ↔ ∃ task, r.tasks.get? id = some task ∧ p task = true := by
  simp only [mem_sortIds, List.mem_map, List.mem_filter, Table.mem_values]
  constructor
  · rintro ⟨task, ⟨⟨name, htask⟩, hp⟩, rfl⟩
    rw [hnamed htask]
    exact ⟨task, htask, hp⟩
  · rintro ⟨task, htask, hp⟩
    exact ⟨task, ⟨⟨id, htask⟩, hp⟩, hnamed htask⟩

private theorem nodup_ids_filter {r : TaskRegistry α} (hnamed : r.Named) (p : Task α → Bool) :
    (sortIds ((r.tasks.values.filter p).map (·.id))).Nodup := by
  have hall : (r.tasks.values.map (·.id)).Nodup := by
    rw [Table.map_values_eq_names hnamed]
    exact r.tasks.names_nodup
  exact (List.mergeSort_perm _ _).nodup_iff.2 (hall.sublist (List.filter_sublist.map _))

theorem mem_exhausted {r : TaskRegistry α} (hnamed : r.Named) {id : String} :
    id ∈ r.exhausted ↔
      ∃ task, r.tasks.get? id = some task ∧ task.started = false ∧ task.isExhausted r.ceiling = true := by
  rw [exhausted, mem_ids_filter hnamed]
  simp only [Bool.and_eq_true, Bool.not_eq_true']

theorem mem_unredelivered {r : TaskRegistry α} (hnamed : r.Named) {now : Instant} {threshold : Int} {id : String} :
    id ∈ r.unredelivered now threshold ↔
      ∃ task failedAt, r.tasks.get? id = some task ∧ task.forwardFailedAt = some failedAt ∧
        Instant.seconds threshold ≤ now - failedAt := by
  rw [unredelivered, mem_ids_filter hnamed]
  refine exists_congr fun task => ?_
  unfold isUnredelivered
  cases task.forwardFailedAt <;> simp

theorem nodup_exhausted {r : TaskRegistry α} (hnamed : r.Named) : r.exhausted.Nodup := nodup_ids_filter hnamed _

theorem nodup_unredelivered {r : TaskRegistry α} (hnamed : r.Named) (now : Instant) (threshold : Int) :
    (r.unredelivered now threshold).Nodup := nodup_ids_filter hnamed _

end TaskRegistry

end SpeechDispatch
