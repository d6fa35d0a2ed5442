import SpeechDispatch.Proofs.Table
import SpeechDispatch.WorkerRegistry

/-!
# What the registry of workers holds after each operation

One statement for each operation, on what is looked up afterwards.  Only a first beat adds a worker and only an exit
or a sweep removes one (`get?_registerBeat`, `get?_takeAll`); a worker turns busy by `markBusy` when it was idle, and
idle by `releaseIfHolding` when it held the task.
-/

namespace SpeechDispatch

/-- A worker after its task was taken from it. -/
def Worker.freed (worker : Worker) (now : Instant) : Worker :=
  { worker with busy := false, currentTask := none, freeAt := now }

/-- An idle worker after it was given a task. -/
def Worker.turnedTo {α : Type} [Quantity α] (worker : Worker) (task : Task α) (now : Instant) : Worker :=
  { worker with
    busy := true
    currentTask := some task.id
    freeAt := WorkerRegistry.expectedFree (WorkerRegistry.workload worker task) now
    specialization := task.modelType }

namespace WorkerRegistry

/-- Every worker stands under the name of its queue. -/
def Named (r : WorkerRegistry) : Prop := ∀ {queue worker}, r.workers.get? queue = some worker → worker.queue = queue

/-- The worker that a beat leaves: the one that was there with its last beat moved on, or a new one. -/
def beaten (r : WorkerRegistry) (queue : String) (beatAt now : Instant) : Worker :=
  match r.workers.get? queue with
  | some worker => { worker with lastBeatAt := max worker.lastBeatAt (min beatAt now) }
  | none => Worker.join queue (min beatAt now) now

theorem registerBeat_eq (r : WorkerRegistry) (queue : String) (beatAt now : Instant) :
    (r.registerBeat queue beatAt now).2 =
      if Instant.seconds r.staleAfter < now - beatAt then r
      else { r with workers := r.workers.insert queue (r.beaten queue beatAt now) } := by
  unfold registerBeat beaten
  split
  · rfl
  · cases r.workers.get? queue <;> rfl

/-- A beat is ignored exactly if it is too old. -/
theorem fst_registerBeat_eq_stale_iff {r : WorkerRegistry} {queue : String} {beatAt now : Instant} :
    (r.registerBeat queue beatAt now).1 = .stale ↔ Instant.seconds r.staleAfter < now - beatAt := by
  unfold registerBeat
  by_cases hstale : Instant.seconds r.staleAfter < now - beatAt
  · simp [hstale]
  · cases r.workers.get? queue <;> simp [hstale]

/-- A beat leaves every worker as it was, but for the last beat of its own; it may add one that is idle. -/
theorem get?_registerBeat {r : WorkerRegistry} {queue name : String} {beatAt now : Instant} {worker : Worker}
    (h : (r.registerBeat queue beatAt now).2.workers.get? name = some worker) :
    (∃ old lastBeatAt, r.workers.get? name = some old ∧ worker = { old with lastBeatAt }) ∨
      (r.workers.get? name = none ∧ name = queue ∧ worker = Worker.join queue (min beatAt now) now) := by
  rw [registerBeat_eq] at h
  split at h
  · exact .inl ⟨worker, worker.lastBeatAt, h, rfl⟩
  · rw [Table.get?_insert] at h
    split at h
    · obtain rfl := Option.some.inj h
      subst name
      unfold beaten
      cases hold : r.workers.get? queue with
      | none => exact .inr ⟨rfl, rfl, rfl⟩
      | some old => exact .inl ⟨old, _, rfl, rfl⟩
    · exact .inl ⟨worker, worker.lastBeatAt, h, rfl⟩

/-- A worker that is there stays there through a beat. -/
theorem get?_registerBeat_of_some {r : WorkerRegistry} {name : String} {worker : Worker}
    (h : r.workers.get? name = some worker) (queue : String) (beatAt now : Instant) :
    ∃ lastBeatAt, (r.registerBeat queue beatAt now).2.workers.get? name = some { worker with lastBeatAt } := by
  rw [registerBeat_eq]
  split
  · exact ⟨worker.lastBeatAt, h⟩
  · by_cases hname : name = queue
    · subst name
      refine ⟨max worker.lastBeatAt (min beatAt now), ?_⟩
      rw [Table.get?_insert_self]
      simp only [beaten, h]
    · refine ⟨worker.lastBeatAt, ?_⟩
      rw [Table.get?_insert_of_ne _ _ hname, h]

/-- An idle worker is given the task; where there is none, nothing happens. -/
theorem markBusy_cases {α : Type} [Quantity α] (r : WorkerRegistry) (queue : String) (task : Task α) (now : Instant) :
    (r.workers.get? queue = none ∧ r.markBusy queue task now = (.error (.workerNotFound queue), r)) ∨
    (∃ worker, r.workers.get? queue = some worker ∧ worker.busy = true ∧
      r.markBusy queue task now = (.error (.workerBusy queue worker.currentTask), r)) ∨
    ∃ worker, r.workers.get? queue = some worker ∧ worker.busy = false ∧
      r.markBusy queue task now =
        (.ok (), { r with workers := r.workers.insert queue (worker.turnedTo task now) }) := by
  unfold markBusy
  cases r.workers.get? queue with
  | none => exact .inl ⟨rfl, rfl⟩
  | some worker =>
    cases hbusy : worker.busy with
    | true => exact .inr (.inl ⟨worker, rfl, hbusy, if_pos hbusy⟩)
    | false => exact .inr (.inr ⟨worker, rfl, hbusy, if_neg (by rw [hbusy]; exact Bool.false_ne_true)⟩)

/-- A busy worker is freed; where there is none, nothing happens. -/
theorem markFree_cases (r : WorkerRegistry) (queue : String) (now : Instant) :
    (r.workers.get? queue = none ∧ r.markFree queue now = (.error (.workerNotFound queue), r)) ∨
    (∃ worker, r.workers.get? queue = some worker ∧ worker.busy = false ∧
      r.markFree queue now = (.error (.workerNotBusy queue), r)) ∨
    ∃ worker, r.workers.get? queue = some worker ∧ worker.busy = true ∧
      r.markFree queue now = (.ok (), { r with workers := r.workers.insert queue (worker.freed now) }) := by
  unfold markFree
  cases r.workers.get? queue with
  | none => exact .inl ⟨rfl, rfl⟩
  | some worker =>
    cases hbusy : worker.busy with
    | true => exact .inr (.inr ⟨worker, rfl, hbusy, if_pos hbusy⟩)
    | false => exact .inr (.inl ⟨worker, rfl, hbusy, if_neg (by rw [hbusy]; exact Bool.false_ne_true)⟩)

theorem markBusy_of_idle {α : Type} [Quantity α] {r : WorkerRegistry} {queue : String} {worker : Worker}
    (hworker : r.workers.get? queue = some worker) (hidle : worker.busy = false) (task : Task α) (now : Instant) :
    r.markBusy queue task now =
      (.ok (), { r with workers := r.workers.insert queue (worker.turnedTo task now) }) := by
  simp only [markBusy, hworker, hidle, Bool.false_eq_true, if_false]
  rfl

theorem markFree_of_busy {r : WorkerRegistry} {queue : String} {worker : Worker}
    (hworker : r.workers.get? queue = some worker) (hbusy : worker.busy = true) (now : Instant) :
    r.markFree queue now = (.ok (), { r with workers := r.workers.insert queue (worker.freed now) }) := by
  simp only [markFree, hworker, hbusy, if_true]
  rfl

/-! ### Releasing -/

theorem isHolding_iff {r : WorkerRegistry} {queue task : String} :
    r.isHolding queue task = true ↔
      ∃ worker, r.workers.get? queue = some worker ∧ worker.busy = true ∧ worker.currentTask = some task := by
  unfold isHolding
  cases r.workers.get? queue with
  | none => simp
  | some worker => simp [Worker.holds]

theorem not_isHolding_of_idle {r : WorkerRegistry} {queue : String} {worker : Worker}
    (hworker : r.workers.get? queue = some worker) (hidle : worker.busy = false) (task : String) :
    ¬ r.isHolding queue task = true := by
  rw [isHolding_iff]
  rintro ⟨other, hother, hbusy, -⟩
  obtain rfl := Option.some.inj (hworker.symm.trans hother)
  exact absurd (hbusy.symm.trans hidle) nofun

/-- A beat does not change who is busy with what. -/
theorem isHolding_registerBeat (r : WorkerRegistry) (queue : String) (beatAt now : Instant) (name task : String) :
    (r.registerBeat queue beatAt now).2.isHolding name task = r.isHolding name task := by
  rw [Bool.eq_iff_iff, isHolding_iff, isHolding_iff]
  constructor
  · rintro ⟨worker, hworker, hbusy, htask⟩
    rcases get?_registerBeat hworker with ⟨old, _, hold, rfl⟩ | ⟨-, -, rfl⟩
    · exact ⟨old, hold, hbusy, htask⟩
    · cases hbusy
  · rintro ⟨worker, hworker, hbusy, htask⟩
    obtain ⟨_, hbeaten⟩ := get?_registerBeat_of_some hworker queue beatAt now
    exact ⟨_, hbeaten, hbusy, htask⟩

/-- A release frees the worker that holds the task, and touches no other. -/
theorem get?_releaseIfHolding (r : WorkerRegistry) (queue task name : String) (now : Instant) :
    (r.releaseIfHolding queue task now).2.workers.get? name =
      if name = queue ∧ r.isHolding queue task = true then (r.workers.get? queue).map (·.freed now)
      else r.workers.get? name := by
  unfold releaseIfHolding
  split
  · rename_i hholding
    obtain ⟨worker, hworker, hbusy, -⟩ := isHolding_iff.1 hholding
    simp only [markFree_of_busy hworker hbusy, Table.get?_insert, hworker, hholding, and_true, Option.map_some]
  · rename_i hholding
    rw [if_neg fun h => hholding h.2]

theorem staleAfter_releaseIfHolding (r : WorkerRegistry) (queue task : String) (now : Instant) :
    (r.releaseIfHolding queue task now).2.staleAfter = r.staleAfter := by
  unfold releaseIfHolding
  split
  · rename_i hholding
    obtain ⟨worker, hworker, hbusy, -⟩ := isHolding_iff.1 hholding
    simp only [markFree_of_busy hworker hbusy]
  · rfl

theorem get?_releaseIfHolding_of_ne (r : WorkerRegistry) {queue name : String} (task : String) (now : Instant)
    (h : name ≠ queue) : (r.releaseIfHolding queue task now).2.workers.get? name = r.workers.get? name := by
  rw [get?_releaseIfHolding, if_neg fun hc => h hc.1]

/-- A worker that is busy after a release was not the one released, and is as it was. -/
theorem get?_of_busy_releaseIfHolding {r : WorkerRegistry} {queue task name : String} {now : Instant}
    {worker : Worker} (h : (r.releaseIfHolding queue task now).2.workers.get? name = some worker)
    (hbusy : worker.busy = true) :
    r.workers.get? name = some worker ∧ ¬ (name = queue ∧ worker.currentTask = some task) := by
  rw [get?_releaseIfHolding] at h
  split at h
  · obtain ⟨old, -, rfl⟩ := Option.map_eq_some_iff.1 h
    exact absurd hbusy (by simp [Worker.freed])
  · rename_i hnot
    refine ⟨h, fun ⟨hname, htask⟩ => hnot ⟨hname, ?_⟩⟩
    exact isHolding_iff.2 ⟨worker, hname ▸ h, hbusy, htask⟩

/-- A worker that does not hold the task is not touched by its release. -/
theorem get?_releaseIfHolding_of_some {r : WorkerRegistry} {queue task name : String} {now : Instant}
    {worker : Worker} (h : r.workers.get? name = some worker) (htask : worker.currentTask ≠ some task) :
    (r.releaseIfHolding queue task now).2.workers.get? name = some worker := by
  rw [get?_releaseIfHolding, if_neg, h]
  rintro ⟨rfl, hholding⟩
  obtain ⟨holder, hholder, -, hcurrent⟩ := isHolding_iff.1 hholding
  obtain rfl := Option.some.inj (h.symm.trans hholder)
  exact htask hcurrent

/-- The queues of the workers that a sweep removes, in order. -/
def silentQueues (r : WorkerRegistry) (now : Instant) (threshold : Int) : List String :=
  (r.workers.values.filter (·.isSilentFor now threshold)).map (·.queue)

private theorem mem_queues_filter {r : WorkerRegistry} (hnamed : r.Named) {p : Worker → Bool} {queue : String} :
    queue ∈ (r.workers.values.filter p).map (·.queue) ↔
      ∃ worker, r.workers.get? queue = some worker ∧ p worker = true := by
  simp only [List.mem_map, List.mem_filter, Table.mem_values]
  constructor
  · rintro ⟨worker, ⟨⟨name, hworker⟩, hp⟩, rfl⟩
    rw [hnamed hworker]
    exact ⟨worker, hworker, hp⟩
  · rintro ⟨worker, hworker, hp⟩
    exact ⟨worker, ⟨⟨queue, hworker⟩, hp⟩, hnamed hworker⟩

theorem mem_silentQueues {r : WorkerRegistry} (hnamed : r.Named) {now : Instant} {threshold : Int} {queue : String} :
    queue ∈ r.silentQueues now threshold ↔
      ∃ worker, r.workers.get? queue = some worker ∧ worker.isSilentFor now threshold = true :=
  mem_queues_filter hnamed

theorem mem_idleQueues {r : WorkerRegistry} (hnamed : r.Named) {queue : String} :
    queue ∈ r.idleQueues ↔ ∃ worker, r.workers.get? queue = some worker ∧ worker.busy = false := by
  rw [idleQueues, mem_queues_filter hnamed]
  simp only [Bool.not_eq_true']

private theorem nodup_queues_filter {r : WorkerRegistry} (hnamed : r.Named) (p : Worker → Bool) :
    ((r.workers.values.filter p).map (·.queue)).Nodup := by
  have hall : (r.workers.values.map (·.queue)).Nodup := by
    rw [Table.map_values_eq_names hnamed]
    exact r.workers.names_nodup
  exact hall.sublist (List.filter_sublist.map _)

theorem nodup_idleQueues {r : WorkerRegistry} (hnamed : r.Named) : r.idleQueues.Nodup := nodup_queues_filter hnamed _

theorem nodup_silentQueues {r : WorkerRegistry} (hnamed : r.Named) (now : Instant) (threshold : Int) :
    (r.silentQueues now threshold).Nodup := nodup_queues_filter hnamed _

end WorkerRegistry

end SpeechDispatch
