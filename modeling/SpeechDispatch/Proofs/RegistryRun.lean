import SpeechDispatch.Proofs.Fold
import SpeechDispatch.Proofs.TaskRegistry
import SpeechDispatch.Proofs.WorkerRegistry

/-!
# Runs of a registry

A registry by itself, called in any order and with any arguments; a call that is refused leaves it as it is.

No call looks at more than one entry to change one, so an entry has a life of its own: what a run leaves under a name is
what its calls make of the entry under that name alone (`WorkerRegistry.get?_run`, `TaskRegistry.get?_run`).
-/

namespace SpeechDispatch

variable {α : Type}

/-! ### Workers -/

/-- A call of the registry of workers. -/
inductive WorkerCall (α : Type)
  | registerBeat (queue : String) (beatAt now : Instant)
  | exit (queue : String)
  | sweep (now : Instant) (threshold : Int)
  | markBusy (queue : String) (task : Task α) (now : Instant)
  | markFree (queue : String) (now : Instant)
  | releaseIfHolding (queue task : String) (now : Instant)

/-- A worker after a beat that is taken: it joins by its first one. -/
def Worker.afterBeat (entry : Option Worker) (queue : String) (beatAt now : Instant) : Worker :=
  match entry with
  | some worker => { worker with lastBeatAt := max worker.lastBeatAt (min beatAt now) }
  | none => Worker.join queue (min beatAt now) now

/-- What a call makes of the entry under a name. -/
def WorkerCall.onEntry [Quantity α] (staleAfter : Int) (name : String) :
    WorkerCall α → Option Worker → Option Worker
  | .registerBeat queue beatAt now, entry =>
    if queue = name ∧ now - beatAt ≤ Instant.seconds staleAfter then some (Worker.afterBeat entry name beatAt now)
    else entry
  | .exit queue, entry => if queue = name then none else entry
  | .sweep now threshold, entry => entry.filter (!·.isSilentFor now threshold)
  | .markBusy queue task now, entry =>
    entry.map fun worker => if queue = name ∧ worker.busy = false then worker.turnedTo task now else worker
  | .markFree queue now, entry =>
    entry.map fun worker => if queue = name ∧ worker.busy = true then worker.freed now else worker
  | .releaseIfHolding queue task now, entry =>
    entry.map fun worker =>
      if queue = name ∧ worker.busy = true ∧ worker.currentTask = some task then worker.freed now else worker

/-- The reading of the clock that comes with a call. -/
def WorkerCall.clock? : WorkerCall α → Option Instant
  | .registerBeat _ _ now | .sweep now _ | .markBusy _ _ now | .markFree _ now | .releaseIfHolding _ _ now => some now
  | .exit _ => none

/-- A worker that a call leaves was there before but for its last beat, or the call made it join, turned it to a task
or freed it. -/
theorem WorkerCall.cases_of_onEntry [Quantity α] {staleAfter : Int} {name : String} {call : WorkerCall α}
    {entry : Option Worker} {worker : Worker} (h : call.onEntry staleAfter name entry = some worker) :
    (∃ old lastBeatAt, entry = some old ∧ worker = { old with lastBeatAt }) ∨
    ∃ now, call.clock? = some now ∧ ((∃ beatAt, worker = Worker.join name beatAt now) ∨
      ∃ old, entry = some old ∧ ((∃ task : Task α, worker = old.turnedTo task now) ∨ worker = old.freed now)) := by
  have hsame : entry = some worker → ∃ old lastBeatAt, entry = some old ∧ worker = { old with lastBeatAt } :=
    fun hentry => ⟨worker, worker.lastBeatAt, hentry, rfl⟩
  cases call with
  | registerBeat queue beatAt now =>
    simp only [onEntry] at h
    split at h
    · obtain rfl := Option.some.inj h
      cases entry with
      | none => exact .inr ⟨now, rfl, .inl ⟨_, rfl⟩⟩
      | some old => exact .inl ⟨old, _, rfl, rfl⟩
    · exact .inl (hsame h)
  | exit queue =>
    simp only [onEntry] at h
    split at h
    · cases h
    · exact .inl (hsame h)
  | sweep now threshold => exact .inl (hsame (Option.filter_eq_some_iff.1 h).1)
  | markBusy queue task now =>
    obtain ⟨old, hold, rfl⟩ := Option.map_eq_some_iff.1 h
    split
    · exact .inr ⟨now, rfl, .inr ⟨old, hold, .inl ⟨task, rfl⟩⟩⟩
    · exact .inl ⟨old, old.lastBeatAt, hold, rfl⟩
  | markFree | releaseIfHolding =>
    obtain ⟨old, hold, rfl⟩ := Option.map_eq_some_iff.1 h
    split
    · exact .inr ⟨_, rfl, .inr ⟨old, hold, .inr rfl⟩⟩
    · exact .inl ⟨old, old.lastBeatAt, hold, rfl⟩

namespace WorkerRegistry

variable [Quantity α]

/-- The registry after a call. -/
def after (r : WorkerRegistry) : WorkerCall α → WorkerRegistry
  | .registerBeat queue beatAt now => (r.registerBeat queue beatAt now).2
  | .exit queue => (r.exit queue).2
  | .sweep now threshold => (r.sweep now threshold).2
  | .markBusy queue task now => (r.markBusy queue task now).2
  | .markFree queue now => (r.markFree queue now).2
  | .releaseIfHolding queue task now => (r.releaseIfHolding queue task now).2

/-- The registry after a list of calls. -/
def run (r : WorkerRegistry) (calls : List (WorkerCall α)) : WorkerRegistry := calls.foldl after r

omit [Quantity α] in
/-- A sweep takes away the silent workers and leaves the others. -/
theorem get?_sweep {r : WorkerRegistry} (hr : r.Named) (now : Instant) (threshold : Int) (name : String) :
    (r.sweep now threshold).2.workers.get? name =
      (r.workers.get? name).filter (!·.isSilentFor now threshold) :=
  (Table.takeAll_where hr (nodup_silentQueues hr now threshold) (mem_silentQueues hr)).1 name

theorem get?_after_registerBeat (r : WorkerRegistry) (queue : String) (beatAt now : Instant) (name : String) :
    (r.registerBeat queue beatAt now).2.workers.get? name =
      (WorkerCall.registerBeat queue beatAt now : WorkerCall α).onEntry r.staleAfter name (r.workers.get? name) := by
  rw [registerBeat_eq]
  by_cases hstale : Instant.seconds r.staleAfter < now - beatAt
  · rw [if_pos hstale, WorkerCall.onEntry, if_neg fun h => Int.not_lt.2 h.2 hstale]
  · have hinTime : now - beatAt ≤ Instant.seconds r.staleAfter := Int.not_lt.1 hstale
    rw [if_neg hstale, WorkerCall.onEntry, Table.get?_insert]
    by_cases hname : queue = name
    · subst hname
      rw [if_pos rfl, if_pos ⟨rfl, hinTime⟩]
      rfl
    · have hne : ¬ name = queue := fun h => hname h.symm
      rw [if_neg hne, if_neg fun h => hname h.1]

/-- A change of an entry that is there and is fit for it. -/
private theorem get?_modify_if (t : Table Worker) (queue name : String) (p : Worker → Prop) [DecidablePred p]
    (f : Worker → Worker) :
    (t.modify queue fun worker => if p worker then f worker else worker).get? name =
      (t.get? name).map fun worker => if queue = name ∧ p worker then f worker else worker := by
  rw [Table.get?_modify]
  by_cases hname : name = queue
  · subst hname
    simp only [if_true, true_and]
  · have hne : ¬ queue = name := fun h => hname h.symm
    simp only [if_neg hname, hne, false_and, if_false, Option.map_id']

theorem after_markBusy (r : WorkerRegistry) (queue : String) (task : Task α) (now : Instant) :
    r.after (.markBusy queue task now) = { r with
      workers := r.workers.modify queue fun worker =>
        if worker.busy = false then worker.turnedTo task now else worker } := by
  show (r.markBusy queue task now).2 = _
  unfold Table.modify
  rcases r.markBusy_cases queue task now with ⟨hworker, h⟩ | ⟨worker, hworker, hbusy, h⟩ | ⟨worker, hworker, hidle, h⟩
  · rw [h, hworker]
  · simp [h, hworker, hbusy, Table.insert_of_get? hworker]
  · simp [h, hworker, hidle]

theorem after_markFree (r : WorkerRegistry) (queue : String) (now : Instant) :
    r.after (.markFree queue now : WorkerCall α) = { r with
      workers := r.workers.modify queue fun worker => if worker.busy = true then worker.freed now else worker } := by
  show (r.markFree queue now).2 = _
  unfold Table.modify
  rcases r.markFree_cases queue now with ⟨hworker, h⟩ | ⟨worker, hworker, hidle, h⟩ | ⟨worker, hworker, hbusy, h⟩
  · rw [h, hworker]
  · simp [h, hworker, hidle, Table.insert_of_get? hworker]
  · simp [h, hworker, hbusy]

theorem get?_after_releaseIfHolding (r : WorkerRegistry) (queue task : String) (now : Instant) (name : String) :
    (r.releaseIfHolding queue task now).2.workers.get? name =
      (WorkerCall.releaseIfHolding queue task now : WorkerCall α).onEntry r.staleAfter name
        (r.workers.get? name) := by
  rw [get?_releaseIfHolding, WorkerCall.onEntry]
  by_cases hname : name = queue
  · subst hname
    cases hworker : r.workers.get? name with
    | none => simp
    | some worker =>
      simp only [isHolding_iff, hworker, Option.some.injEq, exists_eq_left', true_and, Option.map_some]
      split <;> rfl
  · have hne : ¬ queue = name := fun h => hname h.symm
    simp [hname, hne]

/-- A call changes the entry under a name by what that entry is, and by nothing else. -/
theorem get?_after {r : WorkerRegistry} (hr : r.Named) (call : WorkerCall α) (name : String) :
    (r.after call).workers.get? name = call.onEntry r.staleAfter name (r.workers.get? name) := by
  cases call with
  | registerBeat queue beatAt now => exact r.get?_after_registerBeat queue beatAt now name
  | exit queue =>
    show (r.workers.erase queue).get? name = _
    rw [Table.get?_erase, WorkerCall.onEntry]
    simp only [eq_comm]
  | sweep now threshold => exact get?_sweep hr now threshold name
  | markBusy queue task now =>
    rw [after_markBusy]
    exact get?_modify_if r.workers queue name (·.busy = false) (·.turnedTo task now)
  | markFree queue now =>
    rw [after_markFree]
    exact get?_modify_if r.workers queue name (·.busy = true) (·.freed now)
  | releaseIfHolding queue task now => exact r.get?_after_releaseIfHolding queue task now name

theorem staleAfter_after (r : WorkerRegistry) (call : WorkerCall α) : (r.after call).staleAfter = r.staleAfter := by
  cases call with
  | registerBeat queue beatAt now =>
    show (r.registerBeat queue beatAt now).2.staleAfter = r.staleAfter
    rw [registerBeat_eq]
    split <;> rfl
  | exit queue => rfl
  | sweep now threshold => rfl
  | markBusy queue task now => rw [after_markBusy]
  | markFree queue now => rw [after_markFree]
  | releaseIfHolding queue task now => exact r.staleAfter_releaseIfHolding queue task now

theorem named_after {r : WorkerRegistry} (hr : r.Named) (call : WorkerCall α) : (r.after call).Named := by
  intro name worker hworker
  rw [get?_after hr] at hworker
  have hqueue : ∀ old, r.workers.get? name = some old → old.queue = name := fun old h => hr h
  rcases WorkerCall.cases_of_onEntry hworker with
    ⟨old, _, hold, rfl⟩ | ⟨now, -, ⟨_, rfl⟩ | ⟨old, hold, ⟨task, rfl⟩ | rfl⟩⟩
  · exact hqueue old hold
  · rfl
  · exact hqueue old hold
  · exact hqueue old hold

theorem staleAfter_run (r : WorkerRegistry) (calls : List (WorkerCall α)) :
    (r.run calls).staleAfter = r.staleAfter :=
  List.foldlRecOn (motive := fun after => after.staleAfter = r.staleAfter) calls after rfl
    fun _ ih call _ => (staleAfter_after _ call).trans ih

theorem named_run {r : WorkerRegistry} (hr : r.Named) (calls : List (WorkerCall α)) : (r.run calls).Named :=
  List.foldlRecOn (motive := Named) calls after hr fun _ ih call _ => named_after ih call

/-- What a run leaves under a name is what its calls make of the entry there, one after another. -/
theorem get?_run {r : WorkerRegistry} (hr : r.Named) (calls : List (WorkerCall α)) (name : String) :
    (r.run calls).workers.get? name =
      calls.foldl (fun entry call => call.onEntry r.staleAfter name entry) (r.workers.get? name) := by
  refine foldl_induction (motive := fun calls (after : WorkerRegistry) => after.workers.get? name =
    calls.foldl (fun entry call => call.onEntry r.staleAfter name entry) (r.workers.get? name)) rfl ?_ calls
  intro calls call ih
  change ((r.run calls).after call).workers.get? name = _
  rw [get?_after (named_run hr calls), staleAfter_run, List.foldl_concat]
  exact congrArg _ ih

omit [Quantity α] in
theorem eq_of_get? {r r' : WorkerRegistry} (hstale : r.staleAfter = r'.staleAfter)
    (h : ∀ name, r.workers.get? name = r'.workers.get? name) : r = r' := by
  obtain ⟨workers, staleAfter⟩ := r
  obtain ⟨workers', staleAfter'⟩ := r'
  obtain rfl : workers = workers' := Table.ext_get? h
  obtain rfl : staleAfter = staleAfter' := hstale
  rfl

omit [Quantity α] in
theorem named_empty (staleAfter : Int) : ({ staleAfter } : WorkerRegistry).Named := fun h => nomatch h

end WorkerRegistry

/-! ### Tasks -/

/-- What a task must have to be taken in. -/
def Task.IsComplete (task : Task α) : Prop :=
  isBlank task.id = false ∧ isBlank task.modelType = false ∧ task.origin.payload.isEmpty = false

instance (task : Task α) : Decidable task.IsComplete := inferInstanceAs (Decidable (_ ∧ _ ∧ _))

/-- A call of the registry of tasks. -/
inductive TaskCall (α : Type)
  | add (task : Task α)
  | requeue (id : String)
  | markStarted (id worker : String)
  | markForwardFailed (id : String) (now : Instant)
  | remove (id : String)

/-- What a call makes of the entry under an id. -/
def TaskCall.onEntry (id : String) : TaskCall α → Option (Task α) → Option (Task α)
  | .add task, entry => if task.id = id ∧ task.IsComplete then some task else entry
  | .requeue other, entry => if other = id then entry.map (·.setBack) else entry
  | .markStarted other worker, entry => if other = id then entry.map (·.startedOn worker) else entry
  | .markForwardFailed other now, entry => if other = id then entry.map (·.unforwarded now) else entry
  | .remove other, entry => if other = id then none else entry

namespace TaskRegistry

/-- The registry after a call. -/
def after (r : TaskRegistry α) : TaskCall α → TaskRegistry α
  | .add task => (r.add task).2
  | .requeue id => (r.requeue id).2
  | .markStarted id worker => (r.markStarted id worker).2
  | .markForwardFailed id now => (r.markForwardFailed id now).2
  | .remove id => (r.remove id).2

/-- The registry after a list of calls. -/
def run (r : TaskRegistry α) (calls : List (TaskCall α)) : TaskRegistry α := calls.foldl after r

theorem after_add (r : TaskRegistry α) (task : Task α) :
    r.after (.add task) = if task.IsComplete then { r with tasks := r.tasks.insert task.id task } else r := by
  show (r.add task).2 = _
  unfold add Task.IsComplete
  by_cases hid : isBlank task.id = true
  · simp [hid]
  by_cases htype : isBlank task.modelType = true
  · simp [hid, htype]
  by_cases hpayload : task.origin.payload.isEmpty = true
  · simp [hid, htype, hpayload]
  · simp [hid, htype, hpayload]

/-- A call that changes a task changes it where it is, and is refused where there is none. -/
private theorem after_update (r : TaskRegistry α) (id : String) (f : Task α → Task α) :
    (r.update id f).2 = { r with tasks := r.tasks.modify id f } := by
  unfold Table.modify
  rcases r.update_cases id f with ⟨htask, h⟩ | ⟨task, htask, h⟩ <;> rw [h, htask]

theorem after_requeue (r : TaskRegistry α) (id : String) :
    r.after (.requeue id) = { r with tasks := r.tasks.modify id (·.setBack) } := r.after_update id _

theorem after_markStarted (r : TaskRegistry α) (id worker : String) :
    r.after (.markStarted id worker) = { r with tasks := r.tasks.modify id (·.startedOn worker) } :=
  r.after_update id _

theorem after_markForwardFailed (r : TaskRegistry α) (id : String) (now : Instant) :
    r.after (.markForwardFailed id now) = { r with tasks := r.tasks.modify id (·.unforwarded now) } :=
  r.after_update id _

private theorem get?_modify (t : Table (Task α)) (other id : String) (f : Task α → Task α) :
    (t.modify other f).get? id = if other = id then (t.get? id).map f else t.get? id := by
  rw [Table.get?_modify]
  by_cases hid : id = other
  · subst hid
    rw [if_pos rfl]
  · have hne : ¬ other = id := fun h => hid h.symm
    rw [if_neg hid, if_neg hne]

/-- A call changes the entry under an id by what that entry is, and by nothing else. -/
theorem get?_after (r : TaskRegistry α) (call : TaskCall α) (id : String) :
    (r.after call).tasks.get? id = call.onEntry id (r.tasks.get? id) := by
  cases call with
  | add task =>
    rw [after_add, TaskCall.onEntry]
    by_cases hcomplete : task.IsComplete
    · rw [if_pos hcomplete, Table.get?_insert]
      simp only [hcomplete, and_true, eq_comm]
    · rw [if_neg hcomplete, if_neg fun h => hcomplete h.2]
  | requeue other =>
    rw [after_requeue]
    exact get?_modify r.tasks other id _
  | markStarted other worker =>
    rw [after_markStarted]
    exact get?_modify r.tasks other id _
  | markForwardFailed other now =>
    rw [after_markForwardFailed]
    exact get?_modify r.tasks other id _
  | remove other =>
    show (r.tasks.erase other).get? id = _
    rw [Table.get?_erase, TaskCall.onEntry]
    simp only [eq_comm]

theorem ceiling_after (r : TaskRegistry α) (call : TaskCall α) : (r.after call).ceiling = r.ceiling := by
  cases call with
  | add task =>
    rw [after_add]
    split <;> rfl
  | requeue id => rw [after_requeue]
  | markStarted id worker => rw [after_markStarted]
  | markForwardFailed id now => rw [after_markForwardFailed]
  | remove id => rfl

theorem named_after {r : TaskRegistry α} (hr : r.Named) (call : TaskCall α) : (r.after call).Named := by
  intro id task htask
  rw [get?_after] at htask
  have hold : ∀ old, r.tasks.get? id = some old → old.id = id := fun old h => hr h
  cases call with
  | add new =>
    simp only [TaskCall.onEntry] at htask
    split at htask
    · rename_i hnew
      obtain rfl := Option.some.inj htask
      exact hnew.1
    · exact hold task htask
  | remove other =>
    simp only [TaskCall.onEntry] at htask
    split at htask
    · cases htask
    · exact hold task htask
  | requeue | markStarted | markForwardFailed =>
    simp only [TaskCall.onEntry] at htask
    split at htask
    · obtain ⟨old, hentry, rfl⟩ := Option.map_eq_some_iff.1 htask
      exact hold old hentry
    · exact hold task htask

theorem ceiling_run (r : TaskRegistry α) (calls : List (TaskCall α)) : (r.run calls).ceiling = r.ceiling :=
  List.foldlRecOn (motive := fun after => after.ceiling = r.ceiling) calls after rfl
    fun _ ih call _ => (ceiling_after _ call).trans ih

theorem named_run {r : TaskRegistry α} (hr : r.Named) (calls : List (TaskCall α)) : (r.run calls).Named :=
  List.foldlRecOn (motive := Named) calls after hr fun _ ih call _ => named_after ih call

/-- What a run leaves under an id is what its calls make of the entry there, one after another. -/
theorem get?_run (r : TaskRegistry α) (calls : List (TaskCall α)) (id : String) :
    (r.run calls).tasks.get? id =
      calls.foldl (fun entry call => call.onEntry id entry) (r.tasks.get? id) :=
  -- looking an id up turns a run into what its calls make of the one entry
  (List.foldl_hom (fun r : TaskRegistry α => r.tasks.get? id) fun r call => (get?_after r call id).symm).symm

theorem eq_of_get? {r r' : TaskRegistry α} (hceiling : r.ceiling = r'.ceiling)
    (h : ∀ id, r.tasks.get? id = r'.tasks.get? id) : r = r' := by
  obtain ⟨tasks, ceiling⟩ := r
  obtain ⟨tasks', ceiling'⟩ := r'
  obtain rfl : tasks = tasks' := Table.ext_get? h
  obtain rfl : ceiling = ceiling' := hceiling
  rfl

theorem named_empty (ceiling : Nat) : ({ ceiling } : TaskRegistry α).Named := fun h => nomatch h

end TaskRegistry

end SpeechDispatch
