import SpeechDispatch.Matching.Cost
import SpeechDispatch.Proofs.Phase

/-!
# What busy workers are busy with

A busy worker has the task that is assigned to it, with one exception.  A round of the failure detector gives up the
tasks whose results have waited too long, and does not release the workers that are busy with them: such a task was
set back before its result came, and was started again while the result waited.  Its worker is left behind with a task
that is not tracked any more, and stays busy until it leaves.

* No move but an eviction leaves a worker behind, and only its leave ends that (`Moves.stray_iff`).
* A worker has a task that is not assigned to it if and only if it was left behind (`DispatchState.stray_run_iff`).
-/

namespace SpeechDispatch

variable {α σ : Type}

/-- A busy worker has a task. -/
def WorkerRegistry.Occupied (r : WorkerRegistry) : Prop :=
  ∀ {queue worker}, r.workers.get? queue = some worker → worker.busy = true → ∃ id, worker.currentTask = some id

theorem Move.occupied [Quantity α] {onlyPending : Prop} {s s' : DispatchState α} {act : Act α}
    (h : Move onlyPending s act s') (hs : s.workers.Occupied) : s'.workers.Occupied := by
  intro queue worker hworker hbusy
  cases h with
  | beat name beatAt now =>
    rcases WorkerRegistry.get?_registerBeat hworker with ⟨old, _, hold, rfl⟩ | ⟨-, -, rfl⟩
    · obtain ⟨id, hid⟩ := hs hold (show old.busy = true from hbusy)
      exact ⟨id, hid⟩
    · cases hbusy
  | leave name =>
    rw [DispatchState.get?_workers_exitWorker] at hworker
    split at hworker
    · cases hworker
    · exact hs hworker hbusy
  | @start id name task w now =>
    change (s.workers.workers.insert name (w.turnedTo task now)).get? queue = some worker at hworker
    rw [Table.get?_insert] at hworker
    split at hworker
    · obtain rfl := Option.some.inj hworker
      exact ⟨task.id, rfl⟩
    · exact hs hworker hbusy
  | replace | finish | drop | defer =>
    obtain ⟨hbefore, -⟩ := DispatchState.get?_of_busy_releaseWorkerOf hworker hbusy
    exact hs hbefore hbusy
  | accept | giveUp | expire => exact hs hworker hbusy

/-! ### Stray workers -/

namespace DispatchState

/-- The worker is busy with a task that is not assigned to it. -/
def Stray (s : DispatchState α) (queue id : String) : Prop :=
  s.workers.isHolding queue id = true ∧ ¬ s.tasks.isAssigned id queue = true

variable {s : DispatchState α}

private theorem stray_exitWorker (hs : s.workers.Named) (name queue id : String) :
    (s.exitWorker name).2.Stray queue id ↔ s.Stray queue id ∧ queue ≠ name := by
  unfold Stray
  rw [isHolding_exitWorker]
  by_cases hne : queue = name
  · simp [hne]
  · rw [isAssigned_exitWorker_of_ne hs hne]
    simp [hne]

/-- A task that is not assigned to a worker may go without making a difference to that worker. -/
private theorem stray_forget {id queue : String} (hfree : ¬ s.tasks.isAssigned id queue = true) (other : String) :
    (s.forget id).Stray queue other ↔ s.Stray queue other := by
  refine and_congr_right fun _ => not_congr ?_
  rw [isAssigned_forget]
  refine ⟨fun h => h.2, fun h => ⟨?_, h⟩⟩
  rintro rfl
  exact hfree h

private theorem stray_putTask {id queue : String} (hfree : ¬ s.tasks.isAssigned id queue = true) {task : Task α}
    (hunassigned : task.assignedTo = none) (other : String) :
    (s.putTask id task).Stray queue other ↔ s.Stray queue other := by
  refine and_congr_right fun _ => not_congr ?_
  rw [isAssigned_putTask, hunassigned]
  split
  · rename_i hid
    subst hid
    exact ⟨nofun, fun h => absurd h hfree⟩
  · exact Iff.rfl

private theorem isAssigned_of_get? {id queue : String} {task : Task α} (htask : s.tasks.tasks.get? id = some task) :
    s.tasks.isAssigned id queue = true ↔ task.assignedTo = some queue := by
  rw [TaskRegistry.isAssigned_iff, htask]
  simp

/-- A release frees the worker to which the task is assigned, and that worker only, so the task may go. -/
private theorem stray_forget_releaseWorkerOf {id : String} {task : Task α}
    (htask : s.tasks.tasks.get? id = some task) (now : Instant) (queue other : String) :
    ((s.releaseWorkerOf task id now).forget id).Stray queue other ↔ s.Stray queue other := by
  unfold Stray
  rw [isAssigned_forget, releaseWorkerOf_tasks]
  change (s.releaseWorkerOf task id now).workers.isHolding queue other = true ∧ _ ↔ _
  rw [isHolding_releaseWorkerOf]
  by_cases hid : other = id
  -- whoever held this task either was released or had it unassigned
  · subst hid
    rw [isAssigned_of_get? htask]
    simp
  · simp [hid]

private theorem stray_putTask_releaseWorkerOf {id : String} {task : Task α}
    (htask : s.tasks.tasks.get? id = some task) (now : Instant) (queue other : String) :
    ((s.releaseWorkerOf task id now).putTask id (task.unforwarded now)).Stray queue other ↔ s.Stray queue other := by
  unfold Stray
  rw [isAssigned_putTask, releaseWorkerOf_tasks]
  change (s.releaseWorkerOf task id now).workers.isHolding queue other = true ∧ _ ↔ _
  rw [isHolding_releaseWorkerOf]
  by_cases hid : other = id
  · subst hid
    rw [if_pos rfl, isAssigned_of_get? htask]
    change (_ ∧ ¬ (task.assignedTo = some queue ∧ other = other)) ∧ ¬ task.assignedTo = some queue ↔ _
    simp
  · simp [hid]

/-- An eviction leaves those behind from whom it takes a task assigned to them. -/
private theorem stray_evictUnredelivered (s : DispatchState α) (now : Instant) (threshold : Int) (queue id : String) :
    (s.evictUnredelivered now threshold).2.Stray queue id ↔
      s.Stray queue id ∨ (s.workers.isHolding queue id = true ∧ s.tasks.isAssigned id queue = true ∧
        id ∈ s.tasks.unredelivered now threshold) := by
  have hassigned : (s.evictUnredelivered now threshold).2.tasks.isAssigned id queue = true ↔
      id ∉ s.tasks.unredelivered now threshold ∧ s.tasks.isAssigned id queue = true := by
    rw [TaskRegistry.isAssigned_iff, get?_evictUnredelivered, TaskRegistry.isAssigned_iff]
    split
    · rename_i hevicted
      simp [hevicted]
    · rename_i hkept
      simp [hkept]
  unfold Stray
  rw [hassigned]
  change s.workers.isHolding queue id = true ∧ _ ↔ _
  tauto

/-- A worker that starts takes the task assigned to it, and no other task is touched. -/
private theorem stray_bound [Quantity α] (hnamed : s.Named) (hs : s.Consistent) {id name : String} {task : Task α}
    {worker : Worker} (now : Instant) (htask : s.tasks.tasks.get? id = some task) (hwaits : task.started = false)
    (hworker : s.workers.workers.get? name = some worker) (hidle : worker.busy = false) (queue other : String) :
    (s.bound task worker id name now).Stray queue other ↔ s.Stray queue other := by
  have hassigned : (s.bound task worker id name now).tasks.isAssigned other queue = true ↔
      if other = id then name = queue else s.tasks.isAssigned other queue = true := by
    refine isAssigned_putTask.trans ?_
    simp only [Task.startedOn, Option.some.injEq]
  have hfree : ¬ s.tasks.isAssigned id queue = true := by
    rw [isAssigned_of_get? htask]
    exact hs.assignedTo_ne_some htask hwaits queue
  unfold Stray
  rw [isHolding_bound, hassigned, hnamed.tasks htask]
  by_cases hqueue : queue = name
  · -- before it had nothing, and now it has what is assigned to it
    subst hqueue
    have hnothing : ¬ s.workers.isHolding queue other = true :=
      WorkerRegistry.not_isHolding_of_idle hworker hidle other
    rw [if_pos rfl]
    constructor
    · rintro ⟨rfl, hnot⟩
      rw [if_pos rfl] at hnot
      exact absurd rfl hnot
    · rintro ⟨hholding, -⟩
      exact absurd hholding hnothing
  · rw [if_neg hqueue]
    refine and_congr_right fun _ => not_congr ?_
    split
    · rename_i hid
      subst hid
      exact ⟨fun h => absurd h.symm hqueue, fun h => absurd h hfree⟩
    · exact Iff.rfl

end DispatchState

namespace Moves

variable [Quantity α] {onlyPending : Prop} {s s' : DispatchState α} {act : Act α} {acts : List (Act α)}

/-- No move but an eviction gives a worker a task that is not assigned to it, and none but its leave takes it. -/
private theorem stray_iff_of_move (h : Move onlyPending s act s') (hnamed : s.Named) (hs : s.Consistent)
    (hkept : ∀ id sent, act ≠ .expire id sent) (queue id : String) :
    s'.Stray queue id ↔ s.Stray queue id ∧ act ≠ .leave queue := by
  cases h with
  | beat name beatAt now =>
    unfold DispatchState.Stray
    rw [WorkerRegistry.isHolding_registerBeat]
    exact (and_iff_left nofun).symm
  | leave name =>
    have hother : (Act.leave name : Act α) ≠ .leave queue ↔ queue ≠ name := by
      rw [ne_eq, Act.leave.injEq, eq_comm]
    rw [DispatchState.stray_exitWorker hnamed.workers, hother]
  | @accept task hnew hfree =>
    have hunassigned : ¬ s.tasks.isAssigned task.id queue = true := by
      rw [TaskRegistry.isAssigned_iff, hfree]
      rintro ⟨_, h, -⟩
      cases h
    rw [DispatchState.stray_putTask hunassigned hnew.assignedTo]
    exact (and_iff_left nofun).symm
  | @replace task old now hnew hold =>
    have hgone : ¬ ((s.releaseWorkerOf old task.id now).forget task.id).tasks.isAssigned task.id queue = true := by
      rw [DispatchState.isAssigned_forget]
      exact fun h => h.1 rfl
    rw [hnamed.tasks hold, ← DispatchState.putTask_forget, DispatchState.stray_putTask hgone hnew.assignedTo,
      DispatchState.stray_forget_releaseWorkerOf hold]
    exact (and_iff_left nofun).symm
  | start now htask hwaits _ hworker hidle =>
    rw [DispatchState.stray_bound hnamed hs now htask hwaits hworker hidle]
    exact (and_iff_left nofun).symm
  | finish now _ htask | drop now htask =>
    rw [DispatchState.stray_forget_releaseWorkerOf htask]
    exact (and_iff_left nofun).symm
  | defer now htask =>
    rw [DispatchState.stray_putTask_releaseWorkerOf htask]
    exact (and_iff_left nofun).symm
  | @giveUp name task sent htask hwaits =>
    have hunassigned : ¬ s.tasks.isAssigned name queue = true := by
      rw [DispatchState.isAssigned_of_get? htask]
      exact hs.assignedTo_ne_some htask hwaits queue
    rw [DispatchState.stray_forget hunassigned]
    exact (and_iff_left nofun).symm
  | @expire name _ sent => exact absurd rfl (hkept name sent)

theorem stray_iff (h : Moves onlyPending s acts s') (hnamed : s.Named) (hs : s.Consistent)
    (hkept : ∀ id sent, .expire id sent ∉ acts) (queue id : String) :
    s'.Stray queue id ↔ s.Stray queue id ∧ .leave queue ∉ acts := by
  induction h with
  | nil => simp
  | @cons s middle s' act acts hmove _ ih =>
    have hfirst : ∀ id sent, act ≠ .expire id sent := by
      rintro id sent rfl
      exact hkept id sent (List.mem_cons_self ..)
    have hrest : ∀ id sent, .expire id sent ∉ acts := fun id sent hmem => hkept id sent (List.mem_cons_of_mem _ hmem)
    rw [ih (hmove.named hnamed) (hs.move hnamed hmove) hrest, stray_iff_of_move hmove hnamed hs hfirst, List.mem_cons,
      not_or, and_assoc]
    exact and_congr_right fun _ => and_congr_left fun _ => ne_comm

/-- A worker that is not there comes by a beat only. -/
private theorem get?_eq_none_of_move (h : Move onlyPending s act s') {queue : String} (hbeat : act ≠ .beat queue)
    (hnone : s.workers.workers.get? queue = none) : s'.workers.workers.get? queue = none := by
  rw [Option.eq_none_iff_forall_ne_some] at hnone ⊢
  intro worker hworker
  cases h with
  | beat name beatAt now =>
    rcases WorkerRegistry.get?_registerBeat hworker with ⟨old, _, hold, -⟩ | ⟨-, rfl, -⟩
    · exact hnone old hold
    · exact hbeat rfl
  | leave name =>
    rw [DispatchState.get?_workers_exitWorker] at hworker
    split at hworker
    · cases hworker
    · exact hnone worker hworker
  | @start id name task w now htask hwaits _ hthere =>
    change (s.workers.workers.insert name (w.turnedTo task now)).get? queue = some worker at hworker
    rw [Table.get?_insert] at hworker
    split at hworker
    · rename_i hqueue
      -- a start needs its worker to be there
      subst hqueue
      exact hnone w hthere
    · exact hnone worker hworker
  | replace | finish | drop | defer =>
    obtain ⟨old, hold, -⟩ := DispatchState.exists_of_get?_releaseWorkerOf hworker
    exact hnone old hold
  | accept | giveUp | expire => exact hnone worker hworker

theorem get?_eq_none_of_leave_mem (h : Moves onlyPending s acts s') {queue : String} (hbeat : .beat queue ∉ acts)
    (hleave : .leave queue ∈ acts ∨ s.workers.workers.get? queue = none) :
    s'.workers.workers.get? queue = none := by
  induction h with
  | nil =>
    rcases hleave with hmem | hnone
    · cases hmem
    · exact hnone
  | @cons s middle s' act acts hmove _ ih =>
    have hfirst : act ≠ .beat queue := by
      rintro rfl
      exact hbeat (List.mem_cons_self ..)
    refine ih (fun hmem => hbeat (List.mem_cons_of_mem _ hmem)) ?_
    rcases hleave with hmem | hnone
    · rcases List.mem_cons.1 hmem with rfl | hlater
      · right
        cases hmove
        rw [DispatchState.get?_workers_exitWorker, if_pos rfl]
      · exact .inl hlater
    · exact .inr (get?_eq_none_of_move hmove hfirst hnone)

/-- A worker stays stray through all moves but evictions as long as it is there. -/
theorem stray_iff_of_stays (h : Moves onlyPending s acts s') (hnamed : s.Named) (hs : s.Consistent)
    (hkept : ∀ id sent, .expire id sent ∉ acts) {queue : String} (hbeat : .leave queue ∈ acts → .beat queue ∉ acts)
    (id : String) :
    s'.Stray queue id ↔ s.Stray queue id ∧ s'.workers.workers.get? queue ≠ none := by
  have hstray := h.stray_iff hnamed hs hkept queue id
  constructor
  · intro hafter
    obtain ⟨worker, hworker, -⟩ := WorkerRegistry.isHolding_iff.1 hafter.1
    refine ⟨(hstray.1 hafter).1, ?_⟩
    rw [hworker]
    exact nofun
  · rintro ⟨hbefore, hthere⟩
    refine hstray.2 ⟨hbefore, fun hleave => hthere ?_⟩
    exact h.get?_eq_none_of_leave_mem (hbeat hleave) (.inl hleave)

end Moves

namespace DispatchState

/-! ### Workers left behind -/

variable [Quantity α] [Outlet σ]

/-- The event takes the task of a worker without releasing it: a round of the failure detector gives up a task whose
result has waited too long, and the worker to which the task is assigned is busy with it and not silent. -/
def Strands (s : DispatchState α) (queue id : String) : Event α σ → Prop
  | .round threshold _ now =>
    ∃ worker task failedAt,
      s.workers.workers.get? queue = some worker ∧ worker.busy = true ∧ worker.currentTask = some id ∧
      worker.isSilentFor now threshold = false ∧
      s.tasks.tasks.get? id = some task ∧ task.assignedTo = some queue ∧
      task.forwardFailedAt = some failedAt ∧ Instant.seconds threshold ≤ now - failedAt
  | _ => False

/-- One of the events took the task of the worker without releasing it, and the worker has been there ever since. -/
inductive LeftBehind (s : DispatchState α) : List (Event α σ) → String → String → Prop
  | strands {events e queue id} : (s.run events).Strands queue id e → LeftBehind s (events ++ [e]) queue id
  | stays {events e queue id} : LeftBehind s events queue id →
    ((s.run events).after e).workers.workers.get? queue ≠ none → LeftBehind s (events ++ [e]) queue id

theorem leftBehind_concat {s : DispatchState α} {events : List (Event α σ)} {e : Event α σ} {queue id : String} :
    LeftBehind s (events ++ [e]) queue id ↔
      (LeftBehind s events queue id ∧ ((s.run events).after e).workers.workers.get? queue ≠ none) ∨
        (s.run events).Strands queue id e := by
  constructor
  · generalize hall : events ++ [e] = all
    intro h
    cases h with
    | strands h =>
      obtain ⟨rfl, heq⟩ := List.append_inj' hall rfl
      obtain rfl := List.singleton_inj.1 heq
      exact .inr h
    | stays h hthere =>
      obtain ⟨rfl, heq⟩ := List.append_inj' hall rfl
      obtain rfl := List.singleton_inj.1 heq
      exact .inl ⟨h, hthere⟩
  · rintro (⟨h, hthere⟩ | h)
    · exact .stays h hthere
    · exact .strands h

/-- No event makes a worker leave and join again. -/
private theorem beat_notMem_acts {s : DispatchState α} {e : Event α σ} {queue : String}
    (hleave : .leave queue ∈ s.acts e) : .beat queue ∉ s.acts e := by
  intro hbeat
  have hjoins := permits_of_mem_acts hbeat
  have hleaves := permits_of_mem_acts hleave
  cases e with
  | registration message now => exact hjoins hleaves
  | work | pass | response | round => exact hjoins

/-- Only rounds evict. -/
private theorem expire_notMem_acts {s : DispatchState α} {e : Event α σ}
    (he : ∀ threshold outlet now, e ≠ .round threshold outlet now) (id : String) (sent : List Sent) :
    .expire id sent ∉ s.acts e := by
  intro hexpire
  have hevicts := permits_of_mem_acts hexpire
  cases e with
  | round threshold outlet now => exact he threshold outlet now rfl
  | registration | work | pass | response => exact hevicts

omit [Outlet σ] in
/-- What a round does before it gives up tasks for the sake of their results. -/
private theorem exists_moves_before_eviction {s : DispatchState α} (hnamed : s.Named) (now : Instant)
    (threshold : Int) :
    ∃ acts, Moves False s acts (s.sweep now threshold).2.evictExhausted.2 ∧
      (∀ id sent, .expire id sent ∉ acts) ∧ ∀ queue, .beat queue ∉ acts := by
  have hsweep : Moves False s _ (s.sweep now threshold).2 := moves_sweep hnamed now threshold
  let told : List (Task α × List Sent) := (s.sweep now threshold).2.evictExhausted.1.map fun task => (task, [])
  have htold : told.map (·.1) = (s.sweep now threshold).2.evictExhausted.1 := by
    rw [List.map_map]
    exact List.map_id _
  have hnotified : ∀ notice ∈ told, notice.1.Notified notice.2 := by
    intro notice hmem
    obtain ⟨task, -, rfl⟩ := List.mem_map.1 hmem
    exact .inl rfl
  have hmoves := hsweep.append (moves_evictExhausted (hsweep.named hnamed) htold hnotified)
  exact ⟨_, hmoves, by simp, by simp⟩

omit [Outlet σ] in
/-- Before the eviction of a round, the tasks that are about to be taken from workers are with those workers that are
not silent. -/
private theorem strands_round_iff {s : DispatchState α} (hnamed : s.Named) (hs : s.Consistent) (threshold : Int)
    (outlet : σ) (now : Instant) (queue id : String) :
    ((s.sweep now threshold).2.evictExhausted.2.workers.isHolding queue id = true ∧
      (s.sweep now threshold).2.evictExhausted.2.tasks.isAssigned id queue = true ∧
      id ∈ (s.sweep now threshold).2.evictExhausted.2.tasks.unredelivered now threshold) ↔
      s.Strands queue id (.round threshold outlet now) := by
  have hsweep : Moves False s _ (s.sweep now threshold).2 := moves_sweep hnamed now threshold
  have hswept := hsweep.named hnamed
  obtain ⟨_, hmoves, -, -⟩ := exists_moves_before_eviction hnamed now threshold
  have hleft := hmoves.named hnamed
  rw [WorkerRegistry.isHolding_iff, TaskRegistry.isAssigned_iff, TaskRegistry.mem_unredelivered hleft.tasks]
  change (∃ worker, (s.sweep now threshold).2.workers.workers.get? queue = some worker ∧ _) ∧ _ ↔ _
  rw [get?_workers_sweep, get?_evictExhausted]
  constructor
  · rintro ⟨⟨worker, hworker, hbusy, hcurrent⟩, ⟨task, htask, hassigned⟩, other, failedAt, hother, hfailed, hlate⟩
    split at hworker
    · cases hworker
    rename_i hstays
    obtain rfl := Option.some.inj (htask.symm.trans hother)
    split at htask
    · cases htask
    -- the sweep did not touch the task, since the worker stays
    have hbefore := (get?_tasks_sweep_of_assignedTo hnamed.workers hstays hassigned).1 htask
    have hheard : worker.isSilentFor now threshold = false := by
      rw [Bool.eq_false_iff]
      intro hsilent
      exact hstays ((WorkerRegistry.mem_silentQueues hnamed.workers).2 ⟨worker, hworker, hsilent⟩)
    exact ⟨worker, task, failedAt, hworker, hbusy, hcurrent, hheard, hbefore, hassigned, hfailed, hlate⟩
  · rintro ⟨worker, task, failedAt, hworker, hbusy, hcurrent, hheard, htask, hassigned, hfailed, hlate⟩
    have hstays : queue ∉ s.workers.silentQueues now threshold := by
      rw [WorkerRegistry.mem_silentQueues hnamed.workers]
      rintro ⟨w, hw, hsilent⟩
      obtain rfl := Option.some.inj (hworker.symm.trans hw)
      exact absurd (hsilent.symm.trans hheard) nofun
    have hafter := (get?_tasks_sweep_of_assignedTo hnamed.workers hstays hassigned).2 htask
    -- it is started, since it is assigned, so it is not given up as exhausted
    have hkept : id ∉ (s.sweep now threshold).2.tasks.exhausted := by
      rw [TaskRegistry.mem_exhausted hswept.tasks]
      rintro ⟨t, ht, hwaits, -⟩
      obtain rfl := Option.some.inj (hafter.symm.trans ht)
      exact hs.assignedTo_ne_some htask hwaits queue hassigned
    rw [if_neg hstays, if_neg hkept]
    exact ⟨⟨worker, hworker, hbusy, hcurrent⟩, ⟨task, hafter, hassigned⟩, task, failedAt, hafter, hfailed, hlate⟩

/-- A worker is stray after an event if it was before and is still there, or if the event leaves it behind. -/
theorem stray_after_iff {s : DispatchState α} (hnamed : s.Named) (hs : s.Consistent) (e : Event α σ)
    (queue id : String) :
    (s.after e).Stray queue id ↔
      (s.Stray queue id ∧ (s.after e).workers.workers.get? queue ≠ none) ∨ s.Strands queue id e := by
  by_cases hround : ∃ threshold outlet now, e = .round threshold outlet now
  · obtain ⟨threshold, outlet, now, rfl⟩ := hround
    obtain ⟨acts, hmoves, hkept, hnobeat⟩ := exists_moves_before_eviction hnamed now threshold
    have hstays := hmoves.stray_iff_of_stays hnamed hs hkept (fun _ => hnobeat queue) id
    rw [after_round, stray_evictUnredelivered, strands_round_iff hnamed hs threshold outlet, hstays]
    exact Iff.rfl
  · have hnot : ∀ threshold outlet now, e ≠ .round threshold outlet now := by
      rintro threshold outlet now rfl
      exact hround ⟨threshold, outlet, now, rfl⟩
    have hnothing : ¬ s.Strands queue id e := by
      cases e with
      | round threshold outlet now => exact absurd rfl (hnot threshold outlet now)
      | registration | work | pass | response => exact not_false
    have hmoves : Moves False s (s.acts e) (s.after e) := moves_after hnamed e nofun
    rw [hmoves.stray_iff_of_stays hnamed hs (expire_notMem_acts hnot) beat_notMem_acts, or_iff_left hnothing]

/-- After a run, the workers with tasks not assigned to them are those that were left behind. -/
theorem stray_run_iff (staleAfter : Int) (ceiling : Nat) (responseQueue : String) (publishTimeoutMillis : Nat)
    (events : List (Event α σ)) (queue id : String) :
    ((start staleAfter ceiling responseQueue publishTimeoutMillis).run events).Stray queue id ↔
      LeftBehind (start staleAfter ceiling responseQueue publishTimeoutMillis) events queue id := by
  -- induction on the run from its end: the last event is the one that can leave the worker behind
  refine foldl_induction (motive := fun events (s : DispatchState α) => s.Stray queue id ↔
    LeftBehind (start staleAfter ceiling responseQueue publishTimeoutMillis) events queue id) ?_ ?_ events
  · constructor
    · intro h
      obtain ⟨worker, hworker, -⟩ := WorkerRegistry.isHolding_iff.1 h.1
      cases hworker
    · generalize hnil : ([] : List (Event α σ)) = all
      intro h
      cases h with
      | strands => exact absurd hnil.symm (List.append_ne_nil_of_right_ne_nil _ nofun)
      | stays => exact absurd hnil.symm (List.append_ne_nil_of_right_ne_nil _ nofun)
  · intro events e ih
    have hnamed := named_run (named_start (α := α) staleAfter ceiling responseQueue publishTimeoutMillis) events
    have hconsistent := consistent_run (α := α) staleAfter ceiling responseQueue publishTimeoutMillis events
    rw [leftBehind_concat, ← ih]
    exact stray_after_iff hnamed hconsistent e queue id

/-- The task is tracked and started, and is assigned to the worker. -/
def Backed (s : DispatchState α) (queue id : String) : Prop :=
  ∃ task, s.tasks.tasks.get? id = some task ∧ task.started = true ∧ task.assignedTo = some queue

omit [Quantity α] [Outlet σ] in
private theorem stray_iff_not_backed {s : DispatchState α} (hs : s.Consistent) {queue id : String}
    (hholding : s.workers.isHolding queue id = true) : s.Stray queue id ↔ ¬ s.Backed queue id := by
  refine (and_iff_right hholding).trans (not_congr ?_)
  rw [TaskRegistry.isAssigned_iff]
  constructor
  · rintro ⟨task, htask, hassigned⟩
    exact ⟨task, htask, hs.started_of_assignedTo htask hassigned, hassigned⟩
  · rintro ⟨task, htask, -, hassigned⟩
    exact ⟨task, htask, hassigned⟩

omit [Quantity α] [Outlet σ] in
/-- A task is assigned to one worker. -/
private theorem Backed.unique {s : DispatchState α} {queue other id : String} (h : s.Backed queue id)
    (h' : s.Backed other id) : other = queue := by
  obtain ⟨task, htask, -, hassigned⟩ := h
  obtain ⟨task', htask', -, hassigned'⟩ := h'
  obtain rfl := Option.some.inj (htask.symm.trans htask')
  exact Option.some.inj (hassigned'.symm.trans hassigned)

omit [Quantity α] in
/-- The result of a task frees the worker to which the task is assigned. -/
private theorem Backed.freed {s : DispatchState α} {queue id : String} {worker : Worker} (h : s.Backed queue id)
    (hworker : s.workers.workers.get? queue = some worker) (hholding : s.workers.isHolding queue id = true)
    (body : Bytes) (redelivered : Bool) (outlet : σ) (now : Instant) :
    (s.processResponse id body redelivered outlet now).1 ≠ .error (.unknownCorrelation id) ∧
      (s.processResponse id body redelivered outlet now).2.1.workers.workers.get? queue = some (worker.freed now) := by
  obtain ⟨task, htask, -, hassigned⟩ := h
  obtain ⟨hknown, hworkers⟩ := workers_processResponse htask body redelivered outlet now
  refine ⟨hknown, ?_⟩
  rw [hworkers]
  exact get?_releaseWorkerOf_of_isHolding hworker hassigned hholding now

omit [Quantity α] in
/-- No result frees a worker that has a task not assigned to it. -/
private theorem Stray.kept {s : DispatchState α} {queue id : String} {worker : Worker} (h : s.Stray queue id)
    (hworker : s.workers.workers.get? queue = some worker) (correlation : String) (body : Bytes) (redelivered : Bool)
    (outlet : σ) (now : Instant) :
    (s.processResponse correlation body redelivered outlet now).2.1.workers.workers.get? queue = some worker := by
  cases htask : s.tasks.tasks.get? correlation with
  | none =>
    rcases s.processResponse_cases correlation body redelivered outlet now with ⟨-, hunknown⟩ | ⟨task, hthere, -⟩
    · rw [hunknown]
      exact hworker
    · rw [htask] at hthere
      cases hthere
  | some task =>
    rw [(workers_processResponse htask body redelivered outlet now).2]
    refine get?_releaseWorkerOf_of_some hworker fun hassigned hcurrent => h.2 ?_
    obtain ⟨w, hw, -, hid⟩ := WorkerRegistry.isHolding_iff.1 h.1
    obtain rfl := Option.some.inj (hworker.symm.trans hw)
    obtain rfl : correlation = id := Option.some.inj (hcurrent.symm.trans hid)
    exact TaskRegistry.isAssigned_iff.2 ⟨task, htask, hassigned⟩

/-- A busy worker has a task, and the task is its own, unless a round took the task and left the worker behind.  A task
of its own is the task of no other worker, and its result frees the worker; nothing that comes in frees a worker left
behind. -/
theorem backed_iff_not_leftBehind (staleAfter : Int) (ceiling : Nat) (responseQueue : String)
    (publishTimeoutMillis : Nat) (events : List (Event α σ)) {queue : String} {worker : Worker}
    (hworker : ((start staleAfter ceiling responseQueue publishTimeoutMillis :
      DispatchState α).run events).workers.workers.get? queue = some worker) (hbusy : worker.busy = true) :
    let s : DispatchState α := (start staleAfter ceiling responseQueue publishTimeoutMillis).run events
    ∃ id, worker.currentTask = some id ∧
      (s.Backed queue id ↔ ¬ LeftBehind (start staleAfter ceiling responseQueue publishTimeoutMillis) events queue id) ∧
      (s.Backed queue id → (∀ other, s.Backed other id → other = queue) ∧
        ∀ body redelivered (outlet : σ) now,
          (s.processResponse id body redelivered outlet now).1 ≠ .error (.unknownCorrelation id) ∧
          (s.processResponse id body redelivered outlet now).2.1.workers.workers.get? queue =
            some (worker.freed now)) ∧
      (LeftBehind (start staleAfter ceiling responseQueue publishTimeoutMillis) events queue id →
        ∀ correlation body redelivered (outlet : σ) now,
          (s.processResponse correlation body redelivered outlet now).2.1.workers.workers.get? queue =
            some worker) := by
  intro s
  have hconsistent : s.Consistent := consistent_run staleAfter ceiling responseQueue publishTimeoutMillis events
  have hoccupied : s.workers.Occupied :=
    invariant_run (motive := fun s => s.workers.Occupied) (fun _ hmove => hmove.occupied) (named_start ..) nofun events
  obtain ⟨id, hid⟩ := hoccupied hworker hbusy
  have hholding : s.workers.isHolding queue id = true :=
    WorkerRegistry.isHolding_iff.2 ⟨worker, hworker, hbusy, hid⟩
  have hstray := stray_run_iff staleAfter ceiling responseQueue publishTimeoutMillis events queue id
  refine ⟨id, hid, ?_, ?_, ?_⟩
  · rw [← hstray, stray_iff_not_backed hconsistent hholding, not_not]
  · intro hbacked
    exact ⟨fun other hother => hbacked.unique hother, hbacked.freed hworker hholding⟩
  · intro hleft
    exact (hstray.2 hleft).kept hworker

/-- The result of a task comes when its worker is gone, and cannot be forwarded.  The task is started on another
worker, and is given up there for the sake of its first result. -/
def evictedAtWork : List (Event Rat Publication) :=
  [.registration ⟨"a", .register, 0⟩ 0,
    .work "t" ⟨"model", 1 / 2, 3⟩ 10 1000000 ⟨Bytes.ofText "{}", some "caller", none⟩ 1000000,
    .pass (CostModel.select ⟨60, 1⟩) .accepted 2000000,
    .registration ⟨"a", .exit, 3⟩ 3000000,
    .response "t" (Bytes.ofText "{}") false .stalled 4000000,
    .registration ⟨"b", .register, 5⟩ 5000000,
    .pass (CostModel.select ⟨60, 1⟩) .accepted 6000000,
    .registration ⟨"b", .beat, 30⟩ 30000000,
    .round 30 .accepted 40000000]

private theorem get?_run_evictedAtWork :
    (∃ worker, ((start 30 3 "results" 10000).run evictedAtWork).workers.workers.get? "b" = some worker ∧
      worker.busy = true ∧ worker.currentTask = some "t") ∧
      ((start 30 3 "results" 10000).run evictedAtWork).tasks.tasks.get? "t" = none := by
  have hthere : (((start 30 3 "results" 10000).run evictedAtWork).workers.workers.get? "b").map
      (fun worker => (worker.busy, worker.currentTask)) = some (true, some "t") := by decide +kernel
  have hgone : (((start 30 3 "results" 10000).run evictedAtWork).tasks.tasks.get? "t").isSome = false := by
    decide +kernel
  obtain ⟨worker, hworker, heq⟩ := Option.map_eq_some_iff.1 hthere
  obtain ⟨hbusy, hcurrent⟩ := Prod.mk.inj heq
  exact ⟨⟨worker, hworker, hbusy, hcurrent⟩, Option.isSome_eq_false_iff.1 hgone |> Option.isNone_iff_eq_none.1⟩

theorem leftBehind_evictedAtWork :
    ∃ worker id, ((start 30 3 "results" 10000).run evictedAtWork).workers.workers.get? "b" = some worker ∧
      worker.busy = true ∧ worker.currentTask = some id ∧
      LeftBehind (start 30 3 "results" 10000) evictedAtWork "b" id := by
  obtain ⟨⟨worker, hworker, hbusy, hcurrent⟩, hgone⟩ := get?_run_evictedAtWork
  obtain ⟨id, hid, hiff, -⟩ := backed_iff_not_leftBehind 30 3 "results" 10000 evictedAtWork hworker hbusy
  refine ⟨worker, id, hworker, hbusy, hid, ?_⟩
  by_contra hnot
  obtain ⟨task, htask, -⟩ := hiff.2 hnot
  obtain rfl : "t" = id := Option.some.inj (hcurrent.symm.trans hid)
  rw [hgone] at htask
  cases htask

/-- Not every busy worker has a task of its own. -/
theorem not_forall_backed :
    ¬ ∀ (events : List (Event Rat Publication)) (queue : String) (worker : Worker),
      ((start 30 3 "results" 10000).run events).workers.workers.get? queue = some worker → worker.busy = true →
        ∃ id, worker.currentTask = some id ∧ ((start 30 3 "results" 10000).run events).Backed queue id := by
  intro hall
  obtain ⟨⟨worker, hworker, hbusy, hcurrent⟩, hgone⟩ := get?_run_evictedAtWork
  obtain ⟨id, hid, task, htask, -⟩ := hall evictedAtWork "b" worker hworker hbusy
  obtain rfl : "t" = id := Option.some.inj (hcurrent.symm.trans hid)
  rw [hgone] at htask
  cases htask

end DispatchState

end SpeechDispatch
