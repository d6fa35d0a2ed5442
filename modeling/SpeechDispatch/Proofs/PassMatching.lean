import Mathlib.Data.List.Nodup
import SpeechDispatch.Proofs.EventMoves
import SpeechDispatch.Proofs.Transcript

/-!
# A pass matches idle workers with waiting tasks

Whatever the strategy names, and whatever becomes of the messages, a pass starts tasks on workers one to one and leaves
everything else as it was.

* `DispatchState.Matches`: between two states the workers of some pairs started on the tasks of these pairs, and nothing
  else happened.
* `Hub.Offered`: what came of offers to some workers; one offer after another is an offer to all of them
  (`Hub.Offered.append`), so what holds of one offer holds of a pass.
* `DispatchState.matches_pass`: what a pass attempts, whom it starts on what, and what number it yields.
-/

namespace SpeechDispatch

variable {α σ : Type}

namespace DispatchState

/-- The worker is busy with the task, and the task is started on the worker. -/
def AtWork (s : DispatchState α) (queue id : String) : Prop :=
  s.workers.isHolding queue id = true ∧
    ∃ task, s.tasks.tasks.get? id = some task ∧ task.started = true ∧ task.assignedTo = some queue

/-! ### Matchings between states -/

variable [Quantity α]

/-- Between two states, the worker of each pair started on the task of the pair, and nothing else happened. -/
structure Matches (s s' : DispatchState α) (now : Instant) (pairs : List (String × String)) : Prop where
  nodup_workers : (pairs.map Prod.fst).Nodup
  nodup_tasks : (pairs.map Prod.snd).Nodup
  started : ∀ {queue id}, (queue, id) ∈ pairs → ∃ worker task,
    s.workers.workers.get? queue = some worker ∧ worker.busy = false ∧
    s.tasks.tasks.get? id = some task ∧ task.started = false ∧
    s'.workers.workers.get? queue = some (worker.turnedTo task now) ∧
    s'.tasks.tasks.get? id = some (task.startedOn queue)
  worker_eq : ∀ {queue}, queue ∉ pairs.map Prod.fst → s'.workers.workers.get? queue = s.workers.workers.get? queue
  task_eq : ∀ {id}, id ∉ pairs.map Prod.snd → s'.tasks.tasks.get? id = s.tasks.tasks.get? id
  settings_eq : s'.settings = s.settings

namespace Matches

variable {s s' s'' : DispatchState α} {now : Instant} {pairs pairs' : List (String × String)} {queue id : String}

theorem refl (s : DispatchState α) (now : Instant) : s.Matches s now [] where
  nodup_workers := .nil
  nodup_tasks := .nil
  started := nofun
  worker_eq _ := rfl
  task_eq _ := rfl
  settings_eq := rfl

/-- The start of one task is a matching of one pair. -/
theorem bound {task : Task α} {worker : Worker} (htask : s.tasks.tasks.get? id = some task)
    (hwaits : task.started = false) (hworker : s.workers.workers.get? queue = some worker)
    (hidle : worker.busy = false) : s.Matches (s.bound task worker id queue now) now [(queue, id)] where
  nodup_workers := List.nodup_singleton _
  nodup_tasks := List.nodup_singleton _
  started hmem := by
    obtain ⟨rfl, rfl⟩ := Prod.mk.inj (List.mem_singleton.1 hmem)
    exact ⟨worker, task, hworker, hidle, htask, hwaits, Table.get?_insert_self .., Table.get?_insert_self ..⟩
  worker_eq hnot := Table.get?_insert_of_ne _ _ fun heq => hnot (List.mem_singleton.2 heq)
  task_eq hnot := Table.get?_insert_of_ne _ _ fun heq => hnot (List.mem_singleton.2 heq)
  settings_eq := rfl

variable (h : s.Matches s' now pairs)

include h

theorem exists_worker (hqueue : queue ∈ pairs.map Prod.fst) :
    ∃ (worker : Worker) (task : Task α), s.workers.workers.get? queue = some worker ∧ worker.busy = false ∧
      s'.workers.workers.get? queue = some (worker.turnedTo task now) := by
  obtain ⟨⟨name, id⟩, hmem, rfl⟩ := List.mem_map.1 hqueue
  obtain ⟨worker, task, hworker, hidle, -, -, hturned, -⟩ := h.started hmem
  exact ⟨worker, task, hworker, hidle, hturned⟩

theorem exists_task (hid : id ∈ pairs.map Prod.snd) :
    ∃ task worker, s.tasks.tasks.get? id = some task ∧ task.started = false ∧
      s'.tasks.tasks.get? id = some (task.startedOn worker) := by
  obtain ⟨⟨worker, name⟩, hmem, rfl⟩ := List.mem_map.1 hid
  obtain ⟨-, task, -, -, htask, hwaits, -, hstarted⟩ := h.started hmem
  exact ⟨task, worker, htask, hwaits, hstarted⟩

/-- A worker that was busy is as it was. -/
theorem worker_eq_of_busy {worker : Worker} (hworker : s.workers.workers.get? queue = some worker)
    (hbusy : worker.busy = true) : s'.workers.workers.get? queue = some worker := by
  rw [h.worker_eq, hworker]
  intro hmem
  obtain ⟨other, -, hother, hidle, -⟩ := h.exists_worker hmem
  obtain rfl := Option.some.inj (hworker.symm.trans hother)
  exact absurd (hbusy.symm.trans hidle) nofun

/-- A task that was started is as it was. -/
theorem task_eq_of_started {task : Task α} (htask : s.tasks.tasks.get? id = some task)
    (hstarted : task.started = true) : s'.tasks.tasks.get? id = some task := by
  rw [h.task_eq, htask]
  intro hmem
  obtain ⟨other, -, hother, hwaits, -⟩ := h.exists_task hmem
  obtain rfl := Option.some.inj (htask.symm.trans hother)
  exact absurd (hstarted.symm.trans hwaits) nofun

theorem isSome_worker (queue : String) :
    (s'.workers.workers.get? queue).isSome = (s.workers.workers.get? queue).isSome := by
  by_cases hmem : queue ∈ pairs.map Prod.fst
  · obtain ⟨_, _, hworker, -, hturned⟩ := h.exists_worker hmem
    rw [hworker, hturned]
    rfl
  · rw [h.worker_eq hmem]

theorem isSome_task (id : String) : (s'.tasks.tasks.get? id).isSome = (s.tasks.tasks.get? id).isSome := by
  by_cases hmem : id ∈ pairs.map Prod.snd
  · obtain ⟨_, _, htask, -, hstarted⟩ := h.exists_task hmem
    rw [htask, hstarted]
    rfl
  · rw [h.task_eq hmem]

theorem named (hs : s.Named) : s'.Named := by
  constructor
  · intro queue worker hworker
    by_cases hmem : queue ∈ pairs.map Prod.fst
    · obtain ⟨old, task, hold, -, hturned⟩ := h.exists_worker hmem
      obtain rfl := Option.some.inj (hturned.symm.trans hworker)
      exact (hs.workers hold : old.queue = queue)
    · rw [h.worker_eq hmem] at hworker
      exact hs.workers hworker
  · intro id task htask
    by_cases hmem : id ∈ pairs.map Prod.snd
    · obtain ⟨old, worker, hold, -, hstarted⟩ := h.exists_task hmem
      obtain rfl := Option.some.inj (hstarted.symm.trans htask)
      exact (hs.tasks hold : old.id = id)
    · rw [h.task_eq hmem] at htask
      exact hs.tasks htask

/-- The message of a task is the same before and after. -/
theorem dispatchMessage_eq {task : Task α} (htask : s'.tasks.tasks.get? id = some task) :
    ∃ before, s.tasks.tasks.get? id = some before ∧ s'.dispatchMessage task = s.dispatchMessage before := by
  have hqueue : s'.responseQueue = s.responseQueue := congrArg DispatchSettings.responseQueue h.settings_eq
  by_cases hmem : id ∈ pairs.map Prod.snd
  · obtain ⟨before, worker, hbefore, -, hstarted⟩ := h.exists_task hmem
    obtain rfl := Option.some.inj (hstarted.symm.trans htask)
    refine ⟨before, hbefore, ?_⟩
    rw [dispatchMessage, dispatchMessage, hqueue]
    rfl
  · rw [h.task_eq hmem] at htask
    refine ⟨task, htask, ?_⟩
    rw [dispatchMessage, dispatchMessage, hqueue]

/-- Whoever started first is busy by then, so later matchings have other workers. -/
private theorem disjoint_workers (h' : s'.Matches s'' now pairs') :
    (pairs.map Prod.fst).Disjoint (pairs'.map Prod.fst) := by
  intro queue hmem hmem'
  obtain ⟨worker, task, -, -, hturned⟩ := h.exists_worker hmem
  obtain ⟨other, -, hother, hidle, -⟩ := h'.exists_worker hmem'
  obtain rfl := Option.some.inj (hturned.symm.trans hother)
  exact absurd hidle nofun

/-- What was started first is started by then, so later matchings have other tasks. -/
private theorem disjoint_tasks (h' : s'.Matches s'' now pairs') :
    (pairs.map Prod.snd).Disjoint (pairs'.map Prod.snd) := by
  intro id hmem hmem'
  obtain ⟨task, worker, -, -, hstarted⟩ := h.exists_task hmem
  obtain ⟨other, -, hother, hwaits, -⟩ := h'.exists_task hmem'
  obtain rfl := Option.some.inj (hstarted.symm.trans hother)
  exact absurd hwaits nofun

theorem trans (h' : s'.Matches s'' now pairs') : s.Matches s'' now (pairs ++ pairs') where
  nodup_workers := by
    rw [List.map_append]
    exact h.nodup_workers.append h'.nodup_workers (h.disjoint_workers h')
  nodup_tasks := by
    rw [List.map_append]
    exact h.nodup_tasks.append h'.nodup_tasks (h.disjoint_tasks h')
  started := by
    intro queue id hmem
    rcases List.mem_append.1 hmem with hmem | hmem
    · obtain ⟨worker, task, hworker, hidle, htask, hwaits, hturned, hstarted⟩ := h.started hmem
      exact ⟨worker, task, hworker, hidle, htask, hwaits, h'.worker_eq_of_busy hturned rfl,
        h'.task_eq_of_started hstarted rfl⟩
    · obtain ⟨worker, task, hworker, hidle, htask, hwaits, hturned, hstarted⟩ := h'.started hmem
      rw [h.worker_eq fun hbefore => h.disjoint_workers h' hbefore (List.mem_map_of_mem hmem)] at hworker
      rw [h.task_eq fun hbefore => h.disjoint_tasks h' hbefore (List.mem_map_of_mem hmem)] at htask
      exact ⟨worker, task, hworker, hidle, htask, hwaits, hturned, hstarted⟩
  worker_eq := by
    intro queue hnot
    rw [List.map_append, List.mem_append, not_or] at hnot
    rw [h'.worker_eq hnot.2, h.worker_eq hnot.1]
  task_eq := by
    intro id hnot
    rw [List.map_append, List.mem_append, not_or] at hnot
    rw [h'.task_eq hnot.2, h.task_eq hnot.1]
  settings_eq := h'.settings_eq.trans h.settings_eq

/-- The pairs are those that are at work afterwards and were not before. -/
theorem mem_iff (hs : s.Named) : (queue, id) ∈ pairs ↔ s'.AtWork queue id ∧ ¬ s.AtWork queue id := by
  constructor
  · intro hmem
    obtain ⟨worker, task, hworker, hidle, htask, -, hturned, hstarted⟩ := h.started hmem
    refine ⟨⟨?_, _, hstarted, rfl, rfl⟩, fun hbefore => ?_⟩
    · exact WorkerRegistry.isHolding_iff.2 ⟨_, hturned, rfl, congrArg some (hs.tasks htask)⟩
    · exact WorkerRegistry.not_isHolding_of_idle hworker hidle id hbefore.1
  · rintro ⟨⟨hholding, task, htask, hstarted, hassigned⟩, hnot⟩
    obtain ⟨worker, hworker, hbusy, hcurrent⟩ := WorkerRegistry.isHolding_iff.1 hholding
    by_cases hqueue : queue ∈ pairs.map Prod.fst
    -- the worker started on something, which is what it is busy with
    · obtain ⟨⟨name, other⟩, hmem, rfl⟩ := List.mem_map.1 hqueue
      obtain ⟨_, old, -, -, hold, -, hturned, -⟩ := h.started hmem
      obtain rfl := Option.some.inj (hturned.symm.trans hworker)
      obtain rfl : other = id := (hs.tasks hold).symm.trans (Option.some.inj hcurrent)
      exact hmem
    by_cases hid : id ∈ pairs.map Prod.snd
    -- the task was started on someone, to whom it is assigned
    · obtain ⟨⟨name, other⟩, hmem, rfl⟩ := List.mem_map.1 hid
      obtain ⟨_, old, -, -, -, -, -, hthere⟩ := h.started hmem
      obtain rfl := Option.some.inj (hthere.symm.trans htask)
      obtain rfl : name = queue := Option.some.inj hassigned
      exact hmem
    · rw [h.worker_eq hqueue] at hworker
      rw [h.task_eq hid] at htask
      exact absurd ⟨WorkerRegistry.isHolding_iff.2 ⟨worker, hworker, hbusy, hcurrent⟩, task, htask, hstarted, hassigned⟩
        hnot

end Matches

end DispatchState

/-! ### Offers -/

/-- The pairs for which messages were accepted: the queue, and the id that the message names. -/
def acceptedPairs (attempts : List Attempt) : List (String × Option String) :=
  (attempts.filter (·.accepted)).map fun attempt => (attempt.queue, attempt.message.correlationId)

namespace Hub

open DispatchState

variable [Quantity α]

/-- What came of offers to some workers: what was attempted, at most once for each worker, and who started on what. -/
structure Offered (h h' : Hub α (Transcript σ)) (now : Instant) (queues : List String) (attempts : List Attempt)
    (pairs : List (String × String)) : Prop where
  attempts_eq : h'.outlet.attempts = h.outlet.attempts ++ attempts
  sublist : (attempts.map Attempt.queue).Sublist queues
  messages : ∀ attempt ∈ attempts, ∃ id task, h.state.tasks.tasks.get? id = some task ∧
    attempt.message = h.state.dispatchMessage task
  accepted : acceptedPairs attempts = pairs.map fun pair => (pair.1, some pair.2)
  matching : h.state.Matches h'.state now pairs

namespace Offered

variable {h h' h'' : Hub α (Transcript σ)} {now : Instant} {queues queues' : List String}
  {attempts attempts' : List Attempt} {pairs pairs' : List (String × String)}

theorem nothing (h : Hub α (Transcript σ)) (now : Instant) (queues : List String) : h.Offered h now queues [] [] where
  attempts_eq := (List.append_nil _).symm
  sublist := List.nil_sublist _
  messages := nofun
  accepted := rfl
  matching := .refl ..

theorem append (hfirst : h.Offered h' now queues attempts pairs) (hthen : h'.Offered h'' now queues' attempts' pairs') :
    h.Offered h'' now (queues ++ queues') (attempts ++ attempts') (pairs ++ pairs') where
  attempts_eq := by rw [hthen.attempts_eq, hfirst.attempts_eq, List.append_assoc]
  sublist := by
    rw [List.map_append]
    exact hfirst.sublist.append hthen.sublist
  messages := by
    intro attempt hattempt
    rcases List.mem_append.1 hattempt with hattempt | hattempt
    · exact hfirst.messages attempt hattempt
    · obtain ⟨id, task, htask, hmessage⟩ := hthen.messages attempt hattempt
      obtain ⟨before, hbefore, hsame⟩ := hfirst.matching.dispatchMessage_eq htask
      exact ⟨id, before, hbefore, hmessage.trans hsame⟩
  accepted := by
    have hsplit : acceptedPairs (attempts ++ attempts') = acceptedPairs attempts ++ acceptedPairs attempts' := by
      simp only [acceptedPairs, List.filter_append, List.map_append]
    rw [hsplit, hfirst.accepted, hthen.accepted, List.map_append]
  matching := hfirst.matching.trans hthen.matching

theorem length_eq (hoffered : h.Offered h' now queues attempts pairs) :
    (attempts.filter (·.accepted)).length = pairs.length := by
  have hlength := congrArg List.length hoffered.accepted
  simpa only [acceptedPairs, List.length_map] using hlength

end Offered

variable [Outlet σ]

/-- A start attempts one message at most, and pairs the worker with the task if the message is accepted. -/
private theorem offered_dispatch (h : Hub α (Transcript σ)) (hs : h.state.Named) (id queue : String) (now : Instant) :
    ∃ attempts pairs, h.Offered (h.dispatch id queue now).2 now [queue] attempts pairs ∧
      pairs.length = (h.dispatch id queue now).1.toNat := by
  unfold dispatch
  rcases h.state.startOn_cases id queue h.outlet now with ⟨e, -, hstart⟩ |
    ⟨task, e, transcript, hguard, hpublish, hstart⟩ |
    ⟨task, worker, transcript, htask, hwaits, hworker, hidle, hpublish, hstart⟩
  · rw [hstart]
    exact ⟨[], [], ⟨(List.append_nil _).symm, List.nil_sublist _, nofun, rfl, .refl ..⟩, rfl⟩
  · obtain ⟨htask, -⟩ := startable_eq_ok.1 hguard
    rw [Transcript.publishWithin_eq] at hpublish
    obtain ⟨hresult, rfl⟩ := Prod.mk.inj hpublish
    rw [hstart, hresult]
    refine ⟨_, [], ⟨rfl, List.Sublist.refl _, ?_, rfl, .refl ..⟩, rfl⟩
    exact List.forall_mem_singleton.2 ⟨id, task, htask, rfl⟩
  · rw [Transcript.publishWithin_eq] at hpublish
    obtain ⟨hresult, rfl⟩ := Prod.mk.inj hpublish
    rw [hstart, hresult]
    refine ⟨_, [(queue, id)], ⟨rfl, List.Sublist.refl _, ?_, ?_, .bound htask hwaits hworker hidle⟩, rfl⟩
    · exact List.forall_mem_singleton.2 ⟨id, task, htask, rfl⟩
    · rw [← hs.tasks htask]
      rfl

private theorem offered_offer (h : Hub α (Transcript σ)) (hs : h.state.Named) (strategy : Strategy α) (queue : String)
    (now : Instant) : ∃ attempts pairs, h.Offered (h.offer strategy queue now).2 now [queue] attempts pairs ∧
      pairs.length = (h.offer strategy queue now).1.toNat := by
  unfold offer
  dsimp only
  split
  · exact ⟨[], [], .nothing .., rfl⟩
  split
  · exact ⟨[], [], .nothing .., rfl⟩
  rename_i index _
  rcases strategy (h.state.workers.snapshot now) h.state.tasks.snapshot index now with e | _ | id
  · exact ⟨[], [], .nothing .., rfl⟩
  · exact ⟨[], [], .nothing .., rfl⟩
  · exact h.offered_dispatch hs id queue now

/-- Offers to one worker after another attempt one message for each of them at most, and count whom they start. -/
theorem offered_offerAll (h : Hub α (Transcript σ)) (hs : h.state.Named) (strategy : Strategy α) (now : Instant)
    (queues : List String) :
    ∃ attempts pairs, h.Offered (h.offerAll strategy now queues).2 now queues attempts pairs ∧
      pairs.length = (h.offerAll strategy now queues).1 := by
  induction queues generalizing h with
  | nil => exact ⟨[], [], .nothing .., rfl⟩
  | cons queue rest ih =>
    obtain ⟨attempts, pairs, hoffered, hcount⟩ := h.offered_offer hs strategy queue now
    obtain ⟨attempts', pairs', hoffered', hcount'⟩ := ih (h.offer strategy queue now).2 (hoffered.matching.named hs)
    refine ⟨attempts ++ attempts', pairs ++ pairs', hoffered.append hoffered', ?_⟩
    rw [List.length_append, hcount, hcount', offerAll]
    dsimp only
    cases (h.offer strategy queue now).1 with
    | true => exact Nat.add_comm ..
    | false => exact Nat.zero_add _

end Hub

/-! ### Passes -/

namespace DispatchState

variable [Quantity α] [Outlet σ]

omit [Quantity α] [Outlet σ] in
/-- Whoever is registered after the removals of a pass has sent a beat not too long ago. -/
theorem not_stale_of_get?_pruneExpired {s : DispatchState α} (hs : s.Named) {now : Instant} {queue : String}
    {worker : Worker} (h : (s.pruneExpired now).2.workers.workers.get? queue = some worker) :
    now - worker.lastBeatAt < Instant.seconds s.workers.staleAfter := by
  unfold pruneExpired at h
  rw [get?_workers_sweep] at h
  split at h
  · cases h
  · rename_i hstays
    rw [WorkerRegistry.mem_silentQueues hs.workers] at hstays
    by_contra hstale
    refine hstays ⟨worker, h, decide_eq_true ?_⟩
    exact Int.not_lt.1 hstale

/-- In every state that can be reached, a pass first removes the workers whose beats are stale.  Then, whatever the
strategy says and whatever becomes of the messages, it starts tasks on workers one to one, adds and removes nothing,
and leaves all others as they were.  It attempts one message at most for each worker, and only for workers that were
idle after the removals; it yields how many messages were accepted, which is how many pairs are new. -/
theorem matches_pass (staleAfter : Int) (ceiling : Nat) (responseQueue : String) (publishTimeoutMillis : Nat)
    (events : List (Event α σ)) (strategy : Strategy α) (outlet : σ) (now : Instant) :
    let s : DispatchState α := (start staleAfter ceiling responseQueue publishTimeoutMillis).run events
    let pruned := (s.pruneExpired now).2
    let result := Hub.pass { state := s, outlet := Transcript.mk outlet [] } strategy now
    let after := result.2.state
    let attempts := result.2.outlet.attempts
    ∃ pairs : List (String × String),
      pruned.Matches after now pairs ∧
      (∀ queue id, (queue, id) ∈ pairs ↔ after.AtWork queue id ∧ ¬ pruned.AtWork queue id) ∧
      (∀ queue, (after.workers.workers.get? queue).isSome = (pruned.workers.workers.get? queue).isSome) ∧
      (∀ id, (after.tasks.tasks.get? id).isSome = (pruned.tasks.tasks.get? id).isSome) ∧
      (∀ queue worker, pruned.workers.workers.get? queue = some worker → worker.busy = true →
        after.workers.workers.get? queue = some worker) ∧
      (attempts.map Attempt.queue).Nodup ∧
      (∀ attempt ∈ attempts, ∃ worker, pruned.workers.workers.get? attempt.queue = some worker ∧
        worker.busy = false ∧ now - worker.lastBeatAt < Instant.seconds staleAfter) ∧
      acceptedPairs attempts = pairs.map (fun pair => (pair.1, some pair.2)) ∧
      result.1 = pairs.length ∧ (attempts.filter (·.accepted)).length = pairs.length ∧
      Hub.pass { state := s, outlet } strategy now = (result.1, result.2.through Transcript.outlet) := by
  intro s pruned result after attempts
  have hs : s.Named := named_run (named_start ..) events
  have hpruned : pruned.Named := hs.sweep now s.workers.staleAfter
  have hstale : s.workers.staleAfter = staleAfter :=
    congrArg DispatchSettings.staleAfter (settings_run (named_start ..) events)
  let h : Hub α (Transcript σ) := { state := s, outlet := Transcript.mk outlet [] }
  obtain ⟨tried, pairs, hoffered, hcount⟩ :=
    (h.prune now).offered_offerAll hpruned strategy now (h.prune now).state.workers.idleQueues
  have hattempts : attempts = tried := by
    change (h.pass strategy now).2.outlet.attempts = tried
    rw [Hub.outlet_pass, hoffered.attempts_eq]
    rfl
  have hafter : pruned.Matches after now pairs := by
    change pruned.Matches (h.pass strategy now).2.state now pairs
    rw [Hub.state_pass]
    exact hoffered.matching
  have hsublist : (attempts.map Attempt.queue).Sublist pruned.workers.idleQueues := by
    rw [hattempts]
    exact hoffered.sublist
  refine ⟨pairs, hafter, fun _ _ => hafter.mem_iff hpruned, hafter.isSome_worker, hafter.isSome_task,
    fun _ _ => hafter.worker_eq_of_busy, ?_, ?_, ?_, ?_, ?_, ?_⟩
  · exact (WorkerRegistry.nodup_idleQueues hpruned.workers).sublist hsublist
  · intro attempt hattempt
    obtain ⟨worker, hworker, hidle⟩ :=
      (WorkerRegistry.mem_idleQueues hpruned.workers).1 (hsublist.subset (List.mem_map_of_mem hattempt))
    refine ⟨worker, hworker, hidle, ?_⟩
    rw [← hstale]
    exact not_stale_of_get?_pruneExpired hs hworker
  · rw [hattempts]
    exact hoffered.accepted
  · change (h.pass strategy now).1 = pairs.length
    rw [Hub.started_pass, hcount]
  · rw [hattempts]
    exact hoffered.length_eq
  · exact h.pass_through Transcript.isView_outlet strategy now

end DispatchState

end SpeechDispatch
