import SpeechDispatch.Proofs.EventMoves

/-!
# The life of a worker

What can become of a worker by one event, and by which.  It joins idle by a beat, turns to a task by a start that
succeeds, is idle again when that task is answered or submitted anew, and is gone by its exit or its silence
(`DispatchState.Turn`).  Nothing else changes its entry, and each of these changes it as it says
(`DispatchState.turns_after_run`).
-/

namespace SpeechDispatch

variable {α σ : Type}

/-- A message that shows a worker to be alive, in time for the registry. -/
structure Registration.IsBeat (message : Registration) (queue : String) (staleAfter : Int) (beatAt now : Instant) :
    Prop where
  kind_ne : message.kind ≠ .exit
  queue_eq : message.queue = queue
  sentAt_eq : message.sentAt = .ok beatAt
  inTime : now - beatAt ≤ Instant.seconds staleAfter

/-! ### The offers of a pass -/

namespace Hub

variable [Quantity α] [Outlet σ]

/-- A start that fails leaves the state as it is; one that succeeds binds an idle worker to the task. -/
theorem dispatch_cases (h : Hub α σ) (id queue : String) (now : Instant) :
    ((h.state.startOn id queue h.outlet now).1 ≠ .ok () ∧ (h.dispatch id queue now).2.state = h.state) ∨
    ((h.state.startOn id queue h.outlet now).1 = .ok () ∧
      ∃ task worker, h.state.tasks.tasks.get? id = some task ∧
        h.state.workers.workers.get? queue = some worker ∧ worker.busy = false ∧
        (h.dispatch id queue now).2.state = h.state.bound task worker id queue now) := by
  unfold dispatch
  rcases h.state.startOn_cases id queue h.outlet now with ⟨e, -, hstart⟩ | ⟨task, e, outlet, -, -, hstart⟩ |
    ⟨task, worker, outlet, htask, -, hworker, hidle, -, hstart⟩
  · rw [hstart]
    exact .inl ⟨nofun, rfl⟩
  · rw [hstart]
    exact .inl ⟨nofun, rfl⟩
  · rw [hstart]
    exact .inr ⟨rfl, task, worker, htask, hworker, hidle, rfl⟩

theorem offer_cases (h : Hub α σ) (strategy : Strategy α) (queue : String) (now : Instant) :
    h.offer strategy queue now = (false, h) ∨ ∃ id, h.offer strategy queue now = h.dispatch id queue now := by
  unfold offer
  dsimp only
  split
  · exact .inl rfl
  split
  · exact .inl rfl
  split
  · exact .inr ⟨_, rfl⟩
  · exact .inl rfl
  · exact .inl rfl

theorem get?_offer_of_ne (h : Hub α σ) (strategy : Strategy α) {queue name : String} (now : Instant)
    (hne : name ≠ queue) :
    (h.offer strategy queue now).2.state.workers.workers.get? name = h.state.workers.workers.get? name := by
  rcases h.offer_cases strategy queue now with hoffer | ⟨id, hoffer⟩
  · rw [hoffer]
  rw [hoffer]
  rcases h.dispatch_cases id queue now with ⟨-, hsame⟩ | ⟨-, task, worker, -, -, -, hbound⟩
  · rw [hsame]
  · rw [hbound]
    exact Table.get?_insert_of_ne _ _ hne

theorem offerAll_append (h : Hub α σ) (strategy : Strategy α) (now : Instant) (earlier later : List String) :
    (h.offerAll strategy now (earlier ++ later)).2 =
      ((h.offerAll strategy now earlier).2.offerAll strategy now later).2 := by
  induction earlier generalizing h with
  | nil => rfl
  | cons queue rest ih => exact ih (h.offer strategy queue now).2

theorem get?_offerAll_of_notMem (h : Hub α σ) (strategy : Strategy α) (now : Instant) {queues : List String}
    {name : String} (hnot : name ∉ queues) :
    (h.offerAll strategy now queues).2.state.workers.workers.get? name = h.state.workers.workers.get? name := by
  induction queues generalizing h with
  | nil => rfl
  | cons queue rest ih =>
    rw [List.mem_cons, not_or] at hnot
    rw [← h.get?_offer_of_ne strategy now hnot.1]
    exact ih _ hnot.2

/-- Of all offers of a pass, only the one to a worker itself can change its entry. -/
theorem get?_pass_of_idleQueues {h : Hub α σ} (hnamed : h.state.Named) (strategy : Strategy α) (now : Instant)
    {queue : String} {earlier later : List String}
    (hsplit : (h.prune now).state.workers.idleQueues = earlier ++ queue :: later) :
    let offered := ((h.prune now).offerAll strategy now earlier).2
    offered.state.workers.workers.get? queue = (h.prune now).state.workers.workers.get? queue ∧
      (h.pass strategy now).2.state.workers.workers.get? queue =
        (offered.offer strategy queue now).2.state.workers.workers.get? queue := by
  intro offered
  have hpruned : (h.prune now).state.Named := hnamed.sweep now h.state.workers.staleAfter
  have hnodup := WorkerRegistry.nodup_idleQueues hpruned.workers
  rw [hsplit, List.nodup_append] at hnodup
  obtain ⟨-, hlater, hdisjoint⟩ := hnodup
  refine ⟨get?_offerAll_of_notMem _ strategy now fun hmem => ?_, ?_⟩
  · exact hdisjoint queue hmem queue (List.mem_cons_self ..) rfl
  · rw [state_pass, hsplit, offerAll_append]
    exact get?_offerAll_of_notMem (offered.offer strategy queue now).2 strategy now (List.nodup_cons.1 hlater).1

theorem get?_pass_of_mem_silentQueues {h : Hub α σ} (hnamed : h.state.Named) (strategy : Strategy α) {now : Instant}
    {queue : String} (hsilent : queue ∈ h.state.workers.silentQueues now h.state.workers.staleAfter) :
    (h.pass strategy now).2.state.workers.workers.get? queue = none := by
  have hpruned : (h.prune now).state.Named := hnamed.sweep now h.state.workers.staleAfter
  have hgone : (h.prune now).state.workers.workers.get? queue = none :=
    (h.state.get?_workers_sweep now h.state.workers.staleAfter queue).trans (if_pos hsilent)
  have hnot : queue ∉ (h.prune now).state.workers.idleQueues := by
    intro hidle
    obtain ⟨worker, hworker, -⟩ := (WorkerRegistry.mem_idleQueues hpruned.workers).1 hidle
    rw [hgone] at hworker
    cases hworker
  rw [state_pass, get?_offerAll_of_notMem _ strategy now hnot, hgone]

theorem named_offerAll {h : Hub α σ} (hnamed : h.state.Named) (strategy : Strategy α) (now : Instant)
    (queues : List String) : (h.offerAll strategy now queues).2.state.Named := by
  induction queues generalizing h with
  | nil => exact hnamed
  | cons queue rest ih =>
    have hfirst : (h.offer strategy queue now).2.state.Named := by
      rcases h.offer_cases strategy queue now with hoffer | ⟨id, hoffer⟩
      · rw [hoffer]
        exact hnamed
      rw [hoffer]
      rcases h.dispatch_cases id queue now with ⟨-, hsame⟩ | ⟨-, task, worker, htask, hworker, -, hbound⟩
      · rw [hsame]
        exact hnamed
      · rw [hbound]
        exact hnamed.bound now htask hworker
    exact ih hfirst

/-- A pass comes to the worker, the strategy names the task, and the start of the task on the worker succeeds. -/
def Starts (h : Hub α σ) (strategy : Strategy α) (now : Instant) (queue : String) (task : Task α) : Prop :=
  ∃ earlier later, (h.prune now).state.workers.idleQueues = earlier ++ queue :: later ∧
    let offered := ((h.prune now).offerAll strategy now earlier).2
    offered.state.tasks.tasks.get? task.id = some task ∧
      offered.offer strategy queue now = offered.dispatch task.id queue now ∧
      (offered.state.startOn task.id queue offered.outlet now).1 = .ok ()

end Hub

/-! ### Turns -/

namespace DispatchState

variable [Quantity α] [Outlet σ]

/-- What an event can make of the entry under a queue. -/
inductive Turn (s : DispatchState α) (queue : String) : Event α σ → Option Worker → Option Worker → Prop
  | join {message beatAt now} (hbeat : message.IsBeat queue s.workers.staleAfter beatAt now) :
    Turn s queue (.registration message now) none
      (some { queue, lastBeatAt := min beatAt now, specialization := "", busy := false, currentTask := none,
              freeAt := now })
  | beat {message beatAt now worker} (hbeat : message.IsBeat queue s.workers.staleAfter beatAt now) :
    Turn s queue (.registration message now) (some worker)
      (some { worker with lastBeatAt := max worker.lastBeatAt (min beatAt now) })
  | exit {message now worker} (hkind : message.kind = .exit) (hqueue : message.queue = queue) :
    Turn s queue (.registration message now) (some worker) none
  | prune {strategy outlet now worker} (hsilent : worker.isSilentFor now s.workers.staleAfter = true) :
    Turn s queue (.pass strategy outlet now) (some worker) none
  | sweep {threshold outlet now worker} (hsilent : worker.isSilentFor now threshold = true) :
    Turn s queue (.round threshold outlet now) (some worker) none
  | start {strategy outlet now worker task} (hidle : worker.busy = false)
    (hheard : worker.isSilentFor now s.workers.staleAfter = false)
    (hstarts : Hub.Starts { state := s, outlet } strategy now queue task) :
    Turn s queue (.pass strategy outlet now) (some worker) (some (worker.turnedTo task now))
  | answer {id body redelivered outlet now worker task} (hbusy : worker.busy = true)
    (hcurrent : worker.currentTask = some id) (htask : s.tasks.tasks.get? id = some task)
    (hassigned : task.assignedTo = some queue) :
    Turn s queue (.response id body redelivered outlet now) (some worker) (some (worker.freed now))
  | resubmit {id profile duration arrivedAt origin now worker task} (hbusy : worker.busy = true)
    (hcurrent : worker.currentTask = some id) (htask : s.tasks.tasks.get? id = some task)
    (hassigned : task.assignedTo = some queue)
    (haccepted : (s.addTask (Task.arrive id profile duration arrivedAt origin) now).1 = .ok ()) :
    Turn s queue (.work id profile duration arrivedAt origin now) (some worker) (some (worker.freed now))

/-! ### Changes are turns -/

private theorem turn_of_registration {s : DispatchState α} {message : Registration} {now : Instant} {queue : String}
    (hchanged : (s.applyRegistration message now).2.workers.workers.get? queue ≠ s.workers.workers.get? queue) :
    s.Turn queue (.registration message now : Event α σ) (s.workers.workers.get? queue)
      ((s.applyRegistration message now).2.workers.workers.get? queue) := by
  rcases s.applyRegistration_cases message now with ⟨_, -, h⟩ | ⟨beatAt, hkind, hsent, h⟩ | ⟨worker, hkind, hworker, h⟩
  · rw [h] at hchanged
    exact absurd rfl hchanged
  · rw [h, WorkerRegistry.registerBeat_eq] at hchanged ⊢
    by_cases hstale : Instant.seconds s.workers.staleAfter < now - beatAt
    · rw [if_pos hstale] at hchanged
      exact absurd rfl hchanged
    rw [if_neg hstale] at hchanged ⊢
    dsimp only at hchanged ⊢
    by_cases hqueue : queue = message.queue
    · have hbeat : message.IsBeat queue s.workers.staleAfter beatAt now :=
        ⟨hkind, hqueue.symm, hsent, Int.not_lt.1 hstale⟩
      subst hqueue
      rw [Table.get?_insert_self, WorkerRegistry.beaten]
      cases s.workers.workers.get? message.queue with
      | none => exact .join hbeat
      | some worker => exact .beat hbeat
    · rw [Table.get?_insert_of_ne _ _ hqueue] at hchanged
      exact absurd rfl hchanged
  · rw [h, get?_workers_exitWorker] at hchanged ⊢
    by_cases hqueue : queue = message.queue
    · subst hqueue
      rw [if_pos rfl, hworker]
      exact .exit hkind rfl
    · rw [if_neg hqueue] at hchanged
      exact absurd rfl hchanged

omit [Quantity α] [Outlet σ] in
/-- Whose entry a release changes is busy with the task, which is assigned to it, and is free afterwards. -/
private theorem freed_of_releaseWorkerOf {s : DispatchState α} {task : Task α} {id queue : String} {now : Instant}
    (hchanged : (s.releaseWorkerOf task id now).workers.workers.get? queue ≠ s.workers.workers.get? queue) :
    ∃ worker, s.workers.workers.get? queue = some worker ∧ worker.busy = true ∧ worker.currentTask = some id ∧
      task.assignedTo = some queue ∧
      (s.releaseWorkerOf task id now).workers.workers.get? queue = some (worker.freed now) := by
  rw [get?_releaseWorkerOf] at hchanged ⊢
  split at hchanged
  · rename_i hheld
    obtain ⟨worker, hworker, hbusy, hcurrent⟩ := WorkerRegistry.isHolding_iff.1 hheld.2
    rw [if_pos hheld, hworker]
    exact ⟨worker, rfl, hbusy, hcurrent, hheld.1, rfl⟩
  · exact absurd rfl hchanged

private theorem turn_of_response {s : DispatchState α} {id : String} {body : Bytes} {redelivered : Bool} {outlet : σ}
    {now : Instant} {queue : String}
    (hchanged : (s.processResponse id body redelivered outlet now).2.1.workers.workers.get? queue ≠
      s.workers.workers.get? queue) :
    s.Turn queue (.response id body redelivered outlet now) (s.workers.workers.get? queue)
      ((s.processResponse id body redelivered outlet now).2.1.workers.workers.get? queue) := by
  cases htask : s.tasks.tasks.get? id with
  | none =>
    rcases s.processResponse_cases id body redelivered outlet now with ⟨-, h⟩ | ⟨task, hthere, -⟩
    · rw [h] at hchanged
      exact absurd rfl hchanged
    · rw [htask] at hthere
      cases hthere
  | some task =>
    rw [(workers_processResponse htask body redelivered outlet now).2] at hchanged ⊢
    obtain ⟨worker, hworker, hbusy, hcurrent, hassigned, hfreed⟩ := freed_of_releaseWorkerOf hchanged
    rw [hworker, hfreed]
    exact .answer hbusy hcurrent htask hassigned

private theorem turn_of_work {s : DispatchState α} (hs : s.Named) {id : String} {profile : ModelProfile α}
    {duration : α} {arrivedAt : Instant} {origin : Origin} {now : Instant} {queue : String}
    (hchanged : (s.addTask (Task.arrive id profile duration arrivedAt origin) now).2.workers.workers.get? queue ≠
      s.workers.workers.get? queue) :
    s.Turn queue (.work id profile duration arrivedAt origin now : Event α σ) (s.workers.workers.get? queue)
      ((s.addTask (Task.arrive id profile duration arrivedAt origin) now).2.workers.workers.get? queue) := by
  rcases s.addTask_cases (Task.arrive id profile duration arrivedAt origin) now with
    ⟨e, -, h⟩ | ⟨-, -, h⟩ | ⟨old, -, hold, h⟩
  · rw [h] at hchanged
    exact absurd rfl hchanged
  · rw [h] at hchanged
    exact absurd rfl hchanged
  · have haccepted : (s.addTask (Task.arrive id profile duration arrivedAt origin) now).1 = .ok () := by rw [h]
    have hid : old.id = id := hs.tasks hold
    rw [h, hid] at hchanged ⊢
    obtain ⟨worker, hworker, hbusy, hcurrent, hassigned, hfreed⟩ := freed_of_releaseWorkerOf hchanged
    change s.Turn queue _ _ ((s.releaseWorkerOf old id now).workers.workers.get? queue)
    rw [hworker, hfreed]
    exact .resubmit hbusy hcurrent hold hassigned haccepted

private theorem turn_of_round {s : DispatchState α} (hs : s.Named) {threshold : Int} {outlet : σ} {now : Instant}
    {queue : String}
    (hchanged : (s.after (.round threshold outlet now)).workers.workers.get? queue ≠ s.workers.workers.get? queue) :
    s.Turn queue (.round threshold outlet now) (s.workers.workers.get? queue)
      ((s.after (.round threshold outlet now)).workers.workers.get? queue) := by
  rw [after_round] at hchanged ⊢
  -- evictions concern tasks only
  change (s.sweep now threshold).2.workers.workers.get? queue ≠ _ at hchanged
  change s.Turn queue _ _ ((s.sweep now threshold).2.workers.workers.get? queue)
  rw [get?_workers_sweep] at hchanged ⊢
  split at hchanged
  · rename_i hsilent
    obtain ⟨worker, hworker, hquiet⟩ := (WorkerRegistry.mem_silentQueues hs.workers).1 hsilent
    rw [if_pos hsilent, hworker]
    exact .sweep hquiet
  · exact absurd rfl hchanged

theorem after_pass (s : DispatchState α) (strategy : Strategy α) (outlet : σ) (now : Instant) :
    s.after (.pass strategy outlet now) = (Hub.pass { state := s, outlet } strategy now).2.state := rfl

private theorem turn_of_pass {s : DispatchState α} (hs : s.Named) {strategy : Strategy α} {outlet : σ} {now : Instant}
    {queue : String}
    (hchanged : (s.after (.pass strategy outlet now)).workers.workers.get? queue ≠ s.workers.workers.get? queue) :
    s.Turn queue (.pass strategy outlet now) (s.workers.workers.get? queue)
      ((s.after (.pass strategy outlet now)).workers.workers.get? queue) := by
  rw [after_pass] at hchanged ⊢
  generalize hh : ({ state := s, outlet } : Hub α σ) = h at hchanged ⊢
  obtain rfl : s = h.state := by rw [← hh]
  have hpruned : (h.prune now).state.Named := hs.sweep now h.state.workers.staleAfter
  by_cases hsilent : queue ∈ h.state.workers.silentQueues now h.state.workers.staleAfter
  · obtain ⟨worker, hworker, hquiet⟩ := (WorkerRegistry.mem_silentQueues hs.workers).1 hsilent
    rw [Hub.get?_pass_of_mem_silentQueues hs strategy hsilent, hworker]
    exact .prune hquiet
  have hentry : (h.prune now).state.workers.workers.get? queue = h.state.workers.workers.get? queue :=
    (h.state.get?_workers_sweep now h.state.workers.staleAfter queue).trans (if_neg hsilent)
  by_cases hidle : queue ∈ (h.prune now).state.workers.idleQueues
  · obtain ⟨earlier, later, hsplit⟩ := List.append_of_mem hidle
    obtain ⟨hkept, hpass⟩ := Hub.get?_pass_of_idleQueues hs strategy now hsplit
    obtain ⟨worker, hworker, hfree⟩ := (WorkerRegistry.mem_idleQueues hpruned.workers).1 hidle
    rw [hworker] at hkept
    rw [hpass, ← hentry, hworker] at hchanged
    rw [hpass, ← hentry, hworker]
    let offered := ((h.prune now).offerAll strategy now earlier).2
    rcases offered.offer_cases strategy queue now with hoffer | ⟨id, hoffer⟩
    · rw [hoffer] at hchanged
      exact absurd hkept hchanged
    rcases offered.dispatch_cases id queue now with ⟨-, hsame⟩ | ⟨hstart, task, other, htask, hother, -, hbound⟩
    · rw [hoffer, hsame] at hchanged
      exact absurd hkept hchanged
    · obtain rfl := Option.some.inj (hkept.symm.trans hother)
      have hoffered : offered.state.Named := Hub.named_offerAll hpruned strategy now earlier
      obtain rfl : task.id = id := hoffered.tasks htask
      have hheard : worker.isSilentFor now h.state.workers.staleAfter = false := by
        rw [Bool.eq_false_iff]
        intro hquiet
        exact hsilent ((WorkerRegistry.mem_silentQueues hs.workers).2 ⟨worker, hentry.symm.trans hworker, hquiet⟩)
      have hturned : (offered.offer strategy queue now).2.state.workers.workers.get? queue =
          some (worker.turnedTo task now) := by
        rw [hoffer, hbound]
        exact Table.get?_insert_self ..
      rw [hturned]
      refine .start hfree hheard ?_
      rw [hh]
      exact ⟨earlier, later, hsplit, htask, hoffer, hstart⟩
  · rw [Hub.state_pass, Hub.get?_offerAll_of_notMem _ strategy now hidle, hentry] at hchanged
    exact absurd rfl hchanged

theorem turn_of_changed {s : DispatchState α} (hs : s.Named) {e : Event α σ} {queue : String}
    (hchanged : (s.after e).workers.workers.get? queue ≠ s.workers.workers.get? queue) :
    s.Turn queue e (s.workers.workers.get? queue) ((s.after e).workers.workers.get? queue) := by
  cases e with
  | registration message now => exact turn_of_registration hchanged
  | work id profile duration arrivedAt origin now => exact turn_of_work hs hchanged
  | pass strategy outlet now => exact turn_of_pass hs hchanged
  | response id body redelivered outlet now => exact turn_of_response hchanged
  | round threshold outlet now => exact turn_of_round hs hchanged

/-! ### Turns are taken -/

private theorem get?_after_of_isBeat (s : DispatchState α) {message : Registration} {queue : String}
    {beatAt now : Instant} (hbeat : message.IsBeat queue s.workers.staleAfter beatAt now) :
    (s.after (.registration message now : Event α σ)).workers.workers.get? queue =
      some (s.workers.beaten queue beatAt now) := by
  change (s.applyRegistration message now).2.workers.workers.get? queue = _
  rw [applyRegistration_of_ne_exit hbeat.kind_ne, hbeat.sentAt_eq, hbeat.queue_eq]
  dsimp only
  rw [WorkerRegistry.registerBeat_eq, if_neg (Int.not_lt.2 hbeat.inTime)]
  exact Table.get?_insert_self ..

private theorem get?_after_of_starts {s : DispatchState α} (hs : s.Named) {strategy : Strategy α} {outlet : σ}
    {now : Instant} {queue : String} {worker : Worker} {task : Task α}
    (hworker : s.workers.workers.get? queue = some worker)
    (hheard : worker.isSilentFor now s.workers.staleAfter = false)
    (hstarts : Hub.Starts { state := s, outlet } strategy now queue task) :
    (s.after (.pass strategy outlet now)).workers.workers.get? queue = some (worker.turnedTo task now) := by
  rw [after_pass]
  generalize hh : ({ state := s, outlet } : Hub α σ) = h at hstarts ⊢
  obtain rfl : s = h.state := by rw [← hh]
  obtain ⟨earlier, later, hsplit, htask, hoffer, hstart⟩ := hstarts
  obtain ⟨hkept, hpass⟩ := Hub.get?_pass_of_idleQueues hs strategy now hsplit
  have hstays : queue ∉ h.state.workers.silentQueues now h.state.workers.staleAfter := by
    rw [WorkerRegistry.mem_silentQueues hs.workers]
    rintro ⟨other, hother, hquiet⟩
    obtain rfl := Option.some.inj (hworker.symm.trans hother)
    exact absurd (hquiet.symm.trans hheard) nofun
  have hentry : (h.prune now).state.workers.workers.get? queue = some worker :=
    ((h.state.get?_workers_sweep now h.state.workers.staleAfter queue).trans (if_neg hstays)).trans hworker
  refine hpass.trans ?_
  rcases Hub.dispatch_cases ((h.prune now).offerAll strategy now earlier).2 task.id queue now with
    ⟨hfails, -⟩ | ⟨-, found, other, hfound, hother, -, hbound⟩
  · exact absurd hstart hfails
  · obtain rfl := Option.some.inj (htask.symm.trans hfound)
    obtain rfl := Option.some.inj ((hkept.trans hentry).symm.trans hother)
    rw [hoffer, hbound]
    exact Table.get?_insert_self ..

/-- Every turn that an event has for a worker is taken. -/
theorem get?_after_of_turn {s : DispatchState α} (hs : s.Named) {e : Event α σ} {queue : String} {entry : Option Worker}
    (h : s.Turn queue e (s.workers.workers.get? queue) entry) : (s.after e).workers.workers.get? queue = entry := by
  generalize hbefore : s.workers.workers.get? queue = before at h
  cases h with
  | join hbeat =>
    rw [s.get?_after_of_isBeat hbeat, WorkerRegistry.beaten, hbefore]
    rfl
  | beat hbeat => rw [s.get?_after_of_isBeat hbeat, WorkerRegistry.beaten, hbefore]
  | @exit message now worker hkind hqueue =>
    change (s.applyRegistration message now).2.workers.workers.get? queue = none
    simp only [applyRegistration, hkind, get?_workers_exitWorker, hqueue, if_true]
  | prune hsilent =>
    rw [after_pass]
    exact Hub.get?_pass_of_mem_silentQueues (h := { state := s, outlet := _ }) hs _
      ((WorkerRegistry.mem_silentQueues hs.workers).2 ⟨_, hbefore, hsilent⟩)
  | sweep hsilent =>
    rw [after_round]
    refine (s.get?_workers_sweep _ _ queue).trans (if_pos ?_)
    exact (WorkerRegistry.mem_silentQueues hs.workers).2 ⟨_, hbefore, hsilent⟩
  | start _ hheard hstarts => exact get?_after_of_starts hs hbefore hheard hstarts
  | @answer id body redelivered outlet now worker task hbusy hcurrent htask hassigned =>
    change (s.processResponse id body redelivered outlet now).2.1.workers.workers.get? queue = _
    rw [(workers_processResponse htask body redelivered outlet now).2]
    exact get?_releaseWorkerOf_of_isHolding hbefore hassigned
      (WorkerRegistry.isHolding_iff.2 ⟨worker, hbefore, hbusy, hcurrent⟩) now
  | @resubmit id profile duration arrivedAt origin now worker task hbusy hcurrent htask hassigned haccepted =>
    change (s.addTask (Task.arrive id profile duration arrivedAt origin) now).2.workers.workers.get? queue = _
    rcases s.addTask_cases (Task.arrive id profile duration arrivedAt origin) now with
      ⟨e, -, h⟩ | ⟨-, hnone, -⟩ | ⟨old, -, hold, h⟩
    · rw [h] at haccepted
      cases haccepted
    · cases hnone.symm.trans htask
    · obtain rfl := Option.some.inj (htask.symm.trans hold)
      rw [h, hs.tasks htask]
      exact get?_releaseWorkerOf_of_isHolding hbefore hassigned
        (WorkerRegistry.isHolding_iff.2 ⟨worker, hbefore, hbusy, hcurrent⟩) now

/-! ### Runs -/

/-- A worker turns to another model only when it starts on a task of that model. -/
theorem Turn.specialization_ne {s : DispatchState α} {queue : String} {e : Event α σ} {worker worker' : Worker}
    (h : s.Turn queue e (some worker) (some worker')) (hne : worker'.specialization ≠ worker.specialization) :
    ∃ strategy outlet now task, e = .pass strategy outlet now ∧
      Hub.Starts { state := s, outlet } strategy now queue task ∧ worker' = worker.turnedTo task now := by
  cases h with
  | beat | answer | resubmit => exact absurd rfl hne
  | @start strategy outlet now _ task _ _ hstarts => exact ⟨strategy, outlet, now, task, rfl, hstarts, rfl⟩

/-- The last beat of a worker is moved on by a beat only. -/
theorem Turn.lastBeatAt_ne {s : DispatchState α} {queue : String} {e : Event α σ} {worker worker' : Worker}
    (h : s.Turn queue e (some worker) (some worker')) (hne : worker'.lastBeatAt ≠ worker.lastBeatAt) :
    worker.lastBeatAt < worker'.lastBeatAt ∧ ∃ message beatAt now, e = .registration message now ∧
      message.IsBeat queue s.workers.staleAfter beatAt now ∧ worker'.lastBeatAt = min beatAt now := by
  cases h with
  | answer | resubmit | start => exact absurd rfl hne
  | @beat message beatAt now _ hbeat =>
    have hlater : worker.lastBeatAt < min beatAt now := by
      by_contra hnot
      exact hne (Int.max_eq_left (Int.not_lt.1 hnot))
    have hmoved : max worker.lastBeatAt (min beatAt now) = min beatAt now := Int.max_eq_right (Int.le_of_lt hlater)
    exact ⟨lt_of_lt_of_eq hlater hmoved.symm, message, beatAt, now, rfl, hbeat, hmoved⟩

/-- In every state that can be reached, an event changes the entry of a worker by one of the turns or not at all, and
every turn that it has for the worker is taken.  So the model of a worker changes only when it starts on a task, and its
last beat only by a beat, upwards.  A result of another task than the one that a worker has does not concern the worker,
whatever the result is, and a beat of a worker that is there moves its last beat and nothing else. -/
theorem turns_after_run (staleAfter : Int) (ceiling : Nat) (responseQueue : String) (publishTimeoutMillis : Nat)
    (events : List (Event α σ)) (e : Event α σ) (queue : String) :
    let s : DispatchState α := (start staleAfter ceiling responseQueue publishTimeoutMillis).run events
    let before := s.workers.workers.get? queue
    let after := (s.after e).workers.workers.get? queue
    (after ≠ before → s.Turn queue e before after) ∧
    (∀ entry, s.Turn queue e before entry → after = entry) ∧
    (∀ worker worker', before = some worker → after = some worker' →
      (worker'.specialization ≠ worker.specialization → ∃ strategy outlet now task, e = .pass strategy outlet now ∧
        Hub.Starts { state := s, outlet } strategy now queue task ∧ worker' = worker.turnedTo task now) ∧
      (worker'.lastBeatAt ≠ worker.lastBeatAt → worker.lastBeatAt < worker'.lastBeatAt ∧
        ∃ message beatAt now, e = .registration message now ∧
          message.IsBeat queue s.workers.staleAfter beatAt now ∧ worker'.lastBeatAt = min beatAt now)) ∧
    (∀ worker id body redelivered outlet now, before = some worker → worker.currentTask ≠ some id →
      e = .response id body redelivered outlet now → after = before) ∧
    (∀ worker message now, before = some worker → message.kind ≠ .exit → e = .registration message now →
      ∃ lastBeatAt, after = some { worker with lastBeatAt }) := by
  intro s before after
  have hs : s.Named := named_run (named_start ..) events
  have hturn : after ≠ before → s.Turn queue e before after := turn_of_changed hs
  refine ⟨hturn, fun _ => get?_after_of_turn hs, ?_, ?_, ?_⟩
  · intro worker worker' hworker hworker'
    rw [hworker, hworker'] at hturn
    constructor
    · intro hne
      refine (hturn fun hsame => hne ?_).specialization_ne hne
      rw [Option.some.inj hsame]
    · intro hne
      refine (hturn fun hsame => hne ?_).lastBeatAt_ne hne
      rw [Option.some.inj hsame]
  · intro worker id body redelivered outlet now hworker hother he
    by_contra hchanged
    have hanswer := hturn hchanged
    subst he
    rw [hworker] at hanswer
    generalize after = entry at hanswer
    cases hanswer with
    | answer _ hcurrent => exact hother hcurrent
  · intro worker message now hworker hkind he
    by_cases hchanged : after = before
    · exact ⟨worker.lastBeatAt, hchanged.trans hworker⟩
    have hbeat := hturn hchanged
    subst he
    rw [hworker] at hbeat
    generalize after = entry at hbeat ⊢
    cases hbeat with
    | beat => exact ⟨_, rfl⟩
    | exit hexit => exact absurd hexit hkind

/-- The worker of the first task is freed by the result of that task, and a result of another task leaves it at work. -/
theorem turns_after_run_firstDispatch :
    let s : DispatchState Rat := (start 30 3 "results" 10000).run firstDispatch
    let result (id : String) : Event Rat Publication := .response id (Bytes.ofText "done") false .accepted 3000000
    (s.workers.workers.get? "w").map (·.currentTask) = some (some "t") ∧
      s.Turn "w" (result "t") (s.workers.workers.get? "w") ((s.after (result "t")).workers.workers.get? "w") ∧
      ((s.after (result "t")).workers.workers.get? "w").map (·.currentTask) = some none ∧
      (s.after (result "u")).workers.workers.get? "w" = s.workers.workers.get? "w" := by
  intro s result
  have hbusy : (s.workers.workers.get? "w").map (·.currentTask) = some (some "t") := by decide +kernel
  have hfreed : ((s.after (result "t")).workers.workers.get? "w").map (·.currentTask) = some none := by decide +kernel
  have hchanged : (s.after (result "t")).workers.workers.get? "w" ≠ s.workers.workers.get? "w" := by
    intro hsame
    rw [hsame, hbusy] at hfreed
    cases hfreed
  obtain ⟨worker, hworker, hcurrent⟩ := Option.map_eq_some_iff.1 hbusy
  obtain ⟨hturn, -⟩ := turns_after_run 30 3 "results" 10000 firstDispatch (result "t") "w"
  obtain ⟨-, -, -, hother, -⟩ := turns_after_run 30 3 "results" 10000 firstDispatch (result "u") "w"
  refine ⟨hbusy, hturn hchanged, hfreed, hother worker "u" _ _ _ _ hworker ?_ rfl⟩
  rw [hcurrent]
  decide

end DispatchState

end SpeechDispatch
