import SpeechDispatch.Proofs.Loss

/-!
# A round of the failure detector

A round is described by what it does to each worker and each task (`DispatchState.RoundEffect`): a silent worker is
removed, a task that is lost with one is set back, and of the tasks as they are then, those are given up that failed too
often or whose results have waited too long.  Every round has this effect (`DispatchState.roundEffect`).  It leaves
nothing to do, so a second round at the same time does nothing (`DispatchState.Settled.roundOf_eq`,
`DispatchState.round_of_run`).
-/

namespace SpeechDispatch

variable {α σ : Type}

/-- Whether a task is to be given up for the workers that were lost with it. -/
def Task.isGivenUp (task : Task α) (ceiling : Nat) : Bool := !task.started && task.isExhausted ceiling

theorem TaskRegistry.isUnredelivered_iff {now : Instant} {threshold : Int} {task : Task α} :
    isUnredelivered now threshold task = true ↔
      ∃ failedAt, task.forwardFailedAt = some failedAt ∧ Instant.seconds threshold ≤ now - failedAt := by
  unfold isUnredelivered
  cases task.forwardFailedAt <;> simp

namespace DispatchState

variable {s : DispatchState α} {now : Instant} {threshold : Int}

/-! ### The sweep -/

/-- A task as a sweep leaves it. -/
def swept (s : DispatchState α) (now : Instant) (threshold : Int) (task : Task α) : Task α :=
  s.leftBy (·.isSilentFor now threshold) task

/-- No task fails more than once in a sweep, and one that fails has to start again. -/
theorem failures_swept (s : DispatchState α) (now : Instant) (threshold : Int) (task : Task α) :
    (s.swept now threshold task).failures = task.failures ∨
      (s.swept now threshold task).failures = task.failures + 1 ∧ (s.swept now threshold task).started = false := by
  unfold swept leftBy
  split
  · exact .inr ⟨rfl, rfl⟩
  · exact .inl rfl

theorem mem_requeued_sweep (hs : s.Named) {id : String} :
    id ∈ (s.sweep now threshold).1.requeued ↔
      ∃ task, s.tasks.tasks.get? id = some task ∧ s.losesTask (·.isSilentFor now threshold) task = true := by
  have hmem : id ∈ (s.sweep now threshold).1.requeued ↔ _ := mem_requeueHeld
  rw [hmem]
  refine exists_congr fun task => and_congr_right fun htask => ?_
  obtain rfl := hs.tasks htask
  exact (losesTask_silent_iff hs.workers).symm

/-! ### The evictions -/

/-- The tasks evicted as exhausted are those given up, and the others stay. -/
theorem evictExhausted_spec (hs : s.tasks.Named) :
    (∀ id, s.evictExhausted.2.tasks.tasks.get? id = (s.tasks.tasks.get? id).filter (!·.isGivenUp s.tasks.ceiling)) ∧
      (∀ task, task ∈ s.evictExhausted.1 ↔
        s.tasks.tasks.get? task.id = some task ∧ task.isGivenUp s.tasks.ceiling = true) ∧
      s.evictExhausted.1.map (·.id) = s.tasks.exhausted := by
  refine Table.takeAll_where hs (TaskRegistry.nodup_exhausted hs) fun {id} => ?_
  simp only [TaskRegistry.mem_exhausted hs, Task.isGivenUp, Bool.and_eq_true, Bool.not_eq_true']

/-- The tasks evicted for their results are those whose results have waited too long, and the others stay. -/
theorem evictUnredelivered_spec (hs : s.tasks.Named) (now : Instant) (threshold : Int) :
    (∀ id, (s.evictUnredelivered now threshold).2.tasks.tasks.get? id =
        (s.tasks.tasks.get? id).filter (!TaskRegistry.isUnredelivered now threshold ·)) ∧
      (∀ task, task ∈ (s.evictUnredelivered now threshold).1 ↔
        s.tasks.tasks.get? task.id = some task ∧ TaskRegistry.isUnredelivered now threshold task = true) ∧
      (s.evictUnredelivered now threshold).1.map (·.id) = s.tasks.unredelivered now threshold := by
  refine Table.takeAll_where hs (TaskRegistry.nodup_unredelivered hs now threshold) fun {id} => ?_
  simp only [TaskRegistry.mem_unredelivered hs, TaskRegistry.isUnredelivered_iff, exists_and_left]

/-! ### A round -/

/-- What a round does.  Nothing else is changed. -/
structure RoundEffect (s : DispatchState α) (now : Instant) (threshold : Int) (report : SweepReport)
    (evicted : List (Task α × String)) (s' : DispatchState α) : Prop where
  settings_eq : s'.settings = s.settings
  /-- Silent workers are removed, the others are as they were. -/
  workers : ∀ queue, s'.workers.workers.get? queue =
    (s.workers.workers.get? queue).filter (!·.isSilentFor now threshold)
  /-- Tasks are set back if they are lost, and stay if they are not given up as they are then. -/
  tasks : ∀ id, s'.tasks.tasks.get? id = ((s.tasks.tasks.get? id).map (s.swept now threshold)).filter fun task =>
    !task.isGivenUp s.tasks.ceiling && !TaskRegistry.isUnredelivered now threshold task
  removed_nodup : report.removed.Nodup
  removed : ∀ queue, queue ∈ report.removed ↔
    ∃ worker, s.workers.workers.get? queue = some worker ∧ worker.isSilentFor now threshold = true
  requeued_nodup : report.requeued.Nodup
  requeued : ∀ id, id ∈ report.requeued ↔
    ∃ task, s.tasks.tasks.get? id = some task ∧ s.losesTask (·.isSilentFor now threshold) task = true
  /-- First come the tasks that failed too often, then those of the others whose results have waited too long. -/
  evicted_eq : ∃ exhausted late : List (Task α),
    evicted = exhausted.map (fun task => (task, exhaustedReason task.failures)) ++
      late.map (fun task => (task, unforwardedReason)) ∧
    (∀ task, task ∈ exhausted ↔ (s.tasks.tasks.get? task.id).map (s.swept now threshold) = some task ∧
      task.isGivenUp s.tasks.ceiling = true) ∧
    ∀ task, task ∈ late ↔ (s.tasks.tasks.get? task.id).map (s.swept now threshold) = some task ∧
      task.isGivenUp s.tasks.ceiling = false ∧ TaskRegistry.isUnredelivered now threshold task = true
  evicted_nodup : (evicted.map (·.1.id)).Nodup

/-- Every round has its effect. -/
theorem roundEffect [Quantity α] (hs : s.Named) (now : Instant) (threshold : Int) :
    s.RoundEffect now threshold (Hub.roundOf s now threshold).1 (Hub.roundOf s now threshold).2.1
      (Hub.roundOf s now threshold).2.2 := by
  let left := (s.sweep now threshold).2
  have hswept : left.Named := hs.sweep now threshold
  have hloss : s.Loss (·.isSilentFor now threshold) left := loss_sweep hs now threshold
  have hceiling : left.tasks.ceiling = s.tasks.ceiling := congrArg DispatchSettings.ceiling hloss.settings_eq
  have hremoved := (takeAll_silentQueues hs.workers now threshold).2.2
  obtain ⟨hkept, hexhausted, hids⟩ := evictExhausted_spec hswept.tasks
  have hleft : left.evictExhausted.2.tasks.Named := by
    intro id task htask
    rw [hkept] at htask
    exact hswept.tasks (Option.filter_eq_some_iff.1 htask).1
  obtain ⟨hlast, hlate, hlateIds⟩ := evictUnredelivered_spec hleft now threshold
  have hget : ∀ id, left.tasks.tasks.get? id = (s.tasks.tasks.get? id).map (s.swept now threshold) := hloss.tasks
  constructor
  case settings_eq => exact hloss.settings_eq
  case workers => exact hloss.workers
  case tasks =>
    intro id
    change (left.evictExhausted.2.evictUnredelivered now threshold).2.tasks.tasks.get? id = _
    rw [hlast, hkept, hget, Option.filter_filter, hceiling]
  case removed_nodup => exact hremoved ▸ WorkerRegistry.nodup_silentQueues hs.workers now threshold
  case removed =>
    intro queue
    change queue ∈ (s.sweep now threshold).1.removed ↔ _
    rw [hremoved, WorkerRegistry.mem_silentQueues hs.workers]
  case requeued_nodup => exact nodup_requeueHeld ..
  case requeued => exact fun id => mem_requeued_sweep hs
  case evicted_eq =>
    refine ⟨left.evictExhausted.1, (left.evictExhausted.2.evictUnredelivered now threshold).1, rfl, ?_, ?_⟩
    · intro task
      rw [hexhausted, hget, hceiling]
    · intro task
      rw [hlate, hkept, hget, hceiling, Option.filter_eq_some_iff, Bool.not_eq_true', and_assoc]
  case evicted_nodup =>
    have hlisted : (Hub.roundOf s now threshold).2.1.map (·.1.id) =
        left.tasks.exhausted ++ left.evictExhausted.2.tasks.unredelivered now threshold := by
      rw [← hids, ← hlateIds]
      simp only [Hub.roundOf, List.map_append, List.map_map]
      rfl
    rw [hlisted, List.nodup_append]
    refine ⟨TaskRegistry.nodup_exhausted hswept.tasks, TaskRegistry.nodup_unredelivered hleft now threshold, ?_⟩
    -- what is evicted first is not there to be evicted again
    rintro id hfirst other hsecond rfl
    obtain ⟨task, failedAt, htask, -⟩ := (TaskRegistry.mem_unredelivered hleft).1 hsecond
    rw [get?_evictExhausted, if_pos hfirst] at htask
    cases htask

theorem RoundEffect.named {s' : DispatchState α} {report : SweepReport} {evicted : List (Task α × String)}
    (h : s.RoundEffect now threshold report evicted s') (hs : s.Named) : s'.Named := by
  constructor
  · intro queue worker hworker
    rw [h.workers] at hworker
    exact hs.workers (Option.filter_eq_some_iff.1 hworker).1
  · intro id task htask
    rw [h.tasks] at htask
    obtain ⟨old, hold, rfl⟩ := Option.map_eq_some_iff.1 (Option.filter_eq_some_iff.1 htask).1
    exact (id_leftBy ..).trans (hs.tasks hold)

/-- There is nothing for a round to do: no worker is silent, and no task is to be given up. -/
structure Settled (s : DispatchState α) (now : Instant) (threshold : Int) : Prop where
  workers : ∀ queue worker, s.workers.workers.get? queue = some worker → worker.isSilentFor now threshold = false
  tasks : ∀ id task, s.tasks.tasks.get? id = some task →
    task.isGivenUp s.tasks.ceiling = false ∧ TaskRegistry.isUnredelivered now threshold task = false

/-- A round leaves nothing to do. -/
theorem RoundEffect.settled {s' : DispatchState α} {report : SweepReport} {evicted : List (Task α × String)}
    (h : s.RoundEffect now threshold report evicted s') : s'.Settled now threshold := by
  have hceiling : s'.tasks.ceiling = s.tasks.ceiling := congrArg DispatchSettings.ceiling h.settings_eq
  constructor
  · intro queue worker hworker
    rw [h.workers] at hworker
    simpa only [Bool.not_eq_true'] using (Option.filter_eq_some_iff.1 hworker).2
  · intro id task htask
    rw [h.tasks] at htask
    rw [hceiling]
    simpa only [Bool.and_eq_true, Bool.not_eq_true'] using (Option.filter_eq_some_iff.1 htask).2

/-- A round does nothing if there is nothing to do. -/
theorem Settled.roundOf_eq [Quantity α] (h : s.Settled now threshold) (hs : s.Named) :
    Hub.roundOf s now threshold = ({}, [], s) := by
  have hsweep : s.sweep now threshold = ({}, s) := by
    refine sweep_of_removed_eq_nil (List.eq_nil_iff_forall_not_mem.2 fun queue hmem => ?_)
    obtain ⟨worker, hworker, hsilent⟩ := ((roundEffect hs now threshold).removed queue).1 hmem
    exact Bool.false_ne_true ((h.workers queue worker hworker).symm.trans hsilent)
  have hexhausted : s.evictExhausted = ([], s) := by
    refine evictExhausted_of_eq_nil (List.eq_nil_iff_forall_not_mem.2 fun task hmem => ?_)
    obtain ⟨htask, hgiven⟩ := ((evictExhausted_spec hs.tasks).2.1 task).1 hmem
    exact Bool.false_ne_true ((h.tasks _ task htask).1.symm.trans hgiven)
  have hlate : s.evictUnredelivered now threshold = ([], s) := by
    refine evictUnredelivered_of_eq_nil (List.eq_nil_iff_forall_not_mem.2 fun task hmem => ?_)
    obtain ⟨htask, hwaits⟩ := ((evictUnredelivered_spec hs.tasks now threshold).2.1 task).1 hmem
    exact Bool.false_ne_true ((h.tasks _ task htask).2.symm.trans hwaits)
  simp only [Hub.roundOf, hsweep, hexhausted, hlate, List.map_nil, List.append_nil]

end DispatchState

/-! ### The detector -/

namespace Hub

variable [Outlet σ] {threshold : Int} {now : Instant}

/-- A detector with nothing to do reports that, and changes nothing. -/
theorem detect_of_roundOf_eq {h : Hub α σ} (hround : roundOf h.state now threshold = ({}, [], h.state)) :
    h.detect threshold now = (some ⟨{}, []⟩, h) := by
  unfold detect
  rw [hround]
  rfl

end Hub

namespace DispatchState

/-- A task that a round brings to the ceiling is given up in that round. -/
theorem RoundEffect.evicted_of_reached {s s' : DispatchState α} {now : Instant} {threshold : Int}
    {report : SweepReport} {evicted : List (Task α × String)} (h : s.RoundEffect now threshold report evicted s')
    (hs : s.Named) {id : String} {task : Task α} (htask : s.tasks.tasks.get? id = some task)
    (hbefore : task.failures < s.tasks.ceiling)
    (hreached : s.tasks.ceiling ≤ (s.swept now threshold task).failures) : id ∈ evicted.map (·.1.id) := by
  obtain rfl := hs.tasks htask
  obtain ⟨exhausted, late, rfl, hexhausted, -⟩ := h.evicted_eq
  have hwaits : (s.swept now threshold task).started = false := by
    rcases s.failures_swept now threshold task with hsame | ⟨-, hwaits⟩
    · omega
    · exact hwaits
  have hgiven : (s.swept now threshold task).isGivenUp s.tasks.ceiling = true := by
    rw [Task.isGivenUp, hwaits]
    exact decide_eq_true hreached
  have hmem : s.swept now threshold task ∈ exhausted := by
    refine (hexhausted _).2 ⟨?_, hgiven⟩
    have hid : (s.swept now threshold task).id = task.id := id_leftBy ..
    rw [hid, htask, Option.map_some]
  rw [List.map_append, List.map_map]
  exact List.mem_append_left _ (List.mem_map.2 ⟨_, hmem, id_leftBy ..⟩)

variable [Quantity α] [Outlet σ]

/-- In every state that can be reached, a round of the detector has its effect and leaves nothing to do.  No task fails
more than once in it, and one that reaches the ceiling is given up in it.  A second round at the same time does
nothing. -/
theorem round_of_run (staleAfter : Int) (ceiling : Nat) (responseQueue : String) (publishTimeoutMillis : Nat)
    (events : List (Event α σ)) (signal : Bool) (metrics : Metrics) (outlet : σ) (threshold : Int) (now : Instant) :
    let s : DispatchState α := (start staleAfter ceiling responseQueue publishTimeoutMillis).run events
    let round := Hub.roundOf s now threshold
    let detected := Hub.detect { state := s, signal, metrics, outlet } threshold now
    detected.2.state = round.2.2 ∧
    detected.1 = (if (Hub.notifyAll outlet round.2.1).1 = true then some ⟨round.1, round.2.1.map (·.1.id)⟩
      else none) ∧
    s.RoundEffect now threshold round.1 round.2.1 round.2.2 ∧
    round.2.2.Settled now threshold ∧
    (∀ id task, s.tasks.tasks.get? id = some task → (s.swept now threshold task).failures ≤ task.failures + 1 ∧
      (task.failures < s.tasks.ceiling → s.tasks.ceiling ≤ (s.swept now threshold task).failures →
        id ∈ round.2.1.map (·.1.id))) ∧
    detected.2.detect threshold now = (some ⟨{}, []⟩, detected.2) := by
  intro s round detected
  have hs : s.Named := named_run (named_start ..) events
  have heffect : s.RoundEffect now threshold round.1 round.2.1 round.2.2 := roundEffect hs now threshold
  obtain ⟨hstate, hreport⟩ := Hub.detect_eq_roundOf { state := s, signal, metrics, outlet } threshold now
  refine ⟨hstate, hreport, heffect, heffect.settled, fun id task htask => ⟨?_, ?_⟩, Hub.detect_of_roundOf_eq ?_⟩
  · rcases s.failures_swept now threshold task with hsame | ⟨hmore, -⟩ <;> omega
  · exact heffect.evicted_of_reached hs htask
  · have hsettled : detected.2.state = round.2.2 := hstate
    rw [hsettled]
    exact heffect.settled.roundOf_eq (heffect.named hs)

/-- With one loss allowed, the task of a worker that fell silent is set back and given up in one round. -/
theorem round_of_run_firstDispatch :
    let s : DispatchState Rat := (start 30 1 "results" 10000).run firstDispatch
    let round := Hub.roundOf s 100000000 100
    let detected := Hub.detect { state := s, outlet := Publication.accepted } 100 100000000
    round.1 = ⟨["w"], ["t"]⟩ ∧ "t" ∈ round.2.1.map (·.1.id) ∧ round.2.2.Settled 100000000 100 ∧
      detected.1 = some ⟨⟨["w"], ["t"]⟩, ["t"]⟩ ∧ detected.2.detect 100 100000000 = (some ⟨{}, []⟩, detected.2) := by
  intro s round detected
  have hcounts : (s.tasks.tasks.get? "t").map (fun task => (task.failures, (s.swept 100000000 100 task).failures)) =
      some (0, 1) := by decide +kernel
  have hreport : round.1 = ⟨["w"], ["t"]⟩ ∧ round.2.1.map (·.1.id) = ["t"] := by decide +kernel
  have htold : (Hub.notifyAll Publication.accepted round.2.1).1 = true := by decide +kernel
  obtain ⟨task, htask, hfailures⟩ := Option.map_eq_some_iff.1 hcounts
  obtain ⟨hbefore, hafter⟩ := Prod.mk.inj hfailures
  obtain ⟨-, hdetected, -, hsettled, hceiling, hagain⟩ :=
    round_of_run 30 1 "results" 10000 firstDispatch false {} Publication.accepted 100 100000000
  have hlimit : s.tasks.ceiling = 1 := by decide +kernel
  have hreached := (hceiling "t" task htask).2
  rw [hbefore, hafter, hlimit] at hreached
  refine ⟨hreport.1, hreached (by decide) (by decide), hsettled, ?_, hagain⟩
  rw [hdetected, if_pos htold, hreport.1, hreport.2]

end DispatchState

end SpeechDispatch
