import SpeechDispatch.Proofs.Run
import SpeechDispatch.Proofs.Snapshot

/-!
# The moves of a dispatcher

Every event is a succession of moves, each of which changes one worker, one task, or one of both
(`DispatchState.moves_after`).  Which acts an event consists of is read off what it reports and publishes
(`DispatchState.acts`); what an act does to the state is said by `Move`.  Whatever is kept by every move is kept by
every event, so an invariant is shown for one move at a time.
-/

namespace SpeechDispatch

variable {α σ : Type}

/-- A message that was accepted, with the queue to which it went. -/
abbrev Sent := String × Outbound

/-- What can be done in one move. -/
inductive Act (α : Type)
  | beat (queue : String)
  | leave (queue : String)
  /-- A task is taken in, in place of a tracked one or not. -/
  | accept (task : Task α) (replaces : Bool)
  | start (id queue : String)
  /-- The result of a task is dealt with. -/
  | finish (id : String) (sent : List Sent)
  /-- The result of a task could not be forwarded a second time. -/
  | drop (id : String) (sent : List Sent)
  /-- The result of a task could not be forwarded and is to come again. -/
  | defer (id : String) (sent : List Sent)
  /-- A task that failed too often is given up, and its caller told. -/
  | giveUp (id : String) (sent : List Sent)
  /-- A task whose result has waited too long is given up, and its caller told. -/
  | expire (id : String) (sent : List Sent)

/-! ### The acts of an event -/

/-- The tasks of which a round gives notice, each with what was accepted for it.  After a publication that stalls,
nothing more is attempted. -/
def Hub.notices [Outlet σ] (outlet : σ) : List (Task α × String) → List (Task α × List Sent)
  | [] => []
  | notice :: rest =>
    match Hub.notifyAll (Journal.mk outlet []) [notice] with
    | (true, journal) => (notice.1, journal.sent) :: Hub.notices journal.outlet rest
    | (false, journal) => (notice.1, journal.sent) :: rest.map fun later => (later.1, [])

/-- The start that a message to a worker stands for. -/
def Act.ofDispatch (sent : Sent) : Option (Act α) := sent.2.correlationId.map (.start · sent.1)

/-- The acts of an event: what its reports name, and what its publications stand for. -/
def DispatchState.acts [Quantity α] [Outlet σ] (s : DispatchState α) : Event α σ → List (Act α)
  | .registration message now =>
    match (s.applyRegistration message now).1 with
    | .ok true => [if message.kind = .exit then .leave message.queue else .beat message.queue]
    | .ok false | .error _ => []
  | .work id profile duration arrivedAt origin _ =>
    match (s.tasks.add (Task.arrive id profile duration arrivedAt origin)).1 with
    | .ok old => [.accept (Task.arrive id profile duration arrivedAt origin) old.isSome]
    | .error _ => []
  | .pass strategy outlet now =>
    (s.pruneExpired now).1.removed.map .leave ++
      (Hub.pass { state := s, outlet := Journal.mk outlet [] } strategy now).2.outlet.sent.filterMap Act.ofDispatch
  | .response id body redelivered outlet now =>
    match s.processResponse id body redelivered (Journal.mk outlet []) now with
    | (.ok .ack, _, journal) => [.finish id journal.sent]
    | (.ok (.nack false), _, journal) => [.drop id journal.sent]
    | (.ok (.nack true), _, journal) => [.defer id journal.sent]
    | (.error _, _, _) => []
  | .round threshold outlet now =>
    let exhausted := (s.sweep now threshold).2.evictExhausted.1
    let told := Hub.notices outlet (Hub.roundOf s now threshold).2.1
    (s.sweep now threshold).1.removed.map .leave ++
      (told.take exhausted.length).map (fun notice => .giveUp notice.1.id notice.2) ++
      (told.drop exhausted.length).map (fun notice => .expire notice.1.id notice.2)

/-- The acts of which an event can consist. -/
def Event.Permits : Event α σ → Act α → Prop
  | .registration message _, .beat _ => message.kind ≠ .exit
  | .registration message _, .leave _ => message.kind = .exit
  | .work .., .accept .. => True
  | .pass .., .leave _ | .pass .., .start .. => True
  | .response .., .finish .. | .response .., .drop .. | .response .., .defer .. => True
  | .round .., .leave _ | .round .., .giveUp .. | .round .., .expire .. => True
  | _, _ => False

theorem DispatchState.permits_of_mem_acts [Quantity α] [Outlet σ] {s : DispatchState α} {e : Event α σ} {act : Act α}
    (h : act ∈ s.acts e) : e.Permits act := by
  cases e with
  | registration message now =>
    simp only [acts] at h
    split at h
    · obtain rfl := List.mem_singleton.1 h
      split
      · assumption
      · assumption
    · cases h
    · cases h
  | work id profile duration arrivedAt origin now =>
    simp only [acts] at h
    split at h
    · obtain rfl := List.mem_singleton.1 h
      exact trivial
    · cases h
  | pass strategy outlet now =>
    rcases List.mem_append.1 h with h | h
    · obtain ⟨queue, -, rfl⟩ := List.mem_map.1 h
      exact trivial
    · obtain ⟨sent, -, h⟩ := List.mem_filterMap.1 h
      obtain ⟨id, -, rfl⟩ := Option.map_eq_some_iff.1 h
      exact trivial
  | response id body redelivered outlet now =>
    simp only [acts] at h
    split at h
    · obtain rfl := List.mem_singleton.1 h
      exact trivial
    · obtain rfl := List.mem_singleton.1 h
      exact trivial
    · obtain rfl := List.mem_singleton.1 h
      exact trivial
    · cases h
  | round threshold outlet now =>
    simp only [acts, List.mem_append, List.mem_map] at h
    rcases h with (⟨queue, -, rfl⟩ | ⟨notice, -, rfl⟩) | ⟨notice, -, rfl⟩
    all_goals exact trivial

/-! ### Moves -/

/-- A task that has not been given to any worker yet. -/
structure Task.IsNew (task : Task α) : Prop where
  assignedTo : task.assignedTo = none
  started : task.started = false
  failures : task.failures = 0
  forwardFailedAt : task.forwardFailedAt = none

theorem Task.isNew_arrive (id : String) (profile : ModelProfile α) (duration : α) (arrivedAt : Instant)
    (origin : Origin) : (Task.arrive id profile duration arrivedAt origin).IsNew := ⟨rfl, rfl, rfl, rfl⟩

/-- What is accepted for a task that is given up: a notice to its caller, or nothing. -/
def Task.Notified (task : Task α) (sent : List Sent) : Prop :=
  sent = [] ∨ ∃ replyTo reason, task.origin.replyTo = some replyTo ∧ sent = [(replyTo, failureMessage task reason)]

/-- Everything in a dispatch stands under its name. -/
structure DispatchState.Named (s : DispatchState α) : Prop where
  workers : s.workers.Named
  tasks : s.tasks.Named

open DispatchState in
/-- What an act does to a state, and when it can be done.  Starts may be restricted to pending tasks. -/
inductive Move [Quantity α] (onlyPending : Prop) : DispatchState α → Act α → DispatchState α → Prop
  | beat (s queue beatAt now) :
    Move onlyPending s (.beat queue) { s with workers := (s.workers.registerBeat queue beatAt now).2 }
  | leave (s queue) : Move onlyPending s (.leave queue) (s.exitWorker queue).2
  | accept {s task} (hnew : task.IsNew) (hfree : s.tasks.tasks.get? task.id = none) :
    Move onlyPending s (.accept task false) (s.putTask task.id task)
  | replace {s task old} (now) (hnew : task.IsNew) (hold : s.tasks.tasks.get? task.id = some old) :
    Move onlyPending s (.accept task true) ((s.releaseWorkerOf old old.id now).putTask task.id task)
  | start {s id queue task worker} (now) (htask : s.tasks.tasks.get? id = some task)
    (hwaits : task.started = false) (hpending : onlyPending → task.isPending s.tasks.ceiling = true)
    (hworker : s.workers.workers.get? queue = some worker) (hidle : worker.busy = false) :
    Move onlyPending s (.start id queue) (s.bound task worker id queue now)
  | finish {s id task} (now body) (htask : s.tasks.tasks.get? id = some task) :
    Move onlyPending s
      (.finish id (task.origin.replyTo.toList.map fun replyTo => (replyTo, ⟨body, some task.callerCorrelation, none⟩)))
      ((s.releaseWorkerOf task id now).forget id)
  | drop {s id task} (now) (htask : s.tasks.tasks.get? id = some task) :
    Move onlyPending s (.drop id []) ((s.releaseWorkerOf task id now).forget id)
  | defer {s id task} (now) (htask : s.tasks.tasks.get? id = some task) :
    Move onlyPending s (.defer id []) ((s.releaseWorkerOf task id now).putTask id (task.unforwarded now))
  | giveUp {s id task sent} (htask : s.tasks.tasks.get? id = some task) (hwaits : task.started = false)
    (hexhausted : task.isExhausted s.tasks.ceiling = true) (htold : task.Notified sent) :
    Move onlyPending s (.giveUp id sent) (s.forget id)
  | expire {s id task sent} (htask : s.tasks.tasks.get? id = some task)
    (hfailed : task.forwardFailedAt.isSome = true) (htold : task.Notified sent) :
    Move onlyPending s (.expire id sent) (s.forget id)

/-- One move after another. -/
inductive Moves [Quantity α] (onlyPending : Prop) : DispatchState α → List (Act α) → DispatchState α → Prop
  | nil (s) : Moves onlyPending s [] s
  | cons {s s' s'' act acts} : Move onlyPending s act s' → Moves onlyPending s' acts s'' →
    Moves onlyPending s (act :: acts) s''

namespace Moves

variable [Quantity α] {onlyPending : Prop} {s s' s'' : DispatchState α} {act : Act α} {acts acts' : List (Act α)}

theorem single (h : Move onlyPending s act s') : Moves onlyPending s [act] s' := .cons h (.nil s')

theorem append (h : Moves onlyPending s acts s') (h' : Moves onlyPending s' acts' s'') :
    Moves onlyPending s (acts ++ acts') s'' := by
  induction h with
  | nil => exact h'
  | cons hmove _ ih => exact .cons hmove (ih h')

/-- What every move among the acts keeps, all of them keep. -/
theorem invariant {motive : DispatchState α → Prop} (h : Moves onlyPending s acts s')
    (step : ∀ {s act s'}, act ∈ acts → Move onlyPending s act s' → motive s → motive s') (hs : motive s) :
    motive s' := by
  induction h with
  | nil => exact hs
  | cons hmove _ ih =>
    refine ih (fun hmem => step (List.mem_cons_of_mem _ hmem)) ?_
    exact step (List.mem_cons_self ..) hmove hs

end Moves

/-! ### Names are kept -/

namespace DispatchState

theorem Named.putTask {s : DispatchState α} (hs : s.Named) {id : String} {task : Task α} (hid : task.id = id) :
    (s.putTask id task).Named := by
  refine ⟨hs.workers, fun {other t} h => ?_⟩
  rw [get?_putTask] at h
  split at h
  · obtain rfl := Option.some.inj h
    exact hid.trans (Eq.symm ‹other = id›)
  · exact hs.tasks h

theorem Named.forget {s : DispatchState α} (hs : s.Named) (id : String) : (s.forget id).Named := by
  refine ⟨hs.workers, fun {other t} h => ?_⟩
  rw [get?_forget] at h
  split at h
  · cases h
  · exact hs.tasks h

theorem Named.releaseWorkerOf {s : DispatchState α} (hs : s.Named) (task : Task α) (id : String) (now : Instant) :
    (s.releaseWorkerOf task id now).Named := by
  refine ⟨fun {queue worker} h => ?_, fun h => ?_⟩
  · obtain ⟨old, hold, hqueue⟩ := exists_of_get?_releaseWorkerOf h
    rw [hqueue]
    exact hs.workers hold
  · rw [releaseWorkerOf_tasks] at h
    exact hs.tasks h

theorem Named.exitWorker {s : DispatchState α} (hs : s.Named) (queue : String) : (s.exitWorker queue).2.Named := by
  cases hworker : s.workers.workers.get? queue with
  | none =>
    rw [exitWorker_of_get?_eq_none hworker]
    exact hs
  | some worker =>
    rw [exitWorker_of_get? hworker]
    refine ⟨fun {other w} h => ?_, fun {id t} h => ?_⟩
    · change (s.workers.workers.erase queue).get? other = some w at h
      rw [Table.get?_erase] at h
      split at h
      · cases h
      · exact hs.workers h
    · change (requeueHeld s.tasks [worker]).2.tasks.get? id = some t at h
      rw [get?_requeueHeld] at h
      obtain ⟨task, htask, rfl⟩ := Option.map_eq_some_iff.1 h
      rw [← hs.tasks htask]
      split <;> rfl

theorem Named.registerBeat {s : DispatchState α} (hs : s.Named) (queue : String) (beatAt now : Instant) :
    Named { s with workers := (s.workers.registerBeat queue beatAt now).2 } := by
  refine ⟨fun {name worker} h => ?_, hs.tasks⟩
  rcases WorkerRegistry.get?_registerBeat h with ⟨old, _, hold, rfl⟩ | ⟨-, rfl, rfl⟩
  · show old.queue = name
    exact hs.workers hold
  · rfl

theorem Named.bound [Quantity α] {s : DispatchState α} (hs : s.Named) {task : Task α} {worker : Worker}
    {id queue : String} (now : Instant) (htask : s.tasks.tasks.get? id = some task)
    (hworker : s.workers.workers.get? queue = some worker) : (s.bound task worker id queue now).Named := by
  have htasks : (s.putTask id (task.startedOn queue)).Named := hs.putTask (show task.id = id from hs.tasks htask)
  refine ⟨fun {name w} h => ?_, fun h => htasks.tasks h⟩
  change (s.workers.workers.insert queue (worker.turnedTo task now)).get? name = some w at h
  rw [Table.get?_insert] at h
  split at h
  · obtain rfl := Option.some.inj h
    exact (hs.workers hworker).trans (Eq.symm ‹name = queue›)
  · exact hs.workers h

end DispatchState

theorem Move.named [Quantity α] {onlyPending : Prop} {s s' : DispatchState α} {act : Act α}
    (h : Move onlyPending s act s') (hs : s.Named) : s'.Named := by
  cases h with
  | beat => exact hs.registerBeat ..
  | leave => exact hs.exitWorker _
  | accept => exact hs.putTask rfl
  | replace => exact (hs.releaseWorkerOf ..).putTask rfl
  | start now htask _ _ hworker => exact hs.bound now htask hworker
  | finish | drop => exact (hs.releaseWorkerOf ..).forget _
  | @defer id task now htask => exact (hs.releaseWorkerOf ..).putTask (show task.id = id from hs.tasks htask)
  | giveUp | expire => exact hs.forget _

theorem Moves.named [Quantity α] {onlyPending : Prop} {s s' : DispatchState α} {acts : List (Act α)}
    (h : Moves onlyPending s acts s') (hs : s.Named) : s'.Named :=
  h.invariant (fun _ hmove => hmove.named) hs

/-! ### Settings are kept -/

/-- What a dispatcher is set to, once and for all. -/
structure DispatchSettings where
  staleAfter : Int
  ceiling : Nat
  responseQueue : String
  publishTimeoutMillis : Nat

namespace DispatchState

def settings (s : DispatchState α) : DispatchSettings :=
  ⟨s.workers.staleAfter, s.tasks.ceiling, s.responseQueue, s.publishTimeoutMillis⟩

theorem settings_exitWorker (s : DispatchState α) (queue : String) : (s.exitWorker queue).2.settings = s.settings := by
  cases hworker : s.workers.workers.get? queue with
  | none => rw [exitWorker_of_get?_eq_none hworker]
  | some worker =>
    rw [exitWorker_of_get? hworker, settings, requeueHeld_ceiling]
    rfl

theorem settings_registerBeat (s : DispatchState α) (queue : String) (beatAt now : Instant) :
    settings { s with workers := (s.workers.registerBeat queue beatAt now).2 } = s.settings := by
  rw [WorkerRegistry.registerBeat_eq]
  split <;> rfl

theorem settings_releaseWorkerOf (s : DispatchState α) (task : Task α) (id : String) (now : Instant) :
    (s.releaseWorkerOf task id now).settings = s.settings := by
  unfold releaseWorkerOf
  cases task.assignedTo with
  | none => rfl
  | some queue =>
    simp only [settings, WorkerRegistry.staleAfter_releaseIfHolding]

end DispatchState

/-- No move changes the settings. -/
theorem Move.settings_eq [Quantity α] {onlyPending : Prop} {s s' : DispatchState α} {act : Act α}
    (h : Move onlyPending s act s') : s'.settings = s.settings := by
  cases h with
  | beat => exact s.settings_registerBeat ..
  | leave queue => exact s.settings_exitWorker queue
  | replace | finish | drop | defer => exact s.settings_releaseWorkerOf ..
  | accept | start | giveUp | expire => rfl

theorem Moves.settings_eq [Quantity α] {onlyPending : Prop} {s s' : DispatchState α} {acts : List (Act α)}
    (h : Moves onlyPending s acts s') : s'.settings = s.settings :=
  h.invariant (motive := fun t => t.settings = s.settings) (fun _ hmove ht => hmove.settings_eq.trans ht) rfl

end SpeechDispatch
