import SpeechDispatch.Proofs.Ledger
import SpeechDispatch.Proofs.WakeUps

/-!
# Tasks keep what they came with

The listener and the detector do errands (`Errand`).  An errand accepts one delivery as work at most, and a task that is
tracked afterwards has the origin of that delivery, or the one that it had before (`Errand.seen_of_admission`,
`Errand.exists_moves`, `Moves.seen_origin`).  What a round gives up still has the origin under which it was tracked
(`DispatchState.seen_of_mem_roundOf`).
-/

namespace SpeechDispatch

variable {α σ : Type}

/-- What a task keeps of the delivery that it came with. -/
def Delivery.origin (delivery : Delivery) : Origin := ⟨delivery.body, delivery.replyTo, delivery.correlationId⟩

/-! ### Work that is accepted -/

theorem Hub.exists_of_taskOf_eq_ok {lookups : Lookups α} {delivery : Delivery} {now : Instant} {task : Task α}
    (h : Hub.taskOf lookups delivery now = .ok task) :
    ∃ item profile duration, WorkItem.decode delivery.body = .ok item ∧
      task = Task.arrive item.id profile duration now delivery.origin := by
  unfold taskOf at h
  cases hitem : WorkItem.decode delivery.body with
  | error e =>
    rw [hitem] at h
    cases h
  | ok item =>
    rw [hitem] at h
    dsimp only [bind, Except.bind] at h
    cases hprofile : lookups.profile item.profile with
    | error e =>
      rw [hprofile] at h
      cases h
    | ok profile =>
      rw [hprofile] at h
      dsimp only at h
      cases hduration : lookups.duration item.id with
      | error e =>
        rw [hduration] at h
        cases h
      | ok duration =>
        rw [hduration] at h
        obtain rfl := Except.ok.inj h
        exact ⟨item, profile, duration, rfl, rfl⟩

/-- The delivery that an errand accepts as work, with the id that is read in it. -/
def Errand.admission? (s : DispatchState α) : Errand α σ → Option (String × Delivery)
  | .take lookups .work delivery outlet now =>
    match (Hub.processWorkItem { state := s, outlet } lookups delivery now).1, WorkItem.decode delivery.body with
    | .ok (), .ok item => some (item.id, delivery)
    | _, _ => none
  | _ => none

/-- A delivery is accepted under the id that is read in it. -/
theorem Errand.decode_of_admission {s : DispatchState α} {errand : Errand α σ} {id : String} {delivery : Delivery}
    (h : errand.admission? s = some (id, delivery)) : ∃ profile, WorkItem.decode delivery.body = .ok ⟨id, profile⟩ := by
  unfold admission? at h
  split at h
  · split at h
    · rename_i item _ hitem
      obtain ⟨rfl, rfl⟩ := Prod.mk.inj (Option.some.inj h)
      exact ⟨item.profile, hitem⟩
    · cases h
  · cases h

/-- Work that is taken is accepted, and then a task of its id comes in with it, or nothing changes. -/
theorem Errand.work_cases [Outlet σ] (s : DispatchState α) (lookups : Lookups α) (delivery : Delivery) (outlet : σ)
    (now : Instant) :
    let errand : Errand α σ := .take lookups .work delivery outlet now
    (errand.admission? s = none ∧ (errand.run s).2 = s) ∨
    ∃ item profile duration, WorkItem.decode delivery.body = .ok item ∧
      errand.admission? s = some (item.id, delivery) ∧
      (errand.run s).2 = (s.addTask (Task.arrive item.id profile duration now delivery.origin) now).2 ∧
      (errand.run s).2.seen Task.origin = Function.update (s.seen Task.origin) item.id (some delivery.origin) := by
  intro errand
  cases htask : Hub.taskOf lookups delivery now with
  | error e =>
    refine .inl ⟨?_, congrArg Prod.snd (run_of_futile (.unusable htask))⟩
    simp only [errand, admission?, Hub.processWorkItem, htask]
  | ok task =>
    obtain ⟨item, profile, duration, hitem, rfl⟩ := Hub.exists_of_taskOf_eq_ok htask
    rcases s.addTask_cases (Task.arrive item.id profile duration now delivery.origin) now with
      ⟨e, hadd, h⟩ | ⟨hadd, hold, h⟩ | ⟨old, hadd, hold, h⟩
    · refine .inl ⟨?_, congrArg Prod.snd (run_of_futile (.refused htask hadd))⟩
      simp only [errand, admission?, Hub.processWorkItem, htask, h]
    all_goals
      refine .inr ⟨item, profile, duration, hitem, ?_, ?_, ?_⟩
      · simp only [errand, admission?, Hub.processWorkItem, htask, h, hitem]
      · simp only [errand, run, Hub.handle, Hub.processWorkItem, htask, h, Hub.wake, Hub.countReceived]
      · simp only [errand, run, Hub.handle, Hub.processWorkItem, htask, h, Hub.wake, Hub.countReceived,
          DispatchState.seen_putTask, DispatchState.seen_releaseWorkerOf]
        rfl

/-! ### Origins are kept -/

section Moves

variable [Quantity α]

open DispatchState

/-- Only an acceptance gives an origin to anything. -/
private theorem Move.seen_origin {s s' : DispatchState α} {act : Act α} (h : Move False s act s') (hs : s.Named)
    (hact : ∀ task replaces, act ≠ .accept task replaces) {id : String} {origin : Origin}
    (hseen : s'.seen Task.origin id = some origin) : s.seen Task.origin id = some origin := by
  have hforget : ∀ other, Function.update (s.seen Task.origin) other none id = some origin →
      s.seen Task.origin id = some origin := by
    intro other hupdate
    rw [Function.update_apply] at hupdate
    split at hupdate
    · cases hupdate
    · exact hupdate
  cases h with
  | beat => exact hseen
  | leave queue =>
    rw [seen_exitWorker hs.workers fun _ _ => rfl] at hseen
    exact hseen
  | accept | replace => exact absurd rfl (hact _ _)
  | @start _ queue task worker now htask =>
    have hsame : (task.startedOn queue).origin = task.origin := rfl
    rw [seen_bound, update_seen_of_get? htask hsame] at hseen
    exact hseen
  | finish | drop =>
    rw [seen_forget, seen_releaseWorkerOf] at hseen
    exact hforget _ hseen
  | @defer _ task now htask =>
    have hsame : (task.unforwarded now).origin = task.origin := rfl
    rw [seen_putTask, seen_releaseWorkerOf, update_seen_of_get? htask hsame] at hseen
    exact hseen
  | giveUp | expire =>
    rw [seen_forget] at hseen
    exact hforget _ hseen

theorem Moves.seen_origin {s s' : DispatchState α} {acts : List (Act α)} (h : Moves False s acts s')
    (hs : s.Named) (hacts : ∀ task replaces, .accept task replaces ∉ acts) {id : String} {origin : Origin}
    (hseen : s'.seen Task.origin id = some origin) : s.seen Task.origin id = some origin := by
  let Kept (t : DispatchState α) : Prop :=
    t.Named ∧ (t.seen Task.origin id = some origin → s.seen Task.origin id = some origin)
  have hkept : Kept s' := h.invariant (motive := Kept) (fun {t act t'} hmem hmove ht => ?_) ⟨hs, fun h => h⟩
  · exact hkept.2 hseen
  · refine ⟨hmove.named ht.1, fun hafter => ht.2 (hmove.seen_origin ht.1 ?_ hafter)⟩
    rintro task replaces rfl
    exact hacts task replaces hmem

variable [Outlet σ]

/-- An event is a succession of moves, and accepts a task only if it is the arrival of work. -/
theorem DispatchState.exists_moves_after {s : DispatchState α} (hs : s.Named) (e : Event α σ)
    (hwork : ∀ task replaces, ¬ e.Permits (.accept task replaces)) :
    ∃ acts, Moves False s acts (s.after e) ∧ ∀ task replaces, .accept task replaces ∉ acts :=
  ⟨s.acts e, moves_after hs e False.elim, fun task replaces hmem => hwork task replaces (permits_of_mem_acts hmem)⟩

omit [Quantity α] in
/-- With a delivery that is accepted as work, its origin comes under its id. -/
theorem Errand.seen_of_admission {s : DispatchState α} {errand : Errand α σ} {id : String} {delivery : Delivery}
    (h : errand.admission? s = some (id, delivery)) :
    (errand.run s).2.seen Task.origin = Function.update (s.seen Task.origin) id (some delivery.origin) := by
  rcases errand with ⟨lookups, _ | _ | _, taken, outlet, now⟩ | ⟨threshold, now⟩
  · cases h
  · rcases work_cases s lookups taken outlet now with
      ⟨hnone, -⟩ | ⟨item, profile, duration, -, hadmitted, -, hseen⟩
    · rw [hnone] at h
      cases h
    · rw [hadmitted] at h
      obtain ⟨rfl, rfl⟩ := Prod.mk.inj (Option.some.inj h)
      exact hseen
  · cases h
  · cases h

/-- An errand is a succession of moves, and accepts a task only if it accepts a delivery as work. -/
theorem Errand.exists_moves {s : DispatchState α} (hs : s.Named) (errand : Errand α σ) :
    ∃ acts, Moves False s acts (errand.run s).2 ∧
      (errand.admission? s = none → ∀ task replaces, .accept task replaces ∉ acts) := by
  have hsame : (errand.run s).2 = s → ∃ acts, Moves False s acts (errand.run s).2 ∧
      (errand.admission? s = none → ∀ task replaces, .accept task replaces ∉ acts) := by
    intro h
    rw [h]
    exact ⟨[], .nil s, fun _ _ _ => List.not_mem_nil⟩
  cases errand with
  | take lookups channel delivery outlet now =>
    cases channel with
    | heartbeat =>
      cases hmessage : Registration.decode delivery.body with
      | error e => exact hsame (congrArg Prod.snd (run_of_futile (.unreadable hmessage)))
      | ok message =>
        have hrun : ((Errand.take lookups .heartbeat delivery outlet now).run s).2 =
            s.after (.registration message now : Event α σ) := by
          simp only [run, Hub.handle, Hub.processRegistration, hmessage, after]
          rcases s.applyRegistration message now with ⟨_ | _ | _, state⟩ <;> rfl
        obtain ⟨acts, hmoves, hacts⟩ := exists_moves_after hs (.registration message now : Event α σ) fun _ _ h => h
        exact ⟨acts, hrun ▸ hmoves, fun _ => hacts⟩
    | work =>
      rcases work_cases s lookups delivery outlet now with
        ⟨-, h⟩ | ⟨item, profile, duration, -, hadmitted, h, -⟩
      · exact hsame h
      · rw [h, hadmitted]
        refine ⟨_, moves_after hs (.work item.id profile duration now delivery.origin now : Event α σ) False.elim, ?_⟩
        exact fun hnone => absurd hnone (Option.some_ne_none _)
    | response =>
      cases hid : delivery.correlationId with
      | none => exact hsame (congrArg Prod.snd (run_of_futile (.unaddressed hid)))
      | some id =>
        have hrun : ((Errand.take lookups .response delivery outlet now).run s).2 =
            s.after (.response id delivery.body delivery.redelivered outlet now) := by
          simp only [run, Hub.handle, Hub.processResponse, hid, after]
          rcases s.processResponse id delivery.body delivery.redelivered outlet now with ⟨e | _ | _, state, outlet'⟩
          · cases e <;> rfl
          · rfl
          · rfl
        obtain ⟨acts, hmoves, hacts⟩ :=
          exists_moves_after hs (.response id delivery.body delivery.redelivered outlet now) fun _ _ h => h
        exact ⟨acts, hrun ▸ hmoves, fun _ => hacts⟩
  | round threshold now =>
    -- what a round removes does not depend on what becomes of its notices
    have hrun : ((Errand.round threshold now : Errand α σ).run s).2 =
        s.after (.round threshold Publication.accepted now) := by
      rw [after_round]
      rfl
    obtain ⟨acts, hmoves, hacts⟩ :=
      exists_moves_after hs (.round threshold Publication.accepted now) fun _ _ h => h
    exact ⟨acts, hrun ▸ hmoves, fun _ => hacts⟩

end Moves

/-! ### Tasks that are given up -/

namespace DispatchState

variable {s : DispatchState α} {now : Instant} {threshold : Int}

theorem seen_sweep (s : DispatchState α) (now : Instant) (threshold : Int) :
    (s.sweep now threshold).2.seen Task.origin = s.seen Task.origin := by
  funext id
  unfold seen sweep
  dsimp only
  rw [get?_requeueHeld, Option.map_map]
  congr 1
  funext task
  dsimp only [Function.comp]
  split <;> rfl

/-- What a round gives up was tracked before with what it came with, and is not tracked afterwards. -/
theorem seen_of_mem_roundOf [Quantity α] (hs : s.Named) {task : Task α} {reason : String}
    (h : (task, reason) ∈ (Hub.roundOf s now threshold).2.1) :
    s.seen Task.origin task.id = some task.origin ∧
      (Hub.roundOf s now threshold).2.2.tasks.tasks.get? task.id = none := by
  have hswept : (s.sweep now threshold).2.Named := hs.sweep now threshold
  have hback : ∀ {id}, (s.sweep now threshold).2.tasks.tasks.get? id = some task →
      id = task.id ∧ s.seen Task.origin task.id = some task.origin := by
    intro id htask
    obtain rfl := hswept.tasks htask
    refine ⟨rfl, ?_⟩
    rw [← seen_sweep s now threshold]
    exact seen_of_get? htask
  simp only [Hub.roundOf, List.mem_append, List.mem_map, Prod.mk.injEq] at h
  change _ ∧ ((s.sweep now threshold).2.evictExhausted.2.evictUnredelivered now threshold).2.tasks.tasks.get? task.id =
    none
  rw [get?_evictUnredelivered]
  rcases h with ⟨task', hmem, rfl, -⟩ | ⟨task', hmem, rfl, -⟩
  · obtain ⟨id, hid, htask⟩ := Table.mem_takeAll.1 hmem
    obtain ⟨rfl, hseen⟩ := hback htask
    refine ⟨hseen, ?_⟩
    rw [get?_evictExhausted, if_pos hid, ite_self]
  · obtain ⟨id, hid, htask⟩ := Table.mem_takeAll.1 hmem
    have hthere := htask
    rw [get?_evictExhausted] at hthere
    split at hthere
    · cases hthere
    · obtain ⟨rfl, hseen⟩ := hback hthere
      exact ⟨hseen, if_pos hid⟩

end DispatchState

end SpeechDispatch
