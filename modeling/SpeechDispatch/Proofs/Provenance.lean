import SpeechDispatch.Proofs.Messages
import SpeechDispatch.Proofs.Origins
import SpeechDispatch.Proofs.PassMatching

/-!
# Whatever is published was received

Every message that the dispatcher hands to an outlet belongs to one delivery that it accepted as work, in whatever order
the listener, the controller and the detector act.  A task keeps the delivery that it came with, and the one accepted
last under an id is the one tracked under it (`World.Vouched`).  A notice may go out long after the round that gave its
task up, when something else is tracked under the id; it belongs to what was tracked at the time of the round
(`World.GivenUp`).

* `World.Due`: what may be attempted for a delivery, when, and where it goes.
* `World.due_of_attempt`: nothing else is ever attempted.
-/

namespace SpeechDispatch

variable {α σ ι : Type}

/-! ### Histories -/

namespace World

/-- What was done, each action with the world in which it was done. -/
abbrev History (α σ ι : Type) := List (World α ι × Action α σ ι)

/-- The delivery that an action accepts as work, with the id that is read in it. -/
def Action.admission? (w : World α ι) : Action α σ ι → Option (String × Delivery)
  | .change _ errand => errand.admission? w.state
  | _ => none

/-- The deliveries that were accepted as work, with their ids. -/
def admissions (history : History α σ ι) : List (String × Delivery) :=
  history.filterMap fun (w, action) => action.admission? w

/-- The delivery that was accepted last under an id. -/
def latest (id : String) (history : History α σ ι) : Option Delivery := (admissions history).reverse.lookup id

theorem latest_concat (id : String) (history : History α σ ι) (w : World α ι) (action : Action α σ ι) :
    latest id (history ++ [(w, action)]) =
      match action.admission? w with
      | some (other, delivery) => if id = other then some delivery else latest id history
      | none => latest id history := by
  unfold latest admissions
  rw [List.filterMap_append]
  cases h : action.admission? w with
  | none => simp only [List.filterMap_cons, h, List.filterMap_nil, List.append_nil]
  | some admitted =>
    obtain ⟨other, delivery⟩ := admitted
    simp only [List.filterMap_cons, h, List.filterMap_nil, List.reverse_append, List.reverse_singleton,
      List.singleton_append, List.lookup_cons]
    by_cases hid : id = other
    · simp only [hid, BEq.rfl, if_true]
    · simp only [hid, beq_eq_false_iff_ne.2 hid, if_false]

theorem decode_of_latest {id : String} {history : History α σ ι} {delivery : Delivery}
    (h : latest id history = some delivery) : ∃ profile, WorkItem.decode delivery.body = .ok ⟨id, profile⟩ := by
  obtain ⟨_, _, hsplit, -⟩ := List.lookup_eq_some_iff.1 h
  have hmem : (id, delivery) ∈ (admissions history).reverse := by
    rw [hsplit]
    exact List.mem_append_right _ (List.mem_cons_self ..)
  obtain ⟨⟨w, action⟩, -, hadmitted⟩ := List.mem_filterMap.1 (List.mem_reverse.1 hmem)
  cases action with
  | change i errand => exact Errand.decode_of_admission hadmitted
  | tell | signal | await | lock | pass => cases hadmitted

/-- In a round of the history the task was given up, for the reason; it had come with the delivery, which was the one
accepted last under its id by then, and nothing was tracked under the id afterwards. -/
inductive GivenUp (history : History α σ ι) (task : Task α) (reason : String) (delivery : Delivery) : Prop
  | round {before later : History α σ ι} {w : World α ι} {i : ι} {threshold : Int} {now : Instant}
    (hround : history = before ++ (w, .change i (.round threshold now)) :: later)
    (hevicted : (task, reason) ∈ (Hub.roundOf w.state now threshold).2.1)
    (hgone : (Hub.roundOf w.state now threshold).2.2.tasks.tasks.get? task.id = none)
    (horigin : task.origin = delivery.origin) (hlatest : latest task.id before = some delivery)

namespace GivenUp

variable {history : History α σ ι} {task : Task α} {reason : String} {delivery : Delivery}

theorem concat (h : GivenUp history task reason delivery) (step : World α ι × Action α σ ι) :
    GivenUp (history ++ [step]) task reason delivery := by
  obtain ⟨hround, hevicted, hgone, horigin, hlatest⟩ := h
  have hlater := congrArg (· ++ [step]) hround
  simp only [List.append_assoc, List.cons_append] at hlater
  exact .round hlater hevicted hgone horigin hlatest

theorem origin_eq (h : GivenUp history task reason delivery) : task.origin = delivery.origin := by
  cases h with
  | round _ _ _ horigin => exact horigin

theorem exists_profile (h : GivenUp history task reason delivery) :
    ∃ profile, WorkItem.decode delivery.body = .ok ⟨task.id, profile⟩ := by
  cases h with
  | round _ _ _ _ hlatest => exact decode_of_latest hlatest

end GivenUp

/-- Every tracked task came with the delivery accepted last under its id, and every notice that is owed is of a task
that was given up. -/
structure Vouched (settings : DispatchSettings) (history : History α σ ι) (w : World α ι) : Prop where
  named : w.state.Named
  settings_eq : w.state.settings = settings
  tracked : ∀ {id origin}, w.state.seen Task.origin id = some origin →
    ∃ delivery, latest id history = some delivery ∧ origin = delivery.origin
  owed : ∀ {i notices task reason}, w.duties i = .owes notices → (task, reason) ∈ notices →
    ∃ delivery, GivenUp history task reason delivery

section Steps

variable [Quantity α] [Outlet σ] [DecidableEq ι]

/-- A history that leads from one world to another. -/
inductive Leads (start : World α ι) : History α σ ι → World α ι → Prop
  | nil : Leads start [] start
  | concat {history w action w'} : Leads start history w → Step w action w' →
    Leads start (history ++ [(w, action)]) w'

/-- A step is a succession of moves, and accepts a task only if it accepts a delivery as work. -/
private theorem Step.exists_moves {w w' : World α ι} {action : Action α σ ι} (h : Step w action w')
    (hs : w.state.Named) :
    ∃ acts, Moves False w.state acts w'.state ∧
      (action.admission? w = none → ∀ task replaces, .accept task replaces ∉ acts) := by
  cases h with
  | change errand =>
    obtain ⟨acts, hmoves, hacts⟩ := errand.exists_moves hs
    exact ⟨acts, hmoves, hacts⟩
  | tell | take | wait | lock => exact ⟨[], .nil _, fun _ _ _ => List.not_mem_nil⟩
  | signal =>
    rw [state_signal]
    exact ⟨[], .nil _, fun _ _ _ => List.not_mem_nil⟩
  | pass strategy outlet now =>
    obtain ⟨acts, hmoves, hacts⟩ := DispatchState.exists_moves_after hs (.pass strategy outlet now) fun _ _ h => h
    unfold DispatchState.after at hmoves
    dsimp only at hmoves ⊢
    exact ⟨acts, hmoves, fun _ => hacts⟩

/-- Notices come from rounds, and are kept until they are sent. -/
private theorem Step.owes_cases {w w' : World α ι} {action : Action α σ ι} (h : Step w action w') {i : ι}
    {notices : List (Task α × String)} (howes : w'.duties i = .owes notices) {notice : Task α × String}
    (hmem : notice ∈ notices) :
    (∃ old, w.duties i = .owes old ∧ notice ∈ old) ∨
    ∃ threshold now, action = .change i (.round threshold now) ∧
      notice ∈ (Hub.roundOf w.state now threshold).2.1 := by
  cases h with
  | @change j errand =>
    change (w.setDuty j (errand.run w.state).1).duties i = .owes notices at howes
    rw [duties_setDuty] at howes
    split at howes
    · rename_i hi
      subst hi
      cases errand with
      | take lookups channel delivery outlet now =>
        simp only [Errand.run] at howes
        split at howes
        · obtain rfl := (Duty.owes.inj howes).symm
          cases hmem
        · cases howes
      | round threshold now =>
        simp only [Errand.run] at howes
        split at howes
        · cases howes
        · obtain rfl := Duty.owes.inj howes
          exact .inr ⟨threshold, now, rfl, hmem⟩
    · exact .inl ⟨notices, howes, hmem⟩
  | @tell j first rest outlet hfirst =>
    rw [duties_setDuty] at howes
    split at howes
    · rename_i hi
      subst hi
      split at howes
      · obtain rfl := Duty.owes.inj howes
        exact .inl ⟨_, hfirst, List.mem_cons_of_mem _ hmem⟩
      · cases howes
    · exact .inl ⟨notices, howes, hmem⟩
  | signal =>
    rw [duties_signal, duties_setDuty] at howes
    split at howes
    · cases howes
    · exact .inl ⟨notices, howes, hmem⟩
  | take | wait | lock | pass => exact .inl ⟨notices, howes, hmem⟩

private theorem Step.seen_of_admission {w w' : World α ι} {action : Action α σ ι} (h : Step w action w') {id : String}
    {delivery : Delivery} (hadmitted : action.admission? w = some (id, delivery)) :
    w'.state.seen Task.origin = Function.update (w.state.seen Task.origin) id (some delivery.origin) := by
  cases h with
  | change errand => exact Errand.seen_of_admission hadmitted
  | tell | signal | take | wait | lock | pass => cases hadmitted

namespace Vouched

variable {settings : DispatchSettings} {history : History α σ ι} {w w' : World α ι} {action : Action α σ ι}

theorem step (h : Vouched settings history w) (hstep : Step w action w') :
    Vouched settings (history ++ [(w, action)]) w' := by
  obtain ⟨acts, hmoves, hacts⟩ := hstep.exists_moves h.named
  refine ⟨hmoves.named h.named, hmoves.settings_eq.trans h.settings_eq, ?_, ?_⟩
  · intro id origin hseen
    rw [latest_concat]
    cases hadmitted : action.admission? w with
    | none => exact h.tracked (hmoves.seen_origin h.named (hacts hadmitted) hseen)
    | some admitted =>
      obtain ⟨other, delivery⟩ := admitted
      rw [hstep.seen_of_admission hadmitted, Function.update_apply] at hseen
      dsimp only
      split at hseen
      · rename_i hid
        rw [if_pos hid]
        exact ⟨delivery, rfl, (Option.some.inj hseen).symm⟩
      · rename_i hid
        rw [if_neg hid]
        exact h.tracked hseen
  · intro i notices task reason howes hmem
    rcases hstep.owes_cases howes hmem with ⟨old, hold, hmem⟩ | ⟨threshold, now, rfl, hmem⟩
    · obtain ⟨delivery, hgivenUp⟩ := h.owed hold hmem
      exact ⟨delivery, hgivenUp.concat _⟩
    · obtain ⟨hseen, hgone⟩ := DispatchState.seen_of_mem_roundOf h.named hmem
      obtain ⟨delivery, hlatest, horigin⟩ := h.tracked hseen
      exact ⟨delivery, .round rfl hmem hgone horigin hlatest⟩

theorem of_leads {s : DispatchState α} (hs : s.Named) (hnone : ∀ id, s.tasks.tasks.get? id = none)
    (h : Leads { state := s } history w) : Vouched s.settings history w := by
  induction h with
  | nil =>
    refine ⟨hs, rfl, fun {id origin} hseen => ?_, nofun⟩
    rw [DispatchState.seen, hnone] at hseen
    cases hseen
  | concat _ hstep ih => exact ih.step hstep

end Vouched

end Steps

/-! ### What is attempted -/

variable [Quantity α] [Outlet σ]

/-- What an action attempts to publish in a world. -/
def Action.attempts (w : World α ι) : Action α σ ι → List Attempt
  | .change _ (.take lookups channel delivery outlet now) =>
    (Hub.handle { state := w.state, outlet := Transcript.mk outlet [] } lookups channel delivery now).2.outlet.attempts
  | .tell i outlet =>
    match w.duties i with
    | .owes (notice :: _) => (Hub.notifyAll (Transcript.mk outlet []) [notice]).2.attempts
    | _ => []
  | .pass strategy outlet now =>
    (Hub.pass { state := w.state, outlet := Transcript.mk outlet [] } strategy now).2.outlet.attempts
  | .change _ (.round ..) | .signal _ | .await | .lock => []

/-- What is attempted for a delivery that was accepted as work, with the id that is read in it. -/
inductive Due (responseQueue : String) (history : History α σ ι) (w : World α ι) (id : String) (delivery : Delivery) :
    Action α σ ι → Attempt → Prop
  /-- A pass sends the body to a worker, as it came. -/
  | dispatch {strategy outlet now queue worker accepted} (hlatest : latest id history = some delivery)
    (htracked : w.state.seen Task.origin id = some delivery.origin)
    (hworker : (w.state.pruneExpired now).2.workers.workers.get? queue = some worker) :
    Due responseQueue history w id delivery (.pass strategy outlet now)
      ⟨queue, ⟨delivery.body, some id, some responseQueue⟩, accepted⟩
  /-- A result of that id is sent on, as it came. -/
  | answer {i lookups response outlet now replyTo accepted} (hlatest : latest id history = some delivery)
    (htracked : w.state.seen Task.origin id = some delivery.origin) (hcorrelation : response.correlationId = some id)
    (hreply : delivery.replyTo = some replyTo) :
    Due responseQueue history w id delivery (.change i (.take lookups .response response outlet now))
      ⟨replyTo, ⟨response.body, some (delivery.correlationId.getD id), none⟩, accepted⟩
  /-- The caller is told that the task was given up, and how often it had failed; a count has 32 bits. -/
  | notice {i outlet task reason replyTo body accepted} (hgivenUp : GivenUp history task reason delivery)
    (hid : task.id = id) (hreply : delivery.replyTo = some replyTo)
    (hbody : body = Bytes.ofText (FailureNotice.encode ⟨id, reason, task.failures⟩))
    (hread : task.failures < size32 → FailureNotice.decode body = .ok ⟨id, reason, task.failures⟩) :
    Due responseQueue history w id delivery (.tell i outlet)
      ⟨replyTo, ⟨body, some (delivery.correlationId.getD id), none⟩, accepted⟩

namespace Vouched

variable {settings : DispatchSettings} {history : History α σ ι} {w : World α ι}

private theorem due_of_response (h : Vouched settings history w) (i : ι) {lookups : Lookups α} {response : Delivery}
    {outlet : σ} {now : Instant} {attempt : Attempt}
    (hattempt : attempt ∈ (Action.change i (.take lookups .response response outlet now)).attempts w) :
    ∃ id delivery, Due settings.responseQueue history w id delivery
      (.change i (.take lookups .response response outlet now)) attempt := by
  unfold Action.attempts at hattempt
  dsimp only at hattempt
  rw [Hub.outlet_handle] at hattempt
  cases hcorrelation : response.correlationId with
  | none =>
    rw [hcorrelation] at hattempt
    cases hattempt
  | some id =>
    rw [hcorrelation] at hattempt
    dsimp only at hattempt
    rw [DispatchState.attempts_processResponse, List.nil_append] at hattempt
    cases htask : w.state.tasks.tasks.get? id with
    | none =>
      rw [htask] at hattempt
      cases hattempt
    | some task =>
      rw [htask] at hattempt
      obtain ⟨replyTo, hreply, rfl⟩ := List.mem_map.1 hattempt
      have hseen : w.state.seen Task.origin id = some task.origin := DispatchState.seen_of_get? htask
      obtain ⟨delivery, hlatest, horigin⟩ := h.tracked hseen
      rw [Option.mem_toList, horigin] at hreply
      rw [horigin] at hseen
      have hcaller : task.callerCorrelation = delivery.correlationId.getD id := by
        rw [Task.callerCorrelation, horigin, h.named.tasks htask]
        rfl
      rw [hcaller]
      exact ⟨id, delivery, .answer hlatest hseen hcorrelation hreply⟩

private theorem due_of_tell (h : Vouched settings history w) (i : ι) {outlet : σ} {attempt : Attempt}
    (hattempt : attempt ∈ (Action.tell i outlet).attempts w) :
    ∃ id delivery, Due settings.responseQueue history w id delivery (.tell i outlet) attempt := by
  unfold Action.attempts at hattempt
  dsimp only at hattempt
  split at hattempt
  · rename_i notice rest howes
    rcases Hub.tells_of_mem_attempts hattempt with hnone | ⟨task, reason, hnotice, hreply, hmessage⟩
    · cases hnone
    obtain rfl := List.mem_singleton.1 hnotice
    obtain ⟨delivery, hgivenUp⟩ := h.owed howes (List.mem_cons_self ..)
    have hcaller : task.callerCorrelation = delivery.correlationId.getD task.id := by
      rw [Task.callerCorrelation, hgivenUp.origin_eq]
      rfl
    obtain ⟨queue, message, accepted⟩ := attempt
    rw [hgivenUp.origin_eq] at hreply
    rw [failureMessage, hcaller] at hmessage
    obtain rfl := hmessage
    exact ⟨task.id, delivery, .notice hgivenUp rfl hreply rfl fun hcount => FailureNotice.decode_encode hcount⟩
  · cases hattempt

private theorem due_of_pass (h : Vouched settings history w) {strategy : Strategy α} {outlet : σ} {now : Instant}
    {attempt : Attempt} (hattempt : attempt ∈ (Action.pass strategy outlet now : Action α σ ι).attempts w) :
    ∃ id delivery, Due settings.responseQueue history w id delivery (.pass strategy outlet now) attempt := by
  let hub : Hub α (Transcript σ) := { state := w.state, outlet := Transcript.mk outlet [] }
  have hpruned : (hub.prune now).state.Named := h.named.sweep now w.state.workers.staleAfter
  obtain ⟨attempts, pairs, hoffered, -⟩ :=
    (hub.prune now).offered_offerAll hpruned strategy now (hub.prune now).state.workers.idleQueues
  have hmem : attempt ∈ attempts := by
    have hall : (hub.pass strategy now).2.outlet.attempts = attempts := by
      rw [Hub.outlet_pass, hoffered.attempts_eq]
      rfl
    rw [← hall]
    exact hattempt
  obtain ⟨id, task, htask, hmessage⟩ := hoffered.messages attempt hmem
  obtain ⟨worker, hworker, -⟩ := (WorkerRegistry.mem_idleQueues hpruned.workers).1
    (hoffered.sublist.subset (List.mem_map_of_mem hmem))
  -- the removals before the offers leave every task with its origin
  have hseen : w.state.seen Task.origin id = some task.origin := by
    rw [← DispatchState.seen_sweep w.state now w.state.workers.staleAfter]
    exact DispatchState.seen_of_get? htask
  obtain ⟨delivery, hlatest, horigin⟩ := h.tracked hseen
  rw [horigin] at hseen
  have hqueue : (hub.prune now).state.responseQueue = settings.responseQueue :=
    congrArg DispatchSettings.responseQueue h.settings_eq
  obtain ⟨queue, message, accepted⟩ := attempt
  obtain rfl : message = ⟨delivery.body, some id, some settings.responseQueue⟩ := by
    refine hmessage.trans ?_
    rw [DispatchState.dispatchMessage, hqueue, hpruned.tasks htask, horigin]
    rfl
  exact ⟨id, delivery, .dispatch hlatest hseen hworker⟩

theorem due_of_mem_attempts (h : Vouched settings history w) {action : Action α σ ι} {attempt : Attempt}
    (hattempt : attempt ∈ action.attempts w) :
    ∃ id delivery, Due settings.responseQueue history w id delivery action attempt := by
  cases action with
  | change i errand =>
    cases errand with
    | take lookups channel delivery outlet now =>
      cases channel with
      | response => exact h.due_of_response i hattempt
      | heartbeat | work =>
        unfold Action.attempts at hattempt
        dsimp only at hattempt
        rw [Hub.outlet_handle] at hattempt
        cases hattempt
    | round threshold now => cases hattempt
  | tell i outlet => exact h.due_of_tell i hattempt
  | pass strategy outlet now => exact h.due_of_pass hattempt
  | signal | await | lock => cases hattempt

end Vouched

namespace Due

variable {responseQueue : String} {history : History α σ ι} {w : World α ι} {id : String} {delivery : Delivery}
  {action : Action α σ ι} {attempt : Attempt}

omit [Quantity α] [Outlet σ] in
theorem exists_profile (h : Due responseQueue history w id delivery action attempt) :
    ∃ profile, WorkItem.decode delivery.body = .ok ⟨id, profile⟩ := by
  cases h with
  | dispatch hlatest | answer hlatest => exact decode_of_latest hlatest
  | notice hgivenUp hid =>
    rw [← hid]
    exact hgivenUp.exists_profile

omit [Quantity α] [Outlet σ] in
theorem exists_pass (h : Due responseQueue history w id delivery action attempt) (hreply : delivery.replyTo = none) :
    ∃ strategy outlet now, action = .pass strategy outlet now := by
  cases h with
  | dispatch => exact ⟨_, _, _, rfl⟩
  | answer _ _ _ hsome | notice _ _ hsome =>
    rw [hreply] at hsome
    cases hsome

end Due

/-- However the listener, the controller and the detector take their turns, all that is ever attempted belongs to one
delivery that was accepted as work: its own body to a worker, under its own id and with the address of the dispatcher;
or a result of that id or the notice that it was given up, to the address that it left, under the correlation id that it
came with.  If it left no address, nothing but the body goes anywhere. -/
theorem due_of_attempt [DecidableEq ι] (staleAfter : Int) (ceiling : Nat) (responseQueue : String)
    (publishTimeoutMillis : Nat) {history : History α σ ι} {w : World α ι} {action : Action α σ ι} {attempt : Attempt}
    (hleads : Leads { state := .start staleAfter ceiling responseQueue publishTimeoutMillis } history w)
    (hattempt : attempt ∈ action.attempts w) :
    ∃ id delivery, Due responseQueue history w id delivery action attempt ∧
      (∃ profile, WorkItem.decode delivery.body = .ok ⟨id, profile⟩) ∧
      (delivery.replyTo = none → ∃ strategy outlet now, action = .pass strategy outlet now) := by
  have hvouched : Vouched _ history w := .of_leads (DispatchState.named_start ..) (fun _ => rfl) hleads
  obtain ⟨id, delivery, hdue⟩ := hvouched.due_of_mem_attempts hattempt
  exact ⟨id, delivery, hdue, hdue.exists_profile, hdue.exists_pass⟩

/-- A request of an item, from somebody who waits for its result. -/
def request : Delivery :=
  { tag := 1, body := Bytes.ofText "\x7b\"id\":\"t\",\"profile\":\"p\"\x7d", replyTo := some "caller" }

def result : Delivery := { tag := 2, body := Bytes.ofText "done", correlationId := some "t" }

/-- The result of the request goes to the one who waits for it. -/
theorem due_of_attempt_result :
    ∃ (history : History Rat Publication (Fin 2)) (w : World Rat (Fin 2)) (lookups : Lookups Rat),
      let arrival : Action Rat Publication (Fin 2) := .change 1 (.take lookups .response result .accepted 2000000)
      let answer : Attempt := ⟨"caller", ⟨Bytes.ofText "done", some "t", none⟩, true⟩
      Leads { state := .start 30 3 "results" 10000 } history w ∧ latest "t" history = some request ∧
      answer ∈ arrival.attempts w ∧ ∃ id delivery, Due "results" history w id delivery arrival answer := by
  let lookups : Lookups Rat := ⟨fun _ => .ok ⟨"model", 1 / 2, 3⟩, fun _ => .ok 10⟩
  let before : World Rat (Fin 2) := { state := .start 30 3 "results" 10000 }
  let errand : Errand Rat Publication := .take lookups .work request .accepted 1000000
  let after : World Rat (Fin 2) :=
    { before.setDuty 0 (errand.run before.state).1 with state := (errand.run before.state).2 }
  let history : History Rat Publication (Fin 2) := [(before, .change 0 errand)]
  have hleads : Leads before history after := .concat .nil (.change errand nofun rfl)
  have hlatest : latest "t" history = some request := by decide +kernel
  have hattempt : (⟨"caller", ⟨Bytes.ofText "done", some "t", none⟩, true⟩ : Attempt) ∈
      (Action.change 1 (.take lookups .response result .accepted 2000000) : Action Rat Publication (Fin 2)).attempts
        after := by decide +kernel
  obtain ⟨id, delivery, hdue, -⟩ := due_of_attempt 30 3 "results" 10000 hleads hattempt
  exact ⟨history, after, lookups, hleads, hlatest, hattempt, id, delivery, hdue⟩

end World

end SpeechDispatch
