import SpeechDispatch.Proofs.Ledger

/-!
# Every submission ends once

A run can be watched from outside: it accepts submissions, reports how tasks end, and publishes results and notices.
The ledger of the run (`DispatchState.ledger`) distributes all of this over the submissions
(`DispatchState.balances_ledger`), and after every run each submission is still tracked, or it ended once.

* A submission that is tracked has not ended, and nothing was sent for it.
* A submission that ended is not tracked, and one message at most was sent for it.
-/

namespace SpeechDispatch

variable {α σ : Type}

namespace DispatchState

/-! ### What is seen of a run -/

section Observations

variable [Quantity α] [Outlet σ]

/-- The submissions that an event brings in. -/
def acceptedBy (s : DispatchState α) : Event α σ → List (Task α)
  | .work id profile duration arrivedAt origin now =>
    match (s.addTask (Task.arrive id profile duration arrivedAt origin) now).1 with
    | .ok () => [Task.arrive id profile duration arrivedAt origin]
    | .error _ => []
  | _ => []

/-- The tasks whose messages to workers are accepted by the outlet of an event, by their ids. -/
def startedBy (s : DispatchState α) : Event α σ → List String
  | .pass strategy outlet now =>
    (Hub.pass { state := s, outlet := Journal.mk outlet [] } strategy now).2.outlet.sent.filterMap (·.2.correlationId)
  | _ => []

/-- The tasks that end by an event, and how. -/
def endedBy (s : DispatchState α) : Event α σ → List (String × Ending)
  | .work id profile duration arrivedAt origin _ =>
    match (s.tasks.add (Task.arrive id profile duration arrivedAt origin)).1 with
    | .ok (some old) => [(old.id, .replaced)]
    | .ok none | .error _ => []
  | .response id body redelivered outlet now =>
    match (s.processResponse id body redelivered outlet now).1 with
    | .ok .ack => [(id, .completed)]
    | .ok (.nack false) => [(id, .dropped)]
    | .ok (.nack true) | .error _ => []
  | .round threshold _ now =>
    (s.sweep now threshold).2.evictExhausted.1.map (fun task => (task.id, .exhausted)) ++
      ((s.sweep now threshold).2.evictExhausted.2.evictUnredelivered now threshold).1.map
        (fun task => (task.id, .unredelivered))
  | _ => []

/-- The results and notices that are accepted by the outlet of an event. -/
def sentBy (s : DispatchState α) : Event α σ → List Sent
  | .response id body redelivered outlet now =>
    (s.processResponse id body redelivered (Journal.mk outlet []) now).2.2.sent
  | .round threshold outlet now =>
    (Hub.detect { state := s, outlet := Journal.mk outlet [] } threshold now).2.outlet.sent
  | _ => []

/-- All that is seen of a run, one event after another. -/
def along {β : Type} (observe : DispatchState α → Event α σ → List β) (s : DispatchState α) : List (Event α σ) → List β
  | [] => []
  | e :: events => observe s e ++ (s.after e).along observe events

end Observations

end DispatchState

/-! ### What acts say of it -/

namespace Act

def accepted : Act α → List (Task α)
  | .accept task _ => [task]
  | _ => []

def started : Act α → List String
  | .start id _ => [id]
  | _ => []

def ended : Act α → List (String × Ending)
  | .accept task true => [(task.id, .replaced)]
  | .finish id _ => [(id, .completed)]
  | .drop id _ => [(id, .dropped)]
  | .giveUp id _ => [(id, .exhausted)]
  | .expire id _ => [(id, .unredelivered)]
  | _ => []

def sent : Act α → List Sent
  | .finish _ sent | .drop _ sent | .defer _ sent | .giveUp _ sent | .expire _ sent => sent
  | _ => []

end Act

namespace DispatchState

private theorem flatMap_ofDispatch {β : Type} {f : Act α → List β} (hf : ∀ id queue, f (.start id queue) = [])
    (sent : List Sent) : (sent.filterMap Act.ofDispatch).flatMap f = [] := by
  rw [List.flatMap_eq_nil_iff]
  intro act hact
  obtain ⟨message, -, hmessage⟩ := List.mem_filterMap.1 hact
  obtain ⟨id, -, rfl⟩ := Option.map_eq_some_iff.1 hmessage
  exact hf id message.1

private theorem flatMap_started_ofDispatch (sent : List Sent) :
    ((sent.filterMap Act.ofDispatch : List (Act α)).flatMap Act.started) = sent.filterMap (·.2.correlationId) := by
  induction sent with
  | nil => rfl
  | cons message rest ih =>
    rw [List.filterMap_cons, List.filterMap_cons]
    unfold Act.ofDispatch at ih ⊢
    cases message.2.correlationId with
    | none => exact ih
    | some id =>
      rw [Option.map_some]
      dsimp only
      rw [List.flatMap_cons, ih]
      rfl

private theorem flatMap_map_leave {β : Type} {f : Act α → List β} (hf : ∀ queue, f (.leave queue) = [])
    (queues : List String) : (queues.map .leave).flatMap f = [] := by
  rw [List.flatMap_map, List.flatMap_eq_nil_iff]
  intro queue _
  exact hf queue

variable [Quantity α] [Outlet σ]

section FlatMap

variable {β : Type} {f : Act α → List β} (s : DispatchState α)

private theorem flatMap_acts_registration (hbeat : ∀ queue, f (.beat queue) = [])
    (hleave : ∀ queue, f (.leave queue) = []) (message : Registration) (now : Instant) :
    (s.acts (.registration message now : Event α σ)).flatMap f = [] := by
  simp only [acts]
  split
  · rw [List.flatMap_singleton]
    split
    · exact hleave _
    · exact hbeat _
  · rfl
  · rfl

private theorem flatMap_acts_pass (hleave : ∀ queue, f (.leave queue) = []) (strategy : Strategy α) (outlet : σ)
    (now : Instant) :
    (s.acts (.pass strategy outlet now)).flatMap f =
      ((Hub.pass { state := s, outlet := Journal.mk outlet [] } strategy now).2.outlet.sent.filterMap
        Act.ofDispatch).flatMap f := by
  simp only [acts]
  rw [List.flatMap_append, flatMap_map_leave hleave, List.nil_append]

/-- What is said of a round, as long as nothing is said of the workers that leave. -/
private theorem flatMap_acts_round (hleave : ∀ queue, f (.leave queue) = []) (threshold : Int) (outlet : σ)
    (now : Instant) :
    (s.acts (.round threshold outlet now)).flatMap f =
      ((Hub.notices outlet (Hub.roundOf s now threshold).2.1).take
        (s.sweep now threshold).2.evictExhausted.1.length).flatMap (fun notice => f (.giveUp notice.1.id notice.2)) ++
      ((Hub.notices outlet (Hub.roundOf s now threshold).2.1).drop
        (s.sweep now threshold).2.evictExhausted.1.length).flatMap fun notice => f (.expire notice.1.id notice.2) := by
  simp only [acts]
  rw [List.flatMap_append, List.flatMap_append, flatMap_map_leave hleave, List.nil_append, List.flatMap_map,
    List.flatMap_map]

end FlatMap

theorem flatMap_accepted_acts (s : DispatchState α) (e : Event α σ) :
    (s.acts e).flatMap Act.accepted = s.acceptedBy e := by
  cases e with
  | registration message now => exact s.flatMap_acts_registration (fun _ => rfl) (fun _ => rfl) message now
  | work id profile duration arrivedAt origin now =>
    simp only [acts, acceptedBy]
    rcases s.addTask_cases (Task.arrive id profile duration arrivedAt origin) now with
      ⟨e, hadd, h⟩ | ⟨hadd, -, h⟩ | ⟨old, hadd, -, h⟩
    all_goals
      rw [hadd, h]
      rfl
  | pass strategy outlet now =>
    rw [flatMap_acts_pass s fun _ => rfl, flatMap_ofDispatch fun _ _ => rfl]
    rfl
  | response id body redelivered outlet now =>
    simp only [acts, acceptedBy]
    split <;> rfl
  | round threshold outlet now =>
    rw [flatMap_acts_round s fun _ => rfl]
    simp [Act.accepted, acceptedBy]

theorem flatMap_started_acts (s : DispatchState α) (e : Event α σ) :
    (s.acts e).flatMap Act.started = s.startedBy e := by
  cases e with
  | registration message now => exact s.flatMap_acts_registration (fun _ => rfl) (fun _ => rfl) message now
  | work id profile duration arrivedAt origin now =>
    simp only [acts, startedBy]
    split <;> rfl
  | pass strategy outlet now =>
    rw [flatMap_acts_pass s fun _ => rfl, flatMap_started_ofDispatch]
    rfl
  | response id body redelivered outlet now =>
    simp only [acts, startedBy]
    split <;> rfl
  | round threshold outlet now =>
    rw [flatMap_acts_round s fun _ => rfl]
    simp [Act.started, startedBy]

theorem flatMap_ended_acts {s : DispatchState α} (hs : s.Named) (e : Event α σ) :
    (s.acts e).flatMap Act.ended = s.endedBy e := by
  cases e with
  | registration message now => exact s.flatMap_acts_registration (fun _ => rfl) (fun _ => rfl) message now
  | work id profile duration arrivedAt origin now =>
    simp only [acts, endedBy]
    rcases s.addTask_cases (Task.arrive id profile duration arrivedAt origin) now with
      ⟨e, hadd, -⟩ | ⟨hadd, -, -⟩ | ⟨old, hadd, hold, -⟩
    · rw [hadd]
      rfl
    · rw [hadd]
      rfl
    · rw [hadd]
      dsimp only
      rw [hs.tasks hold]
      rfl
  | pass strategy outlet now =>
    rw [flatMap_acts_pass s fun _ => rfl, flatMap_ofDispatch fun _ _ => rfl]
    rfl
  | response id body redelivered outlet now =>
    have hresult := congrArg (·.1) (s.processResponse_onOutlet id body redelivered (Journal.mk outlet []) now)
    simp only [acts, endedBy]
    dsimp only at hresult
    rw [hresult]
    rcases s.processResponse id body redelivered (Journal.mk outlet []) now with ⟨e | _ | _ | _, after, journal⟩
    all_goals rfl
  | round threshold outlet now =>
    rw [flatMap_acts_round s fun _ => rfl]
    simp only [endedBy]
    rw [← map_fst_drop_notices s threshold outlet now]
    congr 1
    · conv_rhs => rw [← map_fst_take_notices s threshold outlet now]
      rw [List.map_map]
      exact List.map_eq_flatMap.symm
    · rw [List.map_map]
      exact List.map_eq_flatMap.symm

theorem flatMap_sent_acts (s : DispatchState α) (e : Event α σ) : (s.acts e).flatMap Act.sent = s.sentBy e := by
  cases e with
  | registration message now => exact s.flatMap_acts_registration (fun _ => rfl) (fun _ => rfl) message now
  | work id profile duration arrivedAt origin now =>
    simp only [acts, sentBy]
    split <;> rfl
  | pass strategy outlet now =>
    rw [flatMap_acts_pass s fun _ => rfl, flatMap_ofDispatch fun _ _ => rfl]
    rfl
  | response id body redelivered outlet now =>
    simp only [acts, sentBy]
    rcases s.processResponse_cases id body redelivered (Journal.mk outlet []) now with
      ⟨-, h⟩ | ⟨task, -, ⟨-, h⟩ | ⟨-, -, h⟩ | ⟨-, -, h⟩⟩
    · rw [h]
      rfl
    all_goals
      rw [h]
      exact List.append_nil _
  | round threshold outlet now =>
    rw [flatMap_acts_round s fun _ => rfl]
    simp only [sentBy]
    rw [Hub.outlet_detect, ← Hub.flatMap_sent_notices]
    change (List.take _ _).flatMap (fun notice : Task α × List Sent => notice.2) ++
      (List.drop _ _).flatMap (fun notice : Task α × List Sent => notice.2) = _
    rw [← List.flatMap_append, List.take_append_drop]

end DispatchState

/-! ### All of it is on the accounts -/

/-- The id of a submission, once for every start. -/
def Account.started (account : Account α) : List String := List.replicate account.starts account.task.id

/-- How a submission ended, with its id. -/
def Account.ended (account : Account α) : List (String × Ending) := account.endings.map (account.task.id, ·)

/-- Submissions, starts, endings and messages are on the accounts, each on one. -/
structure Ledger.Balances (l : Ledger α) (accepted : List (Task α)) (started : List String)
    (ended : List (String × Ending)) (sent : List Sent) : Prop where
  accepted : l.accounts.map (·.task) = accepted
  started : (l.accounts.flatMap Account.started).Perm started
  ended : (l.accounts.flatMap Account.ended).Perm ended
  sent : (l.accounts.flatMap (·.replies)).Perm sent

namespace Ledger.Balances

private theorem flatMap_modify_perm {β : Type} {g : Account α → List β} {f : Account α → Account α} {x : List β}
    {accounts : List (Account α)} {k : Nat} {account : Account α} (hk : accounts[k]? = some account)
    (hf : g (f account) = g account ++ x) : ((accounts.modify k f).flatMap g).Perm (accounts.flatMap g ++ x) := by
  induction accounts generalizing k with
  | nil => cases hk
  | cons first rest ih =>
    cases k with
    | zero =>
      obtain rfl : first = account := Option.some.inj hk
      -- what is added to this account moves behind all the others
      rw [List.modify_zero_cons, List.flatMap_cons, List.flatMap_cons, hf, List.append_assoc, List.append_assoc]
      exact List.perm_append_comm.append_left _
    | succ k =>
      rw [List.modify_succ_cons, List.flatMap_cons, List.flatMap_cons, List.append_assoc]
      exact (ih hk).append_left _

private theorem map_task_modify {f : Account α → Account α} (hf : ∀ account, (f account).task = account.task)
    (accounts : List (Account α)) (k : Nat) : (accounts.modify k f).map (·.task) = accounts.map (·.task) := by
  induction accounts generalizing k with
  | nil => rw [List.modify_nil]
  | cons first rest ih =>
    cases k with
    | zero => rw [List.modify_zero_cons, List.map_cons, List.map_cons, hf]
    | succ k => rw [List.modify_succ_cons, List.map_cons, List.map_cons, ih]

variable {l : Ledger α} {accepted : List (Task α)} {started : List String} {ended : List (String × Ending)}
  {sent : List Sent}

/-- A charge puts on the account of a tracked task what it adds to it. -/
private theorem charge (h : l.Balances accepted started ended sent) {arrived : String → Option (Task α)}
    (hl : l.Agrees arrived) {id : String} {task : Task α} (htask : arrived id = some task)
    {f : Account α → Account α} (hf : ∀ account, (f account).task = account.task) {n : Nat}
    (hstarts : ∀ account, (f account).starts = account.starts + n) {endings : List Ending}
    (hendings : ∀ account, (f account).endings = account.endings ++ endings) {more : List Sent}
    (hreplies : ∀ account, (f account).replies = account.replies ++ more) :
    (l.charge id f).Balances accepted (started ++ List.replicate n id) (ended ++ endings.map (id, ·))
      (sent ++ more) := by
  obtain ⟨k, account, hlatest, haccount, rfl, -⟩ := hl.exists_latest htask
  have hid : account.task.id = id := hl.named htask
  have hstarted : (f account).started = account.started ++ List.replicate n id := by
    unfold Account.started
    rw [hf, hstarts, hid, List.replicate_append_replicate]
  have hended : (f account).ended = account.ended ++ endings.map (id, ·) := by
    unfold Account.ended
    rw [hf, hendings, List.map_append, hid]
  rw [charge_of_latest hlatest]
  constructor
  case accepted => exact (map_task_modify hf _ _).trans h.accepted
  case started => exact (flatMap_modify_perm haccount hstarted).trans (h.started.append_right _)
  case ended => exact (flatMap_modify_perm haccount hended).trans (h.ended.append_right _)
  case sent => exact (flatMap_modify_perm haccount (hreplies account)).trans (h.sent.append_right _)

private theorem close (h : l.Balances accepted started ended sent) {arrived : String → Option (Task α)}
    (hl : l.Agrees arrived) {id : String} {task : Task α} (htask : arrived id = some task) (ending : Ending)
    (more : List Sent) :
    (l.charge id (·.close ending more)).Balances accepted started (ended ++ [(id, ending)]) (sent ++ more) := by
  have hclosed := h.charge hl htask (f := (·.close ending more)) (fun _ => rfl) (n := 0) (fun _ => rfl) (fun _ => rfl)
    fun _ => rfl
  rw [List.replicate_zero, List.append_nil] at hclosed
  exact hclosed

private theorem enroll (h : l.Balances accepted started ended sent) (task : Task α) :
    (l.enroll task).Balances (accepted ++ [task]) started ended sent := by
  have hstarted : (Account.fresh task).started = [] := rfl
  have hended : (Account.fresh task).ended = [] := rfl
  constructor
  case accepted =>
    change (l.accounts ++ [Account.fresh task]).map (·.task) = _
    rw [List.map_append, h.accepted]
    rfl
  case started =>
    change ((l.accounts ++ [Account.fresh task]).flatMap Account.started).Perm _
    rw [List.flatMap_append, List.flatMap_singleton, hstarted, List.append_nil]
    exact h.started
  case ended =>
    change ((l.accounts ++ [Account.fresh task]).flatMap Account.ended).Perm _
    rw [List.flatMap_append, List.flatMap_singleton, hended, List.append_nil]
    exact h.ended
  case sent =>
    change ((l.accounts ++ [Account.fresh task]).flatMap (·.replies)).Perm _
    rw [List.flatMap_append, List.flatMap_singleton]
    exact (List.append_nil _).symm ▸ h.sent

end Ledger.Balances

/-- Every move puts on the accounts what it brings in, ends and sends. -/
theorem Move.balances [Quantity α] {onlyPending : Prop} {s s' : DispatchState α} {act : Act α} {l : Ledger α}
    (h : Move onlyPending s act s') (hl : l.Agrees (s.seen Task.asArrived)) {accepted : List (Task α)}
    {started : List String} {ended : List (String × Ending)} {sent : List Sent}
    (hb : l.Balances accepted started ended sent) :
    (l.note act).Balances (accepted ++ act.accepted) (started ++ act.started) (ended ++ act.ended)
      (sent ++ act.sent) := by
  cases h with
  | beat =>
    simp only [Act.accepted, Act.started, Act.ended, Act.sent, List.append_nil]
    exact hb
  | leave =>
    simp only [Act.accepted, Act.started, Act.ended, Act.sent, List.append_nil]
    exact hb
  | accept hnew hfree =>
    simp only [Act.accepted, Act.started, Act.ended, Act.sent, List.append_nil]
    exact hb.enroll _
  | @replace task old now hnew hold =>
    have hreplaced := (hb.close hl (DispatchState.seen_of_get? hold) .replaced []).enroll task
    simp only [Act.accepted, Act.started, Act.ended, Act.sent, List.append_nil] at hreplaced ⊢
    exact hreplaced
  | start now htask =>
    have hstarted := hb.charge hl (DispatchState.seen_of_get? htask) (f := Account.start) (fun _ => rfl) (n := 1)
      (fun _ => rfl) (fun account => (List.append_nil account.endings).symm)
      fun account => (List.append_nil account.replies).symm
    simp only [Act.accepted, Act.started, Act.ended, Act.sent, List.append_nil, List.map_nil] at hstarted ⊢
    exact hstarted
  | finish now body htask =>
    simp only [Act.accepted, Act.started, Act.ended, Act.sent, List.append_nil]
    exact hb.close hl (DispatchState.seen_of_get? htask) .completed _
  | drop now htask =>
    have hdropped := hb.close hl (DispatchState.seen_of_get? htask) .dropped []
    simp only [Act.accepted, Act.started, Act.ended, Act.sent, List.append_nil] at hdropped ⊢
    exact hdropped
  | defer now htask =>
    have hdeferred := hb.charge hl (DispatchState.seen_of_get? htask) (f := (·.reply [])) (fun _ => rfl) (n := 0)
      (fun _ => rfl) (fun account => (List.append_nil account.endings).symm) fun _ => rfl
    simp only [Act.accepted, Act.started, Act.ended, Act.sent, List.append_nil, List.map_nil, List.replicate_zero]
      at hdeferred ⊢
    exact hdeferred
  | giveUp htask _ _ _ =>
    simp only [Act.accepted, Act.started, Act.ended, Act.sent, List.append_nil]
    exact hb.close hl (DispatchState.seen_of_get? htask) .exhausted _
  | expire htask _ _ =>
    simp only [Act.accepted, Act.started, Act.ended, Act.sent, List.append_nil]
    exact hb.close hl (DispatchState.seen_of_get? htask) .unredelivered _

theorem Moves.balances [Quantity α] {onlyPending : Prop} {s s' : DispatchState α} {acts : List (Act α)} {l : Ledger α}
    (h : Moves onlyPending s acts s') (hs : s.Named) (hl : l.Agrees (s.seen Task.asArrived)) {accepted : List (Task α)}
    {started : List String} {ended : List (String × Ending)} {sent : List Sent}
    (hb : l.Balances accepted started ended sent) :
    (l.noteAll acts).Balances (accepted ++ acts.flatMap Act.accepted) (started ++ acts.flatMap Act.started)
      (ended ++ acts.flatMap Act.ended) (sent ++ acts.flatMap Act.sent) := by
  induction h generalizing l accepted started ended sent with
  | nil =>
    simp only [List.flatMap_nil, List.append_nil]
    exact hb
  | cons hmove _ ih =>
    have hrest := ih (hmove.named hs) (hmove.agrees hs hl) (hmove.balances hl hb)
    simp only [List.flatMap_cons, ← List.append_assoc]
    exact hrest

/-! ### Submissions of a run -/

/-- The task tracked under the id is the submission with this number. -/
def Ledger.Tracks (l : Ledger α) (s : DispatchState α) (k : Nat) (id : String) : Prop :=
  l.latest.get? id = some k ∧
    ∃ account task, l.accounts[k]? = some account ∧ s.tasks.tasks.get? id = some task ∧ account.task = task.asArrived

namespace DispatchState

variable [Quantity α] [Outlet σ]

/-- The ledger of a run. -/
def ledger (s : DispatchState α) (events : List (Event α σ)) : Ledger α := Ledger.noteAll {} (s.trace events)

private theorem flatMap_trace {β : Type} {f : Act α → List β} {observe : DispatchState α → Event α σ → List β}
    (hobserve : ∀ {s : DispatchState α} {e : Event α σ}, s.Named → (s.acts e).flatMap f = observe s e)
    {s : DispatchState α} (hs : s.Named) (events : List (Event α σ)) :
    (s.trace events).flatMap f = s.along observe events := by
  induction events generalizing s with
  | nil => rfl
  | cons e rest ih =>
    have hmoves : Moves False s (s.acts e) (s.after e) := moves_after hs e nofun
    rw [trace, List.flatMap_append, hobserve hs, ih (hmoves.named hs)]
    rfl

section Start

variable (staleAfter : Int) (ceiling : Nat) (responseQueue : String) (publishTimeoutMillis : Nat)

theorem agrees_ledger (events : List (Event α σ)) :
    ((start staleAfter ceiling responseQueue publishTimeoutMillis).ledger events).Agrees
      (((start staleAfter ceiling responseQueue publishTimeoutMillis).run events).seen Task.asArrived) := by
  have hnamed := named_start (α := α) staleAfter ceiling responseQueue publishTimeoutMillis
  have hmoves : Moves False _ _ ((start staleAfter ceiling responseQueue publishTimeoutMillis).run events) :=
    moves_run hnamed events nofun
  exact hmoves.agrees hnamed Ledger.Agrees.empty

/-- The ledger of a run has on its accounts what is seen of the run. -/
theorem balances_ledger (events : List (Event α σ)) :
    ((start staleAfter ceiling responseQueue publishTimeoutMillis).ledger events).Balances
      ((start staleAfter ceiling responseQueue publishTimeoutMillis).along acceptedBy events)
      ((start staleAfter ceiling responseQueue publishTimeoutMillis).along startedBy events)
      ((start staleAfter ceiling responseQueue publishTimeoutMillis).along endedBy events)
      ((start staleAfter ceiling responseQueue publishTimeoutMillis).along sentBy events) := by
  have hnamed := named_start (α := α) staleAfter ceiling responseQueue publishTimeoutMillis
  have hmoves : Moves False _ _ ((start staleAfter ceiling responseQueue publishTimeoutMillis).run events) :=
    moves_run hnamed events nofun
  have hempty : Ledger.Balances ({} : Ledger α) [] [] [] [] :=
    ⟨rfl, List.Perm.refl _, List.Perm.refl _, List.Perm.refl _⟩
  have hall := hmoves.balances hnamed Ledger.Agrees.empty hempty
  rw [flatMap_trace (fun _ => flatMap_accepted_acts _ _) hnamed,
    flatMap_trace (fun _ => flatMap_started_acts _ _) hnamed, flatMap_trace (fun hs => flatMap_ended_acts hs _) hnamed,
    flatMap_trace (fun _ => flatMap_sent_acts _ _) hnamed] at hall
  exact hall

end Start

end DispatchState

/-- An account is open if and only if its submission is tracked. -/
private theorem Ledger.Agrees.tracks_iff {l : Ledger α} {s : DispatchState α} (h : l.Agrees (s.seen Task.asArrived))
    {k : Nat} {account : Account α} (hk : l.accounts[k]? = some account) :
    account.endings = [] ↔ l.Tracks s k account.task.id := by
  constructor
  · intro hopen
    obtain ⟨hlatest, harrived⟩ := h.latest_of_open hk hopen
    obtain ⟨arrived, harrived⟩ := Option.isSome_iff_exists.1 harrived
    obtain ⟨i, other, hi, hother, hsame, -⟩ := h.exists_latest harrived
    obtain rfl := Option.some.inj (hlatest.symm.trans hi)
    obtain rfl := Option.some.inj (hk.symm.trans hother)
    obtain ⟨task, htask, rfl⟩ := Option.map_eq_some_iff.1 harrived
    exact ⟨hlatest, account, task, hk, htask, hsame⟩
  · rintro ⟨hlatest, _, task, -, htask, -⟩
    obtain ⟨i, other, hi, hother, -, hopen⟩ := h.exists_latest (DispatchState.seen_of_get? htask)
    obtain rfl := Option.some.inj (hlatest.symm.trans hi)
    obtain rfl := Option.some.inj (hk.symm.trans hother)
    exact hopen

/-- Every tracked task is one submission. -/
theorem Ledger.Agrees.existsUnique_tracks {l : Ledger α} {s : DispatchState α} (h : l.Agrees (s.seen Task.asArrived))
    {id : String} {task : Task α} (htask : s.tasks.tasks.get? id = some task) : ∃! k, l.Tracks s k id := by
  obtain ⟨k, account, hk, haccount, hsame, -⟩ := h.exists_latest (DispatchState.seen_of_get? htask)
  refine ⟨k, ⟨hk, account, task, haccount, htask, hsame⟩, ?_⟩
  rintro other ⟨hother, -⟩
  exact Option.some.inj (hother.symm.trans hk)

private theorem Account.Settled.length_replies_le {account : Account α} (h : account.Settled) :
    account.replies.length ≤ 1 := by
  rcases h.replies_cases with hnone | ⟨replyTo, message, -, hone⟩
  · rw [hnone]
    exact Nat.zero_le 1
  · rw [hone]
    exact Nat.le_refl 1

/-- Whatever happens to a dispatcher, every submission that it accepted is still tracked or has ended, in one way and
once; and one message at most was sent for it, as its ending allows.  Every tracked task is one of these submissions,
and every ending and every message that is seen of the run is on one of their accounts. -/
theorem DispatchState.submissions_of_run [Quantity α] [Outlet σ] (staleAfter : Int) (ceiling : Nat)
    (responseQueue : String) (publishTimeoutMillis : Nat) (events : List (Event α σ)) :
    let s₀ : DispatchState α := start staleAfter ceiling responseQueue publishTimeoutMillis
    (∀ (k : Nat) (account : Account α), (s₀.ledger events).accounts[k]? = some account →
      account.endings.length ≤ 1 ∧
      (account.endings = [] ↔ (s₀.ledger events).Tracks (s₀.run events) k account.task.id) ∧
      account.replies.length ≤ 1 ∧ account.Settled) ∧
    (∀ (id : String) (task : Task α), (s₀.run events).tasks.tasks.get? id = some task →
      ∃! k, (s₀.ledger events).Tracks (s₀.run events) k id) ∧
    (s₀.ledger events).accounts.map (·.task) = s₀.along acceptedBy events ∧
    ((s₀.ledger events).accounts.flatMap Account.ended).Perm (s₀.along endedBy events) ∧
    ((s₀.ledger events).accounts.flatMap (·.replies)).Perm (s₀.along sentBy events) := by
  intro s₀
  have hagrees : (s₀.ledger events).Agrees ((s₀.run events).seen Task.asArrived) :=
    agrees_ledger staleAfter ceiling responseQueue publishTimeoutMillis events
  have hbalances := balances_ledger (α := α) staleAfter ceiling responseQueue publishTimeoutMillis events
  refine ⟨?_, ?_, hbalances.accepted, hbalances.ended, hbalances.sent⟩
  · intro k account hk
    have hsettled := hagrees.settled hk
    exact ⟨hsettled.length_endings_le, hagrees.tracks_iff hk, hsettled.length_replies_le, hsettled⟩
  · intro id task htask
    exact hagrees.existsUnique_tracks htask

end SpeechDispatch
