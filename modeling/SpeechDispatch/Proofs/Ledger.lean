import SpeechDispatch.Proofs.EventMoves

/-!
# The ledger of a run

Every submission that a dispatcher accepts gets an account of its own, whether or not its id was used before.  The
account notes how often the task was started, what was sent to the caller, and how the submission ended.  The ledger
is kept from the acts of a run, and an act that names an id is charged to the submission accepted last under that id.

* `Ledger.Agrees` relates a ledger to the tasks that are tracked: each of them belongs to the last account under its
  id, which is open, and every open account belongs to one of them.
* An account is settled (`Account.Settled`) if it ended at most once, and nothing was sent for it that its ending does
  not allow.
-/

namespace SpeechDispatch

variable {α : Type}

/-- How a submission ends. -/
inductive Ending
  /-- Its result was dealt with. -/
  | completed
  /-- Its result could not be forwarded a second time. -/
  | dropped
  /-- It failed too often. -/
  | exhausted
  /-- Its result waited too long to be delivered again. -/
  | unredelivered
  /-- Another one came under its id. -/
  | replaced
  deriving DecidableEq

/-- What is noted of one submission. -/
structure Account (α : Type) where
  /-- The task as it arrived. -/
  task : Task α
  starts : Nat := 0
  /-- The results and notices that were accepted for it. -/
  replies : List Sent := []
  endings : List Ending := []

structure Ledger (α : Type) where
  accounts : List (Account α) := []
  /-- The number of the last account under each id. -/
  latest : Table Nat := ∅

namespace Account

def fresh (task : Task α) : Account α := { task := task }

def start (account : Account α) : Account α := { account with starts := account.starts + 1 }

def reply (account : Account α) (sent : List Sent) : Account α := { account with replies := account.replies ++ sent }

def close (account : Account α) (ending : Ending) (sent : List Sent) : Account α :=
  { account.reply sent with endings := account.endings ++ [ending] }

end Account

namespace Ledger

/-- Changes the last account under an id. -/
def charge (l : Ledger α) (id : String) (f : Account α → Account α) : Ledger α :=
  match l.latest.get? id with
  | none => l
  | some k => { l with accounts := l.accounts.modify k f }

/-- Opens an account for a task. -/
def enroll (l : Ledger α) (task : Task α) : Ledger α :=
  { accounts := l.accounts ++ [.fresh task], latest := l.latest.insert task.id l.accounts.length }

/-- Notes an act. -/
def note (l : Ledger α) : Act α → Ledger α
  | .beat _ | .leave _ => l
  | .accept task true => (l.charge task.id (·.close .replaced [])).enroll task
  | .accept task false => l.enroll task
  | .start id _ => l.charge id (·.start)
  | .finish id sent => l.charge id (·.close .completed sent)
  | .drop id sent => l.charge id (·.close .dropped sent)
  | .defer id sent => l.charge id (·.reply sent)
  | .giveUp id sent => l.charge id (·.close .exhausted sent)
  | .expire id sent => l.charge id (·.close .unredelivered sent)

/-- Notes one act after another. -/
def noteAll (l : Ledger α) (acts : List (Act α)) : Ledger α := acts.foldl note l

end Ledger

/-! ### Tasks as they arrived -/

/-- The task as it was when it arrived. -/
def Task.asArrived (task : Task α) : Task α :=
  { task with assignedTo := none, started := false, failures := 0, forwardFailedAt := none }

theorem Task.IsNew.asArrived {task : Task α} (h : task.IsNew) : task.asArrived = task := by
  obtain ⟨hassigned, hstarted, hfailures, hfailed⟩ := h
  obtain ⟨⟩ := task
  simp only [Task.asArrived]
  simp only at hassigned hstarted hfailures hfailed
  rw [hassigned, hstarted, hfailures, hfailed]

namespace DispatchState

/-- Something of each tracked task, by its id. -/
def seen {β : Type} (f : Task α → β) (s : DispatchState α) (id : String) : Option β := (s.tasks.tasks.get? id).map f

variable {β : Type} {f : Task α → β} {s : DispatchState α}

theorem seen_of_get? {id : String} {task : Task α} (h : s.tasks.tasks.get? id = some task) :
    s.seen f id = some (f task) := by
  rw [seen, h, Option.map_some]

theorem seen_putTask (s : DispatchState α) (id : String) (task : Task α) :
    (s.putTask id task).seen f = Function.update (s.seen f) id (some (f task)) := by
  funext other
  unfold seen
  rw [get?_putTask, Function.update_apply]
  split <;> rfl

theorem seen_forget (s : DispatchState α) (id : String) :
    (s.forget id).seen f = Function.update (s.seen f) id none := by
  funext other
  unfold seen
  rw [get?_forget, Function.update_apply]
  split <;> rfl

@[simp] theorem seen_releaseWorkerOf (s : DispatchState α) (task : Task α) (id : String) (now : Instant) :
    (s.releaseWorkerOf task id now).seen f = s.seen f := by
  unfold seen
  rw [releaseWorkerOf_tasks]

theorem seen_bound [Quantity α] (s : DispatchState α) (task : Task α) (worker : Worker) (id queue : String)
    (now : Instant) :
    (s.bound task worker id queue now).seen f = Function.update (s.seen f) id (some (f (task.startedOn queue))) :=
  s.seen_putTask id (task.startedOn queue)

/-- An exit does not show if what is seen of a task is the same after the task is set back. -/
theorem seen_exitWorker (hs : s.workers.Named) {queue : String}
    (hf : ∀ {id task}, s.tasks.tasks.get? id = some task → task.assignedTo = some queue → f task.setBack = f task) :
    (s.exitWorker queue).2.seen f = s.seen f := by
  funext id
  unfold seen
  rw [get?_tasks_exitWorker hs]
  cases htask : s.tasks.tasks.get? id with
  | none => rfl
  | some task =>
    rw [Option.map_some, Option.map_some, Option.map_some]
    split
    · rename_i hlost
      rw [hf htask hlost.1]
    · rfl

/-- A change of a task does not show if what is seen of it is the same. -/
theorem update_seen_of_get? {id : String} {task : Task α} (htask : s.tasks.tasks.get? id = some task) {value : β}
    (hsame : value = f task) : Function.update (s.seen f) id (some value) = s.seen f := by
  rw [hsame, ← seen_of_get? htask, Function.update_eq_self]

end DispatchState

/-! ### Settled accounts -/

/-- What may have been sent for a task that ended in this way: a result at its completion, a notice at most when it
was given up, and nothing otherwise. -/
def Ending.Allows (task : Task α) (replies : List Sent) : Ending → Prop
  | .completed =>
    ∃ body, replies = task.origin.replyTo.toList.map fun replyTo => (replyTo, ⟨body, some task.callerCorrelation, none⟩)
  | .exhausted | .unredelivered => ∃ failures, Task.Notified { task with failures } replies
  | .dropped | .replaced => replies = []

/-- The account is open and nothing was sent for it, or it ended once and what was sent is allowed by its ending. -/
def Account.Settled (account : Account α) : Prop :=
  (account.endings = [] ∧ account.replies = []) ∨
    ∃ ending : Ending, account.endings = [ending] ∧ ending.Allows account.task account.replies

namespace Account.Settled

variable {account : Account α}

theorem replies_eq_nil (h : account.Settled) (hopen : account.endings = []) : account.replies = [] := by
  rcases h with ⟨-, hnone⟩ | ⟨ending, hended, -⟩
  · exact hnone
  · rw [hopen] at hended
    cases hended

theorem length_endings_le (h : account.Settled) : account.endings.length ≤ 1 := by
  rcases h with ⟨hopen, -⟩ | ⟨ending, hended, -⟩
  · rw [hopen]
    exact Nat.zero_le 1
  · rw [hended]
    exact Nat.le_refl 1

/-- Whatever was sent went to the caller, and was one message at most. -/
theorem replies_cases (h : account.Settled) :
    account.replies = [] ∨ ∃ replyTo message, account.task.origin.replyTo = some replyTo ∧
      account.replies = [(replyTo, message)] := by
  rcases h with ⟨-, hnone⟩ | ⟨ending, -, hallowed⟩
  · exact .inl hnone
  cases ending with
  | completed =>
    obtain ⟨body, hreplies⟩ := hallowed
    cases hreply : account.task.origin.replyTo with
    | none =>
      rw [hreply] at hreplies
      exact .inl hreplies
    | some replyTo =>
      rw [hreply] at hreplies
      exact .inr ⟨replyTo, _, rfl, hreplies⟩
  | dropped => exact .inl hallowed
  | exhausted =>
    obtain ⟨failures, hnone | ⟨replyTo, reason, hreply, hsent⟩⟩ := hallowed
    · exact .inl hnone
    · exact .inr ⟨replyTo, _, hreply, hsent⟩
  | unredelivered =>
    obtain ⟨failures, hnone | ⟨replyTo, reason, hreply, hsent⟩⟩ := hallowed
    · exact .inl hnone
    · exact .inr ⟨replyTo, _, hreply, hsent⟩
  | replaced => exact .inl hallowed

theorem close (h : account.Settled) (hopen : account.endings = []) {ending : Ending} {sent : List Sent}
    (hallowed : ending.Allows account.task sent) : (account.close ending sent).Settled := by
  refine .inr ⟨ending, ?_, ?_⟩
  · change account.endings ++ [ending] = [ending]
    rw [hopen, List.nil_append]
  · change ending.Allows account.task (account.replies ++ sent)
    rw [h.replies_eq_nil hopen, List.nil_append]
    exact hallowed

end Account.Settled

/-! ### Ledgers and tracked tasks -/

namespace Ledger

/-- The ledger has an open account for each tracked task and for no other, and all accounts are settled. -/
structure Agrees (l : Ledger α) (arrived : String → Option (Task α)) : Prop where
  named : ∀ {id task}, arrived id = some task → task.id = id
  exists_latest : ∀ {id task}, arrived id = some task →
    ∃ (k : Nat) (account : Account α), l.latest.get? id = some k ∧ l.accounts[k]? = some account ∧
      account.task = task ∧ account.endings = []
  exists_of_latest : ∀ {id k}, l.latest.get? id = some k →
    ∃ account : Account α, l.accounts[k]? = some account ∧ account.task.id = id
  latest_of_open : ∀ {k : Nat} {account : Account α}, l.accounts[k]? = some account → account.endings = [] →
    l.latest.get? account.task.id = some k ∧ (arrived account.task.id).isSome = true
  settled : ∀ {k : Nat} {account : Account α}, l.accounts[k]? = some account → account.Settled

theorem charge_of_latest {l : Ledger α} {id : String} {k : Nat} (h : l.latest.get? id = some k)
    (f : Account α → Account α) : l.charge id f = { l with accounts := l.accounts.modify k f } := by
  simp only [charge, h]

theorem latest_charge (l : Ledger α) (id : String) (f : Account α → Account α) : (l.charge id f).latest = l.latest := by
  unfold charge
  split <;> rfl

theorem getElem?_charge {l : Ledger α} {id : String} {k : Nat} (h : l.latest.get? id = some k)
    (f : Account α → Account α) (i : Nat) :
    (l.charge id f).accounts[i]? = if k = i then l.accounts[i]?.map f else l.accounts[i]? := by
  rw [charge_of_latest h, List.getElem?_modify]
  split <;> simp

/-- A charge changes an account by what is charged, or not at all. -/
theorem of_getElem?_charge {l : Ledger α} {id : String} {f : Account α → Account α} {k : Nat} {account' : Account α}
    (h : (l.charge id f).accounts[k]? = some account') :
    ∃ account, l.accounts[k]? = some account ∧ (account' = account ∨ account' = f account) := by
  unfold charge at h
  split at h
  · exact ⟨account', h, .inl rfl⟩
  · dsimp only at h
    rw [List.getElem?_modify] at h
    obtain ⟨account, haccount, rfl⟩ := Option.map_eq_some_iff.1 h
    refine ⟨account, haccount, ?_⟩
    split
    · exact .inr rfl
    · exact .inl rfl

theorem exists_getElem?_charge {l : Ledger α} {k : Nat} {account : Account α} (h : l.accounts[k]? = some account)
    (id : String) (f : Account α → Account α) :
    ∃ account', (l.charge id f).accounts[k]? = some account' ∧ (account' = account ∨ account' = f account) := by
  unfold charge
  split
  · exact ⟨account, h, .inl rfl⟩
  · dsimp only
    rw [List.getElem?_modify, h, Option.map_eq_map, Option.map_some]
    refine ⟨_, rfl, ?_⟩
    split
    · exact .inr rfl
    · exact .inl rfl

theorem latest_enroll (l : Ledger α) (task : Task α) (id : String) :
    (l.enroll task).latest.get? id = if id = task.id then some l.accounts.length else l.latest.get? id :=
  Table.get?_insert ..

theorem getElem?_enroll_of_some {l : Ledger α} {k : Nat} {account : Account α} (h : l.accounts[k]? = some account)
    (task : Task α) : (l.enroll task).accounts[k]? = some account :=
  (List.getElem?_append_left (List.getElem?_eq_some_iff.1 h).1).trans h

/-- The accounts after an enrolment are those before, and a fresh one at their end. -/
theorem of_getElem?_enroll {l : Ledger α} {task : Task α} {k : Nat} {account : Account α}
    (h : (l.enroll task).accounts[k]? = some account) :
    l.accounts[k]? = some account ∨ (k = l.accounts.length ∧ account = .fresh task) := by
  change (l.accounts ++ [.fresh task])[k]? = some account at h
  rw [List.getElem?_append] at h
  split at h
  · exact .inl h
  · rename_i hge
    obtain ⟨hlt, heq⟩ := List.getElem?_eq_some_iff.1 h
    have hlast : k - l.accounts.length = 0 := by simpa using hlt
    simp only [hlast, List.getElem_cons_zero] at heq
    exact .inr ⟨by omega, heq.symm⟩

namespace Agrees

variable {l : Ledger α} {arrived : String → Option (Task α)}

theorem empty : Agrees ({} : Ledger α) fun _ => none :=
  ⟨nofun, nofun, nofun, nofun, nofun⟩

/-- Two ids do not have the same account. -/
theorem eq_of_latest (h : l.Agrees arrived) {id other : String} {k : Nat} (hk : l.latest.get? id = some k)
    (hother : l.latest.get? other = some k) : other = id := by
  obtain ⟨account, haccount, rfl⟩ := h.exists_of_latest hk
  obtain ⟨account', haccount', rfl⟩ := h.exists_of_latest hother
  obtain rfl := Option.some.inj (haccount.symm.trans haccount')
  rfl

/-- A charge leaves every account under its id. -/
private theorem exists_of_latest_charge (h : l.Agrees arrived) (id : String) {f : Account α → Account α}
    (hf : ∀ account, (f account).task = account.task) {other : String} {k : Nat}
    (hk : (l.charge id f).latest.get? other = some k) :
    ∃ account : Account α, (l.charge id f).accounts[k]? = some account ∧ account.task.id = other := by
  rw [latest_charge] at hk
  obtain ⟨account, haccount, rfl⟩ := h.exists_of_latest hk
  obtain ⟨account', haccount', rfl | rfl⟩ := exists_getElem?_charge haccount id f
  · exact ⟨account', haccount', rfl⟩
  · exact ⟨f account, haccount', congrArg Task.id (hf account)⟩

/-- A charge that says nothing about an ending and sends nothing. -/
theorem charge (h : l.Agrees arrived) (id : String) {f : Account α → Account α}
    (hf : ∀ account, (f account).task = account.task ∧ (f account).replies = account.replies ∧
      (f account).endings = account.endings) : (l.charge id f).Agrees arrived := by
  have hsame : ∀ {account account' : Account α}, account' = account ∨ account' = f account →
      account'.task = account.task ∧ account'.replies = account.replies ∧ account'.endings = account.endings := by
    rintro account account' (rfl | rfl)
    · exact ⟨rfl, rfl, rfl⟩
    · exact hf account
  constructor
  case named => exact h.named
  case exists_latest =>
    intro other task htask
    obtain ⟨k, account, hk, haccount, htask', hopen⟩ := h.exists_latest htask
    obtain ⟨account', haccount', hcharged⟩ := exists_getElem?_charge haccount id f
    obtain ⟨hthere, -, hendings⟩ := hsame hcharged
    rw [latest_charge]
    exact ⟨k, account', hk, haccount', hthere.trans htask', hendings.trans hopen⟩
  case exists_of_latest =>
    intro other k hk
    exact h.exists_of_latest_charge id (fun account => (hf account).1) hk
  case latest_of_open =>
    intro k account' haccount' hopen
    obtain ⟨account, haccount, hcharged⟩ := of_getElem?_charge haccount'
    obtain ⟨hthere, -, hendings⟩ := hsame hcharged
    rw [latest_charge, hthere]
    exact h.latest_of_open haccount (hendings.symm.trans hopen)
  case settled =>
    intro k account' haccount'
    obtain ⟨account, haccount, hcharged⟩ := of_getElem?_charge haccount'
    obtain ⟨hthere, hreplies, hendings⟩ := hsame hcharged
    have hsettled := h.settled haccount
    unfold Account.Settled at hsettled ⊢
    rw [hthere, hreplies, hendings]
    exact hsettled

/-- The task under an id ends. -/
theorem close (h : l.Agrees arrived) {id : String} {task : Task α} (htask : arrived id = some task)
    {ending : Ending} {sent : List Sent} (hallowed : ending.Allows task sent) :
    (l.charge id (·.close ending sent)).Agrees (Function.update arrived id none) := by
  obtain ⟨i, account, hlatest, haccount, hsame, hopen⟩ := h.exists_latest htask
  constructor
  case named =>
    intro other task' hother
    rw [Function.update_apply] at hother
    split at hother
    · cases hother
    · exact h.named hother
  case exists_latest =>
    intro other task' hother
    rw [Function.update_apply] at hother
    split at hother
    · cases hother
    rename_i hne
    -- another id has another account, which is not charged
    obtain ⟨k, account', hk, haccount', hsame', hopen'⟩ := h.exists_latest hother
    refine ⟨k, account', ?_, ?_, hsame', hopen'⟩
    · rw [latest_charge, hk]
    · rw [getElem?_charge hlatest, if_neg, haccount']
      rintro rfl
      exact hne (h.eq_of_latest hlatest hk)
  case exists_of_latest =>
    intro other k hk
    exact h.exists_of_latest_charge id (f := (·.close ending sent)) (fun _ => rfl) hk
  case latest_of_open =>
    intro k account' hk hopen'
    rw [getElem?_charge hlatest] at hk
    split at hk
    · -- the account that is charged is not open any more
      obtain ⟨old, -, rfl⟩ := Option.map_eq_some_iff.1 hk
      exact absurd hopen' (List.append_ne_nil_of_right_ne_nil _ nofun)
    · rename_i hne
      obtain ⟨hk', hthere⟩ := h.latest_of_open hk hopen'
      have hother : account'.task.id ≠ id := by
        intro heq
        rw [heq] at hk'
        exact hne (Option.some.inj (hlatest.symm.trans hk'))
      rw [latest_charge, Function.update_of_ne hother]
      exact ⟨hk', hthere⟩
  case settled =>
    intro k account' hk
    rw [getElem?_charge hlatest] at hk
    split at hk
    · rename_i hik
      subst hik
      obtain rfl : account.close ending sent = account' := by
        rw [haccount] at hk
        exact Option.some.inj hk
      exact (h.settled haccount).close hopen (hsame ▸ hallowed)
    · exact h.settled hk

/-- A task is taken in under a free id. -/
theorem enroll (h : l.Agrees arrived) {task : Task α} (hfree : arrived task.id = none) :
    (l.enroll task).Agrees (Function.update arrived task.id (some task)) := by
  constructor
  case named =>
    intro id task' htask
    rw [Function.update_apply] at htask
    split at htask
    · rename_i hid
      obtain rfl := Option.some.inj htask
      exact hid.symm
    · exact h.named htask
  case exists_latest =>
    intro id task' htask
    rw [Function.update_apply] at htask
    rw [latest_enroll]
    split at htask
    · rename_i hid
      obtain rfl := Option.some.inj htask
      rw [if_pos hid]
      exact ⟨l.accounts.length, .fresh task, rfl, List.getElem?_concat_length .., rfl, rfl⟩
    · rename_i hid
      obtain ⟨k, account, hk, haccount, hsame, hopen⟩ := h.exists_latest htask
      rw [if_neg hid]
      exact ⟨k, account, hk, getElem?_enroll_of_some haccount task, hsame, hopen⟩
  case exists_of_latest =>
    intro id k hk
    rw [latest_enroll] at hk
    split at hk
    · rename_i hid
      obtain rfl := Option.some.inj hk
      exact ⟨.fresh task, List.getElem?_concat_length .., hid.symm⟩
    · obtain ⟨account, haccount, hid⟩ := h.exists_of_latest hk
      exact ⟨account, getElem?_enroll_of_some haccount task, hid⟩
  case latest_of_open =>
    intro k account hk hopen
    rw [latest_enroll]
    rcases of_getElem?_enroll hk with haccount | ⟨rfl, rfl⟩
    · obtain ⟨hk', hthere⟩ := h.latest_of_open haccount hopen
      -- the id was free, so the open accounts are under other ids
      have hother : account.task.id ≠ task.id := by
        intro heq
        rw [heq, hfree] at hthere
        cases hthere
      rw [if_neg hother, Function.update_of_ne hother]
      exact ⟨hk', hthere⟩
    · change (if task.id = task.id then some l.accounts.length else _) = _ ∧
        (Function.update arrived task.id (some task) task.id).isSome = true
      rw [if_pos rfl, Function.update_self]
      exact ⟨rfl, rfl⟩
  case settled =>
    intro k account hk
    rcases of_getElem?_enroll hk with haccount | ⟨-, rfl⟩
    · exact h.settled haccount
    · exact .inl ⟨rfl, rfl⟩

end Agrees

end Ledger

/-- The ledger and the tracked tasks stay in agreement through every move. -/
theorem Move.agrees [Quantity α] {onlyPending : Prop} {s s' : DispatchState α} {act : Act α} {l : Ledger α}
    (h : Move onlyPending s act s') (hs : s.Named) (hl : l.Agrees (s.seen Task.asArrived)) :
    (l.note act).Agrees (s'.seen Task.asArrived) := by
  cases h with
  | beat => exact hl
  | leave queue =>
    rw [DispatchState.seen_exitWorker hs.workers fun _ _ => rfl]
    exact hl
  | @accept task hnew hfree =>
    have hnone : s.seen Task.asArrived task.id = none := by rw [DispatchState.seen, hfree, Option.map_none]
    rw [DispatchState.seen_putTask, hnew.asArrived]
    exact hl.enroll hnone
  | @replace task old now hnew hold =>
    -- the account of the old task is closed, which frees the id for the new one
    have hallowed : Ending.replaced.Allows old.asArrived [] := rfl
    have hreplaced := hl.close (DispatchState.seen_of_get? hold) hallowed
    have henrolled := hreplaced.enroll (Function.update_self ..)
    rw [Function.update_idem] at henrolled
    rw [DispatchState.seen_putTask, DispatchState.seen_releaseWorkerOf, hnew.asArrived]
    exact henrolled
  | @start id queue task worker now htask =>
    have hsame : (task.startedOn queue).asArrived = task.asArrived := rfl
    rw [DispatchState.seen_bound, DispatchState.update_seen_of_get? htask hsame]
    exact hl.charge id fun _ => ⟨rfl, rfl, rfl⟩
  | finish now body htask =>
    rw [DispatchState.seen_forget, DispatchState.seen_releaseWorkerOf]
    exact hl.close (DispatchState.seen_of_get? htask) ⟨body, rfl⟩
  | drop now htask =>
    rw [DispatchState.seen_forget, DispatchState.seen_releaseWorkerOf]
    exact hl.close (DispatchState.seen_of_get? htask) rfl
  | @defer id task now htask =>
    have hsame : (task.unforwarded now).asArrived = task.asArrived := rfl
    rw [DispatchState.seen_putTask, DispatchState.seen_releaseWorkerOf, DispatchState.update_seen_of_get? htask hsame]
    exact hl.charge id fun account => ⟨rfl, List.append_nil _, rfl⟩
  | @giveUp id task sent htask _ _ htold =>
    rw [DispatchState.seen_forget]
    exact hl.close (DispatchState.seen_of_get? htask) ⟨task.failures, htold⟩
  | @expire id task sent htask _ htold =>
    rw [DispatchState.seen_forget]
    exact hl.close (DispatchState.seen_of_get? htask) ⟨task.failures, htold⟩

/-- The ledger of a list of moves agrees with the tasks tracked at their end. -/
theorem Moves.agrees [Quantity α] {onlyPending : Prop} {s s' : DispatchState α} {acts : List (Act α)} {l : Ledger α}
    (h : Moves onlyPending s acts s') (hs : s.Named) (hl : l.Agrees (s.seen Task.asArrived)) :
    (l.noteAll acts).Agrees (s'.seen Task.asArrived) := by
  induction h generalizing l with
  | nil => exact hl
  | cons hmove _ ih => exact ih (hmove.named hs) (hmove.agrees hs hl)

end SpeechDispatch
