import SpeechDispatch.Proofs.Cost
import SpeechDispatch.Proofs.Phase
import SpeechDispatch.Proofs.Submissions

/-!
# Retries are bounded

A task counts the workers that were lost with it, and is started only while it is pending.  So its count and the worker
that it may have at the time account for all of its starts (`Ledger.Counts`), and no submission is started more often
than the ceiling says.
-/

namespace SpeechDispatch

variable {α σ : Type}

/-- How often a task was started, by what it says itself: once for each worker lost, and once if it has one. -/
def Task.attempts (task : Task α) : Nat := task.failures + if task.started then 1 else 0

theorem Task.attempts_le_iff {task : Task α} {ceiling : Nat} :
    task.attempts ≤ ceiling ↔ task.failures ≤ ceiling ∧ (task.started = true → task.failures < ceiling) := by
  unfold attempts
  cases task.started with
  | false => simp
  | true =>
    simp only [if_true, forall_const]
    omega

namespace Ledger

/-- The accounts of tracked tasks note as many starts as the tasks count, and no account more than the ceiling. -/
structure Counts (l : Ledger α) (attempts : String → Option Nat) (ceiling : Nat) : Prop where
  starts_eq : ∀ {id n k} {account : Account α}, attempts id = some n → l.latest.get? id = some k →
    l.accounts[k]? = some account → account.starts = n
  starts_le : ∀ {k : Nat} {account : Account α}, l.accounts[k]? = some account → account.starts ≤ ceiling

namespace Counts

variable {l : Ledger α} {attempts : String → Option Nat} {ceiling : Nat}

theorem empty (ceiling : Nat) : Counts ({} : Ledger α) (fun _ => none) ceiling := ⟨nofun, nofun⟩

/-- A charge that is no start. -/
private theorem charge (h : l.Counts attempts ceiling) (id : String) {f : Account α → Account α}
    (hf : ∀ account, (f account).starts = account.starts) : (l.charge id f).Counts attempts ceiling := by
  have hback : ∀ {k : Nat} {account' : Account α}, (l.charge id f).accounts[k]? = some account' →
      ∃ account : Account α, l.accounts[k]? = some account ∧ account'.starts = account.starts := by
    intro k account' haccount'
    obtain ⟨account, haccount, rfl | rfl⟩ := of_getElem?_charge haccount'
    · exact ⟨account', haccount, rfl⟩
    · exact ⟨account, haccount, hf account⟩
  constructor
  · intro other n k account' hn hk haccount'
    obtain ⟨account, haccount, hsame⟩ := hback haccount'
    rw [latest_charge] at hk
    exact hsame.trans (h.starts_eq hn hk haccount)
  · intro k account' haccount'
    obtain ⟨account, haccount, hsame⟩ := hback haccount'
    rw [hsame]
    exact h.starts_le haccount

/-- A task that has been started less often than the ceiling says is started once more. -/
private theorem start (h : l.Counts attempts ceiling) {arrived : String → Option (Task α)} (hl : l.Agrees arrived)
    {id : String} {task : Task α} (htask : arrived id = some task) {n : Nat} (hn : attempts id = some n)
    (hlt : n < ceiling) : (l.charge id (·.start)).Counts (Function.update attempts id (some (n + 1))) ceiling := by
  obtain ⟨i, account, hlatest, haccount, -, -⟩ := hl.exists_latest htask
  have hstarts : account.starts = n := h.starts_eq hn hlatest haccount
  constructor
  · intro other m k account' hm hk haccount'
    rw [latest_charge] at hk
    rw [getElem?_charge hlatest] at haccount'
    rw [Function.update_apply] at hm
    split at hm
    · rename_i hother
      subst hother
      obtain rfl := Option.some.inj (hlatest.symm.trans hk)
      rw [if_pos rfl, haccount] at haccount'
      obtain rfl := Option.some.inj haccount'
      obtain rfl := Option.some.inj hm
      exact congrArg (· + 1) hstarts
    · rename_i hother
      -- another id has another account, which is not charged
      rw [if_neg] at haccount'
      · exact h.starts_eq hm hk haccount'
      · rintro rfl
        exact hother (hl.eq_of_latest hlatest hk)
  · intro k account' haccount'
    rw [getElem?_charge hlatest] at haccount'
    split at haccount'
    · rename_i hik
      subst hik
      rw [haccount] at haccount'
      obtain rfl := Option.some.inj haccount'
      change account.starts + 1 ≤ ceiling
      omega
    · exact h.starts_le haccount'

private theorem forget (h : l.Counts attempts ceiling) (id : String) :
    l.Counts (Function.update attempts id none) ceiling := by
  refine ⟨fun {other n k account} hn hk haccount => ?_, h.starts_le⟩
  rw [Function.update_apply] at hn
  split at hn
  · cases hn
  · exact h.starts_eq hn hk haccount

private theorem close (h : l.Counts attempts ceiling) (id : String) (ending : Ending) (sent : List Sent) :
    (l.charge id (·.close ending sent)).Counts (Function.update attempts id none) ceiling :=
  (h.charge id (f := (·.close ending sent)) fun _ => rfl).forget id

private theorem enroll (h : l.Counts attempts ceiling) {arrived : String → Option (Task α)} (hl : l.Agrees arrived)
    (task : Task α) : (l.enroll task).Counts (Function.update attempts task.id (some 0)) ceiling := by
  constructor
  · intro other n k account hn hk haccount
    rw [latest_enroll] at hk
    rw [Function.update_apply] at hn
    split at hn
    · rename_i hother
      rw [if_pos hother] at hk
      obtain rfl := Option.some.inj hk
      obtain rfl := Option.some.inj hn
      rcases of_getElem?_enroll haccount with hbefore | ⟨-, rfl⟩
      · rw [List.getElem?_eq_none (Nat.le_refl _)] at hbefore
        cases hbefore
      · rfl
    · rename_i hother
      rw [if_neg hother] at hk
      rcases of_getElem?_enroll haccount with hbefore | ⟨rfl, -⟩
      · exact h.starts_eq hn hk hbefore
      · obtain ⟨account', haccount', -⟩ := hl.exists_of_latest hk
        rw [List.getElem?_eq_none (Nat.le_refl _)] at haccount'
        cases haccount'
  · intro k account haccount
    rcases of_getElem?_enroll haccount with hbefore | ⟨-, rfl⟩
    · exact h.starts_le hbefore
    · exact Nat.zero_le ceiling

end Counts

end Ledger

/-! ### Moves -/

theorem Move.ceiling_eq [Quantity α] {onlyPending : Prop} {s s' : DispatchState α} {act : Act α}
    (h : Move onlyPending s act s') : s'.tasks.ceiling = s.tasks.ceiling :=
  congrArg DispatchSettings.ceiling h.settings_eq

/-- The task of a lost worker counts the loss in place of the worker. -/
private theorem DispatchState.Consistent.attempts_setBack {s : DispatchState α} (hs : s.Consistent) {id queue : String}
    {task : Task α} (htask : s.tasks.tasks.get? id = some task) (hassigned : task.assignedTo = some queue) :
    task.setBack.attempts = task.attempts := by
  unfold Task.attempts
  rw [hs.started_of_assignedTo htask hassigned]
  rfl

/-- The starts on the accounts stay in step with the tasks through all moves that start pending tasks only. -/
theorem Move.counts [Quantity α] {s s' : DispatchState α} {act : Act α} {l : Ledger α} (h : Move True s act s')
    (hs : s.Named) (hconsistent : s.Consistent) (hl : l.Agrees (s.seen Task.asArrived))
    (hn : l.Counts (s.seen Task.attempts) s.tasks.ceiling) :
    (l.note act).Counts (s'.seen Task.attempts) s'.tasks.ceiling := by
  rw [h.ceiling_eq]
  cases h with
  | beat => exact hn
  | leave queue =>
    rw [DispatchState.seen_exitWorker hs.workers fun htask => hconsistent.attempts_setBack htask]
    exact hn
  | @accept task hnew hfree =>
    have hnone : task.attempts = 0 := by rw [Task.attempts, hnew.failures, hnew.started]; rfl
    rw [DispatchState.seen_putTask, hnone]
    exact hn.enroll hl task
  | @replace task old now hnew hold =>
    have hnone : task.attempts = 0 := by rw [Task.attempts, hnew.failures, hnew.started]; rfl
    have hallowed : Ending.replaced.Allows old.asArrived [] := rfl
    have hreplaced := hl.close (DispatchState.seen_of_get? hold) hallowed
    rw [DispatchState.seen_putTask, DispatchState.seen_releaseWorkerOf, hnone]
    have henrolled := (hn.close task.id .replaced []).enroll hreplaced task
    rw [Function.update_idem] at henrolled
    exact henrolled
  | @start id queue task worker now htask hwaits hpending =>
    have hcount : task.attempts = task.failures := by rw [Task.attempts, hwaits]; rfl
    have hmore : (task.startedOn queue).attempts = task.attempts + 1 := by rw [hcount]; rfl
    -- key fact: what is pending has failed less often than the ceiling says, and has no worker
    have hlt : task.attempts < s.tasks.ceiling := by
      have hwaiting := hpending trivial
      rw [Task.isPending, Bool.and_eq_true, Bool.not_eq_true', Bool.not_eq_true', Task.isExhausted,
        decide_eq_false_iff_not] at hwaiting
      omega
    rw [DispatchState.seen_bound, hmore]
    exact hn.start hl (DispatchState.seen_of_get? htask) (DispatchState.seen_of_get? htask) hlt
  | @finish id task now body htask =>
    rw [DispatchState.seen_forget, DispatchState.seen_releaseWorkerOf]
    exact hn.close id .completed _
  | @drop id task now htask =>
    rw [DispatchState.seen_forget, DispatchState.seen_releaseWorkerOf]
    exact hn.close id .dropped _
  | @defer id task now htask =>
    have hsame : (task.unforwarded now).attempts = task.attempts := rfl
    rw [DispatchState.seen_putTask, DispatchState.seen_releaseWorkerOf, DispatchState.update_seen_of_get? htask hsame]
    exact hn.charge id fun _ => rfl
  | @giveUp id =>
    rw [DispatchState.seen_forget]
    exact hn.close id .exhausted _
  | @expire id =>
    rw [DispatchState.seen_forget]
    exact hn.close id .unredelivered _

theorem Moves.counts [Quantity α] {s s' : DispatchState α} {acts : List (Act α)} {l : Ledger α}
    (h : Moves True s acts s') (hs : s.Named) (hconsistent : s.Consistent) (hl : l.Agrees (s.seen Task.asArrived))
    (hn : l.Counts (s.seen Task.attempts) s.tasks.ceiling) :
    (l.noteAll acts).Counts (s'.seen Task.attempts) s'.tasks.ceiling ∧ s'.tasks.ceiling = s.tasks.ceiling := by
  induction h generalizing l with
  | nil => exact ⟨hn, rfl⟩
  | cons hmove _ ih =>
    obtain ⟨hcounts, hceiling⟩ := ih (hmove.named hs) (hconsistent.move hs hmove) (hmove.agrees hs hl)
      (hmove.counts hs hconsistent hl hn)
    exact ⟨hcounts, hceiling.trans hmove.ceiling_eq⟩

/-! ### Starts of a run -/

namespace DispatchState

variable [Quantity α] [Outlet σ]

/-- The accounts of a run note as many starts as its tasks count, if the tasks are matched by cost. -/
theorem counts_ledger (staleAfter : Int) (ceiling : Nat) (responseQueue : String) (publishTimeoutMillis : Nat)
    (events : List (Event α σ)) (hcost : ∀ e ∈ events, e.ByCost) :
    ((start staleAfter ceiling responseQueue publishTimeoutMillis).ledger events).Counts
      (((start staleAfter ceiling responseQueue publishTimeoutMillis).run events).seen Task.attempts) ceiling := by
  have hnamed := named_start (α := α) staleAfter ceiling responseQueue publishTimeoutMillis
  have hconsistent := consistent_start (α := α) staleAfter ceiling responseQueue publishTimeoutMillis
  have hmoves : Moves True _ _ ((start staleAfter ceiling responseQueue publishTimeoutMillis).run events) :=
    moves_run hnamed events fun _ e he => (hcost e he).namesPending
  obtain ⟨hcounts, hceiling⟩ := hmoves.counts hnamed hconsistent Ledger.Agrees.empty (Ledger.Counts.empty ceiling)
  rw [hceiling] at hcounts
  exact hcounts

omit [Quantity α] [Outlet σ] in
/-- However many workers are lost with their tasks, no task counts more of them than the ceiling. -/
private theorem failures_requeueHeld_le {tasks : TaskRegistry α} {ceiling : Nat}
    (htasks : ∀ {id task}, tasks.tasks.get? id = some task →
      task.failures ≤ ceiling ∧ (task.assignedTo.isSome = true → task.failures < ceiling))
    (workers : List Worker) {id : String} {task : Task α}
    (htask : (requeueHeld tasks workers).2.tasks.get? id = some task) : task.failures ≤ ceiling := by
  rw [get?_requeueHeld] at htask
  obtain ⟨before, hbefore, rfl⟩ := Option.map_eq_some_iff.1 htask
  split
  · rename_i hlost
    obtain ⟨worker, -, -, hassigned⟩ := hlost
    exact (htasks hbefore).2 (by rw [hassigned]; rfl)
  · exact (htasks hbefore).1

/-- Whatever happens to a dispatcher that matches by cost, a tracked task was started once for each worker that it
lost, and once more if it has one.  It never counts more losses than the ceiling, and fewer while it is started; so
none counts more of them when workers are lost next, and no submission is started more often than the ceiling says. -/
theorem retries_of_run (staleAfter : Int) (ceiling : Nat) (responseQueue : String) (publishTimeoutMillis : Nat)
    (events : List (Event α σ)) (hcost : ∀ e ∈ events, e.ByCost) :
    let s₀ : DispatchState α := start staleAfter ceiling responseQueue publishTimeoutMillis
    (∀ (id : String) (task : Task α), (s₀.run events).tasks.tasks.get? id = some task →
      (∃ k account, (s₀.ledger events).Tracks (s₀.run events) k id ∧ (s₀.ledger events).accounts[k]? = some account ∧
        account.starts = task.failures + if task.started then 1 else 0) ∧
      task.failures ≤ ceiling ∧ (task.started = true → task.failures < ceiling)) ∧
    (∀ account ∈ (s₀.ledger events).accounts, account.starts ≤ ceiling) ∧
    ((s₀.ledger events).accounts.flatMap Account.started).Perm (s₀.along startedBy events) ∧
    ∀ (workers : List Worker) (id : String) (task : Task α),
      (requeueHeld (s₀.run events).tasks workers).2.tasks.get? id = some task → task.failures ≤ ceiling := by
  intro s₀
  have hconsistent : (s₀.run events).Consistent :=
    consistent_run staleAfter ceiling responseQueue publishTimeoutMillis events
  have hagrees : (s₀.ledger events).Agrees ((s₀.run events).seen Task.asArrived) :=
    agrees_ledger staleAfter ceiling responseQueue publishTimeoutMillis events
  have hbalances := balances_ledger (α := α) staleAfter ceiling responseQueue publishTimeoutMillis events
  have hcounts : (s₀.ledger events).Counts ((s₀.run events).seen Task.attempts) ceiling :=
    counts_ledger staleAfter ceiling responseQueue publishTimeoutMillis events hcost
  have htracked : ∀ {id : String} {task : Task α}, (s₀.run events).tasks.tasks.get? id = some task →
      ∃ k account, (s₀.ledger events).Tracks (s₀.run events) k id ∧ (s₀.ledger events).accounts[k]? = some account ∧
        account.starts = task.attempts := by
    intro id task htask
    obtain ⟨k, htracks, -⟩ := hagrees.existsUnique_tracks htask
    have ⟨hlatest, account, _, haccount, _⟩ := htracks
    have hstarts : account.starts = task.attempts := hcounts.starts_eq (seen_of_get? htask) hlatest haccount
    exact ⟨k, account, htracks, haccount, hstarts⟩
  have hbounds : ∀ {id : String} {task : Task α}, (s₀.run events).tasks.tasks.get? id = some task →
      task.failures ≤ ceiling ∧ (task.started = true → task.failures < ceiling) := by
    intro id task htask
    obtain ⟨k, account, -, haccount, hstarts⟩ := htracked htask
    exact Task.attempts_le_iff.1 (hstarts ▸ hcounts.starts_le haccount)
  refine ⟨?_, ?_, hbalances.started, ?_⟩
  · intro id task htask
    exact ⟨htracked htask, hbounds htask⟩
  · intro account haccount
    obtain ⟨k, hk⟩ := List.mem_iff_getElem?.1 haccount
    exact hcounts.starts_le hk
  · intro workers id task htask
    refine failures_requeueHeld_le (fun {other before} hbefore => ?_) workers htask
    rw [← hconsistent.started_iff hbefore]
    exact hbounds hbefore

/-- A task is lost with its worker, and is started on another one. -/
def startedAgain : List (Event Rat Publication) :=
  [.registration ⟨"a", .register, 0⟩ 0,
    .work "t" ⟨"model", 1 / 2, 3⟩ 10 1000000 ⟨Bytes.ofText "{}", some "caller", none⟩ 1000000,
    .pass (CostModel.select ⟨60, 1⟩) .accepted 2000000,
    .registration ⟨"a", .exit, 3⟩ 3000000,
    .registration ⟨"b", .register, 5⟩ 5000000,
    .pass (CostModel.select ⟨60, 1⟩) .accepted 6000000]

theorem retries_startedAgain :
    ∃ (task : Task Rat) (account : Account Rat) (k : Nat),
      ((start 30 3 "results" 10000).run startedAgain).tasks.tasks.get? "t" = some task ∧
      task.started = true ∧ task.failures = 1 ∧
      ((start 30 3 "results" 10000).ledger startedAgain).accounts[k]? = some account ∧ account.starts = 2 := by
  have hcost : ∀ e ∈ startedAgain, e.ByCost := by
    simp only [startedAgain, List.forall_mem_cons]
    exact ⟨trivial, trivial, ⟨⟨60, 1⟩, rfl⟩, trivial, trivial, ⟨⟨60, 1⟩, rfl⟩, List.forall_mem_nil _⟩
  have hthere : (((start 30 3 "results" 10000).run startedAgain).tasks.tasks.get? "t").map
      (fun task => (task.started, task.failures)) = some (true, 1) := by decide +kernel
  obtain ⟨task, htask, heq⟩ := Option.map_eq_some_iff.1 hthere
  obtain ⟨hstarted, hfailures⟩ := Prod.mk.inj heq
  obtain ⟨htracked, -⟩ := retries_of_run 30 3 "results" 10000 startedAgain hcost
  obtain ⟨⟨k, account, -, haccount, hstarts⟩, -, -⟩ := htracked "t" task htask
  rw [hstarted, hfailures] at hstarts
  exact ⟨task, account, k, htask, hstarted, hfailures, haccount, hstarts⟩

end DispatchState

end SpeechDispatch
