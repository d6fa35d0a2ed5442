import SpeechDispatch.Proofs.OutletInvariant
import SpeechDispatch.Proofs.PassMatching
import SpeechDispatch.Proofs.Timeline
import SpeechDispatch.Proofs.WorkerLife

/-!
# Passes make progress

As long as offers come to nothing, the state stays as it is, so a worker for which the strategy has a task when a pass
starts (`DispatchState.HasOffer`) still has one when its turn comes (`Hub.offerAll_pos`).  When tasks are matched by
cost, there is such a worker if some idle worker has the model of a pending task, or if nobody is busy
(`DispatchState.exists_hasOffer`).
-/

namespace SpeechDispatch

variable {α σ : Type}

/-! ### Snapshots -/

/-- A registered worker stands in the snapshot where its queue is looked for. -/
theorem WorkerRegistry.exists_index (α : Type) [Quantity α] {r : WorkerRegistry} (hnamed : r.Named) {queue : String}
    {worker : Worker} (hworker : r.workers.get? queue = some worker) (now : Instant) :
    ∃ index, (r.snapshot now : List (WorkerView α)).findIdx? (·.queue == queue) = some index ∧
      (r.snapshot now : List (WorkerView α))[index]? = some (worker.view now) := by
  have hmem : worker.view now ∈ (r.snapshot now : List (WorkerView α)) :=
    List.mem_map_of_mem (Table.mem_values.2 ⟨queue, hworker⟩)
  cases hindex : (r.snapshot now : List (WorkerView α)).findIdx? (·.queue == queue) with
  | none =>
    have hnot := List.findIdx?_eq_none_iff.1 hindex _ hmem
    exact absurd (hnamed hworker) (beq_eq_false_iff_ne.1 hnot)
  | some index =>
    obtain ⟨hlt, hqueue, -⟩ := List.findIdx?_eq_some_iff_getElem.1 hindex
    obtain ⟨other, hother, hview⟩ := List.mem_map.1 (List.getElem_mem hlt)
    obtain ⟨name, hname⟩ := Table.mem_values.1 hother
    have hsame : name = queue := by
      rw [← hview, beq_iff_eq] at hqueue
      exact (hnamed hname).symm.trans hqueue
    subst hsame
    obtain rfl := Option.some.inj (hname.symm.trans hworker)
    exact ⟨index, rfl, List.getElem?_eq_some_iff.2 ⟨hlt, hview.symm⟩⟩

/-- A pending task stands in a group of its type. -/
theorem TaskRegistry.exists_group [Quantity α] {r : TaskRegistry α} {id : String} {task : Task α}
    (htask : r.tasks.get? id = some task) (hpending : task.isPending r.ceiling = true) :
    ∃ oldest rest, r.snapshot.get? task.modelType = some (oldest :: rest) := by
  have hlisted : (task.modelType, task.view) ∈ r.snapshot.listed :=
    (listed_snapshot r).mem_iff.2
      (List.mem_map.2 ⟨task, List.mem_filter.2 ⟨Table.mem_values.2 ⟨id, htask⟩, hpending⟩, rfl⟩)
  obtain ⟨views, hget, hview⟩ := TaskGroups.mem_listed.1 hlisted
  obtain ⟨oldest, rest, rfl⟩ := List.exists_cons_of_ne_nil (List.ne_nil_of_mem hview)
  exact ⟨oldest, rest, hget⟩

/-- A worker is never expected to stay busy for less than no time. -/
theorem Worker.remaining_nonneg (worker : Worker) (now : Instant) : (0 : Rat) ≤ worker.remaining now := by
  unfold remaining
  split
  · exact Quantity.ofSpan_nonneg _
  · exact le_refl (0 : Rat)

/-- What was attempted stays in the transcript. -/
theorem Transcript.keeps_attempt [Outlet σ] (attempt : Attempt) :
    Outlet.Keeps fun transcript : Transcript σ => attempt ∈ transcript.attempts :=
  fun _ _ _ hmem => List.mem_append_left _ hmem

/-! ### Offers -/

namespace DispatchState

variable [Quantity α]

/-- The strategy names a task for the worker, and the worker can be started on it. -/
def HasOffer (s : DispatchState α) (strategy : Strategy α) (now : Instant) (queue : String) : Prop :=
  ∃ index id task, s.tasks.snapshot.isEmpty = false ∧
    (s.workers.snapshot now : List (WorkerView α)).findIdx? (·.queue == queue) = some index ∧
    strategy (s.workers.snapshot now) s.tasks.snapshot index now = .ok (some id) ∧ s.startable id queue = .ok task

/-- What a strategy names can be started if only pending tasks are named. -/
theorem hasOffer_of_namesPending {s : DispatchState α} (hs : s.Named) {strategy : Strategy α}
    (hstrategy : strategy.NamesPending) {now : Instant} {queue id : String} {worker : Worker} {index : Nat}
    (hworker : s.workers.workers.get? queue = some worker) (hidle : worker.busy = false)
    (hindex : (s.workers.snapshot now : List (WorkerView α)).findIdx? (·.queue == queue) = some index)
    (hnames : strategy (s.workers.snapshot now) s.tasks.snapshot index now = .ok (some id)) :
    s.HasOffer strategy now queue := by
  obtain ⟨modelType, view, hlisted, rfl⟩ := hstrategy hnames
  obtain ⟨task, htask, hpending⟩ := TaskRegistry.exists_of_mem_listed_snapshot hs.tasks hlisted
  have hwaits : task.started = false := by
    rw [Task.isPending, Bool.and_eq_true, Bool.not_eq_true'] at hpending
    exact hpending.1
  have hgroups : s.tasks.snapshot.isEmpty = false := by
    obtain ⟨views, hget, -⟩ := TaskGroups.mem_listed.1 hlisted
    exact List.isEmpty_eq_false_iff_exists_mem.2 ⟨_, Table.mem_entries.2 hget⟩
  exact ⟨index, view.id, task, hgroups, hindex, hnames, startable_eq_ok.2 ⟨htask, hwaits, worker, hworker, hidle⟩⟩

end DispatchState

namespace Hub

open DispatchState

variable [Quantity α] [Outlet σ]

/-- If no message is refused, a start that comes to nothing was not possible. -/
private theorem dispatch_of_accepted {h : Hub α (Transcript σ)} {id queue : String} {now : Instant}
    (haccepted : ∀ attempt ∈ (h.dispatch id queue now).2.outlet.attempts, attempt.accepted = true) :
    (h.dispatch id queue now).1 = true ∨
      ((h.dispatch id queue now).2.state = h.state ∧ ∃ e, h.state.startable id queue = .error e) := by
  unfold dispatch at haccepted ⊢
  rcases h.state.startOn_cases id queue h.outlet now with ⟨e, hguard, hstart⟩ |
    ⟨task, e, transcript, -, hpublish, hstart⟩ | ⟨task, worker, transcript, -, -, -, -, -, hstart⟩
  · rw [hstart]
    exact .inr ⟨rfl, e, hguard⟩
  · rw [Transcript.publishWithin_eq] at hpublish
    obtain ⟨hresult, rfl⟩ := Prod.mk.inj hpublish
    rw [hstart] at haccepted
    have hlast := haccepted _ (List.mem_append_right _ (List.mem_singleton_self _))
    rw [hresult] at hlast
    cases hlast
  · rw [hstart]
    exact .inl rfl

/-- If no message is refused, only who has no offer is passed over, and then nothing changes. -/
private theorem offer_of_accepted {h : Hub α (Transcript σ)} {strategy : Strategy α} {queue : String} {now : Instant}
    (haccepted : ∀ attempt ∈ (h.offer strategy queue now).2.outlet.attempts, attempt.accepted = true) :
    (h.offer strategy queue now).1 = true ∨
      ((h.offer strategy queue now).2.state = h.state ∧ ¬ h.state.HasOffer strategy now queue) := by
  by_cases hoffer : h.state.HasOffer strategy now queue
  · obtain ⟨index, id, task, hgroups, hindex, hnames, hstartable⟩ := hoffer
    have hdispatch : h.offer strategy queue now = h.dispatch id queue now := by
      unfold offer
      simp only [hgroups, Bool.false_eq_true, if_false, hindex, hnames]
    rw [hdispatch] at haccepted ⊢
    rcases dispatch_of_accepted haccepted with hstarted | ⟨-, e, hguard⟩
    · exact .inl hstarted
    · rw [hguard] at hstartable
      cases hstartable
  · rcases h.offer_cases strategy queue now with hnothing | ⟨id, hdispatch⟩
    · rw [hnothing]
      exact .inr ⟨rfl, hoffer⟩
    · rw [hdispatch] at haccepted ⊢
      exact (dispatch_of_accepted haccepted).imp_right fun h => ⟨h.1, hoffer⟩

/-- If no message is refused and somebody has an offer, some task is started. -/
theorem offerAll_pos {h : Hub α (Transcript σ)} {strategy : Strategy α} {now : Instant} {queues : List String}
    {queue : String} (hmem : queue ∈ queues) (hoffer : h.state.HasOffer strategy now queue)
    (haccepted : ∀ attempt ∈ (h.offerAll strategy now queues).2.outlet.attempts, attempt.accepted = true) :
    0 < (h.offerAll strategy now queues).1 := by
  induction queues generalizing h with
  | nil => cases hmem
  | cons first rest ih =>
    have hfirst : ∀ attempt ∈ (h.offer strategy first now).2.outlet.attempts, attempt.accepted = true := by
      intro attempt hattempt
      exact haccepted attempt (keeps_offerAll (Transcript.keeps_attempt attempt) hattempt strategy now rest)
    rw [offerAll]
    dsimp only
    rcases offer_of_accepted hfirst with hstarted | ⟨hsame, hnot⟩
    · rw [hstarted]
      exact Nat.succ_pos _
    · have hrest : queue ∈ rest := (List.mem_cons.1 hmem).resolve_left fun heq => hnot (heq ▸ hoffer)
      have hlater := ih hrest (hsame.symm ▸ hoffer) haccepted
      split
      · exact Nat.succ_pos _
      · exact hlater

/-- If no message is refused and somebody has an offer after the removals of a pass, the pass starts a task. -/
theorem pass_pos {h : Hub α (Transcript σ)} {strategy : Strategy α} {now : Instant} {queue : String}
    (hmem : queue ∈ (h.prune now).state.workers.idleQueues)
    (hoffer : (h.prune now).state.HasOffer strategy now queue)
    (haccepted : ∀ attempt ∈ (h.pass strategy now).2.outlet.attempts, attempt.accepted = true) :
    0 < (h.pass strategy now).1 := by
  rw [outlet_pass] at haccepted
  rw [started_pass]
  exact offerAll_pos hmem hoffer haccepted

end Hub

/-! ### Matching by cost -/

namespace DispatchState

section

variable {model : CostModel Rat} {s : DispatchState Rat} (hs : s.Named) {id : String} {task : Task Rat}
  (htask : s.tasks.tasks.get? id = some task) (hpending : task.isPending s.tasks.ceiling = true)

include hs htask hpending

/-- An idle worker has an offer if a pending task is for its model. -/
theorem hasOffer_of_specialized (hpenalty : 0 ≤ model.reloadPenalty) {queue : String} {worker : Worker}
    (hworker : s.workers.workers.get? queue = some worker) (hidle : worker.busy = false)
    (hspecialized : worker.specialization = task.modelType) (now : Instant) :
    s.HasOffer model.select now queue := by
  obtain ⟨oldest, rest, hget⟩ := TaskRegistry.exists_group htask hpending
  obtain ⟨index, hindex, hview⟩ := WorkerRegistry.exists_index Rat hs.workers hworker now
  have hremaining : ∀ other ∈ (s.workers.snapshot now : List (WorkerView Rat)), 0 ≤ other.remaining := by
    intro other hother
    obtain ⟨worker, -, rfl⟩ := List.mem_map.1 hother
    exact worker.remaining_nonneg now
  have hfree : (worker.view now : WorkerView Rat).remaining = 0 := if_neg (Bool.eq_false_iff.1 hidle)
  have hmodel : (worker.view now : WorkerView Rat).isSpecializedFor task.modelType = true := beq_iff_eq.2 hspecialized
  obtain ⟨name, hnames⟩ := CostModel.exists_select hpenalty hremaining hview hidle hfree hmodel hget now
  exact hasOffer_of_namesPending hs model.namesPending hworker hidle hindex hnames

/-- If nobody has the model of a pending task, the first worker has an offer if it is idle. -/
theorem hasOffer_of_first (hpenalty : 0 ≤ model.reloadPenalty) (hmark : model.reloadPenalty < Quantity.unavailable)
    (hdelay : 0 ≤ model.delayCost) {first : Worker} {rest : List Worker}
    (hvalues : s.workers.workers.values = first :: rest) (hidle : first.busy = false)
    (hnobody : ∀ worker ∈ s.workers.workers.values, worker.specialization ≠ task.modelType) (now : Instant) :
    s.HasOffer model.select now first.queue := by
  obtain ⟨oldest, later, hget⟩ := TaskRegistry.exists_group htask hpending
  have hsnapshot : (s.workers.snapshot now : List (WorkerView Rat)) = first.view now :: rest.map (·.view now) := by
    rw [WorkerRegistry.snapshot, hvalues, List.map_cons]
  have hworker : s.workers.workers.get? first.queue = some first := by
    obtain ⟨queue, hqueue⟩ := Table.mem_values.1 (hvalues ▸ List.mem_cons_self : first ∈ s.workers.workers.values)
    rwa [hs.workers hqueue]
  have hindex : (s.workers.snapshot now : List (WorkerView Rat)).findIdx? (·.queue == first.queue) = some 0 := by
    rw [hsnapshot, List.findIdx?_cons]
    exact if_pos (beq_self_eq_true first.queue)
  have hview : (s.workers.snapshot now : List (WorkerView Rat))[0]? = some (first.view now) := by
    rw [hsnapshot, List.getElem?_cons_zero]
  have hreload : ∀ other ∈ (s.workers.snapshot now : List (WorkerView Rat)),
      model.reload other task.modelType = model.reloadPenalty := by
    intro other hother
    obtain ⟨worker, hmem, rfl⟩ := List.mem_map.1 hother
    exact CostModel.reload_of_not_specialized (beq_eq_false_iff_ne.2 (hnobody worker hmem))
  have hnearest : model.IsNearest (s.workers.snapshot now) 0 (first.view now) task.modelType := by
    intro i other hother
    rw [hreload other (List.mem_of_getElem? hother), hreload _ (List.mem_of_getElem? hview)]
    exact .inr ⟨rfl, Nat.zero_le i⟩
  obtain ⟨name, hnames⟩ :=
    CostModel.exists_select_of_isNearest hpenalty hmark hdelay hview hidle hget hnearest now
  exact hasOffer_of_namesPending hs model.namesPending hworker hidle hindex hnames

/-- If nobody is busy, somebody has an offer: who has the model of the task, or the first of all. -/
theorem exists_hasOffer (hpenalty : 0 ≤ model.reloadPenalty) (hmark : model.reloadPenalty < Quantity.unavailable)
    (hdelay : 0 ≤ model.delayCost) {queue : String} {worker : Worker}
    (hworker : s.workers.workers.get? queue = some worker)
    (hidle : ∀ queue worker, s.workers.workers.get? queue = some worker → worker.busy = false) (now : Instant) :
    ∃ queue ∈ s.workers.idleQueues, s.HasOffer model.select now queue := by
  by_cases hnobody : ∀ worker ∈ s.workers.workers.values, worker.specialization ≠ task.modelType
  · obtain ⟨first, rest, hvalues⟩ :=
      List.exists_cons_of_ne_nil (List.ne_nil_of_mem (Table.mem_values.2 ⟨queue, hworker⟩))
    obtain ⟨name, hname⟩ := Table.mem_values.1 (hvalues ▸ List.mem_cons_self : first ∈ s.workers.workers.values)
    have hoffer := hasOffer_of_first hs htask hpending hpenalty hmark hdelay hvalues (hidle name first hname)
      hnobody now
    exact ⟨first.queue, (WorkerRegistry.mem_idleQueues hs.workers).2
      ⟨first, (hs.workers hname).symm ▸ hname, hidle name first hname⟩, hoffer⟩
  · simp only [not_forall, not_not] at hnobody
    obtain ⟨other, hmem, hspecialized⟩ := hnobody
    obtain ⟨name, hname⟩ := Table.mem_values.1 hmem
    exact ⟨name, (WorkerRegistry.mem_idleQueues hs.workers).2 ⟨other, hname, hidle name other hname⟩,
      hasOffer_of_specialized hs htask hpending hpenalty hname (hidle name other hname) hspecialized now⟩

end

/-- In every state that can be reached, a pass that matches by cost and has no message refused starts a task, if after
its removals a task is pending and a worker is there, and nobody is busy or an idle worker has the model of a pending
task.  For whatever the others have to do and the tasks have waited, an idle worker is given a task if there is one for
its model. -/
theorem progress_pass [Outlet σ] {model : CostModel Rat} (hpenalty : 0 ≤ model.reloadPenalty)
    (hmark : model.reloadPenalty < Quantity.unavailable) (hdelay : 0 ≤ model.delayCost) (staleAfter : Int)
    (ceiling : Nat) (responseQueue : String) (publishTimeoutMillis : Nat) (events : List (Event Rat σ)) (outlet : σ)
    (now : Instant) :
    let s : DispatchState Rat := (start staleAfter ceiling responseQueue publishTimeoutMillis).run events
    let pruned := (s.pruneExpired now).2
    let result := Hub.pass { state := s, outlet := Transcript.mk outlet [] } model.select now
    ((∃ id task, pruned.tasks.tasks.get? id = some task ∧ task.isPending ceiling = true) →
      (∃ queue worker, pruned.workers.workers.get? queue = some worker) →
      ((∀ queue worker, pruned.workers.workers.get? queue = some worker → worker.busy = false) ∨
        ∃ queue worker id task, pruned.workers.workers.get? queue = some worker ∧ worker.busy = false ∧
          pruned.tasks.tasks.get? id = some task ∧ task.isPending ceiling = true ∧
          worker.specialization = task.modelType) →
      (∀ attempt ∈ result.2.outlet.attempts, attempt.accepted = true) →
      0 < result.1 ∧ (Hub.pass { state := s, outlet } model.select now).1 = result.1) ∧
    ∀ (workers : List (WorkerView Rat)) (groups : TaskGroups Rat) (index : Nat) (worker : WorkerView Rat)
      (modelType : String) (oldest : TaskView Rat) (rest : List (TaskView Rat)) (now : Instant),
      (∀ other ∈ workers, 0 ≤ other.remaining ∧ (other.busy = false → other.remaining = 0)) →
      workers[index]? = some worker → worker.busy = false → worker.isSpecializedFor modelType = true →
      groups.get? modelType = some (oldest :: rest) → ∃ id, model.select workers groups index now = .ok (some id) := by
  intro s pruned result
  refine ⟨fun hpending hthere hready haccepted => ?_, ?_⟩
  · have hs : s.Named := named_run (named_start ..) events
    have hpruned : pruned.Named := hs.sweep now s.workers.staleAfter
    have hceiling : pruned.tasks.ceiling = ceiling := by
      have hmoves : Moves False s _ pruned := moves_sweep hs now s.workers.staleAfter
      exact congrArg DispatchSettings.ceiling (hmoves.settings_eq.trans (settings_run (named_start ..) events))
    rw [← hceiling] at hpending hready
    have hoffer : ∃ queue ∈ pruned.workers.idleQueues, pruned.HasOffer model.select now queue := by
      rcases hready with hidle | ⟨queue, worker, id, task, hworker, hidle, htask, hwaits, hspecialized⟩
      · obtain ⟨id, task, htask, hwaits⟩ := hpending
        obtain ⟨queue, worker, hworker⟩ := hthere
        exact exists_hasOffer hpruned htask hwaits hpenalty hmark hdelay hworker hidle now
      · exact ⟨queue, (WorkerRegistry.mem_idleQueues hpruned.workers).2 ⟨worker, hworker, hidle⟩,
          hasOffer_of_specialized hpruned htask hwaits hpenalty hworker hidle hspecialized now⟩
    obtain ⟨queue, hmem, hoffer⟩ := hoffer
    let h : Hub Rat (Transcript σ) := { state := s, outlet := Transcript.mk outlet [] }
    constructor
    · exact Hub.pass_pos (h := h) hmem hoffer haccepted
    · have hthrough : Hub.pass { state := s, outlet } model.select now =
          (result.1, result.2.through Transcript.outlet) :=
        h.pass_through Transcript.isView_outlet model.select now
      rw [hthrough]
  · intro workers groups index worker modelType oldest rest now hviews hworker hidle hspecialized hget
    have hfree := (hviews worker (List.mem_of_getElem? hworker)).2 hidle
    exact CostModel.exists_select hpenalty (fun other hother => (hviews other hother).1) hworker hidle hfree
      hspecialized hget now

/-- Nobody has the model of the only task, and the worker that comes first starts it. -/
theorem progress_pass_first :
    let model : CostModel Rat := ⟨60, 1⟩
    let events : List (Event Rat Publication) := [.registration ⟨"v", .register, 0⟩ 0,
      .registration ⟨"w", .register, 0⟩ 0,
      .work "t" ⟨"model", 1 / 2, 3⟩ 10 1000000 ⟨Bytes.ofText "{}", none, none⟩ 1000000]
    let s : DispatchState Rat := (start 30 3 "results" 10000).run events
    0 < (Hub.pass { state := s, outlet := Publication.accepted } model.select 2000000).1 := by
  intro model events s
  have hmark : model.reloadPenalty < Quantity.unavailable := by decide +kernel
  have hfacts : ((s.pruneExpired 2000000).2.tasks.tasks.get? "t").map (·.isPending 3) = some true ∧
      ((s.pruneExpired 2000000).2.workers.workers.get? "v").isSome = true ∧
      (∀ entry ∈ (s.pruneExpired 2000000).2.workers.workers.entries, entry.2.busy = false) ∧
      ∀ attempt ∈ (Hub.pass { state := s, outlet := Transcript.mk Publication.accepted [] } model.select
        2000000).2.outlet.attempts, attempt.accepted = true := by decide +kernel
  obtain ⟨hpending, hthere, hidle, haccepted⟩ := hfacts
  obtain ⟨task, htask, hwaits⟩ := Option.map_eq_some_iff.1 hpending
  obtain ⟨worker, hworker⟩ := Option.isSome_iff_exists.1 hthere
  obtain ⟨hpositive, hplain⟩ := (progress_pass (by decide) hmark (by decide) 30 3 "results" 10000 events
    Publication.accepted 2000000).1 ⟨"t", task, htask, hwaits⟩ ⟨"v", worker, hworker⟩
    (.inl fun queue worker hworker => hidle _ (Table.mem_entries.2 hworker)) haccepted
  exact hplain ▸ hpositive

end DispatchState

end SpeechDispatch
