import Mathlib.Algebra.Order.Ring.Nat
import Mathlib.Data.List.Nodup
import SpeechDispatch.Proofs.RegistryRun
import SpeechDispatch.Proofs.Snapshot
import SpeechDispatch.Proofs.WorkerLife

/-!
# The snapshot has one form

The tasks of a registry can be gone through in any order.  The groups of the pending ones, each sorted when it is
complete (`TaskRegistry.groupsFrom`), the ids to be given up and the ids no longer waited for are the same for every
order: a group is sorted by arrival and id, and no two tasks have an id in common (`TaskRegistry.groupsFrom_eq`).

So the snapshot depends on nothing but the tasks (`TaskRegistry.canonical_of_run`), and a pass that goes through the
tasks in another order whenever it looks at them does the same (`Hub.passesInSomeOrder_iff`).
-/

namespace SpeechDispatch

variable {α σ : Type}

namespace TaskRegistry

/-! ### Sorting what is distinct -/

/-- Tasks with distinct ids are in order in one way only. -/
theorem eq_of_perm_of_inOrder {views views' : List (TaskView α)} (hperm : views.Perm views')
    (hnodup : (views.map (·.id)).Nodup) (h : views.Pairwise fun a b => comesFirst a b = true)
    (h' : views'.Pairwise fun a b => comesFirst a b = true) : views = views' := by
  apply List.Perm.eq_of_pairwise _ h h' hperm
  intro a b ha hb hab hba
  by_cases hid : a.id = b.id
  · exact List.inj_on_of_nodup_map hnodup ha (hperm.mem_iff.2 hb) hid
  · exact absurd hba (comesFirst_asymm hid hab)

theorem sortIds_eq_of_perm {ids ids' : List String} (hperm : ids.Perm ids') : sortIds ids = sortIds ids' := by
  have hsorted : ∀ l : List String, (sortIds l).Pairwise fun a b => a ≤ b := by
    intro l
    have h := @List.pairwise_mergeSort String (fun a b => decide (a ≤ b))
      (fun a b c hab hbc => by simpa using String.le_trans (by simpa using hab) (by simpa using hbc))
      (fun a b => by simpa using String.le_total a b) l
    simpa [sortIds] using h
  have hsame : (sortIds ids).Perm (sortIds ids') :=
    (List.mergeSort_perm ..).trans (hperm.trans (List.mergeSort_perm ..).symm)
  apply List.Perm.eq_of_pairwise _ (hsorted ids) (hsorted ids') hsame
  intro a b _ _ hab hba
  exact String.le_antisymm hab hba

/-! ### Tasks in any order -/

/-- Groups made of tasks in the order in which they come, each sorted when it is complete. -/
def groupsFrom [Quantity α] (ceiling : Nat) (listing : List (Task α)) : TaskGroups α :=
  (((listing.filter (·.isPending ceiling)).map (·.view)).foldl addToGroup ∅).mapValues (·.mergeSort comesFirst)

/-- The tasks of one type come out alike, whether they are sorted apart or with all the others. -/
private theorem mergeSort_filter_eq {views views' : List (TaskView α)} (hperm : views.Perm views')
    (hnodup : (views.map (·.id)).Nodup) (modelType : String) :
    (views.filter (·.modelType == modelType)).mergeSort comesFirst =
      (views'.mergeSort comesFirst).filter (·.modelType == modelType) := by
  have hsort := List.mergeSort_perm (views.filter (·.modelType == modelType)) comesFirst
  have hall : views.Perm (views'.mergeSort comesFirst) := hperm.trans (List.mergeSort_perm ..).symm
  have hdistinct : (((views.filter (·.modelType == modelType)).mergeSort comesFirst).map (·.id)).Nodup := by
    rw [(hsort.map _).nodup_iff]
    exact hnodup.sublist (List.filter_sublist.map _)
  exact eq_of_perm_of_inOrder (hsort.trans (hall.filter _)) hdistinct (pairwise_mergeSort_comesFirst _)
    ((pairwise_mergeSort_comesFirst views').filter _)

theorem grouped_eq_of_perm {views views' : List (TaskView α)} (hperm : views.Perm views')
    (hnodup : (views.map (·.id)).Nodup) :
    (views.foldl addToGroup ∅).mapValues (·.mergeSort comesFirst) = grouped views' := by
  apply Table.ext_get?
  intro modelType
  rw [Table.get?_mapValues, get?_foldl_addToGroup, get?_grouped, ← mergeSort_filter_eq hperm hnodup modelType]
  by_cases hnil : views.filter (·.modelType == modelType) = []
  · rw [if_pos hnil, hnil, List.mergeSort_nil, if_pos rfl]
    rfl
  · have hsome : (views.filter (·.modelType == modelType)).mergeSort comesFirst ≠ [] := by
      intro h
      have hsort := List.mergeSort_perm (views.filter (·.modelType == modelType)) comesFirst
      rw [h] at hsort
      exact hnil hsort.nil_eq.symm
    rw [if_neg hnil, if_neg hsome]
    rfl

/-- The ids to be given up among tasks in any order. -/
def exhaustedFrom (ceiling : Nat) (listing : List (Task α)) : List String :=
  sortIds ((listing.filter fun task => !task.started && task.isExhausted ceiling).map (·.id))

/-- The ids no longer waited for among tasks in any order. -/
def unredeliveredFrom (now : Instant) (threshold : Int) (listing : List (Task α)) : List String :=
  sortIds ((listing.filter (isUnredelivered now threshold)).map (·.id))

theorem exhaustedFrom_eq {r : TaskRegistry α} {listing : List (Task α)} (hperm : listing.Perm r.tasks.values) :
    exhaustedFrom r.ceiling listing = r.exhausted :=
  sortIds_eq_of_perm ((hperm.filter _).map _)

theorem unredeliveredFrom_eq {r : TaskRegistry α} {listing : List (Task α)} (hperm : listing.Perm r.tasks.values)
    (now : Instant) (threshold : Int) : unredeliveredFrom now threshold listing = r.unredelivered now threshold :=
  sortIds_eq_of_perm ((hperm.filter _).map _)

theorem nodup_ids {r : TaskRegistry α} (hr : r.Named) : (r.tasks.values.map (·.id)).Nodup := by
  rw [Table.map_values_eq_names hr]
  exact r.tasks.names_nodup

section Groups

variable [Quantity α]

theorem nodup_ids_pending {r : TaskRegistry α} (hr : r.Named) :
    (((r.tasks.values.filter (·.isPending r.ceiling)).map (·.view)).map (·.id)).Nodup := by
  rw [List.map_map]
  exact (nodup_ids hr).sublist (List.filter_sublist.map _)

theorem groupsFrom_eq {r : TaskRegistry α} (hr : r.Named) {listing : List (Task α)}
    (hperm : listing.Perm r.tasks.values) : groupsFrom r.ceiling listing = r.snapshot := by
  have hviews := (hperm.filter (·.isPending r.ceiling)).map (·.view)
  refine grouped_eq_of_perm hviews ?_
  rw [(hviews.map (·.id)).nodup_iff]
  exact nodup_ids_pending hr

/-! ### What is in the groups -/

/-- Under each id, the snapshot lists the task of this id if it is neither started nor exhausted. -/
theorem filter_listed_snapshot_eq {r : TaskRegistry α} (hr : r.Named) (id : String) :
    r.snapshot.listed.filter (·.2.id == id) =
      match r.tasks.get? id with
      | some task =>
        if task.started = false ∧ task.failures < r.ceiling then [(task.modelType, task.view)] else []
      | none => [] := by
  cases htask : r.tasks.get? id with
  | some task =>
    have hpending : task.isPending r.ceiling = true ↔ task.started = false ∧ task.failures < r.ceiling := by
      simp [Task.isPending, Task.isExhausted]
    rw [filter_listed_snapshot hr htask]
    simp only [hpending]
  | none =>
    rw [List.filter_eq_nil_iff]
    rintro ⟨modelType, view⟩ hlisted hid
    obtain ⟨task, hview, -⟩ := exists_of_mem_listed_snapshot hr hlisted
    rw [beq_iff_eq.1 hid, htask] at hview
    cases hview

/-- A group has tasks, with distinct ids, and older ones stand before younger ones. -/
theorem group_of_get?_snapshot {r : TaskRegistry α} (hr : r.Named) {modelType : String} {group : List (TaskView α)}
    (h : r.snapshot.get? modelType = some group) :
    group ≠ [] ∧ (group.map (·.id)).Nodup ∧
      group.Pairwise fun a b => a.arrivedAt < b.arrivedAt ∨ (a.arrivedAt = b.arrivedAt ∧ a.id < b.id) := by
  have hnodup : (group.map (·.id)).Nodup := by
    have hget := h
    rw [snapshot, pendingGroups, get?_grouped] at hget
    split at hget
    · cases hget
    · obtain rfl := Option.some.inj hget
      have hsorted := (List.mergeSort_perm ((r.tasks.values.filter (·.isPending r.ceiling)).map (·.view)) comesFirst)
      exact ((hsorted.map (·.id)).nodup_iff.2 (nodup_ids_pending hr)).sublist (List.filter_sublist.map _)
  refine ⟨ne_nil_of_get?_grouped h, hnodup, ?_⟩
  have hdistinct : group.Pairwise fun a b => a.id ≠ b.id := List.pairwise_map.1 hnodup
  refine ((pairwise_of_get?_grouped h).and hdistinct).imp ?_
  rintro a b ⟨hfirst, hne⟩
  rcases comesFirst_iff.1 hfirst with hlt | ⟨heq, hle⟩
  · exact .inl hlt
  · refine .inr ⟨heq, ?_⟩
    apply String.not_le.1
    intro hge
    exact hne (String.le_antisymm hle hge)

theorem pendingCount_eq_sum (r : TaskRegistry α) : r.pendingCount = (r.snapshot.values.map List.length).sum := by
  have hlength := (listed_snapshot r).length_eq
  rw [List.length_map] at hlength
  rw [pendingCount, ← hlength, TaskGroups.listed, List.length_flatMap, Table.values, List.map_map]
  congr 1
  apply List.map_congr_left
  intro group _
  exact List.length_map _

end Groups

/-! ### Registries with the same tasks -/

theorem eq_of_same_tasks {r r' : TaskRegistry α} (hr : r.Named) (hr' : r'.Named) (hceiling : r.ceiling = r'.ceiling)
    (hsame : ∀ task, task ∈ r.tasks.values ↔ task ∈ r'.tasks.values) : r = r' := by
  have hfound : ∀ {r : TaskRegistry α}, r.Named → ∀ id task,
      r.tasks.get? id = some task ↔ task ∈ r.tasks.values ∧ task.id = id := by
    intro r hr id task
    rw [Table.mem_values]
    constructor
    · intro h
      exact ⟨⟨id, h⟩, hr h⟩
    · rintro ⟨⟨name, h⟩, rfl⟩
      rw [hr h]
      exact h
  apply eq_of_get? hceiling
  intro id
  ext task
  rw [hfound hr, hfound hr', hsame]

/-- Distinct tasks may be added in any order. -/
theorem run_add_perm (r : TaskRegistry α) {tasks tasks' : List (Task α)} (hperm : tasks.Perm tasks')
    (hnodup : (tasks.map (·.id)).Nodup) : r.run (tasks.map .add) = r.run (tasks'.map .add) := by
  refine eq_of_get? ((ceiling_run ..).trans (ceiling_run ..).symm) fun id => ?_
  rw [get?_run, get?_run, List.foldl_map, List.foldl_map]
  apply hperm.foldl_eq'
  intro a ha b hb entry
  by_cases hid : a.id = b.id
  · obtain rfl := List.inj_on_of_nodup_map hnodup ha hb hid
    rfl
  · simp only [TaskCall.onEntry]
    by_cases hfirst : a.id = id ∧ a.IsComplete
    · have hnot : ¬ (b.id = id ∧ b.IsComplete) := fun h => hid (hfirst.1.trans h.1.symm)
      simp only [if_pos hfirst, if_neg hnot]
    · simp only [if_neg hfirst]

end TaskRegistry

/-! ### Passes -/

namespace Hub

variable [Quantity α] [Outlet σ]

/-- An offer that is made on given groups. -/
def offerFrom (h : Hub α σ) (groups : TaskGroups α) (strategy : Strategy α) (queue : String) (now : Instant) :
    Bool × Hub α σ :=
  let workers := h.state.workers.snapshot now
  if groups.isEmpty then (false, h)
  else
    match workers.findIdx? (·.queue == queue) with
    | none => (false, h)
    | some index =>
      match strategy workers groups index now with
      | .ok (some id) => h.dispatch id queue now
      | .ok none | .error _ => (false, h)

theorem offerFrom_snapshot (h : Hub α σ) (strategy : Strategy α) (queue : String) (now : Instant) :
    h.offerFrom h.state.tasks.snapshot strategy queue now = h.offer strategy queue now := rfl

/-- What offers can come to when for each of them the tasks are gone through in some order. -/
inductive OffersInSomeOrder (strategy : Strategy α) (now : Instant) : Hub α σ → List String → Nat × Hub α σ → Prop
  | nil (h) : OffersInSomeOrder strategy now h [] (0, h)
  | cons {h queue rest listing n left} (hperm : listing.Perm h.state.tasks.tasks.values)
    (hrest : OffersInSomeOrder strategy now
      (h.offerFrom (TaskRegistry.groupsFrom h.state.tasks.ceiling listing) strategy queue now).2 rest (n, left)) :
    OffersInSomeOrder strategy now h (queue :: rest)
      (if (h.offerFrom (TaskRegistry.groupsFrom h.state.tasks.ceiling listing) strategy queue now).1 then n + 1 else n,
        left)

/-- What a pass can come to when for each offer the tasks are gone through in some order. -/
def PassesInSomeOrder (h : Hub α σ) (strategy : Strategy α) (now : Instant) (result : Nat × Hub α σ) : Prop :=
  ∃ n left, OffersInSomeOrder strategy now (h.prune now) (h.prune now).state.workers.idleQueues (n, left) ∧
    result = (n, left.measure)

omit [Quantity α] [Outlet σ] in
private theorem named_tasks_prune {h : Hub α σ} (hr : h.state.tasks.Named) (now : Instant) :
    (h.prune now).state.tasks.Named := by
  intro id task htask
  change (DispatchState.requeueHeld h.state.tasks _).2.tasks.get? id = some task at htask
  rw [DispatchState.get?_requeueHeld] at htask
  obtain ⟨old, hold, rfl⟩ := Option.map_eq_some_iff.1 htask
  have hid : old.id = id := hr hold
  split
  · exact hid
  · exact hid

private theorem named_tasks_offer {h : Hub α σ} (hr : h.state.tasks.Named) (strategy : Strategy α) (queue : String)
    (now : Instant) : (h.offer strategy queue now).2.state.tasks.Named := by
  rcases h.offer_cases strategy queue now with hoffer | ⟨id, hoffer⟩
  · rw [hoffer]
    exact hr
  rw [hoffer]
  rcases h.dispatch_cases id queue now with ⟨-, hsame⟩ | ⟨-, task, worker, htask, -, -, hbound⟩
  · rw [hsame]
    exact hr
  · rw [hbound]
    intro name found hfound
    change (h.state.tasks.tasks.insert id (task.startedOn queue)).get? name = some found at hfound
    rw [Table.get?_insert] at hfound
    split at hfound
    · obtain rfl := Option.some.inj hfound
      rename_i hname
      subst hname
      show task.id = name
      exact hr htask
    · exact hr hfound

theorem offersInSomeOrder_iff {h : Hub α σ} (hr : h.state.tasks.Named) (strategy : Strategy α) (now : Instant)
    (queues : List String) (result : Nat × Hub α σ) :
    OffersInSomeOrder strategy now h queues result ↔ result = h.offerAll strategy now queues := by
  constructor
  · intro hoffers
    induction hoffers with
    | nil h => rfl
    | @cons h queue rest listing n left hperm hrest ih =>
      rw [TaskRegistry.groupsFrom_eq hr hperm, offerFrom_snapshot] at ih ⊢
      have hleft := ih (named_tasks_offer hr strategy queue now)
      simp only [offerAll, ← hleft]
  · rintro rfl
    induction queues generalizing h with
    | nil => exact .nil h
    | cons queue rest ih =>
      have hgroups := TaskRegistry.groupsFrom_eq hr (List.Perm.refl _)
      have hrest := ih (named_tasks_offer hr strategy queue now)
      rw [← offerFrom_snapshot, ← hgroups] at hrest
      have hcons := OffersInSomeOrder.cons (List.Perm.refl _) hrest
      rw [hgroups, offerFrom_snapshot] at hcons
      exact hcons

/-- In whatever order a pass goes through the tasks, it does the same. -/
theorem passesInSomeOrder_iff {h : Hub α σ} (hr : h.state.tasks.Named) (strategy : Strategy α) (now : Instant)
    (result : Nat × Hub α σ) : h.PassesInSomeOrder strategy now result ↔ result = h.pass strategy now := by
  simp only [PassesInSomeOrder, offersInSomeOrder_iff (named_tasks_prune hr now), pass]
  constructor
  · rintro ⟨n, left, hoffered, rfl⟩
    rw [← hoffered]
  · rintro rfl
    exact ⟨_, _, rfl, rfl⟩

end Hub

namespace TaskRegistry

variable [Quantity α] [Outlet σ]

/-- After any calls, the snapshot lists the pending tasks once each, in sorted groups that are not empty.  It depends on
nothing but the tasks that are there: not on the order in which they came, nor on the order in which they are gone
through, and neither does a pass. -/
theorem canonical_of_run (ceiling : Nat) (calls : List (TaskCall α)) :
    let r := ({ ceiling } : TaskRegistry α).run calls
    (∀ id, r.snapshot.listed.filter (·.2.id == id) =
      match r.tasks.get? id with
      | some task =>
        if task.started = false ∧ task.failures < ceiling then [(task.modelType, task.view)] else []
      | none => []) ∧
    (∀ modelType group, r.snapshot.get? modelType = some group →
      group ≠ [] ∧ (group.map (·.id)).Nodup ∧
        group.Pairwise fun a b => a.arrivedAt < b.arrivedAt ∨ (a.arrivedAt = b.arrivedAt ∧ a.id < b.id)) ∧
    (r.snapshot.names.Pairwise fun a b => a < b) ∧
    r.pendingCount = (r.snapshot.values.map List.length).sum ∧
    (∀ listing : List (Task α), listing.Perm r.tasks.values →
      groupsFrom ceiling listing = r.snapshot ∧
        exhaustedFrom ceiling listing = r.exhausted ∧
        (∀ now threshold, unredeliveredFrom now threshold listing = r.unredelivered now threshold) ∧
        (listing.filter (·.isPending ceiling)).length = r.pendingCount) ∧
    (∀ calls' : List (TaskCall α),
      let r' := ({ ceiling } : TaskRegistry α).run calls'
      (∀ task, task ∈ r.tasks.values ↔ task ∈ r'.tasks.values) →
        r.snapshot = r'.snapshot ∧ r.exhausted = r'.exhausted ∧
          ∀ now threshold, r.unredelivered now threshold = r'.unredelivered now threshold) ∧
    (∀ tasks tasks' : List (Task α), tasks.Perm tasks' → (tasks.map (·.id)).Nodup →
      r.run (tasks.map .add) = r.run (tasks'.map .add)) ∧
    (∀ (h : Hub α σ) (strategy : Strategy α) (now : Instant) (result : Nat × Hub α σ), h.state.tasks = r →
      (h.PassesInSomeOrder strategy now result ↔ result = h.pass strategy now)) := by
  intro r
  have hr : r.Named := named_run (named_empty ceiling) calls
  have hceiling : r.ceiling = ceiling := ceiling_run _ calls
  refine ⟨?_, fun modelType group hgroup => group_of_get?_snapshot hr hgroup, ?_, pendingCount_eq_sum r, ?_, ?_, ?_, ?_⟩
  · intro id
    rw [filter_listed_snapshot_eq hr id, hceiling]
  · exact List.pairwise_map.2 r.snapshot.sorted
  · intro listing hperm
    have hgroups := groupsFrom_eq hr hperm
    have hexhausted := exhaustedFrom_eq hperm
    have hpending := (hperm.filter (·.isPending r.ceiling)).length_eq
    rw [hceiling] at hgroups hexhausted
    refine ⟨hgroups, hexhausted, fun now threshold => unredeliveredFrom_eq hperm now threshold, ?_⟩
    rw [← hceiling]
    exact hpending
  · intro calls' r' hsame
    have heq : r = r' := by
      apply eq_of_same_tasks hr (named_run (named_empty ceiling) calls') _ hsame
      rw [hceiling, ceiling_run]
    rw [heq]
    exact ⟨rfl, rfl, fun _ _ => rfl⟩
  · intro tasks tasks' hperm hnodup
    exact run_add_perm r hperm hnodup
  · intro h strategy now result htasks
    apply Hub.passesInSomeOrder_iff
    rw [htasks]
    exact hr

end TaskRegistry

end SpeechDispatch
