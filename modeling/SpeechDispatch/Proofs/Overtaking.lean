import SpeechDispatch.Proofs.Timeline

/-!
# Overtaking within a type

A task that a worker is given is the oldest of its type, or the worker would have to load the model and another one,
which has it, will be free before that is done (`CostModel.AwaitsSpecialist`).  For the best fit of a worker is always
an oldest task, and when a type is played forward the oldest task falls to an idle worker unless somebody starts with
less to do.  So the tasks of a type leave in the order of the snapshot, with this one exception
(`CostModel.select_inOrder`).

Costs and loads are exact numbers here.
-/

namespace SpeechDispatch.CostModel

variable {model : CostModel Rat} {workers : List (WorkerView Rat)} {groups : TaskGroups Rat} {index : Nat}
  {worker : WorkerView Rat} {now : Instant} {modelType id : String}

/-- The worker at the index does not have a model, and another one that has it will be free sooner than a reload
takes. -/
structure AwaitsSpecialist (model : CostModel Rat) (workers : List (WorkerView Rat)) (index : Nat)
    (modelType : String) : Prop where
  unspecialized : ∀ worker, workers[index]? = some worker → worker.isSpecializedFor modelType = false
  specialist : ∃ i other, i ≠ index ∧ workers[i]? = some other ∧ other.isSpecializedFor modelType = true ∧
    other.remaining < model.reloadPenalty

/-- Only a worker that has the model can start with less to do than an idle one, and only on one that has not. -/
theorem awaitsSpecialist_of_lighter (hpenalty : 0 ≤ model.reloadPenalty)
    (hremaining : ∀ other ∈ workers, 0 ≤ other.remaining) (hworker : workers[index]? = some worker)
    (hfree : worker.remaining = 0)
    (hlighter : ∃ load ∈ model.startLoads workers modelType, load < model.startLoad worker modelType) :
    model.AwaitsSpecialist workers index modelType := by
  obtain ⟨load, hload, hless⟩ := hlighter
  obtain ⟨other, hmem, rfl⟩ := List.mem_map.1 hload
  obtain ⟨i, hother⟩ := List.mem_iff_getElem?.1 hmem
  have hnonneg := hremaining other hmem
  have hreload := reload_nonneg hpenalty other modelType
  rw [startLoad, startLoad, hfree, zero_add] at hless
  have hunspecialized : worker.isSpecializedFor modelType = false := by
    by_contra hspecialized
    rw [reload_of_specialized (Bool.eq_true_of_not_eq_false hspecialized)] at hless
    linarith
  rw [reload_of_not_specialized hunspecialized] at hless
  have hspecialized : other.isSpecializedFor modelType = true := by
    by_contra hnot
    rw [reload_of_not_specialized (Bool.eq_false_of_not_eq_true hnot)] at hless
    linarith
  constructor
  · intro w hw
    obtain rfl := Option.some.inj (hworker.symm.trans hw)
    exact hunspecialized
  · refine ⟨i, other, ?_, hother, hspecialized, by linarith⟩
    rintro rfl
    obtain rfl := Option.some.inj (hworker.symm.trans hother)
    exact absurd (hunspecialized.symm.trans hspecialized) Bool.false_ne_true

/-- What an idle worker is given stands in a group, and if others stand before it a specialist is awaited. -/
theorem exists_place_of_select (hpenalty : 0 ≤ model.reloadPenalty)
    (hremaining : ∀ other ∈ workers, 0 ≤ other.remaining) (hworker : workers[index]? = some worker)
    (hidle : worker.busy = false) (hfree : worker.remaining = 0)
    (h : model.select workers groups index now = .ok (some id)) :
    ∃ modelType earlier task later, groups.get? modelType = some (earlier ++ task :: later) ∧ task.id = id ∧
      (earlier ≠ [] → model.AwaitsSpecialist workers index modelType) := by
  rw [model.select_of_idle hworker hidle] at h
  rcases Option.or_eq_some_iff.1 (Except.ok.inj h) with hfit | ⟨-, hfall⟩
  · obtain ⟨modelType, oldest, rest, hget, hid⟩ := model.exists_head_of_bestFit hfit
    exact ⟨modelType, [], oldest, rest, hget, hid, fun hne => absurd rfl hne⟩
  · obtain ⟨modelType, earlier, task, later, hget, hid, hturn⟩ := timeline_eq_some hworker hfall
    refine ⟨modelType, earlier, task, later, hget, hid, fun hne => ?_⟩
    obtain ⟨first, rest, rfl⟩ := List.exists_cons_of_ne_nil hne
    exact awaitsSpecialist_of_lighter hpenalty hremaining hworker hfree hturn.1

/-- A pending task that is older than another of its type stands before it in the snapshot. -/
theorem mem_earlier_of_comesFirst {r : TaskRegistry Rat} (hnamed : r.Named) {task older : Task Rat}
    {earlier later : List (TaskView Rat)} {view : TaskView Rat}
    (hget : r.snapshot.get? modelType = some (earlier ++ view :: later)) (htask : r.tasks.get? view.id = some task)
    (holder : r.tasks.get? older.id = some older) (hpending : older.isPending r.ceiling = true)
    (htype : older.modelType = task.modelType) (hne : older.id ≠ view.id)
    (hfirst : TaskRegistry.comesFirst older.view task.view = true) :
    task.modelType = modelType ∧ older.view ∈ earlier := by
  have hlisted : (modelType, view) ∈ r.snapshot.listed :=
    TaskGroups.mem_listed.2 ⟨_, hget, List.mem_append_right _ (List.mem_cons_self ..)⟩
  obtain ⟨task', htask', -, rfl, hview⟩ := (TaskRegistry.mem_listed_snapshot_iff hnamed).1 hlisted
  obtain rfl := Option.some.inj (htask.symm.trans htask')
  refine ⟨rfl, ?_⟩
  have hmem : older.view ∈ earlier ++ view :: later := by
    have hlisted' : (task.modelType, older.view) ∈ r.snapshot.listed :=
      (TaskRegistry.mem_listed_snapshot_iff hnamed).2 ⟨older, holder, hpending, htype, rfl⟩
    obtain ⟨views, hviews, hmem⟩ := TaskGroups.mem_listed.1 hlisted'
    rwa [Option.some.inj (hviews.symm.trans hget)] at hmem
  have hordered := TaskRegistry.pairwise_of_get?_grouped hget
  rcases List.mem_append.1 hmem with hmem | hmem
  · exact hmem
  rcases List.mem_cons.1 hmem with heq | hlater
  · exact absurd (congrArg TaskView.id heq) hne
  · -- what stands after the task does not come before it
    have hafter := (List.pairwise_cons.1 (List.pairwise_append.1 hordered).2.1).1 _ hlater
    rw [← hview] at hafter
    exact absurd hafter (TaskRegistry.comesFirst_asymm (hview ▸ hne) hfirst)

/-- The task that an idle worker is given stands in one of the groups, and no other stands before it unless the worker
lacks the model and one that has it will be free sooner than a reload takes.  So where the groups are the snapshot of a
registry, no pending task of a type is passed over for a younger one but for that reason. -/
theorem select_inOrder (hpenalty : 0 ≤ model.reloadPenalty) (hremaining : ∀ other ∈ workers, 0 ≤ other.remaining)
    (hworker : workers[index]? = some worker) (hidle : worker.busy = false) (hfree : worker.remaining = 0)
    (h : model.select workers groups index now = .ok (some id)) :
    (∃ modelType earlier task later, groups.get? modelType = some (earlier ++ task :: later) ∧ task.id = id ∧
      (earlier ≠ [] → model.AwaitsSpecialist workers index modelType)) ∧
    ∀ (r : TaskRegistry Rat) (task older : Task Rat), r.Named → groups = r.snapshot → r.tasks.get? id = some task →
      r.tasks.get? older.id = some older → older.isPending r.ceiling = true → older.modelType = task.modelType →
      older.id ≠ id → TaskRegistry.comesFirst older.view task.view = true →
        model.AwaitsSpecialist workers index task.modelType := by
  have hplace := exists_place_of_select hpenalty hremaining hworker hidle hfree h
  refine ⟨hplace, ?_⟩
  rintro r task older hnamed rfl htask holder hpending htype hne hfirst
  obtain ⟨modelType, earlier, view, later, hget, rfl, hawaits⟩ := hplace
  obtain ⟨rfl, hmem⟩ := mem_earlier_of_comesFirst hnamed hget htask holder hpending htype hne hfirst
  exact hawaits (List.ne_nil_of_mem hmem)

/-- One of two tasks that arrived together. -/
private def twin (id : String) : Task Rat := .arrive id ⟨"A", 1, 0⟩ 100 0 ⟨[1], none, none⟩

/-- The registry of the two. -/
private def twins : TaskRegistry Rat :=
  { tasks := ((∅ : Table (Task Rat)).insert "a" (twin "a")).insert "b" (twin "b"), ceiling := 3 }

private theorem named_twins : twins.Named := by
  intro id task h
  have hmem : (id, task) ∈ [("a", twin "a"), ("b", twin "b")] := Table.mem_entries.2 h
  rcases List.mem_cons.1 hmem with heq | hmem
  · obtain ⟨rfl, rfl⟩ := Prod.mk.inj heq
    rfl
  · obtain ⟨rfl, rfl⟩ := Prod.mk.inj (List.mem_singleton.1 hmem)
    rfl

private theorem snapshot_twins :
    twins.snapshot = (∅ : TaskGroups Rat).insert "A" [(twin "a").view, (twin "b").view] := by
  have hsorted : [(twin "a").view, (twin "b").view].Pairwise fun a b => TaskRegistry.comesFirst a b = true := by
    decide
  change TaskRegistry.grouped [(twin "a").view, (twin "b").view] = _
  rw [TaskRegistry.grouped, List.mergeSort_of_pairwise hsorted]
  rfl

/-- The only specialist is five seconds from its next task, so an idle worker leaves it the first and takes the
other. -/
theorem select_inOrder_specialistBusy :
    let model : CostModel Rat := ⟨60, 1⟩
    let workers : List (WorkerView Rat) := [⟨"v", "A", true, 5⟩, ⟨"w", "", false, 0⟩]
    model.select workers twins.snapshot 1 0 = .ok (some "b") ∧
      TaskRegistry.comesFirst (twin "a").view (twin "b").view = true ∧ model.AwaitsSpecialist workers 1 "A" := by
  intro model workers
  have hselect : model.select workers twins.snapshot 1 0 = .ok (some "b") := by
    rw [snapshot_twins]
    decide +kernel
  have hfirst : TaskRegistry.comesFirst (twin "a").view (twin "b").view = true := by decide
  have horder := (select_inOrder (by decide) (by decide) rfl rfl rfl hselect).2 twins (twin "b") (twin "a")
  exact ⟨hselect, hfirst, horder named_twins rfl rfl rfl rfl rfl (by decide) hfirst⟩

end SpeechDispatch.CostModel
