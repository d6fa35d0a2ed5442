import SpeechDispatch.Proofs.TaskRegistry

/-!
# The snapshot lists each pending task once

Grouping moves tasks about and loses none (`TaskRegistry.listed_grouped`), so the snapshot lists the pending tasks of
a registry, each under its type (`TaskRegistry.listed_snapshot`).  A pending task is listed once; any other is not
listed (`TaskRegistry.filter_listed_snapshot`).  In a group, tasks stand in the order of their arrival
(`TaskRegistry.pairwise_of_get?_grouped`).
-/

namespace SpeechDispatch

variable {α : Type}

/-- The views in the groups one after another, each with the type under which it stands. -/
def TaskGroups.listed (groups : TaskGroups α) : List (String × TaskView α) :=
  groups.entries.flatMap fun group => group.2.map (group.1, ·)

theorem TaskGroups.mem_listed {groups : TaskGroups α} {modelType : String} {view : TaskView α} :
    (modelType, view) ∈ TaskGroups.listed groups ↔ ∃ views, groups.get? modelType = some views ∧ view ∈ views := by
  simp only [listed, List.mem_flatMap, List.mem_map, Prod.mk.injEq]
  constructor
  · rintro ⟨⟨name, views⟩, hmem, _, hview, rfl, rfl⟩
    exact ⟨views, Table.mem_entries.1 hmem, hview⟩
  · rintro ⟨views, hget, hview⟩
    exact ⟨(modelType, views), Table.mem_entries.2 hget, view, hview, rfl, rfl⟩

namespace TaskRegistry

private theorem listed_addToGroup (groups : TaskGroups α) (view : TaskView α) :
    (addToGroup groups view).listed.Perm (groups.listed ++ [(view.modelType, view)]) := by
  unfold addToGroup TaskGroups.listed
  cases hold : groups.get? view.modelType with
  | none =>
    have hperm := Table.entries_insert_perm groups view.modelType [view]
    rw [Table.erase_of_get?_eq_none hold] at hperm
    exact (hperm.flatMap_right _).trans List.perm_append_comm
  | some old =>
    have hafter := Table.entries_insert_perm groups view.modelType (old ++ [view])
    have hbefore := Table.entries_perm_of_get? hold
    refine (hafter.flatMap_right _).trans (List.Perm.trans ?_ ((hbefore.flatMap_right _).symm.append_right _))
    simp only [List.flatMap_cons, List.map_append, List.map_cons, List.map_nil, List.append_assoc]
    exact List.perm_append_comm.append_left _

private theorem listed_foldl (groups : TaskGroups α) (views : List (TaskView α)) :
    (views.foldl addToGroup groups).listed.Perm (groups.listed ++ views.map fun view => (view.modelType, view)) := by
  induction views generalizing groups with
  | nil => simp
  | cons view rest ih =>
    refine (ih _).trans (((listed_addToGroup groups view).append_right _).trans ?_)
    simp

theorem listed_grouped (views : List (TaskView α)) :
    (grouped views).listed.Perm (views.map fun view => (view.modelType, view)) := by
  refine (listed_foldl ∅ _).trans ?_
  exact (List.mergeSort_perm views comesFirst).map _

/-! ### The order in a group -/

theorem comesFirst_iff {a b : TaskView α} :
    comesFirst a b = true ↔ a.arrivedAt < b.arrivedAt ∨ (a.arrivedAt = b.arrivedAt ∧ a.id ≤ b.id) := by
  simp only [comesFirst, Bool.or_eq_true, Bool.and_eq_true, decide_eq_true_eq, beq_iff_eq]

private theorem comesFirst_trans (a b c : TaskView α) (hab : comesFirst a b = true) (hbc : comesFirst b c = true) :
    comesFirst a c = true := by
  rw [comesFirst_iff] at *
  rcases hab with hab | ⟨hab, hid⟩ <;> rcases hbc with hbc | ⟨hbc, hid'⟩
  · exact .inl (Int.lt_trans hab hbc)
  · exact .inl (hbc ▸ hab)
  · exact .inl (hab ▸ hbc)
  · exact .inr ⟨hab.trans hbc, String.le_trans hid hid'⟩

private theorem comesFirst_total (a b : TaskView α) : (comesFirst a b || comesFirst b a) = true := by
  rw [Bool.or_eq_true, comesFirst_iff, comesFirst_iff]
  rcases Int.lt_trichotomy a.arrivedAt b.arrivedAt with hlt | heq | hlt
  · exact .inl (.inl hlt)
  · rcases String.le_total a.id b.id with hid | hid
    · exact .inl (.inr ⟨heq, hid⟩)
    · exact .inr (.inr ⟨heq.symm, hid⟩)
  · exact .inr (.inl hlt)

/-- Of two tasks with different ids, only one comes first. -/
theorem comesFirst_asymm {a b : TaskView α} (hne : a.id ≠ b.id) (h : comesFirst a b = true) :
    ¬ comesFirst b a = true := by
  rw [comesFirst_iff] at *
  rintro (hlt | ⟨heq, hid⟩)
  · rcases h with h | ⟨h, -⟩
    · exact Int.lt_asymm h hlt
    · exact Int.lt_irrefl _ (h ▸ hlt)
  · rcases h with h | ⟨-, h⟩
    · exact Int.lt_irrefl _ (heq ▸ h)
    · exact hne (String.le_antisymm h hid)

/-- Sorted tasks stand in their order. -/
theorem pairwise_mergeSort_comesFirst (views : List (TaskView α)) :
    (views.mergeSort comesFirst).Pairwise fun a b => comesFirst a b = true :=
  List.pairwise_mergeSort comesFirst_trans comesFirst_total views

/-- Grouping puts the tasks of a type behind those that are in its group, and makes no group for a type without
tasks. -/
theorem get?_foldl_addToGroup (groups : TaskGroups α) (views : List (TaskView α)) (modelType : String) :
    (views.foldl addToGroup groups).get? modelType =
      if views.filter (·.modelType == modelType) = [] then groups.get? modelType
      else some ((groups.get? modelType).getD [] ++ views.filter (·.modelType == modelType)) := by
  induction views generalizing groups with
  | nil => rfl
  | cons view rest ih =>
    rw [List.foldl_cons, ih, addToGroup, Table.get?_insert]
    by_cases htype : view.modelType = modelType
    · subst htype
      rw [if_pos rfl, List.filter_cons_of_pos (by simp), if_neg (List.cons_ne_nil _ _), Option.getD_some]
      split
      · rename_i hnil
        rw [hnil]
      · simp
    · have hne : ¬ modelType = view.modelType := fun h => htype h.symm
      rw [List.filter_cons_of_neg (by simpa using htype)]
      simp only [if_neg hne]

/-- The group of a type has the tasks of the type in their order. -/
theorem get?_grouped (views : List (TaskView α)) (modelType : String) :
    (grouped views).get? modelType =
      if (views.mergeSort comesFirst).filter (·.modelType == modelType) = [] then none
      else some ((views.mergeSort comesFirst).filter (·.modelType == modelType)) :=
  get?_foldl_addToGroup ∅ (views.mergeSort comesFirst) modelType

theorem ne_nil_of_get?_grouped {views group : List (TaskView α)} {modelType : String}
    (h : (grouped views).get? modelType = some group) : group ≠ [] := by
  rw [get?_grouped] at h
  split at h
  · cases h
  · obtain rfl := Option.some.inj h
    assumption

/-- Tasks that are grouped stand in each group in their order. -/
theorem pairwise_of_get?_grouped {views group : List (TaskView α)} {modelType : String}
    (h : (grouped views).get? modelType = some group) : group.Pairwise fun a b => comesFirst a b = true := by
  rw [get?_grouped] at h
  split at h
  · cases h
  · obtain rfl := Option.some.inj h
    exact (pairwise_mergeSort_comesFirst views).filter _

variable [Quantity α]

theorem listed_snapshot (r : TaskRegistry α) :
    r.snapshot.listed.Perm
      ((r.tasks.values.filter (·.isPending r.ceiling)).map fun task => (task.modelType, task.view)) := by
  refine (listed_grouped _).trans ?_
  rw [List.map_map]
  exact List.Perm.refl _

/-- Under the id of a task, the snapshot lists the task if it is pending, and nothing else. -/
theorem filter_listed_snapshot {r : TaskRegistry α} (hnamed : r.Named) {id : String} {task : Task α}
    (h : r.tasks.get? id = some task) :
    r.snapshot.listed.filter (·.2.id == id) =
      if task.isPending r.ceiling = true then [(task.modelType, task.view)] else [] := by
  have hvalues : r.tasks.values.filter (·.id == id) = [task] := Table.filter_values_eq hnamed h
  have hperm := (listed_snapshot r).filter (·.2.id == id)
  rw [List.filter_map, List.filter_filter] at hperm
  have hswap : r.tasks.values.filter (fun t => ((·.2.id == id) ∘ fun t : Task α => (t.modelType, t.view)) t &&
      t.isPending r.ceiling) = [task].filter (·.isPending r.ceiling) := by
    rw [← hvalues, List.filter_filter]
    congr 1
    funext t
    exact Bool.and_comm ..
  rw [hswap] at hperm
  split
  · rename_i hpending
    rw [List.filter_cons_of_pos (by simpa using hpending)] at hperm
    exact List.perm_singleton.1 hperm
  · rename_i hpending
    rw [List.filter_cons_of_neg (by simpa using hpending)] at hperm
    exact List.perm_nil.1 hperm

/-- What the snapshot lists under a type are the views of the pending tasks of that type. -/
theorem mem_listed_snapshot_iff {r : TaskRegistry α} (hnamed : r.Named) {modelType : String} {view : TaskView α} :
    (modelType, view) ∈ r.snapshot.listed ↔ ∃ task, r.tasks.get? view.id = some task ∧
      task.isPending r.ceiling = true ∧ task.modelType = modelType ∧ task.view = view := by
  rw [(listed_snapshot r).mem_iff, List.mem_map]
  constructor
  · rintro ⟨task, hmem, heq⟩
    obtain ⟨hvalue, hpending⟩ := List.mem_filter.1 hmem
    obtain ⟨name, hname⟩ := Table.mem_values.1 hvalue
    obtain ⟨rfl, rfl⟩ := Prod.mk.inj heq
    refine ⟨task, ?_, hpending, rfl, rfl⟩
    change r.tasks.get? task.id = some task
    rw [hnamed hname]
    exact hname
  · rintro ⟨task, htask, hpending, rfl, rfl⟩
    exact ⟨task, List.mem_filter.2 ⟨Table.mem_values.2 ⟨_, htask⟩, hpending⟩, rfl⟩

/-- Every view in the snapshot is that of a pending task. -/
theorem exists_of_mem_listed_snapshot {r : TaskRegistry α} (hnamed : r.Named) {modelType : String}
    {view : TaskView α} (h : (modelType, view) ∈ r.snapshot.listed) :
    ∃ task, r.tasks.get? view.id = some task ∧ task.isPending r.ceiling = true := by
  obtain ⟨task, htask, hpending, -, -⟩ := (mem_listed_snapshot_iff hnamed).1 h
  exact ⟨task, htask, hpending⟩

end TaskRegistry

end SpeechDispatch
