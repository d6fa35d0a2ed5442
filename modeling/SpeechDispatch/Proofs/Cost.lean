import SpeechDispatch.Matching.Cost
import SpeechDispatch.Proofs.EventMoves

/-!
# Matching by cost names pending tasks

Both ways in which the cost model finds a task for a worker look at the listed tasks only (`CostModel.namesPending`),
so a pass never starts a task that is to be given up.  For an idle worker the one is tried after the other
(`CostModel.select_of_idle`).
-/

namespace SpeechDispatch

namespace CostModel

variable {α : Type} [Quantity α] (model : CostModel α)

omit [Quantity α] in
private theorem mem_listed_of_mem_entries {groups : TaskGroups α} {modelType : String} {views : List (TaskView α)}
    {view : TaskView α} (hgroup : (modelType, views) ∈ groups.entries) (hview : view ∈ views) :
    (modelType, view) ∈ groups.listed :=
  TaskGroups.mem_listed.2 ⟨views, Table.mem_entries.1 hgroup, hview⟩

/-- The best fit is the oldest task of a type. -/
theorem exists_head_of_bestFit {workers : List (WorkerView α)} {groups : TaskGroups α} {index : Nat}
    {worker : WorkerView α} {now : Instant} {id : String}
    (h : model.bestFit workers groups index worker now = some id) :
    ∃ modelType oldest rest, groups.get? modelType = some (oldest :: rest) ∧ oldest.id = id := by
  unfold bestFit at h
  obtain ⟨⟨own, modelType, views⟩, hfind, hhead⟩ := Option.bind_eq_some_iff.1 h
  obtain ⟨oldest, holdest, rfl⟩ := Option.map_eq_some_iff.1 hhead
  have hmem := List.mem_of_find?_eq_some hfind
  rw [List.mem_mergeSort] at hmem
  obtain ⟨group, hgroup, heq⟩ := List.mem_map.1 hmem
  obtain ⟨-, rfl⟩ := Prod.mk.inj heq
  obtain ⟨rest, rfl⟩ := List.head?_eq_some_iff.1 holdest
  exact ⟨modelType, oldest, rest, Table.mem_entries.1 hgroup, rfl⟩

theorem exists_of_bestFit {workers : List (WorkerView α)} {groups : TaskGroups α} {index : Nat}
    {worker : WorkerView α} {now : Instant} {id : String}
    (h : model.bestFit workers groups index worker now = some id) :
    ∃ modelType view, (modelType, view) ∈ groups.listed ∧ view.id = id := by
  obtain ⟨modelType, oldest, rest, hget, hid⟩ := model.exists_head_of_bestFit h
  exact ⟨modelType, oldest, TaskGroups.mem_listed.2 ⟨_, hget, List.mem_cons_self ..⟩, hid⟩

theorem exists_of_firstToFall {index : Nat} {now : Instant} {loads : List α} {views : List (TaskView α)} {id : String}
    (h : model.firstToFall index now loads views = some id) : ∃ view ∈ views, view.id = id := by
  induction views generalizing loads with
  | nil => cases h
  | cons first rest ih =>
    unfold firstToFall at h
    split at h
    · cases h
    · dsimp only at h
      split at h
      · exact ⟨first, List.mem_cons_self .., Option.some.inj h⟩
      · obtain ⟨view, hview, hid⟩ := ih h
        exact ⟨view, List.mem_cons_of_mem _ hview, hid⟩

theorem exists_of_timeline {workers : List (WorkerView α)} {groups : TaskGroups α} {index : Nat} {now : Instant}
    {id : String} (h : model.timeline workers groups index now = some id) :
    ∃ modelType view, (modelType, view) ∈ groups.listed ∧ view.id = id := by
  obtain ⟨⟨modelType, views⟩, hgroup, hfall⟩ := List.exists_of_findSome?_eq_some h
  obtain ⟨view, hview, hid⟩ := model.exists_of_firstToFall hfall
  exact ⟨modelType, view, mem_listed_of_mem_entries hgroup hview, hid⟩

theorem namesPending : Strategy.NamesPending model.select := by
  intro workers groups index now id h
  unfold select at h
  split at h
  · cases h
  split at h
  · cases h
  split at h
  · cases h
  split at h
  · cases h
  split at h
  · rename_i hfit
    obtain rfl := Option.some.inj (Except.ok.inj h)
    exact model.exists_of_bestFit hfit
  · exact model.exists_of_timeline (Except.ok.inj h)

/-- An idle worker gets its best fit; only without one the types are played forward for it. -/
theorem select_of_idle {workers : List (WorkerView α)} {index : Nat} {worker : WorkerView α}
    (hworker : workers[index]? = some worker) (hidle : worker.busy = false) (groups : TaskGroups α) (now : Instant) :
    model.select workers groups index now = .ok
      ((model.bestFit workers groups index worker now).or (model.timeline workers groups index now)) := by
  have hworkers : workers.isEmpty = false := by
    cases workers with
    | nil => cases hworker
    | cons first rest => rfl
  simp only [select, hworkers, Bool.false_eq_true, if_false, hworker, hidle]
  split
  · rename_i hempty
    have hlisted : ∀ modelType view, (modelType, view) ∉ groups.listed := by
      intro modelType view hmem
      obtain ⟨views, hget, hview⟩ := TaskGroups.mem_listed.1 hmem
      have hviews := List.all_eq_true.1 hempty views (Table.mem_values.2 ⟨modelType, hget⟩)
      rw [List.isEmpty_iff.1 hviews] at hview
      cases hview
    have hfit : model.bestFit workers groups index worker now = none := by
      cases h : model.bestFit workers groups index worker now with
      | none => rfl
      | some id =>
        obtain ⟨modelType, view, hmem, -⟩ := model.exists_of_bestFit h
        exact absurd hmem (hlisted modelType view)
    have hfall : model.timeline workers groups index now = none := by
      cases h : model.timeline workers groups index now with
      | none => rfl
      | some id =>
        obtain ⟨modelType, view, hmem, -⟩ := model.exists_of_timeline h
        exact absurd hmem (hlisted modelType view)
    rw [hfit, hfall]
    rfl
  · cases model.bestFit workers groups index worker now <;> rfl

end CostModel

/-- An event whose tasks are matched by cost. -/
def Event.ByCost {α σ : Type} [Quantity α] : Event α σ → Prop
  | .pass strategy _ _ => ∃ model : CostModel α, strategy = model.select
  | _ => True

theorem Event.ByCost.namesPending {α σ : Type} [Quantity α] {e : Event α σ} (h : e.ByCost) : e.NamesPending := by
  cases e with
  | pass strategy outlet now =>
    obtain ⟨model, rfl⟩ := h
    exact model.namesPending
  | registration | work | response | round => exact trivial

end SpeechDispatch
