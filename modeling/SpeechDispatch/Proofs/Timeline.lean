import SpeechDispatch.Proofs.BestFit

/-!
# Types played forward

A task falls to a worker if no load is less than its own (`CostModel.isLightest_leastLoad`); until then every task goes
to somebody with less to do.  So what falls to a worker is the task at which its turn comes
(`CostModel.firstToFall_eq_some_iff`).  At the first task of a type with its model that is the turn of every idle
worker, and an idle worker is given a task whenever there is one for its model (`CostModel.exists_select`).

Loads are exact numbers here.
-/

namespace SpeechDispatch.CostModel

/-! ### The least load -/

theorem leastLoad_concat (loads : List Rat) (load : Rat) :
    leastLoad (loads ++ [load]) =
      match leastLoad loads with
      | some (i, lightest) => if load < lightest then some (loads.length, load) else some (i, lightest)
      | none => some (loads.length, load) := by
  unfold leastLoad
  rw [List.zipIdx_append, List.foldl_append, Nat.zero_add]
  generalize List.foldl _ none loads.zipIdx = least
  cases least with
  | none => rfl
  | some least =>
    have hlt : (Quantity.lt load least.2 = true) = (load < least.2) := decide_eq_true_eq
    change (if Quantity.lt load least.2 = true then some (loads.length, load) else some least) = _
    simp only [hlt]

/-- A load counts as the lightest if and only if no other is less. -/
theorem isLightest_leastLoad {loads : List Rat} {own : Rat} :
    isLightest own (leastLoad loads) = true ↔ ∀ load ∈ loads, own ≤ load := by
  have hle : ∀ a b : Rat, Quantity.le a b = true ↔ a ≤ b := fun _ _ => decide_eq_true_iff
  induction loads using List.reverseRecOn with
  | nil => exact iff_of_true (beq_self_eq_true own) (List.forall_mem_nil _)
  | append_singleton loads load ih =>
    have hconcat : isLightest own (leastLoad (loads ++ [load])) = true ↔
        isLightest own (leastLoad loads) = true ∧ own ≤ load := by
      rw [leastLoad_concat]
      cases leastLoad loads with
      | none => exact (hle own load).trans (and_iff_right (beq_self_eq_true own)).symm
      | some least =>
        dsimp only
        split
        · rename_i hless
          simp only [isLightest, hle]
          exact ⟨fun h => ⟨le_trans h (le_of_lt hless), h⟩, fun h => h.2⟩
        · rename_i hless
          simp only [isLightest, hle]
          exact ⟨fun h => ⟨h, le_trans h (not_lt.1 hless)⟩, fun h => h.1⟩
    rw [List.forall_mem_append, List.forall_mem_singleton]
    exact hconcat.trans (and_congr_left' ih)

/-- The least load is one of the loads. -/
theorem getElem?_of_leastLoad {loads : List Rat} {i : Nat} {lightest : Rat}
    (h : leastLoad loads = some (i, lightest)) : loads[i]? = some lightest := by
  induction loads using List.reverseRecOn generalizing i lightest with
  | nil => cases h
  | append_singleton loads load ih =>
    have hlast : (loads ++ [load])[loads.length]? = some load := List.getElem?_concat_length
    rw [leastLoad_concat] at h
    split at h
    · rename_i j least hleast
      split at h
      · obtain ⟨rfl, rfl⟩ := Prod.mk.inj (Option.some.inj h)
        exact hlast
      · obtain ⟨rfl, rfl⟩ := Prod.mk.inj (Option.some.inj h)
        exact List.getElem?_append_left (List.getElem?_eq_some_iff.1 (ih hleast)).1 ▸ ih hleast
    · obtain ⟨rfl, rfl⟩ := Prod.mk.inj (Option.some.inj h)
      exact hlast

/-! ### Playing tasks -/

section Play

variable {α : Type} [Quantity α] (model : CostModel α) (now : Instant)

/-- The loads after a task was given to the worker with the least. -/
def loaded (loads : List α) (task : TaskView α) : List α :=
  loads.modify (((leastLoad loads).map (·.1)).getD 0) (· + (task.processing - model.waitCredit task now))

/-- The loads after tasks were given out one after another. -/
def play (loads : List α) (tasks : List (TaskView α)) : List α := tasks.foldl (model.loaded now) loads

/-- The load with which a worker starts into a type. -/
def startLoad (worker : WorkerView α) (modelType : String) : α := worker.remaining + model.reload worker modelType

def startLoads (workers : List (WorkerView α)) (modelType : String) : List α :=
  workers.map (model.startLoad · modelType)

end Play

/-! ### What falls to a worker -/

variable {model : CostModel Rat} {workers : List (WorkerView Rat)} {groups : TaskGroups Rat} {index : Nat}
  {worker : WorkerView Rat} {modelType : String}

/-- Where there are loads, one of them is the least. -/
theorem exists_leastLoad {loads : List Rat} (hne : loads ≠ []) :
    ∃ i lightest, leastLoad loads = some (i, lightest) ∧ ∀ load ∈ loads, lightest ≤ load := by
  cases hleast : leastLoad loads with
  | none =>
    obtain ⟨load, hmem⟩ := List.exists_mem_of_ne_nil loads hne
    have hall : isLightest (load + 1) (leastLoad loads) = true ↔ ∀ other ∈ loads, load + 1 ≤ other :=
      isLightest_leastLoad
    rw [hleast] at hall
    exact absurd (hall.1 (beq_self_eq_true _) load hmem) (not_le.2 (lt_add_one load))
  | some least =>
    obtain ⟨i, lightest⟩ := least
    have hall : isLightest lightest (leastLoad loads) = true ↔ ∀ other ∈ loads, lightest ≤ other :=
      isLightest_leastLoad
    rw [hleast] at hall
    exact ⟨i, lightest, rfl, hall.1 (decide_eq_true (le_refl lightest))⟩

/-- As long as somebody has less to do than a worker, a task goes to another worker, one that has least to do. -/
theorem exists_loaded (model : CostModel Rat) {loads : List Rat} {own : Rat} (hown : loads[index]? = some own)
    (hlighter : ∃ load ∈ loads, load < own) (now : Instant) (task : TaskView Rat) :
    ∃ i lightest, i ≠ index ∧ loads[i]? = some lightest ∧ (∀ load ∈ loads, lightest ≤ load) ∧
      model.loaded now loads task = loads.modify i (· + (task.processing - model.waitCredit task now)) := by
  obtain ⟨load, hmem, hless⟩ := hlighter
  obtain ⟨i, lightest, hleast, hall⟩ := exists_leastLoad (List.ne_nil_of_mem hmem)
  have hi := getElem?_of_leastLoad hleast
  refine ⟨i, lightest, ?_, hi, hall, ?_⟩
  · rintro rfl
    obtain rfl := Option.some.inj (hi.symm.trans hown)
    exact absurd (hall load hmem) (not_le.2 hless)
  · rw [loaded, hleast]
    rfl

theorem getElem?_loaded {loads : List Rat} {own : Rat} (hown : loads[index]? = some own)
    (hlighter : ∃ load ∈ loads, load < own) (now : Instant) (task : TaskView Rat) :
    (model.loaded now loads task)[index]? = some own := by
  obtain ⟨i, lightest, hne, -, -, hloaded⟩ := exists_loaded model hown hlighter now task
  rw [hloaded, List.getElem?_modify_ne _ _ hne, hown]

/-- The turn of a worker with a load comes after some tasks: until they are all played, somebody has less to do. -/
def TurnAfter (model : CostModel Rat) (own : Rat) (now : Instant) (loads : List Rat) : List (TaskView Rat) → Prop
  | [] => ∀ load ∈ loads, own ≤ load
  | task :: rest => (∃ load ∈ loads, load < own) ∧ model.TurnAfter own now (model.loaded now loads task) rest

/-- What falls to a worker is the task at which its turn comes. -/
theorem firstToFall_eq_some_iff {loads : List Rat} {own : Rat} (hown : loads[index]? = some own) {now : Instant}
    {tasks : List (TaskView Rat)} {id : String} :
    model.firstToFall index now loads tasks = some id ↔ ∃ earlier task later,
      tasks = earlier ++ task :: later ∧ task.id = id ∧ model.TurnAfter own now loads earlier := by
  induction tasks generalizing loads with
  | nil => simp [firstToFall]
  | cons first rest ih =>
    by_cases hlightest : ∀ load ∈ loads, own ≤ load
    · have hfall : model.firstToFall index now loads (first :: rest) = some first.id := by
        simp only [firstToFall, hown, isLightest_leastLoad.2 hlightest, if_true]
      rw [hfall, Option.some.injEq]
      constructor
      · exact fun h => ⟨[], first, rest, rfl, h, hlightest⟩
      · rintro ⟨_ | ⟨task, earlier⟩, task', later, heq, hid, hturn⟩
        · obtain ⟨rfl, -⟩ := List.cons.inj heq
          exact hid
        · obtain ⟨⟨load, hmem, hless⟩, -⟩ := hturn
          exact absurd (hlightest load hmem) (not_le.2 hless)
    · have hlighter : ∃ load ∈ loads, load < own := by simpa using hlightest
      have hfall : model.firstToFall index now loads (first :: rest) =
          model.firstToFall index now (model.loaded now loads first) rest := by
        have hnot : ¬ isLightest own (leastLoad loads) = true := isLightest_leastLoad.not.2 hlightest
        simp only [firstToFall, hown, hnot, Bool.false_eq_true, if_false]
        rfl
      rw [hfall, ih (getElem?_loaded hown hlighter now first)]
      constructor
      · rintro ⟨earlier, task, later, rfl, hid, hturn⟩
        exact ⟨first :: earlier, task, later, rfl, hid, hlighter, hturn⟩
      · rintro ⟨_ | ⟨task, earlier⟩, task', later, heq, hid, hturn⟩
        · exact absurd hturn hlightest
        · obtain ⟨rfl, rfl⟩ := List.cons.inj heq
          exact ⟨earlier, task', later, rfl, hid, hturn.2⟩

theorem getElem?_startLoads (model : CostModel Rat) (hworker : workers[index]? = some worker) (modelType : String) :
    (model.startLoads workers modelType)[index]? = some (model.startLoad worker modelType) := by
  rw [startLoads, List.getElem?_map, hworker, Option.map_some]

/-- What falls to a worker when the types are played forward is a task at which its turn comes. -/
theorem timeline_eq_some (hworker : workers[index]? = some worker) {now : Instant} {id : String}
    (h : model.timeline workers groups index now = some id) :
    ∃ modelType earlier task later, groups.get? modelType = some (earlier ++ task :: later) ∧ task.id = id ∧
      model.TurnAfter (model.startLoad worker modelType) now (model.startLoads workers modelType) earlier := by
  obtain ⟨⟨modelType, tasks⟩, hgroup, hfall⟩ := List.exists_of_findSome?_eq_some h
  obtain ⟨earlier, task, later, rfl, hid, hturn⟩ :=
    (firstToFall_eq_some_iff (getElem?_startLoads model hworker modelType)).1 hfall
  exact ⟨modelType, earlier, task, later, Table.mem_entries.1 hgroup, hid, hturn⟩

/-- Something falls to a worker if its turn comes before the tasks of some type are all played. -/
theorem exists_timeline_of_turnAfter (hworker : workers[index]? = some worker) {now : Instant}
    {earlier later : List (TaskView Rat)} (hget : groups.get? modelType = some (earlier ++ later)) (hne : later ≠ [])
    (hturn : model.TurnAfter (model.startLoad worker modelType) now (model.startLoads workers modelType) earlier) :
    ∃ id, model.timeline workers groups index now = some id := by
  obtain ⟨task, rest, rfl⟩ := List.exists_cons_of_ne_nil hne
  have hfall : model.firstToFall index now (model.startLoads workers modelType) (earlier ++ task :: rest) =
      some task.id :=
    (firstToFall_eq_some_iff (getElem?_startLoads model hworker modelType)).2 ⟨earlier, task, rest, rfl, rfl, hturn⟩
  refine Option.isSome_iff_exists.1 (List.findSome?_isSome_iff.2 ⟨_, Table.mem_entries.2 hget, ?_⟩)
  exact Option.isSome_iff_exists.2 ⟨task.id, hfall⟩

/-- Something falls to an idle worker if there is a task for its model, since nobody has less to do than nothing. -/
theorem exists_timeline (hpenalty : 0 ≤ model.reloadPenalty) (hremaining : ∀ other ∈ workers, 0 ≤ other.remaining)
    (hworker : workers[index]? = some worker) (hfree : worker.remaining = 0)
    (hspecialized : worker.isSpecializedFor modelType = true) {oldest : TaskView Rat} {rest : List (TaskView Rat)}
    (hget : groups.get? modelType = some (oldest :: rest)) (now : Instant) :
    ∃ id, model.timeline workers groups index now = some id := by
  have hown : model.startLoad worker modelType = 0 := by
    rw [startLoad, hfree, reload_of_specialized hspecialized, add_zero]
  have hlightest : ∀ load ∈ model.startLoads workers modelType, model.startLoad worker modelType ≤ load := by
    intro load hload
    obtain ⟨other, hmem, rfl⟩ := List.mem_map.1 hload
    rw [hown]
    exact add_nonneg (hremaining other hmem) (reload_nonneg hpenalty other modelType)
  have hturn : model.TurnAfter (model.startLoad worker modelType) now (model.startLoads workers modelType) [] :=
    hlightest
  exact exists_timeline_of_turnAfter hworker hget (List.cons_ne_nil oldest rest) hturn

/-- An idle worker is given a task if there is one for its model, whatever the others have to do. -/
theorem exists_select (hpenalty : 0 ≤ model.reloadPenalty) (hremaining : ∀ other ∈ workers, 0 ≤ other.remaining)
    (hworker : workers[index]? = some worker) (hidle : worker.busy = false) (hfree : worker.remaining = 0)
    (hspecialized : worker.isSpecializedFor modelType = true) {oldest : TaskView Rat} {rest : List (TaskView Rat)}
    (hget : groups.get? modelType = some (oldest :: rest)) (now : Instant) :
    ∃ id, model.select workers groups index now = .ok (some id) := by
  obtain ⟨id, hfall⟩ := exists_timeline hpenalty hremaining hworker hfree hspecialized hget now
  rw [model.select_of_idle hworker hidle, hfall]
  cases model.bestFit workers groups index worker now with
  | none => exact ⟨id, rfl⟩
  | some id => exact ⟨id, rfl⟩

end SpeechDispatch.CostModel
