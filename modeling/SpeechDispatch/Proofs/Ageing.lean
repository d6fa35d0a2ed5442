import Mathlib.Data.List.Perm.Basic
import SpeechDispatch.Proofs.Timeline

/-!
# What waiting does to an offer

The credit for its wait is taken off what a task adds to the load of a worker.  So when the tasks of a type are played
forward later, each goes on to leave somebody with less to do, and the turn of an idle worker may not come at all: an
offer can be lost by waiting.  It is kept if it is a best fit or the first task of its type, and otherwise unless
another worker would be left with a load that exceeds that of the idle worker by less than what the tasks before have
gained (`CostModel.exists_select_later`).

Costs and loads are exact numbers here.
-/

namespace SpeechDispatch

/-- Spans of time order as the seconds they come to. -/
theorem Quantity.ofSpan_mono {a b : Int} (h : a ≤ b) : (Quantity.ofSpan a : Rat) ≤ Quantity.ofSpan b := by
  have hmillis : (a.toNat : Rat) ≤ (b.toNat : Rat) := Nat.cast_le.2 (Int.toNat_le_toNat h)
  exact div_le_div_of_nonneg_right hmillis (by decide)

/-- Changing an element changes one element of the list without another one. -/
theorem exists_perm_eraseIdx_set {β : Type} {l : List β} {i index : Nat} {a : β} (h : l[i]? = some a)
    (hne : i ≠ index) (b : β) :
    ∃ rest, (l.eraseIdx index).Perm (a :: rest) ∧ ((l.set i b).eraseIdx index).Perm (b :: rest) := by
  have hset : ∀ {l : List β} {i : Nat}, l[i]? = some a → l.Perm (a :: l.eraseIdx i) ∧
      (l.set i b).Perm (b :: l.eraseIdx i) := by
    intro l i h
    obtain ⟨hlt, rfl⟩ := List.getElem?_eq_some_iff.1 h
    exact ⟨(List.getElem_cons_eraseIdx_perm hlt).symm, List.set_perm_cons_eraseIdx hlt b⟩
  rcases Nat.lt_or_gt_of_ne hne with hlt | hgt
  · rw [List.eraseIdx_set_gt hlt]
    exact ⟨_, hset ((List.getElem?_eraseIdx_of_lt hlt).trans h)⟩
  · rw [List.eraseIdx_set_lt hgt]
    have hpred : i - 1 + 1 = i := Nat.sub_add_cancel (Nat.one_le_of_lt hgt)
    refine ⟨_, hset ((List.getElem?_eraseIdx_of_ge (Nat.le_sub_one_of_lt hgt)).trans ?_)⟩
    rw [hpred, h]

namespace CostModel

/-! ### Loads that lag behind others -/

/-- Whatever the limit, the first loads have no more below it than the second have below one that is higher by the
slack. -/
def Lags (slack : Rat) (behind ahead : List Rat) : Prop :=
  ∀ limit, behind.countP (· ≤ limit) ≤ ahead.countP (· ≤ limit + slack)

theorem Lags.refl (loads : List Rat) : Lags 0 loads loads := by
  intro limit
  rw [add_zero]

theorem Lags.of_perm {slack : Rat} {behind behind' ahead ahead' : List Rat} (h : Lags slack behind ahead)
    (hbehind : behind'.Perm behind) (hahead : ahead'.Perm ahead) : Lags slack behind' ahead' := by
  intro limit
  rw [hbehind.countP_eq, hahead.countP_eq]
  exact h limit

theorem Lags.exists_le {slack load : Rat} {behind ahead : List Rat} (h : Lags slack behind ahead)
    (hmem : load ∈ behind) : ∃ other ∈ ahead, other ≤ load + slack := by
  have hpos : 0 < behind.countP (· ≤ load) := List.countP_pos_iff.2 ⟨load, hmem, decide_eq_true (le_refl load)⟩
  obtain ⟨other, hother, hle⟩ := List.countP_pos_iff.1 (Nat.lt_of_lt_of_le hpos (h load))
  exact ⟨other, hother, of_decide_eq_true hle⟩

/-- If the least of the loads get their next task, the slack grows by what the task is longer for those ahead. -/
theorem Lags.step {slack gain least least' work work' : Rat} {rest rest' : List Rat}
    (h : Lags slack (least' :: rest') (least :: rest)) (hleast' : ∀ load ∈ rest', least' ≤ load)
    (hleast : ∀ load ∈ rest, least ≤ load) (hgain : 0 ≤ gain) (hwork : work ≤ work' + gain) :
    Lags (slack + gain) ((least' + work') :: rest') ((least + work) :: rest) := by
  intro limit
  have hnear : least ≤ least' + slack := by
    obtain ⟨other, hother, hle⟩ := h.exists_le (List.mem_cons_self ..)
    rcases List.mem_cons.1 hother with rfl | hother
    · exact hle
    · exact le_trans (hleast other hother) hle
  have hothers : rest'.countP (· ≤ limit) ≤ rest.countP (· ≤ limit + slack) := by
    have hcount := h limit
    simp only [List.countP_cons, decide_eq_true_eq] at hcount
    by_cases hbelow : least' ≤ limit
    · rw [if_pos hbelow, if_pos (by linarith)] at hcount
      exact Nat.le_of_succ_le_succ hcount
    · have hnone : rest'.countP (· ≤ limit) = 0 := by
        refine List.countP_eq_zero.2 fun load hload hle => hbelow ?_
        exact le_trans (hleast' load hload) (of_decide_eq_true hle)
      rw [hnone]
      exact Nat.zero_le _
  have hmore : rest.countP (· ≤ limit + slack) ≤ rest.countP (· ≤ limit + (slack + gain)) := by
    refine List.countP_mono_left fun load _ hle => decide_eq_true ?_
    have hle : load ≤ limit + slack := of_decide_eq_true hle
    linarith
  simp only [List.countP_cons, decide_eq_true_eq]
  by_cases hnext : least' + work' ≤ limit
  · rw [if_pos hnext, if_pos (by linarith)]
    omega
  · rw [if_neg hnext]
    omega

/-! ### The loads of the others -/

variable {model : CostModel Rat} {workers : List (WorkerView Rat)} {groups : TaskGroups Rat} {index : Nat}
  {worker : WorkerView Rat} {modelType : String} {now later : Instant}

/-- While somebody has less to do than a worker, a task is added to the least of the loads of the others. -/
theorem exists_others_loaded (model : CostModel Rat) {loads : List Rat} {own : Rat}
    (hown : loads[index]? = some own) (hlighter : ∃ load ∈ loads, load < own) (now : Instant) (task : TaskView Rat) :
    ∃ least rest, (loads.eraseIdx index).Perm (least :: rest) ∧ (∀ load ∈ rest, least ≤ load) ∧
      ((model.loaded now loads task).eraseIdx index).Perm
        ((least + (task.processing - model.waitCredit task now)) :: rest) := by
  obtain ⟨i, least, hne, hi, hleast, hloaded⟩ := exists_loaded model hown hlighter now task
  have hset : model.loaded now loads task = loads.set i (least + (task.processing - model.waitCredit task now)) := by
    rw [hloaded, List.modify_eq_set, hi, Option.getD_some]
  obtain ⟨rest, hbefore, hafter⟩ :=
    exists_perm_eraseIdx_set hi hne (least + (task.processing - model.waitCredit task now))
  refine ⟨least, rest, hbefore, fun other hother => ?_, hset ▸ hafter⟩
  exact hleast other (List.mem_of_mem_eraseIdx (hbefore.mem_iff.2 (List.mem_cons_of_mem _ hother)))

/-- What the tasks of a list come to. -/
def total (f : TaskView Rat → Rat) : List (TaskView Rat) → Rat
  | [] => 0
  | task :: rest => f task + total f rest

/-- If at another time each task is shorter by no more than its gain, the turn of a worker comes there too, after the
same tasks or sooner, unless the loads of the others exceed its own by less than the gains. -/
theorem TurnAfter.exists_turnAfter {now now' : Instant} {gain : TaskView Rat → Rat} {slack own : Rat}
    {loads loads' : List Rat} {earlier : List (TaskView Rat)} (h : model.TurnAfter own now loads earlier)
    (hgain : ∀ task, 0 ≤ gain task ∧ model.waitCredit task now' ≤ model.waitCredit task now + gain task)
    (hown : loads[index]? = some own) (hown' : loads'[index]? = some own)
    (hlags : Lags slack (loads'.eraseIdx index) (loads.eraseIdx index))
    (hmargin : ∀ load ∈ (model.play now loads earlier).eraseIdx index, own + (slack + total gain earlier) ≤ load) :
    ∃ before after, earlier = before ++ after ∧ model.TurnAfter own now' loads' before := by
  induction earlier generalizing slack loads loads' with
  | nil =>
    refine ⟨[], [], rfl, fun load hmem => ?_⟩
    by_contra hless
    obtain ⟨i, hi⟩ := List.mem_iff_getElem?.1 hmem
    have hother : load ∈ loads'.eraseIdx index := by
      refine List.mem_eraseIdx_iff_getElem?.2 ⟨i, ?_, hi⟩
      rintro rfl
      exact hless (le_of_eq (Option.some.inj (hown'.symm.trans hi)))
    obtain ⟨other, hmem', hle⟩ := hlags.exists_le hother
    have hmore : own + (slack + 0) ≤ other := hmargin other hmem'
    linarith
  | cons task rest ih =>
    by_cases hturn : ∀ load ∈ loads', own ≤ load
    · exact ⟨[], task :: rest, rfl, hturn⟩
    obtain ⟨hlighter, hlater⟩ := h
    have hlighter' : ∃ load ∈ loads', load < own := by simpa using hturn
    obtain ⟨least, others, hbefore, hleast, hafter⟩ := exists_others_loaded model hown hlighter now task
    obtain ⟨least', others', hbefore', hleast', hafter'⟩ := exists_others_loaded model hown' hlighter' now' task
    have hstep : Lags (slack + gain task) ((model.loaded now' loads' task).eraseIdx index)
        ((model.loaded now loads task).eraseIdx index) := by
      have hfirst := hlags.of_perm hbefore'.symm hbefore.symm
      exact (hfirst.step hleast' hleast (hgain task).1 (by linarith [(hgain task).2])).of_perm hafter' hafter
    obtain ⟨before, after, rfl, hturn'⟩ := ih hlater (getElem?_loaded hown hlighter now task)
      (getElem?_loaded hown' hlighter' now' task) hstep fun load hmem => by
        rw [add_assoc]
        exact hmargin load hmem
    exact ⟨task :: before, after, rfl, hlighter', hturn'⟩

/-! ### Offers now and later -/

theorem waitCredit_mono (hdelay : 0 ≤ model.delayCost) (hlater : now ≤ later) (task : TaskView Rat) :
    model.waitCredit task now ≤ model.waitCredit task later := by
  have hspan : task.arrivedAt.millis now ≤ task.arrivedAt.millis later :=
    Int.tdiv_le_tdiv (by decide) (Int.sub_le_sub_right hlater _)
  exact mul_le_mul_of_nonneg_right (Quantity.ofSpan_mono hspan) hdelay

/-- An idle worker is given a task if it has a best fit, or if one falls to it. -/
theorem exists_select_iff (hworker : workers[index]? = some worker) (hidle : worker.busy = false) :
    (∃ id, model.select workers groups index now = .ok (some id)) ↔
      (∃ id, model.bestFit workers groups index worker now = some id) ∨
        ∃ id, model.timeline workers groups index now = some id := by
  rw [model.select_of_idle hworker hidle]
  cases model.bestFit workers groups index worker now <;> simp

/-- An idle worker is given a task if its turn comes at any task before the last of a type. -/
private theorem exists_select_of_turnAfter (hworker : workers[index]? = some worker) (hidle : worker.busy = false)
    {before after rest : List (TaskView Rat)} {task : TaskView Rat}
    (hget : groups.get? modelType = some (before ++ after ++ task :: rest))
    (hturn : model.TurnAfter (model.startLoad worker modelType) now (model.startLoads workers modelType) before) :
    ∃ id, model.select workers groups index now = .ok (some id) := by
  have hne : after ++ task :: rest ≠ [] := List.append_ne_nil_of_right_ne_nil after (List.cons_ne_nil task rest)
  rw [List.append_assoc] at hget
  exact (exists_select_iff hworker hidle).2 (.inr (exists_timeline_of_turnAfter hworker hget hne hturn))

/-- A worker that has a best fit has one later. -/
theorem exists_bestFit_later (hdelay : 0 ≤ model.delayCost) (hlater : now ≤ later)
    (h : ∃ id, model.bestFit workers groups index worker now = some id) :
    ∃ id, model.bestFit workers groups index worker later = some id := by
  obtain ⟨modelType, oldest, rest, hget, hless, hnearest⟩ := exists_bestFit_iff.1 h
  have hcredit := waitCredit_mono hdelay hlater oldest
  exact exists_bestFit_iff.2 ⟨modelType, oldest, rest, hget, by linarith, hnearest⟩

/-- The credit that tasks gain between two times. -/
def gained (model : CostModel Rat) (now later : Instant) : List (TaskView Rat) → Rat :=
  total fun task => model.waitCredit task later - model.waitCredit task now

/-- The turn of the worker at the index comes only after others have been given some tasks of a type, and what these
gain by waiting is more than would be left of the lead that it then has over one of the others. -/
structure WaitsItsTurn (model : CostModel Rat) (workers : List (WorkerView Rat)) (index : Nat)
    (worker : WorkerView Rat) (now later : Instant) (modelType : String) (earlier : List (TaskView Rat)) : Prop where
  ne_nil : earlier ≠ []
  turn : model.TurnAfter (model.startLoad worker modelType) now (model.startLoads workers modelType) earlier
  close : ∃ i load, i ≠ index ∧ (model.play now (model.startLoads workers modelType) earlier)[i]? = some load ∧
    load < model.startLoad worker modelType + model.gained now later earlier

/-- An idle worker that is given a task would be given one later as well, unless it had no best fit and its turn came
only after tasks that gain enough by waiting. -/
theorem exists_select_later (hdelay : 0 ≤ model.delayCost) (hlater : now ≤ later)
    (hworker : workers[index]? = some worker) (hidle : worker.busy = false) {id : String}
    (h : model.select workers groups index now = .ok (some id)) :
    (∃ id', model.select workers groups index later = .ok (some id')) ∨
    (model.bestFit workers groups index worker now = none ∧
      ∃ modelType earlier task rest, groups.get? modelType = some (earlier ++ task :: rest) ∧ task.id = id ∧
        model.WaitsItsTurn workers index worker now later modelType earlier) := by
  rw [model.select_of_idle hworker hidle] at h
  rcases Option.or_eq_some_iff.1 (Except.ok.inj h) with hfit | ⟨hnone, hfall⟩
  · exact .inl ((exists_select_iff hworker hidle).2 (.inl (exists_bestFit_later hdelay hlater ⟨id, hfit⟩)))
  obtain ⟨modelType, earlier, task, rest, hget, hid, hturn⟩ := timeline_eq_some hworker hfall
  have hown := getElem?_startLoads model hworker modelType
  by_cases hempty : earlier = []
  · subst hempty
    -- with nothing played yet, the time does not matter
    have hfirst : model.TurnAfter (model.startLoad worker modelType) later (model.startLoads workers modelType) [] :=
      hturn
    have hget' : groups.get? modelType = some ([] ++ [] ++ task :: rest) := hget
    exact .inl (exists_select_of_turnAfter hworker hidle hget' hfirst)
  by_cases hmargin : ∀ load ∈ (model.play now (model.startLoads workers modelType) earlier).eraseIdx index,
      model.startLoad worker modelType + (0 + model.gained now later earlier) ≤ load
  · have hgain : ∀ task, 0 ≤ model.waitCredit task later - model.waitCredit task now ∧
        model.waitCredit task later ≤
          model.waitCredit task now + (model.waitCredit task later - model.waitCredit task now) := by
      intro task
      rw [add_sub_cancel]
      exact ⟨sub_nonneg.2 (waitCredit_mono hdelay hlater task), le_refl _⟩
    obtain ⟨before, after, rfl, hturn'⟩ := hturn.exists_turnAfter hgain hown hown (Lags.refl _) hmargin
    exact .inl (exists_select_of_turnAfter hworker hidle hget hturn')
  · simp only [not_forall, not_le, zero_add] at hmargin
    obtain ⟨load, hmem, hless⟩ := hmargin
    obtain ⟨i, hne, hi⟩ := List.mem_eraseIdx_iff_getElem?.1 hmem
    exact .inr ⟨hnone, modelType, earlier, task, rest, hget, hid, ⟨hempty, hturn, i, load, hne, hi, hless⟩⟩

/-- A specialist that is busy for five seconds more, and an idle worker. -/
private def specialistAndIdle : List (WorkerView Rat) := [⟨"v", "A", true, 5⟩, ⟨"w", "", false, 0⟩]

/-- Two tasks for the specialist, each of a hundred seconds. -/
private def twoTasks : List (TaskView Rat) := [⟨"a", "A", 100, 0⟩, ⟨"b", "A", 100, 0⟩]

/-- After the first task the specialist is forty-five seconds behind the idle worker, and half a minute of waiting does
not take that away. -/
theorem exists_select_later_halfMinute :
    CostModel.select (⟨60, 1⟩ : CostModel Rat) specialistAndIdle ((∅ : TaskGroups Rat).insert "A" twoTasks) 1 0 =
      .ok (some "b") ∧
    ∃ id, CostModel.select (⟨60, 1⟩ : CostModel Rat) specialistAndIdle ((∅ : TaskGroups Rat).insert "A" twoTasks) 1
      30000000 = .ok (some id) := by
  have hselect : CostModel.select (⟨60, 1⟩ : CostModel Rat) specialistAndIdle
      ((∅ : TaskGroups Rat).insert "A" twoTasks) 1 0 = .ok (some "b") := by decide +kernel
  have hlater : (0 : Instant) ≤ 30000000 := by decide
  refine ⟨hselect, ?_⟩
  rcases exists_select_later (by decide) hlater rfl rfl hselect with
    hkept | ⟨-, modelType, earlier, task, rest, hget, hid, hwaits⟩
  · exact hkept
  have hmem : (modelType, earlier ++ task :: rest) ∈ [("A", twoTasks)] := Table.mem_entries.2 hget
  obtain ⟨rfl, hsplit⟩ := Prod.mk.inj (List.mem_singleton.1 hmem)
  have hearlier : earlier = [⟨"a", "A", 100, 0⟩] := by
    rcases earlier with _ | ⟨first, _ | ⟨second, others⟩⟩
    · exact absurd rfl hwaits.ne_nil
    · rw [(List.cons.inj hsplit).1]
    · have hlength := congrArg List.length hsplit
      simp [twoTasks] at hlength
  subst hearlier
  have hplay : CostModel.play (⟨60, 1⟩ : CostModel Rat) 0 (CostModel.startLoads ⟨60, 1⟩ specialistAndIdle "A")
      [⟨"a", "A", 100, 0⟩] = [105, 60] := by decide +kernel
  obtain ⟨i, load, hne, hload, hless⟩ := hwaits.close
  rw [hplay] at hload
  rcases i with _ | _ | i
  · have hlead : ¬ (105 : Rat) < CostModel.startLoad ⟨60, 1⟩ ⟨"w", "", false, 0⟩ "A" +
        CostModel.gained ⟨60, 1⟩ 0 30000000 [⟨"a", "A", 100, 0⟩] := by decide +kernel
    obtain rfl := Option.some.inj hload
    exact absurd hless hlead
  · exact absurd rfl hne
  · cases hload

/-- An offer can be lost by waiting: in a hundred seconds the first of two tasks gains so much that the
second, too, is left to the specialist. -/
theorem not_forall_exists_select_later : ¬ ∀ (model : CostModel Rat) (workers : List (WorkerView Rat))
    (groups : TaskGroups Rat) (index : Nat) (worker : WorkerView Rat) (now later : Instant),
    0 ≤ model.reloadPenalty → 0 ≤ model.delayCost →
    (∀ modelType tasks, groups.get? modelType = some tasks →
      tasks.Pairwise (fun a b => TaskRegistry.comesFirst a b = true) ∧ ∀ task ∈ tasks, task.arrivedAt ≤ now) →
    workers[index]? = some worker → worker.busy = false → now ≤ later →
    (∃ id, model.select workers groups index now = .ok (some id)) →
      ∃ id, model.select workers groups index later = .ok (some id) := by
  intro hall
  have hgroups : ∀ modelType tasks, ((∅ : TaskGroups Rat).insert "A" twoTasks).get? modelType = some tasks →
      tasks.Pairwise (fun a b => TaskRegistry.comesFirst a b = true) ∧ ∀ task ∈ tasks, task.arrivedAt ≤ 0 := by
    intro modelType tasks hget
    have hmem : (modelType, tasks) ∈ [("A", twoTasks)] := Table.mem_entries.2 hget
    obtain ⟨-, rfl⟩ := Prod.mk.inj (List.mem_singleton.1 hmem)
    decide
  have hnow : CostModel.select (⟨60, 1⟩ : CostModel Rat) specialistAndIdle
      ((∅ : TaskGroups Rat).insert "A" twoTasks) 1 0 = .ok (some "b") := by decide +kernel
  have hlater : CostModel.select (⟨60, 1⟩ : CostModel Rat) specialistAndIdle
      ((∅ : TaskGroups Rat).insert "A" twoTasks) 1 100000000 = .ok none := by decide +kernel
  obtain ⟨id, hid⟩ := hall ⟨60, 1⟩ specialistAndIdle _ 1 ⟨"w", "", false, 0⟩ 0 100000000 (by decide) (by decide) hgroups
    rfl rfl (by decide) ⟨"b", hnow⟩
  cases hlater.symm.trans hid

end CostModel

end SpeechDispatch
