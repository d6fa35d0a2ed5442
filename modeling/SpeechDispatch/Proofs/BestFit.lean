import Mathlib.Tactic.Linarith
import Mathlib.Algebra.Order.Ring.Rat
import SpeechDispatch.Proofs.Cost

/-!
# The best fit of a worker

All workers have the oldest task of a type at a cost from which its wait takes the same off.  So who has a type at the
least cost does not depend on the time: it is who has the model nearest at hand (`CostModel.IsNearest`), which is the
first worker with the model, and the first of all if nobody has it (`CostModel.isNearest_iff_wins`).  The wait only
says which of the types that a worker has won comes first (`CostModel.IsBestFit`).

Costs are exact numbers here.
-/

namespace SpeechDispatch

/-! ### Stable sorting -/

/-- What ranks the same stays in the order in which it stood. -/
theorem pairwise_mergeSort_stable {β : Type} {le : β → β → Bool} {R : β → β → Prop}
    (trans : ∀ a b c, le a b = true → le b c = true → le a c = true) (total : ∀ a b, (le a b || le b a) = true)
    {l : List β} (h : l.Pairwise R) :
    (l.mergeSort le).Pairwise fun a b => le a b = true ∧ (le b a = true → R a b) := by
  rw [List.pairwise_iff_forall_sublist]
  intro a b hab
  have hle : le a b = true := List.pairwise_iff_forall_sublist.1 (List.pairwise_mergeSort trans total l) hab
  refine ⟨hle, fun hge => ?_⟩
  -- those that rank as both do are a part of the sorted list, in the order in which they stood
  let same : β → Bool := fun x => le a x && le x a
  have hself : le a a = true := by simpa only [Bool.or_self] using total a a
  have hsorted : (l.filter same).Pairwise fun x y => le x y = true := by
    refine List.pairwise_of_forall_mem_list fun x hx y hy => ?_
    have hxa := (Bool.and_eq_true_iff.1 (List.mem_filter.1 hx).2).2
    have hay := (Bool.and_eq_true_iff.1 (List.mem_filter.1 hy).2).1
    exact trans x a y hxa hay
  have hpart : (l.filter same).Sublist ((l.mergeSort le).filter same) := by
    have hsublist := (List.sublist_mergeSort trans total hsorted List.filter_sublist).filter same
    simpa only [List.filter_filter, Bool.and_self] using hsublist
  have heq : l.filter same = (l.mergeSort le).filter same :=
    hpart.eq_of_length ((List.mergeSort_perm l le).filter same).length_eq.symm
  have hboth : [a, b].Sublist (l.filter same) := by
    rw [heq]
    have hfiltered := hab.filter same
    have ha : same a = true := Bool.and_eq_true_iff.2 ⟨hself, hself⟩
    have hb : same b = true := Bool.and_eq_true_iff.2 ⟨hle, hge⟩
    rwa [List.filter_cons_of_pos ha, List.filter_cons_of_pos hb, List.filter_nil] at hfiltered
  exact List.pairwise_iff_forall_sublist.1 (h.sublist List.filter_sublist) hboth

/-- The first that is found comes before all others that could be. -/
theorem pairwise_find? {β : Type} {S : β → β → Prop} {l : List β} (h : l.Pairwise S) {p : β → Bool} {found other : β}
    (hfound : l.find? p = some found) (hmem : other ∈ l) (hp : p other = true) : other = found ∨ S found other := by
  obtain ⟨-, before, later, rfl, hbefore⟩ := List.find?_eq_some_iff_append.1 hfound
  rcases List.mem_append.1 hmem with hmem | hmem
  · exact absurd hp (by simpa using hbefore other hmem)
  · rcases List.mem_cons.1 hmem with rfl | hmem
    · exact .inl rfl
    · exact .inr ((List.pairwise_cons.1 (List.pairwise_append.1 h).2.1).1 other hmem)

/-! ### Exact spans -/

/-- No span is less than nothing, whichever way it goes. -/
theorem Quantity.ofSpan_nonneg (millis : Int) : (0 : Rat) ≤ Quantity.ofSpan millis := by
  change (0 : Rat) ≤ (millis.toNat : Rat) / 1000
  exact div_nonneg (Nat.cast_nonneg _) (by decide)

namespace CostModel

/-! ### Who has a model nearest at hand -/

/-- The first worker that has the model of a type has won it; if nobody has the model, the first of all has. -/
def Wins {α : Type} (workers : List (WorkerView α)) (index : Nat) (modelType : String) : Prop :=
  (∃ worker, workers[index]? = some worker ∧ worker.isSpecializedFor modelType = true ∧
    ∀ i other, workers[i]? = some other → other.isSpecializedFor modelType = true → index ≤ i) ∨
  (index = 0 ∧ ∀ worker ∈ workers, worker.isSpecializedFor modelType = false)

theorem existsUnique_wins {α : Type} {workers : List (WorkerView α)} (hne : workers ≠ []) (modelType : String) :
    ∃! index, index < workers.length ∧ Wins workers index modelType := by
  by_cases hnone : ∀ worker ∈ workers, worker.isSpecializedFor modelType = false
  · refine ⟨0, ⟨List.length_pos_iff.2 hne, .inr ⟨rfl, hnone⟩⟩, ?_⟩
    rintro i ⟨-, ⟨worker, hworker, hspecialized, -⟩ | ⟨hzero, -⟩⟩
    · exact absurd (hspecialized.symm.trans (hnone worker (List.mem_of_getElem? hworker))) nofun
    · exact hzero
  · have hsome : ∃ i : Nat, ∃ worker : WorkerView α, workers[i]? = some worker ∧
        worker.isSpecializedFor modelType = true := by
      simp only [not_forall, Bool.not_eq_false] at hnone
      obtain ⟨worker, hmem, hspecialized⟩ := hnone
      obtain ⟨i, hi⟩ := List.mem_iff_getElem?.1 hmem
      exact ⟨i, worker, hi, hspecialized⟩
    classical
    obtain ⟨worker, hworker, hspecialized⟩ := Nat.find_spec hsome
    have hfirst : ∀ i other, workers[i]? = some other → other.isSpecializedFor modelType = true →
        Nat.find hsome ≤ i := fun i other hother hothers => Nat.find_min' hsome ⟨other, hother, hothers⟩
    refine ⟨Nat.find hsome, ⟨(List.getElem?_eq_some_iff.1 hworker).1, .inl ⟨worker, hworker, hspecialized, hfirst⟩⟩, ?_⟩
    rintro i ⟨-, ⟨other, hother, hothers, hleast⟩ | ⟨-, hall⟩⟩
    · exact Nat.le_antisymm (hleast _ worker hworker hspecialized) (hfirst i other hother hothers)
    · exact absurd (hspecialized.symm.trans (hall worker (List.mem_of_getElem? hworker))) nofun

variable (model : CostModel Rat)

/-- Nobody has the model of a type at less cost than the worker at the index; among equals the first counts. -/
def IsNearest (workers : List (WorkerView Rat)) (index : Nat) (worker : WorkerView Rat) (modelType : String) : Prop :=
  ∀ i other, workers[i]? = some other → model.reload worker modelType < model.reload other modelType ∨
    (model.reload other modelType = model.reload worker modelType ∧ index ≤ i)

variable {model} {workers : List (WorkerView Rat)} {groups : TaskGroups Rat} {index : Nat} {worker : WorkerView Rat}
  {now : Instant} {modelType : String}

theorem reload_of_specialized (h : worker.isSpecializedFor modelType = true) : model.reload worker modelType = 0 :=
  if_pos h

theorem reload_of_not_specialized (h : worker.isSpecializedFor modelType = false) :
    model.reload worker modelType = model.reloadPenalty := by
  rw [reload, h]
  rfl

theorem reload_nonneg (hpenalty : 0 ≤ model.reloadPenalty) (worker : WorkerView Rat) (modelType : String) :
    0 ≤ model.reload worker modelType := by
  cases h : worker.isSpecializedFor modelType with
  | true => exact le_of_eq (reload_of_specialized h).symm
  | false => rwa [reload_of_not_specialized h]

theorem reload_le (hpenalty : 0 ≤ model.reloadPenalty) (worker : WorkerView Rat) (modelType : String) :
    model.reload worker modelType ≤ model.reloadPenalty := by
  cases h : worker.isSpecializedFor modelType with
  | true => rwa [reload_of_specialized h]
  | false => exact le_of_eq (reload_of_not_specialized h)

/-- If a reload costs anything, the worker nearest to a model is the one that has won it. -/
theorem isNearest_iff_wins (hpenalty : 0 < model.reloadPenalty) (hworker : workers[index]? = some worker) :
    model.IsNearest workers index worker modelType ↔ Wins workers index modelType := by
  constructor
  · intro hnearest
    cases hown : worker.isSpecializedFor modelType with
    | true =>
      refine .inl ⟨worker, hworker, hown, fun i other hother hspecialized => ?_⟩
      rcases hnearest i other hother with hless | ⟨-, hle⟩
      · rw [reload_of_specialized hown, reload_of_specialized hspecialized] at hless
        exact absurd hless (lt_irrefl _)
      · exact hle
    | false =>
      have hnone : ∀ other ∈ workers, other.isSpecializedFor modelType = false := by
        intro other hmem
        obtain ⟨i, hi⟩ := List.mem_iff_getElem?.1 hmem
        by_contra hspecialized
        have hzero : model.reload other modelType = 0 :=
          reload_of_specialized (Bool.eq_true_of_not_eq_false hspecialized)
        have hmore : model.reload worker modelType = model.reloadPenalty := reload_of_not_specialized hown
        rcases hnearest i other hi with hless | ⟨hsame, -⟩ <;> linarith
      refine .inr ⟨?_, hnone⟩
      obtain ⟨first, hfirst⟩ : ∃ first, workers[0]? = some first := by
        have hlt := (List.getElem?_eq_some_iff.1 hworker).1
        exact ⟨workers[0], List.getElem?_eq_getElem (Nat.lt_of_le_of_lt (Nat.zero_le _) hlt)⟩
      rcases hnearest 0 first hfirst with hless | ⟨-, hle⟩
      · rw [reload_of_not_specialized hown,
          reload_of_not_specialized (hnone first (List.mem_of_getElem? hfirst))] at hless
        exact absurd hless (lt_irrefl _)
      · exact Nat.le_zero.1 hle
  · rintro (⟨own, hown, hspecialized, hfirst⟩ | ⟨rfl, hnone⟩) i other hother
    · obtain rfl := Option.some.inj (hworker.symm.trans hown)
      cases hothers : other.isSpecializedFor modelType with
      | true =>
        exact .inr ⟨by rw [reload_of_specialized hothers, reload_of_specialized hspecialized],
          hfirst i other hother hothers⟩
      | false =>
        rw [reload_of_specialized hspecialized, reload_of_not_specialized hothers]
        exact .inl hpenalty
    · have hown := hnone worker (List.mem_of_getElem? hworker)
      have hothers := hnone other (List.mem_of_getElem? hother)
      exact .inr ⟨by rw [reload_of_not_specialized hown, reload_of_not_specialized hothers], Nat.zero_le i⟩

/-! ### The types that a worker takes at the least cost -/

theorem waitCredit_nonneg (hdelay : 0 ≤ model.delayCost) (task : TaskView Rat) (now : Instant) :
    0 ≤ model.waitCredit task now :=
  mul_nonneg (Quantity.ofSpan_nonneg _) hdelay

/-- The wait of a task counts for all workers alike. -/
theorem isLeast_iff_isNearest {oldest : TaskView Rat} {rest : List (TaskView Rat)} :
    model.isLeast workers index now (model.cost now worker (modelType, oldest :: rest))
        (modelType, oldest :: rest) = true ↔
      model.IsNearest workers index worker modelType := by
  have hcost : ∀ other : WorkerView Rat, model.cost now other (modelType, oldest :: rest) =
      model.reload other modelType - model.waitCredit oldest now := fun _ => rfl
  have hlt : ∀ a b : Rat, Quantity.lt a b = decide (a < b) := fun _ _ => rfl
  have hsame : ∀ a b : Rat, Quantity.same a b = (a == b) := fun _ _ => rfl
  simp only [isLeast, List.all_eq_true, Prod.forall, List.mem_zipIdx_iff_getElem?, hcost, hlt, hsame, Bool.or_eq_true,
    Bool.and_eq_true, decide_eq_true_iff, beq_iff_eq, sub_lt_sub_iff_right, sub_left_inj]
  exact ⟨fun h i other hother => h other i hother, fun h other i hother => h i other hother⟩

/-- Whether a type counts at the cost at which it is ranked: below the mark, and no worker has it at less. -/
def isFit (model : CostModel Rat) (workers : List (WorkerView Rat)) (index : Nat) (now : Instant)
    (entry : Rat × String × List (TaskView Rat)) : Bool :=
  !Quantity.le Quantity.unavailable entry.1 && model.isLeast workers index now entry.1 entry.2

private theorem isFit_iff {tasks : List (TaskView Rat)} :
    model.isFit workers index now (model.cost now worker (modelType, tasks), modelType, tasks) = true ↔
      ∃ oldest rest, tasks = oldest :: rest ∧
        model.reload worker modelType - model.waitCredit oldest now < Quantity.unavailable ∧
        model.IsNearest workers index worker modelType := by
  have hle : ∀ a b : Rat, Quantity.le a b = decide (a ≤ b) := fun _ _ => rfl
  rw [isFit, Bool.and_eq_true, Bool.not_eq_true', hle, decide_eq_false_iff_not, not_le]
  dsimp only
  cases tasks with
  | nil =>
    have hunavailable : model.cost now worker (modelType, []) = Quantity.unavailable := rfl
    rw [hunavailable]
    constructor
    · rintro ⟨hless, -⟩
      exact absurd hless (lt_irrefl _)
    · rintro ⟨_, _, hempty, -⟩
      cases hempty
  | cons oldest rest =>
    rw [isLeast_iff_isNearest]
    constructor
    · rintro ⟨hless, hnearest⟩
      exact ⟨oldest, rest, rfl, hless, hnearest⟩
    · rintro ⟨_, _, heq, hless, hnearest⟩
      obtain ⟨rfl, rfl⟩ := List.cons.inj heq
      exact ⟨hless, hnearest⟩

/-- With a reload below the mark, no wait brings a type with tasks above it. -/
theorem reload_sub_waitCredit_lt (hpenalty : 0 ≤ model.reloadPenalty)
    (hmark : model.reloadPenalty < Quantity.unavailable) (hdelay : 0 ≤ model.delayCost) (worker : WorkerView Rat)
    (modelType : String) (task : TaskView Rat) (now : Instant) :
    model.reload worker modelType - model.waitCredit task now < Quantity.unavailable := by
  have hreload := reload_le hpenalty worker modelType
  have hcredit := waitCredit_nonneg hdelay task now
  linarith

/-- The task is the oldest of a type that satisfies the condition, and of these types the worker has this one at the
least cost; among equals the first by name counts. -/
structure IsBestFit (model : CostModel Rat) (groups : TaskGroups Rat) (worker : WorkerView Rat) (now : Instant)
    (Won : String → Prop) (modelType : String) (oldest : TaskView Rat) : Prop where
  head : ∃ rest, groups.get? modelType = some (oldest :: rest)
  won : Won modelType
  least : ∀ other first rest, groups.get? other = some (first :: rest) → Won other →
    model.reload worker modelType - model.waitCredit oldest now <
        model.reload worker other - model.waitCredit first now ∨
      (model.reload worker modelType - model.waitCredit oldest now =
        model.reload worker other - model.waitCredit first now ∧ modelType ≤ other)

theorem IsBestFit.unique {Won : String → Prop} {modelType' : String} {oldest oldest' : TaskView Rat}
    (h : model.IsBestFit groups worker now Won modelType oldest)
    (h' : model.IsBestFit groups worker now Won modelType' oldest') : oldest = oldest' := by
  obtain ⟨rest, hget⟩ := h.head
  obtain ⟨rest', hget'⟩ := h'.head
  have htype : modelType = modelType' := by
    rcases h.least _ _ _ hget' h'.won with hless | ⟨hsame, hle⟩ <;>
      rcases h'.least _ _ _ hget h.won with hless' | ⟨hsame', hle'⟩
    · exact absurd hless' (lt_asymm hless)
    · exact absurd hless (hsame' ▸ lt_irrefl _)
    · exact absurd hless' (hsame ▸ lt_irrefl _)
    · exact String.le_antisymm hle hle'
  subst htype
  exact (List.cons.inj (Option.some.inj (hget.symm.trans hget'))).1

/-- The types with their costs for a worker, the least first. -/
def ranking (model : CostModel Rat) (groups : TaskGroups Rat) (worker : WorkerView Rat) (now : Instant) :
    List (Rat × String × List (TaskView Rat)) :=
  (groups.entries.map fun group => (model.cost now worker group, group)).mergeSort fun a b => Quantity.ranks a.1 b.1

theorem bestFit_eq : model.bestFit workers groups index worker now =
    ((model.ranking groups worker now).find? (model.isFit workers index now)).bind fun entry =>
      entry.2.2.head?.map (·.id) := rfl

/-- Types of one cost are ranked in the order of their names. -/
private theorem pairwise_ranking (model : CostModel Rat) (groups : TaskGroups Rat) (worker : WorkerView Rat)
    (now : Instant) :
    (model.ranking groups worker now).Pairwise fun a b => a.1 ≤ b.1 ∧ (b.1 ≤ a.1 → a.2.1 < b.2.1) := by
  have hranks : ∀ a b : Rat, Quantity.ranks a b = true ↔ a ≤ b := fun _ _ => decide_eq_true_iff
  have hsorted : (groups.entries.map fun group => (model.cost now worker group, group)).Pairwise
      fun a b => a.2.1 < b.2.1 := List.pairwise_map.2 groups.sorted
  refine (pairwise_mergeSort_stable (fun a b c hab hbc => ?_) (fun a b => ?_) hsorted).imp ?_
  · exact (hranks _ _).2 (le_trans ((hranks _ _).1 hab) ((hranks _ _).1 hbc))
  · rw [Bool.or_eq_true, hranks, hranks]
    exact le_total _ _
  · rintro a b ⟨hle, hnames⟩
    exact ⟨(hranks _ _).1 hle, fun hge => hnames ((hranks _ _).2 hge)⟩

private theorem mem_ranking {own : Rat} {tasks : List (TaskView Rat)} :
    (own, modelType, tasks) ∈ model.ranking groups worker now ↔
      groups.get? modelType = some tasks ∧ own = model.cost now worker (modelType, tasks) := by
  rw [ranking, List.mem_mergeSort, List.mem_map]
  constructor
  · rintro ⟨group, hmem, heq⟩
    obtain ⟨rfl, rfl⟩ := Prod.mk.inj heq
    exact ⟨Table.mem_entries.1 hmem, rfl⟩
  · rintro ⟨hget, rfl⟩
    exact ⟨(modelType, tasks), Table.mem_entries.2 hget, rfl⟩

/-- A worker has a best fit if and only if it is nearest to some type with tasks, at a cost below the mark. -/
theorem exists_bestFit_iff : (∃ id, model.bestFit workers groups index worker now = some id) ↔
    ∃ modelType oldest rest, groups.get? modelType = some (oldest :: rest) ∧
      model.reload worker modelType - model.waitCredit oldest now < Quantity.unavailable ∧
      model.IsNearest workers index worker modelType := by
  rw [bestFit_eq]
  constructor
  · rintro ⟨id, hfit⟩
    obtain ⟨⟨own, modelType, tasks⟩, hfind, -⟩ := Option.bind_eq_some_iff.1 hfit
    obtain ⟨hget, rfl⟩ := mem_ranking.1 (List.mem_of_find?_eq_some hfind)
    obtain ⟨oldest, rest, rfl, hless, hnearest⟩ := isFit_iff.1 (List.find?_some hfind)
    exact ⟨modelType, oldest, rest, hget, hless, hnearest⟩
  · rintro ⟨modelType, oldest, rest, hget, hless, hnearest⟩
    have hfit := isFit_iff.2 ⟨oldest, rest, rfl, hless, hnearest⟩
    obtain ⟨⟨own, name, tasks⟩, hfind⟩ :=
      Option.isSome_iff_exists.1 (List.find?_isSome.2 ⟨_, mem_ranking.2 ⟨hget, rfl⟩, hfit⟩)
    obtain ⟨-, rfl⟩ := mem_ranking.1 (List.mem_of_find?_eq_some hfind)
    obtain ⟨first, later, rfl, -, -⟩ := isFit_iff.1 (List.find?_some hfind)
    exact ⟨first.id, Option.bind_eq_some_iff.2 ⟨_, hfind, rfl⟩⟩

/-- With a reload below the mark, a worker has a best fit if and only if it is nearest to some type with tasks. -/
theorem bestFit_cases (hpenalty : 0 ≤ model.reloadPenalty) (hmark : model.reloadPenalty < Quantity.unavailable)
    (hdelay : 0 ≤ model.delayCost) (workers : List (WorkerView Rat)) (groups : TaskGroups Rat) (index : Nat)
    (worker : WorkerView Rat) (now : Instant) :
    (model.bestFit workers groups index worker now = none ∧
      ∀ modelType oldest rest, groups.get? modelType = some (oldest :: rest) →
        ¬ model.IsNearest workers index worker modelType) ∨
    ∃ modelType oldest, model.IsBestFit groups worker now (model.IsNearest workers index worker) modelType oldest ∧
      model.bestFit workers groups index worker now = some oldest.id := by
  have hbelow : ∀ modelType task, model.reload worker modelType - model.waitCredit task now < Quantity.unavailable :=
    fun modelType task => reload_sub_waitCredit_lt hpenalty hmark hdelay worker modelType task now
  rw [bestFit_eq]
  cases hfind : (model.ranking groups worker now).find? (model.isFit workers index now) with
  | none =>
    refine .inl ⟨rfl, fun modelType oldest rest hget hnearest => ?_⟩
    exact List.find?_eq_none.1 hfind _ (mem_ranking.2 ⟨hget, rfl⟩)
      (isFit_iff.2 ⟨oldest, rest, rfl, hbelow modelType oldest, hnearest⟩)
  | some found =>
    obtain ⟨own, modelType, tasks⟩ := found
    obtain ⟨hget, rfl⟩ := mem_ranking.1 (List.mem_of_find?_eq_some hfind)
    obtain ⟨oldest, rest, rfl, -, hnearest⟩ := isFit_iff.1 (List.find?_some hfind)
    refine .inr ⟨modelType, oldest, ⟨⟨rest, hget⟩, hnearest, fun other first later hother hothers => ?_⟩, rfl⟩
    rcases pairwise_find? (pairwise_ranking model groups worker now) hfind (mem_ranking.2 ⟨hother, rfl⟩)
      (isFit_iff.2 ⟨first, later, rfl, hbelow other first, hothers⟩) with heq | ⟨hle, hnames⟩
    · obtain rfl : other = modelType := congrArg (·.2.1) heq
      obtain ⟨rfl, rfl⟩ := List.cons.inj (Option.some.inj (hother.symm.trans hget))
      exact .inr ⟨rfl, String.le_refl _⟩
    · rcases lt_or_eq_of_le hle with hless | hsame
      · exact .inl hless
      · exact .inr ⟨hsame, String.not_lt.1 (String.lt_asymm (hnames (le_of_eq hsame.symm)))⟩

/-! ### What an idle worker is given -/

/-- An idle worker that is nearest to a type with tasks is given a task. -/
theorem exists_select_of_isNearest (hpenalty : 0 ≤ model.reloadPenalty)
    (hmark : model.reloadPenalty < Quantity.unavailable) (hdelay : 0 ≤ model.delayCost)
    (hworker : workers[index]? = some worker) (hidle : worker.busy = false) {oldest : TaskView Rat}
    {rest : List (TaskView Rat)} (hget : groups.get? modelType = some (oldest :: rest))
    (hnearest : model.IsNearest workers index worker modelType) (now : Instant) :
    ∃ id, model.select workers groups index now = .ok (some id) := by
  rw [model.select_of_idle hworker hidle]
  rcases bestFit_cases hpenalty hmark hdelay workers groups index worker now with
    ⟨-, hnone⟩ | ⟨_, first, -, hfit⟩
  · exact absurd hnearest (hnone _ _ _ hget)
  · exact ⟨first.id, by rw [hfit, Option.some_or]⟩

/-- If a reload costs anything, an idle worker that has won types with tasks is given the oldest task of the one among
them that it takes at the least cost, and one that has won none is given what falls to it when the types are played
forward.  At any time every type is won by just one worker. -/
theorem select_of_wins (hpenalty : 0 < model.reloadPenalty) (hmark : model.reloadPenalty < Quantity.unavailable)
    (hdelay : 0 ≤ model.delayCost) (hworker : workers[index]? = some worker) (hidle : worker.busy = false)
    (groups : TaskGroups Rat) (now : Instant) :
    ((∃ modelType oldest rest, groups.get? modelType = some (oldest :: rest) ∧ Wins workers index modelType) →
      ∃ modelType oldest, model.IsBestFit groups worker now (Wins workers index) modelType oldest) ∧
    (∀ modelType oldest, model.IsBestFit groups worker now (Wins workers index) modelType oldest →
      model.select workers groups index now = .ok (some oldest.id)) ∧
    ((∀ modelType oldest rest, groups.get? modelType = some (oldest :: rest) → ¬ Wins workers index modelType) →
      model.select workers groups index now = .ok (model.timeline workers groups index now)) ∧
    ∀ modelType, ∃! i, i < workers.length ∧ Wins workers i modelType := by
  have hwon : model.IsNearest workers index worker = Wins workers index :=
    funext fun _ => propext (isNearest_iff_wins hpenalty hworker)
  have hcases := bestFit_cases (le_of_lt hpenalty) hmark hdelay workers groups index worker now
  rw [hwon] at hcases
  rw [model.select_of_idle hworker hidle]
  refine ⟨?_, fun modelType oldest hbest => ?_, fun hnone => ?_, fun modelType => existsUnique_wins ?_ modelType⟩
  · rintro ⟨modelType, oldest, rest, hget, hwins⟩
    rcases hcases with ⟨-, hnone⟩ | ⟨modelType', oldest', hbest, -⟩
    · exact absurd hwins (hnone _ _ _ hget)
    · exact ⟨modelType', oldest', hbest⟩
  · rcases hcases with ⟨-, hnone⟩ | ⟨modelType', oldest', hbest', hfit⟩
    · obtain ⟨rest, hget⟩ := hbest.head
      exact absurd hbest.won (hnone _ _ _ hget)
    · rw [hfit, hbest.unique hbest', Option.some_or]
  · rcases hcases with ⟨hfit, -⟩ | ⟨modelType', oldest', hbest', -⟩
    · rw [hfit, Option.none_or]
    · obtain ⟨rest, hget⟩ := hbest'.head
      exact absurd hbest'.won (hnone _ _ _ hget)
  · rintro rfl
    cases hworker

/-- The first worker has the model of one type, and nobody that of the other, for whose task the wait has paid. -/
theorem select_of_wins_longWait :
    let model : CostModel Rat := ⟨60, 1⟩
    let workers : List (WorkerView Rat) := [⟨"a", "A", false, 0⟩, ⟨"b", "", false, 0⟩]
    let groups : TaskGroups Rat := ((∅ : TaskGroups Rat).insert "A" [⟨"t", "A", 5, 95000000⟩]).insert "B"
      [⟨"u", "B", 5, 0⟩]
    model.select workers groups 0 100000000 = .ok (some "u") := by
  intro model workers groups
  have hmark : model.reloadPenalty < Quantity.unavailable := by decide +kernel
  have hgroups : groups.entries = [("A", [⟨"t", "A", 5, 95000000⟩]), ("B", [⟨"u", "B", 5, 0⟩])] := rfl
  have hwins : Wins workers 0 "B" := .inr ⟨rfl, by decide⟩
  have hbest : model.IsBestFit groups ⟨"a", "A", false, 0⟩ 100000000 (Wins workers 0) "B" ⟨"u", "B", 5, 0⟩ := by
    refine ⟨⟨[], rfl⟩, hwins, fun other first rest hother _ => ?_⟩
    have hmem := Table.mem_entries.2 hother
    rw [hgroups] at hmem
    rcases List.mem_cons.1 hmem with hentry | hmem
    · obtain ⟨rfl, htasks⟩ := Prod.mk.inj hentry
      obtain ⟨rfl, -⟩ := List.cons.inj htasks
      exact .inl (by decide +kernel)
    · obtain ⟨rfl, htasks⟩ := Prod.mk.inj (List.mem_singleton.1 hmem)
      obtain ⟨rfl, -⟩ := List.cons.inj htasks
      exact .inr ⟨rfl, String.le_refl _⟩
  exact (select_of_wins (by decide) hmark (by decide) rfl rfl groups 100000000).2.1 "B" _ hbest

end CostModel

end SpeechDispatch
