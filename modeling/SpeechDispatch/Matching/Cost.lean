import SpeechDispatch.Matching.Strategy

/-!
# Matching by cost

A model that is not loaded costs a reload, and every second a task has waited pays some of it off.  A worker first
looks for its best fit: a type whose oldest task no other worker has at less cost (`bestFit`).  Without one, it plays
the queue of each type forward, giving every task to the worker that is free first, and takes the first task that falls
to itself (`timeline`).
-/

namespace SpeechDispatch

structure CostModel (α : Type) where
  /-- The cost of changing the model. -/
  reloadPenalty : α
  /-- What a second of waiting takes off the cost. -/
  delayCost : α

namespace CostModel

/-- Reloading costs as much as a minute of waiting. -/
def standard : CostModel Float := ⟨60, 1⟩

variable {α : Type} [Quantity α] (model : CostModel α)

/-- The name of the strategy. -/
def strategyName : String := "CostBased"

def reload (worker : WorkerView α) (modelType : String) : α :=
  if worker.isSpecializedFor modelType then 0 else model.reloadPenalty

def waitCredit (task : TaskView α) (now : Instant) : α := task.waited now * model.delayCost

/-- The cost at which a worker would take the oldest task of a type. -/
def cost (now : Instant) (worker : WorkerView α) (group : String × List (TaskView α)) : α :=
  match group.2 with
  | [] => Quantity.unavailable
  | oldest :: _ => model.reload worker group.1 - model.waitCredit oldest now

/-- The costs of all workers, for the types in their order. -/
def costMatrix (workers : List (WorkerView α)) (groups : TaskGroups α) (now : Instant) : List (List α) :=
  workers.map fun worker => groups.entries.map (model.cost now worker)

/-- Whether no worker has the type at less cost than the worker at the index; among equals the first counts. -/
def isLeast (workers : List (WorkerView α)) (index : Nat) (now : Instant) (own : α)
    (group : String × List (TaskView α)) : Bool :=
  workers.zipIdx.all fun (worker, i) =>
    let other := model.cost now worker group
    Quantity.lt own other || (Quantity.same other own && index ≤ i)

/-- The oldest task of the cheapest type that the worker at the index has at the least cost of all. -/
def bestFit (workers : List (WorkerView α)) (groups : TaskGroups α) (index : Nat) (worker : WorkerView α)
    (now : Instant) : Option String :=
  let ranking := (groups.entries.map fun group => (model.cost now worker group, group)).mergeSort
    fun a b => Quantity.ranks a.1 b.1
  let won := ranking.find? fun (own, group) =>
    !Quantity.le (Quantity.unavailable : α) own && model.isLeast workers index now own group
  won.bind fun (_, group) => group.2.head?.map (·.id)

/-- The first of the least loads, if one is below infinity. -/
def leastLoad (loads : List α) : Option (Nat × α) :=
  loads.zipIdx.foldl (fun least (load, i) =>
    match least with
    | some (_, lightest) => if Quantity.lt load lightest then some (i, load) else least
    | none => if Quantity.isBounded load then some (i, load) else none) none

/-- Whether no load is less than a load.  Where all are infinite, any number will do. -/
def isLightest (own : α) : Option (Nat × α) → Bool
  | some (_, lightest) => Quantity.le own lightest
  | none => Quantity.same own own

/-- The first of the tasks that falls to the worker at the index, if each goes to the worker with the least load. -/
def firstToFall (index : Nat) (now : Instant) (loads : List α) : List (TaskView α) → Option String
  | [] => none
  | task :: rest =>
    match loads[index]? with
    | none => none
    | some own =>
      let least := leastLoad loads
      if isLightest own least then some task.id
      else
        let next := (least.map (·.1)).getD 0
        firstToFall index now (loads.modify next (· + (task.processing - model.waitCredit task now))) rest

/-- The first task that falls to the worker at the index when the types are played forward one after another. -/
def timeline (workers : List (WorkerView α)) (groups : TaskGroups α) (index : Nat) (now : Instant) : Option String :=
  groups.entries.findSome? fun (modelType, tasks) =>
    model.firstToFall index now (workers.map fun worker => worker.remaining + model.reload worker modelType) tasks

/-- Matching by cost, as a strategy. -/
def select : Strategy α := fun workers groups index now =>
  if workers.isEmpty then .error .noWorkers
  else
    match workers[index]? with
    | none => .error (.workerIndexOutOfRange index workers.length)
    | some worker =>
      if worker.busy then .ok none
      else if groups.values.all (·.isEmpty) then .ok none
      else
        match model.bestFit workers groups index worker now with
        | some id => .ok (some id)
        | none => .ok (model.timeline workers groups index now)

end CostModel

end SpeechDispatch
