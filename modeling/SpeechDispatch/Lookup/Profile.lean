import SpeechDispatch.Config.Settings
import SpeechDispatch.Error
import SpeechDispatch.Table
import SpeechDispatch.Task

/-!
# The table of recognition profiles
-/

namespace SpeechDispatch

/-- The models by profile keys. -/
abbrev ProfileTable (α : Type) := Table (ModelProfile α)

namespace ProfileTable

/-- The table of the profiles listed; of those with one key the last counts. -/
def ofSettings (profiles : List ProfileSettings) : ProfileTable Float :=
  Table.ofList (profiles.map fun p => (p.key, ⟨p.modelType, p.realTimeFactor, p.loadSeconds⟩))

def resolve {α : Type} (table : ProfileTable α) (profile : String) : Except DispatchError (ModelProfile α) :=
  match table.get? profile with
  | some model => .ok model
  | none => .error (.unknownProfile profile)

end ProfileTable

end SpeechDispatch
