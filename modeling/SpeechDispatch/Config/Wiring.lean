import SpeechDispatch.Config.Settings
import SpeechDispatch.Detection
import SpeechDispatch.Intake
import SpeechDispatch.Matching.Cost

/-!
# What follows from settings

The cost model, the detector, the first state and the channels that settings ask for.
-/

namespace SpeechDispatch

namespace DispatcherSettings

def costModel (s : DispatcherSettings) : CostModel Float := ⟨s.reloadPenaltySeconds, s.delayCostPerSecond⟩

def detector (s : DispatcherSettings) : DetectorSettings := ⟨s.sweepIntervalSeconds, s.sweepThresholdSeconds⟩

/-- The first state of a dispatcher that gets its results on a queue. -/
def startState (s : DispatcherSettings) (responseQueue : String) : DispatchState Float :=
  .start s.heartbeatStaleSeconds s.maxTaskFailures responseQueue (s.publishTimeoutSeconds * 1000)

end DispatcherSettings

/-- The queues behind the channels. -/
def QueueSettings.channels (s : QueueSettings) : ChannelQueues := ⟨s.heartbeatQueue, s.workQueue, s.responseQueue⟩

end SpeechDispatch
