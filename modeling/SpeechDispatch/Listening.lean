import SpeechDispatch.Intake

/-!
# Listening

The listener has one loop for each channel.  A loop ends when its stream ends or when the dispatcher is stopped, and
never starts if its stream cannot be had; the listener runs as long as one of its loops does.
-/

namespace SpeechDispatch

/-- Which loops run. -/
structure Listening where
  heartbeat : Bool
  work : Bool
  response : Bool
  deriving DecidableEq

namespace Listening

def on (l : Listening) : Channel → Bool
  | .heartbeat => l.heartbeat
  | .work => l.work
  | .response => l.response

/-- The loops that start when streams can be had for these channels. -/
def start (hasStream : Channel → Bool) : Listening := ⟨hasStream .heartbeat, hasStream .work, hasStream .response⟩

/-- The loop of a channel ends. -/
def close (l : Listening) : Channel → Listening
  | .heartbeat => { l with heartbeat := false }
  | .work => { l with work := false }
  | .response => { l with response := false }

/-- All loops end. -/
def stop (_ : Listening) : Listening := ⟨false, false, false⟩

def isRunning (l : Listening) : Bool := l.heartbeat || l.work || l.response

end Listening

end SpeechDispatch
