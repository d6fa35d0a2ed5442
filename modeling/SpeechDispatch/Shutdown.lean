import SpeechDispatch.Table

/-!
# Shutting down

A shutdown is told to every receiver that subscribed, once.  The sender is gone afterwards: who subscribes later gets a
receiver with the message already in it, and who subscribes again through a receiver gets one that is closed.  The
shutdown itself goes in steps: it is marked, then the sender is taken from its place, sends, and goes.
-/

namespace SpeechDispatch

/-- A receiver of the news. -/
structure ShutdownReceiver where
  /-- Whether the message waits in it. -/
  waiting : Bool
  /-- Whether its sender is still there. -/
  isOpen : Bool
  deriving DecidableEq

/-- What a receiver yields when it is asked without waiting. -/
inductive ShutdownNews
  | signal
  | empty
  | closed
  deriving DecidableEq

namespace ShutdownReceiver

/-- Takes what a receiver has. -/
def take (r : ShutdownReceiver) : ShutdownNews × ShutdownReceiver :=
  if r.waiting then (.signal, { r with waiting := false })
  else if r.isOpen then (.empty, r)
  else (.closed, r)

/-- A receiver of what is sent from now on where this one receives. -/
def resubscribe (r : ShutdownReceiver) : ShutdownReceiver := ⟨false, r.isOpen⟩

/-- The sender sends; a receiver that never had it is not concerned. -/
def deliver (r : ShutdownReceiver) : ShutdownReceiver := if r.isOpen then { r with waiting := true } else r

/-- The sender is gone. -/
def close (r : ShutdownReceiver) : ShutdownReceiver := { r with isOpen := false }

end ShutdownReceiver

/-- Where the sender is. -/
inductive ShutdownSender
  /-- In its place, where it is found by who subscribes. -/
  | kept
  /-- With the one who shuts down. -/
  | taken
  /-- It has sent. -/
  | spent
  | gone
  deriving DecidableEq

/-- The state that all handles of one shutdown share, and the receivers by name. -/
structure Shutdown where
  done : Bool := false
  sender : ShutdownSender := .kept
  receivers : Table ShutdownReceiver := ∅

namespace Shutdown

/-- A new receiver under a name. -/
def subscribe (s : Shutdown) (name : String) : Shutdown :=
  { s with receivers := s.receivers.insert name (if s.sender = .kept then ⟨false, true⟩ else ⟨true, false⟩) }

/-- A receiver under a name, had through another. -/
def resubscribe (s : Shutdown) (source name : String) : Shutdown :=
  match s.receivers.get? source with
  | none => s
  | some r => { s with receivers := s.receivers.insert name r.resubscribe }

def mark (s : Shutdown) : Shutdown := { s with done := true }

def takeSender (s : Shutdown) : Shutdown := { s with sender := .taken }

def send (s : Shutdown) : Shutdown := { s with sender := .spent, receivers := s.receivers.mapValues (·.deliver) }

def dropSender (s : Shutdown) : Shutdown := { s with sender := .gone, receivers := s.receivers.mapValues (·.close) }

/-- Shuts down; a second time nothing happens. -/
def trigger (s : Shutdown) : Shutdown :=
  if s.done then s
  else if s.sender = .kept then s.mark.takeSender.send.dropSender
  else s.mark

/-- Asks the receiver of a name; a name without receiver has nothing. -/
def receive (s : Shutdown) (name : String) : ShutdownNews × Shutdown :=
  match s.receivers.get? name with
  | none => (.empty, s)
  | some r =>
    let (news, r) := r.take
    (news, { s with receivers := s.receivers.insert name r })

end Shutdown

end SpeechDispatch
