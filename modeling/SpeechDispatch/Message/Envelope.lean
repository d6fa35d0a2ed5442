import SpeechDispatch.Text.Bytes

/-!
# Envelopes

What goes into a queue and what comes out of one, whatever carries it.
-/

namespace SpeechDispatch

/-- A message to be published. -/
structure Outbound where
  body : Bytes
  correlationId : Option String := none
  replyTo : Option String := none
  deriving DecidableEq

/-- A message handed to a consumer, which has to settle it under its tag. -/
structure Delivery where
  tag : Nat
  body : Bytes
  replyTo : Option String := none
  correlationId : Option String := none
  /-- Whether it was handed out before. -/
  redelivered : Bool := false
  deriving DecidableEq

/-- How a delivery is settled. -/
inductive Settlement
  | ack
  | nack (requeue : Bool)
  deriving DecidableEq

end SpeechDispatch
