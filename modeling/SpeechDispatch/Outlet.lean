import SpeechDispatch.Error
import SpeechDispatch.Message.Envelope

/-!
# Outlets and carriers

Where the dispatcher publishes.  What an outlet does with a message is its own affair: the dispatcher learns whether
it was accepted, refused, or whether no answer ever came.  A carrier also hands out deliveries, and takes back how each
was settled.
-/

namespace SpeechDispatch

/-- How a publication ends. -/
inductive Publication
  | accepted
  | refused (error : DispatchError)
  /-- No answer comes. -/
  | stalled

/-- Something to publish on. -/
class Outlet (σ : Type) where
  publish : σ → String → Outbound → Publication × σ

/-- Publishes with a bound on the waiting: after it, the publication counts as failed. -/
def Outlet.publishWithin {σ : Type} [Outlet σ] (outlet : σ) (timeoutMillis : Nat) (queue : String)
    (message : Outbound) : Except DispatchError Unit × σ :=
  match Outlet.publish outlet queue message with
  | (.accepted, outlet) => (.ok (), outlet)
  | (.refused error, outlet) => (.error error, outlet)
  | (.stalled, outlet) => (.error (.messageQueue (.publishTimeout queue timeoutMillis)), outlet)

/-- Something to publish on and to consume from. -/
class Carrier (σ : Type) extends Outlet σ where
  /-- Settles the delivery with a tag.  A failure leaves the matter at that. -/
  settle : σ → Nat → Settlement → σ

end SpeechDispatch
