import Mathlib.Data.List.Induction
import SpeechDispatch.Proofs.Depot
import SpeechDispatch.Proofs.Table

/-!
# Settlements that fail

Settling a delivery fails for two reasons (`MemoryQueue.settle_fails_iff`).  Under a tag that is not unacked nothing is
done.  But a rejection for another delivery takes the message out of what is unacked before it is put back, and a queue
whose consumer is gone does not take it: the message is then in no queue and not unacked either
(`MemoryQueue.settle_of_strands`).

So a settlement that fails leaves the messages as they were if and only if it was not such a rejection
(`MemoryQueue.failed_settlement`), and one such rejection loses one message.
-/

namespace SpeechDispatch

/-- What is done with queues, and consumers that go. -/
inductive QueueEvent
  | op (op : QueueOp)
  | leave (queue : String)

namespace MemoryQueue

/-- Settles a delivery, and tells whether that went well. -/
def settle (q : MemoryQueue) (tag : Nat) : Settlement → Except DispatchError Unit × MemoryQueue
  | .ack => q.ack tag
  | .nack requeue => q.nack tag requeue

/-- An unacked message is to be put back into a queue that takes no more messages. -/
def Strands (q : MemoryQueue) (tag : Nat) (settlement : Settlement) : Prop :=
  settlement = .nack true ∧ ∃ entry, q.findUnacked tag = some entry ∧ (q.queueState entry.queue).receiver = .gone

/-- All messages are where they were: unacked, or in their queues. -/
def SameMessages (q left : MemoryQueue) : Prop := left.unacked = q.unacked ∧ left.queues = q.queues

/-! ### How settling fails -/

/-- A queue that is not there has not lost its consumer. -/
theorem get?_of_receiver_gone {q : MemoryQueue} {queue : String} (h : (q.queueState queue).receiver = .gone) :
    q.queues.get? queue = some (q.queueState queue) := by
  unfold queueState at h ⊢
  cases hstate : q.queues.get? queue with
  | none =>
    rw [hstate] at h
    cases h
  | some state => rfl

theorem settle_of_unknown {q : MemoryQueue} {tag : Nat} (h : q.findUnacked tag = none) (settlement : Settlement) :
    q.settle tag settlement = (.error (.messageQueue (.unknownTag tag)), q) := by
  obtain ⟨hack, hnack⟩ := refuses_of_findUnacked h
  cases settlement with
  | ack => exact hack
  | nack requeue => exact hnack requeue

/-- A queue whose consumer is gone stays as it is. -/
theorem push_eq_of_gone {q : MemoryQueue} {queue : String} (h : (q.queueState queue).receiver = .gone)
    (delivery : Delivery) : q.push queue delivery = (.error (.messageQueue .receiverGone), q) := by
  have hqueues : q.queues.insert queue (q.queueState queue) = q.queues := Table.insert_of_get? (get?_of_receiver_gone h)
  rw [push_of_gone h, hqueues]

/-- A message that cannot be put back is forgotten, and a tag is used up. -/
theorem settle_of_strands {q : MemoryQueue} {tag : Nat} {settlement : Settlement} (h : q.Strands tag settlement) :
    q.settle tag settlement =
      (.error (.messageQueue .receiverGone), { q.forget tag with lastTag := q.lastTag + 1 }) := by
  obtain ⟨rfl, entry, hfound, hgone⟩ := h
  show q.nack tag true = _
  unfold nack
  rw [hfound]
  dsimp only
  rw [if_pos rfl]
  exact push_eq_of_gone (q := { q.forget tag with lastTag := q.lastTag + 1 }) hgone _

/-- Settling fails under a tag that is not unacked, and for a message that cannot be put back. -/
theorem settle_fails_iff (q : MemoryQueue) (tag : Nat) (settlement : Settlement) :
    (∃ e, (q.settle tag settlement).1 = .error e) ↔ q.findUnacked tag = none ∨ q.Strands tag settlement := by
  constructor
  · rintro ⟨e, hfails⟩
    cases settlement with
    | ack =>
      rcases q.ack_cases tag with ⟨hnone, -⟩ | ⟨entry, -, hack⟩
      · exact .inl hnone
      · rw [settle, hack] at hfails
        cases hfails
    | nack requeue =>
      rcases q.nack_cases tag requeue with
        ⟨hnone, -⟩ | ⟨entry, hfound, ⟨-, hnack⟩ | ⟨left, rfl, -, -, ⟨hgone, -, -⟩ | ⟨-, -, hnack⟩⟩⟩
      · exact .inl hnone
      · rw [settle, hnack] at hfails
        cases hfails
      · exact .inr ⟨rfl, entry, hfound, hgone⟩
      · rw [settle, hnack] at hfails
        cases hfails
  · rintro (hnone | hstrands)
    · rw [settle_of_unknown hnone]
      exact ⟨_, rfl⟩
    · rw [settle_of_strands hstrands]
      exact ⟨_, rfl⟩

/-- What cannot be put back is unacked before and not afterwards. -/
theorem not_sameMessages_of_strands {q : MemoryQueue} {tag : Nat} {settlement : Settlement}
    (h : q.Strands tag settlement) : ¬ q.SameMessages (q.settle tag settlement).2 := by
  rintro ⟨hunacked, -⟩
  rw [settle_of_strands h] at hunacked
  obtain ⟨-, entry, hfound, -⟩ := h
  obtain ⟨hmem, htag⟩ := mem_of_findUnacked hfound
  have hstill : entry ∈ (q.forget tag).unacked := hunacked ▸ hmem
  exact (mem_forget.1 hstill).2 htag

/-! ### Runs with consumers that go -/

def afterEvent (q : MemoryQueue) : QueueEvent → MemoryQueue
  | .op op => q.after op
  | .leave queue => q.abandon queue

/-- The queues after a list of events that starts without any. -/
def ofEvents (events : List QueueEvent) : MemoryQueue := events.foldl afterEvent {}

/-- Books can be kept of whatever is done with queues. -/
theorem exists_sound (events : List QueueEvent) : ∃ d : Depot, d.Sound ∧ d.queue = ofEvents events := by
  induction events using List.reverseRecOn with
  | nil => exact ⟨{}, Depot.sound_empty, rfl⟩
  | append_singleton events event ih =>
    obtain ⟨d, hsound, hqueue⟩ := ih
    rw [ofEvents, List.foldl_concat, ← ofEvents, ← hqueue]
    cases event with
    | op op => exact ⟨d.after op, hsound.after op, d.queue_after op⟩
    | leave queue => exact ⟨d.abandon queue, hsound.abandon queue, rfl⟩

theorem unacked_perm_of_findUnacked (events : List QueueEvent) {tag : Nat} {entry : Unacked}
    (h : (ofEvents events).findUnacked tag = some entry) :
    (ofEvents events).unacked.Perm (((ofEvents events).forget tag).unacked ++ [entry]) := by
  obtain ⟨d, hsound, hqueue⟩ := exists_sound events
  rw [← hqueue] at h ⊢
  obtain ⟨p, hp, hplace, rfl, rfl⟩ := hsound.exists_of_findUnacked h
  exact hsound.forget_perm hp hplace

/-! ### What a failure leaves -/

/-- A settlement fails under a tag that is not unacked, and if an unacked message is to be put back into a queue whose
consumer is gone.  Either way the queues stay as they were.  So do the unacked messages in the first case; in the second
the message is not unacked any more, and after any run of the queues it is the only one. -/
theorem failed_settlement (q : MemoryQueue) (tag : Nat) (settlement : Settlement) :
    ((∃ e, (q.settle tag settlement).1 = .error e) ↔ q.findUnacked tag = none ∨ q.Strands tag settlement) ∧
    ((∃ e, (q.settle tag settlement).1 = .error e) →
      (q.settle tag settlement).2.queues = q.queues ∧
      (q.SameMessages (q.settle tag settlement).2 ↔ ¬ q.Strands tag settlement)) ∧
    (∀ events, q = ofEvents events → q.Strands tag settlement →
      ∃ entry, entry.delivery.tag = tag ∧ q.unacked.Perm ((q.settle tag settlement).2.unacked ++ [entry])) := by
  refine ⟨q.settle_fails_iff tag settlement, fun hfails => ?_, ?_⟩
  · by_cases hstrands : q.Strands tag settlement
    · refine ⟨?_, fun hsame => absurd hsame (not_sameMessages_of_strands hstrands), fun hnot => absurd hstrands hnot⟩
      rw [settle_of_strands hstrands]
      rfl
    · have hnone : q.findUnacked tag = none :=
        ((q.settle_fails_iff tag settlement).1 hfails).resolve_right hstrands
      rw [settle_of_unknown hnone]
      exact ⟨rfl, fun _ => hstrands, fun _ => ⟨rfl, rfl⟩⟩
  · rintro events rfl hstrands
    rw [settle_of_strands hstrands]
    obtain ⟨-, entry, hfound, -⟩ := hstrands
    exact ⟨entry, (mem_of_findUnacked hfound).2, unacked_perm_of_findUnacked events hfound⟩

/-- A consumer that goes with a message in its hand. -/
def leftUnacked : List QueueEvent :=
  [.op (.consume "q"), .op (.publish "q" ⟨[120], none, none⟩), .op (.next "q"), .leave "q"]

theorem not_forall_sameMessages :
    ¬ ∀ (events : List QueueEvent) (tag : Nat) (settlement : Settlement),
      (∃ e, ((ofEvents events).settle tag settlement).1 = .error e) →
        (ofEvents events).SameMessages ((ofEvents events).settle tag settlement).2 := by
  intro hall
  have hstrands : (ofEvents leftUnacked).Strands 1 (.nack true) := ⟨rfl, ⟨"q", ⟨1, [120], none, none, false⟩⟩, rfl, rfl⟩
  have hfails := ((ofEvents leftUnacked).settle_fails_iff 1 (.nack true)).2 (.inr hstrands)
  exact not_sameMessages_of_strands hstrands (hall leftUnacked 1 (.nack true) hfails)

end MemoryQueue

end SpeechDispatch
