import Mathlib.Logic.Function.Basic
import SpeechDispatch.Queue.Memory

/-!
# What queues in memory have in them

Each operation on queues in memory as a change of the states of the queues, of what is unacked and of the last tag, with
the answer that it gives.  Only a queue whose consumer is gone refuses a message (`MemoryQueue.publish_cases`), and only
a tag that is not unacked is refused for settling (`MemoryQueue.ack_cases`, `MemoryQueue.nack_cases`).
-/

namespace SpeechDispatch

namespace QueueState

def put (state : QueueState) (delivery : Delivery) : QueueState :=
  { state with waiting := state.waiting ++ [delivery], count := state.count + 1 }

/-- A queue of which the first message was handed out. -/
def behind (state : QueueState) : QueueState :=
  { state with waiting := state.waiting.tail, count := state.count - 1 }

end QueueState

namespace MemoryQueue

theorem queueState_insert (q : MemoryQueue) (queue : String) (state : QueueState) :
    ({ q with queues := q.queues.insert queue state } : MemoryQueue).queueState =
      Function.update q.queueState queue state := by
  funext name
  rw [Function.update_apply]
  unfold queueState
  rw [Table.get?_insert]
  split <;> rfl

theorem queueState_insert_self (q : MemoryQueue) (queue : String) :
    ({ q with queues := q.queues.insert queue (q.queueState queue) } : MemoryQueue).queueState = q.queueState := by
  rw [queueState_insert, Function.update_eq_self]

/-! ### Putting messages in -/

theorem push_of_gone {q : MemoryQueue} {queue : String} (h : (q.queueState queue).receiver = .gone)
    (delivery : Delivery) :
    q.push queue delivery = (.error (.messageQueue .receiverGone),
      { q with queues := q.queues.insert queue (q.queueState queue) }) := by
  simp only [push, h]

theorem push_of_ne_gone {q : MemoryQueue} {queue : String} (h : (q.queueState queue).receiver ≠ .gone)
    (delivery : Delivery) :
    q.push queue delivery =
      (.ok (), { q with queues := q.queues.insert queue ((q.queueState queue).put delivery) }) := by
  unfold push
  dsimp only
  split
  · exact absurd ‹_› h
  · rfl

/-- What is put in under a new tag is refused by a queue whose consumer is gone, and then only the tag is used up. -/
private theorem push_cases (q : MemoryQueue) (tag : Nat) (queue : String) (delivery : Delivery) :
    ∃ q', q'.unacked = q.unacked ∧ q'.lastTag = tag ∧
      (((q.queueState queue).receiver = .gone ∧ q'.queueState = q.queueState ∧
          push { q with lastTag := tag } queue delivery = (.error (.messageQueue .receiverGone), q')) ∨
        ((q.queueState queue).receiver ≠ .gone ∧
          q'.queueState = Function.update q.queueState queue ((q.queueState queue).put delivery) ∧
          push { q with lastTag := tag } queue delivery = (.ok (), q'))) := by
  by_cases hgone : (q.queueState queue).receiver = .gone
  · exact ⟨{ q with lastTag := tag, queues := q.queues.insert queue (q.queueState queue) }, rfl, rfl,
      .inl ⟨hgone, q.queueState_insert_self queue, push_of_gone (q := { q with lastTag := tag }) hgone delivery⟩⟩
  · exact ⟨{ q with lastTag := tag, queues := q.queues.insert queue ((q.queueState queue).put delivery) }, rfl, rfl,
      .inr ⟨hgone, q.queueState_insert queue _, push_of_ne_gone (q := { q with lastTag := tag }) hgone delivery⟩⟩

/-- A publication uses up a tag.  It is refused by a queue whose consumer is gone, and then nothing else changes. -/
theorem publish_cases (q : MemoryQueue) (queue : String) (message : Outbound) :
    ∃ q', q'.unacked = q.unacked ∧ q'.lastTag = q.lastTag + 1 ∧
      (((q.queueState queue).receiver = .gone ∧ q'.queueState = q.queueState ∧
          q.publish queue message = (.error (.messageQueue .receiverGone), q')) ∨
        ((q.queueState queue).receiver ≠ .gone ∧
          q'.queueState = Function.update q.queueState queue ((q.queueState queue).put
            ⟨q.lastTag + 1, message.body, message.replyTo, message.correlationId, false⟩) ∧
          q.publish queue message = (.ok (), q'))) :=
  q.push_cases (q.lastTag + 1) queue _

/-! ### Making and consuming queues -/

theorem queueState_create (q : MemoryQueue) (queue : String) (durable : Bool) (name : String) :
    ∃ b, (q.create queue durable).queueState name = { q.queueState name with durable := b } := by
  unfold create
  cases hthere : q.queues.get? queue with
  | some state => exact ⟨(q.queueState name).durable, rfl⟩
  | none =>
    dsimp only
    by_cases hname : name = queue
    · subst hname
      refine ⟨durable, ?_⟩
      rw [queueState_insert, Function.update_self, queueState, hthere]
      rfl
    · refine ⟨(q.queueState name).durable, ?_⟩
      rw [queueState_insert, Function.update_of_ne hname]

theorem create_eq (q : MemoryQueue) (queue : String) (durable : Bool) :
    (q.create queue durable).unacked = q.unacked ∧ (q.create queue durable).lastTag = q.lastTag := by
  unfold create
  cases q.queues.get? queue <;> exact ⟨rfl, rfl⟩

/-- A queue gets a consumer if it never had one, and otherwise stays as it is. -/
theorem consume_cases (q : MemoryQueue) (queue : String) :
    ∃ q', q'.unacked = q.unacked ∧ q'.lastTag = q.lastTag ∧
      (((q.queueState queue).receiver = .free ∧
          q'.queueState = Function.update q.queueState queue { q.queueState queue with receiver := .taken } ∧
          q.consume queue = (.ok (), q')) ∨
        ((q.queueState queue).receiver ≠ .free ∧ q'.queueState = q.queueState ∧
          q.consume queue = (.error (.messageQueue (.consumerTaken queue)), q'))) := by
  by_cases hfree : (q.queueState queue).receiver = .free
  · refine ⟨{ q with queues := q.queues.insert queue { q.queueState queue with receiver := .taken } }, rfl, rfl,
      .inl ⟨hfree, q.queueState_insert queue _, ?_⟩⟩
    simp only [consume, hfree]
  · refine ⟨{ q with queues := q.queues.insert queue (q.queueState queue) }, rfl, rfl,
      .inr ⟨hfree, q.queueState_insert_self queue, ?_⟩⟩
    unfold consume
    dsimp only
    split
    · exact absurd ‹_› hfree
    · rfl

theorem queueState_abandon (q : MemoryQueue) (queue name : String) :
    (q.abandon queue).queueState name = if name = queue ∧ (q.queues.get? queue).isSome then
      { q.queueState name with receiver := .gone } else q.queueState name := by
  unfold abandon queueState
  dsimp only
  rw [Table.get?_modify]
  by_cases hname : name = queue
  · subst hname
    cases q.queues.get? name <;> simp
  · rw [if_neg hname, if_neg fun h => hname h.1]

/-! ### Handing out and settling -/

theorem next_cases (q : MemoryQueue) (queue : String) :
    ((q.queueState queue).waiting = [] ∧ q.next queue = (none, q)) ∨
      ∃ delivery rest q', (q.queueState queue).waiting = delivery :: rest ∧
        q'.queueState = Function.update q.queueState queue (q.queueState queue).behind ∧
        q'.unacked = q.unacked ++ [⟨queue, delivery⟩] ∧ q'.lastTag = q.lastTag ∧
        q.next queue = (some delivery, q') := by
  unfold next
  cases hthere : q.queues.get? queue with
  | none =>
    refine .inl ⟨?_, rfl⟩
    rw [queueState, hthere]
    rfl
  | some state =>
    have hstate : q.queueState queue = state := by rw [queueState, hthere]; rfl
    cases hwaiting : state.waiting with
    | nil => exact .inl ⟨by rw [hstate, hwaiting], by simp only [hwaiting]⟩
    | cons delivery rest =>
      refine .inr ⟨delivery, rest, { q with
          queues := q.queues.insert queue (q.queueState queue).behind
          unacked := q.unacked ++ [⟨queue, delivery⟩] }, by rw [hstate, hwaiting], ?_, rfl, rfl, ?_⟩
      · exact q.queueState_insert queue _
      · simp only [hwaiting, hstate, QueueState.behind, List.tail_cons]

/-- What is handed out is the first message that waits. -/
theorem next_eq_head? (q : MemoryQueue) (queue : String) : (q.next queue).1 = (q.queueState queue).waiting.head? := by
  rcases q.next_cases queue with ⟨hwaiting, heq⟩ | ⟨delivery, rest, _, hwaiting, -, -, -, heq⟩
  all_goals
    rw [hwaiting, heq]
    rfl

theorem findUnacked_eq_none_iff {q : MemoryQueue} {tag : Nat} :
    q.findUnacked tag = none ↔ ∀ entry ∈ q.unacked, entry.delivery.tag ≠ tag := by
  simp [findUnacked, List.find?_eq_none]

theorem mem_of_findUnacked {q : MemoryQueue} {tag : Nat} {entry : Unacked} (h : q.findUnacked tag = some entry) :
    entry ∈ q.unacked ∧ entry.delivery.tag = tag := by
  have htag : (entry.delivery.tag == tag) = true := List.find?_some (p := fun e : Unacked => e.delivery.tag == tag) h
  exact ⟨List.mem_of_find?_eq_some h, by simpa using htag⟩

theorem mem_forget {q : MemoryQueue} {tag : Nat} {entry : Unacked} :
    entry ∈ (q.forget tag).unacked ↔ entry ∈ q.unacked ∧ entry.delivery.tag ≠ tag := by
  simp [forget]

/-- What is not unacked cannot be settled; what is, is unacked no more. -/
theorem ack_cases (q : MemoryQueue) (tag : Nat) :
    (q.findUnacked tag = none ∧ q.ack tag = (.error (.messageQueue (.unknownTag tag)), q)) ∨
      ∃ entry, q.findUnacked tag = some entry ∧ q.ack tag = (.ok (), q.forget tag) := by
  unfold ack
  cases hfound : q.findUnacked tag with
  | none => exact .inl ⟨rfl, rfl⟩
  | some entry => exact .inr ⟨entry, rfl, rfl⟩

/-- What is rejected for another delivery goes to the end of its queue under the next tag, unless the consumer of the
queue is gone. -/
theorem nack_cases (q : MemoryQueue) (tag : Nat) (requeue : Bool) :
    (q.findUnacked tag = none ∧ q.nack tag requeue = (.error (.messageQueue (.unknownTag tag)), q)) ∨
      ∃ entry, q.findUnacked tag = some entry ∧
        ((requeue = false ∧ q.nack tag requeue = (.ok (), q.forget tag)) ∨
          ∃ q', requeue = true ∧ q'.unacked = (q.forget tag).unacked ∧ q'.lastTag = q.lastTag + 1 ∧
            (((q.queueState entry.queue).receiver = .gone ∧ q'.queueState = q.queueState ∧
                q.nack tag requeue = (.error (.messageQueue .receiverGone), q')) ∨
              ((q.queueState entry.queue).receiver ≠ .gone ∧
                q'.queueState = Function.update q.queueState entry.queue ((q.queueState entry.queue).put
                  { entry.delivery with tag := q.lastTag + 1, redelivered := true }) ∧
                q.nack tag requeue = (.ok (), q')))) := by
  cases hfound : q.findUnacked tag with
  | none => exact .inl ⟨rfl, by simp only [nack, hfound]⟩
  | some entry =>
    refine .inr ⟨entry, rfl, ?_⟩
    cases requeue with
    | false =>
      refine .inl ⟨rfl, ?_⟩
      simp only [nack, hfound, Bool.false_eq_true, if_false]
    | true =>
      have hnack : q.nack tag true = push { q.forget tag with lastTag := q.lastTag + 1 } entry.queue
          { entry.delivery with tag := q.lastTag + 1, redelivered := true } := by
        simp only [nack, hfound, if_true]
        rfl
      rw [hnack]
      obtain ⟨q', hunacked, htag, hpush⟩ := (q.forget tag).push_cases (q.lastTag + 1) entry.queue
        { entry.delivery with tag := q.lastTag + 1, redelivered := true }
      exact .inr ⟨q', rfl, hunacked, htag, hpush⟩

/-- Settling under a tag is an error, and changes nothing. -/
def Refuses (q : MemoryQueue) (tag : Nat) : Prop :=
  q.ack tag = (.error (.messageQueue (.unknownTag tag)), q) ∧
    ∀ requeue, q.nack tag requeue = (.error (.messageQueue (.unknownTag tag)), q)

theorem refuses_of_findUnacked {q : MemoryQueue} {tag : Nat} (h : q.findUnacked tag = none) : q.Refuses tag := by
  simp [Refuses, ack, nack, h]

end MemoryQueue

end SpeechDispatch
