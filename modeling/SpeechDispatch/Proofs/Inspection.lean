import SpeechDispatch.Amqp.Queue

/-!
# Asking for the size of a queue

The size of a queue at a broker is asked for on the channel that all operations share.  If the broker answers with a
size, it is as it was before (`Peer.Looks`), and every later answer is what it would have been
(`Queue.Alike.answers_eq`).  If the broker closes the channel and speaks of something not found the answer is zero, but
every later operation fails (`Queue.call_of_not_working`), also those that would have gone well.

So an answered question for a size has no effect if and only if the broker answered it too, and for a queue that is not
there it did not (`Queue.traceless_iff_of_size`).
-/

namespace SpeechDispatch.Amqp

/-- What can be asked of the queues at a broker. -/
inductive Call
  | publish (queue : String) (message : Outbound)
  | create (queue : String) (durable : Bool)
  | consume (queue consumer : String)
  | next (consumer : String)
  | ack (tag : Nat)
  | nack (tag : Nat) (requeue : Bool)
  | size (queue : String)
  | close
  deriving DecidableEq

inductive Answer
  | result (result : Except DispatchError Unit)
  | count (result : Except DispatchError Nat)
  | polled (polled : Polled)

/-- Whether an operation is carried out on the channel.  What a consumer has is looked up without it. -/
def Call.usesChannel : Call → Bool
  | publish _ _ | create _ _ | consume _ _ | ack _ | nack _ _ | size _ => true
  | next _ | close => false

def Answer.isFailure : Answer → Bool
  | result (.error _) | count (.error _) => true
  | _ => false

namespace Queue

variable {β : Type} [Peer β]

/-- Carries an operation out. -/
def call (q : Queue β) : Call → Answer × Queue β
  | .publish queue message => let (r, q) := q.publish queue message; (.result r, q)
  | .create queue durable => let (r, q) := q.create queue durable; (.result r, q)
  | .consume queue consumer => let (r, q) := q.consume queue consumer; (.result r, q)
  | .next consumer => let (r, q) := q.next consumer; (.polled r, q)
  | .ack tag => let (r, q) := q.ack tag; (.result r, q)
  | .nack tag requeue => let (r, q) := q.nack tag requeue; (.result r, q)
  | .size queue => let (r, q) := q.size queue; (.count r, q)
  | .close => let (r, q) := q.close; (.result r, q)

/-- What is left after operations. -/
def after (q : Queue β) (calls : List Call) : Queue β := calls.foldl (fun q c => (q.call c).2) q

/-- The answers to operations one after another. -/
def answers (q : Queue β) : List Call → List Answer
  | [] => []
  | c :: rest => (q.call c).1 :: (q.call c).2.answers rest

end Queue

/-! ### What a broker answers -/

namespace Peer

variable {β : Type} [Peer β]

/-- What is answered to one thing after another, and what goes to consumers each time. -/
def replies (b : β) : List Method → List (Reply × List Arrival)
  | [] => []
  | m :: rest => ((handle b m).1, (handle b m).2.1) :: replies (handle b m).2.2 rest

/-- From here on two brokers give the same answers. -/
def Agrees (b b' : β) : Prop := ∀ methods, replies b' methods = replies b methods

theorem Agrees.handle {b b' : β} (h : Agrees b b') (m : Method) :
    (handle b' m).1 = (handle b m).1 ∧ (handle b' m).2.1 = (handle b m).2.1 ∧
      Agrees (handle b m).2.2 (handle b' m).2.2 := by
  have hnow : ∀ rest, _ :: _ = _ :: _ := fun rest => h (m :: rest)
  obtain ⟨hreply, harrivals⟩ := Prod.mk.inj (List.head_eq_of_cons_eq (hnow []))
  exact ⟨hreply, harrivals, fun rest => List.tail_eq_of_cons_eq (hnow rest)⟩

/-- What AMQP 0-9-1 says of a passive declaration.  If the broker lacks the queue, it closes the channel with the code
404, of which the name is `NOT_FOUND`.  If it says how much waits, it sends nothing else and is not changed by that. -/
structure Looks (β : Type) [Peer β] (lacks : β → String → Prop) : Prop where
  missing : ∀ {b : β} {queue : String}, lacks b queue →
    ∃ text, (Peer.handle b (.inspect queue)).1 = .closed notFound text ∧ "NOT_FOUND".toList <:+: text.toList
  declared : ∀ {b : β} {queue : String} {waiting : Nat}, (Peer.handle b (.inspect queue)).1 = .declared waiting →
    (Peer.handle b (.inspect queue)).2.1 = [] ∧ Agrees b (Peer.handle b (.inspect queue)).2.2

end Peer

/-! ### The list of what a broker was told -/

namespace Broker

/-- A broker that was told something else. -/
def told (b : Broker) (log : List Method) : Broker := { b with received := log }

/-- What a broker answers, with another list of what it was told. -/
def toldAfter (log : List Method) (answer : Reply × List Arrival × Broker) : Reply × List Arrival × Broker :=
  (answer.1, answer.2.1, answer.2.2.told log)

variable (b : Broker) (log : List Method)

theorem refuses_told (kind : Option String → Refusal) (queue : String) :
    (b.told log).refuses kind queue = b.refuses kind queue := rfl

theorem queues_told : (b.told log).queues = b.queues := rfl

theorem unacked_told : (b.told log).unacked = b.unacked := rfl

theorem handOutAll_told (queue consumer : String) (waiting : List Held) :
    (b.told log).handOutAll queue consumer waiting =
      ((b.handOutAll queue consumer waiting).1, (b.handOutAll queue consumer waiting).2.told log) := by
  induction waiting generalizing b with
  | nil => rfl
  | cons held rest ih =>
    have hfirst : (b.told log).handOut queue consumer held =
        ((b.handOut queue consumer held).1, (b.handOut queue consumer held).2.told log) := rfl
    simp only [handOutAll, hfirst, ih]

theorem offer_told (queue : String) (q : BrokerQueue) (held : Held) (first : Bool) :
    (b.told log).offer queue q held first =
      ((b.offer queue q held first).1, (b.offer queue q held first).2.told log) := by
  unfold offer
  cases q.consumer <;> rfl

theorem declare_told (queue : String) (passive : Bool) :
    (b.told log).declare queue passive =
      ((b.declare queue passive).1, (b.declare queue passive).2.told log) := by
  unfold declare
  rw [refuses_told]
  cases b.refuses .declaring queue with
  | true => rfl
  | false =>
    rw [queues_told]
    cases b.queues.get? queue with
    | some q => rfl
    | none => cases passive <;> rfl

theorem publish_told (queue : String) (message : Outbound) :
    (b.told log).publish queue message = toldAfter log (b.publish queue message) := by
  unfold publish
  rw [refuses_told, refuses_told]
  cases b.refuses .closing queue with
  | true => rfl
  | false =>
    cases b.refuses .publishing queue with
    | true => rfl
    | false =>
      rw [queues_told]
      cases b.queues.get? queue with
      | none => rfl
      | some q => simp only [offer_told]; rfl

theorem consume_told (queue consumer : String) :
    (b.told log).consume queue consumer = toldAfter log (b.consume queue consumer) := by
  unfold consume
  rw [refuses_told]
  cases b.refuses .consuming queue with
  | true => rfl
  | false =>
    rw [queues_told]
    cases b.queues.get? queue with
    | none => rfl
    | some q =>
      have hall := handOutAll_told { b with queues := b.queues.insert queue { consumer := some consumer } } log queue
        consumer q.waiting
      exact Prod.ext rfl hall

theorem settle_told (tag : Nat) (requeue : Bool) :
    (b.told log).settle tag requeue = toldAfter log (b.settle tag requeue) := by
  unfold settle
  rw [unacked_told]
  cases b.unacked.lookup tag with
  | none => rfl
  | some entry =>
    cases requeue with
    | false => rfl
    | true => exact Prod.ext rfl (offer_told { b with unacked := b.unacked.filter fun entry => entry.1 ≠ tag } log ..)

/-- What a broker does does not depend on what it was told before. -/
theorem handle_told (method : Method) :
    (b.told log).handle method = toldAfter (log ++ [method]) (b.handle method) := by
  cases method with
  | selectConfirms | setPrefetch count => rfl
  | declare queue passive durable exclusive autoDelete =>
    have hdeclare : ∀ log, (b.told log).declare queue passive = _ := fun log => declare_told b log queue passive
    simp only [handle, toldAfter]
    change (((b.told _).declare queue passive).1, [], ((b.told _).declare queue passive).2) =
      (((b.told _).declare queue passive).1, [], ((b.told _).declare queue passive).2.told _)
    rw [hdeclare, hdeclare]
    rfl
  | publish queue mandatory deliveryMode message =>
    change (b.told _).publish queue message = toldAfter _ ((b.told _).publish queue message)
    rw [publish_told, publish_told]
    rfl
  | consume queue consumer flags =>
    change (b.told _).consume queue consumer = toldAfter _ ((b.told _).consume queue consumer)
    rw [consume_told, consume_told]
    rfl
  | ack tag multiple =>
    change (b.told _).settle tag false = toldAfter _ ((b.told _).settle tag false)
    rw [settle_told, settle_told]
    rfl
  | nack tag multiple requeue =>
    change (b.told _).settle tag requeue = toldAfter _ ((b.told _).settle tag requeue)
    rw [settle_told, settle_told]
    rfl

/-- What a broker was told before makes no difference to its answers. -/
theorem agrees_told : Peer.Agrees b (b.told log) := by
  intro methods
  induction methods generalizing b log with
  | nil => rfl
  | cons m rest ih =>
    have hhandle : Peer.handle (b.told log) m = toldAfter (log ++ [m]) (Peer.handle b m) := b.handle_told log m
    simp only [Peer.replies, hhandle, toldAfter]
    rw [ih]

omit b log

/-- A broker speaks of a queue, and does not have it. -/
def Lacks (b : Broker) (queue : String) : Prop := b.refuses .declaring queue = false ∧ b.queues.get? queue = none

/-- A passive declaration leaves a broker as it is, but for the list of what it was told. -/
theorem handle_inspect (b : Broker) (queue : String) :
    Peer.handle b (.inspect queue) =
      ((b.declare queue true).1, [], b.told (b.received ++ [.inspect queue])) := by
  have hdeclare : ∀ b : Broker, (b.declare queue true).2 = b := by
    intro b
    unfold declare
    cases b.refuses .declaring queue with
    | true => rfl
    | false => cases b.queues.get? queue <;> rfl
  have htold := declare_told b (b.received ++ [.inspect queue]) queue true
  rw [hdeclare b] at htold
  exact congrArg (fun answer => (answer.1, [], answer.2)) htold

theorem looks : Peer.Looks Broker Lacks := by
  constructor
  case missing =>
    rintro b queue ⟨hrefuses, hnone⟩
    refine ⟨s!"NOT_FOUND - no queue '{queue}' in vhost '/'", ?_, ?_⟩
    · rw [handle_inspect, declare, hrefuses, hnone]
      rfl
    · refine ⟨[], (" - no queue '" ++ queue ++ "' in vhost '/'").toList, ?_⟩
      simp [toString]
  case declared =>
    intro b queue waiting _
    rw [handle_inspect]
    exact ⟨rfl, b.agrees_told _⟩

end Broker

/-! ### Speaking of something not found -/

theorem mentions_iff {word text : List Char} : mentions word text = true ↔ word <:+: text := by
  induction text with
  | nil => simp [mentions]
  | cons c rest ih =>
    rw [mentions, Bool.or_eq_true, ih, List.isPrefixOf_iff_prefix, List.infix_cons_iff]

theorem saysNotFound_iff {text : String} :
    saysNotFound text = true ↔ "NOT_FOUND".toList <:+: text.toList ∨ "404".toList <:+: text.toList := by
  rw [saysNotFound, Bool.or_eq_true, mentions_iff, mentions_iff]

namespace Queue

variable {β : Type}

/-- What a consumer has does not depend on the broker, and looking it up changes the streams only. -/
theorem exists_next_eq (q : Queue β) (consumer : String) :
    ∃ polled streams, ∀ broker : β, { q with broker }.next consumer = (polled, { q with broker, streams }) := by
  unfold next
  dsimp only
  rcases hstream : q.streams.get? consumer with _ | ⟨arrived, told⟩
  · exact ⟨.ended, q.streams, fun broker => rfl⟩
  · rcases arrived with _ | ⟨delivery, rest⟩
    · by_cases hworking : q.channel = .working
      · exact ⟨.nothing, q.streams, fun broker => if_pos hworking⟩
      · by_cases hfailed : q.channel = .failed ∧ ¬ told = true
        · exact ⟨.failure (failure .receive), q.streams.insert consumer ⟨[], true⟩,
            fun broker => (if_neg hworking).trans (if_pos hfailed)⟩
        · exact ⟨.ended, q.streams, fun broker => (if_neg hworking).trans (if_neg hfailed)⟩
    · exact ⟨.delivery delivery, q.streams.insert consumer ⟨rest, told⟩, fun broker => rfl⟩

variable [Peer β]

/-! ### Queues that are alike -/

/-- Two queues that differ at most in their brokers, which give the same answers. -/
def Alike (q q' : Queue β) : Prop := ∃ broker, q' = { q with broker } ∧ Peer.Agrees q.broker broker

theorem Alike.tell {q q' : Queue β} (h : Alike q q') (method : Method) :
    (q'.tell method).1 = (q.tell method).1 ∧ Alike (q.tell method).2 (q'.tell method).2 := by
  obtain ⟨broker, rfl, hagrees⟩ := h
  obtain ⟨hreply, harrivals, hagain⟩ := hagrees.handle method
  unfold Queue.tell
  by_cases hworking : q.channel = .working
  · rw [if_pos hworking, if_pos hworking]
    simp only [hreply, harrivals, true_and]
    exact ⟨_, rfl, hagain⟩
  · rw [if_neg hworking, if_neg hworking]
    exact ⟨rfl, broker, rfl, hagrees⟩

/-- Alike queues give the same answer, and stay alike. -/
theorem Alike.call {q q' : Queue β} (h : Alike q q') (c : Call) :
    (q'.call c).1 = (q.call c).1 ∧ Alike (q.call c).2 (q'.call c).2 := by
  cases c with
  | publish queue message =>
    obtain ⟨hreply, halike⟩ := h.tell (.publish queue true 2 message)
    exact ⟨by simp only [Queue.call, publish, hreply], halike⟩
  | create queue durable =>
    obtain ⟨hreply, halike⟩ := h.tell (.declare queue false durable false false)
    exact ⟨by simp only [Queue.call, create, hreply], halike⟩
  | ack tag =>
    obtain ⟨hreply, halike⟩ := h.tell (.ack tag false)
    exact ⟨by simp only [Queue.call, ack, hreply], halike⟩
  | nack tag requeue =>
    obtain ⟨hreply, halike⟩ := h.tell (.nack tag false requeue)
    exact ⟨by simp only [Queue.call, nack, hreply], halike⟩
  | size queue =>
    obtain ⟨hreply, halike⟩ := h.tell (.inspect queue)
    exact ⟨by simp only [Queue.call, size, hreply], halike⟩
  | consume queue consumer =>
    obtain ⟨broker, rfl, hagrees⟩ := h
    have hinto : Alike { q with streams := q.streams.insert consumer {} }
        { q with streams := q.streams.insert consumer {}, broker } := ⟨broker, rfl, hagrees⟩
    obtain ⟨hreply, broker', halike, hagain⟩ := hinto.tell (.consume queue consumer 0)
    simp only [Queue.call, consume, hreply, halike]
    cases ({ q with streams := q.streams.insert consumer {} }.tell (.consume queue consumer 0)).1 with
    | none => exact ⟨rfl, broker', rfl, hagain⟩
    | some reply => cases reply <;> exact ⟨rfl, broker', rfl, hagain⟩
  | next consumer =>
    obtain ⟨broker, rfl, hagrees⟩ := h
    obtain ⟨polled, streams, hnext⟩ := q.exists_next_eq consumer
    simp only [Queue.call, hnext, true_and]
    exact ⟨broker, rfl, hagrees⟩
  | close =>
    obtain ⟨broker, rfl, hagrees⟩ := h
    by_cases hconnected : q.isConnected = true
    · have hother : { q with broker }.isConnected = true := hconnected
      rw [Queue.call, Queue.call, Queue.close, Queue.close, if_pos hconnected, if_pos hother]
      exact ⟨rfl, broker, rfl, hagrees⟩
    · have hother : ¬ { q with broker }.isConnected = true := hconnected
      rw [Queue.call, Queue.call, Queue.close, Queue.close, if_neg hconnected, if_neg hother]
      exact ⟨rfl, broker, rfl, hagrees⟩

theorem Alike.answers_eq {q q' : Queue β} (h : Alike q q') (calls : List Call) :
    q'.answers calls = q.answers calls := by
  induction calls generalizing q q' with
  | nil => rfl
  | cons c rest ih =>
    obtain ⟨hanswer, halike⟩ := h.call c
    rw [answers, answers, hanswer, ih halike]

/-! ### A channel that is closed -/

theorem tell_of_not_working {q : Queue β} (h : q.channel ≠ .working) (method : Method) : q.tell method = (none, q) := by
  rw [tell, if_neg h]

/-- On a closed channel nothing is done. -/
theorem call_of_not_working {q : Queue β} (h : q.channel ≠ .working) {c : Call} (hc : c.usesChannel = true) :
    (q.call c).1.isFailure = true ∧ (q.call c).2 = q := by
  cases c with
  | publish | create | ack | nack | size =>
    simp only [Queue.call, publish, create, ack, nack, size, tell_of_not_working h, and_true]
    rfl
  | consume queue consumer =>
    have hinto : { q with streams := q.streams.insert consumer {} }.channel ≠ .working := h
    simp only [Queue.call, consume, tell_of_not_working hinto, and_true]
    rfl
  | next | close => cases hc

/-- A closed channel is not opened again. -/
theorem not_working_call {q : Queue β} (h : q.channel ≠ .working) (c : Call) : (q.call c).2.channel ≠ .working := by
  by_cases hc : c.usesChannel = true
  · rwa [(call_of_not_working h hc).2]
  · cases c with
    | publish | create | ack | nack | size | consume => exact absurd rfl hc
    | next consumer =>
      obtain ⟨polled, streams, hnext⟩ := q.exists_next_eq consumer
      have hthis : q.next consumer = (polled, { q with streams }) := hnext q.broker
      simp only [call, hthis]
      exact h
    | close =>
      unfold call close
      by_cases hconnected : q.isConnected = true
      · rw [if_pos hconnected]
        exact nofun
      · rwa [if_neg hconnected]

theorem not_working_after {q : Queue β} (h : q.channel ≠ .working) (calls : List Call) :
    (q.after calls).channel ≠ .working := by
  induction calls generalizing q with
  | nil => exact h
  | cons c rest ih => exact ih (not_working_call h c)

/-- On a channel that works a delivery can be settled, as far as is told at once. -/
theorem ack_eq_ok {q : Queue β} (h : q.channel = .working) (tag : Nat) : (q.ack tag).1 = .ok () := by
  unfold ack tell
  rw [if_pos h]
  rfl

/-! ### Asking for a size -/

/-- If the broker answers a question for a size, so does the queue. -/
theorem size_of_declared {q : Queue β} {queue : String} {n : Nat} (hworking : q.channel = .working)
    (hdeclared : (Peer.handle q.broker (.inspect queue)).1 = .declared n) :
    q.size queue = (.ok n, { q with
      broker := (Peer.handle q.broker (.inspect queue)).2.2
      streams := receive q.streams (Peer.handle q.broker (.inspect queue)).2.1 }) := by
  unfold size tell
  rw [if_pos hworking]
  simp only [hdeclared, ← hworking]

/-- If the broker closes the channel, it depends on the wording whether that is an error. -/
theorem size_of_closed {q : Queue β} {queue : String} {code : Nat} {text : String} (hworking : q.channel = .working)
    (hclosed : (Peer.handle q.broker (.inspect queue)).1 = .closed code text) :
    (q.size queue).1 = (if saysNotFound text then .ok 0 else .error (failure (.inspect queue))) ∧
      (q.size queue).2.channel = .failed := by
  unfold size tell
  rw [if_pos hworking]
  simp only [hclosed, true_and]

/-- There are two ways for a size to be answered. -/
theorem cases_of_size_eq_ok {q : Queue β} {queue : String} {n : Nat} (hok : (q.size queue).1 = .ok n) :
    q.channel = .working ∧ ((Peer.handle q.broker (.inspect queue)).1 = .declared n ∨
      (n = 0 ∧ ∃ code text, (Peer.handle q.broker (.inspect queue)).1 = .closed code text)) := by
  by_cases hworking : q.channel = .working
  · refine ⟨hworking, ?_⟩
    cases hreply : (Peer.handle q.broker (.inspect queue)).1 with
    | declared waiting =>
      rw [size_of_declared hworking hreply] at hok
      exact .inl (congrArg Reply.declared (Except.ok.inj hok))
    | closed code text =>
      rw [(size_of_closed hworking hreply).1] at hok
      split at hok
      · exact .inr ⟨(Except.ok.inj hok).symm, code, text, rfl⟩
      · cases hok
    | done | rejected | returned =>
      unfold size tell at hok
      rw [if_pos hworking] at hok
      simp only [hreply] at hok
      cases hok
  · rw [size, tell_of_not_working hworking] at hok
    cases hok

/-- A question that the broker answers leaves the queue as good as it was. -/
theorem alike_size {lacks : β → String → Prop} (hbroker : Peer.Looks β lacks) {q : Queue β} {queue : String} {n : Nat}
    (hworking : q.channel = .working) (hdeclared : (Peer.handle q.broker (.inspect queue)).1 = .declared n) :
    q.Alike (q.size queue).2 := by
  obtain ⟨harrivals, hagrees⟩ := hbroker.declared hdeclared
  rw [size_of_declared hworking hdeclared, harrivals]
  exact ⟨_, rfl, hagrees⟩

/-- After a question for which the broker closes the channel, every operation on it fails, and one that would have gone
well is among them. -/
theorem not_traceless_of_closed {q : Queue β} {queue : String} {code : Nat} {text : String}
    (hworking : q.channel = .working) (hclosed : (Peer.handle q.broker (.inspect queue)).1 = .closed code text) :
    (∀ before c, c.usesChannel = true → (((q.size queue).2.after before).call c).1.isFailure = true) ∧
      ¬ ∀ calls, (q.size queue).2.answers calls = q.answers calls := by
  have hgone : ∀ before, ((q.size queue).2.after before).channel ≠ .working :=
    not_working_after (by rw [(size_of_closed hworking hclosed).2]; exact nofun)
  refine ⟨fun before c hc => (call_of_not_working (hgone before) hc).1, fun hsame => ?_⟩
  -- without the question a delivery can be settled
  have hsettled : (q.call (.ack 0)).1 = .result (.ok ()) := congrArg Answer.result (ack_eq_ok hworking 0)
  have hfails := (call_of_not_working (hgone []) (c := .ack 0) rfl).1
  have hanswers : [((q.size queue).2.call (.ack 0)).1] = [(q.call (.ack 0)).1] := hsame [.ack 0]
  rw [after, List.foldl_nil, List.head_eq_of_cons_eq hanswers, hsettled] at hfails
  cases hfails

/-- An answered question for a size has no effect on any later answer if and only if the broker answered it.  If the
broker did not, the answer is zero, and every later operation on the channel fails.  So it is for a queue that the
broker lacks. -/
theorem traceless_iff_of_size {lacks : β → String → Prop} (hbroker : Peer.Looks β lacks) (q : Queue β)
    (queue : String) :
    (∀ n, (q.size queue).1 = .ok n →
      ((∀ calls, (q.size queue).2.answers calls = q.answers calls) ↔
        (Peer.handle q.broker (.inspect queue)).1 = .declared n) ∧
      ((Peer.handle q.broker (.inspect queue)).1 ≠ .declared n → n = 0 ∧ ∀ before c, c.usesChannel = true →
        (((q.size queue).2.after before).call c).1.isFailure = true)) ∧
    (q.channel = .working → lacks q.broker queue →
      (q.size queue).1 = .ok 0 ∧ (Peer.handle q.broker (.inspect queue)).1 ≠ .declared 0) := by
  constructor
  · intro n hok
    obtain ⟨hworking, hdeclared | ⟨rfl, code, text, hclosed⟩⟩ := cases_of_size_eq_ok hok
    · exact ⟨⟨fun _ => hdeclared, fun _ => (alike_size hbroker hworking hdeclared).answers_eq⟩,
        fun hnot => absurd hdeclared hnot⟩
    · obtain ⟨hfails, htrace⟩ := not_traceless_of_closed hworking hclosed
      refine ⟨⟨fun hsame => absurd hsame htrace, fun hdeclared => ?_⟩, fun _ => ⟨rfl, hfails⟩⟩
      rw [hclosed] at hdeclared
      cases hdeclared
  · intro hworking hlacks
    obtain ⟨text, hclosed, htext⟩ := hbroker.missing hlacks
    rw [(size_of_closed hworking hclosed).1, if_pos (saysNotFound_iff.2 (.inl htext)), hclosed]
    exact ⟨rfl, nofun⟩

/-- A broker with a message waiting in a queue. -/
def holding : Queue Broker :=
  { settings := {}, broker := { queues := Table.ofList [("q", { waiting := [⟨⟨[120], none, none⟩, false⟩] })] } }

theorem traceless_iff_of_size_holding :
    (holding.size "q").1 = .ok 1 ∧ (∀ calls, (holding.size "q").2.answers calls = holding.answers calls) ∧
      (holding.size "p").1 = .ok 0 ∧ ¬ ∀ calls, (holding.size "p").2.answers calls = holding.answers calls := by
  have hq := (traceless_iff_of_size Broker.looks holding "q").1 1 rfl
  obtain ⟨hp, hlacks⟩ := traceless_iff_of_size Broker.looks holding "p"
  obtain ⟨hzero, hnot⟩ := hlacks rfl ⟨rfl, rfl⟩
  exact ⟨rfl, hq.1.2 rfl, hzero, fun hall => hnot ((hp 0 hzero).1.1 hall)⟩

/-- A queue of which the name says what is searched for, at a broker that does not let us ask for it. -/
def guarded : Queue Broker :=
  { settings := {}
    broker := { refusals := [.declaring (some "jobs-404")], queues := Table.ofList [("jobs-404", {})] } }

example : (guarded.size "jobs-404").1 = .ok 0 ∧ (guarded.size "jobs-404").2.channel = .failed := ⟨rfl, rfl⟩

/-- A broker that has no queues yet. -/
def unused : Queue Broker := { settings := {}, broker := {} }

/-- Not every answered question for a size is without effect. -/
theorem not_forall_traceless :
    ¬ ∀ (q : Queue Broker) (queue : String) (n : Nat), (q.size queue).1 = .ok n →
      ∀ calls, (q.size queue).2.answers calls = q.answers calls := by
  intro hall
  have hsame := hall unused "missing" 0 rfl [.create "q" true]
  have hmade : unused.answers [.create "q" true] = [.result (.ok ())] := rfl
  have hfails : (unused.size "missing").2.answers [.create "q" true] =
      [.result (.error (failure (.declare "q")))] := rfl
  rw [hmade, hfails] at hsame
  cases hsame

end Queue

end SpeechDispatch.Amqp
