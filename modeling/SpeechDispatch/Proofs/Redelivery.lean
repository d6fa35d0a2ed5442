import Mathlib.Logic.Function.Basic
import SpeechDispatch.Proofs.Depot
import SpeechDispatch.Proofs.OutletInvariant

/-!
# Redelivery ends

The loops of the listener at work on queues in memory, together with the controller, the detector and all who use other
queues, in any order, while any publication may fail.  Each loop takes a message, handles it and settles it.  A message
is handled twice at most, and a second time only if it comes from the channel for results and is marked as delivered
before (`Exchange.redelivery_ends`): only a result that was not so marked is put back (`Hub.fst_handle_eq_nack_true`).
-/

namespace SpeechDispatch

variable {α σ : Type}

theorem ChannelQueues.mem_names {queues : ChannelQueues} {name : String} :
    name ∈ queues.names ↔ ∃ c, queues.queue c = name := by
  simp only [names, List.mem_cons, List.not_mem_nil, or_false]
  constructor
  · rintro (rfl | rfl | rfl)
    · exact ⟨.heartbeat, rfl⟩
    · exact ⟨.work, rfl⟩
    · exact ⟨.response, rfl⟩
  · rintro ⟨c, rfl⟩
    cases c <;> simp [queue]

/-! ### What a change of the queues leaves to the loops -/

namespace Depot

def settle (d : Depot) (tag : Nat) : Settlement → Depot
  | .ack => d.ack tag
  | .nack requeue => d.nack tag requeue

/-- A change that puts no message back. -/
def PutsNoneBack (d d' : Depot) : Prop :=
  ∀ p' ∈ d'.parcels, p'.earlier = [] ∨ ∃ p ∈ d.parcels, p.queue = p'.queue ∧ p.earlier = p'.earlier

/-- A change that gives no queue a consumer back that it has lost or has. -/
def KeepsConsumers (d d' : Depot) : Prop :=
  ∀ queue, (d.queue.queueState queue).receiver ≠ .free → (d'.queue.queueState queue).receiver ≠ .free

/-- A change that neither hands out nor takes back. -/
structure Quiet (d d' : Depot) : Prop where
  handed : d'.handed = d.handed
  unacked : d'.queue.unacked = d.queue.unacked
  putsNoneBack : d.PutsNoneBack d'
  keepsConsumers : d.KeepsConsumers d'

variable (d : Depot)

theorem putsNoneBack_of_eq {d d' : Depot} (h : d'.parcels = d.parcels) : d.PutsNoneBack d' :=
  fun p hp => .inr ⟨p, h ▸ hp, rfl, rfl⟩

theorem putsNoneBack_amend {d d' : Depot} (tag : Nat) (place : Place)
    (h : d'.parcels = (d.amend tag ({ · with place })).parcels) : d.PutsNoneBack d' := by
  intro p hp
  rw [h] at hp
  obtain ⟨old, hold, rfl⟩ := List.mem_map.1 hp
  refine .inr ⟨old, hold, ?_⟩
  split <;> exact ⟨rfl, rfl⟩

theorem keepsConsumers_of_eq {d d' : Depot} (h : d'.queue.queueState = d.queue.queueState) : d.KeepsConsumers d' :=
  fun _ hqueue => h ▸ hqueue

theorem keepsConsumers_of_update {d d' : Depot} {queue : String} {state : QueueState}
    (h : d'.queue.queueState = Function.update d.queue.queueState queue state)
    (hstate : (d.queue.queueState queue).receiver ≠ .free → state.receiver ≠ .free) : d.KeepsConsumers d' := by
  intro name hname
  rw [h]
  by_cases heq : name = queue
  · subst heq
    rw [Function.update_self]
    exact hstate hname
  · rwa [Function.update_of_ne heq]

theorem quiet_publish (queue : String) (message : Outbound) : d.Quiet (d.publish queue message) := by
  obtain ⟨q, hunacked, -, ⟨-, hstate, heq⟩ | ⟨-, hstate, heq⟩⟩ := d.queue.publish_cases queue message
  · rw [publish, heq]
    exact ⟨rfl, hunacked, putsNoneBack_of_eq rfl, keepsConsumers_of_eq hstate⟩
  · rw [publish, heq]
    refine ⟨rfl, hunacked, fun p hp => ?_, keepsConsumers_of_update hstate id⟩
    rcases List.mem_append.1 hp with hp | hp
    · exact .inr ⟨p, hp, rfl, rfl⟩
    · obtain rfl := List.mem_singleton.1 hp
      exact .inl rfl

theorem quiet_create (queue : String) (durable : Bool) : d.Quiet (d.create queue durable) := by
  refine ⟨rfl, (d.queue.create_eq queue durable).1, putsNoneBack_of_eq rfl, fun name hname => ?_⟩
  obtain ⟨b, hstate⟩ := d.queue.queueState_create queue durable name
  rw [create, hstate]
  exact hname

theorem quiet_consume (queue : String) : d.Quiet (d.consume queue) := by
  obtain ⟨q, hunacked, -, ⟨-, hstate, heq⟩ | ⟨-, hstate, heq⟩⟩ := d.queue.consume_cases queue
  all_goals rw [consume, heq]
  · exact ⟨rfl, hunacked, putsNoneBack_of_eq rfl,
      keepsConsumers_of_update hstate fun _ => (by decide : Receiver.taken ≠ .free)⟩
  · exact ⟨rfl, hunacked, putsNoneBack_of_eq rfl, keepsConsumers_of_eq hstate⟩

theorem quiet_abandon (queue : String) : d.Quiet (d.abandon queue) := by
  refine ⟨rfl, rfl, putsNoneBack_of_eq rfl, fun name hname => ?_⟩
  rw [abandon, MemoryQueue.queueState_abandon]
  split
  · exact (by decide : Receiver.gone ≠ .free)
  · exact hname

/-- What is handed out was waiting, and is unacked afterwards. -/
theorem next_cases (queue : String) :
    ((d.queue.next queue).1 = none ∧ d.next queue = d) ∨
      ∃ x, (d.queue.next queue).1 = some x ∧ x ∈ (d.queue.queueState queue).waiting ∧
        (d.next queue).handed = d.handed ++ [(queue, x)] ∧
        (d.next queue).queue.unacked = d.queue.unacked ++ [⟨queue, x⟩] ∧
        d.PutsNoneBack (d.next queue) ∧ d.KeepsConsumers (d.next queue) := by
  rcases d.queue.next_cases queue with ⟨-, heq⟩ | ⟨x, rest, q, hfirst, hstate, hunacked, -, heq⟩
  · rw [next, heq]
    exact .inl ⟨rfl, rfl⟩
  · rw [next, heq]
    exact .inr ⟨x, rfl, hfirst ▸ List.mem_cons_self .., rfl, hunacked, putsNoneBack_amend x.tag .unacked rfl,
      keepsConsumers_of_update hstate id⟩

theorem mem_amend {d : Depot} (h : d.Sound) {p : Parcel} (hp : p ∈ d.parcels) {f : Parcel → Parcel} {p' : Parcel}
    (hp' : p' ∈ (d.amend p.tag f).parcels) : p' ∈ d.parcels ∨ p' = f p := by
  obtain ⟨old, hold, rfl⟩ := List.mem_map.1 hp'
  split
  · rename_i htag
    obtain rfl := h.eq_of_mem_tags hold hp old.tag_mem_tags (htag ▸ p.tag_mem_tags)
    exact .inr rfl
  · exact .inl hold

theorem sound_settle {d : Depot} (h : d.Sound) (tag : Nat) (settlement : Settlement) :
    (d.settle tag settlement).Sound := by
  cases settlement with
  | ack => exact h.ack tag
  | nack requeue => exact h.nack tag requeue

/-- What is settled was unacked, and is so no more.  Only a rejection for another delivery puts it back. -/
theorem settle_cases {d : Depot} (h : d.Sound) (tag : Nat) (settlement : Settlement) :
    (d.queue.findUnacked tag = none ∧ d.settle tag settlement = d) ∨
      ∃ p ∈ d.parcels, p.place = .unacked ∧ p.tag = tag ∧ (d.settle tag settlement).handed = d.handed ∧
        (d.settle tag settlement).queue.unacked = (d.queue.forget tag).unacked ∧
        d.KeepsConsumers (d.settle tag settlement) ∧ ∀ p' ∈ (d.settle tag settlement).parcels,
          (p'.earlier = [] ∨ ∃ o ∈ d.parcels, o.queue = p'.queue ∧ o.earlier = p'.earlier) ∨
            settlement = .nack true ∧ p'.queue = p.queue ∧ p'.earlier = p.tags := by
  cases settlement with
  | ack =>
    rcases d.queue.ack_cases tag with ⟨hnone, heq⟩ | ⟨entry, hfound, heq⟩
    · rw [settle, ack, heq]
      exact .inl ⟨hnone, rfl⟩
    · obtain ⟨p, hp, hplace, rfl, -⟩ := h.exists_of_findUnacked hfound
      rw [settle, ack, heq]
      exact .inr ⟨p, hp, hplace, rfl, rfl, rfl, keepsConsumers_of_eq rfl, fun p' hp' =>
        .inl (putsNoneBack_amend p.tag .acked rfl p' hp')⟩
  | nack requeue =>
    rcases d.queue.nack_cases tag requeue with
      ⟨hnone, heq⟩ | ⟨entry, hfound, ⟨rfl, heq⟩ | ⟨q, rfl, hforget, -, ⟨-, hstate, heq⟩ | ⟨-, hstate, heq⟩⟩⟩
    · rw [settle, nack, heq]
      exact .inl ⟨hnone, rfl⟩
    all_goals
      obtain ⟨p, hp, hplace, rfl, rfl⟩ := h.exists_of_findUnacked hfound
      rw [settle, nack, heq]
      refine .inr ⟨p, hp, hplace, rfl, ?_⟩
    · exact ⟨rfl, rfl, keepsConsumers_of_eq rfl, fun p' hp' => .inl (putsNoneBack_amend p.tag .rejected rfl p' hp')⟩
    · exact ⟨rfl, hforget, keepsConsumers_of_eq hstate, fun p' hp' => .inl (putsNoneBack_amend p.tag .lost rfl p' hp')⟩
    · refine ⟨rfl, hforget, keepsConsumers_of_update hstate id, fun p' hp' => ?_⟩
      rcases mem_amend h hp hp' with hold | rfl
      · exact .inl (.inr ⟨p', hold, rfl, rfl⟩)
      · exact .inr ⟨rfl, rfl, rfl⟩

end Depot

/-! ### Publications that fail -/

inductive Verdict
  | pass
  /-- Whatever is answered, the queue may have the message or not. -/
  | answer (outcome : Publication) (reaches : Bool)

/-- Queues in memory behind a connection on which publications fail. -/
structure Relay where
  depot : Depot := {}
  /-- What becomes of the publications to come; all after these pass. -/
  verdicts : List Verdict := []

instance : Carrier Relay where
  publish relay queue message :=
    let outcome := (Outlet.publish relay.depot.queue queue message).1
    match relay.verdicts with
    | [] => (outcome, { relay with depot := relay.depot.publish queue message })
    | .pass :: verdicts => (outcome, ⟨relay.depot.publish queue message, verdicts⟩)
    | .answer outcome reaches :: verdicts =>
      (outcome, ⟨if reaches then relay.depot.publish queue message else relay.depot, verdicts⟩)
  settle relay tag settlement := { relay with depot := relay.depot.settle tag settlement }

/-- What a publication that reaches its queue keeps is kept by all. -/
theorem Relay.keeps {P : Depot → Prop} (hP : ∀ d queue message, P d → P (d.publish queue message)) :
    Outlet.Keeps fun relay : Relay => P relay.depot := by
  rintro ⟨d, verdicts⟩ queue message h
  have hreached := hP d queue message h
  rcases verdicts with _ | ⟨_ | ⟨outcome, _ | _⟩, verdicts⟩
  · exact hreached
  · exact hreached
  · exact h
  · exact hreached

/-- Only a result that is delivered for the first time is to be delivered again. -/
theorem Hub.fst_handle_eq_nack_true [Outlet σ] {h : Hub α σ} {lookups : Lookups α} {channel : Channel} {x : Delivery}
    {now : Instant} (hnack : (h.handle lookups channel x now).1 = .nack true) :
    channel = .response ∧ x.redelivered = false := by
  cases channel with
  | heartbeat =>
    unfold handle at hnack
    dsimp only at hnack
    split at hnack <;> cases hnack
  | work =>
    unfold handle at hnack
    dsimp only at hnack
    split at hnack <;> cases hnack
  | response =>
    refine ⟨rfl, ?_⟩
    unfold handle processResponse at hnack
    cases hid : x.correlationId with
    | none =>
      simp only [hid] at hnack
      cases hnack
    | some id =>
      rcases h.state.processResponse_cases id x.body x.redelivered h.outlet now with
        ⟨-, hresponse⟩ | ⟨task, -, ⟨-, hresponse⟩ | ⟨-, -, hresponse⟩ | ⟨-, hfirst, -⟩⟩
      · simp only [hid, hresponse] at hnack
        cases hnack
      · simp only [hid, hresponse] at hnack
        cases hnack
      · simp only [hid, hresponse] at hnack
        cases hnack
      · exact hfirst

/-! ### The loops at work -/

inductive Loop
  | unopened
  | refused
  | listening
  | holding (x : Delivery)
  | settling (x : Delivery) (settlement : Settlement)
  | stopped
  deriving DecidableEq

namespace Loop

/-- Whether the loop is, or was, the consumer of its queue. -/
def HasStream : Loop → Prop
  | .unopened | .refused => False
  | .listening | .holding _ | .settling .. | .stopped => True

/-- The message that is taken and not handled. -/
def untreated : Loop → List Delivery
  | .holding x => [x]
  | .unopened | .refused | .listening | .settling .. | .stopped => []

/-- The message that is taken and not settled. -/
def current : Loop → Option Delivery
  | .holding x | .settling x _ => some x
  | .unopened | .refused | .listening | .stopped => none

end Loop

/-- The dispatcher with its loops, and the list of what they have handled. -/
structure Exchange (α : Type) where
  hub : Hub α Relay
  loops : Channel → Loop := fun _ => .unopened
  handled : List (Channel × Delivery) := []

namespace Exchange

def depot (w : Exchange α) : Depot := w.hub.outlet.depot

def withDepot (w : Exchange α) (d : Depot) : Exchange α :=
  { w with hub := { w.hub with outlet := { w.hub.outlet with depot := d } } }

def setLoop (w : Exchange α) (channel : Channel) (loop : Loop) : Exchange α :=
  { w with loops := Function.update w.loops channel loop }

inductive Action (α : Type)
  | listen (channel : Channel)
  | take (channel : Channel)
  | handle (channel : Channel) (lookups : Lookups α) (now : Instant)
  | settle (channel : Channel)
  /-- A loop ends, and its stream with it. -/
  | stop (channel : Channel)
  | pass (strategy : Strategy α) (now : Instant)
  | detect (threshold : Int) (now : Instant)
  | other (op : QueueOp)
  /-- Another consumer goes. -/
  | leave (queue : String)

/-- Others publish where they like, but keep their hands off what the loops are there for. -/
def IsForeign (queues : ChannelQueues) (q : MemoryQueue) : QueueOp → Prop
  | .create .. | .publish .. => True
  | .consume queue | .next queue => queue ∉ queues.names
  | .ack tag | .nack tag _ => ∀ entry ∈ q.unacked, entry.delivery.tag = tag → entry.queue ∉ queues.names

instance (queues : ChannelQueues) (q : MemoryQueue) (op : QueueOp) : Decidable (IsForeign queues q op) :=
  match op with
  | .create .. | .publish .. => inferInstanceAs (Decidable True)
  | .consume queue | .next queue => inferInstanceAs (Decidable (queue ∉ queues.names))
  | .ack tag | .nack tag _ =>
    inferInstanceAs (Decidable (∀ entry ∈ q.unacked, entry.delivery.tag = tag → entry.queue ∉ queues.names))

variable [Quantity α]

/-- The exchange after an action; what cannot be done leaves it as it is. -/
def after (queues : ChannelQueues) (w : Exchange α) : Action α → Exchange α
  | .listen channel =>
    if w.loops channel = .unopened then
      match (w.depot.queue.consume (queues.queue channel)).1 with
      | .ok () => (w.withDepot (w.depot.consume (queues.queue channel))).setLoop channel .listening
      | .error _ => (w.withDepot (w.depot.consume (queues.queue channel))).setLoop channel .refused
    else w
  | .take channel =>
    if w.loops channel = .listening then
      match (w.depot.queue.next (queues.queue channel)).1 with
      | some x => (w.withDepot (w.depot.next (queues.queue channel))).setLoop channel (.holding x)
      | none => w
    else w
  | .handle channel lookups now =>
    match w.loops channel with
    | .holding x =>
      let (settlement, hub) := w.hub.handle lookups channel x now
      { w.setLoop channel (.settling x settlement) with hub, handled := w.handled ++ [(channel, x)] }
    | _ => w
  | .settle channel =>
    match w.loops channel with
    | .settling x settlement =>
      { w.setLoop channel .listening with
        hub := { w.hub with outlet := Carrier.settle w.hub.outlet x.tag settlement } }
    | _ => w
  | .stop channel =>
    if w.loops channel = .listening then
      (w.withDepot (w.depot.abandon (queues.queue channel))).setLoop channel .stopped
    else w
  | .pass strategy now => { w with hub := (w.hub.pass strategy now).2 }
  | .detect threshold now => { w with hub := (w.hub.detect threshold now).2 }
  | .other op => if IsForeign queues w.depot.queue op then w.withDepot (w.depot.after op) else w
  | .leave queue => if queue ∈ queues.names then w else w.withDepot (w.depot.abandon queue)

def run (queues : ChannelQueues) (w : Exchange α) (actions : List (Action α)) : Exchange α :=
  actions.foldl (after queues) w

end Exchange

/-! ### What the loops have in hand -/

def handledBy (handled : List (Channel × Delivery)) (channel : Channel) : List Delivery :=
  (handled.filter (·.1 == channel)).map (·.2)

theorem mem_handledBy {handled : List (Channel × Delivery)} {channel : Channel} {x : Delivery} :
    x ∈ handledBy handled channel ↔ (channel, x) ∈ handled := by
  simp [handledBy]

def handledOf (handled : List (Channel × Delivery)) (p : Parcel) : List Delivery :=
  (handled.map (·.2)).filter (·.tag ∈ p.tags)

/-- What the loop of one channel has to do with the books. -/
structure Hand (queues : ChannelQueues) (handled : List (Channel × Delivery)) (d : Depot) (c : Channel) (l : Loop) :
    Prop where
  claimed : l.HasStream → (d.queue.queueState (queues.queue c)).receiver ≠ .free
  /-- It handles what it takes, in that order. -/
  log : l.HasStream → Depot.about (queues.queue c) d.handed = handledBy handled c ++ l.untreated
  worked : ∀ x, (c, x) ∈ handled → l.HasStream
  current : ∀ x, l.current = some x → ⟨queues.queue c, x⟩ ∈ d.queue.unacked
  again : ∀ x, l = .settling x (.nack true) → c = .response ∧ x.redelivered = false
  /-- What it has handled is being settled, or is unacked no more. -/
  done : ∀ x, (c, x) ∈ handled →
    (∃ settlement, l = .settling x settlement) ∨ ∀ entry ∈ d.queue.unacked, entry.delivery.tag ≠ x.tag

/-- Which channels have, or had, the stream of their queue. -/
structure Streams (queues : ChannelQueues) (has : Channel → Prop) (d : Depot) : Prop where
  alone : ∀ c c', has c → has c' → queues.queue c = queues.queue c' → c = c'
  untouched : ∀ c, (∀ c', queues.queue c' = queues.queue c → ¬ has c') → Depot.about (queues.queue c) d.handed = []
  /-- Only what came out of the channel for results is put back, and only once. -/
  once : ∀ p ∈ d.parcels, p.queue ∈ queues.names → p.earlier ≠ [] →
    p.earlier.length = 1 ∧ p.queue = queues.response ∧ has .response

/-- The loops and the books agree on what was taken, handled and settled. -/
structure Custody (queues : ChannelQueues) (loops : Channel → Loop) (handled : List (Channel × Delivery))
    (d : Depot) : Prop where
  sound : d.Sound
  streams : Streams queues (fun c => (loops c).HasStream) d
  hands : ∀ c, Hand queues handled d c (loops c)
  /-- What is unacked in a queue of the dispatcher is in the hand of a loop. -/
  owned : ∀ entry ∈ d.queue.unacked, entry.queue ∈ queues.names →
    ∃ c, queues.queue c = entry.queue ∧ (loops c).current = some entry.delivery

namespace Loop

theorem hasStream_of_current {l : Loop} {x : Delivery} (h : l.current = some x) : l.HasStream := by
  cases l with
  | unopened | refused | listening | stopped => cases h
  | holding | settling => trivial

theorem ne_settling_of_current {l : Loop} (h : l.current = none) (x : Delivery) (settlement : Settlement) :
    l ≠ .settling x settlement := by
  rintro rfl
  cases h

theorem untreated_of_current {l : Loop} (h : l.current = none) : l.untreated = [] := by
  cases l with
  | unopened | refused | listening | stopped => rfl
  | holding | settling => cases h

end Loop

namespace Hand

variable {queues : ChannelQueues} {handled : List (Channel × Delivery)} {d d' : Depot} {c : Channel} {l : Loop}

theorem mem_handed (h : Hand queues handled d c l) {x : Delivery} (hx : (c, x) ∈ handled) :
    (queues.queue c, x) ∈ d.handed := by
  rw [← Depot.mem_about, h.log (h.worked x hx)]
  exact List.mem_append_left _ (mem_handledBy.2 hx)

theorem quiet (h : Hand queues handled d c l) (hquiet : d.Quiet d') : Hand queues handled d' c l where
  claimed hl := hquiet.keepsConsumers _ (h.claimed hl)
  log hl := hquiet.handed ▸ h.log hl
  worked := h.worked
  current x hx := hquiet.unacked ▸ h.current x hx
  again := h.again
  done x hx := hquiet.unacked ▸ h.done x hx

/-- A loop with nothing in hand may have nothing in hand in another way. -/
theorem rest (h : Hand queues handled d c l) {l' : Loop} (hstream : l'.HasStream ↔ l.HasStream)
    (hold : l.current = none) (hnew : l'.current = none) : Hand queues handled d c l' where
  claimed hl := h.claimed (hstream.1 hl)
  log hl := by
    rw [h.log (hstream.1 hl), Loop.untreated_of_current hold, Loop.untreated_of_current hnew]
  worked x hx := hstream.2 (h.worked x hx)
  current x hx := by cases hnew.symm.trans hx
  again x hx := absurd hx (Loop.ne_settling_of_current hnew _ _)
  done x hx := by
    rcases h.done x hx with ⟨settlement, hl⟩ | hnone
    · exact absurd hl (Loop.ne_settling_of_current hold _ _)
    · exact .inr hnone

/-- What was handled is not what is handed out next. -/
private theorem done_of_append (h : Hand queues handled d c l) (hd : d.Sound) {queue : String} {x : Delivery}
    (hx : x ∈ (d.queue.queueState queue).waiting) (hunacked : d'.queue.unacked = d.queue.unacked ++ [⟨queue, x⟩])
    {y : Delivery} (hy : (c, y) ∈ handled) :
    (∃ settlement, l = .settling y settlement) ∨ ∀ entry ∈ d'.queue.unacked, entry.delivery.tag ≠ y.tag := by
  refine (h.done y hy).imp_right fun hnone entry hentry => ?_
  rw [hunacked, List.mem_append, List.mem_singleton] at hentry
  rcases hentry with hentry | rfl
  · exact hnone entry hentry
  · exact (hd.tag_ne_of_handed hx (h.mem_handed hy)).symm

theorem next_of_ne (h : Hand queues handled d c l) (hd : d.Sound) {queue : String} {x : Delivery}
    (hx : x ∈ (d.queue.queueState queue).waiting) (hhanded : d'.handed = d.handed ++ [(queue, x)])
    (hunacked : d'.queue.unacked = d.queue.unacked ++ [⟨queue, x⟩]) (hkeeps : d.KeepsConsumers d')
    (hne : l.HasStream → queue ≠ queues.queue c) : Hand queues handled d' c l where
  claimed hl := hkeeps _ (h.claimed hl)
  log hl := by
    rw [hhanded, Depot.about_append, Depot.about_singleton, if_neg (hne hl), List.append_nil]
    exact h.log hl
  worked := h.worked
  current y hy := hunacked ▸ List.mem_append_left _ (h.current y hy)
  again := h.again
  done _ hy := h.done_of_append hd hx hunacked hy

theorem next (h : Hand queues handled d c .listening) (hd : d.Sound) {x : Delivery}
    (hx : x ∈ (d.queue.queueState (queues.queue c)).waiting)
    (hhanded : d'.handed = d.handed ++ [(queues.queue c, x)])
    (hunacked : d'.queue.unacked = d.queue.unacked ++ [⟨queues.queue c, x⟩]) (hkeeps : d.KeepsConsumers d') :
    Hand queues handled d' c (.holding x) where
  claimed _ := hkeeps _ (h.claimed trivial)
  log _ := by
    rw [hhanded, Depot.about_append, Depot.about_singleton, if_pos rfl, h.log trivial, List.append_assoc]
    rfl
  worked _ _ := trivial
  current y hy := by
    rw [hunacked, ← Option.some.inj hy]
    exact List.mem_append_right _ (List.mem_singleton_self _)
  again := by rintro y ⟨⟩
  done y hy := by
    rcases h.done_of_append hd hx hunacked hy with ⟨settlement, hl⟩ | hnone
    · cases hl
    · exact .inr hnone

theorem handled_of_ne (h : Hand queues handled d c l) {c' : Channel} (hne : c' ≠ c) (x : Delivery) :
    Hand queues (handled ++ [(c', x)]) d c l := by
  have hmem {y : Delivery} (hy : (c, y) ∈ handled ++ [(c', x)]) : (c, y) ∈ handled := by
    rcases List.mem_append.1 hy with hy | hy
    · exact hy
    · rw [List.mem_singleton, Prod.mk.injEq] at hy
      exact absurd hy.1.symm hne
  refine ⟨h.claimed, fun hl => ?_, fun y hy => h.worked y (hmem hy), h.current, h.again, fun y hy => h.done y (hmem hy)⟩
  simp [h.log hl, handledBy, List.filter_append, hne]

theorem handle {x : Delivery} (h : Hand queues handled d c (.holding x)) {settlement : Settlement}
    (hsettlement : settlement = .nack true → c = .response ∧ x.redelivered = false) :
    Hand queues (handled ++ [(c, x)]) d c (.settling x settlement) where
  claimed _ := h.claimed trivial
  log _ := by
    rw [h.log trivial, handledBy, handledBy, List.filter_append, List.map_append, List.append_assoc]
    simp [Loop.untreated]
  worked _ _ := trivial
  current := h.current
  again y hy := by
    rw [Loop.settling.injEq] at hy
    exact hy.1 ▸ hsettlement hy.2
  done y hy := by
    rcases List.mem_append.1 hy with hy | hy
    · rcases h.done y hy with ⟨_, hl⟩ | hnone
      · cases hl
      · exact .inr hnone
    · rw [List.mem_singleton, Prod.mk.injEq] at hy
      exact .inl ⟨settlement, hy.2 ▸ rfl⟩

theorem forget_of_ne (h : Hand queues handled d c l) {tag : Nat} (hhanded : d'.handed = d.handed)
    (hunacked : d'.queue.unacked = (d.queue.forget tag).unacked) (hkeeps : d.KeepsConsumers d')
    (hne : ∀ x, l.current = some x → x.tag ≠ tag) : Hand queues handled d' c l where
  claimed hl := hkeeps _ (h.claimed hl)
  log hl := hhanded ▸ h.log hl
  worked := h.worked
  current x hx := by
    rw [hunacked, MemoryQueue.mem_forget]
    exact ⟨h.current x hx, hne x hx⟩
  again := h.again
  done x hx := by
    refine (h.done x hx).imp_right fun hnone entry hentry => ?_
    rw [hunacked, MemoryQueue.mem_forget] at hentry
    exact hnone entry hentry.1

theorem forget {x : Delivery} {settlement : Settlement} (h : Hand queues handled d c (.settling x settlement))
    (hhanded : d'.handed = d.handed) (hunacked : d'.queue.unacked = (d.queue.forget x.tag).unacked)
    (hkeeps : d.KeepsConsumers d') : Hand queues handled d' c .listening where
  claimed _ := hkeeps _ (h.claimed trivial)
  log _ := hhanded ▸ h.log trivial
  worked _ _ := trivial
  current := by rintro y ⟨⟩
  again := by rintro y ⟨⟩
  done y hy := by
    refine .inr fun entry hentry => ?_
    rw [hunacked, MemoryQueue.mem_forget] at hentry
    rcases h.done y hy with ⟨_, hl⟩ | hnone
    · rw [Loop.settling.injEq] at hl
      exact hl.1 ▸ hentry.2
    · exact hnone entry hentry.1

end Hand

namespace Streams

variable {queues : ChannelQueues} {has : Channel → Prop} {d d' : Depot}

/-- What holds of the messages that were put back holds of one that has only been put back like another. -/
private theorem once_of_like (h : Streams queues has d) {p' : Parcel}
    (hlike : p'.earlier = [] ∨ ∃ p ∈ d.parcels, p.queue = p'.queue ∧ p.earlier = p'.earlier)
    (hours : p'.queue ∈ queues.names) (hearlier : p'.earlier ≠ []) :
    p'.earlier.length = 1 ∧ p'.queue = queues.response ∧ has .response := by
  obtain ⟨p, hp, hqueue, hsame⟩ := hlike.resolve_left hearlier
  rw [← hqueue] at hours ⊢
  rw [← hsame] at hearlier ⊢
  exact h.once p hp hours hearlier

theorem of_handed_eq (h : Streams queues has d) (hhanded : d'.handed = d.handed) (hputs : d.PutsNoneBack d') :
    Streams queues has d' where
  alone := h.alone
  untouched := hhanded ▸ h.untouched
  once p hp := h.once_of_like (hputs p hp)

/-- A message is handed out of a queue that is no queue of the dispatcher, or has its loop. -/
theorem of_handed_append (h : Streams queues has d) {queue : String} {x : Delivery}
    (hhanded : d'.handed = d.handed ++ [(queue, x)]) (hputs : d.PutsNoneBack d')
    (hqueue : queue ∉ queues.names ∨ ∃ c, queues.queue c = queue ∧ has c) : Streams queues has d' where
  alone := h.alone
  untouched c hnone := by
    have hne : queue ≠ queues.queue c := by
      rintro rfl
      rcases hqueue with hforeign | ⟨c', hsame, hc'⟩
      · exact hforeign (ChannelQueues.mem_names.2 ⟨c, rfl⟩)
      · exact hnone c' hsame hc'
    rw [hhanded, Depot.about_append, Depot.about_singleton, if_neg hne, List.append_nil]
    exact h.untouched c hnone
  once p hp := h.once_of_like (hputs p hp)

theorem insert (h : Streams queues has d) {c : Channel} {has' : Channel → Prop}
    (hfirst : ∀ c', queues.queue c' = queues.queue c → ¬ has c') (hhas : ∀ c', has' c' ↔ c' = c ∨ has c') :
    Streams queues has' d where
  alone c₁ c₂ h₁ h₂ hqueue := by
    rcases (hhas c₁).1 h₁ with rfl | h₁
    · rcases (hhas c₂).1 h₂ with rfl | h₂
      · rfl
      · exact absurd h₂ (hfirst c₂ hqueue.symm)
    · rcases (hhas c₂).1 h₂ with rfl | h₂
      · exact absurd h₁ (hfirst c₁ hqueue)
      · exact h.alone c₁ c₂ h₁ h₂ hqueue
  untouched c' hnone := h.untouched c' fun c'' hqueue hc'' => hnone c'' hqueue ((hhas c'').2 (.inr hc''))
  once p hp hours hearlier := by
    obtain ⟨hlength, hqueue, hresponse⟩ := h.once p hp hours hearlier
    exact ⟨hlength, hqueue, (hhas _).2 (.inr hresponse)⟩

end Streams

namespace Custody

variable {queues : ChannelQueues} {loops : Channel → Loop} {handled : List (Channel × Delivery)} {d d' : Depot}

theorem quiet (h : Custody queues loops handled d) (hd' : d'.Sound) (hquiet : d.Quiet d') :
    Custody queues loops handled d' where
  sound := hd'
  streams := h.streams.of_handed_eq hquiet.handed hquiet.putsNoneBack
  hands c := (h.hands c).quiet hquiet
  owned entry hentry := h.owned entry (hquiet.unacked ▸ hentry)

private theorem hasStream_update {c : Channel} {l : Loop} (hl : l.HasStream ↔ (loops c).HasStream) :
    (fun c' => (Function.update loops c l c').HasStream) = fun c' => (loops c').HasStream := by
  funext c'
  by_cases hc : c' = c
  · subst hc
    rw [Function.update_self]
    exact propext hl
  · rw [Function.update_of_ne hc]

private theorem current_update_of_none {c c' : Channel} (l : Loop) {x : Delivery} (hc : (loops c).current = none)
    (hx : (loops c').current = some x) : (Function.update loops c l c').current = some x := by
  have hne : c' ≠ c := by
    rintro rfl
    cases hc.symm.trans hx
  rwa [Function.update_of_ne hne]

theorem rest (h : Custody queues loops handled d) {c : Channel} {l : Loop} (hstream : l.HasStream ↔ (loops c).HasStream)
    (hold : (loops c).current = none) (hnew : l.current = none) :
    Custody queues (Function.update loops c l) handled d where
  sound := h.sound
  streams := hasStream_update hstream ▸ h.streams
  hands := (Function.forall_update_iff loops fun c' => Hand queues handled d c').2
    ⟨(h.hands c).rest hstream hold hnew, fun c' _ => h.hands c'⟩
  owned entry hentry hours := by
    obtain ⟨c', hqueue, hx⟩ := h.owned entry hentry hours
    exact ⟨c', hqueue, current_update_of_none l hold hx⟩

theorem listen (h : Custody queues loops handled d) {c : Channel} (hc : loops c = .unopened)
    (hfirst : ∀ c', queues.queue c' = queues.queue c → ¬ (loops c').HasStream)
    (hclaimed : (d.queue.queueState (queues.queue c)).receiver ≠ .free) :
    Custody queues (Function.update loops c .listening) handled d where
  sound := h.sound
  streams := by
    refine h.streams.insert hfirst fun c' => ?_
    by_cases hne : c' = c
    · subst hne
      rw [Function.update_self]
      exact iff_of_true trivial (.inl rfl)
    · rw [Function.update_of_ne hne]
      exact ⟨.inr, fun h => h.resolve_left hne⟩
  hands := by
    have hnothing : ∀ x, (c, x) ∉ handled := by
      intro x hx
      have hthere := (h.hands c).worked x hx
      rw [hc] at hthere
      exact hthere
    have hlog : Depot.about (queues.queue c) d.handed = handledBy handled c ++ Loop.untreated .listening := by
      have hempty : handledBy handled c = [] := by
        rw [List.eq_nil_iff_forall_not_mem]
        exact fun x hx => hnothing x (mem_handledBy.1 hx)
      rw [h.streams.untouched c hfirst, hempty]
      rfl
    refine (Function.forall_update_iff loops fun c' => Hand queues handled d c').2 ⟨?_, fun c' _ => h.hands c'⟩
    exact ⟨fun _ => hclaimed, fun _ => hlog, fun _ _ => trivial, by rintro x ⟨⟩, by rintro x ⟨⟩,
      fun x hx => absurd hx (hnothing x)⟩
  owned entry hentry hours := by
    obtain ⟨c', hqueue, hx⟩ := h.owned entry hentry hours
    exact ⟨c', hqueue, current_update_of_none .listening (hc ▸ rfl) hx⟩

theorem next_of_notMem (h : Custody queues loops handled d) (hd' : d'.Sound) {queue : String}
    (hforeign : queue ∉ queues.names) {x : Delivery} (hx : x ∈ (d.queue.queueState queue).waiting)
    (hhanded : d'.handed = d.handed ++ [(queue, x)]) (hunacked : d'.queue.unacked = d.queue.unacked ++ [⟨queue, x⟩])
    (hputs : d.PutsNoneBack d') (hkeeps : d.KeepsConsumers d') : Custody queues loops handled d' where
  sound := hd'
  streams := h.streams.of_handed_append hhanded hputs (.inl hforeign)
  hands c := by
    refine (h.hands c).next_of_ne h.sound hx hhanded hunacked hkeeps ?_
    rintro - rfl
    exact hforeign (ChannelQueues.mem_names.2 ⟨c, rfl⟩)
  owned entry hentry hours := by
    rw [hunacked, List.mem_append, List.mem_singleton] at hentry
    rcases hentry with hentry | rfl
    · exact h.owned entry hentry hours
    · exact absurd hours hforeign

theorem take (h : Custody queues loops handled d) (hd' : d'.Sound) {c : Channel} (hc : loops c = .listening)
    {x : Delivery} (hx : x ∈ (d.queue.queueState (queues.queue c)).waiting)
    (hhanded : d'.handed = d.handed ++ [(queues.queue c, x)])
    (hunacked : d'.queue.unacked = d.queue.unacked ++ [⟨queues.queue c, x⟩])
    (hputs : d.PutsNoneBack d') (hkeeps : d.KeepsConsumers d') :
    Custody queues (Function.update loops c (.holding x)) handled d' where
  sound := hd'
  streams := by
    have hstream : (Loop.holding x).HasStream ↔ (loops c).HasStream := iff_of_true trivial (hc ▸ trivial)
    rw [hasStream_update hstream]
    exact h.streams.of_handed_append hhanded hputs (.inr ⟨c, rfl, hc ▸ trivial⟩)
  hands := by
    refine (Function.forall_update_iff loops fun c' => Hand queues handled d' c').2 ⟨?_, fun c' hne => ?_⟩
    · exact (hc ▸ h.hands c).next h.sound hx hhanded hunacked hkeeps
    · -- no other loop has this queue
      refine (h.hands c').next_of_ne h.sound hx hhanded hunacked hkeeps fun hc' hqueue => hne ?_
      exact h.streams.alone c' c hc' (hc ▸ trivial) hqueue.symm
  owned entry hentry hours := by
    rw [hunacked, List.mem_append, List.mem_singleton] at hentry
    rcases hentry with hentry | rfl
    · obtain ⟨c', hqueue, hy⟩ := h.owned entry hentry hours
      exact ⟨c', hqueue, current_update_of_none (.holding x) (hc ▸ rfl) hy⟩
    · exact ⟨c, rfl, by rw [Function.update_self]; rfl⟩

theorem handle (h : Custody queues loops handled d) {c : Channel} {x : Delivery} (hc : loops c = .holding x)
    {settlement : Settlement} (hsettlement : settlement = .nack true → c = .response ∧ x.redelivered = false) :
    Custody queues (Function.update loops c (.settling x settlement)) (handled ++ [(c, x)]) d where
  sound := h.sound
  streams := by
    have hstream : (Loop.settling x settlement).HasStream ↔ (loops c).HasStream := iff_of_true trivial (hc ▸ trivial)
    exact hasStream_update hstream ▸ h.streams
  hands := (Function.forall_update_iff loops fun c' => Hand queues (handled ++ [(c, x)]) d c').2
    ⟨(hc ▸ h.hands c).handle hsettlement, fun c' hne => (h.hands c').handled_of_ne hne.symm x⟩
  owned entry hentry hours := by
    obtain ⟨c', hqueue, hy⟩ := h.owned entry hentry hours
    refine ⟨c', hqueue, ?_⟩
    by_cases hne : c' = c
    · subst hne
      rw [Function.update_self, ← hy, hc]
      rfl
    · rwa [Function.update_of_ne hne]

theorem settle_of_notMem (h : Custody queues loops handled d) {tag : Nat} (settlement : Settlement)
    (hforeign : ∀ entry ∈ d.queue.unacked, entry.delivery.tag = tag → entry.queue ∉ queues.names) :
    Custody queues loops handled (d.settle tag settlement) := by
  rcases Depot.settle_cases h.sound tag settlement with ⟨-, heq⟩ |
    ⟨p, hp, hplace, rfl, hhanded, hunacked, hkeeps, hparcels⟩
  · rw [heq]
    exact h
  refine ⟨Depot.sound_settle h.sound p.tag settlement, ⟨h.streams.alone, hhanded ▸ h.streams.untouched, ?_⟩, ?_, ?_⟩
  · intro p' hp' hours hearlier
    rcases hparcels p' hp' with hlike | ⟨-, hqueue, -⟩
    · exact h.streams.once_of_like hlike hours hearlier
    · rw [hqueue] at hours
      exact absurd hours (hforeign _ ((h.sound.unacked_iff hp).1 hplace) rfl)
  · intro c
    refine (h.hands c).forget_of_ne hhanded hunacked hkeeps fun x hx htag => ?_
    exact hforeign _ ((h.hands c).current x hx) htag (ChannelQueues.mem_names.2 ⟨c, rfl⟩)
  · intro entry hentry hours
    rw [hunacked, MemoryQueue.mem_forget] at hentry
    exact h.owned entry hentry.1 hours

theorem settle (h : Custody queues loops handled d) {c : Channel} {x : Delivery} {settlement : Settlement}
    (hc : loops c = .settling x settlement) :
    Custody queues (Function.update loops c .listening) handled (d.settle x.tag settlement) := by
  have hx : ⟨queues.queue c, x⟩ ∈ d.queue.unacked := (h.hands c).current x (hc ▸ rfl)
  rcases Depot.settle_cases h.sound x.tag settlement with ⟨hnone, -⟩ |
    ⟨p, hp, hplace, htag, hhanded, hunacked, hkeeps, hparcels⟩
  · exact absurd rfl (MemoryQueue.findUnacked_eq_none_iff.1 hnone _ hx)
  have hparcel : (⟨p.queue, p.delivery⟩ : Unacked) = ⟨queues.queue c, x⟩ :=
    h.sound.eq_of_unacked ((h.sound.unacked_iff hp).1 hplace) hx htag
  obtain ⟨hqueue, rfl⟩ := Unacked.mk.injEq .. ▸ hparcel
  have hstream : Loop.listening.HasStream ↔ (loops c).HasStream := iff_of_true trivial (hc ▸ trivial)
  constructor
  case sound => exact Depot.sound_settle h.sound p.tag settlement
  case streams =>
    rw [hasStream_update hstream]
    refine ⟨h.streams.alone, hhanded ▸ h.streams.untouched, fun p' hp' hours hearlier => ?_⟩
    rcases hparcels p' hp' with hlike | ⟨rfl, hqueue', hsame⟩
    · exact h.streams.once_of_like hlike hours hearlier
    · -- only a result that was not put back before is put back
      obtain ⟨rfl, hfirst⟩ := (h.hands c).again p.delivery hc
      have hnil : p.earlier = [] := by
        rw [Parcel.delivery, Parcel.copy, decide_eq_false_iff_not, Nat.pos_iff_ne_zero, not_not] at hfirst
        exact List.length_eq_zero_iff.1 hfirst
      refine ⟨?_, hqueue'.trans hqueue, hc ▸ trivial⟩
      rw [hsame, Parcel.tags, hnil]
      rfl
  case hands =>
    refine (Function.forall_update_iff loops fun c' => Hand queues handled _ c').2 ⟨?_, fun c' hne => ?_⟩
    · exact (hc ▸ h.hands c).forget hhanded hunacked hkeeps
    · -- one tag is one message of one queue, and the queue has one loop
      refine (h.hands c').forget_of_ne hhanded hunacked hkeeps fun y hy htag => hne ?_
      have hsame := h.sound.eq_of_unacked ((h.hands c').current y hy) hx htag
      exact h.streams.alone c' c (Loop.hasStream_of_current hy) (hc ▸ trivial) (congrArg Unacked.queue hsame)
  case owned =>
    intro entry hentry hours
    rw [hunacked, MemoryQueue.mem_forget] at hentry
    obtain ⟨c', hqueue', hy⟩ := h.owned entry hentry.1 hours
    have hne : c' ≠ c := by
      rintro rfl
      rw [hc, Loop.current, Option.some.injEq] at hy
      exact hentry.2 (congrArg Delivery.tag hy.symm)
    exact ⟨c', hqueue', (congrArg _ (Function.update_of_ne hne ..)).trans hy⟩

/-! ### How often a message is handled -/

/-- A message of the dispatcher has one copy or, as a result, two, of which the second is marked. -/
theorem copies_cases (h : Custody queues loops handled d) {p : Parcel} (hp : p ∈ d.parcels)
    (hours : p.queue ∈ queues.names) :
    p.copies = [p.delivery] ∨ p.queue = queues.response ∧ ∃ first, p.copies = [first, p.delivery] ∧
      first.redelivered = false ∧ p.delivery.redelivered = true := by
  rw [p.copies_eq]
  by_cases hnil : p.earlier = []
  · rw [hnil]
    exact .inl rfl
  · obtain ⟨hlength, hqueue, -⟩ := h.streams.once p hp hours hnil
    obtain ⟨tag, htag⟩ := List.length_eq_one_iff.1 hlength
    refine .inr ⟨hqueue, p.copy tag false, ?_, rfl, ?_⟩
    · rw [htag]
      rfl
    · rw [Parcel.delivery, htag]
      rfl

/-- What is handled is a copy of a message of the channel; a beat or a work item has no other copy. -/
theorem exists_parcel (h : Custody queues loops handled d) {c : Channel} {x : Delivery} (hx : (c, x) ∈ handled) :
    ∃ p ∈ d.parcels, p.queue = queues.queue c ∧ x ∈ p.copies ∧ (c ≠ .response → p.copies = [x]) := by
  have hput : (queues.queue c, x) ∈ d.puts := h.sound.mem_puts_iff.2 (.inl ((h.hands c).mem_handed hx))
  obtain ⟨p, hp, hqueue, hcopy⟩ := h.sound.mem_puts_iff_copies.1 hput
  refine ⟨p, hp, hqueue, hcopy, fun hne => ?_⟩
  have hnil : p.earlier = [] := by
    by_contra hearlier
    have hours : p.queue ∈ queues.names := ChannelQueues.mem_names.2 ⟨c, hqueue.symm⟩
    obtain ⟨-, hresponse, hthere⟩ := h.streams.once p hp hours hearlier
    exact hne (h.streams.alone c .response ((h.hands c).worked x hx) hthere (hqueue.symm.trans hresponse))
  have hone : p.copies = [p.delivery] := by
    rw [p.copies_eq, hnil]
    rfl
  rw [hone, List.mem_singleton] at hcopy
  rw [hone, hcopy]

private theorem queue_eq_of_mem (h : Custody queues loops handled d) {c : Channel} {x : Delivery}
    (hx : (c, x) ∈ handled) {p : Parcel} (hp : p ∈ d.parcels) (htag : x.tag ∈ p.tags) : queues.queue c = p.queue := by
  obtain ⟨p', hp', hqueue, hcopy, -⟩ := h.exists_parcel hx
  have htag' : x.tag ∈ p'.tags := p'.tags_copies ▸ List.mem_map_of_mem hcopy
  rw [← hqueue, h.sound.eq_of_mem_tags hp' hp htag' htag]

private theorem handledOf_eq (h : Custody queues loops handled d) {c : Channel} (hc : (loops c).HasStream) {p : Parcel}
    (hp : p ∈ d.parcels) (hqueue : queues.queue c = p.queue) :
    handledOf handled p = (handledBy handled c).filter (·.tag ∈ p.tags) := by
  rw [handledOf, handledBy, List.filter_map, List.filter_map, List.filter_filter]
  congr 1
  refine List.filter_congr fun a ha => ?_
  by_cases htag : a.2.tag ∈ p.tags
  · have hsame : a.1 = c := by
      have hqueue' := h.queue_eq_of_mem ha hp htag
      exact h.streams.alone a.1 c ((h.hands a.1).worked a.2 ha) hc (hqueue'.trans hqueue.symm)
    simp [htag, hsame]
  · simp [htag]

/-- A loop that does not hold a message as it is now holds no copy of it. -/
private theorem untreated_filter_eq_nil (h : Custody queues loops handled d) {c : Channel} {p : Parcel}
    (hp : p ∈ d.parcels) (hheld : loops c ≠ .holding p.delivery) :
    (loops c).untreated.filter (·.tag ∈ p.tags) = [] := by
  rw [List.filter_eq_nil_iff]
  intro x hx htag
  have htag' : x.tag ∈ p.tags := of_decide_eq_true htag
  cases hl : loops c with
  | holding y =>
    rw [hl] at hx
    obtain rfl := List.mem_singleton.1 hx
    have hentry := (h.hands c).current x (hl ▸ rfl)
    rw [h.sound.unacked.mem_iff, List.mem_flatMap] at hentry
    obtain ⟨p', hp', hthere⟩ := hentry
    obtain ⟨-, hsame⟩ := Parcel.mem_inHand.1 hthere
    obtain ⟨-, rfl⟩ := Unacked.mk.injEq .. ▸ hsame
    obtain rfl := h.sound.eq_of_mem_tags hp hp' htag' p'.tag_mem_tags
    exact hheld hl
  | unopened | refused | listening | settling | stopped =>
    rw [hl] at hx
    cases hx

/-- The copies of a message are handled in their order.  All are, unless one waits or is in the hand of its loop. -/
theorem handledOf_prefix (h : Custody queues loops handled d) {p : Parcel} (hp : p ∈ d.parcels)
    (hours : p.queue ∈ queues.names) :
    handledOf handled p <+: p.copies ∧
      (p.place = .waiting ∨ (∃ c, loops c = .holding p.delivery) ∨ handledOf handled p = p.copies) := by
  have hcopies := h.sound.copies_eq hp
  by_cases howner : ∃ c, queues.queue c = p.queue ∧ (loops c).HasStream
  · -- the loop has handled what was handed out, except for what it holds
    obtain ⟨c, hqueue, hc⟩ := howner
    have hlog := (h.hands c).log hc
    rw [hqueue] at hlog
    rw [hlog, List.filter_append, ← h.handledOf_eq hc hp hqueue, List.append_assoc] at hcopies
    refine ⟨⟨_, hcopies.symm⟩, ?_⟩
    by_cases hplace : p.place = .waiting
    · exact .inl hplace
    by_cases hheld : loops c = .holding p.delivery
    · exact .inr (.inl ⟨c, hheld⟩)
    refine .inr (.inr ?_)
    rw [h.sound.waiting_filter_eq_nil hp hplace, h.untreated_filter_eq_nil hp hheld, List.append_nil,
      List.append_nil] at hcopies
    exact hcopies.symm
  · -- nobody has taken anything out of the queue
    obtain ⟨c, hqueue⟩ := ChannelQueues.mem_names.1 hours
    have hnone : ∀ c', queues.queue c' = queues.queue c → ¬ (loops c').HasStream :=
      fun c' hqueue' hc' => howner ⟨c', hqueue'.trans hqueue, hc'⟩
    have huntouched := h.streams.untouched c hnone
    rw [hqueue] at huntouched
    rw [huntouched, List.filter_nil, List.nil_append] at hcopies
    have hunhandled : handledOf handled p = [] := by
      rw [handledOf, List.filter_eq_nil_iff]
      intro x hx htag
      obtain ⟨a, ha, rfl⟩ := List.mem_map.1 hx
      exact howner ⟨a.1, h.queue_eq_of_mem ha hp (by simpa using htag), (h.hands a.1).worked a.2 ha⟩
    rw [hunhandled]
    refine ⟨List.nil_prefix, .inl ((h.sound.waiting_iff hp).2 ?_)⟩
    have hmem := p.delivery_mem_copies
    rw [hcopies] at hmem
    exact (List.mem_filter.1 hmem).1

end Custody

namespace Exchange

variable [Quantity α] {queues : ChannelQueues} {w : Exchange α}

def InOrder (queues : ChannelQueues) (w : Exchange α) : Prop := Custody queues w.loops w.handled w.depot

private theorem custody_of_publish {loops : Channel → Loop} {handled : List (Channel × Delivery)} :
    Outlet.Keeps fun relay : Relay => Custody queues loops handled relay.depot :=
  Relay.keeps fun d queue message h => h.quiet (h.sound.publish queue message) (d.quiet_publish queue message)

private theorem inOrder_listen (h : w.InOrder queues) (channel : Channel) :
    (w.after queues (.listen channel)).InOrder queues := by
  by_cases hloop : w.loops channel = .unopened
  · have hnew : ¬ (w.loops channel).HasStream := by rw [hloop]; exact id
    have hquiet := h.quiet (h.sound.consume (queues.queue channel)) (w.depot.quiet_consume _)
    obtain ⟨q, -, -, ⟨hfree, hstate, heq⟩ | ⟨-, -, heq⟩⟩ := w.depot.queue.consume_cases (queues.queue channel)
    · have hafter : w.after queues (.listen channel) =
          (w.withDepot (w.depot.consume (queues.queue channel))).setLoop channel .listening := by
        simp only [after, if_pos hloop, heq]
      rw [hafter]
      refine hquiet.listen hloop (fun c hqueue hc => ?_) ?_
      · exact (h.hands c).claimed hc (hqueue ▸ hfree)
      · rw [Depot.consume, heq]
        change (q.queueState _).receiver ≠ .free
        rw [hstate, Function.update_self]
        exact (by decide : Receiver.taken ≠ .free)
    · have hafter : w.after queues (.listen channel) =
          (w.withDepot (w.depot.consume (queues.queue channel))).setLoop channel .refused := by
        simp only [after, if_pos hloop, heq]
      rw [hafter]
      exact hquiet.rest (iff_of_false id hnew) (hloop ▸ rfl) rfl
  · have hafter : w.after queues (.listen channel) = w := if_neg hloop
    rwa [hafter]

private theorem inOrder_take (h : w.InOrder queues) (channel : Channel) :
    (w.after queues (.take channel)).InOrder queues := by
  by_cases hloop : w.loops channel = .listening
  · rcases w.depot.next_cases (queues.queue channel) with
      ⟨hnone, -⟩ | ⟨x, hsome, hx, hhanded, hunacked, hputs, hkeeps⟩
    · have hafter : w.after queues (.take channel) = w := by simp only [after, if_pos hloop, hnone]
      rwa [hafter]
    · have hafter : w.after queues (.take channel) =
          (w.withDepot (w.depot.next (queues.queue channel))).setLoop channel (.holding x) := by
        simp only [after, if_pos hloop, hsome]
      rw [hafter]
      exact h.take (h.sound.next _) hloop hx hhanded hunacked hputs hkeeps
  · have hafter : w.after queues (.take channel) = w := if_neg hloop
    rwa [hafter]

private theorem inOrder_handle (h : w.InOrder queues) (channel : Channel) (lookups : Lookups α) (now : Instant) :
    (w.after queues (.handle channel lookups now)).InOrder queues := by
  cases hloop : w.loops channel with
  | holding x =>
    have hkept : Custody queues w.loops w.handled (w.hub.handle lookups channel x now).2.outlet.depot :=
      Hub.keeps_handle custody_of_publish h lookups channel x now
    have hafter : w.after queues (.handle channel lookups now) =
        { w.setLoop channel (.settling x (w.hub.handle lookups channel x now).1) with
          hub := (w.hub.handle lookups channel x now).2, handled := w.handled ++ [(channel, x)] } := by
      simp only [after, hloop]
    rw [hafter]
    exact hkept.handle hloop Hub.fst_handle_eq_nack_true
  | unopened | refused | listening | settling | stopped =>
    have hafter : w.after queues (.handle channel lookups now) = w := by simp only [after, hloop]
    rwa [hafter]

private theorem inOrder_settle (h : w.InOrder queues) (channel : Channel) :
    (w.after queues (.settle channel)).InOrder queues := by
  cases hloop : w.loops channel with
  | settling x settlement =>
    have hafter : w.after queues (.settle channel) =
        (w.withDepot (w.depot.settle x.tag settlement)).setLoop channel .listening := by
      simp only [after, hloop]
      rfl
    rw [hafter]
    exact h.settle hloop
  | unopened | refused | listening | holding | stopped =>
    have hafter : w.after queues (.settle channel) = w := by simp only [after, hloop]
    rwa [hafter]

private theorem inOrder_other (h : w.InOrder queues) (op : QueueOp) : (w.after queues (.other op)).InOrder queues := by
  by_cases hforeign : IsForeign queues w.depot.queue op
  · have hafter : w.after queues (.other op) = w.withDepot (w.depot.after op) := if_pos hforeign
    rw [hafter]
    cases op with
    | create queue durable => exact h.quiet (h.sound.create ..) (w.depot.quiet_create queue durable)
    | publish queue message => exact h.quiet (h.sound.publish ..) (w.depot.quiet_publish queue message)
    | consume queue => exact h.quiet (h.sound.consume _) (w.depot.quiet_consume queue)
    | next queue =>
      rcases w.depot.next_cases queue with ⟨-, heq⟩ | ⟨x, -, hx, hhanded, hunacked, hputs, hkeeps⟩
      · change Custody queues w.loops w.handled (w.depot.next queue)
        rw [heq]
        exact h
      · exact h.next_of_notMem (h.sound.next queue) hforeign hx hhanded hunacked hputs hkeeps
    | ack tag => exact h.settle_of_notMem .ack hforeign
    | nack tag requeue => exact h.settle_of_notMem (.nack requeue) hforeign
  · have hafter : w.after queues (.other op) = w := if_neg hforeign
    rwa [hafter]

theorem InOrder.after (h : w.InOrder queues) (action : Action α) : (w.after queues action).InOrder queues := by
  cases action with
  | listen channel => exact inOrder_listen h channel
  | take channel => exact inOrder_take h channel
  | handle channel lookups now => exact inOrder_handle h channel lookups now
  | settle channel => exact inOrder_settle h channel
  | stop channel =>
    by_cases hloop : w.loops channel = .listening
    · have hquiet := h.quiet (h.sound.abandon (queues.queue channel)) (w.depot.quiet_abandon _)
      have hafter : w.after queues (.stop channel) =
          (w.withDepot (w.depot.abandon (queues.queue channel))).setLoop channel .stopped := if_pos hloop
      rw [hafter]
      exact hquiet.rest (iff_of_true trivial (hloop ▸ trivial)) (hloop ▸ rfl) rfl
    · have hafter : w.after queues (.stop channel) = w := if_neg hloop
      rwa [hafter]
  | pass strategy now =>
    dsimp only [InOrder, depot, Exchange.after]
    exact Hub.keeps_pass custody_of_publish h strategy now
  | detect threshold now =>
    dsimp only [InOrder, depot, Exchange.after]
    exact Hub.keeps_detect custody_of_publish h threshold now
  | other op => exact inOrder_other h op
  | leave queue =>
    by_cases hours : queue ∈ queues.names
    · have hafter : w.after queues (.leave queue) = w := if_pos hours
      rwa [hafter]
    · have hafter : w.after queues (.leave queue) = w.withDepot (w.depot.abandon queue) := if_neg hours
      rw [hafter]
      exact h.quiet (h.sound.abandon queue) (w.depot.quiet_abandon queue)

theorem InOrder.run (h : w.InOrder queues) (actions : List (Action α)) : (w.run queues actions).InOrder queues := by
  induction actions generalizing w with
  | nil => exact h
  | cons action rest ih => exact ih (h.after action)

omit [Quantity α] in
theorem inOrder_start (queues : ChannelQueues) (state : DispatchState α) (verdicts : List Verdict) :
    InOrder queues ({ hub := { state, outlet := { verdicts } } } : Exchange α) where
  sound := Depot.sound_empty
  streams := ⟨fun _ _ hc => hc.elim, fun _ _ => rfl, fun _ hp => absurd hp List.not_mem_nil⟩
  hands _ := ⟨False.elim, False.elim, fun _ hx => absurd hx List.not_mem_nil, by rintro x ⟨⟩, by rintro x ⟨⟩,
    fun _ hx => absurd hx List.not_mem_nil⟩
  owned _ hentry := absurd hentry List.not_mem_nil

/-- In any run, each message of a queue of the dispatcher is handled in the order of its copies, of which there are two
at most, and two only for a result; the second is marked.  It waits, or a loop has just taken it, or all its copies are
handled, each once.  Nothing else is handled, beats and work items are never put back, and what was handled is unacked
under its tag only until its loop has settled it. -/
theorem redelivery_ends (queues : ChannelQueues) (state : DispatchState α) (verdicts : List Verdict)
    (actions : List (Action α)) :
    let w : Exchange α := run queues { hub := { state, outlet := { verdicts } } } actions
    let d := w.depot
    d.Sound ∧
    (∀ p ∈ d.parcels, p.queue ∈ queues.names →
      handledOf w.handled p <+: p.copies ∧
      (p.copies = [p.delivery] ∨ p.queue = queues.response ∧ ∃ first, p.copies = [first, p.delivery] ∧
        first.redelivered = false ∧ p.delivery.redelivered = true) ∧
      (p.place = .waiting ∨ (∃ c, w.loops c = .holding p.delivery) ∨ handledOf w.handled p = p.copies) ∧
      (p.place = .unacked → ∃ c, queues.queue c = p.queue ∧ (w.loops c).current = some p.delivery)) ∧
    (∀ c x, (c, x) ∈ w.handled →
      (∃ p ∈ d.parcels, p.queue = queues.queue c ∧ x ∈ p.copies ∧ (c ≠ .response → p.copies = [x])) ∧
      ((∃ settlement, w.loops c = .settling x settlement) ∨ d.queue.findUnacked x.tag = none)) := by
  intro w d
  have h : Custody queues w.loops w.handled d := (inOrder_start queues state verdicts).run actions
  refine ⟨h.sound, fun p hp hours => ?_, fun c x hx => ⟨h.exists_parcel hx, ?_⟩⟩
  · obtain ⟨hsome, hall⟩ := h.handledOf_prefix hp hours
    exact ⟨hsome, h.copies_cases hp hours, hall, fun hplace =>
      h.owned _ ((h.sound.unacked_iff hp).1 hplace) hours⟩
  · exact ((h.hands c).done x hx).imp_right MemoryQueue.findUnacked_eq_none_iff.2

-- the caller cannot be reached the first time, and the result of its task comes twice
example :
    let queues : ChannelQueues := ⟨"beats", "work", "results"⟩
    let task : Task Rat := Task.arrive "t" ⟨"A", 1, 1⟩ 1 0 { payload := [123], replyTo := some "caller" }
    let state := ((DispatchState.start 60 3 "results" 0 : DispatchState Rat).addTask task 0).2
    let lookups : Lookups Rat := ⟨fun _ => .ok ⟨"A", 1, 1⟩, fun _ => .ok 1⟩
    let round : List (Action Rat) := [.take .response, .handle .response lookups 0, .settle .response]
    (run queues { hub := { state, outlet := { verdicts := [.answer .stalled false] } } }
      ([.other (.publish "results" { body := [], correlationId := some "t" }), .listen .response] ++
        round ++ round ++ round)).handled.map (·.2.redelivered) = [false, true] := by
  decide

end Exchange

end SpeechDispatch
