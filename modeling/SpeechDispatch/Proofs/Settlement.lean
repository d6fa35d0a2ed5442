import SpeechDispatch.Proofs.OutletInvariant
import SpeechDispatch.Proofs.Transcript

/-!
# Every delivery is settled once and counted

What becomes of a delivery depends on the channel by which it comes and on a few questions about it (`Hub.Fate`).  Only
a result that could not be forwarded is rejected, and every work item and every result is counted by one counter.

A docket is a carrier with the list of how deliveries were settled on it.  It shows that a delivery is settled once, by
its own tag (`Hub.settled_and_counted`).
-/

namespace SpeechDispatch

variable {α σ : Type}

/-! ### Dockets -/

/-- A carrier with the list of how deliveries were settled on it, in order. -/
structure Docket (σ : Type) where
  carrier : σ
  settled : List (Nat × Settlement) := []

namespace Docket

variable [Carrier σ]

instance : Carrier (Docket σ) where
  publish docket queue message :=
    let (outcome, carrier) := Outlet.publish docket.carrier queue message
    (outcome, { docket with carrier })
  settle docket tag settlement :=
    ⟨Carrier.settle docket.carrier tag settlement, docket.settled ++ [(tag, settlement)]⟩

theorem isView_carrier : Outlet.IsView (Docket.carrier : Docket σ → σ) := fun _ _ _ => rfl

/-- A publication settles nothing. -/
theorem keeps_settled (settled : List (Nat × Settlement)) :
    Outlet.Keeps fun docket : Docket σ => docket.settled = settled := fun _ _ _ h => h

end Docket

/-! ### Counters -/

namespace Metrics

/-- The counters of the listener. -/
inductive Counter
  | received
  | dropped
  | forwarded
  | forwardFailures
  | unknownCorrelations
  deriving DecidableEq

/-- The metrics with a counter grown by one. -/
def counted (m : Metrics) : Counter → Metrics
  | .received => { m with received := m.received + 1 }
  | .dropped => { m with dropped := m.dropped + 1 }
  | .forwarded => { m with forwarded := m.forwarded + 1 }
  | .forwardFailures => { m with forwardFailures := m.forwardFailures + 1 }
  | .unknownCorrelations => { m with unknownCorrelations := m.unknownCorrelations + 1 }

/-- What the listener counted in all. -/
def total (m : Metrics) : Nat :=
  m.received + m.dropped + m.forwarded + m.forwardFailures + m.unknownCorrelations

theorem total_counted (m : Metrics) (counter : Counter) : (m.counted counter).total = m.total + 1 := by
  unfold total
  cases counter <;> simp only [counted] <;> omega

theorem counted_ne_self (m : Metrics) (counter : Counter) : m.counted counter ≠ m := by
  intro h
  have htotal := m.total_counted counter
  rw [h] at htotal
  omega

theorem counted_injective (m : Metrics) : Function.Injective m.counted := by
  intro a b h
  have hreceived := congrArg Metrics.received h
  have hdropped := congrArg Metrics.dropped h
  have hforwarded := congrArg Metrics.forwarded h
  have hfailures := congrArg Metrics.forwardFailures h
  cases a <;> cases b <;> first | rfl | (simp only [counted] at *; omega)

/-- It can be told from the metrics which counter has grown, and whether one has. -/
theorem elim_counted_eq_iff (m : Metrics) (counter : Option Counter) :
    (∀ c, counter.elim m m.counted = m.counted c ↔ counter = some c) ∧
      (counter.elim m m.counted = m ↔ counter = none) := by
  cases counter with
  | none => exact ⟨fun c => ⟨fun h => absurd h.symm (m.counted_ne_self c), nofun⟩, fun _ => rfl, fun _ => rfl⟩
  | some a =>
    refine ⟨fun c => ?_, fun h => absurd h (m.counted_ne_self a), nofun⟩
    rw [Option.some.injEq]
    exact m.counted_injective.eq_iff

end Metrics

/-- The counters that count what comes by a channel. -/
def Channel.counters : Channel → List Metrics.Counter
  | .heartbeat => [.dropped]
  | .work => [.received, .dropped]
  | .response => [.forwarded, .forwardFailures, .unknownCorrelations, .dropped]

namespace Hub

/-! ### What becomes of a delivery -/

/-- A registration message cannot be read or is not taken. -/
def RegistrationFails (h : Hub α σ) (delivery : Delivery) (now : Instant) : Prop :=
  (∃ e, Registration.decode delivery.body = .error e) ∨
    ∃ message e, Registration.decode delivery.body = .ok message ∧
      (h.state.applyRegistration message now).1 = .error e

/-- A work item gives no task, or its task is not taken. -/
def WorkFails (h : Hub α σ) (lookups : Lookups α) (delivery : Delivery) (now : Instant) : Prop :=
  (∃ e, taskOf lookups delivery now = .error e) ∨
    ∃ task e, taskOf lookups delivery now = .ok task ∧ (h.state.addTask task now).1 = .error e

private theorem registrationFails_iff_of_decode (h : Hub α σ) {delivery : Delivery} (now : Instant)
    {message : Registration} (hdecode : Registration.decode delivery.body = .ok message) :
    h.RegistrationFails delivery now ↔ ∃ e, (h.state.applyRegistration message now).1 = .error e := by
  simp only [RegistrationFails, hdecode, reduceCtorEq, exists_false, false_or, Except.ok.injEq, exists_and_left,
    exists_eq_left']

private theorem workFails_iff_of_taskOf (h : Hub α σ) {lookups : Lookups α} {delivery : Delivery} {now : Instant}
    {task : Task α} (htask : taskOf lookups delivery now = .ok task) :
    h.WorkFails lookups delivery now ↔ ∃ e, (h.state.addTask task now).1 = .error e := by
  simp only [WorkFails, htask, reduceCtorEq, exists_false, false_or, Except.ok.injEq, exists_and_left,
    exists_eq_left']

variable [Outlet σ]

/-- A result is that of a task whose caller left an address, and is not accepted there. -/
def ForwardFails (h : Hub α σ) (delivery : Delivery) : Prop :=
  ∃ id task replyTo, delivery.correlationId = some id ∧ h.state.tasks.get? id = some task ∧
    task.origin.replyTo = some replyTo ∧
    (Outlet.publish h.outlet replyTo ⟨delivery.body, some task.callerCorrelation, none⟩).1.isAccepted = false

/-- How a delivery is settled, and which counter counts it. -/
inductive Fate (h : Hub α σ) (lookups : Lookups α) (delivery : Delivery) (now : Instant) :
    Channel → Settlement → Option Metrics.Counter → Prop
  | beat (htaken : ¬ h.RegistrationFails delivery now) : Fate h lookups delivery now .heartbeat .ack none
  | badBeat (hfails : h.RegistrationFails delivery now) : Fate h lookups delivery now .heartbeat .ack (some .dropped)
  | work (htaken : ¬ h.WorkFails lookups delivery now) : Fate h lookups delivery now .work .ack (some .received)
  | badWork (hfails : h.WorkFails lookups delivery now) : Fate h lookups delivery now .work .ack (some .dropped)
  | unaddressed (hid : delivery.correlationId = none) : Fate h lookups delivery now .response .ack (some .dropped)
  | unknown {id} (hid : delivery.correlationId = some id) (htask : h.state.tasks.get? id = none) :
    Fate h lookups delivery now .response .ack (some .unknownCorrelations)
  | forwarded {id task} (hid : delivery.correlationId = some id) (htask : h.state.tasks.get? id = some task)
    (haccepted : ¬ h.ForwardFails delivery) : Fate h lookups delivery now .response .ack (some .forwarded)
  | unforwarded (hfails : h.ForwardFails delivery) :
    Fate h lookups delivery now .response (.nack !delivery.redelivered) (some .forwardFailures)

private theorem forward_ne_ok_iff {h : Hub α σ} {delivery : Delivery} {id : String} {task : Task α}
    (hid : delivery.correlationId = some id) (htask : h.state.tasks.get? id = some task) :
    (h.state.forward task delivery.body h.outlet).1 ≠ .ok () ↔ h.ForwardFails delivery := by
  have hok : (h.state.forward task delivery.body h.outlet).1 = .ok () ↔
      (h.state.forward task delivery.body h.outlet).1.isOk = true := by
    rcases (h.state.forward task delivery.body h.outlet).1 with e | _
    · exact ⟨nofun, nofun⟩
    · exact ⟨fun _ => rfl, fun _ => rfl⟩
  rw [Ne, hok, Bool.not_eq_true]
  constructor
  · intro hfails
    unfold DispatchState.forward at hfails
    cases hreply : task.origin.replyTo with
    | none =>
      rw [hreply] at hfails
      cases hfails
    | some replyTo =>
      rw [hreply] at hfails
      exact ⟨id, task, replyTo, hid, htask, hreply, by rwa [← isOk_publishWithin]⟩
  · rintro ⟨id', task', replyTo, hid', htask', hreply, hrefused⟩
    obtain rfl := Option.some.inj (hid.symm.trans hid')
    obtain rfl := Option.some.inj (htask.symm.trans htask')
    unfold DispatchState.forward
    rw [hreply]
    dsimp only
    rw [isOk_publishWithin, hrefused]

/-- A delivery is handled according to its fate. -/
theorem fate_handle (h : Hub α σ) (lookups : Lookups α) (channel : Channel) (delivery : Delivery) (now : Instant) :
    ∃ counter, Fate h lookups delivery now channel (h.handle lookups channel delivery now).1 counter ∧
      (h.handle lookups channel delivery now).2.metrics = counter.elim h.metrics h.metrics.counted := by
  cases channel with
  | heartbeat =>
    unfold handle processRegistration
    dsimp only
    cases hdecode : Registration.decode delivery.body with
    | error e => exact ⟨some .dropped, .badBeat (.inl ⟨e, hdecode⟩), rfl⟩
    | ok message =>
      have hfails := h.registrationFails_iff_of_decode now hdecode
      dsimp only
      generalize h.state.applyRegistration message now = result at hfails ⊢
      rcases result with ⟨e | changed, state⟩
      · exact ⟨some .dropped, .badBeat (hfails.2 ⟨e, rfl⟩), rfl⟩
      · refine ⟨none, .beat fun h => ?_, by cases changed <;> rfl⟩
        obtain ⟨e, herror⟩ := hfails.1 h
        cases herror
  | work =>
    unfold handle processWorkItem
    dsimp only
    cases htask : taskOf lookups delivery now with
    | error e => exact ⟨some .dropped, .badWork (.inl ⟨e, htask⟩), rfl⟩
    | ok task =>
      have hfails := h.workFails_iff_of_taskOf htask
      dsimp only
      generalize h.state.addTask task now = result at hfails ⊢
      rcases result with ⟨e | _, state⟩
      · exact ⟨some .dropped, .badWork (hfails.2 ⟨e, rfl⟩), rfl⟩
      · refine ⟨some .received, .work fun h => ?_, rfl⟩
        obtain ⟨e, herror⟩ := hfails.1 h
        cases herror
  | response =>
    unfold handle processResponse
    dsimp only
    cases hid : delivery.correlationId with
    | none => exact ⟨some .dropped, .unaddressed hid, rfl⟩
    | some id =>
      dsimp only
      rcases h.state.processResponse_cases id delivery.body delivery.redelivered h.outlet now with
        ⟨hnone, hresponse⟩ | ⟨task, htask, ⟨hok, hresponse⟩ | ⟨hfails, hseen, hresponse⟩ | ⟨hfails, hseen, hresponse⟩⟩
      all_goals rw [hresponse]
      · exact ⟨some .unknownCorrelations, .unknown hid hnone, rfl⟩
      · refine ⟨some .forwarded, .forwarded hid htask fun h => ?_, rfl⟩
        exact (forward_ne_ok_iff hid htask).2 h hok
      all_goals
        refine ⟨some .forwardFailures, ?_, rfl⟩
        have hfate : Fate h lookups delivery now .response (.nack !delivery.redelivered) (some .forwardFailures) :=
          .unforwarded ((forward_ne_ok_iff hid htask).1 hfails)
        rwa [hseen] at hfate

namespace Fate

variable {h : Hub α σ} {lookups : Lookups α} {channel : Channel} {delivery : Delivery} {now : Instant}
  {settlement : Settlement} {counter : Option Metrics.Counter}

/-- Only a registration message that is taken is not counted. -/
theorem exists_counter (hfate : Fate h lookups delivery now channel settlement counter)
    (hchannel : channel ≠ .heartbeat) : ∃ c ∈ channel.counters, counter = some c := by
  cases hfate with
  | beat | badBeat => exact absurd rfl hchannel
  | work | badWork | unaddressed | unknown | forwarded | unforwarded => exact ⟨_, by decide, rfl⟩

theorem registrationFails_iff (hfate : Fate h lookups delivery now .heartbeat settlement counter) :
    (counter = some .dropped ↔ h.RegistrationFails delivery now) ∧
      (counter = none ↔ ¬ h.RegistrationFails delivery now) := by
  cases hfate with
  | beat htaken => exact ⟨⟨nofun, fun hfails => absurd hfails htaken⟩, fun _ => htaken, fun _ => rfl⟩
  | badBeat hfails => exact ⟨⟨fun _ => hfails, fun _ => rfl⟩, nofun, fun htaken => absurd hfails htaken⟩

theorem workFails_iff (hfate : Fate h lookups delivery now .work settlement counter) :
    (counter = some .dropped ↔ h.WorkFails lookups delivery now) ∧
      (counter = some .received ↔ ¬ h.WorkFails lookups delivery now) := by
  cases hfate with
  | work htaken => exact ⟨⟨nofun, fun hfails => absurd hfails htaken⟩, fun _ => htaken, fun _ => rfl⟩
  | badWork hfails => exact ⟨⟨fun _ => hfails, fun _ => rfl⟩, nofun, fun htaken => absurd hfails htaken⟩

theorem forwardFails_iff (hfate : Fate h lookups delivery now .response settlement counter) :
    (counter = some .forwardFailures ↔ h.ForwardFails delivery) ∧
      (counter = some .dropped ↔ delivery.correlationId = none) ∧
      (counter = some .unknownCorrelations ↔
        ∃ id, delivery.correlationId = some id ∧ h.state.tasks.get? id = none) := by
  cases hfate with
  | unaddressed hid =>
    have hnot : ¬ h.ForwardFails delivery := by
      rintro ⟨id, task, replyTo, hsome, -⟩
      rw [hid] at hsome
      cases hsome
    simp [hnot, hid]
  | unknown hid htask =>
    have hnot : ¬ h.ForwardFails delivery := by
      rintro ⟨id, task, replyTo, hsome, hthere, -⟩
      obtain rfl := Option.some.inj (hid.symm.trans hsome)
      rw [htask] at hthere
      cases hthere
    simp [hnot, hid, htask]
  | forwarded hid htask haccepted => simp [haccepted, hid, htask]
  | unforwarded hfails =>
    obtain ⟨id, task, replyTo, hid, htask, -⟩ := id hfails
    simp [hfails, hid, htask]

theorem eq_nack_iff (hfate : Fate h lookups delivery now channel settlement counter) (requeue : Bool) :
    settlement = .nack requeue ↔
      channel = .response ∧ delivery.redelivered = !requeue ∧ h.ForwardFails delivery := by
  have hresponse : channel = .response → (counter = some .forwardFailures ↔ h.ForwardFails delivery) := by
    rintro rfl
    exact hfate.forwardFails_iff.1
  cases hfate with
  | beat | badBeat | work | badWork => exact ⟨nofun, nofun⟩
  | unaddressed | unknown | forwarded =>
    refine ⟨nofun, ?_⟩
    rintro ⟨-, -, hfails⟩
    cases (hresponse rfl).2 hfails
  | unforwarded hfails =>
    rw [Settlement.nack.injEq, Bool.not_eq_eq_eq_not]
    exact ⟨fun hseen => ⟨rfl, hseen, hfails⟩, fun h => h.2.1⟩

theorem eq_ack_iff (hfate : Fate h lookups delivery now channel settlement counter) :
    settlement = .ack ↔ ¬ (channel = .response ∧ h.ForwardFails delivery) := by
  cases settlement with
  | ack =>
    refine ⟨fun _ => ?_, fun _ => rfl⟩
    rintro ⟨hresponse, hfails⟩
    have hnack := (hfate.eq_nack_iff (!delivery.redelivered)).2 ⟨hresponse, (Bool.not_not _).symm, hfails⟩
    cases hnack
  | nack requeue =>
    obtain ⟨hresponse, -, hfails⟩ := (hfate.eq_nack_iff requeue).1 rfl
    exact ⟨nofun, fun hnot => absurd ⟨hresponse, hfails⟩ hnot⟩

end Fate

end Hub

/-! ### Settlements and counts -/

namespace Hub

variable [Carrier σ]

/-- A hub whose carrier has a docket, with nothing on it. -/
def watched (h : Hub α σ) : Hub α (Docket σ) :=
  { state := h.state, signal := h.signal, metrics := h.metrics, outlet := { carrier := h.outlet } }

theorem through_receive (h : Hub α (Docket σ)) (lookups : Lookups α) (channel : Channel) (delivery : Delivery)
    (now : Instant) : (h.receive lookups channel delivery now).through Docket.carrier =
      (h.through Docket.carrier).receive lookups channel delivery now := by
  rw [receive_eq, receive_eq, handle_through Docket.isView_carrier]
  rfl

theorem settled_receive (h : Hub α (Docket σ)) (lookups : Lookups α) (channel : Channel) (delivery : Delivery)
    (now : Instant) : (h.receive lookups channel delivery now).outlet.settled =
      h.outlet.settled ++ [(delivery.tag, ((h.through Docket.carrier).handle lookups channel delivery now).1)] := by
  have hkept := keeps_handle (Docket.keeps_settled h.outlet.settled) (h := h) rfl lookups channel delivery now
  rw [receive_eq, handle_through Docket.isView_carrier, ← hkept]
  rfl

/-- A delivery is settled once, by its own tag.  It is rejected if and only if it is a result that could not be
forwarded, and then it comes again if it comes for the first time.  A work item is counted by one of two counters, a
result by one of four, and a registration message only if it fails. -/
theorem settled_and_counted (h : Hub α σ) (lookups : Lookups α) (channel : Channel) (delivery : Delivery)
    (now : Instant) :
    (h.watched.receive lookups channel delivery now).through Docket.carrier =
        h.receive lookups channel delivery now ∧
      ∃ settlement,
        (h.watched.receive lookups channel delivery now).outlet.settled = [(delivery.tag, settlement)] ∧
        (∀ requeue, settlement = .nack requeue ↔
          channel = .response ∧ delivery.redelivered = !requeue ∧ h.ForwardFails delivery) ∧
        (settlement = .ack ↔ ¬ (channel = .response ∧ h.ForwardFails delivery)) ∧
        (channel ≠ .heartbeat → ∃! counter, counter ∈ channel.counters ∧
          (h.receive lookups channel delivery now).metrics = h.metrics.counted counter) ∧
        match channel with
        | .heartbeat =>
          ((h.receive lookups channel delivery now).metrics = h.metrics.counted .dropped ↔
            h.RegistrationFails delivery now) ∧
          ((h.receive lookups channel delivery now).metrics = h.metrics ↔ ¬ h.RegistrationFails delivery now)
        | .work =>
          ((h.receive lookups channel delivery now).metrics = h.metrics.counted .dropped ↔
            h.WorkFails lookups delivery now) ∧
          ((h.receive lookups channel delivery now).metrics = h.metrics.counted .received ↔
            ¬ h.WorkFails lookups delivery now)
        | .response =>
          ((h.receive lookups channel delivery now).metrics = h.metrics.counted .forwardFailures ↔
            h.ForwardFails delivery) ∧
          ((h.receive lookups channel delivery now).metrics = h.metrics.counted .dropped ↔
            delivery.correlationId = none) ∧
          ((h.receive lookups channel delivery now).metrics = h.metrics.counted .unknownCorrelations ↔
            ∃ id, delivery.correlationId = some id ∧ h.state.tasks.get? id = none) := by
  obtain ⟨counter, hfate, hmetrics⟩ := h.fate_handle lookups channel delivery now
  have hleft : (h.receive lookups channel delivery now).metrics = counter.elim h.metrics h.metrics.counted := by
    rw [receive_eq]
    exact hmetrics
  obtain ⟨hcounted, hsame⟩ := h.metrics.elim_counted_eq_iff counter
  rw [← hleft] at hcounted hsame
  refine ⟨h.watched.through_receive lookups channel delivery now, _,
    h.watched.settled_receive lookups channel delivery now, hfate.eq_nack_iff, hfate.eq_ack_iff, ?_, ?_⟩
  · intro hchannel
    obtain ⟨c, hmem, hc⟩ := hfate.exists_counter hchannel
    refine ⟨c, ⟨hmem, (hcounted c).2 hc⟩, ?_⟩
    rintro other ⟨-, hother⟩
    exact Option.some.inj (((hcounted other).1 hother).symm.trans hc)
  · cases channel with
    | heartbeat =>
      simp only [hcounted, hsame]
      exact hfate.registrationFails_iff
    | work =>
      simp only [hcounted]
      exact hfate.workFails_iff
    | response =>
      simp only [hcounted]
      exact hfate.forwardFails_iff

end Hub

end SpeechDispatch
