import SpeechDispatch.Proofs.DispatchState
import SpeechDispatch.Proofs.Run

/-!
# What publishing keeps

The dispatcher reaches its outlet by publishing only.  So what every publication keeps (`Outlet.Keeps`), whether it ends
well or not, is kept by all that the dispatcher does (`Hub.keeps_pass`, `Hub.keeps_handle`, `Hub.keeps_detect`).
-/

namespace SpeechDispatch

variable {α σ : Type} [Outlet σ]

/-- What holds of an outlet holds after any publication. -/
def Outlet.Keeps (P : σ → Prop) : Prop :=
  ∀ (outlet : σ) (queue : String) (message : Outbound), P outlet → P (Outlet.publish outlet queue message).2

variable {P : σ → Prop} (hP : Outlet.Keeps P)

include hP

theorem Outlet.Keeps.publishWithin {outlet : σ} (h : P outlet) (timeoutMillis : Nat) (queue : String)
    (message : Outbound) : P (Outlet.publishWithin outlet timeoutMillis queue message).2 := by
  have hpublished := hP outlet queue message h
  unfold Outlet.publishWithin
  rcases hanswer : Outlet.publish outlet queue message with ⟨_ | _ | _, outlet'⟩
  all_goals
    rw [hanswer] at hpublished
    exact hpublished

namespace DispatchState

variable (s : DispatchState α) {outlet : σ} (h : P outlet)

include h

theorem keeps_startOn [Quantity α] (id queue : String) (now : Instant) :
    P (s.startOn id queue outlet now).2.2 := by
  rcases s.startOn_cases id queue outlet now with ⟨_, -, hstart⟩ | ⟨task, _, outlet', -, hpublish, hstart⟩ |
    ⟨task, _, outlet', -, -, -, -, hpublish, hstart⟩
  · rw [hstart]
    exact h
  all_goals
    have hpublished := hP.publishWithin h s.publishTimeoutMillis queue (s.dispatchMessage task)
    rw [hpublish] at hpublished
    rw [hstart]
    exact hpublished

theorem keeps_forward (task : Task α) (body : Bytes) : P (s.forward task body outlet).2 := by
  unfold forward
  cases task.origin.replyTo with
  | none => exact h
  | some replyTo => exact hP.publishWithin h _ replyTo _

theorem keeps_processResponse (id : String) (body : Bytes) (redelivered : Bool) (now : Instant) :
    P (s.processResponse id body redelivered outlet now).2.2 := by
  rcases s.processResponse_cases id body redelivered outlet now with
    ⟨-, hresponse⟩ | ⟨task, -, ⟨-, hresponse⟩ | ⟨-, -, hresponse⟩ | ⟨-, -, hresponse⟩⟩
  · rw [hresponse]
    exact h
  all_goals
    rw [hresponse]
    exact keeps_forward hP s h task body

end DispatchState

namespace Hub

section Pass

variable [Quantity α]

theorem keeps_offer {h : Hub α σ} (hh : P h.outlet) (strategy : Strategy α) (queue : String) (now : Instant) :
    P (h.offer strategy queue now).2.outlet := by
  unfold offer
  dsimp only
  split
  · exact hh
  split
  · exact hh
  split
  · rename_i id _
    have hstarted := DispatchState.keeps_startOn hP h.state hh id queue now
    unfold dispatch
    rcases hstart : h.state.startOn id queue h.outlet now with ⟨_ | _, state, outlet⟩
    all_goals
      rw [hstart] at hstarted
      exact hstarted
  · exact hh
  · exact hh

theorem keeps_offerAll {h : Hub α σ} (hh : P h.outlet) (strategy : Strategy α) (now : Instant) (queues : List String) :
    P (h.offerAll strategy now queues).2.outlet := by
  induction queues generalizing h with
  | nil => exact hh
  | cons queue rest ih => exact ih (keeps_offer hP hh strategy queue now)

theorem keeps_pass {h : Hub α σ} (hh : P h.outlet) (strategy : Strategy α) (now : Instant) :
    P (h.pass strategy now).2.outlet := by
  have hpruned : P (h.prune now).outlet := hh
  rw [outlet_pass]
  exact keeps_offerAll hP hpruned strategy now _

end Pass

theorem keeps_notifyAll {outlet : σ} (h : P outlet) (notices : List (Task α × String)) :
    P (notifyAll outlet notices).2 := by
  induction notices generalizing outlet with
  | nil => exact h
  | cons notice rest ih =>
    unfold notifyAll
    cases notice.1.origin.replyTo with
    | none => exact ih h
    | some replyTo =>
      have hpublished := hP outlet replyTo (failureMessage notice.1 notice.2) h
      dsimp only
      rcases hanswer : Outlet.publish outlet replyTo (failureMessage notice.1 notice.2) with ⟨_ | _ | _, outlet'⟩
      all_goals rw [hanswer] at hpublished
      · exact ih hpublished
      · exact ih hpublished
      · exact hpublished

theorem keeps_detect {h : Hub α σ} (hh : P h.outlet) (threshold : Int) (now : Instant) :
    P (h.detect threshold now).2.outlet := by
  rw [outlet_detect]
  exact keeps_notifyAll hP hh _

/-- Beats and work items do not touch the outlet at all. -/
theorem keeps_handle {h : Hub α σ} (hh : P h.outlet) (lookups : Lookups α) (channel : Channel) (delivery : Delivery)
    (now : Instant) : P (h.handle lookups channel delivery now).2.outlet := by
  rw [outlet_handle]
  split
  · exact DispatchState.keeps_processResponse hP h.state hh _ _ _ _
  · exact hh

end Hub

end SpeechDispatch
