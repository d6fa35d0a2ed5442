import SpeechDispatch.Proofs.Run

/-!
# What is attempted on an outlet

A transcript is an outlet with the list of all that was attempted on it, in order, and with what success.  Nothing else
depends on the list (`Transcript.isView_outlet`), so what the dispatcher attempts can be read off without changing what
it does: a start attempts one message, and only if its guards have passed (`attempts_startOn`), a result is attempted
once where the caller left an address (`attempts_processResponse`), and so is a notice (`Hub.tells_of_mem_attempts`).
-/

namespace SpeechDispatch

variable {α σ : Type}

def Publication.isAccepted : Publication → Bool
  | .accepted => true
  | .refused _ | .stalled => false

/-- A message that was handed to an outlet, and whether it was accepted. -/
structure Attempt where
  queue : String
  message : Outbound
  accepted : Bool
  deriving DecidableEq

/-- An outlet with the list of what was attempted on it, in order. -/
structure Transcript (σ : Type) where
  outlet : σ
  attempts : List Attempt := []

variable [Outlet σ]

namespace Transcript

instance : Outlet (Transcript σ) where
  publish transcript queue message :=
    let (outcome, outlet) := Outlet.publish transcript.outlet queue message
    (outcome, ⟨outlet, transcript.attempts ++ [⟨queue, message, outcome.isAccepted⟩]⟩)

theorem publish_eq (transcript : Transcript σ) (queue : String) (message : Outbound) :
    Outlet.publish transcript queue message =
      ((Outlet.publish transcript.outlet queue message).1,
        ⟨(Outlet.publish transcript.outlet queue message).2, transcript.attempts ++
          [⟨queue, message, (Outlet.publish transcript.outlet queue message).1.isAccepted⟩]⟩) := rfl

theorem isView_outlet : Outlet.IsView (Transcript.outlet : Transcript σ → σ) := fun _ _ _ => rfl

/-- The transcript notes a publication as accepted if and only if the dispatcher learns that it was. -/
theorem publishWithin_eq (transcript : Transcript σ) (timeoutMillis : Nat) (queue : String) (message : Outbound) :
    Outlet.publishWithin transcript timeoutMillis queue message =
      ((Outlet.publishWithin transcript.outlet timeoutMillis queue message).1,
        ⟨(Outlet.publishWithin transcript.outlet timeoutMillis queue message).2, transcript.attempts ++
          [⟨queue, message, (Outlet.publishWithin transcript.outlet timeoutMillis queue message).1.isOk⟩]⟩) := by
  unfold Outlet.publishWithin
  rw [publish_eq]
  rcases Outlet.publish transcript.outlet queue message with ⟨_ | _ | _, outlet⟩ <;> rfl

end Transcript

/-- A publication counts as made if and only if it was accepted. -/
theorem isOk_publishWithin (outlet : σ) (timeoutMillis : Nat) (queue : String) (message : Outbound) :
    (Outlet.publishWithin outlet timeoutMillis queue message).1.isOk =
      (Outlet.publish outlet queue message).1.isAccepted := by
  unfold Outlet.publishWithin
  rcases Outlet.publish outlet queue message with ⟨_ | _ | _, outlet'⟩ <;> rfl

namespace DispatchState

variable (s : DispatchState α) (transcript : Transcript σ)

/-- A start attempts the message of its task, once, and only if the task can be started. -/
theorem attempts_startOn [Quantity α] (id queue : String) (now : Instant) :
    (s.startOn id queue transcript now).2.2.attempts = transcript.attempts ++
      match s.startable id queue with
      | .error _ => []
      | .ok task =>
        [⟨queue, s.dispatchMessage task,
          (Outlet.publish transcript.outlet queue (s.dispatchMessage task)).1.isAccepted⟩] := by
  unfold startOn
  cases s.startable id queue with
  | error e => exact (List.append_nil _).symm
  | ok task =>
    simp only [Transcript.publishWithin_eq, isOk_publishWithin]
    rcases Outlet.publishWithin transcript.outlet s.publishTimeoutMillis queue (s.dispatchMessage task) with
      ⟨e | _, outlet⟩ <;> rfl

/-- A result is attempted once, to the caller of its task, and only if the caller left an address. -/
theorem attempts_processResponse (id : String) (body : Bytes) (redelivered : Bool) (now : Instant) :
    (s.processResponse id body redelivered transcript now).2.2.attempts = transcript.attempts ++
      match s.tasks.tasks.get? id with
      | none => []
      | some task => task.origin.replyTo.toList.map fun replyTo =>
          ⟨replyTo, ⟨body, some task.callerCorrelation, none⟩,
            (Outlet.publish transcript.outlet replyTo ⟨body, some task.callerCorrelation, none⟩).1.isAccepted⟩ := by
  have hforward : ∀ task : Task α, (s.forward task body transcript).2.attempts = transcript.attempts ++
      task.origin.replyTo.toList.map fun replyTo => ⟨replyTo, ⟨body, some task.callerCorrelation, none⟩,
        (Outlet.publish transcript.outlet replyTo ⟨body, some task.callerCorrelation, none⟩).1.isAccepted⟩ := by
    intro task
    unfold forward
    cases task.origin.replyTo with
    | none => exact (List.append_nil _).symm
    | some replyTo =>
      simp only [Transcript.publishWithin_eq, isOk_publishWithin, Option.toList_some, List.map_singleton]
  rcases s.processResponse_cases id body redelivered transcript now with
    ⟨hnone, h⟩ | ⟨task, htask, ⟨-, h⟩ | ⟨-, -, h⟩ | ⟨-, -, h⟩⟩
  · rw [h, hnone]
    exact (List.append_nil _).symm
  all_goals
    rw [h, htask]
    exact hforward task

end DispatchState

/-! ### Attempts of the listener and the detector -/

/-- It is attempted to send one of these notices, to the address that the caller of its task left. -/
def Attempt.Tells (attempt : Attempt) (notices : List (Task α × String)) : Prop :=
  ∃ task reason, (task, reason) ∈ notices ∧ task.origin.replyTo = some attempt.queue ∧
    attempt.message = failureMessage task reason

namespace Hub

/-- Notices go to the callers of their tasks, as far as they left an address. -/
theorem tells_of_mem_attempts {transcript : Transcript σ} {notices : List (Task α × String)} {attempt : Attempt}
    (h : attempt ∈ (notifyAll transcript notices).2.attempts) :
    attempt ∈ transcript.attempts ∨ attempt.Tells notices := by
  induction notices generalizing transcript with
  | nil => exact .inl h
  | cons notice rest ih =>
    obtain ⟨task, reason⟩ := notice
    have hlater : attempt.Tells rest → attempt.Tells ((task, reason) :: rest) := by
      rintro ⟨other, why, hmem, hnotice⟩
      exact ⟨other, why, List.mem_cons_of_mem _ hmem, hnotice⟩
    unfold notifyAll at h
    cases hreply : task.origin.replyTo with
    | none =>
      rw [hreply] at h
      exact (ih h).imp_right hlater
    | some replyTo =>
      have hhere : ∀ {accepted}, attempt ∈ transcript.attempts ++ [⟨replyTo, failureMessage task reason, accepted⟩] →
          attempt ∈ transcript.attempts ∨ attempt.Tells ((task, reason) :: rest) := by
        intro accepted hmem
        rcases List.mem_append.1 hmem with hbefore | hnew
        · exact .inl hbefore
        · obtain rfl := List.mem_singleton.1 hnew
          exact .inr ⟨task, reason, List.mem_cons_self .., hreply, rfl⟩
      simp only [hreply, Transcript.publish_eq] at h
      -- after a publication that stalls nothing more is attempted
      rcases hpublish : Outlet.publish transcript.outlet replyTo (failureMessage task reason) with
        ⟨_ | _ | _, outlet⟩
      all_goals rw [hpublish] at h
      · exact (ih h).elim hhere fun htells => .inr (hlater htells)
      · exact (ih h).elim hhere fun htells => .inr (hlater htells)
      · exact hhere h

end Hub

end SpeechDispatch
