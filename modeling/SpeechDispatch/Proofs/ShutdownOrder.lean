import Mathlib.Logic.Function.Basic
import SpeechDispatch.Shutdown

/-!
# Shutdown reaches every receiver

The flag that says whether the shutdown was done and the place of its sender have a lock each.  Who shuts down takes
the lock of the flag, marks it, takes the lock of the place, takes the sender, sends, and lets the sender go; who
subscribes takes the lock of the place with other readers.  Between these steps others subscribe, subscribe again
through receivers they have, and receive.  Whatever the order (`Closedown.reaches_every_receiver`), receivers have
nothing before the message is sent, all of them have the message or are closed once one call has returned, and only the
first call sends.

A receiver that was had through another after the message was sent does not have it, and is closed only because the
sender goes before the locks do.  So the invariant (`Closedown.Sane`) says of each step of a call what the flag and the
sender are like, and of each place of the sender what the receivers are like (`ShutdownSender.Admits`).  A call that is
not interrupted is `Shutdown.trigger` (`Closedown.steps_trigger`).
-/

namespace SpeechDispatch

/-! ### Receivers, by where the sender is -/

namespace ShutdownReceiver

theorem take_ne_empty {r : ShutdownReceiver} (h : r.isOpen = false) : r.take.1 ≠ .empty := by
  unfold take
  cases r.waiting <;> simp [h]

theorem isOpen_take (r : ShutdownReceiver) : r.take.2.isOpen = r.isOpen := by
  unfold take
  cases r.waiting <;> cases hopen : r.isOpen <;> simp [hopen]

end ShutdownReceiver

namespace ShutdownSender

/-- What a receiver can be like. -/
def Admits : ShutdownSender → ShutdownReceiver → Prop
  | kept, r | taken, r => r = ⟨false, true⟩
  | spent, _ => True
  | gone, r => r.isOpen = false

def sent : ShutdownSender → Nat
  | kept | taken => 0
  | spent | gone => 1

variable {sender : ShutdownSender} {r : ShutdownReceiver}

theorem Admits.resubscribe (h : sender.Admits r) : sender.Admits r.resubscribe := by
  cases sender with
  | kept | taken =>
    obtain rfl : r = ⟨false, true⟩ := h
    rfl
  | spent => trivial
  | gone => exact h

theorem Admits.take (h : sender.Admits r) : sender.Admits r.take.2 := by
  cases sender with
  | kept | taken =>
    obtain rfl : r = ⟨false, true⟩ := h
    rfl
  | spent => trivial
  | gone => exact r.isOpen_take.trans h

theorem sent_le_one (sender : ShutdownSender) : sender.sent ≤ 1 := by
  cases sender <;> decide

theorem Admits.take_eq_empty (h : sender.Admits r) (hsent : sender.sent = 0) : r.take.1 = .empty := by
  cases sender with
  | kept | taken =>
    obtain rfl : r = ⟨false, true⟩ := h
    rfl
  | spent | gone => cases hsent

end ShutdownSender

namespace Shutdown

def Uniform (s : Shutdown) : Prop := ∀ name r, s.receivers.get? name = some r → s.sender.Admits r

/-- Nobody is about to shut down: what is not done was not begun. -/
def Settled (s : Shutdown) : Prop := s.sender = if s.done then .gone else .kept

variable {s : Shutdown}

theorem Settled.kept (h : s.Settled) (hdone : s.done = false) : s.sender = .kept := by
  rw [h, hdone]
  rfl

theorem Settled.gone (h : s.Settled) (hdone : s.done = true) : s.sender = .gone := by
  rw [h, hdone]
  rfl

theorem Uniform.insert (h : s.Uniform) {r : ShutdownReceiver} (hr : s.sender.Admits r) (name : String) :
    Uniform { s with receivers := s.receivers.insert name r } := by
  intro other r' hget
  change (s.receivers.insert name r).get? other = some r' at hget
  rw [Table.get?_insert] at hget
  split at hget
  · rwa [← Option.some.inj hget]
  · exact h other r' hget

theorem Uniform.subscribe (h : s.Uniform) (hplace : s.sender = .kept ∨ s.sender = .gone) (name : String) :
    (s.subscribe name).Uniform := by
  refine h.insert ?_ name
  -- in the first case the message is still to come, in the second it comes with the receiver
  rcases hplace with hkept | hgone
  · rw [if_pos hkept, hkept]
    rfl
  · rw [hgone]
    rfl

theorem Uniform.resubscribe (h : s.Uniform) (source name : String) : (s.resubscribe source name).Uniform := by
  unfold Shutdown.resubscribe
  split
  · exact h
  · rename_i hget
    exact h.insert (h source _ hget).resubscribe name

theorem Uniform.receive (h : s.Uniform) (name : String) : (s.receive name).2.Uniform := by
  unfold Shutdown.receive
  split
  · exact h
  · rename_i hget
    exact h.insert (h name _ hget).take name

theorem Uniform.takeSender (h : s.Uniform) (hkept : s.sender = .kept) : s.takeSender.Uniform := by
  intro name r hget
  have hr : s.sender.Admits r := h name r hget
  rw [hkept] at hr
  exact hr

theorem uniform_send (s : Shutdown) : s.send.Uniform := fun _ _ _ => trivial

theorem uniform_dropSender (s : Shutdown) : s.dropSender.Uniform := by
  intro name r hget
  change (s.receivers.mapValues (·.close)).get? name = some r at hget
  rw [Table.get?_mapValues, Option.map_eq_some_iff] at hget
  obtain ⟨r', -, rfl⟩ := hget
  rfl

@[simp] theorem done_resubscribe (s : Shutdown) (source name : String) : (s.resubscribe source name).done = s.done := by
  unfold resubscribe
  split <;> rfl

@[simp] theorem sender_resubscribe (s : Shutdown) (source name : String) :
    (s.resubscribe source name).sender = s.sender := by
  unfold resubscribe
  split <;> rfl

@[simp] theorem done_receive (s : Shutdown) (name : String) : (s.receive name).2.done = s.done := by
  unfold receive
  split <;> rfl

@[simp] theorem sender_receive (s : Shutdown) (name : String) : (s.receive name).2.sender = s.sender := by
  unfold receive
  split <;> rfl

end Shutdown

/-! ### Calls in steps -/

/-- How far somebody is with a call. -/
inductive ShutdownCall
  | idle
  /-- Subscribes, and has the place of the sender with other readers. -/
  | reading
  /-- Shuts down, and has the flag. -/
  | entered
  | marked
  /-- Has the flag, and the place of the sender alone. -/
  | locked
  /-- Has the sender as well. -/
  | carrying
  | told
  /-- Has let the sender go. -/
  | emptied
  /-- Has given the place back, and still has the flag. -/
  | released
  deriving DecidableEq

namespace ShutdownCall

def hasFlag : ShutdownCall → Bool
  | idle | reading => false
  | _ => true

def hasPlace : ShutdownCall → Bool
  | locked | carrying | told | emptied => true
  | _ => false

theorem hasPlace_of_not_hasFlag {call : ShutdownCall} (h : call.hasFlag = false) : call.hasPlace = false := by
  cases call with
  | idle | reading => rfl
  | _ => cases h

/-- What the flag and the sender are like when somebody is that far. -/
def Fits (s : Shutdown) : ShutdownCall → Prop
  | idle | reading => True
  | entered => s.Settled
  | marked | locked => s.done = true ∧ s.sender = .kept
  | carrying => s.done = true ∧ s.sender = .taken
  | told => s.done = true ∧ s.sender = .spent
  | emptied | released => s.done = true ∧ s.sender = .gone

theorem fits_of_not_hasFlag {s : Shutdown} {call : ShutdownCall} (h : call.hasFlag = false) : call.Fits s := by
  cases call with
  | idle | reading => trivial
  | _ => cases h

theorem Fits.congr {s s' : Shutdown} {call : ShutdownCall} (h : call.Fits s) (hdone : s'.done = s.done)
    (hsender : s'.sender = s.sender) : call.Fits s' := by
  cases call <;> simp only [Fits, Shutdown.Settled, hdone, hsender] at h ⊢ <;> exact h

end ShutdownCall

/-- A shutdown, and all who have a handle of it. -/
structure Closedown (ι : Type) where
  shared : Shutdown := {}
  calls : ι → ShutdownCall := fun _ => .idle

namespace Closedown

variable {ι : Type}

/-- What can happen next, and who does it. -/
inductive Action (ι : Type)
  /-- Takes the place of the sender with other readers. -/
  | read (i : ι)
  | subscribe (i : ι) (name : String)
  /-- Takes the flag. -/
  | enter (i : ι)
  /-- Finds the shutdown done, and returns. -/
  | refuse (i : ι)
  | mark (i : ι)
  /-- Takes the place of the sender alone. -/
  | lock (i : ι)
  | take (i : ι)
  /-- Finds no sender to take. -/
  | miss (i : ι)
  | send (i : ι)
  | drop (i : ι)
  /-- Gives the place of the sender back. -/
  | unlock (i : ι)
  /-- Gives the flag back, and returns. -/
  | leave (i : ι)
  | resubscribe (source name : String)
  | receive (name : String)

def Action.sends : Action ι → Bool
  | .send _ => true
  | _ => false

theorem countP_sends_eq_zero {actions : List (Action ι)} :
    actions.countP Action.sends = 0 ↔ ∀ i, .send i ∉ actions := by
  rw [List.countP_eq_zero]
  constructor
  · intro h i hmem
    exact h _ hmem rfl
  · intro h action hmem hsends
    cases action with
    | send i => exact h i hmem
    | _ => cases hsends

section Steps

variable [DecidableEq ι]

def put (w : Closedown ι) (i : ι) (call : ShutdownCall) (s : Shutdown) : Closedown ι :=
  { shared := s, calls := Function.update w.calls i call }

theorem calls_put (w : Closedown ι) (i j : ι) (call : ShutdownCall) (s : Shutdown) :
    (w.put i call s).calls j = if j = i then call else w.calls j := Function.update_apply ..

@[simp] theorem shared_put (w : Closedown ι) (i : ι) (call : ShutdownCall) (s : Shutdown) :
    (w.put i call s).shared = s := rfl

@[simp] theorem calls_put_self (w : Closedown ι) (i : ι) (call : ShutdownCall) (s : Shutdown) :
    (w.put i call s).calls i = call := Function.update_self ..

@[simp] theorem put_put (w : Closedown ι) (i : ι) (call call' : ShutdownCall) (s s' : Shutdown) :
    (w.put i call s).put i call' s' = w.put i call' s' := by
  simp only [put, Function.update_idem]

/-- One step of somebody.  A lock that another one has is not taken, and a call that was begun goes on to its end. -/
inductive Step : Closedown ι → Action ι → Closedown ι → Prop
  | read {w i} (hidle : w.calls i = .idle) (hfree : ∀ j, (w.calls j).hasPlace = false) :
    Step w (.read i) (w.put i .reading w.shared)
  | subscribe {w i} (name) (hreading : w.calls i = .reading) :
    Step w (.subscribe i name) (w.put i .idle (w.shared.subscribe name))
  | enter {w i} (hidle : w.calls i = .idle) (hfree : ∀ j, (w.calls j).hasFlag = false) :
    Step w (.enter i) (w.put i .entered w.shared)
  | refuse {w i} (hentered : w.calls i = .entered) (hdone : w.shared.done = true) :
    Step w (.refuse i) (w.put i .idle w.shared)
  | mark {w i} (hentered : w.calls i = .entered) (hdone : w.shared.done = false) :
    Step w (.mark i) (w.put i .marked w.shared.mark)
  | lock {w i} (hmarked : w.calls i = .marked) (hfree : ∀ j, (w.calls j).hasPlace = false)
    (hunread : ∀ j, w.calls j ≠ .reading) :
    Step w (.lock i) (w.put i .locked w.shared)
  | take {w i} (hlocked : w.calls i = .locked) (hkept : w.shared.sender = .kept) :
    Step w (.take i) (w.put i .carrying w.shared.takeSender)
  | miss {w i} (hlocked : w.calls i = .locked) (hkept : w.shared.sender ≠ .kept) :
    Step w (.miss i) (w.put i .emptied w.shared)
  | send {w i} (hcarrying : w.calls i = .carrying) : Step w (.send i) (w.put i .told w.shared.send)
  | drop {w i} (htold : w.calls i = .told) : Step w (.drop i) (w.put i .emptied w.shared.dropSender)
  | unlock {w i} (hemptied : w.calls i = .emptied) : Step w (.unlock i) (w.put i .released w.shared)
  | leave {w i} (hreleased : w.calls i = .released) : Step w (.leave i) (w.put i .idle w.shared)
  | resubscribe {w} (source name) :
    Step w (.resubscribe source name) { w with shared := w.shared.resubscribe source name }
  | receive {w} (name) : Step w (.receive name) { w with shared := (w.shared.receive name).2 }

inductive Steps : Closedown ι → List (Action ι) → Closedown ι → Prop
  | nil (w) : Steps w [] w
  | cons {w w' w'' action actions} : Step w action w' → Steps w' actions w'' → Steps w (action :: actions) w''

variable {w w' : Closedown ι} {i : ι} {action : Action ι} {actions : List (Action ι)}

theorem Steps.split {earlier later : List (Action ι)} (h : Steps w (earlier ++ later) w') :
    ∃ between, Steps w earlier between ∧ Steps between later w' := by
  induction earlier generalizing w with
  | nil => exact ⟨w, .nil w, h⟩
  | cons action earlier ih =>
    cases h with
    | cons hstep hrest =>
      obtain ⟨between, hearlier, hlater⟩ := ih hrest
      exact ⟨between, .cons hstep hearlier, hlater⟩

/-- The steps of a call that meets nobody are `Shutdown.trigger`. -/
theorem steps_trigger (hidle : w.calls i = .idle) (hfree : ∀ j, (w.calls j).hasFlag = false)
    (hunread : ∀ j, w.calls j ≠ .reading) :
    ∃ call, .enter i ∈ call ∧ Steps w call { w with shared := w.shared.trigger } := by
  have hback (s : Shutdown) : w.put i .idle s = { w with shared := s } := by
    simp only [put, ← hidle, Function.update_eq_self]
  have hplace (j : ι) := ShutdownCall.hasPlace_of_not_hasFlag (hfree j)
  have henter : Step w (.enter i) (w.put i .entered w.shared) := .enter hidle hfree
  rw [← hback]
  unfold Shutdown.trigger
  split
  · rename_i hdone
    have hrefuse := Step.refuse (w := w.put i .entered w.shared) (calls_put_self ..) hdone
    simp only [put_put, shared_put] at hrefuse
    exact ⟨_, List.mem_cons_self .., .cons henter (.cons hrefuse (.nil _))⟩
  · rename_i hdone
    rw [Bool.not_eq_true] at hdone
    have hmark := Step.mark (w := w.put i .entered w.shared) (calls_put_self ..) hdone
    have hlock := Step.lock (w := w.put i .marked w.shared.mark) (calls_put_self ..)
      (fun j => by rw [calls_put]; split; exacts [rfl, hplace j])
      (fun j => by rw [calls_put]; split; exacts [by decide, hunread j])
    have hunlock (s : Shutdown) := Step.unlock (w := w.put i .emptied s) (calls_put_self ..)
    have hleave (s : Shutdown) := Step.leave (w := w.put i .released s) (calls_put_self ..)
    simp only [put_put, shared_put] at hmark hlock hunlock hleave
    split
    · rename_i hkept
      have htake := Step.take (w := w.put i .locked w.shared.mark) (calls_put_self ..) hkept
      have hsend (s : Shutdown) := Step.send (w := w.put i .carrying s) (calls_put_self ..)
      have hdrop (s : Shutdown) := Step.drop (w := w.put i .told s) (calls_put_self ..)
      simp only [put_put, shared_put] at htake hsend hdrop
      exact ⟨_, List.mem_cons_self .., .cons henter (.cons hmark (.cons hlock (.cons htake (.cons (hsend _)
        (.cons (hdrop _) (.cons (hunlock _) (.cons (hleave _) (.nil _))))))))⟩
    · rename_i hkept
      have hmiss := Step.miss (w := w.put i .locked w.shared.mark) (calls_put_self ..) hkept
      simp only [put_put, shared_put] at hmiss
      exact ⟨_, List.mem_cons_self .., .cons henter (.cons hmark (.cons hlock (.cons hmiss (.cons (hunlock _)
        (.cons (hleave _) (.nil _))))))⟩

end Steps

/-! ### What holds in every interleaving -/

variable {w w' : Closedown ι} {i : ι}

structure Sane (w : Closedown ι) : Prop where
  flag {i j : ι} (hi : (w.calls i).hasFlag = true) (hj : (w.calls j).hasFlag = true) : i = j
  /-- Nobody reads in the place of the sender while somebody has it alone. -/
  unread {i : ι} (hplace : (w.calls i).hasPlace = true) (j : ι) : w.calls j ≠ .reading
  fits (i : ι) : (w.calls i).Fits w.shared
  settled (hfree : ∀ i, (w.calls i).hasFlag = false) : w.shared.Settled
  uniform : w.shared.Uniform

theorem sane_start : ({} : Closedown ι).Sane where
  flag hi := by cases hi
  unread hplace := by cases hplace
  fits _ := trivial
  settled _ := rfl
  uniform name r hget := by cases hget

/-- Somebody shuts down, or somebody did. -/
def Begun (w : Closedown ι) : Prop := w.shared.done = true ∨ ∃ i, (w.calls i).hasFlag = true

theorem not_begun_start : ¬ ({} : Closedown ι).Begun := by
  rintro (hdone | ⟨i, hi⟩)
  · cases hdone
  · cases hi

namespace Sane

theorem not_hasFlag_of_ne (hw : w.Sane) {call : ShutdownCall} (hi : w.calls i = call)
    (hflag : call.hasFlag = true) {j : ι} (hne : j ≠ i) : (w.calls j).hasFlag = false := by
  rw [← Bool.not_eq_true]
  intro hj
  exact hne (hw.flag hj (hi ▸ hflag))

theorem fits_of_eq (hw : w.Sane) {call : ShutdownCall} (hi : w.calls i = call) : call.Fits w.shared :=
  hi ▸ hw.fits i

/-- While somebody reads, the sender is in its place or gone: to take it one has to be alone there. -/
theorem place_of_reading (hw : w.Sane) (hi : w.calls i = .reading) :
    w.shared.sender = .kept ∨ w.shared.sender = .gone := by
  have hsettled (h : w.shared.Settled) : w.shared.sender = .kept ∨ w.shared.sender = .gone := by
    cases hdone : w.shared.done with
    | false => exact .inl (h.kept hdone)
    | true => exact .inr (h.gone hdone)
  by_cases hfree : ∀ j, (w.calls j).hasFlag = false
  · exact hsettled (hw.settled hfree)
  · obtain ⟨j, hj⟩ := not_forall.1 hfree
    have hfits := hw.fits j
    -- who has the flag is before the lock of the place or after it
    have halone : (w.calls j).hasPlace = false := by
      rw [← Bool.not_eq_true]
      intro hplace
      exact hw.unread hplace i hi
    cases hcall : w.calls j <;> rw [hcall] at hfits halone hj
    case idle | reading => exact absurd rfl hj
    case entered => exact hsettled hfits
    case marked => exact .inl hfits.2
    case released => exact .inr hfits.2
    all_goals cases halone

theorem sender_of_not_begun (hw : w.Sane) (hbegun : ¬ w.Begun) : w.shared.sender = .kept := by
  obtain ⟨hdone, hflag⟩ := not_or.1 hbegun
  exact (hw.settled (by simpa using hflag)).kept (Bool.not_eq_true _ ▸ hdone)

theorem sender_of_begun (hw : w.Sane) (hbegun : w.Begun) (hfree : ∀ i, (w.calls i).hasFlag = false) :
    w.shared.sender = .gone := by
  have hdone : w.shared.done = true := hbegun.resolve_right (by simpa using hfree)
  exact (hw.settled hfree).gone hdone

theorem share (hw : w.Sane) {s : Shutdown} (hdone : s.done = w.shared.done) (hsender : s.sender = w.shared.sender)
    (huniform : s.Uniform) : Sane { w with shared := s } where
  flag := hw.flag
  unread := hw.unread
  fits i := (hw.fits i).congr hdone hsender
  settled hfree := by simpa only [Shutdown.Settled, hdone, hsender] using hw.settled hfree
  uniform := huniform

variable [DecidableEq ι]

private theorem put (hw : w.Sane) {call : ShutdownCall} {s : Shutdown} (hother : ∀ j ≠ i, (w.calls j).hasFlag = false)
    (hfits : call.Fits s) (hreading : call ≠ .reading)
    (hunread : call.hasPlace = true → ∀ j, w.calls j ≠ .reading)
    (hsettled : call.hasFlag = false → s.Settled) (huniform : s.Uniform) : (w.put i call s).Sane where
  flag {j k} hj hk := by
    have honly {j : ι} (hj : ((w.put i call s).calls j).hasFlag = true) : j = i := by
      by_contra hne
      rw [calls_put, if_neg hne, hother j hne] at hj
      cases hj
    rw [honly hj, honly hk]
  unread {j} hplace k := by
    rw [calls_put] at hplace ⊢
    split
    · exact hreading
    · split at hplace
      · exact hunread hplace k
      · exact hw.unread hplace k
  fits j := by
    rw [calls_put]
    split
    · exact hfits
    · rename_i hne
      exact ShutdownCall.fits_of_not_hasFlag (hother j hne)
  settled hfree := hsettled (by simpa using hfree i)
  uniform := huniform

theorem enter (hw : w.Sane) (hfree : ∀ j, (w.calls j).hasFlag = false) : (w.put i .entered w.shared).Sane :=
  hw.put (fun j _ => hfree j) (hw.settled hfree) (by decide) (fun h => by cases h) (fun h => by cases h) hw.uniform

variable {before after : ShutdownCall} {s : Shutdown}

theorem advance (hw : w.Sane) (hi : w.calls i = before) (hflag : before.hasFlag = true ∧ after.hasFlag = true)
    (hplace : (after.hasPlace = true → before.hasPlace = true) ∨ ∀ j, w.calls j ≠ .reading) (hfits : after.Fits s)
    (huniform : s.Uniform) : (w.put i after s).Sane := by
  refine hw.put (fun j => hw.not_hasFlag_of_ne hi hflag.1) hfits ?_ ?_ ?_ huniform
  · rintro rfl
    cases hflag.2
  · intro hafter
    rcases hplace with hbefore | hunread
    · exact hw.unread (hi ▸ hbefore hafter)
    · exact hunread
  · intro hnone
    rw [hflag.2] at hnone
    cases hnone

theorem retire (hw : w.Sane) (hi : w.calls i = before) (hflag : before.hasFlag = true) (hsettled : w.shared.Settled) :
    (w.put i .idle w.shared).Sane :=
  hw.put (fun j => hw.not_hasFlag_of_ne hi hflag) trivial (by decide) (fun h => by cases h) (fun _ => hsettled)
    hw.uniform

theorem put_of_not_hasFlag (hw : w.Sane) (hi : (w.calls i).hasFlag = false) (hflag : after.hasFlag = false)
    (hunread : after = .reading → ∀ j, (w.calls j).hasPlace = false) (hdone : s.done = w.shared.done)
    (hsender : s.sender = w.shared.sender) (huniform : s.Uniform) : (w.put i after s).Sane where
  flag {j k} hj hk := by
    rw [calls_put] at hj hk
    split at hj
    · rw [hflag] at hj
      cases hj
    split at hk
    · rw [hflag] at hk
      cases hk
    · exact hw.flag hj hk
  unread {j} hplace k := by
    rw [calls_put] at hplace ⊢
    split at hplace
    · rw [ShutdownCall.hasPlace_of_not_hasFlag hflag] at hplace
      cases hplace
    split
    · rintro rfl
      rw [hunread rfl j] at hplace
      cases hplace
    · exact hw.unread hplace k
  fits j := by
    rw [calls_put]
    split
    · exact ShutdownCall.fits_of_not_hasFlag hflag
    · exact (hw.fits j).congr hdone hsender
  settled hfree := by
    have hsettled : w.shared.Settled := by
      refine hw.settled fun j => ?_
      by_cases hj : j = i
      · rw [hj, hi]
      · simpa [calls_put, hj] using hfree j
    simpa only [Shutdown.Settled, shared_put, hdone, hsender] using hsettled
  uniform := huniform

end Sane

variable [DecidableEq ι] {action : Action ι} {actions : List (Action ι)}

theorem Step.sane (h : Step w action w') (hw : w.Sane) : w'.Sane := by
  cases h with
  | read hidle hfree => exact hw.put_of_not_hasFlag (by rw [hidle]; rfl) rfl (fun _ => hfree) rfl rfl hw.uniform
  | subscribe name hreading =>
    refine hw.put_of_not_hasFlag (by rw [hreading]; rfl) rfl (fun h => by cases h) rfl rfl ?_
    exact hw.uniform.subscribe (hw.place_of_reading hreading) name
  | enter hidle hfree => exact hw.enter hfree
  | refuse hentered hdone => exact hw.retire hentered rfl (hw.fits_of_eq hentered)
  | mark hentered hdone =>
    have hsettled : w.shared.Settled := hw.fits_of_eq hentered
    exact hw.advance hentered ⟨rfl, rfl⟩ (.inl (by decide)) ⟨rfl, hsettled.kept hdone⟩ hw.uniform
  | lock hmarked hfree hunread =>
    obtain ⟨hdone, hkept⟩ := hw.fits_of_eq hmarked
    exact hw.advance hmarked ⟨rfl, rfl⟩ (.inr hunread) ⟨hdone, hkept⟩ hw.uniform
  | take hlocked hkept =>
    obtain ⟨hdone, -⟩ := hw.fits_of_eq hlocked
    exact hw.advance hlocked ⟨rfl, rfl⟩ (.inl (by decide)) ⟨hdone, rfl⟩ (hw.uniform.takeSender hkept)
  | miss hlocked hkept => exact absurd (hw.fits_of_eq hlocked).2 hkept
  | send hcarrying =>
    obtain ⟨hdone, -⟩ := hw.fits_of_eq hcarrying
    exact hw.advance hcarrying ⟨rfl, rfl⟩ (.inl (by decide)) ⟨hdone, rfl⟩ (Shutdown.uniform_send _)
  | drop htold =>
    obtain ⟨hdone, -⟩ := hw.fits_of_eq htold
    exact hw.advance htold ⟨rfl, rfl⟩ (.inl (by decide)) ⟨hdone, rfl⟩ (Shutdown.uniform_dropSender _)
  | unlock hemptied =>
    obtain ⟨hdone, hgone⟩ := hw.fits_of_eq hemptied
    exact hw.advance hemptied ⟨rfl, rfl⟩ (.inl (by decide)) ⟨hdone, hgone⟩ hw.uniform
  | leave hreleased =>
    refine hw.retire hreleased rfl ?_
    obtain ⟨hdone, hgone⟩ := hw.fits_of_eq hreleased
    rw [Shutdown.Settled, hdone, hgone]
    rfl
  | resubscribe source name =>
    exact hw.share (Shutdown.done_resubscribe ..) (Shutdown.sender_resubscribe ..) (hw.uniform.resubscribe source name)
  | receive name => exact hw.share (Shutdown.done_receive ..) (Shutdown.sender_receive ..) (hw.uniform.receive name)

theorem Steps.sane (h : Steps w actions w') (hw : w.Sane) : w'.Sane := by
  induction h with
  | nil => exact hw
  | cons hstep _ ih => exact ih (hstep.sane hw)

/-- Nobody waits for ever: while calls are under way, one of them can go on. -/
theorem Sane.goes_on (hw : w.Sane) (hi : w.calls i ≠ .idle) :
    ∃ j action w', Step w action w' ∧ w.calls j ≠ .idle ∧ w'.calls j ≠ w.calls j := by
  by_cases hunread : ∀ j, w.calls j ≠ .reading
  · have hgoes {action : Action ι} {call : ShutdownCall} {s : Shutdown} (hstep : Step w action (w.put i call s))
        (hne : call ≠ w.calls i) : ∃ j action w', Step w action w' ∧ w.calls j ≠ .idle ∧ w'.calls j ≠ w.calls j :=
      ⟨i, _, _, hstep, hi, by rwa [calls_put_self]⟩
    cases hcall : w.calls i with
    | idle => exact absurd hcall hi
    | reading => exact absurd hcall (hunread i)
    | entered =>
      cases hdone : w.shared.done with
      | true => exact hgoes (.refuse hcall hdone) (by simp [hcall])
      | false => exact hgoes (.mark hcall hdone) (by simp [hcall])
    | marked =>
      have hfree (j : ι) : (w.calls j).hasPlace = false := by
        by_cases hj : j = i
        · rw [hj, hcall]
          rfl
        · exact ShutdownCall.hasPlace_of_not_hasFlag (hw.not_hasFlag_of_ne hcall rfl hj)
      exact hgoes (.lock hcall hfree hunread) (by simp [hcall])
    | locked => exact hgoes (.take hcall (hw.fits_of_eq hcall).2) (by simp [hcall])
    | carrying => exact hgoes (.send hcall) (by simp [hcall])
    | told => exact hgoes (.drop hcall) (by simp [hcall])
    | emptied => exact hgoes (.unlock hcall) (by simp [hcall])
    | released => exact hgoes (.leave hcall) (by simp [hcall])
  · obtain ⟨j, hj⟩ := not_forall.1 hunread
    rw [not_not] at hj
    exact ⟨j, _, _, .subscribe "" hj, by simp [hj], by simp [hj]⟩

/-! ### The message -/

/-- The message is sent when the sender is taken, and the sender does not come back. -/
theorem Step.sent_eq (h : Step w action w') (hw : w.Sane) :
    w'.shared.sender.sent = w.shared.sender.sent + if action.sends then 1 else 0 := by
  cases h with
  | take hlocked hkept =>
    rw [hkept]
    rfl
  | send hcarrying =>
    rw [(hw.fits_of_eq hcarrying).2]
    rfl
  | drop htold =>
    rw [(hw.fits_of_eq htold).2]
    rfl
  | resubscribe => exact congrArg ShutdownSender.sent (Shutdown.sender_resubscribe ..)
  | receive => exact congrArg ShutdownSender.sent (Shutdown.sender_receive ..)
  | _ => rfl

theorem Steps.sent_eq (h : Steps w actions w') (hw : w.Sane) :
    w'.shared.sender.sent = w.shared.sender.sent + actions.countP Action.sends := by
  induction h with
  | nil => rfl
  | cons hstep _ ih =>
    rw [ih (hstep.sane hw), hstep.sent_eq hw, List.countP_cons, Nat.add_assoc, Nat.add_comm (ite ..)]

theorem Step.gone (h : Step w action w') (hw : w.Sane) (hgone : w.shared.sender = .gone) :
    w'.shared.sender = .gone := by
  cases h with
  | take hlocked hkept => cases hgone.symm.trans hkept
  | send hcarrying => cases hgone.symm.trans (hw.fits_of_eq hcarrying).2
  | drop => rfl
  | resubscribe => exact (Shutdown.sender_resubscribe ..).trans hgone
  | receive => exact (Shutdown.sender_receive ..).trans hgone
  | _ => exact hgone

theorem Steps.gone (h : Steps w actions w') (hw : w.Sane) (hgone : w.shared.sender = .gone) :
    w'.shared.sender = .gone := by
  induction h with
  | nil => exact hgone
  | cons hstep _ ih => exact ih (hstep.sane hw) (hstep.gone hw hgone)

theorem Step.gone_of_returns (h : Step w action w') (hw : w.Sane) (hreturns : action = .refuse i ∨ action = .leave i) :
    w'.shared.sender = .gone := by
  cases h with
  | refuse hentered hdone =>
    have hsettled : w.shared.Settled := hw.fits_of_eq hentered
    exact hsettled.gone hdone
  | leave hreleased => exact (hw.fits_of_eq hreleased).2
  | _ => rcases hreturns with h | h <;> cases h

theorem Steps.gone_of_returns (h : Steps w actions w') (hw : w.Sane)
    (hreturns : .refuse i ∈ actions ∨ .leave i ∈ actions) : w'.shared.sender = .gone := by
  obtain ⟨action, hmem, hreturned⟩ : ∃ action ∈ actions, action = .refuse i ∨ action = .leave i := by
    rcases hreturns with h | h
    · exact ⟨_, h, .inl rfl⟩
    · exact ⟨_, h, .inr rfl⟩
  obtain ⟨earlier, later, rfl⟩ := List.append_of_mem hmem
  obtain ⟨between, hearlier, hlater⟩ := h.split
  cases hlater with
  | cons hstep hlater =>
    have hbetween := hearlier.sane hw
    exact hlater.gone (hstep.sane hbetween) (hstep.gone_of_returns hbetween hreturned)

/-! ### The first call and the others -/

theorem Step.begun (h : Step w action w') (hw : w.Sane) (hbegun : w.Begun ∨ ∃ i, action = .enter i) : w'.Begun := by
  cases h with
  | @read i hidle | @subscribe i _ hidle =>
    obtain hdone | ⟨j, hj⟩ := hbegun.resolve_right (by rintro ⟨_, ⟨⟩⟩)
    · exact .inl hdone
    · refine .inr ⟨j, ?_⟩
      have hne : j ≠ i := by
        rintro rfl
        rw [hidle] at hj
        cases hj
      rwa [calls_put, if_neg hne]
  | resubscribe | receive =>
    obtain hdone | hflag := hbegun.resolve_right (by rintro ⟨_, ⟨⟩⟩)
    · exact .inl (by simpa using hdone)
    · exact .inr hflag
  | refuse hentered hdone => exact .inl hdone
  | leave hreleased => exact .inl (hw.fits_of_eq hreleased).1
  | _ => exact .inr ⟨_, by rw [calls_put_self]; rfl⟩

theorem Step.begun_or_enter (h : Step w action w') (hbegun : w'.Begun) : w.Begun ∨ ∃ i, action = .enter i := by
  cases h with
  | @read i | @subscribe i =>
    obtain hdone | ⟨j, hj⟩ := hbegun
    · exact .inl (.inl hdone)
    · refine .inl (.inr ⟨j, ?_⟩)
      rw [calls_put] at hj
      split at hj
      · cases hj
      · exact hj
  | resubscribe | receive =>
    obtain hdone | hflag := hbegun
    · exact .inl (.inl (by simpa using hdone))
    · exact .inl (.inr hflag)
  | @enter i => exact .inr ⟨i, rfl⟩
  | refuse hcall | mark hcall | lock hcall | take hcall | miss hcall | send hcall | drop hcall | unlock hcall
    | leave hcall => exact .inl (.inr ⟨_, by rw [hcall]; rfl⟩)

theorem Steps.begun_iff (h : Steps w actions w') (hw : w.Sane) :
    w'.Begun ↔ w.Begun ∨ ∃ i, .enter i ∈ actions := by
  induction h with
  | nil => simp
  | @cons w _ _ action _ hstep _ ih =>
    have hbegun := Iff.intro hstep.begun_or_enter (hstep.begun hw)
    simp only [ih (hstep.sane hw), hbegun, List.mem_cons, exists_or, or_assoc, eq_comm]

/-- In every interleaving of subscriptions, shutdowns, subscriptions through receivers, and receptions: nothing is sent
unless somebody shuts down, and until it is sent no receiver has anything; when a call has returned, every receiver has
the message or is closed, whenever and through whatever it was had; who shuts down after another sends nothing, and the
message is not sent twice.  Calls do return: while some are under way one of them can go on, and one that meets nobody
comes to its end and has then done what `Shutdown.trigger` does. -/
theorem reaches_every_receiver (h : Steps {} actions w) :
    ((∀ i, .enter i ∉ actions) → ∀ i, .send i ∉ actions) ∧
    ((∀ i, .send i ∉ actions) → ∀ name r, w.shared.receivers.get? name = some r → r.take.1 = .empty) ∧
    (∀ i, .refuse i ∈ actions ∨ .leave i ∈ actions →
      ∀ name r, w.shared.receivers.get? name = some r → r.take.1 ≠ .empty) ∧
    (∀ earlier i later, actions = earlier ++ .enter i :: later → (∃ j, .enter j ∈ earlier) →
      ∀ j, .send j ∉ later) ∧
    actions.countP Action.sends ≤ 1 ∧
    ((∃ i, w.calls i ≠ .idle) →
      ∃ j action w', Step w action w' ∧ w.calls j ≠ .idle ∧ w'.calls j ≠ w.calls j) ∧
    ((∀ i, w.calls i = .idle) →
      ∀ i, ∃ call : List (Action ι), .enter i ∈ call ∧ Steps w call { w with shared := w.shared.trigger }) := by
  have hw : w.Sane := h.sane sane_start
  have hsent : w.shared.sender.sent = actions.countP Action.sends := by
    simpa [ShutdownSender.sent] using h.sent_eq sane_start
  refine ⟨?_, ?_, ?_, ?_, hsent ▸ w.shared.sender.sent_le_one, fun ⟨i, hi⟩ => hw.goes_on hi, ?_⟩
  · intro hunentered
    have hbegun : ¬ w.Begun := by
      rw [h.begun_iff sane_start]
      rintro (hbegun | ⟨i, hmem⟩)
      · exact not_begun_start hbegun
      · exact hunentered i hmem
    rw [← countP_sends_eq_zero, ← hsent, hw.sender_of_not_begun hbegun]
    rfl
  · intro hunsent name r hget
    exact (hw.uniform name r hget).take_eq_empty (hsent.trans (countP_sends_eq_zero.2 hunsent))
  · intro i hreturned name r hget
    have hr := hw.uniform name r hget
    rw [h.gone_of_returns sane_start hreturned] at hr
    exact ShutdownReceiver.take_ne_empty hr
  · rintro earlier i later rfl hentered
    obtain ⟨between, hearlier, hrest⟩ := h.split
    have hbetween := hearlier.sane sane_start
    have hlate : (Action.enter i :: later).countP Action.sends = 0 := by
      have hgone : between.shared.sender = .gone := by
        cases hrest with
        | cons hstep =>
          cases hstep with
          | enter _ hfree =>
            exact hbetween.sender_of_begun ((hearlier.begun_iff sane_start).2 (.inr hentered)) hfree
      have hle := hrest.sent_eq hbetween ▸ w.shared.sender.sent_le_one
      rw [hgone] at hle
      exact Nat.le_zero.1 (Nat.le_of_add_le_add_left (a := 1) hle)
    intro j hmem
    exact countP_sends_eq_zero.1 hlate j (List.mem_cons_of_mem _ hmem)
  · intro hidle i
    refine steps_trigger (hidle i) (fun j => ?_) (fun j => ?_)
    · rw [hidle j]
      rfl
    · rw [hidle j]
      decide

/-- Somebody subscribes between the mark and the lock, and again through that receiver between the message and the end
of the sender; then there is a second call. -/
def slippedBetween : List (Action Bool) :=
  [.enter false, .mark false, .read true, .subscribe true "between", .lock false, .take false, .send false,
    .resubscribe "between" "again", .drop false, .unlock false, .leave false, .enter true, .refuse true]

theorem reaches_every_receiver_slippedBetween : ∃ w : Closedown Bool, Steps {} slippedBetween w ∧
    w.shared.receivers.get? "between" = some ⟨true, false⟩ ∧ w.shared.receivers.get? "again" = some ⟨false, false⟩ ∧
    ∀ name r, w.shared.receivers.get? name = some r → r.take.1 ≠ .empty := by
  have hsteps : Steps {} slippedBetween _ :=
    .cons (.enter rfl (by decide)) <| .cons (.mark rfl rfl) <| .cons (.read rfl (by decide)) <|
      .cons (.subscribe "between" rfl) <| .cons (.lock rfl (by decide) (by decide)) <| .cons (.take rfl rfl) <|
      .cons (.send rfl) <| .cons (.resubscribe "between" "again") <| .cons (.drop rfl) <| .cons (.unlock rfl) <|
      .cons (.leave rfl) <| .cons (.enter rfl (by decide)) <| .cons (.refuse rfl rfl) <| .nil _
  obtain ⟨-, -, hready, -⟩ := reaches_every_receiver hsteps
  exact ⟨_, hsteps, by decide, by decide, hready false (.inr (by simp [slippedBetween]))⟩

end Closedown

end SpeechDispatch
