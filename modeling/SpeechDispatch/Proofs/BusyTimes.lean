import SpeechDispatch.Proofs.DoubleNumbers
import SpeechDispatch.Proofs.RegistryRun
import SpeechDispatch.Proofs.WorkerLife

/-!
# How long workers are expected to be busy

An estimate is a double and may be anything: a NaN, negative, infinite, or more than a week.  What counts of it are the
seconds between none and a week (`WorkerRegistry.countedSeconds`), which do not become less as the estimate grows.  On
the way to whole milliseconds they are multiplied by a thousand and rounded; none and a week are kept exactly, so the
milliseconds are between those of none and of a week too (`WorkerRegistry.toMillis_clampEstimate_bounds`).

So a worker is expected to be free within a week after it was given its task, and this remains true as long as it has
the task (`WorkerRegistry.freeWithinWeek_run`, `DispatchState.freeWithinWeek_run`).
-/

namespace SpeechDispatch

open Doubles Float.Model Float.Model.UnpackedFloat

/-! ### Milliseconds and seconds -/

theorem hasValue_week : HasValue (604800 : Float) 604800 := hasValue_ofNat (n := 604800) (by decide)

namespace Quantity

theorem lt_eq (x y : Float) : Quantity.lt x y = x.toModel.unpack.lt y.toModel.unpack := by
  rw [Bool.eq_iff_iff, ← Doubles.lt_iff]
  exact decide_eq_true_iff

/-- The seconds of whole milliseconds are their thousandth, rounded. -/
theorem exists_hasValue_ofMillis {n : Nat} (hn : n < 2 ^ 53) :
    ∃ w, HasValue (ofMillis n) w ∧ IsRounded (n / 1000) w := by
  have hsize : IsModerate ((n : ℚ) / 1000) := by
    have hhigh : (n : ℚ) ≤ 2 ^ 53 := by exact_mod_cast hn.le
    refine isModerate_of_le ?_ (by linarith)
    obtain rfl | hpos := Nat.eq_zero_or_pos n
    · exact .inl (by norm_num)
    · have hone : (1 : ℚ) ≤ n := by exact_mod_cast hpos
      have hleast := leastDouble_le_thousandth
      exact .inr (by linarith)
  have hthousand : HasValue (1000 : Float) 1000 := hasValue_ofNat (n := 1000) (by decide)
  exact exists_hasValue_div (hasValue_ofNat hn) hthousand (by norm_num) hsize

/-- Milliseconds of a week at most are seconds of a week at most. -/
theorem ofMillis_bounds {n : Nat} (hn : n ≤ 604800000) :
    (0 : Float) ≤ ofMillis n ∧ (ofMillis n : Float) ≤ 604800 := by
  obtain ⟨w, hw, hrounded⟩ := exists_hasValue_ofMillis (n := n) (by omega)
  have hle : (n : ℚ) / 1000 ≤ 604800 := by
    have : (n : ℚ) ≤ 604800000 := by exact_mod_cast hn
    linarith
  exact ⟨(le_iff_of_hasValue hasValue_zero hw).2 hw.nonneg,
    (le_iff_of_hasValue hw hasValue_week).2 (hrounded.mono hasValue_week.isRounded hle)⟩

end Quantity

/-! ### Estimates -/

namespace WorkerRegistry

theorem hasValue_horizon : HasValue (Quantity.ofMillis busyHorizonMillis) 604800 := by
  obtain ⟨w, hw, hrounded⟩ := Quantity.exists_hasValue_ofMillis (n := busyHorizonMillis) (by decide)
  have hthousandth : (busyHorizonMillis : ℚ) / 1000 = 604800 := by norm_num [busyHorizonMillis]
  rw [hthousandth] at hrounded
  rwa [hrounded.unique hasValue_week.isRounded] at hw

/-- The seconds that count of an estimate: those between none and a week. -/
def countedSeconds (estimate : Float) : ℚ :=
  match estimate.toModel.unpack with
  | .finite .positive m e _ => min (m * 2 ^ e) 604800
  | .infinity .positive => 604800
  | .finite .negative _ _ _ | .infinity .negative | .zero _ | .notANumber => 0

theorem clampEstimate_eq (estimate : Float) :
    clampEstimate estimate =
      if estimate.toModel.unpack.beq estimate.toModel.unpack = false then 0
      else if estimate.toModel.unpack.lt (.zero .positive) = true then 0
      else if (Quantity.ofMillis busyHorizonMillis : Float).toModel.unpack.lt estimate.toModel.unpack = true then
        Quantity.ofMillis busyHorizonMillis
      else estimate := by
  have hsame : Quantity.same estimate estimate = estimate.toModel.unpack.beq estimate.toModel.unpack := rfl
  rw [← unpack_zero, ← Quantity.lt_eq, ← Quantity.lt_eq, ← hsame]
  unfold clampEstimate
  simp only [Bool.not_eq_true']

/-- A number counts up to a week. -/
theorem hasValue_clampEstimate_of_hasValue {estimate : Float} {v : ℚ} (h : HasValue estimate v) :
    HasValue (clampEstimate estimate) (min v 604800) := by
  have hself : estimate.toModel.unpack.beq estimate.toModel.unpack = true := by
    change (estimate.toModel.unpack.compare estimate.toModel.unpack == some .eq) = true
    rw [h.compare_eq h, compare_eq_iff_eq.2 rfl]
    rfl
  have hnot : ¬ estimate.toModel.unpack.lt (.zero .positive) = true := by
    rw [h.lt_iff (.zero _)]
    exact not_lt.2 h.nonneg
  rw [clampEstimate_eq, hself, if_neg (by decide), if_neg hnot]
  split
  · rename_i hbeyond
    rw [min_eq_right ((hasValue_horizon.lt_iff h).1 hbeyond).le]
    exact hasValue_horizon
  · rename_i hwithin
    rwa [min_eq_left (not_lt.1 fun hlt => hwithin ((hasValue_horizon.lt_iff h).2 hlt))]

/-- Whatever an estimate is, it is cut to a number between none and a week. -/
theorem hasValue_clampEstimate (estimate : Float) : HasValue (clampEstimate estimate) (countedSeconds estimate) := by
  have hclamp := clampEstimate_eq estimate
  unfold countedSeconds
  -- A NaN leaves the clamp by the first test, what is negative by the second, and infinity by the third.
  cases hunpack : estimate.toModel.unpack with
  | notANumber =>
    rw [hunpack] at hclamp
    exact hclamp ▸ hasValue_zero
  | zero sign =>
    have hnone : HasValue estimate 0 := by
      rw [HasValue, hunpack]
      exact .zero sign
    have hcut := hasValue_clampEstimate_of_hasValue hnone
    rwa [min_eq_left (by norm_num)] at hcut
  | infinity sign =>
    rw [hunpack] at hclamp
    cases sign with
    | negative => exact hclamp ▸ hasValue_zero
    | positive =>
      rw [if_neg (by decide), if_neg (by decide), if_pos hasValue_horizon.lt_infinity] at hclamp
      exact hclamp ▸ hasValue_horizon
  | finite sign m e hpos =>
    cases sign with
    | negative =>
      have hbelow : (UnpackedFloat.finite .negative m e hpos).lt (.zero .positive) = true := rfl
      rw [hunpack, if_pos hbelow, ite_self] at hclamp
      exact hclamp ▸ hasValue_zero
    | positive => exact hasValue_clampEstimate_of_hasValue (hasValue_of_unpack hunpack)

theorem countedSeconds_of_hasValue {estimate : Float} {v : ℚ} (h : HasValue estimate v) :
    countedSeconds estimate = min v 604800 :=
  (hasValue_clampEstimate estimate).unique (hasValue_clampEstimate_of_hasValue h)

theorem countedSeconds_of_infinity {estimate : Float} (h : estimate.toModel.unpack = .infinity .positive) :
    countedSeconds estimate = 604800 := by simp only [countedSeconds, h]

theorem countedSeconds_bounds (estimate : Float) : 0 ≤ countedSeconds estimate ∧ countedSeconds estimate ≤ 604800 := by
  unfold countedSeconds
  split
  · exact ⟨le_min (by positivity) (by norm_num), min_le_right ..⟩
  all_goals norm_num

/-- Nothing counts of an estimate that is negative or a NaN. -/
theorem countedSeconds_of_not_zero_le {estimate : Float} (h : ¬ 0 ≤ estimate) : countedSeconds estimate = 0 := by
  rw [Doubles.le_iff, unpack_zero] at h
  unfold countedSeconds
  split
  · rename_i hunpack
    rw [hunpack] at h
    exact absurd rfl h
  · rename_i hunpack
    rw [hunpack] at h
    exact absurd rfl h
  all_goals rfl

theorem countedSeconds_of_not_pos {estimate : Float} (h : ¬ 0 < estimate) : countedSeconds estimate = 0 := by
  by_cases hzero : 0 ≤ estimate
  · obtain ⟨v, hv⟩ | hinfinity := exists_hasValue_or_eq_infinity hzero
    · have hnot : ¬ 0 < v := fun hpos => h ((lt_iff_of_hasValue hasValue_zero hv).2 hpos)
      obtain rfl : v = 0 := le_antisymm (not_lt.1 hnot) hv.nonneg
      rw [countedSeconds_of_hasValue hv, min_eq_left (by norm_num)]
    · rw [Doubles.lt_iff, unpack_zero, hinfinity] at h
      exact absurd rfl h
  · exact countedSeconds_of_not_zero_le hzero

/-- A greater estimate does not count for less. -/
theorem countedSeconds_mono {estimate estimate' : Float} (h : estimate ≤ estimate') :
    countedSeconds estimate ≤ countedSeconds estimate' := by
  by_cases hzero : 0 ≤ estimate
  · obtain ⟨v, hv⟩ | hinfinity := exists_hasValue_or_eq_infinity hzero
    · have hzero' : 0 ≤ estimate' := Doubles.le_iff.2 (unpack_zero ▸ hv.zero_le_of_le (Doubles.le_iff.1 h))
      obtain ⟨v', hv'⟩ | hinfinity' := exists_hasValue_or_eq_infinity hzero'
      · rw [countedSeconds_of_hasValue hv, countedSeconds_of_hasValue hv']
        exact min_le_min_right _ ((le_iff_of_hasValue hv hv').1 h)
      · rw [countedSeconds_of_infinity hinfinity']
        exact (countedSeconds_bounds estimate).2
    · rw [Doubles.le_iff, hinfinity] at h
      rw [countedSeconds_of_infinity hinfinity, countedSeconds_of_infinity (eq_infinity_of_le h)]
  · rw [countedSeconds_of_not_zero_le hzero]
    exact (countedSeconds_bounds estimate').1

theorem countedSeconds_of_week_le {estimate : Float} (h : 604800 ≤ estimate) : countedSeconds estimate = 604800 := by
  refine le_antisymm (countedSeconds_bounds estimate).2 ?_
  calc
    (604800 : ℚ) = countedSeconds 604800 := by rw [countedSeconds_of_hasValue hasValue_week, min_self]
    _ ≤ countedSeconds estimate := countedSeconds_mono h

/-! ### Milliseconds of estimates -/

/-- The milliseconds of an estimate are the whole part of a thousand times its seconds, rounded to a double before. -/
theorem exists_toMillis_clampEstimate (estimate : Float) :
    ∃ w, IsRounded (countedSeconds estimate * 1000) w ∧ Quantity.toMillis (clampEstimate estimate) = ⌊w⌋ := by
  obtain ⟨hlow, hhigh⟩ := countedSeconds_bounds estimate
  have hclamp := hasValue_clampEstimate estimate
  have hthousand : HasValue (1000 : Float) 1000 := hasValue_ofNat (n := 1000) (by decide)
  have hsize : IsModerate (countedSeconds estimate * 1000) := by
    refine isModerate_of_le (hclamp.eq_zero_or_le.imp ?_ ?_) (by linarith)
    · intro hnone
      rw [hnone, zero_mul]
    · intro hleast
      linarith
  obtain ⟨w, hw, hrounded⟩ := exists_hasValue_mul hclamp hthousand hsize
  have hweek : HasValue (Float.ofNat 604800000) (604800000 : Nat) := hasValue_ofNat (by decide)
  have hle : w ≤ (604800000 : Nat) := hrounded.mono hweek.isRounded (by push_cast; linarith)
  refine ⟨w, hrounded, toInt64_of_hasValue hw (hle.trans_lt (by norm_num))⟩

theorem toMillis_clampEstimate_mono {estimate estimate' : Float}
    (h : countedSeconds estimate ≤ countedSeconds estimate') :
    Quantity.toMillis (clampEstimate estimate) ≤ Quantity.toMillis (clampEstimate estimate') := by
  obtain ⟨w, hrounded, hmillis⟩ := exists_toMillis_clampEstimate estimate
  obtain ⟨w', hrounded', hmillis'⟩ := exists_toMillis_clampEstimate estimate'
  rw [hmillis, hmillis']
  exact Int.floor_mono (hrounded.mono hrounded' (by linarith))

/-- Whole seconds have their milliseconds exactly. -/
theorem toMillis_clampEstimate_of_eq {estimate : Float} {n : Nat} (h : countedSeconds estimate = n) :
    Quantity.toMillis (clampEstimate estimate) = n * 1000 := by
  have hn : n ≤ 604800 := by
    have hhigh := (countedSeconds_bounds estimate).2
    rw [h] at hhigh
    exact_mod_cast hhigh
  obtain ⟨w, hrounded, hmillis⟩ := exists_toMillis_clampEstimate estimate
  have hwhole : HasValue (Float.ofNat (n * 1000)) (n * 1000 : Nat) := hasValue_ofNat (by omega)
  have hproduct : countedSeconds estimate * 1000 = (n * 1000 : Nat) := by
    rw [h]
    push_cast
    rfl
  rw [hproduct] at hrounded
  rw [hmillis, hrounded.unique hwhole.isRounded, Int.floor_natCast]
  push_cast
  rfl

theorem toMillis_clampEstimate_bounds (estimate : Float) :
    0 ≤ Quantity.toMillis (clampEstimate estimate) ∧ Quantity.toMillis (clampEstimate estimate) ≤ 604800000 := by
  obtain ⟨hlow, hhigh⟩ := countedSeconds_bounds estimate
  have hnone : countedSeconds 0 = 0 := by rw [countedSeconds_of_hasValue hasValue_zero, min_eq_left (by norm_num)]
  have hweek : countedSeconds 604800 = 604800 := by rw [countedSeconds_of_hasValue hasValue_week, min_self]
  constructor
  · calc
      0 = Quantity.toMillis (clampEstimate (0 : Float)) :=
        (toMillis_clampEstimate_of_eq (n := 0) (by rw [hnone, Nat.cast_zero])).symm
      _ ≤ Quantity.toMillis (clampEstimate estimate) := toMillis_clampEstimate_mono (by rwa [hnone])
  · calc
      Quantity.toMillis (clampEstimate estimate) ≤ Quantity.toMillis (clampEstimate (604800 : Float)) :=
        toMillis_clampEstimate_mono (by rwa [hweek])
      _ = 604800000 := toMillis_clampEstimate_of_eq (n := 604800) (by rw [hweek]; norm_num)

/-! ### When a worker is expected to be free -/

theorem expectedFree_bounds (estimate : Float) (start : Instant) :
    start ≤ expectedFree estimate start ∧ expectedFree estimate start ≤ start + Instant.seconds 604800 := by
  obtain ⟨hlow, hhigh⟩ := toMillis_clampEstimate_bounds estimate
  unfold expectedFree Instant.plusMillis Instant.seconds
  dsimp only
  -- Where the calendar ends before, it is the start itself.
  split <;> constructor <;> linarith

/-- A week before the end of the calendar there is room for every estimate. -/
theorem expectedFree_eq (estimate : Float) {start : Instant} (hroom : start + Instant.seconds 604800 ≤ Instant.last) :
    expectedFree estimate start = start + Quantity.toMillis (clampEstimate estimate) * 1000 := by
  obtain ⟨-, hhigh⟩ := toMillis_clampEstimate_bounds estimate
  unfold Instant.seconds at hroom
  exact if_neg (by linarith)

theorem expectedFree_mono {estimate estimate' : Float} (h : estimate ≤ estimate') {start : Instant}
    (hroom : start + Instant.seconds 604800 ≤ Instant.last) :
    expectedFree estimate start ≤ expectedFree estimate' start := by
  have hmillis := toMillis_clampEstimate_mono (countedSeconds_mono h)
  rw [expectedFree_eq estimate hroom, expectedFree_eq estimate' hroom]
  linarith

theorem expectedFree_of_countedSeconds {estimate : Float} {n : Nat} (h : countedSeconds estimate = n)
    {start : Instant} (hroom : start + Instant.seconds 604800 ≤ Instant.last) :
    expectedFree estimate start = start + Instant.seconds n := by
  rw [expectedFree_eq estimate hroom, toMillis_clampEstimate_of_eq h, Instant.seconds]
  ring

end WorkerRegistry

/-! ### Workers -/

namespace Worker

/-- A worker is expected to be free within a week from now. -/
def FreeWithinWeek (worker : Worker) (now : Instant) : Prop := worker.freeAt ≤ now + Instant.seconds 604800

variable {worker : Worker} {start now : Instant}

/-- What is set as the time to be free at the start of a task is within a week then, and later all the more. -/
theorem freeWithinWeek_turnedTo (task : Task Float) (h : start ≤ now) :
    (worker.turnedTo task start).FreeWithinWeek now := by
  have hfree := (WorkerRegistry.expectedFree_bounds (WorkerRegistry.workload worker task) start).2
  exact hfree.trans (by linarith)

theorem freeWithinWeek_of_freeAt_le (h : worker.freeAt ≤ now) : worker.FreeWithinWeek now := by
  have hweek : (0 : Int) ≤ Instant.seconds 604800 := by decide
  exact h.trans (le_add_of_nonneg_right hweek)

/-- A worker that is expected to be free within a week stays busy for a week at most. -/
theorem FreeWithinWeek.remaining_bounds (h : worker.FreeWithinWeek now) :
    (0 : Float) ≤ worker.remaining now ∧ worker.remaining now ≤ (604800 : Float) := by
  unfold FreeWithinWeek at h
  unfold remaining
  split
  · refine Quantity.ofMillis_bounds (Int.toNat_le.2 ?_)
    calc
      now.millis worker.freeAt ≤ (Instant.seconds 604800).tdiv 1000 := Int.tdiv_le_tdiv (by decide) (by linarith)
      _ = 604800000 := by decide
  · exact ⟨(le_iff_of_hasValue hasValue_zero hasValue_zero).2 le_rfl,
      (le_iff_of_hasValue hasValue_zero hasValue_week).2 (by norm_num)⟩

end Worker

/-- What a snapshot may show: an idle worker is free now, and a busy one within a week. -/
def WorkerView.WithinWeek (view : WorkerView Float) : Prop :=
  (view.busy = false → view.remaining = 0) ∧ (view.busy = true → 0 ≤ view.remaining ∧ view.remaining ≤ 604800)

theorem Worker.FreeWithinWeek.view {worker : Worker} {now : Instant} (h : worker.FreeWithinWeek now) :
    (worker.view now).WithinWeek :=
  ⟨fun hidle => if_neg (Bool.eq_false_iff.1 hidle), fun _ => h.remaining_bounds⟩

/-! ### Runs of the registry -/

theorem WorkerCall.freeWithinWeek_onEntry {staleAfter : Int} {name : String} {call : WorkerCall Float}
    {entry : Option Worker} {now : Instant} (hclock : ∀ time ∈ call.clock?, time ≤ now)
    (hentry : ∀ worker ∈ entry, worker.FreeWithinWeek now) :
    ∀ worker ∈ call.onEntry staleAfter name entry, worker.FreeWithinWeek now := by
  intro worker hworker
  rcases cases_of_onEntry hworker with ⟨old, _, hold, rfl⟩ | ⟨time, htime, ⟨_, rfl⟩ | ⟨old, -, ⟨task, rfl⟩ | rfl⟩⟩
  · exact hentry old hold
  · exact Worker.freeWithinWeek_of_freeAt_le (hclock time htime)
  · exact Worker.freeWithinWeek_turnedTo task (hclock time htime)
  · exact Worker.freeWithinWeek_of_freeAt_le (hclock time htime)

namespace WorkerRegistry

/-- Every worker is expected to be free within a week from now. -/
def FreeWithinWeek (r : WorkerRegistry) (now : Instant) : Prop :=
  ∀ queue worker, r.workers.get? queue = some worker → worker.FreeWithinWeek now

theorem freeWithinWeek_empty (staleAfter : Int) (now : Instant) :
    ({ staleAfter } : WorkerRegistry).FreeWithinWeek now := fun _ _ h => nomatch h

theorem FreeWithinWeek.snapshot {r : WorkerRegistry} {now : Instant} (h : r.FreeWithinWeek now) :
    ∀ view ∈ (r.snapshot now : List (WorkerView Float)), view.WithinWeek := by
  intro view hview
  obtain ⟨worker, hworker, rfl⟩ := List.mem_map.1 hview
  obtain ⟨queue, hget⟩ := Table.mem_values.1 hworker
  exact (h queue worker hget).view

theorem freeWithinWeek_after {r : WorkerRegistry} (hr : r.Named) {call : WorkerCall Float} {now : Instant}
    (hclock : ∀ time ∈ call.clock?, time ≤ now) (hfree : r.FreeWithinWeek now) : (r.after call).FreeWithinWeek now := by
  intro queue worker hworker
  rw [get?_after hr] at hworker
  exact WorkerCall.freeWithinWeek_onEntry hclock (hfree queue) worker hworker

/-- What is within a week of a time stays so, whatever the registry is called for before that time. -/
theorem freeWithinWeek_run {r : WorkerRegistry} (hr : r.Named) {calls : List (WorkerCall Float)} {now : Instant}
    (hclock : ∀ call ∈ calls, ∀ time ∈ call.clock?, time ≤ now) (hfree : r.FreeWithinWeek now) :
    (r.run calls).FreeWithinWeek now := by
  refine foldl_induction (motive := fun calls (r : WorkerRegistry) =>
    (∀ call ∈ calls, ∀ time ∈ call.clock?, time ≤ now) → r.FreeWithinWeek now) (fun _ => hfree) ?_ calls hclock
  intro calls call ih hclock
  obtain ⟨hearlier, hlast⟩ := List.forall_mem_append.1 hclock
  exact freeWithinWeek_after (named_run hr calls) (hlast call (List.mem_singleton_self call)) (ih hearlier)

end WorkerRegistry

/-! ### Runs of the dispatcher -/

variable {σ : Type}

/-- The reading of the clock that comes with an event. -/
def Event.clock {α : Type} : Event α σ → Instant
  | .registration _ now | .work _ _ _ _ _ now | .pass _ _ now | .response _ _ _ _ now | .round _ _ now => now

namespace DispatchState

variable [Outlet σ]

theorem Turn.freeWithinWeek {s : DispatchState Float} {queue : String} {e : Event Float σ} {entry : Option Worker}
    {worker : Worker} {now : Instant} (h : s.Turn queue e entry (some worker)) (hclock : e.clock ≤ now)
    (hentry : ∀ old ∈ entry, old.FreeWithinWeek now) : worker.FreeWithinWeek now := by
  cases h with
  | join => exact Worker.freeWithinWeek_of_freeAt_le hclock
  | @beat _ _ _ old => exact hentry old rfl
  | start => exact Worker.freeWithinWeek_turnedTo _ hclock
  | answer | resubmit => exact Worker.freeWithinWeek_of_freeAt_le hclock

theorem freeWithinWeek_after {s : DispatchState Float} (hs : s.Named) {e : Event Float σ} {now : Instant}
    (hclock : e.clock ≤ now) (hfree : s.workers.FreeWithinWeek now) : (s.after e).workers.FreeWithinWeek now := by
  intro queue worker hworker
  by_cases hchanged : (s.after e).workers.workers.get? queue = s.workers.workers.get? queue
  · exact hfree queue worker (hchanged.symm.trans hworker)
  · have hturn := turn_of_changed hs hchanged
    rw [hworker] at hturn
    exact hturn.freeWithinWeek hclock (hfree queue)

theorem freeWithinWeek_run {s : DispatchState Float} (hs : s.Named) {events : List (Event Float σ)} {now : Instant}
    (hclock : ∀ e ∈ events, e.clock ≤ now) (hfree : s.workers.FreeWithinWeek now) :
    (s.run events).workers.FreeWithinWeek now := by
  refine foldl_induction (motive := fun events (s : DispatchState Float) =>
    (∀ e ∈ events, e.clock ≤ now) → s.workers.FreeWithinWeek now) (fun _ => hfree) ?_ events hclock
  intro events e ih hclock
  obtain ⟨hearlier, hlast⟩ := List.forall_mem_append.1 hclock
  exact freeWithinWeek_after (named_run hs events) (hlast e (List.mem_singleton_self e)) (ih hearlier)

end DispatchState

open WorkerRegistry in
/-- A worker that is given a task is expected to be free between the start and a week after it, and so stays busy for no
time to a week at any later time.  The load time counts if and only if the worker had another model.

Where the calendar has a week left, a greater estimate is not expected to end earlier; an estimate that is not above
zero, a NaN among them, ends at the start, one of a week or more after a week, and one of whole seconds after these.

Whatever tasks were given to whom in which order, a snapshot at a time not before any reading of the clock, which is any
snapshot if the clock never goes back, shows the idle workers as free now and the busy ones as free within a week. -/
theorem busy_at_most_a_week (staleAfter : Int) (ceiling : Nat) (responseQueue : String) (publishTimeoutMillis : Nat)
    [Outlet σ] :
    (∀ (r : WorkerRegistry) (queue : String) (worker : Worker) (task : Task Float) (start : Instant),
      r.workers.get? queue = some worker → worker.busy = false →
      ∃ r' worker', r.markBusy queue task start = (.ok (), r') ∧ r'.workers.get? queue = some worker' ∧
        worker'.busy = true ∧
        worker'.freeAt = expectedFree
          (if worker.specialization = task.modelType then task.processing else task.processing + task.loadSeconds)
          start ∧
        start ≤ worker'.freeAt ∧ worker'.freeAt ≤ start + Instant.seconds 604800 ∧
        ∀ now, start ≤ now → (worker'.view now).WithinWeek) ∧
    (∀ start, start + Instant.seconds 604800 ≤ Instant.last →
      (∀ estimate estimate' : Float, estimate ≤ estimate' →
        expectedFree estimate start ≤ expectedFree estimate' start) ∧
      (∀ estimate : Float, ¬ 0 < estimate → expectedFree estimate start = start) ∧
      (∀ estimate : Float, 604800 ≤ estimate → expectedFree estimate start = start + Instant.seconds 604800) ∧
      ∀ n : Nat, n ≤ 604800 → expectedFree (Float.ofNat n) start = start + Instant.seconds n) ∧
    (∀ (calls : List (WorkerCall Float)) (now : Instant), (∀ call ∈ calls, ∀ time ∈ call.clock?, time ≤ now) →
      ∀ view ∈ (({ staleAfter } : WorkerRegistry).run calls).snapshot now, view.WithinWeek) ∧
    (∀ (events : List (Event Float σ)) (now : Instant), (∀ e ∈ events, e.clock ≤ now) →
      ∀ view ∈ ((DispatchState.start staleAfter ceiling responseQueue publishTimeoutMillis).run
        events).workers.snapshot now, view.WithinWeek) := by
  refine ⟨?_, ?_, ?_, ?_⟩
  · intro r queue worker task start hworker hidle
    have hbounds := expectedFree_bounds (workload worker task) start
    exact ⟨_, worker.turnedTo task start, markBusy_of_idle hworker hidle task start, Table.get?_insert_self ..,
      rfl, rfl, hbounds.1, hbounds.2, fun now hlater => (Worker.freeWithinWeek_turnedTo task hlater).view⟩
  · intro start hroom
    refine ⟨fun _ _ hle => expectedFree_mono hle hroom, ?_, ?_, ?_⟩
    · intro estimate hnot
      have hnone : countedSeconds estimate = (0 : Nat) := by rw [countedSeconds_of_not_pos hnot, Nat.cast_zero]
      exact (expectedFree_of_countedSeconds hnone hroom).trans (Int.add_zero start)
    · intro estimate hweek
      have hall : countedSeconds estimate = (604800 : Nat) := by
        rw [countedSeconds_of_week_le hweek]
        norm_num
      exact expectedFree_of_countedSeconds hall hroom
    · intro n hn
      have hvalue : HasValue (Float.ofNat n) n := hasValue_ofNat (by omega)
      have hle : (n : ℚ) ≤ 604800 := by exact_mod_cast hn
      exact expectedFree_of_countedSeconds (by rw [countedSeconds_of_hasValue hvalue, min_eq_left hle]) hroom
  · intro calls now hclock
    exact (freeWithinWeek_run (named_empty staleAfter) hclock (freeWithinWeek_empty staleAfter now)).snapshot
  · intro events now hclock
    have hstart := freeWithinWeek_empty staleAfter now
    exact (DispatchState.freeWithinWeek_run (DispatchState.named_start ..) hclock hstart).snapshot

/-- A task whose length is no number. -/
def unmeasured : Task Float := Task.arrive "t" ⟨"model", 1, 3⟩ (0 / 0) 0 ⟨Bytes.ofText "{}", none, none⟩

/-- Two workers join, and one is given that task. -/
def oneAtWork : List (WorkerCall Float) :=
  [.registerBeat "v" 0 0, .registerBeat "w" 0 0, .markBusy "w" unmeasured 1000000]

/-- The same to a dispatcher: a worker joins, the task comes, and a pass brings them together. -/
def unmeasuredDispatch : List (Event Float Publication) :=
  [.registration ⟨"w", .register, 0⟩ 0, .work "t" ⟨"model", 1, 3⟩ (0 / 0) 0 ⟨Bytes.ofText "{}", none, none⟩ 0,
    .pass (fun _ _ _ _ => .ok (some "t")) .accepted 1000000]

/-- Whoever is at work on a task of no length is shown as free within a week, like all others, and a minute is taken for
a minute. -/
theorem busy_at_most_a_week_oneAtWork :
    let r := ({ staleAfter := 30 } : WorkerRegistry).run oneAtWork
    let s : DispatchState Float := (DispatchState.start 30 3 "results" 10000).run unmeasuredDispatch
    let views : List (WorkerView Float) := r.snapshot 60000000 ++ s.workers.snapshot 60000000
    views.map (fun view => (view.queue, view.busy)) = [("v", false), ("w", true), ("w", true)] ∧
      (∀ view ∈ views, view.WithinWeek) ∧
      WorkerRegistry.expectedFree (Float.ofNat 60) 0 = Instant.seconds 60 ∧
      ∃ r' worker, r.markBusy "v" unmeasured 60000000 = (.ok (), r') ∧ r'.workers.get? "v" = some worker ∧
        60000000 ≤ worker.freeAt ∧ worker.freeAt ≤ 60000000 + Instant.seconds 604800 := by
  intro r s views
  obtain ⟨hmark, hestimate, hcalls, hevents⟩ := busy_at_most_a_week 30 3 "results" 10000 (σ := Publication)
  have hshown : views.map (fun view => (view.queue, view.busy)) = [("v", false), ("w", true), ("w", true)] := by
    decide +kernel
  have hidle : (r.workers.get? "v").map (·.busy) = some false := by decide +kernel
  obtain ⟨idle, hthere, hfree⟩ := Option.map_eq_some_iff.1 hidle
  obtain ⟨r', worker, hmarked, hget, -, -, hlow, hhigh, -⟩ := hmark r "v" idle unmeasured 60000000 hthere hfree
  refine ⟨hshown, fun view hview => ?_, (hestimate 0 (by decide)).2.2.2 60 (by decide), r', worker, hmarked, hget,
    hlow, hhigh⟩
  rcases List.mem_append.1 hview with hview | hview
  · exact hcalls oneAtWork 60000000 (by simp [oneAtWork, WorkerCall.clock?]) view hview
  · exact hevents unmeasuredDispatch 60000000 (by simp [unmeasuredDispatch, Event.clock]) view hview

end SpeechDispatch
