import SpeechDispatch.Proofs.RegistryRun

/-!
# A worker lives by its beats

Who is registered, and since when silent, can be told from the calls alone: a worker is there if one of its beats was
taken since it was last removed, and its last beat is the latest of these (`WorkerRegistry.lastBeatAt_run`,
`WorkerRegistry.liveness_of_run`).  A beat that was sent later than it came counts as sent when it came.
-/

namespace SpeechDispatch

variable {α : Type}

/-- When a call shows a worker to be alive: at the time of a beat that is taken, and not later than it came. -/
def WorkerCall.shownAt? (staleAfter : Int) (name : String) : WorkerCall α → Option Instant
  | .registerBeat queue beatAt now =>
    if queue = name ∧ now - beatAt ≤ Instant.seconds staleAfter then some (min beatAt now) else none
  | .exit _ | .sweep _ _ | .markBusy _ _ _ | .markFree _ _ | .releaseIfHolding _ _ _ => none

/-- The times of the beats of a worker that are taken. -/
def WorkerCall.timesShown (staleAfter : Int) (name : String) (calls : List (WorkerCall α)) : List Instant :=
  calls.filterMap (·.shownAt? staleAfter name)

namespace WorkerCall

theorem shownAt?_eq_some_iff {staleAfter : Int} {name : String} {call : WorkerCall α} {t : Instant} :
    call.shownAt? staleAfter name = some t ↔
      ∃ beatAt now, call = .registerBeat name beatAt now ∧ now - beatAt ≤ Instant.seconds staleAfter ∧
        t = min beatAt now := by
  cases call with
  | registerBeat queue beatAt now =>
    simp only [shownAt?]
    split
    · rename_i htaken
      obtain ⟨rfl, hinTime⟩ := htaken
      constructor
      · intro h
        exact ⟨beatAt, now, rfl, hinTime, (Option.some.inj h).symm⟩
      · rintro ⟨beatAt', now', heq, -, rfl⟩
        cases heq
        rfl
    · rename_i hnot
      refine ⟨nofun, ?_⟩
      rintro ⟨beatAt', now', heq, hinTime, -⟩
      cases heq
      exact absurd ⟨rfl, hinTime⟩ hnot
  | exit | sweep | markBusy | markFree | releaseIfHolding => simp [shownAt?]

theorem mem_timesShown {staleAfter : Int} {name : String} {calls : List (WorkerCall α)} {t : Instant} :
    t ∈ timesShown staleAfter name calls ↔
      ∃ beatAt now, .registerBeat name beatAt now ∈ calls ∧ now - beatAt ≤ Instant.seconds staleAfter ∧
        t = min beatAt now := by
  simp only [timesShown, List.mem_filterMap, shownAt?_eq_some_iff]
  constructor
  · rintro ⟨call, hcall, beatAt, now, rfl, hinTime, ht⟩
    exact ⟨beatAt, now, hcall, hinTime, ht⟩
  · rintro ⟨beatAt, now, hcall, hinTime, ht⟩
    exact ⟨_, hcall, beatAt, now, rfl, hinTime, ht⟩

theorem timesShown_concat (staleAfter : Int) (name : String) (calls : List (WorkerCall α)) (call : WorkerCall α) :
    timesShown staleAfter name (calls ++ [call]) =
      timesShown staleAfter name calls ++ (call.shownAt? staleAfter name).toList := by
  rw [timesShown, List.filterMap_append]
  cases hshown : call.shownAt? staleAfter name <;> simp [timesShown, hshown]

end WorkerCall

private theorem max?_concat (l : List Int) (x : Int) : (l ++ [x]).max? = some (l.max?.elim x (max · x)) := by
  rw [List.max?_eq_some_iff]
  cases hmax : l.max? with
  | none =>
    obtain rfl := List.max?_eq_none_iff.1 hmax
    simp
  | some m =>
    obtain ⟨hmem, hle⟩ := List.max?_eq_some_iff.1 hmax
    simp only [Option.elim_some, List.mem_append, List.mem_singleton]
    refine ⟨?_, ?_⟩
    · rcases Int.le_total m x with hmx | hxm
      · exact .inr (by omega)
      · rw [Int.max_eq_left hxm]
        exact .inl hmem
    · rintro y (hy | rfl)
      · have := hle y hy
        omega
      · omega

namespace WorkerCall

variable [Quantity α]

/-- Of a worker that is not removed, a call moves the last beat on to when it shows the worker to be alive. -/
theorem lastBeatAt_onEntry (staleAfter : Int) (name : String) (call : WorkerCall α) (entry : Option Worker)
    (hstays : ¬ (entry.isSome ∧ call.onEntry staleAfter name entry = none)) :
    (call.onEntry staleAfter name entry).map (·.lastBeatAt) =
      match call.shownAt? staleAfter name with
      | some t => some ((entry.map (·.lastBeatAt)).elim t (max · t))
      | none => entry.map (·.lastBeatAt) := by
  cases call with
  | registerBeat queue beatAt now =>
    simp only [onEntry, shownAt?]
    split
    · cases entry <;> rfl
    · rfl
  | exit | sweep =>
    cases entry with
    | none => simp [onEntry, shownAt?]
    | some worker =>
      simp only [onEntry, Option.isSome_some, true_and] at hstays
      simp_all [onEntry, shownAt?]
  | markBusy | markFree | releaseIfHolding =>
    simp only [onEntry, shownAt?, Option.map_map]
    congr 1
    funext worker
    simp only [Function.comp_apply]
    split <;> rfl

/-- Beats that come at one time may come in any order. -/
theorem onEntry_registerBeat_comm (staleAfter : Int) (name queue other : String) (beatAt beatAt' now : Instant)
    (entry : Option Worker) :
    (registerBeat other beatAt' now : WorkerCall α).onEntry staleAfter name
        ((registerBeat queue beatAt now : WorkerCall α).onEntry staleAfter name entry) =
      (registerBeat queue beatAt now : WorkerCall α).onEntry staleAfter name
        ((registerBeat other beatAt' now : WorkerCall α).onEntry staleAfter name entry) := by
  simp only [onEntry]
  by_cases hqueue : queue = name ∧ now - beatAt ≤ Instant.seconds staleAfter
  · by_cases hother : other = name ∧ now - beatAt' ≤ Instant.seconds staleAfter
    · simp only [if_pos hqueue, if_pos hother]
      have hswap : ∀ t : Instant, max (max t (min beatAt now)) (min beatAt' now) =
          max (max t (min beatAt' now)) (min beatAt now) := by
        intro t
        rw [Int.max_assoc, Int.max_assoc, Int.max_comm (min beatAt now)]
      cases entry with
      | some worker => simp only [Worker.afterBeat, hswap]
      | none => simp only [Worker.afterBeat, Worker.join, Int.max_comm (min beatAt now)]
    · simp only [if_neg hother]
  · simp only [if_neg hqueue]

end WorkerCall

namespace WorkerRegistry

variable [Quantity α]

/-- A call removes a worker that is there. -/
def Removes (r : WorkerRegistry) (call : WorkerCall α) (name : String) : Prop :=
  (r.workers.get? name).isSome ∧ (r.after call).workers.get? name = none

/-- A worker is removed by its exit, or by a sweep if its last beat is as long ago as the sweep demands. -/
theorem removes_iff {r : WorkerRegistry} (hr : r.Named) {call : WorkerCall α} {name : String} :
    r.Removes call name ↔ ∃ worker, r.workers.get? name = some worker ∧
      (call = .exit name ∨ ∃ now threshold, call = .sweep now threshold ∧
        Instant.seconds threshold ≤ now - worker.lastBeatAt) := by
  rw [Removes, get?_after hr]
  cases hworker : r.workers.get? name with
  | none => simp
  | some worker =>
    simp only [Option.isSome_some, true_and, Option.some.injEq, exists_eq_left']
    cases call with
    | registerBeat queue beatAt now =>
      simp only [WorkerCall.onEntry]
      split <;> simp
    | exit queue => simp [WorkerCall.onEntry, eq_comm]
    | sweep now threshold => simp [WorkerCall.onEntry, Worker.isSilentFor, Option.filter_some]
    | markBusy | markFree | releaseIfHolding => simp [WorkerCall.onEntry]

/-- A list of calls is cut behind the last one that removed a worker; the cut is at the start if none did. -/
structure CutAtRemoval (staleAfter : Int) (name : String) (before since : List (WorkerCall α)) : Prop where
  removed : before = [] ∨ ∃ earlier call, before = earlier ++ [call] ∧
    (({ staleAfter } : WorkerRegistry).run earlier).Removes call name
  stays : ∀ earlier call later, since = earlier ++ call :: later →
    ¬ (({ staleAfter } : WorkerRegistry).run (before ++ earlier)).Removes call name

theorem exists_cutAtRemoval (staleAfter : Int) (name : String) (calls : List (WorkerCall α)) :
    ∃ before since, calls = before ++ since ∧ CutAtRemoval staleAfter name before since := by
  induction calls using List.reverseRecOn with
  | nil => exact ⟨[], [], rfl, .inl rfl, fun earlier call later h => by simp at h⟩
  | append_singleton calls call ih =>
    by_cases hremoves : (({ staleAfter } : WorkerRegistry).run calls).Removes call name
    · refine ⟨calls ++ [call], [], (List.append_nil _).symm, .inr ⟨calls, call, rfl, hremoves⟩, ?_⟩
      intro earlier call' later h
      simp at h
    · obtain ⟨before, since, rfl, hcut⟩ := ih
      refine ⟨before, since ++ [call], List.append_assoc .., hcut.removed, ?_⟩
      intro earlier call' later h
      -- the call that stands behind `earlier` is the new one, or it was there before
      rcases List.eq_nil_or_concat later with rfl | ⟨rest, last, rfl⟩
      · obtain ⟨rfl, hcall⟩ := List.append_inj' h rfl
        obtain rfl : call = call' := by simpa using hcall
        exact hremoves
      · rw [List.concat_eq_append, ← List.cons_append, ← List.append_assoc] at h
        exact hcut.stays earlier call' rest (List.append_inj' h rfl).1

/-- The last beat of a worker is the latest of those that were taken since it was last removed; if there is none, the
worker is not there. -/
theorem lastBeatAt_run {staleAfter : Int} {name : String} {before since : List (WorkerCall α)}
    (hcut : CutAtRemoval staleAfter name before since) :
    ((({ staleAfter } : WorkerRegistry).run (before ++ since)).workers.get? name).map (·.lastBeatAt) =
      (WorkerCall.timesShown staleAfter name since).max? := by
  obtain ⟨hremoved, hstays⟩ := hcut
  induction since using List.reverseRecOn with
  | nil =>
    rw [List.append_nil]
    rcases hremoved with rfl | ⟨earlier, call, rfl, -, hgone⟩
    · rfl
    · have hrun : ({ staleAfter } : WorkerRegistry).run (earlier ++ [call]) =
          (({ staleAfter } : WorkerRegistry).run earlier).after call := List.foldl_concat ..
      rw [hrun, hgone]
      rfl
  | append_singleton since call ih =>
    have hnamed : (({ staleAfter } : WorkerRegistry).run (before ++ since)).Named := named_run (named_empty _) _
    have hstale : (({ staleAfter } : WorkerRegistry).run (before ++ since)).staleAfter = staleAfter :=
      staleAfter_run _ _
    have hnot := hstays since call [] rfl
    have hbefore := ih fun earlier call' later h => hstays earlier call' (later ++ [call]) (by simp [h])
    rw [Removes, get?_after hnamed, hstale] at hnot
    have hrun : ({ staleAfter } : WorkerRegistry).run (before ++ (since ++ [call])) =
        (({ staleAfter } : WorkerRegistry).run (before ++ since)).after call := by
      rw [← List.append_assoc]
      exact List.foldl_concat ..
    rw [hrun, get?_after hnamed, hstale, WorkerCall.lastBeatAt_onEntry _ _ _ _ hnot, hbefore,
      WorkerCall.timesShown_concat]
    cases call.shownAt? staleAfter name with
    | none => simp
    | some t =>
      rw [Option.toList_some, max?_concat]

section Cut

variable {staleAfter : Int} {name : String} {before since : List (WorkerCall α)}
  (hcut : CutAtRemoval staleAfter name before since)

include hcut

theorem exists_iff_of_cut :
    (∃ worker, (({ staleAfter } : WorkerRegistry).run (before ++ since)).workers.get? name = some worker) ↔
      ∃ beatAt now, .registerBeat name beatAt now ∈ since ∧ now - beatAt ≤ Instant.seconds staleAfter := by
  have hlast := lastBeatAt_run hcut
  constructor
  · rintro ⟨worker, hworker⟩
    rw [hworker] at hlast
    have hmem := (List.max?_eq_some_iff.1 hlast.symm).1
    obtain ⟨beatAt, now, hcall, hinTime, -⟩ := WorkerCall.mem_timesShown.1 hmem
    exact ⟨beatAt, now, hcall, hinTime⟩
  · rintro ⟨beatAt, now, hcall, hinTime⟩
    have hmem : min beatAt now ∈ WorkerCall.timesShown staleAfter name since :=
      WorkerCall.mem_timesShown.2 ⟨beatAt, now, hcall, hinTime, rfl⟩
    cases hworker : (({ staleAfter } : WorkerRegistry).run (before ++ since)).workers.get? name with
    | none =>
      rw [hworker] at hlast
      rw [List.max?_eq_none_iff.1 hlast.symm] at hmem
      cases hmem
    | some worker => exact ⟨worker, rfl⟩

theorem lastBeatAt_of_cut {worker : Worker}
    (hworker : (({ staleAfter } : WorkerRegistry).run (before ++ since)).workers.get? name = some worker) :
    (∃ beatAt now, .registerBeat name beatAt now ∈ since ∧ now - beatAt ≤ Instant.seconds staleAfter ∧
      worker.lastBeatAt = min beatAt now) ∧
    ∀ beatAt now, .registerBeat name beatAt now ∈ since → now - beatAt ≤ Instant.seconds staleAfter →
      min beatAt now ≤ worker.lastBeatAt := by
  have hlast := lastBeatAt_run hcut
  rw [hworker] at hlast
  obtain ⟨hmem, hle⟩ := List.max?_eq_some_iff.1 hlast.symm
  refine ⟨WorkerCall.mem_timesShown.1 hmem, fun beatAt now hcall hinTime => ?_⟩
  exact hle _ (WorkerCall.mem_timesShown.2 ⟨beatAt, now, hcall, hinTime, rfl⟩)

/-- A sweep removes a worker from which nothing came for long enough, whatever times its beats had. -/
theorem get?_sweep_of_cut {sweptAt : Instant} {threshold : Int}
    (hlong : ∀ beatAt now, .registerBeat name beatAt now ∈ since → Instant.seconds threshold ≤ sweptAt - now) :
    ((({ staleAfter } : WorkerRegistry).run (before ++ since)).sweep sweptAt threshold).2.workers.get? name = none := by
  rw [get?_sweep (named_run (named_empty staleAfter) _)]
  cases hworker : (({ staleAfter } : WorkerRegistry).run (before ++ since)).workers.get? name with
  | none => rfl
  | some worker =>
    obtain ⟨⟨beatAt, now, hcall, -, hlast⟩, -⟩ := lastBeatAt_of_cut hcut hworker
    have hold := hlong beatAt now hcall
    have hnotLater : worker.lastBeatAt ≤ now := hlast ▸ Int.min_le_right beatAt now
    have hsilent : worker.isSilentFor sweptAt threshold = true := by
      apply decide_eq_true
      exact Int.le_trans hold (Int.sub_le_sub_left hnotLater sweptAt)
    rw [Option.filter_some, hsilent]
    rfl

end Cut

/-- No call but a removal moves the last beat of a worker back. -/
theorem lastBeatAt_le_after {r : WorkerRegistry} (hr : r.Named) {call : WorkerCall α} {name : String} {worker : Worker}
    (hworker : r.workers.get? name = some worker) (hstays : ¬ r.Removes call name) :
    ∃ later, (r.after call).workers.get? name = some later ∧ worker.lastBeatAt ≤ later.lastBeatAt := by
  have hlast := WorkerCall.lastBeatAt_onEntry r.staleAfter name call (r.workers.get? name)
  rw [Removes] at hstays
  rw [← get?_after hr] at hlast
  have hlast := hlast hstays
  cases hlater : (r.after call).workers.get? name with
  | none => exact absurd ⟨Option.isSome_of_eq_some hworker, hlater⟩ hstays
  | some later =>
    refine ⟨later, rfl, ?_⟩
    rw [hlater, hworker] at hlast
    cases hshown : call.shownAt? r.staleAfter name with
    | none =>
      rw [hshown] at hlast
      exact Int.le_of_eq (Option.some.inj hlast).symm
    | some t =>
      rw [hshown] at hlast
      have hmax : later.lastBeatAt = max worker.lastBeatAt t := Option.some.inj hlast
      rw [hmax]
      exact Int.le_max_left ..

/-- Beats that come at one time give the same registry in any order. -/
theorem run_registerBeat_perm {r : WorkerRegistry} (hr : r.Named) (now : Instant)
    {beats beats' : List (String × Instant)} (hperm : beats.Perm beats') :
    r.run (beats.map fun beat => (.registerBeat beat.1 beat.2 now : WorkerCall α)) =
      r.run (beats'.map fun beat => (.registerBeat beat.1 beat.2 now : WorkerCall α)) := by
  refine eq_of_get? ((staleAfter_run ..).trans (staleAfter_run ..).symm) fun name => ?_
  rw [get?_run hr, get?_run hr, List.foldl_map, List.foldl_map]
  apply hperm.foldl_eq'
  intro beat _ beat' _ entry
  exact WorkerCall.onEntry_registerBeat_comm r.staleAfter name beat.1 beat'.1 beat.2 beat'.2 now entry

/-- After any run, a worker is registered if and only if one of its beats was taken since it was last removed, and then
its last beat is the latest of these, those from the future being counted as sent when they came.  It is removed by its
exit, and by a sweep that its last beat is old enough for.  So no call but a removal moves its last beat back, beats
from the future do not keep it there, and beats that come at one time may come in any order. -/
theorem liveness_of_run (staleAfter : Int) (calls : List (WorkerCall α)) (name : String) :
    let r := ({ staleAfter } : WorkerRegistry).run calls
    (∃ before since, calls = before ++ since ∧ CutAtRemoval staleAfter name before since) ∧
    (∀ before since, calls = before ++ since → CutAtRemoval staleAfter name before since →
      ((∃ worker, r.workers.get? name = some worker) ↔
        ∃ beatAt now, .registerBeat name beatAt now ∈ since ∧ now - beatAt ≤ Instant.seconds staleAfter) ∧
      (∀ worker, r.workers.get? name = some worker →
        (∃ beatAt now, .registerBeat name beatAt now ∈ since ∧ now - beatAt ≤ Instant.seconds staleAfter ∧
          worker.lastBeatAt = min beatAt now) ∧
        ∀ beatAt now, .registerBeat name beatAt now ∈ since → now - beatAt ≤ Instant.seconds staleAfter →
          min beatAt now ≤ worker.lastBeatAt) ∧
      (∀ sweptAt threshold, (∀ beatAt now, .registerBeat name beatAt now ∈ since →
          Instant.seconds threshold ≤ sweptAt - now) →
        (r.sweep sweptAt threshold).2.workers.get? name = none)) ∧
    (∀ call : WorkerCall α, r.Removes call name ↔ ∃ worker, r.workers.get? name = some worker ∧
      (call = .exit name ∨ ∃ now threshold, call = .sweep now threshold ∧
        Instant.seconds threshold ≤ now - worker.lastBeatAt)) ∧
    (∀ (call : WorkerCall α) worker, r.workers.get? name = some worker → ¬ r.Removes call name →
      ∃ later, (r.after call).workers.get? name = some later ∧ worker.lastBeatAt ≤ later.lastBeatAt) ∧
    (∀ now (beats beats' : List (String × Instant)), beats.Perm beats' →
      r.run (beats.map fun beat => (.registerBeat beat.1 beat.2 now : WorkerCall α)) =
        r.run (beats'.map fun beat => (.registerBeat beat.1 beat.2 now : WorkerCall α))) := by
  intro r
  have hnamed : r.Named := named_run (named_empty staleAfter) calls
  refine ⟨exists_cutAtRemoval staleAfter name calls, ?_, fun call => removes_iff hnamed, ?_, ?_⟩
  · intro before since hcalls hcut
    subst hcalls
    refine ⟨exists_iff_of_cut hcut, fun worker hworker => lastBeatAt_of_cut hcut hworker, ?_⟩
    intro sweptAt threshold hlong
    exact get?_sweep_of_cut hcut hlong
  · intro call worker hworker hstays
    exact lastBeatAt_le_after hnamed hworker hstays
  · intro now beats beats' hperm
    exact run_registerBeat_perm hnamed now hperm

/-- A worker leaves and comes back, with a beat from the future and then with one that was sent before. -/
def comesBack : List (WorkerCall Float) :=
  [.registerBeat "w" 0 0, .exit "w", .registerBeat "w" 90000000 10000000, .registerBeat "w" 5000000 12000000]

/-- The last beat of the worker is as late as it came, not as late as it says, and no beat before the exit counts.  So
the worker is removed half a minute after it came. -/
theorem liveness_of_run_comesBack :
    let r := ({ staleAfter := 30 } : WorkerRegistry).run comesBack
    (r.workers.get? "w").map (·.lastBeatAt) = some 10000000 ∧
      (∃ before since, comesBack = before ++ since ∧ CutAtRemoval 30 "w" before since ∧
        ∃ beatAt now, .registerBeat "w" beatAt now ∈ since ∧ now - beatAt ≤ Instant.seconds 30 ∧
          min beatAt now = 10000000) ∧
      r.Removes (.sweep 40000000 30 : WorkerCall Float) "w" := by
  intro r
  have hlast : (r.workers.get? "w").map (·.lastBeatAt) = some 10000000 := by decide +kernel
  obtain ⟨worker, hworker, hbeat⟩ := Option.map_eq_some_iff.1 hlast
  obtain ⟨⟨before, since, hcalls, hcut⟩, hsince, hremoves, -⟩ := liveness_of_run 30 comesBack "w"
  obtain ⟨-, hlatest, -⟩ := hsince before since hcalls hcut
  obtain ⟨⟨beatAt, now, hcall, hinTime, hshown⟩, -⟩ := hlatest worker hworker
  refine ⟨hlast, ⟨before, since, hcalls, hcut, beatAt, now, hcall, hinTime, hshown.symm.trans hbeat⟩, ?_⟩
  refine (hremoves (.sweep 40000000 30)).2 ⟨worker, hworker, .inr ⟨40000000, 30, rfl, ?_⟩⟩
  rw [hbeat]
  decide

end WorkerRegistry

end SpeechDispatch
