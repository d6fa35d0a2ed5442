import SpeechDispatch.Proofs.Move

/-!
# An event is a succession of moves

`DispatchState.moves_after`: what an event does to the state is what its acts do, one move after another.  So whatever
every move keeps is kept by every run (`DispatchState.invariant_run`).
-/

namespace SpeechDispatch

variable {α σ : Type}

/-- A strategy that names pending tasks only. -/
def Strategy.NamesPending (strategy : Strategy α) : Prop :=
  ∀ {workers : List (WorkerView α)} {groups : TaskGroups α} {index : Nat} {now : Instant} {id : String},
    strategy workers groups index now = .ok (some id) →
      ∃ modelType view, (modelType, view) ∈ groups.listed ∧ view.id = id

/-- An event that starts pending tasks only. -/
def Event.NamesPending : Event α σ → Prop
  | .pass strategy _ _ => strategy.NamesPending
  | _ => True

/-! ### Notices -/

namespace Hub

variable [Outlet σ]

/-- A notice of one task is accepted or not, and nothing else is published. -/
private theorem notified_of_notifyAll (outlet : σ) (task : Task α) (reason : String) :
    task.Notified (notifyAll (Journal.mk outlet []) [(task, reason)]).2.sent := by
  unfold notifyAll
  cases hreply : task.origin.replyTo with
  | none => exact .inl rfl
  | some replyTo =>
    dsimp only
    rw [Journal.publish_eq]
    rcases Outlet.publish outlet replyTo (failureMessage task reason) with ⟨_ | _ | _, outlet'⟩
    · exact .inr ⟨replyTo, reason, hreply, rfl⟩
    · exact .inl rfl
    · exact .inl rfl

theorem map_fst_notices (outlet : σ) (evicted : List (Task α × String)) :
    (notices outlet evicted).map (·.1) = evicted.map (·.1) := by
  induction evicted generalizing outlet with
  | nil => rfl
  | cons notice rest ih =>
    unfold notices
    split
    · rw [List.map_cons, ih, List.map_cons]
    · rw [List.map_cons, List.map_map, List.map_cons]
      rfl

theorem notified_of_mem_notices {outlet : σ} {evicted : List (Task α × String)} {notice : Task α × List Sent}
    (h : notice ∈ notices outlet evicted) : notice.1.Notified notice.2 := by
  induction evicted generalizing outlet with
  | nil => cases h
  | cons first rest ih =>
    have hfirst := notified_of_notifyAll outlet first.1 first.2
    unfold notices at h
    split at h
    · rename_i journal hjournal
      rw [hjournal] at hfirst
      rcases List.mem_cons.1 h with rfl | hlater
      · exact hfirst
      · exact ih hlater
    · rename_i journal hjournal
      rw [hjournal] at hfirst
      rcases List.mem_cons.1 h with rfl | hlater
      · exact hfirst
      · obtain ⟨later, -, rfl⟩ := List.mem_map.1 hlater
        exact .inl rfl

/-- What was accepted before is kept, and nothing depends on it. -/
private theorem notifyAll_journal (journal : Journal σ) (evicted : List (Task α × String)) :
    notifyAll journal evicted =
      ((notifyAll (Journal.mk journal.outlet []) evicted).1,
        ⟨(notifyAll (Journal.mk journal.outlet []) evicted).2.outlet,
          journal.sent ++ (notifyAll (Journal.mk journal.outlet []) evicted).2.sent⟩) := by
  induction evicted generalizing journal with
  | nil => simp [notifyAll]
  | cons notice rest ih =>
    unfold notifyAll
    cases hreply : notice.1.origin.replyTo with
    | none => exact ih journal
    | some replyTo =>
      dsimp only
      rw [Journal.publish_eq, Journal.publish_eq]
      rcases Outlet.publish journal.outlet replyTo (failureMessage notice.1 notice.2) with ⟨_ | _ | _, outlet⟩
      · dsimp only
        rw [ih ⟨outlet, journal.sent ++ _⟩, ih ⟨outlet, [] ++ _⟩]
        simp
      · exact ih ⟨outlet, journal.sent⟩
      · simp

private theorem notifyAll_cons (outlet : σ) (notice : Task α × String) (rest : List (Task α × String)) :
    notifyAll outlet (notice :: rest) =
      match notifyAll outlet [notice] with
      | (true, outlet) => notifyAll outlet rest
      | (false, outlet) => (false, outlet) := by
  obtain ⟨task, reason⟩ := notice
  simp only [notifyAll]
  cases task.origin.replyTo with
  | none => rfl
  | some replyTo =>
    dsimp only
    rcases Outlet.publish outlet replyTo (failureMessage task reason) with ⟨_ | _ | _, outlet'⟩
    all_goals rfl

/-- What the notices of a round say was accepted is what the outlet accepted. -/
theorem flatMap_sent_notices (outlet : σ) (evicted : List (Task α × String)) :
    (notices outlet evicted).flatMap (·.2) = (notifyAll (Journal.mk outlet []) evicted).2.sent := by
  induction evicted generalizing outlet with
  | nil => rfl
  | cons notice rest ih =>
    rw [notifyAll_cons]
    unfold notices
    split
    · rename_i journal hjournal
      rw [hjournal, List.flatMap_cons, ih]
      dsimp only
      rw [notifyAll_journal journal]
    · rename_i journal hjournal
      rw [hjournal, List.flatMap_cons]
      simp

end Hub

namespace DispatchState

variable [Quantity α] {onlyPending : Prop}

/-! ### Removals -/

private theorem moves_exits {s : DispatchState α} (hs : s.Named) (queues : List String) :
    Moves onlyPending s ((s.workers.workers.takeAll queues).1.map (.leave ·.queue))
      (queues.foldl (fun s queue => (s.exitWorker queue).2) s) := by
  induction queues generalizing s with
  | nil => exact .nil s
  | cons queue rest ih =>
    rw [List.foldl_cons, Table.takeAll_cons, List.map_append]
    have hrest := ih (hs.exitWorker queue)
    cases h : s.workers.workers.get? queue with
    | none =>
      rw [exitWorker_of_get?_eq_none h] at hrest ⊢
      rw [Table.erase_of_get?_eq_none h]
      exact hrest
    | some worker =>
      have hworkers : (s.exitWorker queue).2.workers.workers = s.workers.workers.erase queue := by
        rw [exitWorker_of_get? h]
      rw [hworkers] at hrest
      rw [Option.toList_some, List.map_singleton, hs.workers h]
      exact (Moves.single (.leave s queue)).append hrest

/-- A sweep makes the workers leave that it reports. -/
theorem moves_sweep {s : DispatchState α} (hs : s.Named) (now : Instant) (threshold : Int) :
    Moves onlyPending s ((s.sweep now threshold).1.removed.map .leave) (s.sweep now threshold).2 := by
  have hremoved : (s.sweep now threshold).1.removed =
      (s.workers.workers.takeAll (s.workers.silentQueues now threshold)).1.map (·.queue) := rfl
  rw [sweep_eq_foldl_exitWorker, hremoved, List.map_map]
  exact moves_exits hs _

theorem Named.sweep {s : DispatchState α} (hs : s.Named) (now : Instant) (threshold : Int) :
    (s.sweep now threshold).2.Named := by
  have hmoves : Moves False s _ (s.sweep now threshold).2 := moves_sweep hs now threshold
  exact hmoves.named hs

/-- Taking tasks out that all may be removed by one kind of act is removing them in turn. -/
private theorem moves_forgets {act : String → List Sent → Act α} {p : Task α → Prop} {s : DispatchState α}
    (hs : s.Named)
    (hmove : ∀ {s' : DispatchState α} {id task sent}, s'.tasks.ceiling = s.tasks.ceiling →
      s'.tasks.tasks.get? id = some task → p task → task.Notified sent →
      Move onlyPending s' (act id sent) (s'.forget id))
    (ids : List String) (hids : ∀ id ∈ ids, ∀ task, s.tasks.tasks.get? id = some task → p task)
    {told : List (Task α × List Sent)} (htold : told.map (·.1) = (s.tasks.tasks.takeAll ids).1)
    (hnotified : ∀ notice ∈ told, notice.1.Notified notice.2) :
    Moves onlyPending s (told.map fun notice => act notice.1.id notice.2)
      { s with tasks := { s.tasks with tasks := (s.tasks.tasks.takeAll ids).2 } } := by
  induction ids generalizing s told with
  | nil =>
    obtain rfl := List.map_eq_nil_iff.1 htold
    exact .nil s
  | cons id rest ih =>
    have hrest : ∀ other ∈ rest, ∀ task, (s.forget id).tasks.tasks.get? other = some task → p task := by
      intro other hmem task h
      rw [get?_forget] at h
      split at h
      · cases h
      · exact hids other (List.mem_cons_of_mem _ hmem) task h
    rw [Table.takeAll_cons] at htold ⊢
    cases h : s.tasks.tasks.get? id with
    | none =>
      -- an id under which nothing stands is passed over
      have hforget : s.forget id = s := by
        change { s with tasks := { s.tasks with tasks := s.tasks.tasks.erase id } } = s
        rw [Table.erase_of_get?_eq_none h]
      rw [h, Table.erase_of_get?_eq_none h] at htold
      rw [hforget] at hrest
      rw [Table.erase_of_get?_eq_none h]
      exact ih hs hmove hrest htold hnotified
    | some task =>
      rw [h, Option.toList_some, List.singleton_append] at htold
      obtain ⟨⟨first, sent⟩, later, rfl, rfl, hlater⟩ := List.map_eq_cons_iff.1 htold
      have hfirst : Move onlyPending s (act first.id sent) (s.forget id) := by
        rw [hs.tasks h]
        exact hmove rfl h (hids id (List.mem_cons_self ..) first h) (hnotified _ (List.mem_cons_self ..))
      exact (Moves.single hfirst).append (ih (hs.forget id) hmove hrest hlater
        fun notice hmem => hnotified notice (List.mem_cons_of_mem _ hmem))

theorem moves_evictExhausted {s : DispatchState α} (hs : s.Named) {told : List (Task α × List Sent)}
    (htold : told.map (·.1) = s.evictExhausted.1) (hnotified : ∀ notice ∈ told, notice.1.Notified notice.2) :
    Moves onlyPending s (told.map fun notice => .giveUp notice.1.id notice.2) s.evictExhausted.2 := by
  refine moves_forgets (p := fun task => task.started = false ∧ task.isExhausted s.tasks.ceiling = true) hs
    (fun hceiling htask h => .giveUp htask h.1 (hceiling ▸ h.2)) _ ?_ htold hnotified
  intro id hid task htask
  obtain ⟨other, hother, h⟩ := (TaskRegistry.mem_exhausted hs.tasks).1 hid
  obtain rfl := Option.some.inj (htask.symm.trans hother)
  exact h

theorem moves_evictUnredelivered {s : DispatchState α} (hs : s.Named) (now : Instant) (threshold : Int)
    {told : List (Task α × List Sent)} (htold : told.map (·.1) = (s.evictUnredelivered now threshold).1)
    (hnotified : ∀ notice ∈ told, notice.1.Notified notice.2) :
    Moves onlyPending s (told.map fun notice => .expire notice.1.id notice.2)
      (s.evictUnredelivered now threshold).2 := by
  refine moves_forgets (p := fun task => task.forwardFailedAt.isSome = true) hs
    (fun _ htask h => .expire htask h) _ ?_ htold hnotified
  intro id hid task htask
  obtain ⟨other, failedAt, hother, hfailed, -⟩ := (TaskRegistry.mem_unredelivered hs.tasks).1 hid
  obtain rfl := Option.some.inj (htask.symm.trans hother)
  rw [hfailed]
  rfl

/-! ### Starts -/

variable [Outlet σ]

private theorem moves_offer {h : Hub α (Journal σ)} (hs : h.state.Named) {strategy : Strategy α}
    (hnames : onlyPending → strategy.NamesPending) (queue : String) (now : Instant) :
    ∃ sent, (h.offer strategy queue now).2.outlet.sent = h.outlet.sent ++ sent ∧
      Moves onlyPending h.state (sent.filterMap Act.ofDispatch) (h.offer strategy queue now).2.state := by
  unfold Hub.offer
  dsimp only
  split
  · exact ⟨[], by simp, .nil _⟩
  split
  · exact ⟨[], by simp, .nil _⟩
  split
  · rename_i id hid
    unfold Hub.dispatch
    rcases h.state.startOn_cases id queue h.outlet now with ⟨e, -, hstart⟩ | ⟨task, e, journal, -, hpublish, hstart⟩ |
      ⟨task, worker, journal, htask, hwaits, hworker, hidle, hpublish, hstart⟩
    -- nothing is started before its message is accepted
    · rw [hstart]
      exact ⟨[], by simp [Hub.countDispatchFailure], .nil _⟩
    · rw [Journal.publishWithin_eq] at hpublish
      obtain ⟨hresult, rfl⟩ := Prod.mk.inj hpublish
      rw [hstart, hresult]
      exact ⟨[], by simp [Hub.countDispatchFailure], .nil _⟩
    · rw [Journal.publishWithin_eq] at hpublish
      obtain ⟨hresult, rfl⟩ := Prod.mk.inj hpublish
      rw [hstart, hresult]
      -- a strategy that names what the snapshot lists names a pending task
      have hpending : onlyPending → task.isPending h.state.tasks.ceiling = true := by
        intro honly
        obtain ⟨_, view, hview, rfl⟩ := hnames honly hid
        obtain ⟨other, hother, hother'⟩ := TaskRegistry.exists_of_mem_listed_snapshot hs.tasks hview
        obtain rfl := Option.some.inj (htask.symm.trans hother)
        exact hother'
      refine ⟨[(queue, h.state.dispatchMessage task)], rfl, ?_⟩
      have hact : [(queue, h.state.dispatchMessage task)].filterMap Act.ofDispatch = [(.start id queue : Act α)] := by
        simp [Act.ofDispatch, dispatchMessage, hs.tasks htask]
      rw [hact]
      exact .single (.start now htask hwaits hpending hworker hidle)
  · exact ⟨[], by simp, .nil _⟩
  · exact ⟨[], by simp, .nil _⟩

private theorem moves_offerAll {h : Hub α (Journal σ)} (hs : h.state.Named) {strategy : Strategy α}
    (hnames : onlyPending → strategy.NamesPending) (now : Instant) (queues : List String) :
    ∃ sent, (h.offerAll strategy now queues).2.outlet.sent = h.outlet.sent ++ sent ∧
      Moves onlyPending h.state (sent.filterMap Act.ofDispatch) (h.offerAll strategy now queues).2.state := by
  induction queues generalizing h with
  | nil => exact ⟨[], by simp [Hub.offerAll], .nil _⟩
  | cons queue rest ih =>
    obtain ⟨first, hfirst, hmoves⟩ := moves_offer hs hnames queue now
    obtain ⟨others, hothers, hmoves'⟩ := ih (hmoves.named hs)
    refine ⟨first ++ others, ?_, ?_⟩
    · rw [Hub.offerAll, hothers, hfirst, List.append_assoc]
    · rw [List.filterMap_append]
      exact hmoves.append hmoves'

private theorem moves_pass {s : DispatchState α} (hs : s.Named) {strategy : Strategy α}
    (hnames : onlyPending → strategy.NamesPending) (outlet : σ) (now : Instant) :
    Moves onlyPending s (s.acts (.pass strategy outlet now)) (s.after (.pass strategy outlet now)) := by
  have hprune : Moves onlyPending s ((s.pruneExpired now).1.removed.map .leave) (s.pruneExpired now).2 :=
    moves_sweep hs now _
  let h : Hub α (Journal σ) := { state := s, outlet := Journal.mk outlet [] }
  obtain ⟨sent, hsent, hmoves⟩ :=
    moves_offerAll (h := h.prune now) (hprune.named hs) hnames now (h.prune now).state.workers.idleQueues
  have hacts : s.acts (.pass strategy outlet now) =
      (s.pruneExpired now).1.removed.map .leave ++ sent.filterMap Act.ofDispatch := by
    change _ ++ (h.pass strategy now).2.outlet.sent.filterMap _ = _
    rw [Hub.outlet_pass, hsent]
    rfl
  have hafter : s.after (.pass strategy outlet now) =
      ((h.prune now).offerAll strategy now (h.prune now).state.workers.idleQueues).2.state := by
    rw [← Hub.state_pass, ← Hub.state_pass_onOutlet]
    rfl
  rw [hacts, hafter]
  exact hprune.append hmoves

/-! ### Messages -/

private theorem moves_registration (s : DispatchState α) (message : Registration) (now : Instant) :
    Moves onlyPending s (s.acts (.registration message now : Event α σ))
      (s.after (.registration message now : Event α σ)) := by
  unfold acts after
  dsimp only
  rcases s.applyRegistration_cases message now with ⟨answer, hanswer, h⟩ | ⟨beatAt, hkind, -, h⟩ |
    ⟨worker, hkind, -, h⟩
  · rw [h]
    rcases answer with e | _ | _
    · exact .nil s
    · exact .nil s
    · exact absurd rfl hanswer
  · rw [h]
    dsimp only
    rw [if_neg hkind]
    exact .single (.beat s _ beatAt now)
  · rw [h]
    dsimp only
    rw [if_pos hkind]
    exact .single (.leave s _)

private theorem moves_work (s : DispatchState α) (id : String) (profile : ModelProfile α) (duration : α)
    (arrivedAt : Instant) (origin : Origin) (now : Instant) :
    Moves onlyPending s (s.acts (.work id profile duration arrivedAt origin now : Event α σ))
      (s.after (.work id profile duration arrivedAt origin now : Event α σ)) := by
  have hnew := Task.isNew_arrive id profile duration arrivedAt origin
  unfold acts after
  dsimp only
  rcases s.addTask_cases (Task.arrive id profile duration arrivedAt origin) now with
    ⟨e, hadd, h⟩ | ⟨hadd, hnone, h⟩ | ⟨old, hadd, hold, h⟩
  · rw [hadd, h]
    exact .nil s
  · rw [hadd, h]
    exact .single (.accept hnew hnone)
  · rw [hadd, h]
    exact .single (.replace now hnew hold)

omit [Quantity α] in
/-- A result that is forwarded is published once where the task has a reply route. -/
private theorem sent_forward_of_ok {s : DispatchState α} {task : Task α} {body : Bytes} {outlet : σ}
    (h : (s.forward task body (Journal.mk outlet [])).1 = .ok ()) :
    (s.forward task body (Journal.mk outlet [])).2.sent =
      task.origin.replyTo.toList.map fun replyTo => (replyTo, ⟨body, some task.callerCorrelation, none⟩) := by
  unfold forward at h ⊢
  cases hreply : task.origin.replyTo with
  | none => rfl
  | some replyTo =>
    simp only [hreply, Journal.publishWithin_eq] at h ⊢
    rw [h]
    rfl

omit [Quantity α] in
private theorem sent_forward_of_ne_ok {s : DispatchState α} {task : Task α} {body : Bytes} {outlet : σ}
    (h : (s.forward task body (Journal.mk outlet [])).1 ≠ .ok ()) :
    (s.forward task body (Journal.mk outlet [])).2.sent = [] := by
  unfold forward at h ⊢
  cases hreply : task.origin.replyTo with
  | none =>
    simp only [hreply] at h
    exact absurd rfl h
  | some replyTo =>
    simp only [hreply, Journal.publishWithin_eq] at h ⊢
    split
    · rename_i hresult
      exact absurd hresult h
    · rfl

private theorem moves_response (s : DispatchState α) (id : String) (body : Bytes) (redelivered : Bool) (outlet : σ)
    (now : Instant) :
    Moves onlyPending s (s.acts (.response id body redelivered outlet now))
      (s.after (.response id body redelivered outlet now)) := by
  have hafter : s.after (.response id body redelivered outlet now) =
      (s.processResponse id body redelivered (Journal.mk outlet []) now).2.1 :=
    congrArg (·.2.1) (s.processResponse_onOutlet id body redelivered (Journal.mk outlet []) now)
  -- the acts are read off the journal, the state does not depend on it
  rw [hafter]
  unfold acts
  dsimp only
  rcases s.processResponse_cases id body redelivered (Journal.mk outlet []) now with
    ⟨-, h⟩ | ⟨task, htask, ⟨hok, h⟩ | ⟨hfail, -, h⟩ | ⟨hfail, -, h⟩⟩
  · rw [h]
    exact .nil s
  · rw [h]
    dsimp only
    rw [sent_forward_of_ok hok]
    exact .single (.finish now body htask)
  · rw [h]
    dsimp only
    rw [sent_forward_of_ne_ok hfail]
    exact .single (.drop now htask)
  · rw [h]
    dsimp only
    rw [sent_forward_of_ne_ok hfail]
    exact .single (.defer now htask)

theorem after_round (s : DispatchState α) (threshold : Int) (outlet : σ) (now : Instant) :
    s.after (.round threshold outlet now) =
      ((s.sweep now threshold).2.evictExhausted.2.evictUnredelivered now threshold).2 :=
  (Hub.detect_eq_roundOf { state := s, outlet } threshold now).1

omit [Quantity α] in
private theorem map_fst_notices_roundOf (s : DispatchState α) (threshold : Int) (outlet : σ) (now : Instant) :
    (Hub.notices outlet (Hub.roundOf s now threshold).2.1).map (·.1) =
      (s.sweep now threshold).2.evictExhausted.1 ++
        ((s.sweep now threshold).2.evictExhausted.2.evictUnredelivered now threshold).1 := by
  refine (Hub.map_fst_notices outlet _).trans ?_
  simp only [Hub.roundOf, List.map_append, List.map_map, Function.comp_def, List.map_id']

omit [Quantity α] in
/-- The first notices of a round are of the tasks that failed too often. -/
theorem map_fst_take_notices (s : DispatchState α) (threshold : Int) (outlet : σ) (now : Instant) :
    ((Hub.notices outlet (Hub.roundOf s now threshold).2.1).take
      (s.sweep now threshold).2.evictExhausted.1.length).map (·.1) = (s.sweep now threshold).2.evictExhausted.1 := by
  rw [List.map_take, map_fst_notices_roundOf, List.take_left]

omit [Quantity α] in
/-- The other notices of a round are of the tasks whose results have waited too long. -/
theorem map_fst_drop_notices (s : DispatchState α) (threshold : Int) (outlet : σ) (now : Instant) :
    ((Hub.notices outlet (Hub.roundOf s now threshold).2.1).drop
      (s.sweep now threshold).2.evictExhausted.1.length).map (·.1) =
        ((s.sweep now threshold).2.evictExhausted.2.evictUnredelivered now threshold).1 := by
  rw [List.map_drop, map_fst_notices_roundOf, List.drop_left]

private theorem moves_round {s : DispatchState α} (hs : s.Named) (threshold : Int) (outlet : σ) (now : Instant) :
    Moves onlyPending s (s.acts (.round threshold outlet now)) (s.after (.round threshold outlet now)) := by
  have hsweep : Moves onlyPending s _ (s.sweep now threshold).2 := moves_sweep hs now threshold
  have hnotified : ∀ notice ∈ Hub.notices outlet (Hub.roundOf s now threshold).2.1, notice.1.Notified notice.2 :=
    fun _ => Hub.notified_of_mem_notices
  have hexhausted : Moves onlyPending (s.sweep now threshold).2 _ _ :=
    moves_evictExhausted (hsweep.named hs) (map_fst_take_notices s threshold outlet now)
      fun notice hmem => hnotified notice (List.mem_of_mem_take hmem)
  have hexpired : Moves onlyPending (s.sweep now threshold).2.evictExhausted.2 _ _ :=
    moves_evictUnredelivered (hexhausted.named (hsweep.named hs)) now threshold
      (map_fst_drop_notices s threshold outlet now) fun notice hmem => hnotified notice (List.mem_of_mem_drop hmem)
  rw [after_round]
  exact (hsweep.append hexhausted).append hexpired

/-- What an event does is what its acts do. -/
theorem moves_after {s : DispatchState α} (hs : s.Named) (e : Event α σ) (hnames : onlyPending → e.NamesPending) :
    Moves onlyPending s (s.acts e) (s.after e) := by
  cases e with
  | registration message now => exact moves_registration s message now
  | work id profile duration arrivedAt origin now => exact moves_work s id profile duration arrivedAt origin now
  | pass strategy outlet now => exact moves_pass hs hnames outlet now
  | response id body redelivered outlet now => exact moves_response s id body redelivered outlet now
  | round threshold outlet now => exact moves_round hs threshold outlet now

/-! ### Runs -/

omit [Quantity α] in
theorem named_start (staleAfter : Int) (ceiling : Nat) (responseQueue : String) (publishTimeoutMillis : Nat) :
    (start staleAfter ceiling responseQueue publishTimeoutMillis : DispatchState α).Named :=
  ⟨nofun, nofun⟩

/-- The acts of a run, in order. -/
def trace (s : DispatchState α) : List (Event α σ) → List (Act α)
  | [] => []
  | e :: events => s.acts e ++ (s.after e).trace events

/-- What a run does is what its acts do. -/
theorem moves_run {s : DispatchState α} (hs : s.Named) (events : List (Event α σ))
    (hnames : onlyPending → ∀ e ∈ events, e.NamesPending) : Moves onlyPending s (s.trace events) (s.run events) := by
  induction events generalizing s with
  | nil => exact .nil s
  | cons e rest ih =>
    have hfirst : Moves onlyPending s (s.acts e) (s.after e) :=
      moves_after hs e fun honly => hnames honly e (List.mem_cons_self ..)
    exact hfirst.append (ih (hfirst.named hs) fun honly e' hmem => hnames honly e' (List.mem_cons_of_mem _ hmem))

theorem named_run {s : DispatchState α} (hs : s.Named) (events : List (Event α σ)) : (s.run events).Named := by
  have hmoves : Moves False s (s.trace events) (s.run events) := moves_run hs events nofun
  exact hmoves.named hs

/-- What every move keeps, every run keeps. -/
theorem invariant_run {motive : DispatchState α → Prop}
    (step : ∀ {s s' : DispatchState α} {act}, s.Named → Move False s act s' → motive s → motive s')
    {s : DispatchState α} (hs : s.Named) (h : motive s) (events : List (Event α σ)) : motive (s.run events) := by
  have hmoves : Moves False s (s.trace events) (s.run events) := moves_run hs events nofun
  refine (hmoves.invariant (motive := fun s => s.Named ∧ motive s) ?_ ⟨hs, h⟩).2
  intro s act s' _ hmove ⟨hs, h⟩
  exact ⟨hmove.named hs, step hs hmove h⟩

/-- No run changes the settings. -/
theorem settings_run {s : DispatchState α} (hs : s.Named) (events : List (Event α σ)) :
    (s.run events).settings = s.settings := by
  have hmoves : Moves False s (s.trace events) (s.run events) := moves_run hs events nofun
  exact hmoves.settings_eq

end DispatchState

end SpeechDispatch
