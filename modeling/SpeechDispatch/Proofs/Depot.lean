import Mathlib.Data.List.Basic
import Mathlib.Data.List.Induction
import Mathlib.Data.List.Nodup
import Mathlib.Data.List.Pairwise
import SpeechDispatch.Proofs.MemoryQueue

/-!
# What becomes of the messages of a queue

A depot is queues in memory with books beside them, which are kept from what the queues are asked and what they answer:
every message with its tags and the place where it is, all that was put into a queue, all that was handed out, and all
that was settled.  The queues do not look into the books, yet the two never disagree (`Depot.Sound`), whatever is done.

So nothing is lost, made up or reordered (`Depot.accounts_of_run`): each message is where its last operation left it,
with its content, and comes out of its queue behind what was put there before.
-/

namespace SpeechDispatch

inductive Place
  | waiting
  | unacked
  | acked
  | rejected
  /-- It was to be delivered again, and its queue took nothing any more. -/
  | lost
  deriving DecidableEq

/-- A message that was published, and what became of it. -/
structure Parcel where
  queue : String
  message : Outbound
  /-- The tags under which it was rejected for another delivery. -/
  earlier : List Nat := []
  tag : Nat
  place : Place := .waiting

namespace Parcel

def tags (p : Parcel) : List Nat := p.earlier ++ [p.tag]

/-- The message under a tag. -/
def copy (p : Parcel) (tag : Nat) (redelivered : Bool) : Delivery :=
  ⟨tag, p.message.body, p.message.replyTo, p.message.correlationId, redelivered⟩

/-- What goes through the queue for it; all but the first are marked. -/
def copies (p : Parcel) : List Delivery := p.tags.mapIdx fun i tag => p.copy tag (decide (0 < i))

def delivery (p : Parcel) : Delivery := p.copy p.tag (decide (0 < p.earlier.length))

def requeued (p : Parcel) (tag : Nat) : Parcel := { p with earlier := p.tags, tag, place := .waiting }

/-- What waits for it in a queue. -/
def waitingIn (p : Parcel) (queue : String) : List Delivery :=
  if p.place = .waiting ∧ p.queue = queue then [p.delivery] else []

def inHand (p : Parcel) : List Unacked := if p.place = .unacked then [⟨p.queue, p.delivery⟩] else []

/-- How it was settled, tag by tag. -/
def settlements (p : Parcel) : List (Nat × Settlement) :=
  p.earlier.map (·, .nack true) ++
    match p.place with
    | .acked => [(p.tag, .ack)]
    | .rejected => [(p.tag, .nack false)]
    | .waiting | .unacked | .lost => []

variable (p : Parcel)

theorem copies_eq : p.copies = (p.earlier.mapIdx fun i tag => p.copy tag (decide (0 < i))) ++ [p.delivery] :=
  List.mapIdx_concat

theorem copies_requeued (tag : Nat) : (p.requeued tag).copies = p.copies ++ [(p.requeued tag).delivery] :=
  List.mapIdx_concat

theorem tags_copies : p.copies.map (·.tag) = p.tags :=
  List.ext_getElem (by simp [copies]) (by simp [copies, copy])

theorem delivery_mem_copies : p.delivery ∈ p.copies := by
  rw [copies_eq]
  exact List.mem_append_right _ (List.mem_singleton_self _)

theorem tag_mem_tags : p.tag ∈ p.tags := List.mem_append_right _ (List.mem_singleton_self _)

theorem mem_waitingIn {p : Parcel} {queue : String} {x : Delivery} :
    x ∈ p.waitingIn queue ↔ p.place = .waiting ∧ p.queue = queue ∧ x = p.delivery := by
  unfold waitingIn
  split
  · rename_i h
    simp [h]
  · rename_i h
    rw [not_and] at h
    simp only [List.not_mem_nil, false_iff]
    exact fun ⟨hplace, hqueue, _⟩ => h hplace hqueue

theorem waitingIn_of_ne {p : Parcel} (hplace : p.place ≠ .waiting) (queue : String) : p.waitingIn queue = [] :=
  if_neg fun h => hplace h.1

theorem inHand_of_ne {p : Parcel} (hplace : p.place ≠ .unacked) : p.inHand = [] := if_neg hplace

theorem mem_inHand {p : Parcel} {entry : Unacked} :
    entry ∈ p.inHand ↔ p.place = .unacked ∧ entry = ⟨p.queue, p.delivery⟩ := by
  unfold inHand
  split <;> simp [*]

/-- A message is settled once under each of its tags but the last, and then at most once. -/
theorem settlements_sublist : (p.settlements.map (·.1)).Sublist p.tags := by
  have hearlier : (p.earlier.map (·, Settlement.nack true)).map (·.1) = p.earlier := by
    rw [List.map_map]
    exact List.map_id _
  rw [settlements, List.map_append, hearlier, tags]
  refine List.Sublist.append_left ?_ _
  cases p.place with
  | acked | rejected => exact List.Sublist.refl _
  | waiting | unacked | lost => exact List.nil_sublist _

end Parcel

/-- Queues in memory, and the books beside them. -/
structure Depot where
  queue : MemoryQueue := {}
  /-- The messages, in the order of their publication. -/
  parcels : List Parcel := []
  puts : List (String × Delivery) := []
  handed : List (String × Delivery) := []
  /-- How tags were settled. -/
  settled : List (Nat × Settlement) := []

namespace Depot

def about (queue : String) (log : List (String × Delivery)) : List Delivery :=
  (log.filter (·.1 == queue)).map (·.2)

theorem about_append (queue : String) (log log' : List (String × Delivery)) :
    about queue (log ++ log') = about queue log ++ about queue log' := by
  rw [about, List.filter_append, List.map_append, about, about]

theorem about_singleton (queue name : String) (delivery : Delivery) :
    about queue [(name, delivery)] = if name = queue then [delivery] else [] := by
  by_cases hname : name = queue <;> simp [about, hname]

theorem mem_about {queue : String} {log : List (String × Delivery)} {x : Delivery} :
    x ∈ about queue log ↔ (queue, x) ∈ log := by
  simp [about]

theorem waitingIn_of_waiting {p : Parcel} (hplace : p.place = .waiting) (queue : String) :
    p.waitingIn queue = about queue [(p.queue, p.delivery)] := by
  rw [about_singleton, Parcel.waitingIn]
  by_cases hqueue : p.queue = queue <;> simp [hplace, hqueue]

/-! ### Operations -/

def amend (d : Depot) (tag : Nat) (f : Parcel → Parcel) : Depot :=
  { d with parcels := d.parcels.map fun p => if p.tag = tag then f p else p }

def publish (d : Depot) (queue : String) (message : Outbound) : Depot :=
  match d.queue.publish queue message with
  | (.ok (), q) =>
    let p : Parcel := { queue, message, tag := q.lastTag }
    { d with queue := q, parcels := d.parcels ++ [p], puts := d.puts ++ [(queue, p.delivery)] }
  | (.error _, q) => { d with queue := q }

def create (d : Depot) (queue : String) (durable : Bool) : Depot := { d with queue := d.queue.create queue durable }

def consume (d : Depot) (queue : String) : Depot := { d with queue := (d.queue.consume queue).2 }

def abandon (d : Depot) (queue : String) : Depot := { d with queue := d.queue.abandon queue }

def next (d : Depot) (queue : String) : Depot :=
  match d.queue.next queue with
  | (some delivery, q) =>
    { d.amend delivery.tag ({ · with place := .unacked }) with
      queue := q, handed := d.handed ++ [(queue, delivery)] }
  | (none, q) => { d with queue := q }

def ack (d : Depot) (tag : Nat) : Depot :=
  match d.queue.ack tag with
  | (.ok (), q) =>
    { d.amend tag ({ · with place := .acked }) with queue := q, settled := d.settled ++ [(tag, .ack)] }
  | (.error _, q) => { d with queue := q }

def nack (d : Depot) (tag : Nat) (requeue : Bool) : Depot :=
  match d.queue.nack tag requeue with
  | (.ok (), q) =>
    if requeue then
      -- what is found is one message, for its tag is no other's
      let again := (d.parcels.filter (·.tag == tag)).map (·.requeued q.lastTag)
      { d.amend tag (·.requeued q.lastTag) with
        queue := q
        puts := d.puts ++ again.map fun p => (p.queue, p.delivery)
        settled := d.settled ++ [(tag, .nack true)] }
    else
      { d.amend tag ({ · with place := .rejected }) with
        queue := q, settled := d.settled ++ [(tag, .nack false)] }
  | (.error (.messageQueue .receiverGone), q) => { d.amend tag ({ · with place := .lost }) with queue := q }
  | (.error _, q) => { d with queue := q }

/-! ### The books and the queues -/

/-- The books are right about the queues. -/
structure Sound (d : Depot) : Prop where
  waiting : ∀ queue, (d.queue.queueState queue).waiting.Perm (d.parcels.flatMap (·.waitingIn queue))
  unacked : d.queue.unacked.Perm (d.parcels.flatMap (·.inHand))
  puts : d.puts.Perm (d.parcels.flatMap fun p => p.copies.map (p.queue, ·))
  settled : d.settled.Perm (d.parcels.flatMap (·.settlements))
  /-- Every put has a tag of its own, and later ones have higher tags. -/
  rising : d.puts.Pairwise fun a b => a.2.tag < b.2.tag
  le_lastTag : ∀ put ∈ d.puts, put.2.tag ≤ d.queue.lastTag
  /-- A message that is put back gets a higher tag. -/
  renumbered : ∀ p ∈ d.parcels, p.tags.Pairwise (· < ·)
  inOrder : ∀ queue, about queue d.puts = about queue d.handed ++ (d.queue.queueState queue).waiting
  count : ∀ queue, (d.queue.queueState queue).count = UInt32.ofNat (d.queue.queueState queue).waiting.length

private theorem nodup_flatMap_of_sublist {β : Type} {l : List β} {f g : β → List Nat} (h : (l.flatMap f).Nodup)
    (hsub : ∀ x, (g x).Sublist (f x)) : (l.flatMap g).Nodup := by
  rw [List.nodup_flatMap] at h ⊢
  refine ⟨fun x hx => (h.1 x hx).sublist (hsub x), h.2.imp ?_⟩
  intro x y hdisjoint tag hx hy
  exact hdisjoint ((hsub x).subset hx) ((hsub y).subset hy)

private theorem perm_of_nodup_keys {β : Type} {key : β → Nat} {l : List β} (h : (l.map key).Nodup) {x : β}
    (hx : x ∈ l) : l.Perm (x :: l.filter (key · != key x)) ∧ l.filter (key · == key x) = [x] := by
  obtain ⟨before, after, rfl⟩ := List.append_of_mem hx
  rw [List.map_append, List.map_cons, List.nodup_middle, List.nodup_cons, ← List.map_append] at h
  have hother : ∀ y ∈ before ++ after, key y ≠ key x := by
    intro y hy heq
    exact h.1 (heq ▸ List.mem_map_of_mem hy)
  have hrest : (before ++ x :: after).filter (key · != key x) = before ++ after := by
    have hall : (before ++ after).filter (key · != key x) = before ++ after := by
      rw [List.filter_eq_self]
      intro y hy
      simpa using hother y hy
    rw [List.filter_append] at hall
    rw [List.filter_append, List.filter_cons_of_neg (by simp), hall]
  have hsame : (before ++ x :: after).filter (key · == key x) = [x] := by
    have hnone : (before ++ after).filter (key · == key x) = [] := by
      rw [List.filter_eq_nil_iff]
      intro y hy
      simpa using hother y hy
    rw [List.filter_append, List.append_eq_nil_iff] at hnone
    rw [List.filter_append, List.filter_cons_of_pos (by simp), hnone.1, hnone.2]
    rfl
  rw [hrest]
  exact ⟨List.perm_middle, hsame⟩

namespace Sound

variable {d : Depot}

theorem nodup_puts (h : d.Sound) : (d.puts.map (·.2.tag)).Nodup := List.pairwise_map.2 (h.rising.imp Nat.ne_of_lt)

theorem rising_about (h : d.Sound) (queue : String) : (about queue d.puts).Pairwise fun a b => a.tag < b.tag :=
  List.pairwise_map.2 (h.rising.filter _)

/-- No two messages ever have a tag in common, and none has a tag twice. -/
theorem nodup_tags (h : d.Sound) : (d.parcels.flatMap (·.tags)).Nodup := by
  have hperm := h.puts.map (·.2.tag)
  have htags : ∀ p : Parcel, (p.copies.map (p.queue, ·)).map (·.2.tag) = p.tags := by
    intro p
    rw [List.map_map]
    exact p.tags_copies
  rw [List.map_flatMap] at hperm
  simp only [htags] at hperm
  exact hperm.nodup_iff.1 h.nodup_puts

theorem nodup_tag (h : d.Sound) : (d.parcels.map (·.tag)).Nodup := by
  rw [List.map_eq_flatMap]
  exact nodup_flatMap_of_sublist h.nodup_tags fun p => List.singleton_sublist.2 p.tag_mem_tags

theorem nodup_settled (h : d.Sound) : (d.settled.map (·.1)).Nodup := by
  rw [(h.settled.map _).nodup_iff, List.map_flatMap]
  exact nodup_flatMap_of_sublist h.nodup_tags fun p => p.settlements_sublist

theorem nodup_unacked (h : d.Sound) : (d.queue.unacked.map (·.delivery.tag)).Nodup := by
  rw [(h.unacked.map _).nodup_iff, List.map_flatMap]
  refine nodup_flatMap_of_sublist h.nodup_tags fun p => ?_
  unfold Parcel.inHand
  split
  · exact List.singleton_sublist.2 p.tag_mem_tags
  · exact List.nil_sublist _

theorem tag_le_lastTag (h : d.Sound) {p : Parcel} (hp : p ∈ d.parcels) {tag : Nat} (htag : tag ∈ p.tags) :
    tag ≤ d.queue.lastTag := by
  rw [← p.tags_copies, List.mem_map] at htag
  obtain ⟨copy, hcopy, rfl⟩ := htag
  refine h.le_lastTag (p.queue, copy) (h.puts.mem_iff.2 ?_)
  exact List.mem_flatMap.2 ⟨p, hp, List.mem_map_of_mem hcopy⟩

theorem eq_of_mem_tags (h : d.Sound) {p p' : Parcel} (hp : p ∈ d.parcels) (hp' : p' ∈ d.parcels) {tag : Nat}
    (htag : tag ∈ p.tags) (htag' : tag ∈ p'.tags) : p = p' := by
  by_contra hne
  have : Std.Symm (Function.onFun List.Disjoint Parcel.tags) := ⟨fun _ _ hdisjoint => List.disjoint_symm hdisjoint⟩
  exact (List.nodup_flatMap.1 h.nodup_tags).2.forall hp hp' hne htag htag'

theorem nodup_tags_of_mem (h : d.Sound) {p : Parcel} (hp : p ∈ d.parcels) : p.tags.Nodup :=
  (List.nodup_flatMap.1 h.nodup_tags).1 p hp

theorem unacked_iff (h : d.Sound) {p : Parcel} (hp : p ∈ d.parcels) :
    p.place = .unacked ↔ ⟨p.queue, p.delivery⟩ ∈ d.queue.unacked := by
  rw [h.unacked.mem_iff, List.mem_flatMap]
  constructor
  · intro hplace
    exact ⟨p, hp, Parcel.mem_inHand.2 ⟨hplace, rfl⟩⟩
  · rintro ⟨p', hp', hthere⟩
    obtain ⟨hplace, hentry⟩ := Parcel.mem_inHand.1 hthere
    have htag : p.tag = p'.tag := congrArg (·.delivery.tag) hentry
    rw [h.eq_of_mem_tags hp hp' p.tag_mem_tags (htag ▸ p'.tag_mem_tags), hplace]

/-- A message apart from the others, and the books with a change of it alone. -/
theorem exists_others (h : d.Sound) {p : Parcel} (hp : p ∈ d.parcels) :
    ∃ others, d.parcels.Perm (p :: others) ∧ ∀ f, (d.amend p.tag f).parcels.Perm (f p :: others) := by
  have hapart := (perm_of_nodup_keys h.nodup_tag hp).1
  refine ⟨_, hapart, fun f => ?_⟩
  have hsame : (d.parcels.filter (·.tag != p.tag)).map (fun o => if o.tag = p.tag then f o else o) =
      d.parcels.filter (·.tag != p.tag) := by
    refine (List.map_congr_left fun o ho => ?_).trans (List.map_id _)
    have hne : o.tag ≠ p.tag := by simpa using (List.mem_filter.1 ho).2
    exact if_neg hne
  have hmapped := hapart.map fun o => if o.tag = p.tag then f o else o
  rw [List.map_cons, if_pos rfl, hsame] at hmapped
  exact hmapped

theorem forget_perm (h : d.Sound) {p : Parcel} (hp : p ∈ d.parcels) (hplace : p.place = .unacked) :
    d.queue.unacked.Perm ((d.queue.forget p.tag).unacked ++ [⟨p.queue, p.delivery⟩]) := by
  have hentry := (h.unacked_iff hp).1 hplace
  exact (perm_of_nodup_keys h.nodup_unacked hentry).1.trans (List.perm_append_singleton _ _).symm

end Sound

/-! ### Changes of one message -/

/-- A list that goes with the books still does after a change of one message, if the list changes as that does. -/
private theorem perm_flatMap_of_exchange {γ : Type} {parcels parcels' others : List Parcel} {p p' : Parcel}
    (view : Parcel → List γ) (hbefore : parcels.Perm (p :: others)) (hafter : parcels'.Perm (p' :: others))
    {l l' : List γ} (h : l.Perm (parcels.flatMap view)) (hmoved : (l ++ view p').Perm (l' ++ view p)) :
    l'.Perm (parcels'.flatMap view) := by
  have hold : l.Perm (view p ++ others.flatMap view) := h.trans (hbefore.flatMap_right view)
  have hnew : (parcels'.flatMap view).Perm (view p' ++ others.flatMap view) := hafter.flatMap_right view
  refine (List.perm_append_right_iff (view p)).1 ?_
  calc List.Perm (l' ++ view p) (l ++ view p') := hmoved.symm
    List.Perm _ (view p ++ others.flatMap view ++ view p') := hold.append_right _
    List.Perm _ (view p' ++ (view p ++ others.flatMap view)) := List.perm_append_comm
    List.Perm _ (view p' ++ (others.flatMap view ++ view p)) := List.perm_append_comm.append_left _
    List.Perm _ (view p' ++ others.flatMap view ++ view p) := .of_eq (List.append_assoc ..).symm
    List.Perm _ (parcels'.flatMap view ++ view p) := hnew.symm.append_right _

namespace Sound

variable {d : Depot}

/-- Queues that differ in their consumers only go with the same books. -/
theorem of_same (h : d.Sound) {q : MemoryQueue}
    (hstate : ∀ name, (q.queueState name).waiting = (d.queue.queueState name).waiting ∧
      (q.queueState name).count = (d.queue.queueState name).count)
    (hunacked : q.unacked = d.queue.unacked) (htag : d.queue.lastTag ≤ q.lastTag) : Sound { d with queue := q } where
  waiting name := (hstate name).1 ▸ h.waiting name
  unacked := hunacked ▸ h.unacked
  puts := h.puts
  settled := h.settled
  rising := h.rising
  le_lastTag put hput := Nat.le_trans (h.le_lastTag put hput) htag
  renumbered := h.renumbered
  inOrder name := (hstate name).1 ▸ h.inOrder name
  count name := by
    rw [(hstate name).1, (hstate name).2]
    exact h.count name

theorem create (h : d.Sound) (queue : String) (durable : Bool) : (d.create queue durable).Sound := by
  obtain ⟨hunacked, htag⟩ := d.queue.create_eq queue durable
  refine h.of_same (fun name => ?_) hunacked (Nat.le_of_eq htag.symm)
  obtain ⟨b, hstate⟩ := d.queue.queueState_create queue durable name
  rw [hstate]
  exact ⟨rfl, rfl⟩

theorem consume (h : d.Sound) (queue : String) : (d.consume queue).Sound := by
  obtain ⟨q, hunacked, htag, hconsume⟩ := d.queue.consume_cases queue
  have hq : (d.queue.consume queue).2 = q := by
    rcases hconsume with ⟨-, -, heq⟩ | ⟨-, -, heq⟩ <;> rw [heq]
  rw [Depot.consume, hq]
  refine h.of_same (fun name => ?_) hunacked (Nat.le_of_eq htag.symm)
  rcases hconsume with ⟨-, hstate, -⟩ | ⟨-, hstate, -⟩
  · by_cases hname : name = queue
    · subst hname
      rw [hstate, Function.update_self]
      exact ⟨rfl, rfl⟩
    · rw [hstate, Function.update_of_ne hname]
      exact ⟨rfl, rfl⟩
  · rw [hstate]
    exact ⟨rfl, rfl⟩

theorem abandon (h : d.Sound) (queue : String) : (d.abandon queue).Sound := by
  refine h.of_same (fun name => ?_) rfl (Nat.le_refl _)
  rw [MemoryQueue.queueState_abandon]
  split <;> exact ⟨rfl, rfl⟩

private theorem renumbered_amend (h : d.Sound) (tag : Nat) (f : Parcel → Parcel)
    (hf : ∀ p ∈ d.parcels, (f p).tags.Pairwise (· < ·)) : ∀ p ∈ (d.amend tag f).parcels, p.tags.Pairwise (· < ·) := by
  intro p hp
  obtain ⟨old, hold, rfl⟩ := List.mem_map.1 hp
  split
  · exact hf old hold
  · exact h.renumbered old hold

/-! What is put into a queue next comes last in the books too. -/

private theorem rising_put (h : d.Sound) (put : String × Delivery) (hput : put.2.tag = d.queue.lastTag + 1) :
    ((d.puts ++ [put]).Pairwise fun a b => a.2.tag < b.2.tag) ∧
      ∀ other ∈ d.puts ++ [put], other.2.tag ≤ d.queue.lastTag + 1 := by
  constructor
  · refine List.pairwise_append.2 ⟨h.rising, List.pairwise_singleton _ _, fun other hother last hlast => ?_⟩
    rw [List.mem_singleton] at hlast
    rw [hlast, hput]
    exact Nat.lt_succ_of_le (h.le_lastTag other hother)
  · intro other hother
    rcases List.mem_append.1 hother with hother | hlast
    · exact Nat.le_succ_of_le (h.le_lastTag other hother)
    · rw [List.mem_singleton] at hlast
      exact Nat.le_of_eq (hlast ▸ hput)

private theorem waiting_put {q : MemoryQueue} {queue : String} {delivery : Delivery}
    (hstate : q.queueState = Function.update d.queue.queueState queue ((d.queue.queueState queue).put delivery))
    (name : String) :
    (q.queueState name).waiting = (d.queue.queueState name).waiting ++ about name [(queue, delivery)] := by
  rw [hstate, about_singleton]
  by_cases hname : name = queue
  · subst hname
    rw [Function.update_self, if_pos rfl]
    rfl
  · rw [Function.update_of_ne hname, if_neg (Ne.symm hname), List.append_nil]

private theorem count_put (h : d.Sound) {q : MemoryQueue} {queue : String} {delivery : Delivery}
    (hstate : q.queueState = Function.update d.queue.queueState queue ((d.queue.queueState queue).put delivery))
    (name : String) : (q.queueState name).count = UInt32.ofNat (q.queueState name).waiting.length := by
  rw [hstate]
  by_cases hname : name = queue
  · subst hname
    rw [Function.update_self, QueueState.put, h.count name, List.length_append, List.length_singleton]
    exact (UInt32.ofNat_add _ 1).symm
  · rw [Function.update_of_ne hname]
    exact h.count name

theorem publish (h : d.Sound) (queue : String) (message : Outbound) : (d.publish queue message).Sound := by
  obtain ⟨q, hunacked, htag, hpublish⟩ := d.queue.publish_cases queue message
  rcases hpublish with ⟨-, hstate, heq⟩ | ⟨-, hstate, heq⟩
  · rw [Depot.publish, heq]
    exact h.of_same (fun name => ⟨by rw [hstate], by rw [hstate]⟩) hunacked (htag ▸ Nat.le_succ _)
  let p : Parcel := { queue, message, tag := q.lastTag }
  have hdelivery : p.delivery = ⟨d.queue.lastTag + 1, message.body, message.replyTo, message.correlationId, false⟩ := by
    rw [← htag]
    rfl
  rw [← hdelivery] at hstate
  have hwaiting := waiting_put hstate
  have hrising := h.rising_put (queue, p.delivery) htag
  have hview {γ : Type} (view : Parcel → List γ) :
      (d.parcels ++ [p]).flatMap view = d.parcels.flatMap view ++ view p := by
    rw [List.flatMap_append, List.flatMap_singleton]
  rw [Depot.publish, heq]
  constructor
  case waiting =>
    intro name
    rw [hwaiting, hview, waitingIn_of_waiting rfl]
    exact (h.waiting name).append_right _
  case unacked =>
    rw [hunacked, hview]
    exact h.unacked.trans (.of_eq (List.append_nil _).symm)
  case puts =>
    rw [hview]
    exact h.puts.append_right _
  case settled =>
    rw [hview]
    exact h.settled.trans (.of_eq (List.append_nil _).symm)
  case rising => exact hrising.1
  case le_lastTag => exact fun put hput => htag ▸ hrising.2 put hput
  case renumbered =>
    intro other hother
    rcases List.mem_append.1 hother with hother | hlast
    · exact h.renumbered other hother
    · obtain rfl := List.mem_singleton.1 hlast
      exact List.pairwise_singleton _ _
  case inOrder =>
    intro name
    rw [hwaiting, about_append, h.inOrder name, List.append_assoc]
  case count => exact h.count_put hstate

theorem next (h : d.Sound) (queue : String) : (d.next queue).Sound := by
  rcases d.queue.next_cases queue with ⟨-, heq⟩ | ⟨delivery, rest, q, hfirst, hstate, hunacked, htag, heq⟩
  · rw [Depot.next, heq]
    exact h
  have hmem : delivery ∈ d.parcels.flatMap (·.waitingIn queue) := by
    rw [← (h.waiting queue).mem_iff, hfirst]
    exact List.mem_cons_self ..
  rw [List.mem_flatMap] at hmem
  obtain ⟨p, hp, hthere⟩ := hmem
  obtain ⟨hplace, rfl, rfl⟩ := Parcel.mem_waitingIn.1 hthere
  obtain ⟨others, hbefore, hafter⟩ := h.exists_others hp
  have hfront : ∀ name, (d.queue.queueState name).waiting =
      about name [(p.queue, p.delivery)] ++ (q.queueState name).waiting := by
    intro name
    rw [hstate, about_singleton]
    by_cases hname : name = p.queue
    · subst hname
      rw [Function.update_self, if_pos rfl, QueueState.behind, hfirst]
      rfl
    · rw [Function.update_of_ne hname, if_neg (Ne.symm hname), List.nil_append]
  rw [Depot.next, heq]
  constructor
  case waiting =>
    intro name
    refine perm_flatMap_of_exchange (·.waitingIn name) hbefore (hafter _) (h.waiting name) ?_
    have hgone : Place.unacked ≠ .waiting := by decide
    rw [Parcel.waitingIn_of_ne (p := { p with place := .unacked }) hgone, List.append_nil, hfront,
      waitingIn_of_waiting hplace]
    exact List.perm_append_comm
  case unacked =>
    refine perm_flatMap_of_exchange (·.inHand) hbefore (hafter _) h.unacked ?_
    have hnot : p.place ≠ .unacked := by rw [hplace]; decide
    rw [Parcel.inHand_of_ne hnot, hunacked, List.append_nil]
    exact .refl _
  case puts =>
    refine perm_flatMap_of_exchange (fun p => p.copies.map (p.queue, ·)) hbefore (hafter _) h.puts (.refl _)
  case settled =>
    refine perm_flatMap_of_exchange (·.settlements) hbefore (hafter _) h.settled ?_
    rw [Parcel.settlements, Parcel.settlements, hplace]
    exact .refl _
  case rising => exact h.rising
  case le_lastTag => exact fun put hput => htag ▸ h.le_lastTag put hput
  case renumbered => exact h.renumbered_amend _ _ h.renumbered
  case inOrder =>
    intro name
    rw [about_append, List.append_assoc, ← hfront]
    exact h.inOrder name
  case count =>
    intro name
    rw [hstate]
    by_cases hname : name = p.queue
    · subst hname
      rw [Function.update_self, QueueState.behind, h.count, hfirst, List.length_cons, UInt32.ofNat_add]
      exact UInt32.add_sub_cancel _ _
    · rw [Function.update_of_ne hname]
      exact h.count name

theorem exists_of_findUnacked (h : d.Sound) {tag : Nat} {entry : Unacked}
    (hfound : d.queue.findUnacked tag = some entry) :
    ∃ p ∈ d.parcels, p.place = .unacked ∧ p.tag = tag ∧ entry = ⟨p.queue, p.delivery⟩ := by
  obtain ⟨hmem, htag⟩ := MemoryQueue.mem_of_findUnacked hfound
  rw [h.unacked.mem_iff, List.mem_flatMap] at hmem
  obtain ⟨p, hp, hentry⟩ := hmem
  obtain ⟨hplace, rfl⟩ := Parcel.mem_inHand.1 hentry
  exact ⟨p, hp, hplace, htag, rfl⟩

/-- A message that was unacked is settled, or lost, and does not come back. -/
private theorem finish (h : d.Sound) (place : Place) {p : Parcel} (hp : p ∈ d.parcels) (hplace : p.place = .unacked)
    (hwaiting : place ≠ .waiting) (hunacked : place ≠ .unacked) {q : MemoryQueue}
    (hstate : q.queueState = d.queue.queueState) (hforget : q.unacked = (d.queue.forget p.tag).unacked)
    (htag : d.queue.lastTag ≤ q.lastTag) {settled : List (Nat × Settlement)}
    (hsettled : (d.settled ++ ({ p with place } : Parcel).settlements).Perm (settled ++ p.settlements)) :
    Sound { d.amend p.tag ({ · with place }) with queue := q, settled } := by
  obtain ⟨others, hbefore, hafter⟩ := h.exists_others hp
  constructor
  case waiting =>
    intro name
    refine perm_flatMap_of_exchange (·.waitingIn name) hbefore (hafter _) (h.waiting name) ?_
    have hnot : p.place ≠ .waiting := by rw [hplace]; decide
    rw [Parcel.waitingIn_of_ne (p := { p with place }) hwaiting, Parcel.waitingIn_of_ne hnot, hstate]
  case unacked =>
    refine perm_flatMap_of_exchange (·.inHand) hbefore (hafter _) h.unacked ?_
    have hheld : p.inHand = [⟨p.queue, p.delivery⟩] := if_pos hplace
    rw [Parcel.inHand_of_ne (p := { p with place }) hunacked, hheld, hforget, List.append_nil]
    exact h.forget_perm hp hplace
  case puts =>
    exact perm_flatMap_of_exchange (fun p => p.copies.map (p.queue, ·)) hbefore (hafter _) h.puts (.refl _)
  case settled => exact perm_flatMap_of_exchange (·.settlements) hbefore (hafter _) h.settled hsettled
  case rising => exact h.rising
  case le_lastTag => exact fun put hput => Nat.le_trans (h.le_lastTag put hput) htag
  case renumbered => exact h.renumbered_amend _ _ h.renumbered
  case inOrder => exact fun name => hstate ▸ h.inOrder name
  case count => exact fun name => hstate ▸ h.count name

theorem ack (h : d.Sound) (tag : Nat) : (d.ack tag).Sound := by
  rcases d.queue.ack_cases tag with ⟨-, heq⟩ | ⟨entry, hfound, heq⟩
  · rw [Depot.ack, heq]
    exact h
  obtain ⟨p, hp, hplace, rfl, -⟩ := h.exists_of_findUnacked hfound
  rw [Depot.ack, heq]
  refine h.finish (q := d.queue.forget p.tag) .acked hp hplace (by decide) (by decide) rfl rfl (Nat.le_refl _) ?_
  rw [Parcel.settlements, Parcel.settlements, hplace, List.append_nil, List.append_assoc]
  exact List.perm_append_comm.append_left _

private theorem requeue (h : d.Sound) {p : Parcel} (hp : p ∈ d.parcels) (hplace : p.place = .unacked) {q : MemoryQueue}
    (hstate : q.queueState = Function.update d.queue.queueState p.queue
      ((d.queue.queueState p.queue).put (p.requeued q.lastTag).delivery))
    (hforget : q.unacked = (d.queue.forget p.tag).unacked) (htag : q.lastTag = d.queue.lastTag + 1) :
    Sound { d.amend p.tag (·.requeued q.lastTag) with
      queue := q
      puts := d.puts ++ [(p.queue, (p.requeued q.lastTag).delivery)]
      settled := d.settled ++ [(p.tag, .nack true)] } := by
  obtain ⟨others, hbefore, hafter⟩ := h.exists_others hp
  have hwaiting := waiting_put hstate
  have hrising := h.rising_put (p.queue, (p.requeued q.lastTag).delivery) htag
  constructor
  case waiting =>
    intro name
    refine perm_flatMap_of_exchange (·.waitingIn name) hbefore (hafter _) (h.waiting name) ?_
    have hnot : p.place ≠ .waiting := by rw [hplace]; decide
    rw [Parcel.waitingIn_of_ne hnot, hwaiting, waitingIn_of_waiting rfl, List.append_nil]
    exact .refl _
  case unacked =>
    refine perm_flatMap_of_exchange (·.inHand) hbefore (hafter _) h.unacked ?_
    have hgone : Place.waiting ≠ .unacked := by decide
    have hheld : p.inHand = [⟨p.queue, p.delivery⟩] := if_pos hplace
    rw [Parcel.inHand_of_ne (p := p.requeued q.lastTag) hgone, hheld, hforget, List.append_nil]
    exact h.forget_perm hp hplace
  case puts =>
    refine perm_flatMap_of_exchange (fun p => p.copies.map (p.queue, ·)) hbefore (hafter _) h.puts ?_
    rw [p.copies_requeued, List.map_append, List.append_assoc]
    exact List.perm_append_comm.append_left _
  case settled =>
    refine perm_flatMap_of_exchange (·.settlements) hbefore (hafter _) h.settled ?_
    have hagain : (p.requeued q.lastTag).settlements = p.earlier.map (·, .nack true) ++ [(p.tag, .nack true)] := by
      rw [Parcel.settlements, Parcel.requeued, Parcel.tags, List.map_append, List.append_nil]
      rfl
    rw [hagain, Parcel.settlements, hplace, List.append_nil, List.append_assoc]
    exact List.perm_append_comm.append_left _
  case rising => exact hrising.1
  case le_lastTag => exact fun put hput => htag ▸ hrising.2 put hput
  case renumbered =>
    -- the new tag is above all tags there are
    refine h.renumbered_amend _ _ fun p' hp' => ?_
    refine List.pairwise_append.2 ⟨h.renumbered p' hp', List.pairwise_singleton _ _, fun tag hmem last hlast => ?_⟩
    rw [List.mem_singleton.1 hlast, htag]
    exact Nat.lt_succ_of_le (h.tag_le_lastTag hp' hmem)
  case inOrder =>
    intro name
    rw [hwaiting, about_append, h.inOrder name, List.append_assoc]
    rfl
  case count => exact h.count_put hstate

theorem nack (h : d.Sound) (tag : Nat) (requeue : Bool) : (d.nack tag requeue).Sound := by
  rcases d.queue.nack_cases tag requeue with ⟨-, heq⟩ | ⟨entry, hfound, hnack⟩
  · rw [Depot.nack, heq]
    exact h
  obtain ⟨p, hp, hplace, rfl, rfl⟩ := h.exists_of_findUnacked hfound
  rcases hnack with ⟨rfl, heq⟩ | ⟨q, rfl, hforget, htag, ⟨-, hstate, heq⟩ | ⟨-, hstate, heq⟩⟩
  · rw [Depot.nack, heq]
    refine h.finish (q := d.queue.forget p.tag) .rejected hp hplace (by decide) (by decide) rfl rfl (Nat.le_refl _) ?_
    rw [Parcel.settlements, Parcel.settlements, hplace, List.append_nil, List.append_assoc]
    exact List.perm_append_comm.append_left _
  · rw [Depot.nack, heq]
    refine h.finish .lost hp hplace (by decide) (by decide) hstate hforget (htag ▸ Nat.le_succ _) ?_
    rw [Parcel.settlements, Parcel.settlements, hplace]
    exact .refl _
  · have hdelivery : { p.delivery with tag := d.queue.lastTag + 1, redelivered := true } =
        (p.requeued q.lastTag).delivery := by
      have hmarked : decide (0 < p.tags.length) = true := by simp [Parcel.tags]
      rw [← htag, Parcel.delivery, Parcel.delivery, Parcel.requeued, hmarked]
      rfl
    rw [hdelivery] at hstate
    have hagain : d.parcels.filter (·.tag == p.tag) = [p] := (perm_of_nodup_keys h.nodup_tag hp).2
    have hsound := h.requeue hp hplace hstate hforget htag
    rw [Depot.nack, heq]
    dsimp only
    rw [if_pos rfl, hagain]
    exact hsound

/-- What was handed out and what waits was put in. -/
theorem mem_puts_iff (h : d.Sound) {queue : String} {x : Delivery} :
    (queue, x) ∈ d.puts ↔ (queue, x) ∈ d.handed ∨ x ∈ (d.queue.queueState queue).waiting := by
  rw [← mem_about, h.inOrder, List.mem_append, mem_about]

theorem mem_puts_iff_copies (h : d.Sound) {queue : String} {x : Delivery} :
    (queue, x) ∈ d.puts ↔ ∃ p ∈ d.parcels, p.queue = queue ∧ x ∈ p.copies := by
  rw [h.puts.mem_iff, List.mem_flatMap]
  simp only [List.mem_map, Prod.mk.injEq]
  constructor
  · rintro ⟨p, hp, copy, hcopy, rfl, rfl⟩
    exact ⟨p, hp, rfl, hcopy⟩
  · rintro ⟨p, hp, rfl, hcopy⟩
    exact ⟨p, hp, x, hcopy, rfl, rfl⟩

/-- The copies of a message are what was handed out for it and what waits for it. -/
theorem copies_eq (h : d.Sound) {p : Parcel} (hp : p ∈ d.parcels) :
    p.copies = (about p.queue d.handed).filter (·.tag ∈ p.tags) ++
      (d.queue.queueState p.queue).waiting.filter (·.tag ∈ p.tags) := by
  rw [← List.filter_append, ← h.inOrder]
  have hcopies : p.copies.Pairwise fun a b => a.tag < b.tag := by
    have htags := h.renumbered p hp
    rw [← p.tags_copies, List.pairwise_map] at htags
    exact htags
  have hputs := (h.rising_about p.queue).filter (·.tag ∈ p.tags)
  have hnodup {l : List Delivery} (hl : l.Pairwise fun a b => a.tag < b.tag) : l.Nodup := by
    refine hl.imp fun {a b} hlt heq => ?_
    rw [heq] at hlt
    exact Nat.lt_irrefl _ hlt
  -- both lists go by their tags, so it is enough that the same deliveries are in them
  have hperm : p.copies.Perm ((about p.queue d.puts).filter (·.tag ∈ p.tags)) := by
    rw [List.perm_ext_iff_of_nodup (hnodup hcopies) (hnodup hputs)]
    intro x
    rw [List.mem_filter, mem_about, h.mem_puts_iff_copies, decide_eq_true_iff]
    have htag : ∀ p' : Parcel, x ∈ p'.copies → x.tag ∈ p'.tags := by
      intro p' hx
      rw [← p'.tags_copies]
      exact List.mem_map_of_mem hx
    constructor
    · intro hx
      exact ⟨⟨p, hp, rfl, hx⟩, htag p hx⟩
    · rintro ⟨⟨p', hp', -, hx⟩, htag'⟩
      rwa [h.eq_of_mem_tags hp hp' htag' (htag p' hx)]
  exact hperm.eq_of_pairwise (fun a b _ _ hab hba => absurd hab (Nat.lt_asymm hba)) hcopies hputs

theorem eq_of_unacked (h : d.Sound) {entry entry' : Unacked} (hentry : entry ∈ d.queue.unacked)
    (hentry' : entry' ∈ d.queue.unacked) (htag : entry.delivery.tag = entry'.delivery.tag) : entry = entry' :=
  List.inj_on_of_nodup_map h.nodup_unacked hentry hentry' htag

/-- What waits has another tag than all that was handed out. -/
theorem tag_ne_of_handed (h : d.Sound) {queue name : String} {x y : Delivery}
    (hx : x ∈ (d.queue.queueState queue).waiting) (hy : (name, y) ∈ d.handed) : y.tag ≠ x.tag := by
  intro htag
  have hxput : (queue, x) ∈ d.puts := h.mem_puts_iff.2 (.inr hx)
  have hyput : (name, y) ∈ d.puts := h.mem_puts_iff.2 (.inl hy)
  obtain ⟨rfl, rfl⟩ := Prod.mk.injEq .. ▸ List.inj_on_of_nodup_map h.nodup_puts hyput hxput htag
  -- in one queue, what was handed out has lower tags than what waits
  have habout := h.rising_about name
  rw [h.inOrder, List.pairwise_append] at habout
  exact Nat.lt_irrefl _ (habout.2.2 y (mem_about.2 hy) y hx)

/-! The place of a message in the books is where it is found. -/

theorem waiting_iff (h : d.Sound) {p : Parcel} (hp : p ∈ d.parcels) :
    p.place = .waiting ↔ p.delivery ∈ (d.queue.queueState p.queue).waiting := by
  rw [(h.waiting p.queue).mem_iff, List.mem_flatMap]
  constructor
  · intro hplace
    exact ⟨p, hp, Parcel.mem_waitingIn.2 ⟨hplace, rfl, rfl⟩⟩
  · rintro ⟨p', hp', hthere⟩
    obtain ⟨hplace, -, hdelivery⟩ := Parcel.mem_waitingIn.1 hthere
    have htag : p.tag = p'.tag := congrArg Delivery.tag hdelivery
    rw [h.eq_of_mem_tags hp hp' p.tag_mem_tags (htag ▸ p'.tag_mem_tags), hplace]

/-- What waits in the queue of a message that does not is no copy of it. -/
theorem waiting_filter_eq_nil (h : d.Sound) {p : Parcel} (hp : p ∈ d.parcels) (hplace : p.place ≠ .waiting) :
    (d.queue.queueState p.queue).waiting.filter (·.tag ∈ p.tags) = [] := by
  rw [List.filter_eq_nil_iff]
  intro x hx htag
  rw [(h.waiting p.queue).mem_iff, List.mem_flatMap] at hx
  obtain ⟨p', hp', hthere⟩ := hx
  obtain ⟨hplace', -, rfl⟩ := Parcel.mem_waitingIn.1 hthere
  have htag' : p'.tag ∈ p.tags := of_decide_eq_true htag
  obtain rfl := h.eq_of_mem_tags hp hp' htag' p'.tag_mem_tags
  exact hplace hplace'

theorem mem_settled_iff (h : d.Sound) {p : Parcel} (hp : p ∈ d.parcels) (settlement : Settlement) :
    (p.tag, settlement) ∈ d.settled ↔ (p.tag, settlement) ∈ p.settlements := by
  rw [h.settled.mem_iff, List.mem_flatMap]
  constructor
  · rintro ⟨p', hp', hthere⟩
    have htag : p.tag ∈ p'.tags := p'.settlements_sublist.subset (List.mem_map_of_mem hthere)
    obtain rfl := h.eq_of_mem_tags hp hp' p.tag_mem_tags htag
    exact hthere
  · exact fun hthere => ⟨p, hp, hthere⟩

theorem findUnacked_of_settled (h : d.Sound) {tag : Nat} {settlement : Settlement}
    (hsettled : (tag, settlement) ∈ d.settled) : d.queue.findUnacked tag = none := by
  by_contra hfound
  obtain ⟨entry, hentry⟩ := Option.ne_none_iff_exists'.1 hfound
  obtain ⟨p, hp, hplace, rfl, -⟩ := h.exists_of_findUnacked hentry
  rw [h.mem_settled_iff hp, Parcel.settlements, hplace, List.append_nil, List.mem_map] at hsettled
  obtain ⟨tag, hearlier, htag⟩ := hsettled
  have hnodup := h.nodup_tags_of_mem hp
  rw [Parcel.tags, List.nodup_append] at hnodup
  exact hnodup.2.2 tag hearlier p.tag (List.mem_singleton_self _) (congrArg Prod.fst htag)

end Sound

/-! ### Runs -/

end Depot

/-- What is done with queues as long as no consumer goes. -/
inductive QueueOp
  | create (queue : String) (durable : Bool)
  | publish (queue : String) (message : Outbound)
  | consume (queue : String)
  | next (queue : String)
  | ack (tag : Nat)
  | nack (tag : Nat) (requeue : Bool)

def QueueOp.published : QueueOp → List (String × Outbound)
  | .publish queue message => [(queue, message)]
  | .create .. | .consume _ | .next _ | .ack _ | .nack .. => []

def MemoryQueue.after (q : MemoryQueue) : QueueOp → MemoryQueue
  | .create queue durable => q.create queue durable
  | .publish queue message => (q.publish queue message).2
  | .consume queue => (q.consume queue).2
  | .next queue => (q.next queue).2
  | .ack tag => (q.ack tag).2
  | .nack tag requeue => (q.nack tag requeue).2

namespace Depot

def after (d : Depot) : QueueOp → Depot
  | .create queue durable => d.create queue durable
  | .publish queue message => d.publish queue message
  | .consume queue => d.consume queue
  | .next queue => d.next queue
  | .ack tag => d.ack tag
  | .nack tag requeue => d.nack tag requeue

def run (ops : List QueueOp) : Depot := ops.foldl after {}

theorem queue_after (d : Depot) (op : QueueOp) : (d.after op).queue = d.queue.after op := by
  cases op with
  | create | consume => rfl
  | publish queue message =>
    simp only [after, publish, MemoryQueue.after]
    split <;> simp [*]
  | next queue =>
    simp only [after, next, MemoryQueue.after]
    split <;> simp [*]
  | ack tag =>
    simp only [after, ack, MemoryQueue.after]
    split <;> simp [*]
  | nack tag requeue =>
    simp only [after, nack, MemoryQueue.after]
    split
    · rename_i q heq
      rw [heq]
      split <;> rfl
    all_goals simp [*]

theorem Sound.after {d : Depot} (h : d.Sound) (op : QueueOp) : (d.after op).Sound := by
  cases op with
  | create queue durable => exact h.create queue durable
  | publish queue message => exact h.publish queue message
  | consume queue => exact h.consume queue
  | next queue => exact h.next queue
  | ack tag => exact h.ack tag
  | nack tag requeue => exact h.nack tag requeue

def IsOpen (d : Depot) : Prop := ∀ queue, (d.queue.queueState queue).receiver ≠ .gone

theorem IsOpen.after {d : Depot} (h : d.IsOpen) (op : QueueOp) : (d.after op).IsOpen := by
  intro name
  have hsame {q : MemoryQueue} {queue : String} {state : QueueState}
      (hstate : q.queueState = Function.update d.queue.queueState queue state) (hreceiver : state.receiver ≠ .gone) :
      (q.queueState name).receiver ≠ .gone := by
    rw [hstate]
    by_cases hname : name = queue
    · subst hname
      rwa [Function.update_self]
    · rw [Function.update_of_ne hname]
      exact h name
  rw [queue_after]
  cases op with
  | create queue durable =>
    obtain ⟨b, hstate⟩ := d.queue.queueState_create queue durable name
    rw [MemoryQueue.after, hstate]
    exact h name
  | publish queue message =>
    obtain ⟨q, -, -, ⟨hgone, -⟩ | ⟨-, hstate, heq⟩⟩ := d.queue.publish_cases queue message
    · exact absurd hgone (h queue)
    · rw [MemoryQueue.after, heq]
      exact hsame hstate (h queue)
  | consume queue =>
    obtain ⟨q, -, -, ⟨-, hstate, heq⟩ | ⟨-, hstate, heq⟩⟩ := d.queue.consume_cases queue
    · rw [MemoryQueue.after, heq]
      exact hsame hstate (by decide : Receiver.taken ≠ .gone)
    · rw [MemoryQueue.after, heq, hstate]
      exact h name
  | next queue =>
    rcases d.queue.next_cases queue with ⟨-, heq⟩ | ⟨_, _, q, -, hstate, -, -, heq⟩
    · rw [MemoryQueue.after, heq]
      exact h name
    · rw [MemoryQueue.after, heq]
      exact hsame hstate (h queue)
  | ack tag =>
    rcases d.queue.ack_cases tag with ⟨-, heq⟩ | ⟨_, -, heq⟩
    all_goals
      rw [MemoryQueue.after, heq]
      exact h name
  | nack tag requeue =>
    rcases d.queue.nack_cases tag requeue with
      ⟨-, heq⟩ | ⟨entry, -, ⟨-, heq⟩ | ⟨q, -, -, -, ⟨hgone, -⟩ | ⟨-, hstate, heq⟩⟩⟩
    · rw [MemoryQueue.after, heq]
      exact h name
    · rw [MemoryQueue.after, heq]
      exact h name
    · exact absurd hgone (h entry.queue)
    · rw [MemoryQueue.after, heq]
      exact hsame hstate (h entry.queue)

def published (d : Depot) : List (String × Outbound) := d.parcels.map fun p => (p.queue, p.message)

def HasAll (d : Depot) : Prop := ∀ p ∈ d.parcels, p.place ≠ .lost

/-- A change of what became of one message neither makes nor loses any. -/
private theorem HasAll.amended {d d' : Depot} (h : d.HasAll) (tag : Nat) (f : Parcel → Parcel)
    (hd' : d'.parcels = (d.amend tag f).parcels)
    (hf : ∀ p, (f p).queue = p.queue ∧ (f p).message = p.message ∧ (f p).place ≠ .lost) :
    d'.published = d.published ++ [] ∧ d'.HasAll := by
  constructor
  · rw [published, hd', amend, List.map_map, List.append_nil]
    refine List.map_congr_left fun p _ => ?_
    by_cases htag : p.tag = tag <;> simp [htag, hf]
  · intro p hp
    rw [hd'] at hp
    obtain ⟨old, hold, rfl⟩ := List.mem_map.1 hp
    split
    · exact (hf old).2.2
    · exact h old hold

/-- While all queues can take messages, the books get exactly what is published, and none of it is lost. -/
theorem published_after {d : Depot} (h : d.IsOpen) (hall : d.HasAll) (op : QueueOp) :
    (d.after op).published = d.published ++ op.published ∧ (d.after op).HasAll := by
  have hnothing : d.published = d.published ++ [] ∧ d.HasAll := ⟨(List.append_nil _).symm, hall⟩
  cases op with
  | create | consume => exact hnothing
  | publish queue message =>
    obtain ⟨q, -, -, ⟨hgone, -⟩ | ⟨-, -, heq⟩⟩ := d.queue.publish_cases queue message
    · exact absurd hgone (h queue)
    rw [after, publish, heq]
    refine ⟨List.map_append, fun p hp => ?_⟩
    rcases List.mem_append.1 hp with hp | hp
    · exact hall p hp
    · obtain rfl := List.mem_singleton.1 hp
      exact (by decide : Place.waiting ≠ .lost)
  | next queue =>
    rcases d.queue.next_cases queue with ⟨-, heq⟩ | ⟨delivery, _, q, -, -, -, -, heq⟩
    · rw [after, next, heq]
      exact hnothing
    · rw [after, next, heq]
      exact hall.amended delivery.tag ({ · with place := .unacked }) rfl fun p =>
        ⟨rfl, rfl, (by decide : Place.unacked ≠ .lost)⟩
  | ack tag =>
    rcases d.queue.ack_cases tag with ⟨-, heq⟩ | ⟨_, -, heq⟩
    · rw [after, ack, heq]
      exact hnothing
    · rw [after, ack, heq]
      exact hall.amended tag ({ · with place := .acked }) rfl fun p => ⟨rfl, rfl, (by decide : Place.acked ≠ .lost)⟩
  | nack tag requeue =>
    rcases d.queue.nack_cases tag requeue with
      ⟨-, heq⟩ | ⟨entry, -, ⟨rfl, heq⟩ | ⟨q, rfl, -, -, ⟨hgone, -⟩ | ⟨-, -, heq⟩⟩⟩
    · rw [after, nack, heq]
      exact hnothing
    · rw [after, nack, heq]
      exact hall.amended tag ({ · with place := .rejected }) rfl fun p =>
        ⟨rfl, rfl, (by decide : Place.rejected ≠ .lost)⟩
    · exact absurd hgone (h entry.queue)
    · rw [after, nack, heq]
      exact hall.amended tag (·.requeued q.lastTag) rfl fun p => ⟨rfl, rfl, (by decide : Place.waiting ≠ .lost)⟩

theorem sound_empty : Sound {} where
  waiting _ := .refl _
  unacked := .refl _
  puts := .refl _
  settled := .refl _
  rising := .nil
  le_lastTag _ hput := absurd hput List.not_mem_nil
  renumbered _ hp := absurd hp List.not_mem_nil
  inOrder _ := rfl
  count _ := rfl

private theorem facts_of_run (ops : List QueueOp) :
    (run ops).queue = ops.foldl MemoryQueue.after {} ∧ (run ops).Sound ∧ (run ops).IsOpen ∧ (run ops).HasAll ∧
      (run ops).published = ops.flatMap QueueOp.published := by
  induction ops using List.reverseRecOn with
  | nil =>
    have hopen : Receiver.free ≠ .gone := by decide
    exact ⟨rfl, sound_empty, fun _ => hopen, fun _ hp => absurd hp List.not_mem_nil, rfl⟩
  | append_singleton ops op ih =>
    obtain ⟨hqueue, hsound, hopen, hall, hpublished⟩ := ih
    have hrun : run (ops ++ [op]) = (run ops).after op := List.foldl_concat ..
    obtain ⟨hmore, hstill⟩ := published_after hopen hall op
    rw [hrun, queue_after, hqueue, List.foldl_concat, hmore, hpublished, List.flatMap_append, List.flatMap_singleton]
    exact ⟨rfl, hsound.after op, hopen.after op, hstill, rfl⟩

private theorem length_flatMap_ite {γ : Type} (l : List Parcel) (P : Parcel → Prop) [DecidablePred P]
    (f : Parcel → γ) : (l.flatMap fun p => if P p then [f p] else []).length = (l.filter fun p => P p).length := by
  induction l with
  | nil => rfl
  | cons p l ih =>
    rw [List.flatMap_cons, List.length_append, ih]
    by_cases hp : P p
    · simp [hp, Nat.add_comm]
    · simp [hp]

/-- The count of a queue is right as long as it can be. -/
theorem Sound.size_eq {d : Depot} (h : d.Sound) {queue : String}
    (hfew : (d.parcels.filter fun p => p.queue = queue).length < UInt32.size) :
    d.queue.size queue = (d.parcels.filter fun p => p.place = .waiting ∧ p.queue = queue).length := by
  have hlength : (d.queue.queueState queue).waiting.length =
      (d.parcels.filter fun p => p.place = .waiting ∧ p.queue = queue).length :=
    (h.waiting queue).length_eq.trans (length_flatMap_ite d.parcels _ _)
  have hle : (d.parcels.filter fun p => p.place = .waiting ∧ p.queue = queue).length ≤
      (d.parcels.filter fun p => p.queue = queue).length := by
    have hfilter : (d.parcels.filter fun p => p.place = .waiting ∧ p.queue = queue) =
        (d.parcels.filter fun p => p.queue = queue).filter fun p => p.place = .waiting := by
      rw [List.filter_filter]
      simp only [Bool.decide_and]
    rw [hfilter]
    exact List.length_filter_le ..
  rw [MemoryQueue.size, h.count, hlength]
  exact UInt32.toNat_ofNat_of_lt' (Nat.lt_of_le_of_lt hle hfew)

theorem Sound.unackedCount_eq {d : Depot} (h : d.Sound) :
    d.queue.unackedCount = (d.parcels.filter fun p => p.place = .unacked).length :=
  h.unacked.length_eq.trans (length_flatMap_ite d.parcels _ _)

/-- A message is marked as delivered before if and only if it was put back. -/
theorem Sound.redelivered_iff {d : Depot} (h : d.Sound) {p : Parcel} (hp : p ∈ d.parcels) :
    p.delivery.redelivered = true ↔ ∃ tag ∈ p.tags, (tag, .nack true) ∈ d.settled := by
  have hmarked : p.delivery.redelivered = true ↔ p.earlier ≠ [] := by
    rw [Parcel.delivery, Parcel.copy, decide_eq_true_iff, List.length_pos_iff]
  rw [hmarked]
  constructor
  · intro hne
    obtain ⟨tag, htag⟩ := List.exists_mem_of_ne_nil _ hne
    refine ⟨tag, List.mem_append_left _ htag, h.settled.mem_iff.2 (List.mem_flatMap.2 ⟨p, hp, ?_⟩)⟩
    exact List.mem_append_left _ (List.mem_map_of_mem htag)
  · rintro ⟨tag, htag, hsettled⟩ hnil
    rw [Parcel.tags, hnil, List.nil_append, List.mem_singleton] at htag
    rw [htag, h.mem_settled_iff hp, Parcel.settlements, hnil, List.map_nil, List.nil_append] at hsettled
    cases hplace : p.place <;> simp [hplace] at hsettled

/-- In any run in which no consumer goes, every message is taken, the books hold all of them and no other, and none is
lost.  They are right about the queues, so each message is in one place, with its content and in its order, and what is
asked for next is the first that waits.  A tag is settled once at most, and a tag that is not unacked is refused.  The
counts are those of the books. -/
theorem accounts_of_run (ops : List QueueOp) :
    let d := run ops
    let q := d.queue
    q = ops.foldl MemoryQueue.after {} ∧ d.Sound ∧ d.published = ops.flatMap QueueOp.published ∧
    (∀ queue message, (q.publish queue message).1 = .ok ()) ∧
    (∀ queue, (q.next queue).1 = (q.queueState queue).waiting.head?) ∧
    (∀ p ∈ d.parcels, p.place ≠ .lost ∧
      (p.place = .waiting ↔ p.delivery ∈ (q.queueState p.queue).waiting) ∧
      (p.place = .unacked ↔ ⟨p.queue, p.delivery⟩ ∈ q.unacked) ∧
      (p.place = .acked ↔ (p.tag, .ack) ∈ d.settled) ∧
      (p.place = .rejected ↔ (p.tag, .nack false) ∈ d.settled) ∧
      (p.delivery.redelivered = true ↔ ∃ tag ∈ p.tags, (tag, .nack true) ∈ d.settled)) ∧
    (∀ tag, (∃ p ∈ d.parcels, p.place = .unacked ∧ p.tag = tag ∧ (q.ack tag).1 = .ok () ∧
        ∀ requeue, (q.nack tag requeue).1 = .ok ()) ∨ q.Refuses tag) ∧
    (d.settled.map (·.1)).Nodup ∧ (∀ tag settlement, (tag, settlement) ∈ d.settled → q.Refuses tag) ∧
    (∀ queue, (d.parcels.filter fun p => p.queue = queue).length < UInt32.size →
      q.size queue = (d.parcels.filter fun p => p.place = .waiting ∧ p.queue = queue).length) ∧
    q.unackedCount = (d.parcels.filter fun p => p.place = .unacked).length := by
  intro d q
  obtain ⟨hqueue, hsound, hopen, hall, hpublished⟩ := facts_of_run ops
  refine ⟨hqueue, hsound, hpublished, ?_, q.next_eq_head?, ?_, ?_, hsound.nodup_settled, ?_, fun _ => hsound.size_eq,
    hsound.unackedCount_eq⟩
  · intro queue message
    obtain ⟨_, -, -, ⟨hgone, -⟩ | ⟨-, -, heq⟩⟩ := q.publish_cases queue message
    · exact absurd hgone (hopen queue)
    · rw [heq]
  · intro p hp
    refine ⟨hall p hp, hsound.waiting_iff hp, hsound.unacked_iff hp, ?_, ?_, hsound.redelivered_iff hp⟩
    all_goals
      rw [hsound.mem_settled_iff hp, Parcel.settlements]
      cases p.place <;> simp
  · intro tag
    cases hfound : q.findUnacked tag with
    | none => exact .inr (MemoryQueue.refuses_of_findUnacked hfound)
    | some entry =>
      obtain ⟨p, hp, hplace, htag, -⟩ := hsound.exists_of_findUnacked hfound
      refine .inl ⟨p, hp, hplace, htag, ?_, fun requeue => ?_⟩
      · rcases q.ack_cases tag with ⟨hnone, -⟩ | ⟨_, -, heq⟩
        · cases hfound.symm.trans hnone
        · rw [heq]
      · rcases q.nack_cases tag requeue with
          ⟨hnone, -⟩ | ⟨entry, -, ⟨-, heq⟩ | ⟨_, -, -, -, ⟨hgone, -⟩ | ⟨-, -, heq⟩⟩⟩
        · cases hfound.symm.trans hnone
        · rw [heq]
        · exact absurd hgone (hopen entry.queue)
        · rw [heq]
  · intro tag settlement hsettled
    exact MemoryQueue.refuses_of_findUnacked (hsound.findUnacked_of_settled hsettled)

/-- Two messages are handed out; the first is put back, the second is done with, and a third is published. -/
def putBackAndDone : List QueueOp :=
  [.publish "q" { body := [1] }, .publish "q" { body := [2] }, .consume "q", .next "q", .next "q", .nack 1 true,
    .ack 2, .publish "q" { body := [3] }]

/-- The message that was put back is handed out before the one that came after, and is marked; the tag of the one that
is done with is refused. -/
theorem accounts_of_run_putBackAndDone :
    let q := (run putBackAndDone).queue
    (run putBackAndDone).published = [("q", { body := [1] }), ("q", { body := [2] }), ("q", { body := [3] })] ∧
      (q.next "q").1 = some ⟨3, [1], none, none, true⟩ ∧ q.size "q" = 2 ∧ q.Refuses 2 := by
  obtain ⟨-, -, hpublished, -, hnext, -, -, -, hsettled, hsize, -⟩ := accounts_of_run putBackAndDone
  refine ⟨hpublished.trans rfl, (hnext "q").trans (by decide), ?_, hsettled 2 .ack (by decide)⟩
  exact (hsize "q" (by decide)).trans (by decide)

end Depot

end SpeechDispatch
