import RouterFabric.Proofs.Attempts
import RouterFabric.Proofs.Engine.Flow

/-!
# No command is left waiting unnoticed

A pass over a queue ends when the transport is busy, and its router is noted; the list of these
routers is emptied before they are tried again, and every pass can lead to further calls, arrivals
and passes. Through all of this each line of a free slot is looked after, by the list or by a task
on the stack. Once nothing is under way only the list can do that, and no slot can be in the midst
of being handed over.

* `Task.Tends` : the tasks that will try a router
* `Engine.Tended` : lines of free slots and slots that are being handed over have their tasks
* `Engine.Accepted` : the transport has accepted an attempt
* `Run.tended`, `Run.accepted` : both hold in every run
* `Run.wakes` : what that comes to when nothing is under way
-/

namespace RouterFabric

/-- The task will try to hand the head of the router's line to the transport. -/
def Task.Tends (r : RouterRef) : Task → Prop
  | .drain r' => r' = r
  | .offer r' _ => r' = r
  | .drainEach ids => ⟨r.index⟩ ∈ ids
  | _ => False

theorem Task.Tends.isDuty {t : Task} {r : RouterRef} (h : t.Tends r) : t.isDuty = true := by
  cases t <;> first | rfl | exact h.elim

@[simp] theorem Topology.mem_defer (t : Topology) (id id' : NodeId) :
    id' ∈ (t.defer id).deferred ↔ id' ∈ t.deferred ∨ id' = id := by
  unfold Topology.defer
  split
  · rename_i hmem
    constructor
    · exact .inl
    · rintro (h | rfl)
      · exact h
      · exact hmem
  · simp

namespace Queue

variable {q : Queue} {cs : Commands} {c : CommandRef}

theorem submitted_draining (h : (q.submitted c).state = .draining) :
    q.submitted c = q ∧ q.slot ≠ some c := by
  unfold submitted at h ⊢
  split at h
  · cases h
  · rename_i hnot
    refine ⟨if_neg hnot, fun hslot => hnot ?_⟩
    simp [holds, hslot, h]

@[simp] theorem slot_submitted (q : Queue) (c : CommandRef) : (q.submitted c).slot = q.slot := by
  unfold submitted
  split <;> rfl

/-! The answer for a command that does not hold the slot any more is of no account. -/

theorem submitted_of_ne (hne : q.slot ≠ some c) : q.submitted c = q := by
  unfold submitted
  exact if_neg fun hheld => hne (holds_iff.1 (Bool.and_eq_true_iff.1 hheld).1)

theorem defer_of_ne (hne : q.slot ≠ some c) : (q.defer cs c).2.1 = q := by
  unfold defer
  rw [if_neg fun hheld => hne (holds_iff.1 hheld)]

theorem reject_of_ne (hne : q.slot ≠ some c) : (q.reject c).2 = q := by
  unfold reject
  rw [if_neg fun hheld => hne (holds_iff.1 hheld)]

theorem defer_of_held (h : (q.defer cs c).2.1.state ≠ .idle) :
    (q.defer cs c).2.1 = q ∧ q.slot ≠ some c := by
  have hne : q.slot ≠ some c := by
    intro hslot
    unfold defer at h
    rw [if_pos (holds_iff.2 hslot)] at h
    exact h rfl
  exact ⟨defer_of_ne hne, hne⟩

theorem reject_of_held (h : (q.reject c).2.state ≠ .idle) :
    (q.reject c).2 = q ∧ q.slot ≠ some c := by
  have hne : q.slot ≠ some c := by
    intro hslot
    unfold reject at h
    rw [if_pos (holds_iff.2 hslot)] at h
    exact h rfl
  exact ⟨reject_of_ne hne, hne⟩

/-- A slot that is held after a command has been given up was held by another command before. -/
theorem abandon_of_held (h : (q.abandon c).2.state ≠ .idle) :
    (q.abandon c).2.state = q.state ∧ (q.abandon c).2.slot = q.slot ∧ q.slot ≠ some c := by
  obtain ⟨-, hheld, hwaits⟩ := abandon_eq q c
  by_cases hslot : q.slot = some c
  · rw [hheld hslot] at h
    exact absurd rfl h
  · rw [hwaits hslot]
    exact ⟨rfl, rfl, hslot⟩

end Queue

namespace Engine

variable {e e' : Engine} {m : Move} {r : RouterRef} {q : Queue} {gone tasks below : List Task}

/-- Commands wait in the line of an attached router while its slot is free. -/
def Stalls (e : Engine) (r : RouterRef) : Prop :=
  e.Linked r ∧ (e.queue r).slot = none ∧ (e.queue r).pending ≠ []

/-- The router is on the list of those that wait for the transport, or a task will try it. -/
def Minds (e : Engine) (r : RouterRef) : Prop :=
  ⟨r.index⟩ ∈ e.topology.deferred ∨ ∃ t ∈ e.stack, t.Tends r

/-- Every line of a free slot is looked after, and every slot that is being handed over belongs to a
command that is on offer. -/
structure Tended (e : Engine) : Prop where
  lines : ∀ r, e.Stalls r → e.Minds r
  slots : ∀ r, (e.queue r).state = .draining →
    ∃ c, (e.queue r).slot = some c ∧ .offer r c ∈ e.stack

/-! ## Lines -/

theorem Swapped.minds (s : Swapped e e' gone tasks below) {t : Task} (ht : t ∈ tasks)
    (htends : t.Tends r) : e'.Minds r := by
  refine .inr ⟨t, ?_, htends⟩
  rw [s.after]
  exact List.mem_append_left below ht

/-- A router that has not been in the tree before has no commands. -/
theorem Stalls.was (h : e'.Stalls r) (links : e.Links m e') (same : e'.queue r = e.queue r) :
    e.Stalls r := by
  obtain ⟨hl, hslot, hpending⟩ := h
  rw [same] at hslot hpending
  rcases links.was r hl with hl | hnone
  · exact ⟨hl, hslot, hpending⟩
  · rw [queue_of_none hnone] at hpending
    exact absurd rfl hpending

/-- A line that is as it was is looked after as before, unless it has lost what looked after it. -/
theorem Tended.line_kept (h : e.Tended) (s : Swapped e e' gone tasks below) (links : e.Links m e')
    (same : e'.queue r = e.queue r)
    (noted : ⟨r.index⟩ ∈ e.topology.deferred → e'.Minds r)
    (lost : ∀ t ∈ gone, t.Tends r → e.Stalls r → e'.Minds r) (hs : e'.Stalls r) : e'.Minds r := by
  have before := hs.was links same
  rcases h.lines r before with hd | ⟨t, ht, htends⟩
  · exact noted hd
  · rw [s.before] at ht
    rcases List.mem_append.1 ht with ht | ht
    · exact lost t ht htends before
    · refine .inr ⟨t, ?_, htends⟩
      rw [s.after]
      exact List.mem_append_right tasks ht

theorem Minds.of_deferred (hd : e'.topology.deferred = e.topology.deferred)
    (h : ⟨r.index⟩ ∈ e.topology.deferred) : e'.Minds r :=
  .inl (hd ▸ h)

theorem not_tends (hduty : ∀ t ∈ gone, t.isDuty = false) {t : Task} (ht : t ∈ gone) :
    ¬ t.Tends r := by
  intro htends
  exact Bool.false_ne_true ((hduty t ht).symm.trans htends.isDuty)

/-- A router in the tree is there under its own id. -/
theorem Stored.get?_of_linked (h : e.Stored) (hl : e.Linked r) :
    e.topology.tree.get? ⟨r.index⟩ = some r := by
  obtain ⟨route, parent, he⟩ := h.linked_iff.1 hl
  rw [RouterTree.get?_eq_place, he]
  rfl

/-- A move at the queue of one router takes nothing from the lines of the others. -/
theorem Tended.line_elsewhere {r' : RouterRef} (h : e.Tended)
    (s : Swapped e e' gone tasks below) (links : e.Links m e') (requeued : e.Requeued e' r' q)
    (hne : r' ≠ r) (hgone : ∀ t ∈ gone, t.Tends r → r' = r) (hs : e'.Stalls r) : e'.Minds r :=
  h.line_kept s links (requeued.off (Ne.symm hne)) (.of_deferred requeued.deferred)
    (fun t ht htends => absurd (hgone t ht htends) hne) hs

/-- Whatever a move does, the lines of free slots are looked after again. -/
theorem Tended.lines_flow (h : e.Tended) (hs : e.Stored) (s : Swapped e e' gone tasks below)
    (f : Flow e m e' gone tasks) (links : e.Links m e') (hstalls : e'.Stalls r) : e'.Minds r := by
  cases f with
  | still same hduty _ =>
    exact h.line_kept s links (same.queues r) (.of_deferred same.deferred)
      (fun t ht htends => absurd htends (not_tends hduty ht)) hstalls
  | entered r' c requeued _ hduty hdrain _ =>
    by_cases hr : r' = r
    · exact s.minds hdrain hr
    · exact h.line_elsewhere s links requeued hr
        (fun t ht htends => absurd htends (not_tends hduty ht)) hstalls
  | taken r' c rest _ _ _ requeued =>
    by_cases hr : r' = r
    · have hslot := hstalls.2.1
      rw [← hr, requeued.on] at hslot
      cases hslot
    · refine h.line_elsewhere s links requeued hr (fun t ht htends => ?_) hstalls
      rw [List.mem_singleton.1 ht] at htends
      exact htends
  | passed r' same hend =>
    refine h.line_kept s links (same.queues r) (.of_deferred same.deferred)
      (fun t ht htends hbefore => ?_) hstalls
    rw [List.mem_singleton.1 ht] at htends
    have hr : r' = r := htends
    rw [hr] at hend
    rcases hend with hslot | hpending
    · exact absurd hbefore.2.1 hslot
    · exact absurd hpending hbefore.2.2
  | accepted r' c _ requeued =>
    by_cases hr : r' = r
    · exact s.minds (List.mem_singleton_self _) hr
    · refine h.line_elsewhere s links requeued hr (fun t ht htends => ?_) hstalls
      rw [List.mem_singleton.1 ht] at htends
      exact htends
  | deferred r' c hqueues hdeferred =>
    by_cases hr : r' = r
    · left
      rw [hdeferred, Topology.mem_defer, hr]
      exact .inr rfl
    · refine h.line_kept s links ((hqueues r).trans (if_neg hr)) (fun hd => ?_)
        (fun t ht htends => ?_) hstalls
      · left
        rw [hdeferred, Topology.mem_defer]
        exact .inl hd
      · rw [List.mem_singleton.1 ht] at htends
        exact absurd htends hr
  | refused r' c requeued hdrain _ =>
    by_cases hr : r' = r
    · exact s.minds hdrain hr
    · refine h.line_elsewhere s links requeued hr (fun t ht htends => ?_) hstalls
      rw [List.mem_singleton.1 ht] at htends
      exact htends
  | vanished r' c same hempty =>
    refine h.line_kept s links (same.queues r) (.of_deferred same.deferred)
      (fun t ht htends hbefore => ?_) hstalls
    rw [List.mem_singleton.1 ht] at htends
    have hr : r' = r := htends
    rw [hr] at hempty
    exact absurd (congrArg Queue.pending hempty) hbefore.2.2
  | freed r' c q front back _ requeued _ _ hduty hdrain _ _ =>
    by_cases hr : r' = r
    · exact s.minds (List.mem_append_left _ hdrain) hr
    · exact h.line_elsewhere s links requeued hr
        (fun t ht htends => absurd htends (not_tends hduty ht)) hstalls
  | kicked hqueues _ =>
    refine h.line_kept s links (hqueues r) (fun hd => ?_) (fun t ht htends => ?_) hstalls
    · exact s.minds (List.mem_singleton_self _) hd
    · rw [List.mem_singleton.1 ht] at htends
      exact htends.elim
  | toured id ids same =>
    refine h.line_kept s links (same.queues r) (.of_deferred same.deferred)
      (fun t ht htends hbefore => ?_) hstalls
    rw [List.mem_singleton.1 ht] at htends
    have hmem : ⟨r.index⟩ ∈ id :: ids := htends
    rcases List.mem_cons.1 hmem with rfl | hmem
    · refine s.minds (t := .drain r) ?_ rfl
      rw [hs.get?_of_linked hbefore.1]
      exact List.mem_cons_self
    · exact s.minds (List.mem_append_right _ (List.mem_singleton_self _)) hmem
  | ended same =>
    refine h.line_kept s links (same.queues r) (.of_deferred same.deferred)
      (fun t ht htends => ?_) hstalls
    rw [List.mem_singleton.1 ht] at htends
    exact absurd htends List.not_mem_nil
  | detached r' freed _ released _ aftermath =>
    by_cases hr : r ∈ freed
    · cases aftermath with
      | done _ _ hempty =>
        have hpending := hstalls.2.2
        rw [released.queues, if_pos hr] at hpending
        exact absurd (hempty r hr) hpending
      | refused _ _ hdrain => exact s.minds (hdrain r hr) rfl
    · refine h.line_kept s links ((released.queues r).trans (if_neg hr))
        (.of_deferred released.deferred) (fun t ht => ?_) hstalls
      exact absurd ht List.not_mem_nil

/-! ## Slots -/

/-- A slot that is as it was is on offer as before. -/
theorem Tended.slot_kept (h : e.Tended) (s : Swapped e e' gone tasks below)
    (hslot : q.slot = (e.queue r).slot) (hstate : q.state = (e.queue r).state)
    (stays : ∀ c, (e.queue r).slot = some c → .offer r c ∉ gone) (hd : q.state = .draining) :
    ∃ c, q.slot = some c ∧ .offer r c ∈ e'.stack := by
  obtain ⟨c, hc, hoffer⟩ := h.slots r (hstate ▸ hd)
  refine ⟨c, hslot.trans hc, ?_⟩
  rw [s.before] at hoffer
  rw [s.after]
  rcases List.mem_append.1 hoffer with hgone | hbelow
  · exact absurd hgone (stays c hc)
  · exact List.mem_append_right tasks hbelow

/-- Whatever a move does, a slot that is being handed over afterwards is on offer. -/
theorem Tended.slots_flow (h : e.Tended) (s : Swapped e e' gone tasks below)
    (f : Flow e m e' gone tasks) (hd : (e'.queue r).state = .draining) :
    ∃ c, (e'.queue r).slot = some c ∧ .offer r c ∈ e'.stack := by
  have fares := f.fares r
  generalize e'.queue r = q at fares hd ⊢
  have held : q.state ≠ .idle := by
    rw [hd]
    exact SlotState.noConfusion
  -- the answer for a command leaves the slot to be handed over only if the command is not in it
  have answered {c : CommandRef} (hone : gone = [.offer r c])
      (hq : q = e.queue r ∧ (e.queue r).slot ≠ some c) :
      ∃ c, q.slot = some c ∧ .offer r c ∈ e'.stack := by
    obtain ⟨hsame, hother⟩ := hq
    refine h.slot_kept s (by rw [hsame]) (by rw [hsame]) (fun c' hc' hmem => ?_) hd
    rw [hone] at hmem
    cases List.mem_singleton.1 hmem
    exact hother hc'
  cases fares with
  | kept hgone => exact h.slot_kept s rfl rfl hgone hd
  | entered c _ hduty => exact h.slot_kept s rfl rfl (fun c _ => not_offer_of_idle hduty) hd
  | taken c rest _ htasks =>
    refine ⟨c, rfl, ?_⟩
    rw [s.after, htasks]
    exact List.mem_cons_self
  | accepted c _ hone => exact answered hone (Queue.submitted_draining hd)
  | deferred c hone => exact answered hone (Queue.defer_of_held held)
  | refused c hone => exact answered hone (Queue.reject_of_held held)
  | freed c q hq _ hduty =>
    rcases hq with rfl | rfl
    · obtain ⟨hstate, hslot, -⟩ := Queue.abandon_of_held held
      exact h.slot_kept s hslot hstate (fun c _ => not_offer_of_idle hduty) hd
    · cases hd
  | released _ => cases hd

/-! ## Accepted attempts -/

/-- The slot is held by a command that was handed over before, or the transport accepts it now. -/
theorem Flow.inflight (f : Flow e m e' gone tasks) (hs : (e'.queue r).state = .inflight) :
    ((e.queue r).state = .inflight ∧ (e'.queue r).slot = (e.queue r).slot) ∨
      ∃ c, m = .grant (.ok ()) ∧ gone = [.offer r c] ∧ (e.queue r).slot = some c ∧
        (e'.queue r).slot = some c := by
  have fares := f.fares r
  generalize e'.queue r = q at fares hs ⊢
  have held : q.state ≠ .idle := by
    rw [hs]
    exact SlotState.noConfusion
  have same (hq : q = e.queue r) : (e.queue r).state = .inflight ∧ q.slot = (e.queue r).slot :=
    ⟨hq ▸ hs, congrArg Queue.slot hq⟩
  cases fares with
  | kept _ => exact .inl (same rfl)
  | entered c _ _ => exact .inl ⟨hs, rfl⟩
  | taken c rest _ _ => cases hs
  | accepted c hm hone =>
    by_cases hslot : (e.queue r).slot = some c
    · exact .inr ⟨c, hm, hone, hslot, (Queue.slot_submitted _ c).trans hslot⟩
    · exact .inl (same (Queue.submitted_of_ne hslot))
  | deferred c _ => exact .inl (same (Queue.defer_of_held held).1)
  | refused c _ => exact .inl (same (Queue.reject_of_held held).1)
  | freed c q hq _ _ =>
    rcases hq with rfl | rfl
    · obtain ⟨hstate, hslot, -⟩ := Queue.abandon_of_held held
      exact .inl ⟨hstate ▸ hs, hslot⟩
    · exact absurd rfl held
  | released _ => exact absurd rfl held

end Engine

open Engine

variable {settings : Settings} {turns : List Turn} {e e' : Engine} {m : Move} {r : RouterRef}
  {router : Router} {c : CommandRef}

/-- In one of these turns the transport has accepted this attempt of the command. -/
def Accepted (turns : List Turn) (r : RouterRef) (c : CommandRef) (attempt : Nat × Nat) : Prop :=
  ∃ turn ∈ turns, turn.move = .grant (.ok ()) ∧
    (∃ below, turn.before.stack = .offer r c :: below) ∧ turn.before.attempt c = attempt

/-! ## Runs -/

theorem tended_opening (settings : Settings) : (opening settings).Tended := by
  constructor
  · rintro r ⟨-, -, hpending⟩
    rw [queue_opening] at hpending
    exact absurd rfl hpending
  · intro r hd
    rw [queue_opening] at hd
    cases hd

/-- **In every state of a run, lines and slots are looked after.** -/
theorem Run.tended (h : Run settings turns e) : e.Tended := by
  induction h with
  | start => exact tended_opening settings
  | next prior ha hm ih =>
    have hsound := prior.sound
    obtain ⟨gone, tasks, below, swapped, flow⟩ := hsound.flow ha hm
    have links := hsound.links (prior.moved ha hm)
    constructor
    · intro r hstalls
      exact ih.lines_flow hsound.toStored swapped flow links hstalls
    · intro r hd
      exact ih.slots_flow swapped flow hd

/-- A command that stays in its queue stays in the midst of its attempt. -/
theorem Run.attempt_kept (h : Run settings turns e) (ha : ∀ call, m = .call call → e.Allows call)
    (hm : e.move? m = some e') (hq : e.Queued c) (hq' : e'.Queued c) :
    e'.attempt c = e.attempt c := by
  rcases h.sound.attempts ha hm with
    steady | ⟨r, c', commences⟩ | ⟨r, c', old, signal, words, -, -, a⟩
  · exact attempt_of_substance (steady.commands c hq')
  · refine attempt_of_substance (commences.others c ?_)
    rintro rfl
    exact commences.fresh hq
  · exact attempt_of_noted a c

/-- **A command that has been handed over holds its slot for an attempt that the transport has
accepted.** -/
theorem Run.accepted (h : Run settings turns e) (hs : (e.queue r).state = .inflight) :
    ∃ c, (e.queue r).slot = some c ∧ Accepted turns r c (e.attempt c) := by
  induction h with
  | start =>
    rw [queue_opening] at hs
    cases hs
  | @next turns e e' m prior ha hm ih =>
    have hsound := prior.sound
    obtain ⟨gone, tasks, below, swapped, flow⟩ := hsound.flow ha hm
    have queued {e : Engine} {c : CommandRef} (hc : (e.queue r).slot = some c) : e.Queued c :=
      ⟨r, Queue.mem_members.2 (.inl hc)⟩
    rcases flow.inflight hs with ⟨hbefore, hslot⟩ | ⟨c, rfl, rfl, hbefore, hafter⟩
    · obtain ⟨c, hc, turn, hturn, hmove, hoffer, hattempt⟩ := ih hbefore
      have hc' := hslot.trans hc
      refine ⟨c, hc', turn, List.mem_cons_of_mem _ hturn, hmove, hoffer, ?_⟩
      rw [prior.attempt_kept ha hm (queued hc) (queued hc')]
      exact hattempt
    · refine ⟨c, hafter, _, List.mem_cons_self, rfl, ⟨below, swapped.before⟩, ?_⟩
      exact (prior.attempt_kept ha hm (queued hbefore) (queued hafter)).symm

/-- **No wakeup is lost.** When nothing is under way, every attached router with commands in its
line and none in its slot is on the list of those that wait for the transport; no slot is in the
midst of being handed over; and what has been handed over is an attempt that the transport has
accepted. -/
theorem Run.wakes (h : Run settings turns e) (idle : e.stack = [])
    (hr : e.router? r = some router) :
    (e.Linked r → router.queue.slot = none → router.queue.pending ≠ [] →
      router.id ∈ e.topology.deferred) ∧
    router.queue.state ≠ .draining ∧
    (router.queue.state = .inflight →
      ∃ c, router.queue.slot = some c ∧ Accepted turns r c (e.attempt c)) := by
  have hq := queue_of_router? hr
  have hempty : ∀ t, t ∉ e.stack := by
    rw [idle]
    exact fun t => List.not_mem_nil
  rw [← hq]
  refine ⟨fun hl hslot hpending => ?_, fun hd => ?_, h.accepted⟩
  · rcases h.tended.lines r ⟨hl, hslot, hpending⟩ with hdeferred | ⟨t, ht, -⟩
    · rw [h.sound.ids r router hr]
      exact hdeferred
    · exact absurd ht (hempty t)
  · obtain ⟨c, -, hoffer⟩ := h.tended.slots r hd
    exact hempty _ hoffer

/-- The host router is read with a callback while the transport is busy. -/
def busyMoves : List Move :=
  hostMoves hostWords ++
  ([.call (.operate ⟨0⟩ (.transfer (.read .router 0 0 1) (.callback 1))), .proceed, .grant (.ok ()),
    .proceed, .grant (.error .busy), .proceed, .proceed, .collect] : List Move)

/-- The command of the reader waits, and the host router is on the list. -/
theorem busy_read_waits : ∃ turns e router, Run {} turns e ∧ e.stack = [] ∧
    e.router? ⟨0⟩ = some router ∧ e.Linked ⟨0⟩ ∧ router.queue.pending = [⟨1⟩] ∧
    router.id ∈ e.topology.deferred := by
  have played : (replay? {} busyMoves.reverse).any (fun (_, e) =>
      e.stack.isEmpty && e.topology.tree.get? ⟨0⟩ == some ⟨0⟩ &&
        (e.router? ⟨0⟩).any fun router =>
          router.queue.slot == none && router.queue.pending == [⟨1⟩]) = true := by
    decide +kernel
  obtain ⟨turns, e, run, hcheck⟩ := exists_of_replay? played
  simp only [Bool.and_eq_true, List.isEmpty_iff, beq_iff_eq, Option.any_eq_true] at hcheck
  obtain ⟨⟨idle, hget⟩, router, hr, hslot, hpending⟩ := hcheck
  have linked : e.Linked ⟨0⟩ := ⟨⟨0⟩, hget⟩
  have hne : router.queue.pending ≠ [] := by
    rw [hpending]
    exact List.cons_ne_nil _ _
  exact ⟨turns, e, router, run, idle, hr, linked, hpending,
    (run.wakes idle hr).1 linked hslot hne⟩

end RouterFabric
