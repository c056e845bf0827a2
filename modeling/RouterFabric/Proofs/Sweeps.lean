import RouterFabric.Proofs.HeadOfLine

/-!
# Passes over a queue

A pass over the queue of a router hands the commands of the line to the transport, one after the
other, until one of them keeps the slot, the transport has no capacity, or the line is at its end.
Here nothing comes in between: the transport answers, callbacks return, and time passes.

* `Pass` : the turns of a pass; `submissions`, `callbacks` and `results` are what the transport is
  asked in them, which callbacks return, and what the rounds of the pass have for a result
* `Dealt`, `Left` : what a pass has done to an engine on its way, and in the end
* `Sweep.step`, `Sweep.goes_on` : one turn of a pass, and that there is a next one
* `Engine.pass_over_queue` : every pass comes to an end, and what it comes to
-/

namespace RouterFabric

open Engine

/-! ## Passes -/

/-- A frame that the transport is asked to take for a command, and its answer. -/
structure Submission where
  router : RouterRef
  command : CommandRef
  frame : Frame
  answer : Except TransportFault Unit

/-- The move asks for nothing and delivers nothing: the engine goes on by itself, the transport
answers, a callback returns, or time passes. -/
def Move.isLone : Move → Bool
  | .proceed | .grant _ | .back | .elapse _ => true
  | _ => false

/-- What the transport is asked in a turn. -/
def Turn.submission? (turn : Turn) : Option Submission :=
  match turn.before.stack, turn.before.pause, turn.move with
  | .offer r c :: _, .submission frame, .grant answer => some ⟨r, c, frame, answer⟩
  | _, _, _ => none

/-- The callback that returns in a turn, with what it was told. -/
def Turn.callback? (turn : Turn) : Option (Nat × Reply) :=
  match turn.before.stack, turn.move with
  | .notify tag reply :: _, .back => some (tag, reply)
  | _, _ => none

/-- The result of the round of a pass that runs in a turn, if the pass is over with it. -/
def Turn.result? (turn : Turn) : Option Drained :=
  match turn.before.stack, turn.move with
  | .drain r :: below, .proceed => (({ turn.before with stack := below } : Engine).drainNext r).1
  | .offer r c :: below, .grant answer =>
    (({ turn.before with stack := below } : Engine).takeAnswer r c answer).1
  | _, _ => none

/-- The turns of a pass so far, the latest first. The work above `below` goes on until there is
none of it left, and nothing comes in between. -/
inductive Pass (below : List Task) (e : Engine) : List Turn → Engine → Prop
  | start : Pass below e [] e
  | next {course : List Turn} {e' e'' : Engine} {m : Move} : Pass below e course e' →
      e'.stack ≠ below → m.isLone = true → e'.move? m = some e'' →
      Pass below e (⟨e', m, e''⟩ :: course) e''

/-- What the transport is asked in these turns, in their order. -/
def submissions : List Turn → List Submission
  | [] => []
  | turn :: earlier => submissions earlier ++ turn.submission?.toList

/-- The callbacks that return in these turns, in their order. -/
def callbacks : List Turn → List (Nat × Reply)
  | [] => []
  | turn :: earlier => callbacks earlier ++ turn.callback?.toList

/-- What the rounds in these turns have for a result, in their order. -/
def results : List Turn → List Drained
  | [] => []
  | turn :: earlier => results earlier ++ turn.result?.toList

/-- The command as it is while it holds the slot since a time. -/
def Command.inSlot (command : Command) (since : Nat) : Command :=
  { command with phase := .inflight, since := some since }

/-- The command as it is while it waits in line. -/
def Command.inLine (command : Command) : Command :=
  { command with phase := .queued, since := none }

/-- A refused command, and why it is refused. -/
structure Refusal where
  ref : CommandRef
  command : Command
  fault : TransportFault

/-- What the transport has been asked when it refuses a command. -/
def Refusal.submission (r : RouterRef) (refusal : Refusal) : Submission :=
  ⟨r, refusal.ref, refusal.command.frame, .error refusal.fault⟩

/-- The command as it is left when it is refused after it has been taken into the slot: its attempt
is complete and has ended with the fault, its callback is used up, and its future has a reply. -/
def Refusal.left (refusal : Refusal) (since : Nat) : Command :=
  { refusal.command with
    sent := true
    answered := true
    pollComplete := true
    phase := .done
    since := some since
    ending := some (.refused refusal.fault)
    listener :=
      match refusal.command.listener with
      | .nobody | .callback _ => .nobody
      | .future none => .future (some (.error (.transport refusal.fault)))
      | .future (some reply) => .future (some reply) }

/-- The callback of a refused command, and what it is told. -/
def Refusal.callback? (refusal : Refusal) : Option (Nat × Reply) :=
  match refusal.command.listener with
  | .callback tag => some (tag, .error (.transport refusal.fault))
  | _ => none

/-- The entry of a line that is refused. -/
def Refusal.entry (refusal : Refusal) : CommandRef × Command :=
  (refusal.ref, refusal.command)

/-- The callback that a task runs, and what it is told. -/
def Task.callback? : Task → Option (Nat × Reply)
  | .notify tag told => some (tag, told)
  | _ => none

/-- The callback of a refused command, and what keeps the command in use meanwhile. -/
def Task.isParting : Task → Bool
  | .notify _ _ | .hold _ _ => true
  | _ => false

/-- The slot of a router is free, and these commands wait in line, all of them different and none
with its current attempt complete. -/
structure Engine.LinedUp (e : Engine) (r : RouterRef) (router : Router)
    (line : List (CommandRef × Command)) : Prop where
  found : e.router? r = some router
  free : router.queue = ⟨line.map Prod.fst, none, .idle⟩
  nodup : (line.map Prod.fst).Nodup
  waiting : ∀ entry ∈ line, e.command? entry.1 = some entry.2 ∧ entry.2.isComplete = false

/-! ## What a pass does -/

/-- What a pass has done to an engine: the router is as given; some commands have been refused, each
for a reason of its own; and one more command may be as given. Apart from the topology, the time and
the stack, nothing else has changed. -/
structure Dealt (e₀ e : Engine) (r : RouterRef) (router : Router) (refusals : List Refusal)
    (current : Option (CommandRef × Command)) : Prop where
  found : e.router? r = some router
  elsewhere : ∀ r', r' ≠ r → e.router? r' = e₀.router? r'
  refused : ∀ refusal ∈ refusals, refusal.fault ≠ .busy ∧
    ∃ since, e.command? refusal.ref = some (refusal.left since)
  moved : ∀ c command, current = some (c, command) → e.command? c = some command
  untouched : ∀ c, c ∉ refusals.map Refusal.ref → current.map Prod.fst ≠ some c →
    e.command? c = e₀.command? c

/-- What a pass comes to for the rest of the line, with what the transport has been asked of it:
nothing is left of the line, its head holds the slot, or its head has gone back. -/
inductive Left (e₀ e : Engine) (r : RouterRef) (router : Router) (refusals : List Refusal) :
    List (CommandRef × Command) → List Submission → Drained → Prop
  | empty : Dealt e₀ e r { router with queue := {} } refusals none →
      e.topology = e₀.topology → Left e₀ e r router refusals [] [] .empty
  | occupied (c : CommandRef) (command : Command) (rest : List (CommandRef × Command))
      (since : Nat) :
      Dealt e₀ e r
        { router with
          queue := ⟨rest.map Prod.fst, some c, .inflight⟩
          stats := { router.stats with submitted := router.stats.submitted + 1 } }
        refusals (some (c, command.inSlot since)) →
      e.topology = e₀.topology →
      Left e₀ e r router refusals ((c, command) :: rest) [⟨r, c, command.frame, .ok ()⟩] .occupied
  | deferred (c : CommandRef) (command : Command) (rest : List (CommandRef × Command)) :
      Dealt e₀ e r
        { router with
          queue := ⟨c :: rest.map Prod.fst, none, .idle⟩
          stats := { router.stats with busyDeferrals := router.stats.busyDeferrals + 1 } }
        refusals (some (c, command.inLine)) →
      e.topology = { e₀.topology with
        deferred :=
          if router.id ∈ e₀.topology.deferred then e₀.topology.deferred
          else e₀.topology.deferred ++ [router.id] } →
      Left e₀ e r router refusals ((c, command) :: rest) [⟨r, c, command.frame, .error .busy⟩]
        .deferred

/-- How far a pass over a line has come: at most so many moves are left until its end, this is what
the transport has been asked, these callbacks have returned, and this is the result of the pass if
it is over. -/
inductive Sweep (e₀ : Engine) (r : RouterRef) (router : Router) (below : List Task)
    (line : List (CommandRef × Command)) (e : Engine) :
    Nat → List Submission → List (Nat × Reply) → Option Drained → Prop
  /-- the next command is about to be taken, perhaps after a callback -/
  | clearing (refusals : List Refusal) (rest : List (CommandRef × Command)) (chores : List Task)
      (told : List (Nat × Reply)) :
      line = refusals.map Refusal.entry ++ rest → e.stack = chores ++ .drain r :: below →
      (∀ t ∈ chores, t.isParting = true) →
      told ++ chores.filterMap Task.callback? = refusals.filterMap Refusal.callback? →
      Dealt e₀ e r { router with queue := ⟨rest.map Prod.fst, none, .idle⟩ } refusals none →
      e.topology = e₀.topology →
      Sweep e₀ r router below line e (4 * rest.length + chores.length + 1)
        (refusals.map (Refusal.submission r)) told none
  /-- the transport is asked to take a command -/
  | offering (refusals : List Refusal) (c : CommandRef) (command : Command)
      (rest : List (CommandRef × Command)) (since : Nat) :
      line = refusals.map Refusal.entry ++ (c, command) :: rest → e.stack = .offer r c :: below →
      Dealt e₀ e r { router with queue := ⟨rest.map Prod.fst, some c, .draining⟩ } refusals
        (some (c, command.inSlot since)) →
      e.topology = e₀.topology →
      Sweep e₀ r router below line e (4 * rest.length + 4)
        (refusals.map (Refusal.submission r)) (refusals.filterMap Refusal.callback?) none
  /-- a command keeps the slot -/
  | accepted (refusals : List Refusal) (rest : List (CommandRef × Command))
      (last : List Submission) : line = refusals.map Refusal.entry ++ rest →
      e.stack = .drain r :: below → Left e₀ e r router refusals rest last .occupied →
      Sweep e₀ r router below line e 1 (refusals.map (Refusal.submission r) ++ last)
        (refusals.filterMap Refusal.callback?) none
  | finished (refusals : List Refusal) (rest : List (CommandRef × Command)) (last : List Submission)
      (result : Drained) : line = refusals.map Refusal.entry ++ rest → e.stack = below →
      Left e₀ e r router refusals rest last result →
      Sweep e₀ r router below line e 0 (refusals.map (Refusal.submission r) ++ last)
        (refusals.filterMap Refusal.callback?) (some result)

variable {e₀ e e' : Engine} {m : Move} {r : RouterRef} {router : Router} {c : CommandRef}
  {command : Command} {below chores : List Task} {line rest : List (CommandRef × Command)}
  {refusals : List Refusal} {refusal : Refusal} {course : List Turn} {asked last : List Submission}
  {told : List (Nat × Reply)} {current : Option (CommandRef × Command)} {result : Option Drained}
  {n : Nat} {answer : Except TransportFault Unit}

/-! ## Sections of a pass -/

namespace Engine

theorem drain_of_line (hr : e.router? r = some router) {later : List CommandRef}
    (hq : router.queue = ⟨c :: later, none, .idle⟩) : (e.drainNext r).1 = none ∧
    e.drain r = (e.setLine r (⟨later, some c, .draining⟩,
      e.commands.update c (·.setPhase .inflight e.now))).push [.offer r c] := by
  rw [drain_eq]
  unfold drainNext
  rw [hr]
  simp only [hq, Queue.beginDrain, and_self]

theorem drain_of_nothing (hr : e.router? r = some router)
    (hq : router.queue.state ≠ .idle ∨ router.queue.pending = []) :
    (e.drainNext r).1 = some (if router.queue.slot.isSome then .occupied else .empty) ∧
      e.drain r = e := by
  have hnone : router.queue.beginDrain e.commands e.now = none := by
    unfold Queue.beginDrain
    split
    · rename_i hidle hpending
      rcases hq with hbusy | hnil
      · exact absurd hidle hbusy
      · cases hpending.symm.trans hnil
    · rfl
  rw [drain_eq]
  unfold drainNext
  rw [hr]
  simp only [hnone, and_self]

variable (hr : e.router? r = some router) {later : List CommandRef}
  (hq : router.queue = ⟨later, some c, .draining⟩)

include hr hq

theorem answerOffer_taken : (e.takeAnswer r c (.ok ())).1 = none ∧ e.answerOffer r c (.ok ()) =
    ((e.setQueue r ⟨later, some c, .inflight⟩).count r fun stats =>
      { stats with submitted := stats.submitted + 1 }).push [.drain r] := by
  rw [answerOffer_eq]
  unfold takeAnswer
  rw [hr]
  simp only [hq, Queue.submitted, Queue.holds]
  simp

theorem answerOffer_full : (e.takeAnswer r c (.error .busy)).1 = some .deferred ∧
    e.answerOffer r c (.error .busy) = { (e.setLine r
        (⟨c :: later, none, .idle⟩, e.commands.update c (·.setPhase .queued 0))).count r
          fun stats => { stats with busyDeferrals := stats.busyDeferrals + 1 } with
      topology := e.topology.defer router.id } := by
  rw [answerOffer_eq]
  unfold takeAnswer
  rw [hr]
  simp only [hq, Queue.defer, Queue.holds, Queue.release]
  simp
  rfl

theorem answerOffer_refused (hc : e.command? c = some command)
    (hcomplete : command.isComplete = false) {fault : TransportFault} (hf : fault ≠ .busy) :
    (e.takeAnswer r c (.error fault)).1 = none ∧
    e.answerOffer r c (.error fault) = { e.setQueue r ⟨later, none, .idle⟩ with
      commands := Commands.update (e.commands.set c.index command.forced) c
        (·.finish (.refused fault))
      stack := command.forced.notes (.refused fault) ++ .hold [r] [c] :: .drain r :: e.stack } := by
  have hmarked : (e.setQueue r ⟨later, none, .idle⟩).commands.change c false
      (fun command => command.markAll command.generation) =
        (true, e.commands.set c.index command.forced) := by
    show e.commands.change c false _ = _
    rw [Commands.change_eq hc, Command.markAll_of_waiting hcomplete]
  have hreject : router.queue.reject c = (true, ⟨later, none, .idle⟩) := by
    rw [Queue.reject_eq, hq, if_pos rfl]
    rfl
  have hforced : Commands.get? (e.commands.set c.index command.forced) c =
      some command.forced := by
    rw [Commands.get?_set hc, if_pos rfl]
  rw [answerOffer_eq]
  unfold takeAnswer
  rw [hr]
  cases fault with
  | busy => exact absurd rfl hf
  | closed | failed =>
    simp only [hreject, hmarked, if_true]
    exact ⟨trivial, finish_eq (by exact hforced) _⟩

end Engine

/-! ## What a section adds to what has been done -/

section

variable {router' : Router}
  (hrouters : ∀ r', e'.router? r' = if r = r' then some router' else e.router? r')

include hrouters

theorem Dealt.requeued (k : Dealt e₀ e r router refusals current)
    (hc : e'.commands = e.commands) : Dealt e₀ e' r router' refusals current := by
  have hcommand (c : CommandRef) : e'.command? c = e.command? c := by rw [command?, hc, command?]
  obtain ⟨-, elsewhere, refused, moved, untouched⟩ := k
  refine ⟨(hrouters r).trans (if_pos rfl), fun r' hne => ?_, ?_, ?_, ?_⟩
  · rw [hrouters, if_neg (Ne.symm hne), elsewhere r' hne]
  · intro refusal hmem
    rw [hcommand]
    exact refused refusal hmem
  · intro c command heq
    exact (hcommand c).trans (moved c command heq)
  · intro c hnot hne
    exact (hcommand c).trans (untouched c hnot hne)

/-- A command that has not been refused is changed. -/
theorem Dealt.advanced {f : Command → Command}
    (k : Dealt e₀ e r router refusals current) (hc : c ∉ refusals.map Refusal.ref)
    (hfound : (e.command? c).map f = some command)
    (hcurrent : current = none ∨ ∃ before, current = some (c, before))
    (hcommands : e'.commands = e.commands.update c f) :
    Dealt e₀ e' r router' refusals (some (c, command)) := by
  have hcommand (c' : CommandRef) : e'.command? c' =
      if c = c' then (e.command? c').map f else e.command? c' := by
    rw [command?, hcommands]
    exact Commands.get?_update e.commands c c' _
  refine ⟨(hrouters r).trans (if_pos rfl), fun r' hne => ?elsewhere, fun refusal hmem => ?refused,
    fun c' command' heq => ?moved, fun c' hnot hne => ?untouched⟩
  case elsewhere => rw [hrouters, if_neg (Ne.symm hne), k.elsewhere r' hne]
  case refused =>
    have hother : c ≠ refusal.ref := fun heq => hc (heq ▸ List.mem_map_of_mem hmem)
    rw [hcommand, if_neg hother]
    exact k.refused refusal hmem
  case moved =>
    cases heq
    rw [hcommand, if_pos rfl, hfound]
  case untouched =>
    have hother : c ≠ c' := fun heq => hne (congrArg some heq)
    rw [hcommand, if_neg hother]
    refine k.untouched c' hnot ?_
    rcases hcurrent with rfl | ⟨before, rfl⟩
    · exact (Option.some_ne_none c').symm
    · exact hne

/-- The command in the slot is refused. -/
theorem Dealt.refuse (since : Nat) {before : Command}
    (k : Dealt e₀ e r router refusals (some (refusal.ref, before)))
    (hc : refusal.ref ∉ refusals.map Refusal.ref) (hf : refusal.fault ≠ .busy)
    (hcommand : ∀ c, e'.command? c =
      if refusal.ref = c then some (refusal.left since) else e.command? c) :
    Dealt e₀ e' r router' (refusals ++ [refusal]) none := by
  refine ⟨(hrouters r).trans (if_pos rfl), fun r' hne => ?elsewhere, fun other hmem => ?refused,
    fun _ _ heq => (nomatch heq), fun c hnot hne => ?untouched⟩
  case elsewhere => rw [hrouters, if_neg (Ne.symm hne), k.elsewhere r' hne]
  case refused =>
    rcases List.mem_append.1 hmem with hmem | hlast
    · have hother : refusal.ref ≠ other.ref := fun heq => hc (heq ▸ List.mem_map_of_mem hmem)
      rw [hcommand, if_neg hother]
      exact k.refused other hmem
    · obtain rfl := List.mem_singleton.1 hlast
      exact ⟨hf, since, by rw [hcommand, if_pos rfl]⟩
  case untouched =>
    rw [List.map_append, List.mem_append, not_or] at hnot
    have hother : refusal.ref ≠ c := fun heq => hnot.2 (heq ▸ List.mem_singleton_self _)
    rw [hcommand, if_neg hother]
    exact k.untouched c hnot.1 fun heq => hother (Option.some.inj heq)

end

theorem Dealt.of_eq (k : Dealt e₀ e r router refusals current) (hr : e'.routers = e.routers)
    (hc : e'.commands = e.commands) : Dealt e₀ e' r router refusals current := by
  refine k.requeued (fun r' => ?_) hc
  have hrouter : e'.router? r' = e.router? r' := by rw [router?, hr, router?]
  split
  · rename_i same
    subst same
    exact hrouter.trans k.found
  · exact hrouter

theorem Left.of_eq {result : Drained} (k : Left e₀ e r router refusals rest last result)
    (hr : e'.routers = e.routers) (hc : e'.commands = e.commands)
    (ht : e'.topology = e.topology) : Left e₀ e' r router refusals rest last result := by
  cases k with
  | empty d top => exact .empty (d.of_eq hr hc) (ht.trans top)
  | occupied c command rest since d top =>
    exact .occupied c command rest since (d.of_eq hr hc) (ht.trans top)
  | deferred c command rest d top => exact .deferred c command rest (d.of_eq hr hc) (ht.trans top)

theorem Refusal.map_entry (refusals : List Refusal) :
    (refusals.map Refusal.entry).map Prod.fst = refusals.map Refusal.ref := by
  rw [List.map_map]
  rfl

/-- The next command of a line has not been refused yet. -/
theorem Engine.LinedUp.next (h : e₀.LinedUp r router line)
    (hline : line = refusals.map Refusal.entry ++ (c, command) :: rest) :
    c ∉ refusals.map Refusal.ref ∧ e₀.command? c = some command ∧ command.isComplete = false := by
  have hnodup := h.nodup
  rw [hline, List.map_append, Refusal.map_entry, List.map_cons] at hnodup
  refine ⟨fun hmem => ?_, h.waiting _ (hline ▸ List.mem_append_right _ List.mem_cons_self)⟩
  exact (List.nodup_append.1 hnodup).2.2 c hmem c List.mem_cons_self rfl

/-! ## One turn of a pass -/

namespace Engine

theorem router?_setQueue (hr : e.router? r = some router) (q : Queue) (r' : RouterRef) :
    (e.setQueue r q).router? r' =
      if r = r' then some { router with queue := q } else e.router? r' := by
  unfold setQueue
  rw [router?_updateRouter]
  split
  · rename_i same
    rw [← same, hr]
    rfl
  · rfl

theorem router?_setQueue_count (hr : e.router? r = some router) (q : Queue)
    (f : Statistics → Statistics) (r' : RouterRef) : ((e.setQueue r q).count r f).router? r' =
      if r = r' then some { router with queue := q, stats := f router.stats }
      else e.router? r' := by
  unfold count
  rw [router?_updateRouter, router?_setQueue hr]
  split <;> rfl

end Engine

theorem Turn.submission?_eq_some {turn : Turn} {s : Submission} (h : turn.submission? = some s) :
    turn.move = .grant s.answer := by
  unfold Turn.submission? at h
  split at h
  · cases h
    assumption
  · cases h

theorem Turn.submission?_of_move (hm : ∀ answer, m ≠ .grant answer) :
    Turn.submission? ⟨e, m, e'⟩ = none := by
  cases hs : Turn.submission? ⟨e, m, e'⟩ with
  | none => rfl
  | some s => exact absurd (Turn.submission?_eq_some hs) (hm _)

theorem Turn.callback?_of_move (hm : m ≠ .back) : Turn.callback? ⟨e, m, e'⟩ = none := by
  unfold Turn.callback?
  split
  · exact absurd ‹_› hm
  · rfl

theorem Turn.result?_of_move (hp : m ≠ .proceed) (hm : ∀ answer, m ≠ .grant answer) :
    Turn.result? ⟨e, m, e'⟩ = none := by
  unfold Turn.result?
  split
  · exact absurd ‹_› hp
  · exact absurd ‹_› (hm _)
  · rfl

/-- Where the engine is not at work by itself and time does not pass, a lone move of a pass is what
the task on top waits for. -/
theorem lone_cases (hlone : m.isLone = true) (hp : e.canProceed = false)
    (hm : e.move? m = some e') :
    (∃ answer, m = .grant answer ∧ e.granted? answer = some e') ∨
      (m = .back ∧ e.returned? = some e') ∨
      ∃ ms, m = .elapse ms ∧ e' = { e with now := e.now + ms } := by
  cases m with
  | proceed =>
    simp only [move?, hp] at hm
    cases hm
  | grant answer => exact .inl ⟨answer, rfl, hm⟩
  | back => exact .inr (.inl ⟨rfl, hm⟩)
  | elapse ms => exact .inr (.inr ⟨ms, rfl, (Option.some.inj hm).symm⟩)
  | giveUp | collect | call | receive => cases hlone

theorem Sweep.elapsed (k : Sweep e₀ r router below line e n asked told result) (ms : Nat) :
    Sweep e₀ r router below line { e with now := e.now + ms } n asked told result := by
  cases k with
  | clearing refusals rest chores told hline hs hchores htold d top =>
    exact .clearing refusals rest chores told hline hs hchores htold (d.of_eq rfl rfl) top
  | offering refusals c command rest since hline hs d top =>
    exact .offering refusals c command rest since hline hs (d.of_eq rfl rfl) top
  | accepted refusals rest last hline hs left =>
    exact .accepted refusals rest last hline hs (left.of_eq rfl rfl rfl)
  | finished refusals rest last result hline hs left =>
    exact .finished refusals rest last result hline hs (left.of_eq rfl rfl rfl)

/-- One turn brings a pass nearer to its end. -/
def Turn.Advances (turn : Turn) (e₀ : Engine) (r : RouterRef) (router : Router)
    (below : List Task) (line : List (CommandRef × Command)) (n : Nat)
    (asked : List Submission) (told : List (Nat × Reply)) : Prop :=
  ∃ n' < n, Sweep e₀ r router below line turn.after n' (asked ++ turn.submission?.toList)
    (told ++ turn.callback?.toList) turn.result?

/-- A turn in which the transport is asked nothing and no callback returns. -/
theorem Sweep.advances {n' : Nat} {result : Option Drained}
    (k : Sweep e₀ r router below line e' n' asked told result) (hless : n' < n)
    (hm : ∀ answer, m ≠ .grant answer) (hback : m ≠ .back)
    (hresult : Turn.result? ⟨e, m, e'⟩ = result) :
    Turn.Advances ⟨e, m, e'⟩ e₀ r router below line n asked told := by
  refine ⟨n', hless, ?_⟩
  rw [Turn.submission?_of_move hm, Turn.callback?_of_move hback, hresult]
  exact (List.append_nil asked).symm ▸ (List.append_nil told).symm ▸ k

/-- The pass finds nothing that could be taken into the slot. -/
theorem Left.advances {last : List Submission} {drained : Drained}
    (left : Left e₀ e r router refusals rest last drained)
    (hline : line = refusals.map Refusal.entry ++ rest) (hs : e.stack = .drain r :: below)
    {now : Router} (hr : e.router? r = some now)
    (hnow : now.queue.state ≠ .idle ∨ now.queue.pending = [])
    (hdrained : (if now.queue.slot.isSome then Drained.occupied else .empty) = drained)
    (hn : 0 < n) : Turn.Advances ⟨e, .proceed, e.step⟩ e₀ r router below line n
      (refusals.map (Refusal.submission r) ++ last) (refusals.filterMap Refusal.callback?) := by
  obtain ⟨hresult, hsame⟩ := drain_of_nothing (e := { e with stack := below }) hr hnow
  have hstep : e.step = { e with stack := below } := by
    unfold step
    rw [hs]
    exact hsame
  rw [hstep]
  refine Sweep.advances
    (.finished refusals rest last drained hline rfl (left.of_eq rfl rfl rfl)) hn nofun nofun ?_
  unfold Turn.result?
  rw [hs]
  exact hresult.trans (congrArg some hdrained)

/-- The head of the line is taken into the slot. -/
theorem Dealt.takes (h : e₀.LinedUp r router line)
    (d : Dealt e₀ e r { router with queue := ⟨c :: rest.map Prod.fst, none, .idle⟩ } refusals none)
    (top : e.topology = e₀.topology)
    (hline : line = refusals.map Refusal.entry ++ (c, command) :: rest)
    (hs : e.stack = .drain r :: below) :
    Turn.Advances ⟨e, .proceed, e.step⟩ e₀ r router below line (4 * rest.length + 5)
      (refusals.map (Refusal.submission r)) (refusals.filterMap Refusal.callback?) := by
  obtain ⟨hfresh, hc₀, -⟩ := h.next hline
  obtain ⟨hresult, hline'⟩ := drain_of_line (e := { e with stack := below }) d.found rfl
  have hstep : e.step = (({ e with stack := below } : Engine).setLine r
      (⟨rest.map Prod.fst, some c, .draining⟩,
        e.commands.update c (·.setPhase .inflight e.now))).push [.offer r c] := by
    unfold step
    rw [hs]
    exact hline'
  have hc : e.command? c = some command := (d.untouched c hfresh nofun).trans hc₀
  rw [hstep]
  refine Sweep.advances (.offering refusals c command rest e.now hline rfl ?_ top)
    (Nat.lt_succ_self _) nofun nofun ?_
  · refine d.advanced (f := (·.setPhase .inflight e.now)) ?_ hfresh (hc ▸ rfl) (.inl rfl) rfl
    exact router?_setQueue (e := { e with stack := below }) d.found _
  · unfold Turn.result?
    rw [hs]
    exact hresult

theorem Command.notes_parting (command : Command) (ending : Ending) :
    (command.notes ending).length ≤ 1 ∧ ∀ t ∈ command.notes ending, t.isParting = true := by
  unfold Command.notes
  cases command.callback? <;> simp [Task.isParting]

/-- The callback that runs when a refused command ends is told why. -/
theorem Refusal.notes_callback (refusal : Refusal) (since : Nat) :
    ((refusal.command.inSlot since).forced.notes (.refused refusal.fault)).filterMap
      Task.callback? = refusal.callback?.toList := by
  unfold Command.notes Command.callback? Refusal.callback? Command.forced Command.inSlot
  cases refusal.command.listener <;> rfl

/-- A command that ends in the slot is left as it should be. -/
theorem Refusal.left_eq (refusal : Refusal) (since : Nat) :
    (refusal.command.inSlot since).forced.finish (.refused refusal.fault) = refusal.left since := by
  unfold Refusal.left Command.finish Command.forced Command.inSlot
  rcases refusal.command.listener with _ | tag | reply
  · rfl
  · rfl
  · cases reply <;> rfl

/-- The command in the slot is refused, and its callback is next, if it has one. -/
theorem Dealt.refused_next {since : Nat} (refusal : Refusal) (h : e₀.LinedUp r router line)
    (d : Dealt e₀ e r { router with queue := ⟨rest.map Prod.fst, some refusal.ref, .draining⟩ }
      refusals (some (refusal.ref, refusal.command.inSlot since)))
    (top : e.topology = e₀.topology)
    (hline : line = refusals.map Refusal.entry ++ refusal.entry :: rest)
    (hs : e.stack = below) (hf : refusal.fault ≠ .busy) :
    (e.takeAnswer r refusal.ref (.error refusal.fault)).1 = none ∧
    ∃ n' < 4 * rest.length + 4, Sweep e₀ r router below line
      (e.answerOffer r refusal.ref (.error refusal.fault)) n'
      ((refusals ++ [refusal]).map (Refusal.submission r))
      (refusals.filterMap Refusal.callback?) none := by
  obtain ⟨hfresh, -, hcomplete⟩ := h.next hline
  have hc : e.command? refusal.ref = some (refusal.command.inSlot since) := d.moved _ _ rfl
  obtain ⟨hnotes, hparting⟩ := (refusal.command.inSlot since).forced.notes_parting
    (.refused refusal.fault)
  obtain ⟨hresult, hafter⟩ := answerOffer_refused d.found rfl hc hcomplete hf
  rw [hafter]
  refine ⟨hresult, _, ?less, .clearing (refusals ++ [refusal]) rest
    ((refusal.command.inSlot since).forced.notes (.refused refusal.fault) ++
      [Task.hold [r] [refusal.ref]]) _ ?split ?stack ?parting ?told ?dealt top⟩
  case less =>
    rw [List.length_append, List.length_singleton]
    omega
  case split =>
    rw [hline, List.map_append, List.append_assoc]
    rfl
  case stack => rw [hs, List.append_assoc]; rfl
  case parting => exact List.forall_mem_append.2 ⟨hparting, List.forall_mem_singleton.2 rfl⟩
  case told =>
    rw [List.filterMap_append, List.filterMap_append, refusal.notes_callback since]
    cases hcallback : refusal.callback? <;> simp [hcallback, Task.callback?]
  case dealt =>
    refine Dealt.refuse ?_ since d hfresh hf fun c => ?_
    · exact router?_setQueue d.found _
    · show Commands.get? (Commands.update _ _ _) _ = _
      rw [Commands.get?_update, Commands.get?_set hc]
      split
      · exact congrArg some (refusal.left_eq since)
      · rfl

/-- The transport answers for the command in the slot. -/
theorem Dealt.answered {since : Nat} (h : e₀.LinedUp r router line)
    (d : Dealt e₀ e r { router with queue := ⟨rest.map Prod.fst, some c, .draining⟩ } refusals
      (some (c, command.inSlot since)))
    (top : e.topology = e₀.topology)
    (hline : line = refusals.map Refusal.entry ++ (c, command) :: rest)
    (hs : e.stack = .offer r c :: below) (answer : Except TransportFault Unit) :
    Turn.Advances ⟨e, .grant answer, ({ e with stack := below } : Engine).answerOffer r c answer⟩
      e₀ r router below line (4 * rest.length + 4) (refusals.map (Refusal.submission r))
      (refusals.filterMap Refusal.callback?) := by
  obtain ⟨hfresh, -, -⟩ := h.next hline
  have hc : e.command? c = some (command.inSlot since) := d.moved c _ rfl
  have hasked : Turn.submission? ⟨e, .grant answer,
      ({ e with stack := below } : Engine).answerOffer r c answer⟩ =
        some ⟨r, c, command.frame, answer⟩ := by
    have hp : e.pause = .submission command.frame := by
      unfold pause
      rw [hs]
      simp only [hc]
      rfl
    simp only [Turn.submission?, hs, hp]
  have hresult : Turn.result? ⟨e, .grant answer,
      ({ e with stack := below } : Engine).answerOffer r c answer⟩ =
        (({ e with stack := below } : Engine).takeAnswer r c answer).1 := by
    unfold Turn.result?
    rw [hs]
  unfold Turn.Advances
  rw [hasked, hresult, Turn.callback?_of_move (m := .grant answer) nofun, Option.toList_none,
    List.append_nil]
  cases answer with
  | ok =>
    obtain ⟨hnone, hafter⟩ := answerOffer_taken (e := { e with stack := below }) d.found rfl
    refine ⟨1, by omega, ?_⟩
    rw [hnone, hafter]
    refine .accepted refusals _ _ hline rfl (.occupied c command rest since ?_ top)
    refine d.requeued ?_ rfl
    exact router?_setQueue_count (e := { e with stack := below }) d.found _ fun stats =>
      { stats with submitted := stats.submitted + 1 }
  | error fault =>
    by_cases hf : fault = .busy
    · subst hf
      obtain ⟨hdeferred, hafter⟩ := answerOffer_full (e := { e with stack := below }) d.found rfl
      refine ⟨0, by omega, ?_⟩
      rw [hdeferred, hafter]
      refine .finished refusals _ _ .deferred hline rfl (.deferred c command rest ?_ ?_)
      · refine d.advanced (f := (·.setPhase .queued 0)) ?_ hfresh (hc ▸ rfl) (.inr ⟨_, rfl⟩) rfl
        exact router?_setQueue_count (e := { e with stack := below }) d.found _ fun stats =>
          { stats with busyDeferrals := stats.busyDeferrals + 1 }
      · show e.topology.defer router.id = _
        rw [top, Topology.defer]
        split <;> rfl
    · obtain ⟨hnone, n', hless, k⟩ := Dealt.refused_next (e := { e with stack := below })
        ⟨c, command, fault⟩ h (d.of_eq rfl rfl) top hline rfl hf
      rw [List.map_append] at k
      rw [hnone]
      exact ⟨n', hless, k⟩

/-- **One turn of a pass**: time passes, or the pass is brought nearer to its end. -/
theorem Sweep.step (h : e₀.LinedUp r router line)
    (k : Sweep e₀ r router below line e n asked told none) (hlone : m.isLone = true)
    (hm : e.move? m = some e') : Turn.Advances ⟨e, m, e'⟩ e₀ r router below line n asked told ∨
      ∃ ms, m = .elapse ms ∧ e' = { e with now := e.now + ms } := by
  cases k with
  | clearing refusals rest chores told hline hs hchores htold d top =>
    cases chores with
    | nil =>
      have hp : e.pause = .working := by unfold pause; rw [hs]; rfl
      rw [List.filterMap_nil, List.append_nil] at htold
      subst htold
      rcases working_cases hp hm with ⟨rfl, rfl⟩ | helapse
      · left
        cases rest with
        | nil =>
          have left : Left e₀ e r router refusals [] [] .empty := .empty d top
          rw [← List.append_nil (refusals.map _)]
          exact left.advances hline hs d.found (.inr rfl) rfl (Nat.succ_pos _)
        | cons entry rest => exact d.takes h top hline hs
      · exact .inr helapse
    | cons t chores =>
      have hpopped (he : e' = { e with stack := chores ++ .drain r :: below })
          (hgrant : ∀ answer, m ≠ .grant answer)
          (hcallback : Turn.callback? ⟨e, m, e'⟩ = t.callback?)
          (hresult : Turn.result? ⟨e, m, e'⟩ = none) :
          Turn.Advances ⟨e, m, e'⟩ e₀ r router below line
            (4 * rest.length + (t :: chores).length + 1) (refusals.map (Refusal.submission r))
            told := by
        refine ⟨4 * rest.length + chores.length + 1, by simp, ?_⟩
        rw [Turn.submission?_of_move hgrant, hcallback, hresult, Option.toList_none,
          List.append_nil]
        subst he
        refine .clearing refusals rest chores _ hline rfl
          (fun t ht => hchores t (List.mem_cons_of_mem _ ht)) ?_ (d.of_eq rfl rfl) top
        rw [← htold, List.append_assoc]
        cases hcallback : t.callback? <;> simp [hcallback]
      cases t with
      | notify tag reply =>
        have hp : e.canProceed = false := by unfold canProceed pause; rw [hs]; rfl
        rcases lone_cases hlone hp hm with ⟨answer, -, hgrant⟩ | ⟨rfl, hback⟩ | helapse
        · unfold granted? at hgrant
          rw [hs] at hgrant
          cases hgrant
        · unfold returned? at hback
          rw [hs] at hback
          refine .inl (hpopped (Option.some.inj hback).symm nofun ?_ ?_)
          · unfold Turn.callback?
            rw [hs]
            rfl
          · unfold Turn.result?
            rw [hs]
            rfl
        · exact .inr helapse
      | hold rs cs =>
        have hp : e.pause = .working := by unfold pause; rw [hs]; rfl
        rcases working_cases hp hm with ⟨rfl, rfl⟩ | helapse
        · refine .inl (hpopped ?_ nofun (Turn.callback?_of_move nofun) ?_)
          · unfold Engine.step
            rw [hs]
            rfl
          · unfold Turn.result?
            rw [hs]
            rfl
        · exact .inr helapse
      | _ => cases hchores _ List.mem_cons_self
  | offering refusals c command rest since hline hs d top =>
    have hc : e.command? c = some (command.inSlot since) := d.moved c _ rfl
    have hp : e.canProceed = false := by
      unfold canProceed pause
      rw [hs]
      simp only [hc]
    rcases lone_cases hlone hp hm with ⟨answer, rfl, hgrant⟩ | ⟨rfl, hback⟩ | helapse
    · unfold granted? at hgrant
      rw [hs] at hgrant
      obtain rfl := Option.some.inj hgrant
      exact .inl (d.answered h top hline hs answer)
    · unfold returned? at hback
      rw [hs] at hback
      cases hback
    · exact .inr helapse
  | accepted refusals rest last hline hs left =>
    have hp : e.pause = .working := by unfold pause; rw [hs]
    rcases working_cases hp hm with ⟨rfl, rfl⟩ | helapse
    · left
      have hheld := left
      cases hheld with
      | occupied c command rest since d top =>
        exact left.advances hline hs d.found (.inl nofun) rfl Nat.one_pos
    · exact .inr helapse

/-- As long as a pass is not over, it goes on, whatever the transport answers. -/
theorem Sweep.goes_on (k : Sweep e₀ r router below line e n asked told none)
    (answer : Except TransportFault Unit) :
    e.stack ≠ below ∧ ∃ m e', m.isLone = true ∧ e.move? m = some e' ∧ (∀ ms, m ≠ .elapse ms) ∧
      ∀ answer', m = .grant answer' → answer' = answer := by
  have hne {t : Task} (hs : e.stack = t :: below) : e.stack ≠ below :=
    fun heq => List.cons_ne_self t below (hs.symm.trans heq)
  have proceeds (hp : e.pause = .working) : ∃ m e', m.isLone = true ∧ e.move? m = some e' ∧
      (∀ ms, m ≠ .elapse ms) ∧ ∀ answer', m = .grant answer' → answer' = answer :=
    ⟨.proceed, e.step, rfl, move?_of_working hp, fun _ heq => Move.noConfusion heq,
      fun _ heq => Move.noConfusion heq⟩
  cases k with
  | clearing refusals rest chores told hline hs hchores htold d top =>
    refine ⟨fun heq => ?_, ?_⟩
    · have hlength := congrArg List.length (hs.symm.trans heq)
      simp only [List.length_append, List.length_cons] at hlength
      omega
    cases chores with
    | nil => exact proceeds (by unfold pause; rw [hs]; rfl)
    | cons t chores =>
      cases t with
      | notify tag reply =>
        refine ⟨.back, { e with stack := chores ++ .drain r :: below }, rfl, ?_,
          fun _ heq => Move.noConfusion heq, fun _ heq => Move.noConfusion heq⟩
        simp only [move?, returned?, hs, List.cons_append]
      | hold rs cs => exact proceeds (by unfold pause; rw [hs]; rfl)
      | _ => cases hchores _ List.mem_cons_self
  | offering refusals c command rest since hline hs d top =>
    refine ⟨hne hs, .grant answer,
      ({ e with stack := below } : Engine).answerOffer r c answer, rfl, ?_,
      fun _ heq => Move.noConfusion heq, ?_⟩
    · simp only [move?, granted?, hs]
    · rintro _ ⟨⟩
      rfl
  | accepted refusals rest last hline hs left =>
    exact ⟨hne hs, proceeds (by unfold pause; rw [hs])⟩

/-! ## A whole pass -/

/-- The answers in these turns are those of a script. -/
def Follows (answers : Nat → Except TransportFault Unit) (course : List Turn) : Prop :=
  ∀ i s, (submissions course)[i]? = some s → s.answer = answers i

theorem Engine.LinedUp.sweep (h : e₀.LinedUp r router line) (hs : e₀.stack = .drain r :: below) :
    Sweep e₀ r router below line e₀ (4 * line.length + 1) [] [] none := by
  have d : Dealt e₀ e₀ r { router with queue := ⟨line.map Prod.fst, none, .idle⟩ } [] none := by
    refine ⟨?_, fun _ _ => rfl, List.forall_mem_nil _, fun _ _ heq => (nomatch heq),
      fun _ _ _ => rfl⟩
    rw [← h.free]
    exact h.found
  exact .clearing [] line [] [] rfl hs (List.forall_mem_nil _) rfl d rfl

/-- A pass that is over has nothing left to do, and this is what it has come to. -/
theorem Sweep.finished_spec {drained : Drained}
    (k : Sweep e₀ r router below line e n asked told (some drained)) : e.stack = below ∧
      ∃ refusals rest last, line = refusals.map Refusal.entry ++ rest ∧
        asked = refusals.map (Refusal.submission r) ++ last ∧
        told = refusals.filterMap Refusal.callback? ∧
        Left e₀ e r router refusals rest last drained := by
  cases k with
  | finished refusals rest last drained hline hs left =>
    exact ⟨hs, refusals, rest, last, hline, rfl, rfl, left⟩

/-- Every turn of a pass finds it somewhere on its way. -/
theorem Pass.sweep (p : Pass below e₀ course e) (h : e₀.LinedUp r router line)
    (hs : e₀.stack = .drain r :: below) : ∃ n result,
      Sweep e₀ r router below line e n (submissions course) (callbacks course) result ∧
      results course = result.toList := by
  induction p with
  | start => exact ⟨_, none, h.sweep hs, rfl⟩
  | @next course e e' m p hne hlone hm ih =>
    obtain ⟨n, result, k, hresults⟩ := ih
    cases result with
    | some drained => exact absurd k.finished_spec.1 hne
    | none =>
      have hadded : results (⟨e, m, e'⟩ :: course) = (Turn.result? ⟨e, m, e'⟩).toList := by
        rw [results, hresults]
        rfl
      rcases k.step h hlone hm with ⟨n', -, k'⟩ | ⟨ms, rfl, rfl⟩
      · exact ⟨n', _, k', hadded⟩
      · refine ⟨n, none, ?_, hadded.trans ?_⟩
        · rw [submissions, callbacks, Turn.submission?_of_move (m := .elapse ms) nofun,
            Turn.callback?_of_move (m := .elapse ms) nofun]
          simpa only [Option.toList_none, List.append_nil] using k.elapsed ms
        · rw [Turn.result?_of_move (m := .elapse ms) nofun nofun, Option.toList_none]

/-- Whatever the transport is going to answer, a pass comes to its end. -/
theorem Sweep.ends (answers : Nat → Except TransportFault Unit) (h : e₀.LinedUp r router line) :
    ∀ n {course e}, Pass below e₀ course e → Follows answers course →
      Sweep e₀ r router below line e n (submissions course) (callbacks course) none →
      ∃ course e', Pass below e₀ course e' ∧ Follows answers course ∧ e'.stack = below := by
  intro n
  induction n using Nat.strong_induction_on with
  | h n ih =>
    intro course e p hfollows k
    obtain ⟨hne, m, e', hlone, hm, hmoves, hanswer⟩ :=
      k.goes_on (answers (submissions course).length)
    obtain ⟨n', hless, k'⟩ | ⟨ms, rfl, -⟩ := k.step h hlone hm
    · have p' := p.next hne hlone hm
      have hfollows' : Follows answers (⟨e, m, e'⟩ :: course) := by
        intro i s hget
        rw [submissions, List.getElem?_append] at hget
        split at hget
        · exact hfollows i s hget
        · rename_i hlast
          obtain ⟨hindex, hgot⟩ := List.getElem?_eq_some_iff.1 hget
          cases hs : Turn.submission? ⟨e, m, e'⟩ with
          | none => simp [hs] at hget
          | some asked =>
            have hi : i = (submissions course).length := by
              simp only [hs, Option.toList_some, List.length_singleton] at hindex
              omega
            obtain rfl : asked = s := by simpa [hs, hi] using hget
            rw [hi]
            exact hanswer _ (Turn.submission?_eq_some hs)
      cases hresult : Turn.result? ⟨e, m, e'⟩ with
      | none => exact ih n' hless p' hfollows' (hresult ▸ k')
      | some drained => exact ⟨_, e', p', hfollows', (hresult ▸ k').finished_spec.1⟩
    · exact absurd rfl (hmoves ms)

/-! ## What is left -/

/-- Nothing that is done in a pass ends a command for want of capacity. -/
theorem Dealt.not_busy (d : Dealt e₀ e r router refusals current)
    (hkept : ∀ c command, current = some (c, command) →
      ∃ old, e₀.command? c = some old ∧ command.ending = old.ending)
    (hc : e.command? c = some command) (hbusy : command.ending = some (.refused .busy)) :
    ∃ old, e₀.command? c = some old ∧ old.ending = some (.refused .busy) := by
  by_cases hrefused : c ∈ refusals.map Refusal.ref
  · obtain ⟨refusal, hmem, rfl⟩ := List.mem_map.1 hrefused
    obtain ⟨hf, since, hleft⟩ := d.refused refusal hmem
    cases hc.symm.trans hleft
    have hending : some (Ending.refused refusal.fault) = some (.refused .busy) := hbusy
    exact absurd (Ending.refused.inj (Option.some.inj hending)) hf
  · cases hcurrent : current with
    | none =>
      rw [d.untouched c hrefused (by rw [hcurrent]; nofun)] at hc
      exact ⟨command, hc, hbusy⟩
    | some step =>
      obtain ⟨c', moved⟩ := step
      by_cases hsame : c' = c
      · subst hsame
        cases hc.symm.trans (d.moved c' moved hcurrent)
        obtain ⟨old, hold, hending⟩ := hkept c' command hcurrent
        exact ⟨old, hold, hending.symm.trans hbusy⟩
      · have hother : current.map Prod.fst ≠ some c := by
          rw [hcurrent]
          exact fun heq => hsame (Option.some.inj heq)
        rw [d.untouched c hrefused hother] at hc
        exact ⟨command, hc, hbusy⟩

theorem Left.dealt {drained : Drained} (k : Left e₀ e r router refusals rest last drained)
    (h : e₀.LinedUp r router line) (hline : line = refusals.map Refusal.entry ++ rest) :
    ∃ router' current, Dealt e₀ e r router' refusals current ∧
      (∀ c ∈ router'.queue.members, c ∈ rest.map Prod.fst) ∧
      ∀ c command, current = some (c, command) →
        ∃ old, e₀.command? c = some old ∧ command.ending = old.ending := by
  cases k with
  | empty d => exact ⟨_, _, d, nofun, fun _ _ heq => (nomatch heq)⟩
  | occupied c command rest since d | deferred c command rest d =>
    refine ⟨_, _, d, fun c hmem => hmem, ?_⟩
    rintro _ _ ⟨⟩
    exact ⟨command, (h.next hline).2.1, rfl⟩

theorem Sweep.dealt (k : Sweep e₀ r router below line e n asked told result)
    (h : e₀.LinedUp r router line) :
    ∃ router' refusals current, Dealt e₀ e r router' refusals current ∧
      ∀ c command, current = some (c, command) →
        ∃ old, e₀.command? c = some old ∧ command.ending = old.ending := by
  cases k with
  | clearing refusals rest chores told hline hs hchores htold d =>
    exact ⟨_, _, _, d, fun _ _ heq => (nomatch heq)⟩
  | offering refusals c command rest since hline hs d =>
    refine ⟨_, _, _, d, ?_⟩
    rintro _ _ ⟨⟩
    exact ⟨command, (h.next hline).2.1, rfl⟩
  | accepted refusals rest last hline hs left | finished refusals rest last drained hline hs left =>
    obtain ⟨router', current, d, -, hkept⟩ := left.dealt h hline
    exact ⟨_, _, _, d, hkept⟩

/-- What has been refused is in the queue no more. -/
theorem Left.gone {drained : Drained} (k : Left e₀ e r router refusals rest last drained)
    (h : e₀.LinedUp r router line) (hline : line = refusals.map Refusal.entry ++ rest)
    (hmem : refusal ∈ refusals) : refusal.ref ∉ (e.queue r).members := by
  obtain ⟨router', current, d, hmembers, -⟩ := k.dealt h hline
  have hnodup := h.nodup
  rw [hline, List.map_append, Refusal.map_entry] at hnodup
  rw [queue_of_router? d.found]
  exact fun hqueued => (List.nodup_append.1 hnodup).2.2 _ (List.mem_map_of_mem hmem) _
    (hmembers _ hqueued) rfl

/-- A pass that finds the slot taken is over at once. -/
theorem Pass.taken (p : Pass below e₀ course e) (hs : e₀.stack = .drain r :: below)
    (hr : e₀.router? r = some router) (hslot : router.queue.slot = some c)
    (hstate : router.queue.state ≠ .idle) : submissions course = [] ∧ callbacks course = [] ∧
      (e = { e₀ with now := e.now } ∧ results course = [] ∨
        e = { e₀ with now := e.now, stack := below } ∧ results course = [.occupied]) := by
  induction p with
  | start => exact ⟨rfl, rfl, .inl ⟨rfl, rfl⟩⟩
  | @next course e e' m p hne hlone hm ih =>
    obtain ⟨hasked, htold, ⟨he, hresults⟩ | ⟨he, -⟩⟩ := ih
    · have hs' : e.stack = .drain r :: below := by rw [he]; exact hs
      have hr' : e.router? r = some router := by rw [he]; exact hr
      have hp : e.pause = .working := by unfold pause; rw [hs']
      have hnothing (hgrant : ∀ answer, m ≠ .grant answer) (hback : m ≠ .back) :
          submissions (⟨e, m, e'⟩ :: course) = [] ∧ callbacks (⟨e, m, e'⟩ :: course) = [] := by
        rw [submissions, callbacks, hasked, htold, Turn.submission?_of_move hgrant,
          Turn.callback?_of_move hback]
        exact ⟨rfl, rfl⟩
      rcases working_cases hp hm with ⟨rfl, rfl⟩ | ⟨ms, rfl, rfl⟩
      · obtain ⟨hresult, hsame⟩ :=
          drain_of_nothing (e := { e with stack := below }) hr' (.inl hstate)
        have hstep : e.step = { e with stack := below } := by
          unfold Engine.step
          rw [hs']
          exact hsame
        have hturn : Turn.result? ⟨e, .proceed, e.step⟩ = some .occupied := by
          unfold Turn.result?
          rw [hs']
          exact hresult.trans (by rw [hslot]; rfl)
        obtain ⟨hsubmissions, hcallbacks⟩ := hnothing nofun nofun
        refine ⟨hsubmissions, hcallbacks, .inr ⟨?_, ?_⟩⟩
        · rw [hstep, he]
        · rw [results, hresults, hturn]
          rfl
      · obtain ⟨hsubmissions, hcallbacks⟩ := hnothing nofun nofun
        refine ⟨hsubmissions, hcallbacks, .inl ⟨?_, ?_⟩⟩
        · rw [he]
        · rw [results, hresults, Turn.result?_of_move (m := .elapse ms) nofun nofun]
          rfl
    · exact absurd (congrArg Engine.stack he) hne

/-- **What a pass over a queue comes to**, whatever the transport answers and however much time
passes, where nothing is delivered meanwhile. If the slot is taken, the transport is asked nothing.
Otherwise the commands of the line are handed to the transport in their order, each once. Those
that the transport refuses end, each with the fault it is refused for, and leave the queue; their
callbacks run in the same order, each of them once. The first one that the transport accepts keeps
the slot; the first one for which it has no capacity goes back to the head of the line; and the
commands behind these are not touched. The pass has one result, which tells where it has stopped.
No command ends because the transport has no capacity. -/
theorem Engine.pass_over_queue (hs : e.stack = .drain r :: below)
    (hr : e.router? r = some router) :
    (∀ c, router.queue.slot = some c → router.queue.state ≠ .idle →
      (∃ course e', Pass below e course e' ∧ e'.stack = below) ∧
      ∀ course e', Pass below e course e' → e'.stack = below → submissions course = [] ∧
        callbacks course = [] ∧ results course = [.occupied] ∧
        e' = { e with now := e'.now, stack := below }) ∧
    ∀ line, e.LinedUp r router line →
      (∀ answers, ∃ course e',
        Pass below e course e' ∧ Follows answers course ∧ e'.stack = below) ∧
      (∀ course e', Pass below e course e' → e'.stack = below →
        ∃ refusals rest last drained, line = refusals.map Refusal.entry ++ rest ∧
          submissions course = refusals.map (Refusal.submission r) ++ last ∧
          callbacks course = refusals.filterMap Refusal.callback? ∧
          results course = [drained] ∧ Left e e' r router refusals rest last drained ∧
          ∀ refusal ∈ refusals, refusal.ref ∉ (e'.queue r).members) ∧
      ∀ course e', Pass below e course e' → ∀ c command, e'.command? c = some command →
        command.ending = some (.refused .busy) →
        ∃ old, e.command? c = some old ∧ old.ending = some (.refused .busy) := by
  refine ⟨fun c hslot hstate => ⟨?passes, fun course e' p hover => ?taken⟩,
    fun line h => ⟨fun answers => ?ends, fun course e' p hover => ?left,
      fun course e' p c command => ?quiet⟩⟩
  case passes =>
    have hp : e.pause = .working := by unfold pause; rw [hs]
    have hne : e.stack ≠ below := fun heq => List.cons_ne_self _ _ (hs.symm.trans heq)
    refine ⟨_, e.step, Pass.start.next hne rfl (move?_of_working hp), ?_⟩
    unfold Engine.step
    rw [hs]
    exact congrArg Engine.stack
      (drain_of_nothing (e := { e with stack := below }) hr (.inl hstate)).2
  case taken =>
    obtain ⟨hasked, htold, ⟨he, -⟩ | ⟨he, hresults⟩⟩ := p.taken hs hr hslot hstate
    · rw [he] at hover
      exact absurd (hs.symm.trans hover) (List.cons_ne_self _ _)
    · exact ⟨hasked, htold, hresults, he⟩
  case ends => exact Sweep.ends answers h _ .start nofun (h.sweep hs)
  case left =>
    obtain ⟨n, result, k, hresults⟩ := p.sweep h hs
    cases result with
    | none => exact absurd hover (k.goes_on (.ok ())).1
    | some drained =>
      obtain ⟨-, refusals, rest, last, hline, hasked, htold, left⟩ := k.finished_spec
      exact ⟨refusals, rest, last, drained, hline, hasked, htold, hresults, left,
        fun refusal hmem => left.gone h hline hmem⟩
  case quiet =>
    obtain ⟨n, result, k, -⟩ := p.sweep h hs
    obtain ⟨router', refusals, current, d, hkept⟩ := k.dealt h
    exact d.not_busy hkept

/-- Two reads that wait at the host router, the first of them with a callback. -/
def waitingReads : List (CommandRef × Command) :=
  [(⟨0⟩, {
      id := ⟨1⟩, node := ⟨0⟩, route := .root, kind := .read, address := ⟨.router, 0, 0, 1, 0⟩
      payload := [], generation := 1, phase := .queued, listener := .callback 7 }),
    (⟨1⟩, {
      id := ⟨2⟩, node := ⟨0⟩, route := .root, kind := .read, address := ⟨.router, 0, 5, 1, 0⟩
      payload := [], generation := 1, seq := 1, phase := .queued })]

def waitingRouter : Router where
  id := ⟨0⟩
  route := .root
  begun := 2
  queue := ⟨[⟨0⟩, ⟨1⟩], none, .idle⟩

/-- The pass over their queue is about to begin. -/
def waitingEngine : Engine where
  routers := [waitingRouter]
  commands := waitingReads.map Prod.snd
  stack := [.drain ⟨0⟩]

/-- The first read is refused and its callback returns; for the second one the transport has no
capacity. -/
theorem pass_over_two_reads :
    waitingEngine.LinedUp ⟨0⟩ waitingRouter waitingReads ∧
    ∃ course e', Pass [] waitingEngine course e' ∧ e'.stack = [] ∧
      results course = [.deferred] ∧ callbacks course = [(7, .error (.transport .closed))] ∧
      e'.queue ⟨0⟩ = ⟨[⟨1⟩], none, .idle⟩ ∧ e'.topology.deferred = [⟨0⟩] ∧
      ∃ refusals rest last drained, waitingReads = refusals.map Refusal.entry ++ rest ∧
        submissions course = refusals.map (Refusal.submission ⟨0⟩) ++ last ∧
        callbacks course = refusals.filterMap Refusal.callback? ∧ results course = [drained] ∧
        Left waitingEngine e' ⟨0⟩ waitingRouter refusals rest last drained ∧
        ∀ refusal ∈ refusals, refusal.ref ∉ (e'.queue ⟨0⟩).members := by
  have lined : waitingEngine.LinedUp ⟨0⟩ waitingRouter waitingReads := by
    refine ⟨rfl, rfl, by decide, ?_⟩
    unfold waitingReads
    simp [waitingEngine, waitingReads, Engine.command?, Commands.get?, Command.isComplete]
  have offered : Pass [] waitingEngine _ _ :=
    .next (m := .proceed) .start (List.cons_ne_nil _ _) rfl rfl
  have told := Pass.next (m := .grant (.error .closed)) offered (List.cons_ne_nil _ _) rfl rfl
  have back := Pass.next (m := .back) told (List.cons_ne_nil _ _) rfl rfl
  have released := Pass.next (m := .proceed) back (List.cons_ne_nil _ _) rfl rfl
  have next := Pass.next (m := .proceed) released (List.cons_ne_nil _ _) rfl rfl
  have ended := Pass.next (m := .grant (.error .busy)) next (List.cons_ne_nil _ _) rfl rfl
  exact ⟨lined, _, _, ended, rfl, rfl, rfl, rfl, rfl,
    ((pass_over_queue rfl rfl).2 waitingReads lined).2.1 _ _ ended rfl⟩

end RouterFabric
