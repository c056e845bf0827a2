import RouterFabric.Proofs.Blockade

/-!
# The head of the line

A call behind commands that are never answered is held up by each of them for the timeout of one of
its attempts, and no longer. Every attempt that times out has one of them expired, in the order of
the line, so that the call is handed to the transport as soon as there are no more of them, or
fails when its attempts are used up before.

* `Quietly` : courses in which nobody calls, everything is taken, and nothing is answered
* `Clears`, `Keeps.clears` : errands come to an end
* `Engine.Hangs` : a queue full of commands that are not answered
* `Invoked` : the callbacks of a line are invoked one after the other
* `Run.head_of_line` : what becomes of a call behind such a queue
-/

namespace RouterFabric

open Engine

variable {settings : Settings} {turns course more : List Turn} {e e' e₀ : Engine} {m : Move}
  {r r' : RouterRef} {c : CommandRef} {t task : Task} {chores chores' rest : List Task}

/-! ## Quiet courses -/

/-- Quiet moves one after the other, the latest turn first. -/
inductive Quietly (r : RouterRef) (e : Engine) : List Turn → Engine → Prop
  | start : Quietly r e [] e
  | next {course : List Turn} {e' e'' : Engine} {m : Move} : Quietly r e course e' →
      e'.Quiet r m → e'.move? m = some e'' → Quietly r e (⟨e', m, e''⟩ :: course) e''

theorem Run.quiet (h : Run settings turns e) (hq : e.Quiet r m) (hm : e.move? m = some e') :
    Run settings (⟨e, m, e'⟩ :: turns) e' :=
  h.next (fun call heq => by subst heq; exact hq.elim) hm

theorem move?_of_working (hw : e.pause = .working) : e.move? .proceed = some e.step := by
  simp [move?, canProceed, hw]

theorem Run.proceed (h : Run settings turns e) (hw : e.pause = .working) :
    Run settings (⟨e, .proceed, e.step⟩ :: turns) e.step :=
  h.next nofun (move?_of_working hw)

theorem Quietly.run (k : Quietly r e course e') (h : Run settings turns e) :
    Run settings (course ++ turns) e' := by
  induction k with
  | start => exact h
  | next _ hq hm ih => exact ih.quiet hq hm

theorem Quietly.single (hq : e.Quiet r m) (hm : e.move? m = some e') :
    Quietly r e [⟨e, m, e'⟩] e' :=
  .next .start hq hm

theorem Quietly.append {e'' : Engine} (k : Quietly r e course e') (k' : Quietly r e' more e'') :
    Quietly r e (more ++ course) e'' := by
  induction k' with
  | start => exact k
  | next _ hq hm ih => exact ih.next hq hm

theorem quiet_proceed : e.Quiet r .proceed := trivial

theorem quiet_taken : e.Quiet r (.grant (.ok ())) := rfl

/-! ## Errands come to an end -/

/-- A family of states, one set of them for every list of errands, which no quiet move leaves as
long as there are errands. -/
structure Keeps (settings : Settings) (r : RouterRef) (rest : List Task)
    (P : List Task → Engine → Prop) : Prop where
  run : ∀ {chores e}, P chores e → ∃ turns, Run settings turns e
  stack : ∀ {chores e}, P chores e → e.stack = chores ++ rest
  loose : ∀ {chores e}, P chores e → ∀ t ∈ chores, t.isLoose = true
  next : ∀ {t chores e m e'}, P (t :: chores) e → e.Quiet r m → e.move? m = some e' →
    ∃ chores', P chores' e'

/-- Quiet moves lead to a state of the family in which these errands are left. -/
def Clears (r : RouterRef) (P : List Task → Engine → Prop) (left : List Task) (e : Engine) : Prop :=
  ∃ more e', Quietly r e more e' ∧ P left e' ∧ ∀ turn ∈ more, ∃ t chores,
    P (t :: chores) turn.before

section clears

variable {P : List Task → Engine → Prop} {left left' : List Task}

theorem clears_refl (hp : P left e) : Clears r P left e :=
  ⟨[], e, .start, hp, List.forall_mem_nil _⟩

theorem Clears.trans (h : Clears r P left e) (h' : ∀ e', P left e' → Clears r P left' e') :
    Clears r P left' e := by
  obtain ⟨more, e', k, hp, hmore⟩ := h
  obtain ⟨more', e'', k', hp', hmore'⟩ := h' e' hp
  exact ⟨more' ++ more, e'', k.append k', hp', List.forall_mem_append.2 ⟨hmore', hmore⟩⟩

theorem Clears.step (h : Clears r P left e') (hp : P (t :: chores) e) (hq : e.Quiet r m)
    (hm : e.move? m = some e') : Clears r P left e := by
  obtain ⟨more, e'', k, hp', hmore⟩ := h
  refine ⟨more ++ [⟨e, m, e'⟩], e'', (Quietly.single hq hm).append k, hp',
    List.forall_mem_append.2 ⟨hmore, fun turn hturn => ?_⟩⟩
  rw [List.mem_singleton.1 hturn]
  exact ⟨t, chores, hp⟩

variable (k : Keeps settings r rest P)

include k

/-- What is left of the errands after a move. -/
theorem Keeps.after (added : List Task) (hp : P (t :: chores) e) (hq : e.Quiet r m)
    (hm : e.move? m = some e') (hs : e'.stack = added ++ (chores ++ rest)) :
    P (added ++ chores) e' := by
  obtain ⟨chores', hp'⟩ := k.next hp hq hm
  have hsame : chores' ++ rest = added ++ chores ++ rest := by
    rw [← k.stack hp', hs, List.append_assoc]
  exact List.append_cancel_right hsame ▸ hp'

/-- An errand that is done in one move. -/
theorem Keeps.clears_once (hp : P (t :: chores) e) (hq : e.Quiet r m)
    (hm : e.move? m = some e') (hs : e'.stack = chores ++ rest) : Clears r P chores e :=
  (clears_refl (k.after [] hp hq hm hs)).step hp hq hm

/-- The queue of a router is passed over until nothing more can be offered. -/
theorem Keeps.clears_drain (hp : P (.drain r' :: chores) e) : Clears r P chores e := by
  -- every command that is offered has left the line
  generalize hn : (e.queue r').pending.length = n
  induction n using Nat.strong_induction_on generalizing e with
  | _ n ih =>
    obtain ⟨turns, run⟩ := k.run hp
    have hs : e.stack = .drain r' :: (chores ++ rest) := k.stack hp
    have hpop := run.sound.toStored.restack (chores ++ rest)
    have hstep : e.step = ({ e with stack := chores ++ rest } : Engine).drain r' := by
      unfold step
      rw [hs]
    have hm : e.move? .proceed = some e.step := move?_of_working (by unfold pause; rw [hs])
    rcases hpop.drain_cases r' with hsame | ⟨c, line, -, hpending, hstack, hline⟩
    · exact k.clears_once hp quiet_proceed hm (by rw [hstep, hsame])
    · rw [← hstep] at hstack hline
      have hoffer : P ([Task.offer r' c] ++ chores) e.step := k.after _ hp quiet_proceed hm hstack
      refine Clears.step ?_ hp quiet_proceed hm
      have hm' : e.step.move? (.grant (.ok ())) =
          some (({ e.step with stack := chores ++ rest } : Engine).answerOffer r' c (.ok ())) := by
        simp [move?, granted?, hstack]
      rcases stack_accepted ({ e.step with stack := chores ++ rest } : Engine) r' c with
        hnext | hnext
      · exact k.clears_once hoffer quiet_taken hm' hnext
      · have hagain := k.after [.drain r'] hoffer quiet_taken hm' hnext
        refine Clears.step (ih _ ?_ hagain rfl) hoffer quiet_taken hm'
        rw [pending_of_front? (bypasses_accepted _ r' r' c).front]
        have hshorter : (e.queue r').pending = c :: line := hpending
        have hrest : ((({ e.step with stack := chores ++ rest } : Engine)).queue r').pending =
          line := hline
        rw [hrest, ← hn, hshorter]
        exact Nat.lt_succ_self _

/-- All routers that wait for the transport are tried. -/
theorem Keeps.clears_tour {ids : List NodeId} (hp : P (.drainEach ids :: chores) e) :
    Clears r P chores e := by
  induction ids generalizing e with
  | nil =>
    have hs : e.stack = .drainEach [] :: (chores ++ rest) := k.stack hp
    refine k.clears_once hp quiet_proceed (move?_of_working (by unfold pause; rw [hs])) ?_
    unfold step
    rw [hs]
    rfl
  | cons id ids ih =>
    have hs : e.stack = .drainEach (id :: ids) :: (chores ++ rest) := k.stack hp
    have hm : e.move? .proceed = some e.step := move?_of_working (by unfold pause; rw [hs])
    refine Clears.step ?_ hp quiet_proceed hm
    cases hid : e.topology.tree.get? id with
    | none =>
      refine ih (k.after [.drainEach ids] hp quiet_proceed hm ?_)
      unfold step
      rw [hs]
      simp [drainFirst, push, hid]
    | some r' =>
      have hnext := k.after [.drain r', .drainEach ids] hp quiet_proceed hm (by
        unfold step
        rw [hs]
        simp [drainFirst, push, hid])
      exact (k.clears_drain hnext).trans fun e' hp' => ih hp'

/-- Every errand is done at last. -/
theorem Keeps.clears_first (hp : P (t :: chores) e) : Clears r P chores e := by
  have hs : e.stack = t :: (chores ++ rest) := k.stack hp
  have hloose := k.loose hp t List.mem_cons_self
  cases t with
  | drain r' => exact k.clears_drain hp
  | drainEach ids => exact k.clears_tour hp
  | kick =>
    have hm : e.move? .proceed = some e.step := move?_of_working (by unfold pause; rw [hs])
    refine Clears.step (k.clears_tour (k.after [.drainEach e.topology.deferred] hp
      quiet_proceed hm ?_)) hp quiet_proceed hm
    unfold step
    rw [hs]
    rfl
  | offer r' c =>
    have hm : e.move? (.grant (.ok ())) =
        some (({ e with stack := chores ++ rest } : Engine).answerOffer r' c (.ok ())) := by
      simp [move?, granted?, hs]
    rcases stack_accepted ({ e with stack := chores ++ rest } : Engine) r' c with hnext | hnext
    · exact k.clears_once hp quiet_taken hm hnext
    · have hnext := k.after [.drain r'] hp quiet_taken hm hnext
      exact Clears.step (k.clears_drain hnext) hp quiet_taken hm
  | hold rs cs =>
    refine k.clears_once hp quiet_proceed (move?_of_working (by unfold pause; rw [hs])) ?_
    unfold step
    rw [hs]
  | announce event =>
    refine k.clears_once hp quiet_proceed (move?_of_working (by unfold pause; rw [hs])) ?_
    unfold step
    rw [hs]
  | notify tag reply | sleep ms =>
    have hm : e.move? .back = some { e with stack := chores ++ rest } := by
      simp [move?, returned?, hs]
    exact k.clears_once (m := .back) hp trivial hm rfl
  | acknowledge event =>
    have hm : e.move? (.grant (.ok ())) =
        some (({ e with stack := chores ++ rest } : Engine).takeFrame.push
          [.offerAcknowledgment event]) := by
      simp [move?, granted?, hs]
    have hp' := k.after [.offerAcknowledgment event] hp quiet_taken hm rfl
    have hm' : (({ e with stack := chores ++ rest } : Engine).takeFrame.push
        [.offerAcknowledgment event]).move? (.grant (.ok ())) =
          some { e with stack := chores ++ rest } := rfl
    exact Clears.step (k.clears_once hp' quiet_taken hm' rfl) hp quiet_taken hm
  | offerAcknowledgment event =>
    have hm : e.move? (.grant (.ok ())) =
        some ({ e with stack := chores ++ rest } : Engine).freeFrame := by
      simp [move?, granted?, hs]
    exact k.clears_once hp quiet_taken hm rfl
  | handled =>
    have hm : e.move? .collect = some { e with stack := chores ++ rest } := by
      simp [move?, collected?, hs]
    have hq : e.Quiet r .collect := fun result below heq => by cases hs.symm.trans heq
    exact k.clears_once hp hq hm rfl
  | perform | resume | reply | answer | allocate | attempt | watch | await | claimed | expire
  | register => cases hloose

/-- **All errands come to an end.** -/
theorem Keeps.clears (hp : P chores e) : Clears r P [] e := by
  induction chores generalizing e with
  | nil => exact clears_refl hp
  | cons t chores ih => exact (k.clears_first hp).trans fun e' hp' => ih hp'

end clears

/-! ## What becomes of the call -/

/-- The command is handed to the transport. -/
def Engine.Hands (e : Engine) (c : CommandRef) : Prop :=
  ∃ r below, e.stack = .offer r c :: below

namespace Blockade

variable {b : Blockade} {n left deadline : Nat} {queued : Bool} {slot : Option CommandRef}
  {behind : List CommandRef} {part below : List Task}

theorem not_hands (hs : e.stack = task :: below) (ht : ∀ r, task ≠ .offer r c) :
    ¬ e.Hands c := by
  rintro ⟨r, rest, hhands⟩
  cases hs.symm.trans hhands
  exact ht r rfl

theorem Tended.not_hands (h : b.Tended e n queued chores slot behind)
    (hs : e.stack = chores ++ task :: below) (ht : ∀ r, task ≠ .offer r b.own) :
    ¬ e.Hands b.own := by
  cases chores with
  | nil => exact Blockade.not_hands hs ht
  | cons t chores =>
    refine Blockade.not_hands hs fun r heq => h.unoffered r ?_
    rw [heq]
    exact List.mem_cons_self

theorem Framing.not_hands {made : Command} (k : b.Framing made chores e) :
    ¬ e.Hands b.own :=
  let ⟨_, _, hl⟩ := k.tended
  hl.not_hands k.stack nofun

theorem Pausing.not_hands (k : b.Pausing n left chores e) : ¬ e.Hands b.own :=
  let ⟨_, _, hl⟩ := k.tended
  hl.not_hands k.stack nofun

theorem Waiting.not_hands (k : b.Waiting n left deadline chores e) : ¬ e.Hands b.own :=
  let ⟨_, _, hl, _⟩ := k.tended
  hl.not_hands k.stack nofun

theorem Replying.not_hands (k : b.Replying part chores e) : ¬ e.Hands b.own := by
  obtain ⟨slot, behind, hl⟩ := k.tended
  have hs := k.stack
  rw [List.append_assoc] at hs
  cases k.replied with
  | replied | concluded | answered => exact hl.not_hands hs nofun

/-- The command of the call is handed out in one stage only. -/
theorem Stage.offered_of_hands (h : b.Stage e n) (ho : e.Hands b.own) :
    ∃ left, b.Offered n left e := by
  cases h with
  | asking k => exact absurd ho (Blockade.not_hands k.stack nofun)
  | framing k => exact absurd ho k.not_hands
  | pausing k => exact absurd ho k.not_hands
  | launched k => exact absurd ho (Blockade.not_hands k.stack nofun)
  | offered k => exact ⟨_, k⟩
  | standing k => exact absurd ho (Blockade.not_hands k.stack nofun)
  | waiting k => exact absurd ho k.not_hands
  | expiring k => exact absurd ho (Blockade.not_hands k.stack nofun)
  | replying k => exact absurd ho k.not_hands

/-- Quiet moves lead to where the command of the call is handed out, or to where the call answers
with a timeout. -/
def Ends (b : Blockade) (e : Engine) : Prop :=
  ∃ more e', Quietly b.router e more e' ∧ (∀ turn ∈ more, ¬ turn.before.Hands b.own) ∧
    (e'.Hands b.own ∨ e'.stack = .answer (.error .timeout) :: b.below)

theorem Ends.step (h : b.Ends e') (hnot : ¬ e.Hands b.own) (hq : e.Quiet b.router m)
    (hm : e.move? m = some e') : b.Ends e := by
  obtain ⟨more, e'', k, hmore, hend⟩ := h
  refine ⟨more ++ [⟨e, m, e'⟩], e'', (Quietly.single hq hm).append k,
    List.forall_mem_append.2 ⟨hmore, fun turn hturn => ?_⟩, hend⟩
  rw [List.mem_singleton.1 hturn]
  exact hnot

theorem Ends.proceed (h : b.Ends e.step) (hs : e.stack = task :: below)
    (ht : ∀ r, task ≠ .offer r b.own) (hw : e.pause = .working) : b.Ends e :=
  h.step (Blockade.not_hands hs ht) quiet_proceed (move?_of_working hw)

/-- Errands hold the call up for a while only. -/
theorem ends_of_clears {P : List Task → Engine → Prop} (h : Clears b.router P [] e)
    (hnot : ∀ chores e, P chores e → ¬ e.Hands b.own) (hend : ∀ e', P [] e' → b.Ends e') :
    b.Ends e := by
  obtain ⟨more, e', k, hp, hmore⟩ := h
  obtain ⟨more', e'', k', hmore', hend'⟩ := hend e' hp
  refine ⟨more' ++ more, e'', k.append k', List.forall_mem_append.2 ⟨hmore', fun turn hturn => ?_⟩,
    hend'⟩
  obtain ⟨t, chores, hp'⟩ := hmore turn hturn
  exact hnot _ _ hp'

/-- A stage of the call that only errands are done in. -/
theorem keeps_of {P : List Task → Engine → Prop}
    (hstack : ∀ chores e, P chores e → e.stack = chores ++ rest)
    (hloose : ∀ chores e, P chores e → ∀ t ∈ chores, t.isLoose = true)
    (hnext : ∀ turns chores e m e', Run b.settings turns e → e.Quiet b.router m →
      e.move? m = some e' → P chores e → (∃ chores', P chores' e') ∨ chores = []) :
    Keeps b.settings b.router rest
      fun chores e => (∃ turns, Run b.settings turns e) ∧ P chores e where
  run hp := hp.1
  stack hp := hstack _ _ hp.2
  loose hp := hloose _ _ hp.2
  next hp hq hm := by
    obtain ⟨⟨turns, h⟩, hp⟩ := hp
    rcases hnext _ _ _ _ _ h hq hm hp with ⟨chores', hp'⟩ | hnil
    · exact ⟨chores', ⟨_, h.quiet hq hm⟩, hp'⟩
    · cases hnil

theorem keeps_framing (b : Blockade) (made : Command) : Keeps b.settings b.router
    (.allocate b.router made (.waiting b.watching) :: b.base)
    fun chores e => (∃ turns, Run b.settings turns e) ∧ b.Framing made chores e :=
  keeps_of (fun _ _ k => k.stack) (fun _ _ k => let ⟨_, _, hl⟩ := k.tended; hl.loose)
    fun _ _ _ _ _ h hq hm k => (k.next h hq hm).imp id And.left

theorem keeps_pausing (b : Blockade) (n left : Nat) : Keeps b.settings b.router
    (.attempt (b.waiter left) :: b.base)
    fun chores e => (∃ turns, Run b.settings turns e) ∧ b.Pausing n left chores e :=
  keeps_of (fun _ _ k => k.stack) (fun _ _ k => let ⟨_, _, hl⟩ := k.tended; hl.loose)
    fun _ _ _ _ _ h hq hm k => (k.next h hq hm).imp id And.left

theorem keeps_waiting (b : Blockade) (n left deadline : Nat) : Keeps b.settings b.router
    (.await (b.waiter left) deadline :: b.base)
    fun chores e => (∃ turns, Run b.settings turns e) ∧ b.Waiting n left deadline chores e :=
  keeps_of (fun _ _ k => k.stack) (fun _ _ k => let ⟨_, _, hl, _⟩ := k.tended; hl.loose)
    fun _ _ _ _ _ h hq hm k => (k.next h hq hm).imp id And.left

theorem keeps_replying (b : Blockade) (part : List Task) : Keeps b.settings b.router
    (part ++ b.below)
    fun chores e => (∃ turns, Run b.settings turns e) ∧ b.Replying part chores e :=
  keeps_of (fun _ _ k => k.stack.trans (List.append_assoc ..))
    (fun _ _ k => let ⟨_, _, hl⟩ := k.tended; hl.loose)
    fun _ _ _ _ _ h hq hm k => (k.next h hq hm).imp id And.left

/-! ### Every stage ends -/

/-- A call that has its reply answers with it. -/
theorem Replying.ends (k : b.Replying part chores e) (h : Run b.settings turns e) : b.Ends e := by
  refine ends_of_clears ((b.keeps_replying part).clears ⟨⟨_, h⟩, k⟩) (fun _ _ hp => hp.2.not_hands)
    ?_
  rintro e ⟨-, k⟩
  have answered {e : Engine} (k : b.Replying [.answer (.error .timeout)] [] e) : b.Ends e :=
    ⟨[], e, .start, List.forall_mem_nil _, .inr k.stack⟩
  have concluded {e : Engine} (k : b.Replying [.perform b.router (.done (.error .timeout))] [] e) :
      b.Ends e :=
    (answered k.concluded).proceed k.stack nofun (by unfold pause; rw [k.stack]; rfl)
  cases k.replied with
  | replied =>
    exact (concluded k.learned).proceed k.stack nofun (by unfold pause; rw [k.stack]; rfl)
  | concluded => exact concluded k
  | answered => exact answered k

theorem Waiting.elapsed (k : b.Waiting n left deadline [] e) (h : Run b.settings turns e)
    (ms : Nat) : b.Waiting n left deadline [] { e with now := e.now + ms } := by
  have hm : e.move? (.elapse ms) = some { e with now := e.now + ms } := rfl
  rcases k.next h (m := .elapse ms) trivial hm with ⟨chores', k'⟩ | ⟨-, x, k'⟩
  · have hnil : chores' ++ .await (b.waiter left) deadline :: b.base =
        [] ++ .await (b.waiter left) deadline :: b.base := k'.stack.symm.trans k.stack
    rw [List.append_cancel_right hnil] at k'
    exact k'
  · cases k'.stack.symm.trans k.stack

section ends

variable (hnext : ∀ {turns chores e}, Run b.settings turns e → b.Pausing (n + 1) left chores e →
  b.Ends e)

include hnext

theorem Expiring.ends (k : b.Expiring n left c e) (h : Run b.settings turns e) : b.Ends e := by
  have hw : e.pause = .working := by
    unfold pause
    rw [k.stack]
  obtain ⟨⟨chores, pausing⟩, -⟩ := k.expired
  exact (hnext (h.proceed hw) pausing).proceed k.stack nofun hw

/-- A caller waits until its deadline, and gives up then. -/
theorem Waiting.ends (k : b.Waiting n left deadline chores e) (h : Run b.settings turns e) :
    b.Ends e := by
  refine ends_of_clears ((b.keeps_waiting n left deadline).clears ⟨⟨_, h⟩, k⟩)
    (fun _ _ hp => hp.2.not_hands) ?_
  rintro e ⟨⟨turns, h⟩, k⟩
  obtain ⟨late, hlate⟩ : ∃ late : Engine, late = { e with now := e.now + (deadline - e.now) } :=
    ⟨_, rfl⟩
  have helapse : e.move? (.elapse (deadline - e.now)) = some late := hlate ▸ rfl
  have hnow : deadline ≤ late.now := by
    rw [hlate]
    show deadline ≤ e.now + (deadline - e.now)
    omega
  have k' : b.Waiting n left deadline [] late := hlate ▸ k.elapsed h _
  have h' := h.quiet (r := b.router) (m := .elapse _) trivial helapse
  have hs : late.stack = .await (b.waiter left) deadline :: b.base := k'.stack
  have hgiveUp : late.move? .giveUp =
      some (({ late with stack := b.base } : Engine).withdraw (b.waiter left)) := by
    simp [move?, k'.unsettled h'.sound.toStored, gaveUp?, hs, hnow]
  obtain ⟨x, expiring⟩ := k'.gaveUp h'.explored.settings_eq hnow
  have quietly : late.Quiet b.router .giveUp := trivial
  have given := (expiring.ends hnext (h'.quiet quietly hgiveUp)).step k'.not_hands quietly hgiveUp
  exact given.step k.not_hands (m := .elapse _) trivial helapse

theorem Standing.ends (k : b.Standing n left e) (h : Run b.settings turns e) : b.Ends e := by
  have hw : e.pause = .working := by
    unfold pause
    rw [k.stack]
  exact ((k.watched h).ends hnext (h.proceed hw)).proceed k.stack nofun hw

theorem Launched.ends (k : b.Launched n left e) (h : Run b.settings turns e) : b.Ends e := by
  have hw : e.pause = .working := by
    unfold pause
    rw [k.stack]
  rcases k.drained h.sound.toStored with offered | standing
  · refine Ends.proceed ?_ k.stack nofun hw
    exact ⟨[], _, .start, List.forall_mem_nil _, .inl ⟨_, _, offered.stack⟩⟩
  · exact (standing.ends hnext (h.proceed hw)).proceed k.stack nofun hw

end ends

/-- **Every attempt that times out moves the line up by one**, until the call is handed out or has
used up its attempts. -/
theorem Pausing.ends (k : b.Pausing n left chores e) (h : Run b.settings turns e) : b.Ends e := by
  refine ends_of_clears ((b.keeps_pausing n left).clears ⟨⟨_, h⟩, k⟩)
    (fun _ _ hp => hp.2.not_hands) ?_
  -- by induction on the attempts that are left
  induction left generalizing n chores e turns with
  | zero =>
    rintro e ⟨⟨turns, h⟩, k⟩
    have hw : e.pause = .working := by
      unfold pause
      rw [k.stack]
      rfl
    exact (k.exhausted.2.ends (h.proceed hw)).proceed k.stack nofun hw
  | succ left ih =>
    rintro e ⟨⟨turns, h⟩, k⟩
    have hw : e.pause = .working := by
      unfold pause
      rw [k.stack]
      rfl
    refine (k.retried.ends (fun h k => ?_) (h.proceed hw)).proceed k.stack nofun hw
    exact ends_of_clears ((b.keeps_pausing _ left).clears ⟨⟨_, h⟩, k⟩)
      (fun _ _ hp => hp.2.not_hands) (ih k h)

theorem Framing.ends {made : Command} (k : b.Framing made chores e)
    (h : Run b.settings turns e) : b.Ends e := by
  refine ends_of_clears ((b.keeps_framing made).clears ⟨⟨_, h⟩, k⟩)
    (fun _ _ hp => hp.2.not_hands) ?_
  rintro e ⟨⟨turns, h⟩, k⟩
  have hs : e.stack = .allocate b.router made (.waiting b.watching) :: b.base := k.stack
  have hm : e.move? (.grant (.ok ())) = some (({ e with stack := b.base } : Engine).begin b.router
      made (.waiting b.watching)) := by
    simp [move?, granted?, hs]
  have quietly : e.Quiet b.router (.grant (.ok ())) := quiet_taken
  have pausing := k.granted h.sound h.explored.settings_eq
  exact (pausing.ends (h.quiet quietly hm)).step k.not_hands quietly hm

theorem Stage.ends (k : b.Stage e n) (h : Run b.settings turns e) : b.Ends e := by
  cases k with
  | asking k =>
    have hw : e.pause = .working := by
      unfold pause
      rw [k.stack]
    obtain ⟨made, framing⟩ := k.asked
    exact (framing.ends (h.proceed hw)).proceed k.stack nofun hw
  | framing k => exact k.ends h
  | pausing k => exact k.ends h
  | launched k => exact k.ends (fun h k => k.ends h) h
  | offered k => exact ⟨[], e, .start, List.forall_mem_nil _, .inl ⟨_, _, k.stack⟩⟩
  | standing k => exact k.ends (fun h k => k.ends h) h
  | waiting k => exact k.ends (fun h k => k.ends h) h
  | expiring k => exact k.ends (fun h k => k.ends h) h
  | replying k => exact k.ends h

end Blockade

/-! ## The callbacks of a line -/

/-- The callback of the command is invoked in the turn, with a timeout. -/
structure Turn.Invokes (turn : Turn) (c : CommandRef) (tag : Nat) : Prop where
  listens : turn.before.Listens tag c
  invoked : ∃ below, turn.after.stack = .notify tag (.error .timeout) :: below
  spent : ¬ turn.after.Listens tag c

/-- Of a line of commands with callbacks, the first ones have had theirs invoked in these turns, one
after the other and each of them once, with a timeout. Nothing has happened to the others. -/
inductive Invoked (ahead : List (CommandRef × Nat)) : List Turn → Nat → Prop
  | none : Invoked ahead [] 0
  | aside {turn : Turn} {earlier : List Turn} {n : Nat} : Invoked ahead earlier n →
      (∀ c tag, (c, tag) ∈ ahead → (turn.after.Listens tag c ↔ turn.before.Listens tag c)) →
      Invoked ahead (turn :: earlier) n
  | invoked {turn : Turn} {earlier : List Turn} {n : Nat} {c : CommandRef} {tag : Nat} :
      Invoked ahead earlier n → ahead[n]? = some (c, tag) → turn.Invokes c tag →
      (∀ c' tag', (c', tag') ∈ ahead → c' ≠ c →
        (turn.after.Listens tag' c' ↔ turn.before.Listens tag' c')) →
      Invoked ahead (turn :: earlier) (n + 1)

theorem Invoked.le {ahead : List (CommandRef × Nat)} {n : Nat} (h : Invoked ahead course n) :
    n ≤ ahead.length := by
  induction h with
  | none => exact Nat.zero_le _
  | aside _ _ ih => exact ih
  | invoked _ hget _ _ _ => exact (List.getElem?_eq_some_iff.1 hget).1

namespace Blockade

variable {b : Blockade} {n i tag : Nat} {x : CommandRef}

/-- The callbacks of the commands that are left are still to be invoked, and no others. -/
theorem Stage.listens_iff (k : b.Stage e n) (hget : b.line[i]? = some (x, tag)) :
    e.Listens tag x ↔ n ≤ i := by
  have hcommand : ∃ command, e.command? x = some command ∧
      command.listener = if i < n then .nobody else .callback tag := by
    have of_lined {told gone timeouts : Nat} {queued : Bool} {slot : Option CommandRef}
        {behind : List CommandRef} (hl : b.Lined e told gone timeouts queued slot behind) :
        ∃ command, e.command? x = some command ∧
          command.listener = if i < told then .nobody else .callback tag := by
      obtain ⟨command, hc, -, hlistener, -⟩ := hl.commands i x tag hget
      exact ⟨command, hc, hlistener⟩
    cases k with
    | asking k | framing k | pausing k | replying k =>
      obtain ⟨slot, behind, hl⟩ := k.tended
      exact of_lined hl.lined
    | launched k =>
      obtain ⟨slot, behind, hl, -⟩ := k.lined
      exact of_lined hl
    | offered k => exact of_lined k.lined
    | standing k =>
      obtain ⟨y, behind, hl, -⟩ := k.tended
      exact of_lined hl.lined
    | waiting k =>
      obtain ⟨y, behind, hl, -⟩ := k.tended
      exact of_lined hl.lined
    | expiring k =>
      obtain ⟨tag', behind, -, hl⟩ := k.lined
      exact of_lined hl
  obtain ⟨command, hc, hlistener⟩ := hcommand
  constructor
  · rintro ⟨command', hc', hlistens⟩
    cases hc.symm.trans hc'
    by_contra hlt
    rw [hlistener, if_pos (Nat.lt_of_not_le hlt)] at hlistens
    cases hlistens
  · intro hle
    exact ⟨command, hc, by rw [hlistener, if_neg (Nat.not_lt_of_le hle)]⟩

/-- **How far the call has come, and which callbacks have been invoked**, until its command is
handed out. -/
theorem stage_course (k : Quietly b.router e course e') (h : Run b.settings turns e)
    (hst : b.Stage e 0) (hnot : ∀ turn ∈ course, ¬ turn.before.Hands b.own) :
    ∃ n, Invoked b.line course n ∧ b.Stage e' n := by
  induction k with
  | start => exact ⟨0, .none, hst⟩
  | @next course e₁ e₂ m k hq hm ih =>
    obtain ⟨n, hinvoked, hst⟩ := ih fun turn hturn => hnot turn (List.mem_cons_of_mem _ hturn)
    have hhands : ¬ e₁.Hands b.own := hnot ⟨e₁, m, e₂⟩ List.mem_cons_self
    have index {x : CommandRef} {tag : Nat} (hmem : (x, tag) ∈ b.line) :
        ∃ i, b.line[i]? = some (x, tag) := List.getElem?_of_mem hmem
    rcases stage_next (k.run h) hq hm hst fun below hs => hhands ⟨_, below, hs⟩ with
      hst' | ⟨hst', x, tag, below, hget, hs⟩
    · refine ⟨n, hinvoked.aside fun y tag hmem => ?_, hst'⟩
      obtain ⟨i, hi⟩ := index hmem
      exact (hst'.listens_iff hi).trans (hst.listens_iff hi).symm
    · refine ⟨n + 1, hinvoked.invoked hget ⟨(hst.listens_iff hget).2 (Nat.le_refl n), ⟨below, hs⟩,
        fun hlistens => ?_⟩ fun y tag' hmem hne => ?_, hst'⟩
      · exact Nat.not_succ_le_self n ((hst'.listens_iff hget).1 hlistens)
      · obtain ⟨i, hi⟩ := index hmem
        have hin : i ≠ n := by
          rintro rfl
          cases hget.symm.trans hi
          exact hne rfl
        refine (hst'.listens_iff hi).trans (Iff.trans ?_ (hst.listens_iff hi).symm)
        omega

end Blockade

/-! ## Calls behind silent commands -/

namespace Engine

/-- The queue of a router is made of these commands, each with its callback. One of them holds the
slot, and none of them is answered. -/
structure Hangs (e : Engine) (r : RouterRef) (line : List (CommandRef × Nat)) : Prop where
  held : (e.queue r).slot ≠ none
  members : (e.queue r).members = line.map Prod.fst
  silent : ∀ c tag, (c, tag) ∈ line → ∃ command, e.command? c = some command ∧
    command.listener = .callback tag ∧ command.answered = false

/-- The router takes commands. -/
def Ready (e : Engine) (r : RouterRef) : Prop :=
  ∃ router, e.router? r = some router ∧ router.detached = false ∧ router.suspended = false

/-- How many attempts on a router have timed out, those that were given up and those that were
expired. -/
def timeoutsOn (e : Engine) (r : RouterRef) : Nat :=
  ((e.router? r).map (·.stats.timeouts)).getD 0

end Engine

/-- A call has made so many attempts, and so many of the commands ahead of it have been expired,
the first ones of the line. -/
structure HeldUp (r : RouterRef) (c : CommandRef) (line : List (CommandRef × Nat)) (e₀ : Engine)
    (course : List Turn) (e : Engine) (attempts expired : Nat) : Prop where
  attempt : (e.attempt c).1 = attempts
  invoked : Invoked line course expired
  timeouts : e.timeoutsOn r = e₀.timeoutsOn r + 2 * expired

namespace Blockade

variable {b : Blockade} {n told gone timeouts g : Nat} {queued : Bool} {slot : Option CommandRef}
  {behind : List CommandRef}

theorem Begun.attempt_eq (h : b.Begun e g) : (e.attempt b.own).1 = g := by
  obtain ⟨command, hc, -, hg⟩ := h
  rw [attempt_of_command hc]
  exact hg

theorem Lined.timeoutsOn_eq (h : b.Lined e told gone timeouts queued slot behind) :
    e.timeoutsOn b.router = b.timeouts + timeouts := by
  obtain ⟨router, hr⟩ := h.exists_router
  obtain ⟨-, -, -, htimeouts⟩ := h.read hr
  unfold timeoutsOn
  rw [hr]
  exact htimeouts

/-- Where the command of the call is handed out, nothing of the line is left. -/
theorem Offered.length_eq {left : Nat} (k : b.Offered n left e) (hle : n ≤ b.line.length) :
    n = b.line.length := by
  refine Nat.le_antisymm hle (rest_eq_nil ?_)
  have hmembers : [] ++ [b.own] = b.rest n ++ [b.own] := k.lined.members
  exact (List.append_cancel_right hmembers).symm

theorem Offered.heldUp {left : Nat} (k : b.Offered n left e) (hinvoked : Invoked b.line course n)
    (htimeouts : b.timeouts = e₀.timeoutsOn b.router) :
    HeldUp b.router b.own b.line e₀ course e (b.line.length + 1) b.line.length := by
  have hn := k.length_eq hinvoked.le
  rw [← hn]
  exact ⟨k.begun.attempt_eq, hinvoked, by rw [k.lined.timeoutsOn_eq, htimeouts]⟩

theorem Replying.heldUp {part chores : List Task} (k : b.Replying part chores e)
    (hinvoked : Invoked b.line course b.settings.attempts)
    (htimeouts : b.timeouts = e₀.timeoutsOn b.router) :
    HeldUp b.router b.own b.line e₀ course e b.settings.attempts b.settings.attempts := by
  obtain ⟨slot, behind, hl⟩ := k.tended
  exact ⟨k.begun.attempt_eq, hinvoked, by rw [hl.lined.timeoutsOn_eq, htimeouts]⟩

/-- If there are as many commands in front as attempts, the call is never handed out. -/
theorem unhanded (k : Quietly b.router e course e') (h : Run b.settings turns e)
    (hst : b.Stage e 0) (hle : b.settings.attempts ≤ b.line.length) :
    (∀ turn ∈ course, ¬ turn.before.Hands b.own) ∧ ¬ e'.Hands b.own := by
  have last {course : List Turn} {e' : Engine} (k : Quietly b.router e course e')
      (hnot : ∀ turn ∈ course, ¬ turn.before.Hands b.own) : ¬ e'.Hands b.own := by
    intro hhands
    obtain ⟨n, hinvoked, hst'⟩ := stage_course k h hst hnot
    obtain ⟨left, offered⟩ := hst'.offered_of_hands hhands
    have hn := offered.length_eq hinvoked.le
    have hcount := offered.count
    omega
  have before : ∀ turn ∈ course, ¬ turn.before.Hands b.own := by
    induction k with
    | start => exact List.forall_mem_nil _
    | next k _ _ ih => exact List.forall_mem_cons.2 ⟨last k ih, ih⟩
  exact ⟨before, last k before⟩

/-- Where the call answers, it has used up its attempts. -/
theorem Stage.answered {result : Outcome Answer} (k : b.Stage e n)
    (hs : e.stack = .answer result :: b.below) :
    result = .error .timeout ∧ b.Replying [.answer (.error .timeout)] [] e ∧
      n = b.settings.attempts := by
  have hlength := congrArg List.length hs
  -- in any other stage there is more on the stack
  have more (tasks : List Task) {task : Task} (h : e.stack = tasks ++ task :: b.base) : False := by
    rw [h] at hlength
    simp [base] at hlength
    omega
  cases k with
  | asking k => cases k.stack.symm.trans hs
  | framing k => exact (more _ k.stack).elim
  | pausing k => exact (more _ k.stack).elim
  | launched k => exact (more [_] k.stack).elim
  | offered k => exact (more [_] k.stack).elim
  | standing k => exact (more [] k.stack).elim
  | waiting k => exact (more _ k.stack).elim
  | expiring k => exact (more [_, _, _] k.stack).elim
  | @replying part chores k =>
    have hparts : chores ++ part = [.answer result] := by
      have hsame : chores ++ part ++ b.below = [Task.answer result] ++ b.below :=
        k.stack.symm.trans hs
      exact List.append_cancel_right hsame
    have hreplied := k.replied
    cases hreplied with
    | replied =>
      have hcount := congrArg List.length hparts
      simp at hcount
    | concluded =>
      cases chores with
      | nil => cases hparts
      | cons t chores => simp at hparts
    | answered =>
      cases chores with
      | nil =>
        cases hparts
        exact ⟨rfl, k, rfl⟩
      | cons t chores => simp at hparts

end Blockade

/-- A call that is made behind silent commands is about to ask. -/
theorem Run.blockade {line : List (CommandRef × Nat)} {t : Transfer} {watching : Watching}
    (h : Run settings turns e₀) (hready : e₀.Ready r) (hvalid : t.Valid) (hangs : e₀.Hangs r line)
    (hm : e₀.move? (.call (.operate r (.transfer t (.waiting watching)))) = some e) :
    ∃ b : Blockade, b.Asking e ∧ b.settings = settings ∧ b.router = r ∧ b.transfer = t ∧
      b.watching = watching ∧ b.line = line ∧ b.own = ⟨e₀.commands.length⟩ ∧
      b.timeouts = e₀.timeoutsOn r ∧ b.below = e₀.stack := by
  obtain ⟨router, hr, hattached, hawake⟩ := hready
  have hs := h.sound.toStored
  have hqueue := queue_of_router? hr
  have hmember {x : CommandRef} (hx : x ∈ line.map Prod.fst) : x ∈ (e₀.queue r).members :=
    hangs.members ▸ hx
  have he : e = e₀.push [.perform r (.ask (.transfer t (.waiting watching))
      (following t (.waiting watching)))] := by
    have hm : (if e₀.isWorking then none
        else some (e₀.operate r (.transfer t (.waiting watching)))) = some e := hm
    split at hm
    · cases hm
    · rw [← Option.some.inj hm]
      unfold operate
      rw [hr]
      simp only [program_transfer]
  refine ⟨⟨settings, r, t, watching, line, ⟨e₀.commands.length⟩, e₀.timeoutsOn r, e₀.stack, hvalid,
    hangs.members ▸ (hs.orderly r).nodup, fun hx => Nat.lt_irrefl _ (hs.lt_of_queued
      ⟨r, hmember hx⟩)⟩, ⟨he ▸ rfl, ⟨router.queue.slot, router.queue.pending, Blockade.Lined.tended
        ⟨?_, ?_, fun i x tag hget => ?_⟩ fun hnone => absurd (hqueue ▸ hnone) hangs.held⟩, he ▸ rfl,
          router, he ▸ hr, hawake⟩, rfl, rfl, rfl, rfl, rfl, rfl, rfl, rfl⟩
  · subst he
    show (e₀.router? r).map Router.front = _
    unfold timeoutsOn
    rw [hr]
    show some (Router.front _) = some _
    unfold Router.front
    rw [hattached]
    rfl
  · have hmembers := hangs.members
    rw [hqueue] at hmembers
    exact hmembers.trans (List.append_nil _).symm
  · have hmem : (x, tag) ∈ line := List.mem_of_getElem? hget
    obtain ⟨command, hc, hlistener, hanswered⟩ := hangs.silent x tag hmem
    obtain ⟨command', hc', ⟨hnode, -⟩, -⟩ := hs.members r x
      (hmember (List.mem_map_of_mem (f := Prod.fst) hmem))
    cases hc.symm.trans hc'
    refine ⟨command, ?_, hnode, hlistener.trans (if_neg (Nat.not_lt_zero i)).symm,
      fun _ => hanswered⟩
    subst he
    exact hc

/-- **A call behind silent commands.** Nobody else calls, the transport takes everything, and none
of the commands in front is answered. If the call may make more attempts than there are such
commands, its command is handed to the transport in the attempt after as many, before the caller
starts to wait; by then the callback of each of them has been invoked once with a timeout, in the
order of the line, and the router counts two timeouts for each. Otherwise it is never handed to
the transport; the call fails with a timeout after all its attempts, and as many of the callbacks
have been invoked, the first ones of the line. In any case quiet moves lead to that end. -/
theorem Run.head_of_line {line : List (CommandRef × Nat)} {t : Transfer} {watching : Watching}
    (h : Run settings turns e₀) (hknown : e₀.Known r) (hready : e₀.Ready r) (hvalid : t.Valid)
    (hangs : e₀.Hangs r line)
    (hm : e₀.move? (.call (.operate r (.transfer t (.waiting watching)))) = some e)
    (hc : c = ⟨e₀.commands.length⟩) (k : Quietly r e course e') :
    (line.length < settings.attempts → (∀ turn ∈ course, ¬ turn.before.Hands c) →
      (∀ result, e'.stack ≠ .answer result :: e₀.stack) ∧
      (e'.Hands c → HeldUp r c line e₀ course e' (line.length + 1) line.length ∧
        ∃ left, e'.stack = .offer r c :: .watch ⟨r, c, .retrying watching left⟩ ::
          .resume r (following t (.waiting watching)) :: e₀.stack) ∧
      ∃ more e'', Quietly r e' more e'' ∧ (∀ turn ∈ more, ¬ turn.before.Hands c) ∧ e''.Hands c) ∧
    (settings.attempts ≤ line.length →
      ¬ e'.Hands c ∧
      (∀ result, e'.stack = .answer result :: e₀.stack → result = .error .timeout ∧
        HeldUp r c line e₀ course e' settings.attempts settings.attempts) ∧
      ∃ more e'', Quietly r e' more e'' ∧ e''.stack = .answer (.error .timeout) :: e₀.stack) := by
  subst hc
  obtain ⟨b, asking, rfl, rfl, rfl, rfl, rfl, hown, htimeouts, hbelow⟩ :=
    h.blockade hready hvalid hangs hm
  rw [← hown, ← hbelow]
  have first : Run b.settings (⟨e₀, _, e⟩ :: turns) e :=
    h.next (fun call heq => by cases heq; exact hknown) hm
  have whole : Run b.settings (course ++ ⟨e₀, _, e⟩ :: turns) e' := k.run first
  constructor
  · intro hlt hnot
    obtain ⟨n, hinvoked, hst⟩ := Blockade.stage_course k first (.asking asking) hnot
    have unanswered {course : List Turn} {e : Engine} {n : Nat} {result : Outcome Answer}
        (hinvoked : Invoked b.line course n) (hst : b.Stage e n) :
        e.stack ≠ .answer result :: b.below := fun hs => by
      obtain ⟨-, -, rfl⟩ := hst.answered hs
      exact Nat.lt_irrefl _ (Nat.lt_of_le_of_lt hinvoked.le hlt)
    refine ⟨fun result => unanswered hinvoked hst, fun hhands => ?_, ?_⟩
    · obtain ⟨left, offered⟩ := hst.offered_of_hands hhands
      exact ⟨offered.heldUp hinvoked htimeouts, left, offered.stack⟩
    · obtain ⟨more, e'', k', hmore, hend⟩ := hst.ends whole
      refine ⟨more, e'', k', hmore, hend.resolve_right ?_⟩
      obtain ⟨n', hinvoked', hst'⟩ := Blockade.stage_course (k.append k') first (.asking asking)
        (List.forall_mem_append.2 ⟨hmore, hnot⟩)
      exact unanswered hinvoked' hst'
  · intro hle
    obtain ⟨hnot, hlast⟩ := Blockade.unhanded k first (.asking asking) hle
    obtain ⟨n, hinvoked, hst⟩ := Blockade.stage_course k first (.asking asking) hnot
    refine ⟨hlast, fun result hs => ?_, ?_⟩
    · obtain ⟨hresult, replying, rfl⟩ := hst.answered hs
      exact ⟨hresult, replying.heldUp hinvoked htimeouts⟩
    · obtain ⟨more, e'', k', hmore, hend⟩ := hst.ends whole
      obtain ⟨-, hlast'⟩ := Blockade.unhanded (k.append k') first (.asking asking) hle
      exact ⟨more, e'', k', hend.resolve_left hlast'⟩

/-- Two words are read from the host router with callbacks, and the answer to the first does not
come. -/
def silentMoves : List Move :=
  hostMoves hostWords ++
  ([.call (.operate ⟨0⟩ (.transfer (.read .router 0 64 1) (.callback 7))), .proceed,
    .grant (.ok ()), .proceed, .grant (.ok ()), .proceed, .proceed, .proceed, .collect] :
    List Move) ++ lineUp 72 8

/-- These two reads. -/
def silentLine : List (CommandRef × Nat) := [(⟨1⟩, 7), (⟨2⟩, 8)]

/-- A call that comes to stand behind them. -/
def thirdRead : Call :=
  .operate ⟨0⟩ (.transfer (.read .router 0 68 1) (.waiting .polling))

/-- A check that the two reads are in the queue of the host router, and nothing else is. -/
def Engine.showsSilent (e : Engine) : Bool :=
  admits e (.call thirdRead) && !e.isWorking && decide (e.commands.length = 3) &&
  (e.router? ⟨0⟩).any (fun router => !router.detached && !router.suspended) &&
  decide ((e.queue ⟨0⟩).slot = some ⟨1⟩) && decide ((e.queue ⟨0⟩).pending = [⟨2⟩]) &&
  silentLine.all fun (c, tag) => (e.command? c).any fun command =>
    decide (command.listener = .callback tag) && !command.answered

/-- What the check is for. -/
theorem exists_silent_line (settings : Settings)
    (played : (replay? settings silentMoves.reverse).any (·.2.showsSilent) = true) :
    ∃ turns e₀ e, Run settings turns e₀ ∧ e₀.Known ⟨0⟩ ∧ e₀.Ready ⟨0⟩ ∧ e₀.Hangs ⟨0⟩ silentLine ∧
      e₀.move? (.call thirdRead) = some e ∧ ⟨3⟩ = (⟨e₀.commands.length⟩ : CommandRef) := by
  obtain ⟨turns, e₀, run, hcheck⟩ := exists_of_replay? played
  simp only [Engine.showsSilent, Bool.and_eq_true, Option.any_eq_true, List.all_eq_true,
    decide_eq_true_eq, Bool.not_eq_true'] at hcheck
  obtain ⟨⟨⟨⟨⟨⟨hadmits, hrests⟩, hlength⟩, router, hr, hattached, hawake⟩, hslot⟩, hpending⟩,
    hsilent⟩ := hcheck
  have hm : e₀.move? (.call thirdRead) = some (e₀.call thirdRead) := by
    simp [move?, hrests]
  refine ⟨turns, e₀, _, run, allows_of_admits hadmits, ⟨router, hr, hattached, hawake⟩,
    ⟨hslot ▸ Option.some_ne_none _, ?_, fun c tag hmem => ?_⟩, hm, by rw [hlength]⟩
  · rw [Queue.members_of_slot hslot, hpending]
    rfl
  · exact hsilent (c, tag) hmem

/-- A call behind two silent commands is handed to the transport in its third attempt; if it may
make but one, it fails with a timeout, and has only the first of the two expired. -/
theorem third_attempt_handed :
    (∃ turns e₀ e course e', Run {} turns e₀ ∧ e₀.Hangs ⟨0⟩ silentLine ∧
      e₀.move? (.call thirdRead) = some e ∧ Quietly ⟨0⟩ e course e' ∧ e'.Hands ⟨3⟩ ∧
      HeldUp ⟨0⟩ ⟨3⟩ silentLine e₀ course e' 3 2) ∧
    ∃ turns e₀ e course e', Run { retries := 0 } turns e₀ ∧ e₀.Hangs ⟨0⟩ silentLine ∧
      e₀.move? (.call thirdRead) = some e ∧ Quietly ⟨0⟩ e course e' ∧
      e'.stack = .answer (.error .timeout) :: e₀.stack ∧ ¬ e'.Hands ⟨3⟩ ∧
      HeldUp ⟨0⟩ ⟨3⟩ silentLine e₀ course e' 1 1 := by
  have hvalid : (Transfer.read .router 0 68 1).Valid := ⟨_, rfl, rfl⟩
  constructor
  · obtain ⟨turns, e₀, e, run, hknown, hready, hangs, hm, hnew⟩ :=
      exists_silent_line {} (by decide +kernel)
    have hlt : silentLine.length < Settings.attempts {} := by decide
    obtain ⟨-, -, course, e', k, hnot, hhands⟩ :=
      (run.head_of_line hknown hready hvalid hangs hm hnew .start).1 hlt (List.forall_mem_nil _)
    obtain ⟨-, heldUp, -⟩ := (run.head_of_line hknown hready hvalid hangs hm hnew k).1 hlt hnot
    exact ⟨turns, e₀, e, course, e', run, hangs, hm, k, hhands, (heldUp hhands).1⟩
  · obtain ⟨turns, e₀, e, run, hknown, hready, hangs, hm, hnew⟩ :=
      exists_silent_line { retries := 0 } (by decide +kernel)
    have hle : Settings.attempts { retries := 0 } ≤ silentLine.length := by decide
    obtain ⟨-, -, course, e', k, hs⟩ :=
      (run.head_of_line hknown hready hvalid hangs hm hnew .start).2 hle
    obtain ⟨hnot, hends, -⟩ := (run.head_of_line hknown hready hvalid hangs hm hnew k).2 hle
    exact ⟨turns, e₀, e, course, e', run, hangs, hm, k, hs, hnot, (hends _ hs).2⟩

end RouterFabric
