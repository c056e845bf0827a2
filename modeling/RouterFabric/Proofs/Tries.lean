import RouterFabric.Proofs.Engine.Heeded
import RouterFabric.Proofs.Expiring
import RouterFabric.Proofs.Requests
import RouterFabric.Proofs.Sessions

/-!
# The attempts of a waiting caller

A caller that waits for its transfer makes one attempt after the other until one of them ends
otherwise than by a timeout, the router turns out to be detached, or none is left. The turns of such
a call are read as a history of its attempts, and what the call answers follows from where the
history has come to.

* `Tries` : the attempts that the turns of a call have made, and what has come of the last one
* `Trial.Tells` : what the caller is told
* `Engine.Stage` : how the task of a waiting caller and its command agree with the history
* `Run.tried` : the history of every call in progress
* `Run.tries` : how many attempts a call makes, and what it answers
-/

namespace RouterFabric

open Engine

variable {settings : Settings} {turns course : List Turn} {turn : Turn} {e e' : Engine} {m : Move}
  {r : RouterRef} {c : CommandRef} {w : Waiter} {task : Task} {gone tasks below part : List Task}
  {ending : Ending} {n : Nat}

/-! ## What a turn does to the attempts of a command -/

namespace Turn

/-- The current attempt of the command ends in the turn. -/
structure Ends (turn : Turn) (c : CommandRef) (ending : Ending) : Prop where
  before : ∃ command, turn.before.command? c = some command ∧ command.pollComplete = false
  after : ∃ command, turn.after.command? c = some command ∧ command.verdict = (true, some ending)

/-- An attempt of the command begins, under a new generation and the next sequence number of the
router, and the command enters the queue of the router, in which it was not. -/
structure Launches (turn : Turn) (r : RouterRef) (c : CommandRef) : Prop where
  fresh : ¬ turn.before.Queued c
  attempt : turn.after.attempt c = ((turn.before.attempt c).1 + 1, turn.before.begunOn r % 4)
  number : turn.after.begunOn r = turn.before.begunOn r + 1
  queued : (turn.after.queue r).members = (turn.before.queue r).members ++ [c]

/-- The command is not queued again, because the router has been detached. -/
structure Refuses (turn : Turn) (r : RouterRef) (c : CommandRef) : Prop where
  detached : ∃ router, turn.before.router? r = some router ∧ router.detached = true
  unqueued : ¬ turn.after.Queued c

/-- The caller gives its attempt up, and its command leaves the queue. -/
structure Abandons (turn : Turn) (c : CommandRef) : Prop where
  waits : ∃ w deadline below, turn.before.stack = .await w deadline :: below ∧ w.command = c
  givesUp : turn.move = .giveUp
  queued : turn.before.Queued c
  unqueued : ¬ turn.after.Queued c

/-- No attempt of the command begins or ends. -/
structure Spares (turn : Turn) (c : CommandRef) : Prop where
  attempt : turn.after.attempt c = turn.before.attempt c
  unended : ∀ ending, ¬ turn.Ends c ending
  unqueued : turn.after.Queued c → turn.before.Queued c

end Turn

/-! ## Histories -/

/-- What has come of the attempts of a command so far. -/
inductive Trial
  /-- none is under way, and another one may follow -/
  | pausing
  /-- one is under way -/
  | trying
  /-- one has ended otherwise than by a timeout -/
  | over (ending : Ending)
  /-- the router did not take another one -/
  | refused

/-- The attempts of a command in these turns, the latest first: how many have begun, and what has
come of them. -/
inductive Tries (r : RouterRef) (c : CommandRef) : List Turn → Nat → Trial → Prop
  | none : Tries r c [] 0 .pausing
  | aside {turn : Turn} {earlier : List Turn} {n : Nat} {trial : Trial} :
      Tries r c earlier n trial → turn.Spares c → Tries r c (turn :: earlier) n trial
  | launched {turn : Turn} {earlier : List Turn} {n : Nat} : Tries r c earlier n .pausing →
      turn.Launches r c → Tries r c (turn :: earlier) (n + 1) .trying
  | refused {turn : Turn} {earlier : List Turn} {n : Nat} : Tries r c earlier n .pausing →
      turn.Refuses r c → Tries r c (turn :: earlier) n .refused
  | abandoned {turn : Turn} {earlier : List Turn} {n : Nat} : Tries r c earlier n .trying →
      turn.Abandons c → Tries r c (turn :: earlier) n .pausing
  | expired {turn : Turn} {earlier : List Turn} {n : Nat} : Tries r c earlier n .trying →
      turn.Ends c .expired → Tries r c (turn :: earlier) n .pausing
  | ended {turn : Turn} {earlier : List Turn} {n : Nat} {ending : Ending} :
      Tries r c earlier n .trying → turn.Ends c ending → ending ≠ .expired →
      Tries r c (turn :: earlier) n (.over ending)

/-- What the caller is told when this has come of `n` attempts, and `most` were allowed. -/
inductive Trial.Tells (most n : Nat) : Trial → Reply → Prop
  /-- a timeout, when all attempts have been made -/
  | timeout : n = most → Tells most n .pausing (.error .timeout)
  /-- how its last attempt has ended -/
  | ended (ending : Ending) : Tells most n (.over ending) ending.reply
  /-- that the router is gone, when it has been detached before the next attempt -/
  | refused : n < most → Tells most n .refused (.error .notFound)

/-! ## Turns in which the caller takes no part -/

section aside

variable (h : Run settings turns e) (ha : ∀ call, m = .call call → e.Allows call)
  (hm : e.move? m = some e')

include h ha hm

/-- No attempt of the command begins. -/
theorem Run.attempt_unattended (hc : e.Unattended e' c) (hlt : c.index < e.commands.length) :
    e'.attempt c = e.attempt c := by
  cases h.moved ha hm with
  | inner hcall hcollect k =>
    rcases h.sound.attempt_inner k c with hattempt | ⟨r, -, hnew | ⟨w, below, hs, hw, supplants⟩⟩
    · exact hattempt
    · exact absurd hnew (Nat.ne_of_lt hlt)
    · exact absurd hw (hc.ne hs rfl supplants)
  | called k => exact k.attempt c
  | collected result below he he' a => exact attempt_of_substance (a.commands c).substance

/-- What has not begun an attempt was in its queue before. -/
theorem Run.queued_was (hkept : e'.attempt c = e.attempt c) (hq : e'.Queued c) : e.Queued c := by
  rcases h.sound.attempts ha hm with
    steady | ⟨r, c', commences⟩ | ⟨r, c', old, signal, words, -, -, a⟩
  · exact steady.queued hq
  · refine commences.queued hq fun heq => ?_
    have hnext := commences.attempt
    rw [← heq, hkept] at hnext
    exact absurd (congrArg Prod.fst hnext) (Nat.ne_of_lt (Nat.lt_succ_self _))
  · exact a.queued hq

/-- What is over stays over. -/
theorem Run.over_kept (hkept : e'.attempt c = e.attempt c) (hover : ¬ e.Lives c) :
    ¬ e'.Lives c := by
  intro hl
  rcases h.lives_was ha hm hl with hl | ⟨r, commences⟩
  · exact hover hl
  · have hnext := commences.attempt
    rw [hkept] at hnext
    exact absurd (congrArg Prod.fst hnext) (Nat.ne_of_lt (Nat.lt_succ_self _))

/-- Nothing happens to an attempt that is over. -/
theorem Run.spares_over (hc : e.Unattended e' c) (hlt : c.index < e.commands.length)
    (hover : ¬ e.Lives c) : Turn.Spares ⟨e, m, e'⟩ c := by
  have hkept := h.attempt_unattended ha hm hc hlt
  refine ⟨hkept, fun ending ends => ?_, h.queued_was ha hm hkept⟩
  obtain ⟨⟨old, hold, hpoll⟩, new, hnew, hverdict⟩ := ends
  rcases h.reported ha hm hc (verdict_iff.2 ⟨old, hold, rfl⟩) with hv | ⟨ending', hlives, -⟩
  · obtain ⟨command, hcommand, hsame⟩ := verdict_iff.1 hv
    cases hcommand.symm.trans hnew
    cases hpoll.symm.trans (congrArg Prod.fst (hsame.symm.trans hverdict))
  · exact hover hlives

theorem Run.shut_kept (hc : e.Unattended e' c) (hlt : c.index < e.commands.length)
    (hshut : e.Shut c ending) : e'.Shut c ending := by
  obtain ⟨hover, command, hcommand, hverdict⟩ := hshut
  refine ⟨h.over_kept ha hm (h.attempt_unattended ha hm hc hlt) hover, ?_⟩
  rcases h.reported ha hm hc (verdict_iff.2 ⟨command, hcommand, hverdict⟩) with hv | ⟨_, hlives, -⟩
  · exact verdict_iff.1 hv
  · exact absurd hlives hover

end aside

/-- Nothing happens to a command that is not there yet. -/
theorem Run.spares_unmade (h : Run settings (⟨e, m, e'⟩ :: turns) e')
    (hgrown : e.commands.length ≤ e'.commands.length) (hle : e'.commands.length ≤ c.index) :
    Turn.Spares ⟨e, m, e'⟩ c := by
  have unmade {x : Engine} (hx : x.commands.length ≤ c.index) : x.command? c = none :=
    List.getElem?_eq_none hx
  refine ⟨?_, fun ending ends => ?_, fun hq => ?_⟩
  · show e'.attempt c = e.attempt c
    unfold Engine.attempt
    rw [unmade hle, unmade (Nat.le_trans hgrown hle)]
  · obtain ⟨command, hc, -⟩ := ends.after
    rw [unmade hle] at hc
    cases hc
  · exact absurd (h.sound.lt_of_queued hq) (Nat.not_lt_of_le hle)

/-! ## Callers and their commands -/

namespace Engine

/-- How the task of a caller and its command agree with what has come of its attempts. -/
inductive Stage (e : Engine) (c : CommandRef) : Task → Trial → Prop
  /-- the next attempt has yet to begin -/
  | next (w : Waiter) : ¬ e.Lives c → Stage e c (.attempt w) .pausing
  /-- the caller waits for the current one -/
  | trying {task : Task} : (∀ w, task ≠ .attempt w) → e.Open c → Stage e c task .trying
  /-- the caller has not noticed yet that the current one has expired -/
  | expired {task : Task} : (∀ w, task ≠ .attempt w) → e.Shut c .expired → Stage e c task .pausing
  /-- the caller has not noticed yet how the current one has ended -/
  | ended {task : Task} {ending : Ending} : (∀ w, task ≠ .attempt w) → ending ≠ .expired →
      e.Shut c ending → Stage e c task (.over ending)

/-- A call that a turn leaves where it is takes no part in the turn. -/
theorem Sound.unattended (h : e.Sound) (he : e.stack = gone ++ below)
    (he' : e'.stack = tasks ++ below) (htask : task ∈ below) (hw : task.waiter? = some w) :
    e.Unattended e' w.command := by
  intro t₁ below₁ w₁ hs hw₁ hsame
  cases gone with
  | nil => exact ⟨tasks, by rw [he', he]; rfl⟩
  | cons t gone =>
    rw [he, List.cons_append] at hs
    cases hs
    have haged := h.aged
    rw [he, List.cons_append] at haged
    have hyounger := (List.pairwise_cons.1 haged).1 task (List.mem_append_right _ htask) w₁ hw₁ _
      (Task.mem_commands_of_waiter? hw)
    rw [hsame] at hyounger
    exact absurd hyounger (Nat.lt_irrefl _)

/-- Nobody takes part whose task is not there. -/
theorem unattended_of_not_awaited (h : ¬ Awaited e.stack c) : e.Unattended e' c :=
  fun t _ w hs hw hsame => absurd ⟨t, hs ▸ List.mem_cons_self, w, hw, hsame⟩ h

theorem awaited_swap (gone tasks : List Task) (he : e.stack = gone ++ below)
    (he' : e'.stack = tasks ++ below) (hnew : Awaited tasks c → Awaited gone c)
    (h : Awaited e'.stack c) : Awaited e.stack c := by
  obtain ⟨t, ht, w, hw, hsame⟩ := h
  rw [he'] at ht
  rw [he]
  rcases List.mem_append.1 ht with ht | ht
  · obtain ⟨t', ht', waits⟩ := hnew ⟨t, ht, w, hw, hsame⟩
    exact ⟨t', List.mem_append_left _ ht', waits⟩
  · exact ⟨t, List.mem_append_right _ ht, w, hw, hsame⟩

end Engine

/-- Nobody comes to wait for a command that is already there, unless the caller that has waited
for it goes on. -/
theorem Run.awaited_was (h : Run settings turns e) (ha : ∀ call, m = .call call → e.Allows call)
    (hm : e.move? m = some e') (hlt : c.index < e.commands.length) (haw : Awaited e'.stack c) :
    Awaited e.stack c := by
  have chores {l : List Task} (hl : ∀ t ∈ l, t.isChore = true) : ¬ Awaited l c := by
    rintro ⟨t, ht, w, hw, -⟩
    exact Bool.false_ne_true ((Task.isChore_of_waiter? hw).symm.trans (hl t ht))
  cases h.moved ha hm with
  | inner hcall hcollect k =>
    obtain ⟨standing, hstacked, -⟩ := h.stacked
    rcases k.advances h.sound hstacked with
      ⟨gone, tasks, below, l, -⟩ | ⟨part, part', tasks, below, a⟩
    · exact awaited_swap _ _ l.before l.after (fun hnew => absurd hnew (chores l.tasks)) haw
    · refine awaited_swap _ _ a.before a.after ?_ haw
      rintro ⟨t, ht, w, hw, rfl⟩
      rcases List.mem_append.1 ht with ht | ht
      · exact absurd ⟨t, ht, w, hw, rfl⟩ (chores a.chores)
      · exact (a.waits t ht w hw).resolve_left (Nat.ne_of_lt hlt)
  | called k =>
    obtain ⟨t, tasks, hbase, he', htasks⟩ := k.segment
    refine awaited_swap [] _ rfl he' ?_ haw
    rintro ⟨t', ht', w, hw, hsame⟩
    rcases List.mem_append.1 ht' with ht' | ht'
    · exact absurd ⟨t', ht', w, hw, hsame⟩ (chores htasks)
    · rw [List.mem_singleton.1 ht', Task.waiter?_of_base hbase] at hw
      cases hw
  | collected result below he he' a =>
    obtain ⟨t, ht, waits⟩ := haw
    exact ⟨t, he ▸ List.mem_cons_of_mem _ (he' ▸ ht), waits⟩

/-- What has come of the attempts, and how the caller and its command agree with it, after a turn in
which the caller takes no part. -/
theorem Run.stage_next (h : Run settings turns e) (ha : ∀ call, m = .call call → e.Allows call)
    (hm : e.move? m = some e') (hc : e.Unattended e' c) (hlt : c.index < e.commands.length)
    {trial : Trial} (htries : Tries r c course n trial) (hstage : e.Stage c task trial) :
    ∃ trial', Tries r c (⟨e, m, e'⟩ :: course) n trial' ∧ e'.Stage c task trial' := by
  have hkept := h.attempt_unattended ha hm hc hlt
  cases hstage with
  | next w hover =>
    exact ⟨_, .aside htries (h.spares_over ha hm hc hlt hover),
      .next w (h.over_kept ha hm hkept hover)⟩
  | expired htask hshut =>
    exact ⟨_, .aside htries (h.spares_over ha hm hc hlt hshut.closed),
      .expired htask (h.shut_kept ha hm hc hlt hshut)⟩
  | ended htask hending hshut =>
    exact ⟨_, .aside htries (h.spares_over ha hm hc hlt hshut.closed),
      .ended htask hending (h.shut_kept ha hm hc hlt hshut)⟩
  | trying htask hopen =>
    obtain ⟨hlives, old, hold, hpoll⟩ := id hopen
    rcases h.open_next ha hm hc hopen with hopen' | ⟨ending, hshut⟩
    · refine ⟨_, .aside htries ⟨hkept, fun ending ends => ?_, h.queued_was ha hm hkept⟩,
        .trying htask hopen'⟩
      obtain ⟨new, hnew, hpoll'⟩ := hopen'.unended
      obtain ⟨new', hnew', hverdict⟩ := ends.after
      cases hnew.symm.trans hnew'
      cases hpoll'.symm.trans (congrArg Prod.fst hverdict)
    · have ends : Turn.Ends ⟨e, m, e'⟩ c ending := ⟨⟨old, hold, hpoll⟩, hshut.ended⟩
      by_cases hending : ending = .expired
      · subst hending
        exact ⟨_, .expired htries ends, .expired htask hshut⟩
      · exact ⟨_, .ended htries ends hending, .ended htask hending hshut⟩

/-! ## What a waiting caller does -/

namespace Engine

/-- What a waiting caller does by itself, with its task and what is below. -/
inductive Heeds (e : Engine) (w : Waiter) (below : List Task) : Move → Task → Engine → Prop
  | retried : Heeds e w below .proceed (.attempt w) (({ e with stack := below } : Engine).retry w)
  | watched : Heeds e w below .proceed (.watch w)
      (({ e with stack := below } : Engine).push
        [.await w (e.now + e.topology.settings.timeoutMs)])
  | settled {t : Task} {e' : Engine} : (t = .claimed w ∨ ∃ deadline, t = .await w deadline) →
      ({ e with stack := below } : Engine).settle? w = some e' → Heeds e w below .proceed t e'
  | gaveUp (deadline : Nat) : Heeds e w below .giveUp (.await w deadline)
      (({ e with stack := below } : Engine).withdraw w)

/-- An arrival leaves what is on the stack. -/
theorem receive_grows (e : Engine) (arrival : Arrival) :
    ∃ added, (e.receive arrival).stack = added ++ e.stack := by
  cases relieved_receive e arrival with
  | idle tasks _ hstack _ | freed _ _ tasks _ _ hstack _ _ =>
    exact ⟨_, hstack.trans (List.append_assoc tasks [.handled] e.stack).symm⟩

/-- Where nobody calls, nothing arrives and no time passes, a caller does something by itself. -/
theorem heeds_of_move? (hm : e.move? m = some e') (hcall : ∀ call, m ≠ .call call)
    (hreceive : ∀ arrival, m ≠ .receive arrival) (helapse : ∀ ms, m ≠ .elapse ms)
    (hs : e.stack = task :: below) (hw : task.waiter? = some w) :
    e.Heeds w below m task e' := by
  have same {t : Task} {rest : List Task} (hs' : e.stack = t :: rest) : t = task ∧ rest = below :=
    List.cons.inj (hs'.symm.trans hs)
  cases acts_of_move? hm with
  | dropped hs' hdrops =>
    obtain ⟨rfl, rfl⟩ := same hs'
    cases hdrops <;> cases hw
  | concluded hs' | asked hs' | replied hs' | drained hs' | kicked hs' | toured hs' | expired hs'
  | announced hs' | framed hs' | unframed hs' | answered hs' | registered hs' | unregistered hs'
  | acknowledging hs' | acknowledged hs' | collected hs' =>
    obtain ⟨rfl, rfl⟩ := same hs'
    cases hw
  | retried hs' =>
    obtain ⟨rfl, rfl⟩ := same hs'
    cases hw
    exact .retried
  | watched hs' =>
    obtain ⟨rfl, rfl⟩ := same hs'
    cases hw
    exact .watched
  | settled hs' ht hsettle =>
    obtain ⟨rfl, rfl⟩ := same hs'
    have hsame := ht
    rcases ht with rfl | ⟨deadline, rfl⟩ <;>
    · cases hw
      exact .settled hsame hsettle
  | gaveUp hs' =>
    obtain ⟨rfl, rfl⟩ := same hs'
    cases hw
    exact .gaveUp _
  | called call => exact absurd rfl (hcall call)
  | received arrival => exact absurd rfl (hreceive arrival)
  | elapsed ms => exact absurd rfl (helapse ms)

/-- A caller whose task is replaced has done something by itself. -/
theorem heeds_of_stirs (hm : e.move? m = some e') (hcall : ∀ call, m ≠ .call call)
    (hstirs : ∀ added, e'.stack ≠ added ++ e.stack) (hs : e.stack = task :: below)
    (hw : task.waiter? = some w) : e.Heeds w below m task e' := by
  refine heeds_of_move? hm hcall ?_ ?_ hs hw
  · rintro arrival rfl
    obtain ⟨added, hgrown⟩ := receive_grows e arrival
    rw [← receive_of_receive hm] at hgrown
    exact hstirs added hgrown
  · rintro ms rfl
    cases hm
    exact hstirs [] rfl

/-- What a caller that watches its command makes of it: nothing as long as its attempt has not
ended, then its next attempt after a timeout, and its reply after anything else. -/
theorem settle?_retrying {watching : Watching} {left : Nat} {command : Command}
    (hp : w.patience = .retrying watching left) (hc : e.command? w.command = some command)
    (hclear : command.Clear) :
    (command.pollComplete = false → e.settle? w = none) ∧
      ∀ ending, command.verdict = (true, some ending) → ∃ e', e.settle? w = some e' ∧
        e'.stack = (if ending = .expired then .attempt w else .reply ending.reply) :: e.stack := by
  have hnotices : notices watching command = command.pollComplete := by
    cases watching with
    | polling => rfl
    | woken =>
      rw [Bool.eq_iff_iff]
      exact beq_iff_eq.trans hclear.symm
  unfold settle?
  rw [hc]
  simp only [hp, hnotices]
  refine ⟨fun hpoll => if_neg (by rw [hpoll]; nofun), fun ending hverdict => ?_⟩
  have hpoll : command.pollComplete = true := congrArg Prod.fst hverdict
  have hending : command.ending = some ending := congrArg Prod.snd hverdict
  have htaken : command.takeEnding.1 = some ending := by
    unfold Command.takeEnding
    rw [if_pos (hclear.1 hpoll)]
    exact hending
  rw [if_pos hpoll]
  simp only [htaken]
  cases ending with
  | expired => exact ⟨_, rfl, rfl⟩
  | completed data => exact ⟨_, rfl, rfl⟩
  | interrupted event => exact ⟨_, rfl, rfl⟩
  | refused fault => exact ⟨_, rfl, rfl⟩

theorem lives_iff_of_same (hmembers : ∀ r, (e'.queue r).members = (e.queue r).members)
    (hexpiring : e'.expiring = e.expiring) : e'.Lives c ↔ e.Lives c := by
  rw [lives_iff, lives_iff, queued_iff_of_members hmembers, hexpiring]

/-- The caller goes on to wait in another task. -/
theorem Stage.moved {trial : Trial} {task' : Task} (h : e.Stage c task trial)
    (hnot : ∀ w, task ≠ .attempt w) (hnot' : ∀ w, task' ≠ .attempt w)
    (hverdicts : e'.commands.verdicts = e.commands.verdicts)
    (hlives : e'.Lives c ↔ e.Lives c) : e'.Stage c task' trial := by
  have kept {verdict : Bool × Option Ending}
      (hc : ∃ command, e.command? c = some command ∧ command.verdict = verdict) :
      ∃ command, e'.command? c = some command ∧ command.verdict = verdict := by
    rw [← verdict_iff] at hc ⊢
    rw [hverdicts]
    exact hc
  cases h with
  | next w => exact absurd rfl (hnot w)
  | trying _ hopen =>
    obtain ⟨hl, command, hc, hpoll⟩ := hopen
    obtain ⟨command', hc', hsame⟩ := kept ⟨command, hc, rfl⟩
    exact .trying hnot' ⟨hlives.2 hl, command', hc', (congrArg Prod.fst hsame).trans hpoll⟩
  | expired _ hshut => exact .expired hnot' ⟨fun hl => hshut.closed (hlives.1 hl), kept hshut.ended⟩
  | ended _ hending hshut =>
    exact .ended hnot' hending ⟨fun hl => hshut.closed (hlives.1 hl), kept hshut.ended⟩

/-- Nobody below a caller waits for its command. -/
theorem Sound.not_awaited_below (h : e.Sound) (hs : e.stack = task :: below)
    (hw : task.waiter? = some w) : ¬ Awaited below w.command := by
  rintro ⟨t, ht, w', hw', hsame⟩
  have haged := h.aged
  rw [hs] at haged
  have hyounger := (List.pairwise_cons.1 haged).1 t ht w hw _ (Task.mem_commands_of_waiter? hw')
  rw [hsame] at hyounger
  exact Nat.lt_irrefl _ hyounger

/-- Nothing happens to an attempt where nothing changes that matters to anyone else. -/
theorem Alike.spares (a : e.Alike e') (m : Move) (c : CommandRef) : Turn.Spares ⟨e, m, e'⟩ c := by
  refine ⟨attempt_of_substance (a.commands c).substance, fun ending ends => ?_,
    (queued_iff_of_members a.members c).1⟩
  obtain ⟨⟨old, hold, hpoll⟩, new, hnew, hverdict⟩ := ends
  obtain ⟨was, hwas, hsub⟩ := (a.commands c).was hnew
  cases hwas.symm.trans hold
  have hsame : old.pollComplete = new.pollComplete := congrArg (·.pollComplete) hsub
  cases (hpoll.symm.trans hsame).trans (congrArg Prod.fst hverdict)

end Engine

/-! ## Calls -/

/-- What is left of a call that has its reply. -/
inductive Replied (r : RouterRef) (t : Transfer) (style : Style) (reply : Reply) :
    List Task → Prop
  | replied : Replied r t style reply [.reply reply, .resume r (following t style)]
  | concluded : Replied r t style reply [.perform r (.done (conclusion t style reply))]
  | answered : Replied r t style reply [.answer (conclusion t style reply)]

/-- What has come of the attempts of a call that waits for its transfer, with its command and its
tasks. -/
inductive Tried (settings : Settings) (e : Engine) (r : RouterRef) (t : Transfer)
    (watching : Watching) (course : List Turn) : Option CommandRef → List Task → Prop
  /-- there is no command yet -/
  | unmade {part : List Task} :
      (∀ c : CommandRef, e.commands.length ≤ c.index → Tries r c course 0 .pausing) →
      Tried settings e r t watching course none part
  | waiting {c : CommandRef} {task : Task} {left n : Nat} {trial : Trial} :
      task.waiter? = some ⟨r, c, .retrying watching left⟩ → n + left = settings.attempts →
      Tries r c course n trial → e.Stage c task trial →
      Tried settings e r t watching course (some c)
        [task, .resume r (following t (.waiting watching))]
  | settled {c : CommandRef} {part : List Task} {reply : Reply} {n : Nat} {trial : Trial} :
      Replied r t (.waiting watching) reply part → n ≤ settings.attempts →
      trial.Tells settings.attempts n reply → Tries r c course n trial →
      c.index < e.commands.length → ¬ e.Lives c → ¬ Awaited e.stack c →
      Tried settings e r t watching course (some c) part

section tried

variable {t : Transfer} {watching : Watching} {command : Option CommandRef}

/-- A turn that leaves a call where it is may end its attempt, and nothing else. -/
theorem Tried.left (hl : Tried settings e r t watching course command part)
    (h : Run settings turns e) (ha : ∀ call, m = .call call → e.Allows call)
    (hm : e.move? m = some e') (he : e.stack = gone ++ below) (he' : e'.stack = tasks ++ below)
    (hpart : ∀ t ∈ part, t ∈ below) :
    Tried settings e' r t watching (⟨e, m, e'⟩ :: course) command part := by
  have hgrown := (h.sound.extends ha hm).length_le
  cases hl with
  | unmade hnone =>
    refine .unmade fun c hc => .aside (hnone c (Nat.le_trans hgrown hc)) ?_
    exact (h.next ha hm).spares_unmade hgrown hc
  | @waiting c task left n trial hw hn htries hstage =>
    have htask := hpart task List.mem_cons_self
    have hlt : c.index < e.commands.length :=
      (h.sound.tasks task (he ▸ List.mem_append_right gone htask)).2 c
        (Task.mem_commands_of_waiter? hw)
    obtain ⟨trial', htries', hstage'⟩ :=
      h.stage_next ha hm (h.sound.unattended he he' htask hw) hlt htries hstage
    exact .waiting hw hn htries' hstage'
  | settled hreplied hle htells htries hlt hover hnot =>
    have hc : e.Unattended e' _ := unattended_of_not_awaited hnot
    exact .settled hreplied hle htells (.aside htries (h.spares_over ha hm hc hlt hover))
      (Nat.lt_of_lt_of_le hlt hgrown) (h.over_kept ha hm (h.attempt_unattended ha hm hc hlt) hover)
      fun haw => hnot (h.awaited_was ha hm hlt haw)

/-- What comes of a call whose caller does something by itself. -/
structure Tried.Onward (settings : Settings) (e e' : Engine) (m : Move) (r : RouterRef)
    (t : Transfer) (watching : Watching) (course : List Turn) (c : CommandRef)
    (below tasks : List Task) (task : Task) : Prop where
  stack : e'.stack = tasks ++ task :: below
  chores : ∀ t ∈ tasks, t.isChore = true
  above : task.isBase = false ∧ task.isChore = false
  tried : Tried settings e' r t watching (⟨e, m, e'⟩ :: course) (some c)
    [task, .resume r (following t (.waiting watching))]

/-- The caller goes on to wait, or to try again. -/
theorem Tried.onward_of_waiter (tasks : List Task) {task' : Task} {left' : Nat} {trial : Trial}
    (hs' : e'.stack = tasks ++ task' :: below) (htasks : ∀ t ∈ tasks, t.isChore = true)
    (hw' : task'.waiter? = some ⟨r, c, .retrying watching left'⟩)
    (hn : n + left' = settings.attempts)
    (htries : Tries r c (⟨e, m, e'⟩ :: course) n trial) (hstage : e'.Stage c task' trial) :
    Onward settings e e' m r t watching course c below tasks task' := by
  refine ⟨hs', htasks, ⟨?_, Task.isChore_of_waiter? hw'⟩, .waiting hw' hn htries hstage⟩
  cases hbase : task'.isBase with
  | false => rfl
  | true =>
    rw [Task.waiter?_of_base hbase] at hw'
    cases hw'

section onward

variable {left : Nat} {trial : Trial} (h : Run settings turns e)
  (hcall : ∀ call, m ≠ .call call) (hm : e.move? m = some e') (hs : e.stack = task :: below)
  (hw : task.waiter? = some ⟨r, c, .retrying watching left⟩)

include h hcall hm hs hw

/-- The caller has its reply. -/
theorem Tried.onward_of_reply {reply : Reply} (hs' : e'.stack = .reply reply :: below)
    (hle : n ≤ settings.attempts) (htells : trial.Tells settings.attempts n reply)
    (htries : Tries r c (⟨e, m, e'⟩ :: course) n trial) (hover : ¬ e'.Lives c) :
    Onward settings e e' m r t watching course c below [] (.reply reply) := by
  refine ⟨hs', List.forall_mem_nil _, ⟨rfl, rfl⟩, .settled .replied hle htells htries ?_ hover ?_⟩
  · have hlt := (h.sound.tasks task (hs ▸ List.mem_cons_self)).2 c (Task.mem_commands_of_waiter? hw)
    have hgrown := (h.sound.extends (fun call heq => absurd heq (hcall call)) hm).length_le
    exact Nat.lt_of_lt_of_le hlt hgrown
  · rintro ⟨t, ht, w, hw', hsame⟩
    rw [hs'] at ht
    rcases List.mem_cons.1 ht with rfl | ht
    · cases hw'
    · exact h.sound.not_awaited_below hs hw ⟨t, ht, w, hw', hsame⟩

end onward

/-- A caller begins its next attempt, unless none is left or the router is detached. -/
theorem Tried.retried {left : Nat} {trial : Trial} (h : Run settings turns e)
    (hm : e.move? .proceed = some e') (hw : w = ⟨r, c, .retrying watching left⟩)
    (hs : e.stack = .attempt w :: below) (he' : e' = ({ e with stack := below } : Engine).retry w)
    (hn : n + left = settings.attempts) (htries : Tries r c course n trial)
    (hstage : e.Stage c (.attempt w) trial) :
    ∃ tasks task', Onward settings e e' .proceed r t watching course c below tasks task' := by
  have hcall : ∀ call, Move.proceed ≠ .call call := nofun
  have ha : ∀ call, Move.proceed = .call call → e.Allows call := nofun
  have hpop : e.stack = [Task.attempt w] ++ below := hs
  have hrest := (h.sound.pop hpop).toStored
  obtain ⟨rfl, hover⟩ : trial = .pausing ∧ ¬ e.Lives c := by
    cases hstage with
    | next w hover => exact ⟨rfl, hover⟩
    | trying htask | expired htask | ended htask => exact absurd rfl (htask _)
  have hwaits : (Task.attempt w).waiter? = some ⟨r, c, .retrying watching left⟩ := congrArg some hw
  subst hw
  cases left with
  | zero =>
    have a : e.Alike e' := he' ▸ (hrest.alike_push _).restacked
    have hlives := h.over_kept ha hm (attempt_of_substance (a.commands c).substance) hover
    exact ⟨_, _, onward_of_reply h hcall hm hs hwaits (he' ▸ rfl) (Nat.le_of_eq hn) (.timeout hn)
      (.aside htries (a.spares _ _)) hlives⟩
  | succ left =>
    obtain ⟨⟨⟨hknown, old, hc, howns, -⟩, hq, -⟩, -⟩ :=
      h.sound.tasks _ (hs ▸ List.mem_cons_self)
    obtain ⟨router, hr⟩ := router_of_known h.sound.toStored hknown
    obtain ⟨begun, hstack⟩ := hrest.launch_spec hr hc hq [.watch ⟨r, c, .retrying watching left⟩]
    have begun : e.Begun e' r c router old := he' ▸ begun.restacked
    have hstack : e'.stack = (if router.detached then [Task.reply (.error .notFound)]
        else [Task.drain r, Task.watch ⟨r, c, .retrying watching left⟩]) ++ below := he' ▸ hstack
    have commences := begun.commences hq howns
    cases hd : router.detached with
    | true =>
      rw [hd] at hstack
      have hexpiring := expiring_swap _ [_] hpop hstack (List.forall_mem_singleton.2 rfl)
        (List.forall_mem_singleton.2 rfl)
      have hmembers (r' : RouterRef) := (begun.members r').trans (if_neg (by simp [hd]))
      have hlives := (lives_iff_of_same (c := c) hmembers hexpiring).not.2 hover
      have refuses : Turn.Refuses ⟨e, .proceed, e'⟩ r c :=
        ⟨⟨router, hr, hd⟩, fun hq' => hlives (lives_iff.2 (.inl hq'))⟩
      have hlt : n < settings.attempts := by omega
      exact ⟨_, _, onward_of_reply h hcall hm hs hwaits hstack (Nat.le_of_lt hlt) (.refused hlt)
        (.refused htries refuses) hlives⟩
    | false =>
      rw [hd] at hstack
      have hqueued := (begun.members r).trans (if_pos ⟨rfl, hd⟩)
      have launches : Turn.Launches ⟨e, .proceed, e'⟩ r c :=
        ⟨hq, commences.attempt, (commences.begun r).trans (if_pos rfl), hqueued⟩
      obtain ⟨new, hnew, hsub, -⟩ := begun.after
      have hopen : e'.Open c :=
        ⟨lives_iff.2 (.inl ⟨r, hqueued ▸ List.mem_append_right _ List.mem_cons_self⟩), new, hnew,
          congrArg (·.pollComplete) hsub⟩
      exact ⟨_, _, onward_of_waiter [.drain r] hstack (List.forall_mem_singleton.2 rfl) rfl
        (by omega) (.launched htries launches) (.trying nofun hopen)⟩

/-- A caller starts to wait. -/
theorem Tried.watched {left : Nat} {trial : Trial} {deadline : Nat} (h : Run settings turns e)
    (hw : w = ⟨r, c, .retrying watching left⟩) (hs : e.stack = .watch w :: below)
    (he' : e' = ({ e with stack := below } : Engine).push [.await w deadline])
    (hn : n + left = settings.attempts) (htries : Tries r c course n trial)
    (hstage : e.Stage c (.watch w) trial) :
    ∃ tasks task', Onward settings e e' m r t watching course c below tasks task' := by
  have hpop : e.stack = [Task.watch w] ++ below := hs
  have a : e.Alike e' := he' ▸ ((h.sound.pop hpop).toStored.alike_push _).restacked
  have hs' : e'.stack = [Task.await w deadline] ++ below := he' ▸ rfl
  have hexpiring := expiring_swap _ _ hpop hs' (List.forall_mem_singleton.2 rfl)
    (List.forall_mem_singleton.2 rfl)
  exact ⟨_, _, onward_of_waiter [] hs' (List.forall_mem_nil _) (congrArg some hw) hn
    (.aside htries (a.spares _ _))
    (hstage.moved nofun nofun (he' ▸ rfl) (lives_iff_of_same a.members hexpiring))⟩

/-- A caller learns how its attempt has ended. -/
theorem Tried.settles {left : Nat} {trial : Trial} (h : Run settings turns e)
    (hm : e.move? .proceed = some e') (hw : w = ⟨r, c, .retrying watching left⟩)
    (hs : e.stack = task :: below)
    (htask : task = .claimed w ∨ ∃ deadline, task = .await w deadline)
    (hsettle : ({ e with stack := below } : Engine).settle? w = some e')
    (hn : n + left = settings.attempts) (htries : Tries r c course n trial)
    (hstage : e.Stage c task trial) :
    ∃ tasks task', Onward settings e e' .proceed r t watching course c below tasks task' := by
  have hcall : ∀ call, Move.proceed ≠ .call call := nofun
  have ha : ∀ call, Move.proceed = .call call → e.Allows call := nofun
  have hpop : e.stack = [task] ++ below := hs
  have hwaits : task.waiter? = some ⟨r, c, .retrying watching left⟩ := by
    rcases htask with rfl | ⟨deadline, rfl⟩ <;> exact congrArg some hw
  subst hw
  obtain ⟨-, -, a, -⟩ := (h.sound.pop hpop).toStored.settle?_spec hsettle
  have hspares := a.restacked.spares .proceed c
  have seen {command : Command} (hc : e.command? c = some command) :=
    settle?_retrying (e := { e with stack := below }) (w := ⟨r, c, .retrying watching left⟩) rfl hc
      (h.clear c command hc)
  -- the attempt has ended in this way, and the caller goes on with this task
  have follows {ending : Ending} (hshut : e.Shut c ending) : ¬ e'.Lives c ∧ e'.stack =
      (if ending = .expired then .attempt ⟨r, c, .retrying watching left⟩
        else .reply ending.reply) :: below := by
    obtain ⟨command, hc, hverdict⟩ := hshut.ended
    obtain ⟨next, hnext, hstack⟩ := (seen hc).2 ending hverdict
    cases hnext.symm.trans hsettle
    exact ⟨h.over_kept ha hm hspares.attempt hshut.closed, hstack⟩
  cases hstage with
  | next w => rcases htask with heq | ⟨deadline, heq⟩ <;> cases heq
  | trying hnot hopen =>
    obtain ⟨command, hc, hpoll⟩ := hopen.unended
    cases ((seen hc).1 hpoll).symm.trans hsettle
  | expired hnot hshut =>
    obtain ⟨hlives, hstack⟩ := follows hshut
    exact ⟨_, _, onward_of_waiter [] hstack (List.forall_mem_nil _) rfl hn
      (.aside htries hspares) (.next _ hlives)⟩
  | @ended _ ending hnot hending hshut =>
    obtain ⟨hlives, hstack⟩ := follows hshut
    rw [if_neg hending] at hstack
    exact ⟨_, _, onward_of_reply h hcall hm hs hwaits hstack (hn ▸ Nat.le_add_right n left)
      (.ended ending) (.aside htries hspares) hlives⟩

/-- A caller gives its attempt up, unless that has been claimed. -/
theorem Tried.gaveUp {left : Nat} {trial : Trial} {deadline : Nat} (h : Run settings turns e)
    (hw : w = ⟨r, c, .retrying watching left⟩) (hs : e.stack = .await w deadline :: below)
    (he' : e' = ({ e with stack := below } : Engine).withdraw w)
    (hn : n + left = settings.attempts) (htries : Tries r c course n trial)
    (hstage : e.Stage c (.await w deadline) trial) :
    ∃ tasks task', Onward settings e e' .giveUp r t watching course c below tasks task' := by
  have hpop : e.stack = [Task.await w deadline] ++ below := hs
  have hrest := (h.sound.pop hpop).toStored
  obtain ⟨hattends, -⟩ := h.sound.tasks _ (hs ▸ List.mem_cons_self)
  obtain ⟨router, hr⟩ := router_of_known h.sound.toStored hattends.1
  have hspec := hrest.withdraw_spec hr
  rw [← he'] at hspec
  rcases hspec with ⟨a, hstack⟩ | ⟨mid, old, expired, changed, hmem, forced, hstack⟩
  · have a := a.restacked
    have hexpiring := expiring_swap _ [_] hpop hstack (List.forall_mem_singleton.2 rfl)
      (List.forall_mem_singleton.2 rfl)
    have hverdicts : e'.commands.verdicts = e.commands.verdicts :=
      he' ▸ (still_withdraw { e with stack := below } w).verdicts
    exact ⟨_, _, onward_of_waiter [] hstack (List.forall_mem_nil _) (congrArg some hw) hn
      (.aside htries (a.spares _ _))
      (hstage.moved nofun nofun hverdicts (lives_iff_of_same a.members hexpiring))⟩
  · subst hw
    have changed := changed.restacked
    have hq : e.Queued c := ⟨r, hmem⟩
    have hmid := (changed.passes h.sound.toStored rfl (fun _ => id) nofun).stored
    have hgone := changed.not_queued h.sound.toStored
    have hunqueued : ¬ e'.Queued c := fun hq' => hgone ((forced.queued_iff hmid c).1 (.inl hq'))
    have htrying : trial = .trying := by
      cases hstage with
      | trying => rfl
      | expired hnot hshut | ended hnot hending hshut =>
        exact absurd (lives_iff.2 (.inl hq)) hshut.closed
    subst htrying
    have hstack' : e'.stack = expired.toList.map (.expire r) ++ [Task.drain r, Task.kick] ++
        .attempt ⟨r, c, .retrying watching left⟩ :: below := by
      rw [hstack]
      simp [afterTimeout]
    have hexpiring := withdrawn_expiring hs hstack' (by simp [Task.isQuiet])
      (.inr ⟨rfl, watching, left, rfl⟩)
    have hlives : ¬ e'.Lives c := by
      rw [lives_iff, hexpiring]
      rintro (hq' | hmem')
      · exact hunqueued hq'
      · rcases List.mem_append.1 hmem' with hmem' | hmem'
        · exact hgone (forced.was_queued hmid (r, c) (List.mem_map.2 ⟨c, hmem', rfl⟩))
        · exact h.sound.not_queued_of_expiring hmem' hq
    have abandons : Turn.Abandons ⟨e, .giveUp, e'⟩ c :=
      ⟨⟨_, deadline, below, hs, rfl⟩, rfl, hq, hunqueued⟩
    have hquiet : ∀ t ∈ [Task.drain r, .kick], t.isQuiet = true := by simp [Task.isQuiet]
    exact ⟨_, _, onward_of_waiter _ hstack' (Task.isChore_withdrawn hquiet r expired) rfl hn
      (.abandoned htries abandons) (.next _ hlives)⟩

/-- A call is given its command. -/
theorem Tried.made (h : Run settings turns e)
    (hnone : ∀ c : CommandRef, e.commands.length ≤ c.index → Tries r c course 0 .pausing)
    {made : Command} (hs : e.stack = .allocate r made (.waiting watching) :: below)
    (he' : e' = ({ e with stack := below } : Engine).begin r made (.waiting watching)) :
    Tried settings e' r t watching (⟨e, m, e'⟩ :: course) (some ⟨e.commands.length⟩)
      [.attempt ⟨r, ⟨e.commands.length⟩, .retrying watching settings.attempts⟩,
        .resume r (following t (.waiting watching))] := by
  have hpop : e.stack = [Task.allocate r made (.waiting watching)] ++ below := hs
  obtain ⟨-, -, hmade⟩ := (h.sound.tasks (.allocate r made _) (hs ▸ List.mem_cons_self)).1
  have hcommands : e'.commands = (e.commands.add made).2 := he' ▸ rfl
  have hstack : e'.stack = [Task.attempt ⟨r, ⟨e.commands.length⟩,
      .retrying watching e.topology.settings.attempts⟩] ++ below := he' ▸ rfl
  have hqueues (r' : RouterRef) : (e'.queue r').members = (e.queue r').members := by
    rw [he']
    rfl
  have hunmade : e.command? ⟨e.commands.length⟩ = none := List.getElem?_eq_none (Nat.le_refl _)
  have hnew : e'.command? ⟨e.commands.length⟩ = some made := by
    unfold command?
    rw [hcommands, Commands.get?_add, if_pos rfl]
  have hidle : ¬ e.Lives ⟨e.commands.length⟩ := by
    rintro (hq | ⟨r', hmem⟩)
    · exact Nat.lt_irrefl _ (h.sound.lt_of_queued hq)
    · exact Nat.lt_irrefl _ ((h.sound.tasks _ hmem).2 _ List.mem_cons_self)
  have hexpiring := expiring_swap _ _ hpop hstack (List.forall_mem_singleton.2 rfl)
    (List.forall_mem_singleton.2 rfl)
  have hlives := (lives_iff_of_same (c := ⟨e.commands.length⟩) hqueues hexpiring).not.2 hidle
  have hspares : Turn.Spares ⟨e, m, e'⟩ ⟨e.commands.length⟩ := by
    refine ⟨?_, fun ending ends => ?_, fun hq => absurd (lives_iff.2 (.inl hq)) hlives⟩
    · show e'.attempt _ = e.attempt _
      rw [attempt_of_command hnew, hmade]
      unfold Engine.attempt
      rw [hunmade]
      rfl
    · obtain ⟨command, hc, -⟩ := ends.before
      cases hc.symm.trans hunmade
  exact .waiting rfl (Nat.zero_add _) (.aside (hnone _ (Nat.le_refl _)) hspares) (.next _ hlives)

/-- A call that has its reply goes on to its answer. -/
theorem Replied.advanced {style : Style} {reply : Reply} (hr : Replied r t style reply part)
    (hcall : ∀ call, m ≠ .call call) (hm : e.move? m = some e')
    (a : e.Advances e' part part' tasks below) :
    Replied r t style reply part' := by
  have hbefore := a.before
  -- the engine goes on by itself, and this is what comes of the tasks of the call
  have goes {next : List Task} (hp : e.pause = .working) (hstep : e.step.stack = next ++ below)
      (hnext : Segment next) (hreplied : Replied r t style reply next) :
      Replied r t style reply part' := by
    rcases step_of_working hp hm with rfl | hsame
    · have hstack : e.step.stack = [] ++ next ++ below := hstep
      rw [a.becomes_eq hstack (List.forall_mem_nil _) hnext]
      exact hreplied
    · exact absurd hsame (a.stirs [])
  cases hr with
  | replied =>
    refine goes ?_ ?_ (.base rfl) .concluded
    · unfold pause
      rw [hbefore]
      rfl
    · unfold step
      rw [hbefore]
      rfl
  | concluded =>
    refine goes ?_ ?_ (.base rfl) .answered
    · unfold pause
      rw [hbefore]
      rfl
    · unfold step
      rw [hbefore]
      rfl
  | answered =>
    -- the answer can only be taken, and then the call is over
    have hlength := congrArg List.length a.after
    have hpart : 0 < part'.length := by
      obtain ⟨t', ht', -⟩ := a.becomes.exists_base
      exact List.length_pos_of_mem ht'
    cases m with
    | collect =>
      have htaken : { e with stack := below } = e' := by
        simpa [move?, collected?, hbefore] using hm
      rw [← htaken] at hlength
      simp only [List.length_append] at hlength
      omega
    | receive arrival =>
      obtain ⟨added, hgrown⟩ := receive_grows e arrival
      exact absurd ((receive_of_receive hm) ▸ hgrown) (a.stirs added)
    | elapse ms =>
      cases hm
      exact absurd rfl (a.stirs [])
    | call call => exact absurd rfl (hcall call)
    | proceed => simp [move?, canProceed, pause, hbefore] at hm
    | grant answer => simp [move?, granted?, hbefore] at hm
    | back => simp [move?, returned?, hbefore] at hm
    | giveUp => simp [move?, canProceed, pause, gaveUp?, hbefore] at hm

/-- A turn takes the innermost call further. -/
theorem Tried.advanced {progress : Progress}
    (hl : Tried settings e r t watching course command part) (h : Run settings turns e)
    (hcall : ∀ call, m ≠ .call call) (hm : e.move? m = some e')
    (a : e.Advances e' part part' tasks below)
    (hstands : e.Stands (.operate r (.transfer t (.waiting watching))) progress part) :
    Tried settings e' r t watching (⟨e, m, e'⟩ :: course)
      ((Turn.made? ⟨e, m, e'⟩).orElse fun _ => command) part' := by
  have ha : ∀ call, m = .call call → e.Allows call := fun call heq => absurd heq (hcall call)
  have hgrown := (h.sound.extends ha hm).length_le
  -- unless the call is given its frame, no command is made
  have unmade (hlt : ¬ e.commands.length < e'.commands.length) :
      (Turn.made? ⟨e, m, e'⟩).orElse (fun _ => command) = command := by
    rw [show Turn.made? ⟨e, m, e'⟩ = none from if_neg hlt]
    cases command <;> rfl
  have framed {top : Task} {rest : List Task} (hs : e.stack = top :: rest)
      (hlt : e.commands.length < e'.commands.length) :
      ∃ r made style, top = .allocate r made style := by
    obtain ⟨r', made, style, below', hs', -⟩ := h.sound.begin_of_grown hm hlt
    exact ⟨r', made, style, (List.cons.inj (hs.symm.trans hs')).1⟩
  have hbefore := a.before
  cases hl with
  | unmade hnone =>
    by_cases hlt : e.commands.length < e'.commands.length
    · obtain ⟨r', made, style, below', hs, he'⟩ := h.sound.begin_of_grown hm hlt
      rw [show Turn.made? ⟨e, m, e'⟩ = some ⟨e.commands.length⟩ from if_pos hlt]
      cases hstands with
      | framing hcarries =>
        obtain ⟨heq, rfl⟩ := List.cons.inj (hbefore.symm.trans hs)
        cases heq
        have hsettings : e.topology.settings = settings := h.explored.settings_eq
        have hstack : e'.stack = [] ++ [Task.attempt ⟨r, ⟨e.commands.length⟩, .retrying watching
            settings.attempts⟩, Task.resume r (following t (.waiting watching))] ++ below := by
          rw [he', ← hsettings]
          rfl
        rw [a.becomes_eq hstack (List.forall_mem_nil _) (.above rfl rfl)]
        exact Tried.made h hnone hs he'
      | waiting hw =>
        obtain ⟨r', made, style, rfl⟩ := framed hbefore hlt
        cases hw
      | asking | replied | concluded | answered => cases (List.cons.inj (hbefore.symm.trans hs)).1
      | plain hplain => exact absurd rfl (hplain _ _ _)
    · rw [unmade hlt]
      refine .unmade fun c hc => .aside (hnone c (Nat.le_trans hgrown hc)) ?_
      exact (h.next ha hm).spares_unmade hgrown hc
  | @waiting c task left n trial hw hn htries hstage =>
    rw [unmade fun hlt => ?_]
    · obtain ⟨tasks', task', onward⟩ : ∃ tasks' task', Onward settings e e' m r t watching course c
          (.resume r (following t (.waiting watching)) :: below) tasks' task' := by
        cases heeds_of_stirs hm hcall a.stirs hbefore hw with
        | retried => exact Tried.retried h hm (Option.some.inj hw) hbefore rfl hn htries hstage
        | watched => exact Tried.watched h (Option.some.inj hw) hbefore rfl hn htries hstage
        | settled htask hsettle =>
          exact Tried.settles h hm rfl hbefore htask hsettle hn htries hstage
        | gaveUp deadline => exact Tried.gaveUp h (Option.some.inj hw) hbefore rfl hn htries hstage
      have hstack : e'.stack =
          tasks' ++ [task', .resume r (following t (.waiting watching))] ++ below := by
        simp [onward.stack]
      rw [a.becomes_eq hstack onward.chores (.above onward.above.1 onward.above.2)]
      exact onward.tried
    · obtain ⟨r', made, style, rfl⟩ := framed hbefore hlt
      cases hw
  | @settled c part reply n trial hreplied hle htells htries hlt hover hnot =>
    have hc : e.Unattended e' c := unattended_of_not_awaited hnot
    rw [unmade fun hgrown => ?_]
    · exact .settled (hreplied.advanced hcall hm a) hle htells
        (.aside htries (h.spares_over ha hm hc hlt hover)) (Nat.lt_of_lt_of_le hlt hgrown)
        (h.over_kept ha hm (h.attempt_unattended ha hm hc hlt) hover)
        fun haw => hnot (h.awaited_was ha hm hlt haw)
    · cases hreplied with
      | replied | concluded | answered =>
        obtain ⟨r', made, style, heq⟩ := framed hbefore hgrown
        cases heq

end tried

/-! ## Runs -/

/-- **The history of every call in progress** that waits for its transfer. -/
theorem Run.tried (h : Run settings turns e) :
    List.Forall₂ (fun session part => ∀ r t watching,
      session.call = .operate r (.transfer t (.waiting watching)) →
      Tried settings e r t watching session.course session.command part)
      (sessions settings turns) (segments e.stack) := by
  refine h.along (P := fun _ e session part => ∀ r t watching,
    session.call = .operate r (.transfer t (.waiting watching)) →
    Tried settings e r t watching session.course session.command part) ?start ?called ?left
    ?advanced
  case start =>
    intro t _ r transfer watching hcall
    cases hcall
  case called =>
    intro turns e call e' t tasks prior k hm ht he' htasks r transfer watching hcall
    exact .unmade fun c hc => .none
  case left =>
    intro turns e m e' session part gone tasks below prior ha hm hp he he' hpart r t watching hcall
    exact (hp r t watching hcall).left prior ha hm he he' hpart
  case advanced =>
    intro turns e m e' session part part' tasks below prior hcall hm k hhead hp a r t watching hw
    obtain ⟨progress, hstands⟩ := prior.innermost hhead a.before a.was
    rw [show session.call = _ from hw] at hstands
    exact (hp r t watching hw).advanced prior hcall hm a hstands

theorem exists_of_forall₂ {α β : Type} {p : α → β → Prop} {l : List α} {l' : List β} {a : α}
    (h : List.Forall₂ p l l') (ha : a ∈ l) :
    ∃ b, p a b ∧ (l.head? = some a → l'.head? = some b) := by
  induction h with
  | nil => cases ha
  | @cons x y l l' hxy hrest ih =>
    by_cases hax : x = a
    · exact ⟨y, hax ▸ hxy, fun _ => rfl⟩
    · obtain ⟨b, hb, -⟩ := ih ((List.mem_cons.1 ha).resolve_left (Ne.symm hax))
      exact ⟨b, hb, fun hhead => absurd (Option.some.inj hhead) hax⟩

/-- **The attempts of a waiting caller.** The turns of a call that waits for its transfer are a
history of attempts, of which there are no more than the settings allow. When the call has its
answer, its command is in no queue, and the answer is what its caller is told after that history: a
timeout after all attempts, what the last attempt has ended with, or that the router is gone. -/
theorem Run.tries (h : Run settings turns e) {session : Session}
    (hsession : session ∈ sessions settings turns) {t : Transfer} {watching : Watching}
    (hcall : session.call = .operate r (.transfer t (.waiting watching)))
    (hcommand : session.command = some c) :
    ∃ n trial, Tries r c session.course n trial ∧ n ≤ settings.attempts ∧
      ∀ result, (sessions settings turns).head? = some session → e.pause = .answered result →
        ¬ e.Queued c ∧ ∃ reply, trial.Tells settings.attempts n reply ∧
          result = conclusion t (.waiting watching) reply := by
  obtain ⟨part, htried, hhead⟩ := exists_of_forall₂ h.tried hsession
  have htried := htried r t watching hcall
  rw [hcommand] at htried
  -- the tasks of a call that has its answer
  have answered {result : Outcome Answer} (hinnermost : (sessions settings turns).head? =
      some session) (hpause : e.pause = .answered result) : part = [.answer result] := by
    have hfirst := hhead hinnermost
    unfold pause at hpause
    split at hpause
    case h_2 result' below hs =>
      cases hpause
      rw [hs, segments_base rfl] at hfirst
      exact (Option.some.inj hfirst).symm
    case h_7 =>
      split at hpause <;> cases hpause
    case h_10 | h_11 =>
      split at hpause <;> cases hpause
    all_goals cases hpause
  cases htried with
  | waiting hw hn htries hstage =>
    refine ⟨_, _, htries, hn ▸ Nat.le_add_right _ _, fun result hinnermost hpause => ?_⟩
    cases answered hinnermost hpause
  | settled hreplied hle htells htries hlt hover hnot =>
    refine ⟨_, _, htries, hle, fun result hinnermost hpause => ?_⟩
    obtain rfl := answered hinnermost hpause
    cases hreplied
    exact ⟨fun hq => hover (lives_iff.2 (.inl hq)), _, htells, rfl⟩

/-- A word is read from the host router, and the second attempt is answered. -/
def triedMoves : List Move :=
  hostMoves hostWords ++
  ([.call (.operate ⟨0⟩ (.transfer (.read .router 0 64 1) (.waiting .woken))), .proceed,
    .grant (.ok ()), .proceed, .proceed, .grant (.ok ()), .proceed, .proceed, .elapse 2000,
    .giveUp, .proceed, .proceed, .proceed, .proceed, .proceed, .grant (.ok ()), .proceed, .proceed,
    .receive (.sent (some (.command ⟨0⟩ ⟨2⟩ 2))), .collect, .receive (.received .read .read
      (ReadResponse.encode ⟨Route.root, ⟨.router, 0, 64, 1, 2⟩, [7]⟩)),
    .proceed, .proceed, .proceed, .proceed, .collect, .proceed, .proceed, .proceed] : List Move)

/-- The answer that is to be collected. -/
def Pause.answered? : Pause → Option (Outcome Answer)
  | .answered result => some result
  | _ => none

theorem Pause.eq_of_answered? {pause : Pause} {result : Outcome Answer}
    (h : pause.answered? = some result) : pause = .answered result := by
  cases pause <;> cases h
  rfl

/-- A call answers with the words that its second attempt has read. -/
theorem second_attempt_answered : ∃ turns e session n trial, Run {} turns e ∧
    session ∈ sessions {} turns ∧
    session.call = .operate ⟨0⟩ (.transfer (.read .router 0 64 1) (.waiting .woken)) ∧
    session.command = some ⟨1⟩ ∧ e.pause = .answered (.ok (.words [7])) ∧
    Tries ⟨0⟩ ⟨1⟩ session.course n trial ∧ n ≤ Settings.attempts {} ∧ ¬ e.Queued ⟨1⟩ := by
  have played : (replay? {} triedMoves.reverse).any (fun p =>
      decide (p.2.pause.answered? = some (.ok (.words [7]))) &&
      (sessions {} p.1).head?.any fun session =>
        decide (session.call =
          .operate ⟨0⟩ (.transfer (.read .router 0 64 1) (.waiting .woken))) &&
        decide (session.command = some ⟨1⟩)) = true := by
    decide +kernel
  obtain ⟨turns, e, run, hcheck⟩ := exists_of_replay? played
  simp only [Bool.and_eq_true, Option.any_eq_true, decide_eq_true_eq] at hcheck
  obtain ⟨hanswer, session, hhead, hcall, hcommand⟩ := hcheck
  have hpause := Pause.eq_of_answered? hanswer
  have hmem : session ∈ sessions {} turns := List.mem_of_mem_head? hhead
  obtain ⟨n, trial, htries, hle, hends⟩ := run.tries hmem hcall hcommand
  exact ⟨turns, e, session, n, trial, run, hmem, hcall, hcommand, hpause, htries, hle,
    (hends _ hhead hpause).1⟩

end RouterFabric
