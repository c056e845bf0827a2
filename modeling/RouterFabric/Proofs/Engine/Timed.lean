import RouterFabric.Proofs.Engine.Verdicts
import RouterFabric.Proofs.Run

/-!
# Since when a slot is held

A command notes the time at which it takes the slot of its router, and nothing but its next place in
the queue changes the note. So whatever holds a slot has held it since some time that has passed,
which is what makes an expiry of the slot a matter of waiting long enough.

* `Command.Timed`, `Commands.Timed` : a command that holds a slot knows since when
* `Sound.timed` : every move keeps that
* `Run.since` : since when the slot of a router is held
-/

namespace RouterFabric

/-- A command that holds a slot has held it since some time up to now. -/
def Command.Timed (now : Nat) (command : Command) : Prop :=
  command.phase = .inflight → ∃ since, command.since = some since ∧ since ≤ now

namespace Command

variable {command : Command} {now now' : Nat}

theorem Timed.later (h : command.Timed now) (hle : now ≤ now') : command.Timed now' := by
  intro hphase
  obtain ⟨since, hsince, hpast⟩ := h hphase
  exact ⟨since, hsince, Nat.le_trans hpast hle⟩

/-- Only the way into the slot sets the clock. -/
theorem timed_of_phase (h : command.phase ≠ .inflight) : command.Timed now :=
  fun hphase => absurd hphase h

theorem timed_inflight (command : Command) : (command.setPhase .inflight now).Timed now :=
  fun _ => ⟨now, rfl, Nat.le_refl now⟩

theorem Timed.mark (h : command.Timed now) (generation : Nat) (signal : Signal)
    (words : Option (List UInt32)) : (command.mark generation signal words).2.Timed now := by
  unfold Command.mark
  split <;> exact h

theorem Timed.markAll (h : command.Timed now) (generation : Nat) :
    (command.markAll generation).2.Timed now := by
  unfold Command.markAll
  split <;> exact h

theorem Timed.takeEnding (h : command.Timed now) : command.takeEnding.2.Timed now := by
  unfold Command.takeEnding
  split <;> exact h

end Command

namespace Commands

variable {cs : Commands} {c : CommandRef} {command command' : Command} {now now' : Nat}

/-- All commands of a store that hold a slot know since when. -/
def Timed (cs : Commands) (now : Nat) : Prop :=
  ∀ c command, cs.get? c = some command → command.Timed now

theorem Timed.later (h : cs.Timed now) (hle : now ≤ now') : cs.Timed now' :=
  fun c command hc => (h c command hc).later hle

theorem Timed.update (h : cs.Timed now) {f : Command → Command}
    (hf : ∀ command, command.Timed now → (f command).Timed now) : (cs.update c f).Timed now := by
  intro c' command' hc'
  rw [get?_update] at hc'
  split at hc'
  · obtain ⟨command, hc, rfl⟩ := Option.map_eq_some_iff.1 hc'
    exact hf command (h c' command hc)
  · exact h c' command' hc'

theorem Timed.set (h : cs.Timed now) (hc : cs.get? c = some command)
    (ht : command.Timed now → command'.Timed now) :
    Commands.Timed (cs.set c.index command') now := by
  intro c' command'' hc'
  rw [get?_set hc] at hc'
  split at hc'
  · cases hc'
    exact ht (h c command hc)
  · exact h c' command'' hc'

theorem Timed.change {α : Type} (h : cs.Timed now) {absent : α} {f : Command → α × Command}
    (hf : ∀ command, command.Timed now → (f command).2.Timed now) :
    (cs.change c absent f).2.Timed now := by
  unfold Commands.change
  split
  · exact h
  · rename_i command hc
    exact h.set hc (hf command)

theorem Timed.add (h : cs.Timed now) (hc : command.Timed now) :
    Commands.Timed (cs.add command).2 now := by
  intro c' command' hc'
  rw [get?_add] at hc'
  split at hc'
  · cases hc'
    exact hc
  · exact h c' command' hc'

theorem Timed.finish (h : cs.Timed now) (ending : Ending) :
    (cs.update c (·.finish ending)).Timed now :=
  h.update fun _ _ => Command.timed_of_phase nofun

theorem Timed.queued (h : cs.Timed now) : (cs.update c (·.setPhase .queued 0)).Timed now :=
  h.update fun _ _ => Command.timed_of_phase nofun

end Commands

namespace Engine

variable {e e' : Engine} {m : Move} {r : RouterRef} {c : CommandRef} {w : Waiter}

/-- Every command that holds a slot knows since when. -/
def Timed (e : Engine) : Prop :=
  e.commands.Timed e.now

/-! ## Sections -/

theorem Timed.launch (h : e.Timed) (r : RouterRef) (c : CommandRef) (next : List Task) :
    (e.launch r c next).Timed := by
  have begun (seq : Nat) : (e.commands.update c (·.beginAttempt seq)).Timed e.now :=
    Commands.Timed.update h fun _ _ => Command.timed_of_phase nofun
  unfold Engine.launch
  split
  · exact h
  · simp only
    split
    · exact begun _
    · exact (begun _).queued

theorem Timed.finish (h : e.Timed) (c : CommandRef) (ending : Ending) :
    (e.finish c ending).Timed := by
  unfold Engine.finish
  split
  · exact h
  · simp only
    split <;> exact Commands.Timed.finish h ending

theorem Timed.complete (h : e.Timed) (r : RouterRef) (c : CommandRef) (generation : Nat)
    (ending : Ending) : (e.complete r c generation ending).Timed := by
  unfold Engine.complete
  split
  · exact h
  · split
    · exact h
    · exact Timed.finish (e := Engine.push (Engine.count (e.setQueue r _) r _) _) h c ending

theorem Timed.retry (h : e.Timed) (w : Waiter) : (e.retry w).Timed := by
  unfold Engine.retry
  split
  · exact h
  · exact h.launch _ _ _
  · exact h.launch _ _ _

theorem Timed.settled (h : e.Timed) (hsettle : e.settle? w = some e') : e'.Timed := by
  unfold settle? at hsettle
  split at hsettle
  · cases hsettle
  · rename_i command hc
    split at hsettle
    · split at hsettle
      · cases hsettle
        exact h
      · cases hsettle
    · split at hsettle
      · have took : Commands.Timed (e.commands.set w.command.index command.takeEnding.2) e.now :=
          Commands.Timed.set h hc Command.Timed.takeEnding
        simp only at hsettle
        split at hsettle <;>
        · cases hsettle
          exact took
      · cases hsettle

theorem timed_expire {cs : Commands} {now : Nat} (h : cs.Timed now) (q : Queue) (limit : Nat) :
    (q.expire cs limit now).2.2.Timed now := by
  unfold Queue.expire
  split
  · exact h
  · split
    · exact h
    · rename_i command hc
      split
      · simp only
        split
        · exact h.set hc fun ht => ht.markAll _
        · exact h
      · exact h

theorem Timed.withdraw (h : e.Timed) (w : Waiter) : (e.withdraw w).Timed := by
  unfold Engine.withdraw
  split
  · exact h
  · split
    · exact h
    · exact timed_expire h _ _

theorem Timed.drain (h : e.Timed) (r : RouterRef) : (e.drain r).Timed := by
  rw [Engine.drain_eq]
  split
  · exact h
  · split
    · exact h
    · rename_i c line hline
      obtain ⟨-, rest, -, rfl⟩ := Queue.beginDrain_eq_some hline
      exact Commands.Timed.update h fun command _ => command.timed_inflight

theorem Timed.answerOffer (h : e.Timed) (r : RouterRef) (c : CommandRef)
    (answer : Except TransportFault Unit) : (e.answerOffer r c answer).Timed := by
  rw [Engine.answerOffer_eq]
  split
  · exact h
  · rename_i router _
    split
    · exact h
    · show (router.queue.defer e.commands c).2.2.Timed e.now
      unfold Queue.defer
      split
      · exact Commands.Timed.queued h
      · exact h
    · split
      · exact h
      · have marked : (e.commands.change c false fun command =>
            command.markAll command.generation).2.Timed e.now :=
          Commands.Timed.change h fun _ ht => ht.markAll _
        simp only
        split
        · exact Timed.finish (e := Engine.push { e.setQueue r _ with
            commands := (e.commands.change c false _).2 } _) marked c _
        · exact marked

theorem Timed.begin (h : e.Timed) (r : RouterRef) {command : Command}
    (hmade : command = command.made) (style : Style) : (e.begin r command style).Timed := by
  have idle (listener : Listener) :
      ({ command with listener := listener } : Command).Timed e.now := by
    refine Command.timed_of_phase ?_
    rw [hmade]
    nofun
  have added (listener : Listener) :
      Commands.Timed (e.commands.add { command with listener := listener }).2 e.now :=
    Commands.Timed.add h (idle listener)
  cases style with
  | waiting watching => exact added command.listener
  | callback tag =>
    exact Timed.launch (e := { e with commands := (e.commands.add _).2 }) (added _) _ _ _
  | future =>
    exact Timed.launch (e := { e with commands := (e.commands.add _).2 }) (added _) _ _ _

theorem Timed.signal (h : e.Timed) (r : RouterRef) (c : CommandRef) (generation : Nat)
    (signal : Signal) (words : Option (List UInt32)) :
    (e.signal r c generation signal words).Timed := by
  have marked : (e.commands.change c false (·.mark generation signal words)).2.Timed e.now :=
    Commands.Timed.change h fun _ ht => ht.mark _ _ _
  unfold Engine.signal
  simp only
  split
  · exact Timed.complete (e := { e with commands := _ }) (marked.change fun _ ht => ht) _ _ _ _
  · exact marked

theorem Timed.heard {arrival : Arrival} (h : e.Timed) (k : e.Heard arrival e') : e'.Timed := by
  cases k with
  | ignored | discarded | plugged => exact h
  | sent | answered => exact h.signal _ _ _ _ _
  | @interrupted _ _ _ r c command event =>
    have marked : (e.commands.change c false (·.markAll command.generation)).2.Timed e.now :=
      Commands.Timed.change h fun _ ht => ht.markAll _
    simp only
    split
    · exact Timed.complete (e := { e with commands := _ }) marked _ _ _ _
    · exact marked

theorem Timed.expireEach (h : e.Timed) (rs : List RouterRef) : (e.expireEach rs).2.Timed := by
  induction rs generalizing e with
  | nil => exact h
  | cons r rest ih =>
    unfold Engine.expireEach
    split
    · exact ih h
    · exact ih (e := e.setLine r _) (timed_expire h _ _)

theorem Timed.removeEach (h : e.Timed) (pairs : List (NodeId × RouterRef)) :
    (e.removeEach pairs).2.Timed := by
  induction pairs generalizing e with
  | nil => exact h
  | cons p rest ih =>
    unfold Engine.removeEach
    simp only
    split
    · exact h
    · exact ih h

theorem now_call {call : Call} (hno : ∀ r, call ≠ .detach r) : (e.call call).now = e.now := by
  cases call with
  | attachRoot settings =>
    show (e.attachRoot settings).now = _
    unfold attachRoot
    simp only
    split <;> rfl
  | attachChild parent route =>
    show (e.attachChild parent route).now = _
    unfold attachChild
    split
    · rfl
    · simp only
      split <;> rfl
  | detach r => exact absurd rfl (hno r)
  | resume r =>
    show (e.resume r).now = _
    unfold Engine.resume
    split
    · rfl
    · split <;> rfl
  | operate r operation =>
    show (e.operate r operation).now = _
    unfold operate
    split <;> rfl

theorem Timed.call (h : e.Timed) (call : Call) : (e.call call).Timed := by
  by_cases hdetach : ∃ r, call = .detach r
  · obtain ⟨r, rfl⟩ := hdetach
    show (e.detach r).Timed
    unfold Engine.detach
    simp only
    split
    · exact h
    · show (removeSubtree _ _ _).2.Timed
      unfold removeSubtree
      split
      · exact h.expireEach _
      · exact (h.expireEach _).removeEach _
  · have hno (r : RouterRef) (heq : call = .detach r) : False := hdetach ⟨r, heq⟩
    unfold Engine.Timed
    rw [commands_call hno, now_call hno]
    exact h

/-! ## Moves -/

theorem now_meet (e : Engine) (r : RouterRef) (request : Request) :
    (e.meet r request).now = e.now := by
  cases request with
  | pause | fallAsleep => rfl
  | transfer t style =>
    show (e.issue r t style).now = _
    unfold issue
    simp only
    split
    · rfl
    · split
      · rfl
      · split
        · rfl
        · split
          · rfl
          · split <;> rfl
  | enrol identity =>
    show (e.enrol r identity).now = _
    unfold enrol
    split
    · rfl
    · split <;> rfl
  | unlink =>
    show (e.unlink r).now = _
    unfold unlink
    split <;> rfl

/-- Every move keeps since when slots are held. -/
theorem Sound.timed (h : e.Sound) (ht : e.Timed) (hm : e.move? m = some e') : e'.Timed := by
  have kept (hcommands : e'.commands = e.commands) (hnow : e'.now = e.now) : e'.Timed := by
    unfold Timed
    rw [hcommands, hnow]
    exact ht
  have popped (below : List Task) : ({ e with stack := below } : Engine).Timed := ht
  cases acts_of_move? hm with
  | dropped | concluded | watched | kicked | announced | unframed | unregistered | acknowledging
  | acknowledged | collected => exact ht
  | asked => exact kept (commands_meet ..) (now_meet ..)
  | replied =>
    unfold passOn
    split <;> exact ht
  | retried => exact (popped _).retry _
  | settled _ _ hsettle => exact (popped _).settled hsettle
  | drained => exact (popped _).drain _
  | @toured ids => cases ids <;> exact ht
  | @expired r c below =>
    exact Timed.finish (e := Engine.push (Engine.count { e with stack := below } r _) _) ht c _
  | @framed r command style below hs =>
    obtain ⟨-, -, hmade⟩ := (h.tasks (.allocate r command style) (hs ▸ List.mem_cons_self)).1
    exact (popped below).begin r hmade style
  | answered => exact (popped _).answerOffer _ _ _
  | registered =>
    unfold linkRoot
    simp only
    split <;> exact ht
  | gaveUp => exact (popped _).withdraw _
  | called call => exact ht.call call
  | received arrival => exact Timed.heard (e := e.push _) ht (heard_receive e arrival)
  | elapsed ms => exact Commands.Timed.later ht (Nat.le_add_right ..)

end Engine

variable {settings : Settings} {turns : List Turn} {e : Engine} {r : RouterRef} {c : CommandRef}
  {command : Command}

theorem Run.timed (h : Run settings turns e) : e.Timed := by
  induction h with
  | start =>
    intro c command hc
    cases (command?_opening settings c).symm.trans hc
  | next prior _ hm ih => exact prior.sound.timed ih hm

/-- **Whatever holds a slot has held it since some time that has passed.** -/
theorem Run.since (h : Run settings turns e) (hs : (e.queue r).slot = some c)
    (hc : e.command? c = some command) : ∃ since, command.since = some since ∧ since ≤ e.now := by
  obtain ⟨command', hc', hphase⟩ := (h.sound.orderly r).inflight c hs
  cases hc'.symm.trans hc
  exact h.timed c command hc hphase

end RouterFabric
