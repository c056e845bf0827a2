import RouterFabric.Proofs.Engine.Sound

/-!
# How attempts have ended

A command keeps how its current attempt has ended until the caller that waits for it takes note.
Nothing else touches what is kept: signals, queues and the transport only ever end an attempt that
has not ended, and what a caller sees of a command does not depend on how it looks.

* `Command.verdict` : whether the current attempt has ended, and how
* `Command.Clear` : whoever looks at the command sees the same
* `Commands.Still`, `Commands.Shifts` : nothing that is kept changes, or what one command keeps
* `Engine.Rules`, `Sound.rules` : what a move does to what commands keep
-/

namespace RouterFabric

/-- Whether the current attempt of a command has ended, and how, until that is taken note of. -/
def Command.verdict (command : Command) : Bool × Option Ending :=
  (command.pollComplete, command.ending)

/-- A caller that polls the command and one that is woken see the same. -/
def Command.Clear (command : Command) : Prop :=
  command.pollComplete = true ↔ command.phase = .done

namespace Command

variable {command : Command}

theorem clear_beginAttempt (command : Command) (seq : Nat) : (command.beginAttempt seq).Clear :=
  ⟨nofun, nofun⟩

theorem clear_finish (command : Command) (ending : Ending) : (command.finish ending).Clear :=
  ⟨fun _ => rfl, fun _ => rfl⟩

/-- An attempt that has not ended may move along the queue. -/
theorem clear_setPhase {phase : Phase} (h : command.pollComplete = false) (hphase : phase ≠ .done)
    (now : Nat) : (command.setPhase phase now).Clear := by
  refine ⟨fun hpoll => ?_, fun hdone => absurd hdone hphase⟩
  rw [show command.pollComplete = true from hpoll] at h
  cases h

theorem verdict_mark (command : Command) (generation : Nat) (signal : Signal)
    (words : Option (List UInt32)) :
    (command.mark generation signal words).2.verdict = command.verdict := by
  unfold mark
  split <;> rfl

theorem Clear.mark (h : command.Clear) (generation : Nat) (signal : Signal)
    (words : Option (List UInt32)) : (command.mark generation signal words).2.Clear := by
  unfold Command.mark
  split <;> exact h

theorem verdict_markAll (command : Command) (generation : Nat) :
    (command.markAll generation).2.verdict = command.verdict := by
  unfold markAll
  split <;> rfl

theorem Clear.markAll (h : command.Clear) (generation : Nat) :
    (command.markAll generation).2.Clear := by
  unfold Command.markAll
  split <;> exact h

end Command

namespace Commands

variable {cs cs' : Commands} {c : CommandRef} {command : Command}

/-- What all commands of a store keep. -/
def verdicts (cs : Commands) : List (Bool × Option Ending) :=
  cs.map Command.verdict

/-- All commands of a store look the same to everyone. -/
def Clear (cs : Commands) : Prop :=
  ∀ c command, cs.get? c = some command → command.Clear

/-- What one command keeps has changed. -/
structure Shifts (cs cs' : Commands) (c : CommandRef)
    (g : Bool × Option Ending → Bool × Option Ending) : Prop where
  verdicts : cs'.verdicts = cs.verdicts.modify c.index g
  clear : cs.Clear → cs'.Clear

/-- Nothing that is kept has changed. -/
structure Still (cs cs' : Commands) : Prop where
  verdicts : cs'.verdicts = cs.verdicts
  clear : cs.Clear → cs'.Clear

theorem Still.refl (cs : Commands) : cs.Still cs :=
  ⟨rfl, id⟩

theorem Still.trans {cs'' : Commands} (h : cs.Still cs') (h' : cs'.Still cs'') : cs.Still cs'' :=
  ⟨h'.verdicts.trans h.verdicts, h'.clear ∘ h.clear⟩

theorem verdicts_update (cs : Commands) (c : CommandRef) {f : Command → Command}
    {g : Bool × Option Ending → Bool × Option Ending}
    (hf : ∀ command, (f command).verdict = g command.verdict) :
    (cs.update c f).verdicts = cs.verdicts.modify c.index g :=
  map_modify hf cs c.index

theorem Clear.update (h : cs.Clear) {f : Command → Command}
    (hf : ∀ command, cs.get? c = some command → (f command).Clear) : (cs.update c f).Clear := by
  intro c' command' hc'
  rw [get?_update] at hc'
  split at hc'
  · rename_i heq
    obtain ⟨command, hc, rfl⟩ := Option.map_eq_some_iff.1 hc'
    exact hf command (heq ▸ hc)
  · exact h c' command' hc'

/-- An attempt that has not ended may move along the queue. -/
theorem still_setPhase (phase : Phase) (h : ∀ command, cs.get? c = some command →
    command.pollComplete = false) (hphase : phase ≠ .done) (now : Nat) :
    cs.Still (cs.update c (·.setPhase phase now)) where
  verdicts := by
    rw [cs.verdicts_update c (f := (·.setPhase phase now)) (g := id) fun _ => rfl, List.modify_id]
  clear hclear := hclear.update fun command hc => command.clear_setPhase (h command hc) hphase now

/-- A command is put in the place of another one. -/
theorem shifts_set {command' : Command} {g : Bool × Option Ending → Bool × Option Ending}
    (hc : cs.get? c = some command) (hverdict : command'.verdict = g command.verdict)
    (hclear : command.Clear → command'.Clear) : cs.Shifts (cs.set c.index command') c g where
  verdicts := by
    have hi : cs[c.index]? = some command := hc
    refine List.ext_getElem? fun i => ?_
    show ((cs.set c.index command').map Command.verdict)[i]? = (cs.verdicts.modify c.index g)[i]?
    rw [verdicts, List.getElem?_map, List.getElem?_set, List.getElem?_modify, List.getElem?_map]
    split
    · rename_i heq
      rw [← heq, hi, if_pos (List.getElem?_eq_some_iff.1 hi).1]
      exact congrArg some hverdict
    · cases cs[i]? <;> rfl
  clear h := by
    intro c' command'' hc'
    rw [get?_set hc] at hc'
    split at hc'
    · cases hc'
      exact hclear (h c command hc)
    · exact h c' command'' hc'

/-- A command is put in the place of one that keeps the same. -/
theorem still_set {command' : Command} (hc : cs.get? c = some command)
    (hverdict : command'.verdict = command.verdict) (hclear : command.Clear → command'.Clear) :
    cs.Still (cs.set c.index command') := by
  obtain ⟨hverdicts, hall⟩ := shifts_set (g := id) hc hverdict hclear
  exact ⟨hverdicts.trans (List.modify_id ..), hall⟩

theorem still_change {α : Type} (cs : Commands) (c : CommandRef) (absent : α)
    {f : Command → α × Command} (hverdict : ∀ command, (f command).2.verdict = command.verdict)
    (hclear : ∀ command : Command, command.Clear → (f command).2.Clear) :
    cs.Still (cs.change c absent f).2 := by
  unfold change
  split
  · exact .refl cs
  · rename_i command hc
    exact still_set hc (hverdict command) (hclear command)

end Commands

namespace Queue

variable {cs : Commands} {q : Queue} {c : CommandRef}

theorem still_expire (q : Queue) (cs : Commands) (limit now : Nat) :
    cs.Still (q.expire cs limit now).2.2 := by
  unfold expire
  split
  · exact .refl cs
  · split
    · exact .refl cs
    · rename_i command hc
      split
      · simp only
        split
        · exact Commands.still_set hc (command.verdict_markAll _) fun h => h.markAll _
        · exact .refl cs
      · exact .refl cs

/-- What holds the slot has not ended, and may go back to the line. -/
theorem still_defer (q : Queue) (h : q.slot = some c → ∀ command, cs.get? c = some command →
    command.pollComplete = false) : cs.Still (q.defer cs c).2.2 := by
  unfold defer
  split
  · rename_i hholds
    exact Commands.still_setPhase .queued (h (holds_iff.1 hholds)) nofun 0
  · exact .refl cs

end Queue

/-- The command that the task is going to end. -/
def Task.expires? : Task → Option CommandRef
  | .expire _ c => some c
  | _ => none

/-- The commands that are going to be ended because they have held their slots for too long. -/
def Engine.expiring (e : Engine) : List CommandRef :=
  e.stack.filterMap Task.expires?

/-! ## Sections -/

/-- An attempt has ended, and how is kept. -/
def ended (ending : Ending) : Bool × Option Ending → Bool × Option Ending :=
  fun _ => (true, some ending)

/-- Another attempt has begun, and nothing is kept. -/
def begun : Bool × Option Ending → Bool × Option Ending :=
  fun _ => (false, none)

/-- It has been taken note of how an attempt has ended. -/
def taken : Bool × Option Ending → Bool × Option Ending :=
  fun verdict => (verdict.1, none)

namespace Commands

variable {cs cs' cs'' : Commands} {c : CommandRef}
  {g : Bool × Option Ending → Bool × Option Ending}

theorem Still.shifts (h : cs.Still cs') (h' : cs'.Shifts cs'' c g) : cs.Shifts cs'' c g :=
  ⟨by rw [h'.verdicts, h.verdicts], h'.clear ∘ h.clear⟩

theorem Shifts.still (h : cs.Shifts cs' c g) (h' : cs'.Still cs'') : cs.Shifts cs'' c g :=
  ⟨by rw [h'.verdicts, h.verdicts], h'.clear ∘ h.clear⟩

theorem shifts_finish (cs : Commands) (c : CommandRef) (ending : Ending) :
    cs.Shifts (cs.update c (·.finish ending)) c (ended ending) where
  verdicts := cs.verdicts_update c fun _ => rfl
  clear h := h.update fun command _ => command.clear_finish ending

theorem shifts_beginAttempt (cs : Commands) (c : CommandRef) (seq : Nat) :
    cs.Shifts (cs.update c (·.beginAttempt seq)) c begun where
  verdicts := cs.verdicts_update c fun _ => rfl
  clear h := h.update fun command _ => command.clear_beginAttempt seq

end Commands

namespace Engine

variable {e e' : Engine} {m : Move} {r : RouterRef} {router : Router} {c : CommandRef} {w : Waiter}

theorem commands_finish (hc : (e.command? c).isSome) (ending : Ending) :
    (e.finish c ending).commands = e.commands.update c (·.finish ending) := by
  obtain ⟨command, hc⟩ := Option.isSome_iff_exists.1 hc
  unfold finish
  rw [hc]
  simp only
  split <;> rfl

theorem shifts_launch (hr : e.router? r = some router) (c : CommandRef) (next : List Task) :
    e.commands.Shifts (e.launch r c next).commands c begun := by
  have first := e.commands.shifts_beginAttempt c router.begun
  unfold launch
  rw [hr]
  simp only
  split
  · exact first
  · refine first.still (Commands.still_setPhase .queued (fun command hc => ?_) nofun 0)
    -- the attempt has just begun
    rw [Commands.get?_update, if_pos rfl] at hc
    obtain ⟨old, -, rfl⟩ := Option.map_eq_some_iff.1 hc
    rfl

theorem shifts_retry (hr : e.router? w.router = some router) :
    e.commands.Still (e.retry w).commands ∨
      e.commands.Shifts (e.retry w).commands w.command begun := by
  unfold retry
  split
  · exact .inl (.refl _)
  · exact .inr (shifts_launch hr _ _)
  · exact .inr (shifts_launch hr _ _)

theorem shifts_settle? (h : e.settle? w = some e') :
    e.commands.Still e'.commands ∨ e.commands.Shifts e'.commands w.command taken := by
  unfold settle? at h
  split at h
  · cases h
  · rename_i command hc
    split at h
    · split at h
      · cases h
        exact .inl (.refl _)
      · cases h
    · split at h
      · simp only at h
        have took : e.commands.Still (e.commands.set w.command.index command.takeEnding.2) ∨
            e.commands.Shifts (e.commands.set w.command.index command.takeEnding.2) w.command
              taken := by
          unfold Command.takeEnding
          split
          · exact .inr (Commands.shifts_set hc rfl id)
          · exact .inl (Commands.still_set hc rfl id)
        split at h <;>
        · cases h
          exact took
      · cases h

/-- What stands in a queue has not ended. -/
theorem Stored.unended (h : e.Stored) (hr : e.router? r = some router)
    (hmem : c ∈ router.queue.members) :
    ∀ command, e.command? c = some command → command.pollComplete = false := by
  intro command hc
  rw [← queue_of_router? hr] at hmem
  obtain ⟨command', hc', -, -, hpoll⟩ := h.members r c hmem
  cases hc'.symm.trans hc
  exact hpoll

theorem still_drain (h : e.Stored) (r : RouterRef) :
    e.commands.Still (e.drain r).commands := by
  rw [drain_eq]
  split
  · exact .refl _
  · rename_i router hr
    split
    · exact .refl _
    · rename_i c line hline
      obtain ⟨hstate, rest, hpending, rfl⟩ := Queue.beginDrain_eq_some hline
      refine Commands.still_setPhase .inflight (h.unended hr ?_) nofun e.now
      rw [Queue.mem_members, hpending]
      exact .inr List.mem_cons_self

/-! ## Ends -/

/-- The end of an attempt of a command, which leaves its slot or has left it before. -/
structure Ends (e e' : Engine) (c : CommandRef) (ending : Ending) : Prop where
  shifts : e.commands.Shifts e'.commands c (ended ending)
  lived : e.Queued c ∧ e'.expiring = e.expiring ∨ e.expiring = c :: e'.expiring

theorem expiring_push (e : Engine) {tasks : List Task} (h : ∀ t ∈ tasks, t.expires? = none) :
    (e.push tasks).expiring = e.expiring := by
  show (tasks ++ e.stack).filterMap Task.expires? = _
  rw [List.filterMap_append, List.filterMap_eq_nil_iff.2 h]
  rfl

theorem expiring_finish (e : Engine) (c : CommandRef) (ending : Ending) :
    (e.finish c ending).expiring = e.expiring := by
  unfold finish
  split
  · rfl
  · simp only
    split
    · exact expiring_push _ (List.forall_mem_singleton.2 rfl)
    · rfl

theorem shifts_finish (hc : (e.command? c).isSome) (ending : Ending) :
    e.commands.Shifts (e.finish c ending).commands c (ended ending) := by
  rw [commands_finish hc]
  exact e.commands.shifts_finish c ending

/-- An attempt in a queue has ended, or nothing that is kept has changed. -/
structure Reports (e e' : Engine) (c : CommandRef) : Prop where
  expiring : e'.expiring = e.expiring
  verdicts : e.commands.Still e'.commands ∨
    ∃ ending, e.Queued c ∧ e.commands.Shifts e'.commands c (ended ending)

theorem reports_of_still (still : e.commands.Still e'.commands)
    (hexpiring : e'.expiring = e.expiring) : e.Reports e' c :=
  ⟨hexpiring, .inl still⟩

/-- What comes before may change commands as long as nothing that is kept changes. -/
theorem Reports.after {mid : Engine} (h : mid.Reports e' c)
    (still : e.commands.Still mid.commands) (hrouters : mid.routers = e.routers)
    (hstack : mid.expiring = e.expiring) : e.Reports e' c := by
  refine ⟨h.expiring.trans hstack, h.verdicts.imp still.trans ?_⟩
  rintro ⟨ending, ⟨r, hmem⟩, shifts⟩
  refine ⟨ending, ⟨r, ?_⟩, still.shifts shifts⟩
  unfold queue router? at hmem ⊢
  rw [← hrouters]
  exact hmem

/-- What is completed leaves its slot and ends, or nothing happens. -/
theorem reports_complete (e : Engine) (r : RouterRef) (hc : (e.command? c).isSome)
    (generation : Nat) (ending : Ending) : e.Reports (e.complete r c generation ending) c := by
  unfold complete
  split
  · exact reports_of_still (.refl _) rfl
  · rename_i router hr
    rw [Queue.complete_eq]
    by_cases hfree : router.queue.slot = some c ∧
        ∃ command, e.commands.get? c = some command ∧ command.generation = generation
    · rw [if_pos hfree]
      refine ⟨(expiring_finish ..).trans (expiring_push _ (by simp [Task.expires?])),
        .inr ⟨ending, ?_, ?_⟩⟩
      · exact queued_of_slot ((congrArg Queue.slot (queue_of_router? hr)).trans hfree.1)
      · exact shifts_finish (e := ((e.setQueue r router.queue.release).count r _).push _) hc ending
    · rw [if_neg hfree]
      exact reports_of_still (.refl _) rfl

theorem isSome_of_still {cs cs' : Commands} (h : cs.Still cs') (hc : (cs.get? c).isSome) :
    (cs'.get? c).isSome := by
  have hlength : cs'.length = cs.length := by
    have hverdicts := congrArg List.length h.verdicts
    rwa [Commands.verdicts, Commands.verdicts, List.length_map, List.length_map] at hverdicts
  rw [Commands.get?_isSome_iff] at hc ⊢
  rw [hlength]
  exact hc

theorem reports_signal (hc : (e.command? c).isSome) (r : RouterRef) (generation : Nat)
    (signal : Signal) (words : Option (List UInt32)) :
    e.Reports (e.signal r c generation signal words) c := by
  have marked := e.commands.still_change c false (f := (·.mark generation signal words))
    (fun command => command.verdict_mark _ _ _) fun command h => h.mark _ _ _
  unfold Engine.signal
  simp only
  split
  · have took := marked.trans (Commands.still_change _ c [] (f := Command.takeResponse)
      (fun _ => rfl) fun _ h => h)
    exact (reports_complete _ r (isSome_of_still took hc) _ _).after took rfl rfl
  · exact reports_of_still marked rfl

/-- What an arrival reports is the end of an attempt that holds a slot. -/
theorem Heard.reports {arrival : Arrival} (k : e.Heard arrival e') : ∃ c, e.Reports e' c := by
  have made {r : RouterRef} {c : CommandRef} {command : Command}
      (hs : e.slotOf? r = some (c, command)) : (e.command? c).isSome := by
    obtain ⟨-, -, -, hc⟩ := slotOf?_eq_some hs
    exact Option.isSome_iff_exists.2 ⟨command, hc⟩
  cases k with
  | ignored | discarded => exact ⟨⟨0⟩, reports_of_still (.refl _) rfl⟩
  | sent hs | answered _ _ _ _ hs => exact ⟨_, reports_signal (made hs) ..⟩
  | @interrupted _ _ _ r c command event hs =>
    have marked := e.commands.still_change c false (f := (·.markAll command.generation))
      (fun command => command.verdict_markAll _) fun command h => h.markAll _
    refine ⟨c, ?_⟩
    simp only
    split
    · exact (reports_complete _ r (isSome_of_still marked (made hs)) _ _).after marked rfl rfl
    · exact reports_of_still marked rfl
  | plugged event =>
    exact ⟨⟨0⟩, reports_of_still (.refl _) (expiring_push _ (by simp [Task.expires?]))⟩

theorem Stored.reports_answerOffer (h : e.Stored) (r : RouterRef) (c : CommandRef)
    (answer : Except TransportFault Unit) : e.Reports (e.answerOffer r c answer) c := by
  cases hr : e.router? r with
  | none =>
    have hsame : e.answerOffer r c answer = e := by
      rw [answerOffer_eq]
      rw [hr]
    rw [hsame]
    exact reports_of_still (.refl _) rfl
  | some router =>
    have waits (hslot : router.queue.slot = some c) : c ∈ router.queue.members :=
      Queue.mem_members.2 (.inl hslot)
    rw [answerOffer_eq]
    rw [hr]
    simp only
    split
    · exact reports_of_still (.refl _) (expiring_push _ (by simp [Task.expires?]))
    · exact reports_of_still (router.queue.still_defer fun hslot => h.unended hr (waits hslot)) rfl
    · rename_i fault _
      rw [Queue.reject_eq]
      by_cases hslot : router.queue.slot = some c
      · rw [if_pos hslot]
        have hmem : c ∈ (e.queue r).members := queue_of_router? hr ▸ waits hslot
        obtain ⟨command, hc, -⟩ := h.members r c hmem
        have marked := e.commands.still_change c false
          (f := fun command => command.markAll command.generation)
          (fun command => command.verdict_markAll _) fun command h => h.markAll _
        simp only
        split
        · refine ⟨(expiring_finish ..).trans (expiring_push _ (by simp [Task.expires?])),
            .inr ⟨.refused fault, ⟨r, hmem⟩, marked.shifts ?_⟩⟩
          refine shifts_finish (e := Engine.push { e.setQueue r router.queue.release with
            commands := (e.commands.change c false _).2 } _) ?_ _
          exact isSome_of_still marked (Option.isSome_iff_exists.2 ⟨command, hc⟩)
        · exact reports_of_still marked (expiring_push _ (by simp [Task.expires?]))
      · rw [if_neg hslot]
        exact reports_of_still (.refl _) (expiring_push _ (by simp [Task.expires?]))

theorem still_withdraw (e : Engine) (w : Waiter) :
    e.commands.Still (e.withdraw w).commands := by
  unfold withdraw
  split
  · exact .refl _
  · split
    · exact .refl _
    · exact Queue.still_expire ..

theorem still_expireEach (e : Engine) (rs : List RouterRef) :
    e.commands.Still (e.expireEach rs).2.commands := by
  induction rs generalizing e with
  | nil => exact .refl _
  | cons r rest ih =>
    unfold expireEach
    split
    · exact ih e
    · rename_i router _
      exact (router.queue.still_expire e.commands e.topology.settings.timeoutMs e.now).trans
        (ih (e.setLine r _))

theorem commands_removeEach (e : Engine) (l : List (NodeId × RouterRef)) :
    (e.removeEach l).2.commands = e.commands := by
  induction l generalizing e with
  | nil => rfl
  | cons p rest ih =>
    unfold removeEach
    simp only
    split
    · rfl
    · exact ih _

theorem still_detach (e : Engine) (r : RouterRef) : e.commands.Still (e.detach r).commands := by
  unfold detach
  simp only
  split
  · exact .refl _
  · show e.commands.Still (removeSubtree _ _ _).2.commands
    unfold removeSubtree
    split
    · exact still_expireEach e _
    · rw [commands_removeEach]
      exact still_expireEach e _

theorem commands_meet (e : Engine) (r : RouterRef) (request : Request) :
    (e.meet r request).commands = e.commands := by
  cases request with
  | pause | fallAsleep => rfl
  | transfer t style =>
    show (e.issue r t style).commands = _
    unfold issue
    simp only
    split
    · rfl
    · split
      · rfl
      · split
        · rfl
        · split
          · rfl
          · split <;> rfl
  | enrol identity =>
    show (e.enrol r identity).commands = _
    unfold enrol
    split
    · rfl
    · split <;> rfl
  | unlink =>
    show (e.unlink r).commands = _
    unfold unlink
    split <;> rfl

theorem commands_call {call : Call} (hno : ∀ r, call ≠ .detach r) :
    (e.call call).commands = e.commands := by
  cases call with
  | attachRoot settings =>
    show (e.attachRoot settings).commands = _
    unfold attachRoot
    simp only
    split <;> rfl
  | attachChild parent route =>
    show (e.attachChild parent route).commands = _
    unfold attachChild
    split
    · rfl
    · simp only
      split <;> rfl
  | detach r => exact absurd rfl (hno r)
  | resume r =>
    show (e.resume r).commands = _
    unfold resume
    split
    · rfl
    · split <;> rfl
  | operate r operation =>
    show (e.operate r operation).commands = _
    unfold operate
    split <;> rfl

/-! ## Moves -/

/-- Another task has come to stand in the place of the one on top. -/
def Supplants (e' : Engine) (t : Task) (below : List Task) : Prop :=
  ∃ tasks last, e'.stack = tasks ++ last :: below ∧ last ≠ t

/-- Then the stack has not merely grown. -/
theorem Supplants.stirs {t : Task} {below : List Task} (h : e'.Supplants t below)
    (hs : e.stack = t :: below) (added : List Task) : e'.stack ≠ added ++ e.stack := by
  obtain ⟨tasks, last, hlast, hne⟩ := h
  rw [hlast, hs]
  intro heq
  exact hne (List.cons.inj (List.append_inj' heq rfl).2).1

theorem supplants_retry (hr : e.router? w.router = some router) :
    (e.retry w).Supplants (.attempt w) e.stack := by
  have launched (w' : Waiter) :
      (e.launch w.router w.command [.watch w']).Supplants (.attempt w) e.stack := by
    unfold launch
    rw [hr]
    simp only
    split
    · exact ⟨[], _, rfl, nofun⟩
    · exact ⟨[.drain w.router], _, rfl, nofun⟩
  unfold retry
  split
  · exact ⟨[], _, rfl, nofun⟩
  · exact launched _
  · exact launched _

theorem Stored.supplants_settle? (h : e.Stored) (hsettle : e.settle? w = some e') {t : Task}
    (ht : t = .claimed w ∨ ∃ deadline, t = .await w deadline) : e'.Supplants t e.stack := by
  obtain ⟨-, -, -, ⟨reply, hstack, -⟩ | ⟨hstack, -⟩⟩ := h.settle?_spec hsettle
  all_goals
    refine ⟨[], _, hstack, ?_⟩
    rcases ht with rfl | ⟨deadline, rfl⟩ <;> nofun

/-- What a move does to what commands keep. -/
inductive Rules (e : Engine) (m : Move) (e' : Engine) : Prop
  | still : e.commands.Still e'.commands → Rules e m e'
  /-- a command is given its frame -/
  | added (r : RouterRef) (command : Command) (style : Style) (below : List Task) :
      e.stack = .allocate r command style :: below →
      e' = ({ e with stack := below } : Engine).begin r command style →
      e'.commands.verdicts = e.commands.verdicts ++ [(false, none)] →
      (e.commands.Clear → e'.commands.Clear) → Rules e m e'
  /-- the caller on top begins its next attempt -/
  | begun (w : Waiter) (t : Task) (below : List Task) : e.stack = t :: below →
      t.waiter? = some w → e'.Supplants t below →
      e.commands.Shifts e'.commands w.command begun → Rules e m e'
  /-- the caller on top takes note of the end of its attempt -/
  | taken (w : Waiter) (t : Task) (below : List Task) : e.stack = t :: below →
      t.waiter? = some w → e'.Supplants t below →
      e.commands.Shifts e'.commands w.command taken → Rules e m e'
  | ended (c : CommandRef) (ending : Ending) : e.Ends e' c ending → Rules e m e'

/-- A change that leaves the element as it is changes nothing. -/
theorem modify_fixed {α : Type} {f : α → α} {l : List α} {i : Nat}
    (h : ∀ a, l[i]? = some a → f a = a) : l.modify i f = l := by
  refine List.ext_getElem? fun j => ?_
  rw [List.getElem?_modify]
  split
  · rename_i heq
    subst heq
    cases ha : l[i]? with
    | none => rfl
    | some a => exact congrArg some (h a ha)
  · cases l[j]? <;> rfl

/-- A new command keeps nothing. -/
theorem verdicts_add (cs : Commands) (command : Command) (hmade : command.verdict = (false, none))
    (hidle : command.phase = .idle) : (cs.add command).2.verdicts = cs.verdicts ++ [(false, none)] ∧
      (cs.Clear → Commands.Clear (cs.add command).2) := by
  refine ⟨?_, fun hclear c other hc => ?_⟩
  · show (cs ++ [command]).map Command.verdict = _
    rw [List.map_append]
    show _ ++ [command.verdict] = _
    rw [hmade]
    rfl
  · rw [Commands.get?_add] at hc
    split at hc
    · cases hc
      refine ⟨fun hpoll => ?_, fun hdone => ?_⟩
      · cases (congrArg Prod.fst hmade).symm.trans hpoll
      · cases hidle.symm.trans hdone
    · exact hclear c other hc

/-- A new command keeps nothing, whether or not its first attempt begins at once. -/
theorem verdicts_begin (e : Engine) {router : Router} (hr : e.router? r = some router)
    {command : Command} (hmade : command = command.made) (style : Style) :
    (e.begin r command style).commands.verdicts = e.commands.verdicts ++ [(false, none)] ∧
      (e.commands.Clear → (e.begin r command style).commands.Clear) := by
  have hverdict : command.verdict = (false, none) := by
    rw [hmade]
    rfl
  have hidle : command.phase = .idle := by
    rw [hmade]
    rfl
  have launched (listener : Listener) (next : List Task) :
      let added : Engine := { e with
        commands := (e.commands.add { command with listener := listener }).2 }
      (added.launch r ⟨e.commands.length⟩ next).commands.verdicts =
          e.commands.verdicts ++ [(false, none)] ∧
        (e.commands.Clear → (added.launch r ⟨e.commands.length⟩ next).commands.Clear) := by
    intro added
    obtain ⟨hverdicts, hclear⟩ := verdicts_add e.commands
      { command with listener := listener } hverdict hidle
    have shifts := shifts_launch (e := added) hr ⟨e.commands.length⟩ next
    refine ⟨?_, shifts.clear ∘ hclear⟩
    rw [shifts.verdicts, show added.commands.verdicts = _ from hverdicts]
    refine modify_fixed fun verdict hlast => ?_
    have hlength : e.commands.verdicts.length = e.commands.length := List.length_map _
    rw [← hlength, List.getElem?_concat_length] at hlast
    exact Option.some.inj hlast
  cases style with
  | waiting watching => exact verdicts_add e.commands command hverdict hidle
  | callback tag => exact launched (.callback tag) _
  | future => exact launched (.future none) _

/-- **What a move does to what commands keep.** -/
theorem Sound.rules (h : e.Sound) (hm : e.move? m = some e') : Rules e m e' := by
  have kept (hcommands : e'.commands = e.commands) : Rules e m e' := by
    refine .still ?_
    rw [hcommands]
    exact .refl _
  -- the end of an attempt that stands in a queue
  have reported {c : CommandRef} (reports : e.Reports e' c) : Rules e m e' := by
    rcases reports.verdicts with still | ⟨ending, hq, shifts⟩
    · exact .still still
    · exact .ended c ending ⟨shifts, .inl ⟨hq, reports.expiring⟩⟩
  cases acts_of_move? hm with
  | dropped | concluded | watched | kicked | announced | unframed | unregistered | acknowledging
  | acknowledged | collected | elapsed => exact kept rfl
  | asked => exact kept (commands_meet ..)
  | replied =>
    refine kept ?_
    unfold passOn
    split <;> rfl
  | @retried w below hs =>
    have hknown : e.Known w.router := (h.tasks (.attempt w) (hs ▸ List.mem_cons_self)).1.1.1
    obtain ⟨router, hr⟩ := router_of_known h.toStored hknown
    rcases shifts_retry (e := { e with stack := below }) hr with still | shifts
    · exact .still still
    · exact .begun w _ below hs rfl (supplants_retry (e := { e with stack := below }) hr) shifts
  | @settled w t below e' hs ht hsettle =>
    have hw : t.waiter? = some w := by
      rcases ht with rfl | ⟨deadline, rfl⟩ <;> rfl
    rcases shifts_settle? hsettle with still | shifts
    · exact .still still
    · have hpop : e.stack = [t] ++ below := hs
      have hrest := (h.pop hpop).toStored
      exact .taken w t below hs hw (hrest.supplants_settle? hsettle ht) shifts
  | @drained r below hs =>
    have hpop : e.stack = [Task.drain r] ++ below := hs
    exact .still (still_drain (h.pop hpop).toStored r)
  | @toured ids below hs =>
    refine kept ?_
    cases ids <;> rfl
  | @expired r c below hs =>
    have hlt : c.index < e.commands.length :=
      (h.tasks (.expire r c) (hs ▸ List.mem_cons_self)).2 c List.mem_cons_self
    refine .ended c .expired ⟨?_, .inr ?_⟩
    · exact shifts_finish (e := Engine.push (Engine.count { e with stack := below } r _) _)
        (Commands.get?_isSome_iff.2 hlt) _
    · rw [expiring_finish, expiring_push _ (by simp [Task.expires?])]
      show e.stack.filterMap Task.expires? = c :: below.filterMap Task.expires?
      rw [hs]
      rfl
  | @framed r command style below hs =>
    obtain ⟨hknown, -, hmade⟩ :=
      (h.tasks (.allocate r command style) (hs ▸ List.mem_cons_self)).1
    obtain ⟨router, hr⟩ := router_of_known h.toStored hknown
    obtain ⟨hverdicts, hclear⟩ := verdicts_begin { e with stack := below } hr hmade style
    exact .added r command style below hs rfl hverdicts hclear
  | @answered r c answer below hs =>
    have hpop : e.stack = [Task.offer r c] ++ below := hs
    have hrest := (h.pop hpop).toStored
    refine reported ((hrest.reports_answerOffer r c answer).after (.refl _) rfl ?_)
    show below.filterMap Task.expires? = e.stack.filterMap Task.expires?
    rw [hs]
    rfl
  | registered =>
    refine kept ?_
    unfold linkRoot
    simp only
    split <;> rfl
  | @gaveUp w deadline below hs =>
    exact .still (still_withdraw { e with stack := below } w)
  | called call =>
    by_cases hdetach : ∃ r, call = .detach r
    · obtain ⟨r, rfl⟩ := hdetach
      exact .still (still_detach e r)
    · exact kept (commands_call fun r heq => hdetach ⟨r, heq⟩)
  | received arrival =>
    obtain ⟨c, reports⟩ := (heard_receive e arrival).reports
    exact reported (reports.after (.refl _) rfl (expiring_push _ (by simp [Task.expires?])))

/-- Commands are made only where they are given their frames. -/
theorem Sound.begin_of_grown (h : e.Sound) (hm : e.move? m = some e')
    (hgrown : e.commands.length < e'.commands.length) : ∃ r command style below,
      e.stack = .allocate r command style :: below ∧
        e' = ({ e with stack := below } : Engine).begin r command style := by
  have absurd_of {P : Prop} (hlength : e'.commands.verdicts.length = e.commands.verdicts.length) :
      P := by
    unfold Commands.verdicts at hlength
    rw [List.length_map, List.length_map] at hlength
    exact absurd hlength (Nat.ne_of_gt hgrown)
  have shifted {P : Prop} {c : CommandRef} {g : Bool × Option Ending → Bool × Option Ending}
      (shifts : e.commands.Shifts e'.commands c g) : P :=
    absurd_of (by rw [shifts.verdicts, List.length_modify])
  cases h.rules hm with
  | still still => exact absurd_of (congrArg List.length still.verdicts)
  | added r command style below hs he' _ _ => exact ⟨r, command, style, below, hs, he'⟩
  | begun _ _ _ _ _ _ shifts | taken _ _ _ _ _ _ shifts => exact shifted shifts
  | ended c ending ends => exact shifted ends.shifts

end Engine

end RouterFabric
