import RouterFabric.Proofs.Alone
import RouterFabric.Proofs.Engine.Views

/-!
# Awaiting and blocking

A transfer can be awaited, by a future that is told how its command ends, or a caller can block
until it is woken. If the blocking caller does not try again, both come to the same: as long as
nobody else calls, the same requests are handed to the transport, all queues and counters are the
same, and so is the result. The blocking caller only takes a step more where its first attempt
begins, and where it finds that its attempt has expired.

* `Engine.Promised` : what a future is told
* `Twin.Beside` : two engines that differ in how one transfer is waited for
* `Twin.Beside.next` : what a move comes to in both
* `Run.awaits_as_blocking` : the same, up to the answer
-/

namespace RouterFabric

open Engine

variable {settings : Settings} {turns course course' : List Turn} {e e' a a' b b' : Engine}
  {m : Move} {r : RouterRef} {c c' : CommandRef} {command old new : Command} {t : Transfer}
  {front front' x y : List Task} {ending : Ending} {result : Outcome Answer}

/-! ## What a future is told -/

/-- The command has the same listener, and no more has come of its attempt. -/
def Command.Minds (new old : Command) : Prop :=
  new.listener = old.listener ∧ (new.pollComplete = true → old.pollComplete = true)

/-- Nothing has come of the attempt, or it has ended and the listener has been told. -/
def Command.Hears (new old : Command) : Prop :=
  new.Minds old ∨
    ∃ ending, new.verdict = (true, some ending) ∧ new.listener = old.listener.told ending.reply

theorem Command.Minds.trans {mid : Command} (h : new.Minds mid) (h' : mid.Minds old) :
    new.Minds old :=
  ⟨h.1.trans h'.1, fun hpoll => h'.2 (h.2 hpoll)⟩

theorem Command.hears_finish {marked : Command} (h : marked.listener = old.listener)
    (ending : Ending) : (marked.finish ending).Hears old :=
  .inr ⟨ending, rfl, (marked.listener_finish ending).trans (congrArg _ h)⟩

namespace Engine

theorem Spared.minds (s : e.Spared e' c) (hc : e.command? c = some old) :
    ∃ new, e'.command? c = some new ∧ new.Minds old := by
  obtain ⟨new, hnew, hsub⟩ := s.kept hc
  have hpoll : new.pollComplete = old.pollComplete := congrArg (·.pollComplete) hsub
  exact ⟨new, hnew, congrArg (·.listener) hsub, fun h => hpoll ▸ h⟩

/-- One command has changed, and is as `P` says. -/
theorem Changed.hears {before after : Command} {left : Bool} {P : Command → Command → Prop}
    (a : e.Changed e' c' before after left) (hafter : P after before)
    (hminds : ∀ {new old : Command}, new.Minds old → P new old) (hc : e.command? c = some old) :
    ∃ new, e'.command? c = some new ∧ P new old := by
  by_cases hne : c = c'
  · subst hne
    cases hc.symm.trans a.before
    exact ⟨after, a.after, hafter⟩
  · obtain ⟨new, hnew, minds⟩ := (a.others c hne).minds hc
    exact ⟨new, hnew, hminds minds⟩

theorem Begun.minds {router : Router} {before : Command}
    (k : e.Begun e' r c' router before) (hc : e.command? c = some old) :
    ∃ new, e'.command? c = some new ∧ new.Minds old := by
  by_cases hne : c = c'
  · subst hne
    cases hc.symm.trans k.before
    obtain ⟨new, hnew, hsub, -⟩ := k.after
    have hpoll : new.pollComplete = false := congrArg (·.pollComplete) hsub
    refine ⟨new, hnew, congrArg (·.listener) hsub, fun h => ?_⟩
    cases hpoll.symm.trans h
  · exact (k.others c hne).minds hc

theorem Forced.minds {cs : List (RouterRef × CommandRef)} (f : Forced e cs e')
    (hc : e.command? c = some old) : ∃ new, e'.command? c = some new ∧ new.Minds old := by
  induction f generalizing old with
  | none k => exact (k.commands c).minds hc
  | skip k _ ih =>
    obtain ⟨mid, hmid, minds⟩ := (k.commands c).minds hc
    obtain ⟨new, hnew, minds'⟩ := ih hmid
    exact ⟨new, hnew, minds'.trans minds⟩
  | next _ k _ ih =>
    obtain ⟨mid, hmid, minds⟩ := k.hears (P := Command.Minds) ⟨rfl, id⟩ id hc
    obtain ⟨new, hnew, minds'⟩ := ih hmid
    exact ⟨new, hnew, minds'.trans minds⟩

/-- What a move makes of the listener of a command. -/
theorem Inner.hears (k : Inner e m e') (hc : e.command? c = some old) :
    ∃ new, e'.command? c = some new ∧ new.Hears old := by
  have minds (h : ∃ new, e'.command? c = some new ∧ new.Minds old) :
      ∃ new, e'.command? c = some new ∧ new.Hears old := by
    obtain ⟨new, hnew, minds⟩ := h
    exact ⟨new, hnew, .inl minds⟩
  have same (h : e'.commands = e.commands) : ∃ new, e'.command? c = some new ∧ new.Hears old := by
    refine ⟨old, ?_, .inl ⟨rfl, id⟩⟩
    unfold command?
    rw [h]
    exact hc
  cases k with
  | quiet | returned | finished | asked | resumed | dropped | unframed | exhausted | watched
  | settled | unclaimed | unregistered =>
    rename_i k
    exact minds ((k.commands c).minds hc)
  | expired _ _ _ _ _ _ _ _ _ k | refused _ _ _ _ _ _ _ _ _ _ _ k
  | interrupted _ _ _ _ _ _ _ _ _ k | completed _ _ _ _ _ _ _ _ _ _ _ _ k =>
    exact k.hears (Command.hears_finish rfl _) .inl hc
  | noted _ _ _ _ _ _ _ _ _ k => exact k.hears (.inl ⟨rfl, id⟩) .inl hc
  | unlinked _ _ _ _ _ parted => exact same parted.commands
  | rooted _ _ _ _ _ joined => exact same joined.commands
  | framed _ _ _ _ _ _ added => exact ⟨old, added.command_kept hc, .inl ⟨rfl, id⟩⟩
  | issued _ _ _ _ _ _ _ _ _ _ added begun => exact minds (begun.minds (added.command_kept hc))
  | retried _ _ _ _ _ _ _ _ begun => exact minds (begun.minds hc)
  | withdrawn _ _ _ _ _ _ _ _ _ _ _ _ _ _ changed forced =>
    obtain ⟨mid, hmid, first⟩ := changed.hears (P := Command.Minds) ⟨rfl, id⟩ id hc
    obtain ⟨new, hnew, second⟩ := forced.minds hmid
    exact ⟨new, hnew, .inl (second.trans first)⟩

/-- The future of a command tells how its attempt has ended, as soon as it has. -/
inductive Promised (e : Engine) (c : CommandRef) : Prop
  | pending {command : Command} : e.command? c = some command → command.listener = .future none →
      e.Open c → Promised e c
  | told {command : Command} {ending : Ending} : e.command? c = some command →
      command.listener = .future (some ending.reply) → e.Shut c ending → Promised e c

/-- What is known of a future depends on queues, commands and what is to end. -/
theorem Promised.same (h : e.Promised c) (hcommands : e'.commands = e.commands)
    (hrouters : e'.routers = e.routers) (hexpiring : e'.expiring = e.expiring) :
    e'.Promised c := by
  have hcommand : e'.command? c = e.command? c := by
    unfold command?
    rw [hcommands]
  have hlives : e'.Lives c ↔ e.Lives c := by
    refine lives_iff_of_same (fun r => ?_) hexpiring
    unfold queue router?
    rw [hrouters]
  cases h with
  | pending hc hl open' =>
    exact .pending (hcommand.trans hc) hl ⟨hlives.2 open'.lives, hcommand ▸ open'.unended⟩
  | told hc hl shut =>
    exact .told (hcommand.trans hc) hl ⟨fun h => shut.closed (hlives.1 h), hcommand ▸ shut.ended⟩

end Engine

theorem Engine.inward_receive (arrival : Arrival) : e.Inward (.receive arrival) := by
  refine ⟨fun call heq => ?_, fun heq => ?_⟩ <;> cases heq

/-- A future keeps what it has been told, and is told of the end of the attempt. -/
theorem Run.promised_next (h : Run settings turns e) (hi : e.Inward m) (hm : e.move? m = some e')
    (hc : e.Unattended e' c) (hp : e.Promised c) : e'.Promised c := by
  have ha : ∀ call, m = .call call → e.Allows call := fun call heq => absurd heq (hi.1 call)
  cases hp with
  | @pending old hold hl hopen =>
    obtain ⟨new, hnew, hears⟩ := (h.inner_of_inward hi hm).hears hold
    obtain ⟨old', hold', hpoll⟩ := hopen.unended
    cases hold.symm.trans hold'
    rcases h.open_next ha hm hc hopen with hopen' | ⟨ending, hshut⟩
    · obtain ⟨new', hnew', hpoll'⟩ := hopen'.unended
      cases hnew.symm.trans hnew'
      rcases hears with ⟨hsame, -⟩ | ⟨ending, hverdict, -⟩
      · exact .pending hnew (hsame.trans hl) hopen'
      · cases hpoll'.symm.trans (congrArg Prod.fst hverdict)
    · obtain ⟨new', hnew', hverdict'⟩ := hshut.ended
      cases hnew.symm.trans hnew'
      rcases hears with ⟨-, hkept⟩ | ⟨ending', hverdict, hsame⟩
      · cases hpoll.symm.trans (hkept (congrArg Prod.fst hverdict'))
      · cases Option.some.inj (congrArg Prod.snd (hverdict.symm.trans hverdict'))
        refine .told hnew (hsame.trans ?_) hshut
        rw [hl]
        rfl
  | @told old ending hold hl hshut =>
    obtain ⟨new, hnew, hears⟩ := (h.inner_of_inward hi hm).hears hold
    have hshut' := h.shut_kept ha hm hc (List.getElem?_eq_some_iff.1 hold).1 hshut
    refine .told hnew ?_ hshut'
    rcases hears with ⟨hsame, -⟩ | ⟨ending', -, hsame⟩
    · exact hsame.trans hl
    · rw [hsame, hl]
      rfl

/-! ## Two callers side by side -/

/-- The same engine, under settings with another number of retries. -/
def Engine.withRetries (e : Engine) (retries : Nat) : Engine :=
  { e with topology :=
      { e.topology with settings := { e.topology.settings with retries := retries } } }

/-- Two engines agree in all but their commands and stacks; waiting callers of the second do not
try again. -/
structure Engine.Parallel (a b : Engine) : Prop where
  topology : b.topology = (a.withRetries 0).topology
  routers : b.routers = a.routers
  now : b.now = a.now

/-- The frame that the transport is asked to take. -/
def Pause.frame? : Pause → Option Frame
  | .submission taken => some taken
  | _ => none

/-- The frame that is handed to the transport, which answers in this turn. -/
def Turn.submits? (turn : Turn) : Option Frame :=
  match turn.move with
  | .grant _ => turn.before.pause.frame?
  | _ => none

/-- Whether the engine goes on by itself. -/
def Move.isProceed : Move → Bool
  | .proceed => true
  | _ => false

/-- An engine on top of other tasks. -/
def View.plain (below : List Task) : View :=
  ⟨none, none, below⟩

/-- An engine on top of other tasks, in which a waiting caller does not try again and a future is
not seen. -/
def View.once (deaf : Option CommandRef) (below : List Task) : View :=
  ⟨some 0, deaf, below⟩

theorem Engine.parallel_seen (e : Engine) (deaf : Option CommandRef) (x y : List Task) :
    (e.seen (.plain x)).Parallel (e.seen (.once deaf y)) :=
  ⟨rfl, rfl, rfl⟩

/-- A transfer for which there is a call in two engines: it is awaited in the first, and in the
second the caller blocks. -/
structure Twin where
  router : RouterRef
  transfer : Transfer
  /-- what stands below the call -/
  base : List Task

namespace Twin

variable {k : Twin} {deaf : Option CommandRef}

/-- How the call goes on with the reply. -/
def next (k : Twin) : Reply → Program Request Answer :=
  following k.transfer .future

theorem following_eq (k : Twin) : following k.transfer (.waiting .woken) = k.next := by
  funext reply
  unfold next following conclusion
  cases k.transfer <;> rfl

/-- What stands below the task that waits for the reply. -/
def rest (k : Twin) : List Task :=
  .resume k.router k.next :: k.base

def awaiting (k : Twin) (c : CommandRef) : Waiter :=
  ⟨k.router, c, .future⟩

def blocking (k : Twin) (c : CommandRef) : Waiter :=
  ⟨k.router, c, .retrying .woken 0⟩

/-- What the two calls are at, and whose future is not seen. -/
inductive Abreast (k : Twin) (a : Engine) : Option CommandRef → List Task → List Task → Prop
  | asking : Abreast k a none
      (.perform k.router (.ask (.transfer k.transfer .future) k.next) :: k.base)
      (.perform k.router (.ask (.transfer k.transfer (.waiting .woken)) k.next) :: k.base)
  | framing {command : Command} : command.listener = .nobody → Abreast k a none
      (.allocate k.router command .future :: k.rest)
      (.allocate k.router command (.waiting .woken) :: k.rest)
  | watching {c : CommandRef} : a.Promised c → Abreast k a (some c)
      (.watch (k.awaiting c) :: k.rest) (.watch (k.blocking c) :: k.rest)
  | waiting {c : CommandRef} {deadline : Nat} : a.Promised c → Abreast k a (some c)
      (.await (k.awaiting c) deadline :: k.rest) (.await (k.blocking c) deadline :: k.rest)
  | claimed {c : CommandRef} : a.Promised c → Abreast k a (some c)
      (.claimed (k.awaiting c) :: k.rest) (.claimed (k.blocking c) :: k.rest)
  | withdrawn {c : CommandRef} : Abreast k a (some c)
      (.hold [k.router] [c] :: .reply (.error .timeout) :: k.rest)
      (.attempt (k.blocking c) :: k.rest)

/-- What the two calls are at once the reply is there. -/
inductive Closing (k : Twin) : List Task → Prop
  | replied (reply : Reply) : Closing k (.reply reply :: k.rest)
  | concluded (result : Outcome Answer) : Closing k (.perform k.router (.done result) :: k.base)
  | answered (result : Outcome Answer) : Closing k (.answer result :: k.base)

/-- The two calls have come equally far. -/
inductive Beside (k : Twin) (a b : Engine) : Prop
  | abreast {e : Engine} {deaf : Option CommandRef} {x y : List Task} :
      a = e.seen (.plain x) → b = e.seen (.once deaf y) → (∀ t ∈ e.stack, t.isChore = true) →
      k.Abreast a deaf x y → Beside k a b
  | closing {tasks : List Task} : a.stack = tasks → b.stack = tasks → k.Closing tasks →
      a.Parallel b → Beside k a b

/-- The caller that blocks is one step behind. -/
def Lags (k : Twin) (a b : Engine) : Prop :=
  (∃ w, b.stack = .attempt w :: k.rest) ∧ k.Beside a b.step

/-- What a move comes to in two engines: it is possible in neither, or afterwards the two calls have
come equally far again or the caller that blocks is one step behind. -/
def Follows (k : Twin) (a b : Engine) (m : Move) : Prop :=
  a.move? m = none ∧ b.move? m = none ∨
    ∃ a' b', a.move? m = some a' ∧ b.move? m = some b' ∧ (k.Beside a' b' ∨ k.Lags a' b')

/-! ### Sections with more than one end -/

/-- A transfer is refused, or waits for a frame, whoever is told of its end. -/
theorem issue_forms (e : Engine) (r : RouterRef) (t : Transfer) :
    ∃ mid : Engine, mid.stack = e.stack ∧
    ((∃ failure, ∀ style, e.issue r t style = mid.push [.reply (.error failure)]) ∨
      ∃ command, command.listener = .nobody ∧
        ∀ style, e.issue r t style = mid.push [.allocate r command style]) := by
  unfold issue
  split
  · exact ⟨e, rfl, .inl ⟨_, fun _ => rfl⟩⟩
  · split
    · exact ⟨e, rfl, .inl ⟨_, fun _ => rfl⟩⟩
    · split
      · exact ⟨e, rfl, .inl ⟨_, fun _ => rfl⟩⟩
      · split
        · exact ⟨e, rfl, .inl ⟨_, fun _ => rfl⟩⟩
        · simp only
          split
          · refine ⟨_, ?_, .inl ⟨_, fun _ => rfl⟩⟩
            rfl
          · refine ⟨_, ?_, .inr ⟨_, ?_, fun _ => rfl⟩⟩
            · rfl
            · rfl

/-- An attempt is refused, or queued, whatever follows. -/
theorem launch_forms {router : Router} (hr : e.router? r = some router) (c : CommandRef) :
    ∃ mid : Engine, mid.stack = e.stack ∧ ∀ tasks, e.launch r c tasks =
      mid.push (if router.detached then [.reply (.error .notFound)] else .drain r :: tasks) := by
  unfold launch
  rw [hr]
  simp only
  cases router.detached with
  | true =>
    simp only [if_true]
    refine ⟨_, ?_, fun _ => rfl⟩
    rfl
  | false =>
    simp only [Bool.false_eq_true, if_false]
    refine ⟨_, ?_, fun _ => rfl⟩
    rfl

/-- An attempt has been claimed, or is withdrawn, whoever has waited for it. -/
theorem withdraw_forms {router : Router} (hr : e.router? r = some router) (c : CommandRef) :
    (∀ patience, e.withdraw ⟨r, c, patience⟩ = e.push [.claimed ⟨r, c, patience⟩]) ∨
      ∃ (mid : Engine) (front : List Task), mid.stack = e.stack ∧
        (∀ t ∈ front, t.isChore = true) ∧ ∀ patience,
          e.withdraw ⟨r, c, patience⟩ = mid.push (front ++ afterTimeout ⟨r, c, patience⟩) := by
  unfold withdraw
  simp only [hr]
  split
  · exact .inl fun _ => rfl
  · have hquiet : ∀ t ∈ [Task.drain r, .kick], t.isQuiet = true := by simp [Task.isQuiet]
    refine .inr ⟨_, _, ?_, fun t ht => ?_, fun _ => rfl⟩
    · rfl
    · exact Task.isChore_withdrawn hquiet r _ t ht

/-- An attempt does not depend on the time at which it begins. -/
theorem retry_elapsed (e : Engine) (w : Waiter) (now : Nat) :
    ({ e with now := now } : Engine).retry w = { e.retry w with now := now } := by
  have launched (tasks : List Task) : ({ e with now := now } : Engine).launch w.router w.command
      tasks = { e.launch w.router w.command tasks with now := now } := by
    have hr : ({ e with now := now } : Engine).router? w.router = e.router? w.router := rfl
    unfold launch
    rw [hr]
    split
    · rfl
    · simp only
      split <;> rfl
  unfold retry
  split
  · rfl
  · exact launched _
  · exact launched _

/-! ### What stays -/

/-- What stands below the chores stays where it is. -/
theorem Abreast.stays (s : k.Abreast a deaf x y) (h : Run settings turns a) (hi : a.Inward m)
    (hm : a.move? m = some a') (hs : a.stack = front ++ x) (hs' : a'.stack = front' ++ x) :
    k.Abreast a' deaf x y := by
  have promised {t : Task} {w : Waiter} {tasks : List Task} (hx : x = t :: tasks)
      (hw : t.waiter? = some w) (hp : a.Promised w.command) : a'.Promised w.command :=
    h.promised_next hi hm
      (h.sound.unattended hs hs' (hx ▸ List.mem_cons_self) hw) hp
  cases s with
  | asking => exact .asking
  | framing hl => exact .framing hl
  | watching hp => exact .watching (promised rfl rfl hp)
  | waiting hp => exact .waiting (promised rfl rfl hp)
  | claimed hp => exact .claimed (promised rfl rfl hp)
  | withdrawn => exact .withdrawn

/-- Time passes for both. -/
theorem Beside.elapsed (s : k.Beside a b) (now : Nat) :
    k.Beside { a with now := now } { b with now := now } := by
  cases s with
  | @abreast e deaf x y hx hy hchores s =>
    subst hx hy
    refine .abreast (e := { e with now := now }) rfl rfl hchores ?_
    cases s with
    | asking => exact .asking
    | framing hl => exact .framing hl
    | watching hp => exact .watching (hp.same rfl rfl rfl)
    | waiting hp => exact .waiting (hp.same rfl rfl rfl)
    | claimed hp => exact .claimed (hp.same rfl rfl rfl)
    | withdrawn => exact .withdrawn
  | closing hs hs' hk parallel =>
    exact .closing hs hs' hk ⟨parallel.topology, parallel.routers, rfl⟩

theorem Beside.now_eq (s : k.Beside a b) : b.now = a.now := by
  cases s with
  | abreast hx hy => rw [hx, hy]; rfl
  | closing _ _ _ parallel => exact parallel.now

/-! ### While chores are done -/

/-- What is done of the chores leaves chores. -/
theorem chores_kept (h : (e.seen (.plain x)).Sound) (hs : e.stack ≠ [])
    (hchores : ∀ t ∈ e.stack, t.isChore = true) (hx : ∃ task ∈ x, task.isQuiet = false)
    (hi : ∀ call, m ≠ .call call) (hm : e.move? m = some e') :
    ∀ t ∈ e'.stack, t.isChore = true := by
  obtain ⟨task, htask, hquiet⟩ := hx
  obtain ⟨t, others, hstack⟩ : ∃ t others, e.stack = t :: others :=
    ⟨_, _, (List.cons_head_tail hs).symm⟩
  have ht : t.isChore = true := hchores t (hstack ▸ List.mem_cons_self)
  have hsub : List.Sublist (e.stack ++ [task]) (e.stack ++ x) :=
    (List.singleton_sublist.2 htask).append_left e.stack
  -- one task is enough for the chores to stand on
  have sound : (e.seen (.plain [task])).Sound :=
    ⟨h.toStored.restack (e.stack ++ [task]), fun t ht => h.tasks t (hsub.subset ht),
      List.Pairwise.sublist hsub h.aged⟩
  have hm' : (e.seen (.plain [task])).move? m = some (e'.seen (.plain [task])) := by
    rw [move?_seen hstack ht hi, hm]
    rfl
  have inner : Inner (e.seen (.plain [task])) m (e'.seen (.plain [task])) := by
    cases sound.moved (fun call heq => absurd heq (hi call)) hm' with
    | inner _ _ k => exact k
    | called => exact absurd rfl (hi _)
    | collected result below he _ _ =>
      have he : e.stack ++ [task] = .answer result :: below := he
      rw [hstack, List.cons_append] at he
      cases he
      cases ht
  have hfront : (e.seen (.plain [task])).stack = e.stack ++ task :: [] := rfl
  obtain ⟨⟨front', hs', hmore⟩, -⟩ := inner.chores hfront hchores hquiet (.inl hs)
  have hsame : e'.stack = front' := List.append_cancel_right hs'
  intro t' ht'
  exact (hmore t' (hsame ▸ ht')).elim (hchores t') Task.isChore_of_loose

/-- Some task below the chores is none. -/
theorem Abreast.exists_task (s : k.Abreast a deaf x y) : ∃ task ∈ x, task.isQuiet = false := by
  cases s with
  | withdrawn => exact ⟨_, List.mem_cons_of_mem _ List.mem_cons_self, rfl⟩
  | _ => exact ⟨_, List.mem_cons_self, rfl⟩

/-- Both do the same chores. -/
theorem Abreast.busy (s : k.Abreast (e.seen (.plain x)) deaf x y) (hs : e.stack ≠ [])
    (h : Run settings turns (e.seen (.plain x))) (hchores : ∀ t ∈ e.stack, t.isChore = true)
    (hi : (e.seen (.plain x)).Inward m) :
    k.Follows (e.seen (.plain x)) (e.seen (.once deaf y)) m := by
  obtain ⟨t, others, hstack⟩ : ∃ t others, e.stack = t :: others :=
    ⟨_, _, (List.cons_head_tail hs).symm⟩
  have ht : t.isChore = true := hchores t (hstack ▸ List.mem_cons_self)
  have hm (v : View) : (e.seen v).move? m = (e.move? m).map (·.seen v) :=
    move?_seen hstack ht hi.1
  cases he : e.move? m with
  | none => exact .inl ⟨by rw [hm, he]; rfl, by rw [hm, he]; rfl⟩
  | some e' =>
    have hm' (v : View) : (e.seen v).move? m = some (e'.seen v) := by
      rw [hm, he]
      rfl
    have hs₁ : (e.seen (.plain x)).stack = e.stack ++ x := rfl
    have hs₂ : (e'.seen (.plain x)).stack = e'.stack ++ x := rfl
    exact .inr ⟨_, _, hm' _, hm' _, .inl (.abreast rfl rfl
      (chores_kept h.sound hs hchores s.exists_task hi.1 he) (s.stays h hi (hm' _) hs₁ hs₂))⟩

/-! ### While the calls go on -/

/-- Both go on by themselves. -/
theorem Beside.working (s : k.Beside a b) (hw : a.pause = .working) (hw' : b.pause = .working)
    (hstep : k.Beside a.step b.step) : k.Follows a b m := by
  cases hm : a.move? m with
  | none =>
    cases hm' : b.move? m with
    | none => exact .inl ⟨hm, hm'⟩
    | some b' =>
      rcases working_cases hw' hm' with ⟨rfl, -⟩ | ⟨ms, rfl, -⟩
      · cases (move?_of_working hw).symm.trans hm
      · cases hm
  | some a' =>
    rcases working_cases hw hm with ⟨rfl, rfl⟩ | ⟨ms, rfl, rfl⟩
    · exact .inr ⟨_, _, hm, move?_of_working hw', .inl hstep⟩
    · refine .inr ⟨_, _, hm, rfl, .inl ?_⟩
      rw [s.now_eq]
      exact s.elapsed (a.now + ms)

section quiet

variable (he : e.stack = [])

include he

theorem stack_of_quiet (v : View) : (e.seen v).stack = v.below := by
  rw [stack_seen, he]
  rfl

theorem pop_of_quiet (v : View) (tasks : List Task) :
    ({ e.seen v with stack := tasks } : Engine) = e.seen (v.on tasks) := by
  unfold seen View.on
  rw [he]
  rfl

/-- What arrives is put on top of both. -/
theorem Abreast.received (s : k.Abreast (e.seen (.plain x)) deaf x y)
    (h : Run settings turns (e.seen (.plain x))) (hw : (e.seen (.plain x)).isWorking = false)
    (hw' : (e.seen (.once deaf y)).isWorking = false) (arrival : Arrival) :
    k.Follows (e.seen (.plain x)) (e.seen (.once deaf y)) (.receive arrival) := by
  have hm (v : View) (hw : (e.seen v).isWorking = false) :
      (e.seen v).move? (.receive arrival) = some ((e.receive arrival).seen v) := by
    rw [← receive_seen]
    simp [move?, hw]
  obtain ⟨added, hstack, hadded⟩ := grows_receive e arrival
  rw [he, List.append_nil] at hstack
  have hs : (e.seen (.plain x)).stack = [] ++ x := stack_of_quiet he _
  refine .inr ⟨_, _, hm _ hw, hm _ hw', .inl (.abreast rfl rfl (fun t ht => ?_)
    (s.stays h (inward_receive arrival) (hm _ hw) hs rfl))⟩
  exact Task.isChore_of_loose (Task.isLoose_of_minor (hadded t (hstack ▸ ht)))

/-- A transfer is asked for. -/
theorem asked : k.Follows
    (e.seen (.plain (.perform k.router (.ask (.transfer k.transfer .future) k.next) :: k.base)))
    (e.seen (.once none
      (.perform k.router (.ask (.transfer k.transfer (.waiting .woken)) k.next) :: k.base))) m := by
  have hstep (v : View) (style : Style)
      (hv : v.below = .perform k.router (.ask (.transfer k.transfer style) k.next) :: k.base) :
      (e.seen v).step = (e.issue k.router k.transfer style).seen (v.on k.rest) := by
    rw [← issue_seen]
    unfold step
    rw [stack_of_quiet he, hv]
    simp only
    rw [pop_of_quiet he, push_seen, seen_on he]
    rfl
  have hpause (v : View) (style : Style)
      (hv : v.below = .perform k.router (.ask (.transfer k.transfer style) k.next) :: k.base) :
      (e.seen v).pause = .working := by
    unfold pause
    rw [stack_of_quiet he, hv]
  refine Beside.working (.abreast rfl rfl (by simp [he]) .asking) (hpause _ .future rfl)
    (hpause _ (.waiting .woken) rfl) ?_
  rw [hstep _ .future rfl, hstep _ (.waiting .woken) rfl]
  obtain ⟨mid, hmid, ⟨failure, hissue⟩ | ⟨command, hl, hissue⟩⟩ :=
    issue_forms e k.router k.transfer
  · rw [hissue, hissue]
    have hs (v : View) (hv : v.below = k.rest) :
        ((mid.push [.reply (.error failure)]).seen v).stack =
          .reply (.error failure) :: k.rest := by
      rw [seen_on (hmid.trans he), stack_of_quiet (hmid.trans he), ← hv]
      rfl
    exact .closing (hs _ rfl) (hs _ rfl) (.replied _) (parallel_seen ..)
  · rw [hissue, hissue, seen_on (hmid.trans he), seen_on (hmid.trans he)]
    exact .abreast rfl rfl (by simp [hmid, he]) (.framing hl)

/-- Both begin to wait. -/
theorem watched (hp : (e.seen (.plain (.watch (k.awaiting c) :: k.rest))).Promised c) :
    k.Follows (e.seen (.plain (.watch (k.awaiting c) :: k.rest)))
      (e.seen (.once (some c) (.watch (k.blocking c) :: k.rest))) m := by
  have hstep (v : View) (w : Waiter) (hv : v.below = .watch w :: k.rest) : (e.seen v).step =
      e.seen (v.on (.await w (e.now + e.topology.settings.timeoutMs) :: k.rest)) := by
    unfold step
    rw [stack_of_quiet he, hv]
    simp only
    rw [pop_of_quiet he, push_seen, seen_on he]
    rfl
  have hpause (v : View) (w : Waiter) (hv : v.below = .watch w :: k.rest) :
      (e.seen v).pause = .working := by
    unfold pause
    rw [stack_of_quiet he, hv]
  refine Beside.working (.abreast rfl rfl (by simp [he]) (.watching hp)) (hpause _ _ rfl)
    (hpause _ _ rfl) ?_
  rw [hstep _ _ rfl, hstep _ _ rfl]
  refine .abreast rfl rfl (by simp [he]) (.waiting (hp.same rfl rfl ?_))
  unfold expiring
  rw [stack_of_quiet he, stack_of_quiet he]
  rfl

/-- Both give up. -/
theorem exhausted : k.Follows
    (e.seen (.plain (.hold [k.router] [c] :: .reply (.error .timeout) :: k.rest)))
    (e.seen (.once (some c) (.attempt (k.blocking c) :: k.rest))) m := by
  refine Beside.working (.abreast rfl rfl (by simp [he]) .withdrawn) ?_ ?_ ?_
  · unfold pause
    rw [stack_of_quiet he]
    rfl
  · unfold pause
    rw [stack_of_quiet he]
    rfl
  · have hstep :
        (e.seen (.plain (.hold [k.router] [c] :: .reply (.error .timeout) :: k.rest))).step =
          e.seen (.plain (.reply (.error .timeout) :: k.rest)) := by
      unfold step
      rw [stack_of_quiet he]
      exact pop_of_quiet he _ _
    have hstep' : (e.seen (.once (some c) (.attempt (k.blocking c) :: k.rest))).step =
        e.seen (.once (some c) (.reply (.error .timeout) :: k.rest)) := by
      unfold step
      rw [stack_of_quiet he]
      show ({ e.seen _ with stack := k.rest } : Engine).retry (k.blocking c) = _
      rw [pop_of_quiet he]
      show (e.seen _).push [.reply (.error .timeout)] = _
      rw [push_seen, seen_on he]
      rfl
    rw [hstep, hstep']
    exact .closing (stack_of_quiet he _) (stack_of_quiet he _) (.replied _) (parallel_seen ..)

end quiet

/-- What is left once the reply is there is the same for both. -/
theorem closed {tasks : List Task} (hs : a.stack = tasks) (hs' : b.stack = tasks)
    (hk : k.Closing tasks) (parallel : a.Parallel b)
    (hopen : ∀ result, a.stack ≠ .answer result :: k.base) : k.Follows a b m := by
  have onward {part mid : List Task} (hk : k.Closing part) (hk' : k.Closing mid)
      (hpause : ∀ e : Engine, e.stack = part → e.pause = .working)
      (hstep : ∀ e : Engine, e.stack = part → e.step = { e with stack := mid })
      (hs : a.stack = part) (hs' : b.stack = part) : k.Follows a b m := by
    refine Beside.working (.closing hs hs' hk parallel) (hpause a hs) (hpause b hs') ?_
    rw [hstep a hs, hstep b hs']
    exact .closing rfl rfl hk' ⟨parallel.topology, parallel.routers, parallel.now⟩
  cases hk with
  | replied reply =>
    refine onward (.replied reply) (.concluded (conclusion k.transfer .future reply))
      (fun e he => ?_) (fun e he => ?_) hs hs'
    · unfold pause
      rw [he]
    · unfold step
      rw [he]
      rfl
  | concluded result =>
    refine onward (.concluded result) (.answered result) (fun e he => ?_) (fun e he => ?_) hs hs'
    · unfold pause
      rw [he]
    · unfold step
      rw [he]
      rfl
  | answered result => exact absurd hs (hopen result)

theorem Beside.elapse (s : k.Beside a b) (ms : Nat) : k.Follows a b (.elapse ms) := by
  refine .inr ⟨_, _, rfl, rfl, .inl ?_⟩
  rw [s.now_eq]
  exact s.elapsed (a.now + ms)

/-! ### Where an attempt begins -/

end Twin

namespace Engine

/-- The engine with one more command, whose end is kept by a future. -/
def enlist (e : Engine) (command : Command) : Engine :=
  { e with commands := e.commands ++ [{ command with listener := .future none }] }

theorem begin_future (e : Engine) (r : RouterRef) (command : Command) (tasks : List Task) :
    (e.seen (.plain tasks)).begin r command .future =
      ((e.enlist command).launch r ⟨e.commands.length⟩
        [.watch ⟨r, ⟨e.commands.length⟩, .future⟩]).seen (.plain tasks) := by
  rw [← launch_seen]
  rfl

/-- Where the future is not seen, a caller that blocks has the same commands. -/
theorem begin_blocking (e : Engine) (r : RouterRef) (hl : command.listener = .nobody)
    (tasks : List Task) : (e.seen (.once none tasks)).begin r command (.waiting .woken) =
      ((e.enlist command).seen (.once (some ⟨e.commands.length⟩) tasks)).push
        [.attempt ⟨r, ⟨e.commands.length⟩, .retrying .woken 1⟩] := by
  have hsame : ({ command with listener := .future none } : Command).unheard = command := by
    show ({ command with listener := .nobody } : Command) = command
    rw [← hl]
  have hstore : (View.once (some ⟨e.commands.length⟩) tasks).store (e.enlist command).commands =
      e.commands ++ [command] := by
    refine (modify_concat e.commands _ Command.unheard).trans ?_
    rw [hsame]
  unfold seen
  rw [hstore]
  rfl

theorem step_begin_blocking (e : Engine) (r : RouterRef) (hl : command.listener = .nobody)
    (tasks : List Task) : ((e.seen (.once none tasks)).begin r command (.waiting .woken)).step =
      ((e.enlist command).launch r ⟨e.commands.length⟩
        [.watch ⟨r, ⟨e.commands.length⟩, .retrying .woken 0⟩]).seen
          (.once (some ⟨e.commands.length⟩) tasks) := by
  rw [begin_blocking e r hl, ← launch_seen]
  rfl

end Engine

namespace Twin

variable {k : Twin} {deaf : Option CommandRef}

section begun

variable (he : e.stack = [])

include he

/-- Tasks that are put on an engine that is seen, the first of which are its own. -/
theorem push_of_quiet (v : View) (front tasks : List Task) :
    (e.push (front ++ tasks)).seen v =
      ({ e with stack := front } : Engine).seen (v.on (tasks ++ v.below)) := by
  unfold push seen View.on
  rw [he]
  simp only [List.append_nil, List.append_assoc]
  rfl

/-- The command has its frame, and its attempt has begun for the future. The caller that blocks
begins the same attempt with its next step. -/
theorem begun_lags (h : (e.seen (.plain (.allocate k.router command .future :: k.rest))).Sound)
    (hl : command.listener = .nobody) :
    k.Lags ((e.seen (.plain k.rest)).begin k.router command .future)
      ((e.seen (.once none k.rest)).begin k.router command (.waiting .woken)) := by
  let c : CommandRef := ⟨e.commands.length⟩
  have hlisted : (e.enlist command).stack = [] := he
  have hstack : (e.seen (.plain (.allocate k.router command .future :: k.rest))).stack =
    [Task.allocate k.router command .future] ++ k.rest := stack_of_quiet he _
  have popped : (e.seen (.plain k.rest)).Stored := h.toStored.restack _
  obtain ⟨⟨hknown, -, -⟩, -⟩ :=
    h.tasks (.allocate k.router command .future) (hstack ▸ List.mem_cons_self)
  obtain ⟨router, hr⟩ := router_of_known h.toStored hknown
  have hr : (e.enlist command).router? k.router = some router := hr
  refine ⟨⟨⟨k.router, c, .retrying .woken 1⟩, ?_⟩, ?_⟩
  · rw [begin_blocking e k.router hl k.rest]
    show .attempt _ :: ((e.enlist command).seen _).stack = _
    rw [stack_of_quiet hlisted]
    rfl
  · have added := popped.add_spec { command with listener := .future none }
    obtain ⟨begins, -⟩ := (popped.of_added added).launch_spec hr added.command_new
      (popped.not_queued_next added) [.watch (k.awaiting c)]
    obtain ⟨mid, hmid, hlaunch⟩ := launch_forms hr c
    have hfuture := begin_future e k.router command k.rest
    rw [step_begin_blocking e k.router hl k.rest, hfuture, hlaunch, hlaunch]
    cases hd : router.detached with
    | true =>
      have hs (v : View) (hv : v.below = k.rest) :
          ((mid.push [.reply (.error .notFound)]).seen v).stack =
            .reply (.error .notFound) :: k.rest := by
        rw [seen_on (hmid.trans hlisted), stack_of_quiet (hmid.trans hlisted), ← hv]
        rfl
      rw [if_pos rfl, if_pos rfl]
      exact .closing (hs _ rfl) (hs _ rfl) (.replied _) (parallel_seen ..)
    | false =>
      have hpush (v : View) (w : Waiter) : (mid.push (if false = true then
          [.reply (.error .notFound)] else [.drain k.router, .watch w])).seen v =
            ({ mid with stack := [.drain k.router] } : Engine).seen
              (v.on (.watch w :: v.below)) :=
        push_of_quiet (hmid.trans hlisted) v [.drain k.router] [.watch w]
      have hlater : ({ mid with stack := [.drain k.router] } : Engine).seen
          (.plain (.watch (k.awaiting c) :: k.rest)) =
            (e.seen (.plain k.rest)).begin k.router command .future := by
        rw [hfuture, hlaunch, hd, hpush]
        rfl
      rw [hpush, hpush]
      refine .abreast rfl rfl (List.forall_mem_singleton.2 rfl) (.watching ?_)
      show (({ mid with stack := [.drain k.router] } : Engine).seen
        (.plain (.watch (k.awaiting c) :: k.rest))).Promised _
      rw [hlater]
      obtain ⟨new, hnew, hsub, -⟩ := begins.after
      have hmembers := begins.members k.router
      rw [if_pos ⟨rfl, hd⟩] at hmembers
      have hlives : ((e.seen (.plain k.rest)).begin k.router command .future).Lives c :=
        .inl ⟨k.router, (congrArg (c ∈ ·) hmembers).mpr
          (List.mem_append_right _ List.mem_cons_self)⟩
      exact .pending hnew (congrArg (·.listener) hsub)
        ⟨hlives, new, hnew, congrArg (·.pollComplete) hsub⟩

/-- A frame for the command is awaited. -/
theorem framed
    (h : Run settings turns (e.seen (.plain (.allocate k.router command .future :: k.rest))))
    (hl : command.listener = .nobody)
    (hi : (e.seen (.plain (.allocate k.router command .future :: k.rest))).Inward m) :
    k.Follows (e.seen (.plain (.allocate k.router command .future :: k.rest)))
      (e.seen (.once none (.allocate k.router command (.waiting .woken) :: k.rest))) m := by
  have s : k.Abreast (e.seen (.plain (.allocate k.router command .future :: k.rest))) none
    (.allocate k.router command .future :: k.rest)
    (.allocate k.router command (.waiting .woken) :: k.rest) := .framing hl
  have granted (v : View) (style : Style)
      (hv : v.below = .allocate k.router command style :: k.rest)
      (answer : Except TransportFault Unit) : (e.seen v).move? (.grant answer) =
        some (match answer with
          | .error fault =>
            (e.push [.reply (.error (Failure.ofAllocation fault))]).seen (v.on k.rest)
          | .ok _ => (e.seen (v.on k.rest)).begin k.router command style) := by
    show (e.seen v).granted? answer = _
    unfold granted?
    rw [stack_of_quiet he, hv]
    cases answer with
    | error fault =>
      simp only
      rw [pop_of_quiet he, push_seen]
    | ok =>
      simp only
      rw [pop_of_quiet he]
  have hpause (v : View) (style : Style)
      (hv : v.below = .allocate k.router command style :: k.rest) : (e.seen v).pause = .frame := by
    unfold pause
    rw [stack_of_quiet he, hv]
  have hworking (v : View) (style : Style)
      (hv : v.below = .allocate k.router command style :: k.rest) :
      (e.seen v).isWorking = false := by
    unfold isWorking
    rw [hpause v style hv]
  have unmoved (v : View) (style : Style)
      (hv : v.below = .allocate k.router command style :: k.rest) :
      (e.seen v).move? .proceed = none ∧ (e.seen v).move? .giveUp = none ∧
        (e.seen v).move? .back = none ∧ (e.seen v).move? .collect = none := by
    unfold move? canProceed gaveUp? returned? collected?
    rw [hpause v style hv, stack_of_quiet he, hv]
    exact ⟨rfl, rfl, rfl, rfl⟩
  obtain ⟨hproceed, hgive, hback, hcollect⟩ :=
    unmoved (.plain (.allocate k.router command .future :: k.rest)) _ rfl
  obtain ⟨hproceed', hgive', hback', hcollect'⟩ :=
    unmoved (.once none (.allocate k.router command (.waiting .woken) :: k.rest)) _ rfl
  cases m with
  | grant answer =>
    cases answer with
    | error fault =>
      refine .inr ⟨_, _, granted _ _ rfl _, granted _ _ rfl _, .inl ?_⟩
      simp only
      rw [seen_on he, seen_on he]
      exact .closing (stack_of_quiet he _) (stack_of_quiet he _) (.replied _) (parallel_seen ..)
    | ok =>
      exact .inr ⟨_, _, granted _ _ rfl _, granted _ _ rfl _, .inr (begun_lags he h.sound hl)⟩
  | receive arrival => exact s.received he h (hworking _ _ rfl) (hworking _ _ rfl) arrival
  | elapse ms => exact Beside.elapse (.abreast rfl rfl (by simp [he]) s) ms
  | call call => exact absurd rfl (hi.1 call)
  | proceed => exact .inl ⟨hproceed, hproceed'⟩
  | giveUp => exact .inl ⟨hgive, hgive'⟩
  | back => exact .inl ⟨hback, hback'⟩
  | collect => exact .inl ⟨hcollect, hcollect'⟩

end begun

/-! ### While both wait -/

/-- A caller that waits is woken by what it is told, and nothing else. -/
theorem settling {t : Task} {w : Waiter} {tasks : List Task} (hs : e.stack = t :: tasks)
    (ht : t = .claimed w ∨ ∃ deadline, t = .await w deadline) : e.isWorking = false ∧
      e.canProceed = (({ e with stack := tasks } : Engine).settle? w).isSome ∧
      e.move? .proceed = ({ e with stack := tasks } : Engine).settle? w := by
  have hpauses : e.isWorking = false ∧
      e.canProceed = (({ e with stack := tasks } : Engine).settle? w).isSome := by
    unfold isWorking canProceed pause
    rcases ht with rfl | ⟨deadline, rfl⟩
    all_goals
      rw [hs]
      cases hsettle : ({ e with stack := tasks } : Engine).settle? w <;> simp [hsettle]
  refine ⟨hpauses.1, hpauses.2, ?_⟩
  have hstep : e.step = (({ e with stack := tasks } : Engine).settle? w).getD e := by
    unfold step
    rw [hs]
    rcases ht with rfl | ⟨deadline, rfl⟩ <;> rfl
  show (if e.canProceed then some e.step else none) = _
  rw [hpauses.2, hstep]
  cases ({ e with stack := tasks } : Engine).settle? w <;> rfl

/-- No answer is for a caller that waits. -/
theorem unmoved {t : Task} {w : Waiter} {tasks : List Task} (hs : e.stack = t :: tasks)
    (ht : t = .claimed w ∨ ∃ deadline, t = .await w deadline) :
    (∀ answer, e.move? (.grant answer) = none) ∧ e.move? .back = none ∧
      e.move? .collect = none := by
  unfold move? granted? returned? collected?
  rw [hs]
  rcases ht with rfl | ⟨deadline, rfl⟩ <;> exact ⟨fun _ => rfl, rfl, rfl⟩

/-- A caller that waits gives up when its time is over. -/
theorem gives_up {w : Waiter} {deadline : Nat} {tasks : List Task}
    (hs : e.stack = .await w deadline :: tasks) (hcan : e.canProceed = false) :
    e.move? .giveUp =
      if deadline ≤ e.now then some (({ e with stack := tasks } : Engine).withdraw w)
      else none := by
  show (if e.canProceed then none else e.gaveUp?) = _
  unfold gaveUp?
  rw [hcan, hs]
  rfl

/-- A caller whose attempt has been claimed does not give up. -/
theorem stays_claimed {w : Waiter} {tasks : List Task} (hs : e.stack = .claimed w :: tasks) :
    e.move? .giveUp = none := by
  show (if e.canProceed then none else e.gaveUp?) = none
  unfold gaveUp?
  rw [hs]
  split <;> rfl

/-- **Both are told the same, at the same time**; only the caller that blocks takes one more step to
find that it may not try again. -/
theorem settles (hp : (e.seen (.plain x)).Promised c) (hclear : e.commands.Clear) :
    (e.seen (.plain k.rest)).settle? (k.awaiting c) = none ∧
        (e.seen (.once (some c) k.rest)).settle? (k.blocking c) = none ∨
      ∃ a' b', (e.seen (.plain k.rest)).settle? (k.awaiting c) = some a' ∧
        (e.seen (.once (some c) k.rest)).settle? (k.blocking c) = some b' ∧
        (e.stack = [] → k.Beside a' b' ∨ k.Lags a' b') := by
  have hseen {command : Command} (hc : e.command? c = some command) :
      (e.seen (.once (some c) k.rest)).command? c = some command.unheard := by
    rw [command?_seen, hc]
    exact congrArg some (if_pos rfl)
  cases hp with
  | @pending command hc hl hopen =>
    have hc : e.command? c = some command := hc
    obtain ⟨command', hc', hpoll⟩ := hopen.unended
    cases hc.symm.trans hc'
    have hphase : (command.phase == .done) = false := by
      refine beq_eq_false_iff_ne.2 fun hdone => ?_
      cases hpoll.symm.trans ((hclear c command hc).2 hdone)
    left
    constructor
    · unfold settle?
      rw [show (e.seen (.plain k.rest)).command? (k.awaiting c).command = some command from hc]
      simp only [awaiting, hl]
    · unfold settle?
      rw [show (e.seen (.once (some c) k.rest)).command? (k.blocking c).command =
        some command.unheard from hseen hc]
      simp [blocking, notices, show (command.unheard.phase == .done) = false from hphase]
  | @told command ending hc hl hshut =>
    have hc : e.command? c = some command := hc
    obtain ⟨command', hc', hverdict⟩ := hshut.ended
    cases hc.symm.trans hc'
    have hdone : command.phase = .done := (hclear c command hc).1 (congrArg Prod.fst hverdict)
    have hending : command.ending = some ending := congrArg Prod.snd hverdict
    have htaken : command.unheard.takeEnding =
        (some ending, { command.unheard with ending := none }) := by
      unfold Command.takeEnding
      rw [if_pos (show command.unheard.phase = .done from hdone)]
      exact congrArg (fun ending => (ending, _)) hending
    have hfuture : (e.seen (.plain k.rest)).settle? (k.awaiting c) =
        some ((e.seen (.plain k.rest)).push [.reply ending.reply]) := by
      unfold settle?
      rw [show (e.seen (.plain k.rest)).command? (k.awaiting c).command = some command from hc]
      simp only [awaiting, hl]
    -- the engine in which the note of the end has been taken
    let noted : Engine := { e.seen (.once (some c) k.rest) with
      commands := (e.seen (.once (some c) k.rest)).commands.set c.index
        { command.unheard with ending := none } }
    have hblocked : (e.seen (.once (some c) k.rest)).settle? (k.blocking c) = some (noted.push
        [if ending = .expired then .attempt (k.blocking c) else .reply ending.reply]) := by
      unfold settle?
      rw [show (e.seen (.once (some c) k.rest)).command? (k.blocking c).command =
        some command.unheard from hseen hc]
      have hnotices : notices .woken command.unheard = true := by
        unfold notices
        exact beq_iff_eq.2 hdone
      simp only [blocking, hnotices, if_true, htaken]
      cases ending <;> rfl
    refine .inr ⟨_, _, hfuture, hblocked, fun he => ?_⟩
    have parallel (tasks tasks' : List Task) :
        ((e.seen (.plain k.rest)).push tasks).Parallel (noted.push tasks') := ⟨rfl, rfl, rfl⟩
    have hs (task : Task) : ((e.seen (.plain k.rest)).push [task]).stack = task :: k.rest :=
      congrArg (task :: ·) (stack_of_quiet he _)
    have hs' (task : Task) : (noted.push [task]).stack = task :: k.rest :=
      congrArg (task :: ·) (stack_of_quiet he _)
    by_cases hexpired : ending = .expired
    · subst hexpired
      refine .inr ⟨⟨k.blocking c, hs' _⟩, ?_⟩
      have hstep : (noted.push [.attempt (k.blocking c)]).step =
          noted.push [.reply (.error .timeout)] := rfl
      rw [if_pos rfl, hstep]
      exact .closing (hs _) (hs' _) (.replied _) (parallel _ _)
    · rw [if_neg hexpired]
      exact .inl (.closing (hs _) (hs' _) (.replied _) (parallel _ _))

section waiting

variable (he : e.stack = [])

include he

/-- Both give the attempt up, or find that it has been claimed. -/
theorem withdrawn {deadline : Nat}
    (h : (e.seen (.plain (.await (k.awaiting c) deadline :: k.rest))).Sound)
    (hp : (e.seen (.plain (.await (k.awaiting c) deadline :: k.rest))).Promised c) :
    k.Beside ((e.seen (.plain k.rest)).withdraw (k.awaiting c))
      ((e.seen (.once (some c) k.rest)).withdraw (k.blocking c)) := by
  have hstack : (e.seen (.plain (.await (k.awaiting c) deadline :: k.rest))).stack =
    [Task.await (k.awaiting c) deadline] ++ k.rest := stack_of_quiet he _
  obtain ⟨hattends, -⟩ :=
    h.tasks (.await (k.awaiting c) deadline) (hstack ▸ List.mem_cons_self)
  obtain ⟨router, hr⟩ := router_of_known h.toStored hattends.1
  have hr : e.router? k.router = some router := hr
  rw [withdraw_seen, withdraw_seen]
  rcases withdraw_forms hr c with hclaimed | ⟨mid, front, hmid, hfront, hwithdrawn⟩
  · have hawaiting : e.withdraw (k.awaiting c) = e.push [.claimed (k.awaiting c)] := hclaimed _
    have hblocking : e.withdraw (k.blocking c) = e.push [.claimed (k.blocking c)] := hclaimed _
    rw [hawaiting, hblocking, seen_on he, seen_on he]
    refine .abreast rfl rfl (by simp [he]) (.claimed (hp.same rfl rfl ?_))
    unfold expiring
    rw [stack_of_quiet he, stack_of_quiet he]
    rfl
  · have hawaiting : e.withdraw (k.awaiting c) = mid.push (front ++
        [Task.hold [k.router] [c], Task.reply (.error .timeout)]) := hwithdrawn .future
    have hblocking : e.withdraw (k.blocking c) = mid.push (front ++
        [Task.attempt (k.blocking c)]) := hwithdrawn (.retrying .woken 0)
    rw [hawaiting, hblocking, push_of_quiet (hmid.trans he), push_of_quiet (hmid.trans he)]
    exact .abreast rfl rfl hfront .withdrawn

/-- Both wait. -/
theorem awaited {ta tb : Task} (h : Run settings turns (e.seen (.plain (ta :: k.rest))))
    (s : k.Abreast (e.seen (.plain (ta :: k.rest))) (some c) (ta :: k.rest) (tb :: k.rest))
    (hp : (e.seen (.plain (ta :: k.rest))).Promised c)
    (ht : ta = .claimed (k.awaiting c) ∧ tb = .claimed (k.blocking c) ∨
      ∃ deadline, ta = .await (k.awaiting c) deadline ∧ tb = .await (k.blocking c) deadline)
    (hi : (e.seen (.plain (ta :: k.rest))).Inward m) :
    k.Follows (e.seen (.plain (ta :: k.rest))) (e.seen (.once (some c) (tb :: k.rest))) m := by
  have hs := stack_of_quiet he (.plain (ta :: k.rest))
  have hs' := stack_of_quiet he (.once (some c) (tb :: k.rest))
  have ha : ta = .claimed (k.awaiting c) ∨ ∃ deadline, ta = .await (k.awaiting c) deadline := by
    rcases ht with ⟨rfl, -⟩ | ⟨deadline, rfl, -⟩
    · exact .inl rfl
    · exact .inr ⟨deadline, rfl⟩
  have hb : tb = .claimed (k.blocking c) ∨ ∃ deadline, tb = .await (k.blocking c) deadline := by
    rcases ht with ⟨-, rfl⟩ | ⟨deadline, -, rfl⟩
    · exact .inl rfl
    · exact .inr ⟨deadline, rfl⟩
  obtain ⟨hworking, hcan, hproceed⟩ := settling hs ha
  obtain ⟨hworking', hcan', hproceed'⟩ := settling hs' hb
  rw [pop_of_quiet he] at hcan hproceed hcan' hproceed'
  have hcan : (e.seen (.plain (ta :: k.rest))).canProceed =
    ((e.seen (.plain k.rest)).settle? (k.awaiting c)).isSome := hcan
  have hcan' : (e.seen (.once (some c) (tb :: k.rest))).canProceed =
    ((e.seen (.once (some c) k.rest)).settle? (k.blocking c)).isSome := hcan'
  have told := settles (k := k) hp h.clear
  cases m with
  | proceed =>
    rcases told with ⟨hnone, hnone'⟩ | ⟨a', b', hsome, hsome', further⟩
    · exact .inl ⟨hproceed.trans hnone, hproceed'.trans hnone'⟩
    · exact .inr ⟨a', b', hproceed.trans hsome, hproceed'.trans hsome', further he⟩
  | giveUp =>
    rcases told with ⟨hnone, hnone'⟩ | ⟨a', b', hsome, hsome', -⟩
    · rw [hnone] at hcan
      rw [hnone'] at hcan'
      rcases ht with ⟨rfl, rfl⟩ | ⟨deadline, rfl, rfl⟩
      · exact .inl ⟨stays_claimed hs, stays_claimed hs'⟩
      · have hgives := gives_up hs hcan
        have hgives' := gives_up hs' hcan'
        rw [pop_of_quiet he] at hgives hgives'
        rw [now_seen] at hgives hgives'
        by_cases hlate : deadline ≤ e.now
        · rw [if_pos hlate] at hgives hgives'
          exact .inr ⟨_, _, hgives, hgives', .inl (withdrawn he h.sound hp)⟩
        · rw [if_neg hlate] at hgives hgives'
          exact .inl ⟨hgives, hgives'⟩
    · rw [hsome] at hcan
      rw [hsome'] at hcan'
      exact .inl ⟨by simp [move?, hcan], by simp [move?, hcan']⟩
  | receive arrival => exact s.received he h hworking hworking' arrival
  | elapse ms => exact Beside.elapse (.abreast rfl rfl (by simp [he]) s) ms
  | call call => exact absurd rfl (hi.1 call)
  | grant answer => exact .inl ⟨(unmoved hs ha).1 answer, (unmoved hs' hb).1 answer⟩
  | back => exact .inl ⟨(unmoved hs ha).2.1, (unmoved hs' hb).2.1⟩
  | collect => exact .inl ⟨(unmoved hs ha).2.2, (unmoved hs' hb).2.2⟩

end waiting

/-- **Whatever happens, the two calls stay side by side** until they are answered. -/
theorem Beside.next (s : k.Beside a b) (h : Run settings turns a) (hi : a.Inward m)
    (hopen : ∀ result, a.stack ≠ .answer result :: k.base) : k.Follows a b m := by
  cases s with
  | closing hs hs' hk parallel => exact closed hs hs' hk parallel hopen
  | @abreast e deaf x y hx hy hchores s =>
    subst hx hy
    by_cases he : e.stack = []
    · cases s with
      | asking => exact asked he
      | framing hl => exact framed he h hl hi
      | watching hp => exact watched he hp
      | waiting hp => exact awaited he h (.waiting hp) hp (.inr ⟨_, rfl, rfl⟩) hi
      | claimed hp => exact awaited he h (.claimed hp) hp (.inl ⟨rfl, rfl⟩) hi
      | withdrawn => exact exhausted he
    · exact s.busy he h hchores hi

/-! ### Courses -/

theorem Abreast.not_answer (s : k.Abreast a deaf x y) (hchores : ∀ t ∈ front, t.isChore = true)
    (tasks : List Task) :
    front ++ x ≠ .answer result :: tasks ∧ front ++ y ≠ .answer result :: tasks := by
  cases front with
  | nil =>
    constructor
    all_goals
      intro heq
      cases s <;> cases heq
  | cons t front =>
    have ht := hchores t List.mem_cons_self
    constructor
    all_goals
      intro heq
      obtain ⟨rfl, -⟩ := List.cons.inj heq
      cases ht

/-- They are answered the same. -/
theorem Beside.answer_iff (s : k.Beside a b) (tasks : List Task) :
    b.stack = .answer result :: tasks ↔ a.stack = .answer result :: tasks := by
  cases s with
  | closing hs hs' => rw [hs, hs']
  | abreast hx hy hchores s =>
    subst hx hy
    exact ⟨fun h => absurd h (s.not_answer hchores tasks).2,
      fun h => absurd h (s.not_answer hchores tasks).1⟩

theorem Beside.inward_iff (s : k.Beside a b) : b.Inward m ↔ a.Inward m := by
  unfold Inward
  simp only [ne_eq, s.answer_iff]

theorem Beside.parallel (s : k.Beside a b) : a.Parallel b := by
  cases s with
  | closing _ _ _ parallel => exact parallel
  | abreast hx hy =>
    subst hx hy
    exact parallel_seen ..

/-- Each hands the same frame to the transport. -/
theorem Beside.frame?_eq (s : k.Beside a b) : b.pause.frame? = a.pause.frame? := by
  cases s with
  | closing hs hs' hk =>
    unfold pause
    rw [hs, hs']
    cases hk <;> rfl
  | @abreast e deaf x y hx hy hchores s =>
    subst hx hy
    cases hs : e.stack with
    | cons t others =>
      have ht := hchores t (hs ▸ List.mem_cons_self)
      rw [pause_seen hs ht, pause_seen hs ht]
    | nil =>
      have waits {t : Task} {w : Waiter} {tasks : List Task} (v : View) (hv : v.below = t :: tasks)
          (ht : t = .claimed w ∨ ∃ deadline, t = .await w deadline) :
          (e.seen v).pause.frame? = none := by
        unfold pause
        rw [stack_of_quiet hs, hv]
        rcases ht with rfl | ⟨deadline, rfl⟩
        all_goals
          simp only
          split <;> rfl
      cases s with
      | waiting => exact (waits _ rfl (.inr ⟨_, rfl⟩)).trans (waits _ rfl (.inr ⟨_, rfl⟩)).symm
      | claimed => exact (waits _ rfl (.inl rfl)).trans (waits _ rfl (.inl rfl)).symm
      | asking | framing | watching | withdrawn =>
        unfold pause
        rw [stack_of_quiet hs, stack_of_quiet hs]
        rfl

/-- An attempt is not answered at once. -/
theorem retry_unanswered (hs : e.stack = k.rest) (w : Waiter) (tasks : List Task) :
    (e.retry w).stack ≠ .answer result :: tasks := by
  have launched (next : List Task) :
      (e.launch w.router w.command next).stack ≠ .answer result :: tasks := by
    unfold launch
    split
    · rw [hs]
      exact (by simp [rest])
    · split <;> simp [push]
  unfold retry
  split
  · simp [push]
  · exact launched _
  · exact launched _

theorem Lags.unanswered (s : k.Lags a b) (tasks : List Task) :
    a.stack ≠ .answer result :: tasks := by
  obtain ⟨⟨w, hs⟩, beside⟩ := s
  intro heq
  have hstep : b.step = ({ b with stack := k.rest } : Engine).retry w := by
    unfold step
    rw [hs]
  have hanswered := (beside.answer_iff tasks).2 heq
  rw [hstep] at hanswered
  exact retry_unanswered rfl w tasks hanswered

theorem Lags.working (s : k.Lags a b) : b.pause = .working := by
  obtain ⟨⟨w, hs⟩, -⟩ := s
  unfold pause
  rw [hs]

/-- Time passes for both. -/
theorem Lags.elapsed (s : k.Lags a b) (ms : Nat) :
    k.Lags { a with now := a.now + ms } { b with now := b.now + ms } := by
  obtain ⟨⟨w, hs⟩, beside⟩ := s
  have hstep (now : Nat) : ({ b with now := now } : Engine).step = { b.step with now := now } := by
    unfold step
    simp only [hs]
    exact retry_elapsed ({ b with stack := k.rest } : Engine) w now
  have hnow : b.now = a.now := (congrArg Engine.now (hstep b.now)).symm.trans beside.now_eq
  refine ⟨⟨w, hs⟩, ?_⟩
  rw [hstep, hnow]
  exact beside.elapsed (a.now + ms)

end Twin

/-- What comes from outside in a course, the latest first. -/
def outside (course : List Turn) : List Move :=
  (course.map Turn.move).filter fun m => !m.isProceed

/-- Nobody has been answered on top of these tasks before the end of a course. -/
def Unanswered (below : List Task) (course : List Turn) : Prop :=
  ∀ turn ∈ course, ∀ given, turn.before.stack ≠ .answer given :: below

/-- A course that nobody else has a part in, up to the answer. -/
structure Answered (e : Engine) (below : List Task) (course : List Turn) (e' : Engine)
    (result : Outcome Answer) : Prop where
  alone : Alone e course e'
  answer : e'.stack = .answer result :: below
  first : Unanswered below course

/-- Two courses in which the same comes from outside and the same frames are handed to the transport
in the same order, while there may be more steps in the second. -/
structure Accord (course course' : List Turn) : Prop where
  moves : List.Sublist (course.map Turn.move) (course'.map Turn.move)
  outside : outside course' = outside course
  frames : course'.filterMap Turn.submits? = course.filterMap Turn.submits?

namespace Accord

variable {turn turn' : Turn}

theorem nil : Accord [] [] :=
  ⟨List.Sublist.refl _, rfl, rfl⟩

theorem cons (h : Accord course course') (hmove : turn'.move = turn.move)
    (hframe : turn'.submits? = turn.submits?) : Accord (turn :: course) (turn' :: course') where
  moves := by
    rw [List.map_cons, List.map_cons, hmove]
    exact h.moves.cons_cons _
  outside := by
    have hkept : (course'.map Turn.move).filter (fun m => !m.isProceed) =
      (course.map Turn.move).filter fun m => !m.isProceed := h.outside
    unfold RouterFabric.outside
    rw [List.map_cons, List.map_cons, hmove, List.filter_cons, List.filter_cons, hkept]
  frames := by
    rw [List.filterMap_cons, List.filterMap_cons, hframe, h.frames]

theorem step (h : Accord course course') (hmove : turn'.move = .proceed) :
    Accord course (turn' :: course') where
  moves := by
    rw [List.map_cons]
    exact h.moves.cons _
  outside := by
    unfold RouterFabric.outside
    rw [List.map_cons, hmove]
    exact h.outside
  frames := by
    have hnone : turn'.submits? = none := by
      unfold Turn.submits?
      rw [hmove]
    rw [List.filterMap_cons, hnone, h.frames]

end Accord

namespace Twin

variable {k : Twin}

/-- What the call that awaits does is also done by the one that blocks. -/
theorem Beside.along (s : k.Beside a b) (h : Run settings turns a) (alone : Alone a course a')
    (hopen : Unanswered k.base course) : ∃ course' b', Alone b course' b' ∧ k.Beside a' b' ∧
      Unanswered k.base course' ∧ Accord course course' := by
  induction alone with
  | start => exact ⟨[], b, .start, s, List.forall_mem_nil _, .nil⟩
  | @next course a' a'' m alone hi hm ih =>
    obtain ⟨hlast, hopen⟩ := List.forall_mem_cons.1 hopen
    obtain ⟨course', b', alone', s', hopen', accord⟩ := ih hopen
    have hlast' (given : Outcome Answer) : b'.stack ≠ .answer given :: k.base :=
      fun hs => hlast given ((s'.answer_iff _).1 hs)
    rcases s'.next (alone.run h) hi hlast with ⟨hnone, -⟩ | ⟨a₁, b₁, hm₁, hm', further⟩
    · cases hm.symm.trans hnone
    · cases hm.symm.trans hm₁
      have alone₁ := alone'.next (s'.inward_iff.2 hi) hm'
      have accord₁ : Accord (⟨a', m, a''⟩ :: course) (⟨b', m, b₁⟩ :: course') := by
        refine accord.cons rfl ?_
        unfold Turn.submits?
        rw [s'.frame?_eq]
      rcases further with s₁ | lags
      · exact ⟨_, b₁, alone₁, s₁, List.forall_mem_cons.2 ⟨hlast', hopen'⟩, accord₁⟩
      · have hw := lags.working
        obtain ⟨⟨w, hs⟩, s₁⟩ := lags
        refine ⟨_, b₁.step, alone₁.next inward_proceed (move?_of_working hw), s₁,
          List.forall_mem_cons.2 ⟨fun given heq => ?_, List.forall_mem_cons.2 ⟨hlast', hopen'⟩⟩,
          accord₁.step rfl⟩
        cases hs.symm.trans heq

/-- What the call that blocks does is also done by the one that awaits. -/
theorem Beside.along_blocking (s : k.Beside a b) (h : Run settings turns a)
    (alone : Alone b course' b') (hopen : Unanswered k.base course') : ∃ course a',
      Alone a course a' ∧ (k.Beside a' b' ∨ k.Lags a' b') ∧ Unanswered k.base course ∧
        Accord course course' := by
  induction alone with
  | start => exact ⟨[], a, .start, .inl s, List.forall_mem_nil _, .nil⟩
  | @next course' b' b'' m alone' hi hm' ih =>
    obtain ⟨hlast', hopen'⟩ := List.forall_mem_cons.1 hopen
    obtain ⟨course, a', alone, further, hcourse, accord⟩ := ih hopen'
    rcases further with s' | lags
    · have hlast (given : Outcome Answer) : a'.stack ≠ .answer given :: k.base :=
        fun hs => hlast' given ((s'.answer_iff _).2 hs)
      have hi := s'.inward_iff.1 hi
      rcases s'.next (alone.run h) hi hlast with ⟨-, hnone⟩ | ⟨a₁, b₁, hm, hm₁, further⟩
      · cases hm'.symm.trans hnone
      · cases hm'.symm.trans hm₁
        refine ⟨_, a₁, alone.next hi hm, further, List.forall_mem_cons.2 ⟨hlast, hcourse⟩,
          accord.cons rfl ?_⟩
        unfold Turn.submits?
        rw [s'.frame?_eq]
    · rcases working_cases lags.working hm' with ⟨rfl, rfl⟩ | ⟨ms, rfl, rfl⟩
      · exact ⟨course, a', alone, .inl lags.2, hcourse, accord.step rfl⟩
      · have hi : a'.Inward (.elapse ms) := by
          refine ⟨fun call heq => ?_, fun heq => ?_⟩ <;> cases heq
        have hm : a'.move? (.elapse ms) = some { a' with now := a'.now + ms } := rfl
        refine ⟨_, _, alone.next hi hm, .inr (lags.elapsed ms),
          List.forall_mem_cons.2 ⟨fun given => lags.unanswered _, hcourse⟩, accord.cons rfl rfl⟩

end Twin

theorem Engine.isWorking_withRetries (e : Engine) (retries : Nat) :
    (e.withRetries retries).isWorking = e.isWorking := by
  have waits {t : Task} {w : Waiter} {tasks : List Task} (hs : e.stack = t :: tasks)
      (ht : t = .claimed w ∨ ∃ deadline, t = .await w deadline) :
      (e.withRetries retries).isWorking = e.isWorking :=
    have hs' : (e.withRetries retries).stack = t :: tasks := hs
    (Twin.settling hs' ht).1.trans (Twin.settling hs ht).1.symm
  cases hs : e.stack with
  | nil => simp [isWorking, pause, withRetries, hs]
  | cons t tasks =>
    cases t with
    | await => exact waits hs (.inr ⟨_, rfl⟩)
    | claimed => exact waits hs (.inl rfl)
    | offer =>
      unfold isWorking pause
      rw [show (e.withRetries retries).stack = _ from hs, hs]
      rfl
    | _ => simp [isWorking, pause, withRetries, hs]

/-- **A transfer that is awaited ends as one that is blocked on.** A caller asks for a transfer in
any state. If nobody else calls before it is answered, then whatever the transport and the routers
do, a caller that blocks in the same state, and may not try again, is answered the same after the
same has come from outside and the same frames have been handed over; and all queues, counters and
deferred routers are the same. All that comes to a caller that blocks comes to one that awaits,
too. -/
theorem Run.awaits_as_blocking {e₀ a₀ : Engine} (h : Run settings turns e₀) (ha : e₀.Known r)
    (hm : e₀.move? (.call (.operate r (.transfer t .future))) = some a₀) :
    ∃ b₀, (e₀.withRetries 0).move? (.call (.operate r (.transfer t (.waiting .woken)))) = some b₀ ∧
      (∀ course a result, Answered a₀ e₀.stack course a result →
        ∃ course' b, Answered b₀ e₀.stack course' b result ∧ Accord course course' ∧ a.Parallel b) ∧
      ∀ course' b result, Answered b₀ e₀.stack course' b result →
        ∃ course a, Answered a₀ e₀.stack course a result ∧ Accord course course' ∧
          a.Parallel b := by
  obtain ⟨hrests, hcalled⟩ : e₀.isWorking = false ∧
      e₀.operate r (.transfer t .future) = a₀ := by
    have hm : (if e₀.isWorking then none else some (e₀.call _)) = some a₀ := hm
    split at hm
    · cases hm
    · rename_i hrests
      exact ⟨Bool.eq_false_iff.2 hrests, Option.some.inj hm⟩
  obtain ⟨router, hr⟩ := router_of_known h.sound.toStored ha
  let k : Twin := ⟨r, t, e₀.stack⟩
  let b₀ := (e₀.withRetries 0).operate r (.transfer t (.waiting .woken))
  have ha₀ : a₀ = ({ e₀ with stack := [] } : Engine).seen
      (.plain (.perform r (.ask (.transfer t .future) k.next) :: e₀.stack)) := by
    rw [← hcalled]
    unfold operate
    rw [hr]
    simp only
    rw [program_transfer]
    rfl
  have hb₀ : b₀ = ({ e₀ with stack := [] } : Engine).seen
      (.once none (.perform r (.ask (.transfer t (.waiting .woken)) k.next) :: e₀.stack)) := by
    show operate _ _ _ = _
    unfold operate
    rw [show (e₀.withRetries 0).router? r = some router from hr]
    simp only
    rw [program_transfer, ← k.following_eq]
    rfl
  have s : k.Beside a₀ b₀ := .abreast ha₀ hb₀ (List.forall_mem_nil _) .asking
  have run := h.next (fun call heq => by cases heq; exact ha) hm
  refine ⟨b₀, by simp [move?, isWorking_withRetries, hrests, call, b₀], ?_, ?_⟩
  · rintro course a result ⟨alone, hanswer, hfirst⟩
    obtain ⟨course', b, alone', s', hfirst', accord⟩ := s.along run alone hfirst
    exact ⟨course', b, ⟨alone', (s'.answer_iff _).2 hanswer, hfirst'⟩, accord, s'.parallel⟩
  · rintro course' b result ⟨alone', hanswer, hfirst'⟩
    obtain ⟨course, a, alone, s' | ⟨⟨w, hs⟩, -⟩, hfirst, accord⟩ :=
      s.along_blocking run alone' hfirst'
    · exact ⟨course, a, ⟨alone, (s'.answer_iff _).1 hanswer, hfirst⟩, accord, s'.parallel⟩
    · cases hs.symm.trans hanswer

/-- A word is read from the host router, for a caller that awaits it. -/
def awaitedMoves : List Move :=
  [.proceed, .grant (.ok ()), .proceed, .grant (.ok ()), .proceed, .proceed,
    .receive (.sent (some (.command ⟨0⟩ ⟨2⟩ 1))), .collect, .receive (.received .read .read
      (ReadResponse.encode ⟨Route.root, ⟨.router, 0, 64, 1, 1⟩, [7]⟩)),
    .proceed, .proceed, .proceed, .proceed, .collect, .proceed, .proceed, .proceed]

/-- A read is answered for a caller that awaits it, and for one that blocks. -/
theorem read_answered_twice : ∃ turns e₀ a₀ b₀ course a course' b, Run {} turns e₀ ∧
    e₀.Known ⟨0⟩ ∧
    e₀.move? (.call (.operate ⟨0⟩ (.transfer (.read .router 0 64 1) .future))) = some a₀ ∧
    (e₀.withRetries 0).move?
      (.call (.operate ⟨0⟩ (.transfer (.read .router 0 64 1) (.waiting .woken)))) = some b₀ ∧
    Answered a₀ e₀.stack course a (.ok (.words [7])) ∧
    Answered b₀ e₀.stack course' b (.ok (.words [7])) ∧ Accord course course' ∧ a.Parallel b := by
  have played : (replay? {} (hostMoves hostWords).reverse).any (fun p =>
      decide (p.2.topology.tree.get? ⟨0⟩ = some ⟨0⟩) && !p.2.isWorking && p.2.stack.isEmpty &&
      (alone? (p.2.operate ⟨0⟩ (.transfer (.read .router 0 64 1) .future))
        awaitedMoves.reverse).any fun done =>
          decide (done.2.reply? = some (.ok (.words [7]))) &&
          done.1.all fun turn => decide (turn.before.pause.answered? = none)) = true := by
    decide +kernel
  obtain ⟨turns, e₀, run, hcheck⟩ := exists_of_replay? played
  simp only [Bool.and_eq_true, Option.any_eq_true, decide_eq_true_eq, Bool.not_eq_true',
    List.isEmpty_iff, List.all_eq_true] at hcheck
  obtain ⟨⟨⟨hlinked, hrests⟩, hidle⟩, ⟨course, a⟩, hcourse, hreply, hfirst⟩ := hcheck
  have hm : e₀.move? (.call (.operate ⟨0⟩ (.transfer (.read .router 0 64 1) .future))) =
      some (e₀.operate ⟨0⟩ (.transfer (.read .router 0 64 1) .future)) := by
    simp [move?, hrests, call]
  have answered : Answered (e₀.operate ⟨0⟩ (.transfer (.read .router 0 64 1) .future)) e₀.stack
      course a (.ok (.words [7])) := by
    refine ⟨alone_of_alone? hcourse, ?_, fun turn hturn given hs => ?_⟩
    · rw [hidle]
      exact stack_of_reply? hreply
    · have hpause : turn.before.pause = .answered given := by
        unfold pause
        rw [hs]
      have hnone := hfirst turn hturn
      rw [hpause] at hnone
      cases hnone
  obtain ⟨b₀, hm', blocks, -⟩ := run.awaits_as_blocking (.inl ⟨_, hlinked⟩) hm
  obtain ⟨course', b, answered', accord, parallel⟩ := blocks course a _ answered
  exact ⟨turns, e₀, _, b₀, course, a, course', b, run, .inl ⟨_, hlinked⟩, hm, hm', answered,
    answered', accord, parallel⟩

end RouterFabric
