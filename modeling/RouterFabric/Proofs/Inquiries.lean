import RouterFabric.Proofs.Engine.Served
import RouterFabric.Proofs.Tree.Lookup

/-!
# Searches in an engine

A search that is called for on a router waits for one read after the other. If the router answers
each of them with the words that stand in its config spaces, the search ends as its program does
over these words, whatever else goes on in the engine meanwhile.

* `Servedly` : courses over a router that answers
* `Inquiry` : a call that only reads, with the part of the stack that it is at
* `Inquiry.At.next`, `Inquiry.At.answers` : what such a course keeps, and what it leads to
* `Run.searched` : what the searches come to
-/

namespace RouterFabric

open Engine

variable {settings : Settings} {turns course more : List Turn} {e e' e₀ : Engine} {m : Move}
  {words : Contents} {r : RouterRef} {router : Router} {c x : CommandRef} {command old : Command}
  {given : List UInt32} {t task : Task} {chores chores' part rest : List Task}
  {p : Program Request Answer} {after : Reply → Program Request Answer} {reply : Reply}

/-! ## Served courses -/

/-- Served moves one after the other, the latest turn first. -/
inductive Servedly (words : Contents) (r : RouterRef) (e : Engine) : List Turn → Engine → Prop
  | start : Servedly words r e [] e
  | next {course : List Turn} {e' e'' : Engine} {m : Move} : Servedly words r e course e' →
      e'.Served words r m → e'.move? m = some e'' →
      Servedly words r e (⟨e', m, e''⟩ :: course) e''

theorem Run.served (h : Run settings turns e) (hq : e.Served words r m)
    (hm : e.move? m = some e') : Run settings (⟨e, m, e'⟩ :: turns) e' :=
  h.next (fun call heq => by subst heq; exact hq.elim) hm

theorem Servedly.run (k : Servedly words r e course e') (h : Run settings turns e) :
    Run settings (course ++ turns) e' := by
  induction k with
  | start => exact h
  | next _ hq hm ih => exact ih.served hq hm

theorem Servedly.single (hq : e.Served words r m) (hm : e.move? m = some e') :
    Servedly words r e [⟨e, m, e'⟩] e' :=
  .next .start hq hm

theorem Servedly.append {e'' : Engine} (k : Servedly words r e course e')
    (k' : Servedly words r e' more e'') : Servedly words r e (more ++ course) e'' := by
  induction k' with
  | start => exact k
  | next _ hq hm ih => exact ih.next hq hm

/-- While errands are done nobody can give up, and so quiet moves are served. -/
theorem Engine.Quiet.served (hq : e.Quiet r m) (hm : e.move? m = some e')
    (hs : e.stack = t :: rest) (ht : t.isLoose = true) : e.Served words r m := by
  cases m with
  | giveUp =>
    cases acts_of_move? hm with
    | dropped _ hdrops => cases hdrops
    | gaveUp hs' =>
      cases hs.symm.trans hs'
      cases ht
  | receive arrival => exact fun c hconcerns => .inl (hq c hconcerns)
  | call call => exact hq.elim
  | grant answer => exact hq
  | collect => exact hq
  | proceed | back | elapse => trivial

/-! ## Signals from the router -/

namespace Engine

/-- The route of what holds the slot of an attached router leads there. -/
theorem Holds.lookup (hc : e.Holds r x old) (h : Run settings turns e) (hl : e.Linked r) :
    e.topology.lookup old.route = .ok r := by
  have hs := h.sound.toStored
  have hget := hs.get?_of_linked hl
  obtain ⟨command, hcommand, ⟨-, router, hr, hroute⟩, -⟩ :=
    hs.members r x (Queue.mem_members.2 (.inl hc.1))
  cases hc.2.symm.trans hcommand
  obtain ⟨⟨value, route, parent⟩, hplace, rfl⟩ :=
    Option.map_eq_some_iff.1 ((RouterTree.get?_eq_place _ _).symm.trans hget)
  obtain ⟨-, router', hr', hroute'⟩ := hs.places _ _ _ _ hplace
  cases hr.symm.trans hr'
  have hleads : e.topology.tree.route? ⟨value.index⟩ = some old.route := by
    rw [RouterTree.route?_eq_place, hplace, hroute, hroute']
    rfl
  have charted : e.topology.tree.Charted settings e.outline.identity? := h.explored.charted
  unfold Topology.lookup
  rw [charted.toRooted.lookup_eq_ok_iff.2 hleads]
  simp only [hget]

/-- What holds the slot of an attached router can be given either of its signals. -/
theorem Holds.exists_reaching (hc : e.Holds r x old) (h : Run settings turns e)
    (hl : e.Linked r) (words : Contents) (signal : Signal) : ∃ arrival received,
      e.Reaches r old arrival signal received ∧ e.Served words r (.receive arrival) := by
  cases signal with
  | sent =>
    exact ⟨_, _, h.sound.toStored.reaches_report hl (h.sound.toStored.node_of_holds hc),
      fun _ _ => .inl ⟨_, rfl⟩⟩
  | answered =>
    have hread := response?_response words (h.traced.commands x old hc.2).unmarked
    have hseq : old.seq = (old.address.withSeq old.seq).cut.seq := by
      have hnumber : old.seq = numberOf turns x % 4 := by
        rw [← h.seq x, attempt_of_command hc.2]
      show old.seq = old.seq % 4 % 4
      omega
    refine ⟨.received old.kind.packetType old.kind.packetType (words.response old), _,
      .answered ?_ ?_ hread (hc.lookup h hl) hseq, fun c hconcerns => .inr ⟨old, ?_, rfl⟩⟩
    · cases old.kind <;> nofun
    · cases old.kind <;> nofun
    · obtain ⟨command, hcommand, -⟩ := hconcerns
      obtain rfl : x = c := Option.some.inj (hc.1.symm.trans hcommand.1)
      exact hc

/-- A signal for what holds the slot is noted there, or takes it out of the queue. -/
theorem Stored.signal_cases {signal : Signal} {received : Option (List UInt32)} (h : e.Stored)
    (hc : e.Holds r x old)
    (he' : e' = (e.push [.handled]).signal r x old.generation signal received) :
    (e'.queue r).members.length < (e.queue r).members.length ∨
      e'.Holds r x (old.noted signal received) ∧ e'.stack = .handled :: e.stack := by
  have h₁ : (e.push [.handled]).Stored := h.restack _
  have hs : (e.push [.handled]).slotOf? r = some (x, old) := hc.slotOf?
  rcases h₁.signal_spec hs signal received with
    ⟨hfirst, changed, hstack⟩ | ⟨-, changed, -⟩
  · rw [← he'] at changed hstack
    refine .inr ⟨⟨?_, changed.after⟩, hstack⟩
    rw [he', signal_noted hs (h₁.isComplete_of_slot hs) hfirst]
    exact hc.1
  · rw [← he'] at changed
    refine .inl ?_
    have hmem : x ∈ (e.queue r).members := Queue.mem_members.2 (.inl hc.1)
    have hmembers : (e'.queue r).members = (e.queue r).members.erase x := changed.members r
    rw [hmembers, List.length_erase_of_mem hmem]
    exact Nat.sub_lt (List.length_pos_of_mem hmem) Nat.one_pos

end Engine

/-! ## Inquiries -/

/-- A call on a router that answers with these words, and what is to come of it. -/
structure Inquiry where
  settings : Settings
  router : RouterRef
  words : Contents
  /-- what is on the stack below the call -/
  below : List Task
  result : Outcome Answer

namespace Inquiry

variable {i : Inquiry}

/-- The program only reads, and comes to the result. -/
structure Leads (i : Inquiry) (p : Program Request Answer) : Prop where
  reads : p.Asks Request.Reads
  result : p.result i.words.reply = i.result

/-- The caller, with this many attempts to follow. -/
def waiter (i : Inquiry) (c : CommandRef) (left : Nat) : Waiter :=
  ⟨i.router, c, .retrying .woken left⟩

/-- The part of the stack that the call is at, below the errands that come first. -/
inductive Part (i : Inquiry) (e : Engine) (chores : List Task) : List Task → Prop
  /-- its program goes on -/
  | performing {p : Program Request Answer} : i.Leads p → Part i e chores [.perform i.router p]
  /-- it waits for the frame of a read -/
  | framing {made : Command} {given : List UInt32} {next : Reply → Program Request Answer} :
      Fetches i.words i.router given made → i.Leads (next (.ok given)) →
      Part i e chores [.allocate i.router made (.waiting .woken), .resume i.router next]
  /-- its read is about to be tried -/
  | pausing {c : CommandRef} {given : List UInt32} {next : Reply → Program Request Answer} :
      e.Prepared i.words i.router c given → i.Leads (next (.ok given)) →
      Part i e chores [.attempt (i.waiter c i.settings.attempts), .resume i.router next]
  /-- its read is being tried -/
  | waiting {t : Task} {c : CommandRef} {left : Nat} {given : List UInt32}
      {next : Reply → Program Request Answer} :
      (t = .watch (i.waiter c left) ∨ ∃ deadline, t = .await (i.waiter c left) deadline) →
      e.Pending i.words i.router c given ∨ e.Provided i.words i.router c given →
      e.Minded i.router chores → i.Leads (next (.ok given)) →
      Part i e chores [t, .resume i.router next]
  /-- it is given the reply to its request -/
  | replying {reply : Reply} {next : Reply → Program Request Answer} : i.Leads (next reply) →
      Part i e chores [.reply reply, .resume i.router next]
  /-- it is answered -/
  | answered : Part i e chores [.answer i.result]

/-- The call is at this part of the stack, with errands before it, on an attached router that is
awake. -/
structure At (i : Inquiry) (part chores : List Task) (e : Engine) : Prop where
  stack : e.stack = chores ++ (part ++ i.below)
  loose : ∀ t ∈ chores, t.isLoose = true
  ready : e.Ready i.router
  linked : e.Linked i.router
  part : i.Part e chores part

theorem Part.exists_task (h : i.Part e chores part) : ∃ task more, part = task :: more := by
  cases h <;> exact ⟨_, _, rfl⟩

theorem Part.serves (h : i.Part e chores part)
    (serves : e.Serves e' i.words i.router chores chores') : i.Part e' chores' part := by
  cases h with
  | performing hp => exact .performing hp
  | framing hmade hnext => exact .framing hmade hnext
  | pausing hprepared hnext => exact .pausing (serves.prepared _ _ hprepared) hnext
  | waiting htask hended hminded hnext =>
    refine .waiting htask ?_ (serves.minded hminded) hnext
    exact hended.elim (serves.pending _ _) fun h => .inr (serves.provided _ _ h)
  | replying hnext => exact .replying hnext
  | answered => exact .answered

/-- Errands leave the call where it is. -/
theorem At.serves (k : i.At part chores e)
    (serves : e.Serves e' i.words i.router chores chores')
    (hs' : e'.stack = chores' ++ (part ++ i.below)) : i.At part chores' e' := by
  refine ⟨hs', serves.loose, serves.ready k.ready, ?_, k.part.serves serves⟩
  have htree : e'.topology.tree = e.topology.tree := congrArg Outline.tree serves.outline
  obtain ⟨id, hid⟩ := k.linked
  exact ⟨id, htree ▸ hid⟩

/-- A turn of the call itself, which leaves the router as it is. -/
theorem At.turn (k : i.At part [] e) (htree : e'.topology.tree = e.topology.tree)
    (hnaps : e'.naps = e.naps) (hdetached : (e'.router? i.router).map Router.detached =
      (e.router? i.router).map Router.detached)
    (hs' : e'.stack = chores' ++ (rest ++ i.below)) (hloose : ∀ t ∈ chores', t.isLoose = true)
    (hpart : i.Part e' chores' rest) : i.At rest chores' e' := by
  obtain ⟨id, hid⟩ := k.linked
  exact ⟨hs', hloose, k.ready.kept hnaps hdetached, ⟨id, htree ▸ hid⟩, hpart⟩

/-! ### Turns of the call itself -/

/-- A program that is done has come to the result. -/
theorem At.concluded {result : Outcome Answer} (k : i.At [.perform i.router (.done result)] [] e)
    (hp : i.Leads (.done result)) : i.At [.answer i.result] [] e.step := by
  have hs : e.stack = .perform i.router (.done result) :: i.below := k.stack
  have hstep : e.step = ({ e with stack := i.below } : Engine).push [.answer result] := by
    unfold step
    rw [hs]
  rw [hstep]
  obtain rfl : result = i.result := hp.result
  exact k.turn rfl rfl rfl rfl (List.forall_mem_nil _) .answered

/-- Any other program asks for a read, which waits for its frame unless its address is none. -/
theorem At.asked {request : Request} (k : i.At [.perform i.router (.ask request after)] [] e)
    (h : e.Stored) (hp : i.Leads (.ask request after)) :
    ∃ t, i.At [t, .resume i.router after] [] e.step := by
  have hs : e.stack = .perform i.router (.ask request after) :: i.below := k.stack
  obtain ⟨⟨hreads, hasks⟩, hresult⟩ := hp
  have leads {reply : Reply} (hreply : i.words.reply request = reply) : i.Leads (after reply) :=
    ⟨hasks reply, hreply ▸ hresult⟩
  cases hreads with
  | mk space adapter offset dwords =>
    obtain ⟨router, hr, hattached, hawake⟩ := k.ready
    have hstep : e.step = ({ e with stack := .resume i.router after :: i.below } : Engine).issue
        i.router (.read space adapter offset dwords) (.waiting .woken) := by
      unfold step
      rw [hs]
      rfl
    have hr' : ({ e with stack := .resume i.router after :: i.below } : Engine).router?
        i.router = some router := hr
    rw [hstep]
    unfold issue
    cases hmake : Transfer.address (.read space adapter offset dwords) with
    | error failure =>
      simp only
      refine ⟨_, k.turn rfl rfl rfl rfl (List.forall_mem_nil _) (.replying (leads ?_))⟩
      show i.words.answer _ = _
      unfold Contents.answer
      rw [hmake]
      rfl
    | ok address =>
      have hwords : i.words.reply (.transfer (.read space adapter offset dwords)
          (.waiting .woken)) = .ok (i.words.wordsAt address) := by
        show i.words.answer _ = _
        unfold Contents.answer
        rw [hmake]
        rfl
      have hcheck : Command.checkPayload (Transfer.read space adapter offset dwords).kind address
          (Transfer.read space adapter offset dwords).payload = .ok () := rfl
      simp only [hr', hattached, hawake, hcheck, Bool.false_eq_true, if_false]
      refine ⟨_, k.turn rfl rfl rfl rfl (List.forall_mem_nil _)
        (.framing ⟨h.ids i.router router hr, rfl, ?_, rfl⟩ (leads hwords))⟩
      obtain ⟨rfl, -, -, hmost⟩ := Address.of_make hmake
      exact hmost

/-- The read is given its frame, and its command with it. -/
theorem At.framed {made : Command}
    (k : i.At [.allocate i.router made (.waiting .woken), .resume i.router after] [] e)
    (h : e.Stored) (hsettings : e.topology.settings = i.settings)
    (hmade : Fetches i.words i.router given made) (hnext : i.Leads (after (.ok given))) :
    ∃ c, i.At [.attempt (i.waiter c i.settings.attempts), .resume i.router after] []
      (({ e with stack := .resume i.router after :: i.below } : Engine).begin i.router made
        (.waiting .woken)) := by
  refine ⟨⟨e.commands.length⟩, k.turn rfl rfl rfl ?_ (List.forall_mem_nil _)
    (.pausing ⟨fun hmem => ?_, made, ?_, hmade⟩ hnext)⟩
  · show Task.attempt ⟨i.router, ⟨e.commands.length⟩, .retrying .woken
      e.topology.settings.attempts⟩ :: _ = _
    rw [hsettings]
    rfl
  · exact Nat.lt_irrefl _ (h.lt_of_queued ⟨i.router, hmem⟩)
  · show Commands.get? (e.commands.add made).2 ⟨e.commands.length⟩ = _
    rw [Commands.get?_add, if_pos rfl]

/-- There always is a first attempt. -/
theorem exists_left (settings : Settings) : ∃ left, settings.attempts = left + 1 :=
  Nat.exists_eq_add_one.2 (Nat.lt_min.2 ⟨Nat.succ_pos _, by decide⟩)

/-- The read is queued, and the queue is about to be passed over. -/
theorem At.retried
    (k : i.At [.attempt (i.waiter c i.settings.attempts), .resume i.router after] [] e)
    (h : e.Sound) (hprepared : e.Prepared i.words i.router c given)
    (hnext : i.Leads (after (.ok given))) : ∃ left,
      i.At [.watch (i.waiter c left), .resume i.router after] [.drain i.router] e.step := by
  obtain ⟨left, hleft⟩ := exists_left i.settings
  have hs : e.stack = .attempt (i.waiter c (left + 1)) :: .resume i.router after :: i.below :=
    hleft ▸ k.stack
  obtain ⟨⟨-, hunqueued, -⟩, -⟩ := h.tasks _ (hs ▸ List.mem_cons_self)
  obtain ⟨router, hr, hattached, -⟩ := k.ready
  obtain ⟨-, command, hc, hfetches⟩ := hprepared
  have hstep : e.step = ({ e with stack := .resume i.router after :: i.below } : Engine).launch
      i.router c [.watch (i.waiter c left)] := by
    unfold step
    rw [hs]
    rfl
  have hpop := h.toStored.restack (.resume i.router after :: i.below)
  obtain ⟨begun, hstack⟩ := hpop.launch_spec hr hc hunqueued [.watch (i.waiter c left)]
  rw [hattached, ← hstep] at hstack
  rw [← hstep] at begun
  have hcore := congrArg (Option.map Router.detached) (begun.routers i.router)
  simp only [Option.map_map] at hcore
  refine ⟨left, k.turn ?_ ?_ hcore hstack (by simp [Task.isLoose, Task.isQuiet])
    (.waiting (.inl rfl) (.inl ⟨?_, ?_⟩) (fun _ _ _ => .inr List.mem_cons_self) hnext)⟩
  · rw [hstep]
    exact congrArg Outline.tree (outline_launch _ _ _ (by simp [Task.isScript]))
  · rw [hstep, naps_launch]
    rfl
  · rw [begun.members i.router, if_pos ⟨rfl, hattached⟩]
    exact List.mem_append_right _ List.mem_cons_self
  · obtain ⟨new, hnew, hsubstance, -⟩ := begun.after
    have haddress : new.address = command.address :=
      (congrArg Command.address hsubstance).trans rfl
    refine ⟨new, hnew, ⟨?_, ?_, ?_, ?_⟩, ?_, ?_⟩
    · exact (congrArg Command.node hsubstance).trans hfetches.node
    · exact (congrArg Command.kind hsubstance).trans hfetches.kind
    · rw [haddress]
      exact hfetches.most
    · rw [haddress]
      exact hfetches.words
    · exact congrArg Command.pollComplete hsubstance
    · intro hanswered
      have hfresh : new.answered = false := (congrArg Command.answered hsubstance).trans rfl
      cases hanswered.symm.trans hfresh

/-- The caller starts to wait. -/
theorem At.watched {left : Nat} (k : i.At [.watch (i.waiter c left), .resume i.router after] [] e)
    (hended : e.Pending i.words i.router c given ∨ e.Provided i.words i.router c given)
    (hminded : e.Minded i.router []) (hnext : i.Leads (after (.ok given))) :
    ∃ deadline, i.At [.await (i.waiter c left) deadline, .resume i.router after] [] e.step := by
  have hs : e.stack = .watch (i.waiter c left) :: .resume i.router after :: i.below := k.stack
  have hstep : e.step = ({ e with stack := .resume i.router after :: i.below } : Engine).push
      [.await (i.waiter c left) (e.now + e.topology.settings.timeoutMs)] := by
    unfold step
    rw [hs]
  rw [hstep]
  refine ⟨_, k.turn rfl rfl rfl rfl (List.forall_mem_nil _)
    (.waiting (.inr ⟨_, rfl⟩) ?_ hminded hnext)⟩
  exact hended.imp (fun h => ⟨h.queued, h.unended⟩) fun h => ⟨h.unqueued, h.ended⟩

/-- The caller goes on waiting as long as its read is under way. -/
theorem unsettled {left : Nat} {below : List Task} (h : Run settings turns e)
    (hpending : e.Pending i.words i.router c given) :
    ({ e with stack := below } : Engine).settle? (i.waiter c left) = none := by
  obtain ⟨-, command, hc, -, hpoll, -⟩ := hpending
  exact (settle?_retrying (e := { e with stack := below }) (w := i.waiter c left) rfl hc
    (h.clear c command hc)).1 hpoll

/-- It then takes its words. -/
theorem At.settled {left deadline : Nat}
    (k : i.At [.await (i.waiter c left) deadline, .resume i.router after] [] e)
    (h : Run settings turns e) (hprovided : e.Provided i.words i.router c given)
    (hnext : i.Leads (after (.ok given))) :
    e.canProceed = true ∧ i.At [.reply (.ok given), .resume i.router after] [] e.step := by
  have hs : e.stack = .await (i.waiter c left) deadline :: .resume i.router after :: i.below :=
    k.stack
  obtain ⟨-, command, hc, -, hverdict⟩ := hprovided
  obtain ⟨e', hsettle, hstack⟩ := (settle?_retrying
    (e := { e with stack := .resume i.router after :: i.below }) (w := i.waiter c left) rfl hc
      (h.clear c command hc)).2 _ hverdict
  have hpop := h.sound.toStored.restack (.resume i.router after :: i.below)
  obtain ⟨-, -, alike, -⟩ := hpop.settle?_spec hsettle
  have hstep : e.step = e' := by
    unfold step
    rw [hs]
    show (Engine.settle? _ _).getD e = e'
    rw [hsettle]
    rfl
  have hcore := congrArg (Option.map Router.detached) (alike.routers i.router)
  simp only [Option.map_map] at hcore
  rw [hstep]
  refine ⟨by simp [canProceed, pause, hs, hsettle], k.turn
    (congrArg Outline.tree (outline_settle? hsettle)) ?_ hcore hstack (List.forall_mem_nil _)
      (.replying hnext)⟩
  exact (naps_settle? hsettle).trans rfl

/-- The program goes on with the reply. -/
theorem At.replied (k : i.At [.reply reply, .resume i.router after] [] e)
    (hnext : i.Leads (after reply)) : i.At [.perform i.router (after reply)] [] e.step := by
  have hs : e.stack = .reply reply :: .resume i.router after :: i.below := k.stack
  have hstep : e.step = { e with stack := .perform i.router (after reply) :: i.below } := by
    unfold step
    rw [hs]
    rfl
  rw [hstep]
  exact k.turn rfl rfl rfl rfl (List.forall_mem_nil _) (.performing hnext)

/-! ### Every served move -/

section next

variable (h : Run i.settings turns e) (hq : e.Served i.words i.router m)
  (hm : e.move? m = some e')

include h hq hm

/-- A served move above the task of the call leaves the call where it is, and any other is a turn of
the call. -/
theorem At.next (k : i.At part chores e) :
    (∃ chores', i.At part chores' e' ∧
      (e'.queue i.router).members.length ≤ (e.queue i.router).members.length) ∨
    chores = [] ∧ (∀ arrival, m ≠ .receive arrival) ∧ ∃ part' chores', i.At part' chores' e' := by
  obtain ⟨task, more, rfl⟩ := k.part.exists_task
  have hs : e.stack = chores ++ task :: (more ++ i.below) := k.stack
  rcases hq.serves h hm hs k.loose with ⟨chores', hs', serves⟩ | ⟨rfl, hreceive, helapse⟩
  · exact .inl ⟨chores', k.serves serves hs', serves.shorter⟩
  · refine .inr ⟨rfl, hreceive, ?_⟩
    -- the task is one that nothing interrupts
    have working (hw : e.pause = .working) : e' = e.step := by
      rcases working_cases hw hm with ⟨-, rfl⟩ | ⟨ms, rfl, -⟩
      · rfl
      · exact absurd rfl (helapse ms)
    have hs : e.stack = task :: (more ++ i.below) := hs
    have hpart := k.part
    cases hpart with
    | @performing p hp =>
      rw [working (by unfold pause; rw [hs])]
      cases p with
      | done result => exact ⟨_, [], k.concluded hp⟩
      | ask request after =>
        obtain ⟨t, k'⟩ := k.asked h.sound.toStored hp
        exact ⟨_, [], k'⟩
    | framing hmade hnext =>
      cases m with
      | grant answer =>
        obtain rfl : answer = .ok () := hq
        obtain rfl : ({ e with stack := _ } : Engine).begin i.router _ (.waiting .woken) = e' := by
          simpa [move?, granted?, hs] using hm
        obtain ⟨c, k'⟩ := k.framed h.sound.toStored h.explored.settings_eq hmade hnext
        exact ⟨_, [], k'⟩
      | proceed => simp [move?, canProceed, pause, hs] at hm
      | back => simp [move?, returned?, hs] at hm
      | giveUp => exact hq.elim
      | collect => simp [move?, collected?, hs] at hm
      | call call => exact hq.elim
      | receive arrival => exact absurd rfl (hreceive arrival)
      | elapse ms => exact absurd rfl (helapse ms)
    | pausing hprepared hnext =>
      rw [working (by unfold pause; rw [hs])]
      obtain ⟨left, k'⟩ := k.retried h.sound hprepared hnext
      exact ⟨_, _, k'⟩
    | waiting htask hended hminded hnext =>
      rcases htask with rfl | ⟨deadline, rfl⟩
      · obtain ⟨deadline, k'⟩ := k.watched hended hminded hnext
        rw [working (by unfold pause; rw [hs])]
        exact ⟨_, [], k'⟩
      · cases m with
        | proceed =>
          rcases hended with hpending | hprovided
          · simp [move?, canProceed, pause, hs, unsettled h hpending] at hm
          · rw [step_of_proceed hm]
            exact ⟨_, [], (k.settled h hprovided hnext).2⟩
        | grant answer => simp [move?, granted?, hs] at hm
        | back => simp [move?, returned?, hs] at hm
        | giveUp => exact hq.elim
        | collect => simp [move?, collected?, hs] at hm
        | call call => exact hq.elim
        | receive arrival => exact absurd rfl (hreceive arrival)
        | elapse ms => exact absurd rfl (helapse ms)
    | replying hnext =>
      rw [working (by unfold pause; rw [hs])]
      exact ⟨_, [], k.replied hnext⟩
    | answered =>
      cases m with
      | collect => exact absurd hs (hq _ _)
      | proceed => simp [move?, canProceed, pause, hs] at hm
      | grant answer => simp [move?, granted?, hs] at hm
      | back => simp [move?, returned?, hs] at hm
      | giveUp => exact hq.elim
      | call call => exact hq.elim
      | receive arrival => exact absurd rfl (hreceive arrival)
      | elapse ms => exact absurd rfl (helapse ms)

end next

/-- **A served course keeps the call on its way.** -/
theorem At.along (k : Servedly i.words i.router e course e') (h : Run i.settings turns e)
    (hat : i.At part chores e) : ∃ part' chores', i.At part' chores' e' := by
  induction k with
  | start => exact ⟨part, chores, hat⟩
  | next k hq hm ih =>
    obtain ⟨part', chores', hat'⟩ := ih
    rcases hat'.next (k.run h) hq hm with ⟨chores'', hnext, -⟩ | ⟨-, -, part'', chores'', hnext⟩
    · exact ⟨_, _, hnext⟩
    · exact ⟨_, _, hnext⟩

/-! ### The answer -/

/-- Served moves lead to the answer. -/
def Ends (i : Inquiry) (e : Engine) : Prop :=
  ∃ more e', Servedly i.words i.router e more e' ∧ e'.stack = .answer i.result :: i.below

theorem Ends.step (h : i.Ends e') (hq : e.Served i.words i.router m) (hm : e.move? m = some e') :
    i.Ends e := by
  obtain ⟨more, e'', k, hs⟩ := h
  exact ⟨_, e'', (Servedly.single hq hm).append k, hs⟩

theorem Ends.working (h : i.Ends e.step) (hw : e.pause = .working) : i.Ends e :=
  h.step (m := .proceed) trivial (move?_of_working hw)

/-- The errands before a part of the call come to an end. -/
theorem keeps_at (i : Inquiry) (part : List Task) (n : Nat) :
    Keeps i.settings i.router (part ++ i.below) fun chores e =>
      (∃ turns, Run i.settings turns e) ∧ i.At part chores e ∧
        (e.queue i.router).members.length ≤ n where
  run hp := hp.1
  stack hp := hp.2.1.stack
  loose hp := hp.2.1.loose
  next hp hq hm := by
    obtain ⟨⟨turns, h⟩, k, hn⟩ := hp
    have hserved : Engine.Served _ i.words i.router _ :=
      hq.served hm k.stack (k.loose _ List.mem_cons_self)
    rcases k.next h hserved hm with ⟨chores', k', hle⟩ | ⟨hnil, -⟩
    · exact ⟨chores', ⟨_, h.served hserved hm⟩, k', Nat.le_trans hle hn⟩
    · cases hnil

/-- A course that only does errands is served. -/
theorem served_of_quietly (k : Quietly r e course e')
    (hloose : ∀ turn ∈ course, ∃ t rest, turn.before.stack = t :: rest ∧ t.isLoose = true) :
    Servedly words r e course e' := by
  induction k with
  | start => exact .start
  | next _ hq hm ih =>
    obtain ⟨hfirst, hrest⟩ := List.forall_mem_cons.1 hloose
    obtain ⟨t, rest, hs, ht⟩ := hfirst
    exact (ih hrest).next (hq.served hm hs ht) hm

/-- It is enough that the call ends once there are no errands before it. -/
theorem At.ends_of_clear (k : i.At part chores e) (h : Run i.settings turns e)
    (hend : ∀ turns e', Run i.settings turns e' → i.At part [] e' →
      (e'.queue i.router).members.length ≤ (e.queue i.router).members.length → i.Ends e') :
    i.Ends e := by
  obtain ⟨more, e', quietly, ⟨⟨turns', h'⟩, k', hle⟩, hmore⟩ :=
    (keeps_at i part _).clears ⟨⟨turns, h⟩, k, Nat.le_refl _⟩
  have served : Servedly i.words i.router e more e' := by
    refine served_of_quietly quietly fun turn hturn => ?_
    obtain ⟨t, chores', -, k'', -⟩ := hmore turn hturn
    exact ⟨t, _, k''.stack, k''.loose t List.mem_cons_self⟩
  obtain ⟨more', e'', served', hs⟩ := hend turns' e' h' k' hle
  exact ⟨_, e'', served.append served', hs⟩

/-- A signal for what holds the slot shortens the queue, or is noted there. -/
theorem At.signalled (k : i.At part chores e) (h : Run i.settings turns e)
    (hc : e.Holds i.router x old) (hrests : e.isWorking = false) (signal : Signal) :
    ∃ m e' chores', e.Served i.words i.router m ∧ e.move? m = some e' ∧ i.At part chores' e' ∧
      (e'.queue i.router).members.length ≤ (e.queue i.router).members.length ∧
      ((e'.queue i.router).members.length < (e.queue i.router).members.length ∨
        e'.isWorking = false ∧ ∃ received, e'.Holds i.router x (old.noted signal received)) := by
  obtain ⟨arrival, received, reaches, hserved⟩ := hc.exists_reaching h k.linked i.words signal
  have hm : e.move? (.receive arrival) = some (e.receive arrival) := by simp [move?, hrests]
  rcases k.next h hserved hm with ⟨chores', k', hle⟩ | ⟨-, hreceive, -⟩
  · refine ⟨_, _, chores', hserved, hm, k', hle, ?_⟩
    rcases h.sound.toStored.signal_cases hc (reaches.receive hc) with hlt | ⟨hc', hstack⟩
    · exact .inl hlt
    · exact .inr ⟨by simp [isWorking, pause, hstack], received, hc'⟩
  · exact absurd rfl (hreceive arrival)

/-- **Both signals for what holds the slot shorten the queue.** -/
theorem At.relieved (k : i.At part chores e) (h : Run i.settings turns e)
    (hc : e.Holds i.router x old) (hrests : e.isWorking = false) :
    ∃ more e' chores', Servedly i.words i.router e more e' ∧ i.At part chores' e' ∧
      (e'.queue i.router).members.length < (e.queue i.router).members.length := by
  obtain ⟨m, e₁, chores₁, hq, hm, k₁, hle, hlt | ⟨hrests₁, received, hc₁⟩⟩ :=
    k.signalled h hc hrests .sent
  · exact ⟨_, e₁, chores₁, .single hq hm, k₁, hlt⟩
  · have h₁ := h.served hq hm
    obtain ⟨m', e₂, chores₂, hq', hm', k₂, -, hlt | ⟨-, received', hc₂⟩⟩ :=
      k₁.signalled h₁ hc₁ hrests₁ .answered
    · exact ⟨_, e₂, chores₂, (Servedly.single hq hm).next hq' hm', k₂,
        Nat.lt_of_lt_of_le hlt hle⟩
    · have hwaits := (h₁.served hq' hm').sound.toStored.isComplete_of_slot hc₂.slotOf?
      simp [Command.noted, Command.isComplete] at hwaits

/-- While a read waits and there are no errands, something holds the slot. -/
theorem exists_holds (h : e.Stored) (hpending : e.Pending i.words i.router c given)
    (hminded : e.Minded i.router []) : ∃ x old, e.Holds i.router x old := by
  obtain ⟨command, hc, ⟨-, router, hr, -⟩, -⟩ := h.members i.router c hpending.queued
  have hqueue := queue_of_router? hr
  have hfront : e.front? i.router = some router.front := by
    unfold front?
    rw [hr]
    rfl
  cases hslot : (e.queue i.router).slot with
  | none =>
    have hfree : router.front.slot = none := by
      rw [hqueue] at hslot
      exact hslot
    rcases hminded _ hfront hfree with hnil | hmem
    · have hqueued := Queue.mem_members.1 hpending.queued
      rw [hslot, hqueue, show router.queue.pending = [] from hnil] at hqueued
      simp at hqueued
    · cases hmem
  | some x =>
    obtain ⟨old, hold, -⟩ := h.members i.router x (Queue.mem_members.2 (.inl hslot))
    exact ⟨x, old, hslot, hold⟩

section ends

variable (hand : ∀ reply turns e, Run i.settings turns e →
  i.At [.perform i.router (after reply)] [] e → i.Ends e)

include hand

theorem At.ends_of_reply (k : i.At [.reply reply, .resume i.router after] chores e)
    (h : Run i.settings turns e) : i.Ends e := by
  refine k.ends_of_clear h fun turns e h k _ => ?_
  have hs : e.stack = .reply reply :: .resume i.router after :: i.below := k.stack
  have hw : e.pause = .working := by
    unfold pause
    rw [hs]
  have hpart := k.part
  cases hpart with
  | waiting htask => rcases htask with heq | ⟨deadline, heq⟩ <;> cases heq
  | replying hnext => exact .working (hand reply _ _ (h.proceed hw) (k.replied hnext)) hw

/-- Whoever holds the slot is given both its signals, until the read of the call has its words. -/
theorem At.ends_of_await {left deadline : Nat}
    (k : i.At [.await (i.waiter c left) deadline, .resume i.router after] chores e)
    (h : Run i.settings turns e) : i.Ends e := by
  generalize hn : (e.queue i.router).members.length = n
  induction n using Nat.strong_induction_on generalizing e turns chores with
  | _ n ih =>
    refine k.ends_of_clear h fun turns e₁ h k hle => ?_
    have hs : e₁.stack = .await (i.waiter c left) deadline :: .resume i.router after :: i.below :=
      k.stack
    have hpart := k.part
    cases hpart with
    | @waiting t c' left' given next htask hended hminded hnext =>
    obtain ⟨rfl, rfl⟩ : c' = c ∧ left' = left := by
      rcases htask with heq | ⟨deadline', heq⟩
      · cases heq
      · cases heq
        exact ⟨rfl, rfl⟩
    rcases hended with hpending | hprovided
    · obtain ⟨x, old, hc⟩ := exists_holds h.sound.toStored hpending hminded
      have hrests : e₁.isWorking = false := by
        simp [isWorking, pause, hs, unsettled h hpending]
      obtain ⟨more, e₂, chores₂, served, k₂, hlt⟩ := k.relieved h hc hrests
      obtain ⟨more', e₃, served', hs'⟩ := ih _ (by omega) k₂ (served.run h) rfl
      exact ⟨_, e₃, served.append served', hs'⟩
    · obtain ⟨hp, k'⟩ := k.settled h hprovided hnext
      have hserved : e₁.Served i.words i.router .proceed := trivial
      have hm : e₁.move? .proceed = some e₁.step := by simp [move?, hp]
      exact .step (k'.ends_of_reply hand (h.served hserved hm)) hserved hm

theorem At.ends_of_watch {left : Nat}
    (k : i.At [.watch (i.waiter c left), .resume i.router after] chores e)
    (h : Run i.settings turns e) : i.Ends e := by
  refine k.ends_of_clear h fun turns e h k _ => ?_
  have hs : e.stack = .watch (i.waiter c left) :: .resume i.router after :: i.below := k.stack
  have hw : e.pause = .working := by
    unfold pause
    rw [hs]
  have hpart := k.part
  cases hpart with
  | @waiting t c' left' given next htask hended hminded hnext =>
  rcases htask with heq | ⟨deadline, heq⟩ <;> cases heq
  obtain ⟨deadline, k'⟩ := k.watched hended hminded hnext
  exact .working (k'.ends_of_await hand (h.proceed hw)) hw

theorem At.ends_of_attempt {left : Nat}
    (k : i.At [.attempt (i.waiter c left), .resume i.router after] chores e)
    (h : Run i.settings turns e) : i.Ends e := by
  refine k.ends_of_clear h fun turns e h k _ => ?_
  have hs : e.stack = .attempt (i.waiter c left) :: .resume i.router after :: i.below := k.stack
  have hw : e.pause = .working := by
    unfold pause
    rw [hs]
  have hpart := k.part
  cases hpart with
  | waiting htask => rcases htask with heq | ⟨deadline, heq⟩ <;> cases heq
  | pausing hprepared hnext =>
    obtain ⟨left, k'⟩ := k.retried h.sound hprepared hnext
    exact .working (k'.ends_of_watch hand (h.proceed hw)) hw

/-- Whatever the call has come to with its request, it goes on with the reply. -/
theorem At.ends_of_resume (k : i.At [t, .resume i.router after] chores e)
    (h : Run i.settings turns e) : i.Ends e := by
  have hpart := k.part
  cases hpart with
  | @framing made given next hmade hnext =>
    refine k.ends_of_clear h fun turns e h k _ => ?_
    have hs : e.stack = .allocate i.router made (.waiting .woken) :: .resume i.router after ::
        i.below := k.stack
    have hm : e.move? (.grant (.ok ())) =
        some (({ e with stack := .resume i.router after :: i.below } : Engine).begin i.router made
          (.waiting .woken)) := by
      simp [move?, granted?, hs]
    obtain ⟨c, k'⟩ := k.framed h.sound.toStored h.explored.settings_eq hmade hnext
    have hserved : e.Served i.words i.router (.grant (.ok ())) := rfl
    exact .step (k'.ends_of_attempt hand (h.served hserved hm)) hserved hm
  | pausing => exact k.ends_of_attempt hand h
  | waiting htask =>
    rcases htask with rfl | ⟨deadline, rfl⟩
    · exact k.ends_of_watch hand h
    · exact k.ends_of_await hand h
  | replying => exact k.ends_of_reply hand h

end ends

/-- **Served moves lead through the program to the answer.** -/
theorem At.ends_of_perform (k : i.At [.perform i.router p] chores e)
    (h : Run i.settings turns e) : i.Ends e := by
  induction p generalizing e turns chores with
  | done result =>
    refine k.ends_of_clear h fun turns e h k _ => ?_
    have hs : e.stack = .perform i.router (.done result) :: i.below := k.stack
    have hpart := k.part
    cases hpart with
    | performing hp =>
      refine .working ⟨[], _, .start, (k.concluded hp).stack⟩ ?_
      unfold pause
      rw [hs]
  | ask request next ih =>
    refine k.ends_of_clear h fun turns e h k _ => ?_
    have hs : e.stack = .perform i.router (.ask request next) :: i.below := k.stack
    have hw : e.pause = .working := by
      unfold pause
      rw [hs]
    have hpart := k.part
    cases hpart with
    | performing hp =>
      obtain ⟨t, k'⟩ := k.asked h.sound.toStored hp
      exact .working (k'.ends_of_resume (fun reply _ _ h' k'' => ih reply k'' h')
        (h.proceed hw)) hw

/-- **Served moves lead on to the answer**, wherever the call is. -/
theorem At.ends (k : i.At part chores e) (h : Run i.settings turns e) : i.Ends e := by
  have hand (after : Reply → Program Request Answer) (reply : Reply) (turns : List Turn)
      (e : Engine) (h : Run i.settings turns e)
      (k : i.At [.perform i.router (after reply)] [] e) : i.Ends e := k.ends_of_perform h
  have hpart := k.part
  cases hpart with
  | performing => exact k.ends_of_perform h
  | framing | pausing | waiting | replying => exact k.ends_of_resume (hand _) h
  | answered =>
    exact k.ends_of_clear h fun turns e h k _ => ⟨[], e, .start, k.stack⟩

/-- Where the call is answered, it is answered with the result. -/
theorem At.answered {result : Outcome Answer} (k : i.At part chores e)
    (hs : e.stack = .answer result :: i.below) : result = i.result := by
  have hparts : chores ++ part = [.answer result] := by
    have hsame : chores ++ part ++ i.below = [Task.answer result] ++ i.below :=
      (List.append_assoc ..).trans (k.stack.symm.trans hs)
    exact List.append_cancel_right hsame
  obtain ⟨task, more, rfl⟩ := k.part.exists_task
  obtain ⟨rfl, hpart⟩ : chores = [] ∧ task :: more = [.answer result] := by
    cases chores with
    | nil => exact ⟨rfl, hparts⟩
    | cons t chores => simp at hparts
  rw [hpart] at k
  have hpart := k.part
  cases hpart
  rfl

end Inquiry

/-! ## Calls -/

theorem Operation.isSearch_of_searches {operation : Operation} (h : operation.Searches router) :
    operation.isSearch = true := by
  cases operation with
  | transfer | suspend => exact h.elim
  | findCapability | findAdapterCapability | linkControllerUuid => rfl

/-- The highest adapter of an attached router is one that can be addressed. -/
theorem Run.maxAdapter_le (h : Run settings turns e) (hl : e.Linked r)
    (hr : e.router? r = some router) (identity : Identity)
    (hidentity : router.identity = some identity) : identity.maxAdapter ≤ Limit.maxAdapter := by
  have hs := h.sound
  obtain ⟨⟨value, route, parent⟩, hplace, rfl⟩ := Option.map_eq_some_iff.1
    ((RouterTree.get?_eq_place _ _).symm.trans (hs.toStored.get?_of_linked hl))
  have hroute : e.topology.tree.route? ⟨value.index⟩ = some route := by
    rw [RouterTree.route?_eq_place, hplace]
    rfl
  obtain ⟨router', hr', -, -, hknown⟩ := hs.router_of_route hroute
  cases hr.symm.trans hr'
  exact (h.enrolled hroute (hknown.trans hidentity)).coded

/-- A search of a router with these words. -/
def Operation.inquiry (operation : Operation) (settings : Settings) (r : RouterRef)
    (router : Router) (words : Contents) (below : List Task) : Inquiry :=
  ⟨settings, r, words, below, operation.comesTo settings router words⟩

section search

variable {operation : Operation} (h : Run settings turns e₀) (hlinked : e₀.Linked r)
  (hready : e₀.Ready r) (hr : e₀.router? r = some router) (hsearch : operation.Searches router)
  (hm : e₀.move? (.call (.operate r operation)) = some e)

include h hlinked hready hr hsearch hm

/-- A search that is called for is about to begin. -/
theorem Run.inquires (words : Contents) :
    (operation.inquiry settings r router words e₀.stack).At
      [.perform r (operation.program settings router)] [] e := by
  have hsettings : e₀.topology.settings = settings := h.explored.settings_eq
  obtain rfl : e = e₀.push [.perform r (operation.program settings router)] := by
    have hm : (if e₀.isWorking then none else some (e₀.operate r operation)) = some e := hm
    split at hm
    · cases hm
    · rw [← Option.some.inj hm]
      unfold operate
      rw [hr, hsettings]
  have hreads := Operation.reads_program settings router (Operation.isSearch_of_searches hsearch)
  exact ⟨rfl, List.forall_mem_nil _, hready, hlinked, .performing ⟨hreads, rfl⟩⟩

/-- **A search on a router that answers.** As long as nobody calls or gives up and the router
answers each request with the words that stand at the address asked for, the search is answered with
what its program comes to over these words, and served moves always lead on to that answer. It is a
finding, nothing found, or a fault of the far end, unless the registers lead the search past the end
of a space; the caller is then blamed for an argument that is not its own. -/
theorem Run.searched (k : Servedly words r e course e') :
    (∀ result, e'.stack = .answer result :: e₀.stack →
      result = operation.comesTo settings router words) ∧
    (∃ more e'', Servedly words r e' more e'' ∧
      e''.stack = .answer (operation.comesTo settings router words) :: e₀.stack) ∧
    (¬ operation.Overruns words router → (operation.comesTo settings router words).Fair) ∧
    (operation.Overruns words router → (operation.comesTo settings router words).Blames) := by
  have first : Run settings (⟨e₀, _, e⟩ :: turns) e :=
    h.next (fun call heq => by cases heq; exact .inl hlinked) hm
  obtain ⟨part, chores, hat⟩ :=
    (h.inquires hlinked hready hr hsearch hm words).along k first
  exact ⟨fun result hs => hat.answered hs, hat.ends (k.run first),
    Operation.result_spec hsearch (h.maxAdapter_le hlinked hr) settings words⟩

end search

/-! ## Registers that lead past the end -/

/-- The registers of a host router whose second header is a long one in the last word. -/
def overrunning : Contents
  | .router, _, 0 => 0x12348087
  | .router, _, 1 => 0x00020010
  | .router, _, 0x10 => CapabilityWord.pack 0 CapabilityWord.vendorSpecific 7 0
  | .router, _, 0x11 => 0x00021fff
  | .router, _, 0x1fff => CapabilityWord.pack 0 CapabilityWord.vendorSpecific 8 0
  | _, _, _ => 0

theorem overruns_overrunning (router : Router) :
    (Operation.findCapability (.basic 3)).Overruns overrunning router := by
  refine ⟨1, by decide, fun j hj => ?_, by decide, by decide⟩
  obtain rfl : j = 0 := Nat.lt_one_iff.1 hj
  exact ⟨_, rfl, by decide⟩

/-- A host router with these registers is attached, and a capability of it is called for. -/
theorem exists_overrunning : ∃ turns e₀ router, Run {} turns e₀ ∧ e₀.Linked ⟨0⟩ ∧
    e₀.Ready ⟨0⟩ ∧ e₀.router? ⟨0⟩ = some router ∧
    e₀.move? (.call (.operate ⟨0⟩ (.findCapability (.basic 3)))) =
      some (e₀.operate ⟨0⟩ (.findCapability (.basic 3))) := by
  have played : (replay? {} (hostMoves
      (overrunning.wordsAt ⟨.router, 0, 0, Register.basicDwords, 0⟩)).reverse).any (fun p =>
      decide (p.2.topology.tree.get? ⟨0⟩ = some ⟨0⟩) &&
      (p.2.router? ⟨0⟩).any (fun router => !router.detached && !router.suspended) &&
      !p.2.isWorking) = true := by
    decide +kernel
  obtain ⟨turns, e₀, run, hcheck⟩ := exists_of_replay? played
  simp only [Bool.and_eq_true, Option.any_eq_true, decide_eq_true_eq, Bool.not_eq_true']
    at hcheck
  obtain ⟨⟨hlinked, router, hr, hattached, hawake⟩, hrests⟩ := hcheck
  exact ⟨turns, e₀, router, run, ⟨_, hlinked⟩, ⟨router, hr, hattached, hawake⟩, hr,
    by simp [move?, hrests, call]⟩

/-- A search for a capability of that router blames its caller for an offset of the registers. -/
theorem overrun_blames : ∃ turns e₀ e course e', Run {} turns e₀ ∧ e₀.Linked ⟨0⟩ ∧
    e₀.Ready ⟨0⟩ ∧ e₀.move? (.call (.operate ⟨0⟩ (.findCapability (.basic 3)))) = some e ∧
    Servedly overrunning ⟨0⟩ e course e' ∧
    ∃ fault, e'.stack = .answer (.error (.invalidArgument fault)) :: e₀.stack := by
  obtain ⟨turns, e₀, router, run, hlinked, hready, hr, hm⟩ := exists_overrunning
  have hsearch : (Operation.findCapability (.basic 3)).Searches router := trivial
  obtain ⟨-, ⟨course, e', k, hs⟩, -, hblames⟩ := run.searched hlinked hready hr hsearch hm
    (.start : Servedly overrunning ⟨0⟩ _ [] _)
  obtain ⟨fault, hfault⟩ := hblames (overruns_overrunning router)
  exact ⟨turns, e₀, _, course, e', run, hlinked, hready, hm, k, fault, by rw [hs, hfault]⟩

/-- **Not every search on a router that answers is fair to its caller.** -/
theorem fair_search_fails :
    ¬ ∀ (settings : Settings) (turns course : List Turn) (e₀ e e' : Engine) (r : RouterRef)
      (router : Router) (operation : Operation) (words : Contents) (result : Outcome Answer),
      Run settings turns e₀ → e₀.Linked r → e₀.Ready r → e₀.router? r = some router →
      operation.Searches router → e₀.move? (.call (.operate r operation)) = some e →
      Servedly words r e course e' → e'.stack = .answer result :: e₀.stack → result.Fair := by
  intro hall
  obtain ⟨turns, e₀, router, run, hlinked, hready, hr, hm⟩ := exists_overrunning
  have first := run.next (fun call heq => by cases heq; exact .inl hlinked) hm
  have hsearch : (Operation.findCapability (.basic 3)).Searches router := trivial
  obtain ⟨course, e', k, hs⟩ :=
    (run.inquires hlinked hready hr hsearch hm overrunning).ends first
  obtain ⟨fault, hfault⟩ := (Operation.result_spec hsearch (run.maxAdapter_le hlinked hr) {}
    overrunning).2 (overruns_overrunning router)
  have hfair := hall _ _ _ _ _ _ _ _ _ _ _ run hlinked hready hr hsearch hm k hs
  have hresult : (Operation.inquiry (.findCapability (.basic 3)) {} ⟨0⟩ router overrunning
      e₀.stack).result = .error (.invalidArgument fault) := hfault
  rw [hresult] at hfair
  rcases hfair with ⟨a, heq⟩ | heq | ⟨fault', heq⟩ <;> cases heq

end RouterFabric
