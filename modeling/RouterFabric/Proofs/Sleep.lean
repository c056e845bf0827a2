import RouterFabric.Proofs.Engine.Naps
import RouterFabric.Proofs.Requests
import RouterFabric.Proofs.Sessions

/-!
# What a sleeping router still sends

A call that puts a router to sleep returns well only once the router is marked as asleep, and from
then on no request becomes a command of the router. What had become one before is not held back: it
stays in the queue of the router, and is handed to the transport when its turn comes.

* `Program.Lulls`, `Run.lulled` : a call does not put a router to sleep without marking it
* `Run.wakeful` : what waits or is tried on a sleeping router was asked for before it fell asleep
* `Run.sleeping` : the frames of a router that has been put to sleep
* `sleeping_silent_fails` : a sleeping router whose queue goes on
-/

namespace RouterFabric

open Engine

variable {settings : Settings} {turns later earlier since before : List Turn} {turn : Turn}
  {e e' : Engine} {m : Move} {r : RouterRef} {c : CommandRef}

/-! ## Falling asleep -/

namespace Program

variable {α β : Type}

/-- The program fails, or has its router marked as asleep on the way. -/
def Lulls : Program Request α → Prop
  | .done result => ∃ failure, result = .error failure
  | .ask request next => request = .fallAsleep ∨ ∀ reply, (next reply).Lulls

theorem Lulls.bind {p : Program Request α} (h : p.Lulls) (f : α → Program Request β) :
    (p >>= f).Lulls := by
  induction p with
  | done result =>
    obtain ⟨failure, rfl⟩ := h
    exact ⟨failure, rfl⟩
  | ask request next ih => exact h.imp id fun hnext reply => ih reply (hnext reply)

theorem lulls_bind (p : Program Request α) {f : α → Program Request β} (hf : ∀ a, (f a).Lulls) :
    (p >>= f).Lulls := by
  induction p with
  | done result =>
    cases result with
    | ok a => exact hf a
    | error failure => exact ⟨failure, rfl⟩
  | ask request next ih => exact .inr ih

theorem lulls_fail (failure : Failure) : (Program.fail failure : Program Request α).Lulls :=
  ⟨failure, rfl⟩

theorem lulls_fallAsleep : (Program.request Request.fallAsleep).Lulls :=
  .inl rfl

end Program

namespace Procedure

open Program

theorem lulls_awaitSleep (waitMs more : Nat) : (awaitSleep waitMs more).Lulls := by
  induction more with
  | zero =>
    unfold awaitSleep
    refine lulls_bind _ fun _ => lulls_bind _ fun words => ?_
    split
    · exact lulls_fallAsleep.bind _
    · exact lulls_fail _
  | succ more ih =>
    unfold awaitSleep
    refine lulls_bind _ fun _ => lulls_bind _ fun words => ?_
    split
    · exact lulls_fallAsleep.bind _
    · exact ih

theorem lulls_suspend (settings : Settings) : (suspend settings false).Lulls := by
  refine lulls_bind _ fun words => lulls_bind _ fun control => lulls_bind _ fun _ => ?_
  exact lulls_awaitSleep _ _

end Procedure

/-- The call whose lowest task this is fails, or has the router marked as asleep on the way. -/
def Task.Lulls (r : RouterRef) : Task → Prop
  | .perform r' program => r' = r ∧ program.Lulls
  | .resume r' next => r' = r ∧ ∀ reply, (next reply).Lulls
  | .answer result => ∃ failure, result = .error failure
  | _ => False

/-- A call wakes the router in this turn. -/
def Turn.Wakes (turn : Turn) (r : RouterRef) : Prop :=
  turn.move = .call (.resume r) ∧ turn.before.Asleep r

/-- A router stays asleep, unless a call wakes it. -/
theorem Engine.Asleep.turned (h : e.Asleep r) (hm : e.move? m = some e') :
    Turn.Wakes ⟨e, m, e'⟩ r ∨ e'.Asleep r := by
  by_cases hcall : m = .call (.resume r)
  · exact .inl ⟨hcall, h⟩
  · exact .inr (h.moved hm hcall)

/-- A program has the router marked as asleep in this turn. -/
def Turn.Marks (turn : Turn) (r : RouterRef) : Prop :=
  turn.move = .proceed ∧
    ∃ next below, turn.before.stack = .perform r (.ask .fallAsleep next) :: below

/-- The router is woken in one of these turns, and not marked as asleep afterwards. -/
def Awoken (r : RouterRef) (course : List Turn) : Prop :=
  ∃ after wake before, course = after ++ wake :: before ∧ wake.Wakes r ∧
    ∀ turn ∈ after, ¬ turn.Marks r

theorem Awoken.exists_wakes {r : RouterRef} {course : List Turn} (h : Awoken r course) :
    ∃ turn ∈ course, turn.Wakes r := by
  obtain ⟨after, wake, before, rfl, hwakes, -⟩ := h
  exact ⟨wake, List.mem_append_right after List.mem_cons_self, hwakes⟩

/-- A router that a program marks is asleep. -/
theorem Engine.asleep_step {next : Reply → Program Request Answer} {below : List Task}
    {router : Router} (hs : e.stack = .perform r (.ask .fallAsleep next) :: below)
    (hr : e.router? r = some router) : e.step.Asleep r := by
  have hstep : e.step.naps = e.naps.modify r.index fun _ => true := by
    unfold step
    rw [hs]
    exact naps_updateRouter _ r fun _ => rfl
  rw [asleep_iff, hstep, List.getElem?_modify, naps, List.getElem?_map,
    show e.routers[r.index]? = some router from hr]
  exact congrArg some (if_pos rfl)

/-- A router is asleep after the turn in which a program marks it. -/
theorem Run.asleep_of_marks (prior : Run settings turns e) (hm : e.move? m = some e')
    (hmarks : Turn.Marks ⟨e, m, e'⟩ r) : e'.Asleep r := by
  obtain ⟨hproceed, next, below, hs⟩ := hmarks
  obtain rfl : m = .proceed := hproceed
  have hknown : e.Known r := (prior.sound.tasks (.perform r (.ask .fallAsleep next))
    ((show e.stack = _ from hs) ▸ List.mem_cons_self)).1
  obtain ⟨router, hr⟩ := router_of_known prior.sound.toStored hknown
  rw [step_of_proceed hm]
  exact asleep_step hs hr

/-- What a call that puts a router to sleep has come to. -/
def Session.Lulled (session : Session) (e : Engine) (part : List Task) : Prop :=
  ∀ r, session.call = .operate r .suspend → Awoken r session.course ∨ e.Asleep r ∨
    ∀ t ∈ part, t.isBase = true → t.Lulls r

theorem Session.Lulled.turned {session session' : Session} {part part' : List Task}
    (h : session.Lulled e part) (prior : Run settings turns e) (hm : e.move? m = some e')
    (hcall : session'.call = session.call)
    (hcourse : session'.course = ⟨e, m, e'⟩ :: session.course)
    (hpart : ∀ r, (∀ t ∈ part, t.isBase = true → t.Lulls r) →
      e'.Asleep r ∨ ∀ t ∈ part', t.isBase = true → t.Lulls r) : session'.Lulled e' part' := by
  intro r hsuspend
  rw [hcall] at hsuspend
  rw [hcourse]
  rcases h r hsuspend with ⟨after, wake, before, hsplit, hwakes, hafter⟩ | hasleep | hlulls
  · by_cases hmarks : Turn.Marks ⟨e, m, e'⟩ r
    · exact .inr (.inl (prior.asleep_of_marks hm hmarks))
    · exact .inl ⟨_ :: after, wake, before, congrArg (_ :: ·) hsplit, hwakes,
        List.forall_mem_cons.2 ⟨hmarks, hafter⟩⟩
  · rcases hasleep.turned hm with hwakes | hasleep
    · exact .inl ⟨[], _, _, rfl, hwakes, List.forall_mem_nil _⟩
    · exact .inr (.inl hasleep)
  · exact .inr (hpart r hlulls)

/-- **A call that puts a router to sleep does not end well without marking it.** -/
theorem Run.lulled (h : Run settings turns e) :
    List.Forall₂ (fun session part => session.Lulled e part) (sessions settings turns)
      (segments e.stack) := by
  refine h.along (P := fun _ e session part => session.Lulled e part) ?start ?called ?left
    ?advanced
  case start =>
    intro t _ r hsuspend
    cases hsuspend
  case called =>
    intro turns e call e' t tasks prior k hm ht he' htasks r hsuspend
    cases hsuspend
    have begun {t' : Task} (hs : e'.stack = t' :: e.stack) (hlulls : t'.Lulls r) :
        ∀ t₂ ∈ [t], t₂.isBase = true → t₂.Lulls r := by
      have heq : t' = t := base_of_begun [] (hs.symm.trans he')
      exact List.forall_mem_singleton.2 fun _ => heq ▸ hlulls
    cases k with
    | answered result hresult hs a =>
      exact .inr (.inr (begun hs (hresult r .suspend rfl)))
    | operated r operation router settings hr hs a =>
      cases hasleep : router.suspended with
      | true => exact .inr (.inl (Asleep.moved ⟨router, hr, hasleep⟩ hm nofun))
      | false =>
        refine .inr (.inr (begun hs ⟨rfl, ?_⟩))
        show (Procedure.suspend settings router.suspended >>= fun _ => _).Lulls
        rw [hasleep]
        exact (Procedure.lulls_suspend settings).bind _
  case left =>
    intro turns e m e' session part gone tasks below prior ha hm hp he he' hpart
    exact hp.turned prior hm rfl rfl fun r hlulls => .inr hlulls
  case advanced =>
    intro turns e m e' session part part' tasks below prior hcall hm k hhead hp a
    refine hp.turned prior hm rfl rfl fun r hlulls => ?_
    obtain ⟨t, ht, hbase⟩ := a.was.exists_base
    have ht₁ := hlulls t ht hbase
    obtain ⟨t', ht', hbase'⟩ := a.becomes.exists_base
    have sole (hlulls : t'.Lulls r) : ∀ t ∈ part', t.isBase = true → t.Lulls r :=
      fun t₂ ht₂ hbase₂ => a.becomes.base_unique ht' ht₂ hbase' hbase₂ ▸ hlulls
    cases a.lowers t ht t' ht' hbase hbase' with
    | kept => exact .inr (sole ht₁)
    | concluded hs => exact .inr (sole ht₁.2)
    | @asked r' request next below' hs =>
      obtain ⟨rfl, rfl | hnext⟩ := ht₁
      · have hworking : e.pause = .working := by
          unfold pause
          rw [hs]
        rcases working_cases hworking hm with ⟨rfl, -⟩ | ⟨ms, -, rfl⟩
        · exact .inl (prior.asleep_of_marks hm ⟨rfl, next, below', hs⟩)
        · exact absurd rfl (a.stirs [])
      · exact .inr (sole ⟨rfl, hnext⟩)
    | resumed reply =>
      obtain ⟨rfl, hnext⟩ := ht₁
      exact .inr (sole ⟨rfl, hnext reply⟩)
    | registered => exact absurd ht₁ id

/-! ## Falling out of use -/

/-- No command is made for a router that is asleep. -/
theorem Engine.Issues.awake {t : Transfer} {style : Style} {command : Command}
    (k : e.Issues m e' r t style command) (hm : e.move? m = some e') : ¬ e.Asleep r := by
  rintro ⟨router, hr, hasleep⟩
  obtain ⟨rfl, hnamed, ⟨next, below, hs⟩, router', address, hr', hattached, haddress, -⟩ := k
  cases hr'.symm.trans hr
  have hstep : e.step = ((({ e with stack := below } : Engine).push [.resume r next]).push
      [.reply (.error .suspended)]) := by
    unfold step
    rw [hs]
    show Engine.issue _ r t style = _
    unfold issue
    simp only [haddress]
    rw [show (({ e with stack := below } : Engine).push [.resume r next]).router? r =
      some router from hr]
    simp only [hattached, hasleep]
    rfl
  rw [step_of_proceed hm, hstep] at hnamed
  exact absurd hnamed (Nat.ne_of_lt (Nat.lt_succ_self _))

/-- What is tried on the router or waits for its frame was asked for in these turns. -/
structure Engine.Foregone (settings : Settings) (before : List Turn) (r : RouterRef)
    (e : Engine) : Prop where
  commands : ∀ c command, e.command? c = some command → command.node = ⟨r.index⟩ →
    ∃ origin, originOf settings before command.id = some origin ∧ origin.router = r
  waiting : ∀ r' command style, .allocate r' command style ∈ e.stack → command.node = ⟨r.index⟩ →
    ∃ origin, originOf settings before command.id = some origin ∧ origin.router = r

theorem Run.foregone (h : Run settings turns e) (r : RouterRef) :
    e.Foregone settings turns r := by
  have of_traceable {command : Command} (ht : command.Traceable settings turns e)
      (hnode : command.node = ⟨r.index⟩) :
      ∃ origin, originOf settings turns command.id = some origin ∧ origin.router = r := by
    obtain ⟨-, -, origin, horigin, -, hcomes⟩ := ht
    refine ⟨origin, horigin, ?_⟩
    rw [ref_eq_iff]
    exact congrArg NodeId.number (hcomes.node.symm.trans hnode)
  exact ⟨fun c command hc => of_traceable (h.traced.commands c command hc),
    fun r' command style hmem => of_traceable (h.traced.waiting r' command style hmem)⟩

/-- What is tried on a router that is asleep was asked for before, and so it is a turn later. -/
theorem Engine.Foregone.turned (h : e.Foregone settings before r) (prior : Run settings turns e)
    (ha : ∀ call, m = .call call → e.Allows call) (hm : e.move? m = some e') (hr : e.Asleep r) :
    e'.Foregone settings before r := by
  refine ⟨fun c command hc hnode => ?_, fun r' command style hmem hnode => ?_⟩
  · have of_made {was : Command} (hmade : command.made = was.made)
        (hwas : was.node = ⟨r.index⟩ → ∃ origin,
          originOf settings before was.id = some origin ∧ origin.router = r) :
        ∃ origin, originOf settings before command.id = some origin ∧ origin.router = r := by
      rw [show command.id = was.id from congrArg (·.id) hmade]
      exact hwas ((congrArg (·.node) hmade).symm.trans hnode)
    rcases prior.command_was ha hm hc with ⟨was, hwas, hmade⟩ | ⟨r', waiting, style, hmem, hmade⟩
    · exact of_made hmade (h.commands c was hwas)
    · exact of_made hmade (h.waiting r' waiting style hmem)
  · obtain ⟨-, hwaits⟩ := (prior.sound.redrawn ha hm).waits
    rcases hwaits r' command style hmem with hmem | ⟨t, issues⟩
    · exact h.waiting r' command style hmem hnode
    · obtain ⟨-, -, -, router, address, hr', -, -, hmade⟩ := id issues
      have hid : router.id = ⟨r.index⟩ := by
        rw [hmade] at hnode
        exact hnode
      have hsame : r' = r := by
        rw [ref_eq_iff]
        exact congrArg NodeId.number ((prior.sound.ids r' router hr').symm.trans hid)
      exact absurd hr (hsame ▸ issues.awake hm)

/-- **As long as a router is asleep, no request becomes a command of it.** -/
theorem Run.wakeful {asleep : Engine} (h : Run settings (since ++ before) e)
    (hbefore : Run settings before asleep) (hr : asleep.Asleep r)
    (hwakes : ∀ turn ∈ since, ¬ turn.Wakes r) : e.Asleep r ∧ e.Foregone settings before r := by
  induction since generalizing e with
  | nil =>
    rw [Run.state_unique h hbefore]
    exact ⟨hr, hbefore.foregone r⟩
  | cons turn since ih =>
    cases h with
    | next prior ha hm =>
      obtain ⟨hasleep, hforegone⟩ := ih prior fun turn hturn =>
        hwakes turn (List.mem_cons_of_mem _ hturn)
      refine ⟨(hasleep.turned hm).resolve_left (hwakes _ List.mem_cons_self), ?_⟩
      exact hforegone.turned prior ha hm hasleep

/-! ## The frames of a sleeping router -/

/-- A call returns well in this turn, and has put the router to sleep. -/
structure Turn.Suspends (turn : Turn) (settings : Settings) (earlier : List Turn) (r : RouterRef)
    (course : List Turn) : Prop where
  call : ∃ session outer, sessions settings earlier = session :: outer ∧
    session.call = .operate r .suspend ∧ session.course = course
  well : ∃ answer, turn.answer? = some (.ok answer)

/-- The frame is a request for the router. -/
def Frame.IsFor (frame : Frame) (r : RouterRef) (id : CommandId) : Prop :=
  ∃ generation, frame.context = .command ⟨r.index⟩ id generation

/-- A request on offer is one for a command. -/
theorem Run.offer_of_request {frame : Frame} {id : CommandId} (h : Run settings turns e)
    (hpause : e.pause = .submission frame) (hrequest : frame.IsFor r id) :
    ∃ c command, e.command? c = some command ∧ command.node = ⟨r.index⟩ ∧ command.id = id := by
  obtain ⟨generation, hcontext⟩ := hrequest
  obtain ⟨r', c, below, command, hst, hc, rfl⟩ | ⟨-, hnone⟩ := offer_of_pause hpause
  · obtain ⟨command', hc', -, hframe⟩ := h.offered (hst ▸ List.mem_cons_self)
    cases hc'.symm.trans hc
    rw [hframe] at hcontext
    injection hcontext with hnode hid
    exact ⟨c, command, hc, hnode, hid⟩
  · cases hnone.symm.trans hcontext

theorem Turn.of_answer? {result : Outcome Answer} (h : turn.answer? = some result) :
    turn.move = .collect ∧ ∃ below, turn.before.stack = .answer result :: below := by
  unfold Turn.answer? at h
  split at h
  · rename_i below hm hs
    cases h
    exact ⟨hm, below, hs⟩
  · cases h

theorem Run.exists_earlier (h : Run settings (later ++ earlier) e) :
    ∃ e₀, Run settings earlier e₀ := by
  induction later generalizing e with
  | nil => exact ⟨e, h⟩
  | cons turn later ih =>
    cases h with
    | next prior => exact ih prior

/-- Where a call has put a router to sleep and returns, the router is asleep. -/
theorem Turn.Suspends.asleep {course : List Turn} (h : turn.Suspends settings earlier r course)
    (prior : Run settings earlier turn.before) (hwakes : ¬ Awoken r course) :
    turn.before.Asleep r := by
  obtain ⟨⟨session, outer, hsessions, hcall, rfl⟩, answer, hanswer⟩ := h
  obtain ⟨-, below, hs⟩ := Turn.of_answer? hanswer
  have hlulled := prior.lulled
  rw [hsessions, hs, segments_base rfl] at hlulled
  rcases (List.forall₂_cons.1 hlulled).1 r hcall with hawoken | hasleep | hlulls
  · exact absurd hawoken hwakes
  · exact hasleep
  · obtain ⟨failure, hfailure⟩ := hlulls _ List.mem_cons_self rfl
    cases hfailure

/-- **What a router that has been put to sleep still sends.** From the return of the call on, unless
another call wakes it, the router stays asleep, no request that is made meanwhile becomes a command
of it, and every request that the transport is handed for it was made before it fell asleep: before
any point since which it has been asleep. It does not matter who wakes the router during the call,
as long as it is marked afterwards. -/
theorem Run.sleeping {course : List Turn} (h : Run settings (later ++ turn :: earlier) e)
    (hsuspends : turn.Suspends settings earlier r course) (hawoken : ¬ Awoken r course)
    (hwakes : ∀ turn ∈ later, ¬ turn.Wakes r) :
    turn.before.Asleep r ∧ e.Asleep r ∧
      ∀ since before asleep, later ++ turn :: earlier = since ++ before →
        Run settings before asleep → asleep.Asleep r → (∀ turn ∈ since, ¬ turn.Wakes r) →
        e.Foregone settings before r ∧ ∀ frame id, e.pause = .submission frame → frame.IsFor r id →
          ∃ origin, originOf settings before id = some origin ∧ origin.router = r := by
  obtain ⟨e₁, hreturned⟩ := h.exists_earlier
  cases hreturned with
  | @next _ e₀ _ m prior ha hm =>
    have hasleep : e₀.Asleep r := hsuspends.asleep prior hawoken
    refine ⟨hasleep, ?_, fun since before asleep heq hbefore hr hsince => ?_⟩
    · rw [List.append_cons] at h
      refine (h.wakeful prior hasleep fun turn hmem hwake => ?_).1
      rcases List.mem_append.1 hmem with hmem | hmem
      · exact hwakes turn hmem hwake
      · obtain ⟨answer, hanswer⟩ := hsuspends.well
        rw [List.mem_singleton.1 hmem] at hwake
        cases (Turn.of_answer? hanswer).1.symm.trans hwake.1
    · rw [heq] at h
      obtain ⟨-, hforegone⟩ := h.wakeful hbefore hr hsince
      refine ⟨hforegone, fun frame id hpause hfor => ?_⟩
      obtain ⟨c, command, hc, hnode, rfl⟩ := h.offer_of_request hpause hfor
      exact hforegone.commands c command hc hnode

/-! ## A sleeping router whose queue goes on -/

/-- The moves by which the host router is asked for a frame and sends it. -/
def handOver (number : Nat) : List Move :=
  [.grant (.ok ()), .proceed, .proceed, .grant (.ok ()), .proceed, .proceed,
    .receive (.sent (some (.command ⟨0⟩ ⟨number⟩ 1))), .collect]

/-- A word that the host router answers with. -/
def wordRead (offset seq : Nat) (word : UInt32) : Move :=
  .receive (.received .read .read
    (ReadResponse.encode ⟨Route.root, ⟨.router, 0, offset, 1, seq⟩, [word]⟩))

/-- The host router is put to sleep while two reads wait behind the look at its sleep status; the
first of them is handed to the transport in time. -/
def suspendMoves : List Move :=
  hostMoves hostWords ++ ([.call (.operate ⟨0⟩ .suspend), .proceed] : List Move) ++ handOver 2 ++
  ([wordRead Register.routerCs5 1 0, .proceed, .proceed, .proceed, .proceed, .collect, .proceed,
    .proceed, .proceed] : List Move) ++ handOver 3 ++
  ([.receive (.received .write .write
      (WriteResponse.encode ⟨Route.root, ⟨.router, 0, Register.routerCs5, 1, 2⟩⟩)),
    .proceed, .proceed, .proceed, .proceed, .collect, .proceed, .proceed, .proceed, .back,
    .proceed, .proceed] : List Move) ++ handOver 4 ++ lineUp 64 1 ++ lineUp 80 2 ++
  ([wordRead Register.routerCs6 3 1, .proceed, .grant (.ok ()), .proceed, .proceed, .proceed,
    .proceed, .collect, .proceed, .proceed, .proceed, .proceed, .proceed] : List Move)

/-- The first of the two reads is answered when the router is asleep. -/
def dozingMoves : List Move :=
  [.collect, .receive (.sent (some (.command ⟨0⟩ ⟨5⟩ 1))), .collect, wordRead 64 0 7, .back,
    .proceed]

/-- Whether the turn is one in which a call returns well that has put the host router to sleep. -/
def suspends (turn : Turn) (earlier : List Turn) : Bool :=
  (turn.answer?.any fun result => result matches .ok _) &&
    (sessions {} earlier).head?.any fun session =>
      decide (session.call = .operate ⟨0⟩ .suspend) &&
        decide (.resume ⟨0⟩ ∉ calls session.course)

theorem Turn.Suspends.of_check (h : suspends turn earlier = true) :
    ∃ course, turn.Suspends {} earlier ⟨0⟩ course ∧ .resume ⟨0⟩ ∉ calls course := by
  unfold suspends at h
  rw [Bool.and_eq_true] at h
  simp only [Option.any_eq_true, Bool.and_eq_true, decide_eq_true_eq] at h
  obtain ⟨⟨result, hanswer, hresult⟩, session, hhead, hcall, hcourse⟩ := h
  refine ⟨session.course, ⟨⟨session, (sessions {} earlier).tail, ?_, hcall, rfl⟩, ?_⟩, hcourse⟩
  · exact List.eq_cons_of_mem_head? hhead
  · split at hresult
    · exact ⟨_, hanswer⟩
    · cases hresult

theorem mem_calls {call : Call} (hmem : turn ∈ turns) (hm : turn.move = .call call) :
    call ∈ calls turns := by
  induction turns with
  | nil => cases hmem
  | cons turn' turns ih =>
    unfold calls
    rcases List.mem_cons.1 hmem with rfl | hmem
    · rw [hm]
      exact List.mem_cons_self
    · split
      · exact List.mem_cons_of_mem _ (ih hmem)
      · exact ih hmem

/-- The transport is asked to take a read of a router that has been put to sleep and not woken. -/
theorem exists_dozing : ∃ later turn earlier e course frame, Run {} (later ++ turn :: earlier) e ∧
    turn.Suspends {} earlier ⟨0⟩ course ∧
    (∀ turn ∈ later ++ course, turn.move ≠ .call (.resume ⟨0⟩)) ∧
    e.pause = .submission frame ∧ frame.IsFor ⟨0⟩ ⟨6⟩ := by
  have played : (replay? {} (suspendMoves ++ dozingMoves).reverse).any (fun p =>
      ((p.1.drop 5).head?.any fun turn => suspends turn (p.1.drop 5).tail) &&
      decide (.resume ⟨0⟩ ∉ calls (p.1.take 5)) &&
      p.2.pause.submitted?.any fun frame =>
        decide (frame.context = .command ⟨0⟩ ⟨6⟩ 1)) = true := by
    decide +kernel
  obtain ⟨turns, e, run, hcheck⟩ := exists_of_replay? played
  simp only [Bool.and_eq_true, decide_eq_true_eq, Option.any_eq_true] at hcheck
  obtain ⟨⟨⟨turn, hturn, hsuspends⟩, hlater⟩, frame, hframe, hcontext⟩ := hcheck
  rw [← List.take_append_drop 5 turns, List.eq_cons_of_mem_head? hturn] at run
  obtain ⟨course, hsuspends, hcourse⟩ := Turn.Suspends.of_check hsuspends
  refine ⟨turns.take 5, turn, (turns.drop 5).tail, e, course, frame, run, hsuspends,
    fun turn hmem hm => ?_, Pause.eq_of_submitted? hframe, 1, hcontext⟩
  rcases List.mem_append.1 hmem with hmem | hmem
  · exact hlater (mem_calls hmem hm)
  · exact hcourse (mem_calls hmem hm)

/-- **A sleeping router is not silent.** What has been queued on it before goes on. -/
theorem sleeping_silent_fails :
    ¬ ∀ (settings : Settings) (later earlier : List Turn) (turn : Turn) (e : Engine)
      (r : RouterRef) (course : List Turn), Run settings (later ++ turn :: earlier) e →
      turn.Suspends settings earlier r course →
      (∀ turn ∈ later, turn.move ≠ .call (.resume r)) →
      ∀ frame id, e.pause = .submission frame → ¬ frame.IsFor r id := by
  intro hall
  obtain ⟨later, turn, earlier, e, course, frame, run, hsuspends, hmoves, hpause, hfor⟩ :=
    exists_dozing
  exact hall _ later earlier turn e _ course run hsuspends
    (fun turn hmem => hmoves turn (List.mem_append_left _ hmem)) frame _ hpause hfor

/-- A read that has been queued on a router is offered when the router is asleep. -/
theorem queued_read_sent : ∃ later turn earlier e course frame,
    Run {} (later ++ turn :: earlier) e ∧ turn.Suspends {} earlier ⟨0⟩ course ∧
    ¬ Awoken ⟨0⟩ course ∧ (∀ turn ∈ later, ¬ turn.Wakes ⟨0⟩) ∧ e.Asleep ⟨0⟩ ∧
    e.Foregone {} earlier ⟨0⟩ ∧ e.pause = .submission frame ∧
    frame.IsFor ⟨0⟩ ⟨6⟩ ∧ ∃ origin, originOf {} earlier ⟨6⟩ = some origin := by
  obtain ⟨later, turn, earlier, e, course, frame, run, hsuspends, hmoves, hpause, hfor⟩ :=
    exists_dozing
  have hwakes : ∀ turn ∈ later, ¬ turn.Wakes ⟨0⟩ := fun turn hmem hwake =>
    hmoves turn (List.mem_append_left _ hmem) hwake.1
  have hawoken : ¬ Awoken ⟨0⟩ course := by
    rintro ⟨after, wake, before, rfl, hwake, -⟩
    exact hmoves wake (by simp) hwake.1
  obtain ⟨hasleep, hstill, hsent⟩ := run.sleeping hsuspends hawoken hwakes
  obtain ⟨e₁, hreturned⟩ := run.exists_earlier
  cases hreturned with
  | @next _ e₀ _ m prior ha hm =>
    obtain ⟨answer, hanswer⟩ := hsuspends.well
    have hcollects : ¬ Turn.Wakes ⟨e₀, m, e₁⟩ ⟨0⟩ := fun hwake => by
      cases (Turn.of_answer? hanswer).1.symm.trans hwake.1
    obtain ⟨hforegone, hasked⟩ := hsent (later ++ [⟨e₀, m, e₁⟩]) earlier e₀
      (List.append_cons ..) prior hasleep fun turn hmem => (List.mem_append.1 hmem).elim
        (hwakes turn) fun hmem => List.mem_singleton.1 hmem ▸ hcollects
    obtain ⟨origin, horigin, -⟩ := hasked frame _ hpause hfor
    exact ⟨later, _, earlier, e, course, frame, run, hsuspends, hawoken, hwakes, hstill, hforegone,
      hpause, hfor, origin, horigin⟩

end RouterFabric
