import RouterFabric.Proofs.Alone
import RouterFabric.Proofs.Bedtime
import RouterFabric.Proofs.Sleep

/-!
# How a call puts a router to sleep

A call that is to put a router to sleep carries out its program, whatever other calls do in between,
and is answered with the result that its own exchanges settle. A router that the call has found
awake is asleep when the call returns well, and awake when it fails, as far as no other call has had
a hand in it: no router falls asleep but at the request of a call that is to put it to sleep.

* `Run.heeds`, `Run.marker` : the call that marks a router is one that is to put it to sleep
* `Run.marks` : a router that has fallen asleep has been marked by the call, or by another one
* `Session.Retires`, `Run.retires` : how the call goes on and ends
-/

namespace RouterFabric

open Engine Procedure

variable {settings : Settings} {router : Router}

/-! ## Who marks a router -/

/-- A program that puts no router to sleep. -/
abbrev Program.Wakeful (p : Program Request Answer) : Prop :=
  p.Asks (· ≠ .fallAsleep)

/-- Only one operation puts its router to sleep. -/
theorem Operation.wakeful_program (settings : Settings) (router : Router) {operation : Operation}
    (h : operation ≠ .suspend) : (operation.program settings router).Wakeful := by
  have searches (hsearch : operation.isSearch = true) :
      (operation.program settings router).Wakeful :=
    (Operation.reads_program settings router hsearch).mono fun _ reads => by
      cases reads
      nofun
  cases operation with
  | suspend => exact absurd rfl h
  | transfer t style => exact (Program.asks_request nofun).bind fun _ => Program.asks_pure _
  | findCapability | findAdapterCapability | linkControllerUuid => exact searches rfl

theorem Procedure.wakeful_discover (settings : Settings) (route : Route) (answer : Answer) :
    (discover settings route >>= fun _ => pure answer).Wakeful := by
  refine Program.Asks.bind ?_ fun _ => Program.asks_pure _
  refine Program.Asks.recover ?_ fun failure =>
    (Program.asks_request nofun).bind fun _ => Program.asks_fail _
  refine (Program.asks_request nofun).bind fun words =>
    (Program.asks_ofOutcome _).bind fun identity => ?_
  exact (Program.asks_request nofun).bind fun _ => Program.asks_pure _

/-- The call is to put its router to sleep, or its lowest task does not lead to that. -/
def Task.Heeds (call : Call) : Task → Prop
  | .perform r p => call = .operate r .suspend ∨ p.Wakeful
  | .resume r next => call = .operate r .suspend ∨ ∀ reply, (next reply).Wakeful
  | _ => True

/-- What becomes of the task with which a topology begins. -/
theorem Engine.Inner.of_register {e e' : Engine} {m : Move} {below : List Task} (k : Inner e m e')
    (hs : e.stack = .register :: below) (hstirs : ∀ added, e'.stack ≠ added ++ e.stack) :
    ∃ t, e'.stack = t :: below ∧ ((∃ result, t = .answer result) ∨
      ∃ r settings, t = .perform r (do
        Procedure.discover settings Route.root
        return .router r)) := by
  cases k with
  | quiet gone tasks rest he he' hgone =>
    obtain ⟨t, more, rfl⟩ := gone_of_stirs he he' hstirs
    cases hs.symm.trans he
    cases hgone _ List.mem_cons_self
  | noted r c old signal words he' => exact absurd he' (hstirs [.handled])
  | completed r c old signal words tasks he' => exact absurd he' (hstirs _)
  | interrupted r c old event tasks he' => exact absurd he' (hstirs _)
  | returned _ _ _ he | expired _ _ _ _ _ he | refused _ _ _ _ _ _ he | finished _ _ _ he
  | asked _ _ _ _ _ _ he | unlinked _ _ _ he | resumed _ _ _ _ he | dropped _ _ he
  | unframed _ _ _ _ _ he | framed _ _ _ _ he | issued _ _ _ _ _ _ _ he
  | retried _ _ _ _ _ _ he | exhausted _ _ he | watched _ _ _ he | unclaimed _ _ _ he
  | withdrawn _ _ _ _ _ _ _ _ he => cases hs.symm.trans he
  | settled w t t' command rest he ht =>
    cases hs.symm.trans he
    rcases ht with ht | ⟨deadline, ht⟩ <;> cases ht
  | unregistered failure rest he he' =>
    cases hs.symm.trans he
    exact ⟨_, he', .inl ⟨_, rfl⟩⟩
  | rooted linked t rest he he' _ ht =>
    cases hs.symm.trans he
    rcases ht with ⟨-, failure, rfl⟩ | ⟨-, settings, rfl⟩
    · exact ⟨_, he', .inl ⟨_, rfl⟩⟩
    · exact ⟨_, he', .inr ⟨_, settings, rfl⟩⟩

section runs

variable {turns earlier : List Turn} {turn : Turn} {e e' e₀ e₁ : Engine} {m : Move}
  {r : RouterRef} {session : Session} {part below : List Task}

/-- **No call puts a router to sleep but one that is made for it.** -/
theorem Run.heeds (h : Run settings turns e) :
    List.Forall₂ (fun session part => ∀ t ∈ part, t.isBase = true → t.Heeds session.call)
      (sessions settings turns) (segments e.stack) := by
  refine h.along
    (P := fun _ _ session part => ∀ t ∈ part, t.isBase = true → t.Heeds session.call)
    ?start ?called ?left ?advanced
  case start =>
    intro t hs
    refine List.forall_mem_singleton.2 fun _ => ?_
    rcases stack_opening settings with hs' | ⟨failure, hs'⟩
    all_goals
      cases hs.symm.trans hs'
      trivial
  case called =>
    intro turns e call e' t tasks prior k hm ht he' htasks
    refine List.forall_mem_singleton.2 fun _ => ?_
    have begun {t' : Task} (tasks' : List Task) (hs : e'.stack = tasks' ++ [t'] ++ e.stack)
        (hheeds : t'.Heeds call) : t.Heeds call :=
      base_of_begun tasks' (hs.symm.trans he') ▸ hheeds
    cases k with
    | answered result hresult hs => exact begun [] hs trivial
    | operated r operation router settings' hr hs =>
      refine begun [] hs ?_
      by_cases hsuspend : operation = .suspend
      · exact .inl (hsuspend ▸ rfl)
      · exact .inr (Operation.wakeful_program _ _ hsuspend)
    | attached parent route linked t' hs joined ht' =>
      refine begun [] hs ?_
      rcases ht' with ⟨-, failure, rfl⟩ | ⟨-, settings', rfl⟩
      · trivial
      · exact .inr (Procedure.wakeful_discover _ _ _)
    | detached r expired mid rs tasks' result hs =>
      rw [List.append_cons] at hs
      exact begun _ hs trivial
  case left =>
    intro turns e m e' session part gone tasks below prior ha hm hp he he' hpart
    exact hp
  case advanced =>
    intro turns e m e' session part part' tasks below prior hcall hm k hhead hp a t' ht' hbase'
    obtain ⟨t, ht, hbase⟩ := a.was.exists_base
    have hheeds := hp t ht hbase
    cases a.lowers t ht t' ht' hbase hbase' with
    | kept => exact hheeds
    | concluded => trivial
    | asked => exact hheeds.imp id fun h => h.2
    | resumed reply => exact hheeds.imp id fun h => h reply
    | registered =>
      have hpart : part = [.register] := by
        cases a.was with
        | base => rw [List.mem_singleton.1 ht]
        | above hnot =>
          rcases List.mem_pair.1 ht with rfl | heq
          · cases hnot
          · cases heq
      obtain ⟨t, he', ht⟩ := k.of_register (by rw [a.before, hpart]; rfl) a.stirs
      have hbase : t.isBase = true := by
        rcases ht with ⟨result, rfl⟩ | ⟨r, settings', rfl⟩ <;> rfl
      have hstack : e'.stack = [] ++ [t] ++ below := he'
      rw [a.becomes_eq hstack (List.forall_mem_nil _) (.base hbase), List.mem_singleton] at ht'
      subst ht'
      rcases ht with ⟨result, rfl⟩ | ⟨r, settings', rfl⟩
      · trivial
      · exact .inr (Procedure.wakeful_discover _ _ _)

/-- The innermost call, where its lowest task is on top. -/
theorem at_work {P : Session → List Task → Prop} {t : Task}
    (h : List.Forall₂ P (sessions settings turns) (segments e.stack))
    (hs : e.stack = t :: below) (ht : t.isBase = true) :
    ∃ session, (sessions settings turns).head? = some session ∧ P session [t] := by
  rw [hs, segments_base ht] at h
  obtain ⟨session, outer, hp, -, heq⟩ := List.forall₂_cons_right_iff.1 h
  exact ⟨session, by rw [heq, List.head?_cons], hp⟩

/-- The call that marks a router is one that has been made for it. -/
theorem Run.marker {next : Reply → Program Request Answer} (h : Run settings turns e)
    (hs : e.stack = .perform r (.ask .fallAsleep next) :: below) : ∃ session,
    (sessions settings turns).head? = some session ∧ session.call = .operate r .suspend := by
  obtain ⟨session, hhead, hheeds⟩ := at_work h.heeds hs rfl
  exact ⟨session, hhead,
    (hheeds _ List.mem_cons_self rfl).resolve_right fun hwakeful => hwakeful.1 rfl⟩

theorem mem_calls_cons {call : Call} {turns : List Turn} (h : call ∈ calls turns) :
    call ∈ calls (turn :: turns) := by
  unfold calls
  split
  · exact List.mem_cons_of_mem _ h
  · exact h

/-- A pending call has been made. -/
theorem mem_calls_of_pending {call : Call} {turns : List Turn} (h : call ∈ pending turns) :
    call ∈ calls turns := by
  induction turns with
  | nil => cases h
  | cons turn earlier ih =>
    unfold pending at h
    split at h
    · rename_i call' hm
      rcases List.mem_cons.1 h with rfl | h
      · exact mem_calls List.mem_cons_self hm
      · exact mem_calls_cons (ih h)
    · split at h
      · exact mem_calls_cons (ih (List.mem_of_mem_tail h))
      · exact mem_calls_cons (ih h)

/-- Since the call began on a router that was awake, the router has not fallen asleep, or the call
has marked it, or another one has been made for the same end. -/
def Session.Marks (turns : List Turn) (e : Engine) (session : Session) : Prop :=
  ∀ r e₀ e₁ earlier router,
    turns = session.course ++ ⟨e₀, .call (.operate r .suspend), e₁⟩ :: earlier →
    e₀.router? r = some router → router.suspended = false → e.Asleep r →
    .fallAsleep ∈ (talk session.course).requests ∨ .operate r .suspend ∈ calls session.course

/-- What becomes of it in a turn. -/
theorem Session.Marks.turned {session' : Session} (h : session.Marks turns e)
    (hm : e.move? m = some e') (hcourse : session'.course = ⟨e, m, e'⟩ :: session.course)
    (hmark : ∀ r next below, m = .proceed → e.stack = .perform r (.ask .fallAsleep next) :: below →
      ∀ e₀ e₁ earlier router,
      turns = session.course ++ ⟨e₀, .call (.operate r .suspend), e₁⟩ :: earlier →
      e₀.router? r = some router →
      .fallAsleep ∈ (talk (⟨e, m, e'⟩ :: session.course)).requests ∨
        .operate r .suspend ∈ calls (⟨e, m, e'⟩ :: session.course)) :
    session'.Marks (⟨e, m, e'⟩ :: turns) e' := by
  intro r e₀ e₁ earlier router hturns hr hawake hasleep
  rw [hcourse] at hturns ⊢
  have hbegan := (List.cons.inj hturns).2
  rcases hasleep.was hm with hasleep | ⟨hproceed, next, below, hs⟩
  · refine (h r e₀ e₁ earlier router hbegan hr hawake hasleep).imp (fun hmem => ?_) mem_calls_cons
    by_cases hpending : pending session.course = []
    · rw [talk_of_own hpending]
      exact (Talk.requests_grow _ _).subset hmem
    · rw [talk_of_aside hpending]
      exact hmem
  · exact hmark r next below hproceed hs e₀ e₁ earlier router hbegan hr

/-- **A router that a call finds awake is marked by that call, or by another one that is made
meanwhile.** -/
theorem Run.marks (h : Run settings turns e) :
    List.Forall₂ (fun session _ => session.Marks turns e) (sessions settings turns)
      (segments e.stack) := by
  refine h.along_turns (P := fun turns e session _ => session.Marks turns e)
    ?start ?called ?aside ?idle ?advanced
  case start =>
    intro t _ r e₀ e₁ earlier router hturns
    cases hturns
  case called =>
    intro turns e call e' t tasks prior k hm ht he' _ r e₀ e₁ earlier router hturns hr hawake hnow
    obtain ⟨heq, -⟩ := List.cons.inj hturns
    cases heq
    rcases hnow.was hm with ⟨router', hr', hasleep⟩ | ⟨hm, -⟩
    · cases hr.symm.trans hr'
      rw [hawake] at hasleep
      cases hasleep
    · cases hm
  case aside =>
    intro turns e m e' session part gone tasks below prior ha hm hp he he' hpart hothers
    refine hp.turned hm rfl fun r next below hproceed hs e₀ e₁ earlier router _ _ => .inr ?_
    rcases hothers with ⟨call, rfl⟩ | ⟨innermost, hhead, hpending⟩
    · cases hproceed
    · obtain ⟨session', hhead', hcall⟩ := prior.marker hs
      cases hhead.symm.trans hhead'
      exact mem_calls_cons (mem_calls_of_pending (hcall ▸ hpending))
  case idle =>
    intro turns e m e' session part gone tasks below prior hcall hm hhead hp l hpart
    refine hp.turned hm rfl fun r next below hproceed hs e₀ e₁ earlier router _ _ => ?_
    obtain ⟨standing, hstacked, -⟩ := prior.stacked
    obtain ⟨hasked, -⟩ := l.silent hstacked hm
    rw [hproceed, Turn.asked?] at hasked
    simp [hs] at hasked
  case advanced =>
    intro turns e m e' session part part' tasks below prior hcall hm k hhead hp a
    refine hp.turned hm rfl fun r next below hproceed hs e₀ e₁ earlier router hbegan hr => .inl ?_
    obtain ⟨session', hhead', htalks⟩ := at_work prior.talked hs rfl
    cases hhead.symm.trans hhead'
    have hspeaks := htalks r .suspend e₀ e₁ earlier router hbegan hr
    cases hspeaks with
    | performing hrequest =>
      have hasked : (Turn.mk e m e').asked? = some .fallAsleep := by
        simp [Turn.asked?, hproceed, hs]
      rw [talk_of_own (pending_of_head hhead), Talk.heard_of_none hrequest, hasked]
      exact List.mem_append_right _ List.mem_cons_self

/-! ## How the call ends -/

/-- The engine, left to itself, goes on to this stack. -/
def LeadsTo (settings : Settings) (turns : List Turn) (stack : List Task) : Prop :=
  ∃ more e', Run settings (more ++ turns) e' ∧ (∀ turn ∈ more, turn.move = .proceed) ∧
    e'.stack = stack

/-- A step of the engine on the way. -/
theorem LeadsTo.step {stack : List Task}
    (h : LeadsTo settings (⟨e, .proceed, e'⟩ :: turns) stack) : LeadsTo settings turns stack := by
  obtain ⟨more, e'', run, hmoves, hs⟩ := h
  refine ⟨more ++ [⟨e, .proceed, e'⟩], e'', by rwa [← List.append_cons], fun turn hmem => ?_, hs⟩
  rcases List.mem_append.1 hmem with hmem | hmem
  · exact hmoves turn hmem
  · rw [List.mem_singleton.1 hmem]

/-- A program that is done has its call answered. -/
theorem Run.leads_done {result : Outcome Answer} (h : Run settings turns e)
    (hs : e.stack = .perform r (.done result) :: below) :
    LeadsTo settings turns (.answer result :: below) := by
  refine LeadsTo.step ⟨[], e.step, h.proceed (pause_of_perform hs), List.forall_mem_nil _, ?_⟩
  unfold step
  rw [hs]
  rfl

/-- A program that has its router marked goes on. -/
theorem Run.leads_marked {next : Reply → Program Request Answer} {stack : List Task}
    (h : Run settings turns e) (hs : e.stack = .perform r (.ask .fallAsleep next) :: below)
    (hnext : ∀ turns e, Run settings turns e → e.stack = .perform r (next (.ok [])) :: below →
      LeadsTo settings turns stack) : LeadsTo settings turns stack := by
  have hasked : e.step.stack = .reply (.ok []) :: .resume r next :: below := by
    unfold step
    rw [hs]
    rfl
  have htold : e.step.step.stack = .perform r (next (.ok [])) :: below := by
    rw [step, hasked]
    rfl
  have run := h.proceed (pause_of_perform hs)
  exact (hnext _ _ (run.proceed (pause_of_reply hasked)) htold).step.step

/-- How the innermost call goes on and ends that has been made to put a router to sleep. -/
structure Session.Retires (settings : Settings) (turns : List Turn) (e : Engine) (r : RouterRef)
    (session : Session) : Prop where
  /-- its program asks for more, or a result is settled, and then nothing but the answer comes -/
  working : ∀ p below, e.stack = .perform r p :: below →
    ((∃ request next, p = .ask request next) ∧
      ∀ result, ¬ Settles settings.sleepReadyAttempts (talk session.course).exchanges result) ∨
    ∃ result, Settles settings.sleepReadyAttempts (talk session.course).exchanges result ∧
      LeadsTo settings turns (.answer result :: below)
  /-- it is answered with what is settled -/
  answered : ∀ result below, e.stack = .answer result :: below →
    Settles settings.sleepReadyAttempts (talk session.course).exchanges result
  /-- if it ends well, the router is asleep, unless it has been woken since -/
  asleep : ∀ answer below, e.stack = .answer (.ok answer) :: below →
    e.Asleep r ∨ ∃ turn ∈ session.course, turn.Wakes r
  /-- if it fails, the router is awake, unless another call has put it to sleep -/
  awake : ∀ failure below, e.stack = .answer (.error failure) :: below →
    ¬ e.Asleep r ∨ .operate r .suspend ∈ calls session.course

/-- What the talk of a call says about its program. -/
theorem Engine.Speaks.comes {p : Program Request Answer} {talk : Talk}
    (h : Speaks r p talk part) :
    ∃ q, p.Comes talk.exchanges q ∧ talk.requests <+: asked talk.exchanges q.head := by
  cases h with
  | @performing q hrequest hcomes =>
    refine ⟨q, hcomes, ?_⟩
    rw [Talk.requests, hrequest]
    exact (List.prefix_append_right_inj _).2 List.nil_prefix
  | waiting hrequest hcomes =>
    refine ⟨_, hcomes, ?_⟩
    rw [Talk.requests, hrequest]
    exact List.prefix_rfl
  | answered hrequest hcomes =>
    refine ⟨_, hcomes, ?_⟩
    rw [Talk.requests, hrequest]
    exact List.prefix_rfl

section call

variable (h : Run settings turns e)
  (hturns : turns = session.course ++ ⟨e₀, .call (.operate r .suspend), e₁⟩ :: earlier)
  (hr : e₀.router? r = some router)

include h hturns hr

theorem Run.speaks_head (hhead : (sessions settings turns).head? = some session) {t : Task}
    (hs : e.stack = t :: below) (hbase : t.isBase = true) :
    Speaks r (Operation.suspend.program settings router) (talk session.course) [t] := by
  obtain ⟨session', hhead', htalks⟩ := at_work h.talked hs hbase
  cases hhead.symm.trans hhead'
  exact htalks r .suspend e₀ e₁ earlier router hturns hr

variable (hawake : router.suspended = false)

include hawake

/-- What the call asks for, innermost or not. -/
theorem Run.bedtime (hsession : session ∈ sessions settings turns) :
    Bedtime settings (talk session.course).exchanges (talk session.course).requests := by
  obtain ⟨part, htalks, -⟩ := exists_of_forall₂ h.talked hsession
  obtain ⟨q, hcomes, hfront⟩ := (htalks r .suspend e₀ e₁ earlier router hturns hr).comes
  exact (Procedure.retires_suspend hawake hcomes).bedtime.front hfront

/-- Where its program is at work, the call asks for more or comes to its answer. -/
theorem Run.retires_working (hhead : (sessions settings turns).head? = some session)
    {p : Program Request Answer} (hs : e.stack = .perform r p :: below) :
    ((∃ request next, p = .ask request next) ∧
      ∀ result, ¬ Settles settings.sleepReadyAttempts (talk session.course).exchanges result) ∨
    ∃ result, Settles settings.sleepReadyAttempts (talk session.course).exchanges result ∧
      LeadsTo settings turns (.answer result :: below) := by
  have hspeaks := h.speaks_head hturns hr hhead hs rfl
  cases hspeaks with
  | performing hrequest hcomes =>
    have hretires := Procedure.retires_suspend hawake hcomes
    cases p with
    | done result => exact .inr ⟨result, hretires.settles, h.leads_done hs⟩
    | ask request next =>
      by_cases hmark : request = .fallAsleep
      · subst hmark
        obtain ⟨hall, hsome⟩ :=
          hretires.bedtime.marks (List.mem_append_right _ List.mem_cons_self)
        refine .inr ⟨_, .asleep hall hsome, h.leads_marked hs fun turns e run hs => ?_⟩
        have hdone := (Procedure.retires_suspend hawake
          (hcomes.reply (.ok []) fun _ => rfl)).done (List.mem_append_right _ List.mem_cons_self)
        cases hp : next (.ok []) with
        | done result =>
          rw [hp] at hdone hs
          cases hdone
          exact run.leads_done hs
        | ask =>
          rw [hp] at hdone
          cases hdone
      · refine .inl ⟨⟨request, next, rfl⟩, fun result hsettles => ?_⟩
        rcases hretires.settled hsettles with heq | ⟨heq, -⟩
        · cases heq
        · exact hmark (Sum.inl.inj heq)

theorem Run.retires_answered {result : Outcome Answer}
    (hhead : (sessions settings turns).head? = some session)
    (hs : e.stack = .answer result :: below) :
    Retires settings (talk session.course).exchanges (.inr result) := by
  have hspeaks := h.speaks_head hturns hr hhead hs rfl
  cases hspeaks with
  | answered _ hcomes => exact Procedure.retires_suspend hawake hcomes

/-- **How a router is put to sleep.** What a call on a router that is awake asks for, how often and
after what, over any run and whatever its requests are told; and that the call ends with the result
that its exchanges settle, the router being asleep or awake accordingly. -/
theorem Run.retires (hsession : session ∈ sessions settings turns) :
    Bedtime settings (talk session.course).exchanges (talk session.course).requests ∧
      ((sessions settings turns).head? = some session → session.Retires settings turns e r) := by
  have hbedtime := h.bedtime hturns hr hawake hsession
  refine ⟨hbedtime, fun hhead => ⟨?_, ?_, ?_, ?_⟩⟩
  · intro p below hs
    exact h.retires_working hturns hr hawake hhead hs
  · intro result below hs
    exact (h.retires_answered hturns hr hawake hhead hs).settles
  · intro answer below hs
    obtain ⟨session', hhead', hlulled⟩ := at_work h.lulled hs rfl
    cases hhead.symm.trans hhead'
    rcases hlulled r (call_of_course hsession hturns) with hwoken | hasleep | hlulls
    · exact .inr hwoken.exists_wakes
    · exact .inl hasleep
    · obtain ⟨failure, hfailure⟩ := hlulls _ List.mem_cons_self rfl
      cases hfailure
  · intro failure below hs
    by_cases hasleep : e.Asleep r
    · obtain ⟨session', hhead', hmarks⟩ := at_work h.marks hs rfl
      cases hhead.symm.trans hhead'
      rcases hmarks r e₀ e₁ earlier router hturns hr hawake hasleep with hmark | hcall
      · -- a call that has marked the router is settled to end well
        obtain ⟨hall, hsome⟩ := hbedtime.marks hmark
        have hretires := h.retires_answered hturns hr hawake hhead hs
        rcases hretires.settled (.asleep hall hsome) with heq | ⟨heq, -⟩ <;> cases heq
      · exact .inr hcall
    · exact .inl hasleep

end call

end runs

/-- The host router is asleep when the call returns that has put it to sleep. -/
theorem host_retires : ∃ turns e session e₀ e₁ earlier router, Run {} turns e ∧
    turns = session.course ++ ⟨e₀, .call (.operate ⟨0⟩ .suspend), e₁⟩ :: earlier ∧
    e₀.router? ⟨0⟩ = some router ∧ router.suspended = false ∧ session ∈ sessions {} turns ∧
    e.stack = [.answer (.ok .nothing)] ∧
    Settles ({} : Settings).sleepReadyAttempts (talk session.course).exchanges (.ok .nothing) ∧
    (talk session.course).requests.countP Request.isWrite = 1 ∧ e.Asleep ⟨0⟩ := by
  have played : (replay? {} suspendMoves.reverse).any (fun p =>
      ((sessions {} p.1).head?.any fun session =>
        decide (session.call = .operate ⟨0⟩ .suspend) &&
        decide (.resume ⟨0⟩ ∉ calls session.course) &&
        decide ((talk session.course).requests.countP Request.isWrite = 1) &&
        (p.1.drop session.course.length).head?.any fun turn =>
          (turn.before.router? ⟨0⟩).any fun router => !router.suspended) &&
      decide (p.2.reply? = some (.ok .nothing))) = true := by
    decide +kernel
  obtain ⟨turns, e, run, hcheck⟩ := exists_of_replay? played
  simp only [Bool.and_eq_true, Option.any_eq_true, decide_eq_true_eq, Bool.not_eq_true'] at hcheck
  obtain ⟨⟨session, hhead, ⟨⟨hcall, hwoken⟩, hwrites⟩, turn, hturn, router, hr, hawake⟩,
    hreply⟩ := hcheck
  have hs := stack_of_reply? hreply
  have hsession : session ∈ sessions {} turns := List.mem_of_mem_head? hhead
  rcases began_of_session hsession with ⟨-, hroot⟩ | ⟨e₀, e₁, earlier, hturns⟩
  · cases hcall.symm.trans hroot
  · rw [hcall] at hturns
    have hdrop : turns.drop session.course.length =
        ⟨e₀, .call (.operate ⟨0⟩ .suspend), e₁⟩ :: earlier := by
      rw [hturns]
      simp
    rw [hdrop] at hturn
    cases hturn
    have hretires := (run.retires hturns hr hawake hsession).2 hhead
    refine ⟨turns, e, session, e₀, e₁, earlier, router, run, hturns, hr, hawake, hsession, hs,
      hretires.answered _ _ hs, hwrites, ?_⟩
    rcases hretires.asleep _ _ hs with hasleep | ⟨turn, hmem, hwakes⟩
    · exact hasleep
    · exact absurd (mem_calls hmem hwakes.1) hwoken

end RouterFabric
