import RouterFabric.Proofs.Engine.Sections
import RouterFabric.Proofs.Enrolment
import RouterFabric.Proofs.Sessions

/-!
# What a call asks for and what it is told

The program of a call asks for one thing after the other, and is told how each request has been met
before it asks for the next. Both stand in the turns of the call, those in which no other call is
pending above it. Read off these turns, the talk of a call says how far its program has come,
whatever other calls do in between.

* `Program.Comes` : a program comes to another one over some exchanges
* `talk` : what a call has asked for and has been told
* `Engine.Speaks` : the tasks of a call are at the point that its talk says
* `Run.talked` : so they are throughout every run
-/

namespace RouterFabric

open Engine

variable {settings : Settings} {turns earlier course : List Turn} {turn : Turn} {e e' : Engine}
  {m : Move} {r : RouterRef} {t : Task} {tasks below part part' : List Task}

/-! ## Programs over exchanges -/

/-- A request that is met at once, and never with a failure. -/
def Request.isCertain : Request → Bool
  | .pause _ | .fallAsleep => true
  | _ => false

namespace Program

variable {p q : Program Request Answer} {request : Request}
  {next : Reply → Program Request Answer} {exchanges : List (Request × Reply)}

/-- Told these replies to what it asks for, a program comes to another one. -/
inductive Comes : Program Request Answer → List (Request × Reply) → Program Request Answer → Prop
  | here (p : Program Request Answer) : Comes p [] p
  | told {request : Request} {next : Reply → Program Request Answer} {reply : Reply}
      {exchanges : List (Request × Reply)} {q : Program Request Answer} :
      (request.isCertain = true → reply = .ok []) → Comes (next reply) exchanges q →
      Comes (.ask request next) ((request, reply) :: exchanges) q

/-- One more reply takes the program one request further. -/
theorem Comes.reply (h : p.Comes exchanges (.ask request next)) (reply : Reply)
    (hcertain : request.isCertain = true → reply = .ok []) :
    p.Comes (exchanges ++ [(request, reply)]) (next reply) := by
  generalize hq : Program.ask request next = q at h
  induction h with
  | here p =>
    subst hq
    exact .told hcertain (.here _)
  | told hcertain' _ ih => exact .told hcertain' (ih hq)

end Program

/-! ## Talks -/

/-- What a program asks for in a turn. -/
def Turn.asked? (turn : Turn) : Option Request :=
  match turn.move, turn.before.stack with
  | .proceed, .perform _ (.ask request _) :: _ => some request
  | _, _ => none

/-- The reply that is handed on in a turn. -/
def Turn.told? (turn : Turn) : Option Reply :=
  match turn.move, turn.before.stack with
  | .proceed, .reply reply :: _ => some reply
  | _, _ => none

/-- What has been asked for and told, in this order, and what has been asked for since. -/
structure Talk where
  exchanges : List (Request × Reply) := []
  request : Option Request := none

namespace Talk

/-- The talk one turn later. -/
def heard (talk : Talk) (turn : Turn) : Talk :=
  match talk.request with
  | none => { talk with request := turn.asked? }
  | some request =>
    match turn.told? with
    | some reply => ⟨talk.exchanges ++ [(request, reply)], none⟩
    | none => talk

/-- All that has been asked for. -/
def requests (talk : Talk) : List Request :=
  talk.exchanges.map (·.1) ++ talk.request.toList

theorem heard_of_silent {talk : Talk} (hasked : turn.asked? = none) (htold : turn.told? = none) :
    talk.heard turn = talk := by
  unfold heard
  split
  · rename_i hrequest
    rw [hasked, ← hrequest]
  · rw [htold]

theorem heard_of_none {talk : Talk} (h : talk.request = none) :
    talk.heard turn = ⟨talk.exchanges, turn.asked?⟩ := by
  rw [heard, h]

theorem heard_of_told {talk : Talk} {request : Request} {reply : Reply}
    (hrequest : talk.request = some request) (htold : turn.told? = some reply) :
    talk.heard turn = ⟨talk.exchanges ++ [(request, reply)], none⟩ := by
  rw [heard, hrequest, htold]

/-- What has been asked for stays so. -/
theorem requests_grow (talk : Talk) (turn : Turn) :
    talk.requests <+: (talk.heard turn).requests := by
  unfold heard
  split
  · rename_i hrequest
    rw [requests, requests, hrequest]
    exact (List.prefix_append_right_inj _).2 List.nil_prefix
  · rename_i request hrequest
    split
    · simp [requests, hrequest]
    · exact List.prefix_rfl

end Talk

/-- The talk of a call over the turns since it began, the latest first. -/
def talk : List Turn → Talk
  | [] => {}
  | turn :: earlier => if pending earlier = [] then (talk earlier).heard turn else talk earlier

theorem talk_of_own (h : pending course = []) :
    talk (turn :: course) = (talk course).heard turn := by
  rw [talk, if_pos h]

theorem talk_of_aside (h : pending course ≠ []) : talk (turn :: course) = talk course := by
  rw [talk, if_neg h]

theorem asked?_of_move (h : m ≠ .proceed) : (Turn.mk e m e').asked? = none := by
  unfold Turn.asked?
  split
  · rename_i hm _
    exact absurd hm h
  · rfl

theorem told?_of_move (h : m ≠ .proceed) : (Turn.mk e m e').told? = none := by
  unfold Turn.told?
  split
  · rename_i hm _
    exact absurd hm h
  · rfl

/-- Nothing is asked for where another task is on top. -/
theorem asked?_of_stack (hs : e.stack = t :: below) (ht : t.isBase = false) :
    (Turn.mk e m e').asked? = none := by
  unfold Turn.asked?
  split
  · rename_i hs'
    cases hs.symm.trans hs'
    cases ht
  · rfl

theorem told?_of_stack (hs : e.stack = t :: below) (ht : ∀ reply, t ≠ .reply reply) :
    (Turn.mk e m e').told? = none := by
  unfold Turn.told?
  split
  · rename_i reply _ _ hs'
    cases hs.symm.trans hs'
    exact absurd rfl (ht reply)
  · rfl

/-! ## What a call waits for -/

namespace Engine

theorem issue_stack (e : Engine) (r : RouterRef) (transfer : Transfer) (style : Style) :
    (∃ reply, (e.issue r transfer style).stack = .reply reply :: e.stack) ∨
      ∃ command, (e.issue r transfer style).stack = .allocate r command style :: e.stack := by
  unfold issue
  simp only
  split
  · exact .inl ⟨_, rfl⟩
  · split
    · exact .inl ⟨_, rfl⟩
    · split
      · exact .inl ⟨_, rfl⟩
      · split
        · exact .inl ⟨_, rfl⟩
        · split
          · exact .inl ⟨_, rfl⟩
          · exact .inr ⟨_, rfl⟩

/-- What is asked for stands above the program that has asked, behind chores. -/
theorem meet_stack (e : Engine) (r : RouterRef) (request : Request) :
    ∃ tasks t, (e.meet r request).stack = tasks ++ t :: e.stack ∧
      (∀ t ∈ tasks, t.isChore = true) ∧ t.isBase = false ∧ t.isChore = false ∧
      (request.isCertain = true → t = .reply (.ok [])) := by
  have replied {request : Request} {reply : Reply} (hcertain : request.isCertain = false)
      (hs : (e.meet r request).stack = .reply reply :: e.stack) :
      ∃ tasks t, (e.meet r request).stack = tasks ++ t :: e.stack ∧
        (∀ t ∈ tasks, t.isChore = true) ∧ t.isBase = false ∧ t.isChore = false ∧
        (request.isCertain = true → t = .reply (.ok [])) :=
    ⟨[], _, hs, List.forall_mem_nil _, rfl, rfl, fun h => by rw [hcertain] at h; cases h⟩
  cases request with
  | transfer transfer style =>
    rcases e.issue_stack r transfer style with ⟨reply, hs⟩ | ⟨command, hs⟩
    · exact replied rfl hs
    · exact ⟨[], _, hs, List.forall_mem_nil _, rfl, rfl, nofun⟩
  | pause ms =>
    exact ⟨[.sleep ms], _, rfl, List.forall_mem_singleton.2 rfl, rfl, rfl, fun _ => rfl⟩
  | fallAsleep => exact ⟨[], _, rfl, List.forall_mem_nil _, rfl, rfl, fun _ => rfl⟩
  | enrol identity =>
    obtain ⟨-, reply, hs⟩ := e.enrol_flow r identity
    exact replied rfl hs
  | unlink => exact replied rfl (e.unlink_flow r).2

/-- A move that does more than put something on top takes something away. -/
theorem gone_of_stirs {gone rest : List Task} (he : e.stack = gone ++ rest)
    (he' : e'.stack = tasks ++ rest) (hstirs : ∀ added, e'.stack ≠ added ++ e.stack) :
    ∃ t more, gone = t :: more := by
  cases gone with
  | nil =>
    rw [he', ← List.nil_append rest, ← he] at hstirs
    exact absurd rfl (hstirs tasks)
  | cons t more => exact ⟨t, more, rfl⟩

/-- **What a call waits for gives way to something else that it waits for**, unless it is the
reply. -/
theorem Inner.awaits (k : Inner e m e') (hs : e.stack = t :: below) (hbase : t.isBase = false)
    (hchore : t.isChore = false) (hreply : ∀ reply, t ≠ .reply reply)
    (hstirs : ∀ added, e'.stack ≠ added ++ e.stack) :
    ∃ tasks t', e'.stack = tasks ++ t' :: below ∧ (∀ t ∈ tasks, t.isChore = true) ∧
      t'.isBase = false ∧ t'.isChore = false := by
  have above {t' : Task} (tasks : List Task) (he' : e'.stack = tasks ++ t' :: below)
      (htasks : ∀ t ∈ tasks, t.isChore = true) (hbase' : t'.isBase = false)
      (hchore' : t'.isChore = false) :
      ∃ tasks t', e'.stack = tasks ++ t' :: below ∧ (∀ t ∈ tasks, t.isChore = true) ∧
        t'.isBase = false ∧ t'.isChore = false := ⟨tasks, t', he', htasks, hbase', hchore'⟩
  have never {t' : Task} {rest : List Task} {P : Prop} (he : e.stack = t' :: rest)
      (hnot : t' ≠ t) : P := by
    rw [hs] at he
    exact absurd (List.cons.inj he).1.symm hnot
  have empty : ∀ t ∈ ([] : List Task), t.isChore = true := List.forall_mem_nil _
  have drain (r : RouterRef) : ∀ t ∈ [Task.drain r], t.isChore = true :=
    List.forall_mem_singleton.2 rfl
  cases k with
  | quiet gone tasks rest he he' hgone =>
    obtain ⟨t', more, rfl⟩ := gone_of_stirs he he' hstirs
    refine never he ?_
    rintro rfl
    rw [Task.isChore_of_quiet (hgone _ List.mem_cons_self)] at hchore
    cases hchore
  | noted r c old signal words he' => exact absurd he' (hstirs [.handled])
  | completed r c old signal words tasks he' => exact absurd he' (hstirs _)
  | interrupted r c old event tasks he' => exact absurd he' (hstirs _)
  | returned _ _ _ he | expired _ _ _ _ _ he | refused _ _ _ _ _ _ he =>
    refine never he ?_
    rintro rfl
    cases hchore
  | finished _ _ _ he | asked _ _ _ _ _ _ he | unlinked _ _ _ he | unregistered _ _ he
  | rooted _ _ _ he =>
    refine never he ?_
    rintro rfl
    cases hbase
  | resumed r next reply rest he => exact never he (hreply reply).symm
  | dropped reply rest he => exact never he (hreply reply).symm
  | unframed r command style failure rest he he' =>
    cases hs.symm.trans he
    exact above [] he' empty rfl rfl
  | framed r command watching rest he he' =>
    cases hs.symm.trans he
    exact above [] he' empty rfl rfl
  | issued r command style t' mid router rest he he' issued =>
    cases hs.symm.trans he
    cases hd : router.detached with
    | true =>
      rw [hd] at he'
      exact above [] he' empty rfl rfl
    | false =>
      rw [hd] at he'
      cases issued <;> exact above [.drain r] he' (drain r) rfl rfl
  | retried w watching left router old rest he he' =>
    cases hs.symm.trans he
    cases hd : router.detached with
    | true =>
      rw [hd] at he'
      exact above [] he' empty rfl rfl
    | false =>
      rw [hd] at he'
      exact above [.drain w.router] he' (drain _) rfl rfl
  | exhausted w rest he he' =>
    cases hs.symm.trans he
    exact above [] he' empty rfl rfl
  | watched w deadline rest he he' =>
    cases hs.symm.trans he
    exact above [] he' empty rfl rfl
  | settled w t₀ t' command rest he ht he' hcommand hsettled =>
    cases hs.symm.trans he
    rcases hsettled with ⟨reply, rfl, -⟩ | ⟨rfl, -⟩ <;> exact above [] he' empty rfl rfl
  | unclaimed w deadline rest he he' =>
    cases hs.symm.trans he
    exact above [] he' empty rfl rfl
  | withdrawn w deadline mid old expired t' tasks rest he he' hquiet hfits ht =>
    cases hs.symm.trans he
    have hchores := Task.isChore_withdrawn hquiet w.router expired
    rcases ht with rfl | ⟨rfl, -⟩ <;> exact above _ he' hchores rfl rfl

/-! ## How far a call has come -/

/-- The tasks of a call on a router are at the point to which its talk leads the program. -/
inductive Speaks (r : RouterRef) (p : Program Request Answer) (talk : Talk) : List Task → Prop
  | performing {q : Program Request Answer} : talk.request = none → p.Comes talk.exchanges q →
      Speaks r p talk [.perform r q]
  | waiting {t : Task} {request : Request} {next : Reply → Program Request Answer} :
      talk.request = some request → p.Comes talk.exchanges (.ask request next) →
      t.isBase = false → t.isChore = false →
      (request.isCertain = true → t = .reply (.ok [])) → Speaks r p talk [t, .resume r next]
  | answered {result : Outcome Answer} : talk.request = none →
      p.Comes talk.exchanges (.done result) → Speaks r p talk [.answer result]

variable {p : Program Request Answer} {talk : Talk}

/-- An engine that can go on by itself does, or time passes. -/
theorem step_of_stirs (hp : e.pause = .working) (hm : e.move? m = some e')
    (hstirs : ∀ added, e'.stack ≠ added ++ e.stack) : m = .proceed ∧ e' = e.step := by
  rcases working_cases hp hm with h | ⟨ms, -, rfl⟩
  · exact h
  · exact absurd rfl (hstirs [])

theorem pause_of_perform {q : Program Request Answer} (hs : e.stack = .perform r q :: below) :
    e.pause = .working := by
  unfold pause
  rw [hs]

theorem pause_of_reply {reply : Reply} (hs : e.stack = .reply reply :: below) :
    e.pause = .working := by
  unfold pause
  rw [hs]

/-- What an answered call has come to stays. -/
theorem Advances.of_answer {result : Outcome Answer}
    (a : e.Advances e' [.answer result] part' tasks below) : False := by
  obtain ⟨t', ht', hbase'⟩ := a.becomes.exists_base
  have hl := a.lowers _ List.mem_cons_self t' ht' rfl hbase'
  have hpart : part' = [.answer result] := by
    cases a.becomes with
    | base =>
      rw [List.mem_singleton.1 ht'] at hl
      cases hl
      rfl
    | @above t r next hbase =>
      rcases List.mem_pair.1 ht' with rfl | rfl
      · rw [hbase] at hbase'
        cases hbase'
      · cases hl
  refine a.stirs tasks ?_
  rw [a.after, hpart, List.append_assoc, a.before]

/-- **A move that takes a call further takes its talk further.** -/
theorem Speaks.advanced (h : Speaks r p talk part) (hm : e.move? m = some e') (k : Inner e m e')
    (a : e.Advances e' part part' tasks below) :
    Speaks r p (talk.heard ⟨e, m, e'⟩) part' := by
  have hbefore := a.before
  cases h with
  | @performing q hrequest hcomes =>
    obtain ⟨rfl, rfl⟩ := step_of_stirs (pause_of_perform hbefore) hm a.stirs
    cases q with
    | done result =>
      have hstep : e.step.stack = [] ++ [Task.answer result] ++ below := by
        unfold step
        rw [hbefore]
        rfl
      rw [a.becomes_eq hstep (List.forall_mem_nil _) (.base rfl),
        Talk.heard_of_silent (by simp [Turn.asked?, hbefore]) (by simp [Turn.told?, hbefore])]
      exact .answered hrequest hcomes
    | ask request next =>
      obtain ⟨chores, t, hstack, hchores, hbase, hchore, hcertain⟩ :=
        meet_stack (({ e with stack := below } : Engine).push [.resume r next]) r request
      have hstep : e.step.stack = chores ++ [t, .resume r next] ++ below := by
        unfold step
        rw [hbefore, List.append_assoc]
        exact hstack
      have hasked : (Turn.mk e .proceed e.step).asked? = some request := by
        simp [Turn.asked?, hbefore]
      rw [a.becomes_eq hstep hchores (.above hbase hchore), Talk.heard_of_none hrequest, hasked]
      exact .waiting rfl hcomes hbase hchore hcertain
  | @waiting t request next hrequest hcomes hbase hchore hcertain =>
    have hasked : (Turn.mk e m e').asked? = none := asked?_of_stack hbefore hbase
    by_cases hreply : ∃ reply, t = .reply reply
    · obtain ⟨reply, rfl⟩ := hreply
      obtain ⟨rfl, rfl⟩ := step_of_stirs (pause_of_reply hbefore) hm a.stirs
      have hstep : e.step.stack = [] ++ [Task.perform r (next reply)] ++ below := by
        unfold step
        rw [hbefore]
        rfl
      have htold : (Turn.mk e .proceed e.step).told? = some reply := by
        simp [Turn.told?, hbefore]
      rw [a.becomes_eq hstep (List.forall_mem_nil _) (.base rfl),
        Talk.heard_of_told hrequest htold]
      refine .performing rfl (hcomes.reply reply fun h => ?_)
      exact Task.reply.inj (hcertain h)
    · have hnot : ∀ reply, t ≠ .reply reply := fun reply heq => hreply ⟨reply, heq⟩
      obtain ⟨chores, t', he', hchores, hbase', hchore'⟩ :=
        k.awaits hbefore hbase hchore hnot a.stirs
      have hstack : e'.stack = chores ++ [t', .resume r next] ++ below := by
        rw [he', List.append_assoc]
        rfl
      rw [a.becomes_eq hstack hchores (.above hbase' hchore'),
        Talk.heard_of_silent hasked (told?_of_stack hbefore hnot)]
      exact .waiting hrequest hcomes hbase' hchore' fun h => absurd (hcertain h) (hnot _)
  | answered => exact a.of_answer.elim

/-- Nothing is asked for or told in a turn that leaves the calls where they are. -/
theorem Leaves.silent {gone : List Task} {standing : List (Call × Progress)}
    (l : e.Leaves e' gone tasks below) (h : e.Stacked standing e.stack)
    (hm : e.move? m = some e') :
    (Turn.mk e m e').asked? = none ∧ (Turn.mk e m e').told? = none := by
  have hsame : segments e'.stack = segments e.stack := by
    rw [l.before, l.after, segments_append l.gone, segments_append l.tasks]
  constructor
  · unfold Turn.asked?
    split
    · rename_i r request next rest hproceed hs
      obtain rfl : m = .proceed := hproceed
      obtain ⟨chores, t, hstack, hchores, hbase, hchore, -⟩ :=
        meet_stack (({ e with stack := rest } : Engine).push [.resume r next]) r request
      have hstep : e'.stack = chores ++ ([t, .resume r next] ++ rest) := by
        rw [step_of_proceed hm]
        unfold step
        rw [show e.stack = .perform r (.ask request next) :: rest from hs]
        exact hstack
      have hasks : segments e.stack = [.perform r (.ask request next)] :: segments rest := by
        rw [show e.stack = .perform r (.ask request next) :: rest from hs, segments_base rfl]
      rw [hstep, segments_append hchores, (Segment.above hbase hchore).segments, hasks] at hsame
      cases hsame
    · rfl
  · unfold Turn.told?
    split
    · rename_i reply rest hproceed hs
      obtain rfl : m = .proceed := hproceed
      obtain ⟨r, next, outer, rfl⟩ := h.answers hs
      have hstep : e'.stack = .perform r (next reply) :: outer := by
        rw [step_of_proceed hm]
        unfold step
        rw [show e.stack = .reply reply :: .resume r next :: outer from hs]
        rfl
      have htold : segments e.stack = [.reply reply, .resume r next] :: segments outer := by
        rw [show e.stack = .reply reply :: .resume r next :: outer from hs]
        exact (Segment.above rfl rfl).segments outer
      rw [hstep, segments_base rfl, htold] at hsame
      cases hsame
    · rfl

end Engine

/-! ## Runs -/

/-- A call in progress has begun in this turn, or was in progress before it. -/
theorem mem_sessions_cons {session : Session} (h : session ∈ sessions settings (turn :: earlier)) :
    (∃ call, turn.move = .call call ∧ session = .opened call) ∨
      ∃ was ∈ sessions settings earlier, session.call = was.call ∧
        session.course = turn :: was.course := by
  have older {l : List Session} (hl : ∀ was ∈ l, was ∈ sessions settings earlier)
      (hmem : session ∈ l.map (·.after turn)) : ∃ was ∈ sessions settings earlier,
        session.call = was.call ∧ session.course = turn :: was.course := by
    obtain ⟨was, hwas, rfl⟩ := List.mem_map.1 hmem
    exact ⟨was, hl was hwas, rfl, rfl⟩
  unfold sessions at h
  split at h
  · rename_i call hm
    rcases List.mem_cons.1 h with rfl | h
    · exact .inl ⟨call, hm, rfl⟩
    · exact .inr (older (fun _ => id) h)
  · split at h
    · exact .inr (older (fun _ => List.mem_of_mem_tail) h)
    · split at h
      · cases h
      · rename_i innermost outer hs
        rcases List.mem_cons.1 h with rfl | h
        · exact .inr ⟨innermost, hs ▸ List.mem_cons_self, rfl, rfl⟩
        · exact .inr (older (fun _ hmem => hs ▸ List.mem_cons_of_mem _ hmem) h)

/-- The course of a call goes back to the turn in which it has begun. -/
theorem began_of_session {session : Session} (h : session ∈ sessions settings turns) :
    (session.course = turns ∧ session.call = .attachRoot settings) ∨
      ∃ e₀ e₁ earlier, turns = session.course ++ ⟨e₀, .call session.call, e₁⟩ :: earlier := by
  induction turns generalizing session with
  | nil =>
    cases List.mem_singleton.1 h
    exact .inl ⟨rfl, rfl⟩
  | cons turn later ih =>
    rcases mem_sessions_cons h with ⟨call, hm, rfl⟩ | ⟨was, hwas, hcall, hcourse⟩
    · obtain ⟨before, move, after⟩ := turn
      obtain rfl : move = .call call := hm
      exact .inr ⟨before, after, later, rfl⟩
    · rw [hcall, hcourse]
      rcases ih hwas with ⟨rfl, hroot⟩ | ⟨e₀, e₁, earlier, rfl⟩
      · exact .inl ⟨rfl, hroot⟩
      · exact .inr ⟨e₀, e₁, earlier, rfl⟩

theorem call_of_course {session : Session} {call : Call} {e₀ e₁ : Engine}
    (h : session ∈ sessions settings turns)
    (hturns : turns = session.course ++ ⟨e₀, .call call, e₁⟩ :: earlier) : session.call = call := by
  rcases began_of_session h with ⟨hall, -⟩ | ⟨e₀', e₁', earlier', hbegan⟩
  · rw [hall] at hturns
    simp at hturns
  · rw [hturns] at hbegan
    obtain ⟨heq, -⟩ := List.cons.inj (List.append_cancel_left hbegan)
    cases heq
    rfl

/-- The tasks of a call that operates on a router are where the talk of the call says. -/
def Session.Talks (settings : Settings) (turns : List Turn) (session : Session)
    (part : List Task) : Prop :=
  ∀ r operation e₀ e₁ earlier router,
    turns = session.course ++ ⟨e₀, .call (.operate r operation), e₁⟩ :: earlier →
    e₀.router? r = some router →
    Speaks r (operation.program settings router) (talk session.course) part

/-- What becomes of it in a turn. -/
theorem Session.Talks.turned {session session' : Session} (h : session.Talks settings turns part)
    (hcourse : session'.course = turn :: session.course)
    (hpart : ∀ r p, Speaks r p (talk session.course) part →
      Speaks r p (talk (turn :: session.course)) part') :
    session'.Talks settings (turn :: turns) part' := by
  intro r operation e₀ e₁ earlier router hturns hr
  rw [hcourse] at hturns ⊢
  exact hpart r _ (h r operation e₀ e₁ earlier router (List.cons.inj hturns).2 hr)

/-- **Throughout every run, the calls are at the point that their talks say.** -/
theorem Run.talked (h : Run settings turns e) :
    List.Forall₂ (fun session part => session.Talks settings turns part)
      (sessions settings turns) (segments e.stack) := by
  refine h.along_turns (P := fun turns _ session part => session.Talks settings turns part)
    ?start ?called ?aside ?idle ?advanced
  case start =>
    intro t _ r operation e₀ e₁ earlier router hturns
    cases hturns
  case called =>
    intro turns e call e' t tasks prior k hm ht he' _ r operation e₀ e₁ earlier router hturns hr
    obtain ⟨heq, -⟩ := List.cons.inj hturns
    cases heq
    have hsettings : e.topology.settings = settings := prior.explored.settings_eq
    have hpushed : e' = e.push [.perform r (operation.program settings router)] := by
      have hcalled : (if e.isWorking then none else some (e.operate r operation)) = some e' := hm
      split at hcalled
      · cases hcalled
      · rw [← Option.some.inj hcalled]
        unfold operate
        rw [hr, hsettings]
    have heq : Task.perform r (operation.program settings router) = t :=
      base_of_begun [] ((congrArg Engine.stack hpushed).symm.trans he')
    rw [← heq]
    exact .performing rfl (.here _)
  case aside =>
    intro turns e m e' session part gone tasks below prior ha hm hp he he' hpart hothers
    refine hp.turned rfl fun r p hspeaks => ?_
    by_cases hpending : pending session.course = []
    · rcases hothers with ⟨call, rfl⟩ | ⟨innermost, -, hmem⟩
      · have hno : Move.call call ≠ .proceed := nofun
        rw [talk_of_own hpending, Talk.heard_of_silent (asked?_of_move hno) (told?_of_move hno)]
        exact hspeaks
      · rw [hpending] at hmem
        cases hmem
    · rw [talk_of_aside hpending]
      exact hspeaks
  case idle =>
    intro turns e m e' session part gone tasks below prior hcall hm hhead hp l hpart
    refine hp.turned rfl fun r p hspeaks => ?_
    obtain ⟨standing, hstacked, -⟩ := prior.stacked
    obtain ⟨hasked, htold⟩ := l.silent hstacked hm
    rw [talk_of_own (pending_of_head hhead), Talk.heard_of_silent hasked htold]
    exact hspeaks
  case advanced =>
    intro turns e m e' session part part' tasks below prior hcall hm k hhead hp a
    refine hp.turned rfl fun r p hspeaks => ?_
    rw [talk_of_own (pending_of_head hhead)]
    exact hspeaks.advanced hm k a

end RouterFabric
