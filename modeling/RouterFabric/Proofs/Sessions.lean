import Mathlib.Data.List.Forall2
import RouterFabric.Proofs.Calls
import RouterFabric.Proofs.Concluded
import RouterFabric.Proofs.Engine.Verdicts

/-!
# The course of a call

Of every call in progress it is kept which turns were made since it began and which command was
made for it last. On the stack each call has one task that is its lowest, and at most one above it
that the lowest waits for. A move puts other tasks in the place of the innermost call's, or leaves
all calls as they stand; so whatever holds of each call, given its course and its tasks, can be
carried along a run call by call.

* `sessions` : the calls in progress, with the turns and the command of each
* `pending`, `pending_sessions` : the calls that stand above another one
* `segments` : the stack, call by call
* `Engine.Advances`, `Inner.advances` : what a move does to the tasks of the calls
* `Run.along_turns`, `Run.along` : an invariant of the calls in progress, from what it says about
  one call
-/

namespace RouterFabric

open Engine

variable {settings : Settings} {turns earlier : List Turn} {turn : Turn} {e e' : Engine} {m : Move}
  {t : Task} {below tasks part part' : List Task}

/-! ## Sessions -/

/-- A call in progress. -/
structure Session where
  call : Call
  /-- the turns since the call began, the latest first -/
  course : List Turn
  /-- the command that was made for it last -/
  command : Option CommandRef

namespace Session

/-- The call at its beginning. -/
def opened (call : Call) : Session :=
  ⟨call, [], none⟩

/-- The call one turn later. -/
def after (session : Session) (turn : Turn) : Session :=
  { session with course := turn :: session.course }

/-- The call with a command, if one has been made for it. -/
def given (session : Session) (command : Option CommandRef) : Session :=
  { session with command := command.orElse fun _ => session.command }

end Session

/-- The command that is made in a turn. -/
def Turn.made? (turn : Turn) : Option CommandRef :=
  if turn.before.commands.length < turn.after.commands.length then
    some ⟨turn.before.commands.length⟩
  else
    none

/-- The calls in progress after these turns, the innermost first. -/
def sessions (settings : Settings) : List Turn → List Session
  | [] => [.opened (.attachRoot settings)]
  | turn :: earlier =>
    match turn.move with
    | .call call => .opened call :: (sessions settings earlier).map (·.after turn)
    | _ =>
      match turn.answer? with
      | some _ => ((sessions settings earlier).tail).map (·.after turn)
      | none =>
        match sessions settings earlier with
        | [] => []
        | innermost :: outer => (innermost.after turn).given turn.made? :: outer.map (·.after turn)

theorem calls_of_sessions (settings : Settings) (turns : List Turn) :
    (sessions settings turns).map (·.call) = openCalls settings turns := by
  have same (turn : Turn) (l : List Session) : (l.map (·.after turn)).map (·.call) =
      l.map (·.call) := by
    rw [List.map_map]
    rfl
  induction turns with
  | nil => rfl
  | cons turn earlier ih =>
    simp only [sessions, openCalls]
    rw [← ih]
    cases turn.move with
    | call call =>
      rw [List.map_cons, same]
      rfl
    | _ =>
      cases turn.answer? with
      | some result => exact (same _ _).trans List.map_tail
      | none =>
        cases sessions settings earlier with
        | nil => rfl
        | cons innermost outer =>
          show _ :: (outer.map (·.after turn)).map (·.call) = _
          rw [same]
          rfl

theorem sessions_of_called (call : Call) : sessions settings (⟨e, .call call, e'⟩ :: earlier) =
    .opened call :: (sessions settings earlier).map (·.after ⟨e, .call call, e'⟩) := rfl

theorem sessions_of_collected {result : Outcome Answer} (hs : e.stack = .answer result :: below) :
    sessions settings (⟨e, .collect, e'⟩ :: earlier) =
      ((sessions settings earlier).tail).map (·.after ⟨e, .collect, e'⟩) := by
  simp [sessions, Turn.answer?, hs]

theorem sessions_of_inner {innermost : Session} {outer : List Session}
    (hcall : ∀ call, m ≠ .call call)
    (hcollect : m = .collect → ∀ result below, e.stack ≠ .answer result :: below)
    (hs : sessions settings earlier = innermost :: outer) :
    sessions settings (⟨e, m, e'⟩ :: earlier) =
      (innermost.after ⟨e, m, e'⟩).given (Turn.made? ⟨e, m, e'⟩) ::
        outer.map (·.after ⟨e, m, e'⟩) := by
  rw [sessions, answer?_of_inner hcollect, hs]
  split
  · rename_i call hm
    exact absurd hm (hcall call)
  · rfl

/-- The calls made in these turns whose answers have not been taken, the latest first. -/
def pending : List Turn → List Call
  | [] => []
  | turn :: earlier =>
    match turn.move with
    | .call call => call :: pending earlier
    | _ =>
      match turn.answer? with
      | some _ => (pending earlier).tail
      | none => pending earlier

/-- The calls that are pending among the turns of a call are those that stand above it. -/
theorem pending_sessions (settings : Settings) (turns : List Turn) : ∀ i session,
    (sessions settings turns)[i]? = some session →
      pending session.course = ((sessions settings turns).take i).map (·.call) := by
  have same (turn : Turn) (l : List Session) (i : Nat) :
      ((l.map (·.after turn)).take i).map (·.call) = (l.take i).map (·.call) := by
    rw [← List.map_take, List.map_map]
    rfl
  induction turns with
  | nil =>
    intro i session hi
    cases i with
    | zero =>
      cases hi
      rfl
    | succ i => cases hi
  | cons turn earlier ih =>
    intro i session hi
    simp only [sessions] at hi ⊢
    split at hi
    · rename_i call hm
      cases i with
      | zero =>
        cases hi
        rfl
      | succ i =>
        rw [List.getElem?_cons_succ, List.getElem?_map, Option.map_eq_some_iff] at hi
        obtain ⟨was, hwas, rfl⟩ := hi
        show pending (turn :: was.course) = _
        rw [pending, hm, List.take_succ_cons, List.map_cons, same, ← ih i was hwas]
        rfl
    · rename_i hno
      have inner (course : List Turn) : pending (turn :: course) =
          match turn.answer? with
          | some _ => (pending course).tail
          | none => pending course := by
        rw [pending]
        split
        · rename_i call hm
          exact absurd hm (hno call)
        · rfl
      split at hi
      · rename_i result hanswer
        rw [List.getElem?_map, List.getElem?_tail, Option.map_eq_some_iff] at hi
        obtain ⟨was, hwas, rfl⟩ := hi
        show pending (turn :: was.course) = _
        rw [inner, hanswer, same]
        show (pending was.course).tail = _
        rw [ih (i + 1) was hwas]
        cases sessions settings earlier with
        | nil => simp
        | cons innermost outer => rfl
      · rename_i hanswer
        cases hs : sessions settings earlier with
        | nil =>
          rw [hs] at hi
          cases hi
        | cons innermost outer =>
          rw [hs] at hi ih
          cases i with
          | zero =>
            cases hi
            show pending (turn :: innermost.course) = _
            rw [inner, hanswer]
            exact ih 0 innermost rfl
          | succ i =>
            simp only [List.getElem?_cons_succ, List.getElem?_map, Option.map_eq_some_iff] at hi
            obtain ⟨was, hwas, rfl⟩ := hi
            show pending (turn :: was.course) = _
            rw [inner, hanswer]
            simp only [List.take_succ_cons, List.map_cons, same]
            exact ih (i + 1) was hwas

/-! ## Segments -/

/-- The tasks of the calls on a stack, the innermost call first. Chores belong to none. -/
def segments : List Task → List (List Task)
  | [] => []
  | t :: below =>
    if t.isBase then
      [t] :: segments below
    else if t.isChore then
      segments below
    else
      match segments below with
      | [] => []
      | innermost :: outer => (t :: innermost) :: outer

theorem Task.waiter?_of_base (h : t.isBase = true) : t.waiter? = none := by
  cases t <;> first | rfl | cases h

theorem segments_base (ht : t.isBase = true) : segments (t :: below) = [t] :: segments below := by
  rw [segments, if_pos ht]

theorem segments_append (htasks : ∀ t ∈ tasks, t.isChore = true) :
    segments (tasks ++ below) = segments below := by
  induction tasks with
  | nil => rfl
  | cons t rest ih =>
    have ht := htasks t List.mem_cons_self
    rw [List.cons_append, segments, if_neg (by simp [Task.isBase_of_chore ht]), if_pos ht]
    exact ih fun t' ht' => htasks t' (List.mem_cons_of_mem _ ht')

theorem mem_of_mem_segments {stack : List Task} (h : part ∈ segments stack) :
    ∀ t ∈ part, t ∈ stack := by
  induction stack generalizing part with
  | nil => cases h
  | cons t below ih =>
    have rest (hmem : part ∈ segments below) : ∀ t' ∈ part, t' ∈ t :: below :=
      fun t' ht' => List.mem_cons_of_mem _ (ih hmem t' ht')
    unfold segments at h
    split at h
    · rcases List.mem_cons.1 h with rfl | h
      · exact fun t' ht' => List.mem_singleton.1 ht' ▸ List.mem_cons_self
      · exact rest h
    · split at h
      · exact rest h
      · split at h
        · cases h
        · rename_i innermost outer hs
          rcases List.mem_cons.1 h with rfl | h
          · intro t' ht'
            rcases List.mem_cons.1 ht' with rfl | ht'
            · exact List.mem_cons_self
            · exact List.mem_cons_of_mem _ (ih (hs ▸ List.mem_cons_self) t' ht')
          · exact rest (hs ▸ List.mem_cons_of_mem _ h)

/-- The tasks of one call: its lowest, or what that one waits for and the lowest. -/
inductive Segment : List Task → Prop
  | base {t : Task} : t.isBase = true → Segment [t]
  | above {t : Task} {r : RouterRef} {next : Reply → Program Request Answer} : t.isBase = false →
      t.isChore = false → Segment [t, .resume r next]

theorem Segment.segments (h : Segment part) (below : List Task) :
    segments (part ++ below) = part :: RouterFabric.segments below := by
  cases h with
  | base ht => exact segments_base ht
  | @above t r next hbase hchore =>
    show RouterFabric.segments (t :: .resume r next :: below) = _
    rw [RouterFabric.segments, if_neg (by simp [hbase]), if_neg (by simp [hchore]),
      segments_base rfl]

theorem Segment.exists_base (h : Segment part) : ∃ t ∈ part, t.isBase = true := by
  cases h with
  | base ht => exact ⟨_, List.mem_cons_self, ht⟩
  | above => exact ⟨_, List.mem_cons_of_mem _ List.mem_cons_self, rfl⟩

/-- A call has one lowest task. -/
theorem Segment.base_unique {t' : Task} (h : Segment part) (ht : t ∈ part) (ht' : t' ∈ part)
    (hbase : t.isBase = true) (hbase' : t'.isBase = true) : t = t' := by
  cases h with
  | base => rw [List.mem_singleton.1 ht, List.mem_singleton.1 ht']
  | above hnot =>
    have lowest {t : Task} {rest : List Task} {above : Task} (habove : above.isBase = false)
        (ht : t ∈ above :: rest) (hbase : t.isBase = true) : t ∈ rest := by
      rcases List.mem_cons.1 ht with rfl | ht
      · rw [habove] at hbase
        cases hbase
      · exact ht
    rw [List.mem_singleton.1 (lowest hnot ht hbase), List.mem_singleton.1 (lowest hnot ht' hbase')]

/-- What a call begins with is known by where it stands. -/
theorem base_of_begun (tasks : List Task) {t' : Task} {tasks' stack : List Task}
    (h : tasks ++ [t] ++ stack = tasks' ++ [t'] ++ stack) : t = t' := by
  have hl : [t] = [t'] := (List.append_inj' (List.append_cancel_right h) rfl).2
  exact (List.cons.inj hl).1

namespace Engine

/-- The tasks of a call are what its part is made of. -/
theorem Stands.segment {call : Call} {progress : Progress} (h : e.Stands call progress part) :
    Segment part := by
  have waiting {t : Task} {w : Waiter} {r : RouterRef} {next : Reply → Program Request Answer}
      (hw : t.waiter? = some w) : Segment [t, .resume r next] := by
    refine .above ?_ (Task.isChore_of_waiter? hw)
    cases t <;> first | rfl | cases hw
  cases h with
  | asking | concluded | answered => exact .base rfl
  | framing | replied => exact .above rfl rfl
  | waiting hw => exact waiting hw
  | plain _ hp =>
    cases hp with
    | registering | performing | answered => exact .base rfl
    | framing | replied => exact .above rfl rfl
    | waiting hw => exact waiting hw

/-! ## Moves -/

/-- What a move makes of the lowest task of a call. -/
inductive Lowers (e : Engine) : Task → Task → Prop
  | kept (t : Task) : Lowers e t t
  | concluded {r : RouterRef} {result : Outcome Answer} {below : List Task} :
      e.stack = .perform r (.done result) :: below →
      Lowers e (.perform r (.done result)) (.answer result)
  | asked {r : RouterRef} {request : Request} {next : Reply → Program Request Answer}
      {below : List Task} : e.stack = .perform r (.ask request next) :: below →
      Lowers e (.perform r (.ask request next)) (.resume r next)
  | resumed {r : RouterRef} {next : Reply → Program Request Answer} (reply : Reply) :
      Lowers e (.resume r next) (.perform r (next reply))
  | registered (t : Task) : Lowers e .register t

/-- A caller that comes to wait has a new command, or has waited in the task before. -/
def Inherits (e : Engine) (t t' : Task) : Prop :=
  ∀ w', t'.waiter? = some w' → w'.command.index = e.commands.length ∨
    ∃ w, t.waiter? = some w ∧ w.command = w'.command

theorem inherits_of_none {t t' : Task} (h : t'.waiter? = none) : e.Inherits t t' := by
  intro w hw
  rw [h] at hw
  cases hw

theorem inherits_of_same {t t' : Task} {w w' : Waiter} (hw : t.waiter? = some w)
    (hw' : t'.waiter? = some w') (h : w.command = w'.command) : e.Inherits t t' := by
  intro w₁ hw₁
  cases hw'.symm.trans hw₁
  exact .inr ⟨w, hw, h⟩

/-- A move puts other tasks in the place of the innermost call's. -/
structure Advances (e e' : Engine) (part part' tasks below : List Task) : Prop where
  before : e.stack = part ++ below
  after : e'.stack = tasks ++ part' ++ below
  chores : ∀ t ∈ tasks, t.isChore = true
  was : Segment part
  becomes : Segment part'
  lowers : ∀ t ∈ part, ∀ t' ∈ part', t.isBase = true → t'.isBase = true → e.Lowers t t'
  stirs : ∀ added, e'.stack ≠ added ++ e.stack
  waits : ∀ t' ∈ part', ∀ w', t'.waiter? = some w' → w'.command.index = e.commands.length ∨
    ∃ t ∈ part, ∃ w, t.waiter? = some w ∧ w.command = w'.command

/-- A move leaves what is below some chores. -/
structure Leaves (e e' : Engine) (gone tasks below : List Task) : Prop where
  before : e.stack = gone ++ below
  after : e'.stack = tasks ++ below
  gone : ∀ t ∈ gone, t.isChore = true
  tasks : ∀ t ∈ tasks, t.isChore = true

variable {standing : List (Call × Progress)} {gone : List Task}

theorem Advances.segments_before (a : e.Advances e' part part' tasks below) :
    segments e.stack = part :: segments below := by
  rw [a.before, a.was.segments]

theorem Advances.segments_after (a : e.Advances e' part part' tasks below) :
    segments e'.stack = part' :: segments below := by
  rw [a.after, List.append_assoc, segments_append a.chores, a.becomes.segments]

/-- What the call has become is known by where it stands. -/
theorem Advances.becomes_eq {part'' tasks' : List Task}
    (a : e.Advances e' part part' tasks below) (he' : e'.stack = tasks' ++ part'' ++ below)
    (htasks : ∀ t ∈ tasks', t.isChore = true) (hpart : Segment part'') : part' = part'' := by
  have hsegments := a.segments_after
  rw [he', List.append_assoc, segments_append htasks, hpart.segments] at hsegments
  exact (List.cons.inj hsegments).1.symm

/-- What comes to stand in the place of a call's lowest task. -/
theorem advances_base {t' : Task} (he : e.stack = t :: below) (ht : t.isBase = true)
    (he' : e'.stack = t' :: below) (ht' : t'.isBase = true) (hl : e.Lowers t t')
    (hne : t' ≠ t) : e.Advances e' [t] [t'] [] below := by
  refine ⟨he, he', List.forall_mem_nil _, .base ht, .base ht', ?_,
    Supplants.stirs ⟨[], t', he', hne⟩ he, List.forall_mem_singleton.2 fun w hw => ?_⟩
  · exact List.forall_mem_singleton.2 (List.forall_mem_singleton.2 fun _ _ => hl)
  · rw [Task.waiter?_of_base ht'] at hw
    cases hw

/-- A call asks for something. -/
theorem advances_asked (tasks : List Task) {t' : Task} {r : RouterRef}
    {next : Reply → Program Request Answer} (he : e.stack = t :: below) (hbase : t.isBase = true)
    (he' : e'.stack = tasks ++ t' :: .resume r next :: below)
    (htasks : ∀ t ∈ tasks, t.isChore = true) (hbase' : t'.isBase = false)
    (hchore' : t'.isChore = false) (hl : e.Lowers t (.resume r next)) (hne : .resume r next ≠ t)
    (hwaits : t'.waiter? = none) : e.Advances e' [t] [t', .resume r next] tasks below := by
  have hlast : e'.stack = (tasks ++ [t']) ++ .resume r next :: below := by simp [he']
  refine ⟨he, by simp [he'], htasks, .base hbase, .above hbase' hchore', ?_,
    Supplants.stirs ⟨_, _, hlast, hne⟩ he, fun t₂ ht₂ w hw => ?_⟩
  · refine List.forall_mem_singleton.2 fun t₂ ht₂ _ hbase₂ => ?_
    rcases List.mem_pair.1 ht₂ with rfl | rfl
    · rw [hbase'] at hbase₂
      cases hbase₂
    · exact hl
  · rcases List.mem_pair.1 ht₂ with rfl | rfl
    · rw [hwaits] at hw
      cases hw
    · cases hw

/-- Below a task that a call waits for is its lowest. -/
theorem Stacked.resume_below (h : e.Stacked standing e.stack) (he : e.stack = t :: below)
    (hbase : t.isBase = false) (hchore : t.isChore = false) :
    ∃ r next rest, below = .resume r next :: rest := by
  rw [he] at h
  obtain ⟨call, progress, outer, part, rest, rfl, hsplit, hstands, -⟩ := h.head hchore
  have hsegment := hstands.segment
  cases hsegment with
  | base ht =>
    rw [hbase] at ht
    cases ht
  | above => exact ⟨_, _, _, hsplit⟩

/-- Something else comes to stand in the place of what a call waits for. -/
theorem Stacked.advances_above {t' : Task} (h : e.Stacked standing e.stack)
    (he : e.stack = t :: below) (hbase : t.isBase = false) (hchore : t.isChore = false)
    (tasks : List Task) (he' : e'.stack = tasks ++ t' :: below)
    (htasks : ∀ t ∈ tasks, t.isChore = true) (hbase' : t'.isBase = false)
    (hchore' : t'.isChore = false) (hne : t' ≠ t) (hwaits : e.Inherits t t') : ∃ r next rest,
      below = .resume r next :: rest ∧
      e.Advances e' [t, .resume r next] [t', .resume r next] tasks rest := by
  obtain ⟨r, next, rest, rfl⟩ := h.resume_below he hbase hchore
  refine ⟨r, next, rest, rfl, he, by simp [he'], htasks, .above hbase hchore,
    .above hbase' hchore', fun t₁ ht₁ t₂ ht₂ hbase₁ hbase₂ => ?_,
    Supplants.stirs ⟨tasks, t', he', hne⟩ he, fun t₂ ht₂ w hw => ?_⟩
  -- of each of the two only the lower one is a lowest task
  · rcases List.mem_pair.1 ht₁ with rfl | rfl
    · rw [hbase] at hbase₁
      cases hbase₁
    · rcases List.mem_pair.1 ht₂ with rfl | rfl
      · rw [hbase'] at hbase₂
        cases hbase₂
      · exact .kept _
  · rcases List.mem_pair.1 ht₂ with rfl | rfl
    · exact (hwaits w hw).imp id fun waits => ⟨t, List.mem_cons_self, waits⟩
    · cases hw

/-- Nothing is added where every command is as it was, or one has changed. -/
theorem length_eq_of_spared (x : e.Extends e')
    (h : ∀ c, c.index = e.commands.length → e.Spared e' c) :
    e'.commands.length = e.commands.length := by
  refine Nat.le_antisymm (Nat.le_of_not_lt fun hlt => ?_) x.length_le
  have hsome : (e'.command? ⟨e.commands.length⟩).isSome := Commands.get?_isSome_iff.2 hlt
  obtain ⟨command, hc⟩ := Option.isSome_iff_exists.1 hsome
  obtain ⟨was, hwas, -⟩ := (h ⟨e.commands.length⟩ rfl).was hc
  exact Nat.lt_irrefl _ (Commands.lt_of_get? hwas)

theorem Changed.length_eq {c : CommandRef} {old new : Command} {left : Bool}
    (a : e.Changed e' c old new left) (x : e.Extends e') :
    e'.commands.length = e.commands.length := by
  refine length_eq_of_spared x fun c' hc' => a.others c' ?_
  rintro rfl
  exact Nat.lt_irrefl _ (hc' ▸ Commands.lt_of_get? a.before)

/-- **A move leaves all calls where they are, or takes the innermost one further.** -/
theorem Inner.advances (k : Inner e m e') (s : e.Sound) (h : e.Stacked standing e.stack) :
    (∃ gone tasks below, e.Leaves e' gone tasks below ∧
        e'.commands.length = e.commands.length) ∨
      ∃ part part' tasks below, e.Advances e' part part' tasks below := by
  have x := s.extends_inner k
  have quiets {l : List Task} (hl : ∀ t ∈ l, t.isQuiet = true) : ∀ t ∈ l, t.isChore = true :=
    fun t ht => Task.isChore_of_quiet (hl t ht)
  have empty : ∀ t ∈ ([] : List Task), t.isChore = true := List.forall_mem_nil _
  have single {t : Task} (ht : t.isChore = true) : ∀ t' ∈ [t], t'.isChore = true :=
    List.forall_mem_singleton.2 ht
  -- one task in the place of another that a call waits for
  have above {t t' : Task} {below : List Task} (tasks : List Task) (he : e.stack = t :: below)
      (hbase : t.isBase = false) (hchore : t.isChore = false)
      (he' : e'.stack = tasks ++ t' :: below) (htasks : ∀ t ∈ tasks, t.isChore = true)
      (hbase' : t'.isBase = false) (hchore' : t'.isChore = false) (hne : t' ≠ t)
      (hwaits : e.Inherits t t') :
      ∃ part part' tasks below, e.Advances e' part part' tasks below := by
    obtain ⟨r, next, rest, -, a⟩ :=
      h.advances_above he hbase hchore tasks he' htasks hbase' hchore' hne hwaits
    exact ⟨_, _, _, _, a⟩
  cases k with
  | quiet gone tasks below he he' hgone hquiet hfits a =>
    exact .inl ⟨gone, tasks, below, ⟨he, he', quiets hgone, quiets hquiet⟩,
      length_eq_of_spared x fun c _ => a.commands c⟩
  | returned tag reply below he he' hm a =>
    exact .inl ⟨[.notify tag reply], [], below, ⟨he, he', single rfl, empty⟩,
      length_eq_of_spared x fun c _ => a.commands c⟩
  | expired r c old tasks below he he' hquiet hfits a =>
    exact .inl ⟨[.expire r c], _, below,
      ⟨he, he', single rfl, Task.isChore_ended hquiet old _⟩, a.length_eq x⟩
  | refused r c old fault tasks below he he' hquiet hfits hslot a =>
    exact .inl ⟨[.offer r c], _, below,
      ⟨he, he', single rfl, Task.isChore_ended hquiet old _⟩, a.length_eq x⟩
  | noted r c old signal words he' hslot signalled hdone a =>
    exact .inl ⟨[], [.handled], e.stack, ⟨rfl, he', empty, single rfl⟩, a.length_eq x⟩
  | completed r c old signal words tasks he' hquiet hfits hslot signalled hdone a =>
    exact .inl ⟨[], _, e.stack, ⟨rfl, he', empty, Task.isChore_ended hquiet old _⟩, a.length_eq x⟩
  | interrupted r c old event tasks he' hquiet hfits hslot a =>
    exact .inl ⟨[], _, e.stack, ⟨rfl, he', empty, Task.isChore_ended hquiet old _⟩, a.length_eq x⟩
  | finished r result below he he' a =>
    exact .inr ⟨_, _, _, _, advances_base he rfl he' rfl (.concluded he) nofun⟩
  | asked r request next t tasks below he he' hquiet hfits asked a =>
    obtain ⟨hbase, hchore, hwaits⟩ : t.isBase = false ∧ t.isChore = false ∧ t.waiter? = none := by
      cases asked <;> exact ⟨rfl, rfl, rfl⟩
    exact .inr ⟨_, _, _, _,
      advances_asked tasks he rfl he' (quiets hquiet) hbase hchore (.asked he) nofun hwaits⟩
  | unlinked r next below he he' parted hm =>
    exact .inr ⟨_, _, _, _,
      advances_asked [] he rfl he' empty rfl rfl (.asked he) nofun rfl⟩
  | resumed r next reply below he he' a =>
    refine .inr ⟨[.reply reply, .resume r next], [.perform r (next reply)], [], below, he, he',
      empty, .above rfl rfl, .base rfl, fun t ht t' ht' hbase _ => ?_, fun added heq => ?_,
      List.forall_mem_singleton.2 nofun⟩
    · cases List.mem_singleton.1 ht'
      rcases List.mem_pair.1 ht with rfl | rfl
      · cases hbase
      · exact .resumed reply
    · have hlength := congrArg List.length heq
      simp only [he, he', List.length_append, List.length_cons] at hlength
      omega
  | dropped reply below he hbelow he' a =>
    obtain ⟨r, next, rest, hs⟩ := h.answers he
    exact absurd hs (hbelow r next rest)
  | unframed r command style failure below he he' a =>
    exact .inr (above [] he rfl rfl he' empty rfl rfl nofun (inherits_of_none rfl))
  | framed r command watching below he he' added =>
    refine .inr (above [] he rfl rfl he' empty rfl rfl nofun fun w hw => ?_)
    cases hw
    exact .inl rfl
  | issued r command style t mid router below he he' issued added begun =>
    obtain ⟨hbase, hchore, hne⟩ : t.isBase = false ∧ t.isChore = false ∧
        t ≠ .allocate r command style := by
      cases issued <;> exact ⟨rfl, rfl, nofun⟩
    have hwaits : e.Inherits (.allocate r command style) t := by
      intro w hw
      cases issued <;> cases hw
      exact .inl rfl
    cases hd : router.detached with
    | true =>
      rw [hd] at he'
      exact .inr (above [] he rfl rfl he' empty rfl rfl nofun (inherits_of_none rfl))
    | false =>
      rw [hd] at he'
      exact .inr (above [.drain r] he rfl rfl he' (single rfl) hbase hchore hne hwaits)
  | retried w watching left router old below he he' begun =>
    cases hd : router.detached with
    | true =>
      rw [hd] at he'
      exact .inr (above [] he rfl rfl he' empty rfl rfl nofun (inherits_of_none rfl))
    | false =>
      rw [hd] at he'
      exact .inr (above [.drain w.router] he rfl rfl he' (single rfl) rfl rfl nofun
        (inherits_of_same rfl rfl rfl))
  | exhausted w below he he' a =>
    exact .inr (above [] he rfl rfl he' empty rfl rfl nofun (inherits_of_none rfl))
  | watched w deadline below he he' a =>
    exact .inr (above [] he rfl rfl he' empty rfl rfl nofun (inherits_of_same rfl rfl rfl))
  | settled w t t' command below he ht he' hcommand hsettled a =>
    have hgone : t.isBase = false ∧ t.isChore = false := by
      rcases ht with rfl | ⟨deadline, rfl⟩ <;> exact ⟨rfl, rfl⟩
    have hnew : t'.isBase = false ∧ t'.isChore = false ∧ t' ≠ t := by
      rcases hsettled with ⟨reply, rfl, -⟩ | ⟨rfl, -⟩ <;>
      rcases ht with rfl | ⟨deadline, rfl⟩ <;> exact ⟨rfl, rfl, nofun⟩
    have hwaits : e.Inherits t t' := by
      rcases hsettled with ⟨reply, rfl, -⟩ | ⟨rfl, -⟩
      · exact inherits_of_none rfl
      · rcases ht with rfl | ⟨deadline, rfl⟩ <;> exact inherits_of_same rfl rfl rfl
    exact .inr (above [] he hgone.1 hgone.2 he' empty hnew.1 hnew.2.1 hnew.2.2 hwaits)
  | unclaimed w deadline below he he' a =>
    exact .inr (above [] he rfl rfl he' empty rfl rfl nofun (inherits_of_same rfl rfl rfl))
  | withdrawn w deadline mid old expired t tasks below he he' hquiet hfits ht hmem changed forced =>
    have hnew : t.isBase = false ∧ t.isChore = false ∧ t ≠ .await w deadline := by
      rcases ht with rfl | ⟨rfl, -⟩ <;> exact ⟨rfl, rfl, nofun⟩
    have hwaits : e.Inherits (.await w deadline) t := by
      rcases ht with rfl | ⟨rfl, -⟩
      · exact inherits_of_none rfl
      · exact inherits_of_same rfl rfl rfl
    exact .inr (above _ he rfl rfl he' (Task.isChore_withdrawn hquiet w.router expired) hnew.1
      hnew.2.1 hnew.2.2 hwaits)
  | unregistered failure below he he' a =>
    exact .inr ⟨_, _, _, _, advances_base he rfl he' rfl (.registered _) nofun⟩
  | rooted linked t below he he' joined ht =>
    have hnew : t.isBase = true ∧ t ≠ .register := by
      rcases ht with ⟨-, failure, rfl⟩ | ⟨-, settings, rfl⟩ <;> exact ⟨rfl, nofun⟩
    exact .inr ⟨_, _, _, _, advances_base he rfl he' hnew.1 (.registered _) hnew.2⟩

/-- A call begins with a lowest task of its own. -/
theorem Called.segment {call : Call} (k : Called e call e') :
    ∃ t tasks, t.isBase = true ∧ e'.stack = tasks ++ [t] ++ e.stack ∧
      ∀ t ∈ tasks, t.isChore = true := by
  cases k with
  | answered result hresult he' a => exact ⟨_, [], rfl, he', List.forall_mem_nil _⟩
  | operated r operation router settings hr he' a => exact ⟨_, [], rfl, he', List.forall_mem_nil _⟩
  | attached parent route linked t he' joined ht =>
    refine ⟨t, [], ?_, he', List.forall_mem_nil _⟩
    rcases ht with ⟨-, failure, rfl⟩ | ⟨-, settings, rfl⟩ <;> rfl
  | detached r expired mid rs tasks result he' hquiet hfits forced cut hempty =>
    exact ⟨.answer result, _, rfl, by rw [he', List.append_assoc _ [_]]; rfl,
      Task.isChore_detached hquiet expired⟩

end Engine

/-! ## Runs -/

theorem segments_opening (settings : Settings) :
    ∃ t, (opening settings).stack = [t] ∧ segments (opening settings).stack = [[t]] := by
  rcases stack_opening settings with hs | ⟨failure, hs⟩
  all_goals
    rw [hs]
    exact ⟨_, rfl, rfl⟩

/-- How far the innermost call has come. -/
theorem Run.innermost (h : Run settings turns e) {session : Session}
    (hhead : (sessions settings turns).head? = some session) (he : e.stack = part ++ below)
    (hpart : Segment part) : ∃ progress, e.Stands session.call progress part := by
  obtain ⟨standing, hstacked, hcalls⟩ := h.stacked
  obtain ⟨t, rest, rfl, hchore⟩ : ∃ t rest, part = t :: rest ∧ t.isChore = false := by
    cases hpart with
    | @base t ht =>
      refine ⟨t, [], rfl, Bool.eq_false_iff.2 fun hchore => ?_⟩
      rw [Task.isBase_of_chore hchore] at ht
      cases ht
    | above _ hchore => exact ⟨_, _, rfl, hchore⟩
  rw [he, List.cons_append] at hstacked
  obtain ⟨call, progress, outer, segment, below', rfl, hsplit, hstands, -⟩ := hstacked.head hchore
  have hcall : session.call = call := by
    rw [← calls_of_sessions, List.map_cons] at hcalls
    have hfirst := congrArg List.head? hcalls
    rw [List.head?_map, hhead] at hfirst
    exact (Option.some.inj hfirst).symm
  have hsegments := hstands.segment.segments below'
  rw [List.cons_append, ← hsplit, ← List.cons_append, hpart.segments] at hsegments
  rw [hcall, (List.cons.inj hsegments).1]
  exact ⟨progress, hstands⟩

theorem forall₂_map_of_mem {α β γ : Type} {p : α → β → Prop} {q : γ → β → Prop} {f : α → γ}
    {l : List α} {l' : List β} (h : List.Forall₂ p l l')
    (hpq : ∀ a b, b ∈ l' → p a b → q (f a) b) : List.Forall₂ q (l.map f) l' := by
  induction h with
  | nil => exact .nil
  | cons hab _ ih =>
    exact .cons (hpq _ _ List.mem_cons_self hab)
      (ih fun a b hb => hpq a b (List.mem_cons_of_mem _ hb))

theorem pending_of_head {session : Session}
    (hhead : (sessions settings turns).head? = some session) : pending session.course = [] := by
  rw [List.head?_eq_getElem?] at hhead
  exact pending_sessions settings turns 0 session hhead

/-- The calls that stand below another one have that one pending. -/
theorem pending_of_outer {session innermost : Session} {outer : List Session}
    (hs : sessions settings turns = innermost :: outer) (hmem : session ∈ outer) :
    innermost.call ∈ pending session.course := by
  obtain ⟨i, hi⟩ := List.getElem?_of_mem hmem
  have hpending := pending_sessions settings turns (i + 1) session
    (by rw [hs, List.getElem?_cons_succ, hi])
  rw [hpending, hs, List.take_succ_cons, List.map_cons]
  exact List.mem_cons_self

/-- **What holds of each call in progress throughout a run**, told by whose turn it is. The turns of
a call are those in which none is pending above it: they leave its tasks where they are, or put
others in their place. Any other turn leaves them where they are. -/
theorem Run.along_turns {P : List Turn → Engine → Session → List Task → Prop}
    (start : ∀ t, (opening settings).stack = [t] →
      P [] (opening settings) (.opened (.attachRoot settings)) [t])
    (called : ∀ turns e call e' t tasks, Run settings turns e → e.Called call e' →
      e.move? (.call call) = some e' → t.isBase = true → e'.stack = tasks ++ [t] ++ e.stack →
      (∀ t ∈ tasks, t.isChore = true) → P (⟨e, .call call, e'⟩ :: turns) e' (.opened call) [t])
    (aside : ∀ turns e m e' session part gone tasks below, Run settings turns e →
      (∀ call, m = .call call → e.Allows call) → e.move? m = some e' →
      P turns e session part → e.stack = gone ++ below → e'.stack = tasks ++ below →
      (∀ t ∈ part, t ∈ below) →
      (∃ call, m = .call call) ∨ (∃ innermost, (sessions settings turns).head? = some innermost ∧
        innermost.call ∈ pending session.course) →
      P (⟨e, m, e'⟩ :: turns) e' (session.after ⟨e, m, e'⟩) part)
    (idle : ∀ turns e m e' session part gone tasks below, Run settings turns e →
      (∀ call, m ≠ .call call) → e.move? m = some e' →
      (sessions settings turns).head? = some session → P turns e session part →
      e.Leaves e' gone tasks below → (∀ t ∈ part, t ∈ below) →
      P (⟨e, m, e'⟩ :: turns) e' (session.after ⟨e, m, e'⟩) part)
    (advanced : ∀ turns e m e' session part part' tasks below, Run settings turns e →
      (∀ call, m ≠ .call call) → e.move? m = some e' → Inner e m e' →
      (sessions settings turns).head? = some session → P turns e session part →
      e.Advances e' part part' tasks below →
      P (⟨e, m, e'⟩ :: turns) e'
        ((session.after ⟨e, m, e'⟩).given (Turn.made? ⟨e, m, e'⟩)) part')
    (h : Run settings turns e) :
    List.Forall₂ (P turns e) (sessions settings turns) (segments e.stack) := by
  induction h with
  | start =>
    obtain ⟨t, hs, hsegments⟩ := segments_opening settings
    rw [hsegments]
    exact .cons (start t hs) .nil
  | @next turns e e' m prior ha hm ih =>
    -- the calls that others are pending above, and those that a call is made above
    have stay {l : List Session} {parts : List (List Task)} {below : List Task}
        (gone tasks : List Task) (hf : List.Forall₂ (P turns e) l parts)
        (hparts : ∀ part ∈ parts, part ∈ segments below) (he : e.stack = gone ++ below)
        (he' : e'.stack = tasks ++ below) (hl : ∀ session ∈ l, (∃ call, m = .call call) ∨
          ∃ innermost, (sessions settings turns).head? = some innermost ∧
            innermost.call ∈ pending session.course) :
        List.Forall₂ (P (⟨e, m, e'⟩ :: turns) e') (l.map (·.after ⟨e, m, e'⟩)) parts :=
      forall₂_map_of_mem ((List.forall₂_and_left _ _).2 ⟨hl, hf⟩) fun session part hmem hp =>
        aside turns e m e' session part gone tasks below prior ha hm hp.2 he he'
          (mem_of_mem_segments (hparts part hmem)) hp.1
    have others {innermost : Session} {outer : List Session}
        (hs : sessions settings turns = innermost :: outer) : ∀ session ∈ outer,
        (∃ call, m = .call call) ∨ ∃ innermost, (sessions settings turns).head? = some innermost ∧
          innermost.call ∈ pending session.course :=
      fun session hmem => .inr ⟨innermost, by rw [hs]; rfl, pending_of_outer hs hmem⟩
    cases prior.moved ha hm with
    | inner hcall hcollect k =>
      obtain ⟨standing, hstacked, -⟩ := prior.stacked
      rcases k.advances prior.sound hstacked with
        ⟨gone, tasks, below, l, hlength⟩ | ⟨part, part', tasks, below, a⟩
      · have hnone : Turn.made? ⟨e, m, e'⟩ = none := by simp [Turn.made?, hlength]
        rw [l.before, segments_append l.gone] at ih
        rw [l.after, segments_append l.tasks]
        cases hs : sessions settings turns with
        | nil =>
          rw [hs] at ih
          rw [sessions, answer?_of_inner hcollect, hs]
          split
          · rename_i call heq
            exact absurd heq (hcall call)
          · rw [List.forall₂_nil_left_iff.1 ih]
            exact .nil
        | cons innermost outer =>
          rw [hs] at ih
          rw [sessions_of_inner hcall hcollect hs, hnone]
          obtain ⟨part, parts, hp, hrest, hparts⟩ := List.forall₂_cons_left_iff.1 ih
          rw [hparts]
          have hmem : ∀ part' ∈ part :: parts, part' ∈ segments below := fun part' h => hparts ▸ h
          obtain ⟨hpart, hothers⟩ := List.forall_mem_cons.1 hmem
          exact .cons (idle turns e m e' innermost part gone tasks below prior hcall hm
            (by rw [hs]; rfl) hp l (mem_of_mem_segments hpart))
            (stay gone tasks hrest hothers l.before l.after (others hs))
      · rw [a.segments_before] at ih
        cases hs : sessions settings turns with
        | nil =>
          rw [hs] at ih
          cases ih
        | cons innermost outer =>
          rw [hs] at ih
          rw [sessions_of_inner hcall hcollect hs, a.segments_after]
          obtain ⟨hp, hrest⟩ := List.forall₂_cons.1 ih
          exact .cons (advanced turns e m e' innermost part part' tasks below prior hcall hm k
            (by rw [hs]; rfl) hp a) (stay _ _ hrest (fun _ => id) a.before a.after (others hs))
    | called k =>
      obtain ⟨t, tasks, ht, he', htasks⟩ := k.segment
      rw [sessions_of_called, he', List.append_assoc, segments_append htasks]
      show List.Forall₂ _ _ (segments (t :: e.stack))
      rw [segments_base ht]
      exact .cons (called turns e _ e' t tasks prior k hm ht he' htasks)
        (stay [] _ ih (fun _ => id) rfl he' fun _ _ => .inl ⟨_, rfl⟩)
    | collected result below he he' a =>
      have hbefore : segments e.stack = [.answer result] :: segments below := by
        rw [he, segments_base rfl]
      rw [hbefore] at ih
      rw [sessions_of_collected he, he']
      cases hs : sessions settings turns with
      | nil =>
        rw [hs] at ih
        cases ih
      | cons innermost outer =>
        rw [hs] at ih
        exact stay [.answer result] [] (List.forall₂_cons.1 ih).2 (fun _ => id) he he' (others hs)

/-- The same with all turns alike that leave the tasks of a call where they are. -/
theorem Run.along {P : List Turn → Engine → Session → List Task → Prop}
    (start : ∀ t, (opening settings).stack = [t] →
      P [] (opening settings) (.opened (.attachRoot settings)) [t])
    (called : ∀ turns e call e' t tasks, Run settings turns e → e.Called call e' →
      e.move? (.call call) = some e' → t.isBase = true → e'.stack = tasks ++ [t] ++ e.stack →
      (∀ t ∈ tasks, t.isChore = true) → P (⟨e, .call call, e'⟩ :: turns) e' (.opened call) [t])
    (left : ∀ turns e m e' session part gone tasks below, Run settings turns e →
      (∀ call, m = .call call → e.Allows call) → e.move? m = some e' →
      P turns e session part → e.stack = gone ++ below → e'.stack = tasks ++ below →
      (∀ t ∈ part, t ∈ below) → P (⟨e, m, e'⟩ :: turns) e' (session.after ⟨e, m, e'⟩) part)
    (advanced : ∀ turns e m e' session part part' tasks below, Run settings turns e →
      (∀ call, m ≠ .call call) → e.move? m = some e' → Inner e m e' →
      (sessions settings turns).head? = some session → P turns e session part →
      e.Advances e' part part' tasks below →
      P (⟨e, m, e'⟩ :: turns) e'
        ((session.after ⟨e, m, e'⟩).given (Turn.made? ⟨e, m, e'⟩)) part')
    (h : Run settings turns e) :
    List.Forall₂ (P turns e) (sessions settings turns) (segments e.stack) := by
  refine h.along_turns start called ?aside ?idle advanced
  case aside =>
    intro turns e m e' session part gone tasks below prior ha hm hp he he' hpart _
    exact left turns e m e' session part gone tasks below prior ha hm hp he he' hpart
  case idle =>
    intro turns e m e' session part gone tasks below prior hcall hm _ hp l hpart
    exact left turns e m e' session part gone tasks below prior
      (fun call heq => absurd heq (hcall call)) hm hp l.before l.after hpart

end RouterFabric
