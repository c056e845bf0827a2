import RouterFabric.Proofs.Engine.Sound

/-!
# Runs

A run starts with the call that attaches the host router and goes on with one possible move after
the other. Its turns are kept, the latest first, and whatever the run has done is read off them.

* `Run` : the runs of a topology
* `Run.sound` : every state of a run is sound
* `openCalls`, `returns` : the calls in progress, and the answers taken
* `replay?` : the run that a list of moves makes, for concrete runs
-/

namespace RouterFabric

open Engine

variable {settings : Settings} {turns earlier : List Turn} {turn : Turn} {e e' : Engine} {m : Move}

/-- The engine at the beginning of a run. -/
def opening (settings : Settings) : Engine :=
  ({} : Engine).call (.attachRoot settings)

/-- A move, and the engine before and after it. -/
structure Turn where
  before : Engine
  move : Move
  after : Engine

/-- The runs of a topology. Calls may be made at any point at which the engine is not at work by
itself, on routers of which there is a reference. -/
inductive Run (settings : Settings) : List Turn → Engine → Prop
  | start : Run settings [] (opening settings)
  | next {turns : List Turn} {e e' : Engine} {m : Move} : Run settings turns e →
      (∀ call, m = .call call → e.Allows call) → e.move? m = some e' →
      Run settings (⟨e, m, e'⟩ :: turns) e'

/-- The turns of a run lead to one state. -/
theorem Run.state_unique (h : Run settings turns e) (h' : Run settings turns e') : e = e' := by
  cases h <;> cases h' <;> rfl

/-! ## Soundness -/

theorem stored_opening (settings : Settings) : (opening settings).Stored := by
  have base : ({ topology := { settings := settings } } : Engine).Stored := by
    refine ⟨RouterTree.sound_empty, rfl, nofun, nofun, fun r => ?_, fun r c hc => ?_⟩
    · exact Queue.orderly_empty _
    · cases hc
  show ((({} : Engine).attachRoot settings)).Stored
  unfold attachRoot
  split
  · exact base.of_alike (base.alike_push _)
  · exact base.of_alike (base.alike_push _)

theorem router?_opening (settings : Settings) (r : RouterRef) :
    (opening settings).router? r = none := by
  have hnone : (opening settings).routers = [] := by
    show (({} : Engine).attachRoot settings).routers = []
    unfold attachRoot
    split <;> rfl
  unfold router?
  rw [hnone]
  rfl

theorem queue_opening (settings : Settings) (r : RouterRef) : (opening settings).queue r = {} := by
  unfold queue
  rw [router?_opening]
  rfl

theorem command?_opening (settings : Settings) (c : CommandRef) :
    (opening settings).command? c = none := by
  have hnone : (opening settings).commands = [] := by
    show (({} : Engine).attachRoot settings).commands = []
    unfold attachRoot
    split <;> rfl
  unfold command? Commands.get?
  rw [hnone]
  rfl

/-- A run begins with the question whether its settings are valid ones. -/
theorem stack_opening (settings : Settings) :
    (opening settings).stack = [.register] ∨
      ∃ failure, (opening settings).stack = [.answer (.error failure)] := by
  show (({} : Engine).attachRoot settings).stack = _ ∨
    ∃ _, (({} : Engine).attachRoot settings).stack = _
  unfold attachRoot
  split
  · exact .inr ⟨_, rfl⟩
  · exact .inl rfl

theorem sound_opening (settings : Settings) : (opening settings).Sound := by
  have single : ∃ t, (opening settings).stack = [t] ∧ t.waiter? = none ∧
      (opening settings).Fits t := by
    rcases stack_opening settings with hs | ⟨failure, hs⟩
    · exact ⟨_, hs, rfl, trivial, by simp [Task.commands]⟩
    · exact ⟨_, hs, rfl, fits_answer _⟩
  obtain ⟨t, hs, hw, hfits⟩ := single
  refine ⟨stored_opening settings, fun t' ht => ?_, ?_⟩
  · rw [hs, List.mem_singleton] at ht
    exact ht ▸ hfits
  · rw [hs]
    exact List.pairwise_singleton _ t

/-- **Every state of a run is sound.** -/
theorem Run.sound (h : Run settings turns e) : e.Sound := by
  induction h with
  | start => exact sound_opening settings
  | next _ ha hm ih => exact ih.of_moved ha (ih.moved ha hm)

/-- The latest turn of a run is one of the moves there are. -/
theorem Run.moved (h : Run settings turns e) (ha : ∀ call, m = .call call → e.Allows call)
    (hm : e.move? m = some e') : Moved e m e' :=
  h.sound.moved ha hm

theorem step_of_proceed (hm : e.move? .proceed = some e') : e' = e.step := by
  unfold move? at hm
  simp only at hm
  split at hm
  · exact (Option.some.inj hm).symm
  · cases hm

/-- An engine that can go on by itself does nothing else, while time may pass. -/
theorem working_cases (hp : e.pause = .working) (hm : e.move? m = some e') :
    m = .proceed ∧ e' = e.step ∨ ∃ ms, m = .elapse ms ∧ e' = { e with now := e.now + ms } := by
  have hw : e.isWorking = true := by
    unfold isWorking
    rw [hp]
  have stands {t : Task} {below : List Task} (hs : e.stack = t :: below)
      (ht : ({ e with stack := t :: below } : Engine).isWorking = false) : False := by
    rw [← hs] at ht
    exact Bool.noConfusion (hw.symm.trans ht)
  cases m with
  | proceed => exact .inl ⟨rfl, step_of_proceed hm⟩
  | elapse ms =>
    cases hm
    exact .inr ⟨ms, rfl, rfl⟩
  | call | receive => simp [move?, isWorking, hp] at hm
  | giveUp => simp [move?, canProceed, hp] at hm
  | grant answer =>
    cases acts_granted hm with
    | dropped hs hdrops =>
      cases hdrops
      exact (stands hs rfl).elim
    | framed hs | unframed hs | registered hs | unregistered hs | acknowledging hs
    | acknowledged hs =>
      exact (stands hs rfl).elim
    | answered hs =>
      refine (stands hs ?_).elim
      rename_i c below
      cases hc : e.commands.get? c <;> simp [isWorking, pause, command?, hc]
  | back =>
    cases acts_of_move? hm with
    | dropped hs hdrops => cases hdrops <;> exact (stands hs rfl).elim
  | collect =>
    cases acts_of_move? hm with
    | dropped hs hdrops =>
      cases hdrops
      exact (stands hs rfl).elim
    | collected hs => exact (stands hs rfl).elim

theorem step_of_working (hp : e.pause = .working) (hm : e.move? m = some e') :
    e' = e.step ∨ e'.stack = e.stack := by
  rcases working_cases hp hm with ⟨-, rfl⟩ | ⟨ms, -, rfl⟩
  · exact .inl rfl
  · exact .inr rfl

theorem receive_of_receive {arrival : Arrival} (hm : e.move? (.receive arrival) = some e') :
    e' = e.receive arrival := by
  unfold move? at hm
  simp only at hm
  split at hm
  · cases hm
  · exact (Option.some.inj hm).symm

/-! ## Calls -/

/-- The answer that is taken in a turn. -/
def Turn.answer? (turn : Turn) : Option (Outcome Answer) :=
  match turn.move, turn.before.stack with
  | .collect, .answer result :: _ => some result
  | _, _ => none

/-- The calls in progress after these turns, the innermost first. -/
def openCalls (settings : Settings) : List Turn → List Call
  | [] => [.attachRoot settings]
  | turn :: earlier =>
    match turn.move with
    | .call call => call :: openCalls settings earlier
    | _ =>
      match turn.answer? with
      | some _ => (openCalls settings earlier).tail
      | none => openCalls settings earlier

/-- The calls whose answers have been taken in these turns, with the answers, the latest first. -/
def returns (settings : Settings) : List Turn → List (Call × Outcome Answer)
  | [] => []
  | turn :: earlier =>
    match turn.answer?, openCalls settings earlier with
    | some result, call :: _ => (call, result) :: returns settings earlier
    | _, _ => returns settings earlier

/-- The calls made in these turns, the latest first. -/
def calls : List Turn → List Call
  | [] => []
  | turn :: earlier =>
    match turn.move with
    | .call call => call :: calls earlier
    | _ => calls earlier

section

variable (hcall : ∀ call, m ≠ .call call)
  (hcollect : m = .collect → ∀ result below, e.stack ≠ .answer result :: below)

include hcollect in
theorem answer?_of_inner : (Turn.mk e m e').answer? = none := by
  unfold Turn.answer?
  split
  · rename_i result below hm hs
    exact absurd hs (hcollect hm result below)
  · rfl

include hcall hcollect in
theorem openCalls_of_inner :
    openCalls settings (⟨e, m, e'⟩ :: earlier) = openCalls settings earlier := by
  rw [openCalls, answer?_of_inner hcollect]
  split
  · rename_i call hm
    exact absurd hm (hcall call)
  · rfl

include hcollect in
theorem returns_of_inner :
    returns settings (⟨e, m, e'⟩ :: earlier) = returns settings earlier := by
  rw [returns, answer?_of_inner hcollect]

include hcall in
theorem calls_of_inner : calls (⟨e, m, e'⟩ :: earlier) = calls earlier := by
  rw [calls]
  split
  · rename_i call hm
    exact absurd hm (hcall call)
  · rfl

end

theorem returns_of_called (call : Call) :
    returns settings (⟨e, .call call, e'⟩ :: earlier) = returns settings earlier := rfl

section

variable {result : Outcome Answer} {below : List Task}

theorem openCalls_of_collected (hs : e.stack = .answer result :: below) :
    openCalls settings (⟨e, .collect, e'⟩ :: earlier) = (openCalls settings earlier).tail := by
  simp [openCalls, Turn.answer?, hs]

theorem returns_of_collected {call : Call} {outer : List Call}
    (hs : e.stack = .answer result :: below) (ho : openCalls settings earlier = call :: outer) :
    returns settings (⟨e, .collect, e'⟩ :: earlier) =
      (call, result) :: returns settings earlier := by
  simp [returns, Turn.answer?, hs, ho]

end

/-! ## Replays -/

/-- Whether a move may be made, as far as that is seen from the ids of routers. -/
def admits (e : Engine) : Move → Bool
  | .call (.attachRoot _) => false
  | .call (.attachChild r _) | .call (.detach r) | .call (.resume r) | .call (.operate r _) =>
    e.topology.tree.get? ⟨r.index⟩ == some r || (e.router? r).any (·.detached)
  | _ => true

theorem allows_of_admits {call : Call} (h : admits e (.call call) = true) : e.Allows call := by
  have known (r : RouterRef) (h : (e.topology.tree.get? ⟨r.index⟩ == some r ||
      (e.router? r).any (·.detached)) = true) : e.Known r := by
    rcases Bool.or_eq_true_iff.1 h with h | h
    · exact .inl ⟨_, eq_of_beq h⟩
    · cases hr : e.router? r with
      | none =>
        rw [hr] at h
        cases h
      | some router =>
        rw [hr] at h
        exact .inr ⟨router, hr, h⟩
  cases call with
  | attachRoot => cases h
  | attachChild | detach | resume | operate => exact known _ h

/-- The run that these moves make, the latest first, if they are possible one after the other. -/
def replay? (settings : Settings) : List Move → Option (List Turn × Engine)
  | [] => some ([], opening settings)
  | m :: moves =>
    match replay? settings moves with
    | none => none
    | some (turns, e) =>
      if admits e m then (e.move? m).map fun e' => (⟨e, m, e'⟩ :: turns, e') else none

theorem run_of_replay? : ∀ {moves : List Move} {turns : List Turn} {e : Engine},
    replay? settings moves = some (turns, e) → Run settings turns e
  | [], _, _, h => by
    cases h
    exact .start
  | m :: moves, turns, e', h => by
    unfold replay? at h
    split at h
    · cases h
    · rename_i turns e hprior
      have before : Run settings turns e := run_of_replay? hprior
      split at h
      · rename_i hallowed
        obtain ⟨e', hm, heq⟩ := Option.map_eq_some_iff.1 h
        cases heq
        refine .next before (fun call hcall => ?_) hm
        subst hcall
        exact allows_of_admits hallowed
      · cases h

/-- A run whose turns and state are as a check of the replayed moves says. -/
theorem exists_of_replay? {moves : List Move} {check : List Turn × Engine → Bool}
    (h : (replay? settings moves).any check = true) :
    ∃ turns e, Run settings turns e ∧ check (turns, e) = true := by
  cases hreplay : replay? settings moves with
  | none =>
    rw [hreplay] at h
    cases h
  | some result =>
    rw [hreplay] at h
    exact ⟨result.1, result.2, run_of_replay? hreplay, h⟩

/-- The moves by which a host router is attached that answers its discovery with these words. -/
def hostMoves (words : List UInt32) : List Move :=
  [.grant (.ok ()), .proceed, .grant (.ok ()), .proceed, .proceed, .grant (.ok ()), .proceed,
    .proceed, .receive (.sent (some (.command ⟨0⟩ ⟨1⟩ 1))), .collect,
    .receive (.received .read .read
      (ReadResponse.encode ⟨Route.root, ⟨.router, 0, 0, Register.basicDwords, 0⟩, words⟩)),
    .proceed, .proceed, .proceed, .proceed, .collect, .proceed, .proceed, .proceed, .proceed,
    .proceed, .collect]

/-- The basic registers of a host router with eight adapters. -/
def hostWords : List UInt32 :=
  [0x12348087, 0x00020000, 0, 0, 0, 0, 0, 0x11, 0x22]

/-- The moves of a call that reads a word of the host router with a callback, behind another
command. -/
def lineUp (offset tag : Nat) : List Move :=
  [.call (.operate ⟨0⟩ (.transfer (.read .router 0 offset 1) (.callback tag))), .proceed,
    .grant (.ok ()), .proceed, .proceed, .proceed, .collect]

end RouterFabric
