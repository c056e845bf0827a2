import Mathlib.Data.List.Nodup
import RouterFabric.Proofs.Concluded
import RouterFabric.Proofs.Engine.Heeded
import RouterFabric.Proofs.Engine.Holdings

/-!
# Every frame is given back

A command has its frame from its making until nothing refers to it any more: no queue of a router
in use, and no task. What is in use outside an engine is for its callers to say, so a run is looked
at here together with the references to routers that are held outside. No move brings a command
back into use. So every command gives its frame back once. The frame of an acknowledgment is taken
before it is on offer and given back as soon as the transport has answered. So with nothing under
way the frames that have not been given back are those of the commands in the queues.

* `Tenancy` : a run with the routers that are referred to outside
* `Engine.Stored.framesInUse_eq` : the frames in use, by where they are
* `Run.lent_eq` : the frames of acknowledgments
* `Engine.Goes.balanced` : what one turn takes and gives back
* `Tenancy.given_back` : what a whole run does
-/

namespace RouterFabric

open Engine

/-! ## References from outside -/

/-- A turn, with the routers that are referred to outside before it and after it. -/
structure Stay where
  turn : Turn
  held : List RouterRef
  kept : List RouterRef

/-- A move that may come next, with the references to routers that are held outside before it and
after it. A call can be made on any router in use; and what is referred to after a move was in use
before it or is attached after it. -/
structure Engine.Goes (held : List RouterRef) (e : Engine) (m : Move) (e' : Engine)
    (kept : List RouterRef) : Prop where
  allowed : ∀ call, m = .call call → e.Allows call ∧ call.routers ⊆ e.routersInUse held
  moved : e.move? m = some e'
  known : kept ⊆ e.routersInUse held ++ e'.topology.routers

/-- The runs of a topology, with the routers that are referred to outside. -/
inductive Tenancy (settings : Settings) : List Stay → List RouterRef → Engine → Prop
  | start : Tenancy settings [] [] (opening settings)
  | next {stays : List Stay} {held kept : List RouterRef} {e e' : Engine} {m : Move} :
      Tenancy settings stays held e → Engine.Goes held e m e' kept →
      Tenancy settings (⟨⟨e, m, e'⟩, held, kept⟩ :: stays) kept e'

/-- The number of frames that are taken for acknowledgments in a turn. -/
def Turn.acknowledges (turn : Turn) : Nat :=
  turn.before.acknowledges turn.move

/-- The number of frames of acknowledgments that are given back in a turn. -/
def Turn.acknowledged (turn : Turn) : Nat :=
  turn.before.acknowledged turn.move

/-- The number of frames that are taken in a turn. -/
def Turn.framesTaken (turn : Turn) : Nat :=
  (turn.before.makes turn.move).length + turn.acknowledges

/-- The commands that give their frames back in a turn: they were in use or have been made in it,
and are not in use after it. -/
def Stay.freed (stay : Stay) : List CommandRef :=
  (stay.turn.before.commandsInUse stay.held ++ stay.turn.before.makes stay.turn.move).filter
    (· ∉ stay.turn.after.commandsInUse stay.kept)

/-- The number of frames that are given back in a turn. -/
def Stay.framesReturned (stay : Stay) : Nat :=
  stay.freed.length + stay.turn.acknowledged

variable {settings : Settings} {stays : List Stay} {held kept : List RouterRef} {e e' : Engine}
  {m : Move} {r : RouterRef} {c : CommandRef}

theorem Stay.mem_freed {stay : Stay} : c ∈ stay.freed ↔
    (c ∈ stay.turn.before.commandsInUse stay.held ∨
      c ∈ stay.turn.before.makes stay.turn.move) ∧
    c ∉ stay.turn.after.commandsInUse stay.kept := by
  unfold Stay.freed
  rw [List.mem_filter, List.mem_append, decide_eq_true_eq]

theorem Tenancy.run (h : Tenancy settings stays held e) :
    Run settings (stays.map Stay.turn) e := by
  induction h with
  | start => exact .start
  | next _ goes ih => exact .next ih (fun call hcall => (goes.allowed call hcall).1) goes.moved

/-! ## What is in use -/

theorem nodup_eraseDups {α : Type} [DecidableEq α] (l : List α) : l.eraseDups.Nodup := by
  match l with
  | [] => exact List.nodup_nil
  | a :: rest =>
    rw [List.eraseDups_cons, List.nodup_cons]
    refine ⟨fun hmem => ?_, nodup_eraseDups _⟩
    rw [List.mem_eraseDups, List.mem_filter] at hmem
    simp at hmem
termination_by l.length
decreasing_by exact Nat.lt_succ_of_le (List.length_filter_le _ _)

namespace Engine

theorem mem_routersInUse : r ∈ e.routersInUse held ↔
    r ∈ held ∨ r ∈ e.topology.routers ∨ ∃ t ∈ e.stack, r ∈ t.routers := by
  unfold routersInUse
  rw [List.mem_eraseDups, List.mem_append, List.mem_append, List.mem_flatMap, or_assoc]

/-- The commands in the queues of the routers in use. -/
def commandsQueued (e : Engine) (held : List RouterRef) : List CommandRef :=
  (e.routersInUse held).flatMap fun r => (e.queue r).members

theorem commandsInUse_eq (e : Engine) (held : List RouterRef) : e.commandsInUse held =
    (e.commandsQueued held ++ e.stack.flatMap Task.commands).eraseDups := by
  have same : (fun r => ((e.router? r).map (·.queue.members)).getD []) =
      fun r => (e.queue r).members := by
    funext r
    unfold queue
    cases e.router? r <;> rfl
  unfold commandsInUse commandsQueued
  rw [same]

theorem mem_commandsInUse : c ∈ e.commandsInUse held ↔
    c ∈ e.commandsQueued held ∨ ∃ t ∈ e.stack, c ∈ t.commands := by
  rw [commandsInUse_eq, List.mem_eraseDups, List.mem_append, List.mem_flatMap]

/-- With nothing under way, the commands in use are in queues. -/
theorem queued_of_idle (hidle : e.stack = []) (hc : c ∈ e.commandsInUse held) :
    c ∈ e.commandsQueued held := by
  rcases mem_commandsInUse.1 hc with hqueued | ⟨t, ht, -⟩
  · exact hqueued
  · rw [hidle] at ht
    cases ht

theorem nodup_commandsInUse (e : Engine) (held : List RouterRef) :
    (e.commandsInUse held).Nodup := by
  rw [commandsInUse_eq]
  exact nodup_eraseDups _

/-- No command is in two queues. -/
theorem Stored.nodup_commandsQueued (h : e.Stored) (held : List RouterRef) :
    (e.commandsQueued held).Nodup := by
  unfold commandsQueued
  rw [List.nodup_flatMap]
  refine ⟨fun r _ => (h.orderly r).nodup, ?_⟩
  refine (nodup_eraseDups _ : (e.routersInUse held).Nodup).imp fun {r r'} hne c hc hc' => ?_
  exact hne (h.eq_of_mem hc hc')

theorem Sound.lt_of_inUse (h : e.Sound) (hc : c ∈ e.commandsInUse held) :
    c.index < e.commands.length := by
  rcases mem_commandsInUse.1 hc with hqueued | ⟨t, ht, hcommand⟩
  · obtain ⟨r, -, hmem⟩ := List.mem_flatMap.1 hqueued
    exact h.toStored.lt_of_queued ⟨r, hmem⟩
  · exact (h.tasks t ht).2 c hcommand

/-- The frames in use, by where they are: in the queues, with commands that only tasks refer to, and
with acknowledgments. -/
theorem Stored.framesInUse_eq (h : e.Stored) (held : List RouterRef) : e.framesInUse held =
    ((e.routersInUse held).map fun r => (e.queue r).outstanding).sum +
      ((e.commandsInUse held).countP fun c => c ∉ e.commandsQueued held) + e.lent := by
  have hperm : ((e.commandsInUse held).filter fun c => c ∈ e.commandsQueued held).Perm
      (e.commandsQueued held) := by
    rw [List.perm_ext_iff_of_nodup ((e.nodup_commandsInUse held).filter _)
      (h.nodup_commandsQueued held)]
    intro c
    rw [List.mem_filter, mem_commandsInUse]
    simp
    tauto
  have hqueued : ((e.routersInUse held).map fun r => (e.queue r).outstanding).sum =
      (e.commandsInUse held).countP fun c => c ∈ e.commandsQueued held := by
    rw [List.countP_eq_length_filter, hperm.length_eq]
    exact List.length_flatMap.symm
  unfold framesInUse
  rw [hqueued, List.length_eq_countP_add_countP fun c => decide (c ∈ e.commandsQueued held)]
  simp

end Engine

theorem lent_opening (settings : Settings) : (opening settings).lent = 0 := by
  show (attachRoot {} settings).lent = 0
  unfold attachRoot
  split <;> rfl

theorem countP_hasFrame_opening (settings : Settings) :
    (opening settings).stack.countP Task.hasFrame = 0 := by
  rcases stack_opening settings with hs | ⟨failure, hs⟩ <;> rw [hs] <;> rfl

/-- The turn does not begin with a call, unless that is on attached routers. -/
def Turn.isAtHome (turn : Turn) : Bool :=
  match turn.move with
  | .call call => decide (call.routers ⊆ turn.before.topology.routers)
  | _ => true

/-- A run in which nothing is referred to outside, as long as calls are on attached routers. -/
theorem Run.tenancy {turns : List Turn} (h : Run settings turns e)
    (hcalls : ∀ turn ∈ turns, turn.isAtHome = true) :
    Tenancy settings (turns.map fun turn => ⟨turn, [], []⟩) [] e := by
  induction h with
  | start => exact .start
  | @next turns e e' m _ ha hm ih =>
    refine .next (ih fun turn ht => hcalls turn (List.mem_cons_of_mem _ ht))
      ⟨fun call hcall => ⟨ha call hcall, fun r hr => ?_⟩, hm, List.nil_subset _⟩
    have hhome := hcalls ⟨e, m, e'⟩ List.mem_cons_self
    subst hcall
    exact mem_routersInUse.2 (.inr (.inl (of_decide_eq_true hhome hr)))

/-- **The frames of acknowledgments that have not been given back are those of acknowledgments on
offer.** -/
theorem Run.lent_eq {turns : List Turn} (h : Run settings turns e) :
    e.lent = e.stack.countP Task.hasFrame := by
  induction h with
  | start => rw [lent_opening, countP_hasFrame_opening]
  | next prior ha hm ih =>
    cases (plugs_of_move? hm fun _ hroot => ha _ hroot).lends with
    | kept | taken | freed => omega

/-! ## Turns -/

namespace Engine

theorem makes_cases (e : Engine) (m : Move) :
    e.makes m = [] ∨ e.makes m = [⟨e.commands.length⟩] := by
  unfold makes
  split
  · exact .inr rfl
  · exact .inl rfl

theorem mem_makes : c ∈ e.makes m ↔
    e.commands.length ≤ c.index ∧ c.index < e.commands.length + (e.makes m).length := by
  rcases e.makes_cases m with hnone | hnew
  · rw [hnone]
    simp
  · rw [hnew, List.mem_singleton, Commands.ref_eq_iff]
    simp
    omega

theorem Sound.nodup_made (h : e.Sound) (held : List RouterRef) (m : Move) :
    (e.commandsInUse held ++ e.makes m).Nodup := by
  rcases e.makes_cases m with hnone | hnew
  · rw [hnone, List.append_nil]
    exact e.nodup_commandsInUse held
  · rw [hnew, List.nodup_append]
    refine ⟨e.nodup_commandsInUse held, List.nodup_singleton _, fun c hc c' hc' heq => ?_⟩
    have hlt := h.lt_of_inUse hc
    rw [heq, List.mem_singleton.1 hc'] at hlt
    exact Nat.lt_irrefl _ hlt

/-- An acknowledgment that is done with was on offer. -/
theorem acknowledged_le (e : Engine) (m : Move) :
    e.acknowledged m ≤ e.stack.countP Task.hasFrame := by
  unfold acknowledged
  split
  · rename_i hs
    rw [hs, List.countP_cons_of_pos rfl]
    exact Nat.succ_pos _
  · exact Nat.zero_le _

/-- What is in use, with what a move makes. -/
def reach (e : Engine) (held : List RouterRef) (m : Move) : Holdings where
  routers r := r ∈ e.routersInUse held ∨ r = ⟨e.routers.length⟩
  commands c := c ∈ e.commandsInUse held ∨ c ∈ e.makes m
  made := e.commands.length
  offered := e.stack.countP Task.hasFrame

/-- All that there is and may be. -/
def all (e : Engine) : Holdings where
  routers _ := True
  commands _ := True
  made := e.commands.length
  offered := e.stack.countP Task.hasFrame

theorem within_reach (hyields : ∀ t ∈ e.stack, t.Yields) (held : List RouterRef) (m : Move) :
    e.Within (e.reach held m) where
  attached _ hr := .inl (mem_routersInUse.2 (.inr (.inl hr)))
  tasks t ht := by
    refine ⟨fun r hr => .inl ?_, fun c hc => .inl ?_, hyields t ht⟩
    · exact mem_routersInUse.2 (.inr (.inr ⟨t, ht, hr⟩))
    · exact mem_commandsInUse.2 (.inr ⟨t, ht, hc⟩)
  queued r hr c hc := by
    rcases hr with hr | rfl
    · exact .inl (mem_commandsInUse.2 (.inl (List.mem_flatMap.2 ⟨r, hr, hc⟩)))
    · have hnone : e.router? ⟨e.routers.length⟩ = none := List.getElem?_eq_none (Nat.le_refl _)
      unfold queue at hc
      rw [hnone] at hc
      cases hc
  made := rfl
  offered := rfl

end Engine

/-- Whatever else it does, a move makes the commands that it takes frames for. -/
theorem Engine.within_all (hyields : ∀ t ∈ e.stack, t.Yields)
    (ha : ∀ call, m = .call call → e.Allows call) (hm : e.move? m = some e') :
    e'.Within (e.all.next e m) := by
  have before : e.Within e.all :=
    ⟨fun _ _ => trivial, fun t ht => ⟨fun _ _ => trivial, fun _ _ => trivial, hyields t ht⟩,
      fun _ _ _ _ => trivial, rfl, rfl⟩
  exact (acts_of_move? hm).within before trivial (fun _ _ => trivial) (fun _ hroot => ha _ hroot)
    fun _ _ _ _ => trivial

/-- A program that answers a router answers its own. -/
theorem Run.yields {turns : List Turn} (h : Run settings turns e) : ∀ t ∈ e.stack, t.Yields := by
  induction h with
  | start =>
    intro t ht
    rcases stack_opening settings with hs | ⟨failure, hs⟩
    all_goals
      rw [hs, List.mem_singleton] at ht
      rw [ht]
      trivial
  | next prior ha hm ih =>
    intro t ht
    exact ((within_all ih ha hm).tasks t ht).2.2

namespace Engine.Goes

variable (f : Goes held e m e' kept) {turns : List Turn} (run : Run settings turns e)

include f run

/-- Nothing comes into use that was not, but for what the turn has made. -/
theorem within : e'.Within ((e.reach held m).next e m) := by
  refine (acts_of_move? f.moved).within (within_reach run.yields held m) (.inr rfl)
    (fun _ => .inr) (fun _ hroot => (f.allowed _ hroot).1) ?_
  intro call hcall r hr
  exact .inl ((f.allowed call hcall).2 hr)

theorem was_inUse (hc : c ∈ e'.commandsInUse kept) :
    c ∈ e.commandsInUse held ∨ c ∈ e.makes m := by
  have after := f.within run
  have routers : ∀ r ∈ e'.routersInUse kept, (e.reach held m).routers r := by
    intro r hr
    rcases mem_routersInUse.1 hr with hkept | hattached | ⟨t, ht, hr⟩
    · rcases List.mem_append.1 (f.known hkept) with hold | hattached
      · exact .inl hold
      · exact after.attached r hattached
    · exact after.attached r hattached
    · exact (after.tasks t ht).1 r hr
  rcases mem_commandsInUse.1 hc with hqueued | ⟨t, ht, hcommand⟩
  · obtain ⟨r, hr, hmem⟩ := List.mem_flatMap.1 hqueued
    exact after.queued r (routers r hr) c hmem
  · exact (after.tasks t ht).2.1 c hcommand

theorem length_eq : e'.commands.length = e.commands.length + (e.makes m).length :=
  (f.within run).made

/-- Frames of acknowledgments that are taken, and those that are given back. -/
theorem offered_eq : e'.stack.countP Task.hasFrame + e.acknowledged m =
    e.stack.countP Task.hasFrame + e.acknowledges m := by
  have after : e'.stack.countP Task.hasFrame =
      e.stack.countP Task.hasFrame + e.acknowledges m - e.acknowledged m := (f.within run).offered
  have hle := e.acknowledged_le m
  omega

/-- What was in use or has been made is still in use, or has been freed. -/
theorem freed_eq : (Stay.freed ⟨⟨e, m, e'⟩, held, kept⟩).length + (e'.commandsInUse kept).length =
    (e.commandsInUse held).length + (e.makes m).length := by
  have hnodup := run.sound.nodup_made held m
  have hperm : ((e.commandsInUse held ++ e.makes m).filter (· ∈ e'.commandsInUse kept)).Perm
      (e'.commandsInUse kept) := by
    rw [List.perm_ext_iff_of_nodup (hnodup.filter _) (e'.nodup_commandsInUse kept)]
    intro c
    rw [List.mem_filter, decide_eq_true_eq, List.mem_append]
    exact ⟨And.right, fun hc => ⟨f.was_inUse run hc, hc⟩⟩
  have hsplit := List.length_eq_countP_add_countP (fun c => decide (c ∈ e'.commandsInUse kept))
    (l := e.commandsInUse held ++ e.makes m)
  rw [List.countP_eq_length_filter, hperm.length_eq, List.length_append] at hsplit
  unfold Stay.freed
  rw [← List.countP_eq_length_filter]
  simp only [decide_eq_true_eq] at hsplit
  simp only
  omega

end Engine.Goes

/-- A run begins without commands. -/
theorem opening_empty (settings : Settings) (c : CommandRef) :
    ¬ c.index < (opening settings).commands.length := by
  rw [← Commands.get?_isSome_iff]
  have habsent : (opening settings).commands.get? c = none := command?_opening settings c
  rw [habsent]
  exact Bool.false_ne_true

/-- What a turn takes is in use after it, or has been given back. -/
theorem Engine.Goes.balanced (f : Goes held e m e' kept) {turns : List Turn}
    (run : Run settings turns e) :
    (Turn.mk e m e').framesTaken + e.framesInUse held =
      Stay.framesReturned ⟨⟨e, m, e'⟩, held, kept⟩ + e'.framesInUse kept := by
  have hcommands := f.freed_eq run
  have hoffered := f.offered_eq run
  have hlent := run.lent_eq
  have hlent' := (run.next (fun call hcall => (f.allowed call hcall).1) f.moved).lent_eq
  unfold Turn.framesTaken Stay.framesReturned Turn.acknowledges Turn.acknowledged framesInUse
  simp only
  omega

/-- The frames that a run has taken are in use, or have been given back. -/
theorem Tenancy.taken_eq (h : Tenancy settings stays held e) :
    (stays.map (·.turn.framesTaken)).sum =
      (stays.map Stay.framesReturned).sum + e.framesInUse held := by
  induction h with
  | start =>
    have hnone : (opening settings).commandsInUse [] = [] := by
      rw [List.eq_nil_iff_forall_not_mem]
      intro c hc
      exact opening_empty settings c ((sound_opening settings).lt_of_inUse hc)
    unfold framesInUse
    rw [hnone, lent_opening]
    rfl
  | next prior f ih =>
    have hturn := f.balanced prior.run
    simp only [List.map_cons, List.sum_cons]
    omega

theorem Tenancy.acknowledges_eq (h : Tenancy settings stays held e) :
    (stays.map (·.turn.acknowledges)).sum =
      (stays.map (·.turn.acknowledged)).sum + e.stack.countP Task.hasFrame := by
  induction h with
  | start =>
    rw [countP_hasFrame_opening]
    rfl
  | next prior f ih =>
    have hturn := f.offered_eq prior.run
    rw [List.map_cons, List.sum_cons, List.map_cons, List.sum_cons]
    unfold Turn.acknowledges Turn.acknowledged at ih ⊢
    simp only
    omega

/-- Every command is freed once, as soon as it is not in use. -/
theorem Tenancy.freed_once (h : Tenancy settings stays held e) (c : CommandRef) :
    (stays.countP fun stay => c ∈ stay.freed) + (if c ∈ e.commandsInUse held then 1 else 0) =
      if c.index < e.commands.length then 1 else 0 := by
  induction h with
  | start =>
    have hnone := opening_empty settings c
    rw [if_neg hnone, if_neg fun hc => hnone ((sound_opening settings).lt_of_inUse hc)]
    rfl
  | @next stays held kept e e' m prior f ih =>
    have hlength := f.length_eq prior.run
    have hbefore : c ∈ e.commandsInUse held → c.index < e.commands.length :=
      prior.run.sound.lt_of_inUse
    have hafter : c ∈ e'.commandsInUse kept → c ∈ e.commandsInUse held ∨ c ∈ e.makes m :=
      f.was_inUse prior.run
    have hmade : c ∈ e.makes m ↔ e.commands.length ≤ c.index ∧ c.index < e'.commands.length := by
      rw [hlength]
      exact mem_makes
    rw [List.countP_cons]
    generalize (stays.countP fun stay => c ∈ stay.freed) = before at ih ⊢
    simp only [decide_eq_true_eq, Stay.mem_freed]
    by_cases hin : c ∈ e.commandsInUse held
    · -- in use before, so it is in use still or is freed now
      have hlt := hbefore hin
      rw [if_pos hin, if_pos hlt] at ih
      rw [if_pos (by omega : c.index < e'.commands.length)]
      by_cases hin' : c ∈ e'.commandsInUse kept <;> simp [hin, hin'] <;> omega
    · rw [if_neg hin] at ih
      by_cases hmk : c ∈ e.makes m
      · -- made now
        obtain ⟨hge, hlt'⟩ := hmade.1 hmk
        rw [if_neg (Nat.not_lt.2 hge)] at ih
        rw [if_pos hlt']
        by_cases hin' : c ∈ e'.commandsInUse kept <;> simp [hin', hmk] <;> omega
      · -- freed before, or not made yet
        have hin' : c ∉ e'.commandsInUse kept := fun h => (hafter h).elim hin hmk
        have hlt : c.index < e'.commands.length ↔ c.index < e.commands.length := by
          rw [hmade] at hmk
          omega
        simp only [hin, hmk, hin', hlt, or_self, false_and, if_false]
        exact ih

/-! ## Calls that have ended -/

/-- The command is made in the turn, for a caller that waits until it has ended. -/
def Turn.MakesAwaited (turn : Turn) (c : CommandRef) : Prop :=
  turn.move = .grant (.ok ()) ∧ c = ⟨turn.before.commands.length⟩ ∧ ∃ r command style below,
    turn.before.stack = .allocate r command style :: below ∧ ∀ tag, style ≠ .callback tag

section

variable {turns : List Turn} {tag : Nat}

theorem Engine.Sound.not_listens_begin {command : Command} {style : Style} {below : List Task}
    (h : e.Sound) (hs : e.stack = .allocate r command style :: below)
    (hstyle : ∀ tag, style ≠ .callback tag) :
    ¬ (({ e with stack := below } : Engine).begin r command style).Listens tag
      ⟨e.commands.length⟩ := by
  have hpop : e.stack = [Task.allocate r command style] ++ below := hs
  have hrest := (h.pop hpop).toStored
  obtain ⟨⟨hknown, -, hmade⟩, -⟩ := h.tasks (.allocate r command style) (hs ▸ List.mem_cons_self)
  obtain ⟨router, hr⟩ := router_of_known h.toStored hknown
  cases style with
  | waiting watching =>
    rintro ⟨command', hc, hl⟩
    have hnew : some command = some command' := (hrest.add_spec command).command_new.symm.trans hc
    rw [← Option.some.inj hnew, hmade] at hl
    cases hl
  | callback tag => exact absurd rfl (hstyle tag)
  | future =>
    have added := hrest.add_spec { command with listener := .future none }
    obtain ⟨begun, -⟩ := (hrest.of_added added).launch_spec hr added.command_new
      (hrest.not_queued_next added) [.watch ⟨r, ⟨e.commands.length⟩, .future⟩]
    intro hlistens
    rcases (added.listens_iff _).1 ((begun.listens_iff _).1 hlistens) with hold | ⟨-, hl⟩
    · exact not_listens_next e tag hold
    · cases hl

/-- No callback is ever told how a command ends whose caller waits for it. -/
theorem Run.unlistened (h : Run settings turns e)
    (hmade : ∃ turn ∈ turns, turn.MakesAwaited c) :
    c.index < e.commands.length ∧ ¬ e.Listens tag c := by
  induction h with
  | start =>
    obtain ⟨turn, ht, -⟩ := hmade
    cases ht
  | @next turns e e' m prior ha hm ih =>
    obtain ⟨turn, ht, hturn⟩ := hmade
    rcases List.mem_cons.1 ht with rfl | ht
    · obtain ⟨rfl, rfl, r, command, style, below, hs, hstyle⟩ := hturn
      have hafter : e' = ({ e with stack := below } : Engine).begin r command style := by
        have hgrant : e.granted? (.ok ()) = some e' := hm
        unfold granted? at hgrant
        rw [hs] at hgrant
        exact (Option.some.inj hgrant).symm
      have hlength : e'.commands.length = e.commands.length + (e.makes (.grant (.ok ()))).length :=
        (within_all prior.yields ha hm).made
      have hmakes : e.makes (.grant (.ok ())) = [⟨e.commands.length⟩] := by
        unfold makes
        rw [hs]
      rw [hmakes] at hlength
      refine ⟨hlength ▸ Nat.lt_succ_self _, ?_⟩
      rw [hafter]
      exact prior.sound.not_listens_begin hs hstyle
    · obtain ⟨hlt, hnot⟩ := ih ⟨turn, ht, hturn⟩
      have x := prior.sound.extends ha hm
      refine ⟨Nat.lt_of_lt_of_le hlt x.length_le, ?_⟩
      rintro ⟨command', hc', hl⟩
      obtain ⟨command, hc⟩ := Option.isSome_iff_exists.1 (Commands.get?_isSome_iff.2 hlt)
      obtain ⟨command'', hc'', -, hback⟩ := x.commands c command hc
      rw [hc'] at hc''
      cases hc''
      exact hnot ⟨command, hc, hback tag hl⟩

theorem Concluded.lt (h : Run settings turns e) (hc : Concluded c turns) :
    c.index < e.commands.length := by
  induction h with
  | start => exact hc.elim
  | @next turns e e' m prior ha hm ih =>
    have hle := (prior.sound.extends ha hm).length_le
    rcases hc with hc | ⟨-, -, hlt⟩
    · exact Nat.lt_of_lt_of_le (ih hc) hle
    · exact Nat.lt_of_lt_of_le hlt hle

end

/-- When the answer of a call has been taken, no command is in use that the call made and waited
for. -/
theorem Tenancy.freed_of_collected {result : Outcome Answer} {below : List Task}
    (h : Tenancy settings stays held e) (he : e.stack = .answer result :: below)
    (f : Goes held e .collect e' kept)
    (hmade : ∃ turn ∈ stays.map Stay.turn, turn.MakesAwaited c)
    (hmark : (marks (stays.map Stay.turn)).headD 0 ≤ c.index) : c ∉ e'.commandsInUse kept := by
  have hafter : e'.stack = below := by
    have hcollect : e.collected? = some e' := f.moved
    unfold collected? at hcollect
    rw [he] at hcollect
    rw [← Option.some.inj hcollect]
  have older : ∀ t ∈ e'.stack, c ∉ t.commands := by
    intro t ht hc
    rw [hafter] at ht
    exact Nat.not_lt.2 hmark (h.run.older_of_collected he t ht c hc)
  have run := (h.next f).run
  intro hc
  rcases mem_commandsInUse.1 hc with hqueued | ⟨t, ht, hcommand⟩
  · obtain ⟨r, -, hmem⟩ := List.mem_flatMap.1 hqueued
    rcases run.heeded.awaited c ⟨r, hmem⟩ with ⟨tag, hlistens⟩ | ⟨t, ht, w, hw, rfl⟩
    · obtain ⟨turn, hturn, hmade⟩ := hmade
      exact (run.unlistened ⟨turn, List.mem_cons_of_mem _ hturn, hmade⟩).2 hlistens
    · exact older t ht (Task.mem_commands_of_waiter? hw)
  · exact older t ht hcommand

/-- A command that a call made and waited for is not in use any more once the call has ended. -/
theorem Tenancy.freed_of_concluded (h : Tenancy settings stays held e)
    (hmade : ∃ turn ∈ stays.map Stay.turn, turn.MakesAwaited c)
    (hc : Concluded c (stays.map Stay.turn)) : c ∉ e.commandsInUse held := by
  induction h with
  | start => exact hc.elim
  | @next stays held kept e e' m prior f ih =>
    -- the command had been made before the latest turn
    have earlier (hlt : c.index < e.commands.length) :
        ∃ turn ∈ stays.map Stay.turn, turn.MakesAwaited c := by
      obtain ⟨turn, ht, hturn⟩ := hmade
      rcases List.mem_cons.1 ht with rfl | ht
      · obtain ⟨-, rfl, -⟩ := hturn
        exact absurd hlt (Nat.lt_irrefl _)
      · exact ⟨turn, ht, hturn⟩
    rcases hc with hc | ⟨⟨result, hanswer⟩, hmark, hlt⟩
    · have hlt := hc.lt prior.run
      intro hin
      rcases f.was_inUse prior.run hin with hin | hnew
      · exact ih (earlier hlt) hc hin
      · rcases e.makes_cases m with hnone | hmakes
        · rw [hnone] at hnew
          cases hnew
        · rw [hmakes, List.mem_singleton] at hnew
          rw [hnew] at hlt
          exact Nat.lt_irrefl _ hlt
    · unfold Turn.answer? at hanswer
      split at hanswer
      · rename_i hm hs
        cases hm
        exact prior.freed_of_collected hs f (earlier hlt) hmark
      · cases hanswer

/-- **Every frame that is taken is given back once.** The frames taken are those given back and
those in use, and among them those of acknowledgments; every command is freed once, or is in use
still; a command that a call has waited for is not in use any more once the call has ended; and the
frames in use are those of the commands in the queues of routers in use, of commands that only a
task refers to, and of acknowledgments on offer. With nothing under way, the first of these are
all there are, and only commands with a callback are among them. -/
theorem Tenancy.given_back (h : Tenancy settings stays held e) :
    (stays.map (·.turn.framesTaken)).sum =
        (stays.map Stay.framesReturned).sum + e.framesInUse held ∧
      (stays.map (·.turn.acknowledges)).sum =
        (stays.map (·.turn.acknowledged)).sum + e.stack.countP Task.hasFrame ∧
      (∀ c, c.index < e.commands.length → (stays.countP fun stay => c ∈ stay.freed) +
        (if c ∈ e.commandsInUse held then 1 else 0) = 1) ∧
      (∀ c, (∃ turn ∈ stays.map Stay.turn, turn.MakesAwaited c) →
        Concluded c (stays.map Stay.turn) → c ∉ e.commandsInUse held) ∧
      e.framesInUse held = ((e.routersInUse held).map fun r => (e.queue r).outstanding).sum +
        ((e.commandsInUse held).countP fun c => c ∉ e.commandsQueued held) +
          e.stack.countP Task.hasFrame ∧
      (e.stack = [] → e.framesInUse held =
          ((e.routersInUse held).map fun r => (e.queue r).outstanding).sum ∧
        ∀ c ∈ e.commandsInUse held, ∃ tag, e.Listens tag c) := by
  have hwhere := h.run.sound.toStored.framesInUse_eq held
  rw [h.run.lent_eq] at hwhere
  refine ⟨h.taken_eq, h.acknowledges_eq, fun c hlt => ?_, fun c => h.freed_of_concluded, hwhere,
    fun hidle => ⟨?_, fun c hc => ?_⟩⟩
  · rw [h.freed_once c, if_pos hlt]
  · have hnone : ((e.commandsInUse held).countP fun c => c ∉ e.commandsQueued held) = 0 := by
      rw [List.countP_eq_zero]
      intro c hc
      have hqueued := queued_of_idle hidle hc
      simpa using hqueued
    rw [hwhere, hnone, hidle]
    rfl
  · obtain ⟨r, -, hmem⟩ := List.mem_flatMap.1 (queued_of_idle hidle hc)
    rcases h.run.heeded.awaited c ⟨r, hmem⟩ with hlistens | ⟨t, ht, -⟩
    · exact hlistens
    · rw [hidle] at ht
      cases ht

/-- The host router tells of an unplugged adapter, and the acknowledgment is refused. Then a word is
read from it with a callback. -/
def unpluggedMoves : List Move :=
  hostMoves hostWords ++
  ([.receive (.received .hotplug .read (HotplugEvent.encode ⟨Route.root, 1, true⟩)),
    .grant (.ok ()), .grant (.error .closed), .proceed, .collect,
    .call (.operate ⟨0⟩ (.transfer (.read .router 0 64 1) (.callback 7))), .proceed,
    .grant (.ok ()), .proceed, .grant (.ok ()), .proceed, .proceed, .proceed, .collect,
    .receive (.sent (some (.command ⟨0⟩ ⟨2⟩ 1))), .collect] : List Move)

/-- All frames but that of the read have been given back. -/
theorem one_frame_kept : ∃ stays e, Tenancy {} stays [] e ∧ e.stack = [] ∧
    (stays.map (·.turn.acknowledges)).sum = 1 ∧
    (stays.map (·.turn.framesTaken)).sum = (stays.map Stay.framesReturned).sum + 1 ∧
    ∀ c ∈ e.commandsInUse [], ∃ tag, e.Listens tag c := by
  have played : (replay? {} unpluggedMoves.reverse).any (fun (turns, e) =>
      e.stack.isEmpty && decide (e.routersInUse [] = [⟨0⟩]) &&
      decide ((e.queue ⟨0⟩).outstanding = 1) &&
      decide ((turns.map Turn.acknowledges).sum = 1) && turns.all Turn.isAtHome) = true := by
    decide +kernel
  obtain ⟨turns, e, run, hcheck⟩ := exists_of_replay? played
  simp only [Bool.and_eq_true, List.isEmpty_iff, decide_eq_true_eq, List.all_eq_true] at hcheck
  obtain ⟨⟨⟨⟨hidle, hrouters⟩, houtstanding⟩, hacknowledges⟩, hcalls⟩ := hcheck
  have tenancy := run.tenancy hcalls
  obtain ⟨htaken, -, -, -, -, hrest⟩ := tenancy.given_back
  obtain ⟨hframes, hlisten⟩ := hrest hidle
  rw [hrouters, List.map_singleton, List.sum_singleton, houtstanding] at hframes
  rw [hframes] at htaken
  refine ⟨_, e, tenancy, hidle, ?_, htaken, hlisten⟩
  rw [List.map_map]
  exact hacknowledges

end RouterFabric
