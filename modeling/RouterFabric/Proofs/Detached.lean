import RouterFabric.Proofs.Run

/-!
# What is left behind on routers outside the tree

A detachment removes no router that has commands, and a detached router takes no new ones. The end
of a failed discovery takes its router out of the tree without looking at the queue, while others
may have reached the router by its route; what they have queued by then stays there for good.

* `Engine.Clear` : routers outside the tree have no commands
* `Turn.Strands` : a discovery ends on a router with commands
* `Run.clear_iff` : a run stays clear as long as no turn strands commands, and no longer
* `clear_fails` : a run that does not stay clear
-/

namespace RouterFabric

namespace Engine

variable {e e' : Engine} {r r' : RouterRef} {router : Router} {c : CommandRef}
  {command old new : Command}

/-- A router that is not in the tree has no command in its slot and none in its line. -/
def Clear (e : Engine) : Prop :=
  ∀ r, ¬ e.Linked r → (e.queue r).slot = none ∧ (e.queue r).pending = []

theorem clear_iff_members : e.Clear ↔ ∀ r, ¬ e.Linked r → (e.queue r).members = [] := by
  unfold Clear Queue.members
  constructor <;> intro h r hr
  · obtain ⟨hs, hp⟩ := h r hr
    rw [hs, hp]
    rfl
  · have hm := List.append_eq_nil_iff.1 (h r hr)
    exact ⟨Option.toList_eq_nil_iff.1 hm.1, hm.2⟩

/-- A router that is in the tree is there under its own id. -/
theorem Stored.linked_iff (h : e.Stored) : e.Linked r ↔
    ∃ route parent, e.topology.tree.place? ⟨r.index⟩ = some (r, route, parent) := by
  unfold Linked
  simp only [RouterTree.get?_eq_place]
  constructor
  · rintro ⟨id, hid⟩
    obtain ⟨⟨value, route, parent⟩, he, rfl⟩ := Option.map_eq_some_iff.1 hid
    obtain ⟨rfl, -⟩ := h.places id value route parent he
    exact ⟨route, parent, he⟩
  · rintro ⟨route, parent, he⟩
    exact ⟨⟨r.index⟩, by rw [he]; rfl⟩

/-! ## Changes after which an engine is clear still -/

/-- No router has left the tree, and no command has come to a queue. -/
structure Keeps (e e' : Engine) : Prop where
  linked : ∀ r, e.Linked r → e'.Linked r
  members : ∀ r, (e'.queue r).members ⊆ (e.queue r).members

theorem Clear.of_keeps (h : e.Clear) (k : e.Keeps e') : e'.Clear := by
  rw [clear_iff_members] at h ⊢
  intro r hr
  have empty := h r fun hl => hr (k.linked r hl)
  exact List.subset_nil.1 (empty ▸ k.members r)

theorem Keeps.trans {e'' : Engine} (k : e.Keeps e') (k' : e'.Keeps e'') : e.Keeps e'' :=
  ⟨fun r hl => k'.linked r (k.linked r hl), fun r => List.Subset.trans (k'.members r) (k.members r)⟩

theorem Alike.keeps (a : e.Alike e') : e.Keeps e' := by
  refine ⟨fun r hl => (a.linked_iff r).2 hl, fun r => ?_⟩
  rw [a.members]
  exact List.Subset.refl _

theorem Added.keeps (a : e.Added e' new) : e.Keeps e' := by
  refine ⟨fun r hl => (a.linked_iff r).2 hl, fun r => ?_⟩
  rw [a.members]
  exact List.Subset.refl _

theorem Changed.keeps {left : Bool} (a : e.Changed e' c old new left) : e.Keeps e' := by
  refine ⟨fun r hl => (a.linked_iff r).2 hl, fun r => ?_⟩
  rw [a.members]
  split
  · exact List.erase_subset
  · exact List.Subset.refl _

theorem Forced.keeps {cs : List (RouterRef × CommandRef)} (f : Forced e cs e') : e.Keeps e' := by
  induction f with
  | none a => exact a.keeps
  | skip a _ ih => exact a.keeps.trans ih
  | next _ hc _ ih => exact hc.keeps.trans ih

theorem Joined.keeps {route : Route} {linked : Bool} (a : e.Joined e' route linked)
    (h : e.Stored) : e.Keeps e' := by
  refine ⟨fun r hl => ?_, fun r => ?_⟩
  · obtain ⟨route, parent, he⟩ := h.linked_iff.1 hl
    have hold : (⟨r.index⟩ : NodeId) ≠ ⟨e.routers.length⟩ := by
      intro heq
      obtain ⟨-, router, hr, -⟩ := h.places _ _ _ _ he
      have hlt := lt_of_router? hr
      rw [NodeId.mk.injEq] at heq
      omega
    exact (h.of_joined a).linked_iff.2 ⟨route, parent, (a.places _ hold).trans he⟩
  · rw [a.queue]
    exact List.Subset.refl _

/-- An attempt is queued on an attached router only. -/
theorem Clear.of_begun (h : e.Clear) (a : e.Begun e' r c router old) (hk : e.Known r) :
    e'.Clear := by
  rw [clear_iff_members] at h ⊢
  intro r' hr'
  rw [a.linked_iff] at hr'
  rw [a.members]
  split
  · rename_i hnew
    obtain ⟨rfl, hdet⟩ := hnew
    rcases hk with hl | ⟨router', hr, hd⟩
    · exact absurd hl hr'
    · rw [a.on] at hr
      cases hr
      rw [hd] at hdet
      cases hdet
  · exact h r' hr'

theorem Clear.of_parted (h : e.Clear) (p : e.Parted e' r) (hs : e.Stored)
    (hempty : ¬ e'.Linked r → (e.queue r).members = []) : e'.Clear := by
  rw [clear_iff_members] at h ⊢
  intro r' hr'
  rw [p.queues]
  by_cases hl : e.Linked r'
  · obtain ⟨route, parent, he⟩ := hs.linked_iff.1 hl
    rcases p.places ⟨r'.index⟩ with hsame | ⟨hid, -⟩
    · exact absurd ((hs.of_parted p).linked_iff.2 ⟨route, parent, hsame.trans he⟩) hr'
    · have hrr : r' = r := by
        rw [ref_eq_iff]
        exact congrArg (·.number) hid
      rw [hrr] at hr' ⊢
      exact hempty hr'
  · exact h r' hl

theorem Clear.of_cut {rs : List RouterRef} (h : e.Clear) (k : Cut e rs e') (hs : e.Stored)
    (hempty : ∀ r ∈ rs, (e.queue r).members = []) : e'.Clear := by
  induction k with
  | none a => exact h.of_keeps a.keeps
  | next p _ ih =>
    have first := h.of_parted p hs fun _ => hempty _ List.mem_cons_self
    refine ih first (hs.of_parted p) fun r' hr' => ?_
    rw [p.queues]
    exact hempty r' (List.mem_cons_of_mem _ hr')

end Engine

open Engine

variable {settings : Settings} {turns : List Turn} {turn : Turn} {e e' : Engine} {m : Move}

/-! ## Turns -/

/-- The end of a failed discovery takes a router out of the tree that has commands. -/
def Turn.Strands (turn : Turn) : Prop :=
  ∃ r next below, turn.move = .proceed ∧
    turn.before.stack = .perform r (.ask .unlink next) :: below ∧
    ¬ turn.after.Linked r ∧ (turn.before.queue r).outstanding ≠ 0

theorem Engine.Clear.of_inner (hc : e.Clear) (h : e.Sound) (k : Inner e m e')
    (hstrand : ¬ (Turn.mk e m e').Strands) : e'.Clear := by
  cases k with
  | quiet gone tasks below he he' hgone hquiet hfits a => exact hc.of_keeps a.keeps
  | returned tag reply below he he' hm a => exact hc.of_keeps a.keeps
  | expired r c old tasks below he he' hquiet hfits a => exact hc.of_keeps a.keeps
  | refused r c old fault tasks below he he' hquiet hfits hslot a => exact hc.of_keeps a.keeps
  | noted r c old signal words he' hslot signalled hdone a => exact hc.of_keeps a.keeps
  | completed r c old signal words tasks he' hquiet hfits hslot signalled hdone a =>
    exact hc.of_keeps a.keeps
  | interrupted r c old event tasks he' hquiet hfits hslot a => exact hc.of_keeps a.keeps
  | finished r result below he he' a => exact hc.of_keeps a.keeps
  | asked r request next t tasks below he he' hquiet hfits asked a => exact hc.of_keeps a.keeps
  | unlinked r next below he he' parted hm =>
    refine hc.of_parted parted h.toStored fun hl => ?_
    refine Classical.byContradiction fun hne => ?_
    exact hstrand ⟨r, next, below, hm, he, hl,
      fun hzero => hne (List.eq_nil_of_length_eq_zero hzero)⟩
  | resumed r next reply below he he' a => exact hc.of_keeps a.keeps
  | dropped reply below he hbelow he' a => exact hc.of_keeps a.keeps
  | unframed r command style failure below he he' a => exact hc.of_keeps a.keeps
  | framed r command watching below he he' added => exact hc.of_keeps added.keeps
  | issued r command style t mid router below he he' issued added begun =>
    have hk : e.Known r := (h.tasks (.allocate r command style) (he ▸ List.mem_cons_self)).1.1
    exact (hc.of_keeps added.keeps).of_begun begun (added.known hk)
  | retried w watching left router old below he he' begun =>
    have hk : e.Known w.router := (h.tasks (.attempt w) (he ▸ List.mem_cons_self)).1.1.1
    exact hc.of_begun begun hk
  | exhausted w below he he' a => exact hc.of_keeps a.keeps
  | watched w deadline below he he' a => exact hc.of_keeps a.keeps
  | settled w t t' command below he ht he' hcommand hsettled a => exact hc.of_keeps a.keeps
  | unclaimed w deadline below he he' a => exact hc.of_keeps a.keeps
  | withdrawn w deadline mid old expired t tasks below he he' hquiet hfits ht hmem changed forced =>
    exact hc.of_keeps (changed.keeps.trans forced.keeps)
  | unregistered failure below he he' a => exact hc.of_keeps a.keeps
  | rooted linked t below he he' joined ht => exact hc.of_keeps (joined.keeps h.toStored)

theorem Engine.Clear.of_called {call : Call} (hc : e.Clear) (h : e.Sound) (k : Called e call e') :
    e'.Clear := by
  cases k with
  | answered result hresult he' a => exact hc.of_keeps a.keeps
  | operated r operation router settings hr he' a => exact hc.of_keeps a.keeps
  | attached parent route linked t he' joined ht => exact hc.of_keeps (joined.keeps h.toStored)
  | detached r expired mid rs tasks result he' hquiet hfits forced cut hempty =>
    exact (hc.of_keeps forced.keeps).of_cut cut (forced.stored h.toStored) hempty

/-- A turn that strands no commands leaves a clear engine clear. -/
theorem Engine.Clear.of_moved (hc : e.Clear) (h : e.Sound) (k : Moved e m e')
    (hstrand : ¬ (Turn.mk e m e').Strands) : e'.Clear := by
  cases k with
  | inner _ _ k => exact hc.of_inner h k hstrand
  | called k => exact hc.of_called h k
  | collected result below he he' a => exact hc.of_keeps a.keeps

/-- The step that takes a router out of the tree. -/
theorem Engine.Sound.step_parted {r : RouterRef} {next : Reply → Program Request Answer}
    {below : List Task} (h : e.Sound) (hs : e.stack = .perform r (.ask .unlink next) :: below) :
    e.Parted e.step r := by
  have hpop : e.stack = [Task.perform r (.ask .unlink next)] ++ below := hs
  have base := (h.pop hpop).toStored
  have stacked := base.of_alike (base.alike_push [.resume r next])
  have hstep : e.step = (({ e with stack := below } : Engine).push [.resume r next]).unlink r := by
    unfold step
    rw [hs]
    rfl
  have hk : e.Known r := (h.tasks (.perform r _) (hs ▸ List.mem_cons_self)).1
  obtain ⟨router, hr⟩ := router_of_known h.toStored hk
  rw [hstep]
  obtain ⟨⟨-, hnone⟩ | p, -⟩ := stacked.unlink_spec r
  · cases hr.symm.trans hnone
  · exact Parted.restacked (e := e) p

/-- A turn that strands commands leaves an engine that is not clear. -/
theorem Turn.Strands.not_clear (hs : turn.Strands) (h : turn.before.Sound)
    (hm : turn.before.move? turn.move = some turn.after) : ¬ turn.after.Clear := by
  obtain ⟨r, next, below, hmove, hstack, hl, hq⟩ := hs
  intro hclear
  have hempty := clear_iff_members.1 hclear r hl
  have hstep : turn.after = turn.before.step := by
    rw [hmove] at hm
    exact step_of_proceed hm
  rw [hstep, (h.step_parted hstack).queues r] at hempty
  exact hq (congrArg List.length hempty)

/-! ## Runs -/

/-- The states of a run, the latest first. -/
def states (settings : Settings) (turns : List Turn) : List Engine :=
  turns.map (·.after) ++ [opening settings]

theorem clear_opening (settings : Settings) : (opening settings).Clear := by
  intro r _
  rw [queue_opening]
  exact ⟨rfl, rfl⟩

/-- The state a run has come to is one of its states. -/
theorem Run.mem_states (h : Run settings turns e) : e ∈ states settings turns := by
  cases h with
  | start => exact List.mem_singleton_self _
  | next => exact List.mem_cons_self

/-- **A run stays clear exactly as long as no turn strands commands.** Wherever a router outside the
tree has a command, a discovery of that router has failed while the command was in its queue. -/
theorem Run.clear_iff (h : Run settings turns e) :
    (∀ state ∈ states settings turns, state.Clear) ↔ ∀ turn ∈ turns, ¬ turn.Strands := by
  induction h with
  | start =>
    refine ⟨fun _ turn hturn => absurd hturn List.not_mem_nil, fun _ state hstate => ?_⟩
    rw [List.mem_singleton.1 hstate]
    exact clear_opening settings
  | @next turns e e' m prior ha hm ih =>
    have hstates : states settings (⟨e, m, e'⟩ :: turns) = e' :: states settings turns := rfl
    rw [hstates, List.forall_mem_cons, List.forall_mem_cons, ih]
    constructor
    · rintro ⟨hclear, hturns⟩
      exact ⟨fun hs => hs.not_clear prior.sound hm hclear, hturns⟩
    · rintro ⟨hstrand, hturns⟩
      have hc : e.Clear := ih.2 hturns e prior.mem_states
      exact ⟨hc.of_moved prior.sound (prior.moved ha hm) hstrand, hturns⟩

/-! ## A run that strands a command -/

/-- A router is attached below the host router. While its discovery waits for the transport's
answer, someone else reads from it with a callback; then the transport refuses the request of the
discovery and takes the one of the reader. -/
def strandingMoves : List Move :=
  hostMoves hostWords ++
  ([.call (.attachChild ⟨0⟩ ⟨1⟩), .proceed, .grant (.ok ()), .proceed, .proceed,
    .call (.operate ⟨1⟩ (.transfer (.read .router 0 0 1) (.callback 1))), .proceed, .grant (.ok ()),
    .proceed, .proceed, .proceed, .collect,
    .grant (.error .closed), .proceed, .proceed, .grant (.ok ()), .proceed, .proceed, .proceed,
    .proceed, .proceed, .proceed] : List Move)

theorem exists_stranded : ∃ turns e, Run {} turns e ∧ ¬ e.Clear := by
  have played : (replay? {} strandingMoves.reverse).any (fun (_, e) =>
      e.topology.tree.get? ⟨1⟩ == none && (e.queue ⟨1⟩).slot == some ⟨2⟩) = true := by
    decide +kernel
  obtain ⟨turns, e, run, hcheck⟩ := exists_of_replay? played
  obtain ⟨hnone, hslot⟩ := Bool.and_eq_true_iff.1 hcheck
  refine ⟨turns, e, run, fun hclear => ?_⟩
  have hl : ¬ e.Linked ⟨1⟩ := by
    rw [run.sound.toStored.linked_iff]
    rintro ⟨route, parent, hplace⟩
    have hget := eq_of_beq hnone
    rw [RouterTree.get?_eq_place, hplace] at hget
    cases hget
  have hfree := (hclear ⟨1⟩ hl).1
  rw [eq_of_beq hslot] at hfree
  cases hfree

/-- There is a turn that strands commands. -/
theorem discovery_strands : ∃ turns e, Run {} turns e ∧ ∃ turn ∈ turns, turn.Strands := by
  obtain ⟨turns, e, run, hclear⟩ := exists_stranded
  refine ⟨turns, e, run, ?_⟩
  have hiff := run.clear_iff
  refine Classical.byContradiction fun hnone => hclear (hiff.2 (fun turn hturn hs => ?_) e
    run.mem_states)
  exact hnone ⟨turn, hturn, hs⟩

/-- **Routers outside the tree may have commands.** -/
theorem clear_fails :
    ¬ ∀ (settings : Settings) (turns : List Turn) (e : Engine), Run settings turns e → e.Clear := by
  intro hall
  obtain ⟨turns, e, run, hclear⟩ := exists_stranded
  exact hclear (hall _ turns e run)

end RouterFabric
