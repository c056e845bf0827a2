import RouterFabric.Proofs.Queue.Orderly
import RouterFabric.Proofs.Tree

/-!
# What an engine has stored

The tree, the routers, their queues and the commands refer to each other, and in a sound engine the
references fit. What an engine does to all this is put together from a few kinds of change, each a
relation between the engine before and the engine after; the stack is left out here.

* `Engine.Stored` : the references fit, and what is in a queue has not ended
* `Engine.Alike` : nothing that matters has changed
* `Engine.Changed`, `Engine.Added`, `Engine.Begun` : one command has changed, is new, or has begun
  another attempt
* `Engine.Joined`, `Engine.Parted` : one router is new, or has been taken out of the tree
* `Stored.of_alike` and so on : every kind of change keeps what is stored sound
-/

namespace RouterFabric

theorem exists_of_map_eq {α β : Type} {f : α → β} {x y : Option α} {b : α}
    (h : x.map f = y.map f) (hy : y = some b) : ∃ a, x = some a ∧ f a = f b := by
  rw [hy, Option.map_some] at h
  exact Option.map_eq_some_iff.1 h

/-- The part of a router that no attempt changes. -/
def Router.core (router : Router) : Router :=
  { router with identity := none, suspended := false, begun := 0, queue := {}, stats := {} }

/-- All of a command but its place in a queue and the note of how its attempt ended. -/
def Command.substance (c : Command) : Command :=
  { c with phase := .idle, since := none, ending := none }

/-- The command as it was made. -/
def Command.made (c : Command) : Command where
  id := c.id
  node := c.node
  route := c.route
  kind := c.kind
  address := c.address
  payload := c.payload

theorem Command.made_of_substance {c c' : Command} (h : c'.substance = c.substance) :
    c'.made = c.made := by
  show c'.substance.made = c.substance.made
  rw [h]

namespace Engine

variable {e e' e'' : Engine} {r r' : RouterRef} {router : Router} {c c' : CommandRef}
  {command old new : Command}

/-- The command is one of the router's. -/
def Owns (e : Engine) (r : RouterRef) (command : Command) : Prop :=
  command.node = ⟨r.index⟩ ∧ ∃ router, e.router? r = some router ∧ command.route = router.route

/-- Whether the tree has the router. -/
def Linked (e : Engine) (r : RouterRef) : Prop :=
  ∃ id, e.topology.tree.get? id = some r

/-- Whether the router is or was in the tree. A caller cannot have a reference to any other. -/
def Known (e : Engine) (r : RouterRef) : Prop :=
  e.Linked r ∨ ∃ router, e.router? r = some router ∧ router.detached = true

/-- The number of attempts begun on a router. -/
def begunOn (e : Engine) (r : RouterRef) : Nat :=
  ((e.router? r).map (·.begun)).getD 0

/-- What a command in a queue is like. -/
def Waits (e : Engine) (r : RouterRef) (c : CommandRef) : Prop :=
  ∃ command, e.command? c = some command ∧ e.Owns r command ∧ command.isComplete = false ∧
    command.pollComplete = false

/-- Tree, routers, queues and commands fit together. -/
structure Stored (e : Engine) : Prop where
  tree : e.topology.tree.Sound
  /-- ids and references are given out together -/
  nextId : e.topology.tree.nextId = e.routers.length
  ids : ∀ r router, e.router? r = some router → router.id = ⟨r.index⟩
  places : ∀ id value route parent, e.topology.tree.place? id = some (value, route, parent) →
    value = ⟨id.number⟩ ∧ ∃ router, e.router? value = some router ∧ router.route = route
  orderly : ∀ r, (e.queue r).Orderly e.commands
  members : ∀ r, ∀ c ∈ (e.queue r).members, e.Waits r c

/-! ## Kinds of change -/

/-- The routers and the tree are as they were, up to what is counted, known or noted of a router. -/
structure Framed (e e' : Engine) : Prop where
  routers : ∀ r, (e'.router? r).map Router.core = (e.router? r).map Router.core
  orderly : ∀ r, (e'.queue r).Orderly e'.commands
  tree : e'.topology.tree.Sound
  nextId : e'.topology.tree.nextId = e.topology.tree.nextId
  places : ∀ id, e'.topology.tree.place? id = e.topology.tree.place? id

/-- Another command than `c` is as it was, but that the note of how it ended may be gone. -/
structure Spared (e e' : Engine) (c : CommandRef) : Prop where
  substance : (e'.command? c).map Command.substance = (e.command? c).map Command.substance
  ending : ∀ command' ending, e'.command? c = some command' → command'.ending = some ending →
    ∃ command, e.command? c = some command ∧ command.ending = some ending

/-- Nothing has changed that matters to anyone else. -/
structure Alike (e e' : Engine) : Prop extends Framed e e' where
  begun : ∀ r, e'.begunOn r = e.begunOn r
  members : ∀ r, (e'.queue r).members = (e.queue r).members
  commands : ∀ c, e.Spared e' c

/-- One command has changed, and has left its queue if `left` says so. -/
structure Changed (e e' : Engine) (c : CommandRef) (old new : Command) (left : Bool) : Prop
    extends Framed e e' where
  begun : ∀ r, e'.begunOn r = e.begunOn r
  members : ∀ r, (e'.queue r).members =
    if left then (e.queue r).members.erase c else (e.queue r).members
  before : e.command? c = some old
  after : e'.command? c = some new
  others : ∀ c', c' ≠ c → e.Spared e' c'

/-- One command has been added. -/
structure Added (e e' : Engine) (command : Command) : Prop extends Framed e e' where
  begun : ∀ r, e'.begunOn r = e.begunOn r
  members : ∀ r, (e'.queue r).members = (e.queue r).members
  commands : e'.commands = e.commands ++ [command]

/-- An attempt of a command has begun, and waits in the queue of its router unless that router has
been detached. -/
structure Begun (e e' : Engine) (r : RouterRef) (c : CommandRef) (router : Router) (old : Command) :
    Prop extends Framed e e' where
  on : e.router? r = some router
  begun : ∀ r', e'.begunOn r' = if r = r' then router.begun + 1 else e.begunOn r'
  members : ∀ r', (e'.queue r').members =
    if r = r' ∧ router.detached = false then (e.queue r').members ++ [c] else (e.queue r').members
  before : e.command? c = some old
  after : ∃ new, e'.command? c = some new ∧
    new.substance = (old.beginAttempt router.begun).substance ∧ new.ending = none
  others : ∀ c', c' ≠ c → e.Spared e' c'

/-- A router has been added, and linked if `linked` says so. -/
structure Joined (e e' : Engine) (route : Route) (linked : Bool) : Prop where
  routers : e'.routers = e.routers ++ [{ id := ⟨e.routers.length⟩, route := route }]
  commands : e'.commands = e.commands
  tree : e'.topology.tree.Sound
  nextId : e'.topology.tree.nextId = e.topology.tree.nextId + 1
  places : ∀ id, id ≠ ⟨e.routers.length⟩ →
    e'.topology.tree.place? id = e.topology.tree.place? id
  place : e'.topology.tree.place? ⟨e.routers.length⟩ = none ∧ linked = false ∨
    ∃ parent, e'.topology.tree.place? ⟨e.routers.length⟩ =
      some (⟨e.routers.length⟩, route, parent) ∧ linked = true

/-- A router has been marked as detached, and taken out of the tree unless the tree refused. -/
structure Parted (e e' : Engine) (r : RouterRef) : Prop where
  routers : ∀ r', (e'.router? r').map Router.core =
    (e.router? r').map fun router => if r = r' then { router.core with detached := true }
      else router.core
  begun : ∀ r, e'.begunOn r = e.begunOn r
  queues : ∀ r, e'.queue r = e.queue r
  commands : e'.commands = e.commands
  tree : e'.topology.tree.Sound
  nextId : e'.topology.tree.nextId = e.topology.tree.nextId
  places : ∀ id, e'.topology.tree.place? id = e.topology.tree.place? id ∨
    id = ⟨r.index⟩ ∧ e'.topology.tree.place? id = none

/-! ## What every change keeps -/

/-- Routers and commands stay what they were made to be, and no command gets a callback. -/
structure Extends (e e' : Engine) : Prop where
  routers : ∀ r router, e.router? r = some router → ∃ router', e'.router? r = some router' ∧
    router'.id = router.id ∧ router'.route = router.route ∧
    (router.detached = true → router'.detached = true)
  known : ∀ r, e.Known r → e'.Known r
  commands : ∀ c command, e.command? c = some command → ∃ command', e'.command? c = some command' ∧
    command'.made = command.made ∧
    ∀ tag, command'.listener = .callback tag → command.listener = .callback tag

theorem Extends.refl (e : Engine) : e.Extends e :=
  ⟨fun _ router h => ⟨router, h, rfl, rfl, id⟩, fun _ => id,
    fun _ command h => ⟨command, h, rfl, fun _ => id⟩⟩

theorem Extends.trans (x : e.Extends e') (y : e'.Extends e'') : e.Extends e'' := by
  refine ⟨fun r router hr => ?_, fun r hk => y.known r (x.known r hk), fun c command hc => ?_⟩
  · obtain ⟨router', hr', hid, hroute, hdet⟩ := x.routers r router hr
    obtain ⟨router'', hr'', hid', hroute', hdet'⟩ := y.routers r router' hr'
    exact ⟨router'', hr'', hid'.trans hid, hroute'.trans hroute, hdet' ∘ hdet⟩
  · obtain ⟨command', hc', hm, hl⟩ := x.commands c command hc
    obtain ⟨command'', hc'', hm', hl'⟩ := y.commands c command' hc'
    exact ⟨command'', hc'', hm'.trans hm, fun tag h => hl tag (hl' tag h)⟩

theorem Extends.owns (x : e.Extends e') (h : e.Owns r old) (hm : new.made = old.made) :
    e'.Owns r new := by
  obtain ⟨hnode, router, hr, hroute⟩ := h
  obtain ⟨router', hr', -, hroute', -⟩ := x.routers r router hr
  have hsame : new.route = old.route := congrArg (·.route) hm
  exact ⟨(congrArg (·.node) hm).trans hnode, router', hr', by rw [hsame, hroute, hroute']⟩

theorem Extends.length_le (x : e.Extends e') : e.commands.length ≤ e'.commands.length := by
  refine Nat.le_of_not_lt fun hlt => ?_
  have hsome : (e.command? ⟨e'.commands.length⟩).isSome := by
    unfold command?
    rw [Commands.get?_isSome_iff]
    simpa using hlt
  obtain ⟨command, hc⟩ := Option.isSome_iff_exists.1 hsome
  obtain ⟨command', hc', -⟩ := x.commands _ command hc
  exact Nat.lt_irrefl _ (Commands.lt_of_get? hc')

theorem Framed.linked_iff (f : e.Framed e') (r : RouterRef) : e'.Linked r ↔ e.Linked r := by
  unfold Linked
  simp only [RouterTree.get?_eq_place, f.places]

theorem Framed.router_kept (f : e.Framed e') (hr : e.router? r = some router) :
    ∃ router', e'.router? r = some router' ∧ router'.id = router.id ∧
      router'.route = router.route ∧ router'.detached = router.detached := by
  obtain ⟨router', hr', hcore⟩ := exists_of_map_eq (f.routers r) hr
  exact ⟨router', hr', congrArg (·.id) hcore, congrArg (·.route) hcore,
    congrArg (·.detached) hcore⟩

theorem Framed.router_was (f : e.Framed e') (hr : e'.router? r = some router) :
    ∃ router', e.router? r = some router' ∧ router'.id = router.id ∧
      router'.route = router.route ∧ router'.detached = router.detached := by
  obtain ⟨router', hr', hcore⟩ := exists_of_map_eq (f.routers r).symm hr
  exact ⟨router', hr', congrArg (·.id) hcore, congrArg (·.route) hcore,
    congrArg (·.detached) hcore⟩

theorem Framed.known (f : e.Framed e') (hk : e.Known r) : e'.Known r := by
  rcases hk with hl | ⟨router, hr, hd⟩
  · exact .inl ((f.linked_iff r).2 hl)
  · obtain ⟨router', hr', -, -, hd'⟩ := f.router_kept hr
    exact .inr ⟨router', hr', hd'.trans hd⟩

theorem Framed.extends (f : e.Framed e') (commands : ∀ c command, e.command? c = some command →
    ∃ command', e'.command? c = some command' ∧ command'.made = command.made ∧
      ∀ tag, command'.listener = .callback tag → command.listener = .callback tag) :
    e.Extends e' where
  routers r router hr := by
    obtain ⟨router', hr', hid, hroute, hd⟩ := f.router_kept hr
    exact ⟨router', hr', hid, hroute, fun h => hd.trans h⟩
  known r := f.known
  commands := commands

theorem Spared.kept (s : e.Spared e' c) (hc : e.command? c = some command) :
    ∃ command', e'.command? c = some command' ∧ command'.substance = command.substance :=
  exists_of_map_eq s.substance hc

theorem Spared.was (s : e.Spared e' c) (hc : e'.command? c = some command) :
    ∃ command', e.command? c = some command' ∧ command'.substance = command.substance :=
  exists_of_map_eq s.substance.symm hc

theorem Spared.trans (s : e.Spared e' c) (s' : e'.Spared e'' c) : e.Spared e'' c where
  substance := s'.substance.trans s.substance
  ending command ending hc he := by
    obtain ⟨command', hc', he'⟩ := s'.ending command ending hc he
    exact s.ending command' ending hc' he'

theorem Spared.extends (s : e.Spared e' c) (hc : e.command? c = some command) :
    ∃ command', e'.command? c = some command' ∧ command'.made = command.made ∧
      ∀ tag, command'.listener = .callback tag → command.listener = .callback tag := by
  obtain ⟨command', hc', hs⟩ := s.kept hc
  refine ⟨command', hc', Command.made_of_substance hs, fun tag h => ?_⟩
  rw [← h]
  exact (congrArg (·.listener) hs).symm

theorem Alike.extends (a : e.Alike e') : e.Extends e' :=
  a.toFramed.extends fun c _ hc => (a.commands c).extends hc

theorem Changed.extends {left : Bool} (h : e.Changed e' c old new left) (hm : new.made = old.made)
    (hl : ∀ tag, new.listener = .callback tag → old.listener = .callback tag) : e.Extends e' := by
  refine h.toFramed.extends fun c' command hc => ?_
  by_cases hcc : c' = c
  · subst hcc
    rw [h.before] at hc
    cases hc
    exact ⟨new, h.after, hm, hl⟩
  · exact (h.others c' hcc).extends hc

theorem Added.command_kept (h : e.Added e' new) (hc : e.command? c = some command) :
    e'.command? c = some command := by
  unfold command? Commands.get? at hc ⊢
  rw [h.commands, List.getElem?_append_left (List.getElem?_eq_some_iff.1 hc).1, hc]

theorem Added.command_new (h : e.Added e' new) :
    e'.command? ⟨e.commands.length⟩ = some new := by
  unfold command? Commands.get?
  rw [h.commands]
  simp

theorem Added.extends (h : e.Added e' new) : e.Extends e' :=
  h.toFramed.extends fun _ command hc => ⟨command, h.command_kept hc, rfl, fun _ => id⟩

theorem Begun.extends (h : e.Begun e' r c router old) : e.Extends e' := by
  refine h.toFramed.extends fun c' command hc => ?_
  by_cases hcc : c' = c
  · subst hcc
    rw [h.before] at hc
    cases hc
    obtain ⟨new, hc', hs, -⟩ := h.after
    refine ⟨new, hc', (Command.made_of_substance hs).trans rfl, fun tag hl => ?_⟩
    rw [← hl]
    exact (congrArg (·.listener) hs).symm
  · exact (h.others c' hcc).extends hc

theorem Joined.router_kept {route : Route} {linked : Bool} (h : e.Joined e' route linked)
    (hr : e.router? r = some router) : e'.router? r = some router := by
  unfold router? at hr ⊢
  rw [h.routers, List.getElem?_append_left (List.getElem?_eq_some_iff.1 hr).1, hr]

theorem Joined.extends {route : Route} {linked : Bool} (h : e.Joined e' route linked)
    (hs : e.Stored) : e.Extends e' where
  routers r router hr := ⟨router, h.router_kept hr, rfl, rfl, id⟩
  known r hk := by
    rcases hk with ⟨id, hid⟩ | ⟨router, hr, hd⟩
    · rw [RouterTree.get?_eq_place] at hid
      obtain ⟨⟨value, route, parent⟩, he, rfl⟩ := Option.map_eq_some_iff.1 hid
      refine .inl ⟨id, ?_⟩
      obtain ⟨hv, router, hr, -⟩ := hs.places id value route parent he
      rw [RouterTree.get?_eq_place, h.places id, he]
      · rfl
      · rintro rfl
        have := lt_of_router? hr
        rw [hv] at this
        exact Nat.lt_irrefl _ this
    · exact .inr ⟨router, h.router_kept hr, hd⟩
  commands c command hc := by
    refine ⟨command, ?_, rfl, fun _ => id⟩
    unfold command? at hc ⊢
    rw [h.commands, hc]

theorem Parted.router_kept (h : e.Parted e' r) (hr : e.router? r' = some router) :
    ∃ router', e'.router? r' = some router' ∧ router'.id = router.id ∧
      router'.route = router.route ∧
      router'.detached = if r = r' then true else router.detached := by
  have hm := h.routers r'
  rw [hr, Option.map_some] at hm
  obtain ⟨router', hr', hcore⟩ := Option.map_eq_some_iff.1 hm
  have hid := congrArg (·.id) hcore
  have hroute := congrArg (·.route) hcore
  have hdet := congrArg (·.detached) hcore
  refine ⟨router', hr', ?_, ?_, ?_⟩ <;> split at hid <;> simp_all [Router.core]

theorem Parted.extends (h : e.Parted e' r) (hs : e.Stored) : e.Extends e' where
  routers r' router hr := by
    obtain ⟨router', hr', hid, hroute, hd⟩ := h.router_kept hr
    refine ⟨router', hr', hid, hroute, fun hdet => ?_⟩
    rw [hd]
    split
    · rfl
    · exact hdet
  known r' hk := by
    rcases hk with ⟨id, hid⟩ | ⟨router, hr, hd⟩
    · rw [RouterTree.get?_eq_place] at hid
      obtain ⟨⟨value, route, parent⟩, he, rfl⟩ := Option.map_eq_some_iff.1 hid
      rcases h.places id with same | ⟨rfl, -⟩
      · refine .inl ⟨id, ?_⟩
        rw [RouterTree.get?_eq_place, same, he]
        rfl
      · obtain ⟨hv, router, hr, -⟩ := hs.places _ value route parent he
        obtain ⟨router', hr', -, -, hd⟩ := h.router_kept hr
        refine .inr ⟨router', hr', ?_⟩
        rw [hd, if_pos]
        rw [hv]
    · obtain ⟨router', hr', -, -, hd'⟩ := h.router_kept hr
      refine .inr ⟨router', hr', ?_⟩
      rw [hd', hd]
      simp
  commands c command hc := by
    refine ⟨command, ?_, rfl, fun _ => id⟩
    unfold command? at hc ⊢
    rw [h.commands, hc]

/-! ## What is stored stays sound -/

theorem length_routers_of (h : ∀ r, (e'.router? r).isSome = (e.router? r).isSome) :
    e'.routers.length = e.routers.length := by
  have lt (e : Engine) (n : Nat) : (e.router? ⟨n⟩).isSome = decide (n < e.routers.length) := by
    unfold router?
    rw [Bool.eq_iff_iff]
    simp
  have h1 := h ⟨e.routers.length⟩
  have h2 := h ⟨e'.routers.length⟩
  rw [lt, lt] at h1 h2
  simp only [decide_eq_decide] at h1 h2
  omega

/-- A command is in the queue of its own router only. -/
theorem Stored.eq_of_mem (h : e.Stored) (hc : c ∈ (e.queue r).members)
    (hc' : c ∈ (e.queue r').members) : r = r' := by
  obtain ⟨command, hg, ⟨hn, -⟩, -⟩ := h.members r c hc
  obtain ⟨command', hg', ⟨hn', -⟩, -⟩ := h.members r' c hc'
  rw [hg] at hg'
  cases hg'
  rw [hn] at hn'
  exact ref_eq_iff.2 (NodeId.mk.inj hn')

theorem queued_of_slot (h : (e.queue r).slot = some c) : e.Queued c :=
  ⟨r, Queue.mem_members.2 (.inl h)⟩

theorem Stored.lt_of_queued (h : e.Stored) (hq : e.Queued c) : c.index < e.commands.length := by
  obtain ⟨r, hc⟩ := hq
  obtain ⟨command, hg, -⟩ := h.members r c hc
  exact Commands.lt_of_get? hg

theorem Waits.of_substance (h : e.Waits r c) (x : e.Extends e') (hc : e.command? c = some old)
    (hc' : e'.command? c = some new) (hs : new.substance = old.substance) : e'.Waits r c := by
  obtain ⟨command, hg, ho, hcomplete, hpoll⟩ := h
  rw [hc] at hg
  cases hg
  refine ⟨new, hc', x.owns ho (Command.made_of_substance hs), ?_, ?_⟩
  · rw [← hcomplete]
    exact congrArg (·.isComplete) hs
  · rw [← hpoll]
    exact congrArg (·.pollComplete) hs

theorem Waits.of_spared (h : e.Waits r c) (x : e.Extends e') (s : e.Spared e' c) :
    e'.Waits r c := by
  have ⟨command, hg, _⟩ := h
  obtain ⟨command', hg', hs⟩ := s.kept hg
  exact h.of_substance x hg hg' hs

theorem Framed.stored (f : e.Framed e') (h : e.Stored)
    (members : ∀ r, ∀ c ∈ (e'.queue r).members, e'.Waits r c) : e'.Stored where
  tree := f.tree
  nextId := by
    rw [f.nextId, h.nextId]
    refine (length_routers_of fun r => ?_).symm
    have := congrArg Option.isSome (f.routers r)
    simpa using this
  ids r router hr := by
    obtain ⟨router', hr', hid, -⟩ := f.router_was hr
    exact hid ▸ h.ids r router' hr'
  places id value route parent he := by
    rw [f.places] at he
    obtain ⟨hv, router, hr, hroute⟩ := h.places id value route parent he
    obtain ⟨router', hr', -, hroute', -⟩ := f.router_kept hr
    exact ⟨hv, router', hr', hroute'.trans hroute⟩
  orderly := f.orderly
  members := members

theorem Stored.of_alike (h : e.Stored) (a : e.Alike e') : e'.Stored :=
  a.toFramed.stored h fun r c hc =>
    Waits.of_spared (h.members r c (a.members r ▸ hc)) a.extends (a.commands c)

/-- A changed command that stays in its queue must not have ended. -/
theorem Stored.of_changed {left : Bool} (h : e.Stored) (a : e.Changed e' c old new left)
    (x : e.Extends e') (stays : left = false → new.made = old.made ∧ new.isComplete = false ∧
      new.pollComplete = false) : e'.Stored := by
  refine a.toFramed.stored h fun r c' hc => ?_
  rw [a.members] at hc
  have was : c' ∈ (e.queue r).members := by
    split at hc
    · exact List.mem_of_mem_erase hc
    · exact hc
  by_cases hcc : c' = c
  · subst hcc
    cases left with
    | true => exact absurd rfl ((h.orderly r).nodup.mem_erase_iff.1 hc).1
    | false =>
      obtain ⟨hm, hcomplete, hpoll⟩ := stays rfl
      obtain ⟨command, hg, ho, -⟩ := h.members r c' was
      rw [a.before] at hg
      cases hg
      exact ⟨new, a.after, x.owns ho hm, hcomplete, hpoll⟩
  · exact Waits.of_spared (h.members r c' was) x (a.others c' hcc)

theorem Stored.of_added (h : e.Stored) (a : e.Added e' new) : e'.Stored := by
  refine a.toFramed.stored h fun r c hc => ?_
  obtain ⟨command, hg, hrest⟩ := h.members r c (a.members r ▸ hc)
  exact Waits.of_substance ⟨command, hg, hrest⟩ a.extends hg (a.command_kept hg) rfl

theorem Stored.of_begun (h : e.Stored) (a : e.Begun e' r c router old) (ho : e.Owns r old) :
    e'.Stored := by
  refine a.toFramed.stored h fun r' c' hc => ?_
  rw [a.members] at hc
  by_cases hcc : c' = c
  · subst hcc
    obtain ⟨new, hg, hs, -⟩ := a.after
    have hr : r' = r := by
      split at hc
      · rename_i hrr
        exact hrr.1.symm
      · obtain ⟨command, hg, ⟨hn, -⟩, -⟩ := h.members r' c' hc
        rw [a.before] at hg
        cases hg
        exact ref_eq_iff.2 (NodeId.mk.inj (hn.symm.trans ho.1))
    subst hr
    refine ⟨new, hg, a.extends.owns ho ((Command.made_of_substance hs).trans rfl), ?_, ?_⟩
    · have : new.isComplete = (old.beginAttempt router.begun).isComplete :=
        congrArg (·.isComplete) hs
      rw [this]
      rfl
    · have : new.pollComplete = (old.beginAttempt router.begun).pollComplete :=
        congrArg (·.pollComplete) hs
      rw [this]
      rfl
  · have was : c' ∈ (e.queue r').members := by
      split at hc
      · rcases List.mem_append.1 hc with hc | hc
        · exact hc
        · exact absurd (List.mem_singleton.1 hc) hcc
      · exact hc
    exact Waits.of_spared (h.members r' c' was) a.extends (a.others c' hcc)

theorem Joined.router_was {route : Route} {linked : Bool} (a : e.Joined e' route linked)
    (hr : e'.router? r = some router) :
    e.router? r = some router ∨
      r = ⟨e.routers.length⟩ ∧ router = { id := ⟨e.routers.length⟩, route := route } := by
  unfold router? at hr ⊢
  rw [a.routers, List.getElem?_append] at hr
  split at hr
  · exact .inl hr
  · rename_i hlt
    rw [List.getElem?_singleton] at hr
    split at hr
    · cases hr
      refine .inr ⟨ref_eq_iff.2 ?_, rfl⟩
      show r.index = e.routers.length
      omega
    · cases hr

theorem Joined.queue {route : Route} {linked : Bool} (a : e.Joined e' route linked)
    (r : RouterRef) : e'.queue r = e.queue r := by
  cases hr' : e'.router? r with
  | none =>
    cases hr : e.router? r with
    | none =>
      unfold Engine.queue
      rw [hr, hr']
    | some router =>
      rw [a.router_kept hr] at hr'
      cases hr'
  | some router =>
    rcases a.router_was hr' with hr | ⟨rfl, rfl⟩
    · rw [queue_of_router? hr, queue_of_router? hr']
    · rw [queue_of_router? hr']
      unfold Engine.queue router?
      simp

theorem Stored.of_joined {route : Route} {linked : Bool} (h : e.Stored)
    (a : e.Joined e' route linked) : e'.Stored where
  tree := a.tree
  nextId := by
    rw [a.nextId, h.nextId, a.routers]
    simp
  ids r router hr := by
    rcases a.router_was hr with hr | ⟨rfl, rfl⟩
    · exact h.ids r router hr
    · rfl
  places id value route' parent he := by
    by_cases hid : id = ⟨e.routers.length⟩
    · subst hid
      rcases a.place with ⟨hnone, -⟩ | ⟨parent', hsome, -⟩
      · rw [hnone] at he
        cases he
      · rw [hsome] at he
        cases he
        refine ⟨rfl, { id := ⟨e.routers.length⟩, route := route }, ?_, rfl⟩
        unfold router?
        rw [a.routers]
        simp
    · rw [a.places id hid] at he
      obtain ⟨hv, router, hr, hroute⟩ := h.places id value route' parent he
      exact ⟨hv, router, a.router_kept hr, hroute⟩
  orderly r := by
    rw [a.queue, a.commands]
    exact h.orderly r
  members r c hc := by
    rw [a.queue] at hc
    obtain ⟨command, hg, hrest⟩ := h.members r c hc
    refine Waits.of_substance ⟨command, hg, hrest⟩ (a.extends h) hg ?_ rfl
    unfold command? at hg ⊢
    rw [a.commands, hg]

theorem Stored.of_parted (h : e.Stored) (a : e.Parted e' r) : e'.Stored where
  tree := a.tree
  nextId := by
    rw [a.nextId, h.nextId]
    refine (length_routers_of fun r' => ?_).symm
    have := congrArg Option.isSome (a.routers r')
    simpa using this
  ids r' router hr := by
    have hsome : (e.router? r').isSome := by
      have := congrArg Option.isSome (a.routers r')
      rw [hr] at this
      simpa using this.symm
    obtain ⟨router', hr'⟩ := Option.isSome_iff_exists.1 hsome
    obtain ⟨router'', hr'', hid, -⟩ := a.router_kept hr'
    rw [hr] at hr''
    cases hr''
    rw [hid]
    exact h.ids r' router' hr'
  places id value route parent he := by
    rcases a.places id with same | ⟨-, hnone⟩
    · rw [same] at he
      obtain ⟨hv, router, hr, hroute⟩ := h.places id value route parent he
      obtain ⟨router', hr', -, hroute', -⟩ := a.router_kept hr
      exact ⟨hv, router', hr', hroute'.trans hroute⟩
    · rw [hnone] at he
      cases he
  orderly r' := by
    rw [a.queues, a.commands]
    exact h.orderly r'
  members r' c hc := by
    rw [a.queues] at hc
    obtain ⟨command, hg, hrest⟩ := h.members r' c hc
    refine Waits.of_substance ⟨command, hg, hrest⟩ (a.extends h) hg ?_ rfl
    unfold command? at hg ⊢
    rw [a.commands, hg]

end Engine

end RouterFabric
