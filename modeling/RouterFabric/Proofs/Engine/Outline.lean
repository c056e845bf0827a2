import RouterFabric.Proofs.Engine.Sound

/-!
# The outline of an engine

Most sections of an engine deal with queues, commands and signals, and neither the tree nor the
programs under way take any notice. The outline of an engine is what these sections leave alone: the
settings, the tree, what is known of each router, the number of the next command, and the tasks of
programs with the commands that wait for a frame.

* `Engine.outline` : what of an engine does not depend on queues and signals
* `outline_launch`, `outline_complete`, … : the sections that leave the outline as it is
* `Engine.Redrawn`, `Sound.redrawn` : what a move does to the outline
-/

namespace RouterFabric

/-- Whether the task is that of a program, or a transfer of one that waits for its frame. -/
def Task.isScript : Task → Bool
  | .perform _ _ => true
  | .resume _ _ => true
  | .allocate _ _ _ => true
  | _ => false

/-- What of an engine does not depend on queues and signals. -/
structure Outline where
  settings : Settings
  tree : RouterTree RouterRef
  /-- what is known of each router there ever was -/
  identities : List (Option Identity)
  nextCommand : Nat
  /-- the tasks of programs, and the transfers that wait for a frame -/
  scripts : List Task

/-- A tree out of which routers have been taken, one after the other. -/
inductive RouterTree.Pruned {α : Type} : RouterTree α → RouterTree α → Prop
  | none (t : RouterTree α) : Pruned t t
  | next {t t' t'' : RouterTree α} {id : NodeId} {value : α} : t.remove id = .ok (value, t') →
      Pruned t' t'' → Pruned t t''

namespace Engine

def outline (e : Engine) : Outline where
  settings := e.topology.settings
  tree := e.topology.tree
  identities := e.routers.map Router.identity
  nextCommand := e.topology.nextCommand
  scripts := e.stack.filter Task.isScript

variable {e e' : Engine} {m : Move} {r : RouterRef} {router : Router} {c : CommandRef}
  {command : Command} {w : Waiter} {t : Task} {tasks below : List Task}

/-! ## Parts of sections -/

theorem outline_push (e : Engine) (h : ∀ t ∈ tasks, t.isScript = false) :
    (e.push tasks).outline = e.outline := by
  have hnone : tasks.filter Task.isScript = [] := by
    rw [List.filter_eq_nil_iff]
    intro t ht
    rw [h t ht]
    exact Bool.false_ne_true
  show Outline.mk _ _ _ _ ((tasks ++ e.stack).filter Task.isScript) = _
  rw [List.filter_append, hnone, List.nil_append]
  rfl

theorem outline_pop (hs : e.stack = t :: below) (ht : t.isScript = false) :
    ({ e with stack := below } : Engine).outline = e.outline := by
  have hpushed : (({ e with stack := below } : Engine).push [t]).outline = _ :=
    outline_push { e with stack := below } (by simpa using ht)
  rw [← hpushed]
  show _ = Outline.mk _ _ _ _ (e.stack.filter Task.isScript)
  rw [hs]
  rfl

/-- What becomes of what is known, when one router changes. -/
theorem identities_updateRouter (e : Engine) (r : RouterRef) {f : Router → Router}
    {g : Option Identity → Option Identity}
    (hf : ∀ router, (f router).identity = g router.identity) :
    (e.updateRouter r f).outline =
      { e.outline with identities := e.outline.identities.modify r.index g } := by
  show Outline.mk _ _ ((e.routers.modify r.index f).map Router.identity) _ _ = _
  rw [map_modify hf]
  rfl

theorem outline_updateRouter (e : Engine) (r : RouterRef) {f : Router → Router}
    (hf : ∀ router, (f router).identity = router.identity) :
    (e.updateRouter r f).outline = e.outline := by
  rw [e.identities_updateRouter r (g := id) hf, List.modify_id]

theorem outline_count (e : Engine) (r : RouterRef) (f : Statistics → Statistics) :
    (e.count r f).outline = e.outline :=
  outline_updateRouter e r fun _ => rfl

theorem outline_setLine (e : Engine) (r : RouterRef) (line : Queue × Commands) :
    (e.setLine r line).outline = e.outline :=
  outline_updateRouter e r fun _ => rfl

theorem outline_finish (e : Engine) (c : CommandRef) (ending : Ending) :
    (e.finish c ending).outline = e.outline := by
  unfold finish
  split
  · rfl
  · simp only
    split
    · refine (outline_push _ ?_).trans rfl
      simp [Task.isScript]
    · rfl

/-! ## Sections that leave the outline alone -/

theorem outline_launch (e : Engine) (r : RouterRef) (c : CommandRef) {next : List Task}
    (hnext : ∀ t ∈ next, t.isScript = false) : (e.launch r c next).outline = e.outline := by
  unfold launch
  split
  · rfl
  · rename_i router _
    have begun : (e.updateRouter r fun router =>
        { router with begun := router.begun + 1 }).outline = e.outline :=
      outline_updateRouter e r fun _ => rfl
    simp only
    split
    · refine (outline_push _ ?_).trans begun
      simp [Task.isScript]
    · refine (outline_push _ ?_).trans ((outline_setLine _ r _).trans begun)
      intro t ht
      rcases List.mem_cons.1 ht with rfl | ht
      · rfl
      · exact hnext t ht

theorem outline_complete (e : Engine) (r : RouterRef) (c : CommandRef) (generation : Nat)
    (ending : Ending) : (e.complete r c generation ending).outline = e.outline := by
  unfold complete
  split
  · rfl
  · rename_i router _
    split
    · exact outline_count e r _
    · rename_i queue _
      have freed : ((e.setQueue r queue).count r fun stats =>
          { stats with completed := stats.completed + 1 }).outline = e.outline :=
        (outline_count _ r _).trans (outline_updateRouter e r fun _ => rfl)
      refine (outline_finish _ c ending).trans ((outline_push _ ?_).trans freed)
      simp [Task.isScript]

theorem outline_settle? (hs : e.settle? w = some e') : e'.outline = e.outline := by
  unfold settle? at hs
  split at hs
  · cases hs
  · split at hs
    · split at hs
      · cases hs
        exact outline_push e (by simp [Task.isScript])
      · cases hs
    · split at hs
      · simp only at hs
        split at hs
        all_goals
          cases hs
          exact (outline_push _ (by simp [Task.isScript])).trans rfl
      · cases hs

theorem outline_retry (e : Engine) (w : Waiter) : (e.retry w).outline = e.outline := by
  unfold retry
  split
  · exact outline_push e (by simp [Task.isScript])
  · exact outline_launch e _ _ (by simp [Task.isScript])
  · exact outline_launch e _ _ (by simp [Task.isScript])

theorem isScript_afterTimeout (w : Waiter) : ∀ t ∈ afterTimeout w, t.isScript = false := by
  unfold afterTimeout
  split <;> simp [Task.isScript]

theorem outline_withdraw (e : Engine) (w : Waiter) : (e.withdraw w).outline = e.outline := by
  unfold withdraw
  split
  · rfl
  · split
    · exact outline_push e (by simp [Task.isScript])
    · rename_i queue _
      generalize queue.expire e.commands e.topology.settings.timeoutMs e.now = x
      obtain ⟨expired, line⟩ := x
      have freed : ((e.setLine w.router line).count w.router fun stats =>
          { stats with timeouts := stats.timeouts + 1 }).outline = e.outline :=
        (outline_count _ _ _).trans (outline_setLine e _ line)
      refine (outline_push _ (List.forall_mem_append.2 ⟨?_, isScript_afterTimeout w⟩)).trans freed
      exact List.forall_mem_append.2
        ⟨List.forall_mem_map.2 fun _ _ => rfl, by simp [Task.isScript]⟩

theorem outline_drain (e : Engine) (r : RouterRef) : (e.drain r).outline = e.outline := by
  rw [drain_eq]
  split
  · rfl
  · split
    · rfl
    · refine (outline_push _ ?_).trans (outline_setLine e r _)
      simp [Task.isScript]

theorem outline_answerOffer (e : Engine) (r : RouterRef) (c : CommandRef)
    (answer : Except TransportFault Unit) : (e.answerOffer r c answer).outline = e.outline := by
  have requeued (q : Queue) : (e.setQueue r q).outline = e.outline :=
    outline_updateRouter e r fun _ => rfl
  rw [answerOffer_eq]
  split
  · rfl
  · rename_i router _
    split
    · refine (outline_push _ ?_).trans ((outline_count _ r _).trans (requeued _))
      simp [Task.isScript]
    · generalize router.queue.defer e.commands c = x
      obtain ⟨_, line⟩ := x
      have deferred (t : Topology) (id : NodeId) :
          (t.defer id).settings = t.settings ∧ (t.defer id).tree = t.tree ∧
            (t.defer id).nextCommand = t.nextCommand := by
        unfold Topology.defer
        split <;> exact ⟨rfl, rfl, rfl⟩
      have counted : ((e.setLine r line).count r fun stats =>
          { stats with busyDeferrals := stats.busyDeferrals + 1 }).outline = e.outline :=
        (outline_count _ r _).trans (outline_setLine e r line)
      refine Eq.trans ?_ counted
      obtain ⟨hsettings, htree, hnext⟩ := deferred
        ((e.setLine r line).count r fun stats =>
          { stats with busyDeferrals := stats.busyDeferrals + 1 }).topology router.id
      simp only [outline, hsettings, htree, hnext]
    · split
      · exact outline_push e (by simp [Task.isScript])
      · rename_i queue _
        simp only
        split
        · refine (outline_finish _ c _).trans ((outline_push _ ?_).trans (requeued queue))
          simp [Task.isScript]
        · refine (outline_push _ ?_).trans (requeued queue)
          simp [Task.isScript]

theorem outline_kick (e : Engine) : e.kick.outline = e.outline :=
  (outline_push _ (by simp [Task.isScript])).trans rfl

theorem outline_drainFirst (e : Engine) (ids : List NodeId) :
    (e.drainFirst ids).outline = e.outline := by
  cases ids with
  | nil => rfl
  | cons id rest =>
    exact outline_push e (List.forall_mem_append.2
      ⟨List.forall_mem_map.2 fun _ _ => rfl, List.forall_mem_singleton.2 rfl⟩)

theorem outline_begin (e : Engine) (r : RouterRef) (command : Command) (style : Style) :
    (e.begin r command style).outline = e.outline := by
  cases style with
  | waiting watching => exact (outline_push _ (by simp [Task.isScript])).trans rfl
  | callback tag => exact (outline_launch _ r _ (by simp [Task.isScript])).trans rfl
  | future => exact (outline_launch _ r _ (by simp [Task.isScript])).trans rfl

theorem outline_heard {arrival : Arrival} (k : e.Heard arrival e') : e'.outline = e.outline := by
  have signalled (r : RouterRef) (c : CommandRef) (generation : Nat) (which : Signal)
      (words : Option (List UInt32)) : (e.signal r c generation which words).outline =
        e.outline := by
    unfold signal
    simp only
    split
    · exact (outline_complete _ r c generation _).trans rfl
    · rfl
  cases k with
  | ignored => rfl
  | discarded r => exact outline_count e r _
  | sent hslot => exact signalled _ _ _ _ _
  | answered hn hh hread hroute hslot hseq => exact signalled _ _ _ _ _
  | interrupted event hslot =>
    simp only
    split
    · exact (outline_complete _ _ _ _ _).trans rfl
    · rfl
  | plugged event => exact outline_push e (by simp [Task.isScript])

theorem outline_receive (e : Engine) (arrival : Arrival) :
    (e.receive arrival).outline = e.outline :=
  (outline_heard (e.heard_receive arrival)).trans (outline_push e (by simp [Task.isScript]))

theorem outline_expireEach (e : Engine) (rs : List RouterRef) :
    (e.expireEach rs).2.outline = e.outline := by
  induction rs generalizing e with
  | nil => rfl
  | cons r rest ih =>
    unfold expireEach
    split
    · exact ih e
    · rename_i router _
      generalize router.queue.expire e.commands e.topology.settings.timeoutMs e.now = x
      obtain ⟨expired, line⟩ := x
      exact (ih (e.setLine r line)).trans (outline_setLine e r line)

/-! ## Sections that change the tree -/

/-- Marking and removing routers takes some of them out of the tree. -/
theorem outline_removeEach (e : Engine) (pairs : List (NodeId × RouterRef)) :
    ∃ tree, e.topology.tree.Pruned tree ∧
      (e.removeEach pairs).2.outline = { e.outline with tree := tree } := by
  induction pairs generalizing e with
  | nil => exact ⟨_, .none _, rfl⟩
  | cons pair rest ih =>
    have marked : (e.updateRouter pair.2 fun router =>
        { router with detached := true }).outline = e.outline :=
      outline_updateRouter e pair.2 fun _ => rfl
    unfold removeEach
    simp only
    split
    · exact ⟨_, .none _, marked⟩
    · rename_i tree hremove
      obtain ⟨last, pruned, hlast⟩ := ih { e.updateRouter pair.2 (fun router =>
        { router with detached := true }) with topology := { e.topology with tree := tree } }
      refine ⟨last, .next hremove pruned, hlast.trans ?_⟩
      rw [← marked]
      rfl

theorem outline_detach (e : Engine) (r : RouterRef) :
    ∃ tree, e.topology.tree.Pruned tree ∧
      (e.detach r).outline = { e.outline with tree := tree } := by
  unfold detach
  simp only
  generalize ((e.router? r).map fun router => e.topology.tree.subtree router.id).getD [] = ids
  split
  · exact ⟨_, .none _, outline_push e (by simp [Task.isScript])⟩
  · generalize ids.filterMap e.topology.tree.get? = routers
    have freed := outline_expireEach e routers
    generalize e.expireEach routers = x at freed ⊢
    obtain ⟨expired, freeing⟩ := x
    have removed : ∃ tree, e.topology.tree.Pruned tree ∧
        (freeing.removeSubtree ids routers).2.outline = { e.outline with tree := tree } := by
      have htree : freeing.topology.tree = e.topology.tree := congrArg Outline.tree freed
      unfold removeSubtree
      split
      · exact ⟨_, .none _, freed⟩
      · obtain ⟨tree, pruned, hremoved⟩ := freeing.outline_removeEach (ids.zip routers)
        refine ⟨tree, htree ▸ pruned, ?_⟩
        rw [hremoved, show freeing.outline = e.outline from freed]
    obtain ⟨tree, pruned, hremoved⟩ := removed
    generalize freeing.removeSubtree ids routers = y at hremoved ⊢
    obtain ⟨result, rest⟩ := y
    refine ⟨tree, pruned, (outline_push _ (List.forall_mem_append.2 ⟨List.forall_mem_append.2
      ⟨List.forall_mem_map.2 fun _ _ => rfl, ?_⟩, by simp [Task.isScript]⟩)).trans hremoved⟩
    split
    · exact List.forall_mem_nil _
    · exact List.forall_mem_append.2
        ⟨List.forall_mem_map.2 fun _ _ => rfl, List.forall_mem_singleton.2 rfl⟩

/-! ## Moves -/

/-- The stack with other tasks. -/
def restacked (e : Engine) (tasks : List Task) : Engine :=
  { e with stack := tasks }

/-- The command that a transfer is made into. -/
def commandFor (e : Engine) (router : Router) (t : Transfer) (address : Address) : Command where
  id := ⟨e.topology.nextCommand⟩
  node := router.id
  route := router.route
  kind := t.kind
  address := address
  payload := t.payload

/-- What a move does to the outline. -/
inductive Redrawn (e : Engine) : Move → Engine → Prop
  | kept {m : Move} {e' : Engine} : e'.outline = e.outline → Redrawn e m e'
  /-- a program has come to its end -/
  | concluded {m : Move} {e' : Engine} {r : RouterRef} {result : Outcome Answer}
      {below : List Task} : e.stack = .perform r (.done result) :: below →
      e'.outline = (e.restacked below).outline → Redrawn e m e'
  /-- a program has asked for something that changes nothing here, or for a transfer in vain -/
  | asked {m : Move} {e' : Engine} {r : RouterRef} {request : Request}
      {next : Reply → Program Request Answer} {below : List Task} {number : Nat} :
      e.stack = .perform r (.ask request next) :: below →
      (∀ identity, request ≠ .enrol identity) → request ≠ .unlink →
      e.topology.nextCommand ≤ number →
      e'.outline = { (e.restacked (.resume r next :: below)).outline with nextCommand := number } →
      Redrawn e m e'
  /-- a transfer waits for its frame -/
  | issued {e' : Engine} {r : RouterRef} {t : Transfer} {style : Style}
      {next : Reply → Program Request Answer} {below : List Task} {router : Router}
      {address : Address} : e.stack = .perform r (.ask (.transfer t style) next) :: below →
      e.router? r = some router → router.detached = false → t.address = .ok address →
      e'.outline = { (e.restacked (.allocate r (e.commandFor router t address) style ::
        .resume r next :: below)).outline with nextCommand := e.topology.nextCommand + 1 } →
      Redrawn e .proceed e'
  | enrolled {m : Move} {e' : Engine} {r : RouterRef} {identity : Identity}
      {next : Reply → Program Request Answer} {below : List Task} {router : Router}
      {tree : RouterTree RouterRef} : e.stack = .perform r (.ask (.enrol identity) next) :: below →
      e.router? r = some router →
      e.topology.tree.setAdapterCount router.id identity.maxAdapter = .ok tree →
      e'.outline = { (e.restacked (.resume r next :: below)).outline with
        tree := tree
        identities := e.outline.identities.modify r.index
          fun known => known.orElse fun _ => some identity } →
      Redrawn e m e'
  | unenrolled {m : Move} {e' : Engine} {r : RouterRef} {identity : Identity}
      {next : Reply → Program Request Answer} {below : List Task} {router : Router}
      {failure : Failure} : e.stack = .perform r (.ask (.enrol identity) next) :: below →
      e.router? r = some router →
      e.topology.tree.setAdapterCount router.id identity.maxAdapter = .error failure →
      e'.outline = (e.restacked (.resume r next :: below)).outline → Redrawn e m e'
  | unlinked {m : Move} {e' : Engine} {r : RouterRef}
      {next : Reply → Program Request Answer} {below : List Task} {router : Router}
      {value : RouterRef} {tree : RouterTree RouterRef} :
      e.stack = .perform r (.ask .unlink next) :: below → e.router? r = some router →
      e.topology.tree.remove router.id = .ok (value, tree) →
      e'.outline = { (e.restacked (.resume r next :: below)).outline with tree := tree } →
      Redrawn e m e'
  | stuck {m : Move} {e' : Engine} {r : RouterRef} {next : Reply → Program Request Answer}
      {below : List Task} {router : Router} {failure : Failure} :
      e.stack = .perform r (.ask .unlink next) :: below → e.router? r = some router →
      e.topology.tree.remove router.id = .error failure →
      e'.outline = (e.restacked (.resume r next :: below)).outline → Redrawn e m e'
  /-- a program goes on with a reply -/
  | resumed {m : Move} {e' : Engine} {r : RouterRef} {next : Reply → Program Request Answer}
      {reply : Reply} {below : List Task} : e.stack = .reply reply :: .resume r next :: below →
      e'.outline = (e.restacked (.perform r (next reply) :: below)).outline → Redrawn e m e'
  /-- a transfer waits for its frame no longer -/
  | framed {m : Move} {e' : Engine} {r : RouterRef} {command : Command} {style : Style}
      {below : List Task} : e.stack = .allocate r command style :: below →
      e'.outline = (e.restacked below).outline → Redrawn e m e'
  | operated {e' : Engine} {r : RouterRef} {operation : Operation} {router : Router} :
      e.router? r = some router →
      e'.outline = (e.restacked (.perform r
        (operation.program e.topology.settings router) :: e.stack)).outline →
      Redrawn e (.call (.operate r operation)) e'
  /-- a router is added that finds no place in the tree -/
  | unplaced {m : Move} {e' : Engine} :
      e'.outline = { e.outline with
        tree := e.topology.tree.allocateId.2
        identities := e.outline.identities ++ [none] } →
      Redrawn e m e'
  /-- the host router is added -/
  | rooted {m : Move} {e' : Engine} {below : List Task} {tree : RouterTree RouterRef} :
      e.stack = .register :: below →
      e.topology.tree.allocateId.2.insertRoot e.topology.tree.allocateId.1
        ⟨e.routers.length⟩ = .ok tree →
      e'.outline = { (e.restacked (.perform ⟨e.routers.length⟩ (do
          Procedure.discover e.topology.settings Route.root
          return .router ⟨e.routers.length⟩) :: below)).outline with
        tree := tree
        identities := e.outline.identities ++ [none] } →
      Redrawn e m e'
  /-- a router is added below another one -/
  | placed {m : Move} {e' : Engine} {parent : NodeId} {route : Route}
      {tree : RouterTree RouterRef} :
      e.topology.tree.allocateId.2.insert parent e.topology.tree.allocateId.1 route
        ⟨e.routers.length⟩ = .ok tree →
      e'.outline = { (e.restacked (.perform ⟨e.routers.length⟩ (do
          Procedure.discover e.topology.settings route
          return .router ⟨e.routers.length⟩) :: e.stack)).outline with
        tree := tree
        identities := e.outline.identities ++ [none] } →
      Redrawn e m e'
  | pruned {m : Move} {e' : Engine} {tree : RouterTree RouterRef} :
      e.topology.tree.Pruned tree → e'.outline = { e.outline with tree := tree } → Redrawn e m e'

section requests

variable (hr : e.router? r = some router)

include hr in
/-- A transfer is refused, or its command waits for a frame. -/
theorem outline_issue (t : Transfer) (style : Style) :
    (∃ number, e.topology.nextCommand ≤ number ∧
        (e.issue r t style).outline = { e.outline with nextCommand := number }) ∨
      ∃ address, t.address = .ok address ∧ router.detached = false ∧
        (e.issue r t style).outline =
          { (e.push [.allocate r (e.commandFor router t address) style]).outline with
            nextCommand := e.topology.nextCommand + 1 } := by
  have refused (rest : Engine) (failure : Failure) :
      (rest.push [.reply (.error failure)]).outline = rest.outline :=
    outline_push rest (by simp [Task.isScript])
  unfold issue
  rw [hr]
  split
  · exact .inl ⟨_, Nat.le_refl _, refused e _⟩
  · rename_i address haddress
    simp only
    split
    · exact .inl ⟨_, Nat.le_refl _, refused e _⟩
    · rename_i hattached
      split
      · exact .inl ⟨_, Nat.le_refl _, refused e _⟩
      · split
        · exact .inl ⟨_, Nat.le_succ _, (refused _ _).trans rfl⟩
        · exact .inr ⟨address, haddress, by simpa using hattached, rfl⟩

include hr in
theorem outline_enrol (identity : Identity) :
    (∃ failure, e.topology.tree.setAdapterCount router.id identity.maxAdapter = .error failure ∧
        (e.enrol r identity).outline = e.outline) ∨
      ∃ tree, e.topology.tree.setAdapterCount router.id identity.maxAdapter = .ok tree ∧
        (e.enrol r identity).outline = { e.outline with
          tree := tree
          identities := e.outline.identities.modify r.index
            fun known => known.orElse fun _ => some identity } := by
  unfold enrol
  rw [hr]
  simp only
  split
  · rename_i failure hfail
    exact .inl ⟨failure, hfail, outline_push e (by simp [Task.isScript])⟩
  · rename_i tree htree
    refine .inr ⟨tree, htree, (outline_push _ (by simp [Task.isScript])).trans ?_⟩
    have known := e.identities_updateRouter r (f := fun router =>
      { router with identity := router.identity.orElse fun _ => some identity })
      (g := fun known => known.orElse fun _ => some identity) fun _ => rfl
    exact congrArg (fun outline : Outline => { outline with tree := tree }) known

include hr in
theorem outline_unlink :
    (∃ failure, e.topology.tree.remove router.id = .error failure ∧
        (e.unlink r).outline = e.outline) ∨
      ∃ value tree, e.topology.tree.remove router.id = .ok (value, tree) ∧
        (e.unlink r).outline = { e.outline with tree := tree } := by
  have marked : (e.updateRouter r fun router => { router with detached := true }).outline =
      e.outline := outline_updateRouter e r fun _ => rfl
  unfold unlink
  rw [hr]
  simp only
  cases hremove : e.topology.tree.remove router.id with
  | error failure =>
    refine .inl ⟨failure, rfl, (outline_push _ (by simp [Task.isScript])).trans ?_⟩
    rw [← marked, show (e.updateRouter r _).topology.tree.remove router.id = _ from hremove]
  | ok removed =>
    refine .inr ⟨removed.1, removed.2, rfl, (outline_push _ (by simp [Task.isScript])).trans ?_⟩
    rw [← marked, show (e.updateRouter r _).topology.tree.remove router.id = _ from hremove]
    rfl

end requests

/-- A program has asked for something. -/
theorem redrawn_asked {request : Request} {next : Reply → Program Request Answer}
    (hs : e.stack = .perform r (.ask request next) :: below) (hr : e.router? r = some router) :
    Redrawn e .proceed ((({ e with stack := below } : Engine).push [.resume r next]).meet r
      request) := by
  have hr' : (({ e with stack := below } : Engine).push [.resume r next]).router? r =
      some router := hr
  cases request with
  | transfer t style =>
    rcases outline_issue hr' t style with ⟨number, hle, h⟩ | ⟨address, haddress, hattached, h⟩
    · exact .asked hs nofun nofun hle h
    · exact .issued hs hr hattached haddress h
  | pause ms =>
    refine .asked hs nofun nofun (Nat.le_refl _) ?_
    exact outline_push _ (by simp [Task.isScript])
  | fallAsleep =>
    refine .asked hs nofun nofun (Nat.le_refl _) ?_
    exact (outline_push _ (by simp [Task.isScript])).trans (outline_updateRouter _ r fun _ => rfl)
  | enrol identity =>
    rcases outline_enrol hr' identity with ⟨failure, hfail, h⟩ | ⟨tree, htree, h⟩
    · exact .unenrolled hs hr hfail h
    · exact .enrolled hs hr htree h
  | unlink =>
    rcases outline_unlink hr' with ⟨failure, hfail, h⟩ | ⟨value, tree, hremove, h⟩
    · exact .stuck hs hr hfail h
    · exact .unlinked hs hr hremove h

theorem outline_addRouter (e : Engine) (id : NodeId) (route : Route) :
    (e.addRouter id route).2.outline =
      { e.outline with identities := e.outline.identities ++ [none] } := by
  show Outline.mk _ _ ((e.routers ++ [_]).map Router.identity) _ _ = _
  rw [List.map_append]
  rfl

theorem redrawn_linkRoot (hs : e.stack = .register :: below) :
    Redrawn e m ({ e with stack := below } : Engine).linkRoot := by
  have popped := outline_pop hs rfl
  have added := ({ e with stack := below } : Engine).outline_addRouter
    e.topology.tree.allocateId.1 Route.root
  unfold linkRoot
  simp only
  split
  · refine .unplaced ((outline_push _ (by simp [Task.isScript])).trans ?_)
    rw [← popped]
    exact congrArg (fun outline : Outline =>
      { outline with tree := e.topology.tree.allocateId.2 }) added
  · rename_i tree hroot
    refine .rooted hs hroot ?_
    show Outline.mk _ _ ((e.routers ++ [_]).map Router.identity) _ _ = _
    rw [List.map_append]
    rfl

theorem redrawn_attachChild (e : Engine) (parent : RouterRef) (route : Route) :
    Redrawn e m (e.attachChild parent route) := by
  unfold attachChild
  split
  · exact .kept (outline_push e (by simp [Task.isScript]))
  · rename_i above _
    have added := e.outline_addRouter e.topology.tree.allocateId.1 route
    simp only
    split
    · refine .unplaced ((outline_push _ (by simp [Task.isScript])).trans ?_)
      exact congrArg (fun outline : Outline =>
        { outline with tree := e.topology.tree.allocateId.2 }) added
    · rename_i tree hinsert
      refine .placed hinsert ?_
      show Outline.mk _ _ ((e.routers ++ [_]).map Router.identity) _ _ = _
      rw [List.map_append]
      rfl

/-- **What every move does to the outline.** -/
theorem Sound.redrawn (h : e.Sound) (ha : ∀ call, m = .call call → e.Allows call)
    (hm : e.move? m = some e') : Redrawn e m e' := by
  have script {t : Task} {below : List Task} {last : Engine} (hs : e.stack = t :: below)
      (ht : t.isScript = false)
      (hlast : last.outline = ({ e with stack := below } : Engine).outline) : Redrawn e m last :=
    .kept (hlast.trans (outline_pop hs ht))
  cases acts_of_move? hm with
  | dropped hs drops =>
    refine script hs ?_ rfl
    cases drops <;> rfl
  | concluded hs =>
    exact .concluded hs (outline_push _ (by simp [Task.isScript]))
  | asked hs =>
    obtain ⟨hknown, -⟩ := h.tasks _ (hs ▸ List.mem_cons_self)
    obtain ⟨router, hr⟩ := router_of_known h.toStored hknown
    exact redrawn_asked hs hr
  | @replied reply below hs =>
    unfold passOn
    simp only
    split
    · exact .resumed hs rfl
    · exact script hs rfl rfl
  | retried hs => exact script hs rfl (outline_retry _ _)
  | watched hs => exact script hs rfl (outline_push _ (by simp [Task.isScript]))
  | settled hs hw hsettle =>
    refine script hs ?_ (outline_settle? hsettle)
    rcases hw with rfl | ⟨deadline, rfl⟩ <;> rfl
  | drained hs => exact script hs rfl (outline_drain _ _)
  | kicked hs => exact script hs rfl (outline_kick _)
  | toured hs => exact script hs rfl (outline_drainFirst _ _)
  | expired hs =>
    refine script hs rfl ((outline_finish _ _ _).trans ((outline_push _ ?_).trans
      (outline_count _ _ _)))
    simp [Task.isScript]
  | announced hs => exact script hs rfl rfl
  | framed hs => exact .framed hs (outline_begin _ _ _ _)
  | unframed hs => exact .framed hs (outline_push _ (by simp [Task.isScript]))
  | answered hs => exact script hs rfl (outline_answerOffer _ _ _ _)
  | registered hs => exact redrawn_linkRoot hs
  | unregistered hs => exact script hs rfl (outline_push _ (by simp [Task.isScript]))
  | acknowledging hs => exact script hs rfl (outline_push _ (by simp [Task.isScript]))
  | acknowledged hs => exact script hs rfl rfl
  | gaveUp hs => exact script hs rfl (outline_withdraw _ _)
  | collected hs => exact script hs rfl rfl
  | called call =>
    cases call with
    | attachRoot settings => cases ha _ rfl
    | attachChild parent route => exact redrawn_attachChild e parent route
    | detach r =>
      obtain ⟨tree, pruned, hdetach⟩ := e.outline_detach r
      exact .pruned pruned hdetach
    | resume r =>
      refine .kept ?_
      show (e.resume r).outline = e.outline
      unfold resume
      split
      · exact outline_push e (by simp [Task.isScript])
      · split
        · exact outline_push e (by simp [Task.isScript])
        · exact (outline_push _ (by simp [Task.isScript])).trans
            (outline_updateRouter e r fun _ => rfl)
    | operate r operation =>
      show Redrawn e _ (e.operate r operation)
      unfold operate
      split
      · exact .kept (outline_push e (by simp [Task.isScript]))
      · rename_i router hr
        exact .operated hr rfl
  | received arrival => exact .kept (outline_receive e arrival)
  | elapsed ms => exact .kept rfl

end Engine

end RouterFabric
