import RouterFabric.Proofs.Calls
import RouterFabric.Proofs.Engine.Outline
import RouterFabric.Proofs.Tree.Lookup
import RouterFabric.Proofs.Tree.Tables

/-!
# What is known of attached routers

A router is linked first and discovered afterwards, and meanwhile other calls may attach and detach
routers as they like. The program of a discovery comes to enrol its router or to unlink it, whatever
the transport answers; so as long as nothing is known of a linked router, the program is still on
the stack, and once no call is in progress, every router has been enrolled.

* `Identity.Matches` : what discovery has checked
* `Program.Settles` : a program that enrols or unlinks its router before it ends
* `RouterTree.Charted` : tables and identities fit, in a tree whose routers hang where they should
* `Outline.Explored` : the tree is charted, and each discovery is under way that is not done
* `Run.explored`, `Run.attached` : both at any time, and with no call in progress
-/

namespace RouterFabric

/-! ## What discovery checks -/

/-- An identity fits the place of its router and keeps to the settings. -/
structure Identity.Matches (identity : Identity) (settings : Settings) (route : Route) : Prop where
  depth : identity.depth = route.depth
  allowed : identity.maxAdapter ≤ settings.maxAdapters
  /-- the registers have six bits for it -/
  coded : identity.maxAdapter ≤ 63

/-- An identity that the request enrols matches. -/
def Request.Matches (settings : Settings) (route : Route) (request : Request) : Prop :=
  ∀ identity, request = .enrol identity → identity.Matches settings route

/-- Whatever the replies are, the program comes to enrol or to unlink its router. -/
def Program.Settles {α : Type} : Program Request α → Prop
  | .done _ => False
  | .ask request next =>
    (∃ identity, request = .enrol identity) ∨ request = .unlink ∨ ∀ reply, (next reply).Settles

theorem Program.Settles.bind {α β : Type} {p : Program Request α} (h : p.Settles)
    (f : α → Program Request β) : (p >>= f).Settles := by
  induction p with
  | done result => exact h.elim
  | ask request next ih =>
    rcases h with henrol | hunlink | hnext
    · exact .inl henrol
    · exact .inr (.inl hunlink)
    · exact .inr (.inr fun reply => ih reply (hnext reply))

namespace Procedure

open Program

variable {settings : Settings} {route : Route} {words : List UInt32} {identity : Identity}

theorem matches_of_identify (h : identify settings route words = .ok identity) :
    identity.Matches settings route := by
  unfold identify at h
  split at h
  · cases h
  · rename_i basic hbasic
    split at h
    · rename_i hdepth
      cases h
      have hcoded : basic.maxAdapter < 64 := by
        unfold BasicRegisters.ofWords? at hbasic
        split at hbasic
        · cases hbasic
          exact BitField.get_lt _ _
        · cases hbasic
      refine ⟨hdepth, Nat.min_le_right _ _, ?_⟩
      show min basic.maxAdapter settings.maxAdapters ≤ 63
      omega
    · cases h

theorem matching_discover (settings : Settings) (route : Route) :
    (discover settings route).Asks (Request.Matches settings route) := by
  refine Asks.recover ?_ fun failure => (asks_request nofun).bind fun _ => asks_fail _
  refine (asks_request nofun).bind fun words => ?_
  cases hidentify : identify settings route words with
  | error failure => exact asks_fail failure
  | ok identity =>
    refine (asks_request ?_).bind fun _ => asks_pure _
    intro identity' heq
    cases heq
    exact matches_of_identify hidentify

theorem settles_unlinkAfter (failure : Failure) : (unlinkAfter failure).Settles :=
  .inr (.inl rfl)

theorem settles_discover (settings : Settings) (route : Route) :
    (discover settings route).Settles := by
  refine .inr (.inr fun reply => ?_)
  cases reply with
  | error failure => exact settles_unlinkAfter failure
  | ok words =>
    show ((ofOutcome (identify settings route words) >>= fun identity =>
      Program.request (.enrol identity) >>= fun _ => pure ()).recover unlinkAfter).Settles
    cases identify settings route words with
    | error failure => exact settles_unlinkAfter failure
    | ok identity => exact .inl ⟨identity, rfl⟩

end Procedure

/-- No operation enrols a router. -/
theorem Operation.matching_program (settings : Settings) (router : Router) (operation : Operation)
    (route : Route) :
    (operation.program settings router).Asks (Request.Matches settings route) := by
  by_cases h : ∃ t style, operation = .transfer t style
  · obtain ⟨t, style, rfl⟩ := h
    exact (Program.asks_request nofun).bind fun _ => Program.asks_pure _
  · refine (Operation.simple_program settings router ?_).mono fun request simple => ?_
    · intro t style heq
      exact h ⟨t, style, heq⟩
    · intro identity heq
      cases simple <;> cases heq

/-! ## Charted trees -/

namespace RouterTree

variable {α : Type} {t t' : RouterTree α} {settings : Settings}
  {known known' : NodeId → Option Identity} {id parent : NodeId} {value : α} {route : Route}
  {identity : Identity}

/-- A rooted tree in which the routers of which nothing is known have no tables, and the others
have tables and identities that match. -/
structure Charted (t : RouterTree α) (settings : Settings) (known : NodeId → Option Identity) :
    Prop extends Rooted t where
  routes : ∀ id route, t.route? id = some route → route.validate = .ok ()
  bare : ∀ id, known id = none → t.room? id = none
  enrolled : ∀ id route identity, t.route? id = some route → known id = some identity →
    identity.Matches settings route ∧ t.room? id = some (identity.maxAdapter + 1)

theorem charted_empty (settings : Settings) (known : NodeId → Option Identity) :
    ({} : RouterTree α).Charted settings known where
  toRooted := rooted_empty
  routes _ _ h := by cases h
  bare _ _ := rfl
  enrolled _ _ _ h := by cases h

theorem Charted.allocateId (h : t.Charted settings known) :
    t.allocateId.2.Charted settings known where
  toRooted := h.toRooted.allocateId
  routes := h.routes
  bare := h.bare
  enrolled := h.enrolled

/-- A router that has just been linked has no table yet. -/
theorem Charted.linked (h : t.Charted settings known) (hrooted : t'.Rooted)
    (hroom : ∀ id', t'.room? id' = t.room? id')
    (hroute : ∀ id', t'.route? id' = if id = id' then some route else t.route? id')
    (hvalid : route.validate = .ok ()) (hnew : known id = none) : t'.Charted settings known where
  toRooted := hrooted
  routes id' route' hr := by
    rw [hroute] at hr
    split at hr
    · cases hr
      exact hvalid
    · exact h.routes id' route' hr
  bare id' hk := by
    rw [hroom]
    exact h.bare id' hk
  enrolled id' route' identity hr hk := by
    rw [hroute] at hr
    rw [hroom]
    split at hr
    · rename_i heq
      rw [← heq, hnew] at hk
      cases hk
    · exact h.enrolled id' route' identity hr hk

theorem Charted.insertRoot (h : t.Charted settings known) (hid : t.node? id = none)
    (hlt : id.number < t.nextId) (hnew : known id = none)
    (hi : t.insertRoot id value = .ok t') : t'.Charted settings known :=
  h.linked (h.toRooted.insertRoot hid hlt hi) (room?_insertRoot hid hi)
    (route?_insertRoot h.toSound hid hlt hi) rfl hnew

theorem Charted.insert (h : t.Charted settings known) (hid : t.node? id = none)
    (hlt : id.number < t.nextId) (hnew : known id = none)
    (hi : t.insert parent id route value = .ok t') : t'.Charted settings known :=
  h.linked (h.toRooted.insert hid hlt hi) (room?_insert hid hi)
    (route?_insert h.toSound hid hlt hi) (validate_of_insert hi) hnew

/-- Nothing is known yet of a router that is given its table. -/
theorem Charted.unknown (h : t.Charted settings known) {maxAdapter : Nat}
    (hs : t.setAdapterCount id maxAdapter = .ok t') : known id = none := by
  cases hk : known id with
  | none => rfl
  | some identity =>
    obtain ⟨route, hr⟩ := exists_of_setAdapterCount hs
    obtain ⟨-, hroom⟩ := h.enrolled id route identity hr hk
    rw [(room?_setAdapterCount hs).1] at hroom
    cases hroom

theorem Charted.enrol (h : t.Charted settings known)
    (hs : t.setAdapterCount id identity.maxAdapter = .ok t')
    (hmatches : ∀ route, t.route? id = some route → identity.Matches settings route)
    (hknown : ∀ id', known' id' = if id = id' then some identity else known id') :
    t'.Charted settings known' where
  toRooted := h.toRooted.setAdapterCount hs
  routes id' route hr := by
    rw [route?_setAdapterCount h.toSound hs] at hr
    exact h.routes id' route hr
  bare id' hk := by
    rw [hknown] at hk
    rw [(room?_setAdapterCount hs).2]
    split at hk
    · cases hk
    · rename_i hne
      rw [if_neg hne]
      exact h.bare id' hk
  enrolled id' route identity' hr hk := by
    rw [hknown] at hk
    rw [route?_setAdapterCount h.toSound hs] at hr
    rw [(room?_setAdapterCount hs).2]
    split at hk
    · rename_i heq
      subst heq
      cases hk
      rw [if_pos rfl]
      exact ⟨hmatches route hr, rfl⟩
    · rename_i hne
      rw [if_neg hne]
      exact h.enrolled id' route identity' hr hk

theorem Charted.remove (h : t.Charted settings known) (hr : t.remove id = .ok (value, t')) :
    t'.Charted settings known where
  toRooted := h.toRooted.remove hr
  routes id' route hroute := by
    rw [route?_remove h.toSound hr] at hroute
    split at hroute
    · cases hroute
    · exact h.routes id' route hroute
  bare id' hk := by
    rw [room?_remove hr]
    split
    · rfl
    · exact h.bare id' hk
  enrolled id' route identity hroute hk := by
    rw [route?_remove h.toSound hr] at hroute
    rw [room?_remove hr]
    split at hroute
    · cases hroute
    · rename_i hne
      rw [if_neg hne]
      exact h.enrolled id' route identity hroute hk

/-- Taking routers out leaves the others where they were. -/
theorem Charted.pruned (h : t.Charted settings known) (hp : t.Pruned t') :
    t'.Charted settings known ∧
      ∀ id route, t'.route? id = some route → t.route? id = some route := by
  induction hp with
  | none t => exact ⟨h, fun _ _ hr => hr⟩
  | next hremove _ ih =>
    obtain ⟨charted, hroutes⟩ := ih (h.remove hremove)
    refine ⟨charted, fun id route hr => ?_⟩
    have hbefore := hroutes id route hr
    rw [route?_remove h.toSound hremove] at hbefore
    split at hbefore
    · cases hbefore
    · exact hbefore

end RouterTree

/-! ## Discoveries under way -/

/-- The identities that the task comes to enrol match its router, as long as that is linked. -/
def Task.Matches (settings : Settings) (tree : RouterTree RouterRef) : Task → Prop
  | .perform r program => ∀ route, tree.route? ⟨r.index⟩ = some route →
      program.Asks (Request.Matches settings route)
  | .resume r next => ∀ route, tree.route? ⟨r.index⟩ = some route →
      ∀ reply, (next reply).Asks (Request.Matches settings route)
  | _ => True

/-- The task is on its way to enrol or to unlink the router. -/
def Task.Explores (r : RouterRef) : Task → Prop
  | .perform r' program => r' = r ∧ program.Settles
  | .resume r' next => r' = r ∧ ∀ reply, (next reply).Settles
  | _ => False

theorem Task.Matches.mono {settings : Settings} {tree tree' : RouterTree RouterRef} {t : Task}
    (h : t.Matches settings tree) (hroutes : ∀ r ∈ t.routers, ∀ route,
      tree'.route? ⟨r.index⟩ = some route → tree.route? ⟨r.index⟩ = some route) :
    t.Matches settings tree' := by
  cases t with
  | perform r program => exact fun route hr => h route (hroutes r List.mem_cons_self route hr)
  | resume r next => exact fun route hr => h route (hroutes r List.mem_cons_self route hr)
  | _ => trivial

theorem Task.Explores.isScript {r : RouterRef} {t : Task} (h : t.Explores r) :
    t.isScript = true := by
  cases t <;> first | rfl | cases h

namespace Outline

variable {o : Outline} {settings : Settings} {top : Task}

/-- What is known of the router with this id. -/
def identity? (o : Outline) (id : NodeId) : Option Identity :=
  o.identities[id.number]?.join

theorem identity?_added (o : Outline) (id : NodeId) :
    (o.identities ++ [none])[id.number]?.join = o.identity? id := by
  unfold identity?
  rcases Nat.lt_trichotomy id.number o.identities.length with hlt | heq | hlt
  · rw [List.getElem?_append_left hlt]
  · rw [heq, List.getElem?_concat_length, List.getElem?_eq_none (Nat.le_refl _)]
    rfl
  · rw [List.getElem?_eq_none (Nat.le_of_lt hlt), List.getElem?_eq_none]
    rw [List.length_append]
    exact hlt

theorem identity?_fresh (o : Outline) : o.identity? ⟨o.identities.length⟩ = none := by
  unfold identity?
  rw [List.getElem?_eq_none (Nat.le_refl _)]
  rfl

/-- The tree is charted, and for every linked router of which nothing is known yet, the discovery
is under way. -/
structure Explored (settings : Settings) (o : Outline) : Prop where
  settings_eq : o.settings = settings
  charted : o.tree.Charted settings o.identity?
  matching : ∀ t ∈ o.scripts, t.Matches settings o.tree
  discovery : ∀ id route, o.tree.route? id = some route → o.identity? id = none →
    ∃ t ∈ o.scripts, t.Explores ⟨id.number⟩

/-- A task may make way for others, if they go on with the discovery that is under way in it. -/
theorem Explored.replaced (h : o.Explored settings) (tops below : List Task) (number : Nat)
    (hscripts : o.scripts = (top :: below).filter Task.isScript)
    (hmatches : ∀ t ∈ tops, t.Matches settings o.tree)
    (hexplores : ∀ id route, o.tree.route? id = some route → o.identity? id = none →
      top.Explores ⟨id.number⟩ → ∃ t ∈ tops, t.Explores ⟨id.number⟩) :
    Explored settings
      { o with scripts := (tops ++ below).filter Task.isScript, nextCommand := number } where
  settings_eq := h.settings_eq
  charted := h.charted
  matching t ht := by
    obtain ⟨ht, hscript⟩ := List.mem_filter.1 ht
    rcases List.mem_append.1 ht with ht | ht
    · exact hmatches t ht
    · apply h.matching t
      rw [hscripts]
      exact List.mem_filter.2 ⟨List.mem_cons_of_mem top ht, hscript⟩
  discovery id route hr hk := by
    obtain ⟨t, ht, hexplore⟩ := h.discovery id route hr hk
    rw [hscripts] at ht
    obtain ⟨ht, hscript⟩ := List.mem_filter.1 ht
    rcases List.mem_cons.1 ht with rfl | ht
    · obtain ⟨t', ht', hexplore'⟩ := hexplores id route hr hk hexplore
      exact ⟨t', List.mem_filter.2 ⟨List.mem_append_left below ht', hexplore'.isScript⟩, hexplore'⟩
    · exact ⟨t, List.mem_filter.2 ⟨List.mem_append_right tops ht, hscript⟩, hexplore⟩

/-- A program has asked for something, and goes on with its discovery when that comes back, unless
it has come to the end of it. -/
theorem Explored.asked (h : o.Explored settings) {r : RouterRef} {request : Request}
    {next : Reply → Program Request Answer} (extra below : List Task) (number : Nat)
    (hscripts : o.scripts = (.perform r (.ask request next) :: below).filter Task.isScript)
    (hextra : ∀ t ∈ extra, t.Matches settings o.tree)
    (hlasts : ∀ route, o.tree.route? ⟨r.index⟩ = some route → o.identity? ⟨r.index⟩ = none →
      (∀ identity, request ≠ .enrol identity) ∧ request ≠ .unlink) :
    Explored settings { o with
      scripts := (extra ++ .resume r next :: below).filter Task.isScript
      nextCommand := number } := by
  have htop := h.matching (.perform r (.ask request next)) (hscripts ▸ List.mem_cons_self)
  rw [List.append_cons]
  refine h.replaced (extra ++ [Task.resume r next]) below number hscripts ?_ ?_
  · intro t ht
    rcases List.mem_append.1 ht with ht | ht
    · exact hextra t ht
    · rw [List.mem_singleton.1 ht]
      exact fun route hr => (htop route hr).2
  · rintro id route hr hk ⟨rfl, hsettles⟩
    obtain ⟨henrol, hunlink⟩ := hlasts route hr hk
    refine ⟨_, List.mem_append_right _ (List.mem_singleton_self _), rfl, ?_⟩
    rcases hsettles with ⟨identity, heq⟩ | heq | hnext
    · exact absurd heq (henrol identity)
    · exact absurd heq hunlink
    · exact hnext

theorem Explored.pruned (h : o.Explored settings) {tree : RouterTree RouterRef}
    (hp : o.tree.Pruned tree) : Explored settings { o with tree := tree } := by
  obtain ⟨charted, hroutes⟩ := h.charted.pruned hp
  refine ⟨h.settings_eq, charted, fun t ht => ?_, fun id route hr hk => ?_⟩
  · exact (h.matching t ht).mono fun r _ route hr => hroutes _ route hr
  · exact h.discovery id route (hroutes id route hr) hk

/-- What is known, once one more router is known. -/
theorem identity?_enrolled (o : Outline) {id : NodeId} (hlt : id.number < o.identities.length)
    (hknown : o.identity? id = none) (identity : Identity) (id' : NodeId) :
    (o.identities.modify id.number fun known => known.orElse fun _ => some identity)[
      id'.number]?.join = if id = id' then some identity else o.identity? id' := by
  unfold identity? at *
  rw [List.getElem?_modify]
  by_cases heq : id = id'
  · subst heq
    rw [if_pos rfl, List.getElem?_eq_getElem hlt] at *
    rw [Option.join_some] at hknown
    simp [hknown]
  · have hnumber : id.number ≠ id'.number := fun hnumber => heq (congrArg NodeId.mk hnumber)
    simp [heq, hnumber]

theorem Explored.enrolled (h : o.Explored settings) {id : NodeId} {identity : Identity}
    {tree : RouterTree RouterRef} (hlt : id.number < o.identities.length)
    (hs : o.tree.setAdapterCount id identity.maxAdapter = .ok tree)
    (hmatches : ∀ route, o.tree.route? id = some route → identity.Matches settings route) :
    Explored settings { o with
      tree := tree
      identities := o.identities.modify id.number
        fun known => known.orElse fun _ => some identity } := by
  have hknown := o.identity?_enrolled hlt (h.charted.unknown hs) identity
  have hroutes := RouterTree.route?_setAdapterCount h.charted.toSound hs
  refine ⟨h.settings_eq, h.charted.enrol hs hmatches hknown, fun t ht => ?_,
    fun id' route hr hk => ?_⟩
  · exact (h.matching t ht).mono fun r _ route hr => hroutes _ ▸ hr
  · have hk' := (hknown id').symm.trans hk
    split at hk'
    · cases hk'
    · exact h.discovery id' route (hroutes id' ▸ hr) hk'

/-- A router that finds no place in the tree stays unknown. -/
theorem Explored.unplaced (h : o.Explored settings) : Explored settings { o with
    tree := o.tree.allocateId.2
    identities := o.identities ++ [none] } := by
  have hknown : ∀ id, identity? { o with identities := o.identities ++ [none] } id =
      o.identity? id := o.identity?_added
  refine ⟨h.settings_eq, ?_, h.matching, fun id route hr hk => ?_⟩
  · show o.tree.allocateId.2.Charted settings
      (identity? { o with identities := o.identities ++ [none] })
    rw [funext hknown]
    exact h.charted.allocateId
  · exact h.discovery id route hr ((hknown id).symm.trans hk)

/-- A router that is linked comes with its discovery. -/
theorem Explored.linked (h : o.Explored settings) {tree : RouterTree RouterRef} {route : Route}
    {r : RouterRef} {program : Program Request Answer} (below : List Task)
    (hscripts : o.scripts = below.filter Task.isScript)
    (hlt : ∀ t ∈ o.scripts, ∀ r' ∈ t.routers, r'.index < r.index)
    (hcharted : tree.Charted settings o.identity?)
    (hroute : ∀ id, tree.route? id =
      if (⟨r.index⟩ : NodeId) = id then some route else o.tree.route? id)
    (hmatches : program.Asks (Request.Matches settings route)) (hsettles : program.Settles) :
    Explored settings { o with
      tree := tree
      identities := o.identities ++ [none]
      scripts := (.perform r program :: below).filter Task.isScript } := by
  rw [List.filter_cons_of_pos rfl, ← hscripts]
  have hknown : ∀ id, identity? { o with identities := o.identities ++ [none] } id =
      o.identity? id := o.identity?_added
  refine ⟨h.settings_eq, ?_, fun t ht => ?_, fun id route' hr hk => ?_⟩
  · show tree.Charted settings (identity? { o with identities := o.identities ++ [none] })
    rw [funext hknown]
    exact hcharted
  · rcases List.mem_cons.1 ht with rfl | ht
    · intro route' hr
      rw [show tree.route? _ = _ from hroute _, if_pos rfl] at hr
      cases hr
      exact hmatches
    · refine (h.matching t ht).mono fun r' hmem route' hr => ?_
      rw [show tree.route? _ = _ from hroute _, if_neg] at hr
      · exact hr
      · intro heq
        exact Nat.ne_of_gt (hlt t ht r' hmem) (congrArg NodeId.number heq)
  · rw [show tree.route? _ = _ from hroute _] at hr
    split at hr
    · rename_i heq
      exact ⟨_, List.mem_cons_self, by rw [← heq], hsettles⟩
    · obtain ⟨t, ht, hexplores⟩ := h.discovery id route' hr ((hknown id).symm.trans hk)
      exact ⟨t, List.mem_cons_of_mem _ ht, hexplores⟩

end Outline

/-! ## Moves -/

namespace Engine

variable {e e' : Engine} {m : Move} {settings : Settings}

/-- The tasks of programs work on routers that are there. -/
theorem Sound.lt_of_script (h : e.Sound) {t : Task} (ht : t ∈ e.outline.scripts) :
    ∀ r ∈ t.routers, r.index < e.routers.length := by
  obtain ⟨hmem, hscript⟩ := List.mem_filter.1 ht
  have lt_of_known (r : RouterRef) (hknown : e.Known r) :
      r.index < e.routers.length := by
    obtain ⟨router, hr⟩ := router_of_known h.toStored hknown
    exact (List.getElem?_eq_some_iff.1 hr).1
  have hsuits := (h.tasks t hmem).1
  intro r hr
  cases t with
  | perform r' program | resume r' program =>
    rw [List.mem_singleton.1 hr]
    exact lt_of_known r' hsuits
  | allocate r' command style =>
    rw [List.mem_singleton.1 hr]
    exact lt_of_known r' hsuits.1
  | _ => cases hscript

/-- What the next router needs in order to find its place. -/
theorem Sound.next_router (h : e.Sound) :
    e.topology.tree.allocateId.1 = ⟨e.routers.length⟩ ∧
      e.topology.tree.allocateId.2.node? ⟨e.routers.length⟩ = none ∧
      e.routers.length < e.topology.tree.allocateId.2.nextId ∧
      e.outline.identity? ⟨e.routers.length⟩ = none := by
  refine ⟨congrArg NodeId.mk h.nextId, h.tree.node?_eq_none_of_fresh _ (Nat.le_of_eq h.nextId),
    ?_, ?_⟩
  · show _ < e.topology.tree.nextId + 1
    rw [h.nextId]
    exact Nat.lt_succ_self _
  · have hlength : e.outline.identities.length = e.routers.length := List.length_map ..
    rw [← hlength]
    exact e.outline.identity?_fresh

/-- **No move loses a discovery.** -/
theorem Redrawn.explored (h : e.outline.Explored settings) (hs : e.Sound) (k : Redrawn e m e') :
    e'.outline.Explored settings := by
  have filtered {stack : List Task} (hst : e.stack = stack) :
      e.outline.scripts = stack.filter Task.isScript := congrArg (List.filter Task.isScript) hst
  obtain rfl : e.topology.settings = settings := h.settings_eq
  obtain ⟨hnext, hfresh, hnumber, hunknown⟩ := hs.next_router
  have hlt : ∀ t ∈ e.outline.scripts, ∀ r ∈ t.routers, r.index < e.routers.length := fun t ht =>
    hs.lt_of_script ht
  have hmatching (route : Route) : (do
      Procedure.discover e.topology.settings route
      return Answer.router ⟨e.routers.length⟩ : Program Request Answer).Asks
        (Request.Matches e.topology.settings route) :=
    (Procedure.matching_discover _ route).bind fun _ => Program.asks_pure _
  have hsettling (route : Route) : (do
      Procedure.discover e.topology.settings route
      return Answer.router ⟨e.routers.length⟩ : Program Request Answer).Settles :=
    (Procedure.settles_discover _ route).bind _
  cases k with
  | kept ho =>
    rw [ho]
    exact h
  | @concluded _ _ r result below hst ho =>
    rw [ho]
    refine h.replaced [] below e.topology.nextCommand (filtered hst) (List.forall_mem_nil _) ?_
    intro id route _ _ hexplores
    exact hexplores.2.elim
  | asked hst henrol hunlink _ ho =>
    rw [ho]
    exact h.asked [] _ _ (filtered hst) (List.forall_mem_nil _) fun _ _ _ => ⟨henrol, hunlink⟩
  | @issued _ r t style next below router address hst _ _ _ ho =>
    rw [ho]
    refine h.asked [.allocate r (e.commandFor router t address) style] below _ (filtered hst)
      (List.forall_mem_singleton.2 trivial) fun _ _ _ => ⟨nofun, nofun⟩
  | @enrolled _ _ r identity next below router tree hst hr htree ho =>
    rw [ho]
    have hold : r.index < e.outline.identities.length := by
      show _ < (e.routers.map Router.identity).length
      rw [List.length_map]
      exact (List.getElem?_eq_some_iff.1 hr).1
    have hmatches := h.matching (.perform r (.ask (.enrol identity) next))
      (filtered hst ▸ List.mem_cons_self)
    rw [hs.ids r router hr] at htree
    have enrolled := h.enrolled hold htree fun route hroute =>
      (hmatches route hroute).1 identity rfl
    refine enrolled.asked [] below e.topology.nextCommand (filtered hst) (List.forall_mem_nil _) ?_
    -- the router is known from now on
    intro route _ hk
    have hknown := e.outline.identity?_enrolled hold (h.charted.unknown htree) identity ⟨r.index⟩
    rw [if_pos rfl] at hknown
    cases hknown.symm.trans hk
  | @unenrolled _ _ r identity next below router failure hst hr hfail ho =>
    rw [ho]
    rw [hs.ids r router hr] at hfail
    refine h.asked [] below e.topology.nextCommand (filtered hst) (List.forall_mem_nil _) ?_
    intro route hroute hk
    have habsent := RouterTree.of_setAdapterCount_error hfail (h.charted.bare _ hk)
    cases (RouterTree.route?_eq_none habsent).symm.trans hroute
  | @unlinked _ _ r next below router value tree hst hr hremove ho =>
    rw [ho]
    rw [hs.ids r router hr] at hremove
    refine (h.pruned (.next hremove (.none tree))).asked [] below e.topology.nextCommand
      (filtered hst) (List.forall_mem_nil _) ?_
    intro route hroute _
    have hgone := RouterTree.route?_remove hs.tree hremove ⟨r.index⟩
    rw [if_pos rfl] at hgone
    cases hgone.symm.trans hroute
  | @stuck _ _ r next below router failure hst hr hfail ho =>
    rw [ho]
    rw [hs.ids r router hr] at hfail
    refine h.asked [] below e.topology.nextCommand (filtered hst) (List.forall_mem_nil _) ?_
    intro route hroute hk
    have habsent := RouterTree.of_remove_error hfail (h.charted.bare _ hk)
    cases (RouterTree.route?_eq_none habsent).symm.trans hroute
  | @resumed _ _ r next reply below hst ho =>
    rw [ho]
    have hscripts : e.outline.scripts = (.resume r next :: below).filter Task.isScript := by
      rw [filtered hst]
      rfl
    have hresume := h.matching (.resume r next) (hscripts ▸ List.mem_cons_self)
    refine h.replaced [.perform r (next reply)] below e.topology.nextCommand hscripts ?_ ?_
    · intro t ht
      rw [List.mem_singleton.1 ht]
      exact fun route hr => hresume route hr reply
    · intro id route _ _ hexplores
      exact ⟨_, List.mem_singleton_self _, hexplores.1, hexplores.2 reply⟩
  | @framed _ _ r command style below hst ho =>
    rw [ho]
    refine h.replaced [] below e.topology.nextCommand (filtered hst) (List.forall_mem_nil _) ?_
    intro id route _ _ hexplores
    exact hexplores.elim
  | @operated _ r operation router hr ho =>
    rw [ho]
    refine ⟨h.settings_eq, h.charted, fun t ht => ?_, fun id route hroute hk => ?_⟩
    · rcases List.mem_cons.1 ht with rfl | ht
      · exact fun route _ => operation.matching_program _ router route
      · exact h.matching t ht
    · obtain ⟨t, ht, hexplores⟩ := h.discovery id route hroute hk
      exact ⟨t, List.mem_cons_of_mem _ ht, hexplores⟩
  | unplaced ho =>
    rw [ho]
    exact h.unplaced
  | @rooted _ _ below tree hst htree ho =>
    rw [ho]
    rw [hnext] at htree
    have hscripts : e.outline.scripts = below.filter Task.isScript := by
      rw [filtered hst]
      rfl
    exact h.linked below hscripts hlt
      (h.charted.allocateId.insertRoot hfresh hnumber hunknown htree)
      (RouterTree.route?_insertRoot (t := e.outline.tree.allocateId.2) h.charted.allocateId.toSound
        hfresh hnumber htree)
      (hmatching Route.root) (hsettling Route.root)
  | @placed _ _ parent route tree htree ho =>
    rw [ho]
    rw [hnext] at htree
    exact h.linked e.stack rfl hlt (h.charted.allocateId.insert hfresh hnumber hunknown htree)
      (RouterTree.route?_insert (t := e.outline.tree.allocateId.2) h.charted.allocateId.toSound
        hfresh hnumber htree)
      (hmatching route) (hsettling route)
  | pruned hp ho =>
    rw [ho]
    exact h.pruned hp

theorem explored_opening (settings : Settings) : (opening settings).outline.Explored settings := by
  have houtline : (opening settings).outline =
      { settings := settings, tree := {}, identities := [], nextCommand := 1, scripts := [] } := by
    show (({} : Engine).attachRoot settings).outline = _
    unfold attachRoot
    split <;> rfl
  rw [houtline]
  refine ⟨rfl, RouterTree.charted_empty settings _, fun t ht => ?_, fun id route hr => ?_⟩
  · cases ht
  · cases hr

end Engine

/-! ## Runs -/

section runs

variable {settings : Settings} {turns : List Turn} {e : Engine} {id : NodeId} {route : Route}
  {identity : Identity}

/-- In every state of a run, discoveries are under way where they have to be. -/
theorem Run.explored (h : Run settings turns e) : e.outline.Explored settings := by
  induction h with
  | start => exact Engine.explored_opening settings
  | next prior ha hm ih => exact (prior.sound.redrawn ha hm).explored ih prior.sound

theorem Task.isScript_of_loose {t : Task} (h : t.isLoose = true) : t.isScript = false := by
  cases t <;> first | rfl | cases h

/-- With no call in progress, no program is under way. -/
theorem Run.scripts_of_idle (h : Run settings turns e) (hidle : openCalls settings turns = []) :
    e.outline.scripts = [] := by
  obtain ⟨standing, hstacked, hcalls⟩ := h.stacked
  rw [hidle, List.map_eq_nil_iff] at hcalls
  rw [hcalls] at hstacked
  apply List.filter_eq_nil_iff.2
  intro t ht
  rw [Task.isScript_of_loose (hstacked.loose t ht)]
  exact Bool.false_ne_true

namespace Engine

/-- A router of the tree with its identity, as discovery leaves it. -/
structure Enrolled (e : Engine) (settings : Settings) (id : NodeId) (route : Route)
    (identity : Identity) : Prop extends identity.Matches settings route where
  linked : e.topology.tree.route? id = some route
  router : ∃ router, e.router? ⟨id.number⟩ = some router ∧ router.id = id ∧ router.route = route ∧
    router.identity = some identity
  valid : route.validate = .ok ()
  deepest : route.depth ≤ Route.maxDepth
  table : ∃ table, e.topology.tree.adapters? id = some table ∧
    table.length = identity.maxAdapter + 1 ∧ table[0]? = some none

/-- What is attached is the host router, or hangs at an adapter of a router above it, and all of it
has been discovered. -/
structure Attached (e : Engine) (settings : Settings) : Prop where
  root : ∀ id, e.topology.tree.root = some id → e.topology.tree.route? id = some Route.root
  rootless : e.topology.tree.root = none → ∀ id, e.topology.tree.contains id = false
  enrolled : ∀ id, e.topology.tree.contains id = true →
    ∃ route identity, e.Enrolled settings id route identity
  below : ∀ id route identity, e.Enrolled settings id route identity →
    e.topology.tree.root ≠ some id → ∃ parent above host hop,
      e.Enrolled settings parent above host ∧ e.topology.tree.parent? id = some parent ∧
      e.topology.tree.child? parent hop.toNat = some id ∧ above.child hop = .ok route ∧
      1 ≤ hop.toNat ∧ hop.toNat ≤ host.maxAdapter ∧ identity.depth = host.depth + 1

/-- What the tree says of a router and what the router says of itself. -/
theorem Sound.router_of_route (h : e.Sound) (hr : e.topology.tree.route? id = some route) :
    ∃ router, e.router? ⟨id.number⟩ = some router ∧ router.id = id ∧ router.route = route ∧
      e.outline.identity? id = router.identity := by
  rw [RouterTree.route?_eq_place] at hr
  obtain ⟨⟨value, route', parent⟩, hplace, rfl⟩ := Option.map_eq_some_iff.1 hr
  obtain ⟨rfl, router, hrouter, hroute⟩ := h.places id value route' parent hplace
  refine ⟨router, hrouter, h.ids _ router hrouter, hroute, ?_⟩
  have hget : e.routers[id.number]? = some router := hrouter
  show ((e.routers.map Router.identity)[id.number]?).join = _
  rw [List.getElem?_map, hget]
  rfl

end Engine

/-- A router of the tree of which something is known is enrolled. -/
theorem Run.enrolled (h : Run settings turns e) (hr : e.topology.tree.route? id = some route)
    (hk : e.outline.identity? id = some identity) : e.Enrolled settings id route identity := by
  have charted : e.topology.tree.Charted settings e.outline.identity? := h.explored.charted
  obtain ⟨router, hrouter, hid, hroute, hidentity⟩ := h.sound.router_of_route hr
  have hvalid := charted.routes id route hr
  obtain ⟨hmatches, hroom⟩ := charted.enrolled id route identity hr hk
  obtain ⟨table, htable, hlength⟩ := Option.map_eq_some_iff.1 hroom
  refine { hmatches with
    linked := hr
    router := ⟨router, hrouter, hid, hroute, hidentity.symm.trans hk⟩
    valid := hvalid
    deepest := (Route.validate_eq_ok.1 hvalid).1
    table := ⟨table, htable, hlength, ?_⟩ }
  have hlt : 0 < table.length := by
    rw [hlength]
    exact Nat.succ_pos _
  rw [List.getElem?_eq_getElem hlt]
  cases hslot : table[0] with
  | none => rfl
  | some child =>
    have hchild : e.topology.tree.child? id 0 = some child := by
      rw [RouterTree.child?, htable, Option.bind_some, List.getElem?_eq_getElem hlt, hslot]
      rfl
    exact absurd rfl (charted.slot_ne_zero hchild)

/-- With no call in progress, something is known of every router of the tree. -/
theorem Run.known_of_idle (h : Run settings turns e) (hidle : openCalls settings turns = [])
    (hr : e.topology.tree.route? id = some route) :
    ∃ identity, e.outline.identity? id = some identity := by
  cases hk : e.outline.identity? id with
  | some identity => exact ⟨identity, rfl⟩
  | none =>
    obtain ⟨t, ht, -⟩ := h.explored.discovery id route hr hk
    rw [h.scripts_of_idle hidle] at ht
    cases ht

/-- A router that is enrolled, below another one that is, hangs where its route says. -/
theorem Run.hangs (h : Run settings turns e) {parent : NodeId} {above : Route} {host : Identity}
    {slot : Nat} (hhost : e.Enrolled settings parent above host)
    (hk : e.outline.identity? parent = some host)
    (henrolled : e.Enrolled settings id route identity)
    (hchild : e.topology.tree.child? parent slot = some id) :
    e.topology.tree.parent? id = some parent ∧ ∃ hop : UInt8, hop.toNat = slot ∧
      above.child hop = .ok route ∧ 1 ≤ slot ∧ slot ≤ host.maxAdapter ∧
        identity.depth = host.depth + 1 := by
  have charted : e.topology.tree.Charted settings e.outline.identity? := h.explored.charted
  obtain ⟨above', below, hop, hparent, hbelow, hslot, hhops⟩ := charted.hop _ _ _ hchild
  cases hparent.symm.trans hhost.linked
  cases hbelow.symm.trans henrolled.linked
  refine ⟨?_, hop, hslot, Route.child_of_hops henrolled.valid hhops, ?_, ?_, ?_⟩
  · obtain ⟨node, table, hn, htable, hentry⟩ := RouterTree.child?_eq_some.1 hchild
    obtain ⟨record, -, hrecord, hup, -⟩ := charted.below _ _ _ _ _ hn htable hentry
    rw [RouterTree.parent?, hrecord]
    exact hup
  · exact Nat.one_le_iff_ne_zero.2 (charted.slot_ne_zero hchild)
  · obtain ⟨room, hroom, hlt⟩ := RouterTree.lt_room?_of_child? hchild
    obtain ⟨-, hhostRoom⟩ := charted.enrolled parent above host hhost.linked hk
    rw [hroom] at hhostRoom
    cases hhostRoom
    exact Nat.le_of_lt_succ hlt
  · rw [henrolled.depth, hhost.depth, ← Route.length_hops, hhops, List.length_append,
      Route.length_hops]
    rfl

/-- At no time has a router a table, or routers below it, of which nothing is known. -/
theorem Run.bare (h : Run settings turns e) {r : RouterRef} {router : Router} (hlinked : e.Linked r)
    (hr : e.router? r = some router) (hnone : router.identity = none) :
    e.topology.tree.adapters? router.id = none ∧ e.topology.tree.children router.id = [] := by
  obtain ⟨id, hget⟩ := hlinked
  rw [RouterTree.get?_eq_place] at hget
  obtain ⟨⟨value, route, parent⟩, hplace, rfl⟩ := Option.map_eq_some_iff.1 hget
  obtain ⟨rfl, -⟩ := h.sound.places id value route parent hplace
  have hroute : e.topology.tree.route? id = some route := by
    rw [RouterTree.route?_eq_place, hplace]
    rfl
  obtain ⟨router', hrouter, hid, -, hidentity⟩ := h.sound.router_of_route hroute
  cases hrouter.symm.trans hr
  have charted : e.topology.tree.Charted settings e.outline.identity? := h.explored.charted
  have hroom := charted.bare id (hidentity.trans hnone)
  rw [hid]
  exact ⟨Option.map_eq_none_iff.1 hroom, RouterTree.children_eq_nil hroom⟩

/-- **With no call in progress, every attached router has been discovered and hangs where its route
says; and at no time has a router a table, or routers below it, of which nothing is known.** -/
theorem Run.attached (h : Run settings turns e) :
    (openCalls settings turns = [] → e.Attached settings) ∧
      ∀ r router, e.Linked r → e.router? r = some router → router.identity = none →
        e.topology.tree.adapters? router.id = none ∧ e.topology.tree.children router.id = [] := by
  have charted : e.topology.tree.Charted settings e.outline.identity? := h.explored.charted
  refine ⟨fun hidle => ?_, fun r router hlinked hr => h.bare hlinked hr⟩
  have routed : ∀ id, e.topology.tree.contains id = true →
      ∃ route, e.topology.tree.route? id = some route := by
    intro id hc
    obtain ⟨node, hn⟩ := Option.isSome_iff_exists.1 hc
    refine ⟨node.route, ?_⟩
    rw [RouterTree.route?, hn]
    rfl
  refine ⟨fun id hroot => charted.route?_root hroot, fun hroot id => ?_, fun id hc => ?_,
    fun id route identity henrolled hroot => ?_⟩
  · rw [Bool.eq_false_iff]
    intro hc
    obtain ⟨route, hr⟩ := routed id hc
    obtain ⟨root, hsome, -⟩ := charted.follow_of_route? hr
    rw [hroot] at hsome
    cases hsome
  · obtain ⟨route, hr⟩ := routed id hc
    obtain ⟨identity, hk⟩ := h.known_of_idle hidle hr
    exact ⟨route, identity, h.enrolled hr hk⟩
  · rcases charted.held id route henrolled.linked with hheld | ⟨parent, slot, hchild⟩
    · exact absurd hheld hroot
    · obtain ⟨above, -, -, habove, -⟩ := charted.hop _ _ _ hchild
      obtain ⟨host, hk⟩ := h.known_of_idle hidle habove
      have hhost := h.enrolled habove hk
      obtain ⟨hparent, hop, rfl, hrest⟩ := h.hangs hhost hk henrolled hchild
      exact ⟨parent, above, host, hop, hhost, hparent, hchild, hrest⟩

end runs

/-- The moves by which the third adapter of the host router is found to lead to a router that
answers its discovery with these words. -/
def childMoves (words : List UInt32) : List Move :=
  [.call (.attachChild ⟨0⟩ ⟨3⟩), .proceed, .grant (.ok ()), .proceed, .proceed, .grant (.ok ()),
    .proceed, .proceed, .receive (.sent (some (.command ⟨1⟩ ⟨2⟩ 1))), .collect,
    .receive (.received .read .read
      (ReadResponse.encode ⟨⟨3⟩, ⟨.router, 0, 0, Register.basicDwords, 0⟩, words⟩)),
    .proceed, .proceed, .proceed, .proceed, .collect, .proceed, .proceed, .proceed, .proceed,
    .proceed, .collect]

/-- The basic registers of a router with five adapters, one hop below the host router. -/
def childWords : List UInt32 :=
  [0x12348087, 0x00114000, 0, 0, 0, 0, 0, 0x33, 0x44]

/-- Two routers, one below the other. -/
theorem two_attached : ∃ turns e, Run {} turns e ∧ openCalls {} turns = [] ∧
    e.topology.tree.child? ⟨0⟩ 3 = some ⟨1⟩ ∧ e.Attached {} := by
  have played : (replay? {} (hostMoves hostWords ++ childMoves childWords).reverse).any
      (fun (turns, e) => decide (openCalls {} turns = []) &&
        decide (e.topology.tree.child? ⟨0⟩ 3 = some ⟨1⟩)) = true := by
    decide +kernel
  obtain ⟨turns, e, run, hcheck⟩ := exists_of_replay? played
  simp only [Bool.and_eq_true, decide_eq_true_eq] at hcheck
  exact ⟨turns, e, run, hcheck.1, hcheck.2, run.attached.1 hcheck.1⟩

end RouterFabric
