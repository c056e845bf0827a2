import RouterFabric.Proofs.Alone
import RouterFabric.Proofs.Capacity
import RouterFabric.Proofs.Tree.Subtree

/-!
# Detaching a router

A router is detached with all that is below it, or not at all. The commands below it that have held
their slots for the whole timeout end with a timeout first. If any other command is left there, the
removal is refused and everything stays attached; otherwise every router below is removed after
those below it, so that no removal fails.

* `Engine.Under`, `Engine.Overdue`, `Engine.Occupied` : routers below, and commands in the way
* `Stored.mem_expireEach`, `Stored.occupied_iff` : what is expired, and what is left
* `Stored.removeEach_all` : the routers of a subtree are removed one after the other
* `Engine.Sheds`, `Engine.Settles` : what becomes of routers and tree
* `Run.detaches` : what a detachment comes to
-/

namespace RouterFabric

open Engine

variable {settings : Settings} {turns course : List Turn} {e e' e₀ mid : Engine} {m : Move}
  {r r' : RouterRef} {router : Router} {c : CommandRef} {cs : List (RouterRef × CommandRef)}
  {top id : NodeId} {gone rest : List NodeId} {t : RouterTree RouterRef} {result : Outcome Answer}

/-- **The tree of a run is rooted.** -/
theorem Run.rooted (h : Run settings turns e) : e.topology.tree.Rooted :=
  h.explored.charted.toRooted

namespace Engine

/-! ## Below a router -/

/-- The second router is the first one, or hangs below it. -/
def Under (e : Engine) (r r' : RouterRef) : Prop :=
  e.topology.tree.Below ⟨r.index⟩ ⟨r'.index⟩

/-- The command has held the slot of the router for the whole timeout. -/
def Overdue (e : Engine) (r : RouterRef) (c : CommandRef) : Prop :=
  ∃ command, e.Holds r c command ∧ command.heldFor e.topology.settings.timeoutMs e.now = true

/-- Some router below has a command that waits, or that holds the slot for a shorter time. -/
def Occupied (e : Engine) (r : RouterRef) : Prop :=
  ∃ r', e.Under r r' ∧ ∃ c ∈ (e.queue r').members, ¬ e.Overdue r' c

/-- The routers below an attached one, as the tree lists them. -/
def below (e : Engine) (r : RouterRef) : List NodeId :=
  e.topology.tree.subtree ⟨r.index⟩

theorem Overdue.mem_members (h : e.Overdue r c) : c ∈ (e.queue r).members := by
  obtain ⟨command, hc, -⟩ := h
  exact Queue.mem_members.2 (.inl hc.1)

theorem Stored.contains_iff_linked (h : e.Stored) :
    e.topology.tree.contains ⟨r.index⟩ = true ↔ e.Linked r := by
  constructor
  · exact fun hc => ⟨⟨r.index⟩, h.get?_eq hc⟩
  · intro hl
    obtain ⟨node, hn, -⟩ := Option.map_eq_some_iff.1 (h.get?_of_linked hl)
    unfold RouterTree.contains
    rw [hn]
    rfl

theorem Stored.mem_below (h : e.Stored) (ht : e.topology.tree.Rooted) (hl : e.Linked r) :
    ⟨r'.index⟩ ∈ e.below r ↔ e.Under r r' := by
  unfold below
  rw [ht.mem_subtree, h.contains_iff_linked]
  exact and_iff_right hl

/-! ## What is expired -/

/-- What a slot loses is what is overdue there. -/
theorem Stored.expire_iff (h : e.Stored) (hr : e.router? r = some router) :
    (router.queue.expire e.commands e.topology.settings.timeoutMs e.now).1 = some c ↔
      e.Overdue r c := by
  constructor
  · intro hexpired
    rcases router.queue.expire_cases e.commands e.topology.settings.timeoutMs e.now with
      he | ⟨c', old, hs, hc, hheld, -, he⟩
    · rw [he] at hexpired
      cases hexpired
    · rw [he] at hexpired
      cases hexpired
      exact ⟨old, ⟨(queue_of_router? hr).symm ▸ hs, hc⟩, hheld⟩
  · rintro ⟨old, hc, hheld⟩
    have hopen : old.isComplete = false := h.isComplete_of_slot hc.slotOf?
    obtain ⟨hs, hget⟩ := hc
    rw [queue_of_router? hr] at hs
    have hget : e.commands.get? c = some old := hget
    simp [Queue.expire, Command.markAll, hs, hget, hheld, hopen]

/-- What happens in one slot is nothing to what holds another. -/
theorem Stored.overdue_elsewhere (h : e.Stored) (hr : e.router? r = some router) (hne : r ≠ r') :
    (e.setLine r (router.queue.expire e.commands e.topology.settings.timeoutMs e.now).2).Overdue
      r' c ↔ e.Overdue r' c := by
  refine exists_congr fun command => and_congr_left' ?_
  unfold Holds
  rw [queue_setLine hr, if_neg hne]
  refine and_congr_right fun hs => ?_
  show Commands.get? (router.queue.expire e.commands e.topology.settings.timeoutMs e.now).2.2 c =
    _ ↔ _
  rcases router.queue.expire_cases e.commands e.topology.settings.timeoutMs e.now with
    he | ⟨c', old, hs', hc', -, -, he⟩
  · rw [he]
    exact Iff.rfl
  · rw [he]
    have hother : c' ≠ c := by
      rintro rfl
      refine hne (h.eq_of_mem (c := c') ?_ (Queue.mem_members.2 (.inl hs)))
      exact Queue.mem_members.2 (.inl ((queue_of_router? hr).symm ▸ hs'))
    rw [Commands.get?_set hc', if_neg hother]
    exact Iff.rfl

/-- **What is taken out of the slots of some routers is what is overdue there.** -/
theorem Stored.mem_expireEach (h : e.Stored) {rs : List RouterRef} (hnodup : rs.Nodup) :
    (r, c) ∈ (e.expireEach rs).1 ↔ r ∈ rs ∧ e.Overdue r c := by
  induction rs generalizing e with
  | nil => simp [expireEach]
  | cons first rest ih =>
    obtain ⟨hnew, hnodup⟩ := List.nodup_cons.1 hnodup
    cases hr : e.router? first with
    | none =>
      have hnone : ¬ e.Overdue first c := by
        rintro ⟨command, ⟨hs, -⟩, -⟩
        unfold queue at hs
        rw [hr] at hs
        cases hs
      have hskip : e.expireEach (first :: rest) = e.expireEach rest := by
        rw [expireEach, hr]
      rw [hskip, ih h hnodup, List.mem_cons]
      constructor
      · rintro ⟨hmem, hover⟩
        exact ⟨.inr hmem, hover⟩
      · rintro ⟨rfl | hmem, hover⟩
        · exact absurd hover hnone
        · exact ⟨hmem, hover⟩
    | some router =>
      have hfirst := h.expire_spec hr e.topology.settings.timeoutMs e.now
      have hhead : (e.expireEach (first :: rest)).1 =
          (router.queue.expire e.commands e.topology.settings.timeoutMs e.now).1.toList.map
            (first, ·) ++ ((e.setLine first (router.queue.expire e.commands
              e.topology.settings.timeoutMs e.now).2).expireEach rest).1 := by
        rw [expireEach, hr]
      rw [hhead, List.mem_append, ih (hfirst.stored h) hnodup, List.mem_map]
      constructor
      · rintro (⟨c', hc', heq⟩ | ⟨hmem, hover⟩)
        · cases heq
          exact ⟨List.mem_cons_self, (h.expire_iff hr).1 (Option.mem_toList.1 hc')⟩
        · have hne : first ≠ r := fun heq => hnew (heq ▸ hmem)
          exact ⟨List.mem_cons_of_mem _ hmem, (h.overdue_elsewhere hr hne).1 hover⟩
      · rintro ⟨hmem, hover⟩
        rcases List.mem_cons.1 hmem with rfl | hmem
        · exact .inl ⟨c, Option.mem_toList.2 ((h.expire_iff hr).2 hover), rfl⟩
        · have hne : first ≠ r := fun heq => hnew (heq ▸ hmem)
          exact .inr ⟨hmem, (h.overdue_elsewhere hr hne).2 hover⟩

theorem Forced.cored (f : Forced e cs e') : e.Cored e' := by
  induction f with
  | none a => exact a.routers
  | skip a _ ih => exact fun r => (ih r).trans (a.routers r)
  | next _ hc _ ih => exact fun r => (ih r).trans (hc.routers r)

/-- What is left in the queues is what has not been taken out. -/
theorem Forced.mem_members (f : Forced e cs e') (h : e.Stored) :
    c ∈ (e'.queue r).members ↔ c ∈ (e.queue r).members ∧ ∀ r', (r', c) ∉ cs := by
  induction f with
  | none a => simp [a.members]
  | skip a _ ih => rw [ih (h.of_alike a), a.members]
  | @next e mid e' cs first c' old hs hc _ ih =>
    rw [ih (h.of_changed hc (hc.extends rfl fun _ => id) nofun), hc.members, if_pos rfl,
      (h.orderly r).nodup.mem_erase_iff]
    constructor
    · rintro ⟨⟨hne, hmem⟩, hrest⟩
      refine ⟨hmem, fun r' hmem' => ?_⟩
      rcases List.mem_cons.1 hmem' with heq | hmem'
      · exact hne (congrArg Prod.snd heq)
      · exact hrest r' hmem'
    · rintro ⟨hmem, hall⟩
      refine ⟨⟨?_, hmem⟩, fun r' hmem' => hall r' (List.mem_cons_of_mem _ hmem')⟩
      rintro rfl
      exact hall first List.mem_cons_self

/-! ## What is removed -/

/-- **The routers of a subtree are removed one after the other**, and no removal fails. -/
theorem Stored.removeEach_all (h : e.Stored) (ht : t.Rooted) (w : t.Without e.topology.tree gone)
    (hlist : t.subtree top = gone ++ rest) :
    ∃ e', e.removeEach (rest.map fun id => (id, ⟨id.number⟩)) = (.ok (), e') ∧
      t.Without e'.topology.tree (t.subtree top) ∧
      ∀ r, (e'.router? r).map Router.core = ((e.router? r).map Router.core).map fun core =>
        if ⟨r.index⟩ ∈ rest then { core with detached := true } else core := by
  induction rest generalizing e gone with
  | nil =>
    rw [List.append_nil] at hlist
    refine ⟨e, rfl, hlist ▸ w, fun r => ?_⟩
    cases e.router? r <;> rfl
  | cons id rest ih =>
    have hmem : id ∈ t.subtree top := hlist ▸ List.mem_append_right _ List.mem_cons_self
    have hnew : id ∉ gone := by
      have hnodup := ht.nodup_subtree top
      rw [hlist, List.nodup_append] at hnodup
      exact fun hgone => hnodup.2.2 id hgone id List.mem_cons_self rfl
    obtain ⟨value, tree, hremove, w'⟩ := w.remove
      (RouterTree.contains_of_mem_subtree ht.toSound hmem) hnew
      fun slot c hc => ht.child?_mem_front hlist hc
    have parted := h.parted_of (r := ⟨id.number⟩) [] (.inr ⟨value, hremove⟩)
    obtain ⟨last, hlast, wlast, hcores⟩ := ih (h.of_parted parted) w'
      (hlist.trans (List.append_cons gone id rest))
    refine ⟨last, ?_, wlast, fun r => ?_⟩
    · have hmarked : (e.updateRouter ⟨id.number⟩ fun router =>
          { router with detached := true }).topology.tree.remove id = .ok (value, tree) := hremove
      rw [List.map_cons, removeEach]
      simp only [hmarked]
      exact hlast
    · have hsame : (⟨r.index⟩ : NodeId) = id ↔ (⟨id.number⟩ : RouterRef) = r :=
        ⟨fun heq => heq ▸ rfl, fun heq => heq ▸ rfl⟩
      rw [hcores, parted.routers]
      cases e.router? r with
      | none => rfl
      | some router =>
        simp only [Option.map_some, List.mem_cons, hsame]
        by_cases hrest : ⟨r.index⟩ ∈ rest <;> by_cases hid : (⟨id.number⟩ : RouterRef) = r <;>
          simp [hrest, hid]

/-! ## What a detachment does at once -/

/-- Tree and routers are as they were, apart from attempts. -/
structure Intact (e e' : Engine) : Prop where
  tree : e'.topology.tree = e.topology.tree
  cored : e.Cored e'

/-- A router has been taken out with all below it, and all others are as they were. -/
structure Sheds (e e' : Engine) (r : RouterRef) : Prop where
  /-- what was below is removed, and nothing else -/
  linked : ∀ r', e'.Linked r' ↔ e.Linked r' ∧ ¬ e.Under r r'
  marked : ∀ r', e.Under r r' → (e'.router? r').map Router.core =
    (e.router? r').map fun router => { router.core with detached := true }
  unmarked : ∀ r', ¬ e.Under r r' →
    (e'.router? r').map Router.core = (e.router? r').map Router.core
  /-- every other router is found as before -/
  lookup : ∀ route r', e'.topology.lookup route = .ok r' ↔
    e.topology.lookup route = .ok r' ∧ ¬ e.Under r r'
  /-- the slot above is free -/
  freed : ∀ p slot, e.topology.tree.child? p slot = some ⟨r.index⟩ →
    e'.topology.tree.child? p slot = none
  /-- every other router has its place, its slots and what hangs there -/
  places : ∀ r', ¬ e.Under r r' →
    e'.topology.tree.place? ⟨r'.index⟩ = e.topology.tree.place? ⟨r'.index⟩
  rooms : ∀ r', ¬ e.Under r r' →
    e'.topology.tree.room? ⟨r'.index⟩ = e.topology.tree.room? ⟨r'.index⟩
  children : ∀ r' slot, ¬ e.Under r r' → e.topology.tree.child? ⟨r'.index⟩ slot ≠ some ⟨r.index⟩ →
    e'.topology.tree.child? ⟨r'.index⟩ slot = e.topology.tree.child? ⟨r'.index⟩ slot

/-- What a detachment answers, and what has become of routers and tree by then. -/
inductive Settles (e e' : Engine) (r : RouterRef) : Outcome Answer → Prop
  | absent : ¬ e.Linked r → e.Intact e' → Settles e e' r (.error .notFound)
  | refused : e.Linked r → e.Occupied r → e.Intact e' → Settles e e' r (.error .busy)
  | removed : e.Linked r → ¬ e.Occupied r → e.Sheds e' r → Settles e e' r (.ok .nothing)

theorem lookup_eq_ok {route : Route} : e.topology.lookup route = .ok r ↔
    ∃ id, e.topology.tree.lookup route = .ok id ∧ e.topology.tree.get? id = some r := by
  unfold Topology.lookup
  cases e.topology.tree.lookup route with
  | error failure => simp
  | ok id => cases hget : e.topology.tree.get? id <;> simp [hget]

theorem get?_without (w : t.Without e'.topology.tree gone) (id : NodeId) :
    e'.topology.tree.get? id = if id ∈ gone then none else t.get? id := by
  rw [RouterTree.get?_eq_place, RouterTree.get?_eq_place, w.place?]
  split <;> rfl

/-- A router stands at its own id. -/
theorem Stored.id_of_get? (h : e.Stored) (hget : e.topology.tree.get? id = some r) :
    id = ⟨r.index⟩ := by
  rw [RouterTree.get?_eq_place] at hget
  obtain ⟨⟨value, route, parent⟩, hplace, rfl⟩ := Option.map_eq_some_iff.1 hget
  obtain ⟨rfl, -⟩ := h.places _ _ _ _ hplace
  rfl

theorem Stored.sheds (h : e.Stored) (ht : e.topology.tree.Rooted) (hl : e.Linked r)
    (w : e.topology.tree.Without e'.topology.tree (e.below r))
    (hcores : ∀ r', (e'.router? r').map Router.core =
      ((e.router? r').map Router.core).map fun core =>
        if ⟨r'.index⟩ ∈ e.below r then { core with detached := true } else core) :
    e.Sheds e' r := by
  have hbelow (r' : RouterRef) : ⟨r'.index⟩ ∈ e.below r ↔ e.Under r r' := h.mem_below ht hl
  have hget (id : NodeId) (r' : RouterRef) : e'.topology.tree.get? id = some r' ↔
      e.topology.tree.get? id = some r' ∧ ¬ e.Under r r' := by
    rw [get?_without w]
    by_cases hid : e.topology.tree.get? id = some r'
    · obtain rfl := h.id_of_get? hid
      rw [hid, ← hbelow]
      by_cases hmem : ⟨r'.index⟩ ∈ e.below r <;> simp [hmem]
    · by_cases hmem : id ∈ e.below r <;> simp [hmem, hid]
  constructor
  · intro r'
    unfold Linked
    simp only [hget, exists_and_right]
  · intro r' hunder
    rw [hcores, Option.map_map]
    congr 1
    funext router
    exact if_pos ((hbelow r').2 hunder)
  · intro r' hunder
    rw [hcores, Option.map_map]
    congr 1
    funext router
    exact if_neg (mt (hbelow r').1 hunder)
  · intro route r'
    rw [lookup_eq_ok, lookup_eq_ok]
    simp only [w.lookup_eq_ok_iff ht, hget]
    constructor
    · rintro ⟨id, ⟨hlookup, -⟩, hid, hunder⟩
      exact ⟨⟨id, hlookup, hid⟩, hunder⟩
    · rintro ⟨⟨id, hlookup, hid⟩, hunder⟩
      refine ⟨id, ⟨hlookup, fun hmem => hunder ?_⟩, hid, hunder⟩
      exact (hbelow r').1 (h.id_of_get? hid ▸ hmem)
  · exact fun p slot hslot => w.child?_freed ht hslot
  · exact fun r' hunder => (w.place? _).trans (if_neg (mt (hbelow r').1 hunder))
  · exact fun r' hunder => (w.room? _).trans (if_neg (mt (hbelow r').1 hunder))
  · exact fun r' slot hunder hslot => w.child?_kept ht (mt (hbelow r').1 hunder) hslot

/-- The routers below an attached one, by their references. -/
theorem Stored.refs_below (h : e.Stored) (r : RouterRef) :
    (e.below r).filterMap e.topology.tree.get? = (e.below r).map fun id => ⟨id.number⟩ := by
  rw [← List.filterMap_eq_map]
  exact List.filterMap_congr fun id hid =>
    h.get?_eq (RouterTree.contains_of_mem_subtree h.tree hid)

theorem Stored.mem_refs (h : e.Stored) (ht : e.topology.tree.Rooted) (hl : e.Linked r) :
    r' ∈ (e.below r).map (fun id => (⟨id.number⟩ : RouterRef)) ↔ e.Under r r' := by
  rw [← h.mem_below ht hl, List.mem_map]
  constructor
  · rintro ⟨id, hmem, rfl⟩
    exact hmem
  · exact fun hmem => ⟨_, hmem, rfl⟩

/-- Commands are left below a router where some were not overdue. -/
theorem Forced.occupied_iff (f : Forced e cs mid) (h : e.Stored) (ht : e.topology.tree.Rooted)
    (hl : e.Linked r) (hcs : ∀ r' c, (r', c) ∈ cs ↔ e.Under r r' ∧ e.Overdue r' c) :
    (((e.below r).map fun id => ⟨id.number⟩).any fun r' =>
      (mid.router? r').any (0 < ·.queue.outstanding)) = true ↔ e.Occupied r := by
  have hleft (r' : RouterRef) : ((mid.router? r').any (0 < ·.queue.outstanding)) = true ↔
      ∃ c, c ∈ (mid.queue r').members := by
    cases hr : mid.router? r' with
    | none =>
      unfold queue
      simp [hr]
    | some router =>
      rw [queue_of_router? hr, ← List.length_pos_iff_exists_mem, Option.any_some,
        decide_eq_true_iff]
      rfl
  rw [List.any_eq_true]
  simp only [h.mem_refs ht hl, hleft, f.mem_members h]
  refine exists_congr fun r' => and_congr_right fun hunder => exists_congr fun c =>
    and_congr_right fun hmem => ?_
  constructor
  · exact fun hkept hover => hkept r' ((hcs r' c).2 ⟨hunder, hover⟩)
  · intro hover r'' hmem'
    obtain ⟨-, hover'⟩ := (hcs r'' c).1 hmem'
    obtain rfl := h.eq_of_mem hover'.mem_members hmem
    exact hover hover'

/-- **What a detachment does at once**, and which chores it leaves. -/
theorem Stored.detach_settles (h : e.Stored) (ht : e.topology.tree.Rooted) (hl : e.Linked r) :
    ∃ (expired : List (RouterRef × CommandRef)) (quiet : List Task) (result : Outcome Answer),
      (e.detach r).stack =
        expired.map (fun (r, c) => Task.expire r c) ++ quiet ++ .answer result :: e.stack ∧
      (∀ t ∈ quiet, t.isLoose = true) ∧
      (∀ r' c, (r', c) ∈ expired ↔ e.Under r r' ∧ e.Overdue r' c) ∧
      e.Settles (e.detach r) r result := by
  obtain ⟨router, hr⟩ := router_of_known h (.inl hl)
  have hids : ((e.router? r).map fun router => e.topology.tree.subtree router.id).getD [] =
      e.below r := by
    rw [hr, Option.map_some, Option.getD_some, h.ids r router hr]
    rfl
  have hsome : (e.below r).isEmpty = false := by
    have hmem : ⟨r.index⟩ ∈ e.below r :=
      (h.mem_below ht hl).2 (RouterTree.below_refl _ _)
    exact List.isEmpty_eq_false_iff.2 (List.ne_nil_of_mem hmem)
  have hnodup : ((e.below r).map fun id => (⟨id.number⟩ : RouterRef)).Nodup := by
    refine List.pairwise_map.2 ((ht.nodup_subtree _).imp ?_)
    rintro ⟨number⟩ ⟨number'⟩ hne heq
    cases heq
    exact hne rfl
  have hcs (r' : RouterRef) (c : CommandRef) : (r', c) ∈ (e.expireEach
      ((e.below r).map fun id => ⟨id.number⟩)).1 ↔ e.Under r r' ∧ e.Overdue r' c := by
    rw [h.mem_expireEach hnodup, h.mem_refs ht hl]
  obtain ⟨forced, hstack⟩ := h.expireEach_spec ((e.below r).map fun id => ⟨id.number⟩)
  have htree := congrArg Outline.tree (outline_expireEach e ((e.below r).map fun id => ⟨id.number⟩))
  have hzip : (e.below r).zip ((e.below r).map fun id => (⟨id.number⟩ : RouterRef)) =
      (e.below r).map fun id => (id, ⟨id.number⟩) := by
    have zipped := List.zip_map' (l := e.below r) (f := id)
      (g := fun id => (⟨id.number⟩ : RouterRef))
    rwa [List.map_id] at zipped
  have hoccupied := forced.occupied_iff h ht hl hcs
  have hstored := forced.stored h
  unfold detach
  simp only [hids, hsome, h.refs_below, Bool.false_eq_true, if_false]
  generalize e.expireEach ((e.below r).map fun id => ⟨id.number⟩) = pair at *
  obtain ⟨expired, freed⟩ := pair
  simp only at *
  unfold removeSubtree
  by_cases hbusy : e.Occupied r
  · rw [if_pos (hoccupied.2 hbusy)]
    refine ⟨expired, expired.map (fun (r, _) => .drain r) ++
      [Task.kick, Task.hold (expired.map (·.1)) (expired.map (·.2))], .error .busy, ?_,
      fun t ht => ?_, hcs, .refused hl hbusy ⟨htree, forced.cored⟩⟩
    · simp [push, hstack, Except.map]
    · rcases List.mem_append.1 ht with ht | ht
      · obtain ⟨p, -, rfl⟩ := List.mem_map.1 ht
        rfl
      · rcases List.mem_pair.1 ht with rfl | rfl <;> rfl
  · rw [if_neg (mt hoccupied.1 hbusy), hzip]
    have hfreed : e.topology.tree.Without freed.topology.tree [] := by
      rw [show freed.topology.tree = e.topology.tree from htree]
      exact ht.without_nil
    obtain ⟨last, hlast, w, hcores⟩ := hstored.removeEach_all ht hfreed (List.nil_append _).symm
    have hremoved : freed.removeEach ((e.below r).map fun id => (id, ⟨id.number⟩)) =
        (.ok (), last) := hlast
    have hlaststack : last.stack = e.stack := by
      have hsame := (hstored.removeEach_spec ((e.below r).map fun id => (id, ⟨id.number⟩))
        fun p hp => by
          obtain ⟨id, -, rfl⟩ := List.mem_map.1 hp
          rfl).2
      rw [hremoved] at hsame
      exact hsame.trans hstack
    rw [hremoved]
    refine ⟨expired, [.hold (expired.map (·.1)) (expired.map (·.2))], .ok .nothing, ?_,
      List.forall_mem_singleton.2 rfl, hcs, .removed hl hbusy ?_⟩
    · simp [push, hlaststack, Except.map]
    · refine h.sheds ht hl w fun r' => (hcores r').trans ?_
      rw [forced.cored r']
      rfl

/-- The detachment of a router that is not attached has those tried again that wait for the
transport. -/
theorem Stored.detach_absent (h : e.Stored) (hl : ¬ e.Linked r) :
    e.detach r = e.push [.kick, .answer (.error .notFound)] := by
  have hnone :
      ((e.router? r).map fun router => e.topology.tree.subtree router.id).getD [] = [] := by
    cases hr : e.router? r with
    | none => rfl
    | some router =>
      rw [Option.map_some, Option.getD_some, h.ids r router hr, RouterTree.subtree,
        if_neg (mt h.contains_iff_linked.1 hl)]
  unfold detach
  simp only [hnone, List.isEmpty_nil, if_true]

/-- Where none waits for the transport, none is tried. -/
theorem step_kick_idle {below : List Task} (hs : e.stack = .kick :: below)
    (hnone : e.topology.deferred = []) : e.step.step = { e with stack := below } := by
  obtain ⟨topology, routers, commands, now, stack⟩ := e
  obtain ⟨settings, tree, deferred, nextCommand, listener⟩ := topology
  obtain rfl : stack = .kick :: below := hs
  obtain rfl : deferred = [] := hnone
  rfl

theorem Intact.trans (h : e.Intact mid) (h' : mid.Intact e') : e.Intact e' :=
  ⟨h'.tree.trans h.tree, fun r => (h'.cored r).trans (h.cored r)⟩

theorem Sheds.intact (h : e.Sheds mid r) (h' : mid.Intact e') : e.Sheds e' r := by
  have hlookup (route : Route) : e'.topology.lookup route = mid.topology.lookup route := by
    unfold Topology.lookup
    rw [h'.tree]
  refine ⟨fun r' => ?_, fun r' hunder => (h'.cored r').trans (h.marked r' hunder),
    fun r' hunder => (h'.cored r').trans (h.unmarked r' hunder), fun route r' => ?_, ?_, ?_, ?_, ?_⟩
  · rw [← h.linked]
    unfold Linked
    rw [h'.tree]
  · rw [hlookup]
    exact h.lookup route r'
  all_goals rw [h'.tree]
  · exact h.freed
  · exact h.places
  · exact h.rooms
  · exact h.children

theorem Settles.intact (h : e.Settles mid r result) (h' : mid.Intact e') :
    e.Settles e' r result := by
  cases h with
  | absent hl intact => exact .absent hl (intact.trans h')
  | refused hl hbusy intact => exact .refused hl hbusy (intact.trans h')
  | removed hl hbusy sheds => exact .removed hl hbusy (sheds.intact h')

/-! ## The end of a detachment -/

/-- A detachment has been made, and before its answer some of the expired commands are still to
end. -/
structure Finishing (e : Engine) (below : List Task) (expired : List CommandRef)
    (result : Outcome Answer) (course : List Turn) (e' : Engine) : Prop where
  intact : e.Intact e'
  front : ∃ front, e'.stack = front ++ .answer result :: below ∧
    (∀ t ∈ front, t.isChore = true) ∧ (∀ c ∈ front.filterMap Task.expires?, e'.Open c) ∧
    ∀ c, c ∈ expired ↔
      c ∈ front.filterMap Task.expires? ∨ ∃ turn ∈ course, turn.Ends c .expired

theorem expiring_of_front {front below : List Task}
    (hs : e.stack = front ++ .answer result :: below) :
    e.expiring = front.filterMap Task.expires? ++ below.filterMap Task.expires? := by
  unfold expiring
  rw [hs, List.filterMap_append]
  rfl

/-- Of the commands that are still to end, the first ends, or all are left. -/
theorem lines_front {front front' below : List Task} (h' : Run settings course e')
    (lines : e.Lines e')
    (hs : e.stack = front ++ .answer result :: below)
    (hs' : e'.stack = front' ++ .answer result :: below)
    (hmore : ∀ t ∈ front', t ∈ front ∨ t.isLoose = true) :
    (∃ c, front.filterMap Task.expires? = c :: front'.filterMap Task.expires? ∧
        ∃ command, e'.command? c = some command ∧ command.verdict = (true, some .expired)) ∨
      front'.filterMap Task.expires? = front.filterMap Task.expires? := by
  cases lines with
  | popped c hpopped hended =>
    rw [expiring_of_front hs, expiring_of_front hs', ← List.cons_append] at hpopped
    exact .inl ⟨c, List.append_cancel_right hpopped, hended⟩
  | pushed new hpushed hnew hqueued =>
    rw [expiring_of_front hs, expiring_of_front hs', ← List.append_assoc] at hpushed
    have hfront := List.append_cancel_right hpushed
    have hempty : new = [] := by
      refine List.eq_nil_iff_forall_not_mem.2 fun c hc => ?_
      have hmem : c ∈ front'.filterMap Task.expires? := hfront ▸ List.mem_append_left _ hc
      obtain ⟨t, ht, hexpires⟩ := List.mem_filterMap.1 hmem
      have hold : t ∈ front := by
        refine (hmore t ht).resolve_right fun hloose => ?_
        cases t with
        | expire => cases hloose
        | _ => cases hexpires
      have hnodup := h'.expiring_nodup
      rw [expiring_of_front hs', hfront, List.append_assoc, List.nodup_append] at hnodup
      exact hnodup.2.2 c hc c
        (List.mem_append_left _ (List.mem_filterMap.2 ⟨t, hold, hexpires⟩)) rfl
    rw [hfront, hempty, List.nil_append]
    exact .inr rfl

theorem Finishing.next {below : List Task} {expired : List CommandRef} {e'' : Engine}
    (k : e.Finishing below expired result course e') (h : Run settings turns e')
    (hi : e'.Inward m) (hm : e'.move? m = some e'') :
    e.Finishing below expired result (⟨e', m, e''⟩ :: course) e'' := by
  obtain ⟨intact, front, hs, hchores, hopen, hexpired⟩ := k
  have inner := h.inner_of_inward hi hm
  have ha : ∀ call, m = .call call → e'.Allows call := fun call heq => absurd heq (hi.1 call)
  have h' := h.inward hi hm
  obtain ⟨⟨front', hs', hmore⟩, hcored⟩ := inner.chores hs hchores rfl (.inr ⟨_, rfl⟩)
  have houtline : e''.outline = e'.outline := by
    cases front with
    | nil => exact outline_of_chore hi hm hs (.inr ⟨_, rfl⟩)
    | cons t front => exact outline_of_chore hi hm hs (.inl (hchores t List.mem_cons_self))
  have hchores' : ∀ t ∈ front', t.isChore = true := fun t ht =>
    (hmore t ht).elim (hchores t) Task.isChore_of_loose
  have halone (c : CommandRef) : e'.Unattended e'' c := by
    intro t rest w hstack hw _
    have hnot := Task.isChore_of_waiter? hw
    cases front with
    | nil =>
      cases hstack.symm.trans hs
      cases hw
    | cons t' front =>
      obtain ⟨rfl, -⟩ := List.cons.inj (hstack.symm.trans hs)
      cases hnot.symm.trans (hchores t List.mem_cons_self)
  -- what is still to end has not ended
  have open_next (c : CommandRef) (hc : c ∈ front.filterMap Task.expires?)
      (hc' : c ∈ front'.filterMap Task.expires?) : e''.Open c := by
    rcases h.open_next ha hm (halone c) (hopen c hc) with ho | ⟨ending, hshut⟩
    · exact ho
    · refine absurd (lives_iff.2 (.inr ?_)) hshut.closed
      rw [expiring_of_front hs']
      exact List.mem_append_left _ hc'
  have head_of_ends (c : CommandRef) (ends : Turn.Ends ⟨e', m, e''⟩ c .expired) :
      ∃ others, front.filterMap Task.expires? = c :: others := by
    obtain ⟨r, rest, htop⟩ := inner.expire_of_ends ends
    cases front with
    | nil => cases hs.symm.trans htop
    | cons t others =>
      obtain ⟨rfl, -⟩ := List.cons.inj (hs.symm.trans htop)
      exact ⟨_, rfl⟩
  refine ⟨intact.trans ⟨congrArg Outline.tree houtline, hcored⟩, front', hs', hchores', ?_⟩
  rcases lines_front h' (h.sound.lines ha hm) hs hs' hmore with ⟨x, hfront, hended⟩ | hsame
  · have ends : Turn.Ends ⟨e', m, e''⟩ x .expired :=
      ⟨(hopen x (hfront ▸ List.mem_cons_self)).unended, hended⟩
    refine ⟨fun c hc => open_next c (hfront ▸ List.mem_cons_of_mem _ hc) hc, fun c => ?_⟩
    rw [hexpired, hfront, List.mem_cons]
    constructor
    · rintro ((rfl | hc) | ⟨turn, hturn, hends⟩)
      · exact .inr ⟨_, List.mem_cons_self, ends⟩
      · exact .inl hc
      · exact .inr ⟨turn, List.mem_cons_of_mem _ hturn, hends⟩
    · rintro (hc | ⟨turn, hturn, hends⟩)
      · exact .inl (.inr hc)
      · rcases List.mem_cons.1 hturn with rfl | hturn
        · obtain ⟨others, hothers⟩ := head_of_ends c hends
          exact .inl (.inl (List.cons.inj (hothers.symm.trans hfront)).1)
        · exact .inr ⟨turn, hturn, hends⟩
  · refine ⟨fun c hc => open_next c (hsame ▸ hc) hc, fun c => ?_⟩
    rw [hexpired, hsame]
    refine or_congr_right ⟨fun ⟨turn, hturn, hends⟩ =>
      ⟨turn, List.mem_cons_of_mem _ hturn, hends⟩, ?_⟩
    rintro ⟨turn, hturn, hends⟩
    rcases List.mem_cons.1 hturn with rfl | hturn
    · -- no command can end and be left to end
      obtain ⟨others, hothers⟩ := head_of_ends c hends
      have hc : c ∈ front.filterMap Task.expires? := hothers ▸ List.mem_cons_self
      obtain ⟨-, command, hcommand, hpoll⟩ := open_next c hc (hsame ▸ hc)
      obtain ⟨-, command', hcommand', hverdict⟩ := hends
      cases hcommand.symm.trans hcommand'
      cases hpoll.symm.trans (congrArg Prod.fst hverdict)
    · exact ⟨turn, hturn, hends⟩

end Engine

theorem Engine.Finishing.along {below : List Task} {expired : List CommandRef}
    (k : e.Finishing below expired result [] e) (alone : Alone e course e')
    (h : Run settings turns e) : e.Finishing below expired result course e' := by
  induction alone with
  | start => exact k
  | next prior hi hm ih => exact ih.next (prior.run h) hi hm

/-- A detachment that is called for is made at once, and has only to be finished. -/
theorem Run.detach_finishing (h : Run settings turns e₀) (r : RouterRef) :
    ∃ expired result, (e₀.detach r).Finishing e₀.stack expired result [] (e₀.detach r) ∧
      e₀.Settles (e₀.detach r) r result ∧
      ∀ c, c ∈ expired ↔ ∃ r', e₀.Linked r ∧ e₀.Under r r' ∧ e₀.Overdue r' c := by
  have hs := h.sound.toStored
  by_cases hl : e₀.Linked r
  · obtain ⟨expired, quiet, result, hstack, hquiet, hexpired, settles⟩ :=
      hs.detach_settles h.rooted hl
    have hnone : quiet.filterMap Task.expires? = [] := by
      refine List.filterMap_eq_nil_iff.2 fun t ht => ?_
      have hloose := hquiet t ht
      cases t <;> first | rfl | cases hloose
    have hfront : (expired.map (fun (r, c) => Task.expire r c) ++ quiet).filterMap Task.expires? =
        expired.map Prod.snd := by
      rw [List.filterMap_append, hnone, List.append_nil, List.filterMap_map,
        ← List.filterMap_eq_map]
      rfl
    have hmem (c : CommandRef) : c ∈ expired.map Prod.snd ↔
        ∃ r', e₀.Linked r ∧ e₀.Under r r' ∧ e₀.Overdue r' c := by
      rw [List.mem_map]
      constructor
      · rintro ⟨⟨r', c⟩, hp, rfl⟩
        exact ⟨r', hl, (hexpired r' c).1 hp⟩
      · rintro ⟨r', -, hover⟩
        exact ⟨(r', c), (hexpired r' c).2 hover, rfl⟩
    refine ⟨expired.map Prod.snd, result, ⟨⟨rfl, fun _ => rfl⟩, _, hstack, ?_, ?_, ?_⟩, settles,
      hmem⟩
    · refine List.forall_mem_append.2 ⟨fun t ht => ?_,
        fun t ht => Task.isChore_of_loose (hquiet t ht)⟩
      obtain ⟨p, -, rfl⟩ := List.mem_map.1 ht
      rfl
    · rw [hfront]
      intro c hc
      refine ⟨lives_iff.2 (.inr ?_), ?_⟩
      · rw [expiring_of_front hstack, hfront]
        exact List.mem_append_left _ hc
      · obtain ⟨r', -, -, hover⟩ := (hmem c).1 hc
        obtain ⟨command, hcommand, -, -, hpoll⟩ := hs.members r' c hover.mem_members
        have hverdict : (e₀.detach r).commands.verdicts[c.index]? = some command.verdict := by
          rw [(still_detach e₀ r).verdicts]
          exact verdict_iff.2 ⟨command, hcommand, rfl⟩
        obtain ⟨command', hcommand', hsame⟩ := verdict_iff.1 hverdict
        exact ⟨command', hcommand', (congrArg Prod.fst hsame).trans hpoll⟩
    · intro c
      rw [hfront]
      simp
  · rw [hs.detach_absent hl]
    refine ⟨[], .error .notFound, ⟨⟨rfl, fun _ => rfl⟩, [.kick], rfl,
      List.forall_mem_singleton.2 rfl, nofun, fun c => ?_⟩, .absent hl ⟨rfl, fun _ => rfl⟩,
      fun c => ?_⟩
    · simp [Task.expires?]
    · simp [hl]

/-- **A router is detached with all below it, or not at all.** While its detachment goes on and
nobody calls, tree and routers are as the answer says: as before if the router is not attached or if
a command is in the way below it, and otherwise without the routers below, which are marked. The
commands that have ended with a timeout by the answer are those that were overdue below the router,
and the answer can always be reached. The detachment of a router that is not attached only has those
tried again that wait for the transport. -/
theorem Run.detaches (h : Run settings turns e₀) (ha : e₀.Known r)
    (hm : e₀.move? (.call (.detach r)) = some e) :
    (¬ e₀.Linked r → e = e₀.push [.kick, .answer (.error .notFound)] ∧
      (e₀.topology.deferred = [] → e.step.step = e₀.push [.answer (.error .notFound)])) ∧
    ∃ result, ∀ course e', Alone e course e' → e₀.Settles e' r result ∧
      (∃ more e'', Alone e' more e'' ∧ e''.stack = .answer result :: e₀.stack) ∧
      ∀ given, e'.stack = .answer given :: e₀.stack → given = result ∧
        ∀ c, (∃ turn ∈ course, turn.Ends c .expired) ↔
          ∃ r', e₀.Linked r ∧ e₀.Under r r' ∧ e₀.Overdue r' c := by
  obtain rfl : e = e₀.detach r := by
    have hm : (if e₀.isWorking then none else some (e₀.detach r)) = some e := hm
    split at hm
    · cases hm
    · exact (Option.some.inj hm).symm
  have first := h.next (fun call heq => by cases heq; exact ha) hm
  obtain ⟨expired, result, finishing, settles, hexpired⟩ := h.detach_finishing r
  refine ⟨fun hl => ?_, result, fun course e' alone => ?_⟩
  · have hdetach := h.sound.toStored.detach_absent hl
    refine ⟨hdetach, fun hnone => ?_⟩
    rw [hdetach]
    exact step_kick_idle rfl hnone
  · obtain ⟨intact, front, hs, hchores, -, hended⟩ := finishing.along alone first
    refine ⟨settles.intact intact, (alone.run first).clears_chores hs hchores,
      fun given hgiven => ?_⟩
    obtain ⟨rfl, hsame⟩ : front = [] ∧ given = result := by
      cases front with
      | nil => exact ⟨rfl, by cases hgiven.symm.trans hs; rfl⟩
      | cons t front =>
        have hlength := congrArg List.length (hgiven.symm.trans hs)
        simp at hlength
        omega
    refine ⟨hsame, fun c => ?_⟩
    rw [← hexpired, hended]
    simp

/-! ## Two detachments -/

/-- A router with an overdue command is detached. -/
theorem detaches_overdue : ∃ turns e₀ e course e' result, Run {} turns e₀ ∧ e₀.Known ⟨1⟩ ∧
    e₀.Linked ⟨1⟩ ∧ e₀.Overdue ⟨1⟩ ⟨2⟩ ∧ e₀.move? (.call (.detach ⟨1⟩)) = some e ∧
    Alone e course e' ∧ e'.stack = .answer result :: e₀.stack ∧ e₀.Sheds e' ⟨1⟩ ∧
    ∃ turn ∈ course, turn.Ends ⟨2⟩ .expired := by
  have played : (replay? {} (.elapse 10000 :: crowdedMoves.reverse)).any (fun p =>
      decide (p.2.topology.tree.get? ⟨1⟩ = some ⟨1⟩) &&
      decide ((p.2.queue ⟨1⟩).slot = some ⟨2⟩) &&
      (p.2.command? ⟨2⟩).any (fun command =>
        command.heldFor p.2.topology.settings.timeoutMs p.2.now) &&
      !p.2.isWorking && p.2.stack.isEmpty &&
      (alone? (p.2.detach ⟨1⟩) [.proceed, .proceed, .back, .proceed]).any fun later =>
        later.2.reply?.any Except.isOk) = true := by
    decide +kernel
  obtain ⟨turns, e₀, run, hcheck⟩ := exists_of_replay? played
  simp only [Bool.and_eq_true, Option.any_eq_true, decide_eq_true_eq, Bool.not_eq_true',
    List.isEmpty_iff] at hcheck
  obtain ⟨⟨⟨⟨⟨hlinked, hslot⟩, command, hcommand, hheld⟩, hrests⟩, hidle⟩, ⟨course, e'⟩, hcourse,
    result, hreply, hok⟩ := hcheck
  have alone := alone_of_alone? hcourse
  have hstack : e'.stack = .answer result :: e₀.stack := by
    rw [hidle]
    exact stack_of_reply? hreply
  have hover : e₀.Overdue ⟨1⟩ ⟨2⟩ := ⟨command, ⟨hslot, hcommand⟩, hheld⟩
  have hm : e₀.move? (.call (.detach ⟨1⟩)) = some (e₀.detach ⟨1⟩) := by
    simp [move?, hrests, call]
  obtain ⟨-, _, detaches⟩ := run.detaches (.inl ⟨_, hlinked⟩) hm
  obtain ⟨settles, -, hended⟩ := detaches course e' alone
  obtain ⟨rfl, hexpired⟩ := hended result hstack
  refine ⟨turns, e₀, _, course, e', result, run, .inl ⟨_, hlinked⟩, ⟨_, hlinked⟩, hover, hm, alone,
    hstack, ?_, (hexpired ⟨2⟩).2 ⟨⟨1⟩, ⟨_, hlinked⟩, RouterTree.below_refl _ _, hover⟩⟩
  cases settles with
  | removed hl hbusy sheds => exact sheds
  | absent | refused => cases hok

/-- In a turn the engine goes on by itself, or has its answer from the transport. -/
def Turn.isOwn (turn : Turn) : Bool :=
  match turn.move with
  | .proceed | .grant _ => true
  | _ => false

/-- **The detachment of a router that is not attached does not leave everything as it was**, even if
nothing arrives until it is answered. -/
theorem absent_detach_disturbs :
    ¬ ∀ (settings : Settings) (turns course : List Turn) (e₀ e e' : Engine) (r : RouterRef)
      (result : Outcome Answer), Run settings turns e₀ → e₀.stack = [] → e₀.Known r →
      ¬ e₀.Linked r → e₀.move? (.call (.detach r)) = some e → Alone e course e' →
      (∀ turn ∈ course, turn.isOwn = true) → e'.stack = [.answer result] →
      ∀ r', e'.queue r' = e₀.queue r' := by
  intro hall
  have played : (replay? {} detachedMoves.reverse).any (fun p =>
      p.2.stack.isEmpty && (p.2.router? ⟨1⟩).any (·.detached) && !p.2.topology.tree.contains ⟨1⟩ &&
      !p.2.isWorking && decide ((p.2.queue ⟨0⟩).slot = none) &&
      (alone? (p.2.detach ⟨1⟩) [.proceed, .proceed, .grant (.ok ()), .proceed, .proceed,
        .proceed]).any fun later =>
          later.1.all Turn.isOwn && later.2.reply?.isSome &&
          decide ((later.2.queue ⟨0⟩).slot = some ⟨3⟩)) = true := by
    decide +kernel
  obtain ⟨turns, e₀, run, hcheck⟩ := exists_of_replay? played
  simp only [Bool.and_eq_true, Option.any_eq_true, decide_eq_true_eq, Bool.not_eq_true',
    List.isEmpty_iff, List.all_eq_true] at hcheck
  obtain ⟨⟨⟨⟨⟨hidle, known⟩, hgone⟩, hrests⟩, hfree⟩, ⟨course, e'⟩, hcourse, ⟨hown, hreply⟩,
    hslot⟩ := hcheck
  obtain ⟨result, hresult⟩ := Option.isSome_iff_exists.1 hreply
  have hm : e₀.move? (.call (.detach ⟨1⟩)) = some (e₀.detach ⟨1⟩) := by
    simp [move?, hrests, call]
  have hl : ¬ e₀.Linked ⟨1⟩ := fun hl => by
    cases hgone.symm.trans (run.sound.toStored.contains_iff_linked.2 hl)
  have hsame := hall {} turns course e₀ _ e' ⟨1⟩ result run hidle (.inr known) hl hm
    (alone_of_alone? hcourse) hown (stack_of_reply? hresult) ⟨0⟩
  have hslot : (e'.queue ⟨0⟩).slot = some ⟨3⟩ := hslot
  rw [hsame, hfree] at hslot
  cases hslot

end RouterFabric
