import RouterFabric.Proofs.Route
import RouterFabric.Proofs.Tree

/-!
# Routers hang where their routes say

Each router of a tree is the host router or hangs in a slot of the router above it, and its route
is that router's with the number of the slot as one more hop. This holds of the empty tree, and no
change breaks it, refused ones included, as long as a router gets an id that was allocated and that
no other router has.

* `child?_insert`, `child?_remove`, … : what a change does to the slots
* `Rooted` : every router hangs where its route says
* `Change`, `after`, `afterAll`, `Admissible` : calls that change a tree, one after the other
* `rooted_afterAll` : every tree that comes of such calls is rooted
-/

namespace RouterFabric

namespace RouterTree

variable {α : Type} {t t' : RouterTree α} {id id' p parent : NodeId} {node : TreeNode α}
  {value : α} {r route above : Route} {slot : Nat}

/-! ## Slots -/

/-- What a record says of the router behind an adapter. -/
theorem child?_of_node? (hn : t.node? p = some node) :
    t.child? p slot = (node.adapters.bind (·[slot]?)).join := by
  simp [child?, adapters?, hn]

theorem child?_eq_none_of_node? (hn : t.node? p = none) : t.child? p slot = none := by
  simp [child?, adapters?, hn]

/-- A slot that holds a router is one of a table. -/
theorem child?_eq_some : t.child? p slot = some id ↔
    ∃ node table, t.node? p = some node ∧ node.adapters = some table ∧
      table[slot]? = some (some id) := by
  constructor
  · intro h
    cases hn : t.node? p with
    | none => rw [child?_eq_none_of_node? hn] at h; cases h
    | some node =>
      rw [child?_of_node? hn] at h
      obtain ⟨table, ht, hs⟩ := Option.bind_eq_some_iff.1 (Option.join_eq_some_iff.1 h)
      exact ⟨node, table, rfl, ht, hs⟩
  · rintro ⟨node, table, hn, ht, hs⟩
    simp [child?_of_node? hn, ht, hs]

theorem child?_setNode (t : RouterTree α) (id p : NodeId) (node : TreeNode α) (slot : Nat) :
    (t.setNode id node).child? p slot =
      if id = p then (node.adapters.bind (·[slot]?)).join else t.child? p slot := by
  unfold child? adapters?
  rw [node?_setNode]
  split <;> rfl

theorem child?_dropNode (t : RouterTree α) (id p : NodeId) (slot : Nat) :
    (t.dropNode id).child? p slot = if id = p then none else t.child? p slot := by
  unfold child? adapters?
  rw [node?_dropNode]
  split <;> rfl

theorem route?_eq_place (t : RouterTree α) (id : NodeId) :
    t.route? id = (t.place? id).map (·.2.1) := by
  unfold route? place?
  rw [Option.map_map]
  rfl

theorem route?_eq_none (hn : t.node? id = none) : t.route? id = none := by
  simp [route?, hn]

/-- The upward slot holds no router. -/
theorem Sound.slot_ne_zero (h : t.Sound) (hc : t.child? p slot = some id) : slot ≠ 0 := by
  obtain ⟨above, table, hn, ht, hs⟩ := child?_eq_some.1 hc
  obtain ⟨node, last, -, -, hlast, rfl⟩ := h.below p above table slot id hn ht hs
  intro hz
  exact Route.lastHop?_ne_zero hlast (UInt8.toNat_inj.1 hz)

theorem Sound.route?_root (h : t.Sound) (hr : t.root = some id) :
    t.route? id = some Route.root := by
  obtain ⟨node, hn, hroute, -⟩ := h.top id hr
  rw [route?, hn, ← hroute]
  rfl

/-! ## Slots after a change -/

theorem child?_insertRoot (hid : t.node? id = none) (hi : t.insertRoot id value = .ok t') :
    t.root = none ∧ t'.root = some id ∧ ∀ p slot, t'.child? p slot = t.child? p slot := by
  replace hi := putRoot_of_insertRoot hi
  unfold putRoot at hi
  split at hi
  · cases hi
  · rename_i hr
    cases hi
    refine ⟨hr, rfl, fun p slot => ?_⟩
    refine (child?_setNode t id p _ slot).trans ?_
    split
    · rename_i e
      rw [← e, child?_eq_none_of_node? hid]
      rfl
    · rfl

/-- An insertion fills one slot, which was empty, with a router whose route continues there. -/
theorem child?_insert (hid : t.node? id = none) (hi : t.insert parent id route value = .ok t') :
    ∃ above last, t.route? parent = some above ∧ route.hops = above.hops ++ [last] ∧
      t.child? parent last.toNat = none ∧ t'.root = t.root ∧
      ∀ p slot, t'.child? p slot =
        if p = parent ∧ slot = last.toNat then some id else t.child? p slot := by
  obtain ⟨node, table, last, hn, hdepth, hparent, ht, hlast, hslot, rfl⟩ := insert_eq_ok hi
  refine ⟨node.route, last, by simp [route?, hn], Route.hops_of_parent hdepth hparent hlast,
    by simp [child?_of_node? hn, ht, hslot], rfl, fun p slot => ?_⟩
  rw [child?_setNode, child?_setNode]
  by_cases hp : id = p
  · -- the new router has no table yet
    subst hp
    have hne : id ≠ parent := by
      rintro rfl
      rw [hid] at hn
      cases hn
    simp [hne, child?_eq_none_of_node? hid]
  · rw [if_neg hp]
    by_cases hpp : parent = p
    · subst hpp
      rw [if_pos rfl, child?_of_node? hn, ht]
      by_cases hs : slot = last.toNat
      · subst hs
        have hlt : last.toNat < table.length := (List.getElem?_eq_some_iff.1 hslot).1
        simp [hlt]
      · simp [hs, Ne.symm hs]
    · rw [if_neg hpp, if_neg fun e => hpp e.1.symm]

theorem child?_setAdapterCount {maxAdapter : Nat} (hs : t.setAdapterCount id maxAdapter = .ok t') :
    t'.root = t.root ∧ ∀ p slot, t'.child? p slot = t.child? p slot := by
  replace hs := equip_of_setAdapterCount hs
  unfold equip at hs
  split at hs
  · cases hs
  · rename_i node hn
    split at hs
    · cases hs
    · rename_i ht
      cases hs
      refine ⟨rfl, fun p slot => ?_⟩
      rw [child?_setNode]
      split
      · rename_i e
        subst e
        rw [child?_of_node? hn, ht]
        by_cases hlt : slot < maxAdapter + 1 <;> simp [hlt]
      · rfl

theorem child?_unlinkSlot (t : RouterTree α) (parent : NodeId) (hop : Nat) (id p : NodeId)
    (slot : Nat) :
    (t.unlinkSlot parent hop id).child? p slot =
      if p = parent ∧ slot = hop ∧ t.child? p slot = some id then none else t.child? p slot := by
  unfold unlinkSlot
  split
  · rename_i hn
    split
    · rename_i h
      rw [h.1, child?_eq_none_of_node? hn]
    · rfl
  · rename_i node hn
    split
    · rename_i ht
      split
      · rename_i h
        rw [h.1, child?_of_node? hn, ht]
        rfl
      · rfl
    · rename_i table ht
      split
      · rename_i hs
        rw [child?_setNode]
        by_cases hp : parent = p
        · subst hp
          have hlt : hop < table.length := (List.getElem?_eq_some_iff.1 hs).1
          by_cases he : slot = hop
          · subst he
            rw [if_pos rfl, if_pos ⟨rfl, rfl, child?_eq_some.2 ⟨node, table, hn, ht, hs⟩⟩]
            simp [hlt]
          · simp [child?_of_node? hn, ht, he, Ne.symm he]
        · rw [if_neg hp, if_neg fun e => hp e.1.symm]
      · rename_i hs
        rw [if_neg]
        rintro ⟨rfl, rfl, hc⟩
        obtain ⟨node', table', hn', ht', hs'⟩ := child?_eq_some.1 hc
        rw [hn] at hn'
        cases hn'
        rw [ht] at ht'
        cases ht'
        exact hs hs'

theorem child?_cleared (h : t.Sound) (hn : t.node? id = some node) (p : NodeId) (slot : Nat) :
    (t.cleared id node).child? p slot =
      if t.child? p slot = some id then none else t.child? p slot := by
  -- the slot that the record names is the only one that can hold the router
  have named : t.child? p slot = some id →
      ∃ last, node.parent = some p ∧ node.route.lastHop? = some last ∧ last.toNat = slot := by
    intro hc
    obtain ⟨above, table, hp, ht, hs⟩ := child?_eq_some.1 hc
    have he : t.place? id = some node.place := by
      rw [place?, hn]
      rfl
    exact h.slot_of_place he hp ht hs
  unfold cleared
  split
  · rename_i parent hop hpar hhop
    rw [child?_unlinkSlot]
    by_cases hc : t.child? p slot = some id
    · obtain ⟨last, hpar', hlast, rfl⟩ := named hc
      rw [hpar] at hpar'
      rw [hhop] at hlast
      cases hpar'
      cases hlast
      rw [if_pos hc, if_pos ⟨rfl, rfl, hc⟩]
    · rw [if_neg hc, if_neg fun e => hc e.2.2]
  · rename_i unnamed
    rw [if_neg]
    intro hc
    obtain ⟨last, hpar, hlast, -⟩ := named hc
    exact unnamed p last hpar hlast

theorem root_cleared (t : RouterTree α) (id : NodeId) (node : TreeNode α) :
    (t.cleared id node).root = t.root := by
  unfold cleared unlinkSlot
  split
  · split
    · rfl
    · split
      · rfl
      · split <;> rfl
  · rfl

/-- What a successful removal has found, and the tree it gives. -/
theorem remove_eq_ok (hr : t.remove id = .ok (value, t')) :
    ∃ node, t.node? id = some node ∧ (node.adapters.getD []).any Option.isSome = false ∧
      t'.root = (if t.root = some id then none else t.root) ∧
      ∀ p slot, t'.child? p slot = ((t.cleared id node).dropNode id).child? p slot := by
  replace hr := take_of_remove hr
  unfold take at hr
  split at hr
  · cases hr
  · rename_i node hn
    split at hr
    · cases hr
    · rename_i hbelow
      refine ⟨node, hn, by simpa using hbelow, ?_⟩
      have rootless : ∀ u : RouterTree α, u = (if (t.cleared id node).root = some id then
          { t.cleared id node with root := none } else t.cleared id node) →
          (u.dropNode id).root = (if t.root = some id then none else t.root) ∧
            ∀ p slot, (u.dropNode id).child? p slot =
              ((t.cleared id node).dropNode id).child? p slot := by
        rintro u rfl
        rw [root_cleared]
        split
        · exact ⟨rfl, fun _ _ => rfl⟩
        · exact ⟨root_cleared t id node, fun _ _ => rfl⟩
      cases hr
      exact rootless _ rfl

/-- A removal empties the slot that held the router, below which there was none. -/
theorem child?_remove (h : t.Sound) (hr : t.remove id = .ok (value, t')) :
    t'.root = (if t.root = some id then none else t.root) ∧ (∀ slot, t.child? id slot = none) ∧
      ∀ p slot, t'.child? p slot = if t.child? p slot = some id then none else t.child? p slot := by
  obtain ⟨node, hn, hbelow, hroot, hslots⟩ := remove_eq_ok hr
  have leaf : ∀ slot, t.child? id slot = none := by
    intro slot
    rw [Option.eq_none_iff_forall_ne_some]
    intro below hc
    obtain ⟨node', table, hn', ht, hs⟩ := child?_eq_some.1 hc
    rw [hn] at hn'
    cases hn'
    rw [ht, Option.getD_some, List.any_eq_false] at hbelow
    exact hbelow _ (List.mem_of_getElem? hs) rfl
  refine ⟨hroot, leaf, fun p slot => ?_⟩
  rw [hslots, child?_dropNode, child?_cleared h hn]
  split
  · rename_i e
    subst e
    rw [leaf]
    rfl
  · rfl

/-! ## Rooted trees -/

/-- Every router is the host router or hangs in a slot, and the number of the slot is the one hop
by which its route is longer than that of the router above it. -/
structure Rooted (t : RouterTree α) : Prop extends Sound t where
  held : ∀ id r, t.route? id = some r → t.root = some id ∨ ∃ p slot, t.child? p slot = some id
  hop : ∀ p slot id, t.child? p slot = some id → ∃ above below last, t.route? p = some above ∧
    t.route? id = some below ∧ UInt8.toNat last = slot ∧ below.hops = above.hops ++ [last]

theorem rooted_empty : ({} : RouterTree α).Rooted where
  toSound := sound_empty
  held _ _ h := by cases h
  hop _ _ _ h := by cases h

theorem Rooted.allocateId (h : t.Rooted) : t.allocateId.2.Rooted where
  toSound := h.toSound.allocateId
  held := h.held
  hop := h.hop

theorem Rooted.insertRoot (h : t.Rooted) (hid : t.node? id = none) (hlt : id.number < t.nextId)
    (hi : t.insertRoot id value = .ok t') : t'.Rooted := by
  obtain ⟨hsound, -, hplace⟩ := insertRoot_spec h.toSound hid hlt hi
  obtain ⟨hroot, hroot', hslots⟩ := child?_insertRoot hid hi
  have routes : ∀ id', id ≠ id' → t'.route? id' = t.route? id' := by
    intro id' hne
    rw [route?_eq_place, route?_eq_place, hplace, if_neg hne]
  refine ⟨hsound, fun id' r hr => ?_, fun p slot id' hc => ?_⟩
  · by_cases he : id = id'
    · left
      rw [hroot', he]
    · rw [routes id' he] at hr
      simp only [hslots]
      right
      exact (h.held id' r hr).resolve_left (by simp [hroot])
  · rw [hslots] at hc
    obtain ⟨above, below, last, hp, hb, hrest⟩ := h.hop p slot id' hc
    have old : ∀ id' r, t.route? id' = some r → id ≠ id' := by
      rintro id' r hr rfl
      rw [route?_eq_none hid] at hr
      cases hr
    exact ⟨above, below, last, by rw [routes p (old p _ hp), hp],
      by rw [routes id' (old id' _ hb), hb], hrest⟩

theorem Rooted.insert (h : t.Rooted) (hid : t.node? id = none) (hlt : id.number < t.nextId)
    (hi : t.insert parent id route value = .ok t') : t'.Rooted := by
  obtain ⟨hsound, -, hplace⟩ := insert_spec h.toSound hid hlt hi
  obtain ⟨above, last, hp, hhops, hfree, hroot, hslots⟩ := child?_insert hid hi
  have routes : ∀ id' r, t.route? id' = some r → t'.route? id' = some r := by
    intro id' r hr
    rw [route?_eq_place, hplace, if_neg, ← route?_eq_place, hr]
    rintro rfl
    rw [route?_eq_none hid] at hr
    cases hr
  refine ⟨hsound, fun id' r hr => ?_, fun p slot id' hc => ?_⟩
  · by_cases he : id = id'
    · right
      exact ⟨parent, last.toNat, by rw [hslots, if_pos ⟨rfl, rfl⟩, he]⟩
    · rw [route?_eq_place, hplace, if_neg he, ← route?_eq_place] at hr
      rw [hroot]
      refine (h.held id' r hr).imp_right ?_
      rintro ⟨p, slot, hc⟩
      refine ⟨p, slot, ?_⟩
      rw [hslots, if_neg, hc]
      rintro ⟨rfl, rfl⟩
      rw [hfree] at hc
      cases hc
  · rw [hslots] at hc
    split at hc
    · rename_i hnew
      cases hc
      obtain ⟨rfl, rfl⟩ := hnew
      refine ⟨above, route, last, routes p above hp, ?_, rfl, hhops⟩
      rw [route?_eq_place, hplace, if_pos rfl]
      rfl
    · obtain ⟨above, below, last, hp, hb, hrest⟩ := h.hop p slot id' hc
      exact ⟨above, below, last, routes p _ hp, routes id' _ hb, hrest⟩

theorem Rooted.setAdapterCount {maxAdapter : Nat} (h : t.Rooted)
    (hs : t.setAdapterCount id maxAdapter = .ok t') : t'.Rooted := by
  obtain ⟨hsound, -, hplace⟩ := setAdapterCount_spec h.toSound hs
  obtain ⟨hroot, hslots⟩ := child?_setAdapterCount hs
  have routes : ∀ id', t'.route? id' = t.route? id' := by
    intro id'
    rw [route?_eq_place, route?_eq_place, hplace]
  refine ⟨hsound, ?_, ?_⟩
  · simpa only [routes, hslots, hroot] using h.held
  · simpa only [routes, hslots] using h.hop

theorem Rooted.remove (h : t.Rooted) (hr : t.remove id = .ok (value, t')) : t'.Rooted := by
  obtain ⟨hsound, -, -, hplace⟩ := remove_spec h.toSound hr
  obtain ⟨hroot, hleaf, hslots⟩ := child?_remove h.toSound hr
  have routes : ∀ id', t'.route? id' = if id = id' then none else t.route? id' := by
    intro id'
    rw [route?_eq_place, route?_eq_place, hplace]
    split <;> rfl
  refine ⟨hsound, fun id' r hr => ?_, fun p slot id' hc => ?_⟩
  · rw [routes] at hr
    split at hr
    · cases hr
    · rename_i hne
      rcases h.held id' r hr with he | ⟨p, slot, hc⟩
      · left
        rw [hroot, if_neg, he]
        rw [he]
        exact fun e => hne (Option.some.inj e).symm
      · right
        refine ⟨p, slot, ?_⟩
        rw [hslots, if_neg, hc]
        rw [hc]
        exact fun e => hne (Option.some.inj e).symm
  · rw [hslots] at hc
    split at hc
    · cases hc
    · rename_i hne
      obtain ⟨above, below, last, hp, hb, hrest⟩ := h.hop p slot id' hc
      refine ⟨above, below, last, ?_, ?_, hrest⟩
      · rw [routes, if_neg, hp]
        rintro rfl
        rw [hleaf] at hc
        cases hc
      · rw [routes, if_neg, hb]
        rintro rfl
        exact hne hc

/-! ## Sequences of changes -/

/-- A call that changes a tree. -/
inductive Change (α : Type) where
  | allocateId
  | insertRoot (id : NodeId) (value : α)
  | insert (parent id : NodeId) (route : Route) (value : α)
  | setAdapterCount (id : NodeId) (maxAdapter : Nat)
  | remove (id : NodeId)

/-- What the call answers, but for values, and the tree after it. -/
def make (t : RouterTree α) : Change α → Outcome Unit × RouterTree α
  | .allocateId => (.ok (), t.allocateId.2)
  | .insertRoot id value => t.putRoot id value
  | .insert parent id route value => t.put parent id route value
  | .setAdapterCount id maxAdapter => t.equip id maxAdapter
  | .remove id => ((t.take id).1.map fun _ => (), (t.take id).2)

/-- What the call answers, and with a good answer the changed tree. -/
def attempt (t : RouterTree α) (change : Change α) : Outcome (RouterTree α) :=
  (t.make change).1.map fun _ => (t.make change).2

/-- The tree after a call, whatever the call answers. -/
def after (t : RouterTree α) (change : Change α) : RouterTree α :=
  (t.make change).2

/-- The tree after some calls, one after the other. -/
def afterAll (t : RouterTree α) (changes : List (Change α)) : RouterTree α :=
  changes.foldl after t

/-- An id is fresh if it was allocated and no router of the tree has it. -/
def Fresh (t : RouterTree α) (id : NodeId) : Prop :=
  id.number < t.nextId ∧ t.contains id = false

instance (t : RouterTree α) (id : NodeId) : Decidable (t.Fresh id) :=
  inferInstanceAs (Decidable (_ ∧ _))

/-- An insertion comes with a fresh id. -/
def Admissible (t : RouterTree α) : Change α → Prop
  | .insertRoot id _ => t.Fresh id
  | .insert _ id _ _ => t.Fresh id
  | _ => True

instance (t : RouterTree α) (change : Change α) : Decidable (t.Admissible change) :=
  match change with
  | .insertRoot id _ => inferInstanceAs (Decidable (t.Fresh id))
  | .insert _ id _ _ => inferInstanceAs (Decidable (t.Fresh id))
  | .allocateId => instDecidableTrue
  | .setAdapterCount _ _ => instDecidableTrue
  | .remove _ => instDecidableTrue

/-- Each insertion of some calls comes with an id that is fresh by then. -/
def AllAdmissible : RouterTree α → List (Change α) → Prop
  | _, [] => True
  | t, change :: rest => t.Admissible change ∧ (t.after change).AllAdmissible rest

instance decidableAllAdmissible (t : RouterTree α) :
    (changes : List (Change α)) → Decidable (t.AllAdmissible changes)
  | [] => instDecidableTrue
  | change :: rest =>
    have := decidableAllAdmissible (t.after change) rest
    inferInstanceAs (Decidable (_ ∧ _))

theorem attempt_insertRoot : t.attempt (.insertRoot id value) = t.insertRoot id value :=
  rfl

theorem attempt_insert :
    t.attempt (.insert parent id route value) = t.insert parent id route value :=
  rfl

theorem attempt_setAdapterCount {maxAdapter : Nat} :
    t.attempt (.setAdapterCount id maxAdapter) = t.setAdapterCount id maxAdapter :=
  rfl

theorem attempt_remove : t.attempt (.remove id) = (t.remove id).map (·.2) := by
  unfold attempt remove
  simp only [make]
  cases (t.take id).1 <;> rfl

/-! ### Refused calls -/

theorem putRoot_refused {failure : Failure} (h : t.putRoot id value = (.error failure, t')) :
    t' = t := by
  unfold putRoot at h
  split at h <;> cases h
  rfl

theorem put_refused {failure : Failure}
    (h : t.put parent id route value = (.error failure, t')) : t' = t := by
  unfold put at h
  split at h
  · cases h
    rfl
  · split at h
    · cases h
      rfl
    · split at h
      · cases h
        rfl
      · split at h
        · cases h
          rfl
        · simp only at h
          split at h <;> cases h <;> rfl

theorem equip_refused {maxAdapter : Nat} {failure : Failure}
    (h : t.equip id maxAdapter = (.error failure, t')) : t' = t := by
  unfold equip at h
  split at h
  · cases h
    rfl
  · split at h <;> cases h
    rfl

theorem take_refused {failure : Failure} (h : t.take id = (.error failure, t')) : t' = t := by
  unfold take at h
  split at h
  · cases h
    rfl
  · split at h
    · cases h
      rfl
    · cases h

/-- **A call that is refused leaves the tree as it is.** -/
theorem after_of_error {change : Change α} {failure : Failure}
    (h : t.attempt change = .error failure) : t.after change = t := by
  have refused : (t.make change).1 = .error failure := by
    unfold attempt at h
    cases hmade : (t.make change).1 with
    | ok done =>
      rw [hmade] at h
      cases h
    | error fault =>
      rw [hmade] at h
      exact congrArg Except.error (Except.error.inj h)
  cases change with
  | allocateId => cases refused
  | insertRoot id value => exact putRoot_refused (Prod.ext refused rfl)
  | insert parent id route value => exact put_refused (Prod.ext refused rfl)
  | setAdapterCount id maxAdapter => exact equip_refused (Prod.ext refused rfl)
  | remove id =>
    have hrefused : (t.take id).1.map (fun _ => ()) = .error failure := refused
    cases htaken : (t.take id).1 with
    | ok value =>
      rw [htaken] at hrefused
      cases hrefused
    | error fault => exact take_refused (Prod.ext htaken rfl)

theorem after_of_ok {change : Change α} (h : t.attempt change = .ok t') : t.after change = t' := by
  unfold attempt at h
  unfold after
  cases hmade : (t.make change).1 with
  | ok done =>
    rw [hmade] at h
    exact Except.ok.inj h
  | error fault =>
    rw [hmade] at h
    cases h

theorem Fresh.node? (h : t.Fresh id) : t.node? id = none := by
  simpa [contains] using h.2

/-- No call uproots a router. -/
theorem Rooted.after {change : Change α} (h : t.Rooted) (ha : t.Admissible change) :
    (t.after change).Rooted := by
  cases hc : t.attempt change with
  | error =>
    rw [after_of_error hc]
    exact h
  | ok t' =>
    rw [after_of_ok hc]
    cases change with
    | allocateId =>
      cases hc
      exact h.allocateId
    | insertRoot id value => exact h.insertRoot ha.node? ha.1 hc
    | insert parent id route value => exact h.insert ha.node? ha.1 hc
    | setAdapterCount id maxAdapter => exact h.setAdapterCount hc
    | remove id =>
      rw [attempt_remove] at hc
      cases hr : t.remove id with
      | error failure => rw [hr] at hc; cases hc
      | ok removed =>
        rw [hr] at hc
        cases hc
        exact h.remove hr

theorem Rooted.afterAll {changes : List (Change α)} (h : t.Rooted)
    (ha : t.AllAdmissible changes) : (t.afterAll changes).Rooted := by
  induction changes generalizing t with
  | nil => exact h
  | cons change rest ih => exact ih (h.after ha.1) ha.2

/-- Trees that come of calls with fresh ids are rooted. -/
theorem rooted_afterAll {changes : List (Change α)}
    (ha : ({} : RouterTree α).AllAdmissible changes) :
    (({} : RouterTree α).afterAll changes).Rooted :=
  rooted_empty.afterAll ha

end RouterTree

end RouterFabric
