import RouterFabric.Proofs.Tree.Rooted

/-!
# Adapter tables, routes and values

How many slots the adapter table of a router has is decided once, when the router is given its
table, and nothing that happens to other routers changes it. The values are those that the routers
were inserted with.

* `room?` : the number of slots of a router that has a table
* `room?_insert`, `room?_setAdapterCount`, … : what a change does to it
* `route?_insert`, `route?_remove`, … : what a change does to the routes
* `values`, `mem_values_of_insert`, … : what a change does to the values
-/

namespace RouterFabric.RouterTree

variable {α : Type} {t t' : RouterTree α} {id id' parent : NodeId} {node : TreeNode α} {value : α}
  {route : Route} {maxAdapter slot : Nat} {failure : Failure}

/-- The number of slots of a router, once it has its table. -/
def room? (t : RouterTree α) (id : NodeId) : Option Nat :=
  (t.adapters? id).map List.length

theorem room?_of_node? (hn : t.node? id = some node) :
    t.room? id = node.adapters.map List.length := by
  rw [room?, adapters?, hn]
  rfl

theorem room?_eq_none (hn : t.node? id = none) : t.room? id = none := by
  rw [room?, adapters?, hn]
  rfl

theorem room?_setNode (t : RouterTree α) (id id' : NodeId) (node : TreeNode α) :
    (t.setNode id node).room? id' =
      if id = id' then node.adapters.map List.length else t.room? id' := by
  unfold room? adapters?
  rw [node?_setNode]
  split <;> rfl

theorem room?_dropNode (t : RouterTree α) (id id' : NodeId) :
    (t.dropNode id).room? id' = if id = id' then none else t.room? id' := by
  unfold room? adapters?
  rw [node?_dropNode]
  split <;> rfl

/-- A slot in which a router hangs is one of the table. -/
theorem lt_room?_of_child? (hc : t.child? id slot = some id') :
    ∃ room, t.room? id = some room ∧ slot < room := by
  obtain ⟨above, table, hn, htable, hslot⟩ := child?_eq_some.1 hc
  refine ⟨table.length, ?_, (List.getElem?_eq_some_iff.1 hslot).1⟩
  rw [room?_of_node? hn, htable]
  rfl

theorem children_eq_nil (h : t.room? id = none) : t.children id = [] := by
  rw [room?, Option.map_eq_none_iff] at h
  rw [children, h]
  rfl

/-! ## Adding a router -/

theorem room?_insertRoot (hid : t.node? id = none) (hi : t.insertRoot id value = .ok t')
    (id' : NodeId) : t'.room? id' = t.room? id' := by
  replace hi := putRoot_of_insertRoot hi
  unfold putRoot at hi
  split at hi
  · cases hi
  · cases hi
    refine (room?_setNode t id id' _).trans ?_
    split
    · rename_i heq
      rw [← heq, room?_eq_none hid]
      rfl
    · rfl

theorem room?_insert (hid : t.node? id = none) (hi : t.insert parent id route value = .ok t')
    (id' : NodeId) : t'.room? id' = t.room? id' := by
  obtain ⟨above, table, last, hn, -, -, htable, -, -, rfl⟩ := insert_eq_ok hi
  rw [room?_setNode, room?_setNode]
  split
  · rename_i heq
    rw [← heq, room?_eq_none hid]
    rfl
  · split
    · rename_i heq
      rw [← heq, room?_of_node? hn, htable]
      simp
    · rfl

theorem route?_insertRoot (h : t.Sound) (hid : t.node? id = none) (hlt : id.number < t.nextId)
    (hi : t.insertRoot id value = .ok t') (id' : NodeId) :
    t'.route? id' = if id = id' then some Route.root else t.route? id' := by
  obtain ⟨-, -, hplace⟩ := insertRoot_spec h hid hlt hi
  rw [route?_eq_place, route?_eq_place, hplace]
  split <;> rfl

theorem route?_insert (h : t.Sound) (hid : t.node? id = none) (hlt : id.number < t.nextId)
    (hi : t.insert parent id route value = .ok t') (id' : NodeId) :
    t'.route? id' = if id = id' then some route else t.route? id' := by
  obtain ⟨-, -, hplace⟩ := insert_spec h hid hlt hi
  rw [route?_eq_place, route?_eq_place, hplace]
  split <;> rfl

/-- No router is linked under a route that is no valid one. -/
theorem validate_of_insert (hi : t.insert parent id route value = .ok t') :
    route.validate = .ok () := by
  replace hi := put_of_insert hi
  unfold put at hi
  split at hi
  · cases hi
  · rename_i hvalid
    exact hvalid

/-! ## Giving a router its table -/

theorem room?_setAdapterCount (hs : t.setAdapterCount id maxAdapter = .ok t') :
    t.room? id = none ∧
      ∀ id', t'.room? id' = if id = id' then some (maxAdapter + 1) else t.room? id' := by
  replace hs := equip_of_setAdapterCount hs
  unfold equip at hs
  split at hs
  · cases hs
  · rename_i node hn
    split at hs
    · cases hs
    · rename_i htable
      cases hs
      have hnone : t.room? id = none := by
        rw [room?_of_node? hn, htable]
        rfl
      refine ⟨hnone, fun id' => (room?_setNode t id id' _).trans ?_⟩
      split
      · simp
      · rfl

theorem route?_setAdapterCount (h : t.Sound) (hs : t.setAdapterCount id maxAdapter = .ok t')
    (id' : NodeId) : t'.route? id' = t.route? id' := by
  obtain ⟨-, -, hplace⟩ := setAdapterCount_spec h hs
  rw [route?_eq_place, route?_eq_place, hplace]

/-- Only a router of the tree is given a table. -/
theorem exists_of_setAdapterCount (hs : t.setAdapterCount id maxAdapter = .ok t') :
    ∃ route, t.route? id = some route := by
  replace hs := equip_of_setAdapterCount hs
  unfold equip at hs
  split at hs
  · cases hs
  · rename_i node hn
    refine ⟨node.route, ?_⟩
    rw [route?, hn]
    rfl

/-- Only a router that is not there, or has its table, is refused one. -/
theorem of_setAdapterCount_error (hs : t.setAdapterCount id maxAdapter = .error failure)
    (hroom : t.room? id = none) : t.node? id = none := by
  unfold setAdapterCount equip at hs
  split at hs
  · rename_i hn
    exact hn
  · rename_i node hn
    split at hs
    · rename_i table htable
      rw [room?_of_node? hn, htable] at hroom
      cases hroom
    · cases hs

/-! ## Removing a router -/

theorem room?_unlinkSlot (t : RouterTree α) (parent : NodeId) (hop : Nat) (id id' : NodeId) :
    (t.unlinkSlot parent hop id).room? id' = t.room? id' := by
  unfold unlinkSlot
  split
  · rfl
  · rename_i above hn
    split
    · rfl
    · rename_i table htable
      split
      · rw [room?_setNode]
        split
        · rename_i heq
          rw [← heq, room?_of_node? hn, htable]
          simp
        · rfl
      · rfl

theorem room?_remove (hr : t.remove id = .ok (value, t')) (id' : NodeId) :
    t'.room? id' = if id = id' then none else t.room? id' := by
  replace hr := take_of_remove hr
  unfold take at hr
  split at hr
  · cases hr
  · split at hr
    · cases hr
    · rename_i node hn _
      have rootless : ∀ u v : RouterTree α, (∀ id', u.room? id' = t.room? id') →
          v = (if u.root = some id then { u with root := none } else u) →
            (v.dropNode id).room? id' = if id = id' then none else t.room? id' := by
        rintro u v hroom rfl
        rw [room?_dropNode, ← hroom id']
        congr 1
        split <;> rfl
      simp only [Except.ok.injEq, Prod.mk.injEq] at hr
      obtain ⟨-, rfl⟩ := hr
      refine rootless _ _ (fun id' => ?_) rfl
      split
      · exact room?_unlinkSlot t _ _ id id'
      · rfl

theorem route?_remove (h : t.Sound) (hr : t.remove id = .ok (value, t')) (id' : NodeId) :
    t'.route? id' = if id = id' then none else t.route? id' := by
  obtain ⟨-, -, -, hplace⟩ := remove_spec h hr
  rw [route?_eq_place, route?_eq_place, hplace]
  split <;> rfl

/-- Only a router that is not there, or has its table, is refused its removal. -/
theorem of_remove_error (hr : t.remove id = .error failure) (hroom : t.room? id = none) :
    t.node? id = none := by
  unfold remove take at hr
  split at hr
  · rename_i hn
    exact hn
  · rename_i node hn
    rw [room?_of_node? hn, Option.map_eq_none_iff] at hroom
    rw [hroom] at hr
    cases hr

/-! ## Values -/

/-- The values of all routers. -/
def values (t : RouterTree α) : List α :=
  t.nodes.map (·.2.value)

theorem mem_values_of_node? (hn : t.node? id = some node) : node.value ∈ t.values := by
  obtain ⟨entry, hfind, rfl⟩ := Option.map_eq_some_iff.1 hn
  exact List.mem_map_of_mem (List.mem_of_find?_eq_some hfind)

theorem mem_values_of_get? (hg : t.get? id = some value) : value ∈ t.values := by
  obtain ⟨node, hn, rfl⟩ := Option.map_eq_some_iff.1 hg
  exact mem_values_of_node? hn

theorem values_dropNode_subset (t : RouterTree α) (id : NodeId) :
    (t.dropNode id).values ⊆ t.values := by
  intro value hvalue
  obtain ⟨entry, hentry, rfl⟩ := List.mem_map.1 hvalue
  exact List.mem_map_of_mem (List.mem_filter.1 hentry).1

theorem mem_values_of_setNode (hv : value ∈ (t.setNode id node).values) :
    value = node.value ∨ value ∈ t.values := by
  rcases List.mem_cons.1 hv with heq | hold
  · exact .inl heq
  · exact .inr (values_dropNode_subset t id hold)

/-- Writing a record with the value that is there adds none. -/
theorem values_setNode_subset {node' : TreeNode α} (hn : t.node? id = some node)
    (hvalue : node'.value = node.value) : (t.setNode id node').values ⊆ t.values := by
  intro value hv
  rcases mem_values_of_setNode hv with rfl | hold
  · rw [hvalue]
    exact mem_values_of_node? hn
  · exact hold

theorem mem_values_of_insertRoot {other : α} (hi : t.insertRoot id value = .ok t')
    (hv : other ∈ t'.values) : other = value ∨ other ∈ t.values := by
  replace hi := putRoot_of_insertRoot hi
  unfold putRoot at hi
  split at hi
  · cases hi
  · cases hi
    exact mem_values_of_setNode (t := t) hv

theorem mem_values_of_insert {other : α} (hi : t.insert parent id route value = .ok t')
    (hv : other ∈ t'.values) : other = value ∨ other ∈ t.values := by
  obtain ⟨above, table, last, hn, -, -, -, -, -, rfl⟩ := insert_eq_ok hi
  rcases mem_values_of_setNode hv with heq | hold
  · exact .inl heq
  · exact .inr (values_setNode_subset hn rfl hold)

theorem values_setAdapterCount (hs : t.setAdapterCount id maxAdapter = .ok t') :
    t'.values ⊆ t.values := by
  replace hs := equip_of_setAdapterCount hs
  unfold equip at hs
  split at hs
  · cases hs
  · rename_i node hn
    split at hs
    · cases hs
    · cases hs
      exact values_setNode_subset hn rfl

theorem values_unlinkSlot (t : RouterTree α) (parent : NodeId) (hop : Nat) (id : NodeId) :
    (t.unlinkSlot parent hop id).values ⊆ t.values := by
  unfold unlinkSlot
  split
  · exact List.Subset.refl _
  · rename_i above hn
    split
    · exact List.Subset.refl _
    · split
      · exact values_setNode_subset hn rfl
      · exact List.Subset.refl _

theorem values_remove (hr : t.remove id = .ok (value, t')) : t'.values ⊆ t.values := by
  replace hr := take_of_remove hr
  unfold take at hr
  split at hr
  · cases hr
  · split at hr
    · cases hr
    · have rootless : ∀ u v : RouterTree α, u.values ⊆ t.values →
          v = (if u.root = some id then { u with root := none } else u) →
            (v.dropNode id).values ⊆ t.values := by
        rintro u v hu rfl
        refine List.Subset.trans (values_dropNode_subset _ id) (List.Subset.trans ?_ hu)
        split <;> exact List.Subset.refl _
      simp only [Except.ok.injEq, Prod.mk.injEq] at hr
      obtain ⟨-, rfl⟩ := hr
      refine rootless _ _ ?_ rfl
      split
      · exact values_unlinkSlot t _ _ id
      · exact List.Subset.refl _

end RouterFabric.RouterTree
