import RouterFabric.Tree

/-!
# Links of the router tree

What an adapter slot says and what the record of the router behind it says agree, so that taking a
router out leaves no slot pointing at it. The changes to a tree keep this, and each says what
becomes of the places, by which a router is known apart from its adapter table.

* `RouterTree.Sound` : slots lead to routers that know where they hang, and the root is one
* `insertRoot_spec`, `insert_spec`, `setAdapterCount_spec`, `remove_spec` : the changes
* `lookup_route` : a look-up finds a router with the route asked for
* `contains_of_mem_subtree` : a subtree consists of routers that are there
-/

namespace RouterFabric

/-- What a record says of its router, apart from the routers below it. -/
def TreeNode.place {α : Type} (node : TreeNode α) : α × Route × Option NodeId :=
  (node.value, node.route, node.parent)

namespace RouterTree

variable {α : Type} {t t' : RouterTree α} {id id' : NodeId} {node : TreeNode α}

/-- The place of a router. -/
def place? (t : RouterTree α) (id : NodeId) : Option (α × Route × Option NodeId) :=
  (t.node? id).map TreeNode.place

/-- The records are linked both ways, and ids are not used up. -/
structure Sound (t : RouterTree α) : Prop where
  fresh : ∀ id node, t.node? id = some node → id.number < t.nextId
  /-- the router behind a slot hangs there -/
  below : ∀ p above table hop child, t.node? p = some above → above.adapters = some table →
    table[hop]? = some (some child) →
      ∃ node last, t.node? child = some node ∧ node.parent = some p ∧
        node.route.lastHop? = some last ∧ last.toNat = hop
  top : ∀ id, t.root = some id →
    ∃ node, t.node? id = some node ∧ node.route = Route.root ∧ node.parent = none

/-! ## Records -/

@[simp] theorem node?_setNode (t : RouterTree α) (id id' : NodeId) (node : TreeNode α) :
    (t.setNode id node).node? id' = if id = id' then some node else t.node? id' := by
  unfold node? setNode
  simp only [List.find?_cons]
  by_cases h : id = id'
  · simp [h]
  · have hne : (id == id') = false := by simpa using h
    rw [hne]
    simp only [h, if_false]
    congr 1
    rw [List.find?_filter]
    congr 1
    funext x
    by_cases hx : x.1 = id'
    · have : ¬ x.1 = id := fun e => h (e.symm.trans hx)
      simp [hx, Ne.symm h]
    · simp [hx]

@[simp] theorem node?_dropNode (t : RouterTree α) (id id' : NodeId) :
    (t.dropNode id).node? id' = if id = id' then none else t.node? id' := by
  unfold node? dropNode
  simp only [List.find?_filter]
  by_cases h : id = id'
  · subst h
    simp only [if_true, Option.map_eq_none_iff, List.find?_eq_none]
    intro x _
    simp
  · simp only [h, if_false]
    congr 2
    funext x
    by_cases hx : x.1 = id'
    · simp [hx, Ne.symm h]
    · simp [hx]

theorem get?_eq_place (t : RouterTree α) (id : NodeId) : t.get? id = (t.place? id).map (·.1) := by
  unfold get? place?
  rw [Option.map_map]
  rfl

theorem place?_setNode_of_place (hn : t.node? id = some node) (node' : TreeNode α)
    (he : node'.place = node.place) (id' : NodeId) :
    (t.setNode id node').place? id' = t.place? id' := by
  unfold place?
  rw [node?_setNode]
  split
  · rename_i h
    subst h
    simp [hn, he]
  · rfl

theorem Sound.node?_eq_none_of_fresh (h : t.Sound) (id : NodeId) (hid : t.nextId ≤ id.number) :
    t.node? id = none := by
  cases hn : t.node? id with
  | none => rfl
  | some node =>
    have := h.fresh id node hn
    omega

theorem sound_empty : ({} : RouterTree α).Sound := by
  refine ⟨fun id node h => ?_, fun p above table hop child h => ?_, fun id h => ?_⟩ <;> cases h

/-- Only the reading of a tree counts. -/
theorem Sound.of_reads (h : t.Sound) (hnext : t'.nextId = t.nextId) (hroot : t'.root = t.root)
    (reads : ∀ id, t'.node? id = t.node? id) : t'.Sound := by
  refine ⟨fun id node hn => ?_, fun p above table hop child hp => ?_, fun id hr => ?_⟩
  · rw [hnext]
    exact h.fresh id node (reads id ▸ hn)
  · rw [reads] at hp
    simp only [reads]
    exact h.below p above table hop child hp
  · simp only [reads]
    exact h.top id (hroot ▸ hr)

theorem Sound.allocateId (h : t.Sound) : t.allocateId.2.Sound where
  fresh id node hn := Nat.lt_succ_of_lt (h.fresh id node hn)
  below := h.below
  top := h.top

/-! ## Changes -/

theorem putRoot_of_insertRoot {value : α} (hi : t.insertRoot id value = .ok t') :
    t.putRoot id value = (.ok (), t') := by
  unfold insertRoot at hi
  generalize t.putRoot id value = result at hi ⊢
  obtain ⟨_ | _, _⟩ := result <;> cases hi
  rfl

theorem put_of_insert {parent : NodeId} {route : Route} {value : α}
    (hi : t.insert parent id route value = .ok t') :
    t.put parent id route value = (.ok (), t') := by
  unfold RouterTree.insert at hi
  generalize t.put parent id route value = result at hi ⊢
  obtain ⟨_ | _, _⟩ := result <;> cases hi
  rfl

theorem equip_of_setAdapterCount {maxAdapter : Nat}
    (hs : t.setAdapterCount id maxAdapter = .ok t') :
    t.equip id maxAdapter = (.ok (), t') := by
  unfold setAdapterCount at hs
  generalize t.equip id maxAdapter = result at hs ⊢
  obtain ⟨_ | _, _⟩ := result <;> cases hs
  rfl

theorem take_of_remove {value : α} (hr : t.remove id = .ok (value, t')) :
    t.take id = (.ok value, t') := by
  unfold remove at hr
  generalize t.take id = result at hr ⊢
  obtain ⟨_ | _, _⟩ := result <;> cases hr
  rfl

theorem insertRoot_spec {value : α} (h : t.Sound) (hid : t.node? id = none)
    (hlt : id.number < t.nextId) (hi : t.insertRoot id value = .ok t') :
    t'.Sound ∧ t'.nextId = t.nextId ∧
      ∀ id', t'.place? id' = if id = id' then some (value, Route.root, none) else t.place? id' := by
  obtain ⟨hroot, hnext, reads⟩ : t'.root = some id ∧ t'.nextId = t.nextId ∧
      ∀ id', t'.node? id' = if id = id' then some ⟨value, Route.root, none, none⟩
        else t.node? id' := by
    replace hi := putRoot_of_insertRoot hi
    unfold putRoot at hi
    split at hi
    · cases hi
    · cases hi
      exact ⟨rfl, rfl, fun id' => node?_setNode t id id' _⟩
  refine ⟨⟨fun id' node hn => ?_, fun p above table hop child hp ha hs => ?_,
    fun id' hr => ?_⟩, hnext, fun id' => ?_⟩
  · rw [hnext]
    rw [reads] at hn
    split at hn
    · rename_i e
      exact e ▸ hlt
    · exact h.fresh id' node hn
  · rw [reads] at hp
    split at hp
    · cases hp
      cases ha
    · obtain ⟨node, last, hn, hrest⟩ := h.below p above table hop child hp ha hs
      refine ⟨node, last, ?_, hrest⟩
      rw [reads, if_neg, hn]
      rintro rfl
      rw [hid] at hn
      cases hn
  · rw [hroot] at hr
    cases hr
    exact ⟨_, by rw [reads, if_pos rfl], rfl, rfl⟩
  · unfold place?
    rw [reads]
    split <;> rfl

/-- Giving one record another adapter table keeps the links, if the slots that are taken in the new
table lead where they should. -/
theorem Sound.setTable (h : t.Sound) (hn : t.node? id = some node) (table : List (Option NodeId))
    (taken : ∀ hop child, table[hop]? = some (some child) →
      ∃ below last, t.node? child = some below ∧ below.parent = some id ∧
        below.route.lastHop? = some last ∧ last.toNat = hop) :
    (t.setNode id { node with adapters := some table }).Sound := by
  have same : ∀ id' node', t.node? id' = some node' → ∃ node'',
      (t.setNode id { node with adapters := some table }).node? id' = some node'' ∧
        node''.parent = node'.parent ∧ node''.route = node'.route := by
    intro id' node' hn'
    rw [node?_setNode]
    split
    · rename_i e
      subst e
      rw [hn] at hn'
      cases hn'
      exact ⟨_, rfl, rfl, rfl⟩
    · exact ⟨node', hn', rfl, rfl⟩
  have moved : ∀ p hop child below last, t.node? child = some below → below.parent = some p →
      below.route.lastHop? = some last → last.toNat = hop →
      ∃ below' last',
        (t.setNode id { node with adapters := some table }).node? child = some below' ∧
        below'.parent = some p ∧ below'.route.lastHop? = some last' ∧ last'.toNat = hop := by
    intro p hop child below last hc hpar hlast heq
    obtain ⟨below', hc', hpar', hroute⟩ := same child below hc
    exact ⟨below', last, hc', hpar'.trans hpar, by rw [hroute, hlast], heq⟩
  refine ⟨fun id' node' hn' => ?_, fun p above table' hop child hp ha hs => ?_, fun id' hr => ?_⟩
  · rw [node?_setNode] at hn'
    split at hn'
    · rename_i e
      exact e ▸ h.fresh id node hn
    · exact h.fresh id' node' hn'
  · rw [node?_setNode] at hp
    split at hp
    · rename_i e
      subst e
      cases hp
      cases ha
      obtain ⟨below, last, hc, hpar, hlast, heq⟩ := taken hop child hs
      exact moved _ _ _ _ _ hc hpar hlast heq
    · obtain ⟨below, last, hc, hpar, hlast, heq⟩ := h.below p above table' hop child hp ha hs
      exact moved _ _ _ _ _ hc hpar hlast heq
  · obtain ⟨node', hn', hroute, hpar⟩ := h.top id' hr
    obtain ⟨node'', hn'', hpar', hroute'⟩ := same id' node' hn'
    exact ⟨node'', hn'', hroute'.trans hroute, hpar'.trans hpar⟩

theorem setAdapterCount_spec {maxAdapter : Nat} (h : t.Sound)
    (hs : t.setAdapterCount id maxAdapter = .ok t') :
    t'.Sound ∧ t'.nextId = t.nextId ∧ ∀ id', t'.place? id' = t.place? id' := by
  replace hs := equip_of_setAdapterCount hs
  unfold equip at hs
  split at hs
  · cases hs
  · rename_i node hn
    split at hs
    · cases hs
    · cases hs
      refine ⟨h.setTable hn _ fun hop child hc => ?_, rfl, place?_setNode_of_place hn _ rfl⟩
      rw [List.getElem?_replicate] at hc
      split at hc <;> cases hc

/-- Adding a record without a table, under an id no slot holds. -/
theorem Sound.addLeaf (h : t.Sound) (hid : t.node? id = none) (hlt : id.number < t.nextId)
    (hn : node.adapters = none) : (t.setNode id node).Sound where
  fresh id' node' hn' := by
    rw [node?_setNode] at hn'
    split at hn'
    · rename_i e
      exact e ▸ hlt
    · exact h.fresh id' node' hn'
  below p above table hop child hp ha hs := by
    rw [node?_setNode] at hp
    split at hp
    · cases hp
      rw [hn] at ha
      cases ha
    · obtain ⟨below, last, hc, hrest⟩ := h.below p above table hop child hp ha hs
      refine ⟨below, last, ?_, hrest⟩
      rw [node?_setNode, if_neg, hc]
      rintro rfl
      rw [hid] at hc
      cases hc
  top id' hr := by
    obtain ⟨node', hn', hrest⟩ := h.top id' hr
    refine ⟨node', ?_, hrest⟩
    rw [node?_setNode, if_neg, hn']
    rintro rfl
    rw [hid] at hn'
    cases hn'

/-- What a successful insertion has found, and the tree it gives. -/
theorem insert_eq_ok {parent : NodeId} {route : Route} {value : α}
    (hi : t.insert parent id route value = .ok t') :
    ∃ above table last, t.node? parent = some above ∧ route.depth = above.route.depth + 1 ∧
      route.parent? = some above.route ∧ above.adapters = some table ∧
      route.lastHop? = some last ∧ table[last.toNat]? = some none ∧
      t' = (t.setNode parent
        { above with adapters := some (table.set last.toNat (some id)) }).setNode id
          ⟨value, route, some parent, none⟩ := by
  replace hi := put_of_insert hi
  unfold put at hi
  split at hi
  · cases hi
  · split at hi
    · cases hi
    · rename_i above ha
      split at hi
      · cases hi
      · rename_i hbelow
        obtain ⟨hdepth, hparent⟩ : route.depth = above.route.depth + 1 ∧
            route.parent? = some above.route := by simpa [not_or] using hbelow
        split at hi
        · cases hi
        · rename_i table ht
          simp only at hi
          split at hi
          · cases hi
          · cases hi
          · rename_i hslot
            cases hi
            cases hlast : route.lastHop? with
            | none => simp [hlast] at hslot
            | some last =>
              simp only [hlast, Option.getD_some] at hslot
              split at hslot
              · cases hslot
              · exact ⟨above, table, last, ha, hdepth, hparent, ht, rfl, hslot, rfl⟩

theorem insert_spec {parent : NodeId} {route : Route} {value : α} (h : t.Sound)
    (hid : t.node? id = none) (hlt : id.number < t.nextId)
    (hi : t.insert parent id route value = .ok t') :
    t'.Sound ∧ t'.nextId = t.nextId ∧
      ∀ id', t'.place? id' =
        if id = id' then some (value, route, some parent) else t.place? id' := by
  obtain ⟨above, table, last, ha, -, -, ht, hlast, hslot, rfl⟩ := insert_eq_ok hi
  have hne : id ≠ parent := by
    rintro rfl
    rw [hid] at ha
    cases ha
  -- the leaf first, so that the slot leads to it when the table is set
  have swap : ∀ id', ((t.setNode parent { above with
        adapters := some (table.set last.toNat (some id)) }).setNode
          id ⟨value, route, some parent, none⟩).node? id' =
      ((t.setNode id ⟨value, route, some parent, none⟩).setNode parent { above with
        adapters := some (table.set last.toNat (some id)) }).node? id' := by
    intro id'
    simp only [node?_setNode]
    by_cases h1 : id = id' <;> by_cases h2 : parent = id' <;> simp [h1, h2]
    exact absurd (h1.trans h2.symm) hne
  have leaf : (t.setNode id ⟨value, route, some parent, none⟩).Sound := h.addLeaf hid hlt rfl
  have ha' : (t.setNode id ⟨value, route, some parent, none⟩).node? parent = some above := by
    rw [node?_setNode, if_neg hne, ha]
  have tabled := leaf.setTable ha' (table.set last.toNat (some id)) fun hop child hc => by
    rw [List.getElem?_set] at hc
    split at hc
    · rename_i e
      split at hc
      · cases hc
        exact ⟨_, last, by rw [node?_setNode, if_pos rfl], rfl, hlast, e⟩
      · cases hc
    · exact leaf.below parent above table hop child ha' ht hc
  refine ⟨tabled.of_reads rfl rfl swap, rfl, fun id' => ?_⟩
  have kept := place?_setNode_of_place ha'
    { above with adapters := some (table.set last.toNat (some id)) } rfl id'
  unfold place? at kept ⊢
  rw [swap, kept, node?_setNode]
  split <;> rfl

theorem unlinkSlot_spec (h : t.Sound) (parent : NodeId) (hop : Nat) (id : NodeId) :
    (t.unlinkSlot parent hop id).Sound ∧ (t.unlinkSlot parent hop id).nextId = t.nextId ∧
      (∀ id', (t.unlinkSlot parent hop id).place? id' = t.place? id') ∧
      (t.unlinkSlot parent hop id).root = t.root ∧
      ∀ above table, (t.unlinkSlot parent hop id).node? parent = some above →
        above.adapters = some table → table[hop]? ≠ some (some id) := by
  unfold unlinkSlot
  split
  · rename_i hp
    exact ⟨h, rfl, fun _ => rfl, rfl, fun above table ha => by rw [hp] at ha; cases ha⟩
  · rename_i above hp
    split
    · rename_i ht
      refine ⟨h, rfl, fun _ => rfl, rfl, fun above' table ha hs => ?_⟩
      rw [hp] at ha
      cases ha
      rw [ht] at hs
      cases hs
    · rename_i table ht
      split
      · refine ⟨h.setTable hp _ fun hop' child hc => ?_, rfl, place?_setNode_of_place hp _ rfl, rfl,
          fun above' table' ha hs hc => ?_⟩
        · rw [List.getElem?_set] at hc
          split at hc
          · split at hc <;> cases hc
          · exact h.below parent above table hop' child hp ht hc
        · rw [node?_setNode, if_pos rfl] at ha
          cases ha
          cases hs
          rw [List.getElem?_set, if_pos rfl] at hc
          split at hc <;> cases hc
      · rename_i hslot
        refine ⟨h, rfl, fun _ => rfl, rfl, fun above' table' ha hs => ?_⟩
        rw [hp] at ha
        cases ha
        rw [ht] at hs
        cases hs
        exact hslot

/-- Taking out a record that no slot and no root points to. -/
theorem Sound.dropNode (h : t.Sound) (hroot : t.root ≠ some id)
    (unheld : ∀ p above (table : List (Option NodeId)) (hop : Nat), t.node? p = some above →
      above.adapters = some table → table[hop]? ≠ some (some id)) : (t.dropNode id).Sound where
  fresh id' node hn := by
    rw [node?_dropNode] at hn
    split at hn
    · cases hn
    · exact h.fresh id' node hn
  below p above table hop child hp ha hs := by
    rw [node?_dropNode] at hp
    split at hp
    · cases hp
    · obtain ⟨below, last, hc, hrest⟩ := h.below p above table hop child hp ha hs
      refine ⟨below, last, ?_, hrest⟩
      rw [node?_dropNode, if_neg, hc]
      rintro rfl
      exact unheld p above table hop hp ha hs
  top id' hr := by
    obtain ⟨node, hn, hrest⟩ := h.top id' hr
    refine ⟨node, ?_, hrest⟩
    rw [node?_dropNode, if_neg, hn]
    rintro rfl
    exact hroot hr

/-- A slot that leads to a router is the one its record names. -/
theorem Sound.slot_of_place {p : NodeId} {above : TreeNode α} {table : List (Option NodeId)}
    {hop : Nat} (h : t.Sound) (he : t.place? id = some node.place) (hp : t.node? p = some above)
    (ha : above.adapters = some table) (hc : table[hop]? = some (some id)) :
    ∃ last, node.parent = some p ∧ node.route.lastHop? = some last ∧ last.toNat = hop := by
  obtain ⟨node', last, hn, hpar, hlast, heq⟩ := h.below p above table hop id hp ha hc
  unfold place? at he
  rw [hn] at he
  simp only [TreeNode.place, Option.map_some, Option.some.injEq, Prod.mk.injEq] at he
  exact ⟨last, he.2.2 ▸ hpar, he.2.1 ▸ hlast, heq⟩

/-- The tree in which the slot above a router is cleared. -/
def cleared (t : RouterTree α) (id : NodeId) (node : TreeNode α) : RouterTree α :=
  match node.parent, node.route.lastHop? with
  | some parent, some hop => t.unlinkSlot parent hop.toNat id
  | _, _ => t

theorem cleared_spec (h : t.Sound) (hn : t.node? id = some node) :
    (t.cleared id node).Sound ∧ (t.cleared id node).nextId = t.nextId ∧
      (∀ id', (t.cleared id node).place? id' = t.place? id') ∧
      ∀ p above (table : List (Option NodeId)) (hop : Nat),
        (t.cleared id node).node? p = some above → above.adapters = some table →
          table[hop]? ≠ some (some id) := by
  have he : t.place? id = some node.place := by
    unfold place?
    rw [hn]
    rfl
  unfold cleared
  split
  · rename_i parent hop hpar hhop
    obtain ⟨hs, hnext, hplace, -, hslot⟩ := unlinkSlot_spec h parent hop.toNat id
    refine ⟨hs, hnext, hplace, fun p above table hop' hp ha hc => ?_⟩
    obtain ⟨last, hpar', hlast, rfl⟩ := hs.slot_of_place ((hplace id).trans he) hp ha hc
    rw [hpar] at hpar'
    rw [hhop] at hlast
    cases hpar'
    cases hlast
    exact hslot above table hp ha hc
  · rename_i none_of
    refine ⟨h, rfl, fun _ => rfl, fun p above table hop hp ha hc => ?_⟩
    obtain ⟨last, hpar, hlast, -⟩ := h.slot_of_place he hp ha hc
    exact none_of p last hpar hlast

/-- Removing a router takes its record out and leaves all other places as they were. -/
theorem remove_spec {value : α} (h : t.Sound) (hr : t.remove id = .ok (value, t')) :
    t'.Sound ∧ t'.nextId = t.nextId ∧ t.get? id = some value ∧
      ∀ id', t'.place? id' = if id = id' then none else t.place? id' := by
  replace hr := take_of_remove hr
  unfold take at hr
  split at hr
  · cases hr
  · rename_i node hn
    split at hr
    · cases hr
    · obtain ⟨hs, hnext, hplace, unheld⟩ := cleared_spec h hn
      have rootless : ∀ u : RouterTree α, u = (if (t.cleared id node).root = some id then
          { t.cleared id node with root := none } else t.cleared id node) →
          u.Sound ∧ u.root ≠ some id ∧ u.nextId = (t.cleared id node).nextId ∧
            ∀ id', u.node? id' = (t.cleared id node).node? id' := by
        rintro u rfl
        split
        · exact ⟨⟨hs.fresh, hs.below, nofun⟩, nofun, rfl, fun _ => rfl⟩
        · rename_i hroot
          exact ⟨hs, hroot, rfl, fun _ => rfl⟩
      obtain ⟨hs', hroot, hnext', reads⟩ := rootless _ rfl
      cases hr
      refine ⟨hs'.dropNode hroot fun p above table hop hp => ?_, hnext'.trans hnext, ?_,
        fun id' => ?_⟩
      · rw [reads] at hp
        exact unheld p above table hop hp
      · unfold get?
        rw [hn]
        rfl
      · rw [← hplace id']
        unfold place?
        rw [← reads id', show _ = _ from node?_dropNode _ id id']
        split <;> rfl

/-! ## Walks -/

theorem descend_route {route : Route} {hops : List UInt8} {current : NodeId}
    (hd : t.descend route current hops = .ok id) :
    ∃ node, t.node? id = some node ∧ node.route = route := by
  induction hops generalizing current with
  | nil => cases hd
  | cons hop rest ih =>
    unfold descend at hd
    split at hd
    · cases hd
    · split at hd
      · cases hd
      · split at hd
        · cases hd
        · split at hd
          · cases hd
          · cases hd
          · rename_i next _
            split at hd
            · cases hd
            · rename_i reached hn
              split at hd
              · rename_i hroute
                cases hd
                exact ⟨reached, hn, hroute⟩
              · exact ih hd

/-- A look-up finds a router with the route it was asked for. -/
theorem lookup_route {route : Route} (h : t.Sound) (hl : t.lookup route = .ok id) :
    ∃ node, t.node? id = some node ∧ node.route = route := by
  unfold lookup at hl
  split at hl
  · cases hl
  · rename_i root hr
    split at hl
    · rename_i hroute
      cases hl
      obtain ⟨node, hn, hnroute, -⟩ := h.top id hr
      refine ⟨node, hn, hnroute.trans ?_⟩
      cases route
      simp only [Route.isRoot, decide_eq_true_eq] at hroute
      rw [hroute]
      rfl
    · exact descend_route hl

theorem contains_of_mem_children {hop : Nat} (h : t.Sound) (hc : (hop, id') ∈ t.children id) :
    t.contains id' = true := by
  unfold children at hc
  obtain ⟨⟨slot, adapter⟩, hm, hs⟩ := List.mem_filterMap.1 hc
  obtain ⟨child, rfl, he⟩ := Option.map_eq_some_iff.1 hs
  cases he
  have hslot := List.mk_mem_zipIdx_iff_getElem?.1 hm
  unfold adapters? at hslot
  cases hn : t.node? id with
  | none => simp [hn] at hslot
  | some above =>
    cases ht : above.adapters with
    | none => simp [hn, ht] at hslot
    | some table =>
      simp only [hn, ht, Option.bind_some, Option.getD_some] at hslot
      obtain ⟨node, last, hchild, -⟩ := h.below id above table hop id' hn ht hslot
      unfold contains
      rw [hchild]
      rfl

/-- A subtree consists of routers that are there. -/
theorem contains_of_mem_subtree (h : t.Sound) (hm : id' ∈ t.subtree id) :
    t.contains id' = true := by
  have walk : ∀ fuel id, t.contains id = true → ∀ id' ∈ t.postOrder fuel id,
      t.contains id' = true := by
    intro fuel
    induction fuel with
    | zero => intro id _ id' hm; cases hm
    | succ fuel ih =>
      intro id hid id' hm
      unfold postOrder at hm
      rcases List.mem_append.1 hm with hm | hm
      · obtain ⟨⟨hop, child⟩, hc, hm⟩ := List.mem_flatMap.1 hm
        exact ih child (contains_of_mem_children h hc) id' hm
      · rw [List.mem_singleton.1 hm]
        exact hid
  unfold subtree at hm
  split at hm
  · rename_i hid
    exact walk _ id hid id' hm
  · cases hm

end RouterTree

end RouterFabric
