import Mathlib.Data.List.Induction
import Mathlib.Data.List.Perm.Subperm
import RouterFabric.Proofs.Tree.Lookup
import RouterFabric.Proofs.Tree.Tables

/-!
# Subtrees

A router is below another one if hops lead down to it, and in a rooted tree that is so if its route
continues the route of the other one. The subtree of a router lists what is below it, every router
after all that is below it, so that the routers of the list can be removed one after the other.
What is left is the tree without them.

* `Below`, `Rooted.below_iff` : what is below a router, by its links and by its route
* `Rooted.mem_subtree`, `Rooted.subtree_pairwise` : what a subtree lists, and in which order
* `Without` : a tree from which some routers have been taken out
* `Without.remove` : the next router can be taken out, if all below it are out
* `Without.child?_kept`, `Without.lookup_eq_ok_iff` : what becomes of the others
-/

namespace RouterFabric.RouterTree

variable {α : Type} {t t' t'' : RouterTree α} {id id' top p c : NodeId} {value : α}
  {route above below : Route} {slot fuel : Nat} {hops front rest : List UInt8}
  {gone : List NodeId}

/-! ## Below a router -/

/-- The router is the other one, or hops lead down to it from there. -/
def Below (t : RouterTree α) (top id : NodeId) : Prop :=
  ∃ hops, t.follow top hops = some id

theorem below_refl (t : RouterTree α) (id : NodeId) : t.Below id id :=
  ⟨[], rfl⟩

theorem follow_append (t : RouterTree α) (current : NodeId) (front rest : List UInt8) :
    t.follow current (front ++ rest) = (t.follow current front).bind (t.follow · rest) := by
  induction front generalizing current with
  | nil => rfl
  | cons hop front ih =>
    rw [List.cons_append, follow, follow, Option.bind_assoc]
    congr 1
    funext next
    exact ih next

theorem contains_iff : t.contains id = true ↔ ∃ r, t.route? id = some r := by
  unfold contains route?
  rw [Option.isSome_iff_exists]
  constructor
  · rintro ⟨node, hn⟩
    exact ⟨node.route, by rw [hn]; rfl⟩
  · rintro ⟨r, hr⟩
    obtain ⟨node, hn, -⟩ := Option.map_eq_some_iff.1 hr
    exact ⟨node, hn⟩

/-- What is below a router has the route of that router with more hops. -/
theorem Rooted.below_iff (h : t.Rooted) (htop : t.route? top = some above) :
    t.Below top id ↔ ∃ below, t.route? id = some below ∧ above.hops <+: below.hops := by
  constructor
  · rintro ⟨hops, hf⟩
    obtain ⟨below, hb, hhops⟩ := h.route?_of_follow htop hf
    exact ⟨below, hb, hops, hhops.symm⟩
  · rintro ⟨below, hb, hops, hhops⟩
    obtain ⟨root, hroot, hf⟩ := h.follow_of_route? hb
    rw [← hhops, follow_append, (h.route?_eq_some_iff hroot).1 htop] at hf
    exact ⟨hops, hf⟩

theorem Rooted.below_of_child? (h : t.Rooted) (hc : t.child? p slot = some c) :
    t.Below p c := by
  obtain ⟨-, -, last, -, -, rfl, -⟩ := h.hop _ _ _ hc
  exact ⟨[last], by rw [follow_cons hc, follow_nil]⟩

/-- No router is below one that hangs below it. -/
theorem Rooted.not_below_of_child? (h : t.Rooted) (hc : t.child? p slot = some c)
    (hb : t.Below c id) : ¬ t.Below id p := by
  intro hback
  obtain ⟨above, below, last, hp, hbelow, -, hhops⟩ := h.hop _ _ _ hc
  obtain ⟨route, hid, hdown⟩ := (h.below_iff hbelow).1 hb
  obtain ⟨route', hp', hup⟩ := (h.below_iff hid).1 hback
  cases hp.symm.trans hp'
  have hle := (hdown.trans hup).length_le
  rw [hhops, List.length_append, List.length_singleton] at hle
  omega

/-- Nothing is below two routers that hang in different slots of one router. -/
theorem Rooted.slot_unique (h : t.Rooted) {slot' : Nat} {c' : NodeId}
    (hc : t.child? p slot = some c) (hc' : t.child? p slot' = some c') (hb : t.Below c id)
    (hb' : t.Below c' id) : slot = slot' := by
  obtain ⟨above, below, last, hp, hbelow, rfl, hhops⟩ := h.hop _ _ _ hc
  obtain ⟨above', below', last', hp', hbelow', rfl, hhops'⟩ := h.hop _ _ _ hc'
  cases hp.symm.trans hp'
  obtain ⟨route, hid, hprefix⟩ := (h.below_iff hbelow).1 hb
  obtain ⟨route', hid', hprefix'⟩ := (h.below_iff hbelow').1 hb'
  cases hid.symm.trans hid'
  have hsame : below.hops = below'.hops := by
    refine List.IsPrefix.eq_of_length (List.prefix_of_prefix_length_le hprefix hprefix' ?_) ?_ <;>
      simp [hhops, hhops']
  rw [hhops, hhops'] at hsame
  have hlast : [last] = [last'] := List.append_cancel_left hsame
  rw [List.singleton_inj.1 hlast]

/-- What is below a router that hangs somewhere is that one, or hangs below the same router. -/
theorem Rooted.below_above (h : t.Rooted) (htop : t.contains top = true)
    (hc : t.child? p slot = some c) (hb : t.Below top c) : c = top ∨ t.Below top p := by
  obtain ⟨upper, htop⟩ := contains_iff.1 htop
  obtain ⟨above, below, last, hp, hbelow, -, hhops⟩ := h.hop _ _ _ hc
  obtain ⟨below', hbelow', hprefix⟩ := (h.below_iff htop).1 hb
  cases hbelow.symm.trans hbelow'
  rw [hhops, List.prefix_concat_iff] at hprefix
  rcases hprefix with hsame | hshorter
  · left
    rw [← hhops] at hsame
    rw [Route.hops_injective hsame] at htop
    exact Except.ok.inj ((h.lookup_eq_ok_iff.2 hbelow).symm.trans (h.lookup_eq_ok_iff.2 htop))
  · exact .inr ((h.below_iff htop).2 ⟨above, hp, hshorter⟩)

/-! ## Subtrees -/

theorem mem_children : (slot, c) ∈ t.children id ↔ t.child? id slot = some c := by
  unfold children child?
  rw [List.mem_filterMap, Option.join_eq_some_iff]
  constructor
  · rintro ⟨⟨held, adapter⟩, hmem, heq⟩
    obtain ⟨child, rfl, heq⟩ := Option.map_eq_some_iff.1 heq
    cases heq
    have hslot := List.mk_mem_zipIdx_iff_getElem?.1 hmem
    cases htable : t.adapters? id with
    | none => simp [htable] at hslot
    | some table =>
      rw [htable] at hslot
      exact hslot
  · intro hslot
    obtain ⟨table, htable, hheld⟩ := Option.bind_eq_some_iff.1 hslot
    refine ⟨(some c, slot), List.mk_mem_zipIdx_iff_getElem?.2 ?_, rfl⟩
    rw [htable]
    exact hheld

/-- No two children hang in one slot. -/
theorem children_pairwise (t : RouterTree α) (id : NodeId) :
    (t.children id).Pairwise fun a b => a.1 ≠ b.1 := by
  unfold children
  have hslots : (((t.adapters? id).getD []).zipIdx.map Prod.snd).Nodup := by
    rw [List.zipIdx_map_snd]
    exact List.nodup_range' _
  rw [List.pairwise_filterMap]
  refine (List.pairwise_map.1 hslots).imp ?_
  rintro ⟨held, slot⟩ ⟨held', slot'⟩ hne a ha b hb
  obtain ⟨child, -, rfl⟩ := Option.map_eq_some_iff.1 ha
  obtain ⟨child', -, rfl⟩ := Option.map_eq_some_iff.1 hb
  exact hne

/-- A walk comes to what fewer hops lead to than it has levels. -/
theorem Rooted.mem_postOrder (h : t.Rooted) :
    id' ∈ t.postOrder fuel id ↔ ∃ hops, hops.length < fuel ∧ t.follow id hops = some id' := by
  induction fuel generalizing id with
  | zero => simp [postOrder]
  | succ fuel ih =>
    rw [postOrder, List.mem_append, List.mem_flatMap, List.mem_singleton]
    constructor
    · rintro (⟨⟨slot, c⟩, hmem, hwalk⟩ | rfl)
      · have hc := mem_children.1 hmem
        obtain ⟨-, -, last, -, -, rfl, -⟩ := h.hop _ _ _ hc
        obtain ⟨hops, hlt, hf⟩ := ih.1 hwalk
        exact ⟨last :: hops, Nat.succ_lt_succ hlt, (follow_cons hc).trans hf⟩
      · exact ⟨[], Nat.succ_pos fuel, rfl⟩
    · rintro ⟨_ | ⟨hop, hops⟩, hlt, hf⟩
      · exact .inr (Option.some.inj hf).symm
      · obtain ⟨c, hc, hf⟩ := Option.bind_eq_some_iff.1 hf
        exact .inl ⟨(hop.toNat, c), mem_children.2 hc,
          ih.2 ⟨hops, Nat.lt_of_succ_lt_succ hlt, hf⟩⟩

/-- The routers on the way to one below differ by the lengths of their routes, so that there are
more routers than hops. -/
theorem Rooted.length_lt_size (h : t.Rooted) (htop : t.contains top = true)
    (hf : t.follow top hops = some id) : hops.length < t.size := by
  obtain ⟨above, htop⟩ := contains_iff.1 htop
  obtain ⟨way, hlength, hnodup, hway⟩ : ∃ way : List NodeId, way.length = hops.length + 1 ∧
      way.Nodup ∧ ∀ x ∈ way, ∃ r, t.route? x = some r ∧
        r.hops.length ≤ above.hops.length + hops.length := by
    induction hops using List.reverseRecOn generalizing id with
    | nil =>
      refine ⟨[top], rfl, List.pairwise_singleton _ _, List.forall_mem_singleton.2 ?_⟩
      exact ⟨above, htop, Nat.le_refl _⟩
    | append_singleton front hop ih =>
      rw [follow_concat] at hf
      obtain ⟨p, hfront, hc⟩ := Option.bind_eq_some_iff.1 hf
      obtain ⟨way, hlength, hnodup, hway⟩ := ih hfront
      obtain ⟨upper, hupper, hhops⟩ := h.route?_of_follow htop hfront
      obtain ⟨upper', lower, last, hupper', hlower, -, hhops'⟩ := h.hop _ _ _ hc
      cases hupper.symm.trans hupper'
      have hlong : lower.hops.length = above.hops.length + front.length + 1 := by
        rw [hhops', hhops, List.length_append, List.length_append, List.length_singleton]
      have hmore : (front ++ [hop]).length = front.length + 1 := by
        rw [List.length_append, List.length_singleton]
      refine ⟨id :: way, by rw [List.length_cons, hlength, hmore],
        List.nodup_cons.2 ⟨fun hmem => ?_, hnodup⟩,
        List.forall_mem_cons.2 ⟨⟨lower, hlower, by omega⟩, fun x hx => ?_⟩⟩
      · obtain ⟨r, hr, hle⟩ := hway id hmem
        cases hlower.symm.trans hr
        omega
      · obtain ⟨r, hr, hle⟩ := hway x hx
        exact ⟨r, hr, by omega⟩
  have hsubset : way ⊆ t.nodes.map (·.1) := by
    intro x hx
    obtain ⟨r, hr, -⟩ := hway x hx
    obtain ⟨node, hn, -⟩ := Option.map_eq_some_iff.1 hr
    obtain ⟨entry, hentry, -⟩ := Option.map_eq_some_iff.1 hn
    refine List.mem_map.2 ⟨entry, List.mem_of_find?_eq_some hentry, ?_⟩
    have hkey := List.find?_some hentry
    exact eq_of_beq hkey
  have hle := (List.subperm_of_subset hnodup hsubset).length_le
  rw [List.length_map] at hle
  show hops.length < t.nodes.length
  omega

/-- **A subtree lists what is below a router.** -/
theorem Rooted.mem_subtree (h : t.Rooted) :
    id ∈ t.subtree top ↔ t.contains top = true ∧ t.Below top id := by
  unfold subtree
  split
  · rename_i htop
    rw [h.mem_postOrder]
    constructor
    · rintro ⟨hops, -, hf⟩
      exact ⟨htop, hops, hf⟩
    · rintro ⟨-, hops, hf⟩
      exact ⟨hops, Nat.lt_succ_of_lt (h.length_lt_size htop hf), hf⟩
  · rename_i htop
    exact ⟨nofun, fun hmem => absurd hmem.1 htop⟩

theorem Rooted.postOrder_pairwise (h : t.Rooted) (fuel : Nat) (id : NodeId) :
    (t.postOrder fuel id).Pairwise fun a b => ¬ t.Below a b := by
  have below {fuel : Nat} {id id' : NodeId} (hmem : id' ∈ t.postOrder fuel id) :
      t.Below id id' := by
    obtain ⟨hops, -, hf⟩ := h.mem_postOrder.1 hmem
    exact ⟨hops, hf⟩
  induction fuel generalizing id with
  | zero => exact List.Pairwise.nil
  | succ fuel ih =>
    rw [postOrder, List.pairwise_append, List.pairwise_flatMap]
    refine ⟨⟨fun child _ => ih child.2, ?_⟩, List.pairwise_singleton _ _, ?_⟩
    · -- two branches have nothing in common
      refine (children_pairwise t id).imp_of_mem ?_
      rintro ⟨slot, c⟩ ⟨slot', c'⟩ hmem hmem' hne x hx y hy hxy
      obtain ⟨hops, hf⟩ := below hx
      obtain ⟨hops', hf'⟩ := hxy
      have hdown : t.Below c y := ⟨hops ++ hops', by rw [follow_append, hf]; exact hf'⟩
      exact hne (h.slot_unique (mem_children.1 hmem) (mem_children.1 hmem') hdown (below hy))
    · intro x hx y hy
      obtain ⟨⟨slot, c⟩, hmem, hwalk⟩ := List.mem_flatMap.1 hx
      rw [List.mem_singleton.1 hy]
      exact h.not_below_of_child? (mem_children.1 hmem) (below hwalk)

/-- **Whatever is below a router comes before it in the list**, and nothing comes twice. -/
theorem Rooted.subtree_pairwise (h : t.Rooted) (top : NodeId) :
    (t.subtree top).Pairwise fun a b => ¬ t.Below a b := by
  unfold subtree
  split
  · exact h.postOrder_pairwise _ _
  · exact List.Pairwise.nil

theorem Rooted.nodup_subtree (h : t.Rooted) (top : NodeId) : (t.subtree top).Nodup := by
  refine (h.subtree_pairwise top).imp ?_
  rintro a _ hnot rfl
  exact hnot (below_refl t a)

/-- A router has its children before it in the list. -/
theorem Rooted.child?_mem_front (h : t.Rooted) {front back : List NodeId}
    (hlist : t.subtree top = front ++ id :: back) (hc : t.child? id slot = some c) :
    c ∈ front := by
  have hid : id ∈ t.subtree top := hlist ▸ List.mem_append_right _ List.mem_cons_self
  obtain ⟨htop, hops, hf⟩ := h.mem_subtree.1 hid
  obtain ⟨-, -, last, -, -, rfl, -⟩ := h.hop _ _ _ hc
  have hmem : c ∈ t.subtree top :=
    h.mem_subtree.2 ⟨htop, hops ++ [last], by rw [follow_concat, hf]; exact hc⟩
  have hpairs := h.subtree_pairwise top
  rw [hlist, List.pairwise_append, List.pairwise_cons] at hpairs
  rw [hlist] at hmem
  have hbelow := h.below_of_child? hc
  rcases List.mem_append.1 hmem with hfront | hback
  · exact hfront
  · rcases List.mem_cons.1 hback with rfl | hback
    · exact absurd (below_refl t c) (h.not_below_of_child? hc (below_refl t c))
    · exact absurd hbelow (hpairs.2.1.1 c hback)

/-! ## Taking routers out -/

/-- A tree from which these routers have been taken out, and in which all others are as they
were. -/
structure Without (t t' : RouterTree α) (gone : List NodeId) : Prop where
  rooted : t'.Rooted
  nextId : t'.nextId = t.nextId
  root : t'.root = t.root.filter (· ∉ gone)
  place? : ∀ id, t'.place? id = if id ∈ gone then none else t.place? id
  room? : ∀ id, t'.room? id = if id ∈ gone then none else t.room? id
  child? : ∀ p slot, t'.child? p slot = (t.child? p slot).filter (· ∉ gone)

theorem Rooted.without_nil (h : t.Rooted) : t.Without t [] where
  rooted := h
  nextId := rfl
  root := by cases t.root <;> rfl
  place? _ := rfl
  room? _ := rfl
  child? p slot := by cases t.child? p slot <;> rfl

/-- A router below which there is none can be removed. -/
theorem exists_remove (hc : t.contains id = true) (hleaf : ∀ slot, t.child? id slot = none) :
    ∃ value t', t.remove id = .ok (value, t') := by
  obtain ⟨node, hn⟩ := Option.isSome_iff_exists.1 hc
  have hfree : (node.adapters.getD []).any Option.isSome = false := by
    rw [List.any_eq_false]
    intro held hmem hsome
    obtain ⟨child, rfl⟩ := Option.isSome_iff_exists.1 hsome
    cases htable : node.adapters with
    | none => simp [htable] at hmem
    | some table =>
      rw [htable] at hmem
      obtain ⟨slot, hslot⟩ := List.getElem?_of_mem hmem
      have hchild := child?_eq_some.2 ⟨node, table, hn, htable, hslot⟩
      cases (hleaf slot).symm.trans hchild
  unfold remove take
  rw [hn]
  simp only [hfree, Bool.false_eq_true, if_false]
  exact ⟨_, _, rfl⟩

/-- **The next router can be taken out**, once all that hung below it are out. -/
theorem Without.remove (w : t.Without t' gone) (hc : t.contains id = true) (hnew : id ∉ gone)
    (hbelow : ∀ slot c, t.child? id slot = some c → c ∈ gone) :
    ∃ value t'', t'.remove id = .ok (value, t'') ∧ t.Without t'' (gone ++ [id]) := by
  have hthere : t'.contains id = true := by
    obtain ⟨r, hr⟩ := contains_iff.1 hc
    refine contains_iff.2 ⟨r, ?_⟩
    rw [route?_eq_place, w.place?, if_neg hnew, ← route?_eq_place, hr]
  have hleaf (slot : Nat) : t'.child? id slot = none := by
    rw [w.child?]
    cases hchild : t.child? id slot with
    | none => rfl
    | some c => simp [hbelow slot c hchild]
  obtain ⟨value, t'', hr⟩ := exists_remove hthere hleaf
  obtain ⟨-, hnext, -, hplace⟩ := remove_spec w.rooted.toSound hr
  obtain ⟨hroot, -, hchild⟩ := child?_remove w.rooted.toSound hr
  have sieve (x : Option NodeId) : (if x.filter (· ∉ gone) = some id then none
      else x.filter (· ∉ gone)) = x.filter (· ∉ gone ++ [id]) := by
    cases x with
    | none => rfl
    | some x =>
      by_cases hx : x ∈ gone <;> by_cases heq : x = id <;> simp [Option.filter, hx, heq]
  refine ⟨value, t'', hr, w.rooted.remove hr, hnext.trans w.nextId, ?_, fun x => ?_,
    fun x => ?_, fun p slot => ?_⟩
  · rw [hroot, w.root]
    exact sieve t.root
  · rw [hplace, w.place?]
    by_cases hx : x ∈ gone <;> by_cases heq : id = x <;> simp [hx, heq, eq_comm]
  · rw [room?_remove hr, w.room?]
    by_cases hx : x ∈ gone <;> by_cases heq : id = x <;> simp [hx, heq, eq_comm]
  · rw [hchild, w.child?]
    exact sieve (t.child? p slot)

/-! ## What is left -/

/-- What is left is found as before, and nothing else is. -/
theorem Without.lookup_eq_ok_iff (w : t.Without t' gone) (h : t.Rooted) :
    t'.lookup route = .ok id ↔ t.lookup route = .ok id ∧ id ∉ gone := by
  rw [w.rooted.lookup_eq_ok_iff, h.lookup_eq_ok_iff, route?_eq_place, route?_eq_place, w.place?]
  by_cases hid : id ∈ gone <;> simp [hid]

/-- Of the routers that are left, only the one above the subtree has lost a child. -/
theorem Without.child?_kept (w : t.Without t' (t.subtree top)) (h : t.Rooted)
    (hid : id ∉ t.subtree top) (hslot : t.child? id slot ≠ some top) :
    t'.child? id slot = t.child? id slot := by
  rw [w.child?]
  cases hc : t.child? id slot with
  | none => rfl
  | some c =>
    refine Option.filter_eq_some_iff.2 ⟨rfl, decide_eq_true fun hmem => ?_⟩
    obtain ⟨htop, hb⟩ := h.mem_subtree.1 hmem
    rcases h.below_above htop hc hb with rfl | hup
    · exact hslot hc
    · exact hid (h.mem_subtree.2 ⟨htop, hup⟩)

/-- The slot in which the subtree hung is free. -/
theorem Without.child?_freed (w : t.Without t' (t.subtree top)) (h : t.Rooted)
    (hslot : t.child? id slot = some top) : t'.child? id slot = none := by
  obtain ⟨-, below, -, -, hbelow, -⟩ := h.hop _ _ _ hslot
  have hmem := h.mem_subtree.2 ⟨contains_iff.2 ⟨below, hbelow⟩, below_refl t top⟩
  rw [w.child?, hslot]
  simp [hmem]

end RouterFabric.RouterTree
