import Mathlib.Logic.Relation
import RouterFabric.Proofs.Tree.Subtree

/-!
# No cycle of slots, whatever the ids

Nothing keeps a caller from inserting a router under an id that is in use, or that was in use
before. Then a router can hang in several slots, a slot can hold a router that is gone, and a router
can come to hang below one that used to be below it. A walk down the slots still comes to an end:
an insertion takes the table of a router away, so that whatever hangs below a router was inserted
after it. The walk of a subtree, which looks at nothing else, is therefore finite.

With ids that are new when they come in, the slots form the tree that the routes describe, and a
subtree lists what is below a router once.

* `Leads` : a slot of one router holds the other
* `inserted?` : the router that a call inserts
* `Ranked` : the order of the last insertions, and slots that follow it
* `Walks`, `Ranked.walks` : the walk of a subtree, without a bound on its depth, and its end
* `recount`, `AllNew`, `grounded_afterAll` : trees that come of calls with new ids
* `acyclic_afterAll` : no cycle, walks that end, and subtrees that can be taken out in order
-/

namespace RouterFabric.RouterTree

variable {α : Type} {t t' : RouterTree α} {id p c top : NodeId} {slot : Nat} {change : Change α}
  {changes : List (Change α)} {rank : NodeId → Nat} {now fuel : Nat} {value : α}

/-- A slot of the one router holds the other. -/
def Leads (t : RouterTree α) (p c : NodeId) : Prop :=
  ∃ slot, t.child? p slot = some c

theorem leads_iff_mem : t.Leads p c ↔ c ∈ (t.children p).map (·.2) := by
  rw [List.mem_map]
  constructor
  · rintro ⟨slot, hc⟩
    exact ⟨(slot, c), mem_children.2 hc, rfl⟩
  · rintro ⟨⟨slot, c'⟩, hmem, rfl⟩
    exact ⟨slot, mem_children.1 hmem⟩

/-- A router in whose slots there is one has a record. -/
theorem Leads.node? (h : t.Leads p c) : ∃ node, t.node? p = some node := by
  obtain ⟨slot, hc⟩ := h
  obtain ⟨node, -, hn, -⟩ := child?_eq_some.1 hc
  exact ⟨node, hn⟩

/-! ## What a call inserts -/

/-- The router that a call is to insert. -/
def Change.inserts? : Change α → Option NodeId
  | .insertRoot id _ => some id
  | .insert _ id _ _ => some id
  | _ => none

/-- The router that a call inserts; a refused one inserts none. -/
def inserted? (t : RouterTree α) (change : Change α) : Option NodeId :=
  match t.attempt change with
  | .ok _ => change.inserts?
  | .error _ => none

theorem inserted?_of_ok (h : t.attempt change = .ok t') : t.inserted? change = change.inserts? := by
  rw [inserted?, h]

theorem leads_insertRoot (hi : t.insertRoot id value = .ok t') (h : t'.Leads p c) :
    p ≠ id ∧ t.Leads p c := by
  replace hi := putRoot_of_insertRoot hi
  unfold putRoot at hi
  split at hi
  · cases hi
  · cases hi
    obtain ⟨slot, hc⟩ := h
    replace hc := (child?_setNode t id p ⟨value, Route.root, none, none⟩ slot).symm.trans hc
    split at hc
    · cases hc
    · rename_i hne
      exact ⟨Ne.symm hne, slot, hc⟩

/-- The new router has no table, and one slot holds it, besides those that hold it already. -/
theorem leads_insert {parent : NodeId} {route : Route}
    (hi : t.insert parent id route value = .ok t') (h : t'.Leads p c) :
    p ≠ id ∧ (t.Leads p c ∨ c = id) := by
  obtain ⟨above, table, last, hn, -, -, htable, -, -, rfl⟩ := insert_eq_ok hi
  obtain ⟨slot, hc⟩ := h
  rw [child?_setNode, child?_setNode] at hc
  split at hc
  · cases hc
  · rename_i hne
    refine ⟨Ne.symm hne, ?_⟩
    split at hc
    · rename_i hp
      subst hp
      -- the slot is the one that was filled, or it is as it was
      simp only [Option.bind_some, List.getElem?_set, Option.join_eq_some_iff] at hc
      split at hc
      · split at hc
        · right
          exact (Option.some.inj (Option.some.inj hc)).symm
        · cases hc
      · left
        exact ⟨slot, child?_eq_some.2 ⟨above, table, hn, htable, hc⟩⟩
    · left
      exact ⟨slot, hc⟩

theorem leads_remove (hr : t.remove id = .ok (value, t')) (h : t'.Leads p c) : t.Leads p c := by
  obtain ⟨node, -, -, -, hslots⟩ := remove_eq_ok hr
  obtain ⟨slot, hc⟩ := h
  rw [hslots, child?_dropNode] at hc
  split at hc
  · cases hc
  · unfold cleared at hc
    split at hc
    · rw [child?_unlinkSlot] at hc
      split at hc
      · cases hc
      · exact ⟨slot, hc⟩
    · exact ⟨slot, hc⟩

/-- The step lemma: a slot that leads down after a call did so before, or it holds what the call
inserted, and it is not one of the inserted router. -/
theorem leads_after (h : (t.after change).Leads p c) :
    t.inserted? change ≠ some p ∧ (t.Leads p c ∨ t.inserted? change = some c) := by
  have hnone : none ≠ some p := (Option.some_ne_none p).symm
  cases hc : t.attempt change with
  | error failure =>
    rw [after_of_error hc] at h
    rw [inserted?, hc]
    exact ⟨hnone, .inl h⟩
  | ok t' =>
    rw [after_of_ok hc] at h
    rw [inserted?_of_ok hc]
    cases change with
    | allocateId =>
      cases hc
      exact ⟨hnone, .inl h⟩
    | insertRoot id value =>
      obtain ⟨hne, hold⟩ := leads_insertRoot hc h
      exact ⟨fun he => hne (Option.some.inj he).symm, .inl hold⟩
    | insert parent id route value =>
      obtain ⟨hne, hold⟩ := leads_insert hc h
      refine ⟨fun he => hne (Option.some.inj he).symm, ?_⟩
      apply hold.imp_right
      rintro rfl
      rfl
    | setAdapterCount id maxAdapter =>
      obtain ⟨slot, hslot⟩ := h
      rw [(child?_setAdapterCount hc).2] at hslot
      exact ⟨hnone, .inl ⟨slot, hslot⟩⟩
    | remove id =>
      obtain ⟨⟨value, t''⟩, hr, rfl⟩ : ∃ removed, t.remove id = .ok removed ∧ removed.2 = t' := by
        rw [attempt_remove] at hc
        cases hr : t.remove id with
        | error failure => rw [hr] at hc; cases hc
        | ok removed => rw [hr] at hc; cases hc; exact ⟨removed, rfl, rfl⟩
      exact ⟨hnone, .inl (leads_remove hr h)⟩

/-! ## The order of the last insertions -/

/-- Routers ranked by when they were inserted last, and every slot leads to one of a higher rank. -/
structure Ranked (t : RouterTree α) (rank : NodeId → Nat) (now : Nat) : Prop where
  past : ∀ id, rank id < now
  down : ∀ p c, t.Leads p c → rank p < rank c

/-- A call ranks what it inserts above all others. -/
theorem Ranked.after (h : t.Ranked rank now) (change : Change α) :
    (t.after change).Ranked (fun id => if t.inserted? change = some id then now else rank id)
      (now + 1) where
  past id := by
    have := h.past id
    split <;> omega
  down p c hlead := by
    obtain ⟨hp, hold⟩ := leads_after hlead
    rw [if_neg hp]
    split
    · exact h.past p
    · rename_i hc
      exact h.down p c (hold.resolve_right hc)

/-- The run lemma: whatever is done to a tree, its slots follow the order of the last insertions. -/
theorem Ranked.afterAll (h : t.Ranked rank now) (changes : List (Change α)) :
    ∃ rank now, (t.afterAll changes).Ranked rank now := by
  induction changes generalizing t rank now with
  | nil => exact ⟨rank, now, h⟩
  | cons change rest ih => exact ih (h.after change)

theorem ranked_empty : ({} : RouterTree α).Ranked (fun _ => 0) 1 where
  past _ := Nat.one_pos
  down _ _ h := by
    obtain ⟨_, hn⟩ := h.node?
    cases hn

theorem Ranked.lt_of_transGen (h : t.Ranked rank now) (hpath : Relation.TransGen t.Leads p c) :
    rank p < rank c := by
  induction hpath with
  | single hlead => exact h.down _ _ hlead
  | tail _ hlead ih => exact ih.trans (h.down _ _ hlead)

/-- **No router is below itself.** -/
theorem Ranked.acyclic (h : t.Ranked rank now) (id : NodeId) : ¬ Relation.TransGen t.Leads id id :=
  fun hcycle => Nat.lt_irrefl _ (h.lt_of_transGen hcycle)

/-! ## Walks -/

/-- The walk of subtrees one after the other, as deep as the slots lead: the walk of what hangs in
the slots of a router, and then the router. -/
inductive Walks (t : RouterTree α) : List NodeId → List NodeId → Prop
  | done : Walks t [] []
  | visit {id : NodeId} {rest below others : List NodeId} :
      Walks t ((t.children id).map (·.2)) below → Walks t rest others →
      Walks t (id :: rest) (below ++ id :: others)

variable {ids ids' listed listed' : List NodeId}

/-- A walk lists one thing only. -/
theorem Walks.unique (h : t.Walks ids listed) (h' : t.Walks ids listed') : listed = listed' := by
  induction h generalizing listed' with
  | done =>
    cases h'
    rfl
  | visit _ _ hbelow hothers =>
    cases h' with
    | visit hbelow' hothers' => rw [hbelow hbelow', hothers hothers']

theorem Walks.append (h : t.Walks ids listed) (h' : t.Walks ids' listed') :
    t.Walks (ids ++ ids') (listed ++ listed') := by
  induction h with
  | done => exact h'
  | visit hbelow _ _ hothers =>
    rw [List.append_assoc]
    exact .visit hbelow hothers

/-- Routers are walked one by one. -/
theorem walks_flatMap {list : NodeId → List NodeId} (h : ∀ id ∈ ids, t.Walks [id] (list id)) :
    t.Walks ids (ids.flatMap list) := by
  induction ids with
  | nil => exact .done
  | cons id rest ih =>
    rw [List.forall_mem_cons] at h
    rw [List.flatMap_cons]
    exact h.1.append (ih h.2)

/-- The records of the routers that rank at least as high. -/
def ranking (t : RouterTree α) (rank : NodeId → Nat) (id : NodeId) : List (NodeId × TreeNode α) :=
  t.nodes.filter fun entry => rank id ≤ rank entry.1

/-- On the way down a slot, the router that is left behind does not rank high enough any more. -/
theorem Ranked.ranking_lt (h : t.Ranked rank now) (hlead : t.Leads p c) :
    (t.ranking rank c).length < (t.ranking rank p).length := by
  have hlt := h.down p c hlead
  obtain ⟨node, hn⟩ := hlead.node?
  obtain ⟨⟨key, node'⟩, hentry, -⟩ := Option.map_eq_some_iff.1 hn
  have hkey : key = p := by simpa using List.find?_some hentry
  subst hkey
  have hsub : t.ranking rank c =
      (t.ranking rank key).filter fun entry => rank c ≤ rank entry.1 := by
    rw [ranking, ranking, List.filter_filter]
    congr 1
    funext entry
    rw [← Bool.decide_and, decide_eq_decide]
    omega
  rw [hsub, List.length_filter_lt_length_iff_exists]
  refine ⟨(key, node'), List.mem_filter.2 ⟨List.mem_of_find?_eq_some hentry, ?_⟩, ?_⟩
  · exact decide_eq_true (Nat.le_refl _)
  · simpa using hlt

/-- With more levels than there are routers that rank as high, the bound on the depth is never
reached. -/
theorem Ranked.walks_postOrder (h : t.Ranked rank now) (hlt : (t.ranking rank id).length < fuel) :
    t.Walks [id] (t.postOrder fuel id) := by
  induction fuel generalizing id with
  | zero => omega
  | succ fuel ih =>
    rw [postOrder]
    apply Walks.visit _ .done
    rw [← List.flatMap_map]
    apply walks_flatMap
    intro child hmem
    have hless := h.ranking_lt (leads_iff_mem.2 hmem)
    exact ih (by omega)

/-- **The walk below any router ends**, and the subtree is what it lists. -/
theorem Ranked.walks (h : t.Ranked rank now) (id : NodeId) :
    ∃ listed, (∀ listed', t.Walks [id] listed' ↔ listed' = listed) ∧
      t.subtree id = if t.contains id then listed else [] := by
  have hle : (t.ranking rank id).length ≤ t.size := List.length_filter_le _ _
  have hwalk : t.Walks [id] (t.postOrder (t.size + 1) id) := h.walks_postOrder (by omega)
  refine ⟨_, fun listed' => ⟨fun hwalk' => hwalk'.unique hwalk, ?_⟩, rfl⟩
  rintro rfl
  exact hwalk

/-! ## New ids -/

/-- Each router that some calls insert comes in under an id that no router has by then. -/
def AllNew : RouterTree α → List (Change α) → Prop
  | _, [] => True
  | t, change :: rest =>
    (∀ id ∈ t.inserted? change, t.contains id = false) ∧ (t.after change).AllNew rest

instance decidableAllNew (t : RouterTree α) :
    (changes : List (Change α)) → Decidable (t.AllNew changes)
  | [] => instDecidableTrue
  | change :: rest =>
    have := decidableAllNew (t.after change) rest
    inferInstanceAs (Decidable (_ ∧ _))

/-- The tree, with another id to be allocated next. -/
def recount (t : RouterTree α) (next : Nat) : RouterTree α :=
  { t with nextId := next }

section Recount

variable {next : Nat}

theorem recount_unlinkSlot (t : RouterTree α) (next : Nat) (parent : NodeId) (hop : Nat)
    (id : NodeId) :
    (t.recount next).unlinkSlot parent hop id = (t.unlinkSlot parent hop id).recount next := by
  unfold unlinkSlot
  rw [show (t.recount next).node? parent = t.node? parent from rfl]
  cases t.node? parent with
  | none => rfl
  | some above =>
    simp only
    cases above.adapters with
    | none => rfl
    | some table =>
      simp only
      split <;> rfl

theorem recount_cleared (t : RouterTree α) (next : Nat) (id : NodeId) (node : TreeNode α) :
    (t.recount next).cleared id node = (t.cleared id node).recount next := by
  unfold cleared
  split
  · exact recount_unlinkSlot t next _ _ _
  · rfl

theorem recount_remove (t : RouterTree α) (next : Nat) (id : NodeId) :
    (t.recount next).remove id =
      (t.remove id).map fun removed => (removed.1, removed.2.recount next) := by
  -- the two removals, written with the tree in which the slot is cleared
  have written (u : RouterTree α) : u.remove id =
      (u.node? id).elim (.error .notFound) fun node =>
        if (node.adapters.getD []).any Option.isSome then .error .busy
        else .ok (node.value, RouterTree.dropNode (if (u.cleared id node).root = some id then
          { u.cleared id node with root := none } else u.cleared id node) id) := by
    unfold remove take
    cases u.node? id with
    | none => rfl
    | some node =>
      simp only [Option.elim_some]
      split <;> rfl
  rw [written, written, show (t.recount next).node? id = t.node? id from rfl]
  cases t.node? id with
  | none => rfl
  | some node =>
    simp only [Option.elim_some, recount_cleared]
    split
    · rfl
    · rw [show ((t.cleared id node).recount next).root = (t.cleared id node).root from rfl]
      split <;> rfl

theorem recount_insert (t : RouterTree α) (next : Nat) (parent id : NodeId) (route : Route)
    (value : α) : (t.recount next).insert parent id route value =
      (t.insert parent id route value).map (·.recount next) := by
  unfold insert put
  rw [show (t.recount next).node? parent = t.node? parent from rfl]
  cases route.validate with
  | error fault => rfl
  | ok _ =>
    cases t.node? parent with
    | none => rfl
    | some above =>
      simp only
      split
      · rfl
      · cases above.adapters with
        | none => rfl
        | some table =>
          simp only
          generalize (if (route.lastHop?.getD 0).toNat = 0 then none
            else table[(route.lastHop?.getD 0).toNat]?) = held
          rcases held with _ | _ | held <;> rfl

/-- Which id is to be allocated next makes no difference to any call that allocates none. -/
theorem recount_attempt (t : RouterTree α) (next : Nat) (hne : change ≠ .allocateId) :
    (t.recount next).attempt change = (t.attempt change).map (·.recount next) := by
  cases change with
  | allocateId => exact absurd rfl hne
  | insertRoot id value =>
    rw [attempt_insertRoot, attempt_insertRoot]
    unfold insertRoot putRoot
    rw [show (t.recount next).root = t.root from rfl]
    cases t.root <;> rfl
  | insert parent id route value =>
    rw [attempt_insert, attempt_insert]
    exact recount_insert t next parent id route value
  | setAdapterCount id maxAdapter =>
    rw [attempt_setAdapterCount, attempt_setAdapterCount]
    unfold setAdapterCount equip
    rw [show (t.recount next).node? id = t.node? id from rfl]
    cases t.node? id with
    | none => rfl
    | some node =>
      simp only
      cases node.adapters <;> rfl
  | remove id =>
    rw [attempt_remove, attempt_remove, recount_remove]
    cases t.remove id <;> rfl

theorem recount_postOrder (t : RouterTree α) (next fuel : Nat) (id : NodeId) :
    (t.recount next).postOrder fuel id = t.postOrder fuel id := by
  induction fuel generalizing id with
  | zero => rfl
  | succ fuel ih =>
    rw [postOrder, postOrder]
    simp only [ih]
    rfl

theorem recount_subtree (t : RouterTree α) (next : Nat) (id : NodeId) :
    (t.recount next).subtree id = t.subtree id := by
  unfold subtree
  rw [recount_postOrder]
  rfl

end Recount

/-- The slots of the tree are as the routes say, but its ids need not have been allocated. -/
def Grounded (t : RouterTree α) : Prop :=
  ∃ next, (t.recount next).Rooted

theorem Rooted.recount {next : Nat} (h : t.Rooted) (hle : t.nextId ≤ next) :
    (t.recount next).Rooted where
  fresh id node hn := Nat.lt_of_lt_of_le (h.fresh id node hn) hle
  below := h.below
  top := h.top
  held := h.held
  hop := h.hop

/-- The step lemma: a call that inserts under a new id, or inserts nothing, uproots no router. -/
theorem Grounded.after (h : t.Grounded) (hnew : ∀ id ∈ t.inserted? change, t.contains id = false) :
    (t.after change).Grounded := by
  obtain ⟨next, h⟩ := h
  by_cases hallocate : change = .allocateId
  · subst hallocate
    exact ⟨next, h⟩
  · cases hc : t.attempt change with
    | error failure =>
      rw [after_of_error hc]
      exact ⟨next, h⟩
    | ok t' =>
      rw [inserted?_of_ok hc] at hnew
      -- enough ids are counted as allocated for the new one to be among them
      obtain ⟨more, hle, hmore⟩ : ∃ more, next ≤ more ∧
          ∀ id ∈ change.inserts?, id.number < more := by
        refine ⟨max next ((change.inserts?.map (·.number + 1)).getD 0), Nat.le_max_left _ _, ?_⟩
        intro id hid
        rw [hid, Option.map_some, Option.getD_some]
        omega
      have hrooted : (t.recount more).Rooted := h.recount (t := t.recount next) hle
      have hadmissible : (t.recount more).Admissible change := by
        cases change with
        | insertRoot id value => exact ⟨hmore id rfl, hnew id rfl⟩
        | insert parent id route value => exact ⟨hmore id rfl, hnew id rfl⟩
        | _ => exact trivial
      have hok : (t.recount more).attempt change = .ok (t'.recount more) := by
        rw [recount_attempt t more hallocate, hc]
        rfl
      have hafter := hrooted.after hadmissible
      rw [after_of_ok hok] at hafter
      rw [after_of_ok hc]
      exact ⟨more, hafter⟩

/-- The run lemma: trees that come of calls with new ids are as the routes say. -/
theorem Grounded.afterAll (h : t.Grounded) (hnew : t.AllNew changes) :
    (t.afterAll changes).Grounded := by
  induction changes generalizing t with
  | nil => exact h
  | cons change rest ih => exact ih (h.after hnew.1) hnew.2

theorem grounded_empty : ({} : RouterTree α).Grounded :=
  ⟨0, rooted_empty⟩

/-! ## Subtrees with new ids -/

/-- Slots lead to what hops lead to. -/
theorem Rooted.below_iff_leads (h : t.Rooted) :
    t.Below top id ↔ Relation.ReflTransGen t.Leads top id := by
  constructor
  · rintro ⟨hops, hf⟩
    induction hops generalizing top with
    | nil =>
      cases hf
      exact .refl
    | cons hop rest ih =>
      obtain ⟨next, hc, hf⟩ := Option.bind_eq_some_iff.1 hf
      exact .head ⟨hop.toNat, hc⟩ (ih hf)
  · intro hpath
    induction hpath with
    | refl => exact below_refl t top
    | tail _ hlead ih =>
      obtain ⟨hops, hf⟩ := ih
      obtain ⟨slot, hc⟩ := hlead
      obtain ⟨-, -, last, -, -, rfl, -⟩ := h.hop _ _ _ hc
      exact ⟨hops ++ [last], by rw [follow_concat, hf]; exact hc⟩

/-- The tree without some routers, which are removed in order; the first refusal ends it. -/
def removeAll (t : RouterTree α) : List NodeId → Outcome (RouterTree α)
  | [] => .ok t
  | id :: rest =>
    match t.remove id with
    | .ok (_, t') => t'.removeAll rest
    | .error failure => .error failure

theorem recount_removeAll (t : RouterTree α) (next : Nat) (ids : List NodeId) :
    (t.recount next).removeAll ids = (t.removeAll ids).map (·.recount next) := by
  induction ids generalizing t with
  | nil => rfl
  | cons id rest ih =>
    rw [removeAll, removeAll, recount_remove]
    cases t.remove id with
    | error failure => rfl
    | ok removed => exact ih removed.2

/-- The rest of a subtree can be taken out, once the front of it is out. -/
theorem Rooted.removeAll_rest (h : t.Rooted) {front rest : List NodeId}
    (hlist : t.subtree top = front ++ rest) (w : t.Without t' front) :
    ∃ t'', t'.removeAll rest = .ok t'' := by
  induction rest generalizing t' front with
  | nil => exact ⟨t', rfl⟩
  | cons id rest ih =>
    have hmem : id ∈ t.subtree top := by rw [hlist]; simp
    obtain ⟨htop, hbelow⟩ := h.mem_subtree.1 hmem
    have hthere : t.contains id = true := by
      obtain ⟨route, hroute⟩ := contains_iff.1 htop
      obtain ⟨below, hid, -⟩ := (h.below_iff hroute).1 hbelow
      exact contains_iff.2 ⟨below, hid⟩
    have hnew : id ∉ front := by
      have hnodup := h.nodup_subtree top
      rw [hlist, List.nodup_append] at hnodup
      intro hfront
      exact hnodup.2.2 id hfront id List.mem_cons_self rfl
    have hout (slot : Nat) (c : NodeId) (hc : t.child? id slot = some c) : c ∈ front :=
      h.child?_mem_front hlist hc
    obtain ⟨value, u, hremove, w'⟩ := w.remove hthere hnew hout
    obtain ⟨t'', hrest⟩ := ih (by rw [hlist, List.append_assoc]; rfl) w'
    exact ⟨t'', by rw [removeAll, hremove]; exact hrest⟩

theorem Rooted.removeAll_subtree (h : t.Rooted) (top : NodeId) :
    ∃ t', t.removeAll (t.subtree top) = .ok t' :=
  h.removeAll_rest (List.nil_append _).symm h.without_nil

/-- What a subtree lists in a tree that came of new ids: what is below a router, once, and each
router after those in its slots, so that they can be removed in this order. -/
theorem Grounded.subtree_spec (h : t.Grounded) (top : NodeId) :
    (∀ id, id ∈ t.subtree top ↔
      t.contains top = true ∧ Relation.ReflTransGen t.Leads top id) ∧
    (t.subtree top).Nodup ∧
    (∀ front p back c, t.subtree top = front ++ p :: back → t.Leads p c → c ∈ front) ∧
    ∃ t', t.removeAll (t.subtree top) = .ok t' := by
  obtain ⟨next, h⟩ := h
  have hsame := recount_subtree t next top
  refine ⟨fun id => ?_, ?_, fun front p back c hlist hlead => ?_, ?_⟩
  · rw [← hsame, h.mem_subtree, h.below_iff_leads]
    exact Iff.rfl
  · rw [← hsame]
    exact h.nodup_subtree top
  · rw [← hsame] at hlist
    obtain ⟨slot, hc⟩ := hlead
    exact h.child?_mem_front hlist hc
  · obtain ⟨t', hremoved⟩ := h.removeAll_subtree top
    rw [hsame, recount_removeAll] at hremoved
    cases hall : t.removeAll (t.subtree top) with
    | error failure =>
      rw [hall] at hremoved
      cases hremoved
    | ok t'' => exact ⟨t'', rfl⟩

/-- **The slots of a router tree form no cycle**, whatever ids its calls came with, and the walk
below each router ends with one list, which is the subtree of a router that is there. If every
router was inserted under an id that no router had by then, the subtree lists each router that slots
lead to once, and after all those in its own slots, so that all of them can be removed in order. -/
theorem acyclic_afterAll (changes : List (Change α)) :
    let t := ({} : RouterTree α).afterAll changes
    (∀ id, ¬ Relation.TransGen t.Leads id id) ∧
    (∀ id, ∃ listed, (∀ listed', t.Walks [id] listed' ↔ listed' = listed) ∧
      t.subtree id = if t.contains id then listed else []) ∧
    (({} : RouterTree α).AllNew changes → ∀ top,
      (∀ id, id ∈ t.subtree top ↔
        t.contains top = true ∧ Relation.ReflTransGen t.Leads top id) ∧
      (t.subtree top).Nodup ∧
      (∀ front p back c, t.subtree top = front ++ p :: back → t.Leads p c → c ∈ front) ∧
      ∃ t', t.removeAll (t.subtree top) = .ok t') := by
  intro t
  obtain ⟨rank, now, hranked⟩ := ranked_empty.afterAll changes
  refine ⟨hranked.acyclic, hranked.walks, ?_⟩
  intro hnew
  exact (grounded_empty.afterAll hnew).subtree_spec

/-- The host router, a router below it and one below that. -/
def threeInLine : List (Change String) :=
  [.allocateId, .insertRoot ⟨0⟩ "host", .setAdapterCount ⟨0⟩ 4, .insert ⟨0⟩ ⟨1⟩ ⟨0x01⟩ "hub",
    .setAdapterCount ⟨1⟩ 4, .insert ⟨1⟩ ⟨2⟩ ⟨0x0401⟩ "leaf"]

theorem threeInLine_removable :
    ({} : RouterTree String).AllNew threeInLine ∧
    let t := ({} : RouterTree String).afterAll threeInLine
    t.subtree ⟨1⟩ = [⟨2⟩, ⟨1⟩] ∧ t.subtree ⟨0⟩ = [⟨2⟩, ⟨1⟩, ⟨0⟩] ∧
      ¬ Relation.TransGen t.Leads ⟨0⟩ ⟨0⟩ ∧ Relation.ReflTransGen t.Leads ⟨1⟩ ⟨2⟩ ∧
      ∃ t', t.removeAll (t.subtree ⟨1⟩) = .ok t' := by
  have hnew : ({} : RouterTree String).AllNew threeInLine := by decide +kernel
  obtain ⟨hacyclic, -, hlisted⟩ := acyclic_afterAll threeInLine
  obtain ⟨hmem, -, -, hremoved⟩ := hlisted hnew ⟨1⟩
  have hbelow : (({} : RouterTree String).afterAll threeInLine).subtree ⟨1⟩ = [⟨2⟩, ⟨1⟩] := by
    decide +kernel
  refine ⟨hnew, hbelow, by decide +kernel, hacyclic ⟨0⟩, ((hmem ⟨2⟩).1 ?_).2, hremoved⟩
  rw [hbelow]
  exact List.mem_cons_self

/-- The host router is inserted once more, below the hub that hung below it, and then the hub once
more below the host router. -/
example :
    let t := ({} : RouterTree String).afterAll [.insertRoot ⟨0⟩ "host", .setAdapterCount ⟨0⟩ 4,
      .insert ⟨0⟩ ⟨1⟩ ⟨0x01⟩ "hub", .setAdapterCount ⟨1⟩ 4, .insert ⟨1⟩ ⟨0⟩ ⟨0x0201⟩ "host",
      .setAdapterCount ⟨0⟩ 4, .insert ⟨0⟩ ⟨1⟩ ⟨0x030201⟩ "hub"]
    t.subtree ⟨0⟩ = [⟨1⟩, ⟨0⟩] ∧ t.subtree ⟨1⟩ = [⟨1⟩] := by
  decide +kernel

end RouterFabric.RouterTree
