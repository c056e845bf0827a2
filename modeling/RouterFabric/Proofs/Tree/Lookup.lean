import RouterFabric.Proofs.Tree.Rooted

/-!
# What a look-up finds

A look-up follows the hops of a route through the slots, while a router is known by the route it
was inserted with. In a rooted tree the two agree, so that a look-up finds exactly the router with
the route asked for, and where it fails, the failure says what is in the way.

* `follow`, `Stops`, `StopsAt`, `Ends` : following hops, and how that ends
* `Rooted.lookup_eq_iff` : a look-up answers how following the hops of the route ends
* `Rooted.route?_eq_some_iff` : the router with a route is where its hops lead
* `lookup_afterAll` : what a look-up answers after any calls with fresh ids
-/

namespace RouterFabric

variable {α : Type}

/-- Why following hops stops at a router, before a hop that cannot be taken. -/
inductive TreeNode.Stops (node : TreeNode α) (hop : UInt8) : Failure → Prop
  | zeroHop (zero : hop = 0) : node.Stops hop .notFound
  | noTable (unknown : node.adapters = none) : node.Stops hop .notFound
  | emptySlot (table : List (Option NodeId)) (known : node.adapters = some table)
      (empty : table[hop.toNat]? = some none) : node.Stops hop .notFound
  | exceeded (table : List (Option NodeId)) (known : node.adapters = some table)
      (taken : hop ≠ 0) (beyond : table.length - 1 < hop.toNat) :
      node.Stops hop (.invalidRoute (.beyondTable hop.toNat (table.length - 1) node.route))

/-- A hop that cannot be taken cannot be taken for one reason. -/
theorem TreeNode.Stops.unique {node : TreeNode α} {hop : UInt8} {failure failure' : Failure}
    (h : node.Stops hop failure) (h' : node.Stops hop failure') : failure = failure' := by
  have filled : ∀ table : List (Option NodeId), table[hop.toNat]? = some none →
      ¬ table.length - 1 < hop.toNat := by
    intro table hs
    have := (List.getElem?_eq_some_iff.1 hs).1
    omega
  cases h with
  | zeroHop zero =>
    cases h' with
    | exceeded _ _ taken => exact absurd zero taken
    | _ => rfl
  | noTable unknown =>
    cases h' with
    | exceeded _ known => rw [unknown] at known; cases known
    | _ => rfl
  | emptySlot table known empty =>
    cases h' with
    | exceeded table' known' _ beyond =>
      rw [known] at known'
      cases known'
      exact absurd beyond (filled table empty)
    | _ => rfl
  | exceeded table known taken beyond =>
    cases h' with
    | zeroHop zero => exact absurd zero taken
    | noTable unknown => rw [unknown] at known; cases known
    | emptySlot table' known' empty =>
      rw [known] at known'
      cases known'
      exact absurd beyond (filled table empty)
    | exceeded table' known' =>
      rw [known] at known'
      cases known'
      rfl

namespace RouterTree

variable {t t' : RouterTree α} {id id' root current next p parent : NodeId} {node : TreeNode α}
  {value : α} {r route above : Route} {hop : UInt8} {hops front rest : List UInt8}
  {failure failure' : Failure} {outcome outcome' : Outcome NodeId}

/-! ## Following hops -/

/-- The router that some hops lead to from a given one, slot by slot. -/
def follow (t : RouterTree α) (current : NodeId) : List UInt8 → Option NodeId
  | [] => some current
  | hop :: rest => (t.child? current hop.toNat).bind fun next => t.follow next rest

@[simp] theorem follow_nil (t : RouterTree α) (current : NodeId) :
    t.follow current [] = some current := rfl

theorem follow_cons (hc : t.child? current hop.toNat = some next) :
    t.follow current (hop :: rest) = t.follow next rest := by
  rw [follow, hc, Option.bind_some]

theorem follow_concat (t : RouterTree α) (current : NodeId) (front : List UInt8) (hop : UInt8) :
    t.follow current (front ++ [hop]) = (t.follow current front).bind (t.child? · hop.toNat) := by
  induction front generalizing current with
  | nil => simp [follow]
  | cons first rest ih =>
    rw [List.cons_append, follow, follow, Option.bind_assoc]
    congr 1
    funext next
    exact ih next

/-- Following hops comes to a router at which it stops with a failure. -/
def StopsAt (t : RouterTree α) (current : NodeId) (hops : List UInt8) (failure : Failure) : Prop :=
  ∃ front hop back p node, hops = front ++ hop :: back ∧ t.follow current front = some p ∧
    t.node? p = some node ∧ node.Stops hop failure

theorem stopsAt_cons : t.StopsAt current (hop :: rest) failure ↔
    (∃ node, t.node? current = some node ∧ node.Stops hop failure) ∨
      ∃ next, t.child? current hop.toNat = some next ∧ t.StopsAt next rest failure := by
  constructor
  · rintro ⟨front, hop', back, p, node, he, hf, hn, hstop⟩
    cases front with
    | nil =>
      cases he
      cases hf
      exact .inl ⟨node, hn, hstop⟩
    | cons first front =>
      obtain ⟨rfl, rfl⟩ := List.cons.inj he
      obtain ⟨next, hc, hf⟩ := Option.bind_eq_some_iff.1 hf
      exact .inr ⟨next, hc, front, hop', back, p, node, rfl, hf, hn, hstop⟩
  · rintro (⟨node, hn, hstop⟩ | ⟨next, hc, front, hop', back, p, node, rfl, hf, hn, hstop⟩)
    · exact ⟨[], hop, rest, current, node, rfl, rfl, hn, hstop⟩
    · exact ⟨hop :: front, hop', back, p, node, rfl, (follow_cons hc).trans hf, hn, hstop⟩

theorem not_stopsAt_nil : ¬ t.StopsAt current [] failure := by
  rintro ⟨front, hop, back, p, node, he, -⟩
  simp at he

/-- There is no router behind a hop that cannot be taken. -/
theorem Sound.child?_of_stops (h : t.Sound) (hn : t.node? p = some node)
    (hstop : node.Stops hop failure) : t.child? p hop.toNat = none := by
  rw [Option.eq_none_iff_forall_ne_some]
  intro below hc
  obtain ⟨node', table, hn', ht, hs⟩ := child?_eq_some.1 hc
  rw [hn] at hn'
  cases hn'
  cases hstop with
  | zeroHop zero => exact h.slot_ne_zero hc (by rw [zero]; rfl)
  | noTable unknown =>
    rw [unknown] at ht
    cases ht
  | emptySlot table' known empty =>
    rw [known] at ht
    cases ht
    rw [empty] at hs
    cases hs
  | exceeded table' known _ beyond =>
    rw [known] at ht
    cases ht
    have := (List.getElem?_eq_some_iff.1 hs).1
    omega

/-! ## How following hops ends -/

/-- Following hops ends with this outcome: it leads to a router, or stops before. -/
def Ends (t : RouterTree α) (current : NodeId) (hops : List UInt8) : Outcome NodeId → Prop
  | .ok id => t.follow current hops = some id
  | .error failure => t.StopsAt current hops failure

theorem Ends.cons (hc : t.child? current hop.toNat = some next) (h : t.Ends next rest outcome) :
    t.Ends current (hop :: rest) outcome := by
  cases outcome with
  | ok id => exact (follow_cons hc).trans h
  | error failure => exact stopsAt_cons.2 (.inr ⟨next, hc, h⟩)

theorem ends_cons (he : t.Ends current (hop :: rest) outcome) :
    (∃ node failure, t.node? current = some node ∧ node.Stops hop failure ∧
        outcome = .error failure) ∨
      ∃ next, t.child? current hop.toNat = some next ∧ t.Ends next rest outcome := by
  cases outcome with
  | ok id =>
    right
    exact Option.bind_eq_some_iff.1 he
  | error failure =>
    rcases stopsAt_cons.1 he with ⟨node, hn, hstop⟩ | hlater
    · exact .inl ⟨node, failure, hn, hstop, rfl⟩
    · exact .inr hlater

/-- Following hops ends in one way only. -/
theorem Sound.ends_unique (h : t.Sound) (he : t.Ends current hops outcome)
    (he' : t.Ends current hops outcome') : outcome = outcome' := by
  induction hops generalizing current with
  | nil =>
    have arrived : ∀ o, t.Ends current [] o → o = .ok current := by
      rintro (failure | id) ho
      · exact absurd ho not_stopsAt_nil
      · cases ho
        rfl
    rw [arrived _ he, arrived _ he']
  | cons hop rest ih =>
    -- the walks part at the first hop only if it can be taken and cannot be taken
    rcases ends_cons he with ⟨node, failure, hn, hstop, rfl⟩ | ⟨next, hc, he⟩ <;>
      rcases ends_cons he' with ⟨node', failure', hn', hstop', rfl⟩ | ⟨next', hc', he'⟩
    · rw [hn] at hn'
      cases hn'
      rw [hstop.unique hstop']
    · rw [h.child?_of_stops hn hstop] at hc'
      cases hc'
    · rw [h.child?_of_stops hn' hstop'] at hc
      cases hc
    · rw [hc] at hc'
      cases hc'
      exact ih he he'

/-! ## Look-ups -/

/-- A look-up that has come to a router short of its goal goes on as the remaining hops lead. -/
theorem Rooted.ends_descend (h : t.Rooted) (hc : t.route? current = some above)
    (hr : r.hops = above.hops ++ hops) (hne : hops ≠ []) :
    t.Ends current hops (t.descend r current hops) := by
  induction hops generalizing current above with
  | nil => exact absurd rfl hne
  | cons hop rest ih =>
    obtain ⟨node, hn, hroute⟩ := Option.map_eq_some_iff.1 hc
    have stops : ∀ failure, node.Stops hop failure →
        t.Ends current (hop :: rest) (.error failure) :=
      fun failure hstop => stopsAt_cons.2 (.inl ⟨node, hn, hstop⟩)
    unfold descend
    split
    · rename_i zero
      exact stops _ (.zeroHop zero)
    · rename_i taken
      rw [hn]
      simp only
      split
      · rename_i unknown
        exact stops _ (.noTable unknown)
      · rename_i table known
        split
        · rename_i beyond
          have hlen := List.getElem?_eq_none_iff.1 beyond
          have hpos : 0 < hop.toNat := by
            apply Nat.pos_of_ne_zero
            intro e
            exact taken (UInt8.toNat_inj.1 e)
          exact stops _ (.exceeded table known taken (by omega))
        · rename_i empty
          exact stops _ (.emptySlot table known empty)
        · rename_i next filled
          have hchild : t.child? current hop.toNat = some next :=
            child?_eq_some.2 ⟨node, table, hn, known, filled⟩
          obtain ⟨above', below, last, ha, hb, hlast, hhops⟩ := h.hop _ _ _ hchild
          rw [hc] at ha
          cases ha
          rw [UInt8.toNat_inj.1 hlast] at hhops
          obtain ⟨reached, hreached, rfl⟩ := Option.map_eq_some_iff.1 hb
          rw [hreached]
          apply Ends.cons hchild
          simp only
          split
          · rename_i e
            rw [e, hr] at hhops
            obtain rfl : rest = [] := by simpa using hhops
            rfl
          · rename_i e
            apply ih hb
            · rw [hr, hhops, List.append_assoc]
              rfl
            · rintro rfl
              exact e (Route.hops_injective (hhops.trans hr.symm))

/-- A look-up ends as following the hops of its route does. -/
theorem Rooted.ends_lookup (h : t.Rooted) (hroot : t.root = some root) (r : Route) :
    t.Ends root r.hops (t.lookup r) := by
  unfold lookup
  rw [hroot]
  simp only
  split
  · rename_i e
    rw [Route.hops_eq_nil.2 e]
    rfl
  · rename_i e
    apply h.ends_descend (h.route?_root hroot) rfl
    intro hnil
    exact e (Route.hops_eq_nil.1 hnil)

theorem Rooted.lookup_eq_iff (h : t.Rooted) (hroot : t.root = some root) :
    t.lookup r = outcome ↔ t.Ends root r.hops outcome := by
  constructor
  · rintro rfl
    exact h.ends_lookup hroot r
  · intro he
    exact h.ends_unique (h.ends_lookup hroot r) he

/-! ## Routes and hops -/

/-- A router has the route along which it is reached. -/
theorem Rooted.route?_of_follow (h : t.Rooted) (hc : t.route? current = some above)
    (hf : t.follow current hops = some id) :
    ∃ below, t.route? id = some below ∧ below.hops = above.hops ++ hops := by
  induction hops generalizing current above with
  | nil =>
    cases hf
    exact ⟨above, hc, (List.append_nil _).symm⟩
  | cons hop rest ih =>
    obtain ⟨next, hchild, hf⟩ := Option.bind_eq_some_iff.1 hf
    obtain ⟨above', below, last, ha, hb, hlast, hhops⟩ := h.hop _ _ _ hchild
    rw [hc] at ha
    cases ha
    obtain ⟨end', hend, happ⟩ := ih hb hf
    refine ⟨end', hend, ?_⟩
    rw [happ, hhops, UInt8.toNat_inj.1 hlast, List.append_assoc]
    rfl

/-- The hops of a router's route lead to it from the host router. -/
theorem Rooted.follow_of_route? (h : t.Rooted) (hr : t.route? id = some r) :
    ∃ root, t.root = some root ∧ t.follow root r.hops = some id := by
  -- by the length of the route: the router above has one hop less
  induction hlen : r.hops.length generalizing id r with
  | zero =>
    rcases h.held id r hr with hroot | ⟨p, slot, hc⟩
    · exact ⟨id, hroot, by rw [List.length_eq_zero_iff.1 hlen]; rfl⟩
    · obtain ⟨above, below, last, -, hb, -, hhops⟩ := h.hop p slot id hc
      rw [hr] at hb
      cases hb
      rw [hhops] at hlen
      simp at hlen
  | succ length ih =>
    rcases h.held id r hr with hroot | ⟨p, slot, hc⟩
    · rw [h.route?_root hroot] at hr
      cases hr
      simp at hlen
    · obtain ⟨above, below, last, hp, hb, rfl, hhops⟩ := h.hop p slot id hc
      rw [hr] at hb
      cases hb
      rw [hhops, List.length_append] at hlen
      obtain ⟨root, hroot, hf⟩ := ih hp (by simpa using hlen)
      refine ⟨root, hroot, ?_⟩
      rw [hhops, follow_concat, hf]
      exact hc

theorem Rooted.route?_eq_some_iff (h : t.Rooted) (hroot : t.root = some root) :
    t.route? id = some r ↔ t.follow root r.hops = some id := by
  constructor
  · intro hr
    obtain ⟨root', hroot', hf⟩ := h.follow_of_route? hr
    rw [hroot] at hroot'
    cases hroot'
    exact hf
  · intro hf
    obtain ⟨below, hb, hhops⟩ := h.route?_of_follow (h.route?_root hroot) hf
    rw [hb, Route.hops_injective hhops]

/-- A look-up finds the router that has the route, and no other. -/
theorem Rooted.lookup_eq_ok_iff (h : t.Rooted) :
    t.lookup r = .ok id ↔ t.route? id = some r := by
  cases hroot : t.root with
  | none =>
    constructor
    · intro hl
      simp [lookup, hroot] at hl
    · intro hr
      obtain ⟨root, hroot', -⟩ := h.follow_of_route? hr
      rw [hroot] at hroot'
      cases hroot'
  | some root => rw [h.lookup_eq_iff hroot, h.route?_eq_some_iff hroot, Ends]

/-- A look-up fails because there is no host router, or with what is in the way. -/
theorem Rooted.lookup_eq_error_iff (h : t.Rooted) :
    t.lookup r = .error failure ↔ (t.root = none ∧ failure = .notFound) ∨
      ∃ root, t.root = some root ∧ t.StopsAt root r.hops failure := by
  cases hroot : t.root with
  | none => simp [lookup, hroot, eq_comm]
  | some root => simp [h.lookup_eq_iff hroot, Ends]

/-! ## After any calls -/

/-- Following the hops of a route comes to a router whose highest adapter is below the next hop. -/
def Exceeds (t : RouterTree α) (r : Route) : Prop :=
  ∃ root front hop back p node table, t.root = some root ∧ r.hops = front ++ hop :: back ∧
    t.follow root front = some p ∧ t.node? p = some node ∧ node.adapters = some table ∧
    hop ≠ 0 ∧ table.length - 1 < hop.toNat

theorem Rooted.lookup_invalidRoute_iff (h : t.Rooted) :
    (∃ fault, t.lookup r = .error (.invalidRoute fault)) ↔ t.Exceeds r := by
  simp only [h.lookup_eq_error_iff]
  constructor
  · rintro ⟨fault, ⟨-, e⟩ | ⟨root, hroot, front, hop, back, p, node, he, hf, hn, hstop⟩⟩
    · cases e
    · cases hstop with
      | exceeded table known taken beyond =>
        exact ⟨root, front, hop, back, p, node, table, hroot, he, hf, hn, known, taken, beyond⟩
  · rintro ⟨root, front, hop, back, p, node, table, hroot, he, hf, hn, known, taken, beyond⟩
    exact ⟨_, .inr ⟨root, hroot, front, hop, back, p, node, he, hf, hn,
      .exceeded table known taken beyond⟩⟩

/-- **What a look-up answers, and what refused calls do, in every tree that comes of calls with
fresh ids.** It finds the router with the route, of which there is one at most; it says that the
route is invalid if a hop exceeds the adapters of the router it comes to; and otherwise that there
is no such router, because there is no host router or because of a zero hop, an unknown adapter
table or an empty slot. -/
theorem lookup_afterAll {changes : List (Change α)}
    (ha : ({} : RouterTree α).AllAdmissible changes) (r : Route) :
    let t := ({} : RouterTree α).afterAll changes
    (∀ id, t.lookup r = .ok id ↔ t.route? id = some r) ∧
      (∀ id id', t.route? id = some r → t.route? id' = some r → id = id') ∧
      ((∃ fault, t.lookup r = .error (.invalidRoute fault)) ↔ t.Exceeds r) ∧
      (t.lookup r = .error .notFound ↔ (∀ id, t.route? id ≠ some r) ∧ ¬ t.Exceeds r) ∧
      (t.lookup r = .error .notFound ↔ t.root = none ∨
        ∃ root, t.root = some root ∧ t.StopsAt root r.hops .notFound) ∧
      ∀ change failure, t.attempt change = .error failure → t.after change = t := by
  intro t
  have h : t.Rooted := rooted_afterAll ha
  refine ⟨fun id => h.lookup_eq_ok_iff, fun id id' hr hr' => ?_, h.lookup_invalidRoute_iff, ?_, ?_,
    fun change failure hc => ?_⟩
  · rw [← h.lookup_eq_ok_iff] at hr hr'
    rw [hr] at hr'
    cases hr'
    rfl
  · rw [← h.lookup_invalidRoute_iff]
    simp only [ne_eq, ← h.lookup_eq_ok_iff]
    constructor
    · intro hl
      simp [hl]
    · rintro ⟨absent, valid⟩
      cases hl : t.lookup r with
      | ok id => exact absurd hl (absent id)
      | error failure =>
        rcases h.lookup_eq_error_iff.1 hl with ⟨-, rfl⟩ | ⟨root, -, _, _, _, _, _, -, -, -, hstop⟩
        · rfl
        · cases hstop with
          | exceeded => exact absurd ⟨_, hl⟩ valid
          | _ => rfl
  · rw [h.lookup_eq_error_iff, and_iff_left rfl]
  · exact after_of_error hc

/-- Calls among which two are refused and one uses a freed slot again. -/
def slotReuse : List (Change String) :=
  [.allocateId, .insertRoot ⟨0⟩ "host", .setAdapterCount ⟨0⟩ 3,
    .allocateId, .insert ⟨0⟩ ⟨1⟩ ⟨0x01⟩ "first",
    .allocateId, .insert ⟨0⟩ ⟨2⟩ ⟨0x01⟩ "second", .remove ⟨0⟩,
    .remove ⟨1⟩, .insert ⟨0⟩ ⟨2⟩ ⟨0x01⟩ "second", .setAdapterCount ⟨2⟩ 2,
    .allocateId, .insert ⟨2⟩ ⟨3⟩ ⟨0x0201⟩ "third"]

theorem lookup_slotReuse :
    ({} : RouterTree String).AllAdmissible slotReuse ∧
      (({} : RouterTree String).afterAll slotReuse).lookup ⟨0x0201⟩ = .ok ⟨3⟩ ∧
      (({} : RouterTree String).afterAll slotReuse).lookup ⟨0x030001⟩ = .error .notFound ∧
      (({} : RouterTree String).afterAll slotReuse).Exceeds ⟨0x0301⟩ := by
  have admissible : ({} : RouterTree String).AllAdmissible slotReuse := by decide +kernel
  refine ⟨admissible, ?_, ?_, ?_⟩
  · exact ((lookup_afterAll admissible ⟨0x0201⟩).1 ⟨3⟩).2 (by decide +kernel)
  · refine ((lookup_afterAll admissible ⟨0x030001⟩).2.2.2.2.1).2 (.inr ⟨⟨0⟩, by decide +kernel, ?_⟩)
    exact ⟨[1], 0, [3], ⟨2⟩, _, by decide +kernel, by decide +kernel, rfl, .zeroHop rfl⟩
  · exact ((lookup_afterAll admissible ⟨0x0301⟩).2.2.1).1
      ⟨.beyondTable 3 2 ⟨0x01⟩, by decide +kernel⟩

end RouterTree

end RouterFabric
