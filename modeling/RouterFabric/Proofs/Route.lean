import RouterFabric.Route
import Mathlib.Data.Nat.Log
import Mathlib.Tactic.Ring
import Mathlib.Tactic.NormNum

/-!
# Hops of a route

A route and the list of its hops say the same: the hops are the bytes of the route, up to the last
one that is not zero.

* `Route.ofBytes_hops`, `Route.hops_injective` : a route can be told from its hops
* `Route.lastHop?_ne_zero` : the last hop is never zero
* `Route.hops_of_parent` : a route has one hop more than its parent
* `Route.child_of_hops` : going that hop further leads from the parent to the route
-/

namespace RouterFabric.Route

variable {r p : Route} {hop : UInt8}

/-! ## Depth -/

@[simp] theorem depth_eq_zero : r.depth = 0 ↔ r.raw = 0 := by
  unfold depth
  split <;> simp_all

theorem depth_of_ne (h : r.raw ≠ 0) : r.depth = r.raw.toNat.log2 / 8 + 1 :=
  if_neg h

theorem raw_toNat_ne (h : r.raw ≠ 0) : r.raw.toNat ≠ 0 := by
  intro e
  apply h
  exact UInt64.toNat_inj.1 e

@[simp] theorem length_hops (r : Route) : r.hops.length = r.depth := by
  simp [hops]

theorem hops_eq_nil : r.hops = [] ↔ r.isRoot = true := by
  rw [← List.length_eq_zero_iff, length_hops, depth_eq_zero]
  simp [isRoot]

@[simp] theorem hops_root : root.hops = [] := rfl

/-- The bytes above the last hop are zero. -/
theorem raw_lt (r : Route) : r.raw.toNat < 256 ^ r.depth := by
  by_cases h : r.raw = 0
  · simp [h]
  · have hlt : r.raw.toNat < 2 ^ (r.raw.toNat.log2 + 1) := Nat.lt_log2_self
    have hle : 2 ^ (r.raw.toNat.log2 + 1) ≤ 2 ^ (8 * r.depth) := by
      apply Nat.pow_le_pow_right (by decide)
      rw [depth_of_ne h]
      omega
    calc r.raw.toNat < 2 ^ (8 * r.depth) := by omega
      _ = 256 ^ r.depth := by rw [Nat.pow_mul]

/-! ## Bytes -/

@[simp] theorem toNat_hop (r : Route) (level : Nat) :
    (r.hop level).toNat = r.raw.toNat / 256 ^ level % 256 := by
  rw [hop, UInt8.toNat_ofNat', Nat.shiftRight_eq_div_pow, Nat.pow_mul]

/-- The number that the lowest bytes of a number make up. -/
theorem foldr_bytes (n x : Nat) :
    ((List.range n).map fun level => UInt8.ofNat (x >>> (8 * level))).foldr
      (fun hop above => hop.toNat + 256 * above) 0 = x % 256 ^ n := by
  induction n generalizing x with
  | zero => simp [Nat.mod_one]
  | succ n ih =>
    have shifted : ∀ level, x >>> (8 * (level + 1)) = (x / 256) >>> (8 * level) := by
      intro level
      simp only [Nat.shiftRight_eq_div_pow, Nat.div_div_eq_div_mul]
      congr 1
      rw [show 8 * (level + 1) = 8 + 8 * level by ring, Nat.pow_add]
    rw [List.range_succ_eq_map, List.map_cons, List.map_map, List.foldr_cons]
    simp only [Function.comp_def, shifted]
    rw [ih]
    rw [Nat.mul_zero, Nat.shiftRight_zero, UInt8.toNat_ofNat', Nat.pow_succ' (m := 256),
      Nat.mod_mul]

/-- A route is made of its hops. -/
theorem ofBytes_hops (r : Route) : ofBytes r.hops = r := by
  obtain ⟨raw⟩ := r
  unfold ofBytes hops hop
  rw [foldr_bytes, Nat.mod_eq_of_lt (raw_lt ⟨raw⟩)]
  simp

theorem hops_injective : Function.Injective hops := by
  intro r r' h
  rw [← ofBytes_hops r, h, ofBytes_hops]

/-! ## The last hop -/

theorem lastHop?_eq_some (h : r.lastHop? = some hop) :
    r.raw ≠ 0 ∧ hop = r.hop (r.depth - 1) := by
  unfold lastHop? at h
  split at h
  · cases h
  · rename_i hd
    cases h
    exact ⟨fun e => hd (depth_eq_zero.2 e), rfl⟩

/-- The last hop is the highest byte that is not zero. -/
theorem lastHop?_ne_zero (h : r.lastHop? = some hop) : hop ≠ 0 := by
  obtain ⟨hraw, rfl⟩ := lastHop?_eq_some h
  intro e
  have hbyte : r.raw.toNat / 256 ^ (r.depth - 1) % 256 = 0 := by
    rw [← toNat_hop, e]
    rfl
  -- the quotient is a single byte, and the highest bit of the route is in it
  have hlow : 256 ^ (r.depth - 1) ≤ r.raw.toNat := by
    calc 256 ^ (r.depth - 1) = 2 ^ (8 * (r.depth - 1)) := by rw [Nat.pow_mul]
      _ ≤ 2 ^ r.raw.toNat.log2 := by
        apply Nat.pow_le_pow_right (by decide)
        rw [depth_of_ne hraw]
        omega
      _ ≤ r.raw.toNat := Nat.log2_self_le (raw_toNat_ne hraw)
  have hhigh : r.raw.toNat < 256 ^ (r.depth - 1) * 256 := by
    have hdepth : (r.depth - 1).succ = r.depth := by
      rw [depth_of_ne hraw]
      omega
    rw [← Nat.pow_succ, hdepth]
    exact raw_lt r
  have hquot : r.raw.toNat / 256 ^ (r.depth - 1) < 256 :=
    Nat.div_lt_of_lt_mul hhigh
  have hpos : 0 < r.raw.toNat / 256 ^ (r.depth - 1) :=
    Nat.div_pos hlow (by positivity)
  omega

/-! ## Parents -/

/-- The parent of a route takes the same hops, but for the last. -/
theorem hop_of_parent (h : r.parent? = some p) {level : Nat} (hl : level < r.depth - 1) :
    p.hop level = r.hop level := by
  unfold parent? at h
  split at h
  · cases h
  · cases h
    apply UInt8.toNat_inj.1
    rw [toNat_hop, toNat_hop, Nat.one_shiftLeft, Nat.pow_mul]
    have hmod : r.raw.toNat % (2 ^ 8) ^ (r.depth - 1) < 2 ^ 64 :=
      lt_of_le_of_lt (Nat.mod_le _ _) r.raw.toNat_lt
    simp only [UInt64.toNat_ofNat', Nat.mod_eq_of_lt hmod]
    obtain ⟨above, habove⟩ : ∃ above, r.depth - 1 = level + (above + 1) :=
      ⟨r.depth - 1 - level - 1, by omega⟩
    rw [habove, Nat.pow_add, show (2 : Nat) ^ 8 = 256 by norm_num, Nat.mod_mul_right_div_self,
      Nat.pow_succ', Nat.mod_mul_right_mod]

/-- A route has the hops of its parent, which is one hop shorter, and its own last hop. -/
theorem hops_of_parent (hd : r.depth = p.depth + 1) (hp : r.parent? = some p)
    (hl : r.lastHop? = some hop) : r.hops = p.hops ++ [hop] := by
  obtain ⟨-, rfl⟩ := lastHop?_eq_some hl
  have same : (List.range p.depth).map r.hop = (List.range p.depth).map p.hop := by
    apply List.map_congr_left
    intro level hm
    rw [hop_of_parent hp]
    rw [List.mem_range] at hm
    omega
  rw [hops, hd, List.range_succ, List.map_append, same]
  rfl

/-! ## Going one hop further -/

theorem validate_eq_ok : r.validate = .ok () ↔ r.depth ≤ maxDepth ∧ ∀ hop ∈ r.hops, hop ≠ 0 := by
  have nowhere : r.hops.findIdx? (· == 0) = none ↔ ∀ hop ∈ r.hops, hop ≠ 0 := by
    simp [List.findIdx?_eq_none_iff]
  rw [← nowhere]
  unfold validate
  constructor
  · intro h
    split at h
    · cases h
    · rename_i hdepth
      split at h
      · cases h
      · rename_i hzero
        exact ⟨Nat.le_of_not_lt hdepth, hzero⟩
  · rintro ⟨hdepth, hzero⟩
    rw [if_neg (Nat.not_lt.2 hdepth), hzero]

/-- A byte on top of others. -/
theorem foldr_concat (front : List UInt8) (hop : UInt8) :
    (front ++ [hop]).foldr (fun hop above => hop.toNat + 256 * above) 0 =
      front.foldr (fun hop above => hop.toNat + 256 * above) 0 +
        hop.toNat * 256 ^ front.length := by
  induction front with
  | nil => simp
  | cons first rest ih =>
    rw [List.cons_append, List.foldr_cons, List.foldr_cons, ih, List.length_cons, Nat.pow_succ]
    ring

/-- A valid route with one hop more is what comes of going that hop further. -/
theorem child_of_hops (hvalid : r.validate = .ok ()) (hhops : r.hops = p.hops ++ [hop]) :
    p.child hop = .ok r := by
  obtain ⟨hdepth, hzero⟩ := validate_eq_ok.1 hvalid
  have hne : hop ≠ 0 := hzero hop (by rw [hhops]; simp)
  have hlength : r.depth = p.depth + 1 := by
    rw [← length_hops, hhops, List.length_append, length_hops]
    rfl
  have hbytes : p.hops.foldr (fun hop above => hop.toNat + 256 * above) 0 = p.raw.toNat := by
    unfold hops Route.hop
    rw [foldr_bytes, Nat.mod_eq_of_lt p.raw_lt]
  unfold child
  rw [if_neg hne, if_neg (by omega), ← ofBytes_hops r, hhops, ofBytes, foldr_concat, hbytes,
    length_hops, Nat.shiftLeft_eq, Nat.pow_mul]

end RouterFabric.Route
