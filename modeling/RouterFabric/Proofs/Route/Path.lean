import Mathlib.Data.Set.Function
import RouterFabric.Proofs.Packets
import RouterFabric.Proofs.Route

/-!
# Routes as lists of hops

A route that is accepted is the list of its hops and nothing else: whatever is asked of the route
can be read off the list. A route that is not accepted still has its place above the routes that
are one hop further, for as long as there is room for another hop.

* `Route.IsPath` : the lists of hops that a route can take
* `Route.hops_ofBytes` : a list that does not end in zero is read back from its bytes
* `Route.parent?_child` : going one hop further, and back
* `Route.paths_bijOn` : accepted routes are lists of hops
-/

namespace RouterFabric.Route

variable {r p : Route} {hop : UInt8} {path : List UInt8} {n level : Nat}

/-- A list of hops that a route can take: there are at most six, and adapter zero is not among
them. -/
def IsPath (path : List UInt8) : Prop :=
  path.length ≤ maxDepth ∧ ∀ hop ∈ path, hop ≠ 0

/-! ## The depth of a number -/

/-- The depth is told by the highest byte that is not zero. -/
theorem depth_of_bounds (hlow : 256 ^ n ≤ r.raw.toNat) (hhigh : r.raw.toNat < 256 ^ (n + 1)) :
    r.depth = n + 1 := by
  have hpos : 0 < 256 ^ n := Nat.pow_pos (by decide)
  have hne : r.raw.toNat ≠ 0 := by omega
  have hraw : r.raw ≠ 0 := fun h => hne (by rw [h]; rfl)
  have hpow (k : Nat) : 256 ^ k = 2 ^ (8 * k) := by rw [Nat.pow_mul]
  rw [hpow] at hlow hhigh
  have hle : 8 * n ≤ r.raw.toNat.log2 := (Nat.le_log2 hne).2 hlow
  have hlt : r.raw.toNat.log2 < 8 * (n + 1) := (Nat.log2_lt hne).2 hhigh
  rw [depth_of_ne hraw]
  omega

/-! ## Bytes and hops -/

/-- The number that a list of bytes makes up, the first byte lowest. -/
def number (path : List UInt8) : Nat :=
  path.foldr (fun hop above => hop.toNat + 256 * above) 0

theorem number_concat (front : List UInt8) (hop : UInt8) :
    number (front ++ [hop]) = number front + hop.toNat * 256 ^ front.length :=
  foldr_concat front hop

theorem number_lt (path : List UInt8) : number path < 256 ^ path.length := by
  induction path with
  | nil => exact Nat.one_pos
  | cons hop rest ih =>
    have hhop := hop.toNat_lt
    rw [List.length_cons, Nat.pow_succ]
    show hop.toNat + 256 * number rest < _
    omega

/-- Every hop is a byte of the number. -/
theorem number_byte (path : List UInt8) (level : Nat) :
    UInt8.ofNat (number path / 256 ^ level) = path.getD level 0 := by
  induction path generalizing level with
  | nil => simp [number]
  | cons hop rest ih =>
    have hhop := hop.toNat_lt
    show UInt8.ofNat ((hop.toNat + 256 * number rest) / 256 ^ level) = _
    cases level with
    | zero =>
      apply UInt8.toNat_inj.1
      rw [UInt8.toNat_ofNat']
      simp only [Nat.pow_zero, Nat.div_one, List.getD_cons_zero]
      omega
    | succ level =>
      rw [Nat.pow_succ', ← Nat.div_div_eq_div_mul, List.getD_cons_succ, ← ih level]
      congr 2
      omega

section eight

variable (hlength : path.length ≤ 8)

include hlength

theorem toNat_ofBytes : (ofBytes path).raw.toNat = number path := by
  have hlt := number_lt path
  have hpow : 256 ^ path.length ≤ 256 ^ 8 := Nat.pow_le_pow_right (by decide) hlength
  show (UInt64.ofNat (number path)).toNat = _
  rw [UInt64.toNat_ofNat']
  omega

theorem hop_ofBytes (level : Nat) : (ofBytes path).hop level = path.getD level 0 := by
  rw [hop, toNat_ofBytes hlength, Nat.shiftRight_eq_div_pow, Nat.pow_mul]
  exact number_byte path level

theorem depth_ofBytes (hlast : path.getLast? ≠ some 0) : (ofBytes path).depth = path.length := by
  rcases List.eq_nil_or_concat path with rfl | ⟨front, hop, rfl⟩
  · rfl
  · rw [List.concat_eq_append] at hlength hlast ⊢
    rw [List.getLast?_concat, ne_eq, Option.some.injEq] at hlast
    have hhop : 0 < hop.toNat := Nat.pos_of_ne_zero fun h => hlast (UInt8.toNat_inj.1 h)
    have hraw := toNat_ofBytes hlength
    have hlt := number_lt (front ++ [hop])
    rw [List.length_append, List.length_singleton] at hlt ⊢
    refine depth_of_bounds ?_ (hraw ▸ hlt)
    rw [hraw, number_concat]
    exact Nat.le_add_left_of_le (Nat.le_mul_of_pos_left _ hhop)

/-- A list that does not end in zero is read back. -/
theorem hops_ofBytes (hlast : path.getLast? ≠ some 0) : (ofBytes path).hops = path := by
  refine List.ext_getElem (by rw [length_hops, depth_ofBytes hlength hlast]) fun i hi hi' => ?_
  have hhop := hop_ofBytes hlength i
  rw [List.getD_eq_getElem _ _ hi'] at hhop
  simp only [Route.hops, List.getElem_map, List.getElem_range, hhop]

end eight

/-! ## Paths -/

theorem IsPath.length_le (h : IsPath path) : path.length ≤ 8 :=
  Nat.le_trans h.1 (by decide)

theorem IsPath.getLast?_ne (h : IsPath path) : path.getLast? ≠ some 0 :=
  fun hlast => h.2 0 (List.mem_of_getLast? hlast) rfl

theorem isPath_hops_iff : IsPath r.hops ↔ r.validate = .ok () := by
  rw [validate_eq_ok, IsPath, length_hops]

/-- Exactly the paths are taken, and nothing is lost of them. -/
theorem ofHops_eq_ok_iff : ofHops path = .ok r ↔ IsPath path ∧ r = ofBytes path := by
  have nowhere : path.findIdx? (· == 0) = none ↔ ∀ hop ∈ path, hop ≠ 0 := by
    simp [List.findIdx?_eq_none_iff]
  unfold ofHops IsPath
  rw [← nowhere]
  by_cases hlong : maxDepth < path.length
  · rw [if_pos hlong]
    exact ⟨nofun, fun h => absurd h.1.1 (Nat.not_le.2 hlong)⟩
  · rw [if_neg hlong]
    cases path.findIdx? (· == 0) with
    | some level => exact ⟨nofun, fun h => nomatch h.1.2⟩
    | none => simp [Nat.le_of_not_lt hlong, eq_comm]

theorem IsPath.ofHops (h : IsPath path) : ofHops path = .ok (ofBytes path) :=
  ofHops_eq_ok_iff.2 ⟨h, rfl⟩

theorem IsPath.hops_eq (h : IsPath path) : (ofBytes path).hops = path :=
  hops_ofBytes h.length_le h.getLast?_ne

theorem IsPath.validate (h : IsPath path) : (ofBytes path).validate = .ok () :=
  isPath_hops_iff.1 (by rwa [h.hops_eq])

theorem IsPath.of_append {front back : List UInt8} (h : IsPath (front ++ back)) :
    IsPath front := by
  refine ⟨?_, fun hop hmem => h.2 hop (List.mem_append_left _ hmem)⟩
  have hlength := h.1
  rw [List.length_append] at hlength
  omega

/-! ## One hop further, and back -/

theorem toNat_child (h : r.depth < 8) (hop : UInt8) :
    (UInt64.ofNat (r.raw.toNat + hop.toNat <<< (8 * r.depth))).toNat =
      r.raw.toNat + hop.toNat * 256 ^ r.depth ∧
    r.raw.toNat + hop.toNat * 256 ^ r.depth < 256 ^ (r.depth + 1) := by
  have hraw := r.raw_lt
  have hhop := hop.toNat_lt
  have hlt : r.raw.toNat + hop.toNat * 256 ^ r.depth < 256 ^ (r.depth + 1) := by
    have hle : hop.toNat * 256 ^ r.depth ≤ 255 * 256 ^ r.depth :=
      Nat.mul_le_mul_right _ (by omega)
    rw [Nat.pow_succ]
    omega
  have hpow : 256 ^ (r.depth + 1) ≤ 256 ^ 8 := Nat.pow_le_pow_right (by decide) h
  refine ⟨?_, hlt⟩
  have hbase : (2 : Nat) ^ (8 * r.depth) = 256 ^ r.depth := Nat.pow_mul 2 8 r.depth
  rw [UInt64.toNat_ofNat', Nat.shiftLeft_eq, hbase]
  omega

/-- **Back from one hop further is where one was**, whether the route is an accepted one or not. -/
theorem parent?_child (h : r.depth < maxDepth) (hne : hop ≠ 0) :
    ∃ c, r.child hop = .ok c ∧ c.parent? = some r := by
  have hdeep : r.depth < 8 := Nat.lt_trans h (by decide)
  obtain ⟨hraw, hlt⟩ := toNat_child hdeep hop
  refine ⟨_, by rw [child, if_neg hne, if_neg (Nat.not_le.2 h)], ?_⟩
  have hhop : 0 < hop.toNat := Nat.pos_of_ne_zero fun h => hne (UInt8.toNat_inj.1 h)
  have hdepth : (⟨UInt64.ofNat (r.raw.toNat + hop.toNat <<< (8 * r.depth))⟩ : Route).depth =
      r.depth + 1 := by
    refine depth_of_bounds ?_ ?_
    · rw [hraw]
      exact Nat.le_add_left_of_le (Nat.le_mul_of_pos_left _ hhop)
    · rwa [hraw]
  have hlow : (r.raw.toNat + hop.toNat * 256 ^ r.depth) % 256 ^ r.depth = r.raw.toNat := by
    rw [Nat.add_mul_mod_self_right, Nat.mod_eq_of_lt r.raw_lt]
  rw [parent?, hdepth, if_neg (Nat.succ_ne_zero _), hraw, Nat.add_sub_cancel, Nat.one_shiftLeft,
    Nat.pow_mul, hlow, UInt64.ofNat_toNat]

/-- A path that is one hop longer is the route one hop further. -/
theorem IsPath.child (h : IsPath (path ++ [hop])) :
    (ofBytes path).child hop = .ok (ofBytes (path ++ [hop])) :=
  child_of_hops h.validate (by rw [h.hops_eq, h.of_append.hops_eq])

/-- The parent of a path is the path without its last hop. -/
theorem IsPath.parent? (h : IsPath (path ++ [hop])) :
    (ofBytes (path ++ [hop])).parent? = some (ofBytes path) := by
  have hlength : path.length + 1 ≤ maxDepth := by simpa using h.1
  have hdepth : (ofBytes path).depth < maxDepth := by
    rwa [depth_ofBytes h.of_append.length_le h.of_append.getLast?_ne]
  obtain ⟨c, hc, hparent⟩ := parent?_child hdepth (h.2 hop (by simp))
  cases h.child.symm.trans hc
  exact hparent

/-! ## On the wire -/

/-- The marker is no part of the route. -/
theorem ofWords_or_marker (h : r.Unmarked) : ofWords (r.hi ||| marker) r.lo = r := by
  have hdrop : (r.hi ||| marker).toNat % 0x80000000 = r.hi.toNat % 0x80000000 := by
    have hpow : (0x80000000 : Nat) = 2 ^ 31 := rfl
    rw [UInt32.toNat_or, hpow, Nat.or_mod_two_pow]
    exact Nat.or_zero _
  rw [ofWords, hdrop]
  exact (ofWords_hi_lo r).trans h.eq

theorem IsPath.unmarked (h : IsPath path) : (ofBytes path).Unmarked := by
  have hlt := number_lt path
  have hpow : 256 ^ path.length ≤ 256 ^ 6 := Nat.pow_le_pow_right (by decide) h.1
  rw [unmarked_iff, toNat_ofBytes h.length_le]
  omega

/-! ## Routes as paths -/

/-- What can be asked of a route, answered from the list of its hops. -/
structure Follows (r : Route) (path : List UInt8) : Prop where
  depth : r.depth = path.length
  hop (level : Nat) : r.hop level = path.getD level 0
  lastHop? : r.lastHop? = path.getLast?
  top : path = [] → r.parent? = none
  parent? : path ≠ [] → ∃ p, ofHops path.dropLast = .ok p ∧ r.parent? = some p
  child (hop : UInt8) : hop ≠ 0 → path.length < maxDepth →
    ∃ c, ofHops (path ++ [hop]) = .ok c ∧ r.child hop = .ok c
  upward : r.child 0 = .error .upwardAdapter
  full (hop : UInt8) : hop ≠ 0 → maxDepth ≤ path.length →
    r.child hop = .error (.noRoomBelow r)
  marked : ofWords (r.hi ||| marker) r.lo = r

theorem IsPath.snoc (h : IsPath path) (hlength : path.length < maxDepth) (hne : hop ≠ 0) :
    IsPath (path ++ [hop]) := by
  refine ⟨by rwa [List.length_append, List.length_singleton], fun other hmem => ?_⟩
  rcases List.mem_append.1 hmem with hpath | hlast
  · exact h.2 other hpath
  · rwa [List.mem_singleton.1 hlast]

theorem IsPath.lastHop?_eq (h : IsPath path) : (ofBytes path).lastHop? = path.getLast? := by
  have hdepth := depth_ofBytes h.length_le h.getLast?_ne
  rcases List.eq_nil_or_concat path with rfl | ⟨front, hop, rfl⟩
  · rfl
  · rw [List.concat_eq_append] at h hdepth ⊢
    rw [lastHop?, hdepth, List.length_append, List.length_singleton, if_neg (Nat.succ_ne_zero _),
      Nat.add_sub_cancel, hop_ofBytes h.length_le, List.getLast?_concat]
    simp

theorem IsPath.follows (h : IsPath path) : (ofBytes path).Follows path where
  depth := depth_ofBytes h.length_le h.getLast?_ne
  hop := hop_ofBytes h.length_le
  lastHop? := h.lastHop?_eq
  top hnil := by subst hnil; rfl
  parent? hne := by
    obtain ⟨front, hop, rfl⟩ := (List.eq_nil_or_concat path).resolve_left hne
    rw [List.concat_eq_append] at h ⊢
    rw [List.dropLast_concat]
    exact ⟨_, h.of_append.ofHops, h.parent?⟩
  child hop hne hlength :=
    have hlonger := h.snoc hlength hne
    ⟨_, hlonger.ofHops, hlonger.child⟩
  upward := rfl
  full hop hne hlength := by
    rw [Route.child, if_neg hne, depth_ofBytes h.length_le h.getLast?_ne, if_pos hlength]
  marked := ofWords_or_marker h.unmarked

/-- A list that is no path is refused, for its length or for the zero that it takes. -/
theorem ofHops_eq_error (h : ¬ IsPath path) :
    ∃ fault, ofHops path = .error fault ∧
      (maxDepth < path.length ∧ fault = .tooManyHops path.length ∨
        ∃ level, path[level]? = some 0 ∧ fault = .zeroHop level) := by
  by_cases hlong : maxDepth < path.length
  · exact ⟨_, by rw [ofHops, if_pos hlong], .inl ⟨hlong, rfl⟩⟩
  · cases hfind : path.findIdx? (· == 0) with
    | none =>
      refine absurd ⟨Nat.le_of_not_lt hlong, ?_⟩ h
      simpa [List.findIdx?_eq_none_iff] using hfind
    | some level =>
      obtain ⟨hlt, hzero, -⟩ := List.findIdx?_eq_some_iff_getElem.1 hfind
      refine ⟨_, by rw [ofHops, if_neg hlong, hfind], .inr ⟨level, ?_, rfl⟩⟩
      rw [List.getElem?_eq_getElem hlt, eq_of_beq hzero]

/-- **Accepted routes are paths.** Every path makes up one accepted route, every accepted route is
made up by one path, and no other list makes up a route. Whatever is asked of such a route is
answered from its path. Going one hop further and back needs no accepted route, only room for the
hop. -/
theorem paths_bijOn :
    Set.BijOn ofHops {path | IsPath path} {result | ∃ r, result = .ok r ∧ r.validate = .ok ()} ∧
    (∀ path, ¬ IsPath path → ∃ fault, ofHops path = .error fault ∧
      (maxDepth < path.length ∧ fault = .tooManyHops path.length ∨
        ∃ level, path[level]? = some 0 ∧ fault = .zeroHop level)) ∧
    (∀ path r, ofHops path = .ok r → r.Follows path) ∧
    ∀ (r : Route) (hop : UInt8), r.depth < maxDepth → hop ≠ 0 →
      ∃ c, r.child hop = .ok c ∧ c.parent? = some r := by
  refine ⟨⟨?maps, ?injective, ?onto⟩, fun _ => ofHops_eq_error, ?follows, fun _ _ => parent?_child⟩
  case maps => exact fun path h => ⟨_, h.ofHops, h.validate⟩
  case injective =>
    intro one hone two htwo heq
    rw [IsPath.ofHops hone, IsPath.ofHops htwo, Except.ok.injEq] at heq
    rw [← IsPath.hops_eq hone, heq, IsPath.hops_eq htwo]
  case onto =>
    rintro _ ⟨r, rfl, hvalid⟩
    have hpath := isPath_hops_iff.2 hvalid
    exact ⟨r.hops, hpath, by rw [hpath.ofHops, ofBytes_hops]⟩
  case follows =>
    intro path r h
    obtain ⟨hpath, rfl⟩ := ofHops_eq_ok_iff.1 h
    exact hpath.follows

/-- A path of two hops, a list that is no path, and a route that is not accepted with another one
below it. -/
theorem path_two_five :
    ofHops [2, 5] = .ok ⟨0x502⟩ ∧ (⟨0x502⟩ : Route).Follows [2, 5] ∧
    ¬ IsPath [2, 0] ∧ (∃ fault, ofHops [2, 0] = .error fault) ∧
    (⟨0x500⟩ : Route).depth < maxDepth ∧ (9 : UInt8) ≠ 0 ∧
      ∃ c, (⟨0x500⟩ : Route).child 9 = .ok c ∧ c.parent? = some ⟨0x500⟩ := by
  have htaken : ofHops [2, 5] = .ok ⟨0x502⟩ := rfl
  have hzero : ¬ IsPath [2, 0] := fun h => h.2 0 (by decide) rfl
  have hroom : (⟨0x500⟩ : Route).depth < maxDepth := by decide
  obtain ⟨fault, hrefused, -⟩ := paths_bijOn.2.1 [2, 0] hzero
  exact ⟨htaken, paths_bijOn.2.2.1 _ _ htaken, hzero, ⟨fault, hrefused⟩, hroom, by decide,
    paths_bijOn.2.2.2 _ 9 hroom (by decide)⟩

end RouterFabric.Route
