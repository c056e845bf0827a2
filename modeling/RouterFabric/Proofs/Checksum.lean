import Mathlib.Data.Nat.Bitwise
import RouterFabric.Checksum

/-!
# What a checksum tells apart

Division by the polynomial is linear, and since the polynomial has its lowest power nothing but zero
is divided to zero. So a difference that has once come into the remainder never leaves it, and four
bytes in a row, which are no longer than the remainder, always bring one in.

* `step_xor`, `steps_injective` : division is linear and loses nothing
* `remainder_xor`, `remainder_injective` : the same for byte strings
* `lt_of_remainder_eq_zero`, `remainder_short_injective` : what up to four bytes leave
* `crc32c_window_injective` : a change of up to four bytes in a row is seen
-/

namespace RouterFabric.Checksum

variable {a b w z : UInt32} {bytes front back x y : List UInt8} {n : Nat}

/-! ## One bit -/

theorem and_one_iff (a : UInt32) : a &&& 1 = 1 ↔ a.toNat % 2 = 1 := by
  rw [← UInt32.toNat_inj, UInt32.toNat_and]
  exact iff_of_eq (congrArg (· = 1) (Nat.and_one_is_mod a.toNat))

theorem toNat_shiftRight_one (a : UInt32) : (a >>> 1).toNat = a.toNat / 2 := by
  rw [UInt32.toNat_shiftRight]
  exact Nat.shiftRight_eq_div_pow a.toNat 1

theorem step_of_even (h : a.toNat % 2 = 0) : step a = a >>> 1 :=
  if_neg fun hone => by
    rw [and_one_iff] at hone
    omega

theorem step_of_odd (h : a.toNat % 2 = 1) : step a = (a >>> 1) ^^^ polynomial :=
  if_pos ((and_one_iff a).2 h)

/-- Division by the polynomial is linear. -/
theorem step_xor (a b : UInt32) : step (a ^^^ b) = step a ^^^ step b := by
  have hparity : (a ^^^ b).toNat % 2 = (a.toNat % 2 + b.toNat % 2) % 2 := by
    rw [UInt32.toNat_xor, Nat.xor_mod_two_eq]
    omega
  rcases Nat.mod_two_eq_zero_or_one a.toNat with ha | ha <;>
    rcases Nat.mod_two_eq_zero_or_one b.toNat with hb | hb
  · rw [step_of_even (a := a ^^^ b) (by omega), step_of_even ha, step_of_even hb,
      UInt32.shiftRight_xor]
  · rw [step_of_odd (a := a ^^^ b) (by omega), step_of_even ha, step_of_odd hb,
      UInt32.shiftRight_xor, UInt32.xor_assoc]
  · rw [step_of_odd (a := a ^^^ b) (by omega), step_of_odd ha, step_of_even hb,
      UInt32.shiftRight_xor, UInt32.xor_assoc, UInt32.xor_assoc, UInt32.xor_comm (b >>> 1)]
  · rw [step_of_even (a := a ^^^ b) (by omega), step_of_odd ha, step_of_odd hb,
      UInt32.shiftRight_xor, UInt32.xor_assoc, UInt32.xor_comm polynomial, UInt32.xor_assoc,
      UInt32.xor_self, UInt32.xor_zero]

/-- The polynomial has its lowest power, so that nothing but zero is divided to zero. -/
theorem step_eq_zero (h : step a = 0) : a = 0 := by
  have hhalf := toNat_shiftRight_one a
  rcases Nat.mod_two_eq_zero_or_one a.toNat with ha | ha
  · rw [step_of_even ha] at h
    rw [h] at hhalf
    apply UInt32.toNat_inj.1
    have hzero : (0 : UInt32).toNat = 0 := rfl
    omega
  · rw [step_of_odd ha, UInt32.xor_eq_zero_iff] at h
    have hlt := a.toNat_lt
    have hhigh : polynomial.toNat = 0x82f63b78 := rfl
    rw [h] at hhalf
    omega

theorem steps_xor (n : Nat) (a b : UInt32) : steps n (a ^^^ b) = steps n a ^^^ steps n b := by
  induction n generalizing a b with
  | zero => rfl
  | succ n ih => rw [steps, step_xor, ih]; rfl

theorem steps_eq_zero (h : steps n a = 0) : a = 0 := by
  induction n generalizing a with
  | zero => exact h
  | succ n ih => exact step_eq_zero (ih h)

theorem steps_injective (n : Nat) : Function.Injective (steps n) := by
  intro a b h
  have hzero : steps n (a ^^^ b) = 0 := by
    rw [steps_xor, h, UInt32.xor_self]
  exact UInt32.xor_eq_zero_iff.1 (steps_eq_zero hzero)

/-- Zeros are shifted out as they are. -/
theorem steps_of_mul (h : z.toNat = w.toNat * 2 ^ n) : steps n z = w := by
  induction n generalizing z with
  | zero => exact UInt32.toNat_inj.1 (h.trans (Nat.mul_one _))
  | succ n ih =>
    rw [Nat.pow_succ, ← Nat.mul_assoc] at h
    rw [steps, step_of_even (by omega)]
    refine ih ?_
    rw [toNat_shiftRight_one]
    omega

/-! ## Byte strings -/

theorem absorb_xor (a b : UInt32) (x y : UInt8) :
    absorb (a ^^^ b) (x ^^^ y) = absorb a x ^^^ absorb b y := by
  unfold absorb
  rw [← steps_xor, UInt8.toUInt32_xor]
  congr 1
  ac_rfl

theorem remainder_xor (a b : UInt32) (h : x.length = y.length) :
    remainder (a ^^^ b) (x.zipWith (· ^^^ ·) y) = remainder a x ^^^ remainder b y := by
  induction x generalizing a b y with
  | nil =>
    cases y with
    | nil => rfl
    | cons => cases h
  | cons e x ih =>
    cases y with
    | nil => cases h
    | cons f y =>
      have h : x.length = y.length := Nat.succ_inj.1 h
      calc remainder (absorb (a ^^^ b) (e ^^^ f)) (x.zipWith (· ^^^ ·) y)
          = remainder (absorb a e ^^^ absorb b f) (x.zipWith (· ^^^ ·) y) := by rw [absorb_xor]
        _ = remainder (absorb a e) x ^^^ remainder (absorb b f) y := ih _ _ h

/-- What follows does not make up for a difference. -/
theorem remainder_injective (bytes : List UInt8) : Function.Injective (remainder · bytes) := by
  induction bytes with
  | nil => exact Function.injective_id
  | cons e bytes ih =>
    intro a b h
    have habsorb : absorb a e = absorb b e := ih h
    exact UInt32.xor_left_inj _ |>.1 (steps_injective 8 habsorb)

/-- Where little is left after a byte, it was shifted out as it was. -/
theorem toNat_xor_of_absorb {e : UInt8} (h : (absorb a e).toNat < 2 ^ 24) :
    (a ^^^ e.toUInt32).toNat = (absorb a e).toNat * 2 ^ 8 := by
  have hz : (UInt32.ofNat ((absorb a e).toNat * 2 ^ 8)).toNat = (absorb a e).toNat * 2 ^ 8 := by
    rw [UInt32.toNat_ofNat']
    omega
  have hsame : a ^^^ e.toUInt32 = UInt32.ofNat ((absorb a e).toNat * 2 ^ 8) :=
    steps_injective 8 (steps_of_mul hz).symm
  rw [hsame, hz]

/-- A remainder that up to four bytes bring to zero is no longer than these. -/
theorem lt_of_remainder_eq_zero (hshort : bytes.length ≤ 4) (h : remainder a bytes = 0) :
    a.toNat < 2 ^ (8 * bytes.length) := by
  induction bytes generalizing a with
  | nil =>
    have ha : a = 0 := h
    rw [ha]
    exact Nat.zero_lt_one
  | cons e bytes ih =>
    have hfew : bytes.length ≤ 3 := Nat.le_of_succ_le_succ hshort
    have hrest : (absorb a e).toNat < 2 ^ (8 * bytes.length) := ih (Nat.le_succ_of_le hfew) h
    have hpow : 2 ^ (8 * bytes.length) ≤ 2 ^ 24 := Nat.pow_le_pow_right (by decide) (by omega)
    have hlong : 2 ^ 8 ≤ 2 ^ (8 * (bytes.length + 1)) :=
      Nat.pow_le_pow_right (by decide) (by omega)
    have hshifted := toNat_xor_of_absorb (Nat.lt_of_lt_of_le hrest hpow)
    have ha : a = (a ^^^ e.toUInt32) ^^^ e.toUInt32 := by
      rw [UInt32.xor_assoc, UInt32.xor_self, UInt32.xor_zero]
    rw [ha, UInt32.toNat_xor, hshifted, List.length_cons]
    refine Nat.xor_lt_two_pow ?_ (Nat.lt_of_lt_of_le e.toNat_lt hlong)
    rw [Nat.mul_succ, Nat.pow_add]
    exact Nat.mul_lt_mul_of_pos_right hrest (Nat.two_pow_pos 8)

/-- No four bytes bring zero to zero but zeros. -/
theorem eq_zero_of_remainder (hshort : bytes.length ≤ 4) (h : remainder 0 bytes = 0) :
    ∀ e ∈ bytes, e = 0 := by
  induction bytes with
  | nil => exact List.forall_mem_nil _
  | cons e bytes ih =>
    have hfew : bytes.length ≤ 3 := Nat.le_of_succ_le_succ hshort
    have hrest : (absorb 0 e).toNat < 2 ^ (8 * bytes.length) :=
      lt_of_remainder_eq_zero (Nat.le_succ_of_le hfew) h
    have hpow : 2 ^ (8 * bytes.length) ≤ 2 ^ 24 := Nat.pow_le_pow_right (by decide) (by omega)
    have hshifted := toNat_xor_of_absorb (Nat.lt_of_lt_of_le hrest hpow)
    rw [UInt32.zero_xor, UInt8.toNat_toUInt32] at hshifted
    have hlt := e.toNat_lt
    have he : e = 0 := UInt8.toNat_inj.1 (show e.toNat = 0 by omega)
    have hzero : absorb 0 e = 0 := UInt32.toNat_inj.1 (show (absorb 0 e).toNat = 0 by omega)
    have h : remainder (absorb 0 e) bytes = 0 := h
    rw [hzero] at h
    exact List.forall_mem_cons.2 ⟨he, ih (Nat.le_succ_of_le hfew) h⟩

/-- Up to four bytes can be told from what they leave of any remainder. -/
theorem remainder_short_injective (hlength : x.length = y.length) (hshort : x.length ≤ 4)
    (h : remainder a x = remainder a y) : x = y := by
  have hzero : remainder 0 (x.zipWith (· ^^^ ·) y) = 0 := by
    rw [← UInt32.xor_self (a := a), remainder_xor a a hlength, h, UInt32.xor_self, UInt32.xor_self]
  have hzeros := eq_zero_of_remainder (by simpa [← hlength] using hshort) hzero
  refine List.ext_getElem hlength fun i hi hi' => ?_
  have hbyte := hzeros (x[i] ^^^ y[i]) (List.mem_iff_getElem.2 ⟨i, by simp; omega, by simp⟩)
  exact UInt8.xor_eq_zero_iff.1 hbyte

/-- **A change of up to four bytes in a row changes the checksum**, whatever stands before and
after them. -/
theorem crc32c_window_injective (hlength : x.length = y.length) (hshort : x.length ≤ 4)
    (h : crc32c (front ++ x ++ back) = crc32c (front ++ y ++ back)) : x = y := by
  have hremainder := (UInt32.xor_left_inj _).1 h
  rw [remainder_append, remainder_append, remainder_append, remainder_append] at hremainder
  exact remainder_short_injective hlength hshort (remainder_injective back hremainder)

end RouterFabric.Checksum
