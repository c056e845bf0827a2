import Mathlib.Logic.Equiv.Defs
import RouterFabric.Proofs.Checksum
import RouterFabric.Proofs.Wire

/-!
# Damaged packets

A packet may be damaged on its way: some of its bytes are others than were sent. If these are four
in a row of the body, or the checksum word, then the packet does not open. Errors are also counted
in bits: one bit is in one byte, and 25 bits in a row are in four.

* `Packet.DiffersWithin` : where two byte strings differ
* `Packet.Damaged` : the damage that is always seen
* `Packet.eq_of_crc32c` : bodies with one checksum that differ in four bytes in a row are the same
* `Packet.ofWire_damaged` : a damaged packet is refused
-/

namespace RouterFabric.Packet

open Checksum

variable {bytes front back x y : List UInt8} {words : List UInt32} {low high i : Nat}
  {a b c d : UInt8}

/-! ## Where packets differ -/

/-- The byte strings differ in no other places than from `low` up to `high`. -/
def DiffersWithin (x y : List UInt8) (low high : Nat) : Prop :=
  ∀ i, x[i]? ≠ y[i]? → low ≤ i ∧ i < high

/-- One bit of a byte string. Bits are counted from the first byte on, and in each byte in this
order. -/
def bit (order : Equiv.Perm (Fin 8)) (bytes : List UInt8) (p : Nat) : Bool :=
  (bytes.getD (p / 8) 0).toNat.testBit (order (Fin.ofNat 8 p))

/-- What can become of a packet on its way. -/
inductive Damaged (words : List UInt32) (bytes : List UInt8) : Prop
  /-- four bytes in a row of the body have changed, as far as any have -/
  | window (low : Nat) : low + 4 ≤ (body words).length →
      DiffersWithin bytes (toWire words) low (low + 4) → Damaged words bytes
  /-- the checksum word has changed -/
  | checksum : DiffersWithin bytes (toWire words) (body words).length
      ((body words).length + 4) → Damaged words bytes
  /-- a single bit has changed, in whatever order they are counted -/
  | flip (order : Equiv.Perm (Fin 8)) (p : Nat) :
      (∀ q, bit order bytes q ≠ bit order (toWire words) q → q = p) → Damaged words bytes
  /-- no other bits have changed than some of 25 in a row of the body -/
  | burst (order : Equiv.Perm (Fin 8)) (p : Nat) :
      (∀ q, bit order bytes q ≠ bit order (toWire words) q →
        p ≤ q ∧ q < p + 25 ∧ q < 8 * (body words).length) → Damaged words bytes

theorem DiffersWithin.take_eq (h : DiffersWithin x y low high) : x.take low = y.take low := by
  refine List.ext_getElem? fun i => ?_
  rw [List.getElem?_take, List.getElem?_take]
  split
  · by_contra hne
    have hplace := h i hne
    omega
  · rfl

theorem DiffersWithin.drop_eq (h : DiffersWithin x y low high) : x.drop high = y.drop high := by
  refine List.ext_getElem? fun i => ?_
  rw [List.getElem?_drop, List.getElem?_drop]
  by_contra hne
  have hplace := h (high + i) hne
  omega

theorem take_append_window (x : List UInt8) (low : Nat) :
    x = x.take low ++ (x.drop low).take 4 ++ x.drop (low + 4) := by
  rw [List.append_assoc, ← List.drop_drop, List.take_append_drop, List.take_append_drop]

/-- Byte strings that differ in four bytes in a row at most, and have the same checksum, are the
same. -/
theorem eq_of_crc32c (hlength : x.length = y.length) (hplace : DiffersWithin x y low (low + 4))
    (h : crc32c x = crc32c y) : x = y := by
  rw [take_append_window x low, take_append_window y low, hplace.take_eq, hplace.drop_eq] at h
  have hwindow : (x.drop low).take 4 = (y.drop low).take 4 := by
    refine crc32c_window_injective ?_ (List.length_take_le 4 _) h
    rw [List.length_take, List.length_take, List.length_drop, List.length_drop, hlength]
  rw [take_append_window x low, hwindow, hplace.take_eq, hplace.drop_eq, ← take_append_window]

theorem DiffersWithin.mono {low' high' : Nat} (h : DiffersWithin x y low high) (hlow : low' ≤ low)
    (hhigh : high ≤ high') : DiffersWithin x y low' high' := by
  intro i hne
  have hplace := h i hne
  omega

theorem DiffersWithin.front_eq (h : DiffersWithin (x ++ front) (y ++ back) low high)
    (hlength : x.length = y.length) (hlow : x.length ≤ low) : x = y := by
  have htake := (h.mono hlow (Nat.le_refl high)).take_eq
  rwa [List.take_left, hlength, List.take_left] at htake

theorem DiffersWithin.back_eq (h : DiffersWithin (x ++ front) (y ++ back) low high)
    (hlength : x.length = y.length) (hhigh : high ≤ x.length) : front = back := by
  have hdrop := (h.mono (Nat.le_refl low) hhigh).drop_eq
  rwa [List.drop_left, hlength, List.drop_left] at hdrop

theorem DiffersWithin.fronts (h : DiffersWithin (x ++ front) (y ++ back) low high)
    (hlength : x.length = y.length) : DiffersWithin x y low high := by
  intro i hne
  by_cases hi : i < x.length
  · refine h i ?_
    rwa [List.getElem?_append_left hi, List.getElem?_append_left (hlength ▸ hi)]
  · rw [List.getElem?_eq_none (by omega), List.getElem?_eq_none (by omega)] at hne
    exact absurd rfl hne

/-! ## Bits -/

/-- Where two bytes differ, one of their bits does. -/
theorem exists_bit_ne (order : Equiv.Perm (Fin 8)) (hlength : x.length = y.length)
    (h : x[i]? ≠ y[i]?) : i < y.length ∧ ∃ p, p / 8 = i ∧ bit order x p ≠ bit order y p := by
  have hi : i < y.length := by
    by_contra hge
    apply h
    rw [List.getElem?_eq_none (by omega), List.getElem?_eq_none (by omega)]
  have hi' : i < x.length := hlength ▸ hi
  refine ⟨hi, ?_⟩
  rw [List.getElem?_eq_getElem hi, List.getElem?_eq_getElem hi', ne_eq, Option.some.injEq] at h
  obtain ⟨k, hk⟩ : ∃ k, x[i].toNat.testBit k ≠ y[i].toNat.testBit k := by
    by_contra hall
    push Not at hall
    exact h (UInt8.toNat_inj.1 (Nat.eq_of_testBit_eq hall))
  have hlt : k < 8 := by
    by_contra hge
    have hpow : 2 ^ 8 ≤ 2 ^ k := Nat.pow_le_pow_right (by decide) (Nat.le_of_not_lt hge)
    apply hk
    rw [Nat.testBit_lt_two_pow (Nat.lt_of_lt_of_le x[i].toNat_lt hpow),
      Nat.testBit_lt_two_pow (Nat.lt_of_lt_of_le y[i].toNat_lt hpow)]
  let j := order.symm ⟨k, hlt⟩
  have hplace : (8 * i + j.val) / 8 = i := by omega
  have hrank : (order (Fin.ofNat 8 (8 * i + j.val))).val = k := by
    have hj : Fin.ofNat 8 (8 * i + j.val) = j := by
      apply Fin.ext
      show (8 * i + j.val) % 8 = j.val
      omega
    rw [hj, Equiv.apply_symm_apply]
  refine ⟨8 * i + j.val, hplace, ?_⟩
  unfold bit
  rw [hplace, hrank, List.getD_eq_getElem _ _ hi, List.getD_eq_getElem _ _ hi']
  exact hk

/-- Any damage is to four bytes in a row of the body, or to the checksum word. -/
theorem Damaged.differsWithin (hwords : words ≠ [])
    (hlength : bytes.length = (toWire words).length) (h : Damaged words bytes) :
    (∃ low, low + 4 ≤ (body words).length ∧
        DiffersWithin bytes (toWire words) low (low + 4)) ∨
      DiffersWithin bytes (toWire words) (body words).length
        ((body words).length + 4) := by
  have hsize : 4 ≤ (body words).length := by
    have hpos := List.length_pos_iff.2 hwords
    rw [body_length]
    omega
  have hwire : (toWire words).length = (body words).length + 4 := by
    simp [toWire]
  cases h with
  | window low hlow hplace => exact .inl ⟨low, hlow, hplace⟩
  | checksum hplace => exact .inr hplace
  | flip order p hone =>
    by_cases hbody : p / 8 < (body words).length
    · refine .inl ⟨min (p / 8) ((body words).length - 4), by omega, fun i hne => ?_⟩
      obtain ⟨hi, q, rfl, hq⟩ := exists_bit_ne order hlength hne
      have hsame := hone q hq
      omega
    · refine .inr fun i hne => ?_
      obtain ⟨hi, q, rfl, hq⟩ := exists_bit_ne order hlength hne
      have hsame := hone q hq
      omega
  | burst order p hrow =>
    refine .inl ⟨min (p / 8) ((body words).length - 4), by omega, fun i hne => ?_⟩
    obtain ⟨hi, q, rfl, hq⟩ := exists_bit_ne order hlength hne
    have hplace := hrow q hq
    omega

/-! ## Damaged packets are refused -/

theorem byteWord_of_wordBytes {word : UInt32} (h : [a, b, c, d] = wordBytes word) :
    byteWord a b c d = word := by
  simp only [wordBytes, List.cons.injEq, and_true] at h
  obtain ⟨rfl, rfl, rfl, rfl⟩ := h
  exact byteWord_wordBytes word

/-- **A damaged packet is refused**, whatever it holds and however long it is: a packet that differs
from what was sent in up to four bytes in a row of its body, or in its checksum word, does not carry
the checksum of its body. So every error in a single bit is detected, and every burst of errors in
up to 25 bits of the body. -/
theorem ofWire_damaged (hwords : words ≠ []) (hlength : bytes.length = (toWire words).length)
    (hdiffers : bytes ≠ toWire words) (h : Damaged words bytes) :
    ∃ carried computed, carried ≠ computed ∧
      ofWire bytes = .error (.protocol (.checksumMismatch carried computed)) := by
  have hpos := List.length_pos_iff.2 hwords
  have hwire : (toWire words).length = (body words).length + 4 := by
    simp [toWire]
  obtain ⟨front, a, b, c, d, rfl⟩ := exists_checksum (show 4 ≤ bytes.length by omega)
  have hfront : front.length = (body words).length := by
    simp only [List.length_append, List.length_cons, List.length_nil] at hlength
    omega
  have hwhole := body_length words
  have hsum : byteWord a b c d ≠ crc32c front := by
    intro hsum
    apply hdiffers
    obtain ⟨hbody, hsame⟩ : front = body words ∧
        [a, b, c, d] = wordBytes (crc32c (body words)) := by
      rcases h.differsWithin hwords hlength with ⟨low, hlow, hplace⟩ | hplace
      · have hsame := hplace.back_eq hfront (hfront ▸ hlow)
        have hkept := byteWord_of_wordBytes hsame
        exact ⟨eq_of_crc32c hfront (hplace.fronts hfront) (hsum ▸ hkept), hsame⟩
      · have hbody := hplace.front_eq hfront (Nat.le_of_eq hfront)
        rw [← hbody, ← hsum, wordBytes_byteWord]
        exact ⟨rfl, rfl⟩
    rw [hbody, hsame]
    rfl
  refine ⟨_, _, hsum, ?_⟩
  rw [ofWire_append (by omega) (by omega), if_neg hsum]

/-- A packet of three words in which one bit of the second has changed. -/
theorem flipped_bit_refused :
    ([1, 2, 3] : List UInt32) ≠ [] ∧
    ((toWire [1, 2, 3]).set 5 0x40).length = (toWire [1, 2, 3]).length ∧
    (toWire [1, 2, 3]).set 5 0x40 ≠ toWire [1, 2, 3] ∧
    Damaged [1, 2, 3] ((toWire [1, 2, 3]).set 5 0x40) ∧
    ∃ carried computed, carried ≠ computed ∧ ofWire ((toWire [1, 2, 3]).set 5 0x40) =
      .error (.protocol (.checksumMismatch carried computed)) := by
  have hwords : ([1, 2, 3] : List UInt32) ≠ [] := List.cons_ne_nil _ _
  have hdiffers : (toWire [1, 2, 3]).set 5 0x40 ≠ toWire [1, 2, 3] := by
    decide +kernel
  have damaged : Damaged [1, 2, 3] ((toWire [1, 2, 3]).set 5 0x40) := by
    refine .window 3 (by decide) fun i hne => ?_
    have hplace : 5 = i := by
      by_contra h
      exact hne (List.getElem?_set_ne h)
    omega
  exact ⟨hwords, List.length_set, hdiffers, damaged,
    ofWire_damaged hwords List.length_set hdiffers damaged⟩

end RouterFabric.Packet
