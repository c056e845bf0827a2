import RouterFabric.Packet.Wire

/-!
# Opening and sealing a packet

Opening a packet undoes sealing it, and nothing else opens: a byte string opens to a list of words
exactly if the list is not empty and the string is the list as it is sealed. Of the checksum only
its place is used, and that it is a function of the bytes before it.

* `Packet.bytesWords_body`, `Packet.body_bytesWords` : words as bytes and back, both ways
* `Packet.ofWire_append` : the checksum word is split off, compared, and nothing else is lost
* `Packet.ofWire_eq_ok_iff` : what opens is what was sealed, and all else is refused with the reason
-/

namespace RouterFabric.Packet

open Checksum

variable {bytes front : List UInt8} {words : List UInt32} {a b c d : UInt8}

/-! ## One word -/

theorem toNat_byteWord (a b c d : UInt8) :
    (byteWord a b c d).toNat =
      (a.toNat <<< 24) + (b.toNat <<< 16) + (c.toNat <<< 8) + d.toNat := by
  have ha := a.toNat_lt
  have hb := b.toNat_lt
  have hc := c.toNat_lt
  have hd := d.toNat_lt
  simp only [byteWord, UInt32.toNat_ofNat', Nat.shiftLeft_eq]
  omega

theorem wordBytes_byteWord (a b c d : UInt8) : wordBytes (byteWord a b c d) = [a, b, c, d] := by
  have ha := a.toNat_lt
  have hb := b.toNat_lt
  have hc := c.toNat_lt
  have hd := d.toNat_lt
  simp only [wordBytes, toNat_byteWord, Nat.shiftLeft_eq, Nat.shiftRight_eq_div_pow,
    List.cons.injEq, and_true]
  refine ⟨?_, ?_, ?_, ?_⟩ <;>
    · apply UInt8.toNat_inj.1
      rw [UInt8.toNat_ofNat']
      omega

theorem byteWord_wordBytes (word : UInt32) :
    byteWord (UInt8.ofNat (word.toNat >>> 24)) (UInt8.ofNat (word.toNat >>> 16))
      (UInt8.ofNat (word.toNat >>> 8)) (UInt8.ofNat word.toNat) = word := by
  have hw := word.toNat_lt
  apply UInt32.toNat_inj.1
  simp only [toNat_byteWord, UInt8.toNat_ofNat', Nat.shiftLeft_eq, Nat.shiftRight_eq_div_pow]
  omega

/-! ## A list of words -/

@[simp] theorem body_nil : body [] = [] := rfl

@[simp] theorem body_cons (word : UInt32) (words : List UInt32) :
    body (word :: words) = wordBytes word ++ body words := rfl

/-- The words of a sealed list are the list, and what follows is read on its own. -/
theorem bytesWords_body (words : List UInt32) (bytes : List UInt8) :
    bytesWords (body words ++ bytes) = words ++ bytesWords bytes := by
  induction words with
  | nil => rfl
  | cons word words ih =>
    rw [body_cons, List.append_assoc, List.cons_append, ← ih]
    simp only [wordBytes, List.cons_append, List.nil_append, bytesWords, byteWord_wordBytes]

/-- No byte of whole words is lost when they are read. -/
theorem body_bytesWords (h : bytes.length % 4 = 0) : body (bytesWords bytes) = bytes := by
  fun_induction bytesWords bytes with
  | case1 a b c d rest ih =>
    rw [body_cons, wordBytes_byteWord, ih]
    · rfl
    · simp only [List.length_cons] at h
      omega
  | case2 bytes hno =>
    -- fewer than four bytes that are whole words are none at all
    match bytes, h, hno with
    | [], _, _ => rfl
    | [_], h, _ | [_, _], h, _ | [_, _, _], h, _ => simp at h
    | a :: b :: c :: d :: rest, _, hno => exact (hno a b c d rest rfl).elim

theorem bytesWords_ne_nil (h : 4 ≤ bytes.length) : bytesWords bytes ≠ [] := by
  match bytes, h with
  | a :: b :: c :: d :: rest, _ => simp [bytesWords]

/-! ## The checksum word -/

theorem exists_checksum (h : 4 ≤ bytes.length) :
    ∃ front a b c d, bytes = front ++ [a, b, c, d] := by
  have hlast : (bytes.drop (bytes.length - 4)).length = 4 := by
    rw [List.length_drop]
    omega
  match hdrop : bytes.drop (bytes.length - 4), hlast with
  | [a, b, c, d], _ =>
    refine ⟨bytes.take (bytes.length - 4), a, b, c, d, ?_⟩
    rw [← hdrop, List.take_append_drop]

/-- The checksum word is split off and compared with the checksum of the bytes before it, and these
are the words of the packet. -/
theorem ofWire_append (hlow : 4 ≤ front.length) (hwhole : front.length % 4 = 0) :
    ofWire (front ++ [a, b, c, d]) =
      if byteWord a b c d = crc32c front then .ok (bytesWords front)
      else .error (.protocol (.checksumMismatch (byteWord a b c d) (crc32c front))) := by
  have hlength : (front ++ [a, b, c, d]).length = front.length + 4 := by simp
  have hwords : bytesWords (front ++ [a, b, c, d]) = bytesWords front ++ [byteWord a b c d] := by
    calc bytesWords (front ++ [a, b, c, d])
        = bytesWords (body (bytesWords front) ++ [a, b, c, d]) := by rw [body_bytesWords hwhole]
      _ = bytesWords front ++ [byteWord a b c d] := bytesWords_body _ _
  have hlong : ¬ (front.length + 4 < 2 * Limit.wordSize ∨
      (front.length + 4) % Limit.wordSize ≠ 0) := by
    simp only [Limit.wordSize]
    omega
  have htake : (front ++ [a, b, c, d]).take (front.length + 4 - Limit.wordSize) = front :=
    List.take_left
  rw [ofWire, hlength, if_neg hlong, hwords, htake]
  simp

/-- A byte string whose length cannot be that of a packet is refused for its length. -/
theorem ofWire_of_length (h : bytes.length < 8 ∨ bytes.length % 4 ≠ 0) :
    ofWire bytes = .error (.protocol (.raggedLength bytes.length)) :=
  if_pos h

theorem toWire_eq (words : List UInt32) :
    ∃ a b c d, toWire words = body words ++ [a, b, c, d] ∧
      byteWord a b c d = crc32c (body words) :=
  ⟨_, _, _, _, rfl, byteWord_wordBytes _⟩

theorem ofWire_toWire (h : words ≠ []) : ofWire (toWire words) = .ok words := by
  obtain ⟨a, b, c, d, hwire, hsum⟩ := toWire_eq words
  have hpos : 0 < words.length := List.length_pos_iff.2 h
  have hwords : bytesWords (body words) = words := by
    simpa [bytesWords] using bytesWords_body words []
  rw [hwire, ofWire_append, if_pos hsum, hwords]
  · rw [body_length]
    omega
  · rw [body_length]
    omega

/-- A byte string is a list of words as it is sealed, or it is refused: for its length, or because
the word at its end is not the checksum of the bytes before it. -/
theorem sealed_or_refused (bytes : List UInt8) :
    (∃ words, words ≠ [] ∧ bytes = toWire words) ∨
    ((bytes.length < 8 ∨ bytes.length % 4 ≠ 0) ∧
      ofWire bytes = .error (.protocol (.raggedLength bytes.length))) ∨
    ∃ front a b c d, bytes = front ++ [a, b, c, d] ∧ byteWord a b c d ≠ crc32c front ∧
      ofWire bytes = .error (.protocol (.checksumMismatch (byteWord a b c d) (crc32c front))) := by
  by_cases hlength : bytes.length < 8 ∨ bytes.length % 4 ≠ 0
  · exact .inr (.inl ⟨hlength, ofWire_of_length hlength⟩)
  · obtain ⟨front, a, b, c, d, rfl⟩ := exists_checksum (show 4 ≤ bytes.length by omega)
    have hfront : 4 ≤ front.length ∧ front.length % 4 = 0 := by
      simp only [List.length_append, List.length_cons, List.length_nil] at hlength
      omega
    by_cases hsum : byteWord a b c d = crc32c front
    · refine .inl ⟨bytesWords front, bytesWords_ne_nil hfront.1, ?_⟩
      rw [toWire, body_bytesWords hfront.2, ← hsum, wordBytes_byteWord]
    · refine .inr (.inr ⟨front, a, b, c, d, rfl, hsum, ?_⟩)
      rw [ofWire_append hfront.1 hfront.2, if_neg hsum]

/-- **Opening is the inverse of sealing**: a byte string opens to a list of words exactly if the
list is not empty and the string is the list as it is sealed. Every other byte string is refused:
for its length, if that is less than two words or not whole words, and else because the word at its
end is not the checksum of the bytes before it. -/
theorem ofWire_eq_ok_iff (bytes : List UInt8) (words : List UInt32) :
    (ofWire bytes = .ok words ↔ words ≠ [] ∧ bytes = toWire words) ∧
    ((∃ words, words ≠ [] ∧ bytes = toWire words) ∨
      ((bytes.length < 8 ∨ bytes.length % 4 ≠ 0) ∧
        ofWire bytes = .error (.protocol (.raggedLength bytes.length))) ∨
      ∃ front a b c d, bytes = front ++ [a, b, c, d] ∧ byteWord a b c d ≠ crc32c front ∧
        ofWire bytes =
          .error (.protocol (.checksumMismatch (byteWord a b c d) (crc32c front)))) := by
  refine ⟨⟨?_, ?_⟩, sealed_or_refused bytes⟩
  · intro hopen
    rcases sealed_or_refused bytes with ⟨sealed, hne, rfl⟩ | ⟨-, hrefused⟩ |
      ⟨front, a, b, c, d, -, -, hrefused⟩
    · rw [ofWire_toWire hne, Except.ok.injEq] at hopen
      subst hopen
      exact ⟨hne, rfl⟩
    · rw [hrefused] at hopen
      cases hopen
    · rw [hrefused] at hopen
      cases hopen
  · rintro ⟨hne, rfl⟩
    exact ofWire_toWire hne

/-- A packet of one word, with the checksum of its four bytes. -/
example : ofWire [0x01, 0x02, 0x03, 0x04, 0x29, 0x30, 0x8c, 0xf4] = .ok [0x01020304] := by
  decide +kernel

end RouterFabric.Packet
