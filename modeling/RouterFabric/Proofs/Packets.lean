import RouterFabric.Packet.Notice
import RouterFabric.Proofs.Wire
import Mathlib.Data.Nat.Bitwise

/-!
# Packets there and back

What is read from the encoding of a packet is the packet, as far as its fields have room for it. An
address word has five fields next to each other, an event word three, and no two of them share a
bit, so each field comes back cut to its width. A route comes back without bit 63, which is the
marker of packets that travel towards the host.

* `Address.ofWord_word`, `Address.word_ofWord` : the address word, read and packed again
* `Route.ofWords_hi_lo`, `Route.ofWords_markedHi_lo` : the marker is dropped, set or not
* `ReadRequest.decode_encode` and its like : what each packet is read as
* `Packet.round_trip` : packets whose fields have room come back whole
-/

namespace RouterFabric

/-! ## Fields -/

namespace BitField

theorem get_eq (field : BitField) (word : Nat) :
    field.get word = word / 2 ^ field.low % 2 ^ field.width := by
  rw [get, span, Nat.shiftRight_eq_div_pow, Nat.one_shiftLeft]

theorem put_eq (field : BitField) (value : Nat) :
    field.put value = value % 2 ^ field.width * 2 ^ field.low := by
  rw [put, span, Nat.shiftLeft_eq, Nat.one_shiftLeft]

end BitField

/-! ## The address word -/

namespace Space

@[simp] theorem ofNumber_number (space : Space) : ofNumber space.number = space := by
  cases space <;> rfl

theorem number_lt (space : Space) : space.number < 4 := by
  cases space <;> decide

theorem number_ofNumber (n : Nat) : (ofNumber n).number = n % 4 := by
  have hlt : n % 4 < 4 := Nat.mod_lt n (by decide)
  unfold ofNumber
  match n % 4, hlt with
  | 0, _ | 1, _ | 2, _ | 3, _ => rfl

end Space

namespace Address

/-- The numbers of the address have room in the fields of an address word. -/
structure Packable (address : Address) : Prop where
  adapter : address.adapter ≤ 63
  offset : address.offset ≤ 0x1fff
  dwords : address.dwords ≤ 63
  seq : address.seq ≤ 3

/-- The address, each number cut to the width of its field. -/
def cut (address : Address) : Address where
  space := address.space
  adapter := address.adapter % 64
  offset := address.offset % 0x2000
  dwords := address.dwords % 64
  seq := address.seq % 4

theorem Packable.cut_eq {address : Address} (h : address.Packable) : address.cut = address := by
  obtain ⟨hadapter, hoffset, hdwords, hseq⟩ := h
  obtain ⟨space, adapter, offset, dwords, seq⟩ := address
  rw [cut, mk.injEq]
  refine ⟨rfl, ?_, ?_, ?_, ?_⟩
  · exact Nat.mod_eq_of_lt (Nat.lt_succ_of_le hadapter)
  · exact Nat.mod_eq_of_lt (Nat.lt_succ_of_le hoffset)
  · exact Nat.mod_eq_of_lt (Nat.lt_succ_of_le hdwords)
  · exact Nat.mod_eq_of_lt (Nat.lt_succ_of_le hseq)

/-- The fields of an address word stand next to each other, and the top three bits are free. -/
theorem toNat_word (address : Address) :
    address.word.toNat = address.offset % 0x2000 + address.dwords % 64 * 2 ^ 13 +
      address.adapter % 64 * 2 ^ 19 + address.space.number * 2 ^ 25 +
      address.seq % 4 * 2 ^ 27 := by
  have hspace := address.space.number_lt
  rw [word, UInt32.toNat_ofNat']
  simp only [BitField.put_eq, offsetField, dwordsField, adapterField, spaceField, seqField]
  omega

theorem ofWord_word (address : Address) : ofWord address.word = address.cut := by
  have hspace := address.space.number_lt
  have hspaceField : spaceField.get address.word.toNat = address.space.number := by
    rw [BitField.get_eq, toNat_word]
    simp only [spaceField]
    omega
  rw [ofWord, cut, mk.injEq, hspaceField]
  refine ⟨address.space.ofNumber_number, ?_, ?_, ?_, ?_⟩
  all_goals
    rw [BitField.get_eq, toNat_word]
    simp only [offsetField, dwordsField, adapterField, seqField]
    omega

/-- An address word that is read and packed again loses its top three bits. -/
theorem word_ofWord (word : UInt32) : (ofWord word).word = word &&& 0x1fffffff := by
  apply UInt32.toNat_inj.1
  have hmask : (0x1fffffff : UInt32).toNat = 2 ^ 29 - 1 := rfl
  rw [UInt32.toNat_and, hmask, Nat.and_two_pow_sub_one_eq_mod, toNat_word]
  simp only [ofWord, Space.number_ofNumber, BitField.get_eq, offsetField, dwordsField,
    adapterField, spaceField, seqField]
  omega

end Address

/-! ## Route words -/

namespace Route

/-- Bit 63 of the route is clear, so that the marker stands for nothing but the direction. -/
def Unmarked (r : Route) : Prop :=
  r.raw.toNat.testBit 63 = false

/-- The route with bit 63 clear. -/
def unmarked (r : Route) : Route :=
  ⟨UInt64.ofNat (r.raw.toNat % 2 ^ 63)⟩

theorem unmarked_iff {r : Route} : r.Unmarked ↔ r.raw.toNat < 2 ^ 63 := by
  have hlt := r.raw.toNat_lt
  rw [Unmarked, Nat.testBit_eq_decide_div_mod_eq, decide_eq_false_iff_not]
  omega

theorem Unmarked.eq {r : Route} (h : r.Unmarked) : r.unmarked = r := by
  rw [unmarked, Nat.mod_eq_of_lt (unmarked_iff.1 h), UInt64.ofNat_toNat]

theorem toNat_hi (r : Route) : r.hi.toNat = r.raw.toNat / 2 ^ 32 := by
  have hlt := r.raw.toNat_lt
  rw [hi, UInt32.toNat_ofNat', Nat.shiftRight_eq_div_pow]
  omega

theorem toNat_lo (r : Route) : r.lo.toNat = r.raw.toNat % 2 ^ 32 := by
  rw [lo, UInt32.toNat_ofNat']

/-- The marker stands above the 31 bits of the route. -/
theorem toNat_markedHi (r : Route) :
    r.markedHi.toNat = r.raw.toNat / 2 ^ 32 % 2 ^ 31 + 2 ^ 31 := by
  rw [markedHi, UInt32.toNat_ofNat', Nat.shiftRight_eq_div_pow]
  omega

theorem markedHi_and_marker (r : Route) : r.markedHi &&& marker = marker := by
  apply UInt32.toNat_inj.1
  have hbit : r.markedHi.toNat.testBit 31 = true := by
    rw [Nat.testBit_eq_decide_div_mod_eq, toNat_markedHi, decide_eq_true_iff]
    omega
  have hmarker : marker.toNat = 2 ^ 31 := rfl
  rw [UInt32.toNat_and, hmarker, Nat.and_two_pow, hbit]
  rfl

theorem ofWords_hi_lo (r : Route) : ofWords r.hi r.lo = r.unmarked := by
  have hlt := r.raw.toNat_lt
  rw [ofWords, unmarked, toNat_hi, toNat_lo, Nat.shiftLeft_eq]
  congr 2
  omega

/-- The marker is no part of the route. -/
theorem ofWords_markedHi_lo (r : Route) : ofWords r.markedHi r.lo = r.unmarked := by
  have hlt := r.raw.toNat_lt
  rw [ofWords, unmarked, toNat_markedHi, toNat_lo, Nat.shiftLeft_eq]
  congr 2
  omega

end Route

/-! ## The event word -/

namespace EventWord

theorem toNat_pack (code : UInt8) (adapter : Nat) (plug : UInt32) :
    (pack code adapter plug).toNat =
      code.toNat + adapter % 64 * 2 ^ 8 + plug.toNat / 2 ^ 30 * 2 ^ 30 := by
  have hcode := code.toNat_lt
  have hplug := plug.toNat_lt
  rw [pack, UInt32.toNat_ofNat']
  simp only [BitField.keep, BitField.put_eq, BitField.get_eq, codeField, adapterField, plugField]
  omega

theorem code_pack (c : UInt8) (a : Nat) (p : UInt32) : code (pack c a p) = c := by
  have hcode := c.toNat_lt
  apply UInt8.toNat_inj.1
  rw [code, UInt8.toNat_ofNat', BitField.get_eq, toNat_pack]
  simp only [codeField]
  omega

theorem adapter_pack (c : UInt8) (a : Nat) (p : UInt32) : adapter (pack c a p) = a % 64 := by
  have hcode := c.toNat_lt
  rw [adapter, BitField.get_eq, toNat_pack]
  simp only [adapterField]
  omega

/-- The plug bits stand in the event word where they stand in a notification. -/
theorem toNat_plug_pack (c : UInt8) (a : Nat) (p : UInt32) :
    (plug (pack c a p)).toNat = p.toNat / 2 ^ 30 * 2 ^ 30 := by
  have hcode := c.toNat_lt
  have hplug := p.toNat_lt
  rw [plug, UInt32.toNat_ofNat', BitField.keep, BitField.put_eq, BitField.get_eq, toNat_pack]
  simp only [plugField]
  omega

theorem plug_pack {c : UInt8} {a : Nat} {p : UInt32} (hp : p.toNat % 2 ^ 30 = 0) :
    plug (pack c a p) = p := by
  apply UInt32.toNat_inj.1
  rw [toNat_plug_pack]
  omega

end EventWord

/-! ## Packets -/

theorem ReadRequest.decode_encode (packet : ReadRequest) :
    decode packet.encode = .ok ⟨packet.route.unmarked, packet.address.cut⟩ := by
  rw [decode, encode, Packet.ofWire_toWire (List.cons_ne_nil _ _)]
  show Except.ok (mk (Route.ofWords packet.route.hi packet.route.lo) (Address.ofWord _)) = _
  rw [Route.ofWords_hi_lo, Address.ofWord_word]

theorem WriteResponse.decode_encode (packet : WriteResponse) :
    decode packet.encode = .ok ⟨packet.route.unmarked, packet.address.cut⟩ := by
  rw [decode, encode, Packet.ofWire_toWire (List.cons_ne_nil _ _)]
  show Except.ok (mk (Route.ofWords packet.route.markedHi packet.route.lo) (Address.ofWord _)) = _
  rw [Route.ofWords_markedHi_lo, Address.ofWord_word]

/-- What a write request with three words in front and any data is read as. -/
theorem WriteRequest.decode_toWire (hi lo word : UInt32) (data : List UInt32) :
    decode (Packet.toWire (hi :: lo :: word :: data)) =
      if data.length = (Address.ofWord word).dwords then
        .ok ⟨Route.ofWords hi lo, Address.ofWord word, data⟩
      else
        .error (.protocol (.writeLength (Address.ofWord word).dwords data.length)) := by
  rw [decode, Packet.ofWire_toWire (List.cons_ne_nil _ _)]
  rfl

theorem WriteRequest.decode_encode {packet : WriteRequest}
    (h : packet.data.length = packet.address.cut.dwords) :
    decode packet.encode = .ok ⟨packet.route.unmarked, packet.address.cut, packet.data⟩ := by
  rw [encode, decode_toWire, Address.ofWord_word, if_pos h, Route.ofWords_hi_lo]

theorem ReadResponse.decode_encode (packet : ReadResponse) :
    decode packet.encode =
      .ok ⟨packet.route.unmarked, packet.address.cut,
        packet.data.take (min packet.address.cut.dwords Limit.maxDwords)⟩ := by
  rw [decode, encode, Packet.ofWire_toWire (List.cons_ne_nil _ _)]
  show Except.ok (mk (Route.ofWords packet.route.markedHi packet.route.lo) (Address.ofWord _)
    (packet.data.take (min (Address.ofWord _).dwords Limit.maxDwords))) = _
  rw [Route.ofWords_markedHi_lo, Address.ofWord_word]

theorem Notification.decode_encode {packet : Notification}
    (h : packet.plug.toNat % 2 ^ 30 = 0) :
    decode packet.encode =
      .ok ⟨packet.route.unmarked, packet.code, packet.adapter % 64, packet.plug⟩ := by
  rw [decode, encode, Packet.ofWire_toWire (List.cons_ne_nil _ _)]
  show Except.ok (mk (Route.ofWords packet.route.hi packet.route.lo) (EventWord.code _)
    (EventWord.adapter _) (EventWord.plug _)) = _
  rw [Route.ofWords_hi_lo, EventWord.code_pack, EventWord.adapter_pack, EventWord.plug_pack h]

theorem HotplugEvent.decode_encode (packet : HotplugEvent) :
    decode packet.encode = .ok ⟨packet.route.unmarked, packet.adapter % 64, packet.unplug⟩ := by
  have hunplug := Bool.toNat_le packet.unplug
  have hword : (UInt32.ofNat (adapterField.put packet.adapter +
      unplugField.put packet.unplug.toNat)).toNat =
        packet.adapter % 64 + packet.unplug.toNat * 2 ^ 31 := by
    rw [UInt32.toNat_ofNat']
    simp only [BitField.put_eq, adapterField, unplugField]
    omega
  have hadapter : adapterField.get (packet.adapter % 64 + packet.unplug.toNat * 2 ^ 31) =
      packet.adapter % 64 := by
    rw [BitField.get_eq]
    simp only [adapterField]
    omega
  have hbit : unplugField.get (packet.adapter % 64 + packet.unplug.toNat * 2 ^ 31) =
      packet.unplug.toNat := by
    rw [BitField.get_eq]
    simp only [unplugField]
    omega
  rw [decode, encode, Packet.ofWire_toWire (List.cons_ne_nil _ _)]
  show Except.ok (mk (Route.ofWords packet.route.markedHi packet.route.lo)
    (adapterField.get (UInt32.toNat _)) (unplugField.get (UInt32.toNat _) == 1)) = _
  rw [Route.ofWords_markedHi_lo, hword, hadapter, hbit]
  cases packet.unplug <;> rfl

/-! ## The marker -/

/-- The first word of the packet carries the marker. -/
def Packet.Marked (bytes : List UInt8) : Prop :=
  ∃ hi rest, ofWire bytes = .ok (hi :: rest) ∧ hi &&& Route.marker = Route.marker

theorem Packet.marked_toWire (route : Route) (words : List UInt32) :
    Marked (toWire (route.markedHi :: words)) :=
  ⟨route.markedHi, words, ofWire_toWire (List.cons_ne_nil _ _), route.markedHi_and_marker⟩

/-! ## Packets whose fields have room -/

/-- **What is sent is what is read.** A packet whose route is free of the marker and whose numbers
have room in their fields is read as it was written: read requests and write responses always, write
requests if they carry as many words as their address declares, notifications if their plug bits are
nothing but plug bits, and hot-plug events. A read response comes back with as many words as it has,
its address declares and one packet holds. A write request with another number of words than its
address word declares is refused. The three packets that travel towards the host carry the marker,
and whatever their route, none of it is in the route that is read. An address word that is read and
packed again loses nothing but its top three bits. -/
theorem Packet.round_trip (route : Route) (hroute : route.Unmarked)
    (address : Address) (haddress : address.Packable) (data : List UInt32) :
    ReadRequest.decode (ReadRequest.encode ⟨route, address⟩) = .ok ⟨route, address⟩ ∧
    WriteResponse.decode (WriteResponse.encode ⟨route, address⟩) = .ok ⟨route, address⟩ ∧
    (data.length = address.dwords →
      WriteRequest.decode (WriteRequest.encode ⟨route, address, data⟩) =
        .ok ⟨route, address, data⟩) ∧
    (∀ hi lo word : UInt32, ∀ words : List UInt32,
      words.length ≠ (Address.ofWord word).dwords →
        WriteRequest.decode (toWire (hi :: lo :: word :: words)) =
          .error (.protocol (.writeLength (Address.ofWord word).dwords words.length))) ∧
    ReadResponse.decode (ReadResponse.encode ⟨route, address, data⟩) =
      .ok ⟨route, address, data.take (min data.length (min address.dwords 60))⟩ ∧
    (∀ (code : UInt8) (adapter : Nat) (plug : UInt32),
      adapter ≤ 63 → plug.toNat % 2 ^ 30 = 0 →
        Notification.decode (Notification.encode ⟨route, code, adapter, plug⟩) =
          .ok ⟨route, code, adapter, plug⟩) ∧
    (∀ (adapter : Nat) (unplug : Bool), adapter ≤ 63 →
      HotplugEvent.decode (HotplugEvent.encode ⟨route, adapter, unplug⟩) =
        .ok ⟨route, adapter, unplug⟩) ∧
    (∀ packet : ReadResponse, Marked packet.encode ∧
      ∃ got, ReadResponse.decode packet.encode = .ok got ∧ got.route = packet.route.unmarked) ∧
    (∀ packet : WriteResponse, Marked packet.encode ∧
      ∃ got, WriteResponse.decode packet.encode = .ok got ∧ got.route = packet.route.unmarked) ∧
    (∀ packet : HotplugEvent, Marked packet.encode ∧
      ∃ got, HotplugEvent.decode packet.encode = .ok got ∧ got.route = packet.route.unmarked) ∧
    (∀ word : UInt32, (Address.ofWord word).word = word &&& 0x1fffffff) := by
  have hr := hroute.eq
  have ha := haddress.cut_eq
  refine ⟨?_, ?_, ?_, ?_, ?_, ?_, ?_, ?_, ?_, ?_, Address.word_ofWord⟩
  · rw [ReadRequest.decode_encode, hr, ha]
  · rw [WriteResponse.decode_encode, hr, ha]
  · intro hlength
    rw [WriteRequest.decode_encode (ha.symm ▸ hlength), hr, ha]
  · intro hi lo word words hlength
    rw [WriteRequest.decode_toWire, if_neg hlength]
  · rw [ReadResponse.decode_encode, hr, ha, List.take_eq_take_min, Nat.min_comm]
    rfl
  · intro code adapter plug hadapter hplug
    rw [Notification.decode_encode hplug, hr, Nat.mod_eq_of_lt (Nat.lt_succ_of_le hadapter)]
  · intro adapter unplug hadapter
    rw [HotplugEvent.decode_encode, hr, Nat.mod_eq_of_lt (Nat.lt_succ_of_le hadapter)]
  · intro packet
    exact ⟨marked_toWire _ _, _, packet.decode_encode, rfl⟩
  · intro packet
    exact ⟨marked_toWire _ _, _, packet.decode_encode, rfl⟩
  · intro packet
    exact ⟨marked_toWire _ _, _, packet.decode_encode, rfl⟩

/-- The widest packets: every bit of the route and of the address is set, and the response carries
more words than a packet holds. -/
theorem Packet.round_trip_widest :
    Route.Unmarked ⟨0x7fffffffffffffff⟩ ∧ Address.Packable ⟨.counters, 63, 0x1fff, 63, 3⟩ ∧
    (List.replicate 63 (0xffffffff : UInt32)).length = 63 ∧
    WriteRequest.decode (WriteRequest.encode
      ⟨⟨0x7fffffffffffffff⟩, ⟨.counters, 63, 0x1fff, 63, 3⟩, List.replicate 63 0xffffffff⟩) =
      .ok ⟨⟨0x7fffffffffffffff⟩, ⟨.counters, 63, 0x1fff, 63, 3⟩, List.replicate 63 0xffffffff⟩ ∧
    ReadResponse.decode (ReadResponse.encode
      ⟨⟨0x7fffffffffffffff⟩, ⟨.counters, 63, 0x1fff, 63, 3⟩, List.replicate 63 0xffffffff⟩) =
      .ok ⟨⟨0x7fffffffffffffff⟩, ⟨.counters, 63, 0x1fff, 63, 3⟩,
        List.replicate 60 0xffffffff⟩ ∧
    Notification.decode (Notification.encode ⟨⟨0x7fffffffffffffff⟩, 255, 63, 0xc0000000⟩) =
      .ok ⟨⟨0x7fffffffffffffff⟩, 255, 63, 0xc0000000⟩ ∧
    HotplugEvent.decode (HotplugEvent.encode ⟨⟨0x7fffffffffffffff⟩, 63, true⟩) =
      .ok ⟨⟨0x7fffffffffffffff⟩, 63, true⟩ ∧
    WriteRequest.decode (toWire [0x80000000, 0, 0xe0002000]) =
      .error (.protocol (.writeLength 1 0)) := by
  have hroute : Route.Unmarked ⟨0x7fffffffffffffff⟩ := rfl
  have haddress : Address.Packable ⟨.counters, 63, 0x1fff, 63, 3⟩ :=
    ⟨by decide, by decide, by decide, by decide⟩
  obtain ⟨-, -, hwrite, hrefused, hread, hnotification, hhotplug, -⟩ :=
    Packet.round_trip _ hroute _ haddress (List.replicate 63 0xffffffff)
  exact ⟨hroute, haddress, rfl, hwrite rfl, hread, hnotification 255 63 _ (by decide) (by decide),
    hhotplug 63 true (by decide), hrefused _ _ 0xe0002000 [] (by decide)⟩

end RouterFabric
