import RouterFabric.Capability

/-!
# Chains of capability headers

The headers of a config space form a chain: each leads to the next, as far as its pointer is not
zero and keeps to the bound of the header. What stands in the space is arbitrary, so that a read
may fail anywhere and a chain may never end. A search goes along the chain and stops at the first
header that it is for, where the chain ends, where a read fails, or after so many headers.

* `Program.result_bind`, `Program.requests_bind_ok` : the run of a program, part by part
* `Capability.wordAt`, `headerAt` : what a reader gives for a word and for a header
* `Capability.chain` : the offsets of the headers, one after the other
* `Capability.Passed` : how far a search has come in vain
* `Capability.find_along_chain` : what a search does, over any reader
-/

namespace RouterFabric

namespace Program

variable {ρ σ α β : Type} {reader : ρ → Reply} {p : Program ρ α} {a : α} {failure : Failure}

theorem result_bind (p : Program ρ α) (f : α → Program ρ β) :
    (p >>= f).result reader = p.result reader >>= fun a => (f a).result reader := by
  induction p with
  | done result => cases result <;> rfl
  | ask request next ih => exact ih (reader request)

theorem requests_bind_ok (f : α → Program ρ β) (h : p.result reader = .ok a) :
    (p >>= f).requests reader = p.requests reader ++ (f a).requests reader := by
  induction p with
  | done result =>
    cases h
    rfl
  | ask request next ih => exact congrArg (request :: ·) (ih (reader request) h)

theorem requests_bind_error (f : α → Program ρ β) (h : p.result reader = .error failure) :
    (p >>= f).requests reader = p.requests reader := by
  induction p with
  | done result =>
    cases h
    rfl
  | ask request next ih => exact congrArg (request :: ·) (ih (reader request) h)

theorem result_mapRequests (f : ρ → σ) (reader : σ → Reply) (p : Program ρ α) :
    (p.mapRequests f).result reader = p.result fun request => reader (f request) := by
  induction p with
  | done result => rfl
  | ask request next ih => exact ih (reader (f request))

end Program

namespace Capability

variable {reader : Nat → Reply} {target : Target} {offset limit budget n m : Nat}
  {first : Option Nat} {header : Header} {failure : Failure} {word : UInt32}

/-! ## Headers -/

/-- The word at an offset. -/
def wordAt (reader : Nat → Reply) (offset : Nat) : Outcome UInt32 :=
  reader offset >>= firstWord offset

/-- Whether a header that begins with this word has a second one. -/
def isLong (word : UInt32) : Bool :=
  CapabilityWord.idField.get word.toNat == CapabilityWord.vendorSpecific &&
    CapabilityWord.lengthField.get word.toNat == 0

/-- The short header with this word. -/
def shortHeader (offset : Nat) (word : UInt32) : Header where
  offset := offset
  id := CapabilityWord.idField.get word.toNat
  vendor? :=
    if CapabilityWord.idField.get word.toNat = CapabilityWord.vendorSpecific then
      some (CapabilityWord.vendorField.get word.toNat)
    else
      none
  extended := false
  next := CapabilityWord.nextField.get word.toNat

/-- The long header with these words. -/
def longHeader (offset : Nat) (word second : UInt32) : Header where
  offset := offset
  id := CapabilityWord.vendorSpecific
  vendor? := some (CapabilityWord.vendorField.get word.toNat)
  extended := true
  next := CapabilityWord.longNextField.get second.toNat

/-- The header that begins with this word. -/
def headerFrom (reader : Nat → Reply) (offset : Nat) (word : UInt32) : Outcome Header :=
  if isLong word then (wordAt reader (offset + 1)).map (longHeader offset word)
  else .ok (shortHeader offset word)

/-- The header at an offset, which takes one or two words. -/
def headerAt (reader : Nat → Reply) (offset : Nat) : Outcome Header :=
  wordAt reader offset >>= headerFrom reader offset

/-- The offsets of the words of a header, as far as they are read. -/
def readsAt (reader : Nat → Reply) (offset : Nat) : List Nat :=
  match wordAt reader offset with
  | .ok word => if isLong word then [offset, offset + 1] else [offset]
  | .error _ => [offset]

theorem result_readWord : (readWord offset).result reader = wordAt reader offset :=
  Program.result_bind (Program.request offset) _

theorem requests_readWord : (readWord offset).requests reader = [offset] := by
  show offset :: ((Program.done (reader offset)).bind _).requests reader = _
  cases reader offset <;> rfl

/-- What comes after the first word of a header. -/
def readRest (offset : Nat) (word : UInt32) : Program Nat Header :=
  if isLong word then do
    let second ← readWord ((offset + 1) % 0x10000)
    return longHeader offset word second
  else
    return shortHeader offset word

theorem read_eq (offset : Nat) : Header.read offset = readWord offset >>= readRest offset := by
  unfold Header.read
  congr 1
  funext word
  unfold readRest isLong shortHeader longHeader
  by_cases hid : CapabilityWord.idField.get word.toNat = CapabilityWord.vendorSpecific
  · by_cases hlength : CapabilityWord.lengthField.get word.toNat = 0
    · simp [hid, hlength]
    · simp [hid, hlength]
  · simp [hid]

theorem readRest_spec (reader : Nat → Reply) (word : UInt32) (hlt : offset + 1 < 0x10000) :
    (readRest offset word).result reader = headerFrom reader offset word ∧
      (readRest offset word).requests reader = if isLong word then [offset + 1] else [] := by
  unfold readRest headerFrom
  rw [Nat.mod_eq_of_lt hlt]
  cases isLong word with
  | false => exact ⟨rfl, rfl⟩
  | true =>
    have hsecond : (readWord (offset + 1)).result reader = wordAt reader (offset + 1) :=
      result_readWord
    simp only [if_true, Program.result_bind, hsecond]
    cases hw : wordAt reader (offset + 1) with
    | error failure =>
      refine ⟨rfl, ?_⟩
      rw [Program.requests_bind_error _ (hsecond.trans hw), requests_readWord]
    | ok second =>
      refine ⟨rfl, ?_⟩
      rw [Program.requests_bind_ok _ (hsecond.trans hw), requests_readWord]
      rfl

/-- Reading a header gives what stands there, in one or two reads. -/
theorem read_spec (reader : Nat → Reply) (hlt : offset + 1 < 0x10000) :
    (Header.read offset).result reader = headerAt reader offset ∧
      (Header.read offset).requests reader = readsAt reader offset := by
  have hfirst : (readWord offset).result reader = wordAt reader offset := result_readWord
  unfold headerAt readsAt
  rw [read_eq, Program.result_bind, hfirst]
  cases hword : wordAt reader offset with
  | error failure =>
    rw [Program.requests_bind_error _ (hfirst.trans hword), requests_readWord]
    exact ⟨rfl, rfl⟩
  | ok word =>
    obtain ⟨hresult, hrequests⟩ := readRest_spec reader word hlt
    rw [Program.requests_bind_ok _ (hfirst.trans hword), requests_readWord, hrequests]
    refine ⟨hresult, ?_⟩
    show [offset] ++ (if isLong word then [offset + 1] else []) =
      if isLong word then [offset, offset + 1] else [offset]
    split <;> rfl

/-! ## Chains -/

/-- Where a pointer leads: nowhere if it is zero or exceeds its bound. -/
def follow (pointer limit : Nat) : Option Nat :=
  if pointer = 0 ∨ limit < pointer then none else some pointer

/-- The offset of the header after this one. A long header may lead anywhere in the space. -/
def Header.successor (header : Header) : Option Nat :=
  follow header.next (if header.extended then 0x1fff else 0xff)

/-- The offset of the header after the one at an offset, if that one can be read. -/
def nextAt (reader : Nat → Reply) (offset : Nat) : Option Nat :=
  match headerAt reader offset with
  | .ok header => header.successor
  | .error _ => none

/-- The offset of the header at position `n` of a chain. -/
def chain (reader : Nat → Reply) (first : Option Nat) : Nat → Option Nat
  | 0 => first
  | n + 1 => (chain reader first n).bind (nextAt reader)

/-- What is read at position `n` of a chain. -/
def header? (reader : Nat → Reply) (first : Option Nat) (n : Nat) : Option (Outcome Header) :=
  (chain reader first n).map (headerAt reader)

/-- The first `n` headers of a chain can be read, and a search is for none of them. -/
def Passed (reader : Nat → Reply) (target : Target) (first : Option Nat) (n : Nat) : Prop :=
  ∀ i < n, ∃ header, header? reader first i = some (.ok header) ∧ header.isTarget target = false

theorem follow_le (h : follow offset limit = some n) : n ≤ limit := by
  unfold follow at h
  split at h
  · cases h
  · cases h
    omega

/-- Every header of a chain lies inside the space. -/
theorem chain_le (hfirst : ∀ offset, first = some offset → offset ≤ 0x1fff)
    (h : chain reader first n = some offset) : offset ≤ 0x1fff := by
  cases n with
  | zero => exact hfirst offset h
  | succ n =>
    obtain ⟨before, -, hnext⟩ := Option.bind_eq_some_iff.1 h
    unfold nextAt at hnext
    split at hnext
    · have hle := follow_le hnext
      split at hle <;> omega
    · cases hnext

theorem Passed.of_le (h : Passed reader target first n) (hle : m ≤ n) :
    Passed reader target first m :=
  fun i hi => h i (Nat.lt_of_lt_of_le hi hle)

theorem Passed.succ (h : Passed reader target first n)
    (hread : header? reader first n = some (.ok header))
    (hother : header.isTarget target = false) : Passed reader target first (n + 1) := by
  intro i hi
  rcases Nat.lt_succ_iff_lt_or_eq.1 hi with hlt | rfl
  · exact h i hlt
  · exact ⟨header, hread, hother⟩

/-- Where a chain has come to a header, that one is read or cannot be read. -/
theorem header?_eq_some {result : Outcome Header} :
    header? reader first n = some result ↔
      ∃ offset, chain reader first n = some offset ∧ headerAt reader offset = result :=
  Option.map_eq_some_iff

theorem chain_succ_of_read (hchain : chain reader first n = some offset)
    (hread : headerAt reader offset = .ok header) :
    chain reader first (n + 1) = header.successor := by
  show (chain reader first n).bind _ = _
  rw [hchain, Option.bind_some, nextAt, hread]

/-! ## Searches -/

/-- A search from a place in a chain on. -/
def seek (target : Target) (budget : Nat) : Option Nat → Program Nat Header
  | none => .fail .notFound
  | some offset =>
    match budget with
    | 0 => .fail (.protocol .chainTooLong)
    | budget + 1 => do
      let header ← Header.read offset
      if header.isTarget target then
        return header
      else
        seek target budget header.successor

theorem search_eq_seek (target : Target) (budget offset limit : Nat) :
    search target budget offset limit = seek target budget (follow offset limit) := by
  induction budget generalizing offset limit with
  | zero =>
    unfold search follow
    split <;> rfl
  | succ budget ih =>
    unfold search follow
    split
    · rfl
    · show Header.read offset >>= _ = Header.read offset >>= _
      congr 1
      funext header
      split
      · rfl
      · exact ih _ _

section step

variable (hle : offset ≤ 0x1fff)

include hle

theorem seek_of_error (target : Target) (budget : Nat)
    (hread : headerAt reader offset = .error failure) :
    (seek target (budget + 1) (some offset)).result reader = .error failure ∧
      (seek target (budget + 1) (some offset)).requests reader = readsAt reader offset := by
  obtain ⟨hresult, hrequests⟩ := read_spec reader (show offset + 1 < 0x10000 by omega)
  refine ⟨?_, ?_⟩
  · refine (Program.result_bind _ _).trans ?_
    rw [hresult, hread]
    rfl
  · exact (Program.requests_bind_error _ (hresult.trans hread)).trans hrequests

theorem seek_of_target (budget : Nat) (hread : headerAt reader offset = .ok header)
    (htarget : header.isTarget target = true) :
    (seek target (budget + 1) (some offset)).result reader = .ok header ∧
      (seek target (budget + 1) (some offset)).requests reader = readsAt reader offset := by
  obtain ⟨hresult, hrequests⟩ := read_spec reader (show offset + 1 < 0x10000 by omega)
  refine ⟨?_, ?_⟩
  · refine (Program.result_bind _ _).trans ?_
    rw [hresult, hread]
    show (if header.isTarget target = true then _ else _ : Program Nat Header).result reader = _
    rw [if_pos htarget]
    rfl
  · refine (Program.requests_bind_ok _ (hresult.trans hread)).trans ?_
    rw [hrequests, if_pos htarget]
    exact List.append_nil _

theorem seek_of_other (budget : Nat) (hread : headerAt reader offset = .ok header)
    (hother : header.isTarget target = false) :
    (seek target (budget + 1) (some offset)).result reader =
        (seek target budget header.successor).result reader ∧
      (seek target (budget + 1) (some offset)).requests reader =
        readsAt reader offset ++ (seek target budget header.successor).requests reader := by
  obtain ⟨hresult, hrequests⟩ := read_spec reader (show offset + 1 < 0x10000 by omega)
  have hnot : ¬ header.isTarget target = true := by rw [hother]; exact Bool.false_ne_true
  refine ⟨?_, ?_⟩
  · refine (Program.result_bind _ _).trans ?_
    rw [hresult, hread]
    show (if header.isTarget target = true then _ else _ : Program Nat Header).result reader = _
    rw [if_neg hnot]
  · refine (Program.requests_bind_ok _ (hresult.trans hread)).trans ?_
    rw [hrequests, if_neg hnot]

end step

/-- The reads of the header at position `n` of a chain. -/
def headerReads (reader : Nat → Reply) (first : Option Nat) (n : Nat) : List Nat :=
  (chain reader first n).toList.flatMap (readsAt reader)

theorem headerReads_of_chain (hchain : chain reader first n = some offset) :
    headerReads reader first n = readsAt reader offset := by
  rw [headerReads, hchain]
  exact List.append_nil _

/-- The reads of the first `n` headers of a chain. -/
def readsBefore (reader : Nat → Reply) (first : Option Nat) (n : Nat) : List Nat :=
  (List.range n).flatMap (headerReads reader first)

theorem readsBefore_succ (hchain : chain reader first n = some offset) :
    readsBefore reader first (n + 1) = readsBefore reader first n ++ readsAt reader offset := by
  unfold readsBefore
  rw [List.range_succ, List.flatMap_append, List.flatMap_singleton, headerReads_of_chain hchain]

/-- What a search comes to that has passed some headers in vain. -/
theorem seek_of_passed (hfirst : ∀ offset, first = some offset → offset ≤ 0x1fff)
    (h : Passed reader target first n) (hn : n ≤ budget) :
    (seek target budget first).result reader =
        (seek target (budget - n) (chain reader first n)).result reader ∧
      (seek target budget first).requests reader = readsBefore reader first n ++
        (seek target (budget - n) (chain reader first n)).requests reader := by
  induction n with
  | zero => exact ⟨rfl, rfl⟩
  | succ n ih =>
    obtain ⟨hresult, hrequests⟩ := ih (h.of_le (Nat.le_succ n)) (Nat.le_of_succ_le hn)
    obtain ⟨header, hheader, hother⟩ := h n (Nat.lt_succ_self n)
    obtain ⟨offset, hchain, hread⟩ := header?_eq_some.1 hheader
    obtain ⟨hresult', hrequests'⟩ := seek_of_other (chain_le hfirst hchain)
      (budget - (n + 1)) hread hother
    rw [hchain, show budget - n = budget - (n + 1) + 1 by omega] at hresult hrequests
    rw [chain_succ_of_read hchain hread, readsBefore_succ hchain]
    refine ⟨hresult.trans hresult', ?_⟩
    rw [hrequests, hrequests', List.append_assoc]

/-- How a search ends that may read `budget` headers: how many it has read by then, and with what
result. -/
inductive Ends (reader : Nat → Reply) (target : Target) (first : Option Nat) (budget : Nat) :
    Nat → Outcome Header → Prop
  | found {n : Nat} {header : Header} : n < budget → Passed reader target first n →
      header? reader first n = some (.ok header) → header.isTarget target = true →
      Ends reader target first budget (n + 1) (.ok header)
  | failed {n : Nat} {failure : Failure} : n < budget → Passed reader target first n →
      header? reader first n = some (.error failure) →
      Ends reader target first budget (n + 1) (.error failure)
  | ended {n : Nat} : n ≤ budget → Passed reader target first n → chain reader first n = none →
      Ends reader target first budget n (.error .notFound)
  | endless {offset : Nat} : Passed reader target first budget →
      chain reader first budget = some offset →
      Ends reader target first budget budget (.error (.protocol .chainTooLong))

/-- A search goes on along the chain for as long as it passes headers in vain. -/
theorem exists_ends (reader : Nat → Reply) (target : Target) (first : Option Nat) (budget : Nat) :
    ∃ n result, Ends reader target first budget n result := by
  -- how far it comes with fewer headers
  have upTo : ∀ k ≤ budget, (∃ n result, Ends reader target first budget n result) ∨
      Passed reader target first k := by
    intro k
    induction k with
    | zero => exact fun _ => .inr fun i hi => absurd hi (Nat.not_lt_zero i)
    | succ k ih =>
      intro hk
      rcases ih (Nat.le_of_succ_le hk) with hends | hpassed
      · exact .inl hends
      · cases hchain : chain reader first k with
        | none => exact .inl ⟨k, _, .ended (Nat.le_of_succ_le hk) hpassed hchain⟩
        | some offset =>
          cases hread : headerAt reader offset with
          | error failure =>
            exact .inl ⟨k + 1, _, .failed hk hpassed (header?_eq_some.2 ⟨offset, hchain, hread⟩)⟩
          | ok header =>
            have hheader := header?_eq_some.2 ⟨offset, hchain, hread⟩
            cases htarget : header.isTarget target with
            | true => exact .inl ⟨k + 1, _, .found hk hpassed hheader htarget⟩
            | false => exact .inr (hpassed.succ hheader htarget)
  rcases upTo budget (Nat.le_refl budget) with hends | hpassed
  · exact hends
  · cases hchain : chain reader first budget with
    | none => exact ⟨budget, _, .ended (Nat.le_refl budget) hpassed hchain⟩
    | some offset => exact ⟨budget, _, .endless hpassed hchain⟩

theorem Ends.seek {result : Outcome Header}
    (hfirst : ∀ offset, first = some offset → offset ≤ 0x1fff)
    (h : Ends reader target first budget n result) :
    n ≤ budget ∧ (seek target budget first).result reader = result ∧
      (seek target budget first).requests reader = readsBefore reader first n := by
  cases h with
  | @found n header hn hpassed hheader htarget =>
    obtain ⟨hresult, hrequests⟩ := seek_of_passed hfirst hpassed (Nat.le_of_lt hn)
    obtain ⟨offset, hchain, hread⟩ := header?_eq_some.1 hheader
    rw [hchain, show budget - n = budget - (n + 1) + 1 by omega] at hresult hrequests
    obtain ⟨hresult', hrequests'⟩ := seek_of_target (chain_le hfirst hchain)
      (budget - (n + 1)) hread htarget
    rw [readsBefore_succ hchain]
    exact ⟨hn, hresult.trans hresult', hrequests.trans (congrArg _ hrequests')⟩
  | @failed n failure hn hpassed hheader =>
    obtain ⟨hresult, hrequests⟩ := seek_of_passed hfirst hpassed (Nat.le_of_lt hn)
    obtain ⟨offset, hchain, hread⟩ := header?_eq_some.1 hheader
    rw [hchain, show budget - n = budget - (n + 1) + 1 by omega] at hresult hrequests
    obtain ⟨hresult', hrequests'⟩ := seek_of_error (chain_le hfirst hchain)
      target (budget - (n + 1)) hread
    rw [readsBefore_succ hchain]
    exact ⟨hn, hresult.trans hresult', hrequests.trans (congrArg _ hrequests')⟩
  | ended hn hpassed hchain =>
    obtain ⟨hresult, hrequests⟩ := seek_of_passed hfirst hpassed hn
    rw [hchain] at hresult hrequests
    exact ⟨hn, hresult.trans (by cases budget - n <;> rfl), hrequests.trans (by
      cases budget - n <;> exact List.append_nil _)⟩
  | endless hpassed hchain =>
    obtain ⟨hresult, hrequests⟩ := seek_of_passed hfirst hpassed (Nat.le_refl budget)
    rw [hchain, Nat.sub_self] at hresult hrequests
    exact ⟨Nat.le_refl budget, hresult, hrequests.trans (List.append_nil _)⟩

/-! ## Reads -/

theorem length_readsAt_le (reader : Nat → Reply) (offset : Nat) :
    (readsAt reader offset).length ≤ 2 := by
  unfold readsAt
  split
  · split
    · exact Nat.le_refl 2
    · exact Nat.le_succ 1
  · exact Nat.le_succ 1

theorem mem_readsAt_le (h : m ∈ readsAt reader offset) : m ≤ offset + 1 := by
  unfold readsAt at h
  split at h
  · split at h
    · rcases List.mem_cons.1 h with rfl | h
      · exact Nat.le_succ _
      · exact Nat.le_of_eq (List.mem_singleton.1 h)
    · rw [List.mem_singleton.1 h]
      exact Nat.le_succ offset
  · rw [List.mem_singleton.1 h]
    exact Nat.le_succ offset

/-- All words of a header that can be read can be read. -/
theorem readsAt_of_ok (hread : headerAt reader offset = .ok header) :
    ∀ o ∈ readsAt reader offset, ∃ word, wordAt reader o = .ok word := by
  intro o ho
  unfold headerAt at hread
  unfold readsAt at ho
  cases hword : wordAt reader offset with
  | error failure =>
    rw [hword] at hread
    cases hread
  | ok word =>
    rw [hword] at hread ho
    have hrest : headerFrom reader offset word = .ok header := hread
    unfold headerFrom at hrest
    simp only at ho
    split at ho
    · rename_i hlong
      rw [if_pos hlong] at hrest
      rcases List.mem_cons.1 ho with rfl | ho
      · exact ⟨word, hword⟩
      · rw [List.mem_singleton.1 ho]
        cases hsecond : wordAt reader (offset + 1) with
        | error failure =>
          rw [hsecond] at hrest
          cases hrest
        | ok second => exact ⟨second, rfl⟩
    · rw [List.mem_singleton.1 ho]
      exact ⟨word, hword⟩

/-- Where a header cannot be read, the last of its reads is the one that fails. -/
theorem readsAt_of_error (hread : headerAt reader offset = .error failure) :
    ∃ before last, readsAt reader offset = before ++ [last] ∧
      wordAt reader last = .error failure ∧
      ∀ o ∈ before, ∃ word, wordAt reader o = .ok word := by
  unfold headerAt at hread
  unfold readsAt
  cases hword : wordAt reader offset with
  | error failure' =>
    rw [hword] at hread
    cases hread
    exact ⟨[], offset, rfl, hword, List.forall_mem_nil _⟩
  | ok word =>
    rw [hword] at hread
    have hrest : headerFrom reader offset word = .error failure := hread
    unfold headerFrom at hrest
    split at hrest
    · rename_i hlong
      cases hsecond : wordAt reader (offset + 1) with
      | ok second =>
        rw [hsecond] at hrest
        cases hrest
      | error failure' =>
        rw [hsecond] at hrest
        cases hrest
        exact ⟨[offset], offset + 1, if_pos hlong, hsecond,
          List.forall_mem_singleton.2 ⟨word, hword⟩⟩
    · cases hrest

theorem mem_readsBefore (h : m ∈ readsBefore reader first n) :
    ∃ i offset, i < n ∧ chain reader first i = some offset ∧ m ∈ readsAt reader offset := by
  obtain ⟨i, hi, hm⟩ := List.mem_flatMap.1 h
  obtain ⟨offset, hoffset, hm⟩ := List.mem_flatMap.1 hm
  exact ⟨i, offset, List.mem_range.1 hi, Option.mem_toList.1 hoffset, hm⟩

theorem length_readsBefore_le (reader : Nat → Reply) (first : Option Nat) (n : Nat) :
    (readsBefore reader first n).length ≤ 2 * n := by
  induction n with
  | zero => exact Nat.le_refl 0
  | succ n ih =>
    cases hchain : chain reader first n with
    | none =>
      unfold readsBefore at ih ⊢
      rw [List.range_succ, List.flatMap_append, List.flatMap_singleton, headerReads, hchain]
      simp only [Option.toList_none, List.flatMap_nil, List.append_nil]
      omega
    | some offset =>
      have hle := length_readsAt_le reader offset
      rw [readsBefore_succ hchain, List.length_append]
      omega

/-- Nothing went wrong in reading headers that were passed in vain. -/
theorem readsBefore_of_passed (h : Passed reader target first n) :
    ∀ o ∈ readsBefore reader first n, ∃ word, wordAt reader o = .ok word := by
  intro o ho
  obtain ⟨i, offset, hi, hchain, hmem⟩ := mem_readsBefore ho
  obtain ⟨header, hheader, -⟩ := h i hi
  obtain ⟨offset', hchain', hread⟩ := header?_eq_some.1 hheader
  cases hchain.symm.trans hchain'
  exact readsAt_of_ok hread o hmem

/-- The reads of a search go well, but for the last one where the search fails at a header. -/
theorem Ends.reads {result : Outcome Header} (h : Ends reader target first budget n result) :
    (∀ o ∈ readsBefore reader first n, ∃ word, wordAt reader o = .ok word) ∨
      ∃ failure before last, result = .error failure ∧
        readsBefore reader first n = before ++ [last] ∧ wordAt reader last = .error failure ∧
        ∀ o ∈ before, ∃ word, wordAt reader o = .ok word := by
  cases h with
  | @found n header hn hpassed hheader htarget =>
    obtain ⟨offset, hchain, hread⟩ := header?_eq_some.1 hheader
    refine .inl fun o ho => ?_
    rw [readsBefore_succ hchain] at ho
    rcases List.mem_append.1 ho with ho | ho
    · exact readsBefore_of_passed hpassed o ho
    · exact readsAt_of_ok hread o ho
  | @failed n failure hn hpassed hheader =>
    obtain ⟨offset, hchain, hread⟩ := header?_eq_some.1 hheader
    obtain ⟨before, last, hreads, hlast, hbefore⟩ := readsAt_of_error hread
    refine .inr ⟨failure, readsBefore reader first n ++ before, last, rfl, ?_, hlast, ?_⟩
    · rw [readsBefore_succ hchain, hreads, List.append_assoc]
    · exact List.forall_mem_append.2 ⟨readsBefore_of_passed hpassed, hbefore⟩
  | ended hn hpassed hchain => exact .inl (readsBefore_of_passed hpassed)
  | endless hpassed hchain => exact .inl (readsBefore_of_passed hpassed)

/-- Why a search fails. -/
theorem Ends.error_cases (h : Ends reader target first budget n (.error failure)) :
    (failure = .notFound ∧ n ≤ budget ∧ Passed reader target first n ∧
      chain reader first n = none) ∨
    (∃ last, (readsBefore reader first n).getLast? = some last ∧
      wordAt reader last = .error failure) ∨
    (failure = .protocol .chainTooLong ∧ Passed reader target first budget ∧
      ∃ offset, chain reader first budget = some offset) := by
  cases h with
  | @failed n _ hn hpassed hheader =>
    obtain ⟨offset, hchain, hread⟩ := header?_eq_some.1 hheader
    obtain ⟨before, last, hreads, hlast, -⟩ := readsAt_of_error hread
    refine .inr (.inl ⟨last, ?_, hlast⟩)
    rw [readsBefore_succ hchain, hreads, ← List.append_assoc, List.getLast?_concat]
  | ended hn hpassed hchain => exact .inl ⟨rfl, hn, hpassed, hchain⟩
  | endless hpassed hchain => exact .inr (.inr ⟨rfl, hpassed, _, hchain⟩)

/-! ## Cycles -/

/-- A chain that comes to a place a second time never ends. -/
theorem chain_of_cycle {i j : Nat} (hlt : i < j)
    (hsame : chain reader first i = chain reader first j) (hthere : chain reader first i ≠ none) :
    ∀ n, chain reader first n ≠ none := by
  have shift : ∀ k, chain reader first (i + k) = chain reader first (j + k) := by
    intro k
    induction k with
    | zero => exact hsame
    | succ k ih => exact congrArg (Option.bind · (nextAt reader)) ih
  have earlier : ∀ {n m : Nat}, n ≤ m → chain reader first m ≠ none →
      chain reader first n ≠ none := by
    intro n m hle hm
    induction hle with
    | refl => exact hm
    | @step m hle ih =>
      refine ih fun hnone => hm ?_
      show (chain reader first m).bind _ = none
      rw [hnone]
      rfl
  -- going round once more reaches any place
  have round : ∀ k, chain reader first (i + k * (j - i)) ≠ none := by
    intro k
    induction k with
    | zero =>
      rw [Nat.zero_mul]
      exact hthere
    | succ k ih =>
      rw [shift] at ih
      rw [Nat.succ_mul, show i + (k * (j - i) + (j - i)) = j + k * (j - i) by omega]
      exact ih
  intro n
  refine earlier (?_ : n ≤ i + n * (j - i)) (round n)
  have hle : n * 1 ≤ n * (j - i) := Nat.mul_le_mul_left n (by omega)
  omega

/-- A chain without an end can be read throughout. -/
theorem passed_of_endless (hendless : ∀ n, chain reader first n ≠ none)
    (hother : ∀ n header, header? reader first n = some (.ok header) →
      header.isTarget target = false) (n : Nat) : Passed reader target first n := by
  intro i _
  obtain ⟨offset, hchain⟩ := Option.ne_none_iff_exists'.1 (hendless i)
  cases hread : headerAt reader offset with
  | ok header =>
    have hheader := header?_eq_some.2 ⟨offset, hchain, hread⟩
    exact ⟨header, hheader, hother i header hheader⟩
  | error failure =>
    refine absurd ?_ (hendless (i + 1))
    show (chain reader first i).bind _ = none
    rw [hchain, Option.bind_some, nextAt, hread]

/-! ## The search for a capability -/

/-- **What a search along the chain from `start` does, over any reader.** -/
theorem find_along_chain (reader : Nat → Reply) (start : Nat) (target : Target) :
    let first := follow start 0xff
    let reads := (find start target).requests reader
    let result := (find start target).result reader
    -- at most 64 headers are read, in at most 128 reads inside the space or one past it
    (∃ n ≤ 64, reads = readsBefore reader first n) ∧ reads.length ≤ 128 ∧
    (∀ offset ∈ reads, offset ≤ 0x2000) ∧
    -- no read follows one that failed
    (∀ offset ∈ reads.dropLast, ∃ word, wordAt reader offset = .ok word) ∧
    (∀ header, result = .ok header ↔ ∃ n < 64, Passed reader target first n ∧
      header? reader first n = some (.ok header) ∧ header.isTarget target = true) ∧
    (∀ failure, result = .error failure ↔
      (failure = .notFound ∧ ∃ n ≤ 64, Passed reader target first n ∧
        chain reader first n = none) ∨
      (∃ offset, reads.getLast? = some offset ∧ wordAt reader offset = .error failure) ∨
      (failure = .protocol .chainTooLong ∧ Passed reader target first 64 ∧
        ∃ offset, chain reader first 64 = some offset)) ∧
    (∀ i j, i < j → chain reader first i = chain reader first j → chain reader first i ≠ none →
      (∀ n header, header? reader first n = some (.ok header) → header.isTarget target = false) →
      result = .error (.protocol .chainTooLong)) := by
  intro first reads result
  have hfirst : ∀ offset, first = some offset → offset ≤ 0x1fff :=
    fun offset h => Nat.le_trans (follow_le h) (by decide)
  have hfind : find start target = seek target 64 first := search_eq_seek target 64 start 0xff
  -- however the search ends, that is its result
  have comes {n : Nat} {last : Outcome Header} (h : Ends reader target first 64 n last) :
      n ≤ 64 ∧ result = last ∧ reads = readsBefore reader first n := by
    obtain ⟨hn, hresult, hreads⟩ := h.seek hfirst
    refine ⟨hn, ?_, ?_⟩
    · rw [← hresult, ← hfind]
    · rw [← hreads, ← hfind]
  obtain ⟨n, last, hends⟩ := exists_ends reader target first 64
  obtain ⟨hn, hresult, hreads⟩ := comes hends
  refine ⟨⟨n, hn, hreads⟩, ?_, fun offset hmem => ?_, ?_, fun header => ⟨fun h => ?_, ?_⟩,
    fun failure => ⟨fun h => ?_, ?_⟩, fun i j hlt hsame hthere hother => ?_⟩
  · rw [hreads]
    exact Nat.le_trans (length_readsBefore_le reader first n) (by omega)
  · rw [hreads] at hmem
    obtain ⟨i, place, -, hchain, hmem⟩ := mem_readsBefore hmem
    have hle := mem_readsAt_le hmem
    have hinside := chain_le hfirst hchain
    omega
  · rw [hreads]
    rcases hends.reads with hgood | ⟨failure, before, place, -, hlast, -, hbefore⟩
    · exact fun offset hmem => hgood offset (List.dropLast_subset _ hmem)
    · rw [hlast, List.dropLast_concat]
      exact hbefore
  · rw [hresult] at h
    subst h
    cases hends with
    | @found n _ hlt hpassed hheader htarget => exact ⟨n, hlt, hpassed, hheader, htarget⟩
  · rintro ⟨n, hlt, hpassed, hheader, htarget⟩
    exact (comes (.found hlt hpassed hheader htarget)).2.1
  · rw [hresult] at h
    subst h
    rw [hreads]
    exact hends.error_cases.imp_left fun ⟨hnot, hle, hpassed, hchain⟩ =>
      ⟨hnot, n, hle, hpassed, hchain⟩
  · rintro (⟨rfl, n, hle, hpassed, hchain⟩ | ⟨offset, hoffset, hword⟩ |
      ⟨rfl, hpassed, offset, hchain⟩)
    · exact (comes (.ended hle hpassed hchain)).2.1
    · rw [hreads] at hoffset
      rcases hends.reads with hgood | ⟨failure', before, place, rfl, hlast, hfail, -⟩
      · obtain ⟨word, hok⟩ := hgood offset (List.mem_of_getLast? hoffset)
        cases hword.symm.trans hok
      · rw [hlast, List.getLast?_concat] at hoffset
        cases hoffset
        cases hword.symm.trans hfail
        exact hresult
    · exact (comes (.endless hpassed hchain)).2.1
  · have hendless := chain_of_cycle hlt hsame hthere
    obtain ⟨offset, hchain⟩ := Option.ne_none_iff_exists'.1 (hendless 64)
    exact (comes (.endless (passed_of_endless hendless hother 64) hchain)).2.1

/-- Two long headers that lead to each other, the second one at the very end of the space. -/
def loop (offset : Nat) : Reply :=
  .ok [match offset with
    | 0x10 => CapabilityWord.pack 0 CapabilityWord.vendorSpecific 6 0
    | 0x11 => CapabilityWord.packLong 0x1fff 2
    | 0x1fff => CapabilityWord.pack 0 CapabilityWord.vendorSpecific 7 0
    | 0x2000 => CapabilityWord.packLong 0x10 2
    | _ => 0]

/-- A search goes round a loop until it has read 64 headers. -/
theorem find_in_loop : chain loop (follow 0x10 0xff) 0 = chain loop (follow 0x10 0xff) 2 ∧
    (find 0x10 (.basic CapabilityWord.timeManagement)).result loop =
      .error (.protocol .chainTooLong) := by
  have places : ∀ n, chain loop (follow 0x10 0xff) n = some 0x10 ∨
      chain loop (follow 0x10 0xff) n = some 0x1fff := by
    intro n
    induction n with
    | zero => exact .inl rfl
    | succ n ih =>
      rcases ih with h | h
      · refine .inr ?_
        rw [chain, h]
        decide
      · refine .inl ?_
        rw [chain, h]
        decide
  have hsame : chain loop (follow 0x10 0xff) 0 = chain loop (follow 0x10 0xff) 2 := by decide
  obtain ⟨-, -, -, -, -, -, hcycle⟩ := find_along_chain loop 0x10 (.basic 3)
  refine ⟨hsame, hcycle 0 2 (by decide) hsame (by decide) fun n header hheader => ?_⟩
  obtain ⟨offset, hchain, hread⟩ := header?_eq_some.1 hheader
  rcases places n with h | h
  · cases h.symm.trans hchain
    have hfirst : (headerAt loop 0x10).toOption.any (·.isTarget (.basic 3)) = false := by decide
    rw [hread] at hfirst
    exact hfirst
  · cases h.symm.trans hchain
    have hsecond : (headerAt loop 0x1fff).toOption.any (·.isTarget (.basic 3)) = false := by decide
    rw [hread] at hsecond
    exact hsecond

end Capability

end RouterFabric
