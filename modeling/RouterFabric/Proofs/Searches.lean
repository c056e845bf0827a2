import RouterFabric.Proofs.Chains
import RouterFabric.Proofs.Requests

/-!
# Searches over arbitrary registers

What stands in the config spaces of a router may be anything. A search reads it word by word and
ends with what it has found, or with the failure of the read that failed. A read fails only where it
asks for what no space has, and the bounds of the pointers keep nearly all reads inside: what is
left is the second word of a long header that stands in the last word of its space, and the unique
id of a link controller that stands too far back.

* `Contents` : the words of all config spaces, and what comes of a request
* `Contents.find_cases` : the results of a search
* `Operation.Overruns` : what leads a search past the end of a space
* `Operation.result_spec` : how the searches end over any contents
-/

namespace RouterFabric

open Capability

/-- The words of the config spaces of a router and of its adapters. -/
abbrev Contents := Space → Nat → Nat → UInt32

/-- A result that does not blame the caller: something found, nothing found, or a far end that
breaks the rules. -/
def Outcome.Fair {α : Type} (result : Outcome α) : Prop :=
  (∃ a, result = .ok a) ∨ result = .error .notFound ∨ ∃ fault, result = .error (.protocol fault)

/-- A failure that blames the caller for an argument. -/
def Outcome.Blames {α : Type} (result : Outcome α) : Prop :=
  ∃ fault, result = .error (.invalidArgument fault)

namespace Outcome

variable {α β : Type} {result : Outcome α}

theorem Fair.map (h : result.Fair) (f : α → β) : Outcome.Fair (result.map f) := by
  rcases h with ⟨a, rfl⟩ | rfl | ⟨fault, rfl⟩
  · exact .inl ⟨f a, rfl⟩
  · exact .inr (.inl rfl)
  · exact .inr (.inr ⟨fault, rfl⟩)

theorem Blames.map (h : result.Blames) (f : α → β) : Outcome.Blames (result.map f) := by
  obtain ⟨fault, rfl⟩ := h
  exact ⟨fault, rfl⟩

end Outcome

namespace Contents

variable {words : Contents} {space : Space} {adapter start offset : Nat} {target : Target}
  {header : Header}

/-! ## Requests -/

/-- The words at an address. -/
def wordsAt (words : Contents) (address : Address) : List UInt32 :=
  (List.range address.dwords).map fun i => words address.space address.adapter (address.offset + i)

theorem length_wordsAt (words : Contents) (address : Address) :
    (words.wordsAt address).length = address.dwords := by
  rw [wordsAt, List.length_map, List.length_range]

/-- What comes of a transfer: the words it reads, and none if it writes. -/
def answer (words : Contents) (t : Transfer) : Reply :=
  t.address.map fun address =>
    match t.kind with
    | .read => words.wordsAt address
    | .write => []

/-- What comes of a request. -/
def reply (words : Contents) : Request → Reply
  | .transfer t _ => words.answer t
  | _ => .ok []

/-- One space, a word at a time. -/
def reader (words : Contents) (space : Space) (adapter offset : Nat) : Reply :=
  words.reply (Procedure.readSpace space adapter offset)

/-- The offset that is one too high. -/
def pastEnd : Nat := Limit.maxOffset + 1

theorem answer_read (hadapter : adapter ≤ Limit.maxAdapter) {dwords : Nat} (hpos : 0 < dwords)
    (hmost : dwords ≤ Limit.maxDwords) (hend : offset + dwords ≤ pastEnd) :
    words.answer (.read space adapter offset dwords) =
      .ok (words.wordsAt ⟨space, adapter, offset, dwords, 0⟩) := by
  have hmake : Address.make space adapter offset dwords =
      .ok ⟨space, adapter, offset, dwords, 0⟩ := by
    unfold pastEnd at hend
    unfold Address.make
    rw [if_neg (by omega), if_neg (by omega), if_neg (by omega), if_neg (by omega)]
  unfold answer Transfer.address
  simp only [hmake]
  rfl

theorem answer_past {dwords : Nat} (hadapter : adapter ≤ Limit.maxAdapter) (hpos : 0 < dwords)
    (hmost : dwords ≤ Limit.maxDwords) (hend : pastEnd < offset + dwords) :
    Outcome.Blames (words.answer (.read space adapter offset dwords)) := by
  unfold pastEnd at hend
  unfold answer Transfer.address Address.make
  simp only
  rw [if_neg (by omega)]
  by_cases hoffset : Limit.maxOffset < offset
  · rw [if_pos hoffset]
    exact ⟨_, rfl⟩
  · rw [if_neg hoffset, if_neg (by omega), if_pos hend]
    exact ⟨_, rfl⟩

/-- A read gives as many words as it asks for. -/
theorem length_of_answer {dwords : Nat} {given : List UInt32}
    (h : words.answer (.read space adapter offset dwords) = .ok given) :
    given.length = dwords := by
  unfold answer Transfer.address at h
  cases hmake : Address.make space adapter offset dwords with
  | error failure =>
    simp only [hmake] at h
    cases h
  | ok address =>
    simp only [hmake] at h
    cases h
    obtain ⟨rfl, -⟩ := Address.of_make hmake
    exact words.length_wordsAt _

section reader

variable (hadapter : adapter ≤ Limit.maxAdapter)

include hadapter

theorem wordAt_inside (hoffset : offset ≤ Limit.maxOffset) :
    wordAt (words.reader space adapter) offset = .ok (words space adapter offset) := by
  have hread : words.reader space adapter offset = .ok [words space adapter offset] :=
    answer_read hadapter (Nat.lt_succ_self 0) (by decide) (Nat.succ_le_succ hoffset)
  unfold wordAt
  rw [hread]
  rfl

theorem wordAt_past :
    wordAt (words.reader space adapter) pastEnd =
      .error (.invalidArgument (.offsetTooHigh pastEnd)) := by
  have hread : words.reader space adapter pastEnd =
      .error (.invalidArgument (.offsetTooHigh pastEnd)) := by
    show Except.map _ (Address.make space adapter pastEnd 1) = _
    unfold Address.make
    rw [if_neg (by omega), if_pos (by decide)]
    rfl
  unfold wordAt
  rw [hread]
  rfl

/-- The second word of a long header in the last word of a space is asked for in vain. -/
theorem headerAt_last (hlong : isLong (words space adapter Limit.maxOffset) = true) :
    headerAt (words.reader space adapter) Limit.maxOffset =
      .error (.invalidArgument (.offsetTooHigh pastEnd)) := by
  unfold headerAt
  rw [wordAt_inside hadapter (Nat.le_refl _)]
  show headerFrom _ _ _ = _
  unfold headerFrom
  rw [if_pos hlong]
  show Except.map _ (wordAt (words.reader space adapter) pastEnd) = _
  rw [wordAt_past hadapter]
  rfl

/-- Any other header inside a space can be read. -/
theorem headerAt_inside (hoffset : offset ≤ Limit.maxOffset)
    (hother : ¬ (offset = Limit.maxOffset ∧ isLong (words space adapter offset) = true)) :
    ∃ header, headerAt (words.reader space adapter) offset = .ok header := by
  unfold headerAt
  rw [wordAt_inside hadapter hoffset]
  show ∃ header, headerFrom _ _ _ = _
  unfold headerFrom
  cases hlong : isLong (words space adapter offset) with
  | false => exact ⟨_, rfl⟩
  | true =>
    have hlt : offset < Limit.maxOffset :=
      Nat.lt_of_le_of_ne hoffset fun heq => hother ⟨heq, hlong⟩
    rw [if_pos rfl, wordAt_inside hadapter hlt]
    exact ⟨_, rfl⟩

end reader

/-! ## Searches -/

/-- A search comes to a long header in the last word of the space. -/
def Overruns (words : Contents) (space : Space) (adapter start : Nat) (target : Target) : Prop :=
  ∃ n < Limit.maxHeaders, Passed (words.reader space adapter) target (follow start 0xff) n ∧
    chain (words.reader space adapter) (follow start 0xff) n = some Limit.maxOffset ∧
    isLong (words space adapter Limit.maxOffset) = true

/-- A search comes to this header, which is its target. -/
def Finds (words : Contents) (space : Space) (adapter start : Nat) (target : Target)
    (header : Header) : Prop :=
  ∃ n < Limit.maxHeaders, Passed (words.reader space adapter) target (follow start 0xff) n ∧
    header? (words.reader space adapter) (follow start 0xff) n = some (.ok header) ∧
    header.isTarget target = true

/-- What a search comes to. -/
def found (words : Contents) (space : Space) (adapter start : Nat) (target : Target) :
    Outcome Header :=
  (find start target).result (words.reader space adapter)

theorem first_le (start : Nat) : ∀ offset, follow start 0xff = some offset →
    offset ≤ Limit.maxOffset :=
  fun _ h => Nat.le_trans (follow_le h) (by decide)

/-- However a search ends, that is its result. -/
theorem found_of_ends {n : Nat} {last : Outcome Header}
    (h : Ends (words.reader space adapter) target (follow start 0xff) Limit.maxHeaders n last) :
    words.found space adapter start target = last := by
  obtain ⟨-, hresult, -⟩ := h.seek (first_le start)
  unfold found find
  rw [search_eq_seek]
  exact hresult

theorem Finds.found (h : words.Finds space adapter start target header) :
    words.found space adapter start target = .ok header := by
  obtain ⟨n, hn, hpassed, hheader, htarget⟩ := h
  exact found_of_ends (.found hn hpassed hheader htarget)

section search

variable (hadapter : adapter ≤ Limit.maxAdapter)

include hadapter

theorem Overruns.found (h : words.Overruns space adapter start target) :
    words.found space adapter start target =
      .error (.invalidArgument (.offsetTooHigh pastEnd)) := by
  obtain ⟨n, hn, hpassed, hchain, hlong⟩ := h
  exact found_of_ends (.failed hn hpassed
    (header?_eq_some.2 ⟨_, hchain, headerAt_last hadapter hlong⟩))

/-- **A search over arbitrary contents** finds a header, comes to the end of the chain, takes the
chain for a cycle, or is led past the end of the space. -/
theorem find_cases (start : Nat) (target : Target) :
    words.Overruns space adapter start target ∨
      (∃ header, words.Finds space adapter start target header) ∨
      words.found space adapter start target = .error .notFound ∨
      words.found space adapter start target = .error (.protocol .chainTooLong) := by
  obtain ⟨n, last, hends⟩ :=
    exists_ends (words.reader space adapter) target (follow start 0xff) Limit.maxHeaders
  have hfound := found_of_ends hends
  cases hends with
  | found hn hpassed hheader htarget =>
    exact .inr (.inl ⟨_, _, hn, hpassed, hheader, htarget⟩)
  | @failed n failure hn hpassed hheader =>
    obtain ⟨offset, hchain, hread⟩ := header?_eq_some.1 hheader
    by_cases hlast : offset = Limit.maxOffset ∧ isLong (words space adapter offset) = true
    · obtain ⟨rfl, hlong⟩ := hlast
      exact .inl ⟨n, hn, hpassed, hchain, hlong⟩
    · obtain ⟨header, hok⟩ :=
        headerAt_inside hadapter (chain_le (first_le start) hchain) hlast
      cases hread.symm.trans hok
  | ended hn hpassed hchain => exact .inr (.inr (.inl hfound))
  | endless hpassed hchain => exact .inr (.inr (.inr hfound))

theorem Overruns.blames (h : words.Overruns space adapter start target) :
    (words.found space adapter start target).Blames :=
  ⟨_, h.found hadapter⟩

theorem found_fair (h : ¬ words.Overruns space adapter start target) :
    (words.found space adapter start target).Fair := by
  rcases find_cases hadapter start target with hover | ⟨header, hfinds⟩ | hnot | hlong
  · exact absurd hover h
  · exact .inl ⟨header, hfinds.found⟩
  · exact .inr (.inl hnot)
  · exact .inr (.inr ⟨_, hlong⟩)

end search

end Contents

/-! ## Operations -/

namespace Contents

variable {words : Contents} {target : Target}

/-- Where the chain of a router begins. -/
def routerStart (words : Contents) : Nat :=
  BasicRegisters.nextCapField.get (words .router 0 Register.routerCs1).toNat

/-- Where the chain of an adapter begins. -/
def adapterStart (words : Contents) (adapter : Nat) : Nat :=
  CapabilityWord.nextField.get (words .adapter adapter Register.adapterCs1).toNat

theorem result_request (request : Request) :
    (Program.request request).result words.reply = words.reply request := rfl

theorem result_ofOutcome {α : Type} (result : Outcome α) :
    (Program.ofOutcome (ρ := Request) result).result words.reply = result := rfl

theorem result_search (space : Space) (adapter start : Nat) (target : Target) :
    ((find start target).mapRequests (Procedure.readSpace space adapter)).result words.reply =
      words.found space adapter start target :=
  Program.result_mapRequests _ _ _

/-- A search of a router is one of its space, from the pointer in its registers on. -/
theorem result_routerCapability (words : Contents) (target : Target) :
    (Procedure.routerCapability target).result words.reply =
      (words.found .router 0 words.routerStart target).map (·.offset) := by
  have hread : words.reply (.transfer (.read .router 0 Register.routerCs1 1) (.waiting .woken)) =
      .ok [words .router 0 Register.routerCs1] :=
    answer_read (Nat.zero_le _) (Nat.lt_succ_self 0) (by decide) (by decide)
  unfold Procedure.routerCapability Procedure.readRouter Procedure.transfer
  rw [Program.result_bind, result_request, hread]
  show (do
    let cs1 ← Program.ofOutcome (firstWord Register.routerCs1 [words .router 0 Register.routerCs1])
    let header ← (find (BasicRegisters.nextCapField.get cs1.toNat) target).mapRequests
      (Procedure.readSpace .router 0)
    return header.offset).result words.reply = _
  rw [Program.result_bind, result_ofOutcome]
  show ((find words.routerStart target).mapRequests (Procedure.readSpace .router 0) >>=
    fun header => pure header.offset).result words.reply = _
  rw [Program.result_bind, result_search]
  cases words.found .router 0 words.routerStart target <;> rfl

/-- A search of an adapter is one of its space, unless the router does not have the adapter. -/
theorem result_adapterCapability {identity : Option Identity} {adapter : Nat}
    (hcheck : Procedure.checkAdapter identity adapter = .ok ())
    (hadapter : adapter ≤ Limit.maxAdapter) (id : Nat) :
    (Procedure.adapterCapability identity adapter id).result words.reply =
      (words.found .adapter adapter (words.adapterStart adapter) (.basic id)).map (·.offset) := by
  have hread : words.reply (.transfer (.read .adapter adapter 0 Register.adapterBasicDwords)
      (.waiting .woken)) = .ok [words .adapter adapter 0, words .adapter adapter 1] :=
    answer_read hadapter (by decide) (by decide) (by decide)
  unfold Procedure.adapterCapability Procedure.transfer
  rw [Program.result_bind, result_ofOutcome, hcheck]
  show (Program.request _ >>= fun words' => Program.ofOutcome
    (Procedure.adapterWord adapter words') >>= fun cs1 => (find _ _).mapRequests _ >>=
      fun header => pure header.offset).result words.reply = _
  rw [Program.result_bind, result_request, hread]
  show ((find (words.adapterStart adapter) (.basic id)).mapRequests
    (Procedure.readSpace .adapter adapter) >>= fun header =>
      pure header.offset).result words.reply = _
  rw [Program.result_bind, result_search]
  cases words.found .adapter adapter (words.adapterStart adapter) (.basic id) <;> rfl

/-- The unique id is read behind the header of the link controller. -/
theorem result_linkControllerUuid {identity : Option Identity} {vendor : Nat}
    (hvendor : Procedure.linkController identity = .ok vendor) :
    (Procedure.linkControllerUuid identity).result words.reply =
      words.found .router 0 words.routerStart (.long vendor) >>= fun header =>
        words.answer (.read .router 0 (header.offset + CapabilityWord.linkControllerUuid)
          CapabilityWord.linkControllerUuidDwords) := by
  unfold Procedure.linkControllerUuid
  rw [Program.result_bind, result_ofOutcome, hvendor]
  show (Procedure.routerCapability (.long vendor) >>= fun base =>
    Procedure.readRouter (base + CapabilityWord.linkControllerUuid)
      CapabilityWord.linkControllerUuidDwords >>= fun uuid =>
        if uuid.length = CapabilityWord.linkControllerUuidDwords then pure uuid
        else .fail (.protocol (.uuidLength CapabilityWord.linkControllerUuidDwords
          uuid.length))).result words.reply = _
  rw [Program.result_bind, result_routerCapability]
  cases words.found .router 0 words.routerStart (.long vendor) with
  | error failure => rfl
  | ok header =>
    show (Procedure.readRouter _ _ >>= _).result words.reply = words.answer _
    rw [Program.result_bind]
    show words.answer _ >>= _ = words.answer _
    cases hanswer : words.answer (.read .router 0
        (header.offset + CapabilityWord.linkControllerUuid)
        CapabilityWord.linkControllerUuidDwords) with
    | error failure => rfl
    | ok uuid =>
      show (if uuid.length = CapabilityWord.linkControllerUuidDwords then pure uuid
        else .fail (.protocol (.uuidLength CapabilityWord.linkControllerUuidDwords
          uuid.length)) : Program Request (List UInt32)).result words.reply = .ok uuid
      rw [if_pos (length_of_answer hanswer)]
      rfl

/-- A router that is not known to have a link controller is not asked for its id. -/
theorem result_linkControllerUuid_none {identity : Option Identity} {failure : Failure}
    (hnone : Procedure.linkController identity = .error failure) :
    (Procedure.linkControllerUuid identity).result words.reply = .error .notFound := by
  obtain rfl : failure = .notFound := by
    unfold Procedure.linkController at hnone
    split at hnone
    · cases hnone
    · exact (Except.error.inj hnone).symm
  unfold Procedure.linkControllerUuid
  rw [Program.result_bind, result_ofOutcome, hnone]
  rfl

section uuid

variable {identity : Option Identity} {vendor : Nat}
  (hvendor : Procedure.linkController identity = .ok vendor)

include hvendor

theorem uuid_fair (hstays : ¬ words.Overruns .router 0 words.routerStart (.long vendor))
    (hinside : ∀ header, words.Finds .router 0 words.routerStart (.long vendor) header →
      header.offset + CapabilityWord.linkControllerUuid +
        CapabilityWord.linkControllerUuidDwords ≤ pastEnd) :
    ((Procedure.linkControllerUuid identity).result words.reply).Fair := by
  rw [result_linkControllerUuid hvendor]
  rcases find_cases (Nat.zero_le _) words.routerStart (.long vendor) with
    hover | ⟨header, hfinds⟩ | hnot | hlong
  · exact absurd hover hstays
  · rw [hfinds.found]
    exact .inl ⟨_, answer_read (Nat.zero_le _) (by decide) (by decide) (hinside header hfinds)⟩
  · rw [hnot]
    exact .inr (.inl rfl)
  · rw [hlong]
    exact .inr (.inr ⟨_, rfl⟩)

theorem uuid_blames (h : words.Overruns .router 0 words.routerStart (.long vendor) ∨
    ∃ header, words.Finds .router 0 words.routerStart (.long vendor) header ∧
      pastEnd < header.offset + CapabilityWord.linkControllerUuid +
        CapabilityWord.linkControllerUuidDwords) :
    ((Procedure.linkControllerUuid identity).result words.reply).Blames := by
  rw [result_linkControllerUuid hvendor]
  rcases h with hover | ⟨header, hfinds, hend⟩
  · rw [hover.found (Nat.zero_le _)]
    exact ⟨_, rfl⟩
  · rw [hfinds.found]
    exact answer_past (Nat.zero_le _) (by decide) (by decide) hend

end uuid

end Contents

namespace Operation

variable {words : Contents} {settings : Settings} {router : Router} {operation : Operation}

/-- The searches, of adapters that the router is known to have. -/
def Searches (router : Router) : Operation → Prop
  | .findCapability _ => True
  | .findAdapterCapability adapter _ =>
    ∃ identity, router.identity = some identity ∧ 0 < adapter ∧ adapter ≤ identity.maxAdapter
  | .linkControllerUuid => True
  | _ => False

/-- The registers lead the search past the end of a space: its chain to a long header in the last
word, or the unique id behind the header of the link controller. -/
def Overruns (words : Contents) (router : Router) : Operation → Prop
  | .findCapability target => words.Overruns .router 0 words.routerStart target
  | .findAdapterCapability adapter id =>
    words.Overruns .adapter adapter (words.adapterStart adapter) (.basic id)
  | .linkControllerUuid => ∃ vendor, Procedure.linkController router.identity = .ok vendor ∧
    (words.Overruns .router 0 words.routerStart (.long vendor) ∨
      ∃ header, words.Finds .router 0 words.routerStart (.long vendor) header ∧
        Contents.pastEnd < header.offset + CapabilityWord.linkControllerUuid +
          CapabilityWord.linkControllerUuidDwords)
  | _ => False

/-- What the operation comes to over the contents of the config spaces. -/
def comesTo (operation : Operation) (settings : Settings) (router : Router) (words : Contents) :
    Outcome Answer :=
  (operation.program settings router).result words.reply

/-- **The searches over arbitrary contents.** Unless the registers lead it past the end of a space,
a search finds something, finds nothing, or reports that the far end breaks the rules; otherwise it
blames its caller. -/
theorem result_spec (hsearch : operation.Searches router)
    (hmost : ∀ identity, router.identity = some identity →
      identity.maxAdapter ≤ Limit.maxAdapter) (settings : Settings) (words : Contents) :
    (¬ operation.Overruns words router → (operation.comesTo settings router words).Fair) ∧
      (operation.Overruns words router → (operation.comesTo settings router words).Blames) := by
  have run {α : Type} (p : Program Request α) (f : α → Answer) :
      (p >>= fun a => pure (f a)).result words.reply = (p.result words.reply).map f := by
    rw [Program.result_bind]
    cases p.result words.reply <;> rfl
  cases operation with
  | transfer | suspend => exact hsearch.elim
  | findCapability target =>
    have hcomes : (findCapability target).comesTo settings router words =
        ((words.found .router 0 words.routerStart target).map (·.offset)).map Answer.offset :=
      (run _ _).trans (congrArg _ (Contents.result_routerCapability words target))
    rw [hcomes]
    exact ⟨fun h => ((Contents.found_fair (Nat.zero_le _) h).map _).map _,
      fun h => ((Contents.Overruns.blames (Nat.zero_le _) h).map _).map _⟩
  | findAdapterCapability adapter id =>
    obtain ⟨identity, hidentity, hpos, hle⟩ := hsearch
    have hcheck : Procedure.checkAdapter router.identity adapter = .ok () := by
      rw [hidentity]
      exact if_neg (by omega)
    have hadapter : adapter ≤ Limit.maxAdapter := Nat.le_trans hle (hmost identity hidentity)
    have hcomes : (findAdapterCapability adapter id).comesTo settings router words =
        ((words.found .adapter adapter (words.adapterStart adapter) (.basic id)).map
          (·.offset)).map Answer.offset :=
      (run _ _).trans (congrArg _ (Contents.result_adapterCapability hcheck hadapter id))
    rw [hcomes]
    exact ⟨fun h => ((Contents.found_fair hadapter h).map _).map _,
      fun h => ((Contents.Overruns.blames hadapter h).map _).map _⟩
  | linkControllerUuid =>
    have hcomes : linkControllerUuid.comesTo settings router words =
        ((Procedure.linkControllerUuid router.identity).result words.reply).map Answer.words :=
      run _ _
    rw [hcomes]
    cases hvendor : Procedure.linkController router.identity with
    | error failure =>
      rw [Contents.result_linkControllerUuid_none hvendor]
      refine ⟨fun _ => .inr (.inl rfl), ?_⟩
      rintro ⟨vendor, hv, -⟩
      cases hvendor.symm.trans hv
    | ok vendor =>
      refine ⟨fun h => Outcome.Fair.map (Contents.uuid_fair hvendor (fun hv => ?_)
        fun header hfinds => ?_) _, ?_⟩
      · exact h ⟨vendor, hvendor, .inl hv⟩
      · exact Nat.le_of_not_lt fun hlt => h ⟨vendor, hvendor, .inr ⟨header, hfinds, hlt⟩⟩
      · rintro ⟨vendor', hvendor', hoverruns⟩
        cases hvendor.symm.trans hvendor'
        exact Outcome.Blames.map (Contents.uuid_blames hvendor hoverruns) _

end Operation

end RouterFabric
