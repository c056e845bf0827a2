import RouterFabric.Proofs.Dialogues

/-!
# What putting a router to sleep takes

The program that puts a router to sleep reads the control register, writes it with the bits for
sleep in place, and then looks at the sleep status, with a pause before each look, until a look
finds the router asleep or the looks are used up. How far it has come is known from what it has been
told, whatever the replies are; from that follow what it asks for and when, and the result it ends
with.

* `SleepControl.testBit_request`, `SleepControl.reported_cons` : what is written and what is looked
  for, bit by bit
* `Looks`, `Retires` : how far the program has come, over any replies
* `Settles`, `Retires.settles`, `Retires.settled` : the result that the replies settle
* `Bedtime`, `Retires.bedtime` : what is asked for, how often and after what
-/

namespace RouterFabric

open Procedure

/-! ## Requests -/

/-- A look at the control register. -/
def Procedure.controlRead : Request :=
  .transfer (.read .router 0 Register.routerCs5 1) (.waiting .woken)

/-- A write of the control register. -/
def Procedure.controlWrite (word : UInt32) : Request :=
  .transfer (.write .router 0 Register.routerCs5 [word]) (.waiting .woken)

/-- A look at the sleep status. -/
def Procedure.statusRead : Request :=
  .transfer (.read .router 0 Register.routerCs6 1) (.waiting .woken)

def Request.isWrite : Request → Bool
  | .transfer (.write ..) _ => true
  | _ => false

/-- Whether the words of a look at the sleep status say that the router is asleep. -/
def SleepControl.reported (words : List UInt32) : Bool :=
  words.head?.any SleepControl.isReady

/-! ## The words -/

/-- A router is asleep if the lowest bit of the first word is set. -/
theorem SleepControl.reported_cons (word : UInt32) (others : List UInt32) :
    SleepControl.reported (word :: others) = word.toNat.testBit 0 := by
  show (BitField.get SleepControl.readyField word.toNat == 1) = word.toNat.testBit 0
  rw [Nat.testBit_zero, BitField.get, SleepControl.readyField, BitField.span]
  rfl

/-- What is written has sleep and the wake on USB set, the other wakes clear, and all else kept. -/
theorem SleepControl.testBit_request (control : UInt32) (i : Nat) :
    (SleepControl.request control).toNat.testBit i =
      if i = 0 ∨ i = 2 then true else if i = 1 ∨ i = 3 then false else control.toNat.testBit i := by
  have hlt := control.toNat_lt
  have hword : (SleepControl.request control).toNat = (control.toNat >>> 4) <<< 4 ||| 5 := by
    rw [← Nat.shiftLeft_add_eq_or_of_lt (by decide : 5 < 2 ^ 4)]
    simp only [SleepControl.request, UInt32.toNat_ofNat', BitField.keep, BitField.put,
      BitField.get, BitField.span, SleepControl.otherField, SleepControl.sleepField,
      SleepControl.wakeOnPcieField, SleepControl.wakeOnUsbField, SleepControl.wakeOnDisplayField,
      Nat.shiftRight_eq_div_pow, Nat.shiftLeft_eq]
    omega
  rw [hword, Nat.testBit_or, Nat.testBit_shiftLeft, Nat.testBit_shiftRight]
  by_cases hi : i < 4
  · have hfew : i = 0 ∨ i = 1 ∨ i = 2 ∨ i = 3 := by omega
    rcases hfew with rfl | rfl | rfl | rfl <;> simp <;> decide
  · have hfive : (5 : Nat).testBit i = false :=
      Nat.testBit_lt_two_pow (Nat.lt_of_lt_of_le (by decide : 5 < 2 ^ 4)
        (Nat.pow_le_pow_right (by decide) (Nat.le_of_not_lt hi)))
    rw [hfive, if_neg (by omega), if_neg (by omega), Nat.add_sub_cancel' (by omega)]
    simp [Nat.le_of_not_lt hi]

/-! ## Programs -/

namespace Program

variable {α β γ : Type} {q : Program Request Answer} {request : Request}
  {exchanges : List (Request × Reply)}

/-- What a program does next: it asks for something, or is done. -/
def head : Program Request Answer → Request ⊕ Outcome Answer
  | .done result => .inr result
  | .ask request _ => .inl request

theorem bind_bind (p : Program Request α) (f : α → Program Request β)
    (g : β → Program Request γ) : p >>= f >>= g = p >>= fun a => f a >>= g := by
  induction p with
  | done result => cases result <;> rfl
  | ask request next ih => exact congrArg (Program.ask request) (funext ih)

/-- How far a program has come that begins with a request. -/
inductive Opening (request : Request) (f : List UInt32 → Program Request Answer)
    (q : Program Request Answer) : List (Request × Reply) → Prop
  | asking : q.head = .inl request → Opening request f q []
  | failed {failure : Failure} : request.isCertain = false → q.head = .inr (.error failure) →
      Opening request f q [(request, .error failure)]
  | told {words : List UInt32} {rest : List (Request × Reply)} :
      (request.isCertain = true → words = []) → (f words).Comes rest q →
      Opening request f q ((request, .ok words) :: rest)

theorem Comes.opening {f : List UInt32 → Program Request Answer}
    (h : (Program.request request >>= f).Comes exchanges q) : Opening request f q exchanges := by
  cases h with
  | here => exact .asking rfl
  | @told _ _ reply rest _ hcertain hrest =>
    cases reply with
    | ok words => exact .told (fun h => Except.ok.inj (hcertain h)) hrest
    | error failure =>
      cases hrest
      refine .failed (Bool.eq_false_iff.2 fun h => ?_) rfl
      cases hcertain h

theorem Comes.of_done {result : Outcome Answer} (h : (Program.done result).Comes exchanges q) :
    exchanges = [] ∧ q.head = .inr result := by
  cases h
  exact ⟨rfl, rfl⟩

end Program

variable {settings : Settings} {router : Router} {waitMs more : Nat} {words : List UInt32}
  {q : Program Request Answer} {exchanges : List (Request × Reply)}
  {next : Request ⊕ Outcome Answer}

/-- How far the looks at the sleep status have come, with `more` looks after the first one. -/
inductive Looks (waitMs : Nat) : Nat → List (Request × Reply) → Request ⊕ Outcome Answer → Prop
  | pausing {more : Nat} : Looks waitMs more [] (.inl (.pause waitMs))
  | looking {more : Nat} : Looks waitMs more [(.pause waitMs, .ok [])] (.inl statusRead)
  | failed {more : Nat} {failure : Failure} :
      Looks waitMs more [(.pause waitMs, .ok []), (statusRead, .error failure)]
        (.inr (.error failure))
  | ready {more : Nat} {words : List UInt32} : SleepControl.reported words = true →
      Looks waitMs more [(.pause waitMs, .ok []), (statusRead, .ok words)] (.inl .fallAsleep)
  | asleep {more : Nat} {words : List UInt32} : SleepControl.reported words = true →
      Looks waitMs more
        [(.pause waitMs, .ok []), (statusRead, .ok words), (.fallAsleep, .ok [])]
        (.inr (.ok .nothing))
  | exhausted {words : List UInt32} : SleepControl.reported words = false →
      Looks waitMs 0 [(.pause waitMs, .ok []), (statusRead, .ok words)] (.inr (.error .timeout))
  | again {more : Nat} {words : List UInt32} {rest : List (Request × Reply)}
      {next : Request ⊕ Outcome Answer} : SleepControl.reported words = false →
      Looks waitMs more rest next →
      Looks waitMs (more + 1) ((.pause waitMs, .ok []) :: (statusRead, .ok words) :: rest) next

/-- How far a call has come that puts a router to sleep. -/
inductive Retires (settings : Settings) :
    List (Request × Reply) → Request ⊕ Outcome Answer → Prop
  | begun : Retires settings [] (.inl controlRead)
  | unread {failure : Failure} :
      Retires settings [(controlRead, .error failure)] (.inr (.error failure))
  | blank : Retires settings [(controlRead, .ok [])] (.inr (.error (.protocol .emptySleepRead)))
  | read {control : UInt32} {others : List UInt32} :
      Retires settings [(controlRead, .ok (control :: others))]
        (.inl (controlWrite (SleepControl.request control)))
  | unwritten {control : UInt32} {others : List UInt32} {failure : Failure} :
      Retires settings [(controlRead, .ok (control :: others)),
        (controlWrite (SleepControl.request control), .error failure)] (.inr (.error failure))
  | written {control : UInt32} {others words : List UInt32} {rest : List (Request × Reply)}
      {next : Request ⊕ Outcome Answer} :
      Looks settings.sleepReadyWaitMs settings.sleepReadyAttempts rest next →
      Retires settings ((controlRead, .ok (control :: others)) ::
        (controlWrite (SleepControl.request control), .ok words) :: rest) next

namespace Procedure

open Program

/-- What becomes of a look once the router is asleep. -/
theorem comes_fallAsleep
    (h : (Program.request .fallAsleep >>= fun _ => pure () >>= fun _ => pure Answer.nothing).Comes
      exchanges q) : (exchanges = [] ∧ q.head = .inl .fallAsleep) ∨
      exchanges = [(.fallAsleep, .ok [])] ∧ q.head = .inr (.ok .nothing) := by
  cases h.opening with
  | asking hq => exact .inl ⟨rfl, hq⟩
  | failed hcertain => cases hcertain
  | told hwords hrest =>
    obtain ⟨rfl, hq⟩ := Comes.of_done hrest
    cases hwords rfl
    exact .inr ⟨rfl, hq⟩

/-- One look, with what comes after it. -/
theorem looks_once {f : Program Request Unit}
    (hf : ∀ words rest, SleepControl.reported words = false →
      (f >>= fun _ => pure Answer.nothing).Comes rest q →
      Looks waitMs more ((.pause waitMs, .ok []) :: (statusRead, .ok words) :: rest) q.head)
    (h : (Program.request (.pause waitMs) >>= fun _ =>
      readRouter Register.routerCs6 1 >>= fun words =>
      (if words.head?.any SleepControl.isReady then
        Program.request .fallAsleep >>= fun _ => pure ()
      else f) >>= fun _ => pure Answer.nothing).Comes exchanges q) :
    Looks waitMs more exchanges q.head := by
  cases h.opening with
  | asking hq =>
    rw [hq]
    exact .pausing
  -- a pause is met at once
  | failed hcertain => cases hcertain
  | told hwords hpaused =>
    cases hwords rfl
    cases hpaused.opening with
    | asking hq =>
      rw [hq]
      exact .looking
    | failed _ hq =>
      rw [hq]
      exact .failed
    | @told words rest _ hlooked =>
      cases hready : words.head?.any SleepControl.isReady with
      | true =>
        rw [hready, if_pos rfl, bind_bind] at hlooked
        obtain ⟨rfl, hq⟩ | ⟨rfl, hq⟩ := comes_fallAsleep hlooked
        · rw [hq]
          exact .ready hready
        · rw [hq]
          exact .asleep hready
      | false =>
        rw [hready, if_neg Bool.false_ne_true] at hlooked
        exact hf words rest hready hlooked

/-- How far the looks have come, whatever they were told. -/
theorem looks_awaitSleep
    (h : (awaitSleep waitMs more >>= fun _ => pure Answer.nothing).Comes exchanges q) :
    Looks waitMs more exchanges q.head := by
  induction more generalizing exchanges q with
  | zero =>
    rw [awaitSleep] at h
    simp only [bind_bind] at h
    refine looks_once (fun words rest hready h => ?_) h
    obtain ⟨rfl, hq⟩ := Comes.of_done h
    rw [hq]
    exact .exhausted hready
  | succ more ih =>
    rw [awaitSleep] at h
    simp only [bind_bind] at h
    exact looks_once (fun words rest hready h => .again hready (ih h)) h

/-- How far the program has come, whatever it was told. -/
theorem retires_suspend (hawake : router.suspended = false)
    (h : (Operation.suspend.program settings router).Comes exchanges q) :
    Retires settings exchanges q.head := by
  replace h : (suspend settings router.suspended >>= fun _ => pure Answer.nothing).Comes
    exchanges q := h
  rw [hawake, suspend, if_neg Bool.false_ne_true] at h
  simp only [bind_bind] at h
  cases h.opening with
  | asking hq =>
    rw [hq]
    exact .begun
  | failed _ hq =>
    rw [hq]
    exact .unread
  | @told words rest _ hread =>
    cases words with
    | nil =>
      obtain ⟨rfl, hq⟩ := Comes.of_done hread
      rw [hq]
      exact .blank
    | cons control others =>
      replace hread : (transfer (.write .router 0 Register.routerCs5
        [SleepControl.request control]) >>= fun _ =>
          awaitSleep settings.sleepReadyWaitMs settings.sleepReadyAttempts >>=
            fun _ => pure Answer.nothing).Comes rest q := hread
      cases hread.opening with
      | asking hq =>
        rw [hq]
        exact .read
      | failed _ hq =>
        rw [hq]
        exact .unwritten
      | told _ hwritten => exact .written (looks_awaitSleep hwritten)

end Procedure

/-! ## What the exchanges settle -/

/-- Nothing that has been asked for has failed. -/
def Unfailing (exchanges : List (Request × Reply)) : Prop :=
  ∀ request failure, (request, .error failure) ∉ exchanges

/-- A look at the sleep status has found the router asleep. -/
def Reported (exchanges : List (Request × Reply)) : Prop :=
  ∃ word others, (statusRead, .ok (word :: others)) ∈ exchanges ∧ word.toNat.testBit 0 = true

/-- How often the sleep status has been told. -/
def looks (exchanges : List (Request × Reply)) : Nat :=
  (exchanges.map (·.1)).count statusRead

/-- The result that the exchanges of a call settle which puts a router to sleep. -/
inductive Settles (attempts : Nat) (exchanges : List (Request × Reply)) : Outcome Answer → Prop
  | failed {request : Request} {failure : Failure} : (request, .error failure) ∈ exchanges →
      Settles attempts exchanges (.error failure)
  | blank : exchanges.head? = some (controlRead, .ok []) →
      Settles attempts exchanges (.error (.protocol .emptySleepRead))
  | asleep : Unfailing exchanges → Reported exchanges → Settles attempts exchanges (.ok .nothing)
  | timeout : Unfailing exchanges → ¬ Reported exchanges → looks exchanges = attempts + 1 →
      Settles attempts exchanges (.error .timeout)

/-- What the looks come to, told by all exchanges so far. -/
inductive Stage (attempts : Nat) (exchanges : List (Request × Reply)) :
    Request ⊕ Outcome Answer → Prop
  | going {request : Request} : Unfailing exchanges → ¬ Reported exchanges →
      looks exchanges ≤ attempts → Stage attempts exchanges (.inl request)
  | marking : Unfailing exchanges → Reported exchanges →
      Stage attempts exchanges (.inl .fallAsleep)
  | marked : Unfailing exchanges → Reported exchanges →
      Stage attempts exchanges (.inr (.ok .nothing))
  | failed {before : List (Request × Reply)} {request : Request} {failure : Failure} :
      exchanges = before ++ [(request, .error failure)] → Unfailing before →
      Stage attempts exchanges (.inr (.error failure))
  | exhausted : Unfailing exchanges → ¬ Reported exchanges → looks exchanges = attempts + 1 →
      Stage attempts exchanges (.inr (.error .timeout))

theorem unfailing_nil : Unfailing [] :=
  fun _ _ => List.not_mem_nil

theorem reported_nil : ¬ Reported [] := by
  rintro ⟨word, others, hmem, -⟩
  cases hmem

theorem reported_of_mem (hmem : (statusRead, .ok words) ∈ exchanges)
    (h : SleepControl.reported words = true) : Reported exchanges := by
  cases words with
  | nil => cases h
  | cons word others =>
    rw [SleepControl.reported_cons] at h
    exact ⟨word, others, hmem, h⟩

section step

variable {request : Request} {attempts : Nat}

theorem Unfailing.cons (h : Unfailing exchanges) :
    Unfailing ((request, .ok words) :: exchanges) := by
  intro request' failure hmem
  rcases List.mem_cons.1 hmem with heq | hmem
  · cases heq
  · exact h request' failure hmem

theorem reported_cons (hno : request = statusRead → SleepControl.reported words = false) :
    Reported ((request, .ok words) :: exchanges) ↔ Reported exchanges := by
  constructor
  · rintro ⟨word, others, hmem, hbit⟩
    rcases List.mem_cons.1 hmem with heq | hmem
    · cases heq
      rw [← SleepControl.reported_cons word others, hno rfl] at hbit
      cases hbit
    · exact ⟨word, others, hmem, hbit⟩
  · rintro ⟨word, others, hmem, hbit⟩
    exact ⟨word, others, List.mem_cons_of_mem _ hmem, hbit⟩

theorem looks_cons {reply : Reply} : looks ((request, reply) :: exchanges) =
    looks exchanges + if request = statusRead then 1 else 0 := by
  simp [looks, List.count_cons]

/-- One more exchange in front that is no look. -/
theorem Stage.other (h : Stage attempts exchanges next) (hne : request ≠ statusRead) :
    Stage attempts ((request, .ok words) :: exchanges) next := by
  have hreported : Reported ((request, .ok words) :: exchanges) ↔ Reported exchanges :=
    reported_cons fun heq => absurd heq hne
  have hlooks : looks ((request, .ok words) :: exchanges) = looks exchanges := by
    rw [looks_cons, if_neg hne, Nat.add_zero]
  cases h with
  | going hall hnone hle => exact .going hall.cons (mt hreported.1 hnone) (hlooks ▸ hle)
  | marking hall hsome => exact .marking hall.cons (hreported.2 hsome)
  | marked hall hsome => exact .marked hall.cons (hreported.2 hsome)
  | failed heq hall => exact .failed (congrArg _ heq) hall.cons
  | exhausted hall hnone hcount =>
    exact .exhausted hall.cons (mt hreported.1 hnone) (hlooks ▸ hcount)

/-- One more look in front that has not found the router asleep. -/
theorem Stage.look (h : Stage attempts exchanges next)
    (hready : SleepControl.reported words = false) :
    Stage (attempts + 1) ((statusRead, .ok words) :: exchanges) next := by
  have hreported : Reported ((statusRead, .ok words) :: exchanges) ↔ Reported exchanges :=
    reported_cons fun _ => hready
  have hlooks : looks ((statusRead, .ok words) :: exchanges) = looks exchanges + 1 := by
    rw [looks_cons, if_pos rfl]
  cases h with
  | going hall hnone hle =>
    exact .going hall.cons (mt hreported.1 hnone) (hlooks ▸ Nat.succ_le_succ hle)
  | marking hall hsome => exact .marking hall.cons (hreported.2 hsome)
  | marked hall hsome => exact .marked hall.cons (hreported.2 hsome)
  | failed heq hall => exact .failed (congrArg _ heq) hall.cons
  | exhausted hall hnone hcount =>
    exact .exhausted hall.cons (mt hreported.1 hnone) (hlooks.trans (congrArg _ hcount))

end step

theorem Looks.stage (h : Looks waitMs more exchanges next) : Stage more exchanges next := by
  have paused : ¬ Reported [(.pause waitMs, .ok [])] := by
    rw [reported_cons (by nofun)]
    exact reported_nil
  induction h with
  | pausing => exact .going unfailing_nil reported_nil (Nat.zero_le _)
  | looking => exact .going unfailing_nil.cons paused (Nat.zero_le _)
  | failed => exact .failed (List.append_cons [] _ _) unfailing_nil.cons
  | ready hready => exact .marking unfailing_nil.cons.cons (reported_of_mem (by simp) hready)
  | asleep hready =>
    exact .marked unfailing_nil.cons.cons.cons (reported_of_mem (by simp) hready)
  | exhausted hready =>
    refine .exhausted unfailing_nil.cons.cons ?_ rfl
    rw [reported_cons (by nofun), reported_cons fun _ => hready]
    exact reported_nil
  | again hready _ ih => exact (ih.look hready).other nofun

/-- What a call that puts a router to sleep comes to, told by all exchanges so far. -/
theorem Retires.stage (h : Retires settings exchanges next) :
    (exchanges = [(controlRead, .ok [])] ∧ next = .inr (.error (.protocol .emptySleepRead))) ∨
      exchanges.head? ≠ some (controlRead, .ok []) ∧
        Stage settings.sleepReadyAttempts exchanges next := by
  cases h with
  | begun => exact .inr ⟨by simp, .going unfailing_nil reported_nil (Nat.zero_le _)⟩
  | unread => exact .inr ⟨by simp, .failed rfl unfailing_nil⟩
  | blank => exact .inl ⟨rfl, rfl⟩
  | read =>
    refine .inr ⟨by simp, .going unfailing_nil.cons ?_ (Nat.zero_le _)⟩
    rw [reported_cons (by nofun)]
    exact reported_nil
  | unwritten => exact .inr ⟨by simp, .failed (List.append_cons [] _ _) unfailing_nil.cons⟩
  | written h => exact .inr ⟨by simp, (h.stage.other (by nofun)).other (by nofun)⟩

/-- A call that puts a router to sleep ends with what its exchanges settle. -/
theorem Retires.settles {result : Outcome Answer}
    (h : Retires settings exchanges (.inr result)) :
    Settles settings.sleepReadyAttempts exchanges result := by
  obtain ⟨rfl, heq⟩ | ⟨-, hstage⟩ := h.stage
  · cases heq
    exact .blank rfl
  · cases hstage with
    | marked hall hsome => exact .asleep hall hsome
    | failed heq _ => exact .failed (heq ▸ List.mem_append_right _ List.mem_cons_self)
    | exhausted hall hnone hcount => exact .timeout hall hnone hcount

/-- What is settled where nothing has failed. -/
theorem Settles.of_unfailing {attempts : Nat} {result : Outcome Answer}
    (h : Settles attempts exchanges result) (hall : Unfailing exchanges)
    (hhead : exchanges.head? ≠ some (controlRead, .ok [])) :
    (Reported exchanges ∧ result = .ok .nothing) ∨
      (¬ Reported exchanges ∧ looks exchanges = attempts + 1 ∧ result = .error .timeout) := by
  cases h with
  | failed hmem => exact absurd hmem (hall _ _)
  | blank hblank => exact absurd hblank hhead
  | asleep _ hsome => exact .inl ⟨hsome, rfl⟩
  | timeout _ hnone hcount => exact .inr ⟨hnone, hcount, rfl⟩

/-- Exchanges settle one result. -/
theorem Stage.settled {attempts : Nat} {result : Outcome Answer}
    (h : Stage attempts exchanges next) (hhead : exchanges.head? ≠ some (controlRead, .ok []))
    (hsettles : Settles attempts exchanges result) :
    next = .inr result ∨ next = .inl .fallAsleep ∧ result = .ok .nothing := by
  cases h with
  | going hall hnone hle =>
    rcases hsettles.of_unfailing hall hhead with ⟨hsome, -⟩ | ⟨-, hcount, -⟩
    · exact absurd hsome hnone
    · omega
  | marking hall hsome =>
    rcases hsettles.of_unfailing hall hhead with ⟨-, rfl⟩ | ⟨hnone, -⟩
    · exact .inr ⟨rfl, rfl⟩
    · exact absurd hsome hnone
  | marked hall hsome =>
    rcases hsettles.of_unfailing hall hhead with ⟨-, rfl⟩ | ⟨hnone, -⟩
    · exact .inl rfl
    · exact absurd hsome hnone
  | exhausted hall hnone =>
    rcases hsettles.of_unfailing hall hhead with ⟨hsome, -⟩ | ⟨-, -, rfl⟩
    · exact absurd hsome hnone
    · exact .inl rfl
  -- only the last exchange has failed, so no other failure is settled
  | @failed before request failure heq hbefore =>
    have hlast : (request, .error failure) ∈ exchanges :=
      heq ▸ List.mem_append_right _ List.mem_cons_self
    cases hsettles with
    | failed hmem =>
      rw [heq] at hmem
      rcases List.mem_append.1 hmem with hmem | hmem
      · exact absurd hmem (hbefore _ _)
      · cases List.mem_singleton.1 hmem
        exact .inl rfl
    | blank hblank => exact absurd hblank hhead
    | asleep hall => exact absurd hlast (hall _ _)
    | timeout hall => exact absurd hlast (hall _ _)

/-- **Once a result is settled, the call is done with it**, but for the mark that it has yet to
make. -/
theorem Retires.settled {result : Outcome Answer} (h : Retires settings exchanges next)
    (hsettles : Settles settings.sleepReadyAttempts exchanges result) :
    next = .inr result ∨ next = .inl .fallAsleep ∧ result = .ok .nothing := by
  obtain ⟨rfl, rfl⟩ | ⟨hhead, hstage⟩ := h.stage
  · have hall : Unfailing [(controlRead, .ok [])] := unfailing_nil.cons
    cases hsettles with
    | failed hmem => exact absurd hmem (hall _ _)
    | blank => exact .inl rfl
    | asleep _ hsome => exact absurd ((reported_cons (by nofun)).1 hsome) reported_nil
    | timeout _ _ hcount => cases hcount
  · exact hstage.settled hhead hsettles

/-! ## What is asked for -/

/-- What has been asked for, with what is asked for next. -/
def asked (exchanges : List (Request × Reply)) (next : Request ⊕ Outcome Answer) : List Request :=
  exchanges.map (·.1) ++ next.getLeft?.toList

/-- What a call asks for that puts a router to sleep, and when. -/
structure Bedtime (settings : Settings) (exchanges : List (Request × Reply))
    (requests : List Request) : Prop where
  /-- there is nothing else that it asks for -/
  kinds : ∀ request ∈ requests, request = controlRead ∨ request.isWrite = true ∨
    request = .pause settings.sleepReadyWaitMs ∨ request = statusRead ∨ request = .fallAsleep
  writes : requests.countP Request.isWrite ≤ 1
  /-- what is written is the word that has been read, with the bits for sleep in place -/
  control : ∀ request ∈ requests, request.isWrite = true → ∃ control others word,
    exchanges.head? = some (controlRead, .ok (control :: others)) ∧
      request = controlWrite word ∧ ∀ i, word.toNat.testBit i =
        if i = 0 ∨ i = 2 then true else if i = 1 ∨ i = 3 then false else control.toNat.testBit i
  /-- the sleep status is looked at once the write has succeeded -/
  written : statusRead ∈ requests → ∃ word words, (controlWrite word, .ok words) ∈ exchanges
  looks : requests.count statusRead ≤ settings.sleepReadyAttempts + 1
  /-- the router is marked once a look has found it asleep -/
  marks : .fallAsleep ∈ requests → Unfailing exchanges ∧ Reported exchanges
  /-- a call cannot go on asking -/
  bounded : requests.length ≤ 2 * settings.sleepReadyAttempts + 5

theorem Bedtime.front {requests requests' : List Request}
    (h : Bedtime settings exchanges requests) (hfront : requests' <+: requests) :
    Bedtime settings exchanges requests' where
  kinds request hmem := h.kinds request (hfront.subset hmem)
  writes := (hfront.sublist.countP_le).trans h.writes
  control request hmem := h.control request (hfront.subset hmem)
  written hmem := h.written (hfront.subset hmem)
  looks := (hfront.sublist.count_le _).trans h.looks
  marks hmem := h.marks (hfront.subset hmem)
  bounded := hfront.length_le.trans h.bounded

/-- What the looks at the sleep status ask for. -/
structure Vigil (waitMs more : Nat) (requests : List Request) : Prop where
  kinds : ∀ request ∈ requests,
    request = .pause waitMs ∨ request = statusRead ∨ request = .fallAsleep
  looks : requests.count statusRead ≤ more + 1
  bounded : requests.length ≤ 2 * more + 3

/-- One look, and the mark after it. -/
theorem vigil_of_front {requests : List Request}
    (h : requests <+: [.pause waitMs, statusRead, .fallAsleep]) : Vigil waitMs more requests where
  kinds request hmem := by
    have hmem := h.subset hmem
    simp only [List.mem_cons, List.not_mem_nil, or_false] at hmem
    exact hmem
  looks := (h.sublist.count_le _).trans (Nat.le_add_left 1 more)
  bounded := h.length_le.trans (Nat.le_add_left 3 (2 * more))

/-- One more pause and look in front. -/
theorem Vigil.again {requests : List Request} (h : Vigil waitMs more requests) :
    Vigil waitMs (more + 1) (.pause waitMs :: statusRead :: requests) where
  kinds request hmem := by
    rcases List.mem_cons.1 hmem with rfl | hmem
    · exact .inl rfl
    · rcases List.mem_cons.1 hmem with rfl | hmem
      · exact .inr (.inl rfl)
      · exact h.kinds request hmem
  looks := by
    rw [List.count_cons_of_ne (by nofun), List.count_cons_self]
    exact Nat.succ_le_succ h.looks
  bounded := by
    have hlength := h.bounded
    rw [List.length_cons, List.length_cons]
    omega

theorem Looks.vigil (h : Looks waitMs more exchanges next) :
    Vigil waitMs more (asked exchanges next) := by
  induction h with
  | pausing | looking | failed | ready | asleep | exhausted => exact vigil_of_front ⟨_, rfl⟩
  | again _ _ ih => exact ih.again

theorem Looks.marks (h : Looks waitMs more exchanges next)
    (hmem : .fallAsleep ∈ asked exchanges next) : Unfailing exchanges ∧ Reported exchanges := by
  induction h with
  | pausing | looking | failed | exhausted => simp [asked, statusRead] at hmem
  | ready hready => exact ⟨unfailing_nil.cons.cons, reported_of_mem (by simp) hready⟩
  | asleep hready => exact ⟨unfailing_nil.cons.cons.cons, reported_of_mem (by simp) hready⟩
  | again hready _ ih =>
    obtain ⟨hall, hsome⟩ := ih (by simpa [asked, statusRead] using hmem)
    refine ⟨hall.cons.cons, ?_⟩
    rw [reported_cons (by nofun), reported_cons fun _ => hready]
    exact hsome

/-- Nothing is left to be done once the mark is made. -/
theorem Looks.done (h : Looks waitMs more exchanges next)
    (hmem : (.fallAsleep, .ok []) ∈ exchanges) : next = .inr (.ok .nothing) := by
  induction h with
  | pausing | looking | failed | ready | exhausted => simp [statusRead] at hmem
  | asleep => rfl
  | again _ _ ih => exact ih (by simpa [statusRead] using hmem)

/-- A call that has only looked at the control register, or has come to the write. -/
theorem bedtime_of_front {requests : List Request} (control : UInt32) (others : List UInt32)
    (h : requests <+: [controlRead, controlWrite (SleepControl.request control)])
    (hcontrol : controlWrite (SleepControl.request control) ∈ requests →
      exchanges.head? = some (controlRead, .ok (control :: others))) :
    Bedtime settings exchanges requests where
  kinds request hmem := by
    have hmem := h.subset hmem
    simp only [List.mem_cons, List.not_mem_nil, or_false] at hmem
    rcases hmem with rfl | rfl
    · exact .inl rfl
    · exact .inr (.inl rfl)
  writes := h.sublist.countP_le.trans (Nat.le_refl 1)
  control request hmem hwrite := by
    have hlist := h.subset hmem
    simp only [List.mem_cons, List.not_mem_nil, or_false] at hlist
    rcases hlist with rfl | rfl
    · cases hwrite
    · exact ⟨control, others, _, hcontrol hmem, rfl, SleepControl.testBit_request control⟩
  written hmem := by
    have hmem := h.subset hmem
    simp [statusRead, controlRead, controlWrite, Register.routerCs5, Register.routerCs6] at hmem
  looks := (h.sublist.count_le _).trans (Nat.zero_le _)
  marks hmem := by
    have hmem := h.subset hmem
    simp [controlRead, controlWrite] at hmem
  bounded := h.length_le.trans (by simp)

theorem Vigil.isWrite {requests : List Request} (h : Vigil waitMs more requests) :
    ∀ request ∈ requests, request.isWrite = false := by
  intro request hmem
  rcases h.kinds request hmem with rfl | rfl | rfl <;> rfl

/-- **What putting a router to sleep asks for**, over any replies. -/
theorem Retires.bedtime (h : Retires settings exchanges next) :
    Bedtime settings exchanges (asked exchanges next) := by
  have unsaid {requests : List Request} (h : requests <+: [controlRead]) :
      Bedtime settings exchanges requests := by
    refine bedtime_of_front 0 [] (h.trans ⟨_, rfl⟩) fun hmem => ?_
    cases List.mem_singleton.1 (h.subset hmem)
  cases h with
  | begun | unread | blank => exact unsaid ⟨_, rfl⟩
  | read | unwritten => exact bedtime_of_front _ _ ⟨_, rfl⟩ fun _ => rfl
  | @written control others words rest _ h =>
    have hvigil := h.vigil
    have hlooks := hvigil.looks
    have hlength := hvigil.bounded
    have cases_mem {request : Request} (hmem : request ∈ controlRead ::
        controlWrite (SleepControl.request control) :: asked rest next) : request = controlRead ∨
        request = controlWrite (SleepControl.request control) ∨ request ∈ asked rest next := by
      simpa using hmem
    refine ⟨fun request hmem => ?_, ?_, fun request hmem hwrite => ?_, fun _ => ?_, ?_,
      fun hmem => ?_, ?_⟩
    · rcases cases_mem hmem with rfl | rfl | hmem
      · exact .inl rfl
      · exact .inr (.inl rfl)
      · exact .inr (.inr (hvigil.kinds request hmem))
    · have hnone : (asked rest next).countP Request.isWrite = 0 := by
        rw [List.countP_eq_zero]
        intro request hmem
        rw [hvigil.isWrite request hmem]
        exact Bool.false_ne_true
      show List.countP _ (controlRead :: controlWrite _ :: asked rest next) ≤ 1
      rw [List.countP_cons_of_neg (by nofun), List.countP_cons_of_pos rfl, hnone]
    · rcases cases_mem hmem with rfl | rfl | hmem
      · cases hwrite
      · exact ⟨control, others, _, rfl, rfl, SleepControl.testBit_request control⟩
      · rw [hvigil.isWrite request hmem] at hwrite
        cases hwrite
    · exact ⟨_, words, List.mem_cons_of_mem _ List.mem_cons_self⟩
    · show List.count _ (controlRead :: controlWrite _ :: asked rest next) ≤ _
      rw [List.count_cons_of_ne (by nofun), List.count_cons_of_ne (by nofun)]
      exact hlooks
    · have hmem : .fallAsleep ∈ asked rest next := by
        rcases cases_mem hmem with heq | heq | hmem
        · cases heq
        · cases heq
        · exact hmem
      obtain ⟨hall, hsome⟩ := h.marks hmem
      refine ⟨hall.cons.cons, ?_⟩
      rw [reported_cons (by nofun), reported_cons (by nofun)]
      exact hsome
    · show (controlRead :: controlWrite _ :: asked rest next).length ≤ _
      rw [List.length_cons, List.length_cons]
      omega

theorem Retires.done (h : Retires settings exchanges next)
    (hmem : (.fallAsleep, .ok []) ∈ exchanges) : next = .inr (.ok .nothing) := by
  cases h with
  | begun | unread | blank | read | unwritten => simp [controlRead, controlWrite] at hmem
  | written h => exact h.done (by simpa [controlRead, controlWrite] using hmem)

end RouterFabric
