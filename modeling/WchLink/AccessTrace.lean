import WchLink.DebugModule
import WchLink.Interaction.Trace

/-! # The exchanges around an access program

A program in the target's program buffer runs when the command register is
written with the postexec bit. This module says what has been acknowledged
before that happens, whatever the programmer answers.
-/

namespace WchLink

open Bytes Interaction

/-- One request of the programmer with its reply. -/
abbrev Exchange : Type := Usb.Idx

/-! ## Acknowledged register accesses -/

/-- A register access answered by a nine-byte acknowledgement that carries
`word`. -/
def Acknowledged (reg : Byte) (value : Word) (operation : Byte) (word : Word)
    (exchange : Exchange) : Prop :=
  ∃ reply, exchange = ⟨regRequest reg value operation, .ok reply⟩ ∧ reply.length = 9 ∧
    replyOk reply = true ∧ replyValue reply = word

def Wrote (reg : Byte) (value : Word) (exchange : Exchange) : Prop :=
  ∃ word, Acknowledged reg value wlRegOpWrite word exchange

def ReadAs (reg : Byte) (word : Word) (exchange : Exchange) : Prop :=
  Acknowledged reg 0 wlRegOpRead word exchange

/-- The program's words, one slot after another. -/
def WroteWords : Nat → List Word → List Exchange → Prop
  | _, [], exchanges => exchanges = []
  | slot, word :: rest, exchanges => ∃ exchange others, exchanges = exchange :: others ∧
      Wrote (wlDmiDmprogbuf0 + BitVec.ofNat 8 slot) word exchange ∧
        WroteWords (slot + 1) rest others

/-- Polls of a command's end: busy ones, then an idle one without an error. -/
def Waited (exchanges : List Exchange) : Prop :=
  ∃ busy last word, exchanges = busy ++ [last] ∧
    (∀ exchange ∈ busy, ∃ word, ReadAs wlDmiDmabstractcs word exchange ∧
      word &&& wlDmAbstractcsBusy ≠ 0) ∧
    ReadAs wlDmiDmabstractcs word last ∧ word &&& wlDmAbstractcsBusy = 0 ∧
      word &&& wlDmAbstractcsCmdmask = 0

/-- One run of a program: the program, the address for x9 and the value for x8. -/
structure Access where
  program : List Word
  address : Word
  value : Word

/-- Everything an access needs has been acknowledged, in order: auto-execution
off, the program, x9 set by a command that completed, and DATA0. -/
def Staged (access : Access) (exchanges : List Exchange) : Prop :=
  ∃ auto words data command polls value,
    exchanges = auto :: words ++ data :: command :: polls ++ [value] ∧
      Wrote wlDmiDmabstractauto 0 auto ∧ WroteWords 0 access.program words ∧
      Wrote wlDmiData0 access.address data ∧
      Wrote wlDmiDmcommand (wlDmCmdGprBase ||| wlDmCmdTransfer ||| wlDmCmdWrite |||
        wlDmGprRegno 9) command ∧ Waited polls ∧
      Wrote wlDmiData0 access.value value

/-- x8 read back after the program has run. -/
def ReadBack (exchanges : List Exchange) : Prop :=
  ∃ request polls result word, exchanges = request :: polls ++ [result] ∧
    Wrote wlDmiDmcommand (wlDmCmdGprBase ||| wlDmCmdTransfer ||| wlDmGprRegno 8) request ∧
      Waited polls ∧ ReadAs wlDmiData0 word result

/-- The exchanges of an access that succeeded. -/
def Finished (access : Access) (exchanges : List Exchange) : Prop :=
  ∃ staged command polls back, exchanges = staged ++ command :: polls ++ back ∧
    Staged access staged ∧ Wrote wlDmiDmcommand runCommand command ∧ Waited polls ∧
    (back = [] ∨ ReadBack back)

/-- A request that makes the target run its program buffer. -/
def Postexec (request : List Byte) : Prop :=
  ∃ command, request = regRequest wlDmiDmcommand command wlRegOpWrite ∧
    command &&& wlDmCmdPostexec ≠ 0

theorem regRequest_injective {reg reg' : Byte} {value value' : Word} {operation operation' : Byte}
    (h : regRequest reg value operation = regRequest reg' value' operation') :
    reg = reg' ∧ value = value' ∧ operation = operation' := by
  unfold regRequest at h
  simp only [List.cons.injEq, and_true, true_and] at h
  obtain ⟨hreg, h3, h2, h1, h0, hoperation⟩ := h
  refine ⟨hreg, ?_, hoperation⟩
  rw [← wordLe_byteOf value, ← wordLe_byteOf value', h0, h1, h2, h3]

theorem not_postexec_reg {reg : Byte} {value : Word} {operation : Byte}
    (h : reg ≠ wlDmiDmcommand) : ¬Postexec (regRequest reg value operation) := by
  rintro ⟨command, hrequest, -⟩
  exact h (regRequest_injective hrequest).1

theorem not_postexec_command {command : Word} {operation : Byte}
    (h : command &&& wlDmCmdPostexec = 0) :
    ¬Postexec (regRequest wlDmiDmcommand command operation) := by
  rintro ⟨command', hrequest, hpostexec⟩
  rw [← (regRequest_injective hrequest).2.1] at hpostexec
  exact hpostexec h

/-! ## What each layer's success means -/

section Layers

variable {link : Link} {allowed : List Exchange → List Byte → Prop}

theorem wlLinkeCommand_establishes {request : List Byte} (hallowed : allowed [] request) :
    Establishes (wlLinkeCommand link request) allowed fun made reply =>
      made = [⟨request, .ok reply⟩] := by
  unfold wlLinkeCommand
  dsimp only
  split
  · exact Establishes.throwThen _ _
  · refine ⟨hallowed, fun answer => ?_⟩
    cases answer with
    | error code => exact Establishes.throw _
    | ok reply => exact Establishes.ok rfl

theorem regAccess_establishes {reg : Byte} {value : Word} {operation : Byte}
    (hallowed : allowed [] (regRequest reg value operation)) :
    Establishes (regAccess link reg value operation) allowed fun made word =>
      ∃ exchange, made = [exchange] ∧ Acknowledged reg value operation word exchange := by
  unfold regAccess
  refine Establishes.andThen (wlLinkeCommand_establishes hallowed) fun made reply hmade => ?_
  dsimp only
  split
  · exact Establishes.throwThen _ _
  next hlength =>
    split
    · exact Establishes.throwThen _ _
    next hok =>
      refine Establishes.ok ⟨_, (List.append_nil made).trans hmade, reply, rfl,
        not_not.mp hlength, ?_, rfl⟩
      simpa using hok

theorem wlLinkeDmiWrite_establishes {reg : Byte} {value : Word}
    (hallowed : allowed [] (regRequest reg value wlRegOpWrite)) :
    Establishes (wlLinkeDmiWrite link reg value) allowed fun made _ =>
      ∃ exchange, made = [exchange] ∧ Wrote reg value exchange := by
  refine Establishes.andThen (regAccess_establishes hallowed) fun made word hmade => ?_
  obtain ⟨exchange, rfl, hexchange⟩ := hmade
  exact Establishes.ok ⟨exchange, List.append_nil _, word, hexchange⟩

theorem wlLinkeDmiRead_establishes {reg : Byte}
    (hallowed : allowed [] (regRequest reg 0 wlRegOpRead)) :
    Establishes (wlLinkeDmiRead link reg) allowed fun made word =>
      ∃ exchange, made = [exchange] ∧ ReadAs reg word exchange :=
  regAccess_establishes hallowed

theorem ignore_establishes {α : Type} {operation : Fallible α} {good : List Exchange → α → Prop}
    (h : Establishes operation allowed good) :
    Establishes (ignore operation) allowed fun _ _ => True := by
  unfold Establishes ignore
  rw [ExceptT.run_lift, map_eq_pure_bind]
  rw [bind_assoc]
  refine Program.Follows.bind h (fun made status _ => ?_) fun made _ value hvalue => ?_
  · exact fun _ _ => trivial
  · cases hvalue

end Layers

/-! ### Under a condition on postexec commands alone -/

section Quiet

variable {link : Link} {allowed : List Exchange → List Byte → Prop}
  (hquiet : ∀ made request, ¬Postexec request → allowed made request)

include hquiet

theorem dmPoll_establishes (spins : Nat) (last : Word) :
    Establishes (dmPoll link (spins + 1) last) allowed fun made word =>
      ∃ busy exchange, made = busy ++ [exchange] ∧
        (∀ exchange ∈ busy, ∃ word, ReadAs wlDmiDmabstractcs word exchange ∧
          word &&& wlDmAbstractcsBusy ≠ 0) ∧ ReadAs wlDmiDmabstractcs word exchange := by
  induction spins generalizing allowed last with
  | zero =>
      rw [dmPoll]
      refine Establishes.andThen (wlLinkeDmiRead_establishes
        (hquiet [] _ (not_postexec_reg (by decide)))) fun made word hmade => ?_
      obtain ⟨exchange, rfl, hexchange⟩ := hmade
      split
      · exact Establishes.ok ⟨[], exchange, rfl, fun _ h => absurd h List.not_mem_nil, hexchange⟩
      · exact Establishes.ok ⟨[], exchange, rfl, fun _ h => absurd h List.not_mem_nil, hexchange⟩
  | succ spins ih =>
      rw [dmPoll]
      refine Establishes.andThen (wlLinkeDmiRead_establishes
        (hquiet [] _ (not_postexec_reg (by decide)))) fun made word hmade => ?_
      obtain ⟨exchange, rfl, hexchange⟩ := hmade
      split
      next =>
        exact Establishes.ok ⟨[], exchange, rfl, fun _ h => absurd h List.not_mem_nil, hexchange⟩
      next hbusy =>
        refine (ih (fun made request h => hquiet _ request h) word).mono (fun _ _ h => h) ?_
        rintro made last ⟨busy, final, rfl, hpolls, hfinal⟩
        refine ⟨exchange :: busy, final, rfl, ?_, hfinal⟩
        intro poll hpoll
        rcases List.mem_cons.mp hpoll with rfl | hpoll
        · exact ⟨word, hexchange, hbusy⟩
        · exact hpolls poll hpoll

theorem dmWait_establishes :
    Establishes (dmWait link) allowed fun made _ => Waited made := by
  unfold dmWait wlDmTimeoutUs
  refine Establishes.andThen (dmPoll_establishes hquiet 1999999 0) fun made word hmade => ?_
  obtain ⟨busy, exchange, rfl, hpolls, hexchange⟩ := hmade
  dsimp only
  split
  · exact Establishes.throwThen _ _
  next hidle =>
    split
    · refine Establishes.andThen (ignore_establishes (wlLinkeDmiWrite_establishes
        (hquiet _ _ (not_postexec_reg (by decide))))) fun made _ _ => ?_
      exact Establishes.throw _
    next hclean =>
      refine Establishes.ok ⟨busy, exchange, word, List.append_nil _, hpolls, hexchange, ?_, ?_⟩
      · exact not_not.mp hidle
      · exact not_not.mp hclean

/-- A command that passes a value in. -/
theorem dmCommand_establishes_write {command value : Word}
    (hcommand : ∀ data, Wrote wlDmiData0 value data →
      allowed [data] (regRequest wlDmiDmcommand command wlRegOpWrite)) :
    Establishes (dmCommand link command value true false) allowed fun made _ =>
      ∃ data exchange polls, made = data :: exchange :: polls ∧ Wrote wlDmiData0 value data ∧
        Wrote wlDmiDmcommand command exchange ∧ Waited polls := by
  unfold dmCommand
  rw [if_pos rfl]
  refine Establishes.andThen (wlLinkeDmiWrite_establishes
    (hquiet [] _ (not_postexec_reg (by decide)))) fun made _ hmade => ?_
  obtain ⟨data, rfl, hdata⟩ := hmade
  refine Establishes.andThen (wlLinkeDmiWrite_establishes (hcommand data hdata))
    fun made _ hmade => ?_
  obtain ⟨exchange, rfl, hexchange⟩ := hmade
  refine Establishes.andThen (dmWait_establishes fun made request h => hquiet _ request h)
    fun polls _ hpolls => ?_
  exact Establishes.ok ⟨data, exchange, polls, by simp, hdata, hexchange, hpolls⟩

/-- A command that passes a value out. -/
theorem dmCommand_establishes_read {command : Word} (hcommand : command &&& wlDmCmdPostexec = 0) :
    Establishes (dmCommand link command 0 false true) allowed fun made word =>
      ∃ exchange polls result, made = exchange :: polls ++ [result] ∧
        Wrote wlDmiDmcommand command exchange ∧ Waited polls ∧ ReadAs wlDmiData0 word result := by
  unfold dmCommand
  simp only [Bool.false_eq_true, if_false, if_true]
  refine Establishes.andThen (wlLinkeDmiWrite_establishes
    (hquiet [] _ (not_postexec_command hcommand))) fun made _ hmade => ?_
  obtain ⟨exchange, rfl, hexchange⟩ := hmade
  refine Establishes.andThen (dmWait_establishes fun made request h => hquiet _ request h)
    fun polls _ hpolls => ?_
  have hread : Establishes (wlLinkeDmiRead link wlDmiData0)
      (fun more => allowed ([exchange] ++ (polls ++ more))) _ :=
    wlLinkeDmiRead_establishes (hquiet _ _ (not_postexec_reg (by decide)))
  refine hread.mono (fun _ _ h => h) ?_
  rintro made word ⟨result, rfl, hresult⟩
  exact ⟨exchange, polls, result, by simp, hexchange, hpolls, hresult⟩

theorem wlDmGprWrite_establishes (address : Word) :
    Establishes (wlDmGprWrite link 9 address) allowed fun made _ =>
      ∃ data command polls, made = data :: command :: polls ∧ Wrote wlDmiData0 address data ∧
        Wrote wlDmiDmcommand (wlDmCmdGprBase ||| wlDmCmdTransfer ||| wlDmCmdWrite |||
          wlDmGprRegno 9) command ∧ Waited polls := by
  unfold wlDmGprWrite
  rw [if_neg (by decide)]
  refine Establishes.andThen (dmCommand_establishes_write hquiet
    fun _ _ => hquiet _ _ (not_postexec_command (by decide))) fun made _ hmade => ?_
  exact Establishes.ok (by rwa [List.append_nil])

theorem wlDmGprRead_establishes :
    Establishes (wlDmGprRead link 8) allowed fun made _ => ReadBack made := by
  unfold wlDmGprRead
  rw [if_neg (by decide)]
  refine (dmCommand_establishes_read hquiet (by decide)).mono (fun _ _ h => h) ?_
  rintro made word ⟨request, polls, result, hmade⟩
  exact ⟨request, polls, result, word, hmade⟩

theorem dmLoadWords_establishes (slot : Nat) (words : List Word)
    (hslots : slot + words.length ≤ wlDmProgbufWords) :
    Establishes (dmLoadWords link slot words) allowed fun made _ => WroteWords slot words made := by
  induction words generalizing allowed slot with
  | nil => exact Establishes.ok rfl
  | cons word rest ih =>
      rw [List.length_cons] at hslots
      rw [dmLoadWords]
      have hreg : wlDmiDmprogbuf0 + BitVec.ofNat 8 slot ≠ wlDmiDmcommand := by
        have hslot : slot < 8 := by
          unfold wlDmProgbufWords at hslots
          omega
        interval_cases slot <;> decide
      refine Establishes.andThen (wlLinkeDmiWrite_establishes
        (hquiet [] _ (not_postexec_reg hreg))) fun made _ hmade => ?_
      obtain ⟨exchange, rfl, hexchange⟩ := hmade
      refine (ih (fun made request h => hquiet _ request h) (slot + 1) (by omega)).mono
        (fun _ _ h => h) ?_
      exact fun made _ hmade => ⟨exchange, made, rfl, hexchange, hmade⟩

theorem dmLoadProgram_establishes (program : List Word) :
    Establishes (dmLoadProgram link program) allowed fun made _ =>
      ∃ auto words, made = auto :: words ∧ Wrote wlDmiDmabstractauto 0 auto ∧
        WroteWords 0 program words := by
  unfold dmLoadProgram
  dsimp only
  split
  · exact Establishes.throwThen _ _
  next hshort =>
    refine Establishes.andThen (wlLinkeDmiWrite_establishes
      (hquiet [] _ (not_postexec_reg (by decide)))) fun made _ hmade => ?_
    obtain ⟨auto, rfl, hauto⟩ := hmade
    refine (dmLoadWords_establishes (fun made request h => hquiet _ request h) 0 program
      (by omega)).mono (fun _ _ h => h) ?_
    exact fun made _ hmade => ⟨auto, made, rfl, hauto, hmade⟩

end Quiet

/-! ## One access -/

/-- What an access may request, given what it has made so far: a postexec
command needs the access to be staged. -/
def Access.Allows (access : Access) (made : List Exchange) (request : List Byte) : Prop :=
  Postexec request → Staged access made

theorem dmRun_establishes (link : Link) (program : List Word) (address value : Word)
    (result : Bool) :
    Establishes (dmRun link program address value result)
      (Access.Allows ⟨program, address, value⟩) fun made _ =>
        Finished ⟨program, address, value⟩ made := by
  unfold dmRun
  refine Establishes.andThen (dmLoadProgram_establishes (fun _ _ h hpostexec => absurd hpostexec h)
    program) fun made _ hmade => ?_
  obtain ⟨auto, words, rfl, hauto, hwords⟩ := hmade
  have hgpr : Establishes (wlDmGprWrite link 9 address)
      (fun more => Access.Allows ⟨program, address, value⟩ (auto :: words ++ more)) _ :=
    wlDmGprWrite_establishes (fun _ _ h hpostexec => absurd hpostexec h) address
  refine Establishes.andThen hgpr fun made _ hmade => ?_
  obtain ⟨data, command, polls, rfl, hdata, hcommand, hpolls⟩ := hmade
  have hstaged (given : Exchange) (hgiven : Wrote wlDmiData0 value given) :
      Staged ⟨program, address, value⟩
        (auto :: words ++ (data :: command :: polls ++ [given])) :=
    ⟨auto, words, data, command, polls, given, by simp, hauto, hwords, hdata, hcommand, hpolls,
      hgiven⟩
  have hrun : Establishes (dmCommand link runCommand value true false)
      (fun more => Access.Allows ⟨program, address, value⟩
        (auto :: words ++ (data :: command :: polls ++ more))) _ :=
    dmCommand_establishes_write (fun _ _ h hpostexec => absurd hpostexec h)
      fun given hgiven _ => hstaged given hgiven
  refine Establishes.andThen hrun fun made _ hmade => ?_
  obtain ⟨given, started, polls', rfl, hgiven, hstarted, hpolls'⟩ := hmade
  have hback (back : List Exchange) (hback : back = [] ∨ ReadBack back) :
      Finished ⟨program, address, value⟩ (auto :: words ++ (data :: command :: polls ++
        (given :: started :: polls' ++ back))) :=
    ⟨_, started, polls', back, by simp, hstaged given hgiven, hstarted, hpolls', hback⟩
  cases result with
  | false => exact Establishes.ok (hback [] (.inl rfl))
  | true =>
      have hread : Establishes (wlDmGprRead link 8)
          (fun more => Access.Allows ⟨program, address, value⟩ (auto :: words ++
            (data :: command :: polls ++ (given :: started :: polls' ++ more))))
          fun made _ => ReadBack made :=
        wlDmGprRead_establishes fun _ _ h hpostexec => absurd hpostexec h
      exact hread.mono (fun _ _ h => h) fun made _ hmade => hback made (.inr hmade)

/-! ## Operations made of accesses -/

/-- Accesses that succeeded, one after another. -/
def Completed (makes : Access → Prop) (made : List Exchange) : Prop :=
  ∃ finished : List (List Exchange), made = finished.flatten ∧
    ∀ exchanges ∈ finished, ∃ access, makes access ∧ Finished access exchanges

/-- A postexec command is allowed when every access before it succeeded and its
own is staged. -/
def AllowsAccesses (makes : Access → Prop) (made : List Exchange) (request : List Byte) : Prop :=
  Postexec request → ∃ before staged access, made = before ++ staged ∧ Completed makes before ∧
    makes access ∧ Staged access staged

section Accesses

variable {makes makes' : Access → Prop}

theorem Completed.nil : Completed makes [] := ⟨[], rfl, fun _ h => absurd h List.not_mem_nil⟩

theorem Completed.append {first second : List Exchange} (h : Completed makes first)
    (h' : Completed makes second) : Completed makes (first ++ second) := by
  obtain ⟨finished, rfl, hfinished⟩ := h
  obtain ⟨finished', rfl, hfinished'⟩ := h'
  refine ⟨finished ++ finished', List.flatten_append.symm, fun exchanges hmem => ?_⟩
  rcases List.mem_append.mp hmem with hmem | hmem
  · exact hfinished exchanges hmem
  · exact hfinished' exchanges hmem

theorem Completed.mono {made : List Exchange} (h : Completed makes made)
    (hmakes : ∀ access, makes access → makes' access) : Completed makes' made := by
  obtain ⟨finished, hmade, hfinished⟩ := h
  refine ⟨finished, hmade, fun exchanges hmem => ?_⟩
  obtain ⟨access, haccess, hexchanges⟩ := hfinished exchanges hmem
  exact ⟨access, hmakes access haccess, hexchanges⟩

/-- What the rest of an operation may request after completed accesses. -/
theorem AllowsAccesses.after {made more : List Exchange} {request : List Byte}
    (hmade : Completed makes made) (h : AllowsAccesses makes' more request)
    (hmakes : ∀ access, makes' access → makes access) :
    AllowsAccesses makes (made ++ more) request := by
  intro hpostexec
  obtain ⟨before, staged, access, rfl, hbefore, haccess, hstaged⟩ := h hpostexec
  exact ⟨made ++ before, staged, access, (List.append_assoc _ _ _).symm,
    hmade.append (hbefore.mono hmakes), hmakes access haccess, hstaged⟩

theorem dmRun_accesses {link : Link} {program : List Word} {address value : Word} (result : Bool)
    (haccess : makes ⟨program, address, value⟩) :
    Establishes (dmRun link program address value result) (AllowsAccesses makes)
      fun made _ => Completed makes made := by
  refine (dmRun_establishes link program address value result).mono ?_ ?_
  · intro made request hallowed hpostexec
    exact ⟨[], made, _, rfl, Completed.nil, haccess, hallowed hpostexec⟩
  · intro made word hfinished
    refine ⟨[made], (List.flatten_singleton ..).symm, fun exchanges hmem => ?_⟩
    rw [List.mem_singleton.mp hmem]
    exact ⟨_, haccess, hfinished⟩

/-- Loads of a run of `length` bytes from `address` on. -/
def LoadsWithin (address : Word) (length : Nat) (access : Access) : Prop :=
  ∃ size offset, offset < length ∧
    access = ⟨readProgram size, address + BitVec.ofNat 32 offset, 0⟩

theorem LoadsWithin.head {address : Word} {length : Nat} (size : Width) (hlength : 0 < length) :
    LoadsWithin address length ⟨readProgram size, address, 0⟩ :=
  ⟨size, 0, hlength, by rw [show address + BitVec.ofNat 32 0 = address from BitVec.add_zero _]⟩

theorem LoadsWithin.advance {address : Word} {length : Nat} {access : Access} (step : Nat)
    (h : LoadsWithin (address + BitVec.ofNat 32 step) length access) :
    LoadsWithin address (length + step) access := by
  obtain ⟨size, offset, hoffset, rfl⟩ := h
  refine ⟨size, step + offset, by omega, ?_⟩
  rw [BitVec.ofNat_add, BitVec.add_assoc]

/-- One load of a block read and the rest of the loop. -/
theorem loadThen_accesses {α : Type} {link : Link} (size : Width) {address : Word} {length : Nat}
    (step : Nat) (bytes : Word → List Byte) {rest : Filling α} {good : α → Prop}
    (hlength : 0 < length + step)
    (hrest : EstablishesState rest
      (AllowsAccesses (LoadsWithin (address + BitVec.ofNat 32 step) length)) fun made value =>
        Completed (LoadsWithin (address + BitVec.ofNat 32 step) length) made ∧ good value) :
    EstablishesState (do
        let word ← dmReadSized link size address
        modify (· ++ bytes word)
        rest : Filling α)
      (AllowsAccesses (LoadsWithin address (length + step))) fun made value =>
        Completed (LoadsWithin address (length + step)) made ∧ good value := by
  have hload : Establishes (dmReadSized link size address)
      (AllowsAccesses (LoadsWithin address (length + step))) fun made _ =>
        Completed (LoadsWithin address (length + step)) made :=
    dmRun_accesses true (LoadsWithin.head size hlength)
  refine EstablishesState.andThen (EstablishesState.lift hload) fun made word hmade => ?_
  have hupdate : EstablishesState (modify (· ++ bytes word) : Filling PUnit)
      (fun more => AllowsAccesses (LoadsWithin address (length + step)) (made ++ more))
      fun more _ => more = [] := EstablishesState.update _ rfl
  refine EstablishesState.andThen hupdate fun more _ hmore => ?_
  subst hmore
  refine hrest.mono (fun more request hallowed => ?_) fun more value hmore => ?_
  · exact hallowed.after hmade fun _ => LoadsWithin.advance step
  · exact ⟨hmade.append (hmore.1.mono fun _ => LoadsWithin.advance step), hmore.2⟩

theorem readBlockHead_accesses (link : Link) (address : Word) (length : Nat) :
    EstablishesState (readBlockHead link address length)
      (AllowsAccesses (LoadsWithin address length)) fun made left =>
        Completed (LoadsWithin address length) made ∧
          ∀ access, LoadsWithin left.1 left.2 access → LoadsWithin address length access := by
  induction length generalizing address with
  | zero => exact EstablishesState.ok ⟨Completed.nil, fun _ h => h⟩
  | succ length ih =>
      rw [readBlockHead]
      split
      · refine loadThen_accesses .byte 1 _ (Nat.succ_pos length) ((ih (address + 1)).mono
          (fun _ _ h => h) fun made left hleft => ⟨hleft.1, fun access haccess => ?_⟩)
        exact LoadsWithin.advance 1 (hleft.2 access haccess)
      · exact EstablishesState.ok ⟨Completed.nil, fun _ h => h⟩

theorem readBlockWords_accesses (link : Link) (address : Word) (length : Nat) :
    EstablishesState (readBlockWords link address length)
      (AllowsAccesses (LoadsWithin address length)) fun made left =>
        Completed (LoadsWithin address length) made ∧
          ∀ access, LoadsWithin left.1 left.2 access → LoadsWithin address length access := by
  induction address, length using readBlockWords.induct with
  | case1 address length ih =>
      rw [readBlockWords]
      refine loadThen_accesses .word 4 _ (by omega) (ih.mono
        (fun _ _ h => h) fun made left hleft => ⟨hleft.1, fun access haccess => ?_⟩)
      exact LoadsWithin.advance 4 (hleft.2 access haccess)
  | case2 address length hshort =>
      unfold readBlockWords
      split
      · exact absurd rfl (hshort _)
      · exact EstablishesState.ok ⟨Completed.nil, fun _ h => h⟩

theorem readBlockTail_accesses (link : Link) (address : Word) (length : Nat) :
    EstablishesState (readBlockTail link address length)
      (AllowsAccesses (LoadsWithin address length)) fun made _ =>
        Completed (LoadsWithin address length) made ∧ True := by
  induction length generalizing address with
  | zero => exact EstablishesState.ok ⟨Completed.nil, trivial⟩
  | succ length ih =>
      rw [readBlockTail]
      exact loadThen_accesses .byte 1 _ (Nat.succ_pos length) (ih (address + 1))

theorem wlDmReadBlock_accesses (link : Link) (address : Word) (length : Nat) :
    EstablishesState (wlDmReadBlock link address length)
      (AllowsAccesses (LoadsWithin address length)) fun made _ =>
        Completed (LoadsWithin address length) made := by
  refine EstablishesState.andThen (readBlockHead_accesses link address length)
    fun first left hfirst => ?_
  have hwords : EstablishesState (readBlockWords link left.1 left.2)
      (fun more => AllowsAccesses (LoadsWithin address length) (first ++ more)) _ :=
    (readBlockWords_accesses link left.1 left.2).mono
      (fun more request hallowed => hallowed.after hfirst.1 hfirst.2) fun _ _ h => h
  refine EstablishesState.andThen hwords fun second left' hsecond => ?_
  have hinside : ∀ access, LoadsWithin left'.1 left'.2 access →
      LoadsWithin address length access := fun access h => hfirst.2 _ (hsecond.2 _ h)
  have hdone : Completed (LoadsWithin address length) (first ++ second) :=
    hfirst.1.append (hsecond.1.mono hfirst.2)
  refine (readBlockTail_accesses link left'.1 left'.2).mono
    (fun more request hallowed => ?_) fun more _ hmore => ?_
  · rw [← List.append_assoc]
    exact hallowed.after hdone hinside
  · rw [← List.append_assoc]
    exact hdone.append (hmore.1.mono hinside)

theorem filled_accesses (link : Link) (address : Word) (length : Nat) :
    Establishes (filled (wlDmReadBlock link address length))
      (AllowsAccesses (LoadsWithin address length)) fun made _ =>
        Completed (LoadsWithin address length) made := by
  refine Program.Follows.bind (wlDmReadBlock_accesses link address length [])
    (fun made result hresult => ?_) fun made _ value hvalue => ?_
  · obtain ⟨status, bytes⟩ := result
    intro value hvalue
    cases status with
    | ok value =>
        rw [List.append_nil]
        exact hresult _ bytes rfl
    | error error => cases hvalue
  · cases hvalue

end Accesses

/-! ## Sequences of memory operations -/

/-- The memory operations of the debug-module layer. -/
inductive MemOp
  | write32 (address value : Word)
  | write16 (address : Word) (value : BitVec 16)
  | write8 (address : Word) (value : Byte)
  | read32 (address : Word)
  | read16 (address : Word)
  | readBlock (address : Word) (length : Nat)
  | runWrite (program : List Word) (address value : Word)
  | runRead (program : List Word) (address : Word)

/-- The operation without its result. -/
def MemOp.operation (link : Link) : MemOp → Fallible Unit
  | write32 address value => wlDmWrite32 link address value
  | write16 address value => wlDmWrite16 link address value
  | write8 address value => wlDmWrite8 link address value
  | read32 address => do
      let _ ← wlDmRead32 link address
  | read16 address => do
      let _ ← wlDmRead16 link address
  | readBlock address length => do
      let _ ← filled (wlDmReadBlock link address length)
  | runWrite program address value => wlDmRunWrite link program address value
  | runRead program address => do
      let _ ← wlDmRunRead link program address

/-- The accesses an operation is there to make. -/
def MemOp.Makes : MemOp → Access → Prop
  | write32 address value, access => access = ⟨writeProgram .word, address, value⟩
  | write16 address value, access => access = ⟨writeProgram .half, address, value.setWidth 32⟩
  | write8 address value, access => access = ⟨writeProgram .byte, address, value.setWidth 32⟩
  | read32 address, access => access = ⟨readProgram .word, address, 0⟩
  | read16 address, access => access = ⟨readProgram .half, address, 0⟩
  | readBlock address length, access => LoadsWithin address length access
  | runWrite program address value, access => access = ⟨program, address, value⟩
  | runRead program address, access => access = ⟨program, address, 0⟩

/-- One operation after another, whatever each returns. -/
def memOps (link : Link) : List MemOp → Program Usb Unit
  | [] => return
  | operation :: rest => do
      let _ ← (operation.operation link).run
      memOps link rest

theorem discard_accesses {α : Type} {makes : Access → Prop} {operation : Fallible α}
    (h : Establishes operation (AllowsAccesses makes) fun made _ => Completed makes made) :
    Establishes (do let _ ← operation : Fallible Unit) (AllowsAccesses makes)
      fun made _ => Completed makes made :=
  Establishes.andThen h fun made _ hmade => Establishes.ok (by rwa [List.append_nil])

theorem MemOp.operation_accesses (link : Link) (operation : MemOp) :
    Establishes (operation.operation link) (AllowsAccesses operation.Makes)
      fun made _ => Completed operation.Makes made := by
  cases operation with
  | write32 address value => exact discard_accesses (dmRun_accesses false rfl)
  | write16 address value => exact discard_accesses (dmRun_accesses false rfl)
  | write8 address value => exact discard_accesses (dmRun_accesses false rfl)
  | read32 address => exact discard_accesses (dmRun_accesses true rfl)
  | read16 address =>
      exact discard_accesses (Establishes.andThen (dmRun_accesses true rfl)
        fun made _ hmade => Establishes.ok (by rwa [List.append_nil]))
  | readBlock address length => exact discard_accesses (filled_accesses link address length)
  | runWrite program address value => exact discard_accesses (dmRun_accesses false rfl)
  | runRead program address => exact discard_accesses (dmRun_accesses true rfl)

/-- The exchanges of a sequence that has come to the point of a postexec
command: the operations before the current one have run, the current one's
accesses so far have succeeded and its next access is staged. -/
def StagedIn (link : Link) (operations : List MemOp) (made : List Exchange) : Prop :=
  ∃ earlier operation later past before staged access,
    operations = earlier ++ operation :: later ∧ made = past ++ (before ++ staged) ∧
      (memOps link earlier).Yields past () ∧ Completed operation.Makes before ∧
        operation.Makes access ∧ Staged access staged

theorem memOps_follows (link : Link) (operations : List MemOp) :
    (memOps link operations).Follows
      (fun made request => Postexec request → StagedIn link operations made)
      fun _ _ => True := by
  induction operations with
  | nil => trivial
  | cons operation rest ih =>
      have hcurrent (made : List Exchange) (request : List Byte)
          (hallowed : AllowsAccesses operation.Makes made request) (hpostexec : Postexec request) :
          StagedIn link (operation :: rest) made := by
        obtain ⟨before, staged, access, rfl, hbefore, haccess, hstaged⟩ := hallowed hpostexec
        exact ⟨[], operation, rest, [], before, staged, access, rfl, rfl, .refl _ _, hbefore,
          haccess, hstaged⟩
      refine Program.Follows.bind ((operation.operation_accesses link).yields.mono hcurrent
        fun _ _ h => h) (fun made status hstatus => ?_) fun _ _ => trivial
      refine ih.mono (fun more request hallowed hpostexec => ?_) fun _ _ h => h
      obtain ⟨earlier, current, later, past, before, staged, access, rfl, rfl, hpast, hstaged⟩ :=
        hallowed hpostexec
      have hyields : (memOps link (operation :: earlier)).Yields (made ++ past) () :=
        (hstatus.2 status rfl).bind hpast
      exact ⟨operation :: earlier, current, later, made ++ past, before, staged, access, rfl,
        (List.append_assoc _ _ _).symm, hyields, hstaged⟩

/-- Whatever the programmer answers, a postexec command is only sent once its
own access is staged and nothing before it in its operation has failed. -/
theorem memOps_postexec_staged {σ : Type} (world : World Usb σ) (link : Link)
    (operations : List MemOp) (start final : σ) (trace : List Exchange) (request : List Byte)
    (next : Except Int (List Byte) → Program Usb Unit)
    (hrun : Program.Run world (memOps link operations) start trace (.call request next) final)
    (hpostexec : Postexec request) : StagedIn link operations trace :=
  (memOps_follows link operations).allowed_of_run hrun hpostexec

/-- A programmer that acknowledges everything. -/
def ackAll : Handler Usb Unit :=
  fun _ state => (.ok [0x82, 0x08, 0x06, 0, 0, 0, 0, 0, 0], state)

/-- The exchanges before a word store's postexec command. -/
def storeTrace : List Exchange :=
  [regRequest wlDmiDmabstractauto 0 wlRegOpWrite,
    regRequest wlDmiDmprogbuf0 (wlRvStore 2 8 9) wlRegOpWrite,
    regRequest (wlDmiDmprogbuf0 + 1) wlRvEbreak wlRegOpWrite,
    regRequest wlDmiData0 0x20000000 wlRegOpWrite,
    regRequest wlDmiDmcommand 0x00231009 wlRegOpWrite,
    regRequest wlDmiDmabstractcs 0 wlRegOpRead,
    regRequest wlDmiData0 5 wlRegOpWrite].map fun request =>
      ⟨request, .ok [0x82, 0x08, 0x06, 0, 0, 0, 0, 0, 0]⟩

theorem memOps_postexec_staged_store :
    StagedIn wlLinkeAttachTransport [.write32 0x20000000 5] storeTrace :=
  memOps_postexec_staged ackAll.world wlLinkeAttachTransport [.write32 0x20000000 5] () ()
    storeTrace (regRequest wlDmiDmcommand runCommand wlRegOpWrite) _
    (.step rfl (.step rfl (.step rfl (.step rfl (.step rfl (.step rfl (.step rfl
      (.refl _ _)))))))) ⟨runCommand, rfl, by decide⟩

end WchLink
