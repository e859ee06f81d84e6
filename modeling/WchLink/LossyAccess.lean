import WchLink.Interaction.Triple
import WchLink.Layers
import WchLink.SimulatorRegisters

/-! # Accesses over a transport that loses requests

A request may be lost, and so may the answer to a request that was carried out.
An access that succeeds has then been made all the same; one that fails has been
made or has not, and nothing else of the target has changed.
-/

namespace WchLink

open Bytes Interaction

/-- A request is answered by the programmer, or it fails, lost or carried out. -/
def unreliable : World Usb Sim := fun sim request reply next =>
  (reply = (simCommand request sim).1 ∧ next = (simCommand request sim).2) ∨
    ∃ code, reply = .error code ∧ (next = sim ∨ next = (simCommand request sim).2)

theorem unreliable.next {sim next : Sim} {request : List Byte} {reply : Except Int (List Byte)}
    (h : unreliable sim request reply next) : next = sim ∨ next = (simCommand request sim).2 := by
  rcases h with ⟨-, hnext⟩ | ⟨_, -, hnext⟩
  · exact .inr hnext
  · exact hnext

/-! ## Register accesses -/

theorem simRegister_next (sim : Sim) (reg : Byte) (value : Word) (operation : Byte) :
    (simRegister sim reg value operation).2 = sim ∨
      (simRegister sim reg value operation).2 = sim.dmiWrite reg value := by
  unfold simRegister
  split_ifs
  · exact .inl rfl
  · exact .inr rfl
  · exact .inl rfl
  · exact .inl rfl

/-- The programs that preserve a fact besides the invariant, whatever is lost. -/
abbrev lossyClass (invariant fact : Sim → Prop) : ProgramClass Usb :=
  Program.preserving unreliable (fun sim _ => invariant sim) fun sim => invariant sim ∧ fact sim

theorem lossyClass_request {invariant fact : Sim → Prop} {request : List Byte}
    (h : ∀ sim, invariant sim → fact sim → invariant (simCommand request sim).2 ∧
      fact (simCommand request sim).2) :
    (lossyClass invariant fact).Mem (transportCommand request) := by
  apply Program.preserving_perform fun _ hsim => hsim.1
  intro sim reply next hsim hnext
  rcases hnext.next with rfl | rfl
  · exact hsim
  · exact h sim hsim.1 hsim.2

theorem lossyClass_register {invariant fact : Sim → Prop} {reg : Byte} (link : Link)
    (h : ∀ sim value, invariant sim → fact sim →
      invariant (sim.dmiWrite reg value) ∧ fact (sim.dmiWrite reg value)) :
    HasRegister (lossyClass invariant fact) link reg := by
  intro value operation
  apply regAccess_mem
  apply lossyClass_request
  intro sim hinvariant hfact
  rw [simCommand_regRequest]
  dsimp only
  rcases simRegister_next sim reg value operation with hsame | hwritten
  · rw [hsame]
    exact ⟨hinvariant, hfact⟩
  · rw [hwritten]
    exact h sim value hinvariant hfact

/-- On a link that is not open nothing is requested. -/
theorem regAccess_unusable {link : Link} (hlink : ¬link.Usable) (reg : Byte) (value : Word)
    (operation : Byte) : (regAccess link reg value operation).run = pure (.error .usb) := by
  have hclosed : (!link.isOpen || !link.transport) = true := by
    by_contra hopen
    rw [Bool.not_eq_true, Bool.or_eq_false_iff, Bool.not_eq_false', Bool.not_eq_false'] at hopen
    exact hlink ⟨hopen.1, hopen.2⟩
  unfold regAccess wlLinkeCommand
  rw [hclosed]
  rfl

/-- What a register access may come to, by its request. -/
theorem regAccess_lossy {guard : Guard Usb Sim} (link : Link) (reg : Byte) (value : Word)
    (operation : Byte) {sim : Sim} (hguard : guard sim (regRequest reg value operation)) :
    (regAccess link reg value operation).run.wp unreliable guard (fun status next =>
      (next = sim ∨ next = (simRegister sim reg value operation).2) ∧
        ∀ word, status = some (.ok word) →
          regAnswer (.ok (simRegister sim reg value operation).1) = .ok word ∧
            next = (simRegister sim reg value operation).2) sim := by
  by_cases hlink : link.Usable
  · rw [regAccess_eq hlink]
    refine ⟨hguard, fun reply next hnext => ?_⟩
    have hcommand := simCommand_regRequest reg value operation sim
    rcases hnext with ⟨rfl, rfl⟩ | ⟨code, rfl, hnext⟩
    · rw [hcommand]
      exact ⟨.inr rfl, fun word hword => ⟨Option.some.inj hword, rfl⟩⟩
    · rw [hcommand] at hnext
      refine ⟨hnext, fun word hword => ?_⟩
      cases hword
  · rw [regAccess_unusable hlink]
    exact ⟨.inl rfl, nofun⟩

/-- A register access that is acknowledged was made by a configured programmer. -/
theorem simRegister_acknowledged {sim : Sim} {reg : Byte} {value word : Word} {operation : Byte}
    (h : regAnswer (.ok (simRegister sim reg value operation).1) = .ok word) :
    sim.configured = true := by
  by_contra hconfigured
  have hrefused : simRegister sim reg value operation = (simRefuse, sim) := by
    unfold simRegister
    rw [Bool.eq_false_iff.mpr hconfigured]
    rfl
  rw [hrefused] at h
  cases h

theorem simRegister_write {sim : Sim} (hconfigured : sim.configured = true) (reg : Byte)
    (value : Word) : simRegister sim reg value wlRegOpWrite =
      (simRegReply reg (simDmiRead (sim.dmiWrite reg value).dm reg), sim.dmiWrite reg value) := by
  unfold simRegister
  rw [if_neg (by rw [hconfigured]; decide)]
  rfl

theorem simRegister_read {sim : Sim} (hconfigured : sim.configured = true) (reg : Byte) :
    simRegister sim reg 0 wlRegOpRead = (simRegReply reg (simDmiRead sim.dm reg), sim) := by
  unfold simRegister
  rw [if_neg (by rw [hconfigured]; decide)]
  rfl

/-! ## Commands -/

section Commands

open Program

variable {link : Link} {command : Word} {invariant before after : Sim → Prop}

/-- A register write that is acknowledged has been carried out. -/
theorem wlLinkeDmiWrite_triple {reg : Byte} {value : Word}
    (h : ∀ sim, invariant sim → before sim →
      invariant (sim.dmiWrite reg value) ∧ after (sim.dmiWrite reg value)) :
    Triple unreliable invariant before (wlLinkeDmiWrite link reg value) fun _ => after := by
  intro sim hinvariant hbefore
  have haccess : Triple unreliable invariant (fun state => state = sim)
      (regAccess link reg value wlRegOpWrite) fun _ => after := by
    rintro state hinvariant rfl
    refine wp_mono (regAccess_lossy link reg value wlRegOpWrite hinvariant) ?_
    rintro status next ⟨hnext, hok⟩
    constructor
    · rcases hnext with rfl | rfl
      · exact hinvariant
      · rcases simRegister_next state reg value wlRegOpWrite with hsame | hwritten
        · rw [hsame]
          exact hinvariant
        · rw [hwritten]
          exact (h state hinvariant hbefore).1
    · intro word hword
      obtain ⟨hanswer, rfl⟩ := hok word hword
      rw [simRegister_write (simRegister_acknowledged hanswer)]
      exact (h state hinvariant hbefore).2
  exact haccess.andThen (fun _ => Triple.ok fun _ _ hafter => hafter) sim hinvariant rfl

/-- A register read that is acknowledged reports the register. -/
theorem wlLinkeDmiRead_triple {reg : Byte} :
    Triple unreliable invariant before (wlLinkeDmiRead link reg)
      fun word sim => before sim ∧ word = simDmiRead sim.dm reg := by
  intro sim hinvariant hbefore
  refine wp_mono (regAccess_lossy link reg 0 wlRegOpRead hinvariant) ?_
  rintro status next ⟨hnext, hok⟩
  have hsame : (simRegister sim reg 0 wlRegOpRead).2 = sim := by
    unfold simRegister
    split_ifs with hrefused hwrite
    · rfl
    · exact absurd hwrite (by decide)
    · rfl
    · rfl
  rw [hsame, or_self] at hnext
  subst hnext
  refine ⟨hinvariant, fun word hword => ⟨hbefore, ?_⟩⟩
  obtain ⟨hanswer, -⟩ := hok word hword
  rw [simRegister_read (simRegister_acknowledged hanswer),
    regAnswer_ok (acknowledged_simRegReply _ _)] at hanswer
  exact (Except.ok.inj hanswer).symm

/-- Waiting for a command keeps what writing ABSTRACTCS keeps. -/
theorem dmWait_triple
    (h : ∀ sim value, invariant sim → before sim →
      invariant (sim.dmiWrite wlDmiDmabstractcs value) ∧
        before (sim.dmiWrite wlDmiDmabstractcs value)) :
    Triple unreliable invariant before (dmWait link) fun _ => before :=
  .of_preserving (dmWait_polls (lossyClass_register link h))

/-- A command leads from one phase of an access to the next. -/
theorem dmCommand_triple {value : Word}
    (hdata : ∀ sim, invariant sim → before sim → invariant (sim.dmiWrite wlDmiData0 value))
    (hcommand : ∀ sim, invariant sim → before sim →
      invariant ((sim.dmiWrite wlDmiData0 value).dmiWrite wlDmiDmcommand command) ∧
        after ((sim.dmiWrite wlDmiData0 value).dmiWrite wlDmiDmcommand command))
    (hwait : ∀ sim value, invariant sim → after sim →
      invariant (sim.dmiWrite wlDmiDmabstractcs value) ∧
        after (sim.dmiWrite wlDmiDmabstractcs value)) :
    Triple unreliable invariant before (dmCommand link command value true false)
      fun _ => after := by
  have hgive : Triple unreliable invariant before (wlLinkeDmiWrite link wlDmiData0 value)
      fun _ given => ∃ sim, invariant sim ∧ before sim ∧ given = sim.dmiWrite wlDmiData0 value :=
    wlLinkeDmiWrite_triple fun sim hinvariant hbefore =>
      ⟨hdata sim hinvariant hbefore, sim, hinvariant, hbefore, rfl⟩
  unfold dmCommand
  rw [if_pos rfl]
  apply hgive.andThen
  intro _
  apply Triple.andThen (wlLinkeDmiWrite_triple ?_)
  · intro _
    exact (dmWait_triple hwait).andThen fun _ => Triple.ok fun _ _ hafter => hafter
  · rintro _ _ ⟨sim, hinvariant, hbefore, rfl⟩
    exact hcommand sim hinvariant hbefore

/-- A command that reads reports what it left in DATA0. -/
theorem dmCommand_triple_read
    (hcommand : ∀ sim, invariant sim → before sim →
      invariant (sim.dmiWrite wlDmiDmcommand command) ∧ after (sim.dmiWrite wlDmiDmcommand command))
    (hwait : ∀ sim value, invariant sim → after sim →
      invariant (sim.dmiWrite wlDmiDmabstractcs value) ∧
        after (sim.dmiWrite wlDmiDmabstractcs value)) :
    Triple unreliable invariant before (dmCommand link command 0 false true)
      fun word sim => after sim ∧ word = simDmiRead sim.dm wlDmiData0 := by
  unfold dmCommand
  simp only [Bool.false_eq_true, if_false, if_true]
  apply (wlLinkeDmiWrite_triple hcommand).andThen
  intro _
  apply (dmWait_triple hwait).andThen
  intro _
  exact wlLinkeDmiRead_triple

end Commands

/-! ## Access programs -/

/-- The registers but x8 and x9 are as they were, as a debugger numbers them. -/
def Sim.KeepsRegisters (before after : Sim) : Prop :=
  ∀ reg, reg ≠ 8 → reg ≠ 9 → after.register reg = before.register reg

theorem Sim.KeepsRegisters.refl (sim : Sim) : sim.KeepsRegisters sim := fun _ _ _ => rfl

theorem Sim.KeepsRegisters.trans {first second third : Sim} (h : first.KeepsRegisters second)
    (h' : second.KeepsRegisters third) : first.KeepsRegisters third :=
  fun reg h8 h9 => (h' reg h8 h9).trans (h reg h8 h9)

theorem Sim.KeepsRegisters.of_module {before after : Sim} (hpc : after.dm.dpc = before.dm.dpc)
    (hgpr : ∀ reg, reg ≠ 8 → reg ≠ 9 → after.dm.gpr reg = before.dm.gpr reg) :
    before.KeepsRegisters after := by
  intro reg h8 h9
  unfold Sim.register
  rw [hpc, hgpr reg h8 h9]

/-- What an instruction that accesses memory comes to, run with the address in x9
and the value in x8. -/
structure AccessInstruction (instruction address value : Word) (effect : SimTarget → SimTarget)
    (result : SimTarget → Word) : Prop where
  runs : ∀ (dm : SimModule) (target : SimTarget), AccessProgram instruction dm →
    dm.gpr 9 = address → dm.gpr 8 = value → ∃ after,
      simRunProgbuf simMaxSteps dm target = (after, effect target, true) ∧
        after.gpr 8 = result target ∧ after.dpc = dm.dpc ∧
          ∀ reg, reg ≠ 8 → after.gpr reg = dm.gpr reg

theorem accessInstruction_store (size : Width) (address value : Word) :
    AccessInstruction (wlRvStore size.log2 8 9) address value
      (fun target => target.store size address value) fun _ => value where
  runs := by
    rintro dm target hprogram rfl rfl
    exact ⟨_, simRunProgbuf_store 254 target size hprogram, rfl, rfl, fun _ _ => rfl⟩

theorem accessInstruction_load (size : Width) (address : Word) :
    AccessInstruction (loadWord size) address 0 (fun target => target.afterLoad size address)
      fun target => target.loaded size address where
  runs := by
    rintro dm target hprogram rfl -
    have hresult : (((dm.setGpr 8 (target.loaded size (dm.gpr 9))).advance 4).gpr 8) =
        target.loaded size (dm.gpr 9) := by
      simp [SimModule.setGpr, SimModule.advance]
    exact ⟨_, simRunProgbuf_load 254 target size hprogram, hresult, rfl,
      fun _ h8 => Function.update_of_ne h8 _ _⟩

/-- The access has been made or it has not. -/
structure Sim.Between (start : Sim) (accessed : SimTarget) (sim : Sim) : Prop where
  registers : start.KeepsRegisters sim
  target : sim.target = start.target ∨ sim.target = accessed

/-- The access has not been made yet. -/
structure Sim.Waiting (start sim : Sim) : Prop where
  registers : start.KeepsRegisters sim
  target : sim.target = start.target

/-- The program of the access has been loaded. -/
structure Sim.Loaded (start : Sim) (instruction : Word) (sim : Sim) : Prop
    extends start.Waiting sim where
  first : sim.dm.progbuf 0 = instruction
  second : sim.dm.progbuf 1 = wlRvEbreak

/-- So has the address. -/
structure Sim.Addressed (start : Sim) (instruction address : Word) (sim : Sim) : Prop
    extends start.Loaded instruction sim where
  address : sim.dm.gpr 9 = address

/-- The access has been made. -/
structure Sim.Accessed (start : Sim) (accessed : SimTarget) (result : Word) (sim : Sim) : Prop where
  registers : start.KeepsRegisters sim
  target : sim.target = accessed
  result : sim.dm.gpr 8 = result

section Access

open Program

variable {link : Link} {start : Sim} {accessed : SimTarget}
    {instruction address value result : Word}

theorem Sim.Waiting.between {sim : Sim} (h : start.Waiting sim) : start.Between accessed sim :=
  ⟨h.registers, .inl h.target⟩

theorem Sim.Accessed.between {sim : Sim} (h : start.Accessed accessed result sim) :
    start.Between accessed sim :=
  ⟨h.registers, .inr h.target⟩

/-- Before the access only the core's and the module's registers are written. -/
theorem Sim.Waiting.write {sim after : Sim} (h : start.Waiting sim)
    (hregisters : sim.KeepsRegisters after) (htarget : after.target = sim.target) :
    start.Waiting after :=
  ⟨h.registers.trans hregisters, htarget.trans h.target⟩

theorem dmLoadProgram_triple :
    Triple unreliable (start.Between accessed) (fun sim => sim = start)
      (dmLoadProgram link [instruction, wlRvEbreak]) fun _ => start.Loaded instruction := by
  have hprogram : dmLoadProgram link [instruction, wlRvEbreak] = (do
      wlLinkeDmiWrite link wlDmiDmabstractauto 0
      wlLinkeDmiWrite link (wlDmiDmprogbuf0 + BitVec.ofNat 8 0) instruction
      wlLinkeDmiWrite link (wlDmiDmprogbuf0 + BitVec.ofNat 8 1) wlRvEbreak
      return : Fallible Unit) := rfl
  have hauto : Triple unreliable (start.Between accessed) (fun sim => sim = start)
      (wlLinkeDmiWrite link wlDmiDmabstractauto 0) fun _ => start.Waiting := by
    apply wlLinkeDmiWrite_triple
    rintro sim - rfl
    have hwaiting : sim.Waiting (sim.dmiWrite wlDmiDmabstractauto 0) :=
      ⟨.of_module rfl fun _ _ _ => rfl, rfl⟩
    exact ⟨hwaiting.between, hwaiting⟩
  have hfirst : Triple unreliable (start.Between accessed) start.Waiting
      (wlLinkeDmiWrite link (wlDmiDmprogbuf0 + BitVec.ofNat 8 0) instruction)
      fun _ sim => start.Waiting sim ∧ sim.dm.progbuf 0 = instruction := by
    apply wlLinkeDmiWrite_triple
    intro sim _ hsim
    have hwaiting : start.Waiting
        (sim.dmiWrite (wlDmiDmprogbuf0 + BitVec.ofNat 8 0) instruction) :=
      hsim.write (.of_module rfl fun _ _ _ => rfl) rfl
    exact ⟨hwaiting.between, hwaiting, rfl⟩
  have hsecond : Triple unreliable (start.Between accessed)
      (fun sim => start.Waiting sim ∧ sim.dm.progbuf 0 = instruction)
      (wlLinkeDmiWrite link (wlDmiDmprogbuf0 + BitVec.ofNat 8 1) wlRvEbreak)
      fun _ => start.Loaded instruction := by
    apply wlLinkeDmiWrite_triple
    intro sim _ hsim
    have hwaiting : start.Waiting
        (sim.dmiWrite (wlDmiDmprogbuf0 + BitVec.ofNat 8 1) wlRvEbreak) :=
      hsim.1.write (.of_module rfl fun _ _ _ => rfl) rfl
    exact ⟨hwaiting.between, hwaiting, hsim.2, rfl⟩
  rw [hprogram]
  apply hauto.andThen
  intro _
  apply hfirst.andThen
  intro _
  apply hsecond.andThen
  intro _
  exact Triple.ok fun _ _ h => h

theorem wlDmGprWrite_triple :
    Triple unreliable (start.Between accessed) (start.Loaded instruction)
      (wlDmGprWrite link 9 address) fun _ => start.Addressed instruction address := by
  have hcommand : Triple unreliable (start.Between accessed) (start.Loaded instruction)
      (dmCommand link (gprWriteCommand 9) address true false)
      fun _ => start.Addressed instruction address := by
    apply dmCommand_triple
    · intro sim _ hsim
      have hwaiting : start.Waiting (sim.dmiWrite wlDmiData0 address) :=
        hsim.write (.of_module rfl fun _ _ _ => rfl) rfl
      exact hwaiting.between
    · intro sim _ hsim
      have hwaiting : start.Waiting
          ((sim.dmiWrite wlDmiData0 address).dmiWrite wlDmiDmcommand (gprWriteCommand 9)) :=
        hsim.write (.of_module rfl fun _ _ h9 => Function.update_of_ne h9 _ _) rfl
      exact ⟨hwaiting.between, ⟨hwaiting, hsim.first, hsim.second⟩, rfl⟩
    · intro sim word _ hsim
      have hwaiting : start.Waiting (sim.dmiWrite wlDmiDmabstractcs word) :=
        hsim.write (.of_module rfl fun _ _ _ => rfl) rfl
      exact ⟨hwaiting.between, ⟨hwaiting, hsim.first, hsim.second⟩, hsim.address⟩
  unfold wlDmGprWrite
  rw [if_neg (by decide)]
  exact hcommand.andThen fun _ => Triple.ok fun _ _ h => h

/-- The module when the program buffer is entered: x8 has been set. -/
def SimModule.entered (dm : SimModule) (value : Word) : SimModule :=
  { ((dm.setDmi wlDmiData0 value).setDmi wlDmiDmcommand runCommand).setGpr 8 value with pc := 0 }

theorem Sim.dmiWrite_runCommand (sim : Sim) (value : Word) :
    (sim.dmiWrite wlDmiData0 value).dmiWrite wlDmiDmcommand runCommand =
      { sim with
        dm := (simRunProgbuf simMaxSteps (sim.dm.entered value) sim.target).1
        target := (simRunProgbuf simMaxSteps (sim.dm.entered value) sim.target).2.1 } := by
  rfl

variable {effect : SimTarget → SimTarget} {output : SimTarget → Word}

theorem runCommand_triple (h : AccessInstruction instruction address value effect output) :
    Triple unreliable (start.Between (effect start.target)) (start.Addressed instruction address)
      (dmCommand link runCommand value true false)
      fun _ => start.Accessed (effect start.target) (output start.target) := by
  apply dmCommand_triple
  · intro sim _ hsim
    have hwaiting : start.Waiting (sim.dmiWrite wlDmiData0 value) :=
      hsim.write (.of_module rfl fun _ _ _ => rfl) rfl
    exact hwaiting.between
  · intro sim _ hsim
    obtain ⟨after, hrun, hresult, hpc, hgpr⟩ := h.runs (sim.dm.entered value) start.target
      ⟨hsim.first, hsim.second, rfl⟩ hsim.address rfl
    rw [Sim.dmiWrite_runCommand, hsim.target, hrun]
    have hkeeps : sim.KeepsRegisters
        { sim with dm := after, target := effect start.target } := by
      refine .of_module hpc fun reg h8 h9 => (hgpr reg h8).trans ?_
      exact Function.update_of_ne h8 _ _
    have haccessed : start.Accessed (effect start.target) (output start.target)
        { sim with dm := after, target := effect start.target } :=
      ⟨hsim.registers.trans hkeeps, rfl, hresult⟩
    exact ⟨haccessed.between, haccessed⟩
  · intro sim word _ hsim
    have haccessed : start.Accessed (effect start.target) (output start.target)
        (sim.dmiWrite wlDmiDmabstractcs word) :=
      ⟨hsim.registers.trans (.of_module rfl fun _ _ _ => rfl), hsim.target, hsim.result⟩
    exact ⟨haccessed.between, haccessed⟩

theorem wlDmGprRead_triple :
    Triple unreliable (start.Between accessed) (start.Accessed accessed result)
      (wlDmGprRead link 8) fun word sim => start.Accessed accessed result sim ∧ word = result := by
  have hcommand : Triple unreliable (start.Between accessed) (start.Accessed accessed result)
      (dmCommand link (gprReadCommand 8) 0 false true) fun word sim =>
        (start.Accessed accessed result sim ∧ sim.dm.dmi wlDmiData0 = result) ∧
          word = simDmiRead sim.dm wlDmiData0 := by
    apply dmCommand_triple_read
    · intro sim _ hsim
      have haccessed : start.Accessed accessed result
          (sim.dmiWrite wlDmiDmcommand (gprReadCommand 8)) :=
        ⟨hsim.registers.trans (.of_module rfl fun _ _ _ => rfl), hsim.target, hsim.result⟩
      exact ⟨haccessed.between, haccessed, hsim.result⟩
    · intro sim word _ hsim
      have haccessed : start.Accessed accessed result (sim.dmiWrite wlDmiDmabstractcs word) :=
        ⟨hsim.1.registers.trans (.of_module rfl fun _ _ _ => rfl), hsim.1.target, hsim.1.result⟩
      exact ⟨haccessed.between, haccessed, hsim.2⟩
  unfold wlDmGprRead
  rw [if_neg (by decide)]
  exact hcommand.weaken (fun _ _ h => h) fun _ _ _ h => ⟨h.1.1, h.2.trans h.1.2⟩

/-- An access that succeeds has been made once; one that fails has been made once
or not at all. -/
theorem dmRun_triple (h : AccessInstruction instruction address value effect output) (start : Sim)
    (wanted : Bool) :
    Triple unreliable (start.Between (effect start.target)) (fun sim => sim = start)
      (dmRun link [instruction, wlRvEbreak] address value wanted) fun word sim =>
        sim.target = effect start.target ∧ (wanted = true → word = output start.target) := by
  unfold dmRun
  apply dmLoadProgram_triple.andThen
  intro _
  apply wlDmGprWrite_triple.andThen
  intro _
  apply (runCommand_triple h).andThen
  intro _
  cases wanted with
  | false => exact Triple.ok fun sim _ hsim => ⟨hsim.target, nofun⟩
  | true => exact wlDmGprRead_triple.weaken (fun _ _ h => h) fun _ _ _ h =>
      ⟨h.1.target, fun _ => h.2⟩

end Access

end WchLink
