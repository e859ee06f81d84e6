import WchLink.Riscv
import WchLink.Simulator

/-! # The encoder and the interpreter

The words the encoder builds, run by the simulator's interpreter of the program
buffer, against what the instructions do.
-/

namespace WchLink

open Bytes Riscv

/-- A store's size as the encoder takes it. -/
def storeSize : StoreKind → Word
  | .sb => 0
  | .sh => 1
  | .sw => 2

/-- A load's `funct3` field. -/
def loadFunct3 : LoadKind → Word
  | .lb => 0
  | .lh => 1
  | .lw => 2
  | .lbu => 4
  | .lhu => 5

/-- The word the encoder builds for an instruction. -/
def encode : Instruction → Word
  | .store kind src base => wlRvStore (storeSize kind) (src.setWidth 32) (base.setWidth 32)
  | .load kind dest base => wlRvLoad (loadFunct3 kind) (dest.setWidth 32) (base.setWidth 32)
  | .addi dest src immediate =>
      wlRvAddi (dest.setWidth 32) (src.setWidth 32) (immediate.signExtend 32)
  | .bne src1 src2 offset => wlRvBne (src1.setWidth 32) (src2.setWidth 32) (byteOffset offset)

/-- The simulated target as the core's memory. -/
def simMemory : Memory SimTarget where
  load target address sizeLog2 :=
    ((simAccess target address sizeLog2 false 0).2, (simAccess target address sizeLog2 false 0).1)
  store target address sizeLog2 value := (simAccess target address sizeLog2 true value).1

/-- The halted core with its memory. -/
def simCore (dm : SimModule) (target : SimTarget) : Core SimTarget :=
  { pc := dm.pc, regs := dm.gpr, memory := target }

/-- The module and the target with the core moved on. -/
def withCore (dm : SimModule) (core : Core SimTarget) : SimModule × SimTarget :=
  ({ dm with pc := core.pc, gpr := core.regs }, core.memory)

/-- What the interpreter does behind one instruction. -/
def resumeProgbuf (steps : Nat) (state : SimModule × SimTarget) : SimModule × SimTarget × Bool :=
  if state.1.pc / 4 ≥ 8 then
    (state.1.fault, state.2, false)
  else
    simRunProgbuf steps state.1 state.2

/-- Within any budget the instruction at the program counter does to the core
and its memory what it is meant to do. -/
def Executes (instruction : Instruction) (dm : SimModule) (target : SimTarget) : Prop :=
  ∀ steps, simRunProgbuf (steps + 1) dm target =
    resumeProgbuf steps (withCore dm ((simCore dm target).execute simMemory instruction))

/-! ## Where they agree -/

/-- The controller takes all 32 bits of a store. At `register` it takes `value`
as it takes the low bits of it alone. -/
def TakesLowBits (target : SimTarget) (register value low : Word) : Prop :=
  (register = simFlashKeyr → value ≠ simKey1 ∧
    (value = simKey2 → target.keyStage = 1 → target.unlocked = true)) ∧
  (register = simFlashModekeyr → value ≠ simKey1 ∧
    (value = simKey2 → target.modeKeyStage = 1 → target.modeUnlocked = true)) ∧
  (register = simFlashAddr ∨ register = simFlashCtlr → value = low)

/-- The instructions and states the interpreter is right about: no narrow store
of a wide register to the controller, no narrow load whose answer is wider than
the load or extended the other way, and no branch taken whose offset has bit
11 set. -/
def Interpreted (dm : SimModule) (target : SimTarget) : Instruction → Prop
  | .store kind src base => kind = .sw ∨ simIsCtrl (dm.gpr base.toNat) = false ∨
      TakesLowBits target (dm.gpr base.toNat &&& ~~~3) (dm.gpr src.toNat)
        (kind.narrow (dm.gpr src.toNat))
  | .load kind dest base => dest = 0 ∨ kind = .lw ∨ kind = .lbu ∨
      kind.widen (simAccess target (dm.gpr base.toNat) kind.sizeLog2 false 0).2 =
        (simAccess target (dm.gpr base.toNat) kind.sizeLog2 false 0).2
  | .addi _ _ _ => True
  | .bne src1 src2 offset =>
      dm.gpr src1.toNat = dm.gpr src2.toNat ∨ offset.getLsbD 10 = false

/-! ## Sign extension -/

theorem xor_eq_add_of_and {value mask : Word} (h : value &&& mask = 0) :
    value ^^^ mask = value + mask := by
  rw [BitVec.add_eq_or_of_and_eq_zero _ _ h]
  apply BitVec.eq_of_getLsbD_eq
  intro i hi
  have hbit := congrArg (·.getLsbD i) h
  simp only [BitVec.getLsbD_and, BitVec.getLsbD_zero, BitVec.ofNat_eq_ofNat] at hbit
  rw [BitVec.getLsbD_xor, BitVec.getLsbD_or]
  revert hbit
  cases value.getLsbD i <;> cases mask.getLsbD i <;> simp

theorem xor_eq_sub_of_and {value mask : Word} (h : value &&& mask = mask) :
    value ^^^ mask = value - mask := by
  have hclear : (value ^^^ mask) &&& mask = 0 := by
    apply BitVec.eq_of_getLsbD_eq
    intro i hi
    have hbit := congrArg (·.getLsbD i) h
    simp only [BitVec.getLsbD_and] at hbit
    simp only [BitVec.getLsbD_and, BitVec.getLsbD_xor, BitVec.ofNat_eq_ofNat, BitVec.getLsbD_zero]
    revert hbit
    cases value.getLsbD i <;> cases mask.getLsbD i <;> simp
  have hsum := xor_eq_add_of_and hclear
  rw [BitVec.xor_assoc, BitVec.xor_self, BitVec.xor_zero] at hsum
  calc value ^^^ mask = (value ^^^ mask) + mask - mask := by rw [BitVec.add_sub_cancel]
    _ = value - mask := by rw [← hsum]

theorem and_signBit {w : Nat} (value : BitVec w) (hpos : 0 < w) :
    value.setWidth 32 &&& (1#32 <<< (w - 1)) =
      if value.msb then 1#32 <<< (w - 1) else 0#32 := by
  ext i hi
  rw [BitVec.msb_eq_getLsbD_last value]
  by_cases hlast : i = w - 1
  · subst hlast
    cases h : value.getLsbD (w - 1) <;> simp [h]
  · have hbit : (1#32 <<< (w - 1))[i] = false := by
      simp
      omega
    rw [BitVec.getElem_and, hbit, Bool.and_false]
    split
    · exact hbit.symm
    · simp

/-- An exclusive or with the sign bit and a subtraction of it extend the sign. -/
theorem signExtend_setWidth {w : Nat} (value : BitVec w) (hpos : 0 < w) (hw : w ≤ 32) :
    signExtend (value.setWidth 32) w = value.signExtend 32 := by
  have hmask := and_signBit value hpos
  change (value.setWidth 32 ^^^ (1#32 <<< (w - 1))) - (1#32 <<< (w - 1)) = value.signExtend 32
  have hsign : 2 * (1#32 <<< (w - 1)).toNat = 2 ^ w := by
    have hlt : 2 ^ (w - 1) < 2 ^ 32 := Nat.pow_lt_pow_right (by decide) (by omega)
    have hdouble : 2 ^ w = 2 * 2 ^ (w - 1) := by
      rw [← Nat.pow_succ']
      congr 1
      omega
    rw [hdouble, BitVec.toNat_shiftLeft, Nat.shiftLeft_eq]
    simp
    omega
  generalize 1#32 <<< (w - 1) = mask at *
  cases hmsb : value.msb with
  | false =>
      rw [hmsb] at hmask
      rw [xor_eq_add_of_and (by simpa using hmask), BitVec.add_sub_cancel,
        BitVec.signExtend_eq_setWidth_of_msb_false hmsb]
  | true =>
      rw [hmsb, if_pos rfl] at hmask
      rw [xor_eq_sub_of_and hmask]
      apply BitVec.eq_of_toNat_eq
      have := value.isLt
      have hpow : 2 ^ w ≤ 2 ^ 32 := Nat.pow_le_pow_right (by decide) hw
      rw [BitVec.toNat_signExtend, hmsb]
      simp only [BitVec.toNat_sub, BitVec.toNat_setWidth]
      simp
      omega

/-! ## The fields of a word -/

theorem and_or_distrib (first second mask : Word) :
    (first ||| second) &&& mask = first &&& mask ||| second &&& mask := by
  ext i hi
  simp only [BitVec.getElem_and, BitVec.getElem_or]
  cases first[i] <;> cases second[i] <;> cases mask[i] <;> rfl

/-- What the interpreter reads off a word, or off one of its parts. -/
structure Fields (part opcode rd funct3 rs1 high : Word) : Prop where
  opcode : part &&& 0x7f = opcode
  rd : (part >>> 7) &&& 0x1f = rd
  funct3 : (part >>> 12) &&& 0x7 = funct3
  rs1 : (part >>> 15) &&& 0x1f = rs1
  high : part >>> 20 = high

theorem Fields.or {first second opcode rd funct3 rs1 high opcode' rd' funct3' rs1' high' : Word}
    (h : Fields first opcode rd funct3 rs1 high)
    (h' : Fields second opcode' rd' funct3' rs1' high') :
    Fields (first ||| second) (opcode ||| opcode') (rd ||| rd') (funct3 ||| funct3') (rs1 ||| rs1')
      (high ||| high') := by
  constructor
  · rw [and_or_distrib, h.opcode, h'.opcode]
  · rw [BitVec.ushiftRight_or_distrib, and_or_distrib, h.rd, h'.rd]
  · rw [BitVec.ushiftRight_or_distrib, and_or_distrib, h.funct3, h'.funct3]
  · rw [BitVec.ushiftRight_or_distrib, and_or_distrib, h.rs1, h'.rs1]
  · rw [BitVec.ushiftRight_or_distrib, h.high, h'.high]

/-- A register number at its place in a word. -/
def registerPart (reg : BitVec 5) (place : Nat) : Word := (reg.setWidth 32 &&& 0x1f) <<< place

theorem setWidth_and_low (reg : BitVec 5) :
    (reg.setWidth 32 &&& 0x1f : Word) = reg.setWidth 32 := by
  revert reg
  decide

theorem registerPart_rd (reg : BitVec 5) :
    Fields (registerPart reg 7) 0 (reg.setWidth 32) 0 0 0 := by
  constructor
  all_goals
    revert reg
    decide

theorem registerPart_rs1 (reg : BitVec 5) :
    Fields (registerPart reg 15) 0 0 0 (reg.setWidth 32) 0 := by
  constructor
  all_goals
    revert reg
    decide

theorem registerPart_rs2 (reg : BitVec 5) :
    Fields (registerPart reg 20) 0 0 0 0 (reg.setWidth 32) := by
  constructor
  all_goals
    revert reg
    decide

/-- The immediate of `addi` lies above every other field. -/
theorem immediatePart_fields (immediate : BitVec 12) :
    Fields ((immediate.signExtend 32 &&& 0xfff) <<< 20) 0 0 0 0 (immediate.setWidth 32) := by
  constructor
  all_goals
    ext i hi
    interval_cases i <;> simp [BitVec.getElem_signExtend]

/-- The four pieces of a branch offset. -/
def offsetPart (offset : Word) : Word :=
  ((offset >>> 12) &&& 0x1) <<< 31 ||| ((offset >>> 5) &&& 0x3f) <<< 25 |||
    ((offset >>> 1) &&& 0xf) <<< 8 ||| ((offset >>> 11) &&& 0x1) <<< 7

theorem offsetPart_fields (offset : Word) :
    Fields (offsetPart offset) 0 ((offsetPart offset >>> 7) &&& 0x1f) 0 0
      (offsetPart offset >>> 20) := by
  constructor
  case rd | high => rfl
  all_goals
    ext i hi
    interval_cases i <;> simp [offsetPart]

/-- No piece of a branch offset lies over the second source. -/
theorem offsetPart_rs2 (offset : Word) : (offsetPart offset >>> 20) &&& 0x1f = 0 := by
  ext i hi
  interval_cases i <;> simp [offsetPart]

/-! ## Reading the encoder's words back -/

theorem encode_store (kind : StoreKind) (src base : BitVec 5) :
    Fields (encode (.store kind src base)) 0x23 0 (storeSize kind) (base.setWidth 32)
      (src.setWidth 32) := by
  have hsize : Fields ((storeSize kind &&& 0x7) <<< 12) 0 0 (storeSize kind) 0 0 := by
    cases kind <;> constructor <;> decide
  have hopcode : Fields 0x23 0x23 0 0 0 0 := by
    constructor <;> decide
  have hword := ((hsize.or (registerPart_rs2 src)).or (registerPart_rs1 base)).or hopcode
  have hencode : encode (.store kind src base) =
      (storeSize kind &&& 0x7) <<< 12 ||| registerPart src 20 ||| registerPart base 15 |||
        0x23 := rfl
  rw [hencode]
  simpa using hword

theorem encode_load (kind : LoadKind) (dest base : BitVec 5) :
    Fields (encode (.load kind dest base)) 0x03 (dest.setWidth 32) (loadFunct3 kind)
      (base.setWidth 32) 0 := by
  have hkind : Fields ((loadFunct3 kind &&& 0x7) <<< 12) 0 0 (loadFunct3 kind) 0 0 := by
    cases kind <;> constructor <;> decide
  have hopcode : Fields 0x03 0x03 0 0 0 0 := by
    constructor <;> decide
  have hword := ((hkind.or (registerPart_rs1 base)).or (registerPart_rd dest)).or hopcode
  have hencode : encode (.load kind dest base) =
      (loadFunct3 kind &&& 0x7) <<< 12 ||| registerPart base 15 ||| registerPart dest 7 |||
        0x03 := rfl
  rw [hencode]
  simpa using hword

theorem encode_addi (dest src : BitVec 5) (immediate : BitVec 12) :
    Fields (encode (.addi dest src immediate)) 0x13 (dest.setWidth 32) 0 (src.setWidth 32)
      (immediate.setWidth 32) := by
  have hopcode : Fields 0x13 0x13 0 0 0 0 := by
    constructor <;> decide
  have hword := (((immediatePart_fields immediate).or (registerPart_rs1 src)).or
    (registerPart_rd dest)).or hopcode
  have hencode : encode (.addi dest src immediate) =
      (immediate.signExtend 32 &&& 0xfff) <<< 20 ||| registerPart src 15 ||| registerPart dest 7 |||
      0x13 := rfl
  rw [hencode]
  simpa using hword

/-- The branch word by its pieces. -/
theorem encode_bne_eq (src1 src2 : BitVec 5) (offset : BitVec 12) :
    encode (.bne src1 src2 offset) =
      ((offsetPart (byteOffset offset) ||| registerPart src2 20) ||| registerPart src1 15) |||
        0x1063 := by
  unfold encode wlRvBne offsetPart registerPart
  ext i hi
  simp only [BitVec.getElem_or]
  interval_cases i <;> simp [Bool.or_comm]

theorem encode_bne (src1 src2 : BitVec 5) (offset : BitVec 12) :
    Fields (encode (.bne src1 src2 offset)) 0x63
      ((offsetPart (byteOffset offset) >>> 7) &&& 0x1f) 1 (src1.setWidth 32)
      (offsetPart (byteOffset offset) >>> 20 ||| src2.setWidth 32) := by
  have hopcode : Fields 0x1063 0x63 0 1 0 0 := by
    constructor <;> decide
  have hword := (((offsetPart_fields (byteOffset offset)).or (registerPart_rs2 src2)).or
    (registerPart_rs1 src1)).or hopcode
  rw [encode_bne_eq]
  simpa using hword

/-- The interpreter's reading of a branch offset. -/
def branchOffset (word : Word) : Word :=
  ((word >>> 31) <<< 12) ||| (((word >>> 25) &&& 0x3f) <<< 5) ||| (((word >>> 8) &&& 0xf) <<< 1) |||
    ((word >>> 7) &&& 0x1)

theorem branchOffset_bne (src1 src2 : BitVec 5) (offset : BitVec 12) :
    branchOffset (encode (.bne src1 src2 offset)) =
      branchOffset (offsetPart (byteOffset offset)) := by
  rw [encode_bne_eq]
  unfold branchOffset registerPart
  ext i hi
  interval_cases i <;> simp

/-- Bit 11 of an offset comes back as bit 0, where the interpreter puts it. -/
theorem branchOffset_offsetPart (offset : BitVec 12) :
    branchOffset (offsetPart (byteOffset offset)) =
      ((offset &&& 0xbff).concat (offset.getLsbD 10)).setWidth 32 := by
  unfold branchOffset offsetPart byteOffset
  ext i hi
  interval_cases i <;> simp [BitVec.getElem_signExtend, BitVec.getElem_concat]

/-! ## One step of the interpreter -/

section Step

variable {dm : SimModule} {target : SimTarget} {word rd funct3 rs1 high : Word}

theorem simRunProgbuf_encodedStore (hword : dm.progbuf (dm.pc / 4).toNat = word)
    (hfields : Fields word 0x23 rd funct3 rs1 high) (steps : Nat) :
    simRunProgbuf (steps + 1) dm target =
      resumeProgbuf steps (dm.advance 4,
        (simAccess target (dm.gpr rs1.toNat + ((word >>> 25) <<< 5 ||| rd)) (funct3 &&& 3).toNat
          true (dm.gpr (high &&& 0x1f).toNat)).1) := by
  simp only [simRunProgbuf, hword, hfields.opcode, hfields.rd, hfields.funct3, hfields.rs1,
    hfields.high, if_pos]
  rfl

theorem simRunProgbuf_encodedLoad (hword : dm.progbuf (dm.pc / 4).toNat = word)
    (hfields : Fields word 0x03 rd funct3 rs1 high) (steps : Nat) :
    simRunProgbuf (steps + 1) dm target =
      let accessed := simAccess target (dm.gpr rs1.toNat + high) (funct3 &&& 3).toNat false 0
      resumeProgbuf steps
        ((dm.setGpr rd.toNat (if funct3 = 4 then accessed.2 &&& 0xff else accessed.2)).advance 4,
          accessed.1) := by
  simp only [simRunProgbuf, hword, hfields.opcode, hfields.rd, hfields.funct3, hfields.rs1,
    hfields.high]
  rfl

theorem simRunProgbuf_addi (hword : dm.progbuf (dm.pc / 4).toNat = word)
    (hfields : Fields word 0x13 rd funct3 rs1 high) (steps : Nat) :
    simRunProgbuf (steps + 1) dm target =
      resumeProgbuf steps
        ((dm.setGpr rd.toNat (dm.gpr rs1.toNat + signExtend high 12)).advance 4, target) := by
  simp only [simRunProgbuf, hword, hfields.opcode, hfields.rd, hfields.funct3, hfields.rs1,
    hfields.high]
  rfl

theorem simRunProgbuf_bne (hword : dm.progbuf (dm.pc / 4).toNat = word)
    (hfields : Fields word 0x63 rd funct3 rs1 high) (steps : Nat) :
    simRunProgbuf (steps + 1) dm target =
      resumeProgbuf steps
        (dm.advance (if dm.gpr rs1.toNat ≠ dm.gpr (high &&& 0x1f).toNat then
          signExtend (branchOffset word) 13 else 4), target) := by
  simp only [simRunProgbuf, hword, hfields.opcode, hfields.rd, hfields.funct3, hfields.rs1,
    hfields.high]
  by_cases h : dm.gpr rs1.toNat ≠ dm.gpr (high &&& 0x1f).toNat
  · simp only [if_pos h]
    rfl
  · simp only [if_neg h]
    rfl

theorem fault_injective {dm dm' : SimModule} (h : dm.fault = dm'.fault) : dm = dm' := by
  cases dm
  cases dm'
  simpa [SimModule.fault] using h

/-- Where one step leads shows already in a run that ends behind it. -/
theorem executes_iff {instruction : Instruction} {state : SimModule × SimTarget}
    (hstep : ∀ steps, simRunProgbuf (steps + 1) dm target = resumeProgbuf steps state) :
    Executes instruction dm target ↔
      state = withCore dm ((simCore dm target).execute simMemory instruction) := by
  unfold Executes
  constructor
  · intro h
    have hends : ∀ state : SimModule × SimTarget,
        resumeProgbuf 0 state = (state.1.fault, state.2, false) := by
      intro state
      simp [resumeProgbuf, simRunProgbuf]
    have hlast := (hstep 0).symm.trans (h 0)
    rw [hends, hends] at hlast
    obtain ⟨hfault, htarget⟩ := Prod.ext_iff.mp hlast
    have htarget := (Prod.ext_iff.mp htarget).1
    apply Prod.ext
    · exact fault_injective hfault
    · exact htarget
  · intro h steps
    rw [hstep, h]

/-- A register of the core is the module's, x0 being zero there. -/
theorem simCore_reg (hx0 : dm.gpr 0 = 0) (reg : BitVec 5) :
    (simCore dm target).reg reg = dm.gpr reg.toNat := by
  unfold Core.reg
  split
  · rename_i hreg
    rw [hreg]
    exact hx0.symm
  · rfl

/-- Setting a register, in the module as in the core. -/
theorem setGpr_advance (hx0 : dm.gpr 0 = 0) (dest : BitVec 5) (value : Word) :
    ((dm.setGpr dest.toNat value).advance 4, target) =
      withCore dm (((simCore dm target).setReg dest value).next) := by
  unfold withCore Core.setReg
  by_cases hdest : dest = 0
  · subst hdest
    simp [SimModule.setGpr, SimModule.advance, Core.next, simCore]
    exact hx0.symm
  · have hzero : dest.toNat ≠ 0 := fun h => hdest (BitVec.eq_of_toNat_eq (by simpa using h))
    rw [if_neg hdest]
    simp [SimModule.setGpr, SimModule.advance, Core.next, simCore, hzero]

end Step

/-! ## Narrow stores -/

/-- The bytes a store stores do not depend on the rest of the register. -/
theorem byteOf_narrow (kind : StoreKind) (value : Word) {i : Nat} (hi : i < 2 ^ kind.sizeLog2) :
    byteOf (kind.narrow value) i = byteOf value i := by
  apply BitVec.eq_of_getLsbD_eq
  intro j hj
  rw [getLsbD_byteOf, getLsbD_byteOf]
  cases kind with
  | sb =>
      have hlow : 8 * i + j < 8 := by
        have : i < 1 := hi
        omega
      have hword : 8 * i + j < 32 := by omega
      simp [StoreKind.narrow, hlow, hword]
  | sh =>
      have hlow : 8 * i + j < 16 := by
        have : i < 2 := hi
        omega
      have hword : 8 * i + j < 32 := by omega
      simp [StoreKind.narrow, hlow, hword]
  | sw => rfl

theorem storeBytes_narrow (kind : StoreKind) (memory : Nat → Byte) (offset : Nat) (value : Word) :
    storeBytes memory offset (2 ^ kind.sizeLog2) (kind.narrow value) =
      storeBytes memory offset (2 ^ kind.sizeLog2) value := by
  funext a
  unfold storeBytes
  split
  · rw [byteOf_narrow kind value (by omega)]
  · rfl

theorem programBytes_narrow (kind : StoreKind) (memory : Nat → Byte) (offset limit : Nat)
    (value : Word) :
    programBytes memory offset (2 ^ kind.sizeLog2) limit (byteOf (kind.narrow value)) =
      programBytes memory offset (2 ^ kind.sizeLog2) limit (byteOf value) := by
  funext a
  unfold programBytes
  split
  · rw [byteOf_narrow kind value (by omega)]
  · rfl

theorem programConflicts_narrow (kind : StoreKind) (memory : Nat → Byte) (offset limit : Nat)
    (value : Word) :
    programConflicts memory offset (2 ^ kind.sizeLog2) limit (byteOf (kind.narrow value)) =
      programConflicts memory offset (2 ^ kind.sizeLog2) limit (byteOf value) := by
  unfold programConflicts
  apply List.countP_congr
  intro i hi
  rw [byteOf_narrow kind value (List.mem_range.mp hi)]

theorem simFlashStore_narrow (kind : StoreKind) (target : SimTarget) (offset : Nat)
    (value : Word) :
    simFlashStore target offset kind.sizeLog2 (kind.narrow value) =
      simFlashStore target offset kind.sizeLog2 value := by
  cases kind with
  | sw => rfl
  | sb | sh =>
      unfold simFlashStore
      rw [programBytes_narrow, programConflicts_narrow]
      simp [StoreKind.sizeLog2]

/-- Off the controller a narrow store takes the register's low bits alone. -/
theorem simAccess_narrow (kind : StoreKind) (target : SimTarget) {address : Word} (value : Word)
    (hctrl : simIsCtrl address = false) :
    (simAccess target address kind.sizeLog2 true (kind.narrow value)).1 =
      (simAccess target address kind.sizeLog2 true value).1 := by
  simp only [simAccess, hctrl, Bool.false_eq_true, if_false, if_true, simFlashStore_narrow,
    storeBytes_narrow]
  split
  · split <;> rfl
  · split
    · split <;> rfl
    · rfl

/-- The controller takes all of it. -/
theorem simAccess_ctrl {target : SimTarget} {address value : Word} {sizeLog2 : Nat}
    (hctrl : simIsCtrl address = true) :
    (simAccess target address sizeLog2 true value).1 =
      simCtrlWrite target (address &&& ~~~3) value := by
  simp [simAccess, hctrl]

theorem narrow_ne {kind : StoreKind} (hkind : kind ≠ .sw) (value : Word) :
    kind.narrow value ≠ simKey1 ∧ kind.narrow value ≠ simKey2 := by
  have hsmall : (kind.narrow value).toNat < 2 ^ 16 := by
    cases kind with
    | sw => exact absurd rfl hkind
    | sb => simp only [StoreKind.narrow, BitVec.toNat_setWidth]; omega
    | sh => simp only [StoreKind.narrow, BitVec.toNat_setWidth]; omega
  constructor
  all_goals
    intro h
    rw [h] at hsmall
    revert hsmall
    decide

/-- A controller register takes a wide value as its low bits alone in these cases. -/
theorem simCtrlWrite_narrow_iff {kind : StoreKind} (hkind : kind ≠ .sw) (target : SimTarget)
    (register value : Word) :
    simCtrlWrite target register value = simCtrlWrite target register (kind.narrow value) ↔
      TakesLowBits target register value (kind.narrow value) := by
  obtain ⟨hkey1, hkey2⟩ := narrow_ne hkind value
  unfold TakesLowBits
  have hkeys : simKey2 ≠ simKey1 := by decide
  by_cases hkeyr : register = simFlashKeyr
  · have hothers : simFlashKeyr ≠ simFlashModekeyr ∧ simFlashKeyr ≠ simFlashAddr ∧
        simFlashKeyr ≠ simFlashCtlr := by decide
    subst hkeyr
    simp only [simCtrlWrite, if_true, hkey1, hkey2, if_false, false_and, hothers, true_implies,
      false_implies, and_true, or_self]
    split_ifs with h1 h2
    · simp [h1]
    · simp [h2.1, hkeys, h2.2]
    · rw [not_and] at h2
      simp [h1]
      exact fun hvalue hstage => absurd hstage (h2 hvalue)
  by_cases hmode : register = simFlashModekeyr
  · have hothers : simFlashModekeyr ≠ simFlashKeyr ∧ simFlashModekeyr ≠ simFlashAddr ∧
        simFlashModekeyr ≠ simFlashCtlr := by decide
    subst hmode
    simp only [simCtrlWrite, if_true, hkey1, hkey2, if_false, false_and, hothers, true_implies,
      false_implies, and_true, true_and, or_self]
    split_ifs with h1 h2
    · simp [h1]
    · simp [h2.1, hkeys, h2.2]
    · rw [not_and] at h2
      simp [h1]
      exact fun hvalue hstage => absurd hstage (h2 hvalue)
  simp only [simCtrlWrite, hkeyr, hmode, if_false, false_implies, true_and]
  by_cases haddr : register = simFlashAddr
  · simp [haddr]
  by_cases hctlr : register = simFlashCtlr
  · have hother : simFlashCtlr ≠ simFlashAddr := by decide
    simp only [hother, hctlr, if_true, if_false, or_true, true_implies]
    constructor
    · intro h
      have hkept := congrArg SimTarget.ctlr h
      rwa [simWriteCtlr_ctlr, simWriteCtlr_ctlr] at hkept
    · intro h
      rw [← h]
  · simp [haddr, hctlr]

/-! ## The instructions -/

section Instructions

variable {dm : SimModule} {target : SimTarget}

theorem toNat_setWidth_reg (reg : BitVec 5) : (reg.setWidth 32 : Word).toNat = reg.toNat := by
  have := reg.isLt
  rw [BitVec.toNat_setWidth]
  omega

/-- The module past a store, in the core's terms. -/
theorem withCore_store_iff {stored : SimTarget} {kind : StoreKind} {src base : BitVec 5}
    (hx0 : dm.gpr 0 = 0) :
    (dm.advance 4, stored) =
        withCore dm ((simCore dm target).execute simMemory (.store kind src base)) ↔
      stored = (simAccess target (dm.gpr base.toNat) kind.sizeLog2 true
        (kind.narrow (dm.gpr src.toNat))).1 := by
  simp only [Core.execute, simCore_reg hx0]
  simp [withCore, SimModule.advance, Core.next, simMemory, simCore]

theorem executes_store {kind : StoreKind} {src base : BitVec 5} (hx0 : dm.gpr 0 = 0)
    (hword : dm.progbuf (dm.pc / 4).toNat = encode (.store kind src base)) :
    Executes (.store kind src base) dm target ↔ Interpreted dm target (.store kind src base) := by
  have hfields := encode_store kind src base
  have hsize : (storeSize kind &&& 3).toNat = kind.sizeLog2 := by
    cases kind <;> rfl
  have hoffset : (encode (.store kind src base) >>> 25) <<< 5 ||| (0 : Word) = 0 := by
    have hshift : encode (.store kind src base) >>> 25 = (src.setWidth 32 : Word) >>> 5 := by
      rw [← hfields.high, ← BitVec.shiftRight_add]
    have hhigh : (src.setWidth 32 : Word) >>> 5 = 0 := by
      clear hshift hfields hword
      revert src
      decide
    rw [hshift, hhigh]
    rfl
  rw [executes_iff (simRunProgbuf_encodedStore hword hfields), withCore_store_iff hx0, hoffset, hsize,
    setWidth_and_low, toNat_setWidth_reg, toNat_setWidth_reg]
  have hbase : dm.gpr base.toNat + 0 = dm.gpr base.toNat := BitVec.add_zero _
  simp only [Interpreted, hbase]
  by_cases hkind : kind = .sw
  · subst hkind
    simp [StoreKind.narrow]
  cases hctrl : simIsCtrl (dm.gpr base.toNat) with
  | false =>
      rw [simAccess_narrow kind target _ hctrl]
      simp
  | true =>
      rw [simAccess_ctrl hctrl, simAccess_ctrl hctrl, simCtrlWrite_narrow_iff hkind]
      simp [hkind]

/-- Two values for a register make the same core just when it is x0 or they are equal. -/
theorem withCore_setReg_iff {dest : BitVec 5} {value value' : Word} :
    withCore dm (((simCore dm target).setReg dest value).next) =
        withCore dm (((simCore dm target).setReg dest value').next) ↔
      dest = 0 ∨ value' = value := by
  by_cases hdest : dest = 0
  · simp [Core.setReg, hdest]
  · have hupdate : Function.update dm.gpr dest.toNat value =
        Function.update dm.gpr dest.toNat value' ↔ value' = value :=
      (Function.update_injective dm.gpr dest.toNat).eq_iff.trans eq_comm
    simp only [Core.setReg, hdest, false_or]
    simp [withCore, Core.next, simCore, hupdate]

/-- What the interpreter makes of a load's answer is right for words and unsigned bytes. -/
theorem widen_eq_iff (kind : LoadKind) (value : Word) :
    kind.widen value = (if loadFunct3 kind = 4 then value &&& 0xff else value) ↔
      kind = .lw ∨ kind = .lbu ∨ kind.widen value = value := by
  cases kind with
  | lb | lh | lhu => simp [loadFunct3]
  | lw => simp [loadFunct3, LoadKind.widen]
  | lbu =>
      have hlow : (value.setWidth 8).setWidth 32 = value &&& 0xff := by
        apply BitVec.eq_of_toNat_eq
        refine Eq.trans ?_ (toNat_and_low value (by decide : 8 ≤ 32)).symm
        rw [BitVec.toNat_setWidth, BitVec.toNat_setWidth]
        omega
      simp [loadFunct3, LoadKind.widen, hlow]

theorem executes_load {kind : LoadKind} {dest base : BitVec 5} (hx0 : dm.gpr 0 = 0)
    (hword : dm.progbuf (dm.pc / 4).toNat = encode (.load kind dest base)) :
    Executes (.load kind dest base) dm target ↔ Interpreted dm target (.load kind dest base) := by
  have hfields := encode_load kind dest base
  have hsize : (loadFunct3 kind &&& 3).toNat = kind.sizeLog2 := by
    cases kind <;> rfl
  have hbase : dm.gpr base.toNat + 0 = dm.gpr base.toNat := BitVec.add_zero _
  have hloads : (simCore dm target).execute simMemory (.load kind dest base) =
      ((simCore dm (simAccess target (dm.gpr base.toNat) kind.sizeLog2 false 0).1).setReg dest
        (kind.widen (simAccess target (dm.gpr base.toNat) kind.sizeLog2 false 0).2)).next := by
    simp only [Core.execute, simCore_reg hx0]
    rfl
  rw [executes_iff (simRunProgbuf_encodedLoad hword hfields), hloads]
  simp only [hsize, toNat_setWidth_reg, hbase, setGpr_advance hx0, withCore_setReg_iff,
    widen_eq_iff, Interpreted]

theorem executes_addi {dest src : BitVec 5} {immediate : BitVec 12} (hx0 : dm.gpr 0 = 0)
    (hword : dm.progbuf (dm.pc / 4).toNat = encode (.addi dest src immediate)) :
    Executes (.addi dest src immediate) dm target := by
  have hfields := encode_addi dest src immediate
  rw [executes_iff (simRunProgbuf_addi hword hfields), toNat_setWidth_reg, toNat_setWidth_reg,
    setGpr_advance hx0, signExtend_setWidth immediate (by decide) (by decide)]
  simp only [Core.execute, simCore_reg hx0]

/-- An offset with bit 11 clear is read back whole. -/
theorem branchOffset_clear {offset : BitVec 12} (hclear : offset.getLsbD 10 = false) :
    signExtend (branchOffset (offsetPart (byteOffset offset))) 13 = byteOffset offset := by
  have hkept : offset &&& 0xbff = offset := by
    ext i hi
    interval_cases i <;> simp
    simpa using hclear
  rw [branchOffset_offsetPart, signExtend_setWidth _ (by decide) (by decide), hclear, hkept]
  rfl

/-- An offset with bit 11 set is read back odd. -/
theorem branchOffset_set {offset : BitVec 12} (hset : offset.getLsbD 10 = true) :
    signExtend (branchOffset (offsetPart (byteOffset offset))) 13 ≠ byteOffset offset := by
  rw [branchOffset_offsetPart, signExtend_setWidth _ (by decide) (by decide), hset]
  intro h
  have hbit := congrArg (·.getLsbD 0) h
  revert hbit
  simp [byteOffset, BitVec.getElem_signExtend, BitVec.getElem_concat]

theorem executes_bne {src1 src2 : BitVec 5} {offset : BitVec 12} (hx0 : dm.gpr 0 = 0)
    (hword : dm.progbuf (dm.pc / 4).toNat = encode (.bne src1 src2 offset)) :
    Executes (.bne src1 src2 offset) dm target ↔
      Interpreted dm target (.bne src1 src2 offset) := by
  have hfields := encode_bne src1 src2 offset
  have hrs2 : (offsetPart (byteOffset offset) >>> 20 ||| src2.setWidth 32) &&& 0x1f =
      src2.setWidth 32 := by
    rw [and_or_distrib, offsetPart_rs2, setWidth_and_low]
    simp
  rw [executes_iff (simRunProgbuf_bne hword hfields), hrs2, branchOffset_bne, toNat_setWidth_reg,
    toNat_setWidth_reg]
  simp only [Core.execute, simCore_reg hx0, Interpreted]
  by_cases htaken : dm.gpr src1.toNat = dm.gpr src2.toNat
  · simp [htaken, withCore, SimModule.advance, Core.next, simCore]
  · cases hbit : offset.getLsbD 10 with
    | false => simp [htaken, branchOffset_clear hbit, withCore, SimModule.advance, simCore]
    | true => simp [htaken, branchOffset_set hbit, withCore, SimModule.advance, simCore]

theorem setGpr_x0 (hx0 : dm.gpr 0 = 0) (reg : Nat) (value : Word) :
    (dm.setGpr reg value).gpr 0 = 0 := by
  by_cases hreg : reg = 0
  · simp [SimModule.setGpr, hreg]
  · have : (0 : Nat) ≠ reg := Ne.symm hreg
    simp [SimModule.setGpr, Function.update_of_ne this, hx0]

/-- No program changes x0. -/
theorem simRunProgbuf_x0 (steps : Nat) (hx0 : dm.gpr 0 = 0) :
    (simRunProgbuf steps dm target).1.gpr 0 = 0 := by
  induction steps generalizing dm target with
  | zero => exact hx0
  | succ steps ih =>
      have hnext : ∀ (dm : SimModule) (target : SimTarget), dm.gpr 0 = 0 →
          (if dm.pc / 4 ≥ 8 then (dm.fault, target, false)
            else simRunProgbuf steps dm target).1.gpr 0 = 0 := by
        intro dm target hx0
        split
        · exact hx0
        · exact ih hx0
      have hset : ∀ (reg : Nat) (value : Word), ((dm.setGpr reg value).advance 4).gpr 0 = 0 :=
        setGpr_x0 hx0
      unfold simRunProgbuf
      dsimp only
      split
      · exact hnext _ _ hx0
      split
      · exact hnext _ _ (hset _ _)
      split
      · exact hnext _ _ (hset _ _)
      split
      · split
        · exact hnext _ _ hx0
        · exact hnext _ _ hx0
      split
      · exact hx0
      · exact hx0

/-- A word of the encoder does in the interpreter what its instruction means just where the
interpreter is right about it. -/
theorem executes_iff_interpreted (instruction : Instruction) (dm : SimModule) (target : SimTarget)
    (hx0 : dm.gpr 0 = 0) (hword : dm.progbuf (dm.pc / 4).toNat = encode instruction) :
    (Executes instruction dm target ↔ Interpreted dm target instruction) ∧
      ∀ steps, (simRunProgbuf steps dm target).1.gpr 0 = 0 := by
  refine ⟨?_, fun steps => simRunProgbuf_x0 steps hx0⟩
  cases instruction with
  | store kind src base => exact executes_store hx0 hword
  | load kind dest base => exact executes_load hx0 hword
  | addi dest src immediate => simpa [Interpreted] using executes_addi hx0 hword
  | bne src1 src2 offset => exact executes_bne hx0 hword

/-- A debug module whose first two words are a program, the core at the second. -/
def programmed (first second : Word) : SimModule :=
  { (simNew ch32v003).dm with
    progbuf := fun i => if i = 0 then first else second
    gpr := fun reg => if reg = 8 then 1 else 0
    pc := 4 }

theorem executes_iff_interpreted_addi :
    (Executes (.addi 8 8 0xfff) (programmed wlRvEbreak 0xfff40413) (simNew ch32v003).target ↔
        Interpreted (programmed wlRvEbreak 0xfff40413) (simNew ch32v003).target
          (.addi 8 8 0xfff)) ∧
      ∀ steps, (simRunProgbuf steps (programmed wlRvEbreak 0xfff40413)
        (simNew ch32v003).target).1.gpr 0 = 0 :=
  executes_iff_interpreted _ _ _ rfl (by decide)

/-- The encoder's backward branch, which the interpreter takes by an odd offset. -/
theorem not_executes_bne :
    let dm := programmed wlRvEbreak (wlRvBne 8 0 (-4))
    dm.gpr 0 = 0 ∧ dm.progbuf (dm.pc / 4).toNat = encode (.bne 8 0 (-2)) ∧
      ¬Executes (.bne 8 0 (-2)) dm (simNew ch32v003).target := by
  refine ⟨rfl, by decide, ?_⟩
  intro hexecutes
  have hpc := congrArg (·.1.pc) (hexecutes 0)
  revert hpc
  decide

end Instructions

end WchLink
