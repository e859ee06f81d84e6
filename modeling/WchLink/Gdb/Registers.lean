import WchLink.Gdb.Framing
import WchLink.SimulatorRegisters

/-! # Register packets

What `p`, `P` and `g` say about one another. A register is reported least
significant byte first and read from a packet most significant byte first.
-/

namespace WchLink

open Bytes Interaction

/-! ## The packets -/

/-- The packet that asks for a register. -/
def readRegisterPacket (reg : Nat) : List Byte := text "p" ++ formatHex 0 (BitVec.ofNat 32 reg)

/-- The packet that sets a register to the value the digits stand for. -/
def writeRegisterPacket (reg : Nat) (digits : List Byte) : List Byte :=
  text "P" ++ formatHex 0 (BitVec.ofNat 32 reg) ++ text "=" ++ digits

theorem strchr_readRegisterPacket {reg : Nat} (hreg : reg ≤ 16) (tail : List Byte) :
    strchr (ascii '=') (readRegisterPacket reg ++ 0 :: tail) = none := by
  interval_cases reg <;> rfl

theorem strchr_writeRegisterPacket {reg : Nat} (hreg : reg ≤ 16) (rest : List Byte) :
    strchr (ascii '=') (text "P" ++ formatHex 0 (BitVec.ofNat 32 reg) ++ text "=" ++ rest) =
      some (ascii '=' :: rest) := by
  interval_cases reg <;> rfl

theorem parseHexU32_writeRegisterPacket (reg : Nat) (rest : List Byte) :
    parseHexU32 ((text "P" ++ formatHex 0 (BitVec.ofNat 32 reg) ++ text "=" ++ rest).drop 1) =
      some (BitVec.ofNat 32 reg, ascii '=' :: rest) := by
  have hparse := parseHexU32_formatHex (BitVec.ofNat 32 reg)
    (show hexNibble (ascii '=') = none by decide) rest
  rw [List.append_assoc, List.append_assoc]
  exact hparse

/-! ## The handlers -/

/-- Handling a packet on the bench, whose debugger acknowledges one reply. -/
def Answers (fuel : Nat) (conn : GdbConn) (before : Sim) (packet reply : List Byte)
    (after : Sim) : Prop :=
  ((gdbHandlePacket fuel packet).run conn).run bench ⟨before, [ascii '+'], []⟩ =
    (some (true, conn), ⟨after, [], gdbFrame reply⟩)

section Handlers

variable {fuel : Nat} {conn : GdbConn} {sim : Sim}

theorem gdbSendPacket_answers (payload : List Byte) (hfuel : 2 ≤ fuel) :
    ((gdbSendPacket fuel payload).run conn).run bench ⟨sim, [ascii '+'], []⟩ =
      (some ((), conn), ⟨sim, [], gdbFrame payload⟩) := by
  rw [gdbSendPacket_run payload conn hfuel rfl]
  rfl

theorem gdbSendText_answers {string : List Byte} (hstring : ∀ c ∈ string, c ≠ 0)
    (hfuel : 2 ≤ fuel) :
    ((gdbSendText fuel string).run conn).run bench ⟨sim, [ascii '+'], []⟩ =
      (some ((), conn), ⟨sim, [], gdbFrame string⟩) := by
  rw [gdbSendText, cstring_eq_self hstring]
  exact gdbSendPacket_answers string hfuel

/-- A register operation on the bench, before anything is sent. -/
theorem onTarget_answers {α : Type} {operation : Link → Fallible α} {status : Except WlErr α}
    {after : Sim} (hrun : (operation conn.link).run.run simulator sim = (some status, after)) :
    ((onTarget operation).run conn).run bench ⟨sim, [ascii '+'], []⟩ =
      (some (status, conn), ⟨after, [ascii '+'], []⟩) := by
  exact @onTarget_run α operation conn ⟨sim, [ascii '+'], []⟩ status after hrun

theorem gdbRegRead_sim (hlink : conn.link.Usable) (hready : sim.Ready) {reg : Nat}
    (hreg : reg ≤ 16) :
    ∃ command, (gdbRegRead (BitVec.ofNat 32 reg) conn.link).run.run simulator sim =
      (some (.ok (sim.register reg)), sim.afterRead command (sim.register reg)) := by
  unfold gdbRegRead
  rcases Nat.lt_or_eq_of_le hreg with hlt | rfl
  · have hne : BitVec.ofNat 32 reg ≠ gdbRegPc := by
      interval_cases reg <;> decide
    rw [if_neg hne, Sim.register_gpr sim hlt]
    exact ⟨_, wlDmGprRead_sim hlink (by omega) hready⟩
  · rw [if_pos (show 16#32 = gdbRegPc from rfl), Sim.register_pc]
    exact ⟨_, wlDmPcRead_sim hlink hready⟩

/-- A register write that changes that register alone. -/
theorem gdbRegWrite_sim (hlink : conn.link.Usable) (hready : sim.Ready) {reg : Nat}
    (hpos : 1 ≤ reg) (hreg : reg ≤ 16) (value : Word) :
    ∃ after, (gdbRegWrite (BitVec.ofNat 32 reg) value conn.link).run.run simulator sim =
        (some (.ok ()), after) ∧
      after.Ready ∧ after.register reg = value ∧
        ∀ other ≠ reg, after.register other = sim.register other := by
  unfold gdbRegWrite
  rcases Nat.lt_or_eq_of_le hreg with hlt | rfl
  · have hne : BitVec.ofNat 32 reg ≠ gdbRegPc := by
      interval_cases reg <;> decide
    rw [if_neg hne]
    refine ⟨_, wlDmGprWrite_sim hlink (by omega) value hready,
      ⟨hready.configured, hready.cmderr⟩, ?_, ?_⟩
    · rw [Sim.register_gpr _ hlt]
      show Function.update sim.dm.gpr reg (if reg = 0 then 0 else value) reg = value
      rw [Function.update_self, if_neg (by omega)]
    · intro other hother
      unfold Sim.register
      show (if other = 16 then sim.dm.dpc else
        Function.update sim.dm.gpr reg (if reg = 0 then 0 else value) other) = _
      rw [Function.update_of_ne hother]
  · rw [if_pos (show 16#32 = gdbRegPc from rfl)]
    refine ⟨_, wlDmPcWrite_sim hlink value hready, ⟨hready.configured, hready.cmderr⟩, rfl, ?_⟩
    intro other hother
    rw [Sim.register, Sim.register, if_neg hother, if_neg hother]
    rfl

theorem gdbHandlePacket_read (hlink : conn.link.Usable) (hready : sim.Ready) (hfuel : 2 ≤ fuel)
    {reg : Nat} (hreg : reg ≤ 16) (tail : List Byte) :
    ∃ command, Answers fuel conn sim (readRegisterPacket reg ++ 0 :: tail)
      (formatHexU32Le (sim.register reg)) (sim.afterRead command (sim.register reg)) := by
  obtain ⟨command, hread⟩ := gdbRegRead_sim hlink hready hreg
  refine ⟨command, ?_⟩
  have hnumber : parseHexU32 ((readRegisterPacket reg ++ 0 :: tail).drop 1) =
      some (BitVec.ofNat 32 reg, 0 :: tail) := parseHexU32_formatHex _ (by decide) tail
  have hsmall : ¬BitVec.ofNat 32 reg > gdbRegPc := by
    interval_cases reg <;> decide
  have hhandle : ((gdbHandleP fuel (readRegisterPacket reg ++ 0 :: tail)).run conn).run bench
      ⟨sim, [ascii '+'], []⟩ = (some ((), conn), ⟨sim.afterRead command (sim.register reg), [],
        gdbFrame (formatHexU32Le (sim.register reg))⟩) := by
    unfold gdbHandleP
    rw [hnumber]
    dsimp only
    rw [if_neg hsmall, strchr_readRegisterPacket hreg]
    dsimp only
    rw [Program.run_own_bind (onTarget_answers hread)]
    exact gdbSendText_answers (formatHexU32Le_ne_zero _) hfuel
  have hdispatch : gdbHandlePacket fuel (readRegisterPacket reg ++ 0 :: tail) = (do
      gdbHandleP fuel (readRegisterPacket reg ++ 0 :: tail)
      return true) := rfl
  rw [Answers, hdispatch, Program.run_own_bind hhandle]
  rfl

/-- A register write the target accepts. -/
theorem gdbHandlePacket_writes (hfuel : 2 ≤ fuel) {reg : Nat} (hreg : reg ≤ 16) {value : Word}
    {after : Sim} (hwrite : (gdbRegWrite (BitVec.ofNat 32 reg) (byteSwap value) conn.link).run.run
      simulator sim = (some (.ok ()), after)) (tail : List Byte) :
    Answers fuel conn sim (writeRegisterPacket reg (formatHexU32Le value) ++ 0 :: tail) (text "OK")
      after := by
  have hpacket : writeRegisterPacket reg (formatHexU32Le value) ++ 0 :: tail =
      text "P" ++ formatHex 0 (BitVec.ofNat 32 reg) ++ text "=" ++
        (formatHexU32Le value ++ 0 :: tail) := List.append_assoc _ _ _
  have hnumber := parseHexU32_writeRegisterPacket reg (formatHexU32Le value ++ 0 :: tail)
  have hsmall : ¬BitVec.ofNat 32 reg > gdbRegPc := by
    interval_cases reg <;> decide
  have hhandle : ((gdbHandleP fuel (writeRegisterPacket reg (formatHexU32Le value) ++
      0 :: tail)).run conn).run bench ⟨sim, [ascii '+'], []⟩ =
        (some ((), conn), ⟨after, [], gdbFrame (text "OK")⟩) := by
    rw [hpacket]
    unfold gdbHandleP
    rw [hnumber]
    dsimp only
    rw [if_neg hsmall, strchr_writeRegisterPacket hreg]
    dsimp only
    rw [List.drop_one, List.tail_cons, parseHexU32_formatHexU32Le]
    dsimp only
    rw [Program.run_own_bind (onTarget_answers hwrite)]
    exact gdbSendText_answers (by decide) hfuel
  have hdispatch : gdbHandlePacket fuel (writeRegisterPacket reg (formatHexU32Le value) ++
      0 :: tail) = (do
        gdbHandleP fuel (writeRegisterPacket reg (formatHexU32Le value) ++ 0 :: tail)
        return true) := rfl
  rw [Answers, hdispatch, Program.run_own_bind hhandle]
  rfl

theorem gdbHandlePacket_write (hlink : conn.link.Usable) (hready : sim.Ready) (hfuel : 2 ≤ fuel)
    {reg : Nat} (hpos : 1 ≤ reg) (hreg : reg ≤ 16) (value : Word) (tail : List Byte) :
    ∃ after, Answers fuel conn sim
        (writeRegisterPacket reg (formatHexU32Le value) ++ 0 :: tail) (text "OK") after ∧
      after.Ready ∧ after.register reg = byteSwap value ∧
        ∀ other ≠ reg, after.register other = sim.register other := by
  obtain ⟨after, hwrite, hafter⟩ := gdbRegWrite_sim hlink hready hpos hreg (byteSwap value)
  exact ⟨after, gdbHandlePacket_writes hfuel hreg hwrite tail, hafter⟩

/-- Every other number is refused, without a word to the target. -/
theorem gdbHandlePacket_refuses (hfuel : 2 ≤ fuel) {reg : Nat} (hlarge : 16 < reg)
    (hbound : reg < 2 ^ 32) (value : Word) (tail : List Byte) :
    Answers fuel conn sim (readRegisterPacket reg ++ 0 :: tail) (text "E01") sim ∧
      Answers fuel conn sim (writeRegisterPacket reg (formatHexU32Le value) ++ 0 :: tail)
        (text "E01") sim := by
  have hnumber : BitVec.ofNat 32 reg > gdbRegPc := by
    show (16 : Word) < BitVec.ofNat 32 reg
    rw [BitVec.lt_def, BitVec.toNat_ofNat, Nat.mod_eq_of_lt hbound]
    exact hlarge
  have hrefused {packet : List Byte} {rest : List Byte}
      (hparse : parseHexU32 (packet.drop 1) = some (BitVec.ofNat 32 reg, rest))
      (hdispatch : gdbHandlePacket fuel packet = (do
        gdbHandleP fuel packet
        return true)) : Answers fuel conn sim packet (text "E01") sim := by
    have hhandle : gdbHandleP fuel packet = gdbSendText fuel (text "E01") := by
      unfold gdbHandleP
      rw [hparse]
      dsimp only
      rw [if_pos hnumber]
    rw [Answers, hdispatch, hhandle,
      Program.run_own_bind (gdbSendText_answers (by decide) hfuel)]
    rfl
  constructor
  · exact hrefused (parseHexU32_formatHex _ (by decide) tail) rfl
  · have hparse := parseHexU32_writeRegisterPacket reg (formatHexU32Le value ++ 0 :: tail)
    rw [← List.append_assoc] at hparse
    exact hrefused hparse rfl

theorem gdbReadGprs_answers (hlink : conn.link.Usable) (hready : sim.Ready) {regs : List Nat}
    (hregs : ∀ reg ∈ regs, reg < 16) :
    ∃ after, ((gdbReadGprs regs).run conn).run bench ⟨sim, [ascii '+'], []⟩ =
        (some (.ok (regs.flatMap fun reg => formatHexU32Le (sim.register reg)), conn),
          ⟨after, [ascii '+'], []⟩) ∧ sim.SameRegisters after := by
  induction regs generalizing sim with
  | nil => exact ⟨sim, rfl, .refl sim⟩
  | cons reg rest ih =>
      have hreg := hregs reg List.mem_cons_self
      have hread := wlDmGprRead_sim hlink (by omega : reg < 32) hready
      have hsame := sim.sameRegisters_afterRead (gprReadCommand (BitVec.ofNat 32 reg))
        (sim.dm.gpr reg)
      obtain ⟨after, hrest, hafter⟩ := ih (hsame.ready hready)
        fun reg hmem => hregs reg (List.mem_cons_of_mem _ hmem)
      refine ⟨after, ?_, hsame.trans hafter⟩
      rw [gdbReadGprs, Program.run_own_bind (onTarget_answers hread)]
      dsimp only
      rw [Program.run_own_bind hrest, List.flatMap_cons, Sim.register_gpr sim hreg]
      simp only [hsame.register]
      rfl

theorem gdbHandlePacket_g (hlink : conn.link.Usable) (hready : sim.Ready) (hfuel : 2 ≤ fuel)
    (tail : List Byte) :
    ∃ after, Answers fuel conn sim (text "g" ++ 0 :: tail)
      ((List.range 17).flatMap fun reg => formatHexU32Le (sim.register reg)) after := by
  have hregs : ∀ reg ∈ List.range gdbRv32eGprs, reg < 16 := fun reg hmem => List.mem_range.mp hmem
  obtain ⟨middle, hgprs, hsame⟩ := gdbReadGprs_answers hlink hready hregs
  refine ⟨middle.afterRead pcReadCommand middle.dm.dpc, ?_⟩
  have hpc := wlDmPcRead_sim hlink (hsame.ready hready)
  have hreply : (List.range 17).flatMap (fun reg => formatHexU32Le (sim.register reg)) =
      (List.range gdbRv32eGprs).flatMap (fun reg => formatHexU32Le (sim.register reg)) ++
        formatHexU32Le middle.dm.dpc := by
    rw [hsame.dpc, ← Sim.register_pc, show 17 = gdbRv32eGprs + 1 from rfl, List.range_succ,
      List.flatMap_append]
    rfl
  have hhandle : ((gdbHandleG fuel).run conn).run bench ⟨sim, [ascii '+'], []⟩ =
      (some ((), conn), ⟨middle.afterRead pcReadCommand middle.dm.dpc, [], gdbFrame
        ((List.range 17).flatMap fun reg => formatHexU32Le (sim.register reg))⟩) := by
    unfold gdbHandleG
    rw [Program.run_own_bind hgprs]
    dsimp only
    rw [Program.run_own_bind (onTarget_answers hpc), hreply]
    exact gdbSendPacket_answers _ hfuel
  have hdispatch : gdbHandlePacket fuel (text "g" ++ 0 :: tail) = (do
      gdbHandleG fuel
      return true) := rfl
  rw [Answers, hdispatch, Program.run_own_bind hhandle]
  rfl

end Handlers

/-! ## The law -/

/-- A `p` packet is answered with `reply`. -/
def Reports (fuel : Nat) (conn : GdbConn) (sim : Sim) (reg : Nat) (reply : List Byte) : Prop :=
  ∀ tail, ∃ after, Answers fuel conn sim (readRegisterPacket reg ++ 0 :: tail) reply after

/-- A `g` packet is answered with what the `p` packets are, one after another. -/
def ReportsAll (fuel : Nat) (conn : GdbConn) (sim : Sim) : Prop :=
  ∃ replies : Nat → List Byte, (∀ reg ≤ 16, Reports fuel conn sim reg (replies reg)) ∧
    ∀ tail, ∃ after, Answers fuel conn sim (text "g" ++ 0 :: tail)
      ((List.range 17).flatMap replies) after

/-- What writing a register in the stub's own format should do: it is accepted,
the register then reads as written, and the others as before. -/
def WritesRegister (fuel : Nat) (conn : GdbConn) (sim : Sim) (reg : Nat) (value : Word) : Prop :=
  ∀ tail, ∃ after,
    Answers fuel conn sim (writeRegisterPacket reg (formatHexU32Le value) ++ 0 :: tail)
      (text "OK") after ∧
    Reports fuel conn after reg (formatHexU32Le value) ∧ ReportsAll fuel conn after ∧
    ∀ other ≤ 16, other ≠ reg → ∀ reply, Reports fuel conn sim other reply →
      Reports fuel conn after other reply

section Law

variable {fuel : Nat} {conn : GdbConn} {sim : Sim}

/-- A packet has one answer. -/
theorem Answers.unique {packet first second : List Byte} {after after' : Sim}
    (h : Answers fuel conn sim packet first after)
    (h' : Answers fuel conn sim packet second after') : first = second ∧ after = after' := by
  have hsame := h.symm.trans h'
  injection hsame with _ hbench
  injection hbench with hafter _ hframe
  exact ⟨gdbFrame_injective hframe, hafter⟩

theorem reports_register (hlink : conn.link.Usable) (hready : sim.Ready) (hfuel : 2 ≤ fuel)
    {reg : Nat} (hreg : reg ≤ 16) :
    Reports fuel conn sim reg (formatHexU32Le (sim.register reg)) := by
  intro tail
  obtain ⟨command, hanswer⟩ := gdbHandlePacket_read hlink hready hfuel hreg tail
  exact ⟨_, hanswer⟩

theorem reports_iff (hlink : conn.link.Usable) (hready : sim.Ready) (hfuel : 2 ≤ fuel)
    {reg : Nat} (hreg : reg ≤ 16) (reply : List Byte) :
    Reports fuel conn sim reg reply ↔ reply = formatHexU32Le (sim.register reg) := by
  constructor
  · intro h
    obtain ⟨_, hanswer⟩ := h []
    obtain ⟨_, hregister⟩ := reports_register hlink hready hfuel hreg []
    exact (hanswer.unique hregister).1
  · rintro rfl
    exact reports_register hlink hready hfuel hreg

theorem reportsAll (hlink : conn.link.Usable) (hready : sim.Ready) (hfuel : 2 ≤ fuel) :
    ReportsAll fuel conn sim :=
  ⟨fun reg => formatHexU32Le (sim.register reg),
    fun _ hreg => reports_register hlink hready hfuel hreg,
    gdbHandlePacket_g hlink hready hfuel⟩

end Law

/-- Register packets agree on layout in every state, and a register written in
the stub's own format keeps the value exactly when its bytes read the same in
either order. -/
theorem gdbHandlePacket_writesRegister_iff (fuel : Nat) (conn : GdbConn) (sim : Sim) (reg : Nat)
    (value : Word) (hfuel : 2 ≤ fuel) (hlink : conn.link.Usable) (hready : sim.Ready)
    (hpos : 1 ≤ reg) (hreg : reg ≤ 16) :
    ReportsAll fuel conn sim ∧ WritesRegister fuel conn sim reg value ↔
      byteSwap value = value := by
  constructor
  · rintro ⟨-, hwrites⟩
    obtain ⟨after, hanswer, hreports, -, -⟩ := hwrites []
    obtain ⟨after', hanswer', hready', hvalue, -⟩ :=
      gdbHandlePacket_write hlink hready hfuel hpos hreg value []
    obtain rfl := (hanswer.unique hanswer').2
    have hsame := (reports_iff hlink hready' hfuel hreg _).mp hreports
    rw [hvalue] at hsame
    exact (formatHexU32Le_injective hsame).symm
  · intro hswap
    refine ⟨reportsAll hlink hready hfuel, fun tail => ?_⟩
    obtain ⟨after, hanswer, hready', hvalue, hothers⟩ :=
      gdbHandlePacket_write hlink hready hfuel hpos hreg value tail
    refine ⟨after, hanswer, ?_, reportsAll hlink hready' hfuel, ?_⟩
    · rw [reports_iff hlink hready' hfuel hreg, hvalue, hswap]
    · intro other hother hne reply hreply
      rw [reports_iff hlink hready hfuel hother] at hreply
      rw [reports_iff hlink hready' hfuel hother, hothers other hne]
      exact hreply

/-- A simulator on which the interface has been selected. -/
def simSelected (chip : Chip) : Sim := { simNew chip with configured := true }

/-- 0x12343412 reads the same in either byte order. -/
theorem gdbHandlePacket_writesRegister_palindrome :
    ReportsAll 2 (.fresh wlLinkeAttachTransport ch32v003) (simSelected ch32v003) ∧
      WritesRegister 2 (.fresh wlLinkeAttachTransport ch32v003) (simSelected ch32v003) 10
        0x12343412 :=
  (gdbHandlePacket_writesRegister_iff 2 (.fresh wlLinkeAttachTransport ch32v003)
    (simSelected ch32v003) 10 0x12343412 (by decide) ⟨rfl, rfl⟩ ⟨rfl, rfl⟩ (by decide)
    (by decide)).mpr (by decide)

/-- `P10=78563412` is the report of 0x12345678 and sets pc to its reversal. -/
theorem gdbHandlePacket_reverses_register :
    ¬ ∀ (fuel : Nat) (conn : GdbConn) (sim : Sim) (reg : Nat) (value : Word), 2 ≤ fuel →
      conn.link.Usable → sim.Ready → 1 ≤ reg → reg ≤ 16 →
        ReportsAll fuel conn sim ∧ WritesRegister fuel conn sim reg value := by
  intro hclaim
  obtain ⟨-, hwrites⟩ := hclaim 2 (.fresh wlLinkeAttachTransport ch32v003) (simSelected ch32v003)
    16 0x12345678 (by decide) ⟨rfl, rfl⟩ ⟨rfl, rfl⟩ (by decide) (by decide)
  obtain ⟨after, hanswer, hreports, -, -⟩ := hwrites []
  have hlink : (GdbConn.fresh wlLinkeAttachTransport ch32v003).link.Usable := ⟨rfl, rfl⟩
  obtain ⟨after', hanswer', hready', hvalue, -⟩ := gdbHandlePacket_write hlink
    (⟨rfl, rfl⟩ : (simSelected ch32v003).Ready) (by decide : 2 ≤ 2) (by decide : 1 ≤ 16)
    (by decide) 0x12345678 []
  obtain rfl := (hanswer.unique hanswer').2
  have hsame := (reports_iff hlink hready' (by decide) (by decide) _).mp hreports
  rw [hvalue] at hsame
  exact absurd (formatHexU32Le_injective hsame) (by decide)

end WchLink
