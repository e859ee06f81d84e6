import WchLink.CliSession
import WchLink.Gdb.Bench
import WchLink.Gdb.Session
import WchLink.LossyAccess

/-! # What memory accesses keep

Every memory access runs a program on the halted core, with the address in x9
and the value in x8. Nothing saves the two registers and nothing puts them back;
sessions in which the debugger only accesses memory, and the commands that do,
move no other register of the core, and not the program counter.
-/

namespace WchLink

open Bytes Interaction

/-! ## The programmer -/

/-- The programs that keep the registers but x8 and x9. -/
abbrev registerClass : ProgramClass Usb :=
  Program.keeping unreliable (fun _ _ => True) Sim.KeepsRegisters .refl .trans

theorem registerClass_request {request : List Byte}
    (h : ∀ sim : Sim, sim.KeepsRegisters (simCommand request sim).2) :
    registerClass.Mem (transportCommand request) := by
  apply Program.keeps_perform fun _ => trivial
  intro sim reply next hnext
  rcases hnext.next with rfl | rfl
  · exact .refl next
  · exact h sim

theorem registerClass_control (command argument : Byte) :
    registerClass.Mem (transportCommand (controlRequest command argument)) := by
  have hshort : (controlRequest command argument).length < 9 := by
    have hlength : (controlRequest command argument).length = 4 := rfl
    omega
  apply registerClass_request
  intro sim
  unfold simCommand simControl
  dsimp only
  simp only [hshort, if_true]
  split_ifs <;> exact .of_module rfl fun _ _ _ => rfl

theorem registerClass_interface (familyId speed : Byte) :
    registerClass.Mem (transportCommand (interfaceRequest familyId speed)) := by
  apply registerClass_request
  intro sim
  exact .of_module rfl fun _ _ _ => rfl

/-- An access keeps the registers but x8 and x9, at whatever point it fails. -/
theorem dmRun_keeps {link : Link} {instruction address value : Word}
    {effect : SimTarget → SimTarget} {output : SimTarget → Word}
    (h : AccessInstruction instruction address value effect output) (wanted : Bool) :
    registerClass.Mem (dmRun link [instruction, wlRvEbreak] address value wanted).run := by
  intro start
  apply Program.wp_allow (fun _ _ _ => trivial)
  apply Program.wp_mono (dmRun_triple h start wanted start ⟨.refl start, .inl rfl⟩ rfl)
  intro status final hfinal
  exact hfinal.1.registers

theorem registerClass_accesses (link : Link) : HasAccesses registerClass link where
  read size address := dmRun_keeps (accessInstruction_load size address) true
  write size address value :=
    registerClass.andThen (dmRun_keeps (accessInstruction_store size address value) false) fun _ =>
      registerClass.ok ()

/-! ## The simulated programmer in its surroundings -/

/-- The server's surroundings: the programmer is the simulated one, and the
others reply what they like. -/
def hostAround : World Host Sim
  | before, .usb request, reply, after => unreliable before request reply after
  | before, _, _, after => after = before

/-- A command's surroundings. -/
def cliAround : World Cli Sim
  | before, .host operation, reply, after => hostAround before operation reply after
  | before, _, _, after => after = before

/-- The server's programs that keep the registers but x8 and x9. -/
abbrev hostRegisters : ProgramClass Host :=
  Program.keeping hostAround (fun _ _ => True) Sim.KeepsRegisters .refl .trans

/-- The commands' programs that do. -/
abbrev cliRegisters : ProgramClass Cli :=
  Program.keeping cliAround (fun _ _ => True) Sim.KeepsRegisters .refl .trans

theorem hostRegisters_usb {α : Type} {program : Program Usb α} (h : registerClass.Mem program) :
    (usbClass hostRegisters).Mem program := by
  intro sim
  refine @Program.wp_interpret _ _ _ _ _ unreliable (fun _ _ => True) hostAround _ id _ ?_ _ _ sim
    (h sim)
  intro operation state _
  exact ⟨trivial, fun reply next hnext => ⟨reply, rfl, hnext⟩⟩

theorem cliRegisters_host {α : Type} {program : Program Host α} (h : hostRegisters.Mem program) :
    cliRegisters.Mem (onMachine program) := by
  intro sim
  refine @Program.wp_interpret _ _ _ _ _ hostAround (fun _ _ => True) cliAround _ id _ ?_ _ _ sim
    (h sim)
  intro operation state _
  exact ⟨trivial, fun reply next hnext => ⟨reply, rfl, hnext⟩⟩

theorem cliRegisters_usb {α : Type} {program : Program Usb α} (h : registerClass.Mem program) :
    cliRegisters.Mem (onProgrammer program) :=
  cliRegisters_host (hostRegisters_usb h)

/-- What is no request of the programmer's keeps everything. -/
theorem hostRegisters_other {operation : HostOp}
    (hother : ∀ before reply after, hostAround before operation reply after → after = before) :
    hostRegisters.Mem (request operation) := by
  apply Program.keeps_perform fun _ => trivial
  intro sim reply next hnext
  rw [hother sim reply next hnext]
  exact .refl sim

theorem hostRegisters_memory : HasMemory hostRegisters where
  cuts := Program.keeping_cuts
  malloc _ := hostRegisters_other fun _ _ _ h => h
  accesses link :=
    { read := fun size address =>
        hostRegisters_usb ((registerClass_accesses link).read size address)
      write := fun size address value =>
        hostRegisters_usb ((registerClass_accesses link).write size address value) }

theorem hostRegisters_socket (sendable : List Byte → Prop) :
    HasSocket hostRegisters sendable where
  cuts := Program.keeping_cuts
  recv := hostRegisters_other fun _ _ _ h => h
  send _ _ := hostRegisters_other fun _ _ _ h => h

/-! ## Packets that access memory -/

/-- The monitor commands that access memory. -/
def MonitorAccesses (command : List Byte) : Prop :=
  ∃ word rest, strtok monitorDelimiters (cstring command) = some (word, rest) ∧
    (word = text "read32" ∨ word = text "write32")

/-- The packets that access memory: `m`, `M`, breakpoints, and the monitor
commands that do. -/
def AccessesMemory (packet : List Byte) : Prop :=
  packet.getD 0 0 = ascii 'm' ∨ packet.getD 0 0 = ascii 'M' ∨
    (packet.getD 0 0 = ascii 'Z' ∨ packet.getD 0 0 = ascii 'z') ∨
    packet.getD 0 0 = ascii 'q' ∧ strStarts packet "qRcmd," = true ∧
      ∃ command, gdbDecodeHexString (packet.drop 6) 256 = some command ∧ MonitorAccesses command

section Packets

variable {C : ProgramClass Host} (h : HasMemory C) (hsocket : HasSocket C Plain)

include h hsocket

theorem gdbMonitorArguments_accesses (fuel : Nat) {word : List Byte} (rest : List Byte)
    (hword : word = text "read32" ∨ word = text "write32") :
    C.StateMem (gdbMonitorArguments fuel word rest) := by
  have hunknown := gdbSendOutput_mem hsocket fuel (text "unknown monitor command\n")
  have hgetcsr : word ≠ text "getcsr" := by
    rcases hword with rfl | rfl <;> decide
  have hsetcsr : word ≠ text "setcsr" := by
    rcases hword with rfl | rfl <;> decide
  unfold gdbMonitorArguments
  simp only [hgetcsr, hsetcsr, if_false]
  split
  · exact hunknown
  · split
    · exact gdbMonitorRead32_mem h hsocket _ _
    · split
      · exact hunknown
      · split
        · exact gdbMonitorWrite32_mem h hsocket _ _ _
        · exact hunknown

theorem gdbMonitorCommand_accesses (fuel : Nat) {command : List Byte}
    (hcommand : MonitorAccesses command) : C.StateMem (gdbMonitorCommand fuel command) := by
  obtain ⟨word, rest, htoken, hword⟩ := hcommand
  have hcalls : gdbMonitorCommand fuel command = gdbMonitorArguments fuel word rest := by
    unfold gdbMonitorCommand
    rw [htoken]
    rcases hword with rfl | rfl <;> rfl
  rw [hcalls]
  exact gdbMonitorArguments_accesses h hsocket fuel rest hword

theorem gdbHandleQuery_accesses (fuel : Nat) {packet command : List Byte}
    (hdecoded : gdbDecodeHexString (packet.drop 6) 256 = some command)
    (hcommand : MonitorAccesses command) (hquery : strStarts packet "qRcmd," = true) :
    C.StateMem (gdbHandleQuery fuel packet) := by
  have hanswer {string : List Byte} (hstring : string.head? ≠ some (ascii 'T')) :
      C.StateMem (gdbSendText fuel string) := gdbSendText_plain hsocket fuel hstring
  have hmonitor : C.StateMem (gdbHandleQRcmd fuel packet) := by
    unfold gdbHandleQRcmd
    rw [hdecoded]
    apply C.stateBind (gdbMonitorCommand_accesses h hsocket fuel hcommand)
    intro _
    exact hanswer (by decide)
  unfold gdbHandleQuery
  simp only [hquery, if_true]
  apply C.stateIte (fun _ => hanswer (by decide)) fun _ => ?_
  apply C.stateIte (fun _ => hanswer (by decide)) fun _ => ?_
  apply C.stateIte (fun _ => hanswer (by decide)) fun _ => ?_
  apply C.stateIte (fun _ => hanswer (by decide)) fun _ => ?_
  apply C.stateIte (fun _ => hanswer (by decide)) fun _ => ?_
  exact C.stateIte (fun _ => hanswer (by decide)) fun _ => hmonitor

/-- A packet that accesses memory is handled by memory accesses alone. -/
theorem gdbHandlePacket_accesses (fuel : Nat) {packet : List Byte}
    (hpacket : AccessesMemory packet) : C.StateMem (gdbHandlePacket fuel packet) := by
  have hthen {program : Gdb Unit} (hprogram : C.StateMem program) :
      C.StateMem (program >>= fun _ => pure true) :=
    C.stateBind hprogram fun _ => C.stateDone true
  rcases hpacket with hm | hwrite | hbreakpoint | ⟨hquery, hstarts, command, hdecoded, hcommand⟩
  · have hcalls : gdbHandlePacket fuel packet = gdbHandleM fuel packet >>= fun _ => pure true := by
      unfold gdbHandlePacket
      simp +decide only [hm, ↓reduceIte]
    rw [hcalls]
    exact hthen (gdbHandleM_mem h hsocket fuel packet)
  · have hcalls : gdbHandlePacket fuel packet =
        gdbHandleMWrite fuel packet >>= fun _ => pure true := by
      unfold gdbHandlePacket
      simp +decide only [hwrite, ↓reduceIte]
    rw [hcalls]
    exact hthen (gdbHandleMWrite_mem h hsocket fuel packet)
  · have hcalls : gdbHandlePacket fuel packet = gdbHandleZ fuel packet >>= fun _ => pure true := by
      unfold gdbHandlePacket
      rcases hbreakpoint with hc | hc <;> simp +decide only [hc, ↓reduceIte]
    rw [hcalls]
    exact hthen (gdbHandleZ_mem h hsocket fuel packet)
  · have hcalls : gdbHandlePacket fuel packet =
        gdbHandleQuery fuel packet >>= fun _ => pure true := by
      unfold gdbHandlePacket
      simp +decide only [hquery, ↓reduceIte]
    rw [hcalls]
    exact hthen (gdbHandleQuery_accesses h hsocket fuel hdecoded hcommand hstarts)

end Packets

/-! ## Sessions -/

section Sessions

variable {σ : Type} {world : World Host σ} {sim : σ → Sim}

/-- Sessions of packets that access memory. -/
def accessSession : TurnCondition σ :=
  ⟨fun packet _ _ => AccessesMemory packet, fun _ _ _ _ => True⟩

variable (hworld : world.Refines hostAround sim)

include hworld

/-- What keeps the registers does so in every world around the programmer. -/
theorem hostRegisters_returns {α : Type} {program : Program Host α}
    (h : hostRegisters.Mem program) {state final : σ} {value : α}
    (hreturns : Program.Returns world program state value final) :
    (sim state).KeepsRegisters (sim final) :=
  hreturns.of_wp (Program.wp_refines hworld (h (sim state)))

theorem Turn.keepsRegisters {head next : LoopHead σ} {packet : List Byte}
    (hturn : Turn world accessSession head packet next) :
    (sim head.state).KeepsRegisters (sim next.state) := by
  cases hturn with
  | mk _ hreceived hadmits hhandled =>
      have hreceive := gdbRecvPacket_mem (hostRegisters_socket fun _ => True)
        (fun _ _ => trivial)
      have hhandle := gdbHandlePacket_accesses hostRegisters_memory (hostRegisters_socket Plain)
      apply (hostRegisters_returns hworld (hreceive _) hreceived).trans
      exact hostRegisters_returns hworld (hhandle _ hadmits _).1
        (hhandled.mono (accessSession.during_le _))

theorem Serves.keepsRegisters {start head : LoopHead σ} {packets : List (List Byte)}
    (hserves : Serves world accessSession start packets head) :
    (sim start.state).KeepsRegisters (sim head.state) := by
  induction hserves with
  | refl => exact .refl _
  | turn _ hturn ih => exact ih.trans (hturn.keepsRegisters hworld)

end Sessions

/-! ## Commands -/

/-- What is asked of the command's other surroundings keeps everything. -/
theorem cliRegisters_other {operation : CliOp}
    (hother : ∀ before reply after, cliAround before operation reply after → after = before) :
    cliRegisters.Mem (ask operation) := by
  apply Program.keeps_perform fun _ => trivial
  intro sim reply next hnext
  rw [hother sim reply next hnext]
  exact .refl sim

theorem wlLinkeOpen_keeps (serial : Option String) : cliRegisters.Mem (wlLinkeOpen serial) := by
  apply cliRegisters.bind (@cliRegisters_other (.usbOpen serial) fun _ _ _ h => h)
  intro opened
  cases opened with
  | error status => exact cliRegisters.done _
  | ok value => exact cliRegisters.done _

theorem wlLinkeClose_keeps (link : Link) : cliRegisters.Mem (wlLinkeClose link) := by
  apply cliRegisters.bind
    (cliRegisters_usb (wlLinkeDetach_mem registerClass (registerClass_control _ _)))
  intro _
  exact cliRegisters_other fun _ _ _ h => h

theorem openTargetDebug_keeps (opts : Options) : cliRegisters.Mem (openTargetDebug opts) := by
  have hfailed (link : Link) (status : WlErr) : cliRegisters.Mem (wlLinkeClose link >>= fun _ =>
      pure (Except.error status : Except WlErr (Link × Chip))) :=
    cliRegisters.bind (wlLinkeClose_keeps link) fun _ => cliRegisters.done _
  unfold openTargetDebug
  cases requireChip opts with
  | none => exact cliRegisters.done _
  | some resolved =>
      apply cliRegisters.bind (wlLinkeOpen_keeps _)
      intro opened
      cases opened with
      | error status => exact cliRegisters.done _
      | ok link =>
          apply cliRegisters.bind (cliRegisters_usb
            (wlLinkeSetInterface_mem registerClass (registerClass_interface _ _)))
          intro result
          obtain ⟨status, link'⟩ := result
          cases status with
          | error error => exact hfailed link' error
          | ok value =>
              apply cliRegisters.bind (cliRegisters_usb
                (wlLinkeHalt_mem registerClass (registerClass_control _ _)))
              intro halted
              cases halted with
              | error error => exact hfailed link' error
              | ok value => exact cliRegisters.done _

theorem cmdDebug_keeps {α : Type} {operation : Link → Chip → Fallible α}
    (hoperation : ∀ link chip, registerClass.Mem (operation link chip).run) (opts : Options) :
    cliRegisters.Mem (cmdDebug operation opts) := by
  apply cliRegisters.bind (openTargetDebug_keeps opts)
  intro opened
  cases opened with
  | error status => exact cliRegisters.done _
  | ok target =>
      obtain ⟨link, chip⟩ := target
      apply cliRegisters.bind (cliRegisters_usb (hoperation link chip))
      intro status
      apply cliRegisters.bind (@cliRegisters_other .usbClose fun _ _ _ h => h)
      intro _
      exact cliRegisters.done _

theorem cmdTargetRead32_keeps (opts : Options) : cliRegisters.Mem (cmdTargetRead32 opts) := by
  unfold cmdTargetRead32
  split
  · split
    · exact cliRegisters.done _
    · exact cmdDebug_keeps (fun link _ =>
        wlDmRead32_mem (registerClass_accesses link).toHasLoads _) opts
  · exact cliRegisters.done _

theorem cmdTargetWrite32_keeps (opts : Options) : cliRegisters.Mem (cmdTargetWrite32 opts) := by
  unfold cmdTargetWrite32
  split
  · split
    · exact cmdDebug_keeps (fun link _ => wlDmWrite32_mem (registerClass_accesses link) _ _) opts
    · exact cliRegisters.done _
  · exact cliRegisters.done _

theorem bench_refines : bench.world.Refines hostAround Bench.target := by
  intro state operation reply next hnext
  cases operation with
  | usb request =>
      cases hnext
      exact .inl ⟨rfl, rfl⟩
  | recv =>
      obtain ⟨target, incoming, outgoing⟩ := state
      cases incoming with
      | nil =>
          cases hnext
          exact rfl
      | cons c rest =>
          cases hnext
          exact rfl
  | send bytes | poll | sleep nanoseconds | malloc size | listen port | accept =>
      cases hnext
      exact rfl

/-- A command before the simulated programmer: it opens, and there is nothing else. -/
def cliSimulator : Handler Cli Sim
  | .host (.usb request), sim => simCommand request sim
  | .host .recv, sim => (.closed, sim)
  | .host (.send _), sim => (.failed, sim)
  | .host .poll, sim => (false, sim)
  | .host (.sleep _), sim => ((), sim)
  | .host (.malloc _), sim => (false, sim)
  | .host (.listen _), sim => (false, sim)
  | .host .accept, sim => (false, sim)
  | .usbOpen _, sim => (.ok (), sim)
  | .usbClose, sim => ((), sim)
  | .stat _, sim => (none, sim)
  | .openRead _, sim => (false, sim)
  | .fread _, sim => ([], sim)
  | .openWrite _, sim => (false, sim)
  | .fwrite _, sim => (0, sim)
  | .fclose, sim => (false, sim)
  | .print data, sim => (data.length, sim)
  | .stopped, sim => (false, sim)

theorem cliSimulator_refines : cliSimulator.world.Refines cliAround id := by
  intro state operation reply next hnext
  cases operation with
  | host operation =>
      cases operation with
      | usb request =>
          exact .inl ⟨(congrArg Prod.fst hnext).symm, (congrArg Prod.snd hnext).symm⟩
      | recv | send bytes | poll | sleep nanoseconds | malloc size | listen port | accept =>
          cases hnext
          exact rfl
  | usbOpen serial | usbClose | stat path | openRead path | fread size | openWrite path
  | fwrite data | fclose | print data | stopped =>
      cases hnext
      exact rfl

/-- A debugger that reads a word of RAM. -/
def readingBench : Bench :=
  ⟨simConfigured ch32v003, gdbFrame (text "m20000000,4") ++ [ascii '+'], []⟩

def readingPacket : List Byte := fillPacket [] (text "m20000000,4")

def readingRun : Option (Bool × GdbConn) × Bench :=
  ((gdbHandlePacket 40 readingPacket).run (.fresh wlLinkeAttachTransport ch32v003)).run bench
    ((gdbRecvPacket 40).run bench readingBench).2

/-- `target read32 0x20000000 --chip ch32v003` -/
def readingOptions : Options where
  serial := none
  chip := some "ch32v003"
  file := some "read32"
  extra := ["0x20000000"]
  address := 0
  size := 0
  addressGiven := false
  sizeGiven := false
  verify := true
  port := 3333

/-- The debugger's session, served. -/
theorem readingSession_serves : ∃ conn state, Serves bench.world accessSession
    ⟨41, [], .fresh wlLinkeAttachTransport ch32v003, readingBench⟩ [readingPacket]
    ⟨40, readingPacket, conn, state⟩ ∧ state.target.register 9 = 0x20000000 := by
  have hreceived : ((gdbRecvPacket 40).run bench readingBench).1 =
      some (some (text "m20000000,4")) := by decide +kernel
  have hhandled : readingRun.1.isSome = true := by decide +kernel
  have hregister : readingRun.2.target.register 9 = 0x20000000 := by decide +kernel
  obtain ⟨⟨continues, conn⟩, hresult⟩ := Option.isSome_iff_exists.mp hhandled
  have hrun : Program.Returns bench.world
      ((gdbHandlePacket 40 readingPacket).run (.fresh wlLinkeAttachTransport ch32v003))
      ((gdbRecvPacket 40).run bench readingBench).2 (continues, conn) readingRun.2 :=
    Program.returns_of_fst hresult
  have hadmits : AccessesMemory readingPacket := .inl (by decide)
  have hturn : Turn bench.world accessSession
      ⟨41, [], .fresh wlLinkeAttachTransport ch32v003, readingBench⟩ readingPacket
      ⟨40, readingPacket, conn, readingRun.2⟩ :=
    @Turn.mk Bench bench.world accessSession 40 [] (text "m20000000,4") _ conn readingBench _
      readingRun.2 continues rfl (Program.returns_of_fst hreceived) hadmits
      (hrun.mono fun _ _ _ _ h => ⟨h, trivial⟩)
  exact ⟨conn, readingRun.2, Serves.refl.turn hturn, hregister⟩

theorem readingCommand_returns : ∃ status final, Program.Returns cliSimulator.world
    (cmdTargetRead32 readingOptions) readingBench.target status final ∧
      final.register 9 = 0x20000000 := by
  have hstatus : ((cmdTargetRead32 readingOptions).run cliSimulator
      readingBench.target).1.isSome = true := by decide +kernel
  have hregister : ((cmdTargetRead32 readingOptions).run cliSimulator
      readingBench.target).2.register 9 = 0x20000000 := by decide +kernel
  obtain ⟨status, hcommand⟩ := Option.isSome_iff_exists.mp hstatus
  exact ⟨status, _, Program.returns_of_fst hcommand, hregister⟩

end WchLink
