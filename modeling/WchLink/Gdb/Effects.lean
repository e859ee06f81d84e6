import WchLink.Gdb.Breakpoints
import WchLink.Gdb.Session

/-! # Effects of the handlers

What a handler makes of the part's memories and the breakpoint table. Replies
to the debugger make nothing of them, however the debugger takes them.
-/

namespace WchLink

open Bytes Interaction

/-! ## Replies -/

/-- Only the session's own flags have changed. -/
structure GdbConn.SameTarget (before after : GdbConn) : Prop where
  link : after.link = before.link
  chip : after.chip = before.chip
  breakpoints : after.breakpoints = before.breakpoints

theorem GdbConn.SameTarget.refl (conn : GdbConn) : conn.SameTarget conn := ⟨rfl, rfl, rfl⟩

theorem GdbConn.SameTarget.trans {first second third : GdbConn} (h : first.SameTarget second)
    (h' : second.SameTarget third) : first.SameTarget third :=
  ⟨h'.link.trans h.link, h'.chip.trans h.chip, h'.breakpoints.trans h.breakpoints⟩

theorem gdbAwaitAck_sameTarget (framed : List Byte) (fuel : Nat) (conn : GdbConn) :
    ((gdbAwaitAck framed fuel).run conn).Always fun result => conn.SameTarget result.2 := by
  induction fuel generalizing conn with
  | zero => exact trivial
  | succ fuel ih =>
      have hfailed : conn.SameTarget { conn with quit := true } := ⟨rfl, rfl, rfl⟩
      rw [gdbAwaitAck, StateT.run_bind, StateT.run_lift, bind_assoc]
      refine (Program.always_true (gdbRecvByte fuel)).bind fun reply _ => ?_
      rw [pure_bind]
      cases reply with
      | none => exact hfailed
      | some reply =>
          dsimp only
          by_cases hplus : reply = ascii '+'
          · rw [if_pos hplus]
            exact .refl conn
          · rw [if_neg hplus]
            by_cases hminus : reply = ascii '-'
            · rw [if_pos hminus, StateT.run_bind, StateT.run_lift, bind_assoc]
              refine (Program.always_true (gdbSendAll fuel framed)).bind fun sent _ => ?_
              rw [pure_bind]
              cases sent with
              | true => exact ih conn
              | false => exact (ih { conn with quit := true }).mono fun _ h => hfailed.trans h
            · rw [if_neg hminus]
              exact ih conn

theorem gdbSendPacket_sameTarget (fuel : Nat) (payload : List Byte) (conn : GdbConn) :
    ((gdbSendPacket fuel payload).run conn).Always fun result => conn.SameTarget result.2 := by
  unfold gdbSendPacket
  dsimp only
  rw [StateT.run_bind, StateT.run_lift, bind_assoc]
  refine (Program.always_true (gdbSendAll fuel _)).bind fun sent _ => ?_
  rw [pure_bind]
  cases sent with
  | true => exact gdbAwaitAck_sameTarget _ _ conn
  | false => exact ⟨rfl, rfl, rfl⟩

/-- The programs that leave the programmer alone. -/
def asideClass {σ : Type} (host : Handler Host σ) (sim : σ → Sim) : ProgramClass Host :=
  Program.keeping host.world (fun _ _ => True) (fun before after => sim after = sim before)
    (fun _ => rfl) fun h h' => h'.trans h

theorem Carries.hasSocket {σ : Type} {host : Handler Host σ} {sim : σ → Sim}
    (hhost : Carries host sim) : HasSocket (asideClass host sim) fun _ => True := by
  have hperform {operation : HostOp} (hother : ∀ request, operation ≠ .usb request) :
      (asideClass host sim).Mem (request operation) :=
    Program.keeps_perform (fun _ => trivial) fun state reply next hreply => by
      have hnext : (host operation state).2 = next := congrArg Prod.snd hreply
      rw [← hnext]
      exact hhost.other operation state hother
  exact
    { cuts := fun _ => rfl
      recv := hperform nofun
      send := fun _ _ => hperform nofun }

/-! ## Effects of the handlers -/

section Effects

variable {σ : Type} {host : Handler Host σ} {sim : σ → Sim} {link : Link} {α β : Type}

/-- A connection on a quiet machine that shows these memories and this table. -/
structure Shown (sim : σ → Sim) (link : Link) (conn : GdbConn) (state : σ)
    (debuggee : Debuggee) : Prop where
  link : conn.link = link
  chip : conn.chip = debuggee.contents.chip
  quiet : (sim state).Quiet
  debuggee : conn.debuggee (sim state).target.contents = debuggee

/-- Whenever it returns, the program takes the memories and the table from
`before` to `after`. -/
def Leaves (host : Handler Host σ) (sim : σ → Sim) (link : Link) (program : Gdb α)
    (before : Debuggee) (value : α) (after : Debuggee) : Prop :=
  ∀ conn state, Shown sim link conn state before → ∀ result conn' final,
    Program.Returns host.world (program.run conn) state (result, conn') final →
      result = value ∧ Shown sim link conn' final after

namespace Leaves

variable {before middle after : Debuggee}

theorem done (value : α) : Leaves host sim link (pure value : Gdb α) before value before := by
  intro conn state hshown result conn' final hreturns
  obtain ⟨hresult, rfl⟩ := Program.returns_done_iff.mp hreturns
  cases hresult
  exact ⟨rfl, hshown⟩

theorem bind {program : Gdb α} {rest : α → Gdb β} {value : α} {result : β}
    (h : Leaves host sim link program before value middle)
    (hrest : Leaves host sim link (rest value) middle result after) :
    Leaves host sim link (program >>= rest) before result after := by
  intro conn state hshown last conn' final hreturns
  rw [StateT.run_bind] at hreturns
  obtain ⟨⟨first, between⟩, reached, hfirst, hmore⟩ := Program.returns_bind_iff.mp hreturns
  obtain ⟨rfl, hreached⟩ := h conn state hshown first between reached hfirst
  exact hrest between reached hreached last conn' final hmore

/-- A run on the machine, for every connection that shows `before`. -/
theorem of_drives {program : Gdb α} {value : α}
    (h : ∀ conn : GdbConn, conn.link = link → conn.chip = before.contents.chip →
      conn.breakpoints = before.breakpoints →
      Drives host (machineSurface sim) (program.run conn) before.contents
        (value, conn.tabled after) after.contents)
    (hchip : after.contents.chip = before.contents.chip) :
    Leaves host sim link program before value after := by
  intro conn state hshown result conn' final hreturns
  obtain ⟨hlink, hpart, hquiet, hview⟩ := hshown
  subst hview
  obtain ⟨reached, hrun, hreached, hframe⟩ := h conn hlink hpart rfl state hquiet rfl
  have hsame := hrun.symm.trans (Program.returns_world_iff.mp hreturns)
  obtain ⟨hresult, rfl⟩ := Prod.mk.inj hsame
  obtain ⟨rfl, rfl⟩ := Prod.mk.inj (Option.some.inj hresult)
  refine ⟨rfl, hlink, hpart.trans hchip.symm, hframe hquiet, ?_⟩
  have hcontents : (sim reached).target.contents = after.contents := hreached
  rw [hcontents]
  rfl

/-- A reply moves neither the memories nor the table. -/
theorem sendPacket (hhost : Carries host sim) (fuel : Nat) (payload : List Byte) :
    Leaves host sim link (gdbSendPacket fuel payload) before () before := by
  intro conn state hshown result conn' final hreturns
  obtain ⟨hlink, hpart, hquiet, hview⟩ := hshown
  have hmem : ((gdbSendPacket fuel payload).run conn).Keeps host.world (fun _ _ => True)
      fun before after => sim after = sim before :=
    (gdbSendPacket_mem hhost.hasSocket fuel (fun _ => trivial) conn).1
  have haside : sim final = sim state := hreturns.of_wp (hmem state)
  have hsame := hreturns.of_always (gdbSendPacket_sameTarget fuel payload conn)
  refine ⟨rfl, hsame.link.trans hlink, hsame.chip.trans hpart, ?_, ?_⟩
  · rw [haside]
    exact hquiet
  · rw [haside, ← hview, GdbConn.debuggee, GdbConn.debuggee, hsame.breakpoints]

theorem sendText (hhost : Carries host sim) (fuel : Nat) (string : List Byte) :
    Leaves host sim link (gdbSendText fuel string) before () before :=
  sendPacket hhost fuel (cstring string)

end Leaves

theorem gdbBreakpointsClear_leaves (hhost : Carries host sim) (hlink : link.Usable)
    {before : Debuggee} (hsound : before.Sound) :
    Leaves host sim link gdbBreakpointsClear before () before.clearAll := by
  refine .of_drives (fun conn hconn hchip htable => ?_) before.clearAll_chip
  obtain ⟨contents, breakpoints⟩ := before
  cases htable
  exact gdbBreakpointsClear_drives hhost (hconn ▸ hlink) hchip.symm hsound

theorem gdbHandleZ_leaves (hhost : Carries host sim) (hlink : link.Usable) {before : Debuggee}
    (hsound : before.Sound) (fuel : Nat) {packet : List Byte}
    (haddress : before.contents.chip.TakesZ packet) :
    Leaves host sim link (gdbHandleZ fuel packet) before () (before.handleZ packet) := by
  cases hparse : parseBreakpoint packet with
  | none =>
      have hsame : before.handleZ packet = before := by rw [Debuggee.handleZ, hparse]
      rw [gdbHandleZ, hparse, hsame]
      exact .sendText hhost fuel _
  | some request =>
      obtain ⟨address, kind⟩ := request
      rw [gdbHandleZ_eq fuel hparse]
      have hupdate : Leaves host sim link
          ((if packet.getD 0 0 = ascii 'Z' then gdbBreakpointInsert else gdbBreakpointRemove)
            address kind) before
          (if packet.getD 0 0 = ascii 'Z' then (before.insert address kind).1
            else (before.remove address kind).1) (before.handleZ packet) := by
        refine .of_drives (fun conn hconn hchip htable => ?_) (before.handleZ_chip packet)
        obtain ⟨contents, breakpoints⟩ := before
        cases htable
        exact breakpointUpdate_drives hhost (hconn ▸ hlink) hchip.symm hsound haddress hparse
      exact hupdate.bind (.sendText hhost fuel _)

/-! ## Handlers that move nothing -/

/-- Whatever it returns, the program leaves the memories and the table alone. -/
def Still (host : Handler Host σ) (sim : σ → Sim) (link : Link) (program : Gdb α)
    (debuggee : Debuggee) : Prop :=
  ∀ conn state, Shown sim link conn state debuggee → ∀ result conn' final,
    Program.Returns host.world (program.run conn) state (result, conn') final →
      Shown sim link conn' final debuggee

theorem Leaves.still {program : Gdb α} {value : α} {debuggee : Debuggee}
    (h : Leaves host sim link program debuggee value debuggee) :
    Still host sim link program debuggee :=
  fun conn state hshown result conn' final hreturns =>
    (h conn state hshown result conn' final hreturns).2

theorem Still.leaves {program : Gdb Unit} {debuggee : Debuggee}
    (h : Still host sim link program debuggee) :
    Leaves host sim link program debuggee () debuggee :=
  fun conn state hshown result conn' final hreturns =>
    ⟨rfl, h conn state hshown result conn' final hreturns⟩

namespace Still

variable {debuggee : Debuggee}

theorem done (value : α) : Still host sim link (pure value : Gdb α) debuggee :=
  (Leaves.done value).still

theorem bind {program : Gdb α} {rest : α → Gdb β} (h : Still host sim link program debuggee)
    (hrest : ∀ value, Still host sim link (rest value) debuggee) :
    Still host sim link (program >>= rest) debuggee := by
  intro conn state hshown last conn' final hreturns
  rw [StateT.run_bind] at hreturns
  obtain ⟨⟨first, between⟩, reached, hfirst, hmore⟩ := Program.returns_bind_iff.mp hreturns
  exact hrest first between reached (h conn state hshown first between reached hfirst) last conn'
    final hmore

theorem sendPacket (hhost : Carries host sim) (fuel : Nat) (payload : List Byte) :
    Still host sim link (gdbSendPacket fuel payload) debuggee :=
  (Leaves.sendPacket hhost fuel payload).still

theorem sendText (hhost : Carries host sim) (fuel : Nat) (string : List Byte) :
    Still host sim link (gdbSendText fuel string) debuggee :=
  sendPacket hhost fuel (cstring string)

/-- A request that is not the programmer's. -/
theorem request (hhost : Carries host sim) {operation : HostOp}
    (hother : ∀ bytes, operation ≠ .usb bytes) :
    Still host sim link (StateT.lift (WchLink.request operation)) debuggee := by
  intro conn state hshown result conn' final hreturns
  rw [StateT.run_lift] at hreturns
  obtain ⟨value, reached, hrequest, hdone⟩ := Program.returns_bind_iff.mp hreturns
  obtain ⟨hresult, rfl⟩ := Program.returns_done_iff.mp hdone
  have hnext : (host operation state).2 = final :=
    congrArg Prod.snd (Program.returns_world_iff.mp hrequest)
  have haside : sim final = sim state := hnext ▸ hhost.other operation state hother
  cases hresult
  exact ⟨hshown.link, hshown.chip, haside ▸ hshown.quiet, haside ▸ hshown.debuggee⟩

/-- A programmer operation that a quiet simulator carries out without moving its
memories. -/
theorem onTarget (hhost : Carries host sim) {operation : Link → Fallible α}
    (hrun : ∀ state : Sim, state.Quiet → ∃ status after,
      (operation link).run.run simulator state = (some status, after) ∧ after.Quiet ∧
        after.target.contents = state.target.contents) :
    Still host sim link (WchLink.onTarget operation) debuggee := by
  intro conn state hshown result conn' final hreturns
  obtain ⟨status, after, hoperation, hquiet, hcontents⟩ := hrun (sim state) hshown.quiet
  obtain ⟨reached, hreached, hsim⟩ := hhost.onHost_run (operation link).run state
  rw [hoperation] at hreached hsim
  have hconn : ((WchLink.onTarget operation).run conn).run host state =
      (some (status, conn), reached) := by
    show (onHost (operation conn.link).run >>= fun status => pure (status, conn)).run host state = _
    rw [hshown.link]
    exact Program.run_bind_of_eq hreached
  have hsame := hconn.symm.trans (Program.returns_world_iff.mp hreturns)
  obtain ⟨hresult, rfl⟩ := Prod.mk.inj hsame
  obtain ⟨-, rfl⟩ := Prod.mk.inj (Option.some.inj hresult)
  refine ⟨hshown.link, hshown.chip, hsim ▸ hquiet, ?_⟩
  rw [hsim, hcontents]
  exact hshown.debuggee

end Still

/-! ### Registers -/

theorem Sim.Quiet.dm {state : Sim} (h : state.Quiet) {dm : SimModule}
    (hcmderr : dm.cmderr = state.dm.cmderr) : ({ state with dm } : Sim).Quiet :=
  ⟨⟨h.ready.configured, hcmderr.trans h.ready.cmderr⟩, h.target⟩

/-- The registers a `p` packet can name. -/
theorem gdbReg_cases {reg : Word} (hreg : ¬reg > gdbRegPc) :
    reg = gdbRegPc ∨ ∃ n < 32, reg = BitVec.ofNat 32 n ∧ reg ≠ gdbRegPc := by
  by_cases hpc : reg = gdbRegPc
  · exact .inl hpc
  · have hle : reg.toNat ≤ 16 := BitVec.le_def.mp (BitVec.not_lt.mp hreg)
    exact .inr ⟨reg.toNat, by omega, by rw [BitVec.ofNat_toNat, BitVec.setWidth_eq], hpc⟩

section Registers

variable (hhost : Carries host sim) (hlink : link.Usable) (debuggee : Debuggee)

include hhost hlink

theorem gprRead_still {reg : Nat} (hreg : reg < 32) :
    Still host sim link (onTarget fun link => wlDmGprRead link (BitVec.ofNat 32 reg)) debuggee :=
  .onTarget hhost fun _ hquiet =>
    ⟨_, _, wlDmGprRead_sim hlink hreg hquiet.ready, hquiet.dm rfl, rfl⟩

theorem pcRead_still : Still host sim link (onTarget wlDmPcRead) debuggee :=
  .onTarget hhost fun _ hquiet =>
    ⟨_, _, wlDmPcRead_sim hlink hquiet.ready, hquiet.dm rfl, rfl⟩

theorem gdbReadGprs_still {regs : List Nat} (hregs : ∀ reg ∈ regs, reg < 32) :
    Still host sim link (gdbReadGprs regs) debuggee := by
  induction regs with
  | nil => exact .done _
  | cons reg rest ih =>
      rw [gdbReadGprs]
      refine (gprRead_still hhost hlink debuggee (hregs reg List.mem_cons_self)).bind
        fun status => ?_
      cases status with
      | error error => exact .done _
      | ok value =>
          refine (ih fun reg hreg => hregs reg (List.mem_cons_of_mem _ hreg)).bind fun status => ?_
          cases status with
          | error error => exact .done _
          | ok reply => exact .done _

theorem gdbHandleG_still (fuel : Nat) : Still host sim link (gdbHandleG fuel) debuggee := by
  refine (gdbReadGprs_still hhost hlink debuggee fun reg hreg => ?_).bind fun status => ?_
  · have hlt := List.mem_range.mp hreg
    unfold gdbRv32eGprs at hlt
    omega
  · cases status with
    | error error => exact .sendText hhost fuel _
    | ok gprs =>
        refine (pcRead_still hhost hlink debuggee).bind fun status => ?_
        cases status with
        | error error => exact .sendText hhost fuel _
        | ok pc => exact .sendPacket hhost fuel _

theorem gdbRegRead_still {reg : Word} (hreg : ¬reg > gdbRegPc) :
    Still host sim link (onTarget (gdbRegRead reg)) debuggee := by
  rcases gdbReg_cases hreg with rfl | ⟨n, hn, rfl, hne⟩
  · exact pcRead_still hhost hlink debuggee
  · have hread : gdbRegRead (BitVec.ofNat 32 n) = fun link => wlDmGprRead link (BitVec.ofNat 32 n) :=
      funext fun link => if_neg hne
    rw [hread]
    exact gprRead_still hhost hlink debuggee hn

theorem gdbRegWrite_still {reg : Word} (hreg : ¬reg > gdbRegPc) (value : Word) :
    Still host sim link (onTarget (gdbRegWrite reg value)) debuggee := by
  rcases gdbReg_cases hreg with rfl | ⟨n, hn, rfl, hne⟩
  · exact .onTarget hhost fun _ hquiet =>
      ⟨_, _, wlDmPcWrite_sim hlink value hquiet.ready, hquiet.dm rfl, rfl⟩
  · have hwrite : gdbRegWrite (BitVec.ofNat 32 n) value =
        fun link => wlDmGprWrite link (BitVec.ofNat 32 n) value := funext fun link => if_neg hne
    rw [hwrite]
    exact .onTarget hhost fun _ hquiet =>
      ⟨_, _, wlDmGprWrite_sim hlink hn value hquiet.ready, hquiet.dm rfl, rfl⟩

theorem gdbHandleP_still (fuel : Nat) (payload : List Byte) :
    Still host sim link (gdbHandleP fuel payload) debuggee := by
  have hreply (string : List Byte) : Still host sim link (gdbSendText fuel string) debuggee :=
    .sendText hhost fuel string
  unfold gdbHandleP
  split
  · exact hreply _
  · next reg rest hparse =>
      by_cases hreg : reg > gdbRegPc
      · rw [if_pos hreg]
        exact hreply _
      · rw [if_neg hreg]
        split
        · refine (gdbRegRead_still hhost hlink debuggee hreg).bind fun status => ?_
          cases status with
          | error error => exact hreply _
          | ok value => exact hreply _
        · split
          · exact hreply _
          · refine (gdbRegWrite_still hhost hlink debuggee hreg _).bind fun status => ?_
            cases status with
            | error error => exact hreply _
            | ok value => exact hreply _

/-! ### Memory reads -/

theorem readBlock_still (address : Word) (count : Nat) :
    Still host sim link (onTarget fun link => filled (wlDmReadBlock link address count))
      debuggee := by
  refine .onTarget hhost fun state hquiet => ?_
  obtain ⟨bytes, after, hdrives, hmoved⟩ := filled_wlDmReadBlock_succeeds hlink address count
    state.target
  obtain ⟨final, hrun, hfinal, hframe⟩ := hdrives state hquiet.ready rfl
  have hafter : final.target = after := hfinal
  refine ⟨_, final, hrun, ⟨hframe.ready hquiet.ready, ?_⟩, ?_⟩
  · rw [hafter]
    exact ⟨hmoved.programErrors.trans hquiet.target.programErrors,
      Nat.le_trans hmoved.busyReads hquiet.target.busyReads,
      hmoved.ctlr.symm ▸ hquiet.target.mode⟩
  · rw [hafter, SimTarget.contents, SimTarget.contents, hmoved.chip, hmoved.flash, hmoved.ram]

theorem gdbHandleM_still (fuel : Nat) (payload : List Byte) :
    Still host sim link (gdbHandleM fuel payload) debuggee := by
  have hreply (string : List Byte) : Still host sim link (gdbSendText fuel string) debuggee :=
    .sendText hhost fuel string
  unfold gdbHandleM
  split
  · exact hreply _
  · split
    · exact hreply _
    · refine (readBlock_still hhost hlink debuggee _ _).bind fun status => ?_
      cases status with
      | error error => exact hreply _
      | ok buffer =>
          refine (Still.request hhost fun bytes h => by cases h).bind fun allocated => ?_
          split
          · exact .sendPacket hhost fuel _
          · exact hreply _

/-! ### Resuming -/

theorem gdbResume_still : Still host sim link gdbResume debuggee := by
  refine Still.bind ?_ fun _ => .onTarget hhost fun _ hquiet =>
    ⟨_, _, wlLinkeDmiWrite_run hlink _ _ hquiet.ready.configured, hquiet.dm rfl, rfl⟩
  refine (Still.onTarget hhost fun _ hquiet =>
    ⟨_, _, wlDmDcsrRead_sim hlink hquiet.ready, hquiet.dm rfl, rfl⟩).bind fun status => ?_
  cases status with
  | error error => exact .done _
  | ok dcsr =>
      exact .onTarget hhost fun _ hquiet =>
        ⟨_, _, wlDmDcsrWrite_sim hlink _ hquiet.ready, hquiet.dm rfl, rfl⟩

end Registers

end Effects

end WchLink
