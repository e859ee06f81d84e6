import WchLink.Gdb.Server
import WchLink.Layers

/-! # What the handlers are made of

A class of programs that has the server's exchanges with the debugger has its
handlers as well, as far as it has the target operations they use. Stop replies
are left out: what they need depends on what the class is about.
-/

namespace WchLink

open Bytes Interaction

/-! ## Frames that are no stop replies -/

/-- Not the beginning of a stop reply. -/
def Plain (bytes : List Byte) : Prop := ¬[ascii '$', ascii 'T'] <+: bytes

instance (bytes : List Byte) : Decidable (Plain bytes) := inferInstanceAs (Decidable (¬_))

theorem plain_nil : Plain [] := by decide

theorem plain_of_notMem {bytes : List Byte} (h : ascii '$' ∉ bytes) : Plain bytes := by
  rintro ⟨rest, rfl⟩
  exact h List.mem_cons_self

theorem plain_singleton (c : Byte) : Plain [c] := by
  rintro ⟨rest, hrest⟩
  cases hrest

theorem dollar_notMem_hexDigit (n : BitVec 4) : hexDigit n ≠ ascii '$' := by
  revert n
  decide

theorem dollar_notMem_formatHexByte (c : Byte) : ascii '$' ∉ formatHexByte c := by
  intro hmem
  unfold formatHexByte at hmem
  rcases List.mem_cons.mp hmem with hdigit | hmem
  · exact dollar_notMem_hexDigit _ hdigit.symm
  · exact dollar_notMem_hexDigit _ (List.mem_singleton.mp hmem).symm

theorem dollar_notMem_gdbEscape (c : Byte) : ascii '$' ∉ gdbEscape c := by
  revert c
  decide

/-- A frame has no `$` but its first. -/
theorem dollar_notMem_frame (payload : List Byte) :
    ascii '$' ∉ payload.flatMap gdbEscape ++
      ascii '#' :: formatHexByte (gdbChecksum payload) := by
  rw [List.mem_append, List.mem_flatMap, List.mem_cons]
  rintro (⟨c, -, hc⟩ | hhash | hsum)
  · exact dollar_notMem_gdbEscape c hc
  · exact absurd hhash (by decide)
  · exact dollar_notMem_formatHexByte _ hsum

/-- A payload that begins with no `T` is framed, and sent again in part, without
looking like a stop reply. -/
theorem plain_frame {payload : List Byte} (hpayload : payload.head? ≠ some (ascii 'T'))
    (sent : Nat) : Plain ((gdbFrame payload).drop sent) := by
  have hrest := dollar_notMem_frame payload
  cases sent with
  | succ sent => exact plain_of_notMem fun hmem => hrest (List.mem_of_mem_drop hmem)
  | zero =>
      rintro ⟨rest, hframe⟩
      obtain ⟨-, hsecond⟩ := List.cons.inj hframe
      cases payload with
      | nil => exact absurd (List.cons.inj hsecond).1 (by decide)
      | cons c payload =>
          have hc : c ≠ ascii 'T' := fun h => hpayload (congrArg some h)
          rw [List.flatMap_cons] at hsecond
          unfold gdbEscape at hsecond
          split at hsecond
          · exact absurd (List.cons.inj hsecond).1 (by decide)
          · exact hc (List.cons.inj hsecond).1.symm

theorem head_cstring {string : List Byte} (h : string.head? ≠ some (ascii 'T')) :
    (cstring string).head? ≠ some (ascii 'T') := by
  cases string with
  | nil => exact h
  | cons c rest =>
      unfold cstring
      rw [List.takeWhile_cons]
      split
      · exact h
      · exact nofun

theorem head_formatHexByte (c : Byte) (rest : List Byte) :
    (formatHexByte c ++ rest).head? ≠ some (ascii 'T') := by
  have hdigit : ∀ n, some (hexDigit n) ≠ some (ascii 'T') := by decide
  exact hdigit _

theorem head_hexBytes (bytes : List Byte) :
    (bytes.flatMap formatHexByte).head? ≠ some (ascii 'T') := by
  cases bytes with
  | nil => exact nofun
  | cons c rest => exact head_formatHexByte c _

theorem head_formatHexU32Le (value : Word) (rest : List Byte) :
    (formatHexU32Le value ++ rest).head? ≠ some (ascii 'T') := by
  unfold formatHexU32Le
  rw [List.append_assoc, List.append_assoc, List.append_assoc]
  exact head_formatHexByte _ _

/-! ## The socket -/

/-- A connection keeps its link and its part. -/
instance : Framed GdbConn where
  keeps := fun before after => after.link = before.link ∧ after.chip = before.chip
  refl := fun _ => ⟨rfl, rfl⟩
  trans := fun h h' => ⟨h'.1.trans h.1, h'.2.trans h.2⟩

variable (C : ProgramClass Host)

/-- The exchanges with the debugger a class has. -/
structure HasSocket (sendable : List Byte → Prop) : Prop where
  cuts : C.Cuts
  recv : C.Mem (request .recv)
  send : ∀ bytes, sendable bytes → C.Mem (request (.send bytes))

section Socket

variable {C} {sendable : List Byte → Prop} (h : HasSocket C sendable)

include h

theorem gdbSendAll_mem (fuel : Nat) {bytes : List Byte}
    (hbytes : ∀ sent, sendable (bytes.drop sent)) : C.Mem (gdbSendAll fuel bytes) := by
  induction fuel generalizing bytes with
  | zero =>
      cases bytes with
      | nil => exact C.done true
      | cons c rest => exact h.cuts
  | succ fuel ih =>
      cases bytes with
      | nil => exact C.done true
      | cons c rest =>
          refine C.bind (h.send _ (hbytes 0)) fun sent => ?_
          cases sent with
          | interrupted => exact ih hbytes
          | failed => exact C.done false
          | wrote count =>
              refine ih fun more => ?_
              rw [List.drop_drop]
              exact hbytes _

theorem gdbRecvByte_mem (fuel : Nat) : C.Mem (gdbRecvByte fuel) := by
  induction fuel with
  | zero => exact h.cuts
  | succ fuel ih =>
      refine C.bind h.recv fun received => ?_
      cases received with
      | byte value => exact C.done _
      | closed => exact C.done _
      | interrupted => exact ih
      | failed => exact C.done _

theorem gdbAwaitAck_mem {framed : List Byte} (hframed : ∀ sent, sendable (framed.drop sent))
    (fuel : Nat) : C.StateMem (gdbAwaitAck framed fuel) := by
  induction fuel with
  | zero => exact C.stateLift h.cuts
  | succ fuel ih =>
      rw [gdbAwaitAck]
      refine C.stateBind (C.stateLift (gdbRecvByte_mem h fuel)) fun reply => ?_
      cases reply with
      | none => exact C.stateModify fun _ => ⟨rfl, rfl⟩
      | some reply =>
          dsimp only
          split
          · exact C.stateDone ()
          · split
            · refine C.stateBind (C.stateLift (gdbSendAll_mem h fuel hframed)) fun sent => ?_
              split
              · exact C.stateBind (C.stateModify fun _ => ⟨rfl, rfl⟩) fun _ => ih
              · exact ih
            · exact ih

theorem gdbSendPacket_mem (fuel : Nat) {payload : List Byte}
    (hframe : ∀ sent, sendable ((gdbFrame payload).drop sent)) :
    C.StateMem (gdbSendPacket fuel payload) := by
  unfold gdbSendPacket
  refine C.stateBind (C.stateLift (gdbSendAll_mem h fuel hframe)) fun sent => ?_
  split
  · exact C.stateBind (C.stateModify fun _ => ⟨rfl, rfl⟩) fun _ => C.stateDone ()
  · exact gdbAwaitAck_mem h hframe fuel

theorem gdbRecvStart_mem (fuel : Nat) : C.Mem (gdbRecvStart fuel) := by
  induction fuel with
  | zero => exact h.cuts
  | succ fuel ih =>
      refine C.bind (gdbRecvByte_mem h fuel) fun received => ?_
      cases received with
      | none => exact C.done none
      | some c =>
          dsimp only
          split
          · exact C.done _
          · exact ih

theorem gdbRecvRaw_mem (fuel : Nat) (raw : List Byte) : C.Mem (gdbRecvRaw fuel raw) := by
  induction fuel generalizing raw with
  | zero => exact h.cuts
  | succ fuel ih =>
      refine C.bind (gdbRecvByte_mem h fuel) fun received => ?_
      cases received with
      | none => exact C.done none
      | some c =>
          dsimp only
          split
          · exact C.done _
          · exact ih _

theorem gdbRecvNibble_mem (fuel : Nat) : C.Mem (gdbRecvNibble fuel) := by
  refine C.bind (gdbRecvByte_mem h fuel) fun received => ?_
  cases received with
  | none => exact C.done none
  | some c => exact C.done _

theorem gdbRecvPacket_mem (hacks : ∀ c sent, sendable ([c].drop sent)) (fuel : Nat) :
    C.Mem (gdbRecvPacket fuel) := by
  unfold gdbRecvPacket
  refine C.bind (gdbRecvStart_mem h fuel) fun start => ?_
  cases start with
  | none => exact C.done none
  | some start =>
      refine C.bind (gdbRecvRaw_mem h fuel []) fun raw => ?_
      cases raw with
      | none => exact C.done none
      | some raw =>
          refine C.bind (gdbRecvNibble_mem h fuel) fun high => ?_
          cases high with
          | none => exact C.done none
          | some high =>
              refine C.bind (gdbRecvNibble_mem h fuel) fun low => ?_
              cases low with
              | none => exact C.done none
              | some low =>
                  dsimp only
                  split
                  · exact C.bind (gdbSendAll_mem h fuel (hacks _)) fun _ => C.done none
                  · exact C.bind (gdbSendAll_mem h fuel (hacks _)) fun _ => C.done _

end Socket

theorem plain_acks (c : Byte) (sent : Nat) : Plain ([c].drop sent) := by
  cases sent with
  | zero => exact plain_singleton c
  | succ sent =>
      rw [List.drop_succ_cons, List.drop_nil]
      exact plain_nil

/-! ## Replies -/

section Replies

variable {C} (h : HasSocket C Plain)

include h

theorem gdbSendPacket_plain (fuel : Nat) {payload : List Byte}
    (hpayload : payload.head? ≠ some (ascii 'T')) : C.StateMem (gdbSendPacket fuel payload) :=
  gdbSendPacket_mem h fuel (plain_frame hpayload)

theorem gdbSendText_plain (fuel : Nat) {string : List Byte}
    (hstring : string.head? ≠ some (ascii 'T')) : C.StateMem (gdbSendText fuel string) :=
  gdbSendPacket_plain h fuel (head_cstring hstring)

theorem gdbSendOutput_mem (fuel : Nat) (string : List Byte) :
    C.StateMem (gdbSendOutput fuel string) := by
  induction string using gdbSendOutput.induct with
  | case1 string hmore count ih =>
      rw [gdbSendOutput, if_pos hmore]
      exact C.stateBind (gdbSendPacket_plain h fuel (by exact nofun)) fun _ => ih
  | case2 string hdone =>
      rw [gdbSendOutput, if_neg hdone]
      exact C.stateDone ()

theorem gdbQxferReply_mem (fuel : Nat) (data : List Byte) (offset requested : Word) :
    C.StateMem (gdbQxferReply fuel data offset requested) := by
  unfold gdbQxferReply
  dsimp only
  split
  · exact gdbSendText_plain h fuel (by decide)
  · refine gdbSendPacket_plain h fuel ?_
    split
    · exact nofun
    · exact nofun

theorem gdbHandleQxfer_mem (fuel : Nat) (payload : List Byte) :
    C.StateMem (gdbHandleQxfer fuel payload) := by
  refine C.stateBind C.stateGet fun conn => ?_
  split
  · exact gdbSendText_plain h fuel (by decide)
  · split
    · exact gdbQxferReply_mem h _ _ _ _
    · split
      · exact gdbQxferReply_mem h _ _ _ _
      · exact gdbSendText_plain h fuel (by decide)

end Replies

/-! ## The target -/

/-- The programmer operations whose requests, made through the host, are in a
class of host programs. -/
def usbClass (C : ProgramClass Host) : ProgramClass Usb := @ProgramClass.comap Usb Host C viaUsb

/-- A programmer operation of the server is one on whatever link it has. -/
theorem onTarget_mem {α : Type} {operation : Link → Fallible α}
    (h : ∀ link, (usbClass C).Mem (operation link).run) : C.StateMem (onTarget operation) :=
  C.stateBind C.stateGet fun conn => C.stateLift (h conn.link)

/-- What the memory handlers use. -/
structure HasMemory : Prop where
  cuts : C.Cuts
  malloc : ∀ size, C.Mem (request (.malloc size))
  accesses : ∀ link, HasAccesses (usbClass C) link

/-! ### Memory and breakpoints -/

section Memory

variable {C} (h : HasMemory C)

include h

theorem gdbMemRead_mem (address : Word) (buffer : List Byte) (length : Nat) :
    C.StateMem (gdbMemRead address buffer length) := by
  refine C.stateBind C.stateGet fun conn => ?_
  exact C.stateBind (C.stateLift (wlDmReadBlock_mem (h.accesses conn.link).toHasLoads _ _ []).1)
    fun _ => C.stateDone _

theorem gdbMemPatch_mem (address : Word) (bytes : List Byte) :
    C.StateMem (gdbMemPatch address bytes) := by
  refine C.stateBind C.stateGet fun conn => ?_
  split
  · dsimp only
    split
    · exact C.stateDone _
    · refine C.stateBind (C.stateLift (h.malloc _)) fun allocated => ?_
      split
      · exact C.stateDone _
      · refine C.stateBind (onTarget_mem C fun link => filled_mem (h.accesses link).toHasLoads _ _)
          fun status => ?_
        cases status with
        | error error => exact C.stateDone _
        | ok page => exact onTarget_mem C fun link => wlFlashWrite_mem (h.accesses link) h.cuts _ _ _ _
  · split
    · exact onTarget_mem C fun link => wlDmWrite16_mem (h.accesses link) _ _
    · split
      · exact onTarget_mem C fun link => wlDmWrite32_mem (h.accesses link) _ _
      · exact C.stateDone _

theorem gdbBreakpointInsert_mem (address kind : Word) :
    C.StateMem (gdbBreakpointInsert address kind) := by
  unfold gdbBreakpointInsert
  split
  · exact C.stateDone false
  · refine C.stateBind C.stateGet fun conn => ?_
    split
    · exact C.stateDone false
    · refine C.stateBind C.stateGet fun conn => ?_
      refine C.stateBind (gdbMemRead_mem h _ _ _) fun result => ?_
      refine C.stateBind (C.stateModify fun _ => ⟨rfl, rfl⟩) fun _ => ?_
      split
      · exact C.stateDone false
      · refine C.stateBind (gdbMemPatch_mem h _ _) fun status => ?_
        cases status with
        | error error => exact C.stateDone false
        | ok value => exact C.stateBind (C.stateModify fun _ => ⟨rfl, rfl⟩) fun _ => C.stateDone true

theorem gdbBreakpointRemove_mem (address kind : Word) :
    C.StateMem (gdbBreakpointRemove address kind) := by
  refine C.stateBind C.stateGet fun conn => ?_
  split
  · exact C.stateDone false
  · refine C.stateBind C.stateGet fun conn => ?_
    refine C.stateBind (gdbMemPatch_mem h _ _) fun status => ?_
    cases status with
    | error error => exact C.stateDone false
    | ok value => exact C.stateBind (C.stateModify fun _ => ⟨rfl, rfl⟩) fun _ => C.stateDone true

theorem gdbBreakpointsClear_mem : C.StateMem gdbBreakpointsClear := by
  have hslot (slot : Fin gdbMaxBreakpoints) : C.StateMem (gdbBreakpointClear slot) := by
    refine C.stateBind C.stateGet fun conn => ?_
    dsimp only
    split
    · exact C.stateBind (gdbMemPatch_mem h _ _) fun _ => C.stateModify fun _ => ⟨rfl, rfl⟩
    · exact C.stateDone _
  unfold gdbBreakpointsClear
  induction List.finRange gdbMaxBreakpoints with
  | nil => exact C.stateDone _
  | cons slot rest ih => exact C.stateBind (hslot slot) fun _ => ih

theorem gdbWriteBytes_mem (link : Link) (address : Word) (bytes : List Byte) :
    (usbClass C).Mem (gdbWriteBytes link address bytes).run := by
  induction bytes generalizing address with
  | nil => exact (usbClass C).ok ()
  | cons byte rest ih =>
      exact (usbClass C).andThen (wlDmWrite8_mem (h.accesses link) _ _) fun _ => ih _

variable (hsocket : HasSocket C Plain)

include hsocket

omit h in
/-- A monitor command on one number, by its target operation. -/
theorem gdbMonitorRead_mem (fuel : Nat) (argument : List Byte)
    {read : Link → Word → Fallible Word} (line : Word → Word → List Byte) (failure : List Byte)
    (hread : ∀ link number, (usbClass C).Mem (read link number).run) :
    C.StateMem (gdbMonitorRead fuel argument read line failure) := by
  unfold gdbMonitorRead
  split
  · exact gdbSendOutput_mem hsocket _ _
  · refine C.stateBind (onTarget_mem C fun link => hread link _) fun status => ?_
    cases status with
    | error error => exact gdbSendOutput_mem hsocket _ _
    | ok value => exact gdbSendOutput_mem hsocket _ _

omit h in
theorem gdbMonitorWrite_mem (fuel : Nat) (first second : List Byte)
    {write : Link → Word → Word → Fallible Unit} (failure : List Byte)
    (hwrite : ∀ link number value, (usbClass C).Mem (write link number value).run) :
    C.StateMem (gdbMonitorWrite fuel first second write failure) := by
  unfold gdbMonitorWrite
  split
  · refine C.stateBind (onTarget_mem C fun link => hwrite link _ _) fun status => ?_
    cases status with
    | error error => exact gdbSendOutput_mem hsocket _ _
    | ok value => exact gdbSendOutput_mem hsocket _ _
  · exact gdbSendOutput_mem hsocket _ _

theorem gdbMonitorRead32_mem (fuel : Nat) (argument : List Byte) :
    C.StateMem (gdbMonitorRead32 fuel argument) :=
  gdbMonitorRead_mem hsocket _ _ _ _ fun link _ => wlDmRead32_mem (h.accesses link).toHasLoads _

theorem gdbMonitorWrite32_mem (fuel : Nat) (first second : List Byte) :
    C.StateMem (gdbMonitorWrite32 fuel first second) :=
  gdbMonitorWrite_mem hsocket _ _ _ _ fun link _ _ => wlDmWrite32_mem (h.accesses link) _ _

theorem gdbHandleM_mem (fuel : Nat) (payload : List Byte) : C.StateMem (gdbHandleM fuel payload) := by
  have hfailed := gdbSendText_plain hsocket fuel (by decide : (text "E01").head? ≠ _)
  unfold gdbHandleM
  split
  · exact hfailed
  · split
    · exact hfailed
    · refine C.stateBind (onTarget_mem C fun link => filled_mem (h.accesses link).toHasLoads _ _)
        fun status => ?_
      cases status with
      | error error => exact hfailed
      | ok buffer =>
          refine C.stateBind (C.stateLift (h.malloc _)) fun allocated => ?_
          split
          · exact gdbSendPacket_plain hsocket fuel (head_hexBytes buffer)
          · exact hfailed

theorem gdbHandleMWrite_mem (fuel : Nat) (payload : List Byte) :
    C.StateMem (gdbHandleMWrite fuel payload) := by
  unfold gdbHandleMWrite
  split
  · exact gdbSendText_plain hsocket fuel (by decide)
  · refine C.stateBind (onTarget_mem C fun link => gdbWriteBytes_mem h link _ _) fun status => ?_
    cases status with
    | error error => exact gdbSendText_plain hsocket fuel (by decide)
    | ok value => exact gdbSendText_plain hsocket fuel (by decide)

theorem gdbHandleZ_mem (fuel : Nat) (payload : List Byte) : C.StateMem (gdbHandleZ fuel payload) := by
  unfold gdbHandleZ
  split
  · exact gdbSendText_plain hsocket fuel (by decide)
  · dsimp only
    refine C.stateBind ?_ fun done => ?_
    · split
      · exact gdbBreakpointInsert_mem h _ _
      · exact gdbBreakpointRemove_mem h _ _
    · split
      · exact gdbSendText_plain hsocket fuel (by decide)
      · exact gdbSendText_plain hsocket fuel (by decide)

end Memory

/-! ### The register report -/

section Report

variable {C} {sendable : List Byte → Prop} (hsocket : HasSocket C sendable)
  (hcommands : ∀ link, HasCommands (usbClass C) link)

include hcommands

/-- The register part of a `g` reply: a field for each register. -/
theorem gdbReadGprs_then {α : Type} (regs : List Nat)
    {rest : Except WlErr (List Byte) → Gdb α}
    (hrest : ∀ status, (∀ gprs, status = .ok gprs → ∃ values : List Word,
      values.length = regs.length ∧ gprs = values.flatMap formatHexU32Le) → C.StateMem (rest status)) :
    C.StateMem (gdbReadGprs regs >>= rest) := by
  induction regs generalizing rest with
  | nil => exact hrest (.ok []) fun gprs hgprs => by cases hgprs; exact ⟨[], rfl, rfl⟩
  | cons reg regs ih =>
      rw [gdbReadGprs, bind_assoc]
      refine C.stateBind (onTarget_mem C fun link => wlDmGprRead_mem (hcommands link) _)
        fun status => ?_
      cases status with
      | error error => exact hrest (.error error) fun gprs hgprs => by cases hgprs
      | ok value =>
          dsimp only
          rw [bind_assoc]
          refine ih fun status hstatus => ?_
          cases status with
          | error error => exact hrest (.error error) fun gprs hgprs => by cases hgprs
          | ok reply =>
              refine hrest (.ok (formatHexU32Le value ++ reply)) fun gprs hgprs => ?_
              cases hgprs
              obtain ⟨values, hlength, rfl⟩ := hstatus reply rfl
              exact ⟨value :: values, congrArg Nat.succ hlength, rfl⟩

include hsocket

/-- A `g` packet is answered with seventeen register fields or an error. -/
theorem gdbHandleG_mem_of (fuel : Nat)
    (herror : ∀ sent, sendable ((gdbFrame (text "E01")).drop sent))
    (hfields : ∀ values : List Word, values.length = gdbRv32eGprs + 1 → ∀ sent,
      sendable ((gdbFrame (values.flatMap formatHexU32Le)).drop sent)) :
    C.StateMem (gdbHandleG fuel) := by
  have hfailed : C.StateMem (gdbSendText fuel (text "E01")) :=
    gdbSendPacket_mem hsocket fuel herror
  unfold gdbHandleG
  refine gdbReadGprs_then hcommands _ fun status hstatus => ?_
  cases status with
  | error error => exact hfailed
  | ok gprs =>
      refine C.stateBind (onTarget_mem C fun link => wlDmPcRead_mem (hcommands link))
        fun status => ?_
      cases status with
      | error error => exact hfailed
      | ok pc =>
          obtain ⟨values, hlength, rfl⟩ := hstatus gprs rfl
          have hreport : values.flatMap formatHexU32Le ++ formatHexU32Le pc =
              (values ++ [pc]).flatMap formatHexU32Le := by
            rw [List.flatMap_append, List.flatMap_singleton]
          dsimp only
          rw [hreport]
          refine gdbSendPacket_mem hsocket fuel (hfields _ ?_)
          rw [List.length_append, hlength, List.length_range]
          rfl

end Report

/-! ### Registers and run control -/

/-- What halting the core and reading its state use. -/
structure HasRunState : Prop where
  sleep : ∀ nanoseconds, C.Mem (request (.sleep nanoseconds))
  commands : ∀ link, HasCommands (usbClass C) link
  status : ∀ link, HasRegister (usbClass C) link wlDmiDmstatus
  halt : ∀ link, (usbClass C).Mem (wlLinkeDmiWrite link wlDmiDmcontrol gdbDmcontrolHalt).run

section RunState

variable {C} (h : HasRunState C)

include h

theorem gdbDmIsHalted_mem : C.StateMem gdbDmIsHalted := by
  refine C.stateBind (onTarget_mem C fun link => wlLinkeDmiRead_mem _ (h.status link))
    fun status => ?_
  cases status with
  | error error => exact C.stateDone _
  | ok value => exact C.stateDone _

theorem gdbDmWaitHalted_mem : C.StateMem gdbDmWaitHalted := by
  unfold gdbDmWaitHalted
  induction gdbHaltPolls with
  | zero => exact C.stateDone _
  | succ polls ih =>
      rw [gdbPollHalted]
      refine C.stateBind (gdbDmIsHalted_mem h) fun halted => ?_
      split
      · exact C.stateDone _
      · exact C.stateBind (C.stateLift (h.sleep _)) fun _ => ih

theorem gdbDmEnableEbreak_mem : C.StateMem gdbDmEnableEbreak := by
  refine C.stateBind (onTarget_mem C fun link => wlDmDcsrRead_mem (h.commands link)) fun status => ?_
  cases status with
  | error error => exact C.stateDone _
  | ok dcsr => exact onTarget_mem C fun link => wlDmDcsrWrite_mem (h.commands link) _

theorem gdbResume_mem
    (hresume : ∀ link, (usbClass C).Mem (wlLinkeDmiWrite link wlDmiDmcontrol gdbDmcontrolResume).run) :
    C.StateMem gdbResume :=
  C.stateBind (gdbDmEnableEbreak_mem h) fun _ => onTarget_mem C hresume

theorem gdbPrepare_mem : C.StateMem gdbPrepare := by
  unfold gdbPrepare
  refine C.stateBind (onTarget_mem C h.halt) fun _ => ?_
  refine C.stateBind (gdbDmWaitHalted_mem h) fun _ => ?_
  exact C.stateBind (gdbDmEnableEbreak_mem h) fun _ => C.stateDone _

theorem gdbStep_mem
    (hresume : ∀ link, (usbClass C).Mem (wlLinkeDmiWrite link wlDmiDmcontrol gdbDmcontrolResume).run) :
    C.StateMem gdbStep := by
  refine C.stateBind (onTarget_mem C fun link => wlDmDcsrRead_mem (h.commands link)) fun status => ?_
  cases status with
  | error error => exact C.stateDone _
  | ok dcsr =>
      refine C.stateBind (onTarget_mem C fun link => wlDmDcsrWrite_mem (h.commands link) _)
        fun status => ?_
      cases status with
      | error error => exact C.stateDone _
      | ok value =>
          refine C.stateBind ?_ fun status => ?_
          · refine C.stateBind (gdbResume_mem h hresume) fun status => ?_
            cases status with
            | error error => exact C.stateDone _
            | ok value => exact gdbDmWaitHalted_mem h
          · refine C.stateBind ?_ fun _ => C.stateDone _
            exact C.stateBind (onTarget_mem C fun link => wlDmDcsrWrite_mem (h.commands link) _)
              fun _ => C.stateDone _

end RunState

/-- What all the handlers but those that resume the core or report a stop use. -/
structure HasTarget : Prop extends HasMemory C, HasSocket C Plain, HasRunState C where
  poll : C.Mem (request .poll)
  reset : ∀ link, (usbClass C).Mem (wlLinkeDmiWrite link wlDmiDmcontrol 0x80000003).run

section Target

variable {C} (h : HasTarget C)

include h

theorem gdbHandleG_mem (fuel : Nat) : C.StateMem (gdbHandleG fuel) := by
  refine gdbHandleG_mem_of h.toHasSocket h.commands fuel (plain_frame (by decide))
    fun values hvalues => plain_frame ?_
  cases values with
  | nil => cases hvalues
  | cons value values => exact head_formatHexU32Le value _

theorem gdbRegRead_mem (link : Link) (reg : Word) : (usbClass C).Mem (gdbRegRead reg link).run := by
  unfold gdbRegRead
  split
  · exact wlDmPcRead_mem (h.commands link)
  · exact wlDmGprRead_mem (h.commands link) _

theorem gdbRegWrite_mem (link : Link) (reg value : Word) :
    (usbClass C).Mem (gdbRegWrite reg value link).run := by
  unfold gdbRegWrite
  split
  · exact wlDmPcWrite_mem (h.commands link) _
  · exact wlDmGprWrite_mem (h.commands link) _ _

theorem gdbHandleP_mem (fuel : Nat) (payload : List Byte) :
    C.StateMem (gdbHandleP fuel payload) := by
  have hfailed := gdbSendText_plain h.toHasSocket fuel (by decide : (text "E01").head? ≠ _)
  have hok := gdbSendText_plain h.toHasSocket fuel (by decide : (text "OK").head? ≠ _)
  unfold gdbHandleP
  split
  · exact hfailed
  · split
    · exact hfailed
    · split
      · refine C.stateBind (onTarget_mem C fun link => gdbRegRead_mem h link _) fun status => ?_
        cases status with
        | error error => exact hfailed
        | ok value =>
            have hhead := head_formatHexU32Le value []
            rw [List.append_nil] at hhead
            exact gdbSendText_plain h.toHasSocket fuel hhead
      · split
        · exact hfailed
        · refine C.stateBind (onTarget_mem C fun link => gdbRegWrite_mem h link _ _)
            fun status => ?_
          cases status with
          | error error => exact hfailed
          | ok value => exact hok

theorem gdbInterrupted_mem (fuel : Nat) : C.Mem (gdbInterrupted fuel) := by
  unfold gdbInterrupted
  refine C.bind h.poll fun ready => ?_
  split
  · refine C.bind (gdbRecvByte_mem h.toHasSocket fuel) fun received => ?_
    cases received with
    | none => exact C.done false
    | some c => exact C.done _
  · exact C.done false

/-! ### Monitor commands -/

theorem gdbMonitorGprs_mem (fuel : Nat) (regs : List Nat) :
    C.StateMem (gdbMonitorGprs fuel regs) := by
  induction regs with
  | nil => exact C.stateDone true
  | cons reg rest ih =>
      rw [gdbMonitorGprs]
      refine C.stateBind (onTarget_mem C fun link => wlDmGprRead_mem (h.commands link) _)
        fun status => ?_
      cases status with
      | error error =>
          exact C.stateBind (gdbSendOutput_mem h.toHasSocket _ _) fun _ => C.stateDone false
      | ok value => exact C.stateBind (gdbSendOutput_mem h.toHasSocket _ _) fun _ => ih

theorem gdbMonitorRegs_mem (fuel : Nat) : C.StateMem (gdbMonitorRegs fuel) := by
  unfold gdbMonitorRegs
  refine C.stateBind (gdbMonitorGprs_mem h fuel _) fun complete => ?_
  split
  · refine C.stateBind (onTarget_mem C fun link => wlDmPcRead_mem (h.commands link))
      fun status => ?_
    cases status with
    | error error => exact C.stateDone ()
    | ok pc => exact gdbSendOutput_mem h.toHasSocket _ _
  · exact C.stateDone ()

theorem gdbInfoLine_mem (fuel : Nat) (label : List Byte) {read : Link → Fallible Word}
    (hread : ∀ link, (usbClass C).Mem (read link).run) :
    C.StateMem (gdbInfoLine fuel label read) := by
  refine C.stateBind (onTarget_mem C hread) fun status => ?_
  cases status with
  | error error => exact C.stateDone ()
  | ok value => exact gdbSendOutput_mem h.toHasSocket _ _

theorem gdbMonitorInfo_mem (fuel : Nat) : C.StateMem (gdbMonitorInfo fuel) := by
  refine C.stateBind (gdbInfoLine_mem h _ _ fun link => wlLinkeDmiRead_mem _ (h.status link))
    fun _ => ?_
  refine C.stateBind (gdbInfoLine_mem h _ _ fun link => wlDmDcsrRead_mem (h.commands link))
    fun _ => ?_
  exact gdbInfoLine_mem h _ _ fun link => wlDmPcRead_mem (h.commands link)

theorem gdbMonitorReset_mem (fuel : Nat) : C.StateMem (gdbMonitorReset fuel) := by
  have hrequest {operation : Link → Fallible Unit}
      (hoperation : ∀ link, (usbClass C).Mem (operation link).run) :
      C.StateMem (onTargetIgnored operation) :=
    C.stateBind (onTarget_mem C hoperation) fun _ => C.stateDone _
  refine C.stateBind (hrequest h.reset) fun _ => ?_
  refine C.stateBind (C.stateLift (h.sleep _)) fun _ => ?_
  refine C.stateBind (hrequest h.halt) fun _ => ?_
  refine C.stateBind (hrequest h.halt) fun _ => ?_
  refine C.stateBind (gdbDmWaitHalted_mem h.toHasRunState) fun _ => ?_
  refine C.stateBind (gdbDmEnableEbreak_mem h.toHasRunState) fun _ => ?_
  exact gdbSendOutput_mem h.toHasSocket _ _

theorem gdbMonitorHalt_mem (fuel : Nat) : C.StateMem (gdbMonitorHalt fuel) := by
  refine C.stateBind (onTarget_mem C h.halt) fun _ => ?_
  refine C.stateBind (gdbDmWaitHalted_mem h.toHasRunState) fun _ => ?_
  refine C.stateBind (gdbDmEnableEbreak_mem h.toHasRunState) fun _ => ?_
  exact gdbSendOutput_mem h.toHasSocket _ _

theorem gdbMonitorArguments_mem (fuel : Nat) (word rest : List Byte) :
    C.StateMem (gdbMonitorArguments fuel word rest) := by
  have hunknown := gdbSendOutput_mem h.toHasSocket fuel (text "unknown monitor command\n")
  have hgetcsr (argument : List Byte) : C.StateMem (gdbMonitorGetcsr fuel argument) :=
    gdbMonitorRead_mem h.toHasSocket _ _ _ _ fun link _ => wlDmCsrRead_mem (h.commands link) _
  have hsetcsr (first second : List Byte) : C.StateMem (gdbMonitorSetcsr fuel first second) :=
    gdbMonitorWrite_mem h.toHasSocket _ _ _ _ fun link _ _ => wlDmCsrWrite_mem (h.commands link) _ _
  unfold gdbMonitorArguments
  dsimp only
  split
  · exact hunknown
  · split
    · exact gdbMonitorRead32_mem h.toHasMemory h.toHasSocket _ _
    · split
      · split
        · exact hgetcsr _
        · exact hunknown
      · split
        · exact gdbMonitorWrite32_mem h.toHasMemory h.toHasSocket _ _ _
        · split
          · exact hgetcsr _
          · split
            · exact hsetcsr _ _
            · exact hunknown

/-- The commands that let the core run. -/
def MonitorResumes (command : List Byte) : Prop :=
  ∃ word rest, strtok monitorDelimiters (cstring command) = some (word, rest) ∧
    (word = text "resume" ∨ word = text "continue")

theorem gdbMonitorCommand_mem (fuel : Nat) (command : List Byte)
    (hresume : MonitorResumes command → C.StateMem gdbResume) :
    C.StateMem (gdbMonitorCommand fuel command) := by
  unfold gdbMonitorCommand
  split
  · exact gdbSendOutput_mem h.toHasSocket _ _
  · next word rest hword =>
      refine C.stateIte (fun _ => gdbSendOutput_mem h.toHasSocket _ _) fun _ => ?_
      refine C.stateIte (fun _ => gdbMonitorReset_mem h fuel) fun _ => ?_
      refine C.stateIte (fun _ => gdbMonitorHalt_mem h fuel) fun _ => ?_
      refine C.stateIte (fun hrun => ?_) fun _ => ?_
      · exact C.stateBind (hresume ⟨word, rest, hword, hrun⟩) fun _ =>
          gdbSendOutput_mem h.toHasSocket _ _
      refine C.stateIte (fun _ => gdbMonitorInfo_mem h fuel) fun _ => ?_
      refine C.stateIte (fun _ => gdbMonitorRegs_mem h fuel) fun _ => ?_
      exact gdbMonitorArguments_mem h fuel _ _

end Target

/-! ## Packets -/

/-- The packets that ask for the reason of the stop. -/
def AsksStop (packet : List Byte) : Prop := packet.getD 0 0 = ascii '?'

/-- The packets that let the core run until it stops. -/
def Continues (packet : List Byte) : Prop :=
  packet.getD 0 0 = ascii 'c' ∨
    packet.getD 0 0 = ascii 'v' ∧ strStarts packet "vCont;" = true ∧
      ¬(packet.getD 6 0 = ascii 's' ∨ packet.getD 6 0 = ascii 'S')

/-- The packets that ask for one instruction. -/
def Steps (packet : List Byte) : Prop :=
  packet.getD 0 0 = ascii 's' ∨
    packet.getD 0 0 = ascii 'v' ∧ strStarts packet "vCont;" = true ∧
      (packet.getD 6 0 = ascii 's' ∨ packet.getD 6 0 = ascii 'S')

/-- The packets that let the core run and do not wait for it. -/
def Releases (packet : List Byte) : Prop :=
  packet.getD 0 0 = ascii 'D' ∨
    packet.getD 0 0 = ascii 'q' ∧ strStarts packet "qRcmd," = true ∧
      ∃ command, gdbDecodeHexString (packet.drop 6) 256 = some command ∧ MonitorResumes command

instance (packet : List Byte) : Decidable (AsksStop packet) := inferInstanceAs (Decidable (_ = _))

instance (packet : List Byte) : Decidable (Continues packet) := inferInstanceAs (Decidable (_ ∨ _))

instance (packet : List Byte) : Decidable (Steps packet) := inferInstanceAs (Decidable (_ ∨ _))

/-! ### What the dispatcher calls for them -/

theorem gdbHandlePacket_asksStop {packet : List Byte} (h : AsksStop packet) (fuel : Nat) :
    gdbHandlePacket fuel packet = gdbSendStop fuel 5 >>= fun _ => pure true := by
  have hcommand : packet.getD 0 0 = ascii '?' := h
  unfold gdbHandlePacket
  dsimp only
  rw [hcommand, if_pos rfl]

/-- `vCont?` is no resumption. -/
theorem not_strEq_vCont {packet : List Byte} (hcont : strStarts packet "vCont;" = true) :
    strEq packet "vCont?" = false := by
  rw [Bool.eq_false_iff]
  intro hquery
  have hsame : packet.take 6 = text "vCont;" := eq_of_beq hcont
  rw [show packet.take 6 = text "vCont?" from take_of_strEq hquery] at hsame
  exact absurd hsame (by decide)

theorem gdbHandlePacket_continues {packet : List Byte} (h : Continues packet) (fuel : Nat) :
    gdbHandlePacket fuel packet = gdbContinue fuel >>= fun _ => pure true := by
  unfold gdbHandlePacket
  dsimp only
  rcases h with hcommand | ⟨hcommand, hcont, hone⟩
  · simp +decide only [hcommand, ↓reduceIte]
  · have hv := not_strEq_vCont hcont
    simp +decide only [hcommand, ↓reduceIte, gdbHandleV, hv, hcont, hone]

theorem gdbHandlePacket_steps {packet : List Byte} (h : Steps packet) (fuel : Nat) :
    gdbHandlePacket fuel packet = gdbSingleStep fuel >>= fun _ => pure true := by
  unfold gdbHandlePacket
  dsimp only
  rcases h with hcommand | ⟨hcommand, hcont, hone⟩
  · simp +decide only [hcommand, ↓reduceIte]
  · have hv := not_strEq_vCont hcont
    simp +decide only [hcommand, ↓reduceIte, gdbHandleV, hv, hcont, hone]

section Packets

variable {C} (h : HasTarget C)

include h

theorem gdbHandleQRcmd_mem (fuel : Nat) (payload : List Byte)
    (hresume : ∀ command, gdbDecodeHexString (payload.drop 6) 256 = some command →
      MonitorResumes command → C.StateMem gdbResume) :
    C.StateMem (gdbHandleQRcmd fuel payload) := by
  unfold gdbHandleQRcmd
  split
  · exact gdbSendText_plain h.toHasSocket fuel (by decide)
  · next command hcommand =>
      exact C.stateBind (gdbMonitorCommand_mem h fuel command (hresume command hcommand)) fun _ =>
        gdbSendText_plain h.toHasSocket fuel (by decide)

theorem gdbHandleQuery_mem (fuel : Nat) {payload : List Byte}
    (hquery : payload.getD 0 0 = ascii 'q') (hresume : Releases payload → C.StateMem gdbResume) :
    C.StateMem (gdbHandleQuery fuel payload) := by
  have hanswer {string : List Byte} (hstring : string.head? ≠ some (ascii 'T')) :
      C.StateMem (gdbSendText fuel string) := gdbSendText_plain h.toHasSocket fuel hstring
  unfold gdbHandleQuery
  refine C.stateIte (fun _ => hanswer (by decide)) fun _ => ?_
  refine C.stateIte (fun _ => hanswer (by decide)) fun _ => ?_
  refine C.stateIte (fun _ => hanswer (by decide)) fun _ => ?_
  refine C.stateIte (fun _ => hanswer (by decide)) fun _ => ?_
  refine C.stateIte (fun _ => hanswer (by decide)) fun _ => ?_
  refine C.stateIte (fun _ => hanswer (by decide)) fun _ => ?_
  refine C.stateIte (fun hmonitor => gdbHandleQRcmd_mem h fuel payload
    fun command hcommand hruns => hresume (.inr ⟨hquery, hmonitor, command, hcommand, hruns⟩))
    fun _ => ?_
  exact C.stateIte (fun _ => gdbHandleQxfer_mem h.toHasSocket fuel payload)
    fun _ => hanswer (by decide)

theorem gdbHandleV_mem (fuel : Nat) {payload : List Byte} (hv : payload.getD 0 0 = ascii 'v')
    (hcontinue : Continues payload → C.StateMem (gdbContinue fuel))
    (hstep : Steps payload → C.StateMem (gdbSingleStep fuel)) :
    C.StateMem (gdbHandleV fuel payload) := by
  unfold gdbHandleV
  split
  · exact gdbSendText_plain h.toHasSocket fuel (by decide)
  · split
    · next hcont =>
        split
        · next hone => exact hstep (.inr ⟨hv, hcont, hone⟩)
        · next hone => exact hcontinue (.inr ⟨hv, hcont, hone⟩)
    · exact gdbSendText_plain h.toHasSocket fuel (by decide)

/-- Every packet is handled in the class, given what resuming and reporting a
stop need. -/
theorem gdbHandlePacket_mem (fuel : Nat) (payload : List Byte)
    (hasks : AsksStop payload → C.StateMem (gdbSendStop fuel 5))
    (hcontinue : Continues payload → C.StateMem (gdbContinue fuel))
    (hstep : Steps payload → C.StateMem (gdbSingleStep fuel))
    (hresume : Releases payload → C.StateMem gdbResume) :
    C.StateMem (gdbHandlePacket fuel payload) := by
  have hthen {program : Gdb Unit} (continues : Bool) (hprogram : C.StateMem program) :
      C.StateMem (program >>= fun _ => pure continues) :=
    C.stateBind hprogram fun _ => C.stateDone continues
  unfold gdbHandlePacket
  refine C.stateIte (fun hc => hthen _ (hasks hc)) fun _ => ?_
  refine C.stateIte (fun _ => hthen _ (gdbHandleG_mem h fuel)) fun _ => ?_
  refine C.stateIte (fun _ => hthen _ (gdbHandleP_mem h fuel payload)) fun _ => ?_
  refine C.stateIte (fun _ => hthen _ (gdbHandleM_mem h.toHasMemory h.toHasSocket fuel payload))
    fun _ => ?_
  refine C.stateIte
    (fun _ => hthen _ (gdbHandleMWrite_mem h.toHasMemory h.toHasSocket fuel payload)) fun _ => ?_
  refine C.stateIte (fun hc => hthen _ (hcontinue (.inl hc))) fun _ => ?_
  refine C.stateIte (fun hc => hthen _ (hstep (.inl hc))) fun _ => ?_
  refine C.stateIte (fun _ => hthen _ (gdbHandleZ_mem h.toHasMemory h.toHasSocket fuel payload))
    fun _ => ?_
  refine C.stateIte (fun hc => hthen _ ?_) fun _ => ?_
  · refine C.stateBind (gdbBreakpointsClear_mem h.toHasMemory) fun _ => ?_
    refine C.stateBind (hresume (.inl hc)) fun _ => ?_
    exact C.stateBind (gdbSendText_plain h.toHasSocket fuel (by decide)) fun _ => C.stateModify fun _ => ⟨rfl, rfl⟩
  refine C.stateIte (fun _ => hthen _ ?_) fun _ => ?_
  · exact C.stateBind (gdbBreakpointsClear_mem h.toHasMemory) fun _ => C.stateModify fun _ => ⟨rfl, rfl⟩
  refine C.stateIte (fun _ => hthen _ (gdbSendText_plain h.toHasSocket fuel (by decide)))
    fun _ => ?_
  refine C.stateIte (fun hc => hthen _ (gdbHandleQuery_mem h fuel hc hresume)) fun _ => ?_
  refine C.stateIte (fun hc => hthen _ (gdbHandleV_mem h fuel hc hcontinue hstep)) fun _ => ?_
  exact hthen _ (gdbSendText_plain h.toHasSocket fuel (by decide))

end Packets

/-! ## Opening and closing -/

/-- What the server uses outside its packet handlers. -/
structure HasServer : Prop extends HasTarget C where
  interface : ∀ familyId speed, (usbClass C).Mem (transportCommand (interfaceRequest familyId speed))
  control : ∀ command argument, (usbClass C).Mem (transportCommand (controlRequest command argument))
  listen : ∀ port, C.Mem (request (.listen port))
  accept : C.Mem (request .accept)

section Server

variable {C} (h : HasServer C)

include h

theorem closeLink_mem (link : Link) : C.Mem (closeLink link) :=
  C.bind (wlLinkeDetach_mem (usbClass C) (h.control _ _)) fun _ => C.done ()

theorem gdbServerOpen_mem (link : Link) (chip : Option Chip) (port : BitVec 16) :
    C.Mem (gdbServerOpen link chip port) := by
  have hclosed (link : Link) (error : WlErr) :
      C.Mem (closeLink link >>= fun _ => pure (Except.error error : Except WlErr GdbConn)) :=
    C.bind (closeLink_mem h link) fun _ => C.done _
  unfold gdbServerOpen
  cases chip with
  | none => exact C.done _
  | some part =>
      refine C.bind (wlLinkeSetInterface_mem (usbClass C) (h.interface _ _)) fun result => ?_
      obtain ⟨status, link'⟩ := result
      cases status with
      | error error => exact hclosed _ _
      | ok value =>
          refine C.bind (wlLinkeHalt_mem (usbClass C) (h.control _ _)) fun status => ?_
          cases status with
          | error error => exact hclosed _ _
          | ok value =>
              refine C.bind (gdbPrepare_mem h.toHasRunState _).1 fun _ => ?_
              refine C.bind (h.listen port) fun listening => ?_
              split
              · exact hclosed _ _
              · refine C.bind h.accept fun accepted => ?_
                split
                · exact hclosed _ _
                · exact C.done _

end Server

/-! ## Resuming and reporting stops -/

/-- What the rest of the server uses. -/
structure HasRunControl : Prop extends HasTarget C where
  stops : HasSocket C fun _ => True
  resume : ∀ link, (usbClass C).Mem (wlLinkeDmiWrite link wlDmiDmcontrol gdbDmcontrolResume).run

section RunControl

variable {C} (h : HasRunControl C)

include h

theorem gdbSendStop_mem (fuel : Nat) (signal : Word) : C.StateMem (gdbSendStop fuel signal) :=
  gdbSendPacket_mem h.stops fuel fun _ => trivial

theorem gdbWaitForStop_mem (fuel : Nat) : C.StateMem (gdbWaitForStop fuel) := by
  induction fuel with
  | zero => exact C.stateLift h.stops.cuts
  | succ fuel ih =>
      rw [gdbWaitForStop]
      refine C.stateBind (C.stateLift (gdbInterrupted_mem h.toHasTarget fuel)) fun interrupted => ?_
      refine C.stateIte (fun _ => ?_) fun _ => ?_
      · refine C.stateBind (onTarget_mem C h.halt) fun _ => ?_
        exact C.stateBind (gdbDmWaitHalted_mem h.toHasRunState) fun _ => gdbSendStop_mem h fuel 2
      · refine C.stateBind (gdbDmIsHalted_mem h.toHasRunState) fun halted => ?_
        exact C.stateIte (fun _ => gdbSendStop_mem h fuel 5) fun _ => ih

theorem gdbContinue_mem (fuel : Nat) : C.StateMem (gdbContinue fuel) := by
  refine C.stateBind (gdbResume_mem h.toHasRunState h.resume) fun status => ?_
  cases status with
  | error error => exact gdbSendText_plain h.toHasSocket fuel (by decide)
  | ok value => exact gdbWaitForStop_mem h fuel

theorem gdbSingleStep_mem (fuel : Nat) : C.StateMem (gdbSingleStep fuel) := by
  refine C.stateBind (gdbStep_mem h.toHasRunState h.resume) fun status => ?_
  cases status with
  | error error => exact gdbSendText_plain h.toHasSocket fuel (by decide)
  | ok value => exact gdbSendStop_mem h fuel 5

theorem gdbHandlePacket_mem_all (fuel : Nat) (payload : List Byte) :
    C.StateMem (gdbHandlePacket fuel payload) :=
  gdbHandlePacket_mem h.toHasTarget fuel payload (fun _ => gdbSendStop_mem h fuel 5)
    (fun _ => gdbContinue_mem h fuel) (fun _ => gdbSingleStep_mem h fuel) fun _ => gdbResume_mem h.toHasRunState h.resume

end RunControl

/-! ## The link and the part -/

theorem everything_hasRunControl : HasRunControl (ProgramClass.everything Host) := by
  have hregister (link : Link) (reg : Byte) :
      HasRegister (usbClass (ProgramClass.everything Host)) link reg := fun _ _ => trivial
  have hcommands (link : Link) : HasCommands (usbClass (ProgramClass.everything Host)) link :=
    ⟨⟨hregister _ _, hregister _ _⟩, hregister _ _, hregister _ _, fun _ => hregister _ _⟩
  exact
    { cuts := trivial
      malloc := fun _ => trivial
      accesses := fun link => hasAccesses_of_commands _ (hcommands link)
      recv := trivial
      send := fun _ _ => trivial
      sleep := fun _ => trivial
      commands := hcommands
      status := fun link => hregister link _
      halt := fun _ => trivial
      reset := fun _ => trivial
      poll := trivial
      stops := ⟨trivial, trivial, fun _ _ => trivial⟩
      resume := fun _ => trivial }

/-- Handling a packet leaves the connection's link and part alone. -/
theorem gdbHandlePacket_keeps (fuel : Nat) (payload : List Byte) (conn : GdbConn) :
    ((gdbHandlePacket fuel payload).run conn).Always fun result =>
      result.2.link = conn.link ∧ result.2.chip = conn.chip :=
  (gdbHandlePacket_mem_all everything_hasRunControl fuel payload conn).2

end WchLink
