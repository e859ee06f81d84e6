import WchLink.Gdb.Grammar
import WchLink.Gdb.Observed
import WchLink.ReadPlan

/-! # Packets outside the grammar

A packet the scanners accept is acted on, grammatical or not, unless what they
find in it is refused as it is. The packets on which the handler keeps to the
grammar are told by that.
-/

namespace WchLink

open Bytes Interaction

/-! ## Refusals -/

/-- A refusal: an error or the reply of an unsupported packet, after requests for
memory at most, with the session as it was. -/
inductive Refusal (fuel : Nat) (conn : GdbConn) : Program Host (Bool × GdbConn) → Prop
  | error : Refusal fuel conn ((replying fuel (text "E01")).run conn)
  | unsupported : Refusal fuel conn ((replying fuel []).run conn)
  | allocating {size : Nat} {next : Bool → Program Host (Bool × GdbConn)} :
      (∀ granted, Refusal fuel conn (next granted)) →
      Refusal fuel conn (@Program.call Host _ (.malloc size) next)

theorem replying_targetFree (fuel : Nat) (string : List Byte) (conn : GdbConn) :
    targetFree.Mem ((replying fuel string).run conn) := by
  have hsend : targetFree.StateMem (gdbSendText fuel string) :=
    gdbSendPacket_mem (targetFree_hasSocket fun _ => True) fuel fun _ => trivial
  exact (targetFree.stateBind hsend (fun _ => targetFree.stateDone true) conn).1

/-- A refusal asks nothing of the target. -/
theorem Refusal.targetFree {fuel : Nat} {conn : GdbConn} {program : Program Host (Bool × GdbConn)}
    (h : Refusal fuel conn program) : targetFree.Mem program := by
  induction h with
  | error => exact replying_targetFree fuel _ conn
  | unsupported => exact replying_targetFree fuel _ conn
  | allocating _ ih => exact fun _ _ => ⟨nofun, fun granted _ _ => ih granted _ trivial⟩

/-- Whether `gdbMemPatch` takes a replacement of this length at this address. -/
def GdbConn.Patchable (conn : GdbConn) (address : Word) (length : Nat) : Prop :=
  if gdbAddrIsFlash conn.chip address then conn.chip.eraseSize ≠ 0 ∧ conn.chip.eraseSize ≤ 4096
  else length = 2 ∨ length = 4

/-- A request that is refused as it is, whatever its packet looked like: no such
register, too much memory to read or none, a breakpoint that cannot be, for
which there is no room, which is not there or whose bytes cannot be put back. -/
def PacketRequest.Idle (conn : GdbConn) : PacketRequest → Prop
  | readMemory _ length => length = 0 ∨ length > gdbMemoryMax
  | writeMemory _ data => data.length > gdbMemoryMax.toNat
  | readRegister reg => reg > gdbRegPc
  | writeRegister reg _ => reg > gdbRegPc
  | insert address kind => (kind ≠ 2 ∧ kind ≠ 4) ∨ address % kind ≠ 0 ∨
      conn.findSlot (fun breakpoint => !breakpoint.used) = none
  | remove address kind => ∀ slot, conn.findSlot (fun breakpoint =>
      breakpoint.used && breakpoint.address == address && breakpoint.kind == kind) = some slot →
        ¬conn.Patchable (conn.breakpoints slot).address
          ((conn.breakpoints slot).original.take (conn.breakpoints slot).kind.toNat).length

theorem gdbMemPatch_rejects {conn : GdbConn} {address : Word} {bytes : List Byte}
    (h : ¬conn.Patchable address bytes.length) :
    (gdbMemPatch address bytes).run conn = pure (.error .usage, conn) := by
  unfold GdbConn.Patchable at h
  unfold gdbMemPatch
  rw [StateT.run_bind]
  simp only [StateT.run_get, pure_bind]
  split
  · rename_i hflash
    rw [if_pos hflash, not_and_or, not_not, BitVec.not_le] at h
    rw [if_pos h]
    rfl
  · rename_i hflash
    rw [if_neg hflash, not_or] at h
    rw [if_neg h.1, if_neg h.2]
    rfl

theorem PacketRequest.Idle.refusal {fuel : Nat} {conn : GdbConn} {asked : PacketRequest}
    (h : asked.Idle conn) : Refusal fuel conn ((asked.handled fuel).run conn) := by
  cases asked with
  | readMemory address length =>
      by_cases hlarge : length > gdbMemoryMax
      · have hperform : (readMemory address length).perform fuel =
            gdbSendText fuel (text "E01") := by
          rw [perform, gdbReadMemory, if_pos hlarge]
        rw [handled, hperform]
        exact .error
      · have hzero : length = 0 := h.resolve_right hlarge
        subst hzero
        have hread : ((readMemory address 0).handled fuel).run conn =
            @Program.call Host _ (.malloc 1) fun granted =>
              (if granted then replying fuel [] else replying fuel (text "E01")).run conn := by
          refine congrArg (@Program.call Host _ (.malloc 1)) (funext fun granted => ?_)
          cases granted with
          | false => rfl
          | true => rfl
        rw [hread]
        refine .allocating fun granted => ?_
        cases granted with
        | false => exact .error
        | true => exact .unsupported
  | writeMemory address data =>
      have hperform : (writeMemory address data).perform fuel = gdbSendText fuel (text "E01") := by
        rw [perform]
        exact if_pos h
      rw [handled, hperform]
      exact .error
  | readRegister reg =>
      have hperform : (readRegister reg).perform fuel = gdbSendText fuel (text "E01") := by
        rw [perform]
        exact if_pos h
      rw [handled, hperform]
      exact .error
  | writeRegister reg value =>
      have hperform : (writeRegister reg value).perform fuel = gdbSendText fuel (text "E01") := by
        rw [perform]
        exact if_pos h
      rw [handled, hperform]
      exact .error
  | insert address kind =>
      have hinsert : (gdbBreakpointInsert address kind).run conn = pure (false, conn) := by
        unfold gdbBreakpointInsert
        by_cases hkind : (kind ≠ 2 ∧ kind ≠ 4) ∨ address % kind ≠ 0
        · rw [if_pos hkind]
          rfl
        · have hfull : conn.findSlot (fun breakpoint => !breakpoint.used) = none := by
            rw [not_or] at hkind
            exact (h.resolve_left hkind.1).resolve_left hkind.2
          rw [if_neg hkind, StateT.run_bind]
          simp only [StateT.run_get, pure_bind, hfull]
          rfl
      have hhandled : ((insert address kind).handled fuel).run conn =
          (replying fuel []).run conn := by
        rw [handled, perform, StateT.run_bind, StateT.run_bind, hinsert]
        rfl
      rw [hhandled]
      exact .unsupported
  | remove address kind =>
      have hremove : (gdbBreakpointRemove address kind).run conn = pure (false, conn) := by
        unfold gdbBreakpointRemove
        rw [StateT.run_bind]
        simp only [StateT.run_get, pure_bind]
        split
        · rfl
        · rename_i slot hslot
          simp only [StateT.run_bind, StateT.run_get, pure_bind, gdbMemPatch_rejects (h slot hslot)]
          rfl
      have hhandled : ((remove address kind).handled fuel).run conn =
          (replying fuel []).run conn := by
        rw [handled, perform, StateT.run_bind, StateT.run_bind, hremove]
        rfl
      rw [hhandled]
      exact .unsupported

/-! ## Requests that reach the target -/

section Asking

variable {α β : Type} {link : Link} {conn : GdbConn}

/-- An operation that begins with a request. -/
def Initiates (operation : Fallible α) : Prop := ∃ bytes, operation.run.pending = some bytes

theorem Initiates.andThen {first : Fallible α} (h : Initiates first) (rest : α → Fallible β) :
    Initiates (first >>= rest) := by
  obtain ⟨bytes, hbytes⟩ := h
  exact ⟨bytes, Program.pending_bind hbytes _⟩

theorem regAccess_asks (hlink : link.Usable) (reg : Byte) (value : Word) (operation : Byte) :
    Initiates (regAccess link reg value operation) := by
  unfold Initiates
  rw [regAccess_eq hlink]
  exact ⟨_, rfl⟩

theorem wlLinkeDmiWrite_asks (hlink : link.Usable) (reg : Byte) (value : Word) :
    Initiates (wlLinkeDmiWrite link reg value) :=
  (regAccess_asks hlink reg value wlRegOpWrite).andThen _

theorem dmCommand_asks (hlink : link.Usable) (command value : Word) (transferIn result : Bool) :
    Initiates (dmCommand link command value transferIn result) := by
  unfold dmCommand
  cases transferIn with
  | true => exact (wlLinkeDmiWrite_asks hlink wlDmiData0 value).andThen _
  | false => exact (wlLinkeDmiWrite_asks hlink wlDmiDmcommand command).andThen _

theorem wlDmGprRead_asks (hlink : link.Usable) {reg : Word} (hreg : ¬reg > 31) :
    Initiates (wlDmGprRead link reg) := by
  unfold wlDmGprRead
  rw [if_neg hreg]
  exact dmCommand_asks hlink _ _ _ _

theorem wlDmGprWrite_asks (hlink : link.Usable) {reg : Word} (hreg : ¬reg > 31) (value : Word) :
    Initiates (wlDmGprWrite link reg value) := by
  unfold wlDmGprWrite
  rw [if_neg hreg]
  exact (dmCommand_asks hlink _ _ _ _).andThen _

theorem gdbRegRead_asks (hlink : link.Usable) {reg : Word} (hreg : ¬reg > gdbRegPc) :
    Initiates (gdbRegRead reg link) := by
  unfold gdbRegRead
  by_cases hpc : reg = gdbRegPc
  · rw [if_pos hpc]
    exact dmCommand_asks hlink _ _ _ _
  · rw [if_neg hpc]
    refine wlDmGprRead_asks hlink fun hlarge => ?_
    simp only [gdbRegPc] at hreg hpc
    bv_omega

theorem gdbRegWrite_asks (hlink : link.Usable) {reg : Word} (hreg : ¬reg > gdbRegPc)
    (value : Word) :
    Initiates (gdbRegWrite reg value link) := by
  unfold gdbRegWrite
  by_cases hpc : reg = gdbRegPc
  · rw [if_pos hpc]
    exact (dmCommand_asks hlink _ _ _ _).andThen _
  · rw [if_neg hpc]
    refine wlDmGprWrite_asks hlink (fun hlarge => ?_) value
    simp only [gdbRegPc] at hreg hpc
    bv_omega

theorem dmRun_asks (hlink : link.Usable) {program : List Word}
    (hprogram : ¬program.length > wlDmProgbufWords) (address value : Word) (result : Bool) :
    Initiates (dmRun link program address value result) := by
  unfold dmRun dmLoadProgram
  rw [if_neg hprogram]
  exact ((wlLinkeDmiWrite_asks hlink wlDmiDmabstractauto 0).andThen _).andThen _

theorem dmReadSized_asks (hlink : link.Usable) (size : Width) (address : Word) :
    Initiates (dmReadSized link size address) := by
  have hprogram : ¬(readProgram size).length > wlDmProgbufWords := by cases size <;> decide
  exact dmRun_asks hlink hprogram address 0 true

theorem wlDmRunWrite_asks (hlink : link.Usable) (size : Width) (address value : Word) :
    Initiates (wlDmRunWrite link (writeProgram size) address value) := by
  have hprogram : ¬(writeProgram size).length > wlDmProgbufWords := by cases size <;> decide
  exact (dmRun_asks hlink hprogram address value false).andThen _

theorem readPlan_ne_nil {address : Word} {length : Nat} (hlength : length ≠ 0) :
    readPlan address length ≠ [] := by
  intro hnil
  have haddresses := readPlan_addresses address length
  rw [hnil] at haddresses
  have hnone := congrArg List.length haddresses
  simp [addressesFrom] at hnone
  exact hlength hnone.symm

/-- Reading memory asks for the first load of its plan. -/
theorem wlDmReadBlock_asks (hlink : link.Usable) (address : Word) {length : Nat}
    (hlength : length ≠ 0) :
    ∃ bytes, ((wlDmReadBlock link address length).run.run []).pending = some bytes := by
  obtain ⟨load, rest, hplan⟩ := List.exists_cons_of_ne_nil (@readPlan_ne_nil address length hlength)
  obtain ⟨bytes, hbytes⟩ := dmReadSized_asks hlink load.size load.address
  refine ⟨bytes, ?_⟩
  rw [wlDmReadBlock_eq, hplan, loadEach, ExceptT.run_bind, StateT.run_bind]
  exact Program.pending_bind (Program.pending_bind hbytes _) _

theorem filled_asks (hlink : link.Usable) (address : Word) {length : Nat} (hlength : length ≠ 0) :
    Initiates (filled (wlDmReadBlock link address length)) := by
  obtain ⟨bytes, hbytes⟩ := wlDmReadBlock_asks hlink address hlength
  exact ⟨bytes, Program.pending_bind hbytes _⟩

end Asking

section Reaching

variable {α β : Type} {conn : GdbConn}

theorem pending_onHost {program : Program Usb α} {bytes : List Byte}
    (h : program.pending = some bytes) : (onHost program).pending = some (.usb bytes) := by
  cases program with
  | done value => cases h
  | cut => cases h
  | call asked next =>
      cases h
      rfl

/-- A handler that begins with a request to the target. -/
theorem onTarget_asks {operation : Link → Fallible α} (h : Initiates (operation conn.link))
    (rest : Except WlErr α → Gdb β) : ¬targetFree.Mem ((onTarget operation >>= rest).run conn) := by
  intro hfree
  obtain ⟨bytes, hbytes⟩ := h
  have hpending : ((onTarget operation).run conn).pending = some (.usb bytes) :=
    Program.pending_bind (pending_onHost hbytes) _
  refine pending_of_targetFree hfree bytes ?_
  rw [StateT.run_bind]
  exact Program.pending_bind hpending _

theorem not_targetFree_bind {program : Gdb α} (h : ¬targetFree.Mem (program.run conn))
    (rest : α → Gdb β) : ¬targetFree.Mem ((program >>= rest).run conn) := by
  intro hfree
  refine h fun state hstate => ?_
  have hwp := hfree state hstate
  rw [StateT.run_bind, Program.wp_bind] at hwp
  exact Program.wp_mono hwp fun _ _ _ => trivial

/-- Putting bytes where they can be put reaches the target, if there is memory. -/
theorem gdbMemPatch_reaches (hlink : conn.link.Usable) {address : Word} {bytes : List Byte}
    (h : conn.Patchable address bytes.length) :
    ¬targetFree.Mem ((gdbMemPatch address bytes).run conn) := by
  unfold GdbConn.Patchable at h
  unfold gdbMemPatch
  rw [StateT.run_bind]
  simp only [StateT.run_get, pure_bind]
  split
  · rename_i hflash
    rw [if_pos hflash] at h
    have hsize : ¬(conn.chip.eraseSize = 0 ∨ conn.chip.eraseSize > 4096) := by
      rw [not_or]
      exact ⟨h.1, BitVec.not_lt.mpr h.2⟩
    have hlength : conn.chip.eraseSize.toNat ≠ 0 := fun hzero =>
      h.1 (BitVec.eq_of_toNat_eq hzero)
    rw [if_neg hsize]
    intro hfree
    -- the page buffer is granted
    have hgranted := fun state hstate => (hfree state hstate).2 true state trivial
    exact onTarget_asks (filled_asks hlink _ hlength) _ fun state hstate => hgranted state hstate
  · rename_i hflash
    rw [if_neg hflash] at h
    rcases h with htwo | hfour
    · rw [if_pos htwo]
      intro hfree
      obtain ⟨asked, hasked⟩ := wlDmRunWrite_asks hlink .half address
        ((bytes.getD 1 0 ++ bytes.getD 0 0 : BitVec 16).setWidth 32)
      exact pending_of_targetFree hfree asked (Program.pending_bind (pending_onHost hasked) _)
    · have htwo : bytes.length ≠ 2 := by omega
      rw [if_neg htwo, if_pos hfour]
      intro hfree
      obtain ⟨asked, hasked⟩ := wlDmRunWrite_asks hlink .word address
        (wordLe (bytes.getD 0 0) (bytes.getD 1 0) (bytes.getD 2 0) (bytes.getD 3 0))
      exact pending_of_targetFree hfree asked (Program.pending_bind (pending_onHost hasked) _)

/-- A request that is not refused as it is reaches the target, unless it writes
nothing. -/
theorem PacketRequest.perform_reaches (hlink : conn.link.Usable) (fuel : Nat)
    {asked : PacketRequest} (hidle : ¬asked.Idle conn)
    (hdata : ∀ address, asked ≠ .writeMemory address []) :
    ¬targetFree.Mem ((asked.perform fuel).run conn) := by
  cases asked with
  | readMemory address length =>
      have hidle := not_or.mp hidle
      have hlength : length.toNat ≠ 0 := fun hzero => hidle.1 (BitVec.eq_of_toNat_eq hzero)
      rw [perform, gdbReadMemory, if_neg hidle.2]
      exact onTarget_asks (filled_asks hlink address hlength) _
  | writeMemory address data =>
      have hroom : ¬data.length > gdbMemoryMax.toNat := hidle
      rw [perform, if_neg hroom, gdbWriteMemory]
      cases data with
      | nil => exact absurd rfl (hdata address)
      | cons byte rest =>
          refine onTarget_asks ?_ _
          rw [gdbWriteBytes]
          exact (wlDmRunWrite_asks hlink .byte address (byte.setWidth 32)).andThen _
  | readRegister reg =>
      have hreg : ¬reg > gdbRegPc := hidle
      rw [perform, if_neg hreg]
      exact onTarget_asks (gdbRegRead_asks hlink hreg) _
  | writeRegister reg value =>
      have hreg : ¬reg > gdbRegPc := hidle
      rw [perform, if_neg hreg]
      exact onTarget_asks (gdbRegWrite_asks hlink hreg value) _
  | insert address kind =>
      obtain ⟨hkind, hidle⟩ := not_or.mp hidle
      obtain ⟨haligned, hslot⟩ := not_or.mp hidle
      obtain ⟨slot, hslot⟩ := Option.ne_none_iff_exists'.mp hslot
      have hlength : kind.toNat ≠ 0 := by
        intro hzero
        refine hkind ⟨?_, ?_⟩ <;> rintro rfl <;> cases hzero
      have hrefuses : ¬((kind ≠ 2 ∧ kind ≠ 4) ∨ address % kind ≠ 0) :=
        not_or.mpr ⟨hkind, haligned⟩
      rw [perform]
      refine not_targetFree_bind ?_ _
      unfold gdbBreakpointInsert
      rw [if_neg hrefuses, StateT.run_bind]
      simp only [StateT.run_get, pure_bind, hslot]
      rw [StateT.run_bind]
      simp only [StateT.run_get, pure_bind]
      intro hfree
      obtain ⟨bytes, hbytes⟩ := wlDmReadBlock_asks hlink address hlength
      have hread := Program.pending_bind (pending_onHost hbytes) fun answer =>
        pure (answer, conn)
      exact pending_of_targetFree hfree bytes
        (Program.pending_bind (Program.pending_bind hread _) _)
  | remove address kind =>
      have hidle : ∃ slot, conn.findSlot (fun breakpoint =>
          breakpoint.used && breakpoint.address == address && breakpoint.kind == kind) =
            some slot ∧ conn.Patchable (conn.breakpoints slot).address
              ((conn.breakpoints slot).original.take (conn.breakpoints slot).kind.toNat).length := by
        unfold Idle at hidle
        push Not at hidle
        exact hidle
      obtain ⟨slot, hslot, hpatch⟩ := hidle
      rw [perform]
      refine not_targetFree_bind ?_ _
      unfold gdbBreakpointRemove
      rw [StateT.run_bind]
      simp only [StateT.run_get, pure_bind, hslot]
      rw [StateT.run_bind]
      simp only [StateT.run_get, pure_bind]
      exact not_targetFree_bind (gdbMemPatch_reaches hlink hpatch) _

end Reaching

/-! ## The handler against the grammar -/

/-- Whatever the budget, a packet of the grammar is handled as what it asks for,
with exactly its numbers, and any other packet is refused. -/
def FollowsGrammar (conn : GdbConn) (string tail : List Byte) : Prop :=
  ∀ fuel,
    (∀ asked, Grammatical string asked →
      (gdbHandlePacket fuel (string ++ 0 :: tail)).run conn = (asked.handled fuel).run conn) ∧
    ((¬∃ asked, Grammatical string asked) →
      Refusal fuel conn ((gdbHandlePacket fuel (string ++ 0 :: tail)).run conn))

/-- A refusal's first request. -/
theorem Refusal.pending {conn : GdbConn} {program : Program Host (Bool × GdbConn)}
    (h : Refusal 1 conn program) :
    program.pending = some (.send (gdbFrame (text "E01"))) ∨
      program.pending = some (.send (gdbFrame [])) ∨
        ∃ size, program.pending = some (.malloc size) := by
  cases h with
  | error => exact .inl rfl
  | unsupported => exact .inr (.inl rfl)
  | allocating _ => exact .inr (.inr ⟨_, rfl⟩)

/-- What is not refused as it is, is no refusal. -/
theorem PacketRequest.handled_not_refusal {conn : GdbConn} (hlink : conn.link.Usable)
    {asked : PacketRequest} (hidle : ¬asked.Idle conn) :
    ¬Refusal 1 conn ((asked.handled 1).run conn) := by
  intro hrefusal
  by_cases hdata : ∃ address, asked = .writeMemory address []
  · -- nothing is written, and the answer is `OK`
    obtain ⟨address, rfl⟩ := hdata
    have hpending : (((writeMemory address []).handled 1).run conn).pending =
        some (.send (gdbFrame (text "OK"))) := rfl
    have hok : gdbFrame (text "OK") ≠ gdbFrame (text "E01") ∧
        gdbFrame (text "OK") ≠ gdbFrame [] := by
      decide
    rcases hrefusal.pending with h | h | ⟨size, h⟩
    · rw [hpending] at h
      injection h with h
      injection h with h
      exact hok.1 h
    · rw [hpending] at h
      injection h with h
      injection h with h
      exact hok.2 h
    · rw [hpending] at h
      cases h
  · have hreaches := asked.perform_reaches hlink 1 hidle fun address h => hdata ⟨address, h⟩
    exact not_targetFree_bind hreaches (fun _ => pure true) hrefusal.targetFree

/-- The handler keeps to the grammar on exactly the packets of the grammar and
those in which the scanners find nothing, or nothing that is not refused as it is. -/
theorem gdbHandlePacket_grammar_iff (conn : GdbConn) (hlink : conn.link.Usable)
    (string tail : List Byte) (hstring : ∀ c ∈ string, c ≠ 0)
    (hcommand : string.getD 0 0 ∈ scannedCommands) :
    FollowsGrammar conn string tail ↔
      (∃ asked, Grammatical string asked) ∨
        ∀ asked, Scans tail string asked → asked.Idle conn := by
  constructor
  · intro hfollows
    by_cases hgrammar : ∃ asked, Grammatical string asked
    · exact .inl hgrammar
    · refine .inr fun asked hscans => ?_
      by_contra hidle
      have hrefusal := (hfollows 1).2 hgrammar
      rw [gdbHandlePacket_scans 1 hstring hscans] at hrefusal
      exact PacketRequest.handled_not_refusal hlink hidle hrefusal
  · intro hcondition fuel
    refine ⟨fun asked hasked => ?_, fun hgrammar => ?_⟩
    · rw [gdbHandlePacket_scans fuel hstring (hasked.scans tail)]
    · have hidle := hcondition.resolve_left hgrammar
      by_cases hscans : ∃ asked, Scans tail string asked
      · obtain ⟨asked, hscans⟩ := hscans
        rw [gdbHandlePacket_scans fuel hstring hscans]
        exact (hidle asked hscans).refusal
      · have hnone : ∀ asked, ¬Scans tail string asked := fun asked h => hscans ⟨asked, h⟩
        rcases gdbHandlePacket_rejects fuel hstring hcommand hnone with h | h
        · rw [h]
          exact .error
        · rw [h]
          exact .unsupported

/-- `M20000000,1:41` -/
theorem gdbHandlePacket_grammar_store :
    (gdbHandlePacket 40 (text "M20000000,1:41" ++ [0])).run
        (GdbConn.fresh wlLinkeAttachTransport ch32v003) =
      ((PacketRequest.writeMemory 0x20000000 [0x41]).handled 40).run
        (GdbConn.fresh wlLinkeAttachTransport ch32v003) := by
  have hgrammar : Grammatical (text "M20000000,1:41") (.writeMemory 0x20000000 [0x41]) :=
    @Grammatical.writeMemory (text "20000000") (text "1") (text "41") [0x41] 0x20000000 1
      (by decide) (by decide) (by decide) (by decide)
  have hfollows := (gdbHandlePacket_grammar_iff (GdbConn.fresh wlLinkeAttachTransport ch32v003)
    ⟨rfl, rfl⟩ (text "M20000000,1:41") [] (by decide) (by decide)).mpr (.inl ⟨_, hgrammar⟩)
  exact (hfollows 40).1 _ hgrammar

/-- The address of an `m` packet fits a word. -/
theorem Grammatical.address_fits {string : List Byte} {asked : PacketRequest}
    (h : Grammatical string asked) (hcommand : string.getD 0 0 = ascii 'm') :
    (hexWord ((string.drop 1).takeWhile isHexDigit)).isSome = true := by
  cases h with
  | @readMemory a l address length haddress hlength =>
      have hdigits := (digits_of_hexWord haddress).hex
      have htake : (a ++ ascii ',' :: l).takeWhile isHexDigit = a := by
        have hcomma : NumeralEnds (ascii ',' :: l) := (numeralEnds_cons l).mpr (by decide)
        rw [List.takeWhile_append_of_pos hdigits, hcomma, List.append_nil]
      rw [List.drop_one, List.tail_cons, htake, haddress]
      rfl
  | writeMemory => exact absurd (show ascii 'M' = ascii 'm' from hcommand) (by decide)
  | readRegister => exact absurd (show ascii 'p' = ascii 'm' from hcommand) (by decide)
  | writeRegister => exact absurd (show ascii 'P' = ascii 'm' from hcommand) (by decide)
  | insert => exact absurd (show ascii 'Z' = ascii 'm' from hcommand) (by decide)
  | remove => exact absurd (show ascii 'z' = ascii 'm' from hcommand) (by decide)

/-- A numeral of 33 bits is read without its first digit. -/
theorem gdbHandlePacket_reads_excess :
    ¬FollowsGrammar (GdbConn.fresh wlLinkeAttachTransport ch32v003) (text "m120000000,4") [] := by
  intro hfollows
  have hscans : Scans [] (text "m120000000,4") (.readMemory 0x20000000 4) :=
    @Scans.readMemory [] (text "120000000") (text "4") [] 0x20000000 4
      ⟨by decide, by decide, by decide⟩ ⟨by decide, by decide, by decide⟩ numeralEnds_nil
  have hgrammar : ¬∃ asked, Grammatical (text "m120000000,4") asked := by
    rintro ⟨asked, hasked⟩
    exact absurd (hasked.address_fits rfl) (by decide)
  have hrefusal := (hfollows 1).2 hgrammar
  rw [gdbHandlePacket_scans 1 (by decide) hscans] at hrefusal
  refine PacketRequest.handled_not_refusal ⟨rfl, rfl⟩ ?_ hrefusal
  unfold PacketRequest.Idle
  decide

end WchLink
