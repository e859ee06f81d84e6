import WchLink.FlashStores
import WchLink.LossyAccess
import WchLink.Masks

/-! # Facts the flasher's steps preserve

What may be said of the target's memories while a flash sequence runs over a
transport that loses requests: the control register never has certain bits set,
and an operation of the controller is started, or started again, with a page
selected that may be changed.
-/

namespace WchLink

open Bytes Interaction Masks

/-! ## Accesses, by what they do to the target -/

section Accesses

open Program

variable {link : Link} {invariant before : SimTarget → Prop}

/-- A triple that speaks of the target only. -/
abbrev TargetTriple {α : Type} (invariant before : SimTarget → Prop) (program : Fallible α)
    (after : α → SimTarget → Prop) : Prop :=
  Triple unreliable (fun sim => invariant sim.target) (fun sim => before sim.target) program
    fun value sim => after value sim.target

theorem dmRun_target {instruction address value : Word} {effect : SimTarget → SimTarget}
    {output : SimTarget → Word} {after : Word → SimTarget → Prop} {wanted : Bool}
    (h : AccessInstruction instruction address value effect output)
    (heffect : ∀ target, invariant target → before target → invariant (effect target) ∧
      ∀ word, (wanted = true → word = output target) → after word (effect target)) :
    TargetTriple invariant before (dmRun link [instruction, wlRvEbreak] address value wanted)
      after := by
  apply Triple.each
  intro start hinvariant hbefore
  obtain ⟨heffect, hafter⟩ := heffect start.target hinvariant hbefore
  refine ⟨start.Between (effect start.target), ⟨.refl start, .inl rfl⟩, ?_, ?_⟩
  · intro sim hsim
    rcases hsim.target with htarget | htarget
    · rw [htarget]
      exact hinvariant
    · rw [htarget]
      exact heffect
  · apply (dmRun_triple h start wanted).weaken fun _ _ hsim => hsim
    rintro word sim - ⟨htarget, hword⟩
    rw [htarget]
    exact hafter word hword

/-- A load that is acknowledged returns what the target holds. -/
theorem dmReadSized_target {after : Word → SimTarget → Prop} (size : Width) (address : Word)
    (h : ∀ target, invariant target → before target → invariant (target.afterLoad size address) ∧
      after (target.loaded size address) (target.afterLoad size address)) :
    TargetTriple invariant before (dmReadSized link size address) after := by
  apply dmRun_target (accessInstruction_load size address)
  intro target hinvariant hbefore
  obtain ⟨hloaded, hafter⟩ := h target hinvariant hbefore
  refine ⟨hloaded, fun word hword => ?_⟩
  rw [hword rfl]
  exact hafter

/-- A store that is acknowledged has been made. -/
theorem wlDmWrite32_target {after : SimTarget → Prop} (address value : Word)
    (h : ∀ target, invariant target → before target →
      invariant (target.store .word address value) ∧ after (target.store .word address value)) :
    TargetTriple invariant before (wlDmWrite32 link address value) fun _ => after := by
  have hrun : TargetTriple invariant before
      (dmRun link [wlRvStore Width.word.log2 8 9, wlRvEbreak] address value false)
      fun _ => after := by
    apply dmRun_target (accessInstruction_store .word address value)
    intro target hinvariant hbefore
    obtain ⟨hstored, hafter⟩ := h target hinvariant hbefore
    exact ⟨hstored, fun _ _ => hafter⟩
  exact hrun.andThen fun _ => Triple.ok fun _ _ hafter => hafter

end Accesses

/-! ## The memories -/

/-- The arrays a flash sequence is about. -/
structure Memories where
  chip : Chip
  flash : Nat → Byte
  ram : Nat → Byte
  pageBuf : Nat → Byte

def SimTarget.memories (target : SimTarget) : Memories :=
  ⟨target.chip, target.flash, target.ram, target.pageBuf⟩

/-- The page at an address erased. -/
def Memories.erasePage (memories : Memories) (address : Word) : Memories :=
  { memories with
    flash := fillBytes memories.flash (simFlashOffset address) 64
      memories.chip.flashSize.toNat 0xff }

/-- The page buffer programmed at an address. -/
def Memories.programPage (memories : Memories) (address : Word) : Memories :=
  { memories with
    flash := programBytes memories.flash (simFlashOffset address) 64
      memories.chip.flashSize.toNat memories.pageBuf }

/-- What a write to the control register may do to the memories. -/
inductive CtlrEffect (target : SimTarget) (value : Word) : Memories → Prop
  | none : CtlrEffect target value target.memories
  | reset : value &&& simCtlrBufRst ≠ 0 →
      CtlrEffect target value { target.memories with pageBuf := fun _ => 0xff }
  | erase : value &&& simCtlrStrt ≠ 0 → value &&& simCtlrPageEr ≠ 0 →
      CtlrEffect target value (target.memories.erasePage target.addr)
  | program : value &&& simCtlrStrt ≠ 0 → value &&& simCtlrPagePg ≠ 0 →
      CtlrEffect target value (target.memories.programPage target.addr)
  | eraseSector (memories : Memories) : value &&& simCtlrPer ≠ 0 → CtlrEffect target value memories

theorem simWriteCtlr_effect (target : SimTarget) (value : Word) :
    CtlrEffect target value (simWriteCtlr target value).memories := by
  unfold simWriteCtlr
  dsimp only
  by_cases hreset : value &&& simCtlrBufRst ≠ 0
  · rw [if_pos hreset]
    split_ifs
    · exact .reset hreset
    · exact .none
  rw [if_neg hreset]
  by_cases hidle : value &&& simCtlrStrt = 0
  · rw [if_pos hidle]
    exact .none
  rw [if_neg hidle]
  by_cases herase : value &&& simCtlrPageEr ≠ 0
  · rw [if_pos herase]
    split_ifs
    · exact .none
    · exact .erase hidle herase
  rw [if_neg herase]
  by_cases hprogram : value &&& simCtlrPagePg ≠ 0
  · rw [if_pos hprogram]
    unfold simFlashProgramPage
    dsimp only
    split_ifs
    · exact .none
    · exact .program hidle hprogram
  rw [if_neg hprogram]
  split_ifs with hper
  · exact .eraseSector _ hper
  · exact .none

theorem simWriteCtlr_addr (target : SimTarget) (value : Word) :
    (simWriteCtlr target value).addr = target.addr := by
  unfold simWriteCtlr simFlashProgramPage
  dsimp only
  split_ifs <;> rfl

/-- Loads move nothing that a flash sequence depends on. -/
theorem SimTarget.afterLoad_memories (target : SimTarget) (size : Width) (address : Word) :
    (target.afterLoad size address).memories = target.memories ∧
      (target.afterLoad size address).ctlr = target.ctlr ∧
        (target.afterLoad size address).addr = target.addr := by
  unfold SimTarget.afterLoad simAccess simCtrlRead
  simp only [Bool.false_eq_true, if_false]
  split_ifs <;> exact ⟨rfl, rfl, rfl⟩

/-- The key registers start nothing. -/
theorem simCtrlWrite_key (target : SimTarget) {address : Word} (value : Word)
    (haddress : address = simFlashKeyr ∨ address = simFlashModekeyr) :
    (simCtrlWrite target address value).memories = target.memories ∧
      (simCtrlWrite target address value).ctlr = target.ctlr ∧
        (simCtrlWrite target address value).addr = target.addr := by
  have hmodekeyr : simFlashModekeyr ≠ simFlashKeyr := by decide
  unfold simCtrlWrite
  rcases haddress with rfl | rfl
  · rw [if_pos rfl]
    split_ifs <;> exact ⟨rfl, rfl, rfl⟩
  · rw [if_neg hmodekeyr, if_pos rfl]
    split_ifs <;> exact ⟨rfl, rfl, rfl⟩

/-- A store to flash leaves the controller's registers alone. -/
theorem SimTarget.store_flash_registers (target : SimTarget) {address : Word} (value : Word)
    (hctrl : simIsCtrl address = false) :
    (target.store .word address value).ctlr = target.ctlr ∧
      (target.store .word address value).addr = target.addr := by
  unfold SimTarget.store simAccess simFlashStore
  simp only [hctrl, Bool.false_eq_true, if_false, if_true]
  split_ifs <;> exact ⟨rfl, rfl⟩

/-! ## Supervised facts -/

/-- Bits among those that are clear. -/
theorem clear_bits {value clear bits : Word} (h : value &&& clear = 0)
    (hbits : clear &&& bits = bits) : value &&& bits = 0 := by
  rw [← hbits, ← BitVec.and_assoc, h]
  exact BitVec.zero_and

/-- A fact about the memories, with the bits that are never set in the control
register and the pages that operations are started on while it is preserved. -/
structure Supervision where
  fact : Memories → Prop
  forbidden : Word
  selected : Word → Prop
  lock : simCtlrLock &&& forbidden = 0
  keeps : ∀ target value memories, fact target.memories → value &&& forbidden = 0 →
    (value &&& simCtlrStrt ≠ 0 → selected target.addr) → CtlrEffect target value memories →
    fact memories

namespace Supervision

/-- The fact holds and the controller is within the supervision. -/
structure Holds (rules : Supervision) (target : SimTarget) : Prop where
  fact : rules.fact target.memories
  ctlr : target.ctlr &&& rules.forbidden = 0
  started : target.ctlr &&& simCtlrStrt ≠ 0 → rules.selected target.addr

theorem Holds.of_same {rules : Supervision} {target after : SimTarget} (h : rules.Holds target)
    (hsame : after.memories = target.memories ∧ after.ctlr = target.ctlr ∧
      after.addr = target.addr) :
    rules.Holds after := by
  obtain ⟨hmemories, hctlr, haddr⟩ := hsame
  refine ⟨?_, ?_, ?_⟩
  · rw [hmemories]
    exact h.fact
  · rw [hctlr]
    exact h.ctlr
  · rw [hctlr, haddr]
    exact h.started

/-- The programs that keep it so, whatever is lost. -/
abbrev programs (rules : Supervision) : ProgramClass Usb :=
  Program.preserving unreliable (fun sim _ => rules.Holds sim.target)
    fun sim => rules.Holds sim.target

end Supervision

/-! ## The flasher's steps -/

section Steps

open Program

variable {link : Link} {rules : Supervision}

theorem supervised_loads (link : Link) : HasLoads rules.programs link where
  read size address := by
    have hread : TargetTriple rules.Holds (fun _ => True) (dmReadSized link size address)
        fun _ _ => True :=
      dmReadSized_target size address fun target htarget _ =>
        ⟨htarget.of_same (target.afterLoad_memories size address), trivial⟩
    exact hread.mem

theorem keyWrite_supervised {address : Word} (value : Word)
    (haddress : address = flashKeyr ∨ address = flashModekeyr) :
    rules.programs.Mem (wlDmWrite32 link address value).run := by
  have hwrite : TargetTriple rules.Holds (fun _ => True) (wlDmWrite32 link address value)
      fun _ _ => True := by
    apply wlDmWrite32_target
    intro target htarget _
    rcases haddress with rfl | rfl
    · exact ⟨htarget.of_same (simCtrlWrite_key target value (.inl rfl)), trivial⟩
    · exact ⟨htarget.of_same (simCtrlWrite_key target value (.inr rfl)), trivial⟩
  exact hwrite.mem

theorem unlock_supervised : rules.programs.Mem (unlock link).run := by
  let C := rules.programs
  unfold unlock
  apply C.andThen (keyWrite_supervised _ (.inl rfl))
  intro _
  apply C.andThen (keyWrite_supervised _ (.inl rfl))
  intro _
  apply C.andThen (keyWrite_supervised _ (.inr rfl))
  intro _
  apply C.andThen (keyWrite_supervised _ (.inr rfl))
  intro _
  apply C.andThen (wlDmRead32_mem (supervised_loads link) flashCtlr)
  intro ctlr
  split
  · exact C.throws _
  · exact C.ok ()

/-- A load of the control register differs from it in the lock at most. -/
theorem loaded_ctlr (target : SimTarget) :
    AgreeOutside simCtlrLock (target.loaded .word flashCtlr) target.ctlr := by
  have hloaded : target.loaded .word flashCtlr =
      if target.unlocked then target.ctlr &&& ~~~simCtlrLock else target.ctlr ||| simCtlrLock := rfl
  rw [hloaded]
  split_ifs
  · exact AgreeOutside.clear _ _
  · apply AgreeOutside.set
    decide

/-- An update sets no bits but those it is to set. -/
theorem updated_bit {word set bit : Word} (clear : Word) (hword : word &&& bit = 0)
    (hset : set &&& bit = 0) : (word ||| set) &&& ~~~clear &&& bit = 0 := by
  calc (word ||| set) &&& ~~~clear &&& bit
      = ((word ||| set) &&& bit) &&& ~~~clear := by
        rw [BitVec.and_assoc, BitVec.and_comm (~~~clear), ← BitVec.and_assoc]
    _ = 0 := by
        rw [BitVec.and_or_distrib_right, hword, hset]
        simp

/-- An update of the control register, where an operation that it starts has its
page selected. -/
theorem ctlrUpdate_target {set : Word} (clear : Word) (hset : set &&& rules.forbidden = 0) :
    TargetTriple rules.Holds (fun target => set &&& simCtlrStrt ≠ 0 → rules.selected target.addr)
      (ctlrUpdate link set clear) fun _ _ => True := by
  have hread : TargetTriple rules.Holds
      (fun target => set &&& simCtlrStrt ≠ 0 → rules.selected target.addr)
      (wlDmRead32 link flashCtlr) fun word target =>
        AgreeOutside simCtlrLock word target.ctlr ∧
          (set &&& simCtlrStrt ≠ 0 → rules.selected target.addr) := by
    apply dmReadSized_target
    intro target htarget hselected
    exact ⟨htarget.of_same (target.afterLoad_memories _ _), loaded_ctlr target, hselected⟩
  have hwrite (word : Word) : TargetTriple rules.Holds
      (fun target => AgreeOutside simCtlrLock word target.ctlr ∧
        (set &&& simCtlrStrt ≠ 0 → rules.selected target.addr))
      (wlDmWrite32 link flashCtlr ((word ||| set) &&& ~~~clear)) fun _ _ => True := by
    apply wlDmWrite32_target
    rintro target htarget ⟨hword, hselected⟩
    have hforbidden : (word ||| set) &&& ~~~clear &&& rules.forbidden = 0 := by
      apply updated_bit clear _ hset
      rw [hword.bits rules.lock]
      exact htarget.ctlr
    have hstarted : (word ||| set) &&& ~~~clear &&& simCtlrStrt ≠ 0 →
        rules.selected target.addr := by
      intro hstart
      by_cases hidle : set &&& simCtlrStrt = 0
      · apply htarget.started
        intro hctlr
        rw [← hword.bits (by decide)] at hctlr
        exact hstart (updated_bit clear hctlr hidle)
      · exact hselected hidle
    have hwritten : rules.Holds (simWriteCtlr target ((word ||| set) &&& ~~~clear)) := by
      refine ⟨?_, ?_, ?_⟩
      · exact rules.keeps _ _ _ htarget.fact hforbidden hstarted (simWriteCtlr_effect _ _)
      · rw [simWriteCtlr_ctlr]
        exact hforbidden
      · rw [simWriteCtlr_ctlr, simWriteCtlr_addr]
        exact hstarted
    exact ⟨hwritten, trivial⟩
  exact hread.andThen hwrite

/-- An update that starts nothing. -/
theorem ctlrUpdate_supervised {set : Word} (clear : Word) (hset : set &&& rules.forbidden = 0)
    (hstart : set &&& simCtlrStrt = 0) : rules.programs.Mem (ctlrUpdate link set clear).run := by
  have hupdate : TargetTriple rules.Holds (fun _ => True) (ctlrUpdate link set clear)
      fun _ _ => True :=
    (ctlrUpdate_target clear hset).weaken (fun _ _ _ hset => absurd hstart hset)
      fun _ _ _ h => h
  exact hupdate.mem

/-- A page is selected and the operation started on it. -/
theorem startPage_supervised {page : Word} (hpage : rules.selected page)
    (hstart : flashCtlrStrt &&& rules.forbidden = 0) : rules.programs.Mem (do
      wlDmWrite32 link flashAddr page
      ctlrUpdate link flashCtlrStrt 0
      waitReady link : Fallible Unit).run := by
  have hselect : TargetTriple rules.Holds (fun _ => True) (wlDmWrite32 link flashAddr page)
      fun _ target => target.addr = page := by
    apply wlDmWrite32_target
    intro target htarget _
    exact ⟨⟨htarget.fact, htarget.ctlr, fun _ => hpage⟩, rfl⟩
  have hstart : TargetTriple rules.Holds (fun target => target.addr = page)
      (ctlrUpdate link flashCtlrStrt 0) fun _ _ => True := by
    apply (ctlrUpdate_target 0 hstart).weaken _ fun _ _ _ h => h
    intro sim _ haddr _
    rw [haddr]
    exact hpage
  have hwait : Triple unreliable (fun sim => rules.Holds sim.target) (fun _ => True)
      (waitReady link) fun _ _ => True :=
    .of_mem (waitReady_mem (supervised_loads link))
  exact (hselect.andThen fun _ => hstart.andThen fun _ => hwait).mem

theorem or_allowed {first second forbidden : Word} (h : (first ||| second) &&& forbidden = 0) :
    first &&& forbidden = 0 ∧ second &&& forbidden = 0 := by
  rw [BitVec.and_or_distrib_right] at h
  exact BitVec.or_eq_zero_iff.mp h

theorem erasePageFast_supervised {page : Word} (hpage : rules.selected page)
    (hset : (flashCtlrPageEr ||| flashCtlrStrt) &&& rules.forbidden = 0) :
    rules.programs.Mem (erasePageFast link page).run := by
  let C := rules.programs
  obtain ⟨hfirst, hsecond⟩ := or_allowed hset
  apply cleaning_mem C _ (ctlrUpdate_supervised _ BitVec.zero_and (by decide))
  apply C.andThen (waitReady_mem (supervised_loads link))
  intro _
  apply C.andThen (ctlrUpdate_supervised _ hfirst (by decide))
  intro _
  exact startPage_supervised hpage hsecond

theorem bufferReset_supervised
    (hset : (flashCtlrPagePg ||| flashCtlrBufRst) &&& rules.forbidden = 0) :
    rules.programs.Mem (bufferReset link).run := by
  let C := rules.programs
  obtain ⟨hfirst, hsecond⟩ := or_allowed hset
  apply cleaning_mem C _ (ctlrUpdate_supervised _ BitVec.zero_and (by decide))
  apply C.andThen (ctlrUpdate_supervised _ hfirst (by decide))
  intro _
  apply C.andThen (ctlrUpdate_supervised _ hsecond (by decide))
  intro _
  exact waitReady_mem (supervised_loads link)

theorem programPageFast_supervised {page : Word} (hpage : rules.selected page)
    (hset : (flashCtlrPagePg ||| flashCtlrStrt) &&& rules.forbidden = 0) :
    rules.programs.Mem (programPageFast link page).run := by
  let C := rules.programs
  obtain ⟨hfirst, hsecond⟩ := or_allowed hset
  apply cleaning_mem C _ (ctlrUpdate_supervised _ BitVec.zero_and (by decide))
  apply C.andThen (ctlrUpdate_supervised _ hfirst (by decide))
  intro _
  exact startPage_supervised hpage hsecond

/-- Stores of words at this address preserve the fact. -/
def Supervision.Stores (rules : Supervision) (address : Word) : Prop :=
  simIsCtrl address = false ∧ ∀ target word, rules.Holds target →
    rules.fact (target.store .word address word).memories

theorem bufferLoad_supervised {address : Word} (word : Word) (hstores : rules.Stores address)
    (hset : (flashCtlrPagePg ||| flashCtlrBufLoad) &&& rules.forbidden = 0) :
    rules.programs.Mem (bufferLoad link address word).run := by
  let C := rules.programs
  have hstore : TargetTriple rules.Holds (fun _ => True) (wlDmWrite32 link address word)
      fun _ _ => True := by
    apply wlDmWrite32_target
    intro target htarget _
    obtain ⟨hctlr, haddr⟩ := target.store_flash_registers word hstores.1
    have hstored : rules.Holds (target.store .word address word) := by
      refine ⟨hstores.2 target word htarget, ?_, ?_⟩
      · rw [hctlr]
        exact htarget.ctlr
      · rw [hctlr, haddr]
        exact htarget.started
    exact ⟨hstored, trivial⟩
  obtain ⟨hfirst, hsecond⟩ := or_allowed hset
  apply cleaning_mem C _ (ctlrUpdate_supervised _ BitVec.zero_and (by decide))
  apply C.andThen (ctlrUpdate_supervised _ hfirst (by decide))
  intro _
  apply C.andThen hstore.mem
  intro _
  apply C.andThen (ctlrUpdate_supervised _ hsecond (by decide))
  intro _
  exact waitReady_mem (supervised_loads link)

/-- Loading a page's words stores to the page's own words. -/
theorem loadPage_supervised {page : Nat}
    (hstores : ∀ slot < 16, rules.Stores (flashAt (page + 4 * slot)))
    (hset : (flashCtlrPagePg ||| flashCtlrBufLoad) &&& rules.forbidden = 0) (bytes : List Byte)
    {slot : Nat} (hbytes : 4 * slot + bytes.length ≤ 64) :
    rules.programs.Mem (loadPage link (flashAt (page + 4 * slot)) bytes).run := by
  generalize haddress : flashAt (page + 4 * slot) = address
  induction address, bytes using loadPage.induct generalizing slot with
  | case1 address b0 b1 b2 b3 rest ih =>
      subst haddress
      simp only [List.length_cons] at hbytes
      rw [loadPage]
      apply ProgramClass.andThen
      · exact bufferLoad_supervised _ (hstores slot (by omega)) hset
      · intro _
        exact @ih (slot + 1) (by omega) (flashAt_add (page + 4 * slot) 4).symm
  | case2 bytes address hshort =>
      unfold loadPage
      split
      · exact absurd rfl (hshort _ _ _ _ _)
      · exact ProgramClass.ok _ ()

end Steps

end WchLink
