import WchLink.FlashRange
import WchLink.FlashStores
import WchLink.Interaction.Reach
import WchLink.Masks

/-! # The mode bits on every way out

Each sub-sequence of the flasher sets mode bits of CTLR, waits, and clears them
again whatever the wait brought. The controller here answers as it likes, is
busy as long as it likes and keeps its lock; only CTLR keeps what it is given.
-/

namespace WchLink

open Bytes Interaction Masks Program

variable {σ : Type}

/-- From ready states every access succeeds, and CTLR holds what was last stored
there apart from LOCK. Nothing is said of other registers, so any status may be
read. -/
structure HoldsCtlr (world : World Usb σ) (link : Link) (ready : σ → Prop) (ctlr : σ → Word) :
    Prop where
  load : ∀ size address state status final, ready state →
    Returns world (dmReadSized link size address).run state status final →
      ready final ∧ AgreeOutside flashCtlrLock (ctlr final) (ctlr state) ∧
        ∃ value, status = .ok value ∧
          (size = .word → address = flashCtlr → AgreeOutside flashCtlrLock value (ctlr state))
  store : ∀ address value state status final, ready state →
    Returns world (wlDmWrite32 link address value).run state status final →
      ready final ∧ status = .ok () ∧
        (address = flashCtlr → AgreeOutside flashCtlrLock (ctlr final) value) ∧
          (address &&& ~~~3 ≠ flashCtlr → AgreeOutside flashCtlrLock (ctlr final) (ctlr state))

/-- CTLR agrees with the word outside LOCK and the mask. -/
structure CtlrWithin (ready : σ → Prop) (ctlr : σ → Word) (mask entry : Word) (state : σ) :
    Prop where
  ready : ready state
  agree : AgreeOutside (flashCtlrLock ||| mask) (ctlr state) entry

/-- The programs that return with CTLR so. -/
abbrev ctlrWithin (world : World Usb σ) (ready : σ → Prop) (ctlr : σ → Word) (mask entry : Word) :
    ProgramClass Usb :=
  restoring world (CtlrWithin ready ctlr mask entry)

section Controller

variable {world : World Usb σ} {link : Link} {ready : σ → Prop} {ctlr : σ → Word}
  (h : HoldsCtlr world link ready ctlr) {mask entry : Word}

theorem CtlrWithin.unmasked {state : σ} (h : CtlrWithin ready ctlr 0 entry state) :
    AgreeOutside flashCtlrLock (ctlr state) entry := by
  have hlock : flashCtlrLock ||| (0 : Word) = flashCtlrLock := BitVec.or_zero
  have hagree := h.agree
  rwa [hlock] at hagree

theorem CtlrWithin.keep {state final : σ} (h : CtlrWithin ready ctlr mask entry state)
    (hready : ready final) (hkept : AgreeOutside flashCtlrLock (ctlr final) (ctlr state)) :
    CtlrWithin ready ctlr mask entry final :=
  ⟨hready, (hkept.inLeft mask).trans h.agree⟩

include h

theorem ctlrWithin_hasLoads : HasLoads (ctlrWithin world ready ctlr mask entry) link where
  read size address state status final hstate hreturns := by
    obtain ⟨hready, hkept, -⟩ := h.load size address state status final hstate.ready hreturns
    exact hstate.keep hready hkept

theorem store_within {address : Word} (haddress : address &&& ~~~3 ≠ flashCtlr) (value : Word) :
    (ctlrWithin world ready ctlr mask entry).Mem (wlDmWrite32 link address value).run := by
  intro state status final hstate hreturns
  obtain ⟨hready, -, -, hkept⟩ := h.store address value state status final hstate.ready hreturns
  exact hstate.keep hready (hkept haddress)

/-- What an update leaves, from what it found. -/
theorem ctlrUpdate_returns {set clear : Word} {state final : σ} {status : Except WlErr Unit}
    (hready : ready state)
    (hreturns : Returns world (ctlrUpdate link set clear).run state status final) :
    ready final ∧ ∃ value, AgreeOutside flashCtlrLock value (ctlr state) ∧
      AgreeOutside flashCtlrLock (ctlr final) ((value ||| set) &&& ~~~clear) := by
  unfold ctlrUpdate at hreturns
  rw [ExceptT.run_bind] at hreturns
  obtain ⟨read, middle, hfirst, hmore⟩ := returns_bind_iff.mp hreturns
  obtain ⟨hmiddle, -, value, rfl, hvalue⟩ := h.load .word flashCtlr state read middle hready hfirst
  obtain ⟨hfinal, -, hstored, -⟩ := h.store flashCtlr _ middle status final hmiddle hmore
  exact ⟨hfinal, value, hvalue rfl rfl, hstored rfl⟩

/-- Setting bits of the mask. -/
theorem ctlrUpdate_within {set : Word} (hset : set &&& ~~~mask = 0) :
    (ctlrWithin world ready ctlr mask entry).Mem (ctlrUpdate link set 0).run := by
  intro state status final hstate hreturns
  obtain ⟨hready, value, hvalue, hstored⟩ := ctlrUpdate_returns h hstate.ready hreturns
  have hinside : set &&& ~~~(flashCtlrLock ||| mask) = 0 := by
    rw [BitVec.not_or, BitVec.and_comm (~~~flashCtlrLock), ← BitVec.and_assoc, hset]
    exact BitVec.zero_and
  have hall : (value ||| set) &&& ~~~(0 : Word) = value ||| set := BitVec.and_allOnes
  rw [hall] at hstored
  have hmoved : AgreeOutside (flashCtlrLock ||| mask) (ctlr final) value :=
    (hstored.inLeft mask).trans (.set value hinside)
  exact ⟨hready, hmoved.trans ((hvalue.inLeft mask).trans hstate.agree)⟩

/-- Whatever a body within the mask came to, clearing the mask restores CTLR. -/
theorem cleaning_within {body : Fallible Unit} (hclear : entry &&& mask = 0)
    (hbody : (ctlrWithin world ready ctlr mask entry).Mem body.run) :
    (ctlrWithin world ready ctlr 0 entry).Mem (cleaning body (ctlrUpdate link 0 mask)).run := by
  intro state status final hstate hreturns
  obtain ⟨first, middle, hfirst, hrest⟩ := returns_bind_iff.mp hreturns
  obtain ⟨cleared, last, hcleared, hdone⟩ := returns_bind_iff.mp hrest
  obtain ⟨-, rfl⟩ := returns_done_iff.mp hdone
  have hmiddle := hbody state first middle ⟨hstate.ready, hstate.unmasked.inLeft mask⟩ hfirst
  obtain ⟨hready, value, hvalue, hstored⟩ := ctlrUpdate_returns h hmiddle.ready hcleared
  have hsame : value ||| (0 : Word) = value := BitVec.or_zero
  rw [hsame] at hstored
  have hread := (hvalue.inLeft mask).trans hmiddle.agree
  exact ⟨hready, (hstored.trans (hread.restore hclear)).inLeft 0⟩

theorem waitReady_within : (ctlrWithin world ready ctlr mask entry).Mem (waitReady link).run :=
  waitReady_mem (ctlrWithin_hasLoads h)

/-! ## The four sub-sequences -/

section Sequences

variable (hentry : entry &&& modeMask = 0)

omit h in
theorem entry_clear (hentry : entry &&& modeMask = 0) (hmask : modeMask &&& mask = mask) :
    entry &&& mask = 0 := by
  rw [← hmask, ← BitVec.and_assoc, hentry]
  exact BitVec.zero_and

include hentry

theorem erasePageFast_within (page : Word) :
    (ctlrWithin world ready ctlr 0 entry).Mem (erasePageFast link page).run := by
  let C := ctlrWithin world ready ctlr (flashCtlrPageEr ||| flashCtlrStrt) entry
  have hbody : C.Mem (do
      waitReady link
      ctlrUpdate link flashCtlrPageEr 0
      wlDmWrite32 link flashAddr page
      ctlrUpdate link flashCtlrStrt 0
      waitReady link : Fallible Unit).run := by
    apply C.andThen (waitReady_within h)
    intro _
    apply C.andThen (ctlrUpdate_within h (by decide))
    intro _
    apply C.andThen (store_within h (by decide) page)
    intro _
    apply C.andThen (ctlrUpdate_within h (by decide))
    intro _
    exact waitReady_within h
  exact cleaning_within h (entry_clear hentry (by decide)) hbody

theorem bufferReset_within : (ctlrWithin world ready ctlr 0 entry).Mem (bufferReset link).run := by
  let C := ctlrWithin world ready ctlr (flashCtlrPagePg ||| flashCtlrBufRst) entry
  have hbody : C.Mem (do
      ctlrUpdate link flashCtlrPagePg 0
      ctlrUpdate link flashCtlrBufRst 0
      waitReady link : Fallible Unit).run := by
    apply C.andThen (ctlrUpdate_within h (by decide))
    intro _
    apply C.andThen (ctlrUpdate_within h (by decide))
    intro _
    exact waitReady_within h
  exact cleaning_within h (entry_clear hentry (by decide)) hbody

/-- A store between setting PAGE_PG and a second bit, as for a word of the
buffer and for the page that is programmed. -/
theorem pagePg_within {address : Word} (haddress : address &&& ~~~3 ≠ flashCtlr) (value : Word)
    {flag : Word} (hflag : modeMask &&& flag = flag) :
    (ctlrWithin world ready ctlr 0 entry).Mem
      (cleaning (do
        ctlrUpdate link flashCtlrPagePg 0
        wlDmWrite32 link address value
        ctlrUpdate link flag 0
        waitReady link)
        (ctlrUpdate link 0 (flashCtlrPagePg ||| flag))).run := by
  let C := ctlrWithin world ready ctlr (flashCtlrPagePg ||| flag) entry
  have hbody : C.Mem (do
      ctlrUpdate link flashCtlrPagePg 0
      wlDmWrite32 link address value
      ctlrUpdate link flag 0
      waitReady link : Fallible Unit).run := by
    apply C.andThen (ctlrUpdate_within h _)
    · intro _
      apply C.andThen (store_within h haddress value)
      intro _
      apply C.andThen (ctlrUpdate_within h _)
      · intro _
        exact waitReady_within h
      · simp [BitVec.not_or, ← BitVec.and_assoc, BitVec.and_comm]
    · simp [BitVec.not_or, ← BitVec.and_assoc]
  refine cleaning_within h (entry_clear hentry ?_) hbody
  rw [BitVec.and_or_distrib_left, hflag]
  rfl

theorem bufferLoad_within {address : Word} (haddress : address &&& ~~~3 ≠ flashCtlr)
    (word : Word) : (ctlrWithin world ready ctlr 0 entry).Mem (bufferLoad link address word).run :=
  pagePg_within h hentry haddress word (by decide)

theorem programPageFast_within (page : Word) :
    (ctlrWithin world ready ctlr 0 entry).Mem (programPageFast link page).run :=
  pagePg_within h hentry (by decide) page (by decide)

/-! ## The page loop -/

omit h hentry in
/-- Below the controller nothing is CTLR. -/
theorem below_controller {address : Word} (haddress : address.toNat < simFlashCtrl.toNat) :
    address &&& ~~~3 ≠ flashCtlr := by
  intro heq
  have hvalue := congrArg BitVec.toNat heq
  have hle : (address &&& ~~~3).toNat ≤ address.toNat := by
    rw [BitVec.toNat_and]
    exact Nat.and_le_left
  have hctlr : flashCtlr.toNat = simFlashCtrl.toNat + 16 := rfl
  omega

theorem loadPage_within (address : Word) (bytes : List Byte)
    (hend : address.toNat + bytes.length ≤ simFlashCtrl.toNat) :
    (ctlrWithin world ready ctlr 0 entry).Mem (loadPage link address bytes).run := by
  have hctrl : simFlashCtrl.toNat = 0x40022000 := rfl
  induction address, bytes using loadPage.induct with
  | case1 address b0 b1 b2 b3 rest ih =>
      simp only [List.length_cons] at hend
      rw [loadPage]
      apply ProgramClass.andThen
      · exact bufferLoad_within h hentry (below_controller (by omega)) _
      · intro _
        apply ih
        have hnext : (address + 4).toNat = (address.toNat + 4) % 2 ^ 32 := BitVec.toNat_add _ _
        omega
  | case2 address bytes hshort =>
      unfold loadPage
      split
      · exact absurd rfl (hshort _ _ _ _ _)
      · exact ProgramClass.ok _ ()

theorem writePage_within {page : Word} (hpage : page.toNat + 64 ≤ simFlashCtrl.toNat)
    (start stop : Word) (image : List Byte) :
    (ctlrWithin world ready ctlr 0 entry).Mem (writePage link 64 start stop image page).run := by
  let C := ctlrWithin world ready ctlr 0 entry
  unfold writePage
  apply restoring_andThen (readOldPage_mem (ctlrWithin_hasLoads h) 64 start stop page)
    (readOldPage_length start stop page)
  intro old hold
  apply C.andThen (erasePageFast_within h hentry page)
  intro _
  apply C.andThen (bufferReset_within h hentry)
  intro _
  apply C.andThen
  · apply loadPage_within h hentry
    simpa [mergePage, hold] using hpage
  · intro _
    exact programPageFast_within h hentry page

/-- From page to page; the part's flash ends below the controller. -/
theorem writePages_within {stop : Word} (hstop : stop.toNat ≤ simFlashCtrl.toNat) (start : Word)
    (image : List Byte) (rounds : Nat) {page : Word} (hpage : page.toNat % 64 = 0) :
    (ctlrWithin world ready ctlr 0 entry).Mem (writePages link 64 start stop image rounds page).run := by
  have hctrl : simFlashCtrl.toNat = 0x40022000 := rfl
  induction rounds generalizing page with
  | zero => exact ProgramClass.map _ _ restoring_cuts
  | succ rounds ih =>
      rw [writePages]
      by_cases hmore : page < stop
      · rw [if_pos hmore]
        rw [BitVec.lt_def] at hmore
        apply ProgramClass.andThen
        · exact writePage_within h hentry (by omega) start stop image
        · intro _
          apply ih
          have hnext : (page + 64).toNat = (page.toNat + 64) % 2 ^ 32 := BitVec.toNat_add _ _
          omega
      · rw [if_neg hmore]
        exact ProgramClass.ok _ ()

end Sequences

/-- The keys go to other registers. -/
theorem unlock_within : (ctlrWithin world ready ctlr mask entry).Mem (unlock link).run := by
  let C := ctlrWithin world ready ctlr mask entry
  unfold unlock
  apply C.andThen (store_within h (by decide) _)
  intro _
  apply C.andThen (store_within h (by decide) _)
  intro _
  apply C.andThen (store_within h (by decide) _)
  intro _
  apply C.andThen (store_within h (by decide) _)
  intro _
  apply C.andThen (wlDmRead32_mem (ctlrWithin_hasLoads h) flashCtlr)
  intro ctlr
  split
  · exact C.throws _
  · exact C.ok ()

omit h in
theorem chips_eraseSize : ∀ chip ∈ chips, chip.eraseSize = 0 ∨ chip.eraseSize = 64 := by decide

omit h in
theorem chips_below_controller :
    ∀ chip ∈ chips, chip.flashBase.toNat + chip.flashSize.toNat ≤ simFlashCtrl.toNat := by decide

omit h in
/-- An accepted range ends in the part's flash, also where its end has wrapped. -/
theorem rangeOk_stop {chip : Chip} (hchip : chip ∈ chips) {address : Word} {length : BitVec 64}
    (hrange : wlFlashRangeOk (some chip) address length = true) :
    (normalise chip address + length.setWidth 32).toNat ≤
      chip.flashBase.toNat + chip.flashSize.toNat := by
  have hend := ((wlFlashRangeOk_iff (chips_flashSize chip hchip) address length).mp hrange).2
  have hflash := chips_below_controller chip hchip
  have hctrl : simFlashCtrl.toNat = 0x40022000 := rfl
  rw [BitVec.toNat_add, BitVec.toNat_setWidth, toNat_normalise]
  omega

theorem wlFlashCh32v0Write_within (hentry : entry &&& modeMask = 0) {chip : Chip}
    (hchip : chip ∈ chips) {address : Word} {length : BitVec 64}
    (hrange : wlFlashRangeOk (some chip) address length = true) (image : List Byte) :
    (ctlrWithin world ready ctlr 0 entry).Mem
      (wlFlashCh32v0Write link chip (normalise chip address) image length).run := by
  have hstop := (rangeOk_stop hchip hrange).trans (chips_below_controller chip hchip)
  unfold wlFlashCh32v0Write
  dsimp only
  rcases chips_eraseSize chip hchip with hnone | hpages
  · rw [hnone, if_pos (by decide)]
    exact ProgramClass.throwThen _ _ _
  · rw [hpages, if_neg (by decide)]
    apply ProgramClass.andThen _ (unlock_within h)
    intro _
    apply writePages_within h hentry hstop
    have hfirst := toNat_and_high (normalise chip address) (by decide : 6 ≤ 32)
    have hmask : ((64 : Word) - 1) = BitVec.ofNat 32 (2 ^ 6 - 1) := rfl
    rw [hmask, hfirst]
    omega

end Controller

/-- However the controller answers, a write to an accepted range returns with
every mode bit of CTLR clear and the rest but LOCK as it was, whether it has
succeeded or not. -/
theorem wlFlashCh32v0Write_restores {world : World Usb σ} {link : Link} {ready : σ → Prop}
    {ctlr : σ → Word} (h : HoldsCtlr world link ready ctlr) {chip : Chip} (hchip : chip ∈ chips) {address : Word}
    {length : BitVec 64} (hrange : wlFlashRangeOk (some chip) address length = true)
    (image : List Byte) {state final : σ} {status : Except WlErr Unit}
    (hready : ready state) (hentry : ctlr state &&& modeMask = 0)
    (hreturns : Returns world
      (wlFlashCh32v0Write link chip (normalise chip address) image length).run state status final) :
    ctlr final &&& modeMask = 0 ∧ AgreeOutside flashCtlrLock (ctlr final) (ctlr state) := by
  have hwithin : CtlrWithin ready ctlr 0 (ctlr state) state := ⟨hready, .refl _ _⟩
  have hreturned := wlFlashCh32v0Write_within h hentry hchip hrange image state status final
    hwithin hreturns
  refine ⟨?_, hreturned.unmasked⟩
  rw [hreturned.unmasked.bits (by decide), hentry]

/-- So does every other request to write, the refused ones without an access. -/
theorem wlFlashWrite_restores {world : World Usb σ} {link : Link} {ready : σ → Prop}
    {ctlr : σ → Word} (h : HoldsCtlr world link ready ctlr) {chip : Option Chip}
    (hchip : ∀ part, chip = some part → part ∈ chips) (address : Word)
    (image : Option (List Byte)) (length : BitVec 64) {state final : σ}
    {status : Except WlErr Unit} (hready : ready state) (hentry : ctlr state &&& modeMask = 0)
    (hreturns : Returns world (wlFlashWrite link chip address image length).run state status
      final) :
    ctlr final &&& modeMask = 0 ∧ AgreeOutside flashCtlrLock (ctlr final) (ctlr state) := by
  have hrefused {error : WlErr} (hreturns : Returns world
      (throw error : Fallible Unit).run state status final) :
      ctlr final &&& modeMask = 0 ∧ AgreeOutside flashCtlrLock (ctlr final) (ctlr state) := by
    obtain ⟨-, rfl⟩ := returns_done_iff.mp hreturns
    exact ⟨hentry, .refl _ _⟩
  cases chip with
  | none => exact hrefused hreturns
  | some chip =>
      cases image with
      | none => exact hrefused hreturns
      | some image =>
          unfold wlFlashWrite at hreturns
          dsimp only at hreturns
          split at hreturns
          · exact hrefused hreturns
          · split at hreturns
            · exact hrefused hreturns
            · split at hreturns
              · exact hrefused hreturns
              · next hrange =>
                  rw [Bool.not_eq_true', Bool.not_eq_false] at hrange
                  split at hreturns
                  · exact wlFlashCh32v0Write_restores h (hchip chip rfl) hrange image hready
                      hentry hreturns
                  · exact hrefused hreturns

/-! ## The simulator's controller -/

theorem simCtrlWrite_ctlr (target : SimTarget) (address value : Word) :
    (simCtrlWrite target address value).ctlr = if address = flashCtlr then value
      else target.ctlr := by
  by_cases haddress : address = flashCtlr
  · rw [if_pos haddress, haddress]
    exact simWriteCtlr_ctlr target value
  · have hother : ¬address = simFlashCtlr := haddress
    unfold simCtrlWrite
    rw [if_neg haddress, if_neg hother]
    split_ifs <;> rfl

theorem simIsCtrl_ctlr {address : Word} (haddress : address &&& ~~~3 = flashCtlr) :
    simIsCtrl address = true :=
  simIsCtrl_word rfl haddress

theorem simFlashStore_ctlr (target : SimTarget) (offset sizeLog2 : Nat) (value : Word) :
    (simFlashStore target offset sizeLog2 value).ctlr = target.ctlr := by
  unfold simFlashStore
  split
  · split
    · rfl
    · rfl
  · split
    · rfl
    · rfl

theorem store_ctlr (target : SimTarget) (address value : Word) :
    (target.store .word address value).ctlr = if address &&& ~~~3 = flashCtlr then value
      else target.ctlr := by
  unfold SimTarget.store simAccess
  by_cases hctrl : simIsCtrl address = true
  · rw [if_pos hctrl, if_pos rfl]
    exact simCtrlWrite_ctlr target _ value
  · have hother : ¬address &&& ~~~3 = flashCtlr := fun hctlr => hctrl (simIsCtrl_ctlr hctlr)
    rw [if_neg hctrl, if_neg hother]
    dsimp only
    split
    · split
      · rfl
      · exact simFlashStore_ctlr target _ _ value
    · split
      · split
        · rfl
        · rfl
      · rfl

theorem afterLoad_ctlr (target : SimTarget) (size : Width) (address : Word) :
    (target.afterLoad size address).ctlr = target.ctlr := by
  unfold SimTarget.afterLoad simAccess simCtrlRead
  simp only [Bool.false_eq_true, if_false]
  split_ifs <;> rfl

/-- The simulator's CTLR reads back what was written, apart from LOCK. -/
theorem simulator_holdsCtlr {link : Link} (hlink : link.Usable) :
    HoldsCtlr simulator.world link Sim.Ready fun sim => sim.target.ctlr where
  load size address sim status final hready hreturns := by
    obtain ⟨sim', hrun, htarget, hframe⟩ :=
      dmReadSized_drives hlink size address sim.target sim hready rfl
    have htarget : sim'.target = sim.target.afterLoad size address := htarget
    rw [returns_world_iff, hrun] at hreturns
    cases hreturns
    refine ⟨hframe.ready hready, ?_, sim.target.loaded size address, rfl, ?_⟩
    · rw [htarget, afterLoad_ctlr]
    · rintro rfl rfl
      have hloaded : sim.target.loaded .word flashCtlr = if sim.target.unlocked then
          sim.target.ctlr &&& ~~~flashCtlrLock else sim.target.ctlr ||| flashCtlrLock := rfl
      rw [hloaded]
      split
      · exact .clear _ _
      · exact .set _ (by decide)
  store address value sim status final hready hreturns := by
    obtain ⟨sim', hrun, htarget, hframe⟩ :=
      wlDmWrite32_drives hlink address value sim.target sim hready rfl
    have htarget : sim'.target = sim.target.store .word address value := htarget
    rw [returns_world_iff, hrun] at hreturns
    cases hreturns
    refine ⟨hframe.ready hready, rfl, ?_, fun haddress => ?_⟩
    · rintro rfl
      rw [htarget, store_ctlr, if_pos (by decide)]
    · rw [htarget, store_ctlr, if_neg haddress]

/-- An image across a page boundary, written by the simulator. -/
theorem wlFlashCh32v0Write_restores_page : ∃ final, Returns simulator.world
    (wlFlashCh32v0Write wlLinkeAttachTransport ch32v003 (normalise ch32v003 0x3e) [1, 2, 3, 4]
      4).run (simConfigured ch32v003) (.ok ()) final ∧
    final.target.ctlr &&& modeMask = 0 ∧
      AgreeOutside flashCtlrLock final.target.ctlr (simConfigured ch32v003).target.ctlr := by
  have hready : (simConfigured ch32v003).Ready := ⟨rfl, rfl⟩
  have hchip : ch32v003.Ch32v0 := ch32v0_of_mem (List.Mem.head _) rfl
  have haddress : normalise ch32v003 0x3e = flashAt 0x3e := by decide
  have hlink : wlLinkeAttachTransport.Usable := ⟨rfl, rfl⟩
  have hentry : (simConfigured ch32v003).target.ctlr &&& modeMask = 0 := by decide
  obtain ⟨final, hrun, -⟩ := @wlFlashCh32v0Write_run _ _ _ (simulatorPort hlink)
    (simConfigured ch32v003) hready hchip rfl (Nat.zero_le _) hentry 0x3e [1, 2, 3, 4] 4 rfl
    (by decide) (fun _ _ _ => trivial)
  have hreturns := returns_world_iff.mpr hrun
  have hwritten : Returns simulator.world (wlFlashCh32v0Write wlLinkeAttachTransport ch32v003
      (normalise ch32v003 0x3e) [1, 2, 3, 4] 4).run (simConfigured ch32v003) (.ok ()) final := by
    rw [haddress]
    exact hreturns
  exact ⟨final, hwritten, wlFlashCh32v0Write_restores (simulator_holdsCtlr hlink)
    (List.Mem.head _) (by decide) [1, 2, 3, 4] hready hentry hwritten⟩

end WchLink
