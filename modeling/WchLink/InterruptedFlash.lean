import WchLink.FlashRequest
import WchLink.Interaction.Breaking
import WchLink.LossyFlash

/-! # Flash writes that are interrupted

The programmer may be unplugged at any moment of a write. The pages below one
boundary then hold what they were to hold and those above it what they held; at
most the page at the boundary is erased. No page is left half written.
-/

namespace WchLink

open Bytes Interaction

/-! ## Single steps -/

/-- The bits that start or select an operation. -/
def idleMask : Word := modeMask ||| simCtlrPer ||| simCtlrPg

/-- The controller is unlocked and at rest between two steps of the flasher. -/
structure Sim.AtRest (state : Flasher) (sim : Sim) : Prop where
  ready : sim.Ready
  unlocked : sim.target.Unlocked
  view : sim.target.flasher = state
  idle : sim.target.ctlr &&& idleMask = 0

/-- The supervision knows of no other bits, and of these that erase sectors and
program words it allows none. -/
structure Supervision.Strict (rules : Supervision) : Prop where
  known : idleMask &&& rules.forbidden = rules.forbidden
  sectors : (simCtlrPer ||| simCtlrPg) &&& rules.forbidden = simCtlrPer ||| simCtlrPg

theorem Supervision.Strict.holds {rules : Supervision} (hstrict : rules.Strict) {target : SimTarget}
    (hidle : target.ctlr &&& idleMask = 0) (hfact : rules.fact target.memories) :
    rules.Holds target := by
  exact ⟨hfact, clear_bits hidle hstrict.known,
    fun hstarted => absurd (clear_bits hidle rfl) hstarted⟩

/-- A controller without a mode that erases no sectors and programs no words is at rest. -/
theorem Supervision.Strict.idle {rules : Supervision} (hstrict : rules.Strict) {target : SimTarget}
    (hholds : rules.Holds target) (hmode : target.ctlr &&& modeMask = 0) :
    target.ctlr &&& idleMask = 0 := by
  have hsectors : target.ctlr &&& (simCtlrPer ||| simCtlrPg) = 0 := by
    rw [← hstrict.sectors, BitVec.and_comm _ rules.forbidden, ← BitVec.and_assoc, hholds.ctlr]
    exact BitVec.zero_and
  rw [idleMask, BitVec.or_assoc, BitVec.and_or_distrib_left, hmode, hsectors]
  rfl

section Steps

variable {link : Link} {state after : Flasher} {invariant : Memories → Prop} {sim : Sim}

/-- A program's requests are all made with the invariant. -/
abbrev Throughout {α : Type} (invariant : Memories → Prop) (program : Program Usb α)
    (post : Option α → Sim → Prop) (sim : Sim) : Prop :=
  program.wp simulator.world (fun sim _ => invariant sim.target.memories)
    (fun result final => invariant final.target.memories ∧ post result final) sim

/-- A program on the simulator, within a supervision. -/
theorem throughout_programs {α : Type} {program : Program Usb α} {rules : Supervision}
    (hstrict : rules.Strict) (hsteps : rules.programs.Mem program)
    (hinvariant : ∀ memories, rules.fact memories → invariant memories)
    (hidle : sim.target.ctlr &&& idleMask = 0) (hfact : rules.fact sim.target.memories) :
    Throughout invariant program (fun _ final => rules.Holds final.target) sim := by
  have hanswered : simulator.world.Refines unreliable id := by
    intro state request reply next hnext
    exact .inl ⟨(congrArg Prod.fst hnext).symm, (congrArg Prod.snd hnext).symm⟩
  have hwp := Program.wp_refines hanswered (hsteps sim (hstrict.holds hidle hfact))
  have hguarded := Program.wp_allow (fun sim _ hholds => hinvariant _ hholds.fact) hwp
  apply Program.wp_mono hguarded
  intro _ last hholds
  exact ⟨hinvariant _ hholds.fact, hholds⟩

/-- The same, when the run is known. -/
theorem throughout_run {α : Type} {program : Program Usb α} {result : Option α} {final : Sim}
    {rules : Supervision} (hstrict : rules.Strict) (hsteps : rules.programs.Mem program)
    (hrun : program.run simulator sim = (result, final))
    (hinvariant : ∀ memories, rules.fact memories → invariant memories)
    (hidle : sim.target.ctlr &&& idleMask = 0) (hfact : rules.fact sim.target.memories) :
    Throughout invariant program
      (fun outcome last => (outcome = result ∧ last = final) ∧ rules.Holds final.target) sim := by
  apply Program.wp_mono
    (Program.wp_run (throughout_programs hstrict hsteps hinvariant hidle hfact) hrun)
  rintro outcome last ⟨⟨rfl, rfl⟩, hkept, hholds⟩
  exact ⟨hkept, ⟨rfl, rfl⟩, hholds⟩

/-- A step of the flasher, within a supervision. -/
theorem throughout_step {α : Type} {operation : Fallible α} {value : α} {rules : Supervision}
    (hstrict : rules.Strict) (hsteps : rules.programs.Mem operation.run)
    (hdrives : OnFlasher operation.run state (.ok value) after) (hmode : after.mode = 0)
    (hinvariant : ∀ memories, rules.fact memories → invariant memories)
    (hsim : sim.AtRest state) (hfact : rules.fact sim.target.memories) :
    Throughout invariant operation.run
      (fun result final => result = some (.ok value) ∧ final.AtRest after) sim := by
  obtain ⟨final, hrun, hview, hframe⟩ := hdrives sim ⟨hsim.ready, hsim.unlocked⟩ hsim.view
  apply Program.wp_mono (throughout_run hstrict hsteps hrun hinvariant hsim.idle hfact)
  rintro result last ⟨hlast, ⟨rfl, rfl⟩, hholds⟩
  have hmode' : last.target.ctlr &&& modeMask = 0 := (congrArg Flasher.mode hview).trans hmode
  exact ⟨hlast, rfl, hframe.1.ready hsim.ready, hframe.2 hsim.unlocked, hview,
    hstrict.idle hholds hmode'⟩

/-- One step after another. -/
theorem throughout_then {α β : Type} {first : Fallible α} {rest : α → Fallible β} {value : α}
    {post : Option (Except WlErr β) → Sim → Prop}
    (h : Throughout invariant first.run
      (fun result final => result = some (.ok value) ∧ final.AtRest after) sim)
    (hrest : ∀ final : Sim, final.AtRest after → Throughout invariant (rest value).run post final) :
    Throughout invariant (first >>= rest).run post sim := by
  apply Program.wp_except_bind h
  · rintro result final ⟨-, hresult, hfinal⟩
    cases hresult
    exact hrest final hfinal
  · rintro error final ⟨-, hresult, -⟩
    cases hresult
  · rintro final ⟨-, hresult, -⟩
    cases hresult

end Steps

/-! ## The stages of a page -/

theorem fillBytes_again (memory : Nat → Byte) (offset count limit : Nat) (value : Byte) :
    fillBytes (fillBytes memory offset count limit value) offset count limit value =
      fillBytes memory offset count limit value := by
  funext a
  unfold fillBytes
  split_ifs <;> rfl

theorem programBytes_again (memory wanted : Nat → Byte) (offset count limit : Nat) :
    programBytes (programBytes memory offset count limit wanted) offset count limit wanted =
      programBytes memory offset count limit wanted := by
  funext a
  unfold programBytes
  split_ifs
  · rw [BitVec.and_assoc, BitVec.and_self]
  · rfl

theorem Memories.erasePage_again (memories : Memories) (page : Word) :
    (memories.erasePage page).erasePage page = memories.erasePage page := by
  unfold Memories.erasePage
  rw [fillBytes_again]

theorem Memories.programPage_again (memories : Memories) (page : Word) :
    (memories.programPage page).programPage page = memories.programPage page := by
  unfold Memories.programPage
  rw [programBytes_again]

/-- Only the page buffer is changed. -/
def quietRules (before : Memories) : Supervision where
  fact memories := ∃ pageBuf, memories = { before with pageBuf }
  forbidden := simCtlrStrt ||| simCtlrPer ||| simCtlrPg
  selected := fun _ => False
  lock := by decide
  keeps := by
    intro target value memories hfact hforbidden _ heffect
    obtain ⟨pageBuf, hmemories⟩ := hfact
    cases heffect with
    | none => exact ⟨pageBuf, hmemories⟩
    | reset =>
        rw [hmemories]
        exact ⟨_, rfl⟩
    | erase hstarted => exact absurd (clear_bits hforbidden rfl) hstarted
    | program hstarted => exact absurd (clear_bits hforbidden rfl) hstarted
    | eraseSector _ hsector => exact absurd (clear_bits hforbidden rfl) hsector

/-- A page is erased, if anything is. -/
def eraseRules (before : Memories) (page : Word) : Supervision where
  fact memories := memories = before ∨ memories = before.erasePage page
  forbidden := simCtlrPagePg ||| simCtlrBufRst ||| simCtlrPer ||| simCtlrPg
  selected := fun address => address = page
  lock := by decide
  keeps := by
    intro target value memories hfact hforbidden hselected heffect
    cases heffect with
    | none => exact hfact
    | reset hreset => exact absurd (clear_bits hforbidden rfl) hreset
    | erase hstarted =>
        rw [hselected hstarted]
        rcases hfact with hbefore | herased
        · rw [hbefore]
          exact .inr rfl
        · rw [herased, Memories.erasePage_again]
          exact .inr rfl
    | program _ hprogram => exact absurd (clear_bits hforbidden rfl) hprogram
    | eraseSector _ hsector => exact absurd (clear_bits hforbidden rfl) hsector

/-- The page buffer is programmed into a page, if anything is. -/
def programRules (before : Memories) (page : Word) : Supervision where
  fact memories := memories = before ∨ memories = before.programPage page
  forbidden := simCtlrPageEr ||| simCtlrBufRst ||| simCtlrPer ||| simCtlrPg
  selected := fun address => address = page
  lock := by decide
  keeps := by
    intro target value memories hfact hforbidden hselected heffect
    cases heffect with
    | none => exact hfact
    | reset hreset => exact absurd (clear_bits hforbidden rfl) hreset
    | erase _ herase => exact absurd (clear_bits hforbidden rfl) herase
    | program hstarted =>
        rw [hselected hstarted]
        rcases hfact with hbefore | hprogrammed
        · rw [hbefore]
          exact .inr rfl
        · rw [hprogrammed, Memories.programPage_again]
          exact .inr rfl
    | eraseSector _ hsector => exact absurd (clear_bits hforbidden rfl) hsector

theorem quietRules_strict (before : Memories) : (quietRules before).Strict := by
  constructor <;> dsimp only [quietRules] <;> decide

theorem eraseRules_strict (before : Memories) (page : Word) : (eraseRules before page).Strict := by
  constructor <;> dsimp only [eraseRules] <;> decide

theorem programRules_strict (before : Memories) (page : Word) :
    (programRules before page).Strict := by
  constructor <;> dsimp only [programRules] <;> decide

/-- While no words are programmed a word stored to flash reaches the page buffer at
most. -/
theorem quietRules_stores (before : Memories) {address : Word}
    (hctrl : simIsCtrl address = false) (hflash : simIsFlash address = true) :
    (quietRules before).Stores address := by
  refine ⟨hctrl, fun target word htarget => ?_⟩
  obtain ⟨pageBuf, hmemories⟩ := htarget.fact
  have hwords : target.ctlr &&& simCtlrPg = 0 := by
    apply clear_bits htarget.ctlr
    dsimp only [quietRules]
    decide
  have hfact : (quietRules before).fact target.memories := ⟨pageBuf, hmemories⟩
  have hbuffer (pageBuf' : Nat → Byte) :
      (quietRules before).fact { target.memories with pageBuf := pageBuf' } := by
    rw [hmemories]
    exact ⟨pageBuf', rfl⟩
  unfold SimTarget.store simAccess
  simp only [hctrl, hflash, Bool.false_eq_true, if_false, if_true]
  split_ifs
  · exact hfact
  · unfold simFlashStore
    dsimp only
    simp only [hwords, or_true, if_true]
    split_ifs
    · exact hbuffer _
    · exact hfact
    · exact hfact

/-! ## One page -/

/-- The memories as the flasher sees them. -/
def Flasher.memories (state : Flasher) : Memories :=
  ⟨state.chip, state.flash, state.ram, state.pageBuf⟩

theorem Sim.AtRest.memories {state : Flasher} {sim : Sim} (h : sim.AtRest state) :
    sim.target.memories = state.memories := by
  rw [← h.view]
  rfl

/-- How far a write may have come when it is interrupted: the pages below a boundary
are written and those from it on are not, or the page at the boundary is erased. -/
structure Interrupted (part : Chip) (data memory : Nat → Byte) (start : Nat) (image : List Byte)
    (memories : Memories) : Prop where
  chip : memories.chip = part
  ram : memories.ram = data
  flash : ∃ page, page % 64 = 0 ∧
    (memories.flash = splice (overlay memory start image) memory page ∨
      ImagePage start image.length (page / 64) ∧
        memories.flash = fillBytes (splice (overlay memory start image) memory page) page 64
          part.flashSize.toNat 0xff)

section Pages

variable {link : Link} {start page : Nat} {image : List Byte} {state : Flasher}
  {memory : Nat → Byte}

/-- A round of the page loop, interrupted anywhere. -/
theorem writePage_interrupted (hlink : link.Usable) (hsmall : state.chip.flashSize.toNat < 2 ^ 24)
    (hstop : start + image.length ≤ state.chip.flashSize.toNat)
    (hpage : page + 64 ≤ state.chip.flashSize.toNat)
    (hflash : state.flash = splice (overlay memory start image) memory page)
    (hmode : state.mode = 0) (haligned : page % 64 = 0)
    (himage : ImagePage start image.length (page / 64)) :
    ∃ after : Flasher, after.mode = 0 ∧ after.chip = state.chip ∧ after.ram = state.ram ∧
      after.flash = splice (overlay memory start image) memory (page + 64) ∧
      ∀ sim : Sim, sim.AtRest state →
        Throughout (Interrupted state.chip state.ram memory start image)
          (writePage link 64 (flashAt start) (flashAt (start + image.length)) image
            (flashAt page)).run
          (fun result final => result = some (.ok ()) ∧ final.AtRest after) sim := by
  have hport : TargetPort simulator link fun _ => True := simulatorPort hlink
  have hoffset : simFlashOffset (flashAt page) = page := simFlashOffset_flashAt (by omega)
  have hin : state.chip.InFlash (flashAt page) 64 := flashAt_inFlash hsmall.le (by omega) hpage
  obtain ⟨old, hold, hbytes, hread⟩ := readOldPage_drives hport hsmall hstop hpage hflash
  have hmerge := mergePage_eq (by omega) (by omega) hold hbytes
  let bytes := pageBytes (overlay memory start image) page
  have hlength : bytes.length = 64 := by simp [bytes, pageBytes]
  -- the states between the four sub-sequences
  let erased := (state.setAddr (flashAt page)).erasePage
  let loaded : Flasher := { erased.resetBuffer with pageBuf := overlay (fun _ => 0xff) 0 bytes }
  let written := (loaded.setAddr (flashAt page)).programPage
  have herase : OnFlasher (erasePageFast link (flashAt page)).run state (.ok ()) erased :=
    erasePageFast_drives hport hmode (flashAt page) trivial
  have hreset : OnFlasher (bufferReset link).run erased (.ok ()) erased.resetBuffer :=
    bufferReset_drives hport hmode
  have hload :
      OnFlasher (loadPage link (flashAt page) bytes).run erased.resetBuffer (.ok ()) loaded :=
    loadPage_drives hport bytes hmode (by rw [hlength]) (by rw [hlength]; exact hin)
      (by rw [hoffset]; exact haligned) (by rw [hlength])
  have hconflicts : (loaded.setAddr (flashAt page)).conflicts = 0 := by
    apply programConflicts_erased
    intro i hi hlimit
    exact if_pos ⟨Nat.le_add_right _ _, Nat.add_lt_add_left hi _, hlimit⟩
  have hprogram : OnFlasher (programPageFast link (flashAt page)).run loaded (.ok ()) written :=
    @programPageFast_drives _ _ _ hport loaded hmode (flashAt page) trivial hconflicts
  have hwritten : written.flash = splice (overlay memory start image) memory (page + 64) := by
    have hprogrammed : written.flash =
        overlay state.flash (simFlashOffset (flashAt page)) bytes :=
      program_erased state.flash (fun _ => 0xff) hlength hin.inside
    rw [hprogrammed, hoffset, hflash, overlay_pageBytes]
  have hbefore : Interrupted state.chip state.ram memory start image state.memories :=
    ⟨rfl, rfl, page, haligned, .inl hflash⟩
  have herased : Interrupted state.chip state.ram memory start image erased.memories := by
    refine ⟨rfl, rfl, page, haligned, .inr ⟨himage, ?_⟩⟩
    rw [← hflash, ← hoffset]
    rfl
  have hafter : Interrupted state.chip state.ram memory start image written.memories :=
    ⟨rfl, rfl, page + 64, by omega, .inl hwritten⟩
  have hbuffer {memories : Memories} (h : Interrupted state.chip state.ram memory
        start image memories) :
      ∀ after, (quietRules memories).fact after →
        Interrupted state.chip state.ram memory start image after := by
    rintro after ⟨pageBuf, rfl⟩
    exact ⟨h.chip, h.ram, h.flash⟩
  have hstores : ∀ slot < 16, (quietRules erased.memories).Stores (flashAt (page + 4 * slot)) := by
    intro slot hslot
    have hvalue : (flashAt (page + 4 * slot)).toNat = 0x08000000 + (page + 4 * slot) :=
      flashAt_toNat (by omega)
    apply quietRules_stores
    · rw [← Bool.not_eq_true, simIsCtrl_iff]
      omega
    · rw [simIsFlash_iff]
      omega
  have hquiet (memories : Memories) : (quietRules memories).fact memories := ⟨_, rfl⟩
  refine ⟨written, hmode, rfl, rfl, hwritten, fun sim hsim => ?_⟩
  unfold writePage
  apply throughout_then (throughout_step (quietRules_strict state.memories)
    (readOldPage_mem (supervised_loads link) _ _ _ _) hread hmode (hbuffer hbefore) hsim
    (by rw [hsim.memories]; exact hquiet _))
  intro sim₁ h₁
  dsimp only
  rw [hmerge]
  apply throughout_then (throughout_step (eraseRules_strict state.memories (flashAt page))
    (erasePageFast_supervised rfl (by dsimp only [eraseRules]; decide)) herase hmode _ h₁
    (.inl h₁.memories))
  · intro sim₂ h₂
    apply throughout_then (throughout_step (quietRules_strict erased.memories)
      (bufferReset_supervised (by dsimp only [quietRules]; decide)) hreset hmode
        (hbuffer herased) h₂
      (by rw [h₂.memories]; exact hquiet _))
    intro sim₃ h₃
    apply throughout_then (throughout_step (quietRules_strict erased.memories)
      (@loadPage_supervised link _ page hstores (by dsimp only [quietRules]; decide) bytes 0
        (by rw [hlength])) hload hmode (hbuffer herased) h₃ (by rw [h₃.memories]; exact ⟨_, rfl⟩))
    intro sim₄ h₄
    apply throughout_step (programRules_strict loaded.memories (flashAt page))
      (programPageFast_supervised rfl (by dsimp only [programRules]; decide)) hprogram hmode _ h₄
      (.inl h₄.memories)
    rintro memories (rfl | rfl)
    · exact ⟨herased.chip, herased.ram, herased.flash⟩
    · exact hafter
  · rintro memories (rfl | rfl)
    · exact hbefore
    · exact herased

/-- Induction on the rounds: each writes its page and the next starts above it. -/
theorem writePages_interrupted (hlink : link.Usable) (rounds : Nat) (hchip : state.chip.Ch32v0)
    (hstop : start + image.length ≤ state.chip.flashSize.toNat)
    (hflash : state.flash = splice (overlay memory start image) memory page)
    (hmode : state.mode = 0) (haligned : page % 64 = 0) (hstart : start < page + 64)
    (hpage : page < start + image.length + 64)
    (hrounds : start + image.length + 64 ≤ page + 64 * rounds) :
    ∃ after : Flasher, after.mode = 0 ∧ after.chip = state.chip ∧ after.ram = state.ram ∧
      after.flash = overlay memory start image ∧
      ∀ sim : Sim, sim.AtRest state →
        Throughout (Interrupted state.chip state.ram memory start image)
          (writePages link 64 (flashAt start) (flashAt (start + image.length)) image rounds
            (flashAt page)).run
          (fun result final => result = some (.ok ()) ∧ final.AtRest after) sim := by
  have hsize := hchip.flashSize
  have hpages := hchip.pages
  induction rounds generalizing page state with
  | zero => omega
  | succ rounds ih =>
      have hless : flashAt page < flashAt (start + image.length) ↔
          page < start + image.length := by
        rw [BitVec.lt_def, flashAt_toNat (by omega), flashAt_toNat (by omega)]
        omega
      have hnext : flashAt page + 64 = flashAt (page + 64) := flashAt_add page 64
      rw [writePages, hnext]
      by_cases hmore : page < start + image.length
      · obtain ⟨written, hmode', hchip', hram', hflash', hwrite⟩ := writePage_interrupted hlink
          (by omega) hstop (by omega) hflash hmode haligned ⟨by omega, by omega⟩
        rw [← hchip'] at hchip hstop hsize hpages
        obtain ⟨after, hmode'', hchip'', hram'', hflash'', hrest⟩ := @ih (page + 64) written hchip
          hstop hflash' hmode' (by omega) (by omega) (by omega) (by omega) hsize hpages
        refine ⟨after, hmode'', hchip''.trans hchip', hram''.trans hram', hflash'',
          fun sim hsim => ?_⟩
        rw [if_pos (hless.2 hmore)]
        rw [hchip', hram'] at hrest
        exact throughout_then (hwrite sim hsim) fun final hfinal => hrest final hfinal
      · refine ⟨state, hmode, rfl, rfl, ?_, fun sim hsim => ?_⟩
        · rw [hflash]
          exact splice_overlay memory (by omega)
        · rw [if_neg (mt hless.1 hmore)]
          refine ⟨?_, rfl, hsim⟩
          rw [hsim.memories]
          exact ⟨rfl, rfl, page, haligned, .inl hflash⟩

end Pages

/-! ## The whole request -/

section Request

variable {link : Link} {invariant : Memories → Prop} {sim : Sim}

/-- Opening the locks writes the key registers only. -/
theorem unlock_interrupted (hlink : link.Usable) (hready : sim.Ready)
    (herrors : sim.target.programErrors = 0) (hbusy : sim.target.busyReads ≤ simBusyReads)
    (hidle : sim.target.ctlr &&& idleMask = 0)
    (hinvariant : ∀ memories, (quietRules sim.target.memories).fact memories → invariant memories) :
    Throughout invariant (unlock link).run
      (fun result final => result = some (.ok ()) ∧ final.AtRest sim.target.flasher) sim := by
  obtain ⟨final, hrun, htarget, hframe⟩ :=
    unlock_drives (simulatorPort hlink) sim.target sim hready rfl
  have htarget : final.target = { sim.target with
    unlocked := true, modeUnlocked := true, keyStage := 0, modeKeyStage := 0 } := htarget
  apply Program.wp_mono (throughout_run (quietRules_strict sim.target.memories)
    unlock_supervised hrun hinvariant hidle ⟨_, rfl⟩)
  rintro result last ⟨hlast, ⟨rfl, rfl⟩, -⟩
  refine ⟨hlast, rfl, hframe.ready hready, ?_, ?_, ?_⟩
  · rw [htarget]
    exact ⟨rfl, rfl, herrors, hbusy⟩
  · rw [htarget]
    rfl
  · rw [htarget]
    exact hidle

/-- A write, interrupted anywhere. -/
theorem wlFlashWrite_interrupted (hlink : link.Usable) (hready : sim.Ready)
    (hchip : sim.target.chip.Ch32v0) (herrors : sim.target.programErrors = 0)
    (hbusy : sim.target.busyReads ≤ simBusyReads) (hidle : sim.target.ctlr &&& idleMask = 0)
    {address : Word} {start : Nat} {image : List Byte} {length : BitVec 64}
    (haddress : normalise sim.target.chip address = flashAt start)
    (hlength : length.toNat = image.length) (himage : image ≠ [])
    (hstop : start + image.length ≤ sim.target.chip.flashSize.toNat) :
    ∃ after : Flasher, after.mode = 0 ∧ after.chip = sim.target.chip ∧ after.ram = sim.target.ram ∧
      after.flash = overlay sim.target.flash start image ∧
      Throughout (Interrupted sim.target.chip sim.target.ram sim.target.flash start image)
        (wlFlashWrite link (some sim.target.chip) address (some image) length).run
        (fun result final => result = some (.ok ()) ∧ final.AtRest after) sim := by
  have hsize := hchip.flashSize
  have hpositive : 0 < length.toNat := by
    rw [hlength]
    exact List.length_pos_iff.2 himage
  have hend : flashAt start + length.setWidth 32 = flashAt (start + image.length) := by
    rw [← flashAt_add, ← hlength]
    rfl
  have hfirst := @flashAt_page start (by omega)
  have hmode : sim.target.ctlr &&& modeMask = 0 := clear_bits hidle (by decide)
  have hbelow := @splice_overlay_below sim.target.flash start (start - start % 64) image
    (Nat.sub_le _ _)
  obtain ⟨after, hafter, hchip', hram', hflash', hpages⟩ := @writePages_interrupted link start
    (start - start % 64) image sim.target.flasher sim.target.flash hlink (2 ^ 32) hchip hstop
    hbelow.symm hmode (by omega) (by omega) (by omega) (by omega)
  have hwrite : wlFlashWrite link (some sim.target.chip) address (some image) length =
      (unlock link >>= fun _ => writePages link 64 (flashAt start) (flashAt (start + image.length))
        image (2 ^ 32) (flashAt (start - start % 64))) := by
    rw [wlFlashWrite_eq link hchip haddress hpositive (by rw [hlength]; exact hstop)]
    unfold wlFlashCh32v0Write
    rw [hchip.eraseSize, if_neg (by decide), hend, hfirst]
  refine ⟨after, hafter, hchip', hram', hflash', ?_⟩
  rw [hwrite]
  apply throughout_then (unlock_interrupted hlink hready herrors hbusy hidle _) hpages
  rintro memories ⟨pageBuf, rfl⟩
  exact ⟨rfl, rfl, start - start % 64, by omega, .inl hbelow.symm⟩

/-- One operation on the link after another. -/
theorem throughout_linked {α β : Type} {first : Linked α} {rest : α → Linked β} {own own' : Link}
    {value : α} {middle : Sim → Prop} {post : Option (Except WlErr β × Link) → Sim → Prop}
    (h : Throughout invariant (first.run.run own)
      (fun result final => result = some (.ok value, own') ∧ middle final) sim)
    (hrest : ∀ final, middle final → Throughout invariant ((rest value).run.run own') post final) :
    Throughout invariant ((first >>= rest).run.run own) post sim := by
  unfold Throughout
  rw [ExceptT.run_bind]
  apply Program.wp_own_bind h
  · rintro status between final ⟨-, hresult, hfinal⟩
    cases hresult
    exact hrest final hfinal
  · rintro final ⟨-, hresult, -⟩
    cases hresult

/-- An operation that leaves the link alone. -/
theorem throughout_lift {α : Type} {operation : Fallible α} {value : α} {middle : Sim → Prop}
    (own : Link) (h : Throughout invariant operation.run
      (fun result final => result = some (.ok value) ∧ middle final) sim) :
    Throughout invariant ((liftM operation : Linked α).run.run own)
      (fun result final => result = some (.ok value, own) ∧ middle final) sim := by
  have hlift : (liftM operation : Linked α).run.run own =
      (operation.run >>= fun status => pure (status, own)) := rfl
  unfold Throughout
  rw [hlift, Program.wp_bind]
  apply Program.wp_mono h
  rintro result final ⟨hfinal, rfl, hmiddle⟩
  exact ⟨hfinal, rfl, hmiddle⟩

/-- An operation may look at its link. -/
theorem throughout_get {β : Type} {rest : Link → Linked β} {own : Link}
    {post : Option (Except WlErr β × Link) → Sim → Prop}
    (h : Throughout invariant ((rest own).run.run own) post sim) :
    Throughout invariant ((get >>= rest).run.run own) post sim := h

/-- Reading back and letting the target run write no memory. -/
theorem verifyThenResume_interrupted {chip : Chip} {state : Flasher} (address : Word)
    (image : List Byte) (length : BitVec 64) (verify : Bool) (hsim : sim.AtRest state)
    (hinvariant : ∀ memories, (quietRules state.memories).fact memories → invariant memories) :
    Throughout invariant ((verifyThenResume chip address image length verify).run.run link)
      (fun _ _ => True) sim := by
  apply Program.wp_mono (throughout_programs (quietRules_strict state.memories)
    (verifyThenResume_reading (supervised_reading _) chip address image length verify link).1
    hinvariant hsim.idle (by rw [hsim.memories]; exact ⟨_, rfl⟩))
  intro _ _ hfinal
  exact ⟨hfinal.1, trivial⟩

end Request

/-- The programmer is gone. -/
def unplugged (request : List Byte) (reply : Usb.B request) : Prop :=
  ∃ code, reply = .error code

/-- If the programmer is unplugged at any moment of a flash request, the pages of
the image below some page are written and those above it are as they were; that
page itself is as it was or erased. The RAM is as it was. -/
theorem wlLinkeWriteFlash_interrupted (chip : Chip) (hchip : chip ∈ chips)
    (halgo : chip.algo = .ch32v0) (sim : Sim) (hbuilt : sim.target.chip = chip)
    (hprogramErrors : sim.target.programErrors = 0) (hcmderr : sim.dm.cmderr = 0)
    (hbusy : sim.target.busyReads ≤ simBusyReads) (hidle : sim.target.ctlr &&& idleMask = 0)
    (address : Word) (image : List Byte) (himage : image ≠ [])
    (hlow : chip.flashBase.toNat ≤ (normalise chip address).toNat)
    (hhigh : (normalise chip address).toNat + image.length ≤
      chip.flashBase.toNat + chip.flashSize.toNat) (verify : Bool)
    (trace : List Usb.Idx) (residual : Program Usb (Except WlErr Unit × Link))
    (final : Sim × Bool)
    (hrun : Program.Run (simulator.world.breaking unplugged)
      ((wlLinkeWriteFlash (some chip) address (some image) (BitVec.ofNat 64 image.length)
        verify).run.run wlLinkeAttachTransport) (sim, true) trace residual final) :
    Interrupted chip sim.target.ram sim.target.flash (imageStart chip address) image
      final.1.target.memories := by
  subst hbuilt
  have hpart := ch32v0_of_mem hchip halgo
  have hsize := hpart.flashSize
  obtain ⟨haddress, hstop⟩ := normalise_inside hpart hlow hhigh
  have hlength : (BitVec.ofNat 64 image.length).toNat = image.length := by
    rw [BitVec.toNat_ofNat]
    exact Nat.mod_eq_of_lt (by omega)
  let invariant := Interrupted sim.target.chip sim.target.ram sim.target.flash
    (imageStart sim.target.chip address) image
  let chosen := wlLinkeAttachTransport.set sim.target.chip
  have hlink : chosen.Usable := ⟨rfl, rfl⟩
  let selected : Sim := { sim with
    configured := true
    chipId := sim.target.chip.linkeId
    interfaceSpeed := sim.target.chip.interfaceSpeed }
  obtain ⟨attached, hhalt⟩ := wlLinkeHalt_run hlink selected
  have hbefore :
      ∀ memories, (quietRules sim.target.memories).fact memories → invariant memories := by
    rintro memories ⟨pageBuf, rfl⟩
    have hnone :=
      @splice_overlay_below sim.target.flash (imageStart sim.target.chip address) 0 image
      (Nat.zero_le _)
    exact ⟨rfl, rfl, 0, rfl, .inl hnone.symm⟩
  have hreading := supervised_reading (quietRules sim.target.memories)
  obtain ⟨after, -, hchip', hram', hflash', hwrite⟩ := @wlFlashWrite_interrupted chosen
    { selected with attached } hlink ⟨rfl, hcmderr⟩ hpart hprogramErrors hbusy hidle
      address _ image _
    haddress hlength himage hstop
  have hafter : ∀ memories, (quietRules after.memories).fact memories → invariant memories := by
    rintro memories ⟨pageBuf, rfl⟩
    obtain ⟨last, hlast⟩ :
        ∃ last, last = 64 * (imageStart sim.target.chip address + image.length) :=
      ⟨_, rfl⟩
    refine ⟨hchip', hram', last, by omega, .inl ?_⟩
    rw [splice_overlay _ (by omega)]
    exact hflash'
  have hthroughout : Throughout invariant ((wlLinkeWriteFlash (some sim.target.chip) address
      (some image) (BitVec.ofNat 64 image.length) verify).run.run wlLinkeAttachTransport)
      (fun _ _ => True) sim := by
    have hset : Throughout invariant
        ((wlLinkeSetInterface (some sim.target.chip)).run.run wlLinkeAttachTransport)
        (fun result state => result = some (.ok (), chosen) ∧ state = selected) sim := by
      apply Program.wp_mono (throughout_run (quietRules_strict _)
        (wlLinkeSetInterface_reading hreading sim.target.chip wlLinkeAttachTransport).1
        (wlLinkeSetInterface_fresh sim.target.chip sim) hbefore hidle ⟨_, rfl⟩)
      rintro result last ⟨hkept, hresult, -⟩
      exact ⟨hkept, hresult⟩
    have hhalted : Throughout invariant (wlLinkeHalt chosen).run
        (fun result state => result = some (.ok ()) ∧ state = { selected with attached })
          selected := by
      apply Program.wp_mono (throughout_run (quietRules_strict _)
        (wlLinkeHalt_mem _ hreading.attach) hhalt hbefore hidle ⟨_, rfl⟩)
      rintro result last ⟨hkept, hresult, -⟩
      exact ⟨hkept, hresult⟩
    rw [wlLinkeWriteFlash_parts]
    apply throughout_linked hset
    rintro state rfl
    apply throughout_get
    apply throughout_linked (throughout_lift chosen hhalted)
    rintro state rfl
    apply throughout_get
    apply throughout_linked (throughout_lift chosen hwrite)
    intro last hlast
    exact verifyThenResume_interrupted address image _ verify hlast hafter
  have hbreaking := @Program.wp_breaking _ _ _ _ unplugged _ _ _
    (Program.wp_mono hthroughout fun _ _ hfinal => hfinal.1)
  exact @Program.invariant_of_wp _ _ _ _ (fun state : Sim × Bool =>
    invariant state.1.target.memories)
    _ _ (Program.wp_of_run hbreaking hrun)

/-- A part with every byte programmed. -/
def programmedStart : Sim :=
  { simNew ch32v003 with
    target := { (simNew ch32v003).target with flash := fun _ => 0x55 } }

/-- Unplugged after the page was erased and before it was programmed. -/
theorem wlLinkeWriteFlash_interrupted_erased :
    ∃ trace residual final, Program.Run (simulator.world.breaking unplugged)
        ((wlLinkeWriteFlash (some ch32v003) 0x08000000 (some [1, 2, 3, 4])
          (BitVec.ofNat 64 [(1 : Byte), 2, 3, 4].length) false).run.run wlLinkeAttachTransport)
        (programmedStart, true) trace residual final ∧
      final.1.target.flash 0 = 0xff ∧
      Interrupted ch32v003 programmedStart.target.ram programmedStart.target.flash
        (imageStart ch32v003 0x08000000) [1, 2, 3, 4] final.1.target.memories := by
  obtain ⟨stopped, hstopped⟩ : ∃ stopped, ((wlLinkeWriteFlash (some ch32v003) 0x08000000
      (some [1, 2, 3, 4]) (BitVec.ofNat 64 [(1 : Byte), 2, 3, 4].length) false).run.run
        wlLinkeAttachTransport).breakOff simulator 400 programmedStart = stopped := ⟨_, rfl⟩
  have herased : stopped.2.target.flash 0 = 0xff := by
    rw [← hstopped]
    decide +kernel
  obtain ⟨trace, hrun⟩ := Program.run_breakOff simulator unplugged 400
    ((wlLinkeWriteFlash (some ch32v003) 0x08000000 (some [1, 2, 3, 4])
      (BitVec.ofNat 64 [(1 : Byte), 2, 3, 4].length) false).run.run wlLinkeAttachTransport)
    programmedStart
  rw [hstopped] at hrun
  exact ⟨trace, stopped.1, (stopped.2, true), hrun, herased, wlLinkeWriteFlash_interrupted ch32v003
    (List.Mem.head _) rfl programmedStart rfl rfl rfl (by decide) (by decide)
    0x08000000 [1, 2, 3, 4]
    (by decide) (by decide) (by decide) false trace _ _ hrun⟩

end WchLink
