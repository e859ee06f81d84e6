import WchLink.FlashWrite

/-! # Write requests on the simulator

From the request the user makes to the memory it leaves: selecting the part,
unlocking, writing, reading back and letting the target run.
-/

namespace WchLink

open Bytes Interaction

/-! ## The write -/

variable {handler : Handler Usb Sim} {link : Link} {writable : Nat → Prop}

/-- Both key sequences open their lock whatever stage they were left in. -/
theorem unlock_drives (port : TargetPort handler link writable) (target : SimTarget) :
    Drives handler targetSurface (unlock link).run target (.ok ())
      { target with
        unlocked := true
        modeUnlocked := true
        keyStage := 0
        modeKeyStage := 0 } := by
  have hpermits (state : SimTarget) (value : Word) :
      state.Permits writable flashKeyr value ∧ state.Permits writable flashModekeyr value :=
    ⟨⟨by decide, fun hword => absurd hword (by decide)⟩,
      ⟨by decide, fun hword => absurd hword (by decide)⟩⟩
  have hkey1 := port.write flashKeyr flashKey1 target (hpermits _ _).1
  have hkey2 := port.write flashKeyr flashKey2 { target with keyStage := 1 } (hpermits _ _).1
  have hmode1 := port.write flashModekeyr flashKey1
    { target with unlocked := true, keyStage := 0 } (hpermits _ _).2
  have hmode2 := port.write flashModekeyr flashKey2
    { target with unlocked := true, keyStage := 0, modeKeyStage := 1 } (hpermits _ _).2
  have hread := port.read .word flashCtlr
    { target with unlocked := true, modeUnlocked := true, keyStage := 0, modeKeyStage := 0 }
  have hlock : target.ctlr &&& ~~~simCtlrLock &&& flashCtlrLock = 0 := by
    rw [BitVec.and_assoc, show ~~~simCtlrLock &&& flashCtlrLock = 0 by decide]
    exact BitVec.and_zero
  refine hkey1.andThen (hkey2.andThen (hmode1.andThen (hmode2.andThen (hread.andThen ?_))))
  have hcheck : ¬(SimTarget.loaded { target with
      unlocked := true, modeUnlocked := true, keyStage := 0, modeKeyStage := 0 } .word
      flashCtlr &&& flashCtlrLock ≠ 0) := not_not.2 hlock
  rw [if_neg hcheck]
  exact Drives.ok ()

/-- The write of an image on a controller that is not in the middle of anything. -/
theorem wlFlashCh32v0Write_run (port : TargetPort handler link writable) {sim : Sim}
    (hready : sim.Ready) (hchip : sim.target.chip.Ch32v0)
    (herrors : sim.target.programErrors = 0) (hbusy : sim.target.busyReads ≤ simBusyReads)
    (hmode : sim.target.ctlr &&& modeMask = 0) {start : Nat} {image : List Byte}
    {length : BitVec 64} (hlength : length.toNat = image.length)
    (hstop : start + image.length ≤ sim.target.chip.flashSize.toNat)
    (hwritable : ∀ index, start / 64 ≤ index → 64 * index < start + image.length →
      writable index) :
    ∃ sim', (wlFlashCh32v0Write link sim.target.chip (flashAt start) image length).run.run
        handler sim = (some (.ok ()), sim') ∧ sim.Frame sim' ∧ sim'.target.Unlocked ∧
      sim'.target.chip = sim.target.chip ∧ sim'.target.ctlr &&& modeMask = 0 ∧
      sim'.target.flash = overlay sim.target.flash start image ∧
      sim'.target.ram = sim.target.ram := by
  have hsize := hchip.flashSize
  obtain ⟨sim₁, hrun₁, htarget₁, hframe₁⟩ := unlock_drives port sim.target sim hready rfl
  have htarget₁ : sim₁.target = { sim.target with
    unlocked := true, modeUnlocked := true, keyStage := 0, modeKeyStage := 0 } := htarget₁
  have hunlocked : sim₁.target.Unlocked := by
    rw [htarget₁]
    exact ⟨rfl, rfl, herrors, hbusy⟩
  obtain ⟨last, buffer, addr, hlast, hloop⟩ := @writePages_drives handler link writable port start
    image sim.target.flash (2 ^ 32) (start - start % 64) sim.target.flasher hchip hstop
    (fun index hindex => hwritable index (by omega))
    (splice_overlay_below _ (Nat.sub_le _ _)).symm hmode (by omega) (by omega) (by omega)
  obtain ⟨sim', hrun', hview, hframe'⟩ := hloop sim₁ ⟨hframe₁.ready hready, hunlocked⟩
    (by show sim₁.target.flasher = _; rw [htarget₁]; rfl)
  have hview : sim'.target.flasher = _ := hview
  rw [splice_overlay _ hlast] at hview
  refine ⟨sim', ?_, hframe₁.trans hframe'.1, hframe'.2 hunlocked, congrArg Flasher.chip hview,
    (congrArg Flasher.mode hview).trans hmode, congrArg Flasher.flash hview,
    congrArg Flasher.ram hview⟩
  have hend : flashAt start + length.setWidth 32 = flashAt (start + image.length) := by
    rw [← flashAt_add, ← hlength]
    rfl
  have hfirst := @flashAt_page start (by omega)
  unfold wlFlashCh32v0Write
  rw [hchip.eraseSize, if_neg (by decide), hend, hfirst]
  exact (Program.run_except_ok hrun₁).trans hrun'

/-- The range check passes for a write inside the part. -/
theorem wlFlashRangeOk_inside {chip : Chip} (hchip : chip.Ch32v0) {address : Word} {start : Nat}
    {length : BitVec 64} (haddress : normalise chip address = flashAt start)
    (hpositive : 0 < length.toNat) (hstop : start + length.toNat ≤ chip.flashSize.toNat) :
    wlFlashRangeOk (some chip) address length = true := by
  have hsize := hchip.flashSize
  have hbase : chip.flashBase.toNat = 0x08000000 := by rw [hchip.flashBase]; rfl
  have hstart : (flashAt start).toNat = 0x08000000 + start := flashAt_toNat (by omega)
  have hnonzero : chip.flashSize ≠ 0 := by
    intro hzero
    rw [hzero] at hstop
    have : (0 : Word).toNat = 0 := rfl
    omega
  unfold wlFlashRangeOk
  dsimp only
  rw [if_neg hnonzero, haddress, decide_eq_true_eq]
  simp only [ge_iff_le, BitVec.le_def, BitVec.toNat_add, BitVec.toNat_setWidth, hbase, hstart]
  omega

/-- A request inside the part reaches the part's own write. -/
theorem wlFlashWrite_eq (link : Link) {chip : Chip} (hchip : chip.Ch32v0) {address : Word}
    {start : Nat} {image : List Byte} {length : BitVec 64}
    (haddress : normalise chip address = flashAt start) (hpositive : 0 < length.toNat)
    (hstop : start + length.toNat ≤ chip.flashSize.toNat) :
    wlFlashWrite link (some chip) address (some image) length =
      wlFlashCh32v0Write link chip (flashAt start) image length := by
  have hnonzero : length ≠ 0 := by
    rintro rfl
    exact lt_irrefl 0 hpositive
  unfold wlFlashWrite
  dsimp only
  rw [if_neg hnonzero, if_neg (by rw [hchip.algo]; decide),
    wlFlashRangeOk_inside hchip haddress hpositive hstop, hchip.algo, haddress]
  rfl

/-- An image inside the part is written; nothing else of the memories moves. -/
theorem wlFlashWrite_run (port : TargetPort handler link writable) {sim : Sim}
    (hready : sim.Ready) (hchip : sim.target.chip.Ch32v0)
    (herrors : sim.target.programErrors = 0) (hbusy : sim.target.busyReads ≤ simBusyReads)
    (hmode : sim.target.ctlr &&& modeMask = 0) {address : Word} {start : Nat} {image : List Byte}
    {length : BitVec 64} (haddress : normalise sim.target.chip address = flashAt start)
    (hlength : length.toNat = image.length) (himage : image ≠ [])
    (hstop : start + image.length ≤ sim.target.chip.flashSize.toNat)
    (hwritable : ∀ index, start / 64 ≤ index → 64 * index < start + image.length →
      writable index) :
    ∃ sim', (wlFlashWrite link (some sim.target.chip) address (some image) length).run.run
        handler sim = (some (.ok ()), sim') ∧ sim.Frame sim' ∧ sim'.target.Unlocked ∧
      sim'.target.chip = sim.target.chip ∧ sim'.target.ctlr &&& modeMask = 0 ∧
      sim'.target.flash = overlay sim.target.flash start image ∧
      sim'.target.ram = sim.target.ram := by
  have hpositive : 0 < length.toNat := by
    rw [hlength]
    exact List.length_pos_iff.2 himage
  obtain ⟨sim', hrun, hrest⟩ := wlFlashCh32v0Write_run port hready hchip herrors hbusy hmode
    hlength hstop hwritable
  refine ⟨sim', ?_, hrest⟩
  rw [wlFlashWrite_eq link hchip haddress hpositive (by rw [hlength]; exact hstop)]
  exact hrun

/-! ## Reading back -/

theorem simControl_attach (sim : Sim) :
    (simControl sim 0x02).2 = { sim with attached := (simControl sim 0x02).2.attached } := by
  unfold simControl
  rw [if_neg (by decide), if_pos rfl]
  by_cases hrefused : (sim.attached && sim.failAttachWhileAttached) = true
  · rw [if_pos hrefused]
  · rw [if_neg hrefused]

theorem sendControl_run {link : Link} (hlink : link.Usable) (command argument : Byte)
    {sim sim' : Sim} {reply : List Byte}
    (hanswer : simCommand (controlRequest command argument) sim = (.ok reply, sim')) :
    (sendControl link command argument).run.run simulator sim = (some (.ok reply), sim') := by
  rw [sendControl, wlLinkeCommand_run hlink, hanswer]

theorem simCommand_attach (sim : Sim) :
    simCommand (controlRequest wlCmdControl wlCtlAttach) sim =
      (.ok (simControl sim 0x02).1,
        { sim with attached := (simControl sim 0x02).2.attached }) := by
  rw [← simControl_attach]
  rfl

theorem wlLinkeHalt_run {link : Link} (hlink : link.Usable) (sim : Sim) :
    ∃ attached, (wlLinkeHalt link).run.run simulator sim =
      (some (.ok ()), { sim with attached }) :=
  ⟨_, Program.run_except_ok (sendControl_run hlink _ _ (simCommand_attach sim))⟩

/-- Halting again moves nothing of the controller. -/
theorem wlLinkeHalt_drives {link : Link} (hlink : link.Usable) (state : Flasher) :
    OnFlasher (wlLinkeHalt link).run state (.ok ()) state := by
  intro sim hready hview
  obtain ⟨attached, hrun⟩ := wlLinkeHalt_run hlink sim
  exact ⟨_, hrun, hview, ⟨rfl, rfl, fun _ _ _ => rfl, rfl, rfl, rfl, rfl⟩, id⟩

/-- A link on which the interface has been set for a part. -/
structure Link.SetFor (link : Link) (chip : Chip) : Prop extends link.Usable where
  configured : link.configured = true
  chipId : link.chipId = chip.linkeId

/-- Setting the interface again sends nothing. -/
theorem wlLinkeSetInterface_again {link : Link} {chip : Chip} (hlink : link.SetFor chip) :
    (wlLinkeSetInterface (some chip)).run.run link =
      (pure (.ok (), link) : Program Usb (Except WlErr Unit × Link)) := by
  have hset : (link.configured && link.chipId == chip.linkeId) = true := by
    rw [hlink.configured, hlink.chipId]
    simp
  show (if (link.configured && link.chipId == chip.linkeId) = true then _ else _ :
    Linked Unit).run.run link = _
  rw [if_pos hset]
  rfl

theorem wlLinkeReadMemory_drives {link : Link} {state : Flasher} (hlink : link.SetFor state.chip)
    {address : Word} {count : Nat} (hin : state.chip.InFlash address count) :
    OnFlasher ((wlLinkeReadMemory (some state.chip) address count).run.run link) state
      (.ok (bytesFrom (fun a => state.flash (simFlashOffset a)) address count), link) state := by
  have hset : OnFlasher ((wlLinkeSetInterface (some state.chip)).run.run link) state
      (.ok (), link) state := by
    rw [wlLinkeSetInterface_again hlink]
    exact Drives.pure _
  have hhalt := Drives.liftState link (wlLinkeHalt_drives hlink.toUsable state)
  have hread := Drives.liftState link
    (filled_wlDmReadBlock_drives count (readable_flasher (simulatorPort hlink.toUsable) hin))
  exact Drives.andThenState hset (Drives.readState (Drives.andThenState hhalt
    (Drives.readState hread)))

/-- Every round of the comparison finds what the flash array holds. -/
theorem verifyChunks_drives {link : Link} {state : Flasher} (hlink : link.SetFor state.chip)
    (hchip : state.chip.Ch32v0) {start : Nat} {image : List Byte}
    (hstop : start + image.length ≤ state.chip.flashSize.toNat)
    (hflash : ∀ i < image.length, state.flash (start + i) = image.getD i 0) (rounds done : Nat) :
    OnFlasher ((verifyChunks state.chip (flashAt start) image image.length rounds done).run.run
      link) state (.ok (), link) state := by
  have hsize := hchip.flashSize
  induction rounds generalizing done with
  | zero => exact Drives.pure _
  | succ rounds ih =>
      rw [verifyChunks]
      by_cases hmore : done < image.length
      · have hin : state.chip.InFlash (flashAt start + BitVec.ofNat 32 done)
            (min (image.length - done) 256) := by
          rw [flashAt_add]
          exact flashAt_inFlash (by omega) (by omega) (by omega)
        have hread := wlLinkeReadMemory_drives hlink hin
        have hsame : ¬((List.range (min (image.length - done) 256)).any fun i =>
            (bytesFrom (fun a => state.flash (simFlashOffset a))
              (flashAt start + BitVec.ofNat 32 done) (min (image.length - done) 256)).getD i 0 ≠
            image.getD (done + i) 0) = true := by
          rw [List.any_eq_true]
          rintro ⟨i, hi, hdiffers⟩
          rw [List.mem_range] at hi
          apply of_decide_eq_true hdiffers
          rw [bytesFrom_getD _ _ hi, flashAt_add, flashAt_add,
            simFlashOffset_flashAt (by omega), Nat.add_assoc]
          exact hflash (done + i) (by omega)
        rw [if_pos hmore]
        refine Drives.andThenState hread ?_
        dsimp only
        rw [if_neg hsame]
        exact ih _
      · rw [if_neg hmore]
        exact Drives.pure _

theorem wlFlashVerify_drives {link : Link} {state : Flasher} (hlink : link.SetFor state.chip)
    (hchip : state.chip.Ch32v0) {address : Word} {start : Nat} {image : List Byte}
    {length : BitVec 64} (haddress : normalise state.chip address = flashAt start)
    (hlength : length.toNat = image.length)
    (hstop : start + image.length ≤ state.chip.flashSize.toNat)
    (hflash : ∀ i < image.length, state.flash (start + i) = image.getD i 0) :
    OnFlasher ((wlFlashVerify (some state.chip) address (some image) length).run.run link) state
      (.ok (), link) state := by
  have hchunks := verifyChunks_drives hlink hchip hstop hflash image.length 0
  rw [← hlength, ← haddress] at hchunks
  exact hchunks

theorem overlay_image (memory : Nat → Byte) (start : Nat) (image : List Byte) {i : Nat}
    (hi : i < image.length) : overlay memory start image (start + i) = image.getD i 0 := by
  rw [overlay, if_pos (by omega), Nat.add_sub_cancel_left]

/-- Verifying what was just written succeeds and moves nothing. -/
theorem verify_run {link : Link} {sim : Sim} (hlink : link.SetFor sim.target.chip)
    (hready : sim.Ready) (hunlocked : sim.target.Unlocked) (hchip : sim.target.chip.Ch32v0)
    {address : Word} {start : Nat} {memory : Nat → Byte} {image : List Byte}
    {length : BitVec 64} (haddress : normalise sim.target.chip address = flashAt start)
    (hlength : length.toNat = image.length)
    (hstop : start + image.length ≤ sim.target.chip.flashSize.toNat)
    (hflash : sim.target.flash = overlay memory start image) (verify : Bool) :
    ∃ sim', ((if verify then
        (wlFlashVerify (some sim.target.chip) address (some image) length).run
      else pure (.ok ()) : StateT Link (Program Usb) (Except WlErr Unit)).run link).run
        simulator sim = (some (.ok (), link), sim') ∧
      sim'.target.flasher = sim.target.flasher ∧ sim.Frame sim' ∧ sim'.target.Unlocked := by
  cases verify with
  | false => exact ⟨sim, rfl, rfl, .refl sim, hunlocked⟩
  | true =>
      have hbytes : ∀ i < image.length, sim.target.flash (start + i) = image.getD i 0 := by
        intro i hi
        rw [hflash, overlay_image _ _ _ hi]
      have hverify := @wlFlashVerify_drives link sim.target.flasher hlink hchip address start
        image length haddress hlength hstop hbytes
      obtain ⟨sim', hrun, hview, hframe⟩ := hverify sim ⟨hready, hunlocked⟩ rfl
      exact ⟨sim', hrun, hview, hframe.1, hframe.2 hunlocked⟩

/-! ## The whole request -/

/-- The link after the interface has been set for a part. -/
def Link.set (link : Link) (chip : Chip) : Link :=
  { link with chipId := chip.linkeId, configured := true }

theorem wlLinkeSetInterface_fresh (chip : Chip) (sim : Sim) :
    ((wlLinkeSetInterface (some chip)).run.run wlLinkeAttachTransport).run simulator sim =
      (some (.ok (), wlLinkeAttachTransport.set chip),
        { sim with
          configured := true
          chipId := chip.linkeId
          interfaceSpeed := chip.interfaceSpeed }) := by
  rfl

/-- Resuming leaves the programmer detached. -/
theorem wlLinkeResume_run {link : Link} (hlink : link.Usable) (sim : Sim) :
    (wlLinkeResume link).run.run simulator sim =
      (some (.ok ()), { sim with attached := false }) := by
  have hrun : (sendControl link wlCmdRun 0x01).run.run simulator sim = _ :=
    sendControl_run hlink wlCmdRun 0x01 rfl
  unfold wlLinkeResume
  rw [Program.run_except_ok hrun, Program.run_except_ok (sendControl_run hlink _ _
    (simCommand_attach _)), Program.run_except_ok (sendControl_run hlink _ _ rfl)]
  rfl

/-- The address the programmer starts at, as an offset into the part's flash. -/
theorem normalise_inside {chip : Chip} (hchip : chip.Ch32v0) {address : Word} {count : Nat}
    (hlow : chip.flashBase.toNat ≤ (normalise chip address).toNat)
    (hhigh : (normalise chip address).toNat + count ≤
      chip.flashBase.toNat + chip.flashSize.toNat) :
    normalise chip address =
        flashAt ((normalise chip address).toNat - chip.flashBase.toNat) ∧
      (normalise chip address).toNat - chip.flashBase.toNat + count ≤ chip.flashSize.toNat := by
  have hsize := hchip.flashSize
  have hbase : chip.flashBase.toNat = 0x08000000 := by rw [hchip.flashBase]; rfl
  refine ⟨?_, by omega⟩
  apply BitVec.eq_of_toNat_eq
  rw [flashAt_toNat (by omega)]
  omega

/-- Erase, write, optionally verify and release: on a supported part every image
inside the flash array is written, whatever the array, the RAM, the core's
registers, the locks and the attach state were, and nothing else moves. -/
theorem wlLinkeWriteFlash_simulator (chip : Chip) (hchip : chip ∈ chips)
    (halgo : chip.algo = .ch32v0) (sim : Sim) (hbuilt : sim.target.chip = chip)
    (hprogramErrors : sim.target.programErrors = 0) (hillegal : sim.dm.illegal = 0)
    (hcmderr : sim.dm.cmderr = 0) (hbusy : sim.target.busyReads ≤ simBusyReads)
    (hmode : sim.target.ctlr &&& modeMask = 0) (address : Word) (image : List Byte)
    (himage : image ≠ [])
    (hlow : chip.flashBase.toNat ≤ (normalise chip address).toNat)
    (hhigh : (normalise chip address).toNat + image.length ≤
      chip.flashBase.toNat + chip.flashSize.toNat) (verify : Bool) :
    ∃ link' sim', ((wlLinkeWriteFlash (some chip) address (some image)
        (BitVec.ofNat 64 image.length) verify).run.run wlLinkeAttachTransport).run simulator sim =
        (some (.ok (), link'), sim') ∧
      sim'.target.flash = overlay sim.target.flash
        ((normalise chip address).toNat - chip.flashBase.toNat) image ∧
      sim'.target.ram = sim.target.ram ∧ sim'.target.programErrors = 0 ∧
      sim'.dm.illegal = 0 ∧ sim'.attached = false := by
  subst hbuilt
  have hpart := ch32v0_of_mem hchip halgo
  have hsize := hpart.flashSize
  obtain ⟨haddress, hstop⟩ := normalise_inside hpart hlow hhigh
  have hlength : (BitVec.ofNat 64 image.length).toNat = image.length := by
    rw [BitVec.toNat_ofNat]
    exact Nat.mod_eq_of_lt (by omega)
  have hlink : (wlLinkeAttachTransport.set sim.target.chip).SetFor sim.target.chip :=
    ⟨⟨rfl, rfl⟩, rfl, rfl⟩
  have hset := wlLinkeSetInterface_fresh sim.target.chip sim
  obtain ⟨attached, hhalt⟩ := wlLinkeHalt_run hlink.toUsable
    { sim with
      configured := true
      chipId := sim.target.chip.linkeId
      interfaceSpeed := sim.target.chip.interfaceSpeed }
  obtain ⟨written, hwrite, hframe, hunlocked, hchip', hmode', hflash, hram⟩ :=
    @wlFlashWrite_run _ _ _ (simulatorPort hlink.toUsable)
      { sim with
        configured := true
        chipId := sim.target.chip.linkeId
        interfaceSpeed := sim.target.chip.interfaceSpeed
        attached } ⟨rfl, hcmderr⟩ hpart hprogramErrors hbusy hmode address _ image _ haddress
      hlength himage hstop (fun _ _ _ => trivial)
  have hready : written.Ready := ⟨hframe.configured, hframe.cmderr.trans hcmderr⟩
  have hlink' : (wlLinkeAttachTransport.set sim.target.chip).SetFor written.target.chip := by
    rw [hchip']
    exact hlink
  obtain ⟨checked, hverify, hview, hframe', hunlocked'⟩ := @verify_run _ written hlink' hready
    hunlocked (by rw [hchip']; exact hpart) address _ sim.target.flash image
    (BitVec.ofNat 64 image.length) (by rw [hchip']; exact haddress) hlength
    (by rw [hchip']; exact hstop) hflash verify
  rw [hchip'] at hverify
  have hresume := wlLinkeResume_run hlink.toUsable checked
  refine ⟨wlLinkeAttachTransport.set sim.target.chip, { checked with attached := false }, ?_,
    (congrArg Flasher.flash hview).trans hflash, (congrArg Flasher.ram hview).trans hram,
    hunlocked'.programErrors, (hframe'.illegal.trans hframe.illegal).trans hillegal, rfl⟩
  unfold wlLinkeWriteFlash
  rw [if_neg (by simp)]
  rw [Program.run_state_ok hset, Program.run_state_get,
    Program.run_state_ok (liftLinked_run _ hhalt), Program.run_state_get,
    Program.run_state_ok (liftLinked_run _ hwrite),
    Program.run_state_ok (Program.run_state_lift hverify), Program.run_state_get,
    Program.run_state_ok (liftLinked_run _ (ignore_run hresume))]
  rfl

/-- Three bytes through the alias at zero, across a page boundary of a locked
part that is still attached. -/
theorem wlLinkeWriteFlash_across_pages :
    ∃ link' sim', ((wlLinkeWriteFlash (some ch32v003) 0x3f (some [0x13, 0x05, 0x10])
        (BitVec.ofNat 64 [(0x13 : Byte), 0x05, 0x10].length) true).run.run
          wlLinkeAttachTransport).run simulator { simNew ch32v003 with attached := true } =
        (some (.ok (), link'), sim') ∧
      sim'.target.flash = overlay (simNew ch32v003).target.flash
        ((normalise ch32v003 0x3f).toNat - ch32v003.flashBase.toNat) [0x13, 0x05, 0x10] ∧
      sim'.target.ram = (simNew ch32v003).target.ram ∧ sim'.target.programErrors = 0 ∧
      sim'.dm.illegal = 0 ∧ sim'.attached = false :=
  wlLinkeWriteFlash_simulator ch32v003 (List.Mem.head _) rfl
    { simNew ch32v003 with attached := true } rfl rfl rfl rfl (by decide) (by decide) 0x3f
    [0x13, 0x05, 0x10] (by decide) (by decide) (by decide) true

end WchLink
