import WchLink.Flasher

/-! # Writing an image on the simulator

The page loop puts the image over the old contents of the flash array and
leaves every other byte alone; the verification pass then reads back what was
written.
-/

namespace WchLink

open Bytes Interaction

/-- A memory with a run of bytes put over it. -/
def overlay (memory : Nat → Byte) (start : Nat) (bytes : List Byte) : Nat → Byte :=
  fun a => if start ≤ a ∧ a < start + bytes.length then bytes.getD (a - start) 0 else memory a

/-- The two memories joined at an offset: below it the first, from it the second. -/
def splice (low high : Nat → Byte) (boundary : Nat) : Nat → Byte :=
  fun a => if a < boundary then low a else high a

/-! ## Loading and programming one page -/

variable {handler : Handler Usb Sim} {link : Link} {writable : Nat → Prop}

theorem storeBytes_wordLe (memory : Nat → Byte) (offset : Nat) (b0 b1 b2 b3 : Byte) :
    storeBytes memory offset 4 (wordLe b0 b1 b2 b3) = overlay memory offset [b0, b1, b2, b3] := by
  obtain ⟨h0, h1, h2, h3⟩ := byteOf_wordLe b0 b1 b2 b3
  funext a
  unfold storeBytes overlay
  by_cases hin : offset ≤ a ∧ a < offset + 4
  · rw [if_pos hin, if_pos (by simpa using hin)]
    obtain ⟨i, rfl⟩ : ∃ i, a = offset + i := ⟨a - offset, by omega⟩
    have hi : i < 4 := by omega
    rw [Nat.add_sub_cancel_left]
    interval_cases i
    · exact h0
    · exact h1
    · exact h2
    · exact h3
  · rw [if_neg hin, if_neg (by simpa using hin)]

theorem overlay_append (memory : Nat → Byte) (start : Nat) (first second : List Byte) :
    overlay (overlay memory start first) (start + first.length) second =
      overlay memory start (first ++ second) := by
  funext a
  unfold overlay
  rw [List.length_append]
  by_cases hsecond : start + first.length ≤ a ∧ a < start + first.length + second.length
  · rw [if_pos hsecond, if_pos (by omega), List.getD_append_right _ _ _ _ (by omega)]
    congr 1
    omega
  · rw [if_neg hsecond]
    by_cases hfirst : start ≤ a ∧ a < start + first.length
    · rw [if_pos hfirst, if_pos (by omega), List.getD_append _ _ _ _ (by omega)]
    · rw [if_neg hfirst, if_neg (by omega)]

@[simp] theorem overlay_nil (memory : Nat → Byte) (start : Nat) :
    overlay memory start [] = memory := by
  funext a
  unfold overlay
  rw [if_neg (by simp)]

/-- Words loaded one after the other fill the page buffer from a slot on. -/
theorem loadPage_drives (port : TargetPort handler link writable) (bytes : List Byte)
    {address : Word} {slot : Nat} {state : Flasher} (hmode : state.mode = 0)
    (hwords : bytes.length % 4 = 0)
    (hin : state.chip.InFlash address bytes.length) (hslot : simFlashOffset address % 64 = slot)
    (hfits : slot + bytes.length ≤ 64) :
    Drives handler flasherSurface (loadPage link address bytes).run state (.ok ())
      { state with pageBuf := overlay state.pageBuf slot bytes } := by
  induction address, bytes using loadPage.induct generalizing slot state with
  | case1 address b0 b1 b2 b3 rest ih =>
      simp only [List.length_cons] at hwords hin hfits
      have hword : state.chip.InFlash address 4 := hin.mono (by omega)
      have hload := bufferLoad_drives port hmode (wordLe b0 b1 b2 b3) hword (by omega)
      rw [loadPage]
      refine hload.andThen ?_
      rw [hslot]
      unfold Flasher.loadWord
      rw [storeBytes_wordLe]
      cases rest with
      | nil =>
          exact Drives.ok ()
      | cons b rest =>
          have hnext : state.chip.InFlash address (4 + (b :: rest).length) :=
            hin.mono (by simp only [List.length_cons]; omega)
          have hoffset : simFlashOffset (address + 4) = simFlashOffset address + 4 :=
            hnext.offset_add (by simp)
          rw [show b0 :: b1 :: b2 :: b3 :: b :: rest = [b0, b1, b2, b3] ++ b :: rest from rfl,
            ← overlay_append]
          simp only [List.length_cons] at hwords hfits
          refine ih hmode ?_ (hnext.add (by simp)) ?_ ?_
          · simp only [List.length_cons]
            omega
          · rw [hoffset]
            simp only [List.length_cons, List.length_nil]
            omega
          · simp only [List.length_cons, List.length_nil]
            omega
  | case2 bytes address hshort =>
      have hnil : bytes = [] := by
        rcases bytes with _ | ⟨b0, _ | ⟨b1, _ | ⟨b2, _ | ⟨b3, rest⟩⟩⟩⟩
        · rfl
        · simp at hwords
        · simp at hwords
        · simp at hwords
        · exact absurd rfl (hshort b0 b1 b2 b3 rest)
      subst hnil
      rw [overlay_nil]
      exact Drives.ok ()

theorem programConflicts_erased {memory wanted : Nat → Byte} {offset count limit : Nat}
    (herased : ∀ i < count, offset + i < limit → memory (offset + i) = 0xff) :
    programConflicts memory offset count limit wanted = 0 := by
  rw [programConflicts, List.countP_eq_zero]
  intro i hi
  rw [List.mem_range] at hi
  simp only [decide_eq_true_eq, not_and, not_not]
  intro hlimit
  rw [herased i hi hlimit]
  exact BitVec.allOnes_and

/-- Erasing a page, loading 64 bytes and programming leaves those bytes. -/
theorem program_erased (memory buffer : Nat → Byte) {offset limit : Nat} {bytes : List Byte}
    (hlength : bytes.length = 64) (hlimit : offset + 64 ≤ limit) :
    programBytes (fillBytes memory offset 64 limit 0xff) offset 64 limit
      (overlay buffer 0 bytes) = overlay memory offset bytes := by
  funext a
  unfold programBytes fillBytes overlay
  rw [hlength]
  by_cases hin : offset ≤ a ∧ a < offset + 64
  · have hin' : offset ≤ a ∧ a < offset + 64 ∧ a < limit := by omega
    rw [if_pos hin', if_pos hin', if_pos (by omega), if_pos hin, Nat.sub_zero]
    exact BitVec.allOnes_and
  · have hin' : ¬(offset ≤ a ∧ a < offset + 64 ∧ a < limit) := by omega
    rw [if_neg hin', if_neg hin', if_neg hin]

/-- Erase, clear the buffer, load and program: the page's bytes are replaced. -/
theorem replacePage_drives (port : TargetPort handler link writable) {page : Word}
    {state : Flasher} (hpage : writable (simFlashOffset page / 64)) (hmode : state.mode = 0)
    (hin : state.chip.InFlash page 64)
    (haligned : simFlashOffset page % 64 = 0) {bytes : List Byte} (hlength : bytes.length = 64) :
    Drives handler flasherSurface (do
      erasePageFast link page
      bufferReset link
      loadPage link page bytes
      programPageFast link page : Fallible Unit).run state (.ok ())
      { state with
        flash := overlay state.flash (simFlashOffset page) bytes
        pageBuf := overlay (fun _ => 0xff) 0 bytes
        addr := page } := by
  have herase := erasePageFast_drives port hmode page hpage
  have hreset : Drives handler flasherSurface (bufferReset link).run
      (state.setAddr page).erasePage (.ok ()) (state.setAddr page).erasePage.resetBuffer :=
    bufferReset_drives port hmode
  have hload : Drives handler flasherSurface (loadPage link page bytes).run
      (state.setAddr page).erasePage.resetBuffer (.ok ())
      { (state.setAddr page).erasePage.resetBuffer with
        pageBuf := overlay (fun _ => 0xff) 0 bytes } :=
    loadPage_drives port bytes hmode (by rw [hlength]) (by rw [hlength]; exact hin) haligned
      (by rw [hlength])
  have hconflicts : ({ (state.setAddr page).erasePage.resetBuffer with
      pageBuf := overlay (fun _ => 0xff) 0 bytes } : Flasher).conflicts = 0 := by
    apply programConflicts_erased
    intro i hi hlimit
    exact if_pos ⟨Nat.le_add_right _ _, Nat.add_lt_add_left hi _, hlimit⟩
  have hprogram := @programPageFast_drives handler link writable port
    { (state.setAddr page).erasePage.resetBuffer with
      pageBuf := overlay (fun _ => 0xff) 0 bytes } hmode page hpage hconflicts
  rw [← program_erased state.flash (fun _ => 0xff) hlength hin.inside]
  exact herase.andThen (hreset.andThen (hload.andThen hprogram))

/-! ## One round of the page loop -/

/-- The programmer's address of a flash offset. -/
def flashAt (offset : Nat) : Word := fbV + BitVec.ofNat 32 offset

theorem flashAt_toNat {offset : Nat} (hoffset : offset < 2 ^ 24) :
    (flashAt offset).toNat = 0x08000000 + offset := by
  have hbase : fbV.toNat = 0x08000000 := rfl
  rw [flashAt, BitVec.toNat_add, BitVec.toNat_ofNat, hbase]
  omega

theorem flashAt_add (offset i : Nat) :
    flashAt offset + BitVec.ofNat 32 i = flashAt (offset + i) := by
  rw [flashAt, flashAt, BitVec.add_assoc, BitVec.ofNat_add]

/-- Rounding an address in flash down to its page. -/
theorem flashAt_page {offset : Nat} (hoffset : offset < 2 ^ 24) :
    flashAt offset &&& ~~~((64 : Word) - 1) = flashAt (offset - offset % 64) := by
  apply BitVec.eq_of_toNat_eq
  have hdown := toNat_and_high (flashAt offset) (by decide : 6 ≤ 32)
  refine hdown.trans ?_
  rw [flashAt_toNat (by omega), flashAt_toNat (by omega)]
  omega

theorem simFlashOffset_flashAt {offset : Nat} (hoffset : offset < 2 ^ 24) :
    simFlashOffset (flashAt offset) = offset := by
  rw [simFlashOffset_eq, flashAt_toNat hoffset]
  omega

theorem flashAt_inFlash {chip : Chip} {offset count : Nat} (hsmall : chip.flashSize.toNat ≤ 2 ^ 24)
    (hoffset : offset < 2 ^ 24) (hinside : offset + count ≤ chip.flashSize.toNat) :
    chip.InFlash (flashAt offset) count where
  small := hsmall
  window := by
    rw [simIsFlash_iff, flashAt_toNat hoffset]
    omega
  inside := by
    rw [simFlashOffset_flashAt hoffset]
    exact hinside

/-- The merged page is the page of the overlaid memory. -/
theorem mergePage_eq {memory : Nat → Byte} {page start : Nat} {image old : List Byte}
    (hpage : page + 64 < 2 ^ 24) (hstop : start + image.length < 2 ^ 24)
    (hold : old.length = 64)
    (hbytes : ∀ i < 64, ¬(start ≤ page + i ∧ page + i < start + image.length) →
      old.getD i 0 = memory (page + i)) :
    mergePage (flashAt page) (flashAt start) (flashAt (start + image.length)) image old =
      (List.range 64).map fun i => overlay memory start image (page + i) := by
  apply List.ext_getElem
  · simp [mergePage, hold]
  intro i hi hi'
  have hi64 : i < 64 := by simpa using hi'
  have hstart : start < 2 ^ 24 := by omega
  have hat : (flashAt (page + i)).toNat = 0x08000000 + (page + i) := flashAt_toNat (by omega)
  simp only [mergePage, List.getElem_mapIdx, List.getElem_map, List.getElem_range, flashAt_add,
    ge_iff_le, BitVec.le_def, BitVec.lt_def, hat, flashAt_toNat hstart, flashAt_toNat hstop]
  unfold overlay
  by_cases hin : start ≤ page + i ∧ page + i < start + image.length
  · rw [if_pos (by omega), if_pos hin]
    congr 1
    rw [BitVec.toNat_sub, hat, flashAt_toNat hstart]
    omega
  · rw [if_neg (by omega), if_neg hin, ← hbytes i hi64 hin, List.getD_eq_getElem _ _ (by omega)]

/-- Reading flash moves nothing of the controller. -/
theorem readable_flasher (port : TargetPort handler link writable) {state : Flasher}
    {address : Word} {count : Nat} (h : state.chip.InFlash address count) :
    Readable handler flasherSurface link state (fun a => state.flash (simFlashOffset a))
      address count := by
  apply readable_of_array
  · intro i hi
    have hin : state.chip.InFlash address (i + 1) := h.mono hi
    rw [hin.offset_add (by omega)]
  · intro i hi
    have hin : state.chip.InFlash address (i + 1) := h.mono hi
    rw [← hin.offset_add (by omega)]
    apply onFlasher_of_onTarget
    intro target hunlocked hview
    subst hview
    exact ⟨target, (SimTarget.loadsFrom_flash (hin.add (by omega))).drives_byte port,
      hunlocked, rfl⟩
  · intro i hi
    have hin : state.chip.InFlash address (i + 4) := h.mono hi
    rw [← hin.offset_add (by omega)]
    apply onFlasher_of_onTarget
    intro target hunlocked hview
    subst hview
    exact ⟨target, (SimTarget.loadsFrom_flash (hin.add (by omega))).drives_word port,
      hunlocked, rfl⟩

/-- The bytes of one page of a memory. -/
def pageBytes (memory : Nat → Byte) (page : Nat) : List Byte :=
  (List.range 64).map fun i => memory (page + i)

theorem overlay_pageBytes (low high : Nat → Byte) (page : Nat) :
    overlay (splice low high page) page (pageBytes low page) = splice low high (page + 64) := by
  funext a
  unfold overlay splice pageBytes
  rw [List.length_map, List.length_range]
  by_cases hin : page ≤ a ∧ a < page + 64
  · rw [if_pos hin, if_pos hin.2, List.getD_eq_getElem _ _ (by simp; omega)]
    simp only [List.getElem_map, List.getElem_range]
    congr 1
    omega
  · rw [if_neg hin]
    by_cases hlow : a < page
    · rw [if_pos hlow, if_pos (by omega)]
    · rw [if_neg hlow, if_neg (by omega)]

section Image

variable (port : TargetPort handler link writable) {start page : Nat} {image : List Byte}
  {state : Flasher} {memory : Nat → Byte} (hsmall : state.chip.flashSize.toNat < 2 ^ 24)
  (hstop : start + image.length ≤ state.chip.flashSize.toNat)
  (hpage : page + 64 ≤ state.chip.flashSize.toNat)
  (hflash : state.flash = splice (overlay memory start image) memory page)

include port hsmall hstop hpage hflash

/-- A page the image does not cover is read first; one it covers need not be. -/
theorem readOldPage_drives :
    ∃ old : List Byte, old.length = 64 ∧
      (∀ i < 64, ¬(start ≤ page + i ∧ page + i < start + image.length) →
        old.getD i 0 = memory (page + i)) ∧
      Drives handler flasherSurface (readOldPage link 64 (flashAt start)
        (flashAt (start + image.length)) (flashAt page)).run state (.ok old) state := by
  unfold readOldPage
  by_cases hfull : flashAt page ≥ flashAt start ∧
      flashAt page + 64 ≤ flashAt (start + image.length)
  · have hwhole : start ≤ page ∧ page + 64 ≤ start + image.length := by
      have hnext : flashAt page + 64 = flashAt (page + 64) := flashAt_add page 64
      rw [hnext] at hfull
      simp only [ge_iff_le, BitVec.le_def] at hfull
      rw [flashAt_toNat (by omega), flashAt_toNat (by omega), flashAt_toNat (by omega),
        flashAt_toNat (by omega)] at hfull
      omega
    refine ⟨List.replicate 64 0xff, by simp, fun i hi hout => absurd ?_ hout, ?_⟩
    · omega
    · rw [if_pos hfull]
      exact Drives.ok _
  · have hin : state.chip.InFlash (flashAt page) 64 := flashAt_inFlash hsmall.le (by omega) hpage
    refine ⟨bytesFrom (fun a => state.flash (simFlashOffset a)) (flashAt page) 64,
      bytesFrom_length _ _ _, fun i hi _ => ?_, ?_⟩
    · rw [bytesFrom_getD _ _ hi, flashAt_add, simFlashOffset_flashAt (by omega), hflash, splice,
        if_neg (by omega)]
    · rw [if_neg hfull]
      exact filled_wlDmReadBlock_drives 64 (readable_flasher port hin)

/-- One round of the page loop moves the boundary between new and old contents
up by a page. -/
theorem writePage_drives (hwritable : writable (page / 64)) (hmode : state.mode = 0)
    (haligned : page % 64 = 0) :
    ∃ buffer, Drives handler flasherSurface (writePage link 64 (flashAt start)
      (flashAt (start + image.length)) image (flashAt page)).run state (.ok ())
      { state with
        flash := splice (overlay memory start image) memory (page + 64)
        pageBuf := buffer
        addr := flashAt page } := by
  have hin : state.chip.InFlash (flashAt page) 64 := flashAt_inFlash hsmall.le (by omega) hpage
  have hoffset : simFlashOffset (flashAt page) = page := simFlashOffset_flashAt (by omega)
  have hreplace := @replacePage_drives handler link writable port (flashAt page) state
    (by rwa [hoffset]) hmode hin (by rw [hoffset]; exact haligned)
    (pageBytes (overlay memory start image) page)
    (by simp [pageBytes])
  rw [hoffset, hflash, overlay_pageBytes] at hreplace
  obtain ⟨old, hold, hbytes, hread⟩ := readOldPage_drives port hsmall hstop hpage hflash
  have hmerge := mergePage_eq (by omega) (by omega) hold hbytes
  refine ⟨overlay (fun _ => 0xff) 0 (pageBytes (overlay memory start image) page),
    hread.andThen ?_⟩
  dsimp only
  rw [hmerge]
  exact hreplace

end Image

/-! ## The page loop -/

/-- What the table says about every part the flasher supports. -/
structure Chip.Ch32v0 (chip : Chip) : Prop where
  algo : chip.algo = .ch32v0
  flashBase : chip.flashBase = fbV
  eraseSize : chip.eraseSize = 64
  flashSize : chip.flashSize.toNat ≤ 63488
  pages : chip.flashSize.toNat % 64 = 0

theorem ch32v0_of_mem {chip : Chip} (hchip : chip ∈ chips) (halgo : chip.algo = .ch32v0) :
    chip.Ch32v0 := by
  have htable : ∀ part ∈ chips, part.algo = .ch32v0 → part.flashBase = fbV ∧
      part.eraseSize = 64 ∧ part.flashSize.toNat ≤ 63488 ∧ part.flashSize.toNat % 64 = 0 := by
    decide
  obtain ⟨hbase, herase, hsize, hpages⟩ := htable chip hchip halgo
  exact ⟨halgo, hbase, herase, hsize, hpages⟩

/-- From any page boundary the loop writes every page up to the image's end. -/
theorem writePages_drives (port : TargetPort handler link writable) {start : Nat}
    {image : List Byte} {memory : Nat → Byte} (rounds : Nat) {page : Nat} {state : Flasher}
    (hchip : state.chip.Ch32v0) (hstop : start + image.length ≤ state.chip.flashSize.toNat)
    (hwritable : ∀ index, page / 64 ≤ index → 64 * index < start + image.length → writable index)
    (hflash : state.flash = splice (overlay memory start image) memory page)
    (hmode : state.mode = 0) (haligned : page % 64 = 0) (hpage : page < start + image.length + 64)
    (hrounds : start + image.length + 64 ≤ page + 64 * rounds) :
    ∃ last buffer addr, start + image.length ≤ last ∧
      Drives handler flasherSurface (writePages link 64 (flashAt start)
        (flashAt (start + image.length)) image rounds (flashAt page)).run state (.ok ())
        { state with
          flash := splice (overlay memory start image) memory last
          pageBuf := buffer
          addr := addr } := by
  have hsize := hchip.flashSize
  have hpages := hchip.pages
  induction rounds generalizing page state with
  | zero => omega
  | succ rounds ih =>
      have hless : flashAt page < flashAt (start + image.length) ↔
          page < start + image.length := by
        rw [BitVec.lt_def, flashAt_toNat (by omega), flashAt_toNat (by omega)]
        omega
      rw [writePages]
      by_cases hmore : page < start + image.length
      · obtain ⟨buffer, hwrite⟩ := writePage_drives port (by omega) hstop (by omega) hflash
          (hwritable _ le_rfl (by omega)) hmode haligned
        obtain ⟨last, buffer', addr, hlast, hrest⟩ := @ih (page + 64)
          { state with
            flash := splice (overlay memory start image) memory (page + 64)
            pageBuf := buffer
            addr := flashAt page } hchip hstop (fun index hindex => hwritable index (by omega)) rfl
          hmode (by omega) (by omega) (by omega) hsize
          hpages
        refine ⟨last, buffer', addr, hlast, ?_⟩
        rw [if_pos (hless.2 hmore)]
        refine hwrite.andThen ?_
        rw [show flashAt page + 64 = flashAt (page + 64) from flashAt_add page 64]
        exact hrest
      · refine ⟨page, state.pageBuf, state.addr, by omega, ?_⟩
        rw [if_neg (mt hless.1 hmore), ← hflash]
        exact Drives.ok ()

/-- Past the image's end the joined memory is the overlaid one. -/
theorem splice_overlay (memory : Nat → Byte) {start last : Nat} {image : List Byte}
    (hlast : start + image.length ≤ last) :
    splice (overlay memory start image) memory last = overlay memory start image := by
  funext a
  unfold splice
  by_cases hlow : a < last
  · rw [if_pos hlow]
  · rw [if_neg hlow]
    unfold overlay
    rw [if_neg (by omega)]

theorem splice_overlay_below (memory : Nat → Byte) {start first : Nat} {image : List Byte}
    (hfirst : first ≤ start) : splice (overlay memory start image) memory first = memory := by
  funext a
  unfold splice overlay
  by_cases hlow : a < first
  · rw [if_pos hlow, if_neg (by omega)]
  · rw [if_neg hlow]

end WchLink
