import WchLink.Desk

/-! # Images between files and the part

What `flash` and `read` do on the desk is what they are to do on the shelf: the
image flashed last is the one that is read, and a command that is refused changes
nothing.
-/

namespace WchLink

open Bytes Interaction

/-! ## The commands -/

section Commands

variable {chip : Chip} {shelf : Shelf} {opts : Options}

/-- The range check is the part's own. -/
theorem wlFlashRangeOk_holds (hpart : chip.Ch32v0) (address : Word) {count : Nat}
    (hpositive : 0 < count) (hcount : count < 2 ^ 63) :
    wlFlashRangeOk (some chip) address (BitVec.ofNat 64 count) =
      decide (chip.Holds address count) := by
  have hsize := hpart.flashSize
  have hbase : chip.flashBase.toNat = 0x08000000 := by rw [hpart.flashBase]; rfl
  have hlength : (BitVec.ofNat 64 count).toNat = count := by
    rw [BitVec.toNat_ofNat]
    exact Nat.mod_eq_of_lt (by omega)
  rw [Bool.eq_iff_iff, decide_eq_true_eq]
  constructor
  · intro hrange
    obtain ⟨start, haddress, hstop⟩ := rangeOk_start hpart (by omega) hrange
    have hstart : (normalise chip address).toNat = 0x08000000 + start := by
      rw [haddress, flashAt_toNat (by omega)]
    unfold Chip.Holds
    omega
  · intro hholds
    obtain ⟨haddress, hstop⟩ := normalise_inside hpart hholds.1 hholds.2
    exact wlFlashRangeOk_inside hpart haddress (by omega) (by omega)

theorem wlLinkeCanFlash_eq (part : Chip) :
    wlLinkeCanFlash (some part) = decide (part.algo ≠ .unsupported) := rfl

theorem algo_of_supported {part : Chip} (h : part.algo ≠ .unsupported) : part.algo = .ch32v0 := by
  cases halgo : part.algo with
  | unsupported => exact absurd halgo h
  | ch32v0 => rfl

/-- The end of every command that has opened the programmer. -/
theorem closing_onShelf {α : Type} {link : Link} (hlink : link.Usable) {rest : Program Cli α}
    {value : α} {after : Shelf} (hrest : OnShelf chip rest shelf value after) :
    OnShelf chip (wlLinkeClose link >>= fun _ => rest) shelf value after :=
  (wlLinkeClose_onShelf hlink).bind hrest

theorem flashImage_onShelf (hchip : chip ∈ chips) {given : Option Chip}
    (hgiven : given = none ∨ given = some chip) {image : List Byte} (himage : image ≠ [])
    (hlength : image.length < 2 ^ 63) :
    OnShelf chip (flashImage opts given image) shelf (shelf.imaged chip opts image).1
      (shelf.imaged chip opts image).2 := by
  have hfresh : wlLinkeAttachTransport.Usable := ⟨rfl, rfl⟩
  unfold flashImage Shelf.imaged
  apply (wlLinkeOpen_onShelf _).bind
  apply (resolveChip_onShelf hchip hgiven).bind
  dsimp only
  by_cases halgo : chip.algo = .unsupported
  · rw [wlLinkeCanFlash_eq, halgo, if_pos rfl]
    exact closing_onShelf hfresh (Drives.pure _)
  · have hpart := ch32v0_of_mem hchip (algo_of_supported halgo)
    have hpositive : 0 < image.length := List.length_pos_iff.mpr himage
    rw [wlLinkeCanFlash_eq, decide_eq_true halgo, if_neg halgo,
      wlFlashRangeOk_holds hpart _ hpositive hlength]
    by_cases hholds : chip.Holds (flashAddress chip opts) image.length
    · have hselected : (wlLinkeAttachTransport.set chip).Usable := ⟨rfl, rfl⟩
      have hwrite := @wlLinkeWriteFlash_onShelf chip shelf hchip (algo_of_supported halgo) _ image
        himage hholds opts.verify
      have hinside : decide (chip.Holds (if opts.addressGiven = true then opts.address
          else chip.flashBase) image.length) = true := decide_eq_true hholds
      rw [if_pos hholds, hinside]
      exact hwrite.bind (closing_onShelf hselected (Drives.pure _))
    · have hinside : decide (chip.Holds (if opts.addressGiven = true then opts.address
          else chip.flashBase) image.length) = false := decide_eq_false hholds
      rw [if_neg hholds, hinside]
      exact closing_onShelf hfresh (Drives.pure _)

/-- The files of a settled desk are no longer than a file can be. -/
theorem onShelf_of_files {α : Type} {program : Program Cli α} {value : α} {after : Shelf}
    (h : (∀ path data, shelf.files path = some data → data.length < 2 ^ 63) →
      OnShelf chip program shelf value after) : OnShelf chip program shelf value after := by
  intro state hready hview
  have hfiles : shelf.files = state.files := by
    rw [← hview]
    rfl
  exact h (by rw [hfiles]; exact hready.files) state hready hview

/-- What the options name is nothing, or the part. -/
theorem Options.Names.given (hnames : opts.Names chip) :
    opts.chip = none ∧ requireChip opts = none ∨
      (∃ name, opts.chip = some name) ∧ requireChip opts = some chip := by
  unfold requireChip
  rcases hnames with hnone | hsome
  · exact .inl ⟨hnone, by rw [hnone]⟩
  · unfold requireChip at hsome
    cases hgiven : opts.chip with
    | none =>
        rw [hgiven] at hsome
        cases hsome
    | some name =>
        rw [hgiven] at hsome
        exact .inr ⟨⟨name, rfl⟩, hsome⟩

theorem cmdFlash_onShelf (hchip : chip ∈ chips) (hnames : opts.Names chip) {file : String}
    (hfile : opts.file = some file) :
    OnShelf chip (cmdFlash opts file) shelf (shelf.flashed chip opts).1
      (shelf.flashed chip opts).2 := by
  apply onShelf_of_files
  intro hfiles
  unfold cmdFlash Shelf.flashed
  rw [hfile]
  dsimp only
  rcases hnames.given with ⟨hnone, hrequired⟩ | ⟨⟨name, hsome⟩, hrequired⟩
  · rw [hnone, hrequired]
    simp only [Option.isSome_none, Bool.false_and, Bool.false_eq_true, if_false, ne_eq, not_true,
      false_and]
    apply (readFile_onShelf file).bind
    unfold Shelf.contents
    cases hcontents : shelf.files file with
    | none => exact Drives.pure _
    | some image =>
        by_cases hempty : image = []
        · simp only [hempty, if_true]
          exact Drives.pure _
        · simp only [hempty, if_false]
          exact flashImage_onShelf hchip (.inl rfl) hempty (hfiles file image hcontents)
  · rw [hsome, hrequired]
    dsimp only
    by_cases halgo : chip.algo = .unsupported
    · have hrefused : (Option.isSome (some chip) && !wlLinkeCanFlash (some chip)) = true := by
        rw [wlLinkeCanFlash_eq, halgo]
        rfl
      rw [if_pos hrefused, if_pos ⟨Option.some_ne_none name, halgo⟩]
      exact Drives.pure _
    · have hcan : ¬(Option.isSome (some chip) && !wlLinkeCanFlash (some chip)) = true := by
        rw [wlLinkeCanFlash_eq, decide_eq_true halgo]
        simp
      have hsupported : ¬(some name ≠ none ∧ chip.algo = .unsupported) := fun h => halgo h.2
      rw [if_neg hcan, if_neg hsupported]
      apply (readFile_onShelf file).bind
      unfold Shelf.contents
      cases hcontents : shelf.files file with
      | none => exact Drives.pure _
      | some image =>
          by_cases hempty : image = []
          · simp only [hempty, if_true]
            exact Drives.pure _
          · have hpart := ch32v0_of_mem hchip (algo_of_supported halgo)
            have hlength := hfiles file image hcontents
            have hpositive : 0 < image.length := List.length_pos_iff.mpr hempty
            simp only [hempty, if_false]
            rw [wlFlashRangeOk_holds hpart _ hpositive hlength]
            by_cases hholds : chip.Holds (flashAddress chip opts) image.length
            · have hinside : decide (chip.Holds (if opts.addressGiven = true then opts.address
                  else chip.flashBase) image.length) = true := decide_eq_true hholds
              rw [hinside]
              exact flashImage_onShelf hchip (.inr rfl) hempty hlength
            · have hinside : decide (chip.Holds (if opts.addressGiven = true then opts.address
                  else chip.flashBase) image.length) = false := decide_eq_false hholds
              unfold Shelf.imaged
              rw [hinside, if_neg halgo, if_neg hholds]
              exact Drives.pure _

/-- The whole flash of every part can be read. -/
theorem readable_wholeFlash (hchip : chip ∈ chips) :
    chip.Readable chip.flashBase chip.flashSize.toNat := by
  have htable : ∀ part ∈ chips, part.flashSize.toNat ≤ 2 ^ 24 ∧ simIsFlash part.flashBase = true ∧
      simFlashOffset part.flashBase + part.flashSize.toNat ≤ part.flashSize.toNat := by
    decide
  obtain ⟨hsmall, hwindow, hinside⟩ := htable chip hchip
  exact .inl ⟨hsmall, hwindow, hinside⟩

/-- `read` after the checks that need no programmer. -/
def readOpened (opts : Options) (chip : Option Chip) (file : String) :
    Program Cli (Except WlErr Unit) := do
  match ← wlLinkeOpen opts.serial with
  | .error status => return .error status
  | .ok link =>
  let (status, link) ← resolveChip chip link
  match status with
  | .error status =>
      wlLinkeClose link
      return .error status
  | .ok chip =>
  let (address, size) := readRange chip opts
  if !(← onMachine (request (.malloc size))) then
    wlLinkeClose link
    return .error .usage
  let (status, link) ← onProgrammer ((wlLinkeReadMemory (some chip) address size).run.run link)
  wlLinkeClose link
  match status with
  | .error status => return .error status
  | .ok buffer => writeFile file buffer

theorem cmdRead_eq (opts : Options) (file : String) :
    cmdRead opts file =
      if !opts.wholeFlash && (!opts.addressGiven || !opts.sizeGiven || opts.size = 0) then
        return .error .usage
      else
        match opts.chip, requireChip opts with
        | some _, none => return .error .usage
        | _, chip => readOpened opts chip file := rfl

theorem readRange_readable (hchip : chip ∈ chips) (hrange : opts.NamesRange)
    (hreadable : opts.NamesRange → opts.wholeFlash = false →
      chip.Readable opts.address opts.size) :
    chip.Readable (readRange chip opts).1 (readRange chip opts).2 := by
  unfold readRange
  cases hwhole : opts.wholeFlash with
  | true => exact readable_wholeFlash hchip
  | false => exact hreadable hrange hwhole

/-- What `cmdRead` refuses names no range. -/
theorem refuses_range (opts : Options) :
    (!opts.wholeFlash && (!opts.addressGiven || !opts.sizeGiven || decide (opts.size = 0))) = true ↔
      ¬opts.NamesRange := by
  unfold Options.NamesRange Options.wholeFlash
  cases opts.addressGiven <;> cases opts.sizeGiven <;> simp

/-- What `read` does with the programmer. -/
theorem readOpened_onShelf (hchip : chip ∈ chips) {given : Option Chip}
    (hgiven : given = none ∨ given = some chip) (hrange : opts.NamesRange)
    (hreadable : opts.NamesRange → opts.wholeFlash = false →
      chip.Readable opts.address opts.size) (file : String) :
    OnShelf chip (readOpened opts given file) shelf (.ok ()) { shelf with
      files := Function.update shelf.files file (some (bytesFrom (shelf.byteAt chip)
        (readRange chip opts).1 (readRange chip opts).2)) } := by
  have hselected : (wlLinkeAttachTransport.set chip).Usable := ⟨rfl, rfl⟩
  have hin := readRange_readable hchip hrange hreadable
  have hlength : (bytesFrom (shelf.byteAt chip) (readRange chip opts).1
      (readRange chip opts).2).length < 2 ^ 63 := by
    have hcount := hin.length
    rw [bytesFrom_length]
    omega
  have hread := @wlLinkeReadMemory_onShelf chip shelf _ _ hin
  have hmalloc : OnShelf chip (onMachine (request (.malloc (readRange chip opts).2))) shelf true
      shelf := fun state _ hview => ⟨state, rfl, hview, id⟩
  unfold readOpened
  apply (wlLinkeOpen_onShelf _).bind
  apply (resolveChip_onShelf hchip hgiven).bind
  apply hmalloc.bind
  apply hread.bind
  exact closing_onShelf hselected (writeFile_onShelf file hlength)

theorem cmdRead_onShelf (hchip : chip ∈ chips) (hnames : opts.Names chip)
    (hreadable : opts.NamesRange → opts.wholeFlash = false →
      chip.Readable opts.address opts.size) {file : String} (hfile : opts.file = some file) :
    OnShelf chip (cmdRead opts file) shelf
      (shelf.copied chip opts).1 (shelf.copied chip opts).2 := by
  unfold Shelf.copied
  rw [hfile]
  dsimp only
  by_cases hrange : opts.NamesRange
  · have haccepted : ¬(!opts.wholeFlash && (!opts.addressGiven || !opts.sizeGiven ||
        decide (opts.size = 0))) = true := fun h => (refuses_range opts).mp h hrange
    rw [cmdRead_eq, if_neg haccepted, if_pos hrange]
    rcases hnames.given with ⟨hnone, hrequired⟩ | ⟨⟨name, hsome⟩, hrequired⟩
    · rw [hnone, hrequired]
      exact readOpened_onShelf hchip (.inl rfl) hrange hreadable file
    · rw [hsome, hrequired]
      exact readOpened_onShelf hchip (.inr rfl) hrange hreadable file
  · rw [cmdRead_eq, if_pos ((refuses_range opts).mpr hrange), if_neg hrange]
    exact Drives.pure _

theorem errand_onShelf (hchip : chip ∈ chips) {errand : Errand} (hsuits : errand.Suits chip) :
    OnShelf chip errand.command shelf
      (errand.onShelf chip shelf).1 (errand.onShelf chip shelf).2 := by
  cases errand with
  | flash opts =>
      cases hfile : opts.file with
      | none =>
          simp only [Errand.command, Errand.onShelf, Command.run, Shelf.flashed, hfile]
          exact Drives.pure _
      | some file =>
          simp only [Errand.command, Errand.onShelf, Command.run, hfile]
          exact cmdFlash_onShelf hchip hsuits hfile
  | read opts =>
      cases hfile : opts.file with
      | none =>
          simp only [Errand.command, Errand.onShelf, Command.run, Shelf.copied, hfile]
          exact Drives.pure _
      | some file =>
          simp only [Errand.command, Errand.onShelf, Command.run, hfile]
          exact cmdRead_onShelf hchip hsuits.1 hsuits.2 hfile

theorem runErrands_onShelf (hchip : chip ∈ chips) (errands : List Errand)
    (hsuits : ∀ errand ∈ errands, errand.Suits chip) (shelf : Shelf) :
    OnShelf chip (runErrands errands) shelf (errandsOnShelf chip errands shelf).1
      (errandsOnShelf chip errands shelf).2 := by
  induction errands generalizing shelf with
  | nil => exact Drives.pure _
  | cons errand errands ih =>
      have hfirst := hsuits errand List.mem_cons_self
      have hrest := ih (fun other hother => hsuits other (List.mem_cons_of_mem errand hother))
        (errand.onShelf chip shelf).2
      exact (errand_onShelf hchip hfirst).bind (hrest.bind (Drives.pure _))

end Commands

/-- Commands that flash files and read memory into files do to the part and to
the files what they do to the shelf, with the same statuses, in any number and
any order, also those that are refused. -/
theorem runErrands_refines (chip : Chip) (hchip : chip ∈ chips) (errands : List Errand)
    (hsuits : ∀ errand ∈ errands, errand.Suits chip) (state : Desk)
    (hsettled : state.Settled chip) :
    ∃ final, (runErrands errands).run desk state =
        (some (errandsOnShelf chip errands state.shelf).1, final) ∧
      final.shelf = (errandsOnShelf chip errands state.shelf).2 ∧ final.Settled chip := by
  obtain ⟨final, hrun, hview, hkept⟩ := runErrands_onShelf hchip errands hsuits state.shelf state
    hsettled rfl
  exact ⟨final, hrun, hview, hkept hsettled⟩

/-- A part that is still attached, and one file. -/
def deskStart : Desk where
  sim := { simNew ch32v003 with attached := true, failAttachWhileAttached := true }
  files := fun path => if path = "image.bin" then some [0x13, 0x05, 0x10] else none
  opened := none

def flashOptions : Options where
  serial := none
  chip := none
  file := some "image.bin"
  extra := []
  address := 0x3e
  size := 0
  addressGiven := true
  sizeGiven := false
  verify := true
  port := 3333

def readOptions : Options where
  serial := none
  chip := some "ch32v003"
  file := some "copy.bin"
  extra := []
  address := 0x0800003e
  size := 3
  addressGiven := true
  sizeGiven := true
  verify := true
  port := 3333

theorem deskStart_settled : deskStart.Settled ch32v003 := by
  refine ⟨⟨rfl, rfl, rfl, by decide, by decide⟩, ?_⟩
  intro path data hfile
  unfold deskStart at hfile
  dsimp only at hfile
  split at hfile
  · cases hfile
    decide
  · cases hfile

theorem readOptions_suits : (Errand.read readOptions).Suits ch32v003 :=
  ⟨.inr (by decide), fun _ _ => .inl ⟨by decide, by decide, by decide⟩⟩

/-- A detected part is flashed through the alias and read back under its name; a
file that is not there is refused between. -/
theorem runErrands_refines_copy : ∃ final,
    (runErrands [.flash flashOptions, .flash { flashOptions with file := some "none.bin" },
      .read readOptions]).run desk deskStart = (some [.ok (), .error .usage, .ok ()], final) ∧
    final.shelf = (errandsOnShelf ch32v003 [.flash flashOptions,
      .flash { flashOptions with file := some "none.bin" }, .read readOptions] deskStart.shelf).2 ∧
    final.Settled ch32v003 := by
  refine runErrands_refines ch32v003 (List.Mem.head _) [.flash flashOptions,
    .flash { flashOptions with file := some "none.bin" }, .read readOptions] ?_ deskStart
    deskStart_settled
  intro errand herrand
  simp only [List.mem_cons, List.not_mem_nil, or_false] at herrand
  rcases herrand with rfl | rfl | rfl
  · exact .inl rfl
  · exact .inl rfl
  · exact readOptions_suits

/-! ## Reading back what was flashed -/

section RoundTrip

variable {chip : Chip}

/-- Either mapping of an offset lies in the part's flash. -/
theorem inFlash_of_normalise (hpart : chip.Ch32v0) {address : Word} {start count : Nat}
    (haddress : normalise chip address = flashAt start) (hstart : start < 2 ^ 24)
    (hstop : start + count ≤ chip.flashSize.toNat) :
    chip.InFlash address count ∧ simFlashOffset address = start := by
  have hsize := hpart.flashSize
  have hin : chip.InFlash (flashAt start) count := flashAt_inFlash (by omega) hstart hstop
  have hoffset := simFlashOffset_flashAt hstart
  unfold normalise at haddress
  split at haddress
  · next halias =>
      have hsame : simFlashOffset address = start := by
        have hlow : (address ||| 0x08000000) &&& 0x00ffffff = address &&& 0x00ffffff := by
          rw [BitVec.and_or_distrib_right, (by decide : (0x08000000 : Word) &&& 0x00ffffff = 0)]
          exact BitVec.or_zero
        rw [← hoffset, ← haddress, simFlashOffset, simFlashOffset, hlow]
      refine ⟨⟨hin.small, ?_, by rw [hsame]; exact hstop⟩, hsame⟩
      unfold simIsFlash
      rw [decide_eq_true_eq]
      exact .inr halias.2
  · subst haddress
    exact ⟨hin, hoffset⟩

/-- The bytes of a range of the flash, each of them known. -/
theorem bytesFrom_inFlash {shelf : Shelf} {address : Word} {image : List Byte}
    (hin : chip.InFlash address image.length)
    (hbytes : ∀ i < image.length,
      shelf.flash (simFlashOffset (address + BitVec.ofNat 32 i)) = image.getD i 0) :
    bytesFrom (shelf.byteAt chip) address image.length = image := by
  apply List.ext_getElem (bytesFrom_length _ _ _)
  intro i hi hi'
  have hread := bytesFrom_getD (shelf.byteAt chip) address hi'
  rw [List.getD_eq_getElem _ _ hi] at hread
  have hbyte : chip.InFlash address (i + 1) := hin.mono hi'
  rw [hread, Shelf.byteAt, if_pos (hbyte.add one_pos).window, hbytes i hi',
    List.getD_eq_getElem _ _ hi']

/-- The bytes of an image are where it was put. -/
theorem bytesFrom_image {shelf : Shelf} {memory : Nat → Byte} {address : Word} {start : Nat}
    {image : List Byte} (hin : chip.InFlash address image.length)
    (hoffset : simFlashOffset address = start) (hflash : shelf.flash = overlay memory start image) :
    bytesFrom (shelf.byteAt chip) address image.length = image := by
  apply bytesFrom_inFlash hin
  intro i hi
  have hbyte : chip.InFlash address (i + 1) := hin.mono hi
  rw [hbyte.offset_add one_pos, hoffset, hflash, overlay_image _ _ _ hi]

theorem errandsOnShelf_append (first second : List Errand) (shelf : Shelf) :
    (errandsOnShelf chip (first ++ second) shelf).2 =
      (errandsOnShelf chip second (errandsOnShelf chip first shelf).2).2 := by
  induction first generalizing shelf with
  | nil => rfl
  | cons errand first ih => exact ih _

/-- Reading moves no byte of the flash. -/
theorem copied_flash (opts : Options) (shelf : Shelf) :
    (shelf.copied chip opts).2.flash = shelf.flash := by
  unfold Shelf.copied
  split
  · rfl
  · split <;> rfl

theorem reads_flash (reads : List Options) (shelf : Shelf) :
    (errandsOnShelf chip (reads.map .read) shelf).2.flash = shelf.flash := by
  induction reads generalizing shelf with
  | nil => rfl
  | cons opts reads ih => exact (ih _).trans (copied_flash opts shelf)

end RoundTrip

/-- An image flashed to a part, named or detected, is what `read` puts in a file
afterwards, through either mapping of the flash and whatever else is read before. -/
theorem flash_read_roundTrip (chip : Chip) (hchip : chip ∈ chips)
    (hsupported : chip.algo ≠ .unsupported) (state : Desk) (hsettled : state.Settled chip)
    (flash copy : Options) (source target : String) (image : List Byte) (reads : List Options)
    (hsource : flash.file = some source) (himage : state.files source = some image)
    (hnonempty : image ≠ []) (hflashes : flash.Names chip)
    (hholds : chip.Holds (flashAddress chip flash) image.length)
    (hreads : ∀ opts ∈ reads, (Errand.read opts).Suits chip)
    (htarget : copy.file = some target) (hcopies : copy.Names chip)
    (hgiven : copy.addressGiven = true ∧ copy.sizeGiven = true) (hsize : copy.size = image.length)
    (hsame : normalise chip copy.address = normalise chip (flashAddress chip flash)) :
    ∃ statuses final,
      (runErrands (.flash flash :: (reads.map .read ++ [.read copy]))).run desk state =
        (some statuses, final) ∧ final.files target = some image := by
  have hpart := ch32v0_of_mem hchip (algo_of_supported hsupported)
  have hflashSize := hpart.flashSize
  obtain ⟨haddress, hstop⟩ := normalise_inside hpart hholds.1 hholds.2
  let start := imageStart chip (flashAddress chip flash)
  have hpositive : 0 < image.length := List.length_pos_iff.mpr hnonempty
  have hsmall : start < 2 ^ 24 := by
    have hinside : start + image.length ≤ chip.flashSize.toNat := hstop
    omega
  obtain ⟨hin, hoffset⟩ := inFlash_of_normalise hpart (hsame.trans haddress) hsmall hstop
  have hrange : copy.NamesRange := .inr ⟨hgiven.1, hgiven.2, by omega⟩
  have hpartial : copy.wholeFlash = false := by
    unfold Options.wholeFlash
    rw [hgiven.1]
    rfl
  have hsuits : ∀ errand ∈ Errand.flash flash :: (reads.map .read ++ [.read copy]),
      errand.Suits chip := by
    intro errand herrand
    rw [List.mem_cons, List.mem_append, List.mem_map, List.mem_singleton] at herrand
    rcases herrand with rfl | ⟨opts, hopts, rfl⟩ | rfl
    · exact hflashes
    · exact hreads opts hopts
    · exact ⟨hcopies, fun _ _ => .inl (by rw [hsize]; exact hin)⟩
  obtain ⟨final, hrun, hview, -⟩ := runErrands_onShelf hchip _ hsuits state.shelf state hsettled rfl
  refine ⟨_, final, hrun, ?_⟩
  have hcontents : state.shelf.files source = some image := himage
  have hflashed : (state.shelf.flashed chip flash).2.flash =
      overlay state.shelf.flash start image := by
    have hnamed : ¬(flash.chip ≠ none ∧ chip.algo = .unsupported) := fun h => hsupported h.2
    simp only [Shelf.flashed, hsource, if_neg hnamed, hcontents, if_neg hnonempty, Shelf.imaged,
      if_neg hsupported, if_pos hholds]
    rfl
  let before := errandsOnShelf chip (reads.map .read) (state.shelf.flashed chip flash).2
  have hbefore : before.2.flash = overlay state.shelf.flash start image :=
    (reads_flash reads _).trans hflashed
  have hshelf : final.shelf = (before.2.copied chip copy).2 :=
    hview.trans (errandsOnShelf_append (reads.map .read) [.read copy] _)
  have hfiles : final.files = (before.2.copied chip copy).2.files := congrArg Shelf.files hshelf
  have hbytes := bytesFrom_image hin hoffset hbefore
  rw [hfiles]
  simp only [Shelf.copied, htarget, if_pos hrange, readRange, hpartial, Bool.false_eq_true,
    if_false, hsize, Function.update_self, hbytes]

/-- Flashed through the alias at zero and read back through the other mapping. -/
theorem flash_read_roundTrip_aliases : ∃ statuses final,
    (runErrands (.flash flashOptions :: ([].map .read ++ [.read readOptions]))).run desk deskStart =
      (some statuses, final) ∧ final.files "copy.bin" = some [0x13, 0x05, 0x10] :=
  flash_read_roundTrip ch32v003 (List.Mem.head _) (by decide) deskStart deskStart_settled
    flashOptions readOptions "image.bin" "copy.bin" [0x13, 0x05, 0x10] [] rfl rfl (by decide)
    (.inl rfl) (by decide)
    (fun _ h => absurd h List.not_mem_nil) rfl (.inr (by decide)) (by decide) rfl (by decide)

end WchLink
