import WchLink.Gdb.Effects

/-! # Breakpoint bookkeeping

The part's memories hold the program with `ebreak`s put over it. Through a
session the bytes underneath move by the debugger's own writes only, and when
it is over the memories hold them again everywhere.
-/

namespace WchLink

open Bytes Interaction Patching

/-! ## Patches over the memories -/

/-- The bytes of a range, as cells of the part's memories. -/
def Place.cells (place : Place) (count : Nat) : Set (MemoryRegion × Nat) :=
  { cell | cell.1 = place.region ∧ place.offset ≤ cell.2 ∧ cell.2 < place.offset + count }

/-- Bytes put at a place. -/
def Place.patch (place : Place) (bytes : List Byte) : Patch (MemoryRegion × Nat) Byte where
  cells := place.cells bytes.length
  value := fun cell => bytes.getD (cell.2 - place.offset) 0

namespace Contents

def cell (contents : Contents) (cell : MemoryRegion × Nat) : Byte :=
  contents.bytes cell.1 cell.2

theorem ext_cell {first second : Contents} (hchip : first.chip = second.chip)
    (hcell : first.cell = second.cell) : first = second := by
  obtain ⟨chip, bytes⟩ := first
  obtain ⟨chip', bytes'⟩ := second
  cases hchip
  refine congrArg (Contents.mk chip) ?_
  ext region offset : 2
  exact congrFun hcell (region, offset)

theorem read_congr {first second : Contents} {place : Place} {count : Nat}
    (h : Set.EqOn first.cell second.cell (place.cells count)) :
    first.read place count = second.read place count := by
  apply List.map_congr_left
  intro i hi
  have hlt := List.mem_range.mp hi
  exact @h (place.region, place.offset + i) ⟨rfl, Nat.le_add_right _ _, Nat.add_lt_add_left hlt _⟩

theorem getD_read (contents : Contents) (place : Place) {count i : Nat} (hi : i < count) :
    (contents.read place count).getD i 0 = contents.cell (place.region, place.offset + i) := by
  rw [List.getD_eq_getElem _ _ (by rwa [length_read])]
  simp only [read, List.getElem_map, List.getElem_range]
  rfl

theorem patch_sets (contents : Contents) (place : Place) (bytes : List Byte) :
    (place.patch bytes).Sets contents.cell (contents.patch place bytes).cell := by
  constructor
  · rintro ⟨region, offset⟩ ⟨hregion, hrange⟩
    dsimp only at hregion hrange
    subst hregion
    simp only [cell, patch, Function.update_self, overlay]
    exact if_pos hrange
  · rintro ⟨region, offset⟩ hout
    by_cases hregion : region = place.region
    · subst hregion
      simp only [cell, patch, Function.update_self, overlay]
      exact if_neg fun hrange => hout ⟨rfl, hrange⟩
    · simp only [cell, patch, Function.update_of_ne hregion]

/-- The bytes of another memory put in their place. -/
theorem patch_restores (contents underlying : Contents) (place : Place) (count : Nat) :
    (Patch.mk (place.cells count) underlying.cell).Sets contents.cell
      (contents.patch place (underlying.read place count)).cell := by
  have hsets := contents.patch_sets place (underlying.read place count)
  have hcells : (place.patch (underlying.read place count)).cells = place.cells count :=
    congrArg place.cells (length_read _ _ _)
  refine ⟨fun a ha => ?_, fun a ha => hsets.outside a (hcells ▸ ha)⟩
  rw [hsets.inside a (hcells ▸ ha)]
  obtain ⟨region, offset⟩ := a
  obtain ⟨hregion, hfirst, hlast⟩ := ha
  dsimp only at hregion hfirst hlast
  subst hregion
  show (underlying.read place count).getD (offset - place.offset) 0 = _
  rw [getD_read underlying place (by omega), Nat.add_sub_cancel' hfirst]

end Contents

/-! ## The table as patches -/

/-- The bytes an active breakpoint shows. -/
def GdbBreakpoint.patch (chip : Chip) (breakpoint : GdbBreakpoint) :
    Patch (MemoryRegion × Nat) Byte :=
  (chip.place breakpoint.address).patch
    ((gdbReplacement breakpoint.kind).take breakpoint.kind.toNat)

theorem GdbBreakpoint.patch_cells (chip : Chip) {breakpoint : GdbBreakpoint}
    (hwidth : breakpoint.kind.toNat = 2 ∨ breakpoint.kind.toNat = 4) :
    (breakpoint.patch chip).cells =
      (chip.place breakpoint.address).cells breakpoint.kind.toNat :=
  congrArg (chip.place breakpoint.address).cells (length_replacement_of_width hwidth)

namespace Debuggee

/-- The active breakpoints, slot by slot. -/
def patches (debuggee : Debuggee) (slot : Fin gdbMaxBreakpoints) :
    Option (Patch (MemoryRegion × Nat) Byte) :=
  if (debuggee.breakpoints slot).used then
    some ((debuggee.breakpoints slot).patch debuggee.contents.chip)
  else
    none

variable {debuggee : Debuggee} {slot : Fin gdbMaxBreakpoints}

theorem patches_used (hused : (debuggee.breakpoints slot).used = true) :
    debuggee.patches slot =
      some ((debuggee.breakpoints slot).patch debuggee.contents.chip) := if_pos hused

theorem patches_free (hfree : (debuggee.breakpoints slot).used = false) :
    debuggee.patches slot = none := if_neg (by rw [hfree]; exact Bool.false_ne_true)

theorem patches_update {contents : Contents} (hchip : contents.chip = debuggee.contents.chip)
    (slot : Fin gdbMaxBreakpoints) (breakpoint : GdbBreakpoint) :
    (Debuggee.mk contents (Function.update debuggee.breakpoints slot breakpoint)).patches =
      Function.update debuggee.patches slot
        (if breakpoint.used then some (breakpoint.patch debuggee.contents.chip) else none) := by
  ext other : 1
  by_cases hsame : other = slot
  · subst hsame
    simp [patches, hchip]
  · simp [patches, hchip, Function.update_of_ne hsame]

/-- What an accepted insertion leaves. -/
def taken (debuggee : Debuggee) (slot : Fin gdbMaxBreakpoints) (address kind : Word) : Debuggee where
  contents := debuggee.contents.patch (debuggee.contents.chip.place address)
    ((gdbReplacement kind).take kind.toNat)
  breakpoints := Function.update debuggee.breakpoints slot
    { debuggee.saving slot address kind with used := true, address, kind }

/-- What an insertion leaves whose bytes were saved and not replaced. -/
def refused (debuggee : Debuggee) (slot : Fin gdbMaxBreakpoints) (address kind : Word) :
    Debuggee where
  contents := debuggee.contents
  breakpoints := Function.update debuggee.breakpoints slot (debuggee.saving slot address kind)

/-- The three ways an insertion ends. -/
theorem insert_cases (debuggee : Debuggee) (address kind : Word) :
    (debuggee.insert address kind).2 = debuggee ∨
      ¬BadKind address kind ∧ ∃ slot, (debuggee.breakpoints slot).used = false ∧
        ((debuggee.insert address kind).2 = debuggee.taken slot address kind ∨
          (debuggee.insert address kind).2 = debuggee.refused slot address kind) := by
  unfold insert
  by_cases hkind : BadKind address kind
  · rw [if_pos hkind]
    exact .inl rfl
  · rw [if_neg hkind]
    split
    · exact .inl rfl
    · next slot hslot =>
        have hfree : (debuggee.breakpoints slot).used = false := by
          simpa using List.find?_some hslot
        refine .inr ⟨hkind, slot, hfree, ?_⟩
        split
        · exact .inl rfl
        · exact .inr rfl

/-- The patch of a breakpoint about to be put in a slot. -/
def placing (debuggee : Debuggee) (slot : Fin gdbMaxBreakpoints) (address kind : Word) :
    Patch (MemoryRegion × Nat) Byte :=
  GdbBreakpoint.patch debuggee.contents.chip
    { debuggee.saving slot address kind with used := true, address, kind }

theorem patches_taken (debuggee : Debuggee) (slot : Fin gdbMaxBreakpoints) (address kind : Word) :
    (debuggee.taken slot address kind).patches =
      Function.update debuggee.patches slot (some (debuggee.placing slot address kind)) :=
  patches_update rfl slot { debuggee.saving slot address kind with used := true, address, kind }

theorem patches_refused (hfree : (debuggee.breakpoints slot).used = false) (address kind : Word) :
    (debuggee.refused slot address kind).patches = debuggee.patches := by
  have hstill : (debuggee.saving slot address kind).used = false := hfree
  rw [refused, patches_update rfl, hstill, if_neg Bool.false_ne_true, ← patches_free hfree,
    Function.update_eq_self]

/-- The table's breakpoints do not overlap in the part's memories. -/
def NoOverlap (debuggee : Debuggee) : Prop := Apart debuggee.patches

/-- The memories are `underlying` with the active breakpoints put over it, and
what lies under each of them is saved. -/
structure Balances (debuggee : Debuggee) (underlying : Contents) : Prop where
  sound : debuggee.Sound
  chip : underlying.chip = debuggee.contents.chip
  shows : Shows underlying.cell debuggee.contents.cell debuggee.patches
  apart : debuggee.NoOverlap
  saved : ∀ slot, (debuggee.breakpoints slot).used = true →
    (debuggee.breakpoints slot).original.take (debuggee.breakpoints slot).kind.toNat =
      underlying.read (underlying.chip.place (debuggee.breakpoints slot).address)
        (debuggee.breakpoints slot).kind.toNat

namespace Balances

variable {underlying : Contents}

/-- A fresh table has nothing over the memories. -/
theorem start (hsound : debuggee.Sound)
    (hfree : ∀ slot, (debuggee.breakpoints slot).used = false) :
    debuggee.Balances debuggee.contents where
  sound := hsound
  chip := rfl
  shows := .start _ _ fun slot => patches_free (hfree slot)
  apart := by
    intro slot patch hpatch
    rw [patches_free (hfree slot)] at hpatch
    cases hpatch
  saved := by
    intro slot hused
    rw [hfree slot] at hused
    cases hused

/-- With the table empty nothing is left of the breakpoints. -/
theorem contents_eq (h : debuggee.Balances underlying)
    (hfree : ∀ slot, (debuggee.breakpoints slot).used = false) :
    debuggee.contents = underlying :=
  Contents.ext_cell h.chip.symm (h.shows.of_empty fun slot => patches_free (hfree slot))

/-- A slot given back. -/
theorem release (h : debuggee.Balances underlying)
    (hused : (debuggee.breakpoints slot).used = true) :
    (debuggee.release slot).Balances underlying := by
  have hcells := GdbBreakpoint.patch_cells debuggee.contents.chip (h.sound.active slot hused).width
  have hpatches : (debuggee.release slot).patches = Function.update debuggee.patches slot none :=
    patches_update rfl slot _
  have hsets := debuggee.contents.patch_restores underlying
    (debuggee.contents.chip.place (debuggee.breakpoints slot).address)
    (debuggee.breakpoints slot).kind.toNat
  have hsaved := h.saved slot hused
  rw [h.chip] at hsaved
  rw [← hsaved, ← hcells] at hsets
  refine ⟨h.sound.release slot, h.chip, ?_, ?_, fun other hother => ?_⟩
  · rw [hpatches]
    exact h.shows.remove (patches_used hused) (h.apart slot _ (patches_used hused)) hsets
  · rw [NoOverlap, hpatches]
    exact h.apart.remove
  · have hne : other ≠ slot := by
      rintro rfl
      simp [Debuggee.release] at hother
    have hsame : (debuggee.release slot).breakpoints other = debuggee.breakpoints other :=
      Function.update_of_ne hne ..
    rw [hsame] at hother ⊢
    exact h.saved other hother

theorem remove (h : debuggee.Balances underlying) (address kind : Word) :
    (debuggee.remove address kind).2.Balances underlying := by
  unfold Debuggee.remove
  split
  · exact h
  · next slot hslot =>
      have hwanted := List.find?_some hslot
      rw [Bool.and_eq_true, Bool.and_eq_true] at hwanted
      exact h.release hwanted.1.1

theorem clear (h : debuggee.Balances underlying) (slot : Fin gdbMaxBreakpoints) :
    (debuggee.clear slot).Balances underlying := by
  unfold Debuggee.clear
  split
  · next hused => exact h.release hused
  · exact h

/-- A free slot taken for a breakpoint. -/
theorem taken (h : debuggee.Balances underlying) {address kind : Word}
    (hkind : ¬BadKind address kind) (hfree : (debuggee.breakpoints slot).used = false)
    (hsound : (debuggee.taken slot address kind).Sound)
    (hapart : (debuggee.taken slot address kind).NoOverlap) :
    (debuggee.taken slot address kind).Balances underlying := by
  have hpatches := debuggee.patches_taken slot address kind
  have hcells : (debuggee.placing slot address kind).cells =
      (debuggee.contents.chip.place address).cells kind.toNat :=
    GdbBreakpoint.patch_cells debuggee.contents.chip (not_badKind hkind).1
  have hclear : Clear debuggee.patches slot (debuggee.placing slot address kind).cells := by
    intro other patch hne hother a ha hin
    rw [NoOverlap, hpatches] at hapart
    exact hapart other patch (by rwa [Function.update_of_ne hne]) slot _ hne.symm
      (Function.update_self ..) a hin ha
  refine ⟨hsound, h.chip, ?_, hapart, fun other hother => ?_⟩
  · rw [hpatches]
    exact h.shows.insert (patches_free hfree) hclear (debuggee.contents.patch_sets _ _)
  · by_cases hsame : other = slot
    · subst hsame
      -- no other breakpoint is there, so the bytes saved are those underneath
      have hsaved : (debuggee.saving other address kind).original.take kind.toNat =
          debuggee.contents.read (debuggee.contents.chip.place address) kind.toNat :=
        List.take_left' (Contents.length_read _ _ _)
      simp only [Debuggee.taken, Function.update_self]
      rw [hsaved, h.chip]
      apply Contents.read_congr
      apply h.shows.of_clear
      intro i patch hpatch
      rw [hcells] at hclear
      refine hclear i patch ?_ hpatch
      rintro rfl
      rw [patches_free hfree] at hpatch
      cases hpatch
    · simp only [Debuggee.taken, Function.update_of_ne hsame] at hother ⊢
      exact h.saved other hother

/-- A free slot with other bytes in it. -/
theorem refused (h : debuggee.Balances underlying) {address kind : Word}
    (hfree : (debuggee.breakpoints slot).used = false)
    (hsound : (debuggee.refused slot address kind).Sound) :
    (debuggee.refused slot address kind).Balances underlying := by
  have hpatches := patches_refused hfree address kind
  refine ⟨hsound, h.chip, ?_, ?_, fun other hother => ?_⟩
  · rw [hpatches]
    exact h.shows
  · rw [NoOverlap, hpatches]
    exact h.apart
  · have hne : other ≠ slot := by
      rintro rfl
      simp [Debuggee.refused, saving, hfree] at hother
    simp only [Debuggee.refused, Function.update_of_ne hne] at hother ⊢
    exact h.saved other hother

/-- An insertion, refused or not, that leaves no overlap. -/
theorem insert (h : debuggee.Balances underlying) {address kind : Word}
    (hsound : (debuggee.insert address kind).2.Sound)
    (hapart : (debuggee.insert address kind).2.NoOverlap) :
    (debuggee.insert address kind).2.Balances underlying := by
  rcases debuggee.insert_cases address kind with
    hsame | ⟨hkind, slot, hfree, htaken | hrefused⟩
  · rw [hsame]
    exact h
  · rw [htaken] at hsound hapart ⊢
    exact h.taken hkind hfree hsound hapart
  · rw [hrefused] at hsound ⊢
    exact h.refused hfree hsound

theorem clearAll (h : debuggee.Balances underlying) : debuggee.clearAll.Balances underlying := by
  unfold Debuggee.clearAll
  induction List.finRange gdbMaxBreakpoints generalizing debuggee with
  | nil => exact h
  | cons slot rest ih => exact ih (h.clear slot)

end Balances

theorem used_clear {other : Fin gdbMaxBreakpoints}
    (h : ((debuggee.clear slot).breakpoints other).used = true) :
    other ≠ slot ∧ (debuggee.breakpoints other).used = true := by
  unfold clear at h
  by_cases hused : (debuggee.breakpoints slot).used = true
  · rw [if_pos hused] at h
    by_cases hsame : other = slot
    · subst hsame
      simp [release] at h
    · simp only [release, Function.update_of_ne hsame] at h
      exact ⟨hsame, h⟩
  · rw [if_neg hused] at h
    refine ⟨?_, h⟩
    rintro rfl
    exact hused h

/-- The clearing leaves every slot free. -/
theorem clearAll_free (debuggee : Debuggee) (slot : Fin gdbMaxBreakpoints) :
    (debuggee.clearAll.breakpoints slot).used = false := by
  have hpass (slots : List (Fin gdbMaxBreakpoints)) (debuggee : Debuggee)
      (h : ((slots.foldl clear debuggee).breakpoints slot).used = true) :
      slot ∉ slots ∧ (debuggee.breakpoints slot).used = true := by
    induction slots generalizing debuggee with
    | nil => exact ⟨List.not_mem_nil, h⟩
    | cons first rest ih =>
        obtain ⟨hrest, hused⟩ := ih (debuggee.clear first) h
        obtain ⟨hne, hused⟩ := used_clear hused
        exact ⟨List.not_mem_cons_of_ne_of_not_mem hne hrest, hused⟩
  rw [Bool.eq_false_iff]
  intro hused
  exact (hpass _ debuggee hused).1 (List.mem_finRange slot)

end Debuggee

/-! ## Writes to RAM -/

namespace Contents

theorem patch_nil (contents : Contents) (place : Place) : contents.patch place [] = contents := by
  unfold patch
  rw [overlay_nil, Function.update_eq_self]

theorem patch_append (contents : Contents) (place : Place) (first second : List Byte) :
    (contents.patch place first).patch ⟨place.region, place.offset + first.length⟩ second =
      contents.patch place (first ++ second) := by
  unfold patch
  dsimp only
  rw [Function.update_self, Function.update_idem, overlay_append]

/-- What an `M` packet writes. -/
def written (contents : Contents) (packet : List Byte) : Contents :=
  match parseMemoryWrite packet with
  | none => contents
  | some (address, bytes) => contents.patch (contents.chip.place address) bytes

@[simp] theorem written_chip (contents : Contents) (packet : List Byte) :
    (contents.written packet).chip = contents.chip := by
  unfold written
  split
  · rfl
  · rfl

end Contents

theorem storeBytes_byte (memory : Nat → Byte) (offset : Nat) (byte : Byte) :
    storeBytes memory offset 1 (byte.setWidth 32) = overlay memory offset [byte] := by
  ext a : 1
  unfold storeBytes overlay
  rw [List.length_singleton]
  by_cases hin : offset ≤ a ∧ a < offset + 1
  · have hsame : a - offset = 0 := by omega
    rw [if_pos hin, if_pos hin, hsame, byteOf_setWidth]
    rfl
  · rw [if_neg hin, if_neg hin]

/-- Byte stores to RAM. -/
theorem SimTarget.storeEach_contents {target : SimTarget} {address : Word} {bytes : List Byte}
    (h : target.chip.InRam address bytes.length) (hquiet : target.Quiet) :
    (target.storeEach address bytes).Quiet ∧
      (target.storeEach address bytes).contents =
        target.contents.patch (target.chip.place address) bytes := by
  induction bytes generalizing target address with
  | nil => exact ⟨hquiet, (Contents.patch_nil _ _).symm⟩
  | cons byte rest ih =>
      rw [List.length_cons, Nat.add_comm] at h
      have hfirst : target.chip.InRam address 1 := h.mono (Nat.le_add_right 1 _)
      have hrest : target.chip.InRam (address + 1) rest.length := h.add
      have hbytes := storeBytes_byte target.ram (simRamOffset target.chip address) byte
      obtain ⟨hquiet', hstore⟩ := @store_contents _ _ .byte _ [byte] hfirst hbytes hquiet
      have hchip : (target.store .byte address (byte.setWidth 32)).chip = target.chip :=
        congrArg Contents.chip hstore
      have hplace : target.chip.place (address + 1) =
          ⟨(target.chip.place address).region, (target.chip.place address).offset + 1⟩ :=
        by rw [h.place, hrest.place, ← h.offset_add]; rfl
      obtain ⟨hquiet'', hcontents⟩ := ih (hchip.symm ▸ hrest) hquiet'
      refine ⟨hquiet'', hcontents.trans ?_⟩
      rw [hstore, hchip, hplace]
      exact target.contents.patch_append (target.chip.place address) [byte] rest

theorem gdbWriteBytes_contents {link : Link} (hlink : link.Usable) {contents : Contents}
    {address : Word} {bytes : List Byte} (h : contents.chip.InRam address bytes.length) :
    OnContents (gdbWriteBytes link address bytes).run contents (.ok ())
      (contents.patch (contents.chip.place address) bytes) := by
  apply onContents_of_onTarget
  intro target hquiet hview
  subst hview
  obtain ⟨hquiet', hcontents⟩ := SimTarget.storeEach_contents h hquiet
  exact ⟨_, gdbWriteBytes_drives hlink address bytes target, hquiet', hcontents⟩

/-! ## Packets -/

namespace Debuggee

/-- No active breakpoint has a byte of the range. -/
def Clears (debuggee : Debuggee) (place : Place) (count : Nat) : Prop :=
  ∀ slot patch, debuggee.patches slot = some patch → patch.Avoids (place.cells count)

/-- What an `M` packet makes of the memories. -/
def handleMWrite (debuggee : Debuggee) (packet : List Byte) : Debuggee :=
  { debuggee with contents := debuggee.contents.written packet }

/-- An `M` packet that is refused or writes to RAM outside the active
breakpoints. -/
def TakesM (debuggee : Debuggee) (packet : List Byte) : Prop :=
  ∀ address bytes, parseMemoryWrite packet = some (address, bytes) →
    MemoryRegion.ram.Holds debuggee.contents.chip address bytes.length ∧
      debuggee.Clears (debuggee.contents.chip.place address) bytes.length

theorem Balances.handleMWrite {debuggee : Debuggee} {underlying : Contents}
    (h : debuggee.Balances underlying) {packet : List Byte} (htakes : debuggee.TakesM packet) :
    (debuggee.handleMWrite packet).Balances (underlying.written packet) := by
  unfold Debuggee.handleMWrite Contents.written
  cases hparse : parseMemoryWrite packet with
  | none => exact h
  | some write =>
      obtain ⟨address, bytes⟩ := write
      obtain ⟨-, hclear⟩ := htakes address bytes hparse
      have hsets := underlying.patch_sets (debuggee.contents.chip.place address) bytes
      have havoids : ∀ slot patch, debuggee.patches slot = some patch →
          patch.Avoids ((debuggee.contents.chip.place address).patch bytes).cells := hclear
      refine ⟨⟨h.sound.chip, h.sound.saved, h.sound.active⟩, h.chip, ?_, h.apart,
        fun slot hused => ?_⟩
      · rw [h.chip]
        exact h.shows.write havoids (debuggee.contents.patch_sets _ _) hsets
      · -- the bytes saved for a breakpoint are not among those written
        refine (h.saved slot hused).trans ?_
        dsimp only [Contents.patch_chip]
        rw [h.chip]
        apply Contents.read_congr
        intro a ha
        refine (hsets.outside a ?_).symm
        rw [← GdbBreakpoint.patch_cells debuggee.contents.chip (h.sound.active slot hused).width] at ha
        exact havoids slot _ (patches_used hused) a ha

/-- What a packet makes of the memories and the table. -/
def handlePacket (debuggee : Debuggee) (packet : List Byte) : Debuggee :=
  if packet.getD 0 0 = ascii 'M' then debuggee.handleMWrite packet
  else if packet.getD 0 0 = ascii 'Z' ∨ packet.getD 0 0 = ascii 'z' then debuggee.handleZ packet
  else if packet.getD 0 0 = ascii 'D' ∨ packet.getD 0 0 = ascii 'k' then debuggee.clearAll
  else debuggee

/-- The packets of a debugger that keeps to breakpoints in the part's memories,
none over another, and to RAM outside them for its writes. -/
inductive Admits (debuggee : Debuggee) (packet : List Byte) : Prop
  | registers : packet.getD 0 0 = ascii 'g' ∨ packet.getD 0 0 = ascii 'p' ∨
      packet.getD 0 0 = ascii 'P' → Admits debuggee packet
  | read : packet.getD 0 0 = ascii 'm' → Admits debuggee packet
  | write : packet.getD 0 0 = ascii 'M' → debuggee.TakesM packet → Admits debuggee packet
  | breakpoint : packet.getD 0 0 = ascii 'Z' ∨ packet.getD 0 0 = ascii 'z' →
      debuggee.contents.chip.TakesZ packet → (debuggee.handleZ packet).NoOverlap →
      Admits debuggee packet
  | leave : packet.getD 0 0 = ascii 'D' ∨ packet.getD 0 0 = ascii 'k' → Admits debuggee packet

end Debuggee

/-- What a packet makes of the memory under the breakpoints. -/
def Contents.underneath (underlying : Contents) (packet : List Byte) : Contents :=
  if packet.getD 0 0 = ascii 'M' then underlying.written packet else underlying

namespace Debuggee

variable {debuggee : Debuggee} {underlying : Contents} {packet : List Byte}

theorem Balances.handleZ (h : debuggee.Balances underlying)
    (htakes : debuggee.contents.chip.TakesZ packet)
    (hapart : (debuggee.handleZ packet).NoOverlap) :
    (debuggee.handleZ packet).Balances underlying := by
  have hsound := h.sound.handleZ htakes
  unfold Debuggee.handleZ at hsound hapart ⊢
  cases hparse : parseBreakpoint packet with
  | none => exact h
  | some request =>
      obtain ⟨address, kind⟩ := request
      simp only [hparse] at hsound hapart ⊢
      by_cases hcommand : packet.getD 0 0 = ascii 'Z'
      · rw [if_pos hcommand] at hsound hapart ⊢
        exact h.insert hsound hapart
      · rw [if_neg hcommand]
        exact h.remove address kind

/-- One packet keeps the books. -/
theorem Balances.handlePacket (h : debuggee.Balances underlying)
    (hadmits : debuggee.Admits packet) :
    (debuggee.handlePacket packet).Balances (underlying.underneath packet) := by
  unfold Debuggee.handlePacket Contents.underneath
  cases hadmits with
  | registers hcommand =>
      rcases hcommand with hcommand | hcommand | hcommand <;>
        simpa +decide only [hcommand, ↓reduceIte] using h
  | read hcommand => simpa +decide only [hcommand, ↓reduceIte] using h
  | write hcommand htakes =>
      rw [if_pos hcommand, if_pos hcommand]
      exact h.handleMWrite htakes
  | breakpoint hcommand htakes hapart =>
      have hbooks := h.handleZ htakes hapart
      rcases hcommand with hcommand | hcommand <;>
        simpa +decide only [hcommand, ↓reduceIte] using hbooks
  | leave hcommand =>
      have hbooks := h.clearAll
      rcases hcommand with hcommand | hcommand <;>
        simpa +decide only [hcommand, ↓reduceIte] using hbooks

end Debuggee

/-! ## Handlers -/

section Handlers

variable {σ : Type} {host : Handler Host σ} {sim : σ → Sim} {link : Link}

theorem Still.quit (debuggee : Debuggee) :
    Still host sim link (modify fun conn => { conn with quit := true }) debuggee := by
  intro conn state hshown result conn' final hreturns
  obtain ⟨hresult, rfl⟩ := Program.returns_done_iff.mp hreturns
  cases hresult
  exact ⟨hshown.link, hshown.chip, hshown.quiet, hshown.debuggee⟩

variable (hhost : Carries host sim) (hlink : link.Usable) {before : Debuggee}
  (hsound : before.Sound)

include hhost hlink hsound

theorem gdbHandleMWrite_leaves (fuel : Nat) {packet : List Byte} (htakes : before.TakesM packet) :
    Leaves host sim link (gdbHandleMWrite fuel packet) before () (before.handleMWrite packet) := by
  unfold gdbHandleMWrite
  cases hparse : parseMemoryWrite packet with
  | none =>
      have hsame : before.handleMWrite packet = before := by
        rw [Debuggee.handleMWrite, Contents.written, hparse]
      rw [hsame]
      exact .sendText hhost fuel _
  | some write =>
      obtain ⟨address, bytes⟩ := write
      obtain ⟨hram, -⟩ := htakes address bytes hparse
      have hin := hram.inRam (mapped_of_mem hsound.chip)
      have hafter : (before.handleMWrite packet).contents =
          before.contents.patch (before.contents.chip.place address) bytes := by
        rw [Debuggee.handleMWrite, Contents.written, hparse]
      have hwrites : Leaves host sim link (onTarget fun link => gdbWriteBytes link address bytes)
          before (.ok ()) (before.handleMWrite packet) := by
        refine .of_drives (fun conn hconn hchip htable => ?_) (before.contents.written_chip packet)
        have hsame : conn.tabled (before.handleMWrite packet) = conn := by
          rw [GdbConn.tabled, Debuggee.handleMWrite, ← htable]
        rw [hsame, hafter]
        exact hhost.onTarget_drives (gdbWriteBytes_contents (hconn ▸ hlink) hin)
      exact hwrites.bind (.sendText hhost fuel _)

theorem gdbDetach_leaves (fuel : Nat) :
    Leaves host sim link (gdbDetach fuel) before () before.clearAll := by
  refine (gdbBreakpointsClear_leaves hhost hlink hsound).bind (Still.leaves ?_)
  refine (gdbResume_still hhost hlink _).bind fun _ => ?_
  exact (Still.sendText hhost fuel _).bind fun _ => .quit _

theorem gdbKill_leaves : Leaves host sim link gdbKill before () before.clearAll :=
  (gdbBreakpointsClear_leaves hhost hlink hsound).bind (Still.quit _).leaves

/-- What a packet does to the part is what the books say of it. -/
theorem gdbHandlePacket_leaves (fuel : Nat) {packet : List Byte} (hadmits : before.Admits packet) :
    ∃ continues, Leaves host sim link (gdbHandlePacket fuel packet) before continues
      (before.handlePacket packet) := by
  have hthen {program : Gdb Unit} {after : Debuggee} (continues : Bool)
      (h : Leaves host sim link program before () after) :
      Leaves host sim link (program >>= fun _ => pure continues) before continues after :=
    h.bind (.done continues)
  have hP := hthen true (gdbHandleP_still hhost hlink before fuel packet).leaves
  unfold gdbHandlePacket Debuggee.handlePacket
  cases hadmits with
  | registers hcommand =>
      refine ⟨true, ?_⟩
      rcases hcommand with hcommand | hcommand | hcommand
      · simp +decide only [hcommand, ↓reduceIte]
        exact hthen true (gdbHandleG_still hhost hlink before fuel).leaves
      · simp +decide only [hcommand, ↓reduceIte]
        exact hP
      · simp +decide only [hcommand, ↓reduceIte]
        exact hP
  | read hcommand =>
      simp +decide only [hcommand, ↓reduceIte]
      exact ⟨true, hthen true (gdbHandleM_still hhost hlink before fuel packet).leaves⟩
  | write hcommand htakes =>
      simp +decide only [hcommand, ↓reduceIte]
      exact ⟨true, hthen true (gdbHandleMWrite_leaves hhost hlink hsound fuel htakes)⟩
  | breakpoint hcommand htakes _ =>
      have hZ := hthen true (gdbHandleZ_leaves hhost hlink hsound fuel htakes)
      refine ⟨true, ?_⟩
      rcases hcommand with hcommand | hcommand
      · simp +decide only [hcommand, ↓reduceIte]
        exact hZ
      · simp +decide only [hcommand, ↓reduceIte]
        exact hZ
  | leave hcommand =>
      refine ⟨false, ?_⟩
      rcases hcommand with hcommand | hcommand
      · simp +decide only [hcommand, ↓reduceIte]
        exact hthen false (gdbDetach_leaves hhost hlink hsound fuel)
      · simp +decide only [hcommand, ↓reduceIte]
        exact hthen false (gdbKill_leaves hhost hlink hsound)

end Handlers

/-! ## Sessions -/

section Sessions

variable {σ : Type} {host : Handler Host σ} {sim : σ → Sim} {link : Link}

/-- Sessions of such packets, whatever the debugger says meanwhile. -/
def bookkeeping (sim : σ → Sim) : TurnCondition σ where
  admits := fun packet conn state => (conn.debuggee (sim state).target.contents).Admits packet
  replies := fun _ _ _ _ => True

variable (hhost : Carries host sim)

include hhost

/-- Receiving a packet, or failing to, is nothing to the part. -/
theorem Shown.of_received {conn : GdbConn} {state final : σ} {debuggee : Debuggee}
    (h : Shown sim link conn state debuggee) {fuel : Nat} {received : Option (List Byte)}
    (hreceived : Program.Returns host.world (gdbRecvPacket fuel) state received final) :
    Shown sim link conn final debuggee := by
  have hmem : (gdbRecvPacket fuel).Keeps host.world (fun _ _ => True)
      fun before after => sim after = sim before :=
    gdbRecvPacket_mem hhost.hasSocket (fun _ _ => trivial) fuel
  have haside : sim final = sim state := hreceived.of_wp (hmem state)
  exact ⟨h.link, h.chip, haside ▸ h.quiet, haside ▸ h.debuggee⟩

variable (hlink : link.Usable)

include hlink

theorem Turn.balances {head next : LoopHead σ} {packet : List Byte}
    (h : Turn host.world (bookkeeping sim) head packet next) {debuggee : Debuggee}
    {underlying : Contents} (hshown : Shown sim link head.conn head.state debuggee)
    (hbooks : debuggee.Balances underlying) :
    Shown sim link next.conn next.state (debuggee.handlePacket packet) ∧
      (debuggee.handlePacket packet).Balances (underlying.underneath packet) := by
  cases h with
  | @mk fuel packet payload conn conn' state middle final continues _ hreceived hadmits hhandled =>
      have hmiddle := hshown.of_received hhost hreceived
      have hadmits : debuggee.Admits (fillPacket packet payload) := hmiddle.debuggee ▸ hadmits
      obtain ⟨value, hleaves⟩ := gdbHandlePacket_leaves hhost hlink hbooks.sound fuel hadmits
      have hreturns := hhandled.mono ((bookkeeping sim).during_le _)
      exact ⟨(hleaves conn middle hmiddle continues conn' final hreturns).2,
        hbooks.handlePacket hadmits⟩

/-- The books balance after every packet. -/
theorem Serves.balances {start head : LoopHead σ} {packets : List (List Byte)}
    (h : Serves host.world (bookkeeping sim) start packets head) {debuggee : Debuggee}
    {underlying : Contents} (hshown : Shown sim link start.conn start.state debuggee)
    (hbooks : debuggee.Balances underlying) :
    Shown sim link head.conn head.state (packets.foldl .handlePacket debuggee) ∧
      (packets.foldl .handlePacket debuggee).Balances (packets.foldl .underneath underlying) := by
  induction h with
  | refl => exact ⟨hshown, hbooks⟩
  | turn _ hturn ih =>
      rw [List.foldl_append, List.foldl_append]
      exact hturn.balances hhost hlink ih.1 ih.2

/-- With the table cleared the memories are those underneath. -/
theorem gdbBreakpointsClear_balances {conn conn' : GdbConn} {state final : σ}
    {debuggee : Debuggee} {underlying : Contents} (hshown : Shown sim link conn state debuggee)
    (hbooks : debuggee.Balances underlying)
    (h : Program.Returns host.world (gdbBreakpointsClear.run conn) state ((), conn') final) :
    (sim final).target.contents = underlying := by
  have hleaves := gdbBreakpointsClear_leaves hhost hlink hbooks.sound
  have hcleared := (hleaves conn state hshown () conn' final h).2
  rw [← hbooks.clearAll.contents_eq debuggee.clearAll_free, ← hcleared.debuggee]
  rfl

end Sessions

/-- One breakpoint overlaps nothing. -/
theorem Debuggee.noOverlap_insert {debuggee : Debuggee}
    (hfree : ∀ slot, (debuggee.breakpoints slot).used = false) (address kind : Word) :
    (debuggee.insert address kind).2.NoOverlap := by
  have hnone (slot : Fin gdbMaxBreakpoints) : debuggee.patches slot = none :=
    patches_free (hfree slot)
  have hempty : debuggee.NoOverlap := fun slot patch hpatch => by
    rw [hnone slot] at hpatch
    cases hpatch
  rcases debuggee.insert_cases address kind with hsame | ⟨-, slot, -, htaken | hrefused⟩
  · rw [hsame]
    exact hempty
  · rw [htaken, NoOverlap, patches_taken]
    apply hempty.insert
    intro other patch _ hpatch
    rw [hnone other] at hpatch
    cases hpatch
  · rw [hrefused, NoOverlap, patches_refused (hfree slot)]
    exact hempty

/-- A debugger that sets a breakpoint in RAM and is gone. -/
def insertingBench : Bench :=
  ⟨simSelected ch32v003, gdbFrame (text "Z0,20000000,2") ++ [ascii '+'], []⟩

def insertingPacket : List Byte := fillPacket [] (text "Z0,20000000,2")

/-- Its packet handled. -/
def insertingRun : Option (Bool × GdbConn) × Bench :=
  ((gdbHandlePacket 40 insertingPacket).run (.fresh wlLinkeAttachTransport ch32v003)).run bench
    ((gdbRecvPacket 40).run bench insertingBench).2

theorem insertingPacket_admitted (contents : Contents) (hchip : contents.chip = ch32v003) :
    ((GdbConn.fresh wlLinkeAttachTransport ch32v003).debuggee contents).Admits insertingPacket := by
  have hparse : parseBreakpoint insertingPacket = some (0x20000000, 2) := by decide +kernel
  refine .breakpoint (by decide) ?_ ?_
  · intro address kind hparse' _ _
    cases hparse.symm.trans hparse'
    show contents.chip.Addresses _ _
    rw [hchip]
    exact .inr ⟨by decide, by decide⟩
  · rw [Debuggee.handleZ, hparse]
    exact Debuggee.noOverlap_insert (fun _ => rfl) _ _

end WchLink
