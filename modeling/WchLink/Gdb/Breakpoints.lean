import WchLink.Gdb.Machine
import WchLink.Patching

/-! # The breakpoint table on the machine

What `Z0`, `z0` and the clearing of the table make of the part's memories and
of the slots, as functions of both.
-/

namespace WchLink

open Bytes Interaction

/-! ## Addresses -/

/-- A range of the part's memories: flash through its own addresses or through
the alias at zero, or RAM. -/
def Chip.Addresses (chip : Chip) (address : Word) (count : Nat) : Prop :=
  MemoryRegion.flash.Holds chip (normalise chip address) count ∨
    MemoryRegion.ram.Holds chip address count

/-- The kinds of breakpoint there are, and where they may stand. -/
def BadKind (address kind : Word) : Prop := (kind ≠ 2 ∧ kind ≠ 4) ∨ address % kind ≠ 0

instance (address kind : Word) : Decidable (BadKind address kind) :=
  inferInstanceAs (Decidable ((kind ≠ 2 ∧ kind ≠ 4) ∨ address % kind ≠ 0))

theorem not_badKind {address kind : Word} (h : ¬BadKind address kind) :
    (kind.toNat = 2 ∨ kind.toNat = 4) ∧ address.toNat % kind.toNat = 0 := by
  unfold BadKind at h
  push Not at h
  obtain ⟨hkind, haligned⟩ := h
  refine ⟨?_, ?_⟩
  · by_cases htwo : kind = 2
    · exact .inl (by rw [htwo]; rfl)
    · exact .inr (by rw [hkind htwo]; rfl)
  · rw [← BitVec.toNat_umod, haligned]
    rfl

theorem length_replacement_of_width {kind : Word} (hwidth : kind.toNat = 2 ∨ kind.toNat = 4) :
    ((gdbReplacement kind).take kind.toNat).length = kind.toNat := by
  have hlength : (gdbReplacement kind).length = 4 := by
    unfold gdbReplacement
    split
    · rfl
    · rfl
  rw [List.length_take, hlength]
  omega

theorem length_replacement {address kind : Word} (h : ¬BadKind address kind) :
    ((gdbReplacement kind).take kind.toNat).length = kind.toNat :=
  length_replacement_of_width (not_badKind h).1

/-- Whether the server has a way to patch an address. -/
def Chip.patchable (chip : Chip) (address : Word) : Bool :=
  !gdbAddrIsFlash chip address || chip.eraseSize ≠ 0

theorem eraseSize_of_mem {chip : Chip} (hchip : chip ∈ chips) :
    chip.eraseSize = 0 ∨ chip.Ch32v0 := by
  have htable : ∀ part ∈ chips, part.eraseSize = 0 ∨ part.algo = .ch32v0 := by decide
  exact (htable chip hchip).imp_right (ch32v0_of_mem hchip)

namespace Chip.Addresses

variable {chip : Chip} {address : Word} {count : Nat}

theorem inFlash (hchip : chip.Mapped)
    (h : MemoryRegion.flash.Holds chip (normalise chip address) count) :
    chip.InFlash address count := by
  have hnormal := h.inFlash hchip
  by_cases hbase : chip.flashBase = fbV
  · have hvalue := normalise_toNat hbase address
    have hwindow := (simIsFlash_iff _).mp hnormal.window
    have hinside := hnormal.inside
    rw [simFlashOffset_eq, hvalue] at hinside
    rw [hvalue] at hwindow
    refine ⟨hnormal.small, (simIsFlash_iff _).mpr ?_, ?_⟩
    · split at hwindow <;> omega
    · rw [simFlashOffset_eq]
      split at hinside <;> omega
  · have hsame : normalise chip address = address := if_neg fun h => hbase h.1
    rwa [hsame] at hnormal

/-- The server takes the flash of every part for flash. -/
theorem addrIsFlash (hchip : chip.Mapped) (hcount : 0 < count)
    (h : MemoryRegion.flash.Holds chip (normalise chip address) count) :
    gdbAddrIsFlash chip address = true := by
  have hfirst : chip.flashBase.toNat ≤ (normalise chip address).toNat := h.first
  have hlast : (normalise chip address).toNat + count ≤
    chip.flashBase.toNat + chip.flashSize.toNat := h.last
  have hsize := hchip.flashSize
  have hone : (1 : BitVec 64).toNat = 1 := rfl
  have hnonzero : chip.flashSize ≠ 0 := by
    intro hzero
    rw [hzero, show (0 : Word).toNat = 0 from rfl] at hlast
    omega
  unfold gdbAddrIsFlash wlFlashRangeOk
  dsimp only
  rw [if_neg hnonzero, decide_eq_true_eq]
  simp only [ge_iff_le, BitVec.le_def, BitVec.toNat_add, BitVec.toNat_setWidth, hone]
  rcases hchip.flashBase with hbase | hbase <;> omega

theorem spans (hchip : chip.Mapped) (h : chip.Addresses address count) :
    chip.Spans address count :=
  h.imp (inFlash hchip) (·.inRam hchip)

/-- A breakpoint's range can be patched unless it is flash of a part the server
cannot write. -/
theorem canPatch (hmem : chip ∈ chips) {kind : Word} (hkind : ¬BadKind address kind)
    (h : chip.Addresses address kind.toNat) (hpatch : chip.patchable address = true) :
    chip.CanPatch address kind.toNat := by
  have hchip := mapped_of_mem hmem
  obtain ⟨hwidth, haligned⟩ := not_badKind hkind
  rcases h with hflash | hram
  · have hin := inFlash hchip hflash
    have hisFlash := addrIsFlash hchip (by omega) hflash
    have herase : chip.eraseSize ≠ 0 := by
      rw [Chip.patchable, hisFlash, Bool.not_true, Bool.false_or, decide_eq_true_eq] at hpatch
      exact hpatch
    refine .inl ⟨hin, (eraseSize_of_mem hmem).resolve_left herase, ?_⟩
    rw [simFlashOffset_eq]
    rcases hwidth with hwidth | hwidth <;> rw [hwidth] at haligned ⊢ <;> omega
  · exact .inr (hram.inRam hchip)

end Chip.Addresses

/-! ## Inserting and removing -/

/-- A part's memories and the table of the breakpoints in them. -/
structure Debuggee where
  contents : Contents
  breakpoints : Fin gdbMaxBreakpoints → GdbBreakpoint

namespace Debuggee

def findSlot (debuggee : Debuggee) (wanted : GdbBreakpoint → Bool) :
    Option (Fin gdbMaxBreakpoints) :=
  (List.finRange gdbMaxBreakpoints).find? fun slot => wanted (debuggee.breakpoints slot)

/-- A slot with the bytes at an address saved in it. -/
def saving (debuggee : Debuggee) (slot : Fin gdbMaxBreakpoints) (address kind : Word) :
    GdbBreakpoint :=
  { debuggee.breakpoints slot with
    original := debuggee.contents.read (debuggee.contents.chip.place address) kind.toNat ++
      (debuggee.breakpoints slot).original.drop kind.toNat }

/-- What `Z0` does: whether it is accepted, and what it leaves. -/
def insert (debuggee : Debuggee) (address kind : Word) : Bool × Debuggee :=
  if BadKind address kind then
    (false, debuggee)
  else
    match debuggee.findSlot fun breakpoint => !breakpoint.used with
    | none => (false, debuggee)
    | some slot =>
        if debuggee.contents.chip.patchable address then
          (true,
            { contents := debuggee.contents.patch (debuggee.contents.chip.place address)
                ((gdbReplacement kind).take kind.toNat)
              breakpoints := Function.update debuggee.breakpoints slot
                { debuggee.saving slot address kind with used := true, address, kind } })
        else
          (false,
            { debuggee with
              breakpoints := Function.update debuggee.breakpoints slot
                (debuggee.saving slot address kind) })

/-- A slot's bytes put back and the slot freed. -/
def release (debuggee : Debuggee) (slot : Fin gdbMaxBreakpoints) : Debuggee where
  contents := debuggee.contents.patch
    (debuggee.contents.chip.place (debuggee.breakpoints slot).address)
    ((debuggee.breakpoints slot).original.take (debuggee.breakpoints slot).kind.toNat)
  breakpoints := Function.update debuggee.breakpoints slot
    { debuggee.breakpoints slot with used := false }

/-- What `z0` does. -/
def remove (debuggee : Debuggee) (address kind : Word) : Bool × Debuggee :=
  match debuggee.findSlot fun breakpoint =>
      breakpoint.used && breakpoint.address == address && breakpoint.kind == kind with
  | none => (false, debuggee)
  | some slot => (true, debuggee.release slot)

/-- What the clearing of the table does to one slot. -/
def clear (debuggee : Debuggee) (slot : Fin gdbMaxBreakpoints) : Debuggee :=
  if (debuggee.breakpoints slot).used then debuggee.release slot else debuggee

/-- What the clearing of the table does. -/
def clearAll (debuggee : Debuggee) : Debuggee :=
  (List.finRange gdbMaxBreakpoints).foldl clear debuggee

end Debuggee

namespace Debuggee

@[simp] theorem release_chip (debuggee : Debuggee) (slot : Fin gdbMaxBreakpoints) :
    (debuggee.release slot).contents.chip = debuggee.contents.chip := rfl

@[simp] theorem insert_chip (debuggee : Debuggee) (address kind : Word) :
    (debuggee.insert address kind).2.contents.chip = debuggee.contents.chip := by
  unfold insert
  split
  · rfl
  · split
    · rfl
    · split
      · rfl
      · rfl

@[simp] theorem remove_chip (debuggee : Debuggee) (address kind : Word) :
    (debuggee.remove address kind).2.contents.chip = debuggee.contents.chip := by
  unfold remove
  split
  · rfl
  · rfl

@[simp] theorem clear_chip (debuggee : Debuggee) (slot : Fin gdbMaxBreakpoints) :
    (debuggee.clear slot).contents.chip = debuggee.contents.chip := by
  unfold clear
  split
  · rfl
  · rfl

@[simp] theorem clearAll_chip (debuggee : Debuggee) :
    debuggee.clearAll.contents.chip = debuggee.contents.chip := by
  unfold clearAll
  induction List.finRange gdbMaxBreakpoints generalizing debuggee with
  | nil => rfl
  | cons slot rest ih => exact (ih (debuggee.clear slot)).trans (debuggee.clear_chip slot)

end Debuggee

/-- The server can put a breakpoint's saved bytes back. -/
structure Chip.Restorable (chip : Chip) (breakpoint : GdbBreakpoint) : Prop where
  width : breakpoint.kind.toNat = 2 ∨ breakpoint.kind.toNat = 4
  saved : breakpoint.original.length = 4
  range : chip.CanPatch breakpoint.address breakpoint.kind.toNat

theorem Chip.Restorable.length_saved {chip : Chip} {breakpoint : GdbBreakpoint}
    (h : chip.Restorable breakpoint) :
    (breakpoint.original.take breakpoint.kind.toNat).length = breakpoint.kind.toNat := by
  have hwidth := h.width
  rw [List.length_take, h.saved]
  omega

/-- The part is one of the table and every active breakpoint can be undone. -/
structure Debuggee.Sound (debuggee : Debuggee) : Prop where
  chip : debuggee.contents.chip ∈ chips
  saved : ∀ slot, (debuggee.breakpoints slot).original.length = 4
  active : ∀ slot, (debuggee.breakpoints slot).used = true →
    debuggee.contents.chip.Restorable (debuggee.breakpoints slot)

namespace Debuggee.Sound

variable {debuggee : Debuggee}

theorem length_saving (h : debuggee.Sound) (slot : Fin gdbMaxBreakpoints) {address kind : Word}
    (hkind : ¬BadKind address kind) :
    (debuggee.saving slot address kind).original.length = 4 := by
  obtain ⟨hwidth, -⟩ := not_badKind hkind
  have hsaved := h.saved slot
  rw [saving, List.length_append, Contents.length_read, List.length_drop, hsaved]
  omega

/-- A slot replaced by one that is sound. -/
theorem update (h : debuggee.Sound) {contents : Contents}
    (hchip : contents.chip = debuggee.contents.chip) (slot : Fin gdbMaxBreakpoints)
    {breakpoint : GdbBreakpoint} (hlength : breakpoint.original.length = 4)
    (hactive : breakpoint.used = true → debuggee.contents.chip.Restorable breakpoint) :
    (Debuggee.mk contents (Function.update debuggee.breakpoints slot breakpoint)).Sound := by
  refine ⟨hchip ▸ h.chip, fun other => ?_, fun other hused => ?_⟩
  · dsimp only
    by_cases hsame : other = slot
    · subst hsame
      rw [Function.update_self]
      exact hlength
    · rw [Function.update_of_ne hsame]
      exact h.saved other
  · dsimp only at hused ⊢
    rw [hchip]
    by_cases hsame : other = slot
    · subst hsame
      rw [Function.update_self] at hused ⊢
      exact hactive hused
    · rw [Function.update_of_ne hsame] at hused ⊢
      exact h.active other hused

theorem release (h : debuggee.Sound) (slot : Fin gdbMaxBreakpoints) :
    (debuggee.release slot).Sound := by
  have hfreed : ({ debuggee.breakpoints slot with used := false } : GdbBreakpoint).used = true →
      debuggee.contents.chip.Restorable { debuggee.breakpoints slot with used := false } := nofun
  exact @update _ h _ (debuggee.release_chip slot) slot
    { debuggee.breakpoints slot with used := false } (h.saved slot) hfreed

theorem clear (h : debuggee.Sound) (slot : Fin gdbMaxBreakpoints) : (debuggee.clear slot).Sound := by
  unfold Debuggee.clear
  split
  · exact h.release slot
  · exact h

theorem insert (h : debuggee.Sound) {address kind : Word}
    (haddress : ¬BadKind address kind → debuggee.contents.chip.Addresses address kind.toNat) :
    (debuggee.insert address kind).2.Sound := by
  unfold Debuggee.insert
  by_cases hkind : BadKind address kind
  · rw [if_pos hkind]
    exact h
  · rw [if_neg hkind]
    have hlength := fun slot => h.length_saving slot hkind
    split
    · exact h
    · next slot hslot =>
        have hfree := List.find?_some hslot
        by_cases hpatch : debuggee.contents.chip.patchable address = true
        · have hactive : debuggee.contents.chip.Restorable
              { debuggee.saving slot address kind with used := true, address, kind } :=
            ⟨(not_badKind hkind).1, hlength slot, (haddress hkind).canPatch h.chip hkind hpatch⟩
          rw [if_pos hpatch]
          exact @update _ h _ (Contents.patch_chip _ _ _) slot
            { debuggee.saving slot address kind with used := true, address, kind } (hlength slot)
            fun _ => hactive
        · rw [if_neg hpatch]
          refine h.update rfl slot (hlength slot) fun hused => ?_
          have hused : (debuggee.breakpoints slot).used = true := hused
          dsimp only at hfree
          rw [hused] at hfree
          cases hfree

theorem remove (h : debuggee.Sound) (address kind : Word) :
    (debuggee.remove address kind).2.Sound := by
  unfold Debuggee.remove
  split
  · exact h
  · exact h.release _

end Debuggee.Sound

/-- A connection and the contents of its part. -/
def GdbConn.debuggee (conn : GdbConn) (contents : Contents) : Debuggee :=
  ⟨contents, conn.breakpoints⟩

/-- A connection with another table. -/
def GdbConn.tabled (conn : GdbConn) (debuggee : Debuggee) : GdbConn :=
  { conn with breakpoints := debuggee.breakpoints }

theorem GdbConn.setBreakpoint_again (conn : GdbConn) (slot : Fin gdbMaxBreakpoints)
    (first second : GdbBreakpoint) :
    (conn.setBreakpoint slot first).setBreakpoint slot second = conn.setBreakpoint slot second := by
  unfold GdbConn.setBreakpoint
  dsimp only
  rw [Function.update_idem]

section Machine

variable {σ : Type} {host : Handler Host σ} {sim : σ → Sim}

/-- Flash of a part the server cannot write is not touched. -/
theorem gdbMemPatch_unsupported {conn : GdbConn} {address : Word} {bytes : List Byte}
    (hpatch : conn.chip.patchable address = false) (contents : Contents) :
    Drives host (machineSurface sim) ((gdbMemPatch address bytes).run conn) contents
      (.error .usage, conn) contents := by
  rw [Chip.patchable, Bool.or_eq_false_iff, Bool.not_eq_false', decide_eq_false_iff_not,
    not_not] at hpatch
  unfold gdbMemPatch
  show Drives host _ ((if gdbAddrIsFlash conn.chip address then _ else _ :
    Gdb (Except WlErr Unit)).run conn) _ _ _
  rw [if_pos hpatch.1]
  dsimp only
  rw [if_pos (.inl hpatch.2)]
  exact Drives.pureOwn _ conn

theorem gdbBreakpointInsert_drives (hhost : Carries host sim) {conn : GdbConn}
    (hlink : conn.link.Usable) (hchip : conn.chip ∈ chips) {contents : Contents}
    (hsame : contents.chip = conn.chip) {address kind : Word}
    (haddress : ¬BadKind address kind → conn.chip.Addresses address kind.toNat) :
    Drives host (machineSurface sim) ((gdbBreakpointInsert address kind).run conn) contents
      (((conn.debuggee contents).insert address kind).1,
        conn.tabled ((conn.debuggee contents).insert address kind).2)
      ((conn.debuggee contents).insert address kind).2.contents := by
  have hmapped := mapped_of_mem hchip
  unfold gdbBreakpointInsert Debuggee.insert
  show Drives host _ ((if BadKind address kind then _ else _ : Gdb Bool).run conn) _ _ _
  by_cases hkind : BadKind address kind
  · rw [if_pos hkind, if_pos hkind]
    exact Drives.pureOwn _ conn
  · rw [if_neg hkind, if_neg hkind]
    have hplace := haddress hkind
    refine (Drives.pure (conn, conn) : Drives host _ ((get : Gdb GdbConn).run conn) _ _ _).thenOwn ?_
    show Drives host _ ((match (conn.debuggee contents).findSlot fun breakpoint =>
      !breakpoint.used with | none => _ | some slot => _ : Gdb Bool).run conn) _ _ _
    cases hslot : (conn.debuggee contents).findSlot fun breakpoint => !breakpoint.used with
    | none => exact Drives.pureOwn _ conn
    | some slot =>
        have hspans : contents.chip.Spans address kind.toNat := by
          rw [hsame]
          exact hplace.spans hmapped
        have hread := gdbMemRead_drives hhost hlink hspans (conn.breakpoints slot).original
        have hsaved : contents.read (contents.chip.place address) kind.toNat ++
            (conn.breakpoints slot).original.drop kind.toNat =
              ((conn.debuggee contents).saving slot address kind).original := rfl
        rw [hsaved] at hread
        dsimp only
        refine (Drives.pure (conn, conn) :
          Drives host _ ((get : Gdb GdbConn).run conn) _ _ _).thenOwn ?_
        refine hread.thenOwn ?_
        refine (Drives.modifyOwn _ conn).thenOwn ?_
        obtain ⟨saved, hsavedConn⟩ : ∃ saved, saved =
            conn.setBreakpoint slot ((conn.debuggee contents).saving slot address kind) := ⟨_, rfl⟩
        show Drives host _ ((gdbMemPatch address ((gdbReplacement kind).take kind.toNat) >>= _ :
          Gdb Bool).run (conn.setBreakpoint slot ((conn.debuggee contents).saving slot address kind)))
          _ _ _
        rw [← hsavedConn]
        have hlink' : saved.link.Usable := by rwa [hsavedConn]
        have hchip' : saved.chip = conn.chip := by rw [hsavedConn]; rfl
        cases hpatch : contents.chip.patchable address with
        | false =>
            have hunsupported : Drives host (machineSurface sim)
                ((gdbMemPatch address ((gdbReplacement kind).take kind.toNat)).run saved) contents
                (.error .usage, saved) contents :=
              gdbMemPatch_unsupported (by rw [hchip', ← hsame]; exact hpatch) contents
            rw [if_neg (by rw [GdbConn.debuggee, hpatch]; exact Bool.false_ne_true)]
            refine hunsupported.thenOwn ?_
            rw [hsavedConn]
            exact Drives.pureOwn _ _
        | true =>
            have hrange := hplace.canPatch hchip hkind (by rw [← hsame]; exact hpatch)
            have hpatched : Drives host (machineSurface sim)
                ((gdbMemPatch address ((gdbReplacement kind).take kind.toNat)).run saved) contents
                (.ok (), saved) (contents.patch (contents.chip.place address)
                  ((gdbReplacement kind).take kind.toNat)) := by
              rw [hsame, ← hchip']
              exact gdbMemPatch_drives hhost hlink' (hchip' ▸ hmapped) (hsame.trans hchip'.symm)
                (by rw [length_replacement hkind]; exact (not_badKind hkind).1)
                (by rw [length_replacement hkind, hchip']; exact hrange)
            rw [if_pos (by rw [GdbConn.debuggee, hpatch])]
            refine hpatched.thenOwn ((Drives.modifyOwn _ _).thenOwn ?_)
            rw [hsavedConn, GdbConn.setBreakpoint_again]
            exact Drives.pureOwn _ _

/-- A removal, once its slot is found. -/
theorem gdbMemPatch_restores (hhost : Carries host sim) {conn : GdbConn} (hlink : conn.link.Usable)
    (hchip : conn.chip ∈ chips) {contents : Contents} (hsame : contents.chip = conn.chip)
    {slot : Fin gdbMaxBreakpoints} (hslot : conn.chip.Restorable (conn.breakpoints slot)) :
    Drives host (machineSurface sim)
      ((gdbMemPatch (conn.breakpoints slot).address
        ((conn.breakpoints slot).original.take (conn.breakpoints slot).kind.toNat)).run conn)
      contents (.ok (), conn) ((conn.debuggee contents).release slot).contents := by
  have hlength := hslot.length_saved
  have hpatched := gdbMemPatch_drives hhost hlink (mapped_of_mem hchip) hsame
    (by rw [hlength]; exact hslot.width) (by rw [hlength]; exact hslot.range)
  rwa [← hsame] at hpatched

theorem gdbBreakpointRemove_drives (hhost : Carries host sim) {conn : GdbConn}
    (hlink : conn.link.Usable) (hchip : conn.chip ∈ chips) {contents : Contents}
    (hsame : contents.chip = conn.chip) {address kind : Word}
    (hslots : ∀ slot, (conn.breakpoints slot).used = true →
      conn.chip.Restorable (conn.breakpoints slot)) :
    Drives host (machineSurface sim) ((gdbBreakpointRemove address kind).run conn) contents
      (((conn.debuggee contents).remove address kind).1,
        conn.tabled ((conn.debuggee contents).remove address kind).2)
      ((conn.debuggee contents).remove address kind).2.contents := by
  unfold gdbBreakpointRemove Debuggee.remove
  refine (Drives.pure (conn, conn) : Drives host _ ((get : Gdb GdbConn).run conn) _ _ _).thenOwn ?_
  show Drives host _ ((match (conn.debuggee contents).findSlot fun breakpoint =>
    breakpoint.used && breakpoint.address == address && breakpoint.kind == kind with
    | none => _ | some slot => _ : Gdb Bool).run conn) _ _ _
  cases hslot : (conn.debuggee contents).findSlot fun breakpoint =>
      breakpoint.used && breakpoint.address == address && breakpoint.kind == kind with
  | none => exact Drives.pureOwn _ conn
  | some slot =>
      have hused : (conn.breakpoints slot).used = true := by
        have hwanted := List.find?_some hslot
        rw [Bool.and_eq_true, Bool.and_eq_true] at hwanted
        exact hwanted.1.1
      dsimp only
      refine (Drives.pure (conn, conn) :
        Drives host _ ((get : Gdb GdbConn).run conn) _ _ _).thenOwn ?_
      refine (gdbMemPatch_restores hhost hlink hchip hsame (hslots slot hused)).thenOwn ?_
      exact (Drives.modifyOwn _ conn).thenOwn (Drives.pureOwn _ _)

theorem gdbBreakpointClear_drives (hhost : Carries host sim) {conn : GdbConn}
    (hlink : conn.link.Usable) (hchip : conn.chip ∈ chips) {contents : Contents}
    (hsame : contents.chip = conn.chip) (slot : Fin gdbMaxBreakpoints)
    (hslot : (conn.breakpoints slot).used = true →
      conn.chip.Restorable (conn.breakpoints slot)) :
    Drives host (machineSurface sim) ((gdbBreakpointClear slot).run conn) contents
      ((), conn.tabled ((conn.debuggee contents).clear slot))
      ((conn.debuggee contents).clear slot).contents := by
  unfold gdbBreakpointClear Debuggee.clear
  refine (Drives.pure (conn, conn) : Drives host _ ((get : Gdb GdbConn).run conn) _ _ _).thenOwn ?_
  show Drives host _ ((if (conn.breakpoints slot).used = true then _ else _ : Gdb Unit).run conn)
    _ _ _
  by_cases hused : (conn.breakpoints slot).used = true
  · rw [if_pos hused, if_pos (show ((conn.debuggee contents).breakpoints slot).used = true from hused)]
    exact (gdbMemPatch_restores hhost hlink hchip hsame (hslot hused)).thenOwn
      (Drives.modifyOwn _ conn)
  · rw [if_neg hused, if_neg (show ¬((conn.debuggee contents).breakpoints slot).used = true from hused)]
    exact Drives.pureOwn _ conn

theorem gdbBreakpointsClear_drives (hhost : Carries host sim) {conn : GdbConn}
    (hlink : conn.link.Usable) {contents : Contents} (hsame : contents.chip = conn.chip)
    (hsound : (conn.debuggee contents).Sound) :
    Drives host (machineSurface sim) (gdbBreakpointsClear.run conn) contents
      ((), conn.tabled (conn.debuggee contents).clearAll)
      (conn.debuggee contents).clearAll.contents := by
  unfold gdbBreakpointsClear Debuggee.clearAll
  induction List.finRange gdbMaxBreakpoints generalizing conn contents with
  | nil => exact Drives.pureOwn _ conn
  | cons slot rest ih =>
      have hchip : contents.chip ∈ chips := hsound.chip
      have hfirst := gdbBreakpointClear_drives hhost hlink (hsame ▸ hchip) hsame slot fun hused => by
        have hactive := hsound.active slot hused
        rw [← hsame]
        exact hactive
      show Drives host _ ((gdbBreakpointClear slot >>= fun _ =>
        rest.forM gdbBreakpointClear : Gdb Unit).run conn) _ _ _
      refine hfirst.thenOwn ?_
      exact @ih (conn.tabled ((conn.debuggee contents).clear slot)) hlink _
        ((Debuggee.clear_chip _ slot).trans hsame) (hsound.clear slot)

/-! ### Breakpoint packets -/

/-- What a `Z` or `z` packet makes of the memories and the table. -/
def Debuggee.handleZ (debuggee : Debuggee) (packet : List Byte) : Debuggee :=
  match parseBreakpoint packet with
  | none => debuggee
  | some (address, kind) =>
      if packet.getD 0 0 = ascii 'Z' then (debuggee.insert address kind).2
      else (debuggee.remove address kind).2

@[simp] theorem Debuggee.handleZ_chip (debuggee : Debuggee) (packet : List Byte) :
    (debuggee.handleZ packet).contents.chip = debuggee.contents.chip := by
  unfold handleZ
  split
  · rfl
  · split
    · exact debuggee.insert_chip _ _
    · exact debuggee.remove_chip _ _

/-- A `Z` packet asks for a breakpoint in the part's memories, unless it is refused
for its kind. -/
def Chip.TakesZ (chip : Chip) (packet : List Byte) : Prop :=
  ∀ address kind, parseBreakpoint packet = some (address, kind) → packet.getD 0 0 = ascii 'Z' →
    ¬BadKind address kind → chip.Addresses address kind.toNat

theorem Debuggee.Sound.handleZ {debuggee : Debuggee} (h : debuggee.Sound) {packet : List Byte}
    (haddress : debuggee.contents.chip.TakesZ packet) : (debuggee.handleZ packet).Sound := by
  unfold Debuggee.handleZ
  cases hparse : parseBreakpoint packet with
  | none => exact h
  | some request =>
      obtain ⟨address, kind⟩ := request
      dsimp only
      split
      next hcommand => exact h.insert (haddress address kind hparse hcommand)
      next => exact h.remove address kind

/-- The reply to a breakpoint packet tells whether the table took it. -/
theorem gdbHandleZ_eq (fuel : Nat) {packet : List Byte} {address kind : Word}
    (hparse : parseBreakpoint packet = some (address, kind)) :
    gdbHandleZ fuel packet =
      ((if packet.getD 0 0 = ascii 'Z' then gdbBreakpointInsert else gdbBreakpointRemove)
        address kind >>= fun accepted => gdbSendText fuel (if accepted then text "OK" else [])) := by
  rw [gdbHandleZ, hparse]
  refine congrArg (_ >>= ·) (funext fun accepted => ?_)
  cases accepted with
  | true => rfl
  | false => rfl

theorem breakpointUpdate_drives (hhost : Carries host sim) {conn : GdbConn}
    (hlink : conn.link.Usable) {contents : Contents} (hsame : contents.chip = conn.chip)
    (hsound : (conn.debuggee contents).Sound) {packet : List Byte}
    (haddress : contents.chip.TakesZ packet) {address kind : Word}
    (hparse : parseBreakpoint packet = some (address, kind)) :
    Drives host (machineSurface sim)
      (((if packet.getD 0 0 = ascii 'Z' then gdbBreakpointInsert else gdbBreakpointRemove)
        address kind).run conn) contents
      (if packet.getD 0 0 = ascii 'Z' then ((conn.debuggee contents).insert address kind).1
        else ((conn.debuggee contents).remove address kind).1,
        conn.tabled ((conn.debuggee contents).handleZ packet))
      ((conn.debuggee contents).handleZ packet).contents := by
  have hchip : contents.chip ∈ chips := hsound.chip
  rw [Debuggee.handleZ, hparse]
  dsimp only
  by_cases hcommand : packet.getD 0 0 = ascii 'Z'
  · rw [if_pos hcommand, if_pos hcommand, if_pos hcommand]
    exact gdbBreakpointInsert_drives hhost hlink (hsame ▸ hchip) hsame fun hkind =>
      hsame ▸ haddress address kind hparse hcommand hkind
  · rw [if_neg hcommand, if_neg hcommand, if_neg hcommand]
    exact gdbBreakpointRemove_drives hhost hlink (hsame ▸ hchip) hsame fun slot hused =>
      hsame ▸ hsound.active slot hused

end Machine

end WchLink
