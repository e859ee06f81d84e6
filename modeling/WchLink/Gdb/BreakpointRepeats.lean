import WchLink.Gdb.Effects
import WchLink.Gdb.MemoryPackets

/-! # Breakpoint packets sent again

A debugger that misses a reply sends its `Z0` or `z0` again. The table has no
notion of a breakpoint it already holds: each `Z0` takes another slot, saving
what the one before it wrote, and each `z0` gives back a single slot.
-/

namespace WchLink

open Bytes Interaction

namespace Contents

/-- Bytes put where they already are. -/
theorem patch_read (contents : Contents) (place : Place) (count : Nat) :
    contents.patch place (contents.read place count) = contents := by
  unfold patch
  refine congrArg (Contents.mk contents.chip) ?_
  rw [Function.update_eq_self_iff]
  funext a
  unfold overlay
  split
  next h =>
    rw [length_read] at h
    rw [List.getD_eq_getElem _ _ (by rw [length_read]; omega)]
    simp only [read, List.getElem_map, List.getElem_range]
    congr 1
    omega
  next => rfl

/-- The later of two patches of one place counts. -/
theorem patch_patch (contents : Contents) (place : Place) {first second : List Byte}
    (hlength : first.length = second.length) :
    (contents.patch place first).patch place second = contents.patch place second := by
  unfold patch
  refine congrArg (Contents.mk contents.chip) ?_
  dsimp only
  rw [Function.update_idem, Function.update_self]
  refine congrArg _ (funext fun a => ?_)
  unfold overlay
  rw [hlength]
  split
  · rfl
  · rfl

end Contents

/-! ## Slots -/

namespace Debuggee

variable {debuggee : Debuggee} {address kind : Word}

/-- The slots of a breakpoint. -/
def holding (debuggee : Debuggee) (address kind : Word) : Finset (Fin gdbMaxBreakpoints) :=
  Finset.univ.filter fun slot =>
    ((debuggee.breakpoints slot).used && (debuggee.breakpoints slot).address == address &&
      (debuggee.breakpoints slot).kind == kind) = true

/-- The free slots. -/
def free (debuggee : Debuggee) : Finset (Fin gdbMaxBreakpoints) :=
  Finset.univ.filter fun slot => (!(debuggee.breakpoints slot).used) = true

theorem findSlot_mem {wanted : GdbBreakpoint → Bool} {slot : Fin gdbMaxBreakpoints}
    (h : debuggee.findSlot wanted = some slot) : wanted (debuggee.breakpoints slot) = true :=
  @List.find?_some _ (fun slot => wanted (debuggee.breakpoints slot)) _ _ h

theorem findSlot_none {wanted : GdbBreakpoint → Bool} (h : debuggee.findSlot wanted = none)
    (slot : Fin gdbMaxBreakpoints) : wanted (debuggee.breakpoints slot) = false :=
  Bool.eq_false_iff.mpr (List.find?_eq_none.mp h slot (List.mem_finRange slot))

/-- The breakpoints the server holds. -/
def active (debuggee : Debuggee) : Set (Word × Word) :=
  { breakpoint | (debuggee.holding breakpoint.1 breakpoint.2).Nonempty }

/-- The bytes under a breakpoint: those saved for it, or those there now. -/
def original (debuggee : Debuggee) (address kind : Word) : List Byte :=
  match debuggee.findSlot fun breakpoint =>
      breakpoint.used && breakpoint.address == address && breakpoint.kind == kind with
  | none => debuggee.contents.read (debuggee.contents.chip.place address) kind.toNat
  | some slot => (debuggee.breakpoints slot).original.take kind.toNat

/-- The memories with a breakpoint's bytes restored. -/
def restored (debuggee : Debuggee) (address kind : Word) : Contents :=
  debuggee.contents.patch (debuggee.contents.chip.place address) (debuggee.original address kind)

theorem mem_holding {slot : Fin gdbMaxBreakpoints} : slot ∈ debuggee.holding address kind ↔
    ((debuggee.breakpoints slot).used && (debuggee.breakpoints slot).address == address &&
      (debuggee.breakpoints slot).kind == kind) = true := by
  rw [holding, Finset.mem_filter, and_iff_right (Finset.mem_univ slot)]

theorem mem_free {slot : Fin gdbMaxBreakpoints} :
    slot ∈ debuggee.free ↔ (!(debuggee.breakpoints slot).used) = true := by
  rw [free, Finset.mem_filter, and_iff_right (Finset.mem_univ slot)]

theorem disjoint_free : Disjoint debuggee.free (debuggee.holding address kind) := by
  rw [Finset.disjoint_left]
  intro slot hfree hholding
  rw [mem_free, Bool.not_eq_true'] at hfree
  rw [mem_holding, hfree, Bool.false_and, Bool.false_and] at hholding
  cases hholding

/-! ### One insertion -/

section Insert

variable (hkind : ¬BadKind address kind) (hpatch : debuggee.contents.chip.patchable address = true)

include hkind

theorem insert_full (hfull : debuggee.free = ∅) : debuggee.insert address kind = (false, debuggee) := by
  unfold insert
  rw [if_neg hkind]
  split
  · rfl
  · next slot hslot =>
      have hfree : slot ∈ debuggee.free := mem_free.mpr (findSlot_mem hslot)
      rw [hfull] at hfree
      exact absurd hfree (Finset.notMem_empty slot)

include hpatch

/-- An insertion with a slot to spare takes one. -/
theorem insert_takes (hfree : debuggee.free.Nonempty) : ∃ slot ∈ debuggee.free,
    (debuggee.insert address kind).2 =
      { contents := debuggee.contents.patch (debuggee.contents.chip.place address)
          ((gdbReplacement kind).take kind.toNat)
        breakpoints := Function.update debuggee.breakpoints slot
          { debuggee.saving slot address kind with used := true, address, kind } } := by
  unfold insert
  rw [if_neg hkind]
  split
  next hnone =>
    obtain ⟨slot, hslot⟩ := hfree
    have hused := findSlot_none hnone slot
    rw [mem_free] at hslot
    rw [hslot] at hused
    cases hused
  next slot hslot =>
    rw [if_pos hpatch]
    exact ⟨slot, mem_free.mpr (findSlot_mem hslot), rfl⟩

end Insert

section Update

variable {contents : Contents} {slot : Fin gdbMaxBreakpoints} {breakpoint : GdbBreakpoint}

/-- A slot given to a breakpoint. -/
theorem holding_update (hholds : (breakpoint.used && breakpoint.address == address &&
      breakpoint.kind == kind) = true) :
    (Debuggee.mk contents (Function.update debuggee.breakpoints slot breakpoint)).holding address
      kind = Insert.insert slot (debuggee.holding address kind) := by
  ext other
  rw [mem_holding, Finset.mem_insert, mem_holding]
  dsimp only
  by_cases hsame : other = slot
  · subst hsame
    rw [Function.update_self]
    exact iff_of_true hholds (.inl rfl)
  · rw [Function.update_of_ne hsame, or_iff_right hsame]

theorem free_update (hused : breakpoint.used = true) :
    (Debuggee.mk contents (Function.update debuggee.breakpoints slot breakpoint)).free =
      debuggee.free.erase slot := by
  ext other
  rw [mem_free, Finset.mem_erase, mem_free]
  dsimp only
  by_cases hsame : other = slot
  · subst hsame
    rw [Function.update_self, hused]
    exact iff_of_false Bool.false_ne_true fun h => h.1 rfl
  · rw [Function.update_of_ne hsame, and_iff_right hsame]

/-- A slot given back. -/
theorem holding_update_free (hused : breakpoint.used = false) :
    (Debuggee.mk contents (Function.update debuggee.breakpoints slot breakpoint)).holding address
      kind = (debuggee.holding address kind).erase slot := by
  ext other
  rw [mem_holding, Finset.mem_erase, mem_holding]
  dsimp only
  by_cases hsame : other = slot
  · subst hsame
    rw [Function.update_self, hused]
    exact iff_of_false Bool.false_ne_true fun h => h.1 rfl
  · rw [Function.update_of_ne hsame, and_iff_right hsame]

theorem free_update_free (hused : breakpoint.used = false) :
    (Debuggee.mk contents (Function.update debuggee.breakpoints slot breakpoint)).free =
      Insert.insert slot debuggee.free := by
  ext other
  rw [mem_free, Finset.mem_insert, mem_free]
  dsimp only
  by_cases hsame : other = slot
  · subst hsame
    rw [Function.update_self, hused]
    exact iff_of_true rfl (.inl rfl)
  · rw [Function.update_of_ne hsame, or_iff_right hsame]

end Update

/-! ### One removal -/

theorem findSlot_holding_none (hnone : debuggee.holding address kind = ∅) :
    (debuggee.findSlot fun breakpoint =>
      breakpoint.used && breakpoint.address == address && breakpoint.kind == kind) = none := by
  refine Option.eq_none_iff_forall_ne_some.mpr fun slot hslot => ?_
  have hholds : slot ∈ debuggee.holding address kind := mem_holding.mpr (findSlot_mem hslot)
  rw [hnone] at hholds
  exact Finset.notMem_empty slot hholds

theorem findSlot_holding (hsome : (debuggee.holding address kind).Nonempty) :
    ∃ slot ∈ debuggee.holding address kind, (debuggee.findSlot fun breakpoint =>
      breakpoint.used && breakpoint.address == address && breakpoint.kind == kind) = some slot := by
  cases hslot : debuggee.findSlot fun breakpoint =>
      breakpoint.used && breakpoint.address == address && breakpoint.kind == kind with
  | none =>
      obtain ⟨slot, hholds⟩ := hsome
      have hwanted := findSlot_none hslot slot
      rw [mem_holding] at hholds
      rw [hholds] at hwanted
      cases hwanted
  | some slot => exact ⟨slot, mem_holding.mpr (findSlot_mem hslot), rfl⟩

theorem remove_none (hnone : debuggee.holding address kind = ∅) :
    debuggee.remove address kind = (false, debuggee) := by
  rw [remove, findSlot_holding_none hnone]

/-- A removal gives one slot back, with the bytes saved in it. -/
theorem remove_takes (hsome : (debuggee.holding address kind).Nonempty) :
    ∃ slot ∈ debuggee.holding address kind,
      (debuggee.remove address kind).2 = debuggee.release slot ∧
        (debuggee.release slot).contents = debuggee.restored address kind := by
  obtain ⟨slot, hholds, hslot⟩ := findSlot_holding hsome
  refine ⟨slot, hholds, by rw [remove, hslot], ?_⟩
  rw [mem_holding, Bool.and_eq_true, Bool.and_eq_true, beq_iff_eq, beq_iff_eq] at hholds
  rw [restored, original, hslot, release, hholds.1.2, hholds.2]

theorem restored_of_none (hnone : debuggee.holding address kind = ∅) :
    debuggee.restored address kind = debuggee.contents := by
  rw [restored, original, findSlot_holding_none hnone]
  exact debuggee.contents.patch_read _ _

/-! ### Counting slots -/

/-- How many slots are free or hold the breakpoint. -/
def available (debuggee : Debuggee) (address kind : Word) : Nat :=
  debuggee.free.card + (debuggee.holding address kind).card

theorem available_remove : (debuggee.remove address kind).2.available address kind =
      debuggee.available address kind ∧
    ((debuggee.remove address kind).2.holding address kind).card =
      (debuggee.holding address kind).card - 1 := by
  rcases (debuggee.holding address kind).eq_empty_or_nonempty with hnone | hsome
  · rw [remove_none hnone]
    refine ⟨rfl, ?_⟩
    rw [hnone]
    rfl
  · obtain ⟨slot, hholds, hremove, -⟩ := remove_takes hsome
    have hnotFree : slot ∉ debuggee.free := fun hfree =>
      Finset.disjoint_left.mp disjoint_free hfree hholds
    have hpositive := Finset.card_pos.mpr hsome
    have hholding : (debuggee.release slot).holding address kind =
        (debuggee.holding address kind).erase slot := holding_update_free rfl
    have hfree : (debuggee.release slot).free = Insert.insert slot debuggee.free :=
      free_update_free rfl
    rw [hremove, available, available, hholding, hfree, Finset.card_insert_of_notMem hnotFree,
      Finset.card_erase_of_mem hholds]
    omega

section Count

variable (hkind : ¬BadKind address kind) (hpatch : debuggee.contents.chip.patchable address = true)

include hkind hpatch

theorem available_insert : (debuggee.insert address kind).2.available address kind =
      debuggee.available address kind ∧
    (debuggee.insert address kind).2.free.card = debuggee.free.card - 1 := by
  rcases debuggee.free.eq_empty_or_nonempty with hfull | hsome
  · rw [insert_full hkind hfull]
    refine ⟨rfl, ?_⟩
    rw [hfull]
    rfl
  · obtain ⟨slot, hslot, hinsert⟩ := insert_takes hkind hpatch hsome
    have hnotHolding : slot ∉ debuggee.holding address kind := fun hholds =>
      Finset.disjoint_left.mp disjoint_free hslot hholds
    have hpositive := Finset.card_pos.mpr hsome
    rw [hinsert, available, available, holding_update (by simp), free_update rfl,
      Finset.card_insert_of_notMem hnotHolding, Finset.card_erase_of_mem hslot]
    omega

/-- With at most one slot for it, a breakpoint is inserted once. -/
theorem insert_again (hone : debuggee.available address kind ≤ 1) :
    ((debuggee.insert address kind).2.insert address kind).2 = (debuggee.insert address kind).2 := by
  have hcount := available_insert hkind hpatch
  rw [insert_full hkind (Finset.card_eq_zero.mp (by rw [hcount.2]; rw [available] at hone; omega))]

theorem restored_insert (hone : debuggee.available address kind ≤ 1) :
    (debuggee.insert address kind).2.restored address kind = debuggee.restored address kind := by
  rcases debuggee.free.eq_empty_or_nonempty with hfull | hsome
  · rw [insert_full hkind hfull]
  · have hpositive := Finset.card_pos.mpr hsome
    have hnone : debuggee.holding address kind = ∅ :=
      Finset.card_eq_zero.mp (by rw [available] at hone; omega)
    obtain ⟨slot, hslot, hinsert⟩ := insert_takes hkind hpatch hsome
    have hholding : (debuggee.insert address kind).2.holding address kind = {slot} := by
      rw [hinsert, holding_update (by simp), hnone]
      rfl
    obtain ⟨found, hfound, hfind⟩ := findSlot_holding
      (show ((debuggee.insert address kind).2.holding address kind).Nonempty by
        rw [hholding]
        exact Finset.singleton_nonempty slot)
    rw [hholding, Finset.mem_singleton] at hfound
    subst hfound
    have hsaved : ((debuggee.saving found address kind).original.take kind.toNat) =
        debuggee.contents.read (debuggee.contents.chip.place address) kind.toNat :=
      List.take_left' (Contents.length_read _ _ _)
    rw [restored_of_none hnone, restored, original, hfind, hinsert]
    dsimp only
    rw [Function.update_self, hsaved, Contents.patch_chip, Contents.patch_patch, Contents.patch_read]
    rw [length_replacement hkind, Contents.length_read]

end Count

theorem remove_contents (hone : debuggee.available address kind ≤ 1) :
    (debuggee.remove address kind).2.contents = debuggee.restored address kind ∧
      (debuggee.remove address kind).2.holding address kind = ∅ := by
  have hcount := @available_remove debuggee address kind
  refine ⟨?_, Finset.card_eq_zero.mp (by rw [hcount.2]; rw [available] at hone; omega)⟩
  rcases (debuggee.holding address kind).eq_empty_or_nonempty with hnone | hsome
  · rw [remove_none hnone, restored_of_none hnone]
  · obtain ⟨slot, -, hremove, hcontents⟩ := remove_takes hsome
    rw [hremove, hcontents]

theorem restored_remove (hone : debuggee.available address kind ≤ 1) :
    (debuggee.remove address kind).2.restored address kind = debuggee.restored address kind := by
  obtain ⟨hcontents, hnone⟩ := remove_contents hone
  rw [restored_of_none hnone, hcontents]

end Debuggee

/-! ## Sequences of packets -/

/-- A packet that asks for this breakpoint, or to give it up. -/
structure Asks (command : Byte) (address kind : Word) (packet : List Byte) : Prop where
  command : packet.getD 0 0 = command
  parses : parseBreakpoint packet = some (address, kind)

/-- Handle packets one after another. -/
def gdbHandleEach (fuel : Nat) : List (List Byte) → Gdb Unit
  | [] => return
  | packet :: rest => do
      let _ ← gdbHandlePacket fuel packet
      gdbHandleEach fuel rest

theorem gdbHandlePacket_breakpoint (fuel : Nat) {packet : List Byte}
    (hcommand : packet.getD 0 0 = ascii 'Z' ∨ packet.getD 0 0 = ascii 'z') :
    gdbHandlePacket fuel packet = gdbHandleZ fuel packet >>= fun _ => pure true := by
  unfold gdbHandlePacket
  dsimp only
  rcases hcommand with hcommand | hcommand
  · simp +decide only [hcommand, ↓reduceIte]
  · simp +decide only [hcommand, ↓reduceIte]

/-- The breakpoints the server accepts: of a kind there is, in the part's
memories, and where it can write. -/
structure Chip.Accepts (chip : Chip) (address kind : Word) : Prop where
  goodKind : ¬BadKind address kind
  inMemory : chip.Addresses address kind.toNat
  patchable : chip.patchable address = true

section Sequences

variable {σ : Type} {host : Handler Host σ} {sim : σ → Sim} {link : Link} {address kind : Word}

/-- A packet about the breakpoint, either way. -/
def Concerns (address kind : Word) (packet : List Byte) : Prop :=
  Asks (ascii 'Z') address kind packet ∨ Asks (ascii 'z') address kind packet

theorem Concerns.takesZ {packet : List Byte} (h : Concerns address kind packet) {chip : Chip}
    (haddress : chip.Addresses address kind.toNat) : chip.TakesZ packet := by
  intro address' kind' hparse _ _
  have hparses : parseBreakpoint packet = some (address, kind) := h.elim (·.parses) (·.parses)
  cases hparses.symm.trans hparse
  exact haddress

theorem gdbHandleEach_leaves (hhost : Carries host sim) (hlink : link.Usable) {before : Debuggee}
    (hsound : before.Sound) (haddress : before.contents.chip.Addresses address kind.toNat)
    (fuel : Nat) {packets : List (List Byte)} (hpackets : ∀ p ∈ packets, Concerns address kind p) :
    Leaves host sim link (gdbHandleEach fuel packets) before () (packets.foldl .handleZ before) := by
  induction packets generalizing before with
  | nil => exact .done ()
  | cons packet rest ih =>
      have hconcerns := hpackets packet List.mem_cons_self
      have htakes := hconcerns.takesZ haddress
      rw [gdbHandleEach, gdbHandlePacket_breakpoint fuel
        (hconcerns.imp (·.command) (·.command)), bind_assoc]
      refine (gdbHandleZ_leaves hhost hlink hsound fuel htakes).bind ?_
      refine Leaves.bind (.done true) ?_
      refine ih (hsound.handleZ htakes) ?_ fun p hp => hpackets p (List.mem_cons_of_mem _ hp)
      rw [Debuggee.handleZ_chip]
      exact haddress

end Sequences

namespace Debuggee

variable {debuggee : Debuggee} {address kind : Word} {packet : List Byte}

theorem handleZ_insert (h : Asks (ascii 'Z') address kind packet) :
    debuggee.handleZ packet = (debuggee.insert address kind).2 := by
  rw [handleZ, h.parses]
  exact if_pos h.command

theorem handleZ_remove (h : Asks (ascii 'z') address kind packet) :
    debuggee.handleZ packet = (debuggee.remove address kind).2 := by
  rw [handleZ, h.parses]
  exact if_neg (by rw [h.command]; decide)

section One

variable (haccepts : debuggee.contents.chip.Accepts address kind)
  (hone : debuggee.available address kind ≤ 1)

include haccepts hone

/-- With one slot for it, packets about a breakpoint never change what lies
under it. -/
theorem handleZ_each {packets : List (List Byte)}
    (hpackets : ∀ p ∈ packets, Concerns address kind p) :
    (packets.foldl handleZ debuggee).available address kind ≤ 1 ∧
      (packets.foldl handleZ debuggee).restored address kind = debuggee.restored address kind := by
  induction packets generalizing debuggee with
  | nil => exact ⟨hone, rfl⟩
  | cons packet rest ih =>
      have hstep : (debuggee.handleZ packet).available address kind ≤ 1 ∧
          (debuggee.handleZ packet).restored address kind = debuggee.restored address kind := by
        rcases hpackets packet List.mem_cons_self with hinsert | hremove
        · rw [handleZ_insert hinsert]
          have hcount := (available_insert haccepts.goodKind haccepts.patchable).1
          exact ⟨Nat.le_trans (Nat.le_of_eq hcount) hone,
            restored_insert haccepts.goodKind haccepts.patchable hone⟩
        · rw [handleZ_remove hremove]
          exact ⟨Nat.le_trans (Nat.le_of_eq available_remove.1) hone, restored_remove hone⟩
      have hchip := debuggee.handleZ_chip packet
      have hrest := ih (hchip.symm ▸ haccepts) hstep.1 fun p hp =>
        hpackets p (List.mem_cons_of_mem _ hp)
      exact ⟨hrest.1, hrest.2.trans hstep.2⟩

/-- With one slot for it, a breakpoint inserted again stays as it is. -/
theorem handleZ_insertions {packets : List (List Byte)}
    (hpackets : ∀ p ∈ packets, Asks (ascii 'Z') address kind p) :
    packets.foldl handleZ (debuggee.insert address kind).2 = (debuggee.insert address kind).2 := by
  induction packets with
  | nil => rfl
  | cons packet rest ih =>
      rw [List.foldl_cons, handleZ_insert (hpackets packet List.mem_cons_self),
        insert_again haccepts.goodKind haccepts.patchable hone]
      exact ih fun p hp => hpackets p (List.mem_cons_of_mem _ hp)

end One

end Debuggee

/-! ## Repeated packets -/

/-- How a run over the packets may end. -/
def Outcome {σ : Type} (host : Handler Host σ) (sim : σ → Sim) (fuel : Nat)
    (packets : List (List Byte)) (conn : GdbConn) (state : σ) (after : Debuggee) : Prop :=
  ∃ conn' final, Program.Returns host.world ((gdbHandleEach fuel packets).run conn) state
    ((), conn') final ∧ conn'.debuggee (sim final).target.contents = after

/-- On every machine, from every connection that shows these memories and this
table: the breakpoint inserted several times is inserted once; removed after
any packets about it, its bytes are the original ones and no slot is left for
it; and removed again nothing changes. -/
structure RepeatsHarmless (link : Link) (debuggee : Debuggee) (address kind : Word) : Prop where
  inserted : ∀ (σ : Type) (host : Handler Host σ) (sim : σ → Sim), Carries host sim →
    ∀ fuel conn state, Shown sim link conn state debuggee →
    ∀ first rest, (∀ p ∈ first :: rest, Asks (ascii 'Z') address kind p) →
    ∀ once many, Outcome host sim fuel [first] conn state once →
      Outcome host sim fuel (first :: rest) conn state many →
      many.contents = once.contents ∧ many.active = once.active
  removed : ∀ (σ : Type) (host : Handler Host σ) (sim : σ → Sim), Carries host sim →
    ∀ fuel conn state, Shown sim link conn state debuggee →
    ∀ packets removal, (∀ p ∈ packets, Concerns address kind p) →
      Asks (ascii 'z') address kind removal →
    ∀ after, Outcome host sim fuel (packets ++ [removal]) conn state after →
      after.contents = debuggee.restored address kind ∧ after.holding address kind = ∅
  repeated : ∀ (σ : Type) (host : Handler Host σ) (sim : σ → Sim), Carries host sim →
    ∀ fuel conn state, Shown sim link conn state debuggee →
    ∀ packets removal again, (∀ p ∈ packets, Concerns address kind p) →
      Asks (ascii 'z') address kind removal → Asks (ascii 'z') address kind again →
    ∀ once twice, Outcome host sim fuel (packets ++ [removal]) conn state once →
      Outcome host sim fuel (packets ++ [removal, again]) conn state twice →
      twice.contents = once.contents ∧ twice.active = once.active

section Outcomes

variable {σ : Type} {host : Handler Host σ} {sim : σ → Sim} {link : Link} {debuggee : Debuggee}
  {address kind : Word}

/-- Every outcome is what the packets make of the memories and the table. -/
theorem Outcome.eq (hhost : Carries host sim) (hlink : link.Usable) (hsound : debuggee.Sound)
    (haddress : debuggee.contents.chip.Addresses address kind.toNat) {fuel : Nat} {conn : GdbConn}
    {state : σ} (hshown : Shown sim link conn state debuggee) {packets : List (List Byte)}
    (hpackets : ∀ p ∈ packets, Concerns address kind p) {after : Debuggee}
    (h : Outcome host sim fuel packets conn state after) :
    after = packets.foldl .handleZ debuggee := by
  obtain ⟨conn', final, hreturns, rfl⟩ := h
  have hleaves := gdbHandleEach_leaves hhost hlink hsound haddress fuel hpackets
  exact (hleaves conn state hshown () conn' final hreturns).2.debuggee

theorem repeatsHarmless_of_one (hlink : link.Usable) (hsound : debuggee.Sound)
    (haccepts : debuggee.contents.chip.Accepts address kind)
    (hone : debuggee.available address kind ≤ 1) : RepeatsHarmless link debuggee address kind where
  inserted := by
    intro σ host sim hhost fuel conn state hshown first rest hpackets once many honce hmany
    have hfirst := hpackets first List.mem_cons_self
    obtain rfl := honce.eq hhost hlink hsound haccepts.inMemory hshown fun p hp => by
      rw [List.mem_singleton.mp hp]
      exact .inl hfirst
    obtain rfl := hmany.eq hhost hlink hsound haccepts.inMemory hshown fun p hp =>
      .inl (hpackets p hp)
    have hagain := Debuggee.handleZ_insertions haccepts hone fun p hp =>
      hpackets p (List.mem_cons_of_mem _ hp)
    rw [List.foldl_cons, List.foldl_cons, Debuggee.handleZ_insert hfirst, hagain]
    exact ⟨rfl, rfl⟩
  removed := by
    intro σ host sim hhost fuel conn state hshown packets removal hpackets hremoval after hafter
    obtain rfl := hafter.eq hhost hlink hsound haccepts.inMemory hshown fun p hp =>
      (List.mem_append.mp hp).elim (hpackets p) fun hp => by
        rw [List.mem_singleton.mp hp]
        exact .inr hremoval
    obtain ⟨hcount, hrestored⟩ := Debuggee.handleZ_each haccepts hone hpackets
    obtain ⟨hcontents, hnone⟩ := Debuggee.remove_contents hcount
    rw [List.foldl_append, List.foldl_cons, List.foldl_nil, Debuggee.handleZ_remove hremoval]
    exact ⟨hcontents.trans hrestored, hnone⟩
  repeated := by
    intro σ host sim hhost fuel conn state hshown packets removal again hpackets hremoval hagain
      once twice honce htwice
    obtain rfl := honce.eq hhost hlink hsound haccepts.inMemory hshown fun p hp =>
      (List.mem_append.mp hp).elim (hpackets p) fun hp => by
        rw [List.mem_singleton.mp hp]
        exact .inr hremoval
    obtain rfl := htwice.eq hhost hlink hsound haccepts.inMemory hshown fun p hp =>
      (List.mem_append.mp hp).elim (hpackets p) fun hp => by
        rcases List.mem_pair.mp hp with rfl | rfl
        · exact .inr hremoval
        · exact .inr hagain
    obtain ⟨hcount, -⟩ := Debuggee.handleZ_each haccepts hone hpackets
    obtain ⟨-, hnone⟩ := Debuggee.remove_contents hcount
    rw [List.foldl_append, List.foldl_append, List.foldl_cons, List.foldl_cons, List.foldl_cons,
      List.foldl_nil, Debuggee.handleZ_remove hremoval, Debuggee.handleZ_remove hagain,
      Debuggee.remove_none hnone]
    exact ⟨rfl, rfl⟩

end Outcomes

/-! ## A debugger that acknowledges everything -/

/-- The simulator and a debugger that takes all it is sent and says `+`. -/
def obliging : Handler Host Sim
  | .usb request, sim => simCommand request sim
  | .recv, sim => (.byte (ascii '+'), sim)
  | .send bytes, sim => (.wrote bytes.length, sim)
  | .poll, sim => (true, sim)
  | .sleep _, sim => ((), sim)
  | .malloc _, sim => (true, sim)
  | .listen _, sim => (true, sim)
  | .accept, sim => (true, sim)

theorem carries_obliging : Carries obliging id where
  usb _ _ := ⟨rfl, rfl⟩
  other := by
    intro operation state hother
    cases operation with
    | usb request => exact absurd rfl (hother request)
    | _ => rfl
  malloc _ _ := rfl

theorem gdbSendPacket_obliging (fuel : Nat) (payload : List Byte) (conn : GdbConn)
    (contents : Contents) :
    Drives obliging (machineSurface id) ((gdbSendPacket (fuel + 2) payload).run conn) contents
      ((), conn) contents := by
  intro state _ hview
  have hsend : (gdbSendAll (fuel + 2) (gdbFrame payload)).run obliging state =
      (some true, state) := by
    obtain ⟨c, rest, hframe⟩ : ∃ c rest, gdbFrame payload = c :: rest := ⟨_, _, rfl⟩
    rw [hframe]
    show (gdbSendAll (fuel + 1) ((c :: rest).drop (c :: rest).length)).run obliging state = _
    rw [List.drop_length]
    rfl
  refine ⟨state, ?_, hview, id⟩
  unfold gdbSendPacket
  dsimp only
  rw [Program.run_own_bind (Program.run_own_lift conn hsend)]
  rfl

section Obliging

variable {link : Link} {address kind : Word}

/-- Packets about a breakpoint are handled to the end. -/
theorem gdbHandleEach_obliging (hlink : link.Usable) (fuel : Nat) {packets : List (List Byte)}
    (hpackets : ∀ p ∈ packets, Concerns address kind p) {conn : GdbConn} {contents : Contents}
    (hconn : conn.link = link) (hsame : contents.chip = conn.chip)
    (hsound : (conn.debuggee contents).Sound)
    (haddress : contents.chip.Addresses address kind.toNat) :
    Drives obliging (machineSurface id) ((gdbHandleEach (fuel + 2) packets).run conn) contents
      ((), conn.tabled (packets.foldl .handleZ (conn.debuggee contents)))
      (packets.foldl .handleZ (conn.debuggee contents)).contents := by
  induction packets generalizing conn contents with
  | nil => exact Drives.pureOwn _ conn
  | cons packet rest ih =>
      have hconcerns := hpackets packet List.mem_cons_self
      have htakes := hconcerns.takesZ haddress
      have hparse : parseBreakpoint packet = some (address, kind) :=
        hconcerns.elim (·.parses) (·.parses)
      have hupdate := breakpointUpdate_drives carries_obliging (hconn ▸ hlink) hsame hsound htakes
        hparse
      rw [gdbHandleEach, gdbHandlePacket_breakpoint _ (hconcerns.imp (·.command) (·.command)),
        gdbHandleZ_eq _ hparse, bind_assoc, bind_assoc]
      refine hupdate.thenOwn ?_
      refine (gdbSendPacket_obliging fuel _ _ _).thenOwn ?_
      refine Drives.thenOwn (Drives.pureOwn true _) ?_
      exact ih (fun p hp => hpackets p (List.mem_cons_of_mem _ hp)) hconn
        ((Debuggee.handleZ_chip _ packet).trans hsame) (hsound.handleZ htakes)
        (by rw [Debuggee.handleZ_chip]; exact haddress)

/-- A quiet simulator with these contents. -/
def Contents.sim (contents : Contents) : Sim :=
  { simNew contents.chip with
    configured := true
    target := { (simNew contents.chip).target with
      flash := contents.bytes .flash
      ram := contents.bytes .ram } }

theorem Contents.sim_quiet (contents : Contents) : contents.sim.Quiet where
  ready := ⟨rfl, rfl⟩
  target := ⟨rfl, Nat.zero_le _, BitVec.zero_and⟩

theorem Contents.sim_contents (contents : Contents) : contents.sim.target.contents = contents := by
  obtain ⟨chip, bytes⟩ := contents
  refine congrArg (Contents.mk chip) (funext fun region => ?_)
  cases region with
  | flash => rfl
  | ram => rfl

/-- Packets about a breakpoint have an outcome on the obliging machine. -/
theorem outcome_obliging (hlink : link.Usable) {debuggee : Debuggee} (hsound : debuggee.Sound)
    (haddress : debuggee.contents.chip.Addresses address kind.toNat) {packets : List (List Byte)}
    (hpackets : ∀ p ∈ packets, Concerns address kind p) :
    ∃ conn state, Shown id link conn state debuggee ∧
      Outcome obliging id 2 packets conn state (packets.foldl .handleZ debuggee) := by
  obtain ⟨contents, breakpoints⟩ := debuggee
  refine ⟨⟨link, contents.chip, false, breakpoints⟩, contents.sim,
    ⟨rfl, rfl, contents.sim_quiet, congrArg (Debuggee.mk · _) contents.sim_contents⟩, ?_⟩
  obtain ⟨final, hrun, hfinal, -⟩ := @gdbHandleEach_obliging link address kind hlink 0 packets
    hpackets ⟨link, contents.chip, false, breakpoints⟩ contents rfl rfl hsound haddress
    contents.sim contents.sim_quiet contents.sim_contents
  refine ⟨_, final, Program.returns_world_iff.mpr hrun, ?_⟩
  have hcontents : final.target.contents = _ := hfinal
  show GdbConn.debuggee _ final.target.contents = _
  rw [hcontents]
  rfl

/-- The packet for a breakpoint, shortest numerals, as the buffer holds it. -/
def breakpointBuffer (command : String) (address kind : Word) : List Byte :=
  breakpointPacket command (.of address) (.of kind) ++ 0 :: []

theorem asks_insert (address kind : Word) :
    Asks (ascii 'Z') address kind (breakpointBuffer "Z" address kind) :=
  ⟨rfl, parseBreakpoint_breakpointPacket rfl (.of address) (.of kind) []⟩

theorem asks_remove (address kind : Word) :
    Asks (ascii 'z') address kind (breakpointBuffer "z" address kind) :=
  ⟨rfl, parseBreakpoint_breakpointPacket rfl (.of address) (.of kind) []⟩

/-- With two slots for it, a breakpoint inserted twice survives its removal. -/
theorem not_repeatsHarmless_of_two (hlink : link.Usable) {debuggee : Debuggee}
    (hsound : debuggee.Sound) (haccepts : debuggee.contents.chip.Accepts address kind)
    (htwo : 2 ≤ debuggee.available address kind) :
    ¬RepeatsHarmless link debuggee address kind := by
  intro hharmless
  have hinsert := asks_insert address kind
  have hremove := asks_remove address kind
  have hinsertions : ∀ p ∈ [breakpointBuffer "Z" address kind, breakpointBuffer "Z" address kind],
      Concerns address kind p := by
    intro p hp
    rcases List.mem_pair.mp hp with rfl | rfl
    · exact .inl hinsert
    · exact .inl hinsert
  obtain ⟨conn, state, hshown, houtcome⟩ := @outcome_obliging link address kind hlink debuggee hsound
    haccepts.inMemory ([breakpointBuffer "Z" address kind, breakpointBuffer "Z" address kind] ++
      [breakpointBuffer "z" address kind]) fun p hp =>
        (List.mem_append.mp hp).elim (hinsertions p) fun hp => by
          rw [List.mem_singleton.mp hp]
          exact .inr hremove
  obtain ⟨-, hnone⟩ := hharmless.removed Sim obliging id carries_obliging 2 conn state hshown _ _
    hinsertions hremove _ houtcome
  rw [List.foldl_append, List.foldl_cons, List.foldl_cons, List.foldl_cons, List.foldl_nil,
    List.foldl_nil, Debuggee.handleZ_insert hinsert, Debuggee.handleZ_insert hinsert,
    Debuggee.handleZ_remove hremove] at hnone
  have hfirst := Debuggee.available_insert haccepts.goodKind haccepts.patchable
  have hsecond := @Debuggee.available_insert (debuggee.insert address kind).2 address kind
    haccepts.goodKind (by rw [Debuggee.insert_chip]; exact haccepts.patchable)
  have hthird := @Debuggee.available_remove
    ((debuggee.insert address kind).2.insert address kind).2 address kind
  rw [hnone, Finset.card_empty] at hthird
  unfold Debuggee.available at hfirst hsecond hthird htwo
  omega

end Obliging

/-- Repeated `Z0` and `z0` are harmless exactly when the table has no second
slot for the breakpoint: at most one is free or holds it already. -/
theorem repeatsHarmless_iff {link : Link} (hlink : link.Usable) {debuggee : Debuggee}
    (hsound : debuggee.Sound) {address kind : Word}
    (haccepts : debuggee.contents.chip.Accepts address kind) :
    RepeatsHarmless link debuggee address kind ↔ debuggee.available address kind ≤ 1 := by
  constructor
  · intro hharmless
    by_contra htwo
    exact not_repeatsHarmless_of_two hlink hsound haccepts (Nat.not_le.mp htwo) hharmless
  · exact repeatsHarmless_of_one hlink hsound haccepts

/-- A CH32V003 with an erased flash and an empty table, as a session finds it. -/
def freshDebuggee : Debuggee := ⟨(simNew ch32v003).target.contents, fun _ => .zero⟩

theorem freshDebuggee_sound : freshDebuggee.Sound where
  chip := List.mem_cons_self
  saved _ := rfl
  active _ hused := absurd hused Bool.false_ne_true

theorem freshDebuggee_accepts : freshDebuggee.contents.chip.Accepts 0x100 2 where
  goodKind := by decide
  inMemory := .inl ⟨by decide, by decide⟩
  patchable := by decide

theorem repeatsHarmless_fresh : ¬RepeatsHarmless wlLinkeAttachTransport freshDebuggee 0x100 2 := by
  rw [repeatsHarmless_iff ⟨rfl, rfl⟩ freshDebuggee_sound freshDebuggee_accepts]
  decide

theorem not_repeatsHarmless :
    ¬∀ (link : Link) (debuggee : Debuggee) (address kind : Word), link.Usable → debuggee.Sound →
      debuggee.contents.chip.Accepts address kind → RepeatsHarmless link debuggee address kind :=
  fun hall => not_repeatsHarmless_of_two ⟨rfl, rfl⟩ freshDebuggee_sound freshDebuggee_accepts
    (by decide) (hall wlLinkeAttachTransport freshDebuggee 0x100 2 ⟨rfl, rfl⟩ freshDebuggee_sound
      freshDebuggee_accepts)

end WchLink
