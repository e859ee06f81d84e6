import WchLink.ReadPlan
import WchLink.SimulatorMemory

/-! # What a verification says

`wlFlashVerify` reads the range back in chunks and compares each with the
image. Whatever became of the write before it, an acknowledged verification
means that the target holds the image.
-/

namespace WchLink

open Bytes Interaction Interaction.Program

/-! ## Errors of a read -/

/-- The operation does not report a mismatch. -/
def NeverVerify {α : Type} (operation : Fallible α) : Prop :=
  operation.run.Always fun status => status ≠ .error .verify

namespace NeverVerify

variable {α β : Type} {operation : Fallible α} {rest : α → Fallible β} {link : Link}

theorem ok (value : α) : NeverVerify (pure value) := nofun

theorem throws {error : WlErr} (herror : error ≠ .verify) :
    NeverVerify (throw error : Fallible α) := by
  intro hstatus
  cases hstatus
  exact herror rfl

theorem andThen (h : NeverVerify operation) (hrest : ∀ value, NeverVerify (rest value)) :
    NeverVerify (operation >>= rest) := by
  unfold NeverVerify
  rw [ExceptT.run_bind]
  refine Always.bind h fun status hstatus => ?_
  cases status with
  | ok value => exact hrest value
  | error error =>
      intro hverify
      cases hverify
      exact hstatus rfl

theorem throwThen {error : WlErr} (herror : error ≠ .verify) :
    NeverVerify ((throw error : Fallible α) >>= rest) := throws herror

theorem command (request : List Byte) : NeverVerify (wlLinkeCommand link request) := by
  unfold wlLinkeCommand
  dsimp only
  split
  · exact throwThen (by decide)
  · intro reply
    cases reply with
    | error code => exact throws (by decide)
    | ok reply => exact ok reply

theorem register (reg : Byte) (value : Word) (operation : Byte) :
    NeverVerify (regAccess link reg value operation) := by
  unfold regAccess
  refine andThen (command _) fun reply => ?_
  dsimp only
  split
  · exact throwThen (by decide)
  · split
    · exact throwThen (by decide)
    · exact ok _

theorem registerWrite (reg : Byte) (value : Word) : NeverVerify (wlLinkeDmiWrite link reg value) :=
  andThen (register _ _ _) fun _ => ok _

theorem poll (spins : Nat) (last : Word) : NeverVerify (dmPoll link spins last) := by
  induction spins generalizing last with
  | zero => exact ok _
  | succ spins ih =>
      refine andThen (register _ _ _) fun abstractcs => ?_
      split
      · exact ok _
      · exact ih _

theorem wait : NeverVerify (dmWait link) := by
  unfold dmWait
  refine andThen (poll _ _) fun abstractcs => ?_
  dsimp only
  split
  · exact throwThen (by decide)
  · split
    · refine andThen ?_ fun _ => throws (by decide)
      unfold NeverVerify ignore
      rw [ExceptT.run_lift, map_eq_pure_bind]
      exact (always_true _).bind fun _ _ => nofun
    · exact ok _

theorem abstractCommand (command value : Word) (transferIn result : Bool) :
    NeverVerify (dmCommand link command value transferIn result) := by
  have hissue : NeverVerify (do
      wlLinkeDmiWrite link wlDmiDmcommand command
      dmWait link
      if result then wlLinkeDmiRead link wlDmiData0 else pure 0) := by
    refine andThen (registerWrite _ _) fun _ => andThen wait fun _ => ?_
    split
    · exact register _ _ _
    · exact ok _
  unfold dmCommand
  cases transferIn with
  | false => exact hissue
  | true => exact andThen (registerWrite _ _) fun _ => hissue

theorem gprWrite (reg value : Word) : NeverVerify (wlDmGprWrite link reg value) := by
  unfold wlDmGprWrite
  dsimp only
  split
  · exact throwThen (by decide)
  · exact andThen (abstractCommand _ _ _ _) fun _ => ok _

theorem gprRead (reg : Word) : NeverVerify (wlDmGprRead link reg) := by
  unfold wlDmGprRead
  dsimp only
  split
  · exact throwThen (by decide)
  · exact abstractCommand _ _ _ _

theorem loadWords (slot : Nat) (words : List Word) : NeverVerify (dmLoadWords link slot words) := by
  induction words generalizing slot with
  | nil => exact ok _
  | cons word rest ih => exact andThen (registerWrite _ _) fun _ => ih _

theorem loadProgram (program : List Word) : NeverVerify (dmLoadProgram link program) := by
  unfold dmLoadProgram
  dsimp only
  split
  · exact throwThen (by decide)
  · exact andThen (registerWrite _ _) fun _ => loadWords _ _

theorem load (load : Load) : NeverVerify (load.request link) := by
  show NeverVerify (dmRun link _ _ _ true)
  unfold dmRun
  exact andThen (loadProgram _) fun _ => andThen (gprWrite _ _) fun _ =>
    andThen (abstractCommand _ _ _ _) fun _ => gprRead 8

theorem halt (link : Link) : NeverVerify (wlLinkeHalt link) :=
  andThen (command _) fun _ => ok _

theorem setInterface (chip : Chip) :
    ((wlLinkeSetInterface (some chip)).run.run link).Always
      fun result => result.1 ≠ .error .verify := by
  have hraw : NeverVerify (setInterfaceRaw link chip.linkeId chip.interfaceSpeed) := by
    refine andThen (command _) fun reply => ?_
    split
    · exact throws (by decide)
    · exact ok _
  show ((if (link.configured && link.chipId == chip.linkeId) = true then _ else _ :
    Linked Unit).run.run link).Always _
  split
  · exact nofun
  · rw [ExceptT.run_bind, StateT.run_bind]
    have hlifted : (StateT.lift (setInterfaceRaw link chip.linkeId chip.interfaceSpeed).run link).Always
        fun result => result.1 ≠ .error .verify := Always.bind hraw fun status hstatus => hstatus
    refine hlifted.bind fun result hresult => ?_
    obtain ⟨status, own⟩ := result
    cases status with
    | ok value => exact nofun
    | error error =>
        intro hverify
        cases hverify
        exact hresult rfl

end NeverVerify

/-! ## The target's memory -/

variable {σ : Type} {world : World Usb σ} {memory : σ → Word → Byte} {range : List Word}

/-- Loads of a range that succeed return what the memory holds there; loads,
attaching and selecting a part leave the memory alone. -/
structure Truthful (world : World Usb σ) (memory : σ → Word → Byte) (range : List Word) : Prop where
  load : ∀ (link : Link) (load : Load) (state final : σ) (status : Except WlErr Word),
    (∀ address ∈ load.addresses, address ∈ range) →
    Returns world (load.request link).run state status final →
    memory final = memory state ∧ ∀ word, status = .ok word → load.Holds (memory state) word
  attach : ∀ state reply next,
    world state (controlRequest wlCmdControl wlCtlAttach) reply next → memory next = memory state
  select : ∀ familyId interfaceSpeed state reply next,
    world state (interfaceRequest familyId interfaceSpeed) reply next → memory next = memory state

theorem addressesFrom_mem {address : Word} {first count length : Nat} (h : first + count ≤ length)
    {cell : Word} (hcell : cell ∈ addressesFrom (address + BitVec.ofNat 32 first) count) :
    cell ∈ addressesFrom address length := by
  obtain ⟨rest, rfl⟩ := Nat.exists_eq_add_of_le h
  rw [addressesFrom_add, addressesFrom_add]
  exact List.mem_append_left _ (List.mem_append_right _ hcell)

theorem LoadsRun.truthful {link : Link} {plan : List Load} {state final : σ}
    {made : List (Load × Word)} {status : Except WlErr Unit} (htruthful : Truthful world memory range)
    (hplan : ∀ load ∈ plan, ∀ address ∈ load.addresses, address ∈ range)
    (h : LoadsRun world link plan state made status final) :
    memory final = memory state ∧ (∀ load ∈ made, load.1.Holds (memory state) load.2) ∧
      status ≠ .error .verify := by
  induction h with
  | finished state => exact ⟨rfl, fun _ hload => absurd hload List.not_mem_nil, nofun⟩
  | loaded hload _ ih =>
      obtain ⟨hmemory, hholds⟩ := htruthful.load _ _ _ _ _ (hplan _ List.mem_cons_self) hload
      obtain ⟨hfinal, hmade, hstatus⟩ := ih fun other hother =>
        hplan other (List.mem_cons_of_mem _ hother)
      refine ⟨hfinal.trans hmemory, fun other hother => ?_, hstatus⟩
      rcases List.mem_cons.mp hother with rfl | hother
      · exact hholds _ rfl
      · rw [← hmemory]
        exact hmade other hother
  | failed hload =>
      refine ⟨(htruthful.load _ _ _ _ _ (hplan _ List.mem_cons_self) hload).1,
        fun _ hmade => absurd hmade List.not_mem_nil, ?_⟩
      intro hverify
      cases hverify
      exact hload.of_always (NeverVerify.load _) rfl

/-- What a read may do: report the bytes of its range, or fail otherwise than
by a mismatch. -/
structure ReadsBack (before after : Word → Byte) (address : Word) (length : Nat)
    (status : Except WlErr (List Byte)) : Prop where
  memory : after = before
  bytes : ∀ buffer, status = .ok buffer → buffer = bytesFrom before address length
  status : status ≠ .error .verify

theorem wlDmReadBlock_readsBack {link : Link} {address : Word} {length : Nat} {state final : σ}
    {status : Except WlErr (List Byte)} (htruthful : Truthful world memory range)
    (hrange : ∀ cell ∈ addressesFrom address length, cell ∈ range)
    (h : Returns world (filled (wlDmReadBlock link address length)).run state status final) :
    ReadsBack (memory state) (memory final) address length status := by
  unfold filled at h
  rw [ExceptT.run_mk, returns_bind_iff] at h
  obtain ⟨⟨result, buffer⟩, middle, hread, hdone⟩ := h
  obtain ⟨rfl, rfl⟩ := returns_done_iff.mp hdone
  rw [wlDmReadBlock_eq, loadEach_returns_iff] at hread
  obtain ⟨made, hmade, rfl⟩ := hread
  have hplan : ∀ load ∈ readPlan address length, ∀ cell ∈ load.addresses, cell ∈ range := by
    intro load hload cell hcell
    refine hrange cell ?_
    rw [← readPlan_addresses]
    exact List.mem_flatMap.mpr ⟨load, hload, hcell⟩
  obtain ⟨hmemory, hholds, hstatus⟩ := hmade.truthful htruthful hplan
  cases result with
  | error error =>
      refine ⟨hmemory, nofun, ?_⟩
      intro hverify
      cases hverify
      exact hstatus rfl
  | ok value =>
      refine ⟨hmemory, fun bytes hbytes => ?_, nofun⟩
      cases hbytes
      rw [List.nil_append, loadedBytes_eq hholds, hmade.whole, readPlan_addresses,
        addressesFrom_map]

/-- Selecting and halting leave the memory alone. -/
def remembering (world : World Usb σ) (memory : σ → Word → Byte) : ProgramClass Usb :=
  keeping world (fun _ _ => True) (fun state final => memory final = memory state) (fun _ => rfl)
    fun h h' => h'.trans h

theorem remembering_returns {α : Type} {program : Program Usb α} {state final : σ} {value : α}
    (hprogram : (remembering world memory).Mem program)
    (h : Returns world program state value final) : memory final = memory state :=
  h.of_wp (hprogram state)

/-- A read of a part already selected: the halt, then the block. -/
theorem readSelected_run (link : Link) (address : Word) (length : Nat) :
    (readSelected address length).run.run link = (wlLinkeHalt link).run >>= fun halted =>
      match halted with
      | .ok _ => (filled (wlDmReadBlock link address length)).run >>= fun status =>
          pure (status, link)
      | .error error => pure (.error error, link) := by
  show (StateT.lift (wlLinkeHalt link).run).run link >>= _ = _
  rw [StateT.run_lift, bind_assoc]
  refine congrArg (_ >>= ·) (funext fun halted => ?_)
  cases halted with
  | ok value => rfl
  | error error => rfl

theorem wlLinkeReadMemory_readsBack {link link' : Link} {chip : Chip} {address : Word} {length : Nat}
    {state final : σ} {status : Except WlErr (List Byte)} (htruthful : Truthful world memory range)
    (hrange : ∀ cell ∈ addressesFrom address length, cell ∈ range)
    (h : Returns world ((wlLinkeReadMemory (some chip) address length).run.run link) state
      (status, link') final) :
    ReadsBack (memory state) (memory final) address length status := by
  have hattach : (remembering world memory).Mem
      (transportCommand (controlRequest wlCmdControl wlCtlAttach)) :=
    keeps_perform (fun _ => trivial) htruthful.attach
  have hselect := htruthful.select chip.linkeId chip.interfaceSpeed
  rw [wlLinkeReadMemory_eq, ExceptT.run_bind, StateT.run_bind, returns_bind_iff] at h
  obtain ⟨⟨selected, link₁⟩, middle, hset, hrest⟩ := h
  have hmiddle : memory middle = memory state := by
    refine remembering_returns (wlLinkeSetInterface_mem _ ?_) hset
    exact keeps_perform (fun _ => trivial) hselect
  have hselected := hset.of_always (NeverVerify.setInterface chip)
  cases selected with
  | error error =>
      obtain ⟨hstatus, rfl⟩ := returns_done_iff.mp hrest
      cases hstatus
      refine ⟨hmiddle, nofun, ?_⟩
      intro hverify
      cases hverify
      exact hselected rfl
  | ok value =>
      have hread : Returns world ((readSelected address length).run.run link₁) middle
          (status, link') final := hrest
      rw [readSelected_run, returns_bind_iff] at hread
      obtain ⟨halted, between, hhalt, hrest⟩ := hread
      have hbetween : memory between = memory state :=
        (remembering_returns (wlLinkeHalt_mem _ hattach) hhalt).trans hmiddle
      have hhalted := hhalt.of_always (NeverVerify.halt link₁)
      cases halted with
      | error error =>
          obtain ⟨hstatus, rfl⟩ := returns_done_iff.mp hrest
          cases hstatus
          refine ⟨hbetween, nofun, ?_⟩
          intro hverify
          cases hverify
          exact hhalted rfl
      | ok value =>
          obtain ⟨outcome, last, hblock, hdone⟩ := returns_bind_iff.mp hrest
          obtain ⟨hstatus, rfl⟩ := returns_done_iff.mp hdone
          cases hstatus
          rw [← hbetween]
          exact wlDmReadBlock_readsBack htruthful hrange hblock

/-! ## The chunks -/

/-- Chunks of a range read one after another from `done` on, with what each
read returned. -/
inductive ChunkReads (world : World Usb σ) (chip : Chip) (start : Word) (length : Nat) :
    Nat → Link → σ → List (Except WlErr (List Byte)) → Link → σ → Prop
  | finished (done : Nat) (link : Link) (state : σ) :
      ChunkReads world chip start length done link state [] link state
  | read {done : Nat} {link link' link'' : Link} {state middle final : σ}
      {outcome : Except WlErr (List Byte)} {more : List (Except WlErr (List Byte))} :
      done < length →
      Returns world ((wlLinkeReadMemory (some chip) (start + BitVec.ofNat 32 done)
        (min (length - done) 256)).run.run link) state (outcome, link') middle →
      ChunkReads world chip start length (done + min (length - done) 256) link' middle more link''
        final →
      ChunkReads world chip start length done link state (outcome :: more) link'' final

/-- Every read of the list succeeded. -/
def AllRead (reads : List (Except WlErr (List Byte))) : Prop := ∀ read ∈ reads, ∃ bytes, read = .ok bytes

/-- What a comparison from `done` on came to, with the reads it made. -/
structure Compared (memory : Word → Byte) (start : Word) (expected : List Byte) (length done : Nat)
    (reads : List (Except WlErr (List Byte))) (status : Except WlErr Unit) : Prop where
  ok_iff : status = .ok () ↔ AllRead reads ∧ ∀ i, done ≤ i → i < length →
    memory (start + BitVec.ofNat 32 i) = expected.getD i 0
  verify_iff : status = .error .verify ↔ AllRead reads ∧ ∃ i, done ≤ i ∧ i < length ∧
    memory (start + BitVec.ofNat 32 i) ≠ expected.getD i 0

section Compared

variable {bytes : Word → Byte} {start : Word} {expected : List Byte} {length done chunk : Nat}
  {reads : List (Except WlErr (List Byte))} {status : Except WlErr Unit} {buffer : List Byte}

theorem allRead_cons {bytes : List Byte} : AllRead (.ok bytes :: reads) ↔ AllRead reads := by
  simp [AllRead]

theorem not_allRead_error {error : WlErr} : ¬AllRead (.error error :: reads) := by
  simp [AllRead]

theorem Compared.over (h : length ≤ done) : Compared bytes start expected length done [] (.ok ()) where
  ok_iff := iff_of_true rfl ⟨fun _ hread => absurd hread List.not_mem_nil,
    fun _ hdone hlength => absurd (hdone.trans_lt hlength) (Nat.not_lt.mpr h)⟩
  verify_iff := iff_of_false nofun fun ⟨_, _, hdone, hlength, _⟩ =>
    absurd (hdone.trans_lt hlength) (Nat.not_lt.mpr h)

theorem Compared.failed {error : WlErr} (herror : error ≠ .verify) :
    Compared bytes start expected length done (.error error :: reads) (.error error) where
  ok_iff := iff_of_false nofun fun h => not_allRead_error h.1
  verify_iff := by
    refine iff_of_false (fun hverify => ?_) fun h => not_allRead_error h.1
    cases hverify
    exact herror rfl

/-- A mismatch in the chunk just read. -/
theorem Compared.mismatch {i : Nat} (hchunk : done + chunk ≤ length) (hi : i < chunk)
    (h : bytes (start + BitVec.ofNat 32 (done + i)) ≠ expected.getD (done + i) 0) :
    Compared bytes start expected length done [.ok buffer] (.error .verify) where
  ok_iff := iff_of_false nofun fun hmatch => h (hmatch.2 _ (by omega) (by omega))
  verify_iff := iff_of_true rfl
    ⟨allRead_cons.mpr fun _ hread => absurd hread List.not_mem_nil, done + i, by omega, by omega, h⟩

/-- The chunk just read matches, and the rest decides. -/
theorem Compared.more
    (hmatch : ∀ i < chunk, bytes (start + BitVec.ofNat 32 (done + i)) = expected.getD (done + i) 0)
    (h : Compared bytes start expected length (done + chunk) reads status) :
    Compared bytes start expected length done (.ok buffer :: reads) status := by
  have hbefore : ∀ i, done ≤ i → i < done + chunk →
      bytes (start + BitVec.ofNat 32 i) = expected.getD i 0 := by
    intro i hdone hi
    obtain ⟨offset, rfl⟩ := Nat.exists_eq_add_of_le hdone
    exact hmatch offset (by omega)
  constructor
  · rw [allRead_cons, h.ok_iff]
    refine and_congr_right fun _ => ⟨fun hrest i hdone hlength => ?_, fun hall i hdone =>
      hall i (by omega)⟩
    by_cases hi : i < done + chunk
    · exact hbefore i hdone hi
    · exact hrest i (by omega) hlength
  · rw [allRead_cons, h.verify_iff]
    refine and_congr_right fun _ => ⟨?_, ?_⟩
    · rintro ⟨i, hdone, hlength, hi⟩
      exact ⟨i, by omega, hlength, hi⟩
    · rintro ⟨i, hdone, hlength, hi⟩
      refine ⟨i, ?_, hlength, hi⟩
      by_contra hshort
      exact hi (hbefore i hdone (by omega))

end Compared

/-- One round of the comparison: the chunk, then a mismatch or the rest. -/
theorem verifyChunks_succ (chip : Chip) (start : Word) (expected : List Byte)
    {length rounds done : Nat} (hdone : done < length) (link : Link) :
    (verifyChunks chip start expected length (rounds + 1) done).run.run link =
      (wlLinkeReadMemory (some chip) (start + BitVec.ofNat 32 done)
        (min (length - done) 256)).run.run link >>= fun result =>
      match result.1 with
      | .ok buffer =>
          if (List.range (min (length - done) 256)).any fun i =>
              buffer.getD i 0 ≠ expected.getD (done + i) 0 then
            pure (.error .verify, result.2)
          else
            (verifyChunks chip start expected length rounds
              (done + min (length - done) 256)).run.run result.2
      | .error error => pure (.error error, result.2) := by
  rw [verifyChunks, if_pos hdone, ExceptT.run_bind, StateT.run_bind]
  refine congrArg (_ >>= ·) (funext fun result => ?_)
  obtain ⟨outcome, own⟩ := result
  cases outcome with
  | error error => rfl
  | ok buffer =>
      dsimp only
      split
      · rfl
      · rfl

theorem verifyChunks_returns {chip : Chip} {start : Word} {expected : List Byte} {length : Nat}
    (htruthful : Truthful world memory (addressesFrom start length)) (rounds : Nat) {done : Nat}
    (hrounds : length ≤ done + rounds) {link link' : Link} {state final : σ}
    {status : Except WlErr Unit}
    (h : Returns world ((verifyChunks chip start expected length rounds done).run.run link) state
      (status, link') final) :
    memory final = memory state ∧ ∃ reads,
      ChunkReads world chip start length done link state reads link' final ∧
        Compared (memory state) start expected length done reads status := by
  induction rounds generalizing done link state with
  | zero =>
      obtain ⟨hresult, rfl⟩ := returns_done_iff.mp h
      cases hresult
      exact ⟨rfl, [], .finished _ _ _, .over hrounds⟩
  | succ rounds ih =>
      by_cases hdone : done < length
      · have hchunk : done + min (length - done) 256 ≤ length := by omega
        rw [verifyChunks_succ chip start expected hdone, returns_bind_iff] at h
        obtain ⟨⟨outcome, link₁⟩, middle, hread, hrest⟩ := h
        have hback := wlLinkeReadMemory_readsBack htruthful
          (fun cell hcell => addressesFrom_mem hchunk hcell) hread
        cases outcome with
        | error error =>
            obtain ⟨hresult, rfl⟩ := returns_done_iff.mp hrest
            cases hresult
            refine ⟨hback.memory, [.error error], .read hdone hread (.finished _ _ _), .failed ?_⟩
            rintro rfl
            exact hback.status rfl
        | ok buffer =>
            -- what the chunk's buffer holds is the memory there
            have hbuffer : ∀ i < min (length - done) 256, buffer.getD i 0 =
                memory state (start + BitVec.ofNat 32 (done + i)) := by
              intro i hi
              rw [hback.bytes buffer rfl, bytesFrom_getD _ _ hi, BitVec.add_assoc, ← BitVec.ofNat_add]
            dsimp only at hrest
            split at hrest
            next hany =>
              obtain ⟨hresult, rfl⟩ := returns_done_iff.mp hrest
              cases hresult
              obtain ⟨i, hi, hdiffers⟩ := List.any_eq_true.mp hany
              rw [List.mem_range] at hi
              rw [decide_eq_true_eq, hbuffer i hi] at hdiffers
              exact ⟨hback.memory, [.ok buffer], .read hdone hread (.finished _ _ _),
                .mismatch hchunk hi hdiffers⟩
            next hany =>
              have hmatch : ∀ i < min (length - done) 256,
                  memory state (start + BitVec.ofNat 32 (done + i)) = expected.getD (done + i) 0 := by
                intro i hi
                by_contra hdiffers
                rw [← hbuffer i hi] at hdiffers
                exact hany (List.any_eq_true.mpr
                  ⟨i, List.mem_range.mpr hi, decide_eq_true_eq.mpr hdiffers⟩)
              obtain ⟨hmemory, reads, hreads, hcompared⟩ := ih (by omega) hrest
              rw [hback.memory] at hmemory hcompared
              exact ⟨hmemory, .ok buffer :: reads, .read hdone hread hreads, .more hmatch hcompared⟩
      · rw [verifyChunks, if_neg hdone] at h
        obtain ⟨hresult, rfl⟩ := returns_done_iff.mp h
        cases hresult
        exact ⟨rfl, [], .finished _ _ _, .over (Nat.not_lt.mp hdone)⟩

/-- A verification says what the target holds: it succeeds exactly when every
read did and every byte is the image's, reports a mismatch exactly when one is
found and no read failed before, and leaves the memory as it was. A write that
verifies has, whatever became of its stores, left the image there when the
target is let run. -/
theorem wlFlashVerify_compares {σ : Type} {world : World Usb σ} {memory : σ → Word → Byte}
    (chip : Chip) (address : Word) (image : List Byte) (length : BitVec 64)
    (htruthful : Truthful world memory (addressesFrom (normalise chip address) length.toNat)) :
    (∀ (link link' : Link) (state final : σ) (status : Except WlErr Unit),
      Returns world ((wlFlashVerify (some chip) address (some image) length).run.run link) state
        (status, link') final →
      memory final = memory state ∧ ∃ reads,
        ChunkReads world chip (normalise chip address) length.toNat 0 link state reads link' final ∧
        (status = .ok () ↔ AllRead reads ∧ ∀ i < length.toNat,
          memory state (normalise chip address + BitVec.ofNat 32 i) = image.getD i 0) ∧
        (status = .error .verify ↔ AllRead reads ∧ ∃ i < length.toNat,
          memory state (normalise chip address + BitVec.ofNat 32 i) ≠ image.getD i 0)) ∧
    ∀ (link link' : Link) (state final : σ),
      Returns world ((wlLinkeWriteFlash (some chip) address (some image) length true).run.run link)
        state (.ok (), link') final →
      ∃ verified middle, (∀ i < length.toNat,
          memory middle (normalise chip address + BitVec.ofNat 32 i) = image.getD i 0) ∧
        Returns world (ignore (wlLinkeResume verified)).run middle (.ok ()) final := by
  have hverify (link link' : Link) (state final : σ) (status : Except WlErr Unit)
      (h : Returns world ((wlFlashVerify (some chip) address (some image) length).run.run link) state
        (status, link') final) := verifyChunks_returns htruthful length.toNat (by omega) h
  constructor
  · intro link link' state final status h
    obtain ⟨hmemory, reads, hreads, hcompared⟩ := hverify _ _ _ _ _ h
    refine ⟨hmemory, reads, hreads, ?_, ?_⟩
    · simpa using hcompared.ok_iff
    · simpa using hcompared.verify_iff
  · intro link link' state final h
    rw [wlLinkeWriteFlash_eq] at h
    obtain ⟨-, selected, chosen, -, h⟩ := h.ok_bind
    obtain ⟨-, held, halted, -, h⟩ := (h.ok_get).ok_bind
    obtain ⟨-, sent, written, -, h⟩ := (h.ok_get).ok_bind
    obtain ⟨outcome, verified, middle, hstatus, h⟩ := h.ok_bind
    obtain ⟨_, resumed, released, hresume, h⟩ := (h.ok_get).ok_bind
    obtain ⟨answer, after, hanswer, hdone⟩ := returns_bind_iff.mp hresume
    obtain ⟨hresumed, hreleased⟩ := returns_done_iff.mp hdone
    obtain ⟨⟨status, own⟩, between, hrun, hlift⟩ := returns_bind_iff.mp hstatus
    obtain ⟨houtcome, hbetween⟩ := returns_done_iff.mp hlift
    obtain ⟨hstatus, hown⟩ := Prod.mk.inj houtcome
    obtain ⟨hmemory, reads, hreads, hcompared⟩ := hverify _ _ _ _ _ hrun
    cases outcome with
    | error error =>
        obtain ⟨hvalue, -⟩ := returns_done_iff.mp h
        cases hvalue
    | ok value =>
        have hok : status = .ok () := (Except.ok.inj hstatus).symm
        refine ⟨verified, middle, fun i hi => ?_, ?_⟩
        · rw [hbetween, hmemory]
          exact (hcompared.ok_iff.mp hok).2 i (Nat.zero_le i) hi
        · have hanswered : answer = Except.ok () := (Prod.mk.inj hresumed).1.symm
          rw [(returns_done_iff.mp h).2, hreleased, ← hanswered]
          exact hanswer

/-! ## On the simulator -/

/-- A simulator of one part whose command error fits its field. -/
structure Sim.Of (chip : Chip) (sim : Sim) : Prop where
  chip : sim.target.chip = chip
  sound : sim.Sound

theorem simCtrlWrite_chip (target : SimTarget) (address value : Word) :
    (simCtrlWrite target address value).chip = target.chip := by
  unfold simCtrlWrite simWriteCtlr simFlashProgramPage
  dsimp only
  split_ifs <;> rfl

theorem simFlashStore_chip (target : SimTarget) (offset sizeLog2 : Nat) (value : Word) :
    (simFlashStore target offset sizeLog2 value).chip = target.chip := by
  unfold simFlashStore
  split_ifs <;> rfl

theorem simAccess_chip (target : SimTarget) (address : Word) (sizeLog2 : Nat) (write : Bool)
    (value : Word) : (simAccess target address sizeLog2 write value).1.chip = target.chip := by
  unfold simAccess
  split
  · split
    · exact simCtrlWrite_chip _ _ _
    · exact (SimTarget.Unmoved.ctrlRead target _).chip
  · split
    · dsimp only
      split_ifs
      · rfl
      · exact simFlashStore_chip _ _ _ _
      · rfl
    · dsimp only
      split_ifs <;> rfl

/-- A run of the program buffer changes neither the part nor the command error. -/
theorem simRunProgbuf_keeps (steps : Nat) (dm : SimModule) (target : SimTarget) :
    (simRunProgbuf steps dm target).1.cmderr = dm.cmderr ∧
      (simRunProgbuf steps dm target).2.1.chip = target.chip := by
  induction steps generalizing dm target with
  | zero => exact ⟨rfl, rfl⟩
  | succ steps ih =>
      have hnext (dm' : SimModule) (target' : SimTarget) (hcmderr : dm'.cmderr = dm.cmderr)
          (hchip : target'.chip = target.chip) :
          (if dm'.pc / 4 ≥ 8 then (dm'.fault, target', false)
            else simRunProgbuf steps dm' target').1.cmderr = dm.cmderr ∧
          (if dm'.pc / 4 ≥ 8 then (dm'.fault, target', false)
            else simRunProgbuf steps dm' target').2.1.chip = target.chip := by
        split
        · exact ⟨hcmderr, hchip⟩
        · rw [(ih dm' target').1, (ih dm' target').2]
          exact ⟨hcmderr, hchip⟩
      rw [simRunProgbuf]
      dsimp only
      split
      · exact hnext _ _ rfl (simAccess_chip _ _ _ _ _)
      · split
        · exact hnext _ _ rfl (simAccess_chip _ _ _ _ _)
        · split
          · exact hnext _ _ rfl rfl
          · split
            · split
              · exact hnext _ _ rfl rfl
              · exact hnext _ _ rfl rfl
            · split
              · exact ⟨rfl, rfl⟩
              · exact ⟨rfl, rfl⟩

theorem simTransfer_cmderr {dm dm' : SimModule} {aarsize regno : Word} {write : Bool}
    (h : simTransfer dm aarsize regno write = some dm') : dm'.cmderr = dm.cmderr := by
  unfold simTransfer at h
  dsimp only at h
  split_ifs at h <;> cases h <;> rfl

theorem simExecuteCommand_keeps (dm : SimModule) (target : SimTarget) (command : Word) :
    ((simExecuteCommand dm target command).1.cmderr = dm.cmderr ∨
      (simExecuteCommand dm target command).1.cmderr = 2) ∧
      (simExecuteCommand dm target command).2.chip = target.chip := by
  unfold simExecuteCommand
  dsimp only
  split
  · exact ⟨.inr rfl, rfl⟩
  · split
    · exact ⟨.inr rfl, rfl⟩
    · next dm' hdm' =>
        have hcmderr : dm'.cmderr = dm.cmderr := by
          split at hdm'
          · exact simTransfer_cmderr hdm'
          · cases hdm'
            rfl
        split
        · have hran := simRunProgbuf_keeps simMaxSteps { dm' with pc := 0 } target
          exact ⟨.inl (hran.1.trans hcmderr), hran.2⟩
        · exact ⟨.inl hcmderr, rfl⟩

theorem sound_clear {cmderr : Word} (h : cmderr.toNat < 8) (mask : Word) :
    (cmderr &&& mask).toNat < 8 := by
  rw [BitVec.toNat_and]
  exact Nat.lt_of_le_of_lt Nat.and_le_left h

theorem Sim.Of.dmiWrite {chip : Chip} {sim : Sim} (h : sim.Of chip) (reg : Byte) (value : Word) :
    (sim.dmiWrite reg value).Of chip := by
  obtain ⟨dm, hcmderr, hwritten⟩ : ∃ dm : SimModule, dm.cmderr = sim.dm.cmderr ∧
      (if reg < 128 then { sim.dm with dmi := Function.update sim.dm.dmi reg value } else sim.dm) =
        dm := by
    refine ⟨_, ?_, rfl⟩
    split <;> rfl
  have hsound : dm.cmderr.toNat < 8 := by
    rw [hcmderr]
    exact h.sound
  have hwrite : (simDmiWrite sim.dm sim.target reg value).1.cmderr.toNat < 8 ∧
      (simDmiWrite sim.dm sim.target reg value).2.chip = chip := by
    unfold simDmiWrite
    rw [hwritten]
    dsimp only
    split_ifs
    · exact ⟨sound_clear hsound _, h.chip⟩
    · exact ⟨hsound, h.chip⟩
    · obtain ⟨hcmderr', hchip⟩ := simExecuteCommand_keeps dm sim.target value
      refine ⟨?_, hchip.trans h.chip⟩
      rcases hcmderr' with hsame | hunsupported
      · rw [hsame]
        exact hsound
      · rw [hunsupported]
        decide
    · exact ⟨hsound, h.chip⟩
  exact ⟨hwrite.2, hwrite.1⟩

theorem Sim.Of.control {chip : Chip} {sim : Sim} (h : sim.Of chip) (sub : Byte) :
    (simControl sim sub).2.Of chip := by
  unfold simControl
  dsimp only
  split_ifs <;> exact ⟨h.chip, h.sound⟩

theorem Sim.Of.simulator {chip : Chip} (request : List Byte) (sim : Sim) (h : sim.Of chip) :
    (simulator request sim).2.Of chip := by
  unfold WchLink.simulator simCommand
  dsimp only
  split_ifs
  all_goals first
    | exact h
    | exact ⟨h.chip, h.sound⟩
    | exact h.control _
    | skip
  unfold simRegister
  dsimp only
  split_ifs
  · exact h
  · exact h.dmiWrite _ _
  · exact h
  · exact h

/-- The simulators of one part as an environment. -/
def simulatorOf (chip : Chip) : Handler Usb {sim : Sim // sim.Of chip} :=
  simulator.within (Sim.Of chip) Sim.Of.simulator

/-- The flash array at the addresses it is mapped to. -/
def flashMemory {chip : Chip} (sim : {sim : Sim // sim.Of chip}) (address : Word) : Byte :=
  sim.1.target.flash (simFlashOffset address)

/-- A load inside a flash range. -/
theorem Chip.InFlash.of_load {chip : Chip} {start : Word} {length : Nat}
    (h : chip.InFlash start length) {load : Load}
    (hload : ∀ address ∈ load.addresses, address ∈ addressesFrom start length) :
    chip.InFlash load.address load.size.bytes := by
  have hpositive : 0 < load.size.bytes := by
    cases load.size <;> decide
  have hindex : ∀ j < load.size.bytes, ∃ i < length,
      start + BitVec.ofNat 32 i = load.address + BitVec.ofNat 32 j := by
    intro j hj
    have hmem := hload _ (List.mem_map_of_mem (List.mem_range.mpr hj))
    obtain ⟨i, hi, hcell⟩ := List.mem_map.mp hmem
    exact ⟨i, List.mem_range.mp hi, hcell⟩
  obtain ⟨first, hfirst, hfirstCell⟩ := hindex 0 hpositive
  obtain ⟨last, hlast, hlastCell⟩ := hindex (load.size.bytes - 1) (by omega)
  have hwindow := (simIsFlash_iff start).1 h.window
  have hinside := h.inside
  have hsmall := h.small
  rw [simFlashOffset_eq] at hinside
  have hsize : load.size.bytes ≤ 4 := by
    cases load.size <;> decide
  rw [BitVec.add_zero] at hfirstCell
  have hreach : first + load.size.bytes ≤ length := by
    rw [← hfirstCell] at hlastCell
    have hnat := congrArg BitVec.toNat hlastCell
    simp only [BitVec.toNat_add, BitVec.toNat_ofNat] at hnat
    omega
  rw [← hfirstCell]
  exact (h.mono hreach).add hpositive

theorem Width.bytes_eq (size : Width) : size.bytes = 2 ^ size.exponent := by
  cases size <;> rfl

theorem byteOf_signExtend (word : Word) {i : Nat} (hi : i < 2) :
    byteOf ((word.setWidth 16).signExtend 32) i = byteOf word i := by
  apply BitVec.eq_of_getLsbD_eq
  intro j hj
  have hlow : 8 * i + j < 16 := by omega
  simp only [getLsbD_byteOf, BitVec.getLsbD_signExtend, BitVec.getLsbD_setWidth, hlow, if_true,
    decide_true, Bool.true_and, show 8 * i + j < 32 by omega]

/-- A load of an array returns its bytes. -/
theorem SimTarget.LoadsFrom.bytes {target : SimTarget} {load : Load} {memory : Nat → Byte}
    {offset : Nat} (h : target.LoadsFrom load.address load.size memory offset) :
    load.bytes (target.loaded load.size load.address) =
      (List.range load.size.bytes).map fun i => memory (offset + i) := by
  obtain ⟨size, address⟩ := load
  cases size with
  | byte =>
      rw [Load.bytes, h.loaded_byte]
      simp [Width.bytes, List.range_succ, byteOf_setWidth]
  | half =>
      have hloaded : target.loaded .half address = loadValue memory offset 1 := by
        rw [SimTarget.loaded, h 0]
        rfl
      have hword : ∀ i < 2, byteOf (loadBytes memory offset 2) i = memory (offset + i) := by
        intro i hi
        have hbytes := byteOf_wordLe (memory offset) (memory (offset + 1)) 0 0
        have hload : loadBytes memory offset 2 = wordLe (memory offset) (memory (offset + 1)) 0 0 := by
          simp [loadBytes, wordLe]
        rw [hload]
        interval_cases i
        · exact hbytes.1
        · exact hbytes.2.1
      unfold Load.bytes
      apply List.map_congr_left
      intro i hi
      have hi : i < 2 := List.mem_range.mp hi
      dsimp only
      rw [hloaded]
      unfold loadValue
      rw [if_pos rfl, byteOf_signExtend _ hi]
      exact hword i hi
  | word =>
      have hbytes := byteOf_wordLe (memory offset) (memory (offset + 1)) (memory (offset + 2))
        (memory (offset + 3))
      rw [Load.bytes, h.loaded_word]
      simp [Width.bytes, List.range_succ, hbytes]

/-- The simulators tell what their flash holds. -/
theorem simulatorOf_truthful {chip : Chip} {start : Word} {length : Nat}
    (h : chip.InFlash start length) :
    Truthful (simulatorOf chip).world flashMemory (addressesFrom start length) where
  load := by
    intro link load state final status hload hreturns
    have hrun := Returns.run_within Sim.Of.simulator hreturns
    have hin : state.1.target.chip.InFlash load.address load.size.bytes := by
      rw [state.2.chip]
      exact h.of_load hload
    by_cases hready : link.Usable ∧ state.1.Ready
    · have hfrom := SimTarget.loadsFrom_flash (by rwa [Width.bytes_eq] at hin)
      obtain ⟨after, hafter, htarget, -⟩ :=
        dmReadSized_drives hready.1 load.size load.address state.1.target state.1 hready.2 rfl
      obtain ⟨hstatus, hfinal⟩ := Prod.mk.inj (hrun.symm.trans hafter)
      cases hstatus
      have hsame : final.1.target = state.1.target := by
        rw [hfinal]
        exact htarget.trans hfrom.afterLoad
      refine ⟨?_, fun word hword => ?_⟩
      · unfold flashMemory
        rw [hsame]
      · cases hword
        unfold Load.Holds Load.addresses addressesFrom
        rw [hfrom.bytes, List.map_map]
        apply List.map_congr_left
        intro i hi
        have hi : i < load.size.bytes := List.mem_range.mp hi
        rw [← (hin.mono hi : state.1.target.chip.InFlash load.address (i + 1)).offset_add one_pos]
        rfl
    · obtain ⟨error, after, hafter, htarget⟩ :=
        dmReadSized_refused state.2.sound hready load.size load.address
      obtain ⟨hstatus, hfinal⟩ := Prod.mk.inj (hrun.symm.trans hafter)
      cases hstatus
      refine ⟨?_, nofun⟩
      unfold flashMemory
      rw [hfinal, htarget]
  attach := by
    intro state reply next hstep
    have hnext : next = (simulatorOf chip (controlRequest wlCmdControl wlCtlAttach) state).2 :=
      (congrArg Prod.snd hstep).symm
    have htarget : (simControl state.1 wlCtlAttach).2.target = state.1.target := by
      unfold simControl
      dsimp only
      split_ifs <;> rfl
    rw [hnext]
    exact congrArg (fun target : SimTarget => fun a => target.flash (simFlashOffset a)) htarget
  select := by
    intro familyId interfaceSpeed state reply next hstep
    have hnext : next = (simulatorOf chip (interfaceRequest familyId interfaceSpeed) state).2 :=
      (congrArg Prod.snd hstep).symm
    rw [hnext]
    rfl

/-- A fresh simulator with one byte programmed. -/
def programmedOnce : {sim : Sim // sim.Of ch32v003} where
  val := { simNew ch32v003 with
    target := { (simNew ch32v003).target with flash := fun offset => if offset = 1 then 0x55 else 0xff } }
  property := ⟨rfl, by unfold Sim.Sound; decide⟩

theorem wlFlashVerify_compares_programmed :
    ∃ (final : {sim : Sim // sim.Of ch32v003}) (reads : List (Except WlErr (List Byte))),
      ChunkReads (simulatorOf ch32v003).world ch32v003 0x08000000 5 0 wlLinkeAttachTransport
        programmedOnce reads { wlLinkeAttachTransport with chipId := 0x09, configured := true } final ∧
      AllRead reads ∧ ∀ i < 5, flashMemory programmedOnce (0x08000000 + BitVec.ofNat 32 i) =
        [0xff, 0x55, 0xff, 0xff, 0xff].getD i 0 := by
  have hin : ch32v003.InFlash (normalise ch32v003 0) (5 : BitVec 64).toNat :=
    ⟨by decide, by decide, by decide⟩
  have hrun : (((wlFlashVerify (some ch32v003) 0 (some [0xff, 0x55, 0xff, 0xff, 0xff]) 5).run.run
      wlLinkeAttachTransport).run (simulatorOf ch32v003) programmedOnce).1 =
        some (.ok (), { wlLinkeAttachTransport with chipId := 0x09, configured := true }) := by
    decide +kernel
  obtain ⟨-, reads, hreads, hok, -⟩ := (wlFlashVerify_compares ch32v003 0 [0xff, 0x55, 0xff, 0xff, 0xff]
    5 (simulatorOf_truthful hin)).1 _ _ _ _ _ (returns_of_fst hrun)
  exact ⟨_, reads, hreads, hok.mp rfl⟩

end WchLink
