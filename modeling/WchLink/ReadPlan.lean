import WchLink.BlockRead
import WchLink.Interaction.Reach
import WchLink.Layers

/-! # What a block read loads

The three loops of `wlDmReadBlock` make one list of loads, fixed by the address
and the length before the first of them is made: bytes up to the first aligned
address, words from there and bytes for the rest. A run of the block read is a
run of that list up to the first load that fails.
-/

namespace WchLink

open Bytes Interaction Interaction.Program

/-- How many bytes an access covers. -/
def Width.bytes : Width → Nat
  | .byte => 1
  | .half => 2
  | .word => 4

/-- The addresses of a range, in order; a range may cross the top. -/
def addressesFrom (address : Word) (count : Nat) : List Word :=
  (List.range count).map fun i => address + BitVec.ofNat 32 i

/-- One load of target memory. -/
structure Load where
  size : Width
  address : Word
  deriving DecidableEq, Repr

namespace Load

def addresses (load : Load) : List Word := addressesFrom load.address load.size.bytes

/-- The bytes a loaded word stands for. -/
def bytes (load : Load) (word : Word) : List Byte := (List.range load.size.bytes).map (byteOf word)

def request (link : Link) (load : Load) : Fallible Word := dmReadSized link load.size load.address

/-- The word is what the memory holds where it was loaded. -/
def Holds (load : Load) (memory : Word → Byte) (word : Word) : Prop :=
  load.bytes word = load.addresses.map memory

end Load

/-! ## The list -/

def byteLoads (address : Word) : Nat → List Load
  | 0 => []
  | count + 1 => ⟨.byte, address⟩ :: byteLoads (address + 1) count

def wordLoads (address : Word) : Nat → List Load
  | 0 => []
  | count + 1 => ⟨.word, address⟩ :: wordLoads (address + 4) count

/-- How much of a range lies before the first aligned address. -/
def headLength (address : Word) (length : Nat) : Nat := min length ((4 - address.toNat % 4) % 4)

/-- The loads of a range. -/
def readPlan (address : Word) (length : Nat) : List Load :=
  let head := headLength address length
  let words := (length - head) / 4
  byteLoads address head ++ wordLoads (address + BitVec.ofNat 32 head) words ++
    byteLoads (address + BitVec.ofNat 32 (head + 4 * words)) ((length - head) % 4)

/-- Make loads one after another and append what they return. -/
def loadEach (link : Link) : List Load → Filling Unit
  | [] => return
  | load :: rest => do
      let word ← load.request link
      modify (· ++ load.bytes word)
      loadEach link rest

/-! ### Its addresses -/

theorem addressesFrom_add (address : Word) (first second : Nat) :
    addressesFrom address (first + second) =
      addressesFrom address first ++ addressesFrom (address + BitVec.ofNat 32 first) second := by
  unfold addressesFrom
  rw [List.range_add, List.map_append, List.map_map]
  congr 1
  apply List.map_congr_left
  intro i _
  simp only [Function.comp_apply, BitVec.ofNat_add, BitVec.add_assoc]

theorem addressesFrom_map (memory : Word → Byte) (address : Word) (count : Nat) :
    (addressesFrom address count).map memory = bytesFrom memory address count := by
  induction count generalizing address with
  | zero => rfl
  | succ count ih =>
      rw [Nat.add_comm, addressesFrom_add, List.map_append, ih, bytesFrom_add]
      simp [addressesFrom, bytesFrom]

theorem byteLoads_addresses (address : Word) (count : Nat) :
    (byteLoads address count).flatMap Load.addresses = addressesFrom address count := by
  induction count generalizing address with
  | zero => rfl
  | succ count ih =>
      rw [byteLoads, List.flatMap_cons, ih, Nat.add_comm, addressesFrom_add]
      rfl

theorem wordLoads_addresses (address : Word) (count : Nat) :
    (wordLoads address count).flatMap Load.addresses = addressesFrom address (4 * count) := by
  induction count generalizing address with
  | zero => rfl
  | succ count ih =>
      rw [wordLoads, List.flatMap_cons, ih, Nat.mul_succ, Nat.add_comm, addressesFrom_add]
      rfl

/-- The loads cover the range, each address once and in order. -/
theorem readPlan_addresses (address : Word) (length : Nat) :
    (readPlan address length).flatMap Load.addresses = addressesFrom address length := by
  have hhead : headLength address length ≤ length := Nat.min_le_left _ _
  simp only [readPlan, List.flatMap_append, byteLoads_addresses, wordLoads_addresses]
  rw [← addressesFrom_add, ← addressesFrom_add]
  congr 1
  omega

example : readPlan 0x20000003 6 =
    [⟨.byte, 0x20000003⟩, ⟨.word, 0x20000004⟩, ⟨.byte, 0x20000008⟩] := by decide

/-! ### Its alignment -/

theorem aligned_iff (address : Word) : address &&& 3 = 0 ↔ address.toNat % 4 = 0 := by
  have hlow : (address &&& 3).toNat = address.toNat % 4 := by
    rw [BitVec.toNat_and]
    exact Nat.and_two_pow_sub_one_eq_mod address.toNat 2
  rw [← hlow]
  exact BitVec.toNat_inj.symm

theorem byteLoads_size {address : Word} {count : Nat} {load : Load}
    (h : load ∈ byteLoads address count) : load.size = .byte := by
  induction count generalizing address with
  | zero => exact absurd h List.not_mem_nil
  | succ count ih =>
      rcases List.mem_cons.mp h with rfl | h
      · rfl
      · exact ih h

theorem wordLoads_aligned {address : Word} {count : Nat} {load : Load} (haligned : address &&& 3 = 0)
    (h : load ∈ wordLoads address count) : load.address &&& 3 = 0 := by
  induction count generalizing address with
  | zero => exact absurd h List.not_mem_nil
  | succ count ih =>
      rcases List.mem_cons.mp h with rfl | h
      · exact haligned
      · exact ih (aligned_add_four haligned) h

/-- Past the head the range is aligned or over. -/
theorem headLength_aligned {address : Word} {length : Nat} (h : headLength address length < length) :
    (address + BitVec.ofNat 32 (headLength address length)) &&& 3 = 0 := by
  unfold headLength at h ⊢
  rw [aligned_iff, BitVec.toNat_add, BitVec.toNat_ofNat]
  omega

theorem readPlan_aligned {address : Word} {length : Nat} {load : Load}
    (h : load ∈ readPlan address length) (hword : load.size = .word) : load.address &&& 3 = 0 := by
  simp only [readPlan, List.mem_append] at h
  rcases h with (h | h) | h
  · rw [byteLoads_size h] at hword
    cases hword
  · by_cases hlength : headLength address length < length
    · exact wordLoads_aligned (headLength_aligned hlength) h
    · rw [Nat.sub_eq_zero_of_le (by omega)] at h
      exact absurd h List.not_mem_nil
  · rw [byteLoads_size h] at hword
    cases hword

/-! ## The loops make it -/

theorem loadEach_append (link : Link) (first second : List Load) :
    loadEach link (first ++ second) = loadEach link first >>= fun _ => loadEach link second := by
  induction first with
  | nil => rw [List.nil_append, loadEach, pure_bind]
  | cons load rest ih => simp only [List.cons_append, loadEach, ih, bind_assoc]

theorem headLength_succ (address : Word) (length : Nat) :
    headLength address (length + 1) =
      if address &&& 3 = 0 then 0 else headLength (address + 1) length + 1 := by
  unfold headLength
  rw [BitVec.toNat_add, show (1 : Word).toNat = 1 from rfl]
  by_cases haligned : address &&& 3 = 0
  · rw [if_pos haligned]
    have hzero := (aligned_iff address).mp haligned
    omega
  · rw [if_neg haligned]
    have hrest : address.toNat % 4 ≠ 0 := fun hzero => haligned ((aligned_iff address).mpr hzero)
    omega

theorem readBlockHead_eq (link : Link) (address : Word) (length : Nat) :
    readBlockHead link address length = do
      loadEach link (byteLoads address (headLength address length))
      return (address + BitVec.ofNat 32 (headLength address length),
        length - headLength address length) := by
  induction length generalizing address with
  | zero => simp [readBlockHead, headLength, byteLoads, loadEach]
  | succ length ih =>
      rw [readBlockHead, headLength_succ]
      by_cases haligned : address &&& 3 = 0
      · rw [if_neg (not_not.mpr haligned), if_pos haligned, byteLoads, loadEach, pure_bind,
          BitVec.add_zero, Nat.sub_zero]
      · rw [if_pos haligned, if_neg haligned, byteLoads, loadEach, ih]
        rw [Nat.add_comm (headLength _ _) 1, BitVec.ofNat_add, ← BitVec.add_assoc, Nat.add_comm length 1,
          Nat.add_sub_add_left]
        simp only [bind_assoc]
        rfl

theorem readBlockWords_eq (link : Link) (address : Word) (length : Nat) :
    readBlockWords link address length = do
      loadEach link (wordLoads address (length / 4))
      return (address + BitVec.ofNat 32 (4 * (length / 4)), length % 4) := by
  induction address, length using readBlockWords.induct with
  | case1 address length ih =>
      have hdiv : length.succ.succ.succ.succ / 4 = length / 4 + 1 :=
        Nat.add_div_right length (Nat.succ_pos 3)
      have hmod : length.succ.succ.succ.succ % 4 = length % 4 := Nat.add_mod_right length 4
      rw [readBlockWords, ih, hdiv, hmod, Nat.mul_succ, Nat.add_comm (4 * (length / 4)) 4,
        BitVec.ofNat_add, ← BitVec.add_assoc, wordLoads, loadEach]
      simp only [bind_assoc]
      rfl
  | case2 address length hshort =>
      have hlength : length < 4 := by
        by_contra h
        exact hshort (length - 4) (by omega)
      rw [Nat.div_eq_of_lt hlength, Nat.mod_eq_of_lt hlength]
      unfold readBlockWords
      split
      · exact absurd rfl (hshort _)
      · simp [wordLoads, loadEach]

theorem readBlockTail_eq (link : Link) (address : Word) (length : Nat) :
    readBlockTail link address length = loadEach link (byteLoads address length) := by
  induction length generalizing address with
  | zero => rfl
  | succ length ih =>
      rw [readBlockTail, byteLoads, loadEach, ih]
      rfl

/-- A block read makes the loads of its plan. -/
theorem wlDmReadBlock_eq (link : Link) (address : Word) (length : Nat) :
    wlDmReadBlock link address length = loadEach link (readPlan address length) := by
  unfold wlDmReadBlock readPlan
  rw [readBlockHead_eq]
  simp only [bind_assoc, pure_bind, readBlockWords_eq, readBlockTail_eq, loadEach_append,
    BitVec.ofNat_add, BitVec.add_assoc]

/-! ## Its runs -/

variable {σ : Type} {world : World Usb σ}

/-- Loads made one after another up to one that fails: what each returned, the
status and the state then. -/
inductive LoadsRun (world : World Usb σ) (link : Link) :
    List Load → σ → List (Load × Word) → Except WlErr Unit → σ → Prop
  | finished (state : σ) : LoadsRun world link [] state [] (.ok ()) state
  | loaded {load : Load} {rest : List Load} {state middle final : σ} {word : Word}
      {made : List (Load × Word)} {status : Except WlErr Unit} :
      Returns world (load.request link).run state (.ok word) middle →
      LoadsRun world link rest middle made status final →
      LoadsRun world link (load :: rest) state ((load, word) :: made) status final
  | failed {load : Load} {rest : List Load} {state final : σ} {error : WlErr} :
      Returns world (load.request link).run state (.error error) final →
      LoadsRun world link (load :: rest) state [] (.error error) final

/-- The bytes loaded so far. -/
def loadedBytes (made : List (Load × Word)) : List Byte := made.flatMap fun load => load.1.bytes load.2

theorem LoadsRun.prefix {link : Link} {plan : List Load} {state final : σ}
    {made : List (Load × Word)} {status : Except WlErr Unit}
    (h : LoadsRun world link plan state made status final) : made.map Prod.fst <+: plan := by
  induction h with
  | finished state => exact List.prefix_refl _
  | loaded _ _ ih => exact (List.prefix_cons_inj _).mpr ih
  | failed _ => exact List.nil_prefix

theorem LoadsRun.whole {link : Link} {plan : List Load} {state final : σ}
    {made : List (Load × Word)} (h : LoadsRun world link plan state made (.ok ()) final) :
    made.map Prod.fst = plan := by
  generalize hok : (Except.ok () : Except WlErr Unit) = status at h
  induction h with
  | finished state => rfl
  | loaded _ _ ih => exact congrArg _ (ih hok)
  | failed _ => cases hok

theorem loadedBytes_eq {memory : Word → Byte} {made : List (Load × Word)}
    (h : ∀ load ∈ made, load.1.Holds memory load.2) :
    loadedBytes made = ((made.map Prod.fst).flatMap Load.addresses).map memory := by
  induction made with
  | nil => rfl
  | cons load rest ih =>
      have hload : load.1.bytes load.2 = load.1.addresses.map memory := h load List.mem_cons_self
      rw [List.map_cons, List.flatMap_cons, List.map_append, ← hload,
        ← ih fun other hother => h other (List.mem_cons_of_mem _ hother)]
      rfl

/-- One load of a list, then the rest or nothing. -/
theorem loadEach_cons_run (link : Link) (load : Load) (rest : List Load) (buffer : List Byte) :
    (loadEach link (load :: rest)).run.run buffer = (load.request link).run >>= fun status =>
      match status with
      | .ok word => (loadEach link rest).run.run (buffer ++ load.bytes word)
      | .error error => pure (.error error, buffer) := by
  rw [loadEach, ExceptT.run_bind, StateT.run_bind]
  change (StateT.lift (load.request link).run).run buffer >>= _ = _
  rw [StateT.run_lift, bind_assoc]
  refine congrArg (_ >>= ·) (funext fun status => ?_)
  cases status with
  | ok word => rfl
  | error error => rfl

theorem loadEach_returns_iff (link : Link) (plan : List Load) (buffer buffer' : List Byte)
    (state final : σ) (status : Except WlErr Unit) :
    Returns world ((loadEach link plan).run.run buffer) state (status, buffer') final ↔
      ∃ made, LoadsRun world link plan state made status final ∧
        buffer' = buffer ++ loadedBytes made := by
  induction plan generalizing buffer state with
  | nil =>
      constructor
      · intro h
        obtain ⟨hvalue, rfl⟩ := returns_done_iff.mp h
        cases hvalue
        exact ⟨[], .finished _, (List.append_nil _).symm⟩
      · rintro ⟨made, hmade, rfl⟩
        cases hmade
        simp only [loadedBytes, List.flatMap_nil, List.append_nil]
        exact .done _ _
  | cons load rest ih =>
      rw [loadEach_cons_run, returns_bind_iff]
      constructor
      · rintro ⟨first, middle, hfirst, hrest⟩
        cases first with
        | ok word =>
            obtain ⟨made, hmade, rfl⟩ := (ih _ _).mp hrest
            exact ⟨(load, word) :: made, .loaded hfirst hmade, List.append_assoc _ _ _⟩
        | error error =>
            obtain ⟨hvalue, rfl⟩ := returns_done_iff.mp hrest
            cases hvalue
            exact ⟨[], .failed hfirst, (List.append_nil _).symm⟩
      · rintro ⟨made, hmade, rfl⟩
        cases hmade with
        | loaded hload hrest =>
            refine ⟨_, _, hload, (ih _ _).mpr ⟨_, hrest, ?_⟩⟩
            exact (List.append_assoc _ _ _).symm
        | failed hload =>
            refine ⟨_, _, hload, returns_done_iff.mpr ⟨?_, rfl⟩⟩
            rw [loadedBytes, List.flatMap_nil, List.append_nil]

/-- A block read loads exactly its range: its loads cover each address of the
range once and in order, words only where they are aligned; with what the loads
return it returns, at the first failure with that load's status and the bytes
loaded before it; and no loop of it runs on. -/
theorem wlDmReadBlock_reads (link : Link) (address : Word) (length : Nat) :
    (readPlan address length).flatMap Load.addresses = addressesFrom address length ∧
    (∀ load ∈ readPlan address length, load.size = .word → load.address &&& 3 = 0) ∧
    wlDmReadBlock link address length = loadEach link (readPlan address length) ∧
    ((wlDmReadBlock link address length).run.run []).Total ∧
    ∀ (σ : Type) (world : World Usb σ) (state final : σ) (status : Except WlErr Unit)
      (buffer : List Byte),
      Returns world ((wlDmReadBlock link address length).run.run []) state (status, buffer) final →
      ∃ made, LoadsRun world link (readPlan address length) state made status final ∧
        made.map Prod.fst <+: readPlan address length ∧
        ∀ memory : Word → Byte, (∀ load ∈ made, load.1.Holds memory load.2) →
          buffer = ((made.map Prod.fst).flatMap Load.addresses).map memory ∧
          (status = .ok () → buffer = (addressesFrom address length).map memory) := by
  have hloads : HasLoads (totalClass Usb) link :=
    (hasAccesses_of_requests (totalClass Usb) (fun _ _ _ _ => trivial) link).toHasLoads
  refine ⟨readPlan_addresses _ _, fun load => readPlan_aligned, wlDmReadBlock_eq _ _ _,
    (wlDmReadBlock_mem hloads _ _ []).1, ?_⟩
  intro σ world state final status buffer hreturns
  rw [wlDmReadBlock_eq, loadEach_returns_iff] at hreturns
  obtain ⟨made, hmade, hbuffer⟩ := hreturns
  refine ⟨made, hmade, hmade.prefix, fun memory hholds => ?_⟩
  have hbytes : buffer = ((made.map Prod.fst).flatMap Load.addresses).map memory := by
    rw [hbuffer, List.nil_append]
    exact loadedBytes_eq hholds
  refine ⟨hbytes, ?_⟩
  rintro rfl
  rw [hbytes, hmade.whole, readPlan_addresses]

end WchLink
