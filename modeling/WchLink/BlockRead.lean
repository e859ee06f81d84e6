import Mathlib.Data.List.GetD
import WchLink.Interaction.Surface
import WchLink.DebugModule

/-! # Block reads

`wlDmReadBlock` covers a range with byte reads up to the first aligned address,
word reads from there and byte reads for what is left. Whatever single reads
return, the buffer is the range's bytes in order.
-/

namespace WchLink

open Bytes Interaction

/-- The bytes of a memory from `address` on. -/
def bytesFrom (memory : Word → Byte) (address : Word) : Nat → List Byte
  | 0 => []
  | count + 1 => memory address :: bytesFrom memory (address + 1) count

theorem bytesFrom_length (memory : Word → Byte) (address : Word) (count : Nat) :
    (bytesFrom memory address count).length = count := by
  induction count generalizing address with
  | zero => rfl
  | succ count ih => simp [bytesFrom, ih]

theorem bytesFrom_getD (memory : Word → Byte) (address : Word) {count i : Nat} (hi : i < count) :
    (bytesFrom memory address count).getD i 0 = memory (address + BitVec.ofNat 32 i) := by
  induction count generalizing address i with
  | zero => omega
  | succ count ih =>
      cases i with
      | zero => simp [bytesFrom]
      | succ i =>
          rw [bytesFrom, List.getD_cons_succ, ih _ (by omega)]
          congr 1
          rw [BitVec.add_assoc]
          congr 1
          rw [BitVec.add_comm]
          exact (BitVec.ofNat_add i 1).symm

theorem bytesFrom_add (memory : Word → Byte) (address : Word) (first second : Nat) :
    bytesFrom memory address (first + second) =
      bytesFrom memory address first ++
        bytesFrom memory (address + BitVec.ofNat 32 first) second := by
  induction first generalizing address with
  | zero => simp [bytesFrom]
  | succ first ih =>
      have hstep : address + 1 + BitVec.ofNat 32 first = address + BitVec.ofNat 32 (first + 1) := by
        rw [Nat.add_comm first 1, BitVec.ofNat_add, BitVec.add_assoc]
        rfl
      rw [Nat.add_right_comm, bytesFrom, bytesFrom, ih, hstep, List.cons_append]

/-- The single reads a block read may make inside a range. -/
structure Readable {σ τ : Type} (handler : Handler Usb σ) (surface : Surface σ τ) (link : Link)
    (state : τ) (memory : Word → Byte) (address : Word) (count : Nat) : Prop where
  byte : ∀ i < count, ∃ word, byteOf word 0 = memory (address + BitVec.ofNat 32 i) ∧
    Drives handler surface (dmReadSized link .byte (address + BitVec.ofNat 32 i)).run state
      (.ok word) state
  word : ∀ i, i + 4 ≤ count → (address + BitVec.ofNat 32 i) &&& 3 = 0 → ∃ word,
    [byteOf word 0, byteOf word 1, byteOf word 2, byteOf word 3] =
      bytesFrom memory (address + BitVec.ofNat 32 i) 4 ∧
    Drives handler surface (wlDmRead32 link (address + BitVec.ofNat 32 i)).run state
      (.ok word) state

section Loops

variable {σ τ : Type} {handler : Handler Usb σ} {surface : Surface σ τ} {link : Link} {state : τ}
  {memory : Word → Byte}

theorem Readable.drop {address : Word} {count : Nat} (k : Nat)
    (hreadable : Readable handler surface link state memory address (k + count)) :
    Readable handler surface link state memory (address + BitVec.ofNat 32 k) count where
  byte := by
    intro i hi
    have h := hreadable.byte (k + i) (by omega)
    rwa [BitVec.ofNat_add, ← BitVec.add_assoc] at h
  word := by
    intro i hi haligned
    have h := hreadable.word (k + i) (by omega)
    rw [BitVec.ofNat_add, ← BitVec.add_assoc] at h
    exact h haligned

/-- One byte read appends the byte. -/
theorem drives_appendByte {address : Word} {count : Nat} (buffer : List Byte)
    (hreadable : Readable handler surface link state memory address (count + 1)) {α : Type}
    {rest : Filling α} {result : Except WlErr α × List Byte} {after : τ}
    (hrest : Drives handler surface (rest.run.run (buffer ++ [memory address])) state result
      after) :
    Drives handler surface ((do
      let word ← dmReadSized link .byte address
      modify (· ++ [byteOf word 0])
      rest : Filling α).run.run buffer) state result after := by
  obtain ⟨word, hword, hdrives⟩ := hreadable.byte 0 (by omega)
  simp only [BitVec.add_zero] at hword hdrives
  refine Drives.andThenState (Drives.liftState buffer hdrives) ?_
  rw [← hword] at hrest
  exact hrest

theorem readBlockHead_drives (count : Nat) {address : Word} (buffer : List Byte)
    (hreadable : Readable handler surface link state memory address count) :
    ∃ k ≤ count, (count - k = 0 ∨ (address + BitVec.ofNat 32 k) &&& 3 = 0) ∧
      Drives handler surface ((readBlockHead link address count).run.run buffer) state
        (.ok (address + BitVec.ofNat 32 k, count - k), buffer ++ bytesFrom memory address k)
        state := by
  induction count generalizing address buffer with
  | zero =>
      refine ⟨0, le_rfl, .inl rfl, ?_⟩
      simp only [BitVec.add_zero, bytesFrom, List.append_nil]
      exact Drives.pure _
  | succ count ih =>
      by_cases haligned : address &&& 3 = 0
      · refine ⟨0, by omega, .inr (by simpa using haligned), ?_⟩
        simp only [BitVec.add_zero, bytesFrom, List.append_nil, readBlockHead, haligned, ne_eq,
          not_true_eq_false, if_false]
        exact Drives.pure _
      · have hrest := hreadable
        rw [Nat.add_comm] at hrest
        obtain ⟨k, hk, hend, hdrives⟩ := ih (buffer ++ [memory address]) (hrest.drop 1)
        refine ⟨k + 1, by omega, ?_, ?_⟩
        · rw [Nat.add_sub_add_right, Nat.add_comm k 1, BitVec.ofNat_add, ← BitVec.add_assoc]
          exact hend
        · rw [readBlockHead, if_pos haligned, Nat.add_sub_add_right, Nat.add_comm k 1,
            BitVec.ofNat_add, ← BitVec.add_assoc]
          rw [bytesFrom_add, ← List.append_assoc]
          exact drives_appendByte buffer hreadable hdrives

/-- Advancing an aligned address by a word keeps it aligned. -/
theorem aligned_add_four {address : Word} (haligned : address &&& 3 = 0) :
    (address + 4) &&& 3 = 0 := by
  have hlow (word : Word) : (word &&& 3).toNat = word.toNat % 4 := by
    rw [BitVec.toNat_and]
    exact Nat.and_two_pow_sub_one_eq_mod word.toNat 2
  have hzero : address.toNat % 4 = 0 := by
    rw [← hlow, haligned]
    rfl
  apply BitVec.eq_of_toNat_eq
  rw [hlow, BitVec.toNat_add, show (4 : Word).toNat = 4 from rfl, show (0 : Word).toNat = 0 from rfl]
  omega

theorem readBlockWords_drives (count : Nat) {address : Word} (buffer : List Byte)
    (hreadable : Readable handler surface link state memory address count)
    (haligned : count = 0 ∨ address &&& 3 = 0) :
    ∃ k ≤ count,
      Drives handler surface ((readBlockWords link address count).run.run buffer) state
        (.ok (address + BitVec.ofNat 32 k, count - k), buffer ++ bytesFrom memory address k)
        state := by
  induction count using Nat.strong_induction_on generalizing address buffer with
  | _ count ih =>
      by_cases hcount : count < 4
      · refine ⟨0, by omega, ?_⟩
        simp only [BitVec.add_zero, bytesFrom, List.append_nil, Nat.sub_zero]
        unfold readBlockWords
        split
        · omega
        · exact Drives.pure _
      · obtain ⟨rest, rfl⟩ : ∃ rest, count = rest + 4 := ⟨count - 4, by omega⟩
        have haligned : address &&& 3 = 0 := by
          rcases haligned with hzero | haligned
          · omega
          · exact haligned
        have hrest := hreadable
        rw [Nat.add_comm] at hrest
        obtain ⟨word, hword, hread⟩ := hreadable.word 0 (by omega) (by simpa using haligned)
        simp only [BitVec.add_zero] at hword hread
        obtain ⟨k, hk, hdrives⟩ := ih rest (by omega) (buffer ++ bytesFrom memory address 4)
          (hrest.drop 4) (.inr (aligned_add_four haligned))
        refine ⟨4 + k, by omega, ?_⟩
        rw [readBlockWords, Nat.add_comm rest 4, Nat.add_sub_add_left, BitVec.ofNat_add,
          ← BitVec.add_assoc, bytesFrom_add, ← List.append_assoc]
        refine Drives.andThenState (Drives.liftState buffer hread) ?_
        rw [← hword] at hdrives ⊢
        exact hdrives

theorem readBlockTail_drives (count : Nat) {address : Word} (buffer : List Byte)
    (hreadable : Readable handler surface link state memory address count) :
    Drives handler surface ((readBlockTail link address count).run.run buffer) state
      (.ok (), buffer ++ bytesFrom memory address count) state := by
  induction count generalizing address buffer with
  | zero =>
      simp only [bytesFrom, List.append_nil]
      exact Drives.pure _
  | succ count ih =>
      have hrest := hreadable
      rw [Nat.add_comm] at hrest
      have hdrives := ih (buffer ++ [memory address]) (hrest.drop 1)
      rw [readBlockTail, Nat.add_comm count 1, bytesFrom_add, ← List.append_assoc]
      exact drives_appendByte buffer hreadable hdrives

/-- A block read fills the buffer with the range's bytes. -/
theorem wlDmReadBlock_drives (count : Nat) {address : Word} (buffer : List Byte)
    (hreadable : Readable handler surface link state memory address count) :
    Drives handler surface ((wlDmReadBlock link address count).run.run buffer) state
      (.ok (), buffer ++ bytesFrom memory address count) state := by
  obtain ⟨k, hk, haligned, hhead⟩ := readBlockHead_drives count buffer hreadable
  obtain ⟨middle, rfl⟩ : ∃ middle, count = k + middle := ⟨count - k, by omega⟩
  rw [Nat.add_sub_cancel_left] at haligned hhead
  obtain ⟨l, hl, hwords⟩ := readBlockWords_drives middle (buffer ++ bytesFrom memory address k)
    (hreadable.drop k) haligned
  obtain ⟨tail, rfl⟩ : ∃ tail, middle = l + tail := ⟨middle - l, by omega⟩
  rw [Nat.add_sub_cancel_left] at hwords
  have htail := readBlockTail_drives tail
    (buffer ++ bytesFrom memory address k ++ bytesFrom memory (address + BitVec.ofNat 32 k) l)
    ((hreadable.drop k).drop l)
  rw [bytesFrom_add, bytesFrom_add, ← List.append_assoc, ← List.append_assoc]
  exact Drives.andThenState hhead (Drives.andThenState hwords htail)

theorem filled_wlDmReadBlock_drives (count : Nat) {address : Word}
    (hreadable : Readable handler surface link state memory address count) :
    Drives handler surface (filled (wlDmReadBlock link address count)).run state
      (.ok (bytesFrom memory address count)) state :=
  (wlDmReadBlock_drives count [] hreadable).bind (Drives.pure _)

end Loops

end WchLink
