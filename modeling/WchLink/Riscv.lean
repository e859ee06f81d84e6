import WchLink.Bytes
import Mathlib.Logic.Function.Basic

/-! # Four instructions of RV32I

What stores, loads, `addi` and `bne` do to a core, over any memory. A memory
answers a load with a word, of which the instruction takes the bits of its
width, and is given the bits of a store's width.
-/

namespace Riscv

open Bytes

/-- A memory by what it answers and what it becomes; sizes are base-two
logarithms of bytes. -/
structure Memory (τ : Type) where
  load : τ → (address : Word) → (sizeLog2 : Nat) → Word × τ
  store : τ → (address : Word) → (sizeLog2 : Nat) → (value : Word) → τ

/-- A core with its memory. -/
structure Core (τ : Type) where
  pc : Word
  regs : Nat → Word
  memory : τ

inductive StoreKind
  | sb
  | sh
  | sw
  deriving DecidableEq, Repr

inductive LoadKind
  | lb
  | lh
  | lw
  | lbu
  | lhu
  deriving DecidableEq, Repr

/-- The bits of a register a store stores. -/
def StoreKind.narrow : StoreKind → Word → Word
  | sb, value => (value.setWidth 8).setWidth 32
  | sh, value => (value.setWidth 16).setWidth 32
  | sw, value => value

def StoreKind.sizeLog2 : StoreKind → Nat
  | sb => 0
  | sh => 1
  | sw => 2

/-- What a load makes of the bits it takes. -/
def LoadKind.widen : LoadKind → Word → Word
  | lb, value => (value.setWidth 8).signExtend 32
  | lh, value => (value.setWidth 16).signExtend 32
  | lw, value => value
  | lbu, value => (value.setWidth 8).setWidth 32
  | lhu, value => (value.setWidth 16).setWidth 32

def LoadKind.sizeLog2 : LoadKind → Nat
  | lb => 0
  | lh => 1
  | lw => 2
  | lbu => 0
  | lhu => 1

/-- An instruction with its operands; a branch offset is counted in halfwords,
so it is even in bytes. -/
inductive Instruction
  | store (kind : StoreKind) (src base : BitVec 5)
  | load (kind : LoadKind) (dest base : BitVec 5)
  | addi (dest src : BitVec 5) (immediate : BitVec 12)
  | bne (src1 src2 : BitVec 5) (offset : BitVec 12)
  deriving DecidableEq, Repr

/-- A branch offset in bytes. -/
def byteOffset (offset : BitVec 12) : Word := (offset.concat false).signExtend 32

namespace Core

variable {τ : Type}

/-- A register; x0 is zero. -/
def reg (core : Core τ) (reg : BitVec 5) : Word := if reg = 0 then 0 else core.regs reg.toNat

/-- A register set, but for x0. -/
def setReg (core : Core τ) (reg : BitVec 5) (value : Word) : Core τ :=
  if reg = 0 then core else { core with regs := Function.update core.regs reg.toNat value }

def next (core : Core τ) : Core τ := { core with pc := core.pc + 4 }

/-- What an instruction does. -/
def execute (memory : Memory τ) (core : Core τ) : Instruction → Core τ
  | .store kind src base =>
      { core with
        memory := memory.store core.memory (core.reg base) kind.sizeLog2
          (kind.narrow (core.reg src)) }.next
  | .load kind dest base =>
      let answer := memory.load core.memory (core.reg base) kind.sizeLog2
      ({ core with memory := answer.2 }.setReg dest (kind.widen answer.1)).next
  | .addi dest src immediate =>
      (core.setReg dest (core.reg src + immediate.signExtend 32)).next
  | .bne src1 src2 offset =>
      if core.reg src1 ≠ core.reg src2 then
        { core with pc := core.pc + byteOffset offset }
      else
        core.next

end Core

end Riscv
