import WchLink.DebugModule

/-! # Erasing, programming and verifying flash

The CH32V00x flash controller is a peripheral like any other: every step below
is a read or a write of one of its registers through the debug module. A page
the image covers only partly is read first and merged.
-/

namespace WchLink

open Bytes Interaction

/-! ## The controller -/

def flashKeyr : Word := 0x40022004
def flashStatr : Word := 0x4002200c
def flashCtlr : Word := 0x40022010
def flashAddr : Word := 0x40022014
def flashModekeyr : Word := 0x40022024

def flashKey1 : Word := 0x45670123
def flashKey2 : Word := 0xcdef89ab

def flashCtlrStrt : Word := 0x00000040
def flashCtlrLock : Word := 0x00000080
def flashCtlrPagePg : Word := 0x00010000
def flashCtlrPageEr : Word := 0x00020000
def flashCtlrBufLoad : Word := 0x00040000
def flashCtlrBufRst : Word := 0x00080000

def flashStatrBsy : Word := 0x00000001
def flashStatrWrprterr : Word := 0x00000010

/-- How many status polls to allow before calling the controller stuck. -/
def flashPollLimit : Nat := 200000

/-- Largest page the merge buffer may hold. -/
def flashMergeMax : Word := 256

/-- Poll the status register until the controller is idle; the last status
read is returned. -/
def pollReady (link : Link) : Nat → Word → Fallible Word
  | 0, status => return status
  | polls + 1, _ => do
      let status ← wlDmRead32 link flashStatr
      if status &&& flashStatrBsy = 0 then
        return status
      pollReady link polls status

/-- Wait for the controller to go idle; a write-protection error is reported. -/
def waitReady (link : Link) : Fallible Unit := do
  let status ← pollReady link flashPollLimit 0
  if status &&& flashStatrBsy ≠ 0 then
    throw .target
  if status &&& flashStatrWrprterr ≠ 0 then
    throw .target

/-- Read-modify-write the control register. -/
def ctlrUpdate (link : Link) (set clear : Word) : Fallible Unit := do
  let ctlr ← wlDmRead32 link flashCtlr
  wlDmWrite32 link flashCtlr ((ctlr ||| set) &&& ~~~clear)

/-- Unlock both the normal controller and the fast page path. -/
def unlock (link : Link) : Fallible Unit := do
  wlDmWrite32 link flashKeyr flashKey1
  wlDmWrite32 link flashKeyr flashKey2
  wlDmWrite32 link flashModekeyr flashKey1
  wlDmWrite32 link flashModekeyr flashKey2
  let ctlr ← wlDmRead32 link flashCtlr
  if ctlr &&& flashCtlrLock ≠ 0 then
    throw .target

/-- Erase the 64-byte fast page at `page`. -/
def erasePageFast (link : Link) (page : Word) : Fallible Unit :=
  cleaning (do
    waitReady link
    ctlrUpdate link flashCtlrPageEr 0
    wlDmWrite32 link flashAddr page
    ctlrUpdate link flashCtlrStrt 0
    waitReady link)
    (ctlrUpdate link 0 (flashCtlrPageEr ||| flashCtlrStrt))

/-- Reset the 64-byte load buffer. -/
def bufferReset (link : Link) : Fallible Unit :=
  cleaning (do
    ctlrUpdate link flashCtlrPagePg 0
    ctlrUpdate link flashCtlrBufRst 0
    waitReady link)
    (ctlrUpdate link 0 (flashCtlrPagePg ||| flashCtlrBufRst))

/-- Load one 32-bit word into its slot of the page buffer. -/
def bufferLoad (link : Link) (address word : Word) : Fallible Unit :=
  cleaning (do
    ctlrUpdate link flashCtlrPagePg 0
    wlDmWrite32 link address word
    ctlrUpdate link flashCtlrBufLoad 0
    waitReady link)
    (ctlrUpdate link 0 (flashCtlrPagePg ||| flashCtlrBufLoad))

/-- Program the buffered 64-byte page at `page`. -/
def programPageFast (link : Link) (page : Word) : Fallible Unit :=
  cleaning (do
    ctlrUpdate link flashCtlrPagePg 0
    wlDmWrite32 link flashAddr page
    ctlrUpdate link flashCtlrStrt 0
    waitReady link)
    (ctlrUpdate link 0 (flashCtlrPagePg ||| flashCtlrStrt))

/-! ## The write itself -/

/-- The page's bytes with the image's own bytes put over them. -/
def mergePage (page start stop : Word) (image old : List Byte) : List Byte :=
  old.mapIdx fun i byte =>
    let at' := page + BitVec.ofNat 32 i
    if at' ≥ start ∧ at' < stop then image.getD (at' - start).toNat 0 else byte

/-- Load a page's words into the page buffer, four bytes at a time. -/
def loadPage (link : Link) (address : Word) : List Byte → Fallible Unit
  | b0 :: b1 :: b2 :: b3 :: rest => do
      bufferLoad link address (wordLe b0 b1 b2 b3)
      loadPage link (address + 4) rest
  | _ => return

/-- What a page holds before the merge: a page the image covers whole is not
read. -/
def readOldPage (link : Link) (pageSize start stop page : Word) : Fallible (List Byte) :=
  if page ≥ start ∧ page + pageSize ≤ stop then
    return List.replicate pageSize.toNat 0xff
  else
    filled (wlDmReadBlock link page pageSize.toNat)

/-- One round of the page loop: merge, erase, load and program one page. -/
def writePage (link : Link) (pageSize start stop : Word) (image : List Byte) (page : Word) :
    Fallible Unit := do
  let old ← readOldPage link pageSize start stop page
  let merged := mergePage page start stop image old
  erasePageFast link page
  bufferReset link
  loadPage link page merged
  programPageFast link page

/-- The page loop. A 32-bit page counter that has not passed `stop` after
`2 ^ 32` rounds never will. -/
def writePages (link : Link) (pageSize start stop : Word) (image : List Byte) :
    Nat → Word → Fallible Unit
  | 0, _ => ExceptT.lift .cut
  | rounds + 1, page =>
      if page < stop then do
        writePage link pageSize start stop image page
        writePages link pageSize start stop image rounds (page + pageSize)
      else
        return

/-- The CH32V00x write: unlock, then erase and program page by page. -/
def wlFlashCh32v0Write (link : Link) (chip : Chip) (address : Word) (image : List Byte)
    (length : BitVec 64) : Fallible Unit := do
  let pageSize := chip.eraseSize
  let stop := address + length.setWidth 32
  if pageSize = 0 ∨ pageSize &&& (pageSize - 1) ≠ 0 ∨ pageSize &&& 3 ≠ 0 ∨
      pageSize > flashMergeMax then
    throw .usage
  unlock link
  writePages link pageSize address stop image (2 ^ 32) (address &&& ~~~(pageSize - 1))

/-! ## Requests to write and verify -/

/-- Where the programmer starts, given the address the user asked for: flash
is aliased at zero on the parts whose flash base is 0x08000000. -/
def normalise (chip : Chip) (address : Word) : Word :=
  if chip.flashBase = 0x08000000 ∧ address &&& 0xff000000 = 0 then
    address ||| 0x08000000
  else
    address

/-- Whether a write of `length` bytes at `address` lands inside the part. -/
def wlFlashRangeOk (chip : Option Chip) (address : Word) (length : BitVec 64) : Bool :=
  match chip with
  | none => false
  | some chip =>
      if chip.flashSize = 0 then
        false
      else
        let start := normalise chip address
        decide (start ≥ chip.flashBase ∧
          start.setWidth 64 + length ≤ chip.flashBase.setWidth 64 + chip.flashSize.setWidth 64)

/-- Write `length` bytes of `image` at `address`. -/
def wlFlashWrite (link : Link) (chip : Option Chip) (address : Word)
    (image : Option (List Byte)) (length : BitVec 64) : Fallible Unit := do
  match chip, image with
  | some chip, some image =>
      if length = 0 then
        throw .usage
      if chip.algo = .unsupported then
        throw .notImplemented
      let start := normalise chip address
      if !wlFlashRangeOk chip address length then
        throw .usage
      match chip.algo with
      | .ch32v0 => wlFlashCh32v0Write link chip start image length
      | .unsupported => throw .notImplemented
  | _, _ => throw .usage

/-- Read target memory, selecting and halting the part first when one is given. -/
def wlLinkeReadMemory (chip : Option Chip) (address : Word) (length : Nat) :
    Linked (List Byte) := do
  if chip.isSome then
    wlLinkeSetInterface chip
    wlLinkeHalt (← get)
  filled (wlDmReadBlock (← get) address length)

/-- The comparison loop: 256 bytes at a time. Every round advances `done`, so
`length` rounds reach the end. -/
def verifyChunks (chip : Chip) (start : Word) (expected : List Byte) (length : Nat) :
    Nat → Nat → Linked Unit
  | 0, _ => return
  | rounds + 1, done => do
      if done < length then
        let chunk := min (length - done) 256
        let buffer ← wlLinkeReadMemory chip (start + BitVec.ofNat 32 done) chunk
        if (List.range chunk).any fun i => buffer.getD i 0 ≠ expected.getD (done + i) 0 then
          throw .verify
        verifyChunks chip start expected length rounds (done + chunk)

/-- Read the image back and compare it with what was written. -/
def wlFlashVerify (chip : Option Chip) (address : Word) (image : Option (List Byte))
    (length : BitVec 64) : Linked Unit := do
  match chip, image with
  | some chip, some image =>
      verifyChunks chip (normalise chip address) image length.toNat length.toNat 0
  | _, _ => throw .usage

/-- Whether this build has a flash sequence for the part. -/
def wlLinkeCanFlash (chip : Option Chip) : Bool :=
  match chip with
  | none => false
  | some chip => decide (chip.algo ≠ .unsupported)

/-- Erase, write and optionally verify a flash image. -/
def wlLinkeWriteFlash (chip : Option Chip) (address : Word) (image : Option (List Byte))
    (length : BitVec 64) (verify : Bool) : Linked Unit := do
  if chip.isNone then
    throw .usage
  wlLinkeSetInterface chip
  wlLinkeHalt (← get)
  wlFlashWrite (← get) chip address image length
  let status ← ExceptT.lift
    (if verify then (wlFlashVerify chip address image length).run else pure (.ok ()))
  -- let the target run whether or not verification passed
  ignore (wlLinkeResume (← get))
  ofExcept status

end WchLink
