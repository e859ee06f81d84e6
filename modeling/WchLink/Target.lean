import WchLink.Bytes

/-! # The part table

What the programmer needs to know about a target part, one row per part in the
order the table declares them.
-/

namespace WchLink

open Bytes

/-- How a family's flash controller is driven. -/
inductive FlashAlgo
  | unsupported
  | ch32v0
  deriving DecidableEq, Repr

/-- One part: its memory figures, its protocol constants and its flash
algorithm. Sizes are in bytes. -/
structure Chip where
  name : String
  family : String
  flashSize : Word
  ramSize : Word
  ramOffset : Word
  linkeId : Byte
  modelId : BitVec 16
  interfaceSpeed : Byte
  flashBase : Word
  eraseSize : Word
  programSize : Word
  algo : FlashAlgo
  deriving DecidableEq, Repr

/-- A table row; the two memory sizes are given in units of 1024 bytes. -/
def chip (name family : String) (flashK ramK ramOffset : Word) (linkeId : Byte)
    (modelId : BitVec 16) (speed : Byte) (flashBase eraseSize programSize : Word)
    (algo : FlashAlgo) : Chip :=
  { name, family, flashSize := flashK * 1024, ramSize := ramK * 1024, ramOffset, linkeId,
    modelId, interfaceSpeed := speed, flashBase, eraseSize, programSize, algo }

/-- Where RAM starts on every part but two. -/
def ramStd : Word := 0x20000000

/-- The two CH57x parts that map RAM above their USB buffer. -/
def ramCh571 : Word := 0x20003800

/-- Code flash of the V, X and L series, as the programmer addresses it. -/
def fbV : Word := 0x08000000

/-- Code flash of the CH5xx parts. -/
def fbC : Word := 0x00000000

/-- The table's first row. -/
def ch32v003 : Chip := chip "ch32v003" "ch32v0" 16 2 ramStd 0x09 0x0030 0x01 fbV 64 2 .ch32v0

/-- The whole table. -/
def chips : List Chip :=
  [
    -- CH32V00x -- QingKe V2, RV32EC.  Only the CH32V003 has its own id; the rest of the
    -- family shares the one WCH's own tool uses for it.
    ch32v003,
    chip "ch32v002" "ch32v0" 16 4 ramStd 0x4e 0x0020 0x01 fbV 64 2 .ch32v0,
    chip "ch32v004" "ch32v0" 32 6 ramStd 0x4e 0x0040 0x01 fbV 64 2 .ch32v0,
    chip "ch32v005" "ch32v0" 32 6 ramStd 0x4e 0x0050 0x01 fbV 64 2 .ch32v0,
    chip "ch32v006" "ch32v0" 62 8 ramStd 0x4e 0x0060 0x01 fbV 64 2 .ch32v0,
    chip "ch32v007" "ch32v0" 62 8 ramStd 0x4e 0x0070 0x01 fbV 64 2 .ch32v0,
    -- V-series with a V4 core -- RV32IMAC
    chip "ch32v103" "ch32v0v4" 64 20 ramStd 0x01 0x2500 0x01 fbV 0 0 .unsupported,
    chip "ch32v203" "ch32v0v4" 64 20 ramStd 0x05 0x2030 0x01 fbV 0 0 .unsupported,
    chip "ch32v208" "ch32v0v4" 64 20 ramStd 0x05 0x2080 0x01 fbV 0 0 .unsupported,
    chip "ch32v303" "ch32v0v4" 288 32 ramStd 0x06 0x3030 0x01 fbV 0 0 .unsupported,
    chip "ch32v305" "ch32v0v4" 288 32 ramStd 0x06 0x3050 0x01 fbV 0 0 .unsupported,
    chip "ch32v307" "ch32v0v4" 288 32 ramStd 0x06 0x3070 0x01 fbV 0 0 .unsupported,
    -- X and L series
    chip "ch32x033" "ch32x0" 62 20 ramStd 0x0d 0x0330 0x01 fbV 0 0 .unsupported,
    chip "ch32x035" "ch32x0" 62 20 ramStd 0x0d 0x0350 0x01 fbV 0 0 .unsupported,
    chip "ch32l103" "ch32l1" 64 20 ramStd 0x0e 0x1030 0x01 fbV 0 0 .unsupported,
    -- CH57x -- RV32IMAC; the 571/573 put RAM higher in the map
    chip "ch570" "ch5xx57x" 240 12 ramStd 0x8b 0x7000 0x03 fbC 0 0 .unsupported,
    chip "ch572" "ch5xx57x" 240 12 ramStd 0x8b 0x7200 0x03 fbC 0 0 .unsupported,
    chip "ch571" "ch5xx57x" 192 18 ramCh571 0x02 0x7100 0x02 fbC 0 0 .unsupported,
    chip "ch573" "ch5xx57x" 448 18 ramCh571 0x02 0x7300 0x02 fbC 0 0 .unsupported,
    -- CH58x
    chip "ch582" "ch5xx58x" 448 32 ramStd 0x07 0x8200 0x03 fbC 0 0 .unsupported,
    chip "ch583" "ch5xx58x" 448 32 ramStd 0x07 0x8300 0x03 fbC 0 0 .unsupported,
    chip "ch584" "ch5xx58x" 448 96 ramStd 0x4b 0x8400 0x02 fbC 0 0 .unsupported,
    chip "ch585" "ch5xx58x" 448 128 ramStd 0x4b 0x9300 0x02 fbC 0 0 .unsupported,
    -- CH59x
    chip "ch591" "ch5xx59x" 192 26 ramStd 0x0b 0x9100 0x03 fbC 0 0 .unsupported,
    chip "ch592" "ch5xx59x" 448 26 ramStd 0x0b 0x9200 0x03 fbC 0 0 .unsupported
  ]

/-- Whether a part's name, in any case, starts the query. -/
def nameMatches : List Char → List Char → Bool
  | [], _ => true
  | _ :: _, [] => false
  | a :: candidate, b :: query => a.toLower = b.toLower && nameMatches candidate query

/-- The row whose name is the longest start of the query, in a table of parts. -/
def chipByName (table : List Chip) (name : String) : Option Chip :=
  if name.isEmpty then
    none
  else
    table.foldl (fun best part =>
      if !nameMatches part.name.toList name.toList then
        best
      else
        match best with
        | none => some part
        | some chosen => if part.name.length > chosen.name.length then some part else best) none

/-- Resolve a part's name. -/
def wlChipByName (name : String) : Option Chip := chipByName chips name

/-- Resolve the family and model pair the programmer reports; the low four
bits of the model are ignored. -/
def wlChipByDetectId (familyId : Byte) (modelId : BitVec 16) : Option Chip :=
  chips.find? fun part => part.linkeId = familyId ∧ part.modelId = modelId &&& 0xfff0

end WchLink
