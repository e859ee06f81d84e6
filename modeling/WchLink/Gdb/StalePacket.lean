import WchLink.Gdb.Session

/-! # Bytes behind the packet

Two packet buffers that hold the same packet differ at most behind its NUL. The
text functions never look there, and neither does any handler but the one for
breakpoints, which skips three bytes of a packet that may have only two.
-/

namespace WchLink

open Bytes Interaction

/-! ## Pointers into the two buffers -/

theorem getD_drop (pointer : List Byte) (count : Nat) :
    (pointer.drop count).getD 0 0 = pointer.getD count 0 := by
  rw [List.getD_eq_getElem?_getD, List.getD_eq_getElem?_getD, List.getElem?_drop, Nat.add_zero]

theorem ne_zero_of_hexNibble {c : Byte} {nibble : BitVec 4} (h : hexNibble c = some nibble) :
    c ≠ 0 := by
  rintro rfl
  cases h

/-- The same bytes up to a NUL, anything behind it. -/
inductive SameString : List Byte → List Byte → Prop
  | nul (behind behind' : List Byte) : SameString (0 :: behind) (0 :: behind')
  | cons (c : Byte) {first second : List Byte} (rest : SameString first second) :
      SameString (c :: first) (c :: second)

namespace SameString

variable {first second : List Byte}

theorem of_append (packet behind behind' : List Byte) :
    SameString (packet ++ 0 :: behind) (packet ++ 0 :: behind') := by
  induction packet with
  | nil => exact .nul behind behind'
  | cons c packet ih => exact .cons c ih

theorem head (h : SameString first second) : first.getD 0 0 = second.getD 0 0 := by
  cases h with
  | nul => rfl
  | cons => rfl

/-- Past a byte that is not the NUL. -/
theorem next (h : SameString first second) (hhead : first.getD 0 0 ≠ 0) :
    SameString (first.drop 1) (second.drop 1) := by
  cases h with
  | nul => exact absurd rfl hhead
  | cons c rest => exact rest

theorem cstring_eq (h : SameString first second) : cstring first = cstring second := by
  induction h with
  | nul => rfl
  | cons c rest ih =>
      rw [cstring, List.takeWhile_cons, cstring, List.takeWhile_cons]
      exact congrArg (fun string => if decide (c ≠ 0) then c :: string else []) ih

theorem strEq_eq (h : SameString first second) (literal : String) :
    strEq first literal = strEq second literal := by
  rw [strEq, strEq, h.cstring_eq]

/-- Comparing with bytes among which there is no NUL. -/
theorem take_eq_iff (h : SameString first second) {literal : List Byte} (hliteral : 0 ∉ literal) :
    first.take literal.length = literal ↔ second.take literal.length = literal := by
  induction h generalizing literal with
  | nul behind behind' =>
      cases literal with
      | nil => exact Iff.rfl
      | cons c literal =>
          have hc : (0 : Byte) ≠ c := fun h => hliteral (h ▸ List.mem_cons_self)
          rw [List.length_cons, List.take_succ_cons, List.take_succ_cons, List.cons.injEq,
            List.cons.injEq]
          exact iff_of_false (fun h => hc h.1) fun h => hc h.1
  | cons c rest ih =>
      cases literal with
      | nil => exact Iff.rfl
      | cons d literal =>
          rw [List.length_cons, List.take_succ_cons, List.take_succ_cons, List.cons.injEq,
            List.cons.injEq, ih fun h => hliteral (List.mem_cons_of_mem d h)]

theorem strStarts_eq (h : SameString first second) {literal : String}
    (hliteral : 0 ∉ text literal) : strStarts first literal = strStarts second literal := by
  rw [strStarts, strStarts, Bool.eq_iff_iff, beq_iff_eq, beq_iff_eq]
  exact h.take_eq_iff hliteral

/-- Past a prefix that is there. -/
theorem drop_literal (h : SameString first second) {literal : List Byte} (hliteral : 0 ∉ literal)
    (hstarts : first.take literal.length = literal) :
    SameString (first.drop literal.length) (second.drop literal.length) := by
  induction literal generalizing first second with
  | nil => exact h
  | cons c literal ih =>
      cases h with
      | nul =>
          rw [List.length_cons, List.take_succ_cons, List.cons.injEq] at hstarts
          exact absurd (hstarts.1 ▸ List.mem_cons_self) hliteral
      | cons d rest =>
          rw [List.length_cons, List.take_succ_cons, List.cons.injEq] at hstarts
          exact ih rest (fun h => hliteral (List.mem_cons_of_mem c h)) hstarts.2

end SameString

/-- A character found in each buffer after the same bytes. -/
structure SameSplit (c : Byte) (first second first' second' : List Byte) : Prop where
  split : ∃ skipped, first = skipped ++ first' ∧ second = skipped ++ second'
  found : first'.getD 0 0 = c
  same : SameString first' second'

namespace SameSplit

variable {c : Byte} {first second first' second' : List Byte}

theorem here (h : SameString first second) (hfound : first.getD 0 0 = c) :
    SameSplit c first second first second :=
  ⟨⟨[], rfl, rfl⟩, hfound, h⟩

theorem cons (h : SameSplit c first second first' second') (d : Byte) :
    SameSplit c (d :: first) (d :: second) first' second' := by
  obtain ⟨skipped, rfl, rfl⟩ := h.split
  exact ⟨⟨d :: skipped, rfl, rfl⟩, h.found, h.same⟩

theorem next (h : SameSplit c first second first' second') (hc : c ≠ 0) :
    SameString (first'.drop 1) (second'.drop 1) :=
  h.same.next (h.found ▸ hc)

/-- What was skipped, as the handlers take it. -/
theorem skipped_eq (h : SameSplit c first second first' second') :
    first.take (first.length - first'.length) = second.take (second.length - second'.length) := by
  obtain ⟨skipped, rfl, rfl⟩ := h.split
  rw [List.length_append, List.length_append, Nat.add_sub_cancel, Nat.add_sub_cancel,
    List.take_left, List.take_left]

end SameSplit

namespace SameString

variable {first second : List Byte}

theorem strchr_same (h : SameString first second) (c : Byte) :
    Option.Rel (SameSplit c first second) (strchr c first) (strchr c second) := by
  induction h with
  | nul behind behind' =>
      by_cases hc : 0 = c
      · rw [strchr, strchr, if_pos hc, if_pos hc]
        exact .some (.here (.nul behind behind') hc)
      · rw [strchr, strchr, if_neg hc, if_neg hc, if_pos rfl, if_pos rfl]
        exact .none
  | @cons d first second rest ih =>
      by_cases hc : d = c
      · rw [strchr, strchr, if_pos hc, if_pos hc]
        exact .some (.here (.cons d rest) hc)
      · rw [strchr, strchr, if_neg hc, if_neg hc]
        by_cases hzero : d = 0
        · rw [if_pos hzero, if_pos hzero]
          exact .none
        · rw [if_neg hzero, if_neg hzero]
          generalize strchr c first = found at ih
          generalize strchr c second = found' at ih
          cases ih with
          | none => exact .none
          | some hsplit => exact .some (hsplit.cons d)

theorem strrchr_same (h : SameString first second) (c : Byte) :
    Option.Rel (SameSplit c first second) (strrchr c first) (strrchr c second) := by
  induction h with
  | nul behind behind' =>
      rw [strrchr, strrchr, if_pos rfl, if_pos rfl]
      exact .none
  | @cons d first second rest ih =>
      rw [strrchr, strrchr]
      by_cases hzero : d = 0
      · rw [if_pos hzero, if_pos hzero]
        exact .none
      · rw [if_neg hzero, if_neg hzero]
        generalize strrchr c first = found at ih
        generalize strrchr c second = found' at ih
        cases ih with
        | none =>
            dsimp only
            by_cases hc : d = c
            · rw [if_pos hc, if_pos hc]
              exact .some (.here (.cons d rest) hc)
            · rw [if_neg hc, if_neg hc]
              exact .none
        | some hsplit => exact .some (hsplit.cons d)

theorem parseHexDigits_same (h : SameString first second) (start : Word) :
    (parseHexDigits start first).1 = (parseHexDigits start second).1 ∧
      SameString (parseHexDigits start first).2 (parseHexDigits start second).2 := by
  induction h generalizing start with
  | nul behind behind' => exact ⟨rfl, .nul behind behind'⟩
  | cons c rest ih =>
      rw [parseHexDigits, parseHexDigits]
      cases hexNibble c with
      | none => exact ⟨rfl, .cons c rest⟩
      | some nibble => exact ih _

/-- The numbers parsed are the same and what follows them is. -/
theorem parseHexU32_same (h : SameString first second) :
    Option.Rel (fun parsed parsed' => parsed.1 = parsed'.1 ∧ SameString parsed.2 parsed'.2)
      (parseHexU32 first) (parseHexU32 second) := by
  rw [parseHexU32, parseHexU32, h.head]
  by_cases hdigit : (hexNibble (second.getD 0 0)).isSome = true
  · rw [if_pos hdigit, if_pos hdigit]
    exact .some (h.parseHexDigits_same 0)
  · rw [if_neg hdigit, if_neg hdigit]
    exact .none

/-- Two digits at a time, none of them a NUL. -/
theorem parseHexBytes_eq (h : SameString first second) (count : Nat) :
    parseHexBytes first count = parseHexBytes second count := by
  induction count generalizing first second with
  | zero => rfl
  | succ count ih =>
      rw [parseHexBytes, parseHexBytes, ← h.head]
      cases hhigh : hexNibble (first.getD 0 0) with
      | none => rfl
      | some high =>
          have hnext := h.next (ne_zero_of_hexNibble hhigh)
          have hsecond : first.getD 1 0 = second.getD 1 0 := by
            rw [← getD_drop first 1, ← getD_drop second 1]
            exact hnext.head
          rw [← hsecond]
          cases hlow : hexNibble (first.getD 1 0) with
          | none => rfl
          | some low =>
              have hlast := hnext.next (by
                rw [getD_drop]
                exact ne_zero_of_hexNibble hlow)
              rw [List.drop_drop, List.drop_drop] at hlast
              show (do
                let rest ← parseHexBytes (first.drop 2) count
                return (high ++ low) :: rest : Option (List Byte)) = _
              rw [ih hlast]
              rfl

theorem gdbDecodeHexString_eq (h : SameString first second) (max : Nat) :
    gdbDecodeHexString first max = gdbDecodeHexString second max := by
  rw [gdbDecodeHexString, gdbDecodeHexString, h.cstring_eq]

end SameString

/-! ## The handlers -/

section Handlers

variable {first second : List Byte} (fuel : Nat)

theorem gdbHandleP_same (h : SameString first second) (hhead : first.getD 0 0 ≠ 0) :
    gdbHandleP fuel first = gdbHandleP fuel second := by
  have hnumber := (h.next hhead).parseHexU32_same
  have hequals := h.strchr_same (ascii '=')
  unfold gdbHandleP
  generalize parseHexU32 (first.drop 1) = parsed at hnumber
  generalize parseHexU32 (second.drop 1) = parsed' at hnumber
  cases hnumber with
  | none => rfl
  | some hsame =>
      dsimp only
      rw [hsame.1]
      generalize strchr (ascii '=') first = found at hequals
      generalize strchr (ascii '=') second = found' at hequals
      cases hequals with
      | none => rfl
      | @some found found' hsplit =>
          have hvalue := (hsplit.next (by decide)).parseHexU32_same
          dsimp only
          generalize parseHexU32 (found.drop 1) = value at hvalue
          generalize parseHexU32 (found'.drop 1) = value' at hvalue
          cases hvalue with
          | none => rfl
          | some hsame =>
              dsimp only
              rw [hsame.1]

/-- Two numerals with a comma between them, as three of the parsers read them. -/
def parseNumerals (pointer : List Byte) : Option (Word × Word × List Byte) := do
  let (first, rest) ← parseHexU32 pointer
  if rest.getD 0 0 ≠ ascii ',' then
    none
  else
    let (second, rest) ← parseHexU32 (rest.drop 1)
    return (first, second, rest)

theorem parseNumerals_same (h : SameString first second) :
    Option.Rel (fun parsed parsed' => parsed.1 = parsed'.1 ∧ parsed.2.1 = parsed'.2.1 ∧
      SameString parsed.2.2 parsed'.2.2) (parseNumerals first) (parseNumerals second) := by
  have hnumber := h.parseHexU32_same
  unfold parseNumerals
  generalize parseHexU32 first = parsed at hnumber
  generalize parseHexU32 second = parsed' at hnumber
  cases hnumber with
  | none => exact .none
  | @some parsed parsed' hsame =>
      obtain ⟨number, rest⟩ := parsed
      obtain ⟨number', rest'⟩ := parsed'
      obtain ⟨rfl, hrest⟩ := hsame
      simp only [Option.bind_eq_bind, Option.bind_some]
      rw [← hrest.head]
      by_cases hcomma : rest.getD 0 0 ≠ ascii ','
      · rw [if_pos hcomma, if_pos hcomma]
        exact .none
      · rw [if_neg hcomma, if_neg hcomma]
        have hnonzero : rest.getD 0 0 ≠ 0 := by
          rw [not_not.mp hcomma]
          decide
        have hnumber := (hrest.next hnonzero).parseHexU32_same
        generalize parseHexU32 (rest.drop 1) = parsed at hnumber
        generalize parseHexU32 (rest'.drop 1) = parsed' at hnumber
        cases hnumber with
        | none => exact .none
        | some hsame => exact .some ⟨rfl, hsame.1, hsame.2⟩

/-- A parser that goes on with the two numbers alone. -/
theorem parseNumerals_map {α : Type} (pointer : List Byte) (use : Word → Word → α) :
    (do
      let (first, rest) ← parseHexU32 pointer
      if rest.getD 0 0 ≠ ascii ',' then
        none
      else
        let (second, _) ← parseHexU32 (rest.drop 1)
        return use first second : Option α) =
      (parseNumerals pointer).map fun parsed => use parsed.1 parsed.2.1 := by
  unfold parseNumerals
  cases parseHexU32 pointer with
  | none => rfl
  | some parsed =>
      simp only [Option.bind_eq_bind, Option.bind_some]
      by_cases hcomma : parsed.2.getD 0 0 ≠ ascii ','
      · rw [if_pos hcomma, if_pos hcomma]
        rfl
      · rw [if_neg hcomma, if_neg hcomma]
        cases parseHexU32 (parsed.2.drop 1) with
        | none => rfl
        | some parsed => rfl

theorem parseNumerals_map_same (h : SameString first second) {α : Type} (use : Word → Word → α) :
    ((parseNumerals first).map fun parsed => use parsed.1 parsed.2.1) =
      (parseNumerals second).map fun parsed => use parsed.1 parsed.2.1 := by
  have hnumbers := parseNumerals_same h
  generalize parseNumerals first = parsed at hnumbers
  generalize parseNumerals second = parsed' at hnumbers
  cases hnumbers with
  | none => rfl
  | some hsame => exact congrArg some (congrArg₂ use hsame.1 hsame.2.1)

theorem parseMemoryRange_same (h : SameString first second) (hhead : first.getD 0 0 ≠ 0) :
    Option.Rel (fun parsed parsed' => parsed.1 = parsed'.1 ∧ parsed.2.1 = parsed'.2.1 ∧
      SameString parsed.2.2 parsed'.2.2) (parseMemoryRange first) (parseMemoryRange second) :=
  parseNumerals_same (h.next hhead)

theorem gdbHandleM_same (h : SameString first second) (hhead : first.getD 0 0 ≠ 0) :
    gdbHandleM fuel first = gdbHandleM fuel second := by
  have hrange := parseMemoryRange_same h hhead
  unfold gdbHandleM
  generalize parseMemoryRange first = parsed at hrange
  generalize parseMemoryRange second = parsed' at hrange
  cases hrange with
  | none => rfl
  | some hsame =>
      dsimp only
      rw [hsame.1, hsame.2.1]

theorem parseMemoryWrite_same (h : SameString first second) (hhead : first.getD 0 0 ≠ 0) :
    parseMemoryWrite first = parseMemoryWrite second := by
  have hrange := parseMemoryRange_same h hhead
  unfold parseMemoryWrite
  generalize parseMemoryRange first = parsed at hrange
  generalize parseMemoryRange second = parsed' at hrange
  cases hrange with
  | none => rfl
  | @some parsed parsed' hsame =>
      obtain ⟨address, length, rest⟩ := parsed
      obtain ⟨address', length', rest'⟩ := parsed'
      obtain ⟨rfl, rfl, hrest⟩ := hsame
      show (if rest.getD 0 0 ≠ ascii ':' ∨ length > gdbMemoryMax then none else do
        let buffer ← parseHexBytes (rest.drop 1) length.toNat
        return (address, buffer)) = (if rest'.getD 0 0 ≠ ascii ':' ∨ length > gdbMemoryMax then none
        else do
          let buffer ← parseHexBytes (rest'.drop 1) length.toNat
          return (address, buffer))
      rw [← hrest.head]
      by_cases hcolon : rest.getD 0 0 ≠ ascii ':' ∨ length > gdbMemoryMax
      · rw [if_pos hcolon, if_pos hcolon]
      · have hnonzero : rest.getD 0 0 ≠ 0 := by
          rw [not_not.mp (not_or.mp hcolon).1]
          decide
        rw [if_neg hcolon, if_neg hcolon, (hrest.next hnonzero).parseHexBytes_eq]

theorem gdbHandleMWrite_same (h : SameString first second) (hhead : first.getD 0 0 ≠ 0) :
    gdbHandleMWrite fuel first = gdbHandleMWrite fuel second := by
  rw [gdbHandleMWrite, gdbHandleMWrite, parseMemoryWrite_same h hhead]

/-- The breakpoint parser skips three bytes whatever they are. -/
theorem parseBreakpoint_same (h : SameString first second) (hhead : first.getD 0 0 ≠ 0)
    (hthird : first.getD 1 0 = ascii '0' → SameString (first.drop 3) (second.drop 3)) :
    parseBreakpoint first = parseBreakpoint second := by
  have hsecond : second.getD 1 0 = first.getD 1 0 := by
    rw [← getD_drop first 1, ← getD_drop second 1]
    exact (h.next hhead).head.symm
  unfold parseBreakpoint
  simp only [hsecond, parseNumerals_map]
  by_cases hzero : first.getD 1 0 ≠ ascii '0'
  · rw [if_pos hzero, if_pos hzero]
  · rw [if_neg hzero, if_neg hzero]
    exact parseNumerals_map_same (hthird (not_not.mp hzero)) Prod.mk

theorem gdbHandleZ_same (h : SameString first second) (hhead : first.getD 0 0 ≠ 0)
    (hthird : first.getD 1 0 = ascii '0' → SameString (first.drop 3) (second.drop 3)) :
    gdbHandleZ fuel first = gdbHandleZ fuel second := by
  rw [gdbHandleZ, gdbHandleZ, parseBreakpoint_same h hhead hthird, h.head]

theorem parseQxfer_same (h : SameString (first.drop 6) (second.drop 6)) :
    parseQxfer first = parseQxfer second := by
  have hcolon1 := h.strchr_same (ascii ':')
  unfold parseQxfer
  simp only [parseNumerals_map]
  generalize first.drop 6 = start at *
  generalize second.drop 6 = start' at *
  generalize strchr (ascii ':') start = found at hcolon1
  generalize strchr (ascii ':') start' = found' at hcolon1
  cases hcolon1 with
  | none => rfl
  | @some colon1 colon1' hsplit1 =>
      have hread := hsplit1.next (by decide)
      have hcolon2 := hread.strchr_same (ascii ':')
      simp only [Option.bind_eq_bind, Option.bind_some, hsplit1.skipped_eq,
        hread.strStarts_eq (by decide : 0 ∉ text "read:")]
      generalize strchr (ascii ':') (colon1.drop 1) = found at hcolon2
      generalize strchr (ascii ':') (colon1'.drop 1) = found' at hcolon2
      cases hcolon2 with
      | none => rfl
      | @some colon2 colon2' hsplit2 =>
          have hlast := (hsplit2.next (by decide)).strrchr_same (ascii ':')
          simp only [Option.bind_some]
          generalize strrchr (ascii ':') (colon2.drop 1) = found at hlast
          generalize strrchr (ascii ':') (colon2'.drop 1) = found' at hlast
          cases hlast with
          | none => rfl
          | @some lastColon lastColon' hsplit3 =>
              simp only [Option.bind_some, hsplit3.skipped_eq,
                parseNumerals_map_same (hsplit3.next (by decide))]

theorem gdbHandleQuery_same (h : SameString first second) :
    gdbHandleQuery fuel first = gdbHandleQuery fuel second := by
  have hdrop {literal : String} (hliteral : 0 ∉ text literal)
      (hstarts : strStarts second literal = true) :
      SameString (first.drop (text literal).length) (second.drop (text literal).length) := by
    rw [← h.strStarts_eq hliteral] at hstarts
    exact h.drop_literal hliteral (eq_of_beq hstarts)
  unfold gdbHandleQuery
  simp only [h.strEq_eq, h.strStarts_eq (by decide : 0 ∉ text "qRcmd,"),
    h.strStarts_eq (by decide : 0 ∉ text "qXfer:")]
  refine ite_congr rfl (fun _ => rfl) fun _ => ?_
  refine ite_congr rfl (fun _ => rfl) fun _ => ?_
  refine ite_congr rfl (fun _ => rfl) fun _ => ?_
  refine ite_congr rfl (fun _ => rfl) fun _ => ?_
  refine ite_congr rfl (fun _ => rfl) fun _ => ?_
  refine ite_congr rfl (fun _ => rfl) fun _ => ?_
  refine ite_congr rfl (fun hstarts => ?_) fun _ => ?_
  · have hcommand : gdbDecodeHexString (first.drop 6) 256 = gdbDecodeHexString (second.drop 6) 256 :=
      (hdrop (by decide) hstarts).gdbDecodeHexString_eq 256
    rw [gdbHandleQRcmd, gdbHandleQRcmd, hcommand]
  · refine ite_congr rfl (fun hstarts => ?_) fun _ => rfl
    have hwanted : parseQxfer first = parseQxfer second :=
      parseQxfer_same (hdrop (by decide) hstarts)
    rw [gdbHandleQxfer, gdbHandleQxfer, hwanted]

theorem gdbHandleV_same (h : SameString first second) :
    gdbHandleV fuel first = gdbHandleV fuel second := by
  unfold gdbHandleV
  simp only [h.strEq_eq, h.strStarts_eq (by decide : 0 ∉ text "vCont;")]
  refine ite_congr rfl (fun _ => rfl) fun _ => ?_
  refine ite_congr rfl (fun hstarts => ?_) fun _ => rfl
  have haction : first.getD 6 0 = second.getD 6 0 := by
    rw [← h.strStarts_eq (by decide : 0 ∉ text "vCont;")] at hstarts
    have hdrop := h.drop_literal (by decide : 0 ∉ text "vCont;") (eq_of_beq hstarts)
    rw [← getD_drop first 6, ← getD_drop second 6]
    exact hdrop.head
  rw [haction]

/-- The commands of the two packets that are too short for the parser. -/
def ShortBreakpoint (packet : List Byte) : Prop := packet = text "Z0" ∨ packet = text "z0"

theorem gdbHandlePacket_same (packet behind behind' : List Byte) (hshort : ¬ShortBreakpoint packet) :
    gdbHandlePacket fuel (packet ++ 0 :: behind) = gdbHandlePacket fuel (packet ++ 0 :: behind') := by
  have h := SameString.of_append packet behind behind'
  have hhead {c : Byte} (hcommand : (packet ++ 0 :: behind).getD 0 0 = c) (hc : c ≠ 0) :
      (packet ++ 0 :: behind).getD 0 0 ≠ 0 := hcommand ▸ hc
  -- a breakpoint packet that gets past its type has a third byte to skip
  have hthird (hcommand : (packet ++ 0 :: behind).getD 0 0 = ascii 'Z' ∨
      (packet ++ 0 :: behind).getD 0 0 = ascii 'z')
      (hzero : (packet ++ 0 :: behind).getD 1 0 = ascii '0') :
      SameString ((packet ++ 0 :: behind).drop 3) ((packet ++ 0 :: behind').drop 3) := by
    match packet with
    | [] =>
        have hnul : (0 : Byte) = ascii 'Z' ∨ (0 : Byte) = ascii 'z' := hcommand
        exact absurd hnul (by decide)
    | [c] =>
        have hnul : (0 : Byte) = ascii '0' := hzero
        exact absurd hnul (by decide)
    | [c, d] =>
        refine absurd ?_ hshort
        rcases hcommand with hcommand | hcommand
        · exact .inl (congrArg₂ (fun c d => [c, d]) hcommand hzero)
        · exact .inr (congrArg₂ (fun c d => [c, d]) hcommand hzero)
    | c :: d :: e :: rest => exact SameString.of_append rest behind behind'
  unfold gdbHandlePacket
  rw [← h.head]
  dsimp only
  refine ite_congr rfl (fun _ => rfl) fun _ => ?_
  refine ite_congr rfl (fun _ => rfl) fun _ => ?_
  refine ite_congr rfl (fun hcommand => ?_) fun _ => ?_
  · have hnonzero : (packet ++ 0 :: behind).getD 0 0 ≠ 0 := by
      rcases hcommand with hcommand | hcommand
      · exact hhead hcommand (by decide)
      · exact hhead hcommand (by decide)
    rw [gdbHandleP_same fuel h hnonzero]
  refine ite_congr rfl (fun hcommand => ?_) fun _ => ?_
  · rw [gdbHandleM_same fuel h (hhead hcommand (by decide))]
  refine ite_congr rfl (fun hcommand => ?_) fun _ => ?_
  · rw [gdbHandleMWrite_same fuel h (hhead hcommand (by decide))]
  refine ite_congr rfl (fun _ => rfl) fun _ => ?_
  refine ite_congr rfl (fun _ => rfl) fun _ => ?_
  refine ite_congr rfl (fun hcommand => ?_) fun _ => ?_
  · have hnonzero : (packet ++ 0 :: behind).getD 0 0 ≠ 0 := by
      rcases hcommand with hcommand | hcommand
      · exact hhead hcommand (by decide)
      · exact hhead hcommand (by decide)
    rw [gdbHandleZ_same fuel h hnonzero (hthird hcommand)]
  refine ite_congr rfl (fun _ => rfl) fun _ => ?_
  refine ite_congr rfl (fun _ => rfl) fun _ => ?_
  refine ite_congr rfl (fun _ => rfl) fun _ => ?_
  refine ite_congr rfl (fun _ => ?_) fun _ => ?_
  · rw [gdbHandleQuery_same fuel h]
  refine ite_congr rfl (fun _ => ?_) fun _ => rfl
  rw [gdbHandleV_same fuel h]

end Handlers

/-! ## The law -/

/-- On any machine and from any state, handling the packet comes out the same
whatever the buffer held before it was received. -/
def PacketIndependent (payload : List Byte) : Prop :=
  ∀ {σ : Type} (host : Handler Host σ) (fuel : Nat) (conn : GdbConn) (state : σ)
    (old old' : List Byte), old.length = gdbPacketMax → old'.length = gdbPacketMax →
    ((gdbHandlePacket fuel (fillPacket old payload)).run conn).run host state =
      ((gdbHandlePacket fuel (fillPacket old' payload)).run conn).run host state

/-- A machine that counts the programmer's requests and fails them. -/
def countRequests : Handler Host Nat
  | .usb _, count => (.error (-1), count + 1)
  | .recv, count => (.closed, count)
  | .send bytes, count => (.wrote bytes.length, count)
  | .poll, count => (false, count)
  | .sleep _, count => ((), count)
  | .malloc _, count => (true, count)
  | .listen _, count => (true, count)
  | .accept, count => (true, count)

/-- A connection with one breakpoint. -/
def connWithBreakpoint : GdbConn :=
  (GdbConn.fresh wlLinkeAttachTransport ch32v003).setBreakpoint ⟨0, by decide⟩
    { used := true, address := 0x20000000, kind := 2, original := [0, 0, 0, 0] }

/-- A buffer that once held a packet. -/
def usedBuffer (packet : List Byte) : List Byte :=
  packet ++ List.replicate (gdbPacketMax - packet.length) 0

theorem length_usedBuffer {packet : List Byte} (hfits : packet.length ≤ gdbPacketMax) :
    (usedBuffer packet).length = gdbPacketMax := by
  rw [usedBuffer, List.length_append, List.length_replicate]
  omega

/-- Both short packets take the address behind their NUL for their own. -/
theorem ShortBreakpoint.not_independent {payload : List Byte} (h : ShortBreakpoint payload) :
    ¬PacketIndependent payload := by
  intro hindependent
  have hcount := congrArg Prod.snd (hindependent countRequests 2 connWithBreakpoint 0
    (usedBuffer (text "Z0,20000000,2")) (usedBuffer []) (length_usedBuffer (by decide))
    (length_usedBuffer (by decide)))
  rcases h with rfl | rfl
  · revert hcount
    decide
  · revert hcount
    decide

/-- A packet is handled on its own exactly when it is not one of the two that
are too short for the breakpoint parser. -/
theorem packetIndependent_iff (payload : List Byte) :
    PacketIndependent payload ↔ payload ≠ text "Z0" ∧ payload ≠ text "z0" := by
  constructor
  · intro hindependent
    exact not_or.mp fun hshort => ShortBreakpoint.not_independent hshort hindependent
  · rintro ⟨hinsert, hremove⟩ σ host fuel conn state old old' _ _
    have hshort : ¬ShortBreakpoint payload := not_or.mpr ⟨hinsert, hremove⟩
    rw [fillPacket, fillPacket, gdbHandlePacket_same fuel payload _ _ hshort]

/-- `Z0` after `Z0,20000000,2` inserts that breakpoint once more. -/
theorem not_packetIndependent : ¬∀ payload, PacketIndependent payload :=
  fun hclaim => ShortBreakpoint.not_independent (.inl rfl) (hclaim (text "Z0"))

/-! ## Whole sessions -/

/-- The packet loop takes neither of the short packets. -/
def TakesNoShort {σ : Type} (host : Handler Host σ) : Nat → List Byte → GdbConn → σ → Prop
  | 0, _, _, _ => True
  | fuel + 1, packet, conn, state =>
      conn.quit = false → ∀ payload taken,
        (gdbRecvPacket fuel).run host state = (some (some payload), taken) →
        ¬ShortBreakpoint payload ∧ ∀ result handled,
          ((gdbHandlePacket fuel (fillPacket packet payload)).run conn).run host taken =
            (some result, handled) →
          TakesNoShort host fuel (fillPacket packet payload) result.2 handled

/-- Such a session goes the same way from any buffer. -/
theorem gdbServe_same {σ : Type} {host : Handler Host σ} {fuel : Nat} {packet : List Byte}
    {conn : GdbConn} {state : σ} (h : TakesNoShort host fuel packet conn state)
    (packet' : List Byte) :
    ((gdbServe fuel packet).run conn).run host state =
      ((gdbServe fuel packet').run conn).run host state := by
  induction fuel generalizing packet packet' conn state with
  | zero => rfl
  | succ fuel ih =>
      cases hquit : conn.quit with
      | true => rw [gdbServe_quit hquit, gdbServe_quit hquit]
      | false =>
          rw [gdbServe_run hquit, gdbServe_run hquit, Program.run_bind, Program.run_bind]
          rcases hrecv : (gdbRecvPacket fuel).run host state with ⟨_ | _ | payload, taken⟩
          · rfl
          · rfl
          · obtain ⟨hshort, hrest⟩ := h hquit payload taken hrecv
            have hpacket : gdbHandlePacket fuel (fillPacket packet payload) =
                gdbHandlePacket fuel (fillPacket packet' payload) :=
              gdbHandlePacket_same fuel payload _ _ hshort
            dsimp only
            rw [Program.run_bind, Program.run_bind, ← hpacket]
            rcases hhandle : ((gdbHandlePacket fuel (fillPacket packet payload)).run conn).run
              host taken with ⟨_ | result, handled⟩
            · rfl
            · exact ih (hrest result handled hhandle) (fillPacket packet' payload)

end WchLink
