import WchLink.Gdb.Bench
import WchLink.Gdb.Grammar
import WchLink.Gdb.Replies
import WchLink.Interaction.Reach

/-! # Empty replies

A debugger that gets an empty reply takes the packet type for unsupported from
then on. Refused breakpoints, other annexes and reads of nothing are answered
so as well.
-/

namespace WchLink

open Bytes Interaction

/-! ## Requests and their types -/

/-- The packet types an empty reply would switch off. -/
inductive RequestType
  | insert
  | remove
  | readMemory
  | writeMemory
  | readRegister
  | writeRegister
  | resume
  | step
  | features
  deriving DecidableEq

/-- The type of a request, by what it begins with. -/
def requestType (request : List Byte) : Option RequestType :=
  if request.take 2 = text "Z0" then some .insert
  else if request.take 2 = text "z0" then some .remove
  else if request.take 1 = text "m" then some .readMemory
  else if request.take 1 = text "M" then some .writeMemory
  else if request.take 1 = text "p" then some .readRegister
  else if request.take 1 = text "P" then some .writeRegister
  else if request.take 1 = text "c" then some .resume
  else if request.take 1 = text "s" then some .step
  else if request.take 14 = text "qXfer:features" then some .features
  else none

/-- What a well-formed request of these types asks for. -/
inductive TypedRequest
  | packet (asked : PacketRequest)
  | resume
  | step
  | features (annex : List Byte) (offset length : Word)

/-- The text of a read of an annex. -/
def featuresRequest (annex offset length : List Byte) : List Byte :=
  text "qXfer:features:read:" ++ (annex ++ ascii ':' :: (offset ++ ascii ',' :: length))

/-- The well-formed requests: `c` and `s` may come with an address. -/
inductive WellFormed : List Byte → TypedRequest → Prop
  | packet {string : List Byte} {asked : PacketRequest} :
      Grammatical string asked → WellFormed string (.packet asked)
  | resume {address : List Byte} :
      address = [] ∨ (hexWord address).isSome → WellFormed (ascii 'c' :: address) .resume
  | step {address : List Byte} :
      address = [] ∨ (hexWord address).isSome → WellFormed (ascii 's' :: address) .step
  | features {annex o l : List Byte} {offset length : Word} :
      (∀ c ∈ annex, c ≠ 0 ∧ c ≠ ascii ':') → hexWord o = some offset → hexWord l = some length →
      WellFormed (featuresRequest annex o l) (.features annex offset length)

/-- The replies to a request that was carried out. -/
def TypedRequest.Succeeds : TypedRequest → List Byte → Prop
  | packet (.readMemory _ length), reply =>
      reply.length = 2 * length.toNat ∧ reply.all isHexDigit = true
  | packet (.readRegister _), reply => reply.length = 8 ∧ reply.all isHexDigit = true
  | packet _, reply => reply = text "OK"
  | resume, reply => StopReply reply
  | step, reply => StopReply reply
  | features _ _ _, reply => ChunkReply buildTargetXml reply

/-! ## What keeps a reply from being empty -/

/-- The breakpoint is inserted: its kind and address are fit, a slot is free,
and the target lets the instruction be read and replaced. -/
def Inserts (conn : GdbConn) (address kind : Word) (asked : List Host.Idx) : Prop :=
  (kind = 2 ∨ kind = 4) ∧ address % kind = 0 ∧
    ∃ slot, conn.findSlot (fun breakpoint => !breakpoint.used) = some slot ∧
      ∃ read patch original conn', asked = read ++ patch ∧
        ((gdbMemRead address (conn.breakpoints slot).original kind.toNat).run conn).Yields read
          ((.ok (), original), conn) ∧
        ((gdbMemPatch address ((gdbReplacement kind).take kind.toNat)).run
          (conn.setBreakpoint slot { conn.breakpoints slot with original })).Yields patch
            (.ok (), conn')

/-- The breakpoint is removed: a slot holds it, and the target takes the saved
instruction back. -/
def Removes (conn : GdbConn) (address kind : Word) (asked : List Host.Idx) : Prop :=
  ∃ slot, conn.findSlot (fun breakpoint =>
      breakpoint.used && breakpoint.address == address && breakpoint.kind == kind) = some slot ∧
    ∃ conn', ((gdbMemPatch (conn.breakpoints slot).address ((conn.breakpoints slot).original.take
      (conn.breakpoints slot).kind.toNat)).run conn).Yields asked (.ok (), conn')

/-- What a request needs for a reply that is not empty, in the state before it
and from the surroundings. -/
def TypedRequest.Granted : TypedRequest → GdbConn → List Host.Idx → Prop
  | packet (.insert address kind), conn, asked => Inserts conn address kind asked
  | packet (.remove address kind), conn, asked => Removes conn address kind asked
  | packet (.readMemory _ length), _, asked =>
      length = 0 → ∃ size, (⟨.malloc size, false⟩ : Host.Idx) ∈ asked
  | features annex _ _, _, _ => annex = text "target.xml"
  | _, _, _ => True

/-! ## The breakpoint table -/

/-- Reading the connection makes no exchange. -/
theorem yields_get_iff {α : Type} {rest : GdbConn → Gdb α} {conn : GdbConn} {asked : List Host.Idx}
    {result : α × GdbConn} : ((get >>= rest).run conn).Yields asked result ↔
      ((rest conn).run conn).Yields asked result := Iff.rfl

theorem yields_modify_iff {α : Type} {update : GdbConn → GdbConn} {rest : Gdb α} {conn : GdbConn}
    {asked : List Host.Idx} {result : α × GdbConn} :
    ((modify update >>= fun _ => rest).run conn).Yields asked result ↔
      (rest.run (update conn)).Yields asked result := Iff.rfl

theorem gdbMemRead_keeps {conn conn' : GdbConn} {address : Word} {buffer : List Byte} {length : Nat}
    {asked : List Host.Idx} {result : Except WlErr Unit × List Byte}
    (h : ((gdbMemRead address buffer length).run conn).Yields asked (result, conn')) :
    conn' = conn := by
  rw [gdbMemRead, yields_get_iff, Program.yields_own_bind_iff] at h
  obtain ⟨first, more, value, between, rfl, hlift, hdone⟩ := h
  rw [StateT.run_lift, Program.yields_bind_iff] at hlift
  obtain ⟨made, rest, read, rfl, -, hpure⟩ := hlift
  have hbetween := (Program.yields_done_iff.mp hpure).2
  have hfinal := (Program.yields_done_iff.mp hdone).2
  cases hbetween
  exact (Prod.mk.inj hfinal).2

section Insert

variable {conn conn' : GdbConn} {address kind : Word} {asked : List Host.Idx} {done : Bool}

theorem inserts_of_yields
    (h : ((gdbBreakpointInsert address kind).run conn).Yields asked (true, conn')) :
    Inserts conn address kind asked := by
  unfold gdbBreakpointInsert at h
  split at h
  · cases (Program.yields_done_iff.mp h).2
  next hfit =>
  rw [not_or, not_and_or, not_not, not_not, not_not] at hfit
  rw [yields_get_iff] at h
  split at h
  · cases (Program.yields_done_iff.mp h).2
  next slot hslot =>
  rw [yields_get_iff, Program.yields_own_bind_iff] at h
  obtain ⟨read, more, ⟨status, original⟩, between, rfl, hread, h⟩ := h
  obtain rfl := gdbMemRead_keeps hread
  rw [yields_modify_iff] at h
  cases status with
  | error error => cases (Program.yields_done_iff.mp h).2
  | ok value =>
      rw [Program.yields_own_bind_iff] at h
      obtain ⟨patch, last, status, after, rfl, hpatch, h⟩ := h
      cases status with
      | error error => cases (Program.yields_done_iff.mp h).2
      | ok value =>
          have hlast : last = [] := (Program.yields_done_iff.mp h).1
          subst hlast
          rw [List.append_nil]
          exact ⟨hfit.1, hfit.2, slot, hslot, read, patch, original, after, rfl, hread, hpatch⟩

theorem yields_of_inserts (h : Inserts conn address kind asked) :
    ∃ conn', ((gdbBreakpointInsert address kind).run conn).Yields asked (true, conn') := by
  obtain ⟨hkind, haligned, slot, hslot, read, patch, original, after, rfl, hread, hpatch⟩ := h
  have hfit : ¬((kind ≠ 2 ∧ kind ≠ 4) ∨ address % kind ≠ 0) := by
    rw [not_or, not_and_or, not_not, not_not, not_not]
    exact ⟨hkind, haligned⟩
  unfold gdbBreakpointInsert
  rw [if_neg hfit]
  refine ⟨after.setBreakpoint slot
    { conn.breakpoints slot with original, used := true, address, kind }, ?_⟩
  rw [yields_get_iff, hslot, yields_get_iff]
  refine Program.yields_own_bind_iff.mpr ⟨read, patch, (.ok (), original), conn, rfl, hread, ?_⟩
  rw [yields_modify_iff]
  refine Program.yields_own_bind_iff.mpr ⟨patch, [], .ok (), after, (List.append_nil _).symm,
    hpatch, .refl _ _⟩

/-- Inserting succeeds exactly when it is granted. -/
theorem gdbBreakpointInsert_yields_iff
    (h : ((gdbBreakpointInsert address kind).run conn).Yields asked (done, conn')) :
    done = true ↔ Inserts conn address kind asked := by
  constructor
  · rintro rfl
    exact inserts_of_yields h
  · intro hgranted
    obtain ⟨after, hyields⟩ := yields_of_inserts hgranted
    exact (Prod.mk.inj (h.unique hyields)).1

theorem removes_of_yields
    (h : ((gdbBreakpointRemove address kind).run conn).Yields asked (true, conn')) :
    Removes conn address kind asked := by
  rw [gdbBreakpointRemove, yields_get_iff] at h
  split at h
  · cases (Program.yields_done_iff.mp h).2
  next slot hslot =>
  rw [yields_get_iff, Program.yields_own_bind_iff] at h
  obtain ⟨patch, last, status, after, rfl, hpatch, h⟩ := h
  cases status with
  | error error => cases (Program.yields_done_iff.mp h).2
  | ok value =>
      have hlast : last = [] := (Program.yields_done_iff.mp h).1
      subst hlast
      rw [List.append_nil]
      exact ⟨slot, hslot, after, hpatch⟩

theorem yields_of_removes (h : Removes conn address kind asked) :
    ∃ conn', ((gdbBreakpointRemove address kind).run conn).Yields asked (true, conn') := by
  obtain ⟨slot, hslot, after, hpatch⟩ := h
  rw [gdbBreakpointRemove]
  refine ⟨after.setBreakpoint slot { conn.breakpoints slot with used := false }, ?_⟩
  rw [yields_get_iff, hslot, yields_get_iff]
  exact Program.yields_own_bind_iff.mpr ⟨asked, [], .ok (), after, (List.append_nil _).symm,
    hpatch, .refl _ _⟩

/-- Removing succeeds exactly when it is granted. -/
theorem gdbBreakpointRemove_yields_iff
    (h : ((gdbBreakpointRemove address kind).run conn).Yields asked (done, conn')) :
    done = true ↔ Removes conn address kind asked := by
  constructor
  · rintro rfl
    exact removes_of_yields h
  · intro hgranted
    obtain ⟨after, hyields⟩ := yields_of_removes hgranted
    exact (Prod.mk.inj (h.unique hyields)).1

end Insert

/-! ## The replies to each request -/

/-- The reply is empty exactly when the request is not granted; another one
says that it was carried out or is an error. -/
structure TypedRequest.Fits (request : TypedRequest) (conn : GdbConn) (asked : List Host.Idx)
    (reply : List Byte) : Prop where
  empty : reply = [] ↔ ¬request.Granted conn asked
  proper : reply ≠ [] → request.Succeeds reply ∨ ErrorReply reply

/-- Every path ends in one such reply. -/
def RepliesTo {α : Type} (request : TypedRequest) (program : Gdb α) : Prop :=
  Transmits program fun conn asked packets _ _ => ∃ reply, packets = [reply] ∧
    request.Fits conn asked reply

/-- The replies of the requests that are always granted. -/
def TypedRequest.Proper (request : TypedRequest) (reply : List Byte) : Prop :=
  reply ≠ [] ∧ (request.Succeeds reply ∨ ErrorReply reply)

theorem repliesTo_of_proper {α : Type} {request : TypedRequest} {program : Gdb α}
    (hgranted : ∀ conn asked, request.Granted conn asked)
    (h : RepliesWith request.Proper program) : RepliesTo request program := by
  refine Transmits.mono h ?_
  rintro conn asked packets value conn' ⟨reply, rfl, hsome, hproper⟩
  exact ⟨reply, rfl, ⟨fun hnil => absurd hnil hsome, fun hnot => absurd (hgranted _ _) hnot⟩,
    fun _ => hproper⟩

theorem RepliesTo.then {α β : Type} {request : TypedRequest} {program : Gdb α} {rest : α → Gdb β}
    (h : RepliesTo request program) (hrest : ∀ value, Transmits (rest value)
      fun _ asked packets _ _ => asked = [] ∧ packets = []) : RepliesTo request (program >>= rest) := by
  refine Transmits.bind h hrest ?_
  rintro conn asked packets value between more others result conn' ⟨reply, rfl, hfits⟩ ⟨rfl, rfl⟩
  simp only [List.append_nil]
  exact ⟨reply, rfl, hfits⟩

section Requests

variable (fuel : Nat)

/-- An error is a proper reply to anything. -/
theorem gdbSendError_proper (request : TypedRequest) :
    RepliesWith request.Proper (gdbSendText fuel (text "E01")) :=
  .string fuel (by decide) (by decide) ⟨by decide, .inr errorReply_e01⟩

theorem gdbSendOk_proper {request : TypedRequest} (hok : request.Succeeds (text "OK")) :
    RepliesWith request.Proper (gdbSendText fuel (text "OK")) :=
  .string fuel (by decide) (by decide) ⟨by decide, .inl hok⟩

/-- The reply to a change of the breakpoint table. -/
theorem breakpoint_repliesTo {asked : PacketRequest} {update : Gdb Bool}
    (hoff : offSocket.StateMem update)
    (hok : (TypedRequest.packet asked).Succeeds (text "OK"))
    (hgranted : ∀ conn others done conn', (update.run conn).Yields others (done, conn') →
      (done = true ↔ (TypedRequest.packet asked).Granted conn others)) :
    RepliesTo (.packet asked) (do
      if ← update then
        gdbSendText fuel (text "OK")
      else
        gdbSendText fuel []) := by
  have hsend (done : Bool) : Transmits
      (if done then gdbSendText fuel (text "OK") else gdbSendText fuel [])
        fun conn asked packets _ conn' =>
          asked = [] ∧ packets = [if done then text "OK" else []] ∧ conn' = conn := by
    cases done with
    | true => exact gdbSendPacket_transmits fuel (by decide)
    | false => exact gdbSendPacket_transmits fuel (by decide)
  refine Transmits.bind (Transmits.silent hoff) hsend ?_
  rintro conn others packets done between more sent result conn' ⟨rfl, hyields⟩ ⟨rfl, rfl, rfl⟩
  rw [List.append_nil]
  have hdone := hgranted conn others done _ hyields
  cases done with
  | true => exact ⟨text "OK", rfl, ⟨nofun, fun hnot => absurd (hdone.mp rfl) hnot⟩, fun _ => .inl hok⟩
  | false =>
      refine ⟨[], rfl, ⟨fun _ hgrant => ?_, fun _ => rfl⟩, fun hsome => absurd rfl hsome⟩
      cases hdone.mpr hgrant

theorem readRegister_proper (reg : Word) :
    RepliesWith (TypedRequest.packet (.readRegister reg)).Proper
      ((PacketRequest.readRegister reg).perform fuel) := by
  have hfailed := gdbSendError_proper fuel (.packet (.readRegister reg))
  unfold PacketRequest.perform
  refine .ite hfailed (.after (offSocket_onTarget _) fun status => ?_)
  cases status with
  | error error => exact hfailed
  | ok value =>
      have hdigits : (formatHexU32Le value).all isHexDigit = true :=
        all_isHexDigit_flatMap [byteOf value 0, byteOf value 1, byteOf value 2, byteOf value 3]
      have hlength : (formatHexU32Le value).length ≤ gdbPacketMax := by
        rw [length_formatHexU32Le]
        decide
      exact .string fuel (cstring_eq_self (formatHexU32Le_ne_zero value)) hlength
        ⟨nofun, .inl ⟨rfl, hdigits⟩⟩

theorem writeRegister_proper (reg value : Word) :
    RepliesWith (TypedRequest.packet (.writeRegister reg value)).Proper
      ((PacketRequest.writeRegister reg value).perform fuel) := by
  have hfailed := gdbSendError_proper fuel (.packet (.writeRegister reg value))
  unfold PacketRequest.perform
  refine .ite hfailed (.after (offSocket_onTarget _) fun status => ?_)
  cases status with
  | error error => exact hfailed
  | ok value => exact gdbSendOk_proper fuel rfl

theorem writeMemory_proper (address : Word) (data : List Byte) :
    RepliesWith (TypedRequest.packet (.writeMemory address data)).Proper
      ((PacketRequest.writeMemory address data).perform fuel) := by
  have hfailed := gdbSendError_proper fuel (.packet (.writeMemory address data))
  unfold PacketRequest.perform
  refine .ite hfailed (.after (offSocket_onTarget _) fun status => ?_)
  cases status with
  | error error => exact hfailed
  | ok value => exact gdbSendOk_proper fuel rfl

/-- A read of at least one byte never has an empty reply. -/
theorem readMemory_proper (address : Word) {length : Word} (hlength : length ≠ 0) :
    RepliesWith (TypedRequest.packet (.readMemory address length)).Proper
      (gdbReadMemory fuel address length) := by
  have hfailed := gdbSendError_proper fuel (.packet (.readMemory address length))
  unfold gdbReadMemory
  split
  · exact hfailed
  next hroom =>
  refine .afterWhere (fun status => ∀ buffer, status = .ok buffer → buffer.length = length.toNat)
    (offSocket_onTarget _) (filled_onTarget_length address length.toNat) fun status hstatus => ?_
  cases status with
  | error error => exact hfailed
  | ok buffer =>
      have hallocates : offSocket.StateMem
          (StateT.lift (request (.malloc (length.toNat * 2 + 1))) : Gdb Bool) :=
        offSocket.stateLift (offSocket_request rfl)
      have hbuffer := hstatus buffer rfl
      have hdigits := length_flatMap_formatHexByte buffer
      rw [hbuffer] at hdigits
      have hmax : length.toNat ≤ 1024 := BitVec.not_lt.mp hroom
      have hsome : length.toNat ≠ 0 := fun hzero => hlength (BitVec.eq_of_toNat_eq hzero)
      refine .after hallocates fun allocated => .ite (.packet fuel ?_ ⟨?_, .inl ⟨hdigits, ?_⟩⟩) hfailed
      · unfold gdbPacketMax
        omega
      · intro hnil
        rw [hnil, List.length_nil] at hdigits
        omega
      · exact all_isHexDigit_flatMap buffer

/-- A read of nothing has an empty reply if there is memory for it. -/
theorem readNothing_repliesTo (address : Word) :
    RepliesTo (.packet (.readMemory address 0)) (gdbReadMemory fuel address 0) := by
  have hread : gdbReadMemory fuel address 0 = (do
      if ← StateT.lift (request (.malloc 1)) then
        gdbSendPacket fuel []
      else
        gdbSendText fuel (text "E01")) := rfl
  have hallocates : offSocket.StateMem (StateT.lift (request (.malloc 1)) : Gdb Bool) :=
    offSocket.stateLift (offSocket_request rfl)
  have hsend (allocated : Bool) : Transmits
      (if allocated then gdbSendPacket fuel [] else gdbSendText fuel (text "E01"))
        fun conn asked packets _ conn' =>
          asked = [] ∧ packets = [if allocated then [] else text "E01"] ∧ conn' = conn := by
    cases allocated with
    | true => exact gdbSendPacket_transmits fuel (by decide)
    | false => exact gdbSendPacket_transmits fuel (by decide)
  rw [hread]
  refine Transmits.bind (Transmits.silent hallocates) hsend ?_
  rintro conn others packets allocated between more sent result conn' ⟨rfl, hyields⟩ ⟨rfl, rfl, rfl⟩
  obtain ⟨reply, rest, rfl, hdone⟩ := Program.yields_call_iff.mp hyields
  obtain ⟨rfl, hresult⟩ := Program.yields_done_iff.mp hdone
  obtain ⟨rfl, rfl⟩ := Prod.mk.inj hresult
  cases allocated with
  | true =>
      refine ⟨[], rfl, ⟨fun _ hgrant => ?_, fun _ => rfl⟩, fun hsome => absurd rfl hsome⟩
      obtain ⟨size, hsize⟩ := hgrant rfl
      cases List.mem_singleton.mp hsize
  | false =>
      refine ⟨text "E01", rfl, ⟨nofun, fun hnot => ?_⟩, fun _ => .inr errorReply_e01⟩
      exact absurd (fun _ => ⟨1, List.mem_singleton_self _⟩) hnot

theorem readMemory_repliesTo (address length : Word) :
    RepliesTo (.packet (.readMemory address length)) (gdbReadMemory fuel address length) := by
  by_cases hlength : length = 0
  · subst hlength
    exact readNothing_repliesTo fuel address
  · exact repliesTo_of_proper (fun _ _ hzero => absurd hzero hlength)
      (readMemory_proper fuel address hlength)

/-- Every request of the grammar is replied to so. -/
theorem perform_repliesTo (asked : PacketRequest) :
    RepliesTo (.packet asked) (asked.perform fuel) := by
  cases asked with
  | readMemory address length => exact readMemory_repliesTo fuel address length
  | writeMemory address data =>
      exact repliesTo_of_proper (fun _ _ => trivial) (writeMemory_proper fuel address data)
  | readRegister reg =>
      exact repliesTo_of_proper (fun _ _ => trivial) (readRegister_proper fuel reg)
  | writeRegister reg value =>
      exact repliesTo_of_proper (fun _ _ => trivial) (writeRegister_proper fuel reg value)
  | insert address kind =>
      exact breakpoint_repliesTo fuel (gdbBreakpointInsert_mem offSocket_hasMemory _ _) rfl
        fun _ _ _ _ hyields => gdbBreakpointInsert_yields_iff hyields
  | remove address kind =>
      exact breakpoint_repliesTo fuel (gdbBreakpointRemove_mem offSocket_hasMemory _ _) rfl
        fun _ _ _ _ hyields => gdbBreakpointRemove_yields_iff hyields

theorem resume_repliesTo : RepliesTo .resume (gdbContinue fuel) := by
  refine repliesTo_of_proper (fun _ _ => trivial) ((gdbContinue_replies fuel).mono ?_)
  rintro reply (⟨signal, rfl⟩ | ⟨high, low, rfl, hdigits⟩)
  · exact ⟨nofun, .inl ⟨signal, rfl⟩⟩
  · exact ⟨nofun, .inr ⟨high, low, rfl, hdigits⟩⟩

theorem step_repliesTo : RepliesTo .step (gdbSingleStep fuel) := by
  refine repliesTo_of_proper (fun _ _ => trivial) ((gdbSingleStep_replies fuel).mono ?_)
  rintro reply (⟨signal, rfl⟩ | ⟨high, low, rfl, hdigits⟩)
  · exact ⟨nofun, .inl ⟨signal, rfl⟩⟩
  · exact ⟨nofun, .inr ⟨high, low, rfl, hdigits⟩⟩

end Requests

/-! ## Reads of an annex -/

section Features

variable {annex o l : List Byte} {offset length : Word}
  (hannex : ∀ c ∈ annex, c ≠ 0 ∧ c ≠ ascii ':') (ho : hexWord o = some offset)
  (hl : hexWord l = some length)

include hannex ho hl

theorem parseQxfer_features (tail : List Byte) :
    parseQxfer (featuresRequest annex o l ++ 0 :: tail) =
      if annex.length ≥ 64 then none
      else some { object := text "features", annex, offset, length } := by
  have hnumber := digits_of_hexWord ho
  have hnumber' := digits_of_hexWord hl
  have hcolon : ascii ':' ≠ 0 := by decide
  -- the fields behind the annex
  have hfields : ascii ':' ∉ o ++ ascii ',' :: l ∧ 0 ∉ o ++ ascii ',' :: l := by
    refine ⟨fun hmem => ?_, fun hzero => fields_ne_zero hnumber hnumber' 0 hzero rfl⟩
    rcases List.mem_append.mp hmem with hmem | hmem
    · exact notMem_of_digits (by decide) hnumber hmem
    · rcases List.mem_cons.mp hmem with hmem | hmem
      · exact absurd hmem (by decide)
      · exact notMem_of_digits (by decide) hnumber' hmem
  have hstart : (featuresRequest annex o l ++ 0 :: tail).drop 6 = text "features" ++ ascii ':' ::
      (text "read" ++ ascii ':' :: (annex ++ ascii ':' :: (o ++ ascii ',' :: l ++ 0 :: tail))) := by
    have hprefix : text "qXfer:features:read:" = text "qXfer:" ++ (text "features" ++ ascii ':' ::
        (text "read" ++ [ascii ':'])) := by decide
    simp only [featuresRequest, hprefix, List.append_assoc, List.cons_append, List.nil_append]
    rfl
  have hcolon1 := strchr_of (by decide : ascii ':' ∉ text "features" ∧ 0 ∉ text "features")
    (text "read" ++ ascii ':' :: (annex ++ ascii ':' :: (o ++ ascii ',' :: l ++ 0 :: tail)))
  have hcolon2 := strchr_of (by decide : ascii ':' ∉ text "read" ∧ 0 ∉ text "read")
    (annex ++ ascii ':' :: (o ++ ascii ',' :: l ++ 0 :: tail))
  have hlast := strrchr_last hcolon (fun hzero => (hannex 0 hzero).1 rfl) hfields.2 hfields.1 tail
  have hoffset : parseHexU32 (o ++ ascii ',' :: l ++ 0 :: tail) =
      some (offset, ascii ',' :: (l ++ 0 :: tail)) :=
    parseHexU32_iff.mpr ⟨o, by simp, hnumber, (numeralEnds_cons _).mpr (by decide)⟩
  have hlength : parseHexU32 (l ++ 0 :: tail) = some (length, 0 :: tail) :=
    parseHexU32_iff.mpr ⟨l, rfl, hnumber', (numeralEnds_cons _).mpr (by decide)⟩
  unfold parseQxfer
  rw [hstart]
  dsimp only
  rw [hcolon1]
  have hobject : ¬(text "features").length ≥ 64 := by decide
  have hread (rest : List Byte) : strStarts (text "read" ++ ascii ':' :: rest) "read:" = true := rfl
  simp only [Option.bind_eq_bind, Option.bind_some, List.drop_one, List.tail_cons, hcolon2, hlast,
    take_before, if_neg hobject, hread, hoffset, hlength, List.getD_cons_zero, Bool.not_true,
    Bool.false_eq_true, if_false, ne_eq, not_true_eq_false]
  rfl

/-- The description is sent in chunks. -/
theorem gdbHandleQxfer_target (fuel : Nat) (tail : List Byte) (htarget : annex = text "target.xml") :
    RepliesWith (TypedRequest.features annex offset length).Proper
      (gdbHandleQxfer fuel (featuresRequest annex o l ++ 0 :: tail)) := by
  have hparse := parseQxfer_features hannex ho hl tail
  have hshort : ¬annex.length ≥ 64 := by
    rw [htarget]
    decide
  rw [if_neg hshort] at hparse
  refine .after offSocket.stateGet fun conn => ?_
  rw [hparse]
  dsimp only
  rw [if_pos ⟨rfl, htarget⟩]
  refine (gdbQxferReply_replies fuel _ _ _).mono ?_
  rintro reply ⟨chunk, hchunk, rfl | rfl⟩
  · exact ⟨nofun, .inl ⟨chunk, hchunk, .inl rfl⟩⟩
  · exact ⟨nofun, .inl ⟨chunk, hchunk, .inr rfl⟩⟩

/-- Other annexes have an empty reply. -/
theorem gdbHandleQxfer_other (fuel : Nat) (tail : List Byte) (hother : annex ≠ text "target.xml") :
    RepliesWith (fun reply => reply = [])
      (gdbHandleQxfer fuel (featuresRequest annex o l ++ 0 :: tail)) := by
  have hempty : RepliesWith (fun reply => reply = []) (gdbSendText fuel []) :=
    .string fuel (by decide) (by decide) rfl
  have hmap : text "features" ≠ text "memory-map" := by decide
  have hparse := parseQxfer_features hannex ho hl tail
  refine .after offSocket.stateGet fun conn => ?_
  by_cases hlong : annex.length ≥ 64
  · rw [hparse, if_pos hlong]
    exact hempty
  · rw [hparse, if_neg hlong]
    dsimp only
    rw [if_neg fun h => hother h.2, if_neg fun h => hmap h.1]
    exact hempty

omit hannex ho hl in
theorem gdbHandlePacket_annex (fuel : Nat) (tail : List Byte) :
    gdbHandlePacket fuel (featuresRequest annex o l ++ 0 :: tail) =
      gdbHandleQxfer fuel (featuresRequest annex o l ++ 0 :: tail) >>= fun _ => pure true := by
  have hquery : gdbHandleQuery fuel (featuresRequest annex o l ++ 0 :: tail) =
      gdbHandleQxfer fuel (featuresRequest annex o l ++ 0 :: tail) := by
    have htwo : (featuresRequest annex o l ++ 0 :: tail).take 2 = text "qX" := rfl
    have hnot {literal : String} (hliteral : ((text literal).take 2).length = 2 ∧
        (text literal).take 2 ≠ text "qX") :
        strEq (featuresRequest annex o l ++ 0 :: tail) literal = false :=
      not_strEq ⟨hliteral.1, htwo ▸ hliteral.2⟩
    unfold gdbHandleQuery
    rw [hnot (by decide), hnot (by decide), hnot (by decide), hnot (by decide), hnot (by decide),
      hnot (by decide)]
    rfl
  rw [← hquery]
  rfl

theorem features_repliesTo (fuel : Nat) (tail : List Byte) :
    RepliesTo (.features annex offset length)
      (gdbHandleQxfer fuel (featuresRequest annex o l ++ 0 :: tail)) := by
  by_cases htarget : annex = text "target.xml"
  · exact repliesTo_of_proper (fun _ _ => htarget)
      (gdbHandleQxfer_target hannex ho hl fuel tail htarget)
  · refine Transmits.mono (gdbHandleQxfer_other hannex ho hl fuel tail htarget) ?_
    rintro conn asked packets value conn' ⟨reply, rfl, rfl⟩
    exact ⟨[], rfl, ⟨fun _ => htarget, fun _ => rfl⟩, fun hsome => absurd rfl hsome⟩

end Features

/-! ## One turn -/

theorem Grammatical.ne_zero {string : List Byte} {asked : PacketRequest}
    (h : Grammatical string asked) : ∀ c ∈ string, c ≠ 0 := by
  have hdigits {digits : List Byte} {number : Word} (hnumber : hexWord digits = some number) :
      ∀ c ∈ digits, c ≠ 0 := (digits_of_hexWord hnumber).ne_zero
  cases h with
  | readMemory ha hl =>
      simp only [List.forall_mem_cons, List.forall_mem_append]
      exact ⟨by decide, hdigits ha, by decide, hdigits hl⟩
  | writeMemory ha hl hd _ =>
      simp only [List.forall_mem_cons, List.forall_mem_append]
      exact ⟨by decide, hdigits ha, by decide, hdigits hl, by decide, hexBytes_ne_zero hd⟩
  | readRegister hr =>
      simp only [List.forall_mem_cons]
      exact ⟨by decide, hdigits hr⟩
  | writeRegister hr hv =>
      simp only [List.forall_mem_cons, List.forall_mem_append]
      exact ⟨by decide, hdigits hr, by decide, hdigits hv⟩
  | insert ha hk =>
      simp only [List.forall_mem_cons, List.forall_mem_append]
      exact ⟨by decide, by decide, by decide, hdigits ha, by decide, hdigits hk⟩
  | remove ha hk =>
      simp only [List.forall_mem_cons, List.forall_mem_append]
      exact ⟨by decide, by decide, by decide, hdigits ha, by decide, hdigits hk⟩

/-- A well-formed request, in the packet buffer. -/
theorem gdbHandlePacket_repliesTo (fuel : Nat) {string : List Byte} {request : TypedRequest}
    (h : WellFormed string request) (tail : List Byte) :
    RepliesTo request (gdbHandlePacket fuel (string ++ 0 :: tail)) := by
  have hthen {program : Gdb Unit} (hprogram : RepliesTo request program) :
      RepliesTo request (program >>= fun _ => pure true) :=
    hprogram.then fun _ => (Transmits.done true).mono fun _ _ _ _ _ hdone => ⟨hdone.1, hdone.2.1⟩
  cases h with
  | packet hgrammar =>
      rw [gdbHandlePacket_scans fuel hgrammar.ne_zero (hgrammar.scans tail)]
      exact hthen (perform_repliesTo fuel _)
  | resume haddress =>
      rw [gdbHandlePacket_continues (.inl rfl)]
      exact hthen (resume_repliesTo fuel)
  | step haddress =>
      rw [gdbHandlePacket_steps (.inl rfl)]
      exact hthen (step_repliesTo fuel)
  | features hannex ho hl =>
      rw [gdbHandlePacket_annex]
      exact hthen (features_repliesTo hannex ho hl fuel tail)

/-! ## Conversations -/

/-- A request that was answered: the connection before it, what was exchanged
with the target and the machine, and the packets it was answered with. -/
structure AnsweredTurn where
  conn : GdbConn
  request : List Byte
  asked : List Host.Idx
  replies : List (List Byte)

/-- The requests a fresh connection has answered, the packet buffer and the
connection after them, while the debugger acknowledges. -/
inductive Conversation (link : Link) (chip : Chip) :
    List AnsweredTurn → List Byte → GdbConn → Prop
  | start (buffer : List Byte) : Conversation link chip [] buffer (.fresh link chip)
  | turn {history : List AnsweredTurn} {buffer request : List Byte} {conn conn' : GdbConn}
      {fuel : Nat} {made : List Host.Idx} {continues : Bool} {replies : List (List Byte)} :
      Conversation link chip history buffer conn → conn.quit = false →
      ((gdbHandlePacket fuel (fillPacket buffer request)).run conn).Yields made
        (continues, conn') →
      Acknowledges made → WirePackets made replies →
      Conversation link chip (history ++ [⟨conn, request, aside made, replies⟩])
        (fillPacket buffer request) conn'

/-- A request of this type was answered with more than nothing before. -/
def AnsweredBefore (before : List AnsweredTurn) (request : List Byte) : Prop :=
  ∃ earlier ∈ before, (requestType earlier.request).isSome ∧
    requestType earlier.request = requestType request ∧ ∃ reply ∈ earlier.replies, reply ≠ []

/-- The turn's well-formed request, if any, is of a type answered before and
has this property. -/
def EachRepeated (property : TypedRequest → AnsweredTurn → Prop) (history : List AnsweredTurn) :
    Prop :=
  ∀ before turn after request, history = before ++ turn :: after →
    WellFormed turn.request request → AnsweredBefore before turn.request → property request turn

/-- No request of a type that was answered is answered with nothing later on:
the reply says that the request was carried out or is an error. -/
def Reserved (history : List AnsweredTurn) : Prop :=
  EachRepeated (fun request turn => ∀ reply ∈ turn.replies,
    reply ≠ [] ∧ (request.Succeeds reply ∨ ErrorReply reply)) history

/-- Every such request is granted. -/
def AllGranted (history : List AnsweredTurn) : Prop :=
  EachRepeated (fun request turn => request.Granted turn.conn turn.asked) history

/-- What one turn's replies are. -/
theorem Conversation.fits {link : Link} {chip : Chip} {history : List AnsweredTurn}
    {buffer : List Byte} {conn : GdbConn} (h : Conversation link chip history buffer conn) :
    ∀ turn ∈ history, ∀ request, WellFormed turn.request request →
      ∃ reply, turn.replies = [reply] ∧ request.Fits turn.conn turn.asked reply := by
  induction h with
  | start buffer => exact fun turn hmem => absurd hmem List.not_mem_nil
  | @turn history buffer string conn conn' fuel made continues replies _ _ hyields hacks hwire ih =>
      intro turn hmem request hformed
      rcases List.mem_append.mp hmem with hmem | hmem
      · exact ih turn hmem request hformed
      obtain rfl := List.mem_singleton.mp hmem
      have hturn := gdbHandlePacket_repliesTo fuel hformed (buffer.drop (string.length + 1)) conn
      have hpost := Program.Follows.of_run hturn hyields
      obtain ⟨packets, hpackets, reply, rfl, hfits⟩ :=
        hpost (by rwa [List.append_nil]) continues conn' rfl
      rw [List.append_nil] at hpackets hfits
      exact ⟨reply, hwire.unique hpackets, hfits⟩

/-- A conversation keeps the empty reply for unsupported packets exactly as
long as it grants every request of a type it has answered. -/
theorem conversation_reserved_iff {link : Link} {chip : Chip} {history : List AnsweredTurn}
    {buffer : List Byte} {conn : GdbConn} (h : Conversation link chip history buffer conn) :
    Reserved history ↔ AllGranted history := by
  constructor
  · intro hreserved before turn after request hhistory hformed hbefore
    have hmem : turn ∈ history := by
      rw [hhistory]
      exact List.mem_append_right _ List.mem_cons_self
    obtain ⟨reply, hreply, hfits⟩ := h.fits turn hmem request hformed
    have hproper := hreserved before turn after request hhistory hformed hbefore reply
      (by rw [hreply]; exact List.mem_singleton_self _)
    by_contra hrefused
    exact hproper.1 (hfits.empty.mpr hrefused)
  · intro hgranted before turn after request hhistory hformed hbefore reply hmem
    have hturn : turn ∈ history := by
      rw [hhistory]
      exact List.mem_append_right _ List.mem_cons_self
    obtain ⟨reply', hreply, hfits⟩ := h.fits turn hturn request hformed
    rw [hreply] at hmem
    obtain rfl := List.mem_singleton.mp hmem
    have hgrant := hgranted before turn after request hhistory hformed hbefore
    have hsome : reply ≠ [] := fun hnil => hfits.empty.mp hnil hgrant
    exact ⟨hsome, hfits.proper hsome⟩

/-! ### Concrete conversations -/

/-- Register requests are always granted. -/
theorem WellFormed.granted_register {string : List Byte} {request : TypedRequest}
    (h : WellFormed string request) (hregister : string.head? = some (ascii 'p'))
    (conn : GdbConn) (asked : List Host.Idx) : request.Granted conn asked := by
  cases h with
  | packet hgrammar =>
      cases hgrammar with
      | readRegister => trivial
      | _ => exact absurd (Option.some.inj hregister) (by decide)
  | _ => exact absurd (Option.some.inj hregister) (by decide)

/-- The exchanges of a reply that is taken and acknowledged at once. -/
def replyExchanges (reply : List Byte) : List Host.Idx :=
  [⟨.send (gdbFrame reply), .wrote (gdbFrame reply).length⟩, ⟨.recv, .byte (ascii '+')⟩]

theorem replyExchanges_wire {reply : List Byte} (hreply : reply.length ≤ gdbPacketMax) :
    Acknowledges (replyExchanges reply) ∧ WirePackets (replyExchanges reply) [reply] := by
  refine ⟨rfl, ?_, fun packet hmem => ?_, rfl⟩
  · show (gdbFrame reply).take (gdbFrame reply).length ++ [] = gdbFrame reply ++ []
    rw [List.take_length]
  · rw [List.mem_singleton.mp hmem]
    exact hreply

/-- `p20` twice: there is no such register. -/
theorem conversation_reserved_register :
    Reserved [⟨.fresh wlLinkeAttachTransport ch32v003, text "p20", [], [text "E01"]⟩,
      ⟨.fresh wlLinkeAttachTransport ch32v003, text "p20", [], [text "E01"]⟩] := by
  have hturn (conn : GdbConn) (tail : List Byte) :
      ((gdbHandlePacket 2 (text "p20" ++ 0 :: tail)).run conn).Yields (replyExchanges (text "E01"))
        (true, conn) :=
    Program.yields_call_iff.mpr ⟨.wrote 7, _, rfl,
      Program.yields_call_iff.mpr ⟨.byte (ascii '+'), [], rfl, .refl _ _⟩⟩
  obtain ⟨hacks, hwire⟩ := replyExchanges_wire (by decide : (text "E01").length ≤ gdbPacketMax)
  have hfirst := Conversation.turn (.start []) rfl
    (hturn (.fresh wlLinkeAttachTransport ch32v003) _) hacks hwire
  have hsecond := hfirst.turn rfl (hturn _ _) hacks hwire
  refine (conversation_reserved_iff hsecond).mpr ?_
  intro before turn after request hhistory hformed _
  refine hformed.granted_register ?_ _ _
  have hmem : turn ∈ before ++ turn :: after := List.mem_append_right _ List.mem_cons_self
  rw [← hhistory] at hmem
  rcases List.mem_cons.mp hmem with rfl | hmem
  · rfl
  · rw [List.mem_singleton.mp hmem]
    rfl

/-- `Z0,20000000,2` on the bench, exchange by exchange. -/
def insertFollowed : List Host.Idx × Program Host (Bool × GdbConn) :=
  ((gdbHandlePacket 4 (fillPacket [] (text "Z0,20000000,2"))).run
    (.fresh wlLinkeAttachTransport ch32v003)).follow bench 40
      ⟨simSelected ch32v003, [ascii '+'], []⟩

theorem insertFollowed_returned :
    insertFollowed.2.returned.map (fun result => result.2.quit) = some false := by
  decide +kernel

theorem insertFollowed_wire :
    Acknowledges insertFollowed.1 ∧ WirePackets insertFollowed.1 [text "OK"] := by
  have howed : owedAfter false insertFollowed.1 = some false := by decide +kernel
  have hbytes : wireBytes insertFollowed.1 = [text "OK"].flatMap gdbFrame := by decide +kernel
  refine ⟨?_, hbytes, by decide, howed⟩
  unfold Acknowledges
  rw [howed]
  rfl

/-- An odd address is refused without a request of the target. -/
theorem gdbHandlePacket_misaligned (conn : GdbConn) (tail : List Byte) :
    ((gdbHandlePacket 2 (text "Z0,20000001,2" ++ 0 :: tail)).run conn).Yields (replyExchanges [])
      (true, conn) :=
  Program.yields_call_iff.mpr ⟨.wrote 4, _, rfl,
    Program.yields_call_iff.mpr ⟨.byte (ascii '+'), [], rfl, .refl _ _⟩⟩

/-- `Z0,20000001,2` after `Z0,20000000,2` was accepted. -/
theorem conversation_not_reserved : ¬∀ (link : Link) (chip : Chip) (history : List AnsweredTurn)
    (buffer : List Byte) (conn : GdbConn), Conversation link chip history buffer conn →
      Reserved history := by
  intro hclaim
  obtain ⟨⟨continues, conn⟩, hreturned, hquit⟩ :=
    Option.map_eq_some_iff.mp insertFollowed_returned
  have hyields := Program.yields_of_follow bench 40 _ hreturned
  have hfirst := Conversation.turn (.start []) rfl hyields insertFollowed_wire.1
    insertFollowed_wire.2
  obtain ⟨hacks, hwire⟩ := replyExchanges_wire (by decide : ([] : List Byte).length ≤ gdbPacketMax)
  have hsecond := hfirst.turn hquit (gdbHandlePacket_misaligned conn _) hacks hwire
  have hreserved := hclaim _ _ _ _ _ hsecond
  have hformed : WellFormed (text "Z0,20000001,2") (.packet (.insert 0x20000001 2)) :=
    .packet (@Grammatical.insert (text "20000001") (text "2") _ _ (by decide) (by decide))
  have hbefore : AnsweredBefore [⟨.fresh wlLinkeAttachTransport ch32v003, text "Z0,20000000,2",
      aside insertFollowed.1, [text "OK"]⟩] (text "Z0,20000001,2") :=
    ⟨_, List.mem_singleton_self _, by decide, by decide, text "OK", List.mem_singleton_self _,
      by decide⟩
  have hreply := hreserved _ ⟨conn, text "Z0,20000001,2", [], [[]]⟩ [] _ rfl hformed hbefore []
    (List.mem_singleton_self _)
  exact hreply.1 rfl

end WchLink
