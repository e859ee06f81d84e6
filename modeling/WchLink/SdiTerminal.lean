import Mathlib.Logic.Relation
import WchLink.Cli
import WchLink.Interaction.Reach
import WchLink.RegisterAccess

/-! # The SDI terminal against the target it reads

The target announces a packet in the low byte of DATA0 and waits for the host
to clear it; up to four payload bytes travel in DATA1. The target may run
between any two requests of the host. What is printed is followed from the
packets the target has left to send to the ones the host has taken.
-/

namespace WchLink

open Bytes Interaction

/-! ## Packets -/

/-- The two encodings of a payload's length. -/
inductive SdiShape
  | evt
  | ch32fun
  deriving DecidableEq, Repr

/-- The low byte of DATA0. -/
def SdiShape.header : SdiShape → Nat → Byte
  | evt, length => BitVec.ofNat 8 length
  | ch32fun, length => 0x80 ||| BitVec.ofNat 8 (length + 4)

/-- A payload in the words that carry it; bytes of theirs it does not fill are
whatever they are. -/
structure SdiPacket where
  payload : List Byte
  data0 : Word
  data1 : Word
  shape : SdiShape
  some_bytes : 1 ≤ payload.length
  few_bytes : payload.length ≤ 7
  header : byteOf data0 0 = shape.header payload.length
  carries : ∀ i, i < payload.length →
    payload.getD i 0 = if i < 3 then byteOf data0 (i + 1) else byteOf data1 (i - 3)

/-- The bytes a list of packets stands for. -/
def payloads (packets : List SdiPacket) : List Byte := packets.flatMap SdiPacket.payload

theorem payloads_append (packets more : List SdiPacket) :
    payloads (packets ++ more) = payloads packets ++ payloads more := List.flatMap_append

theorem payloads_prefix {packets more : List SdiPacket} (h : packets <+: more) :
    payloads packets <+: payloads more := by
  obtain ⟨rest, rfl⟩ := h
  exact ⟨payloads rest, (payloads_append packets rest).symm⟩

/-- Either encoding is told from the other and from nothing. -/
theorem announced_header (shape : SdiShape) {length : Nat} (hsome : 1 ≤ length)
    (hfew : length ≤ 7) : announced (shape.header length) = .payload length := by
  cases shape with
  | evt => interval_cases length <;> decide
  | ch32fun => interval_cases length <;> decide

namespace SdiPacket

variable (packet : SdiPacket)

theorem announces : announced (byteOf packet.data0 0) = .payload packet.payload.length := by
  rw [packet.header]
  exact announced_header packet.shape packet.some_bytes packet.few_bytes

/-- A packet in DATA0 is never taken for an empty register. -/
theorem data0_ne_zero : packet.data0 ≠ 0 := by
  intro hzero
  have hannounces := packet.announces
  have hempty : announced (byteOf 0 0) = .nothing := by decide
  rw [hzero, hempty] at hannounces
  cases hannounces

/-- The host puts the payload together again; a short one without DATA1. -/
theorem terminalBytes_eq {word : Word} (h : 3 < packet.payload.length → word = packet.data1) :
    terminalBytes packet.data0 word packet.payload.length = packet.payload := by
  apply List.ext_getElem
  · simp [terminalBytes]
  · intro i _ hi
    have hcarries : packet.payload[i] =
        if i < 3 then byteOf packet.data0 (i + 1) else byteOf packet.data1 (i - 3) := by
      rw [← packet.carries i hi]
      simp [hi]
    simp only [terminalBytes, List.getElem_map, List.getElem_range]
    rw [hcarries]
    by_cases hlow : i < 3
    · simp [hlow]
    · have hword : word = packet.data1 := h (by omega)
      rw [hword]

end SdiPacket

/-! ## The target -/

/-- Where the target is in sending its next packet. -/
inductive SdiPhase
  /-- It waits until DATA0 reads 0. -/
  | waiting
  /-- It has seen the 0. -/
  | ready
  /-- The upper bytes are in DATA1. -/
  | half
  deriving DecidableEq, Repr

/-- The two registers, the target at one end and the printed bytes at the other. -/
structure Sdi where
  data0 : Word
  data1 : Word
  phase : SdiPhase
  left : List SdiPacket
  sent : List SdiPacket
  /-- The packets whose DATA0 the host has cleared. -/
  cleared : List SdiPacket
  printed : List Byte

/-- One step of the target. -/
inductive Sdi.Sends : Sdi → Sdi → Prop
  | wait {sdi : Sdi} : sdi.phase = .waiting → sdi.data0 = 0 →
      Sends sdi { sdi with phase := .ready }
  | upper {sdi : Sdi} {packet : SdiPacket} {rest : List SdiPacket} : sdi.phase = .ready →
      sdi.left = packet :: rest → 3 < packet.payload.length →
      Sends sdi { sdi with phase := .half, data1 := packet.data1 }
  | short {sdi : Sdi} {packet : SdiPacket} {rest : List SdiPacket} : sdi.phase = .ready →
      sdi.left = packet :: rest → packet.payload.length ≤ 3 →
      Sends sdi { sdi with
        phase := .waiting, data0 := packet.data0, left := rest, sent := sdi.sent ++ [packet] }
  | long {sdi : Sdi} {packet : SdiPacket} {rest : List SdiPacket} : sdi.phase = .half →
      sdi.left = packet :: rest →
      Sends sdi { sdi with
        phase := .waiting, data0 := packet.data0, left := rest, sent := sdi.sent ++ [packet] }

/-- Any number of steps of the target. -/
abbrev Sdi.Runs : Sdi → Sdi → Prop := Relation.ReflTransGen Sdi.Sends

/-- Nothing sent, nothing printed, the rest of the machine as it happens to be. -/
def Sdi.start (packets : List SdiPacket) (data1 : Word) : Sdi :=
  { data0 := 0, data1 := data1, phase := .waiting, left := packets, sent := [], cleared := [],
    printed := [] }

/-! ## The host's accesses -/

namespace Sdi

/-- The value an access is answered with. -/
def value (sdi : Sdi) (access : RegisterAccess) : Word :=
  if access.operation = wlRegOpRead then
    if access.reg = wlDmiData0 then sdi.data0
    else if access.reg = wlDmiData1 then sdi.data1
    else 0
  else
    access.value

/-- What an access leaves behind. -/
def access (sdi : Sdi) (access : RegisterAccess) : Sdi :=
  if access.operation = wlRegOpWrite then
    if access.reg = wlDmiData0 then
      { sdi with
        data0 := access.value
        cleared := if access.value = 0 then sdi.sent else sdi.cleared }
    else if access.reg = wlDmiData1 then { sdi with data1 := access.value }
    else sdi
  else
    sdi

/-- One request of the host. Accesses succeed, and so does printing. -/
def Answers (sdi : Sdi) : (operation : CliOp) → operation.Reply → Sdi → Prop
  | .host (.usb bytes), reply, next =>
      match registerAccess bytes with
      | some access => acknowledged reply = some (sdi.value access) ∧ next = sdi.access access
      | none => next = sdi
  | .print data, reply, next =>
      reply = data.length ∧ next = { sdi with printed := sdi.printed ++ data }
  | _, _, next => next = sdi

end Sdi

/-- The host makes its requests one at a time and the target runs between them. -/
def terminalWorld : World Cli Sdi := fun sdi operation reply next =>
  ∃ between, sdi.Answers operation reply between ∧ between.Runs next

/-! ## What the target keeps -/

/-- DATA0 is empty: the host has taken everything that was sent, and DATA1 has
the upper bytes of the packet that comes next, once the target is that far. -/
structure Sdi.Idle (packets : List SdiPacket) (sdi : Sdi) : Prop where
  empty : sdi.data0 = 0
  stream : sdi.sent ++ sdi.left = packets
  taken : sdi.cleared = sdi.sent
  half : sdi.phase = .half → ∃ packet rest, sdi.left = packet :: rest ∧ sdi.data1 = packet.data1

/-- A packet is in DATA0, and the target waits for the host to take it. -/
structure Sdi.Holds (packets : List SdiPacket) (sdi : Sdi) (packet : SdiPacket) : Prop where
  loaded : sdi.data0 = packet.data0
  stream : sdi.sent ++ sdi.left = packets
  taken : sdi.sent = sdi.cleared ++ [packet]
  waits : sdi.phase = .waiting

namespace Sdi

variable {packets : List SdiPacket} {packet : SdiPacket} {sdi next : Sdi}

/-- While a packet is in DATA0 the target takes no step. -/
theorem Holds.still (h : sdi.Holds packets packet) (hruns : sdi.Runs next) : next = sdi := by
  have hstuck : ∀ after, ¬sdi.Sends after := by
    intro after hstep
    cases hstep with
    | wait _ hzero => exact packet.data0_ne_zero (h.loaded ▸ hzero)
    | upper hphase => cases h.waits.symm.trans hphase
    | short hphase => cases h.waits.symm.trans hphase
    | long hphase => cases h.waits.symm.trans hphase
  cases hruns.cases_head with
  | inl heq => exact heq.symm
  | inr hstep =>
      obtain ⟨after, hstep, -⟩ := hstep
      exact absurd hstep (hstuck after)

/-- Between the host's requests: DATA0 is empty, or a whole packet is there. -/
def Ready (packets : List SdiPacket) (sdi : Sdi) : Prop :=
  sdi.Idle packets ∨ ∃ packet, sdi.Holds packets packet ∧
    (3 < packet.payload.length → sdi.data1 = packet.data1)

theorem Idle.step (h : sdi.Idle packets) (hstep : sdi.Sends next) : next.Ready packets := by
  cases hstep with
  | wait hphase hzero => exact .inl { h with half := fun hhalf => by cases hhalf }
  | upper hphase hleft hlong =>
      exact .inl { h with half := fun _ => ⟨_, _, hleft, rfl⟩ }
  | @short packet rest hphase hleft hshort =>
      refine .inr ⟨packet, ⟨rfl, ?_, congrArg (· ++ [packet]) h.taken.symm, rfl⟩, ?_⟩
      · rw [← h.stream, hleft, List.append_assoc]
        rfl
      · intro hlong
        omega
  | @long packet rest hphase hleft =>
      obtain ⟨head, tail, hcons, hdata1⟩ := h.half hphase
      obtain ⟨rfl, rfl⟩ := List.cons.inj (hleft.symm.trans hcons)
      refine .inr ⟨packet, ⟨rfl, ?_, congrArg (· ++ [packet]) h.taken.symm, rfl⟩, fun _ => hdata1⟩
      rw [← h.stream, hleft, List.append_assoc]
      rfl

/-- Whatever the target does meanwhile, it does to an empty DATA0. -/
theorem Ready.runs (h : sdi.Ready packets) (hruns : sdi.Runs next) : next.Ready packets := by
  induction hruns with
  | refl => exact h
  | tail _ hstep ih =>
      rcases ih with hidle | ⟨packet, hholds, hdata1⟩
      · exact hidle.step hstep
      · rw [hholds.still (.single hstep)]
        exact .inr ⟨packet, hholds, hdata1⟩

/-- The target runs on without the host's part being touched. -/
theorem runs_printed (hruns : sdi.Runs next) :
    next.printed = sdi.printed ∧ next.cleared = sdi.cleared := by
  induction hruns with
  | refl => exact ⟨rfl, rfl⟩
  | tail _ hstep ih =>
      cases hstep with
      | wait => exact ih
      | upper => exact ih
      | short => exact ih
      | long => exact ih

end Sdi
/-! ## The terminal in this world -/

/-- What has been printed, with the request the host is about to make. -/
structure Sdi.Shown (packets : List SdiPacket) (sdi : Sdi) (pending : Option CliOp) : Prop where
  inOrder : sdi.cleared <+: packets
  once : sdi.printed = payloads sdi.cleared ∨
    ∃ before packet, sdi.cleared = before ++ [packet] ∧ sdi.printed = payloads before ∧
      pending = some (.print packet.payload)

theorem Sdi.Shown.printed_prefix {packets : List SdiPacket} {sdi : Sdi} {pending : Option CliOp}
    (h : sdi.Shown packets pending) : sdi.printed <+: payloads packets := by
  rcases h.once with hall | ⟨before, packet, hcleared, hprinted, -⟩
  · rw [hall]
    exact payloads_prefix h.inOrder
  · rw [hprinted]
    refine payloads_prefix (List.IsPrefix.trans ?_ h.inOrder)
    exact ⟨[packet], hcleared.symm⟩

/-- Between two packets, everything the host has taken is printed. -/
structure Sdi.Rests (packets : List SdiPacket) (sdi : Sdi) : Prop where
  ready : sdi.Ready packets
  printed : sdi.printed = payloads sdi.cleared

namespace Sdi

variable {packets : List SdiPacket} {packet : SdiPacket} {sdi next : Sdi}

theorem Ready.inOrder (h : sdi.Ready packets) : sdi.cleared <+: packets := by
  rcases h with hidle | ⟨packet, hholds, -⟩
  · exact ⟨sdi.left, hidle.taken ▸ hidle.stream⟩
  · exact ⟨packet :: sdi.left, by rw [← hholds.stream, hholds.taken, List.append_assoc]; rfl⟩

theorem Rests.shown (h : sdi.Rests packets) (pending : Option CliOp) :
    sdi.Shown packets pending :=
  ⟨h.ready.inOrder, .inl h.printed⟩

/-- Printing is nothing to the registers or the target. -/
theorem Ready.printing (h : sdi.Ready packets) (data : List Byte) :
    ({ sdi with printed := sdi.printed ++ data } : Sdi).Ready packets := by
  rcases h with hidle | ⟨packet, hholds, hdata1⟩
  · exact .inl { hidle with }
  · exact .inr ⟨packet, { hholds with }, hdata1⟩

theorem Rests.runs (h : sdi.Rests packets) (hruns : sdi.Runs next) : next.Rests packets := by
  obtain ⟨hprinted, hcleared⟩ := runs_printed hruns
  exact ⟨h.ready.runs hruns, by rw [hprinted, hcleared, h.printed]⟩

end Sdi

section Terminal

variable {packets : List SdiPacket} {packet : SdiPacket} {sdi : Sdi} {link : Link}
  {guard : Guard Cli Sdi}

theorem wlLinkeDmiRead_terminal (hlink : link.Usable) {reg : Byte}
    {post : Option (Except WlErr Word) → Sdi → Prop}
    (hguard : ∀ bytes, guard sdi (.host (.usb bytes)))
    (hpost : ∀ next, sdi.Runs next →
      post (some (.ok (sdi.value ⟨reg, 0, wlRegOpRead⟩))) next) :
    (onProgrammer (wlLinkeDmiRead link reg).run).wp terminalWorld guard post sdi := by
  unfold wlLinkeDmiRead
  rw [regAccess_eq hlink]
  refine ⟨hguard _, fun reply next hanswer => ?_⟩
  obtain ⟨between, hbetween, hruns⟩ := hanswer
  simp only [Sdi.Answers, registerAccess_regRequest] at hbetween
  obtain ⟨hreply, rfl⟩ := hbetween
  have hvalue := hpost next hruns
  rw [← regAnswer_ok hreply] at hvalue
  exact hvalue

theorem wlLinkeDmiWrite_terminal (hlink : link.Usable) {reg : Byte} {value : Word}
    {post : Option (Except WlErr Unit) → Sdi → Prop}
    (hguard : ∀ bytes, guard sdi (.host (.usb bytes)))
    (hpost : ∀ next, (sdi.access ⟨reg, value, wlRegOpWrite⟩).Runs next →
      post (some (.ok ())) next) :
    (onProgrammer (wlLinkeDmiWrite link reg value).run).wp terminalWorld guard post sdi := by
  rw [wlLinkeDmiWrite_eq hlink]
  refine ⟨hguard _, fun reply next hanswer => ?_⟩
  obtain ⟨between, hbetween, hruns⟩ := hanswer
  simp only [Sdi.Answers, registerAccess_regRequest] at hbetween
  obtain ⟨hreply, rfl⟩ := hbetween
  have hstatus : (regAnswer reply).map (fun _ => ()) = .ok () := by
    rw [regAnswer_ok hreply]
    rfl
  have hvalue := hpost next hruns
  rw [← hstatus] at hvalue
  exact hvalue

/-- The host clears DATA0 and prints the packet that was there. -/
theorem terminalTake_wp {α : Type} {done : α} {rest : Program Cli α}
    {post : Option α → Sdi → Prop} {word : Word} (hlink : link.Usable)
    (hholds : sdi.Holds packets packet) (hprinted : sdi.printed = payloads sdi.cleared)
    (hword : 3 < packet.payload.length → word = packet.data1)
    (hrest : ∀ next, next.Rests packets → rest.wp terminalWorld
      (fun sdi operation => sdi.Shown packets (some operation)) post next) :
    (onProgrammer (wlLinkeDmiWrite link wlDmiData0 0).run >>= fun _ =>
      ask (.print (terminalBytes packet.data0 word packet.payload.length)) >>= fun count =>
        if count ≠ packet.payload.length then pure done else rest).wp terminalWorld
      (fun sdi operation => sdi.Shown packets (some operation)) post sdi := by
  have hordered : sdi.cleared ++ [packet] <+: packets :=
    ⟨sdi.left, by rw [← hholds.taken, hholds.stream]⟩
  have hshown : ∀ pending, sdi.Shown packets pending := fun pending =>
    ⟨(List.prefix_append _ _).trans hordered, .inl hprinted⟩
  rw [packet.terminalBytes_eq hword, Program.wp_bind]
  refine wlLinkeDmiWrite_terminal hlink (fun _ => hshown _) fun next hruns => ?_
  dsimp only
  -- from here the target may send the next packet, while this one is not yet printed
  obtain ⟨hlater, hcleared⟩ := Sdi.runs_printed hruns
  have hempty : (sdi.access ⟨wlDmiData0, 0, wlRegOpWrite⟩).Ready packets :=
    .inl ⟨rfl, hholds.stream, rfl, fun hhalf => by cases hholds.waits.symm.trans hhalf⟩
  have hready : next.Ready packets := hempty.runs hruns
  have htaken : next.cleared = sdi.cleared ++ [packet] := hcleared.trans hholds.taken
  have hsame : next.printed = payloads sdi.cleared := hlater.trans hprinted
  rw [Program.wp_bind]
  refine ⟨⟨htaken ▸ hordered, .inr ⟨sdi.cleared, packet, htaken, hsame, rfl⟩⟩, ?_⟩
  intro count after hanswer
  obtain ⟨between, ⟨hcount, rfl⟩, hmore⟩ := hanswer
  have hall : count = packet.payload.length := hcount
  simp only [Program.wp_done, hall, ne_eq, not_true_eq_false, if_false]
  refine hrest after (Sdi.Rests.runs ⟨?_, ?_⟩ hmore)
  · exact hready.printing packet.payload
  · show next.printed ++ packet.payload = payloads next.cleared
    rw [htaken, hsame, payloads_append]
    simp [payloads]

theorem terminalLoop_wp (hlink : link.Usable) (fuel : Nat) (h : sdi.Rests packets) :
    (terminalLoop link fuel).wp terminalWorld
      (fun sdi operation => sdi.Shown packets (some operation))
      (fun _ sdi => sdi.Shown packets none) sdi := by
  induction fuel generalizing sdi with
  | zero => exact h.shown none
  | succ fuel ih =>
      unfold terminalLoop
      rw [Program.wp_bind]
      refine ⟨h.shown _, fun stop next hanswer => ?_⟩
      obtain ⟨between, rfl, hruns⟩ := hanswer
      replace h := h.runs hruns
      dsimp only [Program.wp_done]
      split
      · exact h.shown none
      rw [Program.wp_bind]
      refine wlLinkeDmiRead_terminal hlink (fun _ => h.shown _) fun after hafter => ?_
      dsimp only
      rcases h.ready with hidle | ⟨packet, hholds, hdata1⟩
      · have hnothing :
            announced (byteOf (next.value ⟨wlDmiData0, 0, wlRegOpRead⟩) 0) = .nothing := by
          have hvalue : next.value ⟨wlDmiData0, 0, wlRegOpRead⟩ = 0 := hidle.empty
          rw [hvalue]
          decide
        rw [hnothing]
        replace h := h.runs hafter
        refine ⟨h.shown _, fun reply slept hslept => ?_⟩
        obtain ⟨between, rfl, hruns⟩ := hslept
        exact ih (h.runs hruns)
      · have hvalue : next.value ⟨wlDmiData0, 0, wlRegOpRead⟩ = packet.data0 := hholds.loaded
        obtain rfl := hholds.still hafter
        rw [hvalue, packet.announces]
        dsimp only
        by_cases hlong : packet.payload.length > 3
        · rw [if_pos hlong, Program.wp_bind]
          refine wlLinkeDmiRead_terminal hlink (fun _ => h.shown _) fun upper hupper => ?_
          obtain rfl := hholds.still hupper
          have hupper1 : upper.value ⟨wlDmiData1, 0, wlRegOpRead⟩ = packet.data1 := hdata1 hlong
          rw [hupper1]
          dsimp only
          rw [if_pos hlong, Program.wp_bind]
          refine wlLinkeDmiWrite_terminal hlink (fun _ => h.shown _) fun wiped hwiped => ?_
          have hheld : (upper.access ⟨wlDmiData1, 0, wlRegOpWrite⟩).Holds packets packet :=
            { hholds with }
          obtain rfl := hheld.still hwiped
          exact terminalTake_wp hlink hheld h.printed (fun _ => rfl) fun next hnext => ih hnext
        · rw [if_neg hlong, pure_bind]
          dsimp only
          rw [if_neg hlong, pure_bind]
          exact terminalTake_wp hlink hholds h.printed (fun h => absurd h hlong) fun next hnext =>
            ih hnext
/-- At every moment the printed bytes are a prefix of the payloads, in the
order the target sends them, and a packet the host has cleared is printed once
or is what it is about to print. -/
theorem terminalLoop_faithful (link : Link) (hlink : link.Usable) (fuel : Nat)
    (packets : List SdiPacket) (data1 : Word) (first last : Sdi)
    (hfirst : (Sdi.start packets data1).Runs first) (trace : List Cli.Idx)
    (residual : Program Cli (Except WlErr Unit))
    (hrun : Program.Run terminalWorld (terminalLoop link fuel) first trace residual last) :
    last.printed <+: payloads packets ∧ last.cleared <+: packets ∧
      (last.printed = payloads last.cleared ∨
        ∃ before packet, last.cleared = before ++ [packet] ∧ last.printed = payloads before ∧
          residual.pending = some (.print packet.payload)) := by
  have hstart : (Sdi.start packets data1).Rests packets :=
    ⟨.inl ⟨rfl, rfl, rfl, fun hhalf => by cases hhalf⟩, rfl⟩
  have howes := (Program.wp_iff_run _ _ _).mp
    (terminalLoop_wp hlink fuel (hstart.runs hfirst)) trace residual last hrun
  have hshown : last.Shown packets residual.pending := by
    cases residual with
    | done value => exact howes
    | cut => exact howes
    | call operation next => exact howes
  exact ⟨hshown.printed_prefix, hshown.inOrder, hshown.once⟩

end Terminal
/-- One byte in the first encoding. -/
def sdiShort : SdiPacket where
  payload := [0x41]
  data0 := 0x00004101
  data1 := 0
  shape := .evt
  some_bytes := by decide
  few_bytes := by decide
  header := by decide
  carries := by decide

/-- Five bytes in the second one. -/
def sdiLong : SdiPacket where
  payload := [0x42, 0x43, 0x44, 0x45, 0x46]
  data0 := 0x44434289
  data1 := 0x00004645
  shape := .ch32fun
  some_bytes := by decide
  few_bytes := by decide
  header := by decide
  carries := by decide

/-- The first packet waits in DATA0. -/
def sdiLoaded : Sdi :=
  { Sdi.start [sdiShort, sdiLong] 0 with
    data0 := 0x00004101, left := [sdiLong], sent := [sdiShort] }

/-- The host has cleared it and not printed it, and the second one is there. -/
def sdiOvertaken : Sdi :=
  { data0 := 0x44434289, data1 := 0x00004645, phase := .waiting, left := []
    sent := [sdiShort, sdiLong], cleared := [sdiShort], printed := [] }

theorem sdiLoaded_runs : (Sdi.start [sdiShort, sdiLong] 0).Runs sdiLoaded := by
  have hwait : (Sdi.start [sdiShort, sdiLong] 0).Sends _ := .wait rfl rfl
  exact (Relation.ReflTransGen.single hwait).tail
    (@Sdi.Sends.short _ sdiShort [sdiLong] rfl rfl (by decide))

theorem sdiOvertaken_runs :
    (sdiLoaded.access ⟨wlDmiData0, 0, wlRegOpWrite⟩).Runs sdiOvertaken := by
  have hwait : (sdiLoaded.access ⟨wlDmiData0, 0, wlRegOpWrite⟩).Sends _ := .wait rfl rfl
  exact ((Relation.ReflTransGen.single hwait).tail
    (@Sdi.Sends.upper _ sdiLong [] rfl rfl (by decide))).tail
    (@Sdi.Sends.long _ sdiLong [] rfl rfl)

theorem terminalLoop_faithful_overtaken :
    (sdiOvertaken.printed <+: payloads [sdiShort, sdiLong] ∧
      sdiOvertaken.cleared <+: [sdiShort, sdiLong]) ∧
    ∃ trace residual, Program.Run terminalWorld (terminalLoop wlLinkeAttachTransport 1) sdiLoaded
      trace residual sdiOvertaken ∧ residual.pending = some (.print [0x41]) := by
  have hlink : wlLinkeAttachTransport.Usable := ⟨rfl, rfl⟩
  have hread : acknowledged (.ok [0x82, 0x08, 0x06, 0x04, 0x00, 0x00, 0x41, 0x01, 0x00]) =
    some 0x00004101 := by decide
  have hwrite : acknowledged (.ok [0x82, 0x08, 0x06, 0x04, 0x00, 0x00, 0x00, 0x00, 0x00]) =
    some 0 := by decide
  have hrun : ∃ trace residual, Program.Run terminalWorld (terminalLoop wlLinkeAttachTransport 1)
      sdiLoaded trace residual sdiOvertaken ∧ residual.pending = some (.print [0x41]) := by
    refine ⟨_, _, @Program.Run.step Cli Sdi _ terminalWorld .stopped _ false _ sdiLoaded _ _ _
      ⟨sdiLoaded, rfl, .refl⟩ (.step ⟨sdiLoaded, ⟨hread, rfl⟩, .refl⟩
      (.step ⟨_, ⟨hwrite, rfl⟩, sdiOvertaken_runs⟩ (.refl _ _))), ?_⟩
    rfl
  obtain ⟨trace, residual, hrun, hpending⟩ := hrun
  obtain ⟨hprinted, hcleared, -⟩ := terminalLoop_faithful wlLinkeAttachTransport hlink 1
    [sdiShort, sdiLong] 0 sdiLoaded sdiOvertaken sdiLoaded_runs trace residual hrun
  exact ⟨⟨hprinted, hcleared⟩, trace, residual, hrun, hpending⟩

end WchLink
