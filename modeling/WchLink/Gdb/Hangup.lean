import WchLink.FlashStores
import WchLink.Gdb.Observed

/-! # A debugger that goes away while the core runs

The wait for a stop ends with an interrupt byte or a halted core. A connection
that is gone delivers neither, so the loop goes on until the target's status
cannot be read: that counts as halted, and the stop reply then fails.
-/

namespace WchLink

open Bytes Interaction

variable {τ : Type}

/-! ## Surroundings without a debugger -/

/-- From the states `gone` on, the debugger's side of the connection is closed
or broken and the core is never read to be halted. -/
structure DebuggerGone (env : Handler Host τ) (gone : τ → Prop) : Prop where
  stays : ∀ state operation, gone state → gone (env operation state).2
  recv : ∀ state, gone state →
    (env .recv state).1 = Received.closed ∨ (env .recv state).1 = Received.failed
  send : ∀ state bytes, gone state → bytes ≠ [] →
    (env (.send bytes) state).1 = Sent.failed ∨
      ∃ count, 0 < count ∧ (env (.send bytes) state).1 = Sent.wrote count
  running : ∀ state status, gone state →
    acknowledged (env (.usb (regRequest wlDmiDmstatus 0 wlRegOpRead)) state).1 = some status →
      status &&& gdbDmstatusAnyrunning ≠ 0

/-- One round of the wait: listen to the debugger. -/
def waitHeard (env : Handler Host τ) (state : τ) : τ :=
  let polled : Bool × τ := env .poll state
  if polled.1 then (env .recv polled.2).2 else polled.2

/-- One round of the wait: the reply to the status read. -/
def waitStatus (env : Handler Host τ) (state : τ) : Except Int (List Byte) :=
  (env (.usb (regRequest wlDmiDmstatus 0 wlRegOpRead)) (waitHeard env state)).1

/-- The surroundings after one round of the wait. -/
def waitRound (env : Handler Host τ) (state : τ) : τ :=
  (env (.usb (regRequest wlDmiDmstatus 0 wlRegOpRead)) (waitHeard env state)).2

/-- In some round of the wait the status cannot be read. -/
def StatusLost (env : Handler Host τ) (state : τ) : Prop :=
  ∃ rounds, acknowledged (waitStatus env ((waitRound env)^[rounds] state)) = none

section Gone

variable {env : Handler Host τ} {gone : τ → Prop} (h : DebuggerGone env gone)

include h

theorem waitHeard_gone {state : τ} (hstate : gone state) : gone (waitHeard env state) := by
  unfold waitHeard
  dsimp only
  split
  · exact h.stays _ _ (h.stays _ _ hstate)
  · exact h.stays _ _ hstate

theorem waitRound_gone {state : τ} (hstate : gone state) : gone (waitRound env state) :=
  h.stays _ _ (waitHeard_gone h hstate)

/-! ## Sending and receiving -/

theorem gdbRecvByte_gone {state : τ} (hstate : gone state) (fuel : Nat) :
    (gdbRecvByte (fuel + 1)).run env state = (some none, (env .recv state).2) := by
  show (match (env .recv state).1 with
    | .byte value => pure (some value)
    | .closed => pure none
    | .interrupted => gdbRecvByte fuel
    | .failed => pure none : Program Host (Option Byte)).run env (env .recv state).2 = _
  rcases h.recv state hstate with hrecv | hrecv <;> rw [hrecv] <;> rfl

/-- Sending ends, if only with a failure. -/
theorem gdbSendAll_gone (fuel : Nat) (bytes : List Byte) {state : τ} (hstate : gone state)
    (hfuel : bytes.length ≤ fuel) :
    ∃ sent final, (gdbSendAll fuel bytes).run env state = (some sent, final) ∧ gone final := by
  induction fuel generalizing bytes state with
  | zero =>
      obtain rfl : bytes = [] := List.eq_nil_of_length_eq_zero (Nat.le_zero.mp hfuel)
      exact ⟨true, state, rfl, hstate⟩
  | succ fuel ih =>
      cases bytes with
      | nil => exact ⟨true, state, rfl, hstate⟩
      | cons c rest =>
          have hsent : (request (.send (c :: rest))).run env state =
              (some (env (.send (c :: rest)) state).1, (env (.send (c :: rest)) state).2) := rfl
          rw [gdbSendAll, Program.run_bind_of_eq hsent]
          rotate_left
          · exact nofun
          have hnext : gone (env (.send (c :: rest)) state).2 := h.stays _ _ hstate
          rcases h.send state (c :: rest) hstate (List.cons_ne_nil c rest) with
            hfailed | ⟨count, hcount, hwrote⟩
          · rw [hfailed]
            exact ⟨false, _, rfl, hnext⟩
          · rw [hwrote]
            refine ih _ hnext ?_
            rw [List.length_drop]
            omega

/-- A packet that cannot be acknowledged ends the session. -/
theorem gdbSendPacket_gone {fuel : Nat} (payload : List Byte) (conn : GdbConn) {state : τ}
    (hstate : gone state) (hfuel : (gdbFrame payload).length + 2 ≤ fuel) :
    ∃ final, ((gdbSendPacket fuel payload).run conn).run env state =
      (some ((), { conn with quit := true }), final) := by
  obtain ⟨sent, between, hsend, hbetween⟩ :=
    gdbSendAll_gone h fuel (gdbFrame payload) hstate (by omega)
  unfold gdbSendPacket
  rw [Program.run_own_bind (Program.run_own_lift conn hsend)]
  cases sent with
  | false => exact ⟨between, rfl⟩
  | true =>
      obtain ⟨fuel, rfl⟩ : ∃ fuel', fuel = fuel' + 2 := ⟨fuel - 2, by omega⟩
      refine ⟨(env .recv between).2, ?_⟩
      show ((gdbAwaitAck (gdbFrame payload) (fuel + 2)).run conn).run env between = _
      rw [gdbAwaitAck,
        Program.run_own_bind (Program.run_own_lift conn (gdbRecvByte_gone h hbetween fuel))]
      rfl

/-! ## The wait -/

theorem gdbInterrupted_gone {state : τ} (hstate : gone state) (fuel : Nat) :
    (gdbInterrupted fuel).run env state = (some false, waitHeard env state) ∨
      fuel = 0 ∧ ∃ final, (gdbInterrupted fuel).run env state = (none, final) := by
  have hpolled : gone (env .poll state).2 := h.stays _ _ hstate
  have hrequest (rest : Bool → Program Host Bool) : (request .poll >>= rest).run env state =
      (rest (env .poll state).1).run env (env .poll state).2 := rfl
  unfold gdbInterrupted waitHeard
  rw [hrequest]
  dsimp only
  by_cases hpoll : (env .poll state).1 = true
  · rw [if_pos hpoll, if_pos hpoll]
    cases fuel with
    | zero => exact .inr ⟨rfl, _, rfl⟩
    | succ fuel =>
        left
        rw [Program.run_bind_of_eq (gdbRecvByte_gone h hpolled fuel)]
        rfl
  · rw [if_neg hpoll, if_neg hpoll]
    exact .inl rfl

theorem gdbDmIsHalted_gone {conn : GdbConn} (hlink : conn.link.Usable) {state : τ}
    (hstate : gone state) :
    (gdbDmIsHalted.run conn).run env (waitHeard env state) =
      (some ((acknowledged (waitStatus env state)).isNone, conn), waitRound env state) := by
  have hread : ((onTarget fun link => wlLinkeDmiRead link wlDmiDmstatus).run conn).run env
      (waitHeard env state) =
        (some (regAnswer (waitStatus env state), conn), waitRound env state) := by
    have hhost : (onHost (wlLinkeDmiRead conn.link wlDmiDmstatus).run).run env
        (waitHeard env state) =
          (some (regAnswer (waitStatus env state)), waitRound env state) := by
      unfold wlLinkeDmiRead
      rw [regAccess_eq hlink]
      rfl
    exact Program.run_bind_of_eq hhost
  unfold gdbDmIsHalted
  rw [Program.run_own_bind hread]
  cases hanswer : acknowledged (waitStatus env state) with
  | none =>
      unfold acknowledged at hanswer
      cases hreg : regAnswer (waitStatus env state) with
      | error error => rfl
      | ok status =>
          rw [hreg] at hanswer
          cases hanswer
  | some status =>
      rw [regAnswer_ok hanswer]
      have hruns := h.running _ status (waitHeard_gone h hstate) hanswer
      show (pure (decide (status &&& gdbDmstatusAnyrunning = 0), conn) :
        Program Host (Bool × GdbConn)).run env (waitRound env state) = _
      rw [decide_eq_false hruns]
      rfl

theorem gdbSendStop_gone {conn : GdbConn} {state : τ} (hstate : gone state) {fuel : Nat}
    (hfuel : 18 ≤ fuel) :
    ∃ final, ((gdbSendStop fuel 5).run conn).run env state =
      (some ((), { conn with quit := true }), final) := by
  have hlength : (gdbFrame (cstring (gdbStopReply 5))).length = 16 := by decide
  exact gdbSendPacket_gone h _ conn hstate (by omega)

/-- A round of the wait goes on to the next, unless the status is lost. -/
theorem gdbWaitForStop_gone {conn : GdbConn} (hlink : conn.link.Usable) {state : τ}
    (hstate : gone state) (fuel : Nat) :
    ((gdbWaitForStop (fuel + 1)).run conn).run env state =
        ((if (acknowledged (waitStatus env state)).isNone then gdbSendStop fuel 5
          else gdbWaitForStop fuel).run conn).run env (waitRound env state) ∨
      fuel = 0 ∧ (((gdbWaitForStop (fuel + 1)).run conn).run env state).1 = none := by
  rw [gdbWaitForStop, StateT.run_bind]
  rcases gdbInterrupted_gone h hstate fuel with hheard | ⟨hfuel, final, hcut⟩
  · left
    rw [Program.run_bind_of_eq (Program.run_own_lift conn hheard)]
    dsimp only
    rw [if_neg Bool.false_ne_true, Program.run_own_bind (gdbDmIsHalted_gone h hlink hstate)]
  · right
    rw [StateT.run_lift, bind_assoc, Program.run_bind, hcut]
    exact ⟨hfuel, rfl⟩

/-- As long as the status is read the wait does not end. -/
theorem gdbWaitForStop_waits {conn : GdbConn} (hlink : conn.link.Usable) (fuel : Nat) {state : τ}
    (hstate : gone state) (hkept : ¬StatusLost env state) :
    (((gdbWaitForStop fuel).run conn).run env state).1 = none := by
  induction fuel generalizing state with
  | zero => rfl
  | succ fuel ih =>
      rcases gdbWaitForStop_gone h hlink hstate fuel with hround | ⟨-, hcut⟩
      · have hread : (acknowledged (waitStatus env state)).isNone = false := by
          rw [Bool.eq_false_iff]
          exact fun hnone => hkept ⟨0, Option.isNone_iff_eq_none.mp hnone⟩
        rw [hround, hread, if_neg Bool.false_ne_true]
        refine ih (waitRound_gone h hstate) ?_
        rintro ⟨rounds, hlost⟩
        exact hkept ⟨rounds + 1, hlost⟩
      · exact hcut

/-- The round in which the status is lost is the last. -/
theorem gdbWaitForStop_ends {conn : GdbConn} (hlink : conn.link.Usable) (rounds : Nat) {state : τ}
    (hstate : gone state)
    (hlost : acknowledged (waitStatus env ((waitRound env)^[rounds] state)) = none) {fuel : Nat}
    (hfuel : rounds + 19 ≤ fuel) :
    ∃ final, ((gdbWaitForStop fuel).run conn).run env state =
      (some ((), { conn with quit := true }), final) := by
  induction rounds generalizing state fuel with
  | zero =>
      obtain ⟨fuel, rfl⟩ : ∃ fuel', fuel = fuel' + 1 := ⟨fuel - 1, by omega⟩
      rcases gdbWaitForStop_gone h hlink hstate fuel with hround | ⟨hzero, -⟩
      · have hnone : (acknowledged (waitStatus env state)).isNone = true :=
          Option.isNone_iff_eq_none.mpr hlost
        rw [hround, hnone, if_pos rfl]
        exact gdbSendStop_gone h (waitRound_gone h hstate) (by omega)
      · omega
  | succ rounds ih =>
      obtain ⟨fuel, rfl⟩ : ∃ fuel', fuel = fuel' + 1 := ⟨fuel - 1, by omega⟩
      rcases gdbWaitForStop_gone h hlink hstate fuel with hround | ⟨hzero, -⟩
      · rw [hround]
        split
        · exact gdbSendStop_gone h (waitRound_gone h hstate) (by omega)
        · exact ih (waitRound_gone h hstate) hlost (by omega)
      · omega

end Gone

/-! ## Clearing the table -/

theorem onHost_total {α : Type} {program : Program Usb α} (h : program.Total) :
    (onHost program).Total := by
  induction program with
  | done value => trivial
  | cut => exact h
  | call operation next ih => exact fun reply => ih reply (h reply)

section Clear

variable {conn : GdbConn}

theorem onTarget_finishes {α : Type} {operation : Link → Fallible α}
    (h : (operation conn.link).run.Total) :
    ((onTarget operation).run conn).Finishes fun result => result.2 = conn :=
  (onHost_total h).finishes.bind fun _ _ => rfl

variable (hchip : conn.chip ∈ chips)

include hchip

/-- A patch comes to its end, and changes the target only. -/
theorem gdbMemPatch_finishes (address : Word) (bytes : List Byte) :
    ((gdbMemPatch address bytes).run conn).Finishes fun result => result.2 = conn := by
  have haccesses := total_hasAccesses conn.link
  show ((if gdbAddrIsFlash conn.chip address = true then _ else _ :
    Gdb (Except WlErr Unit)).run conn).Finishes _
  split
  · dsimp only
    split
    · rfl
    · have hmalloc (size : Nat) : ((StateT.lift (request (.malloc size)) : Gdb Bool).run conn).Finishes
          fun result => result.2 = conn := fun _ => rfl
      refine (hmalloc _).thenOwn fun allocated conn' hconn => ?_
      rw [show conn' = conn from hconn]
      split
      · rfl
      · have hread (address : Word) (length : Nat) :
            (filled (wlDmReadBlock conn.link address length)).run.Total :=
          filled_mem haccesses.toHasLoads address length
        refine Program.Finishes.thenOwn (onTarget_finishes (hread _ _)) fun status conn' hconn => ?_
        rw [show conn' = conn from hconn]
        cases status with
        | error error => rfl
        | ok page =>
            exact onTarget_finishes (wlFlashWrite_total conn.link hchip _ _ (by
              rw [BitVec.toNat_setWidth]
              omega))
  · split
    · exact onTarget_finishes (wlDmWrite16_mem haccesses _ _)
    · split
      · exact onTarget_finishes (wlDmWrite32_mem haccesses _ _)
      · rfl

/-- Clearing a slot frees it and no other. -/
theorem gdbBreakpointClear_finishes (slot : Fin gdbMaxBreakpoints) :
    ((gdbBreakpointClear slot).run conn).Finishes fun result =>
      (result.2.breakpoints slot).used = false ∧
        (∀ other, other ≠ slot → result.2.breakpoints other = conn.breakpoints other) ∧
          result.2.link = conn.link ∧ result.2.chip = conn.chip := by
  show ((if (conn.breakpoints slot).used = true then _ else _ : Gdb Unit).run conn).Finishes _
  split
  · refine (gdbMemPatch_finishes hchip _ _).thenOwn fun status conn' hconn => ?_
    rw [show conn' = conn from hconn]
    refine ⟨?_, fun other hother => ?_, rfl, rfl⟩
    · show (Function.update conn.breakpoints slot _ slot).used = false
      rw [Function.update_self]
    · exact Function.update_of_ne hother _ _
  · next hused => exact ⟨Bool.eq_false_iff.mpr hused, fun _ _ => rfl, rfl, rfl⟩

/-- Clearing comes to its end with every slot free. -/
theorem gdbBreakpointsClear_finishes :
    (gdbBreakpointsClear.run conn).Finishes fun result =>
      (∀ slot, (result.2.breakpoints slot).used = false) ∧ result.2.link = conn.link := by
  have hslots (slots : List (Fin gdbMaxBreakpoints)) {conn : GdbConn} (hchip : conn.chip ∈ chips) :
      ((slots.forM gdbBreakpointClear).run conn).Finishes fun result =>
        (∀ slot, slot ∈ slots ∨ (conn.breakpoints slot).used = false →
          (result.2.breakpoints slot).used = false) ∧ result.2.link = conn.link := by
    induction slots generalizing conn with
    | nil => exact ⟨fun slot hslot => hslot.resolve_left List.not_mem_nil, rfl⟩
    | cons slot rest ih =>
        refine (gdbBreakpointClear_finishes hchip slot).thenOwn fun value conn' hconn => ?_
        obtain ⟨hfree, hothers, hlink, hpart⟩ := hconn
        refine (ih (hpart.symm ▸ hchip)).mono fun result hresult => ?_
        refine ⟨fun other hother => hresult.1 other ?_, hresult.2.trans hlink⟩
        by_cases hsame : other = slot
        · rw [hsame]
          exact .inr hfree
        · rw [hothers other hsame]
          rcases hother with hmem | hfree
          · exact .inl ((List.mem_cons.mp hmem).resolve_left hsame)
          · exact .inr hfree
  refine (hslots _ hchip).mono fun result hresult => ⟨fun slot => ?_, hresult.2⟩
  exact hresult.1 slot (.inl (List.mem_finRange slot))

end Clear

/-! ## The rest of the session -/

/-- The rest of the server once a `c` has let the core run. -/
def gdbAfterResume (fuel : Nat) (packet : List Byte) : Gdb Unit := do
  gdbWaitForStop fuel
  gdbServe fuel packet
  gdbBreakpointsClear
  StateT.lift (closeLink (← get).link)

/-- However many rounds it is given from some number on, the server comes to
its end, with no breakpoint left in its table and releasing the target last. -/
def WindsUp (env : Handler Host τ) (packet : List Byte) (conn : GdbConn) (state : τ) : Prop :=
  ∃ bound, ∀ fuel, bound ≤ fuel → ∃ made reply conn' final,
    Program.Run env.world ((gdbAfterResume fuel packet).run conn) state
        (made ++ [⟨.usb (controlRequest wlCmdControl wlCtlRelease), reply⟩]) (.done ((), conn'))
        final ∧
      ∀ slot, (conn'.breakpoints slot).used = false

/-- A `c` that lets the core run goes on as `gdbAfterResume`. -/
theorem gdbServe_continues {env : Handler Host τ} {conn conn' : GdbConn} {fuel : Nat}
    {packet payload : List Byte} {state middle state' : τ} (hquit : conn.quit = false)
    (hrecv : (gdbRecvPacket fuel).run env state = (some (some payload), middle))
    (hcontinue : Continues (fillPacket packet payload))
    (hresume : (gdbResume.run conn).run env middle = (some (.ok (), conn'), state')) :
    ((do
        gdbServe (fuel + 1) packet
        gdbBreakpointsClear
        StateT.lift (closeLink (← get).link) : Gdb Unit).run conn).run env state =
      ((gdbAfterResume fuel (fillPacket packet payload)).run conn').run env state' := by
  unfold gdbAfterResume
  rw [StateT.run_bind, gdbServe_run hquit, bind_assoc, Program.run_bind_of_eq hrecv]
  dsimp only
  rw [gdbHandlePacket_continues hcontinue, gdbContinue]
  simp only [StateT.run_bind, bind_assoc]
  rw [Program.run_bind_of_eq hresume]
  rfl

theorem closeLink_eq {link : Link} (hlink : link.Usable) :
    closeLink link = @Program.call Host Unit
      (.usb (controlRequest wlCmdControl wlCtlRelease)) fun _ => .done () := by
  obtain ⟨transport, isOpen, chipId, configured⟩ := link
  obtain ⟨hopen, htransport⟩ := hlink
  cases hopen
  cases htransport
  refine congrArg (@Program.call Host Unit (.usb (controlRequest wlCmdControl wlCtlRelease)))
    (funext fun reply => ?_)
  cases reply with
  | error code => rfl
  | ok reply => rfl

section Session

variable {env : Handler Host τ} {gone : τ → Prop} (h : DebuggerGone env gone) {conn : GdbConn}
  (hlink : conn.link.Usable) (hchip : conn.chip ∈ chips) {state : τ} (hstate : gone state)
  (packet : List Byte)

include h hlink hchip hstate

omit hchip in
theorem not_windsUp (hkept : ¬StatusLost env state) : ¬WindsUp env packet conn state := by
  rintro ⟨bound, hwinds⟩
  obtain ⟨made, reply, conn', final, hrun, -⟩ := hwinds bound le_rfl
  have hdone := Program.returns_world_iff.mp ⟨_, hrun⟩
  have hwaits := gdbWaitForStop_waits h hlink bound hstate hkept
  rw [gdbAfterResume, StateT.run_bind, Program.run_bind] at hdone
  generalize ((gdbWaitForStop bound).run conn).run env state = waited at hdone hwaits
  obtain ⟨result, stopped⟩ := waited
  cases hwaits
  cases hdone

theorem windsUp_of_lost (hlost : StatusLost env state) : WindsUp env packet conn state := by
  obtain ⟨rounds, hlost⟩ := hlost
  refine ⟨rounds + 19, fun fuel hfuel => ?_⟩
  obtain ⟨stopped, hwait⟩ := gdbWaitForStop_ends h hlink rounds hstate hlost hfuel
  have hserve : ((gdbServe fuel packet).run { conn with quit := true }).run env stopped =
      (some ((), { conn with quit := true }), stopped) := by
    obtain ⟨fuel, rfl⟩ : ∃ fuel', fuel = fuel' + 1 := ⟨fuel - 1, by omega⟩
    rw [gdbServe_quit rfl]
    rfl
  have hclears := @gdbBreakpointsClear_finishes { conn with quit := true } hchip
  obtain ⟨⟨⟨⟩, conn'⟩, cleared, hclear, hfree, hsame⟩ := hclears.run env stopped
  obtain ⟨trace, hwaited⟩ := Program.returns_world_iff.mpr hwait
  obtain ⟨trace', hserved⟩ := Program.returns_world_iff.mpr hserve
  obtain ⟨trace'', hcleared⟩ := Program.returns_world_iff.mpr hclear
  have hlink' : conn'.link.Usable := by
    rw [show conn'.link = conn.link from hsame]
    exact hlink
  have hclosed : Program.Run env.world
      ((do StateT.lift (closeLink (← get).link) : Gdb Unit).run conn') cleared
      [⟨.usb (controlRequest wlCmdControl wlCtlRelease),
        (env (.usb (controlRequest wlCmdControl wlCtlRelease)) cleared).1⟩]
      (.done ((), conn'))
      (env (.usb (controlRequest wlCmdControl wlCtlRelease)) cleared).2 := by
    show Program.Run env.world (closeLink conn'.link >>= fun value => pure (value, conn')) _ _ _ _
    rw [closeLink_eq hlink']
    exact .step rfl (.refl _ _)
  refine ⟨trace ++ (trace' ++ trace''),
    (env (.usb (controlRequest wlCmdControl wlCtlRelease)) cleared).1, conn',
    (env (.usb (controlRequest wlCmdControl wlCtlRelease)) cleared).2, ?_, hfree⟩
  rw [List.append_assoc, List.append_assoc, gdbAfterResume, StateT.run_bind]
  refine hwaited.bind ?_
  rw [StateT.run_bind]
  refine hserved.bind ?_
  rw [StateT.run_bind]
  exact hcleared.bind hclosed

end Session

/-- A closed connection and a target whose status is always `status`. -/
def vanished (status : Except Int (List Byte)) : Handler Host Unit
  | .usb request, _ =>
      (if request = regRequest wlDmiDmstatus 0 wlRegOpRead then status
        else .ok [wlReplyHeader, wlCmdReg, 0x06, 0, 0, 0, 0, 0, 0], ())
  | .recv, _ => (.closed, ())
  | .send _, _ => (.failed, ())
  | .poll, _ => (true, ())
  | .sleep _, _ => ((), ())
  | .malloc _, _ => (true, ())
  | .listen _, _ => (true, ())
  | .accept, _ => (true, ())

theorem vanished_gone {status : Except Int (List Byte)}
    (hstatus : ∀ value, acknowledged status = some value → value &&& gdbDmstatusAnyrunning ≠ 0) :
    DebuggerGone (vanished status) fun _ => True where
  stays := fun _ _ _ => trivial
  recv := fun _ _ => .inl rfl
  send := fun _ _ _ _ => .inl rfl
  running := fun _ value _ hvalue => hstatus value hvalue

/-- A status that goes on to say that the core runs. -/
def runningReply : List Byte := [wlReplyHeader, wlCmdReg, 0x06, wlDmiDmstatus, 0, 0, 0x04, 0, 0]

end WchLink
