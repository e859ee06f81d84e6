import WchLink.Gdb.Handlers
import WchLink.Interaction.Reach

/-! # Sessions turn by turn

A run of the server is an opening, a number of turns in which one packet is
received and handled, and a closing. A condition on the turns says which
packets may arrive in which states and how the surroundings answer while one is
handled; without a condition the turns are all the runs there are.
-/

namespace WchLink

open Bytes Interaction

variable {σ : Type}

/-- The server at the head of its packet loop. -/
structure LoopHead (σ : Type) where
  fuel : Nat
  packet : List Byte
  conn : GdbConn
  state : σ

/-- What is asked of the surroundings, turn by turn. -/
structure TurnCondition (σ : Type) where
  admits : List Byte → GdbConn → σ → Prop
  replies : List Byte → σ → (operation : HostOp) → operation.Reply → Prop

/-- Nothing is asked. -/
def TurnCondition.unconditional : TurnCondition σ := ⟨fun _ _ _ => True, fun _ _ _ _ => True⟩

/-- The surroundings while a packet is handled. -/
def TurnCondition.during (condition : TurnCondition σ) (world : World Host σ)
    (packet : List Byte) : World Host σ :=
  world.when (condition.replies packet)

section Turns

variable (world : World Host σ) (condition : TurnCondition σ)

/-- One packet received and handled. -/
inductive Turn : LoopHead σ → List Byte → LoopHead σ → Prop
  | mk {fuel : Nat} {packet payload : List Byte} {conn conn' : GdbConn} {state middle final : σ}
      {continues : Bool} :
      conn.quit = false →
      Program.Returns world (gdbRecvPacket fuel) state (some payload) middle →
      condition.admits (fillPacket packet payload) conn middle →
      Program.Returns (condition.during world (fillPacket packet payload))
        ((gdbHandlePacket fuel (fillPacket packet payload)).run conn) middle (continues, conn')
        final →
      Turn ⟨fuel + 1, packet, conn, state⟩ (fillPacket packet payload)
        ⟨fuel, fillPacket packet payload, conn', final⟩

/-- Turns in sequence, with the packets they handled. -/
inductive Serves (start : LoopHead σ) : List (List Byte) → LoopHead σ → Prop
  | refl : Serves start [] start
  | turn {packets : List (List Byte)} {packet : List Byte} {head next : LoopHead σ} :
      Serves start packets head → Turn world condition head packet next →
      Serves start (packets ++ [packet]) next

/-- The loop is left, having been told to quit or for want of a packet. -/
inductive Ends : LoopHead σ → GdbConn → σ → Prop
  | quit {fuel : Nat} {packet : List Byte} {conn : GdbConn} {state : σ} :
      conn.quit = true → Ends ⟨fuel + 1, packet, conn, state⟩ conn state
  | refused {fuel : Nat} {packet : List Byte} {conn : GdbConn} {state final : σ} :
      conn.quit = false → Program.Returns world (gdbRecvPacket fuel) state none final →
      Ends ⟨fuel + 1, packet, conn, state⟩ conn final

/-- The loop comes to request an operation, for the packet handled if there is
one. -/
inductive LoopReaches : LoopHead σ → Option (List Byte) → HostOp → σ → Prop
  | receiving {fuel : Nat} {packet : List Byte} {conn : GdbConn} {state final : σ}
      {operation : HostOp} :
      conn.quit = false → Program.Reaches world (gdbRecvPacket fuel) state operation final →
      LoopReaches ⟨fuel + 1, packet, conn, state⟩ none operation final
  | handling {fuel : Nat} {packet payload : List Byte} {conn : GdbConn} {state middle final : σ}
      {operation : HostOp} :
      conn.quit = false →
      Program.Returns world (gdbRecvPacket fuel) state (some payload) middle →
      condition.admits (fillPacket packet payload) conn middle →
      Program.Reaches (condition.during world (fillPacket packet payload))
        ((gdbHandlePacket fuel (fillPacket packet payload)).run conn) middle operation final →
      LoopReaches ⟨fuel + 1, packet, conn, state⟩ (some (fillPacket packet payload)) operation final

/-- The server comes to request an operation, for the packet handled if there
is one. -/
inductive ServerReaches (fuel : Nat) (link : Link) (chip : Option Chip) (port : BitVec 16)
    (packet : List Byte) (start : σ) : Option (List Byte) → HostOp → σ → Prop
  | opening {operation : HostOp} {final : σ} :
      Program.Reaches world (gdbServerOpen link chip port) start operation final →
      ServerReaches fuel link chip port packet start none operation final
  | serving {conn : GdbConn} {state final : σ} {packets : List (List Byte)} {head : LoopHead σ}
      {handled : Option (List Byte)} {operation : HostOp} :
      Program.Returns world (gdbServerOpen link chip port) start (.ok conn) state →
      Serves world condition ⟨fuel, packet, conn, state⟩ packets head →
      LoopReaches world condition head handled operation final →
      ServerReaches fuel link chip port packet start handled operation final
  | clearing {conn conn' : GdbConn} {state ended final : σ} {packets : List (List Byte)}
      {head : LoopHead σ} {operation : HostOp} :
      Program.Returns world (gdbServerOpen link chip port) start (.ok conn) state →
      Serves world condition ⟨fuel, packet, conn, state⟩ packets head →
      Ends world head conn' ended →
      Program.Reaches world (gdbBreakpointsClear.run conn') ended operation final →
      ServerReaches fuel link chip port packet start none operation final
  | closing {conn conn' conn'' : GdbConn} {state ended cleared final : σ}
      {packets : List (List Byte)} {head : LoopHead σ} {operation : HostOp} :
      Program.Returns world (gdbServerOpen link chip port) start (.ok conn) state →
      Serves world condition ⟨fuel, packet, conn, state⟩ packets head →
      Ends world head conn' ended →
      Program.Returns world (gdbBreakpointsClear.run conn') ended ((), conn'') cleared →
      Program.Reaches world (closeLink conn.link) cleared operation final →
      ServerReaches fuel link chip port packet start none operation final

end Turns

/-! ## The loop as a program -/

theorem gdbServe_quit {conn : GdbConn} (hquit : conn.quit = true) (fuel : Nat)
    (packet : List Byte) : (gdbServe (fuel + 1) packet).run conn = pure ((), conn) := by
  rw [gdbServe]
  show (if conn.quit = true then _ else _ : Gdb Unit).run conn = _
  rw [if_pos hquit]
  rfl

theorem gdbServe_run {conn : GdbConn} (hquit : conn.quit = false) (fuel : Nat)
    (packet : List Byte) :
    (gdbServe (fuel + 1) packet).run conn = (gdbRecvPacket fuel >>= fun received =>
      match received with
      | none => pure ((), conn)
      | some payload =>
          (gdbHandlePacket fuel (fillPacket packet payload)).run conn >>= fun result =>
            (gdbServe fuel (fillPacket packet payload)).run result.2) := by
  rw [gdbServe]
  show (if conn.quit = true then _ else _ : Gdb Unit).run conn = _
  rw [if_neg (by rw [hquit]; exact Bool.false_ne_true)]
  show (gdbRecvPacket fuel >>= fun received => pure (received, conn)) >>= _ = _
  rw [Program.bind_assoc']
  refine congrArg _ (funext fun received => ?_)
  cases received with
  | none => rfl
  | some payload => rfl

section Turns

variable {world : World Host σ} {condition : TurnCondition σ}

theorem TurnCondition.during_unconditional (packet : List Byte) :
    (TurnCondition.unconditional.during world packet) = world := by
  funext state operation reply next
  exact propext ⟨fun h => h.1, fun h => ⟨h, trivial⟩⟩

/-- A condition takes answers away and adds none. -/
theorem TurnCondition.during_le (packet : List Byte) :
    ∀ state operation reply next, condition.during world packet state operation reply next →
      world state operation reply next :=
  fun _ _ _ _ h => h.1

theorem Serves.cons {start second head : LoopHead σ} {packet : List Byte}
    {packets : List (List Byte)} (h : Turn world condition start packet second)
    (h' : Serves world condition second packets head) :
    Serves world condition start (packet :: packets) head := by
  induction h' with
  | refl => exact Serves.turn .refl h
  | turn _ hturn ih => exact ih.turn hturn

/-! ### Every run is a sequence of turns -/

/-- What the loop requests, some turn of it requests. -/
theorem loopReaches_of_reaches {fuel : Nat} {packet : List Byte} {conn : GdbConn} {state final : σ}
    {operation : HostOp}
    (h : Program.Reaches world ((gdbServe fuel packet).run conn) state operation final) :
    ∃ packets head handled,
      Serves world .unconditional ⟨fuel, packet, conn, state⟩ packets head ∧
        LoopReaches world .unconditional head handled operation final := by
  induction fuel generalizing packet conn state with
  | zero => exact absurd h Program.not_reaches_cut
  | succ fuel ih =>
      cases hquit : conn.quit with
      | true =>
          rw [gdbServe_quit hquit] at h
          exact absurd h Program.not_reaches_done
      | false =>
          rw [gdbServe_run hquit] at h
          rcases Program.reaches_bind_iff.mp h with hrecv | ⟨received, middle, hrecv, hrest⟩
          · exact ⟨[], _, none, .refl, .receiving hquit hrecv⟩
          · cases received with
            | none => exact absurd hrest Program.not_reaches_done
            | some payload =>
                have hworld := @TurnCondition.during_unconditional σ world (fillPacket packet payload)
                rcases Program.reaches_bind_iff.mp hrest with hhandle | ⟨result, after, hhandle, hloop⟩
                · exact ⟨[], _, _, .refl, .handling hquit hrecv trivial (hworld.symm ▸ hhandle)⟩
                · obtain ⟨packets, head, handled, hserves, hreaches⟩ := ih hloop
                  have hturn : Turn world .unconditional ⟨fuel + 1, packet, conn, state⟩ _ _ :=
                    .mk hquit hrecv trivial (hworld.symm ▸ hhandle)
                  exact ⟨_, head, handled, hserves.cons hturn, hreaches⟩

/-- When the loop returns, it was left after some turns. -/
theorem ends_of_returns {fuel : Nat} {packet : List Byte} {conn conn' : GdbConn} {state final : σ}
    (h : Program.Returns world ((gdbServe fuel packet).run conn) state ((), conn') final) :
    ∃ packets head, Serves world .unconditional ⟨fuel, packet, conn, state⟩ packets head ∧
      Ends world head conn' final := by
  induction fuel generalizing packet conn state with
  | zero =>
      obtain ⟨trace, hrun⟩ := h
      cases hrun
  | succ fuel ih =>
      cases hquit : conn.quit with
      | true =>
          rw [gdbServe_quit hquit] at h
          obtain ⟨hresult, rfl⟩ := Program.returns_done_iff.mp h
          cases hresult
          exact ⟨[], _, .refl, .quit hquit⟩
      | false =>
          rw [gdbServe_run hquit] at h
          obtain ⟨received, middle, hrecv, hrest⟩ := Program.returns_bind_iff.mp h
          cases received with
          | none =>
              obtain ⟨hresult, rfl⟩ := Program.returns_done_iff.mp hrest
              cases hresult
              exact ⟨[], _, .refl, .refused hquit hrecv⟩
          | some payload =>
              have hworld := @TurnCondition.during_unconditional σ world (fillPacket packet payload)
              obtain ⟨result, after, hhandle, hloop⟩ := Program.returns_bind_iff.mp hrest
              obtain ⟨packets, head, hserves, hends⟩ := ih hloop
              have hturn : Turn world .unconditional ⟨fuel + 1, packet, conn, state⟩ _ _ :=
                .mk hquit hrecv trivial (hworld.symm ▸ hhandle)
              exact ⟨_, head, hserves.cons hturn, hends⟩

/-- Without a condition the turns cover every run of the server. -/
theorem serverReaches_of_reaches {fuel : Nat} {link : Link} {chip : Option Chip}
    {port : BitVec 16} {packet : List Byte} {start final : σ} {operation : HostOp}
    (h : Program.Reaches world (wlGdbServerRun fuel link chip port packet) start operation final) :
    ∃ handled, ServerReaches world .unconditional fuel link chip port packet start handled operation
      final := by
  rcases Program.reaches_bind_iff.mp h with hopen | ⟨status, state, hopen, hrest⟩
  · exact ⟨none, .opening hopen⟩
  · cases status with
    | error status => exact absurd hrest Program.not_reaches_done
    | ok conn =>
        rcases Program.reaches_bind_iff.mp hrest with hsession | ⟨result, cleared, hsession, hclose⟩
        · rw [gdbSession, StateT.run_bind] at hsession
          rcases Program.reaches_bind_iff.mp hsession with hloop | ⟨⟨⟨⟩, conn'⟩, ended, hloop, hclear⟩
          · obtain ⟨packets, head, handled, hserves, hreaches⟩ := loopReaches_of_reaches hloop
            exact ⟨handled, .serving hopen hserves hreaches⟩
          · obtain ⟨packets, head, hserves, hends⟩ := ends_of_returns hloop
            exact ⟨none, .clearing hopen hserves hends hclear⟩
        · obtain ⟨⟨⟩, conn''⟩ := result
          rw [gdbSession, StateT.run_bind] at hsession
          obtain ⟨⟨⟨⟩, conn'⟩, ended, hloop, hclear⟩ := Program.returns_bind_iff.mp hsession
          obtain ⟨packets, head, hserves, hends⟩ := ends_of_returns hloop
          rcases Program.reaches_bind_iff.mp hclose with hclose | ⟨value, closed, hclose, hdone⟩
          · exact ⟨none, .closing hopen hserves hends hclear hclose⟩
          · exact absurd hdone Program.not_reaches_done

/-! ### What a session keeps -/

/-- The turns of a session keep the link and the part it was opened with. -/
theorem Turn.keeps {head next : LoopHead σ} {packet : List Byte}
    (h : Turn world condition head packet next) :
    next.conn.link = head.conn.link ∧ next.conn.chip = head.conn.chip := by
  cases h with
  | mk _ _ _ hhandle => exact hhandle.of_always (gdbHandlePacket_keeps _ _ _)

theorem Serves.keeps {start head : LoopHead σ} {packets : List (List Byte)}
    (h : Serves world condition start packets head) :
    head.conn.link = start.conn.link ∧ head.conn.chip = start.conn.chip := by
  induction h with
  | refl => exact ⟨rfl, rfl⟩
  | turn _ hturn ih => exact ⟨hturn.keeps.1.trans ih.1, hturn.keeps.2.trans ih.2⟩

end Turns

/-! ## The opening -/

/-- Halting succeeds on an open link only. -/
theorem wlLinkeHalt_usable (link : Link) :
    (onHost (wlLinkeHalt link).run).Always fun status =>
      ∀ value, status = .ok value → link.Usable := by
  unfold wlLinkeHalt sendControl wlLinkeCommand
  cases hlink : (!link.isOpen || !link.transport) with
  | true =>
      intro value hvalue
      cases hvalue
  | false =>
      rw [Bool.or_eq_false_iff, Bool.not_eq_false', Bool.not_eq_false'] at hlink
      refine (Program.always_true _).mono fun status _ value _ => ?_
      exact ⟨hlink.1, hlink.2⟩

/-- A session is opened on an open link, with an empty table. -/
theorem gdbServerOpen_always (link : Link) (chip : Option Chip) (port : BitVec 16) :
    (gdbServerOpen link chip port).Always fun status =>
      ∀ conn, status = .ok conn → ∃ link' part, chip = some part ∧ conn = .fresh link' part ∧
        link'.Usable := by
  unfold gdbServerOpen
  cases chip with
  | none =>
      intro conn hconn
      cases hconn
  | some part =>
      refine (Program.always_true _).bind fun result _ => ?_
      obtain ⟨status, link'⟩ := result
      cases status with
      | error error =>
          refine (Program.always_true _).bind fun _ _ conn hconn => ?_
          cases hconn
      | ok value =>
          refine (wlLinkeHalt_usable link').bind fun status husable => ?_
          cases status with
          | error error =>
              refine (Program.always_true _).bind fun _ _ conn hconn => ?_
              cases hconn
          | ok value =>
              have hlink := husable value rfl
              refine (Program.always_true _).bind fun _ _ => ?_
              refine (Program.always_true _).bind fun listening _ => ?_
              split
              · refine (Program.always_true _).bind fun _ _ conn hconn => ?_
                cases hconn
              · refine (Program.always_true _).bind fun accepted _ => ?_
                split
                · refine (Program.always_true _).bind fun _ _ conn hconn => ?_
                  cases hconn
                · intro conn hconn
                  cases hconn
                  exact ⟨link', part, rfl, rfl, hlink⟩

/-! ## Guarding a session -/

section Guards

variable {world : World Host σ} {condition : TurnCondition σ}

/-- A guard that holds outside the handlers, and inside of each whenever its
packet is admitted, holds of the whole server. -/
theorem ServerReaches.guarded {guard : Option (List Byte) → Guard Host σ}
    (hserver : HasServer (Program.preserving world (guard none) fun _ => True))
    (hhandle : ∀ fuel packet conn state, conn.link.Usable → condition.admits packet conn state →
      ((gdbHandlePacket fuel packet).run conn).wp (condition.during world packet)
        (guard (some packet)) (fun _ _ => True) state)
    {fuel : Nat} {link : Link} {chip : Option Chip} {port : BitVec 16} {packet : List Byte}
    {start final : σ} {handled : Option (List Byte)} {operation : HostOp}
    (h : ServerReaches world condition fuel link chip port packet start handled operation final) :
    guard handled final operation := by
  have hclear (conn : GdbConn) (state : σ) :=
    (gdbBreakpointsClear_mem hserver.toHasMemory conn).1 state trivial
  cases h with
  | opening hopen => exact hopen.of_wp (gdbServerOpen_mem hserver link chip port start trivial)
  | serving hopen hserves hloop =>
      cases hloop with
      | receiving _ hrecv =>
          exact hrecv.of_wp (gdbRecvPacket_mem hserver.toHasSocket plain_acks _ _ trivial)
      | handling _ _ hadmits hreaches =>
          obtain ⟨link', part, -, rfl, hlink⟩ :=
            hopen.of_always (gdbServerOpen_always link chip port) _ rfl
          refine hreaches.of_wp (hhandle _ _ _ _ ?_ hadmits)
          rw [hserves.keeps.1]
          exact hlink
  | clearing _ _ _ hreaches => exact hreaches.of_wp (hclear _ _)
  | closing _ _ _ _ hreaches => exact hreaches.of_wp (closeLink_mem hserver _ _ trivial)

end Guards

end WchLink
