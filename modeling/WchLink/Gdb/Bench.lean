import WchLink.Gdb.Server
import WchLink.Simulator

/-! # The server on a bench

The simulated programmer on one side and, on the other, a debugger whose bytes
are already on the wire and who takes everything it is sent.
-/

namespace WchLink

open Bytes Interaction

/-- The simulated target, the bytes still to receive and the bytes sent. -/
structure Bench where
  target : Sim
  incoming : List Byte
  outgoing : List Byte

/-- How the bench answers one request. -/
def bench : Handler Host Bench
  | .usb request, bench =>
      ((simCommand request bench.target).1,
        { bench with target := (simCommand request bench.target).2 })
  | .recv, bench =>
      match bench.incoming with
      | [] => (.closed, bench)
      | c :: rest => (.byte c, { bench with incoming := rest })
  | .send bytes, bench =>
      (.wrote bytes.length, { bench with outgoing := bench.outgoing ++ bytes })
  | .poll, bench => (!bench.incoming.isEmpty, bench)
  | .sleep _, bench => ((), bench)
  | .malloc _, bench => (true, bench)
  | .listen _, bench => (true, bench)
  | .accept, bench => (true, bench)

/-! ## The programmer's side -/

/-- A programmer operation runs on the bench as it does on the simulator. -/
theorem onHost_run {α : Type} (program : Program Usb α) (state : Bench) :
    (onHost program).run bench state =
      ((program.run simulator state.target).1,
        { state with target := (program.run simulator state.target).2 }) := by
  induction program generalizing state with
  | done value => rfl
  | cut => rfl
  | call operation next ih => exact ih _ _

theorem onTarget_run {α : Type} {operation : Link → Fallible α} {conn : GdbConn} {state : Bench}
    {status : Except WlErr α} {sim' : Sim}
    (hrun : (operation conn.link).run.run simulator state.target = (some status, sim')) :
    ((onTarget operation).run conn).run bench state =
      (some (status, conn), { state with target := sim' }) := by
  have hhost := onHost_run (operation conn.link).run state
  rw [hrun] at hhost
  exact Program.run_bind_of_eq hhost

/-! ## The debugger's side -/

theorem gdbRecvByte_run {state : Bench} {c : Byte} {rest : List Byte} {fuel : Nat}
    (hfuel : 1 ≤ fuel) (hincoming : state.incoming = c :: rest) :
    (gdbRecvByte fuel).run bench state = (some (some c), { state with incoming := rest }) := by
  obtain ⟨target, incoming, outgoing⟩ := state
  cases hincoming
  cases fuel with
  | zero => contradiction
  | succ fuel => rfl

theorem gdbSendAll_run (bytes : List Byte) (state : Bench) {fuel : Nat} (hfuel : 1 ≤ fuel) :
    (gdbSendAll fuel bytes).run bench state =
      (some true, { state with outgoing := state.outgoing ++ bytes }) := by
  cases fuel with
  | zero => contradiction
  | succ fuel =>
      cases bytes with
      | nil =>
          rw [List.append_nil]
          rfl
      | cons byte rest =>
          have hdrop : (byte :: rest).drop (byte :: rest).length = [] := List.drop_length
          have hstep : (gdbSendAll (fuel + 1) (byte :: rest)).run bench state =
              (gdbSendAll fuel ((byte :: rest).drop (byte :: rest).length)).run bench
                { state with outgoing := state.outgoing ++ byte :: rest } := rfl
          rw [hstep, hdrop, gdbSendAll]
          · rfl

/-- A packet the debugger acknowledges is sent once. -/
theorem gdbSendPacket_run (payload : List Byte) (conn : GdbConn) {state : Bench}
    {rest : List Byte} {fuel : Nat} (hfuel : 2 ≤ fuel)
    (hincoming : state.incoming = ascii '+' :: rest) :
    ((gdbSendPacket fuel payload).run conn).run bench state =
      (some ((), conn),
        { state with incoming := rest, outgoing := state.outgoing ++ gdbFrame payload }) := by
  have hsend := gdbSendAll_run (gdbFrame payload) state (Nat.le_of_succ_le hfuel)
  obtain ⟨fuel, rfl⟩ : ∃ fuel', fuel = fuel' + 1 := ⟨fuel - 1, by omega⟩
  have hack : (gdbRecvByte fuel).run bench
      { state with outgoing := state.outgoing ++ gdbFrame payload } =
        (some (some (ascii '+')),
          { state with incoming := rest, outgoing := state.outgoing ++ gdbFrame payload }) :=
    gdbRecvByte_run (by omega) hincoming
  have hwait : ((gdbAwaitAck (gdbFrame payload) (fuel + 1)).run conn).run bench
      { state with outgoing := state.outgoing ++ gdbFrame payload } =
        (some ((), conn),
          { state with incoming := rest, outgoing := state.outgoing ++ gdbFrame payload }) := by
    rw [gdbAwaitAck, Program.run_own_bind (Program.run_own_lift conn hack)]
    rfl
  unfold gdbSendPacket
  rw [Program.run_own_bind (Program.run_own_lift conn hsend)]
  exact hwait

end WchLink
