import WchLink.Gdb.Session
import WchLink.RegisterAccess

/-! # What an observer of the programmer sees

The register accesses of the server, by the rules of an observer between it and
the programmer, and the programs such an observer sees nothing of.
-/

namespace WchLink

open Bytes Interaction

variable {σ : Type}

/-! ## Register accesses of the server -/

section Rules

variable {world : World Host σ} {guard : Guard Host σ} {link : Link} {state : σ}

theorem regAccess_wp (hlink : link.Usable) {reg : Byte} {value : Word} {operation : Byte}
    {post : Option (Except WlErr Word) → σ → Prop}
    (hguard : guard state (.usb (regRequest reg value operation)))
    (hpost : ∀ reply after, world state (.usb (regRequest reg value operation)) reply after →
      post (some (regAnswer reply)) after) :
    (onHost (regAccess link reg value operation).run).wp world guard post state := by
  rw [regAccess_eq hlink]
  exact ⟨hguard, hpost⟩

theorem wlLinkeDmiWrite_wp (hlink : link.Usable) {reg : Byte} {value : Word}
    {post : Option (Except WlErr Unit) → σ → Prop}
    (hguard : guard state (.usb (regRequest reg value wlRegOpWrite)))
    (hpost : ∀ reply after, world state (.usb (regRequest reg value wlRegOpWrite)) reply after →
      post (some ((regAnswer reply).map fun _ => ())) after) :
    (onHost (wlLinkeDmiWrite link reg value).run).wp world guard post state := by
  rw [wlLinkeDmiWrite_eq hlink]
  exact ⟨hguard, hpost⟩

theorem onTarget_wp {α : Type} {operation : Link → Fallible α} {conn : GdbConn}
    {post : Option (Except WlErr α × GdbConn) → σ → Prop}
    (h : (onHost (operation conn.link).run).wp world guard
      (fun status final => post (status.map fun status => (status, conn)) final) state) :
    ((onTarget operation).run conn).wp world guard post state := by
  show ((onHost (operation conn.link).run >>= fun status =>
    (pure (status, conn) : Program Host (Except WlErr α × GdbConn)))).wp world guard post state
  rw [Program.wp_bind]
  refine Program.wp_mono h fun status final hfinal => ?_
  cases status with
  | none => exact hfinal
  | some status => exact hfinal

end Rules

/-! ## Programs that ask nothing of the programmer -/

/-- Whatever the replies are, no request is one of the programmer's. -/
def targetFree : ProgramClass Host :=
  Program.preserving (fun _ _ _ _ => True)
    (fun (_ : Unit) operation => ∀ bytes, operation ≠ .usb bytes) fun _ => True

theorem targetFree_hasSocket (sendable : List Byte → Prop) : HasSocket targetFree sendable := by
  have hperform {operation : HostOp} (hother : ∀ bytes, operation ≠ .usb bytes) :
      targetFree.Mem (request operation) :=
    Program.preserving_perform (fun _ _ => hother) fun _ _ _ _ _ => trivial
  exact
    { cuts := Program.preserving_cuts
      recv := hperform nofun
      send := fun _ _ => hperform nofun }

theorem pending_of_targetFree {α : Type} {program : Program Host α}
    (h : targetFree.Mem program) (bytes : List Byte) :
    program.pending ≠ some (.usb bytes) := by
  cases program with
  | done value => exact nofun
  | cut => exact nofun
  | call operation next =>
      intro hpending
      cases hpending
      exact (h () trivial).1 bytes rfl

end WchLink
