import WchLink.Gdb.Observed

/-! # Stop replies

Whether the core was seen halted when the server says so. An observer remembers
the DMSTATUS value read last since the last request to halt or resume; a stop
reply is truthful when that value says that nothing runs.
-/

namespace WchLink

open Bytes Interaction

/-! ## The observer -/

/-- The DMSTATUS value read last since the last request to halt or to resume,
and, if that was a request to halt, how often DMSTATUS was asked for since. -/
structure Watch where
  status : Option Word
  haltPolls : Option Nat

def dmcontrolHaltreq : Word := 0x80000000
def dmcontrolResumereq : Word := 0x40000000

/-- What a register access and its reply tell the observer. -/
def Watch.see (watch : Watch) (access : RegisterAccess) (reply : Except Int (List Byte)) : Watch :=
  if access.reg = wlDmiDmcontrol ∧ access.operation = wlRegOpWrite then
    if access.value &&& dmcontrolHaltreq ≠ 0 then
      { status := none, haltPolls := some 0 }
    else if access.value &&& dmcontrolResumereq ≠ 0 then
      { status := none, haltPolls := none }
    else
      watch
  else if access.reg = wlDmiDmstatus ∧ access.operation = wlRegOpRead then
    { status := (acknowledged reply).or watch.status
      haltPolls := watch.haltPolls.map (· + 1) }
  else
    watch

/-- What an exchange of the server tells the observer. -/
def Watch.after (watch : Watch) : (operation : HostOp) → operation.Reply → Watch
  | .usb request, reply =>
      match registerAccess request with
      | some access => watch.see access reply
      | none => watch
  | _, _ => watch

/-- Every reply is possible. -/
def watching : World Host Watch := World.tracking Watch.after

/-- The core was read to be halted since it was last asked to halt or resume. -/
def Watch.Truthful (watch : Watch) : Prop :=
  ∃ status, watch.status = some status ∧ status &&& gdbDmstatusAnyrunning = 0

/-- Stop replies are sent when they are truthful. -/
def stopGuard : Guard Host Watch :=
  fun watch operation => ∀ bytes, operation = .send bytes → ¬Plain bytes → watch.Truthful

/-- The packets that wait for a stop. -/
def AwaitsStop (packet : List Byte) : Prop := Continues packet ∨ Steps packet

/-- While a stop is awaited every DMSTATUS read is acknowledged, and the core is
halted at the latest poll a halt is given. -/
def Watch.Answers (watch : Watch) : (operation : HostOp) → operation.Reply → Prop
  | .usb request, reply =>
      registerAccess request = some ⟨wlDmiDmstatus, 0, wlRegOpRead⟩ →
        ∃ status, acknowledged reply = some status ∧
          ∀ polls, watch.haltPolls = some polls → gdbHaltPolls ≤ polls + 1 →
            status &&& gdbDmstatusAnyrunning = 0
  | _, _ => True

/-- The reason of a stop is asked for when the core is known to be halted, and
whatever awaits a stop gets to see one. -/
def stopCondition : TurnCondition Watch where
  admits := fun packet _ watch => AsksStop packet → watch.Truthful
  replies := fun packet watch operation reply => AwaitsStop packet → watch.Answers operation reply

/-! ## Handlers that report no stop -/

/-- The programs that report no stop, or only while nothing runs. -/
abbrev stopClass (world : World Host Watch) : ProgramClass Host :=
  Program.preserving world stopGuard fun _ => True

theorem stop_usb (world : World Host Watch) (bytes : List Byte) :
    (usbClass (stopClass world)).Mem (transportCommand bytes) := by
  refine Program.preserving_perform (fun _ _ _ hbytes => ?_) fun _ _ _ _ _ => trivial
  cases hbytes

theorem stop_register (world : World Host Watch) (link : Link) (reg : Byte) :
    HasRegister (usbClass (stopClass world)) link reg :=
  fun _ _ => regAccess_mem _ (stop_usb world _)

theorem stop_hasServer (world : World Host Watch) : HasServer (stopClass world) := by
  have hperform {operation : HostOp} (hplain : ∀ bytes, operation = .send bytes → Plain bytes) :
      (stopClass world).Mem (request operation) :=
    Program.preserving_perform
      (fun _ _ bytes hbytes hstop => absurd (hplain bytes hbytes) hstop) fun _ _ _ _ _ => trivial
  have hregister := stop_register world
  have hcommands (link : Link) : HasCommands (usbClass (stopClass world)) link :=
    ⟨⟨hregister _ _, hregister _ _⟩, hregister _ _, hregister _ _, fun _ => hregister _ _⟩
  exact
    { cuts := Program.preserving_cuts
      malloc := fun _ => hperform nofun
      accesses := fun link => hasAccesses_of_commands _ (hcommands link)
      recv := hperform nofun
      send := fun bytes hbytes => hperform fun _ hsame => by cases hsame; exact hbytes
      sleep := fun _ => hperform nofun
      poll := hperform nofun
      commands := hcommands
      status := fun link => hregister link _
      halt := fun link => wlLinkeDmiWrite_mem _ (hregister link _) _
      reset := fun link => wlLinkeDmiWrite_mem _ (hregister link _) _
      interface := fun _ _ => stop_usb world _
      control := fun _ _ => stop_usb world _
      listen := fun _ => hperform nofun
      accept := hperform nofun }

/-- A part of a handler that reports no stop needs nothing and keeps the link. -/
theorem stop_quiet {world : World Host Watch} {α : Type} {program : Gdb α}
    (h : (stopClass world).StateMem program) (conn : GdbConn) (watch : Watch) :
    (program.run conn).wp world stopGuard
      (fun result _ => ∀ value conn', result = some (value, conn') → conn'.link = conn.link)
      watch := by
  refine Program.wp_mono (Program.wp_always ((h conn).1 watch trivial) (h conn).2) ?_
  rintro result final ⟨-, hkeeps⟩ value conn' hresult
  exact (hkeeps (value, conn') hresult).1

theorem stop_resume (world : World Host Watch) : (stopClass world).StateMem gdbResume :=
  gdbResume_mem (stop_hasServer world).toHasRunState fun link =>
    wlLinkeDmiWrite_mem _ (stop_register world link _) _

/-- Handlers in sequence, when nothing is asked of the outcome. -/
theorem stop_bind {world : World Host Watch} {α β : Type} {program : Gdb α} {rest : α → Gdb β}
    {conn : GdbConn} {watch : Watch} {post : Option (α × GdbConn) → Watch → Prop}
    (h : (program.run conn).wp world stopGuard post watch)
    (hrest : ∀ value conn' watch', post (some (value, conn')) watch' →
      ((rest value).run conn').wp world stopGuard (fun _ _ => True) watch') :
    ((program >>= rest).run conn).wp world stopGuard (fun _ _ => True) watch := by
  exact Program.wp_own_bind h hrest fun _ _ => trivial

/-! ## Sending a stop reply -/

/-- While the core is known to be halted everything may be sent. -/
theorem stop_hasSocket {condition : List Byte → Watch → (operation : HostOp) → operation.Reply → Prop}
    (packet : List Byte) :
    HasSocket (Program.preserving (watching.when (condition packet)) stopGuard Watch.Truthful)
      fun _ => True := by
  have hperform {operation : HostOp} (hother : ∀ watch reply, Watch.after watch operation reply = watch) :
      (Program.preserving (watching.when (condition packet)) stopGuard Watch.Truthful).Mem
        (request operation) := by
    refine Program.preserving_perform (fun _ hwatch _ _ _ => hwatch) fun watch reply next hwatch h => ?_
    have hnext : next = watch := h.1.trans (hother watch reply)
    rw [hnext]
    exact hwatch
  exact
    { cuts := Program.preserving_cuts
      recv := hperform fun _ _ => rfl
      send := fun _ _ => hperform fun _ _ => rfl }

theorem gdbSendStop_wp (packet : List Byte) (fuel : Nat) (signal : Word) (conn : GdbConn)
    {watch : Watch} (hwatch : watch.Truthful) :
    ((gdbSendStop fuel signal).run conn).wp (stopCondition.during watching packet) stopGuard
      (fun _ _ => True) watch := by
  have hsend : (Program.preserving (stopCondition.during watching packet) stopGuard
      Watch.Truthful).StateMem (gdbSendStop fuel signal) :=
    gdbSendPacket_mem (@stop_hasSocket stopCondition.replies packet) fuel fun _ => trivial
  exact Program.wp_mono ((hsend conn).1 watch hwatch) fun _ _ _ => trivial

theorem gdbSendText_wp (packet : List Byte) {string : List Byte}
    (hstring : string.head? ≠ some (ascii 'T')) (fuel : Nat) (conn : GdbConn) (watch : Watch) :
    ((gdbSendText fuel string).run conn).wp (stopCondition.during watching packet) stopGuard
      (fun _ _ => True) watch := by
  have hsend := gdbSendText_plain (stop_hasServer
    (stopCondition.during watching packet)).toHasSocket fuel hstring
  exact Program.wp_mono (stop_quiet hsend conn watch) fun _ _ _ => trivial

/-- Writing DCSR says nothing about whether the core runs. -/
theorem truthful_dcsrWrite (packet : List Byte) (value : Word) :
    (Program.preserving (stopCondition.during watching packet) stopGuard
      Watch.Truthful).StateMem (onTargetIgnored fun link => wlDmDcsrWrite link value) := by
  have hregister {link : Link} {reg : Byte} (hcontrol : reg ≠ wlDmiDmcontrol)
      (hstatus : reg ≠ wlDmiDmstatus) :
      HasRegister (usbClass (Program.preserving (stopCondition.during watching packet) stopGuard
        Watch.Truthful)) link reg := by
    intro value operation
    refine regAccess_mem _ (Program.preserving_perform (fun _ hwatch _ _ _ => hwatch) ?_)
    rintro watch reply next hwatch ⟨hnext, -⟩
    have hsame : watch.after (.usb (regRequest reg value operation)) reply = watch := by
      show (match registerAccess (regRequest reg value operation) with
        | some access => watch.see access reply
        | none => watch) = _
      rw [registerAccess_regRequest]
      show watch.see _ reply = watch
      rw [Watch.see, if_neg fun h => hcontrol h.1, if_neg fun h => hstatus h.1]
    rw [hnext, hsame]
    exact hwatch
  have hwrite (link : Link) : (usbClass (Program.preserving (stopCondition.during watching packet)
      stopGuard Watch.Truthful)).Mem (wlDmDcsrWrite link value).run := by
    refine ProgramClass.andThen _ ?_ fun _ => ProgramClass.ok _ _
    unfold dmCsrAccess
    refine dmCommand_mem_of ⟨hregister (by decide) (by decide), hregister (by decide) (by decide)⟩ ?_
      _ _ _
    exact wlLinkeDmiWrite_mem _ (hregister (by decide) (by decide)) _
  exact ProgramClass.stateBind _ (onTarget_mem _ hwrite) fun _ => ProgramClass.stateDone _ _

/-! ## Waiting for a stop -/

section Waiting

variable {packet : List Byte} (hawaits : AwaitsStop packet) {conn : GdbConn}
  (hlink : conn.link.Usable)

include hawaits hlink

/-- Every status read while a stop is awaited tells whether the core is halted. -/
theorem gdbDmIsHalted_wp (watch : Watch) :
    (gdbDmIsHalted.run conn).wp (stopCondition.during watching packet) stopGuard
      (fun result final => ∃ halted, result = some (halted, conn) ∧
        (halted = true → final.Truthful) ∧ final.haltPolls = watch.haltPolls.map (· + 1) ∧
          ∀ polls, watch.haltPolls = some polls → gdbHaltPolls ≤ polls + 1 → halted = true) watch := by
  have haccess := registerAccess_regRequest wlDmiDmstatus 0 wlRegOpRead
  unfold gdbDmIsHalted
  rw [StateT.run_bind, Program.wp_bind]
  refine onTarget_wp (regAccess_wp hlink (fun bytes hbytes => nomatch hbytes) ?_)
  rintro reply after ⟨rfl, hreplies⟩
  obtain ⟨status, hstatus, hlast⟩ := hreplies hawaits haccess
  have hafter : watch.after (.usb (regRequest wlDmiDmstatus 0 wlRegOpRead)) reply =
      { status := some status, haltPolls := watch.haltPolls.map (· + 1) } := by
    show (match registerAccess (regRequest wlDmiDmstatus 0 wlRegOpRead) with
      | some access => watch.see access reply
      | none => watch) = _
    rw [haccess]
    show Watch.mk ((acknowledged reply).or watch.status) _ = _
    rw [hstatus]
    rfl
  rw [hafter, regAnswer_ok hstatus]
  refine ⟨decide (status &&& gdbDmstatusAnyrunning = 0), rfl, fun h => ?_, rfl,
    fun polls hpolls hlimit => ?_⟩
  · exact ⟨status, rfl, of_decide_eq_true h⟩
  · exact decide_eq_true (hlast polls hpolls hlimit)

/-- The polls of a halt end with the core known to be halted, unless the core is
given more time than they take. -/
theorem gdbPollHalted_wp (polls : Nat) (watch : Watch) :
    ((gdbPollHalted polls).run conn).wp (stopCondition.during watching packet) stopGuard
      (fun result final => ∃ status, result = some (status, conn) ∧
        (status = .ok () → final.Truthful) ∧
          ∀ done, watch.haltPolls = some done → done + polls = gdbHaltPolls → 0 < polls →
            status = .ok ()) watch := by
  induction polls generalizing watch with
  | zero =>
      refine ⟨.error .target, rfl, fun h => ?_, fun done _ _ hpolls => ?_⟩
      · cases h
      · exact absurd hpolls (lt_irrefl 0)
  | succ polls ih =>
      rw [gdbPollHalted, StateT.run_bind, Program.wp_bind]
      refine Program.wp_mono (gdbDmIsHalted_wp hawaits hlink watch) ?_
      rintro result final ⟨halted, rfl, htruthful, hpolls, hlast⟩
      cases halted with
      | true => exact ⟨.ok (), rfl, fun _ => htruthful rfl, fun _ _ _ _ => rfl⟩
      | false =>
          refine ⟨fun bytes hbytes => (by cases hbytes), ?_⟩
          rintro reply after ⟨hafter, -⟩
          have hsame : after = final := hafter
          rw [hsame]
          refine Program.wp_mono (ih final) ?_
          rintro result after ⟨status, rfl, hok, hdone⟩
          refine ⟨status, rfl, hok, fun done hstart hsum _ => ?_⟩
          refine hdone (done + 1) (by rw [hpolls, hstart]; rfl) (by omega) ?_
          by_contra hnone
          have hfull := hlast done hstart (by omega)
          cases hfull

/-- Asking the core to halt and waiting for it. -/
theorem haltAndWait_wp {α : Type} {rest : Gdb α}
    (hrest : ∀ watch : Watch, watch.Truthful →
      (rest.run conn).wp (stopCondition.during watching packet) stopGuard (fun _ _ => True) watch)
    (watch : Watch) :
    ((gdbDmHalt >>= fun _ => gdbDmWaitHalted >>= fun _ => rest).run conn).wp
      (stopCondition.during watching packet) stopGuard (fun _ _ => True) watch := by
  have hhalt : (gdbDmHalt.run conn).wp (stopCondition.during watching packet) stopGuard
      (fun result final => (∃ status, result = some (status, conn)) ∧
        final.haltPolls = some 0) watch := by
    refine onTarget_wp (wlLinkeDmiWrite_wp hlink (fun bytes hbytes => by cases hbytes) ?_)
    rintro reply after ⟨rfl, -⟩
    refine ⟨⟨_, rfl⟩, ?_⟩
    show (match registerAccess (regRequest wlDmiDmcontrol gdbDmcontrolHalt wlRegOpWrite) with
      | some access => watch.see access reply
      | none => watch).haltPolls = _
    rw [registerAccess_regRequest]
    rfl
  refine stop_bind hhalt ?_
  rintro status conn' halted ⟨⟨_, hstatus⟩, hpolls⟩
  cases hstatus
  refine stop_bind (gdbPollHalted_wp hawaits hlink gdbHaltPolls halted) ?_
  rintro status' conn' final ⟨_, hstatus, htruthful, hdone⟩
  cases hstatus
  exact hrest final (htruthful (hdone 0 hpolls (Nat.zero_add _) (by decide)))

end Waiting

section Turns

variable {packet : List Byte} (hawaits : AwaitsStop packet)

include hawaits

/-- Whatever ends the wait for a stop has seen the core halted. -/
theorem gdbWaitForStop_wp (fuel : Nat) {conn : GdbConn} (hlink : conn.link.Usable)
    (watch : Watch) :
    ((gdbWaitForStop fuel).run conn).wp (stopCondition.during watching packet) stopGuard
      (fun _ _ => True) watch := by
  induction fuel generalizing conn watch with
  | zero => trivial
  | succ fuel ih =>
      rw [gdbWaitForStop]
      have hinterrupted := gdbInterrupted_mem (stop_hasServer
        (stopCondition.during watching packet)).toHasTarget fuel
      refine stop_bind (stop_quiet ((stopClass _).stateLift hinterrupted) conn watch)
        fun interrupted conn' watch' hconn => ?_
      have hlink' : conn'.link.Usable := by
        rw [hconn interrupted conn' rfl]
        exact hlink
      cases interrupted with
      | true =>
          exact haltAndWait_wp hawaits hlink'
            (fun watch hwatch => gdbSendStop_wp packet fuel 2 conn' hwatch) watch'
      | false =>
          refine stop_bind (gdbDmIsHalted_wp hawaits hlink' watch') ?_
          rintro halted conn'' final ⟨_, hresult, htruthful, -, -⟩
          cases hresult
          cases halted with
          | true => exact gdbSendStop_wp packet fuel 5 _ (htruthful rfl)
          | false => exact ih hlink' final

theorem gdbContinue_wp (fuel : Nat) {conn : GdbConn} (hlink : conn.link.Usable) (watch : Watch) :
    ((gdbContinue fuel).run conn).wp (stopCondition.during watching packet) stopGuard
      (fun _ _ => True) watch := by
  refine stop_bind (stop_quiet (stop_resume _) conn watch) fun status conn' watch' hconn => ?_
  cases status with
  | error error => exact gdbSendText_wp packet (by decide) fuel conn' watch'
  | ok value =>
      refine gdbWaitForStop_wp hawaits fuel ?_ watch'
      rw [hconn (.ok value) conn' rfl]
      exact hlink

theorem gdbResumeAndWait_wp {conn : GdbConn} (hlink : conn.link.Usable) (watch : Watch) :
    (gdbResumeAndWait.run conn).wp (stopCondition.during watching packet) stopGuard
      (fun result final => ∀ conn', result = some (.ok (), conn') → final.Truthful) watch := by
  refine Program.wp_own_bind (stop_quiet (stop_resume _) conn watch)
    (fun status conn' watch' hconn => ?_) fun _ _ conn' hresult => nomatch hresult
  cases status with
  | error error => exact fun conn'' hresult => nomatch hresult
  | ok value =>
      have hlink' : conn'.link.Usable := by
        rw [hconn (.ok value) conn' rfl]
        exact hlink
      refine Program.wp_mono (gdbPollHalted_wp hawaits hlink' gdbHaltPolls watch') ?_
      rintro result final ⟨status, rfl, htruthful, -⟩ conn'' hresult
      cases hresult
      exact htruthful rfl

/-- A step that succeeds has seen the core halted. -/
theorem gdbStep_wp {conn : GdbConn} (hlink : conn.link.Usable) (watch : Watch) :
    (gdbStep.run conn).wp (stopCondition.during watching packet) stopGuard
      (fun result final => ∀ conn', result = some (.ok (), conn') → final.Truthful) watch := by
  have hcommands := (stop_hasServer (stopCondition.during watching packet)).commands
  unfold gdbStep
  refine Program.wp_own_bind (stop_quiet (onTarget_mem _ fun link => wlDmDcsrRead_mem
    (hcommands link)) conn watch) (fun status conn₁ watch₁ hconn₁ => ?_)
    fun _ _ conn' hresult => nomatch hresult
  cases status with
  | error error => exact fun conn' hresult => nomatch hresult
  | ok dcsr =>
      refine Program.wp_own_bind (stop_quiet (onTarget_mem _ fun link => wlDmDcsrWrite_mem
        (hcommands link) _) conn₁ watch₁) (fun status conn₂ watch₂ hconn₂ => ?_)
        fun _ _ conn' hresult => nomatch hresult
      cases status with
      | error error => exact fun conn' hresult => nomatch hresult
      | ok value =>
          have hlink₂ : conn₂.link.Usable := by
            rw [hconn₂ _ _ rfl, hconn₁ _ _ rfl]
            exact hlink
          refine Program.wp_own_bind (gdbResumeAndWait_wp hawaits hlink₂ watch₂)
            (fun status conn₃ watch₃ htruthful => ?_) fun _ _ conn' hresult => nomatch hresult
          -- The clean-up is not looked at; it leaves what was seen of the core alone.
          have hcleanup := @truthful_dcsrWrite packet
            ((dcsr ||| (gdbDcsrEbreakBits ||| gdbDcsrStep)) &&& ~~~gdbDcsrStep)
          cases status with
          | ok value =>
              refine Program.wp_own_bind ((hcleanup conn₃).1 watch₃ (htruthful conn₃ rfl))
                (fun _ _ final hfinal conn' _ => hfinal) fun _ _ conn' hresult => nomatch hresult
          | error error =>
              have hquiet := (stopClass (stopCondition.during watching packet)).stateBind
                (onTarget_mem _ fun link => wlDmDcsrWrite_mem (hcommands link)
                  ((dcsr ||| (gdbDcsrEbreakBits ||| gdbDcsrStep)) &&& ~~~gdbDcsrStep))
                fun _ => ProgramClass.stateDone _ PUnit.unit
              exact Program.wp_own_bind (stop_quiet hquiet conn₃ watch₃)
                (fun _ _ final _ conn' hresult => nomatch hresult)
                fun _ _ conn' hresult => nomatch hresult

theorem gdbSingleStep_wp (fuel : Nat) {conn : GdbConn} (hlink : conn.link.Usable) (watch : Watch) :
    ((gdbSingleStep fuel).run conn).wp (stopCondition.during watching packet) stopGuard
      (fun _ _ => True) watch := by
  refine stop_bind (gdbStep_wp hawaits hlink watch) fun status conn' watch' htruthful => ?_
  cases status with
  | error error => exact gdbSendText_wp packet (by decide) fuel conn' watch'
  | ok value => exact gdbSendStop_wp packet fuel 5 conn' (htruthful conn' rfl)

end Turns

/-! ## Every run -/

theorem gdbHandlePacket_stops (fuel : Nat) (packet : List Byte) {conn : GdbConn} {watch : Watch}
    (hlink : conn.link.Usable) (hadmits : stopCondition.admits packet conn watch) :
    ((gdbHandlePacket fuel packet).run conn).wp (stopCondition.during watching packet) stopGuard
      (fun _ _ => True) watch := by
  by_cases hasks : AsksStop packet
  · rw [gdbHandlePacket_asksStop hasks]
    exact stop_bind (gdbSendStop_wp packet fuel 5 conn (hadmits hasks)) fun _ _ _ _ => trivial
  by_cases hcontinue : Continues packet
  · rw [gdbHandlePacket_continues hcontinue]
    exact stop_bind (gdbContinue_wp (.inl hcontinue) fuel hlink watch) fun _ _ _ _ => trivial
  by_cases hstep : Steps packet
  · rw [gdbHandlePacket_steps hstep]
    exact stop_bind (gdbSingleStep_wp (.inr hstep) fuel hlink watch) fun _ _ _ _ => trivial
  have hquiet := gdbHandlePacket_mem
    (stop_hasServer (stopCondition.during watching packet)).toHasTarget fuel packet
    (fun h => absurd h hasks) (fun h => absurd h hcontinue) (fun h => absurd h hstep)
    fun _ => stop_resume _
  exact (hquiet conn).1 watch trivial

/-- In a run whose turns meet the condition every stop reply is truthful. -/
theorem wlGdbServerRun_stopReplies {fuel : Nat} {link : Link} {chip : Option Chip}
    {port : BitVec 16} {packet bytes : List Byte} {start final : Watch}
    {handled : Option (List Byte)}
    (h : ServerReaches watching stopCondition fuel link chip port packet start handled
      (.send bytes) final) (hstop : [ascii '$', ascii 'T'] <+: bytes) : final.Truthful := by
  have hguarded := @ServerReaches.guarded Watch watching stopCondition (fun _ => stopGuard)
    (stop_hasServer watching) fun fuel packet conn state hlink hadmits =>
      gdbHandlePacket_stops fuel packet hlink hadmits
  exact hguarded h bytes rfl (not_not_intro hstop)

/-! ## A debugger that types ahead -/

/-- A programmer whose register values are all zero, and where asking for
DMSTATUS fails if it is `deaf`; the debugger's bytes are `incoming`. -/
def zeroProgrammer (deaf : Bool) : Handler Host (List Byte)
  | .usb request, incoming =>
      (if deaf ∧ request = regRequest wlDmiDmstatus 0 wlRegOpRead then .error (-1)
        else .ok [wlReplyHeader, wlCmdReg, 0x06, 0, 0, 0, 0, 0, 0], incoming)
  | .recv, incoming =>
      match incoming with
      | [] => (.closed, [])
      | c :: rest => (.byte c, rest)
  | .send bytes, incoming => (.wrote bytes.length, incoming)
  | .poll, incoming => (false, incoming)
  | .sleep _, incoming => ((), incoming)
  | .malloc _, incoming => (true, incoming)
  | .listen _, incoming => (true, incoming)
  | .accept, incoming => (true, incoming)

/-- A `?` after the halt of the opening was seen. -/
theorem wlGdbServerRun_stopReplies_opened :
    ∃ final : Watch, ServerReaches watching stopCondition 6 wlLinkeAttachTransport (some ch32v003) 0
      [] ⟨none, none⟩ (some (fillPacket [] (text "?"))) (.send (gdbFrame (gdbStopReply 5))) final ∧
        final.Truthful := by
  have hopen : Program.Returns watching (gdbServerOpen wlLinkeAttachTransport (some ch32v003) 0)
      ⟨none, none⟩ (.ok (.fresh ⟨true, true, 9, true⟩ ch32v003)) ⟨some 0, some 1⟩ :=
    Program.returns_of_follow (zeroProgrammer false) Watch.after 12 [] rfl
  have hrecv : Program.Returns watching (gdbRecvPacket 5) ⟨some 0, some 1⟩ (some (text "?"))
      ⟨some 0, some 1⟩ :=
    Program.returns_of_follow (zeroProgrammer false) Watch.after 6 (gdbFrame (text "?")) rfl
  have hreaches : ServerReaches watching stopCondition 6 wlLinkeAttachTransport (some ch32v003) 0 []
      ⟨none, none⟩ (some (fillPacket [] (text "?"))) (.send (gdbFrame (gdbStopReply 5)))
        ⟨some 0, some 1⟩ := by
    refine .serving hopen .refl (.handling rfl hrecv (fun _ => ⟨0, rfl, by decide⟩) ?_)
    exact ⟨[], _, .refl _ _⟩
  exact ⟨_, hreaches, wlGdbServerRun_stopReplies hreaches ⟨_, rfl⟩⟩

/-- A status that cannot be read ends a `c` with a stop reply. -/
theorem wlGdbServerRun_stopReplies_unread :
    ¬∀ (fuel : Nat) (link : Link) (chip : Option Chip) (port : BitVec 16) (packet bytes : List Byte)
      (final : Watch),
      Program.Reaches watching (wlGdbServerRun fuel link chip port packet) ⟨none, none⟩
        (.send bytes) final → [ascii '$', ascii 'T'] <+: bytes → final.Truthful := by
  intro hall
  have hreaches : Program.Reaches watching
      (wlGdbServerRun 6 wlLinkeAttachTransport (some ch32v003) 0 []) ⟨none, none⟩
        (.send (gdbFrame (gdbStopReply 5))) ⟨none, none⟩ :=
    Program.reaches_of_follow (zeroProgrammer true) Watch.after 27 (gdbFrame (text "c")) (by decide)
  obtain ⟨status, hstatus, -⟩ := hall _ _ _ _ _ _ _ hreaches ⟨_, rfl⟩
  cases hstatus

end WchLink
