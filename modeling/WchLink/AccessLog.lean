import WchLink.AccessTrace
import WchLink.Layers

/-! # The log of accesses a run makes

Above the debug module a run is a sequence of accesses, some of which never got
as far as their postexec command. The log lists the accesses that did, whatever
came of them.
-/

namespace WchLink

open Bytes Interaction

/-- Exchanges that never make the target run its program buffer. -/
def Quiet (made : List Exchange) : Prop := ∀ exchange ∈ made, ¬Postexec exchange.1

theorem Quiet.append {first second : List Exchange} (h : Quiet first) (h' : Quiet second) :
    Quiet (first ++ second) := by
  intro exchange hmem
  rcases List.mem_append.mp hmem with hmem | hmem
  · exact h exchange hmem
  · exact h' exchange hmem

/-- A staged access, its postexec command and what followed it. -/
def RanOnce (access : Access) (made : List Exchange) : Prop :=
  ∃ staged exchange rest, made = staged ++ exchange :: rest ∧ Staged access staged ∧
    exchange.1 = regRequest wlDmiDmcommand runCommand wlRegOpWrite ∧ Quiet rest

/-- The accesses whose programs the exchanges have started, in order. -/
inductive Ran : List Exchange → List Access → Prop
  | nil : Ran [] []
  | quiet {made more : List Exchange} {log : List Access} :
      Ran made log → Quiet more → Ran (made ++ more) log
  | access {made more : List Exchange} {log : List Access} {access : Access} :
      Ran made log → RanOnce access more → Ran (made ++ more) (log ++ [access])

theorem Ran.append {made more : List Exchange} {log log' : List Access} (h : Ran made log)
    (h' : Ran more log') : Ran (made ++ more) (log ++ log') := by
  induction h' with
  | nil =>
      rw [List.append_nil, List.append_nil]
      exact h
  | quiet _ hquiet ih =>
      rw [← List.append_assoc]
      exact ih.quiet hquiet
  | access _ honce ih =>
      rw [← List.append_assoc, ← List.append_assoc]
      exact ih.access honce

/-- The accesses so far and the one about to be started. -/
def Starts (made : List Exchange) (log : List Access) (access : Access) : Prop :=
  ∃ before staged, made = before ++ staged ∧ Ran before log ∧ Staged access staged

theorem Ran.starts {made more : List Exchange} {log log' : List Access} {access : Access}
    (h : Ran made log) (h' : Starts more log' access) :
    Starts (made ++ more) (log ++ log') access := by
  obtain ⟨before, staged, rfl, hbefore, hstaged⟩ := h'
  exact ⟨made ++ before, staged, (List.append_assoc _ _ _).symm, h.append hbefore, hstaged⟩

/-- A program by the accesses it makes: each is allowed after the log so far,
and the outcome fits the log. -/
def Accesses {α : Type} (program : Program Usb α) (allowed : List Access → Access → Prop)
    (outcome : List Access → Option α → Prop) : Prop :=
  program.Follows
    (fun made request => Postexec request → ∃ log access, Starts made log access ∧
      allowed log access)
    fun made value => ∃ log, Ran made log ∧ outcome log value

section Accesses

variable {α β : Type} {program : Program Usb α} {allowed allowed' : List Access → Access → Prop}

theorem Accesses.mono {outcome outcome' : List Access → Option α → Prop}
    (h : Accesses program allowed outcome)
    (hallowed : ∀ log access, allowed log access → allowed' log access)
    (houtcome : ∀ log value, outcome log value → outcome' log value) :
    Accesses program allowed' outcome' := by
  refine Program.Follows.mono h (fun made request hstarts hpostexec => ?_) ?_
  · obtain ⟨log, access, hstarts, haccess⟩ := hstarts hpostexec
    exact ⟨log, access, hstarts, hallowed log access haccess⟩
  · rintro made value ⟨log, hlog, hvalue⟩
    exact ⟨log, hlog, houtcome log value hvalue⟩

theorem Accesses.done {outcome : List Access → Option α → Prop} {value : α}
    (h : outcome [] (some value)) : Accesses (.done value) allowed outcome :=
  ⟨[], .nil, h⟩

theorem Accesses.bind {rest : α → Program Usb β} {middle : List Access → Option α → Prop}
    {outcome : List Access → Option β → Prop} (h : Accesses program allowed middle)
    (hrest : ∀ log value, middle log (some value) → Accesses (rest value)
      (fun more => allowed (log ++ more)) (fun more => outcome (log ++ more)))
    (hcut : ∀ log, middle log none → outcome log none) :
    Accesses (program >>= rest) allowed outcome := by
  refine Program.Follows.bind h (fun made value hmiddle => ?_) fun made hmiddle => ?_
  · obtain ⟨log, hlog, hvalue⟩ := hmiddle
    refine Program.Follows.mono (hrest log value hvalue) (fun more request hstarts hpostexec => ?_)
      ?_
    · obtain ⟨log', access, hstarts, haccess⟩ := hstarts hpostexec
      exact ⟨log ++ log', access, hlog.starts hstarts, haccess⟩
    · rintro more value' ⟨log', hlog', hvalue'⟩
      exact ⟨log ++ log', hlog.append hlog', hvalue'⟩
  · obtain ⟨log, hlog, hvalue⟩ := hmiddle
    exact ⟨log, hlog, hcut log hvalue⟩

/-- What every reply leads to, the outcome may use. -/
theorem Accesses.always {outcome : List Access → Option α → Prop} {post : α → Prop}
    (h : Accesses program allowed outcome) (hpost : program.Always post) :
    Accesses program allowed fun log value =>
      outcome log value ∧ ∀ result, value = some result → post result := by
  refine (Program.Follows.always h hpost).mono (fun _ _ hallowed => hallowed) ?_
  rintro made value ⟨⟨log, hlog, hvalue⟩, hresult⟩
  exact ⟨log, hlog, hvalue, hresult⟩

end Accesses

/-! ## One access -/

section Attempts

variable {link : Link} {allowed : List Exchange → List Byte → Prop}
  (hquiet : ∀ made request, ¬Postexec request → allowed made request)

include hquiet

/-- A part of an operation that starts nothing. -/
theorem Establishes.quietly {α : Type} {operation : Fallible α}
    {good : List Exchange → α → Prop}
    (h : Establishes operation (fun _ request => ¬Postexec request) good) :
    operation.run.Follows allowed fun made status =>
      (∀ value, status = some (.ok value) → good made value) ∧ Quiet made :=
  (Program.Follows.requests h).mono hquiet fun _ _ hmade => hmade

omit hquiet in
/-- A request is sent once or, on a closed link, not at all. -/
theorem wlLinkeCommand_exchanges {request : List Byte} (hallowed : allowed [] request) :
    (wlLinkeCommand link request).run.Follows allowed fun made status =>
      (made = [] ∧ ∀ reply, status ≠ some (.ok reply)) ∨
        ∃ exchange, made = [exchange] ∧ exchange.1 = request := by
  unfold wlLinkeCommand
  dsimp only
  split
  · exact .inl ⟨rfl, fun reply hreply => by cases hreply⟩
  · refine ⟨hallowed, fun answer => ?_⟩
    cases answer with
    | error code => exact .inr ⟨_, rfl, rfl⟩
    | ok reply => exact .inr ⟨_, rfl, rfl⟩

omit hquiet in
theorem regAccess_exchanges {reg : Byte} {value : Word} {operation : Byte}
    (hallowed : allowed [] (regRequest reg value operation)) :
    (regAccess link reg value operation).run.Follows allowed fun made status =>
      (made = [] ∧ ∀ word, status ≠ some (.ok word)) ∨
        ∃ exchange, made = [exchange] ∧ exchange.1 = regRequest reg value operation := by
  unfold regAccess
  refine Program.Follows.andThen (wlLinkeCommand_exchanges hallowed) (fun made reply hmade => ?_)
    fun made failure hmade => hmade.imp_left fun h => ⟨h.1, Program.failed_ne_ok failure⟩
  rcases hmade with ⟨-, hfailed⟩ | ⟨exchange, rfl, hexchange⟩
  · exact absurd rfl (hfailed reply)
  · dsimp only
    split
    · exact .inr ⟨exchange, rfl, hexchange⟩
    · split
      · exact .inr ⟨exchange, rfl, hexchange⟩
      · exact .inr ⟨exchange, rfl, hexchange⟩

omit hquiet in
theorem wlLinkeDmiWrite_exchanges {reg : Byte} {value : Word}
    (hallowed : allowed [] (regRequest reg value wlRegOpWrite)) :
    (wlLinkeDmiWrite link reg value).run.Follows allowed fun made status =>
      (made = [] ∧ ∀ result, status ≠ some (.ok result)) ∨
        ∃ exchange, made = [exchange] ∧ exchange.1 = regRequest reg value wlRegOpWrite := by
  unfold wlLinkeDmiWrite
  refine Program.Follows.andThen (regAccess_exchanges hallowed) (fun made word hmade => ?_)
    fun made failure hmade => hmade.imp_left fun h => ⟨h.1, Program.failed_ne_ok failure⟩
  rcases hmade with ⟨-, hfailed⟩ | ⟨exchange, rfl, hexchange⟩
  · exact absurd rfl (hfailed word)
  · exact .inr ⟨exchange, rfl, hexchange⟩

/-- The command that starts the program, however it ends. -/
theorem runCommand_attempts {value : Word}
    (hcommand : ∀ given, Wrote wlDmiData0 value given →
      allowed [given] (regRequest wlDmiDmcommand runCommand wlRegOpWrite)) :
    (dmCommand link runCommand value true false).run.Follows allowed fun made status =>
      (Quiet made ∧ ∀ word, status ≠ some (.ok word)) ∨
        ∃ given exchange rest, made = given :: exchange :: rest ∧ Wrote wlDmiData0 value given ∧
          exchange.1 = regRequest wlDmiDmcommand runCommand wlRegOpWrite ∧ Quiet rest := by
  unfold dmCommand
  rw [if_pos rfl]
  refine Program.Follows.andThen (Establishes.quietly hquiet (wlLinkeDmiWrite_establishes
    (not_postexec_reg (by decide)))) (fun made _ hmade => ?_)
    fun made failure hmade => .inl ⟨hmade.2, Program.failed_ne_ok failure⟩
  obtain ⟨⟨given, rfl, hgiven⟩, hbefore⟩ := hmade.imp_left fun h => h () rfl
  refine Program.Follows.andThen (wlLinkeDmiWrite_exchanges (hcommand given hgiven))
    (fun made _ hmade => ?_) fun made failure hmade => ?_
  · rcases hmade with ⟨-, hfailed⟩ | ⟨exchange, rfl, hexchange⟩
    · exact absurd rfl (hfailed ())
    · refine Program.Follows.andThen (Establishes.quietly (fun _ _ h => hquiet _ _ h)
        (dmWait_establishes fun _ _ h => h)) (fun rest _ hrest => ?_) fun rest failure hrest => ?_
      · exact .inr ⟨given, exchange, rest ++ [], rfl, hgiven, hexchange,
          (List.append_nil rest).symm ▸ hrest.2⟩
      · exact .inr ⟨given, exchange, rest, rfl, hgiven, hexchange, hrest.2⟩
  · rcases hmade with ⟨rfl, -⟩ | ⟨exchange, rfl, hexchange⟩
    · exact .inl ⟨hbefore, Program.failed_ne_ok failure⟩
    · exact .inr ⟨given, exchange, [], rfl, hgiven, hexchange,
        fun _ hmem => absurd hmem List.not_mem_nil⟩

end Attempts

/-- However it ends, a run of a program buffer makes its access or none. -/
theorem dmRun_attempts (link : Link) (program : List Word) (address value : Word)
    (result : Bool) :
    (dmRun link program address value result).run.Follows
      (Access.Allows ⟨program, address, value⟩) fun made status =>
        (Quiet made ∧ ∀ word, status ≠ some (.ok word)) ∨
          RanOnce ⟨program, address, value⟩ made := by
  have hquiet (made : List Exchange) (request : List Byte) (h : ¬Postexec request) :
      Access.Allows ⟨program, address, value⟩ made request := fun hpostexec => absurd hpostexec h
  unfold dmRun
  refine Program.Follows.andThen (Establishes.quietly hquiet
    (dmLoadProgram_establishes (fun _ _ h => h) program)) (fun made _ hmade => ?_)
    fun made failure hmade => .inl ⟨hmade.2, Program.failed_ne_ok failure⟩
  obtain ⟨⟨auto, words, rfl, hauto, hwords⟩, hfirst⟩ := hmade.imp_left fun h => h () rfl
  refine Program.Follows.andThen (Establishes.quietly (fun _ _ h => hquiet _ _ h)
    (wlDmGprWrite_establishes (fun _ _ h => h) address)) (fun made _ hmade => ?_)
    fun made failure hmade => .inl ⟨hfirst.append hmade.2, Program.failed_ne_ok failure⟩
  obtain ⟨⟨data, command, polls, rfl, hdata, hcommand, hpolls⟩, hsecond⟩ :=
    hmade.imp_left fun h => h () rfl
  have hstaged (given : Exchange) (hgiven : Wrote wlDmiData0 value given) :
      Staged ⟨program, address, value⟩
        (auto :: words ++ (data :: command :: polls ++ [given])) :=
    ⟨auto, words, data, command, polls, given, by simp, hauto, hwords, hdata, hcommand, hpolls,
      hgiven⟩
  refine Program.Follows.andThen (runCommand_attempts (fun _ _ h => hquiet _ _ h)
    fun given hgiven _ => hstaged given hgiven) (fun made _ hmade => ?_)
    fun made failure hmade => ?_
  · rcases hmade with ⟨-, hfailed⟩ | ⟨given, exchange, rest, rfl, hgiven, hexchange, hrest⟩
    · exact absurd rfl (hfailed _)
    · have honce (back : List Exchange) (hback : Quiet back) :
          RanOnce ⟨program, address, value⟩ (auto :: words ++ (data :: command :: polls ++
            (given :: exchange :: rest ++ back))) :=
        ⟨_, exchange, rest ++ back, by simp, hstaged given hgiven, hexchange, hrest.append hback⟩
      cases result with
      | false => exact .inr (honce [] fun _ hmem => absurd hmem List.not_mem_nil)
      | true =>
          exact (Establishes.quietly (fun _ _ h => hquiet _ _ h)
            (wlDmGprRead_establishes fun _ _ h => h)).mono (fun _ _ h => h)
            fun back _ hback => .inr (honce back hback.2)
  · rcases hmade with ⟨hthird, -⟩ | ⟨given, exchange, rest, rfl, hgiven, hexchange, hrest⟩
    · exact .inl ⟨hfirst.append (hsecond.append hthird), Program.failed_ne_ok failure⟩
    · exact .inr ⟨_, exchange, rest, by simp, hstaged given hgiven, hexchange, hrest⟩

theorem dmRun_makes {link : Link} {program : List Word} {address value : Word} (result : Bool)
    {allowed : List Access → Access → Prop} (haccess : allowed [] ⟨program, address, value⟩) :
    Accesses (dmRun link program address value result).run allowed fun log status =>
      (log = [] ∧ ∀ word, status ≠ some (.ok word)) ∨ log = [⟨program, address, value⟩] := by
  refine (dmRun_attempts link program address value result).mono
    (fun made request hallowed hpostexec => ?_) fun made status hmade => ?_
  · exact ⟨[], ⟨program, address, value⟩, ⟨[], made, rfl, .nil, hallowed hpostexec⟩, haccess⟩
  · rcases hmade with ⟨hquiet, hfailed⟩ | honce
    · exact ⟨[], Ran.nil.quiet hquiet, .inl ⟨rfl, hfailed⟩⟩
    · exact ⟨[⟨program, address, value⟩], Ran.nil.access honce, .inr rfl⟩

end WchLink
