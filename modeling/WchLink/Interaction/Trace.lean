import WchLink.Interaction.World

/-! # Programs by the exchanges they make

What may be requested, and what a result means, as facts about the exchanges
made since a program started. Nothing is assumed of the replies, so the facts
hold in every world.
-/

namespace Interaction

variable {P : PFunctor.{0, 0}} {σ ε ρ α β : Type}

namespace Program

/-- Whatever the replies, every request is allowed after the exchanges so far
and the outcome (`none` for a cut) fits the exchanges made. -/
def Follows (program : Program P α) (allowed : List P.Idx → P.A → Prop)
    (outcome : List P.Idx → Option α → Prop) : Prop :=
  match program with
  | done value => outcome [] (some value)
  | cut => outcome [] none
  | call operation next =>
      allowed [] operation ∧ ∀ reply, (next reply).Follows
        (fun made => allowed (⟨operation, reply⟩ :: made))
        (fun made => outcome (⟨operation, reply⟩ :: made))

variable {allowed allowed' : List P.Idx → P.A → Prop} {program : Program P α}

/-- A run of any world makes exchanges the program follows. -/
theorem Follows.of_run {outcome : List P.Idx → Option α → Prop} {world : World P σ}
    {residual : Program P α} {state final : σ} {trace : List P.Idx}
    (h : program.Follows allowed outcome) (hrun : Run world program state trace residual final) :
    residual.Follows (fun made => allowed (trace ++ made)) (fun made => outcome (trace ++ made)) := by
  induction hrun generalizing allowed outcome with
  | refl program state => exact h
  | step _ _ ih => exact ih (h.2 _)

theorem Follows.allowed_of_run {outcome : List P.Idx → Option α → Prop} {world : World P σ}
    {operation : P.A} {next : P.B operation → Program P α} {state final : σ}
    {trace : List P.Idx} (h : program.Follows allowed outcome)
    (hrun : Run world program state trace (call operation next) final) :
    allowed trace operation := by
  have hcall : allowed (trace ++ []) operation := (h.of_run hrun).1
  rwa [List.append_nil] at hcall

/-- Every exchange of a run was allowed after the exchanges before it. -/
theorem Follows.allowed_of_split {outcome : List P.Idx → Option α → Prop} {world : World P σ}
    {residual : Program P α} {state final : σ} {made before after : List P.Idx}
    {exchange : P.Idx} (h : program.Follows allowed outcome)
    (hrun : Run world program state made residual final)
    (hmade : made = before ++ exchange :: after) : allowed before exchange.1 := by
  induction hrun generalizing allowed outcome before with
  | refl program state => cases before <;> cases hmade
  | step _ _ ih =>
      cases before with
      | nil =>
          cases hmade
          exact h.1
      | cons first before =>
          cases hmade
          have hrest := ih (h.2 _) (Eq.refl (before ++ exchange :: after))
          exact hrest

theorem Follows.mono {outcome outcome' : List P.Idx → Option α → Prop}
    (h : program.Follows allowed outcome)
    (hallowed : ∀ made operation, allowed made operation → allowed' made operation)
    (houtcome : ∀ made value, outcome made value → outcome' made value) :
    program.Follows allowed' outcome' := by
  induction program generalizing allowed allowed' outcome outcome' with
  | done value => exact houtcome _ _ h
  | cut => exact houtcome _ _ h
  | call operation next ih =>
      refine ⟨hallowed _ _ h.1, fun reply => ?_⟩
      exact ih reply (h.2 reply) (fun made => hallowed _) (fun made => houtcome _)

/-- Nothing is asked of any program. -/
theorem follows_true (program : Program P α) :
    program.Follows (fun _ _ => True) fun _ _ => True := by
  induction program with
  | done value => trivial
  | cut => trivial
  | call operation next ih => exact ⟨trivial, ih⟩

theorem Follows.and {outcome outcome' : List P.Idx → Option α → Prop}
    (h : program.Follows allowed outcome) (h' : program.Follows allowed' outcome') :
    program.Follows (fun made operation => allowed made operation ∧ allowed' made operation)
      fun made value => outcome made value ∧ outcome' made value := by
  induction program generalizing allowed allowed' outcome outcome' with
  | done value => exact ⟨h, h'⟩
  | cut => exact ⟨h, h'⟩
  | call operation next ih =>
      exact ⟨⟨h.1, h'.1⟩, fun reply => ih reply (h.2 reply) (h'.2 reply)⟩

theorem Follows.bind {rest : α → Program P β} {middle : List P.Idx → Option α → Prop}
    {outcome : List P.Idx → Option β → Prop} (h : program.Follows allowed middle)
    (hrest : ∀ made value, middle made (some value) → (rest value).Follows
      (fun more => allowed (made ++ more)) (fun more => outcome (made ++ more)))
    (hcut : ∀ made, middle made none → outcome made none) :
    (program >>= rest).Follows allowed outcome := by
  induction program generalizing allowed middle outcome with
  | done value => exact hrest [] value h
  | cut => exact hcut [] h
  | call operation next ih =>
      refine ⟨h.1, fun reply => ?_⟩
      exact ih reply (h.2 reply) (fun made value hvalue => hrest _ value hvalue)
        (fun made hmade => hcut _ hmade)

/-- A status that is no success: an error, or `none` for a cut. -/
abbrev failed (failure : Option ε) : Option (Except ε α) := failure.map Except.error

theorem failed_ne_ok (failure : Option ε) (value : α) :
    (failed failure : Option (Except ε α)) ≠ some (.ok value) := by
  cases failure with
  | none => exact nofun
  | some error => exact nofun

/-- A fallible part of a fallible program. -/
theorem Follows.andThen {program : ExceptT ε (Program P) α} {rest : α → ExceptT ε (Program P) β}
    {middle : List P.Idx → Option (Except ε α) → Prop}
    {outcome : List P.Idx → Option (Except ε β) → Prop} (h : program.run.Follows allowed middle)
    (hok : ∀ made value, middle made (some (.ok value)) → (rest value).run.Follows
      (fun more => allowed (made ++ more)) (fun more => outcome (made ++ more)))
    (hfailed : ∀ made failure, middle made (failed failure) → outcome made (failed failure)) :
    (program >>= rest).run.Follows allowed outcome := by
  rw [ExceptT.run_bind]
  refine h.bind (fun made status hstatus => ?_) fun made hmade => hfailed made none hmade
  cases status with
  | ok value => exact hok made value hstatus
  | error error =>
      show outcome (made ++ []) (failed (some error))
      rw [List.append_nil]
      exact hfailed made (some error) hstatus

/-- What every request satisfies, every exchange made satisfies. -/
theorem Follows.requests {fit : P.A → Prop} {outcome : List P.Idx → Option α → Prop}
    (h : program.Follows (fun _ operation => fit operation) outcome) :
    program.Follows (fun _ operation => fit operation) fun made value =>
      outcome made value ∧ ∀ exchange ∈ made, fit exchange.1 := by
  induction program generalizing outcome with
  | done value => exact ⟨h, fun _ hmem => absurd hmem List.not_mem_nil⟩
  | cut => exact ⟨h, fun _ hmem => absurd hmem List.not_mem_nil⟩
  | call operation next ih =>
      refine ⟨h.1, fun reply => (ih reply (h.2 reply)).mono (fun _ _ hfit => hfit) ?_⟩
      rintro made value ⟨houtcome, hmade⟩
      refine ⟨houtcome, fun exchange hmem => ?_⟩
      rcases List.mem_cons.mp hmem with rfl | hmem
      · exact h.1
      · exact hmade exchange hmem

/-- Whatever the replies, a value the program returns satisfies `post`. -/
def Always (post : α → Prop) : Program P α → Prop
  | done value => post value
  | cut => True
  | call _ next => ∀ reply, (next reply).Always post

theorem Always.bind {rest : α → Program P β} {middle : α → Prop} {post : β → Prop}
    (h : program.Always middle) (hrest : ∀ value, middle value → (rest value).Always post) :
    (program >>= rest).Always post := by
  induction program with
  | done value => exact hrest value h
  | cut => trivial
  | call operation next ih => exact fun reply => ih reply (h reply)

theorem Always.mono {post post' : α → Prop} (h : program.Always post)
    (hpost : ∀ value, post value → post' value) : program.Always post' := by
  induction program with
  | done value => exact hpost value h
  | cut => trivial
  | call operation next ih => exact fun reply => ih reply (h reply)

theorem always_true (program : Program P α) : program.Always fun _ => True := by
  induction program with
  | done value => trivial
  | cut => trivial
  | call operation next ih => exact fun reply => ih reply

/-- The values of a program over another interface are its own. -/
theorem Always.interpret {Q : PFunctor.{0, 0}} {post : α → Prop} (h : program.Always post)
    (implementation : (operation : P.A) → Program Q (P.B operation)) :
    (program.interpret implementation).Always post := by
  induction program with
  | done value => exact h
  | cut => trivial
  | call operation next ih =>
      exact (always_true (implementation operation)).bind fun reply _ => ih reply (h reply)

/-- What every value satisfies, the weakest precondition may ask for. -/
theorem wp_always {world : World P σ} {guard : Guard P σ} {post : α → Prop}
    {outcome : Option α → σ → Prop} {state : σ} (hwp : program.wp world guard outcome state)
    (hpost : program.Always post) :
    program.wp world guard
      (fun result final => outcome result final ∧ ∀ value, result = some value → post value)
      state := by
  induction program generalizing state with
  | done value =>
      refine ⟨hwp, fun result hresult => ?_⟩
      cases hresult
      exact hpost
  | cut => exact ⟨hwp, fun result hresult => by cases hresult⟩
  | call operation next ih =>
      exact ⟨hwp.1, fun reply after hreply => ih reply (hwp.2 reply after hreply) (hpost reply)⟩

theorem Follows.always {outcome : List P.Idx → Option α → Prop} {post : α → Prop}
    (h : program.Follows allowed outcome) (hpost : program.Always post) :
    program.Follows allowed fun made value =>
      outcome made value ∧ ∀ result, value = some result → post result := by
  induction program generalizing allowed outcome with
  | done value =>
      refine ⟨h, fun result hresult => ?_⟩
      cases hresult
      exact hpost
  | cut => exact ⟨h, fun result hresult => by cases hresult⟩
  | call operation next ih => exact ⟨h.1, fun reply => ih reply (h.2 reply) (hpost reply)⟩

/-! ### The exchanges of a finished run -/

/-- The world without a state that admits every reply. -/
def free (P : PFunctor.{0, 0}) : World P Unit := fun _ _ _ _ => True

/-- The program can make these exchanges and then return the value. -/
def Yields (program : Program P α) (made : List P.Idx) (value : α) : Prop :=
  Run (free P) program () made (done value) ()

/-- The outcome of a followed program comes with the run that led to it. -/
theorem Follows.yields {outcome : List P.Idx → Option α → Prop}
    (h : program.Follows allowed outcome) :
    program.Follows allowed fun made value =>
      outcome made value ∧ ∀ result, value = some result → program.Yields made result := by
  induction program generalizing allowed outcome with
  | done value =>
      refine ⟨h, fun result hresult => ?_⟩
      cases hresult
      exact .refl _ _
  | cut => exact ⟨h, fun result hresult => by cases hresult⟩
  | call operation next ih =>
      refine ⟨h.1, fun reply => (ih reply (h.2 reply)).mono (fun _ _ hallowed => hallowed) ?_⟩
      rintro made value ⟨houtcome, hyields⟩
      exact ⟨houtcome, fun result hresult =>
        @Run.step P Unit α (free P) operation next reply () () () made (done result) trivial
          (hyields result hresult)⟩

theorem yields_done_iff {value result : α} {made : List P.Idx} :
    (done value).Yields made result ↔ made = [] ∧ result = value := by
  constructor
  · intro h
    cases h
    exact ⟨rfl, rfl⟩
  · rintro ⟨rfl, rfl⟩
    exact .refl _ _

theorem yields_call_iff {operation : P.A} {next : P.B operation → Program P α} {made : List P.Idx}
    {result : α} : (call operation next).Yields made result ↔
      ∃ reply more, made = ⟨operation, reply⟩ :: more ∧ (next reply).Yields more result := by
  constructor
  · intro h
    cases h with
    | step _ hnext => exact ⟨_, _, rfl, hnext⟩
  · rintro ⟨reply, more, rfl, hnext⟩
    exact @Run.step P Unit α (free P) operation next reply () () () more (done result) trivial hnext

theorem Run.bind {world : World P σ} {rest : α → Program P β} {state middle final : σ}
    {made more : List P.Idx} {value : α} {residual : Program P β}
    (hrun : Run world program state made (done value) middle)
    (hrest : Run world (rest value) middle more residual final) :
    Run world (program >>= rest) state (made ++ more) residual final := by
  generalize hdone : (done value : Program P α) = finished at hrun
  induction hrun with
  | refl program state =>
      subst hdone
      exact hrest
  | step hanswer _ ih => exact .step hanswer (ih hrest hdone)

theorem Yields.bind {rest : α → Program P β} {made more : List P.Idx} {value : α} {result : β}
    (h : program.Yields made value) (hrest : (rest value).Yields more result) :
    (program >>= rest).Yields (made ++ more) result := Run.bind h hrest

theorem yields_bind_iff {rest : α → Program P β} {made : List P.Idx} {result : β} :
    (program >>= rest).Yields made result ↔ ∃ first more value, made = first ++ more ∧
      program.Yields first value ∧ (rest value).Yields more result := by
  constructor
  · intro h
    induction program generalizing made with
    | done value => exact ⟨[], made, value, rfl, .refl _ _, h⟩
    | cut => cases h
    | call operation next ih =>
        obtain ⟨reply, left, rfl, hnext⟩ := yields_call_iff.mp h
        obtain ⟨first, more, value, rfl, hfirst, hmore⟩ := ih reply hnext
        exact ⟨⟨operation, reply⟩ :: first, more, value, rfl,
          yields_call_iff.mpr ⟨reply, first, rfl, hfirst⟩, hmore⟩
  · rintro ⟨first, more, value, rfl, hfirst, hmore⟩
    exact hfirst.bind hmore

theorem yields_own_bind_iff {program : StateT ρ (Program P) α} {rest : α → StateT ρ (Program P) β}
    {own : ρ} {made : List P.Idx} {result : β × ρ} :
    ((program >>= rest).run own).Yields made result ↔ ∃ first more value own',
      made = first ++ more ∧ (program.run own).Yields first (value, own') ∧
        ((rest value).run own').Yields more result := by
  rw [StateT.run_bind, yields_bind_iff]
  constructor
  · rintro ⟨first, more, ⟨value, own'⟩, hmade, hfirst, hmore⟩
    exact ⟨first, more, value, own', hmade, hfirst, hmore⟩
  · rintro ⟨first, more, value, own', hmade, hfirst, hmore⟩
    exact ⟨first, more, (value, own'), hmade, hfirst, hmore⟩

/-- The exchanges determine the value. -/
theorem Yields.unique {made : List P.Idx} {value result : α} (h : program.Yields made value)
    (h' : program.Yields made result) : value = result := by
  induction program generalizing made with
  | done value' =>
      obtain ⟨-, rfl⟩ := yields_done_iff.mp h
      exact (yields_done_iff.mp h').2.symm
  | cut => cases h
  | call operation next ih =>
      obtain ⟨reply, more, rfl, hnext⟩ := yields_call_iff.mp h
      obtain ⟨reply', more', hsame, hnext'⟩ := yields_call_iff.mp h'
      cases hsame
      exact ih reply hnext hnext'

end Program

/-! ### Fallible programs -/

/-- A fallible program whose success means something about its exchanges. -/
def Establishes (program : ExceptT ε (Program P) α) (allowed : List P.Idx → P.A → Prop)
    (good : List P.Idx → α → Prop) : Prop :=
  program.run.Follows allowed fun made status => ∀ value, status = some (.ok value) →
    good made value

namespace Establishes

variable {allowed allowed' : List P.Idx → P.A → Prop} {program : ExceptT ε (Program P) α}

theorem ok {good : List P.Idx → α → Prop} {value : α} (h : good [] value) :
    Establishes (pure value : ExceptT ε (Program P) α) allowed good := by
  intro result hresult
  cases hresult
  exact h

theorem throw {good : List P.Idx → α → Prop} (error : ε) :
    Establishes (throw error : ExceptT ε (Program P) α) allowed good := by
  intro result hresult
  cases hresult

theorem mono {good good' : List P.Idx → α → Prop} (h : Establishes program allowed good)
    (hallowed : ∀ made operation, allowed made operation → allowed' made operation)
    (hgood : ∀ made value, good made value → good' made value) :
    Establishes program allowed' good' :=
  Program.Follows.mono h hallowed fun _ _ hvalue value hstatus => hgood _ _ (hvalue value hstatus)

theorem andThen {rest : α → ExceptT ε (Program P) β} {middle : List P.Idx → α → Prop}
    {good : List P.Idx → β → Prop} (h : Establishes program allowed middle)
    (hrest : ∀ made value, middle made value → Establishes (rest value)
      (fun more => allowed (made ++ more)) (fun more => good (made ++ more))) :
    Establishes (program >>= rest) allowed good := by
  unfold Establishes
  rw [ExceptT.run_bind]
  refine Program.Follows.bind h (fun made status hstatus => ?_) fun made _ value hvalue => ?_
  · cases status with
    | ok value => exact hrest made value (hstatus value rfl)
    | error error =>
        intro value hvalue
        cases hvalue
  · cases hvalue

/-- What follows a guard that fails is not run. -/
theorem throwThen {good : List P.Idx → β → Prop} (error : ε) (rest : α → ExceptT ε (Program P) β) :
    Establishes ((MonadExcept.throw error : ExceptT ε (Program P) α) >>= rest) allowed good := by
  intro result hresult
  cases hresult

/-- What success means holds of the exchanges of every run that succeeds. -/
theorem of_yields {good : List P.Idx → α → Prop} (h : Establishes program allowed good)
    {made : List P.Idx} {value : α} (hyields : program.run.Yields made (.ok value)) :
    good made value := by
  have hgood := Program.Follows.of_run h hyields value rfl
  rwa [List.append_nil] at hgood

end Establishes

/-! ### Fallible programs with a state of their own -/

/-- The same of a program with a state, whatever the state is. -/
def EstablishesState (program : ExceptT ε (StateT ρ (Program P)) α)
    (allowed : List P.Idx → P.A → Prop) (good : List P.Idx → α → Prop) : Prop :=
  ∀ own, (program.run.run own).Follows allowed fun made result =>
    ∀ value own', result = some (.ok value, own') → good made value

namespace EstablishesState

variable {allowed allowed' : List P.Idx → P.A → Prop} {program : ExceptT ε (StateT ρ (Program P)) α}

theorem ok {good : List P.Idx → α → Prop} {value : α} (h : good [] value) :
    EstablishesState (pure value : ExceptT ε (StateT ρ (Program P)) α) allowed good := by
  intro own result own' hresult
  cases hresult
  exact h

theorem update {good : List P.Idx → PUnit → Prop} (f : ρ → ρ) (h : good [] PUnit.unit) :
    EstablishesState (modify f : ExceptT ε (StateT ρ (Program P)) PUnit) allowed good := by
  intro own result own' hresult
  cases hresult
  exact h

theorem lift {good : List P.Idx → α → Prop} {program : ExceptT ε (Program P) α}
    (h : Establishes program allowed good) :
    EstablishesState (ExceptT.mk (StateT.lift program.run) : ExceptT ε (StateT ρ (Program P)) α)
      allowed good := by
  intro own
  rw [ExceptT.run_mk, StateT.run_lift]
  refine Program.Follows.bind h (fun made status hstatus => ?_) fun made _ value own' hvalue => ?_
  · intro value own' hvalue
    cases hvalue
    rw [List.append_nil]
    exact hstatus value rfl
  · cases hvalue

theorem mono {good good' : List P.Idx → α → Prop} (h : EstablishesState program allowed good)
    (hallowed : ∀ made operation, allowed made operation → allowed' made operation)
    (hgood : ∀ made value, good made value → good' made value) :
    EstablishesState program allowed' good' :=
  fun own => (h own).mono hallowed
    fun _ _ hvalue value own' hresult => hgood _ _ (hvalue value own' hresult)

theorem throw {good : List P.Idx → α → Prop} (error : ε) :
    EstablishesState (throw error : ExceptT ε (StateT ρ (Program P)) α) allowed good := by
  intro own value own' hresult
  cases hresult

/-- Reading the state makes no exchange. -/
theorem read {rest : ρ → ExceptT ε (StateT ρ (Program P)) α} {good : List P.Idx → α → Prop}
    (h : ∀ own, EstablishesState (rest own) allowed good) :
    EstablishesState (get >>= rest) allowed good := fun own => h own own

theorem andThen {rest : α → ExceptT ε (StateT ρ (Program P)) β} {middle : List P.Idx → α → Prop}
    {good : List P.Idx → β → Prop} (h : EstablishesState program allowed middle)
    (hrest : ∀ made value, middle made value → EstablishesState (rest value)
      (fun more => allowed (made ++ more)) (fun more => good (made ++ more))) :
    EstablishesState (program >>= rest) allowed good := by
  intro own
  rw [ExceptT.run_bind, StateT.run_bind]
  refine Program.Follows.bind (h own) (fun made result hresult => ?_)
    fun made _ value own' hvalue => ?_
  · obtain ⟨status, own'⟩ := result
    cases status with
    | ok value => exact hrest made value (hresult value own' rfl) own'
    | error error =>
        intro value own'' hvalue
        cases hvalue
  · cases hvalue

/-- What success means holds of the exchanges of every run that succeeds. -/
theorem of_yields {good : List P.Idx → α → Prop} (h : EstablishesState program allowed good)
    {own own' : ρ} {made : List P.Idx} {value : α}
    (hyields : (program.run.run own).Yields made (.ok value, own')) : good made value := by
  have hgood := (h own).of_run hyields value own' rfl
  rwa [List.append_nil] at hgood

end EstablishesState

end Interaction
