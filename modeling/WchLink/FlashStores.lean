import WchLink.AccessLog
import WchLink.FlashRequest

/-! # Where the flasher stores

The stores a write makes and the pages it visits, whatever the target answers
and wherever the sequence breaks off.
-/

namespace WchLink

open Bytes Interaction

/-! ## Stores and page visits -/

/-- The program begins with a store. -/
def Access.IsStore (access : Access) : Prop := access.program.getD 0 0 &&& 0x7f = 0x23

instance (access : Access) : Decidable access.IsStore :=
  inferInstanceAs (Decidable (_ = _))

theorem isStore_writeProgram (size : Width) (address value : Word) :
    Access.IsStore ⟨writeProgram size, address, value⟩ := by
  show (writeProgram size).getD 0 0 &&& 0x7f = 0x23
  cases size <;> rfl

theorem not_isStore_readProgram (size : Width) (address value : Word) :
    ¬Access.IsStore ⟨readProgram size, address, value⟩ := by
  show ¬(readProgram size).getD 0 0 &&& 0x7f = 0x23
  cases size <;> decide

/-- The store that selects a page. -/
def Access.SelectsPage (access : Access) : Prop := access.IsStore ∧ access.address = flashAddr

instance (access : Access) : Decidable access.SelectsPage :=
  inferInstanceAs (Decidable (_ ∧ _))

/-- The pages selected, each with the value the access before it carried. -/
def visits (previous : Word) : List Access → List (Word × Word)
  | [] => []
  | access :: rest =>
      (if access.SelectsPage then [(previous, access.value)] else []) ++ visits access.value rest

/-- The first access selects no page. -/
def Inner (log : List Access) : Prop := ∀ access rest, log = access :: rest → ¬access.SelectsPage

theorem visits_inner {log : List Access} (hlog : Inner log) (first second : Word) :
    visits first log = visits second log := by
  cases log with
  | nil => rfl
  | cons access rest =>
      have hfirst := hlog access rest rfl
      rw [visits, visits, if_neg hfirst, if_neg hfirst]

theorem visits_append (previous : Word) (log : List Access) {log' : List Access}
    (hlog : Inner log') : visits previous (log ++ log') = visits previous log ++ visits 0 log' := by
  induction log generalizing previous with
  | nil => exact visits_inner hlog previous 0
  | cons access rest ih => rw [List.cons_append, visits, visits, ih, List.append_assoc]

/-- A selection right after an access that carried `access.value`. -/
theorem visits_snoc (previous : Word) (log : List Access) (access selecting : Access)
    (hselects : selecting.SelectsPage) :
    visits previous (log ++ [access] ++ [selecting]) =
      visits previous (log ++ [access]) ++ [(access.value, selecting.value)] := by
  induction log generalizing previous with
  | nil =>
      show visits previous [access, selecting] = visits previous [access] ++ _
      rw [visits, visits, visits, visits, visits, if_pos hselects, List.append_nil,
        List.append_nil]
  | cons first rest ih =>
      rw [List.cons_append, List.cons_append, visits, visits, ih, List.append_assoc]

/-- Visits in the order expected: each is of the expected page and finds the
expected mode bit set; the last ones may be missing. -/
def Matches : List (Word × Word) → List (Word × Word) → Prop
  | [], _ => True
  | _ :: _, [] => False
  | visit :: visits, expected :: rest =>
      visit.1 &&& expected.1 ≠ 0 ∧ visit.2 = expected.2 ∧ Matches visits rest

theorem Matches.weaken {made expected : List (Word × Word)} (h : Matches made expected)
    (more : List (Word × Word)) : Matches made (expected ++ more) := by
  induction made generalizing expected with
  | nil => trivial
  | cons visit made ih =>
      cases expected with
      | nil => exact absurd h not_false
      | cons first expected => exact ⟨h.1, h.2.1, ih h.2.2⟩

theorem Matches.append {made made' expected expected' : List (Word × Word)}
    (h : Matches made expected) (hall : made.length = expected.length)
    (h' : Matches made' expected') : Matches (made ++ made') (expected ++ expected') := by
  induction made generalizing expected with
  | nil =>
      cases expected with
      | nil => exact h'
      | cons first expected => cases hall
  | cons visit made ih =>
      cases expected with
      | nil => exact absurd h not_false
      | cons first expected => exact ⟨h.1, h.2.1, ih h.2.2 (Nat.succ.inj hall)⟩

theorem Matches.none {made : List (Word × Word)} (h : Matches made []) : made = [] := by
  cases made with
  | nil => rfl
  | cons visit made => exact absurd h not_false

/-- Every store has its place and the pages come in the order of `expected`. -/
structure Fits (site : Access → Prop) (expected : List (Word × Word)) (log : List Access) :
    Prop where
  sites : ∀ access ∈ log, access.IsStore → site access
  inner : Inner log
  order : Matches (visits 0 log) expected

section Fits

variable {site : Access → Prop} {expected expected' : List (Word × Word)} {log log' : List Access}

theorem Fits.nil : Fits site expected [] :=
  ⟨fun _ hmem => absurd hmem List.not_mem_nil, fun _ _ h => (nomatch h), trivial⟩

theorem Fits.weaken (h : Fits site expected log) : Fits site (expected ++ expected') log :=
  ⟨h.sites, h.inner, h.order.weaken _⟩

theorem Inner.append (h : Inner log) (h' : Inner log') : Inner (log ++ log') := by
  cases log with
  | nil => exact h'
  | cons access rest =>
      intro first others hfirst
      cases hfirst
      exact h access rest rfl

theorem sites_append (h : ∀ access ∈ log, access.IsStore → site access)
    (h' : ∀ access ∈ log', access.IsStore → site access) :
    ∀ access ∈ log ++ log', access.IsStore → site access := by
  intro access hmem hstore
  rcases List.mem_append.mp hmem with hmem | hmem
  · exact h access hmem hstore
  · exact h' access hmem hstore

theorem Fits.append (h : Fits site expected log)
    (hall : (visits 0 log).length = expected.length) (h' : Fits site expected' log') :
    Fits site (expected ++ expected') (log ++ log') := by
  refine ⟨sites_append h.sites h'.sites, h.inner.append h'.inner, ?_⟩
  rw [visits_append 0 log h'.inner]
  exact h.order.append hall h'.order

/-- Accesses that select no page may follow wherever the visits stopped. -/
theorem Fits.extend (h : Fits site expected log) (h' : Fits site [] log') :
    Fits site expected (log ++ log') := by
  refine ⟨sites_append h.sites h'.sites, h.inner.append h'.inner, ?_⟩
  rw [visits_append 0 log h'.inner, h'.order.none, List.append_nil]
  exact h.order

theorem visits_none (previous : Word) (hlog : ∀ access ∈ log, ¬access.SelectsPage) :
    visits previous log = [] := by
  induction log generalizing previous with
  | nil => rfl
  | cons access rest ih =>
      rw [visits, if_neg (hlog access List.mem_cons_self),
        ih _ fun other hmem => hlog other (List.mem_cons_of_mem _ hmem)]
      rfl

theorem Fits.of_none (hsites : ∀ access ∈ log, access.IsStore → site access)
    (hlog : ∀ access ∈ log, ¬access.SelectsPage) : Fits site [] log := by
  refine ⟨hsites, fun access rest h => hlog access (h ▸ List.mem_cons_self), ?_⟩
  rw [visits_none 0 hlog]
  trivial

theorem Fits.loads (hloads : ∀ access ∈ log, ¬access.IsStore) : Fits site [] log :=
  .of_none (fun access hmem hstore => absurd hstore (hloads access hmem))
    fun access hmem hselects => hloads access hmem hselects.1

end Fits

/-- The operation's stores are at `site` and visit the expected pages, all of
them if it succeeds. -/
def Visits {α : Type} (site : Access → Prop) (expected : List (Word × Word))
    (operation : Fallible α) : Prop :=
  Accesses operation.run (fun log access => Fits site expected (log ++ [access]))
    fun log status => Fits site expected log ∧
      ∀ value, status = some (.ok value) → (visits 0 log).length = expected.length

namespace Visits

variable {α β : Type} {site : Access → Prop} {expected expected' : List (Word × Word)}
  {operation : Fallible α}

theorem ok (value : α) : Visits site [] (pure value : Fallible α) :=
  Accesses.done ⟨Fits.nil, fun _ _ => rfl⟩

theorem throw (error : WlErr) : Visits site expected (throw error : Fallible α) :=
  Accesses.done ⟨Fits.nil, fun _ hvalue => by cases hvalue⟩

theorem throwThen (error : WlErr) (rest : α → Fallible β) :
    Visits site expected ((MonadExcept.throw error : Fallible α) >>= rest) :=
  Accesses.done ⟨Fits.nil, fun _ hvalue => by cases hvalue⟩

/-- In sequence, with what is known of the first part's value. -/
theorem andThenWith {post : α → Prop} {rest : α → Fallible β} (h : Visits site expected operation)
    (hpost : operation.run.Always fun status => ∀ value, status = .ok value → post value)
    (hrest : ∀ value, post value → Visits site expected' (rest value)) :
    Visits site (expected ++ expected') (operation >>= rest) := by
  have hfirst : Accesses operation.run
      (fun log access => Fits site (expected ++ expected') (log ++ [access])) _ :=
    (h.always hpost).mono (fun _ _ hfits => hfits.weaken) fun _ _ hlog => hlog
  unfold Visits
  rw [ExceptT.run_bind]
  refine hfirst.bind (fun log status hlog => ?_) fun log hlog => ?_
  · obtain ⟨hlog, hknown⟩ := hlog
    cases status with
    | ok value =>
        have hall := hlog.2 value rfl
        refine (hrest value (hknown _ rfl value rfl)).mono (fun more access hfits => ?_)
          fun more status hmore => ?_
        · rw [List.append_assoc]
          exact hlog.1.append hall hfits
        · refine ⟨hlog.1.append hall hmore.1, fun value hvalue => ?_⟩
          rw [visits_append 0 log hmore.1.inner, List.length_append, List.length_append, hall,
            hmore.2 value hvalue]
    | error error =>
        refine Accesses.done ⟨?_, fun value hvalue => by cases hvalue⟩
        rw [List.append_nil]
        exact hlog.1.weaken
  · exact ⟨hlog.1.1.weaken, fun value hvalue => by cases hvalue⟩

theorem andThen {rest : α → Fallible β} (h : Visits site expected operation)
    (hrest : ∀ value, Visits site expected' (rest value)) :
    Visits site (expected ++ expected') (operation >>= rest) :=
  h.andThenWith ((Program.always_true _).mono fun _ _ _ _ => trivial) fun value _ => hrest value

/-- A part that visits nothing, before one that may. -/
theorem thenVisits {rest : α → Fallible β} (h : Visits site [] operation)
    (hrest : ∀ value, Visits site expected (rest value)) :
    Visits site expected (operation >>= rest) :=
  h.andThen hrest

/-- What is done whatever the body's status visits nothing. -/
theorem cleanup {body : Fallible α} {clean : Fallible Unit} (hbody : Visits site expected body)
    (hclean : Visits site [] clean) : Visits site expected (cleaning body clean) := by
  unfold Visits cleaning
  refine Accesses.bind hbody (fun log status hlog => ?_) fun log hlog =>
    ⟨hlog.1, fun value hvalue => by cases hvalue⟩
  refine Accesses.bind (hclean.mono (fun _ _ hfits => ?_) fun _ _ h => h)
    (fun log' _ hlog' => ?_) fun log' hlog' => ?_
  · rw [List.append_assoc]
    exact hlog.1.extend hfits
  · refine Accesses.done ?_
    rw [List.append_nil]
    refine ⟨hlog.1.extend hlog'.1, fun value hvalue => ?_⟩
    rw [visits_append 0 log hlog'.1.inner, hlog'.1.order.none, List.append_nil]
    exact hlog.2 value hvalue
  · exact ⟨hlog.1.extend hlog'.1, fun value hvalue => by cases hvalue⟩

end Visits

/-- One store, made or not. -/
theorem wlDmWrite32_makes {link : Link} {address value : Word}
    {allowed : List Access → Access → Prop}
    (haccess : allowed [] ⟨writeProgram .word, address, value⟩) :
    Accesses (wlDmWrite32 link address value).run allowed fun log status =>
      (log = [] ∧ ∀ result, status ≠ some (.ok result)) ∨
        log = [⟨writeProgram .word, address, value⟩] := by
  unfold wlDmWrite32 wlDmRunWrite
  rw [ExceptT.run_bind]
  refine Accesses.bind (dmRun_makes false haccess) (fun log status hlog => ?_) fun log hlog => ?_
  · cases status with
    | ok word =>
        rcases hlog with ⟨-, hfailed⟩ | rfl
        · exact absurd rfl (hfailed word)
        · exact Accesses.done (.inr rfl)
    | error error =>
        refine Accesses.done ?_
        rcases hlog with ⟨rfl, -⟩ | rfl
        · exact .inl ⟨rfl, fun result hresult => by cases hresult⟩
        · exact .inr rfl
  · exact hlog.imp_left fun h => ⟨h.1, fun result hresult => by cases hresult⟩

/-- The programs that only load. -/
def loadsOnly : ProgramClass Usb where
  Mem := fun program => Accesses program
    (fun log access => ∀ other ∈ log ++ [access], ¬other.IsStore)
    fun log _ => ∀ access ∈ log, ¬access.IsStore
  done := fun value => Accesses.done fun access hmem => absurd hmem List.not_mem_nil
  bind := by
    intro α β program rest h hrest
    refine Accesses.bind h (fun log value hlog => ?_) fun log hlog => hlog
    refine (hrest value).mono (fun more access hmore other hmem => ?_)
      fun more value hmore access hmem => ?_
    · rw [List.append_assoc] at hmem
      rcases List.mem_append.mp hmem with hmem | hmem
      · exact hlog other hmem
      · exact hmore other hmem
    · rcases List.mem_append.mp hmem with hmem | hmem
      · exact hlog access hmem
      · exact hmore access hmem

theorem loadsOnly_hasLoads (link : Link) : HasLoads loadsOnly link where
  read size address := by
    have hload : ¬Access.IsStore ⟨readProgram size, address, 0⟩ :=
      not_isStore_readProgram size address 0
    refine (dmRun_makes true ?_).mono (fun _ _ h => h) fun log status hlog access hmem => ?_
    · intro other hmem
      rw [List.mem_singleton.mp hmem]
      exact hload
    · rcases hlog with ⟨rfl, -⟩ | rfl
      · exact absurd hmem List.not_mem_nil
      · rw [List.mem_singleton.mp hmem]
        exact hload

theorem Visits.loads {α : Type} {site : Access → Prop} {operation : Fallible α}
    (h : loadsOnly.Mem operation.run) : Visits site [] operation := by
  refine Accesses.mono h (fun _ _ hloads => Fits.loads hloads) fun log _ hloads => ?_
  have hfits : Fits site [] log := Fits.loads hloads
  exact ⟨hfits, fun _ _ => congrArg List.length hfits.order.none⟩

/-! ## The flasher's steps -/

/-- The controller's registers the flasher stores to, and the words of the
pages it visits. -/
def FlasherSite (pages : List Word) (access : Access) : Prop :=
  access.address = flashKeyr ∨ access.address = flashModekeyr ∨ access.address = flashCtlr ∨
    (access.address = flashAddr ∧ access.value ∈ pages) ∨
      ∃ page ∈ pages, ∃ slot < 16, access.address = page + BitVec.ofNat 32 (4 * slot)

section Steps

variable {link : Link} {pages : List Word}

theorem fits_elsewhere {address : Word} {value : Word}
    (hsite : FlasherSite pages ⟨writeProgram .word, address, value⟩) (haddress : address ≠ flashAddr) :
    Fits (FlasherSite pages) [] [⟨writeProgram .word, address, value⟩] := by
  refine .of_none (fun access hmem _ => ?_) fun access hmem hselects => ?_
  · rw [List.mem_singleton.mp hmem]
    exact hsite
  · rw [List.mem_singleton.mp hmem] at hselects
    exact haddress hselects.2

theorem visits_elsewhere {address : Word} {value : Word}
    (hsite : FlasherSite pages ⟨writeProgram .word, address, value⟩) (haddress : address ≠ flashAddr) :
    Visits (FlasherSite pages) [] (wlDmWrite32 link address value) := by
  have hfits := fits_elsewhere hsite haddress
  refine (wlDmWrite32_makes hfits).mono (fun _ _ h => h) fun log status hlog => ?_
  rcases hlog with ⟨rfl, hfailed⟩ | rfl
  · exact ⟨Fits.nil, fun value hvalue => absurd hvalue (hfailed value)⟩
  · exact ⟨hfits, fun _ _ => congrArg List.length hfits.order.none⟩

/-- Setting bits of the control register, if it succeeds, ends with a store that
has them set. -/
theorem ctlrUpdate_sets (set : Word) :
    Accesses (ctlrUpdate link set 0).run
      (fun log access => Fits (FlasherSite pages) [] (log ++ [access])) fun log status =>
        Fits (FlasherSite pages) [] log ∧ ∀ value, status = some (.ok value) →
          ∃ before last, log = before ++ [last] ∧ last.value &&& set = set := by
  have hload : Visits (FlasherSite pages) [] (wlDmRead32 link flashCtlr) :=
    Visits.loads (wlDmRead32_mem (loadsOnly_hasLoads link) flashCtlr)
  unfold ctlrUpdate
  rw [ExceptT.run_bind]
  refine Accesses.bind hload (fun log status hlog => ?_) fun log hlog =>
    ⟨hlog.1, fun value hvalue => by cases hvalue⟩
  cases status with
  | error error =>
      refine Accesses.done ⟨?_, fun value hvalue => by cases hvalue⟩
      rw [List.append_nil]
      exact hlog.1
  | ok ctlr =>
      have hfits : Fits (FlasherSite pages) []
          [⟨writeProgram .word, flashCtlr, (ctlr ||| set) &&& ~~~0⟩] :=
        fits_elsewhere (.inr (.inr (.inl rfl))) (by decide)
      have hstore : Accesses (wlDmWrite32 link flashCtlr ((ctlr ||| set) &&& ~~~0)).run
          (fun more access => Fits (FlasherSite pages) [] (log ++ (more ++ [access]))) _ :=
        wlDmWrite32_makes (hlog.1.extend hfits)
      refine hstore.mono (fun more access h => ?_) fun more status hmore => ?_
      · rw [List.append_assoc]
        exact h
      · rcases hmore with ⟨rfl, hfailed⟩ | rfl
        · rw [List.append_nil]
          exact ⟨hlog.1, fun value hvalue => absurd hvalue (hfailed value)⟩
        · refine ⟨hlog.1.extend hfits, fun value hvalue => ⟨log, _, rfl, ?_⟩⟩
          show ((ctlr ||| set) &&& ~~~0) &&& set = set
          ext i hi
          simp only [BitVec.getElem_and, BitVec.getElem_or, BitVec.getElem_not]
          cases set[i] <;> simp

theorem ctlrUpdate_visits (set clear : Word) :
    Visits (FlasherSite pages) [] (ctlrUpdate link set clear) :=
  (Visits.loads (wlDmRead32_mem (loadsOnly_hasLoads link) flashCtlr)).thenVisits fun ctlr =>
    visits_elsewhere (.inr (.inr (.inl rfl))) (by decide)

theorem waitReady_visits : Visits (FlasherSite pages) [] (waitReady link) :=
  Visits.loads (waitReady_mem (loadsOnly_hasLoads link))

/-- A mode bit is set and a page selected, with what follows. -/
theorem selectPage_visits {α : Type} {page flag : Word} (hpage : page ∈ pages) (hflag : flag ≠ 0)
    {rest : Unit → Fallible α} (hrest : ∀ value, Visits (FlasherSite pages) [] (rest value)) :
    Visits (FlasherSite pages) [(flag, page)] (do
      ctlrUpdate link flag 0
      wlDmWrite32 link flashAddr page >>= rest) := by
  have hselects : Access.SelectsPage ⟨writeProgram .word, flashAddr, page⟩ :=
    ⟨isStore_writeProgram .word flashAddr page, rfl⟩
  unfold Visits
  rw [ExceptT.run_bind]
  refine Accesses.bind ((ctlrUpdate_sets flag).mono (fun _ _ h => h.weaken) fun _ _ h => h)
    (fun log status hlog => ?_) fun log hlog => ⟨hlog.1.weaken, fun value hvalue => by cases hvalue⟩
  cases status with
  | error error =>
      refine Accesses.done ⟨?_, fun value hvalue => by cases hvalue⟩
      rw [List.append_nil]
      exact hlog.1.weaken
  | ok value =>
      obtain ⟨before, last, rfl, hlast⟩ := hlog.2 value rfl
      have hvisit : visits 0 (before ++ [last] ++ [⟨writeProgram .word, flashAddr, page⟩]) =
          [(last.value, page)] := by
        rw [visits_snoc 0 before last _ hselects, hlog.1.order.none]
        rfl
      have hfits : Fits (FlasherSite pages) [(flag, page)]
          (before ++ [last] ++ [⟨writeProgram .word, flashAddr, page⟩]) := by
        refine ⟨sites_append hlog.1.sites fun access hmem _ => ?_, fun access rest hfirst => ?_, ?_⟩
        · rw [List.mem_singleton.mp hmem]
          exact .inr (.inr (.inr (.inl ⟨rfl, hpage⟩)))
        · cases before with
          | nil =>
              cases hfirst
              exact hlog.1.inner last [] rfl
          | cons first others =>
              cases hfirst
              exact hlog.1.inner _ _ rfl
        · rw [hvisit]
          exact ⟨by rwa [hlast], rfl, trivial⟩
      have hstore : Accesses (wlDmWrite32 link flashAddr page).run
          (fun more access => Fits (FlasherSite pages) [(flag, page)]
            (before ++ [last] ++ (more ++ [access]))) _ :=
        wlDmWrite32_makes hfits
      show Accesses (wlDmWrite32 link flashAddr page >>= rest).run _ _
      rw [ExceptT.run_bind]
      refine Accesses.bind (hstore.mono (fun more access h => by rwa [List.append_assoc])
        fun _ _ h => h) (fun more status hmore => ?_) fun more hmore => ?_
      · cases status with
        | error error =>
            refine Accesses.done ⟨?_, fun value hvalue => by cases hvalue⟩
            rcases hmore with ⟨rfl, -⟩ | rfl
            · rw [List.append_nil, List.append_nil]
              exact hlog.1.weaken
            · rw [List.append_nil]
              exact hfits
        | ok value =>
            rcases hmore with ⟨-, hfailed⟩ | rfl
            · exact absurd rfl (hfailed value)
            · refine (hrest value).mono (fun final access h => ?_) fun final status hfinal => ?_
              · have hall := hfits.extend h
                simpa only [List.append_assoc] using hall
              · rw [← List.append_assoc (before ++ [last])]
                refine ⟨hfits.extend hfinal.1, fun value hvalue => ?_⟩
                rw [visits_append 0 _ hfinal.1.inner, hfinal.1.order.none, List.append_nil, hvisit]
                rfl
      · refine ⟨?_, fun value hvalue => by cases hvalue⟩
        rcases hmore with ⟨rfl, -⟩ | rfl
        · rw [List.append_nil]
          exact hlog.1.weaken
        · exact hfits

theorem unlock_visits : Visits (FlasherSite pages) [] (unlock link) := by
  unfold unlock
  refine (visits_elsewhere (.inl rfl) (by decide)).thenVisits fun _ => ?_
  refine (visits_elsewhere (.inl rfl) (by decide)).thenVisits fun _ => ?_
  refine (visits_elsewhere (.inr (.inl rfl)) (by decide)).thenVisits fun _ => ?_
  refine (visits_elsewhere (.inr (.inl rfl)) (by decide)).thenVisits fun _ => ?_
  refine (Visits.loads (wlDmRead32_mem (loadsOnly_hasLoads link) flashCtlr)).thenVisits
    fun ctlr => ?_
  split
  · exact Visits.throw _
  · exact Visits.ok _

theorem erasePageFast_visits {page : Word} (hpage : page ∈ pages) :
    Visits (FlasherSite pages) [(flashCtlrPageEr, page)] (erasePageFast link page) :=
  Visits.cleanup
    (waitReady_visits.thenVisits fun _ => selectPage_visits hpage (by decide) fun _ =>
      (ctlrUpdate_visits _ _).thenVisits fun _ => waitReady_visits)
    (ctlrUpdate_visits _ _)

theorem bufferReset_visits : Visits (FlasherSite pages) [] (bufferReset link) :=
  Visits.cleanup
    ((ctlrUpdate_visits _ _).thenVisits fun _ => (ctlrUpdate_visits _ _).thenVisits fun _ =>
      waitReady_visits)
    (ctlrUpdate_visits _ _)

theorem bufferLoad_visits {address word : Word}
    (hsite : FlasherSite pages ⟨writeProgram .word, address, word⟩) (haddress : address ≠ flashAddr) :
    Visits (FlasherSite pages) [] (bufferLoad link address word) :=
  Visits.cleanup
    ((ctlrUpdate_visits _ _).thenVisits fun _ => (visits_elsewhere hsite haddress).thenVisits
      fun _ => (ctlrUpdate_visits _ _).thenVisits fun _ => waitReady_visits)
    (ctlrUpdate_visits _ _)

theorem programPageFast_visits {page : Word} (hpage : page ∈ pages) :
    Visits (FlasherSite pages) [(flashCtlrPagePg, page)] (programPageFast link page) :=
  Visits.cleanup
    (selectPage_visits hpage (by decide) fun _ =>
      (ctlrUpdate_visits _ _).thenVisits fun _ => waitReady_visits)
    (ctlrUpdate_visits _ _)

/-- Loading words into the page buffer stores to the page's own words. -/
theorem loadPage_visits {page : Nat} (hpage : flashAt page ∈ pages) (hsmall : page + 64 ≤ 2 ^ 24)
    (bytes : List Byte) {slot : Nat} (hbytes : 4 * slot + bytes.length ≤ 64) :
    Visits (FlasherSite pages) [] (loadPage link (flashAt (page + 4 * slot)) bytes) := by
  generalize haddress : flashAt (page + 4 * slot) = address
  induction address, bytes using loadPage.induct generalizing slot with
  | case1 address b0 b1 b2 b3 rest ih =>
      subst haddress
      simp only [List.length_cons] at hbytes
      rw [loadPage]
      have hsite (word : Word) : FlasherSite pages
          ⟨writeProgram .word, flashAt (page + 4 * slot), word⟩ :=
        .inr (.inr (.inr (.inr ⟨_, hpage, slot, by omega, (flashAt_add page (4 * slot)).symm⟩)))
      have hother : flashAt (page + 4 * slot) ≠ flashAddr := by
        intro heq
        have hvalue := congrArg BitVec.toNat heq
        rw [flashAt_toNat (by omega), show flashAddr.toNat = 0x40022014 from rfl] at hvalue
        omega
      refine (bufferLoad_visits (hsite _) hother).thenVisits fun _ => ?_
      exact @ih (slot + 1) (by omega) (flashAt_add (page + 4 * slot) 4).symm
  | case2 bytes address hshort =>
      unfold loadPage
      split
      · exact absurd rfl (hshort _ _ _ _ _)
      · exact Visits.ok ()

end Steps

/-! ## The old page -/

section OldPage

variable {link : Link}

/-- A load of a block read and the rest of the loop, by what the rest returns. -/
theorem appendRead_always {α : Type} {read : Fallible Word} (bytes : Word → List Byte)
    {rest : Filling α} {own : List Byte} {post : Except WlErr α × List Byte → Prop}
    (herror : ∀ error, post (.error error, own))
    (hrest : ∀ word, (rest.run.run (own ++ bytes word)).Always post) :
    ((do
      let word ← read
      modify (· ++ bytes word)
      rest : Filling α).run.run own).Always post := by
  have hread : (read.run >>= fun status => pure (status, own)).Always fun result =>
      result.2 = own :=
    (Program.always_true read.run).bind fun status _ => rfl
  rw [ExceptT.run_bind, StateT.run_bind]
  refine hread.bind fun result hown => ?_
  obtain ⟨status, own'⟩ := result
  subst hown
  cases status with
  | ok word => exact hrest word
  | error error => exact herror error

theorem readBlockHead_length (address : Word) (length : Nat) (own : List Byte) :
    ((readBlockHead link address length).run.run own).Always fun result =>
      ∀ left, result.1 = .ok left → result.2.length + left.2 = own.length + length := by
  induction length generalizing address own with
  | zero =>
      intro left hleft
      cases hleft
      rfl
  | succ length ih =>
      rw [readBlockHead]
      split
      · refine appendRead_always (fun word => [byteOf word 0])
          (fun error left hleft => by cases hleft)
          fun word => (ih _ _).mono fun result hresult left hleft => ?_
        have hlength := hresult left hleft
        rw [List.length_append, List.length_singleton] at hlength
        omega
      · intro left hleft
        cases hleft
        rfl

theorem readBlockWords_length (address : Word) (length : Nat) (own : List Byte) :
    ((readBlockWords link address length).run.run own).Always fun result =>
      ∀ left, result.1 = .ok left → result.2.length + left.2 = own.length + length := by
  induction address, length using readBlockWords.induct generalizing own with
  | case1 address length ih =>
      rw [readBlockWords]
      refine appendRead_always
        (fun word => [byteOf word 0, byteOf word 1, byteOf word 2, byteOf word 3])
        (fun error left hleft => by cases hleft)
        fun word => (ih _).mono fun result hresult left hleft => ?_
      have hlength := hresult left hleft
      rw [List.length_append] at hlength
      simp only [List.length_cons, List.length_nil] at hlength
      omega
  | case2 address length hshort =>
      unfold readBlockWords
      split
      · exact absurd rfl (hshort _)
      · intro left hleft
        cases hleft
        rfl

theorem readBlockTail_length (address : Word) (length : Nat) (own : List Byte) :
    ((readBlockTail link address length).run.run own).Always fun result =>
      ∀ value, result.1 = .ok value → result.2.length = own.length + length := by
  induction length generalizing address own with
  | zero =>
      intro value hvalue
      cases hvalue
      rfl
  | succ length ih =>
      rw [readBlockTail]
      refine appendRead_always (fun word => [byteOf word 0])
        (fun error value hvalue => by cases hvalue)
        fun word => (ih _ _).mono fun result hresult value hvalue => ?_
      have hlength := hresult value hvalue
      rw [List.length_append, List.length_singleton] at hlength
      omega

/-- A block read that succeeds has read its whole length. -/
theorem filled_length (address : Word) (length : Nat) :
    (filled (wlDmReadBlock link address length)).run.Always fun status =>
      ∀ bytes, status = .ok bytes → bytes.length = length := by
  have hblock : ((wlDmReadBlock link address length).run.run []).Always fun result =>
      ∀ value, result.1 = .ok value → result.2.length = length := by
    unfold wlDmReadBlock
    rw [ExceptT.run_bind, StateT.run_bind]
    refine (readBlockHead_length address length []).bind fun first hfirst => ?_
    obtain ⟨status, own⟩ := first
    cases status with
    | error error => exact fun value hvalue => by cases hvalue
    | ok left =>
        have hleft := hfirst left rfl
        dsimp only
        rw [ExceptT.run_bind, StateT.run_bind]
        refine (readBlockWords_length left.1 left.2 own).bind fun second hsecond => ?_
        obtain ⟨status, own'⟩ := second
        cases status with
        | error error => exact fun value hvalue => by cases hvalue
        | ok left' =>
            have hleft' := hsecond left' rfl
            refine (readBlockTail_length left'.1 left'.2 own').mono fun result hresult value hvalue => ?_
            have hlength := hresult value hvalue
            simp only [List.length_nil] at hleft
            simp only at hleft'
            omega
  refine hblock.bind fun result hresult => ?_
  obtain ⟨status, bytes⟩ := result
  cases status with
  | error error => exact fun value hvalue => by cases hvalue
  | ok value =>
      intro bytes' hbytes
      cases hbytes
      exact hresult value rfl

theorem readOldPage_length (start stop page : Word) :
    (readOldPage link 64 start stop page).run.Always fun status =>
      ∀ old, status = .ok old → old.length = 64 := by
  unfold readOldPage
  split
  · intro old hold
    cases hold
    exact List.length_replicate
  · exact filled_length page 64

end OldPage

/-! ## The page loop -/

/-- A page is selected to be erased, then to be programmed. -/
def pageVisits (pages : List Word) : List (Word × Word) :=
  pages.flatMap fun page => [(flashCtlrPageEr, page), (flashCtlrPagePg, page)]

/-- The pages from an offset up to the image's end. -/
def imagePages (first stop : Nat) : List Word :=
  (List.range' first ((stop - first + 63) / 64) 64).map flashAt

theorem imagePages_done {first stop : Nat} (hdone : stop ≤ first) : imagePages first stop = [] := by
  rw [imagePages, Nat.sub_eq_zero_of_le hdone]
  rfl

theorem imagePages_next {first stop : Nat} (hmore : first < stop) :
    imagePages first stop = flashAt first :: imagePages (first + 64) stop := by
  have hcount : (stop - first + 63) / 64 = (stop - (first + 64) + 63) / 64 + 1 := by omega
  rw [imagePages, imagePages, hcount]
  rfl

theorem mem_imagePages {first stop : Nat} {page : Word} :
    page ∈ imagePages first stop ↔
      ∃ round, first + 64 * round < stop ∧ page = flashAt (first + 64 * round) := by
  simp only [imagePages, List.mem_map, List.mem_range']
  constructor
  · rintro ⟨offset, ⟨round, hround, rfl⟩, rfl⟩
    exact ⟨round, by omega, rfl⟩
  · rintro ⟨round, hround, rfl⟩
    exact ⟨_, ⟨round, by omega, rfl⟩, rfl⟩

section Pages

variable {link : Link} {pages : List Word}

theorem writePage_visits {page : Nat} (hpage : flashAt page ∈ pages) (hsmall : page + 64 ≤ 2 ^ 24)
    (start stop : Word) (image : List Byte) :
    Visits (FlasherSite pages) [(flashCtlrPageEr, flashAt page), (flashCtlrPagePg, flashAt page)]
      (writePage link 64 start stop image (flashAt page)) := by
  have hold : Visits (FlasherSite pages) [] (readOldPage link 64 start stop (flashAt page)) :=
    Visits.loads (readOldPage_mem (loadsOnly_hasLoads link) _ _ _ _)
  refine hold.andThenWith (readOldPage_length start stop (flashAt page)) fun old hlength => ?_
  have hload : Visits (FlasherSite pages) []
      (loadPage link (flashAt page) (mergePage (flashAt page) start stop image old)) := by
    refine @loadPage_visits link pages page hpage hsmall _ 0 ?_
    rw [mergePage, List.length_mapIdx, hlength]
  exact (erasePageFast_visits hpage).andThen fun _ => bufferReset_visits.thenVisits fun _ =>
    hload.thenVisits fun _ => programPageFast_visits hpage

/-- Induction on the rounds: each visits its page and moves on to the next. -/
theorem writePages_visits {stop : Nat} (hstop : stop + 64 ≤ 2 ^ 24) (start : Word)
    (image : List Byte) (rounds : Nat) {page : Nat}
    (hpages : ∀ other ∈ imagePages page stop, other ∈ pages) (hpage : page < stop + 64) :
    Visits (FlasherSite pages) (pageVisits (imagePages page stop))
      (writePages link 64 start (flashAt stop) image rounds (flashAt page)) := by
  induction rounds generalizing page with
  | zero => exact ⟨[], .nil, Fits.nil, fun value hvalue => by cases hvalue⟩
  | succ rounds ih =>
      have hlt : flashAt page < flashAt stop ↔ page < stop := by
        rw [BitVec.lt_def, flashAt_toNat (by omega), flashAt_toNat (by omega)]
        omega
      rw [writePages]
      by_cases hmore : page < stop
      · have hnext : flashAt page + 64 = flashAt (page + 64) := flashAt_add page 64
        rw [imagePages_next hmore] at hpages ⊢
        rw [if_pos (hlt.2 hmore), hnext]
        refine (writePage_visits (hpages _ List.mem_cons_self) (by omega) _ _ _).andThen fun _ => ?_
        exact ih (fun other hmem => hpages other (List.mem_cons_of_mem _ hmem)) (by omega)
      · rw [if_neg (mt hlt.1 hmore), imagePages_done (Nat.le_of_not_lt hmore)]
        exact Visits.ok ()

end Pages

/-! ## The loop ends -/

theorem total_hasAccesses (link : Link) : HasAccesses (Program.totalClass Usb) link :=
  hasAccesses_of_requests _ (fun _ _ _ _ => trivial) link

/-- Enough rounds bring the page counter to the end of the image. -/
theorem writePages_total {link : Link} {stop : Nat} (hstop : stop + 64 ≤ 2 ^ 24) (start : Word)
    (image : List Byte) (rounds : Nat) {page : Nat} (hpage : page < stop + 64)
    (hrounds : stop + 64 ≤ page + 64 * rounds) :
    (writePages link 64 start (flashAt stop) image rounds (flashAt page)).run.Total := by
  induction rounds generalizing page with
  | zero => omega
  | succ rounds ih =>
      rw [writePages]
      split
      · next hmore =>
          rw [BitVec.lt_def, flashAt_toNat (by omega), flashAt_toNat (by omega)] at hmore
          have hnext : flashAt page + 64 = flashAt (page + 64) := flashAt_add page 64
          rw [hnext]
          exact (Program.totalClass Usb).andThen (writePage_mem (total_hasAccesses link) _ _ _ _ _)
            fun _ => ih (by omega) (by omega)
      · trivial

/-! ## A write -/

/-- What the pages of an image are: aligned, in ascending order, inside the
part's flash, each holding a byte of the image; nothing about them wraps. -/
structure ImagePages (chip : Chip) (start : Word) (length : BitVec 64) (pages : List Word) :
    Prop where
  ascending : pages.Pairwise (· < ·)
  aligned : ∀ page ∈ pages, page &&& 63 = 0
  meets : ∀ page ∈ pages,
    start.toNat < page.toNat + 64 ∧ page.toNat < start.toNat + length.toNat
  inside : ∀ page ∈ pages, chip.flashBase.toNat ≤ page.toNat ∧
    page.toNat + 64 ≤ chip.flashBase.toNat + chip.flashSize.toNat
  exact : start.toNat + length.toNat < 2 ^ 32

/-- What the checks of a write accept starts inside the part's flash. -/
theorem rangeOk_start {chip : Chip} (hchip : chip.Ch32v0) {address : Word} {length : BitVec 64}
    (hlength : length.toNat ≤ 2 ^ 63 - 1) (hrange : wlFlashRangeOk (some chip) address length) :
    ∃ start, normalise chip address = flashAt start ∧
      start + length.toNat ≤ chip.flashSize.toNat := by
  have hbase : chip.flashBase.toNat = 0x08000000 := by rw [hchip.flashBase]; rfl
  have hsize := hchip.flashSize
  unfold wlFlashRangeOk at hrange
  dsimp only at hrange
  by_cases hzero : chip.flashSize = 0
  · rw [if_pos hzero] at hrange
    cases hrange
  · rw [if_neg hzero] at hrange
    obtain ⟨hlow, hhigh⟩ := of_decide_eq_true hrange
    have hstart := (normalise chip address).isLt
    rw [ge_iff_le, BitVec.le_def, hbase] at hlow
    rw [BitVec.le_def, BitVec.toNat_add, BitVec.toNat_add, BitVec.toNat_setWidth,
      BitVec.toNat_setWidth, BitVec.toNat_setWidth, hbase] at hhigh
    obtain ⟨haddress, hstop⟩ := @normalise_inside chip hchip address length.toNat
      (by rw [hbase]; exact hlow) (by rw [hbase]; omega)
    exact ⟨_, haddress, hstop⟩

theorem imagePages_pages {chip : Chip} (hchip : chip.Ch32v0) {start : Nat} {length : BitVec 64}
    (hpositive : 0 < length.toNat) (hstop : start + length.toNat ≤ chip.flashSize.toNat) :
    ImagePages chip (flashAt start) length
      (imagePages (start - start % 64) (start + length.toNat)) := by
  have hbase : chip.flashBase.toNat = 0x08000000 := by rw [hchip.flashBase]; rfl
  have hsize := hchip.flashSize
  have hwhole := hchip.pages
  have hstart : (flashAt start).toNat = 0x08000000 + start := flashAt_toNat (by omega)
  have hpages : ∀ page ∈ imagePages (start - start % 64) (start + length.toNat),
      ∃ round, start - start % 64 + 64 * round < start + length.toNat ∧
        page.toNat = 0x08000000 + (start - start % 64 + 64 * round) := by
    intro page hmem
    obtain ⟨round, hround, rfl⟩ := mem_imagePages.mp hmem
    exact ⟨round, hround, flashAt_toNat (by omega)⟩
  refine ⟨?_, fun page hmem => ?_, fun page hmem => ?_, fun page hmem => ?_, ?_⟩
  · rw [imagePages, List.pairwise_map]
    refine (List.pairwise_lt_range' 64 (by decide)).imp_of_mem fun {first second} hfirst hsecond
      hlt => ?_
    obtain ⟨round, hround, rfl⟩ := List.mem_range'.mp hfirst
    obtain ⟨round', hround', rfl⟩ := List.mem_range'.mp hsecond
    rw [BitVec.lt_def, flashAt_toNat (by omega), flashAt_toNat (by omega)]
    omega
  · obtain ⟨round, hround, hpage⟩ := hpages page hmem
    apply BitVec.eq_of_toNat_eq
    rw [BitVec.toNat_and, show (63 : Word).toNat = 2 ^ 6 - 1 from rfl,
      Nat.and_two_pow_sub_one_eq_mod, hpage]
    show _ = 0
    omega
  · obtain ⟨round, hround, hpage⟩ := hpages page hmem
    omega
  · obtain ⟨round, hround, hpage⟩ := hpages page hmem
    omega
  · omega

/-- An accepted write unlocks the controller and works through the pages. -/
theorem wlFlashWrite_pages (link : Link) {chip : Chip} (hpart : chip.Ch32v0) (address : Word)
    (image : List Byte) {length : BitVec 64} (hlength : length.toNat ≤ 2 ^ 63 - 1)
    (hnonzero : length ≠ 0) (hrange : wlFlashRangeOk (some chip) address length) :
    ∃ offset, normalise chip address = flashAt offset ∧
      offset + length.toNat ≤ chip.flashSize.toNat ∧
      wlFlashWrite link (some chip) address (some image) length =
        (unlock link >>= fun _ => writePages link 64 (flashAt offset)
          (flashAt (offset + length.toNat)) image (2 ^ 32) (flashAt (offset - offset % 64))) := by
  have hsize := hpart.flashSize
  obtain ⟨offset, haddress, hstop⟩ := rangeOk_start hpart hlength hrange
  have hend : flashAt offset + length.setWidth 32 = flashAt (offset + length.toNat) :=
    flashAt_add offset length.toNat
  have hfirst := @flashAt_page offset (by omega)
  refine ⟨offset, haddress, hstop, ?_⟩
  unfold wlFlashWrite wlFlashCh32v0Write
  dsimp only
  rw [if_neg hnonzero, if_neg (by rw [hpart.algo]; decide), hrange, hpart.algo, haddress,
    hpart.eraseSize, if_neg (by decide), hend, hfirst]
  rfl

/-- A write to a part of the table comes to its end. -/
theorem wlFlashWrite_total (link : Link) {chip : Chip} (hchip : chip ∈ chips) (address : Word)
    (image : List Byte) {length : BitVec 64} (hlength : length.toNat ≤ 2 ^ 63 - 1) :
    (wlFlashWrite link (some chip) address (some image) length).run.Total := by
  by_cases hpages : length ≠ 0 ∧ chip.algo = .ch32v0 ∧
      wlFlashRangeOk (some chip) address length = true
  · obtain ⟨hnonzero, halgo, hrange⟩ := hpages
    have hpart := ch32v0_of_mem hchip halgo
    have hsize := hpart.flashSize
    obtain ⟨offset, -, hstop, hwrite⟩ :=
      wlFlashWrite_pages link hpart address image hlength hnonzero hrange
    rw [hwrite]
    exact (Program.totalClass Usb).andThen (unlock_mem (total_hasAccesses link)) fun _ =>
      writePages_total (by omega) _ _ _ (by omega) (by omega)
  · -- a refused request never reaches the page loop
    show (Program.totalClass Usb).Mem _
    unfold wlFlashWrite
    dsimp only
    split
    · exact (Program.totalClass Usb).throwThen _ _
    · next hnonzero =>
        split
        · exact (Program.totalClass Usb).throwThen _ _
        · split
          · exact (Program.totalClass Usb).throwThen _ _
          · next hrange =>
              split
              · next halgo =>
                  rw [Bool.not_eq_true', Bool.not_eq_false] at hrange
                  exact absurd ⟨hnonzero, halgo, hrange⟩ hpages
              · exact (Program.totalClass Usb).throws _

/-- Whatever the programmer answers and wherever it stops answering, every
store of a write goes to a control register or to a word of the image's pages;
the pages are erased and programmed once each, in ascending order, and the page
loop never runs out of rounds. -/
theorem wlFlashWrite_stores {σ : Type} (world : World Usb σ) (link : Link) (chip : Chip)
    (hchip : chip ∈ chips) (halgo : chip.algo = .ch32v0) (address : Word) (image : List Byte)
    (length : BitVec 64) (hlength : length.toNat ≤ 2 ^ 63 - 1) (hnonzero : length ≠ 0)
    (hrange : wlFlashRangeOk (some chip) address length) (start final : σ)
    (trace : List Exchange) (residual : Program Usb (Except WlErr Unit))
    (hrun : Program.Run world (wlFlashWrite link (some chip) address (some image) length).run
      start trace residual final) :
    residual ≠ .cut ∧ ∃ pages, ImagePages chip (normalise chip address) length pages ∧
      ∀ request next, residual = .call request next → Postexec request →
        ∃ log access, Starts trace log access ∧
          Fits (FlasherSite pages) (pageVisits pages) (log ++ [access]) := by
  have hpart := ch32v0_of_mem hchip halgo
  have hsize := hpart.flashSize
  have hpositive : 0 < length.toNat := by
    rw [Nat.pos_iff_ne_zero]
    exact fun hzero => hnonzero (BitVec.eq_of_toNat_eq hzero)
  obtain ⟨offset, haddress, hstop, hwrite⟩ :=
    wlFlashWrite_pages link hpart address image hlength hnonzero hrange
  rw [hwrite] at hrun
  refine ⟨?_, imagePages (offset - offset % 64) (offset + length.toNat), ?_, ?_⟩
  · refine (Program.Total.of_run ?_ hrun).ne_cut
    exact (Program.totalClass Usb).andThen (unlock_mem (total_hasAccesses link)) fun _ =>
      writePages_total (by omega) _ _ _ (by omega) (by omega)
  · rw [haddress]
    exact imagePages_pages hpart hpositive hstop
  · rintro request next rfl hpostexec
    have hloop := @writePages_visits link (imagePages (offset - offset % 64)
      (offset + length.toNat)) (offset + length.toNat) (by omega) (flashAt offset) image (2 ^ 32)
      (offset - offset % 64) (fun _ hmem => hmem) (by omega)
    have hvisits := (@unlock_visits link _).thenVisits fun _ => hloop
    exact Program.Follows.allowed_of_run hvisits hrun hpostexec

/-- The exchanges before the first key's postexec command. -/
def unlockTrace : List Exchange :=
  [regRequest wlDmiDmabstractauto 0 wlRegOpWrite,
    regRequest wlDmiDmprogbuf0 (wlRvStore 2 8 9) wlRegOpWrite,
    regRequest (wlDmiDmprogbuf0 + 1) wlRvEbreak wlRegOpWrite,
    regRequest wlDmiData0 flashKeyr wlRegOpWrite,
    regRequest wlDmiDmcommand 0x00231009 wlRegOpWrite,
    regRequest wlDmiDmabstractcs 0 wlRegOpRead,
    regRequest wlDmiData0 flashKey1 wlRegOpWrite].map fun request =>
      ⟨request, .ok [0x82, 0x08, 0x06, 0, 0, 0, 0, 0, 0]⟩

theorem wlFlashWrite_stores_key : ∃ pages,
    ImagePages ch32v003 (normalise ch32v003 0x3e) 4 pages ∧ ∃ log access,
      Starts unlockTrace log access ∧
        Fits (FlasherSite pages) (pageVisits pages) (log ++ [access]) := by
  obtain ⟨-, pages, hpages, hfits⟩ := wlFlashWrite_stores ackAll.world wlLinkeAttachTransport
    ch32v003 (List.Mem.head _) rfl 0x3e [1, 2, 3, 4] 4 (by decide) (by decide) (by decide) () ()
    unlockTrace (.call (regRequest wlDmiDmcommand runCommand wlRegOpWrite) _)
    (.step rfl (.step rfl (.step rfl (.step rfl (.step rfl (.step rfl (.step rfl
      (.refl _ _))))))))
  exact ⟨pages, hpages, hfits _ _ rfl ⟨runCommand, rfl, by decide⟩⟩

end WchLink
