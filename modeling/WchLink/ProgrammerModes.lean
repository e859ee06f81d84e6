import WchLink.UsbLink

/-! # Switching programmers

The commands that act on the programmer itself find one by the serial filter, and
two of them reboot one that is in another mode. Neither opens a programmer.
-/

namespace WchLink

open Bytes Interaction

namespace UsbLink

/-! ## The commands -/

/-- The first programmer that can be opened and satisfies the filter. -/
def wlProgrammerFind (serialFilter : Option (List Byte)) : ExceptT WlErr (Program Bus) UsbInfo := do
  match ← ExceptT.lift (onBus .scan) with
  | .error _ => throw .usb
  | .ok found =>
      if found.length = 0 then
        throw .noDevice
      match found.find? fun info => info.accessible && serialMatches info serialFilter with
      | some info => return info
      | none => throw .access

/-- The loop of the mode commands over a scan: a programmer that is in RISC-V mode
already ends it; the first one in `mode` is kept. -/
def searchScan (mode : UsbMode) (serialFilter : Option (List Byte)) :
    Option UsbInfo → List UsbInfo → Except UsbInfo (Option UsbInfo)
  | kept, [] => .ok kept
  | kept, info :: found =>
      if !info.accessible || !serialMatches info serialFilter then
        searchScan mode serialFilter kept found
      else if info.mode = .rv then
        .error info
      else if info.mode = mode ∧ kept = none then
        searchScan mode serialFilter (some info) found
      else
        searchScan mode serialFilter kept found

/-- Send a bootloader command to the first programmer in its mode, unless one is in
RISC-V mode already, and wait for one to appear there. -/
def reboot (command : BootCommand) (serialFilter : Option (List Byte)) :
    ExceptT WlErr (Program Bus) UsbInfo := do
  match ← ExceptT.lift (onBus .scan) with
  | .error _ => throw .usb
  | .ok found =>
      if found.length = 0 then
        throw .noDevice
      match searchScan command.mode serialFilter none found with
      | .error usable => return usable
      | .ok none => throw .access
      | .ok (some info) =>
          match ← ExceptT.lift (onBus (.boot command info)) with
          | .error code => throw (usbStatus code)
          | .ok () => waitForMode .rv serialFilter (wlModeSwitchWaitMs / wlModeSwitchPollMs)

def wlProgrammerSwitchRv (serialFilter : Option (List Byte)) :
    ExceptT WlErr (Program Bus) UsbInfo :=
  reboot .switchArmToRv serialFilter

def wlProgrammerEjectIap (serialFilter : Option (List Byte)) :
    ExceptT WlErr (Program Bus) UsbInfo :=
  reboot .ejectIap serialFilter

/-! ## The search -/

/-- What the loop finds: the first candidate in RISC-V mode, or else the first in
the other mode. -/
theorem searchScan_eq (mode : UsbMode) (serialFilter : Option (List Byte))
    (kept : Option UsbInfo) (found : List UsbInfo) :
    searchScan mode serialFilter kept found =
      match first serialFilter .rv found with
      | some usable => .error usable
      | none => .ok (kept.or (first serialFilter mode found)) := by
  induction found generalizing kept with
  | nil => simp [searchScan, first]
  | cons info found ih =>
      rw [searchScan, first_cons, first_cons]
      by_cases hmatches : info.accessible = true ∧ serialMatches info serialFilter = true
      · have hcandidate (other : UsbMode) : Candidate serialFilter other info ↔
            info.mode = other := by
          simp [Candidate, hmatches.1, hmatches.2]
        rw [if_neg (by rw [hmatches.1, hmatches.2]; decide)]
        by_cases hrv : info.mode = .rv
        · rw [if_pos hrv, if_pos ((hcandidate .rv).mpr hrv)]
          rfl
        · rw [if_neg hrv, if_neg (mt (hcandidate .rv).mp hrv), Option.none_or]
          by_cases hother : info.mode = mode
          · rw [if_pos ((hcandidate mode).mpr hother)]
            cases kept with
            | none => simp [hother, ih]
            | some other => simp [ih]
          · rw [if_neg (mt (hcandidate mode).mp hother), if_neg (fun h => hother h.1),
              Option.none_or]
            exact ih kept
      · have hcandidate (other : UsbMode) : ¬Candidate serialFilter other info :=
          fun h => hmatches ⟨h.1, h.2.2⟩
        have hskipped : (!info.accessible || !serialMatches info serialFilter) = true := by
          rw [Bool.or_eq_true, Bool.not_eq_true', Bool.not_eq_true', ← Bool.not_eq_true,
            ← Bool.not_eq_true, ← not_and_or]
          exact hmatches
        rw [if_pos hskipped, if_neg (hcandidate .rv), if_neg (hcandidate mode), Option.none_or,
          Option.none_or]
        exact ih kept

theorem find_candidate (mode : UsbMode) (serialFilter : Option (List Byte)) (found : List UsbInfo) :
    (found.find? fun info =>
      info.accessible && info.mode == mode && serialMatches info serialFilter) =
        first serialFilter mode found := by
  unfold first
  congr
  ext info
  rw [Bool.eq_iff_iff, decide_eq_true_eq]
  simp [Candidate, and_assoc]

/-! ## Waiting -/

/-- How long a run has slept, in milliseconds. -/
def waited (made : List Bus.Idx) : Nat :=
  (made.map fun exchange =>
    match exchange.1 with
    | .sleep ms => ms
    | _ => 0).sum

/-- The last thing a run did was a scan that found these. -/
def LastScan (found : List UsbInfo) (made : List Bus.Idx) : Prop :=
  ∃ earlier, made = earlier ++ [⟨.scan, .ok found⟩]

/-- The last thing a run did was a scan that failed. -/
def LastFailed (made : List Bus.Idx) : Prop :=
  ∃ earlier code, made = earlier ++ [⟨.scan, .error code⟩]

theorem LastScan.append {found : List UsbInfo} {made : List Bus.Idx} (h : LastScan found made)
    (earlier : List Bus.Idx) : LastScan found (earlier ++ made) := by
  obtain ⟨before, rfl⟩ := h
  exact ⟨earlier ++ before, (List.append_assoc _ _ _).symm⟩

theorem LastFailed.append {made : List Bus.Idx} (h : LastFailed made) (earlier : List Bus.Idx) :
    LastFailed (earlier ++ made) := by
  obtain ⟨before, code, rfl⟩ := h
  exact ⟨earlier ++ before, code, (List.append_assoc _ _ _).symm⟩

theorem waited_append (first second : List Bus.Idx) :
    waited (first ++ second) = waited first + waited second := by
  unfold waited
  rw [List.map_append, List.sum_append]

/-- How a wait ends: with the programmer the last scan found first, with a failed
scan, or after its whole time, in which no scan found one. -/
def WaitEnds (serialFilter : Option (List Byte)) (mode : UsbMode) (rounds : Nat)
    (made : List Bus.Idx) : Except WlErr UsbInfo → Prop
  | .ok info => waited made ≤ rounds * wlModeSwitchPollMs ∧
      ∃ found, LastScan found made ∧ first serialFilter mode found = some info
  | .error .usb => LastFailed made
  | .error .noDevice => waited made = rounds * wlModeSwitchPollMs ∧
      ∀ found, ⟨.scan, .ok found⟩ ∈ made → first serialFilter mode found = none
  | .error _ => False

theorem WaitEnds.later {serialFilter : Option (List Byte)} {mode : UsbMode} {rounds : Nat}
    {found : List UsbInfo} (hfound : first serialFilter mode found = none) {made : List Bus.Idx}
    {status : Except WlErr UsbInfo} (h : WaitEnds serialFilter mode rounds made status) :
    WaitEnds serialFilter mode (rounds + 1)
      (⟨.sleep wlModeSwitchPollMs, ()⟩ :: ⟨.scan, .ok found⟩ :: made) status := by
  have hwaited : waited (⟨.sleep wlModeSwitchPollMs, ()⟩ :: ⟨.scan, .ok found⟩ :: made) =
      wlModeSwitchPollMs + (0 + waited made) := rfl
  have hround : (rounds + 1) * wlModeSwitchPollMs =
      rounds * wlModeSwitchPollMs + wlModeSwitchPollMs :=
    Nat.succ_mul rounds wlModeSwitchPollMs
  cases status with
  | ok info =>
      obtain ⟨htime, found', hlast, hfirst⟩ := h
      refine ⟨by rw [hwaited]; omega, found', ?_, hfirst⟩
      exact hlast.append [_, _]
  | error error =>
      cases error with
      | usb => exact LastFailed.append h [_, _]
      | noDevice =>
          refine ⟨by rw [hwaited, h.1]; omega, fun found' hmem => ?_⟩
          rcases List.mem_cons.mp hmem with hsleep | hmem
          · cases hsleep
          · rcases List.mem_cons.mp hmem with hscan | hmem
            · cases hscan
              exact hfound
            · exact h.2 found' hmem
      | _ => exact h

theorem waitForMode_ends (mode : UsbMode) (serialFilter : Option (List Byte)) (rounds : Nat) :
    (waitForMode mode serialFilter rounds).run.Follows (fun _ operation => Passive operation)
      (fun made outcome => ∃ status, outcome = some status ∧
        WaitEnds serialFilter mode rounds made status) := by
  induction rounds with
  | zero =>
      refine ⟨_, rfl, by simp [waited], ?_⟩
      intro found hmem
      cases hmem
  | succ rounds ih =>
      unfold waitForMode
      apply onBus_follows trivial
      intro slept
      apply onBus_follows trivial
      intro reply
      cases reply with
      | error code => exact ⟨_, rfl, [_], code, rfl⟩
      | ok found =>
          dsimp only
          rw [find_candidate]
          cases hfirst : first serialFilter mode found with
          | some info =>
              refine ⟨_, rfl, ?_, found, ⟨[_], rfl⟩, hfirst⟩
              exact Nat.le_mul_of_pos_left wlModeSwitchPollMs (Nat.succ_pos rounds)
          | none =>
              apply ih.mono fun _ _ h => h
              rintro made outcome ⟨status, rfl, hends⟩
              exact ⟨status, rfl, hends.later hfirst⟩

/-! ## The commands as a whole -/

/-- What a mode command may ask for: besides scans and sleep only its own bootloader
command, once, to the first programmer of the first scan in the mode it is for, and
not when that scan found one in RISC-V mode. -/
def MayReboot (serialFilter : Option (List Byte)) (command : BootCommand) (made : List Bus.Idx) :
    BusOp → Prop
  | .scan => True
  | .sleep _ => True
  | .open _ => False
  | .boot command' info => command' = command ∧ ∃ found, made = [⟨.scan, .ok found⟩] ∧
      first serialFilter .rv found = none ∧ first serialFilter command.mode found = some info

/-- A run that rebooted a programmer, and what it did from there on. -/
def Rebooted (command : BootCommand) (reply : Except Int Unit) (made after : List Bus.Idx) : Prop :=
  ∃ found info, made = ⟨.scan, .ok found⟩ :: ⟨.boot command info, reply⟩ :: after

/-- How a mode command ends. -/
def RebootEnds (serialFilter : Option (List Byte)) (command : BootCommand) (made : List Bus.Idx) :
    Except WlErr UsbInfo → Prop
  | .ok info => waited made ≤ wlModeSwitchWaitMs ∧
      ∃ found, LastScan found made ∧ first serialFilter .rv found = some info
  | .error .usb => LastFailed made ∨
      ∃ code, code ≠ libusbErrorAccess ∧ Rebooted command (.error code) made []
  | .error .noDevice => made = [⟨.scan, .ok []⟩] ∨
      ∃ after, Rebooted command (.ok ()) made after ∧ waited after = wlModeSwitchWaitMs ∧
        ∀ found, ⟨.scan, .ok found⟩ ∈ after → first serialFilter .rv found = none
  | .error .access => (∃ found, made = [⟨.scan, .ok found⟩] ∧ first serialFilter .rv found = none ∧
      first serialFilter command.mode found = none) ∨
        Rebooted command (.error libusbErrorAccess) made []
  | .error _ => False

/-- The wait after a reboot ends the command. -/
theorem WaitEnds.rebooted {serialFilter : Option (List Byte)} {made : List Bus.Idx}
    {status : Except WlErr UsbInfo}
    (h : WaitEnds serialFilter .rv (wlModeSwitchWaitMs / wlModeSwitchPollMs) made status)
    (command : BootCommand) (found : List UsbInfo) (info : UsbInfo) :
    RebootEnds serialFilter command
      (⟨.scan, .ok found⟩ :: ⟨.boot command info, .ok ()⟩ :: made) status := by
  have hwhole : wlModeSwitchWaitMs / wlModeSwitchPollMs * wlModeSwitchPollMs = wlModeSwitchWaitMs :=
    rfl
  have hwaited : waited (⟨.scan, .ok found⟩ :: ⟨.boot command info, .ok ()⟩ :: made) =
      0 + (0 + waited made) := rfl
  cases status with
  | ok info' =>
      obtain ⟨htime, found', hlast, hfirst⟩ := h
      refine ⟨?_, found', hlast.append [_, _], hfirst⟩
      rw [hwhole] at htime
      omega
  | error error =>
      cases error with
      | usb => exact .inl (LastFailed.append h [_, _])
      | noDevice =>
          refine .inr ⟨made, ⟨found, info, rfl⟩, ?_, h.2⟩
          rw [← hwhole]
          exact h.1
      | _ => exact h.elim

theorem reboot_follows (serialFilter : Option (List Byte)) (command : BootCommand) :
    (reboot command serialFilter).run.Follows (MayReboot serialFilter command)
      (fun made outcome => ∃ status, outcome = some status ∧
        RebootEnds serialFilter command made status) := by
  unfold reboot
  apply onBus_follows trivial
  intro reply
  cases reply with
  | error code => exact ⟨_, rfl, .inl ⟨[], code, rfl⟩⟩
  | ok found =>
      dsimp only
      split
      · next hempty =>
          rw [List.length_eq_zero_iff] at hempty
          subst hempty
          exact ⟨_, rfl, .inl rfl⟩
      rw [searchScan_eq]
      cases husable : first serialFilter .rv found with
      | some usable => exact ⟨_, rfl, Nat.zero_le _, found, ⟨[], rfl⟩, husable⟩
      | none =>
          rw [Option.none_or]
          cases hkept : first serialFilter command.mode found with
          | none => exact ⟨_, rfl, .inl ⟨found, rfl, husable, hkept⟩⟩
          | some info =>
              apply onBus_follows ⟨rfl, found, rfl, husable, hkept⟩
              intro reply
              cases reply with
              | error code =>
                  refine ⟨_, rfl, ?_⟩
                  unfold usbStatus
                  split
                  · next haccess =>
                      subst haccess
                      exact .inr ⟨found, info, rfl⟩
                  · next haccess => exact .inr ⟨code, haccess, found, info, rfl⟩
              | ok done =>
                  have hwait := waitForMode_ends .rv serialFilter
                    (wlModeSwitchWaitMs / wlModeSwitchPollMs)
                  apply hwait.mono
                  · intro made operation hpassive
                    cases operation with
                    | boot command' info' => exact hpassive.elim
                    | «open» info' => exact hpassive.elim
                    | scan => trivial
                    | sleep ms => trivial
                  · rintro made outcome ⟨status, rfl, hends⟩
                    exact ⟨status, rfl, hends.rebooted command found info⟩

/-- How the search for a programmer ends; it makes one scan and nothing else. -/
def FindEnds (serialFilter : Option (List Byte)) (made : List Bus.Idx) :
    Except WlErr UsbInfo → Prop
  | .ok info => ∃ before after, made = [⟨.scan, .ok (before ++ info :: after)⟩] ∧
      (∃ mode, Candidate serialFilter mode info) ∧
        ∀ mode, ∀ other ∈ before, ¬Candidate serialFilter mode other
  | .error .usb => ∃ code, made = [⟨.scan, .error code⟩]
  | .error .noDevice => made = [⟨.scan, .ok []⟩]
  | .error .access => ∃ found, made = [⟨.scan, .ok found⟩] ∧ found ≠ [] ∧
      ∀ mode, ∀ info ∈ found, ¬Candidate serialFilter mode info
  | .error _ => False

theorem wlProgrammerFind_follows (serialFilter : Option (List Byte)) :
    (wlProgrammerFind serialFilter).run.Follows
      (fun made operation => made = [] ∧ operation = .scan)
      (fun made outcome => ∃ status, outcome = some status ∧
        FindEnds serialFilter made status) := by
  have hcandidate (mode : UsbMode) (info : UsbInfo) (h : Candidate serialFilter mode info) :
      (info.accessible && serialMatches info serialFilter) = true := by
    rw [h.1, h.2.2]
    rfl
  unfold wlProgrammerFind
  apply onBus_follows ⟨rfl, rfl⟩
  intro reply
  cases reply with
  | error code => exact ⟨_, rfl, code, rfl⟩
  | ok found =>
      dsimp only
      split
      · next hempty =>
          rw [List.length_eq_zero_iff] at hempty
          subst hempty
          exact ⟨_, rfl, rfl⟩
      · next hsome =>
          split
          · next info hfound =>
              obtain ⟨hmatches, before, after, rfl, hbefore⟩ :=
                List.find?_eq_some_iff_append.mp hfound
              rw [Bool.and_eq_true] at hmatches
              refine ⟨_, rfl, before, after, rfl, ⟨info.mode, hmatches.1, rfl, hmatches.2⟩, ?_⟩
              intro mode other hother hother'
              have hskipped := hbefore other hother
              rw [hcandidate mode other hother'] at hskipped
              cases hskipped
          · next hnone =>
              refine ⟨_, rfl, found, rfl, fun h => hsome (by rw [h]; rfl), ?_⟩
              intro mode info hinfo hinfo'
              exact List.find?_eq_none.mp hnone info hinfo (hcandidate mode info hinfo')

/-- Whatever the bus holds and answers, the mode commands reboot only the first
programmer in the mode they are for, once, and only when the filter leaves none in
RISC-V mode, and they open none; each of their results tells what the bus has shown. -/
theorem programmerCommands_select {σ : Type} {world : World Bus σ}
    (serialFilter : Option (List Byte)) (state final : σ) (made : List Bus.Idx)
    (residual : Program Bus (Except WlErr UsbInfo)) :
    (∀ command : BootCommand, ∀ operation : ExceptT WlErr (Program Bus) UsbInfo,
      operation = wlProgrammerSwitchRv serialFilter ∧ command = .switchArmToRv ∨
        operation = wlProgrammerEjectIap serialFilter ∧ command = .ejectIap →
      Program.Run world operation.run state made residual final →
        (∀ before exchange after, made = before ++ exchange :: after →
          MayReboot serialFilter command before exchange.1) ∧
        ∀ status, residual = .done status → RebootEnds serialFilter command made status) ∧
    (Program.Run world (wlProgrammerFind serialFilter).run state made residual final →
      ∀ status, residual = .done status → FindEnds serialFilter made status) := by
  constructor
  · rintro command operation hoperation hrun
    have hfollows : operation.run.Follows (MayReboot serialFilter command)
        (fun made outcome => ∃ status, outcome = some status ∧
          RebootEnds serialFilter command made status) := by
      rcases hoperation with ⟨rfl, rfl⟩ | ⟨rfl, rfl⟩
      · exact reboot_follows serialFilter .switchArmToRv
      · exact reboot_follows serialFilter .ejectIap
    refine ⟨fun before exchange after hmade => hfollows.allowed_of_split hrun hmade, ?_⟩
    rintro status rfl
    obtain ⟨status', heq, hends⟩ := hfollows.of_run hrun
    cases heq
    rwa [List.append_nil] at hends
  · rintro hrun status rfl
    obtain ⟨status', heq, hends⟩ := (wlProgrammerFind_follows serialFilter).of_run hrun
    cases heq
    rwa [List.append_nil] at hends

/-- A programmer in ARM mode is switched and found again; with a filter that leaves
it out it is left alone. -/
theorem programmerCommands_select_arm :
    (∃ made, Program.Run armBus.world (wlProgrammerSwitchRv none).run false made
        (.done (.ok { armLink with mode := .rv, address := 5 })) true ∧
      RebootEnds none .switchArmToRv made (.ok { armLink with mode := .rv, address := 5 })) ∧
    ∃ made, Program.Run armBus.world (wlProgrammerFind (some [0x41])).run false made
        (.done (.error .access)) false ∧ FindEnds (some [0x41]) made (.error .access) := by
  have hswitched : Program.Returns armBus.world (wlProgrammerSwitchRv none).run false
      (.ok { armLink with mode := .rv, address := 5 }) true := Program.returns_world_iff.mpr rfl
  have hrefused : Program.Returns armBus.world (wlProgrammerFind (some [0x41])).run false
      (.error .access) false := Program.returns_world_iff.mpr rfl
  obtain ⟨made, hrun⟩ := hswitched
  obtain ⟨made', hrun'⟩ := hrefused
  exact ⟨⟨made, hrun, ((programmerCommands_select none _ _ _ _).1 .switchArmToRv _ (.inl ⟨rfl, rfl⟩)
      hrun).2 _ rfl⟩, made', hrun', (programmerCommands_select _ _ _ _ _).2 hrun' _ rfl⟩

end UsbLink

end WchLink
