import WchLink.Cli

/-! # The command line

The arguments are read from left to right: options wherever they stand, and up to
two words, or six for `target`. What is accepted, and what it means, is given by a
grammar that knows nothing of the order in which the options are read.
-/

namespace WchLink

open Bytes

/-! ## Reading the arguments -/

/-- How much is reported. -/
inductive LogLevel
  | quiet
  | info
  | debug
  deriving DecidableEq, Repr

/-- What the arguments have set. -/
structure CommandLine where
  opts : Options
  command : Option String
  level : LogLevel

def CommandLine.initial : CommandLine where
  opts :=
    { serial := none, chip := none, file := none, extra := [], address := 0, size := 0,
      addressGiven := false, sizeGiven := false, verify := true, port := 3333 }
  command := none
  level := .info

/-- What comes of the arguments: an exit at once, or a command line. -/
inductive Parsed
  | exit (code : Nat)
  | commandLine (line : CommandLine)

def wlTargetExtraMax : Nat := 4

/-- A dash alone is a word. -/
def isOption (arg : String) : Bool :=
  match arg.toList with
  | '-' :: _ :: _ => true
  | _ => false

/-- A word: the command, its file, or more of a `target` command. -/
def CommandLine.takeWord (line : CommandLine) (arg : String) : Option CommandLine :=
  match line.command with
  | none => some { line with command := some arg }
  | some command =>
      match line.opts.file with
      | none => some { line with opts := { line.opts with file := some arg } }
      | some _ =>
          if command = "target" ∧ line.opts.extra.length < wlTargetExtraMax then
            some { line with opts := { line.opts with extra := line.opts.extra ++ [arg] } }
          else
            none

/-- The loop over the arguments. -/
def parseArguments (line : CommandLine) : List String → Parsed
  | [] => .commandLine line
  | arg :: rest =>
      if arg = "-h" ∨ arg = "--help" then
        .exit 0
      else if arg = "--version" then
        .exit 0
      else if arg = "-v" ∨ arg = "--verbose" then
        parseArguments { line with level := .debug } rest
      else if arg = "-q" ∨ arg = "--quiet" then
        parseArguments { line with level := .quiet } rest
      else if arg = "--verify" then
        parseArguments { line with opts := { line.opts with verify := true } } rest
      else if arg = "--no-verify" then
        parseArguments { line with opts := { line.opts with verify := false } } rest
      else if arg = "-s" ∨ arg = "--serial" then
        match rest with
        | [] => .exit 2
        | serial :: rest =>
            parseArguments { line with opts := { line.opts with serial := some serial } } rest
      else if arg = "-c" ∨ arg = "--chip" then
        match rest with
        | [] => .exit 2
        | chip :: rest =>
            parseArguments { line with opts := { line.opts with chip := some chip } } rest
      else if arg = "-a" ∨ arg = "--address" then
        match rest with
        | [] => .exit 2
        | text :: rest =>
            match parseU32 text with
            | none => .exit 2
            | some address =>
                parseArguments
                  { line with opts := { line.opts with address, addressGiven := true } } rest
      else if arg = "-n" ∨ arg = "--size" then
        match rest with
        | [] => .exit 2
        | text :: rest =>
            match parseU32 text with
            | none => .exit 2
            | some value =>
                parseArguments
                  { line with opts := { line.opts with size := value.toNat, sizeGiven := true } }
                  rest
      else if arg = "-p" ∨ arg = "--port" then
        match rest with
        | [] => .exit 2
        | text :: rest =>
            match parseU32 text with
            | none => .exit 2
            | some value =>
                if value = 0 ∨ value > 65535 then
                  .exit 2
                else
                  parseArguments
                    { line with opts := { line.opts with port := value.setWidth 16 } } rest
      else if isOption arg then
        .exit 2
      else
        match line.takeWord arg with
        | none => .exit 2
        | some line => parseArguments line rest

/-! ## The grammar -/

/-- One thing a command line says. -/
inductive Directive
  | level (level : LogLevel)
  | verify (on : Bool)
  | serial (text : String)
  | chip (text : String)
  | address (value : Word)
  | size (value : Word)
  | port (value : Word)
  | word (text : String)

/-- The ways to say it. -/
inductive Directive.Spelled : Directive → List String → Prop
  | verbose {arg : String} (h : arg ∈ ["-v", "--verbose"]) : Spelled (.level .debug) [arg]
  | quiet {arg : String} (h : arg ∈ ["-q", "--quiet"]) : Spelled (.level .quiet) [arg]
  | verify : Spelled (.verify true) ["--verify"]
  | noVerify : Spelled (.verify false) ["--no-verify"]
  | serial {arg text : String} (h : arg ∈ ["-s", "--serial"]) : Spelled (.serial text) [arg, text]
  | chip {arg text : String} (h : arg ∈ ["-c", "--chip"]) : Spelled (.chip text) [arg, text]
  | address {arg text : String} {value : Word} (h : arg ∈ ["-a", "--address"])
      (hvalue : parseU32 text = some value) : Spelled (.address value) [arg, text]
  | size {arg text : String} {value : Word} (h : arg ∈ ["-n", "--size"])
      (hvalue : parseU32 text = some value) : Spelled (.size value) [arg, text]
  | port {arg text : String} {value : Word} (h : arg ∈ ["-p", "--port"])
      (hvalue : parseU32 text = some value) (hpositive : value ≠ 0) (hbound : value ≤ 65535) :
      Spelled (.port value) [arg, text]
  | word {text : String} (h : isOption text = false) : Spelled (.word text) [text]

/-- The arguments say these things, in this order. -/
inductive Writes : List Directive → List String → Prop
  | nil : Writes [] []
  | cons {directive : Directive} {directives : List Directive} {spelled args : List String}
      (h : directive.Spelled spelled) (hrest : Writes directives args) :
      Writes (directive :: directives) (spelled ++ args)

/-- The words of the directives. -/
def wordsOf (directives : List Directive) : List String :=
  directives.filterMap fun
    | .word text => some text
    | _ => none

/-- The last of the directives that says something of this kind. -/
def lastOf {α : Type} (kind : Directive → Option α) (directives : List Directive) : Option α :=
  (directives.filterMap kind).getLast?

def Directive.level? : Directive → Option LogLevel
  | .level choice => some choice
  | _ => none

def Directive.verify? : Directive → Option Bool
  | .verify on => some on
  | _ => none

def Directive.serial? : Directive → Option String
  | .serial text => some text
  | _ => none

def Directive.chip? : Directive → Option String
  | .chip text => some text
  | _ => none

def Directive.address? : Directive → Option Word
  | .address value => some value
  | _ => none

def Directive.size? : Directive → Option Word
  | .size value => some value
  | _ => none

def Directive.port? : Directive → Option Word
  | .port value => some value
  | _ => none

/-- Two words, or a `target` command with its arguments. -/
def WordsFit (words : List String) : Prop :=
  words.length ≤ 2 ∨ words.head? = some "target" ∧ words.length ≤ 2 + wlTargetExtraMax

/-- What the directives say together: of each kind the last counts, and the words count
in their order. -/
def meaning (directives : List Directive) : CommandLine where
  opts :=
    { serial := lastOf Directive.serial? directives
      chip := lastOf Directive.chip? directives
      file := (wordsOf directives)[1]?
      extra := (wordsOf directives).drop 2
      address := (lastOf Directive.address? directives).getD 0
      size := ((lastOf Directive.size? directives).map BitVec.toNat).getD 0
      addressGiven := (lastOf Directive.address? directives).isSome
      sizeGiven := (lastOf Directive.size? directives).isSome
      verify := (lastOf Directive.verify? directives).getD true
      port := ((lastOf Directive.port? directives).map (BitVec.setWidth 16)).getD 3333 }
  command := (wordsOf directives).head?
  level := (lastOf Directive.level? directives).getD .info

/-! ## One directive -/

/-- A directive that takes its place among those read before, if there is room for it. -/
def CommandLine.take (line : CommandLine) : Directive → Option CommandLine
  | .level level => some { line with level }
  | .verify on => some { line with opts := { line.opts with verify := on } }
  | .serial text => some { line with opts := { line.opts with serial := some text } }
  | .chip text => some { line with opts := { line.opts with chip := some text } }
  | .address address =>
      some { line with opts := { line.opts with address, addressGiven := true } }
  | .size value =>
      some { line with opts := { line.opts with size := value.toNat, sizeGiven := true } }
  | .port value => some { line with opts := { line.opts with port := value.setWidth 16 } }
  | .word text => line.takeWord text

/-- What becomes of the rest once a directive is read. -/
def CommandLine.goOn (line : CommandLine) (directive : Directive) (rest : List String) : Parsed :=
  match line.take directive with
  | none => .exit 2
  | some line => parseArguments line rest

/-- The names of the options. -/
def optionNames : List String :=
  ["-h", "--help", "--version", "-v", "--verbose", "-q", "--quiet", "--verify", "--no-verify",
    "-s", "--serial", "-c", "--chip", "-a", "--address", "-n", "--size", "-p", "--port"]

theorem isOption_optionNames : ∀ option ∈ optionNames, isOption option = true := by decide

theorem parseArguments_word {arg : String} (h : isOption arg = false) (line : CommandLine)
    (rest : List String) : parseArguments line (arg :: rest) = line.goOn (.word arg) rest := by
  have hnames : ∀ option ∈ optionNames, arg ≠ option := by
    rintro option hoption rfl
    rw [isOption_optionNames arg hoption] at h
    cases h
  rw [parseArguments.eq_def]
  simp only [optionNames, List.forall_mem_cons] at hnames
  simp [hnames, h, CommandLine.goOn, CommandLine.take]

theorem parseArguments_spelled {directive : Directive} {spelled : List String}
    (h : directive.Spelled spelled) (line : CommandLine) (rest : List String) :
    parseArguments line (spelled ++ rest) = line.goOn directive rest := by
  unfold CommandLine.goOn
  cases h with
  | verbose h =>
      rw [List.cons_append, parseArguments.eq_def]
      rcases List.mem_pair.mp h with rfl | rfl <;> simp [CommandLine.take]
  | quiet h =>
      rw [List.cons_append, parseArguments.eq_def]
      rcases List.mem_pair.mp h with rfl | rfl <;> simp [CommandLine.take]
  | verify =>
      rw [List.cons_append, parseArguments.eq_def]
      simp [CommandLine.take]
  | noVerify =>
      rw [List.cons_append, parseArguments.eq_def]
      simp [CommandLine.take]
  | serial h =>
      rw [List.cons_append, parseArguments.eq_def]
      rcases List.mem_pair.mp h with rfl | rfl <;> simp [CommandLine.take]
  | chip h =>
      rw [List.cons_append, parseArguments.eq_def]
      rcases List.mem_pair.mp h with rfl | rfl <;> simp [CommandLine.take]
  | address h hvalue =>
      rw [List.cons_append, parseArguments.eq_def]
      rcases List.mem_pair.mp h with rfl | rfl <;> simp [CommandLine.take, hvalue]
  | size h hvalue =>
      rw [List.cons_append, parseArguments.eq_def]
      rcases List.mem_pair.mp h with rfl | rfl <;> simp [CommandLine.take, hvalue]
  | @port arg text value h hvalue hpositive hbound =>
      have hpositive' : value ≠ 0#32 := hpositive
      have hbound' : ¬65535#32 < value := BitVec.not_lt.mpr hbound
      rw [List.cons_append, parseArguments.eq_def]
      rcases List.mem_pair.mp h with rfl | rfl <;>
        simp [CommandLine.take, hvalue, hpositive', hbound']
  | word h => exact parseArguments_word h line rest

/-- The arguments ask for help or the version, or begin with a directive, or are refused. -/
theorem parseArguments_cases (line : CommandLine) (arg : String) (rest : List String) :
    arg ∈ ["-h", "--help", "--version"] ∧ parseArguments line (arg :: rest) = .exit 0 ∨
      (∃ (directive : Directive) (spelled after : List String), directive.Spelled spelled ∧
        arg :: rest = spelled ++ after) ∨
        parseArguments line (arg :: rest) = .exit 2 := by
  rw [parseArguments.eq_def]
  dsimp only
  by_cases h : arg = "-h" ∨ arg = "--help"
  · rw [if_pos h]
    exact .inl ⟨by rcases h with rfl | rfl <;> simp, rfl⟩
  rw [if_neg h]
  by_cases h : arg = "--version"
  · rw [if_pos h]
    exact .inl ⟨by simp [h], rfl⟩
  rw [if_neg h]
  by_cases h : arg = "-v" ∨ arg = "--verbose"
  · rw [if_pos h]
    exact .inr (.inl ⟨_, _, rest, .verbose (List.mem_pair.mpr h), rfl⟩)
  rw [if_neg h]
  by_cases h : arg = "-q" ∨ arg = "--quiet"
  · rw [if_pos h]
    exact .inr (.inl ⟨_, _, rest, .quiet (List.mem_pair.mpr h), rfl⟩)
  rw [if_neg h]
  by_cases h : arg = "--verify"
  · rw [if_pos h]
    subst h
    exact .inr (.inl ⟨_, _, rest, .verify, rfl⟩)
  rw [if_neg h]
  by_cases h : arg = "--no-verify"
  · rw [if_pos h]
    subst h
    exact .inr (.inl ⟨_, _, rest, .noVerify, rfl⟩)
  rw [if_neg h]
  by_cases h : arg = "-s" ∨ arg = "--serial"
  · rw [if_pos h]
    cases rest with
    | nil => exact .inr (.inr rfl)
    | cons text rest => exact .inr (.inl ⟨_, _, rest, .serial (List.mem_pair.mpr h), rfl⟩)
  rw [if_neg h]
  by_cases h : arg = "-c" ∨ arg = "--chip"
  · rw [if_pos h]
    cases rest with
    | nil => exact .inr (.inr rfl)
    | cons text rest => exact .inr (.inl ⟨_, _, rest, .chip (List.mem_pair.mpr h), rfl⟩)
  rw [if_neg h]
  by_cases h : arg = "-a" ∨ arg = "--address"
  · rw [if_pos h]
    cases rest with
    | nil => exact .inr (.inr rfl)
    | cons text rest =>
        cases hvalue : parseU32 text with
        | none => exact .inr (.inr (by simp [hvalue]))
        | some value =>
            exact .inr (.inl ⟨_, _, rest, .address (List.mem_pair.mpr h) hvalue, rfl⟩)
  rw [if_neg h]
  by_cases h : arg = "-n" ∨ arg = "--size"
  · rw [if_pos h]
    cases rest with
    | nil => exact .inr (.inr rfl)
    | cons text rest =>
        cases hvalue : parseU32 text with
        | none => exact .inr (.inr (by simp [hvalue]))
        | some value =>
            exact .inr (.inl ⟨_, _, rest, .size (List.mem_pair.mpr h) hvalue, rfl⟩)
  rw [if_neg h]
  by_cases h : arg = "-p" ∨ arg = "--port"
  · rw [if_pos h]
    cases rest with
    | nil => exact .inr (.inr rfl)
    | cons text rest =>
        cases hvalue : parseU32 text with
        | none => exact .inr (.inr (by simp [hvalue]))
        | some value =>
            by_cases hrange : value = 0 ∨ value > 65535
            · exact .inr (.inr (by simp only [hvalue, if_pos hrange]))
            · obtain ⟨hpositive, hbound⟩ := not_or.mp hrange
              exact .inr (.inl ⟨_, _, rest, .port (List.mem_pair.mpr h) hvalue hpositive
                (BitVec.not_lt.mp hbound), rfl⟩)
  rw [if_neg h]
  by_cases h : isOption arg = true
  · rw [if_pos h]
    exact .inr (.inr rfl)
  · rw [Bool.not_eq_true] at h
    exact .inr (.inl ⟨_, _, rest, .word h, rfl⟩)

/-! ## Words -/

theorem wordsOf_append (directives more : List Directive) :
    wordsOf (directives ++ more) = wordsOf directives ++ wordsOf more := List.filterMap_append

theorem WordsFit.before {words more : List String} (h : WordsFit (words ++ more)) :
    WordsFit words := by
  rcases h with hshort | ⟨htarget, hbound⟩
  · rw [List.length_append] at hshort
    exact .inl (by omega)
  · rw [List.length_append] at hbound
    cases words with
    | nil => exact .inl (Nat.zero_le 2)
    | cons word words => exact .inr ⟨htarget, by omega⟩

instance (words : List String) : Decidable (WordsFit words) := inferInstanceAs (Decidable (_ ∨ _))

theorem lastOf_append {α : Type} (kind : Directive → Option α) (directives : List Directive)
    (directive : Directive) :
    lastOf kind (directives ++ [directive]) = (kind directive).or (lastOf kind directives) := by
  unfold lastOf
  rw [List.filterMap_append]
  cases hkind : kind directive with
  | none => simp [hkind]
  | some value => simp [hkind]

/-- A word after others finds its place as long as they fit. -/
theorem takeWord_meaning {directives : List Directive} (hfits : WordsFit (wordsOf directives))
    (text : String) :
    (meaning directives).takeWord text =
      if WordsFit (wordsOf (directives ++ [.word text])) then
        some (meaning (directives ++ [.word text]))
      else none := by
  have hlast {α : Type} (kind : Directive → Option α) (hkind : kind (.word text) = none) :
      lastOf kind (directives ++ [.word text]) = lastOf kind directives := by
    rw [lastOf_append, hkind, Option.none_or]
  have hwords : wordsOf (directives ++ [.word text]) = wordsOf directives ++ [text] :=
    wordsOf_append directives _
  unfold CommandLine.takeWord
  rw [hwords]
  unfold meaning
  rw [hwords, hlast _ rfl, hlast _ rfl, hlast _ rfl, hlast _ rfl, hlast _ rfl, hlast _ rfl,
    hlast _ rfl]
  generalize wordsOf directives = words at hfits
  match words with
  | [] => rfl
  | [command] => rfl
  | command :: file :: extra =>
      have hiff : WordsFit (command :: file :: extra ++ [text]) ↔
          command = "target" ∧ extra.length < wlTargetExtraMax := by
        simp [WordsFit]
        omega
      simp only [hiff]
      rfl

/-- A directive after others is taken as long as the words fit. -/
theorem take_meaning {directives : List Directive} (hfits : WordsFit (wordsOf directives))
    (directive : Directive) :
    (meaning directives).take directive =
      if WordsFit (wordsOf (directives ++ [directive])) then
        some (meaning (directives ++ [directive]))
      else none := by
  have hsame (hword : wordsOf [directive] = []) :
      wordsOf (directives ++ [directive]) = wordsOf directives := by
    rw [wordsOf_append, hword, List.append_nil]
  cases directive with
  | word text => exact takeWord_meaning hfits text
  | _ =>
    rw [hsame rfl, if_pos hfits]
    unfold meaning
    rw [hsame rfl]
    simp [lastOf_append, CommandLine.take, Directive.level?, Directive.verify?, Directive.serial?,
      Directive.chip?, Directive.address?, Directive.size?, Directive.port?]

/-! ## The whole command line -/

theorem Directive.Spelled.ne_nil {directive : Directive} {spelled : List String}
    (h : directive.Spelled spelled) : spelled ≠ [] := by
  cases h <;> exact List.cons_ne_nil _ _

/-- What is said after other directives, while the words fit. -/
def Reads (directives : List Directive) (args : List String) (line : CommandLine) : Prop :=
  ∃ more, Writes more args ∧ WordsFit (wordsOf (directives ++ more)) ∧
    line = meaning (directives ++ more)

/-- A directive and then what is said after it. -/
theorem Reads.cons {directives : List Directive} {directive : Directive}
    {spelled args : List String} {line : CommandLine} (h : directive.Spelled spelled)
    (hrest : Reads (directives ++ [directive]) args line) :
    Reads directives (spelled ++ args) line := by
  obtain ⟨more, hwrites, hfits, rfl⟩ := hrest
  rw [List.append_assoc] at hfits
  refine ⟨directive :: more, .cons h hwrites, hfits, ?_⟩
  rw [List.append_assoc]
  rfl

theorem parseArguments_of_writes {more : List Directive} {args : List String}
    (hwrites : Writes more args)
    {directives : List Directive} (hfits : WordsFit (wordsOf (directives ++ more)))
    (rest : List String) :
    parseArguments (meaning directives) (args ++ rest) =
      parseArguments (meaning (directives ++ more)) rest := by
  induction hwrites generalizing directives with
  | nil => rw [List.append_nil, List.nil_append]
  | @cons directive more spelled args h hrest ih =>
      have hsplit : directives ++ directive :: more = directives ++ [directive] ++ more := by simp
      rw [hsplit] at hfits
      have hboth : WordsFit (wordsOf (directives ++ [directive])) := by
        rw [wordsOf_append] at hfits
        exact hfits.before
      have hbefore : WordsFit (wordsOf directives) := by
        rw [wordsOf_append] at hboth
        exact hboth.before
      rw [List.append_assoc, parseArguments_spelled h, CommandLine.goOn, take_meaning hbefore,
        if_pos hboth, hsplit]
      exact ih hfits

/-- What the loop makes of the arguments: the reading of all of them, or of those before
a request for help. -/
theorem parseArguments_reads (args : List String) {directives : List Directive}
    (hfits : WordsFit (wordsOf directives)) :
    (∃ line, parseArguments (meaning directives) args = .commandLine line ∧
        Reads directives args line) ∨
      (∃ before arg rest line, args = before ++ arg :: rest ∧
        arg ∈ ["-h", "--help", "--version"] ∧ Reads directives before line ∧
          parseArguments (meaning directives) args = .exit 0) ∨
        parseArguments (meaning directives) args = .exit 2 := by
  generalize hlength : args.length = length
  induction length using Nat.strongRecOn generalizing args directives with
  | ind length ih =>
      have hnone : Reads directives [] (meaning directives) := by
        refine ⟨[], .nil, ?_, ?_⟩
        · rw [List.append_nil]
          exact hfits
        · rw [List.append_nil]
      cases args with
      | nil => exact .inl ⟨_, rfl, hnone⟩
      | cons arg rest =>
          rcases parseArguments_cases (meaning directives) arg rest with
            ⟨harg, hexit⟩ | ⟨directive, spelled, after, hspelled, hargs⟩ | hrefused
          · exact .inr (.inl ⟨[], arg, rest, _, rfl, harg, hnone, hexit⟩)
          · rw [hargs] at hlength ⊢
            rw [parseArguments_spelled hspelled, CommandLine.goOn, take_meaning hfits]
            by_cases hmore : WordsFit (wordsOf (directives ++ [directive]))
            · rw [if_pos hmore]
              have hshorter : after.length < length := by
                have hpositive := List.length_pos_iff.mpr hspelled.ne_nil
                rw [List.length_append] at hlength
                omega
              rcases ih _ hshorter after hmore rfl with
                ⟨line, hline, hreads⟩ | ⟨before, arg', rest', line, rfl, harg, hreads, hexit⟩ |
                  hrefused
              · exact .inl ⟨line, hline, hreads.cons hspelled⟩
              · exact .inr (.inl ⟨spelled ++ before, arg', rest', line,
                  (List.append_assoc _ _ _).symm, harg, hreads.cons hspelled, hexit⟩)
              · exact .inr (.inr hrefused)
            · rw [if_neg hmore]
              exact .inr (.inr rfl)
          · exact .inr (.inr hrefused)

theorem parseArguments_help {arg : String} (harg : arg ∈ ["-h", "--help", "--version"])
    (line : CommandLine) (rest : List String) : parseArguments line (arg :: rest) = .exit 0 := by
  rw [parseArguments.eq_def]
  simp only [List.mem_cons, List.not_mem_nil, or_false] at harg
  rcases harg with rfl | rfl | rfl <;> simp

/-- A command line is accepted exactly when it can be read as directives whose words fit,
however they are spelled and mixed, and it means what the last directive of each kind and
the words in their order say. Help is given exactly when it is asked for after such
directives, and everything else is a usage error. -/
theorem parseArguments_accepts (args : List String) :
    (∀ line, parseArguments .initial args = .commandLine line ↔
      ∃ directives, Writes directives args ∧ WordsFit (wordsOf directives) ∧
        line = meaning directives) ∧
    (parseArguments .initial args = .exit 0 ↔
      ∃ directives before arg rest, args = before ++ arg :: rest ∧
        arg ∈ ["-h", "--help", "--version"] ∧ Writes directives before ∧
          WordsFit (wordsOf directives)) ∧
    ∀ code, parseArguments .initial args = .exit code → code = 0 ∨ code = 2 := by
  have hinitial : CommandLine.initial = meaning [] := rfl
  have hfits : WordsFit (wordsOf []) := .inl (Nat.zero_le 2)
  have hreads := parseArguments_reads args hfits
  rw [← hinitial] at hreads
  refine ⟨fun line => ⟨fun hline => ?_, ?_⟩, ⟨fun hexit => ?_, ?_⟩, fun code hexit => ?_⟩
  · rcases hreads with ⟨line', hline', more, hmore⟩ | ⟨_, _, _, _, -, -, -, hexit⟩ | hrefused
    · rw [hline] at hline'
      cases hline'
      exact ⟨more, hmore⟩
    · rw [hline] at hexit
      cases hexit
    · rw [hline] at hrefused
      cases hrefused
  · rintro ⟨directives, hwrites, hwords, rfl⟩
    have hall := @parseArguments_of_writes directives args hwrites [] hwords []
    rw [List.append_nil] at hall
    exact hall
  · rcases hreads with ⟨line, hline, -⟩ | ⟨before, arg, rest, line, hargs, harg, hread, -⟩ |
      hrefused
    · rw [hexit] at hline
      cases hline
    · obtain ⟨directives, hwrites, hwords, -⟩ := hread
      exact ⟨directives, before, arg, rest, hargs, harg, hwrites, hwords⟩
    · rw [hexit] at hrefused
      cases hrefused
  · rintro ⟨directives, before, arg, rest, rfl, harg, hwrites, hwords⟩
    have hall := @parseArguments_of_writes directives before hwrites [] hwords (arg :: rest)
    rw [hinitial, hall]
    exact parseArguments_help harg _ rest
  · rcases hreads with ⟨line, hline, -⟩ | ⟨_, _, _, _, -, -, -, hzero⟩ | hrefused
    · rw [hexit] at hline
      cases hline
    · rw [hexit] at hzero
      cases hzero
      exact .inl rfl
    · rw [hexit] at hrefused
      cases hrefused
      exact .inr rfl

end WchLink
