import WireDock.Library.Text
import Mathlib.Data.List.Forall2

namespace WireDock

structure CliArgs where
  logLevel : UInt8
  helpRequested : Bool
deriving DecidableEq, Repr

inductive CliError
  | unknown (arg : String)
  | badValue (arg : String)
deriving DecidableEq, Repr

def CliError.message : CliError → String
  | unknown s => s!"unknown argument: {s}"
  | badValue s => s!"invalid value: {s}"

namespace CliArgs

def level : String → Option UInt8
  | "trace" => some 0
  | "info" => some 1
  | "warn" => some 2
  | "error" => some 3
  | _ => none

def argument (args : CliArgs) (a : String) : Except CliError CliArgs :=
  if a = "--help" ∨ a = "-h" then .ok { args with helpRequested := true }
  else match Text.dropPrefix "--log-level=".toList a.toList with
    | some v =>
      match level (String.ofList v) with
      | some logLevel => .ok { args with logLevel }
      | none => .error (.badValue a)
    | none => .error (.unknown a)

def parseSlice (argv : List String) : Except CliError CliArgs := argv.foldlM argument ⟨1, false⟩

def usage : String :=
  "usage: wiredock [--log-level=trace|info|warn|error] [--help]

Interactive CLI to test software over TCP and Unix-domain sockets.
Type commands at the prompt. See docs for the full command set.
"

end CliArgs

structure StderrLogger where
  minLevel : UInt8
deriving DecidableEq, Repr

namespace StderrLogger

def write (logger : StderrLogger) (levelNum : UInt8) (tag msg : String) : List String :=
  if levelNum < logger.minLevel then [] else [s!"[{tag}] {msg}"]

def info (logger : StderrLogger) (msg : String) : List String := logger.write 1 "INFO " msg

def warn (logger : StderrLogger) (msg : String) : List String := logger.write 2 "WARN " msg

def error (logger : StderrLogger) (msg : String) : List String := logger.write 3 "ERROR" msg

end StderrLogger

/-- What `main` does with its arguments: it leaves with an exit code and some lines, or
goes on with a logger. -/
inductive Startup
  | exit (code : UInt8) (lines : List String)
  | run (logger : StderrLogger)
deriving DecidableEq, Repr

def start (argv : List String) : Startup :=
  match CliArgs.parseSlice argv with
  | .error e => .exit 2 [e.message, CliArgs.usage]
  | .ok args => if args.helpRequested then .exit 0 [CliArgs.usage] else .run ⟨args.logLevel⟩

inductive LogLevel
  | trace
  | info
  | warn
  | error
deriving DecidableEq, Repr

namespace LogLevel

def name : LogLevel → String
  | trace => "trace"
  | info => "info"
  | warn => "warn"
  | error => "error"

def number : LogLevel → UInt8
  | trace => 0
  | info => 1
  | warn => 2
  | error => 3

end LogLevel

inductive CliWord
  | help
  | logLevel (level : LogLevel)
deriving DecidableEq, Repr

def CliWord.level? : CliWord → Option LogLevel
  | help => none
  | logLevel level => some level

inductive CliWord.Spelled : String → CliWord → Prop
  | help : Spelled "--help" .help
  | short : Spelled "-h" .help
  | logLevel (level : LogLevel) : Spelled ("--log-level=" ++ level.name) (.logLevel level)

/-- What the words of a command line come to: the last level asked for, and help if
any word asks for it. -/
def CliArgs.ofWords (words : List CliWord) : CliArgs where
  logLevel := ((words.filterMap CliWord.level?).getLast?.map LogLevel.number).getD 1
  helpRequested := decide (.help ∈ words)

section Words

variable {a : String} {word : CliWord} {args : CliArgs}

theorem level_name (level : LogLevel) : CliArgs.level level.name = some level.number := by
  cases level <;> rfl

theorem level_eq_some {v : String} {n : UInt8} (h : CliArgs.level v = some n) :
    ∃ level : LogLevel, v = level.name ∧ n = level.number := by
  unfold CliArgs.level at h
  split at h
  · exact ⟨.trace, rfl, (Option.some.inj h).symm⟩
  · exact ⟨.info, rfl, (Option.some.inj h).symm⟩
  · exact ⟨.warn, rfl, (Option.some.inj h).symm⟩
  · exact ⟨.error, rfl, (Option.some.inj h).symm⟩
  · cases h

def CliArgs.read (args : CliArgs) : CliWord → CliArgs
  | .help => { args with helpRequested := true }
  | .logLevel level => { args with logLevel := level.number }

theorem dropPrefix_logLevel (level : LogLevel) :
    Text.dropPrefix "--log-level=".toList ("--log-level=" ++ level.name).toList =
      some level.name.toList := by
  rw [String.toList_append, Text.dropPrefix_append]

theorem argument_spelled (h : CliWord.Spelled a word) (args : CliArgs) :
    args.argument a = .ok (args.read word) := by
  cases h with
  | help | short => rfl
  | logLevel level =>
    have hhelp : ¬("--log-level=" ++ level.name = "--help" ∨
        "--log-level=" ++ level.name = "-h") := by
      cases level <;> decide
    rw [CliArgs.argument, if_neg hhelp, dropPrefix_logLevel]
    simp only [String.ofList_toList, level_name]
    rfl

def CliError.of (a : String) : CliError :=
  if (Text.dropPrefix "--log-level=".toList a.toList).isSome then .badValue a else .unknown a

theorem argument_unspelled (h : ∀ word, ¬CliWord.Spelled a word) (args : CliArgs) :
    args.argument a = .error (.of a) := by
  have hhelp : ¬(a = "--help" ∨ a = "-h") := by
    intro ha
    rcases ha with rfl | rfl
    · exact h _ .help
    · exact h _ .short
  rw [CliArgs.argument, if_neg hhelp, CliError.of]
  cases hv : Text.dropPrefix "--log-level=".toList a.toList with
  | none => rfl
  | some v =>
    cases hl : CliArgs.level (String.ofList v) with
    | none => simp only [hl, Option.isSome_some, if_true]
    | some n =>
      obtain ⟨level, hname, -⟩ := level_eq_some hl
      have ha : a = "--log-level=" ++ level.name := by
        rw [← hname]
        exact String.toList_inj.mp (by simpa using Text.dropPrefix_eq_some hv)
      subst ha
      exact (h _ (.logLevel level)).elim

theorem read_ofWords (words : List CliWord) (word : CliWord) :
    (CliArgs.ofWords words).read word = .ofWords (words ++ [word]) := by
  cases word with
  | help => simp [CliArgs.read, CliArgs.ofWords, CliWord.level?]
  | logLevel level => simp [CliArgs.read, CliArgs.ofWords, CliWord.level?]

theorem foldl_read (words : List CliWord) : words.foldl CliArgs.read ⟨1, false⟩ = .ofWords words := by
  induction words using List.reverseRecOn with
  | nil => rfl
  | append_singleton words word ih =>
    rw [List.foldl_append, List.foldl_cons, List.foldl_nil, ih, read_ofWords]

theorem foldlM_spelled {argv : List String} {words : List CliWord}
    (h : List.Forall₂ CliWord.Spelled argv words) (args : CliArgs) :
    argv.foldlM CliArgs.argument args = .ok (words.foldl CliArgs.read args) := by
  induction h generalizing args with
  | nil => rfl
  | cons hword _ ih =>
    rw [List.foldlM_cons, argument_spelled hword]
    exact ih _

theorem parseSlice_spelled {argv : List String} {words : List CliWord}
    (h : List.Forall₂ CliWord.Spelled argv words) :
    CliArgs.parseSlice argv = .ok (.ofWords words) := by
  rw [CliArgs.parseSlice, foldlM_spelled h, foldl_read]

theorem parseSlice_unspelled {before : List String} {words : List CliWord}
    (h : List.Forall₂ CliWord.Spelled before words) (ha : ∀ word, ¬CliWord.Spelled a word)
    (after : List String) :
    CliArgs.parseSlice (before ++ a :: after) = .error (.of a) := by
  rw [CliArgs.parseSlice, List.foldlM_append, foldlM_spelled h]
  change (a :: after).foldlM CliArgs.argument _ = _
  rw [List.foldlM_cons, argument_unspelled ha]
  rfl

theorem spelled_or_first (argv : List String) :
    (∃ words, List.Forall₂ CliWord.Spelled argv words) ∨
      ∃ before a after, argv = before ++ a :: after ∧
        (∃ words, List.Forall₂ CliWord.Spelled before words) ∧ ∀ word, ¬CliWord.Spelled a word := by
  induction argv with
  | nil => exact .inl ⟨[], .nil⟩
  | cons b argv ih =>
    by_cases hb : ∃ word, CliWord.Spelled b word
    · obtain ⟨word, hword⟩ := hb
      rcases ih with ⟨words, hwords⟩ | ⟨before, a, after, rfl, ⟨words, hwords⟩, ha⟩
      · exact .inl ⟨word :: words, .cons hword hwords⟩
      · exact .inr ⟨b :: before, a, after, rfl, ⟨word :: words, .cons hword hwords⟩, ha⟩
    · exact .inr ⟨[], b, argv, rfl, ⟨[], .nil⟩, not_exists.mp hb⟩

theorem ofWords_logLevel_le (words : List CliWord) : (CliArgs.ofWords words).logLevel ≤ 3 := by
  have hlevel : ∀ last : Option LogLevel, (last.map LogLevel.number).getD 1 ≤ 3 := by
    intro last
    cases last with
    | none => decide
    | some level => cases level <;> decide
  exact hlevel _

end Words

/-- The command line is read as documented: it is accepted when every argument spells a
word, the last level counting and any request for help; otherwise the first argument that
spells none is named, with its kind. Whatever is accepted, errors are logged. -/
theorem arguments_read_as_documented (argv : List String) :
    (∀ args, CliArgs.parseSlice argv = .ok args ↔
      ∃ words, List.Forall₂ CliWord.Spelled argv words ∧ args = .ofWords words) ∧
    (∀ e, CliArgs.parseSlice argv = .error e ↔
      ∃ before a after, argv = before ++ a :: after ∧
        (∃ words, List.Forall₂ CliWord.Spelled before words) ∧
        (∀ word, ¬CliWord.Spelled a word) ∧ e = .of a) ∧
    ∀ logger msg, start argv = .run logger → logger.error msg = [s!"[ERROR] {msg}"] := by
  rcases spelled_or_first argv with ⟨words, hwords⟩ | ⟨before, a, after, rfl, ⟨words, hwords⟩, ha⟩
  · have hparse := parseSlice_spelled hwords
    refine ⟨fun args ↦ ⟨fun h ↦ ?_, fun h ↦ ?_⟩, fun e ↦ ⟨fun h ↦ ?_, fun h ↦ ?_⟩, ?_⟩
    · exact ⟨words, hwords, (Except.ok.inj (hparse.symm.trans h)).symm⟩
    · obtain ⟨words', hwords', rfl⟩ := h
      exact parseSlice_spelled hwords'
    · cases hparse.symm.trans h
    · obtain ⟨before, a, after, rfl, ⟨words', hwords'⟩, ha, rfl⟩ := h
      exact parseSlice_unspelled hwords' ha after
    · intro logger msg hstart
      simp only [start, hparse] at hstart
      split_ifs at hstart
      cases hstart
      exact if_neg (UInt8.not_lt.mpr (ofWords_logLevel_le words))
  · have hparse := parseSlice_unspelled hwords ha after
    refine ⟨fun args ↦ ⟨fun h ↦ ?_, fun h ↦ ?_⟩, fun e ↦ ⟨fun h ↦ ?_, fun h ↦ ?_⟩, ?_⟩
    · cases hparse.symm.trans h
    · obtain ⟨words', hwords', rfl⟩ := h
      exact parseSlice_spelled hwords'
    · exact ⟨before, a, after, rfl, ⟨words, hwords⟩, ha,
        (Except.error.inj (hparse.symm.trans h)).symm⟩
    · obtain ⟨before', a', after', he, ⟨words', hwords'⟩, ha', rfl⟩ := h
      rw [he]
      exact parseSlice_unspelled hwords' ha' after'
    · intro logger msg hstart
      simp only [start, hparse] at hstart
      cases hstart

end WireDock
