import Brainfuck.Event
import Brainfuck.Text.Blank
import Brainfuck.Text.Pattern.Reading

/-!
# Log filters

Which events are shown. A filter has a fallback level and directives for the
targets that begin with a given text; of the directives that apply, the one with
the longest text decides. There may be a pattern besides, which has to occur in
the words of an event. A filter is written as a list of entries between commas: a
level for the fallback, `target=level` for a directive, or a target alone for one
that shows everything. Behind a slash follows the pattern. What cannot be read is
skipped with a warning.
-/

namespace Brainfuck.CommandLine

open Text (trim)
open Text.Pattern (Expression)

/-- How much is shown. -/
inductive Verbosity where
  | off
  | upTo (severity : Severity)
  deriving DecidableEq, Repr

namespace Verbosity

/-- Whether an event is shown. -/
def shows : Verbosity -> Event -> Bool
  | .off, _ => false
  | .upTo severity, event => event.reaches severity

/-- A verbosity by its name, in whichever case. -/
def ofName? (name : String) : Option Verbosity :=
  match Severity.ofName? name with
  | some severity => some (.upTo severity)
  | none => if name.toList.map Char.toUpper = ['O', 'F', 'F'] then some .off else none

end Verbosity

/-- A verbosity for the targets that begin with a text. -/
structure Directive where
  target : List Char
  verbosity : Verbosity
  deriving DecidableEq, Repr

/-- A fallback verbosity, directives for targets, no two for one text, and perhaps a
pattern for the words of events. -/
structure LogFilter where
  fallback : Verbosity
  directives : List Directive
  pattern? : Option Expression
  deriving DecidableEq, Repr

namespace LogFilter

/-- Warnings and errors are shown when nothing else is asked for. -/
def standard : LogFilter where
  fallback := .upTo .warn
  directives := []
  pattern? := none

/-- The directive with the longest text that a target begins with. -/
def governing? (target : List Char) : List Directive -> Option Directive
  | [] => none
  | directive :: rest =>
      match governing? target rest with
      | none => if directive.target.isPrefixOf target then some directive else none
      | some other =>
          if directive.target.isPrefixOf target ∧ other.target.length < directive.target.length
          then some directive
          else some other

/-- The verbosity for a target. -/
def verbosityFor (filter : LogFilter) (target : String) : Verbosity :=
  match governing? target.toList filter.directives with
  | some directive => directive.verbosity
  | none => filter.fallback

/-- Whether the words of an event are asked for; without a pattern all are. -/
def selects (filter : LogFilter) (event : Event) : Bool :=
  filter.pattern?.all (·.occursIn event.message)

/-- Whether an event is shown: it has to be severe enough for its target, and its
words have to be asked for. -/
def shows (filter : LogFilter) (event : Event) : Bool :=
  (filter.verbosityFor event.target).shows event && filter.selects event

/-- The same directives and pattern with another fallback. -/
def withFallback (filter : LogFilter) (verbosity : Verbosity) : LogFilter where
  fallback := verbosity
  directives := filter.directives
  pattern? := filter.pattern?

/-- Adds a directive, in the place of an earlier one for the same text. -/
def insert (filter : LogFilter) (directive : Directive) : LogFilter where
  fallback := filter.fallback
  directives := directive :: filter.directives.filter (·.target ≠ directive.target)
  pattern? := filter.pattern?

/-- The same filter with a pattern. -/
def withPattern (filter : LogFilter) (pattern : Expression) : LogFilter where
  fallback := filter.fallback
  directives := filter.directives
  pattern? := some pattern

/-- The warning about a part of a filter that cannot be read. -/
def warning (part : List Char) : String :=
  "warning: invalid logging spec '" ++ String.ofList part ++ "', ignoring it"

/-- Reads one entry into a filter, or warns. -/
def readEntry (filter : LogFilter) (entry : List Char) : Except String LogFilter :=
  match entry.splitOn '=' with
  | [name] =>
      match Verbosity.ofName? (String.ofList name) with
      | some verbosity => .ok (filter.withFallback verbosity)
      | none => .ok (filter.insert ⟨name, .upTo .trace⟩)
  | [target, level] =>
      match trim level with
      | [] => .ok (filter.insert ⟨target, .upTo .trace⟩)
      | part =>
          match Verbosity.ofName? (String.ofList part) with
          | some verbosity => .ok (filter.insert ⟨target, verbosity⟩)
          | none => .error (warning part)
  | _ => .error (warning entry)

/-- Reads entries one after another; blank ones are skipped. -/
def readEntries (filter : LogFilter) : List (List Char) -> LogFilter × List String
  | [] => (filter, [])
  | entry :: rest =>
      if trim entry = [] then readEntries filter rest
      else
        match readEntry filter (trim entry) with
        | .ok extended => readEntries extended rest
        | .error complaint =>
            let (final, complaints) := readEntries filter rest
            (final, complaint :: complaints)

/-- Reads a pattern into a filter, or warns. -/
def readPattern (filter : LogFilter) (text : List Char) : LogFilter × List String :=
  match Expression.ofText text with
  | .ok pattern => (filter.withPattern pattern, [])
  | .error defect => (filter, ["warning: invalid regex filter - " ++ defect.describe text])

/-- Reads a written filter on top of the standard one. With more than one slash
nothing of it counts. -/
def ofText (text : List Char) : LogFilter × List String :=
  match text.splitOn '/' with
  | [entries] => readEntries standard (entries.splitOn ',')
  | [entries, pattern] =>
      let (filter, complaints) := readEntries standard (entries.splitOn ',')
      let (final, more) := filter.readPattern pattern
      (final, complaints ++ more)
  | _ => (standard, [warning text ++ " (too many '/'s)"])

/-- Reads a filter if there is one; without one it is the standard filter. -/
def ofText? : Option String -> LogFilter × List String
  | none => (standard, [])
  | some text => ofText text.toList

end LogFilter

end Brainfuck.CommandLine
