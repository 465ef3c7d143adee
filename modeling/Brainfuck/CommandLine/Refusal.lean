import Brainfuck.Text.Visible

/-!
# Refusals

Why a command line names nothing to do. A refusal is a cause; the words of its
diagnostic are given by `Refusal.diagnostic?`, and the requests for help and for
the version, which are no mistakes, have none. Of the words that a diagnostic
repeats it shows the visible part.
-/

namespace Brainfuck.CommandLine

open Text.Visible (visible)

/-- The options that take a value. -/
inductive Setting where
  | logLevel
  | codec
  deriving DecidableEq, Repr

namespace Setting

/-- The name of an option, without its hyphens. -/
def name : Setting -> String
  | .logLevel => "log-level"
  | .codec => "codec"

/-- An option and the place of its value, as diagnostics show them. -/
def usage : Setting -> String
  | .logLevel => "--log-level <LOG_LEVEL>"
  | .codec => "--codec <CODEC>"

/-- What a diagnostic adds about a value that cannot be read. -/
def hint : Setting -> String
  | .logLevel => ": attempted to convert a string that doesn't match an existing log level"
  | .codec => ""

end Setting

/-- Why a command line is not carried out. -/
inductive Refusal where
  | helpRequested
  | versionRequested
  /-- There is nothing on the command line. -/
  | nothingGiven
  /-- There are options, but no subcommand. -/
  | subcommandMissing
  /-- A word stands where a subcommand belongs and names none. -/
  | subcommandUnknown
  | argumentUnexpected (argument : String)
  | settingRepeated (setting : Setting)
  | valueMissing (setting : Setting)
  | valueInvalid (setting : Setting) (value : String)
  /-- A flag was given a value. -/
  | valueUnwanted (flag value : String)
  deriving DecidableEq, Repr

namespace Refusal

/-- Whether a refusal is answered with the usage of the tool. -/
def showsUsage : Refusal -> Bool
  | .nothingGiven => true
  | .subcommandMissing => true
  | .subcommandUnknown => true
  | _ => false

/-- The first line of the diagnostic of a mistake. -/
def diagnostic? : Refusal -> Option String
  | .argumentUnexpected argument =>
      some ("error: unexpected argument '" ++ visible argument ++ "' found")
  | .settingRepeated setting =>
      some ("error: the argument '" ++ setting.usage ++ "' cannot be used multiple times")
  | .valueMissing setting =>
      some ("error: a value is required for '" ++ setting.usage ++ "' but none was supplied")
  | .valueInvalid setting value =>
      some ("error: invalid value '" ++ visible value ++ "' for '" ++ setting.usage ++ "'" ++
        setting.hint)
  | .valueUnwanted flag value =>
      some ("error: unexpected value '" ++ visible value ++ "' for '" ++ flag ++
        "' found; no more were expected")
  | _ => none

end Refusal

end Brainfuck.CommandLine
