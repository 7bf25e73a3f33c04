import HubFederation.Options.Basic
import HubFederation.Text.Cut

/-!
# The command line

Every option is long and takes one value, `--option value` or `--option=value`. An option
can be given once. Nothing else is accepted: no other option, no short option, and no
word that belongs to no option.

* `Settings.ofWords` reads a command line.

A value that comes as a word of its own is looked at when the next option or the end is
reached, so an unknown option is noticed before a bad value in front of it.
-/
namespace HubFederation

/-- Why a command line is refused. -/
inductive UsageError where
  | unknownArgument (word : String)
  | missingValue (k : Setting)
  /-- The option is given twice. -/
  | repeated (k : Setting)
  | badValue (k : Setting) (value : String)
  deriving DecidableEq, Repr

namespace UsageError

def message : UsageError → String
  | unknownArgument w => "unexpected argument '" ++ w ++ "' found"
  | missingValue k => "a value is required for '--" ++ k.text ++ "' but none was supplied"
  | repeated k => "the argument '--" ++ k.text ++ "' cannot be used multiple times"
  | badValue k v => "invalid value '" ++ v ++ "' for '--" ++ k.text ++ "'"

end UsageError

/-- What a word of a command line looks like. -/
inductive Word where
  /-- Two hyphens: no option follows. -/
  | endOfOptions
  /-- An option by name, with the value attached to it. -/
  | long (name : String) (value : Option String)
  | short
  | plain
  deriving DecidableEq, Repr

/-- What has been read of a command line. -/
structure OptionReader where
  settings : Settings
  /-- The options given, each with its value in place. -/
  given : List Setting
  /-- The option read last, and the word after it, unless they are in place. -/
  pending : Option (Setting × Option String)
  deriving DecidableEq

def Word.ofString (s : String) : Word :=
  match s.toList with
  | ['-', '-'] => endOfOptions
  | '-' :: '-' :: rest => match Text.cutFirst '=' rest with
    | some (name, value) => long (String.ofList name) (some (String.ofList value))
    | none => long (String.ofList rest) none
  | '-' :: _ :: _ => short
  | _ => plain

namespace OptionReader

def start : OptionReader := ⟨{}, [], none⟩

/-- Puts the value of an option in place. -/
def give (r : OptionReader) (k : Setting) (value : String) : Except UsageError OptionReader :=
  if k ∈ r.given then .error (.repeated k)
  else match r.settings.set? k value with
    | some settings => .ok { r with settings, given := r.given ++ [k] }
    | none => .error (.badValue k value)

/-- Puts the pending option in place. -/
def settle (r : OptionReader) : Except UsageError OptionReader :=
  match r.pending with
  | none => .ok r
  | some (k, none) => .error (.missingValue k)
  | some (k, some value) => { r with pending := none }.give k value

/-- Reads an option. -/
def option (r : OptionReader) (k : Setting) (value : Option String) :
    Except UsageError OptionReader := do
  let r ← r.settle
  match value with
  | some value => r.give k value
  | none => return { r with pending := some (k, none) }

def words (r : OptionReader) : List String → Except UsageError OptionReader
  | [] => r.settle
  | w :: ws =>
    match Word.ofString w with
    | .endOfOptions => match ws with
      | [] => r.settle
      | w' :: _ => .error (.unknownArgument w')
    | .long name value => match Setting.ofText? name with
      | some k => do (← r.option k value).words ws
      | none => .error (.unknownArgument w)
    | .short => .error (.unknownArgument w)
    | .plain => match r.pending with
      | some (k, none) => { r with pending := some (k, some w) }.words ws
      | _ => .error (.unknownArgument w)

end OptionReader

namespace Settings

/-- Reads a command line; `envNs` is the namespace that the environment asks for, which an
option overrules. -/
def ofWords (envNs : Option String) (ws : List String) : Except UsageError Settings :=
  (OptionReader.start.words ws).map fun r =>
    match envNs with
    | some ns => if Setting.ns ∈ r.given then r.settings else { r.settings with ns }
    | none => r.settings

end Settings

end HubFederation
