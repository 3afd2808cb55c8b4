import RowSchema.Command.Switch
import RowSchema.Options
import RowSchema.Text.Lines

/-! Command lines: one file, and switches before or after it. -/

namespace RowSchema

/-- What a command line asks for. -/
structure Command where
  file : String
  /-- the types to derive, all of them if there is none; a missing one has no name -/
  types : List (Option String) := []
  json : Bool := false
  verbose : Bool := false
  settings : Options := {}
deriving DecidableEq, Repr

namespace Command

/-- Whether the text to derive from is on standard input. -/
def readsInput (c : Command) : Bool := c.file == "-"

/-- How messages name the file. -/
def path (c : Command) : String := if c.readsInput then "<stdin>" else Text.plainPath c.file

inductive Invocation where
  | command (c : Command)
  | help
  | wrong
deriving DecidableEq, Repr

/-- What has been read of a command line. -/
structure Reader where
  file : Option String := none
  command : Command := { file := "" }
  /-- whether some word had no use -/
  hasSurplus : Bool := false

namespace Reader

def surplus (r : Reader) : Reader := { r with hasSurplus := true }

def configured (r : Reader) (settings : Options) : Reader :=
  { r with command := { r.command with settings } }

/-- The effect of an action; none if it asks for help. A separator in the place of a type is
dropped, which leaves a type without a name. -/
def perform? (r : Reader) : Action → Option Reader
  | .unknown => some r.surplus
  | .switch .help _ => none
  | .switch .type argument =>
    let type := argument.filter (· != "--")
    some { r with command := { r.command with types := r.command.types ++ [type] } }
  | .switch .json _ => some { r with command := { r.command with json := true } }
  | .switch .verbose _ => some { r with command := { r.command with verbose := true } }
  | .switch .collectAll _ => some (r.configured { r.command.settings with policy := .collectAll })
  | .switch .noIdConvention _ => some (r.configured { r.command.settings with inferId := false })
  | .switch .noPluralize _ => some (r.configured { r.command.settings with pluralize := false })

/-- The invocation at the end of the command line. -/
def finish (r : Reader) : Invocation :=
  match r.file with
  | some file => if r.hasSurplus then .wrong else .command { r.command with file }
  | none => .wrong

/-- Whether the last of some actions still lacks its argument. -/
def wantsArgument (actions : List Action) : Bool :=
  match actions.getLast? with
  | some (.switch s none) => s.takesArgument
  | _ => false

/-- The actions, of which the last one gets an argument. -/
def complete (actions : List Action) (argument : String) : List Action :=
  match actions.reverse with
  | .switch s _ :: before => (.switch s (some argument) :: before).reverse
  | _ => actions

/-- The rest of a command line. A separator belongs to the file next to it. -/
def read (r : Reader) : List Word → Invocation
  | [] => r.finish
  | .misused :: _ => .wrong
  | .separator :: rest =>
    match r.file, rest with
    | none, [.plain file] => { r with file := some file }.finish
    | _, _ => .wrong
  | .plain s :: .separator :: rest =>
    match r.file, rest with
    | none, [] => { r with file := some s }.finish
    | _, _ => .wrong
  | .plain s :: rest =>
    match r.file with
    | none => { r with file := some s }.read rest
    | some _ => r.surplus.read rest
  | .actions actions :: rest =>
    if wantsArgument actions then
      match rest with
      | .plain argument :: rest =>
        match (complete actions argument).foldlM perform? r with
        | some r => r.read rest
        | none => .help
      | _ => .wrong
    else
      match actions.foldlM perform? r with
      | some r => r.read rest
      | none => .help

end Reader

/-- What a command line says. -/
def ofArguments (arguments : List String) : Invocation :=
  match words? arguments with
  | some words => ({} : Reader).read words
  | none => .wrong

end Command

end RowSchema
