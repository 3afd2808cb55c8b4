import RowSchema.Command.Arguments
import RowSchema.Report.Diagnostic
import RowSchema.Report.Json
import RowSchema.Report.Summary

/-! Running a command: the derivations of a declaration text, for people or as JSON. -/

namespace RowSchema

/-- What a run of the command prints, and whether it succeeds. -/
structure Outcome where
  succeeds : Bool
  output : List String := []
  errors : List String := []

namespace Outcome

/-- Lines of text. -/
def text (lines : List String) : String := String.join (lines.map (· ++ "\n"))

def exitCode (o : Outcome) : Nat := if o.succeeds then 0 else 1

/-- A run that only reports errors. -/
def failure (errors : List String) : Outcome := { succeeds := false, errors }

end Outcome

/-- Why a command is broken off. -/
inductive CommandError where
  | namelessType
  | isDirectory (path : String)
  | nameTooLong (path : String)
  | range (error : RangeError)
deriving DecidableEq, Repr

def CommandError.message : CommandError → String
  | namelessType => "unhashable type: 'list'"
  | isDirectory path => "[Errno 21] Is a directory: " ++ Text.literal path
  | nameTooLong path => "[Errno 36] File name too long: " ++ Text.literal path
  | range error => error.message

/-- What there is where a command looks for its text. -/
inductive Content where
  | missing
  | directory
  | nameTooLong
  | text (s : String)

namespace Content

/-- The bytes that the name of a file may have. -/
def nameLimit : Nat := 255

/-- The bytes that a path may have. -/
def pathLimit : Nat := 4095

/-- Directories that there are on every system. -/
def standardDirectories : List String :=
  ["bin", "dev", "etc", "home", "lib", "opt", "proc", "root", "sbin", "sys", "tmp", "usr", "var"]

/-- What a path from the root leads to. Its parts are the names after those that lead back. -/
def atRoot : List String → Content
  | [name] => if standardDirectories.contains name then .directory else .missing
  | ["dev", "null"] => .text ""
  | _ => .missing

/-- What a path leads to among files of one directory. Of files of one name the last one counts. -/
def among (files : List (String × String)) (path : String) : Content :=
  let parts := (Text.pathParts path).dropWhile (· == "..")
  if pathLimit < path.utf8ByteSize || parts.head?.any (nameLimit < ·.utf8ByteSize) then .nameTooLong
  else if parts.isEmpty then .directory
  else if !(Text.pathRoot path).isEmpty then atRoot parts
  else
    match files.reverse.find? fun (name, _) => Text.plainPath name == path with
    | some (_, s) => .text s
    | none => .missing

end Content

/-- The derivations of records by name, in order. -/
def Schema.deriveNamed (s : Schema) (names : List String) :
    Except RangeError (List (Derivation Derived)) × Schema :=
  s.deriveEach (names.filterMap fun name => s.registry.record? (.name name))

namespace Command

/-- The outcome for derivations: documents, or summaries beside the diagnostics. -/
def report (c : Command) (source : String) (derivations : List (Derivation Derived)) : Outcome :=
  let succeeds := derivations.all (·.ok)
  if c.json then
    { succeeds, output := [(JsonValue.array (derivations.map (·.json))).render] }
  else
    let summaries := derivations.filterMap fun d => d.result.map (·.summary)
    { succeeds
      output := if summaries.isEmpty then [] else ["\n\n".intercalate summaries]
      errors := derivations.flatMap fun d => d.diagnostics.map (·.report source c.path) }

/-- The names of the types, all of them registered, or the outcome if one is not. -/
def checkTypes (registry : Registry) :
    List (Option String) → Except CommandError (Except String (List String))
  | [] => .ok (.ok [])
  | none :: _ => .error .namelessType
  | some name :: rest =>
    if registry.contains (.name name) then
      (checkTypes registry rest).map fun names => names.map (name :: ·)
    else .ok (.error name)

/-- The outcome for a declaration text. -/
def runOn (c : Command) (source : String) : Except CommandError Outcome := do
  let logged (s : Schema) : List String := if c.verbose then s.progress.log.map Event.line else []
  match Schema.parse { settings := c.settings } source with
  | (s, .error e) => return .failure (logged s ++ [c.path ++ ": error: " ++ e.message])
  | (s, .ok _) =>
    let types := if c.types.isEmpty then s.registry.list.map (some ·.name) else c.types
    match ← checkTypes s.registry types with
    | .error name => return .failure (logged s ++ ["Error: Unknown type: " ++ name])
    | .ok names =>
      let (derivations, s) := s.deriveNamed names
      let outcome := c.report source (← derivations.mapError .range)
      return { outcome with errors := logged s ++ outcome.errors }

/-- The outcome for what the file is. Line ends of files are unified; standard input is taken as it
is. -/
def run (c : Command) : Content → Except CommandError Outcome
  | .missing => .ok (.failure ["Error: File not found: " ++ c.path])
  | .directory => .error (.isDirectory c.path)
  | .nameTooLong => .error (.nameTooLong c.path)
  | .text s => c.runOn (if c.readsInput then s else String.ofList (Text.unifyLineEnds s.toList))

end Command

end RowSchema
