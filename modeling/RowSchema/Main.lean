import RowSchema.Command.Run

/-! The command line program. -/

namespace RowSchema

/-- What there is where a command looks for its text. -/
def Command.content (c : Command) : IO Content := do
  if c.readsInput then
    return .text (← (← IO.getStdin).readToEnd)
  else
    try return .text (← IO.FS.readFile c.path)
    catch
      | .inappropriateType .. => return .directory
      | .invalidArgument .. => return .nameTooLong
      | _ => return .missing

end RowSchema

open RowSchema

def main (arguments : List String) : IO UInt32 := do
  match Command.ofArguments arguments with
  | .help => return 0
  | .wrong => return 2
  | .command c =>
    match c.run (← c.content) with
    | .ok outcome =>
      IO.print (Outcome.text outcome.output)
      IO.eprint (Outcome.text outcome.errors)
      return outcome.exitCode.toUInt32
    | .error e =>
      IO.eprintln e.message
      return 1
