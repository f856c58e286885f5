import DialogModel.Command.Run
import DialogModel.FileTree

/-!
# The command line

Reads the files that a command names and prints what the command says.
-/

namespace DialogModel.Command

/-- The reason for an error of the operating system. -/
def osReason : IO.Error → String
  | .noFileOrDirectory .. => FileTree.Fault.missing.message
  | .inappropriateType _ code details => s!"{details} (os error {code})"
  | .permissionDenied _ code details => s!"{details} (os error {code})"
  | .invalidArgument _ code details => s!"{details} (os error {code})"
  | e => toString e

/-- The text of a file, or why it cannot be read. -/
def readText (path : String) : IO (Except String String) := do
  try
    let content ← IO.FS.readBinFile path
    match String.fromUTF8? content with
    | some text => return .ok text
    | none => return .error FileTree.Fault.notText.message
  catch e => return .error (osReason e)

/-- How the command is used. -/
def usage : String :=
  "usage: [--output text|json] [--quiet] (parse [--kind luis|qna|all] | check) " ++
    "[--culture LOCALE] [--verbose] [--config FILE] [--offline] FILE"

end DialogModel.Command

open DialogModel.Command in
/-- Runs the command that the arguments name. -/
def main (arguments : List String) : IO UInt32 := do
  match Invocation.read? arguments with
  | none =>
    IO.eprintln usage
    return 2
  | some inv =>
    let config ← readText (inv.config.getD "")
    let source ← readText inv.file
    let outcome := inv.run config source
    IO.print outcome.stdout
    IO.eprint outcome.stderr
    return outcome.exitCode.toUInt32
