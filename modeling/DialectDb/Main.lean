/-
The program: a shell on the standard input and output.
-/
import DialectDb.Shell

namespace DialectDb

def Printout.show (printout : Printout) : IO Unit := do
  for line in printout.lines do
    IO.println line
  if let some e := printout.failure then
    IO.eprintln e.line

/-- Takes lines until the input ends. -/
partial def Shell.loop (shell : Shell) (pending : String) (input : IO.FS.Stream) : IO Unit := do
  let line ← input.getLine
  if line.isEmpty then return
  let (printout, pending, shell) := shell.takeLine pending line
  printout.show
  shell.loop pending input

def Shell.runWith (options : Options) : IO Unit := do
  match Shell.start options with
  | .error e => IO.eprintln e.line
  | .ok shell =>
    match options.statement with
    | some text => (shell.execute text).1.show
    | none =>
      IO.println shell.greeting
      shell.loop "" (← IO.getStdin)

end DialectDb

def main (arguments : List String) : IO UInt32 := do
  match DialectDb.Options.ofArguments arguments with
  | .ok options => DialectDb.Shell.runWith options; return 0
  | .error fault => IO.eprintln fault.message; return 2
