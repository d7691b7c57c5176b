/-
The shell: statements and commands as a user types them, and the lines
that are printed. A statement goes on over as many lines as it takes to
complete it; a command, which starts with an exclamation mark, has a
line of its own.
-/
import DialectDb.Cluster
import DialectDb.Dialect.Catalog
import DialectDb.Server
import DialectDb.Options

namespace DialectDb

-- =============================================================== shell

/-- A shell: a server, a connection to it, and whether column names are
shown above the rows of a query. -/
structure Shell where
  server : Server
  connection : Connection
  showHeaders : Bool := false

/-- What is printed: lines, and then the failure that ended them, if
any. -/
structure Printout where
  lines : List String := []
  failure : Option Error := none

/-- The message of a failure, as it is printed. -/
def Error.line (e : Error) : String :=
  "Error: " ++ e.message

namespace Shell

def print (lines : List String) : Printout := { lines }

def fail (e : Error) : Printout := { failure := some e }

def listed (items : List String) : String :=
  ", ".intercalate items

-- =========================================================== statements

/-- The lines of rows, up to the first failure. -/
def rowLines (rows : Rows) : Printout :=
  let (rows, failure) := rows.read
  { lines := rows.map fun row => listed (row.map Value.text), failure }

/-- The line for an effect. -/
def effectLine : Effect → String
  | .inserted n => s!"Inserted {n} rows"
  | .deleted n => s!"Deleted {n} rows"
  | .updated n => s!"Updated {n} rows"
  | .merged n => s!"Merged {n} rows"
  | .createdTable name => s!"Created table {name}"
  | .droppedTable name true => s!"Dropped table {name}"
  | .droppedTable name false => s!"Table {name} does not exist"

/-- What is printed for an outcome. -/
def outcomeLines (showHeaders : Bool) : Outcome → Printout
  | .effect e => print [effectLine e]
  | .answer a =>
    let rows := rowLines a.rows
    if showHeaders then { rows with lines := listed a.columns :: rows.lines } else rows

def executeStatement (shell : Shell) (text : String) : Printout × Shell :=
  match Command.create shell.server shell.connection text with
  | .error e => (fail e, shell)
  | .ok command =>
    match command.execute.perform shell.server with
    | (.ok outcome, server) => (outcomeLines shell.showHeaders outcome, { shell with server })
    | (.error e, server) => (fail e, { shell with server })

-- ============================================================= commands

def helpLines : List String :=
  ["",
    "Enter a SQL statement terminated by a semicolon (;) to execute it, or Ctrl-D to",
    "exit. The following commands are also available:",
    "",
    "    !dialect           Display the emulated dialect and version",
    "    !dialects          List the known dialects and versions",
    "    !headers           Toggles column headers",
    "    !help              This help message",
    "    !status            Display database status",
    "    !table NAME        Display a table schema",
    "    !tables            List tables",
    ""]

def versionList (d : Dialect) : String :=
  listed (d.versions.map toString)

/-- The lines of a command that takes no arguments and changes nothing;
none if there is no such command. -/
def report? (server : Server) : String → Option (List String)
  | "!dialect" =>
    let v := server.version
    some [s!"{v.dialect.name} version {v.version} (known versions: {versionList v.dialect})"]
  | "!dialects" => some (Dialect.all.map fun d => d.name ++ ": " ++ versionList d)
  | "!help" => some helpLines
  | "!status" =>
    let tables := server.store.tables.length
    let rows := server.store.rowCount
    some [s!"Database:  {server.version.text} with {tables} tables and {rows} rows"]
  | "!tables" => some (server.store.tables.map (·.name))
  | _ => none

/-- The line of a table, or that there is none. -/
def tableLines (server : Server) (name : String) : Printout :=
  match server.store.find? name with
  | some stored => print [stored.table.text]
  | none => fail (.invalid (.command (.noTable name)))

def executeCommand (shell : Shell) (command : String) (arguments : List String) :
    Printout × Shell :=
  match command, arguments with
  | "!table", [name] => (tableLines shell.server name, shell)
  | "!table", _ => (fail (.invalid (.command (.takesOne command))), shell)
  | "!headers", [] =>
    let line := if shell.showHeaders then "Headers disabled" else "Headers enabled"
    (print [line], { shell with showHeaders := !shell.showHeaders })
  | "!headers", _ => (fail (.invalid (.command (.takesNone command))), shell)
  | _, _ =>
    match report? shell.server command, arguments with
    | some lines, [] => (print lines, shell)
    | some _, _ => (fail (.invalid (.command (.takesNone command))), shell)
    | none, _ => (fail (.invalid (.command (.unknown command))), shell)

/-- The ASCII blanks, which separate the arguments of a command. -/
def separates (c : Char) : Bool :=
  c = ' ' || c = '\t' || c = '\n' || c = '\r' || c = '\x0c'

/-- The words of a command. -/
def words (text : String) : List String :=
  ((text.toList.splitOnP separates).filter (!·.isEmpty)).map .ofList

def execute (shell : Shell) (text : String) : Printout × Shell :=
  if text.startsWith "!" then
    match words text with
    | command :: arguments => shell.executeCommand command arguments
    | [] => (fail (.invalid (.command .missing)), shell)
  else if text = "" then ({}, shell)
  else shell.executeStatement text

-- ================================================================ input

/-- Whether a text has the end of a statement, or cannot be cut into
tokens. -/
def endsStatement (shell : Shell) (text : String) : Bool :=
  let lexed := Lexer.lex shell.server.version.dialect.lexical text
  lexed.failure.isSome || lexed.lexemes.any (·.token = .sign .semicolon)

/-- Whether a text is to be executed rather than continued on the next
line. What is wrong with it is found out on execution. -/
def isComplete (shell : Shell) (text : String) : Bool :=
  text = "" || text.startsWith "!" || text = ";" || shell.endsStatement text

/-- The `pending` lines with another line after them, and whether they
are complete. Backspaces reach back into the pending lines. Without
backspaces only the line is looked at: the pending lines were not
complete before it, and none of their tokens and comments goes on
in it. -/
def entryWith (shell : Shell) (pending line : String) : String × Bool :=
  if line.contains '\x08' then
    let entry := Cluster.withoutBackspaces (pending ++ line)
    (entry, shell.isComplete entry)
  else
    (pending ++ line, if pending = "" then shell.isComplete line else shell.endsStatement line)

/-- A text and the line break at its end, if any. -/
def splitLineBreak (text : String) : String × String :=
  match text.toList.reverse with
  | '\n' :: '\r' :: rest => (.ofList rest.reverse, "\r\n")
  | '\n' :: rest => (.ofList rest.reverse, "\n")
  | _ => (text, "")

/-- Takes a line, with its line break, after the `pending` lines before
it. What is complete is executed, and anything else is pending then. -/
def takeLine (shell : Shell) (pending line : String) : Printout × String × Shell :=
  let (line, lineBreak) := splitLineBreak line
  let (entry, complete) := shell.entryWith pending line
  if complete then
    let (printout, shell) := shell.execute (Text.trim entry)
    (printout, "", shell)
  else ({}, entry ++ lineBreak, shell)

def greeting (shell : Shell) : String :=
  s!"Connected to a mock {shell.server.version.text} database. "
    ++ "Enter !help for instructions."

/-- Takes lines one after the other. What is pending in the end is
dropped. -/
def takeLines (shell : Shell) (pending : String) : List String → List Printout
  | [] => []
  | line :: rest =>
    let (printout, pending, shell) := shell.takeLine pending line
    printout :: takeLines shell pending rest

-- ================================================================ runs

def start (options : Options) : Result Shell := do
  let name := options.dialect.getD Options.defaultDialect
  let version ← DialectVersion.lookup name options.version
  let (connection, server) ← Server.connectOpen { version, registry := Registry.defaults }
  return { server, connection }

/-- The lines of a text, with their line breaks. -/
def linesOf (text : String) : List String :=
  (lines text.toList).map .ofList
where
  /-- Cuts characters behind each line break. -/
  lines : List Char → List (List Char)
    | [] => []
    | '\n' :: rest => ['\n'] :: lines rest
    | c :: rest =>
      match lines rest with
      | [] => [[c]]
      | line :: more => (c :: line) :: more

/-- All that is printed: for the statement of the options or else, after
a greeting, for the lines of the input. -/
def transcript (options : Options) (input : String) : List Printout :=
  match start options with
  | .error e => [fail e]
  | .ok shell =>
    match options.statement with
    | some text => [(shell.execute text).1]
    | none => print [shell.greeting] :: shell.takeLines "" (linesOf input)

end Shell

end DialectDb
