/-
A server: a database, the registry its statements run by, and the
connections to it. A connection is opened at most once and closed at
most once. It is a number here, so a copy of it is the same connection.
-/
import DialectDb.Engine

namespace DialectDb

-- ========================================================== lifecycle

/-- How far a connection has come. Once closed it stays closed. -/
inductive Lifecycle
  | new
  | opened
  | closed
deriving DecidableEq

namespace Lifecycle

/-- Opening, which only a new connection can. -/
def afterOpening : Lifecycle → Result Lifecycle
  | new => .ok opened
  | opened => .error (.connection .alreadyOpen)
  | closed => .error (.connection .cannotReopen)

/-- Closing, which only an open connection can. -/
def afterClosing : Lifecycle → Result Lifecycle
  | opened => .ok closed
  | new => .error (.connection .notOpen)
  | closed => .error (.connection .alreadyClosed)

/-- The state as callers see it: a connection is open or it is not. -/
def text : Lifecycle → String
  | opened => "Open"
  | new | closed => "Closed"

end Lifecycle

-- ============================================================== server

/-- A connection: its place among the connections of its server. -/
structure Connection where
  number : Nat
deriving DecidableEq

/-- A database of a dialect version, with the connections to it. -/
structure Server where
  version : DialectVersion
  registry : Registry
  store : Store := {}
  lifecycles : List Lifecycle := []

namespace Server

/-- How far a connection has come; a number that no connection has is
like that of a new one. -/
def lifecycle (s : Server) (c : Connection) : Lifecycle :=
  s.lifecycles[c.number]?.getD .new

def isOpen (s : Server) (c : Connection) : Bool :=
  s.lifecycle c = .opened

def checkOpen (s : Server) (c : Connection) : Result Unit :=
  if s.isOpen c then .ok () else .error (.connection .notOpen)

/-- Moves a connection to another state. -/
def setLifecycle (s : Server) (c : Connection) (state : Lifecycle) : Server :=
  { s with lifecycles := s.lifecycles.set c.number state }

/-- Makes a new connection, which is not open. -/
def connect (s : Server) : Connection × Server :=
  (⟨s.lifecycles.length⟩, { s with lifecycles := s.lifecycles ++ [.new] })

/-- An action on the store of a server. -/
def onStore {α : Type} (x : Action Store α) : Action Server α :=
  x.onPart (·.store) fun s store => { s with store }

def openConnection (s : Server) (c : Connection) : Result Server := do
  return s.setLifecycle c (← (s.lifecycle c).afterOpening)

def closeConnection (s : Server) (c : Connection) : Result Server := do
  return s.setLifecycle c (← (s.lifecycle c).afterClosing)

def connectOpen (s : Server) : Result (Connection × Server) := do
  let (c, s) := s.connect
  return (c, ← s.openConnection c)

/-- A connection with its fields, as messages show it. -/
def connectionText (s : Server) (c : Connection) : String :=
  "Connection \x7b dialect: " ++ Text.quoted s.version.text ++ ", state: "
    ++ (s.lifecycle c).text ++ " \x7d"

end Server

-- ============================================================ commands

/-- The text of a statement for a connection, with its parameters. It
can outlive the connection, and then no longer be executed. -/
structure Command where
  connection : Connection
  text : String
  parameters : Parameters := []
deriving DecidableEq

namespace Command

def create (s : Server) (c : Connection) (text : String) : Result Command := do
  s.checkOpen c
  return { connection := c, text }

/-- The engine that executes a command, if its connection is open. -/
def engine (command : Command) (s : Server) : Result Engine := do
  s.checkOpen command.connection
  s.registry.resolve s.version.dialect.name s.version command.parameters

def execute (command : Command) : Action Server Outcome := do
  let engine ← command.engine (← get)
  Server.onStore (engine.run command.text)

end Command

end DialectDb
