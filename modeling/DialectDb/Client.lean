/-
A client of a server: the connections and commands it has made, by
number, and the calls it can make.
-/
import DialectDb.Server

namespace DialectDb

/-- A server and what a client has made on it. A clone of a connection
has a number of its own, and is the same connection. -/
structure Client where
  server : Server
  connections : List Connection := []
  commands : List Command := []

/-- A call of a client. Connections and commands are meant by their
numbers. -/
inductive Call
  /-- Makes a connection, which is not open. -/
  | connect
  /-- Makes a connection and opens it. -/
  | connectOpen
  | cloneConnection (connection : Nat)
  | openConnection (connection : Nat)
  | closeConnection (connection : Nat)
  | createCommand (connection : Nat) (text : String)
  | setText (command : Nat) (text : String)
  | addParameter (command : Nat) (parameter : Parameter)
  | clearParameters (command : Nat)
  | execute (command : Nat)
  /-- Creates a command, adds parameters and executes it, without
  keeping it. -/
  | executeText (connection : Nat) (text : String) (parameters : Parameters)
  | createTable (table : Table)
  | insertRows (table : String) (rows : List Row)

/-- What a call gives. -/
inductive Reply
  | done
  | connection (number : Nat)
  | command (number : Nat)
  | changed (command : Command)
  | outcome (outcome : Outcome)
  | count (rows : Nat)

namespace Client

/-- The connection with a number. One that was never made is not
open. -/
def connection (client : Client) (number : Nat) : Result Connection :=
  match client.connections[number]? with
  | some c => .ok c
  | none => .error (.connection .notOpen)

def command (client : Client) (number : Nat) : Result Command :=
  match client.commands[number]? with
  | some c => .ok c
  | none => .error (.connection .notOpen)

/-- Gives a connection the next number. -/
def keepConnection (client : Client) (c : Connection) (server : Server) : Reply × Client :=
  (.connection client.connections.length,
    { client with server, connections := client.connections ++ [c] })

def setCommand (client : Client) (number : Nat) (command : Command) : Reply × Client :=
  (.changed command, { client with commands := client.commands.set number command })

/-- An action on the server of a client. -/
def onServer {α : Type} (x : Action Server α) : Action Client α :=
  x.onPart (·.server) fun client server => { client with server }

def executeCommand (command : Command) : Action Client Reply := do
  return .outcome (← onServer command.execute)

/-- A call that gives a reply and a new client, or fails and changes
nothing. -/
def replace (change : Client → Result (Reply × Client)) : Action Client Reply := do
  let (reply, client) ← change (← get)
  set client
  return reply

def call : Call → Action Client Reply
  | .connect => replace fun client =>
    let (c, server) := client.server.connect
    .ok (client.keepConnection c server)
  | .connectOpen => replace fun client => do
    let (c, server) ← client.server.connectOpen
    return client.keepConnection c server
  | .cloneConnection number => replace fun client => do
    return client.keepConnection (← client.connection number) client.server
  | .openConnection number => replace fun client => do
    let server ← client.server.openConnection (← client.connection number)
    return (.done, { client with server })
  | .closeConnection number => replace fun client => do
    let server ← client.server.closeConnection (← client.connection number)
    return (.done, { client with server })
  | .createCommand number text => replace fun client => do
    let command ← Command.create client.server (← client.connection number) text
    return (.command client.commands.length,
      { client with commands := client.commands ++ [command] })
  | .setText number text => replace fun client => do
    return client.setCommand number { (← client.command number) with text }
  | .addParameter number parameter => replace fun client => do
    let command ← client.command number
    return client.setCommand number
      { command with parameters := command.parameters ++ [parameter] }
  | .clearParameters number => replace fun client => do
    return client.setCommand number { (← client.command number) with parameters := [] }
  | .execute number => do
    executeCommand (← (← get).command number)
  | .executeText number text parameters => do
    let client ← get
    let command ← Command.create client.server (← client.connection number) text
    executeCommand { command with parameters }
  | .createTable table => do
    onServer (Server.onStore (Store.createTable table))
    return .done
  | .insertRows table rows => do
    return .count (← onServer (Server.onStore (Store.insertRows table rows)))

/-- Makes calls one after the other, whether they succeed or fail. -/
def run (client : Client) : List Call → List (Result Reply) × Client
  | [] => ([], client)
  | c :: rest =>
    let (reply, client) := (call c).perform client
    let (replies, client) := client.run rest
    (reply :: replies, client)

def start (version : DialectVersion) (registry : Registry) : Client :=
  { server := { version, registry, lifecycles := [.opened] }, connections := [⟨0⟩] }

end Client

end DialectDb
