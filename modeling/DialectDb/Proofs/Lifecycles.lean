/-
The life of connections over a run of calls. What has become of each
connection can be told from the calls and their replies alone, which is
what `History` keeps: a number stands for the connection it was given
to, a clone's number for that of what it is a clone of, and a connection
is open iff its opening has succeeded and its closing has not. The
server keeps a state for each connection and nothing else, and a client
the connections of its numbers and commands. That the two accounts agree
is kept by every call (`call_agrees`), hence by every run, and the law
of connections (`Obeys`) is read off it.
-/
import DialectDb.Client
import DialectDb.Proofs.Action
import DialectDb.Proofs.Result

namespace DialectDb

open DialectDb.Action

-- ============================================================= commands

/-- What the execution of a command does once its connection has been
found open: an engine is resolved, and runs the text. -/
def Command.resolved (command : Command) : Action Server Outcome := do
  let s ← get
  let engine ← s.registry.resolve s.version.dialect.name s.version command.parameters
  Server.onStore (engine.run command.text)

theorem Command.create_eq (s : Server) (c : Connection) (text : String) :
    Command.create s c text =
      if s.isOpen c then .ok { connection := c, text } else .error (.connection .notOpen) := by
  unfold create Server.checkOpen
  split <;> rfl

/-- An execution gets as far as resolving an engine iff the connection is
open by then, whatever it was when the command was created. -/
theorem Command.perform_execute (command : Command) (s : Server) :
    command.execute.perform s =
      if s.isOpen command.connection then command.resolved.perform s
      else (.error (.connection .notOpen), s) := by
  unfold execute resolved engine Server.checkOpen
  rw [perform_get_bind, perform_get_bind]
  split <;> rfl

/-- All that an execution can change is the store. -/
theorem Command.perform_execute_snd (command : Command) (s : Server) :
    ∃ store, (command.execute.perform s).2 = { s with store } := by
  unfold execute
  rw [perform_get_bind, perform_lift_bind]
  split
  · exact ⟨_, rfl⟩
  · exact ⟨s.store, rfl⟩

-- ============================================================== servers

namespace Server

variable {s : Server} {c : Connection}

/-- A connection that was made is moved to another state, and no other
connection is. -/
theorem lifecycle_setLifecycle (hc : c.number < s.lifecycles.length) (state : Lifecycle)
    (d : Connection) :
    (s.setLifecycle c state).lifecycle d = if d = c then state else s.lifecycle d := by
  obtain ⟨c⟩ := c
  obtain ⟨d⟩ := d
  unfold lifecycle setLifecycle
  rw [List.getElem?_set]
  by_cases hsame : c = d
  · subst hsame
    simp [show c < s.lifecycles.length from hc]
  · have hother : (⟨d⟩ : Connection) ≠ ⟨c⟩ := fun h => hsame (Connection.mk.inj h).symm
    simp [hsame, hother]

/-- A connection that is made is like one that was never made: new. -/
theorem lifecycle_connect (s : Server) (d : Connection) :
    s.connect.2.lifecycle d = s.lifecycle d := by
  unfold lifecycle connect
  rw [List.getElem?_append]
  split
  · rfl
  · next hend =>
      rw [List.getElem?_eq_none (Nat.le_of_not_lt hend), List.getElem?_singleton]
      split <;> rfl

/-- One that was just made is new, so it can be opened. -/
theorem connectOpen_eq (s : Server) :
    s.connectOpen = .ok (s.connect.1, s.connect.2.setLifecycle s.connect.1 .opened) := by
  have hnew : s.connect.2.lifecycle s.connect.1 = .new := by
    rw [lifecycle_connect]
    show s.lifecycles[s.lifecycles.length]?.getD .new = .new
    rw [List.getElem?_eq_none (Nat.le_refl s.lifecycles.length), Option.getD_none]
  show (do
    let server ← s.connect.2.openConnection s.connect.1
    return (s.connect.1, server)) = _
  rw [openConnection, hnew]
  rfl

end Server

-- ============================================================== history

namespace Client

/-- A change of a connection's state. -/
inductive Mark
  | opened
  | closed
deriving DecidableEq

/-- What is known of connections from calls and their replies.
Connections are counted in the order they are made, whatever numbers
a client has for them. -/
structure History where
  /-- The connection that each number stands for. -/
  connections : List Nat := []
  /-- The connection of each command. -/
  commands : List Nat := []
  /-- How many connections were made. -/
  made : Nat := 0
  /-- The openings and closings that succeeded, in their order. -/
  marks : List (Nat × Mark) := []

namespace History

variable {h : History} {c d n : Nat} {client : Client}

/-- A connection is made and given the next number. -/
def connected (h : History) : History :=
  { h with connections := h.connections ++ [h.made], made := h.made + 1 }

/-- A connection is opened or closed. -/
def marked (h : History) (mark : Mark) (c : Nat) : History :=
  { h with marks := h.marks ++ [(c, mark)] }

/-- The history after a call that succeeds. -/
def after (h : History) : Call → History
  | .connect => h.connected
  | .connectOpen => h.connected.marked .opened h.made
  | .cloneConnection n =>
    h.connections[n]?.elim h fun c => { h with connections := h.connections ++ [c] }
  | .openConnection n => h.connections[n]?.elim h (h.marked .opened)
  | .closeConnection n => h.connections[n]?.elim h (h.marked .closed)
  | .createCommand n _ =>
    h.connections[n]?.elim h fun c => { h with commands := h.commands ++ [c] }
  | .setText _ _ | .addParameter _ _ | .clearParameters _ | .execute _ | .executeText _ _ _
  | .createTable _ | .insertRows _ _ => h

/-- A call and its reply. A call that fails leaves no trace. -/
def record (h : History) (next : Call) : Result Reply → History
  | .ok _ => h.after next
  | .error _ => h

/-- The history of calls with their replies. -/
def of (calls : List Call) (replies : List (Result Reply)) : History :=
  (calls.zip replies).foldl (fun h (call, reply) => h.record call reply) {}

/-- What has become of a connection. -/
def marksOf (h : History) (c : Nat) : List Mark :=
  (h.marks.filter (·.1 = c)).map (·.2)

/-- The connection was opened and has not been closed. -/
def IsBetween (h : History) (c : Nat) : Prop :=
  .opened ∈ h.marksOf c ∧ .closed ∉ h.marksOf c

instance : Decidable (h.IsBetween c) :=
  inferInstanceAs (Decidable (_ ∧ _))

/-- The connection that a call is on, if it is on one. -/
def subject? (h : History) : Call → Option Nat
  | .cloneConnection n | .openConnection n | .closeConnection n | .createCommand n _
  | .executeText n _ _ => h.connections[n]?
  | .setText k _ | .addParameter k _ | .clearParameters k | .execute k => h.commands[k]?
  | .connect | .connectOpen | .createTable _ | .insertRows _ _ => none

end History

-- ================================================================== law

/-- What is left of the execution of a command once its connection has
been found open. -/
def executeResolved (command : Command) : Action Client Reply := do
  return .outcome (← onServer command.resolved)

/-- The law of connections, for a client with a history: what its next
calls do to them is told by the history alone. -/
structure Obeys (client : Client) (h : History) : Prop where
  /-- A connection is opened at most once and closed at most once, and
  not closed before it is opened. -/
  once : ∀ c, h.marksOf c <+: [Mark.opened, Mark.closed]
  /-- Callers see a connection open between the two. -/
  state : ∀ n c, h.connections[n]? = some c →
    client.connection n = .ok ⟨c⟩ ∧ (client.server.isOpen ⟨c⟩ = true ↔ h.IsBetween c)
  /-- A connection can be made at any time, and gets the next number. -/
  connect : ∀ made ∈ [Call.connect, Call.connectOpen],
    ((call made).perform client).1 = .ok (.connection h.connections.length)
  /-- So does a clone. -/
  clone : ∀ n c, h.connections[n]? = some c →
    ((call (.cloneConnection n)).perform client).1 = .ok (.connection h.connections.length)
  /-- Opening succeeds iff it has not before. -/
  opening : ∀ n c, h.connections[n]? = some c →
    if h.marksOf c = [] then ((call (.openConnection n)).perform client).1 = .ok .done
    else ∃ fault, (call (.openConnection n)).perform client = (.error (.connection fault), client)
  /-- Closing succeeds iff the connection is between the two. -/
  closing : ∀ n c, h.connections[n]? = some c →
    if h.IsBetween c then ((call (.closeConnection n)).perform client).1 = .ok .done
    else ∃ fault, (call (.closeConnection n)).perform client = (.error (.connection fault), client)
  /-- A command can be created between the two, and at no other time. -/
  create : ∀ n c text, h.connections[n]? = some c →
    (call (.createCommand n text)).perform client =
      if h.IsBetween c then (.ok (.command h.commands.length),
        { client with commands := client.commands ++ [{ connection := ⟨c⟩, text }] })
      else (.error (.connection .notOpen), client)
  /-- An engine is resolved for a command between the two, and at no
  other time, whenever the command was created. -/
  execute : ∀ k c, h.commands[k]? = some c →
    ∃ command, client.commands[k]? = some command ∧ command.connection = ⟨c⟩ ∧
      (call (.execute k)).perform client =
        if h.IsBetween c then (executeResolved command).perform client
        else (.error (.connection .notOpen), client)
  /-- So it is for a command that is created to be executed at once. -/
  executeText : ∀ n c text parameters, h.connections[n]? = some c →
    (call (.executeText n text parameters)).perform client =
      if h.IsBetween c then (executeResolved ⟨⟨c⟩, text, parameters⟩).perform client
      else (.error (.connection .notOpen), client)
  /-- Whatever is done on one connection, the others that were made stay
  in their states. -/
  apart : ∀ next c, c < h.made → h.subject? next ≠ some c →
    ((call next).perform client).2.server.lifecycle ⟨c⟩ = client.server.lifecycle ⟨c⟩

-- =========================================================== agreement

end Client

/-- What has become of a connection in a state. -/
def Lifecycle.marks : Lifecycle → List Client.Mark
  | new => []
  | opened => [.opened]
  | closed => [.opened, .closed]

theorem Lifecycle.marks_inj {a b : Lifecycle} : a.marks = b.marks ↔ a = b := by
  cases a <;> cases b <;> decide

namespace Client

/-- The account of a history and that of a client and its server are the
same. -/
structure Agrees (client : Client) (h : History) : Prop where
  connections : client.connections = h.connections.map Connection.mk
  commands : client.commands.map (·.connection) = h.commands.map Connection.mk
  made : client.server.lifecycles.length = h.made
  bounded : ∀ c ∈ h.connections, c < h.made
  states : ∀ c, h.marksOf c = (client.server.lifecycle ⟨c⟩).marks

variable {client after : Client} {h : History} {c n k : Nat}

/-- A history says nothing of what else there is in a server. -/
theorem Agrees.congr (ha : client.Agrees h) (hconnections : after.connections = client.connections)
    (hcommands : after.commands.map (·.connection) = client.commands.map (·.connection))
    (hlifecycles : after.server.lifecycles = client.server.lifecycles) : after.Agrees h where
  connections := hconnections.trans ha.connections
  commands := hcommands.trans ha.commands
  made := (congrArg List.length hlifecycles).trans ha.made
  bounded := ha.bounded
  states d := by
    rw [ha.states, Server.lifecycle, Server.lifecycle, hlifecycles]

theorem Agrees.length_connections (ha : client.Agrees h) :
    client.connections.length = h.connections.length := by
  rw [ha.connections, List.length_map]

theorem Agrees.length_commands (ha : client.Agrees h) :
    client.commands.length = h.commands.length := by
  have hlength := congrArg List.length ha.commands
  rwa [List.length_map, List.length_map] at hlength

theorem Agrees.connection (ha : client.Agrees h) (hc : h.connections[n]? = some c) :
    client.connection n = .ok ⟨c⟩ := by
  rw [Client.connection, ha.connections, List.getElem?_map, hc]
  rfl

/-- A number that a client has a connection for is in its history. -/
theorem Agrees.of_connection_eq_ok (ha : client.Agrees h) {connection : Connection}
    (hc : client.connection n = .ok connection) : h.connections[n]? = some connection.number := by
  unfold Client.connection at hc
  rw [ha.connections, List.getElem?_map] at hc
  cases hn : h.connections[n]? with
  | none =>
      rw [hn] at hc
      cases hc
  | some c =>
      rw [hn] at hc
      cases hc
      rfl

theorem Agrees.command (ha : client.Agrees h) (hc : h.commands[k]? = some c) :
    ∃ command, client.commands[k]? = some command ∧ command.connection = ⟨c⟩ := by
  have hmap := congrArg (·[k]?) ha.commands
  simp only [List.getElem?_map, hc, Option.map_some] at hmap
  exact Option.map_eq_some_iff.mp hmap

theorem Agrees.isOpen_iff (ha : client.Agrees h) :
    client.server.isOpen ⟨c⟩ = true ↔ h.IsBetween c := by
  rw [History.IsBetween, ha.states, Server.isOpen, decide_eq_true_iff]
  cases client.server.lifecycle ⟨c⟩ <;> decide

theorem History.marksOf_marked (h : History) (mark : Mark) (c d : Nat) :
    (h.marked mark c).marksOf d = h.marksOf d ++ if d = c then [mark] else [] := by
  unfold marksOf marked
  rw [List.filter_append, List.map_append]
  by_cases hsame : d = c
  · simp [hsame]
  · simp [hsame, Ne.symm hsame]

-- ======================================================== single calls

theorem perform_replace (change : Client → Result (Reply × Client)) (client : Client) :
    (replace change).perform client =
      match change client with
      | .ok (reply, after) => (.ok reply, after)
      | .error e => (.error e, client) := by
  unfold replace
  rw [perform_get_bind, perform_lift_bind]
  rcases change client with _ | ⟨reply, after⟩ <;> rfl

theorem perform_openConnection {c : Connection} (hc : client.connection n = .ok c) :
    (call (.openConnection n)).perform client =
      match (client.server.lifecycle c).afterOpening with
      | .ok state => (.ok .done, { client with server := client.server.setLifecycle c state })
      | .error e => (.error e, client) := by
  refine (perform_replace _ client).trans ?_
  rw [hc, Result.ok_bind, Server.openConnection]
  cases (client.server.lifecycle c).afterOpening <;> rfl

theorem perform_closeConnection {c : Connection} (hc : client.connection n = .ok c) :
    (call (.closeConnection n)).perform client =
      match (client.server.lifecycle c).afterClosing with
      | .ok state => (.ok .done, { client with server := client.server.setLifecycle c state })
      | .error e => (.error e, client) := by
  refine (perform_replace _ client).trans ?_
  rw [hc, Result.ok_bind, Server.closeConnection]
  cases (client.server.lifecycle c).afterClosing <;> rfl

theorem perform_createCommand {c : Connection} (hc : client.connection n = .ok c) (text : String) :
    (call (.createCommand n text)).perform client =
      if client.server.isOpen c then (.ok (.command client.commands.length),
        { client with commands := client.commands ++ [{ connection := c, text }] })
      else (.error (.connection .notOpen), client) := by
  refine (perform_replace _ client).trans ?_
  rw [hc, Result.ok_bind, Command.create_eq]
  cases client.server.isOpen c <;> rfl

theorem perform_onServer {α : Type} (x : Action Server α) (client : Client) :
    (onServer x).perform client =
      ((x.perform client.server).1, { client with server := (x.perform client.server).2 }) := rfl

theorem perform_executeCommand (command : Command) (client : Client) :
    (executeCommand command).perform client =
      if client.server.isOpen command.connection then (executeResolved command).perform client
      else (.error (.connection .notOpen), client) := by
  unfold executeCommand executeResolved
  rw [perform_bind, perform_bind, perform_onServer, perform_onServer, command.perform_execute]
  cases client.server.isOpen command.connection <;> rfl

/-- From this client the action changes nothing but the store. -/
def OnlyStore {α : Type} (x : Action Client α) (client : Client) : Prop :=
  ∃ store, (x.perform client).2 = { client with server := { client.server with store } }

theorem onlyStore_onServer {α : Type} {x : Action Server α}
    (hx : ∃ store, (x.perform client.server).2 = { client.server with store }) :
    OnlyStore (onServer x) client := by
  obtain ⟨store, hx⟩ := hx
  exact ⟨store, congrArg (fun server => { client with server }) hx⟩

theorem OnlyStore.bind_pure {α β : Type} {x : Action Client α} (hx : OnlyStore x client)
    (g : α → β) : OnlyStore (x >>= fun a => pure (g a)) client := by
  unfold OnlyStore
  rw [bind_pure_comp, perform_map]
  exact hx

theorem onlyStore_onStore {α : Type} (x : Action Store α) (client : Client) :
    OnlyStore (onServer (Server.onStore x)) client :=
  onlyStore_onServer ⟨_, rfl⟩

theorem onlyStore_executeCommand (command : Command) (client : Client) :
    OnlyStore (executeCommand command) client :=
  (onlyStore_onServer (command.perform_execute_snd client.server)).bind_pure _

theorem onlyStore_throw {α : Type} (e : Error) : OnlyStore (throw e : Action Client α) client :=
  ⟨client.server.store, rfl⟩

theorem onlyStore_execute (k : Nat) (client : Client) : OnlyStore (call (.execute k)) client := by
  unfold OnlyStore
  rw [call, perform_get_bind, perform_lift_bind]
  cases client.command k with
  | error e => exact onlyStore_throw e
  | ok command => exact onlyStore_executeCommand command client

theorem onlyStore_executeText (n : Nat) (text : String) (parameters : Parameters)
    (client : Client) : OnlyStore (call (.executeText n text parameters)) client := by
  unfold OnlyStore
  rw [call, perform_get_bind, perform_lift_bind]
  cases client.connection n with
  | error e => exact onlyStore_throw e
  | ok c =>
      dsimp only
      rw [perform_lift_bind]
      cases Command.create client.server c text with
      | error e => exact onlyStore_throw e
      | ok command => exact onlyStore_executeCommand _ client

-- =============================================================== calls

theorem Lifecycle.marks_afterOpening {before state : Lifecycle}
    (hstate : before.afterOpening = .ok state) : state.marks = before.marks ++ [.opened] := by
  cases before <;> cases hstate
  rfl

theorem Lifecycle.marks_afterClosing {before state : Lifecycle}
    (hstate : before.afterClosing = .ok state) : state.marks = before.marks ++ [.closed] := by
  cases before <;> cases hstate
  rfl

/-- A connection moves on to a state in which one more thing has become of
it. -/
theorem Agrees.mark (ha : client.Agrees h) (hc : c < h.made) {state : Lifecycle} {mark : Mark}
    (hstate : state.marks = (client.server.lifecycle ⟨c⟩).marks ++ [mark]) :
    ({ client with server := client.server.setLifecycle ⟨c⟩ state } : Client).Agrees
      (h.marked mark c) where
  connections := ha.connections
  commands := ha.commands
  made := by rw [Server.setLifecycle, List.length_set, ha.made]; rfl
  bounded := ha.bounded
  states d := by
    rw [History.marksOf_marked, ha.states, Server.lifecycle_setLifecycle (ha.made ▸ hc)]
    by_cases hsame : d = c
    · subst hsame
      simp [hstate]
    · simp [hsame]

/-- A connection that a client has is moved on, if it can be. -/
theorem Agrees.move (ha : client.Agrees h) {connection : Connection} {server : Server}
    {move : Lifecycle → Result Lifecycle} {mark : Mark}
    (hmove : ∀ {before state}, move before = .ok state → state.marks = before.marks ++ [mark])
    (hc : client.connection n = .ok connection)
    (hserver : client.server.setLifecycle connection <$>
      move (client.server.lifecycle connection) = .ok server) :
    ({ client with server } : Client).Agrees (h.connections[n]?.elim h (h.marked mark)) := by
  have hn := ha.of_connection_eq_ok hc
  obtain ⟨state, hstate, rfl⟩ := Result.map_eq_ok.mp hserver
  rw [hn]
  exact ha.mark (ha.bounded _ (List.mem_of_getElem? hn)) (hmove hstate)

/-- A connection is made. -/
theorem Agrees.connect (ha : client.Agrees h) :
    ({ client with
      server := client.server.connect.2
      connections := client.connections ++ [client.server.connect.1] } : Client).Agrees
      h.connected where
  connections := by
    rw [ha.connections, History.connected, List.map_append, List.map_singleton, ← ha.made]
    rfl
  commands := ha.commands
  made := by rw [History.connected, ← ha.made]; exact List.length_append
  bounded c hc := by
    rcases List.mem_append.mp hc with hc | hc
    · exact Nat.lt_succ_of_lt (ha.bounded c hc)
    · rw [List.mem_singleton.mp hc]
      exact Nat.lt_succ_self h.made
  states d := by
    rw [Server.lifecycle_connect]
    exact ha.states d

/-- A clone has the connection of what it is a clone of. -/
theorem Agrees.clone (ha : client.Agrees h) (hc : h.connections[n]? = some c) :
    ({ client with connections := client.connections ++ [⟨c⟩] } : Client).Agrees
      { h with connections := h.connections ++ [c] } where
  connections := by rw [ha.connections, List.map_append, List.map_singleton]
  commands := ha.commands
  made := ha.made
  bounded d hd := by
    rcases List.mem_append.mp hd with hd | hd
    · exact ha.bounded d hd
    · rw [List.mem_singleton.mp hd]
      exact ha.bounded c (List.mem_of_getElem? hc)
  states := ha.states

/-- A command stays on the connection that it was created on. -/
theorem Agrees.createCommand (ha : client.Agrees h) (c : Nat) (text : String) :
    ({ client with commands := client.commands ++ [{ connection := ⟨c⟩, text }] } : Client).Agrees
      { h with commands := h.commands ++ [c] } where
  connections := ha.connections
  commands := by rw [List.map_append, ha.commands, List.map_append]; rfl
  made := ha.made
  bounded := ha.bounded
  states := ha.states

/-- A call that replaces the client, if it succeeds. -/
theorem replace_agrees {change : Client → Result (Reply × Client)} {next : Call}
    (ha : client.Agrees h)
    (hchange : ∀ reply after, change client = .ok (reply, after) →
      after.Agrees (h.record next (.ok reply))) :
    ((replace change).perform client).2.Agrees
      (h.record next ((replace change).perform client).1) := by
  rw [perform_replace]
  split
  · next reply after hafter => exact hchange reply after hafter
  · cases next <;> exact ha

/-- A command is changed, and stays on its connection. -/
theorem Agrees.setCommand (ha : client.Agrees h) {command changed : Command}
    (hcommand : client.command n = .ok command) (hsame : changed.connection = command.connection) :
    (client.setCommand n changed).2.Agrees h := by
  refine ha.congr rfl ?_ rfl
  unfold Client.command at hcommand
  split at hcommand
  · next hn =>
      cases hcommand
      show (client.commands.set n changed).map _ = _
      rw [List.map_set, hsame]
      refine List.ext_getElem? fun i => ?_
      rw [List.getElem?_set]
      split
      · next hi =>
          subst hi
          obtain ⟨hlength, rfl⟩ := List.getElem?_eq_some_iff.mp hn
          simp [hlength]
      · rfl
  · cases hcommand

/-- A call that changes a command, if the client has it. -/
theorem setCommand_agrees {next : Call} (ha : client.Agrees h) (change : Command → Command)
    (hcall : call next = replace fun client => do
      return client.setCommand k (change (← client.command k)))
    (hsame : ∀ command, (change command).connection = command.connection)
    (hafter : h.after next = h) :
    ((call next).perform client).2.Agrees (h.record next ((call next).perform client).1) := by
  rw [hcall]
  refine replace_agrees ha fun reply after hchanged => ?_
  obtain ⟨command, hcommand, hpair⟩ := Result.map_eq_ok.mp hchanged
  cases hpair
  rw [History.record, hafter]
  exact ha.setCommand hcommand (hsame command)

/-- A call that changes nothing but the store, whether it succeeds or
not. -/
theorem onlyStore_agrees {next : Call} (ha : client.Agrees h) (hx : OnlyStore (call next) client)
    (hafter : h.after next = h) :
    ((call next).perform client).2.Agrees (h.record next ((call next).perform client).1) := by
  have hrecord : h.record next ((call next).perform client).1 = h := by
    cases ((call next).perform client).1 with
    | ok reply => exact hafter
    | error e => rfl
  obtain ⟨store, hx⟩ := hx
  rw [hrecord, hx]
  exact ha.congr rfl rfl rfl

/-- Every call and its reply are accounted for in the same way. -/
theorem call_agrees (ha : client.Agrees h) (next : Call) :
    ((call next).perform client).2.Agrees (h.record next ((call next).perform client).1) := by
  cases next with
  | connect => exact ha.connect
  | connectOpen =>
      refine replace_agrees ha fun reply after hafter => ?_
      obtain ⟨⟨c, server⟩, hserver, hpair⟩ := Result.map_eq_ok.mp hafter
      cases hpair
      obtain ⟨opened, hopened, hpair⟩ := Result.map_eq_ok.mp hserver
      cases hpair
      obtain ⟨state, hstate, rfl⟩ := Result.map_eq_ok.mp hopened
      show Agrees _ (h.connected.marked .opened h.made)
      rw [← ha.made]
      refine ha.connect.mark ?_ (Lifecycle.marks_afterOpening hstate)
      rw [ha.made]
      exact Nat.lt_succ_self h.made
  | cloneConnection n =>
      refine replace_agrees ha fun reply after hafter => ?_
      obtain ⟨c, hc, hpair⟩ := Result.map_eq_ok.mp hafter
      cases hpair
      have hn := ha.of_connection_eq_ok hc
      rw [History.record, History.after, hn]
      exact ha.clone hn
  | openConnection n =>
      refine replace_agrees ha fun reply after hafter => ?_
      obtain ⟨c, hc, hafter⟩ := Result.bind_eq_ok.mp hafter
      obtain ⟨server, hserver, hpair⟩ := Result.map_eq_ok.mp hafter
      cases hpair
      exact ha.move Lifecycle.marks_afterOpening hc hserver
  | closeConnection n =>
      refine replace_agrees ha fun reply after hafter => ?_
      obtain ⟨c, hc, hafter⟩ := Result.bind_eq_ok.mp hafter
      obtain ⟨server, hserver, hpair⟩ := Result.map_eq_ok.mp hafter
      cases hpair
      exact ha.move Lifecycle.marks_afterClosing hc hserver
  | createCommand n text =>
      refine replace_agrees ha fun reply after hafter => ?_
      obtain ⟨c, hc, hafter⟩ := Result.bind_eq_ok.mp hafter
      obtain ⟨command, hcommand, hpair⟩ := Result.map_eq_ok.mp hafter
      cases hpair
      obtain ⟨_, -, rfl⟩ := Result.map_eq_ok.mp hcommand
      rw [History.record, History.after, ha.of_connection_eq_ok hc]
      exact ha.createCommand c.number text
  | setText k text =>
      exact setCommand_agrees ha (fun command => { command with text }) rfl (fun _ => rfl) rfl
  | addParameter k parameter =>
      exact setCommand_agrees ha
        (fun command => { command with parameters := command.parameters ++ [parameter] }) rfl
        (fun _ => rfl) rfl
  | clearParameters k =>
      exact setCommand_agrees ha (fun command => { command with parameters := [] }) rfl
        (fun _ => rfl) rfl
  | execute k => exact onlyStore_agrees ha (onlyStore_execute k client) rfl
  | executeText n text parameters =>
      exact onlyStore_agrees ha (onlyStore_executeText n text parameters client) rfl
  | createTable table =>
      exact onlyStore_agrees ha ((onlyStore_onStore _ client).bind_pure _) rfl
  | insertRows table rows =>
      exact onlyStore_agrees ha ((onlyStore_onStore _ client).bind_pure _) rfl

-- ================================================================= law

/-- A call adds nothing to what has become of connections that it is not
on. -/
theorem History.marksOf_after {next : Call} (hc : c < h.made) (hother : h.subject? next ≠ some c) :
    (h.after next).marksOf c = h.marksOf c := by
  have hmarked : ∀ (mark : Mark) (n : Nat), h.subject? next = h.connections[n]? →
      (h.connections[n]?.elim h (h.marked mark)).marksOf c = h.marksOf c := by
    intro mark n hn
    rw [hn] at hother
    cases hd : h.connections[n]? with
    | none => rfl
    | some d =>
        have hne : c ≠ d := fun heq => hother (hd.trans (congrArg some heq.symm))
        rw [Option.elim_some, marksOf_marked, if_neg hne, List.append_nil]
  cases next with
  | connectOpen =>
      rw [after, marksOf_marked, if_neg (Nat.ne_of_lt hc), List.append_nil]
      rfl
  | openConnection n => exact hmarked .opened n rfl
  | closeConnection n => exact hmarked .closed n rfl
  | cloneConnection n | createCommand n text =>
      rw [after]
      cases h.connections[n]? <;> rfl
  | _ => rfl

theorem History.marksOf_record {next : Call} (hc : c < h.made)
    (hother : h.subject? next ≠ some c) (reply : Result Reply) :
    (h.record next reply).marksOf c = h.marksOf c := by
  cases reply with
  | ok reply => exact marksOf_after hc hother
  | error e => rfl

/-- What a client can do next is told by its history. -/
theorem Agrees.obeys (ha : client.Agrees h) : client.Obeys h where
  once c := by
    rw [ha.states]
    cases client.server.lifecycle ⟨c⟩ <;> decide
  state n c hc := ⟨ha.connection hc, ha.isOpen_iff⟩
  connect made hmade := by
    rw [← ha.length_connections]
    rcases List.mem_pair.mp hmade with rfl | rfl
    · rfl
    · rw [call, perform_replace, Server.connectOpen_eq]
      rfl
  clone n c hc := by
    rw [call, perform_replace, ha.connection hc, ← ha.length_connections]
    rfl
  opening n c hc := by
    rw [perform_openConnection (ha.connection hc), ha.states]
    cases client.server.lifecycle ⟨c⟩ with
    | new => rfl
    | opened | closed => exact ⟨_, rfl⟩
  closing n c hc := by
    rw [perform_closeConnection (ha.connection hc)]
    simp only [← ha.isOpen_iff, Server.isOpen, decide_eq_true_iff]
    cases client.server.lifecycle ⟨c⟩ with
    | opened => rfl
    | new | closed => exact ⟨_, rfl⟩
  create n c text hc := by
    rw [perform_createCommand (ha.connection hc), ha.length_commands]
    simp only [ha.isOpen_iff]
  execute k c hc := by
    obtain ⟨command, hcommand, hconnection⟩ := ha.command hc
    refine ⟨command, hcommand, hconnection, ?_⟩
    have hfound : client.command k = .ok command := by rw [Client.command, hcommand]
    rw [call, perform_get_bind, perform_lift_bind, hfound]
    dsimp only
    rw [perform_executeCommand, hconnection]
    simp only [ha.isOpen_iff]
  executeText n c text parameters hc := by
    rw [call, perform_get_bind, perform_lift_bind, ha.connection hc]
    dsimp only
    rw [perform_lift_bind, Command.create_eq]
    by_cases hopen : client.server.isOpen ⟨c⟩ = true
    · rw [if_pos hopen, if_pos (ha.isOpen_iff.mp hopen)]
      dsimp only
      rw [perform_executeCommand, if_pos hopen]
    · rw [if_neg hopen, if_neg fun hbetween => hopen (ha.isOpen_iff.mpr hbetween)]
  apart next c hc hother := by
    have hafter := (call_agrees ha next).states c
    rw [History.marksOf_record hc hother, ha.states] at hafter
    exact (Lifecycle.marks_inj.mp hafter).symm

-- ================================================================= runs

theorem run_agrees (calls : List Call) (ha : client.Agrees h) :
    (client.run calls).2.Agrees
      ((calls.zip (client.run calls).1).foldl (fun h (next, reply) => h.record next reply) h) := by
  induction calls generalizing client h with
  | nil => exact ha
  | cons next rest ih => exact ih (call_agrees ha next)

/-- Whatever calls are made on a database, on however many connections
and in whatever order, what the next calls do to the connections is told
by the calls so far and their replies. -/
theorem run_obeys (version : DialectVersion) (registry : Registry) (store : Store)
    (calls : List Call) :
    let run := ({ server := { version, registry, store } } : Client).run calls
    run.2.Obeys (History.of calls run.1) := by
  have hstart : ({ server := { version, registry, store } } : Client).Agrees {} :=
    { connections := rfl, commands := rfl, made := rfl
      bounded := fun _ h => absurd h List.not_mem_nil
      states := fun _ => rfl }
  exact (run_agrees calls hstart).obeys

/-- The connection that a client starts with was made by a call like any
other. -/
example (version : DialectVersion) (registry : Registry) :
    start version registry = (({ server := { version, registry } } : Client).run [.connectOpen]).2 :=
  rfl

end Client

end DialectDb
