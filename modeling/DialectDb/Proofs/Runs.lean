/-
Every store that a run can reach is valid. A run is any number of calls
of a client, in any order, each of which can fail: connections are made,
opened and closed, commands made, changed and executed, tables created
and rows inserted. Calls other than those that execute a command, create
a table or insert rows leave the store and the registry as they are, so
all that is left to show is that statements keep a store valid.
-/
import DialectDb.Client
import DialectDb.Proofs.Merging

namespace DialectDb

open DialectDb.Action

-- ========================================================== statements

namespace Statement

theorem execute_valid (version : DialectVersion) (statement : Statement) {s : Store}
    (h : s.Valid) : (statement.execute version).Guarantees s fun _ after => after.Valid := by
  cases statement with
  | createTable name columns =>
      refine guarantees_lift_bind fun table _ => guarantees_bind_pure ?_
      exact Store.createTable_valid table h
  | dropTable name ifExists => exact guarantees_bind_pure (Store.dropTable_valid name ifExists h)
  | select q =>
      refine guarantees_get_bind (guarantees_lift_bind fun answer _ => ?_)
      exact guarantees_pure h
  | insert i => exact guarantees_map (i.execute_valid version h)
  | update u => exact guarantees_map (u.execute_valid h)
  | delete d => exact guarantees_map (d.execute_valid h)
  | merge m => exact guarantees_map (m.execute_valid version h)

/-- A text keeps a store valid, whatever it is. -/
theorem run_valid (version : DialectVersion) (parameters : Parameters) (text : String)
    {s : Store} (h : s.Valid) :
    (run version parameters text).Guarantees s fun _ after => after.Valid := by
  refine guarantees_lift_bind fun statement _ => guarantees_lift_bind fun bound _ => ?_
  exact execute_valid version bound h

end Statement

-- =========================================================== registries

namespace Registry

/-- A registry that has no engine but the built-in one. -/
def BuiltIn (r : Registry) : Prop :=
  ∀ entry ∈ r.factories, entry.2 = Engine.builtIn

/-- Registering the built-in engine keeps this. -/
theorem BuiltIn.register {r : Registry} (h : r.BuiltIn) (name : String) :
    (r.register name Engine.builtIn).BuiltIn := by
  unfold Registry.register
  split
  · exact h
  · intro entry hentry
    rcases List.mem_append.mp hentry with hentry | hentry
    · exact h entry hentry
    · rw [List.mem_singleton.mp hentry]

/-- A registry of names has no other engine. -/
theorem builtIn_ofNames (names : List String) : (ofNames names).BuiltIn := by
  unfold ofNames
  have hstart : ({} : Registry).BuiltIn := fun _ h => absurd h List.not_mem_nil
  generalize ({} : Registry) = r at hstart ⊢
  induction names generalizing r with
  | nil => exact hstart
  | cons name names ih => exact ih _ (hstart.register name)

/-- The engines that such a registry gives are the built-in one. -/
theorem BuiltIn.resolve {r : Registry} (h : r.BuiltIn) {name : String}
    {version : DialectVersion} {parameters : Parameters} {engine : Engine}
    (hengine : r.resolve name version parameters = .ok engine) :
    engine = Engine.builtIn version parameters := by
  unfold Registry.resolve at hengine
  split at hengine
  · next factory hfactory =>
      cases hengine
      obtain ⟨before, after, hsplit, -⟩ := List.lookup_eq_some_iff.mp hfactory
      have hmem : (Text.lower name, factory) ∈ r.factories := by
        rw [hsplit]
        exact List.mem_append_right _ List.mem_cons_self
      have hfactory : factory = Engine.builtIn := h _ hmem
      rw [hfactory]
  · cases hengine

end Registry

-- ============================================================== servers

/-- A server whose store is valid and whose engines are the built-in one. -/
structure Server.Sound (s : Server) : Prop where
  store : s.store.Valid
  registry : s.registry.BuiltIn

namespace Server

/-- A server with the store and the registry of another. -/
structure SameData (a b : Server) : Prop where
  store : b.store = a.store
  registry : b.registry = a.registry

/-- All that a server's soundness depends on is these. -/
theorem Sound.of_sameData {a b : Server} (h : a.Sound) (hsame : a.SameData b) : b.Sound :=
  ⟨hsame.store ▸ h.store, hsame.registry ▸ h.registry⟩

/-- Opening a connection leaves them. -/
theorem openConnection_sameData {s after : Server} {c : Connection}
    (h : s.openConnection c = .ok after) : s.SameData after := by
  obtain ⟨state, -, rfl⟩ := Result.map_eq_ok.mp h
  exact ⟨rfl, rfl⟩

/-- So does closing one. -/
theorem closeConnection_sameData {s after : Server} {c : Connection}
    (h : s.closeConnection c = .ok after) : s.SameData after := by
  obtain ⟨state, -, rfl⟩ := Result.map_eq_ok.mp h
  exact ⟨rfl, rfl⟩

/-- So does making an open one. -/
theorem connectOpen_sameData {s after : Server} {c : Connection}
    (h : s.connectOpen = .ok (c, after)) : s.SameData after := by
  obtain ⟨opened, hopened, hpair⟩ := Result.map_eq_ok.mp h
  cases hpair
  obtain ⟨hstore, hregistry⟩ := openConnection_sameData hopened
  exact ⟨hstore, hregistry⟩

/-- An action that keeps stores valid keeps servers sound. -/
theorem onStore_sound {α : Type} {x : Action Store α} {s : Server} (h : s.Sound)
    (hx : x.Guarantees s.store fun _ after => after.Valid) :
    (onStore x).Guarantees s fun _ after => after.Sound := by
  unfold onStore
  refine guarantees_onPart rfl (hx.mono fun _ store hstore => ?_)
  exact ⟨hstore, h.registry⟩

end Server

theorem Command.execute_sound (command : Command) {s : Server} (h : s.Sound) :
    command.execute.Guarantees s fun _ after => after.Sound := by
  unfold execute
  refine guarantees_get_bind (guarantees_lift_bind fun engine hengine => ?_)
  obtain ⟨_, -, hresolve⟩ := Result.bind_eq_ok.mp hengine
  rw [h.registry.resolve hresolve]
  exact Server.onStore_sound h (Statement.run_valid s.version command.parameters _ h.store)

-- ============================================================== clients

namespace Client

/-- An action that keeps servers sound keeps the client's server sound. -/
theorem onServer_sound {α : Type} {x : Action Server α} {client : Client}
    (hx : x.Guarantees client.server fun _ after => after.Sound) :
    (onServer x).Guarantees client fun _ after => after.server.Sound := by
  unfold onServer
  exact guarantees_onPart rfl hx

/-- A call that replaces the client keeps the server sound if it leaves
the server's data. -/
theorem replace_sound {change : Client → Result (Reply × Client)} {client : Client}
    (h : client.server.Sound)
    (hchange : ∀ reply after, change client = .ok (reply, after) →
      client.server.SameData after.server) :
    (replace change).Guarantees client fun _ after => after.server.Sound := by
  unfold replace
  refine guarantees_get_bind (guarantees_lift_bind fun changed hchanged => ?_)
  obtain ⟨reply, after⟩ := changed
  refine guarantees_bind_pure (guarantees_set ?_)
  exact h.of_sameData (hchange reply after hchanged)

theorem call_sound (c : Call) {client : Client} (h : client.server.Sound) :
    (call c).Guarantees client fun _ after => after.server.Sound := by
  -- all calls but the last four leave the server's data to others
  cases c with
  | connect =>
      refine replace_sound h fun reply after hafter => ?_
      cases hafter
      exact ⟨rfl, rfl⟩
  | connectOpen =>
      refine replace_sound h fun reply after hafter => ?_
      obtain ⟨⟨c, server⟩, hserver, hpair⟩ := Result.map_eq_ok.mp hafter
      cases hpair
      exact Server.connectOpen_sameData hserver
  | cloneConnection number =>
      refine replace_sound h fun reply after hafter => ?_
      obtain ⟨_, -, hpair⟩ := Result.map_eq_ok.mp hafter
      cases hpair
      exact ⟨rfl, rfl⟩
  | openConnection number =>
      refine replace_sound h fun reply after hafter => ?_
      obtain ⟨_, -, hafter⟩ := Result.bind_eq_ok.mp hafter
      obtain ⟨server, hserver, hpair⟩ := Result.map_eq_ok.mp hafter
      cases hpair
      exact Server.openConnection_sameData hserver
  | closeConnection number =>
      refine replace_sound h fun reply after hafter => ?_
      obtain ⟨_, -, hafter⟩ := Result.bind_eq_ok.mp hafter
      obtain ⟨server, hserver, hpair⟩ := Result.map_eq_ok.mp hafter
      cases hpair
      exact Server.closeConnection_sameData hserver
  | createCommand number text =>
      refine replace_sound h fun reply after hafter => ?_
      obtain ⟨_, -, hafter⟩ := Result.bind_eq_ok.mp hafter
      obtain ⟨_, -, hpair⟩ := Result.map_eq_ok.mp hafter
      cases hpair
      exact ⟨rfl, rfl⟩
  | setText number text =>
      refine replace_sound h fun reply after hafter => ?_
      obtain ⟨_, -, hpair⟩ := Result.map_eq_ok.mp hafter
      cases hpair
      exact ⟨rfl, rfl⟩
  | addParameter number parameter =>
      refine replace_sound h fun reply after hafter => ?_
      obtain ⟨_, -, hpair⟩ := Result.map_eq_ok.mp hafter
      cases hpair
      exact ⟨rfl, rfl⟩
  | clearParameters number =>
      refine replace_sound h fun reply after hafter => ?_
      obtain ⟨_, -, hpair⟩ := Result.map_eq_ok.mp hafter
      cases hpair
      exact ⟨rfl, rfl⟩
  | execute number =>
      refine guarantees_get_bind (guarantees_lift_bind fun command _ => ?_)
      exact guarantees_bind_pure (onServer_sound (command.execute_sound h))
  | executeText number text parameters =>
      refine guarantees_get_bind (guarantees_lift_bind fun connection _ => ?_)
      refine guarantees_lift_bind fun command _ => ?_
      exact guarantees_bind_pure (onServer_sound (Command.execute_sound _ h))
  | createTable table =>
      refine guarantees_bind_pure (onServer_sound (Server.onStore_sound h ?_))
      exact Store.createTable_valid table h.store
  | insertRows table rows =>
      refine guarantees_bind_pure (onServer_sound (Server.onStore_sound h ?_))
      exact Store.insertRows_valid table rows h.store

theorem run_sound (calls : List Call) {client : Client} (h : client.server.Sound) :
    (client.run calls).2.server.Sound := by
  induction calls generalizing client with
  | nil => exact h
  | cons c rest ih =>
      have hstep : ((call c).perform client).2.server.Sound :=
        (call_sound c h).keeps (I := fun after : Client => after.server.Sound) h
      exact ih hstep

/-- Whatever calls are made on a new database, its store is valid
afterwards. -/
theorem start_run_valid (version : DialectVersion) (names : List String) (calls : List Call) :
    ((start version (Registry.ofNames names)).run calls).2.server.store.Valid :=
  (run_sound calls ⟨Store.valid_empty, Registry.builtIn_ofNames names⟩).store

end Client

end DialectDb
