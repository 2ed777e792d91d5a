import Gridix.Base.PyValue
import Gridix.Base.ReadCommitted
import Mathlib.Data.List.Dedup
import Mathlib.Data.List.Sort

/-!
# Tunnels of one provider

The relay keeps the provider's current tunnel in memory and the models that
the tunnel declared in `provider_models`.  The map is only locked while it is
read or written, and the rows are replaced in a transaction of their own, so
connections of one provider overlap at every `await`.
-/

namespace Gridix.Relay

open ReadCommitted

def maxModels : Nat := 64

def maxModelName : Nat := 128

def modelName : Py.Value → Option String
  | .str text =>
    if 0 < text.length && text.length ≤ maxModelName then
      some (Py.strip text)
    else none
  | _ => none

def cleanModels : Py.Value → List String
  | .list items =>
    (((items.take maxModels).filterMap modelName).filter (· != "")).dedup.insertionSort (· ≤ ·)
  | _ => []

structure Tunnel where
  id : Nat
  models : List String
  cleaned : ∃ declared, models = cleanModels declared
  deriving DecidableEq

def Tunnel.of (id : Nat) (declared : Py.Value) : Tunnel := ⟨id, cleanModels declared, declared, rfl⟩

theorem Tunnel.distinct (tunnel : Tunnel) : tunnel.models.Nodup := by
  obtain ⟨_, cleaned⟩ := tunnel.cleaned
  rw [cleaned]
  unfold cleanModels
  split
  · exact (List.perm_insertionSort _ _).nodup_iff.mpr (List.nodup_dedup _)
  · exact List.nodup_nil

structure ModelRow where
  tunnel : Nat
  model : String
  deriving DecidableEq, Repr

structure Db where
  registry : Option Tunnel
  rows : List ModelRow

inductive Row where
  | registry
  | row (row : ModelRow)
  | model (model : String)
  deriving DecidableEq, Repr

/-- Where a connection is in its handshake or its cleanup. -/
inductive Point where
  -- the handshake
  | connect (tunnel : Tunnel)
  | registering (tunnel : Tunnel)
  | snapshot (tunnel : Tunnel)
  | delete (tunnel : Tunnel) (seen : List ModelRow)
  | insert (tunnel : Tunnel) (seen : List ModelRow) (inserted left : List String)
  | conflict (tunnel : Tunnel) (seen : List ModelRow)
      (inserted : List String) (model : String) (left : List String)
      (row : ModelRow)
  | insertRow (tunnel : Tunnel) (seen : List ModelRow)
      (inserted : List String) (model : String) (left : List String)
  | violated (tunnel : Tunnel) (seen : List ModelRow) (inserted : List String)
  | markSeen (tunnel : Tunnel)
  | confirm (tunnel : Tunnel)
  | live (tunnel : Tunnel)
  -- the teardown
  | unregister (tunnel : Tunnel)
  | unregistering (tunnel : Tunnel)
  | isConnected (tunnel : Tunnel)
  | clearSnapshot (tunnel : Tunnel)
  | clearDelete (tunnel : Tunnel) (seen : List ModelRow)
  | clearCommit (tunnel : Tunnel) (seen : List ModelRow)
  | closed (tunnel : Tunnel)
  | crashed (tunnel : Tunnel)

def Db.register (tunnel : Tunnel) (db : Db) : Db := { db with registry := some tunnel }

def Db.unregister (tunnel : Tunnel) (db : Db) : Db :=
  if db.registry = some tunnel then { db with registry := none } else db

def Db.erase (seen : List ModelRow) (db : Db) : Db := { db with rows := db.rows.filter (· ∉ seen) }

def Db.insert (tunnel : Tunnel) (model : String) (db : Db) : Db :=
  { db with rows := db.rows ++ [⟨tunnel.id, model⟩] }

/-- The `DELETE` locks each row, and waits for whoever has locked it. -/
def deleteRows (seen : List ModelRow) (next : Point) : Stmt Db Row Point :=
  .write (seen.map fun row => (.row row, .update)) (Db.erase seen) next

def stmt : Point → Stmt Db Row Point
  | .connect tunnel =>
    .write [(.registry, .update)] (Db.register tunnel) (.registering tunnel)
  | .registering tunnel => .commit (.snapshot tunnel)
  -- `record_models`
  | .snapshot tunnel => .query fun db => .delete tunnel db.rows
  | .delete tunnel seen =>
    deleteRows seen (.insert tunnel seen [] tunnel.models)
  | .insert tunnel _ _ [] => .commit (.markSeen tunnel)
  | .insert tunnel seen inserted (model :: left) =>
    if Py.storableText model then
      .lock (.model model) .update fun db =>
        match db.rows.find? fun row => row.model == model with
        | none => .insertRow tunnel seen inserted model left
        | some row => .conflict tunnel seen inserted model left row
    else .rollback (.crashed tunnel)
  -- somebody may be deleting the row with the same model
  | .conflict tunnel seen inserted model left row =>
    .lock (.row row) .keyShare fun db =>
      if row ∈ db.rows then .violated tunnel seen inserted
      else .insertRow tunnel seen inserted model left
  | .insertRow tunnel seen inserted model left =>
    .write [] (Db.insert tunnel model) (.insert tunnel seen (inserted ++ [model]) left)
  | .violated tunnel _ _ => .rollback (.crashed tunnel)
  -- `mark_provider_seen` and the `auth_ok` frame
  | .markSeen tunnel => .query fun _ => .confirm tunnel
  | .confirm tunnel => .query fun _ => .live tunnel
  -- the frame loop ends when the socket closes, times out or misbehaves
  | .live tunnel => .query fun _ => .unregister tunnel
  | .unregister tunnel =>
    .write [(.registry, .update)] (Db.unregister tunnel) (.unregistering tunnel)
  | .unregistering tunnel => .commit (.isConnected tunnel)
  | .isConnected tunnel =>
    .query fun db =>
      if db.registry.isSome then .closed tunnel else .clearSnapshot tunnel
  -- `clear_models`
  | .clearSnapshot tunnel => .query fun db => .clearDelete tunnel db.rows
  | .clearDelete tunnel seen => deleteRows seen (.clearCommit tunnel seen)
  | .clearCommit tunnel _ => .commit (.closed tunnel)
  | .closed _ => .halt
  | .crashed _ => .halt

namespace Point

def tunnel : Point → Tunnel
  | connect tunnel => tunnel
  | registering tunnel => tunnel
  | snapshot tunnel => tunnel
  | delete tunnel _ => tunnel
  | insert tunnel _ _ _ => tunnel
  | conflict tunnel _ _ _ _ _ => tunnel
  | insertRow tunnel _ _ _ _ => tunnel
  | violated tunnel _ _ => tunnel
  | markSeen tunnel => tunnel
  | confirm tunnel => tunnel
  | live tunnel => tunnel
  | unregister tunnel => tunnel
  | unregistering tunnel => tunnel
  | isConnected tunnel => tunnel
  | clearSnapshot tunnel => tunnel
  | clearDelete tunnel _ => tunnel
  | clearCommit tunnel _ => tunnel
  | closed tunnel => tunnel
  | crashed tunnel => tunnel

def clearing : Point → Bool
  | clearSnapshot _ => true
  | clearDelete _ _ => true
  | clearCommit _ _ => true
  | _ => false

def recording : Point → Bool
  | snapshot _ => true
  | delete _ _ => true
  | insert _ _ _ _ => true
  | conflict _ _ _ _ _ _ => true
  | insertRow _ _ _ _ _ => true
  | violated _ _ _ => true
  | _ => false

def busy : Point → Bool
  | connect _ => false
  | live _ => false
  | closed _ => false
  | crashed _ => false
  | _ => true

end Point

/-- An exception after `register` leaves the handler, one in `clear_models`
ends the teardown. -/
def onAbort (point : Point) : Point :=
  if point.clearing then .closed point.tunnel else .crashed point.tunnel

def program : Program Db Row Point where
  stmt := stmt
  onAbort := onAbort

def start (declared : List Py.Value) : World Db Row Point where
  committed := { registry := none, rows := [] }
  conns := declared.mapIdx fun id raw => .fresh (.connect (.of id raw))

/-- What can happen: statements are executed in any order, and the database
or the socket can fail.  The map does not fail. -/
def possible (world : World Db Row Point) : Action → Bool
  | .exec _ => true
  | .abort index =>
    match world.conns[index]? with
    | none => true
    | some conn =>
      match conn.point with
      | .markSeen _ => true
      | .confirm _ => true
      | point => point.recording || point.clearing

end Gridix.Relay
