import Gridix.Relay.Tunnels

/-!
# The model rows follow the live tunnel

Registering supersedes the old tunnel at once, but the old connection may
still be replacing or clearing the rows.
-/

namespace Gridix.Relay

open ReadCommitted List

def awaitsDelete (world : World Db Row Point) : Bool := world.conns.any fun conn =>
    match conn.point with
    | .snapshot tunnel => world.committed.registry == some tunnel
    | _ => false

/-- The commits of `record_models` and `clear_models` are in time: the tunnel is
the registered one, or none is, or the registered one will still delete what is
committed. -/
def timely (world : World Db Row Point) (action : Action) : Bool := possible world action &&
    match world.conns[action.index]? with
    | none => true
    | some conn =>
      match action, conn.point with
      | .exec _, .insert tunnel _ _ [] =>
        world.committed.registry == some tunnel || awaitsDelete world
      | .exec _, .insert tunnel _ _ (model :: _) =>
        Py.storableText model || world.committed.registry != some tunnel
      | .exec _, .clearCommit _ _ =>
        world.committed.registry.isNone || awaitsDelete world
      | .exec _, _ => true
      | .abort _, point =>
        if point.recording then
          world.committed.registry != some point.tunnel
        else if point.clearing then world.committed.registry.isSome
        else true

namespace Point

def effect : Point → Db → Db
  | registering tunnel => Db.register tunnel
  | insert tunnel seen inserted _ => recorded tunnel seen inserted
  | conflict tunnel seen inserted _ _ _ => recorded tunnel seen inserted
  | insertRow tunnel seen inserted _ _ => recorded tunnel seen inserted
  | violated tunnel seen inserted => recorded tunnel seen inserted
  | unregistering tunnel => Db.unregister tunnel
  | clearCommit _ seen => Db.erase seen
  | _ => id
where
  recorded (tunnel : Tunnel) (seen : List ModelRow) (inserted : List String)
      (db : Db) : Db :=
    { db with
      rows := db.rows.filter (· ∉ seen) ++
        inserted.map fun model => ⟨tunnel.id, model⟩ }

def planned : Point → List String
  | insert _ _ inserted left => inserted ++ left
  | conflict _ _ inserted model left _ => inserted ++ model :: left
  | insertRow _ _ inserted model left => inserted ++ model :: left
  | point => point.tunnel.models

def away : Point → Bool
  | connect _ => true
  | registering _ => true
  | isConnected _ => true
  | clearSnapshot _ => true
  | clearDelete _ _ => true
  | clearCommit _ _ => true
  | closed _ => true
  | _ => false

def Serves (rows : List ModelRow) : Point → Prop
  | snapshot _ => True
  | delete _ seen => rows ⊆ seen
  | insert _ seen _ _ => rows ⊆ seen
  | insertRow _ seen _ _ _ => rows ⊆ seen
  | conflict _ _ _ _ _ _ => False
  | violated _ _ _ => False
  | point => point.away = false ∧ rows.map ModelRow.model = point.tunnel.models

def Clears (rows : List ModelRow) : Point → Prop
  | isConnected _ => True
  | clearSnapshot _ => True
  | clearDelete _ seen => rows ⊆ seen
  | clearCommit _ seen => rows ⊆ seen
  | _ => False

end Point

/-- The rows serve the registered tunnel; without one they are being cleared. -/
def Whole (world : World Db Row Point) : Prop :=
  match world.committed.registry with
  | none => world.committed.rows = [] ∨ ∃ conn ∈ world.conns, conn.point.Clears world.committed.rows
  | some tunnel => ∃ conn ∈ world.conns, conn.point.tunnel = tunnel ∧
      conn.point.Serves world.committed.rows

structure Each (db : Db) (conn : Conn Db Row Point) : Prop where
  pending : conn.pending = conn.point.effect
  planned : conn.point.planned = conn.point.tunnel.models
  away : conn.point.away = true → db.registry ≠ some conn.point.tunnel

def Apart (left right : Conn Db Row Point) : Prop := left.point.tunnel.id ≠ right.point.tunnel.id

structure Onward (db : Db) (conn moved : Conn Db Row Point) : Prop where
  each : Each db moved
  tunnel : moved.point.tunnel = conn.point.tunnel
  serves : db.registry = some conn.point.tunnel →
    conn.point.Serves db.rows → moved.point.Serves db.rows
  clears : db.registry = none → conn.point.Clears db.rows → moved.point.Clears db.rows

section

variable {world : World Db Row Point} {conn moved : Conn Db Row Point}
  {committed db : Db} {seen : List ModelRow} {inserted left : List String} {model : String}

theorem Onward.of (each : Each db conn) {next : Point} {pending : Db → Db}
    {locks : List (Row × LockMode)} (flushed : pending = next.effect)
    (planned : next.planned = next.tunnel.models) (tunnel : next.tunnel = conn.point.tunnel)
    (away : next.away = true → conn.point.away = true)
    (serves : db.registry = some conn.point.tunnel →
      conn.point.Serves db.rows → next.Serves db.rows)
    (clears : db.registry = none → conn.point.Clears db.rows → next.Clears db.rows) :
    Onward db conn ⟨next, pending, locks⟩ where
  each :=
    { pending := flushed
      planned := planned
      away := fun gone => tunnel ▸ each.away (away gone) }
  tunnel := tunnel
  serves := serves
  clears := clears

theorem find_left {tunnel : Tunnel} (planned : inserted ++ model :: left = tunnel.models)
    (covered : db.rows ⊆ seen) :
    (Point.effect.recorded tunnel seen inserted db).rows.find?
      (fun row => row.model == model) = none := by
  have fresh : model ∉ inserted := by
    have distinct := tunnel.distinct
    rw [← planned, nodup_append] at distinct
    intro mem
    exact distinct.2.2 model mem model mem_cons_self rfl
  rw [List.find?_eq_none]
  intro _ mem same
  rcases mem_append.mp mem with old | new
  · obtain ⟨stored, unseen⟩ := mem_filter.mp old
    exact of_decide_eq_true unseen (covered stored)
  · obtain ⟨_, named, rfl⟩ := mem_map.mp new
    exact fresh (beq_iff_eq.mp same ▸ named)

theorem timely_insert {index : Nat} {tunnel : Tunnel} (found : world.conns[index]? = some conn)
    (point : conn.point = .insert tunnel seen inserted (model :: left))
    (permitted : timely world (.exec index) = true) (unstorable : ¬Py.storableText model = true) :
    world.committed.registry ≠ some tunnel := by
  simpa [timely, possible, Action.index, found, point, unstorable] using permitted

theorem Onward.executed {index : Nat} (each : Each world.committed conn)
    (found : world.conns[index]? = some conn) (permitted : timely world (.exec index) = true)
    (executed : Executed world index conn moved committed (stmt conn.point))
    (running : ∀ next, stmt conn.point ≠ .commit next) :
    committed = world.committed ∧ Onward world.committed conn moved := by
  obtain ⟨point, pending, locks⟩ := conn
  have own : pending world.committed = point.effect world.committed :=
    congrFun each.pending world.committed
  cases point with
  | connect =>
    obtain ⟨_, rfl, rfl⟩ := executed
    refine ⟨rfl, .of each ?_ rfl rfl (fun _ => rfl) ?_ fun _ => id⟩
    · rw [each.pending]
      rfl
    · intro _ serves
      cases serves.1
  | registering | unregistering | clearCommit => exact absurd rfl (running _)
  | snapshot =>
    obtain ⟨rfl, rfl⟩ := executed
    refine ⟨rfl, .of each each.pending rfl rfl (by rintro ⟨⟩) ?_ fun _ => id⟩
    intro _ _
    change world.committed.rows ⊆ (pending world.committed).rows
    rw [own]
    exact List.Subset.refl _
  | delete =>
    obtain ⟨_, rfl, rfl⟩ := executed
    refine ⟨rfl, .of each ?_ rfl rfl (by rintro ⟨⟩) (fun _ => id) fun _ => id⟩
    funext db
    rw [each.pending]
    simp [Point.effect, Point.effect.recorded, Db.erase]
  | insert tunnel seen inserted left =>
    cases left with
    | nil => exact absurd rfl (running _)
    | cons model left =>
      by_cases storable : Py.storableText model = true
      · have locked : Executed world index ⟨.insert tunnel seen inserted (model :: left), pending,
              locks⟩ moved committed (stmt _) := executed
        simp only [Executed, stmt, storable, if_true] at locked
        obtain ⟨_, rfl, rfl⟩ := locked
        refine ⟨rfl, ?_⟩
        rw [own]
        split
        · exact .of each each.pending each.planned rfl (by rintro ⟨⟩) (fun _ => id) fun _ => id
        · rename_i conflicting
          refine .of each each.pending each.planned rfl (by rintro ⟨⟩) ?_ fun _ => id
          intro _ covered
          have absent := find_left each.planned covered
          cases absent.symm.trans conflicting
      · have raised : Executed world index ⟨.insert tunnel seen inserted (model :: left), pending,
              locks⟩ moved committed (stmt _) := executed
        simp only [stmt, storable] at raised
        obtain ⟨rfl, rfl⟩ := raised
        refine ⟨rfl, .of each rfl rfl rfl (by rintro ⟨⟩) ?_ fun _ => id⟩
        intro registered _
        exact absurd registered (timely_insert found rfl permitted storable)
  | conflict =>
    obtain ⟨_, rfl, rfl⟩ := executed
    refine ⟨rfl, ?_⟩
    dsimp only
    split
    · exact .of each each.pending rfl rfl (by rintro ⟨⟩) (fun _ => id) fun _ => id
    · exact .of each each.pending each.planned rfl (by rintro ⟨⟩) (fun _ => False.elim) fun _ => id
  | insertRow tunnel _ inserted model left =>
    obtain ⟨_, rfl, rfl⟩ := executed
    refine ⟨rfl, .of each ?_ ?_ rfl (by rintro ⟨⟩) (fun _ => id) fun _ => id⟩
    · funext db
      rw [each.pending]
      simp [Point.effect, Point.effect.recorded, Db.insert]
    · have planned : inserted ++ model :: left = tunnel.models := each.planned
      simpa [Point.planned, Point.tunnel] using planned
  | violated =>
    obtain ⟨rfl, rfl⟩ := executed
    exact ⟨rfl, .of each rfl rfl rfl (by rintro ⟨⟩) (fun _ => False.elim) fun _ => id⟩
  | markSeen | confirm | live =>
    obtain ⟨rfl, rfl⟩ := executed
    exact ⟨rfl, .of each each.pending rfl rfl (by rintro ⟨⟩) (fun _ => id) fun _ => id⟩
  | unregister =>
    obtain ⟨_, rfl, rfl⟩ := executed
    refine ⟨rfl, .of each ?_ rfl rfl (by rintro ⟨⟩) (fun _ => id) fun _ => id⟩
    rw [each.pending]
    rfl
  | isConnected _ =>
    obtain ⟨rfl, rfl⟩ := executed
    refine ⟨rfl, ?_⟩
    dsimp only
    rw [own]
    split
    · rename_i connected
      refine .of each each.pending rfl rfl (fun _ => rfl) (fun _ => id) ?_
      intro empty _
      simp [Point.effect, empty] at connected
    · exact .of each each.pending rfl rfl (fun _ => rfl) (fun _ => id) fun _ _ => trivial
  | clearSnapshot =>
    obtain ⟨rfl, rfl⟩ := executed
    refine ⟨rfl, .of each each.pending rfl rfl (fun _ => rfl) (fun _ => id) ?_⟩
    intro _ _
    change world.committed.rows ⊆ (pending world.committed).rows
    rw [own]
    exact List.Subset.refl _
  | clearDelete =>
    obtain ⟨_, rfl, rfl⟩ := executed
    refine ⟨rfl, .of each ?_ rfl rfl (fun _ => rfl) (fun _ => id) fun _ => id⟩
    rw [each.pending]
    rfl
  | closed | crashed => exact executed.elim

theorem Onward.aborted {index : Nat} (each : Each world.committed conn)
    (found : world.conns[index]? = some conn) (permitted : timely world (.abort index) = true) :
    Onward world.committed conn (.fresh (onAbort conn.point)) := by
  obtain ⟨point, _, _⟩ := conn
  simp only [timely, possible, Action.index, found, Bool.and_eq_true] at permitted
  obtain ⟨fails, harmless⟩ := permitted
  cases point with
  | snapshot | delete | insert | conflict | insertRow | violated =>
    refine .of each rfl rfl rfl (by rintro ⟨⟩) ?_ fun _ => id
    intro registered _
    simp [Point.recording, registered] at harmless
  | clearSnapshot | clearDelete | clearCommit =>
    refine .of each rfl rfl rfl (fun _ => rfl) ?_ ?_
    · intro _ serves
      cases serves.1
    · intro empty _
      simp [Point.recording, Point.clearing, empty] at harmless
  | markSeen | confirm => exact .of each rfl rfl rfl (by rintro ⟨⟩) (fun _ => id) fun _ => id
  | _ => cases fails

end

abbrev Kept (world : World Db Row Point) : Prop := Outline Whole Each Apart world

abbrev Safe (world : World Db Row Point) (index : Nat)
    (moved : Conn Db Row Point) (committed : Db) : Prop :=
  Undisturbed Whole Each Apart world index moved committed

section

variable {world : World Db Row Point} {index : Nat}
  {conn : Conn Db Row Point} {moved : Conn Db Row Point} {seen : List ModelRow} {point : Point}
  {rows : List ModelRow}

theorem exists_mem_set {Holds After : Conn Db Row Point → Prop}
    (found : world.conns[index]? = some conn) (witness : ∃ other ∈ world.conns, Holds other)
    (same : Holds conn → After moved) (others : ∀ other, Holds other → After other) :
    ∃ other ∈ world.conns.set index moved, After other := by
  obtain ⟨other, mem, holds⟩ := witness
  obtain ⟨place, located⟩ := List.getElem?_of_mem mem
  have inRange : index < world.conns.length := (List.getElem?_eq_some_iff.mp found).1
  by_cases here : place = index
  · subst here
    cases found.symm.trans located
    exact ⟨moved, mem_set inRange moved, same holds⟩
  · have kept : (world.conns.set index moved)[place]? = some other := by
      rw [List.getElem?_set_ne (Ne.symm here)]
      exact located
    exact ⟨other, mem_of_getElem? kept, others other holds⟩

theorem Kept.serves (kept : Kept world) (found : world.conns[index]? = some conn)
    (registered : world.committed.registry = some conn.point.tunnel) :
    conn.point.Serves world.committed.rows := by
  have whole := kept.whole
  simp only [Whole, registered] at whole
  obtain ⟨other, mem, same, serves⟩ := whole
  obtain ⟨place, located⟩ := List.getElem?_of_mem mem
  by_cases here : place = index
  · subst here
    cases found.symm.trans located
    exact serves
  · exact absurd (congrArg Tunnel.id same) (kept.pair place index other conn here located found)

theorem Each.others {before after : Db} {peer : Conn Db Row Point} (each : Each before peer)
    (unlike : after.registry = before.registry ∨ after.registry = none ∨
      ∃ tunnel, after.registry = some tunnel ∧ tunnel.id ≠ peer.point.tunnel.id) :
    Each after peer where
  pending := each.pending
  planned := each.planned
  away := by
    intro gone registered
    rcases unlike with same | empty | ⟨_, other, ne⟩
    · exact each.away gone (same.symm.trans registered)
    · cases empty.symm.trans registered
    · cases other.symm.trans registered
      exact ne rfl

theorem Kept.safe (kept : Kept world) (found : world.conns[index]? = some conn) {committed : Db}
    (whole : Whole { committed := committed
                     conns := world.conns.set index moved })
    (mover : Each committed moved)
    (tunnel : moved.point.tunnel = conn.point.tunnel)
    (registry : committed.registry = world.committed.registry ∨ committed.registry = none ∨
      committed.registry = some conn.point.tunnel) :
    Safe world index moved committed where
  whole := whole
  mover := mover
  others := by
    intro other peer ne located
    have apart := kept.pair other index peer conn ne located found
    refine ⟨(kept.each other peer located).others ?_, ?_, ?_⟩
    · rcases registry with same | empty | entered
      · exact .inl same
      · exact .inr (.inl empty)
      · exact .inr (.inr ⟨_, entered, apart.symm⟩)
    · change moved.point.tunnel.id ≠ peer.point.tunnel.id
      rw [tunnel]
      exact apart.symm
    · change peer.point.tunnel.id ≠ moved.point.tunnel.id
      rw [tunnel]
      exact apart

theorem Kept.onward (kept : Kept world) (found : world.conns[index]? = some conn)
    (onward : Onward world.committed conn moved) :
    Safe world index moved world.committed := by
  refine kept.safe found ?_ onward.each onward.tunnel (.inl rfl)
  have whole := kept.whole
  unfold Whole at whole ⊢
  cases registered : world.committed.registry with
  | none =>
    rw [registered] at whole
    rcases whole with empty | witness
    · exact .inl empty
    · exact .inr (exists_mem_set found witness (onward.clears registered) fun _ => id)
  | some =>
    rw [registered] at whole
    refine exists_mem_set found whole ?_ fun _ => id
    rintro ⟨rfl, serves⟩
    exact ⟨onward.tunnel, onward.serves registered serves⟩

theorem whole_of_awaitsDelete {after : Db} (found : world.conns[index]? = some conn)
    (elsewhere : ∀ tunnel, conn.point ≠ .snapshot tunnel) (awaits : awaitsDelete world = true)
    (registry : after.registry = world.committed.registry) :
    Whole { committed := after, conns := world.conns.set index moved } := by
  simp only [awaitsDelete, any_eq_true] at awaits
  obtain ⟨other, mem, waiting⟩ := awaits
  split at waiting
  · rename_i tunnel point
    have registered : after.registry = some tunnel := registry.trans (beq_iff_eq.mp waiting)
    simp only [Whole, registered]
    have witness : ∃ conn ∈ world.conns, conn.point = .snapshot tunnel := ⟨other, mem, point⟩
    refine exists_mem_set found witness (fun here => absurd here (elsewhere tunnel)) ?_
    intro _ point
    rw [point]
    exact ⟨rfl, trivial⟩
  · cases waiting

theorem filter_covered (covered : rows ⊆ seen) : rows.filter (· ∉ seen) = [] := by
  rw [filter_eq_nil_iff]
  intro _ stored unseen
  exact of_decide_eq_true unseen (covered stored)

theorem Point.Clears.mono {fewer : List ModelRow}
    (clears : point.Clears rows) (subset : fewer ⊆ rows) :
    point.Clears fewer := by
  cases point with
  | clearDelete | clearCommit => exact List.Subset.trans subset clears
  | _ => exact clears

theorem Kept.registering (kept : Kept world) {tunnel : Tunnel}
    (found : world.conns[index]? = some conn) (point : conn.point = .registering tunnel) :
    Safe world index (.fresh (.snapshot tunnel)) (world.committed.register tunnel) := by
  have inRange : index < world.conns.length := (List.getElem?_eq_some_iff.mp found).1
  refine kept.safe found ?_ ⟨rfl, rfl, (by rintro ⟨⟩)⟩ (by rw [point]; rfl)
    (.inr (.inr (by rw [point]; rfl)))
  exact ⟨_, mem_set inRange _, rfl, trivial⟩

theorem Kept.recorded (kept : Kept world) {tunnel : Tunnel} {seen : List ModelRow}
    {inserted : List String} (found : world.conns[index]? = some conn)
    (point : conn.point = .insert tunnel seen inserted [])
    (permitted : timely world (.exec index) = true) :
    Safe world index (.fresh (.markSeen tunnel)) (conn.point.effect world.committed) := by
  have inTime : world.committed.registry = some tunnel ∨ awaitsDelete world = true := by
    simpa [timely, possible, Action.index, found, point] using permitted
  have unchanged : (conn.point.effect world.committed).registry = world.committed.registry := by
    rw [point]
    rfl
  refine kept.safe found ?_ ⟨rfl, rfl, (by rintro ⟨⟩)⟩ (by rw [point]; rfl) (.inl unchanged)
  rcases inTime with registered | awaits
  · have covered : world.committed.rows ⊆ seen := by
      have serves := kept.serves found (by rw [point]; exact registered)
      rwa [point] at serves
    have planned : inserted = tunnel.models := by
      have planned := (kept.each index conn found).planned
      rw [point] at planned
      simpa [Point.planned, Point.tunnel] using planned
    have inRange : index < world.conns.length := (List.getElem?_eq_some_iff.mp found).1
    simp only [Whole, unchanged, registered]
    refine ⟨_, mem_set inRange _, rfl, rfl, ?_⟩
    rw [point]
    change (world.committed.rows.filter (· ∉ seen) ++
      inserted.map fun model => (⟨tunnel.id, model⟩ : ModelRow)).map ModelRow.model = tunnel.models
    rw [filter_covered covered, planned]
    simp [Function.comp_def]
  · refine whole_of_awaitsDelete found ?_ awaits unchanged
    intro _ here
    cases point.symm.trans here

theorem Kept.unregistering (kept : Kept world) {tunnel : Tunnel}
    (found : world.conns[index]? = some conn) (point : conn.point = .unregistering tunnel) :
    Safe world index (.fresh (.isConnected tunnel)) (world.committed.unregister tunnel) := by
  have inRange : index < world.conns.length := (List.getElem?_eq_some_iff.mp found).1
  have whole := kept.whole
  by_cases registered : world.committed.registry = some tunnel
  · have emptied : world.committed.unregister tunnel =
        { world.committed with registry := none } := if_pos registered
    rw [emptied]
    refine kept.safe found ?_ ⟨rfl, rfl, (by rintro ⟨⟩ ⟨⟩)⟩ (by rw [point]; rfl) (.inr (.inl rfl))
    exact .inr ⟨_, mem_set inRange _, trivial⟩
  · have unchanged : world.committed.unregister tunnel = world.committed := if_neg registered
    rw [unchanged]
    refine kept.safe found ?_ ⟨rfl, rfl, fun _ => registered⟩ (by rw [point]; rfl) (.inl rfl)
    unfold Whole at whole ⊢
    cases current : world.committed.registry with
    | none =>
      rw [current] at whole
      refine whole.imp id fun witness =>
        exists_mem_set found witness ?_ fun _ => id
      rw [point]
      exact False.elim
    | some =>
      rw [current] at whole
      refine exists_mem_set found whole ?_ fun _ => id
      rintro ⟨same, _⟩
      rw [point] at same
      exact absurd (current.trans (congrArg some same.symm)) registered

theorem Kept.cleared (kept : Kept world) {tunnel : Tunnel} (found : world.conns[index]? = some conn)
    (point : conn.point = .clearCommit tunnel seen)
    (permitted : timely world (.exec index) = true) :
    Safe world index (.fresh (.closed tunnel)) (world.committed.erase seen) := by
  have inTime : world.committed.registry = none ∨ awaitsDelete world = true := by
    simpa [timely, possible, Action.index, found, point] using permitted
  have each := kept.each index conn found
  have away : world.committed.registry ≠ some tunnel := by
    have away := each.away (by rw [point]; rfl)
    rwa [point] at away
  refine kept.safe found ?_ ⟨rfl, rfl, fun _ => away⟩ (by rw [point]; rfl) (.inl rfl)
  rcases inTime with empty | awaits
  · have whole := kept.whole
    simp only [Whole, empty, Db.erase] at whole ⊢
    by_cases covered : world.committed.rows ⊆ seen
    · exact .inl (filter_covered covered)
    · rcases whole with none | witness
      · rw [none] at covered
        exact absurd (nil_subset seen) covered
      · refine .inr (exists_mem_set found witness ?_ fun _ clears =>
          clears.mono (filter_subset_self _))
        intro clears
        rw [point] at clears
        exact absurd clears covered
  · refine whole_of_awaitsDelete found ?_ awaits rfl
    intro _ here
    cases point.symm.trans here

theorem kept_undisturbed {action : Action} {committed : Db} (kept : Kept world)
    (permitted : timely world action) (found : world.conns[action.index]? = some conn)
    (acts : Acts program world conn moved committed action) :
    Safe world action.index moved committed := by
  have each := kept.each _ conn found
  cases action with
  | abort =>
    obtain ⟨rfl, rfl⟩ := acts
    exact kept.onward found (.aborted each found permitted)
  | exec =>
    by_cases commits : ∃ next, stmt conn.point = .commit next
    · obtain ⟨next, code⟩ := commits
      have executed : moved = .fresh next ∧ committed = conn.pending world.committed := by
        simpa only [Acts, Executed, program, code] using acts
      obtain ⟨rfl, rfl⟩ := executed
      rw [each.pending]
      -- four control points commit
      cases point : conn.point with
      | registering =>
        rw [point] at code
        cases code
        exact kept.registering found point
      | insert _ _ _ left =>
        rw [point] at code
        cases left with
        | nil =>
          cases code
          have safe := kept.recorded found point permitted
          rwa [point] at safe
        | cons =>
          simp only [stmt] at code
          split at code <;> cases code
      | unregistering =>
        rw [point] at code
        cases code
        exact kept.unregistering found point
      | clearCommit =>
        rw [point] at code
        cases code
        exact kept.cleared found point permitted
      | _ =>
        rw [point] at code
        cases code
    · have running : ∀ next, stmt conn.point ≠ .commit next := fun next code => commits ⟨next, code⟩
      obtain ⟨rfl, onward⟩ := Onward.executed each found permitted acts running
      exact kept.onward found onward

theorem start_kept (declared : List Py.Value) : Kept (start declared) where
  whole := .inl rfl
  each := by
    intro _ _ found
    simp only [start, List.getElem?_mapIdx, Option.map_eq_some_iff] at found
    obtain ⟨_, _, rfl⟩ := found
    exact ⟨rfl, rfl, (by rintro ⟨⟩ ⟨⟩)⟩
  pair := by
    intro _ _ _ _ ne leftFound rightFound
    simp only [start, List.getElem?_mapIdx, Option.map_eq_some_iff] at leftFound rightFound
    obtain ⟨_, _, rfl⟩ := leftFound
    obtain ⟨_, _, rfl⟩ := rightFound
    exact ne
  compatible := by
    intro _ _ _ _ _ found _ _ _ _ held
    simp only [start, List.getElem?_mapIdx, Option.map_eq_some_iff] at found
    obtain ⟨_, _, rfl⟩ := found
    cases held

theorem Point.Clears.busy (clears : point.Clears rows) : point.busy = true := by
  cases point with
  | isConnected | clearSnapshot | clearDelete | clearCommit => rfl
  | _ => exact clears.elim

theorem Point.Serves.of_idle (serves : point.Serves rows) (idle : point.busy = false) :
    rows.map ModelRow.model = point.tunnel.models := by
  cases point with
  | connect | live | closed | crashed => exact serves.2
  | _ => cases idle

/-- Whenever no handshake and no teardown is in progress, the rows are the
cleaned models of the registered tunnel, provided the commits before were in
time. -/
theorem rows_follow_tunnel {declared : List Py.Value} {world : World Db Row Point}
    (reached : Reaches program (fun world action => timely world action = true)
      (start declared) world) (idle : ∀ conn ∈ world.conns, conn.point.busy = false) :
    world.committed.rows.map ModelRow.model =
      match world.committed.registry with
      | none => []
      | some tunnel => tunnel.models := by
  have kept : Kept world := reached.outline_acts (start_kept declared)
    fun _ _ _ _ _ kept permitted found _ acts =>
      kept_undisturbed kept permitted found acts
  have whole := kept.whole
  unfold Whole at whole
  cases registered : world.committed.registry with
  | none =>
    rw [registered] at whole
    rcases whole with empty | ⟨conn, member, clears⟩
    · rw [empty]
      rfl
    · cases (idle conn member).symm.trans clears.busy
  | some =>
    rw [registered] at whole
    obtain ⟨conn, member, same, serves⟩ := whole
    exact same ▸ serves.of_idle (idle conn member)

end

def reconnects : World Db Row Point := start [.list [.str " m "], .list [.str "m", .int 3]]

def handshake (index : Nat) : List Action := List.replicate 9 (.exec index)

theorem rows_follow_tunnel_superseded : ∃ world : World Db Row Point,
      run program (fun world action => timely world action = true) reconnects
        (handshake 0 ++ [.exec 1, .exec 1] ++
          List.replicate 4 (.exec 0) ++ List.replicate 7 (.exec 1)) = some world ∧
      world.committed.registry = some (.of 1 (.list [.str "m", .int 3])) ∧
      world.committed.rows.map ModelRow.model =
        match world.committed.registry with
        | none => []
        | some tunnel => tunnel.models := by
  obtain ⟨world, ran, registered, idle⟩ : ∃ world ∈ run program
      (fun world action => timely world action = true) reconnects
      (handshake 0 ++ [.exec 1, .exec 1] ++
        List.replicate 4 (.exec 0) ++ List.replicate 7 (.exec 1)),
      world.committed.registry = some (.of 1 (.list [.str "m", .int 3])) ∧
        ∀ conn ∈ world.conns, conn.point.busy = false := by
    decide +kernel
  exact ⟨world, ran, registered, rows_follow_tunnel (reaches_of_run .refl ran) idle⟩

/-- The old connection asks whether a tunnel is registered, and clears the
rows once the new one has written them: the live node serves no model. -/
theorem late_clear_erases_live_models : ∃ world : World Db Row Point,
      Reaches program (fun world action => possible world action = true) reconnects world ∧
      (∀ conn ∈ world.conns, conn.point.busy = false) ∧
      (∃ tunnel, world.committed.registry = some tunnel ∧ tunnel.models = ["m"]) ∧
      world.committed.rows = [] := by
  obtain ⟨world, ran, idle, ⟨tunnel, found, models⟩, rows⟩ : ∃ world ∈ run program
      (fun world action => possible world action = true) reconnects
      (handshake 0 ++ List.replicate 4 (.exec 0) ++ handshake 1 ++ List.replicate 3 (.exec 0)),
      (∀ conn ∈ world.conns, conn.point.busy = false) ∧
        (∃ tunnel ∈ world.committed.registry, tunnel.models = ["m"]) ∧
        world.committed.rows = [] := by
    decide +kernel
  exact ⟨world, reaches_of_run .refl ran, idle, ⟨tunnel, found, models⟩, rows⟩

end Gridix.Relay
