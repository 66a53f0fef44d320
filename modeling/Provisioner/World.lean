import Provisioner.Daemon
import Provisioner.Resumption.Interleaving

/-!
# The shared world and its calls

The database, the Docker daemon, the broker, the clock and the metrics, and the
calls that the API and the worker make on them. A call is one atomic step: a
statement or commit of a transaction at READ COMMITTED, one request to the
daemon, one published message. The `Choice` of a step says how the world
answers, so every failure the code can meet is a choice.
-/

namespace Provisioner

/-- The Celery tasks that carry an environment id. -/
inductive Task
  | provision
  | teardown
  deriving DecidableEq

/-- `max_retries` of a task. -/
def Task.maxRetries : Task → Nat
  | provision => 3
  | teardown => 2

/-- A task message; it is not delivered before its ETA. -/
structure Message where
  task : Task
  envId : String
  retries : Nat
  notBefore : Time
  deriving DecidableEq

/-- `metrics.Outcome` -/
inductive Outcome
  | success
  | failure
  | retry
  deriving DecidableEq

/-- One recorded sample. -/
inductive Metric
  | provisionTotal (template : String) (outcome : Outcome)
  | provisionDuration (template : String) (elapsed : Int)
  | teardownTotal (outcome : Outcome)
  deriving DecidableEq

/-- Everything that the processes share. -/
structure World where
  /-- The committed rows. -/
  db : Environments
  docker : Daemon
  /-- Published messages that no worker has taken yet. -/
  queue : List Message
  /-- All messages ever published. -/
  sent : List Message
  clock : Time
  /-- The UUIDs that `uuid.uuid4` has generated. -/
  issued : List Uuid
  /-- The id of the next published task. -/
  nextTask : TaskId
  metrics : List Metric

/-- The world before the first request. -/
def World.initial (refusesDuplicateNetworks : Bool) : World where
  db := .empty
  docker := .empty refusesDuplicateNetworks
  queue := []
  sent := []
  clock := 0
  issued := []
  nextTask := 0
  metrics := []

/-- The calls of the API and the worker. -/
inductive Call
  /-- `datetime.now`, `time.time` or `time.monotonic` -/
  | now
  /-- The end of a `time.sleep`. -/
  | sleepUntil (instant : Time)
  | loadEnvironment (id : Uuid)
  | countActive (owner : String)
  | findActive (owner name : String)
  | countOwned (owner : String) (status : Option EnvironmentStatus)
  | listOwned (owner : String) (status : Option EnvironmentStatus)
      (limit offset : Nat)
  | selectExpired (now : Time)
  /-- A query that first flushes the session's pending changes. -/
  | selectStale (status : EnvironmentStatus) (cutoff : Time) (pending : List Change)
  /-- Flush an insert, which generates the primary key. -/
  | flushInsert (name owner template : String) (ttlSeconds : Int)
  | commitInsert (env : Environment)
  | commitChanges (changes : List Change)
  /-- `apply_async` -/
  | publish (task : Task) (envId : String) (retries : Nat) (countdown : Int)
  | networksCreate (name label : String)
  | networkGet (id : DockerId)
  | networkRemove (id : DockerId)
  | networksList
  | containersRun (request : Compose.RunRequest)
  | containerReload (id : DockerId)
  | containerGet (id : DockerId)
  | containerStop (id : DockerId)
  | containerRemove (id : DockerId)
  | containersList
  | record (metric : Metric)

namespace Call

/-- What a call returns when it does not raise. -/
abbrev Result : Call → Type
  | now => Time
  | sleepUntil _ => Unit
  | loadEnvironment _ => Option Environment
  | countActive _ => Nat
  | findActive _ _ => List Environment
  | countOwned _ _ => Nat
  | listOwned _ _ _ _ => List Environment
  | selectExpired _ => List Environment
  | selectStale _ _ _ => List Environment
  | flushInsert _ _ _ _ => Environment
  | commitInsert _ => Unit
  | commitChanges _ => Unit
  | publish _ _ _ _ => TaskId
  | networksCreate _ _ => DockerId
  | networkGet _ => Unit
  | networkRemove _ => Unit
  | networksList => List Network
  | containersRun _ => DockerId
  | containerReload _ => Observation
  | containerGet _ => Unit
  | containerStop _ => Unit
  | containerRemove _ => Unit
  | containersList => List Container
  | record _ => Unit

/-- The kinds of services that a call goes to. -/
inductive Target
  | process
  | database
  | broker
  | docker
  deriving DecidableEq

/-- The service that answers a call. -/
def target : Call → Target
  | now | sleepUntil _ | record _ => .process
  | loadEnvironment _ | countActive _ | findActive _ _ | countOwned _ _
  | listOwned _ _ _ _ | selectExpired _ | selectStale _ _ _
  | flushInsert _ _ _ _ | commitInsert _ | commitChanges _ => .database
  | publish _ _ _ _ => .broker
  | networksCreate _ _ | networkGet _ | networkRemove _ | networksList
  | containersRun _ | containerReload _ | containerGet _ | containerStop _
  | containerRemove _ | containersList => .docker

/-- The exceptions that a service can answer with. -/
def Target.raises : Target → ExceptionClass → Bool
  | process, _ => false
  | database, cls => cls = .databaseError
  | broker, cls => cls = .brokerError
  | docker, cls => cls = .apiError || cls = .notFound || cls = .imageNotFound

end Call

/-- An answer: a result or a raised exception. -/
abbrev Reply (request : Call) : Type :=
  Except Exn request.Result

/-- How the world answers a call. -/
inductive Choice
  /-- The call succeeds, as far as the state of the world permits. -/
  | ok
  /-- The call fails and has no effect. -/
  | fail (exc : Exn)
  /-- The daemon creates the resource and then reports a failure. -/
  | failAfter (exc : Exn)
  /-- The insert succeeds with this primary key. -/
  | fresh (id : Uuid)
  /-- The rows come back in this order. -/
  | rows (rows : List Environment)
  /-- The containers come back in this order. -/
  | containers (containers : List Container)
  /-- The networks come back in this order. -/
  | networks (networks : List Network)
  /-- The container has these attributes. -/
  | observed (observation : Observation)
  deriving DecidableEq

namespace Environments

variable (db : Environments)

/-- The rows of an owner, optionally of one status. -/
def owned (owner : String) (status : Option EnvironmentStatus) : List Environment :=
  db.rows.filter fun row =>
    row.owner = owner ∧ ∀ wanted ∈ status, row.status = wanted

/-- The rows that `reap_expired_environments` selects. -/
def expired (now : Time) : List Environment :=
  db.rows.filter fun row =>
    row.status = .running ∧ ∃ expiresAt ∈ row.expiresAt, expiresAt ≤ now

/-- The rows that `recover_stale_transitions` selects for one status. -/
def stale (status : EnvironmentStatus) (cutoff : Time) : List Environment :=
  db.rows.filter fun row =>
    row.status = status ∧ ∃ changedAt ∈ row.statusChangedAt, changedAt ≤ cutoff

end Environments

namespace World

variable (world : World)

/-- The page of a listing that is already in order. -/
def page (limit offset : Nat) (rows : List Environment) : List Environment :=
  (rows.drop offset).take limit

/-- The rows a query selects, in the order of the table. -/
def selected : (request : Call) → List Environment
  | .findActive owner name => world.db.activeNamed owner name
  | .selectExpired now => world.db.expired now
  | .selectStale status cutoff pending =>
      (world.db.writeAll pending).stale status cutoff
  | .listOwned owner status _ _ =>
      (world.db.owned owner status).mergeSort
        fun first second => second.createdAt ≤ first.createdAt
  | _ => []

/-- Docker answers that something does not exist. -/
def missing {α : Type} (what : String) : Except Exn α × World :=
  (.error ⟨.notFound, "No such " ++ what⟩, world)

/-- `networks.create` -/
def networksCreate (name label : String) : Except Exn DockerId × World :=
  if world.docker.refusesDuplicateNetworks ∧ world.docker.networksNamed name ≠ [] then
    (.error ⟨.apiError, "network with name " ++ name ++ " already exists"⟩, world)
  else
    (.ok world.docker.nextId,
      { world with docker := world.docker.addNetwork name (some label) world.clock })

/-- `containers.run` -/
def containersRun (request : Compose.RunRequest) : Except Exn DockerId × World :=
  if free : world.docker.nameTaken request.name = false then
    match world.docker.resolveNetwork request.network with
    | .error exc => (.error exc, world)
    | .ok network =>
        (.ok world.docker.nextId,
          { world with
            docker := world.docker.addContainer request (some network) world.clock free })
  else
    (.error ⟨.apiError, "Conflict. The container name " ++ request.name ++
      " is already in use"⟩, world)

/-- A container is created, but `containers.run` raises. -/
def containersRunLeft (request : Compose.RunRequest) (exc : Exn) :
    Option (Except Exn DockerId × World) :=
  if free : world.docker.nameTaken request.name = false then
    some (.error exc,
      { world with
        docker := world.docker.addContainer request
          (world.docker.resolveNetwork request.network).toOption world.clock free })
  else none

/-- `container.remove(force=True)` -/
def containerRemove (id : DockerId) : Except Exn Unit × World :=
  if (world.docker.containers.find id).isSome then
    (.ok (), { world with docker := world.docker.removeContainer id })
  else world.missing "container"

/-- `network.remove()`: a network in use cannot be removed. -/
def networkRemove (id : DockerId) : Except Exn Unit × World :=
  if (world.docker.networks.find id).isSome then
    if world.docker.attached id then
      (.error ⟨.apiError, "network has active endpoints"⟩, world)
    else (.ok (), { world with docker := world.docker.removeNetwork id })
  else world.missing "network"

/-- A request about one container. -/
def onContainer (id : DockerId) : Except Exn Unit × World :=
  if (world.docker.containers.find id).isSome then (.ok (), world)
  else world.missing "container"

/-- A request about one network. -/
def onNetwork (id : DockerId) : Except Exn Unit × World :=
  if (world.docker.networks.find id).isSome then (.ok (), world)
  else world.missing "network"

/-- The commit of an insert. -/
def commitInsert (env : Environment) : Except Exn Unit × World :=
  if absent : world.db.find env.id = none then
    (.ok (), { world with db := world.db.insert env absent })
  else (.error ⟨.databaseError, "duplicate key value"⟩, world)

/-- A published message goes to the end of the queue. -/
def publish (task : Task) (envId : String) (retries : Nat) (countdown : Int) : World :=
  let message : Message := ⟨task, envId, retries, world.clock + seconds countdown⟩
  { world with
    queue := world.queue ++ [message]
    sent := world.sent ++ [message]
    nextTask := world.nextTask + 1 }

/-- The flush of an insert with a new primary key. The row stays invisible to
others until it is committed. -/
def flushInsert (id : Uuid) (name owner template : String) (ttlSeconds : Int) :
    Except Exn Environment × World :=
  let row := Environment.inserted id name owner template ttlSeconds world.clock
  if row.fitsColumns then (.ok row, { world with issued := id :: world.issued })
  else (.error ⟨.databaseError, row.misfit⟩, world)

/-- The reply to a count over the rows of an owner: PostgreSQL takes no text with a null
character. -/
def counted (owner : String) (count : Nat) : Except Exn Nat :=
  if '\x00' ∈ owner.toList then .error ⟨.databaseError, Environment.nullByte⟩ else .ok count

theorem counted_of_null {owner : String} (null : '\x00' ∈ owner.toList) (count : Nat) :
    counted owner count = .error ⟨.databaseError, Environment.nullByte⟩ :=
  if_pos null

theorem counted_of_clean {owner : String} (clean : '\x00' ∉ owner.toList) (count : Nat) :
    counted owner count = .ok count :=
  if_neg clean

/-- A call that the world lets succeed. -/
def succeed : (request : Call) → Option (Reply request × World)
  | .now => some (.ok world.clock, world)
  | .sleepUntil instant => some (.ok (), { world with clock := max world.clock instant })
  | .loadEnvironment id => some (.ok (world.db.find id), world)
  -- Whoever looks up or lists rows of an owner has counted them before.
  | .countActive owner => some (counted owner (world.db.activeCount owner), world)
  | .countOwned owner status =>
      some (counted owner (world.db.owned owner status).length, world)
  | .findActive owner name => some (.ok (world.selected (.findActive owner name)), world)
  | .selectExpired now => some (.ok (world.selected (.selectExpired now)), world)
  | .selectStale status cutoff pending =>
      some (.ok (world.selected (.selectStale status cutoff pending)), world)
  | .listOwned owner status limit offset =>
      some (.ok (page limit offset
        (world.selected (.listOwned owner status limit offset))), world)
  | .flushInsert _ _ _ _ => none
  | .commitInsert env => some (world.commitInsert env)
  | .commitChanges changes => some (.ok (), { world with db := world.db.writeAll changes })
  | .publish task envId retries countdown =>
      some (.ok world.nextTask, world.publish task envId retries countdown)
  | .networksCreate name label => some (world.networksCreate name label)
  | .networkGet id => some (world.onNetwork id)
  | .networkRemove id => some (world.networkRemove id)
  | .networksList =>
      some (.ok (world.docker.networks.rows.filter fun row => row.envLabel.isSome), world)
  | .containersRun request => some (world.containersRun request)
  | .containerReload id =>
      if (world.docker.containers.find id).isSome then none
      else some (world.missing "container")
  | .containerGet id => some (world.onContainer id)
  | .containerStop id => some (world.onContainer id)
  | .containerRemove id => some (world.containerRemove id)
  | .containersList =>
      some (.ok (world.docker.containers.rows.filter fun row => row.envLabel.isSome), world)
  | .record metric => some (.ok (), { world with metrics := world.metrics ++ [metric] })

/-- A creation that takes effect and still raises. -/
def failAfter (exc : Exn) : (request : Call) → Option (Reply request × World)
  | .networksCreate name label =>
      match world.networksCreate name label with
      | (.ok _, next) => some (.error exc, next)
      | (.error _, _) => none
  | .containersRun request => world.containersRunLeft request exc
  | _ => none

/-- A query answered in another order than that of the table. -/
def ordered (rows : List Environment) : (request : Call) → Option (Reply request × World)
  | .findActive owner name =>
      if rows.Perm (world.selected (.findActive owner name)) then some (.ok rows, world)
      else none
  | .selectExpired now =>
      if rows.Perm (world.selected (.selectExpired now)) then some (.ok rows, world)
      else none
  | .selectStale status cutoff pending =>
      if rows.Perm (world.selected (.selectStale status cutoff pending)) then
        some (.ok rows, world)
      else none
  | .listOwned owner status limit offset =>
      if rows.Perm (world.selected (.listOwned owner status limit offset)) ∧
          rows.Pairwise (fun first second => second.createdAt ≤ first.createdAt) then
        some (.ok (page limit offset rows), world)
      else none
  | _ => none

/-- Answer a call; `none` when the choice is not open in this state. -/
def exec (request : Call) : Choice → Option (Reply request × World)
  | .ok => world.succeed request
  | .fail exc =>
      if request.target.raises exc.cls then some (.error exc, world) else none
  | .failAfter exc =>
      if request.target.raises exc.cls then world.failAfter exc request else none
  | .fresh id =>
      match request with
      | .flushInsert name owner template ttlSeconds =>
          if id ∈ world.issued then none
          else some (world.flushInsert id name owner template ttlSeconds)
      | _ => none
  | .rows rows => world.ordered rows request
  | .containers containers =>
      match request with
      | .containersList =>
          if containers.Perm (world.docker.containers.rows.filter fun row =>
              row.envLabel.isSome) then some (.ok containers, world)
          else none
      | _ => none
  | .networks networks =>
      match request with
      | .networksList =>
          if networks.Perm (world.docker.networks.rows.filter fun row =>
              row.envLabel.isSome) then some (.ok networks, world)
          else none
      | _ => none
  | .observed observation =>
      match request with
      | .containerReload id =>
          if (world.docker.containers.find id).isSome then some (.ok observation, world)
          else none
      | _ => none

/-- What a call that leaves the world alone returns. -/
def Reads (world : World) : (request : Call) → request.Result → Prop
  | .now, instant => instant = world.clock
  | .loadEnvironment id, row => row = world.db.find id
  | .countActive owner, count => count = world.db.activeCount owner
  | .countOwned owner status, count => count = (world.db.owned owner status).length
  | .findActive owner name, rows => rows.Perm (world.selected (.findActive owner name))
  | .selectExpired now, rows => rows.Perm (world.selected (.selectExpired now))
  | .selectStale status cutoff pending, rows =>
      rows.Perm (world.selected (.selectStale status cutoff pending))
  | .listOwned owner status limit offset, rows =>
      ∃ full : List Environment,
        full.Perm (world.selected (.listOwned owner status limit offset)) ∧
          rows = page limit offset full
  | .containersList, containers => containers.Perm
      (world.docker.containers.rows.filter fun row => row.envLabel.isSome)
  | .networksList, networks => networks.Perm
      (world.docker.networks.rows.filter fun row => row.envLabel.isSome)
  | .containerGet id, _ => (world.docker.containers.find id).isSome
  | .containerStop id, _ => (world.docker.containers.find id).isSome
  | .containerReload id, _ => (world.docker.containers.find id).isSome
  | .networkGet id, _ => (world.docker.networks.find id).isSome
  | _, _ => False

/-- Everything that one answered call can do. -/
inductive Effect (world : World) : (request : Call) → Reply request → World → Prop
  | failed (request : Call) (exc : Exn) :
      request.target.raises exc.cls = true →
      Effect world request (.error exc) world
  | read (request : Call) (result : request.Result) :
      world.Reads request result →
      Effect world request (.ok result) world
  | slept (instant : Time) :
      Effect world (.sleepUntil instant) (.ok ())
        { world with clock := max world.clock instant }
  | flushed (id : Uuid) (name owner template : String) (ttlSeconds : Int) :
      id ∉ world.issued →
      (Environment.inserted id name owner template ttlSeconds world.clock).fitsColumns →
      Effect world (.flushInsert name owner template ttlSeconds)
        (.ok (Environment.inserted id name owner template ttlSeconds world.clock))
        { world with issued := id :: world.issued }
  | inserted (env : Environment) (absent : world.db.find env.id = none) :
      Effect world (.commitInsert env) (.ok ())
        { world with db := world.db.insert env absent }
  | committed (changes : List Change) :
      Effect world (.commitChanges changes) (.ok ())
        { world with db := world.db.writeAll changes }
  | published (task : Task) (envId : String) (retries : Nat) (countdown : Int) :
      Effect world (.publish task envId retries countdown) (.ok world.nextTask)
        (world.publish task envId retries countdown)
  | networkCreated (name label : String) (reply : Reply (.networksCreate name label)) :
      (∀ id, reply = .ok id → id = world.docker.nextId) →
      (∀ exc, reply = .error exc → Call.Target.docker.raises exc.cls = true) →
      Effect world (.networksCreate name label) reply
        { world with docker := world.docker.addNetwork name (some label) world.clock }
  | containerCreated (request : Compose.RunRequest) (reply : Reply (.containersRun request))
      (network : Option DockerId) (free : world.docker.nameTaken request.name = false) :
      (∀ id, reply = .ok id → id = world.docker.nextId) →
      (∀ exc, reply = .error exc → Call.Target.docker.raises exc.cls = true) →
      (∀ id, network = some id → world.docker.resolveNetwork request.network = .ok id) →
      Effect world (.containersRun request) reply
        { world with
          docker := world.docker.addContainer request network world.clock free }
  | containerRemoved (id : DockerId) :
      (world.docker.containers.find id).isSome →
      Effect world (.containerRemove id) (.ok ())
        { world with docker := world.docker.removeContainer id }
  | networkRemoved (id : DockerId) :
      (world.docker.networks.find id).isSome →
      world.docker.attached id = false →
      Effect world (.networkRemove id) (.ok ())
        { world with docker := world.docker.removeNetwork id }
  | recorded (metric : Metric) :
      Effect world (.record metric) (.ok ())
        { world with metrics := world.metrics ++ [metric] }

variable {world next : World}

/-- An unambiguous name resolves to a network; otherwise Docker raises. -/
private theorem raises_of_resolveNetwork {daemon : Daemon} {name : String} {exc : Exn}
    (refused : daemon.resolveNetwork name = .error exc) :
    Call.Target.docker.raises exc.cls = true := by
  unfold Daemon.resolveNetwork at refused
  split at refused
  · cases refused
  · cases refused
    rfl
  · cases refused
    rfl

/-- What a successful answer does. -/
theorem succeed_effect {request : Call} {reply : Reply request}
    (executed : world.succeed request = some (reply, next)) :
    world.Effect request reply next := by
  cases request with
  | now => cases executed; exact .read .now _ rfl
  | sleepUntil instant => cases executed; exact .slept instant
  | loadEnvironment id => cases executed; exact .read (.loadEnvironment id) _ rfl
  | countActive owner =>
      cases executed
      unfold World.counted
      split
      · exact .failed (.countActive owner) _ rfl
      · exact .read (.countActive owner) _ rfl
  | countOwned owner status =>
      cases executed
      unfold World.counted
      split
      · exact .failed (.countOwned owner status) _ rfl
      · exact .read (.countOwned owner status) _ rfl
  | findActive owner name =>
      cases executed
      exact .read (.findActive owner name) _ (.refl _)
  | selectExpired now =>
      cases executed
      exact .read (.selectExpired now) _ (.refl _)
  | selectStale status cutoff pending =>
      cases executed
      exact .read (.selectStale status cutoff pending) _ (.refl _)
  | listOwned owner status limit offset =>
      cases executed
      exact .read (.listOwned owner status limit offset) _ ⟨_, .refl _, rfl⟩
  | flushInsert name owner template ttlSeconds => cases executed
  | commitInsert env =>
      simp only [succeed, commitInsert] at executed
      split at executed
      · rename_i absent
        cases executed
        exact .inserted env absent
      · cases executed
        exact .failed (.commitInsert env) _ rfl
  | commitChanges changes => cases executed; exact .committed changes
  | publish task envId retries countdown =>
      cases executed
      exact .published task envId retries countdown
  | networksCreate name label =>
      simp only [succeed, networksCreate] at executed
      split at executed
      · cases executed
        exact .failed (.networksCreate name label) _ rfl
      · cases executed
        refine .networkCreated name label _ (fun id equal => ?_) (fun exc equal => ?_)
        · cases equal
          rfl
        · cases equal
  | networkGet id =>
      simp only [succeed, onNetwork] at executed
      split at executed
      · rename_i found
        cases executed
        exact .read (.networkGet id) () found
      · cases executed
        exact .failed (.networkGet id) _ rfl
  | networkRemove id =>
      simp only [succeed, networkRemove] at executed
      split at executed
      · rename_i found
        split at executed
        · cases executed
          exact .failed (.networkRemove id) _ rfl
        · rename_i idle
          cases executed
          exact .networkRemoved id found (by simpa using idle)
      · cases executed
        exact .failed (.networkRemove id) _ rfl
  | networksList => cases executed; exact .read .networksList _ (.refl _)
  | containersRun request =>
      simp only [succeed, containersRun] at executed
      split at executed
      · rename_i free
        split at executed
        · rename_i exc refused
          cases executed
          exact .failed (.containersRun request) _ (raises_of_resolveNetwork refused)
        · rename_i network resolved
          cases executed
          refine .containerCreated request _ (some network) free ?_ ?_ ?_
          · intro id equal
            cases equal
            rfl
          · intro exc equal
            cases equal
          · intro id equal
            cases equal
            exact resolved
      · cases executed
        exact .failed (.containersRun request) _ rfl
  | containerReload id =>
      simp only [succeed] at executed
      split at executed
      · cases executed
      · cases executed
        exact .failed (.containerReload id) _ rfl
  | containerGet id =>
      simp only [succeed, onContainer] at executed
      split at executed
      · rename_i found
        cases executed
        exact .read (.containerGet id) () found
      · cases executed
        exact .failed (.containerGet id) _ rfl
  | containerStop id =>
      simp only [succeed, onContainer] at executed
      split at executed
      · rename_i found
        cases executed
        exact .read (.containerStop id) () found
      · cases executed
        exact .failed (.containerStop id) _ rfl
  | containerRemove id =>
      simp only [succeed, containerRemove] at executed
      split at executed
      · rename_i found
        cases executed
        exact .containerRemoved id found
      · cases executed
        exact .failed (.containerRemove id) _ rfl
  | containersList => cases executed; exact .read .containersList _ (.refl _)
  | record metric => cases executed; exact .recorded metric

/-- What a creation that raises after its effect does. -/
theorem failAfter_effect {request : Call} {reply : Reply request} {exc : Exn}
    (raises : request.target.raises exc.cls = true)
    (executed : world.failAfter exc request = some (reply, next)) :
    world.Effect request reply next := by
  cases request with
  | networksCreate name label =>
      simp only [failAfter, networksCreate] at executed
      split at executed
      · rename_i created
        split at created
        · cases created
        · cases created
          cases executed
          refine .networkCreated name label _ (fun id equal => ?_) (fun other equal => ?_)
          · cases equal
          · cases equal
            exact raises
      · cases executed
  | containersRun request =>
      simp only [failAfter, containersRunLeft] at executed
      split at executed
      · rename_i free
        cases executed
        refine .containerCreated request _ _ free ?_ ?_ ?_
        · intro id equal
          cases equal
        · intro other equal
          cases equal
          exact raises
        · intro id equal
          cases resolved : world.docker.resolveNetwork request.network with
          | ok network =>
              rw [resolved] at equal
              cases equal
              rfl
          | error refused =>
              rw [resolved] at equal
              cases equal
      · cases executed
  | _ => cases executed

/-- What a query answered in another order does. -/
theorem ordered_effect {request : Call} {reply : Reply request} {rows : List Environment}
    (executed : world.ordered rows request = some (reply, next)) :
    world.Effect request reply next := by
  cases request with
  | findActive owner name =>
      simp only [ordered] at executed
      split at executed
      · rename_i permuted
        cases executed
        exact .read (.findActive owner name) rows permuted
      · cases executed
  | selectExpired now =>
      simp only [ordered] at executed
      split at executed
      · rename_i permuted
        cases executed
        exact .read (.selectExpired now) rows permuted
      · cases executed
  | selectStale status cutoff pending =>
      simp only [ordered] at executed
      split at executed
      · rename_i permuted
        cases executed
        exact .read (.selectStale status cutoff pending) rows permuted
      · cases executed
  | listOwned owner status limit offset =>
      simp only [ordered] at executed
      split at executed
      · rename_i permuted
        cases executed
        exact .read (.listOwned owner status limit offset) _ ⟨rows, permuted.1, rfl⟩
      · cases executed
  | _ => cases executed

/-- A call only raises what its service can answer with. -/
theorem Effect.raises {request : Call} {reply : Reply request} {exc : Exn}
    (effect : world.Effect request reply next)
    (raised : reply = .error exc) :
    request.target.raises exc.cls = true := by
  cases effect with
  | failed _ other raises =>
      cases raised
      exact raises
  | networkCreated name label _ _ raises => exact raises exc raised
  | containerCreated request _ network free _ raises => exact raises exc raised
  | _ => cases raised

/-- Every answered call has one of the listed effects. -/
theorem exec_effect {request : Call} {choice : Choice} {reply : Reply request}
    (executed : world.exec request choice = some (reply, next)) :
    world.Effect request reply next := by
  cases choice with
  | ok => exact succeed_effect executed
  | fail exc =>
      simp only [exec] at executed
      split at executed
      · rename_i raises
        cases executed
        exact .failed request exc raises
      · cases executed
  | failAfter exc =>
      simp only [exec] at executed
      split at executed
      · rename_i raises
        exact failAfter_effect raises executed
      · cases executed
  | fresh id =>
      cases request with
      | flushInsert name owner template ttlSeconds =>
          simp only [exec, flushInsert] at executed
          split at executed
          · cases executed
          · rename_i unused
            split at executed
            · rename_i fits
              cases executed
              exact .flushed id name owner template ttlSeconds unused fits
            · cases executed
              exact .failed (.flushInsert name owner template ttlSeconds) _ rfl
      | _ => cases executed
  | rows rows => exact ordered_effect executed
  | containers containers =>
      cases request with
      | containersList =>
          simp only [exec] at executed
          split at executed
          · rename_i permuted
            cases executed
            exact .read .containersList containers permuted
          · cases executed
      | _ => cases executed
  | networks networks =>
      cases request with
      | networksList =>
          simp only [exec] at executed
          split at executed
          · rename_i permuted
            cases executed
            exact .read .networksList networks permuted
          · cases executed
      | _ => cases executed
  | observed observation =>
      cases request with
      | containerReload id =>
          simp only [exec] at executed
          split at executed
          · rename_i found
            cases executed
            exact .read (.containerReload id) observation found
          · cases executed
      | _ => cases executed

/-- Rows change only in commits. -/
theorem Effect.db {request : Call} {reply : Reply request}
    (effect : world.Effect request reply next) :
    next.db = world.db ∨
      (∃ env absent, request = .commitInsert env ∧ next.db = world.db.insert env absent) ∨
      ∃ changes, request = .commitChanges changes ∧ next.db = world.db.writeAll changes := by
  cases effect with
  | inserted env absent => exact .inr (.inl ⟨env, absent, rfl, rfl⟩)
  | committed changes => exact .inr (.inr ⟨changes, rfl, rfl⟩)
  | _ => exact .inl rfl

/-- The clock never goes back. -/
theorem Effect.clock {request : Call} {reply : Reply request}
    (effect : world.Effect request reply next) : world.clock ≤ next.clock := by
  cases effect with
  | slept instant => exact Int.le_max_left _ _
  | _ => exact Int.le_refl _

/-- A row is never deleted. -/
theorem Effect.find_isSome {request : Call} {reply : Reply request} {id : Uuid}
    (effect : world.Effect request reply next)
    (present : (world.db.find id).isSome) :
    (next.db.find id).isSome := by
  rcases effect.db with same | ⟨env, absent, -, same⟩ | ⟨changes, -, same⟩
  · rw [same]
    exact present
  · rw [same, Keyed.Table.find_insert]
    split
    · rfl
    · exact present
  · rw [same, Environments.find_writeAll, Option.isSome_map]
    exact present

end World

end Provisioner
