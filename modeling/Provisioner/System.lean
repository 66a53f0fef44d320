import Provisioner.Router

/-!
# The whole service

API requests, task attempts and sweeps as threads of one machine over the
shared world. Messages are delivered at least once: a worker takes a message
from the queue, and any message ever sent may be delivered again. Threads can
be killed between any two calls.
-/

namespace Provisioner

open Resumption

/-- An authenticated API request. -/
inductive Request
  | create (principal : String) (payload : EnvironmentCreate)
  | list (principal : String) (status : Option EnvironmentStatus) (limit offset : Nat)
  | get (envId : Uuid) (principal : String)
  | delete (envId : Uuid) (principal : String)

/-- The periodic tasks. -/
inductive Sweep
  | reapExpired
  | reconcileOrphans
  | recoverStale
  deriving DecidableEq

/-- What a thread was started for. -/
inductive Role
  | request (request : Request)
  | task (message : Message)
  | sweep (sweep : Sweep)

/-- What happens around the threads. -/
inductive Ambient
  | tick (elapsed : Nat)
  | request (request : Request)
  | beat (sweep : Sweep)
  /-- A worker takes a message from the queue. -/
  | deliver (index : Nat)
  /-- A message is delivered once more. -/
  | redeliver (index : Nat)

/-- The program of a role. -/
def program (deployment : Deployment) : Role → Action Answer
  | .request (.create principal payload) =>
      Router.createEnvironment deployment principal payload
  | .request (.list principal status limit offset) =>
      Router.listEnvironments principal status limit offset
  | .request (.get envId principal) => Router.getEnvironment envId principal
  | .request (.delete envId principal) => Router.deleteEnvironment envId principal
  | .task message =>
      match message.task with
      | .provision => Worker.provisionEnvironment deployment message
      | .teardown => Worker.teardownEnvironment message
  | .sweep .reapExpired => Worker.reapExpiredEnvironments
  | .sweep .reconcileOrphans => Worker.reconcileOrphans deployment
  | .sweep .recoverStale => Worker.recoverStaleTransitions deployment

/-- Take a message that is due. -/
def World.due (world : World) (messages : List Message) (index : Nat) : Option Message :=
  messages[index]?.filter fun message => message.notBefore ≤ world.clock

/-- What the surroundings do to the world, and the thread they start. -/
def surroundings (world : World) : Ambient → Option (World × Option Role)
  | .tick elapsed => some ({ world with clock := world.clock + elapsed }, none)
  | .request request => some (world, some (.request request))
  | .beat sweep => some (world, some (.sweep sweep))
  | .deliver index =>
      (world.due world.queue index).map fun message =>
        ({ world with queue := world.queue.eraseIdx index }, some (.task message))
  | .redeliver index =>
      (world.due world.sent index).map fun message => (world, some (.task message))

/-- The service as a machine. -/
def machine (deployment : Deployment) :
    Machine World Role Call Reply Ambient Choice Exn Answer where
  exec := World.exec
  ambient := surroundings
  program := program deployment

/-- Configurations of the service. -/
abbrev System : Type :=
  Config World Role Call Reply Exn Answer

/-- The threads of the service. -/
abbrev Job : Type :=
  Thread Role Call Reply Exn Answer

/-- What can happen to the service. -/
abbrev Occurrence : Type :=
  Event Ambient Choice

/-- The service before the first request: no rows, no Docker resources. -/
def System.initial (refusesDuplicateNetworks : Bool) : System where
  state := .initial refusesDuplicateNetworks
  threads := []

/-- The world part of what the surroundings do. -/
inductive Surrounds (world : World) : Ambient → World → Option Role → Prop
  | tick (elapsed : Nat) :
      Surrounds world (.tick elapsed) { world with clock := world.clock + elapsed } none
  | request (request : Request) :
      Surrounds world (.request request) world (some (.request request))
  | beat (sweep : Sweep) : Surrounds world (.beat sweep) world (some (.sweep sweep))
  | deliver (index : Nat) (message : Message) :
      world.queue[index]? = some message →
      message.notBefore ≤ world.clock →
      Surrounds world (.deliver index) { world with queue := world.queue.eraseIdx index }
        (some (.task message))
  | redeliver (index : Nat) (message : Message) :
      world.sent[index]? = some message →
      message.notBefore ≤ world.clock →
      Surrounds world (.redeliver index) world (some (.task message))

/-- A due message is one of the list whose time has come. -/
theorem due_eq_some_iff {world : World} {messages : List Message} {index : Nat}
    {message : Message} :
    world.due messages index = some message ↔
      messages[index]? = some message ∧ message.notBefore ≤ world.clock := by
  simp [World.due, Option.filter_eq_some_iff]

/-- All that the surroundings can do. -/
theorem surrounds_of_eq {world next : World} {action : Ambient} {spawned : Option Role}
    (acted : surroundings world action = some (next, spawned)) :
    Surrounds world action next spawned := by
  cases action with
  | tick elapsed => cases acted; exact .tick elapsed
  | request request => cases acted; exact .request request
  | beat sweep => cases acted; exact .beat sweep
  | deliver index =>
      simp only [surroundings, Option.map_eq_some_iff, Prod.mk.injEq] at acted
      obtain ⟨message, due, rfl, rfl⟩ := acted
      obtain ⟨found, time⟩ := due_eq_some_iff.mp due
      exact .deliver index message found time
  | redeliver index =>
      simp only [surroundings, Option.map_eq_some_iff, Prod.mk.injEq] at acted
      obtain ⟨message, due, rfl, rfl⟩ := acted
      obtain ⟨found, time⟩ := due_eq_some_iff.mp due
      exact .redeliver index message found time

/-- The surroundings touch neither the rows nor Docker. -/
theorem Surrounds.unchanged {world next : World} {action : Ambient} {spawned : Option Role}
    (surrounds : Surrounds world action next spawned) :
    next.db = world.db ∧ next.docker = world.docker ∧ next.sent = world.sent ∧
      next.issued = world.issued ∧ world.clock ≤ next.clock := by
  cases surrounds with
  | tick elapsed => exact ⟨rfl, rfl, rfl, rfl, by simp⟩
  | _ => exact ⟨rfl, rfl, rfl, rfl, Int.le_refl _⟩

end Provisioner
