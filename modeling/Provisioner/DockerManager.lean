import Provisioner.World

/-!
# The Docker manager

The methods of `DockerManager` that talk to the daemon, as programs over the
calls of the world. Logging is left out; everything else, with the texts of the
exceptions, follows `docker_manager/compose.py`.
-/

namespace Provisioner

open Resumption

/-- The programs of the API and the worker. -/
abbrev Action (α : Type) : Type :=
  Program Call Reply Exn α

/-- Make one call and let its exception through. -/
def perform (request : Call) : Action request.Result :=
  .call request .ofExcept

namespace DockerManager

/-- `StackResult` -/
structure StackResult where
  networkId : DockerId
  containerIds : List DockerId
  hostPort : Nat

/-- `LabelledResources` -/
structure LabelledResources where
  containerIds : List DockerId := []
  networkIds : List DockerId := []
  deriving DecidableEq

/-- `_create_network` -/
def createNetwork (envId : String) : Action DockerId :=
  perform (.networksCreate (Compose.networkName envId) envId)

/-- The error for an image that the host does not have. -/
def imageUnavailable (image : String) : Exn :=
  let hint := if image = Compose.demoAppImage then
    " Build it first: " ++ Compose.demoAppBuild else ""
  ⟨.runtimeError, "Image " ++ pyRepr image ++ " is not available on the Docker host." ++ hint⟩

/-- `_start_container` -/
def startContainer
    (deployment : Deployment)
    (envId : String)
    (spec : ContainerSpec)
    (environment : List (String × EnvironmentValue)) : Action DockerId := do
  let request ← .ofExcept
    (Compose.runRequest deployment envId (Compose.networkName envId) spec environment)
  (perform (.containersRun request)).tryCatch fun exc =>
    .raise (if exc.cls = .imageNotFound then imageUnavailable spec.image else exc)

/-- How a container is named in messages. -/
def describe (container : DockerId) (spec : ContainerSpec) : String :=
  "Container " ++ toString container ++ " (" ++ spec.role ++ ")"

/-- `str` of a memory limit. -/
def memoryText : MemoryLimit → String
  | .none => "None"
  | .bytes count => toString count
  | .text value => value

/-- The error for a container that stopped while it was starting. -/
def startupFailure
    (deployment : Deployment)
    (container : DockerId)
    (spec : ContainerSpec)
    (oomKilled : Bool) : Exn :=
  if oomKilled then
    match Compose.resourceLimits deployment.settings spec with
    | .error exc => exc
    | .ok limits => ⟨.runtimeError, describe container spec ++
        " exceeded its memory limit of " ++ memoryText limits.memLimit ++
        " and was killed during startup"⟩
  else ⟨.runtimeError, describe container spec ++ " died during startup"⟩

/-- What one poll decides: ready, failed, or nothing yet. -/
def verdict
    (deployment : Deployment)
    (container : DockerId)
    (spec : ContainerSpec)
    (observation : Observation) : Option (Except Exn Unit) :=
  match observation.status with
  | .exited | .dead =>
      some (.error (startupFailure deployment container spec observation.oomKilled))
  | .running =>
      if spec.healthcheck.isNone then some (.ok ())
      else
        match observation.health with
        | some .healthy => some (.ok ())
        | some .unhealthy => some (.error
            ⟨.runtimeError, describe container spec ++ " failed its healthcheck"⟩)
        | _ => none
  | _ => none

/-- The error for a container that was not ready in time. -/
def notReady (container : DockerId) (spec : ContainerSpec) (timeout : Int) : Exn :=
  ⟨.timeoutError, describe container spec ++ " was not ready in " ++
    toString timeout ++ "s"⟩

/-- The polling loop. Every round sleeps for two seconds, so `pollBudget` rounds
reach the deadline. -/
def poll
    (deployment : Deployment)
    (container : DockerId)
    (spec : ContainerSpec)
    (timeout : Int)
    (deadline : Time) : Nat → Action Unit
  | 0 => .raise (notReady container spec timeout)
  | rounds + 1 => do
      let instant ← perform .now
      if instant < deadline then
        let observation ← perform (.containerReload container)
        match verdict deployment container spec observation with
        | some decided => .ofExcept decided
        | none => do
            let instant ← perform .now
            perform (.sleepUntil (instant + seconds 2))
            poll deployment container spec timeout deadline rounds
      else .raise (notReady container spec timeout)

/-- How often the loop condition can be evaluated before the deadline. -/
def pollBudget (timeout : Int) : Nat :=
  (timeout.toNat + 1) / 2 + 1

/-- `_wait_for_ready` with its default timeout. -/
def waitForReady
    (deployment : Deployment)
    (container : DockerId)
    (spec : ContainerSpec) : Action Unit := do
  let timeout := deployment.settings.containerReadyTimeoutSeconds
  let instant ← perform .now
  poll deployment container spec timeout (instant + seconds timeout) (pollBudget timeout)

/-- The host port of an exposing role, read back after the role is ready. -/
def readPort
    (container : DockerId)
    (spec : ContainerSpec)
    (hostPort : Option Nat) : Action (Option Nat) :=
  if spec.exposes then do
    let observation ← perform (.containerReload container)
    match observation.ports.lookup (spec.exposePort.getD 0) with
    | some (bound :: _) => pure (some bound)
    | _ => pure hostPort
  else pure hostPort

/-- The loop of `provision` over the specs in start order. -/
def startContainers
    (deployment : Deployment)
    (envId : String)
    (roles : List String) :
    List ContainerSpec → List DockerId → Option Nat →
      Action (List DockerId × Option Nat)
  | [], containerIds, hostPort => pure (containerIds, hostPort)
  | spec :: specs, containerIds, hostPort => do
      let environment ← .ofExcept (Compose.resolveEnvironment deployment envId spec roles)
      let container ← startContainer deployment envId spec environment
      waitForReady deployment container spec
      let hostPort ← readPort container spec hostPort
      startContainers deployment envId roles specs (containerIds ++ [container]) hostPort

/-- `provision` -/
def provision
    (deployment : Deployment)
    (envId templateName : String) : Action StackResult :=
  match deployment.templates.lookup templateName with
  | none | some [] => .raise ⟨.valueError, "Unknown template: " ++ pyRepr templateName⟩
  | some template => do
      let network ← createNetwork envId
      let (containerIds, hostPort) ← startContainers deployment envId
        (template.map ContainerSpec.role) (Compose.startOrder template) [] none
      match hostPort with
      | none => .raise ⟨.runtimeError, "No exposed port found after provisioning"⟩
      | some hostPort => pure ⟨network, containerIds, hostPort⟩

/-- The body of the loop over containers in `remove_resources`: not-found and
any other exception differ only in what is logged. -/
def removeContainer (id : DockerId) : Action Unit :=
  (do
    perform (.containerGet id)
    perform (.containerStop id)
    perform (.containerRemove id)).tryCatch fun _ => pure ()

/-- The body of the loop over networks in `remove_resources`. -/
def removeNetwork (id : DockerId) : Action Unit :=
  (do
    perform (.networkGet id)
    perform (.networkRemove id)).tryCatch fun _ => pure ()

/-- `remove_resources` -/
def removeResources (containerIds networkIds : List DockerId) : Action Unit := do
  Program.forEach removeContainer containerIds
  Program.forEach removeNetwork networkIds

/-- `teardown` -/
def teardown (containerIds : List DockerId) (networkId : Option DockerId) : Action Unit :=
  removeResources containerIds networkId.toList

/-- `found.setdefault(env_id, LabelledResources())`, then change the entry. -/
def addResource
    (envId : String)
    (change : LabelledResources → LabelledResources) :
    List (String × LabelledResources) → List (String × LabelledResources)
  | [] => [(envId, change {})]
  | (key, resources) :: found =>
      if key = envId then (key, change resources) :: found
      else (key, resources) :: addResource envId change found

/-- A resource is grouped under its label unless the label is empty or the
resource is younger than the cutoff. -/
def group
    (label : Option String)
    (created cutoff : Time)
    (change : LabelledResources → LabelledResources)
    (found : List (String × LabelledResources)) : List (String × LabelledResources) :=
  match label with
  | none => found
  | some envId =>
      if envId = "" ∨ cutoff < created then found else addResource envId change found

/-- The grouping that `find_labelled` computes from the two listings. -/
def grouped
    (cutoff : Time)
    (containers : List Container)
    (networks : List Network) : List (String × LabelledResources) :=
  let found := containers.foldl (fun found container =>
    group container.envLabel container.created cutoff (fun resources =>
      { resources with containerIds := resources.containerIds ++ [container.id] })
      found) []
  networks.foldl (fun found network =>
    group network.envLabel network.created cutoff (fun resources =>
      { resources with networkIds := resources.networkIds ++ [network.id] })
      found) found

/-- `find_labelled` -/
def findLabelled (minAgeSeconds : Int) : Action (List (String × LabelledResources)) := do
  let instant ← perform .now
  let containers ← perform .containersList
  let networks ← perform .networksList
  pure (grouped (instant - seconds minAgeSeconds) containers networks)

end DockerManager

end Provisioner
