import Provisioner.Templates

/-!
# The Docker daemon

The containers and networks that exist, and what creating and removing one
does. Ids are never used again, and no two containers share a name; both are
fields of the state. Whether the daemon refuses a second network of the same
name depends on its API version and is part of the state too.
-/

namespace Provisioner

/-- A container as the daemon lists it. -/
structure Container where
  id : DockerId
  name : String
  /-- The label `provisioner.env_id` -/
  envLabel : Option String
  /-- The label `provisioner.role` -/
  roleLabel : Option String
  /-- The network the container is attached to. -/
  network : Option DockerId
  created : Time
  deriving DecidableEq

/-- A network as the daemon lists it. -/
structure Network where
  id : DockerId
  name : String
  /-- The label `provisioner.env_id` -/
  envLabel : Option String
  created : Time
  deriving DecidableEq

/-- The state of the daemon. -/
structure Daemon where
  containers : Keyed.Table DockerId Container Container.id
  networks : Keyed.Table DockerId Network Network.id
  /-- The next id that the daemon gives out. -/
  nextId : DockerId
  /-- Creating a network whose name is taken fails. -/
  refusesDuplicateNetworks : Bool
  /-- Container ids have been given out. -/
  containerIssued : ∀ container ∈ containers.rows, container.id < nextId
  /-- Network ids have been given out. -/
  networkIssued : ∀ network ∈ networks.rows, network.id < nextId
  /-- Container names are unique. -/
  namesUnique : (containers.rows.map Container.name).Nodup

/-- What Docker reports as the status of a container. -/
inductive ContainerStatus
  | created
  | running
  | paused
  | restarting
  | removing
  | exited
  | dead
  deriving DecidableEq

/-- What Docker reports as the health of a container. -/
inductive Health
  | starting
  | healthy
  | unhealthy
  deriving DecidableEq

/-- The attributes of a container that the readiness wait reads. -/
structure Observation where
  status : ContainerStatus
  oomKilled : Bool
  health : Option Health
  /-- The host ports bound to each published container port. -/
  ports : List (Nat × List Nat)
  deriving DecidableEq

namespace Daemon

/-- A daemon without containers and networks. -/
def empty (refusesDuplicateNetworks : Bool) : Daemon where
  containers := .empty
  networks := .empty
  nextId := 0
  refusesDuplicateNetworks := refusesDuplicateNetworks
  containerIssued := by simp
  networkIssued := by simp
  namesUnique := by simp

variable (daemon : Daemon)

/-- The networks with a given name. -/
def networksNamed (name : String) : List Network :=
  daemon.networks.rows.filter fun network => network.name = name

/-- A container already has this name. -/
def nameTaken (name : String) : Bool :=
  daemon.containers.rows.any fun container => container.name = name

/-- Some container is attached to the network. -/
def attached (id : DockerId) : Bool :=
  daemon.containers.rows.any fun container => container.network = some id

theorem network_fresh : daemon.networks.find daemon.nextId = none := by
  rw [Keyed.Table.find_eq_none_iff]
  intro network present
  exact Nat.ne_of_lt (daemon.networkIssued network present)

/-- Create a network under a fresh id. -/
def addNetwork (name : String) (label : Option String) (now : Time) : Daemon where
  containers := daemon.containers
  networks := daemon.networks.insert
    { id := daemon.nextId, name := name, envLabel := label, created := now }
    daemon.network_fresh
  nextId := daemon.nextId + 1
  refusesDuplicateNetworks := daemon.refusesDuplicateNetworks
  containerIssued container present :=
    Nat.lt_succ_of_lt (daemon.containerIssued container present)
  networkIssued := by
    intro network present
    rw [Keyed.Table.rows_insert, List.mem_append, List.mem_singleton] at present
    rcases present with old | rfl
    · exact Nat.lt_succ_of_lt (daemon.networkIssued network old)
    · exact Nat.lt_succ_self _
  namesUnique := daemon.namesUnique

/-- The container that a run request creates. -/
def newContainer
    (request : Compose.RunRequest)
    (network : Option DockerId)
    (now : Time) : Container where
  id := daemon.nextId
  name := request.name
  envLabel := some request.envLabel
  roleLabel := some request.roleLabel
  network := network
  created := now

theorem container_fresh
    (request : Compose.RunRequest)
    (network : Option DockerId)
    (now : Time) :
    daemon.containers.find (daemon.newContainer request network now).id = none := by
  rw [Keyed.Table.find_eq_none_iff]
  intro container present
  exact Nat.ne_of_lt (daemon.containerIssued container present)

/-- Create a container under a fresh id and a free name. -/
def addContainer
    (request : Compose.RunRequest)
    (network : Option DockerId)
    (now : Time)
    (free : daemon.nameTaken request.name = false) : Daemon where
  containers := daemon.containers.insert (daemon.newContainer request network now)
    (daemon.container_fresh request network now)
  networks := daemon.networks
  nextId := daemon.nextId + 1
  refusesDuplicateNetworks := daemon.refusesDuplicateNetworks
  containerIssued := by
    intro container present
    rw [Keyed.Table.rows_insert, List.mem_append, List.mem_singleton] at present
    rcases present with old | rfl
    · exact Nat.lt_succ_of_lt (daemon.containerIssued container old)
    · exact Nat.lt_succ_self _
  networkIssued network present :=
    Nat.lt_succ_of_lt (daemon.networkIssued network present)
  namesUnique := by
    rw [Keyed.Table.rows_insert, List.map_append, List.map_singleton,
      List.nodup_append]
    refine ⟨daemon.namesUnique, List.nodup_singleton _, ?_⟩
    intro old oldPresent new newPresent equal
    obtain ⟨container, present, rfl⟩ := List.mem_map.mp oldPresent
    rw [List.mem_singleton] at newPresent
    have different := List.any_eq_false.mp free container present
    simp [equal, newPresent, newContainer] at different

/-- Remove a container. -/
def removeContainer (id : DockerId) : Daemon where
  containers := daemon.containers.erase id
  networks := daemon.networks
  nextId := daemon.nextId
  refusesDuplicateNetworks := daemon.refusesDuplicateNetworks
  containerIssued container present :=
    daemon.containerIssued container (List.mem_of_mem_filter present)
  networkIssued := daemon.networkIssued
  namesUnique := daemon.namesUnique.sublist (List.filter_sublist.map _)

/-- Remove a network. -/
def removeNetwork (id : DockerId) : Daemon where
  containers := daemon.containers
  networks := daemon.networks.erase id
  nextId := daemon.nextId
  refusesDuplicateNetworks := daemon.refusesDuplicateNetworks
  containerIssued := daemon.containerIssued
  networkIssued network present :=
    daemon.networkIssued network (List.mem_of_mem_filter present)
  namesUnique := daemon.namesUnique

/-- The network that a run request with this network name attaches to: an
unknown name is not found, and one shared by several networks is ambiguous. -/
def resolveNetwork (name : String) : Except Exn DockerId :=
  match daemon.networksNamed name with
  | [network] => .ok network.id
  | [] => .error ⟨.notFound, "network " ++ name ++ " not found"⟩
  | _ :: _ :: _ => .error ⟨.apiError, "network " ++ name ++ " is ambiguous"⟩

variable {daemon}
  {container : Container} {network : Network} {id : DockerId}
  {name : String} {label : Option String} {now : Time}
  {request : Compose.RunRequest} {attachedTo : Option DockerId}
  {free : daemon.nameTaken request.name = false}

@[simp] theorem containers_addNetwork :
    (daemon.addNetwork name label now).containers = daemon.containers := rfl

@[simp] theorem networks_addContainer :
    (daemon.addContainer request attachedTo now free).networks = daemon.networks := rfl

@[simp] theorem networks_removeContainer :
    (daemon.removeContainer id).networks = daemon.networks := rfl

@[simp] theorem containers_removeNetwork :
    (daemon.removeNetwork id).containers = daemon.containers := rfl

@[simp] theorem mem_addNetwork :
    network ∈ (daemon.addNetwork name label now).networks.rows ↔
      network ∈ daemon.networks.rows ∨
        network = { id := daemon.nextId, name := name, envLabel := label,
                    created := now } := by
  simp [addNetwork]

@[simp] theorem mem_addContainer :
    container ∈ (daemon.addContainer request attachedTo now free).containers.rows ↔
      container ∈ daemon.containers.rows ∨
        container = daemon.newContainer request attachedTo now := by
  simp [addContainer]

@[simp] theorem mem_removeContainer :
    container ∈ (daemon.removeContainer id).containers.rows ↔
      container ∈ daemon.containers.rows ∧ container.id ≠ id :=
  Keyed.Table.mem_erase

@[simp] theorem mem_removeNetwork :
    network ∈ (daemon.removeNetwork id).networks.rows ↔
      network ∈ daemon.networks.rows ∧ network.id ≠ id :=
  Keyed.Table.mem_erase

/-- A run request attaches to a network of the requested name. -/
theorem mem_of_resolveNetwork (resolved : daemon.resolveNetwork name = .ok id) :
    ∃ network ∈ daemon.networks.rows, network.id = id ∧ network.name = name := by
  unfold resolveNetwork at resolved
  split at resolved
  · rename_i network named
    have present : network ∈ daemon.networksNamed name := by simp [named]
    rw [networksNamed, List.mem_filter] at present
    cases resolved
    exact ⟨network, present.1, rfl, by simpa using present.2⟩
  · cases resolved
  · cases resolved

end Daemon

end Provisioner
