import Provisioner.Custody

/-!
# What keeps the environments apart

All environments share one daemon. They are kept apart by names and labels that are derived
from the primary key: every container is attached to a network of its own environment, and
the address that a template gives to a role is the name of one container at most, which
belongs to the environment and runs that role. So no environment reaches a container of
another one, and no row records what belongs to another one.
-/

namespace Provisioner

open Resumption

/-- The containers that answer to a host name on a network. -/
def Daemon.resolves (daemon : Daemon) (network : DockerId) (host : String) : List Container :=
  daemon.containers.rows.filter fun container =>
    container.network = some network ∧ container.name = host

namespace Isolation

variable {deployment : Deployment} {refuses : Bool}
  {allowed : System → Occurrence → Prop} {config : System}
  {world : World} {container other : Container} {id : Uuid}

/-- The environments of a world are kept apart. -/
structure Isolated (world : World) : Prop where
  /-- A network is shared by containers of one environment, whose network it is. -/
  networks : ∀ container ∈ world.docker.containers.rows, ∀ id, container.network = some id →
    ∃ row ∈ world.db.rows, ∃ network ∈ world.docker.networks.rows, network.id = id ∧
      network.name = Compose.networkName row.id.str ∧
      ∀ other ∈ world.docker.containers.rows, other.network = some id →
        other.envLabel = some row.id.str
  /-- An address of an environment resolves to the container that runs the role for it, or to
  none at all. -/
  addresses : ∀ (id : Uuid) (roles : List String), ∀ role ∈ roles, ∀ host,
    (role ++ "_host", host) ∈ Compose.formatContext id.str roles → ∀ network,
    world.docker.resolves network host = [] ∨
      ∃ container, world.docker.resolves network host = [container] ∧
        container.envLabel = some id.str ∧ container.roleLabel = some role
  /-- What exists is recorded on one row at most. -/
  recorded : ∀ row ∈ world.db.rows, ∀ row' ∈ world.db.rows, ∀ resource,
    resource ∈ row.recorded → resource ∈ row'.recorded →
    world.docker.has resource = true → row = row'

/-- A container has the name of its environment and role. -/
theorem named_of_mem (integrity : world.Integrity deployment)
    (member : container ∈ world.docker.containers.rows) :
    ∃ row ∈ world.db.rows, ∃ role, container.envLabel = some row.id.str ∧
      container.roleLabel = some role ∧
      container.name = Compose.containerName row.id.str role := by
  obtain ⟨-, row, stored, template, spec, -, -, label, role, name⟩ :=
    integrity.containers container member
  exact ⟨row, stored, spec.role, label, role, name⟩

/-- Two containers with one name are the same. -/
theorem eq_of_name (daemon : Daemon)
    (member : container ∈ daemon.containers.rows) (present : other ∈ daemon.containers.rows)
    (same : container.name = other.name) : container = other :=
  List.inj_on_of_nodup_map daemon.namesUnique member present same

/-- A host name resolves to one container at most. -/
theorem resolves_cases (daemon : Daemon) (network : DockerId) (host : String) :
    daemon.resolves network host = [] ∨
      ∃ container ∈ daemon.containers.rows, container.name = host ∧
        daemon.resolves network host = [container] := by
  have found : ∀ container ∈ daemon.resolves network host,
      container ∈ daemon.containers.rows ∧ container.name = host := by
    intro container present
    obtain ⟨member, attached⟩ := List.mem_filter.mp present
    exact ⟨member, (of_decide_eq_true attached).2⟩
  have distinct : (daemon.resolves network host).Nodup := daemon.namesUnique.of_map.filter _
  generalize daemon.resolves network host = containers at found distinct
  match containers with
  | [] => exact .inl rfl
  | [container] =>
      obtain ⟨member, named⟩ := found container List.mem_cons_self
      exact .inr ⟨container, member, named, rfl⟩
  | first :: second :: rest =>
      obtain ⟨one, named⟩ := found first List.mem_cons_self
      obtain ⟨two, named'⟩ := found second (List.mem_cons_of_mem _ List.mem_cons_self)
      have same := eq_of_name daemon one two (named.trans named'.symm)
      exact ((List.nodup_cons.mp distinct).1 (same ▸ List.mem_cons_self)).elim

/-- The address of a role is the name of its container. -/
theorem host_eq {role host : String} {roles : List String}
    (address : (role ++ "_host", host) ∈ Compose.formatContext id.str roles) :
    host = Compose.containerName id.str role := by
  rcases List.mem_cons.mp address with same | named
  · -- No role makes `role_host` the key of the id.
    have key : (role ++ "_host").toList = "env_id".toList := congrArg (·.1.toList) same
    rw [String.toList_append] at key
    have last := congrArg List.getLast? key
    rw [List.getLast?_append] at last
    cases last
  · obtain ⟨role', -, same⟩ := List.mem_map.mp named
    obtain ⟨key, rfl⟩ := Prod.mk.inj same
    have roles : role'.toList ++ "_host".toList = role.toList ++ "_host".toList := by
      rw [← String.toList_append, ← String.toList_append, key]
    rw [String.toList_inj.mp (List.append_cancel_right roles)]

/-- In every run the environments are kept apart. -/
theorem isolated (run : System.Runs deployment refuses allowed config) :
    Isolated config.state := by
  have integrity := (Integrity.of_runs run).1
  refine ⟨fun container member id attached => ?_, fun id roles role _ host address network => ?_,
    fun row stored row' stored' resource recorded recorded' has => ?_⟩
  · obtain ⟨network, listed, rfl, -⟩ := integrity.attached container member id attached
    obtain ⟨-, row, stored, label, name⟩ := integrity.networks network listed
    refine ⟨row, stored, network, listed, rfl, name, fun other present shares => ?_⟩
    obtain ⟨network', listed', same, label'⟩ := integrity.attached other present _ shares
    rw [Keyed.Table.eq_of_key_eq listed' listed same] at label'
    exact label'.symm.trans label
  · rcases resolves_cases config.state.docker network host with
      none | ⟨container, member, name, one⟩
    · exact .inl none
    · refine .inr ⟨container, one, ?_⟩
      obtain ⟨row, -, role', label, runs, named⟩ := named_of_mem integrity member
      rw [name, host_eq address, Compose.containerName_inj] at named
      obtain ⟨rfl, rfl⟩ := named
      exact ⟨label, runs⟩
  · have sound := (Ownership.of_runs run).1
    have same := Custody.eq_of_owns integrity has (sound row' stored' resource recorded')
      (sound row stored resource recorded)
    have found := config.state.db.find_of_mem stored
    rw [same, config.state.db.find_of_mem stored'] at found
    exact (Option.some.inj found).symm

theorem isolated_of_firstAttempt :
    ∃ config : System, Reachable (machine Compose.shipped) (System.initial true) config ∧
      (config.state.docker.resolves 0
        (Compose.containerName (Sample.envId 1).str "db")).length = 1 ∧
      Isolated config.state := by
  have shown : ((System.initial true).run (machine Compose.shipped) (fun _ _ => True)
      Sample.firstAttempt).map (fun config => (config.state.docker.resolves 0
        (Compose.containerName (Sample.envId 1).str "db")).length) = some 1 := by
    decide +kernel
  obtain ⟨config, run, one⟩ := Run.exists_run shown
  exact ⟨config, run, one, isolated run⟩

end Isolation

end Provisioner
