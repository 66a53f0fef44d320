import Mathlib.Data.Rat.Lemmas
import Mathlib.Tactic.FieldSimp
import Mathlib.Tactic.NormNum
import Provisioner.Alone

/-!
# Resource ceilings

The limits that `_start_container` passes to Docker, against what Docker makes of them. How
Docker reads a memory limit that is written as a text, and which limits it refuses, are
parameters.
-/

namespace Provisioner

open Resumption

namespace Ceilings

/-- Docker and its client library, as far as limits are concerned. -/
structure Docker where
  /-- `docker.utils.parse_bytes` of a text; `none` where it raises. -/
  readBytes : String → Option Int
  /-- No container is created with these limits. -/
  refuses : Compose.Limits → Bool

namespace Docker

variable (docker : Docker)

/-- The number of bytes that a memory limit says. -/
def bytes : MemoryLimit → Option Int
  | .none => none
  | .bytes count => some count
  | .text value => docker.readBytes value

/-- The limits are refused, by the client library or by the daemon. -/
def Refuses (limits : Compose.Limits) : Prop :=
  (∃ value, limits.memLimit = .text value ∧ docker.readBytes value = none) ∨
    docker.refuses limits = true

/-- A request with limits that are refused fails, and nothing is created. -/
def Grants (_ : World) : Call → Choice → Prop
  | .containersRun request, choice => docker.Refuses request.limits → ∃ exc, choice = .fail exc
  | _, _ => True

/-- Docker reads all four limits as limits. -/
structure Bounds (limits : Compose.Limits) : Prop where
  given : limits.memLimit ≠ .none
  memory : docker.bytes limits.memLimit ≠ some 0
  swap : limits.memswapLimit = limits.memLimit
  cpus : 0 < limits.nanoCpus
  pids : ∃ count, limits.pidsLimit = some count ∧ 0 < count

end Docker

/-- Every container is requested with limits that Docker reads as such, or the call is
refused and no container is created. -/
def Bounded (deployment : Deployment) (docker : Docker) (spec : ContainerSpec) : Prop :=
  ∀ envId environment world trace last result,
    Executes (lone deployment docker.Grants) world
      (DockerManager.startContainer deployment envId spec environment) trace last result →
    (∀ request reply, (⟨.containersRun request, reply⟩ : Entry Reply) ∈ trace →
      docker.Bounds request.limits) ∨
    (∃ exc, result = .error exc) ∧ last.docker = world.docker

/-! ## The limits of a spec -/

section Spec

variable (settings : Settings) (spec : ContainerSpec)

/-- The memory that a spec grants. -/
def memory : MemoryLimit :=
  spec.memoryLimit.getD (.text settings.defaultContainerMemoryLimit)

/-- The cores that a spec grants. -/
def cores : Option Rat :=
  spec.cpuLimit.getD (some settings.defaultContainerCpuLimit)

/-- The processes that a spec grants. -/
def pids : Option Int :=
  spec.pidsLimit.getD (some settings.defaultContainerPidsLimit)

/-- The limits for so many cores. -/
def limits (count : Rat) : Compose.Limits where
  memLimit := memory settings spec
  memswapLimit := memory settings spec
  nanoCpus := Compose.nanos count
  pidsLimit := pids settings spec

end Spec

/-- A spec is given ceilings: its cores are `None`, or its limits are refused, or none of
them is one that Docker ignores. -/
def Ceiled (docker : Docker) (settings : Settings) (spec : ContainerSpec) : Prop :=
  ∀ count, cores settings spec = some count → ¬docker.Refuses (limits settings spec count) →
    memory settings spec ≠ .none ∧ docker.bytes (memory settings spec) ≠ some 0 ∧
    1 / 1000000000 ≤ count ∧ ∃ most, pids settings spec = some most ∧ 0 < most

section Limits

variable {docker : Docker} {settings : Settings} {spec : ContainerSpec} {count : Rat}

/-- The quota is positive from a billionth of a core on. -/
theorem nanos_pos_iff : 0 < Compose.nanos count ↔ 1 / 1000000000 ≤ count := by
  have den : (0 : Int) < count.den := Int.natCast_pos.mpr count.den_pos
  have enough : (count.den : Int) ≤ count.num * 1000000000 ↔ 1 / 1000000000 ≤ count := by
    have positive : (0 : ℚ) < count.den := Nat.cast_pos.mpr count.den_pos
    have num : (count.num : ℚ) = count * count.den := (Rat.mul_den_eq_num count).symm
    have scaled : ((count.num * 1000000000 : ℤ) : ℚ) = count * 1000000000 * count.den := by
      rw [Int.cast_mul, num]
      push_cast
      ring
    rw [← @Int.cast_le ℚ, scaled, Int.cast_natCast, ← div_le_iff₀ positive,
      div_self positive.ne', div_le_iff₀ (by norm_num)]
  rw [← enough]
  unfold Compose.nanos
  constructor
  · intro positive
    by_contra few
    have below : count.num * 1000000000 ≤ count.den - 1 := by omega
    have most := Int.tdiv_le_tdiv den below
    have none : ((count.den : Int) - 1).tdiv count.den = 0 :=
      Int.tdiv_eq_zero_of_lt (by omega) (by omega)
    omega
  · intro enough
    exact Int.le_tdiv_of_mul_le den (by omega)

theorem resourceLimits_of_cores (given : cores settings spec = some count) :
    Compose.resourceLimits settings spec = .ok (limits settings spec count) := by
  unfold Compose.resourceLimits
  dsimp only
  rw [show spec.cpuLimit.getD (some settings.defaultContainerCpuLimit) = some count from given]
  rfl

theorem resourceLimits_of_none (given : cores settings spec = none) :
    ∃ exc, Compose.resourceLimits settings spec = .error exc := by
  unfold Compose.resourceLimits
  dsimp only
  rw [show spec.cpuLimit.getD (some settings.defaultContainerCpuLimit) = none from given]
  exact ⟨_, rfl⟩

/-- The limits of a spec are ceilings exactly if none of its values is ignored. -/
theorem bounds_limits_iff :
    docker.Bounds (limits settings spec count) ↔
      memory settings spec ≠ .none ∧ docker.bytes (memory settings spec) ≠ some 0 ∧
      1 / 1000000000 ≤ count ∧ ∃ most, pids settings spec = some most ∧ 0 < most := by
  rw [← nanos_pos_iff]
  exact ⟨fun bounds => ⟨bounds.given, bounds.memory, bounds.cpus, bounds.pids⟩,
    fun ⟨given, memory, cpus, pids⟩ => ⟨given, memory, rfl, cpus, pids⟩⟩

end Limits

/-! ## Starting a container -/

section Start

variable {deployment : Deployment} {docker : Docker} {spec : ContainerSpec} {envId : String}
  {environment : List (String × EnvironmentValue)} {world last : World}
  {trace : List (Entry Reply)} {result : Except Exn DockerId} {count : Rat}

/-- A spec without a number of cores is refused before Docker is called. -/
theorem start_of_none (given : cores deployment.settings spec = none)
    (executed : Executes (lone deployment docker.Grants) world
      (DockerManager.startContainer deployment envId spec environment) trace last result) :
    (∃ exc, result = .error exc) ∧ last.docker = world.docker := by
  obtain ⟨exc, refused⟩ := resourceLimits_of_none given
  unfold DockerManager.startContainer Compose.runRequest at executed
  rw [refused] at executed
  obtain ⟨-, rfl, rfl⟩ := Executes.raise_iff.mp executed
  exact ⟨⟨exc, rfl⟩, rfl⟩

/-- Otherwise there is one request, with the limits of the spec. -/
theorem start_of_cores (given : cores deployment.settings spec = some count)
    (executed : Executes (lone deployment docker.Grants) world
      (DockerManager.startContainer deployment envId spec environment) trace last result) :
    ∃ (request : Compose.RunRequest) (reply : Reply (.containersRun request)),
      request.limits = limits deployment.settings spec count ∧
      trace = [⟨.containersRun request, reply⟩] ∧
      (lone deployment docker.Grants).answers world (.containersRun request) reply last ∧
      ∀ exc, reply = .error exc → ∃ exc, result = .error exc := by
  unfold DockerManager.startContainer Compose.runRequest at executed
  rw [resourceLimits_of_cores given] at executed
  obtain ⟨first, second, middle, ended, rfl, asked, continued⟩ :=
    Executes.tryCatch_iff.mp executed
  obtain ⟨rfl, answered⟩ := Alone.executes_perform.mp asked
  cases ended with
  | ok id =>
      obtain ⟨rfl, rfl, rfl⟩ := Executes.pure_iff.mp continued
      exact ⟨_, _, rfl, rfl, answered, fun exc same => by cases same⟩
  | error exc =>
      obtain ⟨rfl, rfl, rfl⟩ := Executes.raise_iff.mp continued
      exact ⟨_, _, rfl, rfl, answered, fun _ _ => ⟨_, rfl⟩⟩

/-- Where the condition holds, no container is requested without ceilings. -/
theorem bounded_of_ceiled (ceiled : Ceiled docker deployment.settings spec) :
    Bounded deployment docker spec := by
  intro envId environment world trace last result executed
  cases given : cores deployment.settings spec with
  | none => exact .inr (start_of_none given executed)
  | some count =>
      obtain ⟨request, reply, same, rfl, answered, fails⟩ := start_of_cores given executed
      by_cases refused : docker.Refuses (limits deployment.settings spec count)
      · obtain ⟨choice, granted, executed⟩ := answered
        obtain ⟨exc, rfl⟩ := granted (by rwa [same])
        change world.exec (.containersRun request) (.fail exc) = some (reply, last) at executed
        simp only [World.exec] at executed
        split at executed
        · cases executed
          exact .inr ⟨fails exc rfl, rfl⟩
        · cases executed
      · refine .inl fun request' reply' present => ?_
        cases List.mem_singleton.mp present
        rw [same]
        exact bounds_limits_iff.mpr (ceiled count given refused)

/-- A world with one network and without containers. -/
def oneNetwork (name : String) : World :=
  { World.initial true with docker := (Daemon.empty true).addNetwork name none 0 }

/-- Docker starts a container with limits that it does not refuse. -/
theorem exists_start (given : cores deployment.settings spec = some count)
    (allowed : ¬docker.Refuses (limits deployment.settings spec count)) :
    ∃ trace last id, Executes (lone deployment docker.Grants)
      (oneNetwork (Compose.networkName envId))
      (DockerManager.startContainer deployment envId spec environment) trace last
      (.ok id) := by
  obtain ⟨request, computed, same, network⟩ :
      ∃ request, Compose.runRequest deployment envId (Compose.networkName envId) spec
          environment = .ok request ∧
        request.limits = limits deployment.settings spec count ∧
        request.network = Compose.networkName envId := by
    unfold Compose.runRequest
    rw [resourceLimits_of_cores given]
    exact ⟨_, rfl, rfl, rfl⟩
  have resolved : (oneNetwork (Compose.networkName envId)).docker.resolveNetwork
      request.network = .ok 0 := by
    have named : (oneNetwork (Compose.networkName envId)).docker.networksNamed
        (Compose.networkName envId) =
          [{ id := 0, name := Compose.networkName envId, envLabel := none, created := 0 }] :=
      List.filter_cons_of_pos (decide_eq_true rfl)
    unfold Daemon.resolveNetwork
    rw [network, named]
  have free : (oneNetwork (Compose.networkName envId)).docker.nameTaken request.name = false :=
    rfl
  obtain ⟨id, next, executed⟩ : ∃ id next, (oneNetwork (Compose.networkName envId)).exec
      (.containersRun request) .ok = some (.ok id, next) := by
    simp only [World.exec, World.succeed]
    unfold World.containersRun
    rw [dif_pos free, resolved]
    exact ⟨_, _, rfl⟩
  refine ⟨[⟨.containersRun request, .ok id⟩], next, id, ?_⟩
  unfold DockerManager.startContainer
  rw [computed]
  refine Executes.tryCatch_iff.mpr ⟨_, [], next, .ok id, rfl,
    Alone.executes_perform.mpr ⟨rfl, .ok, fun refused => ?_, executed⟩, .pure _ _⟩
  rw [same] at refused
  exact absurd refused allowed

/-- Where the condition fails, some container is started without a ceiling. -/
theorem ceiled_of_bounded (bounded : Bounded deployment docker spec) :
    Ceiled docker deployment.settings spec := by
  intro count given allowed
  obtain ⟨trace, last, id, executed⟩ :=
    @exists_start deployment docker spec "" [] count given allowed
  obtain ⟨request, reply, same, rfl, -⟩ := start_of_cores given executed
  rcases bounded _ _ _ _ _ _ executed with bounds | ⟨⟨exc, failed⟩, -⟩
  · rw [← bounds_limits_iff, ← same]
    exact bounds request reply (List.mem_singleton.mpr rfl)
  · cases failed

end Start

/-- Whatever Docker reads and refuses, the containers of a spec have ceilings exactly if the
spec, completed by the settings, gives them. -/
theorem bounded_iff_ceiled (deployment : Deployment) (docker : Docker) (spec : ContainerSpec) :
    Bounded deployment docker spec ↔ Ceiled docker deployment.settings spec :=
  ⟨ceiled_of_bounded, bounded_of_ceiled⟩

/-- A Docker that can read the default memory limit and refuses nothing. -/
def lenient : Docker where
  readBytes text := if text = "512m" then some 536870912 else none
  refuses _ := false

/-- A spec whose memory limit is present with the value `None`. -/
def memoryNone : ContainerSpec where
  role := "app"
  image := "app:1"
  memoryLimit := some .none

/-- The container of this spec has no memory limit. -/
theorem unbounded_of_memoryNone : ¬Bounded Compose.shipped lenient memoryNone := by
  intro bounded
  have allowed : ¬lenient.Refuses (limits Compose.shipped.settings memoryNone 1) := by
    rintro (⟨value, text, -⟩ | refused)
    · cases text
    · cases refused
  exact (ceiled_of_bounded bounded 1 rfl allowed).1 rfl

end Ceilings

end Provisioner
