import Provisioner.Database
import Mathlib.Data.Rat.Defs

/-!
# Settings, templates and the pure part of the Docker manager

The settings that the modelled code reads, the template allowlist with its
container specs, and the functions of `docker_manager/compose.py` that compute
names, environments, resource limits and healthchecks without talking to the
daemon. Python's `str.format` is a parameter of the deployment.
-/

namespace Provisioner

/-- The classes of exceptions that the code tells apart. -/
inductive ExceptionClass
  | valueError
  | keyError
  | indexError
  | attributeError
  | typeError
  | runtimeError
  | timeoutError
  /-- `docker.errors.NotFound` -/
  | notFound
  /-- `docker.errors.ImageNotFound`, a subclass of `NotFound`. -/
  | imageNotFound
  /-- Any other error of the Docker daemon. -/
  | apiError
  | multipleResultsFound
  | databaseError
  | brokerError
  /-- `fastapi.HTTPException` with its status code. -/
  | http (statusCode : Nat)
  /-- `celery.exceptions.Retry` -/
  | retry
  deriving DecidableEq

/-- A raised exception and its `str()`. -/
structure Exn where
  cls : ExceptionClass
  message : String
  deriving DecidableEq

namespace Exn

/-- `isinstance(exc, ValueError)` -/
def isValueError (exc : Exn) : Bool :=
  exc.cls = .valueError

/-- `isinstance(exc, docker.errors.NotFound)` -/
def isNotFound (exc : Exn) : Bool :=
  exc.cls = .notFound || exc.cls = .imageNotFound

end Exn

/-- The fields of `Settings` that the modelled code reads, with the defaults of
`config.py`. -/
structure Settings where
  containerReadyTimeoutSeconds : Int := 120
  maxEnvironmentsPerUser : Int := 5
  defaultContainerMemoryLimit : String := "512m"
  defaultContainerCpuLimit : Rat := 1
  defaultContainerPidsLimit : Int := 256
  orphanGraceSeconds : Int := 900
  pendingTimeoutSeconds : Int := 600
  provisioningTimeoutSeconds : Int := 900
  stoppingTimeoutSeconds : Int := 600

/-- A value in a spec's `environment` block. -/
inductive EnvironmentValue
  | text (value : String)
  /-- A value that is not a string, by its `repr`. -/
  | other (value : String)
  deriving DecidableEq

/-- What a spec may give as a memory limit. -/
inductive MemoryLimit
  | none
  | bytes (count : Int)
  | text (value : String)
  deriving DecidableEq

/-- A spec's healthcheck; durations are in seconds. -/
structure Healthcheck where
  test : List String
  intervalSeconds : Option Rat := none
  timeoutSeconds : Option Rat := none
  startPeriodSeconds : Option Rat := none
  retries : Option Nat := none

/-- One container of a template. An optional field is a key that may be absent;
the dependency and the limits may also be present with the value `None`. -/
structure ContainerSpec where
  role : String
  image : String
  environment : List (String × EnvironmentValue) := []
  exposePort : Option Nat := none
  dependsOnRole : Option (Option String) := none
  memoryLimit : Option MemoryLimit := none
  cpuLimit : Option (Option Rat) := none
  pidsLimit : Option (Option Int) := none
  healthcheck : Option Healthcheck := none

/-- `bool(spec.get("expose_port"))` -/
def ContainerSpec.exposes (spec : ContainerSpec) : Bool :=
  spec.exposePort.getD 0 ≠ 0

/-- The configuration the processes run with. -/
structure Deployment where
  settings : Settings := {}
  templates : List (String × List ContainerSpec)
  /-- `text.format(**context)` -/
  strFormat : String → List (String × String) → Except Exn String

/-- `repr` of a string without control characters. -/
def pyRepr (text : String) : String :=
  let quote := if text.contains '\'' && !text.contains '"' then "\"" else "'"
  quote ++ String.join (text.toList.map fun char =>
    if char = '\\' then "\\\\"
    else if quote = String.singleton char then "\\" ++ quote
    else String.singleton char) ++ quote

namespace Compose

/-- `DEMO_APP_IMAGE` -/
def demoAppImage : String := "provisioner/demo-app:1"

/-- `DEMO_APP_BUILD` -/
def demoAppBuild : String :=
  "docker build -t " ++ demoAppImage ++ " templates/demo-app"

/-- `TEMPLATES` -/
def templates : List (String × List ContainerSpec) :=
  [("webapp-postgres",
    [ { role := "db"
        image := "postgres:16-alpine"
        environment :=
          [ ("POSTGRES_USER", .text "app"),
            ("POSTGRES_PASSWORD", .text "app"),
            ("POSTGRES_DB", .text "app") ]
        memoryLimit := some (.text "256m")
        cpuLimit := some (some (1 / 2))
        healthcheck := some
          { test := ["CMD-SHELL", "pg_isready -U app -d app"]
            intervalSeconds := some 2
            timeoutSeconds := some 3
            retries := some 15
            startPeriodSeconds := some 2 } },
      { role := "app"
        image := demoAppImage
        environment :=
          [ ("DATABASE_URL", .text "postgresql://app:app@{db_host}:5432/app"),
            ("ENV_ID", .text "{env_id}") ]
        exposePort := some 8000
        dependsOnRole := some (some "db")
        memoryLimit := some (.text "384m")
        cpuLimit := some (some (1 / 2))
        healthcheck := some
          { test := ["CMD-SHELL",
              "python -c \"import urllib.request; urllib.request.urlopen('http://localhost:8000/health')\""]
            intervalSeconds := some 2
            timeoutSeconds := some 5
            retries := some 20
            startPeriodSeconds := some 3 } } ])]

/-- `network_name` -/
def networkName (envId : String) : String :=
  "env-" ++ envId

/-- `container_name` -/
def containerName (envId role : String) : String :=
  "env-" ++ envId ++ "-" ++ role

/-- The names that a template may refer to. -/
def formatContext (envId : String) (roles : List String) : List (String × String) :=
  ("env_id", envId) :: roles.map fun role => (role ++ "_host", containerName envId role)

/-- `str.format` for texts whose fields are plain names: the characters still
to come, and the name of the field that is being read, reversed. -/
def formatChars (context : List (String × String)) :
    Option (List Char) → List Char → Except Exn (List Char)
  | none, [] => .ok []
  | some _, [] => .error ⟨.valueError, "expected '\x7d' before end of string"⟩
  | none, '{' :: '{' :: rest =>
      (formatChars context none rest).map fun tail => '{' :: tail
  | none, '}' :: '}' :: rest =>
      (formatChars context none rest).map fun tail => '}' :: tail
  | none, '{' :: rest => formatChars context (some []) rest
  | none, '}' :: _ =>
      .error ⟨.valueError, "Single '\x7d' encountered in format string"⟩
  | none, char :: rest =>
      (formatChars context none rest).map fun tail => char :: tail
  | some name, '}' :: rest =>
      match context.lookup (.ofList name.reverse) with
      | none => .error ⟨.keyError, pyRepr (.ofList name.reverse)⟩
      | some value =>
          (formatChars context none rest).map fun tail => value.toList ++ tail
  | some name, char :: rest => formatChars context (some (char :: name)) rest

/-- `str.format` for texts whose fields are plain names. -/
def formatNamed (text : String) (context : List (String × String)) :
    Except Exn String :=
  (formatChars context none text.toList).map .ofList

/-- `sorted(context)` as it appears in a message. -/
def knownNames (context : List (String × String)) : String :=
  let names := (context.map Prod.fst).eraseDups.mergeSort fun first second => first ≤ second
  "[" ++ ", ".intercalate (names.map pyRepr) ++ "]"

/-- `resolve_environment`: only a `KeyError` is turned into a `ValueError`. -/
def resolveEnvironment
    (deployment : Deployment)
    (envId : String)
    (spec : ContainerSpec)
    (roles : List String) : Except Exn (List (String × EnvironmentValue)) :=
  let context := formatContext envId roles
  spec.environment.mapM fun (key, value) =>
    match value with
    | .other value => .ok (key, .other value)
    | .text value =>
        match deployment.strFormat value context with
        | .ok resolved => .ok (key, .text resolved)
        | .error exc =>
            if exc.cls = .keyError then
              .error ⟨.valueError, "Template placeholder " ++ exc.message ++ " in " ++
                pyRepr key ++ " matches no role in this template. Known: " ++
                knownNames context⟩
            else .error exc

/-- The keyword arguments that bound a container. -/
structure Limits where
  memLimit : MemoryLimit
  memswapLimit : MemoryLimit
  nanoCpus : Int
  pidsLimit : Option Int
  deriving DecidableEq

/-- `int(count * 1_000_000_000)`, which truncates towards zero. -/
def nanos (count : Rat) : Int :=
  (count.num * 1000000000).tdiv count.den

/-- `resource_limits` -/
def resourceLimits
    (settings : Settings)
    (spec : ContainerSpec) : Except Exn Limits :=
  let memory := spec.memoryLimit.getD (.text settings.defaultContainerMemoryLimit)
  let cores := spec.cpuLimit.getD (some settings.defaultContainerCpuLimit)
  let pids := spec.pidsLimit.getD (some settings.defaultContainerPidsLimit)
  match cores with
  | none => .error ⟨.typeError,
      "unsupported operand type(s) for *: 'NoneType' and 'int'"⟩
  | some cores =>
      .ok
        { memLimit := memory
          memswapLimit := memory
          nanoCpus := nanos cores
          pidsLimit := pids }

/-- The healthcheck in the shape of the Docker API, in nanoseconds. -/
structure DockerHealthcheck where
  test : List String
  interval : Option Int
  timeout : Option Int
  startPeriod : Option Int
  retries : Option Nat
  deriving DecidableEq

/-- `to_docker_healthcheck` -/
def toDockerHealthcheck (spec : Healthcheck) : DockerHealthcheck where
  test := spec.test
  interval := spec.intervalSeconds.map nanos
  timeout := spec.timeoutSeconds.map nanos
  startPeriod := spec.startPeriodSeconds.map nanos
  retries := spec.retries

/-- Specs with the key `depends_on_role` come last; the sort is stable. -/
def startOrder (template : List ContainerSpec) : List ContainerSpec :=
  (template.filter fun spec => spec.dependsOnRole.isNone) ++
    template.filter fun spec => spec.dependsOnRole.isSome

/-- The arguments of `containers.run`. -/
structure RunRequest where
  image : String
  name : String
  network : String
  environment : List (String × EnvironmentValue)
  /-- The container port mapped to a host port that Docker picks. -/
  port : Option Nat
  /-- The label `provisioner.env_id` -/
  envLabel : String
  /-- The label `provisioner.role` -/
  roleLabel : String
  limits : Limits
  healthcheck : Option DockerHealthcheck
  deriving DecidableEq

/-- The request that `_start_container` sends for a spec. -/
def runRequest
    (deployment : Deployment)
    (envId network : String)
    (spec : ContainerSpec)
    (environment : List (String × EnvironmentValue)) : Except Exn RunRequest :=
  match resourceLimits deployment.settings spec with
  | .error exc => .error exc
  | .ok limits =>
      .ok
        { image := spec.image
          name := containerName envId spec.role
          network := network
          environment := environment
          port := if spec.exposes then spec.exposePort else none
          envLabel := envId
          roleLabel := spec.role
          limits := limits
          healthcheck := spec.healthcheck.map toDockerHealthcheck }

/-- The service as shipped. -/
def shipped : Deployment where
  templates := templates
  strFormat := formatNamed

/-- A string prefix of fixed length can be cancelled from an append. -/
theorem append_inj_of_length_eq {left right leftTail rightTail : String}
    (length : left.length = right.length)
    (equal : left ++ leftTail = right ++ rightTail) :
    left = right ∧ leftTail = rightTail := by
  have lists : left.toList ++ leftTail.toList = right.toList ++ rightTail.toList := by
    simpa using congrArg String.toList equal
  have lengths : left.toList.length = right.toList.length := by
    rw [String.length_toList, String.length_toList, length]
  obtain ⟨heads, tails⟩ := List.append_inj lists lengths
  exact ⟨String.toList_inj.mp heads, String.toList_inj.mp tails⟩

/-- Container names determine the environment and the role. -/
@[simp] theorem containerName_inj {left right : Uuid} {leftRole rightRole : String} :
    containerName left.str leftRole = containerName right.str rightRole ↔
      left = right ∧ leftRole = rightRole := by
  constructor
  · intro equal
    unfold containerName at equal
    simp only [String.append_assoc] at equal
    obtain ⟨-, rest⟩ := append_inj_of_length_eq rfl equal
    obtain ⟨ids, rest⟩ := append_inj_of_length_eq (by simp) rest
    obtain ⟨-, roles⟩ := append_inj_of_length_eq rfl rest
    exact ⟨Uuid.str_injective ids, roles⟩
  · rintro ⟨rfl, rfl⟩
    rfl

/-- Network names determine the environment. -/
@[simp] theorem networkName_inj {left right : String} :
    networkName left = networkName right ↔ left = right := by
  constructor
  · intro equal
    exact (append_inj_of_length_eq rfl equal).2
  · rintro rfl
    rfl

/-- Sorting keeps the specs. -/
@[simp] theorem mem_startOrder {template : List ContainerSpec} {spec : ContainerSpec} :
    spec ∈ startOrder template ↔ spec ∈ template := by
  cases depends : spec.dependsOnRole <;> simp [startOrder, depends]

end Compose

end Provisioner
