import Provisioner.Attempts

/-!
# Whose resources

A row names containers and networks by their ids, and so does every copy of it, an
attempt that is still building, and the listings of the orphan sweep. All of them name
resources of their own environment only: what a row or an attempt names carries the id
of that row as its label for as long as it exists, and a listing shows the label that a
resource still has.
-/

namespace Provisioner

open Resumption

/-- The resources that an attempt has created so far. -/
def Stage.built : Stage → List Resource
  | building _ network containers =>
      containers.map .container ++ network.toList.map .network
  | _ => []

/-- The resources of a listing, with their labels. -/
def Stage.shown : Stage → List (Resource × Option String)
  | grouping containers =>
      containers.map fun container => (.container container.id, container.envLabel)
  | listing containers networks _ =>
      containers.map (fun container => (.container container.id, container.envLabel)) ++
        networks.map fun network => (.network network.id, network.envLabel)
  | _ => []

namespace Ownership

/-- A resource was given out, and whatever exists under its id belongs to `id`. -/
structure Owns (daemon : Daemon) (id : Uuid) (resource : Resource) : Prop where
  issued : resource.Issued daemon
  label : ∀ label, daemon.label resource = some label → label = id.str

/-- A listing shows a resource as it is, if it still exists. -/
structure Shows (daemon : Daemon) (entry : Resource × Option String) : Prop where
  issued : entry.1.Issued daemon
  label : ∀ label, daemon.label entry.1 = some label → entry.2 = some label

/-- Ids are not given out again, and labels do not change. -/
structure Retains (daemon later : Daemon) : Prop where
  nextId : daemon.nextId ≤ later.nextId
  label : ∀ resource label, resource.Issued daemon → later.label resource = some label →
    daemon.label resource = some label

variable {deployment : Deployment} {refuses : Bool}
  {allowed : System → Occurrence → Prop} {config : System}
  {world next : World} {phase : Phase} {resource : Resource} {id : Uuid}

theorem Retains.refl (daemon : Daemon) : Retains daemon daemon :=
  ⟨Nat.le_refl _, fun _ _ _ label => label⟩

theorem Retains.issued {daemon later : Daemon} (retains : Retains daemon later)
    (issued : resource.Issued daemon) : resource.Issued later :=
  Nat.lt_of_lt_of_le issued retains.nextId

theorem Owns.mono {daemon later : Daemon} (owns : Owns daemon id resource)
    (retains : Retains daemon later) : Owns later id resource :=
  ⟨retains.issued owns.issued,
    fun label found => owns.label label (retains.label resource label owns.issued found)⟩

theorem Shows.mono {daemon later : Daemon} {entry : Resource × Option String}
    (shows' : Shows daemon entry) (retains : Retains daemon later) : Shows later entry :=
  ⟨retains.issued shows'.issued,
    fun label found => shows'.label label (retains.label _ label shows'.issued found)⟩

/-- An answered call retains what Docker knows. -/
theorem retains_of_effect {request : Call} {reply : Reply request}
    (permits : phase.permits deployment request)
    (effect : world.Effect request reply next) : Retains world.docker next.docker :=
  ⟨(Integrity.grows_of_effect permits effect).nextId,
    fun _ _ issued found => Attempts.label_of_effect issued effect found⟩

/-- A row that results from a write names what it named or what the session named. -/
theorem recorded_writeAll {db : Environments} {changes : List Change}
    {row row' : Environment}
    (found : db.find id = some row)
    (written : (db.writeAll changes).find id = some row')
    (present : resource ∈ row'.recorded) :
    resource ∈ row.recorded ∨
      ∃ change ∈ changes, change.seen.id = id ∧ resource ∈ change.now.recorded := by
  cases resource with
  | container wanted =>
      rw [Environment.container_mem_recorded] at present
      rcases Environments.column_writeAll Environment.containerIds (fun _ _ _ => rfl)
        found written with same | ⟨change, member, about, -, same⟩
      · rw [same] at present
        exact .inl (Environment.container_mem_recorded.mpr present)
      · rw [same] at present
        exact .inr ⟨change, member, about, Environment.container_mem_recorded.mpr present⟩
  | network wanted =>
      rw [Environment.network_mem_recorded] at present
      rcases Environments.column_writeAll Environment.networkId (fun _ _ _ => rfl)
        found written with same | ⟨change, member, about, -, same⟩
      · rw [same] at present
        exact .inl (Environment.network_mem_recorded.mpr present)
      · rw [same] at present
        exact .inr ⟨change, member, about, Environment.network_mem_recorded.mpr present⟩

/-- A change that leaves the resources and the dates of a row alone and does not write
RUNNING. -/
structure Leaves (seen now : Environment) : Prop where
  containerIds : now.containerIds = seen.containerIds
  networkId : now.networkId = seen.networkId
  startedAt : now.startedAt = seen.startedAt
  expiresAt : now.expiresAt = seen.expiresAt
  status : now.status = .running → now.status = seen.status

/-- A change leaves a row alone, or it is the commit of RUNNING. -/
theorem leaves_or_running {changes : List Change} {change : Change}
    (commits : phase.Commits changes) (present : change ∈ changes) :
    Leaves change.seen change.now ∨
      ∃ network containers port now changed, phase.role.runs .provision ∧
        phase.stage = .building change.seen (some network) containers ∧
        change.now =
          Worker.asRunning change.seen ⟨network, containers, port⟩ now changed := by
  cases commits with
  | running env network containers port now changed attempt stage =>
      cases List.mem_singleton.mp present
      exact .inr ⟨network, containers, port, now, changed, attempt, stage, rfl⟩
  | accepted env task stage =>
      cases List.mem_singleton.mp present
      exact .inl ⟨rfl, rfl, rfl, rfl, fun _ => rfl⟩
  | reaping rows _ sweep stage written =>
      obtain ⟨-, now, -, made⟩ := written change present
      rw [made]
      refine .inl ⟨rfl, rfl, rfl, rfl, fun running => ?_⟩
      cases running
  | recovering rows _ sweep stage written =>
      obtain ⟨-, now, -, message, made⟩ := written change present
      rw [made]
      refine .inl ⟨rfl, rfl, rfl, rfl, fun running => ?_⟩
      cases running
  | _ =>
      cases List.mem_singleton.mp present
      refine .inl ⟨rfl, rfl, rfl, rfl, fun running => ?_⟩
      cases running

/-- A change names what its session saw, or it is the commit of RUNNING, which names what
the attempt has built. -/
theorem recorded_of_commits {changes : List Change} {change : Change}
    (commits : phase.Commits changes) (present : change ∈ changes) :
    change.now.recorded = change.seen.recorded ∨
      (phase.role.runs .provision ∧ change.now.recorded = phase.stage.built) := by
  rcases leaves_or_running commits present with leaves | running
  · unfold Environment.recorded
    rw [leaves.containerIds, leaves.networkId]
    exact .inl rfl
  · obtain ⟨network, containers, port, now, changed, attempt, stage, made⟩ := running
    rw [made, stage]
    exact .inr ⟨attempt, rfl⟩

/-- An entry that a call brings into a listing. -/
inductive Lists : (request : Call) → Reply request → Resource × Option String → Prop
  | containers (containers : List Container) (container : Container) :
      container ∈ containers →
      Lists .containersList (.ok containers) (.container container.id, container.envLabel)
  | networks (networks : List Network) (network : Network) :
      network ∈ networks →
      Lists .networksList (.ok networks) (.network network.id, network.envLabel)

/-- A query for a row leaves the listing of the sweep alone. -/
theorem shown_onLoad {stage : Stage} {reply : Except Exn (Option Environment)}
    {entry : Resource × Option String}
    (present : entry ∈ (stage.onLoad id reply).shown) : entry ∈ stage.shown := by
  cases stage with
  | listing containers networks verdict => rcases reply with exc | row <;> exact present
  | starting => rcases reply with exc | (row | row) <;> cases present
  | absent => rcases reply with exc | (row | row) <;> cases present
  | broken => rcases reply with exc | (row | row) <;> cases present
  | building env network containers => rcases reply with exc | (row | row) <;> cases present
  | removing env cleared => rcases reply with exc | (row | row) <;> cases present
  | _ => cases present

/-- A commit shows nothing. -/
theorem shown_onCommit {role : Role} {stage : Stage} {changes : List Change}
    {reply : Except Exn Unit} : (stage.onCommit role changes reply).shown = [] := by
  have commits : stage.Commits role changes reply (stage.onCommit role changes reply) :=
    Stage.onCommit_commits changes reply
  generalize stage.onCommit role changes reply = stage' at commits
  cases commits <;> rfl

theorem shown_clear {stage : Stage} : (stage.clear resource).shown = stage.shown := by
  cases stage <;> rfl

/-- What a stage shows was shown before or is in the listing just received. -/
theorem mem_shown_after {role : Role} {stage : Stage} {request : Call}
    {reply : Reply request} {entry : Resource × Option String}
    (present : entry ∈ (stage.after role request reply).shown) :
    entry ∈ stage.shown ∨ Lists request reply entry := by
  have cleared : ∀ {wanted : Resource} {next : Stage},
      (next = stage ∨ next = stage.clear wanted) → entry ∈ next.shown → entry ∈ stage.shown := by
    rintro wanted next (rfl | rfl) shown
    · exact shown
    · rwa [shown_clear] at shown
  cases request with
  | loadEnvironment wanted => exact .inl (shown_onLoad present)
  | commitChanges changes =>
      unfold Stage.after at present
      rw [shown_onCommit] at present
      cases present
  | containerGet wanted => exact .inl (cleared (Stage.onResource_cases _ reply) present)
  | containerStop wanted => exact .inl (cleared (Stage.onResource_cases _ reply) present)
  | containerRemove wanted => exact .inl (cleared (Stage.onRemove_cases _ reply) present)
  | networkGet wanted => exact .inl (cleared (Stage.onResource_cases _ reply) present)
  | networkRemove wanted => exact .inl (cleared (Stage.onRemove_cases _ reply) present)
  | containersList =>
      rcases reply with exc | containers
      · exact .inl present
      · obtain ⟨container, member, rfl⟩ := List.mem_map.mp present
        exact .inr (.containers containers container member)
  | networksList =>
      rcases reply with exc | networks
      · exact .inl present
      · cases stage with
        | grouping containers =>
            rcases List.mem_append.mp present with old | new
            · exact .inl old
            · obtain ⟨network, member, rfl⟩ := List.mem_map.mp new
              exact .inr (.networks networks network member)
        | _ => exact .inl present
  | countActive owner =>
      rcases reply with exc | count
      · exact .inl present
      · cases present
  | findActive owner name =>
      rcases reply with exc | rows
      · exact .inl present
      · cases stage <;> cases rows <;> cases present
  | flushInsert name owner template ttlSeconds =>
      rcases reply with exc | env
      · exact .inl present
      · cases stage <;> cases present
  | publish task envId retries countdown =>
      rcases reply with exc | published
      · exact .inl present
      · cases stage <;> exact .inl present
  | commitInsert env => rcases reply with exc | done <;> cases present
  | selectExpired now => rcases reply with exc | rows <;> first | exact .inl present | cases present
  | selectStale status cutoff pending =>
      rcases reply with exc | rows
      · exact .inl present
      · cases stage <;> exact .inl present
  | networksCreate name label =>
      rcases reply with exc | network
      · exact .inl present
      · cases stage with
        | building env network containers => cases network <;> cases present
        | _ => exact .inl present
  | containersRun request =>
      rcases reply with exc | container
      · exact .inl present
      · cases stage <;> exact .inl present
  | _ => rcases reply with exc | value <;> exact .inl present

/-- A resource that a call creates. -/
inductive Builds : (request : Call) → Reply request → Resource → Prop
  | network (name label : String) (id : DockerId) :
      Builds (.networksCreate name label) (.ok id) (.network id)
  | container (request : Compose.RunRequest) (id : DockerId) :
      Builds (.containersRun request) (.ok id) (.container id)

/-- A created resource is new. -/
theorem has_of_builds {request : Call} {reply : Reply request}
    (builds : Builds request reply resource)
    (effect : world.Effect request reply next) :
    ¬resource.Issued world.docker ∧ next.docker.has resource = true := by
  cases builds with
  | network name label id =>
      cases effect with
      | read _ _ reads => cases reads
      | networkCreated _ _ _ given raises =>
          have same := given id rfl
          subst same
          exact ⟨Nat.lt_irrefl _, has_addNetwork.mpr (.inr rfl)⟩
  | container request id =>
      cases effect with
      | read _ _ reads => cases reads
      | containerCreated _ _ network free given raises resolved =>
          have same := given id rfl
          subst same
          exact ⟨Nat.lt_irrefl _, (has_addContainer free).mpr (.inr rfl)⟩

/-- Nothing is built in a stage that a query leads to. -/
theorem built_onLoad {stage : Stage} {reply : Except Exn (Option Environment)} :
    (stage.onLoad id reply).built = [] := by
  cases stage <;> rcases reply with exc | (row | row) <;> rfl

/-- Nothing is built yet in a stage that a commit leads to. -/
theorem built_onCommit {role : Role} {stage : Stage} {changes : List Change}
    {reply : Except Exn Unit} : (stage.onCommit role changes reply).built = [] := by
  have commits : stage.Commits role changes reply (stage.onCommit role changes reply) :=
    Stage.onCommit_commits changes reply
  generalize stage.onCommit role changes reply = stage' at commits
  cases commits <;> rfl

/-- What an attempt has built was built before or has just been created. -/
theorem mem_built_of_works {role : Role} {stage stage' : Stage} {request : Call}
    {reply : Reply request}
    (works : stage.Works role request reply stage')
    (present : resource ∈ stage'.built) :
    resource ∈ stage.built ∨ Builds request reply resource := by
  cases works with
  | load wanted _ =>
      rw [built_onLoad] at present
      cases present
  | commit changes _ =>
      rw [built_onCommit] at present
      cases present
  | network name label id env containers building =>
      rw [building]
      rcases List.mem_append.mp present with old | new
      · exact .inl (List.mem_append_left _ old)
      · cases List.mem_singleton.mp new
        exact .inr (.network name label id)
  | container request id env network containers building =>
      rw [building]
      unfold Stage.built at present
      dsimp only at present
      rw [List.map_append, List.append_assoc, List.mem_append] at present
      rcases present with old | new
      · exact .inl (List.mem_append_left _ old)
      · rcases List.mem_append.mp new with made | network
        · cases List.mem_singleton.mp made
          exact .inr (.container request id)
        · exact .inl (List.mem_append_right _ network)
  | clear _ _ wanted about =>
      cases stage <;> exact .inl present
  | keep _ _ => exact .inl present

/-- What a session names. -/
structure Session (world : World) (phase : Phase) : Prop where
  onTarget : phase.OnTarget
  /-- A DELETE holds the row that it is about. -/
  request : ∀ id principal, phase.role = .request (.delete id principal) →
    ∀ env ∈ phase.stage.held, env.id = id
  held : ∀ env ∈ phase.stage.held, ∀ resource ∈ env.recorded,
    Owns world.docker env.id resource
  built : phase.role.runs .provision → ∀ id, phase.role.target = some id →
    ∀ resource ∈ phase.stage.built, Owns world.docker id resource
  shown : ∀ entry ∈ phase.stage.shown, Shows world.docker entry
  fresh : ∀ count env, phase.stage.fresh = some (count, env) →
    env.recorded = [] ∧ env.expiresAt = none

/-- Every row names its own resources. -/
def Sound (world : World) : Prop :=
  ∀ row ∈ world.db.rows, ∀ resource ∈ row.recorded, Owns world.docker row.id resource

/-- A session names the same things while Docker only retains what it knows. -/
theorem Session.mono (session : Session world phase)
    (retains : Retains world.docker next.docker) : Session next phase where
  onTarget := session.onTarget
  request := session.request
  held env present resource recorded := (session.held env present resource recorded).mono retains
  built attempt id target resource made :=
    (session.built attempt id target resource made).mono retains
  shown entry present := (session.shown entry present).mono retains
  fresh := session.fresh

/-- A commit of a session that names its own resources is about its own resources. -/
theorem owns_now {changes : List Change} {change : Change}
    (session : Session world phase)
    (commits : phase.Commits changes) (present : change ∈ changes)
    (recorded : resource ∈ change.now.recorded) :
    Owns world.docker change.seen.id resource := by
  have held := commits.seen_mem present
  rcases recorded_of_commits commits present with same | ⟨attempt, made⟩
  · rw [same] at recorded
    exact session.held change.seen held resource recorded
  · rw [made] at recorded
    exact session.built attempt _ (session.onTarget _ attempt _ held) resource recorded

/-- Rows go on naming their own resources. -/
theorem sound_of_effect {request : Call} {reply : Reply request}
    (sound : Sound world)
    (session : Session world phase)
    (permits : phase.permits deployment request)
    (effect : world.Effect request reply next) : Sound next := by
  have retains := retains_of_effect permits effect
  intro row present resource recorded
  refine Owns.mono ?_ retains
  rcases effect.db with same | ⟨env, absent, rfl, same⟩ | ⟨changes, rfl, same⟩
  · rw [same] at present
    exact sound row present resource recorded
  · obtain ⟨owner, payload, count, role, stage⟩ := permits
    rw [same] at present
    rcases List.mem_append.mp present with old | new
    · exact sound row old resource recorded
    · rw [List.mem_singleton.mp new, (session.fresh count env (by rw [stage]; rfl)).1] at recorded
      cases recorded
  · have commits : phase.Commits changes := permits
    rw [same] at present
    have written := Keyed.Table.find_of_mem present
    obtain ⟨before, found⟩ : ∃ before, world.db.find row.id = some before := by
      rw [← Option.isSome_iff_exists, ← Option.isSome_map, ← Environments.find_writeAll]
      exact Option.isSome_iff_exists.mpr ⟨row, written⟩
    rcases recorded_writeAll found written recorded with old | ⟨change, member, about, new⟩
    · rw [← Keyed.Table.key_of_find found]
      exact sound before (Keyed.Table.mem_of_find found) resource old
    · rw [← about]
      exact owns_now session commits member new

/-- What a call creates belongs to the row that the attempt's message names. -/
theorem owns_of_builds {request : Call} {reply : Reply request}
    (session : Session world phase)
    (target : phase.role.target = some id)
    (permits : phase.permits deployment request)
    (effect : world.Effect request reply next)
    (builds : Builds request reply resource) : Owns next.docker id resource := by
  obtain ⟨new, has⟩ := has_of_builds builds effect
  obtain ⟨attempt, owner, own, label⟩ := Attempts.label_of_created session.onTarget permits
    effect (fun has => new (Teardown.issued_of_has has)) has
  rw [target] at own
  cases own
  refine ⟨Teardown.issued_of_has has, fun other found => ?_⟩
  rw [label] at found
  cases found
  rfl

/-- A row that a query finds under pending changes names what the stored row names. -/
theorem recorded_of_view {pending : List Change} {env row : Environment}
    (pends : phase.Pends pending)
    (found : world.db.find env.id = some row)
    (viewed : (world.db.writeAll pending).find env.id = some env) :
    env.recorded = row.recorded := by
  unfold Environment.recorded
  rw [pends.column Environment.containerIds (fun _ _ _ => rfl) (fun _ _ _ => rfl) found viewed,
    pends.column Environment.networkId (fun _ _ _ => rfl) (fun _ _ _ => rfl) found viewed]

/-- A session goes on naming its own resources only. -/
theorem session_of_effect {request : Call} {reply : Reply request}
    (sound : Sound world)
    (session : Session world phase)
    (permits : phase.permits deployment request)
    (effect : world.Effect request reply next) :
    Session next (phase.advance request reply) := by
  have retains := retains_of_effect permits effect
  have later := session.mono retains
  refine ⟨Attempts.onTarget_of_effect session.onTarget permits effect, ?_, ?_, ?_, ?_, ?_⟩
  · intro id principal role env present
    rcases Stage.mem_held_after present with old | taken
    · exact session.request id principal role env old
    · have own : phase.role = .request (.delete id principal) := role
      cases taken with
      | load wanted _ =>
          cases effect with
          | read _ _ reads =>
              have found : some env = world.db.find wanted := reads
              have loads : phase.Loads wanted := permits
              rw [Keyed.Table.key_of_find found.symm]
              unfold Phase.Loads at loads
              rw [own] at loads
              split at loads <;> cases loads <;> rfl
      | commit changes change member =>
          have commits : phase.Commits changes := permits
          rw [(commits.persists member).id]
          exact session.request id principal role _ (commits.seen_mem member)
      | insert _ =>
          obtain ⟨owner, payload, count, creates, -⟩ := permits
          rw [own] at creates
          cases creates
      | expired now rows _ member =>
          have sweeps := permits.1
          rw [own] at sweeps
          cases sweeps
      | stale status cutoff pending rows _ member =>
          have sweeps := permits.1
          rw [own] at sweeps
          cases sweeps
  · intro env present resource recorded
    rcases Stage.mem_held_after present with old | taken
    · exact later.held env old resource recorded
    · refine Owns.mono ?_ retains
      cases taken with
      | load id _ =>
          cases effect with
          | read _ _ reads =>
              have found : some env = world.db.find id := reads
              exact sound env (Keyed.Table.mem_of_find found.symm) resource recorded
      | commit changes change member =>
          have commits : phase.Commits changes := permits
          rw [(commits.persists member).id]
          exact owns_now session commits member recorded
      | insert _ =>
          obtain ⟨owner, payload, count, role, stage⟩ := permits
          rw [(session.fresh count env (by rw [stage]; rfl)).1] at recorded
          cases recorded
      | expired now rows _ member =>
          cases effect with
          | read _ _ reads =>
              have selected := reads.mem_iff.mp member
              exact sound env (List.mem_of_mem_filter selected) resource recorded
      | stale status cutoff pending rows _ member =>
          cases effect with
          | read _ _ reads =>
              have selected := reads.mem_iff.mp member
              obtain ⟨row, found, viewed⟩ :=
                Phase.exists_of_view (List.mem_of_mem_filter selected)
              rw [recorded_of_view permits.2.2 found viewed] at recorded
              rw [← Keyed.Table.key_of_find found]
              exact sound row (Keyed.Table.mem_of_find found) resource recorded
  · intro attempt id target resource present
    have attempts : phase.role.runs .provision := attempt
    rcases mem_built_of_works (Phase.works reply attempts permits) present with old | new
    · exact later.built attempts id target resource old
    · exact owns_of_builds session target permits effect new
  · intro entry present
    rcases mem_shown_after present with old | new
    · exact later.shown entry old
    · refine Shows.mono ?_ retains
      cases new with
      | containers containers container member =>
          cases effect with
          | read _ _ reads =>
              have listed := List.mem_of_mem_filter (reads.mem_iff.mp member)
              refine ⟨world.docker.containerIssued container listed, fun label found => ?_⟩
              unfold Daemon.label at found
              dsimp only at found
              rw [Keyed.Table.find_of_mem listed] at found
              exact found
      | networks networks network member =>
          cases effect with
          | read _ _ reads =>
              have listed := List.mem_of_mem_filter (reads.mem_iff.mp member)
              refine ⟨world.docker.networkIssued network listed, fun label found => ?_⟩
              unfold Daemon.label at found
              dsimp only at found
              rw [Keyed.Table.find_of_mem listed] at found
              exact found
  · intro count env present
    rcases Stage.fresh_after present with ⟨old, fresh, task, rfl⟩ | ⟨-, flushes⟩
    · exact session.fresh count old fresh
    · cases flushes with
      | flush name owner template ttlSeconds _ =>
          cases effect with
          | read _ _ reads => cases reads
          | flushed fresh _ _ _ _ unused fits => exact ⟨rfl, rfl⟩

/-- The rules of ownership, for all runs. -/
theorem rules (deployment : Deployment) (allowed : System → Occurrence → Prop) :
    Rules deployment allowed Sound Session
      (fun world next => Retains world.docker next.docker) where
  stable _ _ _ retains session := session.mono retains
  ambient config action next spawned sound _ surrounds := by
    obtain ⟨db, docker, -⟩ := surrounds.unchanged
    have bare : ∀ role : Role, (Phase.start role).stage.held = [] ∧
        (Phase.start role).stage.built = [] ∧ (Phase.start role).stage.shown = [] ∧
        (Phase.start role).stage.fresh = none := by
      intro role
      unfold Phase.start
      dsimp only
      split <;> exact ⟨rfl, rfl, rfl, rfl⟩
    unfold Sound
    rw [db, docker]
    refine ⟨sound, .refl _, fun role _ => ⟨?_, ?_, ?_, ?_, ?_, ?_⟩⟩
    · intro task _ env present
      rw [(bare role).1] at present
      cases present
    · intro id principal _ env present
      rw [(bare role).1] at present
      cases present
    · intro env present
      rw [(bare role).1] at present
      cases present
    · intro _ id _ resource present
      rw [(bare role).2.1] at present
      cases present
    · intro entry present
      rw [(bare role).2.2.1] at present
      cases present
    · intro count env present
      rw [(bare role).2.2.2] at present
      cases present
  call config event job request reply next sound session _ _ permits effect :=
    ⟨sound_of_effect sound session permits effect, retains_of_effect permits effect,
      session_of_effect sound session permits effect⟩

/-- In every reachable state rows and sessions name their own resources only. -/
theorem of_runs (run : System.Runs deployment refuses allowed config) :
    Sound config.state ∧ ∀ job ∈ config.threads, Session config.state (Job.phase job) :=
  run.sound (fun _ present => nomatch present) (rules deployment allowed)

end Ownership

end Provisioner
