import Provisioner.Handling

/-!
# Nothing is destroyed before its time

The orphan sweep trusts the status of a row, the staleness sweep trusts its age, and a
provision attempt trusts the copy that it loaded minutes ago. Each of them is right as
long as one attempt at a time works on an environment that has no stack yet and the
staleness sweep leaves rows alone whose attempt is still at work. This module proves that
under this condition nothing that a committed RUNNING row records is removed before the
expiry of the row, unless a DELETE was accepted.
-/

namespace Provisioner

open Resumption

/-- The answered request that removes a resource. -/
def Resource.removal : Resource → Entry Reply
  | .container id => ⟨.containerRemove id, .ok ()⟩
  | .network id => ⟨.networkRemove id, .ok ()⟩

namespace Custody

/-- A DELETE of the environment has published its teardown. -/
def Deleted (id : Uuid) (config : System) : Prop :=
  ∃ job ∈ config.threads, job.role.deletes id = true ∧ ∃ countdown task,
    (⟨.publish .teardown id.str 0 countdown, .ok task⟩ : Entry Reply) ∈ job.trace

/-- The expiry of the row has passed. -/
def Expired (id : Uuid) (world : World) : Prop :=
  ∃ row, world.db.find id = some row ∧ ∃ instant ∈ row.expiresAt, instant ≤ world.clock

/-- The resources of the environment may go. -/
def Doomed (id : Uuid) (config : System) : Prop :=
  Deleted id config ∨ Expired id config.state

/-- The row records the resource, or an attempt at work on the row has built it. -/
def Keeps (id : Uuid) (config : System) (resource : Resource) : Prop :=
  (∃ row, config.state.db.find id = some row ∧ resource ∈ row.recorded) ∨
    ∃ job ∈ config.threads, Handles id job ∧ resource ∈ (Job.phase job).stage.built

/-- The rows that the reaper has selected. -/
def reaps : Stage → List Environment
  | .selected rows | .claimed rows => rows
  | _ => []

variable {deployment : Deployment} {refuses : Bool} {config : System}
  {world next : World} {phase : Phase} {resource : Resource} {id : Uuid}

/-- The query of the reaper returns the row. -/
inductive Selects : (request : Call) → Reply request → Environment → Prop
  | rows (now : Time) (rows : List Environment) (env : Environment) :
      env ∈ rows → Selects (.selectExpired now) (.ok rows) env

/-- A query finds no row or a terminal one. -/
inductive Condemns (id : Uuid) : (request : Call) → Reply request → Prop
  | row (row : Option Environment) :
      (∀ env ∈ row, env.status.terminal = true) →
      Condemns id (.loadEnvironment id) (.ok row)

/-- The rows that the reaper holds come from its query. -/
theorem reaps_after {role : Role} {stage : Stage} {request : Call} {reply : Reply request}
    {env : Environment}
    (present : env ∈ reaps (stage.after role request reply)) :
    env ∈ reaps stage ∨ Selects request reply env := by
  have advances : stage.Advances role request reply (stage.after role request reply) :=
    Stage.after_advances request reply
  generalize stage.after role request reply = stage' at advances present
  cases advances with
  | load wanted reply =>
      cases stage with
      | listing containers networks verdict => rcases reply with exc | row <;> cases present
      | _ => rcases reply with exc | (row | row) <;> cases present
  | commit changes reply =>
      have commits : stage.Commits role changes reply (stage.onCommit role changes reply) :=
        Stage.onCommit_commits changes reply
      generalize stage.onCommit role changes reply = stage' at commits present
      cases commits with
      | claimed rows selected =>
          rw [selected]
          exact .inl present
      | _ => cases present
  | select now rows => exact .inr (.rows now rows env present)
  | keep _ _ => exact .inl present
  | bare _ _ _ bare => cases stage' <;> first | exact False.elim bare | cases present
  | _ => cases present

/-- The orphan sweep condemns an environment by a query. -/
theorem listing_after {role : Role} {stage : Stage} {request : Call} {reply : Reply request}
    {containers : List Container} {networks : List Network}
    (reached : stage.after role request reply = .listing containers networks (some id)) :
    stage = .listing containers networks (some id) ∨ Condemns id request reply := by
  have cleared : ∀ {wanted : Resource} {next : Stage},
      (next = stage ∨ next = stage.clear wanted) →
      next = .listing containers networks (some id) →
      stage = .listing containers networks (some id) := by
    rintro wanted next (rfl | rfl) same
    · exact same
    · cases stage <;> first | exact same | cases same
  cases request with
  | loadEnvironment wanted =>
      cases stage with
      | listing shown listed verdict =>
          rcases reply with exc | row
          · cases reached
          · have decided : (if row.all fun env => env.status.terminal then some wanted
                else none) = some id := by
              have parts := Stage.listing.inj reached
              exact parts.2.2
            split at decided
            · rename_i terminal
              cases decided
              refine .inr (.row row fun env found => ?_)
              rw [found] at terminal
              exact terminal
            · cases decided
      | _ => rcases reply with exc | (row | row) <;> cases reached
  | commitChanges changes =>
      have commits : stage.Commits role changes reply (stage.onCommit role changes reply) :=
        Stage.onCommit_commits changes reply
      change stage.onCommit role changes reply = _ at reached
      rw [reached] at commits
      cases commits
  | containerGet wanted => exact .inl (cleared (Stage.onResource_cases _ reply) reached)
  | containerStop wanted => exact .inl (cleared (Stage.onResource_cases _ reply) reached)
  | containerRemove wanted => exact .inl (cleared (Stage.onRemove_cases _ reply) reached)
  | networkGet wanted => exact .inl (cleared (Stage.onResource_cases _ reply) reached)
  | networkRemove wanted => exact .inl (cleared (Stage.onRemove_cases _ reply) reached)
  | networksList =>
      rcases reply with exc | listed
      · exact .inl reached
      · cases stage <;> first | exact .inl reached | cases reached
  | containersList =>
      rcases reply with exc | listed
      · exact .inl reached
      · cases reached
  | countActive owner =>
      rcases reply with exc | count
      · exact .inl reached
      · cases reached
  | findActive owner name =>
      rcases reply with exc | rows
      · exact .inl reached
      · cases stage <;> cases rows <;> cases reached
  | flushInsert name owner template ttlSeconds =>
      rcases reply with exc | env
      · exact .inl reached
      · cases stage <;> cases reached
  | publish task envId retries countdown =>
      rcases reply with exc | published
      · exact .inl reached
      · cases stage <;> first | exact .inl reached | cases reached
  | commitInsert env => rcases reply with exc | done <;> cases reached
  | selectExpired now =>
      rcases reply with exc | rows
      · exact .inl reached
      · cases reached
  | selectStale status cutoff pending =>
      rcases reply with exc | rows
      · exact .inl reached
      · cases stage <;> first | exact .inl reached | cases reached
  | networksCreate name label =>
      rcases reply with exc | network
      · exact .inl reached
      · cases stage with
        | building env network containers => cases network <;> cases reached
        | _ => exact .inl reached
  | containersRun request =>
      rcases reply with exc | container
      · exact .inl reached
      · cases stage <;> first | exact .inl reached | cases reached
  | _ => rcases reply with exc | value <;> exact .inl reached

/-- What holds while the resources of the environment may not go. -/
structure Fine (id : Uuid) (config : System) : Prop where
  /-- What an attempt takes to be PROVISIONING is PROVISIONING. -/
  provisioning : ∀ job ∈ config.threads, Handles id job → builds (Job.phase job).stage = true →
    ∃ row, config.state.db.find id = some row ∧ row.status = .provisioning
  /-- A row with a stack is RUNNING. -/
  running : ∀ row, config.state.db.find id = some row → row.networkId ≠ none →
    row.status = .running
  /-- What the environment keeps exists. -/
  exist : ∀ resource, Keeps id config resource → config.state.docker.has resource = true
  /-- The orphan sweep does not condemn it. -/
  spared : ∀ job ∈ config.threads, ∀ containers networks,
    (Job.phase job).stage = .listing containers networks (some id) →
    ∀ resource, Stage.Listed containers networks id resource → ¬Keeps id config resource
  /-- The row still records what was committed. -/
  committed : ∀ job ∈ config.threads, job.role.Is .provision id → ∀ change : Change,
    (⟨.commitChanges [change], .ok ()⟩ : Entry Reply) ∈ job.trace →
    change.now.status = .running →
    ∃ row, config.state.db.find id = some row ∧ row.networkId ≠ none ∧
      row.recorded = change.now.recorded
  /-- No teardown is ordered. -/
  ordered : ∀ message ∈ config.state.sent, ¬message.Is .teardown id
  /-- The reaper has not selected the row. -/
  unselected : ∀ job ∈ config.threads, ∀ env ∈ reaps (Job.phase job).stage, env.id ≠ id

/-! ## Roles -/

/-- Resources of a row are removed by attempts to tear it down, and no provision attempt
records an accepted DELETE. -/
structure Fits (phase : Phase) : Prop where
  removing : ∀ env cleared, phase.stage = .removing env cleared → phase.role.runs .teardown
  deleting : ∀ env task, phase.stage = .deleting env task → ¬phase.role.runs .provision

/-- A call leads to a stage that fits the role. -/
theorem fits_advance {request : Call} {reply : Reply request}
    (fits : Fits phase)
    (permits : phase.permits deployment request) : Fits (phase.advance request reply) := by
  have advances : phase.stage.Advances phase.role request reply
      (phase.stage.after phase.role request reply) := Stage.after_advances request reply
  refine ⟨fun env cleared reached => ?_, fun env task reached => ?_⟩
  · change phase.stage.after phase.role request reply = _ at reached
    rw [reached] at advances
    generalize same : Stage.removing env cleared = stage' at advances
    cases advances with
    | load wanted reply =>
        generalize phase.stage = stage at same
        cases stage <;> rcases reply with exc | (row | row) <;> cases same
    | commit changes reply =>
        have commits : phase.stage.Commits phase.role changes reply
            (phase.stage.onCommit phase.role changes reply) :=
          Stage.onCommit_commits changes reply
        rw [← same] at commits
        cases commits with
        | removing held change rest loaded wrote other =>
            have written : phase.Commits changes := permits
            cases written with
            | provisioning _ _ runs => exact (other runs).elim
            | stopping _ _ runs => exact runs
            | running _ _ _ _ _ _ runs => exact (other runs).elim
            | stopped _ _ _ _ runs => exact runs
            | failed _ _ _ _ _ stage => rw [loaded] at stage; cases stage
            | accepted _ _ stage => rw [loaded] at stage; cases stage
            | reaping _ _ _ stage => rw [loaded] at stage; cases stage
            | recovering _ _ _ stage => rw [loaded] at stage; cases stage
    | remove _ _ held before _ removing => exact fits.removing held before removing
    | keep _ _ => exact fits.removing env cleared same.symm
    | bare _ _ _ bare =>
        rw [← same] at bare
        exact bare.elim
    | _ => cases same
  · change phase.stage.after phase.role request reply = _ at reached
    rw [reached] at advances
    generalize same : Stage.deleting env task = stage' at advances
    cases advances with
    | load wanted reply =>
        generalize phase.stage = stage at same
        cases stage <;> rcases reply with exc | (row | row) <;> cases same
    | commit changes reply =>
        have commits : phase.stage.Commits phase.role changes reply
            (phase.stage.onCommit phase.role changes reply) :=
          Stage.onCommit_commits changes reply
        rw [← same] at commits
        cases commits
    | accept task envId retries countdown _ held loaded =>
        intro attempt
        have attempts : phase.role.runs .provision := attempt
        have publishes : phase.Publishes task envId retries := permits
        cases publishes with
        | create principal payload count inserted role => rw [role] at attempts; exact attempts
        | delete id principal deleted role => rw [role] at attempts; exact attempts
        | reap rows row stage => rw [loaded] at stage; cases stage
        | retry message role retired => rw [loaded] at retired; exact retired
    | keep _ _ => exact fits.deleting env task same.symm
    | bare _ _ _ bare =>
        rw [← same] at bare
        exact bare.elim
    | _ => cases same

/-- The rules for stages that fit the roles. -/
theorem fits_rules (deployment : Deployment) (allowed : System → Occurrence → Prop) :
    Rules deployment allowed (fun _ => True) (fun _ phase => Fits phase)
      (fun _ _ => True) where
  stable _ _ _ _ fits := fits
  ambient config action next spawned _ _ _ := by
    refine ⟨trivial, trivial, fun role _ => ⟨fun env cleared reached => ?_,
      fun env task reached => ?_⟩⟩
    · rcases Phase.start_stage role with same | same <;> rw [same] at reached <;> cases reached
    · rcases Phase.start_stage role with same | same <;> rw [same] at reached <;> cases reached
  call config event job request reply next _ fits _ _ permits _ :=
    ⟨trivial, trivial, fits_advance fits permits⟩

/-- In every run the stages fit the roles. -/
theorem fits_of_runs {allowed : System → Occurrence → Prop}
    (run : System.Runs deployment refuses allowed config) :
    ∀ job ∈ config.threads, Fits (Job.phase job) :=
  (run.sound trivial (fits_rules deployment allowed)).2

/-! ## Removals -/

/-- An existing resource stays until a removal is answered. -/
theorem has_or_removed {request : Call} {reply : Reply request}
    (has : world.docker.has resource = true)
    (effect : world.Effect request reply next) :
    next.docker.has resource = true ∨ resource.removal = ⟨request, reply⟩ := by
  cases effect with
  | networkCreated name label => exact .inl (has_addNetwork.mpr (.inl has))
  | containerCreated request _ network free => exact .inl ((has_addContainer free).mpr (.inl has))
  | containerRemoved id present =>
      by_cases same : resource = .container id
      · exact .inr (by rw [same]; rfl)
      · exact .inl (has_removeContainer.mpr ⟨has, same⟩)
  | networkRemoved id present idle =>
      by_cases same : resource = .network id
      · exact .inr (by rw [same]; rfl)
      · exact .inl (has_removeNetwork.mpr ⟨has, same⟩)
  | _ => exact .inl has

/-- A removal removes. -/
theorem gone_of_removal {request : Call} {reply : Reply request}
    (removal : resource.removal = ⟨request, reply⟩)
    (effect : world.Effect request reply next) :
    ¬next.docker.has resource = true ∧ resource.Issued next.docker := by
  cases resource with
  | container id =>
      cases removal
      cases effect with
      | read _ _ reads => cases reads
      | containerRemoved _ present =>
          have issued : (Resource.container id).Issued world.docker :=
            Teardown.issued_of_has present
          exact ⟨fun has => (has_removeContainer.mp has).2 rfl, issued⟩
  | network id =>
      cases removal
      cases effect with
      | read _ _ reads => cases reads
      | networkRemoved _ present idle =>
          have issued : (Resource.network id).Issued world.docker :=
            Teardown.issued_of_has present
          exact ⟨fun has => (has_removeNetwork.mp has).2 rfl, issued⟩

/-- The resource was removed by a call that is permitted only in some stages. -/
theorem removes_of_removal {request : Call} {reply : Reply request}
    (removal : resource.removal = ⟨request, reply⟩)
    (permits : phase.permits deployment request) : phase.stage.Removes resource := by
  cases resource with
  | container wanted =>
      cases removal
      exact permits
  | network wanted =>
      cases removal
      exact permits

/-- A condemned resource is shown with a label that names the environment. -/
theorem shown_of_listed {containers : List Container} {networks : List Network}
    (verdict : Option Uuid)
    (listed : Stage.Listed containers networks id resource) :
    ∃ label, (resource, some label) ∈ (Stage.listing containers networks verdict).shown ∧
      Uuid.parse label = some id := by
  cases resource with
  | container wanted =>
      obtain ⟨container, member, rfl, label, labelled, parsed⟩ := listed
      refine ⟨label, List.mem_append_left _ (List.mem_map.mpr ⟨container, member, ?_⟩), parsed⟩
      rw [labelled]
  | network wanted =>
      obtain ⟨network, member, rfl, label, labelled, parsed⟩ := listed
      refine ⟨label, List.mem_append_right _ (List.mem_map.mpr ⟨network, member, ?_⟩), parsed⟩
      rw [labelled]

/-- Whatever exists is labelled. -/
theorem labelled_of_has (integrity : world.Integrity deployment)
    (has : world.docker.has resource = true) :
    ∃ label, world.docker.label resource = some label := by
  cases resource with
  | container wanted =>
      obtain ⟨container, found⟩ := Option.isSome_iff_exists.mp has
      obtain ⟨-, row, -, template, spec, -, -, labelled, -⟩ :=
        integrity.containers container (Keyed.Table.mem_of_find found)
      refine ⟨row.id.str, ?_⟩
      unfold Daemon.label
      dsimp only
      rw [found]
      exact labelled
  | network wanted =>
      obtain ⟨network, found⟩ := Option.isSome_iff_exists.mp has
      obtain ⟨-, row, -, labelled, -⟩ :=
        integrity.networks network (Keyed.Table.mem_of_find found)
      refine ⟨row.id.str, ?_⟩
      unfold Daemon.label
      dsimp only
      rw [found]
      exact labelled

/-- What exists belongs to one environment only. -/
theorem eq_of_owns {other : Uuid} (integrity : world.Integrity deployment)
    (has : world.docker.has resource = true)
    (owns : Ownership.Owns world.docker id resource)
    (owns' : Ownership.Owns world.docker other resource) : other = id := by
  obtain ⟨label, labelled⟩ := labelled_of_has integrity has
  have same := owns.label label labelled
  have same' := owns'.label label labelled
  rw [same] at same'
  exact (Uuid.str_inj.mp same').symm

/-- What the environment keeps belongs to it. -/
theorem owns_of_keeps {allowed : System → Occurrence → Prop}
    (run : System.Runs deployment refuses allowed config)
    (keeps : Keeps id config resource) : Ownership.Owns config.state.docker id resource := by
  obtain ⟨sound, sessions⟩ := Ownership.of_runs run
  rcases keeps with ⟨row, found, recorded⟩ | ⟨job, present, handles, built⟩
  · rw [← Keyed.Table.key_of_find found]
    exact sound row (Keyed.Table.mem_of_find found) resource recorded
  · obtain ⟨attempt, target⟩ := Role.is_iff.mp handles.2.1
    rw [← Job.role_phase job] at attempt target
    exact (sessions job present).built attempt id target resource built

/-- Nothing is kept for an environment whose row is missing or terminal. -/
theorem not_keeps_of_terminal (base : Base id config) (fine : Fine id config)
    (terminal : ∀ row ∈ config.state.db.find id, row.status.terminal = true) :
    ¬Keeps id config resource := by
  rintro (⟨row, found, recorded⟩ | ⟨other, member, works, built⟩)
  · have done := terminal row found
    by_cases network : row.networkId = none
    · obtain ⟨containers, -⟩ := base.blank row found network
      unfold Environment.recorded at recorded
      rw [containers, network] at recorded
      cases recorded
    · rw [fine.running row found network] at done
      cases done
  · have building : builds (Job.phase other).stage = true := by
      generalize (Job.phase other).stage = stage at built
      cases stage <;> first | rfl | cases built
    obtain ⟨row, found, status⟩ := fine.provisioning other member works building
    have done := terminal row found
    rw [status] at done
    cases done

namespace Turn

variable {index : Nat} {job : Job} {request : Call} {reply : Reply request}
  {row row' : Environment}

/-- The messages and the integrity of the configuration. -/
theorem attends (turn : Turn deployment refuses id config index job request reply next) :
    config.state.Integrity deployment ∧ Messages.Attends config.state (Job.phase job) :=
  ⟨(Messages.of_runs turn.ran).1.integrity, (Messages.of_runs turn.ran).2 job turn.present⟩

/-- While no teardown is ordered, nobody tears the environment down. -/
theorem not_teardown (fine : Fine id config)
    (turn : Turn deployment refuses id config index job request reply next)
    {env : Environment}
    (attempt : (Job.phase job).role.runs .teardown)
    (held : env ∈ (Job.phase job).stage.held) : env.id ≠ id := by
  rintro rfl
  have target := ((Ownership.of_runs turn.ran).2 job turn.present).onTarget _ attempt env held
  obtain ⟨message, same, own⟩ := Role.is_iff.mpr ⟨attempt, target⟩
  exact fine.ordered message (turn.attends.2.sent message (Role.eq_task_of_message same)) own

/-- Nothing that the environment keeps is removed. -/
theorem not_removed (fine : Fine id config)
    (turn : Turn deployment refuses id config index job request reply next)
    (keeps : Keeps id config resource) : resource.removal ≠ ⟨request, reply⟩ := by
  intro removal
  have removes := removes_of_removal removal turn.permits
  have session := (Ownership.of_runs turn.ran).2 job turn.present
  have owns := owns_of_keeps turn.ran keeps
  have has := fine.exist resource keeps
  cases stage : (Job.phase job).stage with
  | removing env cleared =>
      rw [stage] at removes
      have held : env ∈ (Job.phase job).stage.held := by
        rw [stage]
        exact List.mem_singleton_self env
      have attempt := (fits_of_runs turn.ran job turn.present).removing env cleared stage
      exact turn.not_teardown fine attempt held
        (eq_of_owns turn.attends.1 has owns (session.held env held resource removes))
  | listing containers networks verdict =>
      rw [stage] at removes
      cases verdict with
      | none => exact removes
      | some other =>
          have listed : Stage.Listed containers networks other resource := removes
          obtain ⟨label, shown, parsed⟩ := shown_of_listed (some other) listed
          rw [← stage] at shown
          obtain ⟨label', labelled⟩ := labelled_of_has turn.attends.1 has
          cases (session.shown _ shown).label label' labelled
          rw [owns.label label labelled, Uuid.parse_str] at parsed
          cases parsed
          exact fine.spared job turn.present containers networks stage resource listed keeps
  | _ =>
      rw [stage] at removes
      exact removes

/-- Who changes the status of the row: the attempt at work on it, or the staleness sweep
when nobody builds and the row is not RUNNING. -/
theorem changed_by (fine : Fine id config) {changes : List Change} {change : Change}
    {reply : Reply (.commitChanges changes)}
    (turn : Turn deployment refuses id config index job (.commitChanges changes) reply next)
    (member : change ∈ changes) (about : change.seen.id = id)
    (differs : change.now.status ≠ change.seen.status) :
    Handles id job ∨ ((∀ row ∈ config.state.db.find id, row.status ≠ .running) ∧
      ∀ other ∈ config.threads, ¬(Handles id other ∧ builds (Job.phase other).stage = true)) := by
  have commits : (Job.phase job).Commits changes := turn.permits
  have held : change.seen ∈ (Job.phase job).stage.held := commits.seen_mem member
  cases commits with
  | provisioning env now attempt stage =>
      cases List.mem_singleton.mp member
      exact .inl (turn.handles attempt held about (by rw [stage]; rfl))
  | running env network containers port now changed attempt stage =>
      cases List.mem_singleton.mp member
      exact .inl (turn.handles attempt held about (by rw [stage]; rfl))
  | stopping env now attempt stage =>
      cases List.mem_singleton.mp member
      exact (turn.not_teardown fine attempt held about).elim
  | stopped env cleared changed now attempt stage =>
      cases List.mem_singleton.mp member
      exact (turn.not_teardown fine attempt held about).elim
  | failed task env message now attempt stage =>
      cases List.mem_singleton.mp member
      cases task with
      | provision => exact .inl (turn.handles attempt held about (by rw [stage]; rfl))
      | teardown => exact (turn.not_teardown fine attempt held about).elim
  | accepted env task stage =>
      cases List.mem_singleton.mp member
      exact (differs rfl).elim
  | reaping rows _ sweep stage written =>
      refine (fine.unselected job turn.present change.seen ?_ about).elim
      rw [stage]
      exact (written change member).1
  | recovering rows _ sweep stage written =>
      rw [Job.role_phase] at sweep
      have recovers : recovers job.role = true := by
        rw [sweep]
        rfl
      exact .inr (of_decide_eq_true turn.spares recovers change member about)

/-- What the environment keeps after a call was kept before, or the call has created it. -/
theorem keeps_before (base : Base id config) (rest : Action Answer)
    (turn : Turn deployment refuses id config index job request reply next)
    (keeps : Keeps id (config.put next index (job.answered request reply rest)) resource) :
    Keeps id config resource ∨ Ownership.Builds request reply resource := by
  rcases keeps with ⟨row', after, recorded⟩ | ⟨other, member, works, built⟩
  · rcases turn.row_before after with ⟨row, before, moves⟩ | ⟨-, bare, -⟩
    · cases moves with
      | kept _ _ _ same _ => exact .inl (.inl ⟨row, before, same.recorded ▸ recorded⟩)
      | changed _ _ _ same => exact .inl (.inl ⟨row, before, same.recorded ▸ recorded⟩)
      | running env network containers port now changed attempt stage own =>
          obtain ⟨handles, runs⟩ := turn.runs base attempt stage own before port now changed
          rw [runs.recorded] at recorded
          exact .inl (.inr ⟨job, turn.present, handles, recorded⟩)
    · rw [bare] at recorded
      cases recorded
  · rcases turn.mem_put member with rfl | ⟨i, -, there⟩
    · obtain ⟨-, own, -⟩ := works
      have own : job.role.Is .provision id := own
      obtain ⟨attempt, -⟩ := Role.is_iff.mp own
      rw [← Job.role_phase job] at attempt
      rw [Job.phase_answered] at built
      rcases Ownership.mem_built_of_works (Phase.works reply attempt turn.permits) built with
        old | new
      · refine .inl (.inr ⟨job, turn.present, ⟨turn.alive, own, ?_⟩, old⟩)
        generalize (Job.phase job).stage = stage at old
        cases stage <;> first | rfl | cases old
      · exact .inr new
    · exact .inl (.inr ⟨other, List.mem_of_getElem? there, works, built⟩)

/-- An expiry that has passed stays passed. -/
theorem expired (base : Base id config)
    (turn : Turn deployment refuses id config index job request reply next)
    (expired : Expired id config.state) : Expired id next := by
  obtain ⟨row, found, instant, expires, past⟩ := expired
  obtain ⟨row', after, moves⟩ := moves_of_effect turn.permits turn.effect found
  have later := Int.le_trans past turn.effect.clock
  cases moves with
  | kept _ _ _ same _ => exact ⟨row', after, instant, same.expiresAt ▸ expires, later⟩
  | changed _ _ _ same => exact ⟨row', after, instant, same.expiresAt ▸ expires, later⟩
  | running env network containers port now changed attempt stage own =>
      have handles := (turn.runs base attempt stage own found port now changed).1
      have none := base.unbuilt job turn.present handles row found
      rw [(base.blank row found none).2] at expires
      cases expires

/-- Resources that may go may go after the call, too. -/
theorem doomed (base : Base id config) (rest : Action Answer)
    (turn : Turn deployment refuses id config index job request reply next)
    (doomed : Doomed id config) :
    Doomed id (config.put next index (job.answered request reply rest)) := by
  rcases doomed with ⟨other, member, deletes, countdown, task, published⟩ | expired
  · refine .inl ?_
    obtain ⟨i, located⟩ := List.getElem?_of_mem member
    by_cases here : i = index
    · subst here
      rw [turn.found] at located
      cases located
      refine ⟨job.answered request reply rest, ?_, deletes, countdown, task,
        List.mem_append_left _ published⟩
      exact List.mem_of_getElem? (i := i)
        (List.getElem?_set_self (List.getElem?_eq_some_iff.mp turn.found).1)
    · refine ⟨other, List.mem_of_getElem? (i := i) ?_, deletes, countdown, task, published⟩
      rw [Config.put, List.getElem?_set_ne (Ne.symm here)]
      exact located
  · exact .inr (turn.expired base expired)

/-- A provision attempt that commits over a loaded row leaves it PROVISIONING. -/
theorem overwritten (fine : Fine id config) {env : Environment}
    (turn : Turn deployment refuses id config index job request reply next)
    (own : job.role.Is .provision id)
    (overwrites : Overwrites (Job.phase job).stage request reply env) :
    ∃ row, next.db.find id = some row ∧ row.status = .provisioning := by
  obtain ⟨attempt, target⟩ := Role.is_iff.mp own
  rw [← Job.role_phase job] at attempt target
  cases overwrites with
  | change held changes change loaded written =>
      have commits : (Job.phase job).Commits changes := turn.permits
      obtain ⟨now, rfl⟩ := commits_of_loaded attempt loaded commits
      have present : held ∈ (Job.phase job).stage.held := by
        rw [loaded]
        exact List.mem_singleton_self held
      have about : held.id = id := by
        have onTarget := (Ownership.of_runs turn.ran).2 job turn.present
        have same := onTarget.onTarget _ attempt held present
        rw [target] at same
        exact (Option.some.inj same).symm
      obtain ⟨row, found, -⟩ := turn.attends.2.integrity.held held present
      rw [about] at found
      cases turn.effect with
      | read _ _ reads => cases reads
      | committed _ =>
          refine ⟨_, Environments.find_writeAll_single about found, ?_⟩
          by_cases same : held.status = .provisioning
          · obtain ⟨row', found', status⟩ := fine.provisioning job turn.present
              ⟨turn.alive, own, by rw [loaded]; rfl⟩
              (by rw [loaded]; exact decide_eq_true same)
            rw [found] at found'
            cases found'
            unfold Environment.flush
            dsimp only
            rw [same, Environment.setStatus_status, Environment.column_self]
            exact status
          · exact Environment.status_flush fun equal => same equal.symm

/-- What attempts take to be PROVISIONING stays PROVISIONING. -/
theorem provisioning (base : Base id config) (fine : Fine id config) (rest : Action Answer)
    (turn : Turn deployment refuses id config index job request reply next)
    {other : Job}
    (member : other ∈ (config.put next index (job.answered request reply rest)).threads)
    (works : Handles id other)
    (built : builds (Job.phase other).stage = true) :
    ∃ row, next.db.find id = some row ∧ row.status = .provisioning := by
  rcases turn.mem_put member with rfl | ⟨i, elsewhere, there⟩
  · have own : job.role.Is .provision id := works.2.1
    obtain ⟨attempt, target⟩ := Role.is_iff.mp own
    rw [← Job.role_phase job] at attempt target
    rw [Job.phase_answered] at built
    rcases builds_of_works (Phase.works reply attempt turn.permits) built with
      before | ⟨env, finds, status⟩ | ⟨env, overwrites⟩
    · have handles : Handles id job := by
        refine ⟨turn.alive, own, ?_⟩
        generalize (Job.phase job).stage = stage at before
        cases stage <;> first | rfl | cases before
      obtain ⟨row, found, status⟩ := fine.provisioning job turn.present handles before
      obtain ⟨row', after, moves⟩ := moves_of_effect turn.permits turn.effect found
      cases moves with
      | kept _ _ _ _ same => exact ⟨row', after, same.trans status⟩
      | changed changes change _ _ written =>
          cases stage : (Job.phase job).stage with
          | loaded env =>
              exact turn.overwritten fine own (.change env changes change stage written)
          | building env network containers =>
              obtain ⟨made, port, now, changed, -, rfl⟩ :=
                commits_of_building stage turn.permits
              rw [Phase.advance_stage, stage] at built
              cases built
          | _ =>
              rw [stage] at before
              cases before
      | running env network containers port now changed attempt stage =>
          rw [Phase.advance_stage, stage] at built
          cases built
    · cases finds with
      | row wanted env =>
          have named := Attempts.target_of_loads attempt turn.permits
          rw [target] at named
          cases named
          cases turn.effect with
          | read _ _ reads =>
              have found : some env = config.state.db.find id := reads
              exact ⟨env, found.symm, status⟩
    · exact turn.overwritten fine own overwrites
  · have present := List.mem_of_getElem? there
    obtain ⟨row, found, status⟩ := fine.provisioning other present works built
    obtain ⟨row', after, moves⟩ := moves_of_effect turn.permits turn.effect found
    cases moves with
    | kept _ _ _ _ same => exact ⟨row', after, same.trans status⟩
    | changed changes change _ _ written about leaves differs =>
        rcases turn.changed_by fine written about differs with handles | ⟨-, free⟩
        · exact (elsewhere (turn.index_eq base handles there works)).elim
        · exact (free other present ⟨works, built⟩).elim
    | running env network containers port now changed attempt stage own =>
        have handles := (turn.runs base attempt stage own found port now changed).1
        exact (elsewhere (turn.index_eq base handles there works)).elim

/-- A row with a stack is RUNNING after the call. -/
theorem running (base : Base id config) (fine : Fine id config)
    (turn : Turn deployment refuses id config index job request reply next)
    (after : next.db.find id = some row')
    (network : row'.networkId ≠ none) : row'.status = .running := by
  rcases turn.row_before after with ⟨row, before, moves⟩ | ⟨-, bare, -⟩
  · cases moves with
    | kept _ _ _ same status =>
        rw [same.networkId] at network
        exact status.trans (fine.running row before network)
    | changed changes change _ same written about leaves differs =>
        rw [same.networkId] at network
        rcases turn.changed_by fine written about differs with handles | ⟨idle, -⟩
        · exact (network (base.unbuilt job turn.present handles row before)).elim
        · exact (idle row before (fine.running row before network)).elim
    | running env made containers port now changed attempt stage own =>
        exact (turn.runs base attempt stage own before port now changed).2.status
  · exact (network (network_of_bare bare)).elim

/-- What the environment keeps after the call exists. -/
theorem exist (base : Base id config) (fine : Fine id config) (rest : Action Answer)
    (turn : Turn deployment refuses id config index job request reply next)
    (keeps : Keeps id (config.put next index (job.answered request reply rest)) resource) :
    next.docker.has resource = true := by
  rcases turn.keeps_before base rest keeps with old | new
  · rcases has_or_removed (fine.exist resource old) turn.effect with stays | removal
    · exact stays
    · exact (turn.not_removed fine old removal).elim
  · exact (Ownership.has_of_builds new turn.effect).2

/-- No sweep condemns what the environment keeps. -/
theorem spared (base : Base id config) (fine : Fine id config) (rest : Action Answer)
    (turn : Turn deployment refuses id config index job request reply next)
    {other : Job} {containers : List Container} {networks : List Network}
    (member : other ∈ (config.put next index (job.answered request reply rest)).threads)
    (stage : (Job.phase other).stage = .listing containers networks (some id))
    (listed : Stage.Listed containers networks id resource) :
    ¬Keeps id (config.put next index (job.answered request reply rest)) resource := by
  intro keeps
  obtain ⟨label, shown, -⟩ := shown_of_listed (some id) listed
  have issued : ∀ other ∈ config.threads,
      (Job.phase other).stage = .listing containers networks (some id) →
      resource.Issued config.state.docker := by
    intro other present before
    rw [← before] at shown
    exact (((Ownership.of_runs turn.ran).2 other present).shown _ shown).issued
  have unspared : ∀ other ∈ config.threads,
      (Job.phase other).stage = .listing containers networks (some id) → False := by
    intro other present before
    rcases turn.keeps_before base rest keeps with old | new
    · exact fine.spared other present containers networks before resource listed old
    · exact (Ownership.has_of_builds new turn.effect).1 (issued other present before)
  rcases turn.mem_put member with rfl | ⟨i, -, there⟩
  · rw [Job.phase_answered] at stage
    rcases listing_after stage with before | condemns
    · exact unspared job turn.present before
    · cases condemns with
      | row found terminal =>
          rcases turn.keeps_before base rest keeps with old | new
          · cases turn.effect with
            | read _ _ reads =>
                have same : found = config.state.db.find id := reads
                rw [same] at terminal
                exact not_keeps_of_terminal base fine terminal old
          · cases new
  · exact unspared other (List.mem_of_getElem? there) stage

/-- What a provision attempt of the environment commits as RUNNING is on the row. -/
theorem commits_running (base : Base id config)
    {change : Change} {reply : Reply (.commitChanges [change])}
    (turn : Turn deployment refuses id config index job (.commitChanges [change]) reply next)
    (answered : reply = .ok ())
    (own : job.role.Is .provision id)
    (status : change.now.status = .running) :
    ∃ row, next.db.find id = some row ∧ row.networkId ≠ none ∧
      row.recorded = change.now.recorded := by
  obtain ⟨attempt, target⟩ := Role.is_iff.mp own
  rw [← Job.role_phase job] at attempt target
  have commits : (Job.phase job).Commits [change] := turn.permits
  generalize same : [change] = changes at commits
  cases commits with
  | provisioning env now _ stage =>
      cases same
      cases status
  | running env network containers port now changed _ stage =>
      cases same
      have present : env ∈ (Job.phase job).stage.held := by
        rw [stage]
        exact List.mem_singleton_self env
      have onTarget := (Ownership.of_runs turn.ran).2 job turn.present
      have about := onTarget.onTarget _ attempt env present
      rw [target] at about
      cases about
      obtain ⟨row, found, -⟩ := turn.attends.2.integrity.held env present
      obtain ⟨-, runs⟩ := turn.runs base attempt stage rfl found port now changed
      cases turn.effect with
      | failed _ exc raises => cases answered
      | read _ _ reads => cases reads
      | committed _ =>
          refine ⟨_, Environments.find_writeAll_single rfl found, runs.networkId, ?_⟩
          rw [runs.recorded, stage]
          rfl
  | stopping env now runs => cases (Job.phase job).role.runs_inj attempt runs
  | stopped env cleared changed now runs => cases (Job.phase job).role.runs_inj attempt runs
  | failed task env message now _ stage =>
      cases same
      cases status
  | accepted env task stage =>
      exact ((fits_of_runs turn.ran job turn.present).deleting env task stage attempt).elim
  | reaping rows _ sweep =>
      rw [sweep] at attempt
      exact attempt.elim
  | recovering rows _ sweep =>
      rw [sweep] at attempt
      exact attempt.elim

/-- The row goes on recording what was committed as RUNNING. -/
theorem committed (base : Base id config) (fine : Fine id config) (rest : Action Answer)
    (turn : Turn deployment refuses id config index job request reply next)
    {other : Job} {change : Change}
    (member : other ∈ (config.put next index (job.answered request reply rest)).threads)
    (own : other.role.Is .provision id)
    (recorded : (⟨.commitChanges [change], .ok ()⟩ : Entry Reply) ∈ other.trace)
    (status : change.now.status = .running) :
    ∃ row, next.db.find id = some row ∧ row.networkId ≠ none ∧
      row.recorded = change.now.recorded := by
  have later : (∃ row, config.state.db.find id = some row ∧ row.networkId ≠ none ∧
      row.recorded = change.now.recorded) →
      ∃ row, next.db.find id = some row ∧ row.networkId ≠ none ∧
        row.recorded = change.now.recorded := by
    rintro ⟨row, found, network, same⟩
    obtain ⟨row', after, moves⟩ := moves_of_effect turn.permits turn.effect found
    cases moves with
    | kept _ _ _ stays _ =>
        exact ⟨row', after, stays.networkId ▸ network, stays.recorded.trans same⟩
    | changed _ _ _ stays =>
        exact ⟨row', after, stays.networkId ▸ network, stays.recorded.trans same⟩
    | running env made containers port now changed attempt stage about =>
        have handles := (turn.runs base attempt stage about found port now changed).1
        exact (network (base.unbuilt job turn.present handles row found)).elim
  rcases turn.mem_put member with rfl | ⟨i, -, there⟩
  · have own : job.role.Is .provision id := own
    rcases List.mem_append.mp recorded with old | new
    · exact later (fine.committed job turn.present own change old status)
    · cases List.mem_singleton.mp new
      exact turn.commits_running base rfl own status
  · exact later (fine.committed other (List.mem_of_getElem? there) own change recorded status)

/-- No teardown is ordered by a call, unless it accepts a DELETE. -/
theorem ordered (fine : Fine id config) (rest : Action Answer)
    (turn : Turn deployment refuses id config index job request reply next)
    (free : ¬Doomed id (config.put next index (job.answered request reply rest)))
    {message : Message} (sent : message ∈ next.sent) : ¬message.Is .teardown id := by
  cases turn.effect with
  | published task envId retries countdown =>
      rcases List.mem_append.mp sent with old | new
      · exact fine.ordered message old
      · rw [List.mem_singleton.mp new]
        rintro ⟨teardown, parsed⟩
        have teardown : task = .teardown := teardown
        have parsed : Uuid.parse envId = some id := parsed
        have publishes : (Job.phase job).Publishes task envId retries := turn.permits
        cases publishes with
        | create principal payload count env role stage => cases teardown
        | delete own principal env role stage =>
            rw [Uuid.parse_str] at parsed
            cases parsed
            have held : env ∈ (Job.phase job).stage.held := by
              rw [stage]
              exact List.mem_singleton_self env
            have session := (Ownership.of_runs turn.ran).2 job turn.present
            have about := session.request own principal role env held
            rw [Job.role_phase] at role
            refine free (.inl ⟨_, List.mem_of_getElem? (i := index)
              (List.getElem?_set_self (List.getElem?_eq_some_iff.mp turn.found).1), ?_,
              countdown, _, List.mem_append_right _ (List.mem_singleton_self _)⟩)
            show job.role.deletes env.id = true
            rw [role]
            exact decide_eq_true about.symm
        | reap rows env stage member =>
            rw [Uuid.parse_str] at parsed
            refine fine.unselected job turn.present env ?_ (Option.some.inj parsed)
            rw [stage]
            exact member
        | retry message role retired budget =>
            exact fine.ordered message (turn.attends.2.sent message role) ⟨teardown, parsed⟩
  | _ => exact fine.ordered message sent

/-- The reaper does not select the row. -/
theorem unselected (fine : Fine id config) (rest : Action Answer)
    (turn : Turn deployment refuses id config index job request reply next)
    (current : ¬Expired id config.state)
    {other : Job} {env : Environment}
    (member : other ∈ (config.put next index (job.answered request reply rest)).threads)
    (present : env ∈ reaps (Job.phase other).stage) : env.id ≠ id := by
  rcases turn.mem_put member with rfl | ⟨i, -, there⟩
  · rw [Job.phase_answered] at present
    rcases reaps_after present with old | selects
    · exact fine.unselected job turn.present env old
    · cases selects with
      | rows now rows _ chosen =>
          cases turn.effect with
          | read _ _ reads =>
              have selected := reads.mem_iff.mp chosen
              obtain ⟨stored, meets⟩ := List.mem_filter.mp selected
              obtain ⟨-, instant, expires, past⟩ := of_decide_eq_true meets
              have reading := turn.attends.2.integrity.readings now turn.permits.2
              rintro rfl
              exact current ⟨env, Keyed.Table.find_of_mem stored, instant, expires,
                Int.le_trans past reading⟩
  · exact fine.unselected other (List.mem_of_getElem? there) env present

/-- A call keeps what holds while the resources may not go. -/
theorem fine (base : Base id config) (fine : Fine id config) (rest : Action Answer)
    (turn : Turn deployment refuses id config index job request reply next)
    (free : ¬Doomed id (config.put next index (job.answered request reply rest))) :
    Fine id (config.put next index (job.answered request reply rest)) where
  provisioning _ member works built := turn.provisioning base fine rest member works built
  running _ after network := turn.running base fine after network
  exist _ keeps := turn.exist base fine rest keeps
  spared _ member _ _ stage _ listed := turn.spared base fine rest member stage listed
  committed _ member own _ recorded status :=
    turn.committed base fine rest member own recorded status
  ordered _ sent := turn.ordered fine rest free sent
  unselected _ member _ present :=
    turn.unselected fine rest (fun expired => free (turn.doomed base rest (.inr expired)))
      member present

end Turn

/-! ## Steps without a call -/

/-- A step in which no call is answered: the threads stay where they are, one of them may
be killed, and one may start. -/
structure Idle (deployment : Deployment) (config config' : System) : Prop where
  db : config'.state.db = config.state.db
  docker : config'.state.docker = config.state.docker
  sent : config'.state.sent = config.state.sent
  clock : config.state.clock ≤ config'.state.clock
  threads : ∀ (i : Nat) (job' : Job), config'.threads[i]? = some job' →
    (∃ job : Job, config.threads[i]? = some job ∧ job'.role = job.role ∧
      job'.trace = job.trace ∧ (job'.live = true → job.live = true)) ∨
    ∃ role, job' = Thread.start (machine deployment) role
  kept : ∀ job ∈ config.threads, ∃ job' ∈ config'.threads,
    job'.role = job.role ∧ job'.trace = job.trace

/-- A thread that has just started is not at work and has not come to a selection or a
listing. -/
theorem stage_start (role : Role) :
    underway (Phase.start role).stage = true →
      ∃ rows, (Phase.start role).stage = .scanning rows := by
  unfold Phase.start
  dsimp only
  split
  · exact fun _ => ⟨[], rfl⟩
  · intro working
    cases working

/-- A thread that has just started does not handle the environment. -/
theorem not_handles_start (role : Role) :
    ¬Handles id (Thread.start (machine deployment) role) := by
  rintro ⟨-, own, working⟩
  have own : role.Is .provision id := own
  rw [Job.phase_start, Phase.start_of_runs (Role.is_iff.mp own).1] at working
  cases working

namespace Idle

variable {config' : System}

/-- A thread that comes from another one is at the same stage. -/
theorem phase_eq {job job' : Job} (role : job'.role = job.role) (trace : job'.trace = job.trace) :
    Job.phase job' = Job.phase job := by
  unfold Job.phase
  rw [role, trace]

/-- Whoever is at work was at work before. -/
theorem handles (idle : Idle deployment config config') {i : Nat} {job' : Job}
    (located : config'.threads[i]? = some job') (works : Handles id job') :
    ∃ job : Job, config.threads[i]? = some job ∧ Handles id job ∧
      Job.phase job' = Job.phase job := by
  rcases idle.threads i job' located with ⟨job, there, role, trace, lives⟩ | ⟨role, rfl⟩
  · have same := phase_eq role trace
    obtain ⟨alive, own, working⟩ := works
    rw [role] at own
    rw [same] at working
    exact ⟨job, there, ⟨lives alive, own, working⟩, same⟩
  · exact (not_handles_start role works).elim

/-- Every stage is that of a thread before, or of one that has just started. -/
theorem stage (idle : Idle deployment config config') {job' : Job}
    (member : job' ∈ config'.threads) :
    (∃ job ∈ config.threads, job'.role = job.role ∧ job'.trace = job.trace ∧
      Job.phase job' = Job.phase job) ∨
    ∃ role, job' = Thread.start (machine deployment) role := by
  obtain ⟨i, located⟩ := List.getElem?_of_mem member
  rcases idle.threads i job' located with ⟨job, there, role, trace, -⟩ | started
  · exact .inl ⟨job, List.mem_of_getElem? there, role, trace, phase_eq role trace⟩
  · exact .inr started

/-- What the environment keeps was kept before. -/
theorem keeps (idle : Idle deployment config config') (keeps : Keeps id config' resource) :
    Keeps id config resource := by
  rcases keeps with ⟨row, found, recorded⟩ | ⟨job', member, works, built⟩
  · rw [idle.db] at found
    exact .inl ⟨row, found, recorded⟩
  · obtain ⟨i, located⟩ := List.getElem?_of_mem member
    obtain ⟨job, there, handles, same⟩ := idle.handles located works
    rw [same] at built
    exact .inr ⟨job, List.mem_of_getElem? there, handles, built⟩

theorem base (idle : Idle deployment config config') (base : Base id config) :
    Base id config' where
  alone := by
    intro i j first second locatedFirst locatedSecond worksFirst worksSecond
    obtain ⟨job, there, handles, -⟩ := idle.handles locatedFirst worksFirst
    obtain ⟨job', there', handles', -⟩ := idle.handles locatedSecond worksSecond
    exact base.alone i j job job' there there' handles handles'
  unbuilt := by
    intro job' member works row found
    obtain ⟨i, located⟩ := List.getElem?_of_mem member
    obtain ⟨job, there, handles, -⟩ := idle.handles located works
    rw [idle.db] at found
    exact base.unbuilt job (List.mem_of_getElem? there) handles row found
  blank := by
    rw [idle.db]
    exact base.blank
  copies := by
    intro job' member own env network containers stage
    rcases idle.stage member with ⟨job, present, role, -, same⟩ | ⟨role, rfl⟩
    · rw [role] at own
      rw [same] at stage
      exact base.copies job present own env network containers stage
    · have own : role.Is .provision id := own
      rw [Job.phase_start, Phase.start_of_runs (Role.is_iff.mp own).1] at stage
      cases stage

theorem doomed (idle : Idle deployment config config') (doomed : Doomed id config) :
    Doomed id config' := by
  rcases doomed with ⟨job, member, deletes, countdown, task, published⟩ |
    ⟨row, found, instant, expires, past⟩
  · obtain ⟨job', member', role, trace⟩ := idle.kept job member
    refine .inl ⟨job', member', ?_, countdown, task, ?_⟩
    · rw [role]
      exact deletes
    · rw [trace]
      exact published
  · refine .inr ⟨row, ?_, instant, expires, Int.le_trans past idle.clock⟩
    rw [idle.db]
    exact found

theorem fine (idle : Idle deployment config config') (fine : Fine id config) :
    Fine id config' where
  provisioning := by
    intro job' member works built
    obtain ⟨i, located⟩ := List.getElem?_of_mem member
    obtain ⟨job, there, handles, same⟩ := idle.handles located works
    rw [same] at built
    rw [idle.db]
    exact fine.provisioning job (List.mem_of_getElem? there) handles built
  running := by
    rw [idle.db]
    exact fine.running
  exist := by
    intro resource keeps
    rw [idle.docker]
    exact fine.exist resource (idle.keeps keeps)
  spared := by
    intro job' member containers networks stage resource listed keeps
    rcases idle.stage member with ⟨job, present, -, -, same⟩ | ⟨role, rfl⟩
    · rw [same] at stage
      exact fine.spared job present containers networks stage resource listed (idle.keeps keeps)
    · rw [Job.phase_start] at stage
      obtain ⟨rows, scanning⟩ := stage_start role (by rw [stage]; rfl)
      rw [stage] at scanning
      cases scanning
  committed := by
    intro job' member own change recorded status
    rw [idle.db]
    rcases idle.stage member with ⟨job, present, role, trace, -⟩ | ⟨role, rfl⟩
    · rw [role] at own
      rw [trace] at recorded
      exact fine.committed job present own change recorded status
    · cases recorded
  ordered := by
    rw [idle.sent]
    exact fine.ordered
  unselected := by
    intro job' member env present
    rcases idle.stage member with ⟨job, there, -, -, same⟩ | ⟨role, rfl⟩
    · rw [same] at present
      exact fine.unselected job there env present
    · rw [Job.phase_start] at present
      have working : underway (Phase.start role).stage = true := by
        generalize (Phase.start role).stage = stage at present
        cases stage <;> first | rfl | cases present
      obtain ⟨rows, scanning⟩ := stage_start role working
      rw [scanning] at present
      cases present

/-- The surroundings answer no call. -/
theorem of_surrounds {action : Ambient} {spawned : Option Role}
    (surrounds : Surrounds config.state action next spawned) :
    Idle deployment config ⟨next, config.threads ++
      (spawned.map (Thread.start (machine deployment))).toList⟩ := by
  obtain ⟨db, docker, sent, -, clock⟩ := surrounds.unchanged
  refine ⟨db, docker, sent, clock, fun i job' located => ?_, fun job member =>
    ⟨job, List.mem_append_left _ member, rfl, rfl⟩⟩
  rw [List.getElem?_append] at located
  split at located
  · exact .inl ⟨job', located, rfl, rfl, fun alive => alive⟩
  · have member := List.mem_of_getElem? located
    cases spawned with
    | none => cases member
    | some role => exact .inr ⟨role, List.mem_singleton.mp member⟩

/-- A kill answers no call. -/
theorem of_kill {index : Nat} {job : Job} (found : config.threads[index]? = some job) :
    Idle deployment config (config.put config.state index job.killed) := by
  have bound := (List.getElem?_eq_some_iff.mp found).1
  refine ⟨rfl, rfl, rfl, Int.le_refl _, fun i job' located => ?_, fun other member => ?_⟩
  · by_cases here : i = index
    · subst here
      rw [Config.put, List.getElem?_set_self bound] at located
      cases located
      refine .inl ⟨job, found, rfl, rfl, fun alive => ?_⟩
      cases alive
    · rw [Config.put, List.getElem?_set_ne (Ne.symm here)] at located
      exact .inl ⟨job', located, rfl, rfl, fun alive => alive⟩
  · obtain ⟨i, located⟩ := List.getElem?_of_mem member
    by_cases here : i = index
    · subst here
      rw [found] at located
      cases located
      exact ⟨job.killed, List.mem_of_getElem? (List.getElem?_set_self bound), rfl, rfl⟩
    · refine ⟨other, List.mem_of_getElem? (i := i) ?_, rfl, rfl⟩
      rw [Config.put, List.getElem?_set_ne (Ne.symm here)]
      exact located

end Idle

/-! ## Runs -/

/-- In every run under the condition attempts do not overlap, and as long as the resources
may not go, nothing that the environment keeps is at risk. -/
theorem of_runs (run : System.Runs deployment refuses (Careful id) config) :
    Base id config ∧ (Doomed id config ∨ Fine id config) := by
  refine run.invariant (fun config => Base id config ∧ (Doomed id config ∨ Fine id config))
    ?_ ?_ ?_ ?_
  · refine ⟨⟨?_, ?_, ?_, ?_⟩, .inr ⟨?_, ?_, ?_, ?_, ?_, ?_, ?_⟩⟩
    · intro i j first second located
      cases located
    · intro job member
      cases member
    · intro row found
      cases found
    · intro job member
      cases member
    · intro job member
      cases member
    · intro row found
      cases found
    · rintro resource (⟨row, found, -⟩ | ⟨job, member, -⟩)
      · cases found
      · cases member
    · intro job member
      cases member
    · intro job member
      cases member
    · intro message member
      cases member
    · intro job member
      cases member
  · rintro config action next spawned - ⟨base, holds⟩ - surrounds
    have idle : Idle deployment config _ := .of_surrounds surrounds
    exact ⟨idle.base base, holds.imp idle.doomed idle.fine⟩
  · rintro config index job - ⟨base, holds⟩ - found -
    have idle : Idle deployment config _ := .of_kill found
    exact ⟨idle.base base, holds.imp idle.doomed idle.fine⟩
  · rintro config index job request resume choice reply next ran ⟨base, holds⟩ careful found
      alive rest permits effect
    obtain ⟨begins, spares⟩ := careful _ (Config.turn_advance found rest)
    have turn : Turn deployment refuses id config index job request reply next :=
      ⟨ran, found, alive, permits, effect, begins, spares⟩
    refine ⟨turn.base base (resume reply), ?_⟩
    by_cases doomed : Doomed id (config.put next index (job.answered request reply (resume reply)))
    · exact .inl doomed
    · rcases holds with before | fine
      · exact (doomed (turn.doomed base (resume reply) before)).elim
      · exact .inr (turn.fine base fine (resume reply) doomed)

/-- A removed resource does not exist any more. -/
theorem gone_of_removed {allowed : System → Occurrence → Prop}
    (run : System.Runs deployment refuses allowed config)
    {job : Job} (member : job ∈ config.threads) (removed : resource.removal ∈ job.trace) :
    ¬config.state.docker.has resource = true := by
  have all : ∀ job ∈ config.threads, resource.removal ∈ job.trace →
      ¬config.state.docker.has resource = true ∧ resource.Issued config.state.docker := by
    refine run.invariant (fun config => ∀ job ∈ config.threads, resource.removal ∈ job.trace →
      ¬config.state.docker.has resource = true ∧ resource.Issued config.state.docker) ?_ ?_ ?_ ?_
    · intro job member
      cases member
    · intro config action next spawned _ gone _ surrounds job member removed
      show ¬next.docker.has resource = true ∧ resource.Issued next.docker
      rw [surrounds.unchanged.2.1]
      rcases List.mem_append.mp member with old | new
      · exact gone job old removed
      · cases spawned with
        | none => cases new
        | some role =>
            cases List.mem_singleton.mp new
            cases removed
    · intro config index job _ gone _ found alive
      exact forall_mem_set gone (gone job (List.mem_of_getElem? found))
    · intro config index job request resume choice reply next _ gone _ found _ _ _ effect
      have stays : ∀ other ∈ config.threads, resource.removal ∈ (other : Job).trace →
          ¬next.docker.has resource = true ∧ resource.Issued next.docker := by
        intro other member removed
        obtain ⟨absent, issued⟩ := gone other member removed
        exact Teardown.gone_of_gone absent issued effect
      refine forall_mem_set stays fun removed => ?_
      rcases List.mem_append.mp removed with old | new
      · exact stays job (List.mem_of_getElem? found) old
      · exact gone_of_removal (List.mem_singleton.mp new) effect
  exact (all job member removed).1

/-- As long as attempts on an environment do not overlap, none starts on a stack, and the
staleness sweep spares the living: nothing that a committed RUNNING records has been removed
by anyone, before or after the commit, until the expiry of the row has passed or a DELETE
has been accepted. -/
theorem kept_until_expiry (run : System.Runs deployment refuses (Careful id) config)
    {job : Job} {change : Change} {row : Environment}
    (member : job ∈ config.threads)
    (own : job.role.Is .provision id)
    (recorded : (⟨.commitChanges [change], .ok ()⟩ : Entry Reply) ∈ job.trace)
    (status : change.now.status = .running)
    (found : config.state.db.find id = some row)
    (current : ∀ instant ∈ row.expiresAt, config.state.clock < instant)
    (kept : ¬Deleted id config) :
    ∀ resource ∈ change.now.recorded, config.state.docker.has resource = true ∧
      ∀ other ∈ config.threads, resource.removal ∉ (other : Job).trace := by
  intro resource present
  obtain ⟨-, doomed | fine⟩ := of_runs run
  · rcases doomed with deleted | ⟨row', found', instant, expires, past⟩
    · exact (kept deleted).elim
    · rw [found] at found'
      cases found'
      exact (Int.not_le.mpr (current instant expires) past).elim
  · obtain ⟨row', found', -, same⟩ := fine.committed job member own change recorded status
    have has := fine.exist resource (.inl ⟨row', found', same.symm ▸ present⟩)
    exact ⟨has, fun other there removed => gone_of_removed run there removed has⟩

/-- The change of an answered commit of RUNNING. -/
def committedRunning : Entry Reply → Option Change
  | ⟨.commitChanges [change], .ok _⟩ =>
      if change.now.status = .running then some change else none
  | _ => none

/-- What a thread has committed as RUNNING. -/
def stack (job : Job) : Option Change :=
  job.trace.findSome? committedRunning

/-- A stack was committed. -/
theorem committed_of_stack {job : Job} {change : Change} (stacked : stack job = some change) :
    (⟨.commitChanges [change], .ok ()⟩ : Entry Reply) ∈ job.trace ∧
      change.now.status = .running := by
  obtain ⟨⟨request, reply⟩, member, found⟩ := List.exists_of_findSome?_eq_some stacked
  cases request with
  | commitChanges changes =>
      rcases changes with _ | ⟨first, _ | ⟨second, changes⟩⟩
      · rcases reply with exc | done <;> cases found
      · rcases reply with exc | done
        · cases found
        · unfold committedRunning at found
          dsimp only at found
          split at found
          · rename_i status
            cases found
            exact ⟨member, status⟩
          · cases found
      · rcases reply with exc | done <;> cases found
  | _ => cases found

/-- Thread 1 has provisioned the sample environment with this change, whose row has not
expired and that nobody deletes. -/
structure Provisioned (config : System) (job : Job) (change : Change) (row : Environment) :
    Prop where
  member : job ∈ config.threads
  own : job.role.Is .provision (Sample.envId 1)
  recorded : (⟨.commitChanges [change], .ok ()⟩ : Entry Reply) ∈ job.trace
  status : change.now.status = .running
  found : config.state.db.find (Sample.envId 1) = some row
  current : ∀ instant ∈ row.expiresAt, config.state.clock < instant
  kept : ¬Deleted (Sample.envId 1) config

/-- The resource that an answered request has removed. -/
def removed : Entry Reply → Option Resource
  | ⟨.containerRemove id, .ok _⟩ => some (.container id)
  | ⟨.networkRemove id, .ok _⟩ => some (.network id)
  | _ => none

/-- A removed resource was removed by a removal. -/
theorem removal_of_removed {entry : Entry Reply} (gone : removed entry = some resource) :
    entry = resource.removal := by
  obtain ⟨request, reply⟩ := entry
  cases request with
  | containerRemove wanted => rcases reply with exc | done <;> cases gone; rfl
  | networkRemove wanted => rcases reply with exc | done <;> cases gone; rfl
  | _ => cases gone

/-- What a run shows of the sample environment: whether its expiry lies ahead and nobody
deletes it, the stack that thread 1 has committed, whether the row is RUNNING with it, and
which resources have been removed. -/
def observe (config : System) : Option (Bool × List Resource × Bool × List Resource) := do
  let job ← config.threads[1]?
  let change ← stack job
  let row ← config.state.db.find (Sample.envId 1)
  pure (decide (job.role.Is .provision (Sample.envId 1) ∧
      (∀ instant ∈ row.expiresAt, config.state.clock < instant) ∧
      ∀ job ∈ config.threads, ¬job.role.deletes (Sample.envId 1) = true),
    change.now.recorded,
    decide (row.status = .running ∧ row.recorded = change.now.recorded),
    config.threads.flatMap fun job => job.trace.filterMap removed)

/-- What is shown of a provisioned environment is so. -/
theorem provisioned_of_observe {stacked gone : List Resource} {running : Bool}
    (shown : observe config = some (true, stacked, running, gone)) :
    ∃ job change row, Provisioned config job change row ∧ change.now.recorded = stacked ∧
      decide (row.status = .running ∧ row.recorded = change.now.recorded) = running ∧
      config.threads.flatMap (fun job => job.trace.filterMap removed) = gone := by
  obtain ⟨job, located, shown⟩ := Option.bind_eq_some_iff.mp shown
  obtain ⟨change, stacking, shown⟩ := Option.bind_eq_some_iff.mp shown
  obtain ⟨row, found, shown⟩ := Option.bind_eq_some_iff.mp shown
  obtain ⟨held, shown⟩ := Prod.mk.inj (Option.some.inj shown)
  obtain ⟨recorded, shown⟩ := Prod.mk.inj shown
  obtain ⟨runs, removes⟩ := Prod.mk.inj shown
  obtain ⟨own, current, kept⟩ := of_decide_eq_true held
  obtain ⟨committed, status⟩ := committed_of_stack stacking
  refine ⟨job, change, row, ⟨List.mem_of_getElem? located, own, committed, status, found,
    current, ?_⟩, recorded, runs, removes⟩
  rintro ⟨other, member, deletes, -⟩
  exact kept other member deletes

/-- The sweeps run while the attempt builds and once more after its commit. -/
def quickStart : List Occurrence :=
  Sample.firstAttempt ++ .ambient (.beat .recoverStale) :: Sample.succeed 2 4 ++
    Sample.succeed 1 1 ++ .ambient (.beat .reconcileOrphans) :: Sample.succeed 3 3

/-- A stack that is built in time survives the sweeps. -/
theorem kept_until_expiry_of_quickStart :
    ∃ config job change row,
      System.Runs Compose.shipped true (Careful (Sample.envId 1)) config ∧
      Provisioned config job change row ∧ change.now.recorded.length = 3 ∧
      ∀ resource ∈ change.now.recorded, config.state.docker.has resource = true ∧
        ∀ other ∈ config.threads, resource.removal ∉ (other : Job).trace := by
  have shown : ((System.initial true).run (machine Compose.shipped)
      (Careful (Sample.envId 1)) quickStart).map observe =
      some (some (true, [.container 1, .container 2, .network 0], true, [])) := by
    decide +kernel
  obtain ⟨config, run, seen⟩ := Run.exists_run shown
  obtain ⟨job, change, row, provisioned, recorded, -⟩ := provisioned_of_observe seen
  refine ⟨config, job, change, row, run, provisioned, by rw [recorded]; rfl, ?_⟩
  exact kept_until_expiry run provisioned.member provisioned.own provisioned.recorded
    provisioned.status provisioned.found provisioned.current provisioned.kept

/-- The container of the second role takes fifteen minutes to start: the staleness sweep
fails the row, and the orphan sweep removes the container of the first role. -/
def slowStart : List Occurrence :=
  Sample.create 0 1 ++ Sample.deliver ++ Sample.succeed 1 8 ++ .advance 1 Sample.healthy ::
    .ambient (.tick 901000000) :: .ambient (.beat .recoverStale) :: Sample.succeed 2 6 ++
    .ambient (.beat .reconcileOrphans) :: Sample.succeed 3 7 ++ Sample.succeed 1 3 ++
    [.advance 1 Sample.healthy, .advance 1 Sample.healthy] ++ Sample.succeed 1 3

/-- A container of a RUNNING environment that has not expired and that nobody deletes has
been removed. -/
theorem removed_while_building :
    ∃ config job change row,
      Reachable (machine Compose.shipped) (System.initial true) config ∧
      Provisioned config job change row ∧ row.status = .running ∧
      row.recorded = change.now.recorded ∧
      ∃ resource ∈ change.now.recorded, ∃ other ∈ config.threads,
        resource.removal ∈ (other : Job).trace := by
  have shown : ((System.initial true).run (machine Compose.shipped)
      (fun _ _ => True) slowStart).map observe =
      some (some (true, [.container 1, .container 2, .network 0], true, [.container 1])) := by
    decide +kernel
  obtain ⟨config, run, seen⟩ := Run.exists_run shown
  obtain ⟨job, change, row, provisioned, recorded, runs, gone⟩ := provisioned_of_observe seen
  obtain ⟨status, same⟩ := of_decide_eq_true runs
  have member : Resource.container 1 ∈
      config.threads.flatMap (fun job => job.trace.filterMap removed) := by
    rw [gone]
    exact List.mem_singleton_self _
  obtain ⟨other, there, entries⟩ := List.mem_flatMap.mp member
  obtain ⟨entry, traced, removes⟩ := List.mem_filterMap.mp entries
  refine ⟨config, job, change, row, run, provisioned, status, same, .container 1, ?_, other,
    there, ?_⟩
  · rw [recorded]
    exact List.mem_cons_self
  · rw [← removal_of_removed removes]
    exact traced

end Custody

end Provisioner
