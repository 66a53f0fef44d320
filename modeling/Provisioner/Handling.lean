import Provisioner.Completeness
import Provisioner.Messages
import Provisioner.Ownership

/-!
# One attempt at a time

The messages of an environment may be delivered again while an attempt is still at work,
and the staleness sweep fails rows whose attempt it takes for dead. This module states
the condition that neither happens, and shows what it gives whatever else happens to the
environment: a provision attempt at work is the only one, its row has no stack yet, and
its commit of RUNNING stores everything that it has built.
-/

namespace Provisioner

open Resumption

namespace Custody

/-- An attempt on this stage has asked for its row and may still write it. -/
def underway : Stage → Bool
  | .starting | .settled | .running _ | .stopped _ => false
  | _ => true

/-- A provision attempt is at work on the environment. -/
def Handles (id : Uuid) (job : Job) : Prop :=
  job.live = true ∧ job.role.Is .provision id ∧ underway job.phase.stage = true

instance (id : Uuid) (job : Job) : Decidable (Handles id job) :=
  inferInstanceAs (Decidable (_ ∧ _ ∧ _))

/-- An attempt on this stage takes the row to be PROVISIONING. -/
def builds : Stage → Bool
  | .building _ _ _ => true
  | .loaded env => env.status = .provisioning
  | _ => false

/-- The attempt has not asked for its row yet. -/
def fresh : Stage → Bool
  | .starting => true
  | _ => false

/-- A provision attempt asks for its row while no other attempt is at work on it, and
finds a row without a stack. -/
def begins (id : Uuid) (config : System) (job : Job) : Call → Bool
  | .loadEnvironment wanted => decide (job.role.Is .provision id →
      fresh job.phase.stage = true →
      (∀ row ∈ config.state.db.find wanted, row.networkId = none) ∧
        ∀ other ∈ config.threads, ¬Handles id other)
  | _ => true

/-- The role is the staleness sweep. -/
def recovers : Role → Bool
  | .sweep .recoverStale => true
  | _ => false

/-- The staleness sweep does not fail the row of the environment while it is RUNNING or an
attempt takes it to be PROVISIONING. -/
def spares (id : Uuid) (config : System) (job : Job) : Call → Bool
  | .commitChanges changes => decide (recovers job.role = true →
      ∀ change ∈ changes, change.seen.id = id →
        (∀ row ∈ config.state.db.find id, row.status ≠ .running) ∧
        ∀ other ∈ config.threads, ¬(Handles id other ∧ builds (Job.phase other).stage = true))
  | _ => true

/-- Attempts do not overlap, none starts on a stack, and the staleness sweep spares the
living. -/
def Careful (id : Uuid) (config : System) (event : Occurrence) : Prop :=
  ∀ turn ∈ config.turn event,
    begins id config turn.1 turn.2 = true ∧ spares id config turn.1 turn.2 = true

instance (id : Uuid) (config : System) (event : Occurrence) :
    Decidable (Careful id config event) :=
  inferInstanceAs (Decidable (∀ turn ∈ config.turn event, _))

variable {deployment : Deployment} {refuses : Bool} {config : System}
  {world next : World} {phase : Phase} {id : Uuid}

/-! ## Stages -/

/-- An attempt gets to work by asking for its row. -/
theorem underway_of_works {role : Role} {stage stage' : Stage} {request : Call}
    {reply : Reply request}
    (works : stage.Works role request reply stage')
    (working : underway stage' = true) :
    underway stage = true ∨ (fresh stage = true ∧ ∃ wanted, request = .loadEnvironment wanted) := by
  cases works with
  | load wanted reply =>
      cases stage with
      | starting => exact .inr ⟨rfl, wanted, rfl⟩
      | settled => cases working
      | running env => cases working
      | stopped env => cases working
      | _ => exact .inl rfl
  | commit changes reply =>
      cases stage with
      | starting => cases working
      | settled => cases working
      | running env => cases working
      | stopped env => cases working
      | _ => exact .inl rfl
  | network name label wanted env containers stage =>
      rw [stage]
      exact .inl rfl
  | container request wanted env network containers stage =>
      rw [stage]
      exact .inl rfl
  | clear _ _ wanted about => cases stage <;> first | exact .inl rfl | cases working
  | keep _ _ => exact .inl working

/-- The query finds this row. -/
inductive Finds : (request : Call) → Reply request → Environment → Prop
  | row (wanted : Uuid) (env : Environment) :
      Finds (.loadEnvironment wanted) (.ok (some env)) env

/-- The commit writes this row over the copy that the stage holds. -/
inductive Overwrites (stage : Stage) : (request : Call) → Reply request → Environment → Prop
  | change (held : Environment) (changes : List Change) (change : Change) :
      stage = .loaded held → change ∈ changes →
      Overwrites stage (.commitChanges changes) (.ok ()) change.now

/-- An attempt builds for the row that it has just written, or it was building already. -/
theorem building_of_works {role : Role} {stage stage' : Stage} {request : Call}
    {reply : Reply request} {env : Environment} {network : Option DockerId}
    {containers : List DockerId}
    (works : stage.Works role request reply stage')
    (reached : stage' = .building env network containers) :
    (∃ network containers, stage = .building env network containers) ∨
      Overwrites stage request reply env := by
  cases works with
  | load wanted reply =>
      cases stage <;> rcases reply with exc | (row | row) <;> cases reached
  | commit changes reply =>
      have commits : stage.Commits role changes reply (stage.onCommit role changes reply) :=
        Stage.onCommit_commits changes reply
      rw [reached] at commits
      cases commits with
      | building held change rest loaded same attempt =>
          subst same
          exact .inr (.change held _ change loaded List.mem_cons_self)
  | network name label id held containers building =>
      cases reached
      exact .inl ⟨_, _, building⟩
  | container request id held network containers building =>
      cases reached
      exact .inl ⟨_, _, building⟩
  | clear _ _ wanted about =>
      cases stage <;> cases reached
      exact .inl ⟨_, _, rfl⟩
  | keep _ _ => exact .inl ⟨_, _, reached⟩

/-- A loaded row was loaded before, or the query has just found it. -/
theorem loaded_of_works {role : Role} {stage stage' : Stage} {request : Call}
    {reply : Reply request} {env : Environment}
    (works : stage.Works role request reply stage')
    (reached : stage' = .loaded env) :
    stage = .loaded env ∨ Finds request reply env := by
  cases works with
  | load wanted reply =>
      cases stage with
      | starting =>
          rcases reply with exc | (row | row)
          · cases reached
          · cases reached
          · cases reached
            exact .inr (.row wanted env)
      | _ => rcases reply with exc | (row | row) <;> cases reached
  | commit changes reply =>
      have commits : stage.Commits role changes reply (stage.onCommit role changes reply) :=
        Stage.onCommit_commits changes reply
      rw [reached] at commits
      cases commits
  | network name label id held containers building => cases reached
  | container request id held network containers building => cases reached
  | clear _ _ wanted about =>
      cases stage <;> cases reached
      exact .inl rfl
  | keep _ _ => exact .inl reached

/-- An attempt takes its row to be PROVISIONING if it did so before, if it has just found
it so, or if it has just written it. -/
theorem builds_of_works {role : Role} {stage stage' : Stage} {request : Call}
    {reply : Reply request}
    (works : stage.Works role request reply stage')
    (reached : builds stage' = true) :
    builds stage = true ∨ (∃ env, Finds request reply env ∧ env.status = .provisioning) ∨
      ∃ env, Overwrites stage request reply env := by
  cases same : stage' with
  | building env network containers =>
      rcases building_of_works works same with ⟨network, containers, before⟩ | overwrites
      · rw [before]
        exact .inl rfl
      · exact .inr (.inr ⟨env, overwrites⟩)
  | loaded env =>
      rw [same] at reached
      rcases loaded_of_works works same with before | finds
      · rw [before]
        exact .inl reached
      · exact .inr (.inl ⟨env, finds, of_decide_eq_true reached⟩)
  | _ =>
      rw [same] at reached
      cases reached

/-! ## What a call does to the row -/

/-- The resources and the dates of a row are the same. -/
structure Same (row row' : Environment) : Prop where
  containerIds : row'.containerIds = row.containerIds
  networkId : row'.networkId = row.networkId
  startedAt : row'.startedAt = row.startedAt
  expiresAt : row'.expiresAt = row.expiresAt

theorem Same.recorded {row row' : Environment} (same : Same row row') :
    row'.recorded = row.recorded := by
  unfold Environment.recorded
  rw [same.containerIds, same.networkId]

/-- What a call can do to the row of the environment. -/
inductive Moves (id : Uuid) (phase : Phase) (row : Environment) :
    (request : Call) → Reply request → Environment → Prop
  | kept (request : Call) (reply : Reply request) (row' : Environment) :
      Same row row' → row'.status = row.status → Moves id phase row request reply row'
  | changed (changes : List Change) (change : Change) (row' : Environment) :
      Same row row' → change ∈ changes → change.seen.id = id →
      Ownership.Leaves change.seen change.now → change.now.status ≠ change.seen.status →
      row'.status = change.now.status →
      Moves id phase row (.commitChanges changes) (.ok ()) row'
  | running (env : Environment) (network : DockerId) (containers : List DockerId)
      (port : Nat) (now changed : Time) :
      phase.role.runs .provision → phase.stage = .building env (some network) containers →
      env.id = id →
      Moves id phase row
        (.commitChanges [⟨env, Worker.asRunning env ⟨network, containers, port⟩ now changed⟩])
        (.ok ()) (row.flush env (Worker.asRunning env ⟨network, containers, port⟩ now changed))

/-- An attempt that builds commits RUNNING with what it has built. -/
theorem commits_of_building {changes : List Change} {env : Environment}
    {network : Option DockerId} {containers : List DockerId}
    (stage : phase.stage = .building env network containers)
    (commits : phase.Commits changes) :
    ∃ made port now changed, network = some made ∧
      changes = [⟨env, Worker.asRunning env ⟨made, containers, port⟩ now changed⟩] := by
  cases commits with
  | running held made built port now changed attempt building =>
      rw [stage] at building
      cases building
      exact ⟨made, port, now, changed, rfl, rfl⟩
  | provisioning held now runs other => rw [stage] at other; cases other
  | stopping held now runs other => rw [stage] at other; cases other
  | stopped held cleared changed now runs other => rw [stage] at other; cases other
  | failed task held message now runs other => rw [stage] at other; cases other
  | accepted held task other => rw [stage] at other; cases other
  | reaping rows _ sweep other => rw [stage] at other; cases other
  | recovering rows _ sweep other => rw [stage] at other; cases other

/-- A provision attempt that has loaded its row commits PROVISIONING. -/
theorem commits_of_loaded {changes : List Change} {env : Environment}
    (attempt : phase.role.runs .provision)
    (stage : phase.stage = .loaded env)
    (commits : phase.Commits changes) :
    ∃ now, changes = [⟨env, env.setStatus .provisioning now⟩] := by
  cases commits with
  | provisioning held now runs loaded =>
      rw [stage] at loaded
      cases loaded
      exact ⟨now, rfl⟩
  | running held made built port now changed runs other => rw [stage] at other; cases other
  | stopping held now runs => cases phase.role.runs_inj attempt runs
  | stopped held cleared changed now runs => cases phase.role.runs_inj attempt runs
  | failed task held message now runs other => rw [stage] at other; cases other
  | accepted held task other => rw [stage] at other; cases other
  | reaping rows _ sweep other => rw [stage] at other; cases other
  | recovering rows _ sweep other => rw [stage] at other; cases other

/-- Every commit does one of these to the row. -/
theorem moves_of_commit {changes : List Change} {row : Environment}
    (commits : phase.Commits changes)
    (found : world.db.find id = some row) :
    ∃ row', (world.db.writeAll changes).find id = some row' ∧
      Moves id phase row (.commitChanges changes) (.ok ()) row' := by
  by_cases quiet : ∀ change ∈ changes, change.seen.id = id →
      Ownership.Leaves change.seen change.now
  · obtain ⟨row', written⟩ : ∃ row', (world.db.writeAll changes).find id = some row' := by
      rw [← Option.isSome_iff_exists, Environments.find_writeAll, found]
      rfl
    have stays : ∀ {α : Type} [DecidableEq α] (project : Environment → α),
        (∀ stored seen now : Environment, project (stored.flush seen now) =
          Environment.column (project seen) (project now) (project stored)) →
        (∀ seen now, Ownership.Leaves seen now → project now = project seen) →
        project row' = project row := by
      intro α _ project projects leaves
      rcases Environments.column_writeAll project projects found written with
        kept | ⟨change, member, about, differs, -⟩
      · exact kept
      · exact (differs (leaves _ _ (quiet change member about))).elim
    have unchanged : Same row row' :=
      ⟨stays Environment.containerIds (fun _ _ _ => rfl) fun _ _ leaves => leaves.containerIds,
        stays Environment.networkId (fun _ _ _ => rfl) fun _ _ leaves => leaves.networkId,
        stays Environment.startedAt (fun _ _ _ => rfl) fun _ _ leaves => leaves.startedAt,
        stays Environment.expiresAt (fun _ _ _ => rfl) fun _ _ leaves => leaves.expiresAt⟩
    refine ⟨row', written, ?_⟩
    rcases Environments.status_writeAll found written with
      kept | ⟨change, member, about, differs, stored⟩
    · exact .kept _ _ row' unchanged kept
    · exact .changed changes change row' unchanged member about (quiet change member about)
        differs stored
  · push Not at quiet
    obtain ⟨change, member, about, loud⟩ := quiet
    obtain ⟨made, containers, port, now, changed, attempt, stage, -⟩ :=
      (Ownership.leaves_or_running commits member).resolve_left loud
    obtain ⟨network, port', now', changed', equal, rfl⟩ := commits_of_building stage commits
    cases equal
    exact ⟨_, Environments.find_writeAll_single about found,
      .running _ _ _ _ _ _ attempt stage about⟩

/-- Every call does one of these to the row. -/
theorem moves_of_effect {request : Call} {reply : Reply request} {row : Environment}
    (permits : phase.permits deployment request)
    (effect : world.Effect request reply next)
    (found : world.db.find id = some row) :
    ∃ row', next.db.find id = some row' ∧ Moves id phase row request reply row' := by
  cases effect with
  | inserted env absent =>
      refine ⟨row, ?_, .kept _ _ row ⟨rfl, rfl, rfl, rfl⟩ rfl⟩
      rw [Keyed.Table.find_insert, if_neg, found]
      rintro rfl
      rw [found] at absent
      cases absent
  | committed changes => exact moves_of_commit permits found
  | _ => exact ⟨row, found, .kept _ _ row ⟨rfl, rfl, rfl, rfl⟩ rfl⟩

/-- A row that records nothing has no network. -/
theorem network_of_bare {row : Environment} (bare : row.recorded = []) :
    row.networkId = none := by
  unfold Environment.recorded at bare
  have none := List.map_eq_nil_iff.mp (List.append_eq_nil_iff.mp bare).2
  cases network : row.networkId with
  | none => rfl
  | some made =>
      rw [network] at none
      cases none

/-! ## One call -/

/-- What holds whatever has happened to the environment: one attempt at a time is at work,
and only on a row without a stack. -/
structure Base (id : Uuid) (config : System) : Prop where
  alone : ∀ (i j : Nat) (first second : Job), config.threads[i]? = some first →
    config.threads[j]? = some second → Handles id first → Handles id second → i = j
  unbuilt : ∀ job ∈ config.threads, Handles id job →
    ∀ row, config.state.db.find id = some row → row.networkId = none
  blank : ∀ row, config.state.db.find id = some row → row.networkId = none →
    row.containerIds = [] ∧ row.expiresAt = none
  copies : ∀ job ∈ config.threads, job.role.Is .provision id →
    ∀ env network containers, (Job.phase job).stage = .building env network containers →
      env.status = .provisioning

/-- A call that is made in a run under the condition. -/
structure Turn (deployment : Deployment) (refuses : Bool) (id : Uuid) (config : System)
    (index : Nat) (job : Job) (request : Call) (reply : Reply request) (next : World) :
    Prop where
  ran : System.Runs deployment refuses (Careful id) config
  found : config.threads[index]? = some job
  alive : job.live = true
  permits : (Job.phase job).permits deployment request
  effect : config.state.Effect request reply next
  begins : begins id config job request = true
  spares : spares id config job request = true

/-- In every run the sessions hold current copies. -/
theorem current_of_runs {allowed : System → Occurrence → Prop}
    (run : System.Runs deployment refuses allowed config) :
    ∀ job ∈ config.threads, Completeness.Session config.state (Job.phase job) := by
  refine (run.sound ?_ (Completeness.rules deployment allowed)).2
  intro row present
  cases present

namespace Turn

variable {index : Nat} {job : Job} {request : Call} {reply : Reply request}
  {row row' : Environment}

theorem present (turn : Turn deployment refuses id config index job request reply next) :
    job ∈ config.threads :=
  List.mem_of_getElem? turn.found

/-- Another job at work is the same one. -/
theorem index_eq (base : Base id config)
    (turn : Turn deployment refuses id config index job request reply next)
    (handles : Handles id job) {i : Nat} {other : Job}
    (located : config.threads[i]? = some other) (works : Handles id other) : i = index :=
  base.alone i index other job located turn.found works handles

/-- An attempt that holds a copy of the row is at work on it. -/
theorem handles {env : Environment}
    (turn : Turn deployment refuses id config index job request reply next)
    (attempt : (Job.phase job).role.runs .provision)
    (held : env ∈ (Job.phase job).stage.held) (own : env.id = id)
    (working : underway (Job.phase job).stage = true) : Handles id job := by
  refine ⟨turn.alive, ?_, working⟩
  have target := ((Ownership.of_runs turn.ran).2 job turn.present).onTarget _ attempt env held
  rw [own] at target
  rw [Job.role_phase] at attempt target
  exact Role.is_iff.mpr ⟨attempt, target⟩

/-- The row after the commit of RUNNING. -/
structure Runs (stage : Stage) (row' : Environment) : Prop where
  networkId : row'.networkId ≠ none
  status : row'.status = .running
  recorded : row'.recorded = stage.built

/-- RUNNING is committed over a row without a stack, so everything is stored. -/
theorem runs (base : Base id config)
    (turn : Turn deployment refuses id config index job request reply next)
    {env : Environment} {network : DockerId} {containers : List DockerId}
    (attempt : (Job.phase job).role.runs .provision)
    (stage : (Job.phase job).stage = .building env (some network) containers)
    (own : env.id = id)
    (before : config.state.db.find id = some row)
    (port : Nat) (now changed : Time) :
    Handles id job ∧ Runs (Job.phase job).stage
      (row.flush env (Worker.asRunning env ⟨network, containers, port⟩ now changed)) := by
  have held : env ∈ (Job.phase job).stage.held := by
    rw [stage]
    exact List.mem_singleton_self env
  have handles := turn.handles attempt held own (by rw [stage]; rfl)
  have none := base.unbuilt job turn.present handles row before
  obtain ⟨empty, -⟩ := base.blank row before none
  obtain ⟨-, stored, found, fills⟩ := (current_of_runs turn.ran job turn.present).held env held
  rw [own, before] at found
  cases found
  have noNetwork : env.networkId = .none := by
    by_contra some
    exact fills.networkId some none
  have noContainers : env.containerIds = [] := by
    by_contra some
    exact fills.containerIds some empty
  have status := base.copies job turn.present handles.2.1 env _ _ stage
  have made : (row.flush env
      (Worker.asRunning env ⟨network, containers, port⟩ now changed)).networkId =
        .some network := by
    unfold Environment.flush
    dsimp only
    rw [noNetwork]
    exact Environment.column_of_ne (by rintro ⟨⟩)
  have started : (row.flush env
      (Worker.asRunning env ⟨network, containers, port⟩ now changed)).containerIds =
        containers := by
    unfold Environment.flush
    dsimp only
    rw [noContainers, empty]
    exact Environment.column_fresh
  refine ⟨handles, ?_, ?_, ?_⟩
  · rw [made]
    rintro ⟨⟩
  · refine Environment.status_flush fun same => ?_
    rw [status] at same
    cases same
  · rw [stage]
    unfold Environment.recorded
    rw [made, started]
    rfl

/-- The row after the call comes from the row before it, or it is new. -/
theorem row_before (turn : Turn deployment refuses id config index job request reply next)
    (after : next.db.find id = some row') :
    (∃ row, config.state.db.find id = some row ∧ Moves id (Job.phase job) row request reply row') ∨
      (config.state.db.find id = none ∧ row'.recorded = [] ∧ row'.expiresAt = none) := by
  cases before : config.state.db.find id with
  | some row =>
      obtain ⟨row'', found, moves⟩ := moves_of_effect turn.permits turn.effect before
      rw [after] at found
      cases found
      exact .inl ⟨row, rfl, moves⟩
  | none =>
      refine .inr ⟨rfl, ?_⟩
      have permits := turn.permits
      rcases turn.effect.db with same | ⟨env, absent, rfl, same⟩ | ⟨changes, rfl, same⟩
      · rw [same, before] at after
        cases after
      · rw [same, Keyed.Table.find_insert] at after
        split at after
        · cases after
          obtain ⟨owner, payload, count, role, stage⟩ := permits
          exact ((Ownership.of_runs turn.ran).2 job turn.present).fresh count row'
            (by rw [stage]; rfl)
        · rw [before] at after
          cases after
      · rw [same, Environments.find_writeAll, before] at after
        cases after

/-- A job gets to work on a row without a stack that nobody else works on. -/
theorem handles_answered {rest : Action Answer}
    (turn : Turn deployment refuses id config index job request reply next)
    (handles : Handles id (job.answered request reply rest)) :
    Handles id job ∨ ((∀ row, config.state.db.find id = some row → row.networkId = none) ∧
      ∀ other ∈ config.threads, ¬Handles id other) := by
  obtain ⟨-, own, working⟩ := handles
  have own : job.role.Is .provision id := own
  obtain ⟨attempt, target⟩ := Role.is_iff.mp own
  rw [← Job.role_phase job] at attempt target
  rw [Job.phase_answered] at working
  have permits := turn.permits
  rcases underway_of_works (Phase.works reply attempt permits) working with
    before | ⟨starting, wanted, rfl⟩
  · exact .inl ⟨turn.alive, own, before⟩
  · have loads : (Job.phase job).Loads wanted := permits
    have named := Attempts.target_of_loads attempt loads
    rw [target] at named
    cases named
    obtain ⟨bare, free⟩ := of_decide_eq_true turn.begins own starting
    exact .inr ⟨fun row found => bare row found, free⟩

/-- After the call there is one new job at the place of the one that made it. -/
theorem located {other job' : Job} {i : Nat}
    (turn : Turn deployment refuses id config index job request reply next)
    (found : (config.put next index job').threads[i]? = some other) :
    (i = index ∧ other = job') ∨ (i ≠ index ∧ config.threads[i]? = some other) := by
  by_cases here : i = index
  · subst here
    rw [Config.put, List.getElem?_set_self (List.getElem?_eq_some_iff.mp turn.found).1] at found
    cases found
    exact .inl ⟨rfl, rfl⟩
  · rw [Config.put, List.getElem?_set_ne (Ne.symm here)] at found
    exact .inr ⟨here, found⟩

/-- A job after the call is the one that made it or one at another place. -/
theorem mem_put {other job' : Job}
    (turn : Turn deployment refuses id config index job request reply next)
    (member : other ∈ (config.put next index job').threads) :
    other = job' ∨ ∃ i, i ≠ index ∧ config.threads[i]? = some other := by
  obtain ⟨i, found⟩ := List.getElem?_of_mem member
  rcases turn.located found with ⟨-, same⟩ | there
  · exact .inl same
  · exact .inr ⟨i, there⟩

/-- Two jobs that both work on the environment after the call did so before. -/
theorem alone (base : Base id config) (rest : Action Answer)
    (turn : Turn deployment refuses id config index job request reply next)
    {i : Nat} {other : Job} (there : config.threads[i]? = some other)
    (works : Handles id other)
    (new : Handles id (job.answered request reply rest)) : i = index := by
  rcases turn.handles_answered new with before | ⟨-, free⟩
  · exact turn.index_eq base before there works
  · exact (free other (List.mem_of_getElem? there) works).elim

/-- A call keeps what holds whatever happens. -/
theorem base (base : Base id config) (rest : Action Answer)
    (turn : Turn deployment refuses id config index job request reply next) :
    Base id (config.put next index (job.answered request reply rest)) where
  alone := by
    intro i j first second locatedFirst locatedSecond worksFirst worksSecond
    rcases turn.located locatedFirst with ⟨rfl, rfl⟩ | ⟨-, there⟩
    · rcases turn.located locatedSecond with ⟨rfl, rfl⟩ | ⟨-, there⟩
      · rfl
      · exact (turn.alone base rest there worksSecond worksFirst).symm
    · rcases turn.located locatedSecond with ⟨rfl, rfl⟩ | ⟨-, there'⟩
      · exact turn.alone base rest there worksFirst worksSecond
      · exact base.alone i j first second there there' worksFirst worksSecond
  unbuilt := by
    intro other member works row' after
    rcases turn.row_before after with ⟨row, before, moves⟩ | ⟨-, bare, -⟩
    · have bare : row.networkId = none := by
        rcases turn.mem_put member with rfl | ⟨i, -, there⟩
        · rcases turn.handles_answered works with handles | ⟨bare, -⟩
          · exact base.unbuilt job turn.present handles row before
          · exact bare row before
        · exact base.unbuilt other (List.mem_of_getElem? there) works row before
      cases moves with
      | kept _ _ _ same _ => exact same.networkId.trans bare
      | changed _ _ _ same => exact same.networkId.trans bare
      | running env network containers port now changed attempt stage own =>
          have handles := (turn.runs base attempt stage own before port now changed).1
          rcases turn.mem_put member with rfl | ⟨i, elsewhere, there⟩
          · have working := works.2.2
            rw [Job.phase_answered, Phase.advance_stage, stage] at working
            cases working
          · exact (elsewhere (turn.index_eq base handles there works)).elim
    · exact network_of_bare bare
  blank := by
    intro row' after none
    rcases turn.row_before after with ⟨row, before, moves⟩ | ⟨-, bare, dateless⟩
    · cases moves with
      | kept _ _ _ same _ =>
          obtain ⟨containers, expires⟩ := base.blank row before (same.networkId.symm.trans none)
          exact ⟨same.containerIds.trans containers, same.expiresAt.trans expires⟩
      | changed _ _ _ same =>
          obtain ⟨containers, expires⟩ := base.blank row before (same.networkId.symm.trans none)
          exact ⟨same.containerIds.trans containers, same.expiresAt.trans expires⟩
      | running env network containers port now changed attempt stage own =>
          have runs := (turn.runs base attempt stage own before port now changed).2
          exact (runs.networkId none).elim
    · unfold Environment.recorded at bare
      exact ⟨List.map_eq_nil_iff.mp (List.append_eq_nil_iff.mp bare).1, dateless⟩
  copies := by
    intro other member own env network containers stage
    rcases turn.mem_put member with rfl | ⟨i, -, there⟩
    · have own : job.role.Is .provision id := own
      obtain ⟨attempt, -⟩ := Role.is_iff.mp own
      rw [← Job.role_phase job] at attempt
      rw [Job.phase_answered] at stage
      have works := Phase.works reply attempt turn.permits
      change (Job.phase job).stage.after (Job.phase job).role request reply = _ at stage
      rcases building_of_works works stage with ⟨network, containers, before⟩ | overwrites
      · exact base.copies job turn.present own env network containers before
      · cases overwrites with
        | change held changes change loaded written =>
            obtain ⟨now, rfl⟩ := commits_of_loaded attempt loaded turn.permits
            cases List.mem_singleton.mp written
            rfl
    · exact base.copies other (List.mem_of_getElem? there) own env network containers stage

end Turn

end Custody

end Provisioner
