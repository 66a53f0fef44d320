import Provisioner.Runs

/-!
# The lifecycle of a row

Five writers change the status of a row, and none of them looks at the status
that it overwrites. This module gives the transitions of the documented
lifecycle and the condition under which every committed change is one of them:
an attempt takes up a row in a status that its transitions start from, and a
status is only written over the status that the session saw.
-/

namespace Provisioner

open Resumption

/-- The transitions of the lifecycle. -/
def EnvironmentStatus.mayBecome : EnvironmentStatus → EnvironmentStatus → Bool
  | .pending, .provisioning => true
  | .provisioning, .running => true
  | .stopping, .stopped => true
  | .pending, .failed | .provisioning, .failed | .stopping, .failed => true
  | .pending, .stopping | .provisioning, .stopping | .running, .stopping
  | .failed, .stopping => true
  | _, _ => false

namespace Lifecycle

/-- A committed change of a status conforms to the lifecycle. -/
def Conforms (before after : EnvironmentStatus) : Prop :=
  after = before ∨ before.mayBecome after = true

instance (before after : EnvironmentStatus) : Decidable (Conforms before after) :=
  inferInstanceAs (Decidable (_ ∨ _))

/-- The statuses in which a query of an attempt may find its row: the first
query of a provision finds it new, the first query of a teardown not STOPPED,
and the query of `_mark_failed` neither RUNNING nor STOPPED. -/
def finds (phase : Phase) (status : EnvironmentStatus) : Bool :=
  match phase.stage with
  | .starting =>
      match phase.role with
      | .task message =>
          match message.task with
          | .provision => status = .pending || status = .provisioning
          | .teardown => status ≠ .stopped
      | _ => true
  | .absent | .broken => status ≠ .running && status ≠ .stopped
  | _ => true

/-- Attempts take up rows in a fitting status, and a commit that writes a status
finds the one that the session saw, or the one that it writes. -/
def keepsUp (world : World) (phase : Phase) : Call → Bool
  | .loadEnvironment id => (world.db.find id).all fun row => finds phase row.status
  | .commitChanges changes => changes.all fun change =>
      change.now.status = change.seen.status ||
        (world.db.find change.seen.id).all fun row =>
          row.status = change.seen.status || row.status = change.now.status
  | _ => true

/-- No attempt takes up a row too late, and no two writers overlap on a row. -/
def Unraced (config : System) (event : Occurrence) : Prop :=
  ∀ turn ∈ config.turn event, keepsUp config.state (Job.phase turn.1) turn.2 = true

instance (config : System) (event : Occurrence) : Decidable (Unraced config event) :=
  inferInstanceAs (Decidable (∀ turn ∈ config.turn event, _))

/-- The statuses of the rows that a session holds. -/
def Session (role : Role) (stage : Stage) : Prop :=
  match stage with
  | .loaded env =>
      (role.runs .provision → env.status = .pending ∨ env.status = .provisioning) ∧
        (role.runs .teardown → env.status ≠ .stopped)
  | .building env _ _ => env.status = .provisioning
  | .removing env _ => env.status = .stopping
  | .marking env => env.status ≠ .running ∧ env.status ≠ .stopped
  | .selected rows => ∀ row ∈ rows, row.status = .running
  | .scanning rows => ∀ row ∈ rows, row.status ≠ .running ∧ row.status ≠ .stopped
  | _ => True

variable {deployment : Deployment} {refuses : Bool} {phase : Phase}

/-- A stage without a writable row says nothing about statuses. -/
theorem session_of_bare {role : Role} {stage : Stage} (bare : stage.Bare) :
    Session role stage := by
  cases stage <;> trivial

/-- Every writer moves the status it saw along the lifecycle. -/
theorem conforms_of_commits {changes : List Change} {change : Change}
    (session : Session phase.role phase.stage)
    (commits : phase.Commits changes)
    (present : change ∈ changes) :
    Conforms change.seen.status change.now.status := by
  unfold Session at session
  cases commits with
  | provisioning env now attempt stage reading =>
      rw [stage] at session
      cases List.mem_singleton.mp present
      rcases session.1 attempt with pending | provisioning
      · exact .inr (by simp [pending, EnvironmentStatus.mayBecome])
      · exact .inl provisioning.symm
  | running env network containers port now changed attempt stage nonempty first second =>
      rw [stage] at session
      cases List.mem_singleton.mp present
      exact .inr (by simp [session, Worker.asRunning, EnvironmentStatus.mayBecome])
  | stopping env now attempt stage reading =>
      rw [stage] at session
      cases List.mem_singleton.mp present
      have live := session.2 attempt
      cases status : env.status with
      | stopped => exact (live status).elim
      | stopping => exact .inl rfl
      | _ => exact .inr rfl
  | stopped env cleared changed now attempt stage dealt reading =>
      rw [stage] at session
      cases List.mem_singleton.mp present
      exact .inr (by simp [session, Worker.asStopped, EnvironmentStatus.mayBecome])
  | failed task env message now attempt stage reading =>
      rw [stage] at session
      cases List.mem_singleton.mp present
      cases status : env.status with
      | running => exact (session.1 status).elim
      | stopped => exact (session.2 status).elim
      | failed => exact .inl rfl
      | _ => exact .inr rfl
  | accepted env task stage =>
      cases List.mem_singleton.mp present
      exact .inl rfl
  | reaping rows _ sweep stage written =>
      rw [stage] at session
      obtain ⟨seen, now, -, made⟩ := written change present
      rw [made, session _ seen]
      exact .inr rfl
  | recovering rows _ sweep stage written =>
      rw [stage] at session
      obtain ⟨seen, now, -, message, made⟩ := written change present
      obtain ⟨notRunning, notStopped⟩ := session _ seen
      rw [made]
      cases status : change.seen.status with
      | running => exact (notRunning status).elim
      | stopped => exact (notStopped status).elim
      | failed => exact .inl rfl
      | _ => exact .inr rfl

/-- A query of an attempt finds a row in a fitting status. -/
theorem session_onLoad {phase : Phase} {id : Uuid} {reply : Reply (.loadEnvironment id)}
    (session : Session phase.role phase.stage)
    (fits : ∀ env, reply = .ok (some env) → finds phase env.status = true) :
    Session phase.role (phase.stage.onLoad id reply) := by
  obtain ⟨role, stage, readings, failed⟩ := phase
  rcases reply with exc | row
  · cases stage <;> trivial
  cases row with
  | none => cases stage <;> trivial
  | some env =>
      have fit := fits env rfl
      cases stage with
      | starting =>
          refine ⟨fun attempt => ?_, fun attempt => ?_⟩
          · cases role with
            | task message =>
                have provision : message.task = .provision := attempt
                simpa [finds, provision] using fit
            | request request => exact attempt.elim
            | sweep sweep => exact attempt.elim
          · cases role with
            | task message =>
                have teardown : message.task = .teardown := attempt
                simpa [finds, teardown] using fit
            | request request => exact attempt.elim
            | sweep sweep => exact attempt.elim
      | absent =>
          have both : env.status ≠ .running ∧ env.status ≠ .stopped := by
            simpa [finds] using fit
          exact both
      | broken =>
          have both : env.status ≠ .running ∧ env.status ≠ .stopped := by
            simpa [finds] using fit
          exact both
      | building held network containers =>
          have provisioning : held.status = .provisioning := session
          exact ⟨by simp [provisioning], by simp [provisioning]⟩
      | removing held cleared =>
          have stopping : held.status = .stopping := session
          exact ⟨by simp [stopping], by simp [stopping]⟩
      | _ => trivial

/-- After a commit the session holds the row that it wrote. -/
theorem session_onCommit {changes : List Change} {reply : Reply (.commitChanges changes)}
    (commits : phase.Commits changes) :
    Session phase.role (phase.stage.onCommit phase.role changes reply) := by
  obtain ⟨role, stage, readings, failed⟩ := phase
  rcases reply with exc | done
  · cases stage <;> trivial
  cases commits with
  | provisioning env now attempt stage reading =>
      cases stage
      have taken : role.runs .provision := attempt
      simp only [Stage.onCommit, if_pos taken]
      exact Environment.setStatus_status
  | stopping env now attempt stage reading =>
      cases stage
      have other : ¬role.runs .provision := fun same =>
        nomatch Role.runs_inj role same attempt
      simp only [Stage.onCommit, if_neg other]
      exact Environment.setStatus_status
  | running env network containers port now changed attempt stage nonempty first second =>
      cases stage
      trivial
  | stopped env cleared changed now attempt stage dealt reading =>
      cases stage
      trivial
  | failed task env message now attempt stage reading =>
      cases stage
      trivial
  | accepted env task stage =>
      cases stage
      trivial
  | reaping rows _ sweep stage written =>
      cases stage
      trivial
  | recovering rows _ sweep stage written =>
      cases stage
      trivial

/-- One answered call keeps the session's rows in fitting statuses. -/
theorem session_advance {world next : World} {request : Call} {reply : Reply request}
    (session : Session phase.role phase.stage)
    (kept : keepsUp world phase request = true)
    (permits : phase.permits deployment request)
    (effect : world.Effect request reply next) :
    Session phase.role (phase.stage.after phase.role request reply) := by
  have advances : Stage.Advances phase.role phase.stage request reply
      (phase.stage.after phase.role request reply) := Stage.after_advances request reply
  generalize phase.stage.after phase.role request reply = reached at advances ⊢
  cases advances with
  | load id _ =>
      refine session_onLoad session fun env found => ?_
      subst found
      cases effect with
      | read _ _ reads =>
          have found : some env = world.db.find id := reads
          simpa [keepsUp, ← found] using kept
  | commit changes _ => exact session_onCommit permits
  | select now rows =>
      intro row present
      cases effect with
      | read _ _ reads =>
          have selected := reads.mem_iff.mp present
          simp only [World.selected, Environments.expired, List.mem_filter,
            decide_eq_true_eq] at selected
          exact selected.2.1
  | scan status cutoff pending earlier rows stage =>
      rw [stage] at session
      intro row present
      rcases List.mem_append.mp present with old | new
      · exact session row old
      · cases effect with
        | read _ _ reads =>
            have selected := reads.mem_iff.mp new
            simp only [World.selected, Environments.stale, List.mem_filter,
              decide_eq_true_eq] at selected
            have transient := permits.2.1
            rw [← selected.2.1] at transient
            exact ⟨fun running => by simp [running] at transient,
              fun stopped => by simp [stopped] at transient⟩
  | build _ _ env network network' containers containers' stage =>
      rw [stage] at session
      exact session
  | remove _ _ env cleared cleared' stage =>
      rw [stage] at session
      exact session
  | flush name owner template ttlSeconds count env stage => trivial
  | publish task envId retries countdown id count env stage => trivial
  | insert env => trivial
  | accept task envId retries countdown id env stage => trivial
  | keep _ _ => exact session
  | bare _ _ _ bare => exact session_of_bare bare

/-- In a run without races every session holds rows in fitting statuses. -/
theorem rules (deployment : Deployment) :
    Rules deployment Unraced (fun _ => True)
      (fun _ phase => Session phase.role phase.stage) (fun _ _ => True) where
  stable world next phase _ session := session
  ambient config action next spawned _ _ _ := by
    refine ⟨trivial, trivial, fun role _ => ?_⟩
    unfold Phase.start
    dsimp only
    split
    · intro row present
      cases present
    · trivial
  call config event job request reply next _ session unraced turn permits effect :=
    ⟨trivial, trivial, session_advance session (unraced _ turn) permits effect⟩

/-- A commit that finds the status its session saw moves it along the
lifecycle. -/
theorem conforms_of_commit {world : World} {changes : List Change} {id : Uuid}
    {row row' : Environment}
    (session : Session phase.role phase.stage)
    (kept : keepsUp world phase (.commitChanges changes) = true)
    (commits : phase.Commits changes)
    (found : world.db.find id = some row)
    (written : (world.db.writeAll changes).find id = some row') :
    Conforms row.status row'.status := by
  rcases Environments.status_writeAll found written with same | changed
  · exact .inl same
  · obtain ⟨change, present, about, differs, stored⟩ := changed
    have along := conforms_of_commits session commits present
    have fits := List.all_eq_true.mp kept change present
    simp only [about, found, Option.all_some, Bool.or_eq_true, decide_eq_true_eq] at fits
    rcases fits with unchanged | fresh | already
    · exact (differs unchanged).elim
    · rw [fresh, stored]
      exact along
    · exact .inl (stored.trans already.symm)

/-- Every step of a run without races keeps every row and changes its status, if
at all, along the lifecycle. -/
theorem status_conforms {config next : System} {event : Occurrence} {id : Uuid}
    {row : Environment}
    (run : System.Runs deployment refuses Unraced config)
    (unraced : Unraced config event)
    (stepped : Step (machine deployment) config event next)
    (found : config.state.db.find id = some row) :
    ∃ row', next.state.db.find id = some row' ∧ Conforms row.status row'.status := by
  have sessions := (run.sound trivial (rules deployment)).2
  cases stepped with
  | ambient action world acted =>
      have same := (surrounds_of_eq acted).unchanged.1
      exact ⟨row, same ▸ found, .inl rfl⟩
  | spawn action world role acted =>
      have same := (surrounds_of_eq acted).unchanged.1
      exact ⟨row, same ▸ found, .inl rfl⟩
  | kill index job present alive => exact ⟨row, found, .inl rfl⟩
  | call index job request resume choice reply world present alive rest executed =>
      have member := List.mem_of_getElem? present
      have permits := run.permits member rest
      have session := sessions job member
      have kept := unraced _ (Config.turn_advance present rest)
      have effect := World.exec_effect executed
      obtain ⟨row', found'⟩ := Option.isSome_iff_exists.mp
        (effect.find_isSome (Option.isSome_iff_exists.mpr ⟨row, found⟩))
      refine ⟨row', found', ?_⟩
      rcases effect.db with same | ⟨env, absent, rfl, same⟩ | ⟨changes, rfl, same⟩
      · rw [same, found] at found'
        cases found'
        exact .inl rfl
      · rw [same, Keyed.Table.find_insert] at found'
        split at found'
        · rename_i about
          rw [about, found] at absent
          cases absent
        · rw [found] at found'
          cases found'
          exact .inl rfl
      · rw [same] at found'
        exact conforms_of_commit session kept permits found found'

/-- The status of the sample row. -/
def observe (config : System) : Option EnvironmentStatus :=
  (config.state.db.find (Sample.envId 1)).map Environment.status

/-- The daemon refuses the network of the first attempt; ten seconds later the
retry has loaded the FAILED row and is about to commit. -/
def retry : List Occurrence :=
  Sample.create 0 1 ++ Sample.deliver ++ Sample.succeed 1 4 ++
    .advance 1 Sample.refused :: Sample.succeed 1 5 ++
    .ambient (.tick 10000000) :: Sample.deliver ++ Sample.succeed 2 3

/-- The rule on a first attempt, at its last commit. -/
theorem status_conforms_of_firstAttempt :
    ∃ config event next row row', System.Runs Compose.shipped true Unraced config ∧
      Step (machine Compose.shipped) config event next ∧
      config.state.db.find (Sample.envId 1) = some row ∧
      next.state.db.find (Sample.envId 1) = some row' ∧
      row.status = .provisioning ∧ row'.status = .running ∧
      Conforms row.status row'.status := by
  have first : ((System.initial true).run (machine Compose.shipped) Unraced
      Sample.firstAttempt).map observe = some (some .provisioning) := by decide +kernel
  have second : ((System.initial true).run (machine Compose.shipped) Unraced
      (Sample.firstAttempt ++ [.advance 1 .ok])).map observe = some (some .running) := by
    decide +kernel
  obtain ⟨config, next, run, unraced, stepped, before, after⟩ := Run.exists_step first second
  obtain ⟨row, found, provisioning⟩ := Option.map_eq_some_iff.mp before
  obtain ⟨row', found', running⟩ := Option.map_eq_some_iff.mp after
  obtain ⟨same, kept, conforms⟩ := status_conforms run unraced stepped found
  rw [found'] at kept
  cases kept
  exact ⟨config, _, next, row, row', run, stepped, found, found', provisioning,
    running, conforms⟩

/-- A failed attempt is retried, and the retry moves the row from FAILED to
PROVISIONING. -/
theorem retry_leaves_failed :
    ∃ config event next row row', Reachable (machine Compose.shipped)
        (System.initial true) config ∧
      Step (machine Compose.shipped) config event next ∧
      config.state.db.find (Sample.envId 1) = some row ∧
      next.state.db.find (Sample.envId 1) = some row' ∧
      row.status = .failed ∧ row'.status = .provisioning ∧
      ¬Conforms row.status row'.status := by
  have first : ((System.initial true).run (machine Compose.shipped) (fun _ _ => True)
      retry).map observe = some (some .failed) := by decide +kernel
  have second : ((System.initial true).run (machine Compose.shipped) (fun _ _ => True)
      (retry ++ [.advance 2 .ok])).map observe = some (some .provisioning) := by
    decide +kernel
  obtain ⟨config, next, run, -, stepped, before, after⟩ := Run.exists_step first second
  obtain ⟨row, found, failed⟩ := Option.map_eq_some_iff.mp before
  obtain ⟨row', found', provisioning⟩ := Option.map_eq_some_iff.mp after
  refine ⟨config, _, next, row, row', run, stepped, found, found', failed,
    provisioning, ?_⟩
  rw [failed, provisioning]
  decide

end Lifecycle

end Provisioner
