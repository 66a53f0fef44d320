import Provisioner.Housekeeping

/-!
# A RUNNING row is complete

Seven columns of a row have to agree although every session writes only those
that it changed. Columns that hold something keep holding something, the two
dates of a row are a lifetime apart in every copy, and RUNNING is written together
with everything that a RUNNING row needs. So the reaper finds every RUNNING row
once its time is up.
-/

namespace Provisioner

open Resumption

namespace Environment

section Columns

variable {α : Type} [DecidableEq α] {seen now stored empty : α}

/-- A column that holds something holds something after every write. -/
theorem column_ne (kept : seen ≠ empty → now ≠ empty) (filled : stored ≠ empty) :
    column seen now stored ≠ empty := by
  rcases column_eq_or seen now stored with same | ⟨changed, same⟩
  · rw [same]
    exact filled
  · rw [same]
    by_cases before : seen = empty
    · exact before ▸ changed
    · exact kept before

/-- A column that the session left filled is filled afterwards. -/
theorem column_ne_of_now (current : seen ≠ empty → stored ≠ empty) (filled : now ≠ empty) :
    column seen now stored ≠ empty := by
  unfold column
  split
  · rename_i same
    exact current (same ▸ filled)
  · exact filled

end Columns

/-- Columns that hold something keep holding something. -/
structure Fills (row row' : Environment) : Prop where
  ttlSeconds : row'.ttlSeconds = row.ttlSeconds
  hostPort : row.hostPort ≠ none → row'.hostPort ≠ none
  networkId : row.networkId ≠ none → row'.networkId ≠ none
  containerIds : row.containerIds ≠ [] → row'.containerIds ≠ []
  startedAt : row.startedAt ≠ none → row'.startedAt ≠ none

/-- Every write leaves filled columns filled. -/
theorem Fills.lasting : Lasting Fills where
  refl row := ⟨rfl, fun filled => filled, fun filled => filled, fun filled => filled,
    fun filled => filled⟩
  trans row row' row'' first second :=
    ⟨second.ttlSeconds.trans first.ttlSeconds, second.hostPort ∘ first.hostPort,
      second.networkId ∘ first.networkId, second.containerIds ∘ first.containerIds,
      second.startedAt ∘ first.startedAt⟩
  flush row seen now kept :=
    ⟨by simp [flush, kept.ttlSeconds], column_ne kept.hostPort, column_ne kept.networkId,
      column_ne kept.containerIds, column_ne kept.startedAt⟩
  flushed row seen now kept current :=
    ⟨by simp [flush, kept.ttlSeconds, current.ttlSeconds], column_ne_of_now current.hostPort,
      column_ne_of_now current.networkId, column_ne_of_now current.containerIds,
      column_ne_of_now current.startedAt⟩

/-- The row expires one lifetime after its start. -/
def Dated (env : Environment) : Prop :=
  env.expiresAt = env.startedAt.map fun started => started + seconds env.ttlSeconds

/-- Everything that a RUNNING row needs is there. -/
structure Complete (env : Environment) : Prop where
  hostPort : env.hostPort ≠ none
  networkId : env.networkId ≠ none
  containerIds : env.containerIds ≠ []
  startedAt : env.startedAt ≠ none

variable {row row' seen now : Environment}

theorem Complete.fills (complete : row.Complete) (fills : row.Fills row') : row'.Complete :=
  ⟨fills.hostPort complete.hostPort, fills.networkId complete.networkId,
    fills.containerIds complete.containerIds, fills.startedAt complete.startedAt⟩

/-- Copies of one row that are all dated leave it dated: the two dates change
together or not at all. -/
theorem Dated.flush (stored : row.Dated) (before : seen.Dated) (after : now.Dated)
    (kept : seen.Fills now) (current : seen.Fills row) : (row.flush seen now).Dated := by
  have lifetime : (row.flush seen now).ttlSeconds = row.ttlSeconds := by
    simp [Environment.flush, kept.ttlSeconds]
  have ends : now.expiresAt = seen.expiresAt ↔ now.startedAt = seen.startedAt := by
    rw [after, before, kept.ttlSeconds]
    exact (Option.map_injective fun _ _ equal => add_right_cancel equal).eq_iff
  unfold Dated
  rw [lifetime]
  simp only [Environment.flush, column]
  by_cases same : now.startedAt = seen.startedAt
  · rw [if_pos same, if_pos (ends.mpr same)]
    exact stored
  · rw [if_neg same, if_neg (mt ends.mp same), after, kept.ttlSeconds, current.ttlSeconds]

/-- What is true of every committed row. -/
structure Sound (row : Environment) : Prop where
  dated : row.Dated
  lifetime : 300 ≤ row.ttlSeconds ∧ row.ttlSeconds ≤ 86400
  complete : row.status = .running → row.Complete

end Environment

namespace Completeness

variable {deployment : Deployment} {refuses : Bool}
  {allowed : System → Occurrence → Prop} {config : System}
  {world next : World} {phase : Phase} {changes : List Change} {change : Change}

open Environments (Along Stems)

/-- A change of a session keeps dates together and filled columns filled, and RUNNING
is written to complete rows only. -/
structure Mends (change : Change) : Prop where
  own : change.now.id = change.seen.id
  fills : change.seen.Fills change.now
  dated : change.seen.Dated → change.now.Dated
  complete : change.now.status = .running → change.now.status ≠ change.seen.status →
    change.now.Complete

/-- Every commit consists of such changes. -/
theorem mends_of_commits (commits : phase.Commits changes) (present : change ∈ changes) :
    Mends change := by
  have idle : ∀ seen now : Environment, now.id = seen.id → now.ttlSeconds = seen.ttlSeconds →
      now.hostPort = seen.hostPort → now.networkId = seen.networkId →
      now.containerIds = seen.containerIds → now.startedAt = seen.startedAt →
      now.expiresAt = seen.expiresAt → (now.status = .running → now.status = seen.status) →
      Mends ⟨seen, now⟩ := by
    intro seen now own lifetime port network containers started expires status
    refine ⟨own, ⟨lifetime, ?_, ?_, ?_, ?_⟩, fun dated => ?_, fun running differs => ?_⟩
    · exact fun filled => port ▸ filled
    · exact fun filled => network ▸ filled
    · exact fun filled => containers ▸ filled
    · exact fun filled => started ▸ filled
    · unfold Environment.Dated at dated ⊢
      rw [expires, started, lifetime]
      exact dated
    · exact (differs (status running)).elim
  cases commits with
  | running env network containers port now changed attempt stage nonempty first second =>
      cases List.mem_singleton.mp present
      refine ⟨rfl, ⟨rfl, fun _ => nofun, fun _ => nofun, fun _ => nonempty, fun _ => nofun⟩,
        fun _ => rfl, fun _ _ => ⟨nofun, nofun, nonempty, nofun⟩⟩
  | reaping rows _ sweep stage written =>
      obtain ⟨-, now, -, made⟩ := written change present
      obtain ⟨seen, after⟩ := change
      dsimp only at made
      subst made
      exact idle seen _ rfl rfl rfl rfl rfl rfl rfl nofun
  | recovering rows _ sweep stage written =>
      obtain ⟨-, now, -, message, made⟩ := written change present
      obtain ⟨seen, after⟩ := change
      dsimp only at made
      subst made
      exact idle seen _ rfl rfl rfl rfl rfl rfl rfl nofun
  | accepted env task stage =>
      cases List.mem_singleton.mp present
      exact idle env _ rfl rfl rfl rfl rfl rfl rfl fun _ => rfl
  | _ =>
      cases List.mem_singleton.mp present
      exact idle _ _ rfl rfl rfl rfl rfl rfl rfl nofun

/-- A session's copy is dated and has nothing that the committed row lacks. -/
def Current (db : Environments) (env : Environment) : Prop :=
  env.Dated ∧ Stems Environment.Fills db env

/-- Writing changes back leaves every row sound. -/
theorem sound_writeAll {db : Environments}
    (sound : ∀ row ∈ db.rows, row.Sound)
    (mends : ∀ change ∈ changes, Mends change)
    (current : ∀ change ∈ changes, Current db change.seen) :
    ∀ row ∈ (db.writeAll changes).rows, row.Sound := by
  induction changes generalizing db with
  | nil => exact sound
  | cons change changes inductionHypothesis =>
      rw [List.forall_mem_cons] at mends current
      obtain ⟨dated, stored, found, fills⟩ := current.1
      refine inductionHypothesis ?_ mends.2 fun other member =>
        ⟨(current.2 other member).1, (current.2 other member).2.mono Environment.Fills.lasting
          (Environments.along_write Environment.Fills.lasting mends.1.fills)⟩
      intro row' present
      have found' := Keyed.Table.find_of_mem present
      rw [Environments.find_write] at found'
      split at found'
      · rename_i own
        rw [own, found] at found'
        cases found'
        have old := sound stored (Keyed.Table.mem_of_find found)
        refine ⟨old.dated.flush dated (mends.1.dated dated) mends.1.fills fills, ?_,
          fun running => ?_⟩
        · have kept := (Environment.Fills.lasting.flush stored _ _ mends.1.fills).ttlSeconds
          rw [kept]
          exact old.lifetime
        · rcases Environment.column_eq_or change.seen.status change.now.status stored.status
            with same | ⟨differs, same⟩
          · have before : stored.status = .running := same.symm.trans running
            exact (old.complete before).fills
              (Environment.Fills.lasting.flush stored _ _ mends.1.fills)
          · have after : change.now.status = .running := same.symm.trans running
            exact (mends.1.complete after differs).fills
              (Environment.Fills.lasting.flushed stored _ _ mends.1.fills fills)
      · exact sound row' (Keyed.Table.mem_of_find found')

theorem Current.mono {db db' : Environments} {env : Environment}
    (current : Current db env) (along : Along Environment.Fills db db') : Current db' env :=
  ⟨current.1, current.2.mono Environment.Fills.lasting along⟩

/-- A committed row is a current copy of itself. -/
theorem current_of_mem {db : Environments} {row : Environment}
    (sound : ∀ row ∈ db.rows, row.Sound) (present : row ∈ db.rows) : Current db row :=
  ⟨(sound row present).dated,
    Environments.stems_of_find Environment.Fills.lasting (Keyed.Table.find_of_mem present)⟩

/-- A row that a query finds under pending changes is as current as the stored one. -/
theorem current_of_view {db : Environments} {pending : List Change} {env : Environment}
    (sound : ∀ row ∈ db.rows, row.Sound)
    (pends : phase.Pends pending)
    (present : env ∈ (db.writeAll pending).rows) : Current db env := by
  obtain ⟨row, stored, viewed⟩ := Phase.exists_of_view present
  have lifetime : env.ttlSeconds = row.ttlSeconds :=
    pends.column Environment.ttlSeconds (fun _ _ _ => rfl) (fun _ _ _ => rfl) stored viewed
  have port : env.hostPort = row.hostPort :=
    pends.column Environment.hostPort (fun _ _ _ => rfl) (fun _ _ _ => rfl) stored viewed
  have network : env.networkId = row.networkId :=
    pends.column Environment.networkId (fun _ _ _ => rfl) (fun _ _ _ => rfl) stored viewed
  have containers : env.containerIds = row.containerIds :=
    pends.column Environment.containerIds (fun _ _ _ => rfl) (fun _ _ _ => rfl) stored viewed
  have started : env.startedAt = row.startedAt :=
    pends.column Environment.startedAt (fun _ _ _ => rfl) (fun _ _ _ => rfl) stored viewed
  have expires : env.expiresAt = row.expiresAt :=
    pends.column Environment.expiresAt (fun _ _ _ => rfl) (fun _ _ _ => rfl) stored viewed
  refine ⟨?_, row, stored, lifetime.symm, ?_, ?_, ?_, ?_⟩
  · have dated := (sound row (Keyed.Table.mem_of_find stored)).dated
    unfold Environment.Dated at dated ⊢
    rw [expires, started, lifetime]
    exact dated
  · exact fun filled => port ▸ filled
  · exact fun filled => network ▸ filled
  · exact fun filled => containers ▸ filled
  · exact fun filled => started ▸ filled

/-- What a session holds. -/
structure Session (world : World) (phase : Phase) : Prop where
  held : ∀ env ∈ phase.stage.held, Current world.db env
  fresh : ∀ count env, phase.stage.fresh = some (count, env) → env.Sound

/-- The world's rows are sound, and a call leaves filled columns filled. -/
theorem sound_of_effect {request : Call} {reply : Reply request}
    (sound : ∀ row ∈ world.db.rows, row.Sound)
    (session : Session world phase)
    (permits : phase.permits deployment request)
    (effect : world.Effect request reply next) :
    (∀ row ∈ next.db.rows, row.Sound) ∧ Along Environment.Fills world.db next.db := by
  rcases effect.db with same | ⟨env, absent, rfl, same⟩ | ⟨changes, rfl, same⟩
  · rw [same]
    exact ⟨sound, .refl Environment.Fills.lasting _⟩
  · obtain ⟨owner, payload, count, role, stage⟩ := permits
    rw [same]
    refine ⟨fun row present => ?_, Environments.along_insert Environment.Fills.lasting⟩
    rcases List.mem_append.mp present with old | new
    · exact sound row old
    · rw [List.mem_singleton.mp new]
      exact session.fresh count env (by rw [stage]; rfl)
  · have commits : phase.Commits changes := permits
    rw [same]
    exact ⟨sound_writeAll sound (fun _ => mends_of_commits commits)
        fun change member => session.held _ (commits.seen_mem member),
      Environments.along_writeAll Environment.Fills.lasting
        fun change member => (mends_of_commits commits member).fills⟩

/-- A call brings only current copies into its session. -/
theorem session_of_effect {request : Call} {reply : Reply request}
    (sound : ∀ row ∈ world.db.rows, row.Sound)
    (session : Session world phase)
    (permits : phase.permits deployment request)
    (effect : world.Effect request reply next) :
    Session next (phase.advance request reply) := by
  have after := sound_of_effect sound session permits effect
  refine ⟨fun env present => ?_, fun count env present => ?_⟩
  · rcases Stage.mem_held_after present with old | taken
    · exact (session.held env old).mono after.2
    · cases taken with
      | load id _ =>
          cases effect with
          | read _ _ reads =>
              have found : some env = world.db.find id := reads
              exact current_of_mem sound (Keyed.Table.mem_of_find found.symm)
      | commit changes change member =>
          have commits : phase.Commits changes := permits
          have mends := mends_of_commits commits member
          have current := session.held _ (commits.seen_mem member)
          cases effect with
          | read _ _ reads => cases reads
          | committed _ =>
              exact ⟨mends.dated current.1,
                Environments.stems_writeAll Environment.Fills.lasting
                  (fun change present => (mends_of_commits commits present).fills) member
                  mends.own current.2⟩
      | insert _ =>
          cases effect with
          | read _ _ reads => cases reads
          | inserted _ absent =>
              exact current_of_mem after.1 (List.mem_append_right _ (List.mem_singleton_self env))
      | expired now rows _ member =>
          cases effect with
          | read _ _ reads =>
              have selected := reads.mem_iff.mp member
              exact current_of_mem sound (List.mem_of_mem_filter selected)
      | stale status cutoff pending rows _ member =>
          cases effect with
          | read _ _ reads =>
              have selected := reads.mem_iff.mp member
              exact current_of_view sound permits.2.2 (List.mem_of_mem_filter selected)
  · rcases Stage.fresh_after present with ⟨old, fresh, task, rfl⟩ | ⟨checked, flushes⟩
    · obtain ⟨dated, lifetime, complete⟩ := session.fresh count old fresh
      exact ⟨dated, lifetime, fun running =>
        ⟨(complete running).hostPort, (complete running).networkId,
          (complete running).containerIds, (complete running).startedAt⟩⟩
    · cases flushes with
      | flush name owner template ttlSeconds _ =>
          obtain ⟨payload, counted, role, stage, room, -, -, same⟩ := permits
          cases effect with
          | read _ _ reads => cases reads
          | flushed fresh _ _ _ _ unused fits =>
              refine ⟨rfl, ?_, nofun⟩
              rw [same]
              exact payload.ttlRange

/-- The rules of completeness, for all runs. -/
theorem rules (deployment : Deployment) (allowed : System → Occurrence → Prop) :
    Rules deployment allowed (fun world => ∀ row ∈ world.db.rows, row.Sound) Session
      (fun world next => Along Environment.Fills world.db next.db) where
  stable world next phase along session :=
    ⟨fun env present => (session.held env present).mono along, session.fresh⟩
  ambient config action next spawned sound _ surrounds := by
    obtain ⟨db, -⟩ := surrounds.unchanged
    rw [db]
    refine ⟨sound, .refl Environment.Fills.lasting _, fun role _ => ⟨?_, ?_⟩⟩
    · intro env present
      rcases Phase.start_stage role with same | same <;> rw [same] at present <;> cases present
    · intro count env present
      rcases Phase.start_stage role with same | same <;> rw [same] at present <;> cases present
  call config event job request reply next sound session _ turn permits effect := by
    obtain ⟨kept, along⟩ := sound_of_effect sound session permits effect
    exact ⟨kept, along, session_of_effect sound session permits effect⟩

/-- Every row of every reachable state is sound. -/
theorem sound_of_runs (run : System.Runs deployment refuses allowed config) :
    ∀ row ∈ config.state.db.rows, row.Sound :=
  (run.sound (fun _ present => nomatch present) (rules deployment allowed)).1

/-- In every reachable state a RUNNING row is complete, and once the reaper has run
on it no RUNNING row has reached its expiry. -/
theorem running_complete (run : System.Runs deployment refuses allowed config) :
    (∀ row ∈ config.state.db.rows, row.status = .running →
      row.hostPort ≠ none ∧ row.networkId ≠ none ∧ row.containerIds ≠ [] ∧
        (∃ started, row.startedAt = some started ∧
          row.expiresAt = some (started + seconds row.ttlSeconds)) ∧
        300 ≤ row.ttlSeconds ∧ row.ttlSeconds ≤ 86400) ∧
    ∀ last result, Housekeeping.Finishes deployment .reapExpired config.state last result →
      ∀ row ∈ last.db.rows, row.status = .running →
        ∃ expiresAt, row.expiresAt = some expiresAt ∧ config.state.clock < expiresAt := by
  have complete : ∀ row ∈ config.state.db.rows, row.status = .running →
      ∃ started, row.startedAt = some started ∧
        row.expiresAt = some (started + seconds row.ttlSeconds) := by
    intro row present running
    have sound := sound_of_runs run row present
    obtain ⟨started, starts⟩ := Option.ne_none_iff_exists'.mp (sound.complete running).startedAt
    refine ⟨started, starts, ?_⟩
    rw [sound.dated, starts]
    rfl
  refine ⟨fun row present running => ?_, fun last result finishes row present running => ?_⟩
  · have sound := sound_of_runs run row present
    obtain ⟨port, network, containers, -⟩ := sound.complete running
    exact ⟨port, network, containers, complete row present running, sound.lifetime⟩
  · rw [(Housekeeping.reaps_of_finishes finishes).rows, List.mem_map] at present
    obtain ⟨before, member, rfl⟩ := present
    unfold Housekeeping.reaped at running ⊢
    split at running
    · cases running
    · rename_i unexpired
      rw [if_neg unexpired]
      obtain ⟨started, -, expires⟩ := complete before member running
      refine ⟨_, expires, Int.not_le.mp fun past => unexpired ⟨running, _, expires, past⟩⟩

/-- The sample run is RUNNING and complete. -/
theorem running_complete_of_firstAttempt :
    ∃ config row, System.Runs Compose.shipped true (fun _ _ => True) config ∧
      row ∈ config.state.db.rows ∧ row.status = .running ∧
      row.hostPort ≠ none ∧ row.networkId ≠ none ∧ row.containerIds ≠ [] := by
  have shown : ((System.initial true).run (machine Compose.shipped) (fun _ _ => True)
      (Sample.firstAttempt ++ Sample.succeed 1 1)).map
        (fun config => (config.state.db.find (Sample.envId 1)).map Environment.status) =
      some (some .running) := by
    decide +kernel
  obtain ⟨config, run, seen⟩ := Run.exists_run shown
  obtain ⟨row, found, running⟩ := Option.map_eq_some_iff.mp seen
  have present := Keyed.Table.mem_of_find found
  obtain ⟨port, network, containers, -⟩ := (running_complete run).1 row present running
  exact ⟨config, row, run, present, running, port, network, containers⟩

end Completeness

end Provisioner
