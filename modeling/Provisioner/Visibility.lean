import Provisioner.Authority
import Provisioner.Creation

/-!
# What is accepted stays visible

A create is answered after its commit, and rows are never deleted and keep their owner. So
whoever was answered 202 finds the environment with every later request, whatever the worker
and the sweeps have made of it by then, and nobody else finds it.
-/

namespace Provisioner

open Resumption

namespace Visibility

/-- The answer for a row that does not exist or belongs to somebody else. -/
def notFound : Exn := ⟨.http 404, "Environment not found"⟩

/-- What a request makes of the row that it was answered. -/
def owned (principal : String) : Except Exn (Option Environment) → Except Exn Environment
  | .error exc => .error exc
  | .ok none => .error notFound
  | .ok (some env) => if env.owner = principal then .ok env else .error notFound

theorem owned_own {env : Environment} {principal : String} (own : env.owner = principal) :
    owned principal (.ok (some env)) = .ok env :=
  if_pos own

theorem owned_other {env : Environment} {principal : String} (other : env.owner ≠ principal) :
    owned principal (.ok (some env)) = .error notFound :=
  if_neg other

/-- What the trace of a request says about its result. -/
def Accounts (role : Role) (trace : List (Entry Reply)) (result : Except Exn Answer) : Prop :=
  match role with
  | .request (.create principal payload) => ∀ id task message,
      result = .ok (.accepted id task message) →
      ∃ env, Authority.Creates role trace principal payload env ∧ env.id = id ∧
        (⟨.commitInsert { env with celeryTaskId := some task }, .ok ()⟩ : Entry Reply) ∈ trace
  | .request (.get id principal) => ∃ reply : Reply (.loadEnvironment id),
      (⟨.loadEnvironment id, reply⟩ : Entry Reply) ∈ trace ∧
      Evidence.Possible (.loadEnvironment id) reply ∧
      result = (owned principal reply).map .environment
  | .request (.delete id principal) => ∃ reply : Reply (.loadEnvironment id),
      (⟨.loadEnvironment id, reply⟩ : Entry Reply) ∈ trace ∧
      Evidence.Possible (.loadEnvironment id) reply ∧
      (∀ exc, owned principal reply = .error exc → result = .error exc) ∧
      (result = .error notFound → owned principal reply = .error notFound)
  | _ => True

variable {deployment : Deployment} {refuses : Bool}
  {allowed : System → Occurrence → Prop} {config before after : System}
  {world next : World} {id : Uuid} {principal : String} {payload : EnvironmentCreate}

/-! ## The programs -/

theorem loadOwned_eq (id : Uuid) (principal : String) :
    Router.loadOwned id principal =
      .call (.loadEnvironment id) fun reply => .ofExcept (owned principal reply) := by
  unfold Router.loadOwned
  refine congrArg (Program.call _) (funext fun reply => ?_)
  rcases reply with exc | (row | env)
  · rfl
  · rfl
  · by_cases own : env.owner = principal
    · rw [owned_own own]
      exact if_pos own
    · rw [owned_other own]
      exact if_neg own

/-- A request of the protocol that only records. -/
abbrev recorded : Protocol (Role × List (Entry Reply)) Call Reply :=
  evidence Evidence.Possible fun _ _ _ => True

/-- A create is accepted after the commit of what it flushed. -/
theorem create_accounts (deployment : Deployment) (principal : String)
    (payload : EnvironmentCreate) :
    recorded.Allows (fun known => Accounts (.request (.create principal payload)) known.2)
      (.request (.create principal payload), [])
      (Router.createEnvironment deployment principal payload) := by
  refine Program.meets_bind.mpr (Evidence.allows_perform trivial fun reply => ?_)
  rcases reply with exc | count
  · exact nofun
  dsimp only
  split
  · exact nofun
  refine Program.meets_bind.mpr (Evidence.allows_perform trivial fun reply => ?_)
  rcases reply with exc | rows
  · exact nofun
  refine Program.meets_bind.mpr ?_
  cases Router.scalarOneOrNone rows with
  | error exc => exact nofun
  | ok existing =>
  refine Program.meets_pure.mpr ?_
  dsimp only
  split
  · exact nofun
  refine Program.meets_bind.mpr (Evidence.allows_perform trivial fun reply => ?_)
  rcases reply with exc | env
  · exact nofun
  refine Program.meets_bind.mpr (Evidence.allows_perform trivial fun reply => ?_)
  rcases reply with exc | task
  · exact nofun
  refine Program.meets_bind.mpr (Evidence.allows_perform trivial fun reply => ?_)
  rcases reply with exc | done
  · exact nofun
  intro id task' message same
  cases same
  exact ⟨env, ⟨rfl, by simp⟩, rfl, by simp⟩

/-- A DELETE answers 404 exactly for what it did not find. -/
theorem delete_accounts (id : Uuid) (principal : String) :
    recorded.Allows (fun known => Accounts (.request (.delete id principal)) known.2)
      (.request (.delete id principal), []) (Router.deleteEnvironment id principal) := by
  unfold Router.deleteEnvironment
  rw [loadOwned_eq]
  refine evidence_call trivial fun reply able => Program.meets_bind.mpr ?_
  have asked : (⟨.loadEnvironment id, reply⟩ : Entry Reply) ∈
      ([] : List (Entry Reply)) ++ [⟨.loadEnvironment id, reply⟩] := Evidence.mem_concat _ _
  generalize ([] : List (Entry Reply)) ++ [⟨.loadEnvironment id, reply⟩] = trace at asked
  dsimp only
  cases found : owned principal reply with
  | error exc =>
      refine ⟨reply, asked, able, fun other same => ?_, fun same => ?_⟩
      · rw [found] at same
        exact congrArg _ (Except.error.inj same)
      · rw [found]
        exact congrArg _ (Except.error.inj same)
  | ok env =>
      have accounts : ∀ {later : List (Entry Reply)} {result : Except Exn Answer},
          trace ⊆ later → result ≠ .error notFound →
          Accounts (.request (.delete id principal)) later result := by
        intro later result longer other
        refine ⟨reply, longer asked, able, fun exc same => ?_, fun missing => (other missing).elim⟩
        rw [found] at same
        cases same
      have never : ∀ {request : Call} {exc : Exn},
          Evidence.Possible request (.error exc) → (.error exc : Except Exn Answer) ≠
            .error notFound := by
        intro request exc possible missing
        cases missing
        have raises := possible notFound rfl
        cases target : request.target <;> rw [target] at raises <;> cases raises
      refine Program.meets_pure.mpr ?_
      dsimp only
      split
      · exact accounts (fun _ present => present) nofun
      · refine Program.meets_bind.mpr (evidence_call trivial fun published possible => ?_)
        rcases published with exc | task
        · exact accounts (List.subset_append_left _ _) (never possible)
        refine Program.meets_bind.mpr (evidence_call trivial fun committed possible => ?_)
        have longer : ∀ first second : List (Entry Reply), trace ⊆ trace ++ first ++ second :=
          fun _ _ => List.subset_append_of_subset_left _ (List.subset_append_left _ _)
        rcases committed with exc | done
        · exact accounts (longer _ _) (never possible)
        · exact accounts (longer _ _) nofun

/-- Every request accounts for its result. -/
theorem program_accounts (deployment : Deployment) (role : Role) :
    recorded.Allows (fun known => Accounts role known.2) (role, []) (program deployment role) := by
  have others : (∀ trace result, Accounts role trace result) →
      recorded.Allows (fun known => Accounts role known.2) (role, [])
        (program deployment role) := fun accounts =>
    (Program.meets_of_permits (fun _ _ => trivial) _ _).mono fun _ _ _ => accounts _ _
  cases role with
  | task message => exact others fun _ _ => trivial
  | sweep sweep => exact others fun _ _ => trivial
  | request request =>
      cases request with
      | create principal payload => exact create_accounts deployment principal payload
      | delete id principal => exact delete_accounts id principal
      | list principal status limit offset => exact others fun _ _ => trivial
      | get id principal =>
          change recorded.Allows _ _ (Router.getEnvironment id principal)
          unfold Router.getEnvironment
          rw [loadOwned_eq]
          refine evidence_call trivial fun reply able => ?_
          refine Program.meets_bind.mpr ?_
          dsimp only
          cases found : owned principal reply with
          | error exc => exact ⟨reply, Evidence.mem_concat _ _, able, by rw [found]; rfl⟩
          | ok env => exact ⟨reply, Evidence.mem_concat _ _, able, by rw [found]; rfl⟩

/-- A finished request accounts for its result. -/
theorem accounts_of_runs {job : Job} {result : Except Exn Answer}
    (run : System.Runs deployment refuses allowed config)
    (member : job ∈ config.threads)
    (ended : job.rest = .ofExcept result) : Accounts job.role job.trace result := by
  have meets : config.Meets recorded (fun role => (role, []))
      fun role known => Accounts role known.2 :=
    Run.meets run rfl (Evidence.describes deployment _) (program_accounts deployment)
  have met := meets job member
  rw [ended, phase_evidence] at met
  rcases result with exc | answer <;> exact met

/-! ## Runs -/

/-- Whoever asks for a row that is there already finds it. -/
theorem found_of_later
    (later : Run (machine deployment) allowed before after)
    (stored : (before.state.db.find id).isSome) :
    ∀ (index : Nat) (job : Job), before.threads.length ≤ index →
      after.threads[index]? = some job →
      (⟨.loadEnvironment id, .ok none⟩ : Entry Reply) ∉ job.trace := by
  suffices both : (after.state.db.find id).isSome ∧ ∀ (index : Nat) (job : Job),
      before.threads.length ≤ index → after.threads[index]? = some job →
      (⟨.loadEnvironment id, .ok none⟩ : Entry Reply) ∉ job.trace from both.2
  refine later.invariant (fun config => (config.state.db.find id).isSome ∧
    ∀ (index : Nat) (job : Job), before.threads.length ≤ index →
      config.threads[index]? = some job →
      (⟨.loadEnvironment id, .ok none⟩ : Entry Reply) ∉ job.trace) ⟨stored, ?_⟩ ?_
  · intro index job new located
    rw [List.getElem?_eq_none new] at located
    cases located
  · rintro config event after ⟨stored, found⟩ - stepped
    cases stepped with
    | ambient action state acted =>
        rw [(surrounds_of_eq acted).unchanged.1]
        exact ⟨stored, found⟩
    | spawn action state role acted =>
        have same : state.db = config.state.db := (surrounds_of_eq acted).unchanged.1
        refine ⟨same ▸ stored, fun index job new located => ?_⟩
        rw [Config.spawn, List.getElem?_append] at located
        split at located
        · exact found index job new located
        · cases List.mem_singleton.mp (List.mem_of_getElem? located)
          exact List.not_mem_nil
    | kill index job located alive =>
        refine ⟨stored, fun position other new there => ?_⟩
        rw [Config.put, List.getElem?_set] at there
        split at there
        · split at there
          · rename_i same _
            cases there
            exact found index job (same ▸ new) located
          · cases there
        · exact found position other new there
    | call index job request resume choice reply state located alive rest executed =>
        have effect := World.exec_effect executed
        refine ⟨effect.find_isSome stored, fun position other new there => ?_⟩
        rw [Config.put, List.getElem?_set] at there
        split at there
        · split at there
          · rename_i same _
            cases there
            intro recorded
            rcases List.mem_append.mp recorded with old | now
            · exact found index job (same ▸ new) located old
            · cases List.mem_singleton.mp now
              cases effect with
              | read _ _ reads =>
                  have absent : none = config.state.db.find id := reads
                  rw [← absent] at stored
                  cases stored
          · cases there
        · exact found position other new there

/-- The row that an accepted create committed, as everybody sees it later. -/
theorem held_of_accepted {job : Job} {task : TaskId} {message : String}
    (run : System.Runs deployment refuses allowed before)
    (member : job ∈ before.threads)
    (role : job.role = .request (.create principal payload))
    (answered : job.rest = .ofExcept (.ok (.accepted id task message)))
    (later : Reachable (machine deployment) before after) :
    ∃ env, env.id = id ∧ env.owner = principal ∧ env.name = payload.name ∧
      env.template = payload.template ∧ env.ttlSeconds = payload.ttlSeconds ∧
      after.state.db.Held env := by
  have accounts := accounts_of_runs run member answered
  rw [role] at accounts
  obtain ⟨env, creates, rfl, committed⟩ := accounts id task message rfl
  obtain ⟨index, located⟩ := List.getElem?_of_mem member
  obtain ⟨job', located', -, longer⟩ := Authority.extends_of_run later index job located
  have told := Evidence.told_of_runs (run.reachable.trans later) job'
    (List.mem_of_getElem? located')
  obtain ⟨instant, -, made⟩ := told _ (longer creates.flushed)
  have held : after.state.db.Held { env with celeryTaskId := some task } :=
    told _ (longer committed)
  exact ⟨{ env with celeryTaskId := some task }, rfl, by rw [made]; rfl, by rw [made]; rfl,
    by rw [made]; rfl, by rw [made]; rfl, held⟩

/-- How a request that comes after the answer sees the environment. -/
structure Sees (id : Uuid) (principal : String) (payload : EnvironmentCreate) (reader : Job) :
    Prop where
  /-- Its owner finds it with what the create asked for. -/
  get : ∀ result, reader.role = .request (.get id principal) →
    reader.rest = .ofExcept result →
    (∃ env, result = .ok (.environment env) ∧ env.id = id ∧ env.owner = principal ∧
      env.name = payload.name ∧ env.template = payload.template ∧
      env.ttlSeconds = payload.ttlSeconds) ∨
    ∃ exc, result = .error exc ∧ exc.cls = .databaseError
  /-- Its owner can delete it. -/
  delete : ∀ result, reader.role = .request (.delete id principal) →
    reader.rest = .ofExcept result → result ≠ .error notFound
  /-- Nobody else finds it. -/
  other : ∀ result other, other ≠ principal →
    reader.role = .request (.get id other) ∨ reader.role = .request (.delete id other) →
    reader.rest = .ofExcept result →
    result = .error notFound ∨ ∃ exc, result = .error exc ∧ exc.cls = .databaseError

/-- From the answer 202 on, every later request of the owner finds the environment, and no
request of anybody else does. -/
theorem seen_of_accepted {job reader : Job} {task : TaskId} {message : String} {index : Nat}
    (run : System.Runs deployment refuses allowed before)
    (member : job ∈ before.threads)
    (role : job.role = .request (.create principal payload))
    (answered : job.rest = .ofExcept (.ok (.accepted id task message)))
    (later : Reachable (machine deployment) before after)
    (new : before.threads.length ≤ index)
    (located : after.threads[index]? = some reader) : Sees id principal payload reader := by
  have whole := run.reachable.trans later
  have present := List.mem_of_getElem? located
  obtain ⟨inserted, rfl, owner, name, template, ttlSeconds, row, found, kept⟩ :=
    held_of_accepted run member role answered later
  have stored : (before.state.db.find inserted.id).isSome := by
    obtain ⟨env, own, -, -, -, -, row, found, -⟩ :=
      held_of_accepted run member role answered .refl
    rw [← own, found]
    rfl
  -- What the reader was answered for the id.
  have answers : ∀ reply : Reply (.loadEnvironment inserted.id),
      (⟨.loadEnvironment inserted.id, reply⟩ : Entry Reply) ∈ reader.trace →
      Evidence.Possible (.loadEnvironment inserted.id) reply →
      (∃ exc, reply = .error exc ∧ exc.cls = .databaseError) ∨
      ∃ env, reply = .ok (some env) ∧ env.id = inserted.id ∧ env.owner = principal ∧
        env.name = payload.name ∧ env.template = payload.template ∧
        env.ttlSeconds = payload.ttlSeconds := by
    intro reply asked able
    rcases reply with exc | (row | env)
    · exact .inl ⟨exc, rfl, of_decide_eq_true (able exc rfl)⟩
    · exact (found_of_later later stored index reader new located asked).elim
    · obtain ⟨own, row', found', kept'⟩ := Evidence.told_of_runs whole reader present _ asked
      rw [own, found] at found'
      cases found'
      exact .inr ⟨env, rfl, own, kept'.owner.symm.trans (kept.owner.trans owner),
        kept'.name.symm.trans (kept.name.trans name),
        kept'.template.symm.trans (kept.template.trans template),
        kept'.ttlSeconds.symm.trans (kept.ttlSeconds.trans ttlSeconds)⟩
  have accounts : ∀ result, reader.rest = .ofExcept result →
      Accounts reader.role reader.trace result :=
    fun result ended => accounts_of_runs whole present ended
  refine ⟨fun result own ended => ?_, fun result own ended missing => ?_,
    fun result other stranger theirs ended => ?_⟩
  · have account := accounts result ended
    rw [own] at account
    obtain ⟨reply, asked, able, rfl⟩ := account
    rcases answers reply asked able with ⟨exc, rfl, failed⟩ | ⟨env, rfl, same, mine, rest⟩
    · exact .inr ⟨exc, rfl, failed⟩
    · exact .inl ⟨env, by rw [owned_own mine]; rfl, same, mine, rest⟩
  · have account := accounts result ended
    rw [own] at account
    obtain ⟨reply, asked, able, -, only⟩ := account
    have absent := only missing
    rcases answers reply asked able with ⟨exc, rfl, failed⟩ | ⟨env, rfl, -, mine, -⟩
    · cases absent
      cases failed
    · rw [owned_own mine] at absent
      cases absent
  · obtain ⟨reply, asked, able, only⟩ : ∃ reply : Reply (.loadEnvironment inserted.id),
        (⟨.loadEnvironment inserted.id, reply⟩ : Entry Reply) ∈ reader.trace ∧
        Evidence.Possible (.loadEnvironment inserted.id) reply ∧
        ∀ exc, owned other reply = .error exc → result = .error exc := by
      have account := accounts result ended
      rcases theirs with own | own <;> rw [own] at account
      · obtain ⟨reply, asked, able, rfl⟩ := account
        exact ⟨reply, asked, able, fun exc same => by rw [same]; rfl⟩
      · obtain ⟨reply, asked, able, only, -⟩ := account
        exact ⟨reply, asked, able, only⟩
    rcases answers reply asked able with ⟨exc, rfl, failed⟩ | ⟨env, rfl, -, mine, -⟩
    · exact .inr ⟨exc, only exc rfl, failed⟩
    · exact .inl (only notFound (owned_other fun same => stranger (same.symm.trans mine)))

/-- A GET by the owner of the sample row. -/
def read (thread : Nat) : List Occurrence :=
  .ambient (.request (.get (Sample.envId 1) "alice")) :: Sample.succeed thread 1

theorem seen_of_read :
    ∃ (before after : System) (reader : Job) (principal : String) (payload : EnvironmentCreate),
      Reachable (machine Compose.shipped) (System.initial true) before ∧
      Reachable (machine Compose.shipped) before after ∧ after.threads[1]? = some reader ∧
      Sees (Sample.envId 1) principal payload reader := by
  have shown : ((System.initial true).run (machine Compose.shipped) (fun _ _ => True)
      (Sample.create 0 1)).bind (fun before =>
        (before.run (machine Compose.shipped) (fun _ _ => True) (read 1)).map fun after =>
          (before.threads.any (fun job => Creation.accepts job = some (Sample.envId 1)),
            before.threads.length, after.threads[1]?.isSome)) = some (true, 1, true) := by
    decide +kernel
  obtain ⟨before, executed, shown⟩ := Option.bind_eq_some_iff.mp shown
  obtain ⟨after, later, seen⟩ := Run.exists_run shown
  obtain ⟨accepted, one, there⟩ : _ ∧ _ ∧ _ := by simpa only [Prod.mk.injEq] using seen
  obtain ⟨job, member, accepts⟩ := List.any_eq_true.mp accepted
  obtain ⟨principal, payload, task, text, role, rest⟩ :=
    Creation.answered_of_accepts (of_decide_eq_true accepts)
  obtain ⟨reader, located⟩ := Option.isSome_iff_exists.mp there
  have run : Reachable (machine Compose.shipped) (System.initial true) before :=
    Run.of_run executed
  exact ⟨before, after, reader, principal, payload, run, later, located,
    seen_of_accepted run member role rest later (le_of_eq one) located⟩

end Visibility

end Provisioner
