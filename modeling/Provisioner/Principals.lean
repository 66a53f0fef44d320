import Provisioner.Housekeeping

/-!
# What one principal learns of another

API requests, served one after the other, with updates of single rows in between. What a
request returns, writes and publishes is written down as an outcome that is computed from
the table; the endpoints have exactly these outcomes. An outcome depends on the rows of
its principal only, so the others can be left out of a run.
-/

namespace Provisioner

open Resumption

namespace Principals

/-- What a request takes from outside: the primary key and the task id that it would use,
and the time. -/
structure Supply where
  id : Uuid
  task : TaskId
  now : Time

/-- Nothing fails, and a new row gets the supplied primary key. -/
def Supplied (supply : Supply) (_ : World) (_ : Call) (choice : Choice) : Prop :=
  choice.succeeds = true ∧ ∀ id, choice = .fresh id → id = supply.id

/-- The world of a request that is served by itself. -/
def desk (db : Environments) (supply : Supply) : World where
  db := db
  docker := .empty true
  queue := []
  sent := []
  clock := supply.now
  issued := []
  nextTask := supply.task
  metrics := []

/-- What a request leads to: the response, the table afterwards, and the published
messages. -/
structure Outcome where
  response : Except Exn Answer
  after : Environments
  sent : List Message

/-- A request served by itself has this outcome. -/
def Handles (deployment : Deployment) (db : Environments) (request : Request)
    (supply : Supply) (outcome : Outcome) : Prop :=
  ∃ trace last, Executes (lone deployment (Supplied supply)) (desk db supply)
      (program deployment (.request request)) trace last outcome.response ∧
    last.db = outcome.after ∧ last.sent = outcome.sent

/-! ## Outcomes -/

/-- The request only returns something. -/
def responds (db : Environments) (response : Except Exn Answer) : Outcome :=
  ⟨response, db, []⟩

/-- The row that a creation inserts. -/
def newRow (supply : Supply) (principal : String) (payload : EnvironmentCreate) : Environment :=
  { Environment.inserted supply.id payload.name principal payload.template
      payload.ttlSeconds supply.now with
    celeryTaskId := some supply.task }

/-- The outcome of a creation whose primary key is new. -/
def createOutcome (deployment : Deployment) (db : Environments) (supply : Supply)
    (absent : db.find supply.id = none) (principal : String) (payload : EnvironmentCreate) :
    Outcome :=
  if '\x00' ∈ principal.toList then
    responds db (.error ⟨.databaseError, Environment.nullByte⟩)
  else if deployment.settings.maxEnvironmentsPerUser ≤ db.activeCount principal then
    responds db (.error ⟨.http 429, "Max " ++
      toString deployment.settings.maxEnvironmentsPerUser ++
      " active environments per user. Stop some before creating new ones."⟩)
  else
    match Router.scalarOneOrNone (db.activeNamed principal payload.name) with
    | .error exc => responds db (.error exc)
    | .ok (some _) => responds db (.error ⟨.http 409, "An active environment named '" ++
        payload.name ++ "' already exists for this owner."⟩)
    | .ok none =>
        if (newRow supply principal payload).fitsColumns then
          ⟨.ok (.accepted supply.id supply.task
              "Provisioning started. Poll /environments/{id} for status."),
            db.insert (newRow supply principal payload) absent,
            [⟨.provision, supply.id.str, 0, supply.now + seconds 0⟩]⟩
        else
          responds db (.error ⟨.databaseError, (newRow supply principal payload).misfit⟩)

/-- The row that a principal can see under an id. -/
def visible (db : Environments) (envId : Uuid) (principal : String) : Option Environment :=
  (db.find envId).filter fun env => env.owner = principal

/-- The response for an id that the principal sees no row under. -/
def notFound : Except Exn Answer :=
  .error ⟨.http 404, "Environment not found"⟩

/-- The outcome of reading a row. -/
def getOutcome (db : Environments) (envId : Uuid) (principal : String) : Outcome :=
  match visible db envId principal with
  | none => responds db notFound
  | some env => responds db (.ok (.environment env))

/-- A row in the session of a deletion that has recorded its task. -/
def noted (env : Environment) (task : TaskId) : Change :=
  ⟨env, { env with celeryTaskId := some task }⟩

/-- The outcome of deleting a row. -/
def deleteOutcome (db : Environments) (supply : Supply) (envId : Uuid) (principal : String) :
    Outcome :=
  match visible db envId principal with
  | none => responds db notFound
  | some env =>
      if env.status = .stopped ∨ env.status = .stopping then
        responds db (.error ⟨.http 409, "Environment is already " ++ env.status.value ++ "."⟩)
      else
        ⟨.ok (.accepted env.id supply.task
            "Teardown started. Poll /environments/{id} for status."),
          db.writeAll [noted env supply.task],
          [⟨.teardown, env.id.str, 0, supply.now + seconds 0⟩]⟩

/-- The rows of a listing, newest first; rows of the same instant come in any order. -/
def Newest (db : Environments) (principal : String) (status : Option EnvironmentStatus)
    (rows : List Environment) : Prop :=
  rows.Perm (db.owned principal status) ∧
    rows.Pairwise fun first second => second.createdAt ≤ first.createdAt

/-- The outcome of a listing that finds its rows in this order. -/
def listOutcome (db : Environments) (principal : String) (status : Option EnvironmentStatus)
    (limit offset : Nat) (rows : List Environment) : Outcome :=
  responds db ((World.counted principal (db.owned principal status).length).map fun total =>
    .listing total (World.page limit offset rows))

/-- The outcomes of a request whose primary key is new. -/
inductive Yields (deployment : Deployment) (db : Environments) (supply : Supply) :
    Request → Outcome → Prop
  | create (absent : db.find supply.id = none) (principal : String)
      (payload : EnvironmentCreate) :
      Yields deployment db supply (.create principal payload)
        (createOutcome deployment db supply absent principal payload)
  | list (principal : String) (status : Option EnvironmentStatus) (limit offset : Nat)
      (rows : List Environment) : Newest db principal status rows →
      Yields deployment db supply (.list principal status limit offset)
        (listOutcome db principal status limit offset rows)
  | get (envId : Uuid) (principal : String) :
      Yields deployment db supply (.get envId principal) (getOutcome db envId principal)
  | delete (envId : Uuid) (principal : String) :
      Yields deployment db supply (.delete envId principal)
        (deleteOutcome db supply envId principal)

/-! ## The endpoints have these outcomes -/

section Endpoints

variable {deployment : Deployment} {db : Environments} {supply : Supply}
  {principal : String}

/-- The world and the response of a request make an outcome. -/
def reaches (last : World) (response : Except Exn Answer) : Outcome :=
  ⟨response, last.db, last.sent⟩

theorem supplied_ok {world : World} {request : Call} : Supplied supply world request .ok :=
  ⟨rfl, nofun⟩

theorem supplied_succeeds {world : World} {request : Call} {choice : Choice}
    (supplied : Supplied supply world request choice) : choice.succeeds = true :=
  supplied.1

/-- The rule for a call that only reads. -/
theorem read_meets {request : Call} {world : World}
    {post : World → Except Exn request.Result → Prop}
    (plain : request.plain = true)
    (continues : ∀ value next, world.Effect request (.ok value) next →
      post next (.ok value)) :
    (perform request).Meets (lone deployment (Supplied supply)) post world :=
  Alone.meets_plain plain supplied_ok (fun _ => supplied_succeeds) continues

/-- Whether there is exactly one row does not depend on the order of the rows. -/
theorem scalarOneOrNone_of_perm {rows others : List Environment} (perm : rows.Perm others) :
    Router.scalarOneOrNone rows = Router.scalarOneOrNone others := by
  have lengths := perm.length_eq
  rcases rows with _ | ⟨row, _ | ⟨second, rows⟩⟩
  · rw [List.nil_perm.mp perm]
  · rw [List.singleton_perm.mp perm]
  · rcases others with _ | ⟨other, _ | ⟨third, others⟩⟩
    · cases lengths
    · cases lengths
    · rfl

/-- The rule for the flush of a new row. -/
theorem flush_meets {name owner template : String} {ttlSeconds : Int}
    {post : World → Except Exn Environment → Prop}
    (wide : (Environment.inserted supply.id name owner template ttlSeconds
        supply.now).fitsColumns = false →
      post (desk db supply)
        (.error ⟨.databaseError, (Environment.inserted supply.id name owner template ttlSeconds
          supply.now).misfit⟩))
    (fits : (Environment.inserted supply.id name owner template ttlSeconds
        supply.now).fitsColumns = true →
      post { desk db supply with issued := [supply.id] }
        (.ok (.inserted supply.id name owner template ttlSeconds supply.now))) :
    (perform (.flushInsert name owner template ttlSeconds)).Meets
      (lone deployment (Supplied supply)) post (desk db supply) := by
  have executed : (desk db supply).exec (.flushInsert name owner template ttlSeconds)
      (.fresh supply.id) =
        some ((desk db supply).flushInsert supply.id name owner template ttlSeconds) := by
    simp [World.exec, desk]
  refine Alone.meets_perform.mpr
    ⟨⟨.fresh supply.id, _, _, ⟨rfl, fun id equal => by cases equal; rfl⟩, executed⟩, ?_⟩
  rintro choice reply next ⟨succeeds, supplied⟩ answered
  cases choice with
  | fresh id =>
      cases supplied id rfl
      rw [executed, World.flushInsert] at answered
      cases fitting : (Environment.inserted supply.id name owner template ttlSeconds
          supply.now).fitsColumns with
      | true =>
          rw [show (desk db supply).clock = supply.now from rfl, if_pos fitting] at answered
          cases answered
          exact fits fitting
      | false =>
          rw [show (desk db supply).clock = supply.now from rfl, if_neg (by simp [fitting])]
            at answered
          cases answered
          exact wide fitting
  | fail exc => cases succeeds
  | failAfter exc => cases succeeds
  | _ => cases answered

/-- The rule for the commit of a row whose primary key is new. -/
theorem insert_meets {world : World} {env : Environment}
    {post : World → Except Exn Unit → Prop} (absent : world.db.find env.id = none)
    (continues : post { world with db := world.db.insert env absent } (.ok ())) :
    (perform (.commitInsert env)).Meets (lone deployment (Supplied supply)) post world := by
  have executed : world.succeed (.commitInsert env) =
      some (.ok (), { world with db := world.db.insert env absent }) := by
    simp only [World.succeed, World.commitInsert, dif_pos absent]
  refine Alone.meets_perform.mpr ⟨⟨.ok, _, _, supplied_ok, executed⟩, ?_⟩
  rintro choice reply next ⟨succeeds, -⟩ answered
  cases choice with
  | ok =>
      have same := executed.symm.trans answered
      cases same
      exact continues
  | fail exc => cases succeeds
  | failAfter exc => cases succeeds
  | _ => cases answered

/-- The order in which a listing is computed is newest first. -/
theorem newest_mergeSort (principal : String) (status : Option EnvironmentStatus) :
    Newest db principal status ((db.owned principal status).mergeSort
      fun first second => second.createdAt ≤ first.createdAt) := by
  refine ⟨List.mergeSort_perm _ _, ?_⟩
  have trans : ∀ first second third : Environment,
      decide (second.createdAt ≤ first.createdAt) = true →
      decide (third.createdAt ≤ second.createdAt) = true →
      decide (third.createdAt ≤ first.createdAt) = true := by
    simp only [decide_eq_true_eq]
    exact fun _ _ _ later earlier => Int.le_trans earlier later
  have total : ∀ first second : Environment,
      (decide (second.createdAt ≤ first.createdAt) ||
        decide (first.createdAt ≤ second.createdAt)) = true := by
    simp only [Bool.or_eq_true, decide_eq_true_eq]
    exact fun _ _ => Int.le_total _ _
  have sorted := List.pairwise_mergeSort trans total (db.owned principal status)
  simpa using sorted

/-- The rule for `_load_owned`. -/
theorem loadOwned_meets {world : World} {envId : Uuid}
    {post : World → Except Exn Environment → Prop}
    (missing : visible world.db envId principal = none →
      post world (.error ⟨.http 404, "Environment not found"⟩))
    (found : ∀ env, visible world.db envId principal = some env → post world (.ok env)) :
    (Router.loadOwned envId principal).Meets (lone deployment (Supplied supply)) post
      world := by
  refine Program.meets_bind.mpr (read_meets rfl fun row next effect => ?_)
  cases effect with
  | read _ _ reads =>
  have stored : row = world.db.find envId := reads
  rw [visible, ← stored] at missing found
  cases row with
  | none => exact missing rfl
  | some env =>
      dsimp only
      by_cases own : env.owner = principal
      · rw [if_pos own]
        exact found env (by simp [own])
      · rw [if_neg own]
        exact missing (by simp [own])

theorem get_meets (envId : Uuid) :
    (Router.getEnvironment envId principal).Meets (lone deployment (Supplied supply))
      (fun last response => reaches last response = getOutcome db envId principal)
      (desk db supply) := by
  refine Program.meets_bind.mpr (loadOwned_meets (fun none => ?_) fun env found => ?_)
  · rw [getOutcome, show visible db envId principal = _ from none]
    rfl
  · rw [getOutcome, show visible db envId principal = _ from found]
    rfl

theorem delete_meets (envId : Uuid) :
    (Router.deleteEnvironment envId principal).Meets (lone deployment (Supplied supply))
      (fun last response => reaches last response = deleteOutcome db supply envId principal)
      (desk db supply) := by
  refine Program.meets_bind.mpr (loadOwned_meets (fun none => ?_) fun env found => ?_)
  · rw [deleteOutcome, show visible db envId principal = _ from none]
    rfl
  · rw [deleteOutcome, show visible db envId principal = _ from found]
    dsimp only
    split
    · rfl
    · refine Program.meets_bind.mpr (read_meets rfl fun task next effect => ?_)
      cases effect with
      | read _ _ reads => cases reads
      | published _ _ _ _ =>
      refine Program.meets_bind.mpr (read_meets rfl fun value next' effect' => ?_)
      cases effect' with
      | read _ _ reads => cases reads
      | committed _ => rfl

/-- A row that a creation inserts is the one it flushed, with its task. -/
theorem create_meets (absent : db.find supply.id = none) (payload : EnvironmentCreate) :
    (Router.createEnvironment deployment principal payload).Meets
      (lone deployment (Supplied supply))
      (fun last response =>
        reaches last response = createOutcome deployment db supply absent principal payload)
      (desk db supply) := by
  unfold createOutcome
  refine Program.meets_bind.mpr (Alone.meets_count rfl rfl supplied_ok
    (fun _ => supplied_succeeds) ?_)
  by_cases null : '\x00' ∈ principal.toList
  · rw [World.counted_of_null null, if_pos null]
    rfl
  rw [World.counted_of_clean null, if_neg null]
  change Program.Meets _ _ (desk db supply)
    (ite (deployment.settings.maxEnvironmentsPerUser ≤ (db.activeCount principal : Int)) _ _)
  split
  · rfl
  refine Program.meets_bind.mpr (read_meets rfl fun existing next effect => ?_)
  cases effect with
  | read _ _ listed =>
  have found : Router.scalarOneOrNone existing =
      Router.scalarOneOrNone (db.activeNamed principal payload.name) :=
    scalarOneOrNone_of_perm listed
  dsimp only
  rw [found]
  cases Router.scalarOneOrNone (db.activeNamed principal payload.name) with
  | error exc => rfl
  | ok env =>
  cases env with
  | some env => rfl
  | none =>
  have fits : (newRow supply principal payload).fitsColumns = (Environment.inserted supply.id
      payload.name principal payload.template payload.ttlSeconds supply.now).fitsColumns := rfl
  have free : ¬(none : Option Environment).isSome = true := by decide
  rw [Program.ofExcept_ok, Program.bind_pure, if_neg free]
  dsimp only
  rw [fits]
  refine Program.meets_bind.mpr (flush_meets (fun wide => ?_) fun fitting => ?_)
  · rw [if_neg (by simp [wide])]
    rfl
  · rw [if_pos fitting]
    refine Program.meets_bind.mpr (read_meets rfl fun task next effect => ?_)
    cases effect with
    | read _ _ reads => cases reads
    | published _ _ _ _ => exact Program.meets_bind.mpr (insert_meets absent rfl)

/-- The outcomes of a listing are those with the rows newest first. -/
theorem list_meets (status : Option EnvironmentStatus) (limit offset : Nat) :
    (Router.listEnvironments principal status limit offset).Meets
      (lone deployment (Supplied supply))
      (fun last response => ∃ rows, Newest db principal status rows ∧
        reaches last response = listOutcome db principal status limit offset rows)
      (desk db supply) := by
  have answers : (desk db supply).succeed (.countOwned principal status) =
      some (World.counted principal (db.owned principal status).length, desk db supply) := rfl
  refine Program.meets_bind.mpr (Alone.meets_count rfl answers supplied_ok
    (fun _ => supplied_succeeds) ?_)
  unfold listOutcome
  rcases World.counted principal (db.owned principal status).length with exc | total
  · exact ⟨_, newest_mergeSort _ _, rfl⟩
  refine Program.meets_bind.mpr (Alone.meets_perform.mpr
    ⟨⟨.ok, _, _, supplied_ok, rfl⟩, ?_⟩)
  rintro choice reply next ⟨succeeds, -⟩ answered
  cases choice with
  | ok =>
      cases answered
      exact ⟨_, newest_mergeSort _ _, rfl⟩
  | rows rows =>
      simp only [World.exec, World.ordered] at answered
      split at answered
      · rename_i newest
        cases answered
        exact ⟨rows, ⟨newest.1.trans (List.mergeSort_perm _ _), newest.2⟩, rfl⟩
      · cases answered
  | fail exc => cases succeeds
  | failAfter exc => cases succeeds
  | _ => cases answered

/-- Every order of a listing can be returned. -/
theorem listed_executes {status : Option EnvironmentStatus} {limit offset : Nat}
    {rows : List Environment} (newest : Newest db principal status rows) :
    ∃ trace, Executes (lone deployment (Supplied supply)) (desk db supply)
      (Router.listEnvironments principal status limit offset) trace (desk db supply)
      (listOutcome db principal status limit offset rows).response := by
  have answers : (desk db supply).exec (.countOwned principal status) .ok =
      some (World.counted principal (db.owned principal status).length, desk db supply) := rfl
  unfold listOutcome
  generalize World.counted principal (db.owned principal status).length = reply at answers ⊢
  rcases reply with exc | total
  · exact ⟨_, .call _ _ _ _ _ _ _ _ ⟨.ok, supplied_ok, answers⟩ (.raise _ _)⟩
  have listed : (desk db supply).exec (.listOwned principal status limit offset)
      (.rows rows) = some (.ok (World.page limit offset rows), desk db supply) :=
    if_pos ⟨newest.1.trans (List.mergeSort_perm _ _).symm, newest.2⟩
  exact ⟨_, .call _ _ _ _ _ _ _ _ ⟨.ok, supplied_ok, answers⟩
    (.call _ _ _ _ _ _ _ _ ⟨.rows rows, ⟨rfl, nofun⟩, listed⟩ (.pure _ _))⟩

/-- A request has exactly the outcomes that it yields. -/
theorem handles_iff_yields {request : Request} {outcome : Outcome}
    (absent : db.find supply.id = none) :
    Handles deployment db request supply outcome ↔
      Yields deployment db supply request outcome := by
  constructor
  · intro handled
    obtain ⟨response, after, sent⟩ := outcome
    obtain ⟨trace, last, executed, rfl, rfl⟩ := handled
    change Yields deployment db supply request (reaches last response)
    cases request with
    | create principal payload =>
        have same : reaches last response = _ := executed.meets (create_meets absent payload)
        rw [same]
        exact .create absent principal payload
    | list principal status limit offset =>
        obtain ⟨rows, newest, same⟩ := executed.meets (list_meets status limit offset)
        have same : reaches last response = _ := same
        rw [same]
        exact .list principal status limit offset rows newest
    | get envId principal =>
        have same : reaches last response = _ := executed.meets (get_meets envId)
        rw [same]
        exact .get envId principal
    | delete envId principal =>
        have same : reaches last response = _ := executed.meets (delete_meets envId)
        rw [same]
        exact .delete envId principal
  · intro yields
    cases yields with
    | create _ principal payload =>
        obtain ⟨trace, last, response, executed, same⟩ :=
          Alone.exists_ends (create_meets absent payload)
        rw [← same]
        exact ⟨trace, last, executed, rfl, rfl⟩
    | list principal status limit offset rows newest =>
        obtain ⟨trace, executed⟩ := listed_executes newest
        exact ⟨trace, _, executed, rfl, rfl⟩
    | get envId principal =>
        obtain ⟨trace, last, response, executed, same⟩ := Alone.exists_ends (get_meets envId)
        rw [← same]
        exact ⟨trace, last, executed, rfl, rfl⟩
    | delete envId principal =>
        obtain ⟨trace, last, response, executed, same⟩ := Alone.exists_ends (delete_meets envId)
        rw [← same]
        exact ⟨trace, last, executed, rfl, rfl⟩

end Endpoints

/-! ## What a request depends on -/

/-- The table without the rows of other principals. -/
def own (principal : String) (db : Environments) : Environments :=
  db.filter fun row => row.owner = principal

/-- The rows of other principals. -/
def others (principal : String) (db : Environments) : Environments :=
  db.filter fun row => row.owner ≠ principal

/-- The principal of a request. -/
def requester : Request → String
  | .create principal _ | .list principal _ _ _ | .get _ principal | .delete _ principal =>
      principal

section Rows

variable {db : Environments} {principal : String} {supply : Supply} {deployment : Deployment}

@[simp] theorem activeCount_own : (own principal db).activeCount principal =
    db.activeCount principal := by
  simp only [Environments.activeCount, own, Keyed.Table.rows_filter, List.countP_filter]
  congr 1
  funext row
  by_cases same : row.owner = principal <;> simp [same]

@[simp] theorem activeNamed_own (name : String) :
    (own principal db).activeNamed principal name = db.activeNamed principal name := by
  simp only [Environments.activeNamed, own, Keyed.Table.rows_filter, List.filter_filter]
  congr 1
  funext row
  by_cases same : row.owner = principal <;> simp [same]

@[simp] theorem owned_own (status : Option EnvironmentStatus) :
    (own principal db).owned principal status = db.owned principal status := by
  simp only [Environments.owned, own, Keyed.Table.rows_filter, List.filter_filter]
  congr 1
  funext row
  by_cases same : row.owner = principal <;> simp [same]

@[simp] theorem visible_own (envId : Uuid) :
    visible (own principal db) envId principal = visible db envId principal := by
  rw [visible, own, Keyed.Table.find_filter, Option.filter_filter]
  simp [visible]

theorem visible_eq_some {envId : Uuid} {env : Environment}
    (seen : visible db envId principal = some env) :
    db.find envId = some env ∧ env.owner = principal := by
  rw [visible, Option.filter_eq_some_iff, decide_eq_true_eq] at seen
  exact seen

/-- Recording a task keeps a row's owner. -/
theorem owner_noted {env : Environment} {task : TaskId} (row : Environment) :
    (row.flush (noted env task).seen (noted env task).now).owner = row.owner :=
  Environment.column_self

theorem id_noted (env : Environment) (task : TaskId) (row : Environment) :
    (row.flush (noted env task).seen (noted env task).now).id = row.id := rfl

theorem own_writeAll_noted (env : Environment) (task : TaskId) :
    own principal (db.writeAll [noted env task]) =
      Environments.writeAll (own principal db) [noted env task] :=
  Keyed.Table.filter_update (id_noted env task) fun row => by rw [owner_noted]

/-- Recording the task of a deletion on an own row does not show to others. -/
theorem others_writeAll_noted {env : Environment} (task : TaskId)
    (found : db.find env.id = some env) (mine : env.owner = principal) :
    others principal (db.writeAll [noted env task]) = others principal db := by
  refine Keyed.Table.filter_update_of_neg (id_noted env task)
    (fun row => by rw [owner_noted]) ?_
  intro row present same foreign
  rw [decide_eq_true_eq] at foreign
  cases (Keyed.Table.find_of_mem present).symm.trans (same ▸ found)
  exact (foreign mine).elim

/-- The outcome as far as a principal's rows are concerned. -/
def Outcome.own (principal : String) (outcome : Outcome) : Outcome :=
  { outcome with after := Principals.own principal outcome.after }

@[simp] theorem own_responds (response : Except Exn Answer) :
    (responds db response).own principal = responds (own principal db) response := rfl

theorem createOutcome_own (absent : db.find supply.id = none)
    (absent' : (own principal db).find supply.id = none) (payload : EnvironmentCreate) :
    createOutcome deployment (own principal db) supply absent' principal payload =
      (createOutcome deployment db supply absent principal payload).own principal := by
  unfold createOutcome
  rw [activeCount_own, activeNamed_own]
  split
  · rfl
  split
  · rfl
  split
  · rfl
  · rfl
  split
  · have inserted : own principal (db.insert (newRow supply principal payload) absent) =
        (own principal db).insert (newRow supply principal payload) absent' := by
      apply Keyed.Table.filter_insert_of_pos
      exact decide_eq_true rfl
    rw [Outcome.own, inserted]
  · rfl

theorem getOutcome_own (envId : Uuid) :
    getOutcome (own principal db) envId principal =
      (getOutcome db envId principal).own principal := by
  unfold getOutcome
  rw [visible_own]
  split <;> rfl

theorem deleteOutcome_own (envId : Uuid) :
    deleteOutcome (own principal db) supply envId principal =
      (deleteOutcome db supply envId principal).own principal := by
  unfold deleteOutcome
  rw [visible_own]
  split
  · rfl
  split
  · rfl
  · rw [Outcome.own, own_writeAll_noted]

/-- What a request yields depends on the rows of its principal only. -/
theorem yields_own {request : Request} {outcome : Outcome}
    (yields : Yields deployment db supply request outcome) :
    Yields deployment (own (requester request) db) supply request
      (outcome.own (requester request)) := by
  cases yields with
  | create absent principal payload =>
      have absent' : (own principal db).find supply.id = none := by
        rw [own, Keyed.Table.find_filter, absent]
        rfl
      rw [requester, ← createOutcome_own absent absent' payload]
      exact .create absent' principal payload
  | list principal status limit offset rows newest =>
      rw [requester, listOutcome, own_responds, ← owned_own]
      refine .list principal status limit offset rows ⟨?_, newest.2⟩
      rw [owned_own]
      exact newest.1
  | get envId principal =>
      rw [requester, ← getOutcome_own]
      exact .get envId principal
  | delete envId principal =>
      rw [requester, ← deleteOutcome_own]
      exact .delete envId principal

/-- The order of a listing is determined by distinct creation times. -/
theorem newest_unique {status : Option EnvironmentStatus} {rows rows' : List Environment}
    (dated : (db.rows.map Environment.createdAt).Nodup)
    (newest : Newest db principal status rows) (newest' : Newest db principal status rows') :
    rows = rows' := by
  refine List.Perm.eq_of_pairwise ?_ newest.2 newest'.2 (newest.1.trans newest'.1.symm)
  intro first second present present' later earlier
  exact List.inj_on_of_nodup_map dated
    (List.mem_of_mem_filter (newest.1.mem_iff.mp present))
    (List.mem_of_mem_filter (newest'.1.mem_iff.mp present')) (Int.le_antisymm earlier later)

/-- With distinct creation times a request has one outcome. -/
theorem yields_unique {request : Request} {outcome outcome' : Outcome}
    (dated : (db.rows.map Environment.createdAt).Nodup)
    (yields : Yields deployment db supply request outcome)
    (yields' : Yields deployment db supply request outcome') : outcome = outcome' := by
  cases yields with
  | create absent principal payload =>
      cases yields'
      rfl
  | list principal status limit offset rows newest =>
      cases yields' with
      | list _ _ _ _ rows' newest' => rw [newest_unique dated newest newest']
  | get envId principal =>
      cases yields'
      rfl
  | delete envId principal =>
      cases yields'
      rfl

/-- Every request yields something. -/
theorem exists_yields (absent : db.find supply.id = none) (request : Request) :
    ∃ outcome, Yields deployment db supply request outcome := by
  cases request with
  | create principal payload => exact ⟨_, .create absent principal payload⟩
  | list principal status limit offset =>
      exact ⟨_, .list principal status limit offset _ (newest_mergeSort principal status)⟩
  | get envId principal => exact ⟨_, .get envId principal⟩
  | delete envId principal => exact ⟨_, .delete envId principal⟩

/-- A request changes no row of another principal, and publishes for rows of its own
principal. -/
theorem yields_confined {request : Request} {outcome : Outcome}
    (yields : Yields deployment db supply request outcome) :
    others (requester request) outcome.after = others (requester request) db ∧
      ∀ message ∈ outcome.sent, ∃ row ∈ outcome.after.rows,
        row.owner = requester request ∧ message.envId = row.id.str := by
  cases yields with
  | create absent principal payload =>
      unfold createOutcome
      split
      · exact ⟨rfl, List.forall_mem_nil _⟩
      split
      · exact ⟨rfl, List.forall_mem_nil _⟩
      split
      · exact ⟨rfl, List.forall_mem_nil _⟩
      · exact ⟨rfl, List.forall_mem_nil _⟩
      split
      · have hidden : decide ((newRow supply principal payload).owner ≠ principal) = false :=
          decide_eq_false fun other => other rfl
        refine ⟨Keyed.Table.filter_insert_of_neg absent hidden, fun message published => ?_⟩
        rw [List.mem_singleton] at published
        subst published
        exact ⟨newRow supply principal payload, List.mem_append_right _ List.mem_cons_self,
          rfl, rfl⟩
      · exact ⟨rfl, List.forall_mem_nil _⟩
  | list principal status limit offset rows newest => exact ⟨rfl, List.forall_mem_nil _⟩
  | get envId principal =>
      unfold getOutcome
      split <;> exact ⟨rfl, List.forall_mem_nil _⟩
  | delete envId principal =>
      unfold deleteOutcome
      split
      · exact ⟨rfl, List.forall_mem_nil _⟩
      rename_i env seen
      obtain ⟨found, mine⟩ := visible_eq_some seen
      split
      · exact ⟨rfl, List.forall_mem_nil _⟩
      · have stored := Keyed.Table.find_of_mem (Keyed.Table.mem_of_find found)
        refine ⟨others_writeAll_noted _ stored mine, fun message published => ?_⟩
        rw [List.mem_singleton] at published
        subst published
        have own : (noted env supply.task).seen.id = env.id := rfl
        exact ⟨_, Keyed.Table.mem_of_find (Environments.find_writeAll_single own stored),
          (owner_noted env).trans mine, rfl⟩

/-- A request keeps the rows' keys and adds at most the new row's. -/
theorem keys_of_yields {α : Type} {key : Environment → α} {supplied : α}
    (kept : ∀ (row env : Environment) (task : TaskId),
      key (row.flush (noted env task).seen (noted env task).now) = key row)
    (added : ∀ principal payload, key (newRow supply principal payload) = supplied)
    {request : Request} {outcome : Outcome}
    (yields : Yields deployment db supply request outcome) :
    outcome.after.rows.map key = db.rows.map key ∨
      outcome.after.rows.map key = db.rows.map key ++ [supplied] := by
  cases yields with
  | create absent principal payload =>
      unfold createOutcome
      split
      · exact .inl rfl
      split
      · exact .inl rfl
      split
      · exact .inl rfl
      · exact .inl rfl
      split
      · right
        change (db.rows ++ [newRow supply principal payload]).map key = _
        rw [List.map_append, List.map_singleton, added]
      · exact .inl rfl
  | list principal status limit offset rows newest => exact .inl rfl
  | get envId principal =>
      unfold getOutcome
      split <;> exact .inl rfl
  | delete envId principal =>
      unfold deleteOutcome
      split
      · exact .inl rfl
      split
      · exact .inl rfl
      · left
        change (db.rows.map _).map key = _
        rw [List.map_map]
        apply List.map_congr_left
        intro row _
        rw [Function.comp_apply]
        split
        · exact kept row _ _
        · rfl

end Rows

/-! ## Runs -/

/-- A change of a row from outside the API, such as a status update by a worker. It keeps
the primary key, the owner and the creation time. -/
structure Revision where
  change : Environment → Environment
  keepsId : ∀ row, (change row).id = row.id
  keepsOwner : ∀ row, (change row).owner = row.owner
  keepsCreatedAt : ∀ row, (change row).createdAt = row.createdAt

/-- A status update. -/
def Revision.setStatus (status : EnvironmentStatus) (now : Time) : Revision where
  change row := row.setStatus status now
  keepsId _ := rfl
  keepsOwner _ := rfl
  keepsCreatedAt _ := rfl

/-- What happens in a run: a request, or an update of one row of some owner. -/
inductive Happening
  | request (request : Request) (supply : Supply)
  | update (owner : String) (id : Uuid) (revision : Revision)

/-- Whose request it is, or whose row is updated. -/
def Happening.principal : Happening → String
  | .request asked _ => requester asked
  | .update owner _ _ => owner

/-- Update a row if it is one of the owner's. -/
def revise (db : Environments) (owner : String) (id : Uuid) (revision : Revision) :
    Environments :=
  db.update id (fun row => if row.owner = owner then revision.change row else row) (by
    intro row
    split
    · exact revision.keepsId row
    · rfl)

/-- The requests of a run, one after the other, with the responses and to whom they go. -/
inductive Serves (deployment : Deployment) :
    Environments → List Happening → List (String × Except Exn Answer) → Environments → Prop
  | done (db : Environments) : Serves deployment db [] [] db
  | request {db last : Environments} {request : Request} {supply : Supply}
      {outcome : Outcome} {rest : List Happening}
      {responses : List (String × Except Exn Answer)} :
      Handles deployment db request supply outcome →
      Serves deployment outcome.after rest responses last →
      Serves deployment db (.request request supply :: rest)
        ((requester request, outcome.response) :: responses) last
  | update {db last : Environments} {owner : String} {id : Uuid} {revision : Revision}
      {rest : List Happening} {responses : List (String × Except Exn Answer)} :
      Serves deployment (revise db owner id revision) rest responses last →
      Serves deployment db (.update owner id revision :: rest) responses last

/-- What is supplied to the requests of a run. -/
def supplies (happenings : List Happening) : List Supply :=
  happenings.filterMap fun
    | .request _ supply => some supply
    | .update _ _ _ => none

/-- The supplied primary keys are new. -/
def Fresh (db : Environments) (happenings : List Happening) : Prop :=
  (db.rows.map Environment.id ++ (supplies happenings).map Supply.id).Nodup

/-- The creation times are distinct. -/
def Dated (db : Environments) (happenings : List Happening) : Prop :=
  (db.rows.map Environment.createdAt ++ (supplies happenings).map Supply.now).Nodup

instance (db : Environments) (happenings : List Happening) :
    Decidable (Fresh db happenings) :=
  inferInstanceAs (Decidable (List.Nodup _))

instance (db : Environments) (happenings : List Happening) :
    Decidable (Dated db happenings) :=
  inferInstanceAs (Decidable (List.Nodup _))

/-- The run without what others do. -/
def purged (principal : String) (happenings : List Happening) : List Happening :=
  happenings.filter fun happening => happening.principal = principal

/-- The responses that a principal receives. -/
def received (principal : String) (responses : List (String × Except Exn Answer)) :
    List (String × Except Exn Answer) :=
  responses.filter fun response => response.1 = principal

section Runs

variable {deployment : Deployment} {db last : Environments} {principal : String}
  {happenings : List Happening} {responses : List (String × Except Exn Answer)}

theorem purged_cons (happening : Happening) :
    purged principal (happening :: happenings) =
      if happening.principal = principal then happening :: purged principal happenings
      else purged principal happenings := by
  simp [purged, List.filter_cons]

theorem received_cons (response : String × Except Exn Answer) :
    received principal (response :: responses) =
      if response.1 = principal then response :: received principal responses
      else received principal responses := by
  simp [received, List.filter_cons]

/-- A list of distinct keys stays one when the next key is used or dropped. -/
theorem nodup_step {α : Type} {keys keys' rest : List α} {next : α}
    (distinct : (keys ++ next :: rest).Nodup)
    (used : keys' = keys ∨ keys' = keys ++ [next]) : (keys' ++ rest).Nodup := by
  rcases used with rfl | rfl
  · exact distinct.sublist (List.Sublist.append_left (List.sublist_cons_self _ _) _)
  · rwa [List.append_assoc]

theorem absent_of_fresh {request : Request} {supply : Supply}
    (fresh : Fresh db (.request request supply :: happenings)) :
    db.find supply.id = none := by
  rw [Keyed.Table.find_eq_none_iff]
  intro row present
  exact (List.nodup_append.mp fresh).2.2 _ (List.mem_map_of_mem present) _ List.mem_cons_self

theorem fresh_of_yields {request : Request} {supply : Supply} {outcome : Outcome}
    (fresh : Fresh db (.request request supply :: happenings))
    (yields : Yields deployment db supply request outcome) :
    Fresh outcome.after happenings :=
  nodup_step fresh (keys_of_yields (fun _ _ _ => rfl) (fun _ _ => rfl) yields)

theorem dated_of_yields {request : Request} {supply : Supply} {outcome : Outcome}
    (dated : Dated db (.request request supply :: happenings))
    (yields : Yields deployment db supply request outcome) :
    Dated outcome.after happenings :=
  nodup_step dated (keys_of_yields (fun _ _ _ => Environment.column_self) (fun _ _ => rfl)
    yields)

/-- An update keeps the rows' keys. -/
theorem map_revise {α : Type} {key : Environment → α} {owner : String} {id : Uuid}
    {revision : Revision} (kept : ∀ row, key (revision.change row) = key row) :
    (revise db owner id revision).rows.map key = db.rows.map key := by
  change (db.rows.map _).map key = _
  rw [List.map_map]
  apply List.map_congr_left
  intro row _
  rw [Function.comp_apply]
  split
  · dsimp only
    split
    · exact kept row
    · rfl
  · rfl

theorem fresh_revise {owner : String} {id : Uuid} {revision : Revision}
    (fresh : Fresh db (.update owner id revision :: happenings)) :
    Fresh (revise db owner id revision) happenings := by
  rw [Fresh, map_revise revision.keepsId]
  exact fresh

theorem dated_revise {owner : String} {id : Uuid} {revision : Revision}
    (dated : Dated db (.update owner id revision :: happenings)) :
    Dated (revise db owner id revision) happenings := by
  rw [Dated, map_revise revision.keepsCreatedAt]
  exact dated

theorem owner_revised (owner : String) (revision : Revision) (row : Environment) :
    (if row.owner = owner then revision.change row else row).owner = row.owner := by
  split
  · exact revision.keepsOwner row
  · rfl

/-- An update of an own row is an update of the own rows. -/
theorem own_revise (id : Uuid) (revision : Revision) :
    own principal (revise db principal id revision) =
      revise (own principal db) principal id revision :=
  Keyed.Table.filter_update _ fun row => by rw [owner_revised]

/-- An update of another principal's row does not show. -/
theorem own_revise_of_ne {owner : String} (other : owner ≠ principal) (id : Uuid)
    (revision : Revision) :
    own principal (revise db owner id revision) = own principal db := by
  refine Keyed.Table.filter_update_of_neg _ (fun row => by rw [owner_revised]) ?_
  intro row _ _ mine
  rw [decide_eq_true_eq] at mine
  exact if_neg fun same => other (same.symm.trans mine)

/-- What a principal owns is among what is not another's. -/
theorem own_of_others {asker : String} {after : Environments} (other : asker ≠ principal)
    (same : others asker after = others asker db) :
    own principal after = own principal db := by
  have within : ∀ table : Environments,
      own principal table = own principal (others asker table) := by
    intro table
    apply Keyed.Table.eq_of_rows
    simp only [own, others, Keyed.Table.rows_filter, List.filter_filter]
    congr 1
    funext row
    by_cases mine : row.owner = principal
    · have foreign : row.owner ≠ asker := fun equal => other (equal.symm.trans mine)
      rw [decide_eq_true mine, decide_eq_true foreign]
      rfl
    · simp [mine]
  rw [within after, same, ← within db]

/-- Without what others do a principal can receive the same responses. -/
theorem serves_own (fresh : Fresh db happenings)
    (served : Serves deployment db happenings responses last) :
    Serves deployment (own principal db) (purged principal happenings)
      (received principal responses) (own principal last) := by
  induction served with
  | done db => exact .done _
  | request handled _ inductionHypothesis =>
      rename_i db last request supply outcome rest responses _
      have absent := absent_of_fresh fresh
      have yields := (handles_iff_yields absent).mp handled
      have continued := inductionHypothesis (fresh_of_yields fresh yields)
      by_cases mine : requester request = principal
      · subst mine
        have absent' : (own (requester request) db).find supply.id = none := by
          rw [own, Keyed.Table.find_filter, absent]
          rfl
        rw [purged_cons, received_cons, Happening.principal, if_pos rfl, if_pos rfl]
        have handled' : Handles deployment (own (requester request) db) request supply
            (outcome.own (requester request)) :=
          (handles_iff_yields absent').mpr (yields_own yields)
        have served' := Serves.request handled' continued
        exact served'
      · rw [purged_cons, received_cons, Happening.principal, if_neg mine, if_neg mine]
        rw [own_of_others mine (yields_confined yields).1] at continued
        exact continued
  | update _ inductionHypothesis =>
      rename_i db last owner id revision rest responses _
      have continued := inductionHypothesis (fresh_revise fresh)
      by_cases mine : owner = principal
      · subst mine
        rw [purged_cons, Happening.principal, if_pos rfl]
        rw [own_revise] at continued
        exact .update continued
      · rw [purged_cons, Happening.principal, if_neg mine]
        rw [own_revise_of_ne mine] at continued
        exact continued

/-- With distinct creation times a run has one list of responses. -/
theorem serves_unique {responses' : List (String × Except Exn Answer)} {last' : Environments}
    (fresh : Fresh db happenings) (dated : Dated db happenings)
    (served : Serves deployment db happenings responses last)
    (served' : Serves deployment db happenings responses' last') :
    responses = responses' ∧ last = last' := by
  induction served generalizing responses' last' with
  | done db =>
      cases served'
      exact ⟨rfl, rfl⟩
  | request handled _ inductionHypothesis =>
      cases served' with
      | request handled' continued' =>
          have absent := absent_of_fresh fresh
          have yields := (handles_iff_yields absent).mp handled
          have yields' := (handles_iff_yields absent).mp handled'
          have same := yields_unique
            (dated.sublist (List.sublist_append_left _ _)) yields yields'
          subst same
          obtain ⟨rfl, rfl⟩ := inductionHypothesis (fresh_of_yields fresh yields)
            (dated_of_yields dated yields) continued'
          exact ⟨rfl, rfl⟩
  | update _ inductionHypothesis =>
      cases served' with
      | update continued' =>
          exact inductionHypothesis (fresh_revise fresh) (dated_revise dated) continued'

/-- Every run is served. -/
theorem exists_serves (deployment : Deployment) (fresh : Fresh db happenings) :
    ∃ responses last, Serves deployment db happenings responses last := by
  induction happenings generalizing db with
  | nil => exact ⟨_, _, .done db⟩
  | cons happening happenings inductionHypothesis =>
      cases happening with
      | request request supply =>
          have absent := absent_of_fresh fresh
          have yields : ∃ outcome, Yields deployment db supply request outcome :=
            exists_yields absent request
          obtain ⟨outcome, yields⟩ := yields
          obtain ⟨responses, last, served⟩ :=
            inductionHypothesis (fresh_of_yields fresh yields)
          exact ⟨_, _, .request ((handles_iff_yields absent).mpr yields) served⟩
      | update owner id revision =>
          obtain ⟨responses, last, served⟩ := inductionHypothesis (fresh_revise fresh)
          exact ⟨_, _, .update served⟩

/-- The own part of a run has new primary keys too. -/
theorem fresh_purged (fresh : Fresh db happenings) :
    Fresh (own principal db) (purged principal happenings) :=
  fresh.sublist (List.Sublist.append (List.filter_sublist.map _)
    ((List.filter_sublist.filterMap _).map _))

end Runs

/-- An id of another principal is answered like one that does not exist: the table stays as
it is, and nothing is published. -/
theorem handles_missing {deployment : Deployment} {db : Environments} {principal : String}
    {envId : Uuid} {supply : Supply} {request : Request} {outcome : Outcome}
    (foreign : ∀ env, db.find envId = some env → env.owner ≠ principal)
    (asks : request = .get envId principal ∨ request = .delete envId principal)
    (handled : Handles deployment db request supply outcome) :
    outcome = responds db notFound := by
  have unseen : visible db envId principal = none := by
    cases seen : visible db envId principal with
    | none => rfl
    | some env =>
        obtain ⟨found, mine⟩ := visible_eq_some seen
        exact (foreign env found mine).elim
  obtain ⟨response, after, sent⟩ := outcome
  obtain ⟨trace, last, executed, rfl, rfl⟩ := handled
  rcases asks with rfl | rfl
  · have same : reaches last response = _ := executed.meets (get_meets envId)
    rw [getOutcome, unseen] at same
    exact same
  · have same : reaches last response = _ := executed.meets (delete_meets envId)
    rw [deleteOutcome, unseen] at same
    exact same

/-- What a principal sees of a run is what it sees of the run without the others: it can
receive the same responses there, and with distinct creation times it receives no others.
No request changes a row of another principal or publishes a message for it, and an id of
another principal is answered like one that does not exist. -/
theorem noninterference (deployment : Deployment) (principal : String) :
    (∀ db happenings, Fresh db happenings →
      (∃ responses last, Serves deployment db happenings responses last) ∧
      ∀ responses last, Serves deployment db happenings responses last →
        Serves deployment (own principal db) (purged principal happenings)
          (received principal responses) (own principal last) ∧
        (Dated (own principal db) (purged principal happenings) →
          ∀ responses' last', Serves deployment (own principal db)
              (purged principal happenings) responses' last' →
            responses' = received principal responses)) ∧
    (∀ db request supply outcome, requester request = principal →
      db.find supply.id = none → Handles deployment db request supply outcome →
        others principal outcome.after = others principal db ∧
          ∀ message ∈ outcome.sent, ∃ row ∈ outcome.after.rows,
            row.owner = principal ∧ message.envId = row.id.str) ∧
    ∀ db envId supply request outcome,
      (∀ env, db.find envId = some env → env.owner ≠ principal) →
      (request = .get envId principal ∨ request = .delete envId principal) →
      Handles deployment db request supply outcome → outcome = responds db notFound := by
  refine ⟨fun db happenings fresh => ⟨exists_serves deployment fresh, ?_⟩, ?_, ?_⟩
  · intro responses last served
    have alone : Serves deployment (own principal db) (purged principal happenings)
        (received principal responses) (own principal last) := serves_own fresh served
    exact ⟨alone, fun dated responses' last' served' =>
      (serves_unique (fresh_purged fresh) dated served' alone).1⟩
  · rintro db request supply outcome rfl absent handled
    exact yields_confined ((handles_iff_yields absent).mp handled)
  · intro db envId supply request outcome foreign asks handled
    exact handles_missing foreign asks handled

/-- A table with a row of each of two principals. -/
def sampleTable : Environments where
  rows :=
    [ .inserted (Sample.envId 1) "first" "alice" "webapp-postgres" 300 0,
      .inserted (Sample.envId 2) "first" "bob" "webapp-postgres" 300 1 ]
  nodup := by decide

/-- Both principals create environments, one lists, and rows of both are updated. -/
def sampleRun : List Happening :=
  [ .request (.create "bob" Sample.payload) ⟨Sample.envId 3, 0, 2⟩,
    .update "alice" (Sample.envId 1) (.setStatus .running 3),
    .request (.create "alice" Sample.payload) ⟨Sample.envId 4, 1, 4⟩,
    .update "bob" (Sample.envId 2) (.setStatus .failed 5),
    .request (.delete (Sample.envId 2) "alice") ⟨Sample.envId 5, 2, 6⟩,
    .request (.list "alice" none 20 0) ⟨Sample.envId 6, 3, 7⟩ ]

/-- The rule on a run of two principals. -/
theorem noninterference_of_sample :
    ∃ responses last, Serves Compose.shipped sampleTable sampleRun responses last ∧
      ∀ responses' last', Serves Compose.shipped (own "alice" sampleTable)
          (purged "alice" sampleRun) responses' last' →
        responses' = received "alice" responses := by
  obtain ⟨runs, -, -⟩ := noninterference Compose.shipped "alice"
  have fresh : Fresh sampleTable sampleRun := by decide
  have dated : Dated (own "alice" sampleTable) (purged "alice" sampleRun) := by decide
  obtain ⟨⟨responses, last, served⟩, alone⟩ := runs sampleTable sampleRun fresh
  exact ⟨responses, last, served, (alone responses last served).2 dated⟩

end Principals

end Provisioner
