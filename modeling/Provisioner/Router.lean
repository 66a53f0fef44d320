import Provisioner.Worker

/-!
# The environment router

The endpoints of `api/routes/environment_router.py` for an authenticated
principal. The session dependency commits once more after an endpoint returns
and rolls back when it raises; neither has anything left to write.
-/

namespace Provisioner

open Resumption

/-- `EnvironmentCreate`, as validation lets it through. -/
structure EnvironmentCreate where
  name : String
  template : String
  ttlSeconds : Int
  /-- `min_length=3, max_length=100` -/
  nameLength : 3 ≤ name.length ∧ name.length ≤ 100
  /-- The pattern `^[a-z0-9\-]+$` -/
  nameCharacters : ∀ char ∈ name.toList,
    ('a' ≤ char ∧ char ≤ 'z') ∨ ('0' ≤ char ∧ char ≤ '9') ∨ char = '-'
  /-- `ge=300, le=86400` -/
  ttlRange : 300 ≤ ttlSeconds ∧ ttlSeconds ≤ 86400

namespace Router

/-- An `HTTPException`. -/
def httpError {α : Type} (statusCode : Nat) (detail : String) : Action α :=
  .raise ⟨.http statusCode, detail⟩

/-- `scalar_one_or_none` -/
def scalarOneOrNone (rows : List Environment) : Except Exn (Option Environment) :=
  match rows with
  | [] => .ok none
  | [row] => .ok (some row)
  | _ :: _ :: _ => .error ⟨.multipleResultsFound,
      "Multiple rows were found when one or none was required"⟩

/-- `_load_owned` -/
def loadOwned (envId : Uuid) (principal : String) : Action Environment := do
  let found ← perform (.loadEnvironment envId)
  match found with
  | none => httpError 404 "Environment not found"
  | some env =>
      if env.owner = principal then pure env
      else httpError 404 "Environment not found"

/-- `create_environment` -/
def createEnvironment
    (deployment : Deployment)
    (principal : String)
    (payload : EnvironmentCreate) : Action Answer := do
  let activeCount ← perform (.countActive principal)
  if deployment.settings.maxEnvironmentsPerUser ≤ activeCount then
    httpError 429 ("Max " ++ toString deployment.settings.maxEnvironmentsPerUser ++
      " active environments per user. Stop some before creating new ones.")
  else do
    let existing ← perform (.findActive principal payload.name)
    let existing ← .ofExcept (scalarOneOrNone existing)
    if existing.isSome then
      httpError 409 ("An active environment named '" ++ payload.name ++
        "' already exists for this owner.")
    else do
      let env ← perform
        (.flushInsert payload.name principal payload.template payload.ttlSeconds)
      let task ← perform (.publish .provision env.id.str 0 0)
      perform (.commitInsert { env with celeryTaskId := some task })
      pure (.accepted env.id task "Provisioning started. Poll /environments/{id} for status.")

/-- `list_environments` -/
def listEnvironments
    (principal : String)
    (status : Option EnvironmentStatus)
    (limit offset : Nat) : Action Answer := do
  let total ← perform (.countOwned principal status)
  let rows ← perform (.listOwned principal status limit offset)
  pure (.listing total rows)

/-- `get_environment` -/
def getEnvironment (envId : Uuid) (principal : String) : Action Answer := do
  let env ← loadOwned envId principal
  pure (.environment env)

/-- `delete_environment` -/
def deleteEnvironment (envId : Uuid) (principal : String) : Action Answer := do
  let env ← loadOwned envId principal
  if env.status = .stopped ∨ env.status = .stopping then
    httpError 409 ("Environment is already " ++ env.status.value ++ ".")
  else do
    let task ← perform (.publish .teardown env.id.str 0 0)
    perform (.commitChanges [⟨env, { env with celeryTaskId := some task }⟩])
    pure (.accepted env.id task "Teardown started. Poll /environments/{id} for status.")

end Router

end Provisioner
