import Provisioner.Keyed.Table
import Provisioner.Uuid

/-!
# The environments table

The row type of `db/models.py`, the only function that changes a status, and
the way an SQLAlchemy session writes a row back: by primary key, and only the
columns whose value in the session differs from the value it loaded.
-/

namespace Provisioner

/-- An instant, in microseconds. -/
abbrev Time := Int

/-- `timedelta(seconds=count)` -/
def seconds (count : Int) : Int :=
  count * 1000000

theorem seconds_le {less more : Int} (order : less ≤ more) : seconds less ≤ seconds more :=
  Int.mul_le_mul_of_nonneg_right order (by decide)

theorem seconds_lt {less more : Int} (order : less < more) : seconds less < seconds more :=
  Int.mul_lt_mul_of_pos_right order (by decide)

theorem lt_of_seconds_lt {less more : Int} (order : seconds less < seconds more) :
    less < more :=
  Int.lt_of_mul_lt_mul_right order (by decide)

/-- The id Docker gives to a container or a network. -/
abbrev DockerId := Nat

/-- The id Celery gives to a published task. -/
abbrev TaskId := Nat

/-- The states of an environment. -/
inductive EnvironmentStatus
  | pending
  | provisioning
  | running
  | stopping
  | stopped
  | failed
  deriving DecidableEq

namespace EnvironmentStatus

/-- The status as it appears in responses and messages. -/
def value : EnvironmentStatus → String
  | pending => "pending"
  | provisioning => "provisioning"
  | running => "running"
  | stopping => "stopping"
  | stopped => "stopped"
  | failed => "failed"

/-- Membership in `TERMINAL_STATUSES`; also the two statuses that the quota and
the name guard exclude. -/
def terminal : EnvironmentStatus → Bool
  | stopped => true
  | failed => true
  | _ => false

end EnvironmentStatus

/-- A row of the `environments` table. -/
structure Environment where
  id : Uuid
  name : String
  owner : String
  status : EnvironmentStatus
  template : String
  containerIds : List DockerId
  networkId : Option DockerId
  hostPort : Option Nat
  ttlSeconds : Int
  createdAt : Time
  statusChangedAt : Option Time
  startedAt : Option Time
  expiresAt : Option Time
  stoppedAt : Option Time
  errorMessage : Option String
  celeryTaskId : Option TaskId
  deriving DecidableEq

namespace Environment

/-- `Environment.set_status` at the instant `now`. -/
def setStatus
    (env : Environment)
    (newStatus : EnvironmentStatus)
    (now : Time) : Environment :=
  { env with status := newStatus, statusChangedAt := some now }

/-- A row counts against the quota and holds its name. -/
def active (env : Environment) : Bool :=
  !env.status.terminal

/-- The row that an insert creates from its explicit values and the column
defaults. -/
def inserted
    (id : Uuid) (name owner template : String) (ttlSeconds : Int)
    (now : Time) : Environment where
  id := id
  name := name
  owner := owner
  status := .pending
  template := template
  containerIds := []
  networkId := none
  hostPort := none
  ttlSeconds := ttlSeconds
  createdAt := now
  statusChangedAt := some now
  startedAt := none
  expiresAt := none
  stoppedAt := none
  errorMessage := none
  celeryTaskId := none

/-- PostgreSQL stores a text of at most the declared width and without a null character. -/
def fitsColumn (width : Nat) (text : String) : Bool :=
  text.length ≤ width && '\x00' ∉ text.toList

/-- What an insert has to respect: the declared columns of the texts. -/
def fitsColumns (env : Environment) : Bool :=
  fitsColumn 100 env.name && fitsColumn 100 env.owner && fitsColumn 50 env.template

/-- The error for a text with a null character. -/
def nullByte : String :=
  "invalid byte sequence for encoding \"UTF8\": 0x00"

/-- The error for a row that does not fit; null characters are found before widths. -/
def misfit (env : Environment) : String :=
  if [env.name, env.owner, env.template].any fun text => '\x00' ∈ text.toList then nullByte
  else "value too long for type character varying"

/-- The value a column holds after a flush: what the session set, if that
differs from what the session loaded, and otherwise what is stored. -/
def column {α : Type} [DecidableEq α] (seen now stored : α) : α :=
  if now = seen then stored else now

/-- `UPDATE ... WHERE id = ...` with the changed columns only. -/
def flush (stored seen now : Environment) : Environment where
  id := stored.id
  name := column seen.name now.name stored.name
  owner := column seen.owner now.owner stored.owner
  status := column seen.status now.status stored.status
  template := column seen.template now.template stored.template
  containerIds := column seen.containerIds now.containerIds stored.containerIds
  networkId := column seen.networkId now.networkId stored.networkId
  hostPort := column seen.hostPort now.hostPort stored.hostPort
  ttlSeconds := column seen.ttlSeconds now.ttlSeconds stored.ttlSeconds
  createdAt := column seen.createdAt now.createdAt stored.createdAt
  statusChangedAt :=
    column seen.statusChangedAt now.statusChangedAt stored.statusChangedAt
  startedAt := column seen.startedAt now.startedAt stored.startedAt
  expiresAt := column seen.expiresAt now.expiresAt stored.expiresAt
  stoppedAt := column seen.stoppedAt now.stoppedAt stored.stoppedAt
  errorMessage := column seen.errorMessage now.errorMessage stored.errorMessage
  celeryTaskId := column seen.celeryTaskId now.celeryTaskId stored.celeryTaskId

section Columns

variable {α : Type} [DecidableEq α] {seen now stored : α}

/-- A column that the session did not change keeps its stored value. -/
@[simp] theorem column_self : column seen seen stored = stored :=
  if_pos rfl

theorem column_of_ne (changed : now ≠ seen) : column seen now stored = now :=
  if_neg changed

/-- A flushed column holds the stored value or the session's. -/
theorem column_eq_or (seen now stored : α) : column seen now stored = stored ∨
    (now ≠ seen ∧ column seen now stored = now) := by
  by_cases same : now = seen
  · exact .inl (if_pos same)
  · exact .inr ⟨same, column_of_ne same⟩

/-- A session that still sees the stored value stores its own. -/
@[simp] theorem column_fresh : column stored now stored = now := by
  by_cases same : now = stored
  · rw [same, column_self]
  · exact column_of_ne same

end Columns

@[simp] theorem flush_id {stored seen now : Environment} :
    (stored.flush seen now).id = stored.id := rfl

/-- A status that the session changed is stored. -/
theorem status_flush {stored seen now : Environment} (differs : now.status ≠ seen.status) :
    (stored.flush seen now).status = now.status :=
  column_of_ne differs

/-- Writing back over the row that was loaded stores the session's row. -/
theorem flush_fresh {stored now : Environment} (same : now.id = stored.id) :
    stored.flush stored now = now := by
  cases now
  simp only [flush, column_fresh]
  rw [← same]

@[simp] theorem setStatus_id {env : Environment} {status : EnvironmentStatus}
    {now : Time} : (env.setStatus status now).id = env.id := rfl

@[simp] theorem setStatus_status {env : Environment} {status : EnvironmentStatus}
    {now : Time} : (env.setStatus status now).status = status := rfl

end Environment

/-- The committed rows. -/
abbrev Environments := Keyed.Table Uuid Environment Environment.id

/-- A session's copy of a row: as it was loaded, and as it is now. -/
structure Change where
  seen : Environment
  now : Environment
  deriving DecidableEq

namespace Environments

/-- Write one changed row back by primary key. -/
def write (db : Environments) (change : Change) : Environments :=
  db.update change.seen.id (fun row => row.flush change.seen change.now)
    fun _ => rfl

/-- Write the changed rows of one transaction back. -/
def writeAll (db : Environments) (changes : List Change) : Environments :=
  changes.foldl write db

/-- How many rows of an owner count against the quota. -/
def activeCount (db : Environments) (owner : String) : Nat :=
  db.rows.countP fun row => row.owner = owner ∧ row.active

/-- The active rows of an owner with a given name. -/
def activeNamed (db : Environments) (owner name : String) : List Environment :=
  db.rows.filter fun row => row.owner = owner ∧ row.name = name ∧ row.active

variable {db : Environments} {change : Change} {changes : List Change}
  {id : Uuid} {row row' : Environment}

@[simp] theorem writeAll_nil : db.writeAll [] = db := rfl

@[simp] theorem writeAll_cons :
    db.writeAll (change :: changes) = (db.write change).writeAll changes := rfl

theorem find_write :
    (db.write change).find id =
      if id = change.seen.id then
        (db.find id).map fun row => row.flush change.seen change.now
      else db.find id :=
  Keyed.Table.find_update

/-- Looking a row up after a transaction applies its changes to that row, in
order. -/
theorem find_writeAll :
    (db.writeAll changes).find id =
      (db.find id).map fun row =>
        (changes.filter fun change => change.seen.id = id).foldl
          (fun row change => row.flush change.seen change.now) row := by
  induction changes generalizing db with
  | nil => simp
  | cons change changes inductionHypothesis =>
      rw [writeAll_cons, inductionHypothesis, find_write]
      by_cases same : id = change.seen.id
      · simp [same, Option.map_map, Function.comp_def]
      · have different : ¬change.seen.id = id := fun equal => same equal.symm
        simp [same, different]

/-- Writing a single change flushes it over the stored row. -/
theorem find_writeAll_single (own : change.seen.id = id) (found : db.find id = some row) :
    (db.writeAll [change]).find id = some (row.flush change.seen change.now) := by
  rw [writeAll_cons, writeAll_nil, find_write, if_pos own.symm, found]
  rfl

/-- What a transaction does to one column of one row: nothing, or it stores
the value of a change to that row that differs from the value loaded. -/
theorem column_writeAll {α : Type} [DecidableEq α]
    (project : Environment → α)
    (projects : ∀ stored seen now : Environment,
      project (stored.flush seen now) =
        Environment.column (project seen) (project now) (project stored))
    (found : db.find id = some row)
    (written : (db.writeAll changes).find id = some row') :
    project row' = project row ∨
      ∃ change ∈ changes, change.seen.id = id ∧
        project change.now ≠ project change.seen ∧
        project row' = project change.now := by
  induction changes generalizing db row with
  | nil =>
      rw [writeAll_nil, found] at written
      cases written
      exact .inl rfl
  | cons change changes inductionHypothesis =>
      rw [writeAll_cons] at written
      have afterFirst : (db.write change).find id =
          if id = change.seen.id then
            (db.find id).map fun row => row.flush change.seen change.now
          else db.find id := find_write
      rw [found] at afterFirst
      by_cases same : id = change.seen.id
      · rw [if_pos same] at afterFirst
        rcases inductionHypothesis afterFirst written with kept | later
        · rw [projects] at kept
          have flushed : Environment.column (project change.seen) (project change.now)
                (project row) = project row ∨
              (project change.now ≠ project change.seen ∧
                Environment.column (project change.seen) (project change.now)
                  (project row) = project change.now) := Environment.column_eq_or _ _ _
          rcases flushed with stored | ⟨changed, new⟩
          · exact .inl (kept.trans stored)
          · exact .inr ⟨change, by simp, same.symm, changed, kept.trans new⟩
        · obtain ⟨other, present, rest⟩ := later
          exact .inr ⟨other, by simp [present], rest⟩
      · rw [if_neg same] at afterFirst
        rcases inductionHypothesis afterFirst written with kept | later
        · exact .inl kept
        · obtain ⟨other, present, rest⟩ := later
          exact .inr ⟨other, by simp [present], rest⟩

/-- The status column after a transaction. -/
theorem status_writeAll
    (found : db.find id = some row)
    (written : (db.writeAll changes).find id = some row') :
    row'.status = row.status ∨
      ∃ change ∈ changes, change.seen.id = id ∧
        change.now.status ≠ change.seen.status ∧
        row'.status = change.now.status :=
  column_writeAll Environment.status (fun _ _ _ => rfl) found written

end Environments

end Provisioner
