import Provisioner.Auth
import Provisioner.Authority
import Provisioner.Principals

/-!
# The gate

The Docker socket is root-equivalent on the host, so every route that touches an environment
first resolves the `X-API-Key` header to a principal. A service may see several values of
`API_KEYS` in its life. If each of its requests was let in under one of them, then every row
belongs to the holder of a key that one of them lists, and so does every container and every
network on the host. Where none of them lists a key, nothing is ever created.
-/

namespace Provisioner

open Resumption

namespace Gate

variable {deployment : Deployment} {refuses : Bool}
  {allowed : System → Occurrence → Prop} {config : System}
  {configured : Set String} {principal : String}

/-- Each request was let in under one of the configurations. -/
def Gated (configured : Set String) (allowed : System → Occurrence → Prop) : Prop :=
  ∀ config request, allowed config (.ambient (.request request)) →
    ∃ raw ∈ configured, ∃ header,
      Auth.requirePrincipal raw header = .ok (Principals.requester request)

/-- A configuration that the service accepts lists a key of the principal. -/
structure Lists (raw principal key : String) : Prop where
  wellFormed : ∀ entry ∈ Auth.entries raw, ¬entry.Malformed
  distinct : ((Auth.entries raw).map Auth.Credential.key).Nodup
  listed : ⟨key, some principal⟩ ∈ Auth.entries raw

/-- The principal has a name, and one of the configurations lists a key of it that is long
enough. -/
def Keyholder (configured : Set String) (principal : String) : Prop :=
  principal ≠ "" ∧
    ∃ raw ∈ configured, ∃ key, Lists raw principal key ∧ Auth.minKeyLength ≤ key.length

/-- A listed key is long enough, and its principal has a name. -/
theorem Lists.strong {raw key : String} (lists : Lists raw principal key) :
    Auth.minKeyLength ≤ key.length ∧ principal ≠ "" := by
  have fine := lists.wellFormed _ lists.listed
  constructor
  · by_contra short
    exact fine (.inr (.inr (.inr (Nat.lt_of_not_le short))))
  · rintro rfl
    exact fine (.inr (.inr (.inl rfl)))

/-- Who is let in presented a listed key. -/
theorem lists_of_granted {raw : String} {header : Option String}
    (granted : Auth.requirePrincipal raw header = .ok principal) :
    ∃ key, header = some key ∧ Lists raw principal key := by
  cases parsed : Auth.parse raw with
  | error exc =>
      unfold Auth.requirePrincipal at granted
      rw [parsed] at granted
      cases granted
  | ok keys =>
      obtain ⟨wellFormed, distinct, -⟩ := Auth.parse_iff.mp parsed
      have decides := Auth.decides_of_parse parsed header
      rw [granted] at decides
      cases decides with
      | granted key _ shown listed => exact ⟨key, shown, wellFormed, distinct, listed⟩

/-- A thread that was started for a request was started for a keyholder. -/
def Admitted (configured : Set String) (job : Job) : Prop :=
  ∀ request, job.role = .request request → Keyholder configured (Principals.requester request)

/-- A request of a gated service is made by a keyholder. -/
theorem Gated.keyholder (gated : Gated configured allowed) {request : Request}
    (permitted : allowed config (.ambient (.request request))) :
    Keyholder configured (Principals.requester request) := by
  obtain ⟨raw, member, header, granted⟩ := gated config request permitted
  obtain ⟨key, -, lists⟩ := lists_of_granted granted
  obtain ⟨long, named⟩ := lists.strong
  exact ⟨named, raw, member, key, lists, long⟩

/-- All threads of a gated service are admitted. -/
theorem admitted_of_runs (gated : Gated configured allowed)
    (run : System.Runs deployment refuses allowed config) :
    ∀ job ∈ config.threads, Admitted configured job := by
  refine run.invariant (fun config => ∀ job ∈ config.threads, Admitted configured job)
    (fun _ member => (List.not_mem_nil member).elim) ?_ ?_ ?_
  · intro config action next spawned _ admitted permitted surrounds job member
    rcases List.mem_append.mp member with old | started
    · exact admitted job old
    · obtain ⟨role, starts, rfl⟩ := Option.mem_map.mp (Option.mem_toList.mp started)
      rintro request (rfl : role = .request request)
      -- Only a request starts a thread of this role.
      cases surrounds with
      | request => cases starts; exact gated.keyholder permitted
      | tick | beat | deliver | redeliver => cases starts
  · intro config index job _ admitted _ found _
    exact forall_mem_set admitted (admitted job (List.mem_of_getElem? found))
  · intro config index job request resume choice reply next _ admitted _ found _ _ _ _
    exact forall_mem_set admitted (admitted job (List.mem_of_getElem? found))

/-- The owner of a row presented a key when the row was created. -/
theorem owner_keyholder (gated : Gated configured allowed)
    (run : System.Runs deployment refuses allowed config) :
    ∀ row ∈ config.state.db.rows, Keyholder configured row.owner := by
  intro row member
  obtain ⟨index, job, payload, env, located, born⟩ :=
    Authority.originates_of_runs run row.id row (config.state.db.find_of_mem member)
  exact admitted_of_runs gated run job (List.mem_of_getElem? located) _ born.creates.role

/-- Nothing is created without a key. In every run of a gated service, each row belongs to a
keyholder, and each container and network belongs to the row of a keyholder. -/
theorem keyholders (gated : Gated configured allowed)
    (run : System.Runs deployment refuses allowed config) :
    (∀ row ∈ config.state.db.rows, Keyholder configured row.owner) ∧
      (∀ container ∈ config.state.docker.containers.rows, ∃ row ∈ config.state.db.rows,
        container.envLabel = some row.id.str ∧ Keyholder configured row.owner) ∧
      ∀ network ∈ config.state.docker.networks.rows, ∃ row ∈ config.state.db.rows,
        network.envLabel = some row.id.str ∧ Keyholder configured row.owner := by
  have owners := owner_keyholder gated run
  have integrity := (Integrity.of_runs run).1
  refine ⟨owners, fun container member => ?_, fun network member => ?_⟩
  · obtain ⟨-, row, stored, template, spec, -, -, label, -⟩ := integrity.containers container member
    exact ⟨row, stored, label, owners row stored⟩
  · obtain ⟨-, row, stored, label, -⟩ := integrity.networks network member
    exact ⟨row, stored, label, owners row stored⟩

/-- Where no configuration lists a key, nothing ever exists. -/
theorem barren (gated : Gated configured allowed)
    (run : System.Runs deployment refuses allowed config)
    (closed : ∀ principal, ¬Keyholder configured principal) :
    config.state.db.rows = [] ∧ config.state.docker.containers.rows = [] ∧
      config.state.docker.networks.rows = [] := by
  have integrity := (Integrity.of_runs run).1
  have owned : ∀ row ∈ config.state.db.rows, False := by
    intro row member
    exact closed row.owner (owner_keyholder gated run row member)
  refine ⟨List.eq_nil_iff_forall_not_mem.mpr owned,
    List.eq_nil_iff_forall_not_mem.mpr fun container member => ?_,
    List.eq_nil_iff_forall_not_mem.mpr fun network member => ?_⟩
  · obtain ⟨-, row, stored, -⟩ := integrity.containers container member
    exact owned row stored
  · obtain ⟨-, row, stored, -⟩ := integrity.networks network member
    exact owned row stored

/-- A configuration with one entry. -/
def localKeys : String := "k_local_dev_0123456789:alice"

/-- Only alice makes requests. -/
def ByAlice (_ : System) : Occurrence → Prop
  | .ambient (.request request) => Principals.requester request = "alice"
  | _ => True

instance (config : System) : ∀ event, Decidable (ByAlice config event)
  | .ambient (.request request) =>
      inferInstanceAs (Decidable (Principals.requester request = "alice"))
  | .ambient (.tick _) | .ambient (.beat _) | .ambient (.deliver _)
  | .ambient (.redeliver _) | .advance _ _ | .kill _ => inferInstanceAs (Decidable True)

/-- The key of alice lets her in. -/
theorem gated_byAlice : Gated {localKeys} ByAlice := by
  intro config request alice
  refine ⟨localKeys, rfl, some "k_local_dev_0123456789", ?_⟩
  rw [show Principals.requester request = "alice" from alice]
  rfl

theorem keyholders_of_firstAttempt :
    ∃ config : System, System.Runs Compose.shipped true ByAlice config ∧
      config.state.docker.containers.rows.length = 2 ∧
      (∀ row ∈ config.state.db.rows, Keyholder {localKeys} row.owner) ∧
      (∀ container ∈ config.state.docker.containers.rows, ∃ row ∈ config.state.db.rows,
        container.envLabel = some row.id.str ∧ Keyholder {localKeys} row.owner) ∧
      ∀ network ∈ config.state.docker.networks.rows, ∃ row ∈ config.state.db.rows,
        network.envLabel = some row.id.str ∧ Keyholder {localKeys} row.owner := by
  have shown : ((System.initial true).run (machine Compose.shipped) ByAlice
      Sample.firstAttempt).map (fun config => config.state.docker.containers.rows.length) =
        some 2 := by
    decide +kernel
  obtain ⟨config, run, two⟩ := Run.exists_run shown
  exact ⟨config, run, two, keyholders gated_byAlice run⟩

end Gate

end Provisioner
