import Provisioner.Alone
import Provisioner.Resumption.Scripted
import Mathlib.Data.Prod.Lex

/-!
# What STOPPED says about Docker

`remove_resources` logs the exceptions of the daemon and goes on, so a teardown
commits STOPPED whatever the daemon answers. How the daemon answers is a script: for each
recorded resource, which of the requests about it are served. The recorded resources are
gone exactly when the script serves all requests about each of them that exists, and
nothing else is attached to the recorded network.
-/

namespace Provisioner

open Resumption

/-- A resource exists. -/
def Daemon.has (daemon : Daemon) : Resource → Bool
  | .container id => (daemon.containers.find id).isSome
  | .network id => (daemon.networks.find id).isSome

section Has

variable {daemon : Daemon} {resource : Resource}

/-- Creating a network makes it exist. -/
theorem has_addNetwork {name : String} {label : Option String} {now : Time} :
    (daemon.addNetwork name label now).has resource = true ↔
      daemon.has resource = true ∨ resource = .network daemon.nextId := by
  cases resource with
  | container id => simp [Daemon.has]
  | network id =>
      simp only [Daemon.has, Daemon.addNetwork, Keyed.Table.find_insert, Resource.network.injEq]
      split
      · rename_i same
        simp [same]
      · rename_i different
        simp [Ne.symm different]

/-- Creating a container makes it exist. -/
theorem has_addContainer {request : Compose.RunRequest} {network : Option DockerId}
    {now : Time} (free : daemon.nameTaken request.name = false) :
    (daemon.addContainer request network now free).has resource = true ↔
      daemon.has resource = true ∨ resource = .container daemon.nextId := by
  cases resource with
  | network id => simp [Daemon.has]
  | container id =>
      simp only [Daemon.has, Daemon.addContainer, Keyed.Table.find_insert,
        Resource.container.injEq, Daemon.newContainer]
      split
      · rename_i same
        simp [same]
      · rename_i different
        simp [Ne.symm different]

/-- Removing a container leaves everything else. -/
theorem has_removeContainer {id : DockerId} :
    (daemon.removeContainer id).has resource = true ↔
      daemon.has resource = true ∧ resource ≠ .container id := by
  cases resource with
  | network other => simp [Daemon.has]
  | container other =>
      simp only [Daemon.has, Daemon.removeContainer, Keyed.Table.find_erase, ne_eq,
        Resource.container.injEq]
      split
      · rename_i same
        simp [same]
      · rename_i different
        simp [different]

/-- Removing a network leaves everything else. -/
theorem has_removeNetwork {id : DockerId} :
    (daemon.removeNetwork id).has resource = true ↔
      daemon.has resource = true ∧ resource ≠ .network id := by
  cases resource with
  | container other => simp [Daemon.has]
  | network other =>
      simp only [Daemon.has, Daemon.removeNetwork, Keyed.Table.find_erase, ne_eq,
        Resource.network.injEq]
      split
      · rename_i same
        simp [same]
      · rename_i different
        simp [different]

end Has

/-- The id that the daemon gave to a resource. -/
def Resource.id : Resource → DockerId
  | .container id | .network id => id

/-- The id of a resource was given out. -/
def Resource.Issued (daemon : Daemon) (resource : Resource) : Prop :=
  resource.id < daemon.nextId

namespace Teardown

variable {deployment : Deployment} {granted : World → Call → Choice → Prop}
  {world next last : World} {resource : Resource}

/-- Only the daemon is allowed to fail. -/
def DaemonFails (_ : World) (request : Call) (choice : Choice) : Prop :=
  request.target = .docker ∨ choice.succeeds = true

instance (world : World) (request : Call) (choice : Choice) :
    Decidable (DaemonFails world request choice) :=
  inferInstanceAs (Decidable (_ ∨ _))

/-- An existing resource was given its id. -/
theorem issued_of_has (has : world.docker.has resource = true) :
    resource.Issued world.docker := by
  cases resource with
  | container id =>
      obtain ⟨container, found⟩ := Option.isSome_iff_exists.mp has
      obtain ⟨present, rfl⟩ := Keyed.Table.find_eq_some_iff.mp found
      exact world.docker.containerIssued container present
  | network id =>
      obtain ⟨network, found⟩ := Option.isSome_iff_exists.mp has
      obtain ⟨present, rfl⟩ := Keyed.Table.find_eq_some_iff.mp found
      exact world.docker.networkIssued network present

/-- Ids are not given out again. -/
theorem gone_of_gone {request : Call} {reply : Reply request}
    (gone : ¬world.docker.has resource = true)
    (issued : resource.Issued world.docker)
    (effect : world.Effect request reply next) :
    ¬next.docker.has resource = true ∧ resource.Issued next.docker := by
  cases effect with
  | networkCreated name label =>
      refine ⟨fun has => ?_, Nat.lt_succ_of_lt issued⟩
      rcases has_addNetwork.mp has with old | rfl
      · exact gone old
      · exact Nat.lt_irrefl _ issued
  | containerCreated request _ network free =>
      refine ⟨fun has => ?_, Nat.lt_succ_of_lt issued⟩
      rcases (has_addContainer free).mp has with old | rfl
      · exact gone old
      · exact Nat.lt_irrefl _ issued
  | containerRemoved id present =>
      exact ⟨fun has => gone (has_removeContainer.mp has).1, issued⟩
  | networkRemoved id present idle =>
      exact ⟨fun has => gone (has_removeNetwork.mp has).1, issued⟩
  | _ => exact ⟨gone, issued⟩

/-- The claim of STOPPED: either the row is STOPPED and its resources are gone, or
the attempt ended in a retry, or the row is FAILED. -/
def Honest (last : World) (id : Uuid) (recorded : List Resource)
    (result : Except Exn Answer) : Prop :=
  ∃ row, last.db.find id = some row ∧
    if row.status = .stopped then
      ∀ resource ∈ recorded, ¬last.docker.has resource = true
    else row.status = .failed ∨ ∃ exc, result = .error exc ∧ exc.cls = .retry

/-! ## The answers of the daemon -/

/-- Where the answer to a request stands: the resources that the attempt has turned to are
counted from one, and the requests about each of them from zero. -/
structure Place where
  resource : Nat
  request : Nat
  deriving DecidableEq

instance : Preorder Place :=
  .lift fun place => toLex (place.resource, place.request)

/-- Each `get` turns to the next resource. -/
def move (place : Place) : Call → Option Place
  | .containerGet _ | .networkGet _ => some ⟨place.resource + 1, 0⟩
  | .containerStop _ | .containerRemove _ | .networkRemove _ =>
      some ⟨place.resource, place.request + 1⟩
  | _ => none

theorem lt_of_move {place next : Place} {request : Call} (moves : next ∈ move place request) :
    place < next := by
  have turned : place < ⟨place.resource + 1, 0⟩ :=
    Prod.Lex.toLex_lt_toLex.mpr (.inl (Nat.lt_succ_self _))
  have asked : place < ⟨place.resource, place.request + 1⟩ :=
    Prod.Lex.toLex_lt_toLex.mpr (.inr ⟨rfl, Nat.lt_succ_self _⟩)
  cases request <;> cases moves <;> assumption

/-- The world as a lone teardown sees it whose requests the daemon answers by a script. -/
abbrev scripted (deployment : Deployment) (script : Place → Choice) :
    Service (World × Place) Call Reply :=
  (machine deployment).scripted DaemonFails move script

/-- The script serves the first requests about a resource. -/
def Serves (script : Place → Choice) (resource count : Nat) : Prop :=
  ∀ request < count, script ⟨resource, request⟩ = .ok

/-- The script serves all requests about a container at one of the places at which it is
listed, behind the resources `before`. -/
def Clears (script : Place → Choice) (before : Nat) (ids : List DockerId) (id : DockerId) :
    Prop :=
  ∃ index, ids[index]? = some id ∧ Serves script (before + index + 1) 3

/-- The script serves all requests about each recorded resource that exists, and nothing
else is attached to the recorded network. -/
structure Removable (script : Place → Choice) (docker : Daemon)
    (containerIds : List DockerId) (networkId : Option DockerId) : Prop where
  containers : ∀ id ∈ containerIds, docker.has (.container id) = true →
    Clears script 0 containerIds id
  network : ∀ id, networkId = some id → docker.has (.network id) = true →
    Serves script (containerIds.length + 1) 2 ∧
      ∀ container ∈ docker.containers.rows, container.network = some id →
        container.id ∈ containerIds

variable {script : Place → Choice} {state : World × Place} {place : Place}

/-- The rule for one call. -/
theorem scripted_meets {request : Call}
    {post : World × Place → Except Exn request.Result → Prop}
    (continues : ∀ choice (reply : Reply request) next,
      DaemonFails state.1 request choice →
      state.1.exec request choice = some (reply, next) →
      (∀ place ∈ move state.2 request, choice = script place) →
      post (next, (move state.2 request).getD state.2) reply) :
    (perform request).Meets (scripted deployment script) post state := by
  refine ⟨trivial, ?_⟩
  rintro reply ⟨next, place⟩ ⟨choice, allowed, executed, moved, taken⟩
  have moved : place = (move state.2 request).getD state.2 := moved
  subst moved
  have met := continues choice reply next allowed executed taken
  cases reply with
  | ok value => exact met
  | error exc => exact met

/-- The rule for a call to another service than the daemon. -/
theorem plain_meets {request : Call}
    {post : World × Place → Except Exn request.Result → Prop}
    (plain : request.plain = true)
    (other : decide (request.target = .docker) = false)
    (continues : ∀ value next, state.1.Effect request (.ok value) next →
      post (next, state.2) (.ok value)) :
    (perform request).Meets (scripted deployment script) post state := by
  have still : move state.2 request = none := by
    cases request <;> first | rfl | cases other
  refine scripted_meets fun choice reply next allowed executed _ => ?_
  have succeeds := allowed.resolve_left (of_decide_eq_false other)
  obtain ⟨value, rfl⟩ := Alone.ok_of_plain plain succeeds executed
  rw [still]
  exact continues value next (World.exec_effect executed)

/-- The rule for a request about a resource: it is served, or it fails without effect. -/
theorem ask_meets {request : Call} {resource : Resource}
    {post : World × Place → Except Exn request.Result → Prop}
    (about : request.about resource)
    (moves : move state.2 request = some place)
    (served : script place = .ok → ∀ (reply : Reply request) next,
      state.1.succeed request = some (reply, next) → post (next, place) reply)
    (failed : script place ≠ .ok → ∀ exc, post (state.1, place) (.error exc)) :
    (perform request).Meets (scripted deployment script) post state := by
  refine scripted_meets fun choice reply next _ executed taken => ?_
  have same : choice = script place := taken place moves
  rw [moves]
  cases choice with
  | ok => exact served same.symm reply next executed
  | fail exc =>
      have fails : script place ≠ .ok := by
        rw [← same]
        nofun
      simp only [World.exec] at executed
      split at executed
      · cases executed
        exact failed fails exc
      · cases executed
  | failAfter exc =>
      simp only [World.exec] at executed
      split at executed
      · cases request <;> first | cases executed | exact about.elim
      · cases executed
  | _ => cases request <;> first | cases executed | exact about.elim

/-! ## What is left -/

theorem has_container {docker : Daemon} {id : DockerId} :
    docker.has (.container id) = true ↔
      ∃ container ∈ docker.containers.rows, container.id = id := by
  constructor
  · intro has
    obtain ⟨container, found⟩ := Option.isSome_iff_exists.mp has
    exact ⟨container, Keyed.Table.find_eq_some_iff.mp found⟩
  · rintro ⟨container, present, same⟩
    exact Option.isSome_iff_exists.mpr
      ⟨container, Keyed.Table.find_eq_some_iff.mpr ⟨present, same⟩⟩

theorem serves_two {resource : Nat} : Serves script resource 2 ↔
    script ⟨resource, 0⟩ = .ok ∧ script ⟨resource, 1⟩ = .ok := by
  unfold Serves
  rw [Nat.forall_lt_succ_right, Nat.forall_lt_succ_right]
  simp

theorem serves_three {resource : Nat} : Serves script resource 3 ↔
    script ⟨resource, 0⟩ = .ok ∧ script ⟨resource, 1⟩ = .ok ∧ script ⟨resource, 2⟩ = .ok := by
  unfold Serves
  rw [Nat.forall_lt_succ_right]
  rw [← Serves, serves_two, and_assoc]

/-- A listed container is cleared at the first place or at a later one. -/
theorem clears_cons {before : Nat} {ids : List DockerId} {id other : DockerId} :
    Clears script before (id :: ids) other ↔
      (id = other ∧ Serves script (before + 1) 3) ∨ Clears script (before + 1) ids other := by
  constructor
  · rintro ⟨index, listed, serves⟩
    cases index with
    | zero => exact .inl ⟨Option.some.inj listed, serves⟩
    | succ index =>
        refine .inr ⟨index, listed, ?_⟩
        rwa [show before + 1 + index + 1 = before + (index + 1) + 1 by omega]
  · rintro (⟨rfl, serves⟩ | ⟨index, listed, serves⟩)
    · exact ⟨0, rfl, serves⟩
    · refine ⟨index + 1, listed, ?_⟩
      rwa [show before + (index + 1) + 1 = before + 1 + index + 1 by omega]

/-- The only listed container. -/
theorem clears_singleton {before : Nat} {id other : DockerId} :
    Clears script before [id] other ↔ id = other ∧ Serves script (before + 1) 3 := by
  rw [clears_cons]
  refine or_iff_left ?_
  rintro ⟨index, listed, -⟩
  cases listed

/-- The containers that the script clears are gone, and everything else is as before. -/
structure Left (script : Place → Choice) (before : Nat) (ids : List DockerId)
    (world reached : World) : Prop where
  db : reached.db = world.db
  networks : reached.docker.networks = world.docker.networks
  containers : ∀ container, container ∈ reached.docker.containers.rows ↔
    container ∈ world.docker.containers.rows ∧ ¬Clears script before ids container.id

/-- A container that is not served stays. -/
theorem left_of_unserved {before : Nat} {id : DockerId}
    (unserved : ¬Serves script (before + 1) 3) : Left script before [id] world world := by
  refine ⟨rfl, rfl, fun container => (and_iff_left ?_).symm⟩
  rw [clears_singleton]
  exact fun clears => unserved clears.2

/-- A container that does not exist cannot be removed. -/
theorem left_of_missing {before : Nat} {id : DockerId}
    (missing : ¬(world.docker.containers.find id).isSome = true) :
    Left script before [id] world world := by
  refine ⟨rfl, rfl, fun container => (and_iff_left_of_imp fun present => ?_).symm⟩
  rw [clears_singleton]
  rintro ⟨rfl, -⟩
  exact missing (has_container.mpr ⟨container, present, rfl⟩)

/-- A container is gone exactly if it did not exist or the script clears it. -/
theorem Left.gone_iff {before : Nat} {ids : List DockerId} {reached : World} {id : DockerId}
    (left : Left script before ids world reached) :
    ¬reached.docker.has (.container id) = true ↔
      (world.docker.has (.container id) = true → Clears script before ids id) := by
  rw [has_container, has_container]
  constructor
  · rintro gone ⟨container, present, rfl⟩
    by_contra stays
    exact gone ⟨container, (left.containers container).mpr ⟨present, stays⟩, rfl⟩
  · rintro clears ⟨container, kept, rfl⟩
    obtain ⟨present, stays⟩ := (left.containers container).mp kept
    exact stays (clears ⟨container, present, rfl⟩)

/-- The body of the loop over containers removes the container exactly if it is served. -/
theorem removeContainer_meets (id : DockerId) :
    (DockerManager.removeContainer id).Meets (scripted deployment script)
      (fun reached result => result = .ok () ∧
        reached.2.resource = state.2.resource + 1 ∧
        Left script state.2.resource [id] state.1 reached.1) state := by
  have get : (Call.containerGet id).about (.container id) := rfl
  have stop : (Call.containerStop id).about (.container id) := rfl
  have remove : (Call.containerRemove id).about (.container id) := rfl
  unfold DockerManager.removeContainer
  refine Program.meets_tryCatch.mpr (Program.meets_bind.mpr (ask_meets get rfl ?_ ?_))
  · intro first reply next answered
    simp only [World.succeed, World.onContainer] at answered
    split at answered
    · rename_i present
      cases answered
      refine Program.meets_bind.mpr (ask_meets stop rfl ?_ ?_)
      · intro second reply next answered
        simp only [World.succeed, World.onContainer, if_pos present] at answered
        cases answered
        refine ask_meets remove rfl ?_ ?_
        · intro third reply next answered
          simp only [World.succeed, World.containerRemove, if_pos present] at answered
          cases answered
          refine ⟨rfl, rfl, rfl, rfl, fun container => ?_⟩
          rw [Daemon.mem_removeContainer, clears_singleton]
          exact and_congr_right fun _ => not_congr
            ⟨fun same => ⟨same.symm, serves_three.mpr ⟨first, second, third⟩⟩,
              fun clears => clears.1.symm⟩
        · exact fun fails exc => ⟨rfl, rfl, left_of_unserved fun serves =>
            fails (serves_three.mp serves).2.2⟩
      · exact fun fails exc => ⟨rfl, rfl, left_of_unserved fun serves =>
          fails (serves_three.mp serves).2.1⟩
    · rename_i missing
      cases answered
      exact ⟨rfl, rfl, left_of_missing missing⟩
  · exact fun fails exc => ⟨rfl, rfl, left_of_unserved fun serves =>
      fails (serves_three.mp serves).1⟩

/-- The loop over the containers removes those that the script clears. -/
theorem removeContainers_meets (ids : List DockerId) :
    (Program.forEach DockerManager.removeContainer ids).Meets (scripted deployment script)
      (fun reached result => result = .ok () ∧
        reached.2.resource = state.2.resource + ids.length ∧
        Left script state.2.resource ids state.1 reached.1) state := by
  induction ids generalizing state with
  | nil =>
      refine ⟨rfl, rfl, rfl, rfl, fun container => (and_iff_left ?_).symm⟩
      rintro ⟨index, listed, -⟩
      cases listed
  | cons id ids inductionHypothesis =>
      refine Program.meets_bind.mpr ((removeContainer_meets id).mono ?_)
      rintro middle result ⟨rfl, moved, first⟩
      refine (@inductionHypothesis middle).mono ?_
      rintro reached result ⟨rfl, far, rest⟩
      rw [moved] at far rest
      refine ⟨rfl, ?_, rest.db.trans first.db, rest.networks.trans first.networks,
        fun container => ?_⟩
      · rw [far, List.length_cons]
        omega
      · rw [rest.containers, first.containers, clears_singleton, clears_cons, not_or,
          and_assoc]

/-- The body of the loop over networks removes the network exactly if it is served and
nothing is attached to it. -/
theorem removeNetwork_meets (id : DockerId) :
    (DockerManager.removeNetwork id).Meets (scripted deployment script)
      (fun reached result => result = .ok () ∧ reached.1.db = state.1.db ∧
        reached.1.docker.containers = state.1.docker.containers ∧
        (reached.1.docker.has (.network id) = true ↔
          state.1.docker.has (.network id) = true ∧
            ¬(Serves script (state.2.resource + 1) 2 ∧
              state.1.docker.attached id = false))) state := by
  have get : (Call.networkGet id).about (.network id) := rfl
  have remove : (Call.networkRemove id).about (.network id) := rfl
  unfold DockerManager.removeNetwork
  refine Program.meets_tryCatch.mpr (Program.meets_bind.mpr (ask_meets get rfl ?_ ?_))
  · intro first reply next answered
    simp only [World.succeed, World.onNetwork] at answered
    split at answered
    · rename_i present
      cases answered
      refine ask_meets remove rfl ?_ ?_
      · intro second reply next answered
        simp only [World.succeed, World.networkRemove, if_pos present] at answered
        split at answered
        · rename_i used
          cases answered
          refine ⟨rfl, rfl, rfl, (and_iff_left ?_).symm⟩
          rintro ⟨-, idle⟩
          rw [used] at idle
          cases idle
        · rename_i idle
          cases answered
          refine ⟨rfl, rfl, rfl, iff_of_false (fun has => (has_removeNetwork.mp has).2 rfl) ?_⟩
          rintro ⟨-, stays⟩
          exact stays ⟨serves_two.mpr ⟨first, second⟩, Bool.eq_false_iff.mpr idle⟩
      · exact fun fails exc => ⟨rfl, rfl, rfl, (and_iff_left fun removable =>
          fails (serves_two.mp removable.1).2).symm⟩
    · rename_i missing
      cases answered
      exact ⟨rfl, rfl, rfl, iff_of_false missing fun has => missing has.1⟩
  · exact fun fails exc => ⟨rfl, rfl, rfl, (and_iff_left fun removable =>
      fails (serves_two.mp removable.1).1).symm⟩

/-- Once all listed containers are gone, a network is idle exactly if only listed ones were
attached to it. -/
theorem idle_iff {ids : List DockerId} {reached : World} {id : DockerId}
    (left : Left script 0 ids world reached)
    (cleared : ∀ id ∈ ids, world.docker.has (.container id) = true →
      Clears script 0 ids id) :
    reached.docker.attached id = false ↔
      ∀ container ∈ world.docker.containers.rows, container.network = some id →
        container.id ∈ ids := by
  unfold Daemon.attached
  rw [List.any_eq_false]
  constructor
  · intro idle container present attached
    by_contra unlisted
    refine idle container ((left.containers container).mpr ⟨present, ?_⟩)
      (decide_eq_true attached)
    rintro ⟨index, listed, -⟩
    exact unlisted (List.mem_of_getElem? listed)
  · intro listed container kept attached
    obtain ⟨present, stays⟩ := (left.containers container).mp kept
    exact stays (cleared container.id (listed container present (of_decide_eq_true attached))
      (has_container.mpr ⟨container, present, rfl⟩))

/-- A teardown leaves nothing of what is recorded exactly if the script lets it. -/
theorem teardown_meets {containerIds : List DockerId} {networkId : Option DockerId}
    (begins : state.2.resource = 0) :
    (DockerManager.teardown containerIds networkId).Meets (scripted deployment script)
      (fun reached result => result = .ok () ∧ reached.1.db = state.1.db ∧
        ((∀ id ∈ containerIds, ¬reached.1.docker.has (.container id) = true) ∧
            (∀ id, networkId = some id → ¬reached.1.docker.has (.network id) = true) ↔
          Removable script state.1.docker containerIds networkId)) state := by
  unfold DockerManager.teardown DockerManager.removeResources
  refine Program.meets_bind.mpr ((removeContainers_meets containerIds).mono ?_)
  rintro middle result ⟨rfl, far, left⟩
  rw [begins] at far left
  have emptied : (∀ id ∈ containerIds, ¬middle.1.docker.has (.container id) = true) ↔
      ∀ id ∈ containerIds, state.1.docker.has (.container id) = true →
        Clears script 0 containerIds id :=
    forall_congr' fun id => imp_congr_right fun _ => left.gone_iff
  cases networkId with
  | none =>
      refine ⟨rfl, left.db, ?_⟩
      rw [emptied]
      exact ⟨fun gone => ⟨gone.1, nofun⟩, fun removable => ⟨removable.containers, nofun⟩⟩
  | some id =>
      refine Program.meets_bind.mpr ((removeNetwork_meets id).mono ?_)
      rintro reached result ⟨rfl, db, same, stays⟩
      have kept : ∀ id, reached.1.docker.has (.container id) =
          middle.1.docker.has (.container id) := by
        intro id
        unfold Daemon.has
        rw [same]
      have recorded : middle.1.docker.has (.network id) =
          state.1.docker.has (.network id) := by
        unfold Daemon.has
        rw [left.networks]
      refine ⟨rfl, db.trans left.db, ?_⟩
      simp only [kept, emptied, Option.some.injEq, forall_eq']
      rw [stays, recorded, far, Nat.zero_add]
      constructor
      · rintro ⟨cleared, gone⟩
        refine ⟨cleared, ?_⟩
        rintro id' listed has
        cases listed
        obtain ⟨serves, idle⟩ := not_not.mp fun stays => gone ⟨has, stays⟩
        exact ⟨serves, (idle_iff left cleared).mp idle⟩
      · rintro ⟨cleared, network⟩
        refine ⟨cleared, ?_⟩
        rintro ⟨has, stays⟩
        obtain ⟨serves, listed⟩ := network id rfl has
        exact stays ⟨serves, (idle_iff left cleared).mpr listed⟩

/-- While only the daemon fails, a teardown commits STOPPED, and it leaves nothing of what
is recorded exactly if the script lets it. -/
theorem teardownAttempt_meets {envId : String} {id : Uuid} {row : Environment}
    (parsed : Uuid.parse envId = some id)
    (found : state.1.db.find id = some row)
    (begins : state.2.resource = 0) :
    (Worker.teardownAttempt envId).Meets (scripted deployment script)
      (fun reached result => result = .ok (.tornDown envId) ∧
        (∃ row', reached.1.db.find id = some row' ∧ row'.status = .stopped) ∧
        ((∀ id ∈ row.containerIds, ¬reached.1.docker.has (.container id) = true) ∧
            (∀ id, row.networkId = some id → ¬reached.1.docker.has (.network id) = true) ↔
          Removable script state.1.docker row.containerIds row.networkId)) state := by
  unfold Worker.teardownAttempt
  rw [Worker.loadEnv_of_parse parsed]
  refine Program.meets_bind.mpr (Worker.during_meets.mpr
    (plain_meets rfl rfl fun loaded afterLoad effect => ?_))
  cases effect with
  | read _ _ reads =>
  have same : loaded = state.1.db.find id := reads
  rw [found] at same
  cases same
  refine Program.meets_bind.mpr (Worker.during_meets.mpr
    (plain_meets rfl rfl fun begun afterNow effect => ?_))
  cases effect with
  | read _ _ reads =>
  refine Program.meets_bind.mpr (Worker.during_meets.mpr
    (plain_meets rfl rfl fun done afterCommit effect => ?_))
  cases effect with
  | read _ _ reads => cases reads
  | committed _ =>
  refine Program.meets_bind.mpr (Worker.during_meets.mpr ((teardown_meets ?_).mono ?_))
  · exact begins
  rintro afterRemoval result ⟨rfl, kept, exact'⟩
  refine Program.meets_bind.mpr (Worker.during_meets.mpr
    (plain_meets rfl rfl fun changed afterChanged effect => ?_))
  cases effect with
  | read _ _ reads =>
  refine Program.meets_bind.mpr (Worker.during_meets.mpr
    (plain_meets rfl rfl fun stopped afterStopped effect => ?_))
  cases effect with
  | read _ _ reads =>
  refine Program.meets_bind.mpr (Worker.during_meets.mpr
    (plain_meets rfl rfl fun done afterCommit effect => ?_))
  cases effect with
  | read _ _ reads => cases reads
  | committed _ =>
  refine Program.meets_bind.mpr (Worker.during_meets.mpr
    (plain_meets rfl rfl fun done afterRecord effect => ?_))
  cases effect with
  | read _ _ reads => cases reads
  | recorded metric =>
  refine ⟨rfl, ?_, exact'⟩
  have own : row.id = id := Keyed.Table.key_of_find found
  have claimed : afterRemoval.1.db.find id =
      some (row.flush row (row.setStatus .stopping begun)) := by
    rw [kept]
    exact Environments.find_writeAll_single own found
  refine ⟨_, Environments.find_writeAll_single own claimed, ?_⟩
  rw [Environment.status_flush]
  · rfl
  · exact fun same => nomatch (same : EnvironmentStatus.stopped = .stopping)

/-- What is recorded is the containers and the network. -/
theorem forall_recorded {row : Environment} {holds : Resource → Prop} :
    (∀ resource ∈ row.recorded, holds resource) ↔
      (∀ id ∈ row.containerIds, holds (.container id)) ∧
        ∀ id, row.networkId = some id → holds (.network id) := by
  unfold Environment.recorded
  rw [List.forall_mem_append, List.forall_mem_map, List.forall_mem_map]
  simp only [Option.mem_toList]

/-- While only the daemon fails, every teardown follows a script of its answers; and it is
honest exactly when the script serves all requests about each recorded resource that exists,
and nothing else is attached to the recorded network. -/
theorem teardown_honest_iff {message : Message} {id : Uuid} {row : Environment}
    (parsed : Uuid.parse message.envId = some id)
    (found : world.db.find id = some row) :
    (∀ trace last result, Executes (lone deployment DaemonFails) world
        (Worker.teardownEnvironment message) trace last result →
      ∃ script reached, Executes (scripted deployment script) (world, ⟨0, 0⟩)
        (Worker.teardownEnvironment message) trace (last, reached) result) ∧
    ∀ script trace last result, Executes (scripted deployment script) (world, ⟨0, 0⟩)
        (Worker.teardownEnvironment message) trace last result →
      (Honest last.1 id row.recorded result ↔
        Removable script world.docker row.containerIds row.networkId) := by
  refine ⟨fun trace last result executed =>
    executed.exists_script (fun _ _ _ => lt_of_move) (fun _ => .ok) ⟨0, 0⟩, ?_⟩
  intro script trace last result executed
  have met : (Worker.teardownEnvironment message).Meets (scripted deployment script)
      (fun reached _ =>
        (∃ row', reached.1.db.find id = some row' ∧ row'.status = .stopped) ∧
        ((∀ id ∈ row.containerIds, ¬reached.1.docker.has (.container id) = true) ∧
            (∀ id, row.networkId = some id → ¬reached.1.docker.has (.network id) = true) ↔
          Removable script world.docker row.containerIds row.networkId)) (world, ⟨0, 0⟩) := by
    refine Program.meets_tryCatch.mpr ((teardownAttempt_meets parsed found rfl).mono ?_)
    rintro reached result ⟨rfl, rest⟩
    exact rest
  obtain ⟨⟨row', found', stopped⟩, exact'⟩ := executed.meets met
  have gone : (∀ resource ∈ row.recorded, ¬last.1.docker.has resource = true) ↔
      (∀ id ∈ row.containerIds, ¬last.1.docker.has (.container id) = true) ∧
        ∀ id, row.networkId = some id → ¬last.1.docker.has (.network id) = true :=
    forall_recorded
  rw [← exact', ← gone]
  unfold Honest
  constructor
  · rintro ⟨other, refound, claim⟩
    rw [found'] at refound
    cases refound
    rwa [if_pos stopped] at claim
  · intro gone
    exact ⟨row', found', by rwa [if_pos stopped]⟩

/-- A teardown of the RUNNING sample row on its own, with these answers. -/
def attempt (choices : List Choice) :
    Option (World × List (Entry Reply) × World × Except Exn Answer) :=
  Sample.running.bind fun world =>
    ((machine Compose.shipped).execute DaemonFails choices world
      (Worker.teardownEnvironment ⟨.teardown, (Sample.envId 1).str, 0, 0⟩)).map
        fun ended => (world, ended)

/-- The row is STOPPED, and whether its recorded resources, which existed, still
exist. -/
def leftovers (ended : World × List (Entry Reply) × World × Except Exn Answer) :
    Option (List Bool) :=
  match ended.1.db.find (Sample.envId 1), ended.2.2.1.db.find (Sample.envId 1) with
  | some row, some row' =>
      if row'.status = .stopped ∧ row.recorded.all ended.1.docker.has then
        some (row.recorded.map ended.2.2.1.docker.has)
      else none
  | _, _ => none

/-- An execution with what is left over. -/
theorem exists_attempt {choices : List Choice} {flags : List Bool}
    (shown : (attempt choices).map leftovers = some (some flags)) :
    ∃ world last row row' trace result,
      Executes (lone Compose.shipped DaemonFails) world
        (Worker.teardownEnvironment ⟨.teardown, (Sample.envId 1).str, 0, 0⟩) trace last
        result ∧
      world.db.find (Sample.envId 1) = some row ∧
      last.db.find (Sample.envId 1) = some row' ∧ row'.status = .stopped ∧
      row.recorded.map last.docker.has = flags := by
  obtain ⟨⟨world, trace, last, result⟩, ended, seen⟩ := Option.map_eq_some_iff.mp shown
  obtain ⟨start, -, rest⟩ := Option.bind_eq_some_iff.mp ended
  obtain ⟨ended', executed, same⟩ := Option.map_eq_some_iff.mp rest
  cases same
  unfold leftovers at seen
  dsimp only at seen
  split at seen
  · rename_i row row' found found'
    split at seen
    · rename_i stopped
      exact ⟨world, last, row, row', trace, result, Machine.executes_of_execute executed,
        found, found', stopped.1, Option.some.inj seen⟩
    · cases seen
  · cases seen

/-- The rule on a teardown that removes everything. -/
theorem teardown_honest_of_removals :
    ∃ world row script trace last result,
      Executes (scripted Compose.shipped script) (world, ⟨0, 0⟩)
        (Worker.teardownEnvironment ⟨.teardown, (Sample.envId 1).str, 0, 0⟩) trace last
        result ∧
      world.db.find (Sample.envId 1) = some row ∧ row.recorded.length = 3 ∧
      Honest last.1 (Sample.envId 1) row.recorded result ∧
      Removable script world.docker row.containerIds row.networkId := by
  have shown : (attempt (List.replicate 15 .ok)).map leftovers =
      some (some [false, false, false]) := by decide +kernel
  obtain ⟨world, last, row, row', trace, result, executed, found, found', stopped, flags⟩ :=
    exists_attempt shown
  have count : row.recorded.length = 3 := by
    rw [← List.length_map last.docker.has, flags]
    rfl
  have honest : Honest last (Sample.envId 1) row.recorded result := by
    refine ⟨row', found', ?_⟩
    rw [if_pos stopped]
    intro resource recorded has
    have flag : last.docker.has resource ∈ row.recorded.map last.docker.has :=
      List.mem_map_of_mem recorded
    rw [flags, has] at flag
    simp at flag
  have parsed : Uuid.parse
      (Message.mk .teardown (Sample.envId 1).str 0 0).envId = some (Sample.envId 1) :=
    Uuid.parse_str (Sample.envId 1)
  obtain ⟨follows, iff⟩ := teardown_honest_iff parsed found
  obtain ⟨script, reached, scripted⟩ := follows trace last result executed
  exact ⟨world, row, script, trace, (last, reached), result, scripted, found, count, honest,
    (iff script trace (last, reached) result scripted).mp honest⟩

/-- The daemon refuses to stop the first container; the teardown commits STOPPED,
while that container and the network still exist. -/
theorem stopped_with_leftovers :
    ∃ world last row row' trace result,
      Executes (lone Compose.shipped DaemonFails) world
        (Worker.teardownEnvironment ⟨.teardown, (Sample.envId 1).str, 0, 0⟩) trace last
        result ∧
      world.db.find (Sample.envId 1) = some row ∧
      last.db.find (Sample.envId 1) = some row' ∧ row'.status = .stopped ∧
      ¬Honest last (Sample.envId 1) row.recorded result := by
  have shown : (attempt (List.replicate 4 .ok ++ Sample.refused :: List.replicate 9 .ok)).map
      leftovers = some (some [true, false, true]) := by decide +kernel
  obtain ⟨world, last, row, row', trace, result, executed, found, found', stopped, flags⟩ :=
    exists_attempt shown
  refine ⟨world, last, row, row', trace, result, executed, found, found', stopped, ?_⟩
  rintro ⟨other, refound, claim⟩
  rw [found'] at refound
  cases refound
  rw [if_pos stopped] at claim
  have flag : true ∈ row.recorded.map last.docker.has := by
    rw [flags]
    exact List.mem_cons_self
  obtain ⟨resource, recorded, has⟩ := List.mem_map.mp flag
  exact claim resource recorded has

end Teardown

end Provisioner
