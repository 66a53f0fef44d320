import Provisioner.Calls
import Provisioner.Purge

/-!
# Removing a list of resources

`remove_resources` goes through the containers and then through the networks, and an
exception about one of them never reaches the next. When the daemon serves every request,
what it leaves behind is a function of the state before and of the listed ids: `purge`
removes the listed containers, and then the listed networks that nothing uses.
-/

namespace Provisioner

open Resumption

namespace Removal

variable {deployment : Deployment} {world last : World} {containerIds networkIds : List DockerId}
  {trace : List (Entry Reply)}

/-! ## Whatever the daemon answers -/

/-- The resource that a request begins to remove. -/
def attempt : Entry Reply → Option Resource
  | ⟨.containerGet id, _⟩ => some (.container id)
  | ⟨.networkGet id, _⟩ => some (.network id)
  | _ => none

/-- The request is about a listed resource. -/
def Concerns (containerIds networkIds : List DockerId) : Call → Prop
  | .containerGet id | .containerStop id | .containerRemove id => id ∈ containerIds
  | .networkGet id | .networkRemove id => id ∈ networkIds
  | _ => False

/-- Unlisted resources are untouched. -/
structure Spares (containerIds networkIds : List DockerId) (world last : World) : Prop where
  db : last.db = world.db
  containers : ∀ container, container.id ∉ containerIds →
    (container ∈ last.docker.containers.rows ↔ container ∈ world.docker.containers.rows)
  networks : ∀ network, network.id ∉ networkIds →
    (network ∈ last.docker.networks.rows ↔ network ∈ world.docker.networks.rows)

theorem Spares.refl (world : World) : Spares containerIds networkIds world world :=
  ⟨rfl, fun _ _ => Iff.rfl, fun _ _ => Iff.rfl⟩

/-- A request about a listed resource spares the others. -/
theorem spares_of_effect {request : Call} {reply : Reply request}
    (concerns : Concerns containerIds networkIds request)
    (effect : world.Effect request reply last) :
    Spares containerIds networkIds world last := by
  cases effect with
  | failed _ _ _ => exact .refl world
  | read _ _ _ => exact .refl world
  | containerRemoved id _ =>
      refine ⟨rfl, fun container unlisted => ?_, fun _ _ => Iff.rfl⟩
      rw [Daemon.mem_removeContainer]
      refine and_iff_left ?_
      rintro rfl
      exact unlisted concerns
  | networkRemoved id _ _ =>
      refine ⟨rfl, fun _ _ => Iff.rfl, fun network unlisted => ?_⟩
      rw [Daemon.mem_removeNetwork]
      refine and_iff_left ?_
      rintro rfl
      exact unlisted concerns
  | _ => exact concerns.elim

/-- A program that only makes requests about listed resources spares the others. -/
theorem spares_of_executes {action : Action Unit} {result : Except Exn Unit}
    {granted : World → Call → Choice → Prop}
    (executed : Executes (lone deployment granted) world action trace last result)
    (concerns : action.Makes (Concerns containerIds networkIds)) :
    Spares containerIds networkIds world last := by
  induction executed with
  | pure state value => exact .refl state
  | raise state error => exact .refl state
  | call state middle last request resume reply trace result answered continued
      inductionHypothesis =>
      obtain ⟨choice, -, answered⟩ := answered
      have first := spares_of_effect concerns.1 (World.exec_effect answered)
      have rest := inductionHypothesis (concerns.2 reply)
      exact ⟨rest.db.trans first.db,
        fun container unlisted =>
          (rest.containers container unlisted).trans (first.containers container unlisted),
        fun network unlisted =>
          (rest.networks network unlisted).trans (first.networks network unlisted)⟩

/-- `remove_resources` only makes requests about listed resources. -/
theorem removeResources_makes :
    (DockerManager.removeResources containerIds networkIds).Makes
      (Concerns containerIds networkIds) := by
  refine Program.makes_bind (Program.makes_forEach fun id listed => ?_) fun _ =>
    Program.makes_forEach fun id listed => ?_
  · refine Program.makes_tryCatch ?_ fun _ => trivial
    refine Program.makes_bind (DockerManager.perform_makes listed) fun _ => ?_
    refine Program.makes_bind (DockerManager.perform_makes listed) fun _ => ?_
    exact DockerManager.perform_makes listed
  · exact Program.makes_tryCatch
      (Program.makes_bind (DockerManager.perform_makes listed) fun _ =>
        DockerManager.perform_makes listed) fun _ => trivial

section Attempts

variable {State : Type} {service : Service State Call Reply} {state reached : State}
  {result : Except Exn Unit}

/-- A request that is no attempt. -/
def Follows (call : Call) : Prop :=
  ∀ reply : Reply call, attempt ⟨call, reply⟩ = none

theorem filterMap_of_follows (follows : ∀ entry ∈ trace, Follows entry.request) :
    trace.filterMap attempt = [] := by
  rw [List.filterMap_eq_nil_iff]
  rintro ⟨request, reply⟩ present
  exact follows _ present reply

/-- A guarded body attempts its resource with its first request, and never raises. -/
theorem guarded_attempts {request : Call} {resource : Resource}
    {rest : request.Result → Action Unit}
    (begins : ∀ reply : Reply request, attempt ⟨request, reply⟩ = some resource)
    (follows : ∀ value, (rest value).Makes Follows)
    (executed : Executes service state
      ((perform request >>= rest).tryCatch fun _ => (pure () : Action Unit)) trace reached
      result) :
    result = .ok () ∧ trace.filterMap attempt = [resource] := by
  obtain ⟨body, handled, middle, ended, rfl, runs, handles⟩ := Executes.tryCatch_iff.mp executed
  have silent : handled = [] ∧ result = .ok () := by
    rcases ended with exc | done
    · obtain ⟨rfl, -, rfl⟩ := Executes.pure_iff.mp handles
      exact ⟨rfl, rfl⟩
    · obtain ⟨rfl, -, rfl⟩ := Executes.pure_iff.mp handles
      exact ⟨rfl, rfl⟩
  obtain ⟨rfl, rfl⟩ := silent
  obtain ⟨asked, later, middle, answer, rfl, asks, continues⟩ := Executes.bind_iff.mp runs
  obtain ⟨rfl, -⟩ := Alone.executes_perform.mp asks
  have quiet : later.filterMap attempt = [] := by
    rcases answer with exc | value
    · obtain ⟨rfl, -, -⟩ := Executes.raise_iff.mp continues
      rfl
    · exact filterMap_of_follows (continues.makes (follows value))
  refine ⟨rfl, ?_⟩
  rw [List.append_nil, List.filterMap_append, quiet, List.filterMap_cons_some (begins answer)]
  rfl

theorem removeContainer_attempts {id : DockerId}
    (executed : Executes service state (DockerManager.removeContainer id) trace reached
      result) :
    result = .ok () ∧ trace.filterMap attempt = [.container id] := by
  refine guarded_attempts (fun _ => rfl) (fun _ => ?_) executed
  exact Program.makes_bind (DockerManager.perform_makes fun _ => rfl) fun _ =>
    DockerManager.perform_makes fun _ => rfl

theorem removeNetwork_attempts {id : DockerId}
    (executed : Executes service state (DockerManager.removeNetwork id) trace reached
      result) :
    result = .ok () ∧ trace.filterMap attempt = [.network id] :=
  guarded_attempts (fun _ => rfl) (fun _ => DockerManager.perform_makes fun _ => rfl) executed

/-- The loops attempt every listed id once for each occurrence, all containers before all
networks, and never raise. -/
theorem removeResources_attempts
    (executed : Executes service state
      (DockerManager.removeResources containerIds networkIds) trace reached result) :
    result = .ok () ∧ trace.filterMap attempt =
      containerIds.map .container ++ networkIds.map .network := by
  unfold DockerManager.removeResources at executed
  obtain ⟨first, second, middle, ended, rfl, containers, continued⟩ :=
    Executes.bind_iff.mp executed
  obtain ⟨rfl, firstNotes⟩ := Executes.forEach_notes
    (fun id state trace last result ran => removeContainer_attempts ran) containers
  obtain ⟨done, secondNotes⟩ := Executes.forEach_notes
    (fun id state trace last result ran => removeNetwork_attempts ran) continued
  refine ⟨done, ?_⟩
  rw [List.filterMap_append, firstNotes, secondNotes, List.map_eq_flatMap, List.map_eq_flatMap]

end Attempts

/-- What is left when the daemon serves every request: no listed container, and no listed
network without an unlisted container attached to it. -/
structure Cleared (containerIds networkIds : List DockerId) (last : World) : Prop where
  containers : ∀ id ∈ containerIds, last.docker.containers.find id = none
  networks : ∀ id ∈ networkIds, last.docker.networks.find id = none ∨
    ∃ container ∈ last.docker.containers.rows,
      container.id ∉ containerIds ∧ container.network = some id

theorem cleared_purge (docker : Daemon) :
    Cleared containerIds networkIds
      (world.withDocker (docker.purge containerIds networkIds)) := by
  have unlisted : ∀ container ∈ (docker.purge containerIds networkIds).containers.rows,
      container.id ∉ containerIds := by
    intro container present
    rw [Daemon.containers_purge, List.mem_filter] at present
    exact of_decide_eq_true present.2
  refine ⟨fun id listed => ?_, fun id listed => ?_⟩
  · rw [Keyed.Table.find_eq_none_iff]
    rintro container present rfl
    exact unlisted container present listed
  · by_cases used : (docker.purge containerIds networkIds).attached id = true
    · obtain ⟨container, present, attached⟩ := List.any_eq_true.mp used
      exact .inr ⟨container, present, unlisted container present, of_decide_eq_true attached⟩
    · refine .inl (Keyed.Table.find_eq_none_iff.mpr ?_)
      rintro network present rfl
      have kept := present
      unfold World.withDocker at kept
      rw [Daemon.networks_purge, List.mem_filter] at kept
      exact (of_decide_eq_true kept.2).elim (fun other => other listed) used

/-- When no request fails, `remove_resources` purges the daemon. -/
theorem purges (deployment : Deployment) (world : World) (containerIds networkIds : List DockerId) :
    (DockerManager.removeResources containerIds networkIds).Meets (lone deployment Reliable)
      (fun reached result => result = .ok () ∧
        reached = world.withDocker (world.docker.purge containerIds networkIds)) world :=
  Purge.removeResources_meets (fun _ _ => rfl) fun _ _ _ allowed _ => allowed

/-- Removal is total, isolated and idempotent. Whatever the daemon answers, it ends without
an exception after one attempt for each listed id, makes requests about listed resources
only, and leaves the others untouched. When no request fails, the listed resources are
gone, in whatever order they were listed, and a second removal changes nothing. -/
theorem removal_total (deployment : Deployment) (world : World)
    (containerIds networkIds : List DockerId) :
    (∃ trace last result, Executes (lone deployment Unrestricted) world
      (DockerManager.removeResources containerIds networkIds) trace last result) ∧
    (∀ trace last result, Executes (lone deployment Unrestricted) world
        (DockerManager.removeResources containerIds networkIds) trace last result →
      result = .ok () ∧
      trace.filterMap attempt = containerIds.map .container ++ networkIds.map .network ∧
      (∀ entry ∈ trace, Concerns containerIds networkIds entry.request) ∧
      Spares containerIds networkIds world last) ∧
    ∀ trace last result, Executes (lone deployment Reliable) world
        (DockerManager.removeResources containerIds networkIds) trace last result →
      Cleared containerIds networkIds last ∧
      (∀ containerIds' networkIds', containerIds'.Perm containerIds →
        networkIds'.Perm networkIds → ∀ trace' last' result',
        Executes (lone deployment Reliable) world
          (DockerManager.removeResources containerIds' networkIds') trace' last' result' →
        last' = last) ∧
      ∀ trace' last' result', Executes (lone deployment Reliable) last
          (DockerManager.removeResources containerIds networkIds) trace' last' result' →
        last' = last := by
  refine ⟨?_, fun trace last result executed => ?_, fun trace last result executed => ?_⟩
  · obtain ⟨trace, last, result, executed, -⟩ :=
      Alone.exists_ends (purges deployment world containerIds networkIds)
    exact ⟨trace, last, result, Alone.unrestricted executed⟩
  · obtain ⟨done, attempts⟩ := removeResources_attempts executed
    exact ⟨done, attempts, executed.makes removeResources_makes,
      spares_of_executes executed removeResources_makes⟩
  · obtain ⟨-, rfl⟩ := executed.meets (purges deployment _ _ _)
    refine ⟨cleared_purge world.docker, ?_, ?_⟩
    · intro containerIds' networkIds' containers networks trace' last' result' executed'
      obtain ⟨-, rfl⟩ := executed'.meets (purges deployment _ _ _)
      rw [Daemon.purge_congr (fun id => containers.mem_iff) fun id => networks.mem_iff]
    · intro trace' last' result' again
      obtain ⟨-, rfl⟩ := again.meets (purges deployment _ _ _)
      show world.withDocker _ = _
      unfold World.withDocker
      rw [Daemon.purge_purge]

end Removal

end Provisioner
