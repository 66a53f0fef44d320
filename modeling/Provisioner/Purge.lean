import Provisioner.Alone

/-!
# Purging a list of resources

When the daemon serves every request, what `remove_resources` leaves behind is a function of
the state before and of the listed ids: `purge` removes the listed containers, and then the
listed networks that nothing uses.
-/

namespace Provisioner

open Resumption

namespace Daemon

variable {daemon : Daemon} {id other : DockerId}

/-- Daemons with the same rows are the same. -/
theorem eq_of_rows {first second : Daemon}
    (containers : first.containers.rows = second.containers.rows)
    (networks : first.networks.rows = second.networks.rows)
    (nextId : first.nextId = second.nextId)
    (refuses : first.refusesDuplicateNetworks = second.refusesDuplicateNetworks) :
    first = second := by
  have sameContainers := Keyed.Table.eq_of_rows containers
  have sameNetworks := Keyed.Table.eq_of_rows networks
  cases first
  cases second
  cases sameContainers
  cases sameNetworks
  cases nextId
  cases refuses
  rfl

@[simp] theorem rows_removeContainer :
    (daemon.removeContainer id).containers.rows =
      daemon.containers.rows.filter fun container => container.id ≠ id := rfl

@[simp] theorem rows_removeNetwork :
    (daemon.removeNetwork id).networks.rows =
      daemon.networks.rows.filter fun network => network.id ≠ id := rfl

/-- Removing a container that does not exist changes nothing. -/
theorem removeContainer_of_absent (absent : daemon.containers.find id = none) :
    daemon.removeContainer id = daemon := by
  refine eq_of_rows ?_ rfl rfl rfl
  rw [rows_removeContainer, List.filter_eq_self]
  intro container present
  exact decide_eq_true (Keyed.Table.find_eq_none_iff.mp absent container present)

/-- Removing a network that does not exist changes nothing. -/
theorem removeNetwork_of_absent (absent : daemon.networks.find id = none) :
    daemon.removeNetwork id = daemon := by
  refine eq_of_rows rfl ?_ rfl rfl
  rw [rows_removeNetwork, List.filter_eq_self]
  intro network present
  exact decide_eq_true (Keyed.Table.find_eq_none_iff.mp absent network present)

/-- Remove a network unless some container uses it. -/
def detach (daemon : Daemon) (id : DockerId) : Daemon :=
  if daemon.attached id then daemon else daemon.removeNetwork id

@[simp] theorem containers_detach : (daemon.detach id).containers = daemon.containers := by
  unfold detach
  split <;> rfl

@[simp] theorem nextId_detach : (daemon.detach id).nextId = daemon.nextId := by
  unfold detach
  split <;> rfl

@[simp] theorem refuses_detach :
    (daemon.detach id).refusesDuplicateNetworks = daemon.refusesDuplicateNetworks := by
  unfold detach
  split <;> rfl

/-- Whether a network is in use depends on the containers only. -/
theorem attached_congr {first second : Daemon}
    (same : first.containers.rows = second.containers.rows) :
    first.attached id = second.attached id := by
  unfold attached
  rw [same]

theorem rows_detach :
    (daemon.detach id).networks.rows = daemon.networks.rows.filter fun network =>
      network.id ≠ id ∨ daemon.attached network.id = true := by
  unfold detach
  split
  · rename_i used
    refine (List.filter_eq_self.mpr fun network present => decide_eq_true ?_).symm
    by_cases same : network.id = id
    · exact .inr (same ▸ used)
    · exact .inl same
  · rename_i idle
    rw [rows_removeNetwork]
    refine List.filter_congr fun network present => decide_eq_decide.mpr ?_
    refine ⟨.inl, ?_⟩
    rintro (other | used)
    · exact other
    · rintro rfl
      exact idle used

/-- Remove the listed containers, and then the listed networks that no container uses. -/
def purge (daemon : Daemon) (containerIds networkIds : List DockerId) : Daemon :=
  networkIds.foldl detach (containerIds.foldl removeContainer daemon)

/-! ## What is left after a purge -/

variable {containerIds networkIds : List DockerId}

theorem foldl_detach_containers :
    (networkIds.foldl detach daemon).containers = daemon.containers ∧
      (networkIds.foldl detach daemon).nextId = daemon.nextId ∧
      (networkIds.foldl detach daemon).refusesDuplicateNetworks =
        daemon.refusesDuplicateNetworks := by
  induction networkIds generalizing daemon with
  | nil => exact ⟨rfl, rfl, rfl⟩
  | cons id networkIds inductionHypothesis =>
      obtain ⟨containers, nextId, refuses⟩ := @inductionHypothesis (daemon.detach id)
      exact ⟨containers.trans containers_detach, nextId.trans nextId_detach,
        refuses.trans refuses_detach⟩

theorem foldl_removeContainer :
    (containerIds.foldl removeContainer daemon).containers.rows =
        (daemon.containers.rows.filter fun container => container.id ∉ containerIds) ∧
      (containerIds.foldl removeContainer daemon).networks = daemon.networks ∧
      (containerIds.foldl removeContainer daemon).nextId = daemon.nextId ∧
      (containerIds.foldl removeContainer daemon).refusesDuplicateNetworks =
        daemon.refusesDuplicateNetworks := by
  induction containerIds generalizing daemon with
  | nil => exact ⟨by simp, rfl, rfl, rfl⟩
  | cons id containerIds inductionHypothesis =>
      obtain ⟨rows, networks, nextId, refuses⟩ :=
        @inductionHypothesis (daemon.removeContainer id)
      refine ⟨?_, networks, nextId, refuses⟩
      rw [List.foldl_cons, rows, rows_removeContainer, List.filter_filter]
      refine List.filter_congr fun container _ => ?_
      simp [Bool.and_comm]

/-- A purge leaves the containers that are not listed. -/
theorem containers_purge :
    (daemon.purge containerIds networkIds).containers.rows =
      daemon.containers.rows.filter fun container => container.id ∉ containerIds := by
  unfold purge
  rw [foldl_detach_containers.1, foldl_removeContainer.1]

theorem foldl_detach_networks :
    (networkIds.foldl detach daemon).networks.rows = daemon.networks.rows.filter fun network =>
      network.id ∉ networkIds ∨ daemon.attached network.id = true := by
  induction networkIds generalizing daemon with
  | nil => simp
  | cons id networkIds inductionHypothesis =>
      have attached : ∀ network : Network, (daemon.detach id).attached network.id =
          daemon.attached network.id := fun network =>
        attached_congr (by rw [containers_detach])
      rw [List.foldl_cons, inductionHypothesis, rows_detach, List.filter_filter]
      refine List.filter_congr fun network _ => ?_
      rw [attached, ← Bool.decide_and, decide_eq_decide, List.mem_cons, not_or, and_or_right,
        and_comm]

/-- A purge leaves the networks that are not listed or that a container still uses. -/
theorem networks_purge :
    (daemon.purge containerIds networkIds).networks.rows =
      daemon.networks.rows.filter fun network => network.id ∉ networkIds ∨
        (daemon.purge containerIds networkIds).attached network.id = true := by
  have attached : ∀ network : Network,
      (containerIds.foldl removeContainer daemon).attached network.id =
        (daemon.purge containerIds networkIds).attached network.id := fun network =>
    attached_congr (by rw [containers_purge, foldl_removeContainer.1])
  unfold purge at attached ⊢
  rw [foldl_detach_networks, foldl_removeContainer.2.1]
  simp only [attached]

theorem counters_purge :
    (daemon.purge containerIds networkIds).nextId = daemon.nextId ∧
      (daemon.purge containerIds networkIds).refusesDuplicateNetworks =
        daemon.refusesDuplicateNetworks := by
  unfold purge
  rw [foldl_detach_containers.2.1, foldl_detach_containers.2.2, foldl_removeContainer.2.2.1,
    foldl_removeContainer.2.2.2]
  exact ⟨rfl, rfl⟩

/-- A purge depends only on which ids are listed. -/
theorem purge_congr {containerIds' networkIds' : List DockerId}
    (containers : ∀ id, id ∈ containerIds ↔ id ∈ containerIds')
    (networks : ∀ id, id ∈ networkIds ↔ id ∈ networkIds') :
    daemon.purge containerIds networkIds = daemon.purge containerIds' networkIds' := by
  have left : (daemon.purge containerIds networkIds).containers.rows =
      (daemon.purge containerIds' networkIds').containers.rows := by
    rw [containers_purge, containers_purge]
    simp only [containers]
  refine eq_of_rows left ?_ (counters_purge.1.trans counters_purge.1.symm)
    (counters_purge.2.trans counters_purge.2.symm)
  rw [networks_purge, networks_purge]
  simp only [networks, attached_congr left]

/-- A second purge changes nothing. -/
theorem purge_purge :
    (daemon.purge containerIds networkIds).purge containerIds networkIds =
      daemon.purge containerIds networkIds := by
  have left : ((daemon.purge containerIds networkIds).purge containerIds
      networkIds).containers.rows = (daemon.purge containerIds networkIds).containers.rows := by
    rw [containers_purge, containers_purge, List.filter_filter]
    simp only [Bool.and_self]
  refine eq_of_rows left ?_ counters_purge.1 counters_purge.2
  rw [networks_purge, List.filter_eq_self]
  intro network present
  rw [networks_purge, List.mem_filter] at present
  rw [attached_congr left]
  exact present.2

end Daemon

/-- The world with another state of the daemon. -/
def World.withDocker (world : World) (docker : Daemon) : World :=
  { world with docker := docker }

namespace Purge

variable {deployment : Deployment} {granted : World → Call → Choice → Prop} {world : World}
  {containerIds networkIds : List DockerId}

/-! ## When the daemon serves every request -/

section Served

variable (ok : ∀ world request, granted world request .ok)
  (safe : ∀ world request choice, granted world request choice → request.target = .docker →
    choice.succeeds = true)
include ok safe

/-- The rule for a request to a daemon that serves it. -/
theorem ask_meets {request : Call} {reply : Reply request} {next : World}
    {post : World → Except Exn request.Result → Prop}
    (direct : request.direct = true)
    (succeeded : world.succeed request = some (reply, next))
    (continues : post next reply) :
    (perform request).Meets (lone deployment granted) post world :=
  Alone.meets_direct direct (ok _ _)
    (fun _ allowed => safe _ _ _ allowed (Call.target_of_direct direct)) succeeded continues

theorem removeContainer_meets (id : DockerId) :
    (DockerManager.removeContainer id).Meets (lone deployment granted)
      (fun reached result => result = .ok () ∧
        reached = world.withDocker (world.docker.removeContainer id)) world := by
  unfold DockerManager.removeContainer
  refine Program.meets_tryCatch.mpr (Program.meets_bind.mpr ?_)
  by_cases present : (world.docker.containers.find id).isSome = true
  · have found : world.onContainer id = (.ok (), world) := if_pos present
    have removed : world.containerRemove id =
        (.ok (), world.withDocker (world.docker.removeContainer id)) := if_pos present
    refine ask_meets ok safe rfl (congrArg some found) (Program.meets_bind.mpr ?_)
    refine ask_meets ok safe rfl (congrArg some found) ?_
    exact ask_meets ok safe rfl (congrArg some removed) ⟨rfl, rfl⟩
  · have missing : world.onContainer id = world.missing "container" := if_neg present
    have absent := Option.not_isSome_iff_eq_none.mp present
    refine ask_meets ok safe rfl (congrArg some missing) ⟨rfl, ?_⟩
    rw [Daemon.removeContainer_of_absent absent]
    rfl

theorem removeNetwork_meets (id : DockerId) :
    (DockerManager.removeNetwork id).Meets (lone deployment granted)
      (fun reached result => result = .ok () ∧
        reached = world.withDocker (world.docker.detach id)) world := by
  unfold DockerManager.removeNetwork Daemon.detach
  refine Program.meets_tryCatch.mpr (Program.meets_bind.mpr ?_)
  by_cases present : (world.docker.networks.find id).isSome = true
  · have found : world.onNetwork id = (.ok (), world) := if_pos present
    refine ask_meets ok safe rfl (congrArg some found) ?_
    by_cases attached : world.docker.attached id = true
    · have refused : world.networkRemove id =
          (.error ⟨.apiError, "network has active endpoints"⟩, world) := by
        unfold World.networkRemove
        rw [if_pos present, if_pos attached]
      exact ask_meets ok safe rfl (congrArg some refused) ⟨rfl, by rw [if_pos attached]; rfl⟩
    · have removed : world.networkRemove id =
          (.ok (), world.withDocker (world.docker.removeNetwork id)) := by
        unfold World.networkRemove
        rw [if_pos present, if_neg attached]
        rfl
      exact ask_meets ok safe rfl (congrArg some removed) ⟨rfl, by rw [if_neg attached]⟩
  · have missing : world.onNetwork id = world.missing "network" := if_neg present
    have absent := Option.not_isSome_iff_eq_none.mp present
    refine ask_meets ok safe rfl (congrArg some missing) ⟨rfl, ?_⟩
    rw [Daemon.removeNetwork_of_absent absent, ite_self]
    rfl

omit ok safe in
/-- A loop whose bodies apply a function to the state of the daemon folds it over the
ids. -/
theorem forEach_meets {body : DockerId → Action Unit} {step : Daemon → DockerId → Daemon}
    (each : ∀ id world, (body id).Meets (lone deployment granted)
      (fun reached result => result = .ok () ∧
        reached = world.withDocker (step world.docker id)) world)
    (ids : List DockerId) :
    (Program.forEach body ids).Meets (lone deployment granted)
      (fun reached result => result = .ok () ∧
        reached = world.withDocker (ids.foldl step world.docker)) world := by
  induction ids generalizing world with
  | nil => exact ⟨rfl, rfl⟩
  | cons id ids inductionHypothesis =>
      refine Program.meets_bind.mpr ((each id world).mono ?_)
      rintro middle result ⟨rfl, rfl⟩
      refine inductionHypothesis.mono ?_
      rintro reached result ⟨rfl, rfl⟩
      exact ⟨rfl, rfl⟩

/-- `remove_resources` purges the daemon. -/
theorem removeResources_meets :
    (DockerManager.removeResources containerIds networkIds).Meets (lone deployment granted)
      (fun reached result => result = .ok () ∧
        reached = world.withDocker (world.docker.purge containerIds networkIds)) world := by
  unfold DockerManager.removeResources
  refine Program.meets_bind.mpr ((forEach_meets (fun id _ => removeContainer_meets ok safe id)
    containerIds).mono ?_)
  rintro middle result ⟨rfl, rfl⟩
  refine (forEach_meets (fun id _ => removeNetwork_meets ok safe id) networkIds).mono ?_
  rintro reached result ⟨rfl, rfl⟩
  exact ⟨rfl, rfl⟩

end Served

end Purge

end Provisioner
