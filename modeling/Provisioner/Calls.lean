import Provisioner.DockerManager

/-!
# Which calls the Docker manager makes

The Docker manager talks to the daemon, reads the clock and sleeps. It touches no row,
publishes nothing and records nothing, whatever it is answered.
-/

namespace Provisioner

open Resumption

/-- A request to the daemon, a clock reading or a sleep. -/
def Call.docks : Call → Bool
  | .now | .sleepUntil _ => true
  | request => request.target = .docker

/-- A clock reading, a sleep or a look at a container. -/
def Call.watches : Call → Bool
  | .now | .sleepUntil _ | .containerReload _ => true
  | _ => false

theorem Call.docks_of_watches (request : Call) (watches : request.watches = true) :
    request.docks = true := by
  cases request <;> first | rfl | cases watches

namespace DockerManager

variable {deployment : Deployment}

theorem perform_makes {good : Call → Prop} {request : Call} (fits : good request) :
    (perform request).Makes good :=
  ⟨fits, Program.makes_ofExcept⟩

theorem startContainer_docks (envId : String) (spec : ContainerSpec)
    (environment : List (String × EnvironmentValue)) :
    (startContainer deployment envId spec environment).Makes (·.docks = true) :=
  Program.makes_bind (Program.makes_ofExcept _) fun _ =>
    Program.makes_tryCatch (perform_makes rfl) fun _ => trivial

theorem poll_watches (container : DockerId) (spec : ContainerSpec) (timeout : Int)
    (deadline : Time) (rounds : Nat) :
    (poll deployment container spec timeout deadline rounds).Makes (·.watches = true) := by
  induction rounds with
  | zero => trivial
  | succ rounds inductionHypothesis =>
      refine Program.makes_bind (perform_makes rfl) fun instant => ?_
      split
      · refine Program.makes_bind (perform_makes rfl) fun observation => ?_
        split
        · exact Program.makes_ofExcept _
        · exact Program.makes_bind (perform_makes rfl) fun _ =>
            Program.makes_bind (perform_makes rfl) fun _ => inductionHypothesis
      · trivial

/-- Waiting only reads the clock, sleeps and looks at the container. -/
theorem waitForReady_watches (container : DockerId) (spec : ContainerSpec) :
    (waitForReady deployment container spec).Makes (·.watches = true) :=
  Program.makes_bind (perform_makes rfl) fun _ => poll_watches _ _ _ _ _

/-- Reading the host port only looks at the container. -/
theorem readPort_watches (container : DockerId) (spec : ContainerSpec)
    (hostPort : Option Nat) :
    (readPort container spec hostPort).Makes (·.watches = true) := by
  unfold readPort
  split
  · refine Program.makes_bind (perform_makes rfl) fun observation => ?_
    split <;> trivial
  · trivial

theorem startContainers_docks (envId : String) (roles : List String)
    (specs : List ContainerSpec) (containers : List DockerId) (hostPort : Option Nat) :
    (startContainers deployment envId roles specs containers hostPort).Makes
      (·.docks = true) := by
  induction specs generalizing containers hostPort with
  | nil => trivial
  | cons spec specs inductionHypothesis =>
      refine Program.makes_bind (Program.makes_ofExcept _) fun _ => ?_
      refine Program.makes_bind (startContainer_docks _ _ _) fun _ => ?_
      refine Program.makes_bind ((waitForReady_watches _ _).mono Call.docks_of_watches)
        fun _ => ?_
      refine Program.makes_bind ((readPort_watches _ _ _).mono Call.docks_of_watches) fun _ => ?_
      exact inductionHypothesis _ _

/-- A provision only talks to the daemon, reads the clock and sleeps. -/
theorem provision_docks (envId templateName : String) :
    (provision deployment envId templateName).Makes (·.docks = true) := by
  unfold provision
  split
  · trivial
  · trivial
  · refine Program.makes_bind (perform_makes rfl) fun network => ?_
    refine Program.makes_bind (startContainers_docks _ _ _ _ _) fun started => ?_
    obtain ⟨containers, port⟩ := started
    cases port <;> trivial

/-- A removal only talks to the daemon. -/
theorem removeResources_docks (containerIds networkIds : List DockerId) :
    (removeResources containerIds networkIds).Makes (·.target = .docker) := by
  refine Program.makes_bind (Program.makes_forEach fun id _ => ?_) fun _ =>
    Program.makes_forEach fun id _ => ?_
  · refine Program.makes_tryCatch ?_ fun _ => trivial
    refine Program.makes_bind (perform_makes rfl) fun _ => ?_
    exact Program.makes_bind (perform_makes rfl) fun _ => perform_makes rfl
  · refine Program.makes_tryCatch ?_ fun _ => trivial
    exact Program.makes_bind (perform_makes rfl) fun _ => perform_makes rfl

end DockerManager

end Provisioner
