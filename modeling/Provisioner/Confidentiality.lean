import Provisioner.Runs
import Provisioner.Resumption.Masking

/-!
# Credentials stay with Docker

The environment block of a template carries credentials. It is resolved and handed to
`containers.run`, and nowhere else: two deployments that differ only in what they put into these
blocks have the same runs. Whatever the schedule and the answers of Docker, the rows with
their error messages, the queued messages, the metrics, the answers of the API and every call
but for that one argument are the same, so none of them depends on a credential.
-/

namespace Provisioner

open Resumption

/-- `containers.run` without its `environment`. -/
def Compose.RunRequest.withoutEnvironment (request : Compose.RunRequest) : Compose.RunRequest :=
  { request with environment := [] }

/-- The call without the environment that it passes to Docker. -/
def Call.withoutEnvironment : Call → Call
  | .containersRun request => .containersRun request.withoutEnvironment
  | request => request

theorem Call.reply_withoutEnvironment (request : Call) :
    Reply request.withoutEnvironment = Reply request := by
  cases request <;> rfl

/-- The mask over the environments of containers. -/
def credentials : Mask Call Reply where
  hide := Call.withoutEnvironment
  answer request := Equiv.cast request.reply_withoutEnvironment

/-- The spec without its environment block. -/
def ContainerSpec.withoutEnvironment (spec : ContainerSpec) : ContainerSpec :=
  { spec with environment := [] }

namespace Confidentiality

variable {deployment other : Deployment} {spec spec' : ContainerSpec}

/-- The world does not depend on the environments of containers. -/
theorem ignores (deployment : Deployment) : (machine deployment).Ignores credentials := by
  intro world request choice
  have answered : World.exec world (Call.withoutEnvironment request) choice =
      (World.exec world request choice).map fun answered =>
        ((Equiv.cast request.reply_withoutEnvironment).symm answered.1, answered.2) := by
    cases request with
    | containersRun request =>
        have same : World.exec world (.containersRun request.withoutEnvironment) choice =
            World.exec world (.containersRun request) choice := by
          cases choice <;> rfl
        exact same.trans Option.map_id'.symm
    | _ => exact Option.map_id'.symm
  exact answered

/-! ## Deployments that differ in their credentials -/

/-- Two specs that differ at most in their environment blocks, of which both are resolved or
both are refused with the same exception. -/
structure Alike (deployment other : Deployment) (spec spec' : ContainerSpec) : Prop where
  bare : spec.withoutEnvironment = spec'.withoutEnvironment
  resolves : ∀ envId roles,
    (Compose.resolveEnvironment deployment envId spec roles).map (fun _ => ()) =
      (Compose.resolveEnvironment other envId spec' roles).map fun _ => ()

/-- Two deployments that differ at most in the environment blocks of their templates. -/
structure Indistinct (deployment other : Deployment) : Prop where
  settings : deployment.settings = other.settings
  templates : List.Forall₂ (fun entry entry' => entry.1 = entry'.1 ∧
    List.Forall₂ (Alike deployment other) entry.2 entry'.2) deployment.templates other.templates

/-- The other spec is this one with another environment block. -/
theorem Alike.eq_with (alike : Alike deployment other spec spec') :
    spec' = { spec with environment := spec'.environment } := by
  have bare := alike.bare
  cases spec
  cases spec'
  cases bare
  rfl

/-! ## Programs -/

/-- Whether a spec exceeds its limits does not depend on its environment block. -/
theorem verdict_eq (settings : deployment.settings = other.settings)
    (alike : Alike deployment other spec spec') (container : DockerId)
    (observation : Observation) :
    DockerManager.verdict deployment container spec observation =
      DockerManager.verdict other container spec' observation := by
  rw [alike.eq_with]
  unfold DockerManager.verdict DockerManager.startupFailure
  rw [settings]
  rfl

theorem poll_eq (settings : deployment.settings = other.settings)
    (alike : Alike deployment other spec spec') (container : DockerId) (timeout : Int)
    (deadline : Time) (rounds : Nat) :
    DockerManager.poll deployment container spec timeout deadline rounds =
      DockerManager.poll other container spec' timeout deadline rounds := by
  have late : DockerManager.notReady container spec timeout =
      DockerManager.notReady container spec' timeout := by
    rw [alike.eq_with]
    rfl
  induction rounds with
  | zero =>
      unfold DockerManager.poll
      rw [late]
  | succ rounds inductionHypothesis =>
      unfold DockerManager.poll
      simp only [verdict_eq settings alike, inductionHypothesis, late]

theorem waitForReady_eq (settings : deployment.settings = other.settings)
    (alike : Alike deployment other spec spec') (container : DockerId) :
    DockerManager.waitForReady deployment container spec =
      DockerManager.waitForReady other container spec' := by
  unfold DockerManager.waitForReady
  simp only [settings, poll_eq settings alike]

theorem readPort_eq (alike : Alike deployment other spec spec') (container : DockerId)
    (hostPort : Option Nat) :
    DockerManager.readPort container spec hostPort =
      DockerManager.readPort container spec' hostPort := by
  rw [alike.eq_with]
  rfl

/-- A container is started alike with any environment. -/
theorem startContainer_similar (settings : deployment.settings = other.settings)
    (alike : Alike deployment other spec spec') (envId : String)
    (environment environment' : List (String × EnvironmentValue)) :
    (DockerManager.startContainer deployment envId spec environment).Similar credentials
      (DockerManager.startContainer other envId spec' environment') := by
  rw [alike.eq_with]
  unfold DockerManager.startContainer Compose.runRequest
  have limits : Compose.resourceLimits other.settings
      { spec with environment := spec'.environment } =
      Compose.resourceLimits deployment.settings spec := by
    rw [settings]
    rfl
  rw [limits]
  cases Compose.resourceLimits deployment.settings spec with
  | error exc => rfl
  | ok limits => rfl

/-- Two results of the same outcome lead to programs that look the same. -/
theorem ofExcept_similar {α β : Type} {first second : Except Exn α} {next next' : α → Action β}
    (same : first.map (fun _ => ()) = second.map fun _ => ())
    (values : ∀ value value', (next value).Similar credentials (next' value')) :
    ((Program.ofExcept first : Action α) >>= next).Similar credentials
      ((Program.ofExcept second : Action α) >>= next') := by
  cases first with
  | error exc =>
      cases second with
      | error exc' => cases same; rfl
      | ok value' => cases same
  | ok value =>
      cases second with
      | error exc' => cases same
      | ok value' => exact values value value'

/-- The containers of a template are started alike with any environments. -/
theorem startContainers_similar (settings : deployment.settings = other.settings)
    {specs specs' : List ContainerSpec}
    (alike : List.Forall₂ (Alike deployment other) specs specs')
    (envId : String) (roles : List String) (containerIds : List DockerId)
    (hostPort : Option Nat) :
    (DockerManager.startContainers deployment envId roles specs containerIds hostPort).Similar
      credentials
      (DockerManager.startContainers other envId roles specs' containerIds hostPort) := by
  induction alike generalizing containerIds hostPort with
  | nil => rfl
  | @cons spec spec' specs specs' first rest inductionHypothesis =>
      unfold DockerManager.startContainers
      refine ofExcept_similar (first.resolves envId roles) fun environment environment' =>
        (startContainer_similar settings first envId _ _).bind fun container => ?_
      rw [waitForReady_eq settings first]
      refine Program.Similar.bind rfl fun _ => ?_
      rw [readPort_eq first]
      exact Program.Similar.bind rfl fun hostPort => inductionHypothesis _ hostPort

theorem Alike.role (alike : Alike deployment other spec spec') : spec.role = spec'.role := by
  rw [alike.eq_with]

theorem Alike.dependsOnRole (alike : Alike deployment other spec spec') :
    spec.dependsOnRole = spec'.dependsOnRole := by
  rw [alike.eq_with]

/-- Templates that are alike are started in the same order. -/
theorem startOrder_alike {template template' : List ContainerSpec}
    (alike : List.Forall₂ (Alike deployment other) template template') :
    List.Forall₂ (Alike deployment other) (Compose.startOrder template)
      (Compose.startOrder template') := by
  refine List.rel_append (List.rel_filter ?_ alike) (List.rel_filter ?_ alike)
  · intro spec spec' alike
    dsimp only
    rw [alike.dependsOnRole]
  · intro spec spec' alike
    dsimp only
    rw [alike.dependsOnRole]

theorem roles_eq {template template' : List ContainerSpec}
    (alike : List.Forall₂ (Alike deployment other) template template') :
    template.map ContainerSpec.role = template'.map ContainerSpec.role := by
  induction alike with
  | nil => rfl
  | cons first rest inductionHypothesis =>
      rw [List.map_cons, List.map_cons, first.role, inductionHypothesis]

/-- A name stands for templates that are alike. -/
theorem lookup_alike {templates templates' : List (String × List ContainerSpec)}
    (alike : List.Forall₂ (fun entry entry' => entry.1 = entry'.1 ∧
      List.Forall₂ (Alike deployment other) entry.2 entry'.2) templates templates')
    (name : String) :
    Option.Rel (List.Forall₂ (Alike deployment other)) (templates.lookup name)
      (templates'.lookup name) := by
  induction alike with
  | nil => exact .none
  | @cons entry entry' templates templates' first rest inductionHypothesis =>
      obtain ⟨key, template⟩ := entry
      obtain ⟨key', template'⟩ := entry'
      obtain ⟨same, alike⟩ := first
      cases same
      rw [List.lookup_cons, List.lookup_cons]
      cases name == key with
      | true => exact .some alike
      | false => exact inductionHypothesis

/-- A stack is built alike with any environments. -/
theorem provision_similar (indistinct : Indistinct deployment other)
    (envId templateName : String) :
    (DockerManager.provision deployment envId templateName).Similar credentials
      (DockerManager.provision other envId templateName) := by
  unfold DockerManager.provision
  have found := lookup_alike indistinct.templates templateName
  generalize deployment.templates.lookup templateName = template at found ⊢
  generalize other.templates.lookup templateName = template' at found ⊢
  cases found with
  | none => rfl
  | some alike =>
      cases alike with
      | nil => rfl
      | cons first rest =>
          have alike := List.Forall₂.cons first rest
          refine Program.Similar.bind rfl fun network => ?_
          rw [roles_eq alike]
          exact (startContainers_similar indistinct.settings (startOrder_alike alike) envId _ []
            none).bind fun _ => rfl

/-- An attempt to provision runs alike with any environments. -/
theorem provisionAttempt_similar (indistinct : Indistinct deployment other) (envId : String)
    (started : Time) :
    (Worker.provisionAttempt deployment envId started).Similar credentials
      (Worker.provisionAttempt other envId started) := by
  refine Program.Similar.bind rfl fun found => ?_
  cases found with
  | none => rfl
  | some loaded =>
      exact Program.Similar.bind rfl fun now => Program.Similar.bind rfl fun _ =>
        (provision_similar indistinct _ _).mapError.bind fun result => rfl

/-- Every role runs alike with any environments. -/
theorem program_similar (indistinct : Indistinct deployment other) (role : Role) :
    (program deployment role).Similar credentials (program other role) := by
  cases role with
  | request request =>
      cases request with
      | create principal payload =>
          unfold program Router.createEnvironment
          rw [indistinct.settings]
          rfl
      | _ => rfl
  | task message =>
      unfold program
      dsimp only
      split
      · exact Program.Similar.bind rfl fun started =>
          (provisionAttempt_similar indistinct _ _).tryCatch fun failure => rfl
      · rfl
  | sweep sweep =>
      cases sweep with
      | reapExpired => rfl
      | reconcileOrphans =>
          unfold program Worker.reconcileOrphans
          rw [indistinct.settings]
          rfl
      | recoverStale =>
          unfold program Worker.recoverStaleTransitions
          rw [indistinct.settings]
          rfl

/-! ## The shipped templates with another password -/

/-- What becomes of a value, but for what it is formatted to. -/
def outcome (deployment : Deployment) (context : List (String × String)) :
    EnvironmentValue → Except Exn Unit
  | .other _ => .ok ()
  | .text text => (deployment.strFormat text context).map fun _ => ()

/-- A loop fails as another one does if each of its rounds does. -/
theorem mapM_outcome {α β γ δ : Type} {first : α → Except Exn γ} {second : β → Except Exn δ}
    {items : List α} {others : List β}
    (same : List.Forall₂ (fun item other =>
      (first item).map (fun _ => ()) = (second other).map fun _ => ()) items others) :
    (items.mapM first).map (fun _ => ()) = (others.mapM second).map fun _ => () := by
  induction same with
  | nil => rfl
  | @cons item other items others head tail inductionHypothesis =>
      rw [List.mapM_cons, List.mapM_cons]
      cases made : first item with
      | error exc =>
          cases made' : second other with
          | error exc' => rw [made, made'] at head; cases head; rfl
          | ok value' => rw [made, made'] at head; cases head
      | ok value =>
          cases made' : second other with
          | error exc' => rw [made, made'] at head; cases head
          | ok value' =>
              cases rest : items.mapM first <;> cases rest' : others.mapM second <;>
                rw [rest, rest'] at inductionHypothesis <;> cases inductionHypothesis <;> rfl

/-- Blocks with the same keys are resolved alike if their values have the same outcomes. -/
theorem resolves_of_outcomes
    (same : List.Forall₂ (fun entry entry' => entry.1 = entry'.1 ∧ ∀ context,
      outcome deployment context entry.2 = outcome other context entry'.2)
      spec.environment spec'.environment) (envId : String) (roles : List String) :
    (Compose.resolveEnvironment deployment envId spec roles).map (fun _ => ()) =
      (Compose.resolveEnvironment other envId spec' roles).map fun _ => () := by
  refine mapM_outcome (same.imp fun entry entry' alike => ?_)
  obtain ⟨key, value⟩ := entry
  obtain ⟨key', value'⟩ := entry'
  obtain ⟨keys, outcomes⟩ := alike
  cases keys
  have outcomes := outcomes (Compose.formatContext envId roles)
  cases value with
  | other value =>
      cases value' with
      | other value' => rfl
      | text text' =>
          unfold outcome at outcomes
          dsimp only at outcomes ⊢
          cases formatted' : other.strFormat text' (Compose.formatContext envId roles) with
          | error exc' => rw [formatted'] at outcomes; cases outcomes
          | ok resolved' => rfl
  | text text =>
      cases value' with
      | other value' =>
          unfold outcome at outcomes
          dsimp only at outcomes ⊢
          cases formatted : deployment.strFormat text (Compose.formatContext envId roles) with
          | error exc => rw [formatted] at outcomes; cases outcomes
          | ok resolved => rfl
      | text text' =>
          unfold outcome at outcomes
          dsimp only at outcomes ⊢
          cases formatted : deployment.strFormat text (Compose.formatContext envId roles) <;>
            cases formatted' : other.strFormat text' (Compose.formatContext envId roles) <;>
              rw [formatted, formatted'] at outcomes <;> cases outcomes <;> rfl

/-- The environment blocks of the shipped template, with this password of the database. -/
def blocks (password : String) : List (List (String × EnvironmentValue)) :=
  [ [ ("POSTGRES_USER", .text "app"),
      ("POSTGRES_PASSWORD", .text password),
      ("POSTGRES_DB", .text "app") ],
    [ ("DATABASE_URL", .text ("postgresql://app:" ++ password ++ "@{db_host}:5432/app")),
      ("ENV_ID", .text "{env_id}") ] ]

/-- The service as shipped, with this password of the database. -/
def withPassword (password : String) : Deployment where
  templates := Compose.templates.map fun (name, template) =>
    (name, template.zipWith (fun spec block => { spec with environment := block })
      (blocks password))
  strFormat := Compose.formatNamed

example : withPassword "app" = Compose.shipped := rfl

/-- A text without braces. -/
def Braceless (text : String) : Prop :=
  ∀ char ∈ text.toList, char ≠ '{' ∧ char ≠ '}'

instance (text : String) : Decidable (Braceless text) :=
  decidable_of_iff (text.toList.all fun char => char != '{' && char != '}')
    (by simp [Braceless])

/-- Characters other than braces are kept. -/
theorem formatChars_append {context : List (String × String)} {plain : List Char}
    (braceless : ∀ char ∈ plain, char ≠ '{' ∧ char ≠ '}') (rest : List Char) :
    Compose.formatChars context none (plain ++ rest) =
      (Compose.formatChars context none rest).map fun tail => plain ++ tail := by
  induction plain with
  | nil =>
      rw [List.nil_append]
      cases Compose.formatChars context none rest <;> rfl
  | cons char plain inductionHypothesis =>
      obtain ⟨opening, closing⟩ := braceless char List.mem_cons_self
      rw [List.cons_append, Compose.formatChars, inductionHypothesis fun other member =>
        braceless other (List.mem_cons_of_mem _ member)]
      · cases Compose.formatChars context none rest <;> rfl
      all_goals simp [opening, closing]

/-- Whether a text can be formatted does not depend on what stands before its braces. -/
theorem formatNamed_append {text text' : String} (braceless : Braceless text)
    (braceless' : Braceless text') (ending : String) (context : List (String × String)) :
    (Compose.formatNamed (text ++ ending) context).map (fun _ => ()) =
      (Compose.formatNamed (text' ++ ending) context).map fun _ => () := by
  unfold Compose.formatNamed
  rw [String.toList_append, String.toList_append, formatChars_append braceless,
    formatChars_append braceless']
  cases Compose.formatChars context none ending.toList <;> rfl

/-- With one password or another, the shipped templates differ in credentials only. -/
theorem indistinct_withPassword {password password' : String}
    (braceless : Braceless password) (braceless' : Braceless password') :
    Indistinct (withPassword password) (withPassword password') := by
  have prefixed : ∀ {text}, Braceless text → Braceless ("postgresql://app:" ++ text) := by
    intro text braceless char member
    rw [String.toList_append, List.mem_append] at member
    rcases member with fixed | secret
    · have fixedPart : Braceless "postgresql://app:" := by decide
      exact fixedPart char fixed
    · exact braceless char secret
  have bare : ∀ context, (Compose.formatNamed password context).map (fun _ => ()) =
      (Compose.formatNamed password' context).map fun _ => () := by
    intro context
    have same := formatNamed_append braceless braceless' "" context
    rw [String.append_empty, String.append_empty] at same
    exact same
  have url := formatNamed_append (prefixed braceless) (prefixed braceless')
    "@{db_host}:5432/app"
  refine ⟨rfl, .cons ⟨rfl, .cons ⟨rfl, ?_⟩ (.cons ⟨rfl, ?_⟩ .nil)⟩ .nil⟩
  · exact resolves_of_outcomes (.cons ⟨rfl, fun _ => rfl⟩ (.cons ⟨rfl, bare⟩
      (.cons ⟨rfl, fun _ => rfl⟩ .nil)))
  · exact resolves_of_outcomes (.cons ⟨rfl, url⟩ (.cons ⟨rfl, fun _ => rfl⟩ .nil))

/-! ## Runs -/

/-- What can be seen of the service without the environments of containers. -/
def visible (config : System) : System :=
  config.masked credentials

/-- No run shows a credential. Whatever happens, in whatever order, two deployments that differ
only in the environment blocks of their templates reach the same world, with the same rows,
messages and metrics, and their threads end with the same answers and make the same calls with
the same replies, but for the environment that they pass to `containers.run`. -/
theorem confidential (indistinct : Indistinct deployment other) (refuses : Bool)
    (events : List Occurrence) :
    ((System.initial refuses).run (machine deployment) (fun _ _ => True) events).map visible =
      ((System.initial refuses).run (machine other) (fun _ _ => True) events).map visible := by
  have exec : (machine other).exec = (machine deployment).exec := rfl
  exact Config.run_eq_of_similar (ignores deployment) exec rfl (program_similar indistinct)
    (fun _ _ => True) events (System.initial refuses)

theorem confidential_of_rotation :
    ((System.initial true).run (machine (withPassword "app")) (fun _ _ => True)
        Sample.firstAttempt).isSome = true ∧
      ((System.initial true).run (machine (withPassword "app")) (fun _ _ => True)
        Sample.firstAttempt).map visible =
      ((System.initial true).run (machine (withPassword "hunter2")) (fun _ _ => True)
        Sample.firstAttempt).map visible := by
  refine ⟨by decide +kernel, ?_⟩
  exact confidential (indistinct_withPassword (by decide) (by decide)) true Sample.firstAttempt

end Confidentiality

end Provisioner
