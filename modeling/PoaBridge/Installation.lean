import PoaBridge.Bridge
import PoaBridge.FirstSave

/-!
# From the first start on

`execute` of `cli/src/main.rs`, over the whole life of a bridge: the process is started
when there is no database yet, it creates the contracts and writes the first database,
and from then on it relays between them, with any number of crashes and restarts at any
point.

`Bridge` begins with a database.  This module is about where that database comes from,
and the runs of `World` are the later part of its runs.  A first database that is not
written completely is either not readable, or the only number that can be wrong is the
last one (`Toml.ReadsCut`).

`installation_sound` is the result.  The process relays nothing before it has a database.
It never creates contracts while there is a file.  All that it relays is between two
contracts whose creation both nodes have confirmed, and no log of these contracts after
the blocks of their creation is passed over.
-/

namespace PoaBridge

open PollLoop

variable {Digest : Type}

/-! ## The runs -/

inductive Process (Digest : Type) where
  | stopped
  | deploying (deploy : Deploy Digest)
  | running (bridge : Bridge Digest)

/-- The file, the process, what its components share, and the databases of all the
deployments that came to their end. -/
structure Installation (Digest : Type) where
  file : DatabaseFile
  process : Process Digest
  shared : Shared Digest
  deployments : List Database

namespace Installation

inductive Step (Digest : Type) where
  | start (answers : StartAnswers)
  /-- `create_deploy(..)` is polled.  What follows at once is a part of the step. -/
  | deploy (script : List (Deploy.Answers Digest)) (save : FirstSave)
  | poll (script : List (BridgeEventStream.Answers Digest)) (save : Save)
  | kill

/-- The directory is empty. -/
def initial : Installation Digest where
  file := .missing
  process := .stopped
  shared := ⟨0, 0, none, none, 0, 0, []⟩
  deployments := []

/-- The chain ids and the nonces. -/
def startUp (answers : StartAnswers) : Except Error (Deploy Digest) := do
  let homeChainId ← expect "can't retrieve home chain_id" (chainIdRetrieval answers.homeChainId)
  let foreignChainId ←
    expect "can't retrieve foreign chain_id" (chainIdRetrieval answers.foreignChainId)
  let homeNonce ← expect "can't initialize home nonce" answers.homeNonce
  let foreignNonce ← expect "can't initialize foreign nonce" answers.foreignNonce
  return createDeploy homeChainId foreignChainId homeNonce foreignNonce

/-- The installation as the bridge sees it. -/
def world (self : Installation Digest) (file : Database) : World Digest where
  file := file
  process :=
    match self.process with
    | .running bridge => some bridge
    | _ => none
  shared := self.shared

def ofWorld (self : Installation Digest) (w : World Digest) : Installation Digest where
  file := .holds w.file
  process :=
    match w.process with
    | some bridge => .running bridge
    | none => .stopped
  shared := w.shared
  deployments := self.deployments

/-- `create_bridge`, with the database of the file. -/
def listen (app : App Digest) (self : Installation Digest) (database : Database)
    (deploy : Deploy Digest) : Installation Digest :=
  self.ofWorld ((self.world database).step app
    (.start deploy.homeChainId deploy.foreignChainId deploy.homeNonce deploy.foreignNonce))

/-- What follows a poll of the deployment. -/
def deployed (app : App Digest) (toml : Toml) (self : Installation Digest)
    (deploy : Deploy Digest) (save : FirstSave) : Poll Deployed → Installation Digest
  | .ok .notReady => { self with process := .deploying deploy }
  | .ok (.ready (.existing database)) => listen app self database deploy
  | .ok (.ready (.new database)) =>
    let self := {
      self with
      file := save.file toml database
      process := .stopped
      deployments := self.deployments ++ [database] }
    match save with
    | .saved => listen app self database deploy
    | _ => self
  | .error _ => { self with process := .stopped }

def step (app : App Digest) (config : DeployConfig) (toml : Toml) (self : Installation Digest) :
    Step Digest → Installation Digest
  | .start answers =>
    match startUp answers with
    | .ok deploy => { self with process := .deploying deploy }
    | .error _ => { self with process := .stopped }
  | .deploy script save =>
    match self.process with
    | .deploying deploy =>
      let (deploy, result) := Deploy.poll app config self.file deploy script
      deployed app toml self deploy save result
    | _ => self
  | .poll script save =>
    match self.file, self.process with
    | .holds file, .running _ => self.ofWorld ((self.world file).step app (.poll script save))
    | _, _ => self
  | .kill => { self with process := .stopped }

def run (app : App Digest) (config : DeployConfig) (toml : Toml) (self : Installation Digest)
    (steps : List (Step Digest)) : Installation Digest :=
  steps.foldl (step app config toml) self

/-- The nodes report all logs, and only receipts of transactions that they confirm. -/
def Step.Honest (chains : Chains)
    (confirmed : Side → Bytes → TransactionReceipt Digest → Prop) : Step Digest → Prop
  | .deploy script _ => ∀ answers ∈ script, answers.Honest confirmed
  | .poll script _ => ∀ answers ∈ script, answers.Honest chains
  | _ => True

/-! ## The invariant -/

variable {app : App Digest} {config : DeployConfig} {toml : Toml} {chains : Chains}
  {confirmed : Side → Bytes → TransactionReceipt Digest → Prop}

/-- What the bridge relays depends on the contracts of its database only. -/
theorem relaySpec_withdrawConfirm (app : App Digest) (database : Database) (chains : Chains)
    (block : UInt64) (relay : Relay) :
    relaySpec app { database with checkedWithdrawConfirm := block } chains relay =
      relaySpec app database chains relay := by
  cases relay <;> rfl

/-- The bridge goes on from the database of a deployment, whose last number can be cut. -/
structure Listens (app : App Digest) (chains : Chains) (deployment : Database) (w : World Digest)
    (block : UInt64) : Prop where
  block_le : block ≤ deployment.checkedWithdrawConfirm
  inv : w.Inv app { deployment with checkedWithdrawConfirm := block } chains

/-- What holds of the installation, for each state of the file. -/
def FileInv (app : App Digest) (chains : Chains) (self : Installation Digest) :
    DatabaseFile → Prop
  | .holds file => ∃ deployment ∈ self.deployments, ∃ block,
      Listens app chains deployment (self.world file) block
  | _ => self.shared.receipts = [] ∧ ∀ bridge, self.process ≠ .running bridge

structure Inv (app : App Digest) (config : DeployConfig) (chains : Chains)
    (confirmed : Side → Bytes → TransactionReceipt Digest → Prop) (s : Installation Digest) :
    Prop where
  deploying : ∀ deploy, s.process = .deploying deploy →
    Deploy.Inv app config confirmed s.file deploy
  deployments : ∀ deployment ∈ s.deployments, Deploy.IsNew app config confirmed deployment
  file : FileInv app chains s s.file

theorem inv_initial : Inv app config chains confirmed (initial : Installation Digest) where
  deploying _ h := by cases h
  deployments _ h := by cases h
  file := ⟨rfl, fun _ h => by cases h⟩

theorem FileInv.idle {s : Installation Digest} {file : DatabaseFile}
    (h : FileInv app chains s file) {process : Process Digest}
    (hprocess : ∀ bridge, process ≠ .running bridge) :
    FileInv app chains { s with process := process } file := by
  cases file with
  | holds file =>
    obtain ⟨deployment, hmem, block, hle, hinv⟩ := h
    refine ⟨deployment, hmem, block, hle, ?_⟩
    have hkill := World.inv_step (s := .kill) trivial hinv
    have hworld : ({ s with process := process } : Installation Digest).world file =
        World.step app (s.world file) .kill := by
      cases process with
      | running bridge => exact absurd rfl (hprocess bridge)
      | _ => rfl
    rw [hworld]
    exact hkill
  | _ => exact ⟨h.1, hprocess⟩

/-- The same installation, with a process that deploys. -/
theorem Inv.deploy {s : Installation Digest} (h : Inv app config chains confirmed s)
    {deploy : Deploy Digest} (hdeploy : Deploy.Inv app config confirmed s.file deploy) :
    Inv app config chains confirmed { s with process := .deploying deploy } where
  deploying deploy' heq := by
    cases heq
    exact hdeploy
  deployments := h.deployments
  file := h.file.idle fun _ heq => by cases heq

/-- The same installation, without a process. -/
theorem Inv.stop {s : Installation Digest} (h : Inv app config chains confirmed s) :
    Inv app config chains confirmed { s with process := .stopped } where
  deploying _ heq := by cases heq
  deployments := h.deployments
  file := h.file.idle fun _ heq => by cases heq

/-- The bridge of a database of a deployment. -/
theorem inv_ofWorld {s : Installation Digest} {deployment : Database} {w : World Digest}
    {block : UInt64} (hdeployments : ∀ deployment ∈ s.deployments,
      Deploy.IsNew app config confirmed deployment)
    (hmem : deployment ∈ s.deployments) (h : Listens app chains deployment w block) :
    Inv app config chains confirmed (s.ofWorld w) := by
  refine ⟨?_, hdeployments, deployment, hmem, block, h.block_le, ?_⟩
  · intro deploy heq
    unfold ofWorld at heq
    dsimp only at heq
    split at heq <;> cases heq
  · have hworld : (s.ofWorld w).world w.file = w := by
      obtain ⟨file, process, shared⟩ := w
      cases process <;> rfl
    rw [hworld]
    exact h.inv

theorem inv_listen {s : Installation Digest} {deployment file : Database} {block : UInt64}
    (deploy : Deploy Digest)
    (hdeployments : ∀ deployment ∈ s.deployments, Deploy.IsNew app config confirmed deployment)
    (hmem : deployment ∈ s.deployments)
    (h : Listens app chains deployment (s.world file) block) :
    Inv app config chains confirmed (listen app s file deploy) :=
  inv_ofWorld hdeployments hmem ⟨h.block_le, World.inv_start h.inv _ _ _ _⟩

/-- The file that the first save leaves belongs to a deployment. -/
theorem inv_saved {s : Installation Digest} {database : Database} (save : FirstSave)
    (htoml : toml.ReadsCut) (hreceipts : s.shared.receipts = [])
    (hprocess : s.process = .stopped) (hdeployments : ∀ deployment ∈ s.deployments,
      Deploy.IsNew app config confirmed deployment)
    (hmem : database ∈ s.deployments) (hfile : s.file = save.file toml database) :
    Inv app config chains confirmed s := by
  refine ⟨?_, hdeployments, ?_⟩
  · intro deploy heq
    rw [hprocess] at heq
    cases heq
  · have hbegins (block : UInt64) (hle : block ≤ database.checkedWithdrawConfirm) :
        FileInv app chains s (.holds { database with checkedWithdrawConfirm := block }) := by
      refine ⟨database, hmem, block, hle, ?_⟩
      have hinitial := @World.inv_initial _ app
        { database with checkedWithdrawConfirm := block } chains
      refine ⟨hinitial.file.recorded (.of_eq hreceipts), ?_, ?_⟩
      · intro receipt hreceipt
        rw [show (s.world _).shared.receipts = [] from hreceipts] at hreceipt
        cases hreceipt
      · intro bridge heq
        unfold world at heq
        rw [hprocess] at heq
        cases heq
    rw [hfile]
    cases save with
    | saved => exact hbegins database.checkedWithdrawConfirm (UInt64.le_refl _)
    | createError kind =>
      refine ⟨hreceipts, fun bridge heq => ?_⟩
      rw [hprocess] at heq
      cases heq
    | writeError kind written =>
      rw [FirstSave.file]
      split
      · rename_i loaded hload
        obtain ⟨block, hle, rfl⟩ := htoml database written loaded hload
        exact hbegins block hle
      · refine ⟨hreceipts, fun bridge heq => ?_⟩
        rw [hprocess] at heq
        cases heq

theorem inv_deploy {s : Installation Digest} {deploy : Deploy Digest}
    {script : List (Deploy.Answers Digest)} (save : FirstSave) (htoml : toml.ReadsCut)
    (hscript : ∀ answers ∈ script, answers.Honest confirmed)
    (h : Inv app config chains confirmed s) (hprocess : s.process = .deploying deploy) :
    Inv app config chains confirmed (step app config toml s (.deploy script save)) := by
  have hfile := h.file
  obtain ⟨hinv, hpost⟩ := Deploy.poll_spec hscript (h.deploying deploy hprocess)
  rw [step, hprocess]
  dsimp only
  generalize Deploy.poll app config s.file deploy script = polled at hinv hpost ⊢
  rcases polled with ⟨deploy', e | _ | database | database⟩
  · exact h.stop
  · exact h.deploy (hinv rfl)
  · -- there was no file, so nothing has been relayed
    obtain ⟨hmissing, -, hnew⟩ := hpost
    rw [hmissing] at hfile
    have hdeployments : ∀ deployment ∈ s.deployments ++ [database],
        Deploy.IsNew app config confirmed deployment := by
      intro deployment hmem
      rcases List.mem_append.1 hmem with hmem | hmem
      · exact h.deployments deployment hmem
      · rw [List.mem_singleton.1 hmem]
        exact hnew
    have hmem : database ∈ s.deployments ++ [database] := by simp
    have hsaved := @inv_saved _ app config toml chains confirmed
      { s with
        file := save.file toml database
        process := .stopped
        deployments := s.deployments ++ [database] } database save htoml hfile.1 rfl hdeployments
      hmem rfl
    cases save with
    | saved =>
      obtain ⟨deployment, hmem, block, hlistens⟩ := hsaved.file
      exact inv_listen deploy' hdeployments hmem hlistens
    | createError kind => exact hsaved
    | writeError kind written => exact hsaved
  · rw [show s.file = .holds database from hpost] at hfile
    obtain ⟨deployment, hmem, block, hlistens⟩ := hfile
    exact inv_listen deploy' h.deployments hmem hlistens

theorem inv_step {s : Installation Digest} {event : Step Digest} (htoml : toml.ReadsCut)
    (hevent : event.Honest chains confirmed) (h : Inv app config chains confirmed s) :
    Inv app config chains confirmed (step app config toml s event) := by
  cases event with
  | start answers =>
    rw [step]
    split
    · rename_i deploy hstart
      unfold startUp at hstart
      obtain ⟨homeChainId, -, hstart⟩ := Results.exists_of_bind_eq_ok hstart
      obtain ⟨foreignChainId, -, hstart⟩ := Results.exists_of_bind_eq_ok hstart
      obtain ⟨homeNonce, -, hstart⟩ := Results.exists_of_bind_eq_ok hstart
      obtain ⟨foreignNonce, -, hstart⟩ := Results.exists_of_bind_eq_ok hstart
      cases hstart
      exact h.deploy (Deploy.inv_createDeploy homeChainId foreignChainId homeNonce foreignNonce)
    · exact h.stop
  | deploy script save =>
    cases hprocess : s.process with
    | deploying deploy => exact inv_deploy save htoml hevent h hprocess
    | _ =>
      rw [step, hprocess]
      exact h
  | poll script save =>
    cases hfile : s.file with
    | holds file =>
      cases hprocess : s.process with
      | running bridge =>
        have hinv := h.file
        rw [hfile] at hinv
        obtain ⟨deployment, hmem, block, hle, hinv⟩ := hinv
        rw [step, hfile, hprocess]
        exact inv_ofWorld h.deployments hmem ⟨hle, World.inv_step hevent hinv⟩
      | _ =>
        rw [step, hfile, hprocess]
        exact h
    | _ =>
      rw [step, hfile]
      exact h
  | kill => exact h.stop

/-! ## What an installation guarantees -/

/-- Contracts are created only while there is no file. -/
theorem deployments_step {s : Installation Digest} {event : Step Digest}
    (hevent : event.Honest chains confirmed) (h : Inv app config chains confirmed s)
    (hfile : s.file ≠ .missing) :
    (step app config toml s event).deployments = s.deployments := by
  cases event with
  | start answers =>
    rw [step]
    split <;> rfl
  | deploy script save =>
    cases hprocess : s.process with
    | deploying deploy =>
      have hpost := (Deploy.poll_spec hevent (h.deploying deploy hprocess)).2
      rw [step, hprocess]
      dsimp only
      generalize Deploy.poll app config s.file deploy script = polled at hpost ⊢
      rcases polled with ⟨deploy', e | _ | database | database⟩
      · rfl
      · rfl
      · exact absurd hpost.1 hfile
      · rfl
    | _ => rw [step, hprocess]
  | poll script save =>
    rw [step]
    split <;> rfl
  | kill => rfl

/-- The contracts of a bridge that has a database stay the same. -/
theorem contracts_step {s : Installation Digest} {event : Step Digest} {file : Database}
    (hevent : event.Honest chains confirmed) (h : Inv app config chains confirmed s)
    (hfile : s.file = .holds file) :
    ∃ file', (step app config toml s event).file = .holds file' ∧
      file'.homeContractAddress = file.homeContractAddress ∧
      file'.foreignContractAddress = file.foreignContractAddress := by
  have hsame {s' : Installation Digest} (heq : s'.file = s.file) :
      ∃ file', s'.file = .holds file' ∧
        file'.homeContractAddress = file.homeContractAddress ∧
        file'.foreignContractAddress = file.foreignContractAddress :=
    ⟨file, heq.trans hfile, rfl, rfl⟩
  cases event with
  | start answers =>
    rw [step]
    split <;> exact hsame rfl
  | deploy script save =>
    cases hprocess : s.process with
    | deploying deploy =>
      have hpost := (Deploy.poll_spec hevent (h.deploying deploy hprocess)).2
      rw [step, hprocess]
      dsimp only
      generalize Deploy.poll app config s.file deploy script = polled at hpost ⊢
      rcases polled with ⟨deploy', e | _ | database | database⟩
      · exact hsame rfl
      · exact hsame rfl
      · rw [hfile] at hpost
        cases hpost.1
      · exact hsame hpost.symm
    | _ =>
      rw [step, hprocess]
      exact hsame rfl
  | poll script save =>
    cases hprocess : s.process with
    | running bridge =>
      have hinv := h.file
      rw [hfile] at hinv
      obtain ⟨deployment, -, block, -, hinv⟩ := hinv
      have hnext := (World.inv_step (s := .poll script save) hevent hinv).file
      rw [step, hfile, hprocess]
      refine ⟨_, rfl, ?_, ?_⟩
      · exact hnext.homeContract.trans hinv.file.homeContract.symm
      · exact hnext.foreignContract.trans hinv.file.foreignContract.symm
    | _ =>
      rw [step, hfile, hprocess]
      exact hsame rfl
  | kill => exact hsame rfl

/-- The bridge with this database relays between the contracts of a deployment, and has
relayed every log of them after their creation, up to its checkpoints. -/
structure Installed (app : App Digest) (chains : Chains) (deployment file : Database)
    (receipts : List (Receipt Digest)) : Prop where
  homeContract : file.homeContractAddress = deployment.homeContractAddress
  foreignContract : file.foreignContractAddress = deployment.foreignContractAddress
  relayed : ∀ relay b log, (deployment.checked relay).toNat < b →
    b ≤ (file.checked relay).toNat → log ∈ (relaySpec app deployment chains relay).blocks b →
    (relaySpec app deployment chains relay).filter.matches log = true →
    (relaySpec app deployment chains relay).duty log = true →
    ∃ receipt ∈ receipts, receipt.relay = relay ∧ receipt.job.log = log
  valid : ∀ receipt ∈ receipts, (relaySpec app deployment chains receipt.relay).Valid app receipt

/-- What the states of an installation have in common, and what a next step can do. -/
structure Sound (app : App Digest) (config : DeployConfig) (toml : Toml) (chains : Chains)
    (confirmed : Side → Bytes → TransactionReceipt Digest → Prop) (s : Installation Digest) :
    Prop where
  /-- Without a database nothing has been relayed. -/
  idle : (∀ file, s.file ≠ .holds file) → s.shared.receipts = []
  /-- Both nodes have confirmed the creation of the contracts. -/
  installed : ∀ file, s.file = .holds file → ∃ deployment ∈ s.deployments,
    Deploy.IsNew app config confirmed deployment ∧
      Installed app chains deployment file s.shared.receipts
  /-- Contracts are created only while there is no file. -/
  final : s.file ≠ .missing → ∀ event : Step Digest, event.Honest chains confirmed →
    (step app config toml s event).deployments = s.deployments
  /-- The database stays one of the same contracts. -/
  fixed : ∀ file, s.file = .holds file → ∀ event : Step Digest, event.Honest chains confirmed →
    ∃ file', (step app config toml s event).file = .holds file' ∧
      file'.homeContractAddress = file.homeContractAddress ∧
      file'.foreignContractAddress = file.foreignContractAddress

theorem Listens.installed {deployment : Database} {w : World Digest} {block : UInt64}
    (h : Listens app chains deployment w block) :
    Installed app chains deployment w.file w.shared.receipts := by
  have hsound := h.inv.sound
  refine ⟨h.inv.file.homeContract, h.inv.file.foreignContract, ?_, ?_⟩
  · intro relay b log hb hblock hmem hfilter hduty
    rw [← relaySpec_withdrawConfirm app deployment chains block] at hmem hfilter hduty
    refine hsound.relayed relay b log (Nat.lt_of_le_of_lt ?_ hb) hblock hmem hfilter hduty
    cases relay with
    | withdrawConfirm => exact UInt64.le_iff_toNat_le.1 h.block_le
    | _ => exact Nat.le_refl _
  · intro receipt hreceipt
    rw [← relaySpec_withdrawConfirm app deployment chains block]
    exact hsound.valid receipt hreceipt

theorem Inv.sound {s : Installation Digest} (h : Inv app config chains confirmed s) :
    Sound app config toml chains confirmed s := by
  refine ⟨fun hnone => ?_, fun file hfile => ?_, fun hfile event hevent => ?_,
    fun file hfile event hevent => ?_⟩
  · have hinv := h.file
    cases hfile : s.file with
    | holds file => exact absurd hfile (hnone file)
    | _ =>
      rw [hfile] at hinv
      exact hinv.1
  · have hinv := h.file
    rw [hfile] at hinv
    obtain ⟨deployment, hmem, block, hlistens⟩ := hinv
    exact ⟨deployment, hmem, h.deployments deployment hmem, hlistens.installed⟩
  · exact deployments_step hevent h hfile
  · exact contracts_step hevent h hfile

/-- In every state that a run reaches from an empty directory, over all starts, polls and
ends of the process, all answers of the nodes, and all failures of the first save: the
process has relayed nothing without a database, the contracts of a database were created
by it and confirmed by the nodes, no log of them after their creation is passed over, and
neither the contracts nor the deployments change any more. -/
theorem installation_sound (app : App Digest) (config : DeployConfig) (toml : Toml)
    (htoml : toml.ReadsCut) (chains : Chains)
    (confirmed : Side → Bytes → TransactionReceipt Digest → Prop) (steps : List (Step Digest))
    (hsteps : ∀ event ∈ steps, event.Honest chains confirmed) :
    Sound app config toml chains confirmed (run app config toml initial steps) := by
  apply Inv.sound
  refine List.foldlRecOn steps (step app config toml)
    (motive := Inv app config chains confirmed) inv_initial ?_
  exact fun s hs event hmem => inv_step htoml (hsteps event hmem) hs

/-! ### A first start and a second one -/

/-- An authority that creates the contracts of `World.deployedDatabase`. -/
def deployConfig : DeployConfig where
  enabled := true
  databasePath := "bridge.db"
  homeBin := [0x60, 0x01]
  foreignBin := [0x60, 0x02]
  requiredSignatures := 1
  accounts := [0xA]
  estimatedGasCostOfWithdraw := 0
  homeDeploy := ⟨1000000, 1⟩
  foreignDeploy := ⟨1000000, 1⟩

/-- The nodes take every transaction, in block 0, and the contracts get these addresses. -/
def creationReceipt (side : Side) (raw : Bytes) : TransactionReceipt Bytes :=
  ⟨raw, 0, some (match side with
    | .home => 0xB0
    | .foreign => 0xF0)⟩

def creationNode (side : Side) : NonceCheck.Answers (TransactionReceipt Bytes) :=
  ⟨.ok .notReady, fun raw => .ok (.ready (creationReceipt side raw))⟩

def creationAnswers : Deploy.Answers Bytes :=
  ⟨none, List.replicate 3 (creationNode .home), List.replicate 3 (creationNode .foreign)⟩

def startAnswers : StartAnswers :=
  ⟨.ok (asciiBytes "1"), .ok (asciiBytes "2"), .ok 0, .ok 0⟩

/-- The process creates the contracts, relays a deposit, crashes and starts again. -/
def installSteps : List (Step Bytes) :=
  [.start startAnswers, .deploy (List.replicate 2 creationAnswers) .saved,
    .poll (List.replicate 3 World.depositAnswers) .saved, .kill, .start startAnswers,
    .deploy [creationAnswers] .saved]

theorem honest_installSteps : ∀ event ∈ installSteps,
    event.Honest World.depositChains fun side raw receipt =>
      receipt = creationReceipt side raw := by
  have hcreation : creationAnswers.Honest fun side raw receipt =>
      receipt = creationReceipt side raw := by
    refine ⟨?_, ?_⟩
    all_goals
      intro answers hmem raw receipt heq
      rw [(List.mem_replicate.1 hmem).2] at heq
      cases heq
      rfl
  intro event hevent
  simp only [installSteps, List.mem_cons, List.not_mem_nil, or_false] at hevent
  rcases hevent with rfl | rfl | rfl | rfl | rfl | rfl
  · trivial
  · intro answers hmem
    rw [(List.mem_replicate.1 hmem).2]
    exact hcreation
  · exact World.honest_depositSteps (.poll (List.replicate 3 World.depositAnswers) .saved)
      (by simp [World.depositSteps])
  · trivial
  · trivial
  · intro answers hmem
    rw [List.mem_singleton.1 hmem]
    exact hcreation

theorem installation_sound_installSteps :
    ((run World.authorityApp deployConfig Toml.simple initial installSteps).file.database?.map
      Database.checkedDepositRelay = some 1 ∧
      (run World.authorityApp deployConfig Toml.simple initial installSteps).deployments.length = 1)
      ∧ Sound World.authorityApp deployConfig Toml.simple World.depositChains
        (fun side raw receipt => receipt = creationReceipt side raw)
        (run World.authorityApp deployConfig Toml.simple initial installSteps) :=
  ⟨by decide +kernel, installation_sound _ _ _ Toml.readsCut_simple _ _ _ honest_installSteps⟩

end Installation

end PoaBridge
