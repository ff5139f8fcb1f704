import PoaBridge.EventStream
import PoaBridge.Lib.Runs

/-!
# The bridge and its checkpoints

`Bridge` of `bridge/src/bridge/mod.rs`, over whole runs: the process is started
from the saved database, it is polled, and it can end at any point, because of an
error, of a shutdown request or of a crash.  Then it is started again.

The checkpoints in the file are sound in every state that a run reaches.  Every
log in a block up to the checkpoint of its relay was relayed: some future for it
ended with `Ok`, because the node accepted the transaction or had it already.
This is `checkpoints_sound`.  The invariant `World.Inv` connects the file with the
streams of the relays, and `World.inv_step` says that every step keeps it.
-/

namespace PoaBridge

open PollLoop

variable {Digest : Type}

/-! ## The bridge -/

structure Bridge (Digest : Type) where
  database : Database
  eventStream : BridgeEventStream Digest

/-- `create_bridge`. -/
def createBridge (app : App Digest) (init : Database) (homeChainId foreignChainId : UInt64) :
    Bridge Digest where
  database := init
  eventStream := createBridgeEventStream app init homeChainId foreignChainId

/-- What happens when the database is saved.  A write that fails leaves the old
database in the file or the new one.  `DatabaseFile` and `TornSave` have the
bytes of the file. -/
inductive Save where
  | saved
  | openError (kind : IoErrorKind)
  | writeError (kind : IoErrorKind) (written : Bool)
deriving DecidableEq, Repr

/-- What `Bridge::poll` leaves: the bridge, the shared data and the file. -/
structure Bridge.Outcome (Digest : Type) where
  bridge : Bridge Digest
  shared : Shared Digest
  file : Database
  result : Poll (Option Unit)

/-- The database is saved after an event. -/
def Bridge.save (bridge : Bridge Digest) (shared : Shared Digest) (file : Database) :
    Save → Bridge.Outcome Digest
  | .saved => ⟨bridge, shared, bridge.database, .ok (.ready (some ()))⟩
  | .openError kind => ⟨bridge, shared, file, .error (.io kind)⟩
  | .writeError kind written =>
    ⟨bridge, shared, if written then bridge.database else file, .error (.io kind)⟩

/-- `Bridge::poll`. -/
def Bridge.poll (app : App Digest) (self : Bridge Digest) (shared : Shared Digest)
    (file : Database) (script : List (BridgeEventStream.Answers Digest)) (save : Save) :
    Bridge.Outcome Digest :=
  match BridgeEventStream.poll app (self.eventStream, shared) script with
  | ((stream, shared), .error e) => ⟨{ self with eventStream := stream }, shared, file, .error e⟩
  | ((stream, shared), .ok .notReady) =>
    ⟨{ self with eventStream := stream }, shared, file, .ok .notReady⟩
  | ((stream, shared), .ok (.ready none)) =>
    ⟨{ self with eventStream := stream }, shared, file, .ok (.ready none)⟩
  | ((stream, shared), .ok (.ready (some check))) =>
    Bridge.save ⟨self.database.update check, stream⟩ shared file save

/-! ## Runs -/

/-- The file, the process if it runs, and what its components share.  The record
of the receipts outlives the process. -/
structure World (Digest : Type) where
  file : Database
  process : Option (Bridge Digest)
  shared : Shared Digest

namespace World

inductive Step (Digest : Type) where
  /-- The process is started.  It asks the nodes for the chain ids and for its
  nonces. -/
  | start (homeChainId foreignChainId : UInt64) (homeNonce foreignNonce : U256)
  | poll (script : List (BridgeEventStream.Answers Digest)) (save : Save)
  /-- The process ends without notice. -/
  | kill

/-- An error ends the process, and so does the end of the stream. -/
def survives : Poll (Option Unit) → Bool
  | .ok .notReady => true
  | .ok (.ready (some ())) => true
  | _ => false

def step (app : App Digest) (self : World Digest) : Step Digest → World Digest
  | .start homeChainId foreignChainId homeNonce foreignNonce =>
    { self with
      process := some (createBridge app self.file homeChainId foreignChainId)
      shared := {
        homeNonce := homeNonce
        foreignNonce := foreignNonce
        homeBalance := none
        foreignBalance := none
        homeGasPrice := app.home.defaultGasPrice
        foreignGasPrice := app.foreign.defaultGasPrice
        receipts := self.shared.receipts } }
  | .poll script save =>
    match self.process with
    | none => self
    | some bridge =>
      let polled := bridge.poll app self.shared self.file script save
      { file := polled.file
        process := if survives polled.result then some polled.bridge else none
        shared := polled.shared }
  | .kill => { self with process := none }

/-- Before the first start. -/
def initial (init : Database) : World Digest where
  file := init
  process := none
  shared := ⟨0, 0, none, none, 0, 0, []⟩

def run (app : App Digest) (self : World Digest) (steps : List (Step Digest)) : World Digest :=
  steps.foldl (step app) self

/-- The event that `Bridge::poll` gets in a step. -/
def event (app : App Digest) (self : World Digest) : Step Digest → Option BridgeChecked
  | .poll script _ =>
    match self.process with
    | none => none
    | some bridge =>
      match (BridgeEventStream.poll app (bridge.eventStream, self.shared) script).2 with
      | .ok (.ready event) => event
      | _ => none
  | _ => none

/-- The nodes report all logs. -/
def Step.Honest (chains : Chains) : Step Digest → Prop
  | .poll script _ => ∀ answers ∈ script, answers.Honest chains
  | _ => True

/-! ## The invariant -/

/-- The checkpoints of a database. -/
def floor (database : Database) (relay : Relay) : Nat := (database.checked relay).toNat

/-- Every log in a block up to the checkpoint is relayed. -/
def Covered (app : App Digest) (init : Database) (chains : Chains) (file : Database)
    (shared : Shared Digest) : Prop :=
  ∀ relay, ((relaySpec app init chains relay).duties (floor init relay) (floor file relay)).Subperm
    ((shared.done relay).map Job.log)

/-- The file belongs to the run that began with the database `init`. -/
structure FileInv (app : App Digest) (init : Database) (chains : Chains) (file : Database)
    (shared : Shared Digest) : Prop where
  homeContract : file.homeContractAddress = init.homeContractAddress
  foreignContract : file.foreignContractAddress = init.foreignContractAddress
  init_le : ∀ relay, floor init relay ≤ floor file relay
  covered : Covered app init chains file shared

structure Inv (app : App Digest) (init : Database) (chains : Chains) (w : World Digest) : Prop where
  file : FileInv app init chains w.file w.shared
  receipts : ∀ receipt ∈ w.shared.receipts,
    (relaySpec app init chains receipt.relay).Valid app receipt
  process : ∀ bridge, w.process = some bridge → bridge.database = w.file ∧
    BridgeEventStream.Inv app init chains (floor w.file) bridge.eventStream w.shared

variable {app : App Digest} {init : Database} {chains : Chains}

/-- The record grows, and the file stays. -/
theorem FileInv.recorded {file : Database} {shared shared' : Shared Digest}
    (h : FileInv app init chains file shared)
    (hrecorded : Recorded app init chains shared shared') :
    FileInv app init chains file shared' :=
  ⟨h.homeContract, h.foreignContract, h.init_le,
    fun relay => (h.covered relay).trans (hrecorded.done_subperm relay)⟩

/-- The checkpoint of a relay moves to the block that it reports. -/
theorem FileInv.update {file : Database} {shared : Shared Digest} {select : Select Digest}
    {event : BridgeChecked} (h : FileInv app init chains file shared)
    (hevent : Select.Reported app init chains (floor file) select shared event) :
    FileInv app init chains (file.update event) shared := by
  refine ⟨by simp [h.homeContract], by simp [h.foreignContract], ?_, ?_⟩
  · intro relay
    by_cases hrelay : relay = event.relay
    · subst hrelay
      rw [floor, floor, Database.checked_update_self]
      exact (h.init_le event.relay).trans hevent.floor_le
    · rw [floor, floor, Database.checked_update_of_ne file hrelay]
      exact h.init_le relay
  · intro relay
    by_cases hrelay : relay = event.relay
    · subst hrelay
      rw [floor, floor, Database.checked_update_self]
      have hcovered := hevent.covered
      rw [relay_relaySpec] at hcovered
      exact hcovered
    · rw [floor, floor, Database.checked_update_of_ne file hrelay]
      exact h.covered relay

/-- The checkpoints of the relays do not go back. -/
theorem floor_le_update {file : Database} {shared : Shared Digest} {select : Select Digest}
    {event : BridgeChecked}
    (hevent : Select.Reported app init chains (floor file) select shared event) (relay : Relay) :
    floor file relay ≤ floor (file.update event) relay := by
  by_cases hrelay : relay = event.relay
  · subst hrelay
    rw [floor, floor, Database.checked_update_self]
    exact hevent.floor_le
  · rw [floor, floor, Database.checked_update_of_ne file hrelay]

/-- The streams of the relays are at least where the new checkpoints are. -/
theorem update_le_position {file : Database} {shared : Shared Digest} {select : Select Digest}
    {event : BridgeChecked} (h : Select.Inv app init chains (floor file) select shared)
    (hevent : Select.Reported app init chains (floor file) select shared event) (relay : Relay) :
    floor (file.update event) relay ≤ (select.logs relay).position := by
  by_cases hrelay : relay = event.relay
  · subst hrelay
    rw [floor, Database.checked_update_self]
    exact hevent.le_position
  · rw [floor, Database.checked_update_of_ne file hrelay]
    exact h.floor_le relay

/-- What a poll of the bridge does: the record grows, the file stays or takes up
the event that a relay reported, and a process that goes on agrees with the
file. -/
structure PollSpec (app : App Digest) (init : Database) (chains : Chains) (file : Database)
    (shared : Shared Digest) (result : Poll (Option BridgeChecked))
    (outcome : Bridge.Outcome Digest) : Prop where
  recorded : Recorded app init chains shared outcome.shared
  file_cases : outcome.file = file ∨ ∃ event select, result = .ok (.ready (some event)) ∧
    outcome.file = file.update event ∧
    Select.Reported app init chains (floor file) select outcome.shared event
  process : survives outcome.result = true → outcome.bridge.database = outcome.file ∧
    BridgeEventStream.Inv app init chains (floor outcome.file) outcome.bridge.eventStream
      outcome.shared

theorem poll_spec {bridge : Bridge Digest} {shared : Shared Digest} {file : Database}
    {script : List (BridgeEventStream.Answers Digest)} (save : Save)
    (hscript : ∀ answers ∈ script, answers.Honest chains) (hdatabase : bridge.database = file)
    (h : BridgeEventStream.Inv app init chains (floor file) bridge.eventStream shared) :
    PollSpec app init chains file shared
      (BridgeEventStream.poll app (bridge.eventStream, shared) script).2
      (bridge.poll app shared file script save) := by
  have hpost := BridgeEventStream.poll_spec hscript h
  unfold Bridge.poll
  generalize BridgeEventStream.poll app (bridge.eventStream, shared) script = polled at hpost ⊢
  rcases polled with ⟨⟨stream, shared'⟩, e | _ | _ | event⟩
  all_goals
    obtain ⟨hrecorded, hpost⟩ := hpost
    dsimp only at hrecorded hpost ⊢
  · exact ⟨hrecorded, .inl rfl, fun h => by cases h⟩
  · exact ⟨hrecorded, .inl rfl, fun _ => ⟨hdatabase, (hpost (by simp)).1⟩⟩
  · exact ⟨hrecorded, .inl rfl, fun h => by cases h⟩
  · obtain ⟨hinv, hevent⟩ := hpost (by simp)
    obtain ⟨hstate, hreported⟩ := hevent event rfl
    subst hdatabase
    cases save with
    | openError kind => exact ⟨hrecorded, .inl rfl, fun h => by cases h⟩
    | writeError kind written =>
      refine ⟨hrecorded, ?_, fun h => by cases h⟩
      cases written with
      | false => exact .inl rfl
      | true => exact .inr ⟨event, stream.bridge, rfl, rfl, hreported⟩
    | saved =>
      refine ⟨hrecorded, .inr ⟨event, stream.bridge, rfl, rfl, hreported⟩, ?_⟩
      intro _
      refine ⟨rfl, ?_, ?_⟩
      · exact hinv.bridge.setFloor (floor_le_update hreported)
          (update_le_position hinv.bridge hreported)
      · intro event' heq
        have hitem : stream.state = .nextItem (some event') := heq
        rw [hstate] at hitem
        cases hitem

theorem inv_initial (init : Database) (chains : Chains) :
    Inv app init chains (initial init : World Digest) := by
  refine ⟨⟨rfl, rfl, fun _ => le_refl _, ?_⟩, ?_, fun _ h => by cases h⟩
  · intro relay
    rw [show (initial init : World Digest).file = init from rfl, Spec.duties_self]
    exact List.nil_subperm
  · intro receipt h
    cases h

/-- The process is started from the file. -/
theorem inv_start {w : World Digest} (h : Inv app init chains w)
    (homeChainId foreignChainId : UInt64) (homeNonce foreignNonce : U256) :
    Inv app init chains
      (step app w (.start homeChainId foreignChainId homeNonce foreignNonce)) := by
  -- the record is the one thing that a start does not reset
  have hfile := h.file.recorded (@Recorded.of_eq _ app init chains w.shared
    (step app w (.start homeChainId foreignChainId homeNonce foreignNonce)).shared rfl)
  refine ⟨hfile, h.receipts, ?_⟩
  intro bridge hbridge
  cases hbridge
  refine ⟨rfl, ⟨?_, ?_, ?_⟩, fun _ h => by cases h⟩
  · exact DepositRelay.inv_createDepositRelay foreignChainId hfile.homeContract
      hfile.foreignContract (hfile.init_le .depositRelay) (hfile.covered .depositRelay)
  · exact WithdrawRelay.inv_createWithdrawRelay homeChainId hfile.homeContract
      hfile.foreignContract (hfile.init_le .withdrawRelay) (hfile.covered .withdrawRelay)
  · exact WithdrawConfirm.inv_createWithdrawConfirm foreignChainId hfile.foreignContract
      (hfile.init_le .withdrawConfirm) (hfile.covered .withdrawConfirm)

theorem inv_poll {w : World Digest} {bridge : Bridge Digest}
    {script : List (BridgeEventStream.Answers Digest)} {save : Save}
    (hscript : ∀ answers ∈ script, answers.Honest chains) (h : Inv app init chains w)
    (hbridge : w.process = some bridge) :
    Inv app init chains (step app w (.poll script save)) := by
  obtain ⟨hdatabase, hstream⟩ := h.process bridge hbridge
  have hspec := poll_spec save hscript hdatabase hstream
  rw [step, hbridge]
  dsimp only
  generalize bridge.poll app w.shared w.file script save = outcome at hspec ⊢
  refine ⟨?_, ?_, ?_⟩
  · have hfile := h.file.recorded hspec.recorded
    rcases hspec.file_cases with heq | ⟨event, select, -, heq, hreported⟩
    · show FileInv app init chains outcome.file outcome.shared
      rw [heq]
      exact hfile
    · show FileInv app init chains outcome.file outcome.shared
      rw [heq]
      exact hfile.update hreported
  · obtain ⟨new, hnew, hvalid⟩ := hspec.recorded
    intro receipt hmem
    rw [show outcome.shared.receipts = _ from hnew] at hmem
    rcases List.mem_append.1 hmem with hmem | hmem
    · exact h.receipts receipt hmem
    · exact hvalid receipt hmem
  · intro bridge' hbridge'
    split at hbridge'
    · rename_i hsurvives
      cases hbridge'
      exact hspec.process hsurvives
    · cases hbridge'

theorem inv_step {w : World Digest} {s : Step Digest} (hs : s.Honest chains)
    (h : Inv app init chains w) : Inv app init chains (step app w s) := by
  cases s with
  | start homeChainId foreignChainId homeNonce foreignNonce =>
    exact inv_start h homeChainId foreignChainId homeNonce foreignNonce
  | poll script save =>
    cases hbridge : w.process with
    | none =>
      rw [step, hbridge]
      exact h
    | some bridge => exact inv_poll hs h hbridge
  | kill => exact ⟨h.file, h.receipts, fun _ h => by cases h⟩

/-- A step changes the checkpoint of a relay only for an event of this relay, and
it never moves it back. -/
theorem checked_step {w : World Digest} {s : Step Digest} (hs : s.Honest chains)
    (h : Inv app init chains w) (relay : Relay) :
    w.file.checked relay ≤ (step app w s).file.checked relay ∧
      ((step app w s).file.checked relay ≠ w.file.checked relay →
        ∃ event, w.event app s = some event ∧ event.relay = relay ∧
          (step app w s).file.checked relay = event.block) := by
  have hunchanged : (step app w s).file = w.file →
      w.file.checked relay ≤ (step app w s).file.checked relay ∧
      ((step app w s).file.checked relay ≠ w.file.checked relay →
        ∃ event, w.event app s = some event ∧ event.relay = relay ∧
          (step app w s).file.checked relay = event.block) := by
    intro heq
    rw [heq]
    exact ⟨UInt64.le_refl _, fun hne => absurd rfl hne⟩
  cases s with
  | start => exact hunchanged rfl
  | kill => exact hunchanged rfl
  | poll script save =>
    cases hbridge : w.process with
    | none =>
      apply hunchanged
      rw [step, hbridge]
    | some bridge =>
      obtain ⟨hdatabase, hstream⟩ := h.process bridge hbridge
      have hspec := poll_spec save hs hdatabase hstream
      rcases hspec.file_cases with heq | ⟨event, select, hresult, heq, hreported⟩
      · apply hunchanged
        rw [step, hbridge]
        exact heq
      · have hfile : (step app w (.poll script save)).file = w.file.update event := by
          rw [step, hbridge]
          exact heq
        have hevent : w.event app (.poll script save) = some event := by
          rw [World.event, hbridge]
          dsimp only
          rw [hresult]
        rw [hfile]
        refine ⟨UInt64.le_iff_toNat_le.2 (floor_le_update hreported relay), ?_⟩
        intro hne
        by_cases hrelay : relay = event.relay
        · subst hrelay
          exact ⟨event, hevent, rfl, Database.checked_update_self _ _⟩
        · exact absurd (Database.checked_update_of_ne w.file hrelay) hne

/-! ## The checkpoints are sound -/

/-- What the file and the record say about the logs, and what a next step can do
to the file. -/
structure Sound (app : App Digest) (init : Database) (chains : Chains) (w : World Digest) :
    Prop where
  /-- Every log that a relay has to relay, in a block up to its checkpoint, has a
  receipt. -/
  relayed : ∀ relay b log, (init.checked relay).toNat < b → b ≤ (w.file.checked relay).toNat →
    log ∈ (relaySpec app init chains relay).blocks b →
    (relaySpec app init chains relay).filter.matches log = true →
    (relaySpec app init chains relay).duty log = true →
    ∃ receipt ∈ w.shared.receipts, receipt.relay = relay ∧ receipt.job.log = log
  /-- Two logs have two receipts, also when they are equal. -/
  covered : ∀ relay, ((relaySpec app init chains relay).duties (init.checked relay).toNat
    (w.file.checked relay).toNat).Subperm ((w.shared.done relay).map Job.log)
  /-- A receipt is for a transaction that relays the log, and the node took it. -/
  valid : ∀ receipt ∈ w.shared.receipts,
    (relaySpec app init chains receipt.relay).Valid app receipt
  /-- No checkpoint decreases. -/
  monotone : ∀ s : Step Digest, s.Honest chains → ∀ relay,
    w.file.checked relay ≤ (step app w s).file.checked relay
  /-- Only an event of its own relay changes a checkpoint. -/
  own_event : ∀ s : Step Digest, s.Honest chains → ∀ relay,
    (step app w s).file.checked relay ≠ w.file.checked relay →
    ∃ event, w.event app s = some event ∧ event.relay = relay ∧
      (step app w s).file.checked relay = event.block

theorem mem_duties {spec : Spec} {init block b : Nat} {log : Log} (hinit : init < b)
    (hblock : b ≤ block) (hmem : log ∈ spec.blocks b) (hfilter : spec.filter.matches log = true)
    (hduty : spec.duty log = true) : log ∈ spec.duties init block := by
  refine List.mem_filter.2 ⟨List.mem_flatMap.2 ⟨b, ?_, List.mem_filter.2 ⟨hmem, hfilter⟩⟩, hduty⟩
  rw [List.mem_range'_1]
  omega

theorem Inv.sound {w : World Digest} (h : Inv app init chains w) : Sound app init chains w := by
  refine ⟨?_, h.file.covered, h.receipts, ?_, ?_⟩
  · intro relay b log hinit hblock hmem hfilter hduty
    have hlog := (h.file.covered relay).subset (mem_duties hinit hblock hmem hfilter hduty)
    obtain ⟨job, hjob, rfl⟩ := List.mem_map.1 hlog
    obtain ⟨receipt, hreceipt, rfl⟩ := List.mem_map.1 hjob
    obtain ⟨hreceipt, hrelay⟩ := List.mem_filter.1 hreceipt
    exact ⟨receipt, hreceipt, by simpa using hrelay, rfl⟩
  · exact fun s hs relay => (checked_step hs h relay).1
  · exact fun s hs relay => (checked_step hs h relay).2

/-- In every state that a run reaches from a database, over all starts, polls and
ends of the process, with all orders of the relays and of the answers: the
checkpoints in the file are sound. -/
theorem checkpoints_sound (app : App Digest) (init : Database) (chains : Chains)
    (steps : List (Step Digest)) (hsteps : ∀ s ∈ steps, s.Honest chains) :
    Sound app init chains (run app (initial init) steps) := by
  apply Inv.sound
  refine List.foldlRecOn steps (step app) (motive := Inv app init chains) ?_ ?_
  · exact inv_initial init chains
  · exact fun w hw s hmem => inv_step (hsteps s hmem) hw

/-! ### A run with a deposit -/

/-- A deposit on the home chain, in block 1. -/
def depositLog : Log where
  address := 0xB0
  topics := [Abi.solidity.depositTopic]
  data := [Abi.addressWord 0xC, 5].flatMap wordBytes
  transactionHash := some 0x77

def depositChains : Chains where
  home := fun b => if b = 1 then [depositLog] else []
  foreign := fun _ => []
  called := fun _ _ _ => False

/-- An authority with a keystore.  The hash is the identity. -/
def authorityApp : App Bytes where
  abi := Abi.solidity
  wallet := ⟨fun tx _ => tx.data, fun _ digest => some digest, fun tx signature _ =>
    some (tx.data ++ signature)⟩
  keccak256 := id
  home := ⟨0xA, 0, none, .fast, 1⟩
  foreign := ⟨0xA, 0, none, .fast, 1⟩
  depositRelayGas := 21000
  withdrawConfirmGas := 21000
  withdrawRelayGas := 21000
  infoEnabled := true

def deployedDatabase : Database := ⟨0xB0, 0xF0, some 0, some 0, 0, 0, 0⟩

/-- A home node at block 1. -/
def homeNode : LogStream.Answers where
  interval := .ok (.ready (some ()))
  blockNumber := .ok (.ready 1)
  logs := fun filter fromBlock toBlock =>
    .ok (.ready (matchingLogs depositChains.home filter fromBlock.toNat toBlock.toNat))

/-- A foreign node that takes every transaction. -/
def foreignNode : NonceCheck.Answers Bytes := ⟨.ok (.ready 0), fun raw => .ok (.ready raw)⟩

def depositAnswers : BridgeEventStream.Answers Bytes where
  homeBalance := List.replicate 3 (.ok (.ready 1000000))
  foreignBalance := List.replicate 3 (.ok (.ready 1000000))
  running := true
  homeGasPrice := []
  foreignGasPrice := []
  bridge := [.depositRelay (List.replicate 3
    ⟨List.replicate 4 homeNode, [(0, List.replicate 3 foreignNode), (0, [])]⟩)]

/-- The process relays the deposit, saves its checkpoint, crashes and starts
again. -/
def depositSteps : List (Step Bytes) :=
  [.start 1 2 0 0, .poll (List.replicate 3 depositAnswers) .saved, .kill, .start 1 2 0 1]

theorem honest_depositSteps : ∀ s ∈ depositSteps, s.Honest depositChains := by
  have hcomplete : Complete depositChains.home homeNode := by
    intro filter fromBlock toBlock logs heq
    cases heq
    exact List.Subperm.refl _
  have hanswers : ∀ answers ∈ List.replicate 3 depositAnswers,
      answers.Honest depositChains := by
    intro answers hmem turn hturn
    rw [(List.mem_replicate.1 hmem).2] at hturn
    rw [List.mem_singleton.1 hturn]
    intro relayAnswers hrelay a ha
    rw [(List.mem_replicate.1 hrelay).2] at ha
    rw [(List.mem_replicate.1 ha).2]
    exact hcomplete
  intro s hs
  simp only [depositSteps, List.mem_cons, List.not_mem_nil, or_false] at hs
  rcases hs with rfl | rfl | rfl | rfl
  · trivial
  · exact hanswers
  · trivial
  · trivial

/-- The run with the deposit: the checkpoint is at its block, and it is sound. -/
theorem checkpoints_sound_depositSteps :
    (run authorityApp (initial deployedDatabase) depositSteps).file.checkedDepositRelay = 1 ∧
      Sound authorityApp deployedDatabase depositChains
        (run authorityApp (initial deployedDatabase) depositSteps) :=
  ⟨by decide +kernel, checkpoints_sound _ _ _ _ honest_depositSteps⟩

end World

end PoaBridge
