import PoaBridge.Contracts.Journal
import PoaBridge.WithdrawConfirm

/-!
# The two chains of `contracts/bridge.sol`

The closed system: `HomeBridge` with the ether of the home chain, `ForeignBridge`
with its `BridgeableToken`, and the authorities between them.  The logs that the
authorities see are the events that the two contracts emit.

A `Journal` is what is public of a chain: the logs of its final blocks, and those
of the block that is being built.  A transaction adds the logs of its events, with
its own hash.  The events that no relay filters for are among the other logs of a
block.

An authority that follows the protocol reads both chains through its `LogStream`s.
It calls `deposit` only with the arguments that `depositRelayPayload` makes of a
log it has seen, and it signs only the messages of logs it has seen.  The faulty
authorities, and everybody else, do what they want.  Signatures are unforgeable.

`Inv` is the invariant of the system, and `transfers_and_payments_backed` is the
result: with fewer faulty authorities than the threshold, every transfer of tokens
goes back to a confirmed `Deposit` event of the home chain, every payment of ether
goes back to a confirmed `Withdraw` event of the foreign chain, and both are made
once.
-/

namespace PoaBridge.Contracts

open BigEndian
open Truffle (Payout)

variable {Digest : Type}

/-! ## The system -/

/-- The contracts and the authorities.  Both contracts are deployed for the same
authorities. -/
structure Setup (Digest : Type) extends CustodyEnv Digest where
  /-- The address of `HomeBridge`. -/
  homeBridge : Address
  requiredSignatures : Nat
  authorities : List Address
  /-- `required_confirmations` of the two nodes. -/
  homeConfirmations : UInt64
  foreignConfirmations : UInt64
  /-- The authorities that do not follow the protocol. -/
  faulty : Finset Address
  /-- The interface of the two contracts. -/
  abi : Abi
  roundTrips : abi.RoundTrips

namespace Setup

variable (setup : Setup Digest)

def homeEnv : HomeEnv Digest := { toEvm := setup.toEvm, bridge := setup.homeBridge }

/-- The filter of the deposit relay. -/
def depositFilter : Filter := depositsFilter setup.abi setup.homeBridge

/-- The filter of the confirmation of withdrawals. -/
def withdrawFilter : Filter := withdrawsFilter setup.abi setup.bridge

/-- An authority that follows the protocol. -/
def Honest (a : Address) : Prop := a ∈ setup.authorities ∧ a ∉ setup.faulty

/-- An honest authority calls `deposit` for a log that its stream has delivered. -/
def Relays (streams : Address → Observer) (a : Address) (payout : Payout) : Prop :=
  setup.Honest a → ∃ log ∈ (streams a).delivered, relayedPayout setup.abi log = some payout

/-- The condition on the calls of the foreign bridge. -/
def Relayed (streams : Address → Observer) : ForeignChain.Call → Prop
  | .deposit sender payout => setup.Relays streams sender payout
  | _ => True

/-- The condition on the transactions of the home chain: no signature of an honest
authority is forged. -/
def Unforged (signed : Address → List Digest) : HomeCall → Prop
  | .withdraw call => ∀ a j, setup.Honest a →
      Truffle.recoverAt setup.ecrecover (ethDataHash setup.keccak256 call.message) call.vs call.rs
        call.ss j = some a →
      ethDataHash setup.keccak256 call.message ∈ signed a
  | _ => True

end Setup

/-- The two chains, and what the authorities have seen and signed. -/
structure TwoChains (Digest : Type) where
  home : HomeHistory
  homeJournal : Journal
  foreign : Custody.Chain Digest
  foreignJournal : Journal
  depositStreams : Address → Observer
  withdrawStreams : Address → Observer
  /-- The digests that an authority has signed by the protocol. -/
  signed : Address → List Digest

namespace TwoChains

/-- What can happen next. -/
inductive Action (deployment : Deployment) where
  /-- A transaction with its hash. -/
  | home (hash : H256) (call : HomeCall)
  | foreign (hash : H256) (call : Custody.Call deployment)
  /-- A block is final. -/
  | mineHome (others : List Log)
  | mineForeign (others : List Log)
  /-- A stream of an authority is polled. -/
  | pollDeposits (authority : Address) (script : List LogStream.Answers)
  | pollWithdraws (authority : Address) (script : List LogStream.Answers)
  /-- A process is started again. -/
  | restartDeposits (authority : Address) (after : UInt64)
  | restartWithdraws (authority : Address) (after : UInt64)
  /-- An authority signs the message of a log. -/
  | sign (authority : Address) (log : Log)

section Execution

variable [DecidableEq Digest]

/-- The chain executes the transaction, and its events become logs. -/
def executeHome (setup : Setup Digest) (s : TwoChains Digest) (hash : H256) (call : HomeCall) :
    TwoChains Digest :=
  match s.home.exec setup.homeEnv call with
  | none => s
  | some home => { s with
    home := home
    homeJournal := s.homeJournal.append
      ((home.bridge.logs.drop s.home.bridge.logs.length).filterMap
        (HomeEvent.log? setup.abi setup.homeBridge hash)) }

def executeForeign (setup : Setup Digest) (s : TwoChains Digest) (hash : H256)
    (call : Custody.Call setup.toDeployment) : TwoChains Digest :=
  match Custody.exec setup.toCustodyEnv s.foreign call with
  | none => s
  | some foreign => { s with
    foreign := foreign
    foreignJournal := s.foreignJournal.append
      ((foreign.bridge.tokenLogs.drop s.foreign.bridge.tokenLogs.length).filterMap
        (TokenEvent.log? setup.abi setup.bridge hash)) }

def step (setup : Setup Digest) (s : TwoChains Digest) :
    Action setup.toDeployment → TwoChains Digest
  | .home hash call => executeHome setup s hash call
  | .foreign hash call => executeForeign setup s hash call
  | .mineHome others => { s with homeJournal := s.homeJournal.mine others }
  | .mineForeign others => { s with foreignJournal := s.foreignJournal.mine others }
  | .pollDeposits authority script => { s with
      depositStreams := Function.update s.depositStreams authority
        ((s.depositStreams authority).poll script) }
  | .pollWithdraws authority script => { s with
      withdrawStreams := Function.update s.withdrawStreams authority
        ((s.withdrawStreams authority).poll script) }
  | .restartDeposits authority after => { s with
      depositStreams := Function.update s.depositStreams authority
        ((s.depositStreams authority).restart after) }
  | .restartWithdraws authority after => { s with
      withdrawStreams := Function.update s.withdrawStreams authority
        ((s.withdrawStreams authority).restart after) }
  | .sign authority log =>
    match withdrawMessage setup.abi log with
    | .error _ => s
    | .ok message => { s with
        signed := Function.update s.signed authority
          (s.signed authority ++ [ethDataHash setup.keccak256 message]) }

/-- The actions that the assumptions admit. -/
def Allowed (setup : Setup Digest) (s : TwoChains Digest) :
    Action setup.toDeployment → Prop
  | .home _ call =>
    HomeHistory.Possible setup.homeEnv s.home call ∧ setup.Unforged s.signed call
  | .foreign _ call => call.Forall (setup.Relayed s.depositStreams)
  | .mineHome others => ∀ log ∈ others, setup.depositFilter.matches log = false
  | .mineForeign others => ∀ log ∈ others, setup.withdrawFilter.matches log = false
  | .pollDeposits _ script => ∀ answers ∈ script, Truthful s.homeJournal.blocks answers
  | .pollWithdraws _ script => ∀ answers ∈ script, Truthful s.foreignJournal.blocks answers
  | .restartDeposits .. => True
  | .restartWithdraws .. => True
  | .sign authority log => log ∈ (s.withdrawStreams authority).delivered

/-- Both chains after the deployment.  The two functions are the checkpoints that
the authorities start from. -/
def deploy (setup : Setup Digest) (estimatedGasCostOfWithdraw : U256) (ether : Address → ℕ)
    (owner : Address) (depositsAfter withdrawsAfter : Address → UInt64) :
    Option (TwoChains Digest) := do
  let home ← HomeHistory.deploy setup.requiredSignatures setup.authorities
    estimatedGasCostOfWithdraw ether
  let foreign ← Custody.deploy setup.requiredSignatures setup.authorities owner
  return {
    home := home
    homeJournal := .empty
    foreign := foreign
    foreignJournal := .empty
    depositStreams := fun a => .start setup.depositFilter setup.homeConfirmations (depositsAfter a)
    withdrawStreams := fun a =>
      .start setup.withdrawFilter setup.foreignConfirmations (withdrawsAfter a)
    signed := fun _ => [] }

def run (setup : Setup Digest) (s : TwoChains Digest)
    (actions : List (Action setup.toDeployment)) : TwoChains Digest :=
  actions.foldl (step setup) s

end Execution

/-! ## Everything that is paid is backed -/

/-- An honest authority has signed the message for a log that its stream has
delivered. -/
def Authentic (setup : Setup Digest) (streams : Address → Observer)
    (payment : MessageToMainnet) : Prop :=
  ∃ a, setup.Honest a ∧ ∃ log ∈ (streams a).delivered,
    MessageToMainnet.fromLog setup.abi log = .ok payment

/-- The invariant of the system. -/
structure Inv (setup : Setup Digest) (start s : TwoChains Digest) : Prop where
  books : HomeHistory.Books setup.homeEnv start.home s.home
  sound : Custody.Sound setup.toCustodyEnv s.foreign
  announced : s.foreign.Announced
  depositStreams : ∀ a, (s.depositStreams a).Inv s.homeJournal.blocks setup.depositFilter
    setup.homeConfirmations
  withdrawStreams : ∀ a, (s.withdrawStreams a).Inv s.foreignJournal.blocks setup.withdrawFilter
    setup.foreignConfirmations
  signed : ∀ a, ∀ digest ∈ s.signed a, ∃ log ∈ (s.withdrawStreams a).delivered, ∃ message,
    MessageToMainnet.fromLog setup.abi log = .ok message ∧
      digest = ethDataHash setup.keccak256 message.toBytes
  confirms : ForeignChain.Confirms setup.foreign start.foreign (setup.Relays s.depositStreams)
    s.foreign
  paid : ∀ payment ∈ s.home.paid, Authentic setup s.withdrawStreams payment

/-- The streams have delivered at least the same logs. -/
def Grown (streams streams' : Address → Observer) : Prop :=
  ∀ a, ∀ log ∈ (streams a).delivered, log ∈ (streams' a).delivered

theorem grown_update {streams : Address → Observer} {a : Address} {observer : Observer}
    (h : ∀ log ∈ (streams a).delivered, log ∈ observer.delivered) :
    Grown streams (Function.update streams a observer) := by
  intro a' log hlog
  by_cases heq : a' = a
  · subst heq
    rw [Function.update_self]
    exact h log hlog
  · rw [Function.update_of_ne heq]
    exact hlog

section Safety

variable {setup : Setup Digest} {start s : TwoChains Digest}

theorem Authentic.mono {streams streams' : Address → Observer} {payment : MessageToMainnet}
    (h : Authentic setup streams payment) (hgrown : Grown streams streams') :
    Authentic setup streams' payment := by
  obtain ⟨a, hhonest, log, hlog, hmessage⟩ := h
  exact ⟨a, hhonest, log, hgrown a log hlog, hmessage⟩

/-- A change of one stream of the home chain. -/
theorem inv_observeDeposits (h : Inv setup start s) {a : Address} {observer : Observer}
    (hobserver : observer.Inv s.homeJournal.blocks setup.depositFilter setup.homeConfirmations)
    (hkeeps : ∀ log ∈ (s.depositStreams a).delivered, log ∈ observer.delivered) :
    Inv setup start
      { s with depositStreams := Function.update s.depositStreams a observer } where
  books := h.books
  sound := h.sound
  announced := h.announced
  depositStreams := Observer.inv_update h.depositStreams hobserver
  withdrawStreams := h.withdrawStreams
  signed := h.signed
  confirms := by
    refine h.confirms.mono fun a' payout hrelays hhonest => ?_
    obtain ⟨log, hlog, hpayout⟩ := hrelays hhonest
    exact ⟨log, grown_update hkeeps a' log hlog, hpayout⟩
  paid := h.paid

/-- A change of one stream of the foreign chain. -/
theorem inv_observeWithdraws (h : Inv setup start s) {a : Address} {observer : Observer}
    (hobserver : observer.Inv s.foreignJournal.blocks setup.withdrawFilter
      setup.foreignConfirmations)
    (hkeeps : ∀ log ∈ (s.withdrawStreams a).delivered, log ∈ observer.delivered) :
    Inv setup start
      { s with withdrawStreams := Function.update s.withdrawStreams a observer } where
  books := h.books
  sound := h.sound
  announced := h.announced
  depositStreams := h.depositStreams
  withdrawStreams := Observer.inv_update h.withdrawStreams hobserver
  signed := by
    intro a' digest hdigest
    obtain ⟨log, hlog, hrest⟩ := h.signed a' digest hdigest
    exact ⟨log, grown_update hkeeps a' log hlog, hrest⟩
  confirms := h.confirms
  paid := fun payment hmem => (h.paid payment hmem).mono (grown_update hkeeps)

theorem inv_mineHome (h : Inv setup start s) (others : List Log) :
    Inv setup start { s with homeJournal := s.homeJournal.mine others } where
  books := h.books
  sound := h.sound
  announced := h.announced
  depositStreams := fun a => Observer.inv_append (h.depositStreams a) _
  withdrawStreams := h.withdrawStreams
  signed := h.signed
  confirms := h.confirms
  paid := h.paid

theorem inv_mineForeign (h : Inv setup start s) (others : List Log) :
    Inv setup start { s with foreignJournal := s.foreignJournal.mine others } where
  books := h.books
  sound := h.sound
  announced := h.announced
  depositStreams := h.depositStreams
  withdrawStreams := fun a => Observer.inv_append (h.withdrawStreams a) _
  signed := h.signed
  confirms := h.confirms
  paid := h.paid

theorem inv_sign (h : Inv setup start s) {a : Address} {log : Log} {bytes : Bytes}
    (hlog : log ∈ (s.withdrawStreams a).delivered)
    (hbytes : withdrawMessage setup.abi log = .ok bytes) :
    Inv setup start { s with
      signed := Function.update s.signed a
        (s.signed a ++ [ethDataHash setup.keccak256 bytes]) } := by
  refine ⟨h.books, h.sound, h.announced, h.depositStreams, h.withdrawStreams, ?_, h.confirms,
    h.paid⟩
  intro a' digest hdigest
  have hdigest : digest ∈ Function.update s.signed a
    (s.signed a ++ [ethDataHash setup.keccak256 bytes]) a' := hdigest
  by_cases heq : a' = a
  · subst heq
    rw [Function.update_self, List.mem_append, List.mem_singleton] at hdigest
    rcases hdigest with hdigest | hdigest
    · exact h.signed a' digest hdigest
    · obtain ⟨message, hmessage, rfl⟩ := withdrawMessage_eq_ok hbytes
      exact ⟨log, hlog, message, hmessage, hdigest⟩
  · rw [Function.update_of_ne heq] at hdigest
    exact h.signed a' digest hdigest

/-- The digest fixes the message. -/
theorem payment_eq_of_digest (hkeccak : Function.Injective setup.keccak256)
    {call : WithdrawCall} (hlength : call.message.length = 116) {message : MessageToMainnet}
    (h : ethDataHash setup.keccak256 call.message = ethDataHash setup.keccak256 message.toBytes) :
    call.payment = message := by
  unfold ethDataHash at h
  rw [MessageToMainnet.length_toBytes, hlength] at h
  have hbytes : call.payment.toBytes = message.toBytes := by
    rw [call.toBytes_payment hlength]
    exact List.append_cancel_left (hkeccak h)
  have hread := MessageToMainnet.fromBytes_toBytes call.payment
  rw [hbytes, MessageToMainnet.fromBytes_toBytes] at hread
  exact (Except.ok.inj hread).symm

/-- The quorum argument for payments.  The signers of a message that is accepted are
more than the faulty authorities, so one of them has signed it by the protocol. -/
theorem authentic_of_quorum (hkeccak : Function.Injective setup.keccak256)
    (hfaulty : setup.faulty.card < setup.requiredSignatures)
    (hsigned : ∀ a, ∀ digest ∈ s.signed a, ∃ log ∈ (s.withdrawStreams a).delivered, ∃ message,
      MessageToMainnet.fromLog setup.abi log = .ok message ∧
        digest = ethDataHash setup.keccak256 message.toBytes)
    {call : WithdrawCall} (hlength : call.message.length = 116)
    (hquorum : hasEnoughValidSignatures setup.keccak256 setup.ecrecover call.message call.vs
      call.rs call.ss setup.authorities setup.requiredSignatures = some true)
    (hunforged : setup.Unforged s.signed (.withdraw call)) :
    Authentic setup s.withdrawStreams call.payment := by
  obtain ⟨signers, hcard, hnodup, hsigners⟩ :=
    signers_of_enough (by rw [hlength]; decide) hquorum
  rw [← hcard, ← List.toFinset_card_of_nodup hnodup] at hfaulty
  obtain ⟨a, ha, hhonest⟩ := Finset.exists_mem_notMem_of_card_lt_card hfaulty
  obtain ⟨hmember, j, hrecovered⟩ := hsigners a (List.mem_toFinset.1 ha)
  have hdigest := hunforged a j ⟨hmember, hhonest⟩ hrecovered
  obtain ⟨log, hlog, message, hmessage, heq⟩ := hsigned a _ hdigest
  rw [payment_eq_of_digest hkeccak hlength heq]
  exact ⟨a, ⟨hmember, hhonest⟩, log, hlog, hmessage⟩

/-- The configuration that both contracts were deployed with. -/
structure Deployed (setup : Setup Digest) (start : TwoChains Digest) : Prop where
  homeRequired : start.home.bridge.requiredSignatures = setup.requiredSignatures
  homeAuthorities : start.home.bridge.authorities = setup.authorities
  foreignRequired : start.foreign.bridge.requiredSignatures = setup.requiredSignatures
  foreignAuthorities : ∀ a, start.foreign.bridge.authorities a = true ↔ a ∈ setup.authorities

theorem inv_executeHome (hkeccak : Function.Injective setup.keccak256)
    (hfaulty : setup.faulty.card < setup.requiredSignatures) (hdeployed : Deployed setup start)
    (h : Inv setup start s) (hash : H256) {call : HomeCall}
    (hpossible : HomeHistory.Possible setup.homeEnv s.home call)
    (hunforged : setup.Unforged s.signed call) :
    Inv setup start (executeHome setup s hash call) := by
  unfold executeHome
  cases hcall : s.home.exec setup.homeEnv call with
  | none => exact h
  | some home =>
    obtain ⟨events, hdone⟩ := HomeHistory.exec_done h.books.total hpossible hcall
    refine ⟨h.books.done hdone, h.sound, h.announced, ?_, h.withdrawStreams, h.signed, h.confirms,
      ?_⟩
    · exact h.depositStreams
    · intro payment hmem
      have hmem : payment ∈ home.paid := hmem
      rw [hdone.paid, List.mem_append] at hmem
      rcases hmem with hmem | hmem
      · exact h.paid payment hmem
      · cases call with
        | withdraw call =>
          obtain ⟨chain, hchain, -⟩ := Option.bind_eq_some_iff.1 hcall
          have hpaid := HomeChain.withdraw_paid h.books.total hpossible hchain
          have hquorum := hpaid.quorum
          rw [h.books.config.authorities, h.books.config.requiredSignatures,
            hdeployed.homeAuthorities, hdeployed.homeRequired] at hquorum
          rw [List.mem_singleton.1 hmem]
          exact authentic_of_quorum hkeccak hfaulty h.signed hpaid.length hquorum hunforged
        | fallback | gift | elsewhere => exact absurd hmem List.not_mem_nil

variable [DecidableEq Digest]

/-- What a transaction of the foreign chain keeps. -/
theorem kept_foreign (hkeccak : Function.Injective setup.keccak256)
    (hbytes : Function.Injective setup.digestBytes) (streams : Address → Observer) :
    Custody.KeptByCalls setup.toCustodyEnv (setup.Relayed streams) fun chain =>
      chain.Announced ∧
        ForeignChain.Confirms setup.foreign start.foreign (setup.Relays streams) chain where
  tokens := by
    intro chain tokens hinv
    refine ⟨hinv.1, fun payout => ?_⟩
    obtain ⟨signers, hcounted, hsigners⟩ := hinv.2 payout
    exact ⟨signers, hcounted.frame ⟨rfl, rfl, rfl, rfl, rfl⟩, hsigners⟩
  bridge := by
    intro chain chain' call hinv hcond hcall
    refine ⟨ForeignChain.announced_exec hinv.1 hcall,
      ForeignChain.confirms_exec hkeccak hbytes hinv.2 ?_ hcall⟩
    rintro sender payout rfl -
    exact hcond
  receiveApproval := trivial

theorem inv_executeForeign (hkeccak : Function.Injective setup.keccak256)
    (hbytes : Function.Injective setup.digestBytes) (h : Inv setup start s) (hash : H256)
    {call : Custody.Call setup.toDeployment}
    (hrelayed : call.Forall (setup.Relayed s.depositStreams)) :
    Inv setup start (executeForeign setup s hash call) := by
  unfold executeForeign
  cases hcall : Custody.exec setup.toCustodyEnv s.foreign call with
  | none => exact h
  | some foreign =>
    obtain ⟨hannounced, hconfirms⟩ := Custody.exec_induction
      (kept_foreign hkeccak hbytes s.depositStreams)
      ⟨h.announced, h.confirms⟩ call hrelayed hcall
    exact ⟨h.books, (Custody.exec_safe h.sound call hcall).1, hannounced, h.depositStreams,
      h.withdrawStreams, h.signed, hconfirms, h.paid⟩

theorem inv_step (hkeccak : Function.Injective setup.keccak256)
    (hbytes : Function.Injective setup.digestBytes)
    (hfaulty : setup.faulty.card < setup.requiredSignatures) (hdeployed : Deployed setup start)
    {action : Action setup.toDeployment} (h : Inv setup start s)
    (hallowed : Allowed setup s action) : Inv setup start (step setup s action) := by
  cases action with
  | home hash call =>
    exact inv_executeHome hkeccak hfaulty hdeployed h hash hallowed.1 hallowed.2
  | foreign hash call => exact inv_executeForeign hkeccak hbytes h hash hallowed
  | mineHome others => exact inv_mineHome h others
  | mineForeign others => exact inv_mineForeign h others
  | pollDeposits a script =>
    exact inv_observeDeposits h (Observer.inv_poll (h.depositStreams a) hallowed)
      fun log hlog => List.mem_append_left _ hlog
  | pollWithdraws a script =>
    exact inv_observeWithdraws h (Observer.inv_poll (h.withdrawStreams a) hallowed)
      fun log hlog => List.mem_append_left _ hlog
  | restartDeposits a after =>
    exact inv_observeDeposits h (Observer.inv_restart (h.depositStreams a) after)
      fun log hlog => hlog
  | restartWithdraws a after =>
    exact inv_observeWithdraws h (Observer.inv_restart (h.withdrawStreams a) after)
      fun log hlog => hlog
  | sign a log =>
    rw [step]
    split
    · exact h
    · rename_i bytes hbytes'
      exact inv_sign h hallowed hbytes'

omit [DecidableEq Digest] in
/-- The two chains after the deployment. -/
theorem deploy_spec {estimatedGasCostOfWithdraw : U256} {ether : Address → ℕ} {owner : Address}
    {depositsAfter withdrawsAfter : Address → UInt64}
    (hdeploy : deploy setup estimatedGasCostOfWithdraw ether owner depositsAfter withdrawsAfter
      = some start) (htotal : Ledger.total ether < 2 ^ 255) :
    Deployed setup start ∧ Inv setup start start := by
  obtain ⟨home, hhome, hdeploy⟩ := Option.bind_eq_some_iff.1 hdeploy
  obtain ⟨foreign, hforeign, hdeploy⟩ := Option.bind_eq_some_iff.1 hdeploy
  have hsound : Custody.Sound setup.toCustodyEnv foreign := (Custody.deploy_sound hforeign).1
  obtain ⟨-, hrequired, hauthorities, -⟩ := ForeignChain.deploy_spec hforeign
  have hbooks : HomeHistory.Books setup.homeEnv home home :=
    HomeHistory.deploy_books htotal hhome
  rw [← Option.some.inj hdeploy]
  refine ⟨?_, hbooks, hsound, ?_, fun _ => Observer.inv_start _ _ _ _,
    fun _ => Observer.inv_start _ _ _ _, fun _ _ hmem => absurd hmem List.not_mem_nil,
    ForeignChain.deploy_confirms hforeign _, ?_⟩
  · obtain ⟨bridge, hbridge, hhome⟩ := Option.bind_eq_some_iff.1 hhome
    unfold HomeBridge.deploy at hbridge
    simp only [require_bind_eq_some] at hbridge
    refine ⟨?_, ?_, hrequired, hauthorities⟩
    all_goals rw [← Option.some.inj hhome, ← Option.some.inj hbridge.2.2]
  · obtain ⟨bridge, hbridge, hforeign⟩ := Option.bind_eq_some_iff.1 hforeign
    obtain ⟨collection, -, hbridge⟩ := Option.bind_eq_some_iff.1 hbridge
    rw [← Option.some.inj hforeign, ← Option.some.inj hbridge]
    rfl
  · obtain ⟨bridge, -, hhome⟩ := Option.bind_eq_some_iff.1 hhome
    rw [← Option.some.inj hhome]
    exact fun _ hmem => absurd hmem List.not_mem_nil

/-- The invariant holds in every state that the system reaches. -/
theorem inv_run (hkeccak : Function.Injective setup.keccak256)
    (hbytes : Function.Injective setup.digestBytes)
    (hfaulty : setup.faulty.card < setup.requiredSignatures)
    {estimatedGasCostOfWithdraw : U256} {ether : Address → ℕ} {owner : Address}
    {depositsAfter withdrawsAfter : Address → UInt64}
    (hdeploy : deploy setup estimatedGasCostOfWithdraw ether owner depositsAfter withdrawsAfter
      = some start) (htotal : Ledger.total ether < 2 ^ 255)
    {actions : List (Action setup.toDeployment)}
    (hallowed : Runs.Along (step setup) (Allowed setup) start actions) :
    Inv setup start (run setup start actions) := by
  obtain ⟨hdeployed, hstart⟩ := deploy_spec hdeploy htotal
  exact Runs.foldl_of_along (fun _ _ => inv_step hkeccak hbytes hfaulty hdeployed) actions start
    hallowed hstart

end Safety

/-- A confirmed `Deposit` event of `HomeBridge` asks for the transfer. -/
def DepositConfirmed (setup : Setup Digest) (s : TwoChains Digest) (payout : Payout) : Prop :=
  ∃ log, ConfirmedLog s.homeJournal.blocks setup.depositFilter setup.homeConfirmations log ∧
    relayedPayout setup.abi log = some payout

/-- A confirmed `Withdraw` event of `ForeignBridge` asks for the payment. -/
def WithdrawConfirmed (setup : Setup Digest) (s : TwoChains Digest)
    (payment : MessageToMainnet) : Prop :=
  ∃ log, ConfirmedLog s.foreignJournal.blocks setup.withdrawFilter setup.foreignConfirmations
      log ∧
    MessageToMainnet.fromLog setup.abi log = .ok payment

theorem Inv.depositConfirmed {setup : Setup Digest} {start s : TwoChains Digest}
    (h : Inv setup start s) (hdeployed : Deployed setup start)
    (hfaulty : setup.faulty.card < setup.requiredSignatures) {payout : Payout}
    (hpaid : payout ∈ s.foreign.transfers) : DepositConfirmed setup s payout := by
  obtain ⟨a, hauthority, hnotfaulty, hrelays⟩ :=
    h.confirms.exists_honest (hdeployed.foreignRequired ▸ hfaulty) hpaid
  obtain ⟨log, hlog, hpayout⟩ := hrelays ⟨(hdeployed.foreignAuthorities a).1 hauthority, hnotfaulty⟩
  exact ⟨log, (h.depositStreams a).delivered log hlog, hpayout⟩

theorem Inv.withdrawConfirmed {setup : Setup Digest} {start s : TwoChains Digest}
    (h : Inv setup start s) {payment : MessageToMainnet} (hpaid : payment ∈ s.home.paid) :
    WithdrawConfirmed setup s payment := by
  obtain ⟨a, -, log, hlog, hmessage⟩ := h.paid payment hpaid
  exact ⟨log, (h.withdrawStreams a).delivered log hlog, hmessage⟩

/-- Both directions of the bridge are safe, in every state that the two chains reach
with fewer faulty authorities than the threshold.

Every transfer of tokens goes back to a confirmed `Deposit` event with its recipient,
its value and its transaction hash, and no deposit is transferred twice.  Every
payment of ether goes back to a confirmed `Withdraw` event with its recipient, its
value, its gas price and its transaction hash, and no transaction is paid twice. -/
theorem transfers_and_payments_backed [DecidableEq Digest] (setup : Setup Digest)
    (hkeccak : Function.Injective setup.keccak256)
    (hbytes : Function.Injective setup.digestBytes)
    (hfaulty : setup.faulty.card < setup.requiredSignatures)
    (estimatedGasCostOfWithdraw : U256) (ether : Address → ℕ) (owner : Address)
    (depositsAfter withdrawsAfter : Address → UInt64) (start : TwoChains Digest)
    (hdeploy : deploy setup estimatedGasCostOfWithdraw ether owner depositsAfter withdrawsAfter
      = some start) (htotal : Ledger.total ether < 2 ^ 255)
    (actions : List (Action setup.toDeployment))
    (hallowed : Runs.Along (step setup) (Allowed setup) start actions) :
    let s := run setup start actions
    (∀ payout ∈ s.foreign.transfers, DepositConfirmed setup s payout) ∧
      s.foreign.transfers.Nodup ∧
      (∀ payment ∈ s.home.paid, WithdrawConfirmed setup s payment) ∧
      (hashes s.home.paid).Nodup := by
  have hinv := inv_run hkeccak hbytes hfaulty hdeploy htotal hallowed
  have hdeployed : Deployed setup start := (deploy_spec hdeploy htotal).1
  exact ⟨fun payout => hinv.depositConfirmed hdeployed hfaulty, hinv.confirms.nodup,
    fun payment => hinv.withdrawConfirmed, hinv.books.distinct⟩

theorem bridge_ne_token : (0xb1 : Address) ≠ 0xc1 := by decide

/-- Three authorities, a threshold of `2`, and one authority that is faulty. -/
def threeAuthorities : Setup Bytes where
  keccak256 := id
  ecrecover := fun _ _ r _ => r.setWidth 160
  digestBytes := id
  bridge := 0xb1
  token := 0xc1
  distinct := bridge_ne_token
  homeBridge := 0xb2
  requiredSignatures := 2
  authorities := [0xa1, 0xa2, 0xa3]
  homeConfirmations := 1
  foreignConfirmations := 1
  faulty := {0xa3}
  abi := .solidity
  roundTrips := Abi.roundTrips_solidity

/-- A user with 20 Gwei, and the bridge with 100. -/
def userEther : Address → ℕ :=
  Ledger.credit (Ledger.credit (fun _ => 0) 0xb2 100000000000) 0xd1 20000000000

/-- The two chains after the deployment. -/
def bothDeployed : TwoChains Bytes :=
  (deploy threeAuthorities 2 userEther 0xa1 (fun _ => 0) (fun _ => 0)).get (by decide)

/-- A node at block `2`, with one log in block `1`. -/
def nodeWithLog (filter : Filter) (log : Log) : LogStream.Answers where
  interval := .ok (.ready (some ()))
  blockNumber := .ok (.ready 2)
  logs := fun f fromBlock toBlock =>
    if f = filter ∧ fromBlock = 1 ∧ toBlock = 1 then .ok (.ready [log]) else .ok .notReady

theorem truthful_nodeWithLog {filter : Filter} {log : Log} (h : filter.matches log = true) :
    Truthful [[], [log], []] (nodeWithLog filter log) := by
  refine ⟨?_, ?_⟩
  · intro n hn
    cases hn
    exact Nat.lt_succ_self 2
  · intro f fromBlock toBlock logs hlogs log' hlog
    simp only [nodeWithLog] at hlogs
    split at hlogs
    · rename_i heq
      obtain ⟨rfl, rfl, rfl⟩ := heq
      cases hlogs
      obtain rfl := List.mem_singleton.1 hlog
      exact ⟨h, 1, le_rfl, le_rfl, by simp⟩
    · cases hlogs

/-- The user deposits 20 Gwei in the transaction `7`, and withdraws 5 Gwei in the
transaction `9`. -/
def depositOfUser : Log where
  address := 0xb2
  topics := [Abi.solidity.depositTopic]
  data := [Abi.addressWord 0xd1, 20000000000].flatMap wordBytes
  transactionHash := some 7

def withdrawOfUser : Log where
  address := 0xb1
  topics := [Abi.solidity.withdrawTopic]
  data := [Abi.addressWord 0xd1, 5000000000, 1000000000].flatMap wordBytes
  transactionHash := some 9

def messageOfUser : MessageToMainnet := ⟨0xd1, 5000000000, 9, 1000000000⟩

/-- A user of the foreign chain. -/
def externalUser (a : Address) (h : a ≠ 0xb1 ∧ a ≠ 0xc1) : threeAuthorities.User := ⟨a, h⟩

/-- The call of `withdraw` with the signatures of two authorities. -/
def withdrawForUser : WithdrawCall where
  sender := 0xa3
  gasPrice := 1000000000
  vs := [27, 27]
  rs := [0xa1, 0xa3]
  ss := [0, 0]
  message := messageOfUser.toBytes
  rest := fun _ => 0
  recipientAccepts := true
  senderAccepts := true

/-- The bridge gets its tokens, and the token is set. -/
def tokenReady : List (Action threeAuthorities.toDeployment) :=
  [ .foreign 1 (.token (externalUser 0xa1 (by decide)) (.setMintAgent 0xa1 true))
  , .foreign 2 (.token (externalUser 0xa1 (by decide)) (.mint 0xb1 1))
  , .foreign 3 (.bridge (.setTokenAddress 0xa1 0xc1) (externalUser 0xa1 (by decide)).property)
  , .foreign 4 (.bridge (.setTokenAddress 0xa2 0xc1) (externalUser 0xa2 (by decide)).property) ]

/-- The deposit of the user, a faulty confirmation of something else, and the
confirmations of the deposit. -/
def depositRelayed : List (Action threeAuthorities.toDeployment) :=
  [ .mineHome []
  , .home 7 (.fallback 0xd1 20000000000)
  , .mineHome []
  , .mineHome []
  , .pollDeposits 0xa1 (List.replicate 4
      (nodeWithLog threeAuthorities.depositFilter depositOfUser))
  , .foreign 5 (.bridge (.deposit 0xa3 ⟨0xa3, 50, 7⟩)
      (externalUser 0xa3 (by decide)).property)
  , .foreign 6 (.bridge (.deposit 0xa1 ⟨0xd1, 20000000000, 7⟩)
      (externalUser 0xa1 (by decide)).property)
  , .foreign 8 (.bridge (.deposit 0xa3 ⟨0xd1, 20000000000, 7⟩)
      (externalUser 0xa3 (by decide)).property) ]

/-- The user withdraws, and one authority signs. -/
def withdrawSigned : List (Action threeAuthorities.toDeployment) :=
  [ .mineForeign []
  , .foreign 9 (.approveAndCall (externalUser 0xd1 (by decide)) 0xb1 5000000000 [] true)
  , .mineForeign []
  , .mineForeign []
  , .pollWithdraws 0xa1 (List.replicate 4
      (nodeWithLog threeAuthorities.withdrawFilter withdrawOfUser))
  , .sign 0xa1 withdrawOfUser ]

def bothWays : List (Action threeAuthorities.toDeployment) :=
  tokenReady ++ (depositRelayed ++ (withdrawSigned ++ [.home 10 (.withdraw withdrawForUser)]))

theorem allowed_bridge {setup : Setup Digest} {s : TwoChains Digest} {hash : H256}
    {call : ForeignChain.Call} {hexternal : setup.External call.sender}
    (h : setup.Relayed s.depositStreams call) :
    Allowed setup s (.foreign hash (.bridge call hexternal)) := by
  rw [Allowed, Custody.Call.Forall]
  exact h

theorem not_honest_faulty : ¬ threeAuthorities.Honest 0xa3 :=
  fun h => h.2 (Finset.mem_singleton.2 rfl)

theorem allowed_tokenReady :
    Runs.Along (step threeAuthorities) (Allowed threeAuthorities) bothDeployed tokenReady := by
  refine ⟨?_, ?_, allowed_bridge trivial, allowed_bridge trivial, trivial⟩
  all_goals
    rw [Allowed, Custody.Call.Forall]
    trivial

theorem allowed_depositRelayed : Runs.Along (step threeAuthorities) (Allowed threeAuthorities)
    (run threeAuthorities bothDeployed tokenReady) depositRelayed := by
  have hblocks : (run threeAuthorities bothDeployed
      (tokenReady ++ depositRelayed.take 4)).homeJournal.blocks = [[], [depositOfUser], []] := by
    decide +kernel
  have hdelivered : depositOfUser ∈ ((run threeAuthorities bothDeployed
      (tokenReady ++ depositRelayed.take 6)).depositStreams 0xa1).delivered := by
    decide +kernel
  have hsender : (0xd1 : Address) ≠ threeAuthorities.homeEnv.bridge := by decide
  refine ⟨fun _ hmem => absurd hmem List.not_mem_nil, ⟨hsender, trivial⟩,
    fun _ hmem => absurd hmem List.not_mem_nil, fun _ hmem => absurd hmem List.not_mem_nil, ?_,
    allowed_bridge fun h => absurd h not_honest_faulty, allowed_bridge fun _ => ?_,
    allowed_bridge fun h => absurd h not_honest_faulty, trivial⟩
  · intro answers hmem
    rw [List.eq_of_mem_replicate hmem]
    show Truthful (run threeAuthorities bothDeployed
      (tokenReady ++ depositRelayed.take 4)).homeJournal.blocks _
    rw [hblocks]
    exact truthful_nodeWithLog (by decide +kernel)
  · exact ⟨depositOfUser, hdelivered, by decide +kernel⟩

theorem allowed_withdrawSigned : Runs.Along (step threeAuthorities) (Allowed threeAuthorities)
    (run threeAuthorities bothDeployed (tokenReady ++ depositRelayed)) withdrawSigned := by
  have hblocks : (run threeAuthorities bothDeployed (tokenReady ++ (depositRelayed
      ++ withdrawSigned.take 4))).foreignJournal.blocks = [[], [withdrawOfUser], []] := by
    decide +kernel
  have hdelivered : withdrawOfUser ∈ ((run threeAuthorities bothDeployed (tokenReady
      ++ (depositRelayed ++ withdrawSigned.take 5))).withdrawStreams 0xa1).delivered := by
    decide +kernel
  refine ⟨fun _ hmem => absurd hmem List.not_mem_nil, ?_,
    fun _ hmem => absurd hmem List.not_mem_nil, fun _ hmem => absurd hmem List.not_mem_nil, ?_,
    hdelivered, trivial⟩
  · rw [Allowed, Custody.Call.Forall, Custody.Call.ForallAll]
    trivial
  · intro answers hmem
    rw [List.eq_of_mem_replicate hmem]
    show Truthful (run threeAuthorities bothDeployed (tokenReady ++ (depositRelayed
      ++ withdrawSigned.take 4))).foreignJournal.blocks _
    rw [hblocks]
    exact truthful_nodeWithLog (by decide +kernel)

theorem allowed_bothWays :
    Runs.Along (step threeAuthorities) (Allowed threeAuthorities) bothDeployed bothWays := by
  have hsender : withdrawForUser.sender ≠ threeAuthorities.homeEnv.bridge := by decide
  refine Runs.along_append.2 ⟨allowed_tokenReady, Runs.along_append.2 ⟨allowed_depositRelayed,
    Runs.along_append.2 ⟨allowed_withdrawSigned, ⟨hsender, ?_⟩, trivial⟩⟩⟩
  intro a j hhonest hrecovered
  rcases j with _ | _ | j
  · obtain rfl : 0xa1 = a := Option.some.inj hrecovered
    show _ ∈ (run threeAuthorities bothDeployed (tokenReady ++ (depositRelayed
      ++ withdrawSigned))).signed 0xa1
    decide +kernel
  · obtain rfl : 0xa3 = a := Option.some.inj hrecovered
    exact absurd hhonest not_honest_faulty
  · cases hrecovered

theorem total_userEther : Ledger.total userEther < 2 ^ 255 := by
  rw [userEther, Ledger.total_credit, Ledger.total_credit, Ledger.total_zero]
  omega

theorem transfers_and_payments_backed_bothWays :
    let s := run threeAuthorities bothDeployed bothWays
    s.foreign.transfers = [⟨0xd1, 20000000000, 7⟩] ∧ s.home.paid = [messageOfUser] ∧
      (∀ payout ∈ s.foreign.transfers, DepositConfirmed threeAuthorities s payout) ∧
      ∀ payment ∈ s.home.paid, WithdrawConfirmed threeAuthorities s payment := by
  obtain ⟨htransfers, -, hpayments, -⟩ := transfers_and_payments_backed threeAuthorities
    Function.injective_id Function.injective_id (by decide) 2 userEther 0xa1 (fun _ => 0)
    (fun _ => 0) bothDeployed rfl total_userEther bothWays allowed_bothWays
  exact ⟨by decide +kernel, by decide +kernel, htransfers, hpayments⟩

end TwoChains

end PoaBridge.Contracts
