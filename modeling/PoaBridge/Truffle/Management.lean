import PoaBridge.Truffle.Foreign
import PoaBridge.Truffle.Registry

/-!
# `ForeignBridge` under validator management

The owner of the registry can add and remove validators and move the threshold
while deposits and withdrawals are being confirmed.  `ForeignBridge` looks at
the registry twice: it asks whether the sender is a validator, and it compares
the number of confirmations with the threshold of the moment.  Two things
follow.

* The comparison is an equality, so a threshold that is lowered to the number
  of confirmations that a deposit has, or below it, is never met again.
  `settled_of_thresholds_above` says that this is the only way to get stuck,
  and `settled_iff` says which confirmations get stuck.
* The confirmations that are counted were made by validators of their own
  moment.  `payouts_authorised_iff` says that a payout is authorised by current
  validators exactly when nobody that confirmed it has been removed since.
-/

namespace PoaBridge.Truffle.ForeignChain

open BigEndian

variable {Digest : Type} [DecidableEq Digest]

/-! ## Deposits and messages that wait -/

/-- Every deposit with a confirmation and every message with a signature is
either released or below this threshold. -/
structure AbovePending (env : Evm Digest) (bridge : ForeignBridge Digest) (threshold : Nat) :
    Prop where
  deposits : ∀ payout, payout ∉ bridge.payouts → bridge.deposits (depositHash env payout) ≠ [] →
    (bridge.deposits (depositHash env payout)).length < threshold
  messages : ∀ hash, hash ∉ bridge.collected → (bridge.signatures hash).signed ≠ [] →
    (bridge.signatures hash).signed.length < threshold

/-- A call that sets the threshold puts it above everything that waits. -/
def ThresholdAbovePending (env : Evm Digest) (chain : ForeignChain Digest) : Call → Prop
  | .registry sender c => (chain.validators.call sender c).isSome →
      ∀ threshold ∈ c.threshold, AbovePending env chain.bridge threshold
  | _ => True

/-- What has enough confirmations after a call has been released: the payout
of a deposit was made, with its transfer, and the collection of signatures was
announced. -/
def Settled (env : Evm Digest) (chain : ForeignChain Digest) : Call → Prop
  | .deposit _ payout _ =>
    chain.validators.requiredSignatures
        ≤ (chain.bridge.deposits (depositHash env payout)).length →
      chain.bridge.Made payout
  | .submitSignature _ _ message _ =>
    chain.validators.requiredSignatures
        ≤ (chain.bridge.signatures (env.keccak256 message)).signatures.length →
      env.keccak256 message ∈ chain.bridge.collected
  | _ => True

/-- After a call that succeeds, what has enough confirmations is released. -/
def SettledAfter (env : Evm Digest) (chain : ForeignChain Digest) (call : Call) : Prop :=
  ∀ chain', chain.exec env call = some chain' → Settled env chain' call

/-- A confirmation of what waits comes below the threshold of its moment. -/
def ReachesInTime (env : Evm Digest) (chain : ForeignChain Digest) : Call → Prop
  | .deposit sender payout accepts => (chain.deposit env sender payout accepts).isSome →
      payout ∉ chain.bridge.payouts →
      (chain.bridge.deposits (depositHash env payout)).length
        < chain.validators.requiredSignatures
  | .submitSignature sender signature message rest =>
      (chain.submitSignature env sender signature message rest).isSome →
      env.keccak256 message ∉ chain.bridge.collected →
      (chain.bridge.signatures (env.keccak256 message)).signed.length
        < chain.validators.requiredSignatures
  | _ => True

/-- A message has as many signatures as signers. -/
def Paired (bridge : ForeignBridge Digest) : Prop :=
  ∀ hash, (bridge.signatures hash).signatures.length = (bridge.signatures hash).signed.length

theorem paired_step {env : Evm Digest} {chain : ForeignChain Digest} (call : Call)
    (h : Paired chain.bridge) : Paired (chain.step env call).bridge := by
  rw [step]
  cases hexec : chain.exec env call with
  | none => exact h
  | some chain' =>
    rw [Option.getD_some]
    by_cases hcall : ∃ sender signature message rest,
        call = .submitSignature sender signature message rest
    · obtain ⟨sender, signature, message, rest, rfl⟩ := hcall
      intro hash
      rw [(submitSignature_cases hexec).signatures]
      by_cases heq : hash = env.keccak256 message
      · subst heq
        simp [h (env.keccak256 message)]
      · rw [Function.update_of_ne heq]
        exact h hash
    · push Not at hcall
      intro hash
      rw [(exec_signatures hexec hcall).1]
      exact h hash

/-- One more confirmation releases what waits, or it comes below the threshold. -/
theorem released_iff {count threshold : Nat} {released : Prop} :
    (threshold ≤ count + 1 → released ∨ count + 1 = threshold) ↔
      (¬ released → count < threshold) := by
  by_cases hreleased : released
  · exact iff_of_true (fun _ => .inl hreleased) fun h => absurd hreleased h
  · simp only [hreleased, false_or, not_false_eq_true, forall_const]
    omega

theorem settledAfter_iff {env : Evm Digest} {chain : ForeignChain Digest}
    (haccounted : Accounted chain.bridge) (hpaired : Paired chain.bridge) (call : Call) :
    SettledAfter env chain call ↔ ReachesInTime env chain call := by
  cases call with
  | registry | initializeBridge | fallback => exact iff_of_true (fun _ _ => trivial) trivial
  | deposit sender payout accepts =>
    have hsplit : SettledAfter env chain (.deposit sender payout accepts) ↔
        ∀ chain', chain.deposit env sender payout accepts = some chain' →
          (payout ∉ chain.bridge.payouts →
            (chain.bridge.deposits (depositHash env payout)).length
              < chain.validators.requiredSignatures) := by
      refine forall₂_congr fun chain' hexec => ?_
      have hdone := deposit_cases hexec
      rw [← released_iff, Settled, (hdone.accounted haccounted).made_iff, hdone.payouts,
        hdone.deposits_self, hdone.validators, List.mem_append, List.length_append,
        List.length_singleton]
      split <;> simp_all
    rw [hsplit, ReachesInTime, Option.isSome_iff_exists]
    exact ⟨fun h ⟨chain', hexec⟩ => h chain' hexec, fun h chain' hexec => h ⟨chain', hexec⟩⟩
  | submitSignature sender signature message rest =>
    have hsplit : SettledAfter env chain (.submitSignature sender signature message rest) ↔
        ∀ chain', chain.submitSignature env sender signature message rest = some chain' →
          (env.keccak256 message ∉ chain.bridge.collected →
            (chain.bridge.signatures (env.keccak256 message)).signed.length
              < chain.validators.requiredSignatures) := by
      refine forall₂_congr fun chain' hexec => ?_
      have hdone := submitSignature_cases hexec
      rw [← released_iff, Settled, hdone.collected, hdone.signatures, hdone.validators,
        Function.update_self, List.mem_append, List.length_append, List.length_singleton,
        hpaired]
      split <;> simp_all
    rw [hsplit, ReachesInTime, Option.isSome_iff_exists]
    exact ⟨fun h ⟨chain', hexec⟩ => h chain' hexec, fun h chain' hexec => h ⟨chain', hexec⟩⟩

/-- In every run, every confirmation releases what it completes if and only if none
of them comes to something that waits at the threshold of the moment, or above it. -/
theorem settled_iff (env : Evm Digest) (registry : BridgeValidators) (calls : List Call) :
    Runs.Along (step env) (SettledAfter env) ⟨registry, .deployed⟩ calls ↔
      Runs.Along (step env) (ReachesInTime env) ⟨registry, .deployed⟩ calls := by
  refine @Runs.along_congr_of_step _ _ (step env) _ _
    (fun chain => Accounted chain.bridge ∧ Paired chain.bridge) ?_ ?_ _ _
    ⟨accounted_deployed, fun _ => rfl⟩
  · exact fun _ call h => ⟨accounted_step call h.1, paired_step call h.2⟩
  · exact fun _ call h => settledAfter_iff h.1 h.2 call

/-- The invariant: the threshold in force is above everything that waits. -/
structure PendingInv (env : Evm Digest) (chain : ForeignChain Digest) : Prop where
  initialized : chain.validators.initialized = true
  positive : 1 ≤ chain.validators.requiredSignatures
  above : AbovePending env chain.bridge chain.validators.requiredSignatures

/-- One more confirmation of what waits below the threshold reaches it or stays
below it.  This is where the equality test is enough. -/
theorem lt_of_ne_threshold {count threshold : Nat} (hbelow : count ≠ 0 → count < threshold)
    (hthreshold : count = 0 → 1 ≤ threshold) (hne : count + 1 ≠ threshold) :
    count + 1 < threshold := by
  omega

theorem DepositDone.pendingInv {env : Evm Digest} {chain chain' : ForeignChain Digest}
    {sender : Address} {payout : Payout} (hkeccak : Function.Injective env.keccak256)
    (h : DepositDone env chain sender payout chain') (hinv : PendingInv env chain) :
    PendingInv env chain' := by
  refine ⟨h.validators ▸ hinv.initialized, h.validators ▸ hinv.positive,
    ⟨fun p hp hconfirmed => ?_, ?_⟩⟩
  · rw [h.validators]
    have hold : p ∉ chain.bridge.payouts := fun hmem => hp (by
      rw [h.payouts]
      exact List.mem_append_left _ hmem)
    by_cases heq : p = payout
    · subst heq
      rw [h.deposits_self, List.length_append, List.length_singleton]
      refine lt_of_ne_threshold (fun hne => ?_) (fun _ => hinv.positive) fun hreached => hp ?_
      · exact hinv.above.deposits p hold fun hnil => hne (by rw [hnil]; rfl)
      · rw [h.payouts, if_pos hreached]
        exact List.mem_append_right _ (List.mem_singleton_self _)
    · have hne : depositHash env p ≠ depositHash env payout := fun hhash =>
        heq (Payout.packed_injective (hkeccak hhash))
      rw [h.deposits_of_ne hne] at hconfirmed ⊢
      exact hinv.above.deposits p hold hconfirmed
  · rw [h.signatures, h.collected, h.validators]
    exact hinv.above.messages

theorem SignatureDone.pendingInv {env : Evm Digest} {chain chain' : ForeignChain Digest}
    {sender : Address} {signature message : Bytes} {rest : Memory}
    (h : SignatureDone env chain sender signature message rest chain')
    (hinv : PendingInv env chain) : PendingInv env chain' := by
  refine ⟨h.validators ▸ hinv.initialized, h.validators ▸ hinv.positive,
    ⟨?_, fun hash hhash hsigned => ?_⟩⟩
  · rw [h.deposits, h.payouts, h.validators]
    exact hinv.above.deposits
  · rw [h.validators]
    have hold : hash ∉ chain.bridge.collected := fun hmem => hhash (by
      rw [h.collected]
      exact List.mem_append_left _ hmem)
    rw [h.signatures] at hsigned ⊢
    by_cases heq : hash = env.keccak256 message
    · subst heq
      rw [Function.update_self, List.length_append, List.length_singleton]
      refine lt_of_ne_threshold (fun hne => ?_) (fun _ => hinv.positive) fun hreached => hhash ?_
      · exact hinv.above.messages _ hold fun hnil => hne (by rw [hnil]; rfl)
      · rw [h.collected, if_pos hreached]
        exact List.mem_append_right _ (List.mem_singleton_self _)
    · rw [Function.update_of_ne heq] at hsigned ⊢
      exact hinv.above.messages hash hold hsigned

/-- A transaction that sets the threshold above what waits, or does not set it,
keeps the invariant. -/
theorem pendingInv_step {env : Evm Digest} (hkeccak : Function.Injective env.keccak256)
    {chain : ForeignChain Digest} {call : Call} (hinv : PendingInv env chain)
    (hcall : ThresholdAbovePending env chain call) : PendingInv env (chain.step env call) := by
  rw [step]
  cases hexec : chain.exec env call with
  | none => exact hinv
  | some chain' =>
    rw [Option.getD_some]
    cases call with
    | deposit sender payout accepts => exact (deposit_cases hexec).pendingInv hkeccak hinv
    | submitSignature sender signature message rest =>
      exact (submitSignature_cases hexec).pendingInv hinv
    | registry sender c =>
      simp only [exec, Option.bind_eq_bind, Option.bind_eq_some_iff] at hexec
      obtain ⟨validators, hc, hexec⟩ := hexec
      rw [← Option.some.inj hexec]
      obtain ⟨hinitialized, hpositive⟩ :=
        BridgeValidators.call_positive hc hinv.initialized hinv.positive
      refine ⟨hinitialized, hpositive, ?_⟩
      show AbovePending env chain.bridge validators.requiredSignatures
      rw [BridgeValidators.call_requiredSignatures hc]
      cases hthreshold : c.threshold with
      | none => exact hinv.above
      | some threshold => exact hcall (by rw [hc]; rfl) threshold hthreshold
    | initializeBridge validatorContractAddress =>
      simp only [exec, initializeBridge, require_bind_eq_some] at hexec
      rw [← Option.some.inj hexec.2]
      exact ⟨hinv.initialized, hinv.positive, ⟨hinv.above.deposits, hinv.above.messages⟩⟩
    | fallback sender value data =>
      obtain ⟨hdeposits, hpayouts, ⟨_, _, heq, -⟩ | hvalidators⟩ := exec_frame hexec (by simp)
      · cases heq
      obtain ⟨hsignatures, hcollected⟩ := exec_signatures hexec (by simp)
      refine ⟨hvalidators ▸ hinv.initialized, hvalidators ▸ hinv.positive, ⟨?_, ?_⟩⟩
      · rw [hdeposits, hpayouts, hvalidators]
        exact hinv.above.deposits
      · rw [hsignatures, hcollected, hvalidators]
        exact hinv.above.messages

/-- What waits has no confirmations, or it is below the threshold. -/
theorem lt_of_waiting {count threshold : Nat} (hpositive : 1 ≤ threshold)
    (hbelow : count ≠ 0 → count < threshold) : count < threshold := by
  omega

theorem PendingInv.reachesInTime {env : Evm Digest} {chain : ForeignChain Digest}
    (h : PendingInv env chain) (call : Call) : ReachesInTime env chain call := by
  cases call with
  | registry | initializeBridge | fallback => trivial
  | deposit sender payout accepts =>
    intro _ hunpaid
    refine lt_of_waiting h.positive fun hne => h.above.deposits payout hunpaid ?_
    exact List.ne_nil_of_length_pos (Nat.pos_of_ne_zero hne)
  | submitSignature sender signature message rest =>
    intro _ hwaiting
    refine lt_of_waiting h.positive fun hne => h.above.messages _ hwaiting ?_
    exact List.ne_nil_of_length_pos (Nat.pos_of_ne_zero hne)

/-- In every run after the initialization of the registry that never sets the
threshold to the confirmations of a deposit or message that waits, or below
them, every confirmation releases what it completes.  In every state of the run
the payouts are the transfers, and the ether of the contract is what it received
less them. -/
theorem settled_of_thresholds_above (env : Evm Digest)
    (hkeccak : Function.Injective env.keccak256) {requiredSignatures : Nat}
    {initialValidators : List Address} {owner : Address} {registry : BridgeValidators}
    (hregistry : BridgeValidators.deployed.initializeValidators requiredSignatures
      initialValidators owner = some registry) (calls : List Call)
    (hcalls : Runs.Along (step env) (ThresholdAbovePending env) ⟨registry, .deployed⟩ calls) :
    Runs.Along (step env) (SettledAfter env) ⟨registry, .deployed⟩ calls ∧
      Runs.Always (step env) (fun chain => Accounted chain.bridge) ⟨registry, .deployed⟩
        calls := by
  obtain ⟨hinitialized, -, -, -, hpositive, -⟩ :=
    BridgeValidators.initializeValidators_spec hregistry
  have hintime := Runs.Along.of_invariant
    (fun _ _ hinv hcall => pendingInv_step hkeccak hinv hcall)
    (fun _ call hinv _ => hinv.reachesInTime call) hcalls
    ⟨hinitialized, hpositive, ⟨fun _ _ h => absurd rfl h, fun _ _ h => absurd rfl h⟩⟩
  refine ⟨(settled_iff env registry calls).2 hintime, ?_⟩
  exact @Runs.always_of_step _ _ (step env) (fun chain => Accounted chain.bridge)
    (fun _ call h => accounted_step call h) calls _ accounted_deployed

omit [DecidableEq Digest] in
/-- A threshold above every list of confirmations is above all that wait. -/
theorem abovePending_of_lengths {env : Evm Digest} {bridge : ForeignBridge Digest}
    {threshold : Nat} (hdeposits : ∀ hash, (bridge.deposits hash).length < threshold)
    (hsigned : ∀ hash, (bridge.signatures hash).signed.length < threshold) :
    AbovePending env bridge threshold :=
  ⟨fun _ _ _ => hdeposits _, fun hash _ _ => hsigned hash⟩

/-- The owner raises the threshold after the first of three confirmations. -/
def raisedEarlyRun : List Call :=
  [ .initializeBridge 0xb2
  , .fallback 0xc1 100 []
  , .deposit 0xa1 ⟨0xc2, 5, 7⟩ true
  , .registry 0xff (.setRequiredSignatures 3)
  , .deposit 0xa2 ⟨0xc2, 5, 7⟩ true
  , .deposit 0xa3 ⟨0xc2, 5, 7⟩ true ]

theorem settled_of_thresholds_above_raisedEarlyRun :
    Runs.Along (step transparentEvm) (SettledAfter transparentEvm)
        ⟨FixedRegistry.twoOfThree.validators, .deployed⟩ raisedEarlyRun ∧
      (run transparentEvm ⟨FixedRegistry.twoOfThree.validators, .deployed⟩
        raisedEarlyRun).bridge.payouts = [⟨0xc2, 5, 7⟩] ∧
      (run transparentEvm ⟨FixedRegistry.twoOfThree.validators, .deployed⟩
        raisedEarlyRun).bridge.transfers = [(0xc2, 5)] ∧
      (run transparentEvm ⟨FixedRegistry.twoOfThree.validators, .deployed⟩
        raisedEarlyRun).bridge.balance = 95 := by
  refine ⟨(settled_of_thresholds_above transparentEvm Function.injective_id
    FixedRegistry.twoOfThree.initialized raisedEarlyRun ?_).1, by decide +kernel,
    by decide +kernel, by decide +kernel⟩
  refine ⟨trivial, trivial, trivial, fun _ threshold hthreshold => ?_, trivial, trivial, trivial⟩
  obtain rfl : 3 = threshold := Option.some.inj hthreshold
  refine abovePending_of_lengths (fun hash => ?_) fun hash => Nat.zero_lt_succ 2
  show (Function.update (fun _ => []) (depositHash transparentEvm ⟨0xc2, 5, 7⟩) [0xa1]
    hash).length < 3
  by_cases heq : hash = depositHash transparentEvm ⟨0xc2, 5, 7⟩
  · rw [heq, Function.update_self]
    decide
  · rw [Function.update_of_ne heq]
    decide

/-- The owner lowers the threshold when two of three validators have
confirmed. -/
def loweredThresholdRun : List Call :=
  [ .initializeBridge 0xb2
  , .fallback 0xc1 100 []
  , .registry 0xff (.setRequiredSignatures 3)
  , .deposit 0xa1 ⟨0xc2, 5, 7⟩ true
  , .deposit 0xa2 ⟨0xc2, 5, 7⟩ true
  , .registry 0xff (.setRequiredSignatures 2)
  , .deposit 0xa3 ⟨0xc2, 5, 7⟩ true ]

/-- All three validators have confirmed the deposit, the threshold is `2`, and
nothing was paid. -/
theorem stuck_after_lowered_threshold :
    (run transparentEvm ⟨FixedRegistry.twoOfThree.validators, .deployed⟩
        loweredThresholdRun).bridge.payouts = [] ∧
      (run transparentEvm ⟨FixedRegistry.twoOfThree.validators, .deployed⟩
        loweredThresholdRun).bridge.balance = 100 ∧
      ¬ ∀ calls : List Call, Runs.Along (step transparentEvm) (SettledAfter transparentEvm)
        ⟨FixedRegistry.twoOfThree.validators, .deployed⟩ calls := by
  refine ⟨by decide +kernel, by decide +kernel, fun halways => ?_⟩
  have hlast := (halways loweredThresholdRun).2.2.2.2.2.2.1
  refine absurd (hlast _ (Option.some_get (by decide +kernel)).symm ?_) ?_
  · decide +kernel
  · decide +kernel

/-! ## Who authorised a payout -/

/-- The sender of a transaction, when it is a `deposit` of this payout that
succeeds. -/
def confirmer (env : Evm Digest) (chain : ForeignChain Digest) (payout : Payout) :
    Call → List Address
  | .deposit sender payout' accepts =>
    if payout' = payout ∧ (chain.deposit env sender payout' accepts).isSome then [sender] else []
  | _ => []

/-- The addresses that confirm a payout along a run, in their order. -/
def confirmers (env : Evm Digest) (payout : Payout) : ForeignChain Digest → List Call → List Address
  | _, [] => []
  | chain, call :: calls =>
    confirmer env chain payout call ++ confirmers env payout (chain.step env call) calls

/-- A transaction adds its confirmer to the list of the payout. -/
theorem deposits_step {env : Evm Digest} (hkeccak : Function.Injective env.keccak256)
    {chain : ForeignChain Digest} {call : Call} {payout : Payout} :
    (chain.step env call).bridge.deposits (depositHash env payout)
      = chain.bridge.deposits (depositHash env payout) ++ confirmer env chain payout call := by
  rw [step]
  cases hexec : chain.exec env call with
  | none =>
    have hnone : confirmer env chain payout call = [] := by
      cases call with
      | deposit sender payout' accepts =>
        have hdeposit : chain.deposit env sender payout' accepts = none := hexec
        simp [confirmer, hdeposit]
      | registry | initializeBridge | fallback | submitSignature => rfl
    rw [hnone, List.append_nil]
    rfl
  | some chain' =>
    rw [Option.getD_some]
    by_cases hcall : ∃ sender payout accepts, call = .deposit sender payout accepts
    · obtain ⟨sender, payout', accepts, rfl⟩ := hcall
      have hdeposit : chain.deposit env sender payout' accepts = some chain' := hexec
      have hdone := deposit_cases hdeposit
      by_cases heq : payout' = payout
      · subst heq
        rw [hdone.deposits_self]
        simp [confirmer, hdeposit]
      · have hne : depositHash env payout ≠ depositHash env payout' := fun hhash =>
          heq (Payout.packed_injective (hkeccak hhash)).symm
        rw [hdone.deposits_of_ne hne]
        simp [confirmer, heq]
    · push Not at hcall
      have hnone : confirmer env chain payout call = [] := by
        cases call with
        | deposit sender payout' accepts => exact absurd rfl (hcall sender payout' accepts)
        | registry | initializeBridge | fallback | submitSignature => rfl
      rw [(exec_frame hexec hcall).1, hnone, List.append_nil]

/-- The list of a payout is the list of its confirmers. -/
theorem deposits_run {env : Evm Digest} (hkeccak : Function.Injective env.keccak256)
    {chain : ForeignChain Digest} {calls : List Call} {payout : Payout} :
    (run env chain calls).bridge.deposits (depositHash env payout)
      = chain.bridge.deposits (depositHash env payout) ++ confirmers env payout chain calls := by
  induction calls generalizing chain with
  | nil => exact (List.append_nil _).symm
  | cons call calls ih =>
    show (run env (chain.step env call) calls).bridge.deposits _ = _
    rw [ih, deposits_step hkeccak, List.append_assoc, confirmers]

/-- Nobody confirms a deposit twice. -/
theorem nodup_deposits_step {env : Evm Digest} {chain : ForeignChain Digest} {call : Call}
    (h : ∀ hash, (chain.bridge.deposits hash).Nodup) (hash : Digest) :
    ((chain.step env call).bridge.deposits hash).Nodup := by
  rw [step]
  cases hexec : chain.exec env call with
  | none => exact h hash
  | some chain' =>
    rw [Option.getD_some]
    by_cases hcall : ∃ sender payout accepts, call = .deposit sender payout accepts
    · obtain ⟨sender, payout, accepts, rfl⟩ := hcall
      exact (deposit_cases hexec).nodup (h hash)
    · push Not at hcall
      rw [(exec_frame hexec hcall).1]
      exact h hash

theorem nodup_confirmers {env : Evm Digest} (hkeccak : Function.Injective env.keccak256)
    (calls : List Call) (payout : Payout) : (confirmers env payout deployed calls).Nodup := by
  have hlist := @Runs.foldl_of_step _ _ (step env)
    (fun chain => ∀ hash, (chain.bridge.deposits hash).Nodup)
    (fun _ _ h => nodup_deposits_step h) calls deployed (fun _ => List.nodup_nil)
    (depositHash env payout)
  rw [show calls.foldl (step env) deployed = run env deployed calls from rfl] at hlist
  rw [deposits_run hkeccak] at hlist
  exact hlist

/-- The run makes this payout by a confirmation of `sender`, right after the
transactions `before`: the call executes the transfer. -/
def PaysAt (env : Evm Digest) (calls before : List Call) (sender : Address) (payout : Payout) :
    Prop :=
  ∃ accepts after chain', calls = before ++ .deposit sender payout accepts :: after ∧
    (run env deployed before).exec env (.deposit sender payout accepts) = some chain' ∧
    chain'.bridge.transfers = (run env deployed before).bridge.transfers ++ [payout.payment]

/-- As many distinct addresses as the threshold asks for have confirmed the
payout, `sender` included, and are validators at the moment of the payout. -/
def AuthorisedAt (env : Evm Digest) (before : List Call) (sender : Address) (payout : Payout) :
    Prop :=
  ∃ signers : List Address, signers.Nodup ∧
    (run env deployed before).validators.requiredSignatures ≤ signers.length ∧
    ∀ a ∈ signers, (run env deployed before).validators.isValidator a = true ∧
      (a ∈ confirmers env payout deployed before ∨ a = sender)

/-- Nobody that has confirmed the payout before is removed at the moment of the
payout. -/
def NobodyRemovedAt (env : Evm Digest) (before : List Call) (payout : Payout) : Prop :=
  ∀ a ∈ confirmers env payout deployed before,
    (run env deployed before).validators.isValidator a = true

/-- What a payout says about the list of its confirmations: it is exactly as
long as the threshold. -/
theorem PaysAt.spec {env : Evm Digest} (hkeccak : Function.Injective env.keccak256)
    {calls before : List Call} {sender : Address} {payout : Payout}
    (h : PaysAt env calls before sender payout) :
    (run env deployed before).validators.isValidator sender = true ∧
      (confirmers env payout deployed before ++ [sender]).Nodup ∧
      (confirmers env payout deployed before).length + 1
        = (run env deployed before).validators.requiredSignatures := by
  obtain ⟨accepts, after, chain', -, hexec, hpaid⟩ := h
  have hdone := deposit_cases hexec
  have hlist : (run env deployed before).bridge.deposits (depositHash env payout)
      = confirmers env payout deployed before := deposits_run hkeccak
  have hfresh := hdone.sender_fresh
  have htransfers := hdone.transfers
  rw [hlist] at hfresh htransfers
  refine ⟨hdone.sender_validator, ?_, ?_⟩
  · exact List.nodup_append.2 ⟨nodup_confirmers hkeccak before payout, List.nodup_singleton _,
      fun a ha b hb hab => hfresh (List.mem_singleton.1 hb ▸ hab ▸ ha)⟩
  · by_contra hne
    rw [if_neg hne, hpaid] at htransfers
    simp at htransfers

/-- In every run, all payouts are authorised by the validators of their moment
if and only if no confirmation of a payout is from somebody who is no validator
any more when it is made.  The list has no entry to spare, so each one of them
is needed. -/
theorem payouts_authorised_iff (env : Evm Digest) (hkeccak : Function.Injective env.keccak256)
    (calls : List Call) :
    (∀ before sender payout, PaysAt env calls before sender payout →
        AuthorisedAt env before sender payout) ↔
      ∀ before sender payout, PaysAt env calls before sender payout →
        NobodyRemovedAt env before payout := by
  refine forall_congr' fun before => forall_congr' fun sender => forall_congr' fun payout =>
    forall_congr' fun hpays => ?_
  obtain ⟨hsender, hnodup, hlength⟩ := hpays.spec hkeccak
  constructor
  · rintro ⟨signers, hdistinct, henough, hsigners⟩ a ha
    have hsub : signers ⊆ confirmers env payout deployed before ++ [sender] := by
      intro b hb
      rw [List.mem_append, List.mem_singleton]
      exact (hsigners b hb).2
    have hperm := (hdistinct.subperm hsub).perm_of_length_le (by
      rw [List.length_append, List.length_singleton, hlength]
      exact henough)
    exact (hsigners a (hperm.mem_iff.2 (List.mem_append_left _ ha))).1
  · intro hstill
    refine ⟨_, hnodup, by rw [List.length_append, List.length_singleton, hlength], fun a ha => ?_⟩
    rw [List.mem_append, List.mem_singleton] at ha
    refine ⟨?_, ha⟩
    rcases ha with ha | rfl
    · exact hstill a ha
    · exact hsender

/-- Two of three validators have to confirm, and the first one has done it. -/
def oneConfirmation : List Call :=
  [ .registry 0xff (.initializeValidators 2 [0xa1, 0xa2, 0xa3] 0xff)
  , .initializeBridge 0xb2
  , .fallback 0xc1 100 []
  , .deposit 0xa1 ⟨0xc2, 5, 7⟩ true ]

/-- The second validator confirms, whatever the owner does in between. -/
theorem paysAt_second_confirmation (managed : List Call)
    (h : ((run transparentEvm deployed (oneConfirmation ++ managed)).exec transparentEvm
        (.deposit 0xa2 ⟨0xc2, 5, 7⟩ true)).any fun chain' => decide (chain'.bridge.transfers
          = (run transparentEvm deployed (oneConfirmation ++ managed)).bridge.transfers
            ++ [(0xc2, 5)])) :
    PaysAt transparentEvm (oneConfirmation ++ managed ++ [.deposit 0xa2 ⟨0xc2, 5, 7⟩ true])
      (oneConfirmation ++ managed) 0xa2 ⟨0xc2, 5, 7⟩ := by
  rw [Option.any_eq_true] at h
  obtain ⟨chain', hexec, hpaid⟩ := h
  exact ⟨true, [], chain', rfl, hexec, of_decide_eq_true hpaid⟩

/-- A validator that has not confirmed is removed. -/
theorem payouts_authorised_iff_bystander_removed :
    PaysAt transparentEvm (oneConfirmation ++ [.registry 0xff (.removeValidator 0xa3)]
        ++ [.deposit 0xa2 ⟨0xc2, 5, 7⟩ true])
      (oneConfirmation ++ [.registry 0xff (.removeValidator 0xa3)]) 0xa2 ⟨0xc2, 5, 7⟩ ∧
    ((∀ before sender payout, PaysAt transparentEvm (oneConfirmation
          ++ [.registry 0xff (.removeValidator 0xa3)] ++ [.deposit 0xa2 ⟨0xc2, 5, 7⟩ true])
        before sender payout → AuthorisedAt transparentEvm before sender payout) ↔
      ∀ before sender payout, PaysAt transparentEvm (oneConfirmation
          ++ [.registry 0xff (.removeValidator 0xa3)] ++ [.deposit 0xa2 ⟨0xc2, 5, 7⟩ true])
        before sender payout → NobodyRemovedAt transparentEvm before payout) :=
  ⟨paysAt_second_confirmation _ (by decide +kernel),
    payouts_authorised_iff transparentEvm Function.injective_id _⟩

/-- The validator that has confirmed is removed, and its confirmation still
counts: a threshold of two is met by one validator. -/
theorem removed_validator_authorises :
    ¬ ∀ (calls before : List Call) (sender : Address) (payout : Payout),
      PaysAt transparentEvm calls before sender payout →
        AuthorisedAt transparentEvm before sender payout := by
  intro halways
  obtain ⟨signers, hdistinct, henough, hsigners⟩ := halways _ _ _ _
    (paysAt_second_confirmation [.registry 0xff (.removeValidator 0xa1)] (by decide +kernel))
  have hsub : signers ⊆ [0xa2] := by
    intro a ha
    obtain ⟨hvalidator, hconfirmed | rfl⟩ := hsigners a ha
    · obtain rfl : a = 0xa1 := List.mem_singleton.1 hconfirmed
      exact absurd hvalidator (by decide +kernel)
    · exact List.mem_singleton_self _
  exact absurd (henough.trans (hdistinct.subperm hsub).length_le) (by decide +kernel)

end PoaBridge.Truffle.ForeignChain
