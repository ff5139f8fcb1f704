import PoaBridge.Truffle.Home
import PoaBridge.Truffle.Registry

/-!
# The order of the initializations

`HomeBridge` and `BridgeValidators` are initialized by two calls that anybody
can make, in any order.  A bridge that is initialized first points to a
registry with the threshold zero, and the quorum check then has nothing to
check.

`withdraw_signed_iff` is about every `withdraw` that succeeds in a state that
calls can reach, also one that the recipient of another `withdraw` makes: it
was signed by validators exactly when the registry was initialized.
-/

namespace PoaBridge.Truffle.HomeChain

open BigEndian

variable {Digest : Type}

/-- No account has the address zero, so no call comes from it. -/
def FromAccount : Call → Prop
  | .registry sender _ => sender ≠ 0
  | .fallback sender _ _ => sender ≠ 0
  | _ => True

/-- The states in which a call can be made: after the deployment and after
every other call, and while the code of a recipient runs. -/
inductive Reached (env : Evm Digest) : HomeChain → Prop
  | deployed : Reached env deployed
  | called {chain call chain'} : Reached env chain → call.Forall FromAccount →
      exec env chain call = some chain' → Reached env chain'
  | paying {chain vs rs ss message rest chain' withdrawal} : Reached env chain →
      Opened env chain vs rs ss message rest chain' withdrawal → Reached env chain'

/-- The state after every list of transactions is reached. -/
theorem reached_run {env : Evm Digest} {chain : HomeChain} {calls : List Call}
    (h : Reached env chain) (hcalls : ∀ call ∈ calls, call.Forall FromAccount) :
    Reached env (run env chain calls) := by
  induction calls generalizing chain with
  | nil => exact h
  | cons call calls ih =>
    refine ih ?_ fun c hc => hcalls c (List.mem_cons_of_mem _ hc)
    rw [step]
    cases hexec : exec env chain call with
    | none => exact h
    | some chain' => exact .called h (hcalls call (List.mem_cons_self ..)) hexec

/-- The threshold of a registry is zero until it is initialized, and then it is
positive. -/
structure Threshold (validators : BridgeValidators) : Prop where
  initialized : validators.initialized = true → 1 ≤ validators.requiredSignatures
  fresh : validators.initialized = false →
    validators.requiredSignatures = 0 ∧ validators.owner = 0

/-- Before the initialization, nobody is the owner. -/
theorem Threshold.call {validators validators' : BridgeValidators} {sender : Address}
    {call : BridgeValidators.Call} (h : Threshold validators) (hsender : sender ≠ 0)
    (hcall : validators.call sender call = some validators') : Threshold validators' := by
  cases hinitialized : validators.initialized with
  | true =>
    obtain ⟨hkept, hpositive⟩ :=
      BridgeValidators.call_positive hcall hinitialized (h.initialized hinitialized)
    exact ⟨fun _ => hpositive, fun hfresh => absurd (hkept.symm.trans hfresh) (by decide)⟩
  | false =>
    obtain ⟨-, howner⟩ := h.fresh hinitialized
    have hnobody : ¬ sender = validators.owner := by
      rw [howner]
      exact hsender
    cases call with
    | initializeValidators requiredSignatures initialValidators owner =>
      simp only [BridgeValidators.call, BridgeValidators.initializeValidators,
        require_bind_eq_some] at hcall
      obtain ⟨-, hpositive, -, hcall⟩ := hcall
      obtain ⟨pushed, -, hcall⟩ := Option.bind_eq_some_iff.1 hcall
      rw [← Option.some.inj hcall]
      exact ⟨fun _ => Nat.one_le_iff_ne_zero.2 hpositive, fun hfresh => (by cases hfresh)⟩
    | addValidator validator =>
      simp [BridgeValidators.call, BridgeValidators.addValidator, require, hnobody] at hcall
    | removeValidator validator =>
      simp [BridgeValidators.call, BridgeValidators.removeValidator, require, hnobody] at hcall
    | setRequiredSignatures requiredSignatures =>
      simp [BridgeValidators.call, BridgeValidators.setRequiredSignatures, require, hnobody]
        at hcall

theorem threshold_kept (env : Evm Digest) :
    KeptByCalls env FromAccount fun _ chain => Threshold chain.validators where
  registry := fun hinv hsender hcall => hinv.call hsender hcall
  initializeBridge := by
    intro _ chain address chain' hinv h
    simp only [initializeBridge, require_bind_eq_some] at h
    rw [← Option.some.inj h.2]
    exact hinv
  fallback := fun hinv _ => hinv
  openWithdraw := by
    intro _ chain vs rs ss message rest code accepts chain' withdrawal hinv _ hopened
    rw [hopened.result]
    exact hinv
  closeWithdraw := fun hinv => hinv

theorem Reached.threshold {env : Evm Digest} {chain : HomeChain} (h : Reached env chain) :
    Threshold chain.validators := by
  induction h with
  | deployed => exact ⟨fun h => (by cases h), fun _ => ⟨rfl, rfl⟩⟩
  | called _ hcall hexec ih =>
    exact @exec_induction _ env FromAccount (fun _ chain => Threshold chain.validators)
      (threshold_kept env) [] _ _ ih _ hcall hexec
  | paying _ hopened ih =>
    rw [hopened.result]
    exact ih

/-- A `withdraw` that succeeds has passed its checks. -/
theorem exists_opened {env : Evm Digest} {chain chain' : HomeChain} {vs : List UInt8}
    {rs ss : List H256} {message : Bytes} {rest : Memory} {code : List Call} {accepts : Bool}
    (h : exec env chain (.withdraw vs rs ss message rest code accepts) = some chain') :
    ∃ opened withdrawal, Opened env chain vs rs ss message rest opened withdrawal := by
  rw [exec, Option.bind_eq_bind, Option.bind_eq_some_iff] at h
  obtain ⟨⟨opened, withdrawal⟩, hopened, -⟩ := h
  exact ⟨opened, withdrawal, openWithdraw_eq_some.1 hopened⟩

/-- The withdrawal has signatures, the threshold is positive, and at least that
many of the signatures are of distinct current validators. -/
structure SignedByValidators (env : Evm Digest) (validators : BridgeValidators)
    (vs : List UInt8) (rs ss : List H256) (message : Bytes) : Prop where
  nonempty : vs ≠ []
  positive : 1 ≤ validators.requiredSignatures
  signers : ∃ signers : List Address, validators.requiredSignatures ≤ signers.length ∧
    signers.Nodup ∧ (∀ a ∈ signers, validators.isValidator a = true) ∧
    ∀ j (h : j < signers.length),
      recoverAt env.ecrecover (hashMessage env.keccak256 message) vs rs ss j = some signers[j]

/-- A `withdraw` that succeeds, in any state that calls by any senders can
reach, was signed by validators if and only if the registry was initialized
before it. -/
theorem withdraw_signed_iff (env : Evm Digest) {chain chain' : HomeChain}
    (hreached : Reached env chain) {vs : List UInt8} {rs ss : List H256} {message : Bytes}
    {rest : Memory} {code : List Call} {accepts : Bool}
    (hexec : exec env chain (.withdraw vs rs ss message rest code accepts) = some chain') :
    SignedByValidators env chain.validators vs rs ss message ↔
      chain.validators.initialized = true := by
  have hthreshold := hreached.threshold
  constructor
  · intro hsigned
    by_contra hfresh
    have hzero := (hthreshold.fresh (Bool.eq_false_iff.2 hfresh)).1
    have hpositive := hsigned.positive
    omega
  · intro hinitialized
    have hpositive := hthreshold.initialized hinitialized
    obtain ⟨opened, withdrawal, hopened⟩ := exists_opened hexec
    obtain ⟨hlength, signers, hcount, hsigners⟩ :=
      (hasEnoughValidSignatures_iff _ _).1 hopened.quorum
    refine ⟨fun hnil => ?_, hpositive, signers, hcount.ge, hsigners.distinct, hsigners.valid,
      fun j hj => ?_⟩
    · rw [hnil, List.length_nil] at hlength
      omega
    · have hrecovered := hsigners.recovered j hj
      rwa [Nat.zero_add] at hrecovered

/-- A `withdraw` of 5 to the account `0xc2`, which is no contract. -/
def simpleWithdraw (vs : List UInt8) (rs ss : List H256) : Call :=
  .withdraw vs rs ss (MessageToMainnet.toBytes ⟨0xc2, 5, 7, 0⟩) (fun _ => 0) [] true

theorem reached_oneValidator : Reached transparentEvm (run transparentEvm deployed oneValidator) :=
  reached_run .deployed (by
    simp only [oneValidator, List.forall_mem_cons, List.not_mem_nil, false_imp_iff, implies_true,
      and_true]
    exact ⟨.registry (show (0xff : Address) ≠ 0 by decide), .initializeBridge trivial,
      .fallback (show (0xc1 : Address) ≠ 0 by decide)⟩)

theorem withdraw_signed_iff_oneValidator :
    (exec transparentEvm (run transparentEvm deployed oneValidator)
        (simpleWithdraw [27] [0xa1] [0])).isSome = true ∧
      SignedByValidators transparentEvm (run transparentEvm deployed oneValidator).validators
        [27] [0xa1] [0] (MessageToMainnet.toBytes ⟨0xc2, 5, 7, 0⟩) := by
  have hsome : (exec transparentEvm (run transparentEvm deployed oneValidator)
      (simpleWithdraw [27] [0xa1] [0])).isSome = true := by decide +kernel
  obtain ⟨chain', hexec⟩ := Option.isSome_iff_exists.1 hsome
  exact ⟨hsome, (withdraw_signed_iff transparentEvm reached_oneValidator hexec).2
    (by decide +kernel)⟩

/-- The bridge is initialized and funded before the registry is initialized.
Then anybody can withdraw without a signature. -/
theorem unsigned_withdraw_before_initialize :
    ¬ ∀ (chain chain' : HomeChain) (vs : List UInt8) (rs ss : List H256),
      Reached transparentEvm chain →
      exec transparentEvm chain (simpleWithdraw vs rs ss) = some chain' → vs ≠ [] := by
  intro halways
  have hreached : Reached transparentEvm (run transparentEvm deployed
      [.initializeBridge 0xb2, .fallback 0xc1 100 []]) := reached_run .deployed (by
    simp only [List.forall_mem_cons, List.not_mem_nil, false_imp_iff, implies_true, and_true]
    exact ⟨.initializeBridge trivial, .fallback (show (0xc1 : Address) ≠ 0 by decide)⟩)
  exact halways _ _ [] [] [] hreached (Option.some_get (by decide +kernel)).symm rfl

end PoaBridge.Truffle.HomeChain
