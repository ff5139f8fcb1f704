import Mathlib.Algebra.Order.BigOperators.Group.List
import Mathlib.Data.List.Perm.Subperm
import Mathlib.Data.List.ProdSigma
import PoaBridge.Truffle.DepositDirection

/-!
# Which deposits arrive

All validators follow the protocol and relay every `Deposit` log, the registry
does not change, the recipients accept the ether and there is enough of it.

A deposit is known on foreign by its recipient, its value and its transaction
hash.  Two logs of one home transaction can agree in all three, and then the
confirmations of the second one are refused as duplicates of the first.
`all_paid_iff_keys_distinct` is the exact condition under which the number of
payouts and the totals of the recipients are right:
the logs have pairwise different keys, and the registry has as many distinct
validators as its threshold.  `initialize` counts a validator twice that is
given to it twice, so the second part is not automatic.

`relayed_spec` is the invariant of the relayed calls, in any order and with any
repetitions.
-/

namespace PoaBridge.Truffle

variable {Digest : Type} [DecidableEq Digest]

/-- A `Deposit` log of `HomeBridge`, and the payout that it asks for.  The
fallback function of `HomeBridge` refuses an empty deposit. -/
structure DepositLog (abi : Abi) where
  log : Log
  payout : Payout
  parsed : abi.parseDeposit log.rawLog = some ⟨payout.recipient, payout.value⟩
  mined : log.transactionHash = some payout.transactionHash
  positive : 0 < payout.value.toNat

namespace DepositSystem

/-- The transactions that the validators send for the logs. -/
def relayed {abi : Abi} (relays : List (Address × DepositLog abi)) : List ForeignChain.Call :=
  relays.filterMap fun relay => relayCall abi relay.1 relay.2.log true

/-- The ether that the transfers send to a recipient. -/
def total (recipient : Address) (transfers : List (Address × U256)) : Nat :=
  ((transfers.filter (·.1 = recipient)).map fun transfer => transfer.2.toNat).sum

/-- Between `chain` and `chain'` the contract makes these payouts: the events, the
transfers, and the ether that leaves it. -/
structure Pays (env : Evm Digest) (chain chain' : ForeignChain Digest) (paid : List Payout) :
    Prop where
  payouts : chain'.bridge.payouts = chain.bridge.payouts ++ paid
  transfers : chain'.bridge.transfers = chain.bridge.transfers ++ paid.map Payout.payment
  balance : chain'.bridge.balance + (paid.map (ForeignChain.spent env)).sum
    = chain.bridge.balance

/-- The payouts between `chain` and `chain'` are as many as the logs, and each
recipient is sent what was deposited for it. -/
def AllDelivered {abi : Abi} (env : Evm Digest) (chain chain' : ForeignChain Digest)
    (logs : List (DepositLog abi)) : Prop :=
  ∃ paid, Pays env chain chain' paid ∧ paid.length = logs.length ∧
    ∀ recipient, total recipient (paid.map Payout.payment)
      = total recipient (logs.map fun d => d.payout.payment)

/-- The assumptions on the foreign chain before the first relayed call. -/
structure Ready (setup : DepositSetup Digest) (chain : ForeignChain Digest)
    (logs : List (DepositLog setup.abi)) : Prop where
  registry : chain.validators = setup.registry.validators
  linked : chain.bridge.validatorContract = setup.env.validators
  fresh : ∀ d ∈ logs,
    chain.bridge.deposits (ForeignChain.depositHash setup.env d.payout) = []
  funded : (logs.map fun d => d.payout.value.toNat).sum ≤ chain.bridge.balance

/-- The foreign chain after the calls of `done`, with the new payouts. -/
structure Relayed (setup : DepositSetup Digest) (start chain : ForeignChain Digest)
    (logs : List (DepositLog setup.abi)) (done : List (Address × DepositLog setup.abi))
    (paid : List Payout) : Prop where
  registry : chain.validators = setup.registry.validators
  linked : chain.bridge.validatorContract = setup.env.validators
  distinct : ∀ d ∈ logs,
    (chain.bridge.deposits (ForeignChain.depositHash setup.env d.payout)).Nodup
  confirmed : ∀ d ∈ logs, ∀ a,
    a ∈ chain.bridge.deposits (ForeignChain.depositHash setup.env d.payout) ↔
      ∃ e, (a, e) ∈ done ∧ e.payout = d.payout
  pays : Pays setup.env start chain paid
  paid_distinct : paid.Nodup
  paid_iff : ∀ p, p ∈ paid ↔ p ∈ logs.map (·.payout) ∧ setup.registry.requiredSignatures
    ≤ (chain.bridge.deposits (ForeignChain.depositHash setup.env p)).length

/-- Distinct payouts of the logs cost no more than the logs. -/
theorem sum_paid_le {abi : Abi} {logs : List (DepositLog abi)} {paid : List Payout}
    (hdistinct : paid.Nodup) (hsubset : ∀ p ∈ paid, p ∈ logs.map (·.payout)) :
    (paid.map fun p => p.value.toNat).sum
      ≤ (logs.map fun d => d.payout.value.toNat).sum := by
  obtain ⟨l, hperm, hsublist⟩ := List.subperm_of_subset hdistinct hsubset
  have hsum := (hsublist.map fun p => p.value.toNat).sum_le_sum fun _ _ => Nat.zero_le _
  rw [List.map_map] at hsum
  rw [← (hperm.map fun p => p.value.toNat).sum_nat]
  exact hsum

omit [DecidableEq Digest] in
theorem spent_le (env : Evm Digest) (p : Payout) : ForeignChain.spent env p ≤ p.value.toNat := by
  unfold ForeignChain.spent
  split
  · exact Nat.zero_le _
  · exact le_rfl

section Delivery

variable {setup : DepositSetup Digest} {start chain : ForeignChain Digest}
  {logs : List (DepositLog setup.abi)} {done : List (Address × DepositLog setup.abi)}
  {paid : List Payout}
  (hkeccak : ∀ p q : Payout, setup.env.keccak256 p.packed = setup.env.keccak256 q.packed → p = q)

omit [DecidableEq Digest] in
theorem relayed_nil (hready : Ready setup start logs) :
    Relayed setup start start logs [] [] where
  registry := hready.registry
  linked := hready.linked
  distinct := by
    intro d hd
    rw [hready.fresh d hd]
    exact List.nodup_nil
  confirmed := by
    intro d hd a
    rw [hready.fresh d hd]
    simp
  pays := ⟨(List.append_nil _).symm, (List.append_nil _).symm, rfl⟩
  paid_distinct := List.nodup_nil
  paid_iff := by
    intro p
    refine iff_of_false (by simp) ?_
    rintro ⟨hp, hle⟩
    obtain ⟨d, hd, rfl⟩ := List.mem_map.1 hp
    have hone := setup.registry.spec.1
    rw [hready.fresh d hd, List.length_nil] at hle
    omega

omit [DecidableEq Digest] in
/-- A repeated confirmation is refused and changes nothing. -/
theorem relayed_repeated (h : Relayed setup start chain logs done paid) {validator : Address}
    {d : DepositLog setup.abi} (hd : d ∈ logs)
    (hrepeated : validator
      ∈ chain.bridge.deposits (ForeignChain.depositHash setup.env d.payout)) :
    Relayed setup start chain logs (done ++ [(validator, d)]) paid := by
  refine ⟨h.registry, h.linked, h.distinct, ?_, h.pays, h.paid_distinct, h.paid_iff⟩
  intro d' hd' a
  rw [h.confirmed d' hd' a]
  constructor
  · rintro ⟨e, he, hpayout⟩
    exact ⟨e, List.mem_append_left _ he, hpayout⟩
  · rintro ⟨e, he, hpayout⟩
    rcases List.mem_append.1 he with he | he
    · exact ⟨e, he, hpayout⟩
    · obtain ⟨rfl, rfl⟩ := Prod.mk.inj (List.mem_singleton.1 he)
      rw [← h.confirmed d' hd' a, ← hpayout]
      exact hrepeated

/-- The payload of the log calls `deposit` for one more validator: who has
confirmed a deposit then. -/
theorem confirmed_new (h : Relayed setup start chain logs done paid)
    {chain' : ForeignChain Digest} {validator : Address} {d : DepositLog setup.abi}
    (hdone : ForeignChain.DepositDone setup.env chain validator d.payout chain')
    (hother : ∀ p, p ≠ d.payout →
      chain'.bridge.deposits (ForeignChain.depositHash setup.env p)
        = chain.bridge.deposits (ForeignChain.depositHash setup.env p))
    {d' : DepositLog setup.abi} (hd' : d' ∈ logs) (a : Address) :
    a ∈ chain'.bridge.deposits (ForeignChain.depositHash setup.env d'.payout) ↔
      ∃ e, (a, e) ∈ done ++ [(validator, d)] ∧ e.payout = d'.payout := by
  have hsplit : (∃ e, (a, e) ∈ done ++ [(validator, d)] ∧ e.payout = d'.payout) ↔
      (∃ e, (a, e) ∈ done ∧ e.payout = d'.payout) ∨
        a = validator ∧ d.payout = d'.payout := by
    constructor
    · rintro ⟨e, he, hpayout⟩
      rcases List.mem_append.1 he with he | he
      · exact .inl ⟨e, he, hpayout⟩
      · obtain ⟨rfl, rfl⟩ := Prod.mk.inj (List.mem_singleton.1 he)
        exact .inr ⟨rfl, hpayout⟩
    · rintro (⟨e, he, hpayout⟩ | ⟨rfl, hpayout⟩)
      · exact ⟨e, List.mem_append_left _ he, hpayout⟩
      · exact ⟨d, by simp, hpayout⟩
  rw [hsplit, ← h.confirmed d' hd' a]
  by_cases heq : d'.payout = d.payout
  · rw [heq, hdone.deposits_self, List.mem_append, List.mem_singleton]
    simp
  · rw [hother _ heq]
    simp [Ne.symm heq]

omit [DecidableEq Digest] in
/-- A deposit below the threshold can still be paid: it is not among the paid
ones, and together with them it does not cost more than the logs. -/
theorem payable_below_threshold (h : Relayed setup start chain logs done paid)
    (hready : Ready setup start logs) {d : DepositLog setup.abi} (hd : d ∈ logs)
    (hreached : (chain.bridge.deposits
        (ForeignChain.depositHash setup.env d.payout)).length + 1
      = setup.registry.requiredSignatures) :
    d.payout ∉ paid ∧ d.payout.value.toNat ≤ chain.bridge.balance := by
  have hunpaid : d.payout ∉ paid := by
    intro hmem
    have := ((h.paid_iff _).1 hmem).2
    omega
  have hsum := @sum_paid_le _ logs (d.payout :: paid)
    (List.nodup_cons.2 ⟨hunpaid, h.paid_distinct⟩)
    (List.forall_mem_cons.2 ⟨List.mem_map_of_mem hd, fun p hp => ((h.paid_iff p).1 hp).1⟩)
  rw [List.map_cons, List.sum_cons] at hsum
  have hspent : (paid.map (ForeignChain.spent setup.env)).sum
      ≤ (paid.map fun p => p.value.toNat).sum :=
    List.sum_le_sum fun p _ => spent_le setup.env p
  have hstart := hready.funded
  have hbalance := h.pays.balance
  exact ⟨hunpaid, by omega⟩

include hkeccak in
/-- A new confirmation is recorded, and it pays the deposit when it is the one
that reaches the threshold. -/
theorem relayed_new (h : Relayed setup start chain logs done paid)
    (hready : Ready setup start logs) {validator : Address} {d : DepositLog setup.abi}
    (hd : d ∈ logs) (hvalidator : setup.registry.validators.isValidator validator = true)
    (hnew : validator
      ∉ chain.bridge.deposits (ForeignChain.depositHash setup.env d.payout)) :
    ∃ chain' paid', chain.deposit setup.env validator d.payout true = some chain' ∧
      Relayed setup start chain' logs (done ++ [(validator, d)]) paid' := by
  have hthreshold : chain.validators.requiredSignatures = setup.registry.requiredSignatures := by
    rw [h.registry, setup.registry.spec.2.1]
  obtain ⟨chain', hdeposit⟩ := ForeignChain.deposit_eq_some h.linked
    (h.registry ▸ hvalidator) hnew fun hreached =>
      ⟨(payable_below_threshold h hready hd (hreached.trans hthreshold)).2,
        fun _ => d.positive⟩
  have hdone := ForeignChain.deposit_cases hdeposit
  have hpayouts := hdone.payouts
  have htransfers := hdone.transfers
  have hbalance := hdone.balance
  rw [hthreshold] at hbalance htransfers hpayouts
  have hother : ∀ p, p ≠ d.payout →
      chain'.bridge.deposits (ForeignChain.depositHash setup.env p)
        = chain.bridge.deposits (ForeignChain.depositHash setup.env p) :=
    fun p hp => hdone.deposits_of_ne fun heq => hp (hkeccak p d.payout heq)
  have hlength : (chain'.bridge.deposits
      (ForeignChain.depositHash setup.env d.payout)).length
        = (chain.bridge.deposits (ForeignChain.depositHash setup.env d.payout)).length + 1 := by
    rw [hdone.deposits_self, List.length_append, List.length_singleton]
  have hregistry := hdone.validators.trans h.registry
  have hlinked := hdone.validatorContract.trans h.linked
  have hdistinct := fun d' hd' => hdone.nodup (h.distinct d' hd')
  have hconfirmed := fun d' hd' => @confirmed_new _ _ _ _ _ _ _ _ h _ _ _ hdone hother d' hd'
  have hstart := h.pays.balance
  -- the threshold is reached by this confirmation, or the payouts stay
  by_cases hreached : (chain.bridge.deposits
      (ForeignChain.depositHash setup.env d.payout)).length + 1
        = setup.registry.requiredSignatures
  · have hunpaid := (payable_below_threshold h hready hd hreached).1
    rw [if_pos hreached] at hbalance htransfers hpayouts
    refine ⟨chain', paid ++ [d.payout], hdeposit, hregistry, hlinked, hdistinct, hconfirmed,
      ⟨?_, ?_, ?_⟩, ?_, ?_⟩
    · rw [hpayouts, h.pays.payouts, List.append_assoc]
    · rw [htransfers, h.pays.transfers, List.append_assoc, List.map_append]
      rfl
    · rw [List.map_append, List.sum_append]
      simp only [List.map_cons, List.map_nil, List.sum_cons, List.sum_nil]
      omega
    · exact List.nodup_append.2 ⟨h.paid_distinct, by simp, fun a ha b hb hab =>
        hunpaid (List.mem_singleton.1 hb ▸ hab ▸ ha)⟩
    · intro p
      rw [List.mem_append, List.mem_singleton]
      by_cases heq : p = d.payout
      · subst heq
        exact iff_of_true (.inr rfl) ⟨List.mem_map_of_mem hd, by omega⟩
      · rw [hother p heq, h.paid_iff p]
        simp [heq]
  · rw [if_neg hreached] at hbalance htransfers hpayouts
    rw [List.append_nil] at htransfers hpayouts
    refine ⟨chain', paid, hdeposit, hregistry, hlinked, hdistinct, hconfirmed,
      ⟨hpayouts.trans h.pays.payouts, htransfers.trans h.pays.transfers, by omega⟩,
      h.paid_distinct, ?_⟩
    intro p
    rw [h.paid_iff p]
    by_cases heq : p = d.payout
    · subst heq
      refine and_congr_right fun _ => ?_
      omega
    · rw [hother p heq]

variable (habi : ∀ recipient value hash, setup.abi.decodeDeposit
    (setup.abi.depositInput recipient value hash) = some (recipient, value, hash))

omit [DecidableEq Digest] in
include habi in
theorem relayCall_depositLog (validator : Address) (d : DepositLog setup.abi) :
    relayCall setup.abi validator d.log true = some (.deposit validator d.payout true) := by
  simp only [relayCall, depositRelayPayload, d.parsed, d.mined, habi, Option.map_some]

include hkeccak habi in
/-- The invariant of the relayed calls. -/
theorem relayed_spec (hready : Ready setup start logs)
    (relays : List (Address × DepositLog setup.abi))
    (hrelays : ∀ relay ∈ relays, relay.1 ∈ setup.registry.initialValidators ∧
      relay.2 ∈ logs) :
    ∃ paid, Relayed setup start (start.run setup.env (relayed relays)) logs relays paid := by
  induction relays using List.reverseRecOn with
  | nil => exact ⟨[], relayed_nil hready⟩
  | append_singleton relays relay ih =>
    obtain ⟨validator, d⟩ := relay
    obtain ⟨paid, h⟩ := ih fun relay hmem => hrelays relay (List.mem_append_left _ hmem)
    obtain ⟨hvalidator, hd⟩ := hrelays (validator, d) (by simp)
    have hcalls : relayed (relays ++ [(validator, d)])
        = relayed relays ++ [.deposit validator d.payout true] := by
      simp [relayed, relayCall_depositLog habi validator d]
    rw [hcalls, ForeignChain.run, List.foldl_append]
    show ∃ paid, Relayed setup start (ForeignChain.step setup.env
      (start.run setup.env (relayed relays)) (.deposit validator d.payout true)) _ _ paid
    generalize start.run setup.env (relayed relays) = chain at h
    rw [ForeignChain.step, ForeignChain.exec]
    by_cases hrepeated : validator
        ∈ chain.bridge.deposits (ForeignChain.depositHash setup.env d.payout)
    · have hnone : chain.deposit setup.env validator d.payout true = none := by
        rw [Option.eq_none_iff_forall_ne_some]
        intro chain' hdeposit
        exact (ForeignChain.deposit_cases hdeposit).sender_fresh hrepeated
      rw [hnone]
      exact ⟨paid, relayed_repeated h hd hrepeated⟩
    · have hvalid := (setup.registry.spec.2.2.2.2 validator).2 hvalidator
      obtain ⟨chain', paid', hdeposit, h'⟩ := relayed_new hkeccak h hready hd hvalid hrepeated
      rw [hdeposit]
      exact ⟨paid', h'⟩

omit [DecidableEq Digest] in
/-- When every validator has relayed every log, the paid deposits are those of
the logs, if there are enough validators. -/
theorem mem_paid_iff {relays : List (Address × DepositLog setup.abi)}
    (h : Relayed setup start chain logs relays paid)
    (hrelays : ∀ validator d, (validator, d) ∈ relays ↔
      validator ∈ setup.registry.initialValidators ∧ d ∈ logs) (p : Payout) :
    p ∈ paid ↔ p ∈ logs.map (·.payout) ∧
      setup.registry.requiredSignatures ≤ setup.registry.initialValidators.toFinset.card := by
  rw [h.paid_iff p]
  refine and_congr_right fun hp => ?_
  obtain ⟨d, hd, rfl⟩ := List.mem_map.1 hp
  have hconfirmed : (chain.bridge.deposits
      (ForeignChain.depositHash setup.env d.payout)).toFinset
        = setup.registry.initialValidators.toFinset := by
    ext a
    rw [List.mem_toFinset, List.mem_toFinset, h.confirmed d hd a]
    constructor
    · rintro ⟨e, he, -⟩
      exact ((hrelays a e).1 he).1
    · intro ha
      exact ⟨d, (hrelays a d).2 ⟨ha, hd⟩, rfl⟩
  rw [← hconfirmed, List.toFinset_card_of_nodup (h.distinct d hd)]

end Delivery

theorem total_eq_of_perm {ps qs : List (Address × U256)} (h : ps.Perm qs)
    (recipient : Address) : total recipient ps = total recipient qs :=
  ((h.filter _).map _).sum_nat

/-- Which deposits arrive.  The validators relay every log, in any order and as
often as they like.  The number of payouts and the ether that is sent to every
recipient are right exactly when no two logs have the same recipient, value and
transaction hash, and the registry has as many distinct validators as its
threshold. -/
theorem all_paid_iff_keys_distinct (setup : DepositSetup Digest) (start : ForeignChain Digest)
    (logs : List (DepositLog setup.abi)) (relays : List (Address × DepositLog setup.abi))
    (hkeccak : ∀ p q : Payout,
      setup.env.keccak256 p.packed = setup.env.keccak256 q.packed → p = q)
    (habi : ∀ recipient value hash, setup.abi.decodeDeposit
      (setup.abi.depositInput recipient value hash) = some (recipient, value, hash))
    (hready : Ready setup start logs)
    (hrelays : ∀ validator d, (validator, d) ∈ relays ↔
      validator ∈ setup.registry.initialValidators ∧ d ∈ logs) :
    AllDelivered setup.env start (start.run setup.env (relayed relays)) logs ↔
      (logs.map (·.payout)).Nodup ∧ (logs = [] ∨ setup.registry.requiredSignatures
        ≤ setup.registry.initialValidators.toFinset.card) := by
  obtain ⟨paid, h⟩ := relayed_spec hkeccak habi hready relays
    fun relay hmem => (hrelays relay.1 relay.2).1 hmem
  have hmem := mem_paid_iff h hrelays
  have hdelivered : AllDelivered setup.env start (start.run setup.env (relayed relays)) logs ↔
      paid.length = logs.length ∧ ∀ recipient, total recipient (paid.map Payout.payment)
        = total recipient (logs.map fun d => d.payout.payment) := by
    constructor
    · rintro ⟨paid', hpays, hrest⟩
      rw [List.append_cancel_left (h.pays.payouts.symm.trans hpays.payouts)]
      exact hrest
    · exact fun hrest => ⟨paid, h.pays, hrest⟩
  rw [hdelivered]
  by_cases henough : setup.registry.requiredSignatures
      ≤ setup.registry.initialValidators.toFinset.card
  · have hmem' : ∀ p, p ∈ paid ↔ p ∈ logs.map (·.payout) := fun p => by
      rw [hmem p, and_iff_left henough]
    constructor
    · rintro ⟨hlength, -⟩
      have hsubperm := List.subperm_of_subset h.paid_distinct fun p hp => (hmem' p).1 hp
      have hperm := hsubperm.perm_of_length_le (by rw [List.length_map, hlength])
      exact ⟨hperm.nodup_iff.1 h.paid_distinct, .inr henough⟩
    · rintro ⟨hdistinct, -⟩
      have hperm := (List.perm_ext_iff_of_nodup h.paid_distinct hdistinct).2 hmem'
      refine ⟨by rw [hperm.length_eq, List.length_map], total_eq_of_perm ?_⟩
      have hpayments := hperm.map Payout.payment
      rwa [List.map_map] at hpayments
  · have hnone : paid = [] := List.eq_nil_iff_forall_not_mem.2 fun p hp =>
      henough ((hmem p).1 hp).2
    rw [hnone]
    constructor
    · rintro ⟨hlength, -⟩
      have hnil : logs = [] := List.length_eq_zero_iff.1 hlength.symm
      rw [hnil]
      exact ⟨List.nodup_nil, .inl rfl⟩
    · rintro ⟨-, hnil | habsurd⟩
      · rw [hnil]
        exact ⟨rfl, fun _ => rfl⟩
      · exact absurd habsurd henough

/-- A `Deposit` log of `HomeBridge`. -/
def homeDeposit (recipient : Address) (value : U256) (transactionHash : H256)
    (h : 0 < value.toNat) : DepositLog threeValidators.abi where
  log := depositLog recipient value transactionHash
  payout := ⟨recipient, value, transactionHash⟩
  parsed := Abi.roundTrips_solidity.parseDeposit recipient value
  mined := rfl
  positive := h

/-- The foreign chain with ether for the payouts. -/
def fundedForeign : ForeignChain Bytes :=
  (start threeValidators [] fun _ => 0).foreign.run threeValidators.env
    [.fallback 0xc1 100 []]

/-- Every validator relays every log. -/
def relayedByAll (logs : List (DepositLog threeValidators.abi)) :
    List (Address × DepositLog threeValidators.abi) :=
  threeValidators.registry.initialValidators.product logs

theorem all_paid_iff_keys_distinct_two :
    AllDelivered threeValidators.env fundedForeign
      (fundedForeign.run threeValidators.env (relayed (relayedByAll
        [homeDeposit 0xc2 5 7 (by decide), homeDeposit 0xc2 6 7 (by decide)])))
      [homeDeposit 0xc2 5 7 (by decide), homeDeposit 0xc2 6 7 (by decide)] :=
  (all_paid_iff_keys_distinct threeValidators fundedForeign _ _
    (fun _ _ h => Payout.packed_injective h) Abi.decodeDeposit_depositInput
    ⟨rfl, rfl, fun _ _ => rfl, by decide +kernel⟩ (fun _ _ => List.pair_mem_product)).2
    ⟨by decide +kernel, .inr (by decide +kernel)⟩

/-- A contract sends the same amount twice in one home transaction.  Everybody
relays both logs, and the recipient is paid once. -/
theorem equal_deposits_of_transaction_paid_once :
    let logs := [homeDeposit 0xc2 5 7 (by decide), homeDeposit 0xc2 5 7 (by decide)]
    let chain := fundedForeign.run threeValidators.env (relayed (relayedByAll logs))
    Ready threeValidators fundedForeign logs ∧
      chain.bridge.transfers = [(0xc2, 5)] ∧ chain.bridge.balance = 95 ∧
      ¬ AllDelivered threeValidators.env fundedForeign chain logs := by
  refine ⟨⟨rfl, rfl, fun _ _ => rfl, by decide +kernel⟩, by decide +kernel, by decide +kernel, ?_⟩
  rintro ⟨paid, ⟨hpayouts, -, -⟩, hlength, -⟩
  have hpaid : paid = [⟨0xc2, 5, 7⟩] := by
    have hrun : (fundedForeign.run threeValidators.env (relayed (relayedByAll
        [homeDeposit 0xc2 5 7 (by decide), homeDeposit 0xc2 5 7 (by decide)]))).bridge.payouts
          = fundedForeign.bridge.payouts ++ [⟨0xc2, 5, 7⟩] := by
      decide +kernel
    exact List.append_cancel_left (hpayouts.symm.trans hrun)
  rw [hpaid] at hlength
  cases hlength

end DepositSystem

end PoaBridge.Truffle
