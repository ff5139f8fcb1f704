import Mathlib.Algebra.BigOperators.Ring.List
import PoaBridge.Budget
import PoaBridge.WithdrawAssembly
import PoaBridge.WithdrawSubmission

/-!
# The cost of a batch

Before a relay creates the transactions of a batch, it compares the product of
its gas limit, a gas price and the number of transactions with the balance of its
account.

The deposit relay and the confirmation of withdrawals send their transactions with
the gas price of the check, so the product is the cost of the batch.  The relay of
withdrawals checks with the current gas price of home and sends with the prices
in the messages.  `batches_covered` says for which messages its batches are
covered all the same.
-/

namespace PoaBridge

open PollLoop

variable {Digest : Type}

/-! ## The product of the check -/

/-- The product of two `U256`.  `none` is the panic on an overflow. -/
def checkedMul (a b : U256) : Option U256 :=
  if a.toNat * b.toNat < 2 ^ 256 then some (a * b) else none

theorem checkedMul_eq_some {a b : U256} (h : a.toNat * b.toNat < 2 ^ 256) :
    ∃ product, checkedMul a b = some product ∧ product.toNat = a.toNat * b.toNat :=
  ⟨a * b, if_pos h, by rw [BitVec.toNat_mul, Nat.mod_eq_of_lt h]⟩

/-- `gas * gas_price * U256::from(len)`, multiplication by multiplication. -/
def checkedBalanceRequired (gas gasPrice : UInt64) (len : Nat) : Option U256 := do
  let product ← checkedMul (BitVec.ofNat 256 gas.toNat) (BitVec.ofNat 256 gasPrice.toNat)
  checkedMul product (BitVec.ofNat 256 len)

/-- The overflow check never fires. -/
theorem checkedBalanceRequired_eq_some (gas gasPrice : UInt64) {len : Nat} (h : len < 2 ^ 64) :
    ∃ product, checkedBalanceRequired gas gasPrice len = some product ∧
      product.toNat = balanceRequired gas gasPrice len := by
  have hgas : gas.toNat < 2 ^ 64 := gas.toNat_lt
  have hgasPrice : gasPrice.toNat < 2 ^ 64 := gasPrice.toNat_lt
  have hlen : (BitVec.ofNat 256 len).toNat = len := by
    rw [BitVec.toNat_ofNat, Nat.mod_eq_of_lt (by omega)]
  have hfirst : gas.toNat * gasPrice.toNat < 2 ^ 64 * 2 ^ 64 := Nat.mul_lt_mul'' hgas hgasPrice
  have hsecond : gas.toNat * gasPrice.toNat * len < 2 ^ 64 * 2 ^ 64 * 2 ^ 64 :=
    Nat.mul_lt_mul'' hfirst h
  obtain ⟨first, hfirst', hfirst''⟩ := @checkedMul_eq_some (BitVec.ofNat 256 gas.toNat)
    (BitVec.ofNat 256 gasPrice.toNat) (by rw [toNat_ofNat_toNat, toNat_ofNat_toNat]; omega)
  rw [toNat_ofNat_toNat, toNat_ofNat_toNat] at hfirst''
  obtain ⟨second, hsecond', hsecond''⟩ := @checkedMul_eq_some first (BitVec.ofNat 256 len)
    (by rw [hfirst'', hlen]; omega)
  rw [hfirst'', hlen] at hsecond''
  refine ⟨second, ?_, hsecond''⟩
  rw [checkedBalanceRequired, hfirst']
  exact hsecond'

/-! ## Batches that are covered -/

/-- What has to hold of an iteration that decides about a batch.  When the relay goes
on, the batch costs at most the balance that the check compared with.  When it does
not, there is no batch and no nonce is taken, and if all transactions could have
been created, the reason is that the funds are insufficient. -/
structure Covered {ρ : Type} (batch : ρ → Option (Batch Digest)) (shared : Shared Digest)
    (balance : U256) (required : Nat) (creatable : Prop)
    (flow : Flow (ρ × Shared Digest) (Poll (Option BridgeChecked))) : Prop where
  next : ∀ s, flow = .next s → s.2 = shared ∧ required ≤ balance.toNat ∧
    ∃ future, batch s.1 = some future ∧ Batch.cost future ≤ balance.toNat
  ret : ∀ s result, flow = .ret s result → s.2 = shared ∧ batch s.1 = none ∧
    (creatable → result = .error .insufficientFunds ∧ balance.toNat < required)

section Covered

variable {ρ : Type} {batch : ρ → Option (Batch Digest)} {shared : Shared Digest} {balance : U256}
  {required : Nat} {creatable : Prop}

theorem covered_next {relay : ρ} {future : Batch Digest} (hfuture : batch relay = some future)
    (hrequired : required ≤ balance.toNat) (hcost : Batch.cost future ≤ balance.toNat) :
    Covered batch shared balance required creatable (.next (relay, shared)) where
  next := by
    intro s hs
    cases hs
    exact ⟨rfl, hrequired, future, hfuture, hcost⟩
  ret := by
    intro s result hs
    cases hs

theorem covered_ret {relay : ρ} {e : Error} (hnone : batch relay = none)
    (herror : creatable → e = .insufficientFunds ∧ balance.toNat < required) :
    Covered batch shared balance required creatable (.ret (relay, shared) (.error e)) where
  next := by
    intro s hs
    cases hs
  ret := by
    intro s result hs
    cases hs
    exact ⟨rfl, hnone, fun h => ⟨congrArg _ (herror h).1, (herror h).2⟩⟩

end Covered

namespace DepositRelay

variable {app : App Digest} {relay : DepositRelay Digest} {shared : Shared Digest}
  {answers : Answers Digest} {balance : U256} {logs : LogStream} {item : LogStreamItem}

/-- A transaction can be created for every log. -/
def Creatable (app : App Digest) (item : LogStreamItem) : Prop :=
  ∀ log ∈ item.logs, ∃ payload, depositRelayPayload app.abi log = .ok payload

theorem covered (hwait : relay.state = .wait) (hbalance : shared.foreignBalance = some balance)
    (hitem : relay.logs.poll answers.logs = (logs, .ok (.ready (some item)))) :
    Covered batch shared balance
      (balanceRequired app.depositRelayGas shared.foreignGasPrice item.logs.length)
      (Creatable app item) (body app (relay, shared) answers) := by
  rw [body_of_item hwait hbalance hitem]
  cases hdeposits : { relay with logs := logs }.transactions app shared.foreignGasPrice balance
    item with
  | error e =>
    refine covered_ret (by rw [batch, hwait]) fun hcreatable => ?_
    unfold transactions at hdeposits
    split at hdeposits
    · rename_i hless
      cases hdeposits
      exact ⟨rfl, hless⟩
    · obtain ⟨deposits, hok⟩ : ∃ deposits, (item.logs.mapM fun log => do
          let payload ← depositRelayPayload app.abi log
          pure (log, callTransaction (BitVec.ofNat 256 app.depositRelayGas.toNat)
            (BitVec.ofNat 256 shared.foreignGasPrice.toNat) relay.foreignContract payload) :
          Except Error (List (Log × Transaction))) = .ok deposits := by
        apply Results.exists_mapM_eq_ok
        intro log hlog
        obtain ⟨payload, hpayload⟩ := hcreatable log hlog
        rw [hpayload]
        exact ⟨_, rfl⟩
      rw [hok] at hdeposits
      cases hdeposits
  | ok deposits =>
    unfold transactions at hdeposits
    split at hdeposits
    · cases hdeposits
    · rename_i henough
      refine covered_next rfl (Nat.not_lt.1 henough) ?_
      refine Batch.cost_sendAll_le hdeposits (fun log p hp => ?_) henough
      obtain ⟨payload, -, hp⟩ := Results.exists_of_bind_eq_ok hp
      cases hp
      exact ⟨rfl, rfl⟩

end DepositRelay

namespace WithdrawConfirm

variable {app : App Digest} {relay : WithdrawConfirm Digest} {shared : Shared Digest}
  {answers : Answers Digest} {balance : U256} {logs : LogStream} {item : LogStreamItem}

/-- Every log has a message, and all messages are signed. -/
def Creatable (app : App Digest) (item : LogStreamItem) : Prop :=
  ∃ pairs triples, messages app item.logs = .ok pairs ∧ signatures app pairs = .ok triples

theorem covered (hwait : relay.state = .wait) (hbalance : shared.foreignBalance = some balance)
    (hitem : relay.logs.poll answers.logs = (logs, .ok (.ready (some item)))) :
    Covered batch shared balance
      (balanceRequired app.withdrawConfirmGas shared.foreignGasPrice item.logs.length)
      (Creatable app item) (body app (relay, shared) answers) := by
  rw [body_of_item hwait hbalance hitem]
  cases hresult : { relay with logs := logs }.transactions app shared.foreignGasPrice balance
    item with
  | error e =>
    refine covered_ret (by rw [batch, hwait]) fun hcreatable => ?_
    obtain ⟨pairs, triples, hpairs, htriples⟩ := hcreatable
    obtain ⟨confirmations, hconfirmations⟩ := exists_confirmations hpairs htriples
      { relay with logs := logs } shared.foreignGasPrice
    rw [transactions, hpairs] at hresult
    change (signatures app pairs >>= _) = _ at hresult
    rw [htriples] at hresult
    change (if _ then _ else _) = _ at hresult
    rw [length_of_signatures hpairs htriples, hconfirmations] at hresult
    split at hresult
    · rename_i hless
      cases hresult
      exact ⟨rfl, hless⟩
    · cases hresult
  | ok result =>
    obtain ⟨pairs, hpairs, hresult⟩ := Results.exists_of_bind_eq_ok hresult
    obtain ⟨triples, htriples, hresult⟩ := Results.exists_of_bind_eq_ok hresult
    split at hresult
    · cases hresult
    · rename_i henough
      refine covered_next rfl ?_ ?_
      · rw [length_of_signatures hpairs htriples] at henough
        exact Nat.not_lt.1 henough
      · refine Batch.cost_sendAll_le hresult (fun triple p hp => ?_) henough
        obtain ⟨payload, -, hp⟩ := Results.exists_of_bind_eq_ok hp
        cases hp
        exact ⟨rfl, rfl⟩

end WithdrawConfirm

namespace WithdrawRelay

/-- The batch in flight. -/
def batch (self : WithdrawRelay Digest) : Option (Batch Digest) :=
  match self.state with
  | .relayWithdraws future _ => some future
  | _ => none

/-- The gas prices in the messages. -/
def homeGasPrices (messages : List Bytes) : Except Error (List U256) :=
  messages.mapM fun message =>
    (MessageToMainnet.fromBytes message).map MessageToMainnet.mainnetGasPrice

/-- The signatures of a batch, decoded. -/
def decodeSignatures (abi : Abi) (signaturesRaw : List (List Bytes)) :
    Except Error (List (List Signature)) :=
  signaturesRaw.mapM fun signatures => signatures.mapM (decodeSignature abi)

variable {app : App Digest} {self : WithdrawRelay Digest} {gasPrice : UInt64} {balance : U256}
  {assignments : List (Log × RelayAssignment)} {messagesRaw : List Bytes}
  {signaturesRaw : List (List Bytes)}

theorem relays_map_gasPrice {messages : List Bytes} {signatures : List (List Signature)}
    (hmessages : messages.length = assignments.length)
    (hsignatures : signatures.length = assignments.length) :
    ((assignments.zip (messages.zip signatures)).mapM fun p =>
        self.relay app p.1.1 p.2.1 p.2.2).map (List.map fun p => p.2.gasPrice)
      = homeGasPrices messages := by
  have hzip : (assignments.zip (messages.zip signatures)).map (fun p => p.2.1) = messages := by
    have hlength : (messages.zip signatures).length = assignments.length := by
      rw [List.length_zip, hmessages, hsignatures, Nat.min_self]
    calc (assignments.zip (messages.zip signatures)).map (fun p => p.2.1)
        = ((assignments.zip (messages.zip signatures)).map Prod.snd).map Prod.fst := by
          rw [List.map_map]
          rfl
      _ = messages := by
          rw [List.map_snd_zip hlength.le, List.map_fst_zip (hmessages.trans hsignatures.symm).le]
  rw [Results.map_mapM]
  conv_rhs => rw [homeGasPrices, ← hzip, List.mapM_map]
  congr 1
  funext p
  rw [Function.comp_apply, relay]
  cases MessageToMainnet.fromBytes p.2.1 <;> rfl

/-- What the transactions of a batch cost, before there are any: the check, the
answers of the node, and the prices in the messages. -/
theorem transactions_map_gasPrice (hmessages : messagesRaw.length = assignments.length)
    (hsignatures : signaturesRaw.length = assignments.length) :
    (self.transactions app gasPrice balance assignments messagesRaw signaturesRaw).map
        (List.map fun p => p.2.gasPrice)
      = if balance.toNat < balanceRequired app.withdrawRelayGas gasPrice messagesRaw.length then
          .error .insufficientFunds
        else (do
          let messages ← messagesRaw.mapM (decodeMessage app.abi)
          let _ ← decodeSignatures app.abi signaturesRaw
          homeGasPrices messages) := by
  unfold transactions decodeSignatures
  rw [if_neg (not_not.2 (hmessages.trans hsignatures.symm))]
  split
  · rfl
  · cases hdecoded : messagesRaw.mapM (decodeMessage app.abi) with
    | error e => rfl
    | ok messages =>
      cases hdecoded' : signaturesRaw.mapM fun signatures =>
          signatures.mapM (decodeSignature app.abi) with
      | error e => rfl
      | ok signatures =>
        apply relays_map_gasPrice
        · rw [← hmessages]
          exact (Results.forall₂_of_mapM_eq_ok hdecoded).length_eq.symm
        · rw [← hsignatures]
          exact (Results.forall₂_of_mapM_eq_ok hdecoded').length_eq.symm

theorem cost_of_transactions {relays : List (Log × Transaction)} (account : Address)
    (chainId : UInt64)
    (h : self.transactions app gasPrice balance assignments messagesRaw signaturesRaw
      = .ok relays) :
    Batch.cost (sendAll account chainId relays : Batch Digest)
      = app.withdrawRelayGas.toNat * ((relays.map fun p => p.2.gasPrice).map BitVec.toNat).sum := by
  have hgas : ∀ p ∈ relays, p.2.gas = BitVec.ofNat 256 app.withdrawRelayGas.toNat := by
    intro p hp
    unfold transactions at h
    split at h
    · cases h
    split at h
    · cases h
    obtain ⟨messages, -, h⟩ := Results.exists_of_bind_eq_ok h
    obtain ⟨signatures, -, h⟩ := Results.exists_of_bind_eq_ok h
    obtain ⟨q, -, hq⟩ := Results.exists_mem_of_mapM_eq_ok h hp
    obtain ⟨parsed, -, rfl⟩ := relay_eq_ok hq
    rfl
  have hcosts : relays.map (fun p => p.2.gas.toNat * p.2.gasPrice.toNat)
      = relays.map fun p => app.withdrawRelayGas.toNat * p.2.gasPrice.toNat := by
    apply List.map_congr_left
    intro p hp
    rw [hgas p hp, toNat_ofNat_toNat]
  rw [Batch.cost_sendAll_eq_sum, hcosts, List.sum_map_mul_left, List.map_map]
  rfl

/-- A transaction can be created for every message that was fetched. -/
def Creatable (app : App Digest) (raws : List Bytes × List (List Bytes)) : Prop :=
  ∃ messages signatures prices, raws.1.mapM (decodeMessage app.abi) = .ok messages ∧
    decodeSignatures app.abi raws.2 = .ok signatures ∧ homeGasPrices messages = .ok prices

/-- When the check passes, the balance is enough for the gas prices in the
messages too. -/
def Affords (app : App Digest) (gasPrice : UInt64) (balance : U256)
    (raws : List Bytes × List (List Bytes)) : Prop :=
  balanceRequired app.withdrawRelayGas gasPrice raws.1.length ≤ balance.toNat →
    ∀ messages signatures prices, raws.1.mapM (decodeMessage app.abi) = .ok messages →
      decodeSignatures app.abi raws.2 = .ok signatures → homeGasPrices messages = .ok prices →
      app.withdrawRelayGas.toNat * (prices.map BitVec.toNat).sum ≤ balance.toNat

theorem covered_iff {relay : WithdrawRelay Digest} {shared : Shared Digest}
    {answers : Answers Digest} {future : Fetch} {block : UInt64}
    {raws : List Bytes × List (List Bytes)} {called : Bytes → Bytes → Prop}
    (hstate : relay.state = .fetchMessagesSignatures assignments future block)
    (hbalance : shared.homeBalance = some balance)
    (hfetched : (pollFetch (answers.call · relay.foreignContract) future).2 = .ok (.ready raws))
    (hmessages : List.Forall₂ (MessageAnswer called) assignments raws.1)
    (hsignatures : List.Forall₂ (SignatureAnswers called) assignments raws.2) :
    Covered batch shared balance
        (balanceRequired app.withdrawRelayGas shared.homeGasPrice raws.1.length)
        (Creatable app raws) (body app (relay, shared) answers)
      ↔ Affords app shared.homeGasPrice balance raws := by
  have hprices := @transactions_map_gasPrice _ app relay shared.homeGasPrice balance _ _ _
    hmessages.length_eq.symm hsignatures.length_eq.symm
  rw [body_of_fetching hstate hbalance, hfetched, withContext_eq_ok.2 rfl]
  dsimp only
  cases htransactions : relay.transactions app shared.homeGasPrice balance assignments raws.1
    raws.2 with
  | error e =>
    rw [htransactions] at hprices
    refine iff_of_true (covered_ret rfl fun hcreatable => ?_) fun henough messages signatures
      prices hmessages hsignatures hhome => ?_
    · split at hprices
      · rename_i hless
        cases hprices
        exact ⟨rfl, hless⟩
      · obtain ⟨messages, signatures, prices, hmessages, hsignatures, hhome⟩ := hcreatable
        rw [hmessages, hsignatures] at hprices
        cases hprices.trans hhome
    · rw [if_neg (Nat.not_lt.2 henough), hmessages, hsignatures] at hprices
      cases hprices.trans hhome
  | ok relays =>
    rw [htransactions] at hprices
    have hcost := cost_of_transactions app.home.account relay.homeChainId htransactions
    split at hprices
    · cases hprices
    · rename_i henough
      obtain ⟨messages, hmessages, hprices⟩ := Results.exists_of_bind_eq_ok hprices.symm
      obtain ⟨signatures, hsignatures, hhome⟩ := Results.exists_of_bind_eq_ok hprices
      constructor
      · intro hcovered _ messages' signatures' prices hmessages' hsignatures' hhome'
        obtain ⟨-, -, future', hfuture', hle⟩ := hcovered.next _ rfl
        cases hfuture'
        rw [hmessages] at hmessages'
        cases hmessages'
        rw [hhome] at hhome'
        cases hhome'
        rw [← hcost]
        exact hle
      · intro haffords
        refine covered_next rfl (Nat.not_lt.1 henough) ?_
        rw [hcost]
        exact haffords (Nat.not_lt.1 henough) _ _ _ hmessages hsignatures hhome

/-- A relay that went from an item over any number of polls to the answers. -/
structure Fetches (app : App Digest) (relay : WithdrawRelay Digest) (shared : Shared Digest)
    (answers : Answers Digest) (balance : U256) (raws : List Bytes × List (List Bytes)) : Prop where
  origin : ∃ start fetching : WithdrawRelay Digest, ∃ shared' answers' logs item,
    start.state = .wait ∧ start.logs.poll answers'.logs = (logs, .ok (.ready (some item))) ∧
    body app (start, shared') answers' = .next (fetching, shared') ∧
    Relation.ReflTransGen (Waits app fun _ _ => True) fetching relay
  balance_eq : shared.homeBalance = some balance
  fetched : ∃ assignments future block,
    relay.state = .fetchMessagesSignatures assignments future block ∧
    (pollFetch (answers.call · relay.foreignContract) future).2 = .ok (.ready raws)

theorem covered_iff_of_fetches {relay : WithdrawRelay Digest} {shared : Shared Digest}
    {answers : Answers Digest} {raws : List Bytes × List (List Bytes)}
    (h : Fetches app relay shared answers balance raws) :
    Covered batch shared balance
        (balanceRequired app.withdrawRelayGas shared.homeGasPrice raws.1.length)
        (Creatable app raws) (body app (relay, shared) answers)
      ↔ Affords app shared.homeGasPrice balance raws := by
  obtain ⟨start, fetching, shared', answers', logs, item, hwait, hitem, hbody, hwaits⟩ := h.origin
  obtain ⟨assignments, future, block, hstate, hfetched⟩ := h.fetched
  rw [body_of_item hwait hitem] at hbody
  split at hbody
  · cases hbody
  · rename_i assignments' hassignments
    cases hbody
    have hstart : Assembling (fun _ _ => True) { start with logs := logs } assignments' item.toBlock
        { start with
          logs := logs
          state := .fetchMessagesSignatures assignments' (fetch assignments') item.toBlock }
        (fetch assignments') := ⟨rfl, fetching_fetch _ assignments'⟩
    obtain ⟨future', hassembling⟩ := assembling_of_waits hstart hwaits
    have hsame := hstate
    rw [hassembling.relay_eq] at hsame
    cases hsame
    obtain ⟨hmessages, hsignatures⟩ :=
      (pollFetch_spec (fun _ _ _ _ => trivial) hassembling.fetching).2 raws hfetched
    exact covered_iff hstate h.balance_eq hfetched hmessages hsignatures

end WithdrawRelay

/-- The batches that the relays can pay for: every batch of the deposit relay and of
the confirmation of withdrawals, and a batch of the relay of withdrawals if and only
if the balance affords the gas prices in its messages.  The product that is compared
with the balance is exact. -/
theorem batches_covered (app : App Digest) :
    (∀ (relay : DepositRelay Digest) (shared : Shared Digest)
      (answers : DepositRelay.Answers Digest) (balance : U256) (logs : LogStream)
      (item : LogStreamItem), relay.state = .wait → shared.foreignBalance = some balance →
      relay.logs.poll answers.logs = (logs, .ok (.ready (some item))) →
      Covered DepositRelay.batch shared balance
        (balanceRequired app.depositRelayGas shared.foreignGasPrice item.logs.length)
        (DepositRelay.Creatable app item) (DepositRelay.body app (relay, shared) answers)) ∧
    (∀ (relay : WithdrawConfirm Digest) (shared : Shared Digest)
      (answers : WithdrawConfirm.Answers Digest) (balance : U256) (logs : LogStream)
      (item : LogStreamItem), relay.state = .wait → shared.foreignBalance = some balance →
      relay.logs.poll answers.logs = (logs, .ok (.ready (some item))) →
      Covered WithdrawConfirm.batch shared balance
        (balanceRequired app.withdrawConfirmGas shared.foreignGasPrice item.logs.length)
        (WithdrawConfirm.Creatable app item) (WithdrawConfirm.body app (relay, shared) answers)) ∧
    (∀ (relay : WithdrawRelay Digest) (shared : Shared Digest)
      (answers : WithdrawRelay.Answers Digest) (balance : U256)
      (raws : List Bytes × List (List Bytes)),
      WithdrawRelay.Fetches app relay shared answers balance raws →
      (Covered WithdrawRelay.batch shared balance
          (balanceRequired app.withdrawRelayGas shared.homeGasPrice raws.1.length)
          (WithdrawRelay.Creatable app raws) (WithdrawRelay.body app (relay, shared) answers)
        ↔ WithdrawRelay.Affords app shared.homeGasPrice balance raws)) ∧
    ∀ (gas gasPrice : UInt64) (len : Nat), len < 2 ^ 64 →
      ∃ product, checkedBalanceRequired gas gasPrice len = some product ∧
        product.toNat = balanceRequired gas gasPrice len :=
  ⟨fun _ _ _ _ _ _ => DepositRelay.covered, fun _ _ _ _ _ _ => WithdrawConfirm.covered,
    fun _ _ _ _ _ => WithdrawRelay.covered_iff_of_fetches,
    fun gas gasPrice _ => checkedBalanceRequired_eq_some gas gasPrice⟩

namespace WithdrawRelay

/-- What the node has answered for the log of this authority. -/
def relayedRaws : List Bytes × List (List Bytes) :=
  ([Abi.dynamicArguments [Abi.dynamicBytes (relayedStores.message 2)]],
    [[Abi.dynamicArguments [Abi.dynamicBytes (relayedStores.signature 2 0)],
      Abi.dynamicArguments [Abi.dynamicBytes (relayedStores.signature 2 1)]]])

/-- The relay that fetches them. -/
def relayedFetching : WithdrawRelay Bytes :=
  let assignments := [(collectedLog 0xA 2, assignmentOf Abi.solidity ⟨0xA, 2, 2⟩)]
  ⟨⟨.nextItem none, 1, ⟨[], []⟩, 0⟩, .fetchMessagesSignatures assignments (fetch assignments) 1,
    0xF0, 0xE0, 1⟩

theorem fetches_relayed {shared : Shared Bytes} {balance : U256}
    (hbalance : shared.homeBalance = some balance) :
    Fetches relayingApp relayedFetching shared relayingAnswers balance relayedRaws := by
  have hitem : relayingRelay.logs.poll relayingAnswers.logs = (⟨.nextItem none, 1, ⟨[], []⟩, 0⟩,
      .ok (.ready (some ⟨1, 1, [collectedLog 0xB 1, collectedLog 0xA 2]⟩))) := rfl
  have hassignments : assignments relayingApp [collectedLog 0xB 1, collectedLog 0xA 2]
      = .ok [(collectedLog 0xA 2, assignmentOf Abi.solidity ⟨0xA, 2, 2⟩)] := by
    decide +kernel
  refine ⟨⟨relayingRelay, relayedFetching, shared, relayingAnswers, _, _, rfl, hitem, ?_, .refl⟩,
    hbalance, _, _, _, rfl, ?_⟩
  · rw [body_of_item rfl hitem, hassignments]
    rfl
  · decide +kernel

/-- The check compares `21000 * 1` with 30000, and the batch costs `21000 * 7`. -/
theorem uncovered_relayed : ∃ sent future,
    Fetches relayingApp relayedFetching relayingShared relayingAnswers 30000 relayedRaws ∧
    body relayingApp (relayedFetching, relayingShared) relayingAnswers = .next sent ∧
    batch sent.1 = some future ∧ 30000 < Batch.cost future := by
  have hcost : (match body relayingApp (relayedFetching, relayingShared) relayingAnswers with
      | .next s => (batch s.1).map Batch.cost
      | .ret _ _ => none) = some 147000 := by decide +kernel
  cases hbody : body relayingApp (relayedFetching, relayingShared) relayingAnswers with
  | ret s result =>
    rw [hbody] at hcost
    cases hcost
  | next sent =>
    rw [hbody] at hcost
    obtain ⟨future, hfuture, hcost⟩ := Option.map_eq_some_iff.1 hcost
    exact ⟨sent, future, fetches_relayed rfl, rfl, hfuture, by omega⟩

/-- Exactly enough for the gas price in the message. -/
def affordingShared : Shared Bytes := { relayingShared with homeBalance := some 147000 }

theorem affords_relayed :
    Affords relayingApp affordingShared.homeGasPrice 147000 relayedRaws := by
  intro _ messages signatures prices hmessages _ hprices
  have hdecoded : relayedRaws.1.mapM (decodeMessage relayingApp.abi)
      = .ok [relayedStores.message 2] := by decide +kernel
  have hhome : homeGasPrices [relayedStores.message 2] = .ok [7] := by decide +kernel
  rw [hdecoded] at hmessages
  rw [← Except.ok.inj hmessages, hhome] at hprices
  rw [← Except.ok.inj hprices]
  decide

end WithdrawRelay

/-- A deposit of 5. -/
def depositedLog : Log where
  address := 0xE0
  topics := [Abi.solidity.depositTopic]
  data := [Abi.addressWord 0xC, 5].flatMap wordBytes
  transactionHash := some 0x77

/-- The stream is about to emit the deposit. -/
def depositingRelay : DepositRelay Bytes where
  logs := ⟨.nextItem (some ⟨1, 1, [depositedLog]⟩), 1, ⟨[], []⟩, 0⟩
  state := .wait
  foreignContract := 0xF0
  foreignChainId := 2

theorem batches_covered_relayed :
    Covered DepositRelay.batch WithdrawConfirm.signingShared 30000 (balanceRequired 21000 1 1)
      (∀ log ∈ [depositedLog], ∃ payload, depositRelayPayload Abi.solidity log = .ok payload)
      (DepositRelay.body WithdrawRelay.relayingApp (depositingRelay, WithdrawConfirm.signingShared)
        ⟨WithdrawRelay.relayingAnswers.logs, []⟩) ∧
    Covered WithdrawConfirm.batch WithdrawConfirm.signingShared 30000 (balanceRequired 21000 1 1)
      (WithdrawConfirm.Creatable WithdrawConfirm.signingApp ⟨1, 1, [WithdrawConfirm.withdrawnLog]⟩)
      (WithdrawConfirm.body WithdrawConfirm.signingApp
        (WithdrawConfirm.signingRelay, WithdrawConfirm.signingShared)
        WithdrawConfirm.silentAnswers) ∧
    Covered WithdrawRelay.batch WithdrawRelay.affordingShared 147000
      (balanceRequired WithdrawRelay.relayingApp.withdrawRelayGas
        WithdrawRelay.affordingShared.homeGasPrice WithdrawRelay.relayedRaws.1.length)
      (WithdrawRelay.Creatable WithdrawRelay.relayingApp WithdrawRelay.relayedRaws)
      (WithdrawRelay.body WithdrawRelay.relayingApp
        (WithdrawRelay.relayedFetching, WithdrawRelay.affordingShared)
        WithdrawRelay.relayingAnswers) ∧
    ∃ product, checkedBalanceRequired 21000 7 1 = some product ∧
      product.toNat = balanceRequired 21000 7 1 := by
  refine ⟨?_, ?_, ?_, ?_⟩
  · have hcovered := (batches_covered WithdrawRelay.relayingApp).1 depositingRelay
      WithdrawConfirm.signingShared ⟨WithdrawRelay.relayingAnswers.logs, []⟩ 30000 _
      ⟨1, 1, [depositedLog]⟩ rfl rfl rfl
    exact hcovered
  · have hcovered := (batches_covered WithdrawConfirm.signingApp).2.1 WithdrawConfirm.signingRelay
      WithdrawConfirm.signingShared WithdrawConfirm.silentAnswers 30000 _
      ⟨1, 1, [WithdrawConfirm.withdrawnLog]⟩ rfl rfl rfl
    exact hcovered
  · have hiff := (batches_covered WithdrawRelay.relayingApp).2.2.1 WithdrawRelay.relayedFetching
      WithdrawRelay.affordingShared WithdrawRelay.relayingAnswers 147000 WithdrawRelay.relayedRaws
      (WithdrawRelay.fetches_relayed rfl)
    rw [hiff]
    exact WithdrawRelay.affords_relayed
  · exact (batches_covered WithdrawRelay.relayingApp).2.2.2 21000 7 1 (by decide)

end PoaBridge
