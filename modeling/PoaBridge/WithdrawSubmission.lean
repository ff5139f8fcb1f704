import PoaBridge.Contracts.Foreign
import PoaBridge.Signature
import PoaBridge.WithdrawConfirm

/-!
# What the contract makes of a submitted signature

`WithdrawConfirm` turns a log into a message, signs the digest of the message in
Rust and submits both.  `ForeignBridge.submitSignature` computes the digest in
Solidity, takes the signature apart with `mload` and recovers the signer, and
`HomeBridge.withdraw` reads the fields of the message from memory.

`Accepted` says that the two ends meet: the contract recovers the account that
submits, and the fields are those of the log.  What `ecrecover` does with the
signatures of the keystore is the assumption (`ValidKeystore`).

The code collects the messages in one list and the signatures in another, and
then walks through both at once.  `transactions_eq_zipped` says that this is the
same as keeping every message with its log.
-/

namespace PoaBridge.WithdrawConfirm

open BigEndian PollLoop

variable {Digest : Type}

/-! ## The two lists -/

/-- The messages of the logs. -/
def messageList (app : App Digest) (logs : List Log) : Except Error (List Bytes) :=
  logs.mapM fun log => do
    infoTransactionHash app log
    withdrawMessage app.abi log

/-- `app.keystore.sign(account, None, eth_data_hash(message))`. -/
def sign (app : App Digest) (message : Bytes) : Except Error Bytes :=
  match app.wallet.sign app.foreign.account (ethDataHash app.keccak256 message) with
  | none => .error .signError
  | some signature => .ok signature

/-- The transactions, from the messages zipped with their signatures. -/
def zippedTransactions (app : App Digest) (self : WithdrawConfirm Digest) (gasPrice : UInt64)
    (foreignBalance : U256) (item : LogStreamItem) : Except Error (List Transaction) := do
  let messages ← messageList app item.logs
  let signatures ← messages.mapM (sign app)
  if foreignBalance.toNat < balanceRequired app.withdrawConfirmGas gasPrice signatures.length then
    .error .insufficientFunds
  else (messages.zip signatures).mapM fun (message, signature) => do
    let payload ← withdrawSubmitSignaturePayload app.abi message signature
    pure (callTransaction (BitVec.ofNat 256 app.withdrawConfirmGas.toNat)
      (BitVec.ofNat 256 gasPrice.toNat) self.foreignContract payload)

theorem messageList_eq (app : App Digest) (logs : List Log) :
    messageList app logs = (messages app logs).map (List.map Prod.snd) := by
  unfold messages messageList
  rw [Results.map_mapM]
  congr 1
  funext log
  cases infoTransactionHash app log with
  | error e => rfl
  | ok => cases withdrawMessage app.abi log <;> rfl

theorem mapM_sign_eq (app : App Digest) (messages : List (Log × Bytes)) :
    (messages.map Prod.snd).mapM (sign app)
      = (signatures app messages).map (List.map fun p => p.2.2) := by
  unfold signatures
  rw [Results.map_mapM, List.mapM_map]
  congr 1
  funext ⟨log, message⟩
  unfold sign
  dsimp only [Function.comp]
  cases app.wallet.sign app.foreign.account (ethDataHash app.keccak256 message) <;> rfl

/-- The zip pairs every message with its own signature. -/
theorem transactions_eq_zipped (app : App Digest) (self : WithdrawConfirm Digest)
    (gasPrice : UInt64) (foreignBalance : U256) (item : LogStreamItem) :
    self.zippedTransactions app gasPrice foreignBalance item
      = (self.transactions app gasPrice foreignBalance item).map (List.map Prod.snd) := by
  unfold zippedTransactions transactions
  rw [messageList_eq]
  cases hmessages : messages app item.logs with
  | error e => rfl
  | ok pairs =>
    show ((pairs.map Prod.snd).mapM (sign app) >>= _) = (signatures app pairs >>= _).map _
    rw [mapM_sign_eq]
    cases hsignatures : signatures app pairs with
    | error e => rfl
    | ok triples =>
      have hpairs := (signatures_eq_ok hsignatures).1
      have hzip : (pairs.map Prod.snd).zip (triples.map fun p => p.2.2)
          = triples.map Prod.snd := by
        rw [← hpairs, List.map_map, List.zip_map']
        rfl
      show (if _ then _ else _) = (if _ then _ else _ : Except Error _).map _
      rw [List.length_map]
      split
      · rfl
      · rw [hzip, confirmations, Results.map_mapM, List.mapM_map]
        congr 1
        funext ⟨log, message, signature⟩
        dsimp only [Function.comp]
        cases withdrawSubmitSignaturePayload app.abi message signature <;> rfl

/-! ## What the contract reads -/

/-- `ecrecover` finds the account in every signature of the keystore, which
returns the components in the electrum order. -/
def ValidKeystore (wallet : Wallet Digest) (ecrecover : Digest → UInt8 → H256 → H256 → Address)
    (account : Address) : Prop :=
  ∀ digest bytes, wallet.sign account digest = some bytes →
    ∃ signature : Signature, bytes = signature.toBytes ∧
      ecrecover digest signature.v signature.r signature.s = account

/-- A `Withdraw` log with its event, from a transaction with a hash. -/
structure Withdrawn (abi : Abi) (log : Log) (event : WithdrawEvent) (hash : H256) : Prop where
  parsed : abi.parseWithdraw log.rawLog = some event
  mined : log.transactionHash = some hash

/-- The message of a log. -/
def messageOf (event : WithdrawEvent) (hash : H256) : MessageToMainnet :=
  ⟨event.recipient, event.value, hash, event.homeGasPrice⟩

theorem withdrawMessage_of_withdrawn {abi : Abi} {log : Log} {event : WithdrawEvent} {hash : H256}
    (h : Withdrawn abi log event hash) :
    withdrawMessage abi log = .ok (messageOf event hash).toBytes := by
  unfold withdrawMessage MessageToMainnet.fromLog
  rw [h.parsed, h.mined]
  rfl

/-- The fields that the contracts read from a message in memory. -/
structure Reads (event : WithdrawEvent) (hash : H256) (message : Memory) : Prop where
  recipient : getRecipient message = event.recipient
  value : getValue message = event.value
  transactionHash : getTransactionHash message = hash
  homeGasPrice : getHomeGasPrice message = event.homeGasPrice

/-- The submission of a signature for the log: what the Rust process sends, and
what the contracts make of it, whatever stands behind the arguments in memory. -/
structure Accepted (app : App Digest) (evm : Contracts.Evm Digest) (contract : Address) (log : Log)
    (message signature : Bytes) (future : NonceCheck) : Prop where
  message_eq : withdrawMessage app.abi log = .ok message
  signature_eq : app.wallet.sign app.foreign.account (ethDataHash app.keccak256 message)
    = some signature
  calls : Calls app.foreign.account contract (app.abi.submitSignatureInput signature message) future
  recovered : ∀ rest : Memory, recoverAddressFromSignedMessage evm.keccak256 evm.ecrecover signature
    message rest = some app.foreign.account
  length : message.length = 116
  reads : ∀ event hash, Withdrawn app.abi log event hash → ∀ rest : Memory,
    Reads event hash (bytesInMemory message rest)

section Accept

variable {app : App Digest} {evm : Contracts.Evm Digest}

theorem reads_messageOf (event : WithdrawEvent) (hash : H256) (rest : Memory) :
    Reads event hash (bytesInMemory (messageOf event hash).toBytes rest) :=
  ⟨MessageToMainnet.getRecipient_toBytes _ rest, MessageToMainnet.getValue_toBytes _ rest,
    MessageToMainnet.getTransactionHash_toBytes _ rest,
    MessageToMainnet.getHomeGasPrice_toBytes _ rest⟩

/-- The contract recovers the account that has signed. -/
theorem recovered_of_sign (hkeccak256 : evm.keccak256 = app.keccak256)
    (hkeystore : ValidKeystore app.wallet evm.ecrecover app.foreign.account)
    {message signature : Bytes} (hlength : message.length = 116)
    (hsign : app.wallet.sign app.foreign.account (ethDataHash app.keccak256 message)
      = some signature) (rest : Memory) :
    recoverAddressFromSignedMessage evm.keccak256 evm.ecrecover signature message rest
      = some app.foreign.account := by
  obtain ⟨sig, rfl, hrecover⟩ := hkeystore _ _ hsign
  have hhash : hashMessage evm.keccak256 message = some (ethDataHash app.keccak256 message) := by
    rw [← hkeccak256]
    exact hashMessage_eq_ethDataHash evm.keccak256 (by omega)
  rw [Signature.recoverAddressFromSignedMessage_of_fromBytes _ _ (Signature.fromBytes_toBytes sig),
    hhash, Option.map_some, hrecover]

theorem accepted_of_relays (hkeccak256 : evm.keccak256 = app.keccak256)
    (hkeystore : ValidKeystore app.wallet evm.ecrecover app.foreign.account) {contract : Address}
    {log : Log} {future : NonceCheck} (h : Relays app contract log future) :
    ∃ message signature, Accepted app evm contract log message signature future := by
  obtain ⟨message, signature, hmessage, hsign, hcalls⟩ := h
  obtain ⟨fields, -, hbytes⟩ := withdrawMessage_eq_ok hmessage
  have hlength : message.length = 116 := by
    rw [hbytes]
    exact MessageToMainnet.length_toBytes fields
  have hrecovered := recovered_of_sign hkeccak256 hkeystore hlength hsign
  refine ⟨message, signature, hmessage, hsign, hcalls, hrecovered, hlength, ?_⟩
  intro event hash hlog rest
  have heq := hmessage.symm.trans (withdrawMessage_of_withdrawn hlog)
  rw [Except.ok.inj heq]
  exact reads_messageOf event hash rest

/-- The contract takes the submission of an authority that has not submitted a
signature of this message yet. -/
theorem Accepted.submitted [DecidableEq Digest] {contract : Address} {log : Log}
    {message signature : Bytes} {future : NonceCheck}
    (h : Accepted app evm contract log message signature future)
    {bridge : Contracts.ForeignBridge Digest} (rest : Memory)
    (hauthority : bridge.authorities app.foreign.account = true)
    (hfresh : bridge.messagesSigned
      (evm.hashSender app.foreign.account (evm.keccak256 message)) = false) :
    let submission := ⟨app.foreign.account, signature, message, rest⟩
    bridge.submitSignature evm submission = some (bridge.submitted evm submission) :=
  Contracts.ForeignBridge.submitSignature_eq_some.2
    ⟨⟨hauthority, h.recovered rest, h.length⟩, fun _ => hfresh, rfl⟩

/-! ## The batch -/

/-- The keystore signs the message of the log. -/
def Signed (app : App Digest) (log : Log) : Prop :=
  ∃ message signature, withdrawMessage app.abi log = .ok message ∧
    app.wallet.sign app.foreign.account (ethDataHash app.keccak256 message) = some signature

/-- The messages of `Withdraw` logs with transaction hashes. -/
theorem messages_of_withdrawn {logs : List Log}
    (hlogs : ∀ log ∈ logs, ∃ event hash, Withdrawn app.abi log event hash) :
    ∃ pairs, messages app logs = .ok pairs := by
  apply Results.exists_mapM_eq_ok
  intro log hmem
  obtain ⟨event, hash, hlog⟩ := hlogs log hmem
  have hinfo : infoTransactionHash app log = .ok () := by
    unfold infoTransactionHash
    rw [hlog.mined, Option.isNone_some, Bool.and_false]
    rfl
  refine ⟨(log, (messageOf event hash).toBytes), ?_⟩
  rw [hinfo, withdrawMessage_of_withdrawn hlog]
  rfl

/-- One message that is not signed, and the whole batch fails. -/
theorem signatures_of_not_signed {logs : List Log} {pairs : List (Log × Bytes)}
    (hmessages : messages app logs = .ok pairs) (h : ∃ log ∈ logs, ¬ Signed app log) :
    signatures app pairs = .error .signError := by
  obtain ⟨hlogs, hmessage⟩ := messages_eq_ok hmessages
  cases hsignatures : signatures app pairs with
  | error e =>
    obtain ⟨-, ⟨log, message⟩, -, -, -, herror⟩ := Results.mapM_eq_error_iff.1 hsignatures
    dsimp only at herror
    split at herror
    · rw [← Except.error.inj herror]
    · cases herror
  | ok triples =>
    obtain ⟨hpairs, hsigned⟩ := signatures_eq_ok hsignatures
    obtain ⟨log, hmem, hnot⟩ := h
    rw [← hlogs, ← hpairs, List.map_map] at hmem
    obtain ⟨triple, htriple, rfl⟩ := List.mem_map.1 hmem
    refine absurd ⟨triple.2.1, triple.2.2, hmessage (triple.1, triple.2.1) ?_,
      hsigned triple htriple⟩ hnot
    rw [← hpairs]
    exact List.mem_map.2 ⟨triple, htriple, rfl⟩

theorem length_of_signatures {logs : List Log} {pairs : List (Log × Bytes)}
    {triples : List (Log × Bytes × Bytes)} (hmessages : messages app logs = .ok pairs)
    (hsignatures : signatures app pairs = .ok triples) : triples.length = logs.length := by
  rw [← (messages_eq_ok hmessages).1, ← (signatures_eq_ok hsignatures).1, List.length_map,
    List.length_map]

theorem signatures_of_signed {logs : List Log} {pairs : List (Log × Bytes)}
    (hmessages : messages app logs = .ok pairs) (h : ∀ log ∈ logs, Signed app log) :
    ∃ triples, signatures app pairs = .ok triples ∧ triples.length = logs.length := by
  obtain ⟨hlogs, hmessage⟩ := messages_eq_ok hmessages
  have hok : ∃ triples, signatures app pairs = .ok triples := by
    apply Results.exists_mapM_eq_ok
    intro pair hpair
    obtain ⟨message, signature, hmessage', hsign⟩ :=
      h pair.1 (hlogs ▸ List.mem_map.2 ⟨pair, hpair, rfl⟩)
    have heq := (hmessage pair hpair).symm.trans hmessage'
    refine ⟨(pair.1, pair.2, signature), ?_⟩
    dsimp only
    rw [Except.ok.inj heq, hsign]
  obtain ⟨triples, htriples⟩ := hok
  exact ⟨triples, htriples, length_of_signatures hmessages htriples⟩

/-- A message has the length that the payload asserts. -/
theorem exists_confirmations {logs : List Log} {pairs : List (Log × Bytes)}
    {triples : List (Log × Bytes × Bytes)} (hmessages : messages app logs = .ok pairs)
    (hsignatures : signatures app pairs = .ok triples) (self : WithdrawConfirm Digest)
    (gasPrice : UInt64) : ∃ result, self.confirmations app gasPrice triples = .ok result := by
  obtain ⟨-, hmessage⟩ := messages_eq_ok hmessages
  obtain ⟨hpairs, -⟩ := signatures_eq_ok hsignatures
  apply Results.exists_mapM_eq_ok
  intro triple htriple
  have hpair : (triple.1, triple.2.1) ∈ pairs := by
    rw [← hpairs]
    exact List.mem_map.2 ⟨triple, htriple, rfl⟩
  have hlength : triple.2.1.length = messageLength := by
    obtain ⟨fields, -, hbytes⟩ := withdrawMessage_eq_ok (hmessage _ hpair)
    apply (congrArg List.length hbytes).trans
    exact MessageToMainnet.length_toBytes fields
  refine ⟨(triple.1, callTransaction (BitVec.ofNat 256 app.withdrawConfirmGas.toNat)
    (BitVec.ofNat 256 gasPrice.toNat) self.foreignContract
    (app.abi.submitSignatureInput triple.2.2 triple.2.1)), ?_⟩
  show (withdrawSubmitSignaturePayload app.abi triple.2.1 triple.2.2 >>= _) = _
  rw [withdrawSubmitSignaturePayload, if_pos hlength]
  rfl

end Accept

/-- Every signature that the relay submits is accepted by the contract, for every
batch of `Withdraw` logs with transaction hashes.  If one of the messages is not
signed, the poll fails and no transaction of the batch is created.  Otherwise, and
if the balance is enough, there is one submission for each log, in the order of the
logs, and each of them is accepted. -/
theorem submissions_accepted (app : App Digest) (evm : Contracts.Evm Digest)
    (hkeccak256 : evm.keccak256 = app.keccak256)
    (hkeystore : ValidKeystore app.wallet evm.ecrecover app.foreign.account)
    (relay : WithdrawConfirm Digest) (shared : Shared Digest) (answers : Answers Digest)
    (balance : U256) (logs : LogStream) (item : LogStreamItem) (hwait : relay.state = .wait)
    (hbalance : shared.foreignBalance = some balance)
    (hitem : relay.logs.poll answers.logs = (logs, .ok (.ready (some item))))
    (hlogs : ∀ log ∈ item.logs, ∃ event hash, Withdrawn app.abi log event hash) :
    let polled := { relay with logs := logs }
    let required :=
      balanceRequired app.withdrawConfirmGas shared.foreignGasPrice item.logs.length
    ((∃ log ∈ item.logs, ¬ Signed app log) →
      body app (relay, shared) answers = .ret (polled, shared) (.error .signError)) ∧
    ((∀ log ∈ item.logs, Signed app log) →
      (balance.toNat < required →
        body app (relay, shared) answers = .ret (polled, shared) (.error .insufficientFunds)) ∧
      (required ≤ balance.toNat → ∃ future : Batch Digest,
        body app (relay, shared) answers
            = .next ({ polled with state := .confirmWithdraws future item.toBlock }, shared) ∧
          List.Forall₂ (fun log p => ∃ message signature,
            Accepted app evm relay.foreignContract log message signature p.2)
            item.logs future.pending)) := by
  intro polled required
  obtain ⟨pairs, hpairs⟩ := messages_of_withdrawn hlogs
  rw [body_of_item hwait hbalance hitem]
  refine ⟨?_, ?_⟩
  · intro hnot
    have herror : polled.transactions app shared.foreignGasPrice balance item
        = .error .signError := by
      rw [transactions, hpairs]
      show (signatures app pairs >>= _) = _
      rw [signatures_of_not_signed hpairs hnot]
      rfl
    rw [herror]
  · intro hsigned
    obtain ⟨triples, htriples, hlength⟩ := signatures_of_signed hpairs hsigned
    obtain ⟨result, hresult⟩ :=
      exists_confirmations hpairs htriples polled shared.foreignGasPrice
    have htransactions : polled.transactions app shared.foreignGasPrice balance item
        = if balance.toNat < required then .error .insufficientFunds else .ok result := by
      rw [transactions, hpairs]
      show (signatures app pairs >>= _) = _
      rw [htriples]
      show (if _ < balanceRequired _ _ triples.length then _ else _) = _
      rw [hlength, hresult]
    refine ⟨fun hless => ?_, fun henough => ?_⟩
    · rw [htransactions, if_pos hless]
    · rw [if_neg (Nat.not_lt.2 henough)] at htransactions
      obtain ⟨hfst, hrelays⟩ := transactions_eq_ok htransactions relay.foreignChainId
      rw [htransactions]
      refine ⟨_, rfl, ?_⟩
      rw [← hfst]
      apply forall₂_pending_sendAll
      exact fun p hp => accepted_of_relays hkeccak256 hkeystore (hrelays p hp)

/-- A keystore whose signatures carry the account.  The hash is the identity. -/
def signingApp : App Bytes where
  abi := Abi.solidity
  wallet := ⟨fun tx _ => tx.data,
    fun account _ => some (⟨27, account.setWidth 256, 0⟩ : Signature).toBytes,
    fun tx signature _ => some (tx.data ++ signature)⟩
  keccak256 := id
  home := ⟨0xA, 0, none, .fast, 1⟩
  foreign := ⟨0xA, 0, none, .fast, 1⟩
  depositRelayGas := 21000
  withdrawConfirmGas := 21000
  withdrawRelayGas := 21000
  infoEnabled := true

def signingEvm : Contracts.Evm Bytes := ⟨id, fun _ _ r _ => r.setWidth 160, id⟩

/-- A withdrawal of 5 at the gas price 1. -/
def withdrawnLog : Log where
  address := 0xF0
  topics := [Abi.solidity.withdrawTopic]
  data := [Abi.addressWord 0xC, 5, 1].flatMap wordBytes
  transactionHash := some 0x78

/-- The stream is about to emit the log. -/
def signingRelay : WithdrawConfirm Bytes where
  logs := ⟨.nextItem (some ⟨1, 1, [withdrawnLog]⟩), 1, ⟨[], []⟩, 0⟩
  state := .wait
  foreignContract := 0xF0
  foreignChainId := 2

def signingShared : Shared Bytes := ⟨0, 0, none, some 30000, 1, 1, []⟩

def silentAnswers : Answers Bytes :=
  ⟨[⟨.ok .notReady, .ok .notReady, fun _ _ _ => .ok .notReady⟩], []⟩

/-- The withdrawal, and another one of the value 6. -/
def withdrawnLogs : List Log :=
  [withdrawnLog, { withdrawnLog with
    data := [Abi.addressWord 0xD, 6, 1].flatMap wordBytes, transactionHash := some 0x79 }]

theorem submissions_accepted_withdrawn : ∃ future : Batch Bytes,
    body signingApp
        ({ signingRelay with logs := ⟨.nextItem (some ⟨1, 1, withdrawnLogs⟩), 1, ⟨[], []⟩, 0⟩ },
          { signingShared with foreignBalance := some 42000 }) silentAnswers
      = .next (⟨⟨.nextItem none, 1, ⟨[], []⟩, 0⟩, .confirmWithdraws future 1, 0xF0, 2⟩,
        { signingShared with foreignBalance := some 42000 }) ∧
      List.Forall₂ (fun log p => ∃ message signature,
        Accepted signingApp signingEvm 0xF0 log message signature p.2)
        withdrawnLogs future.pending := by
  have hkeystore : ValidKeystore signingApp.wallet signingEvm.ecrecover
      signingApp.foreign.account :=
    fun digest bytes hsign => ⟨⟨27, 0xA, 0⟩, (Option.some.inj hsign).symm, rfl⟩
  have hlogs : ∀ log ∈ withdrawnLogs, ∃ event hash, Withdrawn signingApp.abi log event hash := by
    intro log hmem
    rcases List.mem_pair.1 hmem with rfl | rfl
    · exact ⟨⟨0xC, 5, 1⟩, 0x78, by decide +kernel, rfl⟩
    · exact ⟨⟨0xD, 6, 1⟩, 0x79, by decide +kernel, rfl⟩
  have haccepted := submissions_accepted signingApp signingEvm rfl hkeystore
    { signingRelay with logs := ⟨.nextItem (some ⟨1, 1, withdrawnLogs⟩), 1, ⟨[], []⟩, 0⟩ }
    { signingShared with foreignBalance := some 42000 } silentAnswers 42000 _
    ⟨1, 1, withdrawnLogs⟩ rfl rfl rfl hlogs
  refine (haccepted.2 fun log hmem => ?_).2 (by decide +kernel)
  obtain ⟨event, hash, hlog⟩ := hlogs log hmem
  exact ⟨_, _, withdrawMessage_of_withdrawn hlog, rfl⟩

end PoaBridge.WithdrawConfirm
