import PoaBridge.Types

/-!
# Transactions with a nonce

`bridge/src/bridge/nonce.rs` and `bridge/src/transaction.rs`.  A `NonceCheck`
is the future that sends one transaction.  It takes its nonce from the counter
of the node (`NodeInfo`), which all futures of the node share, and it asks the
node for a nonce when the node refuses the one it has.

`body` is one iteration of the loop in `NonceCheck::poll`.  Its state is the
future together with the counter.  `Sends` is what every iteration keeps, and
`poll_spec` says what a result of `Ok` means: the node has accepted the
transaction, or it has answered that it knows it already.
-/

namespace PoaBridge

open PollLoop

/-! ## Transactions -/

/-- `ethcore_transaction::Action`. -/
inductive Action where
  | create
  | call (address : Address)
deriving DecidableEq, Repr

/-- `ethcore_transaction::Transaction`. -/
structure Transaction where
  nonce : U256
  gasPrice : U256
  gas : U256
  action : Action
  value : U256
  data : Bytes
deriving DecidableEq, Repr

/-- The keystore of the process, and the encoding of transactions.  The type of
digests is a parameter, as in the contracts. -/
structure Wallet (Digest : Type) where
  /-- `Transaction::hash(Some(chain_id))`. -/
  transactionHash : Transaction → UInt64 → Digest
  /-- `keystore.sign(account, None, hash)`, in the electrum notation. -/
  sign : Address → Digest → Option Bytes
  /-- The RLP bytes of the transaction with its signature.  `none` is a
  signature that `SignedTransaction::new` refuses. -/
  encode : Transaction → Bytes → UInt64 → Option Bytes

variable {Digest : Type}

/-- `prepare_raw_transaction`. -/
def prepareRawTransaction (wallet : Wallet Digest) (account : Address) (chainId : UInt64)
    (tx : Transaction) : Except Error Bytes :=
  match wallet.sign account (wallet.transactionHash tx chainId) with
  | none => .error .signError
  | some signature =>
    match wallet.encode tx signature chainId with
    | none => .error (.panic "called `Result::unwrap()` on an `Err` value")
    | some raw => .ok raw

/-! ## The future -/

/-- `NonceCheckState`. -/
inductive NonceCheckState where
  | ready
  | reacquire
  | nonceRequest
  | nonce (nonce : U256)
  | transactionRequest (raw : Bytes)
deriving DecidableEq, Repr

/-- `NonceCheck`, with the account of its node. -/
structure NonceCheck where
  state : NonceCheckState
  account : Address
  transaction : Transaction
  chainId : UInt64
deriving DecidableEq, Repr

/-- `send_transaction_with_nonce`. -/
def sendTransactionWithNonce (account : Address) (chainId : UInt64) (transaction : Transaction) :
    NonceCheck :=
  ⟨.ready, account, transaction, chainId⟩

/-- `str::ends_with`. -/
def endsWith (text suffix : String) : Bool := suffix.toList.isSuffixOf text.toList

/-- The node refuses the nonce. -/
def RpcError.isNonceError (err : RpcError) : Bool :=
  err.code = .serverError (-32010) && endsWith err.message "incrementing the nonce."

/-- The node knows the transaction already. -/
def RpcError.isAlreadyImported (err : RpcError) : Bool :=
  err.code = .serverError (-32010) && endsWith err.message "already imported."

namespace NonceCheck

/-- What the node answers in one iteration. -/
structure Answers (Digest : Type) where
  /-- `eth_getTransactionCount` of the pending block. -/
  nonce : Poll U256
  /-- `eth_sendRawTransaction`. -/
  send : Bytes → Poll Digest

/-- One iteration of the loop in `NonceCheck::poll`, with the counter of the
node. -/
def body (wallet : Wallet Digest) (self : NonceCheck × U256) (answers : Answers Digest) :
    Flow (NonceCheck × U256) (Poll Digest) :=
  let (check, counter) := self
  match check.state with
  | .ready => .next ({ check with state := .nonce counter }, counter + 1)
  | .reacquire => .next ({ check with state := .nonceRequest }, counter)
  | .nonceRequest =>
    tryReady self answers.nonce fun nonce => .next ({ check with state := .nonce nonce }, nonce)
  | .nonce nonce =>
    let check := { check with transaction := { check.transaction with nonce := nonce } }
    match prepareRawTransaction wallet check.account check.chainId check.transaction with
    | .ok raw => .next ({ check with state := .transactionRequest raw }, counter)
    | .error e => .ret (check, counter) (.error e)
  | .transactionRequest raw =>
    match answers.send raw with
    | .ok (.ready t) => .ret self (.ok (.ready t))
    | .ok .notReady => .ret self (.ok .notReady)
    | .error (.web3 (.rpc err)) =>
      if err.isNonceError then .next ({ check with state := .reacquire }, counter)
      else if err.isAlreadyImported then
        .ret self (.ok (.ready (wallet.transactionHash check.transaction check.chainId)))
      else .ret self (.error (.web3 (.rpc err)))
    | .error e => .ret self (.error e)

/-- `NonceCheck::poll`. -/
def poll (wallet : Wallet Digest) (self : NonceCheck × U256) (script : List (Answers Digest)) :
    (NonceCheck × U256) × Poll Digest :=
  run (body wallet) (.ok .notReady) self script

/-! ## The transaction that is sent -/

/-- The future `check` goes back to `start`: it sends the same transaction, up to
the nonce, and the bytes on their way are that transaction with a signature. -/
structure Sends (wallet : Wallet Digest) (start check : NonceCheck) : Prop where
  account : check.account = start.account
  chainId : check.chainId = start.chainId
  transaction : ∃ nonce, check.transaction = { start.transaction with nonce := nonce }
  raw : ∀ raw, check.state = .transactionRequest raw →
    prepareRawTransaction wallet check.account check.chainId check.transaction = .ok raw

/-- The node takes the transaction of `start` under some nonce, or it says that
it has it already. -/
def Accepted (wallet : Wallet Digest) (start : NonceCheck) (send : Bytes → Poll Digest)
    (hash : Digest) : Prop :=
  ∃ nonce raw,
    prepareRawTransaction wallet start.account start.chainId
        { start.transaction with nonce := nonce } = .ok raw ∧
      (send raw = .ok (.ready hash) ∨
        ∃ err, send raw = .error (.web3 (.rpc err)) ∧ err.isAlreadyImported = true ∧
          hash = wallet.transactionHash { start.transaction with nonce := nonce } start.chainId)

theorem sends_start (wallet : Wallet Digest) (account : Address) (chainId : UInt64)
    (transaction : Transaction) :
    Sends wallet (sendTransactionWithNonce account chainId transaction)
      (sendTransactionWithNonce account chainId transaction) :=
  ⟨rfl, rfl, ⟨transaction.nonce, rfl⟩, fun _ h => by cases h⟩

/-- A state other than `TransactionRequest` has no bytes to account for. -/
theorem Sends.setState {wallet : Wallet Digest} {start check : NonceCheck}
    (h : Sends wallet start check) {state : NonceCheckState}
    (hstate : ∀ raw, state ≠ .transactionRequest raw) :
    Sends wallet start { check with state := state } :=
  ⟨h.account, h.chainId, h.transaction, fun raw heq => absurd heq (hstate raw)⟩

/-- What an iteration establishes. -/
theorem body_sat {wallet : Wallet Digest} {start : NonceCheck} {self : NonceCheck × U256}
    {answers : Answers Digest} (h : Sends wallet start self.1) :
    (body wallet self answers).Sat (fun s => Sends wallet start s.1) (fun s r =>
      Sends wallet start s.1 ∧
        ∀ hash, r = .ok (.ready hash) → Accepted wallet start answers.send hash) := by
  obtain ⟨check, counter⟩ := self
  unfold body
  dsimp only at h ⊢
  cases hstate : check.state with
  | ready => exact h.setState (by simp)
  | reacquire => exact h.setState (by simp)
  | nonceRequest =>
    refine tryReady_sat ?_ ?_ ?_
    · exact fun e _ => ⟨h, fun _ hr => by cases hr⟩
    · exact fun _ => ⟨h, fun _ hr => by cases hr⟩
    · exact fun nonce _ => h.setState (by simp)
  | nonce nonce =>
    obtain ⟨old, htx⟩ := h.transaction
    have htx' : ({ check.transaction with nonce := nonce } : Transaction)
        = { start.transaction with nonce := nonce } := by rw [htx]
    dsimp only
    split
    · rename_i raw hraw
      refine ⟨h.account, h.chainId, ⟨nonce, htx'⟩, ?_⟩
      intro raw' heq
      rw [← NonceCheckState.transactionRequest.inj heq]
      exact hraw
    · refine ⟨⟨h.account, h.chainId, ⟨nonce, htx'⟩, ?_⟩, fun _ hr => by cases hr⟩
      intro raw heq
      cases heq
  | transactionRequest raw =>
    have hraw := h.raw raw hstate
    obtain ⟨nonce, htx⟩ := h.transaction
    rw [h.account, h.chainId, htx] at hraw
    dsimp only
    split
    · rename_i t hsend
      refine ⟨h, ?_⟩
      intro hash hr
      cases hr
      exact ⟨nonce, raw, hraw, .inl hsend⟩
    · exact ⟨h, fun _ hr => by cases hr⟩
    · rename_i err hsend
      split
      · exact h.setState (by simp)
      · split
        · rename_i himported
          refine ⟨h, ?_⟩
          intro hash hr
          cases hr
          refine ⟨nonce, raw, hraw, .inr ⟨err, hsend, himported, ?_⟩⟩
          rw [htx, h.chainId]
        · exact ⟨h, fun _ hr => by cases hr⟩
    · exact ⟨h, fun _ hr => by cases hr⟩

/-- The specification of `NonceCheck::poll`. -/
theorem poll_spec {wallet : Wallet Digest} {start : NonceCheck} {self : NonceCheck × U256}
    (script : List (Answers Digest)) (h : Sends wallet start self.1) :
    Sends wallet start (poll wallet self script).1.1 ∧
      ∀ hash, (poll wallet self script).2 = .ok (.ready hash) →
        ∃ answers ∈ script, Accepted wallet start answers.send hash := by
  refine run_sat (P := fun s => Sends wallet start s.1)
    (Q := fun s (r : Poll Digest) => Sends wallet start s.1 ∧ ∀ hash, r = .ok (.ready hash) →
      ∃ answers ∈ script, Accepted wallet start answers.send hash) ?_ script self ?_ h
  · exact fun s hs => ⟨hs, fun _ hr => by cases hr⟩
  · intro answers hmem s hs
    have hbody := @body_sat _ wallet start s answers hs
    cases hflow : body wallet s answers with
    | next s' =>
      rw [hflow] at hbody
      exact hbody
    | ret s' r =>
      rw [hflow] at hbody
      exact ⟨hbody.1, fun hash hr => ⟨answers, hmem, hbody.2 hash hr⟩⟩

end NonceCheck

end PoaBridge
