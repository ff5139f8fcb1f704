import PoaBridge.Lib.Rlp
import PoaBridge.Nonce

/-!
# The id of a transaction

A `NonceCheck` that is done reports the hash of its transaction.  The hash comes from
the node, or from `Transaction::hash` when the node has the transaction already.

A node reports the Keccak hash of the bytes it was sent, which hold the signature.
`Transaction::hash` is what the keystore signs: the Keccak hash of the transaction
without a signature.  `reports_sent_iff` says when the future reports the first hash.
-/

namespace PoaBridge

open PollLoop

/-! ## The encodings of a transaction -/

/-- The field of the action: an address, or nothing for a creation. -/
def Action.bytes : Action → Bytes
  | .create => []
  | .call address => BigEndian.encode 20 address.toNat

namespace Transaction

/-- The fields that both encodings start with. -/
def fields (self : Transaction) : List Bytes :=
  [Rlp.natBytes self.nonce.toNat, Rlp.natBytes self.gasPrice.toNat, Rlp.natBytes self.gas.toNat,
    self.action.bytes, Rlp.natBytes self.value.toNat, self.data]

/-- The transaction without a signature, for a chain. -/
def unsignedRlp (self : Transaction) (chainId : UInt64) : Bytes :=
  Rlp.encodeList
    (self.fields ++ [Rlp.natBytes chainId.toNat, Rlp.natBytes 0, Rlp.natBytes 0])

/-- The transaction with the parts of a signature. -/
def signedRlp (self : Transaction) (v : UInt64) (r s : U256) : Bytes :=
  Rlp.encodeList
    (self.fields ++ [Rlp.natBytes v.toNat, Rlp.natBytes r.toNat, Rlp.natBytes s.toNat])

theorem length_natBytes_lt {n : Nat} (h : n < 2 ^ 256) : (Rlp.natBytes n).length < 256 ^ 8 :=
  lt_of_le_of_lt (Rlp.length_natBytes_le (k := 32) h) (by decide)

/-- A signature makes a difference: its `r` is not zero. -/
theorem unsignedRlp_ne_signedRlp (self : Transaction) (chainId : UInt64) {v : UInt64} {r s : U256}
    (hr : r ≠ 0) : self.unsignedRlp chainId ≠ self.signedRlp v r s := by
  intro h
  have hword (w : UInt64) : w.toNat < 2 ^ 256 := w.toNat_lt.trans (by decide)
  have hends := Rlp.encodeList_append_inj ?_ ?_ h
  · rw [List.cons.injEq, List.cons.injEq] at hends
    exact hr (BitVec.eq_of_toNat_eq (Rlp.natBytes_inj hends.2.1.symm))
  · rw [List.forall_mem_cons, List.forall_mem_cons, List.forall_mem_singleton]
    exact ⟨length_natBytes_lt (hword _), length_natBytes_lt (by decide),
      length_natBytes_lt (by decide)⟩
  · rw [List.forall_mem_cons, List.forall_mem_cons, List.forall_mem_singleton]
    exact ⟨length_natBytes_lt (hword _), length_natBytes_lt r.isLt, length_natBytes_lt s.isLt⟩

end Transaction

variable {Digest : Type}

/-- `ethcore_transaction` and the keystore: what is signed is the hash of the
transaction without a signature, and the raw bytes are the transaction with the
signature, of which no part is zero. -/
structure Wallet.FollowsEip155 (wallet : Wallet Digest) (keccak256 : Bytes → Digest) : Prop where
  hash : ∀ tx chainId, wallet.transactionHash tx chainId = keccak256 (tx.unsignedRlp chainId)
  encode : ∀ account tx chainId signature raw,
    wallet.sign account (wallet.transactionHash tx chainId) = some signature →
    wallet.encode tx signature chainId = some raw →
    ∃ v r s, r ≠ 0 ∧ raw = tx.signedRlp v r s

/-- The hash that is signed is not the hash of the signed transaction. -/
theorem Wallet.FollowsEip155.transactionHash_ne {wallet : Wallet Digest}
    {keccak256 : Bytes → Digest} (h : wallet.FollowsEip155 keccak256)
    (hkeccak : Function.Injective keccak256) {account : Address} {chainId : UInt64}
    {tx : Transaction} {raw : Bytes}
    (hraw : prepareRawTransaction wallet account chainId tx = .ok raw) :
    wallet.transactionHash tx chainId ≠ keccak256 raw := by
  unfold prepareRawTransaction at hraw
  split at hraw
  · cases hraw
  · rename_i signature hsign
    split at hraw
    · cases hraw
    · rename_i raw' hencode
      cases hraw
      obtain ⟨v, r, s, hr, rfl⟩ := h.encode _ _ _ _ _ hsign hencode
      rw [h.hash]
      exact fun heq => tx.unsignedRlp_ne_signedRlp chainId hr (hkeccak heq)

/-! ## The future reports a hash -/

/-- No message ends in both of the texts that the future looks for. -/
theorem not_isAlreadyImported {err : RpcError} (h : err.isNonceError = true) :
    err.isAlreadyImported = false := by
  rw [← Bool.not_eq_true]
  intro himported
  unfold RpcError.isNonceError endsWith at h
  unfold RpcError.isAlreadyImported endsWith at himported
  rw [Bool.and_eq_true, List.isSuffixOf_iff_suffix] at h himported
  rcases List.suffix_or_suffix_of_suffix h.2 himported.2 with hsuffix | hsuffix
  · exact absurd hsuffix (by decide +kernel)
  · exact absurd hsuffix (by decide +kernel)

namespace NonceCheck

/-- The node reports the hash of the bytes that it accepts. -/
def Answers.ReportsHash (keccak256 : Bytes → Digest) (self : Answers Digest) : Prop :=
  ∀ raw hash, self.send raw = .ok (.ready hash) → hash = keccak256 raw

/-- A future that is done has reported the hash of the bytes that it sent last. -/
def ReportsSent (keccak256 : Bytes → Digest) (self : NonceCheck × U256) (result : Poll Digest) :
    Prop :=
  ∀ hash, result = .ok (.ready hash) →
    ∃ raw, self.1.state = .transactionRequest raw ∧ hash = keccak256 raw

/-- The answer to a transaction is not that the node has it already. -/
def NewToNode (self : NonceCheck × U256) (answers : Answers Digest) : Prop :=
  ∀ raw, self.1.state = .transactionRequest raw → ∀ err,
    answers.send raw = .error (.web3 (.rpc err)) → err.isAlreadyImported = false

/-- A poll that is not done has nothing to report. -/
theorem reportsSent_of_ne {keccak256 : Bytes → Digest} {self : NonceCheck × U256}
    {result : Poll Digest} (h : ∀ hash, result ≠ .ok (.ready hash)) :
    ReportsSent keccak256 self result :=
  fun hash heq => absurd heq (h hash)

/-- Only the answer to a transaction decides what is reported. -/
theorem body_reports {wallet : Wallet Digest} {keccak256 : Bytes → Digest}
    (hkeccak : Function.Injective keccak256) (hwallet : wallet.FollowsEip155 keccak256)
    {start : NonceCheck} {self : NonceCheck × U256} {answers : Answers Digest}
    (h : Sends wallet start self.1) (hanswers : answers.ReportsHash keccak256) :
    (body wallet self answers).Sat (fun _ => NewToNode self answers)
      (fun self' result => ReportsSent keccak256 self' result ↔ NewToNode self answers) := by
  obtain ⟨check, counter⟩ := self
  have hnew (hstate : ∀ raw, check.state ≠ .transactionRequest raw) :
      NewToNode (check, counter) answers := fun raw heq => absurd heq (hstate raw)
  unfold body
  dsimp only at h ⊢
  cases hstate : check.state with
  | ready => exact hnew (by simp [hstate])
  | reacquire => exact hnew (by simp [hstate])
  | nonceRequest =>
    refine tryReady_sat (fun e _ => ?_) (fun _ => ?_) (fun nonce _ => ?_)
    · exact iff_of_true (reportsSent_of_ne (by simp)) (hnew (by simp [hstate]))
    · exact iff_of_true (reportsSent_of_ne (by simp)) (hnew (by simp [hstate]))
    · exact hnew (by simp [hstate])
  | nonce nonce =>
    dsimp only
    split
    · exact hnew (by simp [hstate])
    · exact iff_of_true (reportsSent_of_ne (by simp)) (hnew (by simp [hstate]))
  | transactionRequest raw =>
    have hdecides : NewToNode (check, counter) answers ↔ ∀ err,
        answers.send raw = .error (.web3 (.rpc err)) → err.isAlreadyImported = false := by
      constructor
      · exact fun hall => hall raw hstate
      · intro hall raw' hraw'
        rw [hstate] at hraw'
        cases hraw'
        exact hall
    rw [hdecides]
    dsimp only
    split
    · rename_i hash hsend
      rw [hsend]
      refine iff_of_true ?_ nofun
      rintro _ ⟨⟩
      exact ⟨raw, hstate, hanswers raw hash hsend⟩
    · rename_i hsend
      rw [hsend]
      exact iff_of_true (reportsSent_of_ne (by simp)) nofun
    · rename_i err hsend
      have hnew' : (∀ err', answers.send raw = .error (.web3 (.rpc err')) →
          err'.isAlreadyImported = false) ↔ err.isAlreadyImported = false := by
        simp [hsend]
      rw [hnew']
      split
      · rename_i hnonce
        exact not_isAlreadyImported hnonce
      · split
        · rename_i himported
          refine iff_of_false ?_ (by simp [himported])
          intro hreports
          obtain ⟨raw', hraw', heq⟩ := hreports _ rfl
          rw [hstate] at hraw'
          cases hraw'
          exact hwallet.transactionHash_ne hkeccak (h.raw raw hstate) heq
        · rename_i himported
          exact iff_of_true (reportsSent_of_ne (by simp)) (by simpa using himported)
    · rename_i e hrpc hsend
      rw [hsend]
      refine iff_of_true (reportsSent_of_ne (by simp)) ?_
      rintro err ⟨⟩
      exact absurd rfl (hrpc err)

/-- When the future reports the hash of the bytes that it sent last, whichever polls it
has gone through: unless the node answers that it has the transaction already. -/
theorem reports_sent_iff {wallet : Wallet Digest} {keccak256 : Bytes → Digest}
    (hkeccak : Function.Injective keccak256) (hwallet : wallet.FollowsEip155 keccak256)
    {account : Address} {chainId : UInt64} {transaction : Transaction} {self : NonceCheck}
    (hreached : Reached (body wallet) (fun _ => True)
      (sendTransactionWithNonce account chainId transaction) self)
    (counter : U256) {script : List (Answers Digest)}
    (hscript : ∀ answers ∈ script, answers.ReportsHash keccak256) :
    ReportsSent keccak256 (poll wallet (self, counter) script).1
        (poll wallet (self, counter) script).2 ↔
      Along (body wallet) NewToNode (self, counter) script := by
  have hsends : Sends wallet (sendTransactionWithNonce account chainId transaction) self :=
    hreached.invariant (sends_start wallet account chainId transaction) fun s i _ hs =>
      (body_sat hs).imp (fun _ h => h) fun _ _ h _ _ => h.1
  refine run_iff_along (P := fun s => Sends wallet _ s.1) ?_ script (self, counter) ?_ hsends
  · exact fun s _ => reportsSent_of_ne (by simp)
  · intro answers hmem s hs
    exact ((body_sat hs).and (body_reports hkeccak hwallet hs (hscript answers hmem))).imp
      (fun _ h => h) fun _ _ h => h.2

/-! ### Two nodes -/

/-- The signature of `signingWallet`: `r`, `s`, and the recovery id. -/
def oneSignature : Bytes := BigEndian.encode 32 5 ++ BigEndian.encode 32 7 ++ [0]

/-- A keystore with one signature, over the identity as hash. -/
def signingWallet : Wallet Bytes where
  transactionHash tx chainId := tx.unsignedRlp chainId
  sign _ _ := some oneSignature
  encode tx signature chainId := some (tx.signedRlp (chainId * 2 + 35)
    (BitVec.ofNat 256 (BigEndian.decode (signature.take 32)))
    (BitVec.ofNat 256 (BigEndian.decode ((signature.drop 32).take 32))))

theorem followsEip155_signingWallet : signingWallet.FollowsEip155 id where
  hash _ _ := rfl
  encode := by
    rintro account tx chainId signature raw ⟨⟩ ⟨⟩
    exact ⟨_, _, _, by decide +kernel, rfl⟩

def relayed : Transaction := ⟨0, 1000, 21000, .call 0xA, 0, []⟩

/-- A node that refuses the first nonce, and accepts every other one. -/
def busyNode : Answers Bytes where
  nonce := .ok (.ready 9)
  send raw :=
    if raw = ({ relayed with nonce := 7 } : Transaction).signedRlp 37 5 7 then
      .error (.web3 (.rpc ⟨.serverError (-32010),
        "Transaction nonce is too low. Try incrementing the nonce."⟩))
    else .ok (.ready raw)

theorem newToNode_busyNode (self : NonceCheck × U256) : NewToNode self busyNode := by
  intro raw _ err hsend
  unfold busyNode at hsend
  dsimp only at hsend
  split at hsend
  · cases hsend
    decide +kernel
  · cases hsend

theorem reportsHash_busyNode : busyNode.ReportsHash id := by
  intro raw hash hsend
  unfold busyNode at hsend
  dsimp only at hsend
  split at hsend <;> cases hsend
  rfl

theorem reports_sent_reacquired :
    (poll signingWallet (sendTransactionWithNonce 1 1 relayed, 7) (List.replicate 7 busyNode)).2 =
        .ok (.ready (({ relayed with nonce := 9 } : Transaction).signedRlp 37 5 7)) ∧
      ReportsSent id
        (poll signingWallet (sendTransactionWithNonce 1 1 relayed, 7)
          (List.replicate 7 busyNode)).1
        (poll signingWallet (sendTransactionWithNonce 1 1 relayed, 7)
          (List.replicate 7 busyNode)).2 := by
  refine ⟨by decide +kernel, (reports_sent_iff Function.injective_id followsEip155_signingWallet
    .start 7 ?_).2 ?_⟩
  · intro answers hmem
    rw [List.eq_of_mem_replicate hmem]
    exact reportsHash_busyNode
  · refine along_of_invariant (P := fun _ => True) _ _ ?_ trivial
    intro answers hmem self _
    rw [List.eq_of_mem_replicate hmem]
    exact ⟨newToNode_busyNode self, by cases body signingWallet self busyNode <;> trivial⟩

/-- A node that has the transaction already. -/
def importedNode : Answers Bytes where
  nonce := .ok (.ready 9)
  send _ := .error (.web3 (.rpc ⟨.serverError (-32010),
    "Transaction with the same hash was already imported."⟩))

theorem unsigned_hash_reported :
    Function.Injective (id : Bytes → Bytes) ∧ signingWallet.FollowsEip155 id ∧
      importedNode.ReportsHash id ∧
      ¬ ReportsSent id
        (poll signingWallet (sendTransactionWithNonce 1 1 relayed, 7)
          (List.replicate 3 importedNode)).1
        (poll signingWallet (sendTransactionWithNonce 1 1 relayed, 7)
          (List.replicate 3 importedNode)).2 := by
  refine ⟨Function.injective_id, followsEip155_signingWallet, nofun, ?_⟩
  intro hreports
  obtain ⟨raw, hraw, hhash⟩ := hreports
    (({ relayed with nonce := 7 } : Transaction).unsignedRlp 1) (by decide +kernel)
  have hstate : (poll signingWallet (sendTransactionWithNonce 1 1 relayed, 7)
      (List.replicate 3 importedNode)).1.1.state
        = .transactionRequest (({ relayed with nonce := 7 } : Transaction).signedRlp 37 5 7) := by
    decide +kernel
  rw [hstate] at hraw
  cases hraw
  exact absurd hhash (Transaction.unsignedRlp_ne_signedRlp _ _ (by decide))

end NonceCheck

end PoaBridge
