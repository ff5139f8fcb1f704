import Mathlib.Logic.Relation
import PoaBridge.WithdrawRelay

/-!
# The withdrawals that the relay assembles

`WithdrawRelay` filters the logs of a batch, splits what is left into two lists
of calls, fetches both over any number of polls, and puts the answers together
again by their positions.

`Assembled` says what the transaction for an event has to be, in terms of what the
stores of the foreign contract hold.  `withdrawals_assembled` says that a batch has
exactly one such transaction for each log that names this authority, in the order of
the logs.  The assumptions are about the interface: the encoder writes the number of
signatures as a word, and the answers of the node are what the stores hold
(`Serves`).
-/

namespace PoaBridge.WithdrawRelay

open BigEndian PollLoop

variable {Digest : Type}

/-! ## The stores -/

/-- What the views `message` and `signature` of the foreign contract return. -/
structure Stores where
  message : H256 → Bytes
  signature : H256 → U256 → Bytes

/-- The argument of `message` is encoded as a word. -/
def EncodesWord (abi : Abi) : Prop :=
  ∀ word : H256, decode ((abi.messageInput word).drop 4) = word.toNat

/-- The answers to the calls decode to what the stores hold. -/
structure Serves (abi : Abi) (stores : Stores) (called : Bytes → Bytes → Prop) : Prop where
  message : ∀ hash raw, called (abi.messageInput hash) raw →
    abi.messageOutput raw = some (stores.message hash)
  signature : ∀ hash index raw, called (abi.signatureInput hash index) raw →
    abi.signatureOutput raw = some (stores.signature hash index)

/-- The signatures with the indices `0` to `number - 1`. -/
def Stores.announced (stores : Stores) (event : CollectedSignaturesEvent) : List Bytes :=
  (List.range event.numberOfCollectedSignatures.toNat).map fun index =>
    stores.signature event.messageHash (BitVec.ofNat 256 index)

/-- The transaction calls `withdraw` with the components of the announced
signatures and with the message.  Its gas price is the one that the contract reads
from the message. -/
structure Assembled (app : App Digest) (stores : Stores) (homeContract : Address)
    (event : CollectedSignaturesEvent) (tx : Transaction) : Prop where
  action : tx.action = .call homeContract
  value : tx.value = 0
  payload : ∃ signatures : List Signature,
    List.Forall₂ (fun bytes signature => Signature.fromBytes bytes = .ok signature)
      (stores.announced event) signatures ∧
    tx.data = app.abi.withdrawInput (signatures.map Signature.v) (signatures.map Signature.r)
      (signatures.map Signature.s) (stores.message event.messageHash)
  gasPrice : ∀ rest : Memory,
    tx.gasPrice = getHomeGasPrice (bytesInMemory (stores.message event.messageHash) rest)

/-- A log of the batch that this authority has to relay. -/
structure Own (app : App Digest) (log : Log) (event : CollectedSignaturesEvent) : Prop where
  parsed : app.abi.parseCollectedSignatures log.rawLog = some event
  authority : event.authorityResponsibleForRelay = app.foreign.account

/-! ## The assignments -/

variable {app : App Digest} {stores : Stores} {called : Bytes → Bytes → Prop}

/-- What is fetched for a log. -/
def assignmentOf (abi : Abi) (event : CollectedSignaturesEvent) : RelayAssignment where
  signaturePayloads := (List.range event.numberOfCollectedSignatures.toNat).map fun index =>
    abi.signatureInput event.messageHash (BitVec.ofNat 256 index)
  messagePayload := abi.messageInput event.messageHash

/-- The detour through the encoder of `message` gives the number back. -/
theorem signaturesPayload_of_own (hword : EncodesWord app.abi) {log : Log}
    {event : CollectedSignaturesEvent} (h : Own app log event)
    (hnumber : event.numberOfCollectedSignatures.toNat < 2 ^ 32) :
    signaturesPayload app log = .ok (some (assignmentOf app.abi event)) := by
  unfold signaturesPayload
  rw [h.parsed]
  dsimp only
  rw [if_neg (not_not.2 h.authority), hword, Nat.mod_eq_of_lt hnumber]
  rfl

theorem duty_iff_own {log : Log} {event : CollectedSignaturesEvent}
    (hparsed : app.abi.parseCollectedSignatures log.rawLog = some event) :
    duty app log = true ↔ Own app log event := by
  unfold duty
  rw [hparsed]
  dsimp only
  rw [decide_eq_true_iff]
  exact ⟨fun h => ⟨hparsed, h⟩, fun h => h.authority⟩

/-- A log of another authority is only reported. -/
theorem signaturesPayload_of_other {log : Log} {event : CollectedSignaturesEvent}
    (hparsed : app.abi.parseCollectedSignatures log.rawLog = some event)
    (hother : duty app log = false) :
    signaturesPayload app log = (infoTransactionHash app log).map fun _ => none := by
  have hne : event.authorityResponsibleForRelay ≠ app.foreign.account := by
    intro heq
    rw [(duty_iff_own hparsed).2 ⟨hparsed, heq⟩] at hother
    cases hother
  unfold signaturesPayload
  rw [hparsed]
  dsimp only
  rw [if_pos hne]
  cases infoTransactionHash app log <;> rfl

/-! ## What is fetched for a log -/

/-- What the assignment of an event fetches is what the stores hold. -/
theorem fetched_of_serves (hserves : Serves app.abi stores called)
    {event : CollectedSignaturesEvent} {message : Bytes} {signatures : List Signature}
    (h : Fetched app called (assignmentOf app.abi event) message signatures) :
    message = stores.message event.messageHash ∧
      List.Forall₂ (fun bytes signature => Signature.fromBytes bytes = .ok signature)
        (stores.announced event) signatures := by
  refine ⟨?_, ?_⟩
  · obtain ⟨raw, hcalled, hdecoded⟩ := h.message
    unfold decodeMessage at hdecoded
    rw [hserves.message _ _ hcalled] at hdecoded
    exact (Except.ok.inj hdecoded).symm
  · apply List.forall₂_map_left_iff.2
    refine (List.forall₂_map_left_iff.1 h.signatures).imp ?_
    intro index signature hanswer
    obtain ⟨raw, hcalled, hdecoded⟩ := hanswer
    unfold decodeSignature at hdecoded
    rw [hserves.signature _ _ _ hcalled] at hdecoded
    exact hdecoded

/-- The transaction for what was fetched. -/
theorem assembled_of_fetched (hserves : Serves app.abi stores called)
    {event : CollectedSignaturesEvent} {message : Bytes} {signatures : List Signature}
    (h : Fetched app called (assignmentOf app.abi event) message signatures)
    {self : WithdrawRelay Digest} {log : Log} {p : Log × Transaction}
    (hrelay : self.relay app log message signatures = .ok p) :
    Assembled app stores self.homeContract event p.2 := by
  obtain ⟨hmessage, hsignatures⟩ := fetched_of_serves hserves h
  obtain ⟨parsed, hparsed, rfl⟩ := relay_eq_ok hrelay
  have hlength : message.length = 116 := by
    unfold MessageToMainnet.fromBytes at hparsed
    split at hparsed
    · assumption
    · cases hparsed
  obtain ⟨-, read, hread, -, hfields⟩ := MessageToMainnet.codec_agrees parsed message hlength
  rw [hparsed] at hread
  subst hmessage
  refine ⟨rfl, rfl, ⟨signatures, hsignatures, rfl⟩, fun rest => ?_⟩
  rw [(hfields rest).2.2.2, ← Except.ok.inj hread]
  rfl

/-! ## The batch -/

/-- The assignment is the one of an event that names this authority. -/
def Matches (app : App Digest) (p : Log × RelayAssignment) : Prop :=
  ∃ event, Own app p.1 event ∧ p.2 = assignmentOf app.abi event

/-- What was fetched for the assignments, and the node answered from its stores. -/
structure Complete (app : App Digest) (called : Bytes → Bytes → Prop)
    (assignments : List (Log × RelayAssignment)) (messagesRaw : List Bytes)
    (signaturesRaw : List (List Bytes)) : Prop where
  matches_event : ∀ p ∈ assignments, Matches app p
  messages : List.Forall₂ (MessageAnswer called) assignments messagesRaw
  signatures : List.Forall₂ (SignatureAnswers called) assignments signaturesRaw

section Batch

variable {assignments : List (Log × RelayAssignment)} {messagesRaw : List Bytes}
  {signaturesRaw : List (List Bytes)} {self : WithdrawRelay Digest} {gasPrice : UInt64}
  {homeBalance : U256}

/-- The transactions belong to the assignments, in order. -/
theorem assembled_of_transactions (hserves : Serves app.abi stores called)
    (hcomplete : Complete app called assignments messagesRaw signaturesRaw)
    {result : List (Log × Transaction)}
    (h : self.transactions app gasPrice homeBalance assignments messagesRaw signaturesRaw
      = .ok result) :
    result.map Prod.fst = assignments.map Prod.fst ∧
      ∀ p ∈ result, ∃ event, Own app p.1 event ∧
        Assembled app stores self.homeContract event p.2 := by
  obtain ⟨hlogs, hfetched⟩ := transactions_eq_ok h hcomplete.messages hcomplete.signatures
  refine ⟨hlogs, ?_⟩
  intro p hp
  obtain ⟨assignment, message, signatures, hmem, hfetched, hrelay⟩ := hfetched p hp
  obtain ⟨event, hown, hassignment⟩ := hcomplete.matches_event _ hmem
  dsimp only at hassignment
  subst hassignment
  exact ⟨event, hown, assembled_of_fetched hserves hfetched hrelay⟩

/-- One announced signature of another length, and there is no batch. -/
theorem transactions_of_length_ne (hserves : Serves app.abi stores called)
    (hcomplete : Complete app called assignments messagesRaw signaturesRaw)
    {p : Log × RelayAssignment} (hp : p ∈ assignments) {event : CollectedSignaturesEvent}
    (hown : Own app p.1 event) {bytes : Bytes} (hbytes : bytes ∈ stores.announced event)
    (hlength : bytes.length ≠ 65) :
    ∃ e, self.transactions app gasPrice homeBalance assignments messagesRaw signaturesRaw
      = .error e := by
  cases h : self.transactions app gasPrice homeBalance assignments messagesRaw signaturesRaw with
  | error e => exact ⟨e, rfl⟩
  | ok result =>
    obtain ⟨hlogs, hassembled⟩ := assembled_of_transactions hserves hcomplete h
    have hlog : p.1 ∈ result.map Prod.fst := by
      rw [hlogs]
      exact List.mem_map.2 ⟨p, hp, rfl⟩
    obtain ⟨q, hq, heq⟩ := List.mem_map.1 hlog
    obtain ⟨event', hown', hassembled⟩ := hassembled q hq
    have hsame : event' = event := by
      have hparsed := hown'.parsed
      rw [heq, hown.parsed] at hparsed
      exact (Option.some.inj hparsed).symm
    subst hsame
    obtain ⟨signatures, hsignatures, -⟩ := hassembled.payload
    obtain ⟨signature, -, hread⟩ := Results.exists_mem_of_forall₂ hsignatures.flip hbytes
    exact absurd (Signature.fromBytes_eq_ok hread).1 hlength

/-- With the right lengths and enough balance there is a batch. -/
theorem exists_transactions (hserves : Serves app.abi stores called)
    (hcomplete : Complete app called assignments messagesRaw signaturesRaw)
    (hmessage : ∀ p ∈ assignments, ∀ event, Own app p.1 event →
      (stores.message event.messageHash).length = 116)
    (hsignature : ∀ p ∈ assignments, ∀ event, Own app p.1 event →
      ∀ bytes ∈ stores.announced event, bytes.length = 65)
    (hbalance : balanceRequired app.withdrawRelayGas gasPrice assignments.length
      ≤ homeBalance.toNat) :
    ∃ result, self.transactions app gasPrice homeBalance assignments messagesRaw signaturesRaw
      = .ok result := by
  have hmessages : ∀ raw ∈ messagesRaw, ∃ message, decodeMessage app.abi raw = .ok message ∧
      message.length = messageLength := by
    intro raw hraw
    obtain ⟨p, hp, hcalled⟩ := Results.exists_mem_of_forall₂ hcomplete.messages hraw
    obtain ⟨event, hown, hassignment⟩ := hcomplete.matches_event p hp
    rw [MessageAnswer, hassignment] at hcalled
    refine ⟨stores.message event.messageHash, ?_, hmessage p hp event hown⟩
    rw [decodeMessage, hserves.message _ _ hcalled]
  have hsignatures : ∀ raws ∈ signaturesRaw, ∃ signatures,
      raws.mapM (decodeSignature app.abi) = .ok signatures := by
    intro raws hraws
    obtain ⟨p, hp, hcalled⟩ := Results.exists_mem_of_forall₂ hcomplete.signatures hraws
    obtain ⟨event, hown, hassignment⟩ := hcomplete.matches_event p hp
    rw [SignatureAnswers, hassignment] at hcalled
    apply Results.exists_mapM_eq_ok
    intro raw hraw
    obtain ⟨payload, hpayload, hcalled⟩ := Results.exists_mem_of_forall₂ hcalled hraw
    obtain ⟨index, hindex, rfl⟩ := List.mem_map.1 hpayload
    obtain ⟨signature, hread⟩ := Signature.exists_fromBytes
      (hsignature p hp event hown _ (List.mem_map.2 ⟨index, hindex, rfl⟩))
    refine ⟨signature, ?_⟩
    rw [decodeSignature, hserves.signature _ _ _ hcalled]
    exact hread
  obtain ⟨messages, hdecoded⟩ := Results.exists_mapM_eq_ok
    (fun raw hraw => (hmessages raw hraw).imp fun _ h => h.1)
  obtain ⟨signatures, hdecoded'⟩ := Results.exists_mapM_eq_ok hsignatures
  have hlength := hcomplete.messages.length_eq
  unfold transactions
  rw [if_neg (not_not.2 (hlength.symm.trans hcomplete.signatures.length_eq)), ← hlength,
    if_neg (Nat.not_lt.2 hbalance), hdecoded, hdecoded']
  apply Results.exists_mapM_eq_ok
  intro p hp
  have hmem : p.2.1 ∈ messages := (List.of_mem_zip (List.of_mem_zip hp).2).1
  obtain ⟨raw, hraw, hread⟩ := Results.exists_mem_of_mapM_eq_ok hdecoded hmem
  obtain ⟨message, hmessage', hlength'⟩ := hmessages raw hraw
  rw [hread] at hmessage'
  rw [← Except.ok.inj hmessage'] at hlength'
  unfold relay MessageToMainnet.fromBytes
  rw [if_pos hlength']
  exact ⟨_, rfl⟩

end Batch

/-! ## From the item to the batch -/

/-- The answers of the node to `eth_call`. -/
def Answering (called : Bytes → Bytes → Prop) (contract : Address) (answers : Answers Digest) :
    Prop :=
  ∀ id payload raw, answers.call id contract payload = .ok (.ready raw) → called payload raw

/-- A poll that leaves the relay waiting.  The balance and the gas price may be
different in every poll. -/
def Waits (app : App Digest) (called : Bytes → Bytes → Prop)
    (relay relay' : WithdrawRelay Digest) : Prop :=
  ∃ shared answers, Answering called relay.foreignContract answers ∧
    body app (relay, shared) answers = .ret (relay', shared) (.ok .notReady)

/-- The relay waits for what the assignments fetch. -/
structure Assembling (called : Bytes → Bytes → Prop) (start : WithdrawRelay Digest)
    (assignments : List (Log × RelayAssignment)) (block : UInt64) (relay : WithdrawRelay Digest)
    (future : Fetch) : Prop where
  relay_eq : relay
    = { start with state := .fetchMessagesSignatures assignments future block }
  fetching : Fetching called assignments future

section Poll

variable {start relay : WithdrawRelay Digest} {assignments : List (Log × RelayAssignment)}
  {block : UInt64} {future : Fetch} {shared : Shared Digest} {answers : Answers Digest}

/-- An iteration ends in one of three ways: the relay waits on, the poll fails, or
everything is there and the transactions can be paid for. -/
theorem body_cases (h : Assembling called start assignments block relay future)
    (hanswers : Answering called relay.foreignContract answers) :
    (∃ relay' future', body app (relay, shared) answers
        = .ret (relay', shared) (.ok .notReady) ∧
      Assembling called start assignments block relay' future') ∨
    (∃ relay' e, body app (relay, shared) answers = .ret (relay', shared) (.error e)) ∨
    ∃ balance messagesRaw signaturesRaw result,
      List.Forall₂ (MessageAnswer called) assignments messagesRaw ∧
      List.Forall₂ (SignatureAnswers called) assignments signaturesRaw ∧
      start.transactions app shared.homeGasPrice balance assignments messagesRaw signaturesRaw
        = .ok result ∧
      body app (relay, shared) answers = .next ({ start with
        state := .relayWithdraws (sendAll app.home.account start.homeChainId result) block },
        shared) := by
  have hpolled := pollFetch_spec hanswers h.fetching
  have hstate : relay.state = .fetchMessagesSignatures assignments future block := by
    rw [h.relay_eq]
  cases hbalance : shared.homeBalance with
  | none => exact .inl ⟨relay, future, body_of_unknown_balance hstate hbalance, h⟩
  | some balance =>
    rw [body_of_fetching hstate hbalance]
    generalize pollFetch (answers.call · relay.foreignContract) future = polled at hpolled ⊢
    obtain ⟨future', result⟩ := polled
    have hrelay := h.relay_eq
    subst hrelay
    rcases result with e | _ | ⟨messagesRaw, signaturesRaw⟩
    · exact .inr (.inl ⟨_, _, rfl⟩)
    · exact .inl ⟨_, future', rfl, rfl, hpolled.1 rfl⟩
    · obtain ⟨hmessages, hsignatures⟩ := hpolled.2 _ rfl
      cases hresult : start.transactions app shared.homeGasPrice balance assignments messagesRaw
        signaturesRaw with
      | error e =>
        refine .inr (.inl ⟨{ start with
          state := .fetchMessagesSignatures assignments future' block }, e, ?_⟩)
        dsimp only [withContext]
        rw [transactions_setState, hresult]
      | ok result =>
        refine .inr (.inr ⟨balance, messagesRaw, signaturesRaw, result, hmessages, hsignatures,
          hresult, ?_⟩)
        dsimp only [withContext]
        rw [transactions_setState, hresult]

/-- The relay goes on only when everything is fetched and there is a batch for it. -/
theorem fetched_of_next (h : Assembling called start assignments block relay future)
    (hanswers : Answering called relay.foreignContract answers)
    {s : WithdrawRelay Digest × Shared Digest}
    (hnext : body app (relay, shared) answers = .next s) :
    ∃ balance messagesRaw signaturesRaw result,
      List.Forall₂ (MessageAnswer called) assignments messagesRaw ∧
      List.Forall₂ (SignatureAnswers called) assignments signaturesRaw ∧
      start.transactions app shared.homeGasPrice balance assignments messagesRaw signaturesRaw
        = .ok result ∧
      s = ({ start with
        state := .relayWithdraws (sendAll app.home.account start.homeChainId result) block },
        shared) := by
  rcases @body_cases _ app _ _ _ _ _ _ shared _ h hanswers with
    ⟨_, _, hret, -⟩ | ⟨_, _, hret⟩ |
    ⟨balance, messagesRaw, signaturesRaw, result, hmessages, hsignatures, hresult, hbody⟩
  · rw [hnext] at hret
    cases hret
  · rw [hnext] at hret
    cases hret
  · rw [hnext] at hbody
    exact ⟨balance, messagesRaw, signaturesRaw, result, hmessages, hsignatures, hresult,
      Flow.next.inj hbody⟩

/-- Any number of polls leaves the relay waiting for the same things. -/
theorem assembling_of_waits (h : Assembling called start assignments block relay future)
    {relay' : WithdrawRelay Digest}
    (hwaits : Relation.ReflTransGen (Waits app called) relay relay') :
    ∃ future', Assembling called start assignments block relay' future' := by
  induction hwaits with
  | refl => exact ⟨future, h⟩
  | @tail middle relay' _ hpoll ih =>
    obtain ⟨future', hmiddle⟩ := ih
    obtain ⟨shared, answers, hanswers, hbody⟩ := hpoll
    rcases @body_cases _ app _ _ _ _ _ _ shared _ hmiddle hanswers with
      ⟨relay'', future'', hret, hassembling⟩ | ⟨_, e, hret⟩ | ⟨_, _, _, _, _, _, _, hnext⟩
    · rw [hbody] at hret
      cases hret
      exact ⟨future'', hassembling⟩
    · rw [hbody] at hret
      cases hret
    · rw [hbody] at hnext
      cases hnext

/-- The relay goes on when everything is fetched and there is a batch for it. -/
theorem next_of_fetched (h : Assembling called start assignments block relay future)
    (hanswers : Answering called relay.foreignContract answers)
    {raws : List Bytes × List (List Bytes)} {balance : U256}
    (hfetched : (pollFetch (answers.call · relay.foreignContract) future).2 = .ok (.ready raws))
    (hbalance : shared.homeBalance = some balance)
    (htransactions : List.Forall₂ (MessageAnswer called) assignments raws.1 →
      List.Forall₂ (SignatureAnswers called) assignments raws.2 →
      ∃ result, start.transactions app shared.homeGasPrice balance assignments raws.1 raws.2
        = .ok result) :
    ∃ s, body app (relay, shared) answers = .next s := by
  obtain ⟨hmessages, hsignatures⟩ := (pollFetch_spec hanswers h.fetching).2 raws hfetched
  obtain ⟨result, hresult⟩ := htransactions hmessages hsignatures
  have hstate : relay.state = .fetchMessagesSignatures assignments future block := by
    rw [h.relay_eq]
  have hsame : relay.transactions app shared.homeGasPrice balance assignments raws.1 raws.2
      = .ok result := by
    rw [h.relay_eq]
    exact hresult
  rw [body_of_fetching hstate hbalance, hfetched, withContext_eq_ok.2 rfl]
  dsimp only
  rw [hsame]
  exact ⟨_, rfl⟩

end Poll

/-! ## The logs of an item -/

/-- A `CollectedSignatures` log.  The number of signatures is a counter of
submissions. -/
def Collected (abi : Abi) (log : Log) : Prop :=
  ∃ event, abi.parseCollectedSignatures log.rawLog = some event ∧
    event.numberOfCollectedSignatures.toNat < 2 ^ 32

theorem own_of_duty {log : Log} (h : Collected app.abi log) (hduty : duty app log = true) :
    ∃ event, Own app log event ∧ event.numberOfCollectedSignatures.toNat < 2 ^ 32 := by
  obtain ⟨event, hparsed, hnumber⟩ := h
  exact ⟨event, (duty_iff_own hparsed).1 hduty, hnumber⟩

theorem assignments_of_collected (hword : EncodesWord app.abi) {logs : List Log}
    (hlogs : ∀ log ∈ logs, Collected app.abi log)
    (hinfo : ∀ log ∈ logs, duty app log = false → infoTransactionHash app log = .ok ()) :
    ∃ result, assignments app logs = .ok result ∧ result.map Prod.fst = logs.filter (duty app) ∧
      ∀ p ∈ result, Matches app p := by
  have hok : ∃ pairs, (logs.mapM fun log => do
      let assignment ← signaturesPayload app log
      pure (log, assignment) : Except Error _) = .ok pairs := by
    apply Results.exists_mapM_eq_ok
    intro log hmem
    cases hduty : duty app log with
    | true =>
      obtain ⟨event, hown, hnumber⟩ := own_of_duty (hlogs log hmem) hduty
      rw [signaturesPayload_of_own hword hown hnumber]
      exact ⟨_, rfl⟩
    | false =>
      obtain ⟨event, hparsed, -⟩ := hlogs log hmem
      rw [signaturesPayload_of_other hparsed hduty, hinfo log hmem hduty]
      exact ⟨_, rfl⟩
  obtain ⟨pairs, hpairs⟩ := hok
  have hresult : ∃ result, assignments app logs = .ok result := by
    unfold assignments
    rw [hpairs]
    exact ⟨_, rfl⟩
  obtain ⟨result, hresult⟩ := hresult
  obtain ⟨hfst, hpayloads⟩ := assignments_eq_ok hresult
  refine ⟨result, hresult, hfst, ?_⟩
  intro p hp
  have hlog : p.1 ∈ logs.filter (duty app) := by
    rw [← hfst]
    exact List.mem_map.2 ⟨p, hp, rfl⟩
  obtain ⟨hmem, hduty⟩ := List.mem_filter.1 hlog
  obtain ⟨event, hown, hnumber⟩ := own_of_duty (hlogs _ hmem) hduty
  have hpayload := hpayloads p hp
  rw [signaturesPayload_of_own hword hown hnumber] at hpayload
  exact ⟨event, hown, (Option.some.inj (Except.ok.inj hpayload)).symm⟩

/-- A log of another authority that cannot be reported ends the poll. -/
theorem assignments_of_silent {logs : List Log} {log : Log} (hmem : log ∈ logs)
    (hlog : Collected app.abi log) (hother : duty app log = false)
    (hinfo : infoTransactionHash app log ≠ .ok ()) : ∃ e, assignments app logs = .error e := by
  cases hresult : assignments app logs with
  | error e => exact ⟨e, rfl⟩
  | ok result =>
    obtain ⟨pairs, hpairs, -⟩ := Results.exists_of_bind_eq_ok hresult
    obtain ⟨pair, -, hpair⟩ :=
      Results.exists_mem_of_forall₂ (Results.forall₂_of_mapM_eq_ok hpairs).flip hmem
    obtain ⟨assignment, hassignment, -⟩ := Results.exists_of_bind_eq_ok hpair
    obtain ⟨event, hparsed, -⟩ := hlog
    rw [signaturesPayload_of_other hparsed hother] at hassignment
    cases hresult : infoTransactionHash app log with
    | error e =>
      rw [hresult] at hassignment
      cases hassignment
    | ok => exact absurd hresult hinfo

/-- The withdrawals that the relay assembles, for every batch of logs, every content
of the stores, and any number of polls with any answers of the node.

If a log of another authority cannot be reported, the poll fails at once.
Otherwise the relay fetches, and after any number of polls that leave it waiting:

* when it goes on to send, the batch has exactly one transaction for each log that
  names this authority, in the order of the logs, and the transaction is the one for
  the event of its log;
* it does not go on when an announced signature does not have 65 bytes;
* it does go on when everything is fetched, all messages have 116 bytes, all
  announced signatures have 65, and the balance is enough. -/
theorem withdrawals_assembled (app : App Digest) (stores : Stores)
    (called : Bytes → Bytes → Prop) (hword : EncodesWord app.abi)
    (hserves : Serves app.abi stores called) (relay : WithdrawRelay Digest)
    (shared : Shared Digest) (answers : Answers Digest) (logs : LogStream) (item : LogStreamItem)
    (hwait : relay.state = .wait)
    (hitem : relay.logs.poll answers.logs = (logs, .ok (.ready (some item))))
    (hlogs : ∀ log ∈ item.logs, Collected app.abi log) :
    let own := item.logs.filter (duty app)
    ((∃ log ∈ item.logs, duty app log = false ∧ infoTransactionHash app log ≠ .ok ()) →
      ∃ relay' e, body app (relay, shared) answers = .ret (relay', shared) (.error e)) ∧
    ((∀ log ∈ item.logs, duty app log = false → infoTransactionHash app log = .ok ()) →
      ∃ fetching, body app (relay, shared) answers = .next (fetching, shared) ∧
      ∀ relay', Relation.ReflTransGen (Waits app called) fetching relay' →
      ∀ shared' answers', Answering called relay'.foreignContract answers' →
        (∀ s, body app (relay', shared') answers' = .next s →
          ∃ batch : Batch Digest,
            s = ({ relay with
              logs := logs
              state := .relayWithdraws batch item.toBlock }, shared') ∧
            List.Forall₂ (fun log p => ∃ event, Own app log event ∧
              Assembled app stores relay.homeContract event p.2.transaction) own batch.pending) ∧
        ((∃ log ∈ own, ∃ event, Own app log event ∧
            ∃ bytes ∈ stores.announced event, bytes.length ≠ 65) →
          ∀ s, body app (relay', shared') answers' ≠ .next s) ∧
        ((∀ log ∈ own, ∀ event, Own app log event →
            (stores.message event.messageHash).length = 116 ∧
              ∀ bytes ∈ stores.announced event, bytes.length = 65) →
          ∀ assignments future block raws balance,
            relay'.state = .fetchMessagesSignatures assignments future block →
            (pollFetch (answers'.call · relay'.foreignContract) future).2 = .ok (.ready raws) →
            shared'.homeBalance = some balance →
            balanceRequired app.withdrawRelayGas shared'.homeGasPrice own.length
              ≤ balance.toNat →
            ∃ s, body app (relay', shared') answers' = .next s)) := by
  intro own
  rw [body_of_item hwait hitem]
  refine ⟨?_, ?_⟩
  · intro hsilent
    obtain ⟨log, hmem, hother, hinfo⟩ := hsilent
    obtain ⟨e, herror⟩ := assignments_of_silent hmem (hlogs log hmem) hother hinfo
    rw [herror]
    exact ⟨_, e, rfl⟩
  · intro hinfo
    obtain ⟨assignments, hassignments, hfst, hmatches⟩ :=
      assignments_of_collected hword hlogs hinfo
    have hfst : assignments.map Prod.fst = own := hfst
    rw [hassignments]
    refine ⟨_, rfl, ?_⟩
    intro relay' hwaits shared' answers' hanswers
    have hstart : Assembling called { relay with logs := logs } assignments item.toBlock
        { relay with
          logs := logs
          state := .fetchMessagesSignatures assignments (fetch assignments) item.toBlock }
        (fetch assignments) := ⟨rfl, fetching_fetch called assignments⟩
    obtain ⟨future, hassembling⟩ := assembling_of_waits hstart hwaits
    refine ⟨?_, ?_, ?_⟩
    · intro s hnext
      obtain ⟨balance, messagesRaw, signaturesRaw, result, hmessages, hsignatures, hresult, rfl⟩ :=
        fetched_of_next hassembling hanswers hnext
      obtain ⟨hsent, hassembled⟩ := assembled_of_transactions hserves
        ⟨hmatches, hmessages, hsignatures⟩ hresult
      refine ⟨_, rfl, ?_⟩
      rw [← hfst, ← hsent]
      exact forall₂_pending_sendAll hassembled
    · intro hwrong s hnext
      obtain ⟨log, hlog, event, hown, bytes, hbytes, hlength⟩ := hwrong
      rw [← hfst] at hlog
      obtain ⟨p, hp, rfl⟩ := List.mem_map.1 hlog
      obtain ⟨balance, messagesRaw, signaturesRaw, result, hmessages, hsignatures, hresult, -⟩ :=
        fetched_of_next hassembling hanswers hnext
      obtain ⟨e, herror⟩ := transactions_of_length_ne hserves
        ⟨hmatches, hmessages, hsignatures⟩ hp hown hbytes hlength
      rw [hresult] at herror
      cases herror
    · intro hlengths assignments' future' block' raws balance hstate hfetched hbalance henough
      rw [hassembling.relay_eq] at hstate
      cases hstate
      have howned : ∀ p ∈ assignments, p.1 ∈ own := by
        intro p hp
        rw [← hfst]
        exact List.mem_map.2 ⟨p, hp, rfl⟩
      have hcount : own.length = assignments.length := by
        rw [← hfst, List.length_map]
      rw [hcount] at henough
      refine next_of_fetched hassembling hanswers hfetched hbalance ?_
      intro hmessages hsignatures
      exact exists_transactions hserves ⟨hmatches, hmessages, hsignatures⟩
        (fun p hp event hown => (hlengths p.1 (howned p hp) event hown).1)
        (fun p hp event hown => (hlengths p.1 (howned p hp) event hown).2) henough

/-! ### Two authorities -/

/-- The account is `0xA`.  The hash is the identity. -/
def relayingApp : App Bytes where
  abi := Abi.solidity
  wallet := ⟨fun tx _ => tx.data, fun _ digest => some digest, fun tx signature _ =>
    some (tx.data ++ signature)⟩
  keccak256 := id
  home := ⟨0xA, 0, none, .fast, 1⟩
  foreign := ⟨0xA, 0, none, .fast, 1⟩
  depositRelayGas := 21000
  withdrawConfirmGas := 21000
  withdrawRelayGas := 21000
  infoEnabled := true

/-- Two signatures of the message `hash` are collected. -/
def collectedLog (authority : Address) (hash : H256) : Log where
  address := 0xF0
  topics := [Abi.solidity.collectedSignaturesTopic]
  data := [Abi.addressWord authority, hash, 2].flatMap wordBytes
  transactionHash := some 0x79

/-- Every message has the gas price 7.  The signatures differ in both arguments. -/
def relayedStores : Stores where
  message := fun hash => (⟨0xC, 5, hash, 7⟩ : MessageToMainnet).toBytes
  signature := fun hash index => (⟨27, index, hash⟩ : Signature).toBytes

/-- The node answers with the encoded content of the stores. -/
def relayedCalled (payload raw : Bytes) : Prop :=
  (∀ hash, payload = Abi.solidity.messageInput hash →
    raw = Abi.dynamicArguments [Abi.dynamicBytes (relayedStores.message hash)]) ∧
  ∀ hash index, payload = Abi.solidity.signatureInput hash index →
    raw = Abi.dynamicArguments [Abi.dynamicBytes (relayedStores.signature hash index)]

/-- The stream is about to emit a log of another authority and one of this. -/
def relayingRelay : WithdrawRelay Bytes where
  logs := ⟨.nextItem (some ⟨1, 1, [collectedLog 0xB 1, collectedLog 0xA 2]⟩), 1, ⟨[], []⟩, 0⟩
  state := .wait
  foreignContract := 0xF0
  homeContract := 0xE0
  homeChainId := 1

def relayingShared : Shared Bytes := ⟨0, 0, some 30000, none, 1, 1, []⟩

/-- The node answers the calls with what the stores hold for the arguments. -/
def relayingAnswers : Answers Bytes where
  logs := [⟨.ok .notReady, .ok .notReady, fun _ _ _ => .ok .notReady⟩]
  call := fun _ _ payload =>
    .ok (.ready (Abi.dynamicArguments [Abi.dynamicBytes
      (match Abi.wordAt (payload.drop 4) 0, Abi.wordAt (payload.drop 4) 1 with
      | some hash, none => relayedStores.message hash
      | some hash, some index => relayedStores.signature hash index
      | none, _ => [])]))
  future := []

theorem encodesWord_solidity : EncodesWord Abi.solidity := by
  intro word
  show decode (wordBytes word) = word.toNat
  rw [decode_wordBytes]

theorem serves_relayed : Serves Abi.solidity relayedStores relayedCalled where
  message := by
    intro hash raw hcalled
    rw [hcalled.1 hash rfl]
    apply Abi.bytesOutput_dynamicArguments
    show (MessageToMainnet.toBytes _).length < _
    rw [MessageToMainnet.length_toBytes, messageLength]
    omega
  signature := by
    intro hash index raw hcalled
    rw [hcalled.2 hash index rfl]
    apply Abi.bytesOutput_dynamicArguments
    simp [relayedStores, Signature.toBytes]

theorem answering_relayed (contract : Address) :
    Answering relayedCalled contract relayingAnswers := by
  intro id payload raw hraw
  cases hraw
  refine ⟨?_, ?_⟩
  · intro hash hpayload
    have hwords : payload.drop 4 = [hash].flatMap wordBytes := by
      rw [hpayload]
      simp [Abi.solidity]
    have hhash : Abi.wordAt ([hash].flatMap wordBytes) 0 = some hash :=
      Abi.wordAt_flatMap (by simp)
    have hlast : Abi.wordAt ([hash].flatMap wordBytes) 1 = none := by
      rw [Abi.wordAt, if_neg (by simp)]
    rw [hwords, hhash, hlast]
  · intro hash index hpayload
    have hwords : payload.drop 4 = [hash, index].flatMap wordBytes := by
      rw [hpayload]
      simp [Abi.solidity]
    have hhash : Abi.wordAt ([hash, index].flatMap wordBytes) 0 = some hash :=
      Abi.wordAt_flatMap (by simp)
    have hindex : Abi.wordAt ([hash, index].flatMap wordBytes) 1 = some index :=
      Abi.wordAt_flatMap (by simp)
    rw [hwords, hhash, hindex]

theorem withdrawals_assembled_relayed : ∃ fetching batch,
    body relayingApp (relayingRelay, relayingShared) relayingAnswers
      = .next (fetching, relayingShared) ∧
    body relayingApp (fetching, relayingShared) relayingAnswers
      = .next (⟨⟨.nextItem none, 1, ⟨[], []⟩, 0⟩, .relayWithdraws batch 1, 0xF0, 0xE0, 1⟩,
        relayingShared) ∧
    List.Forall₂ (fun log p => ∃ event, Own relayingApp log event ∧
      Assembled relayingApp relayedStores 0xE0 event p.2.transaction)
      [collectedLog 0xA 2] batch.pending := by
  have hlogs : ∀ log ∈ [collectedLog 0xB 1, collectedLog 0xA 2],
      Collected relayingApp.abi log := by
    intro log hmem
    rcases List.mem_pair.1 hmem with rfl | rfl
    · exact ⟨⟨0xB, 1, 2⟩, by decide +kernel, by decide⟩
    · exact ⟨⟨0xA, 2, 2⟩, by decide +kernel, by decide⟩
  have hreported : ∀ log ∈ [collectedLog 0xB 1, collectedLog 0xA 2],
      duty relayingApp log = false → infoTransactionHash relayingApp log = .ok () := by
    intro log hmem _
    rcases List.mem_pair.1 hmem with rfl | rfl <;> rfl
  obtain ⟨fetching, hstart, hassembled⟩ := (withdrawals_assembled relayingApp relayedStores
    relayedCalled encodesWord_solidity serves_relayed relayingRelay relayingShared
    relayingAnswers _ ⟨1, 1, [collectedLog 0xB 1, collectedLog 0xA 2]⟩ rfl rfl hlogs).2 hreported
  have hruns : (match body relayingApp (relayingRelay, relayingShared) relayingAnswers with
      | .next p => match body relayingApp p relayingAnswers with
        | .next _ => true
        | .ret _ _ => false
      | .ret _ _ => false) = true := by decide +kernel
  rw [hstart] at hruns
  cases hnext : body relayingApp (fetching, relayingShared) relayingAnswers with
  | ret p r =>
    dsimp only at hruns
    rw [hnext] at hruns
    cases hruns
  | next s =>
    obtain ⟨batch, rfl, hbatch⟩ := (hassembled fetching .refl relayingShared relayingAnswers
      (answering_relayed _)).1 s hnext
    have hown : [collectedLog 0xB 1, collectedLog 0xA 2].filter (duty relayingApp)
        = [collectedLog 0xA 2] := by decide +kernel
    rw [hown] at hbatch
    exact ⟨fetching, batch, hstart, hnext, hbatch⟩

end PoaBridge.WithdrawRelay
