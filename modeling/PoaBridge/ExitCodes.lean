import PoaBridge.Lib.Loops
import PoaBridge.Types

/-!
# The exit codes of the process

The end of `execute` in `cli/src/main.rs`.  When the stream of the bridge has failed,
a loop takes the contexts off the error, and the error inside decides the code.

The codes of the RPC errors are a chain of tests for prefixes, and one of the
prefixes begins with another one.  `follows_table_iff` says that the error inside
decides the code for every error, and that the code is the documented one unless
the shorter prefix hides the longer one.
-/

namespace PoaBridge

open Loops

/-! ## The codes -/

def errIoError : Int32 := 2

def errShutdownRequested : Int32 := 3

def errInsufficientFunds : Int32 := 4

def errGasTooLow : Int32 := 5

def errGasPriceTooLow : Int32 := 6

def errNonceReuse : Int32 := 7

def errConnectionLost : Int32 := 11

def errBridgeCrash : Int32 := 12

def errRpcError : Int32 := 20

/-- `UserFacingError`. -/
structure UserFacingError where
  code : Int32
  err : Error
deriving DecidableEq, Repr

/-! ## The loop -/

/-- `e.code == rpc::ErrorCode::ServerError(-32010) && e.message.starts_with(start)`. -/
def RpcError.isServerError (e : RpcError) (start : String) : Bool :=
  e.code = .serverError (-32010) && startsWith e.message start

/-- One iteration of the loop at the end of `execute`.  A panic does not get here: it
unwinds through `execute`. -/
def unwrapError :
    Except Error (List Bool) → Except Error (List Bool) ⊕ Except UserFacingError String
  | .error (.contextualizedError e _) => .inl (.error e)
  | .error (.web3 (.io kind)) =>
    if kind = .brokenPipe then .inr (.error ⟨errConnectionLost, .io kind⟩)
    else .inr (.error ⟨errIoError, .io kind⟩)
  | .error .shutdownRequested => .inr (.error ⟨errShutdownRequested, .shutdownRequested⟩)
  | .error .insufficientFunds => .inr (.error ⟨errInsufficientFunds, .insufficientFunds⟩)
  | .error (.web3 (.rpc e)) =>
    if e.isServerError "Insufficient funds" then
      .inr (.error ⟨errInsufficientFunds, .web3 (.rpc e)⟩)
    else if e.isServerError "Transaction gas is too low" then
      .inr (.error ⟨errGasTooLow, .web3 (.rpc e)⟩)
    else if e.isServerError "Transaction gas price is too low" then
      .inr (.error ⟨errGasPriceTooLow, .web3 (.rpc e)⟩)
    else if e.isServerError "Transaction gas price is too low. There is another" then
      .inr (.error ⟨errNonceReuse, .web3 (.rpc e)⟩)
    else if e.isServerError "Transaction nonce is too low" then
      .inr (.error ⟨errNonceReuse, .web3 (.rpc e)⟩)
    else .inr (.error ⟨errRpcError, .web3 (.rpc e)⟩)
  | .error e => .inr (.error ⟨errBridgeCrash, e⟩)
  | .ok _ => .inr (.ok "Done")

/-- The loop leaves `execute` with a failure. -/
def Fails (err : Error) (failure : UserFacingError) : Prop :=
  Loop unwrapError (.error err) (.error failure)

/-- The error without its contexts. -/
def Error.innermost : Error → Error
  | .contextualizedError err _ => err.innermost
  | err => err

/-! ## The table -/

/-- The documented code of an RPC error: the one of the most specific category. -/
def documentedCode (e : RpcError) : Int32 :=
  if e.code = .serverError (-32010) then
    if startsWith e.message "Transaction gas price is too low. There is another"
        || startsWith e.message "Transaction nonce is too low" then errNonceReuse
    else if startsWith e.message "Transaction gas price is too low" then errGasPriceTooLow
    else if startsWith e.message "Transaction gas is too low" then errGasTooLow
    else if startsWith e.message "Insufficient funds" then errInsufficientFunds
    else errRpcError
  else errRpcError

/-- The loop ends, the code depends on the error without its contexts only, and the
code of an RPC error is the documented one. -/
def FollowsTable (err : Error) : Prop :=
  ∃ failure, (∀ result, Loop unwrapError (.error err) result ↔ result = .error failure) ∧
    (∀ err' failure', err'.innermost = err.innermost → Fails err' failure' →
      failure'.code = failure.code) ∧
    ∀ e, err.innermost = .web3 (.rpc e) → failure.code = documentedCode e

/-! ### Prefixes -/

theorem startsWith_iff {text start : String} :
    startsWith text start = true ↔ start.toList <+: text.toList :=
  List.isPrefixOf_iff_prefix

/-- A text starts with at most one of two texts that do not start with one another. -/
theorem not_startsWith {text start start' : String} (h : startsWith text start = true)
    (hstart : startsWith start start' = false) (hstart' : startsWith start' start = false) :
    startsWith text start' = false := by
  rw [← Bool.not_eq_true]
  intro h'
  rcases List.prefix_or_prefix_of_prefix (startsWith_iff.1 h) (startsWith_iff.1 h') with hpre | hpre
  · rw [startsWith_iff.2 hpre] at hstart'
    cases hstart'
  · rw [startsWith_iff.2 hpre] at hstart
    cases hstart

theorem startsWith_trans {text start start' : String} (h : startsWith text start = true)
    (hstart : startsWith start start' = true) : startsWith text start' = true :=
  startsWith_iff.2 ((startsWith_iff.1 hstart).trans (startsWith_iff.1 h))

/-! ### The loop takes the contexts off -/

theorem loop_innermost (err : Error) {result : Except UserFacingError String} :
    Loop unwrapError (.error err) result ↔ Loop unwrapError (.error err.innermost) result := by
  induction err with
  | contextualizedError err context ih =>
    have hstep : unwrapError (.error (.contextualizedError err context)) = .inl (.error err) := rfl
    exact (loop_of_inl hstep).trans ih
  | _ => exact Iff.rfl

theorem unwrapError_rpc (e : RpcError) :
    unwrapError (.error (.web3 (.rpc e))) = .inr (.error ⟨
      if e.isServerError "Insufficient funds" then errInsufficientFunds
      else if e.isServerError "Transaction gas is too low" then errGasTooLow
      else if e.isServerError "Transaction gas price is too low" then errGasPriceTooLow
      else if e.isServerError "Transaction gas price is too low. There is another" then
        errNonceReuse
      else if e.isServerError "Transaction nonce is too low" then errNonceReuse
      else errRpcError, .web3 (.rpc e)⟩) := by
  rw [unwrapError]
  split_ifs <;> rfl

/-- An error without contexts ends the loop. -/
theorem exists_failure (err : Error) :
    ∃ failure, unwrapError (.error err.innermost) = .inr (.error failure) := by
  induction err with
  | contextualizedError err context ih => exact ih
  | web3 err =>
    cases err with
    | io kind => cases kind <;> exact ⟨_, rfl⟩
    | rpc e => exact ⟨_, unwrapError_rpc e⟩
    | _ => exact ⟨_, rfl⟩
  | _ => exact ⟨_, rfl⟩

/-- A message about the price of gas is in none of the two categories that the table looks
at after it. -/
theorem others_of_gasPrice {message : String}
    (h : startsWith message "Transaction gas price is too low" = true) :
    startsWith message "Transaction gas is too low" = false ∧
      startsWith message "Insufficient funds" = false :=
  ⟨not_startsWith h (by decide +kernel) (by decide +kernel),
    not_startsWith h (by decide +kernel) (by decide +kernel)⟩

/-- A message about the nonce is in none of the other categories. -/
theorem others_of_nonce {message : String}
    (h : startsWith message "Transaction nonce is too low" = true) :
    startsWith message "Transaction gas price is too low" = false ∧
      startsWith message "Transaction gas is too low" = false ∧
      startsWith message "Insufficient funds" = false :=
  ⟨not_startsWith h (by decide +kernel) (by decide +kernel),
    not_startsWith h (by decide +kernel) (by decide +kernel),
    not_startsWith h (by decide +kernel) (by decide +kernel)⟩

/-- The tests agree with the table unless the shorter prefix hides the longer one. -/
theorem code_eq_documentedCode_iff {e : RpcError} {failure : UserFacingError}
    (h : unwrapError (.error (.web3 (.rpc e))) = .inr (.error failure)) :
    failure.code = documentedCode e ↔
      e.isServerError "Transaction gas price is too low. There is another" = false := by
  rw [unwrapError_rpc] at h
  cases h
  obtain ⟨code, message⟩ := e
  unfold documentedCode RpcError.isServerError
  dsimp only
  by_cases hcode : code = .serverError (-32010)
  · simp only [hcode, decide_true, Bool.true_and, if_true]
    -- one case for each category, from the most specific one on
    by_cases hanother :
        startsWith message "Transaction gas price is too low. There is another" = true
    · have hprice : startsWith message "Transaction gas price is too low" = true :=
        startsWith_trans hanother (by decide +kernel)
      obtain ⟨hgas, hfunds⟩ := others_of_gasPrice hprice
      simp [hanother, hprice, hgas, hfunds, errGasPriceTooLow, errNonceReuse]
    · by_cases hnonce : startsWith message "Transaction nonce is too low" = true
      · obtain ⟨hprice, hgas, hfunds⟩ := others_of_nonce hnonce
        simp [hanother, hnonce, hprice, hgas, hfunds]
      · by_cases hprice : startsWith message "Transaction gas price is too low" = true
        · obtain ⟨hgas, hfunds⟩ := others_of_gasPrice hprice
          simp [hanother, hnonce, hprice, hgas, hfunds]
        · by_cases hgas : startsWith message "Transaction gas is too low" = true
          · have hfunds : startsWith message "Insufficient funds" = false :=
              not_startsWith hgas (by decide +kernel) (by decide +kernel)
            simp [hanother, hnonce, hprice, hgas, hfunds]
          · simp [hanother, hnonce, hprice, hgas]
  · simp [hcode]

/-- When the exit code is the documented one: unless the node has answered with the
code `-32010` and a message that says that there is another transaction. -/
theorem follows_table_iff (err : Error) :
    FollowsTable err ↔ ∀ e, err.innermost = .web3 (.rpc e) →
      e.isServerError "Transaction gas price is too low. There is another" = false := by
  obtain ⟨failure, hfailure⟩ := exists_failure err
  have hloop : ∀ result, Loop unwrapError (.error err) result ↔ result = .error failure :=
    fun result => (loop_innermost err).trans (loop_of_inr hfailure)
  constructor
  · rintro ⟨failure', hends, -, hcode⟩ e he
    have heq := Except.error.inj ((hends _).1 ((hloop _).2 rfl))
    rw [he] at hfailure
    exact (code_eq_documentedCode_iff hfailure).1 (heq ▸ hcode e he)
  · intro hother
    refine ⟨failure, hloop, ?_, ?_⟩
    · intro err' failure' herr' hfails
      have hfails := (loop_innermost err').1 hfails
      rw [herr'] at hfails
      rw [Except.error.inj ((loop_of_inr hfailure).1 hfails)]
    · intro e he
      rw [he] at hfailure
      exact (code_eq_documentedCode_iff hfailure).2 (hother e he)

/-- The error that a node answers with when the nonce is taken. -/
def nonceTaken : RpcError where
  code := .serverError (-32010)
  message := "Transaction gas price is too low. There is another transaction with same nonce."

theorem nonce_reuse_hidden :
    ¬ FollowsTable (.contextualizedError (.contextualizedError (.web3 (.rpc nonceTaken))
      "relaying deposit to foreign") "deposit_relay") ∧
    Fails (.web3 (.rpc nonceTaken)) ⟨6, .web3 (.rpc nonceTaken)⟩ ∧
    documentedCode nonceTaken = 7 := by
  have hleaves : unwrapError (.error (.web3 (.rpc nonceTaken)))
      = .inr (.error ⟨6, .web3 (.rpc nonceTaken)⟩) := by decide +kernel
  have hdocumented : documentedCode nonceTaken = 7 := by decide +kernel
  refine ⟨?_, (loop_of_inr hleaves).2 rfl, hdocumented⟩
  rintro ⟨failure, hends, -, hcode⟩
  have hfails := (hends _).1 ((loop_innermost _).2 ((loop_of_inr hleaves).2 rfl))
  have hcode := hcode nonceTaken rfl
  rw [← Except.error.inj hfails, hdocumented] at hcode
  exact absurd hcode (by decide)

end PoaBridge
