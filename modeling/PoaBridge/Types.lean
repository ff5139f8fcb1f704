import Mathlib.Data.BitVec
import PoaBridge.Lib.PollLoop

/-!
# Words, logs and errors

The data types that the Rust process and the contracts share.  A 256-bit
word is a `BitVec 256` on both sides: `U256` and `uint256` when it is a
number, `H256` and `bytes32` when it is a hash.  An address is a
`BitVec 160`.  Byte strings are lists of `UInt8`.

The error type has one constructor for each kind of `bridge/src/error.rs`.
It has one more, `panic`, for an `unwrap`, `expect` or `assert_eq` that
fails: a panic ends the process as an error does, and no code catches it.
-/

namespace PoaBridge

open PollLoop

/-! ## Words and byte strings -/

/-- `Bytes` and `Vec<u8>`, Solidity `bytes`. -/
abbrev Bytes := List UInt8

/-- `U256`, Solidity `uint256`. -/
abbrev U256 := BitVec 256

/-- `H256`, Solidity `bytes32`. -/
abbrev H256 := BitVec 256

/-- `Address`, Solidity `address`. -/
abbrev Address := BitVec 160

/-- `U256::low_u64`: the low 64 bits. -/
def lowU64 (n : U256) : UInt64 := UInt64.ofNat n.toNat

theorem lowU64_toNat_le (n : U256) : (lowU64 n).toNat ≤ n.toNat := by
  rw [lowU64, UInt64.toNat_ofNat']
  exact Nat.mod_le _ _

/-- `u64::saturating_sub`. -/
def saturatingSub (a b : UInt64) : UInt64 := if b ≤ a then a - b else 0

/-- The saturating subtraction is the subtraction of the naturals: it never
wraps. -/
theorem saturatingSub_toNat (a b : UInt64) :
    (saturatingSub a b).toNat = a.toNat - b.toNat := by
  unfold saturatingSub
  split
  · rename_i h
    exact UInt64.toNat_sub_of_le _ _ h
  · rename_i h
    rw [UInt64.le_iff_toNat_le] at h
    simp only [UInt64.toNat_zero]
    omega

/-- `str::starts_with`. -/
def startsWith (text start : String) : Bool := start.toList.isPrefixOf text.toList

/-! ## Logs and filters -/

/-- The fields of `web3::types::Log` that the bridge reads. -/
structure Log where
  address : Address
  topics : List H256
  data : Bytes
  transactionHash : Option H256
deriving DecidableEq, Repr

/-- `ethabi::RawLog`. -/
structure RawLog where
  topics : List H256
  data : Bytes
deriving DecidableEq, Repr

/-- A log as `ethabi` parses it. -/
def Log.rawLog (log : Log) : RawLog := ⟨log.topics, log.data⟩

/-- The address and topic part of an `eth_getLogs` filter.  A topic that is
`none` matches everything. -/
structure Filter where
  address : List Address
  topics : List (Option (List H256))
deriving DecidableEq, Repr

/-- One position of the topic filter against one position of the log. -/
def topicMatches : Option (List H256) → Option H256 → Bool
  | none, _ => true
  | some _, none => false
  | some choices, some topic => choices.contains topic

/-- Whether `eth_getLogs` reports the log for this filter. -/
def Filter.matches (filter : Filter) (log : Log) : Bool :=
  (filter.address.isEmpty || filter.address.contains log.address) &&
    (List.range filter.topics.length).all fun i =>
      topicMatches (filter.topics[i]?.getD none) log.topics[i]?

/-- `web3_filter`: the topic filter of one event, for the given contracts.
The events of the bridge have no indexed argument, so only the first topic is
set. -/
def web3Filter (topic0 : H256) (addresses : List Address) : Filter :=
  ⟨addresses, [some [topic0], none, none, none]⟩

/-! ## Errors -/

/-- `jsonrpc_core::ErrorCode`. -/
inductive RpcErrorCode where
  | parseError
  | invalidRequest
  | methodNotFound
  | invalidParams
  | internalError
  | serverError (code : Int)
deriving DecidableEq, Repr

/-- `jsonrpc_core::Error`. -/
structure RpcError where
  code : RpcErrorCode
  message : String
deriving DecidableEq, Repr

/-- `std::io::ErrorKind`, as far as the process looks at it. -/
inductive IoErrorKind where
  | brokenPipe
  | notFound
  | otherKind
deriving DecidableEq, Repr

/-- `web3::error::ErrorKind`. -/
inductive Web3Error where
  | unreachable
  | decoder (message : String)
  | invalidResponse (message : String)
  | transport (message : String)
  | rpc (err : RpcError)
  | io (kind : IoErrorKind)
  | internal
deriving DecidableEq, Repr

/-- `ErrorKind` of `bridge/src/error.rs`, and `panic`. -/
inductive Error where
  | io (kind : IoErrorKind)
  | toml
  | ethabi
  | timer
  | hex
  | json
  | hyper
  | shutdownRequested
  | insufficientFunds
  | noRequiredSignaturesChanged
  | timeout (request : String)
  | missingFile (filename : String)
  | web3 (err : Web3Error)
  | keyStore
  | signError
  | accountError
  | contextualizedError (err : Error) (context : String)
  | otherError (error : String)
  | configError (err : String)
  | msg (message : String)
  | panic (message : String)
deriving DecidableEq, Repr

/-- `map_err(|e| ErrorKind::ContextualizedError(Box::new(e), context))`.  A
panic unwinds past the `map_err`. -/
def Error.context (context : String) : Error → Error
  | .panic message => .panic message
  | err => .contextualizedError err context

/-- `Poll` with the error type of the bridge. -/
abbrev Poll (α : Type) := PollLoop.Poll Error α

/-- `poll().map_err(..)` with a context. -/
def withContext {α : Type} (context : String) : Poll α → Poll α
  | .ok a => .ok a
  | .error e => .error (e.context context)

@[simp] theorem withContext_eq_ok {α : Type} {context : String} {p : Poll α} {a : Async α} :
    withContext context p = .ok a ↔ p = .ok a := by
  cases p <;> simp [withContext]

theorem ne_error_of_withContext {α : Type} {context : String} {p : Poll α}
    (h : ∀ e, withContext context p ≠ .error e) : ∀ e, p ≠ .error e := by
  intro e he
  rw [he] at h
  exact h _ rfl

end PoaBridge
