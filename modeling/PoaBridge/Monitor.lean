import PoaBridge.Config

/-!
# Balances and gas prices

`BalanceCheck` of `bridge/src/bridge/balance.rs` and `GasPriceStream` of
`bridge/src/bridge/gas_price.rs`: two streams that the bridge polls between the
events of the relays.
-/

namespace PoaBridge

open PollLoop

/-! ## Balances -/

/-- `BalanceCheckState`.  The request is in flight while its state lasts. -/
inductive BalanceCheckState where
  | wait
  | balanceRequest
  | yield (balance : Option U256)
deriving DecidableEq, Repr

structure BalanceCheck where
  state : BalanceCheckState
deriving DecidableEq, Repr

/-- `create_balance_check`. -/
def createBalanceCheck : BalanceCheck := ⟨.wait⟩

namespace BalanceCheck

/-- One iteration of the loop in `BalanceCheck::poll`, with the answer to
`eth_getBalance`. -/
def body (self : BalanceCheck) (balance : Poll U256) : Flow BalanceCheck (Poll (Option U256)) :=
  match self.state with
  | .wait => .next ⟨.balanceRequest⟩
  | .balanceRequest => tryReady self balance fun value => .next ⟨.yield (some value)⟩
  | .yield none => .next ⟨.wait⟩
  | .yield (some value) => .ret ⟨.yield none⟩ (.ok (.ready (some value)))

/-- `BalanceCheck::poll`. -/
def poll (self : BalanceCheck) (script : List (Poll U256)) : BalanceCheck × Poll (Option U256) :=
  run body (.ok .notReady) self script

end BalanceCheck

/-! ## Gas prices -/

/-- A value in the response of the oracle: a number, as the price in wei that
`(price * 1_000_000_000.0).trunc() as u64` gives for it, or anything else. -/
inductive OracleValue where
  | number (price : UInt64)
  | otherValue
deriving DecidableEq, Repr

/-- The body of a response: `none` when it is not a JSON object. -/
abbrev OracleResponse := Option (String → Option OracleValue)

/-- `State` of the gas price stream. -/
inductive GasPriceState where
  | initial
  | waitingForResponse
  | yield (price : Option UInt64)
deriving DecidableEq, Repr

structure GasPriceStream where
  state : GasPriceState
  speed : GasPriceSpeed
  lastPrice : UInt64
deriving DecidableEq, Repr

/-- `GasPriceStream::new_with_retriever`. -/
def GasPriceStream.newWithRetriever (node : NodeConfig) : GasPriceStream where
  state := .initial
  speed := node.gasPriceSpeed
  lastPrice := node.defaultGasPrice

namespace GasPriceStream

/-- What the timer and the oracle answer in one iteration. -/
structure Answers where
  interval : Poll (Option Unit)
  response : Poll OracleResponse

/-- The price in a response, and the last price when there is none. -/
def parse (self : GasPriceStream) : OracleResponse → UInt64
  | none => self.lastPrice
  | some object =>
    match object self.speed.asStr with
    | some (.number price) => price
    | _ => self.lastPrice

/-- One iteration of the loop in `GasPriceStream::poll`. -/
def body (self : GasPriceStream) (answers : Answers) :
    Flow GasPriceStream (Poll (Option UInt64)) :=
  match self.state with
  | .initial =>
    tryStream self answers.interval fun _ => .next { self with state := .waitingForResponse }
  | .waitingForResponse =>
    match answers.response with
    | .ok .notReady => .ret self (.ok .notReady)
    | .ok (.ready response) => .next { self with state := .yield (some (self.parse response)) }
    | .error _ => .next { self with state := .yield (some self.lastPrice) }
  | .yield none => .next { self with state := .initial }
  | .yield (some price) =>
    .ret { self with state := .yield none, lastPrice := price } (.ok (.ready (some price)))

/-- `GasPriceStream::poll`. -/
def poll (self : GasPriceStream) (script : List Answers) : GasPriceStream × Poll (Option UInt64) :=
  run body (.ok .notReady) self script

end GasPriceStream

end PoaBridge
