import PoaBridge.Types

/-!
# The configuration of a node

`Node` and `GasPriceSpeed` of `bridge/src/config.rs`, as far as the components of
the bridge read them.
-/

namespace PoaBridge

/-- `GasPriceSpeed`. -/
inductive GasPriceSpeed where
  | instant
  | fast
  | standard
  | slow
deriving DecidableEq, Repr

/-- `GasPriceSpeed::as_str`. -/
def GasPriceSpeed.asStr : GasPriceSpeed → String
  | .instant => "instant"
  | .fast => "fast"
  | .standard => "standard"
  | .slow => "slow"

/-- `config::Node`. -/
structure NodeConfig where
  account : Address
  requiredConfirmations : UInt64
  gasPriceOracleUrl : Option String
  gasPriceSpeed : GasPriceSpeed
  defaultGasPrice : UInt64
deriving DecidableEq, Repr

end PoaBridge
