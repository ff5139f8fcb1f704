import Mathlib.Data.Nat.Log
import PoaBridge.Lib.Results
import PoaBridge.Config

/-!
# The timer that the components share

`Config::from_load_struct` of `bridge/src/config.rs` with the durations of a node, the
settings that `App::new_http` of `bridge/src/app.rs` computes from two of them for the
builder of the timer, and the calls that the components make to it.  What `tokio_timer`
does with the settings, such as the allocation of the slots, is not modelled.

`tokio_timer` can only wait up to the `max_timeout` of its builder.
`accommodated_iff` says for which configuration files every wait stays below it.
-/

namespace PoaBridge

open Results

/-! ## Durations -/

/-- `std::time::Duration`, in milliseconds. -/
abbrev Duration := Nat

/-- `Duration::from_secs`. -/
def Duration.fromSecs (secs : UInt64) : Duration := secs.toNat * 1000

/-- `Duration::as_secs`. -/
def Duration.asSecs (self : Duration) : Nat := self / 1000

/-! ## The configuration file -/

namespace Load

/-- `load::TransactionConfig`. -/
structure TransactionConfig where
  gas : Option UInt64
  gasPrice : Option UInt64
deriving DecidableEq, Repr

/-- `load::Transactions`. -/
structure Transactions where
  depositRelay : Option TransactionConfig
  withdrawConfirm : Option TransactionConfig
  withdrawRelay : Option TransactionConfig
deriving DecidableEq, Repr

/-- `load::Node`. -/
structure Node where
  account : Address
  requestTimeout : Option UInt64
  pollInterval : Option UInt64
  requiredConfirmations : Option UInt64
  rpcHost : Option String
  rpcPort : Option UInt16
  password : String
  gasPriceOracleUrl : Option String
  gasPriceSpeed : Option String
  gasPriceTimeout : Option UInt64
  defaultGasPrice : Option UInt64
  concurrentHttpRequests : Option UInt64
deriving DecidableEq, Repr

/-- `load::Config`. -/
structure Config where
  home : Node
  foreign : Node
  transactions : Option Transactions
  keystore : String
deriving DecidableEq, Repr

end Load

namespace Config

def defaultPollInterval : UInt64 := 1

def defaultConfirmations : UInt64 := 12

def defaultTimeout : UInt64 := 3600

def defaultRpcPort : UInt16 := 8545

def defaultConcurrency : UInt64 := 64

def defaultGasPriceSpeed : GasPriceSpeed := .fast

def defaultGasPriceTimeoutSecs : UInt64 := 10

def defaultGasPriceWei : UInt64 := 15000000000

/-- `config::TransactionConfig`. -/
structure TransactionConfig where
  gas : UInt64
  gasPrice : UInt64
deriving DecidableEq, Repr

/-- `config::Transactions`. -/
structure Transactions where
  depositRelay : TransactionConfig
  withdrawConfirm : TransactionConfig
  withdrawRelay : TransactionConfig
deriving DecidableEq, Repr

/-- `config::Node`, with the fields that `NodeConfig` leaves out. -/
structure Node extends NodeConfig where
  requestTimeout : Duration
  pollInterval : Duration
  rpcHost : String
  rpcPort : UInt16
  password : String
  gasPriceTimeout : Duration
  concurrentHttpRequests : UInt64
deriving DecidableEq, Repr

/-- `GasPriceSpeed::from_str`. -/
def gasPriceSpeedFromStr : String → Option GasPriceSpeed
  | "instant" => some .instant
  | "fast" => some .fast
  | "standard" => some .standard
  | "slow" => some .slow
  | _ => none

/-- The match on `node.gas_price_speed`, with its `unwrap`. -/
def loadGasPriceSpeed : Option String → Except Error GasPriceSpeed
  | some s =>
    match gasPriceSpeedFromStr s with
    | some speed => .ok speed
    | none => .error (.panic "called `Result::unwrap()` on an `Err` value: ()")
  | none => .ok defaultGasPriceSpeed

/-- `Node::from_load_struct`. -/
def Node.fromLoadStruct (node : Load.Node) (allowInsecureRpcEndpoints : Bool) :
    Except Error Node := do
  let gasPriceSpeed ← loadGasPriceSpeed node.gasPriceSpeed
  let some rpcHost := node.rpcHost
    | .error (.panic "called `Option::unwrap()` on a `None` value")
  -- an insecure host that is allowed is only logged
  if !startsWith rpcHost "https://" && !allowInsecureRpcEndpoints then
    .error (.configError s!"RPC endpoints must use TLS, {rpcHost} doesn't")
  else
    .ok {
      account := node.account
      requestTimeout := .fromSecs (node.requestTimeout.getD defaultTimeout)
      pollInterval := .fromSecs (node.pollInterval.getD defaultPollInterval)
      requiredConfirmations := node.requiredConfirmations.getD defaultConfirmations
      rpcHost := rpcHost
      rpcPort := node.rpcPort.getD defaultRpcPort
      password := node.password
      gasPriceOracleUrl := node.gasPriceOracleUrl
      gasPriceSpeed := gasPriceSpeed
      gasPriceTimeout := .fromSecs (node.gasPriceTimeout.getD defaultGasPriceTimeoutSecs)
      defaultGasPrice := node.defaultGasPrice.getD defaultGasPriceWei
      concurrentHttpRequests := node.concurrentHttpRequests.getD defaultConcurrency
    }

/-- `TransactionConfig::from_load_struct`. -/
def TransactionConfig.fromLoadStruct (cfg : Load.TransactionConfig) : TransactionConfig where
  gas := cfg.gas.getD 0
  gasPrice := cfg.gasPrice.getD 0

/-- `TransactionConfig::default`. -/
def TransactionConfig.default : TransactionConfig := ⟨0, 0⟩

/-- `Transactions::from_load_struct`. -/
def Transactions.fromLoadStruct (cfg : Load.Transactions) : Transactions where
  depositRelay := (cfg.depositRelay.map .fromLoadStruct).getD .default
  withdrawConfirm := (cfg.withdrawConfirm.map .fromLoadStruct).getD .default
  withdrawRelay := (cfg.withdrawRelay.map .fromLoadStruct).getD .default

/-- `Transactions::default`. -/
def Transactions.default : Transactions := ⟨.default, .default, .default⟩

end Config

/-- `Config`. -/
structure Config where
  home : Config.Node
  foreign : Config.Node
  txs : Config.Transactions
  keystore : String
deriving DecidableEq, Repr

/-- `Config::from_load_struct`. -/
def Config.fromLoadStruct (config : Load.Config) (allowInsecureRpcEndpoints : Bool) :
    Except Error Config := do
  let home ← Config.Node.fromLoadStruct config.home allowInsecureRpcEndpoints
  let foreign ← Config.Node.fromLoadStruct config.foreign allowInsecureRpcEndpoints
  return {
    home := home
    foreign := foreign
    txs := (config.transactions.map .fromLoadStruct).getD .default
    keystore := config.keystore
  }

/-! ## The timer -/

/-- The settings of the builder of a `tokio_timer::Timer`. -/
structure Timer where
  maxTimeout : Duration
  tickDuration : Duration
  numSlots : Nat
deriving DecidableEq, Repr

/-- The product of two numbers of type `usize`: `none` when it overflows. -/
def usizeMul (a b : Nat) : Option Nat := if a * b < 2 ^ 64 then some (a * b) else none

/-- `usize::next_power_of_two`: `none` when it overflows. -/
def nextPowerOfTwo (n : Nat) : Option Nat :=
  if 2 ^ Nat.clog 2 n < 2 ^ 64 then some (2 ^ Nat.clog 2 n) else none

namespace Config

/-- `max_timeout` of `App::new_http`. -/
def maxTimeout (self : Config) : Duration :=
  max self.home.requestTimeout self.foreign.requestTimeout

/-- The settings that `App::new_http` gives to the builder.  An overflow in the number of
slots is `none`: a debug build panics, and a release build goes on with a wrapped number.
Whether `build` can allocate that many slots is left open. -/
def timer (self : Config) : Option Timer := do
  let slots ← usizeMul self.maxTimeout.asSecs 10
  let numSlots ← nextPowerOfTwo slots
  return { maxTimeout := self.maxTimeout, tickDuration := 100, numSlots := numSlots }

end Config

/-! ## The calls of the components -/

/-- `CACHE_TIMEOUT_DURATION` of `bridge/src/bridge/gas_price.rs`. -/
def cacheTimeoutDuration : Duration := 5 * 60 * 1000

/-- A call of the timer. -/
inductive TimerCall where
  /-- `interval` and `interval_at`. -/
  | interval (duration : Duration)
  /-- `timeout`, around a request. -/
  | timeout (duration : Duration)
deriving DecidableEq, Repr

namespace TimerCall

def duration : TimerCall → Duration
  | interval duration => duration
  | timeout duration => duration

/-- `log_stream`, and the requests for the block number and for the logs. -/
def logStream (requestTimeout pollInterval : Duration) : List TimerCall :=
  [.interval pollInterval, .timeout requestTimeout, .timeout requestTimeout]

/-- `NonceCheck::poll`: the request for the nonce, and the transaction. -/
def nonceCheck (node : Config.Node) : List TimerCall :=
  [.timeout node.requestTimeout, .timeout node.requestTimeout]

/-- `BalanceCheck::poll`. -/
def balanceCheck (node : Config.Node) : List TimerCall := [.timeout node.requestTimeout]

/-- `ChainIdRetrieval::poll`. -/
def chainIdRetrieval (node : Config.Node) : List TimerCall := [.timeout node.requestTimeout]

/-- `GasPriceStream::new_with_retriever` and `GasPriceStream::poll`. -/
def gasPriceStream (node : Config.Node) : List TimerCall :=
  [.interval cacheTimeoutDuration, .timeout node.gasPriceTimeout]

/-- The optional gas price stream of a node in `create_bridge_event_stream`. -/
def gasStream (node : Config.Node) : List TimerCall :=
  if node.gasPriceOracleUrl.isSome then gasPriceStream node else []

def depositRelay (config : Config) : List TimerCall :=
  logStream config.home.requestTimeout config.home.pollInterval ++ nonceCheck config.foreign

def withdrawConfirm (config : Config) : List TimerCall :=
  logStream config.foreign.requestTimeout config.foreign.pollInterval ++ nonceCheck config.foreign

/-- The two `eth_call`s of the relay are for the message and for the signatures. -/
def withdrawRelay (config : Config) : List TimerCall :=
  logStream config.foreign.requestTimeout config.foreign.pollInterval ++
    [.timeout config.foreign.requestTimeout, .timeout config.foreign.requestTimeout] ++
    nonceCheck config.home

/-- `create_bridge_event_stream`. -/
def bridgeEventStream (config : Config) : List TimerCall :=
  gasStream config.home ++ gasStream config.foreign ++ depositRelay config ++
    withdrawRelay config ++ withdrawConfirm config ++ balanceCheck config.foreign ++
    balanceCheck config.home

/-- Every call of a process: `execute` asks both nodes for their chain ids, may deploy
the two contracts, and polls the bridge. -/
def process (config : Config) : List TimerCall :=
  chainIdRetrieval config.home ++ chainIdRetrieval config.foreign ++
    (nonceCheck config.home ++ nonceCheck config.foreign) ++ bridgeEventStream config

end TimerCall

/-- The settings of the builder are computed without an overflow, their `max_timeout`
accommodates the duration of every call, and their wheel accommodates the
`max_timeout`. -/
def Config.Accommodated (self : Config) : Prop :=
  ∃ timer, self.timer = some timer ∧
    (∀ call ∈ TimerCall.process self, call.duration ≤ timer.maxTimeout) ∧
    timer.maxTimeout ≤ timer.numSlots * timer.tickDuration

/-! ### Which files are accommodated -/

/-- The longest request timeout of a file, in seconds. -/
def Load.Config.longest (self : Load.Config) : Nat :=
  max (self.home.requestTimeout.getD Config.defaultTimeout).toNat
    (self.foreign.requestTimeout.getD Config.defaultTimeout).toNat

/-- The poll interval of a node is at most this number of seconds, and so are the two
durations of its gas price stream, if it has one. -/
structure Load.Node.Within (self : Load.Node) (secs : Nat) : Prop where
  poll : (self.pollInterval.getD Config.defaultPollInterval).toNat ≤ secs
  oracle : self.gasPriceOracleUrl.isSome →
    300 ≤ secs ∧ (self.gasPriceTimeout.getD Config.defaultGasPriceTimeoutSecs).toNat ≤ secs

/-- What `Node::from_load_struct` makes of the durations of an accepted node. -/
structure Config.Node.Loads (load : Load.Node) (node : Config.Node) : Prop where
  request : node.requestTimeout = .fromSecs (load.requestTimeout.getD Config.defaultTimeout)
  poll : node.pollInterval = .fromSecs (load.pollInterval.getD Config.defaultPollInterval)
  price : node.gasPriceTimeout =
    .fromSecs (load.gasPriceTimeout.getD Config.defaultGasPriceTimeoutSecs)
  oracle : node.gasPriceOracleUrl = load.gasPriceOracleUrl

theorem loads_of_fromLoadStruct {load : Load.Node} {allow : Bool} {node : Config.Node}
    (h : Config.Node.fromLoadStruct load allow = .ok node) : Config.Node.Loads load node := by
  obtain ⟨speed, -, h⟩ := exists_of_bind_eq_ok h
  cases hhost : load.rpcHost with
  | none =>
    rw [hhost] at h
    cases h
  | some rpcHost =>
    rw [hhost] at h
    dsimp only at h
    split at h
    · cases h
    · cases h
      exact ⟨rfl, rfl, rfl, rfl⟩

theorem loads_of_config {load : Load.Config} {allow : Bool} {config : Config}
    (h : Config.fromLoadStruct load allow = .ok config) :
    Config.Node.Loads load.home config.home ∧ Config.Node.Loads load.foreign config.foreign := by
  obtain ⟨home, hhome, h⟩ := exists_of_bind_eq_ok h
  obtain ⟨foreign, hforeign, h⟩ := exists_of_bind_eq_ok h
  cases h
  exact ⟨loads_of_fromLoadStruct hhome, loads_of_fromLoadStruct hforeign⟩

theorem maxTimeout_of_loads {load : Load.Config} {config : Config}
    (hhome : Config.Node.Loads load.home config.home)
    (hforeign : Config.Node.Loads load.foreign config.foreign) :
    config.maxTimeout = load.longest * 1000 := by
  rw [Config.maxTimeout, hhome.request, hforeign.request]
  exact Nat.mul_max_mul_right _ _ _

theorem usizeMul_eq_some_iff {a b n : Nat} :
    usizeMul a b = some n ↔ a * b < 2 ^ 64 ∧ n = a * b := by
  unfold usizeMul
  split
  · rename_i h
    exact ⟨fun heq => ⟨h, (Option.some.inj heq).symm⟩, fun heq => by rw [heq.2]⟩
  · rename_i h
    exact ⟨nofun, fun heq => absurd heq.1 h⟩

/-- The largest power of two of a `usize` is `2 ^ 63`. -/
theorem nextPowerOfTwo_eq_some_iff {n m : Nat} :
    nextPowerOfTwo n = some m ↔ n ≤ 2 ^ 63 ∧ m = 2 ^ Nat.clog 2 n := by
  have hpower : 2 ^ Nat.clog 2 n < 2 ^ 64 ↔ n ≤ 2 ^ 63 := by
    rw [Nat.pow_lt_pow_iff_right (by decide), Nat.lt_succ_iff, Nat.clog_le_iff_le_pow (by decide)]
  unfold nextPowerOfTwo
  split
  · rename_i h
    exact ⟨fun heq => ⟨hpower.1 h, (Option.some.inj heq).symm⟩, fun heq => by rw [heq.2]⟩
  · rename_i h
    exact ⟨nofun, fun heq => absurd (hpower.2 heq.1) h⟩

theorem timer_eq_some_iff {config : Config} {timer : Timer} :
    config.timer = some timer ↔ config.maxTimeout.asSecs * 10 ≤ 2 ^ 63 ∧
      timer = ⟨config.maxTimeout, 100, 2 ^ Nat.clog 2 (config.maxTimeout.asSecs * 10)⟩ := by
  simp only [Config.timer, Option.bind_eq_bind, Option.bind_eq_some_iff, usizeMul_eq_some_iff,
    nextPowerOfTwo_eq_some_iff, Option.pure_def, Option.some.injEq]
  constructor
  · rintro ⟨_, ⟨-, rfl⟩, _, ⟨hslots, rfl⟩, rfl⟩
    exact ⟨hslots, rfl⟩
  · rintro ⟨hslots, rfl⟩
    exact ⟨_, ⟨lt_of_le_of_lt hslots (by decide), rfl⟩, _, ⟨hslots, rfl⟩, rfl⟩

/-- The wheel of the settings is large enough. -/
theorem maxTimeout_le_wheel {config : Config} {timer : Timer} (h : config.timer = some timer)
    (hsecs : 1000 ∣ config.maxTimeout) :
    timer.maxTimeout ≤ timer.numSlots * timer.tickDuration := by
  obtain ⟨-, rfl⟩ := timer_eq_some_iff.1 h
  calc config.maxTimeout
      = config.maxTimeout.asSecs * 1000 := (Nat.div_mul_cancel hsecs).symm
    _ = config.maxTimeout.asSecs * 10 * 100 := (Nat.mul_assoc _ 10 100).symm
    _ ≤ 2 ^ Nat.clog 2 (config.maxTimeout.asSecs * 10) * 100 :=
      Nat.mul_le_mul_right _ (Nat.le_pow_clog (by decide) _)

/-- The calls of a gas price stream, if the node has one. -/
theorem forall_gasStream_iff {node : Config.Node} {bound : Duration} :
    (∀ call ∈ TimerCall.gasStream node, call.duration ≤ bound) ↔
      (node.gasPriceOracleUrl.isSome →
        cacheTimeoutDuration ≤ bound ∧ node.gasPriceTimeout ≤ bound) := by
  unfold TimerCall.gasStream
  split
  · rename_i hsome
    simp [TimerCall.gasPriceStream, TimerCall.duration, hsome]
  · rename_i hnone
    simp [hnone]

/-- The calls of the two nodes, whatever components make them. -/
theorem forall_process_iff {config : Config} {bound : Duration} :
    (∀ call ∈ TimerCall.process config, call.duration ≤ bound) ↔
      ∀ node ∈ [config.home, config.foreign],
        node.requestTimeout ≤ bound ∧ node.pollInterval ≤ bound ∧
          ∀ call ∈ TimerCall.gasStream node, call.duration ≤ bound := by
  simp only [TimerCall.process, TimerCall.bridgeEventStream, TimerCall.depositRelay,
    TimerCall.withdrawRelay, TimerCall.withdrawConfirm, TimerCall.logStream, TimerCall.nonceCheck,
    TimerCall.balanceCheck, TimerCall.chainIdRetrieval, List.forall_mem_append,
    List.forall_mem_cons, TimerCall.duration]
  tauto

/-- The durations of an accepted node, next to a bound in seconds. -/
theorem within_iff {load : Load.Node} {node : Config.Node} (h : Config.Node.Loads load node)
    {secs : Nat} :
    (node.pollInterval ≤ secs * 1000 ∧
      ∀ call ∈ TimerCall.gasStream node, call.duration ≤ secs * 1000) ↔ load.Within secs := by
  have hsecs (a : UInt64) : Duration.fromSecs a ≤ secs * 1000 ↔ a.toNat ≤ secs :=
    Nat.mul_le_mul_right_iff (by decide)
  have hcache : cacheTimeoutDuration ≤ secs * 1000 ↔ 300 ≤ secs := by
    have h300 : cacheTimeoutDuration = 300 * 1000 := rfl
    rw [h300]
    exact Nat.mul_le_mul_right_iff (by decide)
  rw [forall_gasStream_iff, h.poll, h.price, h.oracle, hsecs, hsecs, hcache]
  exact ⟨fun ⟨hpoll, horacle⟩ => ⟨hpoll, horacle⟩, fun ⟨hpoll, horacle⟩ => ⟨hpoll, horacle⟩⟩

/-- The default durations of a node are within five minutes. -/
theorem within_of_defaults {node : Load.Node} (hpoll : node.pollInterval = none)
    (hprice : node.gasPriceTimeout = none) {secs : Nat} (hsecs : 300 ≤ secs) :
    node.Within secs := by
  refine ⟨?_, fun _ => ⟨hsecs, ?_⟩⟩
  · rw [hpoll]
    exact le_trans (by decide) hsecs
  · rw [hprice]
    exact le_trans (by decide) hsecs

/-- The files whose settings accommodate every call: no poll interval and no duration of a
gas price stream is longer than the longest request timeout, which is not astronomical. -/
theorem accommodated_iff {load : Load.Config} {allowInsecureRpcEndpoints : Bool} {config : Config}
    (h : Config.fromLoadStruct load allowInsecureRpcEndpoints = .ok config) :
    config.Accommodated ↔ load.home.Within load.longest ∧ load.foreign.Within load.longest ∧
      load.longest * 10 ≤ 2 ^ 63 := by
  obtain ⟨hhome, hforeign⟩ := loads_of_config h
  have hmax := maxTimeout_of_loads hhome hforeign
  have hsecs : config.maxTimeout.asSecs = load.longest := by
    rw [hmax]
    exact Nat.mul_div_cancel _ (by decide)
  constructor
  · rintro ⟨timer, htimer, hcalls, -⟩
    obtain ⟨hslots, rfl⟩ := timer_eq_some_iff.1 htimer
    have hnodes := forall_process_iff.1 hcalls
    rw [hmax] at hnodes
    rw [hsecs] at hslots
    exact ⟨(within_iff hhome).1 (hnodes config.home (by simp)).2,
      (within_iff hforeign).1 (hnodes config.foreign (by simp)).2, hslots⟩
  · rintro ⟨hwithin, hwithin', hslots⟩
    rw [← hsecs] at hslots
    have htimer := timer_eq_some_iff.2 ⟨hslots, rfl⟩
    have hdvd : 1000 ∣ config.maxTimeout := ⟨load.longest, by rw [hmax, Nat.mul_comm]⟩
    refine ⟨_, htimer, forall_process_iff.2 ?_, maxTimeout_le_wheel htimer hdvd⟩
    rw [List.forall_mem_cons, List.forall_mem_singleton]
    refine ⟨⟨le_max_left _ _, ?_⟩, ⟨le_max_right _ _, ?_⟩⟩
    · exact hmax ▸ (within_iff hhome).2 hwithin
    · exact hmax ▸ (within_iff hforeign).2 hwithin'

/-- A node of a file that sets nothing it can leave out. -/
def plainNode (account : Address) : Load.Node where
  account := account
  requestTimeout := none
  pollInterval := none
  requiredConfirmations := none
  rpcHost := some "https://rpc.example"
  rpcPort := none
  password := "/password"
  gasPriceOracleUrl := none
  gasPriceSpeed := none
  gasPriceTimeout := none
  defaultGasPrice := none
  concurrentHttpRequests := none

def plainFile : Load.Config := ⟨plainNode 1, plainNode 2, none, "/keys"⟩

theorem accommodated_plainFile :
    ∃ config, Config.fromLoadStruct plainFile false = .ok config ∧ config.Accommodated := by
  have hload : ∃ config, Config.fromLoadStruct plainFile false = .ok config := ⟨_, by rfl⟩
  obtain ⟨config, hconfig⟩ := hload
  have hlongest : 300 ≤ plainFile.longest := by decide
  exact ⟨config, hconfig, (accommodated_iff hconfig).2
    ⟨within_of_defaults rfl rfl hlongest, within_of_defaults rfl rfl hlongest, by decide⟩⟩

/-- A file with short request timeouts and an oracle for the foreign node. -/
def oracleFile : Load.Config where
  home := { plainNode 1 with requestTimeout := some 5 }
  foreign := { plainNode 2 with
    requestTimeout := some 5
    gasPriceOracleUrl := some "https://gas.example/price" }
  transactions := none
  keystore := "/keys"

theorem cache_interval_too_long :
    ∃ config, Config.fromLoadStruct oracleFile false = .ok config ∧
      TimerCall.interval 300000 ∈ TimerCall.process config ∧ config.maxTimeout = 5000 ∧
      ¬ config.Accommodated := by
  have hload : ∃ config, Config.fromLoadStruct oracleFile false = .ok config := ⟨_, by rfl⟩
  obtain ⟨config, hconfig⟩ := hload
  obtain ⟨hhome, hforeign⟩ := loads_of_config hconfig
  have hmax : config.maxTimeout = 5000 := maxTimeout_of_loads hhome hforeign
  have hstream : TimerCall.interval 300000 ∈ TimerCall.gasStream config.foreign := by
    rw [TimerCall.gasStream, hforeign.oracle]
    exact List.mem_cons_self
  have hcall : TimerCall.interval 300000 ∈ TimerCall.process config := by
    simp [TimerCall.process, TimerCall.bridgeEventStream, hstream]
  refine ⟨config, hconfig, hcall, hmax, ?_⟩
  rintro ⟨timer, htimer, hcalls, -⟩
  obtain ⟨-, rfl⟩ := timer_eq_some_iff.1 htimer
  have hle := hcalls _ hcall
  rw [hmax] at hle
  exact absurd hle (by decide)

end PoaBridge
