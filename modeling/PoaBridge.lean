import PoaBridge.Lib.PollLoop
import PoaBridge.Lib.Results
import PoaBridge.Lib.Futures
import PoaBridge.Lib.Runs
import PoaBridge.Lib.Loops
import PoaBridge.Lib.Traces
import PoaBridge.Lib.LockStep
import PoaBridge.Lib.Ledger
import PoaBridge.Lib.Exchange
import PoaBridge.Lib.Allowances
import PoaBridge.Lib.Ballot
import PoaBridge.Lib.BigEndian
import PoaBridge.Lib.Rlp
import PoaBridge.Lib.Decimal
import PoaBridge.Lib.TextFile
import PoaBridge.Types
import PoaBridge.Config
import PoaBridge.Timer
import PoaBridge.Database
import PoaBridge.Solidity
import PoaBridge.Abi
import PoaBridge.Message
import PoaBridge.Signature
import PoaBridge.LogStream
import PoaBridge.Nonce
import PoaBridge.TransactionId
import PoaBridge.NoncePool
import PoaBridge.NonceProgress
import PoaBridge.Relay
import PoaBridge.LogRequest
import PoaBridge.DepositRelay
import PoaBridge.WithdrawConfirm
import PoaBridge.WithdrawRelay
import PoaBridge.Monitor
import PoaBridge.GasPrice
import PoaBridge.EventStream
import PoaBridge.Readings
import PoaBridge.KnownBalances
import PoaBridge.Bridge
import PoaBridge.PriceIndependence
import PoaBridge.Budget
import PoaBridge.DatabaseText
import PoaBridge.DatabaseParser
import PoaBridge.DatabaseFile
import PoaBridge.TornSave
import PoaBridge.Deploy
import PoaBridge.FirstSave
import PoaBridge.Installation
import PoaBridge.Observer
import PoaBridge.Delivery
import PoaBridge.ExactlyOnce
import PoaBridge.Truffle.Validators
import PoaBridge.Truffle.Registry
import PoaBridge.Truffle.Foreign
import PoaBridge.Truffle.Management
import PoaBridge.Truffle.Collection
import PoaBridge.Truffle.Home
import PoaBridge.Truffle.Initialization
import PoaBridge.Truffle.DepositDirection
import PoaBridge.Truffle.DepositDelivery
import PoaBridge.Truffle.WithdrawDirection
import PoaBridge.Contracts.Foreign
import PoaBridge.Contracts.Quorum
import PoaBridge.Contracts.Deposits
import PoaBridge.Contracts.Governance
import PoaBridge.Contracts.Token
import PoaBridge.Contracts.Custody
import PoaBridge.Contracts.Holdings
import PoaBridge.Contracts.Home
import PoaBridge.Contracts.HomeRuns
import PoaBridge.Contracts.Journal
import PoaBridge.Contracts.TwoChains
import PoaBridge.Contracts.Peg
import PoaBridge.WithdrawSubmission
import PoaBridge.WithdrawAssembly
import PoaBridge.BatchCost
import PoaBridge.Panics
import PoaBridge.ExitCodes
import PoaBridge.Shutdown
import PoaBridge.RelayProgress
import PoaBridge.AnsweredRelays
import PoaBridge.CatchUp
