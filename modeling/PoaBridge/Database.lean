import PoaBridge.Types

/-!
# The database

`Database` of `bridge/src/database.rs`, and the events with which
`bridge/src/bridge/mod.rs` changes it.
-/

namespace PoaBridge

structure Database where
  homeContractAddress : Address
  foreignContractAddress : Address
  homeDeploy : Option UInt64
  foreignDeploy : Option UInt64
  checkedDepositRelay : UInt64
  checkedWithdrawRelay : UInt64
  checkedWithdrawConfirm : UInt64
deriving DecidableEq, Repr

/-- The three components of the bridge that follow a chain. -/
inductive Relay where
  | depositRelay
  | withdrawRelay
  | withdrawConfirm
deriving DecidableEq, Repr

/-- `BridgeChecked`: the last block that a component has checked. -/
inductive BridgeChecked where
  | depositRelay (block : UInt64)
  | withdrawRelay (block : UInt64)
  | withdrawConfirm (block : UInt64)
deriving DecidableEq, Repr

namespace BridgeChecked

def relay : BridgeChecked → Relay
  | .depositRelay _ => .depositRelay
  | .withdrawRelay _ => .withdrawRelay
  | .withdrawConfirm _ => .withdrawConfirm

def block : BridgeChecked → UInt64
  | .depositRelay n => n
  | .withdrawRelay n => n
  | .withdrawConfirm n => n

end BridgeChecked

namespace Database

/-- The checkpoint of a component. -/
def checked (self : Database) : Relay → UInt64
  | .depositRelay => self.checkedDepositRelay
  | .withdrawRelay => self.checkedWithdrawRelay
  | .withdrawConfirm => self.checkedWithdrawConfirm

/-- What `Bridge::poll` does with an event before it saves the database. -/
def update (self : Database) : BridgeChecked → Database
  | .depositRelay n => { self with checkedDepositRelay := n }
  | .withdrawRelay n => { self with checkedWithdrawRelay := n }
  | .withdrawConfirm n => { self with checkedWithdrawConfirm := n }

@[simp] theorem checked_update_self (self : Database) (event : BridgeChecked) :
    (self.update event).checked event.relay = event.block := by
  cases event <;> rfl

theorem checked_update_of_ne (self : Database) {event : BridgeChecked} {relay : Relay}
    (h : relay ≠ event.relay) : (self.update event).checked relay = self.checked relay := by
  cases event <;> cases relay <;> first | rfl | exact absurd rfl h

@[simp] theorem homeContractAddress_update (self : Database) (event : BridgeChecked) :
    (self.update event).homeContractAddress = self.homeContractAddress := by
  cases event <;> rfl

@[simp] theorem foreignContractAddress_update (self : Database) (event : BridgeChecked) :
    (self.update event).foreignContractAddress = self.foreignContractAddress := by
  cases event <;> rfl

end Database

end PoaBridge
