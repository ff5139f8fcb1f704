import PoaBridge.Database
import PoaBridge.Lib.Decimal
import PoaBridge.Lib.TextFile
import PoaBridge.Solidity

/-!
# The text of the database

`Display` and `FromStr` of `Database` in `bridge/src/database.rs`, over the
`toml` crate.  `Database.display` is the text that the crate writes for this
record, as the unit test of the module has it: one line for each field, in
the order of the record, and none for a block number that is missing.

The parser of the crate is a parameter of the model, a `Toml`.  Its laws are
what TOML says about two kinds of text.  The text of a database is read back,
unless a number does not fit into the signed 64-bit integers of TOML.  In a
text of plain lines, without tables, comments, quoted keys or strings over
several lines, a field that was read is the number on a line that assigns it.
The numbers that are read from any text are integers of TOML.

`Database.display_eq` splits the text at the number of a checkpoint.
-/

namespace PoaBridge

open TextFile

/-! ## Lines and values -/

namespace Toml

def newline : UInt8 := 10
def blank : UInt8 := 32
def quote : UInt8 := 34
def hashSign : UInt8 := 35
def equals : UInt8 := 61

/-- A value of the database: a block number, or an address in a string. -/
inductive Value where
  | integer (n : Nat)
  | text (content : Bytes)
deriving DecidableEq, Repr

/-- The value as it is written. -/
def Value.display : Value → Bytes
  | .integer n => Decimal.digits n
  | .text content => quote :: content ++ [quote]

/-- The line `key = value`. -/
def assignment (key value : Bytes) : Bytes := key ++ blank :: equals :: blank :: value

/-- The ASCII code of a hexadecimal digit. -/
def hexDigit (n : Nat) : UInt8 := UInt8.ofNat (if n < 10 then 48 + n else 87 + n)

/-- Two digits for each byte. -/
def hex (bytes : Bytes) : Bytes :=
  bytes.flatMap fun b => [hexDigit (b.toNat / 16), hexDigit (b.toNat % 16)]

/-- An address as `H160` is serialized. -/
def address (a : Address) : Value := .text (asciiBytes "0x" ++ hex (addressBytes a))

end Toml

open Toml

namespace Database

/-- The fields of the record. -/
inductive Field where
  | homeContractAddress
  | foreignContractAddress
  | homeDeploy
  | foreignDeploy
  | checked (relay : Relay)
deriving DecidableEq, Repr

def Field.key : Field → Bytes
  | .homeContractAddress => asciiBytes "home_contract_address"
  | .foreignContractAddress => asciiBytes "foreign_contract_address"
  | .homeDeploy => asciiBytes "home_deploy"
  | .foreignDeploy => asciiBytes "foreign_deploy"
  | .checked .depositRelay => asciiBytes "checked_deposit_relay"
  | .checked .withdrawRelay => asciiBytes "checked_withdraw_relay"
  | .checked .withdrawConfirm => asciiBytes "checked_withdraw_confirm"

/-- The checkpoints, in the order of the record. -/
def relays : List Relay := [.depositRelay, .withdrawRelay, .withdrawConfirm]

/-- The fields before the checkpoints. -/
def contractFields (self : Database) : List (Field × Value) :=
  [(.homeContractAddress, address self.homeContractAddress),
    (.foreignContractAddress, address self.foreignContractAddress)]
  ++ (self.homeDeploy.map fun n => (Field.homeDeploy, Value.integer n.toNat)).toList
  ++ (self.foreignDeploy.map fun n => (Field.foreignDeploy, Value.integer n.toNat)).toList

def checkpointField (self : Database) (relay : Relay) : Field × Value :=
  (.checked relay, .integer (self.checked relay).toNat)

def fields (self : Database) : List (Field × Value) :=
  self.contractFields ++ relays.map self.checkpointField

/-- The line of a field. -/
def fieldLine (field : Field × Value) : Bytes := assignment field.1.key field.2.display

/-- `Database::fmt`. -/
def display (self : Database) : Bytes := unlines newline (self.fields.map fieldLine)

/-- The block numbers of a database. -/
def blockNumbers (self : Database) : List UInt64 :=
  self.homeDeploy.toList ++ self.foreignDeploy.toList ++ relays.map self.checked

/-- The integers of TOML are signed and have 64 bits. -/
def Representable (self : Database) : Prop := ∀ n ∈ self.blockNumbers, n.toNat < 2 ^ 63

instance (self : Database) : Decidable self.Representable :=
  List.decidableBAll (fun n : UInt64 => n.toNat < 2 ^ 63) self.blockNumbers

end Database

/-! ## The parser -/

namespace Toml

/-- A letter, a digit or an underscore. -/
def IsWord (b : UInt8) : Prop := (97 ≤ b.toNat ∧ b.toNat ≤ 122) ∨ Decimal.IsDigit b ∨ b = 95

instance (b : UInt8) : Decidable (IsWord b) := inferInstanceAs (Decidable (_ ∨ _))

def IsBlank (bytes : Bytes) : Prop := ∀ b ∈ bytes, b = blank

/-- The line assigns a literal to a key. -/
def Assigns (line key literal : Bytes) : Prop :=
  (∀ b ∈ literal, IsWord b) ∧ ∃ blank₁ blank₂ blank₃ blank₄, IsBlank blank₁ ∧ IsBlank blank₂ ∧
    IsBlank blank₃ ∧ IsBlank blank₄ ∧
    line = blank₁ ++ key ++ blank₂ ++ equals :: (blank₃ ++ literal ++ blank₄)

/-- A line with the address of a contract, as a database has it. -/
def IsAddressLine (line : Bytes) : Prop :=
  ∃ key a, (∀ b ∈ key, IsWord b) ∧ line = assignment key (address a).display

/-- The line has words, blanks and equals signs. -/
def IsBare (line : Bytes) : Prop := ∀ b ∈ line, IsWord b ∨ b = blank ∨ b = equals

/-- Every line is bare, addresses apart. -/
def IsPlain (text : Bytes) : Prop :=
  ∀ line ∈ text.splitOn newline, IsAddressLine line ∨ IsBare line

end Toml

/-- `toml::from_str` for the database, with what the model uses of it.  A text
that is refused gives `none`. -/
structure Toml where
  fromStr : Bytes → Option Database
  fromStr_display : ∀ database : Database,
    fromStr database.display = if database.Representable then some database else none
  fromStr_representable : ∀ text database, fromStr text = some database → database.Representable
  fromStr_plain : ∀ text database, IsPlain text → fromStr text = some database → ∀ relay,
    ∃ line ∈ text.splitOn newline, ∃ literal,
      Assigns line (Database.Field.checked relay).key literal ∧
      ((∀ b ∈ literal, Decimal.IsDigit b) →
        Decimal.value literal = (database.checked relay).toNat)

/-- `Database::load` of a file that exists. -/
def Database.load (toml : Toml) (file : Bytes) : Option Database := toml.fromStr file

/-! ## The bytes of the text -/

namespace Toml

theorem forall_isWord {bytes : Bytes} (h : bytes.all fun b => decide (IsWord b)) :
    ∀ b ∈ bytes, IsWord b :=
  fun b hb => of_decide_eq_true (List.all_eq_true.1 h b hb)

theorem not_isWord {b : UInt8} (h : b ∈ [newline, blank, quote, hashSign, equals]) :
    ¬ IsWord b := by
  simp only [List.mem_cons, List.not_mem_nil, or_false] at h
  rcases h with rfl | rfl | rfl | rfl | rfl <;> decide

theorem isWord_of_isDigit {b : UInt8} (h : Decimal.IsDigit b) : IsWord b := .inr (.inl h)

theorem ne_of_isWord {b c : UInt8} (hb : IsWord b)
    (hc : c ∈ [newline, blank, quote, hashSign, equals]) : b ≠ c := by
  rintro rfl
  exact not_isWord hc hb

/-- The values that the database writes. -/
def Value.IsClean : Value → Prop
  | .integer _ => True
  | .text content => ∀ b ∈ content, IsWord b

theorem isWord_hexDigit : ∀ n < 16, IsWord (hexDigit n) := by decide

theorem isWord_of_mem_hex {bytes : Bytes} : ∀ b ∈ hex bytes, IsWord b := by
  intro b hb
  obtain ⟨byte, -, hb⟩ := List.mem_flatMap.1 hb
  have hlt : byte.toNat < 256 := byte.toNat_lt
  rcases List.mem_cons.1 hb with rfl | hb
  · exact isWord_hexDigit _ (by omega)
  · rw [List.mem_singleton.1 hb]
    exact isWord_hexDigit _ (by omega)

theorem address_isClean (a : Address) : (address a).IsClean := by
  intro b hb
  rcases List.mem_append.1 hb with hb | hb
  · exact @forall_isWord (asciiBytes "0x") (by decide) b hb
  · exact isWord_of_mem_hex b hb

theorem isWord_key (field : Database.Field) : ∀ b ∈ field.key, IsWord b := by
  rcases field with _ | _ | _ | _ | _ | _ | _ <;> exact forall_isWord (by decide)

theorem isClean_of_mem_fields {database : Database} :
    ∀ field ∈ database.fields, field.2.IsClean := by
  intro field hfield
  simp only [Database.fields, Database.contractFields, List.mem_append, List.mem_cons,
    Option.mem_toList, Option.map_eq_some_iff, List.mem_map, List.not_mem_nil,
    or_false] at hfield
  rcases hfield with (((rfl | rfl) | ⟨n, -, rfl⟩) | ⟨n, -, rfl⟩) | ⟨relay, -, rfl⟩
  · exact address_isClean _
  · exact address_isClean _
  · trivial
  · trivial
  · trivial

theorem assignment_eq (key literal : Bytes) :
    assignment key literal = (key ++ [blank]) ++ equals :: ([blank] ++ literal) := by
  simp [assignment]

/-- A value is written with words and quotes. -/
theorem isWord_of_mem_display {value : Value} (h : value.IsClean) :
    ∀ b ∈ value.display, IsWord b ∨ b = quote := by
  cases value with
  | integer n => exact fun b hb => .inl (isWord_of_isDigit (Decimal.isDigit_of_mem_digits b hb))
  | text content =>
    intro b hb
    rw [Value.display, List.cons_append, List.mem_cons, List.mem_append, List.mem_singleton] at hb
    rcases hb with hb | hb | hb
    · exact .inr hb
    · exact .inl (h b hb)
    · exact .inr hb

theorem not_mem_display {value : Value} (h : value.IsClean) :
    ∀ b ∈ [newline, blank, equals], b ∉ value.display := by
  intro b hb hmem
  simp only [List.mem_cons, List.not_mem_nil, or_false] at hb
  rcases isWord_of_mem_display h b hmem with hword | hquote
  · exact ne_of_isWord hword (by rcases hb with rfl | rfl | rfl <;> simp) rfl
  · subst hquote
    rcases hb with hb | hb | hb <;> exact absurd hb (by decide)

/-- No field goes beyond its line. -/
theorem newline_not_mem_fieldLine {field : Database.Field × Value} (h : field.2.IsClean) :
    newline ∉ Database.fieldLine field := by
  intro hmem
  rw [Database.fieldLine, assignment, List.mem_append, List.mem_cons, List.mem_cons, List.mem_cons]
    at hmem
  rcases hmem with hmem | hmem | hmem | hmem | hmem
  · exact ne_of_isWord (isWord_key field.1 newline hmem) (by simp) rfl
  · exact absurd hmem (by decide)
  · exact absurd hmem (by decide)
  · exact absurd hmem (by decide)
  · exact not_mem_display h newline (by simp) hmem

/-- The keys tell the fields apart. -/
theorem key_inj {f g : Database.Field} : f.key = g.key ↔ f = g := by
  rcases f with _ | _ | _ | _ | _ | _ | _ <;> rcases g with _ | _ | _ | _ | _ | _ | _ <;> decide

end Toml

/-! ## The parts of the text -/

namespace Database

/-- The relays whose checkpoints come before that of a relay. -/
def before (relay : Relay) : List Relay := relays.takeWhile (· != relay)

/-- The relays whose checkpoints come after that of a relay. -/
def after (relay : Relay) : List Relay := (relays.dropWhile (· != relay)).tail

theorem relays_eq (relay : Relay) : relays = before relay ++ relay :: after relay := by
  cases relay <;> rfl

theorem not_mem_before_append_after (relay : Relay) : relay ∉ before relay ++ after relay := by
  cases relay <;> decide

def contractLines (self : Database) : List Bytes := self.contractFields.map fieldLine

def checkpointLine (self : Database) (relay : Relay) : Bytes :=
  fieldLine (self.checkpointField relay)

/-- The text up to the number of a checkpoint. -/
def textBefore (self : Database) (relay : Relay) : Bytes :=
  unlines newline (self.contractLines ++ (before relay).map self.checkpointLine)
    ++ assignment (Field.checked relay).key []

/-- The text behind the number of a checkpoint. -/
def textAfter (self : Database) (relay : Relay) : Bytes :=
  newline :: unlines newline ((after relay).map self.checkpointLine)

theorem display_eq_unlines (self : Database) (relay : Relay) :
    self.display = unlines newline (self.contractLines ++ (before relay).map self.checkpointLine)
      ++ unlines newline (self.checkpointLine relay :: (after relay).map self.checkpointLine) := by
  have hlines : self.fields.map fieldLine
      = (self.contractLines ++ (before relay).map self.checkpointLine)
        ++ (self.checkpointLine relay :: (after relay).map self.checkpointLine) := by
    rw [fields, relays_eq relay, List.map_append, List.map_map, List.map_append, List.map_cons,
      List.append_assoc]
    rfl
  rw [display, hlines, unlines_append]

theorem display_eq (self : Database) (relay : Relay) :
    self.display = self.textBefore relay ++ Decimal.digits (self.checked relay).toNat
      ++ self.textAfter relay := by
  rw [display_eq_unlines self relay, unlines_cons, textBefore, textAfter]
  simp [checkpointLine, checkpointField, fieldLine, assignment, Value.display]

theorem textBefore_update (self : Database) (check : BridgeChecked) :
    (self.update check).textBefore check.relay = self.textBefore check.relay := by
  cases check <;> rfl

theorem textAfter_update (self : Database) (check : BridgeChecked) :
    (self.update check).textAfter check.relay = self.textAfter check.relay := by
  cases check <;> rfl

theorem display_update (self : Database) (check : BridgeChecked) :
    (self.update check).display = self.textBefore check.relay
      ++ Decimal.digits check.block.toNat ++ self.textAfter check.relay := by
  rw [display_eq _ check.relay, textBefore_update, textAfter_update, checked_update_self]

/-- An event changes the length of the text by the digits of its block. -/
theorem length_display_update (self : Database) (check : BridgeChecked) :
    (self.update check).display.length + (Decimal.digits (self.checked check.relay).toNat).length
      = self.display.length + (Decimal.digits check.block.toNat).length := by
  rw [display_update, display_eq self check.relay]
  simp only [List.length_append]
  omega

end Database

end PoaBridge
