/-!
# Codes of command frames

The instruction of a frame selects a command, and its first parameter selects
a variant of some commands.  Each of these choices is a finite type with a
code for every member; a code that belongs to no member is refused.
-/

namespace NearSigner

/-- The commands of the device. -/
inductive Instruction
  /-- Sign a transaction sent in fragments, or a hash. -/
  | sign
  /-- Return the public key of a path. -/
  | getPublicKey
  /-- Show and return the wallet identifier of a path. -/
  | getWalletId
  /-- Return the version of the application. -/
  | getConfiguration
deriving DecidableEq, Repr

namespace Instruction

/-- Every instruction. -/
def all : List Instruction :=
  [.sign, .getPublicKey, .getWalletId, .getConfiguration]

/-- The code of an instruction in a frame. -/
def code : Instruction → UInt8
  | .sign => 0x02
  | .getPublicKey => 0x04
  | .getWalletId => 0x05
  | .getConfiguration => 0x06

/-- The name of an instruction. -/
def name : Instruction → String
  | .sign => "Sign"
  | .getPublicKey => "GetPublicKey"
  | .getWalletId => "GetWalletId"
  | .getConfiguration => "GetConfiguration"

/-- The instruction with a code. -/
def ofCode? (code : UInt8) : Option Instruction :=
  all.find? (·.code == code)

@[simp]
theorem ofCode?_code (instruction : Instruction) :
    ofCode? instruction.code = some instruction := by
  cases instruction <;> rfl

end Instruction

/-- Whether a requested public key is shown before it is returned. -/
inductive KeyDisplay
  /-- The user has to approve the key. -/
  | confirm
  /-- The key is returned without interaction. -/
  | silent
deriving DecidableEq, Repr

namespace KeyDisplay

/-- Every choice. -/
def all : List KeyDisplay :=
  [.confirm, .silent]

/-- The code of a choice in the first parameter. -/
def code : KeyDisplay → UInt8
  | .confirm => 0x00
  | .silent => 0x01

/-- The name of a choice. -/
def name : KeyDisplay → String
  | .confirm => "Confirm"
  | .silent => "Silent"

/-- The choice with a code. -/
def ofCode? (code : UInt8) : Option KeyDisplay :=
  all.find? (·.code == code)

@[simp]
theorem ofCode?_code (display : KeyDisplay) :
    ofCode? display.code = some display := by
  cases display <;> rfl

end KeyDisplay

/-- What the data of a signing frame is. -/
inductive SignMode
  /-- A fragment of a transaction that another one follows. -/
  | more
  /-- The last fragment of a transaction. -/
  | last
  /-- A path and a hash to be signed as it stands. -/
  | blind
deriving DecidableEq, Repr

namespace SignMode

/-- Every mode. -/
def all : List SignMode :=
  [.more, .last, .blind]

/-- The code of a mode in the first parameter. -/
def code : SignMode → UInt8
  | .more => 0x00
  | .last => 0x80
  | .blind => 0x01

/-- The name of a mode. -/
def name : SignMode → String
  | .more => "More"
  | .last => "Last"
  | .blind => "Blind"

/-- The mode with a code. -/
def ofCode? (code : UInt8) : Option SignMode :=
  all.find? (·.code == code)

@[simp]
theorem ofCode?_code (mode : SignMode) : ofCode? mode.code = some mode := by
  cases mode <;> rfl

end SignMode

end NearSigner
