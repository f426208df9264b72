/-
# Levels of text messages

A text in a log has a level, written as one of the digits `0` to `7`. Any other
byte is read as no level, which is written as zero.

Key definitions: `Level`, `Level.toByte`, `Level.ofByte`.
Key theorems: `Level.ofByte_toByte`, `Level.toByte_ofByte`.
-/

namespace FlightLink
namespace Log

/-- The level of a text message. -/
inductive Level where
  | undefined
  | emergency
  | alert
  | critical
  | error
  | warning
  | notice
  | info
  | debug
  deriving DecidableEq, Repr

namespace Level

/-- The byte of a level: the digits `0` to `7`, and zero for none. -/
def toByte : Level → UInt8
  | undefined => 0
  | emergency => 0x30
  | alert => 0x31
  | critical => 0x32
  | error => 0x33
  | warning => 0x34
  | notice => 0x35
  | info => 0x36
  | debug => 0x37

/-- The level of a byte; every byte that is no digit from `0` to `7` stands for none. -/
def ofByte (b : UInt8) : Level :=
  if b = 0x30 then emergency
  else if b = 0x31 then alert
  else if b = 0x32 then critical
  else if b = 0x33 then error
  else if b = 0x34 then warning
  else if b = 0x35 then notice
  else if b = 0x36 then info
  else if b = 0x37 then debug
  else undefined

theorem ofByte_toByte (level : Level) : ofByte level.toByte = level := by
  cases level <;> decide

/-- Reading forgets only bytes that stand for no level. -/
theorem toByte_ofByte {b : UInt8} (h : ofByte b ≠ undefined) : (ofByte b).toByte = b := by
  unfold ofByte at h ⊢
  repeat' split
  all_goals simp_all [toByte]

def name : Level → String
  | undefined => "Undefined"
  | emergency => "Emergency"
  | alert => "Alert"
  | critical => "Critical"
  | error => "Error"
  | warning => "Warning"
  | notice => "Notice"
  | info => "Info"
  | debug => "Debug"

/-- All levels, none first. -/
def all : List Level :=
  [undefined, emergency, alert, critical, error, warning, notice, info, debug]

end Level

end Log
end FlightLink
