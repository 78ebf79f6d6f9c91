import DebugAdapter.Log.Level

/-!
# The log switch

The logger in use and the level up to which records are handed to it. Both are replaced together. The
logger itself is asked only whether it would take a record, not before it gets one.
-/

namespace DebugAdapter

/-- The logger in use, and up to which level it is used. -/
structure LogSwitch (L : Type) where
  active : Option L := none
  verbosity : Verbosity := .off

namespace LogSwitch

variable {L : Type}

/-- Use another logger. -/
def install (_ : LogSwitch L) (logger : L) (verbosity : Verbosity) : LogSwitch L :=
  ⟨some logger, verbosity⟩

/-- The logger that gets records of a level. -/
def receiver? (s : LogSwitch L) (level : LogLevel) : Option L :=
  if s.verbosity.allows level then s.active else none

/-- Records of a level are worth making. -/
def enabled (s : LogSwitch L) (accepts : L → LogLevel → Bool) (level : LogLevel) : Bool :=
  (s.receiver? level).any (accepts · level)

/-- A logger that is installed for all levels gets the records of each of them. -/
theorem receiver?_install (s : LogSwitch L) (logger : L) (level : LogLevel) :
    (s.install logger (.upTo .trace)).receiver? level = some logger := by
  cases level <;> simp [install, receiver?, Verbosity.allows, Verbosity.rank, LogLevel.rank]

end LogSwitch

end DebugAdapter
