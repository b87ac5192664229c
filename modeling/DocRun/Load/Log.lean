import DocRun.Settings.Basic

namespace DocRun.Load

-- Each level includes the ones before it.
inductive LogLevel where
  | off
  | warn
  | info
  | debug
  deriving DecidableEq, Repr

def LogLevel.rank : LogLevel → Nat
  | off => 0
  | warn => 1
  | info => 2
  | debug => 3

def LogLevel.label : LogLevel → String
  | off => "OFF"
  | warn => "WARN"
  | info => "INFO"
  | debug => "DEBUG"

def LogLevel.includes (level other : LogLevel) : Bool := other.rank ≤ level.rank

-- Where events go. Those within `written` are written down.
-- Those within `wanted` are put together, whether or not anyone is there to write them down.
structure Log where
  written : LogLevel
  wanted : LogLevel
  deriving DecidableEq, Repr

def Log.ofLevel (level : LogLevel) : Log := ⟨level, level⟩

-- The log of a load that comes after others in one process. With nobody there to write, no one
-- says what is wanted now, so what was wanted last stays wanted.
def Log.after (last : Log) (level : LogLevel) : Log :=
  if level = .off then ⟨.off, last.wanted⟩ else .ofLevel level

inductive Event where
  | applying (source : String)
  | initialized (project : String) (tier : Tier)
  | details (numThreads : UInt32) (includePaths ignorePaths ignoreNames markdownPaths : Nat)
  deriving DecidableEq, Repr

def Event.level : Event → LogLevel
  | applying _ => .debug
  | initialized _ _ => .info
  | details _ _ _ _ _ => .debug

def Event.message : Event → String
  | applying source => "applying configuration source " ++ source
  | initialized _ _ => "configuration initialized"
  | details _ _ _ _ _ => "configuration details"

end DocRun.Load
