import DocRun.Config.Basic
import DocRun.Load.Log

namespace DocRun.Load

inductive Call where
  | name (source : String)
  | populate (source : String)
  | seen (config : Config)
  deriving DecidableEq, Repr

structure Run (α : Type) where
  result : Except ConfigError α
  calls : List Call := []
  log : List Event := []

namespace Run

variable {α β : Type}

-- What happened before the second run stays in front. After an error there is no second run.
def bind (run : Run α) (next : α → Run β) : Run β :=
  match run.result with
  | .ok value =>
    let rest := next value
    ⟨rest.result, run.calls ++ rest.calls, run.log ++ rest.log⟩
  | .error error => ⟨.error error, run.calls, run.log⟩

instance : Monad Run where
  pure value := { result := .ok value }
  bind := bind

def fail (error : ConfigError) : Run α := { result := .error error }

def call (call : Call) : Run Unit := { result := .ok (), calls := [call] }

def event (log : Log) (event : Event) : Run Unit :=
  { result := .ok (), log := if log.written.includes event.level then [event] else [] }

end Run

end DocRun.Load
