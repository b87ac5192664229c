import DocRun.Proofs.Load.Trace
import Mathlib.Data.List.Induction

namespace DocRun.Load

def Call.isName : Call → Bool
  | name _ => true
  | _ => false

-- Calls that are made under a log. The names of sources are asked for only where the log wants
-- the events that they stand in.
def Log.hears (log : Log) (call : Call) : Bool := !call.isName || log.wanted.includes .debug

def Log.writes (log : Log) (event : Event) : Bool := log.written.includes event.level

-- What is left of a run at level debug under another log.
def Run.through {α : Type} (log : Log) (run : Run α) : Run α where
  result := run.result
  calls := run.calls.filter log.hears
  log := run.log.filter log.writes

section

variable {α β : Type} {log : Log}

-- One step of the comparison. Under either log the second part starts from the same value.
theorem Run.through_bind (run : Run α) (next : α → Run β) :
    (run >>= next).through log = run.through log >>= fun value => (next value).through log := by
  cases hr : run.result with
  | ok value =>
      have hthrough : (run.through log).result = .ok value := hr
      rw [bind_of_ok _ hr, bind_of_ok _ hthrough]
      simp only [through, List.filter_append]
  | error error =>
      have hthrough : (run.through log).result = .error error := hr
      rw [bind_of_error _ hr, bind_of_error _ hthrough]
      rfl

theorem LogLevel.debug_includes (level : LogLevel) : LogLevel.debug.includes level = true := by
  cases level <;> rfl

theorem event_eq_through (event : Event) :
    Run.event log event = (Run.event (.ofLevel .debug) event).through log := by
  have hdebug : Run.event (.ofLevel .debug) event = { result := .ok (), log := [event] } := by
    simp only [Run.event, Log.ofLevel, LogLevel.debug_includes, if_true]
  rw [hdebug]
  simp only [Run.event, Run.through, List.filter_cons, List.filter_nil, Log.writes]
  rfl

theorem build_eq_through (settings : Settings) :
    build log settings = (build (.ofLevel .debug) settings).through log := by
  unfold build
  cases settings.build with
  | error error => rfl
  | ok config => simp only [Run.through_bind, ← event_eq_through]; rfl

theorem log_build (settings : Settings) :
    (build log settings).log =
      (match settings.build with
        | .ok config => pair config
        | .error _ => []).filter log.writes := by
  rw [build_eq_through, build_debug]
  rfl

theorem Action.run_eq_through (settings : Settings) (action : Action) :
    action.run log settings = (action.run (.ofLevel .debug) settings).through log := by
  cases action with
  | check =>
      simp only [Action.run, Run.through_bind, ← build_eq_through]
      rfl
  | _ => rfl

theorem Action.runAll_eq_through (settings : Settings) (actions : List Action) :
    runAll log settings actions = (runAll (.ofLevel .debug) settings actions).through log := by
  induction actions generalizing settings with
  | nil => rfl
  | cons action actions ih =>
      rw [runAll, runAll, Run.through_bind, ← run_eq_through]
      simp only [ih]

-- A log that wants what it writes down keeps every announcement together.
theorem announce_eq_through (h : log.written.rank ≤ log.wanted.rank) (source : Source) :
    announce log source = (announce (.ofLevel .debug) source).through log := by
  have hdebug : announce (.ofLevel .debug) source =
      Run.call (.name source.name) >>= fun _ =>
        Run.event (.ofLevel .debug) (.applying source.name) := rfl
  rw [announce, hdebug, Run.through_bind, ← event_eq_through]
  cases hw : log.wanted.includes .debug with
  | true =>
      have hname : (Run.call (.name source.name)).through log = Run.call (.name source.name) := by
        simp [Run.call, Run.through, Log.hears, hw]
      rw [if_pos rfl, hname]
  | false =>
      have hname : (Run.call (.name source.name)).through log = pure () := by
        simp [Run.call, Run.through, Log.hears, Call.isName, hw, pure]
      have hevent : Run.event log (.applying source.name) = pure () := by
        have hlow : log.written.includes .debug = false := by
          simp only [LogLevel.includes, decide_eq_false_iff_not] at hw ⊢
          omega
        simp [Run.event, Event.level, hlow, pure]
      rw [if_neg Bool.false_ne_true, hname, hevent]
      rfl

theorem Source.run_eq_through (h : log.written.rank ≤ log.wanted.rank) (settings : Settings)
    (source : Source) :
    Source.run log settings source =
      (Source.run (.ofLevel .debug) settings source).through log := by
  have hcall : Run.call (.populate source.name) =
      (Run.call (.populate source.name)).through log := rfl
  rw [Source.run, Source.run, Run.through_bind, ← announce_eq_through h]
  simp only [Source.populate, Run.through_bind, ← hcall, ← Action.runAll_eq_through]

end

-- The calls of a load at level debug: drafts, and sources that are named and then asked.
inductive Announced : List Call → Prop
  | nil : Announced []
  | seen (config : Config) {calls : List Call} (h : Announced calls) :
      Announced (.seen config :: calls)
  | source (name : String) {calls : List Call} (h : Announced calls) :
      Announced (.name name :: .populate name :: calls)

theorem Announced.append {calls more : List Call} (h : Announced calls) (hm : Announced more) :
    Announced (calls ++ more) := by
  induction h with
  | nil => exact hm
  | seen config _ ih => exact .seen config ih
  | source name _ ih => exact .source name ih

theorem Announced.bind {α β : Type} {run : Run α} {next : α → Run β} (h : Announced run.calls)
    (hn : ∀ value, Announced (next value).calls) : Announced (run >>= next).calls := by
  cases hr : run.result with
  | ok value =>
      rw [Run.bind_of_ok _ hr]
      exact h.append (hn value)
  | error error =>
      rw [Run.bind_of_error _ hr]
      exact h

end DocRun.Load
