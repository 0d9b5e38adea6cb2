import K2eg.Model.MonitorChecker
import K2eg.Model.TopicHandlers

/-! # The checker and the handlers

The broadcasts of `MonitorChecker` call `handleMonitorCheckEvents` on the thread of the broadcast,
which goes on when the call has returned. -/

namespace K2eg

/-- `storing` and `purging` are the last calls that `storeMonitorData` and the scan have made. -/
structure MonitorSystem where
  checker : MonitorChecker
  handlers : TopicHandlers := {}
  storing : ℕ → Option ℕ := fun _ => none
  purging : Option ℕ := none

inductive SystemStep where
  | checker (step : CheckerStep)
  | handler (call : ℕ)

namespace MonitorSystem

/-- The call of a broadcast has returned. -/
def returned (system : MonitorSystem) (call : Option ℕ) : Bool :=
  match call with
  | none => true
  | some i =>
    match system.handlers.calls[i]? with
    | none => true
    | some call => decide (call.phase = .ended)

/-- A step of the checker, with the broadcast it makes. -/
def nextChecker (system : MonitorSystem) (step : CheckerStep) : Option MonitorSystem :=
  match step with
  | .storeBroadcast call =>
    match system.checker.starts call with
    | [] => none
    | monitor :: _ =>
      if system.returned (system.storing call) then
        (system.checker.next step).map fun checker => { system with
          checker
          handlers := system.handlers.receive ⟨.start, monitor⟩
          storing := Function.update system.storing call (some system.handlers.calls.length) }
      else none
  | .scanHandle .. => (system.checker.next step).map fun checker =>
    match checker.scan with
    | .stopping _ _ _ row => { system with
      checker
      handlers := system.handlers.receive ⟨.stop, row⟩
      purging := some system.handlers.calls.length }
    | _ => { system with checker }
  | .scanDelete _ =>
    if system.returned system.purging then
      (system.checker.next step).map fun checker => { system with checker }
    else none
  | step => (system.checker.next step).map fun checker => { system with checker }

def next (system : MonitorSystem) : SystemStep → Option MonitorSystem
  | .checker step => system.nextChecker step
  | .handler call => (system.handlers.next (.run call)).map fun handlers =>
    { system with handlers }

/-- The checker of a node without monitors, and no calls. -/
def initial (configuration : MonitorCheckerConfiguration) (clock : Int) : MonitorSystem where
  checker := .initial configuration clock

end MonitorSystem

end K2eg
