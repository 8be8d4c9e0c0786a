import CompilerDriver.CompilerProcess

namespace CompilerDriver

/-- What a run does that can be seen from outside. -/
inductive Action where
  /-- An event was logged. -/
  | log (event : LogEvent)
  /-- An input was asked for. -/
  | request (input : InputSource)
  /-- A compilation was handed over. -/
  | invoke (invocation : Invocation)
  /-- The compiler was started. -/
  | start (call : CompilerCall)
  /-- Text was written to the standard error stream. -/
  | report (text : Bytes)

namespace Action

def event? : Action → Option LogEvent
  | log event => some event
  | _ => none

def request? : Action → Option InputSource
  | request input => some input
  | _ => none

def invocation? : Action → Option Invocation
  | invoke invocation => some invocation
  | _ => none

def call? : Action → Option CompilerCall
  | start call => some call
  | _ => none

end Action

/-- A computation that may fail, with all that it did up to its end. -/
structure Run (ε α : Type) where
  actions : List Action
  result : Except ε α

namespace Run

variable {ε ζ α β : Type}

def bind (run : Run ε α) (next : α → Run ε β) : Run ε β :=
  match run.result with
  | .ok a => ⟨run.actions ++ (next a).actions, (next a).result⟩
  | .error e => ⟨run.actions, .error e⟩

instance : Monad (Run ε) where
  pure a := ⟨[], .ok a⟩
  bind := bind

@[simp] theorem result_pure (a : α) : (pure a : Run ε α).result = .ok a := rfl

@[simp] theorem actions_pure (a : α) : (pure a : Run ε α).actions = [] := rfl

@[simp] theorem result_bind (run : Run ε α) (next : α → Run ε β) :
    (run >>= next).result = run.result.bind fun a => (next a).result := by
  show (run.bind next).result = _
  unfold bind Except.bind
  cases run.result <;> rfl

theorem actions_bind_ok {run : Run ε α} {next : α → Run ε β} {a : α} (h : run.result = .ok a) :
    (run >>= next).actions = run.actions ++ (next a).actions := by
  show (run.bind next).actions = _
  simp [bind, h]

theorem actions_bind_error {run : Run ε α} {next : α → Run ε β} {e : ε}
    (h : run.result = .error e) : (run >>= next).actions = run.actions := by
  show (run.bind next).actions = _
  simp [bind, h]

def fail (e : ε) : Run ε α :=
  ⟨[], .error e⟩

def ofExcept (result : Except ε α) : Run ε α :=
  ⟨[], result⟩

def act (action : Action) : Run ε Unit :=
  ⟨[action], .ok ()⟩

def log (level : LogLevel) (component : Component) (message : String) : Run ε Unit :=
  act (.log ⟨level, component, message⟩)

def logAll (events : List LogEvent) : Run ε Unit :=
  ⟨events.map .log, .ok ()⟩

def mapError (f : ε → ζ) (run : Run ε α) : Run ζ α :=
  ⟨run.actions, run.result.mapError f⟩

@[simp] theorem result_ofExcept (result : Except ε α) : (ofExcept result).result = result := rfl

@[simp] theorem result_mapError (f : ε → ζ) (run : Run ε α) :
    (run.mapError f).result = run.result.mapError f := rfl

def events (run : Run ε α) : List LogEvent :=
  run.actions.filterMap Action.event?

def requests (run : Run ε α) : List InputSource :=
  run.actions.filterMap Action.request?

def invocations (run : Run ε α) : List Invocation :=
  run.actions.filterMap Action.invocation?

def calls (run : Run ε α) : List CompilerCall :=
  run.actions.filterMap Action.call?

end Run

end CompilerDriver
