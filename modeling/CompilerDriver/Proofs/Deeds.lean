import CompilerDriver.Run

namespace CompilerDriver

def Action.isLog : Action → Bool
  | log _ => true
  | _ => false

namespace Action

variable {γ : Type}

theorem filterMap_requests (inputs : List InputSource) :
    (inputs.map request).filterMap request? = inputs := by
  rw [List.filterMap_map]
  exact List.filterMap_some

theorem filterMap_requests_eq_nil {pick : Action → Option γ}
    (blind : ∀ input, pick (.request input) = none) (inputs : List InputSource) :
    (inputs.map request).filterMap pick = [] := by
  simp [List.filterMap_map, blind]

end Action

namespace Run

variable {ε ζ α β γ : Type}

@[simp] theorem result_fail (e : ε) : (fail e : Run ε α).result = .error e := rfl

@[simp] theorem result_act (action : Action) : (act action : Run ε Unit).result = .ok () := rfl

@[simp] theorem result_log (level : LogLevel) (component : Component) (message : String) :
    (log level component message : Run ε Unit).result = .ok () := rfl

@[simp] theorem result_logAll (events : List LogEvent) :
    (logAll events : Run ε Unit).result = .ok () := rfl

/-- What a run does besides logging. -/
def deeds (run : Run ε α) : List Action :=
  run.actions.filter (!·.isLog)

@[simp] theorem deeds_pure (a : α) : (pure a : Run ε α).deeds = [] := rfl

@[simp] theorem deeds_fail (e : ε) : (fail e : Run ε α).deeds = [] := rfl

@[simp] theorem deeds_ofExcept (result : Except ε α) : (ofExcept result).deeds = [] := rfl

@[simp] theorem deeds_mapError (f : ε → ζ) (run : Run ε α) : (run.mapError f).deeds = run.deeds :=
  rfl

@[simp] theorem deeds_log (level : LogLevel) (component : Component) (message : String) :
    (log level component message : Run ε Unit).deeds = [] := rfl

@[simp] theorem deeds_logAll (events : List LogEvent) :
    (logAll events : Run ε Unit).deeds = [] := by
  simp [deeds, logAll, Action.isLog]

theorem deeds_act {action : Action} (h : action.isLog = false) :
    (act action : Run ε Unit).deeds = [action] := by
  simp [deeds, act, h]

theorem deeds_bind_ok {run : Run ε α} {next : α → Run ε β} {a : α} (h : run.result = .ok a) :
    (run >>= next).deeds = run.deeds ++ (next a).deeds := by
  simp only [deeds, actions_bind_ok h, List.filter_append]

theorem deeds_bind_error {run : Run ε α} {next : α → Run ε β} {e : ε}
    (h : run.result = .error e) : (run >>= next).deeds = run.deeds := by
  simp only [deeds, actions_bind_error h]

/-- What log lines do not show can be picked from the deeds alone. -/
theorem filterMap_deeds {pick : Action → Option γ} (run : Run ε α)
    (blind : ∀ event, pick (.log event) = none) :
    run.deeds.filterMap pick = run.actions.filterMap pick := by
  rw [deeds, List.filterMap_filter]
  congr 1
  funext action
  cases action <;> simp [Action.isLog, blind]

theorem requests_eq_deeds (run : Run ε α) : run.requests = run.deeds.filterMap Action.request? :=
  (filterMap_deeds run fun _ => rfl).symm

theorem invocations_eq_deeds (run : Run ε α) :
    run.invocations = run.deeds.filterMap Action.invocation? :=
  (filterMap_deeds run fun _ => rfl).symm

theorem calls_eq_deeds (run : Run ε α) : run.calls = run.deeds.filterMap Action.call? :=
  (filterMap_deeds run fun _ => rfl).symm

end Run

end CompilerDriver
