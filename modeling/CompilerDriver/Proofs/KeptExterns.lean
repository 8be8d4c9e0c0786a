import CompilerDriver.Proofs.JoinedReads

namespace CompilerDriver

/-- What a process finds around it, apart from what it keeps itself. -/
structure Surroundings where
  files : Files
  environment : Option Path

namespace Surroundings

open Session (Step)

/-- The surroundings behind a step; only those that change them make a difference. -/
def after (around : Surroundings) : Step → Surroundings
  | .setEnvironment environment => { around with environment }
  | .setFiles files => { around with files }
  | .loadFrom _ | .load | .compile .. | .compileInputs .. => around

/-- The directory that a step has in mind for the default externs, if it needs them. -/
def directory? (around : Surroundings) : Step → Option Path
  | .loadFrom directory => some directory
  | .load | .compile .. | .compileInputs .. => some (DefaultExterns.directory around.environment)
  | .setEnvironment _ | .setFiles _ => none

def load? (around : Surroundings) (step : Step) : Option (Except Failure (List Buffer)) :=
  (around.directory? step).map fun directory =>
    (DefaultExterns.load around.files directory).result

theorem load?_of_directory {around : Surroundings} {step : Step} {directory : Path}
    (needs : around.directory? step = some directory) :
    around.load? step = some (DefaultExterns.load around.files directory).result := by
  rw [load?, needs]
  rfl

/-- What loads by these steps come to, each in the surroundings of its own moment. -/
def loads (around : Surroundings) : List Step → List (Except Failure (List Buffer))
  | [] => []
  | step :: more => (around.load? step).toList ++ loads (around.after step) more

/-- The set of the first load that succeeds. -/
def firstLoaded (around : Surroundings) (steps : List Step) : Option (List Buffer) :=
  (around.loads steps).findSome? Except.toOption

theorem loads_append (around : Surroundings) (before steps : List Step) :
    around.loads (before ++ steps) =
      around.loads before ++ (before.foldl after around).loads steps := by
  induction before generalizing around with
  | nil => rfl
  | cons step before ih =>
    rw [List.cons_append, loads, ih, loads, List.append_assoc]
    rfl

theorem firstLoaded_append (around : Surroundings) (before steps : List Step) :
    around.firstLoaded (before ++ steps) =
      (around.firstLoaded before).or ((before.foldl after around).firstLoaded steps) := by
  rw [firstLoaded, loads_append, List.findSome?_append]
  rfl

theorem firstLoaded_singleton (around : Surroundings) (step : Step) :
    around.firstLoaded [step] = (around.load? step).bind Except.toOption := by
  rw [firstLoaded, loads, loads, List.append_nil]
  cases around.load? step with
  | none => rfl
  | some loading =>
    rw [Option.toList_some, List.findSome?_singleton]
    rfl

end Surroundings

namespace DefaultExterns

theorem load_of_missing {files : Files} {directory : Path}
    (missing : files.list directory = .error .notFound) :
    (load files directory).result = .ok [] := by
  rw [load, missing]
  rfl

theorem load_error {files : Files} {directory : Path} {failure : Failure}
    (failed : (load files directory).result = .error failure) :
    ∃ cause, failure = .externs directory cause := by
  unfold load at failed
  split at failed
  · cases failed
  · cases failed
    exact ⟨_, rfl⟩
  next entries _ =>
    cases read : ofEntries entries with
    | ok buffers =>
      rw [read] at failed
      cases failed
    | error cause =>
      rw [read] at failed
      cases failed
      exact ⟨cause, rfl⟩

end DefaultExterns

namespace Session

open Surroundings

variable {session : Session}

def around (session : Session) : Surroundings :=
  ⟨session.files, session.environment⟩

theorem run_cons (session : Session) (step : Step) (more : List Step) :
    session.run (step :: more) = ((session.step step).1 :: ((session.step step).2.run more).1,
      ((session.step step).2.run more).2) := rfl

theorem run_append (session : Session) (before steps : List Step) :
    session.run (before ++ steps) =
      ((session.run before).1 ++ ((session.run before).2.run steps).1,
        ((session.run before).2.run steps).2) := by
  induction before generalizing session with
  | nil => rfl
  | cons step before ih =>
    rw [List.cons_append, run_cons, run_cons, ih]
    rfl

theorem run_length (session : Session) (steps : List Step) :
    (session.run steps).1.length = steps.length := by
  induction steps generalizing session with
  | nil => rfl
  | cons step steps ih => rw [run_cons, List.length_cons, ih, List.length_cons]

/-- One step changes the surroundings as it says, and keeps its load where nothing was kept. -/
theorem step_session (session : Session) (step : Step) :
    (session.step step).2.around = session.around.after step ∧
      (session.step step).2.cache =
        session.cache.or ((session.around.load? step).bind Except.toOption) := by
  have kept (directory : Path) :
      (session.defaultsFrom directory).2.around = session.around ∧
        (session.defaultsFrom directory).2.cache =
          session.cache.or (DefaultExterns.load session.files directory).result.toOption := by
    unfold defaultsFrom DefaultExterns.get
    cases session.cache <;> exact ⟨rfl, rfl⟩
  cases step with
  | loadFrom directory => exact kept directory
  | load => exact kept _
  | compile engine flags => exact kept _
  | compileInputs engine reader inputs externs loose => exact kept _
  | setEnvironment environment => exact ⟨rfl, Option.or_none.symm⟩
  | setFiles files => exact ⟨rfl, Option.or_none.symm⟩

theorem run_session (session : Session) (steps : List Step) :
    (session.run steps).2.around = steps.foldl after session.around ∧
      (session.run steps).2.cache = session.cache.or (session.around.firstLoaded steps) := by
  induction steps generalizing session with
  | nil => exact ⟨rfl, Option.or_none.symm⟩
  | cons step steps ih =>
    obtain ⟨around, cache⟩ := session.step_session step
    obtain ⟨aroundLater, cacheLater⟩ := ih (session.step step).2
    rw [around] at aroundLater cacheLater
    rw [cache, Option.or_assoc, ← firstLoaded_singleton] at cacheLater
    rw [← List.singleton_append, firstLoaded_append]
    exact ⟨aroundLater, cacheLater⟩

/-- An engine is handed the externs of the user with the default set behind them, and is told
whether there is one. -/
structure Handed (externs defaults : List Buffer) (invocation : Invocation) : Prop where
  externs : invocation.externs = externs ++ defaults
  told : invocation.defaultExterns = true ↔ defaults ≠ []

/-- What a step comes to that has this default set. Whatever an engine does itself stands behind
the call that hands a compilation to it. -/
inductive Uses (defaults : List Buffer) : Step → Answer → Prop
  | loadFrom {directory : Path} {run : Run Failure (List Buffer)}
      (result : run.result = .ok defaults) (deeds : run.deeds = []) :
      Uses defaults (.loadFrom directory) (.externs run)
  | load {run : Run Failure (List Buffer)} (result : run.result = .ok defaults)
      (deeds : run.deeds = []) : Uses defaults .load (.externs run)
  | compile {engine : Engine} {flags : Flags} {invocation : Invocation}
      {run : Run Failure CompilationResult} (handed : Handed flags.externs defaults invocation)
      (result : run.result = (engine invocation).result.mapError .compiler)
      (deeds : run.deeds = .invoke invocation :: (engine invocation).deeds) :
      Uses defaults (.compile engine flags) (.result run)
  | read {engine : Engine} {reader : Reader} {inputs externs : List InputSource}
      {loose : LooseFlags} {flags : Flags} {sources declarations : List Buffer}
      {invocation : Invocation} {run : Run Failure Compilation}
      (acquired : (Acquisition.acquireBoth reader
        (Compilation.sourcesToRead loose.normalize inputs) externs).result =
          .ok (sources, declarations))
      (handed : Handed (loose.externs ++ declarations) defaults invocation)
      (result : run.result =
        ((engine invocation).result.mapError Failure.compiler).map (⟨flags, ·⟩))
      (deeds : run.deeds =
        (Compilation.sourcesToRead loose.normalize inputs ++ externs).map .request ++
          .invoke invocation :: (engine invocation).deeds) :
      Uses defaults (.compileInputs engine reader inputs externs loose) (.compilation run)
  | unread {engine : Engine} {reader : Reader} {inputs externs : List InputSource}
      {loose : LooseFlags} {failure : Failure} {run : Run Failure Compilation}
      (refused : (Acquisition.acquireBoth reader
        (Compilation.sourcesToRead loose.normalize inputs) externs).result = .error failure)
      (result : run.result = .error failure)
      (deeds : run.deeds =
        (Compilation.sourcesToRead loose.normalize inputs ++ externs).map .request) :
      Uses defaults (.compileInputs engine reader inputs externs loose) (.compilation run)
  | setEnvironment {environment : Option Path} : Uses defaults (.setEnvironment environment) .done
  | setFiles {files : Files} : Uses defaults (.setFiles files) .done

/-- What a step comes to that has no default set: it fails, and does nothing. -/
inductive Refuses (failure : Failure) : Step → Answer → Prop
  | loadFrom {directory : Path} {run : Run Failure (List Buffer)}
      (result : run.result = .error failure) (deeds : run.deeds = []) :
      Refuses failure (.loadFrom directory) (.externs run)
  | load {run : Run Failure (List Buffer)} (result : run.result = .error failure)
      (deeds : run.deeds = []) : Refuses failure .load (.externs run)
  | compile {engine : Engine} {flags : Flags} {run : Run Failure CompilationResult}
      (result : run.result = .error failure) (deeds : run.deeds = []) :
      Refuses failure (.compile engine flags) (.result run)
  | compileInputs {engine : Engine} {reader : Reader} {inputs externs : List InputSource}
      {loose : LooseFlags} {run : Run Failure Compilation} (result : run.result = .error failure)
      (deeds : run.deeds = []) :
      Refuses failure (.compileInputs engine reader inputs externs loose) (.compilation run)

theorem handed_ofFlags (flags : Flags) (defaults : List Buffer) :
    Handed flags.externs defaults (.ofFlags flags defaults) :=
  ⟨rfl, by simp [Invocation.ofFlags]⟩

theorem defaultsFrom_of_kept {defaults : List Buffer} (kept : session.cache = some defaults)
    (directory : Path) : (session.defaultsFrom directory).1.result = .ok defaults := by
  unfold defaultsFrom DefaultExterns.get
  rw [kept]
  rfl

theorem defaultsFrom_of_nothing (nothing : session.cache = none) (directory : Path) :
    (session.defaultsFrom directory).1 = DefaultExterns.load session.files directory := by
  unfold defaultsFrom DefaultExterns.get
  rw [nothing]

theorem compile_of_loaded {engine : Engine} {flags : Flags} {defaults : List Buffer}
    (loaded : session.defaults.1.result = .ok defaults) :
    (session.compile engine flags).1.result =
        (engine (.ofFlags flags defaults)).result.mapError .compiler ∧
      (session.compile engine flags).1.deeds =
        .invoke (.ofFlags flags defaults) :: (engine (.ofFlags flags defaults)).deeds := by
  constructor
  · rw [compile, Run.result_bind, loaded]
    exact Compilation.compileWith_result engine flags defaults
  · rw [compile, Run.deeds_bind_ok loaded, defaults_deeds, List.nil_append]
    exact Compilation.compileWith_deeds engine flags defaults

theorem compile_of_unloaded {engine : Engine} {flags : Flags} {failure : Failure}
    (unloaded : session.defaults.1.result = .error failure) :
    (session.compile engine flags).1.result = .error failure ∧
      (session.compile engine flags).1.deeds = [] := by
  constructor
  · rw [compile, Run.result_bind, unloaded]
    rfl
  · rw [compile, Run.deeds_bind_error unloaded, defaults_deeds]

theorem uses_of_loaded {step : Step} {directory : Path} {defaults : List Buffer}
    (needs : session.around.directory? step = some directory)
    (loaded : (session.defaultsFrom directory).1.result = .ok defaults) :
    Uses defaults step (session.step step).1 := by
  have quiet := session.defaultsFrom_deeds directory
  cases step with
  | loadFrom other =>
    obtain rfl := Option.some.inj needs
    exact .loadFrom loaded quiet
  | load =>
    obtain rfl := Option.some.inj needs
    exact .load loaded quiet
  | compile engine flags =>
    obtain rfl := Option.some.inj needs
    obtain ⟨result, deeds⟩ := compile_of_loaded loaded
    exact .compile (handed_ofFlags flags defaults) result deeds
  | compileInputs engine reader inputs externs loose =>
    obtain rfl := Option.some.inj needs
    obtain ⟨result, deeds⟩ := compileInputs_of_loaded loaded
    cases acquired : (Acquisition.acquireBoth reader
        (Compilation.sourcesToRead loose.normalize inputs) externs).result with
    | ok buffers =>
      obtain ⟨sources, declarations⟩ := buffers
      exact .read acquired
        (handed_ofFlags (Compilation.extended loose sources declarations) defaults)
        (result.trans (Compilation.compileInputs_result_of_read acquired))
        (deeds.trans (Compilation.compileInputs_deeds_of_read acquired))
    | error failure =>
      exact .unread acquired (result.trans (Compilation.compileInputs_result_of_refused acquired))
        (deeds.trans (Compilation.compileInputs_deeds_of_refused acquired))
  | setEnvironment environment => cases needs
  | setFiles files => cases needs

theorem uses_of_unneeded {step : Step} (unneeded : session.around.directory? step = none)
    (defaults : List Buffer) : Uses defaults step (session.step step).1 := by
  cases step with
  | setEnvironment environment => exact .setEnvironment
  | setFiles files => exact .setFiles
  | loadFrom _ | load | compile _ _ | compileInputs _ _ _ _ _ => cases unneeded

theorem refuses_of_unloaded {step : Step} {directory : Path} {failure : Failure}
    (needs : session.around.directory? step = some directory)
    (unloaded : (session.defaultsFrom directory).1.result = .error failure) :
    Refuses failure step (session.step step).1 := by
  have quiet := session.defaultsFrom_deeds directory
  cases step with
  | loadFrom other =>
    obtain rfl := Option.some.inj needs
    exact .loadFrom unloaded quiet
  | load =>
    obtain rfl := Option.some.inj needs
    exact .load unloaded quiet
  | compile engine flags =>
    obtain rfl := Option.some.inj needs
    obtain ⟨result, deeds⟩ := compile_of_unloaded unloaded
    exact .compile result deeds
  | compileInputs engine reader inputs externs loose =>
    obtain rfl := Option.some.inj needs
    obtain ⟨result, deeds⟩ := compileInputs_of_unloaded unloaded
    exact .compileInputs result deeds
  | setEnvironment environment => cases needs
  | setFiles files => cases needs

/-- A step uses the set that was kept, or else the one that it loads. -/
theorem step_uses (session : Session) (step : Step) {defaults : List Buffer}
    (loaded : session.cache.or ((session.around.load? step).bind Except.toOption) = some defaults) :
    Uses defaults step (session.step step).1 := by
  cases needs : session.around.directory? step with
  | none => exact uses_of_unneeded needs defaults
  | some directory =>
    refine uses_of_loaded needs ?_
    cases kept : session.cache with
    | some old =>
      rw [kept, Option.some_or] at loaded
      exact defaultsFrom_of_kept (kept.trans loaded) directory
    | none =>
      rw [kept, Option.none_or, load?_of_directory needs, Option.bind_some] at loaded
      rw [defaultsFrom_of_nothing kept]
      cases loading : (DefaultExterns.load session.around.files directory).result with
      | ok buffers =>
        rw [loading] at loaded
        exact loading.trans (congrArg Except.ok (Option.some.inj loaded))
      | error failure =>
        rw [loading] at loaded
        cases loaded

/-- A step that needs a set, finds none kept and loads none comes to the failure of its load. -/
theorem step_refuses (session : Session) {step : Step} {directory : Path}
    (needs : session.around.directory? step = some directory)
    (unloaded : session.cache.or ((session.around.load? step).bind Except.toOption) = none) :
    ∃ cause, (DefaultExterns.load session.files directory).result =
        .error (.externs directory cause) ∧
      Refuses (.externs directory cause) step (session.step step).1 := by
  obtain ⟨nothing, failed⟩ := Option.or_eq_none_iff.mp unloaded
  rw [load?_of_directory needs, Option.bind_some] at failed
  cases loading : (DefaultExterns.load session.around.files directory).result with
  | ok defaults =>
    rw [loading] at failed
    cases failed
  | error failure =>
    obtain ⟨cause, rfl⟩ := DefaultExterns.load_error loading
    refine ⟨cause, loading, refuses_of_unloaded needs ?_⟩
    rw [defaultsFrom_of_nothing nothing]
    exact loading

theorem run_getElem? (session : Session) (before : List Step) (step : Step) (later : List Step) :
    (session.run (before ++ step :: later)).1[before.length]? =
      some ((session.run before).2.step step).1 := by
  have answers : (session.run (before ++ step :: later)).1 =
      (session.run before).1 ++ ((session.run before).2.step step).1 ::
        (((session.run before).2.step step).2.run later).1 := by
    rw [run_append, run_cons]
  rw [answers, ← session.run_length before, List.getElem?_append_right (Nat.le_refl _),
    Nat.sub_self, List.getElem?_cons_zero]

/-- In a process that starts with nothing loaded, each step uses the set of the first load that
succeeded, up to its own, and keeps it. As long as no load has succeeded, a step that needs the set
loads it afresh where it is told to, and if that fails then nothing is read or compiled. -/
theorem run_uses_first_loaded (files : Files) (environment : Option Path)
    (before : List Step) (step : Step) (later : List Step) :
    let fresh : Session := ⟨files, environment, none⟩
    let loaded := fresh.around.firstLoaded
    let around := before.foldl after fresh.around
    loaded (before ++ [step]) =
        (loaded before).or ((around.load? step).bind Except.toOption) ∧
      (fresh.run before).2 = ⟨around.files, around.environment, loaded before⟩ ∧
      ∃ answer, (fresh.run (before ++ step :: later)).1[before.length]? = some answer ∧
        (∀ defaults, loaded (before ++ [step]) = some defaults → Uses defaults step answer) ∧
        (∀ directory, around.directory? step = some directory →
          loaded (before ++ [step]) = none → ∃ cause,
            (DefaultExterns.load around.files directory).result =
                .error (.externs directory cause) ∧
              Refuses (.externs directory cause) step answer) ∧
        ∀ directory, around.files.list directory = .error .notFound →
          (DefaultExterns.load around.files directory).result = .ok [] := by
  intro fresh loaded around
  have extended : loaded (before ++ [step]) =
      (loaded before).or ((around.load? step).bind Except.toOption) := by
    rw [← firstLoaded_singleton]
    exact firstLoaded_append ..
  obtain ⟨surroundings, cache⟩ := fresh.run_session before
  have reached : (fresh.run before).2 = ⟨around.files, around.environment, loaded before⟩ := by
    rw [show around = (fresh.run before).2.around from surroundings.symm,
      show loaded before = (fresh.run before).2.cache from cache.symm]
    rfl
  refine ⟨extended, reached, _, fresh.run_getElem? before step later, ?_, ?_, ?_⟩
  · intro defaults first
    rw [reached]
    exact step_uses ⟨around.files, around.environment, loaded before⟩ step
      (extended.symm.trans first)
  · intro directory needs unloaded
    rw [reached]
    exact step_refuses ⟨around.files, around.environment, loaded before⟩ needs
      (extended.symm.trans unloaded)
  · exact fun _ => DefaultExterns.load_of_missing

/-- The first load is refused; the second is made elsewhere and lasts, whatever changes behind
it. -/
theorem run_uses_second_load :
    let closed : Path := [0x61]
    let files : Files := ⟨fun _ => .error .notFound, fun directory =>
      if directory = closed then .error .permissionDenied
      else .ok [⟨Utf8.encode "w.js", some (Utf8.encode "var w;")⟩]⟩
    let empty : Files := ⟨fun _ => .error .notFound, fun _ => .error .notFound⟩
    let moved : List Step :=
      [.load, .setEnvironment none, .load, .setFiles empty, .setEnvironment (some closed)]
    let engine : Engine := fun _ => pure ⟨"", none, [], []⟩
    let compile : Step := .compile engine LooseFlags.blank.normalize
    let answers := (run ⟨files, some closed, none⟩ (moved ++ [compile])).1
    (∃ answer, answers[0]? = some answer ∧
        Refuses (.externs closed .permissionDenied) .load answer) ∧
      ∃ answer, answers[5]? = some answer ∧ Uses [.unnamed "var w;"] compile answer := by
  intro closed files empty moved engine compile answers
  constructor
  · obtain ⟨-, -, answer, found, -, refuses, -⟩ :=
      run_uses_first_loaded files (some closed) [] .load (moved.tail ++ [compile])
    obtain ⟨cause, failed, refused⟩ := refuses closed rfl (by decide +kernel)
    cases failed
    exact ⟨answer, found, refused⟩
  · obtain ⟨-, -, answer, found, uses, -⟩ :=
      run_uses_first_loaded files (some closed) moved compile []
    exact ⟨answer, found, uses _ (by decide +kernel)⟩

end Session

end CompilerDriver
