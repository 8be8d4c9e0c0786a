import CompilerDriver.Session
import CompilerDriver.Proofs.OrderedAcquisition
import Mathlib.Tactic.ByContra

namespace CompilerDriver

namespace Acquisition

/-- No look finds a refused source together with a refused extern, where so many sources stand
before the externs. This holds in particular when no two reads are refused at the same moment. -/
def Apart (sources : Nat) (looks : List (List Completion)) : Prop :=
  ∀ look ∈ looks, ∀ a ∈ look, ∀ b ∈ look, a.refusal? ≠ none → b.refusal? ≠ none →
    (a.index < sources ↔ b.index < sources)

theorem findSome?_filter_of_forall {α β : Type} {f : α → Option β} {p : α → Bool} {xs : List α}
    (h : ∀ x ∈ xs, f x ≠ none → p x = true) : (xs.filter p).findSome? f = xs.findSome? f := by
  induction xs with
  | nil => rfl
  | cons x xs ih =>
    have rest := ih fun y hy => h y (by simp [hy])
    by_cases hx : p x = true
    · rw [List.filter_cons_of_pos hx, List.findSome?_cons, List.findSome?_cons, rest]
    · have passed : f x = none := by
        by_contra found
        exact hx (h x (by simp) found)
      simp [hx, passed, rest]

theorem findSome?_filter_eq_none {α β : Type} {f : α → Option β} {p : α → Bool} {xs : List α}
    (h : ∀ x ∈ xs, f x ≠ none → p x = false) : (xs.filter p).findSome? f = none := by
  apply List.findSome?_eq_none_iff.mpr
  intro x hx
  obtain ⟨member, kept⟩ := List.mem_filter.mp hx
  by_contra found
  simp [h x member found] at kept

/-- When only one side of a list holds what is looked for, it does not matter which side comes
first. -/
theorem findSome?_partition {α β : Type} {f : α → Option β} {p : α → Bool} {xs : List α}
    (h : ∀ x ∈ xs, ∀ y ∈ xs, f x ≠ none → f y ≠ none → (p x = true ↔ p y = true)) :
    (xs.filter p ++ xs.filter (not ∘ p)).findSome? f = xs.findSome? f ∧
      (xs.filter (not ∘ p) ++ xs.filter p).findSome? f = xs.findSome? f := by
  simp only [List.findSome?_append]
  by_cases left : ∃ x ∈ xs, f x ≠ none ∧ p x = true
  · obtain ⟨x, hx, found, side⟩ := left
    have only : ∀ y ∈ xs, f y ≠ none → p y = true := fun y hy hf => (h x hx y hy found hf).mp side
    rw [findSome?_filter_of_forall only,
      findSome?_filter_eq_none fun y hy hf => by simp [only y hy hf]]
    simp
  · have only : ∀ y ∈ xs, f y ≠ none → p y = false := by
      intro y hy hf
      by_contra side
      exact left ⟨y, hy, hf, by simpa using side⟩
    rw [findSome?_filter_eq_none only,
      findSome?_filter_of_forall fun y hy hf => by simp [only y hy hf]]
    simp

theorem alternate_perm (sources : Nat) (externsFirst : Bool) (looks : List (List Completion)) :
    (alternate sources externsFirst looks).Perm looks.flatten := by
  induction looks generalizing externsFirst with
  | nil => exact .refl _
  | cons look more ih =>
    have sides := List.filter_append_perm (fun completion => decide (completion.index < sources))
      look
    simp only [alternate, List.partition_eq_filter_filter, List.flatten_cons]
    cases externsFirst with
    | true => exact (List.perm_append_comm.trans sides).append (ih _)
    | false => exact sides.append (ih _)

/-- Which side is seen to first makes no difference to the first refusal. -/
theorem alternate_findSome?_refusal {sources : Nat} {looks : List (List Completion)}
    (apart : Apart sources looks) (externsFirst : Bool) :
    (alternate sources externsFirst looks).findSome? Completion.refusal? =
      looks.flatten.findSome? Completion.refusal? := by
  induction looks generalizing externsFirst with
  | nil => rfl
  | cons look more ih =>
    have rest := ih fun other ho => apart other (by simp [ho])
    obtain ⟨sourcesFirst, externsThen⟩ := findSome?_partition
      (f := Completion.refusal?) (p := fun completion => decide (completion.index < sources))
      fun a ha b hb fa fb => by simpa using apart look (by simp) a ha b hb fa fb
    simp only [alternate, List.partition_eq_filter_filter, List.flatten_cons]
    rw [List.findSome?_append, List.findSome?_append, rest]
    cases externsFirst with
    | true => rw [if_pos rfl, externsThen]
    | false => rw [if_neg (by simp), sourcesFirst]

theorem acquireBoth_deeds (reader : Reader) (sources externs : List InputSource) :
    (acquireBoth reader sources externs).deeds = (sources ++ externs).map .request := by
  rw [acquireBoth, Run.deeds_bind_ok (requestAll_result _), requestAll_deeds]
  cases h : (collect ((sources ++ externs).map fun _ => none)
      (alternate sources.length true (reader (sources ++ externs)))).result with
  | ok found => rw [Run.deeds_bind_ok h, collect_deeds, Run.deeds_pure]; simp
  | error failure => rw [Run.deeds_bind_error h, collect_deeds]; simp

theorem acquireBoth_result (reader : Reader) (sources externs : List InputSource) :
    (acquireBoth reader sources externs).result =
      (collect ((sources ++ externs).map fun _ => none)
        (alternate sources.length true (reader (sources ++ externs)))).result.map
          (·.splitAt sources.length) := by
  simp only [acquireBoth, Run.result_bind, requestAll_result]
  cases (collect ((sources ++ externs).map fun _ => none)
    (alternate sources.length true (reader (sources ++ externs)))).result <;> rfl

theorem splitAt_buffers (sources externs : List InputSource) (texts : Nat → String) :
    (buffers (sources ++ externs) texts).splitAt sources.length =
      (buffers sources texts, buffers externs fun index => texts (sources.length + index)) := by
  have length : (buffers sources texts).length = sources.length := List.length_mapIdx
  have both : buffers (sources ++ externs) texts =
      buffers sources texts ++ buffers externs fun index => texts (sources.length + index) := by
    rw [buffers, List.mapIdx_append]
    simp only [buffers, Nat.add_comm]
  rw [both, List.splitAt_eq, ← length, List.take_left, List.drop_left]

/-- When all reads give their texts, each side gets its own buffers in its own order. -/
theorem acquireBoth_read {reader : Reader} {sources externs : List InputSource}
    {outcome : Nat → Except IoFault String} {texts : Nat → String}
    (completes : reader.Completes (sources ++ externs) outcome)
    (read : ∀ index < (sources ++ externs).length, outcome index = .ok (texts index)) :
    (acquireBoth reader sources externs).result =
      .ok (buffers sources texts, buffers externs fun index => texts (sources.length + index)) := by
  have perm := (alternate_perm sources.length true (reader (sources ++ externs))).trans completes
  rw [acquireBoth_result, collect_of_perm perm read, ← splitAt_buffers]
  rfl

/-- The first refusal on either side is the failure of both. -/
theorem acquireBoth_refused {reader : Reader} {sources externs : List InputSource}
    {completion : Completion} {cause : IoFault}
    (apart : Apart sources.length (reader (sources ++ externs)))
    (first : Completion.FirstRefused (reader (sources ++ externs)).flatten completion cause) :
    (acquireBoth reader sources externs).result =
      .error (.read completion.input.shown cause) := by
  have found := (alternate_findSome?_refusal apart true).trans
    (Completion.findSome?_refusal_of_firstRefused first)
  rw [acquireBoth_result, collect_refused found]
  rfl

end Acquisition

namespace Compilation

theorem compileWith_result (engine : Engine) (flags : Flags) (defaults : List Buffer) :
    (compileWith engine flags defaults).result =
      (engine (.ofFlags flags defaults)).result.mapError .compiler := by
  simp only [compileWith, Run.result_bind, Run.result_log, Run.result_act, Run.result_mapError,
    Run.result_pure, Except.bind]
  cases (engine (.ofFlags flags defaults)).result <;> rfl

theorem compileWith_deeds (engine : Engine) (flags : Flags) (defaults : List Buffer) :
    (compileWith engine flags defaults).deeds =
      .invoke (.ofFlags flags defaults) :: (engine (.ofFlags flags defaults)).deeds := by
  rw [compileWith, Run.deeds_bind_ok (Run.result_log ..), Run.deeds_log,
    Run.deeds_bind_ok (Run.result_act _), Run.deeds_act rfl, List.nil_append, List.singleton_append]
  congr 1
  cases h : ((engine (.ofFlags flags defaults)).mapError Failure.compiler).result with
  | ok result =>
    rw [Run.deeds_bind_ok h, Run.deeds_bind_ok (Run.result_log ..), Run.deeds_log, Run.deeds_pure,
      Run.deeds_mapError]
    simp
  | error failure => rw [Run.deeds_bind_error h, Run.deeds_mapError]

/-- The flags with what was read put behind their own buffers. -/
def extended (loose : LooseFlags) (sources externs : List Buffer) : Flags :=
  { loose.normalize with
    jsCode := loose.jsCode ++ sources
    externs := loose.externs ++ externs }

variable {engine : Engine} {reader : Reader} {inputs externs : List InputSource}
  {loose : LooseFlags} {defaults : List Buffer}

theorem sourcesToRead_normalize (loose : LooseFlags) (inputs : List InputSource) :
    sourcesToRead loose.normalize inputs =
      if inputs = [] ∧ loose.jsCode = [] then [.stdin] else inputs := by
  have same : loose.normalize.jsCode = loose.jsCode := rfl
  rw [sourcesToRead, same, Acquisition.sourceInputs]
  cases inputs <;> cases loose.jsCode <;> rfl

/-- The steps that follow once the loose flags have been worked out. -/
theorem compileInputs_eq (engine : Engine) (reader : Reader) (inputs externs : List InputSource)
    (loose : LooseFlags) (defaults : List Buffer) :
    compileInputs engine reader inputs externs loose defaults = (do
      Run.logAll (Define.looseEvents loose.defines)
      let acquired ← Acquisition.acquireBoth reader (sourcesToRead loose.normalize inputs) externs
      let result ← compileWith engine (extended loose acquired.1 acquired.2) defaults
      return ⟨extended loose acquired.1 acquired.2, result⟩) := by
  rfl

section

variable {sources declarations : List Buffer}
  (acquired :
    (Acquisition.acquireBoth reader (sourcesToRead loose.normalize inputs) externs).result =
      .ok (sources, declarations))

include acquired

theorem compileInputs_result_of_read :
    (compileInputs engine reader inputs externs loose defaults).result =
      ((engine (.ofFlags (extended loose sources declarations) defaults)).result.mapError
        Failure.compiler).map (⟨extended loose sources declarations, ·⟩) := by
  simp only [compileInputs_eq, Run.result_bind, Run.result_logAll, acquired, Except.bind,
    compileWith_result]
  cases (engine (.ofFlags (extended loose sources declarations) defaults)).result <;> rfl

theorem compileInputs_deeds_of_read :
    (compileInputs engine reader inputs externs loose defaults).deeds =
      (sourcesToRead loose.normalize inputs ++ externs).map .request ++
        .invoke (.ofFlags (extended loose sources declarations) defaults) ::
          (engine (.ofFlags (extended loose sources declarations) defaults)).deeds := by
  rw [compileInputs_eq, Run.deeds_bind_ok (Run.result_logAll _), Run.deeds_logAll,
    Run.deeds_bind_ok acquired, Acquisition.acquireBoth_deeds, List.nil_append]
  congr 1
  cases h : (compileWith engine (extended loose sources declarations) defaults).result with
  | ok result =>
    rw [← compileWith_deeds]
    exact (Run.deeds_bind_ok h).trans (List.append_nil _)
  | error failure =>
    rw [← compileWith_deeds]
    exact Run.deeds_bind_error h

theorem compileInputs_requests_of_read :
    (compileInputs engine reader inputs externs loose defaults).requests =
      sourcesToRead loose.normalize inputs ++ externs ++
        (engine (.ofFlags (extended loose sources declarations) defaults)).requests := by
  rw [Run.requests_eq_deeds, compileInputs_deeds_of_read acquired, List.filterMap_append,
    Action.filterMap_requests, Run.requests_eq_deeds]
  rfl

theorem compileInputs_invocations_of_read :
    (compileInputs engine reader inputs externs loose defaults).invocations =
      .ofFlags (extended loose sources declarations) defaults ::
        (engine (.ofFlags (extended loose sources declarations) defaults)).invocations := by
  rw [Run.invocations_eq_deeds, compileInputs_deeds_of_read acquired, List.filterMap_append,
    Action.filterMap_requests_eq_nil fun _ => rfl, Run.invocations_eq_deeds]
  rfl

end

section

variable {failure : Failure}
  (refused :
    (Acquisition.acquireBoth reader (sourcesToRead loose.normalize inputs) externs).result =
      .error failure)

include refused

theorem compileInputs_result_of_refused :
    (compileInputs engine reader inputs externs loose defaults).result = .error failure := by
  simp only [compileInputs_eq, Run.result_bind, Run.result_logAll, refused, Except.bind]

theorem compileInputs_deeds_of_refused :
    (compileInputs engine reader inputs externs loose defaults).deeds =
      (sourcesToRead loose.normalize inputs ++ externs).map .request := by
  rw [compileInputs_eq, Run.deeds_bind_ok (Run.result_logAll _), Run.deeds_logAll,
    Run.deeds_bind_error refused, Acquisition.acquireBoth_deeds, List.nil_append]

theorem compileInputs_asks_of_refused :
    (compileInputs engine reader inputs externs loose defaults).requests =
        sourcesToRead loose.normalize inputs ++ externs ∧
      (compileInputs engine reader inputs externs loose defaults).invocations = [] := by
  rw [Run.requests_eq_deeds, Run.invocations_eq_deeds, compileInputs_deeds_of_refused refused]
  exact ⟨Action.filterMap_requests _, Action.filterMap_requests_eq_nil (fun _ => rfl) _⟩

end

end Compilation

theorem DefaultExterns.load_deeds (files : Files) (directory : Path) :
    (load files directory).deeds = [] := by
  unfold load
  split
  · rw [Run.deeds_bind_ok (Run.result_log ..)]
    rfl
  · rfl
  next entries _ =>
    cases h : (Run.ofExcept ((ofEntries entries).mapError (Failure.externs directory))).result with
    | ok buffers =>
      rw [Run.deeds_bind_ok h, Run.deeds_bind_ok (Run.result_log ..)]
      rfl
    | error failure =>
      rw [Run.deeds_bind_error h]
      rfl

namespace Session

theorem defaultsFrom_deeds (session : Session) (directory : Path) :
    (session.defaultsFrom directory).1.deeds = [] := by
  unfold defaultsFrom DefaultExterns.get
  cases session.cache with
  | some buffers => rfl
  | none => exact DefaultExterns.load_deeds _ _

theorem defaults_deeds (session : Session) : session.defaults.1.deeds = [] :=
  session.defaultsFrom_deeds _

section

variable {session : Session} {engine : Engine} {reader : Reader}
  {inputs externs : List InputSource} {loose : LooseFlags}

/-- Without the default set nothing is read and nothing is compiled. -/
theorem compileInputs_of_unloaded {failure : Failure}
    (unloaded : session.defaults.1.result = .error failure) :
    (session.compileInputs engine reader inputs externs loose).1.result = .error failure ∧
      (session.compileInputs engine reader inputs externs loose).1.deeds = [] := by
  constructor
  · rw [compileInputs, Run.result_bind, unloaded]
    rfl
  · rw [compileInputs, Run.deeds_bind_error unloaded, defaults_deeds]

/-- A loaded default set is handed to the compilation; loading it leaves no other trace. -/
theorem compileInputs_of_loaded {defaults : List Buffer}
    (loaded : session.defaults.1.result = .ok defaults) :
    (session.compileInputs engine reader inputs externs loose).1.result =
        (Compilation.compileInputs engine reader inputs externs loose defaults).result ∧
      (session.compileInputs engine reader inputs externs loose).1.deeds =
        (Compilation.compileInputs engine reader inputs externs loose defaults).deeds := by
  constructor
  · rw [compileInputs, Run.result_bind, loaded]
    rfl
  · rw [compileInputs, Run.deeds_bind_ok loaded, defaults_deeds, List.nil_append]

end

/-- Sources and externs are read together and compiled once. Without the default set nothing is
read; with it, either all reads give their texts and the engine is given what was read behind
what was there, or the first refusal on either side is the failure and the engine is not called.
What an engine asks for while it runs stands behind all of this. -/
theorem compileInputs_joins_reads {session : Session} {engine : Engine} {reader : Reader}
    {inputs externs : List InputSource} {loose : LooseFlags}
    {outcome : Nat → Except IoFault String} :
    let sources := Compilation.sourcesToRead loose.normalize inputs
    let run := (session.compileInputs engine reader inputs externs loose).1
    reader.Completes (sources ++ externs) outcome →
    Acquisition.Apart sources.length (reader (sources ++ externs)) →
    sources = (if inputs = [] ∧ loose.jsCode = [] then [.stdin] else inputs) ∧
    (∀ failure, session.defaults.1.result = .error failure →
      run.result = .error failure ∧ run.requests = [] ∧ run.invocations = []) ∧
    (∀ defaults, session.defaults.1.result = .ok defaults →
      (∀ texts : Nat → String,
        (∀ index < (sources ++ externs).length, outcome index = .ok (texts index)) →
        ∃ flags : Flags,
          flags = { loose.normalize with
            jsCode := loose.jsCode ++ Acquisition.buffers sources texts
            externs := loose.externs ++
              Acquisition.buffers externs fun index => texts (sources.length + index) } ∧
          (Invocation.ofFlags flags defaults).jsCode = flags.jsCode ∧
          (Invocation.ofFlags flags defaults).externs = flags.externs ++ defaults ∧
          run.requests = sources ++ externs ++ (engine (.ofFlags flags defaults)).requests ∧
          run.invocations =
            .ofFlags flags defaults :: (engine (.ofFlags flags defaults)).invocations ∧
          run.result = ((engine (.ofFlags flags defaults)).result.mapError Failure.compiler).map
            (⟨flags, ·⟩)) ∧
      ((∃ index < (sources ++ externs).length, ∃ cause, outcome index = .error cause) →
        ∃ index input cause, (sources ++ externs)[index]? = some input ∧
          outcome index = .error cause ∧
          Completion.FirstRefused (reader (sources ++ externs)).flatten
            ⟨index, input, outcome index⟩ cause ∧
          run.result = .error (.read input.shown cause) ∧
          run.requests = sources ++ externs ∧ run.invocations = [])) := by
  intro sources run completes apart
  refine ⟨Compilation.sourcesToRead_normalize loose inputs, ?_, ?_⟩
  · intro failure unloaded
    obtain ⟨result, deeds⟩ := compileInputs_of_unloaded unloaded
    refine ⟨result, ?_, ?_⟩
    · rw [Run.requests_eq_deeds, deeds]
      rfl
    · rw [Run.invocations_eq_deeds, deeds]
      rfl
  intro defaults loaded
  obtain ⟨result, deeds⟩ := compileInputs_of_loaded loaded
  have requests : run.requests =
      (Compilation.compileInputs engine reader inputs externs loose defaults).requests := by
    rw [Run.requests_eq_deeds, deeds, Run.requests_eq_deeds]
  have invocations : run.invocations =
      (Compilation.compileInputs engine reader inputs externs loose defaults).invocations := by
    rw [Run.invocations_eq_deeds, deeds, Run.invocations_eq_deeds]
  constructor
  · intro texts read
    have acquired := Acquisition.acquireBoth_read completes read
    refine ⟨_, rfl, rfl, rfl, ?_, ?_, ?_⟩
    · exact requests.trans (Compilation.compileInputs_requests_of_read acquired)
    · exact invocations.trans (Compilation.compileInputs_invocations_of_read acquired)
    · exact result.trans (Compilation.compileInputs_result_of_read acquired)
  · rintro ⟨index, hi, cause, refused⟩
    obtain ⟨index, input, cause, place, failed, first⟩ :=
      completes.exists_firstRefused hi refused
    have both := Acquisition.acquireBoth_refused apart first
    obtain ⟨asked, uninvoked⟩ := Compilation.compileInputs_asks_of_refused both
    refine ⟨index, input, cause, place, failed, first, ?_, ?_, ?_⟩
    · exact result.trans (Compilation.compileInputs_result_of_refused both)
    · exact requests.trans asked
    · exact invocations.trans uninvoked

/-- Standard input stands in for sources that nobody names; it ends after the one extern. -/
theorem compileInputs_joins_stdin :
    let declarations : InputSource := .file [0x65]
    let session : Session := ⟨⟨fun _ => .error .notFound, fun _ => .error .notFound⟩, none,
      some [.unnamed "var window;"]⟩
    let outcome : Nat → Except IoFault String := fun index =>
      .ok (if index = 0 then "app();" else "var app;")
    let reader : Reader := fun inputs => (Completion.inOrder inputs outcome).reverse.map ([·])
    let engine : Engine := fun _ => pure ⟨"", none, [], []⟩
    let run := (session.compileInputs engine reader [] [declarations] .blank).1
    ∃ flags : Flags, flags.jsCode = [.unnamed "app();"] ∧
      flags.externs = [⟨declarations.bufferPath, "var app;"⟩] ∧
      run.requests = [.stdin, declarations] ∧
      run.invocations = [.ofFlags flags [.unnamed "var window;"]] ∧
      run.result = .ok ⟨flags, ⟨"", none, [], []⟩⟩ := by
  intro declarations session outcome reader engine run
  have completes : reader.Completes [.stdin, declarations] outcome := by
    rw [Reader.Completes, ← List.flatMap_def, List.flatMap_singleton']
    exact List.reverse_perm _
  have apart : Acquisition.Apart 1 (reader [.stdin, declarations]) := by
    intro look hl a ha b hb
    have single : ∃ completion, look = [completion] := by
      obtain ⟨completion, _, rfl⟩ := List.mem_map.mp hl
      exact ⟨completion, rfl⟩
    obtain ⟨completion, rfl⟩ := single
    simp only [List.mem_singleton] at ha hb
    simp [ha, hb]
  have joined :=
    @compileInputs_joins_reads session engine reader [] [declarations] .blank outcome completes
      apart
  obtain ⟨flags, rfl, _, _, requests, invocations, result⟩ :=
    (joined.2.2 [.unnamed "var window;"] rfl).1
      (fun index => if index = 0 then "app();" else "var app;") fun _ _ => rfl
  exact ⟨_, rfl, rfl, requests, invocations, result⟩

end Session

end CompilerDriver
