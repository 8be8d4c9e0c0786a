import CompilerDriver.CommandLine
import CompilerDriver.Proofs.Utf8Text
import Mathlib.Data.List.Nodup
import Mathlib.Data.List.TakeWhile

namespace CompilerDriver

theorem CommandOption.mem_all (option : CommandOption) : option ∈ all := by
  rcases option with setting | switch
  · cases setting <;> decide
  · cases switch <;> decide

theorem CommandOption.ofName?_name (option : CommandOption) :
    ofName? option.name = some option := by
  rcases option with setting | switch
  · cases setting <;> decide
  · cases switch <;> decide

theorem CommandOption.shown_injective : Function.Injective shown := fun a b same =>
  have distinct : (all.map shown).Nodup := by decide +kernel
  List.inj_on_of_nodup_map distinct a.mem_all b.mem_all same

namespace CommandLine

theorem ne_equalsSign_of_name (option : CommandOption) :
    ∀ b ∈ Utf8.encode option.name, decide (b ≠ equalsSign) = true := by
  rcases option with setting | switch
  · cases setting <;> decide +kernel
  · cases switch <;> decide +kernel

/-- An argument that can stand for an input or a value by itself: one dash alone, or anything
without a dash in front. -/
def IsPlain (argument : Bytes) : Prop :=
  argument = [dash] ∨ argument.head? ≠ some dash

instance : DecidablePred IsPlain := fun _ => inferInstanceAs (Decidable (_ ∨ _))

/-- What is written for one input or one option. -/
inductive Spelling where
  | input (path : Path)
  /-- An option with its value behind an equals sign. -/
  | attached (setting : Setting) (value : Bytes)
  /-- An option with its value in the argument behind it. -/
  | apart (setting : Setting) (value : Bytes)
  | switch (switch : Switch)
deriving DecidableEq

namespace Spelling

def words : Spelling → List Bytes
  | input path => [path]
  | attached setting value => [Utf8.encode ("--" ++ setting.name ++ "=") ++ value]
  | apart setting value => [Utf8.encode ("--" ++ setting.name), value]
  | switch given => [Utf8.encode ("--" ++ given.name)]

/-- Whatever stands in an argument by itself is plain. -/
def WellFormed : Spelling → Prop
  | input path => IsPlain path
  | apart _ value => IsPlain value
  | _ => True

instance : DecidablePred WellFormed
  | input path => inferInstanceAs (Decidable (IsPlain path))
  | apart _ value => inferInstanceAs (Decidable (IsPlain value))
  | attached _ _ => .isTrue trivial
  | switch _ => .isTrue trivial

/-- What a spelling does to a state with nothing pending. -/
def takenIn : Spelling → State → Except UsageFault State
  | input path, state => (addInputs [path] state.arguments).map fun arguments =>
    { state with hasInputs := true, arguments }
  | attached setting value, state => complete (accept setting (some value) state)
  | apart setting value, state => complete (accept setting (some value) state)
  | switch given, state => turnOn given state

end Spelling

section

variable {ε α β : Type} {result : Except ε α} {f : α → Except ε β}

theorem bind_eq_ok_iff {b : β} : (result >>= f) = .ok b ↔ ∃ a, result = .ok a ∧ f a = .ok b := by
  cases result with
  | error e => exact ⟨nofun, nofun⟩
  | ok a => exact ⟨fun h => ⟨a, rfl, h⟩, fun ⟨_, same, h⟩ => Except.ok.inj same ▸ h⟩

theorem map_eq_ok_iff {g : α → β} {b : β} :
    result.map g = .ok b ↔ ∃ a, result = .ok a ∧ g a = b := by
  cases result <;> simp [Except.map]

theorem bind_of_fixed {g : α → Except ε α} (h : ∀ a, result = .ok a → g a = .ok a) :
    (result >>= g) = result := by
  cases found : result with
  | error e => rfl
  | ok a => exact h a found

end

/-- No option waits for its value, and options still count as such. -/
structure State.Ready (state : State) : Prop where
  supplied : ∀ setting, state.pending ≠ .setting setting none
  optional : state.trailing = false

section

variable {state settled : State}

theorem complete_eq_ok_iff {result : Settled} :
    complete result = .ok state ↔ result = (state, none) := by
  obtain ⟨reached, fault⟩ := result
  cases fault <;> simp [complete]

theorem complete_change (state : State) (result : Except UsageFault Arguments) :
    complete (state.change result) = result.map fun arguments => { state with arguments } := by
  cases result <;> rfl

theorem change_fst (state : State) (result : Except UsageFault Arguments) :
    (state.change result).1.pending = state.pending ∧
      (state.change result).1.trailing = state.trailing := by
  cases result <;> exact ⟨rfl, rfl⟩

theorem accept_fst (setting : Setting) (value : Option Bytes) (state : State) :
    (accept setting value state).1.pending = state.pending ∧
      (accept setting value state).1.trailing = state.trailing := by
  unfold accept
  cases value with
  | none => exact ⟨rfl, rfl⟩
  | some value =>
    dsimp only
    split
    · exact ⟨rfl, rfl⟩
    · exact change_fst _ _

theorem settle_fst (state : State) :
    (settle state).1.pending = .nothing ∧ (settle state).1.trailing = state.trailing := by
  unfold settle
  dsimp only
  split
  · exact ⟨rfl, rfl⟩
  · exact accept_fst _ _ _
  · exact change_fst _ _

theorem pending_of_next (h : next state = .ok settled) :
    settled.pending = .nothing ∧ settled.trailing = state.trailing := by
  have same := settle_fst state
  rwa [complete_eq_ok_iff.mp h] at same

theorem next_of_nothing (h : state.pending = .nothing) : next state = .ok state := by
  obtain ⟨arguments, seen, hasInputs, pending, trailing⟩ := state
  cases h
  rfl

theorem turnOn_fst {switch : Switch} (h : turnOn switch state = .ok settled) :
    settled.pending = state.pending ∧ settled.trailing = state.trailing := by
  unfold turnOn at h
  cases switch <;> dsimp only at h <;> (try split at h) <;> cases h <;> exact ⟨rfl, rfl⟩

theorem addInputs_append (values : List Bytes) (value : Bytes) (arguments : Arguments) :
    addInputs (values ++ [value]) arguments =
      addInputs values arguments >>= addInputs [value] := by
  unfold addInputs
  rw [List.mapM_append]
  cases values.mapM fun value => pathValue value inputsShown with
  | error fault => rfl
  | ok paths =>
    cases found : pathValue value inputsShown with
    | error fault => simp [found, Except.map, Except.bind, bind]
    | ok path => simp [found, Except.map, Except.bind, bind, pure, Except.pure]

theorem step_plain {argument : Bytes} (optional : state.trailing = false)
    (h : IsPlain argument) : step state argument = plain argument state := by
  unfold step
  rw [if_neg (by simp [optional])]
  match argument, h with
  | [], _ => rfl
  | [_], _ => simp
  | a :: b :: rest, h =>
    have free : a ≠ dash := by simpa [IsPlain] using h
    simp [free]

/-- Two dashes begin a long option if the name of one follows them. -/
theorem step_long (optional : state.trailing = false) (option : CommandOption) (more : Bytes) :
    step state (Utf8.encode ("--" ++ option.name) ++ more) =
      long (Utf8.encode option.name ++ more) state := by
  have dashes : Utf8.encode "--" = [dash, dash] := by decide +kernel
  have named : Utf8.encode option.name ≠ [] := by
    rcases option with setting | switch
    · cases setting <;> decide +kernel
    · cases switch <;> decide +kernel
  rw [Utf8.encode_append, dashes]
  unfold step
  simp [optional, named]

theorem splitLong_name (option : CommandOption) :
    splitLong (Utf8.encode option.name) = (Utf8.encode option.name, none) := by
  have whole : (Utf8.encode option.name).takeWhile (· ≠ equalsSign) = Utf8.encode option.name :=
    List.takeWhile_eq_self_iff.mpr (ne_equalsSign_of_name option)
  simp only [splitLong, whole, List.drop_length]

theorem splitLong_value (option : CommandOption) (value : Bytes) :
    splitLong (Utf8.encode option.name ++ equalsSign :: value) =
      (Utf8.encode option.name, some value) := by
  have name : (Utf8.encode option.name ++ equalsSign :: value).takeWhile (· ≠ equalsSign) =
      Utf8.encode option.name := by
    rw [List.takeWhile_append_of_pos (ne_equalsSign_of_name option)]
    simp
  simp only [splitLong, name, List.drop_left]

theorem step_attached (optional : state.trailing = false) (setting : Setting) (value : Bytes) :
    step state (Utf8.encode ("--" ++ setting.name ++ "=") ++ value) =
      next state >>= fun settled => complete (accept setting (some value) settled) := by
  have sign : Utf8.encode "=" = [equalsSign] := by decide +kernel
  have dashed := step_long optional (.setting setting) (equalsSign :: value)
  rw [Utf8.encode_append, sign, List.append_assoc, List.singleton_append]
  refine dashed.trans ?_
  rw [long, splitLong_value]
  simp only [Utf8.decode_encode, CommandOption.ofName?_name]

/-- An option without a value in the same argument. -/
theorem step_name (optional : state.trailing = false) (option : CommandOption) :
    step state (Utf8.encode ("--" ++ option.name)) = long (Utf8.encode option.name) state := by
  have dashed := step_long optional option []
  rwa [List.append_nil, List.append_nil] at dashed

theorem step_apart (optional : state.trailing = false) (setting : Setting) :
    step state (Utf8.encode ("--" ++ setting.name)) =
      (next state).map fun settled => { settled with pending := .setting setting none } := by
  refine (step_name optional (.setting setting)).trans ?_
  rw [long, splitLong_name]
  simp only [Utf8.decode_encode, CommandOption.ofName?_name]
  rfl

theorem step_switch (optional : state.trailing = false) (switch : Switch) :
    step state (Utf8.encode ("--" ++ switch.name)) = next state >>= turnOn switch := by
  refine (step_name optional (.switch switch)).trans ?_
  rw [long, splitLong_name]
  simp only [Utf8.decode_encode, CommandOption.ofName?_name]

theorem next_with_setting (h : state.pending = .nothing) (setting : Setting) (value : Bytes) :
    next { state with pending := .setting setting (some value) } =
      complete (accept setting (some value) state) := by
  obtain ⟨arguments, seen, hasInputs, pending, trailing⟩ := state
  cases h
  rfl

theorem next_with_inputs (h : state.pending = .nothing) (values : List Bytes) :
    next { state with pending := .inputs values } =
      (addInputs values state.arguments).map fun arguments =>
        { state with hasInputs := true, arguments } := by
  obtain ⟨arguments, seen, hasInputs, pending, trailing⟩ := state
  cases h
  exact complete_change _ _

/-- To go on from a settled state is all that counts. -/
theorem map_bind_next {begun : State → State} {taken : State → Except UsageFault State}
    (h : ∀ settled, settled.pending = .nothing → next (begun settled) = taken settled) :
    (next state).map begun >>= next = next state >>= taken := by
  cases found : next state with
  | error fault => rfl
  | ok settled => exact h settled (pending_of_next found).1

theorem plain_bind_next_of_inputs (h : state.pending = .nothing) (values : List Bytes)
    (path : Path) :
    plain path { state with pending := .inputs values } >>= next =
      next { state with pending := .inputs values } >>= (Spelling.input path).takenIn := by
  show next { state with pending := .inputs (values ++ [path]) } = _
  rw [next_with_inputs h, next_with_inputs h, addInputs_append]
  cases addInputs values state.arguments with
  | error fault => rfl
  | ok arguments =>
    show (addInputs [path] arguments).map _ = (addInputs [path] arguments).map _
    cases addInputs [path] arguments <;> rfl

theorem plain_cases (supplied : ∀ setting, state.pending ≠ .setting setting none) (path : Path) :
    (∃ values, state.pending = .inputs values ∧
      plain path state = .ok { state with pending := .inputs (values ++ [path]) }) ∨
    plain path state =
      (next state).map fun settled => { settled with pending := .inputs [path] } := by
  unfold plain
  cases pending : state.pending with
  | nothing => exact .inr rfl
  | setting setting value =>
    cases value with
    | none => exact absurd pending (supplied setting)
    | some value => exact .inr rfl
  | inputs values => exact .inl ⟨values, rfl, rfl⟩

theorem plain_bind_next (supplied : ∀ setting, state.pending ≠ .setting setting none)
    (path : Path) :
    plain path state >>= next = next state >>= (Spelling.input path).takenIn := by
  obtain ⟨values, pending, -⟩ | begun := plain_cases supplied path
  · obtain ⟨arguments, seen, hasInputs, _, trailing⟩ := state
    cases pending
    have nothing : State.pending ⟨arguments, seen, hasInputs, .nothing, trailing⟩ = .nothing := rfl
    exact plain_bind_next_of_inputs nothing values path
  · rw [begun]
    exact map_bind_next fun settled nothing => next_with_inputs nothing [path]

theorem ready_of_next {begun : State → State} {reached : State}
    (h : (next state).map begun = .ok reached) (optional : state.trailing = false)
    (supplied : ∀ settled setting, (begun settled).pending ≠ .setting setting none)
    (same : ∀ settled, (begun settled).trailing = settled.trailing) : reached.Ready := by
  obtain ⟨settled, found, rfl⟩ := map_eq_ok_iff.mp h
  exact ⟨supplied settled, by rw [same, (pending_of_next found).2, optional]⟩

theorem takenIn_fst {spelling : Spelling} {reached : State}
    (h : spelling.takenIn state = .ok reached) :
    reached.pending = state.pending ∧ reached.trailing = state.trailing := by
  cases spelling with
  | input path =>
    simp only [Spelling.takenIn] at h
    cases found : addInputs [path] state.arguments <;> rw [found] at h <;> cases h
    exact ⟨rfl, rfl⟩
  | attached setting value | apart setting value =>
    have same := accept_fst setting (some value) state
    rwa [complete_eq_ok_iff.mp h] at same
  | switch given => exact turnOn_fst h

/-- What is taken in at once leaves nothing pending. -/
theorem bind_takenIn (optional : state.trailing = false) (spelling : Spelling) :
    next state >>= spelling.takenIn >>= next = next state >>= spelling.takenIn ∧
      ∀ reached, next state >>= spelling.takenIn = .ok reached → reached.Ready := by
  have kept {reached : State} (h : next state >>= spelling.takenIn = .ok reached) :
      reached.pending = .nothing ∧ reached.trailing = false := by
    obtain ⟨settled, found, taken⟩ := bind_eq_ok_iff.mp h
    obtain ⟨nothing, same⟩ := pending_of_next found
    obtain ⟨pending, trailing⟩ := takenIn_fst taken
    exact ⟨pending.trans nothing, trailing.trans (same.trans optional)⟩
  refine ⟨bind_of_fixed fun reached h => next_of_nothing (kept h).1, fun reached h => ?_⟩
  obtain ⟨nothing, trailing⟩ := kept h
  exact ⟨fun setting => by simp [nothing], trailing⟩

theorem foldlM_apart (optional : state.trailing = false) {setting : Setting} {value : Bytes}
    (h : IsPlain value) :
    (Spelling.apart setting value).words.foldlM step state =
      (next state).map fun settled =>
        { settled with pending := .setting setting (some value) } := by
  rw [Spelling.words, List.foldlM_cons, step_apart optional]
  cases found : next state with
  | error fault => rfl
  | ok settled =>
    have still := (pending_of_next found).2.trans optional
    let waiting : State := { settled with pending := .setting setting none }
    have given : step waiting value =
        .ok { settled with pending := .setting setting (some value) } := by
      rw [step_plain (show waiting.trailing = false from still) h, plain]
      simp only [waiting, still]
    show [value].foldlM step waiting = _
    rw [List.foldlM_cons, given]
    rfl

/-- The arguments of a spelling leave no option without its value, and once all is settled they have
done what the spelling does. -/
theorem foldlM_words {spelling : Spelling} (wellFormed : spelling.WellFormed)
    (ready : state.Ready) :
    spelling.words.foldlM step state >>= next = next state >>= spelling.takenIn ∧
      ∀ reached, spelling.words.foldlM step state = .ok reached → reached.Ready := by
  obtain ⟨supplied, optional⟩ := ready
  have alone (argument : Bytes) : [argument].foldlM step state = step state argument := by
    rw [List.foldlM_cons]
    cases step state argument <;> rfl
  cases spelling with
  | input path =>
    rw [Spelling.words, alone, step_plain optional wellFormed]
    refine ⟨plain_bind_next supplied path, fun reached h => ?_⟩
    obtain ⟨values, -, more⟩ | begun := plain_cases supplied path
    · rw [more] at h
      cases h
      exact ⟨nofun, optional⟩
    · rw [begun] at h
      exact ready_of_next h optional (fun _ _ => by simp) fun _ => rfl
  | attached setting value =>
    rw [Spelling.words, alone, step_attached optional]
    exact bind_takenIn optional (.attached setting value)
  | apart setting value =>
    rw [foldlM_apart optional wellFormed]
    refine ⟨map_bind_next fun settled nothing => next_with_setting nothing setting value, ?_⟩
    exact fun reached h => ready_of_next h optional (fun _ _ => by simp) fun _ => rfl
  | switch given =>
    rw [Spelling.words, alone, step_switch optional]
    exact bind_takenIn optional (.switch given)

end

theorem foldlM_flatMap_words {spellings : List Spelling} {state : State}
    (wellFormed : ∀ spelling ∈ spellings, spelling.WellFormed) (ready : state.Ready) :
    (spellings.flatMap Spelling.words).foldlM step state >>= next =
      next state >>= spellings.foldlM fun taken spelling => spelling.takenIn taken := by
  -- Inputs next to each other are held back and added together, so that the two sides agree only
  -- once what is pending has been completed.
  induction spellings generalizing state with
  | nil => exact (bind_pure (next state)).symm
  | cons spelling spellings ih =>
    obtain ⟨first, later⟩ := List.forall_mem_cons.mp wellFormed
    obtain ⟨taken, kept⟩ := foldlM_words first ready
    have follow : (spelling.words.foldlM step state >>= fun reached =>
          (spellings.flatMap Spelling.words).foldlM step reached >>= next) =
        spelling.words.foldlM step state >>= fun reached =>
          next reached >>= spellings.foldlM fun taken spelling => spelling.takenIn taken := by
      cases reached : spelling.words.foldlM step state with
      | error fault => rfl
      | ok reached' => exact ih later (kept reached' reached)
    rw [List.flatMap_cons, List.foldlM_append, bind_assoc, follow, ← bind_assoc, taken, bind_assoc]
    rfl

/-- Arguments that spell something do one after the other what their spellings do. -/
theorem parse_words {spellings : List Spelling}
    (wellFormed : ∀ spelling ∈ spellings, spelling.WellFormed) :
    parse (spellings.flatMap Spelling.words) =
      (spellings.foldlM (fun taken spelling => Spelling.takenIn spelling taken) State.start).map
        State.arguments := by
  have ready : State.start.Ready := ⟨fun _ => by simp [State.start], rfl⟩
  have whole := foldlM_flatMap_words wellFormed ready
  rw [next_of_nothing rfl] at whole
  show ((spellings.flatMap Spelling.words).foldlM step State.start >>= fun state =>
    next state >>= fun settled => pure settled.arguments) = _
  rw [← bind_assoc, whole]
  rfl

end CommandLine

end CompilerDriver
