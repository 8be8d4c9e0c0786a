import CompilerDriver.Acquisition
import CompilerDriver.Proofs.Deeds

namespace CompilerDriver

/-- Why a build fails when this read is the first that is refused. -/
def Completion.refusal? (completion : Completion) : Option Failure :=
  match completion.outcome with
  | .ok _ => none
  | .error cause => some (.read completion.input.shown cause)

/-- The completions of a list of inputs when `outcome` tells what the read at each place comes
to, in the order of the inputs. -/
def Completion.inOrder (inputs : List InputSource) (outcome : Nat → Except IoFault String) :
    List Completion :=
  inputs.mapIdx fun index input => ⟨index, input, outcome index⟩

/-- The reads of these inputs end as `outcome` says, each of them once, in any order and with any
number of them at a time. -/
def Reader.Completes (reader : Reader) (inputs : List InputSource)
    (outcome : Nat → Except IoFault String) : Prop :=
  (reader inputs).flatten.Perm (Completion.inOrder inputs outcome)

/-- Among these completions, this one is the first that does not give a text. -/
def Completion.FirstRefused (completions : List Completion) (completion : Completion)
    (cause : IoFault) : Prop :=
  ∃ before after, completions = before ++ completion :: after ∧
    (∀ earlier ∈ before, ∃ text, earlier.outcome = .ok text) ∧ completion.outcome = .error cause

namespace Completion

theorem refusal?_eq_none {completion : Completion} :
    completion.refusal? = none ↔ ∃ text, completion.outcome = .ok text := by
  unfold refusal?
  cases completion.outcome <;> simp

theorem refusal?_of_error {completion : Completion} {cause : IoFault}
    (h : completion.outcome = .error cause) :
    completion.refusal? = some (.read completion.input.shown cause) := by
  simp [refusal?, h]

theorem mem_inOrder {inputs : List InputSource} {outcome : Nat → Except IoFault String}
    {completion : Completion} :
    completion ∈ inOrder inputs outcome ↔
      inputs[completion.index]? = some completion.input ∧
        completion.outcome = outcome completion.index := by
  obtain ⟨index, input, result⟩ := completion
  simp only [inOrder, List.mem_mapIdx, Completion.mk.injEq, List.getElem?_eq_some_iff]
  constructor
  · rintro ⟨i, hi, rfl, rfl, rfl⟩
    exact ⟨⟨hi, rfl⟩, rfl⟩
  · rintro ⟨⟨hi, hinput⟩, rfl⟩
    exact ⟨index, hi, rfl, hinput, rfl⟩

theorem findSome?_refusal_of_firstRefused {completions : List Completion}
    {completion : Completion} {cause : IoFault} (h : FirstRefused completions completion cause) :
    completions.findSome? refusal? = some (.read completion.input.shown cause) := by
  obtain ⟨before, after, rfl, read, refused⟩ := h
  have passed : before.findSome? refusal? = none :=
    List.findSome?_eq_none_iff.mpr fun earlier he => refusal?_eq_none.mpr (read earlier he)
  simp [List.findSome?_append, passed, refusal?_of_error refused]

/-- Either every read gives a text, or one of them is the first that does not. -/
theorem all_read_or_firstRefused (completions : List Completion) :
    (∀ completion ∈ completions, ∃ text, completion.outcome = .ok text) ∨
      ∃ completion cause, FirstRefused completions completion cause := by
  cases h : completions.findSome? refusal? with
  | none =>
    exact .inl fun completion hc =>
      refusal?_eq_none.mp (List.findSome?_eq_none_iff.mp h completion hc)
  | some failure =>
    obtain ⟨before, completion, after, split, refused, passed⟩ := List.findSome?_eq_some_iff.mp h
    cases hr : completion.outcome with
    | ok text => simp [refusal?, hr] at refused
    | error cause =>
      exact .inr ⟨completion, cause, before, after, split,
        fun earlier he => refusal?_eq_none.mp (passed earlier he), hr⟩

end Completion

/-- When one of the inputs cannot be read, one of those that cannot is the first to end. -/
theorem Reader.Completes.exists_firstRefused {reader : Reader} {inputs : List InputSource}
    {outcome : Nat → Except IoFault String} (completes : reader.Completes inputs outcome)
    {place : Nat} {fault : IoFault} (hp : place < inputs.length)
    (refused : outcome place = .error fault) :
    ∃ index input cause, inputs[index]? = some input ∧ outcome index = .error cause ∧
      Completion.FirstRefused (reader inputs).flatten ⟨index, input, outcome index⟩ cause := by
  rcases Completion.all_read_or_firstRefused (reader inputs).flatten with read | first
  · have member : ⟨place, inputs[place], outcome place⟩ ∈ (reader inputs).flatten :=
      completes.mem_iff.mpr (Completion.mem_inOrder.mpr ⟨List.getElem?_eq_getElem hp, rfl⟩)
    obtain ⟨text, ht⟩ := read _ member
    simp [refused] at ht
  · obtain ⟨completion, cause, first⟩ := first
    have member : completion ∈ (reader inputs).flatten := by
      obtain ⟨before, after, split, _⟩ := first
      simp [split]
    obtain ⟨hinput, result⟩ := Completion.mem_inOrder.mp (completes.mem_iff.mp member)
    have same : completion = ⟨completion.index, completion.input, outcome completion.index⟩ := by
      rw [← result]
    have failed : completion.outcome = .error cause := by
      obtain ⟨_, _, _, _, hc⟩ := first
      exact hc
    exact ⟨completion.index, completion.input, cause, hinput, result.symm.trans failed,
      same ▸ first⟩

namespace Acquisition

/-- The buffers of inputs whose texts are known, in the order of the inputs. -/
def buffers (inputs : List InputSource) (texts : Nat → String) : List Buffer :=
  inputs.mapIdx fun index input => ⟨input.bufferPath, texts index⟩

/-- The slots once the reads at the places in `done` have given their texts. -/
def filled (inputs : List InputSource) (texts : Nat → String) (done : List Nat) :
    List (Option Buffer) :=
  inputs.mapIdx fun index input =>
    if index ∈ done then some ⟨input.bufferPath, texts index⟩ else none

theorem filled_nil (inputs : List InputSource) (texts : Nat → String) :
    filled inputs texts [] = inputs.map fun _ => none := by
  apply List.ext_getElem?
  intro index
  simp only [filled, List.getElem?_mapIdx, List.getElem?_map, List.not_mem_nil, if_false]

theorem set_filled {inputs : List InputSource} {texts : Nat → String} {done : List Nat}
    {index : Nat} {input : InputSource} (h : inputs[index]? = some input) :
    (filled inputs texts done).set index (some ⟨input.bufferPath, texts index⟩) =
      filled inputs texts (index :: done) := by
  apply List.ext_getElem?
  intro i
  by_cases hi : i = index
  · subst i
    obtain ⟨bound, rfl⟩ := List.getElem?_eq_some_iff.mp h
    simp [filled, bound]
  · simp [filled, hi, Ne.symm hi]

/-- When no slot is empty, dropping the empty ones drops nothing. -/
theorem filterMap_filled {inputs : List InputSource} {texts : Nat → String} {done : List Nat}
    (h : ∀ index < inputs.length, index ∈ done) :
    (filled inputs texts done).filterMap id = buffers inputs texts := by
  have full : filled inputs texts done = (buffers inputs texts).map some := by
    apply List.ext_getElem (by simp [filled, buffers])
    intro index hi _
    have bound : index < inputs.length := by simpa [filled] using hi
    simp [filled, buffers, h index bound]
  rw [full, List.filterMap_map]
  exact List.filterMap_some

theorem collect_deeds (slots : List (Option Buffer)) (completions : List Completion) :
    (collect slots completions).deeds = [] := by
  induction completions generalizing slots with
  | nil => rfl
  | cons completion more ih =>
    unfold collect
    split
    · rw [Run.deeds_bind_ok (Run.result_log ..), Run.deeds_log, ih]
      rfl
    · rw [Run.deeds_bind_ok (Run.result_log ..)]
      rfl

theorem collect_cons_ok {slots : List (Option Buffer)} {completion : Completion}
    {more : List Completion} {text : String} (h : completion.outcome = .ok text) :
    (collect slots (completion :: more)).result =
      (collect (slots.set completion.index (some ⟨completion.input.bufferPath, text⟩))
        more).result := by
  simp only [collect, h, Run.result_bind, Run.result_log, Except.bind]

/-- The first refusal decides, whatever has been stored before it. -/
theorem collect_refused {slots : List (Option Buffer)} {completions : List Completion}
    {failure : Failure} (h : completions.findSome? Completion.refusal? = some failure) :
    (collect slots completions).result = .error failure := by
  induction completions generalizing slots with
  | nil => simp at h
  | cons completion more ih =>
    cases ho : completion.outcome with
    | ok text =>
      have passed : completion.refusal? = none := Completion.refusal?_eq_none.mpr ⟨text, ho⟩
      rw [collect_cons_ok ho]
      exact ih (by simpa [passed] using h)
    | error cause =>
      have same : Failure.read completion.input.shown cause = failure := by
        simpa [Completion.refusal?_of_error ho] using h
      simp only [collect, ho, Run.result_bind, Run.result_log, Run.result_fail, Except.bind, same]

/-- Reads that all give their texts fill the slots of their places and no others. -/
theorem collect_read {inputs : List InputSource} {texts : Nat → String} {done : List Nat}
    {completions : List Completion}
    (h : ∀ completion ∈ completions, inputs[completion.index]? = some completion.input ∧
      completion.outcome = .ok (texts completion.index)) :
    (collect (filled inputs texts done) completions).result =
      .ok ((filled inputs texts
        ((completions.map Completion.index).reverse ++ done)).filterMap id) := by
  induction completions generalizing done with
  | nil => rfl
  | cons completion more ih =>
    obtain ⟨place, read⟩ := h completion (by simp)
    rw [collect_cons_ok read, set_filled place, ih fun other ho => h other (by simp [ho])]
    simp

/-- Completions of all the inputs, in any order. -/
theorem collect_of_perm {inputs : List InputSource} {outcome : Nat → Except IoFault String}
    {texts : Nat → String} {completions : List Completion}
    (perm : completions.Perm (Completion.inOrder inputs outcome))
    (read : ∀ index < inputs.length, outcome index = .ok (texts index)) :
    (collect (inputs.map fun _ => none) completions).result = .ok (buffers inputs texts) := by
  rw [← filled_nil inputs texts, collect_read, List.append_nil, filterMap_filled]
  · intro index hi
    rw [List.mem_reverse, (perm.map Completion.index).mem_iff]
    have member : ⟨index, inputs[index], outcome index⟩ ∈ Completion.inOrder inputs outcome :=
      Completion.mem_inOrder.mpr ⟨List.getElem?_eq_getElem hi, rfl⟩
    exact List.mem_map_of_mem member
  · intro completion hc
    obtain ⟨place, result⟩ := Completion.mem_inOrder.mp (perm.mem_iff.mp hc)
    have bound := (List.getElem?_eq_some_iff.mp place).1
    exact ⟨place, result.trans (read _ bound)⟩

theorem acquire_result (reader : Reader) (inputs : List InputSource) :
    (acquire reader inputs).result =
      (collect (inputs.map fun _ => none) (reader inputs).flatten).result := by
  rfl

theorem requestAll_result (inputs : List InputSource) : (requestAll inputs).result = .ok () := rfl

theorem requestAll_deeds (inputs : List InputSource) :
    (requestAll inputs).deeds = inputs.map .request := by
  simp [Run.deeds, requestAll, Action.isLog]

theorem acquire_deeds (reader : Reader) (inputs : List InputSource) :
    (acquire reader inputs).deeds = inputs.map .request := by
  rw [acquire, Run.deeds_bind_ok (requestAll_result inputs), requestAll_deeds, collect_deeds,
    List.append_nil]

end Acquisition

end CompilerDriver
