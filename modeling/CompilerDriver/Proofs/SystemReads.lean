import CompilerDriver.Proofs.JoinedReads
import Mathlib.Data.List.Forall2

namespace CompilerDriver

/-- What the system holds for an input: the text of a file, or all of standard input. -/
def Console.held (console : Console) (file : Path → Except IoFault String) :
    InputSource → Except IoFault String
  | .stdin => console.read.1
  | .file path => file path

/-- The buffer that an input comes to when it can be read. -/
def Console.Gives (console : Console) (file : Path → Except IoFault String) (input : InputSource)
    (buffer : Buffer) : Prop :=
  ∃ text, console.held file input = .ok text ∧ buffer = ⟨input.bufferPath, text⟩

namespace Console

/-- Standard input that has been read once is read the same way ever after. -/
theorem read_again {console : Console} {text : String} (h : console.read.1 = .ok text) :
    console.read.2.read = (.ok text, console.read.2) := by
  unfold read at h ⊢
  split at h
  · simp_all
  · split at h <;> simp_all

theorem held_read {console : Console} {file : Path → Except IoFault String} {text : String}
    (h : console.read.1 = .ok text) (input : InputSource) :
    console.read.2.held file input = console.held file input := by
  cases input with
  | stdin => simp only [held, read_again h, h]
  | file path => rfl

end Console

namespace Reader

variable {file : Path → Except IoFault String} {console : Console}

/-- Reads that can all be served each get what the system holds. -/
theorem inTurn_of_held {reads : List (Nat × InputSource)}
    (h : ∀ read ∈ reads, ∃ text, console.held file read.2 = .ok text) :
    inTurn file console reads =
      reads.map fun read => ⟨read.1, read.2, console.held file read.2⟩ := by
  induction reads generalizing console with
  | nil => rfl
  | cons read more ih =>
    obtain ⟨index, input⟩ := read
    obtain ⟨text, first⟩ := h (index, input) (by simp)
    cases input with
    | stdin =>
      have kept : ∀ other, console.read.2.held file other = console.held file other :=
        Console.held_read first
      rw [inTurn, ih fun other ho => by rw [kept]; exact h other (by simp [ho])]
      simp only [kept]
      rfl
    | file path =>
      rw [inTurn, ih fun other ho => h other (by simp [ho])]
      rfl

/-- One read that cannot be served is enough for a refusal, at that read or before it. -/
theorem inTurn_refuses {reads : List (Nat × InputSource)} {read : Nat × InputSource}
    (member : read ∈ reads) {fault : IoFault} (h : console.held file read.2 = .error fault) :
    ∃ completion ∈ inTurn file console reads, ∃ cause, completion.outcome = .error cause := by
  induction reads generalizing console with
  | nil => simp at member
  | cons head more ih =>
    obtain ⟨index, input⟩ := head
    cases first : console.held file input with
    | error cause =>
      refine ⟨⟨index, input, .error cause⟩, ?_, cause, rfl⟩
      cases input <;> simp only [Console.held] at first <;> simp [inTurn, first]
    | ok text =>
      have later : read ∈ more := by
        rcases List.mem_cons.mp member with rfl | later
        · simp [first] at h
        · exact later
      have found : ∃ completion ∈ inTurn file
          (match input with | .stdin => console.read.2 | .file _ => console) more,
          ∃ cause, completion.outcome = .error cause := by
        cases input with
        | stdin => exact ih later ((Console.held_read first read.2).trans h)
        | file path => exact ih later h
      obtain ⟨completion, hc, refused⟩ := found
      refine ⟨completion, ?_, refused⟩
      cases input <;> exact List.mem_cons_of_mem _ hc

/-- The system's reads end as it holds the inputs, whatever order they take effect in. -/
theorem ofSystem_completes {schedule : List (Nat × InputSource) → List (Nat × InputSource)}
    (fair : ∀ reads, (schedule reads).Perm reads) {inputs : List InputSource}
    (readable : ∀ input ∈ inputs, ∃ text, console.held file input = .ok text) :
    (ofSystem file console schedule).Completes inputs fun index =>
      console.held file (inputs.getD index .stdin) := by
  have perm := fair (inputs.mapIdx fun index input => (index, input))
  have served : ∀ read ∈ schedule (inputs.mapIdx fun index input => (index, input)),
      ∃ text, console.held file read.2 = .ok text := by
    intro read hr
    obtain ⟨index, hi, rfl⟩ := List.mem_mapIdx.mp (perm.mem_iff.mp hr)
    exact readable _ (List.getElem_mem hi)
  have inOrder : Completion.inOrder inputs (fun index =>
        console.held file (inputs.getD index .stdin)) =
      (inputs.mapIdx fun index input => (index, input)).map fun read =>
        ⟨read.1, read.2, console.held file read.2⟩ := by
    apply List.ext_getElem (by simp [Completion.inOrder])
    intro index hi _
    have bound : index < inputs.length := by simpa [Completion.inOrder] using hi
    simp [Completion.inOrder, List.getD, bound]
  rw [Completes, ofSystem, ← List.flatMap_def, List.flatMap_singleton', inTurn_of_held served,
    inOrder]
  exact perm.map _

/-- An input that cannot be read makes some read of it, or an earlier one, a refusal. -/
theorem ofSystem_refuses {schedule : List (Nat × InputSource) → List (Nat × InputSource)}
    (fair : ∀ reads, (schedule reads).Perm reads) {inputs : List InputSource} {input : InputSource}
    (member : input ∈ inputs) {fault : IoFault} (h : console.held file input = .error fault) :
    ∃ completion cause, Completion.FirstRefused (ofSystem file console schedule inputs).flatten
      completion cause := by
  obtain ⟨index, hi, rfl⟩ := List.mem_iff_getElem.mp member
  have scheduled : (index, inputs[index]) ∈
      schedule (inputs.mapIdx fun index input => (index, input)) :=
    (fair _).mem_iff.mpr (List.mem_mapIdx.mpr ⟨index, hi, rfl⟩)
  obtain ⟨completion, hc, cause, refused⟩ := inTurn_refuses scheduled h
  have flat : completion ∈ (ofSystem file console schedule inputs).flatten := by
    rw [ofSystem, ← List.flatMap_def, List.flatMap_singleton']
    exact hc
  refine (Completion.all_read_or_firstRefused _).resolve_left fun read => ?_
  obtain ⟨text, ht⟩ := read completion flat
  simp [refused] at ht

/-- Each look of the system finds one read. -/
theorem ofSystem_apart (sources : Nat)
    (schedule : List (Nat × InputSource) → List (Nat × InputSource)) (inputs : List InputSource) :
    Acquisition.Apart sources (ofSystem file console schedule inputs) := by
  intro look hl a ha b hb _ _
  obtain ⟨completion, _, rfl⟩ := List.mem_map.mp hl
  rw [List.mem_singleton.mp ha, List.mem_singleton.mp hb]

end Reader

namespace Acquisition

variable {file : Path → Except IoFault String} {console : Console}

theorem forall₂_gives_iff {inputs : List InputSource} {texts : Nat → String}
    (read : ∀ index (h : index < inputs.length),
      console.held file inputs[index] = .ok (texts index)) (found : List Buffer) :
    List.Forall₂ (console.Gives file) inputs found ↔ found = buffers inputs texts := by
  rw [List.forall₂_iff_get]
  constructor
  · rintro ⟨length, gives⟩
    apply List.ext_getElem (by simp [buffers, length])
    intro index hf hb
    have hi : index < inputs.length := by omega
    obtain ⟨text, held, same⟩ := gives index hi hf
    have eq : texts index = text := by
      simpa [List.get_eq_getElem, read index hi] using held
    simpa [buffers, eq] using same
  · rintro rfl
    refine ⟨by simp [buffers], fun index hi hb => ⟨texts index, read index hi, ?_⟩⟩
    simp [buffers]

theorem readable_of_forall₂_gives {inputs : List InputSource} {found : List Buffer}
    (h : List.Forall₂ (console.Gives file) inputs found) :
    ∀ input ∈ inputs, ∃ text, console.held file input = .ok text := by
  induction h with
  | nil => simp
  | cons gives _ ih =>
    obtain ⟨text, held, _⟩ := gives
    exact List.forall_mem_cons.mpr ⟨⟨text, held⟩, ih⟩

/-- Sources and externs that the system reads are had exactly when each input can be read, and
then each buffer is that of its input. -/
theorem acquireBoth_ofSystem_iff
    {schedule : List (Nat × InputSource) → List (Nat × InputSource)}
    (fair : ∀ reads, (schedule reads).Perm reads) {sources externs : List InputSource}
    {code declarations : List Buffer} :
    (acquireBoth (Reader.ofSystem file console schedule) sources externs).result =
        .ok (code, declarations) ↔
      List.Forall₂ (console.Gives file) sources code ∧
        List.Forall₂ (console.Gives file) externs declarations := by
  by_cases readable : ∀ input ∈ sources ++ externs, ∃ text, console.held file input = .ok text
  · choose! text held using readable
    let whole := fun index => (sources ++ externs).getD index .stdin
    have atSource : ∀ index (hi : index < sources.length), whole index = sources[index] := by
      intro index hi
      simp [whole, List.getD, List.getElem?_append_left hi, hi]
    have atExtern : ∀ index (hi : index < externs.length),
        whole (sources.length + index) = externs[index] := by
      intro index hi
      simp [whole, List.getD, hi]
    have result := acquireBoth_read
      (Reader.ofSystem_completes fair fun input hi => ⟨text input, held input hi⟩)
      fun index hi => held _ (by
        rw [List.getD, List.getElem?_eq_getElem hi]
        exact List.getElem_mem hi)
    have ofSources : ∀ index (hi : index < sources.length),
        console.held file sources[index] = .ok (text (whole index)) := fun index hi => by
      rw [atSource index hi]
      exact held _ (List.mem_append_left _ (List.getElem_mem hi))
    have ofExterns : ∀ index (hi : index < externs.length),
        console.held file externs[index] = .ok (text (whole (sources.length + index))) :=
      fun index hi => by
        rw [atExtern index hi]
        exact held _ (List.mem_append_right _ (List.getElem_mem hi))
    rw [result, forall₂_gives_iff ofSources, forall₂_gives_iff ofExterns, Except.ok.injEq,
      Prod.mk.injEq]
    exact and_congr eq_comm eq_comm
  · push Not at readable
    obtain ⟨input, member, unread⟩ := readable
    constructor
    · intro acquired
      cases h : console.held file input with
      | ok text => exact absurd h (unread text)
      | error cause =>
        obtain ⟨completion, cause, first⟩ := Reader.ofSystem_refuses fair member h
        rw [acquireBoth_refused (Reader.ofSystem_apart _ _ _) first] at acquired
        cases acquired
    · rintro ⟨ofSources, ofExterns⟩
      have read : ∃ text, console.held file input = .ok text := by
        rcases List.mem_append.mp member with source | declared
        · exact readable_of_forall₂_gives ofSources input source
        · exact readable_of_forall₂_gives ofExterns input declared
      obtain ⟨text, held⟩ := read
      exact absurd held (unread text)

end Acquisition

end CompilerDriver
