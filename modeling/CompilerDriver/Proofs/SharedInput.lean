import CompilerDriver.Proofs.ReadMoves

namespace CompilerDriver

/-- The reads of these inputs share one standard input, which comes in these chunks. They move in
any order, and end in any order. -/
def Reader.Shares (reader : Reader) (chunks : List Bytes) (inputs : List InputSource) : Prop :=
  ∃ outcome, Reads.Yields chunks inputs outcome ∧ reader.Completes inputs outcome

namespace Acquisition

/-- All of standard input is in the buffer of every input that is standard input, and there is
nothing else in a buffer without a path. -/
structure HoldWhole (text : String) (inputs : List InputSource) (found : List Buffer) : Prop where
  places : ∀ index : Nat, inputs[index]? = some .stdin → found[index]? = some (.unnamed text)
  contents : ∀ buffer ∈ found, buffer.path = none → buffer.content = text

theorem holdWhole_buffers {text : String} {inputs : List InputSource} {texts : Nat → String}
    (whole : ∀ index : Nat, inputs[index]? = some .stdin → texts index = text) :
    HoldWhole text inputs (buffers inputs texts) := by
  constructor
  · intro index place
    rw [buffers, List.getElem?_mapIdx, place, Option.map_some, whole index place]
    rfl
  · intro buffer member pathless
    obtain ⟨index, bound, rfl⟩ := List.mem_mapIdx.mp member
    have stdin : inputs[index] = .stdin := by
      cases input : inputs[index] with
      | stdin => rfl
      | file path => simp [input, InputSource.bufferPath] at pathless
    exact whole index (stdin ▸ List.getElem?_eq_getElem bound)

/-- One refusal among the completions is a failure, whenever it comes. -/
theorem collect_of_refused {inputs : List InputSource} {outcome : Nat → Except IoFault String}
    {slots : List (Option Buffer)} {completions : List Completion}
    (perm : completions.Perm (Completion.inOrder inputs outcome)) {index : Nat} {cause : IoFault}
    (bound : index < inputs.length) (refused : outcome index = .error cause) :
    ∃ failure, (collect slots completions).result = .error failure := by
  have member : ⟨index, inputs[index], outcome index⟩ ∈ completions :=
    perm.mem_iff.mpr (Completion.mem_inOrder.mpr ⟨List.getElem?_eq_getElem bound, rfl⟩)
  cases found : completions.findSome? Completion.refusal? with
  | none =>
    obtain ⟨text, read⟩ :=
      Completion.refusal?_eq_none.mp (List.findSome?_eq_none_iff.mp found _ member)
    rw [refused] at read
    cases read
  | some failure => exact ⟨failure, collect_refused found⟩

variable {reader : Reader} {chunks : List Bytes} {inputs sources externs : List InputSource}

/-- Either a read that shares standard input is refused, or all reads give texts, those of
standard input its whole text. -/
theorem refused_or_whole (shares : reader.Shares chunks inputs) (member : .stdin ∈ inputs) :
    ∃ outcome, reader.Completes inputs outcome ∧
      ((∃ index < inputs.length, ∃ cause, outcome index = .error cause) ∨
        ∃ (texts : Nat → String) (text : String), chunks.flatten = Utf8.encode text ∧
          (∀ index < inputs.length, outcome index = .ok (texts index)) ∧
          ∀ index : Nat, inputs[index]? = some .stdin → texts index = text) := by
  obtain ⟨outcome, yields, completes⟩ := shares
  refine ⟨outcome, completes, ?_⟩
  by_cases refused : ∃ index < inputs.length, ∃ cause, outcome index = .error cause
  · exact .inl refused
  have read : ∀ index < inputs.length, ∃ text, outcome index = .ok text := by
    intro index bound
    cases h : outcome index with
    | ok text => exact ⟨text, rfl⟩
    | error cause => exact absurd ⟨index, bound, cause, h⟩ refused
  choose! texts given using read
  obtain ⟨text, valid, whole⟩ := (yields.refused_or_shared member).resolve_left refused
  refine .inr ⟨texts, text, valid, given, fun index place => ?_⟩
  have bound := (List.getElem?_eq_some_iff.mp place).1
  exact Except.ok.inj ((given index bound).symm.trans (whole index place))

theorem acquire_shared (shares : reader.Shares chunks inputs) (member : .stdin ∈ inputs) :
    (∃ failure, (acquire reader inputs).result = .error failure) ∨
      ∃ text found, chunks.flatten = Utf8.encode text ∧
        (acquire reader inputs).result = .ok found ∧ HoldWhole text inputs found := by
  obtain ⟨outcome, completes, refused | shared⟩ := refused_or_whole shares member
  · obtain ⟨index, bound, cause, refused⟩ := refused
    rw [acquire_result]
    exact .inl (collect_of_refused completes bound refused)
  · obtain ⟨texts, text, valid, read, whole⟩ := shared
    rw [acquire_result]
    exact .inr ⟨text, _, valid, collect_of_perm completes read, holdWhole_buffers whole⟩

theorem acquireBoth_shared (shares : reader.Shares chunks (sources ++ externs))
    (member : .stdin ∈ sources ++ externs) :
    (∃ failure, (acquireBoth reader sources externs).result = .error failure) ∨
      ∃ text code declarations, chunks.flatten = Utf8.encode text ∧
        (acquireBoth reader sources externs).result = .ok (code, declarations) ∧
        HoldWhole text sources code ∧ HoldWhole text externs declarations := by
  obtain ⟨outcome, completes, refused | shared⟩ := refused_or_whole shares member
  · obtain ⟨index, bound, cause, refused⟩ := refused
    have perm := (alternate_perm sources.length true (reader (sources ++ externs))).trans completes
    obtain ⟨failure, failed⟩ := collect_of_refused perm bound refused
    refine .inl ⟨failure, ?_⟩
    rw [acquireBoth_result, failed]
    rfl
  · obtain ⟨texts, text, valid, read, whole⟩ := shared
    refine .inr ⟨text, _, _, valid, acquireBoth_read completes read, ?_, ?_⟩
    · refine holdWhole_buffers fun index place => whole index ?_
      rw [List.getElem?_append_left (List.getElem?_eq_some_iff.mp place).1, place]
    · refine holdWhole_buffers fun index place => whole _ ?_
      rw [List.getElem?_append_right (Nat.le_add_right ..), Nat.add_sub_cancel_left, place]

end Acquisition

/-- Reads of a system that take effect in any order share the standard input they begin with. -/
theorem Reader.ofSystem_shares {file : Path → Except IoFault String} {chunks : List Bytes}
    {schedule : List (Nat × InputSource) → List (Nat × InputSource)}
    (fair : ∀ reads, (schedule reads).Perm reads) (inputs : List InputSource) :
    (ofSystem file ⟨none, chunks⟩ schedule).Shares chunks inputs := by
  let turns := schedule (inputs.mapIdx fun index input => (index, input))
  have perm : turns.Perm (inputs.mapIdx fun index input => (index, input)) := fair _
  have places : (inputs.mapIdx fun index input => (index, input)).map Prod.fst =
      List.range inputs.length := by
    apply List.ext_getElem (by simp)
    simp
  have distinct : (turns.map Prod.fst).Nodup := by
    rw [(perm.map Prod.fst).nodup_iff, places]
    exact List.nodup_range
  have waiting : ∀ turn ∈ turns, inputs[turn.1]? = some turn.2 ∧
      (Reads.start chunks).state turn.1 = .waiting := by
    intro turn member
    obtain ⟨index, bound, rfl⟩ := List.mem_mapIdx.mp (perm.mem_iff.mp member)
    exact ⟨List.getElem?_eq_getElem bound, rfl⟩
  obtain ⟨reads, outcome, moves, complete, ends, _⟩ :=
    Reads.exists_moves_inTurn file distinct waiting fun _ _ => by simp [Reads.start]
  have inOrder : Completion.inOrder inputs outcome =
      (inputs.mapIdx fun index input => (index, input)).map fun turn =>
        ⟨turn.1, turn.2, outcome turn.1⟩ := by
    apply List.ext_getElem <;> simp [Completion.inOrder]
  refine ⟨outcome, ⟨reads, moves, fun index bound => ?_⟩, ?_⟩
  · have member : (index, inputs[index]) ∈ turns :=
      perm.mem_iff.mpr (List.mem_mapIdx.mpr ⟨index, bound, rfl⟩)
    exact ends _ member
  · rw [Completes, ofSystem, ← List.flatMap_def, List.flatMap_singleton', inOrder]
    show (Reader.inTurn file (Reads.start chunks).console turns).Perm _
    rw [complete]
    exact perm.map _

/-- A stream that holds no text is lost to the read that drains it; the next one finds its end
and takes that for an empty text. -/
theorem Reads.exists_yields_drained {chunks : List Bytes}
    (invalid : ∀ text, chunks.flatten ≠ Utf8.encode text) :
    ∃ outcome cause, Reads.Yields chunks [.stdin, .stdin] outcome ∧
      outcome 0 = .error cause ∧ outcome 1 = .ok "" := by
  obtain ⟨outcome, yields, completes⟩ :=
    @Reader.ofSystem_shares (fun _ => .error .notFound) chunks id (fun _ => .refl _)
      [.stdin, .stdin]
  cases decoded : Utf8.decode chunks.flatten with
  | ok text => exact absurd (Utf8.decode_eq_ok_iff.mp decoded) (invalid text)
  | error fault =>
    have listed : (Reader.ofSystem (fun _ => .error .notFound) ⟨none, chunks⟩ id
        [.stdin, .stdin]).flatten =
          [⟨0, .stdin, .error (.invalidText fault)⟩, ⟨1, .stdin, .ok ""⟩] := by
      have ended : Utf8.decode [] = .ok "" := Utf8.decode_encode ""
      simp [Reader.ofSystem, Reader.inTurn, Console.read, decoded, ended]
    rw [Reader.Completes, listed] at completes
    have first := (Completion.mem_inOrder.mp (completes.mem_iff.mp List.mem_cons_self)).2
    have second := (Completion.mem_inOrder.mp
      (completes.mem_iff.mp (List.mem_cons_of_mem _ List.mem_cons_self))).2
    exact ⟨outcome, _, yields, first.symm, second.symm⟩

namespace Session

/-- A compilation that reads standard input fails before the engine is called, or it is of
buffers that hold all of it. -/
theorem compileInputs_shared {session : Session} {engine : Engine} {reader : Reader}
    {chunks : List Bytes} {inputs externs : List InputSource} {loose : LooseFlags} :
    let sources := Compilation.sourcesToRead loose.normalize inputs
    let run := (session.compileInputs engine reader inputs externs loose).1
    .stdin ∈ sources ++ externs → reader.Shares chunks (sources ++ externs) →
    ((∃ failure, run.result = .error failure) ∧ run.invocations = []) ∨
      ∃ text code declarations, chunks.flatten = Utf8.encode text ∧
        Acquisition.HoldWhole text sources code ∧ Acquisition.HoldWhole text externs declarations ∧
        ∀ compilation, run.result = .ok compilation →
          compilation.flags = Compilation.extended loose code declarations := by
  intro sources run member shares
  cases loaded : session.defaults.1.result with
  | error failure =>
    obtain ⟨result, deeds⟩ := @compileInputs_of_unloaded session engine reader inputs externs loose
      failure loaded
    refine .inl ⟨⟨failure, result⟩, ?_⟩
    rw [Run.invocations_eq_deeds, deeds]
    rfl
  | ok defaults =>
    obtain ⟨result, deeds⟩ := @compileInputs_of_loaded session engine reader inputs externs loose
      defaults loaded
    rcases Acquisition.acquireBoth_shared shares member with ⟨failure, refused⟩ | shared
    · have failed := result.trans (Compilation.compileInputs_result_of_refused refused)
      refine .inl ⟨⟨failure, failed⟩, ?_⟩
      rw [Run.invocations_eq_deeds, deeds, ← Run.invocations_eq_deeds]
      exact (Compilation.compileInputs_asks_of_refused refused).2
    · obtain ⟨text, code, declarations, valid, acquired, ofSources, ofExterns⟩ := shared
      refine .inr ⟨text, code, declarations, valid, ofSources, ofExterns, ?_⟩
      intro compilation compiled
      have read := result.trans (Compilation.compileInputs_result_of_read acquired)
      rw [compiled] at read
      cases called : (engine (.ofFlags (Compilation.extended loose code declarations)
          defaults)).result with
      | ok answer =>
        rw [called] at read
        rw [Except.ok.inj read]
      | error fault =>
        rw [called] at read
        cases read

/-- Standard input is consumed once and shared whole. Whenever reads share it, in whatever chunks
it comes and whichever read moves next: the buffers that are had hold all of it, where it is text;
where it is none, there are no buffers, and the engine is not called. -/
theorem stdin_shared_whole {reader : Reader} {chunks : List Bytes} :
    (∀ inputs, .stdin ∈ inputs → reader.Shares chunks inputs →
      (∀ text found, chunks.flatten = Utf8.encode text →
        (Acquisition.acquire reader inputs).result = .ok found →
        Acquisition.HoldWhole text inputs found) ∧
      ((∀ text, chunks.flatten ≠ Utf8.encode text) →
        ∃ failure, (Acquisition.acquire reader inputs).result = .error failure)) ∧
    (∀ (session : Session) engine inputs externs loose,
      let sources := Compilation.sourcesToRead loose.normalize inputs
      let run := (session.compileInputs engine reader inputs externs loose).1
      .stdin ∈ sources ++ externs → reader.Shares chunks (sources ++ externs) →
      (∀ text compilation, chunks.flatten = Utf8.encode text → run.result = .ok compilation →
        ∃ code declarations, compilation.flags.jsCode = loose.jsCode ++ code ∧
          compilation.flags.externs = loose.externs ++ declarations ∧
          Acquisition.HoldWhole text sources code ∧
          Acquisition.HoldWhole text externs declarations) ∧
      ((∀ text, chunks.flatten ≠ Utf8.encode text) →
        (∃ failure, run.result = .error failure) ∧ run.invocations = [])) ∧
    ((∀ text, chunks.flatten ≠ Utf8.encode text) →
      ∃ outcome cause, Reads.Yields chunks [.stdin, .stdin] outcome ∧
        outcome 0 = .error cause ∧ outcome 1 = .ok "") := by
  refine ⟨?_, ?_, Reads.exists_yields_drained⟩
  · intro inputs member shares
    rcases Acquisition.acquire_shared shares member with ⟨failure, failed⟩ | shared
    · refine ⟨fun _ _ _ acquired => ?_, fun _ => ⟨failure, failed⟩⟩
      rw [failed] at acquired
      cases acquired
    · obtain ⟨whole, found, valid, acquired, holds⟩ := shared
      refine ⟨fun text given same had => ?_, fun invalid => absurd valid (invalid whole)⟩
      obtain rfl : whole = text := Utf8.encode_injective (valid.symm.trans same)
      obtain rfl : found = given := Except.ok.inj (acquired.symm.trans had)
      exact holds
  · intro session engine inputs externs loose sources run member shares
    rcases compileInputs_shared member shares with ⟨⟨failure, failed⟩, uninvoked⟩ | shared
    · refine ⟨fun _ _ _ compiled => ?_, fun _ => ⟨⟨failure, failed⟩, uninvoked⟩⟩
      rw [failed] at compiled
      cases compiled
    · obtain ⟨whole, code, declarations, valid, ofSources, ofExterns, flags⟩ := shared
      refine ⟨fun text compilation same compiled => ?_, fun invalid => absurd valid (invalid whole)⟩
      obtain rfl : whole = text := Utf8.encode_injective (valid.symm.trans same)
      rw [flags compilation compiled]
      exact ⟨code, declarations, rfl, rfl, ofSources, ofExterns⟩

/-- Two buffers of one character that comes in two chunks, and a compilation of octets that are
none, which the second read finds gone. -/
theorem stdin_shared_in_two :
    let reader (chunks : List Bytes) : Reader :=
      .ofSystem (fun _ => .error .notFound) ⟨none, chunks⟩ List.reverse
    let session : Session := ⟨⟨fun _ => .error .notFound, fun _ => .error .notFound⟩, none, some []⟩
    let engine : Engine := fun _ => pure ⟨"", none, [], []⟩
    let run := (session.compileInputs engine (reader [[0xC3], [0x28]]) [] [.stdin] .blank).1
    Acquisition.HoldWhole "€" [.stdin, .stdin] [.unnamed "€", .unnamed "€"] ∧
      (∃ failure, run.result = .error failure) ∧ run.invocations = [] := by
  intro reader session engine run
  have shares (chunks : List Bytes) (inputs : List InputSource) :
      (reader chunks).Shares chunks inputs :=
    Reader.ofSystem_shares List.reverse_perm inputs
  have whole : Utf8.decode [0xE2, 0x82, 0xAC] = .ok "€" := Utf8.decode_eq_ok_iff.mpr (by decide)
  have acquired : (Acquisition.acquire (reader [[0xE2, 0x82], [0xAC]]) [.stdin, .stdin]).result =
      .ok [.unnamed "€", .unnamed "€"] := by
    simp [Acquisition.acquire_result, reader, Reader.ofSystem, Reader.inTurn, Console.read, whole]
    rfl
  have invalid : ∀ text, [[0xC3], [0x28]].flatten ≠ Utf8.encode text := by
    intro text same
    have broken : Utf8.front [[0xC3], [0x28]].flatten = .broken [0xC3] false [0x28] := by rfl
    have decoded := Utf8.decode_eq_ok_iff.mpr same
    rw [Utf8.decode, Utf8.pieces_of_broken broken] at decoded
    cases decoded
  exact ⟨(stdin_shared_whole.1 [.stdin, .stdin] List.mem_cons_self (shares _ _)).1 "€" _ (by decide)
      acquired,
    (stdin_shared_whole.2.1 session engine [] [.stdin] .blank (by decide) (shares _ _)).2 invalid⟩

end Session

end CompilerDriver
