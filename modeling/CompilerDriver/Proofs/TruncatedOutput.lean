import CompilerDriver.Proofs.LineWriting

namespace CompilerDriver

namespace Sink

variable {sink : Sink} {a b octets : Bytes} {pieces : List Bytes}

/-- Whether the stream has room for all of these octets. -/
def Fits (sink : Sink) (octets : Bytes) : Prop :=
  ∀ limit ∈ sink.limit, octets.length ≤ limit - sink.stored.length

/-- The stream behind these octets, or behind the part of them that fits. -/
def filled (sink : Sink) (octets : Bytes) : Sink :=
  { sink with
    stored := sink.stored ++
      sink.limit.elim octets fun limit => octets.take (limit - sink.stored.length) }

@[simp] theorem filled_nil (sink : Sink) : sink.filled [] = sink := by
  obtain ⟨limit, full, flushFault, stored⟩ := sink
  cases limit <;> simp [filled]

theorem fits_nil (sink : Sink) : sink.Fits [] :=
  fun _ _ => Nat.zero_le _

theorem put_of_fits (h : sink.Fits octets) : sink.put octets = (.ok (), sink.filled octets) := by
  unfold put filled
  cases bound : sink.limit with
  | none => rfl
  | some limit =>
    have room := h limit bound
    simp only [room, if_true, Option.elim_some]

theorem put_of_not_fits (h : ¬sink.Fits octets) :
    sink.put octets = (.error sink.full, sink.filled octets) := by
  unfold put filled
  cases bound : sink.limit with
  | none => exact absurd (fun limit member => by simp [bound] at member) h
  | some limit =>
    have beyond : ¬octets.length ≤ limit - sink.stored.length := by
      intro room
      refine h fun other member => ?_
      obtain rfl : limit = other := by simpa [bound] using member
      exact room
    simp only [beyond, if_false, Option.elim_some]

theorem filled_append (sink : Sink) (a b : Bytes) :
    sink.filled (a ++ b) = (sink.filled a).filled b := by
  unfold filled
  cases sink.limit with
  | none => simp
  | some limit =>
    simp only [Option.elim_some, List.append_assoc, List.take_append, List.length_append,
      List.length_take]
    congr 4
    omega

theorem fits_append_iff : sink.Fits (a ++ b) ↔ sink.Fits a ∧ (sink.filled a).Fits b := by
  unfold Fits filled
  cases sink.limit with
  | none => simp
  | some limit =>
    simp only [Option.mem_some, forall_eq', Option.elim_some, List.length_append, List.length_take]
    omega

/-- A stream that has refused octets is full. -/
theorem filled_append_of_not_fits (h : ¬sink.Fits a) : sink.filled (a ++ b) = sink.filled a := by
  unfold Fits at h
  unfold filled
  cases bound : sink.limit with
  | none => simp [bound] at h
  | some limit =>
    have beyond : limit - sink.stored.length < a.length := by simpa [bound] using h
    simp only [Option.elim_some, List.take_append_of_le_length (Nat.le_of_lt beyond)]

theorem putAll_of_fits (h : sink.Fits pieces.flatten) :
    sink.putAll pieces = (.ok (), sink.filled pieces.flatten) := by
  induction pieces generalizing sink with
  | nil => simp [putAll]
  | cons piece more ih =>
    obtain ⟨first, rest⟩ := fits_append_iff.mp h
    simp only [putAll, put_of_fits first, ih rest, List.flatten_cons, filled_append]

theorem putAll_of_not_fits (h : ¬sink.Fits pieces.flatten) :
    sink.putAll pieces = (.error sink.full, sink.filled pieces.flatten) := by
  induction pieces generalizing sink with
  | nil => exact absurd sink.fits_nil h
  | cons piece more ih =>
    by_cases first : sink.Fits piece
    · have rest : ¬(sink.filled piece).Fits more.flatten := fun rest =>
        h (fits_append_iff.mpr ⟨first, rest⟩)
      simp only [putAll, put_of_fits first, ih rest, List.flatten_cons, filled_append]
      rfl
    · simp only [putAll, put_of_not_fits first, List.flatten_cons, filled_append_of_not_fits first]

theorem putAllFlushed_of_fits (h : sink.Fits pieces.flatten) :
    sink.putAllFlushed pieces = (sink.flush, sink.filled pieces.flatten) := by
  rw [putAllFlushed, putAll_of_fits h]
  rfl

theorem putAllFlushed_of_not_fits (h : ¬sink.Fits pieces.flatten) :
    sink.putAllFlushed pieces = (.error sink.full, sink.filled pieces.flatten) := by
  rw [putAllFlushed, putAll_of_not_fits h]

theorem putAll_snd (sink : Sink) (pieces : List Bytes) :
    (sink.putAll pieces).2 = sink.filled pieces.flatten := by
  by_cases h : sink.Fits pieces.flatten
  · rw [putAll_of_fits h]
  · rw [putAll_of_not_fits h]

theorem putAllFlushed_snd (sink : Sink) (pieces : List Bytes) :
    (sink.putAllFlushed pieces).2 = sink.filled pieces.flatten := by
  by_cases h : sink.Fits pieces.flatten
  · rw [putAllFlushed_of_fits h]
  · rw [putAllFlushed_of_not_fits h]

/-- It makes no difference into which pieces the octets are cut. -/
theorem putAllFlushed_congr {others : List Bytes} (h : pieces.flatten = others.flatten)
    (sink : Sink) : sink.putAllFlushed pieces = sink.putAllFlushed others := by
  by_cases room : sink.Fits pieces.flatten
  · rw [putAllFlushed_of_fits room, h, putAllFlushed_of_fits (h ▸ room)]
  · rw [putAllFlushed_of_not_fits room, h, putAllFlushed_of_not_fits (h ▸ room)]

/-- A stream that takes everything. -/
def unlimited : Sink :=
  ⟨none, .other "", none, []⟩

/-- All that is written to a stream that takes everything. -/
def whole (write : Sink → Except IoFault Unit × Sink) : Bytes :=
  (write unlimited).2.stored

/-- A stream that takes so many octets keeps that much of the front of what is written. The write
succeeds when nothing had to be left out and the flush behind it succeeds, whatever pieces it
is made in. -/
structure Truncates (write : Sink → Except IoFault Unit × Sink) : Prop where
  stored : ∀ limit full flushFault, (write ⟨some limit, full, flushFault, []⟩).2.stored =
    (whole write).take (min limit (whole write).length)
  succeeds : ∀ limit full flushFault, (write ⟨some limit, full, flushFault, []⟩).1 = .ok () ↔
    (whole write).length ≤ limit ∧ flushFault = none
  refused : ∀ limit full flushFault, limit < (whole write).length →
    (write ⟨some limit, full, flushFault, []⟩).1 = .error full
  inPieces : ∀ pieces : List Bytes, pieces.flatten = whole write →
    ∀ sink, write sink = sink.putAllFlushed pieces

theorem filled_unlimited (octets : Bytes) : (unlimited.filled octets).stored = octets := rfl

theorem fits_fresh_iff {limit : Nat} {full : IoFault} {flushFault : Option IoFault} :
    Fits ⟨some limit, full, flushFault, []⟩ octets ↔ octets.length ≤ limit := by
  simp [Fits]

theorem filled_fresh (limit : Nat) (full : IoFault) (flushFault : Option IoFault)
    (octets : Bytes) :
    (filled ⟨some limit, full, flushFault, []⟩ octets).stored = octets.take limit := by
  simp [filled]

section

variable {write : Sink → Except IoFault Unit × Sink}
  (h : ∀ sink, write sink = sink.putAllFlushed pieces)

include h

theorem whole_of_putAllFlushed : whole write = pieces.flatten := by
  rw [whole, h, putAllFlushed_snd, filled_unlimited]

theorem truncates_of_putAllFlushed : Truncates write := by
  have all := whole_of_putAllFlushed h
  obtain rfl : write = fun sink => sink.putAllFlushed pieces := funext h
  constructor
  · intro limit full flushFault
    rw [all, putAllFlushed_snd, filled_fresh, List.take_eq_take_min]
  · intro limit full flushFault
    rw [all]
    by_cases room : Fits ⟨some limit, full, flushFault, []⟩ pieces.flatten
    · have short := fits_fresh_iff.mp room
      rw [putAllFlushed_of_fits room]
      cases flushFault with
      | none => exact ⟨fun _ => ⟨short, rfl⟩, fun _ => rfl⟩
      | some cause => simp [flush]
    · have long : ¬pieces.flatten.length ≤ limit := fun short => room (fits_fresh_iff.mpr short)
      rw [putAllFlushed_of_not_fits room]
      refine ⟨fun done => ?_, fun both => absurd both.1 long⟩
      cases done
  · intro limit full flushFault long
    rw [all] at long
    have room : ¬Fits ⟨some limit, full, flushFault, []⟩ pieces.flatten := fun room =>
      absurd (fits_fresh_iff.mp room) (Nat.not_le.mpr long)
    rw [putAllFlushed_of_not_fits room]
  · intro others same sink
    exact putAllFlushed_congr (all.symm.trans same.symm) sink

end

end Sink

namespace Report

open Sink Functor

theorem whole_write (mode : ColorMode) (sources externs : List Buffer)
    (result : CompilationResult) :
    whole (write mode sources externs result) = text mode sources externs result :=
  whole_of_putAllFlushed (write_eq_putAllFlushed mode sources externs result)

theorem whole_writeDiagnostic (mode : ColorMode) (sources externs : List Buffer)
    (diagnostic : Diagnostic) :
    whole (writeDiagnostic mode sources externs diagnostic) =
      (written (block mode sources externs diagnostic)).flatten := by
  rw [whole, writeDiagnostic_eq_putAll, putAll_snd, filled_unlimited]

/-- A report consists of what is written about each diagnostic by itself. -/
theorem text_eq_flatMap (mode : ColorMode) (sources externs : List Buffer)
    (result : CompilationResult) :
    text mode sources externs result =
      (result.warnings ++ result.errors).flatMap fun diagnostic =>
        whole (writeDiagnostic mode sources externs diagnostic) := by
  rw [text, lines]
  induction result.warnings ++ result.errors with
  | nil => rfl
  | cons diagnostic more ih =>
    rw [List.flatMap_cons, List.flatMap_cons, ← ih, whole_writeDiagnostic, written,
      List.map_append, List.flatten_append]
    rfl

theorem writeStep_snd (mode : ColorMode) (step : Step) (sink : Sink) :
    (writeStep mode step sink).2 = sink.filled (whole (writeStep mode step)) := by
  cases step with
  | diagnostic diagnostic sources externs =>
    have all := whole_writeDiagnostic mode sources externs diagnostic
    rw [writeStep, all, writeDiagnostic_eq_putAll, putAll_snd]
  | report result sources externs =>
    have all := whole_write mode sources externs result
    rw [writeStep, all, write_eq_putAllFlushed, putAllFlushed_snd]
    rfl

/-- Each use of a renderer goes on where the one before it has stopped. -/
theorem writeSteps_snd (mode : ColorMode) (steps : List Step) (sink : Sink) :
    (writeSteps mode steps sink).2 =
      sink.filled (steps.flatMap fun step => whole (writeStep mode step)) := by
  induction steps generalizing sink with
  | nil => exact sink.filled_nil.symm
  | cons step more ih =>
    rw [List.flatMap_cons, filled_append, ← writeStep_snd, ← ih]
    rfl

theorem truncates_write (mode : ColorMode) (sources externs : List Buffer)
    (result : CompilationResult) : Truncates (write mode sources externs result) :=
  truncates_of_putAllFlushed (write_eq_putAllFlushed mode sources externs result)

/-- Without its verdict, a judged report is a report. -/
theorem discard_judge (mode : ColorMode) (sources externs : List Buffer)
    (result : CompilationResult) :
    discard (judge mode sources externs result) = write mode sources externs result := by
  simp [judge, discard, map_const]

/-- A stream that fails keeps the front of what is written and nothing else: of a report, which
consists of what is written about each warning and then about each error by itself, of a judged
report, which has a verdict where it could be written, of compiled code, and of all that one
renderer writes in any number of uses. -/
theorem failing_sink_truncates :
    (∀ mode sources externs result, Truncates (write mode sources externs result) ∧
      whole (write mode sources externs result) =
        (result.warnings ++ result.errors).flatMap fun diagnostic =>
          whole (writeDiagnostic mode sources externs diagnostic)) ∧
    (∀ mode sources externs result, Truncates (discard (judge mode sources externs result)) ∧
      ∀ sink, judge mode sources externs result sink =
        ((write mode sources externs result sink).1.map fun _ => result.hasFatalErrors,
          (write mode sources externs result sink).2)) ∧
    (∀ result, Truncates (CompiledText.write result)) ∧
    (∀ mode steps limit full flushFault,
      (writeSteps mode steps ⟨some limit, full, flushFault, []⟩).2.stored =
        (steps.flatMap fun step => whole (writeStep mode step)).take limit) := by
  refine ⟨fun mode sources externs result => ⟨?_, ?_⟩, fun mode sources externs result => ?_,
    fun result => ?_, ?_⟩
  · exact truncates_write mode sources externs result
  · rw [whole_write, text_eq_flatMap]
  · rw [discard_judge]
    exact ⟨truncates_write mode sources externs result, judge_eq mode sources externs result⟩
  · exact truncates_of_putAllFlushed (CompiledText.write_eq_putAllFlushed result)
  · intro mode steps limit full flushFault
    rw [writeSteps_snd, filled_fresh]

end Report

end CompilerDriver
