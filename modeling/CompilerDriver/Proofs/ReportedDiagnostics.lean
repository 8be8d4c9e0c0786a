import Mathlib.Data.List.Forall2
import CompilerDriver.Proofs.CompilerOutcome
import CompilerDriver.Proofs.DiagnosticReading

namespace CompilerDriver

open JsonGrammar Utf8

/-- The temporary files of so many externs can be told apart by their paths. -/
def CompilerHost.TellsApart (host : CompilerHost) (count : Nat) : Prop :=
  ∀ m < count, ∀ n < count, (host.externPath m).shown = (host.externPath n).shown → m = n

/-- The temporary files of so many externs have names, and no two have the same. -/
structure CompilerHost.NamesApart (host : CompilerHost) (count : Nat) : Prop where
  named : ∀ n < count, (host.externPath n).shown ≠ ""
  apart : host.TellsApart count

/-- A place where the compiler always ends in one way and the names of temporary files differ in
their lengths. -/
def CompilerHost.ending (exit : CompilerExit) : CompilerHost where
  externPath n := encode (String.ofList (List.replicate (n + 1) 't'))
  start _ := .ok exit

theorem CompilerHost.ending_shown (exit : CompilerExit) (n : Nat) :
    ((ending exit).externPath n).shown = String.ofList (List.replicate (n + 1) 't') :=
  decodeLossy_encode _

theorem CompilerHost.ending_startChecked (exit : CompilerExit) {call : CompilerCall}
    (h : call.hasNul = false) : (ending exit).startChecked call = .ok exit := by
  rw [startChecked, h]
  rfl

theorem CompilerHost.ending_namesApart (exit : CompilerExit) (count : Nat) :
    (ending exit).NamesApart count := by
  constructor
  · intro n _ empty
    rw [ending_shown] at empty
    have none := congrArg String.length empty
    simp at none
  · intro m _ n _ same
    rw [ending_shown, ending_shown] at same
    have lengths := congrArg String.length same
    simpa using lengths

namespace CompilerCommand

variable {host : CompilerHost} {externs : List Buffer}

/-- The file that a diagnostic is shown with: none when the compiler names none, an extern by its
own name when the compiler names its temporary file, and else what the compiler names. -/
structure NamesFile (host : CompilerHost) (externs : List Buffer) (source file : Option String) :
    Prop where
  absent : source = none → file = none
  empty : source = some "" → file = none
  temporary : ∀ n buffer, externs[n]? = some buffer → (host.externPath n).shown ≠ "" →
    source = some (host.externPath n).shown → file = some (externName n buffer)
  other : ∀ text, text ≠ "" → (∀ n < externs.length, (host.externPath n).shown ≠ text) →
    source = some text → file = some text

/-- A diagnostic as it is shown for an entry of the compiler's array. -/
structure Shows (host : CompilerHost) (externs : List Buffer) (severity : Severity)
    (reported : ReportedDiagnostic) (diagnostic : Diagnostic) : Prop where
  severity : diagnostic.severity = severity
  kind : diagnostic.kind = reported.key.getD reported.level
  description : diagnostic.description = reported.description
  line : diagnostic.line = reported.line.getD (-1)
  column : diagnostic.column = reported.column.getD (-1)
  file : NamesFile host externs reported.source diagnostic.file

theorem mem_externNames {entry : String × String} :
    entry ∈ externNames host externs ↔
      ∃ n buffer, externs[n]? = some buffer ∧
        entry = ((host.externPath n).shown, externName n buffer) := by
  rw [externNames, List.mem_mapIdx]
  constructor
  · rintro ⟨n, h, rfl⟩
    exact ⟨n, externs[n], List.getElem?_eq_getElem h, rfl⟩
  · rintro ⟨n, buffer, h, rfl⟩
    obtain ⟨bound, rfl⟩ := List.getElem?_eq_some_iff.mp h
    exact ⟨n, bound, rfl⟩

theorem mem_of_lookup_eq_some {names : List (String × String)} {file name : String}
    (h : names.lookup file = some name) : (file, name) ∈ names := by
  obtain ⟨before, after, rfl, _⟩ := List.lookup_eq_some_iff.mp h
  simp

/-- The path of a temporary file leads back to its own extern. -/
theorem lookup_externPath (distinct : host.TellsApart externs.length) {n : Nat}
    {buffer : Buffer} (h : externs[n]? = some buffer) :
    (externNames host externs).lookup (host.externPath n).shown = some (externName n buffer) := by
  have member : ((host.externPath n).shown, externName n buffer) ∈ externNames host externs :=
    mem_externNames.mpr ⟨n, buffer, h, rfl⟩
  cases found : (externNames host externs).lookup (host.externPath n).shown with
  | none =>
    have missing := List.lookup_eq_none_iff.mp found _ member
    simp at missing
  | some name =>
    obtain ⟨m, other, hm, same⟩ := mem_externNames.mp (mem_of_lookup_eq_some found)
    obtain ⟨path, rfl⟩ := Prod.mk.injEq .. ▸ same
    have bound := (List.getElem?_eq_some_iff.mp h).1
    have bound' := (List.getElem?_eq_some_iff.mp hm).1
    obtain rfl := distinct n bound m bound' path
    rw [h] at hm
    cases hm
    rfl

theorem lookup_other {text : String} (h : ∀ n < externs.length, (host.externPath n).shown ≠ text) :
    (externNames host externs).lookup text = none := by
  rw [List.lookup_eq_none_iff]
  intro entry member
  obtain ⟨n, buffer, hn, rfl⟩ := mem_externNames.mp member
  simpa using (h n (List.getElem?_eq_some_iff.mp hn).1).symm

theorem namesFile (distinct : host.TellsApart externs.length) (source : Option String) :
    NamesFile host externs source ((source.filter (· ≠ "")).map fun file =>
      ((externNames host externs).lookup file).getD file) := by
  constructor
  · rintro rfl
    rfl
  · rintro rfl
    rfl
  · rintro n buffer h nonempty rfl
    simp [Option.filter, nonempty, lookup_externPath distinct h]
  · rintro text nonempty h rfl
    simp [Option.filter, nonempty, lookup_other h]

/-- The diagnostics of one severity show the entries of its level, in their order. -/
theorem forall₂_shows (distinct : host.TellsApart externs.length) (severity : Severity)
    (reported : List ReportedDiagnostic) :
    List.Forall₂ (Shows host externs severity) (reported.filter (·.level = severity.name))
      ((reported.filterMap (ReportedDiagnostic.toDiagnostic? (externNames host externs))).filter
        (·.severity = severity)) := by
  induction reported with
  | nil => exact .nil
  | cons entry reported ih =>
    cases found : entry.severity? with
    | none =>
      have noLevel : entry.level ≠ severity.name := by
        intro level
        rw [ReportedDiagnostic.severity?_eq_some_iff.mpr level] at found
        cases found
      have dropped : entry.toDiagnostic? (externNames host externs) = none := by
        rw [ReportedDiagnostic.toDiagnostic?, found]
        rfl
      rw [List.filter_cons_of_neg (by simpa using noLevel), List.filterMap_cons_none dropped]
      exact ih
    | some other =>
      have level := ReportedDiagnostic.severity?_eq_some_iff.mp found
      obtain ⟨diagnostic, shown, shows⟩ : ∃ diagnostic,
          entry.toDiagnostic? (externNames host externs) = some diagnostic ∧
            Shows host externs other entry diagnostic := by
        rw [ReportedDiagnostic.toDiagnostic?, found]
        exact ⟨_, rfl, rfl, by rw [level], rfl, rfl, rfl, namesFile distinct entry.source⟩
      rw [List.filterMap_cons_some shown]
      by_cases same : other = severity
      · subst same
        rw [List.filter_cons_of_pos (by simpa using level),
          List.filter_cons_of_pos (by simpa using shows.severity)]
        exact .cons shows ih
      · have noLevel : entry.level ≠ severity.name := by
          intro level
          rw [ReportedDiagnostic.severity?_eq_some_iff.mpr level] at found
          exact same (Option.some.inj found).symm
        rw [List.filter_cons_of_neg (by simpa using noLevel),
          List.filter_cons_of_neg (by simpa [shows.severity] using same)]
        exact ih

end CompilerCommand

end CompilerDriver
