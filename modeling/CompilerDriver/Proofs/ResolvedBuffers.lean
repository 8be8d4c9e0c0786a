import CompilerDriver.Report

namespace CompilerDriver

theorem Buffer.isNamed_iff {buffer : Buffer} {file : String} :
    buffer.isNamed file = true ↔ buffer.displayName = file := by
  unfold isNamed displayName
  cases buffer.path with
  | some path => exact beq_iff_eq
  | none => exact beq_iff_eq.trans eq_comm

namespace Report

variable {sources externs : List Buffer}

/-- The place of the buffer that a diagnostic is shown against, the sources being counted before
the externs. -/
def place? (file : Option String) (sources externs : List Buffer) : Option Nat :=
  file.bind fun file =>
    if (sources ++ externs).length = 1 then some 0
    else (sources ++ externs).findIdx? (·.isNamed file)

theorem resolve_of_many {file : String} (many : (sources ++ externs).length ≠ 1) :
    resolve (some file) sources externs =
      ((sources ++ externs).find? (·.isNamed file)).map Buffer.content := by
  rw [List.find?_append]
  match sources, externs, many with
  | [], [], _ => rfl
  | [], _ :: _ :: _, _ => rfl
  | _ :: _ :: _, _, _ => rfl
  | [_], _ :: _, _ => rfl

theorem resolve_eq_place? (file : Option String) (sources externs : List Buffer) :
    resolve file sources externs = (place? file sources externs).bind fun place =>
      (sources ++ externs)[place]?.map Buffer.content := by
  cases file with
  | none => rfl
  | some file =>
    by_cases lone : (sources ++ externs).length = 1
    · match sources, externs, lone with
      | [], [_], _ => rfl
      | [_], [], _ => rfl
    · rw [resolve_of_many lone, place?, Option.bind_some, if_neg lone]
      rw [List.find?_eq_bind_findIdx?_getElem?]
      cases (sources ++ externs).findIdx? (·.isNamed file) <;> rfl

/-- A buffer whose name no other one has is found under that name. -/
theorem place?_displayName (distinct : ((sources ++ externs).map Buffer.displayName).Nodup)
    {place : Nat} {buffer : Buffer} (h : (sources ++ externs)[place]? = some buffer) :
    place? (some buffer.displayName) sources externs = some place := by
  obtain ⟨bound, rfl⟩ := List.getElem?_eq_some_iff.mp h
  rw [place?, Option.bind_some]
  split
  next lone =>
    have first : place = 0 := by omega
    rw [first]
  next =>
    refine List.findIdx?_eq_some_iff_getElem.mpr ⟨bound, Buffer.isNamed_iff.mpr rfl, ?_⟩
    intro earlier before
    have apart := List.pairwise_iff_getElem.mp (List.pairwise_map.mp distinct)
    rw [Buffer.isNamed_iff]
    exact apart earlier place (Nat.lt_trans before bound) bound before

/-- A name that no buffer has leads to none, unless there is just one buffer. -/
theorem place?_eq_none_iff {file : String} :
    place? (some file) sources externs = none ↔
      (sources ++ externs).length ≠ 1 ∧
        ∀ buffer ∈ sources ++ externs, buffer.displayName ≠ file := by
  rw [place?, Option.bind_some]
  split
  next lone => simp [lone]
  next many =>
    rw [List.findIdx?_eq_none_iff]
    simp only [← Bool.not_eq_true, Buffer.isNamed_iff]
    exact ⟨fun h => ⟨many, h⟩, fun h => h.2⟩

theorem displayName_of_place? {file : String} {place : Nat}
    (many : (sources ++ externs).length ≠ 1)
    (h : place? (some file) sources externs = some place) :
    ∃ buffer, (sources ++ externs)[place]? = some buffer ∧ buffer.displayName = file := by
  rw [place?, Option.bind_some, if_neg many] at h
  obtain ⟨bound, named, _⟩ := List.findIdx?_eq_some_iff_getElem.mp h
  exact ⟨_, List.getElem?_eq_getElem bound, Buffer.isNamed_iff.mp named⟩

end Report

end CompilerDriver
