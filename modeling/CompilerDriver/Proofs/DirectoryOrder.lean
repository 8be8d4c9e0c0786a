import CompilerDriver.DefaultExterns
import CompilerDriver.Proofs.Utf8Text
import Mathlib.Data.List.Forall2

namespace CompilerDriver

section

variable {ε α β : Type} {f : α → Except ε β}

theorem mapM_cons_of_ok {a : α} {b : β} (h : f a = .ok b) (as : List α) :
    (a :: as).mapM f = (as.mapM f).map (b :: ·) := by
  rw [List.mapM_cons, h]
  show (as.mapM f).bind _ = _
  cases as.mapM f <;> rfl

theorem mapM_cons_of_error {a : α} {e : ε} (h : f a = .error e) (as : List α) :
    (a :: as).mapM f = .error e := by
  rw [List.mapM_cons, h]
  rfl

theorem mapM_eq_ok_iff {as : List α} {bs : List β} :
    as.mapM f = .ok bs ↔ List.Forall₂ (fun a b => f a = .ok b) as bs := by
  induction as generalizing bs with
  | nil =>
    rw [List.mapM_nil, List.forall₂_nil_left_iff]
    exact ⟨fun h => (Except.ok.inj h).symm, fun h => h ▸ rfl⟩
  | cons a as ih =>
    rw [List.forall₂_cons_left_iff]
    cases first : f a with
    | error e =>
      rw [mapM_cons_of_error first]
      simp
    | ok b =>
      rw [mapM_cons_of_ok first]
      simp only [← ih, Except.ok.injEq]
      cases as.mapM f <;> simp [Except.map, eq_comm]

/-- The first of a row that has one property, with another one for all before it, is its head or
stands behind it. -/
theorem exists_first_cons {p q : α → Prop} {a : α} {as : List α} :
    (∃ before b after, a :: as = before ++ b :: after ∧ (∀ c ∈ before, p c) ∧ q b) ↔
      q a ∨ p a ∧ ∃ before b after, as = before ++ b :: after ∧ (∀ c ∈ before, p c) ∧ q b := by
  constructor
  · rintro ⟨before, b, after, whole, earlier, h⟩
    cases before with
    | nil =>
      cases whole
      exact .inl h
    | cons _ before =>
      cases whole
      obtain ⟨first, earlier⟩ := List.forall_mem_cons.mp earlier
      exact .inr ⟨first, before, b, after, rfl, earlier, h⟩
  · rintro (h | ⟨first, before, b, after, rfl, earlier, h⟩)
    · exact ⟨[], a, as, rfl, nofun, h⟩
    · exact ⟨a :: before, b, after, rfl, List.forall_mem_cons.mpr ⟨first, earlier⟩, h⟩

/-- The first refusal in a row is the refusal of the row. -/
theorem mapM_eq_error_iff {as : List α} {e : ε} :
    as.mapM f = .error e ↔ ∃ before a after, as = before ++ a :: after ∧
      (∀ earlier ∈ before, ∃ b, f earlier = .ok b) ∧ f a = .error e := by
  induction as with
  | nil =>
    constructor
    · rintro ⟨⟩
    · rintro ⟨before, a, after, whole, -⟩
      simp at whole
  | cons a as ih =>
    rw [exists_first_cons, ← ih]
    cases first : f a with
    | error cause =>
      rw [mapM_cons_of_error first]
      simp
    | ok b =>
      rw [mapM_cons_of_ok first]
      cases as.mapM f <;> simp [Except.map]

end

namespace Files

/-- Reading a file gives this text. -/
def Reading.Gives (reading : Reading) (text : String) : Prop :=
  reading = .ok (Utf8.encode text)

/-- Why reading a file gives no text: it cannot be read, or its octets are no text. -/
inductive Reading.Lacks : Reading → IoFault → Prop
  | refused (cause : IoFault) : Lacks (.error cause) cause
  | noText {octets : Bytes} (h : ∀ text, octets ≠ Utf8.encode text) : Lacks (.ok octets) .notText

theorem textOf_eq_ok_iff {octets : Bytes} {text : String} :
    textOf octets = .ok text ↔ octets = Utf8.encode text := by
  rw [← Utf8.decode_eq_ok_iff, textOf]
  cases Utf8.decode octets <;> simp

theorem bind_textOf_eq_ok_iff {reading : Reading} {text : String} :
    reading.bind textOf = .ok text ↔ reading.Gives text := by
  cases reading with
  | error cause => exact ⟨nofun, nofun⟩
  | ok octets => exact textOf_eq_ok_iff.trans ⟨congrArg Except.ok, Except.ok.inj⟩

theorem bind_textOf_eq_error_iff {reading : Reading} {cause : IoFault} :
    reading.bind textOf = .error cause ↔ reading.Lacks cause := by
  cases reading with
  | error other =>
    constructor
    · intro h
      cases h
      exact .refused cause
    · rintro ⟨⟩
      rfl
  | ok octets =>
    show textOf octets = .error cause ↔ _
    constructor
    · intro h
      have unread : ∀ text, octets ≠ Utf8.encode text := by
        intro text same
        rw [textOf_eq_ok_iff.mpr same] at h
        cases h
      unfold textOf at h
      split at h
      · cases h
      · cases h
        exact .noText unread
    · rintro ⟨⟩
      next unread =>
        unfold textOf
        split
        next text found => exact absurd (Utf8.decode_eq_ok_iff.mp found) (unread text)
        next => rfl

end Files

namespace DefaultExterns

/-- An entry with this name is a regular file whose name has the extension `js` behind something
else, and reading it gives this. -/
def IsScriptOf (entries : List Files.Entry) (script : Bytes × Files.Reading) : Prop :=
  ⟨script.1, some script.2⟩ ∈ entries ∧ ∃ stem, stem ≠ [] ∧ script.1 = stem ++ Utf8.encode ".js"

theorem exists_stop {α : Type} {p : α → Bool} {as : List α}
    (h : (as.takeWhile p).length < as.length) :
    ∃ a rest, p a = false ∧ as = as.takeWhile p ++ a :: rest := by
  induction as with
  | nil => simp at h
  | cons a as ih =>
    cases passed : p a with
    | false => exact ⟨a, as, passed, by rw [List.takeWhile_cons_of_neg (by simp [passed])]; rfl⟩
    | true =>
      rw [List.takeWhile_cons_of_pos passed] at h ⊢
      obtain ⟨b, rest, stop, whole⟩ := ih (by simpa using h)
      exact ⟨b, rest, stop, congrArg (a :: ·) whole⟩

theorem isScript_iff {name : Bytes} :
    isScript name = true ↔ ∃ stem, stem ≠ [] ∧ name = stem ++ Utf8.encode ".js" := by
  have letters : Utf8.encode ".js" = dot :: Utf8.encode "js" := by decide +kernel
  have plain : ∀ b ∈ (Utf8.encode "js").reverse, decide (b ≠ dot) = true := by decide +kernel
  rw [isScript, Bool.and_eq_true, decide_eq_true_iff, decide_eq_true_iff, letters]
  constructor
  · rintro ⟨extension, room⟩
    have sides : name.reverse.length = name.length := List.length_reverse
    rw [← sides] at room
    obtain ⟨point, stem, stop, whole⟩ := exists_stop (Nat.lt_of_succ_lt room)
    obtain rfl : point = dot := by simpa using stop
    have lengths := congrArg List.length whole
    rw [List.length_append, List.length_cons] at lengths
    refine ⟨stem.reverse, ?_, ?_⟩
    · rw [Ne, List.reverse_eq_nil_iff]
      rintro rfl
      rw [List.length_nil] at lengths
      omega
    · rw [← List.reverse_inj, whole, ← extension]
      simp
  · rintro ⟨stem, nonempty, rfl⟩
    have behind : (stem ++ dot :: Utf8.encode "js").reverse.takeWhile (· ≠ dot) =
        (Utf8.encode "js").reverse := by
      rw [List.reverse_append, List.reverse_cons, List.append_assoc,
        List.takeWhile_append_of_pos plain]
      simp
    have some_stem := List.length_pos_iff.mpr nonempty
    rw [behind, List.reverse_reverse]
    refine ⟨rfl, ?_⟩
    simp only [List.length_reverse, List.length_append, List.length_cons]
    omega

/-- No two entries of a directory have the same name. -/
def Distinct (entries : List Files.Entry) : Prop :=
  (entries.map Files.Entry.name).Nodup

section

variable {entries others : List Files.Entry}

def script? (entry : Files.Entry) : Option (Bytes × Files.Reading) :=
  if isScript entry.name then entry.regular.map fun reading => (entry.name, reading) else none

theorem script?_eq_some_iff {entry : Files.Entry} {script : Bytes × Files.Reading} :
    script? entry = some script ↔
      entry = ⟨script.1, some script.2⟩ ∧ isScript script.1 = true := by
  obtain ⟨name, regular⟩ := entry
  obtain ⟨other, reading⟩ := script
  unfold script?
  cases regular <;> grind

theorem scripts_perm (entries : List Files.Entry) :
    (scripts entries).Perm (entries.filterMap script?) :=
  List.mergeSort_perm _ _

theorem mem_scripts {script : Bytes × Files.Reading} :
    script ∈ scripts entries ↔ IsScriptOf entries script := by
  rw [(scripts_perm entries).mem_iff, List.mem_filterMap, IsScriptOf, ← isScript_iff]
  simp only [script?_eq_some_iff]
  constructor
  · rintro ⟨entry, member, rfl, named⟩
    exact ⟨member, named⟩
  · rintro ⟨member, named⟩
    exact ⟨_, member, rfl, named⟩

theorem scripts_nodup (distinct : Distinct entries) : ((scripts entries).map Prod.fst).Nodup := by
  rw [((scripts_perm entries).map Prod.fst).nodup_iff]
  have found : (entries.filterMap script?).Pairwise fun a b => a.1 ≠ b.1 := by
    refine List.Pairwise.filterMap script? ?_ (List.pairwise_map.mp distinct)
    intro entry other apart a ha b hb
    obtain ⟨rfl, -⟩ := script?_eq_some_iff.mp ha
    obtain ⟨rfl, -⟩ := script?_eq_some_iff.mp hb
    exact apart
  exact List.pairwise_map.mpr found

/-- Scripts stand in the strictly increasing order of the octets of their names. -/
theorem scripts_increasing (distinct : Distinct entries) :
    (scripts entries).Pairwise fun a b => a.1 < b.1 := by
  have sorted : (scripts entries).Pairwise fun a b => a.1 ≤ b.1 := by
    refine (List.pairwise_mergeSort ?_ ?_ _).imp fun h => of_decide_eq_true h
    · intro a b c ab bc
      simp only [decide_eq_true_eq] at *
      exact List.le_trans ab bc
    · intro a b
      simp only [Bool.or_eq_true, decide_eq_true_eq]
      exact List.le_total a.1 b.1
  have apart := List.pairwise_map.mp (scripts_nodup distinct)
  refine (sorted.and apart).imp fun ⟨below, ne⟩ => ?_
  by_contra above
  exact ne (List.le_antisymm below (List.not_lt.mp above))

/-- There is one way to put the scripts into the order of their names. -/
theorem scripts_eq_of_increasing {found : List (Bytes × Files.Reading)}
    (distinct : Distinct entries) (perm : found.Perm (entries.filterMap script?))
    (increasing : found.Pairwise fun a b => a.1 < b.1) : scripts entries = found := by
  have same : (scripts entries).Perm found := (scripts_perm entries).trans perm.symm
  refine List.Perm.eq_of_pairwise (fun a b _ _ below above => ?_)
    (scripts_increasing distinct) increasing same
  exact absurd above (List.lt_asymm below)

/-- The order in which a directory lists its entries does not matter. -/
theorem scripts_eq_of_perm (distinct : Distinct entries) (perm : others.Perm entries) :
    scripts others = scripts entries := by
  have distinct' : Distinct others := (perm.map _).nodup_iff.mpr distinct
  have same : (scripts others).Perm (entries.filterMap script?) :=
    (scripts_perm others).trans (perm.filterMap script?)
  exact (scripts_eq_of_increasing distinct same (scripts_increasing distinct')).symm

theorem load_of_listed {files : Files} {directory : Path}
    (listed : files.list directory = .ok entries) :
    (load files directory).result = (ofEntries entries).mapError (.externs directory) := by
  rw [load, listed]
  show (Run.ofExcept ((ofEntries entries).mapError (Failure.externs directory)) >>= _).result = _
  rw [Run.result_bind, Run.result_ofExcept]
  cases ofEntries entries <;> rfl

theorem load_eq_of_perm {files reordered : Files} {directory : Path} (distinct : Distinct entries)
    (perm : others.Perm entries) (listed : files.list directory = .ok entries)
    (relisted : reordered.list directory = .ok others) :
    load reordered directory = load files directory := by
  have same : ofEntries others = ofEntries entries := by
    rw [ofEntries, scripts_eq_of_perm distinct perm, ofEntries]
  rw [load, relisted, load, listed]
  simp only [same]

theorem ofEntries_eq_ok_iff {buffers : List Buffer} :
    ofEntries entries = .ok buffers ↔
      List.Forall₂ (fun script buffer => buffer.path = none ∧ script.2.Gives buffer.content)
        (scripts entries) buffers := by
  rw [ofEntries, mapM_eq_ok_iff]
  have each (script : Bytes × Files.Reading) (buffer : Buffer) :
      (script.2.bind Files.textOf).map Buffer.unnamed = .ok buffer ↔
        buffer.path = none ∧ script.2.Gives buffer.content := by
    obtain ⟨path, content⟩ := buffer
    rw [← Files.bind_textOf_eq_ok_iff]
    cases script.2.bind Files.textOf <;> simp [Except.map, Buffer.unnamed, eq_comm]
  simp only [each]

theorem ofEntries_eq_error_iff {cause : IoFault} :
    ofEntries entries = .error cause ↔ ∃ before script after,
      scripts entries = before ++ script :: after ∧
      (∀ earlier ∈ before, ∃ text, earlier.2.Gives text) ∧ script.2.Lacks cause := by
  rw [ofEntries, mapM_eq_error_iff]
  have read (script : Bytes × Files.Reading) :
      (∃ buffer, (script.2.bind Files.textOf).map Buffer.unnamed = .ok buffer) ↔
        ∃ text, script.2.Gives text := by
    simp only [← Files.bind_textOf_eq_ok_iff]
    cases script.2.bind Files.textOf <;> simp [Except.map]
  have refused (script : Bytes × Files.Reading) :
      (script.2.bind Files.textOf).map Buffer.unnamed = .error cause ↔ script.2.Lacks cause := by
    rw [← Files.bind_textOf_eq_error_iff]
    cases script.2.bind Files.textOf <;> simp [Except.map]
  simp only [read, refused]

end

/-- Two orders of the entries of one directory make for the same load. It gives the contents of the
scripts in the strictly increasing order of their names, each as a buffer without a path; the first
script in this order that has no text is what it fails with. -/
theorem load_in_any_order {files reordered : Files} {directory : Path}
    {entries others : List Files.Entry} (distinct : Distinct entries) (perm : others.Perm entries)
    (listed : files.list directory = .ok entries)
    (relisted : reordered.list directory = .ok others) :
    load reordered directory = load files directory ∧
    (scripts entries).Pairwise (fun a b => a.1 < b.1) ∧
    (∀ script, script ∈ scripts entries ↔ IsScriptOf entries script) ∧
    (∀ buffers, (load files directory).result = .ok buffers ↔
      List.Forall₂ (fun script buffer => buffer.path = none ∧ script.2.Gives buffer.content)
        (scripts entries) buffers) ∧
    ∀ failure, (load files directory).result = .error failure ↔
      ∃ before script after cause, scripts entries = before ++ script :: after ∧
        (∀ earlier ∈ before, ∃ text, earlier.2.Gives text) ∧ script.2.Lacks cause ∧
        failure = .externs directory cause := by
  refine ⟨load_eq_of_perm distinct perm listed relisted, scripts_increasing distinct,
    fun _ => mem_scripts, fun buffers => ?_, fun failure => ?_⟩
  · rw [← ofEntries_eq_ok_iff, load_of_listed listed]
    cases ofEntries entries <;> simp [Except.mapError]
  · rw [load_of_listed listed]
    have named : (ofEntries entries).mapError (.externs directory) = .error failure ↔
        ∃ cause, ofEntries entries = .error cause ∧ failure = .externs directory cause := by
      cases ofEntries entries <;> simp [Except.mapError, eq_comm]
    rw [named]
    simp only [ofEntries_eq_error_iff]
    constructor
    · rintro ⟨cause, ⟨before, script, after, whole, read, lacks⟩, rfl⟩
      exact ⟨before, script, after, cause, whole, read, lacks, rfl⟩
    · rintro ⟨before, script, after, cause, whole, read, lacks, rfl⟩
      exact ⟨cause, ⟨before, script, after, whole, read, lacks⟩, rfl⟩

/-- Of two scripts without a text, the first by name is what a load fails with, although it is
listed behind the other one. -/
theorem load_in_reverse_order :
    let closed : Files.Entry := ⟨Utf8.encode "z.js", some (.error .permissionDenied)⟩
    let broken : Files.Entry := ⟨Utf8.encode "b.js", some (.ok [0xFF])⟩
    let window : Files.Entry := ⟨Utf8.encode "a.b.js", some (Utf8.encode "var window;")⟩
    let ignored : List Files.Entry :=
      [⟨Utf8.encode ".js", some (.error .isADirectory)⟩, ⟨Utf8.encode "a.JS", some (.ok [0xFF])⟩,
        ⟨Utf8.encode "a.js", none⟩]
    let entries := closed :: ignored ++ [broken, window]
    let files (entries : List Files.Entry) : Files :=
      ⟨fun _ => .error .notFound, fun _ => .ok entries⟩
    (load (files entries.reverse) usualDirectory).result =
        .error (.externs usualDirectory .notText) ∧
      load (files entries.reverse) usualDirectory = load (files entries) usualDirectory := by
  intro closed broken window ignored entries files
  have distinct : Distinct entries := by
    unfold Distinct
    decide +kernel
  have listed : (files entries).list usualDirectory = .ok entries := rfl
  have relisted : (files entries.reverse).list usualDirectory = .ok entries.reverse := rfl
  obtain ⟨same, -, -, -, fails⟩ :=
    load_in_any_order distinct (List.reverse_perm entries) listed relisted
  have found : entries.filterMap script? = [(closed.name, .error .permissionDenied),
      (broken.name, .ok [0xFF]), (window.name, .ok (Utf8.encode "var window;"))] := by
    decide +kernel
  have order : scripts entries = [(window.name, .ok (Utf8.encode "var window;"))] ++
      (broken.name, .ok [0xFF]) :: [(closed.name, .error .permissionDenied)] := by
    refine scripts_eq_of_increasing distinct ?_ (by decide +kernel)
    rw [found]
    exact List.reverse_perm [_, _, _]
  have lacks : Files.Reading.Lacks (.ok [0xFF]) .notText :=
    Files.bind_textOf_eq_error_iff.mp (by decide +kernel)
  rw [same]
  refine ⟨(fails _).mpr ⟨_, _, _, _, order, ?_, lacks, rfl⟩, rfl⟩
  intro earlier member
  obtain rfl := List.mem_singleton.mp member
  exact ⟨"var window;", rfl⟩

end DefaultExterns

end CompilerDriver
