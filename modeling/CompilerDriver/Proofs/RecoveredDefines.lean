import CompilerDriver.Proofs.DefineMap
import CompilerDriver.Proofs.DocumentNumeral

namespace CompilerDriver

open JsonGrammar Utf8 JsonReader

namespace JsonReader

variable {α : Type}

theorem enclosed_of_list {item : JsonReader α} {bytes rest : Bytes} {as : List α}
    (h : list item (ascii '[' :: bytes) = .ok (as, rest)) :
    enclosed closeList (items item) bytes = .ok (as, rest) := by
  rw [list, peek_here (by decide)] at h
  simpa only [if_true, take_bind] using h

end JsonReader

namespace JsonValue

/-- The members of an object are read one after the other, up to the brace that closes it. -/
theorem membersOnto_reads {value : JsonReader JsonValue} {first : Bool}
    {texts : List (String × List Char)} {text : List Char} (h : Items Member first texts text)
    {results : List (String × JsonValue)}
    (takes : List.Forall₂ (fun text result => text.1 = result.1 ∧ Takes value text.2 result.2)
      texts results) (found : List (String × JsonValue)) {fuel : Nat}
    (enough : texts.length < fuel) (rest : Bytes) :
    membersOnto value fuel first found (octets text ++ ascii '\x7d' :: rest) =
      .ok (found.reverse ++ results, ascii '\x7d' :: rest) := by
  induction h generalizing results found fuel with
  | @nil first gap hg =>
    cases takes
    obtain ⟨fuel, rfl⟩ := Nat.exists_eq_add_one.mpr enough
    rw [membersOnto, bind_of_ok (hasKey_closed hg first rest), List.append_nil]
    rfl
  | @cons first member texts before after text more hb ha head tail ih =>
    obtain ⟨fuel, rfl⟩ := Nat.exists_eq_add_one.mpr (Nat.zero_lt_of_lt enough)
    obtain @⟨key, label, gap, spelling, hl, hg, _⟩ := head
    cases takes with
    | @cons _ result _ results this others =>
    obtain ⟨rfl, taken⟩ := this
    obtain ⟨inside, middle, opened, keyed, coloned⟩ := JsonRecord.label_reads hb ha hl first
      (octets gap ++ (octets spelling ++ (octets more ++ ascii '\x7d' :: rest)))
    have whole :
        octets (before ++ separator first ++ after ++ (label ++ gap ++ spelling) ++ more) ++
          ascii '\x7d' :: rest = octets (before ++ separator first ++ after) ++ (octets label ++
          (octets gap ++ (octets spelling ++ (octets more ++ ascii '\x7d' :: rest)))) := by
      simp
    have ends : Ends (octets more ++ ascii '\x7d' :: rest) :=
      tail.ends (JsonSkip.ends_closing .object) rest
    have member := taken gap _ hg ends
    rw [membersOnto, whole, bind_of_ok opened]
    simp only [if_true]
    rw [bind_of_ok keyed, bind_of_ok coloned, bind_of_ok member,
      ih others _ (by rw [List.length_cons] at enough; omega), List.reverse_cons,
      List.append_assoc]
    rfl

variable (depth : Nat)

theorem null_read : Recovers (read (depth + 1)) .null .null :=
  recovers_of_peeked (.scalar .null) rfl rfl (by decide) fun _ _ => rfl

theorem bool_read (b : Bool) : Recovers (read (depth + 1)) (.bool b) (.bool b) :=
  recovers_of_bool (f := JsonValue.bool) (fun _ => rfl) (fun _ => rfl) b

theorem string_read (s : String) : Recovers (read (depth + 1)) (.string s) (.string s) := by
  refine recovers_of_quoted fun inside rest letters => ?_
  show (JsonString.body >>= fun s => pure (JsonValue.string s)) _ = _
  rw [List.tail_cons, bind_of_ok (JsonString.body_reads letters rest)]
  rfl

/-- A number comes back as what stepwise reading makes of it. -/
theorem fraction_read (x : Double) : Recovers (read (depth + 1)) (.number (.fraction x))
    (.number (.fraction x.reread)) := by
  have numeral := x.documentText_numeral
  refine ⟨x.documentText.toList, .scalar (.number numeral), ?_, fun gap rest hg hr => ?_⟩
  · rw [← encode_ofList, String.ofList_toList]
    rfl
  · have number := x.signed_documentText hr
    obtain ⟨b, bytes, begins, starts, _⟩ := JsonNumeral.skip_reads numeral hr
    obtain ⟨visible, _, _, n, t, f, quote⟩ := JsonSkip.starts_spec starts
    rw [begins] at number ⊢
    rw [read, peek_gap hg visible]
    simp only [n, t, f, quote, if_false, starts, if_true]
    rw [bind_of_ok number]
    rfl

theorem list_read {depth : Nat} (inner : depth ≠ 0) {items : List JsonValue}
    (each : ∀ item ∈ items, Recovers (read depth) item item) :
    Recovers (read (depth + 1)) (.list items) (.list items) := by
  have recovers : Recovers (JsonReader.list (read depth)) (.list (items.map id)) items :=
    list_recovers items each
  rw [List.map_id] at recovers
  obtain ⟨text, wellFormed, written, takes⟩ := recovers
  obtain ⟨bytes, begins⟩ : ∃ bytes, (JsonValue.list items).write = ascii '[' :: bytes := by
    cases items <;> exact ⟨_, rfl⟩
  refine ⟨text, wellFormed, written, fun gap rest hg hr => ?_⟩
  have whole := takes [] rest gap_nil hr
  rw [octets_nil, List.nil_append, written, begins, List.cons_append] at whole
  rw [written, begins, List.cons_append, read, peek_gap hg (by decide)]
  show (if depth = 0 then _ else take >>= fun _ => _) _ = _
  rw [if_neg inner, take_bind, bind_of_ok (enclosed_of_list whole)]
  rfl

theorem exists_texts {reader : JsonReader JsonValue} {members results : List (String × JsonValue)}
    (each : List.Forall₂ (fun member result => member.1 = result.1 ∧
      Recovers reader member.2 result.2) members results) :
    ∃ texts, List.Forall₂ JsonText.Spelled members texts ∧
      List.Forall₂ (fun text result => text.1 = result.1 ∧ Takes reader text.2 result.2)
        texts results := by
  induction each with
  | nil => exact ⟨[], .nil, .nil⟩
  | @cons member result members results head _ ih =>
    obtain ⟨same, text, wellFormed, written, takes⟩ := head
    obtain ⟨texts, spelled, taken⟩ := ih
    exact ⟨(member.1, text) :: texts, .cons ⟨rfl, wellFormed, written⟩ spelled,
      .cons ⟨same, takes⟩ taken⟩

theorem object_read {depth : Nat} (inner : depth ≠ 0) {members results : List (String × JsonValue)}
    (each : List.Forall₂ (fun member result => member.1 = result.1 ∧
      Recovers (read depth) member.2 result.2) members results) :
    Recovers (read (depth + 1)) (.object members) (.object results) := by
  obtain ⟨texts, spelled, taken⟩ := exists_texts each
  obtain ⟨text, object, written⟩ := JsonText.object_written spelled
  refine ⟨text, object.wellFormed, written, fun gap rest hg _ => ?_⟩
  obtain ⟨inside, items, whole, enough⟩ := object.opened rest
  have read : JsonValue.members (read depth) (octets inside ++ ascii '\x7d' :: rest) =
      .ok (results, ascii '\x7d' :: rest) := membersOnto_reads items taken [] enough rest
  rw [JsonValue.read, whole, peek_gap hg (by decide)]
  show (if depth = 0 then _ else take >>= fun _ => _) _ = _
  rw [if_neg inner, take_bind, bind_of_ok (enclosed_of_ok read (closeObject_reads rest))]
  rfl

end JsonValue

namespace DefineValue

/-- The value that comes back for one in a document. -/
def reread : DefineValue → DefineValue
  | number x => .number x.reread
  | value => value

theorem toJson_read (value : DefineValue) (depth : Nat) :
    Recovers (JsonValue.read (depth + 1)) value.toJson value.reread.toJson := by
  cases value with
  | bool b => exact JsonValue.bool_read depth b
  | number x => exact JsonValue.fraction_read depth x
  | text s => exact JsonValue.string_read depth s
  | undefined => exact JsonValue.null_read depth

theorem ofJson?_toJson (value : DefineValue) : ofJson? value.toJson = some value := by
  cases value <;> rfl

theorem reread_eq_self_iff (value : DefineValue) :
    value.reread = value ↔ ∀ x, value = .number x → x.reread = x := by
  cases value <;> simp [reread]

end DefineValue

namespace Defines

/-- The constants that come back for those in a document. -/
def reread (defines : Defines) : Defines where
  entries := defines.entries.map fun entry => (entry.1, entry.2.reread)
  sorted := List.pairwise_map.mpr defines.sorted

theorem get?_reread (defines : Defines) (name : String) :
    defines.reread.get? name = (defines.get? name).map DefineValue.reread := by
  obtain ⟨entries, sorted⟩ := defines
  show (entries.map fun entry => (entry.1, entry.2.reread)).lookup name =
    (entries.lookup name).map DefineValue.reread
  clear sorted
  induction entries with
  | nil => rfl
  | cons entry entries ih =>
    obtain ⟨other, value⟩ := entry
    rw [List.map_cons, lookup_cons_if, lookup_cons_if, ih]
    split <;> rfl

/-- Constants come back as they were just when all their numbers do. -/
theorem reread_eq_self_iff (defines : Defines) :
    defines.reread = defines ↔
      ∀ name x, defines.get? name = some (.number x) → x.reread = x := by
  constructor
  · intro same name x found
    have back := defines.get?_reread name
    rw [same, found] at back
    exact (DefineValue.number.inj (Option.some.inj back)).symm
  · intro kept
    have each : ∀ entry ∈ defines.entries, (entry.1, entry.2.reread) = entry := by
      rintro ⟨name, value⟩ member
      have found := (mem_entries_iff defines name value).mp member
      rw [(DefineValue.reread_eq_self_iff value).mpr fun x same => kept name x (same ▸ found)]
    apply eq_of_entries
    show defines.entries.map (fun entry => (entry.1, entry.2.reread)) = defines.entries
    rw [List.map_congr_left each, List.map_id']

theorem toJson_read (defines : Defines) {depth : Nat} (inner : depth ≠ 0) :
    Recovers (JsonValue.read (depth + 1)) defines.toJson defines.reread.toJson := by
  obtain ⟨more, rfl⟩ := Nat.exists_eq_succ_of_ne_zero inner
  refine JsonValue.object_read inner ?_
  rw [reread, List.map_map, List.forall₂_map_left_iff, List.forall₂_map_right_iff]
  exact List.forall₂_same.mpr fun entry _ => ⟨rfl, entry.2.toJson_read more⟩

end Defines

namespace LooseDefines

/-- The constants that come back for those in a document, in the same form. -/
def reread : LooseDefines → LooseDefines
  | typed defines => .typed defines.reread
  | defines => defines

theorem mapM_map {α β : Type} {write : α → β} {read : β → Option α}
    (h : ∀ a, read (write a) = some a) (as : List α) : (as.map write).mapM read = some as := by
  induction as with
  | nil => rfl
  | cons a as ih =>
    rw [List.map_cons, List.mapM_cons, h, ih]
    rfl

/-- No form can be taken for another one. -/
theorem ofJson?_toJson (defines : LooseDefines) : ofJson? defines.toJson = some defines := by
  cases defines with
  | one entry => rfl
  | many entries =>
    show ((entries.map JsonValue.string).mapM string?).map LooseDefines.many = _
    have item (entry : String) : string? (.string entry) = some entry := rfl
    rw [mapM_map item]
    rfl
  | typed defines =>
    have member (entry : String × DefineValue) :
        Defines.ofMember? (entry.1, entry.2.toJson) = some entry := by
      rw [Defines.ofMember?, DefineValue.ofJson?_toJson]
      rfl
    show (((defines.entries.map _).mapM Defines.ofMember?).map Defines.ofList).map _ = _
    rw [mapM_map member, Option.map_some, Defines.ofList_entries]
    rfl

theorem toJson_read (defines : LooseDefines) {depth : Nat} (inner : depth ≠ 0) :
    Recovers (JsonValue.read (depth + 1)) defines.toJson defines.reread.toJson := by
  obtain ⟨more, rfl⟩ := Nat.exists_eq_succ_of_ne_zero inner
  cases defines with
  | one entry => exact JsonValue.string_read _ entry
  | many entries =>
    refine JsonValue.list_read inner fun item hi => ?_
    obtain ⟨entry, _, rfl⟩ := List.mem_map.mp hi
    exact JsonValue.string_read more entry
  | typed defines => exact defines.toJson_read inner

theorem enclosed_toJson (defines : LooseDefines) : defines.toJson.Enclosed := by
  cases defines with
  | one entry => exact .string entry
  | many entries => exact .list _
  | typed defines => exact .object _

theorem recovers (defines : LooseDefines) {depth : Nat} (inner : depth ≠ 0) :
    Recovers (read (depth + 1)) defines.toJson defines.reread := by
  obtain ⟨text, wellFormed, written, takes⟩ := defines.toJson_read inner
  refine ⟨text, wellFormed, written, fun gap rest hg hr => ?_⟩
  rw [read, bind_of_ok (takes gap rest hg hr), ofJson?_toJson]
  rfl

end LooseDefines

end CompilerDriver
