import CompilerDriver.Proofs.RecordReading
import CompilerDriver.Proofs.SteadyReaders

namespace CompilerDriver

variable {α β : Type}

namespace JsonReader

/-- A reader of values that show where they end: it takes something, and it does not matter what
stands behind the value. -/
structure Closed (reader : JsonReader α) : Prop where
  length_lt : ∀ bytes rest a, reader bytes = .ok (a, rest) → rest.length < bytes.length
  append : ∀ bytes rest a, reader bytes = .ok (a, rest) →
    ∀ more, reader (bytes ++ more) = .ok (a, rest ++ more)

theorem Closed.steady {reader : JsonReader α} (h : Closed reader) : Steady reader where
  length_le := fun _ _ _ done => Nat.le_of_lt (h.length_lt _ _ _ done)
  append := fun _ _ _ done _ more => h.append _ _ _ done more

/-- A value that begins with an octet that it takes, and goes on with what shows where it ends. -/
theorem Closed.peeked {cause : JsonCause} {next : UInt8 → JsonReader α}
    (h : ∀ b bytes rest a, next b (b :: bytes) = .ok (a, rest) → rest.length ≤ bytes.length ∧
      ∀ more, next b (b :: (bytes ++ more)) = .ok (a, rest ++ more)) :
    Closed (do
      match ← peek with
      | none => failNext cause
      | some b => next b) where
  length_lt := fun bytes rest a done => by
    obtain ⟨b, tail, fewer, done⟩ := exists_peeked done
    exact Nat.lt_of_lt_of_le (Nat.lt_succ_of_le (h b tail rest a done).1) fewer
  append := fun bytes rest a done more => by
    rw [peek_bind] at done ⊢
    cases shown : bytes.dropWhile isSpace with
    | nil =>
      rw [shown] at done
      cases done
    | cons b tail =>
      rw [shown] at done
      rw [dropWhile_append_cons shown]
      exact (h b tail rest a done).2 more

theorem string_closed : Closed string :=
  .peeked fun b bytes rest s done => by
    by_cases quote : b = ascii '\x22'
    · simp only [quote, if_true, take_bind] at done ⊢
      exact ⟨Nat.le_of_lt (JsonString.body_length done), JsonString.body_append done⟩
    · simp only [quote, if_false] at done
      exact absurd done (wrongType_ne_ok _ _ _ _)

theorem nullable_steady {value : JsonReader α} (h : Steady value) : Steady (nullable value) :=
  .peeked (h.map some) fun _ => .ite ((Steady.word _).bind fun _ => .pure none) (h.map some)

/-- The attempt to end a container looks no further than its bracket. -/
def Closes (close : Bytes → Except JsonFault Unit × Bytes) : Prop :=
  ∀ bytes rest, close bytes = (.ok (), rest) →
    rest.length < bytes.length ∧ ∀ more, close (bytes ++ more) = (.ok (), rest ++ more)

theorem closes_of_bracket (bracket : UInt8) {close : Bytes → Except JsonFault Unit × Bytes}
    (h : ∀ bytes rest, close bytes = (.ok (), rest) ↔ bytes.dropWhile isSpace = bracket :: rest) :
    Closes close := by
  intro bytes rest closed
  have shown := (h bytes rest).mp closed
  have few := (List.dropWhile_suffix (l := bytes) isSpace).length_le
  rw [shown, List.length_cons] at few
  exact ⟨few, fun more => (h _ _).mpr (dropWhile_append_cons shown more)⟩

theorem closeList_closes : Closes closeList :=
  closes_of_bracket (ascii ']') fun bytes rest => by
    unfold closeList
    cases bytes.dropWhile isSpace with
    | nil => simp
    | cons b tail =>
      by_cases bracket : b = ascii ']'
      · simp [bracket]
      · simp only [bracket, if_false, List.cons.injEq, false_and, iff_false]
        split <;> simp

theorem closeObject_closes : Closes closeObject :=
  closes_of_bracket (ascii '\x7d') fun bytes rest => by
    unfold closeObject
    cases bytes.dropWhile isSpace with
    | nil => simp
    | cons b tail =>
      by_cases bracket : b = ascii '\x7d'
      · simp [bracket]
      · simp only [bracket, if_false, List.cons.injEq, false_and, iff_false]
        split <;> simp

/-- What is read up to a bracket does not depend on what stands behind the bracket, since the
bracket stands behind the inside. -/
theorem enclosed_append {close : Bytes → Except JsonFault Unit × Bytes} (hc : Closes close)
    {inside : JsonReader α} (h : Steady inside) {bytes rest : Bytes} {a : α}
    (done : enclosed close inside bytes = .ok (a, rest)) :
    rest.length ≤ bytes.length ∧
      ∀ more, enclosed close inside (bytes ++ more) = .ok (a, rest ++ more) := by
  unfold enclosed at done
  cases read : inside bytes with
  | error fault =>
    simp only [read] at done
    split at done <;> cases done
  | ok found =>
    obtain ⟨b, middle⟩ := found
    simp only [read] at done
    cases closed : close middle with
    | mk verdict after =>
      simp only [closed] at done
      cases verdict with
      | error fault => cases done
      | ok u =>
        cases done
        obtain ⟨shorter, longer⟩ := hc _ _ closed
        have fewer := h.length_le _ _ _ read
        have left : middle ≠ [] := List.ne_nil_of_length_pos (by omega)
        refine ⟨by omega, fun more => ?_⟩
        exact enclosed_of_ok (h.append _ _ _ read left more) (longer more)

section items

variable (item : JsonReader α)

/-- Up to the next item of a list, or its end. -/
def itemStep (state : Bool × List α) : JsonReader (List α ⊕ Bool × List α) := do
  if ← hasItem state.1 then
    let a ← item
    return .inr (false, a :: state.2)
  else return .inl state.2.reverse

theorem itemsOnto_step (fuel : Nat) (state : Bool × List α) :
    itemsOnto item (fuel + 1) state.1 state.2 =
      itemStep item state >>= Sum.elim pure fun next => itemsOnto item fuel next.1 next.2 := by
  rw [itemsOnto, itemStep, bind_assoc]
  congr 1
  funext more
  cases more with
  | false => rfl
  | true =>
    simp only [if_true]
    rw [bind_assoc]
    rfl

variable {item}

theorem itemStep_steady (h : Steady item) (state : Bool × List α) : Steady (itemStep item state) :=
  (Steady.hasItem _).bind fun _ => .ite (h.bind fun _ => .pure _) (.pure _)

theorem itemStep_length (h : Closed item) {state next : Bool × List α} {bytes rest : Bytes}
    (done : itemStep item state bytes = .ok (.inr next, rest)) : rest.length < bytes.length := by
  obtain ⟨more, middle, first, second⟩ := bind_eq_ok.mp done
  have fewer := (Steady.hasItem _).length_le _ _ _ first
  cases more with
  | false => cases second
  | true =>
    obtain ⟨a, after, read, done⟩ := bind_eq_ok.mp second
    cases done
    exact Nat.lt_of_lt_of_le (h.length_lt _ _ _ read) fewer

theorem items_steady (h : Closed item) : Steady (items item) :=
  loop_steady (fun fuel (state : Bool × List α) => itemsOnto item fuel state.1 state.2)
    (itemsOnto_step item) (itemStep_steady h.steady) (fun _ _ _ _ => itemStep_length h) (true, [])

theorem list_closed (h : Closed item) : Closed (list item) :=
  .peeked fun b bytes rest found done => by
    by_cases bracket : b = ascii '['
    · simp only [bracket, if_true, take_bind] at done ⊢
      exact enclosed_append closeList_closes (items_steady h) done
    · simp only [bracket, if_false] at done
      exact absurd done (wrongType_ne_ok _ _ _ _)

end items

end JsonReader

namespace JsonRecord

open JsonReader

variable (form : JsonRecord α)

/-- What stands behind a key. -/
def memberValue (seen : List String) (record : α) (key : String) :
    JsonReader (Bool × List String × α) := do
  match form.field? key with
  | none =>
    colon
    JsonSkip.value
    return (false, seen, record)
  | some field =>
    if seen.contains field.name then failLoose (.duplicateField field.name)
    else
      colon
      let change ← field.read
      return (false, field.name :: seen, change record)

/-- Up to the next member of an object, or its end. -/
def memberStep (state : Bool × List String × α) :
    JsonReader (α ⊕ Bool × List String × α) := do
  if ← hasKey state.1 then
    let key ← JsonString.body
    .inr <$> form.memberValue state.2.1 state.2.2 key
  else
    match form.missing? state.2.1 with
    | some field => failLoose (.missingField field.name)
    | none => return .inl state.2.2

theorem membersOnto_step (fuel : Nat) (state : Bool × List String × α) :
    form.membersOnto (fuel + 1) state.1 state.2.1 state.2.2 =
      form.memberStep state >>=
        Sum.elim pure fun next => form.membersOnto fuel next.1 next.2.1 next.2.2 := by
  rw [membersOnto, memberStep, bind_assoc]
  congr 1
  funext more
  cases more with
  | false =>
    simp only [Bool.false_eq_true, if_false]
    cases form.missing? state.2.1 <;> rfl
  | true =>
    simp only [if_true]
    rw [bind_assoc]
    congr 1
    funext key
    rw [map_eq_pure_bind, bind_assoc, memberValue]
    cases form.field? key with
    | none =>
      simp only [bind_assoc]
      rfl
    | some field =>
      simp only
      split
      · rfl
      · simp only [bind_assoc]
        rfl

variable {form}

theorem memberValue_steady (h : ∀ field ∈ form.fields, Steady field.read) (seen : List String)
    (record : α) (key : String) : Steady (form.memberValue seen record key) := by
  unfold memberValue
  cases known : form.field? key with
  | none => exact Steady.colon.bind fun _ => JsonSkip.value_steady.bind fun _ => .pure _
  | some field =>
    have steady := h field (List.mem_of_find?_eq_some known)
    exact .ite (.failLoose _) (Steady.colon.bind fun _ => steady.bind fun _ => .pure _)

theorem memberStep_steady (h : ∀ field ∈ form.fields, Steady field.read)
    (state : Bool × List String × α) : Steady (form.memberStep state) :=
  (Steady.hasKey _).bind fun _ => .ite
    (JsonString.body_steady.bind fun _ => (memberValue_steady h _ _ _).map _)
    (by
      cases form.missing? state.2.1 with
      | none => exact .pure _
      | some field => exact .failLoose _)

theorem memberStep_length (h : ∀ field ∈ form.fields, Steady field.read)
    {state next : Bool × List String × α} {bytes rest : Bytes}
    (done : form.memberStep state bytes = .ok (.inr next, rest)) :
    rest.length < bytes.length := by
  obtain ⟨more, middle, first, second⟩ := bind_eq_ok.mp done
  have fewer := (Steady.hasKey _).length_le _ _ _ first
  cases more with
  | false =>
    simp only [Bool.false_eq_true, if_false] at second
    cases missing : form.missing? state.2.1 <;> simp only [missing] at second <;> cases second
  | true =>
    simp only [if_true] at second
    obtain ⟨key, inside, keyed, done⟩ := bind_eq_ok.mp second
    have shorter := JsonString.body_length keyed
    have fewest := ((memberValue_steady h _ _ key).map _).length_le _ _ _ done
    omega

theorem ofMembers_steady (h : ∀ field ∈ form.fields, Steady field.read) :
    Steady form.ofMembers :=
  loop_steady (fun fuel (state : Bool × List String × α) =>
      form.membersOnto fuel state.1 state.2.1 state.2.2)
    form.membersOnto_step (memberStep_steady h) (fun _ _ _ _ => memberStep_length h)
    (true, [], form.blank)

theorem itemsOnto_steady {fields : List (JsonField α)} (h : ∀ field ∈ fields, Steady field.read)
    (index : Nat) (record : α) : Steady (form.itemsOnto index record fields) := by
  induction fields generalizing index record with
  | nil => exact .pure _
  | cons field fields ih =>
    have later := ih fun other member => h other (List.mem_cons_of_mem field member)
    exact (Steady.hasItem _).bind fun _ => .ite
      ((h field List.mem_cons_self).bind fun _ => later _ _) (.ite (.failLoose _) (later _ _))

theorem read_closed (h : ∀ field ∈ form.fields, Steady field.read) : Closed form.read :=
  .peeked fun b bytes rest record done => by
    by_cases list : b = ascii '['
    · simp only [list, if_true, take_bind] at done ⊢
      exact enclosed_append closeList_closes (itemsOnto_steady h 0 form.blank) done
    by_cases object : b = ascii '{'
    · have apart : ascii '{' ≠ ascii '[' := by decide
      simp only [object, apart, if_false, if_true, take_bind] at done ⊢
      exact enclosed_append closeObject_closes (ofMembers_steady h) done
    · simp only [list, object, if_false] at done
      exact absurd done (wrongType_ne_ok _ _ _ _)

end JsonRecord

end CompilerDriver
