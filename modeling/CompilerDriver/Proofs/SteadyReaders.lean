import CompilerDriver.JsonRecord
import CompilerDriver.Proofs.ValueSkipping

namespace CompilerDriver

namespace JsonReader

variable {α β : Type}

/-- A reader leaves no more than it was given, and where it leaves something, it does not matter
what stands behind that. -/
structure Steady (reader : JsonReader α) : Prop where
  length_le : ∀ bytes rest a, reader bytes = .ok (a, rest) → rest.length ≤ bytes.length
  append : ∀ bytes rest a, reader bytes = .ok (a, rest) → rest ≠ [] →
    ∀ more, reader (bytes ++ more) = .ok (a, rest ++ more)

theorem ne_nil_of_length_le {a b : Bytes} (left : a ≠ []) (h : a.length ≤ b.length) : b ≠ [] := by
  rintro rfl
  exact left (List.length_eq_zero_iff.mp (Nat.le_zero.mp h))

theorem dropWhile_append_cons {p : UInt8 → Bool} {bytes tail : Bytes} {b : UInt8}
    (h : bytes.dropWhile p = b :: tail) (more : Bytes) :
    (bytes ++ more).dropWhile p = b :: (tail ++ more) := by
  rw [List.dropWhile_append, if_neg (by simp [h]), h, List.cons_append]

namespace Steady

theorem pure (a : α) : Steady (Pure.pure a) where
  length_le := fun _ _ _ done => by
    cases done
    exact Nat.le_refl _
  append := fun _ _ _ done _ _ => by
    cases done
    rfl

theorem bind {reader : JsonReader α} {next : α → JsonReader β} (h : Steady reader)
    (hn : ∀ a, Steady (next a)) : Steady (reader >>= next) where
  length_le := fun bytes rest b done => by
    obtain ⟨a, middle, first, second⟩ := bind_eq_ok.mp done
    exact Nat.le_trans ((hn a).length_le _ _ _ second) (h.length_le _ _ _ first)
  append := fun bytes rest b done left more => by
    obtain ⟨a, middle, first, second⟩ := bind_eq_ok.mp done
    have between := ne_nil_of_length_le left ((hn a).length_le _ _ _ second)
    rw [bind_of_ok (h.append _ _ _ first between more)]
    exact (hn a).append _ _ _ second left more

theorem map {reader : JsonReader α} (h : Steady reader) (f : α → β) : Steady (f <$> reader) := by
  rw [map_eq_pure_bind]
  exact h.bind fun a => pure (f a)

theorem ite {c : Prop} [Decidable c] {a b : JsonReader α} (ha : Steady a) (hb : Steady b) :
    Steady (if c then a else b) := by
  split
  · exact ha
  · exact hb

theorem of_failing {reader : JsonReader α} (h : ∀ bytes rest a, reader bytes ≠ .ok (a, rest)) :
    Steady reader where
  length_le := fun bytes rest a done => absurd done (h bytes rest a)
  append := fun bytes rest a done => absurd done (h bytes rest a)

theorem failHere (cause : JsonCause) : Steady (JsonReader.failHere cause : JsonReader α) :=
  of_failing fun _ _ _ => by simp [JsonReader.failHere]

theorem failNext (cause : JsonCause) : Steady (JsonReader.failNext cause : JsonReader α) :=
  of_failing fun _ _ _ => by simp [JsonReader.failNext]

theorem failLoose (cause : JsonCause) : Steady (JsonReader.failLoose cause : JsonReader α) :=
  of_failing fun _ _ _ => by simp [JsonReader.failLoose]

theorem wrongType (expected : String) : Steady (JsonReader.wrongType expected : JsonReader α) :=
  of_failing (wrongType_ne_ok expected)

theorem peek : Steady JsonReader.peek where
  length_le := fun bytes rest found done => by
    cases done
    exact (List.dropWhile_suffix isSpace).length_le
  append := fun bytes rest found done left more => by
    cases done
    obtain ⟨b, tail, shown⟩ := List.exists_cons_of_ne_nil left
    simp only [JsonReader.peek, dropWhile_append_cons shown, shown, List.cons_append,
      List.head?_cons]

theorem take : Steady JsonReader.take where
  length_le := fun bytes rest found done => by
    cases done
    simp
  append := fun bytes rest found done left more => by
    cases done
    cases bytes with
    | nil => exact absurd rfl left
    | cons b bytes => rfl

/-- A reader that looks at the next octet and goes on with what fits it. -/
theorem peeked {absent : JsonReader α} {next : UInt8 → JsonReader α} (none : Steady absent)
    (some : ∀ b, Steady (next b)) :
    Steady (do
      match ← JsonReader.peek with
      | .none => absent
      | .some b => next b) :=
  peek.bind fun found => by
    cases found with
    | none => exact none
    | some b => exact some b

theorem word (expected : List UInt8) : Steady (JsonReader.word expected) := by
  induction expected with
  | nil => exact pure ()
  | cons b expected ih =>
    constructor
    · intro bytes rest a done
      cases bytes with
      | nil => cases done
      | cons c bytes =>
        by_cases same : c = b
        · simp only [JsonReader.word, same, if_true] at done
          exact Nat.le_succ_of_le (ih.length_le _ _ _ done)
        · simp [JsonReader.word, same] at done
    · intro bytes rest a done left more
      cases bytes with
      | nil => cases done
      | cons c bytes =>
        by_cases same : c = b
        · simp only [JsonReader.word, same, if_true] at done
          simp only [List.cons_append, JsonReader.word, same, if_true]
          exact ih.append _ _ _ done left more
        · simp [JsonReader.word, same] at done

theorem hasItem (first : Bool) : Steady (JsonReader.hasItem first) :=
  peeked (failNext _) fun _ =>
    ite (pure false) <| ite (pure true) <| ite
      (take.bind fun _ => peeked (failNext _) fun _ => ite (failNext _) (pure true))
      (failNext _)

theorem hasKey (first : Bool) : Steady (JsonReader.hasKey first) :=
  peeked (failNext _) fun _ =>
    ite (pure false) <| ite (ite (take.bind fun _ => pure true) (failNext _)) <| ite
      (take.bind fun _ => peeked (failNext _) fun _ =>
        ite (take.bind fun _ => pure true) (ite (failNext _) (failNext _)))
      (failNext _)

theorem colon : Steady JsonReader.colon :=
  peeked (failNext _) fun _ => ite take (failNext _)

end Steady

/-- What a reader that looks at the next octet goes on with. -/
theorem exists_peeked {cause : JsonCause} {next : UInt8 → JsonReader α} {bytes rest : Bytes} {a : α}
    (h : (do
      match ← peek with
      | none => failNext cause
      | some b => next b) bytes = .ok (a, rest)) :
    ∃ b tail, (b :: tail).length ≤ bytes.length ∧ next b (b :: tail) = .ok (a, rest) := by
  have fewer := (List.dropWhile_suffix (l := bytes) isSpace).length_le
  rw [peek_bind] at h
  generalize bytes.dropWhile isSpace = shown at h fewer
  cases shown with
  | nil => cases h
  | cons b tail => exact ⟨b, tail, fewer, h⟩

/-- A loop of steps that each take an octet goes on as it did when more octets follow, as long as
there are more steps than octets to take. -/
theorem loop_append {σ : Type} (loop : Nat → σ → JsonReader α) {body : σ → JsonReader (α ⊕ σ)}
    (succ : ∀ fuel s, loop (fuel + 1) s = body s >>= Sum.elim pure (loop fuel))
    (steady : ∀ s, Steady (body s))
    (advances : ∀ s next bytes rest, body s bytes = .ok (.inr next, rest) →
      rest.length < bytes.length)
    {fuel : Nat} {s : σ} {bytes rest : Bytes} {a : α} (enough : bytes.length < fuel)
    (h : loop fuel s bytes = .ok (a, rest)) :
    rest.length ≤ bytes.length ∧ (rest ≠ [] → ∀ more larger, (bytes ++ more).length < larger →
      loop larger s (bytes ++ more) = .ok (a, rest ++ more)) := by
  induction fuel generalizing s bytes with
  | zero => exact absurd enough (Nat.not_lt_zero _)
  | succ fuel ih =>
    rw [succ] at h
    obtain ⟨found, middle, first, second⟩ := bind_eq_ok.mp h
    have few := (steady s).length_le _ _ _ first
    have larger_pos {larger n : Nat} (h : n < larger) : ∃ l, larger = l + 1 :=
      Nat.exists_eq_add_one.mpr (Nat.zero_lt_of_lt h)
    cases found with
    | inl b =>
      cases second
      refine ⟨few, fun left more larger room => ?_⟩
      obtain ⟨larger, rfl⟩ := larger_pos room
      rw [succ, bind_of_ok ((steady s).append _ _ _ first left more)]
      rfl
    | inr next =>
      have shorter := advances s next bytes middle first
      obtain ⟨fewer, longer⟩ := ih (by omega) second
      refine ⟨Nat.le_trans fewer few, fun left more larger room => ?_⟩
      obtain ⟨larger, rfl⟩ := larger_pos room
      rw [succ, bind_of_ok ((steady s).append _ _ _ first (ne_nil_of_length_le left fewer) more)]
      rw [List.length_append] at room
      exact longer left more larger (by rw [List.length_append]; omega)

/-- A loop that may take as many steps as there are octets, and one more. -/
theorem loop_steady {σ : Type} (loop : Nat → σ → JsonReader α) {body : σ → JsonReader (α ⊕ σ)}
    (succ : ∀ fuel s, loop (fuel + 1) s = body s >>= Sum.elim pure (loop fuel))
    (steady : ∀ s, Steady (body s))
    (advances : ∀ s next bytes rest, body s bytes = .ok (.inr next, rest) →
      rest.length < bytes.length) (s : σ) :
    Steady (do loop ((← get).length + 1) s) where
  length_le := fun bytes _ _ done =>
    (loop_append loop succ steady advances (Nat.lt_succ_self bytes.length) done).1
  append := fun bytes _ _ done left more =>
    (loop_append loop succ steady advances (Nat.lt_succ_self bytes.length) done).2 left more _
      (Nat.lt_succ_self _)

end JsonReader

namespace JsonString

open JsonReader

theorem unit_steady : Steady unit where
  length_le := fun _ _ _ done => Nat.le_of_lt (unit_length done)
  append := fun bytes rest n done _ more => by
    unfold unit at done
    (repeat' split at done) <;> simp only [Except.ok.injEq, Prod.mk.injEq, reduceCtorEq] at done
    obtain ⟨rfl, rfl⟩ := done
    simp [unit, *]

theorem lowHalf_steady (high : Nat) : Steady (lowHalf high) where
  length_le := fun _ _ _ done => Nat.le_of_lt (lowHalf_length done)
  append := fun bytes rest c done left more => by
    unfold lowHalf at done
    (repeat' split at done) <;> simp only [Except.ok.injEq, Prod.mk.injEq, reduceCtorEq] at done
    obtain ⟨rfl, rfl⟩ := done
    next unitRead range =>
      have read := unit_steady.append _ _ _ unitRead left more
      simp only [List.cons_append, lowHalf, if_true, and_self, *]

theorem codePoint_steady : Steady codePoint where
  length_le := fun _ _ _ done => Nat.le_of_lt (codePoint_length done)
  append := fun bytes rest c done left more => by
    unfold codePoint at done
    split at done
    · cases done
    next n middle unitRead =>
      split at done
      · cases done
      next noLow =>
        have between : middle ≠ [] := by
          split at done
          · exact ne_nil_of_length_le left ((lowHalf_steady n).length_le _ _ _ done)
          · cases done
            exact left
        have read := unit_steady.append _ _ _ unitRead between more
        split at done
        next high =>
          simp only [codePoint, read, noLow, high, if_false, if_true, and_self]
          exact (lowHalf_steady n).append _ _ _ done left more
        next noHigh =>
          cases done
          simp only [codePoint, read, noLow, noHigh, if_false]

theorem escape_steady : Steady escape where
  length_le := fun _ _ _ done => Nat.le_of_lt (escape_length done)
  append := fun bytes rest c done left more => by
    unfold escape at done
    split at done
    · cases done
    next b bytes =>
      split at done
      next short =>
        cases done
        simp only [List.cons_append, escape, short]
      next long =>
        split at done
        next letter =>
          simp only [List.cons_append, escape, letter, if_true]
          exact codePoint_steady.append _ _ _ done left more
        · cases done

/-- A string ends with its closing quote, whatever stands behind. -/
theorem octetsOnto_append {found bytes octets rest : Bytes}
    (h : octetsOnto found bytes = .ok (octets, rest)) :
    rest.length < bytes.length ∧
      ∀ more, octetsOnto found (bytes ++ more) = .ok (octets, rest ++ more) := by
  induction found, bytes using octetsOnto.induct with
  | case1 found =>
    rw [octetsOnto] at h
    cases h
  | case2 found tail =>
    rw [octetsOnto_end] at h
    cases h
    exact ⟨Nat.lt_succ_self _, fun more => octetsOnto_end found _⟩
  | case3 found tail fault failed =>
    rw [octetsOnto, if_neg (by decide), if_pos rfl] at h
    split at h <;> simp_all
  | case4 found tail c middle read _ ih =>
    rw [octetsOnto_escape read] at h
    obtain ⟨shorter, longer⟩ := ih h
    have few := escape_length read
    have between : middle ≠ [] := List.ne_nil_of_length_pos (by omega)
    refine ⟨by rw [List.length_cons]; omega, fun more => ?_⟩
    rw [List.cons_append, octetsOnto_escape (escape_steady.append _ _ _ read between more)]
    exact longer more
  | case5 found b tail quote backslash control =>
    rw [octetsOnto, if_neg quote, if_neg backslash, if_pos control] at h
    cases h
  | case6 found b tail quote backslash control ih =>
    have step (bytes : Bytes) : octetsOnto found (b :: bytes) = octetsOnto (b :: found) bytes := by
      rw [octetsOnto, if_neg quote, if_neg backslash, if_neg control]
    rw [step] at h
    obtain ⟨shorter, longer⟩ := ih h
    refine ⟨Nat.lt_succ_of_lt shorter, fun more => ?_⟩
    rw [List.cons_append, step]
    exact longer more

theorem body_length {bytes rest : Bytes} {s : String} (h : body bytes = .ok (s, rest)) :
    rest.length < bytes.length := by
  unfold body at h
  split at h
  · cases h
  next read =>
    split at h
    · cases h
      exact (octetsOnto_append read).1
    · cases h

theorem body_append {bytes rest : Bytes} {s : String} (h : body bytes = .ok (s, rest))
    (more : Bytes) : body (bytes ++ more) = .ok (s, rest ++ more) := by
  unfold body at h
  split at h
  · cases h
  next read =>
    split at h
    next text =>
      cases h
      simp only [body, (octetsOnto_append read).2 more, text]
    · cases h

theorem body_steady : Steady body where
  length_le := fun _ _ _ done => Nat.le_of_lt (body_length done)
  append := fun _ _ _ done _ more => body_append done more

theorem skip_append {bytes rest : Bytes} {a : Unit} (h : skip bytes = .ok (a, rest)) :
    rest.length < bytes.length ∧ ∀ more, skip (bytes ++ more) = .ok (a, rest ++ more) := by
  induction bytes using skip.induct with
  | case1 =>
    rw [skip] at h
    cases h
  | case2 tail =>
    have closed (bytes : Bytes) : skip (ascii '\x22' :: bytes) = .ok ((), bytes) := by
      rw [skip.eq_def]
      simp only [if_true]
    rw [closed] at h
    cases h
    exact ⟨Nat.lt_succ_self _, fun more => closed _⟩
  | case3 =>
    rw [skip, if_neg (by decide), if_pos rfl] at h
    cases h
  | case4 name tail known _ ih =>
    rw [skip_short known] at h
    obtain ⟨shorter, longer⟩ := ih h
    refine ⟨by simp only [List.length_cons]; omega, fun more => ?_⟩
    rw [List.cons_append, List.cons_append, skip_short known]
    exact longer more
  | case5 tail fault failed _ unknown =>
    rw [skip, if_neg (by decide), if_pos rfl] at h
    simp only [if_neg unknown, if_true] at h
    split at h <;> simp_all
  | case6 tail n middle read _ _ ih =>
    rw [skip_of_unit read] at h
    obtain ⟨shorter, longer⟩ := ih h
    have few := unit_length read
    have between : middle ≠ [] := List.ne_nil_of_length_pos (by omega)
    refine ⟨by simp only [List.length_cons]; omega, fun more => ?_⟩
    rw [List.cons_append, List.cons_append, skip_of_unit (unit_steady.append _ _ _ read between more)]
    exact longer more
  | case7 name tail unknown letter =>
    rw [skip, if_neg (by decide), if_pos rfl] at h
    simp only [if_neg unknown, if_neg letter, reduceCtorEq] at h
  | case8 b tail quote backslash control =>
    rw [skip.eq_def] at h
    simp only [if_neg quote, if_neg backslash, if_pos control, reduceCtorEq] at h
  | case9 b tail quote backslash control ih =>
    have step (bytes : Bytes) : skip (b :: bytes) = skip bytes := by
      rw [skip.eq_def]
      simp only [if_neg quote, if_neg backslash, if_neg control]
    rw [step] at h
    obtain ⟨shorter, longer⟩ := ih h
    refine ⟨Nat.lt_succ_of_lt shorter, fun more => ?_⟩
    rw [List.cons_append, step]
    exact longer more

theorem skip_steady : Steady skip where
  length_le := fun _ _ _ done => Nat.le_of_lt (skip_append done).1
  append := fun _ _ _ done _ more => (skip_append done).2 more

end JsonString

namespace JsonNumeral

open JsonReader

theorem length_skipDigits (count : Nat) (bytes : Bytes) :
    (skipDigits count bytes).2.length ≤ bytes.length := by
  induction bytes generalizing count with
  | nil => exact Nat.le_refl _
  | cons b bytes ih =>
    rw [skipDigits]
    split
    · exact Nat.le_succ_of_le (ih _)
    · exact Nat.le_refl _

theorem skipDigits_append (count : Nat) {bytes : Bytes} (left : (skipDigits count bytes).2 ≠ [])
    (more : Bytes) :
    skipDigits count (bytes ++ more) =
      ((skipDigits count bytes).1, (skipDigits count bytes).2 ++ more) := by
  induction bytes generalizing count with
  | nil => exact absurd rfl left
  | cons b bytes ih =>
    rw [skipDigits] at left ⊢
    rw [List.cons_append, skipDigits]
    split at left
    next digit => rw [if_pos digit, if_pos digit, ih _ left]
    next other => rw [if_neg other, if_neg other, List.cons_append]

theorem length_exponentSign (bytes : Bytes) : (exponentSign bytes).2.length ≤ bytes.length := by
  unfold exponentSign
  split
  · exact Nat.le_refl _
  · split
    · exact Nat.le_succ _
    · split
      · exact Nat.le_succ _
      · exact Nat.le_refl _

theorem exponentSign_append (b : UInt8) (bytes more : Bytes) :
    (exponentSign (b :: bytes ++ more)).2 = (exponentSign (b :: bytes)).2 ++ more := by
  rw [List.cons_append, exponentSign, exponentSign]
  (repeat' split) <;> rfl

theorem skipExponent_steady : Steady skipExponent where
  length_le := fun bytes rest a done => by
    unfold skipExponent at done
    split at done
    · cases done
    next b digits sign =>
      split at done
      · cases done
        have first := length_exponentSign bytes
        have later := length_skipDigits 0 digits
        rw [sign, List.length_cons] at first
        omega
      · cases done
  append := fun bytes rest a done left more => by
    cases bytes with
    | nil => cases done
    | cons c bytes =>
      unfold skipExponent at done ⊢
      rw [exponentSign_append]
      split at done
      · cases done
      next b digits sign =>
        split at done
        next digit =>
          cases done
          simp only [sign, List.cons_append, digit, if_true, skipDigits_append 0 left more]
        · cases done

theorem skipAfterDecimals_steady : Steady skipAfterDecimals where
  length_le := fun bytes rest a done => by
    cases bytes with
    | nil =>
      cases done
      exact Nat.le_refl _
    | cons b bytes =>
      rw [skipAfterDecimals] at done
      split at done
      · exact Nat.le_succ_of_le (skipExponent_steady.length_le _ _ _ done)
      · cases done
        exact Nat.le_refl _
  append := fun bytes rest a done left more => by
    cases bytes with
    | nil =>
      cases done
      exact absurd rfl left
    | cons b bytes =>
      rw [skipAfterDecimals] at done
      rw [List.cons_append, skipAfterDecimals]
      split at done
      next letter =>
        rw [if_pos letter]
        exact skipExponent_steady.append _ _ _ done left more
      next other =>
        cases done
        rw [if_neg other, List.cons_append]

theorem skipAfterWhole_cons (b : UInt8) (bytes : Bytes) :
    skipAfterWhole (b :: bytes) =
      if b = ascii '.' then
        if (skipDigits 0 bytes).1 = 0 then
          .error (.fixed .invalidNumber (skipDigits 0 bytes).2.tail)
        else skipAfterDecimals (skipDigits 0 bytes).2
      else skipAfterDecimals (b :: bytes) := rfl

theorem skipAfterWhole_steady : Steady skipAfterWhole where
  length_le := fun bytes rest a done => by
    cases bytes with
    | nil =>
      cases done
      exact Nat.le_refl _
    | cons b bytes =>
      rw [skipAfterWhole_cons] at done
      split at done
      · split at done
        · cases done
        · have first := length_skipDigits 0 bytes
          have later := skipAfterDecimals_steady.length_le _ _ _ done
          rw [List.length_cons]
          omega
      · exact skipAfterDecimals_steady.length_le _ _ _ done
  append := fun bytes rest a done left more => by
    cases bytes with
    | nil =>
      cases done
      exact absurd rfl left
    | cons b bytes =>
      rw [skipAfterWhole_cons] at done
      rw [List.cons_append, skipAfterWhole_cons]
      split at done
      next point =>
        split at done
        · cases done
        next some =>
          have between := ne_nil_of_length_le left (skipAfterDecimals_steady.length_le _ _ _ done)
          rw [if_pos point, skipDigits_append 0 between more]
          simp only [some, if_false]
          exact skipAfterDecimals_steady.append _ _ _ done left more
      next other =>
        rw [if_neg other, ← List.cons_append]
        exact skipAfterDecimals_steady.append _ _ _ done left more

theorem skipUnsigned_length {bytes rest : Bytes} {a : Unit}
    (h : skipUnsigned bytes = .ok (a, rest)) : rest.length < bytes.length := by
  cases bytes with
  | nil => cases h
  | cons b bytes =>
    rw [skipUnsigned] at h
    rw [List.length_cons]
    split at h
    · split at h
      · cases h
      · exact Nat.lt_succ_of_le (skipAfterWhole_steady.length_le _ _ _ h)
    · split at h
      · have first := length_skipDigits 0 bytes
        have later := skipAfterWhole_steady.length_le _ _ _ h
        omega
      · cases h

theorem skipUnsigned_steady : Steady skipUnsigned where
  length_le := fun _ _ _ done => Nat.le_of_lt (skipUnsigned_length done)
  append := fun bytes rest a done left more => by
    cases bytes with
    | nil => cases done
    | cons b bytes =>
      rw [skipUnsigned] at done
      rw [List.cons_append, skipUnsigned]
      split at done
      next zero =>
        rw [if_pos zero]
        split at done
        · cases done
        next noDigit =>
          have between := ne_nil_of_length_le left (skipAfterWhole_steady.length_le _ _ _ done)
          have same : startsWithDigit (bytes ++ more) = startsWithDigit bytes := by
            obtain ⟨c, tail, rfl⟩ := List.exists_cons_of_ne_nil between
            rfl
          rw [same, if_neg noDigit]
          exact skipAfterWhole_steady.append _ _ _ done left more
      next nonzero =>
        rw [if_neg nonzero]
        split at done
        next digit =>
          have between := ne_nil_of_length_le left (skipAfterWhole_steady.length_le _ _ _ done)
          rw [if_pos digit, skipDigits_append 0 between]
          exact skipAfterWhole_steady.append _ _ _ done left more
        · cases done

theorem skip_length {bytes rest : Bytes} {a : Unit} (h : skip bytes = .ok (a, rest)) :
    rest.length < bytes.length := by
  cases bytes with
  | nil => cases h
  | cons b bytes =>
    rw [skip] at h
    split at h
    · exact Nat.lt_succ_of_lt (skipUnsigned_length h)
    · exact skipUnsigned_length h

theorem skip_steady : Steady skip where
  length_le := fun _ _ _ done => Nat.le_of_lt (skip_length done)
  append := fun bytes rest a done left more => by
    cases bytes with
    | nil => cases done
    | cons b bytes =>
      rw [skip] at done
      rw [List.cons_append, skip]
      split at done
      next minus =>
        rw [if_pos minus]
        exact skipUnsigned_steady.append _ _ _ done left more
      next plain =>
        rw [if_neg plain, ← List.cons_append]
        exact skipUnsigned_steady.append _ _ _ done left more

end JsonNumeral

namespace JsonSkip

open JsonReader

theorem word_length {expected bytes rest : Bytes} {a : Unit}
    (h : word expected bytes = .ok (a, rest)) : bytes.length = expected.length + rest.length := by
  induction expected generalizing bytes with
  | nil =>
    cases h
    simp
  | cons b expected ih =>
    cases bytes with
    | nil => cases h
    | cons c bytes =>
      by_cases same : c = b
      · simp only [word, same, if_true] at h
        have later := ih h
        simp only [List.length_cons]
        omega
      · simp [word, same] at h

theorem scalar_length {bytes rest : Bytes} {a : Unit} (h : scalar bytes = .ok (a, rest)) :
    rest.length < bytes.length := by
  obtain ⟨b, tail, fewer, h⟩ := exists_peeked h
  refine Nat.lt_of_lt_of_le ?_ fewer
  have four : (Utf8.encode "null").length = 4 ∧ (Utf8.encode "true").length = 4 := by decide
  have five : (Utf8.encode "false").length = 5 := by decide
  split at h
  · have := word_length h
    omega
  split at h
  · have := word_length h
    omega
  split at h
  · have := word_length h
    omega
  split at h
  · rw [take_bind] at h
    exact Nat.lt_succ_of_lt (JsonString.skip_append h).1
  split at h
  · exact JsonNumeral.skip_length h
  · cases h

theorem scalar_steady : Steady scalar :=
  .peeked (.failNext _) fun _ => .ite (.word _) <| .ite (.word _) <| .ite (.word _) <|
    .ite (Steady.take.bind fun _ => JsonString.skip_steady) <|
      .ite JsonNumeral.skip_steady (.failNext _)

theorem leave_steady (frames : List Frame) : Steady (leave frames) := by
  induction frames with
  | nil => exact .pure _
  | cons frame outer ih =>
    exact .peeked (.failNext _) fun _ => .ite (Steady.take.bind fun _ => .pure _) <|
      .ite (Steady.take.bind fun _ => ih) (.failNext _)

theorem enter_steady (frame : Frame) (outer : List Frame) : Steady (enter frame outer) :=
  Steady.take.bind fun _ => .peeked (.failNext _) fun _ =>
    .ite (Steady.take.bind fun _ => leave_steady outer) (.pure _)

theorem key_steady : Steady key :=
  .peeked (.failNext _) fun _ =>
    .ite (Steady.take.bind fun _ => JsonString.skip_steady.bind fun _ => .colon) (.failNext _)

theorem step_steady (frames : List Frame) : Steady (step frames) :=
  .peeked (.failNext _) fun b => by
    cases Frame.ofOpening? b with
    | some frame => exact enter_steady frame frames
    | none => exact scalar_steady.bind fun _ => leave_steady frames

theorem step_length {frames next : List Frame} {bytes rest : Bytes}
    (h : step frames bytes = .ok (next, rest)) : rest.length < bytes.length := by
  obtain ⟨b, tail, fewer, h⟩ := exists_peeked h
  refine Nat.lt_of_lt_of_le ?_ fewer
  cases opening : Frame.ofOpening? b with
  | some frame =>
    simp only [opening] at h
    rw [enter, take_bind] at h
    have inside : Steady (do
        match ← peek with
        | none => failNext frame.cut
        | some b => if b = frame.closing then do take; leave frames else return frame :: frames) :=
      .peeked (.failNext _) fun _ =>
        .ite (Steady.take.bind fun _ => leave_steady frames) (.pure _)
    exact Nat.lt_succ_of_le (inside.length_le _ _ _ h)
  | none =>
    simp only [opening] at h
    obtain ⟨_, middle, first, second⟩ := bind_eq_ok.mp h
    have shorter := scalar_length first
    have fewest := (leave_steady frames).length_le _ _ _ second
    omega

/-- What precedes the next step, if there is one. -/
def follow : List Frame → JsonReader (Unit ⊕ List Frame)
  | [] => return .inl ()
  | .list :: outer => return .inr (.list :: outer)
  | .object :: outer => do
    key
    return .inr (.object :: outer)

def advance (frames : List Frame) : JsonReader (Unit ⊕ List Frame) :=
  step frames >>= follow

theorem follow_steady (frames : List Frame) : Steady (follow frames) := by
  cases frames with
  | nil => exact .pure _
  | cons frame outer =>
    cases frame with
    | list => exact .pure _
    | object => exact key_steady.bind fun _ => .pure _

theorem proceed_follow (fuel : Nat) (frames : List Frame) :
    proceed fuel frames = follow frames >>= Sum.elim pure (run fuel) := by
  cases frames with
  | nil => rfl
  | cons frame outer =>
    cases frame with
    | list => rfl
    | object =>
      rw [follow, bind_assoc]
      rfl

theorem run_advance (fuel : Nat) (frames : List Frame) :
    run (fuel + 1) frames = advance frames >>= Sum.elim pure (run fuel) := by
  rw [run_succ, advance, bind_assoc]
  congr 1
  funext next
  exact proceed_follow fuel next

theorem advance_steady (frames : List Frame) : Steady (advance frames) :=
  (step_steady frames).bind follow_steady

theorem advance_length {frames next : List Frame} {bytes rest : Bytes}
    (h : advance frames bytes = .ok (.inr next, rest)) : rest.length < bytes.length := by
  obtain ⟨found, middle, first, second⟩ := bind_eq_ok.mp h
  exact Nat.lt_of_le_of_lt ((follow_steady found).length_le _ _ _ second) (step_length first)

theorem value_steady : Steady value :=
  loop_steady run run_advance advance_steady (fun _ _ _ _ => advance_length) []

end JsonSkip

end CompilerDriver
