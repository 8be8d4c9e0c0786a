import CompilerDriver.Proofs.SystemReads
import CompilerDriver.Proofs.Utf8Text
import Mathlib.Logic.Relation

namespace CompilerDriver

open Relation (ReflTransGen)

/-- How far the read of one input has come. A read that drains standard input holds what it has
gathered by itself until the stream ends. -/
inductive ReadState where
  | waiting
  | draining (gathered : Bytes)
  | ended (outcome : Except IoFault String)

/-- The reads of a list of inputs, each known by its place, over one standard input. -/
structure Reads where
  console : Console
  state : Nat → ReadState

namespace Reads

/-- No read has begun, and standard input is still to come in these chunks. -/
def start (chunks : List Bytes) : Reads :=
  ⟨⟨none, chunks⟩, fun _ => .waiting⟩

def put (reads : Reads) (console : Console) (index : Nat) (state : ReadState) : Reads :=
  ⟨console, fun other => if other = index then state else reads.state other⟩

def Idle (reads : Reads) : Prop :=
  ∀ index gathered, reads.state index ≠ .draining gathered

/-- What a read that drains standard input may do next with what it has gathered. When it fails,
nothing is kept, and what it has taken from the stream is gone. -/
inductive Gathers (gathered : Bytes) (console : Console) : Console → ReadState → Prop where
  | take {chunk : Bytes} {more : List Bytes} : console.pending = chunk :: more →
      Gathers gathered console ⟨console.kept, more⟩ (.draining (gathered ++ chunk))
  | fault (cause : IoFault) : Gathers gathered console console (.ended (.error cause))
  | keep {text : String} : console.pending = [] → Utf8.decode gathered = .ok text →
      Gathers gathered console ⟨some text, []⟩ (.ended (.ok text))
  | refuse {fault : Utf8.Fault} : console.pending = [] → Utf8.decode gathered = .error fault →
      Gathers gathered console console (.ended (.error (.invalidText fault)))

/-- What the read of standard input at a place may do next. Text that is kept is handed out at
once; where there is none, one read at a time drains the stream. -/
inductive Drains (index : Nat) (reads : Reads) : Reads → Prop where
  | share {text : String} : reads.state index = .waiting → reads.console.kept = some text →
      Drains index reads (reads.put reads.console index (.ended (.ok text)))
  | begin : reads.state index = .waiting → reads.console.kept = none → reads.Idle →
      Drains index reads (reads.put reads.console index (.draining []))
  | gather {gathered : Bytes} {console : Console} {state : ReadState} :
      reads.state index = .draining gathered → Gathers gathered reads.console console state →
      Drains index reads (reads.put console index state)

/-- One move of one read, whichever comes next. The read of a file may come to anything. -/
inductive Moves (inputs : List InputSource) (reads : Reads) : Reads → Prop where
  | file {index : Nat} {path : Path} (outcome : Except IoFault String) :
      inputs[index]? = some (.file path) → reads.state index = .waiting →
      Moves inputs reads (reads.put reads.console index (.ended outcome))
  | stdin {index : Nat} {next : Reads} : inputs[index]? = some .stdin →
      Drains index reads next → Moves inputs reads next

/-- Moves in some order have brought every read to its end. -/
def Yields (chunks : List Bytes) (inputs : List InputSource)
    (outcome : Nat → Except IoFault String) : Prop :=
  ∃ reads, ReflTransGen (Moves inputs) (start chunks) reads ∧
    ∀ index < inputs.length, reads.state index = .ended (outcome index)

@[simp] theorem put_console (reads : Reads) (console : Console) (index : Nat)
    (state : ReadState) : (reads.put console index state).console = console := rfl

@[simp] theorem put_state_self (reads : Reads) (console : Console) (index : Nat)
    (state : ReadState) : (reads.put console index state).state index = state :=
  if_pos rfl

theorem put_state_of_ne {reads : Reads} {console : Console} {index other : Nat}
    {state : ReadState} (h : other ≠ index) :
    (reads.put console index state).state other = reads.state other :=
  if_neg h

variable {inputs : List InputSource} {reads next : Reads} {whole : Bytes}

theorem Drains.state_of_ne {index other : Nat} (drains : Drains index reads next)
    (h : other ≠ index) : next.state other = reads.state other := by
  cases drains <;> exact put_state_of_ne h

theorem Drains.not_ended {index : Nat} (drains : Drains index reads next)
    {outcome : Except IoFault String} : reads.state index ≠ .ended outcome := by
  intro ended
  cases drains <;> simp_all

theorem Moves.ended (moves : Moves inputs reads next) {index : Nat}
    {outcome : Except IoFault String} (h : reads.state index = .ended outcome) :
    next.state index = .ended outcome := by
  cases moves with
  | @file other path _ _ waiting =>
    have ne : index ≠ other := by
      rintro rfl
      rw [waiting] at h
      cases h
    rw [put_state_of_ne ne, h]
  | @stdin other _ _ drains =>
    have ne : index ≠ other := by
      rintro rfl
      exact drains.not_ended h
    rw [drains.state_of_ne ne, h]

/-- What can be said at every moment about the reads of standard input, where `whole` is all that
comes from the stream: one of them has failed; or all of the stream is kept as text, and no read
has ended otherwise; or no read has ended, and what one of them has gathered is still followed by
what it lacks. -/
inductive Standing (inputs : List InputSource) (whole : Bytes) (reads : Reads) : Prop where
  | refused {index : Nat} {cause : IoFault} : inputs[index]? = some .stdin →
      reads.state index = .ended (.error cause) → Standing inputs whole reads
  | shared {text : String} : whole = Utf8.encode text → reads.console.kept = some text →
      (∀ index, inputs[index]? = some .stdin →
        reads.state index = .waiting ∨ reads.state index = .ended (.ok text)) →
      Standing inputs whole reads
  | drained {index : Nat} {gathered : Bytes} : inputs[index]? = some .stdin →
      reads.state index = .draining gathered → reads.console.kept = none →
      gathered ++ reads.console.pending.flatten = whole →
      (∀ other ≠ index, inputs[other]? = some .stdin → reads.state other = .waiting) →
      Standing inputs whole reads
  | unread : reads.console.kept = none → reads.console.pending.flatten = whole →
      (∀ index, inputs[index]? = some .stdin → reads.state index = .waiting) →
      Standing inputs whole reads

theorem standing_start (inputs : List InputSource) (chunks : List Bytes) :
    Standing inputs chunks.flatten (start chunks) :=
  .unread rfl rfl fun _ _ => rfl

theorem Standing.of_same (standing : Standing inputs whole reads)
    (console : next.console = reads.console)
    (state : ∀ index, inputs[index]? = some .stdin → next.state index = reads.state index) :
    Standing inputs whole next := by
  cases standing with
  | refused place ended => exact .refused place ((state _ place).trans ended)
  | shared text kept ends =>
    refine .shared text (console ▸ kept) fun index place => ?_
    rw [state index place]
    exact ends index place
  | drained place draining kept rest others =>
    refine .drained place ((state _ place).trans draining) (console ▸ kept) (console ▸ rest) ?_
    intro other ne there
    exact (state other there).trans (others other ne there)
  | unread kept rest waiting =>
    exact .unread (console ▸ kept) (console ▸ rest) fun index place =>
      (state index place).trans (waiting index place)

/-- One more step of the read that drains the stream: it goes on, or it decides for all. -/
theorem Standing.gathers {index : Nat} {gathered : Bytes} {console : Console} {state : ReadState}
    (place : inputs[index]? = some .stdin) (kept : reads.console.kept = none)
    (rest : gathered ++ reads.console.pending.flatten = whole)
    (others : ∀ other ≠ index, inputs[other]? = some .stdin → reads.state other = .waiting)
    (gathers : Gathers gathered reads.console console state) :
    Standing inputs whole (reads.put console index state) := by
  cases gathers with
  | @take chunk more pending =>
    refine .drained place (put_state_self ..) kept ?_ fun other ne there => ?_
    · rw [← rest, pending, List.flatten_cons, ← List.append_assoc]
      rfl
    · rw [put_state_of_ne ne]
      exact others other ne there
  | fault cause => exact .refused place (put_state_self ..)
  | @keep text pending decoded =>
    have all : whole = gathered := by rw [← rest, pending, List.flatten_nil, List.append_nil]
    refine .shared (all.trans (Utf8.decode_eq_ok_iff.mp decoded)) rfl fun other there => ?_
    by_cases ne : other = index
    · subst ne
      exact .inr (put_state_self ..)
    · rw [put_state_of_ne ne]
      exact .inl (others other ne there)
  | refuse pending decoded => exact .refused place (put_state_self ..)

theorem Standing.drains (standing : Standing inputs whole reads) {index : Nat}
    (place : inputs[index]? = some .stdin) (drains : Drains index reads next) :
    Standing inputs whole next := by
  cases standing with
  | refused there ended => exact .refused there ((Moves.stdin place drains).ended ended)
  | @shared text valid kept ends =>
    -- all that is left to do is to hand the kept text out
    cases drains with
    | @share given _ has =>
      have same : given = text := Option.some.inj (has.symm.trans kept)
      subst same
      refine .shared valid kept fun other there => ?_
      by_cases ne : other = index
      · subst ne
        exact .inr (put_state_self ..)
      · rw [put_state_of_ne ne]
        exact ends other there
    | begin _ has _ => simp [kept] at has
    | gather draining _ => rcases ends index place with h | h <;> simp [draining] at h
  | @drained drainer gathered there draining kept rest others =>
    -- the read that drains may go on; the others have no text to share and cannot begin
    by_cases ne : index = drainer
    · subst ne
      cases drains with
      | share waiting _ => simp [draining] at waiting
      | begin waiting _ _ => simp [draining] at waiting
      | @gather mine _ _ mineDraining gathers =>
        have same : mine = gathered := by simpa [draining] using mineDraining.symm
        subst same
        exact .gathers place kept rest others gathers
    · have waiting := others index ne place
      cases drains with
      | share _ has => simp [kept] at has
      | begin _ _ idle => exact absurd draining (idle drainer gathered)
      | gather mine _ => simp [waiting] at mine
  | unread kept rest waiting =>
    have here := waiting index place
    cases drains with
    | share _ has => simp [kept] at has
    | begin _ _ _ =>
      refine .drained place (put_state_self ..) kept rest fun other ne there => ?_
      rw [put_state_of_ne ne]
      exact waiting other there
    | gather draining _ => simp [here] at draining

theorem Moves.standing (moves : Moves inputs reads next) (standing : Standing inputs whole reads) :
    Standing inputs whole next := by
  cases moves with
  | @file index path outcome there _ =>
    refine standing.of_same rfl fun other place => put_state_of_ne ?_
    rintro rfl
    simp [there] at place
  | stdin place drains => exact standing.drains place drains

/-- Whatever the order of the moves, the reads stand as described. -/
theorem standing_of_moves {chunks : List Bytes}
    (moves : ReflTransGen (Moves inputs) (start chunks) reads) :
    Standing inputs chunks.flatten reads := by
  induction moves with
  | refl => exact standing_start inputs chunks
  | tail _ last ih => exact last.standing ih

/-- When all reads have ended, one of those of standard input has failed, or each of them has
given the whole text. -/
theorem Yields.refused_or_shared {chunks : List Bytes} {outcome : Nat → Except IoFault String}
    (yields : Yields chunks inputs outcome) (member : .stdin ∈ inputs) :
    (∃ index < inputs.length, ∃ cause, outcome index = .error cause) ∨
      ∃ text, chunks.flatten = Utf8.encode text ∧
        ∀ index, inputs[index]? = some .stdin → outcome index = .ok text := by
  obtain ⟨reads, moves, ends⟩ := yields
  have ended {index : Nat} (place : inputs[index]? = some .stdin) :
      reads.state index = .ended (outcome index) :=
    ends index (List.getElem?_eq_some_iff.mp place).1
  cases standing_of_moves moves with
  | @refused index cause place refused =>
    have same := (ended place).symm.trans refused
    simp only [ReadState.ended.injEq] at same
    exact .inl ⟨index, (List.getElem?_eq_some_iff.mp place).1, cause, same⟩
  | @shared text valid _ given =>
    refine .inr ⟨text, valid, fun index place => ?_⟩
    rcases given index place with h | h
    · simp [ended place] at h
    · simpa [ended place] using h
  | drained place draining =>
    simp [ended place] at draining
  | unread _ _ waiting =>
    obtain ⟨index, place⟩ := List.mem_iff_getElem?.mp member
    have unread := waiting index place
    simp [ended place] at unread

/-- Moves have served the read at one place, and no other read has changed. -/
structure Served (inputs : List InputSource) (index : Nat) (outcome : Except IoFault String)
    (reads next : Reads) : Prop where
  moves : ReflTransGen (Moves inputs) reads next
  ended : next.state index = .ended outcome
  others : ∀ other ≠ index, next.state other = reads.state other

theorem Served.head {index : Nat} {outcome : Except IoFault String} {between : Reads}
    (first : Moves inputs reads between) (same : ∀ other ≠ index,
      between.state other = reads.state other) (served : Served inputs index outcome between next) :
    Served inputs index outcome reads next :=
  ⟨.head first served.moves, served.ended,
    fun other ne => (served.others other ne).trans (same other ne)⟩

/-- A read that drains the stream can go on to its end. -/
theorem exists_served_of_draining {index : Nat} (place : inputs[index]? = some .stdin)
    {pending : List Bytes} {gathered : Bytes} (draining : reads.state index = .draining gathered)
    (console : reads.console = ⟨none, pending⟩) :
    ∃ next, next.console = (Console.read ⟨none, gathered :: pending⟩).2 ∧
      Served inputs index (Console.read ⟨none, gathered :: pending⟩).1 reads next := by
  induction pending generalizing reads gathered with
  | nil =>
    have whole : [gathered].flatten = gathered := List.flatten_singleton
    have left : reads.console.pending = [] := by rw [console]
    have last {console : Console} {state : ReadState}
        (gathers : Gathers gathered reads.console console state) :
        Moves inputs reads (reads.put console index state) :=
      .stdin place (.gather draining gathers)
    simp only [Console.read, whole]
    cases decoded : Utf8.decode gathered with
    | ok text =>
      exact ⟨_, rfl, .single (last (.keep left decoded)), put_state_self ..,
        fun other ne => put_state_of_ne ne⟩
    | error fault =>
      exact ⟨reads.put reads.console index _, console, .single (last (.refuse left decoded)),
        put_state_self .., fun other ne => put_state_of_ne ne⟩
  | cons chunk more ih =>
    have pending : reads.console.pending = chunk :: more := by rw [console]
    have kept : (⟨reads.console.kept, more⟩ : Console) = ⟨none, more⟩ := by rw [console]
    have all : (gathered :: chunk :: more).flatten = ((gathered ++ chunk) :: more).flatten := by
      simp only [List.flatten_cons, List.append_assoc]
    obtain ⟨next, last, served⟩ := ih (put_state_self ..) kept
    have same : Console.read ⟨none, gathered :: chunk :: more⟩ =
        Console.read ⟨none, (gathered ++ chunk) :: more⟩ := by
      simp only [Console.read, all]
    rw [same]
    exact ⟨next, last, served.head (.stdin place (.gather draining (.take pending)))
      fun other ne => put_state_of_ne ne⟩

/-- Where no read is under way, the one of standard input at a place can be served at once, and
gets what the console gives it. -/
theorem exists_served_stdin {index : Nat} (place : inputs[index]? = some .stdin)
    (waiting : reads.state index = .waiting) (idle : reads.Idle) :
    ∃ next, next.console = reads.console.read.2 ∧
      Served inputs index reads.console.read.1 reads next := by
  cases kept : reads.console.kept with
  | some text =>
    have given : reads.console.read = (.ok text, reads.console) := by simp only [Console.read, kept]
    rw [given]
    exact ⟨_, put_console .., .single (.stdin place (.share waiting kept)), put_state_self ..,
      fun other ne => put_state_of_ne ne⟩
  | none =>
    have console : reads.console = ⟨none, reads.console.pending⟩ := by rw [← kept]
    have same : reads.console.read = Console.read ⟨none, [] :: reads.console.pending⟩ := by
      rw [console]
      rfl
    obtain ⟨next, last, served⟩ :=
      exists_served_of_draining place (put_state_self reads reads.console index _) console
    rw [same]
    exact ⟨next, last, served.head (.stdin place (.begin waiting kept idle))
      fun other ne => put_state_of_ne ne⟩

theorem Served.idle {index : Nat} {outcome : Except IoFault String} (idle : reads.Idle)
    (served : Served inputs index outcome reads next) : next.Idle := by
  intro other gathered
  by_cases ne : other = index
  · rw [ne, served.ended]
    simp
  · rw [served.others other ne]
    exact idle other gathered

theorem exists_served_inTurn {file : Path → Except IoFault String} {index : Nat}
    {input : InputSource} (place : inputs[index]? = some input)
    (waiting : reads.state index = .waiting) (idle : reads.Idle) (more : List (Nat × InputSource)) :
    ∃ next outcome, Served inputs index outcome reads next ∧
      Reader.inTurn file reads.console ((index, input) :: more) =
        ⟨index, input, outcome⟩ :: Reader.inTurn file next.console more := by
  cases input with
  | stdin =>
    obtain ⟨next, console, served⟩ := exists_served_stdin place waiting idle
    exact ⟨next, _, served, by rw [Reader.inTurn, console]⟩
  | file path =>
    exact ⟨reads.put reads.console index (.ended (file path)), file path,
      ⟨.single (.file _ place waiting), put_state_self .., fun other ne => put_state_of_ne ne⟩,
      by rw [Reader.inTurn, put_console]⟩

/-- Reads that take effect one after the other are moves of all of them. -/
theorem exists_moves_inTurn (file : Path → Except IoFault String)
    {turns : List (Nat × InputSource)} (distinct : (turns.map Prod.fst).Nodup)
    (waiting : ∀ turn ∈ turns, inputs[turn.1]? = some turn.2 ∧ reads.state turn.1 = .waiting)
    (idle : reads.Idle) :
    ∃ next, ∃ outcome : Nat → Except IoFault String, ReflTransGen (Moves inputs) reads next ∧
      Reader.inTurn file reads.console turns =
        turns.map (fun turn => ⟨turn.1, turn.2, outcome turn.1⟩) ∧
      (∀ turn ∈ turns, next.state turn.1 = .ended (outcome turn.1)) ∧
      ∀ index ∉ turns.map Prod.fst, next.state index = reads.state index := by
  induction turns generalizing reads with
  | nil => exact ⟨reads, fun _ => .ok "", .refl, rfl, by simp, fun _ _ => rfl⟩
  | cons turn more ih =>
    obtain ⟨index, input⟩ := turn
    obtain ⟨place, fresh⟩ := waiting (index, input) List.mem_cons_self
    obtain ⟨new, distinct⟩ := List.nodup_cons.mp distinct
    obtain ⟨between, first, served, taken⟩ := exists_served_inTurn place fresh idle more
    have elsewhere : ∀ turn ∈ more, turn.1 ≠ index := by
      intro turn member same
      have listed : turn.1 ∈ more.map Prod.fst := List.mem_map_of_mem member
      exact new (same ▸ listed)
    have later : ∀ turn ∈ more, inputs[turn.1]? = some turn.2 ∧
        between.state turn.1 = .waiting := by
      intro turn member
      rw [served.others _ (elsewhere turn member)]
      exact waiting turn (List.mem_cons_of_mem _ member)
    obtain ⟨next, outcome, moves, listed, ends, others⟩ := ih distinct later (served.idle idle)
    -- the outcome of the first read is put before those of the others
    refine ⟨next, fun other => if other = index then first else outcome other,
      served.moves.trans moves, ?_, ?_, ?_⟩
    · rw [taken, listed, List.map_cons]
      simp only [if_true]
      congr 1
      refine List.map_congr_left fun turn member => ?_
      rw [if_neg (elsewhere turn member)]
    · intro turn member
      rcases List.mem_cons.mp member with rfl | member
      · simp only [if_true]
        exact (others index new).trans served.ended
      · simp only [if_neg (elsewhere turn member)]
        exact ends turn member
    · intro other outside
      rw [List.map_cons, List.mem_cons, not_or] at outside
      exact (others other outside.2).trans (served.others other outside.1)

end Reads

end CompilerDriver
