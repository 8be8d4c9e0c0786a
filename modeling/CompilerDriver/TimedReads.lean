import CompilerDriver.Acquisition

namespace CompilerDriver

/-- A read that ends so long after all reads have begun. -/
structure TimedRead where
  delay : Nat
  outcome : Except IoFault String

namespace Reader

/-- At most so many reads move on before the program looks which have ended. -/
def burst : Nat := 61

/-- Cuts a list into runs of at most `burst` members. -/
def bursts {α : Type} (reads : List α) : List (List α) :=
  if reads.length ≤ burst then [reads] else reads.take burst :: bursts (reads.drop burst)
termination_by reads.length
decreasing_by
  simp only [List.length_drop, burst] at *
  omega

/-- The completions that the looks find, with their times. All reads move on when they begin,
those with a delay once more when it is over. -/
def looks (reads : List (Nat × Completion)) : List (List (Nat × Completion)) :=
  let delays := (((reads.map Prod.fst).filter (0 < ·)).mergeSort (· ≤ ·)).eraseDups
  (bursts reads).map (fun run => run.filter (·.1 == 0)) ++
    delays.flatMap fun delay => bursts (reads.filter (·.1 == delay))

/-- Reads that begin together and end at given times, in the order of the inputs where the times
are equal. -/
def ofTimes (read : InputSource → TimedRead) : Reader := fun inputs =>
  let reads := inputs.mapIdx fun index input =>
    ((read input).delay, Completion.mk index input (read input).outcome)
  ((looks reads).map fun look => look.map Prod.snd).filter (!·.isEmpty)

end Reader

end CompilerDriver
