import CompilerDriver.Double

namespace CompilerDriver

namespace Similarity

/-- Marks the first unmarked place between two bounds that holds the character. -/
def mark (c : Char) (low high : Nat) : Nat → List (Char × Bool) → Option (List (Char × Bool))
  | _, [] => none
  | place, (d, marked) :: rest =>
    if low ≤ place ∧ place < high ∧ c = d ∧ marked = false then some ((d, true) :: rest)
    else (mark c low high (place + 1) rest).map ((d, marked) :: ·)

/-- Pairs the characters of one word with equal ones of another that stand no further away than
the range. Gives the paired characters of both words, each in their order. -/
def pairs (range : Nat) :
    Nat → List Char → List (Char × Bool) → List Char × List Char
  | _, [], other => ([], (other.filter Prod.snd).map Prod.fst)
  | place, c :: rest, other =>
    match mark c (place - range) (place + range + 1) 0 other with
    | some other =>
      let (mine, others) := pairs range (place + 1) rest other
      (c :: mine, others)
    | none => pairs range (place + 1) rest other

/-- A third of the sum of three shares, rounded after every step. -/
def meanOfThree? (x y z : Double) : Option Double := do
  let sum ← (← x.add? y).add? z
  sum.div? (← Double.ofNat? 3)

/-- Jaro's measure of two words: the mean of the paired share of the first, of the second, and of
the pairs that keep their order. -/
def measure? (a b : List Char) : Option Double := do
  let range := max a.length b.length / 2 - 1
  let (mine, others) := pairs range 0 a (b.map (·, false))
  let m := mine.length
  let t := ((mine.zip others).countP fun pair => pair.1 ≠ pair.2) / 2
  if m = 0 then none
  else
    meanOfThree? (← Double.ofRatio? false m a.length) (← Double.ofRatio? false m b.length)
      (← Double.ofRatio? false (m - t) m)

/-- Words are similar above this measure. -/
def threshold? : Option Double :=
  Double.ofRatio? false 7 10

/-- The known word nearest to a word, if it is similar enough; of several equally near the last. -/
def nearest? (word : String) (known : List String) : Option String := do
  let threshold ← threshold?
  let scored := known.filterMap fun k =>
    (measure? word.toList k.toList).map fun measure => (measure.magnitude, k)
  let similar := scored.filter fun s => threshold.magnitude < s.1
  let best ← similar.foldl (fun (best : Option (Nat × String)) s =>
    match best with
    | none => some s
    | some b => if b.1 ≤ s.1 then some s else some b) none
  return best.2

end Similarity

end CompilerDriver
