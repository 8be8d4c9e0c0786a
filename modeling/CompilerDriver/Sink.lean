import CompilerDriver.IoFault

namespace CompilerDriver

/-- A stream that takes only so many octets and then refuses, and may refuse to flush. -/
structure Sink where
  limit : Option Nat
  full : IoFault
  flushFault : Option IoFault
  stored : Bytes

namespace Sink

/-- Writes a piece, or the part of it that fits. -/
def put (sink : Sink) (piece : Bytes) : Except IoFault Unit × Sink :=
  match sink.limit with
  | none => (.ok (), { sink with stored := sink.stored ++ piece })
  | some limit =>
    let room := limit - sink.stored.length
    let sunk := { sink with stored := sink.stored ++ piece.take room }
    if piece.length ≤ room then (.ok (), sunk) else (.error sink.full, sunk)

/-- Writes pieces one after the other, up to the first that is refused. -/
def putAll (sink : Sink) : List Bytes → Except IoFault Unit × Sink
  | [] => (.ok (), sink)
  | piece :: more =>
    match sink.put piece with
    | (.ok _, sink) => sink.putAll more
    | (.error cause, sink) => (.error cause, sink)

def flush (sink : Sink) : Except IoFault Unit :=
  match sink.flushFault with
  | none => .ok ()
  | some cause => .error cause

/-- Writes pieces and flushes once all of them are written. -/
def putAllFlushed (sink : Sink) (pieces : List Bytes) : Except IoFault Unit × Sink :=
  match sink.putAll pieces with
  | (.ok _, sink) => (sink.flush, sink)
  | (.error cause, sink) => (.error cause, sink)

end Sink

/-- A writing to a stream: each part of it is made only where the part before it was taken. -/
abbrev Writing (α : Type) := ExceptT IoFault (StateM Sink) α

namespace Writing

def put (piece : Bytes) : Writing Unit := fun sink => sink.put piece

/-- A line with its line feed. -/
def line (text : String) : Writing Unit :=
  put (Utf8.encode (text ++ "\n"))

def flush : Writing Unit := fun sink => (sink.flush, sink)

end Writing

end CompilerDriver
