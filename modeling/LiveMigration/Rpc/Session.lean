import LiveMigration.Rpc.Reply
import LiveMigration.Rpc.Wire

/-!
The listening end of a connection. Bytes are taken one at a time, so it makes no difference
how they were split on the way. A complete line is decoded, handled and answered; a line
that is too long or no message, and a pause that is too long, end the connection without an
answer. A last line counts even if the stream ends before its newline.
-/

namespace LiveMigration.Rpc

def newline : UInt8 := 0x0A

def carriageReturn : UInt8 := 0x0D

/-- The longest line that is taken, its end included. -/
def maxLine : Nat := 64 * 1024

inductive Arrival
  | data (bytes : Bytes)
  /-- Nothing came for longer than the listener waits. -/
  | silence
  | ended
  deriving DecidableEq, Repr

structure Session (σ : Type) where
  /-- The bytes of the line in progress, last one first. -/
  line : Bytes
  /-- How many more bytes that line may have. -/
  room : Nat
  isOpen : Bool
  replies : List Bytes
  state : σ

namespace Session

variable {σ : Type}

abbrev Handler (σ : Type) := Message → σ → Reply × σ

def start (state : σ) : Session σ := ⟨[], maxLine, true, [], state⟩

def close (s : Session σ) : Session σ := { s with isOpen := false }

def lineBody (backwards : Bytes) : Bytes :=
  (backwards.dropWhile fun b => b == newline || b == carriageReturn).reverse

def finishLine (handle : Handler σ) (s : Session σ) : Session σ :=
  if s.room = 0 ∧ s.line.head? ≠ some newline then s.close
  else
    match Message.decode (lineBody s.line) with
    | .error _ => s.close
    | .ok m =>
      let (reply, state) := handle m s.state
      { line := [], room := maxLine, isOpen := true
        replies := s.replies ++ [reply.encode ++ [newline]], state }

def takeByte (handle : Handler σ) (s : Session σ) (b : UInt8) : Session σ :=
  if s.isOpen then
    let s := { s with line := b :: s.line, room := s.room - 1 }
    if b = newline ∨ s.room = 0 then s.finishLine handle else s
  else s

def take (handle : Handler σ) (s : Session σ) : Arrival → Session σ
  | .data bytes => bytes.foldl (takeByte handle) s
  | .silence => s.close
  | .ended => if s.isOpen ∧ ¬ s.line.isEmpty then (s.finishLine handle).close else s.close

def run (handle : Handler σ) (state : σ) (arrivals : List Arrival) : Session σ :=
  arrivals.foldl (take handle) (start state)

end Session

end LiveMigration.Rpc
