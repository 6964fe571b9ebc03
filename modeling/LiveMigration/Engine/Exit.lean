/-!
How a container ended. A checkpoint kills the container, which shows as the signal KILL or as
the status that stands for it; this is no failure.
-/

namespace LiveMigration

inductive Exit
  | exited (status : Int)
  | checkpointed
  deriving DecidableEq, Repr

namespace Exit

def killSignal : Int := 9

/-- The signals that end a process unless it does something about them. -/
def signals : List (String × Int) := [("HUP", 1), ("INT", 2), ("QUIT", 3), ("ILL", 4),
  ("TRAP", 5), ("ABRT", 6), ("BUS", 7), ("FPE", 8), ("KILL", 9), ("USR1", 10), ("SEGV", 11),
  ("USR2", 12), ("PIPE", 13), ("ALRM", 14), ("TERM", 15), ("XCPU", 24), ("XFSZ", 25),
  ("VTALRM", 26), ("PROF", 27), ("SYS", 31)]

def statusOfSignal (signal : Int) : Int := 128 + signal

def ofStatus (status : Int) : Exit :=
  if status = statusOfSignal killSignal then checkpointed else exited status

/-- From what the system reports of a child: the low seven bits are zero after an orderly
exit, whose status is in the next byte; otherwise they are the signal, unless all are set. -/
def ofWaitStatus (w : Int) : Exit :=
  let signal := w % 128
  if signal = 0 then ofStatus (w / 256 % 256)
  else if signal = 127 then exited (-1)
  else if signal = killSignal then checkpointed
  else exited (statusOfSignal signal)

def status? : Exit → Option Int
  | exited status => some status
  | checkpointed => none

def message : Exit → String
  | exited status => s!"exited with status {status}"
  | checkpointed => "killed by checkpoint"

end Exit

end LiveMigration
