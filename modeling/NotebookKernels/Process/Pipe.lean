import NotebookKernels.Failure
import NotebookKernels.Process.Files

/- Sending a frame to a process that no longer reads.

   Frames go through a buffer. A frame that fits is refused when the buffer is
   emptied at its end; one that does not fit is refused as soon as it makes the
   buffer overflow. What was put into the buffer stays there. -/
namespace NotebookKernels.Pipe

def bufferSize : Nat := 8192

def broken (part : String) : Failure :=
  .channel ("Failed to " ++ part ++ ": " ++ SystemError.brokenPipe.text)

/-- How sending a frame with a body of `n` bytes fails when `stuck` bytes are in the buffer, and how
many are in it then. -/
def refuse (stuck n : Nat) : Failure × Nat :=
  if bufferSize < stuck + 4 then (broken "write IPC message length", stuck)
  else if bufferSize < stuck + 4 + n then (broken "write IPC message body", stuck + 4)
  else (broken "flush IPC stream", stuck + 4 + n)

end NotebookKernels.Pipe
