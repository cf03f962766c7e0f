/-!
# Messages from the CPU to the kernel

What the CPU sends when it gives a thread back: a syscall with its arguments, a
segmentation fault or an interruption. The numbers are machine words on the
CPU's side and natural numbers in the kernel.
-/

namespace SinIdeas

universe u

/-- The operation code and the fields of a message of the dispatch connection. -/
inductive Mensaje (ν : Type u) where
  | dumpMemory (pid tid : ν)
  | io (milisegundos : ν)
  | processCreate (filePath : List Char) (size priority : ν)
  | threadCreate (filePath : List Char) (priority : ν)
  | threadJoin (tid : ν)
  | threadCancel (tid : ν)
  | mutexCreate (name : List Char) (tid : ν)
  | mutexLock (name : List Char) (tid : ν)
  | mutexUnlock (name : List Char) (tid : ν)
  | threadExit (tid : ν)
  | processExit (tid : ν)
  | segmentationFault (tid pid : ν)
  | kernelInterruption (tid pid : ν)
  deriving DecidableEq

/-- The message as the other side reads its numbers. -/
def Mensaje.map {ν κ : Type u} (f : ν → κ) : Mensaje ν → Mensaje κ
  | .dumpMemory pid tid => .dumpMemory (f pid) (f tid)
  | .io milisegundos => .io (f milisegundos)
  | .processCreate filePath size priority => .processCreate filePath (f size) (f priority)
  | .threadCreate filePath priority => .threadCreate filePath (f priority)
  | .threadJoin tid => .threadJoin (f tid)
  | .threadCancel tid => .threadCancel (f tid)
  | .mutexCreate name tid => .mutexCreate name (f tid)
  | .mutexLock name tid => .mutexLock name (f tid)
  | .mutexUnlock name tid => .mutexUnlock name (f tid)
  | .threadExit tid => .threadExit (f tid)
  | .processExit tid => .processExit (f tid)
  | .segmentationFault tid pid => .segmentationFault (f tid) (f pid)
  | .kernelInterruption tid pid => .kernelInterruption (f tid) (f pid)

end SinIdeas
