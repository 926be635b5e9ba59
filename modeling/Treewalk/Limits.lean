/-
How much an evaluation may do, and how a host stops it. Limits are looked at before every call and
before every round of a loop, which are the only places where unbounded work can come from.

A host asks an evaluation to stop before it starts it, and the answer to every look at the request
is the same. A host that asks while the evaluation goes on, from another thread, is not described
here.
-/

namespace Treewalk

/-- The greatest depth of calls, and the number of steps that may be taken; a step is a call or a
round of a loop. Without a budget any number may be taken. -/
structure Limits where
  maxDepth : Nat
  budget : Option Nat
deriving DecidableEq

namespace Limits

/-- The limits of programs that are trusted: a thousand nested calls, and no budget. -/
def standard : Limits := ⟨1000, none⟩

/-- The limits of programs that are not trusted. -/
def bounded (maxDepth budget : Nat) : Limits := ⟨maxDepth, some budget⟩

end Limits

/-- What decides how a program is run, apart from the program and its context. -/
structure Interpreter where
  limits : Limits
  /-- Whether the host has asked for evaluations to stop, at every checkpoint or at none. -/
  interrupted : Bool
deriving DecidableEq

namespace Interpreter

/-- An interpreter that nobody has asked to stop. -/
def ofLimits (limits : Limits) : Interpreter := ⟨limits, false⟩

end Interpreter

end Treewalk
