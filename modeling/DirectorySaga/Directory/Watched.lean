/-
Directories under observation.

`Watched.service` stands before another service.  It keeps a list of all calls that
reach it and can be told to fail some of them.  A call that a fault applies to fails
without going further; every other call is passed on, and its answer is passed back.
Of several faults that apply, the oldest counts, and a fault with a limited number of
uses loses one of them.
-/
import DirectorySaga.Directory.Service

namespace DirectorySaga

/-! ### Calls -/

/-- A call to a directory. -/
inductive DirectoryCall
  | lookup (name : Name)
  | hasChildren (name : Name)
  | write (operation : Operation)

/-- Which of the calls of a directory it is. -/
inductive DirectoryCall.Kind
  | lookup
  | hasChildren
  | write (kind : OperationKind)
deriving DecidableEq

namespace DirectoryCall

/-- Which call it is. -/
def kind : DirectoryCall → Kind
  | lookup _ => .lookup
  | hasChildren _ => .hasChildren
  | write operation => .write operation.kind

/-- The entry that the call is about. -/
def target : DirectoryCall → Name
  | lookup name | hasChildren name => name
  | write operation => operation.target

end DirectoryCall

/-! ### Faults -/

/-- How a call is made to fail. -/
inductive Failing
  /-- As if the entry were missing. -/
  | nameNotFound
  /-- As if the directory could not be reached. -/
  | unavailable (message : String)

/-- The error for a call about `name`. -/
def Failing.error (name : Name) : Failing → DirectoryError
  | nameNotFound => .nameNotFound name
  | unavailable message => .unavailable message

/-- An order to fail calls of one kind. -/
structure Fault where
  call : DirectoryCall.Kind
  /-- The entry whose calls fail, or any entry. -/
  name : Option Name
  failing : Failing
  /-- How many calls are still to fail, if not all. -/
  uses : Option Nat

namespace Fault

/-- Whether the fault applies to the call. -/
def applies (fault : Fault) (call : DirectoryCall) : Bool :=
  fault.call == call.kind && fault.name.all (· == call.target) && fault.uses != some 0

/-- The fault after it has been used. -/
def spend (fault : Fault) : Fault := { fault with uses := fault.uses.map (· - 1) }

/-- The error that the oldest applying fault orders, if one applies, and the faults after
that. -/
def use (call : DirectoryCall) : List Fault → Option DirectoryError × List Fault
  | [] => (none, [])
  | fault :: newer =>
    if fault.applies call then (some (fault.failing.error call.target), fault.spend :: newer)
    else
      let (error, newer) := use call newer
      (error, fault :: newer)

end Fault

/-! ### The service -/

/-- The state of a directory, orders to fail, and the calls that have come in, in order. -/
structure Watched (σ : Type) where
  inner : σ
  faults : List Fault
  calls : List DirectoryCall

namespace Watched

variable {σ α : Type}

/-- The directory without any fault, before any call. -/
def start (inner : σ) : Watched σ := ⟨inner, [], []⟩

/-- Notes the call down, and passes it on unless a fault applies. -/
def answer (call : DirectoryCall) (act : σ → Except DirectoryError α × σ) (w : Watched σ) :
    Except DirectoryError α × Watched σ :=
  let calls := w.calls ++ [call]
  match Fault.use call w.faults with
  | (some e, faults) => (.error e, { w with faults, calls })
  | (none, faults) =>
    let (result, inner) := act w.inner
    (result, ⟨inner, faults, calls⟩)

/-- The observed directory as a service. -/
def service (base : Service σ) : Service (Watched σ) where
  lookup name := answer (.lookup name) (base.lookup name)
  hasChildren name := answer (.hasChildren name) (base.hasChildren name)
  write operation := answer (.write operation) (base.write operation)
  anonymousReadOnly w := base.anonymousReadOnly w.inner

end Watched

end DirectorySaga
