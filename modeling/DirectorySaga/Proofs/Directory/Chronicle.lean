/-
The entries form a tree at all times.

A directory is well formed if no entry hangs below a missing one, if its names are listed
in order, and if the root is no entry of it, unless somebody has seeded the root.  That a
write keeps this is a matter of its checks.  A move needs most of them: it removes entries
and sets them again one by one, and in between the tree is not whole.

To speak of all times and not just of the end, a directory is given a memory.  The service
of a chronicle answers as the directory in memory does, and keeps every state that a write
has led away from.  Calls come from several sides, too: what others write between two calls
is part of the chronicle, so that whoever makes the calls cannot count on finding the
directory as it was left.
-/
import DirectorySaga.Directory.Service
import DirectorySaga.Proofs.Directory.Closed

namespace DirectorySaga

namespace Directory

variable {origin d d' : Directory} {operation : Operation}

/-! ### Well-formed directories -/

/-- The entries form a tree below the root, and the listing of their names is in order. -/
structure WellFormed (origin d : Directory) : Prop where
  closed : d.ParentClosed
  increasing : d.names.Pairwise fun a b => compare a b = .lt
  distinct : d.names.Nodup
  /-- The root is bound only if it was bound at first. -/
  root_bound : Name.root ∈ d.entries → Name.root ∈ origin.entries

theorem ParentClosed.wellFormed (closed : d.ParentClosed) : d.WellFormed d where
  closed := closed
  increasing := Std.ExtTreeMap.ordered_keys
  distinct := Std.ExtTreeMap.nodup_keys
  root_bound := id

theorem root_not_mem_move {old new : Name} (h : d.Movable old new) (closed : d.ParentClosed)
    (hroot : Name.root ∈ (d.move old new).entries) : Name.root ∈ d.entries := by
  obtain ⟨-, hsource⟩ := (mem_move h closed).mp hroot
  have hnew : ¬ Name.root.Within new :=
    fun hw => h.place.ne_root (Name.eq_root_of_within_root hw)
  rwa [Name.carry_of_not_within hnew] at hsource

/-- No write binds the root. -/
theorem root_mem_of_write (closed : d.ParentClosed) (h : d.write operation = .ok d')
    (hroot : Name.root ∈ d'.entries) : Name.root ∈ d.entries := by
  cases operation with
  | bind name attributes =>
    obtain ⟨-, hplace, rfl⟩ := bind_eq_ok_iff.mp h
    exact (mem_seed.mp hroot).resolve_left hplace.ne_root
  | rebind name attributes =>
    obtain ⟨hplace, rfl⟩ := rebind_eq_ok_iff.mp h
    exact (mem_seed.mp hroot).resolve_left hplace.ne_root
  | rename old new =>
    obtain ⟨hmovable, rfl⟩ := rename_eq_ok_iff.mp h
    exact root_not_mem_move hmovable closed hroot
  | unbind name =>
    obtain ⟨-, -, rfl⟩ := unbind_eq_ok_iff.mp h
    exact (mem_remove.mp hroot).2
  | modifyAttributes name items =>
    obtain ⟨before, after, hbefore, -, rfl⟩ := modifyAttributes_eq_ok_iff.mp h
    obtain rfl | hbound := mem_seed.mp hroot
    · exact mem_of_getElem? hbefore
    · exact hbound

/-- **A write leaves a well-formed directory**, whether it succeeds or fails. -/
theorem WellFormed.perform (h : origin.WellFormed d) (operation : Operation) :
    origin.WellFormed (Directory.perform operation d).2 := by
  unfold Directory.perform
  cases hwrite : d.write operation with
  | error e => exact h
  | ok written =>
    have hwritten := (h.closed.write hwrite).wellFormed
    exact { hwritten with
      root_bound := fun hroot => h.root_bound (root_mem_of_write h.closed hwrite hroot) }

end Directory

/-! ### Directories with a memory -/

/-- A directory, the states that it has been in, and what others are going to write. -/
structure Chronicle where
  current : Directory
  /-- The earlier states, the last one first. -/
  former : List Directory
  /-- What others write before each of the calls to come. -/
  incoming : List (List Operation)

namespace Chronicle

/-- The chronicle of a directory before any call. -/
def start (d : Directory) (incoming : List (List Operation)) : Chronicle := ⟨d, [], incoming⟩

/-- All states that the directory has been in. -/
def states (c : Chronicle) : List Directory := c.current :: c.former

/-- Carries out an operation, and keeps the state from before. -/
def perform (operation : Operation) (c : Chronicle) : Except DirectoryError Unit × Chronicle :=
  let (result, current) := c.current.perform operation
  (result, { c with current, former := c.states })

/-- Lets the others write what they write before the next call. -/
def receive (c : Chronicle) : Chronicle :=
  match c.incoming with
  | [] => c
  | operations :: incoming =>
    operations.foldl (fun c operation => (c.perform operation).2) { c with incoming }

/-- The chronicle as a service. -/
def service : Service Chronicle where
  lookup name c := (c.receive.current.lookup name, c.receive)
  hasChildren name c := (c.receive.current.hasChildren name, c.receive)
  write operation c := c.receive.perform operation
  anonymousReadOnly c := c.current.readOnly

/-- Every state has been well formed. -/
def Sound (origin : Directory) (c : Chronicle) : Prop := ∀ d ∈ c.states, origin.WellFormed d

variable {origin : Directory} {c : Chronicle}

theorem Sound.perform (h : c.Sound origin) (operation : Operation) :
    (c.perform operation).2.Sound origin := by
  refine List.forall_mem_cons.mpr ⟨?_, h⟩
  exact (h c.current List.mem_cons_self).perform operation

theorem Sound.receive (h : c.Sound origin) : c.receive.Sound origin := by
  unfold Chronicle.receive
  cases hincoming : c.incoming with
  | nil => exact h
  | cons operations incoming =>
    have hstart : Sound origin { c with incoming } := h
    simp only
    clear hincoming
    generalize { c with incoming } = c' at hstart
    induction operations generalizing c' with
    | nil => exact hstart
    | cons operation more ih => exact ih _ (hstart.perform operation)

theorem receive_of_quiet (h : c.incoming = []) : c.receive = c := by
  unfold receive
  rw [h]

end Chronicle

end DirectorySaga
