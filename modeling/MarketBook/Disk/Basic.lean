/-
Module: MarketBook.Disk.Basic
Purpose: A disk as a map from paths to what stands there.
Main exports:
  Disk, Disk.Path, Disk.Node, Disk.node?, Disk.set, Disk.erase, Disk.Refusal, Disk.create,
  Disk.rename, Disk.remove
-/
import MarketBook.Archive.Table
import MarketBook.Text.Utf8

namespace MarketBook

open Text

namespace Disk

/-- The names from the root down to a file or directory. -/
abbrev Path := List String

/-- What may stand at a path. -/
inductive Node where
  | directory
  | file (content : Octets)
  /-- The file of an archive, with its table. -/
  | ledger (table : Archive.Table)
deriving DecidableEq

end Disk

/-- What stands at each path; the root is always a directory. -/
structure Disk where
  nodes : List (Disk.Path × Disk.Node)
deriving DecidableEq

namespace Disk

/-- A disk with nothing on it. -/
def empty : Disk := ⟨[]⟩

/-- What stands at a path. -/
def node? (d : Disk) (p : Path) : Option Node :=
  if p = [] then some .directory else (d.nodes.find? (·.1 == p)).map (·.2)

/-- The disk with nothing at a path. -/
def erase (d : Disk) (p : Path) : Disk :=
  ⟨d.nodes.filter (·.1 != p)⟩

/-- The disk with something else at a path. -/
def set (d : Disk) (p : Path) (n : Node) : Disk :=
  ⟨(p, n) :: (d.erase p).nodes⟩

/-- The disk without a path and everything below it. -/
def eraseTree (d : Disk) (p : Path) : Disk :=
  ⟨d.nodes.filter fun e => !p.isPrefixOf e.1⟩

/-- The names directly below a directory. -/
def names (d : Disk) (p : Path) : List String :=
  d.nodes.filterMap fun e => if e.1.dropLast = p then e.1.getLast? else none

theorem node?_set_self {d : Disk} {p : Path} {n : Node} (h : p ≠ []) :
    (d.set p n).node? p = some n := by
  simp [node?, set, h]

theorem node?_set_other {d : Disk} {p q : Path} {n : Node} (h : q ≠ p) :
    (d.set p n).node? q = d.node? q := by
  have apart : (p == q) = false := by simpa using Ne.symm h
  simp only [node?, set, erase]
  split
  · rfl
  · simp only [List.find?_cons, apart, List.find?_filter]
    congr 2
    funext e
    by_cases he : e.1 = q
    · subst he; simp [h]
    · simp [he]

/-- Why an operation was refused. -/
inductive Refusal where
  /-- A name on the way, or the last one, is not there. -/
  | absent
  /-- Something else stands in the way. -/
  | refused
deriving DecidableEq

/-- The disk with a new empty file, in place of a file that is there. -/
def create (d : Disk) (p : Path) : Except Refusal Disk :=
  match d.node? p with
  | some .directory => .error .refused
  | _ => .ok (d.set p (.file []))

/-- The disk with a file moved to another path, in place of a file that is there. -/
def rename (d : Disk) (source target : Path) : Except Refusal Disk :=
  match d.node? source, d.node? target with
  | some _, some .directory => .error .refused
  | some n, _ => .ok ((d.erase source).set target n)
  | none, _ => .error .absent

/-- The disk without a file. -/
def remove (d : Disk) (p : Path) : Except Refusal Disk :=
  match d.node? p with
  | none => .error .absent
  | some .directory => .error .refused
  | some _ => .ok (d.erase p)

end Disk

end MarketBook
