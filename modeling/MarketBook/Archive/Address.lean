/-
Module: MarketBook.Archive.Address
Purpose: The addresses under which archives are opened: paths, or paths with options.
Main exports:
  Address, Address.read, Address.isPrivate, Address.isReadOnly
-/
import MarketBook.Fault
import MarketBook.Text.Utf8
import MarketBook.Text.Numeral
import MarketBook.Text.Upper

namespace MarketBook

open Text

/-!
Most addresses are the path of a file.  One that starts with `file:` has, behind its path, options
after a question mark and a remark after a hash, and octets may stand in it as two hexadecimal
digits behind a percent sign.  Options say how the file is used, and a few of them that it is not
used at all: such an archive is private and lasts as long as it is open.
-/

namespace Address

/-- What an address allows. -/
inductive Access where
  /-- Reading an archive that is there. -/
  | readOnly
  /-- Writing to a file that is there. -/
  | existing
  /-- Writing, to a new file if none is there. -/
  | creating
  /-- Nothing on the disk: the archive is private. -/
  | inMemory
deriving DecidableEq

/-- How the users of a file keep out of each other's way. -/
inductive Locking where
  /-- By locks on the file and a memory that the users share. -/
  | shared
  /-- By one lock, so that there is one user and no shared memory. -/
  | exclusive
  /-- By a second file. -/
  | lockFile
  /-- Not at all. -/
  | unlocked
  /-- There is no file. -/
  | inMemory
deriving DecidableEq

end Address

/-- An address, taken apart. -/
structure Address where
  /-- The path of the file; the empty path and `:memory:` stand for a private archive. -/
  file : String
  access : Address.Access
  locking : Address.Locking
  /-- The file never changes, so that nobody writes to it and nobody locks it. -/
  isFrozen : Bool
  /-- The file whose permissions a new file gets. -/
  model : Option String
deriving DecidableEq

namespace Address

/-- An option: its name and its value. -/
abbrev Choice := String × String

/-- The text of octets.  Octets that spell no text stand for the first 256 characters. -/
def textOf (octets : Octets) : String :=
  (decode? octets).getD (String.ofList (octets.map fun b => Char.ofNat b.toNat))

/-- The octets of a part of an address.  An octet zero ends it. -/
def octetsOf : List Char → Octets
  | [] => []
  | '%' :: a :: b :: r =>
    match digits? 16 [a, b] with
    | some 0 => []
    | some n => UInt8.ofNat n :: octetsOf r
    | none => String.utf8EncodeChar '%' ++ octetsOf (a :: b :: r)
  | c :: r => String.utf8EncodeChar c ++ octetsOf r

/-- The text that a part of an address stands for. -/
def part (cs : List Char) : String :=
  textOf (octetsOf cs)

/-- What stands before the first mark, and what stands behind it. -/
def cut (mark : Char) (cs : List Char) : List Char × List Char :=
  (cs.takeWhile (· != mark), (cs.dropWhile (· != mark)).drop 1)

/-- The options of a text that is cut at its ampersands; those without a name are left out. -/
def choicesOf (items : List (List Char)) : List Choice :=
  (items.map fun item =>
    let (name, value) := cut '=' item
    (part name, part value)).filter (·.1 != "")

/-- The pieces of a text between its ampersands. -/
def pieces : List Char → List (List Char)
  | [] => [[]]
  | c :: r =>
    if c == '&' then [] :: pieces r
    else match pieces r with
      | [] => [[c]]
      | p :: ps => (c :: p) :: ps

/-- How much an access allows. -/
def Access.rank : Access → Nat
  | .readOnly => 1
  | .existing => 2
  | .creating => 3
  | .inMemory => 4

/-- The access of a name. -/
def Access.ofName? (name : String) : Option Access :=
  if name = "ro" then some .readOnly
  else if name = "rw" then some .existing
  else if name = "rwc" then some .creating
  else if name = "memory" then some .inMemory
  else none

/-- The locking of a name. -/
def Locking.ofName? (name : String) : Option Locking :=
  if name = "unix" then some .shared
  else if name = "unix-excl" then some .exclusive
  else if name = "unix-dotfile" then some .lockFile
  else if name = "unix-none" then some .unlocked
  else if name = "memdb" then some .inMemory
  else none

/-- The access that is left when an option asks for another one.  It cannot ask for more than is
allowed already, but it can always ask for memory. -/
def Access.restrict? (a next : Access) : Option Access :=
  if next = .inMemory ∨ next.rank ≤ a.rank then some next else none

/-- The values of an option, in order. -/
def valuesOf (name : String) (choices : List Choice) : List String :=
  (choices.filter (·.1 == name)).map (·.2)

/-- The access that options leave. -/
def accessOf (choices : List Choice) : Option Access :=
  (valuesOf "mode" choices).foldlM (fun a name => (Access.ofName? name).bind a.restrict?) .creating

/-- The locking that options ask for, the last one if there are several. -/
def lockingOf (choices : List Choice) : Option Locking :=
  match (valuesOf "vfs" choices).getLast? with
  | none => some .shared
  | some name => Locking.ofName? name

/-- Every value of the option for shared pages is one that exists; none of them makes a difference
here. -/
def sharesSoundly (choices : List Choice) : Bool :=
  (valuesOf "cache" choices).all fun v => v == "shared" || v == "private"

/-- The number at the front of a value, in decimal or behind `0x` in hexadecimal; zero where it is
too large for 32 bits with sign. -/
def leadingNumber (cs : List Char) : Nat :=
  let body := match cs with
    | '0' :: x :: d :: r =>
      if (x == 'x' || x == 'X') && (digitValue? 16 d).isSome then
        digits? 16 ((d :: r).takeWhile fun c => (digitValue? 16 c).isSome)
      else digits? 10 (cs.takeWhile Char.isDigit)
    | _ => digits? 10 (cs.takeWhile Char.isDigit)
  (body.filter (2 * · < limit32)).getD 0

/-- The value of a switch is on: a word for it, or a number whose last octet is not zero. -/
def isOn (value : String) : Bool :=
  if (value.toList.take 1).any Char.isDigit then leadingNumber value.toList % 256 != 0
  else ["on", "yes", "true"].contains (lowerAscii value)

/-- A switch is on, by its first value if there are several. -/
def isSwitchedOn (name : String) (choices : List Choice) : Bool :=
  (valuesOf name choices).head?.any isOn

/-- The address of a path and options; none if an option has a value that does not exist. -/
def ofChoices? (file : String) (choices : List Choice) : Option Address := do
  let access ← accessOf choices
  let locking ← lockingOf choices
  if !sharesSoundly choices then none
  return {
    file := file
    access := access
    locking :=
      if isSwitchedOn "nolock" choices && locking != .inMemory then .unlocked else locking
    isFrozen := isSwitchedOn "immutable" choices
    model := (valuesOf "modeof" choices).head? }

/-- What follows the host of an address, which can only be this machine. -/
def skipHost? : List Char → Option (List Char)
  | '/' :: '/' :: r =>
    let host := String.ofList (r.takeWhile (· != '/'))
    if host = "" ∨ host = "localhost" then some (r.dropWhile (· != '/')) else none
  | cs => some cs

/-- The address behind `file:`. -/
def readMarked (cs : List Char) : Option Address := do
  let body := (cut '#' (← skipHost? cs)).1
  let (path, query) := cut '?' body
  ofChoices? (part path) (choicesOf (pieces query))

/-- The characters behind a word at the front. -/
def behind? (word cs : List Char) : Option (List Char) :=
  if word.isPrefixOf cs then some (cs.drop word.length) else none

/-- The address that a text is.  `sqlite://` stands for `file:`. -/
def read (text : String) : Outcome Address :=
  let cs := text.toList
  let marked := (behind? "sqlite://".toList cs).orElse fun _ => behind? "file:".toList cs
  if cs.any fun c => c.toNat == 0 then .error .database
  else match marked with
    | none => .ok ⟨text, .creating, .shared, false, none⟩
    | some r =>
      match readMarked r with
      | some a => .ok a
      | none => .error .database

/-- The address names no file, so that the archive is private. -/
def isUnnamed (a : Address) : Bool :=
  a.file == "" || a.file == ":memory:" || a.access == .inMemory

/-- The archive of the address has no file on the disk. -/
def isPrivate (a : Address) : Bool :=
  a.isUnnamed || a.locking == .inMemory

/-- Nobody writes through this address. -/
def isReadOnly (a : Address) : Bool :=
  a.access == .readOnly || (a.isFrozen && !a.isUnnamed)

end Address

end MarketBook
