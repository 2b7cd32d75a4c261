import CardGame.Format.Binary
import CardGame.Format.Json

/-!
Formats that write values both as JSON and as bytes. A record is an object of its fields, or their
list in order; an alternative is its name alone, or an object that gives the name its content. In
bytes the fields follow each other, and an alternative starts with its number.
-/

namespace CardGame

/-- A way to write values as JSON and as bytes, and to read them back. -/
structure Codec (α : Type) extends Binary α where
  toJson : α → Json
  ofJson : Json → Option α

namespace Codec

variable {α β γ : Type}

/-- Nothing can be read. -/
def empty : Codec α where
  write _ rest := rest
  read _ := none
  toJson _ := .null
  ofJson _ := none

instance : Inhabited (Codec α) := ⟨empty⟩

/-- A format that is worked out when it is used. -/
def delay (c : Unit → Codec α) : Codec α where
  write a := (c ()).write a
  read bytes := (c ()).read bytes
  toJson a := (c ()).toJson a
  ofJson j := (c ()).ofJson j

/-- The format of a recursive type, given its format for values of limited depth. What is read is
never deeper than its JSON, nor than its bytes are many. -/
def recursive (depth : α → Nat) (level : Nat → Codec α) : Codec α where
  write a := (level (depth a + 1)).write a
  read bytes := (level (bytes.length + 1)).read bytes
  toJson a := (level (depth a + 1)).toJson a
  ofJson j := (level (j.depth + 1)).ofJson j

/-- Writes values through another type. -/
def iso (c : Codec β) (f : β → α) (g : α → β) : Codec α where
  toBinary := c.toBinary.iso f g
  toJson a := c.toJson (g a)
  ofJson j := (c.ofJson j).map f

/-- Whole numbers of a fixed number of bytes. -/
def nat (width : Nat) : Codec Nat where
  toBinary := .nat width
  toJson n := .nat n
  ofJson
    | .int n => if 0 ≤ n && n < (Binary.capacity width : Int) then some n.toNat else none
    | _ => none

/-- Signed whole numbers of a fixed number of bytes. -/
def int (width : Nat) : Codec Int where
  toBinary := .int width
  toJson n := .int n
  ofJson
    | .int n =>
      let capacity : Int := Binary.capacity width
      if -capacity ≤ 2 * n && 2 * n < capacity then some n else none
    | _ => none

def byte : Codec Nat := nat 1
def word : Codec Nat := nat 4
def long : Codec Nat := nat 8
def amount : Codec Int := int 4

def bool : Codec Bool where
  toBinary := .bool
  toJson b := .bool b
  ofJson
    | .bool b => some b
    | _ => none

def string : Codec String where
  toBinary := .string
  toJson s := .str s
  ofJson
    | .str s => some s
    | _ => none

/-- Nothing at all, in JSON `null`. -/
def unit : Codec Unit where
  write _ rest := rest
  read bytes := some ((), bytes)
  toJson _ := .null
  ofJson
    | .null => some ()
    | _ => none

/-- A value or `null`. -/
def option (c : Codec α) : Codec (Option α) where
  toBinary := c.toBinary.option
  toJson
    | none => .null
    | some a => c.toJson a
  ofJson
    | .null => some none
    | j => (c.ofJson j).map some

def list (c : Codec α) : Codec (List α) where
  toBinary := c.toBinary.list
  toJson as := .arr (as.map c.toJson)
  ofJson
    | .arr items => items.mapM c.ofJson
    | _ => none

def set [Ranked α] [DecidableEq α] (c : Codec α) : Codec (SortedSet α) :=
  c.list.iso .ofList (·.toList)

/-- Two values as an array. -/
def pair (a : Codec α) (b : Codec β) : Codec (α × β) where
  toBinary := a.toBinary.pair b.toBinary
  toJson p := .arr [a.toJson p.1, b.toJson p.2]
  ofJson
    | .arr [x, y] => do return (← a.ofJson x, ← b.ofJson y)
    | _ => none

/-- A map as the list of its entries. -/
def entries [Ranked α] [DecidableEq α] (key : Codec α) (value : Codec β) :
    Codec (SortedMap α β) :=
  (list (pair key value)).iso .ofList (·.entries)

/-- The number that a text writes in digits, without leading zeros. -/
def digits? (s : String) : Option Nat :=
  let ds := s.toList
  if ds.isEmpty || !ds.all Char.isDigit || (ds.head? = some '0' && 1 < ds.length) then none
  else some (Json.digitsValue ds)

/-- A map whose keys are numbers of four bytes, in JSON an object. -/
def numbered [Ranked α] [DecidableEq α] (ofNat : Nat → α) (toNat : α → Nat) (value : Codec β) :
    Codec (SortedMap α β) where
  toBinary := .map ((Binary.nat 4).iso ofNat toNat) value.toBinary
  toJson m := .obj (m.entries.map fun p => (toString (toNat p.1), value.toJson p.2))
  ofJson
    | .obj members =>
      (members.mapM fun (name, j) => do
        let n ← digits? name
        if n < Binary.capacity 4 then return (ofNat n, ← value.ofJson j) else none).map .ofList
    | _ => none

/-- Alternatives without content. -/
def enumeration [DecidableEq α] [Inhabited α] (values : List (String × α)) : Codec α where
  write a := Binary.writeNat 4 (values.findIdx (·.2 = a))
  read bytes := do
    let (n, rest) ← Binary.readNat 4 bytes
    let (_, a) ← values[n]?
    return (a, rest)
  toJson a := .str (((values.find? (·.2 = a)).map (·.1)).getD "")
  ofJson
    | .str name => values.lookup name
    | .obj [(name, .null)] => values.lookup name
    | _ => none

/-- Reads a record of which some members are given; the others are those of a base value. -/
def revise (c : Codec α) (base : α) : Json → Option α
  | .obj members =>
    match c.toJson base with
    | .obj others => c.ofJson (.obj (members ++ others))
    | _ => none
  | _ => none

end Codec

/-- Some fields of a record. -/
structure Fields (α : Type) extends Binary α where
  members : α → List (String × Json)
  ofMembers : (String → Option Json) → Option α
  ofItems : List Json → Option (α × List Json)

namespace Fields

variable {α β : Type}

/-- A field that must be there. -/
def required (name : String) (c : Codec α) : Fields α where
  toBinary := c.toBinary
  members a := [(name, c.toJson a)]
  ofMembers get := (get name).bind c.ofJson
  ofItems
    | [] => none
    | j :: rest => (c.ofJson j).map (·, rest)

/-- A field that may be left out of an object. -/
def optional (name : String) (c : Codec α) : Fields (Option α) :=
  { required name c.option with
    ofMembers := fun get =>
      match get name with
      | none => some none
      | some j => c.option.ofJson j }

/-- A field that stands for a given value where it is left out. -/
def withDefault (name : String) (c : Codec α) (default : α) : Fields α :=
  { required name c with
    ofMembers := fun get =>
      match get name with
      | none => some default
      | some j => c.ofJson j
    ofItems := fun
      | [] => some (default, [])
      | j :: rest => (c.ofJson j).map (·, rest) }

/-- Further fields. -/
def and (f : Fields α) (g : Fields β) : Fields (α × β) where
  toBinary := f.toBinary.pair g.toBinary
  members p := f.members p.1 ++ g.members p.2
  ofMembers get := do return (← f.ofMembers get, ← g.ofMembers get)
  ofItems items := do
    let (a, items) ← f.ofItems items
    let (b, items) ← g.ofItems items
    return ((a, b), items)

/-- The fields of a record. -/
def iso (f : Fields β) (make : β → α) (parts : α → β) : Fields α where
  toBinary := f.toBinary.iso make parts
  members a := f.members (parts a)
  ofMembers get := (f.ofMembers get).map make
  ofItems items := (f.ofItems items).map fun (b, rest) => (make b, rest)

/-- A record of the fields. -/
def codec (f : Fields α) : Codec α where
  toBinary := f.toBinary
  toJson a := .obj (f.members a)
  ofJson
    | .obj members => f.ofMembers fun name => members.lookup name
    | .arr items =>
      match f.ofItems items with
      | some (a, []) => some a
      | _ => none
    | _ => none

/-- A record of the fields as the content of an alternative, which is never a list. -/
def content (f : Fields α) : Codec α :=
  { f.codec with
    ofJson := fun
      | .obj members => f.ofMembers fun name => members.lookup name
      | _ => none }

end Fields

/-- An alternative of a type: its name, and its content where it has some. -/
structure Case (α : Type) where
  name : String
  toJson : α → Option Json
  ofName : Option α
  ofContent : Json → Option α
  write : α → Option (List UInt8 → List UInt8)
  read : List UInt8 → Option (α × List UInt8)

namespace Case

variable {α β : Type}

/-- An alternative without content. -/
def unit [DecidableEq α] (name : String) (a : α) : Case α where
  name
  toJson b := if b = a then some (.str name) else none
  ofName := some a
  ofContent
    | .null => some a
    | _ => none
  write b := if b = a then some id else none
  read bytes := some (a, bytes)

/-- An alternative with content. -/
def of (name : String) (c : Codec β) (make : β → α) (content : α → Option β) : Case α where
  name
  toJson a := (content a).map fun b => .obj [(name, c.toJson b)]
  ofName := none
  ofContent j := (c.ofJson j).map make
  write a := (content a).map c.write
  read bytes := (c.read bytes).map fun (b, rest) => (make b, rest)

/-- An alternative whose content is a record. -/
def record (name : String) (f : Fields β) (make : β → α) (content : α → Option β) : Case α :=
  of name f.content make content

end Case

namespace Codec

variable {α : Type}

/-- The number of the alternative that a value belongs to, and its bytes. -/
def writeCase (a : α) : List (Case α) → Nat → List UInt8 → List UInt8
  | [], _, rest => rest
  | c :: cases, n, rest =>
    match c.write a with
    | some write => Binary.writeNat 4 n (write rest)
    | none => writeCase a cases (n + 1) rest

/-- A type of several alternatives. -/
def cases (cs : List (Case α)) : Codec α where
  write a rest := writeCase a cs 0 rest
  read bytes := do
    let (n, rest) ← Binary.readNat 4 bytes
    (← cs[n]?).read rest
  toJson a := (cs.findSome? (·.toJson a)).getD .null
  ofJson
    | .str name => do (← cs.find? (·.name = name)).ofName
    | .obj [(name, j)] => do (← cs.find? (·.name = name)).ofContent j
    | _ => none

end Codec

end CardGame
