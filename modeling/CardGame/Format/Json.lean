/-!
JSON values and their text. Numbers written as whole numbers of 64 bits are integers; all others
are kept as they are written, since the game has no use for them. A string may be well written and
yet spell no text, if half of a surrogate pair stands alone in it. Such a string is garbled, and so
is an object with such a name; that matters only to a reader of the value.
-/

namespace CardGame

/-- A JSON value. The members of an object are in the order of the text. -/
inductive Json where
  | null
  | bool (b : Bool)
  | int (n : Int)
  | decimal (literal : String)
  | str (s : String)
  | garbled
  | arr (items : List Json)
  | obj (members : List (String × Json))

namespace Json

instance : Inhabited Json := ⟨.null⟩

def nat (n : Nat) : Json := .int n

/-- The member of a name, if the value is an object that has one. -/
def get? : Json → String → Option Json
  | .obj members, name => members.lookup name
  | _, _ => none

mutual

/-- How deep arrays and objects are nested. -/
def depth : Json → Nat
  | .arr items => depthOfItems items + 1
  | .obj members => depthOfMembers members + 1
  | _ => 0

def depthOfItems : List Json → Nat
  | [] => 0
  | j :: rest => max (depth j) (depthOfItems rest)

def depthOfMembers : List (String × Json) → Nat
  | [] => 0
  | m :: rest => max (depthOfMember m) (depthOfMembers rest)

def depthOfMember : String × Json → Nat
  | (_, j) => depth j

end

mutual

/-- Whether no part of a value is garbled. -/
def isLegible : Json → Bool
  | .garbled => false
  | .arr items => itemsLegible items
  | .obj members => membersLegible members
  | _ => true

def itemsLegible : List Json → Bool
  | [] => true
  | j :: rest => isLegible j && itemsLegible rest

def membersLegible : List (String × Json) → Bool
  | [] => true
  | m :: rest => memberLegible m && membersLegible rest

def memberLegible : String × Json → Bool
  | (_, j) => isLegible j

end

mutual

/-- The value in which the last of several members of one name stands for them all. -/
def distinct : Json → Json
  | .arr items => .arr (distinctItems items)
  | .obj members => .obj (distinctMembers members)
  | j => j

def distinctItems : List Json → List Json
  | [] => []
  | j :: rest => distinct j :: distinctItems rest

def distinctMembers : List (String × Json) → List (String × Json)
  | [] => []
  | m :: rest =>
    let rest := distinctMembers rest
    if (rest.lookup m.1).isSome then rest else distinctMember m :: rest

def distinctMember : String × Json → String × Json
  | (name, j) => (name, distinct j)

end

/-- Blanks between the tokens of JSON. -/
def isBlank (c : Char) : Bool := c = ' ' || c = '\n' || c = '\t' || c = '\r'

def skipBlanks : List Char → List Char
  | [] => []
  | c :: cs => if isBlank c then skipBlanks cs else c :: cs

def hexDigit? (c : Char) : Option Nat :=
  if '0' ≤ c && c ≤ '9' then some (c.toNat - '0'.toNat)
  else if 'a' ≤ c && c ≤ 'f' then some (c.toNat - 'a'.toNat + 10)
  else if 'A' ≤ c && c ≤ 'F' then some (c.toNat - 'A'.toNat + 10)
  else none

def hex4? (a b c d : Char) : Option Nat := do
  return (((← hexDigit? a) * 16 + (← hexDigit? b)) * 16 + (← hexDigit? c)) * 16 + (← hexDigit? d)

/-- The character that a letter after a backslash stands for. -/
def escape? : Char → Option Char
  | '"' => some '"'
  | '\\' => some '\\'
  | '/' => some '/'
  | 'b' => some '\x08'
  | 'f' => some '\x0c'
  | 'n' => some '\n'
  | 'r' => some '\r'
  | 't' => some '\t'
  | _ => none

/-- The character that a number stands for on its own: none for half of a surrogate pair. -/
def single? (n : Nat) : Option Char :=
  if 0xD800 ≤ n && n < 0xE000 then none else some (Char.ofNat n)

/-- The character that the two halves of a surrogate pair stand for. -/
def paired? (high low : Nat) : Option Char :=
  if 0xD800 ≤ high && high < 0xDC00 && 0xDC00 ≤ low && low < 0xE000 then
    some (Char.ofNat (0x10000 + (high - 0xD800) * 0x400 + (low - 0xDC00)))
  else none

/-- Reads the rest of a string after its opening quote: its text, if it spells one, and what
follows. So far it spells `done`, backwards. -/
def readString (done : Option (List Char)) : List Char → Option (Option String × List Char)
  | '"' :: cs => some (done.map fun text => String.ofList text.reverse, cs)
  | '\\' :: 'u' :: a :: b :: c :: d :: '\\' :: 'u' :: e :: f :: g :: h :: cs =>
    match hex4? a b c d with
    | none => none
    | some n =>
      match (hex4? e f g h).bind (paired? n) with
      | some p => readString (done.map (p :: ·)) cs
      | none =>
        readString (do return (← single? n) :: (← done)) ('\\' :: 'u' :: e :: f :: g :: h :: cs)
  | '\\' :: 'u' :: a :: b :: c :: d :: cs =>
    match hex4? a b c d with
    | none => none
    | some n => readString (do return (← single? n) :: (← done)) cs
  | '\\' :: c :: cs =>
    match escape? c with
    | none => none
    | some e => readString (done.map (e :: ·)) cs
  | c :: cs => if c.toNat < 0x20 then none else readString (done.map (c :: ·)) cs
  | [] => none
termination_by cs => cs.length

/-- The value of a run of digits. -/
def digitsValue (ds : List Char) : Nat := ds.foldl (fun n d => n * 10 + (d.toNat - '0'.toNat)) 0

/-- The fraction of a number and what follows. -/
def readFraction : List Char → Option (List Char × List Char)
  | '.' :: cs =>
    let digits := cs.takeWhile Char.isDigit
    if digits.isEmpty then none else some ('.' :: digits, cs.dropWhile Char.isDigit)
  | cs => some ([], cs)

/-- The digits of an exponent and what follows. -/
def readExponentDigits (start : List Char) (cs : List Char) : Option (List Char × List Char) :=
  let digits := cs.takeWhile Char.isDigit
  if digits.isEmpty then none else some (start ++ digits, cs.dropWhile Char.isDigit)

/-- The exponent of a number and what follows. -/
def readExponent : List Char → Option (List Char × List Char)
  | e :: '+' :: cs =>
    if e = 'e' || e = 'E' then readExponentDigits [e, '+'] cs else some ([], e :: '+' :: cs)
  | e :: '-' :: cs =>
    if e = 'e' || e = 'E' then readExponentDigits [e, '-'] cs else some ([], e :: '-' :: cs)
  | e :: cs => if e = 'e' || e = 'E' then readExponentDigits [e] cs else some ([], e :: cs)
  | [] => some ([], [])

/-- The number written by a sign, digits and the part after them. -/
def numberOf (negative : Bool) (digits tail : List Char) : Json :=
  let n := digitsValue digits
  let literal := String.ofList ((if negative then ['-'] else []) ++ digits ++ tail)
  if !tail.isEmpty then .decimal literal
  else if negative then
    if 0 < n && n ≤ 9223372036854775808 then .int (-(n : Int)) else .decimal literal
  else if n < 18446744073709551616 then .int n
  else .decimal literal

/-- Reads a number after its sign. Leading zeros are not allowed. -/
def readNumber (negative : Bool) (cs : List Char) : Option (Json × List Char) := do
  let digits := cs.takeWhile Char.isDigit
  if digits.isEmpty || (digits.head? = some '0' && 1 < digits.length) then none
  let (fraction, cs) ← readFraction (cs.dropWhile Char.isDigit)
  let (exponent, cs) ← readExponent cs
  return (numberOf negative digits (fraction ++ exponent), cs)

mutual

/-- Reads a value. No text nests deeper than it is long, so its length is enough `fuel`. -/
def readValue : Nat → List Char → Option (Json × List Char)
  | 0, _ => none
  | fuel + 1, cs =>
    match skipBlanks cs with
    | 'n' :: 'u' :: 'l' :: 'l' :: cs => some (.null, cs)
    | 't' :: 'r' :: 'u' :: 'e' :: cs => some (.bool true, cs)
    | 'f' :: 'a' :: 'l' :: 's' :: 'e' :: cs => some (.bool false, cs)
    | '"' :: cs => (readString (some []) cs).map fun (s, cs) => (s.elim .garbled .str, cs)
    | '-' :: cs => readNumber true cs
    | '[' :: cs =>
      match skipBlanks cs with
      | ']' :: cs => some (.arr [], cs)
      | cs => (readItems fuel cs).map fun (items, cs) => (.arr items, cs)
    | '\x7b' :: cs =>
      match skipBlanks cs with
      | '\x7d' :: cs => some (.obj [], cs)
      | cs => (readMembers fuel cs).map fun (members, cs) => (members.elim .garbled .obj, cs)
    | cs => readNumber false cs

/-- Reads the items of an array up to its end. -/
def readItems : Nat → List Char → Option (List Json × List Char)
  | 0, _ => none
  | fuel + 1, cs => do
    let (j, cs) ← readValue fuel cs
    match skipBlanks cs with
    | ',' :: cs => (readItems fuel cs).map fun (items, cs) => (j :: items, cs)
    | ']' :: cs => some ([j], cs)
    | _ => none

/-- Reads the members of an object up to its end: the members, if all their names are texts, and
what follows. -/
def readMembers : Nat → List Char → Option (Option (List (String × Json)) × List Char)
  | 0, _ => none
  | fuel + 1, cs =>
    match skipBlanks cs with
    | '"' :: cs => do
      let (name, cs) ← readString (some []) cs
      match skipBlanks cs with
      | ':' :: cs =>
        let (j, cs) ← readValue fuel cs
        let member : Option (String × Json) := name.map (·, j)
        match skipBlanks cs with
        | ',' :: cs =>
          (readMembers fuel cs).map fun (members, cs) => (do return (← member) :: (← members), cs)
        | '\x7d' :: cs => some (member.map fun m => [m], cs)
        | _ => none
      | _ => none
    | _ => none

end

/-- Reads a whole text, parts of which may be garbled. Repeated members are kept. -/
def read? (text : String) : Option Json := do
  let cs := text.toList
  let (j, rest) ← readValue (cs.length + 1) cs
  if (skipBlanks rest).isEmpty then some j else none

/-- Reads a whole text that is legible throughout. Repeated members are kept. -/
def parse? (text : String) : Option Json := (read? text).filter isLegible

def hexDigit (n : Nat) : Char := ("0123456789abcdef".toList)[n]?.getD '0'

/-- Writes a character of a string. -/
def writeChar (text : String) (c : Char) : String :=
  match c with
  | '"' => text ++ "\\\""
  | '\\' => text ++ "\\\\"
  | '\n' => text ++ "\\n"
  | '\r' => text ++ "\\r"
  | '\t' => text ++ "\\t"
  | '\x08' => text ++ "\\b"
  | '\x0c' => text ++ "\\f"
  | c =>
    if c.toNat < 0x20 then
      ((text ++ "\\u00").push (hexDigit (c.toNat / 16))).push (hexDigit (c.toNat % 16))
    else text.push c

def writeString (text s : String) : String := (s.foldl writeChar (text.push '"')).push '"'

mutual

/-- Puts the members of every object in the order of their names. -/
def ordered : Json → Json
  | .arr items => .arr (orderedItems items)
  | .obj members => .obj ((orderedMembers members).mergeSort fun m n => m.1 ≤ n.1)
  | j => j

def orderedItems : List Json → List Json
  | [] => []
  | j :: rest => ordered j :: orderedItems rest

def orderedMembers : List (String × Json) → List (String × Json)
  | [] => []
  | m :: rest => orderedMember m :: orderedMembers rest

def orderedMember : String × Json → String × Json
  | (name, j) => (name, ordered j)

end

mutual

/-- Writes a value behind a text. What is garbled has no text, and `null` is written for it. -/
def writeTo (text : String) : Json → String
  | .null => text ++ "null"
  | .bool b => text ++ (if b then "true" else "false")
  | .int n => text ++ toString n
  | .decimal literal => text ++ literal
  | .str s => writeString text s
  | .garbled => text ++ "null"
  | .arr items => (writeItems (text.push '[') true items).push ']'
  | .obj members => (writeMembers (text.push '\x7b') true members).push '\x7d'

def writeItems (text : String) (first : Bool) : List Json → String
  | [] => text
  | j :: rest => writeItems (writeTo (if first then text else text.push ',') j) false rest

def writeMembers (text : String) (first : Bool) : List (String × Json) → String
  | [] => text
  | m :: rest => writeMembers (writeMember (if first then text else text.push ',') m) false rest

def writeMember (text : String) : String × Json → String
  | (name, j) => writeTo ((writeString text name).push ':') j

end

/-- The text of a value, without blanks and with members in the order of their names. -/
def render (j : Json) : String := writeTo "" j.ordered

end Json

end CardGame
