/-
# PolicyClient.Document.Json -- documents written as JSON text

`Document.render` writes a document without blanks.  A finite double is written with all
its digits, since every one of them is a decimal fraction; one that is not finite is
written as null, for want of a number that means it.

`Document.parse?` reads a text that is one JSON value and nothing else.  A number
without places and power is whole as long as it fits 64 bits, with a sign or without;
every other number is the double nearest to it, and one beyond the range of doubles is
refused.  There is no whole negative zero.  Two escapes may write one character as a
surrogate pair; half a pair is refused.  Of two fields of one name the later counts.
-/
import PolicyClient.Document
import PolicyClient.Text.Hex

namespace PolicyClient

set_option autoImplicit false

namespace Document

namespace Json

def isBlank (c : Char) : Bool := c = ' ' || c = '\t' || c = '\n' || c = '\r'

def skipBlanks (s : List Char) : List Char := s.dropWhile isBlank

/-! ## Numbers -/

/-- The digits up to the first other character, and the rest. -/
def digits (s : List Char) : List Char × List Char :=
  (s.takeWhile Char.isDigit, s.dropWhile Char.isDigit)

/-- The number that digits write. -/
def natural (digits : List Char) : Nat :=
  digits.foldl (fun n c => 10 * n + (c.toNat - '0'.toNat)) 0

/-- The whole part of a number: at least one digit, and no zero before another digit. -/
def whole? (s : List Char) : Option (List Char × List Char) :=
  match digits s with
  | ([], _) | ('0' :: _ :: _, _) => none
  | found => some found

/-- The digits after a point, if there is a point; then at least one. -/
def places? : List Char → Option (List Char × List Char)
  | '.' :: s =>
    match digits s with
    | ([], _) => none
    | found => some found
  | s => some ([], s)

/-- A sign, which may be missing; true if it is a minus. -/
def sign : List Char → Bool × List Char
  | '-' :: s => (true, s)
  | '+' :: s => (false, s)
  | s => (false, s)

/-- The power of ten, if there is one; then with at least one digit. -/
def power? : List Char → Option (Option Int × List Char)
  | [] => some (none, [])
  | c :: s =>
    if c = 'e' ∨ c = 'E' then
      let (negative, s) := sign s
      match digits s with
      | ([], _) => none
      | (found, s) =>
        let n : Int := natural found
        some (some (if negative then -n else n), s)
    else some (none, c :: s)

/-- Whether a whole number fits 64 bits, with a sign or without. -/
def isWhole (negative : Bool) (n : Nat) : Bool :=
  if negative then 0 < n && n ≤ Nat.pow 2 63 else n < Nat.pow 2 64

def number? (s : List Char) : Option (Document × List Char) := do
  let (negative, s) := match s with
    | '-' :: s => (true, s)
    | s => (false, s)
  let (whole, s) ← whole? s
  let (places, s) ← places? s
  let (power, s) ← power? s
  let n := natural (whole ++ places)
  if places.isEmpty && power.isNone && isWhole negative n then
    return (integer (if negative then -(n : Int) else n), s)
  else
    let x := Binary64.ofDecimal negative n (power.getD 0 - places.length)
    if x.isFinite then some (float x, s) else none

/-! ## Texts -/

/-- What a letter after a backslash stands for. -/
def escape? : Char → Option Char
  | '"' => some '"'
  | '\\' => some '\\'
  | '/' => some '/'
  | 'b' => some '\x08'
  | 'f' => some '\x0c'
  | 'n' => some '\n'
  | 'r' => some '\r'
  | 't' => some '\t'
  | _ => none

/-- The code units up to a closing quote, and the rest.  Every character is a unit of its
own; an escape may write half a surrogate pair. -/
def units? : List Char → Option (List Nat × List Char)
  | [] => none
  | '"' :: s => some ([], s)
  | '\\' :: 'u' :: a :: b :: c :: d :: s => do
    let unit ← Hex.number? [a, b, c, d]
    let (units, s) ← units? s
    return (unit :: units, s)
  | '\\' :: c :: s => do
    let c ← escape? c
    let (units, s) ← units? s
    return (c.toNat :: units, s)
  | c :: s =>
    if c.toNat < 0x20 then none
    else do
      let (units, s) ← units? s
      return (c.toNat :: units, s)

def isHighSurrogate (unit : Nat) : Bool := 0xd800 ≤ unit && unit < 0xdc00

def isLowSurrogate (unit : Nat) : Bool := 0xdc00 ≤ unit && unit < 0xe000

/-- The characters of code units, surrogate pairs joined. -/
def joined? : List Nat → Option (List Char)
  | [] => some []
  | [unit] =>
    if isHighSurrogate unit || isLowSurrogate unit then none else some [Char.ofNat unit]
  | unit :: next :: rest =>
    if isLowSurrogate unit then none
    else if isHighSurrogate unit then
      if isLowSurrogate next then
        (joined? rest).map (Char.ofNat (0x10000 + (unit - 0xd800) * 0x400 + (next - 0xdc00)) :: ·)
      else none
    else (joined? (next :: rest)).map (Char.ofNat unit :: ·)

/-- The rest of a text after its opening quote. -/
def string? (s : List Char) : Option (String × List Char) := do
  let (units, s) ← units? s
  return (String.ofList (← joined? units), s)

/-! ## Values -/

/-- The fields without those that a later field of the same name replaces. -/
def latest : List (String × Document) → List (String × Document)
  | [] => []
  | f :: rest => if rest.any fun g => g.1 = f.1 then latest rest else f :: latest rest

mutual

/-- A value, and what follows it.  Two steps read at least one character. -/
def value? : (fuel : Nat) → List Char → Option (Document × List Char)
  | 0, _ => none
  | fuel + 1, s =>
    match skipBlanks s with
    | '"' :: s => (string? s).map fun (t, s) => (text t, s)
    | '[' :: s =>
      match skipBlanks s with
      | ']' :: s => some (list [], s)
      | s => (items? fuel s).map fun (items, s) => (list items, s)
    | '\x7b' :: s =>
      match skipBlanks s with
      | '\x7d' :: s => some (object [], s)
      | s => (members? fuel s).map fun (fields, s) => (object (latest fields), s)
    | 't' :: 'r' :: 'u' :: 'e' :: s => some (bool true, s)
    | 'f' :: 'a' :: 'l' :: 's' :: 'e' :: s => some (bool false, s)
    | 'n' :: 'u' :: 'l' :: 'l' :: s => some (null, s)
    | s => number? s

/-- The rest of a list that has at least one more item. -/
def items? : (fuel : Nat) → List Char → Option (List Document × List Char)
  | 0, _ => none
  | fuel + 1, s => do
    let (item, s) ← value? fuel s
    match skipBlanks s with
    | ',' :: s =>
      let (items, s) ← items? fuel s
      return (item :: items, s)
    | ']' :: s => return ([item], s)
    | _ => none

/-- The rest of an object that has at least one more field. -/
def members? : (fuel : Nat) → List Char → Option (List (String × Document) × List Char)
  | 0, _ => none
  | fuel + 1, s =>
    match skipBlanks s with
    | '"' :: s => do
      let (name, s) ← string? s
      match skipBlanks s with
      | ':' :: s =>
        let (d, s) ← value? fuel s
        match skipBlanks s with
        | ',' :: s =>
          let (fields, s) ← members? fuel s
          return ((name, d) :: fields, s)
        | '\x7d' :: s => return ([(name, d)], s)
        | _ => none
      | _ => none
    | _ => none

end

end Json

/-- The document that a text writes. -/
def parse? (s : String) : Option Document := do
  let chars := s.toList
  let (d, rest) ← Json.value? (2 * chars.length + 1) chars
  if (Json.skipBlanks rest).isEmpty then some d else none

/-! ## Writing -/

namespace Json

/-- A character inside quotes. -/
def escaped (c : Char) : List Char :=
  if c = '"' then ['\\', '"']
  else if c = '\\' then ['\\', '\\']
  else if c.toNat < 0x20 then '\\' :: 'u' :: Hex.fixed 4 c.toNat
  else [c]

def quote (s : String) : List Char := '"' :: (s.toList.flatMap escaped ++ ['"'])

/-- A finite double as a whole number times a power of ten: `m / 2 ^ k` is
`m * 5 ^ k / 10 ^ k`. -/
def decimal (x : Binary64) : List Char :=
  let sign := if x.isNegative then ['-'] else []
  let places := (-x.scale).toNat
  let count := x.significand * Nat.pow 2 x.scale.toNat * Nat.pow 5 places
  sign ++ (toString count).toList ++ 'e' :: '-' :: (toString places).toList

mutual

def write : Document → List Char
  | null => "null".toList
  | bool b => (toString b).toList
  | integer i => (toString i).toList
  | float x => if x.isFinite then decimal x else "null".toList
  | text s => quote s
  | list items => '[' :: (writeItems items ++ [']'])
  | object fields => '\x7b' :: (writeMembers fields ++ ['\x7d'])

def writeItems : List Document → List Char
  | [] => []
  | [d] => write d
  | d :: rest => write d ++ ',' :: writeItems rest

def writeMembers : List (String × Document) → List Char
  | [] => []
  | [(name, d)] => quote name ++ ':' :: write d
  | (name, d) :: rest => quote name ++ ':' :: (write d ++ ',' :: writeMembers rest)

end

end Json

/-- The text of a document. -/
def render (d : Document) : String := String.ofList (Json.write d)

end Document

end PolicyClient
