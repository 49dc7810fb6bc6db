import Mathlib.Data.List.DropRight
import Mathlib.Algebra.Ring.Nat
import Mathlib.Data.Rat.Defs

namespace AtmMonitor.PyText

/-- A Python `str`: its code points in order. -/
abbrev Str := List Char

/-- `str.isspace` of one character, which is also the class `\s` of `re`. -/
def isSpace (c : Char) : Bool :=
  let n := c.toNat
  (9 ≤ n && n ≤ 13) || (28 ≤ n && n ≤ 32) || n == 0x85 || n == 0xA0 || n == 0x1680 ||
    (0x2000 ≤ n && n ≤ 0x200A) || n == 0x2028 || n == 0x2029 || n == 0x202F || n == 0x205F ||
    n == 0x3000

/-- The code points of the digits zero: each begins a run of ten decimal digits. -/
def zeros : List Nat :=
  [0x660, 0x6F0, 0x7C0, 0x966, 0x9E6, 0xA66, 0xAE6, 0xB66, 0xBE6, 0xC66, 0xCE6, 0xD66, 0xDE6,
   0xE50, 0xED0, 0xF20, 0x1040, 0x1090, 0x17E0, 0x1810, 0x1946, 0x19D0, 0x1A80, 0x1A90, 0x1B50,
   0x1BB0, 0x1C40, 0x1C50, 0xA620, 0xA8D0, 0xA900, 0xA9D0, 0xA9F0, 0xAA50, 0xABF0, 0xFF10,
   0x104A0, 0x10D30, 0x10D40, 0x11066, 0x110F0, 0x11136, 0x111D0, 0x112F0, 0x11450, 0x114D0,
   0x11650, 0x116C0, 0x116D0, 0x116DA, 0x11730, 0x118E0, 0x11950, 0x11BF0, 0x11C50, 0x11D50,
   0x11DA0, 0x11F50, 0x16A60, 0x16AC0, 0x16B50, 0x1CCF0, 0x1D7CE, 0x1D7D8, 0x1D7E2, 0x1D7EC,
   0x1D7F6, 0x1E140, 0x1E2F0, 0x1E4F0, 0x1E5F1, 0x1E950, 0x1FBF0]

/-- The value of a decimal digit of any script, as `int` reads it. -/
def digit? (c : Char) : Option Nat :=
  let n := c.toNat
  if n < 128 then (if 48 ≤ n && n ≤ 57 then some (n - 48) else none)
  else (zeros.find? (fun z => z ≤ n && n < z + 10)).map (n - ·)

/-- The class `\d` of `re`. -/
def isDigit (c : Char) : Bool := (digit? c).isSome

/-- `str.isalnum` outside ASCII, which depends on the Unicode tables of the interpreter. -/
class Alnum where
  nonAscii : Char → Bool

/-- The reading in which no character outside ASCII is alphanumeric. -/
abbrev asciiAlnum : Alnum := ⟨fun _ => false⟩

/-- The class `\w` of `re`. -/
def isWord [Alnum] (c : Char) : Bool :=
  if c.toNat < 128 then c.isAlphanum || c == '_' else isDigit c || Alnum.nonAscii c

/-- The representative under which `re.IGNORECASE` compares characters with ASCII letters:
besides the two cases there are four other characters that match one. -/
def fold (c : Char) : Char :=
  if c.toNat < 128 then c.toLower
  else if c.toNat == 0x130 || c.toNat == 0x131 then 'i'
  else if c.toNat == 0x17F then 's'
  else if c.toNat == 0x212A then 'k'
  else c

def sameFold (p c : Char) : Bool := fold p == fold c

/-- `str.upper` of one character. Outside ASCII only the characters whose upper case contains an
ASCII letter are mapped: every use compares the result with an ASCII phrase. -/
def upperChar (c : Char) : Str :=
  let n := c.toNat
  if n < 128 then [c.toUpper]
  else if n == 0x131 then ['I']
  else if n == 0x17F then ['S']
  else if n == 0xDF then ['S', 'S']
  else if n == 0x149 then [Char.ofNat 0x2BC, 'N']
  else if n == 0x1F0 then ['J', Char.ofNat 0x30C]
  else if n == 0x1E96 then ['H', Char.ofNat 0x331]
  else if n == 0x1E97 then ['T', Char.ofNat 0x308]
  else if n == 0x1E98 then ['W', Char.ofNat 0x30A]
  else if n == 0x1E99 then ['Y', Char.ofNat 0x30A]
  else if n == 0x1E9A then ['A', Char.ofNat 0x2BE]
  else if n == 0xFB00 then ['F', 'F']
  else if n == 0xFB01 then ['F', 'I']
  else if n == 0xFB02 then ['F', 'L']
  else if n == 0xFB03 then ['F', 'F', 'I']
  else if n == 0xFB04 then ['F', 'F', 'L']
  else if n == 0xFB05 || n == 0xFB06 then ['S', 'T']
  else [c]

def upper (s : Str) : Str := s.flatMap upperChar

def strip (s : Str) : Str := (s.dropWhile isSpace).rdropWhile isSpace

/-- `str.rstrip('\r\n')`. -/
def rstripNewline (s : Str) : Str := s.rdropWhile (fun c => c == '\r' || c == '\n')

/-- `sub in s`. -/
def contains (s sub : Str) : Bool := s.tails.any (fun t => sub.isPrefixOf t)

def joinLines (lines : List Str) : Str := List.intercalate ['\n'] lines

/-- The characters at which `str.splitlines` ends a line. -/
def isBoundary (c : Char) : Bool :=
  let n := c.toNat
  (10 ≤ n && n ≤ 13) || (28 ≤ n && n ≤ 30) || n == 0x85 || n == 0x2028 || n == 0x2029

/-- `str.splitlines`, where a carriage return and the newline after it end one line. -/
def splitlines : Str → List Str
  | [] => []
  | c :: cs =>
    if c = '\r' ∧ cs.head? = some '\n' then splitlines cs
    else if isBoundary c then [] :: splitlines cs
    else
      match splitlines cs with
      | [] => [[c]]
      | l :: ls => (c :: l) :: ls

/-- `str.split()`: the maximal runs of characters that are not white space. -/
def splitGo : Str → Str → List Str
  | [], acc => if acc.isEmpty then [] else [acc.reverse]
  | c :: cs, acc =>
    if isSpace c then (if acc.isEmpty then splitGo cs [] else acc.reverse :: splitGo cs [])
    else splitGo cs (c :: acc)

def split (s : Str) : List Str := splitGo s []

/-- `int(s)` for a string of decimal digits. -/
def int (s : Str) : Nat := s.foldl (fun n c => 10 * n + (digit? c).getD 0) 0

/-- `float(s)` for a string of digits and dots, as an exact number. -/
def float (s : Str) : Option Rat :=
  let whole := s.takeWhile (· != '.')
  match s.dropWhile (· != '.') with
  | [] => if whole.isEmpty then none else some (int whole)
  | _ :: frac =>
    if frac.contains '.' || (whole.isEmpty && frac.isEmpty) then none
    else some (mkRat (int (whole ++ frac)) (10 ^ frac.length))

end AtmMonitor.PyText
