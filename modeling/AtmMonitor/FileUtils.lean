import AtmMonitor.PyText

namespace AtmMonitor.FileUtils

open PyText

abbrev Bytes := List UInt8

def isTail (b : UInt8) : Bool := 0x80 ≤ b.toNat && b.toNat < 0xC0

def tailBits (b : UInt8) : Nat := b.toNat - 0x80

def charAt : Bytes → Option (Char × Nat)
  | [] => none
  | b :: rest =>
    let n := b.toNat
    if n < 0x80 then some (Char.ofNat n, 1)
    else if 0xC2 ≤ n && n < 0xE0 then
      match rest with
      | b1 :: _ => if isTail b1 then some (Char.ofNat ((n - 0xC0) * 64 + tailBits b1), 2) else none
      | _ => none
    else if 0xE0 ≤ n && n < 0xF0 then
      match rest with
      | b1 :: b2 :: _ =>
        let v := ((n - 0xE0) * 64 + tailBits b1) * 64 + tailBits b2
        if isTail b1 && isTail b2 && 0x800 ≤ v && !(0xD800 ≤ v && v < 0xE000) then
          some (Char.ofNat v, 3)
        else none
      | _ => none
    else if 0xF0 ≤ n && n < 0xF5 then
      match rest with
      | b1 :: b2 :: b3 :: _ =>
        let v := (((n - 0xF0) * 64 + tailBits b1) * 64 + tailBits b2) * 64 + tailBits b3
        if isTail b1 && isTail b2 && isTail b3 && 0x10000 ≤ v && v < 0x110000 then
          some (Char.ofNat v, 4)
        else none
      | _ => none
    else none

/-- Decode, dropping every byte that no character begins with. -/
def decodeFrom : Nat → Bytes → Str
  | _, [] => []
  | skip + 1, _ :: rest => decodeFrom skip rest
  | 0, b :: rest =>
    match charAt (b :: rest) with
    | some (c, n) => c :: decodeFrom (n - 1) rest
    | none => decodeFrom 0 rest

def decode (bs : Bytes) : Str := decodeFrom 0 bs

/-- `len(line.encode("utf-8"))`. -/
def encodedLength (line : Str) : Nat := (line.map Char.utf8Size).sum

theorem encodedLength_append (s t : Str) :
    encodedLength (s ++ t) = encodedLength s + encodedLength t := by
  simp [encodedLength]

def takeLine : Bytes → Bytes
  | [] => []
  | b :: rest =>
    if b = 10 then [b]
    else if b = 13 then (if rest.head? = some 10 then [13, 10] else [13])
    else b :: takeLine rest

def isLineEnd (b : UInt8) : Bool := b == 10 || b == 13

/-- What `readline` returns for the bytes of a line: every line end becomes a newline. -/
def textLine (raw : Bytes) : Str :=
  if raw.any isLineEnd then decode (raw.takeWhile fun b => !isLineEnd b) ++ ['\n'] else decode raw

/-- The loop of `read_appended_lines`, for at most `fuel` lines: the lines, and the number of bytes
that they take. A line without its newline comes back when the file has no more to read; the next
read finds what was appended since then. -/
def readLoop (maxBytes : Nat) : Nat → Nat → Bytes → List Bytes → List Str × Nat
  | 0, _, _, _ => ([], 0)
  | fuel + 1, bytesRead, bs, appended =>
    if bytesRead < maxBytes then
      let raw := takeLine bs
      let line := textLine raw
      let rest := bs.drop raw.length
      if line.isEmpty then ([], raw.length)
      else
        let atEnd := rest.isEmpty && raw.getLast? != some 10
        let r := readLoop maxBytes fuel (bytesRead + encodedLength line)
          (if atEnd then appended.headD [] else rest) (if atEnd then appended.tail else appended)
        (line :: r.1, raw.length + r.2)
    else ([], 0)

/-- Seek, read lines and tell, the position taken as the number of bytes before it. -/
def readFrom (maxBytes offset : Nat) (content : Bytes) (appended : List Bytes) : List Str × Nat :=
  let bs := content.drop offset
  let r := readLoop maxBytes (bs.length + appended.flatten.length) 0 bs appended
  (r.1, offset + r.2)

/-- One attempt to read: the size of the file and its bytes, where the calls do not raise, and what
is appended each time that the reader has come to the end. -/
structure ReadAttempt where
  size : Option Nat
  content : Option Bytes
  appended : List Bytes := []

def readAttempts (maxBytes : Nat) : List ReadAttempt → Nat → List Str × Nat × Nat
  | [], offset => ([], offset, 0)
  | a :: rest, offset =>
    match a.size with
    | none => readAttempts maxBytes rest offset
    | some size =>
      let offset := if size < offset then 0 else offset
      match a.content with
      | none => readAttempts maxBytes rest offset
      | some content =>
        let r := readFrom maxBytes offset content a.appended
        (r.1, r.2, size)

/-- `read_appended_lines`: the lines, the new offset and the size of the file. -/
def readAppendedLines (maxBytes : Nat) (found : Bool) (attempts : List ReadAttempt) (offset : Nat) :
    List Str × Nat × Nat :=
  if found then readAttempts maxBytes (attempts.take 5) offset else ([], offset, 0)

end AtmMonitor.FileUtils
