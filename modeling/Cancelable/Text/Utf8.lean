/-!
# Reading bytes as text

Bytes become characters by UTF-8, and bytes that are not UTF-8 become replacement characters: one
for each longest run that begins a character and cannot be completed, and one for each byte that
cannot begin any.  The reader is a machine that takes one byte at a time, so it is total and never
looks back.
-/

namespace Cancelable
namespace Text
namespace Utf8

/-- Where the reader stands between two bytes. -/
inductive Progress where
  | start
  /-- Inside a character: `code` is read so far, the next byte has to lie from `low` to `high`, and
  `more` further bytes follow it. -/
  | inside (code low high more : Nat)
  deriving DecidableEq, Repr

def replacement : Char := Char.ofNat 0xFFFD

/-- The first byte of a character: the characters it completes, and where the reader stands then.
The bounds on the second byte leave out overlong forms, surrogates and codes above `0x10FFFF`. -/
def first (b : Nat) : List Char × Progress :=
  if b ≤ 0x7F then ([Char.ofNat b], .start)
  else if 0xC2 ≤ b ∧ b ≤ 0xDF then ([], .inside (b - 0xC0) 0x80 0xBF 0)
  else if b = 0xE0 then ([], .inside 0 0xA0 0xBF 1)
  else if b = 0xED then ([], .inside 0xD 0x80 0x9F 1)
  else if 0xE1 ≤ b ∧ b ≤ 0xEF then ([], .inside (b - 0xE0) 0x80 0xBF 1)
  else if b = 0xF0 then ([], .inside 0 0x90 0xBF 2)
  else if 0xF1 ≤ b ∧ b ≤ 0xF3 then ([], .inside (b - 0xF0) 0x80 0xBF 2)
  else if b = 0xF4 then ([], .inside 4 0x80 0x8F 2)
  else ([replacement], .start)

/-- One byte: a byte that cannot go on with a character closes it as unreadable and is read again
as a first byte. -/
def feed : Progress → Nat → List Char × Progress
  | .start, b => first b
  | .inside code low high more, b =>
    if low ≤ b ∧ b ≤ high then
      let code := code * 64 + b % 64
      match more with
      | 0 => ([Char.ofNat code], .start)
      | more + 1 => ([], .inside code 0x80 0xBF more)
    else
      let (chars, progress) := first b
      (replacement :: chars, progress)

/-- The characters of the bytes still to come, from where the reader stands. -/
def decodeFrom : Progress → List UInt8 → List Char
  | .start, [] => []
  | .inside .., [] => [replacement]
  | progress, b :: rest =>
    let (chars, progress) := feed progress b.toNat
    chars ++ decodeFrom progress rest

def decode (bytes : List UInt8) : String :=
  String.ofList (decodeFrom .start bytes)

end Utf8
end Text
end Cancelable
