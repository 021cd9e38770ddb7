/-!
# Fingerprints of byte strings

The 64-bit FNV-1a fingerprint, and the lines of a text held as bytes.
-/

set_option autoImplicit false

namespace SyntheticLog.Digest

/-- The 64-bit FNV-1a fingerprint: each byte is folded into the low bits, then the word is
multiplied by a prime. -/
def fnv1a (bytes : ByteArray) : UInt64 :=
  bytes.foldl (fun h b => (h ^^^ b.toUInt64) * 0x100000001b3) 0xcbf29ce484222325

def newline : UInt8 := 10

def newlines (bytes : ByteArray) : Nat :=
  bytes.foldl (fun n b => if b = newline then n + 1 else n) 0

/-- Adds a byte to the lines read so far, the latest first, and the line being read, its last byte
first. -/
def addByte (read : List (List UInt8) × List UInt8) (b : UInt8) : List (List UInt8) × List UInt8 :=
  if b = newline then (read.2.reverse :: read.1, []) else (read.1, b :: read.2)

/-- The lines of a text that a newline ends, and what is left behind the last newline. -/
def split (bytes : ByteArray) : List (List UInt8) × List UInt8 :=
  let (done, current) := bytes.data.foldl addByte ([], [])
  (done.reverse, current.reverse)

/-- What is left behind the last newline counts as a line unless it is empty. -/
def withRest (lines : List (List UInt8)) (rest : List UInt8) : List (List UInt8) :=
  if rest.isEmpty then lines else lines ++ [rest]

/-- The lines of a text; one that no newline ends counts unless it is empty. -/
def lines (bytes : ByteArray) : List (List UInt8) := withRest (split bytes).1 (split bytes).2

end SyntheticLog.Digest
