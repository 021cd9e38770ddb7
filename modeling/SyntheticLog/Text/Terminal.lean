import SyntheticLog.Text.Utf8

/-!
# Text on a terminal

A terminal acts on control characters and on the sequences that an escape character opens. A blank
within some of these sequences is put on the terminal at once, and the text goes on as plain text up
to the next control character. There the two filters part:

* `Terminal.plain` has forgotten the sequence that the blank broke off;
* `Terminal.streamed` takes the sequence up again, if only ASCII characters came between.

`Terminal.guarded` keeps every character and spells out those that a terminal would act on.
-/

set_option autoImplicit false

namespace SyntheticLog.Terminal

/-! ## Control sequences -/

/-- Where a reader of control sequences stands. -/
inductive Mode
  | ground
  /-- Behind an escape character. -/
  | escape
  /-- In an escape sequence with intermediate characters. -/
  | intermediate
  /-- In a control sequence, which a letter ends. -/
  | control
  /-- Behind the opening of a device string. -/
  | device
  /-- In the parameters of a device string. -/
  | deviceParameters
  /-- In the intermediate characters of a device string. -/
  | deviceIntermediate
  /-- In a string for the device, the application or nobody, which the string terminator ends. -/
  | string
  /-- In a command string for the system, which a bell ends. -/
  | command
  deriving DecidableEq, Repr

/-- The character is a blank of ASCII. -/
def isBlank (c : Char) : Bool := c = ' ' || c = '\t' || c = '\n' || c = '\x0c' || c = '\r'

def within (c : Char) (low high : Nat) : Bool := low ≤ c.toNat && c.toNat ≤ high

/-- The byte that ends a string. -/
def terminator : UInt8 := 0x9c

/-- The character ends a string: the terminator is one of its bytes. -/
def terminates (c : Char) : Bool := (Utf8.encode (String.singleton c)).contains terminator

/-- The mode behind a character that is not put on the terminal. -/
def Mode.next (m : Mode) (c : Char) : Mode :=
  if c = '\x18' || c = '\x1a' then .ground
  else if c = '\x1b' then .escape
  else match m with
    | .ground => .ground
    | .escape =>
      if within c 0x20 0x2f then .intermediate
      else if c = '[' then .control
      else if c = ']' then .command
      else if c = 'P' then .device
      else if c = 'X' || c = '^' || c = '_' then .string
      else if within c 0x30 0x7e then .ground
      else .escape
    | .intermediate => if within c 0x30 0x7e then .ground else .intermediate
    | .control => if within c 0x40 0x7e then .ground else .control
    | .device =>
      if within c 0x20 0x2f then .deviceIntermediate
      else if within c 0x30 0x3f then .deviceParameters
      else if within c 0x40 0x7e then .string
      else .device
    | .deviceParameters =>
      if within c 0x20 0x2f then .deviceIntermediate
      else if within c 0x3c 0x7e then .string
      else .deviceParameters
    | .deviceIntermediate => if within c 0x30 0x7e then .string else .deviceIntermediate
    | .string => if terminates c then .ground else .string
    | .command => if c = '\x07' then .ground else .command

/-- The character is put on the terminal: in plain text every one but a control character, and in
some sequences a control character that is a blank. -/
def Mode.prints (m : Mode) (c : Char) : Bool :=
  match m with
  | .ground => within c 0x20 0x7e || 0x80 ≤ c.toNat || isBlank c
  | .escape | .intermediate | .control => isBlank c && c != ' '
  | .device | .deviceParameters | .deviceIntermediate | .string | .command => false

/-! ## Taking control sequences out -/

/-- A reader of text on its way to a terminal. -/
structure Reader where
  mode : Mode
  /-- The character before was put on the terminal. -/
  flowing : Bool
  deriving DecidableEq, Repr

namespace Reader

def start : Reader := ⟨.ground, false⟩

/-- The character is put on the terminal. Behind one that was, it is read as plain text. -/
def prints (r : Reader) (c : Char) : Bool := (if r.flowing then Mode.ground else r.mode).prints c

/-- The reader behind a character. One that is put on the terminal leaves the mode as it is, if the
reader `resumes` sequences and the character is ASCII; else it ends every sequence. -/
def next (resumes : Bool) (r : Reader) (c : Char) : Reader :=
  if r.prints c then ⟨if resumes && c.toNat < 0x80 then r.mode else .ground, true⟩
  else ⟨r.mode.next c, false⟩

/-- The characters of a text that are put on the terminal. -/
def printed (resumes : Bool) : Reader → List Char → List Char
  | _, [] => []
  | r, c :: cs =>
    let rest := printed resumes (r.next resumes c) cs
    if r.prints c then c :: rest else rest

end Reader

def plain (cs : List Char) : List Char := Reader.start.printed false cs

/-- What is left of the text when it is sent to a stream that takes no control sequences. -/
def streamed (cs : List Char) : List Char := Reader.start.printed true cs

/-! ## Spelling control characters out -/

def hexByte (n : Nat) : List Char := [Nat.digitChar (n / 16), Nat.digitChar (n % 16)]

/-- The character, spelled out if a terminal would act on it. -/
def guardedChar (c : Char) : List Char :=
  if c = '\x1b' || c = '\x07' || c = '\x08' || c = '\x0c' || c = '\x7f' then
    '\\' :: 'x' :: hexByte c.toNat
  else if within c 0x80 0x9f then '\\' :: 'u' :: '\x7b' :: hexByte c.toNat ++ ['\x7d']
  else [c]

/-- The text with the control characters spelled out that a terminal would act on. -/
def guarded (cs : List Char) : List Char := cs.flatMap guardedChar

end SyntheticLog.Terminal
