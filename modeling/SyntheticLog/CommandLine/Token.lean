import SyntheticLog.Config

/-!
# The forms of an argument

An argument is one of four things by its first characters: the two dashes that end the options, a
long flag, a group of short flags, or anything else. One dash alone is not a flag.
-/

set_option autoImplicit false

namespace SyntheticLog.CommandLine

inductive Token
  /-- Two dashes and nothing else. -/
  | dashes
  /-- Two dashes, a name and, behind the first equals sign, a value. -/
  | long (name : Bytes) (value : Option Bytes)
  /-- One dash and at least one more byte. -/
  | short (flags : Bytes)
  | plain (text : Bytes)
  deriving DecidableEq, Repr

namespace Token

def dash : UInt8 := 45

def equals : UInt8 := 61

def ofLong (body : Bytes) : Token :=
  let name := body.takeWhile (· != equals)
  match body.drop name.length with
  | [] => .long name none
  | _ :: value => .long name (some value)

def ofArgument : Bytes → Token
  | [] => .plain []
  | a :: bs =>
    if a = dash then
      match bs with
      | [] => .plain [a]
      | b :: cs =>
        if b = dash then if cs.isEmpty then .dashes else ofLong cs
        else .short (b :: cs)
    else .plain (a :: bs)

end Token

end SyntheticLog.CommandLine
