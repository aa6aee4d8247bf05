import Alpl.Text.Decimal
import Mathlib.Data.Int.Notation

/-!
# `util/errno.h`

The texts of error codes, and the length prefix in front of a message.  A call that C gives no
meaning to ends with a `Fault`: an access outside a buffer, or the invalid-parameter handler that
`_itoa_s` calls.

A `char` is signed and has eight bits, an `int` and a `DWORD` have thirty-two, and arithmetic on
`int` wraps around.
-/

namespace Alpl.Util

/-- What ends a call. -/
inductive Fault
  /-- A buffer was read or written at this index, where it has no byte. -/
  | outOfBounds (i : ℕ)
  /-- The invalid-parameter handler of the C runtime, which aborts. -/
  | invalidParameter
  deriving DecidableEq, Repr

/-! ## The texts of error codes -/

/-- The cases of the `switch` in `getErrorString`. -/
def errorStrings : List (ℕ × String) :=
  [(997, "Overlapped operations will complete later"),
    (10014, "Bad Address"),
    (10024, "Too many open files"),
    (10038, "The Descriptor is not a socket"),
    (10039, "Destination address required"),
    (10048, "Address already in use"),
    (10050, "Network is down"),
    (10051, "Network is unreachable"),
    (10052, "Network dropped connection"),
    (10053, "Software caused connection abort"),
    (10054, "Connection reset by peer"),
    (10055, "No buffer space available"),
    (10060, "Connection timed out"),
    (10061, "Connection refused"),
    (10065, "No route to host"),
    (10091, "Network sub-system is unavailable"),
    (10092, "Wrong WinSock DLL version"),
    (10093, "WSAStartup() not performed"),
    (11001, "Host not found"),
    (11002, "Non-authoritative host found"),
    (11003, "Non-recoverable query error"),
    (11004, "Valid name, no data of that type")]

/-- `_itoa_s(value, buffer, 10)` with a buffer of `size` bytes. -/
def itoaS (value : ℤ) (size : ℕ) : Except Fault String :=
  let text := Text.decimal 0 value
  if text.length + 1 ≤ size then .ok (String.ofList text) else .error .invalidParameter

/-- `ErrorHandler::getErrorString`.  The default branch converts the code to the `int` that
`_itoa_s` takes. -/
def getErrorString (errorCode : BitVec 32) : Except Fault String :=
  match errorStrings.lookup errorCode.toNat with
  | some text => .ok text
  | none => itoaS errorCode.toInt 10

/-! ## The length prefix -/

/-- A `char`. -/
abbrev Byte := BitVec 8

/-- The macro `prefix_length` of the file. -/
def prefixLength : ℕ := 4

def readByte (buffer : List Byte) (i : ℕ) : Except Fault Byte :=
  match buffer[i]? with
  | some c => .ok c
  | none => .error (.outOfBounds i)

def writeByte (buffer : List Byte) (i : ℕ) (c : Byte) : Except Fault (List Byte) :=
  if i < buffer.length then .ok (buffer.set i c) else .error (.outOfBounds i)

/-- The loop of `ntob`, with `k` bytes still to write, the next one at `i`. -/
def ntobLoop (number : BitVec 32) : ℕ → ℕ → List Byte → Except Fault (List Byte)
  | 0, _, buffer => .ok buffer
  | k + 1, i, buffer => do
    let buffer ← writeByte buffer i ((number.sshiftRight (i * 8)).setWidth 8)
    ntobLoop number k (i + 1) buffer

/-- `ntob`, with what it returns and the buffer it leaves; the buffer may be `NULL`. -/
def ntob (number : BitVec 32) : Option (List Byte) → Except Fault (ℤ × Option (List Byte))
  | none => .ok (-1, none)
  | some buffer => do
    let buffer ← ntobLoop number prefixLength 0 buffer
    return (0, some buffer)

/-- The loop of `bton` from the index `n` down to `0`. -/
def btonLoop (buffer : List Byte) : ℕ → BitVec 32 → Except Fault (BitVec 32)
  | 0, result => do
    let c ← readByte buffer 0
    return (result <<< 8) + c.signExtend 32
  | n + 1, result => do
    let c ← readByte buffer (n + 1)
    btonLoop buffer n ((result <<< 8) + c.signExtend 32)

/-- `bton`. -/
def bton : Option (List Byte) → Except Fault (BitVec 32)
  | none => .ok (-1)
  | some buffer => btonLoop buffer prefixLength 0

end Alpl.Util
