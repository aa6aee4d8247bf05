import Alpl.Net.Basic
import Alpl.Text.CString
import Alpl.Text.Decimal

/-!
# The texts of endpoints

`TcpConnection::init_addr` and the two functions of `SocketFactory` that write the address of a
socket as a text.  All four places have the same body: `addrlen` comes back from the system as the
size of a `sockaddr_in`, and is then given to `WSAAddressToStringA` as the length of the text.
-/

namespace Alpl.Net

open Text

/-- `sockaddr_in`, an IPv4 address and a port. -/
structure SockAddrIn where
  a : BitVec 8
  b : BitVec 8
  c : BitVec 8
  d : BitVec 8
  port : BitVec 16
  deriving DecidableEq, Repr

def sizeofSockaddrIn : ℕ := 16

/-- The text `a.b.c.d:p`. -/
def SockAddrIn.text (s : SockAddrIn) : List Char :=
  sprintf (directives "%d.%d.%d.%d:%d".toList)
    [s.a.toNat, s.b.toNat, s.c.toNat, s.d.toNat, s.port.toNat]

/-- The names that the system has for the two ends of its connected sockets. -/
structure Names where
  sockname : SOCKET → SockAddrIn
  peername : SOCKET → SockAddrIn

/-- `getsockname` and `getpeername`, which replace the length they are given. -/
def getName (name : SockAddrIn) (_addrlen : ℕ) : SockAddrIn × ℕ := (name, sizeofSockaddrIn)

/-- `WSAAddressToStringA`, with the array it leaves. -/
def wsaAddressToStringA (s : SockAddrIn) (_addrlen : ℕ) (text : CharArray) (len : ℕ) :
    ℤ × CharArray :=
  if s.text.length + 1 ≤ len then (0, text.write s.text) else (-1, text)

/-- What the four places do with an array.  A failure is printed and nothing else. -/
def writeAddress (name : SockAddrIn) (addr : CharArray) : CharArray :=
  let (sockaddr, addrlen) := getName name sizeofSockaddrStorage
  let len := addrlen
  (wsaAddressToStringA sockaddr addrlen addr len).2

/-! ## `TcpConnection` -/

/-- A `TcpConnection` with the members that only `init_addr` writes. -/
structure AddressedConnection extends TcpConnection where
  localAddr : Option CharArray
  remoteAddr : Option CharArray
  deriving DecidableEq, Repr

/-- `init_addr`. -/
def initAddr (n : Names) (y : AddressedConnection) : AddressedConnection :=
  if !y.connected then y
  else
    let y := if y.localAddr.isNone then
        { y with localAddr := some (writeAddress (n.sockname y.socket) (.unset 22)) }
      else y
    if y.remoteAddr.isNone then
      { y with remoteAddr := some (writeAddress (n.peername y.socket) (.unset 22)) }
    else y

/-- The text behind `local_endpoint()`. -/
def AddressedConnection.localEndpoint (y : AddressedConnection) : Option (List Char) :=
  y.localAddr.bind CharArray.read

/-- The text behind `remote_endpoint()`. -/
def AddressedConnection.remoteEndpoint (y : AddressedConnection) : Option (List Char) :=
  y.remoteAddr.bind CharArray.read

/-! ## `SocketFactory` -/

/-- The copy that `strdup` makes of the text in an array. -/
def toLocalAddress (n : Names) (v : SOCKET) : Option (List Char) :=
  (writeAddress (n.sockname v) (.ofText 22 "INVALID".toList)).read

def toRemoteAddress (n : Names) (v : SOCKET) : Option (List Char) :=
  (writeAddress (n.peername v) (.ofText 22 "INVALID".toList)).read

end Alpl.Net
