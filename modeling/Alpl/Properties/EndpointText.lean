import Alpl.Net.Endpoint

/-!
# The text of an endpoint

The length that `WSAAddressToStringA` is given is the size of the address and not of the array, so
it takes a text of fifteen characters at most.  Beyond that `init_addr` leaves an array that nothing
has written, and `SocketFactory` the text it started from.
-/

namespace Alpl.Net

open Text

/-- The local end of the connection and of its socket is shown as it is. -/
def LocalRight (n : Names) (y : AddressedConnection) : Prop :=
  (initAddr n y).localEndpoint = some (n.sockname y.socket).text ∧
    toLocalAddress n y.socket = some (n.sockname y.socket).text

/-- The same for the remote end. -/
def RemoteRight (n : Names) (y : AddressedConnection) : Prop :=
  (initAddr n y).remoteEndpoint = some (n.peername y.socket).text ∧
    toRemoteAddress n y.socket = some (n.peername y.socket).text

/-- The address and its terminator fit into the size of a `sockaddr_in`. -/
def SockAddrIn.Short (s : SockAddrIn) : Prop := s.text.length ≤ 15

instance (s : SockAddrIn) : Decidable s.Short := inferInstanceAs (Decidable (_ ≤ _))

/-- A member is `NULL`, as the constructor leaves it, or shows this name already. -/
def Fresh (addr : Option CharArray) (s : SockAddrIn) : Prop :=
  ∀ array, addr = some array → array.read = some s.text

lemma SockAddrIn.text_eq (s : SockAddrIn) :
    s.text = Nat.toDigits 10 s.a.toNat ++ '.' :: (Nat.toDigits 10 s.b.toNat ++ '.' ::
      (Nat.toDigits 10 s.c.toNat ++ '.' :: (Nat.toDigits 10 s.d.toNat ++ ':' ::
        Nat.toDigits 10 s.port.toNat))) := by
  simp [SockAddrIn.text, directives, sprintf]

lemma SockAddrIn.mem_text {s : SockAddrIn} {c : Char} (h : c ∈ s.text) :
    c.isDigit = true ∨ c = '.' ∨ c = ':' := by
  have hdigit : ∀ {k : ℕ}, c ∈ Nat.toDigits 10 k → c.isDigit = true :=
    fun hc => Nat.isDigit_of_mem_toDigits (by omega) (by omega) hc
  rw [s.text_eq] at h
  simp only [List.mem_append, List.mem_cons] at h
  rcases h with h | rfl | h | rfl | h | rfl | h | rfl | h <;> first | simp | exact .inl (hdigit h)

lemma SockAddrIn.nul_notMem_text (s : SockAddrIn) : nul ∉ s.text := by
  intro h
  have hmem := s.mem_text h
  revert hmem
  decide

/-- What the four places show: the text, or what was there before. -/
lemma read_writeAddress (s : SockAddrIn) (addr : CharArray) :
    (writeAddress s addr).read = if s.text.length ≤ 15 then some s.text else addr.read := by
  unfold writeAddress getName wsaAddressToStringA sizeofSockaddrIn
  by_cases hshort : s.text.length ≤ 15
  · have hlen : s.text.length + 1 ≤ 16 := by omega
    simp [hshort, hlen, CharArray.read_write s.nul_notMem_text]
  · have hlen : ¬ s.text.length + 1 ≤ 16 := by omega
    simp [hshort, hlen]

lemma read_unset_iff (s : SockAddrIn) :
    (writeAddress s (.unset 22)).read = some s.text ↔ s.Short := by
  rw [read_writeAddress, SockAddrIn.Short]
  split <;> simp [*]

lemma read_invalid_iff (s : SockAddrIn) :
    (writeAddress s (.ofText 22 "INVALID".toList)).read = some s.text ↔ s.Short := by
  have hinvalid : (CharArray.ofText 22 "INVALID".toList).read = some "INVALID".toList :=
    CharArray.read_ofText (by decide) (by decide)
  rw [read_writeAddress, SockAddrIn.Short]
  split
  · simp [*]
  · rename_i hlong
    rw [hinvalid]
    refine iff_of_false (fun heq => ?_) hlong
    rw [← Option.some.inj heq] at hlong
    exact hlong (by decide)

lemma initAddr_localAddr {n : Names} {y : AddressedConnection} (h : y.connected = true) :
    (initAddr n y).localAddr =
      some (y.localAddr.getD (writeAddress (n.sockname y.socket) (.unset 22))) := by
  cases hl : y.localAddr <;> cases hr : y.remoteAddr <;> simp [initAddr, h, hl, hr]

lemma initAddr_remoteAddr {n : Names} {y : AddressedConnection} (h : y.connected = true) :
    (initAddr n y).remoteAddr =
      some (y.remoteAddr.getD (writeAddress (n.peername y.socket) (.unset 22))) := by
  cases hl : y.localAddr <;> cases hr : y.remoteAddr <;> simp [initAddr, h, hl, hr]

/-- A member that was `NULL` shows the name if it is short, another one if it did before. -/
lemma read_getD_iff (s : SockAddrIn) (addr : Option CharArray) :
    (addr.getD (writeAddress s (.unset 22))).read = some s.text ∧
        (writeAddress s (.ofText 22 "INVALID".toList)).read = some s.text ↔
      s.Short ∧ Fresh addr s := by
  rw [read_invalid_iff, and_comm]
  cases addr with
  | none => simp [Fresh, read_unset_iff]
  | some array => simp [Fresh]

/-- **An endpoint is shown as it is if its text has at most fifteen characters**, in a connection
that has not shown another one before. -/
theorem endpoints_right_iff (n : Names) {y : AddressedConnection} (h : y.connected = true) :
    (LocalRight n y ↔
        (n.sockname y.socket).Short ∧ Fresh y.localAddr (n.sockname y.socket)) ∧
      (RemoteRight n y ↔
        (n.peername y.socket).Short ∧ Fresh y.remoteAddr (n.peername y.socket)) := by
  constructor
  · rw [← read_getD_iff, LocalRight, AddressedConnection.localEndpoint, initAddr_localAddr h]
    rfl
  · rw [← read_getD_iff, RemoteRight, AddressedConnection.remoteEndpoint, initAddr_remoteAddr h]
    rfl

/-- A connection of `handle_new_connection`, whose socket has these names. -/
def newAddressed (v : SOCKET) (c : ContextPtr) : AddressedConnection where
  toTcpConnection := { TcpConnection.new v (some c) none with connected := true }
  localAddr := none
  remoteAddr := none

/-- A server in a private network, and its client. -/
def serverNames (port : BitVec 16) : Names where
  sockname _ := ⟨192, 168, 1, 7, port⟩
  peername _ := ⟨10, 0, 0, 1, 5000⟩

theorem endpoints_right_http :
    LocalRight (serverNames 80) (newAddressed 5 0) ∧
      RemoteRight (serverNames 80) (newAddressed 5 0) :=
  have hends := endpoints_right_iff (serverNames 80) (y := newAddressed 5 0) rfl
  ⟨hends.1.mpr ⟨by decide, nofun⟩, hends.2.mpr ⟨by decide, nofun⟩⟩

/-- `192.168.1.7:8080` has sixteen characters. -/
theorem endpoint_unset : ¬ ∀ (n : Names) (y : AddressedConnection), y.connected = true →
    y.localAddr = none → y.remoteAddr = none → LocalRight n y ∧ RemoteRight n y := by
  intro h
  have hunset : (initAddr (serverNames 8080) (newAddressed 5 0)).localEndpoint = none := by decide
  have hright := (h (serverNames 8080) (newAddressed 5 0) rfl rfl rfl).1.1
  rw [hunset] at hright
  cases hright

end Alpl.Net
