import Alpl.Properties.LifeCycle
import Alpl.Sessions.Keys
import Alpl.Sessions.Model

/-!
# What the sessions stand for

A connection object stands for a session: the bytes that have arrived are those on the stream of its
socket, those given are the ones passed to `onDataReceived`, and the session is told of where
`onDisconnected` was called with the object, and closed when its context is freed after that
(`Stands`).  `Represents` puts the sessions together, and the lemmas say what a move has to leave
alone for a session to go on standing for its connection.
-/

namespace Alpl.Net

open Interleaving Sessions

/-! ## What the user is shown -/

/-- The notice that an entry of the history is. -/
def Record.notice : Record → Option (Notice (Option ConnectionPtr) UInt8)
  | .callback _ .onConnected p data => some (.connected p data)
  | .callback _ .onDataReceived p data => some (.data p data)
  | .callback _ .onDisconnected p _ => some (.disconnected p)
  | _ => none

/-- What the user was shown of the connections, the newest first. -/
def State.shown (s : State) : List (Notice (Option ConnectionPtr) UInt8) :=
  s.history.filterMap Record.notice

lemma dataFor_of_notice {r : Record} {p : ConnectionPtr}
    (h : ∀ n, r.notice = some n → n.sender ≠ some p) :
    State.dataFor p r = [] ∧ r.about p = none := by
  cases r with
  | callback t k o data =>
      cases o <;> cases k <;>
        simp_all [Record.notice, Notice.sender, State.dataFor, Record.about]
  | _ => exact ⟨rfl, rfl⟩

/-! ## The relation -/

/-- The bytes of connection `p` arrive on the socket object `k`. -/
def Carries : Role → State → ConnectionPtr → SockId → Prop
  | .server, s, p, k => ∃ c, Server.MadeFor s p c ∧ Server.KeyOf s k c
  | .client, _, p, k => p = clientConnection ∧ k = 0

/-- The user was told that the peer of connection `p` has gone. -/
def Told (s : State) (p : ConnectionPtr) : Prop := .onDisconnected ∈ callbacksIn p s.history

/-- The context of connection `p` has been freed. -/
def ContextFreed (s : State) (p : ConnectionPtr) : Prop :=
  ∀ c, Server.MadeFor s p c → ¬ Server.Live s c

/-- Session `x` stands for connection `p`. -/
structure Stands (role : Role) (s : State) (p : ConnectionPtr) (x : Session UInt8) : Prop where
  arrived : ∃ k, Carries role s p k ∧ x.arrived = (s.sockets k).stream
  given : x.given = s.delivered p
  live : x.phase = .live ↔ ¬ Told s p
  closed : x.phase = .closed ↔ Told s p ∧ ContextFreed s p

/-- The sessions stand for the connection objects. -/
structure Represents (role : Role) (s : State) (σ : Table ConnectionPtr UInt8) : Prop where
  absent : ∀ p, σ p = none ↔ s.tcpConnections p = none
  present : ∀ p x, σ p = some x → Stands role s p x

/-! ## Moves that leave a session alone -/

/-- What a move leaves alone of connection `p`. -/
structure SameSession (role : Role) (s s' : State) (p : ConnectionPtr) : Prop where
  object : s'.tcpConnections p = s.tcpConnections p
  carries : ∀ k, Carries role s p k →
    Carries role s' p k ∧ (s'.sockets k).stream = (s.sockets k).stream
  delivered : s'.delivered p = s.delivered p
  told : Told s' p ↔ Told s p
  released : Told s p → (ContextFreed s' p ↔ ContextFreed s p)

variable {role : Role} {s s' : State} {σ : Table ConnectionPtr UInt8} {p : ConnectionPtr}
variable {x : Session UInt8}

lemma Stands.same (h : Stands role s p x) (hs : SameSession role s s' p) : Stands role s' p x where
  arrived := by
    obtain ⟨k, hk, hx⟩ := h.arrived
    obtain ⟨hk', hstream⟩ := hs.carries k hk
    exact ⟨k, hk', hx.trans hstream.symm⟩
  given := h.given.trans hs.delivered.symm
  live := by rw [h.live, hs.told]
  closed := by
    rw [h.closed, hs.told]
    exact and_congr_right fun ht => (hs.released ht).symm

/-- All sessions go on. -/
lemma Represents.same (h : Represents role s σ) (hs : ∀ p, SameSession role s s' p) :
    Represents role s' σ where
  absent p := by rw [h.absent p, (hs p).object]
  present p x hx := (h.present p x hx).same (hs p)

/-- All sessions but one go on. -/
lemma Represents.update (h : Represents role s σ) (hs : ∀ q, q ≠ p → SameSession role s s' q)
    (hobject : s'.tcpConnections p ≠ none) (hx : Stands role s' p x) :
    Represents role s' (Function.update σ p (some x)) where
  absent q := by
    by_cases hq : q = p
    · subst hq
      simp [hobject]
    · rw [Function.update_of_ne hq, h.absent q, (hs q hq).object]
  present q y hy := by
    by_cases hq : q = p
    · subst hq
      rw [Function.update_self] at hy
      exact Option.some.inj hy ▸ hx
    · rw [Function.update_of_ne hq] at hy
      exact (h.present q y hy).same (hs q hq)

/-- A session stands for a connection object, and for nothing else. -/
lemma Represents.exists_session (h : Represents role s σ) (hp : s.tcpConnections p ≠ none) :
    ∃ x, σ p = some x ∧ Stands role s p x := by
  have hne : σ p ≠ none := fun hn => hp ((h.absent p).mp hn)
  obtain ⟨x, hx⟩ := Option.ne_none_iff_exists'.mp hne
  exact ⟨x, hx, h.present p x hx⟩

/-- Before anybody has connected. -/
lemma represents_init (u : Setup) : Represents .server (State.init u) Table.empty where
  absent _ := ⟨fun _ => rfl, fun _ => rfl⟩
  present _ _ h := by cases h

/-! ## What the history leaves alone -/

variable {u : Setup} {t : Tid} {a : Action} {o : Outcome}

/-- The histories tell the same of connection `p`. -/
structure SameStory (s s' : State) (p : ConnectionPtr) : Prop where
  delivered : s'.delivered p = s.delivered p
  told : Told s' p ↔ Told s p

lemma sameStory_of_history (h : s'.history = s.history) (p : ConnectionPtr) :
    SameStory s s' p := by
  constructor
  · rw [State.delivered, State.delivered, h]
  · rw [Told, Told, h]

lemma sameStory_of_record {r : Record} (h : s'.history = r :: s.history)
    (hr : ∀ n, r.notice = some n → n.sender ≠ some p) : SameStory s s' p := by
  obtain ⟨hdata, habout⟩ := dataFor_of_notice hr
  constructor
  · simp [State.delivered, h, State.deliveredIn, hdata]
  · simp [Told, h, callbacksIn, habout]

/-- The actions that call the user, but for the completion of a send. -/
def Action.notifies : Action → Bool
  | .invokeHandler _ _ _ => true
  | .invokeConnection _ k _ _ => k ≠ .onSentCompleted
  | _ => false

/-- The other actions tell nothing and show nothing. -/
lemma quiet_of_exec {r : a.Res} (ha : a.notifies = false) (he : exec t a o s = some (r, s')) :
    s'.shown = s.shown ∧ ∀ p, SameStory s s' p := by
  rcases (exec_effect _ he).history with h | ⟨rec, hrec, h⟩
  · exact ⟨by rw [State.shown, State.shown, h], sameStory_of_history h⟩
  · have hnone : rec.notice = none := by
      cases hrec with
      | handler k q data => cases ha
      | connection q k p data => cases k <;> simp_all [Action.notifies, Record.notice]
      | _ => rfl
    refine ⟨?_, fun p => sameStory_of_record h fun n hn => ?_⟩
    · rw [State.shown, State.shown, h, List.filterMap_cons_none hnone]
    · rw [hnone] at hn
      cases hn

/-- A call of a callback leaves its notice, and the memory as it is; an empty one leaves none. -/
lemma history_of_invoke {kind : CallbackKind} {q : Option ConnectionPtr} {data : List UInt8}
    {b r : Bool} (he : exec.invoke t kind q data b s = (r, s')) :
    (b = true ∧ s'.history = .callback t kind q data :: s.history) ∨
      s'.history = .emptyCall t kind :: s.history := by
  cases b <;> cases he
  · exact .inr rfl
  · exact .inl ⟨rfl, rfl⟩

/-- Connection objects are made by one action. -/
lemma objects_of_exec {r : a.Res} (he : exec t a o s = some (r, s'))
    (ha : ∀ y, a ≠ .newConnection y) : s'.tcpConnections = s.tcpConnections := by
  rcases (exec_effect _ he).objects with ⟨h, -⟩ | ⟨y, rfl, -⟩
  · exact h
  · exact absurd rfl (ha y)

/-- The stream of a socket object that exists changes by the network only. -/
lemma stream_of_exec {r : a.Res} {k : SockId} (hk : a = .wsaSocket → k ≠ s.nextSock)
    (he : exec t a o s = some (r, s')) : (s'.sockets k).stream = (s.sockets k).stream := by
  have hupdate : ∀ j (y : SocketObject), y.stream = (s.sockets j).stream →
      (Function.update s.sockets j y k).stream = (s.sockets k).stream := by
    intro j y hy
    by_cases hj : k = j
    · rw [hj, Function.update_self, hy]
    · rw [Function.update_of_ne hj]
  by_cases hr : a.reads = true
  · rw [(exec_sameMemory hr _ he).sockets]
  cases a <;> first
    | exact absurd rfl hr
    | (cases o <;> cases he <;> rfl)
    | skip
  case freeContext c => obtain ⟨x, -, rfl⟩ := exec_freeContext he; rfl
  case setSocket c v => obtain ⟨x, -, rfl⟩ := exec_setSocket he; rfl
  case setLastOperation c op => obtain ⟨x, -, rfl⟩ := exec_setLastOperation he; rfl
  case setSocketAccept c v => obtain ⟨x, -, rfl⟩ := exec_setSocketAccept he; rfl
  case setSentBytes c n => obtain ⟨x, -, rfl⟩ := exec_setSentBytes he; rfl
  case indexConnection v => obtain ⟨-, rfl⟩ | ⟨-, -, rfl⟩ := exec_indexConnection he <;> rfl
  case listen v n =>
    obtain ⟨-, j, -, rfl⟩ | ⟨-, rfl⟩ := exec_listen he
    · exact hupdate j _ rfl
    · rfl
  case wsaSocket =>
    obtain ⟨-, -, rfl⟩ | ⟨-, rfl⟩ := exec_wsaSocket he
    · exact congrArg SocketObject.stream (Function.update_of_ne (hk rfl) _ _)
    · rfl
  case createIoCompletionPort v port c =>
    obtain ⟨-, j, -, -, rfl⟩ | ⟨-, rfl⟩ := exec_createIoCompletionPort he
    · exact hupdate j _ rfl
    · rfl
  case acceptEx ls v c len =>
    obtain ⟨-, ⟨kl, ka, -, -, -, rfl⟩ | rfl⟩ := exec_acceptEx he <;> rfl
  case wsaRecv v c len => obtain ⟨-, j, -, rfl⟩ | ⟨-, rfl⟩ := exec_wsaRecv he <;> rfl
  case wsaSend v c data => obtain ⟨-, j, -, rfl⟩ | ⟨-, rfl⟩ := exec_wsaSend he <;> rfl
  case getQueuedCompletionStatus q =>
    obtain ⟨rest, -, rfl⟩ := exec_getQueuedCompletionStatus he
    rfl

end Alpl.Net
