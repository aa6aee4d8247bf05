import Alpl.Interleaving.CriticalSection
import Alpl.Interleaving.Linearization
import Alpl.Interleaving.Machine

/-!
# `blocking_queue`

`containers/impl/BlockingQueue.hpp` with the parts of `threading/threading.h` it uses, statement by
statement, for both versions of Windows that the source distinguishes: with condition variables
(`_WIN32_WINNT > _WIN32_WINNT_WINXP`), and with auto-reset events.

A signal knows the threads that wait for it (`waiting`) and those it has released from their wait
and that have not looked at the queue since (`released`).  An event is also set or not; setting it
releases one thread if any waits, and setting an event that is set does nothing.

The last fields of `State` are bookkeeping of the run: how often the threads have entered and left
`sync_`, which events they are about to wait for, what waits for events answered, whether a signal
was merged with one before it, what was pushed and popped, and what the clients have seen.
-/

namespace Alpl.Containers

open Interleaving

/-! ## Data -/

/-- Which of the two versions is compiled. -/
inductive Path
  | conditionVariable
  | event
  deriving DecidableEq, Repr

/-- The members `queue_is_full` and `queue_is_empty`. -/
inductive Signal
  | queueIsFull
  | queueIsEmpty
  deriving DecidableEq, Repr

abbrev Tid := ℕ

/-- `long milliseconds`, as the wait functions of Windows take it. -/
abbrev Milliseconds := BitVec 32

/-- `INFINITE`. -/
def infinite : Milliseconds := 0xFFFFFFFF#32

/-- How a wait ended. -/
inductive WaitResult
  | signaled
  | timeout
  | failed
  deriving DecidableEq, Repr

/-- A call of a client. -/
inductive Op (T : Type)
  | push (item : T)
  | pop
  deriving DecidableEq, Repr

/-- What a call answers, and what it has left in its reference argument, if anything. -/
structure Answer (T : Type) where
  ok : Bool
  item : Option T
  deriving DecidableEq, Repr

/-- One atomic step of a thread. -/
inductive Action (T : Type)
  | enterCriticalSection
  /-- With the event that the thread is going to wait for, if any. -/
  | leaveCriticalSection (next : Option Signal)
  -- `q_`
  | size
  | pushBack (item : T)
  | front
  | popFront
  /-- Write to the argument `item` of a pop. -/
  | assign (x : T)
  -- condition variables: fall asleep and leave the critical section at once, and wake up
  | sleep (cv : Signal)
  | awake (cv : Signal) (ms : Milliseconds)
  | wakeConditionVariable (cv : Signal)
  -- events: begin to wait, unless the wait fails, and end
  | beginWait (ev : Signal)
  | endWait (ev : Signal) (ms : Milliseconds)
  | setEvent (ev : Signal)
  -- calls and returns of the queue's functions
  | call (op : Op T)
  | ret (ok : Bool)
  deriving DecidableEq

/-- What an action answers. -/
abbrev Action.Res {T : Type} : Action T → Type
  | .size => ℕ
  | .front => T
  | .awake _ _ => WaitResult
  | .beginWait _ => Bool
  | .endWait _ _ => WaitResult
  | _ => Unit

/-- Everything the threads share. -/
structure State (T : Type) where
  q : List T
  sync : CriticalSection Tid
  waiting : Signal → List Tid
  released : Signal → List Tid
  isSet : Signal → Bool
  -- the argument `item` of the call a thread is in, once it was written
  item : Tid → Option T
  -- the run
  entered : Tid → ℕ
  left : Tid → ℕ
  leaving : Signal → List Tid
  waits : List (Tid × WaitResult)
  merged : Signal → Bool
  pushed : List T
  popped : List T
  seen : Tid → Seen (Op T) (Answer T)
  history : List (ClientEvent Tid (Op T) (Answer T))

/-- What an action leaves open. -/
inductive Outcome
  | ok
  /-- The signal releases this thread. -/
  | release (u : Tid)
  | spurious
  | timeout
  | failed
  deriving DecidableEq, Repr

variable {T : Type}

/-! ## What the actions do -/

namespace State

/-- Which calls would fail now: a push if the queue is full, a pop if it is empty. -/
def refuses (max : ℕ) (s : State T) : Op T → Bool
  | .push _ => decide (max ≤ s.q.length)
  | .pop => s.q.isEmpty

/-- A thread looks at the queue; if its call would fail now, that is kept. -/
def look (max : ℕ) (s : State T) (t : Tid) : Seen (Op T) (Answer T) :=
  match s.seen t with
  | .called op => if s.refuses max op then .missed op ⟨false, none⟩ else .called op
  | .missed op a => if s.refuses max op then .missed op ⟨false, none⟩ else .missed op a
  | x => x

/-- The call of thread `t` takes effect. -/
def finish (s : State T) (t : Tid) : Seen (Op T) (Answer T) :=
  match s.seen t with
  | .called op => .done op ⟨true, s.item t⟩
  | .missed op _ => .done op ⟨true, s.item t⟩
  | x => x

/-- Thread `u`, which waits for `sig`, is released. -/
def release (s : State T) (sig : Signal) (u : Tid) : State T :=
  { s with
    waiting := Function.update s.waiting sig ((s.waiting sig).erase u)
    released := Function.update s.released sig (u :: s.released sig) }

/-- Thread `t` has entered `sync_`, which is now `cs`. -/
def enter (s : State T) (t : Tid) (cs : CriticalSection Tid) : State T :=
  { s with sync := cs, entered := Function.update s.entered t (s.entered t + 1) }

/-- Thread `t` has left `sync_`, which is now `cs`. -/
def leave (s : State T) (t : Tid) (cs : CriticalSection Tid) : State T :=
  { s with sync := cs, left := Function.update s.left t (s.left t + 1) }

/-- Thread `t` gives up waiting for `sig`. -/
def giveUp (s : State T) (sig : Signal) (t : Tid) : State T :=
  { s with waiting := Function.update s.waiting sig ((s.waiting sig).erase t) }

end State

/-- One action, with one outcome. -/
def exec (max : ℕ) (t : Tid) :
    (a : Action T) → Outcome → State T → Option (a.Res × State T)
  | .enterCriticalSection, .ok, s => (s.sync.enter t).map fun cs => ((), s.enter t cs)
  | .leaveCriticalSection next, .ok, s =>
    (s.sync.leave t).map fun cs => ((), { s.leave t cs with
      leaving := fun sig => if next = some sig then t :: s.leaving sig else s.leaving sig })
  | .size, .ok, s =>
    some (s.q.length, { s with
      released := fun sig => (s.released sig).erase t
      seen := Function.update s.seen t (s.look max t) })
  | .pushBack x, .ok, s =>
    some ((), { s with
      q := s.q ++ [x]
      pushed := s.pushed ++ [x]
      seen := Function.update s.seen t (s.finish t) })
  -- `front` and `pop_front` of an empty deque have no meaning
  | .front, .ok, s =>
    match s.q with
    | [] => none
    | x :: _ => some (x, s)
  | .assign x, .ok, s => some ((), { s with item := Function.update s.item t (some x) })
  | .popFront, .ok, s =>
    match s.q with
    | [] => none
    | _ :: q => some ((), { s with
        q := q
        popped := s.popped ++ (s.item t).toList
        seen := Function.update s.seen t (s.finish t) })
  -- one sleeper wakes up, if there is one
  | .wakeConditionVariable cv, .ok, s => if s.waiting cv = [] then some ((), s) else none
  | .wakeConditionVariable cv, .release u, s =>
    if u ∈ s.waiting cv then some ((), s.release cv u) else none
  | .sleep cv, .ok, s =>
    (s.sync.leave t).map fun cs => ((), { s.leave t cs with
      waiting := Function.update s.waiting cv (t :: s.waiting cv) })
  | .awake cv _, .ok, s => if t ∈ s.released cv then some (.signaled, s) else none
  | .awake cv _, .spurious, s =>
    if t ∈ s.waiting cv then some (.signaled, s.giveUp cv t) else none
  | .awake cv ms, .timeout, s =>
    if t ∈ s.waiting cv ∧ ms ≠ infinite then some (.timeout, s.giveUp cv t) else none
  | .awake cv _, .failed, s => if t ∈ s.waiting cv then some (.failed, s.giveUp cv t) else none
  -- an event that is set lets one thread pass and is unset by that
  | .beginWait ev, .ok, s =>
    some (true, if s.isSet ev then
        { s with
          leaving := Function.update s.leaving ev ((s.leaving ev).erase t)
          isSet := Function.update s.isSet ev false
          released := Function.update s.released ev (t :: s.released ev) }
      else
        { s with
          leaving := Function.update s.leaving ev ((s.leaving ev).erase t)
          waiting := Function.update s.waiting ev (t :: s.waiting ev) })
  | .beginWait ev, .failed, s =>
    some (false, { s with
      leaving := Function.update s.leaving ev ((s.leaving ev).erase t)
      waits := (t, .failed) :: s.waits })
  | .endWait ev _, .ok, s => if t ∈ s.released ev then some (.signaled, s) else none
  | .endWait ev ms, .timeout, s =>
    if t ∈ s.waiting ev ∧ ms ≠ infinite then
      some (.timeout, { s.giveUp ev t with waits := (t, .timeout) :: s.waits })
    else none
  | .setEvent ev, .ok, s =>
    if s.waiting ev = [] then
      some ((), { s with
        isSet := Function.update s.isSet ev true
        merged := Function.update s.merged ev
          (s.merged ev || (s.isSet ev && decide (2 ≤ (s.leaving ev).length))) })
    else none
  | .setEvent ev, .release u, s =>
    if u ∈ s.waiting ev then some ((), s.release ev u) else none
  | .call op, .ok, s =>
    some ((), { s with
      item := Function.update s.item t none
      seen := Function.update s.seen t (.called op)
      history := .call t op :: s.history })
  | .ret ok, .ok, s =>
    some ((), { s with
      seen := Function.update s.seen t .idle
      history := .ret t ⟨ok, s.item t⟩ :: s.history })
  | _, _, _ => none

/-! ## The programs -/

/-- Programs over the actions of the queue. -/
abbrev P (T : Type) := Prog (Action T) Action.Res

abbrev act (a : Action T) : P T a.Res := Prog.perform a

/-- The pieces of code a thread can enter. -/
inductive Label (T : Type)
  | tryPushBack (item : T) (ms : Milliseconds)
  | tryPopFront (ms : Milliseconds)
  /-- The `while` of `try_push_back`. -/
  | pushLoop (item : T) (ms : Milliseconds)
  /-- The `while` of `try_pop_front`. -/
  | popLoop (ms : Milliseconds)
  deriving DecidableEq

/-- `push_back`, which drops what `try_push_back` returns. -/
def pushBack (item : T) : Label T := .tryPushBack item infinite

/-- `pop_front`, which drops what `try_pop_front` returns. -/
def popFront : Label T := .tryPopFront infinite

/-- `cond_wake`. -/
def condWake : Path → Signal → P T Unit
  | .conditionVariable, cv => act (.wakeConditionVariable cv)
  | .event, ev => act (.setEvent ev)

/-- The body of the loop; it answers whether the loop goes on.  With an event, only a signalled wait
enters the critical section again. -/
def waitTurn (path : Path) (sig : Signal) (ms : Milliseconds) : P T Bool :=
  match path with
  | .conditionVariable => do
    act (.sleep sig)
    let r ← act (.awake sig ms)
    act .enterCriticalSection
    match r with
    | .timeout => return false
    | _ => return true
  | .event => do
    act (.leaveCriticalSection (some sig))
    let begun ← act (.beginWait sig)
    if begun then do
      let r ← act (.endWait sig ms)
      match r with
      | .timeout => return false
      | _ => do
        act .enterCriticalSection
        return true
    else return true

/-- The destructor of `sync_t`, and the `return`. -/
def leaveAndReturn (ok : Bool) : P T (Option (Label T)) := do
  act (.leaveCriticalSection none)
  act (.ret ok)
  return none

/-- `try_push_back` from its `while` on. -/
def pushLoop (path : Path) (max : ℕ) (item : T) (ms : Milliseconds) : P T (Option (Label T)) := do
  let n ← act .size
  if max ≤ n then do
    let again ← waitTurn path .queueIsFull ms
    if again then return some (.pushLoop item ms) else leaveAndReturn false
  else do
    act (.pushBack item)
    condWake path .queueIsEmpty
    leaveAndReturn true

/-- `try_pop_front` from its `while` on. -/
def popLoop (path : Path) (ms : Milliseconds) : P T (Option (Label T)) := do
  let n ← act .size
  if n = 0 then do
    let again ← waitTurn path .queueIsEmpty ms
    if again then return some (.popLoop ms) else leaveAndReturn false
  else do
    let x ← act .front
    act (.assign x)
    act .popFront
    condWake path .queueIsFull
    leaveAndReturn true

/-- The call of a function of the queue, up to its loop. -/
def enterQueue (op : Op T) (loop : Label T) : P T (Option (Label T)) := do
  act (.call op)
  act .enterCriticalSection
  return some loop

def code (path : Path) (max : ℕ) : Label T → P T (Option (Label T))
  | .tryPushBack item ms => enterQueue (.push item) (.pushLoop item ms)
  | .tryPopFront ms => enterQueue .pop (.popLoop ms)
  | .pushLoop item ms => pushLoop path max item ms
  | .popLoop ms => popLoop path ms

/-! ## The machine -/

/-- Any thread may call any function of the queue at any time. -/
def enter : Label T → State T → Option (State T)
  | .tryPushBack _ _, s => some s
  | .tryPopFront _, s => some s
  | _, _ => none

def machine (path : Path) (max : ℕ) :
    Machine (Action T) Action.Res (State T) Tid (Label T) Outcome Empty where
  exec := exec max
  env e := nomatch e
  enter _ := enter
  code := code path max

/-- A queue that holds `q₀` and that nobody uses. -/
def State.init (q₀ : List T) : State T where
  q := q₀
  sync := CriticalSection.free
  waiting := fun _ => []
  released := fun _ => []
  isSet := fun _ => false
  item := fun _ => none
  entered := fun _ => 0
  left := fun _ => 0
  leaving := fun _ => []
  waits := []
  merged := fun _ => false
  pushed := []
  popped := []
  seen := fun _ => .idle
  history := []

/-- What the constructor `blocking_queue(max_size)` puts into `q_`: `std::deque<T>(n)` holds `n`
default-constructed elements. -/
def constructed [Inhabited T] (max : ℕ) : List T := List.replicate max default

/-- The configuration is reached in some run from the contents `q₀`. -/
def Reachable (path : Path) (max : ℕ) (q₀ : List T)
    (G : Config (Action T) Action.Res (State T) Tid (Label T)) : Prop :=
  (machine path max).Reaches ⟨fun _ => .idle, State.init q₀⟩ G

/-! ## The bounded queue -/

/-- What the queue is for: calls take effect one at a time. -/
def boundedQueue (max : ℕ) : SeqObject (Op T) (Answer T) (List T) where
  step op q a q' :=
    match op with
    | .push x => q.length < max ∧ a = ⟨true, none⟩ ∧ q' = q ++ [x] ∨
        max ≤ q.length ∧ a = ⟨false, none⟩ ∧ q' = q
    | .pop => (∃ x, q = x :: q' ∧ a = ⟨true, some x⟩) ∨ q = [] ∧ a = ⟨false, none⟩ ∧ q' = q

end Alpl.Containers
