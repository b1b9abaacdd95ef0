import Kierki.Lib.Threads
import Kierki.Process.MainThread

/-!
# What the two threads of the client share

The mutex, the queue of the cards typed and the two pipes, with what a call of either thread does to
them; a call fails when it likes. The rest of the memory is a history that no call reads: the cards typed
and taken off the queue, the lines read and written, and the end of each thread.

A pipe is the list of the messages in it, each of one character.
-/

namespace Kierki.Process

open Lib.Calls Lib.Threads Mutexes

inductive Tid
  | main | worker
  deriving DecidableEq

structure Memory where
  /-- The thread that holds `access_mutex`. -/
  holder : Option Tid := none
  messagesToSend : List Text := []
  /-- `client_write_pipe` -/
  toWorker : List Text := []
  /-- `client_read_pipe` -/
  toMain : List Text := []
  /-- The ends of the pipes that are closed, the last one first. -/
  closed : List PipeEnd := []
  /-- The worker has returned from `handle_client`. -/
  finished : Bool := false
  /-- A call of the main thread failed, or `poll` reported an error of the standard input. -/
  failed : Bool := false
  /-- The cards put on the queue. -/
  typed : List Text := []
  /-- The cards taken off the queue. -/
  taken : List Text := []
  /-- The bytes read of cards that are still on the queue. -/
  announced : ℕ := 0
  /-- The results of `read_from_socket`. -/
  read : List (ℤ × Text) := []
  /-- The lines `write_to_socket` was given. -/
  written : List Text := []
  /-- What the worker told the main thread as it ended. -/
  said : Option Text := none

/-- What the threads of a client have to call: the worker marks its end. -/
inductive WorkerCall
  | of (c : Call)
  | finish

@[reducible] def WorkerCall.Answer : WorkerCall → Type
  | of c => c.Answer
  | finish => Unit

/-- `front` and `pop`. On an empty queue they are not defined, and anything may be answered. -/
def Memory.pop (s : Memory) (card : Text) : Option Memory :=
  if s.messagesToSend = [] ∨ s.messagesToSend.head? = some card then
    some { s with
      messagesToSend := s.messagesToSend.tail
      taken := s.taken ++ [card]
      announced := s.announced - 1 }
  else none

/-- What a call of the worker does, `none` for an answer that it cannot have. -/
def workerAct (s : Memory) : (c : WorkerCall) → c.Answer → Option Memory
  | .of (.lock _), _ => if s.holder = none then some { s with holder := some .worker } else none
  | .of (.unlock _), _ => some { s with holder := none }
  | .of .poll, polled => if polled.pipeIn = true ∧ s.toWorker = [] then none else some s
  | .of .readPipe, (result, message) =>
    if result ≤ 0 then some s
    else if result = 1 ∧ s.toWorker.head? = some message then
      some { s with
        toWorker := s.toWorker.tail
        announced := if message = cardPlay then s.announced + 1 else s.announced }
    else none
  | .of .readSocket, answer => some { s with read := s.read ++ [answer] }
  | .of (.writeSocket message), _ => some { s with written := s.written ++ [message] }
  | .of (.writePipe message), result =>
    if result ≤ 0 then some { s with said := some message }
    else if result = 1 then some { s with toMain := s.toMain ++ [message], said := some message }
    else none
  | .of .front, card => s.pop card
  | .finish, _ => some { s with finished := true }
  | .of .setsockopt, _ | .of (.close _), _ | .of (.cout _), _ | .of (.cerr _), _
  | .of .shared, _ | .of (.change _), _ | .of .iterators, _ => some s

/-- What a call of the main thread does, `none` for an answer that it cannot have. -/
def mainAct (s : Memory) : (c : MainCall) → c.Answer → Option Memory
  | .poll, polled =>
    if polled.pipeIn = true ∧ s.toMain = [] then none
    else some { s with failed := s.failed || polled.result ≤ 0 || polled.stdinErr }
  | .lock, _ => if s.holder = none then some { s with holder := some .main } else none
  | .unlock, _ => some { s with holder := none }
  | .push card, _ =>
    some { s with messagesToSend := s.messagesToSend ++ [card], typed := s.typed ++ [card] }
  | .writePipe buffer, result =>
    if result ≤ 0 then some { s with failed := true }
    else if result = 1 then some { s with toWorker := s.toWorker ++ [buffer] }
    else none
  | .notify buffer, result =>
    if result ≤ 0 then some { s with failed := true }
    else if result = 1 then some { s with toMain := s.toMain ++ [buffer] }
    else none
  | .readPipe, (result, message) =>
    if result ≤ 0 then some { s with failed := true }
    else if result = 1 ∧ s.toMain.head? = some message then some { s with toMain := s.toMain.tail }
    else none
  | .join, what =>
    if what ≠ none then some { s with failed := true }
    else if s.finished = true then some s else none
  | .close e, _ => some { s with closed := e :: s.closed }
  | .getline, _ | .myCards, _ | .takenTricks, _ | .cout _, _ | .cerr _, _ => some s

/-! ### Both threads -/

@[reducible] def Tid.Call : Tid → Type
  | main => MainCall
  | worker => WorkerCall

@[reducible] def Tid.Answer : (i : Tid) → i.Call → Type
  | main => MainCall.Answer
  | worker => WorkerCall.Answer

/-- What the functions of the threads return. -/
@[reducible] def Tid.Result : Tid → Type
  | main => ℤ
  | worker => Unit

def act : (i : Tid) → Memory → (c : i.Call) → i.Answer c → Option Memory
  | .main => mainAct
  | .worker => workerAct

/-- The thread that runs `handle_client`. -/
def worker (socketFd : ℤ) (fuel : ℕ) (k : Klient) : Prog WorkerCall WorkerCall.Answer Unit PUnit := do
  Prog.returned (embed .of (fun _ => .refl _) (handleClient socketFd fuel k >>= fun _ => pure ()))
  Prog.ask WorkerCall.finish

/-- What the two threads have to do. -/
def progs (socketFd : ℤ) (mainFuel workerFuel : ℕ) (k : Klient) :
    (i : Tid) → Prog i.Call i.Answer i.Result PUnit
  | .main => runClient k.isAi mainFuel
  | .worker => worker socketFd workerFuel k

/-- A state of the client program. -/
abbrev Client := Config Tid.Call Tid.Answer Tid.Result (fun _ => PUnit) Memory

/-- **The client, as `prepare_client` leaves it.** The fields are those of the constructor. -/
def client (socketFd : ℤ) (mainFuel workerFuel : ℕ) (seat : Seat) (isAi : Bool) : Client where
  shared := {}
  progs := progs socketFd mainFuel workerFuel { seat := seat, isAi := isAi }

end Kierki.Process
