import Kierki.Common
import Kierki.Lib.Calls
import Kierki.Lib.Lts

/-!
# The server whose calls fail

The main thread and the connection thread of the server as programs over their calls, every one of
which may fail: `start_game`, `barrier`, `run_deal`, `run_game` and `close_server` with the two checks
of their pipes, and `handle_connections` with `setup_server_socket` and `close_thread`. What a call
answers is up to the system, and so is what the threads read of the shared data.

The critical sections that make no call are left out: nothing of them decides which call comes next,
but for `occupied` and `last_taker`, which are read here as answers; `MainSteps` shows that while no
call fails the program goes along with the machine, which has them. Of a seat thread only that it uses
its ends of the pipes and the standard output is kept.
-/

namespace Kierki.Serwer.Failing

open Lib.Calls

/-! ### Descriptors and calls -/

theorem pipes_neZero : @NeZero ℕ Zero.ofOfNat0 5 := inferInstance

theorem ends_neZero : @NeZero ℕ Zero.ofOfNat0 2 := inferInstance

attribute [instance] pipes_neZero ends_neZero

/-- The descriptors, under the names of the variables that hold them. -/
inductive Fd
  | serverReadPipes (i : Fin 5) (e : Fin 2)
  | serverWritePipes (i : Fin 5) (e : Fin 2)
  /-- The listening socket. -/
  | serverFd
  /-- The descriptor `accept` returned for the thread `id`. -/
  | clientFd (id : ℕ)
  | stdout
  deriving DecidableEq

/-- The two flags of `revents` the sources look at. -/
structure Revents where
  pollin : Bool := false
  pollerr : Bool := false

/-- What `read_from_pipe` answers. -/
inductive Got
  | failed | endOfFile | char (c : Char)
  deriving DecidableEq

/-- The value `read_from_pipe` returns. -/
def Got.result : Got → ℤ
  | failed => -1
  | endOfFile => 0
  | char _ => 1

/-- The string `read_from_pipe` was given, afterwards: a character or nothing. -/
def Got.message : Got → Option Char
  | char c => some c
  | failed | endOfFile => none

/-- The functions that read a pipe or call `close_server`. -/
inductive Func
  | assertServerReadPipe | assertServerWritePipe | barrier | startGame | runDeal | runGame
  | handleConnections
  deriving DecidableEq

/-- The calls of the main thread and of the connection thread. `caller` is the function that makes the
call; the system does not see it. -/
inductive Call
  | pipe (ends : Fin 2 → Fd)
  /-- `thread(&Serwer::handle_connections, this)` -/
  | startThread
  | poll (fds : List Fd)
  | read (caller : Func) (fd : Fd)
  | write (fd : Fd) (c : Char)
  | close (fd : Fd)
  /-- `close_server` begins. -/
  | closeServer (caller : Func) (errorMessage : String)
  | joinConnections
  | joinClients
  | printError (message : String)
  /-- `occupied`, read under the mutex. -/
  | occupied
  /-- `last_taker`, read under the mutex. -/
  | lastTaker
  | readNextDeal
  | socket
  | setsockopt (fd : Fd)
  | bind (fd : Fd)
  | listen (fd : Fd)
  | accept (fd : Fd)
  /-- `thread(&Serwer::handle_client, …)` -/
  | startClient (id : ℕ)

/-- The answers. A call that only succeeds or fails answers whether it succeeded; the start and the join
of a thread answer with the text of the exception they throw, if they do. -/
@[reducible] def Call.Answer : Call → Type
  | poll _ => Option (Fd → Revents)
  | read _ _ => Got
  | write _ _ => ℤ
  | startThread | startClient _ | joinConnections => Option String
  | joinClients => List String
  | occupied => ℤ
  | lastTaker => Seat
  | pipe _ | readNextDeal | socket | setsockopt _ | bind _ | listen _
  | accept _ => Bool
  | close _ | closeServer _ _ | printError _ => Unit

/-- The descriptors a call works on. -/
def Call.fds : Call → List Fd
  | poll fds => fds
  | read _ fd | write fd _ | close fd | setsockopt fd | bind fd | listen fd | accept fd => [fd]
  | _ => []

/-- The descriptors a call closes. -/
def Call.closes : Call → List Fd
  | close fd => [fd]
  | _ => []

/-- The body of a function that returns a `ρ`. -/
abbrev Proc (ρ α : Type) := Prog Call Call.Answer ρ α

/-- `END`, the character that ends the connection thread. -/
def endByte : Char := 'f'

section Main

variable {ρ : Type}

open Prog (exit loop returned)

/-- One call. -/
abbrev ask (c : Call) : Proc ρ c.Answer := Prog.ask c

def write (fd : Fd) (c : Char) : Proc ρ ℤ := ask (.write fd c)

def printError (message : String) : Proc ρ PUnit := do
  let _ ← ask (.printError message)

def closeFds (fds : List Fd) : Proc ρ PUnit :=
  forM fds fun fd => do
    let _ ← ask (.close fd)

/-- The pipes of the seats. -/
def four : List (Fin 5) := [0, 1, 2, 3]

/-- The pipes of the seats and of the connection thread. -/
def five : List (Fin 5) := [0, 1, 2, 3, 4]

/-- The four descriptors of the pipes `i`. -/
def pipeFds (i : Fin 5) : List Fd :=
  [.serverReadPipes i 0, .serverReadPipes i 1, .serverWritePipes i 0, .serverWritePipes i 1]

/-! ### The main thread -/

/-- `close_server`. The exception for the write that fails is built and not thrown. -/
def closeServer (caller : Func) (errorMessage : String) : Proc ρ Bool := do
  let _ ← ask (.closeServer caller errorMessage)
  let _ ← write (.serverWritePipes 4 1) endByte
  let thrown ← ask .joinConnections
  forM thrown.toList printError
  let failed ← four.foldlM (fun failed i => do
    let pipeWrite ← write (.serverWritePipes i 1) Byte.disconnected.char
    if pipeWrite ≠ 1 then
      printError "Failed to notify thread on server close."
      return true
    else return failed) thrown.isSome
  let thrownByClients ← ask .joinClients
  forM thrownByClients printError
  forM five fun i => closeFds (pipeFds i)
  if errorMessage ≠ "" then
    printError errorMessage
    return true
  else return failed || !thrownByClients.isEmpty

def assertServerReadPipe (result : ℤ) : Proc ρ ℤ := do
  if result = 0 then
    let _ ← closeServer .assertServerReadPipe "Thread closed its pipes (illegal)."
    return 0
  else if result < 0 then
    let _ ← closeServer .assertServerReadPipe "Failed to read from server thread."
    return -1
  else return 1

def assertServerWritePipe (result : ℤ) : Proc ρ ℤ := do
  if result ≠ 1 then
    let _ ← closeServer .assertServerWritePipe "Failed to notify thread."
    return -1
  else return 0

/-- A byte to the thread of a seat, as `barrier` and `run_deal` write it. -/
def tell (b : Byte) (i : Fin 5) : Proc ℤ PUnit := do
  let pipeWrite ← write (.serverWritePipes i 1) b.char
  let result ← assertServerWritePipe pipeWrite
  if result < 0 then exit (-1) else pure ⟨⟩

/-- `close_server` and `return -1`. -/
def fail (caller : Func) (errorMessage : String) {α : Type} : Proc ℤ α := do
  let _ ← closeServer caller errorMessage
  exit (-1)

/-- `barrier`: the pipe `i` after a round of `poll`. -/
def barrierScan (revents : Fd → Revents) (i : Fin 5) : Proc ℤ PUnit := do
  if (revents (.serverReadPipes i 0)).pollin then
    let got ← ask (.read .barrier (.serverReadPipes i 0))
    let result ← assertServerReadPipe got.result
    if result ≤ 0 then exit (-1)
    else if got.message = some Byte.disconnected.char ∧ i = 4 then
      fail .barrier "Connection thread failed."
    else if got.message = some Byte.disconnected.char then tell .barrierResponse i
    else if got.message ≠ some Byte.barrierResponse.char ∧
        got.message ≠ some Byte.disconnected.char then
      fail .barrier "Invalid message in barrier poll."
    else pure ⟨⟩
  else if (revents (.serverReadPipes i 0)).pollerr then
    fail .barrier "Poll error in barrier poll."
  else pure ⟨⟩

/-- `barrier`: one round of the loop; the value is `waiting`. -/
def barrierRound (_waiting : ℤ) : Proc ℤ ℤ := do
  match ← ask (.poll (five.map fun i => .serverReadPipes i 0)) with
  | none => fail .barrier "Failed to poll while waiting for clients."
  | some revents =>
    forM five (barrierScan revents)
    let occupied ← ask .occupied
    return int16 (4 - occupied)

def barrier (fuel : ℕ) : Proc ρ ℤ := returned do
  forM four (tell .barrierResponse)
  let _ ← loop (fun waiting => decide (0 < waiting)) barrierRound fuel 4
  forM four (tell .barrierEnd)
  return 0

/-- The loop of `start_game` over the pipes; `made` are those that exist. -/
def makePipes (made : List (Fin 5)) (i : Fin 5) : Proc ℤ (List (Fin 5)) := do
  if ← ask (.pipe (.serverReadPipes i)) then
    if ← ask (.pipe (.serverWritePipes i)) then return made ++ [i]
    else
      printError "Failed to create pipes."
      closeFds [.serverReadPipes i 0, .serverReadPipes i 1]
      forM made fun j => closeFds (pipeFds j)
      exit 1
  else
    printError "Failed to create pipes."
    forM made fun j => closeFds (pipeFds j)
    exit 1

def startGame (fuel : ℕ) : Proc ρ ℤ := returned do
  let _ ← five.foldlM makePipes []
  match ← ask .startThread with
  | some what =>
    let _ ← closeServer .startGame what
    return 1
  | none =>
    let result ← barrier fuel
    if result < 0 then return 1 else return 0

/-- `run_deal`: the pipe `j` after a round of `poll`, in the wait for the card of the seat `player`. -/
def cardScan (fuel : ℕ) (player : Fin 5) (revents : Fd → Revents) (bReceivedCard : Bool) (j : Fin 5) :
    Proc ℤ Bool := do
  if (revents (.serverReadPipes j 0)).pollin then
    let got ← ask (.read .runDeal (.serverReadPipes j 0))
    let result ← assertServerReadPipe got.result
    if result < 0 then exit (-1)
    else if got.message = some Byte.cardPlay.char ∧ j = player then return true
    else if got.message = some Byte.disconnected.char then
      if j = 4 then
        let _ ← closeServer .runDeal "Connection thread failed."
        return bReceivedCard
      else
        let result ← barrier fuel
        if result < 0 then exit (-1) else return bReceivedCard
    else fail .runDeal "Invalid message in main game server poll from client thread."
  else if (revents (.serverReadPipes j 0)).pollerr then
    fail .runDeal "Poll error in main game server poll."
  else return bReceivedCard

/-- `run_deal`: one round of the wait for a card; the value is `b_received_card`. -/
def cardRound (fuel : ℕ) (player : Fin 5) (bReceivedCard : Bool) : Proc ℤ Bool := do
  match ← ask (.poll (five.map fun j => .serverReadPipes j 0)) with
  | none => fail .runDeal "Failed to poll while waiting for a card."
  | some revents => five.foldlM (cardScan fuel player revents) bReceivedCard

/-- `run_deal`: the turn of one seat. -/
def turn (fuel : ℕ) (beginning : Seat) (i : ℕ) : Proc ℤ PUnit := do
  let player : Fin 5 := Fin.ofNat 5 ((beginning.idx + i) % 4)
  tell .cardPlay player
  let _ ← loop (fun bReceivedCard => !bReceivedCard) (cardRound fuel player) fuel false

/-- `run_deal`: one trick. -/
def trick (fuel : ℕ) (_i : ℕ) : Proc ℤ PUnit := do
  let beginning ← ask .lastTaker
  forM [0, 1, 2, 3] (turn fuel beginning)
  forM four (tell .taken)
  let result ← barrier fuel
  if result < 0 then exit (-1) else pure ⟨⟩

def runDeal (fuel : ℕ) : Proc ρ ℤ := returned do
  forM four (tell .deal)
  forM (List.range 13) (trick fuel)
  forM four (tell .scores)
  let result ← barrier fuel
  if result < 0 then exit (-1) else return 0

/-- `run_game`: one deal, and whether there is another one. -/
def deal (fuel : ℕ) (_more : Bool) : Proc ℤ Bool := do
  let result ← runDeal fuel
  if result < 0 then exit 1 else ask .readNextDeal

def runGame (fuel : ℕ) : Proc ρ ℤ := returned do
  let more ← ask .readNextDeal
  let _ ← loop id (deal fuel) fuel more
  let failed ← closeServer .runGame ""
  return if failed then 1 else 0

/-- `main`, after the arguments are read. -/
def main (fuel : ℕ) : Proc ρ ℤ := do
  let result ← startGame fuel
  if result = 0 then runGame fuel else return 1

/-! ### The connection thread -/

/-- The connection thread reports to the main thread that it failed. -/
def report : Proc ρ PUnit := do
  let pipeWrite ← write (.serverReadPipes 4 1) Byte.disconnected.char
  if pipeWrite ≠ 1 then printError "Failed to notify server." else pure ⟨⟩

/-- `close_thread`, as the connection thread calls it. -/
def closeThread (errorMessage : String) (fds : List Fd) : Proc ρ PUnit := do
  if errorMessage ≠ "" then printError errorMessage else pure ⟨⟩
  report
  closeFds fds

/-- `assert_client_read_pipe`, as the connection thread calls it. -/
def assertClientReadPipe (result : ℤ) (fds : List Fd) : Proc ρ ℤ := do
  if result = 0 then
    closeThread "Server disconnected (pipe closed)." fds
    return -1
  else if result < 0 then
    closeThread "Failed to read from server pipe." fds
    return -1
  else return 0

/-- `setup_server_socket`: the descriptor, `none` for a negative one. Where an option is refused it
returns 1, and that is the standard output. -/
def setupServerSocket : Proc ρ (Option Fd) := returned do
  if !(← ask .socket) then exit none
  else if !(← ask (.setsockopt .serverFd)) then
    closeFds [.serverFd]
    exit (some .stdout)
  else if !(← ask (.setsockopt .serverFd)) then
    closeFds [.serverFd]
    exit (some .stdout)
  else if !(← ask (.bind .serverFd)) then
    closeFds [.serverFd]
    exit none
  else if !(← ask (.listen .serverFd)) then
    closeFds [.serverFd]
    exit none
  else return some .serverFd

/-- `handle_connections`: the listening socket after a round of `poll`; the value is `thread_id`. -/
def handleSocket (socketFd : Fd) (revents : Revents) (threadId : ℕ) : Proc PUnit ℕ := do
  if revents.pollin then
    if ← ask (.accept socketFd) then
      match ← ask (.startClient threadId) with
      | some what =>
        closeThread what [socketFd, .clientFd threadId]
        exit ⟨⟩
      | none => return threadId + 1
    else
      closeThread "Failed to accept connection." [socketFd]
      return threadId
  else if revents.pollerr then
    closeThread "Poll error on server socket." [socketFd]
    exit ⟨⟩
  else return threadId

/-- `handle_connections`: the pipe of the server after a round of `poll`. -/
def handleServer (socketFd : Fd) (revents : Revents) : Proc PUnit PUnit := do
  if revents.pollin then
    let got ← ask (.read .handleConnections (.serverWritePipes 4 0))
    let result ← assertClientReadPipe got.result [socketFd]
    if result < 0 then exit ⟨⟩
    else if got.message = some Byte.disconnected.char ∨ got.message = some endByte then
      closeFds [socketFd]
      exit ⟨⟩
    else
      printError "Server send invalid message."
      closeFds [socketFd]
      exit ⟨⟩
  else if revents.pollerr then
    closeThread "Poll error on server pipe." [socketFd]
    exit ⟨⟩
  else pure ⟨⟩

/-- `handle_connections`: one round of the loop; the value is `thread_id`. -/
def connectionsRound (socketFd : Fd) (threadId : ℕ) : Proc PUnit ℕ := do
  match ← ask (.poll [socketFd, .serverWritePipes 4 0]) with
  | none =>
    closeThread "Failed to poll." [socketFd]
    exit ⟨⟩
  | some revents =>
    let threadId ← handleSocket socketFd (revents socketFd) threadId
    handleServer socketFd (revents (.serverWritePipes 4 0))
    return threadId

def handleConnections (fuel : ℕ) : Proc ρ PUnit := returned do
  match ← setupServerSocket with
  | none => report
  | some socketFd =>
    let _ ← loop (fun _ => true) (connectionsRound socketFd) fuel 0

end Main

/-! ### The process -/

/-- The connection thread, as the main thread sees it. -/
inductive Connections
  | notStarted
  | running (p : Proc PUnit PUnit)
  | joined

/-- The process: its threads, and the calls made so far. -/
structure Process where
  main : Proc ℤ ℤ
  connections : Connections := .notStarted
  /-- How many seat threads are running. -/
  clients : ℕ := 0
  calls : List Call := []

def init (fuel : ℕ) : Process where
  main := main fuel

/-- A step: the next call of a thread, with what the system answers to it. -/
inductive Act
  | main (answer : (c : Call) → c.Answer)
  | connections (answer : (c : Call) → c.Answer)
  /-- A seat thread uses a descriptor. -/
  | client (fd : Fd)
  | clientEnds

/-- What a call of the main thread does to the other threads. A thread that runs is joined when it has
returned, and `join` throws where there is none to join. -/
def Process.afterMain (fuel : ℕ) (s : Process) : (c : Call) → c.Answer → Option Process
  | .startThread, none => some { s with connections := .running (handleConnections fuel) }
  | .joinConnections, none =>
    match s.connections with
    | .running (.done _) => some { s with connections := .joined }
    | _ => none
  | .joinConnections, some _ =>
    match s.connections with
    | .running _ => none
    | .notStarted | .joined => some s
  | .joinClients, _ => if s.clients = 0 then some s else none
  | _, _ => some s

/-- How many seat threads a call of the connection thread adds. -/
def started : (c : Call) → c.Answer → ℕ
  | .startClient _, none => 1
  | _, _ => 0

/-- The descriptors a seat thread shares with others. -/
def clientFds : List Fd :=
  .stdout :: four.flatMap fun i => [.serverReadPipes i 1, .serverWritePipes i 0]

def step (fuel : ℕ) (s : Process) : Act → Option Process
  | .main answer =>
    match s.main with
    | .call c k => (s.afterMain fuel c (answer c)).map fun s' =>
        { s' with main := k (answer c), calls := s.calls ++ [c] }
    | _ => none
  | .connections answer =>
    match s.connections with
    | .running (.call c k) => some { s with
        connections := .running (k (answer c))
        clients := s.clients + started c (answer c)
        calls := s.calls ++ [c] }
    | _ => none
  | .client fd =>
    if 0 < s.clients ∧ fd ∈ clientFds then some { s with calls := s.calls ++ [.poll [fd]] } else none
  | .clientEnds => if 0 < s.clients then some { s with clients := s.clients - 1 } else none

/-- The failures the sources survive. `run_deal` may not read the end of a pipe, or that the connection
thread failed; no connection and no option of the listening socket may be refused. -/
def counted : (c : Call) → c.Answer → Bool
  | .read caller fd, got => caller ≠ .runDeal ||
    (got ≠ .endOfFile && (fd ≠ .serverReadPipes 4 0 || got.message ≠ some Byte.disconnected.char))
  | .accept _, accepted => accepted
  | .setsockopt _, taken => taken
  | _, _ => true

end Kierki.Serwer.Failing
