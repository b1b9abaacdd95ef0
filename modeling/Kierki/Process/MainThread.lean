import Kierki.Mutexes.Worker

/-!
# The main thread of the client

`run_client` as a program over its calls, as `Kierki.Mutexes.Worker` has `handle_client`. It polls the
pipe of the worker and, for a user, the standard input: a line that begins with `!` is a card, which is
put on `messages_to_send` with a byte to the worker, and the other lines ask for the cards or the tricks.

`prepare_client`, which makes the pipes, connects and starts the worker, is left out: the program starts
where both threads run.
-/

namespace Kierki.Process

open Lib.Calls Lib.Calls.Prog Mutexes

/-- The ends of the two pipes, `[0]` the one that is read. -/
inductive PipeEnd
  | clientReadPipe0 | clientReadPipe1 | clientWritePipe0 | clientWritePipe1
  deriving DecidableEq

/-- The calls of the main thread. -/
inductive MainCall
  | poll
  | getline
  | lock
  | unlock
  /-- `messages_to_send.push` -/
  | push (card : Text)
  | myCards
  | takenTricks
  | cout (text : Text)
  /-- `write_to_pipe` on `client_write_pipe[1]`, which the worker reads. -/
  | writePipe (buffer : Text)
  /-- `write_to_pipe` on `client_read_pipe[1]`, which this thread reads itself. -/
  | notify (buffer : Text)
  | readPipe
  | join
  | close (e : PipeEnd)
  | cerr (errorMessage : String)

/-- What `poll` says of the pipe and of the standard input. -/
structure MainPolled where
  result : ℤ
  pipeIn : Bool := false
  stdinIn : Bool := false
  stdinErr : Bool := false

/-- The answers; `join` answers with what it throws. -/
@[reducible] def MainCall.Answer : MainCall → Type
  | poll => MainPolled
  | getline => Text
  | myCards => List Text
  | takenTricks => List (List Text)
  | writePipe _ | notify _ => ℤ
  | readPipe => ℤ × Text
  | join => Option String
  | lock | unlock | push _ | cout _ | close _ | cerr _ => Unit

/-- The body of a function that returns a `ρ`. -/
abbrev MainProc (ρ α : Type) := Prog MainCall MainCall.Answer ρ α

/-- `print_my_cards` -/
def printMyCards (myCards : List Text) : Text := printData myCards ++ ".\n".toList

/-- `print_my_tricks` -/
def printMyTricks (takenTricks : List (List Text)) : Text :=
  takenTricks.flatMap fun trick => printData trick ++ ['\n']

section Program

variable {ρ : Type}

/-- One call. -/
abbrev tell (c : MainCall) : MainProc ρ c.Answer := Prog.ask c

def closePipeSockets : MainProc ρ PUnit := do
  tell (.close .clientReadPipe0)
  tell (.close .clientReadPipe1)
  tell (.close .clientWritePipe0)
  tell (.close .clientWritePipe1)

/-- The `try` of `close_main_sockets`. -/
def joinWorker : MainProc ρ PUnit := do
  match ← tell .join with
  | none => return
  | some what => tell (.cerr what)

def closeMainSockets (result : ℤ) (errorMessage : String) : MainProc ρ PUnit := do
  if errorMessage ≠ "" then tell (.cerr errorMessage)
  if result = 1 then joinWorker
  closePipeSockets

/-- `close_main` notifies nobody when it is told to with `DISCONNECTED`. -/
def notifyWorker (fdMsg : Text) : MainProc ρ ℤ :=
  if fdMsg ≠ disconnected then tell (.notify fdMsg) else return 0

def closeMain (errorMessage : String) (fdMsg : Text) : MainProc ρ PUnit := do
  let pipeResult ← notifyWorker fdMsg
  if pipeResult ≠ 1 then tell (.cerr "Failed to notify worker.")
  tell (.cerr errorMessage)
  closeMainSockets pipeResult ""

/-- `assert_client_read_pipe`, `is_main` being set. -/
def assertMainReadPipe (result : ℤ) : MainProc ρ ℤ := do
  if result < 0 then
    closeMain "Failed to read from pipe." disconnected
    return -1
  else if result = 0 then
    closeMain "Client disconnected." disconnected
    return -1
  else return 0

/-- A card the user typed. -/
def typedCard (card : Text) : MainProc ℤ PUnit := do
  tell .lock
  tell (.push card)
  tell .unlock
  let pipeResult ← tell (.writePipe cardPlay)
  if (← assertMainReadPipe pipeResult) < 0 then exit (-1) else return

/-- Any other line of the user. -/
def command (message : Text) : MainProc ρ PUnit := do
  if message = "cards".toList then
    let cards ← tell .myCards
    tell (.cout (printMyCards cards))
  else if message = "tricks".toList then
    let tricks ← tell .takenTricks
    tell (.cout (printMyTricks tricks))
  else tell (.cout "Wrong command.\n".toList)

/-- The part of a turn on the standard input, which is not polled for an AI client. -/
def stdinPart (isAi : Bool) (polled : MainPolled) : MainProc ℤ PUnit := do
  if isAi = false ∧ polled.stdinIn then
    let message ← tell .getline
    if substr message 0 1 = ['!'] then typedCard (substr message 1 (message.length - 1))
    else
      tell .lock
      command message
      tell .unlock
  else return

/-- The part of a turn on the pipe of the worker. For an AI client the events of the standard input are
those set before `poll`, none. -/
def pipePart (isAi : Bool) (polled : MainPolled) : MainProc ℤ PUnit := do
  if polled.pipeIn then
    let (pipeResult, message) ← tell .readPipe
    if (← assertMainReadPipe pipeResult) < 0 then exit 1
    else if message = serverDisconnect ∨ message = disconnected ∨ message = normalEnd then
      closeMainSockets pipeResult ""
      exit (if message = normalEnd then 0 else 1)
    else
      closeMain "Wrong message from worker." disconnected
      exit 1
  else if isAi = false ∧ polled.stdinErr then
    closeMainSockets 1 "WORKER_POLLERR"
    exit 1
  else return

/-- One turn of the loop of `run_client`. -/
def mainTurn (isAi : Bool) : MainProc ℤ PUnit := do
  let polled ← tell .poll
  if polled.result ≤ 0 then
    closeMain "Failed to poll in main client." disconnected
    exit 1
  else
    stdinPart isAi polled
    pipePart isAi polled

/-- **`run_client`**, both threads running. -/
def runClient (isAi : Bool) (fuel : ℕ) : MainProc ℤ PUnit :=
  loop (fun _ => true) (fun _ => mainTurn isAi) fuel ⟨⟩

end Program

end Kierki.Process
