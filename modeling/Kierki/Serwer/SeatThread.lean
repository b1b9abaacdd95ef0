import Kierki.Senders
import Kierki.Serwer.ParseMessage
import Kierki.Serwer.Shared

/-!
# The thread of one connection

`handle_client` as a machine: `reserve_spot`, then `client_poll` with `parse_message`, then
`close_thread`. A step is one critical section of `memory_mutex`, one read of the socket, one write
to the socket or to a pipe, or one `poll`. The byte a thread takes from its own pipe is read
together with the critical section that follows it, since no other thread reads that pipe. The
result of a system call comes from outside, as an `Outcome`.

Not modelled: the log on the terminal, the mutexes as objects, and descriptors other than the
client's; and the two `setsockopt` calls of `reserve_spot` before and after its first read, a failure
of which closes the connection as a failure of that read does.
-/

namespace Kierki.Serwer

open Kierki.Regex Kierki.Senders

/-- What the environment decides at a step: how a system call ends. -/
inductive Outcome
  /-- A critical section goes through, or a write or a read of the pipe succeeds. -/
  | tick
  /-- The call fails, or a write to the client is short, or `poll` reports an error. -/
  | fail
  /-- `read_from_socket` returns a line. -/
  | line (l : Text)
  /-- `read_from_socket` returns 0: the client closed the connection. -/
  | eof
  /-- `poll` returns after `passedMs`: is the socket readable, is the pipe readable. -/
  | ready (socket pipe : Bool) (passedMs : ℤ)
  /-- `poll` returns 0: the time is over. -/
  | expire
  deriving DecidableEq

/-- Where a thread goes on after `parse_message` returned 0. -/
inductive After
  /-- The loop over `barrier_messages` at the top of `client_poll`. -/
  | drain
  /-- The pipe, in the same turn of the loop. -/
  | pipe (pipe : Bool)
  /-- The loop over `barrier_messages` after `BARRIER_END`. -/
  | drainEnd
  deriving DecidableEq

/-- What a line is sent for, and so where the thread goes on. -/
inductive Purpose
  /-- `BUSY`, before the connection is closed. -/
  | busy
  /-- `DEAL` and `TAKEN` of `reserve_spot`; the replay goes on at trick `i`. -/
  | replay (i : ℕ)
  /-- `TRICK` of `reserve_spot`. -/
  | joinTrick
  /-- `WRONG` of `parse_message`. -/
  | wrong (k : After)
  /-- `TRICK` again after the time was over, `poll` having expired or not. -/
  | again (pipe : Bool)
  /-- `TRICK` for a `CARD_PLAY` byte. -/
  | cardPlay
  /-- `DEAL`, `TAKEN` or `TOTAL` for a byte of the server. -/
  | inform
  /-- `SCORE`; `TOTAL` follows. -/
  | score (total : Text)
  deriving DecidableEq

/-- The points at which a thread can be. -/
inductive Pc
  | absent
  /-- `reserve_spot`: reading the first line. -/
  | readIam
  /-- `reserve_spot`: the critical section on `seats_status`. -/
  | take
  /-- `reserve_spot`: building the `DEAL` line from its copies and from `deal`. -/
  | dealLine (trickTypeLoc : ℕ) (dealStarterLoc : Seat)
  /-- `reserve_spot`: the loop test at trick `i`, and after the last the test of `player_turn`. -/
  | replay (i : ℕ)
  /-- `reserve_spot`: building the `TAKEN` line of trick `i`. -/
  | takenLine (i : ℕ)
  /-- `reserve_spot`: the last critical section. -/
  | joinFlag
  | send (l : Text) (p : Purpose)
  /-- `client_poll`: the critical section at the top of the loop. -/
  | loopTop
  /-- `client_poll`: the loop over `barrier_messages` at the top. -/
  | drain
  | poll
  /-- `client_poll`: reading the client's line. -/
  | readSocket (pipe : Bool)
  /-- `client_poll`: the critical section before `TRICK` is sent again. -/
  | again (pipe : Bool)
  /-- `client_poll`: the part on the pipe. -/
  | readPipe (pipe : Bool)
  | parse (message : Text) (k : After)
  /-- `parse_message`: writing `CARD_PLAY` to the main thread. -/
  | writeCardPlay (k : After)
  /-- `client_poll`: writing `BARRIER_RESPONSE` to the main thread. -/
  | writeBarrierResponse
  /-- `client_poll`: the loop over `barrier_messages` after `BARRIER_END`. -/
  | drainEnd
  /-- `close_thread`: the critical section. -/
  | closeLock (bWasEndedByServer : Bool)
  /-- `close_thread`: writing `DISCONNECTED` to the main thread. -/
  | closeNotify
  /-- The descriptors are closed, the number is put on `joinable_threads`. -/
  | finish
  | done
  deriving DecidableEq

/-- The local variables of a thread. -/
structure Thread where
  pc : Pc := .absent
  clientFd : ℤ := 0
  /-- The seat asked for; empty, and not read, before the first line. -/
  seat : Seat := .N
  bIsMyTurn : Bool := false
  bIsBarrier : Bool := false
  bWasDestinedToPlay : Bool := false
  currentTrick : ℕ := 0
  timeoutCopy : ℤ := 0
  /-- The lines written to the client so far, the last one first. -/
  outbox : List Text := []

/-- The point after `parse_message`. -/
def After.pc : After → Pc
  | .drain => .drain
  | .pipe r => .readPipe r
  | .drainEnd => .drainEnd

namespace Thread

/-- The thread at another point. -/
@[simps] def goto (t : Thread) (pc : Pc) : Thread := { t with pc := pc }

/-- `close_thread`: only a thread that occupies a seat enters the critical section. -/
def close (t : Thread) (bWasOccupying bWasEndedByServer : Bool) : Thread :=
  t.goto (if bWasOccupying then .closeLock bWasEndedByServer else .finish)

/-- The seat a first line asks for, `message.substr(3, 1)` of a line that passes `IAM_check`. -/
def iamSeat (message : Text) : Option Seat :=
  if IAMCheck message then (message[3]?).bind Seat.ofLetter? else none

/-! ### `reserve_spot` -/

/-- The critical section on `seats_status`: take the seat and copy the deal, or answer `BUSY`. -/
def takeSeat (sh : Shared) (c : ℕ) (t : Thread) : Shared × Thread :=
  if sh.seatsStatus t.seat = -1 then
    ({ sh with seatsStatus := Function.update sh.seatsStatus t.seat t.clientFd }.note
        (.took c t.seat),
      t.goto (if (sh.deal .N).length ≠ 0 then .dealLine sh.trickTypeGlobal sh.dealStarter
        else .joinFlag))
  else (sh, t.goto (.send (busyLine sh.occupiedSeats) .busy))

/-- The critical section at trick `i` of the replay. -/
def replayAt (sh : Shared) (t : Thread) (i : ℕ) : Thread :=
  if i < sh.takenTricks.length then t.goto (.takenLine i)
  else if sh.playerTurn = some t.seat then
    { t with bIsMyTurn := true, pc := .send (trickLine sh.trickNumber sh.cardsOnTable) .joinTrick }
  else t.goto .joinFlag

/-- The `TAKEN` line of trick `i`, read through the two iterators after the mutex is released;
`none` when they point past the end. -/
def takenLineAt (sh : Shared) (t : Thread) (i : ℕ) : Option Thread :=
  (sh.takenTricks[i]?).bind fun cards => (sh.takenTakers[i]?).map fun taker =>
    t.goto (.send (Senders.takenLine (i + 1) cards taker) (.replay (i + 1)))

/-- The last critical section of `reserve_spot`, and the start of `client_poll`. -/
def join (sh : Shared) (t : Thread) : Thread :=
  { t with
    bIsBarrier := t.bIsBarrier || sh.bIsBarrierOngoing
    timeoutCopy := sh.timeout
    bWasDestinedToPlay := t.bIsMyTurn
    pc := .loopTop }

/-! ### `client_poll` -/

/-- The critical section at the top of the loop. -/
def atLoopTop (sh : Shared) (t : Thread) : Thread :=
  { t with
    currentTrick := sh.trickNumber
    bIsBarrier := t.bIsBarrier || sh.bIsBarrierOngoing
    pc := if t.bIsBarrier || sh.bIsBarrierOngoing then .poll else .drain }

/-- One turn of a loop over `barrier_messages`, `after` being the point after the loop. The queue
is read without the mutex. -/
def drainStep (sh : Shared) (t : Thread) (k : After) (after : Pc) : Shared × Thread :=
  match sh.barrierMessages t.seat with
  | [] => (sh, t.goto after)
  | message :: q =>
    ({ sh with barrierMessages := Function.update sh.barrierMessages t.seat q },
      t.goto (.parse message k))

/-- The results of `poll`. -/
def pollStep (sh : Shared) (t : Thread) : Outcome → Option Thread
  | .expire =>
    if t.bWasDestinedToPlay then some (t.goto (if t.bIsBarrier then .loopTop else .again false))
    else none
  | .fail => some (t.close true false)
  | .ready socket pipe passedMs =>
    if (socket || pipe) ∧ (pipe → sh.serverWritePipes t.seat ≠ []) then
      if socket then some (t.goto (.readSocket pipe))
      else if t.bWasDestinedToPlay then
        let t' := { t with timeoutCopy := int32 (t.timeoutCopy - passedMs) }
        some (t'.goto (if t'.timeoutCopy ≤ 0 then .again pipe else .readPipe pipe))
      else some (t.goto (.readPipe pipe))
    else none
  | _ => none

/-- A line of the client: queued during a barrier, else handed to `parse_message`. -/
def gotLine (sh : Shared) (t : Thread) (pipe : Bool) (l : Text) : Shared × Thread :=
  if t.bIsBarrier then
    ({ sh with barrierMessages :=
        Function.update sh.barrierMessages t.seat (sh.barrierMessages t.seat ++ [l]) },
      t.goto (.readPipe pipe))
  else (sh, t.goto (.parse l (.pipe pipe)))

/-- The critical section before `TRICK` is sent again. -/
def againStep (sh : Shared) (t : Thread) (pipe : Bool) : Thread :=
  { t with
    timeoutCopy := sh.timeout
    pc := .send (trickLine t.currentTrick sh.cardsOnTable) (.again pipe) }

/-- What a byte of the server makes the thread do, the byte being out of the pipe already. -/
def gotByte (sh : Shared) (c : ℕ) (t : Thread) : Byte → Shared × Thread
  | .cardPlay =>
    (sh, { t with
      currentTrick := sh.trickNumber
      pc := .send (trickLine sh.trickNumber sh.cardsOnTable) .cardPlay })
  | .deal =>
    (sh, t.goto (.send (Senders.dealLine sh.trickTypeGlobal sh.lastTaker (sh.cards t.seat)) .inform))
  | .disconnected => (sh, t.close true true)
  | .taken =>
    (sh, t.goto (.send (Senders.takenLine t.currentTrick sh.cardsOnTable sh.lastTaker) .inform))
  | .scores => (sh, t.goto (.send (scoreLine sh.roundScores) (.score (totalLine sh.totalScores))))
  | .barrierResponse =>
    let occupied := int16 (sh.occupied + 1)
    ({ sh with occupied := occupied }.note (.acked c t.seat),
      { t with
        bIsBarrier := true
        pc := if occupied = 4 then .writeBarrierResponse else .loopTop })
  | .barrierEnd => (sh, { t with bIsBarrier := false, pc := .drainEnd })

/-- The part of the loop on the pipe. -/
def pipeStep (sh : Shared) (c : ℕ) (t : Thread) (pipe : Bool) : Outcome → Option (Shared × Thread)
  | .fail => some (sh, t.close true false)
  | .tick =>
    if pipe then
      match sh.serverWritePipes t.seat with
      | [] => none
      | b :: rest => some (gotByte (sh.heard t.seat rest) c t b)
    else some (sh, t.goto .loopTop)
  | _ => none

/-! ### `parse_message` -/

/-- `parse_message` up to its write. -/
def parseStep (sh : Shared) (c : ℕ) (t : Thread) (message : Text) (k : After) : Shared × Thread :=
  if TRICKClientCheck message then
    if t.bWasDestinedToPlay then
      match acceptedCard (sh.cards t.seat) sh.cardsOnTable t.currentTrick message with
      | none =>
        (sh, { t with
          timeoutCopy := sh.timeout
          pc := .send (wrongLine t.currentTrick) (.wrong k) })
      | some card =>
        ({ sh with
            cards := Function.update sh.cards t.seat ((sh.cards t.seat).erase card)
            cardsOnTable := sh.cardsOnTable ++ [card]
            playerTurn := none }.note (.accepted c t.seat card),
          { t with timeoutCopy := sh.timeout, pc := .writeCardPlay k })
    else (sh, t.goto (.send (wrongLine t.currentTrick) (.wrong k)))
  else (sh, t.close true false)

/-- `parse_message` accepts the line it is handed. -/
def accepts (sh : Shared) (t : Thread) : Bool :=
  match t.pc with
  | .parse message _ => TRICKClientCheck message && t.bWasDestinedToPlay &&
      (acceptedCard (sh.cards t.seat) sh.cardsOnTable t.currentTrick message).isSome
  | _ => false

/-! ### Sending -/

/-- The point after a line was sent, and what changes with it. -/
def sent (t : Thread) : Purpose → Thread
  | .busy => t.goto .finish
  | .replay i => t.goto (.replay i)
  | .joinTrick => t.goto .joinFlag
  | .wrong k => t.goto k.pc
  | .again pipe => t.goto (.readPipe pipe)
  | .cardPlay => { t with bWasDestinedToPlay := true, pc := .loopTop }
  | .inform => t.goto .loopTop
  | .score total => t.goto (.send total .inform)

/-- A failed or short write to the client. In `reserve_spot` the thread closes without
`b_was_occupying`. -/
def notSent (sh : Shared) (c : ℕ) (t : Thread) : Purpose → Shared × Thread
  | .busy => (sh, t.close false false)
  | .replay _ | .joinTrick => (sh.note (.lost c t.seat), t.close false false)
  | _ => (sh, t.close true false)

/-! ### `close_thread` -/

/-- The critical section of `close_thread`. -/
def closeStep (sh : Shared) (c : ℕ) (t : Thread) (bWasEndedByServer : Bool) : Shared × Thread :=
  let occupied := if int16 (sh.occupied - 1) < 0 then 0 else int16 (sh.occupied - 1)
  if bWasEndedByServer then
    ({ sh with occupied := occupied }.note (.dismissed c t.seat), t.goto .finish)
  else
    ({ sh with
        occupied := occupied
        bIsBarrierOngoing := true
        seatsStatus := Function.update sh.seatsStatus t.seat (-1) }.note (.released c t.seat),
      t.goto .closeNotify)

end Thread

open Thread in
/-- One step of the thread of connection `c`. -/
def threadStep (sh : Shared) (c : ℕ) (t : Thread) (o : Outcome) : Option (Shared × Thread) :=
  match t.pc, o with
  | .readIam, .line l =>
    match iamSeat l with
    | some s => some (sh, { t with seat := s, pc := .take })
    | none => some (sh, t.goto .finish)
  | .readIam, .eof | .readIam, .fail => some (sh, t.close false false)
  | .take, .tick => some (takeSeat sh c t)
  | .dealLine trickTypeLoc dealStarterLoc, .tick =>
    some (sh, t.goto (.send (Senders.dealLine trickTypeLoc dealStarterLoc (sh.deal t.seat))
      (.replay 0)))
  | .replay i, .tick => some (sh, replayAt sh t i)
  | .takenLine i, .tick => (takenLineAt sh t i).map fun t' => (sh, t')
  | .joinFlag, .tick => some (sh, join sh t)
  | .send l p, .tick => some (sh, { t with outbox := l :: t.outbox }.sent p)
  | .send _ p, .fail => some (notSent sh c t p)
  | .loopTop, .tick => some (sh, atLoopTop sh t)
  | .drain, .tick => some (drainStep sh t .drain .poll)
  | .poll, o => (pollStep sh t o).map fun t' => (sh, t')
  | .readSocket pipe, .line l => some (gotLine sh t pipe l)
  | .readSocket _, .eof | .readSocket _, .fail => some (sh, t.close true false)
  | .again pipe, .tick => some (sh, againStep sh t pipe)
  | .readPipe pipe, o => pipeStep sh c t pipe o
  | .parse message k, .tick => some (parseStep sh c t message k)
  | .writeCardPlay k, .tick =>
    some (sh.report t.seat .cardPlay, { t with bWasDestinedToPlay := false, pc := k.pc })
  | .writeCardPlay _, .fail => some (sh, t.close true false)
  | .writeBarrierResponse, .tick => some (sh.report t.seat .barrierResponse, t.goto .loopTop)
  | .writeBarrierResponse, .fail => some (sh, t.close true false)
  | .drainEnd, .tick => some (drainStep sh t .drainEnd .loopTop)
  | .closeLock bWasEndedByServer, .tick => some (closeStep sh c t bWasEndedByServer)
  | .closeNotify, .tick =>
    some ((sh.report t.seat .disconnected).note (.reported c t.seat), t.goto .finish)
  | .closeNotify, .fail => some (sh.note (.unreported c t.seat), t.goto .finish)
  | .finish, .tick => some (sh, t.goto .done)
  | _, _ => none

end Kierki.Serwer
