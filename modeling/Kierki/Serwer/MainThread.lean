import Kierki.PointsCalculator
import Kierki.Regex
import Kierki.Serwer.Shared

/-!
# The main thread

`start_game` from its call of `barrier` on, `run_game`, `run_deal`, `barrier` and `close_server` as
a machine. A step is one critical section, one read or write of a pipe, or one `poll`; a `for` loop
over the seats is a list of the seats that are left, and the loop over `poll_descriptors` is the
list of the ready pipes that are left.

The calls of the main thread and of the connection thread do not fail here, so the fifth pipe stays
empty and is left out. The reaping of `joinable_threads` at the start of a trick touches nothing
that another step reads, and is left out too; `Joining` models it by itself.
-/

namespace Kierki.Serwer

/-- One deal of the game file, as `read_next_deal` returns it. -/
structure Deal where
  trickType : ℕ
  seat : Seat
  rawCards : Seat → Text

/-- Where `barrier` was called from. -/
inductive Caller
  /-- `start_game` -/
  | startGame
  /-- The wait of `run_deal` for the card of `s`: the seats after it, `b_received_card`, and the
  ready pipes still to read. -/
  | cardWait (s : Seat) (rest : List Seat) (bReceivedCard : Bool) (ready : List Seat)
  /-- The end of a trick. -/
  | endOfTrick
  /-- The end of a deal. -/
  | endOfDeal

/-- What `run_deal` tells all the seats at once. -/
inductive Bulletin
  | deal | taken | scores

def Bulletin.byte : Bulletin → Byte
  | deal => .deal | taken => .taken | scores => .scores

/-- The points at which the main thread can be. -/
inductive MainPc
  /-- `barrier`: the first critical section. -/
  | barrierReset (r : Caller)
  /-- `barrier`: writing `BARRIER_RESPONSE` to the seats left. -/
  | barrierAsk (left : List Seat) (r : Caller)
  | barrierPoll (r : Caller)
  /-- `barrier`: reading the ready pipes left; after the last, the critical section on the count. -/
  | barrierScan (ready : List Seat) (r : Caller)
  /-- `barrier`: answering the `DISCONNECTED` byte of `s`. -/
  | barrierResend (s : Seat) (ready : List Seat) (r : Caller)
  /-- `barrier`: writing `BARRIER_END` to the seats left. -/
  | barrierRelease (left : List Seat) (r : Caller)
  /-- `run_game`: reading the next deal. -/
  | nextDeal
  /-- `run_deal`: the first critical section. -/
  | dealStart
  /-- `run_deal`: telling the seats left. -/
  | announce (b : Bulletin) (left : List Seat)
  /-- `run_deal`: the critical section at the start of a trick. -/
  | trickStart
  /-- `run_deal`: setting `player_turn` to the first of the seats left. -/
  | turnSet (left : List Seat)
  /-- `run_deal`: writing `CARD_PLAY` to `s`. -/
  | turnSend (s : Seat) (rest : List Seat)
  | cardPoll (s : Seat) (rest : List Seat)
  /-- `run_deal`: reading the ready pipes left while it waits for the card of `s`. -/
  | cardScan (s : Seat) (rest : List Seat) (bReceivedCard : Bool) (ready : List Seat)
  /-- `run_deal`: the critical section at the end of a trick. -/
  | trickEnd
  /-- `run_deal`: the critical section at the end of the deal. -/
  | dealEnd
  /-- `close_server`: ending the connection thread. `wait` is the seat whose card `run_deal` was
  waiting for when it was called. -/
  | closeServer (errorMessage : String) (wait : Option Seat)
  /-- `close_server`: writing `DISCONNECTED` to the seats left, and then joining the threads. -/
  | closeSeats (left : List Seat) (errorMessage : String) (wait : Option Seat)

/-- The local variables of the main thread. -/
structure Main where
  pc : MainPc := .barrierReset .startGame
  /-- The deals of the game file not yet read. -/
  deals : List Deal
  trickType : ℕ := 0
  seat : Seat := .N
  /-- The loop counter of the tricks. -/
  i : ℕ := 0
  beginning : Seat := .N
  scores : Seat → ℤ := fun _ => 0

/-- The error message of `barrier` on a byte it does not know. -/
def invalidInBarrier : String := "Invalid message in barrier poll."

/-- The error message of `run_deal` on a byte it does not know. -/
def invalidInDeal : String := "Invalid message in main game server poll from client thread."

/-- A result of `poll` over the pipes of the seats: some are ready, and every ready one holds a
byte. A pipe that fills while `poll` looks at the others may be missing. -/
def Ready (sh : Shared) (ready : List Seat) : Prop :=
  ready ≠ [] ∧ ready.Sublist Seat.all ∧ ∀ s ∈ ready, sh.serverReadPipes s ≠ []

instance (sh : Shared) (ready : List Seat) : Decidable (Ready sh ready) := by
  unfold Ready
  infer_instance

/-- The seat `run_deal` waits for at a call of `barrier`. -/
def Caller.wait : Caller → Option Seat
  | cardWait s _ _ _ => some s
  | _ => none

namespace Main

/-- The main thread at another point. -/
@[simps] def goto (m : Main) (pc : MainPc) : Main := { m with pc := pc }

/-- A byte is taken out of the pipe of `s`. -/
def readByte (sh : Shared) (s : Seat) : Option (Byte × Shared) :=
  match sh.serverReadPipes s with
  | [] => none
  | b :: rest => some (b, sh.noticed s rest)

lemma eq_of_readByte {sh sh' : Shared} {s : Seat} {b : Byte} (h : readByte sh s = some (b, sh')) :
    ∃ rest, sh.serverReadPipes s = b :: rest ∧ sh' = sh.noticed s rest := by
  unfold readByte at h
  split at h
  · cases h
  · rename_i rest hp
    cases h
    exact ⟨rest, hp, rfl⟩

/-- The point after `barrier` returned 0. -/
def afterBarrier (m : Main) : Caller → Main
  | .startGame => m.goto .nextDeal
  | .cardWait s rest got ready => m.goto (.cardScan s rest got ready)
  | .endOfTrick => { m with i := m.i + 1, pc := if m.i + 1 < 13 then .trickStart else .dealEnd }
  | .endOfDeal => m.goto .nextDeal

/-- The end of the loop over the seats of a broadcast: `next` when no seat is left. -/
def loop (left : List Seat) (more next : MainPc) : MainPc := if left = [] then next else more

/-- `barrier`: one byte of a ready pipe. -/
def barrierByte (m : Main) (s : Seat) (ready : List Seat) (r : Caller) : Byte → Main
  | .disconnected => m.goto (.barrierResend s ready r)
  | .barrierResponse => m.goto (.barrierScan ready r)
  | _ => m.goto (.closeServer invalidInBarrier r.wait)

/-- `barrier`: the critical section after a round of `poll`. -/
def barrierSample (sh : Shared) (m : Main) (r : Caller) : Shared × Main :=
  let waiting := int16 (4 - sh.occupied)
  let sh' := if waiting = 0 then { sh with bIsBarrierOngoing := false } else sh
  if 0 < waiting then (sh', m.goto (.barrierPoll r))
  else (sh'.note .passed, m.goto (.barrierRelease Seat.all r))

/-- `run_game`: the critical section that loads a deal. -/
def loadDeal (sh : Shared) (m : Main) (d : Deal) (rest : List Deal) : Shared × Main :=
  ({ sh with
      dealStarter := d.seat
      takenTricks := []
      takenTakers := []
      cards := fun s => Regex.extractCards (d.rawCards s)
      deal := fun s => Regex.extractCards (d.rawCards s) },
    { m with deals := rest, trickType := d.trickType, seat := d.seat, pc := .dealStart })

/-- `run_deal`: its first critical section and the tables it starts with. -/
def startDeal (sh : Shared) (m : Main) : Shared × Main :=
  ({ sh with trickTypeGlobal := m.trickType, lastTaker := m.seat, trickNumber := 0 },
    { m with scores := fun _ => 0, i := 0, pc := .announce .deal Seat.all })

/-- The point after all the seats were told. -/
def afterBulletin : Bulletin → MainPc
  | .deal => .trickStart
  | .taken => .barrierReset .endOfTrick
  | .scores => .barrierReset .endOfDeal

/-- `run_deal`: one byte of a ready pipe in the wait for the card of `s`. -/
def cardByte (m : Main) (s : Seat) (rest : List Seat) (got : Bool) (j : Seat) (ready : List Seat)
    (b : Byte) : Main :=
  if b = .cardPlay ∧ j = s then m.goto (.cardScan s rest true ready)
  else if b = .disconnected then m.goto (.barrierReset (.cardWait s rest got ready))
  else m.goto (.closeServer invalidInDeal (some s))

/-- `run_deal`: the critical section at the end of a trick; `none` where `PointsCalculator` reads
past the end or throws. -/
def endTrick (sh : Shared) (m : Main) : Option (Shared × Main) :=
  (PointsCalculator.construct sh.cardsOnTable m.beginning m.trickType (m.i + 1)).map fun calculator =>
    let result := calculator.calculatePoints
    ({ sh with
        lastTaker := result.1
        takenTricks := sh.takenTricks ++ [sh.cardsOnTable]
        takenTakers := sh.takenTakers ++ [result.1] },
      { m with
        scores := Function.update m.scores result.1 (m.scores result.1 + result.2)
        pc := .announce .taken Seat.all })

/-- `run_deal`: the critical section at the end of the deal. -/
def endDeal (sh : Shared) (m : Main) : Shared × Main :=
  ({ sh with
      totalScores := fun s => int32 (sh.totalScores s + m.scores s)
      roundScores := m.scores },
    m.goto (.announce .scores Seat.all))

end Main

open Main in
/-- One step of the main thread; `ready` is the result of `poll` where the step is one. -/
def mainStep (sh : Shared) (m : Main) (ready : List Seat) : Option (Shared × Main) :=
  match m.pc with
  | .barrierReset r =>
    some ({ sh with bIsBarrierOngoing := true, occupied := 0 }.note .reset,
      m.goto (.barrierAsk Seat.all r))
  | .barrierAsk (s :: left) r =>
    some (sh.tell s .barrierResponse, m.goto (loop left (.barrierAsk left r) (.barrierPoll r)))
  | .barrierPoll r => if Ready sh ready then some (sh, m.goto (.barrierScan ready r)) else none
  | .barrierScan (s :: ready) r =>
    (readByte sh s).map fun (b, sh') => (sh', m.barrierByte s ready r b)
  | .barrierScan [] r => some (barrierSample sh m r)
  | .barrierResend s ready r =>
    some ((sh.tell s .barrierResponse).note (.resent s), m.goto (.barrierScan ready r))
  | .barrierRelease (s :: left) r =>
    some (sh.tell s .barrierEnd,
      if left = [] then m.afterBarrier r else m.goto (.barrierRelease left r))
  | .nextDeal =>
    match m.deals with
    | [] => some (sh, m.goto (.closeServer "" none))
    | d :: rest => some (loadDeal sh m d rest)
  | .dealStart => some (startDeal sh m)
  | .announce b (s :: left) =>
    some (sh.tell s b.byte, m.goto (loop left (.announce b left) (afterBulletin b)))
  | .trickStart =>
    some ({ sh with cardsOnTable := [], trickNumber := sh.trickNumber + 1 },
      { m with beginning := sh.lastTaker, pc := .turnSet sh.lastTaker.order })
  | .turnSet (s :: rest) =>
    some ({ sh with playerTurn := some s }.note (.turn s), m.goto (.turnSend s rest))
  | .turnSend s rest => some ((sh.tell s .cardPlay).note (.asked s), m.goto (.cardPoll s rest))
  | .cardPoll s rest =>
    if Ready sh ready then some (sh, m.goto (.cardScan s rest false ready)) else none
  | .cardScan s rest got (j :: ready) =>
    (readByte sh j).map fun (b, sh') => (sh', m.cardByte s rest got j ready b)
  | .cardScan s rest got [] =>
    some (sh, m.goto (if got then loop rest (.turnSet rest) .trickEnd else .cardPoll s rest))
  | .trickEnd => endTrick sh m
  | .dealEnd => some (endDeal sh m)
  | .closeServer errorMessage wait => some (sh, m.goto (.closeSeats Seat.all errorMessage wait))
  | .closeSeats (s :: left) errorMessage wait =>
    some (sh.tell s .disconnected, m.goto (.closeSeats left errorMessage wait))
  | .barrierAsk [] _ | .barrierRelease [] _ | .announce _ [] | .turnSet [] | .closeSeats [] _ _ =>
    none

end Kierki.Serwer
