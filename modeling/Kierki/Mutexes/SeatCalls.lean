import Kierki.Mutexes.Worker
import Kierki.Serwer.SeatThread

/-!
# The threads of the seats and their mutexes

`reserve_spot`, `parse_message` and `close_thread` of the server as programs over their calls, with the
checks they use. Every critical section begins with a look at the fields the threads share, which are as
the other threads have left them. What is proved is the discipline of both mutexes, whatever the state
and the results of the calls are; `SeatSteps` relates the programs to the machine.
-/

namespace Kierki.Mutexes.Serwer

open Lib.Calls Lib.Locks Lib.Calls.Prog Regex Senders

/-- `CONNECTIONS_THREAD` -/
def connectionsThread : Text := ['K']

/-! ### The programs -/

section Seat

variable {ρ : Type}

def closeFds (fds : List ℤ) : Proc ρ PUnit := forM fds close

/-- `close_thread`: the seat is given back, unless the server ended the thread. -/
def vacate (seat : Text) (bWasEndedByServer : Bool) : Proc ρ PUnit := do
  lock .memory
  change fun sh =>
    let occupied := if int16 (sh.occupied - 1) < 0 then 0 else int16 (sh.occupied - 1)
    if bWasEndedByServer then { sh with occupied := occupied }
    else { sh with
      occupied := occupied
      bIsBarrierOngoing := true
      seatsStatus := fun s => if s.name = seat then -1 else sh.seatsStatus s }
  unlock .memory

/-- `close_thread`: the main thread is told. -/
def notify : Proc ρ PUnit := do
  let pipeWrite ← ask (.writePipe disconnected)
  if pipeWrite ≠ 1 then printError "Failed to notify server." .print

/-- **`close_thread`** -/
def closeThread (errorMessage : String) (fds : List ℤ) (seat : Text)
    (bWasOccupying bWasEndedByServer : Bool) : Proc ρ PUnit := do
  if errorMessage ≠ "" then printError errorMessage .print
  if bWasOccupying then vacate seat bWasEndedByServer
  if !bWasEndedByServer ∧ (bWasOccupying ∨ seat = connectionsThread) then notify
  closeFds fds

def assertClientReadSocket (result : ℤ) (fds : List ℤ) (seat : Text) (bWasOccupying : Bool) :
    Proc ρ ℤ := do
  if result = 0 then
    closeThread "Client disconnected." fds seat bWasOccupying false
    return -1
  else if result < 0 then
    closeThread "Failed to read from client." fds seat bWasOccupying false
    return -1
  else return 0

def assertClientWriteSocket (result expected : ℤ) (fds : List ℤ) (seat : Text) (bWasOccupying : Bool) :
    Proc ρ ℤ := do
  if result ≠ expected then
    closeThread "Failed to send message to the client." fds seat bWasOccupying false
    return -1
  else return 0

def assertClientWritePipe (result : ℤ) (fds : List ℤ) (seat : Text) (bWasOccupying : Bool) :
    Proc ρ ℤ := do
  if result ≠ 1 then
    closeThread "Failed to notify server." fds seat bWasOccupying false
    return -1
  else return 0

/-! ### `reserve_spot` -/

/-- What `reserve_spot` gives back. What the caller does not read after a failure is left out. -/
structure Reserved where
  result : ℤ
  seat : Option Seat := none
  bIsMyTurn : Bool := false
  bIsBarrier : Bool := false

/-- `close_thread` in `reserve_spot`, and `return -1`. -/
def giveUp {α : Type} (errorMessage : String) (clientFd : ℤ) (seat : Text) : Proc Reserved α := do
  closeThread errorMessage [clientFd] seat false false
  exit { result := -1 }

/-- A line of `reserve_spot`, logged once it is sent. -/
def sendLine (msg : Text) (clientFd : ℤ) (seat : Seat) : Proc Reserved PUnit := do
  let socketWrite ← ask (.writeSocket msg)
  printLog msg .print true
  if (← assertClientWriteSocket socketWrite msg.length [clientFd] seat.name false) < 0 then
    exit { result := -1 }

/-- The loop of `reserve_spot` over the tricks: the mutex is free while a line is sent. The variables are
the number of the trick and the last look at the shared fields. -/
def replayTurn (clientFd : ℤ) (seat : Seat) (t : ℕ × Serwer.Shared) :
    Proc Reserved (ℕ × Serwer.Shared) := do
  unlock .memory
  let (cards, taker) ← ask .iterators
  sendLine (takenLine (t.1 + 1) cards taker) clientFd seat
  lock .memory
  let sh ← ask .shared
  return (t.1 + 1, sh)

/-- The data of the game for a client that takes a seat; the value is `b_is_my_turn`. -/
def replay (fuel : ℕ) (clientFd : ℤ) (seat : Seat) (sh : Serwer.Shared) : Proc Reserved Bool := do
  -- the line is built from `deal`, without the mutex
  let sh' ← ask .shared
  sendLine (dealLine sh.trickTypeGlobal sh.dealStarter (sh'.deal seat)) clientFd seat
  lock .memory
  let sh ← ask .shared
  let (_, sh) ← loop (fun t => decide (t.1 < t.2.takenTricks.length)) (replayTurn clientFd seat) fuel
    (0, sh)
  if sh.playerTurn = some seat then
    unlock .memory
    sendLine (trickLine sh.trickNumber sh.cardsOnTable) clientFd seat
    return true
  else
    unlock .memory
    return false

/-- `reserve_spot`, from the line with the seat on. -/
def takeSeat (fuel : ℕ) (clientFd : ℤ) (seat : Seat) : Proc Reserved Reserved := do
  lock .memory
  let sh ← ask .shared
  if sh.seatsStatus seat = -1 then
    change fun sh => { sh with seatsStatus := Function.update sh.seatsStatus seat clientFd }
    unlock .memory
    let bIsMyTurn ← if (sh.deal .N).length ≠ 0 then replay fuel clientFd seat sh else pure false
    lock .memory
    let sh ← ask .shared
    unlock .memory
    return { result := 1, seat := seat, bIsMyTurn := bIsMyTurn, bIsBarrier := sh.bIsBarrierOngoing }
  else
    unlock .memory
    sendLine (busyLine sh.occupiedSeats) clientFd seat
    closeFds [clientFd]
    return { result := 0 }

/-- **`reserve_spot`** -/
def reserveSpot (fuel : ℕ) (clientFd : ℤ) (seat : Text) : Proc ρ Reserved := returned do
  if (← ask .setsockopt) < 0 then giveUp "Failed to set timeout." clientFd seat
  else
    let (socketRead, message) ← ask .readSocket
    printLog message .print true
    if (← assertClientReadSocket socketRead [clientFd] seat false) < 0 then exit { result := -1 }
    else if (← ask .setsockopt) < 0 then giveUp "Failed to disable timeout." clientFd seat
    else match Serwer.Thread.iamSeat message with
      | some seat => takeSeat fuel clientFd seat
      | none =>
        printError "Client send invalid message." .print
        closeFds [clientFd]
        return { result := -1 }

/-! ### `parse_message` -/

/-- What `parse_message` gives back. -/
structure Parsed where
  result : ℤ
  bWasDestinedToPlay : Bool
  timeoutCopy : ℤ

/-- `parse_message`, a line out of turn or a card that is not accepted. -/
def sendWrong (clientFd : ℤ) (seat : Seat) (currentTrick : ℕ) (p : Parsed) :
    Proc (Option Parsed) (Option Parsed) := do
  let msg := wrongLine currentTrick
  let socketWrite ← ask (.writeSocket msg)
  printLog msg .print true
  if (← assertClientWriteSocket socketWrite msg.length [clientFd] seat.name true) < 0 then
    return some { p with result := -1 }
  else return some p

/-- **`parse_message`**; `none` is an exception that leaves it. -/
def parseMessage (message : Text) (clientFd : ℤ) (seat : Seat) (bWasDestinedToPlay : Bool)
    (currentTrick : ℕ) (timeoutCopy : ℤ) : Proc ρ (Option Parsed) := returned do
  let p : Parsed := { result := 0, bWasDestinedToPlay := bWasDestinedToPlay, timeoutCopy := timeoutCopy }
  printLog message .print true
  if TRICKClientCheck message then
    if bWasDestinedToPlay then
      lock .memory
      let sh ← ask .shared
      let p := { p with timeoutCopy := sh.timeout }
      match Serwer.extractedTrick message currentTrick with
      | none => exit none
      | some _ =>
        match Serwer.acceptedCard (sh.cards seat) sh.cardsOnTable currentTrick message with
        | none =>
          unlock .memory
          sendWrong clientFd seat currentTrick p
        | some card =>
          change fun sh => { sh with
            cards := Function.update sh.cards seat ((sh.cards seat).erase card)
            cardsOnTable := sh.cardsOnTable ++ [card]
            playerTurn := none }
          unlock .memory
          let pipeWrite ← ask (.writePipe cardPlay)
          if (← assertClientWritePipe pipeWrite [clientFd] seat.name true) < 0 then
            return some { p with result := -1 }
          else return some { p with bWasDestinedToPlay := false }
    else sendWrong clientFd seat currentTrick p
  else
    closeThread "Client send invalid message." [clientFd] seat.name true false
    return some { p with result := -1 }

end Seat

/-! ### What they do to the mutexes -/

/-- **No exception**: a line that passes the check has a number where it is looked for. -/
lemma extractedTrick_isSome {message : Text} (h : TRICKClientCheck message = true) (n : ℕ) :
    Serwer.extractedTrick message n ≠ none := by
  unfold TRICKClientCheck at h
  rw [RegularExpression.rmatch_iff_matches', Lib.RegExp.mem_text_mul] at h
  obtain ⟨_, hz, rfl⟩ := h
  obtain ⟨nr, hnr, y, -, rfl⟩ := Lib.RegExp.mem_mul.mp hz
  obtain ⟨d, rest, rfl, hd⟩ := trickNr_cons hnr
  have hstoi : ∀ k, stoi (substr (['T', 'R', 'I', 'C', 'K'] ++ (d :: rest ++ y)) 5 (k + 1)) ≠ none := by
    intro k
    simp [substr, stoi, hd]
  unfold Serwer.extractedTrick
  split_ifs
  · exact hstoi 0
  · exact hstoi 1

section Wp

variable {ρ : Type} {m : Mutex} {may : Serwer.Shared → Prop}
  {spins : Bool × List (ℤ × Text) → Prop} {held : Bool} {lines : List (ℤ × Text)} {fds : List ℤ}
  {clientFd result expected : ℤ} {seat : Text} {occupying ended : Bool}

section Checks

variable {E : ρ → Bool × List (ℤ × Text) → Prop} {Q : ℤ → Bool × List (ℤ × Text) → Prop}
  {Q' : PUnit → Bool × List (ℤ × Text) → Prop}

lemma wp_closeFds (h : Q' ⟨⟩ (held, lines)) :
    wp (lockRules m may spins) (closeFds fds) E Q' (held, lines) := by
  have hkeeps : wp (lockRules m may spins) (closeFds fds) E (fun _ s => s = (held, lines))
      (held, lines) := by
    refine wp_forM_keeps (I := fun s => s = (held, lines)) (fun fd _ s hs => ?_) rfl
    subst hs
    exact wp_close.mpr rfl
  refine wp_mono (fun _ _ => id) (fun _ s hs => ?_) hkeeps
  subst hs
  exact h

@[simp] lemma wp_vacate :
    wp (lockRules m may spins) (vacate seat ended) E Q' (false, lines) ↔ Q' ⟨⟩ (false, lines) := by
  simp [vacate]

lemma wp_notify (h : Q' ⟨⟩ (false, lines)) : wp (lockRules m may spins) notify E Q' (false, lines) := by
  refine wp_bind.mpr (wp_ask rfl fun pipeWrite => ?_)
  split_ifs
  · exact wp_printError.mpr h
  · exact h

/-- **`close_thread`** leaves the mutexes free. -/
theorem wp_closeThread {errorMessage : String} (h : Q' ⟨⟩ (false, lines)) :
    wp (lockRules m may spins) (closeThread errorMessage fds seat occupying ended) E Q' (false, lines) := by
  unfold closeThread
  split_ifs
  all_goals
    simp only [wp_bind, wp_printError, wp_vacate]
    first
      | exact wp_closeFds h
      | exact wp_notify (wp_closeFds h)

lemma wp_assertClientReadSocket (hfail : Q (-1) (false, lines)) (h : Q 0 (false, lines)) :
    wp (lockRules m may spins) (assertClientReadSocket result fds seat occupying) E Q (false, lines) := by
  unfold assertClientReadSocket
  split_ifs
  · exact wp_bind.mpr (wp_closeThread hfail)
  · exact wp_bind.mpr (wp_closeThread hfail)
  · exact h

lemma wp_assertClientWriteSocket (hfail : Q (-1) (false, lines)) (h : Q 0 (false, lines)) :
    wp (lockRules m may spins) (assertClientWriteSocket result expected fds seat occupying) E Q
      (false, lines) := by
  unfold assertClientWriteSocket
  split_ifs
  · exact wp_bind.mpr (wp_closeThread hfail)
  · exact h

lemma wp_assertClientWritePipe (hfail : Q (-1) (false, lines)) (h : Q 0 (false, lines)) :
    wp (lockRules m may spins) (assertClientWritePipe result fds seat occupying) E Q (false, lines) := by
  unfold assertClientWritePipe
  split_ifs
  · exact wp_bind.mpr (wp_closeThread hfail)
  · exact h

end Checks

section Reserve

variable {clientFd : ℤ} {seat : Seat} {E : Reserved → Bool × List (ℤ × Text) → Prop}

lemma wp_giveUp {α : Type} {errorMessage : String} {seat : Text}
    {Q : α → Bool × List (ℤ × Text) → Prop} (hE : ∀ r, E r (false, lines)) :
    wp (lockRules m may spins) (giveUp errorMessage clientFd seat) E Q (false, lines) :=
  wp_bind.mpr (wp_closeThread (hE _))

lemma wp_sendLine {msg : Text} {Q : PUnit → Bool × List (ℤ × Text) → Prop}
    (hE : ∀ r, E r (false, lines)) (h : Q ⟨⟩ (false, lines)) :
    wp (lockRules m may spins) (sendLine msg clientFd seat) E Q (false, lines) := by
  refine wp_bind.mpr (wp_ask rfl fun socketWrite => wp_bind.mpr (wp_printLog.mpr ?_))
  refine wp_bind.mpr (wp_assertClientWriteSocket ?_ ?_)
  · exact hE _
  · exact h

lemma wp_replayTurn {t : ℕ × Serwer.Shared} {Q : ℕ × Serwer.Shared → Bool × List (ℤ × Text) → Prop}
    (hE : ∀ r, E r (false, lines)) (h : ∀ sh, may sh → Q (t.1 + 1, sh) (decide (.memory = m), lines)) :
    wp (lockRules m may spins) (replayTurn clientFd seat t) E Q (decide (.memory = m), lines) := by
  refine wp_bind.mpr (wp_unlocked (wp_bind.mpr (wp_ask rfl fun ⟨cards, taker⟩ => ?_)))
  refine wp_bind.mpr (wp_sendLine hE (wp_bind.mpr (wp_locked ?_)))
  exact wp_bind.mpr (wp_shared fun sh hsh => h sh hsh)

lemma wp_replayLoop {fuel : ℕ} {sh : Serwer.Shared}
    (hspins : ∀ sh s, may sh → fuel < sh.takenTricks.length → spins s)
    (hE : ∀ r, E r (false, lines)) (hsh : may sh) :
    wp (lockRules m may spins)
      (loop (fun t => decide (t.1 < t.2.takenTricks.length)) (replayTurn clientFd seat) fuel (0, sh)) E
      (fun _ s => s = (decide (.memory = m), lines)) (decide (.memory = m), lines) := by
  -- the number of the trick and the fuel that is left add up
  let I : ℕ → ℕ × Serwer.Shared → Bool × List (ℤ × Text) → Prop := fun n t s =>
    t.1 + n = fuel ∧ may t.2 ∧ s = (decide (.memory = m), lines)
  refine wp_mono (fun _ _ => id) ?_ (wp_loop_fuel (I := I) ?_ ?_ ⟨Nat.zero_add fuel, hsh, rfl⟩)
  · rintro t s ⟨-, n, -, -, hs⟩
    exact hs
  · rintro t s ⟨hn, hmay, -⟩ hc
    have hmore := of_decide_eq_true hc
    exact hspins t.2 s hmay (by omega)
  · rintro n t s ⟨hn, -, rfl⟩ -
    exact wp_replayTurn hE fun sh' hsh' => ⟨by omega, hsh', rfl⟩

lemma wp_replay {fuel : ℕ} {sh : Serwer.Shared} {Q : Bool → Bool × List (ℤ × Text) → Prop}
    (hspins : ∀ sh s, may sh → fuel < sh.takenTricks.length → spins s)
    (hE : ∀ r, E r (false, lines)) (h : ∀ b, Q b (false, lines)) :
    wp (lockRules m may spins) (replay fuel clientFd seat sh) E Q (false, lines) := by
  refine wp_bind.mpr (wp_shared fun sh' _ => wp_bind.mpr (wp_sendLine hE ?_))
  refine wp_bind.mpr (wp_locked (wp_bind.mpr (wp_shared fun sh hsh => wp_bind.mpr ?_)))
  refine wp_mono (fun _ _ => id) (fun ⟨i, sh⟩ s hs => ?_) (wp_replayLoop hspins hE hsh)
  subst hs
  dsimp only
  split_ifs
  · exact wp_bind.mpr (wp_unlocked (wp_bind.mpr (wp_sendLine hE (h _))))
  · exact wp_bind.mpr (wp_unlocked (h _))

lemma wp_takeSeat {fuel : ℕ} {Q : Reserved → Bool × List (ℤ × Text) → Prop}
    (hspins : ∀ sh s, may sh → fuel < sh.takenTricks.length → spins s)
    (hE : ∀ r, E r (false, lines)) (h : ∀ r, Q r (false, lines)) :
    wp (lockRules m may spins) (takeSeat fuel clientFd seat) E Q (false, lines) := by
  have hend : ∀ b, wp (lockRules m may spins) (do
      lock .memory
      let sh ← ask .shared
      unlock .memory
      return { result := 1, seat := some seat, bIsMyTurn := b, bIsBarrier := sh.bIsBarrierOngoing })
      E Q (false, lines) := fun b =>
    wp_bind.mpr (wp_locked (wp_bind.mpr (wp_ask rfl fun sh => wp_bind.mpr (wp_unlocked (h _)))))
  refine wp_bind.mpr (wp_locked (wp_bind.mpr (wp_ask rfl fun sh => ?_)))
  split_ifs with hfree hdeal
  · refine wp_bind.mpr (wp_change.mpr (wp_bind.mpr (wp_unlocked (wp_bind.mpr ?_))))
    exact wp_replay hspins hE hend
  · exact wp_bind.mpr (wp_change.mpr (wp_bind.mpr (wp_unlocked (wp_bind.mpr (hend _)))))
  · refine wp_bind.mpr (wp_unlocked (wp_bind.mpr (wp_sendLine hE ?_)))
    exact wp_bind.mpr (wp_closeFds (h _))

/-- **`reserve_spot`** leaves the mutexes free. -/
theorem wp_reserveSpot {fuel : ℕ} {seat : Text} {E : ρ → Bool × List (ℤ × Text) → Prop}
    (hspins : ∀ sh s, may sh → fuel < sh.takenTricks.length → spins s) :
    wp (lockRules m may spins) (reserveSpot fuel clientFd seat) E (fun _ s => s.1 = false)
      (false, lines) := by
  refine wp_returned.mpr (wp_bind.mpr (wp_ask rfl fun setTimeout => ?_))
  split_ifs
  · exact wp_giveUp fun _ => rfl
  · refine wp_bind.mpr (wp_ask rfl fun ⟨socketRead, message⟩ => wp_bind.mpr (wp_printLog.mpr ?_))
    refine wp_bind.mpr (wp_assertClientReadSocket rfl (wp_bind.mpr (wp_ask rfl fun disable => ?_)))
    split_ifs
    · exact wp_giveUp fun _ => rfl
    · split
      · exact wp_takeSeat hspins (fun _ => rfl) fun _ => rfl
      · exact wp_bind.mpr (wp_printError.mpr (wp_bind.mpr (wp_closeFds rfl)))

end Reserve

section Parse

variable {clientFd : ℤ} {seat : Seat} {currentTrick : ℕ}

lemma wp_sendWrong {p : Parsed} {E Q : Option Parsed → Bool × List (ℤ × Text) → Prop}
    (h : ∀ p, Q (some p) (false, lines)) :
    wp (lockRules m may spins) (sendWrong clientFd seat currentTrick p) E Q (false, lines) := by
  refine wp_bind.mpr (wp_ask rfl fun socketWrite => wp_bind.mpr (wp_printLog.mpr ?_))
  exact wp_bind.mpr (wp_assertClientWriteSocket (h _) (h _))

/-- **`parse_message`** leaves the mutexes free, and no exception leaves it. -/
theorem wp_parseMessage {message : Text} {bWasDestinedToPlay : Bool} {timeoutCopy : ℤ}
    {E : ρ → Bool × List (ℤ × Text) → Prop} :
    wp (lockRules m may spins)
      (parseMessage message clientFd seat bWasDestinedToPlay currentTrick timeoutCopy) E
      (fun r s => r ≠ none ∧ s.1 = false) (false, lines) := by
  have hend : ∀ p : Parsed, some p ≠ none ∧ false = false := fun p => ⟨Option.some_ne_none p, rfl⟩
  refine wp_returned.mpr (wp_bind.mpr (wp_printLog.mpr ?_))
  split_ifs with hcheck
  · refine wp_bind.mpr (wp_locked (wp_bind.mpr (wp_ask rfl fun sh => ?_)))
    split
    · exact absurd ‹_› (extractedTrick_isSome hcheck currentTrick)
    · split
      · exact wp_bind.mpr (wp_unlocked (wp_sendWrong hend))
      · refine wp_bind.mpr (wp_change.mpr (wp_bind.mpr (wp_unlocked ?_)))
        refine wp_bind.mpr (wp_ask rfl fun pipeWrite => wp_bind.mpr ?_)
        exact wp_assertClientWritePipe (hend _) (hend _)
  · exact wp_sendWrong hend
  · exact wp_bind.mpr (wp_closeThread (hend _))

end Parse

end Wp

end Kierki.Mutexes.Serwer
