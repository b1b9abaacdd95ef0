import Kierki.Klient.Replay
import Kierki.Mutexes.Calls

/-!
# The worker thread of the client and its mutex

`handle_client` as a program over its calls: a turn of its loop waits for a byte of the main thread or a
line of the server, and what becomes of a line is what `Klient.receive` says. Every turn takes and
releases `access_mutex` in order, but for one branch: an AI client that is told that its seat is taken
returns with the mutex held.
-/

namespace Kierki.Mutexes

open Lib.Calls Lib.Locks Lib.Calls.Prog Regex Senders

/-- `DISCONNECTED`, `CARD_PLAY`, `NORMAL_END` and `SERVER_DISCONNECT`. -/
def disconnected : Text := [Byte.disconnected.char]

def cardPlay : Text := [Byte.cardPlay.char]

def normalEnd : Text := ['n']

def serverDisconnect : Text := ['d']

/-! ### The program -/

section Worker

variable {ρ : Type} (socketFd : ℤ)

/-- `print_logs` -/
def printLogs (k : Klient) (msg : Text) : Proc ρ PUnit := printLog msg .access k.isAi

def closeWorker (errorMessage : String) (fdMsg : Text) : Proc ρ PUnit := do
  let pipeResult ← ask (.writePipe fdMsg)
  if pipeResult ≠ 1 then cerr "Failed to notify client."
  if errorMessage ≠ "" then cerr errorMessage
  close socketFd

/-- `close_worker`, and `return`. -/
def leave {α : Type} (errorMessage : String) (fdMsg : Text) : Proc Unit α := do
  closeWorker socketFd errorMessage fdMsg
  exit ()

def assertClientReadSocket (k : Klient) (result : ℤ) : Proc ρ ℤ := do
  if result < 0 then
    closeWorker socketFd "Failed to read from socket." disconnected
    return -1
  else if result = 0 then
    lock .access
    unlock .access
    if k.gotScore ∧ k.gotTotal then closeWorker socketFd "" normalEnd
    else closeWorker socketFd "Server disconnected." serverDisconnect
    return -1
  else return 0

def assertClientWriteSocket (result expected : ℤ) : Proc ρ ℤ := do
  if result ≠ expected then
    closeWorker socketFd "Failed to send message to server." disconnected
    return -1
  else return 0

def assertClientReadPipe (result : ℤ) : Proc ρ ℤ := do
  if result < 0 then
    closeWorker socketFd "Failed to read from pipe." disconnected
    return -1
  else if result = 0 then
    closeWorker socketFd "Client disconnected." disconnected
    return -1
  else return 0

/-- What a card typed by a user does to the cards of an AI client. -/
def typed (k : Klient) (card : Text) : Klient :=
  if k.isAi ∧ card ∈ k.myCards ∧ (card.getLast? = k.expectedColor.head? ∨ k.expectedColor = []) then
    { k with
      myCards := k.myCards.erase card
      playedCards := k.playedCards ++ [card]
      expectedColor := ['n', 'o', 'n', 'e'] }
  else k

/-- The part of a turn on the pipe of the main thread. -/
def pipePart (k : Klient) (polled : Polled) : Proc Unit Klient := do
  if polled.pipeIn then
    let (pipeResult, message) ← ask .readPipe
    if (← assertClientReadPipe socketFd pipeResult) < 0 then exit ()
    else if message = disconnected then
      close socketFd
      exit ()
    else if message = cardPlay then
      lock .access
      let card ← ask .front
      let k := typed k card
      unlock .access
      let msg := trickLine k.trickNumber [card]
      let sendResult ← ask (.writeSocket msg)
      printLogs k msg
      if (← assertClientWriteSocket socketFd sendResult msg.length) < 0 then exit () else return k
    else leave socketFd "Wrong message from client." disconnected
  else if polled.pipeErr then leave socketFd "POLLERR" disconnected
  else return k

/-- The answer of an AI client to a `TRICK` line. -/
def answerPart (k : Klient) (message : Text) : Proc Unit Klient := do
  let color := k.trickColor message
  let (card, k) := { k with expectedColor := color }.strategy color
  let msg := trickLine k.trickNumber [card]
  let sendResult ← ask (.writeSocket msg)
  unlock .access
  printLogs k msg
  if (← assertClientWriteSocket socketFd sendResult msg.length) < 0 then exit () else return k

/-- A branch that prints for a user, and goes on as `k`. -/
def shown (k : Klient) (text : Text) : Proc Unit Klient := do
  if !k.isAi then cout text
  unlock .access
  return k

/-- What becomes of a line, the mutex being held. -/
def linePart (k : Klient) (message : Text) : Proc Unit Klient := do
  if BUSYCheck message then
    if !k.isAi then
      cout (printBusy message)
      unlock .access
    leave socketFd "" normalEnd
  else if DEALCheck message then shown (k.takeDeal message) (printDeal message)
  else if WRONGCheck message then shown k (printWrong k.trickNumber)
  else if TAKENCheck message k.trickNumber then
    shown (k.takeTrick message) (printTaken message k.trickNumber)
  else if SCORECheck message then shown { k with gotScore := true } (printScore message)
  else if TOTALCheck message then shown { k with gotTotal := true } (printTotal message)
  else if TRICKCheck message k.trickNumber then
    if !k.isAi then
      shown { k with expectedColor := k.trickColor message }
        (printTrick message k.trickNumber k.myCards)
    else answerPart socketFd k message
  else
    unlock .access
    return k

/-- The part of a turn on the socket. -/
def socketPart (k : Klient) (polled : Polled) : Proc Unit Klient := do
  if polled.socketIn then
    let (socketResult, message) ← ask .readSocket
    printLogs k message
    if (← assertClientReadSocket socketFd k socketResult) < 0 then exit ()
    else
      lock .access
      linePart socketFd k message
  else if polled.socketErr then leave socketFd "SERVER POLLERR" disconnected
  else return k

/-- **One turn of the loop of `handle_client`.** -/
def turn (k : Klient) : Proc Unit Klient := do
  let polled ← ask .poll
  if polled.result ≤ 0 then leave socketFd "Failed to poll in client worker." disconnected
  else
    let k ← pipePart socketFd k polled
    socketPart socketFd k polled

/-- **`handle_client`** -/
def handleClient (fuel : ℕ) (k : Klient) : Proc Unit Klient :=
  loop (fun _ => true) (turn socketFd) fuel k

end Worker

/-! ### What the parts of a turn do to the mutex -/

section Wp

variable {ρ : Type} {may : Serwer.Shared → Prop} {spins : Bool × List (ℤ × Text) → Prop} {held : Bool}
  {lines : List (ℤ × Text)} {k : Klient} {socketFd result expected : ℤ} {message : Text} {polled : Polled}

section Asserts

variable {E : ρ → Bool × List (ℤ × Text) → Prop} {Q : ℤ → Bool × List (ℤ × Text) → Prop}

lemma wp_closeWorker {errorMessage : String} {fdMsg : Text}
    {Q : PUnit → Bool × List (ℤ × Text) → Prop} (h : Q ⟨⟩ (held, lines)) :
    wp (lockRules .access may spins) (closeWorker socketFd errorMessage fdMsg) E Q (held, lines) := by
  refine wp_bind.mpr (wp_ask rfl fun pipeResult => ?_)
  split_ifs <;> simpa [note] using h

lemma wp_assertClientReadSocket (hfail : result ≤ 0 → Q (-1) (false, lines))
    (h : 0 < result → Q 0 (false, lines)) :
    wp (lockRules .access may spins) (assertClientReadSocket socketFd k result) E Q (false, lines) := by
  unfold assertClientReadSocket
  split_ifs with hneg hzero hscores
  · exact wp_bind.mpr (wp_closeWorker (hfail (by omega)))
  · refine wp_bind.mpr (wp_locked (wp_bind.mpr (wp_unlocked (wp_bind.mpr (wp_closeWorker ?_)))))
    exact hfail hzero.le
  · refine wp_bind.mpr (wp_locked (wp_bind.mpr (wp_unlocked (wp_bind.mpr (wp_closeWorker ?_)))))
    exact hfail hzero.le
  · exact h (by omega)

lemma wp_assertClientWriteSocket (hfail : Q (-1) (false, lines)) (h : Q 0 (false, lines)) :
    wp (lockRules .access may spins) (assertClientWriteSocket socketFd result expected) E Q
      (false, lines) := by
  unfold assertClientWriteSocket
  split_ifs
  · exact wp_bind.mpr (wp_closeWorker hfail)
  · exact h

lemma wp_assertClientReadPipe (hfail : Q (-1) (false, lines)) (h : Q 0 (false, lines)) :
    wp (lockRules .access may spins) (assertClientReadPipe socketFd result) E Q (false, lines) := by
  unfold assertClientReadPipe
  split_ifs
  · exact wp_bind.mpr (wp_closeWorker hfail)
  · exact wp_bind.mpr (wp_closeWorker hfail)
  · exact h

end Asserts

/-- What is read: a line for which the seat is taken. -/
def Busy (lines : List (ℤ × Text)) : Prop := ∃ x ∈ lines, 0 < x.1 ∧ BUSYCheck x.2 = true

variable {E : Unit → Bool × List (ℤ × Text) → Prop} {Q : Klient → Bool × List (ℤ × Text) → Prop}

lemma busy_snoc {x : ℤ × Text} :
    Busy (lines ++ [x]) ↔ Busy lines ∨ 0 < x.1 ∧ BUSYCheck x.2 = true := by
  simp only [Busy, List.mem_append, List.mem_singleton]
  constructor
  · rintro ⟨y, hy | rfl, hbusy⟩
    · exact .inl ⟨y, hy, hbusy⟩
    · exact .inr hbusy
  · rintro (⟨y, hy, hbusy⟩ | hbusy)
    · exact ⟨y, .inl hy, hbusy⟩
    · exact ⟨x, .inr rfl, hbusy⟩

lemma wp_leave {errorMessage : String} {fdMsg : Text} (h : E () (held, lines)) :
    wp (lockRules .access may spins) (leave socketFd errorMessage fdMsg) E Q (held, lines) :=
  wp_bind.mpr (wp_closeWorker h)

lemma isAi_typed (k : Klient) (card : Text) : (typed k card).isAi = k.isAi := by
  unfold typed
  split_ifs <;> rfl

lemma wp_pipePart (hE : E () (false, lines))
    (hQ : ∀ k' : Klient, k'.isAi = k.isAi → Q k' (false, lines)) :
    wp (lockRules .access may spins) (pipePart socketFd k polled) E Q (false, lines) := by
  unfold pipePart
  split_ifs
  · refine wp_bind.mpr (wp_ask rfl fun ⟨pipeResult, message⟩ => ?_)
    refine wp_bind.mpr (wp_assertClientReadPipe hE ?_)
    rw [if_neg (by decide)]
    split_ifs
    · exact wp_bind.mpr (wp_close.mpr hE)
    · refine wp_bind.mpr (wp_locked (wp_bind.mpr (wp_ask rfl fun card => ?_)))
      refine wp_bind.mpr (wp_unlocked (wp_bind.mpr (wp_ask rfl fun sendResult => ?_)))
      refine wp_bind.mpr (wp_printLog.mpr (wp_bind.mpr (wp_assertClientWriteSocket hE ?_)))
      exact hQ _ (isAi_typed k card)
    · exact wp_leave hE
  · exact wp_leave hE
  · exact hQ k rfl

lemma wp_shown {k' : Klient} {text : Text} (h : Q k' (false, lines)) :
    wp (lockRules .access may spins) (shown k' text) E Q (true, lines) := by
  unfold shown
  split_ifs
  · exact wp_bind.mpr (wp_cout.mpr (wp_bind.mpr (wp_unlocked h)))
  · exact wp_bind.mpr (wp_unlocked h)

lemma wp_answerPart (hE : E () (false, lines)) (hQ : Q (k.answer message).1 (false, lines))
    (hai : k.isAi = true) :
    wp (lockRules .access may spins) (answerPart socketFd k message) E Q (true, lines) := by
  have hanswer : (k.answer message).1 =
      ({ k with expectedColor := k.trickColor message }.strategy (k.trickColor message)).2 := by
    simp [Klient.answer, hai]
  rw [hanswer] at hQ
  refine wp_bind.mpr (wp_ask rfl fun sendResult => ?_)
  refine wp_bind.mpr (wp_unlocked (wp_bind.mpr (wp_printLog.mpr ?_)))
  exact wp_bind.mpr (wp_assertClientWriteSocket hE hQ)

/-- **What becomes of a line**: the mutex is released, and the client is as `Klient.receive` says, but
for a line that tells an AI client that its seat is taken. -/
lemma wp_linePart (hbusy : BUSYCheck message = true → E () (k.isAi, lines))
    (hE : BUSYCheck message = false → E () (false, lines))
    (hQ : ∀ k' out, k.receive message = some (k', out) → Q k' (false, lines)) :
    wp (lockRules .access may spins) (linePart socketFd k message) E Q (true, lines) := by
  unfold linePart
  split_ifs with hb hai hdeal hwrong htaken hscore htotal htrick hai
  · refine wp_bind.mpr (wp_cout.mpr (wp_bind.mpr (wp_unlocked (wp_leave ?_))))
    rw [Bool.not_eq_true'] at hai
    exact hai ▸ hbusy hb
  · have hai' : k.isAi = true := by simpa using hai
    exact wp_leave (hai' ▸ hbusy hb)
  · exact wp_shown (hQ _ [] (by simp [Klient.receive, hb, hdeal]))
  · exact wp_shown (hQ _ [] (by simp [Klient.receive, hb, hdeal, hwrong]))
  · exact wp_shown (hQ _ [] (by simp [Klient.receive, hb, hdeal, hwrong, htaken]))
  · exact wp_shown (hQ _ [] (by simp [Klient.receive, hb, hdeal, hwrong, htaken, hscore]))
  · exact wp_shown (hQ _ [] (by simp [Klient.receive, hb, hdeal, hwrong, htaken, hscore, htotal]))
  · rw [Bool.not_eq_true'] at hai
    refine wp_shown (hQ _ [] ?_)
    simp [Klient.receive, Klient.answer, hb, hdeal, hwrong, htaken, hscore, htotal, htrick, hai]
  · refine wp_answerPart (hE (by simpa using hb)) (hQ _ (k.answer message).2 ?_) (by simpa using hai)
    simp [Klient.receive, hb, hdeal, hwrong, htaken, hscore, htotal, htrick]
  · refine wp_bind.mpr (wp_unlocked (hQ _ [] ?_))
    simp [Klient.receive, hb, hdeal, hwrong, htaken, hscore, htotal, htrick]

lemma receive_busy {k' : Klient} {out : List Text} (h : k.receive message = some (k', out)) :
    BUSYCheck message = false := by
  by_contra hb
  rw [Bool.not_eq_false] at hb
  rw [Klient.receive, if_pos hb] at h
  cases h

lemma wp_socketPart (hbefore : ¬Busy lines)
    (hE : ∀ lines held, (held = true ↔ k.isAi = true ∧ Busy lines) → E () (held, lines))
    (hQ : ∀ k' lines, k'.isAi = k.isAi → ¬Busy lines → Q k' (false, lines)) :
    wp (lockRules .access may spins) (socketPart socketFd k polled) E Q (false, lines) := by
  have hfree : ∀ lines, ¬Busy lines → E () (false, lines) := fun lines h =>
    hE lines false (iff_of_false Bool.false_ne_true fun hb => h hb.2)
  unfold socketPart
  split_ifs
  · refine wp_bind.mpr (wp_ask rfl fun ⟨result, message⟩ => ?_)
    -- the new line is the only one for which the seat may be taken
    have hread : Busy (lines ++ [(result, message)]) ↔ 0 < result ∧ BUSYCheck message = true :=
      busy_snoc.trans (or_iff_right hbefore)
    have hother : BUSYCheck message = false → ¬Busy (lines ++ [(result, message)]) := fun hb h =>
      absurd (hread.mp h).2 (by simp [hb])
    refine wp_bind.mpr (wp_printLog.mpr (wp_bind.mpr (wp_assertClientReadSocket (fun hle => ?_)
      fun hpos => ?_)))
    · refine hfree _ fun h => ?_
      have := (hread.mp h).1
      omega
    · refine wp_bind.mpr (wp_locked (wp_linePart (fun hb => hE _ _ ?_) (fun hb => hfree _ (hother hb))
        fun k' out hrec => hQ k' _ (Klient.isAi_receive hrec) (hother (receive_busy hrec))))
      exact (and_iff_left (hread.mpr ⟨hpos, hb⟩)).symm
  · exact wp_leave (hfree lines hbefore)
  · exact hQ k lines rfl hbefore

/-- **A turn of the loop.** It ends with the mutex free, but for an AI client that is told that its seat
is taken, which returns with the mutex held. -/
theorem wp_turn (hbefore : ¬Busy lines) :
    wp (lockRules .access may spins) (turn socketFd k)
      (fun _ s => s.1 = true ↔ k.isAi = true ∧ Busy s.2)
      (fun k' s => k'.isAi = k.isAi ∧ s.1 = false ∧ ¬Busy s.2) (false, lines) := by
  have hfree : false = true ↔ k.isAi = true ∧ Busy lines :=
    iff_of_false Bool.false_ne_true fun h => hbefore h.2
  refine wp_bind.mpr (wp_ask rfl fun polled => ?_)
  split_ifs
  · exact wp_leave hfree
  · refine wp_bind.mpr (wp_pipePart hfree fun k' hai => ?_)
    rw [← hai]
    exact wp_socketPart hbefore (fun _ _ h => h) fun k'' _ hai' h => ⟨hai', rfl, h⟩

/-- **The loop**: while it goes round the mutex is free and no seat was taken. -/
theorem wp_handleClient {fuel : ℕ} (hbefore : ¬Busy lines) :
    wp (lockRules .access may fun s => s.1 = false ∧ ¬Busy s.2) (handleClient socketFd fuel k)
      (fun _ s => s.1 = true ↔ k.isAi = true ∧ Busy s.2)
      (fun k' s => k'.isAi = k.isAi ∧ s.1 = false ∧ ¬Busy s.2) (false, lines) := by
  refine wp_loop (fun _ _ hs => hs.2) (fun k' s hs => ?_) ⟨rfl, rfl, hbefore⟩
  obtain ⟨held, lines⟩ := s
  obtain ⟨hai, hfree, hbusy⟩ := hs
  obtain rfl : held = false := hfree
  rw [← hai]
  exact wp_turn hbusy

end Wp

end Kierki.Mutexes
