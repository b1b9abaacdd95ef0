import Kierki.Mutexes.SeatCalls

/-!
# The programs of the seats and the steps of their threads

`reserve_spot`, `parse_message` and `close_thread` stand in two models: as programs over their calls
and as steps of the thread of a connection. The program makes the calls of the machine: a critical
section changes the shared fields as the step does that it stands for, a line is written where the
machine sends this line, and the answer of a call takes the machine on as its outcome does. The two
`setsockopt` calls around the first read are one step with it.
-/

namespace Kierki.Mutexes.Serwer

open Lib.Calls Lib.Calls.Prog Regex Senders

/-! ### Steps and calls -/

/-- Where a program stands: the thread of the machine, and in a critical section what it has found of
the shared fields and how it has changed them. -/
structure Stand where
  thread : Serwer.Thread
  inside : Bool := false
  found : Option Serwer.Shared := none
  changes : Serwer.Shared → Serwer.Shared := id
  /-- The first line of the client, read while its socket has a timeout. -/
  line : Option Text := none

/-- **The machine makes this step**: wherever the shared fields are as `found` says, it changes them by
`f`, but for the history. -/
def Mirrors (c : ℕ) (t : Serwer.Thread) (o : Serwer.Outcome) (found : Option Serwer.Shared)
    (f : Serwer.Shared → Serwer.Shared) (t' : Serwer.Thread) : Prop :=
  ∀ sh, (∀ sh₀ ∈ found, sh = sh₀) →
    ∃ log, Serwer.threadStep sh c t o = some ({ f sh with log := log }, t')

/-- The thread after a step. -/
def stepped (c : ℕ) (t : Serwer.Thread) (o : Serwer.Outcome) (found : Option Serwer.Shared) :
    Serwer.Thread :=
  ((Serwer.threadStep (found.getD { timeout := 0 }) c t o).map Prod.snd).getD t

/-- The outcome of a call that returns `result` where it goes through. -/
def outcomeOf (result expected : ℤ) : Serwer.Outcome := if result = expected then .tick else .fail

/-- The machine is where the program makes the call. -/
def Stand.ok (c : ℕ) (s : Stand) : Call → Prop
  | .lock .memory => s.inside = false
  | .unlock .memory => s.inside = true ∧
    Mirrors c s.thread .tick s.found s.changes (stepped c s.thread .tick s.found)
  | .shared => s.inside = true ∨ ∃ trickTypeLoc dealStarterLoc,
    s.thread.pc = .dealLine trickTypeLoc dealStarterLoc
  | .change _ => s.inside = true
  | .iterators => ∃ i, s.thread.pc = .takenLine i
  | .writeSocket message => ∃ p, s.thread.pc = .send message p ∧
    ∀ result, Mirrors c s.thread (outcomeOf result message.length) none id
      (stepped c s.thread (outcomeOf result message.length) none)
  | .writePipe message => ∃ b : Byte, message = [b.char] ∧
    Mirrors c s.thread .tick none (fun sh => sh.report s.thread.seat b)
      (stepped c s.thread .tick none) ∧
    Mirrors c s.thread .fail none id (stepped c s.thread .fail none)
  | .readSocket | .setsockopt => s.thread.pc = .readIam
  | .poll | .readPipe | .front => False
  | _ => True

/-- Where the program stands after the call. -/
def Stand.next (c : ℕ) (s : Stand) : (call : Call) → call.Answer → Stand
  | .lock .memory, _ => { s with inside := true, found := none, changes := id }
  | .unlock .memory, _ => { thread := stepped c s.thread .tick s.found }
  | .shared, sh =>
    if s.inside then { s with found := some sh }
    else { s with thread := stepped c s.thread .tick (some sh) }
  | .change f, _ => { s with changes := f ∘ s.changes }
  | .iterators, (cards, taker) =>
    match s.thread.pc with
    | .takenLine i => { s with
        thread := s.thread.goto (.send (takenLine (i + 1) cards taker) (.replay (i + 1))) }
    | _ => s
  | .writeSocket message, result =>
    { s with thread := stepped c s.thread (outcomeOf result message.length) none }
  | .writePipe _, result => { s with thread := stepped c s.thread (outcomeOf result 1) none }
  | .readSocket, (result, message) =>
    if result = 0 then { s with thread := stepped c s.thread .eof none }
    else if result < 0 then { s with thread := stepped c s.thread .fail none }
    else { s with line := some message }
  | .setsockopt, result =>
    if result < 0 then { thread := stepped c s.thread .fail none }
    else match s.line with
      | none => s
      | some message => { thread := stepped c s.thread (.line message) none }
  | _, _ => s

/-- The rules of the machine; a loop may use up its fuel. -/
def seatRules (c : ℕ) : Rules Call Call.Answer Stand where
  ok := Stand.ok c
  may _ _ _ := True
  next := Stand.next c
  spins _ := True

/-! ### The calls -/

section Calls

variable {ρ : Type} {c : ℕ} {s : Stand} {t t' : Serwer.Thread} {E : ρ → Stand → Prop}

lemma follows_call {call : Call} {Q : call.Answer → Stand → Prop} (hok : s.ok c call)
    (h : ∀ a, Q a (s.next c call a)) : wp (seatRules c) (ask call) E Q s :=
  ⟨hok, fun a _ => h a⟩

/-- A call that the machine does not know. -/
lemma follows_quiet {call : Call} {Q : call.Answer → Stand → Prop} (hok : s.ok c call)
    (hnext : ∀ a, s.next c call a = s) (h : ∀ a, Q a s) : wp (seatRules c) (ask call) E Q s :=
  follows_call hok fun a => (hnext a).symm ▸ h a

lemma follows_printError {errorMessage : String} {Q : PUnit → Stand → Prop} (h : Q ⟨⟩ s) :
    wp (seatRules c) (printError errorMessage .print) E Q s :=
  wp_bind.mpr (follows_quiet trivial (fun _ => rfl) fun _ =>
    wp_bind.mpr (follows_quiet trivial (fun _ => rfl) fun _ =>
      follows_quiet trivial (fun _ => rfl) fun _ => h))

lemma follows_printLog {message : Text} {isAi : Bool} {Q : PUnit → Stand → Prop} (h : Q ⟨⟩ s) :
    wp (seatRules c) (printLog message .print isAi) E Q s := by
  have hunlock : wp (seatRules c) (unlock .print) E Q s :=
    follows_quiet trivial (fun _ => rfl) fun _ => h
  unfold printLog
  split_ifs
  · refine wp_bind.mpr (follows_quiet trivial (fun _ => rfl) fun _ => wp_bind.mpr ?_)
    refine follows_quiet trivial (fun _ => rfl) fun _ => wp_bind.mpr ?_
    exact follows_quiet trivial (fun _ => rfl) fun _ => hunlock
  · refine wp_bind.mpr (follows_quiet trivial (fun _ => rfl) fun _ => wp_bind.mpr ?_)
    exact follows_quiet trivial (fun _ => rfl) fun _ => hunlock
  · exact h

lemma follows_closeFds {fds : List ℤ} {Q : PUnit → Stand → Prop} (h : Q ⟨⟩ s) :
    wp (seatRules c) (closeFds fds) E Q s := by
  refine wp_mono (fun _ _ => id) (fun _ s' hs' => ?_)
    (wp_forM_keeps (I := fun s' => s' = s) (fun fd _ s' hs' => ?_) rfl)
  · rw [hs']
    exact h
  · exact follows_quiet trivial (fun _ => rfl) fun _ => hs'

lemma follows_lock {Q : PUnit → Stand → Prop} (h : Q ⟨⟩ { thread := t, inside := true }) :
    wp (seatRules c) (lock .memory) E Q { thread := t } :=
  ⟨rfl, fun _ _ => h⟩

lemma follows_look {Q : Serwer.Shared → Stand → Prop}
    (h : ∀ sh, Q sh { thread := t, inside := true, found := some sh }) :
    wp (seatRules c) (ask .shared) E Q { thread := t, inside := true } :=
  ⟨.inl rfl, fun sh _ => h sh⟩

lemma follows_change {found : Option Serwer.Shared} {f : Serwer.Shared → Serwer.Shared}
    {Q : PUnit → Stand → Prop}
    (h : Q ⟨⟩ { thread := t, inside := true, found := found, changes := f }) :
    wp (seatRules c) (change f) E Q { thread := t, inside := true, found := found } :=
  ⟨rfl, fun _ _ => h⟩

/-- A step at the shared fields the critical section has found. -/
lemma mirrors_found {sh : Serwer.Shared} {f : Serwer.Shared → Serwer.Shared} (log : List Serwer.Event)
    (h : Serwer.threadStep sh c t .tick = some ({ f sh with log := log }, t')) :
    Mirrors c t .tick (some sh) f t' := by
  intro sh₁ hsh
  obtain rfl := hsh sh rfl
  exact ⟨log, h⟩

lemma stepped_eq {o : Serwer.Outcome} {found : Option Serwer.Shared}
    {f : Serwer.Shared → Serwer.Shared} (h : Mirrors c t o found f t') :
    stepped c t o found = t' := by
  obtain ⟨log, hstep⟩ := h (found.getD { timeout := 0 }) (by rintro sh₀ hsh₀; rw [hsh₀]; rfl)
  rw [stepped, hstep]
  rfl

/-- **A critical section** is one step of the machine. -/
lemma follows_unlock {found : Option Serwer.Shared} {f : Serwer.Shared → Serwer.Shared}
    {Q : PUnit → Stand → Prop} (hm : Mirrors c t .tick found f t') (h : Q ⟨⟩ { thread := t' }) :
    wp (seatRules c) (unlock .memory) E Q
      { thread := t, inside := true, found := found, changes := f } := by
  have ht := stepped_eq hm
  refine ⟨⟨rfl, by rwa [ht]⟩, fun _ _ => ?_⟩
  show Q ⟨⟩ { thread := stepped c t .tick found }
  rwa [ht]

/-- A line is written where the machine sends it. -/
lemma follows_writeSocket {message : Text} {p : Serwer.Purpose} {t₁ t₂ : Serwer.Thread}
    {Q : ℤ → Stand → Prop} (hpc : t.pc = .send message p)
    (hsent : Mirrors c t .tick none id t₁) (hfail : Mirrors c t .fail none id t₂)
    (h₁ : ∀ result : ℤ, result = message.length → Q result { thread := t₁ })
    (h₂ : ∀ result : ℤ, result ≠ message.length → Q result { thread := t₂ }) :
    wp (seatRules c) (ask (.writeSocket message)) E Q { thread := t } := by
  refine ⟨⟨p, hpc, fun result => ?_⟩, fun result _ => ?_⟩
  · unfold outcomeOf
    split_ifs
    · rwa [stepped_eq hsent]
    · rwa [stepped_eq hfail]
  · show Q result { thread := stepped c t (outcomeOf result message.length) none }
    unfold outcomeOf
    split_ifs with hr
    · rw [stepped_eq hsent]
      exact h₁ result hr
    · rw [stepped_eq hfail]
      exact h₂ result hr

/-- A byte to the main thread is written where the machine writes it. -/
lemma follows_writePipe {b : Byte} {t₁ t₂ : Serwer.Thread} {Q : ℤ → Stand → Prop}
    (hsent : Mirrors c t .tick none (fun sh => sh.report t.seat b) t₁)
    (hfail : Mirrors c t .fail none id t₂)
    (h₁ : Q 1 { thread := t₁ }) (h₂ : ∀ result : ℤ, result ≠ 1 → Q result { thread := t₂ }) :
    wp (seatRules c) (ask (.writePipe [b.char])) E Q { thread := t } := by
  refine ⟨⟨b, rfl, ?_, ?_⟩, fun result _ => ?_⟩
  · show Mirrors c t .tick none _ (stepped c t .tick none)
    rwa [stepped_eq hsent]
  · show Mirrors c t .fail none _ (stepped c t .fail none)
    rwa [stepped_eq hfail]
  · show Q result { thread := stepped c t (outcomeOf result 1) none }
    unfold outcomeOf
    split_ifs with hr
    · rw [stepped_eq hsent, hr]
      exact h₁
    · rw [stepped_eq hfail]
      exact h₂ result hr

end Calls

/-! ### `close_thread` -/

section Close

variable {ρ : Type} {c : ℕ} {t : Serwer.Thread} {E : ρ → Stand → Prop}

lemma name_ne_connections (s : Seat) : s.name ≠ connectionsThread := by
  cases s <;> decide

private lemma name_injective {s s' : Seat} (h : s.name = s'.name) : s = s' := by
  revert h
  cases s <;> cases s' <;> decide

lemma mirrors_vacate {ended : Bool} (hpc : t.pc = .closeLock ended) :
    Mirrors c t .tick none (fun sh =>
      let occupied := if int16 (sh.occupied - 1) < 0 then 0 else int16 (sh.occupied - 1)
      if ended then { sh with occupied := occupied }
      else { sh with
        occupied := occupied
        bIsBarrierOngoing := true
        seatsStatus := fun s => if s.name = t.seat.name then -1 else sh.seatsStatus s })
      (t.goto (if ended then .finish else .closeNotify)) := by
  intro sh _
  have hseats : (fun s => if s.name = t.seat.name then -1 else sh.seatsStatus s) =
      Function.update sh.seatsStatus t.seat (-1) := by
    funext s
    by_cases hs : s = t.seat
    · simp [hs]
    · rw [Function.update_of_ne hs, if_neg fun hn => hs (name_injective hn)]
  cases ended with
  | true => exact ⟨_, by simp only [Serwer.threadStep, hpc]; rfl⟩
  | false => exact ⟨_, by simp only [Serwer.threadStep, hpc, hseats]; rfl⟩

lemma follows_vacate {ended : Bool} {Q : PUnit → Stand → Prop} (hpc : t.pc = .closeLock ended)
    (h : Q ⟨⟩ { thread := t.goto (if ended then .finish else .closeNotify) }) :
    wp (seatRules c) (vacate t.seat.name ended) E Q { thread := t } :=
  wp_bind.mpr (follows_lock (wp_bind.mpr (follows_change (follows_unlock (mirrors_vacate hpc) h))))

lemma follows_notify {Q : PUnit → Stand → Prop} (hpc : t.pc = .closeNotify)
    (h : Q ⟨⟩ { thread := t.goto .finish }) :
    wp (seatRules c) notify E Q { thread := t } := by
  have hsent : Mirrors c t .tick none (fun sh => sh.report t.seat .disconnected) (t.goto .finish) :=
    fun sh _ => ⟨_, by simp only [Serwer.threadStep, hpc]; rfl⟩
  have hfail : Mirrors c t .fail none id (t.goto .finish) :=
    fun sh _ => ⟨_, by simp only [Serwer.threadStep, hpc]; rfl⟩
  refine wp_bind.mpr (follows_writePipe hsent hfail ?_ fun result hr => ?_)
  · exact h
  · rw [if_pos hr]
    exact follows_printError h

/-- **`close_thread`** does what the machine does on its way out. -/
theorem follows_closeThread {errorMessage : String} {fds : List ℤ} {seat : Text}
    {occupying ended : Bool} {Q : PUnit → Stand → Prop}
    (hseat : occupying = true → seat = t.seat.name) (hno : seat ≠ connectionsThread)
    (h : Q ⟨⟩ { thread := t.goto .finish }) :
    wp (seatRules c) (closeThread errorMessage fds seat occupying ended) E Q
      { thread := t.close occupying ended } := by
  -- the part behind the error message
  have hrest : wp (seatRules c) (do
      if occupying then vacate seat ended
      if !ended ∧ (occupying ∨ seat = connectionsThread) then notify
      closeFds fds) E Q { thread := t.close occupying ended } := by
    cases occupying with
    | false =>
      simp only [Bool.false_eq_true, hno, or_false, and_false, if_false]
      exact follows_closeFds h
    | true =>
      obtain rfl := hseat rfl
      refine wp_bind.mpr (follows_vacate rfl ?_)
      cases ended with
      | true => exact follows_closeFds h
      | false => exact wp_bind.mpr (follows_notify rfl (follows_closeFds h))
  refine wp_ite.mpr ?_
  by_cases he : errorMessage ≠ ""
  · rw [if_pos he]
    exact wp_bind.mpr (follows_printError hrest)
  · rw [if_neg he]
    exact hrest

lemma follows_assertClientReadSocket {result : ℤ} {fds : List ℤ} {seat : Text} {occupying : Bool}
    {s : Stand} {Q : ℤ → Stand → Prop} (hseat : occupying = true → seat = t.seat.name)
    (hno : seat ≠ connectionsThread)
    (hfail : result ≤ 0 → s = { thread := t.close occupying false } ∧
      Q (-1) { thread := t.goto .finish })
    (h : 0 < result → Q 0 s) :
    wp (seatRules c) (assertClientReadSocket result fds seat occupying) E Q s := by
  unfold assertClientReadSocket
  split_ifs with h₀ hneg
  · obtain ⟨rfl, hend⟩ := hfail h₀.le
    exact wp_bind.mpr (follows_closeThread hseat hno hend)
  · obtain ⟨rfl, hend⟩ := hfail hneg.le
    exact wp_bind.mpr (follows_closeThread hseat hno hend)
  · exact h (by omega)

lemma follows_assertClientWriteSocket {result expected : ℤ} {fds : List ℤ} {seat : Text}
    {occupying : Bool} {s : Stand} {Q : ℤ → Stand → Prop}
    (hseat : occupying = true → seat = t.seat.name) (hno : seat ≠ connectionsThread)
    (hfail : result ≠ expected → s = { thread := t.close occupying false } ∧
      Q (-1) { thread := t.goto .finish })
    (h : result = expected → Q 0 s) :
    wp (seatRules c) (assertClientWriteSocket result expected fds seat occupying) E Q s := by
  unfold assertClientWriteSocket
  split_ifs with hr
  · obtain ⟨rfl, hend⟩ := hfail hr
    exact wp_bind.mpr (follows_closeThread hseat hno hend)
  · exact h (not_not.mp hr)

lemma follows_assertClientWritePipe {result : ℤ} {fds : List ℤ} {seat : Text} {occupying : Bool}
    {s : Stand} {Q : ℤ → Stand → Prop} (hseat : occupying = true → seat = t.seat.name)
    (hno : seat ≠ connectionsThread)
    (hfail : result ≠ 1 → s = { thread := t.close occupying false } ∧
      Q (-1) { thread := t.goto .finish })
    (h : result = 1 → Q 0 s) :
    wp (seatRules c) (assertClientWritePipe result fds seat occupying) E Q s := by
  unfold assertClientWritePipe
  split_ifs with hr
  · obtain ⟨rfl, hend⟩ := hfail hr
    exact wp_bind.mpr (follows_closeThread hseat hno hend)
  · exact h (not_not.mp hr)

end Close

/-! ### `reserve_spot` -/

/-- How `reserve_spot` ends, and where the machine is then. -/
def Reserved.Matches (r : Reserved) (s : Stand) : Prop :=
  s.inside = false ∧
    if r.result = 1 then s.thread.pc = .loopTop ∧ r.seat = some s.thread.seat ∧
      s.thread.bWasDestinedToPlay = r.bIsMyTurn ∧ s.thread.bIsBarrier = r.bIsBarrier
    else s.thread.pc = .finish

/-- The thread reserves the seat, and has not found out yet whether it has the turn. -/
structure Reserves (seat : Seat) (clientFd : ℤ) (t : Serwer.Thread) : Prop where
  seat : t.seat = seat
  clientFd : t.clientFd = clientFd
  turn : t.bIsMyTurn = false
  barrier : t.bIsBarrier = false

section Reserve

variable {c : ℕ} {t : Serwer.Thread} {clientFd : ℤ} {seat : Seat}

lemma matches_finish {r : Reserved} (hr : r.result ≠ 1) :
    r.Matches { thread := t.goto .finish } := by
  refine ⟨rfl, ?_⟩
  rw [if_neg hr]
  rfl

lemma follows_sendLine {msg : Text} {p : Serwer.Purpose} {t : Serwer.Thread}
    {Q : PUnit → Stand → Prop} (hpc : t.pc = .send msg p)
    (hp : p = .busy ∨ p = .joinTrick ∨ ∃ i, p = .replay i)
    (h : Q ⟨⟩ { thread := { t with outbox := msg :: t.outbox }.sent p }) :
    wp (seatRules c) (sendLine msg clientFd seat) Reserved.Matches Q { thread := t } := by
  have hsent : Mirrors c t .tick none id ({ t with outbox := msg :: t.outbox }.sent p) :=
    fun sh _ => ⟨sh.log, by simp only [Serwer.threadStep, hpc]; rfl⟩
  have hfail : Mirrors c t .fail none id (t.goto .finish) := by
    intro sh _
    obtain rfl | rfl | ⟨i, rfl⟩ := hp <;>
      exact ⟨_, by simp only [Serwer.threadStep, hpc]; rfl⟩
  refine wp_bind.mpr (follows_writeSocket hpc hsent hfail (fun result hr => ?_) fun result hr => ?_)
  · refine wp_bind.mpr (follows_printLog (wp_bind.mpr ?_))
    refine follows_assertClientWriteSocket (t := t) (by simp) (name_ne_connections seat)
      (fun hne => absurd hr hne) fun _ => ?_
    exact h
  · refine wp_bind.mpr (follows_printLog (wp_bind.mpr ?_))
    refine follows_assertClientWriteSocket (t := t) (by simp) (name_ne_connections seat)
      (fun _ => ⟨rfl, ?_⟩) fun he => absurd he hr
    exact matches_finish (by decide)

/-- **One trick of the catch-up**: out of the critical section, the `TAKEN` line, and in again. -/
lemma follows_replayTurn {x : ℕ × Serwer.Shared} {Q : ℕ × Serwer.Shared → Stand → Prop}
    (hr : Reserves seat clientFd t) (hpc : t.pc = .replay x.1) (hmore : x.1 < x.2.takenTricks.length)
    (h : ∀ sh t', Reserves seat clientFd t' → t'.pc = .replay (x.1 + 1) →
      Q (x.1 + 1, sh) { thread := t', inside := true, found := some sh }) :
    wp (seatRules c) (replayTurn clientFd seat x) Reserved.Matches Q
      { thread := t, inside := true, found := some x.2 } := by
  have hout : Mirrors c t .tick (some x.2) id (t.goto (.takenLine x.1)) := by
    refine mirrors_found x.2.log ?_
    simp only [Serwer.threadStep, hpc, Serwer.Thread.replayAt, if_pos hmore]
    rfl
  refine wp_bind.mpr (follows_unlock hout (wp_bind.mpr ⟨⟨x.1, rfl⟩, ?_⟩))
  rintro ⟨cards, taker⟩ -
  refine wp_bind.mpr (follows_sendLine rfl (.inr (.inr ⟨_, rfl⟩)) ?_)
  refine wp_bind.mpr (follows_lock (wp_bind.mpr (follows_look fun sh => ?_)))
  exact h sh _ ⟨hr.seat, hr.clientFd, hr.turn, hr.barrier⟩ rfl

/-- The catch-up: the `DEAL` line, the tricks and perhaps the request. -/
lemma follows_replay {fuel : ℕ} {sh : Serwer.Shared} {Q : Bool → Stand → Prop}
    (hr : Reserves seat clientFd t) (hpc : t.pc = .dealLine sh.trickTypeGlobal sh.dealStarter)
    (h : ∀ b t', t'.seat = seat → t'.bIsMyTurn = b → t'.bIsBarrier = false → t'.pc = .joinFlag →
      Q b { thread := t' }) :
    wp (seatRules c) (replay fuel clientFd seat sh) Reserved.Matches Q { thread := t } := by
  refine wp_bind.mpr ⟨.inr ⟨_, _, hpc⟩, fun sh' _ => ?_⟩
  have hdraft : stepped c t .tick (some sh') = t.goto
      (.send (dealLine sh.trickTypeGlobal sh.dealStarter (sh'.deal seat)) (.replay 0)) := by
    simp [stepped, Serwer.threadStep, hpc, hr.seat]
  show wp (seatRules c) _ Reserved.Matches Q { thread := stepped c t .tick (some sh') }
  rw [hdraft]
  refine wp_bind.mpr (follows_sendLine rfl (.inr (.inr ⟨0, rfl⟩)) ?_)
  refine wp_bind.mpr (follows_lock (wp_bind.mpr (follows_look fun sh₁ => wp_bind.mpr ?_)))
  let I : ℕ × Serwer.Shared → Stand → Prop := fun x s => ∃ t', Reserves seat clientFd t' ∧
    t'.pc = .replay x.1 ∧ s = { thread := t', inside := true, found := some x.2 }
  refine wp_mono (fun _ _ => id) ?_ (wp_loop_fuel (I := fun _ => I) (fun _ _ _ _ => trivial) ?_
    ⟨_, ?_, ?_, rfl⟩)
  · rintro ⟨i, sh₂⟩ s ⟨hend, -, t', hr', hpc', rfl⟩
    have hend : ¬i < sh₂.takenTricks.length := of_decide_eq_false hend
    dsimp only
    split_ifs with hturn
    · have hout : Mirrors c t' .tick (some sh₂) id { t' with
          bIsMyTurn := true
          pc := .send (trickLine sh₂.trickNumber sh₂.cardsOnTable) .joinTrick } := by
        refine mirrors_found sh₂.log ?_
        simp only [Serwer.threadStep, hpc', Serwer.Thread.replayAt, if_neg hend, hr'.seat,
          if_pos hturn]
        rfl
      refine wp_bind.mpr (follows_unlock hout (wp_bind.mpr ?_))
      refine follows_sendLine rfl (.inr (.inl rfl)) ?_
      exact h true _ hr'.seat rfl hr'.barrier rfl
    · have hout : Mirrors c t' .tick (some sh₂) id (t'.goto .joinFlag) := by
        refine mirrors_found sh₂.log ?_
        simp only [Serwer.threadStep, hpc', Serwer.Thread.replayAt, if_neg hend, hr'.seat,
          if_neg hturn]
        rfl
      exact wp_bind.mpr (follows_unlock hout (h false _ hr'.seat hr'.turn hr'.barrier rfl))
  · rintro - x s ⟨t', hr', hpc', rfl⟩ hmore
    exact follows_replayTurn hr' hpc' (of_decide_eq_true hmore) fun sh₂ t'' hr'' hpc'' =>
      ⟨t'', hr'', hpc'', rfl⟩
  · exact ⟨hr.seat, hr.clientFd, hr.turn, hr.barrier⟩
  · rfl

lemma follows_takeSeat {fuel : ℕ} (hr : Reserves seat clientFd t) (hpc : t.pc = .take) :
    wp (seatRules c) (takeSeat fuel clientFd seat) Reserved.Matches Reserved.Matches
      { thread := t } := by
  -- the last critical section
  have hjoin : ∀ (b : Bool) (t' : Serwer.Thread), t'.seat = seat → t'.bIsMyTurn = b →
      t'.bIsBarrier = false → t'.pc = .joinFlag → wp (seatRules c) (do
        lock .memory
        let sh ← ask .shared
        unlock .memory
        return ⟨1, some seat, b, sh.bIsBarrierOngoing⟩) Reserved.Matches Reserved.Matches
        { thread := t' } := by
    intro b t' hseat hb hbarrier hpc'
    refine wp_bind.mpr (follows_lock (wp_bind.mpr (follows_look fun sh => ?_)))
    have hout : Mirrors c t' .tick (some sh) id (t'.join sh) := by
      exact mirrors_found sh.log (by simp only [Serwer.threadStep, hpc']; rfl)
    refine wp_bind.mpr (follows_unlock hout ⟨rfl, ?_⟩)
    rw [if_pos rfl]
    exact ⟨rfl, by rw [← hseat]; rfl, hb, by simp [Serwer.Thread.join, hbarrier]⟩
  refine wp_bind.mpr (follows_lock (wp_bind.mpr (follows_look fun sh => ?_)))
  refine wp_ite.mpr ?_
  by_cases hfree : sh.seatsStatus seat = -1
  · rw [if_pos hfree]
    have hout : Mirrors c t .tick (some sh)
        (fun sh => { sh with seatsStatus := Function.update sh.seatsStatus seat clientFd })
        (t.goto (if (sh.deal .N).length ≠ 0 then .dealLine sh.trickTypeGlobal sh.dealStarter
          else .joinFlag)) := by
      refine mirrors_found (.took c seat :: sh.log) ?_
      simp only [Serwer.threadStep, hpc, Serwer.Thread.takeSeat, hr.seat, hr.clientFd, if_pos hfree]
      rfl
    refine wp_bind.mpr (follows_change (wp_bind.mpr (follows_unlock hout ?_)))
    refine wp_ite.mpr ?_
    by_cases hdeal : (sh.deal .N).length ≠ 0
    · rw [if_pos hdeal, if_pos hdeal]
      refine wp_bind.mpr (follows_replay ⟨hr.seat, hr.clientFd, hr.turn, hr.barrier⟩ rfl ?_)
      exact hjoin
    · rw [if_neg hdeal, if_neg hdeal]
      exact hjoin false _ hr.seat hr.turn hr.barrier rfl
  · rw [if_neg hfree]
    have hout : Mirrors c t .tick (some sh) id (t.goto (.send (busyLine sh.occupiedSeats) .busy)) := by
      refine mirrors_found sh.log ?_
      simp only [Serwer.threadStep, hpc, Serwer.Thread.takeSeat, hr.seat, if_neg hfree]
      rfl
    refine wp_bind.mpr (follows_unlock hout (wp_bind.mpr ?_))
    refine follows_sendLine rfl (.inl rfl) (wp_bind.mpr (follows_closeFds ?_))
    exact matches_finish (by decide)

/-- **`reserve_spot` makes the steps of the machine**: whatever the calls answer and whatever the other
threads do between its critical sections, it is in step with the thread of its connection, and ends
where the thread ends. -/
theorem reserveSpot_follows {ρ : Type} {E : ρ → Stand → Prop} {fuel : ℕ} {seat : Text}
    (hpc : t.pc = .readIam) (hturn : t.bIsMyTurn = false) (hbarrier : t.bIsBarrier = false)
    (hseat : seat ≠ connectionsThread) :
    wp (seatRules c) (reserveSpot fuel t.clientFd seat) E Reserved.Matches { thread := t } := by
  have hstep : ∀ {o t'}, (∀ sh, Serwer.threadStep sh c t o = some (sh, t')) →
      stepped c t o none = t' := fun h => stepped_eq (f := id) fun sh _ => ⟨sh.log, h sh⟩
  have hfail : stepped c t .fail none = t.close false false :=
    hstep fun sh => by simp only [Serwer.threadStep, hpc]
  have heof : stepped c t .eof none = t.close false false :=
    hstep fun sh => by simp only [Serwer.threadStep, hpc]
  have hgive : ∀ {errorMessage} {Q : Reserved → Stand → Prop}, wp (seatRules c)
      (giveUp errorMessage t.clientFd seat) Reserved.Matches Q
        { thread := stepped c t .fail none } := by
    intro errorMessage Q
    rw [hfail]
    exact wp_bind.mpr (follows_closeThread (by simp) hseat (matches_finish (by decide)))
  refine wp_returned.mpr (wp_bind.mpr (follows_call hpc fun setTimeout => ?_))
  show wp _ (if setTimeout < 0 then _ else _) _ _ (if setTimeout < 0 then _ else _)
  split_ifs with hset
  · exact hgive
  refine wp_bind.mpr (follows_call hpc ?_)
  rintro ⟨socketRead, message⟩
  refine wp_bind.mpr (follows_printLog (wp_bind.mpr ?_))
  show wp _ _ _ _ (if socketRead = 0 then _ else if socketRead < 0 then _ else _)
  refine follows_assertClientReadSocket (t := t) (by simp) hseat (fun hr => ?_) fun hr => ?_
  · refine ⟨?_, matches_finish (by decide)⟩
    split_ifs with h₀ hneg
    · rw [heof]
    · rw [hfail]
    · omega
  rw [if_neg hr.ne', if_neg hr.not_gt]
  refine wp_bind.mpr (follows_call hpc fun disable => ?_)
  show wp _ (if disable < 0 then _ else _) _ _ (if disable < 0 then _ else _)
  split_ifs with hdis
  · exact hgive
  split
  · rename_i s hs
    have hline : stepped c t (.line message) none = { t with seat := s, pc := .take } :=
      hstep fun sh => by simp only [Serwer.threadStep, hpc, hs]
    rw [hline]
    exact follows_takeSeat ⟨rfl, rfl, hturn, hbarrier⟩ rfl
  · rename_i hs
    have hline : stepped c t (.line message) none = t.goto .finish :=
      hstep fun sh => by simp only [Serwer.threadStep, hpc, hs]
    rw [hline]
    refine wp_bind.mpr (follows_printError (wp_bind.mpr (follows_closeFds ?_)))
    exact matches_finish (by decide)

end Reserve

/-! ### `parse_message` -/

/-- How `parse_message` ends, and where the machine is then; no exception leaves it. -/
def Parsed.Matches (after : Serwer.After) : Option Parsed → Stand → Prop
  | none, _ => False
  | some p, s => s.inside = false ∧
    if p.result = 0 then s.thread.pc = after.pc ∧
      s.thread.bWasDestinedToPlay = p.bWasDestinedToPlay ∧ s.thread.timeoutCopy = p.timeoutCopy
    else s.thread.pc = .finish

/-- The thread before the first call of `parse_message`: where it does not look at the shared fields, it
has judged the line already. -/
def judged (t : Serwer.Thread) (message : Text) (after : Serwer.After) : Serwer.Thread :=
  if TRICKClientCheck message then
    if t.bWasDestinedToPlay then t
    else t.goto (.send (wrongLine t.currentTrick) (.wrong after))
  else t.close true false

section Parse

variable {ρ : Type} {c : ℕ} {t : Serwer.Thread} {after : Serwer.After} {message : Text}

/-- To judge a line without a look at the shared fields is a step of the machine. -/
lemma judged_step (hpc : t.pc = .parse message after) : judged t message after = t ∨
    ∀ sh, Serwer.threadStep sh c t .tick = some (sh, judged t message after) := by
  unfold judged
  split_ifs with hcheck hdestined
  · exact .inl rfl
  · exact .inr fun sh => by
      simp only [Serwer.threadStep, hpc, Serwer.Thread.parseStep, if_pos hcheck, if_neg hdestined]
  · exact .inr fun sh => by
      simp only [Serwer.threadStep, hpc, Serwer.Thread.parseStep, if_neg hcheck]

lemma matches_dismissed {p : Parsed} (hp : p.result = -1) :
    Parsed.Matches after (some p) { thread := t.goto .finish } := by
  refine ⟨rfl, ?_⟩
  rw [if_neg (by omega)]
  rfl

lemma follows_sendWrong {clientFd : ℤ} {seat : Seat} {currentTrick : ℕ} {p : Parsed}
    (hpc : t.pc = .send (wrongLine currentTrick) (.wrong after)) (hseat : t.seat = seat)
    (hp : p.result = 0 ∧ p.bWasDestinedToPlay = t.bWasDestinedToPlay ∧
      p.timeoutCopy = t.timeoutCopy) :
    wp (seatRules c) (sendWrong clientFd seat currentTrick p) (Parsed.Matches after)
      (Parsed.Matches after) { thread := t } := by
  have hsent : Mirrors c t .tick none id
      ({ t with outbox := wrongLine currentTrick :: t.outbox }.sent (.wrong after)) :=
    fun sh _ => ⟨sh.log, by simp only [Serwer.threadStep, hpc]; rfl⟩
  have hfail : Mirrors c t .fail none id (t.close true false) :=
    fun sh _ => ⟨sh.log, by simp only [Serwer.threadStep, hpc]; rfl⟩
  have hno := name_ne_connections seat
  refine wp_bind.mpr (follows_writeSocket hpc hsent hfail (fun result hr => ?_) fun result hr => ?_)
  · refine wp_bind.mpr (follows_printLog (wp_bind.mpr ?_))
    refine follows_assertClientWriteSocket (t := t) (by simp [hseat]) hno
      (fun hne => absurd hr hne) fun _ => ⟨rfl, ?_⟩
    rw [if_pos hp.1]
    exact ⟨rfl, hp.2.1.symm, hp.2.2.symm⟩
  · refine wp_bind.mpr (follows_printLog (wp_bind.mpr ?_))
    refine follows_assertClientWriteSocket (t := t) (by simp [hseat]) hno
      (fun _ => ⟨rfl, matches_dismissed rfl⟩) fun he => absurd he hr

/-- **`parse_message` makes the steps of the machine**, and gives back what the machine keeps. -/
theorem parseMessage_follows {E : ρ → Stand → Prop} (hpc : t.pc = .parse message after) :
    wp (seatRules c) (parseMessage message t.clientFd t.seat t.bWasDestinedToPlay t.currentTrick
      t.timeoutCopy) E (Parsed.Matches after) { thread := judged t message after } := by
  have hno := name_ne_connections t.seat
  refine wp_returned.mpr (wp_bind.mpr (follows_printLog ?_))
  unfold judged
  split_ifs with hcheck hdestined
  · refine wp_bind.mpr (follows_lock (wp_bind.mpr (follows_look fun sh => ?_)))
    split
    · exact absurd ‹_› (extractedTrick_isSome hcheck _)
    split
    · rename_i hnone
      have hout : Mirrors c t .tick (some sh) id { t with
          timeoutCopy := sh.timeout
          pc := .send (wrongLine t.currentTrick) (.wrong after) } := by
        refine mirrors_found sh.log ?_
        simp only [Serwer.threadStep, hpc, Serwer.Thread.parseStep, if_pos hcheck, if_pos hdestined,
          hnone]
        rfl
      exact wp_bind.mpr (follows_unlock hout (follows_sendWrong rfl rfl ⟨rfl, rfl, rfl⟩))
    · rename_i card hsome
      have hout : Mirrors c t .tick (some sh) (fun sh => { sh with
            cards := Function.update sh.cards t.seat ((sh.cards t.seat).erase card)
            cardsOnTable := sh.cardsOnTable ++ [card]
            playerTurn := none })
          { t with timeoutCopy := sh.timeout, pc := .writeCardPlay after } := by
        refine mirrors_found (.accepted c t.seat card :: sh.log) ?_
        simp only [Serwer.threadStep, hpc, Serwer.Thread.parseStep, if_pos hcheck, if_pos hdestined,
          hsome]
        rfl
      refine wp_bind.mpr (follows_change (wp_bind.mpr (follows_unlock hout (wp_bind.mpr ?_))))
      refine follows_writePipe (b := .cardPlay) (fun sh _ => ⟨sh.log, rfl⟩) (fun sh _ => ⟨sh.log, rfl⟩)
        (wp_bind.mpr ?_) fun result hr => wp_bind.mpr ?_
      · refine follows_assertClientWritePipe (t := t) (fun _ => rfl) hno (fun hne => absurd rfl hne)
          fun _ => ⟨rfl, ?_⟩
        rw [if_pos rfl]
        exact ⟨rfl, rfl, rfl⟩
      · refine follows_assertClientWritePipe (t := { t with timeoutCopy := sh.timeout })
          (fun _ => rfl) hno (fun _ => ⟨rfl, ?_⟩) fun he => absurd he hr
        exact matches_dismissed rfl
  · exact follows_sendWrong rfl rfl ⟨rfl, rfl, rfl⟩
  · exact wp_bind.mpr (follows_closeThread (fun _ => rfl) hno (matches_dismissed rfl))

end Parse

end Kierki.Mutexes.Serwer
