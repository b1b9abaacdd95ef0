import Kierki.Serwer.Failing.Program
import Kierki.Serwer.MainThread
import Mathlib.Data.List.Sublists

/-!
# The program of the main thread and the steps of the machine

The main thread stands in two models: as a program whose calls may fail, and as the machine whose calls
do not. While no call fails they go together. `callAt` is the call the machine makes at a point, the
critical sections the program leaves out are its steps without a call, and `stepRules` demand that the
program makes each of its calls where the machine does. `main_follows` says that it does,
`mainStep_follows` that a step of the machine is a call of the program with its answer, and `walk_main`
that a run of the machine is a run of the program.
-/

namespace Kierki.Serwer.Failing

open Lib.Calls Lib.Calls.Prog

/-! ### The calls of the machine -/

/-- The number of the pipes of a seat. -/
def pipe (s : Seat) : Fin 5 := Fin.ofNat 5 s.idx

/-- Where the main thread of the machine is, and its loop counter of the tricks. -/
structure Point where
  pc : MainPc
  i : ℕ

def point (m : Main) : Point := ⟨m.pc, m.i⟩

/-- A point at which the machine makes no call, and the point after it. -/
def quietly (p : Point) : Option Point :=
  match p.pc with
  | .barrierReset r => some { p with pc := .barrierAsk Seat.all r }
  | .dealStart => some ⟨.announce .deal Seat.all, 0⟩
  | .turnSet (s :: rest) => some { p with pc := .turnSend s rest }
  | .cardScan s rest false [] => some { p with pc := .cardPoll s rest }
  | .cardScan _ (s :: rest) true [] => some { p with pc := .turnSend s rest }
  | .cardScan _ [] true [] | .trickEnd => some { p with pc := .announce .taken Seat.all }
  | .dealEnd => some { p with pc := .announce .scores Seat.all }
  | _ => none

/-- The point of the next call. -/
def settle (p : Point) : Point := (quietly p).getD p

/-- The call the machine makes at a point. -/
def callAt : MainPc → Option Call
  | .barrierAsk (s :: _) _ | .barrierResend s _ _ => some (told s .barrierResponse)
  | .barrierRelease (s :: _) _ => some (told s .barrierEnd)
  | .announce b (s :: _) => some (told s b.byte)
  | .turnSend s _ => some (told s .cardPlay)
  | .closeSeats (s :: _) _ _ => some (told s .disconnected)
  | .closeServer _ _ => some (.write (.serverWritePipes 4 1) endByte)
  | .barrierPoll _ | .cardPoll _ _ => some (.poll (five.map fun j => .serverReadPipes j 0))
  | .barrierScan (s :: _) _ => some (.read .barrier (.serverReadPipes (pipe s) 0))
  | .cardScan _ _ _ (j :: _) => some (.read .runDeal (.serverReadPipes (pipe j) 0))
  | .barrierScan [] _ => some .occupied
  | .trickStart => some .lastTaker
  | .nextDeal => some .readNextDeal
  | _ => none
where
  /-- A byte to the thread of a seat. -/
  told (s : Seat) (b : Byte) : Call := .write (.serverWritePipes (pipe s) 1) b.char

/-- The seats whose pipes are ready. -/
def readySeats (revents : Fd → Revents) : List Seat :=
  Seat.all.filter fun s => (revents (.serverReadPipes (pipe s) 0)).pollin

/-- Shared fields, deals and a result of `poll` from which the machine has an answer. -/
def surroundings : (c : Call) → c.Answer → Shared × List Deal × List Seat
  | .poll _, some revents =>
    ({ timeout := 0, serverReadPipes := fun _ => [.disconnected] }, [], readySeats revents)
  | .read _ _, .char c =>
    let bytes : List Byte :=
      [.disconnected, .cardPlay, .barrierResponse, .scores, .taken, .deal, .barrierEnd]
    ({ timeout := 0, serverReadPipes := fun _ => bytes.filter fun b => b.char = c }, [], [])
  | .occupied, occupied => ({ timeout := 0, occupied := occupied }, [], [])
  | .lastTaker, lastTaker => ({ timeout := 0, lastTaker := lastTaker }, [], [])
  | .readNextDeal, true =>
    ({ timeout := 0 }, [{ trickType := 0, seat := .N, rawCards := fun _ => [] }], [])
  | _, _ => ({ timeout := 0 }, [], [])

/-- The calls the machine makes too. -/
def Call.known : Call → Bool
  | poll _ | read _ _ | write _ _ | occupied | lastTaker | readNextDeal => true
  | _ => false

/-- The point of the next call after a step of the machine. -/
def Point.after (p : Point) : Option (Shared × Main) → Point
  | some (_, m) => settle (point m)
  | none => p

/-- The point of the next call after a call and its answer. -/
def Point.next (p : Point) (c : Call) (a : c.Answer) : Point :=
  if c.known then
    let (sh, deals, ready) := surroundings c a
    p.after (mainStep sh { pc := p.pc, i := p.i, deals := deals } ready)
  else p

/-- The call is made where the machine makes it. What the machine does not do of `close_server` comes
before or after its steps. -/
def Point.ok (p : Point) : Call → Prop
  | .pipe _ | .startThread => p.pc = .barrierAsk Seat.all .startGame
  | .closeServer _ errorMessage => ∃ wait, p.pc = .closeServer errorMessage wait
  | .joinConnections | .joinClients | .close _ => ∃ left errorMessage wait,
    p.pc = .closeSeats left errorMessage wait
  | .printError _ => True
  | c => c.known = true ∧ callAt p.pc = some c

/-- The answers of calls that do not fail. The pipe of the connection thread stays empty, and `poll`
returns with a pipe that is ready. -/
def granted : (c : Call) → c.Answer → Prop
  | .pipe _, made => made = true
  | .startThread, thrown => thrown = none
  | .poll _, revents => ∃ ready, revents = some ready ∧ readySeats ready ≠ [] ∧
    (ready (.serverReadPipes 4 0)).pollin = false ∧ ∀ fd, (ready fd).pollerr = false
  | .read _ _, got => ∃ b : Byte, got = .char b.char
  | .write _ _, result => result = (1 : ℤ)
  | _, _ => True

def stepRules : Rules Call Call.Answer Point where
  ok := Point.ok
  may _ := granted
  next := Point.next
  spins _ := True

/-! ### The calls of the program -/

section Calls

variable {ρ α : Type} {p p' : Point} {E : ρ → Point → Prop} {s : Seat} {b : Byte} {i : ℕ}

lemma follows_known {c : Call} {Q : c.Answer → Point → Prop} (hc : c.known = true)
    (hat : callAt p.pc = some c) (h : ∀ a, granted c a → Q a (p.next c a)) :
    wp stepRules (ask c : Proc ρ c.Answer) E Q p := by
  refine ⟨?_, h⟩
  cases c <;> first | exact ⟨rfl, hat⟩ | cases hc

lemma next_quiet {c : Call} {a : c.Answer} (hc : c.known = false) : p.next c a = p := by
  rw [Point.next, hc]
  rfl

/-- A call the machine does not make. -/
lemma follows_quiet {c : Call} {Q : c.Answer → Point → Prop} (hc : c.known = false) (hok : p.ok c)
    (h : ∀ a, granted c a → Q a p) : wp stepRules (ask c : Proc ρ c.Answer) E Q p := by
  refine ⟨hok, fun a ha => ?_⟩
  show Q a (p.next c a)
  rw [next_quiet hc]
  exact h a ha

lemma follows_write {fd : Fd} {c : Char} {Q : ℤ → Point → Prop}
    (hat : callAt p.pc = some (.write fd c)) (hnext : p.next (.write fd c) (1 : ℤ) = p')
    (h : Q 1 p') : wp stepRules (write fd c : Proc ρ ℤ) E Q p := by
  refine follows_known rfl hat ?_
  rintro _ rfl
  rwa [hnext]

lemma follows_tell {Q : PUnit → Point → Prop} {E : ℤ → Point → Prop}
    (hat : callAt p.pc = some (callAt.told s b)) (hnext : p.next (callAt.told s b) (1 : ℤ) = p')
    (h : Q ⟨⟩ p') : wp stepRules (tell b (pipe s)) E Q p :=
  wp_bind.mpr (follows_write hat hnext h)

/-- A byte to all the seats; `left l` is the point at which the seats `l` are left. -/
lemma follows_tellAll {E : ℤ → Point → Prop} (left : List Seat → Point)
    (hat : ∀ s l, callAt (left (s :: l)).pc = some (callAt.told s b))
    (hnext : ∀ s l, (left (s :: l)).next (callAt.told s b) (1 : ℤ) = left l)
    {Q : PUnit → Point → Prop} (h : Q ⟨⟩ (left [])) :
    wp stepRules (forM four (tell b)) E Q (left Seat.all) := by
  have hone : ∀ s l {Q : PUnit → Point → Prop}, Q ⟨⟩ (left l) →
      wp stepRules (tell b (pipe s)) E Q (left (s :: l)) :=
    fun s l _ hQ => follows_tell (hat s l) (hnext s l) hQ
  refine wp_bind.mpr (hone .N _ (wp_bind.mpr (hone .E _ (wp_bind.mpr (hone .S _ (wp_bind.mpr ?_))))))
  exact hone .W _ h

lemma follows_printErrors {l : List String} {Q : PUnit → Point → Prop} (h : Q ⟨⟩ p) :
    wp stepRules (forM l printError : Proc ρ PUnit) E Q p := by
  refine wp_mono (fun _ _ => id) ?_ (wp_forM_keeps (I := fun p' => p = p') ?_ rfl)
  · rintro _ _ rfl
    exact h
  · rintro message - _ rfl
    exact wp_bind.mpr (follows_quiet rfl trivial fun _ _ => rfl)

end Calls

/-! ### `close_server` -/

/-- The machine has closed the server. -/
def Closed (p : Point) : Prop := ∃ errorMessage wait, p.pc = .closeSeats [] errorMessage wait

/-- A function that met a failure returns -1. -/
def Failed (r : ℤ) (p : Point) : Prop := r = -1 ∧ Closed p

section Close

variable {ρ α : Type} {E : ρ → Point → Prop} {i : ℕ} {errorMessage : String} {wait : Option Seat}

lemma follows_closePipes {p : Point} {Q : PUnit → Point → Prop} (hp : Closed p) (h : Q ⟨⟩ p) :
    wp stepRules (forM five fun i => closeFds (pipeFds i) : Proc ρ PUnit) E Q p := by
  obtain ⟨errorMessage, wait, hpc⟩ := hp
  refine wp_mono (fun _ _ => id) ?_ (wp_forM_keeps (I := fun p' => p = p') ?_ rfl)
  · rintro _ _ rfl
    exact h
  · rintro j - _ rfl
    refine wp_forM_keeps (I := fun p' => p = p') ?_ rfl
    rintro fd - _ rfl
    exact wp_bind.mpr (follows_quiet rfl ⟨_, _, _, hpc⟩ fun _ _ => rfl)

/-- **`close_server`** tells the threads what the machine tells them. -/
lemma follows_closeServer (caller : Func) {Q : Bool → Point → Prop}
    (h : ∀ failed p, Closed p → Q failed p) :
    wp stepRules (closeServer caller errorMessage : Proc ρ Bool) E Q
      ⟨.closeServer errorMessage wait, i⟩ := by
  let left (l : List Seat) : Point := ⟨.closeSeats l errorMessage wait, i⟩
  have hone : ∀ s l (failed : Bool) {Q : Bool → Point → Prop}, Q failed (left l) →
      wp stepRules (do
        let pipeWrite ← write (.serverWritePipes (pipe s) 1) Byte.disconnected.char
        if pipeWrite ≠ 1 then
          printError "Failed to notify thread on server close."
          return true
        else return failed : Proc ρ Bool) E Q (left (s :: l)) :=
    fun s l failed _ hQ => wp_bind.mpr (follows_write rfl rfl hQ)
  refine wp_bind.mpr (follows_quiet rfl ⟨wait, rfl⟩ fun _ _ => ?_)
  refine wp_bind.mpr (follows_write rfl (show _ = left Seat.all from rfl) ?_)
  refine wp_bind.mpr (follows_quiet rfl ⟨_, _, _, rfl⟩ fun thrown _ => ?_)
  refine wp_bind.mpr (follows_printErrors ?_)
  refine wp_bind.mpr (wp_bind.mpr (hone .N _ _ (wp_bind.mpr (hone .E _ _ (wp_bind.mpr ?_)))))
  refine hone .S _ _ (wp_bind.mpr (hone .W [] _ ?_))
  have hclosed : Closed (left []) := ⟨_, _, rfl⟩
  refine wp_bind.mpr (follows_quiet rfl ⟨_, _, _, rfl⟩ fun thrownByClients _ => ?_)
  refine wp_bind.mpr (follows_printErrors (wp_bind.mpr (follows_closePipes hclosed ?_)))
  rw [wp_ite]
  split
  · exact wp_bind.mpr (wp_bind.mpr (follows_quiet rfl trivial fun _ _ => h _ _ hclosed))
  · exact h _ _ hclosed

lemma follows_fail (caller : Func) {Q : α → Point → Prop} :
    wp stepRules (fail caller errorMessage : Proc ℤ α) Failed Q ⟨.closeServer errorMessage wait, i⟩ :=
  wp_bind.mpr (follows_closeServer caller fun _ _ hp => ⟨rfl, hp⟩)

lemma follows_body {p : Proc ℤ ℤ} {q : Point} {Q : ℤ → Point → Prop}
    (hfailed : ∀ q', Closed q' → Q (-1) q') (h : wp stepRules p Failed Q q) :
    wp stepRules (p.returned : Proc ρ ℤ) E Q q := by
  refine wp_returned.mpr (wp_mono ?_ (fun _ _ => id) h)
  rintro _ q' ⟨rfl, hclosed⟩
  exact hfailed q' hclosed

end Close

/-! ### `barrier` -/

section Barrier

variable {ρ : Type} {E : ρ → Point → Prop} {i : ℕ}

/-- The pipe of `s` after a round of `poll`: what is ready is read. -/
def wanted (revents : Fd → Revents) (s : Seat) : List Seat :=
  if (revents (.serverReadPipes (pipe s) 0)).pollin then [s] else []

lemma readySeats_eq (revents : Fd → Revents) : readySeats revents =
    wanted revents .N ++ (wanted revents .E ++ (wanted revents .S ++ (wanted revents .W ++ []))) := by
  unfold readySeats wanted Seat.all
  simp only [List.filter_cons, List.filter_nil]
  split_ifs <;> rfl

lemma next_read {p : Point} {b : Byte} {caller : Func} {fd : Fd} :
    p.next (.read caller fd) (.char b.char) = p.after (mainStep
      { timeout := 0, serverReadPipes := fun _ => [b] } { pc := p.pc, i := p.i, deals := [] } []) := by
  cases b <;> rfl

lemma follows_poll {p : Point} {Q : Option (Fd → Revents) → Point → Prop}
    (hat : callAt p.pc = some (.poll (five.map fun j => .serverReadPipes j 0)))
    (h : ∀ revents, readySeats revents ≠ [] → (revents (.serverReadPipes 4 0)).pollin = false →
      (∀ fd, (revents fd).pollerr = false) →
      Q (some revents) (p.next (.poll (five.map fun j => .serverReadPipes j 0)) (some revents))) :
    wp stepRules (ask (.poll (five.map fun j => .serverReadPipes j 0)) :
      Proc ρ (Option (Fd → Revents))) E Q p := by
  refine follows_known rfl hat ?_
  rintro _ ⟨revents, rfl, hready, hfour, herr⟩
  exact h revents hready hfour herr

lemma pipe_ne_four (s : Seat) : pipe s ≠ 4 := by cases s <;> decide

/-- `barrier`: one pipe after a round of `poll`. -/
lemma follows_barrierScan {revents : Fd → Revents} (herr : ∀ fd, (revents fd).pollerr = false) (s : Seat)
    {ready : List Seat} {r : Caller} {Q : PUnit → Point → Prop}
    (h : Q ⟨⟩ ⟨.barrierScan ready r, i⟩) :
    wp stepRules (barrierScan revents (pipe s)) Failed Q
      ⟨.barrierScan (wanted revents s ++ ready) r, i⟩ := by
  unfold barrierScan wanted
  by_cases hin : (revents (.serverReadPipes (pipe s) 0)).pollin = true
  · rw [if_pos hin, if_pos hin]
    refine wp_bind.mpr (follows_known rfl rfl ?_)
    rintro _ ⟨b, rfl⟩
    rw [next_read]
    refine wp_bind.mpr ?_
    -- the read is 1, and this is not the pipe of the connection thread
    show wp stepRules (if (Got.char b.char).message = some Byte.disconnected.char ∧ pipe s = 4
      then _ else _) _ _ _
    rw [if_neg fun hb => pipe_ne_four s hb.2]
    cases b with
    | disconnected => exact follows_tell rfl rfl h
    | barrierResponse => exact h
    | cardPlay | scores | taken | deal | barrierEnd => exact follows_fail .barrier
  · rw [if_neg hin, if_neg hin, if_neg (by simp [herr])]
    exact h

lemma barrierScan_four {revents : Fd → Revents} {p : Point} {Q : PUnit → Point → Prop}
    (hfour : (revents (.serverReadPipes 4 0)).pollin = false)
    (herr : ∀ fd, (revents fd).pollerr = false) (h : Q ⟨⟩ p) :
    wp stepRules (barrierScan revents 4) Failed Q p := by
  unfold barrierScan
  rw [if_neg (by simp [hfour]), if_neg (by simp [herr])]
  exact h

/-- The point of the machine once it has computed `waiting`. -/
def sampled (waiting : ℤ) (r : Caller) (i : ℕ) : Point :=
  ⟨if 0 < waiting then .barrierPoll r else .barrierRelease Seat.all r, i⟩

lemma settle_barrierSample (sh : Shared) (m : Main) (r : Caller) :
    settle (point (m.barrierSample sh r).2) = sampled (int16 (4 - sh.occupied)) r m.i := by
  unfold Main.barrierSample sampled
  by_cases hwaiting : 0 < int16 (4 - sh.occupied)
  · simp only [if_pos hwaiting]
    rfl
  · simp only [if_neg hwaiting]
    rfl

lemma next_occupied {r : Caller} {occupied : ℤ} :
    Point.next ⟨.barrierScan [] r, i⟩ .occupied occupied = sampled (int16 (4 - occupied)) r i :=
  settle_barrierSample { timeout := 0, occupied := occupied }
    { pc := .barrierScan [] r, i := i, deals := [] } r

/-- After a `poll` the machine goes on with the pipes that are ready. -/
lemma next_poll {p : Point} {revents : Fd → Revents} {fds : List Fd} (scan : List Seat → MainPc)
    (hstep : ∀ sh ready, mainStep sh { pc := p.pc, i := p.i, deals := [] } ready =
      if Ready sh ready then some (sh, Main.goto { pc := p.pc, i := p.i, deals := [] } (scan ready))
      else none) (h : readySeats revents ≠ []) :
    p.next (.poll fds) (some revents) = settle ⟨scan (readySeats revents), p.i⟩ := by
  have hready : Ready { timeout := 0, serverReadPipes := fun _ => [.disconnected] }
      (readySeats revents) := ⟨h, List.filter_sublist, fun _ _ => by simp⟩
  show p.after (mainStep _ _ (readySeats revents)) = _
  rw [hstep, if_pos hready]
  rfl

lemma follows_barrierRound {waiting : ℤ} {r : Caller} (hwaiting : 0 < waiting) :
    wp stepRules (barrierRound waiting) Failed (fun waiting p => p = sampled waiting r i)
      (sampled waiting r i) := by
  rw [sampled, if_pos hwaiting]
  refine wp_bind.mpr (follows_poll rfl fun revents hready hfour herr => ?_)
  rw [next_poll (fun ready => .barrierScan ready r) (fun _ _ => rfl) hready, readySeats_eq]
  refine wp_bind.mpr (wp_bind.mpr (follows_barrierScan herr .N (wp_bind.mpr ?_)))
  refine follows_barrierScan herr .E (wp_bind.mpr (follows_barrierScan herr .S (wp_bind.mpr ?_)))
  refine follows_barrierScan herr .W (wp_bind.mpr (barrierScan_four hfour herr ?_))
  exact wp_bind.mpr (follows_known rfl rfl fun occupied _ => next_occupied)

/-- **`barrier`** returns where the machine goes on. -/
lemma follows_barrier {fuel : ℕ} {r : Caller} {Q : ℤ → Point → Prop}
    (h : Q 0 (settle (point (Main.afterBarrier { deals := [], i := i } r))))
    (hfailed : ∀ p, Closed p → Q (-1) p) :
    wp stepRules (barrier fuel : Proc ρ ℤ) E Q ⟨.barrierAsk Seat.all r, i⟩ := by
  refine follows_body hfailed (wp_bind.mpr ?_)
  let asked (l : List Seat) : Point := ⟨Main.loop l (.barrierAsk l r) (.barrierPoll r), i⟩
  refine follows_tellAll asked (fun s l => rfl) (fun s l => ?_) ?_
  · unfold asked Main.loop
    rcases l with _ | ⟨s', l⟩ <;> rfl
  refine wp_bind.mpr (wp_mono (fun _ _ => id) ?_ (wp_loop_fuel
    (I := fun _ waiting p => p = sampled waiting r i) (fun _ _ _ _ => trivial) ?_ rfl))
  · rintro waiting _ ⟨hend, -, rfl⟩
    rw [sampled, if_neg (of_decide_eq_false hend)]
    let released (l : List Seat) : Point :=
      if l = [] then settle (point (Main.afterBarrier { deals := [], i := i } r))
      else ⟨.barrierRelease l r, i⟩
    refine wp_bind.mpr (follows_tellAll released (fun s l => rfl) (fun s l => ?_) h)
    rcases l with _ | ⟨s', l⟩
    · cases r <;> rfl
    · rfl
  · rintro - waiting _ rfl hmore
    exact follows_barrierRound (of_decide_eq_true hmore)

end Barrier

/-! ### `run_deal` -/

section RunDeal

variable {ρ : Type} {E : ρ → Point → Prop} {i fuel : ℕ} {s : Seat} {rest : List Seat}

lemma pipe_injective : Function.Injective pipe := by
  intro s s'
  cases s <;> cases s' <;> decide

/-- The point in the wait for the card of `s`, with the pipes `ready` still to read. -/
def waits (s : Seat) (rest : List Seat) (i : ℕ) (got : Bool) (ready : List Seat) : Point :=
  settle ⟨.cardScan s rest got ready, i⟩

lemma waits_cons {got : Bool} {j : Seat} {ready : List Seat} :
    waits s rest i got (j :: ready) = ⟨.cardScan s rest got (j :: ready), i⟩ := by
  cases got with
  | false => rfl
  | true => rcases rest with _ | ⟨s', rest⟩ <;> rfl

/-- `run_deal`: one pipe after a round of `poll`. -/
lemma follows_cardScan {revents : Fd → Revents} (herr : ∀ fd, (revents fd).pollerr = false) (j : Seat)
    {got : Bool} {ready : List Seat} {Q : Bool → Point → Prop}
    (h : ∀ got, Q got (waits s rest i got ready)) :
    wp stepRules (cardScan fuel (pipe s) revents got (pipe j)) Failed Q
      (waits s rest i got (wanted revents j ++ ready)) := by
  unfold cardScan wanted
  by_cases hin : (revents (.serverReadPipes (pipe j) 0)).pollin = true
  · rw [if_pos hin, if_pos hin, List.singleton_append, waits_cons]
    refine wp_bind.mpr (follows_known rfl rfl ?_)
    rintro _ ⟨b, rfl⟩
    rw [next_read]
    refine wp_bind.mpr ?_
    show wp stepRules (if (Got.char b.char).message = some Byte.cardPlay.char ∧ pipe j = pipe s
      then _ else _) _ _ (settle (point (Main.cardByte _ s rest got j ready b)))
    have hmine : ((Got.char b.char).message = some Byte.cardPlay.char ∧ pipe j = pipe s) ↔
        (b = .cardPlay ∧ j = s) := by
      refine and_congr ?_ pipe_injective.eq_iff
      cases b <;> decide
    unfold Main.cardByte
    by_cases hcard : b = .cardPlay ∧ j = s
    · rw [if_pos (hmine.mpr hcard), if_pos hcard]
      exact h true
    · rw [if_neg (mt hmine.mp hcard), if_neg hcard]
      cases b with
      | disconnected =>
        show wp stepRules (if pipe j = 4 then _ else _) _ _ _
        rw [if_neg (pipe_ne_four j)]
        refine wp_bind.mpr (follows_barrier (r := .cardWait s rest got ready) (h got) fun p hp => ?_)
        exact ⟨rfl, hp⟩
      | cardPlay | barrierResponse | scores | taken | deal | barrierEnd =>
        exact follows_fail .runDeal
  · rw [if_neg hin, if_neg hin, if_neg (by simp [herr])]
    exact h got

lemma cardScan_four {revents : Fd → Revents} {player : Fin 5} {got : Bool} {p : Point}
    {Q : Bool → Point → Prop} (hfour : (revents (.serverReadPipes 4 0)).pollin = false)
    (herr : ∀ fd, (revents fd).pollerr = false) (h : Q got p) :
    wp stepRules (cardScan fuel player revents got 4) Failed Q p := by
  unfold cardScan
  rw [if_neg (by simp [hfour]), if_neg (by simp [herr])]
  exact h

lemma follows_cardRound :
    wp stepRules (cardRound fuel (pipe s) false) Failed (fun got p => p = waits s rest i got [])
      ⟨.cardPoll s rest, i⟩ := by
  refine wp_bind.mpr (follows_poll rfl fun revents hready hfour herr => ?_)
  rw [next_poll (fun ready => .cardScan s rest false ready) (fun _ _ => rfl) hready, readySeats_eq]
  refine wp_bind.mpr (follows_cardScan herr .N fun _ => wp_bind.mpr ?_)
  refine follows_cardScan herr .E fun _ => wp_bind.mpr (follows_cardScan herr .S fun _ => ?_)
  refine wp_bind.mpr (follows_cardScan herr .W fun _ => wp_bind.mpr ?_)
  exact cardScan_four hfour herr rfl

/-- `run_deal`: the turn of one seat. -/
lemma follows_turn {beginning : Seat} {k : ℕ} (hs : Fin.ofNat 5 ((beginning.idx + k) % 4) = pipe s)
    {Q : PUnit → Point → Prop} (h : Q ⟨⟩ (waits s rest i true [])) :
    wp stepRules (turn fuel beginning k) Failed Q ⟨.turnSend s rest, i⟩ := by
  unfold turn
  rw [hs]
  refine wp_bind.mpr (follows_tell rfl (show _ = waits s rest i false [] from rfl) ?_)
  refine wp_bind.mpr (wp_mono (fun _ _ => id) ?_ (wp_loop_fuel
    (I := fun _ got p => p = waits s rest i got []) (fun _ _ _ _ => trivial) ?_ rfl))
  · rintro got _ ⟨hend, -, rfl⟩
    obtain rfl : got = true := by simpa using hend
    exact h
  · rintro - got _ rfl hmore
    obtain rfl : got = false := by simpa using hmore
    exact follows_cardRound

/-- The point at the start of the trick `i`, or at the end of the deal. -/
def between (i : ℕ) : Point := settle ⟨if i < 13 then .trickStart else .dealEnd, i⟩

/-- `run_deal`: one trick. -/
lemma follows_trick (hi : i < 13) :
    wp stepRules (trick fuel i) Failed (fun _ p => p = between (i + 1)) (between i) := by
  have hstart : between i = ⟨.trickStart, i⟩ := by
    rw [between, if_pos hi]
    rfl
  rw [hstart]
  refine wp_bind.mpr (follows_known rfl rfl fun beginning _ => ?_)
  have hnext : Point.next ⟨.trickStart, i⟩ .lastTaker beginning =
    settle ⟨.turnSet beginning.order, i⟩ := rfl
  show wp _ _ _ _ (Point.next ⟨.trickStart, i⟩ .lastTaker beginning)
  rw [hnext]
  have hpipe : ∀ k < 4, Fin.ofNat 5 ((beginning.idx + k) % 4) =
      pipe (Seat.at4 (beginning.idx + k)) := by
    cases beginning <;> decide
  refine wp_bind.mpr (wp_bind.mpr (follows_turn (hpipe 0 (by decide)) (wp_bind.mpr ?_)))
  refine follows_turn (hpipe 1 (by decide)) (wp_bind.mpr (follows_turn (hpipe 2 (by decide)) ?_))
  refine wp_bind.mpr (follows_turn (hpipe 3 (by decide)) ?_)
  let left (l : List Seat) : Point :=
    settle ⟨Main.loop l (.announce .taken l) (.barrierReset .endOfTrick), i⟩
  refine wp_bind.mpr (follows_tellAll left (fun s l => rfl) (fun s l => ?_) ?_)
  · rcases l with _ | ⟨s', l⟩ <;> rfl
  refine wp_bind.mpr (follows_barrier ?_ fun p hp => ?_)
  · rfl
  · exact ⟨rfl, hp⟩

/-- **`run_deal`** makes the calls of the machine. -/
lemma follows_runDeal {k : ℕ} {Q : ℤ → Point → Prop} (h : ∀ i, Q 0 ⟨.nextDeal, i⟩)
    (hfailed : ∀ p, Closed p → Q (-1) p) :
    wp stepRules (runDeal fuel : Proc ρ ℤ) E Q (settle ⟨.dealStart, k⟩) := by
  refine follows_body hfailed ?_
  let announced (l : List Seat) : Point :=
    settle ⟨Main.loop l (.announce .deal l) .trickStart, 0⟩
  refine wp_bind.mpr (follows_tellAll announced (fun s l => rfl) (fun s l => ?_) ?_)
  · rcases l with _ | ⟨s', l⟩ <;> rfl
  refine wp_bind.mpr (wp_mono (fun _ _ => id) ?_
    (wp_forM (I := fun before p => p = between before.length) ?_ rfl))
  · rintro _ _ rfl
    let left (l : List Seat) : Point :=
      settle ⟨Main.loop l (.announce .scores l) (.barrierReset .endOfDeal), 13⟩
    refine wp_bind.mpr (follows_tellAll left (fun s l => rfl) (fun s l => ?_) ?_)
    · rcases l with _ | ⟨s', l⟩ <;> rfl
    refine wp_bind.mpr (follows_barrier ?_ fun p hp => ?_)
    · exact h 13
    · exact ⟨rfl, hp⟩
  · rintro before j after _ hl rfl
    have hget : (List.range 13)[before.length]? = some j := by
      rw [hl]
      simp
    obtain ⟨hlt, hj⟩ := List.getElem?_eq_some_iff.mp hget
    rw [List.getElem_range] at hj
    rw [List.length_range] at hlt
    rw [List.length_append, ← hj]
    exact follows_trick hlt

end RunDeal

/-! ### The whole program -/

section Main

variable {ρ : Type} {E : ρ → Point → Prop} {i fuel : ℕ}

/-- The point after `read_next_deal`. -/
def offered (more : Bool) (i : ℕ) : Point :=
  settle ⟨if more then .dealStart else .closeServer "" none, i⟩

lemma follows_readNextDeal {Q : Bool → Point → Prop} (h : ∀ more, Q more (offered more i)) :
    wp stepRules (ask .readNextDeal : Proc ρ Bool) E Q ⟨.nextDeal, i⟩ := by
  refine follows_known rfl rfl fun more _ => ?_
  have hnext : Point.next ⟨.nextDeal, i⟩ .readNextDeal more = offered more i := by
    cases more <;> rfl
  rw [hnext]
  exact h more

/-- **`run_game`** makes the calls of the machine. -/
lemma follows_runGame : wp stepRules (runGame fuel : Proc ρ ℤ) E (fun _ => Closed) ⟨.nextDeal, i⟩ := by
  refine wp_returned.mpr (wp_bind.mpr (follows_readNextDeal fun more => wp_bind.mpr ?_))
  refine wp_mono (fun _ _ => id) ?_ (wp_loop_fuel (I := fun _ more p => ∃ i, p = offered more i)
    (fun _ _ _ _ => trivial) ?_ ⟨i, rfl⟩)
  · rintro more _ ⟨hend, -, i', rfl⟩
    obtain rfl : more = false := hend
    exact wp_bind.mpr (follows_closeServer .runGame fun _ _ hp => hp)
  · rintro - more _ ⟨i', rfl⟩ hmore
    obtain rfl : more = true := hmore
    refine wp_bind.mpr (follows_runDeal (fun i => ?_) fun p hp => hp)
    exact follows_readNextDeal fun more => ⟨i, rfl⟩

/-- **`start_game`** makes the calls of the machine. -/
lemma follows_startGame : wp stepRules (startGame fuel : Proc ρ ℤ) E
    (fun r p => r = 0 ∧ p = ⟨.nextDeal, i⟩ ∨ r = 1 ∧ Closed p) ⟨.barrierAsk Seat.all .startGame, i⟩ := by
  refine wp_returned.mpr (wp_bind.mpr ?_)
  refine wp_mono (fun _ _ => id) ?_ (wp_foldlM_keeps
    (I := fun _ p => (⟨.barrierAsk Seat.all .startGame, i⟩ : Point) = p) ?_ rfl)
  · rintro _ _ rfl
    refine wp_bind.mpr (follows_quiet rfl rfl ?_)
    rintro _ rfl
    exact wp_bind.mpr (follows_barrier (.inl ⟨rfl, rfl⟩) fun p hp => .inr ⟨rfl, hp⟩)
  · rintro j - made _ rfl
    refine wp_bind.mpr (follows_quiet rfl rfl ?_)
    rintro _ rfl
    refine wp_bind.mpr (follows_quiet rfl rfl ?_)
    rintro _ rfl
    rfl

/-- **The program of the main thread makes the calls of the machine**, each where the machine makes it
and for every answer but a failure, and it ends where the machine has closed the server. -/
theorem main_follows (deals : List Deal) : wp stepRules (main fuel : Proc ρ ℤ) E (fun _ => Closed)
    (settle (point { deals := deals })) := by
  refine wp_bind.mpr (wp_mono (fun _ _ => id) ?_ follows_startGame)
  rintro r _ (⟨rfl, rfl⟩ | ⟨rfl, hclosed⟩)
  · exact follows_runGame
  · exact hclosed

end Main

/-! ### The steps of the machine -/

section Steps

variable {sh sh' : Shared} {m m' : Main} {ready : List Seat}

/-- What the machine answers to a call. -/
def answer (sh : Shared) (m : Main) (ready : List Seat) : (c : Call) → c.Answer
  | .poll _ => some fun fd => { pollin := decide (fd ∈ ready.map fun s => .serverReadPipes (pipe s) 0) }
  | .read _ (.serverReadPipes j _) =>
    match sh.serverReadPipes (Seat.at4 j) with
    | b :: _ => .char b.char
    | [] => .failed
  | .read _ _ => .failed
  | .write _ _ => (1 : ℤ)
  | .occupied => sh.occupied
  | .lastTaker => sh.lastTaker
  | .readNextDeal => !m.deals.isEmpty
  | .startThread | .startClient _ | .joinConnections => none
  | .joinClients => []
  | .pipe _ | .socket | .setsockopt _ | .bind _ | .listen _ | .accept _ => true
  | .close _ | .closeServer _ _ | .printError _ => ()

lemma at4_pipe (s : Seat) : Seat.at4 (pipe s) = s := by cases s <;> rfl

lemma readySeats_answer (h : ready.Sublist Seat.all) :
    readySeats (fun fd => { pollin := decide (fd ∈ ready.map fun s => .serverReadPipes (pipe s) 0) }) =
      ready := by
  have hmem : ∀ s, decide (Fd.serverReadPipes (pipe s) 0 ∈
      ready.map fun s => .serverReadPipes (pipe s) 0) = decide (s ∈ ready) := by
    intro s
    refine decide_eq_decide.mpr ⟨fun hs => ?_, fun hs => List.mem_map_of_mem hs⟩
    obtain ⟨s', hs', heq⟩ := List.mem_map.mp hs
    obtain rfl := pipe_injective (Fd.serverReadPipes.inj heq).1
    exact hs'
  have hall : ∀ l ∈ Seat.all.sublists, Seat.all.filter (fun s => decide (s ∈ l)) = l := by decide
  unfold readySeats
  simp only [hmem]
  exact hall ready (List.mem_sublists.mpr h)

lemma granted_answer (h : Ready sh ready) {fds : List Fd} :
    granted (.poll fds) (answer sh m ready (.poll fds)) := by
  refine ⟨_, rfl, ?_, ?_, fun fd => rfl⟩
  · rw [readySeats_answer h.2.1]
    exact h.1
  · refine decide_eq_false fun hmem => ?_
    obtain ⟨s, -, heq⟩ := List.mem_map.mp hmem
    exact pipe_ne_four s (Fd.serverReadPipes.inj heq).1

lemma answer_read {s : Seat} {b : Byte} {rest : List Byte} {caller : Func}
    (h : sh.serverReadPipes s = b :: rest) :
    answer sh m ready (.read caller (.serverReadPipes (pipe s) 0)) = .char b.char := by
  show (match sh.serverReadPipes (Seat.at4 (pipe s)) with
    | b :: _ => Got.char b.char
    | [] => .failed) = _
  rw [at4_pipe, h]

/-- **A step of the machine is a call of the program**, with the answer the machine hears, or changes
the shared fields only. -/
theorem mainStep_follows (h : mainStep sh m ready = some (sh', m')) :
    callAt m.pc = none ∧ settle (point m') = settle (point m) ∨
    ∃ c, callAt m.pc = some c ∧ settle (point m) = point m ∧ granted c (answer sh m ready c) ∧
      (point m).next c (answer sh m ready c) = settle (point m') := by
  obtain ⟨pc, deals, trickType, seat, i, beginning, scores⟩ := m
  cases pc with
  | barrierReset r =>
    cases h
    exact .inl ⟨rfl, rfl⟩
  | barrierAsk left r =>
    rcases left with _ | ⟨s, left⟩
    · cases h
    · cases h
      refine .inr ⟨_, rfl, rfl, rfl, ?_⟩
      rcases left with _ | ⟨s', left⟩ <;> rfl
  | barrierPoll r =>
    obtain ⟨hready, heq⟩ := Option.ite_none_right_eq_some.mp h
    cases heq
    refine .inr ⟨_, rfl, rfl, granted_answer hready, ?_⟩
    refine (next_poll (fun ready => .barrierScan ready r) (fun _ _ => rfl) ?_).trans ?_
    · rw [readySeats_answer hready.2.1]
      exact hready.1
    · rw [readySeats_answer hready.2.1]
      rfl
  | barrierScan ready' r =>
    rcases ready' with _ | ⟨s, ready'⟩
    · obtain rfl : _ = m' := congrArg Prod.snd (Option.some.inj h)
      refine .inr ⟨_, rfl, rfl, trivial, ?_⟩
      exact next_occupied.trans (settle_barrierSample sh _ r).symm
    · obtain ⟨⟨b, sh₁⟩, hread, heq⟩ := Option.map_eq_some_iff.mp h
      obtain ⟨rest, hpipe, -⟩ := Main.eq_of_readByte hread
      cases heq
      refine .inr ⟨_, rfl, rfl, ⟨b, answer_read hpipe⟩, ?_⟩
      rw [answer_read hpipe, next_read]
      cases b <;> rfl
  | barrierResend s ready' r =>
    cases h
    exact .inr ⟨_, rfl, rfl, rfl, rfl⟩
  | barrierRelease left r =>
    rcases left with _ | ⟨s, left⟩
    · cases h
    · cases h
      refine .inr ⟨_, rfl, rfl, rfl, ?_⟩
      rcases left with _ | ⟨s', left⟩
      · cases r <;> rfl
      · rfl
  | nextDeal =>
    cases deals with
    | nil =>
      cases h
      exact .inr ⟨_, rfl, rfl, trivial, rfl⟩
    | cons d deals =>
      cases h
      exact .inr ⟨_, rfl, rfl, trivial, rfl⟩
  | dealStart =>
    cases h
    exact .inl ⟨rfl, rfl⟩
  | announce b left =>
    rcases left with _ | ⟨s, left⟩
    · cases h
    · cases h
      refine .inr ⟨_, rfl, rfl, rfl, ?_⟩
      rcases left with _ | ⟨s', left⟩
      · cases b <;> rfl
      · rfl
  | trickStart =>
    cases h
    exact .inr ⟨_, rfl, rfl, trivial, rfl⟩
  | turnSet left =>
    rcases left with _ | ⟨s, left⟩
    · cases h
    · cases h
      exact .inl ⟨rfl, rfl⟩
  | turnSend s rest =>
    cases h
    exact .inr ⟨_, rfl, rfl, rfl, rfl⟩
  | cardPoll s rest =>
    obtain ⟨hready, heq⟩ := Option.ite_none_right_eq_some.mp h
    cases heq
    refine .inr ⟨_, rfl, rfl, granted_answer hready, ?_⟩
    refine (next_poll (fun ready => .cardScan s rest false ready) (fun _ _ => rfl) ?_).trans ?_
    · rw [readySeats_answer hready.2.1]
      exact hready.1
    · rw [readySeats_answer hready.2.1]
      rfl
  | cardScan s rest got ready' =>
    rcases ready' with _ | ⟨j, ready'⟩
    · cases h
      rcases got with _ | _ <;> rcases rest with _ | ⟨s', rest⟩ <;> exact .inl ⟨rfl, rfl⟩
    · obtain ⟨⟨b, sh₁⟩, hread, heq⟩ := Option.map_eq_some_iff.mp h
      obtain ⟨rest', hpipe, -⟩ := Main.eq_of_readByte hread
      cases heq
      refine .inr ⟨_, rfl, waits_cons, ⟨b, answer_read hpipe⟩, ?_⟩
      rw [answer_read hpipe, next_read]
      show settle (point (Main.cardByte _ s rest got j ready' b)) = _
      unfold Main.cardByte
      split_ifs <;> rfl
  | trickEnd =>
    obtain ⟨calculator, -, heq⟩ := Option.map_eq_some_iff.mp h
    cases heq
    exact .inl ⟨rfl, rfl⟩
  | dealEnd =>
    cases h
    exact .inl ⟨rfl, rfl⟩
  | closeServer errorMessage wait =>
    cases h
    exact .inr ⟨_, rfl, rfl, rfl, rfl⟩
  | closeSeats left errorMessage wait =>
    rcases left with _ | ⟨s, left⟩
    · cases h
    · cases h
      exact .inr ⟨_, rfl, rfl, rfl, rfl⟩

/-- A run of the main thread of the machine, with the calls it makes; between its steps the other
threads do to the shared fields what they like. -/
inductive Walk : Main → List ((c : Call) × c.Answer) → Main → Prop
  | refl (m : Main) : Walk m [] m
  | quiet {sh sh' : Shared} {m m' m₁ : Main} {ready : List Seat} {l : List ((c : Call) × c.Answer)}
    (h : mainStep sh m ready = some (sh', m')) (hat : callAt m.pc = none) (hrest : Walk m' l m₁) :
    Walk m l m₁
  | call {sh sh' : Shared} {m m' m₁ : Main} {ready : List Seat} {c : Call}
    {l : List ((c : Call) × c.Answer)} (h : mainStep sh m ready = some (sh', m'))
    (hat : callAt m.pc = some c) (hrest : Walk m' l m₁) :
    Walk m (⟨c, answer sh m ready c⟩ :: l) m₁

/-- The first call of a run is made at the point of the next call. -/
lemma Walk.first {x : (c : Call) × c.Answer} {l : List ((c : Call) × c.Answer)} {m m₁ : Main}
    (h : Walk m (x :: l) m₁) : ∃ sh ready m', callAt (settle (point m)).pc = some x.1 ∧
      granted x.1 x.2 ∧ x.2 = answer sh m' ready x.1 ∧
      ∃ m₂, (settle (point m)).next x.1 x.2 = settle (point m₂) ∧ Walk m₂ l m₁ := by
  generalize hl : x :: l = l₀ at h
  induction h with
  | refl => cases hl
  | quiet hstep hat _ ih =>
    obtain ⟨-, hsettle⟩ | ⟨c, hcall, -⟩ := mainStep_follows hstep
    · rw [← hsettle]
      exact ih hl
    · rw [hat] at hcall
      cases hcall
  | @call sh _ m _ _ ready c _ hstep hat hrest _ =>
    obtain ⟨rfl, rfl⟩ := List.cons.inj hl
    obtain ⟨hnone, -⟩ | ⟨c', hcall, hsettle, hgranted, hnext⟩ := mainStep_follows hstep
    · rw [hat] at hnone
      cases hnone
    · obtain rfl : c = c' := Option.some.inj (hat.symm.trans hcall)
      rw [hsettle]
      exact ⟨sh, ready, m, hat, hgranted, rfl, _, hnext, hrest⟩

lemma callAt_of_ok {p : Point} {c : Call} (hc : c.known = true) (hok : p.ok c) :
    callAt p.pc = some c := by
  cases c with
  | poll | read | write | occupied | lastTaker | readNextDeal => exact hok.2
  | _ => cases hc

lemma granted_quiet {c : Call} (hc : c.known = false) : granted c (answer sh m ready c) := by
  cases c with
  | poll | read | write | occupied | lastTaker | readNextDeal => cases hc
  | _ => trivial

/-- With some answers the `n`-th call of the program and those after it are the calls `l`, as far as the
machine makes them and the fuel lasts. -/
def Keeps {ρ α : Type} (p : Proc ρ α) (n : ℕ) (l : List ((c : Call) × c.Answer)) : Prop :=
  ∃ env : ℕ → (c : Call) → c.Answer,
    l <+: (p.log env n).filter (fun x => x.1.known) ∨
    p.outcome env n = none ∧ (p.log env n).filter (fun x => x.1.known) <+: l

section Keeps

variable {ρ α : Type} {n : ℕ} {l : List ((c : Call) × c.Answer)}

lemma Keeps.nil (p : Proc ρ α) : Keeps p n [] :=
  ⟨fun _ => answer { timeout := 0 } { deals := [] } [], .inl List.nil_prefix⟩

/-- One more call. -/
lemma Keeps.call {c : Call} {k : c.Answer → Proc ρ α} (hears : (c : Call) → c.Answer)
    (h : Keeps (k (hears c)) (n + 1) l) :
    Keeps (.call c k) n (if c.known then ⟨c, hears c⟩ :: l else l) := by
  obtain ⟨env, henv⟩ := h
  refine ⟨Function.update env n hears, ?_⟩
  simp only [log, outcome, Function.update_self, log_update n.lt_succ_self,
    outcome_update n.lt_succ_self, List.filter_cons]
  split_ifs
  · obtain hl | ⟨hmore, hl⟩ := henv
    · exact .inl (List.cons_prefix_cons.mpr ⟨rfl, hl⟩)
    · exact .inr ⟨hmore, List.cons_prefix_cons.mpr ⟨rfl, hl⟩⟩
  · exact henv

/-- A program whose calls are those of the machine keeps up with it. -/
lemma Walk.keeps {E : ρ → Point → Prop} {Q : α → Point → Prop} {p : Proc ρ α} {m m₁ : Main}
    (hE : ∀ r q, E r q → callAt q.pc = none) (hQ : ∀ a q, Q a q → callAt q.pc = none)
    (hp : wp stepRules p E Q (settle (point m))) (h : Walk m l m₁) : Keeps p n l := by
  -- the induction is on the program
  induction p generalizing m l n with
  | done a =>
    rcases l with _ | ⟨x, l⟩
    · exact .nil _
    · obtain ⟨_, _, _, hat, -⟩ := h.first
      rw [hQ a _ hp] at hat
      cases hat
  | exit r =>
    rcases l with _ | ⟨x, l⟩
    · exact .nil _
    · obtain ⟨_, _, _, hat, -⟩ := h.first
      rw [hE r _ hp] at hat
      cases hat
  | more => exact ⟨fun _ => answer { timeout := 0 } m [], .inr ⟨rfl, List.nil_prefix⟩⟩
  | call c k ih =>
    obtain ⟨hok, hnext⟩ := hp
    cases hc : c.known with
    | false =>
      let hears := answer { timeout := 0 } m []
      have hp : wp stepRules (k (hears c)) E Q ((settle (point m)).next c (hears c)) :=
        hnext _ (granted_quiet hc)
      rw [next_quiet hc] at hp
      have hkept := Keeps.call (n := n) hears (ih _ hp h)
      rwa [hc] at hkept
    | true =>
      rcases l with _ | ⟨⟨c', a⟩, l⟩
      · exact .nil _
      obtain ⟨sh, ready, m₀, hat, hgranted, ha, m₂, hm₂, hrest⟩ := h.first
      obtain rfl : c = c' := Option.some.inj ((callAt_of_ok hc hok).symm.trans hat)
      obtain rfl : a = answer sh m₀ ready c := ha
      have hp : wp stepRules (k (answer sh m₀ ready c)) E Q
        ((settle (point m)).next c (answer sh m₀ ready c)) := hnext _ hgranted
      rw [hm₂] at hp
      have hkept := Keeps.call (n := n) (answer sh m₀ ready) (ih _ hp hrest)
      rwa [hc] at hkept

end Keeps

/-- **What the main thread of the machine does, its program can do**: every run of it is one of
the program, as long as the fuel lasts. -/
theorem walk_main {m₁ : Main} {deals : List Deal} {l : List ((c : Call) × c.Answer)} (fuel : ℕ)
    (h : Walk { deals := deals } l m₁) : Keeps (main fuel : Proc ℤ ℤ) 0 l := by
  have hclosed : ∀ (_ : ℤ) q, Closed q → callAt q.pc = none := by
    rintro - q ⟨errorMessage, wait, hpc⟩
    rw [hpc]
    rfl
  exact h.keeps (E := fun _ => Closed) hclosed hclosed (main_follows deals)

end Steps

end Kierki.Serwer.Failing
