import Kierki.Serwer.Machine
import Kierki.Serwer.Views

/-!
# What the main thread can do, and the induction rule of the server

`MainMove` lists what one step of the main thread can do, as `Move` does for a seat thread, and
`mainMove_of_mainStep` says that the list is complete. `RunsTo.keeps` is the induction rule that
follows: an invariant speaks of the shared state, of the main thread and of the views of the seat
threads, and is kept by the moves of the main thread, by those of a seat thread and by a new
connection.
-/

namespace Kierki.Serwer

open Main in
/-- **What one step of the main thread can do.** -/
inductive MainMove (sh : Shared) (m : Main) : Shared → Main → Prop
  | reset (r : Caller) (hpc : m.pc = .barrierReset r) :
      MainMove sh m ({ sh with bIsBarrierOngoing := true, occupied := 0 }.note .reset)
        (m.goto (.barrierAsk Seat.all r))
  | ask (s : Seat) (left : List Seat) (r : Caller) (hpc : m.pc = .barrierAsk (s :: left) r)
      (hleft : left ≠ []) :
      MainMove sh m (sh.tell s .barrierResponse) (m.goto (.barrierAsk left r))
  | askLast (s : Seat) (r : Caller) (hpc : m.pc = .barrierAsk [s] r) :
      MainMove sh m (sh.tell s .barrierResponse) (m.goto (.barrierPoll r))
  | poll (ready : List Seat) (r : Caller) (hpc : m.pc = .barrierPoll r) (hr : Ready sh ready) :
      MainMove sh m sh (m.goto (.barrierScan ready r))
  | lost (s : Seat) (ready : List Seat) (r : Caller) (rest : List Byte)
      (hpc : m.pc = .barrierScan (s :: ready) r)
      (hp : sh.serverReadPipes s = .disconnected :: rest) :
      MainMove sh m (sh.noticed s rest) (m.goto (.barrierResend s ready r))
  | woken (s : Seat) (ready : List Seat) (r : Caller) (rest : List Byte)
      (hpc : m.pc = .barrierScan (s :: ready) r)
      (hp : sh.serverReadPipes s = .barrierResponse :: rest) :
      MainMove sh m (sh.noticed s rest) (m.goto (.barrierScan ready r))
  | badBarrier (s : Seat) (ready : List Seat) (r : Caller) (b : Byte) (rest : List Byte)
      (hpc : m.pc = .barrierScan (s :: ready) r) (hp : sh.serverReadPipes s = b :: rest)
      (hb : b ≠ .disconnected ∧ b ≠ .barrierResponse) :
      MainMove sh m (sh.noticed s rest) (m.goto (.closeServer invalidInBarrier r.wait))
  | stay (r : Caller) (hpc : m.pc = .barrierScan [] r) (hw : 0 < int16 (4 - sh.occupied)) :
      MainMove sh m sh (m.goto (.barrierPoll r))
  | pass (r : Caller) (hpc : m.pc = .barrierScan [] r) (hw : int16 (4 - sh.occupied) ≤ 0) :
      MainMove sh m
        ({ sh with bIsBarrierOngoing :=
            if int16 (4 - sh.occupied) = 0 then false else sh.bIsBarrierOngoing }.note .passed)
        (m.goto (.barrierRelease Seat.all r))
  | resend (s : Seat) (ready : List Seat) (r : Caller) (hpc : m.pc = .barrierResend s ready r) :
      MainMove sh m ((sh.tell s .barrierResponse).note (.resent s)) (m.goto (.barrierScan ready r))
  | release (s : Seat) (left : List Seat) (r : Caller) (hpc : m.pc = .barrierRelease (s :: left) r)
      (hleft : left ≠ []) :
      MainMove sh m (sh.tell s .barrierEnd) (m.goto (.barrierRelease left r))
  | releaseLast (s : Seat) (r : Caller) (hpc : m.pc = .barrierRelease [s] r) :
      MainMove sh m (sh.tell s .barrierEnd) (m.afterBarrier r)
  | gameOver (hpc : m.pc = .nextDeal) (hd : m.deals = []) :
      MainMove sh m sh (m.goto (.closeServer "" none))
  | load (d : Deal) (rest : List Deal) (hpc : m.pc = .nextDeal) (hd : m.deals = d :: rest) :
      MainMove sh m (loadDeal sh m d rest).1 (loadDeal sh m d rest).2
  | start (hpc : m.pc = .dealStart) : MainMove sh m (startDeal sh m).1 (startDeal sh m).2
  | announce (b : Bulletin) (s : Seat) (left : List Seat) (hpc : m.pc = .announce b (s :: left))
      (hleft : left ≠ []) : MainMove sh m (sh.tell s b.byte) (m.goto (.announce b left))
  | announceLast (b : Bulletin) (s : Seat) (hpc : m.pc = .announce b [s]) :
      MainMove sh m (sh.tell s b.byte) (m.goto (afterBulletin b))
  | trick (hpc : m.pc = .trickStart) :
      MainMove sh m { sh with cardsOnTable := [], trickNumber := sh.trickNumber + 1 }
        { m with beginning := sh.lastTaker, pc := .turnSet sh.lastTaker.order }
  | turnSet (s : Seat) (rest : List Seat) (hpc : m.pc = .turnSet (s :: rest)) :
      MainMove sh m ({ sh with playerTurn := some s }.note (.turn s)) (m.goto (.turnSend s rest))
  | turnSend (s : Seat) (rest : List Seat) (hpc : m.pc = .turnSend s rest) :
      MainMove sh m ((sh.tell s .cardPlay).note (.asked s)) (m.goto (.cardPoll s rest))
  | cardPoll (s : Seat) (rest ready : List Seat) (hpc : m.pc = .cardPoll s rest) :
      MainMove sh m sh (m.goto (.cardScan s rest false ready))
  | gotCard (s : Seat) (rest ready : List Seat) (got : Bool) (left : List Byte)
      (hpc : m.pc = .cardScan s rest got (s :: ready))
      (hp : sh.serverReadPipes s = .cardPlay :: left) :
      MainMove sh m (sh.noticed s left) (m.goto (.cardScan s rest true ready))
  | lostPlayer (s j : Seat) (rest ready : List Seat) (got : Bool) (left : List Byte)
      (hpc : m.pc = .cardScan s rest got (j :: ready))
      (hp : sh.serverReadPipes j = .disconnected :: left) :
      MainMove sh m (sh.noticed j left) (m.goto (.barrierReset (.cardWait s rest got ready)))
  | badDeal (s j : Seat) (rest ready : List Seat) (got : Bool) (b : Byte) (left : List Byte)
      (hpc : m.pc = .cardScan s rest got (j :: ready)) (hp : sh.serverReadPipes j = b :: left)
      (hb : ¬(b = .cardPlay ∧ j = s) ∧ b ≠ .disconnected) :
      MainMove sh m (sh.noticed j left) (m.goto (.closeServer invalidInDeal (some s)))
  | waitOn (s : Seat) (rest : List Seat) (hpc : m.pc = .cardScan s rest false []) :
      MainMove sh m sh (m.goto (.cardPoll s rest))
  | nextTurn (s : Seat) (rest : List Seat) (hpc : m.pc = .cardScan s rest true [])
      (hrest : rest ≠ []) : MainMove sh m sh (m.goto (.turnSet rest))
  | lastTurn (s : Seat) (hpc : m.pc = .cardScan s [] true []) :
      MainMove sh m sh (m.goto .trickEnd)
  | trickEnd (calculator : PointsCalculator) (taker : Seat) (points : ℤ) (hpc : m.pc = .trickEnd)
      (hc : PointsCalculator.construct sh.cardsOnTable m.beginning m.trickType (m.i + 1) =
        some calculator)
      (hr : calculator.calculatePoints = (taker, points)) :
      MainMove sh m
        { sh with
          lastTaker := taker
          takenTricks := sh.takenTricks ++ [sh.cardsOnTable]
          takenTakers := sh.takenTakers ++ [taker] }
        { m with
          scores := Function.update m.scores taker (m.scores taker + points)
          pc := .announce .taken Seat.all }
  | dealEnd (hpc : m.pc = .dealEnd) : MainMove sh m (endDeal sh m).1 (endDeal sh m).2
  | close (errorMessage : String) (wait : Option Seat) (hpc : m.pc = .closeServer errorMessage wait) :
      MainMove sh m sh (m.goto (.closeSeats Seat.all errorMessage wait))
  | closeSeat (s : Seat) (left : List Seat) (errorMessage : String) (wait : Option Seat)
      (hpc : m.pc = .closeSeats (s :: left) errorMessage wait) :
      MainMove sh m (sh.tell s .disconnected) (m.goto (.closeSeats left errorMessage wait))

/-- **Where `barrier` returns to**: what holds of these points holds of the one after it. -/
theorem Main.afterBarrier_pc {P : Caller → MainPc → Prop} (m : Main) (r : Caller)
    (hstart : P .startGame .nextDeal)
    (hwait : ∀ s rest got ready, P (.cardWait s rest got ready) (.cardScan s rest got ready))
    (htrick : P .endOfTrick .trickStart) (hlast : P .endOfTrick .dealEnd)
    (hdeal : P .endOfDeal .nextDeal) : P r (m.afterBarrier r).pc := by
  cases r with
  | startGame => exact hstart
  | cardWait s rest got ready => exact hwait s rest got ready
  | endOfTrick =>
    simp only [Main.afterBarrier]
    split
    · exact htrick
    · exact hlast
  | endOfDeal => exact hdeal

section Complete

variable {sh sh' : Shared} {m m' : Main}

private lemma mainMove_barrierByte {s : Seat} {ready : List Seat} {r : Caller} {b : Byte}
    {rest : List Byte} (hpc : m.pc = .barrierScan (s :: ready) r)
    (hp : sh.serverReadPipes s = b :: rest) :
    MainMove sh m (sh.noticed s rest) (m.barrierByte s ready r b) := by
  cases b with
  | disconnected => exact .lost s ready r rest hpc hp
  | barrierResponse => exact .woken s ready r rest hpc hp
  | _ => exact .badBarrier s ready r _ rest hpc hp (by decide)

private lemma mainMove_barrierSample {r : Caller} (hpc : m.pc = .barrierScan [] r) :
    MainMove sh m (m.barrierSample sh r).1 (m.barrierSample sh r).2 := by
  unfold Main.barrierSample
  by_cases hw : 0 < int16 (4 - sh.occupied)
  · simp only [if_pos hw, if_neg hw.ne']
    exact .stay r hpc hw
  · have : MainMove sh m _ _ := .pass r hpc (not_lt.mp hw)
    simp only [if_neg hw]
    split_ifs at this ⊢ <;> exact this

private lemma mainMove_cardByte {s j : Seat} {rest ready : List Seat} {got : Bool} {b : Byte}
    {left : List Byte} (hpc : m.pc = .cardScan s rest got (j :: ready))
    (hp : sh.serverReadPipes j = b :: left) :
    MainMove sh m (sh.noticed j left) (m.cardByte s rest got j ready b) := by
  unfold Main.cardByte
  split_ifs with hcard hlost
  · obtain ⟨rfl, rfl⟩ := hcard
    exact .gotCard j rest ready got left hpc hp
  · subst hlost
    exact .lostPlayer s j rest ready got left hpc hp
  · exact .badDeal s j rest ready got b left hpc hp ⟨hcard, hlost⟩

/-- **The list of moves is complete.** -/
theorem mainMove_of_mainStep {ready : List Seat} (h : mainStep sh m ready = some (sh', m')) :
    MainMove sh m sh' m' := by
  unfold mainStep at h
  split at h
  case h_1 r hpc =>
    cases h
    exact .reset r hpc
  case h_2 s left r hpc =>
    cases h
    cases left with
    | nil => exact .askLast s r hpc
    | cons a left => exact .ask s (a :: left) r hpc (by simp)
  case h_3 r hpc =>
    split at h
    · rename_i hr
      cases h
      exact .poll ready r hpc hr
    · cases h
  case h_4 s ready r hpc =>
    simp only [Option.map_eq_some_iff] at h
    obtain ⟨⟨b, sh₁⟩, hread, h⟩ := h
    obtain ⟨rest, hp, rfl⟩ := Main.eq_of_readByte hread
    cases h
    exact mainMove_barrierByte hpc hp
  case h_5 r hpc =>
    have : MainMove sh m _ _ := mainMove_barrierSample hpc
    rwa [Option.some.inj h] at this
  case h_6 s ready r hpc =>
    cases h
    exact .resend s ready r hpc
  case h_7 s left r hpc =>
    cases left with
    | nil =>
      cases h
      exact .releaseLast s r hpc
    | cons a left =>
      cases h
      exact .release s (a :: left) r hpc (by simp)
  case h_8 hpc =>
    split at h
    · rename_i hd
      cases h
      exact .gameOver hpc hd
    · rename_i d rest hd
      cases h
      exact .load d rest hpc hd
  case h_9 hpc =>
    cases h
    exact .start hpc
  case h_10 b s left hpc =>
    cases h
    cases left with
    | nil => exact .announceLast b s hpc
    | cons a left => exact .announce b s (a :: left) hpc (by simp)
  case h_11 hpc =>
    cases h
    exact .trick hpc
  case h_12 s rest hpc =>
    cases h
    exact .turnSet s rest hpc
  case h_13 s rest hpc =>
    cases h
    exact .turnSend s rest hpc
  case h_14 s rest hpc =>
    split at h
    · cases h
      exact .cardPoll s rest ready hpc
    · cases h
  case h_15 s rest got j ready hpc =>
    simp only [Option.map_eq_some_iff] at h
    obtain ⟨⟨b, sh₁⟩, hread, h⟩ := h
    obtain ⟨left, hp, rfl⟩ := Main.eq_of_readByte hread
    cases h
    exact mainMove_cardByte hpc hp
  case h_16 s rest got hpc =>
    cases h
    cases got with
    | false => exact .waitOn s rest hpc
    | true =>
      cases rest with
      | nil => exact .lastTurn s hpc
      | cons a rest => exact .nextTurn s (a :: rest) hpc (by simp)
  case h_17 hpc =>
    simp only [Main.endTrick, Option.map_eq_some_iff] at h
    obtain ⟨calculator, hc, h⟩ := h
    cases h
    exact .trickEnd calculator _ _ hpc hc rfl
  case h_18 hpc =>
    cases h
    exact .dealEnd hpc
  case h_19 errorMessage wait hpc =>
    cases h
    exact .close errorMessage wait hpc
  case h_20 s left errorMessage wait hpc =>
    cases h
    exact .closeSeat s left errorMessage wait hpc
  all_goals cases h

end Complete

/-! ### The induction rule -/

/-- What is known of each view by itself is kept when one thread moves to a view of which it
holds. -/
lemma forall_update {P : View → Prop} {v : ℕ → View} {w : View} (h : ∀ c, P (v c)) (c : ℕ)
    (hw : P w) (c' : ℕ) : P (Function.update v c w c') :=
  (Function.forall_update_iff v fun _ => P).mpr ⟨hw, fun c' _ => h c'⟩ c'

/-- The view of the thread of connection `c`. -/
def State.view (st : State) (c : ℕ) : View := (st.threads c).view

/-- The threads of the connections still to come have not started. -/
def State.Numbered (st : State) : Prop := ∀ c, st.threadId ≤ c → (st.threads c).pc = .absent

section Rule

variable {st st' : State}

lemma view_update (c : ℕ) (t : Thread) :
    { st with threads := Function.update st.threads c t }.view =
      Function.update st.view c t.view := by
  funext c'
  by_cases h : c' = c
  · subst h
    simp [State.view]
  · simp [State.view, h]

/-- **What one step of the server can do**, seen through the views. -/
theorem step_cases {a : Act} (h : step st a = some st') (hn : st.Numbered) :
    (∃ ready, a = .main ready ∧ MainMove st.sh st.main st'.sh st'.main ∧ st'.view = st.view) ∨
    (∃ c fd, a = .accept fd ∧ 0 ≤ fd ∧ (st.view c).kind = .fresh ∧ st'.sh = st.sh ∧
      st'.main = st.main ∧ st'.view = Function.update st.view c { Thread.view {} with clientFd := fd }) ∨
    (∃ c o v, a = .thread c o ∧ Move st.sh c (st.threads c) o st'.sh v ∧ st'.main = st.main ∧
      st'.view = Function.update st.view c v) := by
  cases a with
  | main ready =>
    simp only [step, Option.map_eq_some_iff] at h
    obtain ⟨⟨sh, m⟩, h, rfl⟩ := h
    exact .inl ⟨ready, rfl, mainMove_of_mainStep h, rfl⟩
  | accept fd =>
    simp only [step, Option.ite_none_right_eq_some, Option.some.injEq] at h
    obtain ⟨⟨hfd, -⟩, rfl⟩ := h
    exact .inr (.inl ⟨st.threadId, fd, rfl, hfd, Thread.kind_eq (hn _ le_rfl), rfl, rfl,
      view_update _ _⟩)
  | thread c o =>
    simp only [step, Option.map_eq_some_iff] at h
    obtain ⟨⟨sh, t⟩, h, rfl⟩ := h
    exact .inr (.inr ⟨c, o, t.view, rfl, move_of_threadStep h, rfl, view_update _ _⟩)

/-- What one step of the server can do, seen through the threads themselves. -/
theorem step_moves {a : Act} (h : step st a = some st') :
    (∃ ready, a = .main ready ∧ MainMove st.sh st.main st'.sh st'.main ∧
      st'.threads = st.threads) ∨
    (∃ fd, a = .accept fd ∧ st'.sh = st.sh ∧ st'.main = st.main ∧
      st'.threads = Function.update st.threads st.threadId { pc := .readIam, clientFd := fd }) ∨
    (∃ c o, a = .thread c o ∧ ThreadMove st.sh c (st.threads c) o st'.sh (st'.threads c) ∧
      st'.main = st.main ∧ ∀ c' ≠ c, st'.threads c' = st.threads c') := by
  cases a with
  | main ready =>
    obtain ⟨h, hthreads⟩ := step_main h
    exact .inl ⟨ready, rfl, mainMove_of_mainStep h, hthreads⟩
  | accept fd => exact .inr (.inl ⟨fd, rfl, step_accept h⟩)
  | thread c o =>
    obtain ⟨h, hmain, hthreads⟩ := step_thread h
    exact .inr (.inr ⟨c, o, rfl, threadMove_of_threadStep h, hmain, hthreads⟩)

lemma numbered_step {a : Act} (h : step st a = some st') (hn : st.Numbered) : st'.Numbered := by
  cases a with
  | main ready =>
    simp only [step, Option.map_eq_some_iff] at h
    obtain ⟨⟨sh, m⟩, -, rfl⟩ := h
    exact hn
  | accept fd =>
    simp only [step, Option.ite_none_right_eq_some, Option.some.injEq] at h
    obtain ⟨-, rfl⟩ := h
    intro c hc
    simp only at hc ⊢
    rw [Function.update_of_ne (by omega)]
    exact hn c (by omega)
  | thread c o =>
    simp only [step, Option.map_eq_some_iff] at h
    obtain ⟨⟨sh, t⟩, h, rfl⟩ := h
    intro c' hc'
    have hpc := hn c' hc'
    by_cases hcc : c' = c
    · subst hcc
      simp [threadStep, hpc] at h
    · simpa [hcc] using hpc

variable {ok : State → Act → Prop} {timeout : ℤ} {deals : List Deal}

lemma numbered (h : RunsTo ok timeout deals st) : st.Numbered :=
  h.invariant (fun _ _ => rfl) fun _ _ _ hn _ hs => numbered_step hs hn

/-- **The induction rule of the server**, relative to an invariant `J` known of every state. -/
theorem RunsTo.keeps {I J : Shared → Main → (ℕ → View) → Prop}
    (hJ : ∀ st, RunsTo ok timeout deals st → J st.sh st.main st.view)
    (h₀ : I { timeout := timeout } { deals := deals } fun _ => Thread.view {})
    (hmain : ∀ st ready sh m, J st.sh st.main st.view → I st.sh st.main st.view →
      ok st (.main ready) → MainMove st.sh st.main sh m → I sh m st.view)
    (haccept : ∀ sh m v c fd, J sh m v → I sh m v → (v c).kind = .fresh → 0 ≤ fd →
      I sh m (Function.update v c { Thread.view {} with clientFd := fd }))
    (hthread : ∀ st c o sh v, J st.sh st.main st.view → I st.sh st.main st.view →
      ok st (.thread c o) → Move st.sh c (st.threads c) o sh v →
      I sh st.main (Function.update st.view c v))
    (h : RunsTo ok timeout deals st) : I st.sh st.main st.view := by
  refine Lib.Lts.Reach.invariant_with (I := fun st : State => I st.sh st.main st.view)
    (J := fun st : State => J st.sh st.main st.view ∧ st.Numbered) (fun st hr => ⟨hJ st hr, numbered hr⟩)
    h₀ ?_ h
  rintro st a st' ⟨hj, hn⟩ hi hok hs
  obtain ⟨ready, rfl, hm, hv⟩ | ⟨c, fd, rfl, hfd, hk, hsh, hm, hv⟩ | ⟨c, o, v, rfl, hm, hmain', hv⟩ :=
    step_cases hs hn
  · rw [hv]
    exact hmain st ready _ _ hj hi hok hm
  · rw [hv, hsh, hm]
    exact haccept _ _ _ c fd hj hi hk hfd
  · rw [hv, hmain']
    exact hthread st c o _ v hj hi hok hm

end Rule

end Kierki.Serwer
