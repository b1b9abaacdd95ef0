import Kierki.Table.Waiting
import Mathlib.Algebra.Order.BigOperators.Group.Finset

/-!
# What is left to do

What is still to be done at the table, in numbers: the steps left to the main thread, the bytes in the
pipes, and where the threads are. A byte or a line weighs more than all that can come of it, so every
step makes the sum smaller, whoever takes it.
-/

namespace Kierki

open Regex Senders Serwer Lib.Lts

namespace Serwer

/-! ### The weights -/

/-- What is left to a thread before it waits in `poll` again, a line to its client weighing 11, a line
of it 10 and a byte to the main thread 3. -/
def Pc.rest : Pc → ℕ
  | finish | poll => 1
  | drain | closeLock _ => 2
  | loopTop => 3
  | joinFlag | drainEnd => 4
  | take => 5
  | readIam => 6
  | readPipe pipe => if pipe then 0 else 4
  | writeBarrierResponse => 7
  | writeCardPlay _ => 8
  | parse _ _ => 9
  | send _ (.score _) => 27
  | send _ _ => 15
  | _ => 0

/-- The bytes in the pipes, one to a thread weighing 28. -/
def Shared.load (sh : Shared) : ℕ :=
  ∑ s, (28 * (sh.serverWritePipes s).length + 3 * (sh.serverReadPipes s).length)

/-- The steps of the main thread after the last deals, `n` of them being left. -/
def dealsRest (n : ℕ) : ℕ := 6 + 385 * n

/-- The steps of the main thread after trick `i` of a deal. -/
def tricksRest (n i : ℕ) : ℕ := (12 - i) * 28 + (15 + dealsRest n)

def Caller.rest (n i : ℕ) : Caller → ℕ
  | endOfTrick => tricksRest n i
  | startGame | endOfDeal => dealsRest n
  | cardWait _ _ _ _ => 0

/-- The steps left to the main thread, not counting those in which it waits: with `n` deals in the game
file and in trick `i`. -/
def MainPc.rest (n i : ℕ) : MainPc → ℕ
  | barrierReset r => 10 + r.rest n i
  | barrierAsk left r => left.length + 5 + r.rest n i
  | barrierPoll r | barrierScan _ r | barrierResend _ _ r => 5 + r.rest n i
  | barrierRelease left r => left.length + r.rest n i
  | nextDeal => dealsRest n
  | dealStart => 384 + dealsRest n
  | announce .deal left => left.length + 28 + tricksRest n i
  | announce .taken left => left.length + 10 + tricksRest n i
  | announce .scores left => left.length + 10 + dealsRest n
  | trickStart => 28 + tricksRest n i
  | turnSet left => 3 * left.length + 15 + tricksRest n i
  | turnSend _ rest => 3 * rest.length + 17 + tricksRest n i
  | cardPoll _ rest | cardScan _ rest _ _ => 3 * rest.length + 16 + tricksRest n i
  | trickEnd => 15 + tricksRest n i
  | dealEnd => 15 + dealsRest n
  | closeServer _ _ => 5
  | closeSeats left _ _ => left.length

/-- The steps of a wait. -/
def MainPc.waiting : MainPc → ℕ
  | barrierPoll _ | cardPoll _ _ => 1
  | barrierScan [] _ | cardScan _ _ _ [] => 2
  | _ => 0

/-- What is left to the main thread. -/
def Main.rest (m : Main) : ℕ := 31 * m.pc.rest m.deals.length m.i + m.pc.waiting

lemma sum_change {ι : Type*} [DecidableEq ι] {S : Finset ι} {f g : ι → ℕ} {a : ι} (ha : a ∈ S)
    (h : ∀ x ∈ S, x ≠ a → g x = f x) : ∑ x ∈ S, g x + f a = ∑ x ∈ S, f x + g a := by
  have hrest : ∑ x ∈ S.erase a, g x = ∑ x ∈ S.erase a, f x :=
    Finset.sum_congr rfl fun x hx => h x (Finset.mem_of_mem_erase hx) (Finset.ne_of_mem_erase hx)
  have hf := Finset.add_sum_erase S f ha
  have hg := Finset.add_sum_erase S g ha
  omega

section Pipes

variable {sh : Shared} {s : Seat} {b : Byte} {rest : List Byte}

private lemma Shared.load_change (sh sh' : Shared) (s : Seat)
    (h : ∀ s' ≠ s, sh'.serverWritePipes s' = sh.serverWritePipes s' ∧
      sh'.serverReadPipes s' = sh.serverReadPipes s') :
    sh'.load + (28 * (sh.serverWritePipes s).length + 3 * (sh.serverReadPipes s).length) =
      sh.load + (28 * (sh'.serverWritePipes s).length + 3 * (sh'.serverReadPipes s).length) :=
  sum_change (f := fun s => 28 * (sh.serverWritePipes s).length + 3 * (sh.serverReadPipes s).length)
    (g := fun s => 28 * (sh'.serverWritePipes s).length + 3 * (sh'.serverReadPipes s).length)
    (Finset.mem_univ s) fun s' _ hs' => by simp only [(h s' hs').1, (h s' hs').2]

lemma Shared.load_tell : (sh.tell s b).load = sh.load + 28 := by
  have := Shared.load_change sh (sh.tell s b) s fun s' hs' => by simp [hs']
  simp only [tell_serverWritePipes, tell_serverReadPipes, Function.update_self, List.length_append,
    List.length_singleton] at this
  omega

lemma Shared.load_heard (hp : sh.serverWritePipes s = b :: rest) :
    (sh.heard s rest).load + 28 = sh.load := by
  have := Shared.load_change sh (sh.heard s rest) s fun s' hs' => by simp [hs']
  simp only [heard_serverWritePipes, heard_serverReadPipes, Function.update_self, hp,
    List.length_cons] at this
  omega

lemma Shared.load_report : (sh.report s b).load = sh.load + 3 := by
  have := Shared.load_change sh (sh.report s b) s fun s' hs' => by simp [hs']
  simp only [report_serverWritePipes, report_serverReadPipes, Function.update_self, List.length_append,
    List.length_singleton] at this
  omega

lemma Shared.load_noticed (hp : sh.serverReadPipes s = b :: rest) :
    (sh.noticed s rest).load + 3 = sh.load := by
  have := Shared.load_change sh (sh.noticed s rest) s fun s' hs' => by simp [hs']
  simp only [noticed_serverWritePipes, noticed_serverReadPipes, Function.update_self, hp,
    List.length_cons] at this
  omega

end Pipes

section Thread

variable {sh sh' : Shared} {c : ℕ} {t t' : Thread} {o : Outcome} {up : List Text}

private lemma After.rest_le (k : After) : k.pc.rest ≤ 4 := by
  cases k with
  | pipe pipe => cases pipe <;> simp [After.pc, Pc.rest]
  | _ => simp [After.pc, Pc.rest]

/-- **A step of a thread**, with the lines it reads and writes. -/
lemma Work.rest (hw : Work sh c t o sh' t') (hord : t.pc.orderly = true) (hfit : o.Fits up)
    (hstep : threadStep sh c t o = some (sh', t')) :
    t'.pc.rest + sh'.load + 11 * (t.writes o).length + 10 * (o.unread up).length <
      t.pc.rest + sh.load + 10 * up.length := by
  have hline : ∀ {l : Text}, o = .line l → (o.unread up).length + 1 = up.length := by
    rintro l rfl
    cases up with
    | nil => cases hfit
    | cons a up => rfl
  -- a step that neither reads nor writes a line
  have hplain : (∀ l p, t.pc ≠ .send l p) → (∀ l, o ≠ .line l) →
      t'.pc.rest + sh'.load < t.pc.rest + sh.load → t'.pc.rest + sh'.load +
        11 * (t.writes o).length + 10 * (o.unread up).length <
        t.pc.rest + sh.load + 10 * up.length := by
    intro hsend hline hlt
    have hunread : o.unread up = up := by
      cases o with
      | line l => exact absurd rfl (hline l)
      | _ => rfl
    rw [Thread.writes_eq_nil hsend, hunread, List.length_nil]
    omega
  cases hw with
  | iam s hpc =>
    have := hline rfl
    rw [Thread.writes_eq_nil (by simp [hpc]), hpc]
    simp only [Pc.rest, List.length_nil]
    omega
  | take hpc => exact hplain (by simp [hpc]) (by simp) (by rw [hpc]; simp [Pc.rest, Shared.load])
  | join hpc => exact hplain (by simp [hpc]) (by simp) (by rw [hpc]; simp [Pc.rest, Thread.join])
  | tell l p hpc =>
    have hwrites : t.writes .tick = [l] := by simp [Thread.writes, hpc]
    rw [hpc] at hord
    rw [hwrites, hpc]
    cases p with
    | cardPlay | inform | score =>
      simp only [Thread.sent, Thread.goto_pc, Pc.rest, Outcome.unread, List.length_singleton]
      omega
    | _ => cases hord
  | top hpc =>
    refine hplain (by simp [hpc]) (by simp) ?_
    rw [hpc]
    by_cases hb : (t.bIsBarrier || sh.bIsBarrierOngoing) = true <;>
      simp [Thread.atLoopTop, hb, Pc.rest]
  | walk o pc' hwalk =>
    generalize hpc : t.pc = pc₀ at hwalk
    have hsend : ∀ l p, t.pc ≠ .send l p := by
      rw [hpc]
      exact hwalk.draft.2.2
    rw [← hpc]
    refine hplain hsend (fun l ho => ?_) ?_
    · subst ho
      exact hwalk.not_line
    · rw [hpc]
      cases hwalk with
      | heard pipe ms =>
        obtain ⟨hready, -⟩ := threadStep_ready hpc hstep
        obtain rfl : pipe = true := by simpa using hready
        simp [Pc.rest]
      | _ => simp [Pc.rest]
  | listen pipe ms hpc htime =>
    obtain ⟨hready, -⟩ := threadStep_ready hpc hstep
    obtain rfl : pipe = true := by simpa using hready
    exact hplain (by simp [hpc]) (by simp) (by rw [hpc]; simp [Pc.rest])
  | line pipe l hpc =>
    have := hline rfl
    rw [Thread.writes_eq_nil (by simp [hpc]), hpc]
    simp only [Pc.rest, Thread.goto_pc, List.length_nil]
    omega
  | byte b rest hpc hp =>
    refine hplain (by simp [hpc]) (by simp) ?_
    have hload := Shared.load_heard hp
    rw [hpc]
    cases b with
    | barrierResponse =>
      have hsame : (t.gotByte (sh.heard t.seat rest) c .barrierResponse).1.load =
          (sh.heard t.seat rest).load := rfl
      rw [hsame]
      by_cases ho : int16 (sh.occupied + 1) = 4 <;> simp [Thread.gotByte, ho, Pc.rest] <;> omega
    | _ =>
      simp only [Thread.gotByte, Thread.close, Thread.goto_pc, Pc.rest, if_true]
      omega
  | accept m k card hpc =>
    exact hplain (by simp [hpc]) (by simp) (by rw [hpc]; simp [Pc.rest, Shared.load])
  | played k hpc =>
    refine hplain (by simp [hpc]) (by simp) ?_
    have hk := After.rest_le k
    rw [hpc, Shared.load_report]
    show k.pc.rest + (sh.load + 3) < 8 + sh.load
    omega
  | woke hpc =>
    refine hplain (by simp [hpc]) (by simp) ?_
    rw [hpc, Shared.load_report]
    simp only [Pc.rest, Thread.goto_pc]
    omega
  | dismissed hpc =>
    exact hplain (by simp [hpc]) (by simp) (by rw [hpc]; simp [Pc.rest, Thread.closeStep, Shared.load])

end Thread

section Main

variable {sh sh' : Shared} {m m' : Main} {v : ℕ → View}

private lemma Main.rest_afterBarrier {r : Caller} (hr : r.wait = none) :
    (m.afterBarrier r).rest ≤ 31 * r.rest m.deals.length m.i := by
  cases r with
  | cardWait => cases hr
  | startGame | endOfDeal => exact le_rfl
  | endOfTrick =>
    simp only [Main.afterBarrier]
    split
    · rename_i hi
      simp only [Main.rest, MainPc.rest, MainPc.waiting, Caller.rest, tricksRest]
      omega
    · simp only [Main.rest, MainPc.rest, MainPc.waiting, Caller.rest, tricksRest]
      omega

private lemma MainPc.waiting_scan (ready : List Seat) (r : Caller) (s : Seat) (rest : List Seat)
    (got : Bool) : (barrierScan ready r).waiting ≤ 2 ∧ (cardScan s rest got ready).waiting ≤ 2 ∧
      (ready ≠ [] → (barrierScan ready r).waiting = 0 ∧ (cardScan s rest got ready).waiting = 0) := by
  cases ready with
  | nil => exact ⟨le_rfl, le_rfl, fun hne => absurd rfl hne⟩
  | cons a ready => exact ⟨Nat.zero_le _, Nat.zero_le _, fun _ => ⟨rfl, rfl⟩⟩

/-- **A step of the main thread.** -/
lemma MainMove.rest (hm : MainMove sh m sh' m') (hst : Staying sh m.pc v) (hwoken : Woken sh m.pc v)
    (hsane : ¬m'.pc.Confused) (hready : ∀ s rest ready, m.pc = .cardPoll s rest →
      m'.pc = .cardScan s rest false ready → ready ≠ []) :
    m'.rest + sh'.load < m.rest + sh.load := by
  have hgo : ∀ {pc pc' : MainPc} {sh' : Shared}, m.pc = pc →
      31 * pc'.rest m.deals.length m.i + pc'.waiting + sh'.load <
        31 * pc.rest m.deals.length m.i + pc.waiting + sh.load →
      (m.goto pc').rest + sh'.load < m.rest + sh.load := by
    rintro pc pc' sh' rfl hlt
    exact hlt
  have hall : Seat.all.length = 4 := rfl
  have htell : ∀ s b, (sh.tell s b).load = sh.load + 28 := fun _ _ => Shared.load_tell
  cases hm with
  | reset r hpc =>
    refine hgo hpc ?_
    show 31 * (Seat.all.length + 5 + r.rest _ _) + 0 + sh.load < 31 * (10 + r.rest _ _) + 0 + sh.load
    omega
  | ask s left r hpc hleft =>
    refine hgo hpc ?_
    rw [htell]
    simp only [MainPc.rest, MainPc.waiting, List.length_cons]
    omega
  | askLast s r hpc =>
    refine hgo hpc ?_
    rw [htell]
    simp only [MainPc.rest, MainPc.waiting, List.length_singleton]
    omega
  | poll ready r hpc hr =>
    refine hgo hpc ?_
    rw [((MainPc.waiting_scan ready r .N [] false).2.2 hr.1).1]
    simp only [MainPc.rest, MainPc.waiting]
    omega
  | lost s ready r rest hpc hp => exact (hst.silent s (by simp [hp])).elim
  | woken s ready r rest hpc hp =>
    refine hgo hpc ?_
    have hload := Shared.load_noticed hp
    have hle := (MainPc.waiting_scan ready r .N [] false).1
    simp only [MainPc.rest]
    omega
  | badBarrier => exact absurd (.inl rfl) hsane
  | stay r hpc hw =>
    rw [(hwoken.scanned r hpc).1] at hw
    exact absurd hw (by decide)
  | pass r hpc hw =>
    refine hgo hpc ?_
    show 31 * (Seat.all.length + r.rest _ _) + 0 + sh.load < 31 * (5 + r.rest _ _) + 2 + sh.load
    omega
  | resend s ready r hpc =>
    have := hst.answering
    rw [hpc] at this
    cases this
  | release s left r hpc hleft =>
    refine hgo hpc ?_
    rw [htell]
    simp only [MainPc.rest, MainPc.waiting, List.length_cons]
    omega
  | releaseLast s r hpc =>
    have hr := Main.rest_afterBarrier (m := m) (hst.caller r (by rw [hpc]; rfl))
    rw [htell]
    simp only [Main.rest, hpc, MainPc.rest, MainPc.waiting, List.length_singleton] at hr ⊢
    omega
  | gameOver hpc hd =>
    refine hgo hpc ?_
    simp only [MainPc.rest, MainPc.waiting, dealsRest]
    omega
  | load d rest hpc hd =>
    show 31 * (384 + dealsRest rest.length) + 0 + sh.load < m.rest + sh.load
    simp only [Main.rest, hpc, hd, MainPc.rest, MainPc.waiting, dealsRest, List.length_cons]
    omega
  | start hpc =>
    show 31 * (Seat.all.length + 28 + tricksRest m.deals.length 0) + 0 + sh.load < m.rest + sh.load
    simp only [Main.rest, hpc, MainPc.rest, MainPc.waiting, tricksRest]
    omega
  | announce b s left hpc hleft =>
    refine hgo hpc ?_
    rw [htell]
    cases b <;>
    · simp only [MainPc.rest, MainPc.waiting, List.length_cons]
      omega
  | announceLast b s hpc =>
    refine hgo hpc ?_
    rw [htell]
    cases b <;>
    · simp only [Main.afterBulletin, MainPc.rest, MainPc.waiting, Caller.rest, List.length_singleton]
      omega
  | trick hpc =>
    have hfour : sh.lastTaker.order.length = 4 := rfl
    show 31 * (3 * sh.lastTaker.order.length + 15 + tricksRest m.deals.length m.i) + 0 + sh.load <
      m.rest + sh.load
    simp only [Main.rest, hpc, MainPc.rest, MainPc.waiting]
    omega
  | turnSet s rest hpc =>
    refine hgo hpc ?_
    show 31 * (3 * rest.length + 17 + tricksRest _ _) + 0 + sh.load < _
    simp only [MainPc.rest, MainPc.waiting, List.length_cons]
    omega
  | turnSend s rest hpc =>
    refine hgo hpc ?_
    show 31 * (3 * rest.length + 16 + tricksRest _ _) + 1 + (sh.tell s .cardPlay).load < _
    rw [htell]
    simp only [MainPc.rest, MainPc.waiting]
    omega
  | cardPoll s rest ready hpc =>
    refine hgo hpc ?_
    have hne := hready s rest ready hpc rfl
    rw [((MainPc.waiting_scan ready .startGame s rest false).2.2 hne).2]
    simp only [MainPc.rest, MainPc.waiting]
    omega
  | gotCard s rest ready got left hpc hp =>
    refine hgo hpc ?_
    have hload := Shared.load_noticed hp
    have hle := (MainPc.waiting_scan ready .startGame s rest true).2.1
    simp only [MainPc.rest]
    omega
  | lostPlayer s j rest ready got left hpc hp => exact (hst.silent j (by simp [hp])).elim
  | badDeal => exact absurd (.inr rfl) hsane
  | waitOn s rest hpc =>
    refine hgo hpc ?_
    simp only [MainPc.rest, MainPc.waiting]
    omega
  | nextTurn s rest hpc hrest =>
    refine hgo hpc ?_
    simp only [MainPc.rest, MainPc.waiting]
    omega
  | lastTurn s hpc =>
    refine hgo hpc ?_
    simp only [MainPc.rest, MainPc.waiting, List.length_nil]
    omega
  | trickEnd calculator taker points hpc =>
    show 31 * (Seat.all.length + 10 + tricksRest m.deals.length m.i) + 0 + sh.load < m.rest + sh.load
    simp only [Main.rest, hpc, MainPc.rest, MainPc.waiting]
    omega
  | dealEnd hpc =>
    show 31 * (Seat.all.length + 10 + dealsRest m.deals.length) + 0 + sh.load < m.rest + sh.load
    simp only [Main.rest, hpc, MainPc.rest, MainPc.waiting]
    omega
  | close e w hpc =>
    refine hgo hpc ?_
    simp only [MainPc.rest, MainPc.waiting]
    omega
  | closeSeat s left e w hpc =>
    refine hgo hpc ?_
    rw [htell]
    simp only [MainPc.rest, MainPc.waiting, List.length_cons]
    omega

end Main

end Serwer

end Kierki
