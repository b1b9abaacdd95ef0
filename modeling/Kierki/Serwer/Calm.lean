import Kierki.Serwer.Bytes
import Kierki.Serwer.Turn

/-!
# Runs in which every client stays

No call fails, no client closes its connection, and what a client sends after its first line passes
`TRICK_client_check`. Then no thread leaves a seat before the server dismisses it, so the seats are
all taken before the first deal is loaded, nobody learns of a turn from `player_turn`, and
`run_deal` never calls `barrier` in the wait for a card.
-/

namespace Kierki.Serwer

open Lib.Lts

/-- A call that goes through, with a connection that stays open and, after the first, with a line
that passes the check. -/
def Outcome.calm (pc : Pc) : Outcome → Bool
  | .line l => pc = .readIam || Regex.TRICKClientCheck l
  | .fail | .eof => false
  | .tick | .ready _ _ _ | .expire => true

/-- No call fails, no client closes its connection, and the lines pass the check. -/
def Calm (st : State) : Act → Prop
  | .thread c o => o.calm (st.threads c).pc = true
  | .main _ | .accept _ => True

instance (st : State) : (a : Act) → Decidable (Calm st a)
  | .thread _ _ => inferInstanceAs (Decidable (_ = true))
  | .main _ | .accept _ => inferInstanceAs (Decidable True)

/-! ### The lines -/

/-- The lines put aside during barriers have passed the check. -/
def Shared.Checked (sh : Shared) : Prop :=
  ∀ s, ∀ l ∈ sh.barrierMessages s, Regex.TRICKClientCheck l = true

section Lines

variable {sh sh' : Shared} {c : ℕ} {t t' : Thread} {o : Outcome}

private lemma Thread.sent_not_bad (p : Purpose) : ¬(t.sent p).pc.isBadLine := by
  cases p with
  | wrong k => cases k <;> exact id
  | _ => exact id

private lemma Thread.gotByte_checked (b : Byte) (hq : sh.Checked) :
    (t.gotByte sh c b).1.Checked ∧ ¬(t.gotByte sh c b).2.pc.isBadLine := by
  cases b with
  | barrierResponse =>
    refine ⟨hq, ?_⟩
    simp only [Thread.gotByte]
    split <;> exact id
  | _ => exact ⟨hq, id⟩

private lemma Shared.Checked.update (hq : sh.Checked) (s : Seat) {q : List Text}
    (h : ∀ l ∈ q, Regex.TRICKClientCheck l = true) :
    Shared.Checked { sh with barrierMessages := Function.update sh.barrierMessages s q } := by
  intro s' l hl
  by_cases hs : s' = s
  · subst hs
    exact h l (by simpa using hl)
  · exact hq s' l (by simpa [hs] using hl)

lemma ThreadMove.checked (hm : ThreadMove sh c t o sh' t') (ho : o.calm t.pc = true)
    (hq : sh.Checked) : sh'.Checked ∧ ¬t'.pc.isBadLine := by
  cases hm with
  | take pc' hpc hs hpc' =>
    refine ⟨hq, ?_⟩
    obtain ⟨rfl, -⟩ | ⟨rfl, -⟩ := hpc' <;> exact id
  | sent l p hpc => exact ⟨hq, Thread.sent_not_bad p⟩
  | notSent l p hpc => cases p <;> exact ⟨hq, id⟩
  | top hpc =>
    refine ⟨hq, ?_⟩
    simp only [Thread.atLoopTop]
    split <;> exact id
  | drained after hpc =>
    refine ⟨hq, ?_⟩
    obtain ⟨-, rfl⟩ | ⟨-, rfl⟩ := hpc <;> exact id
  | popped k m q hpc hs =>
    have hmem : ∀ l ∈ m :: q, Regex.TRICKClientCheck l = true := hs ▸ hq t.seat
    refine ⟨hq.update _ fun l hl => hmem l (List.mem_cons_of_mem _ hl), ?_⟩
    simp [Pc.isBadLine, hmem]
  | expired pc' hpc hd hpc' =>
    refine ⟨hq, ?_⟩
    obtain rfl | ⟨rfl, -⟩ := hpc' <;> exact id
  | waited pc' pipe ms hpc hd hpc' =>
    refine ⟨hq, ?_⟩
    obtain rfl | rfl := hpc' <;> exact id
  | queued pipe l hpc hb =>
    have hl : Regex.TRICKClientCheck l = true := by simpa [Outcome.calm, hpc] using ho
    refine ⟨hq.update _ fun l' hl' => ?_, id⟩
    obtain hl' | rfl := List.mem_append.mp hl' |>.imp_right List.mem_singleton.mp
    · exact hq _ _ hl'
    · exact hl
  | direct pipe l hpc hb =>
    have hl : Regex.TRICKClientCheck l = true := by simpa [Outcome.calm, hpc] using ho
    exact ⟨hq, by simp [Pc.isBadLine, hl]⟩
  | byte b rest hpc hp => exact Thread.gotByte_checked b hq
  | played k hpc => cases k <;> exact ⟨hq, id⟩
  | close b hpc => cases b <;> exact ⟨hq, id⟩
  | _ => exact ⟨hq, id⟩

lemma MainMove.barrierMessages {m m' : Main} (hm : MainMove sh m sh' m') :
    sh'.barrierMessages = sh.barrierMessages := by
  cases hm <;> rfl

end Lines

section Runs

variable {timeout : ℤ} {deals : List Deal} {st : State}

/-- **No thread hands `parse_message` a line that fails the check.** -/
lemma lines_checked (h : RunsTo Calm timeout deals st) :
    st.sh.Checked ∧ ∀ c, ¬(st.threads c).pc.isBadLine := by
  refine h.invariant (I := fun st => st.sh.Checked ∧ ∀ c, ¬(st.threads c).pc.isBadLine)
    ⟨fun _ _ hl => (nomatch hl), fun _ => id⟩ ?_
  rintro st a st' ⟨hq, hp⟩ hok hs
  obtain ⟨ready, rfl, hm, hthreads⟩ | ⟨fd, rfl, hsh, -, hthreads⟩ | ⟨c, o, rfl, hm, -, hthreads⟩ :=
    step_moves hs
  · rw [hthreads]
    refine ⟨fun s l hl => hq s l ?_, hp⟩
    rwa [← hm.barrierMessages]
  · rw [hsh, hthreads]
    refine ⟨hq, fun c => ?_⟩
    by_cases hc : c = st.threadId
    · subst hc
      simp [Pc.isBadLine]
    · simpa [hc] using hp c
  · obtain ⟨hq', hp'⟩ := hm.checked hok hq
    refine ⟨hq', fun c' => ?_⟩
    by_cases hc : c' = c
    · subst hc
      exact hp'
    · rw [hthreads c' hc]
      exact hp c'

end Runs

/-! ### Nobody leaves -/

/-- **Everyone stays**: no thread leaves its seat but when it is dismissed, and the main thread
reads of no departure. -/
structure Staying (sh : Shared) (pc : MainPc) (v : ℕ → View) : Prop where
  threads : ∀ c, (v c).kind ≠ .leaving false ∧ (v c).kind ≠ .gone
  silent : ∀ s, .disconnected ∉ sh.serverReadPipes s
  caller : ∀ r, pc.caller = some r → r.wait = none
  answering : pc.answering = none

section Staying

variable {sh sh' : Shared} {pc : MainPc} {m m' : Main} {v : ℕ → View} {c : ℕ} {t : Thread}
  {o : Outcome} {v' : View}

lemma Move.stays (hm : Move sh c t o sh' v') (ho : o.calm t.pc = true) (hp : ¬t.pc.isBadLine)
    (h : t.view.kind ≠ .leaving false ∧ t.view.kind ≠ .gone) :
    v'.kind ≠ .leaving false ∧ v'.kind ≠ .gone := by
  cases hm with
  | leave _ ho' =>
    rcases ho' with rfl | rfl | hp'
    · cases ho
    · cases ho
    · exact absurd hp' hp
  | release _ hk => exact absurd hk h.1
  | played _ _ hk' => rcases hk' with rfl | rfl <;> simp
  | take _ _ _ _ hk' => rcases hk' with rfl | ⟨rfl, -⟩ <;> simp
  | quiet | iam | top | inform | ack => exact h
  | _ => simp

theorem Staying.thread (h : Staying sh pc v) (hv : v c = t.view) (hm : Move sh c t o sh' v')
    (ho : o.calm t.pc = true) (hp : ¬t.pc.isBadLine) :
    Staying sh' pc (Function.update v c v') := by
  have hc := hv ▸ h.threads c
  refine ⟨forall_update (P := fun w => w.kind ≠ .leaving false ∧ w.kind ≠ .gone) h.threads c
    (hm.stays ho hp hc), fun s hs => ?_, h.caller, h.answering⟩
  rcases hm.reports hs with hs | hk
  · exact h.silent s hs
  · refine hc.2 ?_
    revert hk
    cases t.view.kind <;> simp [Kind.byte]

lemma afterBarrier_caller (r : Caller) : (m.afterBarrier r).pc.caller = none :=
  m.afterBarrier_pc r (P := fun _ pc => pc.caller = none) rfl (fun _ _ _ _ => rfl) rfl rfl rfl

theorem Staying.main (h : Staying sh m.pc v) (hm : MainMove sh m sh' m') :
    Staying sh' m'.pc v := by
  have hcaller : ∀ r, m'.pc.caller = some r → r.wait = none := by
    intro r hr
    cases hm with
    | reset r' hpc | ask _ _ r' hpc | askLast _ r' hpc | poll _ r' hpc | lost _ _ r' _ hpc
    | woken _ _ r' _ hpc | stay r' hpc | pass r' hpc | resend _ _ r' hpc | release _ _ r' hpc =>
      exact h.caller r (by rw [hpc]; exact hr)
    | lostPlayer _ _ _ _ _ _ _ hp => exact (h.silent _ (hp ▸ List.mem_cons_self)).elim
    | releaseLast s r' =>
      rw [afterBarrier_caller] at hr
      cases hr
    | announceLast b =>
      cases b <;> cases hr <;> rfl
    | _ => cases hr
  refine ⟨h.threads, fun s hs => h.silent s (hm.reads hs), hcaller, ?_⟩
  cases hm with
  | lost _ _ _ _ _ hp => exact (h.silent _ (hp ▸ List.mem_cons_self)).elim
  | announceLast b => cases b <;> rfl
  | releaseLast s r =>
    exact m.afterBarrier_pc r (P := fun _ pc => pc.answering = none) rfl (fun _ _ _ _ => rfl)
      rfl rfl rfl
  | _ => rfl

lemma Staying.accepting (h : Staying sh pc v) (c : ℕ) (fd : ℤ) :
    Staying sh pc (Function.update v c { Thread.view {} with clientFd := fd }) :=
  ⟨forall_update (P := fun w => w.kind ≠ .leaving false ∧ w.kind ≠ .gone) h.threads c (by simp),
    h.silent, h.caller, h.answering⟩

lemma Staying.not_inBarrier (h : Staying sh pc v) (hw : pc.wait ≠ none) : pc.inBarrier = false := by
  by_contra hin
  refine hw ?_
  have hcaller := h.caller
  revert hin
  cases pc <;> simp_all [MainPc.inBarrier, MainPc.counting, MainPc.caller, MainPc.wait]

end Staying

section Runs

variable {timeout : ℤ} {deals : List Deal} {st : State}

lemma staying (h : RunsTo Calm timeout deals st) : Staying st.sh st.main.pc st.view := by
  refine RunsTo.keeps (I := fun sh m v => Staying sh m.pc v) (J := fun _ _ _ => True)
    (fun _ _ => trivial) ⟨?_, fun _ hs => (nomatch hs), ?_, rfl⟩ (fun _ _ _ _ _ hi _ hm => hi.main hm)
    (fun _ _ _ c fd _ hi _ _ => hi.accepting c fd)
    (fun _ c _ _ _ _ hi hok hm => hi.thread rfl hm hok.1 (hok.2.2 c))
    (h.with_known fun _ hr => lines_checked hr)
  · intro c
    simp
  · rintro r hr
    cases hr
    rfl

lemma counted_of_calm (h : RunsTo Calm timeout deals st) : Counted st.sh st.main st.view := by
  refine counted ((h.with_known fun _ hr => staying hr).mono fun st a => ?_)
  rintro ⟨-, hs⟩
  cases a with
  | main ready =>
    intro s ha
    rw [hs.answering] at ha
    cases ha
  | accept fd => trivial
  | thread c o =>
    intro hpc
    exact absurd (Thread.kind_eq hpc) (hs.threads c).1

end Runs

/-! ### Everyone is seated before the first deal -/

/-- The first call of `barrier`, up to the end of its waiting loop. -/
def MainPc.opening : MainPc → Bool
  | barrierReset .startGame | barrierAsk _ .startGame | barrierPoll .startGame => true
  | barrierScan _ .startGame | barrierResend _ _ .startGame => true
  | _ => false

/-- **The seats are taken before the first deal is loaded**, so no thread replays a deal or finds a
turn announced. -/
structure Gathered (sh : Shared) (pc : MainPc) (v : ℕ → View) : Prop where
  threads : ∀ c, (v c).kind ≠ .reserve ∧ (v c).myTurn = false
  free : ∀ s, sh.seatsStatus s = -1 → sh.deal .N = [] ∧ (pc.opening = true ∨ pc.closing = true)

section Gathered

variable {sh sh' : Shared} {pc : MainPc} {m m' : Main} {v : ℕ → View} {c : ℕ} {t : Thread}
  {o : Outcome} {v' : View}

theorem Gathered.thread (h : Gathered sh pc v) (hst : Seated sh v)
    (hstay : t.view.kind ≠ .leaving false) (hv : v c = t.view) (hm : Move sh c t o sh' v') :
    Gathered sh' pc (Function.update v c v') := by
  have hc := hv ▸ h.threads c
  refine ⟨forall_update (P := fun w => w.kind ≠ .reserve ∧ w.myTurn = false) h.threads c ?_,
    fun s hs => ?_⟩
  · cases hm with
    | take k hpc hk hs hk' hd =>
      refine ⟨?_, hc.2⟩
      rintro rfl
      exact hd rfl (h.free _ hs).1
    | test hk => exact absurd hk hc.1
    | played _ _ hk' => rcases hk' with rfl | rfl <;> exact ⟨by simp, hc.2⟩
    | quiet | iam | top | inform | ack => exact hc
    | _ => exact ⟨by simp, hc.2⟩
  · rw [hm.deal_eq]
    rcases hm.seats with ⟨hsame, -⟩ | ⟨-, -, htake, -⟩ | ⟨hpc, -⟩
    · exact h.free s (hsame ▸ hs)
    · rw [htake] at hs
      by_cases hseat : s = t.seat
      · subst hseat
        have hfd : 0 ≤ t.clientFd := by simpa [hv] using hst.clientFd c
        rw [Function.update_self] at hs
        omega
      · exact h.free s (by simpa [hseat] using hs)
    · exact absurd (Thread.kind_eq hpc) hstay

lemma MainMove.opening (hm : MainMove sh m sh' m')
    (h : m.pc.opening = true ∨ m.pc.closing = true) :
    sh'.deal = sh.deal ∧ (m'.pc.opening = true ∨ m'.pc.closing = true) ∨
    m.pc.counting = true ∧ int16 (4 - sh.occupied) ≤ 0 := by
  cases hm with
  | pass r hpc hw => exact .inr ⟨by rw [hpc]; rfl, hw⟩
  | reset r hpc | ask _ _ r hpc | askLast _ r hpc | poll _ r hpc | lost _ _ r _ hpc
  | woken _ _ r _ hpc | stay r hpc | resend _ _ r hpc =>
    rw [hpc] at h
    rcases h with h | h
    · refine .inl ⟨rfl, .inl ?_⟩
      cases r <;> first | rfl | cases h
    · cases h
  | badBarrier | badDeal | close | closeSeat | gameOver => exact .inl ⟨rfl, .inr rfl⟩
  | _ hpc => simp_all [MainPc.opening, MainPc.closing]

lemma Balanced.seats_taken (h : Balanced sh pc v) (hst : Seated sh v)
    (hw : int16 (4 - sh.occupied) ≤ 0) (s : Seat) : sh.seatsStatus s ≠ -1 := by
  obtain ⟨c, hk, rfl, -⟩ := h.acked s (h.due_eq_zero hw s)
  exact (hst.status_of_holds (Kind.holds_of_seated hk)).2

theorem Gathered.main (h : Gathered sh m.pc v) (hst : Seated sh v) (hcount : Counted sh m v)
    (hm : MainMove sh m sh' m') : Gathered sh' m'.pc v := by
  refine ⟨h.threads, fun s hs => ?_⟩
  rw [hm.seats.1] at hs
  obtain ⟨hdeal, hpc⟩ := h.free s hs
  rcases hm.opening hpc with ⟨hsame, hpc'⟩ | ⟨hc, hw⟩
  · exact ⟨by rw [hsame, hdeal], hpc'⟩
  · exact absurd hs ((hcount.balanced hc).seats_taken hst hw s)

lemma Gathered.accepting (h : Gathered sh pc v) (c : ℕ) (fd : ℤ) :
    Gathered sh pc (Function.update v c { Thread.view {} with clientFd := fd }) :=
  ⟨forall_update (P := fun w => w.kind ≠ .reserve ∧ w.myTurn = false) h.threads c (by simp),
    h.free⟩

end Gathered

section Runs

variable {timeout : ℤ} {deals : List Deal} {st : State}

lemma gathered (h : RunsTo Calm timeout deals st) : Gathered st.sh st.main.pc st.view := by
  refine RunsTo.keeps (I := fun sh m v => Gathered sh m.pc v)
    (J := fun sh m v => Seated sh v ∧ Counted sh m v ∧ Staying sh m.pc v)
    (fun _ hr => ⟨seated hr, counted_of_calm hr, staying hr⟩) ⟨fun _ => by simp, fun _ _ => ?_⟩
    (fun _ _ _ _ hj hi _ hm => hi.main hj.1 hj.2.1 hm) (fun _ _ _ c fd _ hi _ _ => hi.accepting c fd)
    (fun _ c _ _ _ hj hi _ hm => hi.thread hj.1 (hj.2.2.threads c).1 rfl hm) h
  exact ⟨rfl, .inl rfl⟩

end Runs

/-! ### The turn is announced by the byte alone -/

/-- While the `CARD_PLAY` byte of a seat is still to come, no thread of the seat may play. -/
def Unasked (sh : Shared) (pc : MainPc) (v : ℕ → View) : Prop :=
  ∀ s, Ahead sh pc s → ∀ c, (v c).seat = s → (v c).perm = false

section Turn

variable {sh sh' : Shared} {pc : MainPc} {m m' : Main} {v : ℕ → View} {c : ℕ} {t : Thread}
  {o : Outcome} {v' : View}

lemma Move.permitted (hm : Move sh c t o sh' v') (hk : t.view.kind ≠ .reserve)
    (hmine : t.view.myTurn = false) (hp : v'.perm = true) :
    v'.seat = t.seat ∧ (t.view.perm = true ∨
      ∃ rest, sh.serverWritePipes t.seat = .cardPlay :: rest ∧ sh' = sh.heard t.seat rest) := by
  have hmine' : t.bIsMyTurn = false := hmine
  cases hm with
  | ask rest _ hpipe => exact ⟨rfl, .inr ⟨rest, hpipe, rfl⟩⟩
  | test hk' => exact absurd hk' hk
  | take _ _ _ _ hk' => rcases hk' with rfl | ⟨rfl, -⟩ <;> simp [View.perm, hmine'] at hp
  | played _ _ hk' => rcases hk' with rfl | rfl <;> simp [View.perm] at hp
  | quiet | top | inform => exact ⟨rfl, .inl hp⟩
  | ack _ hk' | ackLast _ hk' | topDrain hk' | parse hk' | parsed hk' | unbar _ _ hk' | wake hk' =>
    exact ⟨rfl, .inl (by simpa [View.perm, hk'] using hp)⟩
  | asked hk' => exact ⟨rfl, .inl (by simp [View.perm, hk'])⟩
  | join => simp [View.perm, hmine'] at hp
  | iam _ _ hk' => simp [View.perm, hk'] at hp
  | _ => simp [View.perm] at hp

theorem Unasked.thread (h : Unasked sh pc v) (hturn : TurnInv sh pc v)
    (hg : t.view.kind ≠ .reserve ∧ t.view.myTurn = false) (hv : v c = t.view)
    (hm : Move sh c t o sh' v') : Unasked sh' pc (Function.update v c v') := by
  intro s ha c' hs
  have ha' : Ahead sh pc s := ha.imp (fun hb => (hm.suffix s).subset hb) id
  by_cases hcc : c' = c
  · subst hcc
    rw [Function.update_self] at hs ⊢
    by_contra hp
    obtain ⟨hseat, hp' | ⟨rest, hpipe, hsh⟩⟩ := hm.permitted hg.1 hg.2 (by simpa using hp)
    · have := h s ha' c' (by rw [hv, ← hs, hseat]; rfl)
      rw [hv, hp'] at this
      cases this
    · -- the byte was the only one
      obtain rfl : t.seat = s := hseat.symm.trans hs
      have hopen : Open sh pc t.seat := by
        by_contra hno
        exact (hturn.closed _ hno).1 (by simp [hpipe])
      obtain ⟨-, hcount, hann⟩ := hturn.opened _ hopen
      rcases ha with hb | hann'
      · rw [hpipe, List.count_cons_self] at hcount
        rw [hsh, Shared.heard_serverWritePipes, Function.update_self, ← List.count_pos_iff] at hb
        omega
      · exact hann hann' (by simp [hpipe])
  · rw [Function.update_of_ne hcc] at hs ⊢
    exact h s ha' c' hs

lemma MainMove.ahead (hm : MainMove sh m sh' m') {s : Seat} (ha : Ahead sh' m'.pc s) :
    Ahead sh m.pc s ∨ m.pc.wait = none := by
  obtain hs | ⟨s₀, rest, hw, -⟩ | ⟨s₀, rest, hpc, rfl, hpc'⟩ |
    ⟨s₀, rest, got, ready, left, hpc, -, rfl, hpc'⟩ | ⟨-, rfl, -, -, hann⟩ := hm.turn
  · exact .inl ((hs.ahead_iff s).mp ha)
  · exact .inr hw
  · left
    rcases ha with hb | hann
    · rw [Shared.note_serverWritePipes, Shared.mem_tell] at hb
      rcases hb with hb | ⟨rfl, -⟩
      · exact .inl hb
      · exact .inr (by rw [hpc]; rfl)
    · rw [hpc'] at hann
      cases hann
  · left
    rcases ha with hb | hann
    · exact .inl hb
    · rw [hpc'] at hann
      cases hann
  · left
    rcases ha with hb | hann'
    · exact .inl hb
    · rw [hann] at hann'
      cases hann'

theorem Unasked.main (h : Unasked sh m.pc v) (hturn : TurnInv sh m.pc v)
    (hm : MainMove sh m sh' m') : Unasked sh' m'.pc v := by
  intro s ha c hs
  rcases hm.ahead ha with ha | hw
  · exact h s ha c hs
  · have hno : ¬Open sh m.pc s := fun ho => by simp [Open, hw] at ho
    exact (hturn.closed s hno).2.2.2 c hs

lemma Unasked.accepting (h : Unasked sh pc v) (c : ℕ) (fd : ℤ) :
    Unasked sh pc (Function.update v c { Thread.view {} with clientFd := fd }) := fun s ha =>
  forall_update (P := fun w => w.seat = s → w.perm = false) (h s ha) c (by simp [View.perm])

/-- The threads take their permission only from the byte, so the guard of the turn holds. -/
lemma turnGuarded_of_unasked {st : State} (hu : Unasked st.sh st.main.pc st.view)
    (hg : Gathered st.sh st.main.pc st.view) (a : Act) : TurnGuarded st a := by
  cases a with
  | thread c o =>
    constructor
    · intro _ hmine
      have := (hg.threads c).2
      simp [State.view, hmine] at this
    · intro hpc _ hd ha
      have := hu _ ha c rfl
      rw [View.perm, State.view, Thread.kind_eq hpc] at this
      simp [Pc.kind, hd] at this
  | main | accept => trivial

end Turn

section Runs

variable {timeout : ℤ} {deals : List Deal} {st : State}

lemma turn_of_calm (h : RunsTo Calm timeout deals st) :
    TurnInv st.sh st.main.pc st.view ∧ Unasked st.sh st.main.pc st.view := by
  refine RunsTo.keeps (I := fun sh m v => TurnInv sh m.pc v ∧ Unasked sh m.pc v)
    (J := fun sh m v => Seated sh v ∧ (∀ c, (v c).Sane) ∧ Gathered sh m.pc v)
    (fun _ hr => ⟨seated hr, sane hr, gathered hr⟩) ⟨.start, ?_⟩ ?_ ?_ ?_ h
  · rintro s (hb | hann)
    · cases hb
    · cases hann
  · rintro st ready sh m - ⟨ht, hu⟩ - hm
    exact ⟨ht.main hm, hu.main ht hm⟩
  · rintro sh m v c fd - ⟨ht, hu⟩ - -
    exact ⟨ht.accepting, hu.accepting c fd⟩
  · rintro st c o sh v ⟨hseat, hsane, hg⟩ ⟨ht, hu⟩ - hm
    obtain ⟨hjoin, hend⟩ := turnGuarded_of_unasked hu hg (.thread c o)
    exact ⟨ht.thread rfl hseat (hsane c) hm hjoin hend, hu.thread ht (hg.threads c) rfl hm⟩

end Runs

end Kierki.Serwer
