import Kierki.Serwer.Seats
import Mathlib.Algebra.BigOperators.Ring.Finset
import Mathlib.Algebra.Order.BigOperators.Group.Finset

/-!
# The count of `barrier`

While `barrier` waits, every seat owes it a number of acknowledgements: one if its first
`BARRIER_RESPONSE` is not written yet, one for each such byte in its pipe, and one for each
connection that left it since the reset and whose `DISCONNECTED` is not answered yet. The count
`occupied` and these debts add up to four, as long as no departure is clamped at zero and no
`DISCONNECTED` of an earlier departure is answered. So `barrier` passes only with nothing owed, and
then every seat is held by a connection that has acknowledged.
-/

namespace Kierki.Serwer

open Lib.Lts

/-- The waiting loop of `barrier`, from the reset of the count on. -/
def MainPc.counting : MainPc → Bool
  | barrierAsk _ _ | barrierPoll _ | barrierScan _ _ | barrierResend _ _ _ => true
  | _ => false

/-- The seats whose first `BARRIER_RESPONSE` is not written yet. -/
def MainPc.asking : MainPc → List Seat
  | barrierAsk left _ => left
  | _ => []

/-- The seat whose `DISCONNECTED` byte `barrier` is about to answer. -/
def MainPc.answering : MainPc → Option Seat
  | barrierResend s _ _ => some s
  | _ => none

/-- The main thread is in `close_server`. -/
def MainPc.closing : MainPc → Bool
  | closeServer _ _ | closeSeats _ _ _ => true
  | _ => false

/-- The thread is in `client_poll`, or on its way out of it by an error of its own. -/
def Kind.seated : Kind → Bool
  | play | parsing | card | wake | asked | leaving false => true
  | _ => false

/-- The acknowledgements the seat `s` owes. -/
def due (sh : Shared) (pc : MainPc) (s : Seat) : ℤ :=
  pc.asking.count s + (sh.serverWritePipes s).count .barrierResponse + owed s sh.log

/-- A connection on the seat acknowledged since the reset. -/
def AckedBy (sh : Shared) (v : ℕ → View) (s : Seat) : Prop :=
  ∃ c, (v c).kind.seated = true ∧ (v c).seat = s ∧ ackedSinceReset c sh.log = true

/-- The count and the debts of the seats balance. -/
structure Balanced (sh : Shared) (pc : MainPc) (v : ℕ → View) : Prop where
  count_nonneg : 0 ≤ sh.occupied
  owed_nonneg : ∀ s, 0 ≤ owed s sh.log
  total : sh.occupied + ∑ s, due sh pc s = 4
  acked : ∀ s, due sh pc s = 0 → AckedBy sh v s

/-- **The invariant of the count.** -/
structure Counted (sh : Shared) (m : Main) (v : ℕ → View) : Prop where
  dismissed : ∀ s, .disconnected ∈ sh.serverWritePipes s → m.pc.closing = true
  leaving : ∀ c, (v c).kind = .leaving true → m.pc.closing = true
  quiet : m.pc.counting = false → m.pc.closing = false →
    ∀ s, .barrierResponse ∉ sh.serverWritePipes s
  balanced : m.pc.counting = true → Balanced sh m.pc v

section Facts

variable {sh sh' : Shared} {pc pc' : MainPc} {v v' : ℕ → View}

lemma Kind.holds_of_seated {k : Kind} (h : k.seated = true) : k.holds = true := by
  cases k <;> first | rfl | cases h

lemma MainPc.closing_of_counting (h : pc.counting = true) : pc.closing = false := by
  cases pc <;> first | rfl | cases h

lemma sum_shift {f g : Seat → ℤ} (s₀ : Seat) (d : ℤ)
    (h : ∀ s, g s = f s + if s = s₀ then d else 0) : ∑ s, g s = ∑ s, f s + d := by
  simp [h, Finset.sum_add_distrib]

lemma Balanced.due_nonneg (h : Balanced sh pc v) (s : Seat) : 0 ≤ due sh pc s := by
  have := h.owed_nonneg s
  unfold due
  omega

lemma Balanced.due_le (h : Balanced sh pc v) (s : Seat) : sh.occupied + due sh pc s ≤ 4 := by
  have := h.total
  have := Finset.single_le_sum (fun s _ => h.due_nonneg s) (Finset.mem_univ s)
  omega

/-- The test at the end of a round of `barrier` reads the count as it is. -/
lemma Balanced.int16_waiting (h : Balanced sh pc v) : int16 (4 - sh.occupied) = 4 - sh.occupied := by
  have := h.due_le .N
  have := h.due_nonneg .N
  have := h.count_nonneg
  exact int16_of_range (by omega) (by omega)

/-- **When the waiting is over, nothing is owed.** -/
lemma Balanced.due_eq_zero (h : Balanced sh pc v) (hw : int16 (4 - sh.occupied) ≤ 0) (s : Seat) :
    due sh pc s = 0 := by
  rw [h.int16_waiting] at hw
  have := h.due_le s
  have := h.due_nonneg s
  omega

lemma Balanced.same (h : Balanced sh pc v) (ho : sh'.occupied = sh.occupied)
    (hdue : ∀ s, due sh' pc' s = due sh pc s) (howed : ∀ s, 0 ≤ owed s sh'.log)
    (hack : ∀ s, AckedBy sh v s → AckedBy sh' v' s) : Balanced sh' pc' v' :=
  ⟨ho ▸ h.count_nonneg, howed, by simp only [ho, hdue, h.total], fun s hs => hack s (h.acked s (hdue s ▸ hs))⟩

end Facts

/-! ### What a seat thread does to the count -/

section Thread

variable {sh sh' : Shared} {m : Main} {v : ℕ → View} {c : ℕ} {t : Thread} {o : Outcome} {v' : View}

/-- What a move of a seat thread means for the count: nothing, or an acknowledgement, or a
departure, or it happens only when the server closes. -/
lemma Move.count (hm : Move sh c t o sh' v') :
    (sh'.occupied = sh.occupied ∧ (∀ s, owed s sh'.log = owed s sh.log) ∧
      (∀ c, ackedSinceReset c sh'.log = ackedSinceReset c sh.log) ∧
      (∀ s, (sh'.serverWritePipes s).count .barrierResponse =
        (sh.serverWritePipes s).count .barrierResponse) ∧
      (t.view.kind.seated = true → v'.kind.seated = true ∧ v'.seat = t.seat) ∧
      v'.kind ≠ .leaving true) ∨
    (∃ rest, t.view.kind = .play ∧ sh.serverWritePipes t.seat = .barrierResponse :: rest ∧
      sh'.occupied = int16 (sh.occupied + 1) ∧ sh'.log = .acked c t.seat :: sh.log ∧
      sh'.serverWritePipes = Function.update sh.serverWritePipes t.seat rest ∧
      v'.kind.seated = true ∧ v'.seat = t.seat) ∨
    (t.pc = .closeLock false ∧ sh'.occupied = lessOne sh.occupied ∧
      sh'.log = .released c t.seat :: sh.log ∧ sh'.serverWritePipes = sh.serverWritePipes ∧
      v'.kind = .gone) ∨
    (t.view.kind = .leaving true ∨ .disconnected ∈ sh.serverWritePipes t.seat) := by
  by_cases hl : t.view.kind = .leaving true
  · exact .inr (.inr (.inr (.inl hl)))
  cases hm with
  | ack rest hk hp => exact .inr (.inl ⟨rest, hk, hp, rfl, rfl, rfl, by rw [hk]; rfl, rfl⟩)
  | ackLast rest hk hp => exact .inr (.inl ⟨rest, hk, hp, rfl, rfl, rfl, rfl, rfl⟩)
  | release hpc => exact .inr (.inr (.inl ⟨hpc, rfl, rfl, rfl, rfl⟩))
  | dismissed rest hk hp => exact .inr (.inr (.inr (.inr (by simp [hp]))))
  | dismiss hpc hk => exact absurd hk hl
  | ask rest hk hp =>
    exact .inl ⟨rfl, fun _ => rfl, fun _ => rfl, fun _ => Shared.count_heard hp (by decide),
      fun _ => ⟨rfl, rfl⟩, by simp⟩
  | inform b rest hk hp hb =>
    refine .inl ⟨rfl, fun _ => rfl, fun _ => rfl, fun _ => Shared.count_heard hp ?_, fun h => ⟨h, rfl⟩, hl⟩
    rintro rfl
    simp at hb
  | unbar rest hpc hk hp =>
    exact .inl ⟨rfl, fun _ => rfl, fun _ => rfl, fun _ => Shared.count_heard hp (by decide),
      fun _ => ⟨rfl, rfl⟩, by simp⟩
  | take k hpc hk hs hk' =>
    refine .inl ⟨rfl, fun _ => rfl, fun _ => rfl, fun _ => rfl, fun h => ?_, ?_⟩
    · rw [hk] at h
      cases h
    · obtain rfl | ⟨rfl, -⟩ := hk' <;> simp
  | played k hk hk' =>
    refine .inl ⟨rfl, fun _ => rfl, fun _ => rfl, fun _ => rfl, fun _ => ⟨?_, rfl⟩, ?_⟩ <;>
      obtain rfl | rfl := hk' <;> simp [Kind.seated]
  | lost hk =>
    refine .inl ⟨rfl, fun _ => rfl, fun _ => rfl, fun _ => rfl, fun h => ?_, by simp⟩
    obtain hk | hk := hk <;> (rw [hk] at h; cases h)
  | quiet | top => exact .inl ⟨rfl, fun _ => rfl, fun _ => rfl, fun _ => rfl, fun h => ⟨h, rfl⟩, hl⟩
  | iam _ _ hk | stop hk | test hk | reported hk | unreported hk =>
    refine .inl ⟨rfl, fun _ => rfl, fun _ => rfl, fun _ => rfl, fun h => ?_, by simp [hk]⟩
    rw [hk] at h
    cases h
  | join | topDrain | parse | parsed | accept | leave | asked | wake =>
    exact .inl ⟨rfl, fun _ => rfl, fun _ => rfl, fun _ => rfl, fun _ => ⟨rfl, rfl⟩, by simp⟩

lemma Move.suffix (hm : Move sh c t o sh' v') (s : Seat) :
    sh'.serverWritePipes s <:+ sh.serverWritePipes s := by
  have hheard : ∀ {b : Byte} {rest : List Byte}, sh.serverWritePipes t.seat = b :: rest →
      (sh.heard t.seat rest).serverWritePipes s <:+ sh.serverWritePipes s := by
    intro b rest hp
    by_cases hs : s = t.seat
    · subst hs
      simp [hp, List.suffix_cons]
    · simp [hs]
  cases hm with
  | ask _ _ hp | dismissed _ _ hp | inform _ _ _ hp | ack _ _ hp | ackLast _ _ hp | unbar _ _ _ hp =>
    exact hheard hp
  | _ => exact List.suffix_refl _

section Balanced

variable (h : Balanced sh m.pc v)
include h

lemma Balanced.ack {rest : List Byte} (hp : sh.serverWritePipes t.seat = .barrierResponse :: rest)
    (ho : sh'.occupied = int16 (sh.occupied + 1)) (hl : sh'.log = .acked c t.seat :: sh.log)
    (hw : sh'.serverWritePipes = Function.update sh.serverWritePipes t.seat rest)
    (hs : v'.kind.seated = true ∧ v'.seat = t.seat) (hv : (v c).seat = t.seat) :
    Balanced sh' m.pc (Function.update v c v') := by
  have hdue : ∀ s, due sh' m.pc s = due sh m.pc s + if s = t.seat then -1 else 0 := by
    intro s
    by_cases hs : s = t.seat
    · subst hs
      simp only [due, hl, hw, hp, owed, Function.update_self, List.count_cons_self, if_true]
      push_cast
      omega
    · simp [due, hl, hw, owed, hs]
  have hone : 1 ≤ due sh m.pc t.seat := by
    have := h.owed_nonneg t.seat
    simp only [due, hp, List.count_cons_self]
    push_cast
    omega
  have hle := h.due_le t.seat
  have hocc := h.count_nonneg
  rw [int16_of_range (by omega) (by omega)] at ho
  refine ⟨by omega, fun s => by simpa [hl, owed] using h.owed_nonneg s, ?_, fun s hzero => ?_⟩
  · rw [sum_shift t.seat (-1) hdue, ho]
    have := h.total
    omega
  · by_cases hst : s = t.seat
    · exact ⟨c, by simpa using hs.1, by simpa [hst] using hs.2, by simp [hl, ackedSinceReset]⟩
    · have hsame : due sh m.pc s = 0 := by simpa [hst, hzero] using (hdue s).symm
      obtain ⟨c', hk, hc', ha⟩ := h.acked s hsame
      have hne : c' ≠ c := by
        rintro rfl
        exact hst (hc'.symm.trans hv)
      exact ⟨c', by simpa [hne] using hk, by simpa [hne] using hc', by simp [hl, ackedSinceReset, ha]⟩

lemma Balanced.release (hpos : 0 < sh.occupied) (ho : sh'.occupied = lessOne sh.occupied)
    (hl : sh'.log = .released c t.seat :: sh.log)
    (hw : sh'.serverWritePipes = sh.serverWritePipes) (hv : (v c).seat = t.seat) :
    Balanced sh' m.pc (Function.update v c v') := by
  have hdue : ∀ s, due sh' m.pc s = due sh m.pc s + if s = t.seat then 1 else 0 := by
    intro s
    by_cases hs : s = t.seat
    · subst hs
      simp only [due, hl, hw, owed, if_true]
      omega
    · simp [due, hl, hw, owed, hs, Ne.symm hs]
  have hle := h.due_le t.seat
  have hnn := h.due_nonneg t.seat
  have ho' : sh'.occupied = sh.occupied - 1 := by
    rw [ho, lessOne, int16_of_range (by omega) (by omega), if_neg (by omega)]
  refine ⟨by omega, fun s => ?_, ?_, fun s hzero => ?_⟩
  · have := h.owed_nonneg s
    simp only [hl, owed]
    split <;> omega
  · rw [sum_shift t.seat 1 hdue, ho']
    have := h.total
    omega
  · have hst : s ≠ t.seat := by
      rintro rfl
      have := hdue t.seat
      rw [if_pos rfl] at this
      omega
    have hsame : due sh m.pc s = 0 := by simpa [hst, hzero] using (hdue s).symm
    obtain ⟨c', hk, hc', ha⟩ := h.acked s hsame
    have hne : c' ≠ c := by
      rintro rfl
      exact hst (hc'.symm.trans hv)
    exact ⟨c', by simpa [hne] using hk, by simpa [hne] using hc', by simpa [hl, ackedSinceReset] using ha⟩

end Balanced

/-- **A seat thread keeps the invariant**, if it does not leave while the count is zero. -/
theorem Counted.thread (h : Counted sh m v) (hv : v c = t.view) (hm : Move sh c t o sh' v')
    (hok : t.pc = .closeLock false → m.pc.counting = true → 0 < sh.occupied) :
    Counted sh' m (Function.update v c v') := by
  have hclosing : t.view.kind = .leaving true ∨ .disconnected ∈ sh.serverWritePipes t.seat →
      m.pc.closing = true := by
    rintro (hk | hd)
    · exact h.leaving c (by rw [hv, hk])
    · exact h.dismissed _ hd
  have hseat : (v c).seat = t.seat := by rw [hv]; rfl
  refine ⟨fun s hs => h.dismissed s ((hm.suffix s).subset hs), fun c' hk => ?_,
    fun hc hcl s hs => h.quiet hc hcl s ((hm.suffix s).subset hs), fun hc => ?_⟩
  · by_cases hcc : c' = c
    · subst hcc
      rw [Function.update_self] at hk
      obtain ⟨-, -, -, -, -, hne⟩ | ⟨_, -, -, -, -, -, hs, -⟩ | ⟨-, -, -, -, hg⟩ | hd := hm.count
      · exact absurd hk hne
      · rw [hk] at hs
        cases hs
      · rw [hk] at hg
        cases hg
      · exact hclosing hd
    · rw [Function.update_of_ne hcc] at hk
      exact h.leaving c' hk
  · obtain ⟨ho, hw, ha, hn, hs, -⟩ | ⟨rest, -, hp, ho, hl, hw, hs⟩ | ⟨hpc, ho, hl, hw, -⟩ | hd :=
      hm.count
    · refine (h.balanced hc).same ho (fun s => by simp only [due, hw, hn])
        (fun s => hw s ▸ (h.balanced hc).owed_nonneg s) ?_
      rintro s ⟨c', hk, rfl, hack⟩
      by_cases hcc : c' = c
      · subst hcc
        rw [hv] at hk
        exact ⟨c', by simpa using (hs hk).1, by simpa [hv] using (hs hk).2, by rwa [ha]⟩
      · exact ⟨c', by simpa [hcc] using hk, by simp [hcc], by rwa [ha]⟩
    · exact (h.balanced hc).ack hp ho hl hw hs hseat
    · exact (h.balanced hc).release (hok hpc hc) ho hl hw hseat
    · have := MainPc.closing_of_counting hc
      simp [hclosing hd] at this

end Thread

/-! ### What the main thread does to the count -/

section Main

variable {sh sh' : Shared} {m m' : Main} {v : ℕ → View}

lemma MainPc.afterBarrier_counting (r : Caller) : (m.afterBarrier r).pc.counting = false :=
  m.afterBarrier_pc r (P := fun _ pc => pc.counting = false) rfl (fun _ _ _ _ => rfl) rfl rfl rfl

lemma MainMove.closing (hm : MainMove sh m sh' m') (h : m.pc.closing = true) :
    m'.pc.closing = true := by
  cases hm <;> simp_all [MainPc.closing]

lemma MainMove.disconnected (hm : MainMove sh m sh' m') {s : Seat}
    (h : .disconnected ∈ sh'.serverWritePipes s) :
    .disconnected ∈ sh.serverWritePipes s ∨ m'.pc.closing = true := by
  cases hm with
  | closeSeat => exact .inr rfl
  | announce b | announceLast b =>
    rw [Shared.mem_tell] at h
    obtain h | ⟨-, hb⟩ := h
    · exact .inl h
    · cases b <;> cases hb
  | ask | askLast | release | releaseLast | resend | turnSend =>
    simp only [Shared.note_serverWritePipes, Shared.mem_tell, reduceCtorEq, and_false, or_false] at h
    exact .inl h
  | _ => exact .inl h

lemma MainMove.quiet (hm : MainMove sh m sh' m') {s : Seat} (hc : m.pc.counting = false)
    (h : .barrierResponse ∉ sh.serverWritePipes s) : .barrierResponse ∉ sh'.serverWritePipes s := by
  cases hm with
  | ask _ _ _ hpc | askLast _ _ hpc | resend _ _ _ hpc => simp [hpc, MainPc.counting] at hc
  | announce b | announceLast b =>
    rw [Shared.mem_tell]
    rintro (h' | ⟨-, hb⟩)
    · exact h h'
    · cases b <;> cases hb
  | release | releaseLast | turnSend | closeSeat =>
    simpa only [Shared.note_serverWritePipes, Shared.mem_tell, reduceCtorEq, and_false, or_false] using h
  | _ => exact h

/-- **The main thread keeps the balance**, if it answers only departures since the reset. -/
lemma MainMove.balanced (hm : MainMove sh m sh' m') (hc : m'.pc.counting = true)
    (hquiet : m.pc.counting = false → m.pc.closing = false →
      ∀ s, .barrierResponse ∉ sh.serverWritePipes s)
    (h : m.pc.counting = true → Balanced sh m.pc v)
    (hok : ∀ s, m.pc.answering = some s → 0 < owed s sh.log) :
    Balanced sh' m'.pc v := by
  cases hm with
  | reset r hpc =>
    have hdue : ∀ s, due ({ sh with bIsBarrierOngoing := true, occupied := 0 }.note .reset)
        (.barrierAsk Seat.all r) s = 1 := by
      intro s
      have := hquiet (by simp [hpc, MainPc.counting]) (by simp [hpc, MainPc.closing]) s
      simp only [due, MainPc.asking, owed, Shared.note_serverWritePipes, Shared.note_log,
        List.count_eq_zero.mpr this]
      cases s <;> decide
    refine ⟨le_rfl, fun s => le_rfl, ?_, fun s hs => ?_⟩
    · simp only [Main.goto_pc, hdue]
      exact (zero_add _).trans (by decide)
    · rw [Main.goto_pc, hdue] at hs
      cases hs
  | ask s₀ left r hpc | askLast s₀ r hpc =>
    have hb := h (by simp [hpc, MainPc.counting])
    refine hb.same rfl (fun s => ?_) hb.owed_nonneg fun s ha => ha
    simp only [due, hpc, MainPc.asking, Main.goto_pc, Shared.count_tell, Shared.tell_log,
      List.count_cons, List.count_nil]
    by_cases hs : s = s₀
    · simp [hs]
      omega
    · simp [hs, Ne.symm hs]
  | resend s₀ ready r hpc =>
    have hb := h (by simp [hpc, MainPc.counting])
    have hpos := hok s₀ (by simp [hpc, MainPc.answering])
    refine hb.same rfl (fun s => ?_) (fun s => ?_) fun s ha => ha
    · simp only [due, hpc, MainPc.asking, Main.goto_pc, Shared.note_serverWritePipes,
        Shared.count_tell, Shared.note_log, owed, Shared.tell_log]
      by_cases hs : s = s₀
      · subst hs
        simp
      · simp [hs, Ne.symm hs]
    · have := hb.owed_nonneg s
      simp only [Shared.note_log, owed, Shared.tell_log]
      split
      · subst_vars
        omega
      · omega
  | poll _ r hpc | lost _ _ r _ hpc | woken _ _ r _ hpc | stay r hpc =>
    have hb := h (by simp [hpc, MainPc.counting])
    exact hb.same rfl (fun s => by simp [due, hpc, MainPc.asking]) hb.owed_nonneg fun s ha => ha
  | releaseLast _ r =>
    rw [MainPc.afterBarrier_counting] at hc
    cases hc
  | announceLast b => cases b <;> simp [Main.afterBulletin, MainPc.counting] at hc
  | _ => simp [MainPc.counting, Main.loadDeal, Main.startDeal, Main.endDeal] at hc

lemma MainMove.passed (hm : MainMove sh m sh' m') (hc : m.pc.counting = true)
    (hc' : m'.pc.counting = false) (hcl : m'.pc.closing = false) :
    int16 (4 - sh.occupied) ≤ 0 ∧ sh'.serverWritePipes = sh.serverWritePipes := by
  cases hm with
  | pass r hpc hw => exact ⟨hw, rfl⟩
  | badBarrier => cases hcl
  | ask | askLast | poll | lost | woken | stay | resend | reset => cases hc'
  | _ hpc => simp_all [MainPc.counting]

/-- **The main thread keeps the invariant**, if it answers only departures since the reset. -/
theorem Counted.main (h : Counted sh m v) (hm : MainMove sh m sh' m')
    (hok : ∀ s, m.pc.answering = some s → 0 < owed s sh.log) :
    Counted sh' m' v := by
  refine ⟨fun s hs => ?_, fun c hk => hm.closing (h.leaving c hk), fun hc hcl s => ?_,
    fun hc => hm.balanced hc h.quiet h.balanced hok⟩
  · obtain hs | hs := hm.disconnected hs
    · exact hm.closing (h.dismissed s hs)
    · exact hs
  · have hclosing : m.pc.closing = false := by
      by_contra hcl'
      rw [hm.closing (by simpa using hcl')] at hcl
      cases hcl
    by_cases hcount : m.pc.counting = true
    · obtain ⟨hw, hp⟩ := hm.passed hcount hc hcl
      have hb := h.balanced hcount
      have hdue := hb.due_eq_zero hw s
      have := hb.owed_nonneg s
      rw [hp, ← List.count_eq_zero]
      unfold due at hdue
      omega
    · exact hm.quiet (by simpa using hcount) (h.quiet (by simpa using hcount) hclosing s)

end Main

/-! ### The runs -/

lemma Counted.accept {sh : Shared} {m : Main} {v : ℕ → View} {c : ℕ} {fd : ℤ} (h : Counted sh m v)
    (hk : (v c).kind = .fresh) :
    Counted sh m (Function.update v c { Thread.view {} with clientFd := fd }) := by
  refine ⟨h.dismissed, fun c' hk' => ?_, h.quiet, fun hc => (h.balanced hc).same rfl (fun _ => rfl)
    (h.balanced hc).owed_nonneg ?_⟩
  · by_cases hcc : c' = c
    · subst hcc
      simp at hk'
    · rw [Function.update_of_ne hcc] at hk'
      exact h.leaving c' hk'
  · rintro s ⟨c', hk', rfl, ha⟩
    have hcc : c' ≠ c := by
      rintro rfl
      rw [hk] at hk'
      cases hk'
    exact ⟨c', by simpa [hcc] using hk', by simp [hcc], ha⟩

/-- No connection leaves its seat in the waiting loop of `barrier` while the count is zero, and
`barrier` answers a `DISCONNECTED` byte only for a departure since it reset the count. -/
def DeparturesCounted (st : State) : Act → Prop
  | .thread c _ => (st.threads c).pc = .closeLock false → st.main.pc.counting = true →
      0 < st.sh.occupied
  | .main _ => ∀ s, st.main.pc.answering = some s → 0 < owed s st.sh.log
  | .accept _ => True

instance (st : State) : (a : Act) → Decidable (DeparturesCounted st a)
  | .thread _ _ => inferInstanceAs (Decidable (_ → _ → _))
  | .main _ => inferInstanceAs (Decidable (∀ _, _ → _))
  | .accept _ => inferInstanceAs (Decidable True)

/-- The seat is taken, and the thread of the connection that holds it has itself processed a
`BARRIER_RESPONSE` since `barrier` reset the count. -/
def Acknowledged (st : State) (s : Seat) : Prop :=
  st.sh.seatsStatus s ≠ -1 ∧ ∃ c, Between st.sh.log c s ∧ (st.threads c).seat = s ∧
    (st.threads c).clientFd = st.sh.seatsStatus s ∧ (st.threads c).pc.kind.seated = true ∧
    ackedSinceReset c st.sh.log = true

open Classical in
/-- When `barrier` finds under the mutex that it need not wait any more, every seat is held and has
acknowledged; and while it waits the count never exceeds the number of such seats. -/
def CountsSeats (st : State) : Prop :=
  (∀ r, st.main.pc = .barrierScan [] r → int16 (4 - st.sh.occupied) ≤ 0 → ∀ s, Acknowledged st s) ∧
  (st.main.pc.counting = true →
    st.sh.occupied ≤ (Finset.univ.filter fun s => Acknowledged st s).card)

section Runs

variable {timeout : ℤ} {deals : List Deal} {st : State}

lemma counted (h : RunsTo DeparturesCounted timeout deals st) : Counted st.sh st.main st.view := by
  refine RunsTo.keeps (J := fun _ _ _ => True) (fun _ _ => trivial) ?_
    (fun st _ _ _ _ hi hok hm => hi.main hm hok) (fun _ _ _ _ _ _ hi hk _ => hi.accept hk)
    (fun _ _ _ _ _ _ hi hok hm => hi.thread rfl hm hok) h
  exact ⟨fun _ h => (nomatch h), fun _ h => (nomatch h), fun _ _ _ h => (nomatch h),
    fun h => (nomatch h)⟩

lemma acknowledged_of_ackedBy {s : Seat} (h : Seated st.sh st.view)
    (ha : AckedBy st.sh st.view s) : Acknowledged st s := by
  obtain ⟨c, hk, rfl, ha⟩ := ha
  have hk' := Kind.holds_of_seated hk
  obtain ⟨hfd, hne⟩ := h.status_of_holds hk'
  exact ⟨hne, c, h.between hk', rfl, hfd.symm, hk, ha⟩

open Classical in
/-- **The game does not go on with a seat missing**, in the runs in which every departure is
counted. -/
theorem barrier_counts_seats (h : RunsTo DeparturesCounted timeout deals st) : CountsSeats st := by
  have hseat := seated h
  have hcount := counted h
  constructor
  · intro r hpc hw s
    have hb := hcount.balanced (by simp [hpc, MainPc.counting])
    exact acknowledged_of_ackedBy hseat (hb.acked s (hb.due_eq_zero hw s))
  · intro hc
    have hb := hcount.balanced hc
    -- a seat that is not acknowledged owes something
    have hone : ∀ s, 1 ≤ due st.sh st.main.pc s + if Acknowledged st s then 1 else 0 := by
      intro s
      have := hb.due_nonneg s
      split_ifs with ha
      · omega
      · have : due st.sh st.main.pc s ≠ 0 := fun h0 =>
          ha (acknowledged_of_ackedBy hseat (hb.acked s h0))
        omega
    have hsum := Finset.sum_le_sum fun s (_ : s ∈ Finset.univ) => hone s
    rw [Finset.sum_add_distrib, Finset.sum_boole] at hsum
    have htotal := hb.total
    have hfour : ∑ _s : Seat, (1 : ℤ) = 4 := by decide
    omega

end Runs

/-- The state is the one in which `start_game` finds that it need not wait any more. -/
def State.startPasses (st : State) : Bool :=
  match st.main.pc with
  | .barrierScan [] .startGame => int16 (4 - st.sh.occupied) ≤ 0
  | _ => false

lemma State.startPasses_iff {st : State} : st.startPasses = true ↔
    st.main.pc = .barrierScan [] .startGame ∧ int16 (4 - st.sh.occupied) ≤ 0 := by
  unfold State.startPasses
  split <;> simp_all

/-- All four clients connect and answer, and `barrier` finds the count full. -/
theorem barrier_counts_seats_opening : ∃ st, RunsTo DeparturesCounted 5000 [] st ∧
    st.main.pc = .barrierScan [] .startGame ∧ ∀ s, Acknowledged st s := by
  obtain ⟨st, hr, hp⟩ := exists_run DeparturesCounted [] (opening.take 40) State.startPasses
    (by decide +kernel)
  obtain ⟨hpc, hw⟩ := State.startPasses_iff.mp hp
  exact ⟨st, hr, hpc, (barrier_counts_seats hr).1 _ hpc hw⟩

/-! ### A departure that is not counted -/

/-- `W` connects and leaves before it reads its `BARRIER_RESPONSE`, and `barrier` sends another. -/
def passingBy (c : ℕ) : List Act :=
  asks c .W ++ ticks c 3 ++ leaves c true 3 ++ [.main [.W]] ++ mains 3

/-- Three clients pass by on `W`; the fourth reads what was meant for all of them. -/
def fourTimesW : List Act :=
  mains 5 ++ passingBy 0 ++ passingBy 1 ++ passingBy 2 ++ asks 3 .W ++ ticks 3 3 ++
  hears 3 1 ++ hears 3 1 ++ hears 3 1 ++ hears 3 2 ++ [.main [.W]] ++ mains 1

/-- **`barrier` passes with one seat taken.** -/
theorem barrier_miscounts_seats : ∃ st, Reachable 5000 [] st ∧ ¬CountsSeats st := by
  obtain ⟨st, hr, hp⟩ := exists_run (fun _ _ => True) [] fourTimesW
    (fun st => st.startPasses && decide (st.sh.seatsStatus .N = -1)) (by decide +kernel)
  simp only [Bool.and_eq_true, decide_eq_true_eq] at hp
  obtain ⟨hpc, hw⟩ := State.startPasses_iff.mp hp.1
  exact ⟨st, hr, fun h => (h.1 _ hpc hw .N).1 hp.2⟩

end Kierki.Serwer
