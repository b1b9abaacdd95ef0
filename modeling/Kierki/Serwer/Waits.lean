import Kierki.CmdArgsParsers
import Kierki.Serwer.MainMoves

/-!
# How long a player is waited for

`client_poll` gives `poll` the time `timeout_copy` when the player must move. The time starts as the
configured timeout, goes down by what passed between two readings of the clock, and is set anew when a
request is sent again or a card was judged.

Two conversions to `int32_t` are not guarded: the constructor multiplies the argument by 1000, and the
time that passed is computed in 64 bits and stored in 32. Where both fit, the time stays between 0 and
the configured one in every run (`waits_bounded`).
-/

namespace Kierki.Serwer

open Lib.Lts CmdArgsParsers

/-! ### The clock -/

/-- `struct timeval`. -/
structure Timeval where
  tvSec : ℤ
  tvUsec : ℤ
  usec_nonneg : 0 ≤ tvUsec
  usec_lt : tvUsec < 1000000

/-- The clock shows the second reading no earlier than the first. -/
instance : LE Timeval :=
  ⟨fun start stop =>
    start.tvSec < stop.tvSec ∨ start.tvSec = stop.tvSec ∧ start.tvUsec ≤ stop.tvUsec⟩

/-- The milliseconds between two readings, as the source computes them in 64 bits. The division
rounds towards 0. -/
def elapsedMs (start stop : Timeval) : ℤ :=
  (stop.tvSec - start.tvSec) * 1000 + (stop.tvUsec - start.tvUsec).tdiv 1000

/-- `passed_ms`, an `int32_t`. -/
def passedMs (start stop : Timeval) : ℤ := int32 (elapsedMs start stop)

/-- The field `timeout` the constructor sets. -/
def storedTimeout (timeout : ℤ) : ℤ := int32 (timeout * 1000)

lemma elapsedMs_nonneg {start stop : Timeval} (h : start ≤ stop) : 0 ≤ elapsedMs start stop := by
  have h₁ := start.usec_nonneg
  have h₂ := start.usec_lt
  have h₃ := stop.usec_nonneg
  have h₄ := stop.usec_lt
  unfold elapsedMs
  rw [Int.tdiv_eq_ediv, show Int.sign 1000 = 1 from rfl]
  rcases h with h | ⟨h, hu⟩
  · split_ifs <;> omega
  · rw [if_pos (.inl (by omega))]
    omega

lemma exists_elapsedMs {n : ℤ} (h : 0 ≤ n) :
    ∃ start stop : Timeval, start ≤ stop ∧ elapsedMs start stop = n := by
  refine ⟨⟨0, 0, by decide, by decide⟩, ⟨n / 1000, n % 1000 * 1000, by omega, by omega⟩, ?_, ?_⟩
  · by_cases hn : n / 1000 = 0
    · refine .inr ⟨hn.symm, ?_⟩
      simp only
      omega
    · exact .inl (by simp only; omega)
  · unfold elapsedMs
    simp only
    rw [Int.sub_zero, Int.sub_zero, Int.mul_tdiv_cancel _ (by decide)]
    omega

/-- **The argument is stored as its milliseconds** exactly when these fit. -/
lemma storedTimeout_eq_iff {timeout : ℤ} (h₀ : 0 ≤ timeout) (h₁ : timeout < 2147483648) :
    storedTimeout timeout = 1000 * timeout ↔ timeout ≤ 2147483 := by
  unfold storedTimeout int32
  omega

/-! ### Runs with a clock -/

/-- The time a step takes off is the one between two readings of a clock that does not go back, and
the two readings are as `fits` says. -/
def Timed (fits : Timeval → Timeval → Prop) (st : State) : Act → Prop
  | .thread c (.ready _ _ ms) => (st.threads c).bWasDestinedToPlay = true →
      ∃ start stop, start ≤ stop ∧ fits start stop ∧ ms = passedMs start stop
  | _ => True

/-- The clock does not go back. -/
abbrev Forward : State → Act → Prop := Timed fun _ _ => True

/-- The clock does not go back, and the time that passes fits into an `int32_t`. -/
abbrev Clocked : State → Act → Prop := Timed fun start stop => elapsedMs start stop < 2147483648

lemma exists_forward_iff {ms : ℤ} : (∃ start stop, start ≤ stop ∧ True ∧ ms = passedMs start stop) ↔
    -2147483648 ≤ ms ∧ ms < 2147483648 := by
  constructor
  · rintro ⟨start, stop, -, -, rfl⟩
    exact int32_range _
  · rintro ⟨h₁, h₂⟩
    obtain ⟨start, stop, hle, he⟩ := exists_elapsedMs (n := ms % 4294967296) (by omega)
    refine ⟨start, stop, hle, trivial, ?_⟩
    rw [passedMs, he]
    unfold int32
    omega

lemma exists_clocked_iff {ms : ℤ} :
    (∃ start stop, start ≤ stop ∧ elapsedMs start stop < 2147483648 ∧ ms = passedMs start stop) ↔
      0 ≤ ms ∧ ms < 2147483648 := by
  constructor
  · rintro ⟨start, stop, hle, hfit, rfl⟩
    have h₀ := elapsedMs_nonneg hle
    rw [passedMs, int32_of_range (by omega) hfit]
    exact ⟨h₀, hfit⟩
  · rintro ⟨h₁, h₂⟩
    obtain ⟨start, stop, hle, he⟩ := exists_elapsedMs h₁
    refine ⟨start, stop, hle, by omega, ?_⟩
    rw [passedMs, he, int32_of_range (by omega) h₂]

instance (st : State) : (a : Act) → Decidable (Forward st a)
  | .thread _ (.ready _ _ _) =>
    decidable_of_iff (_ → _) (imp_congr_right fun _ => exists_forward_iff.symm)
  | .thread _ .tick | .thread _ .fail | .thread _ (.line _) | .thread _ .eof | .thread _ .expire
  | .main _ | .accept _ => inferInstanceAs (Decidable True)

instance (st : State) : (a : Act) → Decidable (Clocked st a)
  | .thread _ (.ready _ _ _) =>
    decidable_of_iff (_ → _) (imp_congr_right fun _ => exists_clocked_iff.symm)
  | .thread _ .tick | .thread _ .fail | .thread _ (.line _) | .thread _ .eof | .thread _ .expire
  | .main _ | .accept _ => inferInstanceAs (Decidable True)

/-! ### The time left -/

/-- A time for `poll` that is finite and no longer than the configured one, and not 0 unless that
is. -/
structure Within (timeout timeoutCopy : ℤ) : Prop where
  nonneg : 0 ≤ timeoutCopy
  le : timeoutCopy ≤ timeout
  pos : 0 < timeout → 0 < timeoutCopy

/-- Whenever `poll` is called for a player who must move, it is given such a time. -/
def WaitsBounded (st : State) : Prop :=
  ∀ c, (st.threads c).pc = .poll → (st.threads c).bWasDestinedToPlay = true →
    Within st.sh.timeout (st.threads c).timeoutCopy

/-- The thread is in `client_poll`, and not where the time was found to be over and is set anew. -/
def Pc.hasTime : Pc → Bool
  | again _ => false
  | pc => pc.kind.polls

section Steps

variable {sh sh' : Shared} {c : ℕ} {t t' : Thread} {o : Outcome}

lemma Within.full {timeout : ℤ} (h : 0 ≤ timeout) : Within timeout timeout := ⟨h, le_rfl, id⟩

/-- **What a step does to the time left**: it is the configured one again, or as before, or the step
is a `poll` that returned. -/
lemma ThreadMove.time_cases (hm : ThreadMove sh c t o sh' t') (h : t'.pc.hasTime = true) :
    t'.timeoutCopy = sh.timeout ∨ (t.pc.hasTime = true ∧ t'.timeoutCopy = t.timeoutCopy) ∨
      (t.pc = .poll ∧ t.bWasDestinedToPlay = true ∧ ∃ pipe ms, o = .ready false pipe ms) := by
  cases hm with
  | join | again | wrong | accept => exact .inl rfl
  | waited pc' pipe ms hpc hd => exact .inr (.inr ⟨hpc, hd, pipe, ms, rfl⟩)
  | take pc' hpc hs hpc' => rcases hpc' with ⟨rfl, -⟩ | ⟨rfl, -⟩ <;> cases h
  | sent l p hpc =>
    cases p with
    | busy | replay | joinTrick => cases h
    | _ => exact .inr (.inl ⟨by rw [hpc]; rfl, rfl⟩)
  | notSent l p => cases p <;> cases h
  | byte b rest hpc =>
    cases b with
    | disconnected => cases h
    | _ => exact .inr (.inl ⟨by rw [hpc]; rfl, rfl⟩)
  | close b => cases b <;> cases h
  | drained after hpc =>
    rcases hpc with ⟨hpc, rfl⟩ | ⟨hpc, rfl⟩ <;> exact .inr (.inl ⟨by rw [hpc]; rfl, rfl⟩)
  | popped k m q hpc =>
    rcases hpc with ⟨hpc, rfl⟩ | ⟨hpc, rfl⟩ <;> exact .inr (.inl ⟨by rw [hpc]; rfl, rfl⟩)
  | top hpc | expired _ hpc | readable _ _ hpc | heard _ _ hpc | queued _ _ hpc | direct _ _ hpc
  | skip hpc | early _ _ hpc | played _ hpc | woke hpc =>
    exact .inr (.inl ⟨by rw [hpc]; rfl, rfl⟩)
  | _ => cases h

/-- **A `poll` that returned with a byte of the server**: what passed is taken off, and the time is
over when nothing is left. -/
lemma threadStep_waited {pipe : Bool} {ms : ℤ} (hpc : t.pc = .poll)
    (hd : t.bWasDestinedToPlay = true)
    (h : threadStep sh c t (.ready false pipe ms) = some (sh', t')) :
    t'.timeoutCopy = int32 (t.timeoutCopy - ms) ∧
      (t'.pc.hasTime = true → 0 < int32 (t.timeoutCopy - ms)) := by
  simp only [threadStep, hpc, Option.map_eq_some_iff, Prod.mk.injEq, Thread.pollStep, hd,
    Bool.false_eq_true, if_false, if_true] at h
  obtain ⟨t'', h, -, rfl⟩ := h
  split_ifs at h with hr hms
  · cases h
    exact ⟨rfl, fun h => by cases h⟩
  · cases h
    exact ⟨rfl, fun _ => not_le.mp hms⟩

lemma ThreadMove.timeout_eq (hm : ThreadMove sh c t o sh' t') : sh'.timeout = sh.timeout := by
  cases hm with
  | notSent l p => cases p <;> rfl
  | byte b => cases b <;> rfl
  | close b => cases b <;> rfl
  | _ => rfl

lemma MainMove.timeout_eq {m m' : Main} (hm : MainMove sh m sh' m') : sh'.timeout = sh.timeout := by
  cases hm <;> rfl

end Steps

/-! ### All runs -/

/-- The time left of every thread is in bounds, and the configured one does not change. -/
structure Timely (timeout : ℤ) (st : State) : Prop where
  timeout_eq : st.sh.timeout = timeout
  within : ∀ c, (st.threads c).pc.hasTime = true → Within timeout (st.threads c).timeoutCopy

section Runs

variable {timeout : ℤ} {st st' : State}

/-- **One step keeps the times in bounds**, whatever the clients and the clock do. -/
lemma Timely.step {a : Act} (ht : 0 ≤ timeout) (ht' : timeout < 2147483648) (h : Timely timeout st)
    (hok : Clocked st a) (hs : Kierki.Serwer.step st a = some st') : Timely timeout st' := by
  cases a with
  | main ready =>
    obtain ⟨hm, hthreads⟩ := step_main hs
    exact ⟨(mainMove_of_mainStep hm).timeout_eq.trans h.timeout_eq, hthreads ▸ h.within⟩
  | accept fd =>
    obtain ⟨hsh, -, hthreads⟩ := step_accept hs
    refine ⟨hsh ▸ h.timeout_eq, fun c => ?_⟩
    rw [hthreads]
    by_cases hc : c = st.threadId
    · subst hc
      rw [Function.update_self]
      exact fun h => (nomatch h)
    · rw [Function.update_of_ne hc]
      exact h.within c
  | thread c o =>
    obtain ⟨hs, -, hothers⟩ := step_thread hs
    have hm := threadMove_of_threadStep hs
    refine ⟨hm.timeout_eq.trans h.timeout_eq, fun c' htime => ?_⟩
    by_cases hc : c' = c
    · subst hc
      obtain hfull | ⟨hbefore, hsame⟩ | ⟨hpc, hd, pipe, ms, rfl⟩ := hm.time_cases htime
      · rw [hfull, h.timeout_eq]
        exact .full ht
      · rw [hsame]
        exact h.within _ hbefore
      · -- what passed is not negative, so the difference fits and is no more than before
        obtain ⟨hms₀, hms₁⟩ := exists_clocked_iff.mp (hok hd)
        obtain ⟨hcopy, hleft⟩ := threadStep_waited hpc hd hs
        have hw := h.within c' (by rw [hpc]; rfl)
        have hpos := hleft htime
        have h₀ := hw.nonneg
        have h₁ := hw.le
        rw [int32_of_range (by omega) (by omega)] at hcopy hpos
        rw [hcopy]
        exact ⟨by omega, by omega, fun _ => hpos⟩
    · rw [hothers c' hc] at htime ⊢
      exact h.within c' htime

lemma timely_init (timeout : ℤ) (deals : List Deal) : Timely timeout (init timeout deals) :=
  ⟨rfl, fun _ h => (nomatch h)⟩

lemma timely {deals : List Deal} (ht : 0 ≤ timeout) (ht' : timeout < 2147483648)
    (h : RunsTo Clocked timeout deals st) : Timely timeout st :=
  h.invariant (I := Timely timeout) (timely_init _ _)
    fun _ _ _ hi hok hs => hi.step ht ht' hok hs

/-- **The time of every wait.** The argument is stored as its milliseconds exactly when it is at most
2147483; then, in every run in which the time between two readings of the clock fits into an
`int32_t`, a player who must move is given a finite time no longer than the configured one. -/
theorem waits_bounded {parse : List Text → Except Text VariablesMap} {opens : Text → Bool}
    {args : List Text} {a : ServerArgs} (h : parseServerArgs parse opens args = .ok a) :
    (storedTimeout a.timeout = 1000 * a.timeout ↔ a.timeout ≤ 2147483) ∧
      (a.timeout ≤ 2147483 → ∀ deals st, RunsTo Clocked (storedTimeout a.timeout) deals st →
        st.sh.timeout = 1000 * a.timeout ∧ WaitsBounded st) := by
  obtain ⟨-, h₀, h₁⟩ := parseServerArgs_range h
  have hiff := storedTimeout_eq_iff h₀ h₁
  refine ⟨hiff, fun hle deals st hr => ?_⟩
  have hstored := hiff.mpr hle
  have ht := timely (by omega) (by omega) hr
  refine ⟨ht.timeout_eq.trans hstored, fun c hpc _ => ?_⟩
  rw [ht.timeout_eq]
  exact ht.within c (by rw [hpc]; rfl)

/-! ### Runs written down -/

/-- `N` is asked for the first card of the deal. -/
def requested : List Act := opening ++ mains 8 ++ hears 0 3 ++ hears 0 3 ++ hears 0 3

/-- The library's options for `-f g -t n`. -/
def givesTimeout (n : Int32) : List Text → Except Text VariablesMap :=
  fun _ => .ok { p := [], f := [['g']], t := [n] }

def timeoutArgs (n : Text) : List Text := [['-', 'f'], ['g'], ['-', 't'], n]

/-- With `-t 5` the player who leads is given five seconds. -/
theorem waits_bounded_five : ∃ a st c, parseServerArgs (givesTimeout 5) (fun _ => true)
    (timeoutArgs ['5']) = .ok a ∧ RunsTo Clocked (storedTimeout a.timeout) [suitsDeal] st ∧
    st.sh.timeout = 1000 * a.timeout ∧ WaitsBounded st ∧
    (st.threads c).pc = .poll ∧ (st.threads c).bWasDestinedToPlay = true ∧
    (st.threads c).timeoutCopy = 5000 := by
  obtain ⟨st, hr, hp⟩ := exists_run Clocked [suitsDeal] requested
    (fun st => decide ((st.threads 0).pc = .poll ∧ (st.threads 0).bWasDestinedToPlay = true ∧
      (st.threads 0).timeoutCopy = 5000)) (by decide +kernel)
  simp only [decide_eq_true_eq] at hp
  have ha : parseServerArgs (givesTimeout 5) (fun _ => true) (timeoutArgs ['5']) =
      .ok ⟨0, ['g'], 5⟩ := rfl
  have hw := (waits_bounded ha).2 (by decide) [suitsDeal] st hr
  exact ⟨_, st, 0, ha, hr, hw.1, hw.2, hp⟩

/-- While `N` is waited for, `E` leaves, and the clock jumps by 4294966296 milliseconds before `N`
hears of the barrier that follows. -/
def clockJump : List Act :=
  requested ++ leaves 1 true 3 ++ [.main [.E]] ++ mains 3 ++ [.thread 0 (.ready false true (-1000))] ++
    ticks 0 2

/-- **The two conversions.** With `-t 2147483647`, which is accepted, the stored timeout is -1000: a
whole number of seconds, so that `setsockopt` takes it too when the seat is reserved, and `poll` waits
for ever. And with `-t 5`, a clock that jumps ahead gives the player six seconds. -/
theorem waits_unbounded :
    (∃ a, parseServerArgs (givesTimeout 2147483647) (fun _ => true)
        (timeoutArgs ['2', '1', '4', '7', '4', '8', '3', '6', '4', '7']) = .ok a ∧
      a.timeout = 2147483647 ∧ storedTimeout a.timeout = -1000 ∧
      ∃ st, RunsTo Forward (storedTimeout a.timeout) [suitsDeal] st ∧ ¬WaitsBounded st) ∧
    ∃ st, RunsTo Forward 5000 [suitsDeal] st ∧ ¬WaitsBounded st := by
  constructor
  · have hexec : (exec step Forward (init (storedTimeout 2147483647) [suitsDeal]) requested).any
        (fun st => decide ((st.threads 0).pc = .poll ∧ (st.threads 0).bWasDestinedToPlay = true ∧
          (st.threads 0).timeoutCopy < 0)) = true := by decide +kernel
    obtain ⟨st, hr, hp⟩ := Reach.exists_of_exec hexec
    simp only [decide_eq_true_eq] at hp
    obtain ⟨hpc, hd, hneg⟩ := hp
    refine ⟨⟨0, ['g'], 2147483647⟩, rfl, rfl, by decide, st, hr, fun h => ?_⟩
    have := (h 0 hpc hd).nonneg
    omega
  · obtain ⟨st, hr, hp⟩ := exists_run Forward [suitsDeal] clockJump
      (fun st => decide ((st.threads 0).pc = .poll ∧ (st.threads 0).bWasDestinedToPlay = true ∧
        st.sh.timeout = 5000 ∧ (st.threads 0).timeoutCopy = 6000)) (by decide +kernel)
    simp only [decide_eq_true_eq] at hp
    obtain ⟨hpc, hd, ht, hcopy⟩ := hp
    refine ⟨st, hr, fun h => ?_⟩
    have := (h 0 hpc hd).le
    omega

end Runs

end Kierki.Serwer
