import Kierki.Serwer.Turn

/-!
# The turn is not lost

Once `CARD_PLAY` is written, the turn of a seat is in one of three places until its card is
accepted: the byte in the pipe of the seat, `b_was_destined_to_play` of the thread that read it, or
`player_turn`, which the next thread on the seat tests in `reserve_spot`. The test is made only
when the deal gave cards to `N`, which the deals of a game file do.

Nothing is asked of the other seats' threads but that none of their cards is accepted, and nothing
of the threads of the seat: this is the part of the turn that holds in every run.
-/

namespace Kierki.Serwer

open Lib.Lts

/-- A thread that should have the permission when the turn of its seat is open and no byte for it is
to come. One that has just played is counted in: there is none then. -/
def Kind.needsTurn : Kind → Bool
  | joining | play | parsing | card | wake => true
  | _ => false

/-- **The invariant of the turn that is not lost.** -/
structure KeptInv (sh : Shared) (pc : MainPc) (v : ℕ → View) : Prop where
  turn : ∀ s, Open sh pc s → sh.playerTurn = some s
  kept : ∀ s, Open sh pc s → ¬Ahead sh pc s → ∀ c, (v c).seat = s → (v c).kind.needsTurn = true →
    (v c).perm = true

/-- The barrier of `start_game`. -/
def Caller.beforeDeal : Caller → Bool
  | startGame => true
  | _ => false

/-- No deal has been loaded, or the next one is about to be. -/
def MainPc.beforeDeal : MainPc → Bool
  | barrierReset r | barrierAsk _ r | barrierPoll r | barrierScan _ r => r.beforeDeal
  | barrierResend _ _ r | barrierRelease _ r => r.beforeDeal
  | nextDeal => true
  | closeServer _ w | closeSeats _ _ w => w.isNone
  | _ => false

lemma Caller.beforeDeal_of_wait {r : Caller} {s : Seat} (h : r.wait = some s) :
    r.beforeDeal = false := by
  cases r <;> simp_all [Caller.wait, Caller.beforeDeal]

lemma MainPc.beforeDeal_of_wait {pc : MainPc} {s : Seat} (h : pc.wait = some s) :
    pc.beforeDeal = false := by
  revert h
  cases pc with
  | barrierReset r | barrierAsk _ r | barrierPoll r | barrierScan _ r | barrierResend _ _ r
  | barrierRelease _ r => exact Caller.beforeDeal_of_wait
  | closeServer _ w | closeSeats _ _ w => rintro rfl; rfl
  | _ => simp [MainPc.wait, MainPc.beforeDeal]

/-- The deals not yet read give cards to `N`, and so does the one that is played. -/
structure Dealt (sh : Shared) (m : Main) : Prop where
  toCome : ∀ d ∈ m.deals, Regex.extractCards (d.rawCards .N) ≠ []
  now : m.pc.beforeDeal = false → sh.deal .N ≠ []

section Thread

variable {sh sh' : Shared} {pc : MainPc} {v : ℕ → View} {c : ℕ} {t : Thread} {o : Outcome}
  {v' : View}

/-- What a move does to the turn and to the `CARD_PLAY` bytes that were written for it. -/
lemma Move.announced (hm : Move sh c t o sh' v') : acceptedSinceTurn sh'.log = true ∨
    sh'.playerTurn = sh.playerTurn ∧ acceptedSinceTurn sh'.log = acceptedSinceTurn sh.log ∧
    ((∀ s, .cardPlay ∈ sh'.serverWritePipes s ↔ .cardPlay ∈ sh.serverWritePipes s) ∨
      t.view.kind = .play ∧ v' = { t.view with kind := .asked } ∧
        ∀ s, s ≠ t.seat → sh'.serverWritePipes s = sh.serverWritePipes s) := by
  have hread : ∀ {b : Byte} {rest}, sh.serverWritePipes t.seat = b :: rest → b ≠ .cardPlay → ∀ s,
      .cardPlay ∈ (sh.heard t.seat rest).serverWritePipes s ↔ .cardPlay ∈ sh.serverWritePipes s :=
    fun hp hb s => mem_iff_of_count (Shared.count_heard hp hb)
  cases hm with
  | accept => exact .inl rfl
  | ask rest hk hp =>
    exact .inr ⟨rfl, rfl, .inr ⟨hk, rfl, fun s hs => Function.update_of_ne hs _ _⟩⟩
  | inform b rest hk hp hb =>
    refine .inr ⟨rfl, rfl, .inl (hread hp ?_)⟩
    rintro rfl
    simp at hb
  | dismissed rest hk hp | ack rest hk hp | ackLast rest hk hp | unbar rest _ hk hp =>
    exact .inr ⟨rfl, rfl, .inl (hread hp (by decide))⟩
  | _ => exact .inr ⟨rfl, rfl, .inl fun _ => Iff.rfl⟩

/-- How a move leads to a thread that needs the turn: from one that needed it already, or by the
test of `player_turn`. -/
lemma Move.needsTurn (hm : Move sh c t o sh' v') (hdeal : sh.deal .N ≠ [])
    (ha : acceptedSinceTurn sh'.log = false) (hn : v'.kind.needsTurn = true) :
    v'.seat = t.seat ∧ (t.view.kind.needsTurn = true ∧ (t.view.perm = true → v'.perm = true) ∨
      (sh.playerTurn = some t.seat → v'.perm = true) ∨ t.view.kind = .asked ∧ v'.perm = true) := by
  cases hm with
  | test => exact ⟨rfl, .inr (.inl fun ht => by simp [View.perm, ht])⟩
  | asked hk => exact ⟨rfl, .inr (.inr ⟨hk, rfl⟩)⟩
  | accept => simp [acceptedSinceTurn] at ha
  | played _ hk => exact ⟨rfl, .inl ⟨by rw [hk]; rfl, fun h => by simp [View.perm, hk] at h⟩⟩
  | take _ _ _ _ hk' =>
    obtain rfl | ⟨rfl, hd⟩ := hk'
    · cases hn
    · exact absurd hd hdeal
  | quiet | top | inform => exact ⟨rfl, .inl ⟨hn, fun h => h⟩⟩
  | ack _ hk' | ackLast _ hk' | join _ hk' | topDrain hk' | parse hk' | parsed hk' | unbar _ _ hk'
  | wake hk' => exact ⟨rfl, .inl ⟨by rw [hk']; rfl, fun h => by simpa [View.perm, hk'] using h⟩⟩
  | _ => simp_all [Kind.needsTurn]

lemma Kind.holds_of_needsTurn {k : Kind} (h : k.needsTurn = true) : k.holds = true := by
  revert h
  cases k <;> simp [Kind.needsTurn, Kind.holds]

/-- **A seat thread keeps the invariant.** -/
theorem KeptInv.thread (h : KeptInv sh pc v) (hs : Seated sh v)
    (hdeal : pc.beforeDeal = false → sh.deal .N ≠ []) (hv : v c = t.view)
    (hm : Move sh c t o sh' v') : KeptInv sh' pc (Function.update v c v') := by
  obtain ha | ⟨ht, ha, hpipe⟩ := hm.announced
  · have hclosed : ∀ s, ¬Open sh' pc s := fun s ho => by simpa [ha] using ho.2
    exact ⟨fun s ho => absurd ho (hclosed s), fun s ho => absurd ho (hclosed s)⟩
  have hopen : ∀ s, Open sh' pc s ↔ Open sh pc s := fun s => by simp only [Open, ha]
  refine ⟨fun s ho => ht.trans (h.turn s ((hopen s).mp ho)), fun s ho hno c' hseat hk => ?_⟩
  have ho' := (hopen s).mp ho
  by_cases hcc : c' = c
  · subst hcc
    rw [Function.update_self] at hseat hk ⊢
    obtain ⟨hst, ⟨hk', hp⟩ | hp | ⟨-, hp⟩⟩ :=
      hm.needsTurn (hdeal (MainPc.beforeDeal_of_wait ho.1)) ho.2 hk
    · obtain hmem | ⟨-, rfl, -⟩ := hpipe
      · have := h.kept s ho' (by simpa only [Ahead, hmem] using hno) c'
          (by rw [hv, ← hseat, hst]; rfl) (by rwa [hv])
        exact hp (by rwa [hv] at this)
      · cases hk
    · exact hp (by rw [← hst, hseat]; exact h.turn s ho')
    · exact hp
  · rw [Function.update_of_ne hcc] at hseat hk ⊢
    obtain hmem | ⟨hplay, -, hne⟩ := hpipe
    · exact h.kept s ho' (by simpa only [Ahead, hmem] using hno) c' hseat hk
    · -- the thread that read the byte is the only one on its seat
      by_cases hst : s = t.seat
      · refine absurd (hs.holder_unique (Kind.holds_of_needsTurn hk) ?_ ?_) hcc
        · rw [hv, hplay]
          rfl
        · rw [hseat, hv, hst]
          rfl
      · exact h.kept s ho' (by simpa only [Ahead, hne s hst] using hno) c' hseat hk

end Thread

section Main

variable {sh sh' : Shared} {m m' : Main} {v : ℕ → View}

/-- **The main thread keeps the invariant.** -/
theorem KeptInv.main (h : KeptInv sh m.pc v) (hm : MainMove sh m sh' m') : KeptInv sh' m'.pc v := by
  obtain hs | ⟨s₀, rest, -, rfl, hpc⟩ | ⟨s₀, rest, hpc, rfl, hpc'⟩ |
    ⟨s₀, rest, got, ready, left, hpc, -, rfl, hpc'⟩ | ⟨-, rfl, hw, -, -⟩ := hm.turn
  · exact ⟨fun s ho => hs.turn.trans (h.turn s ((hs.open_iff s).mp ho)), fun s ho hno =>
      h.kept s ((hs.open_iff s).mp ho) fun ha => hno ((hs.ahead_iff s).mpr ha)⟩
  · rw [hpc]
    refine ⟨fun s ho => ?_, fun s ho hno => absurd (.inr ?_) hno⟩
    all_goals
      obtain rfl : s₀ = s := by simpa [MainPc.wait] using ho.1
      rfl
  · rw [hpc] at h
    rw [hpc']
    refine ⟨fun s ho => h.turn s ho, fun s ho hno => absurd (.inl ?_) hno⟩
    obtain rfl : s₀ = s := by simpa [MainPc.wait] using ho.1
    simp
  · rw [hpc] at h
    rw [hpc']
    exact ⟨fun s ho => h.turn s ho, fun s ho hno => h.kept s ho hno⟩
  · have hclosed : ∀ s, ¬Open sh' m'.pc s := fun s ho => by simpa [hw] using ho.1
    exact ⟨fun s ho => absurd ho (hclosed s), fun s ho => absurd ho (hclosed s)⟩

lemma Dealt.main (h : Dealt sh m) (hm : MainMove sh m sh' m') : Dealt sh' m' := by
  cases hm with
  | load d rest hpc hd =>
    exact ⟨fun d' hd' => h.toCome d' (by rw [hd]; exact .tail _ hd'),
      fun _ => h.toCome d (by rw [hd]; exact .head _)⟩
  | releaseLast s r hpc =>
    have hdeals : (m.afterBarrier r).deals = m.deals := by cases r <;> rfl
    refine ⟨hdeals ▸ h.toCome, fun hb => h.now ?_⟩
    rw [hpc]
    cases r with
    | startGame => cases hb
    | _ => rfl
  | announce b _ _ hpc | announceLast b _ hpc =>
    refine ⟨h.toCome, fun hb => h.now ?_⟩
    rw [hpc]
    rfl
  | badBarrier _ _ r _ _ hpc =>
    refine ⟨h.toCome, fun hb => h.now ?_⟩
    cases r <;> simp_all [MainPc.beforeDeal, Caller.beforeDeal, Caller.wait]
  | _ =>
    refine ⟨h.toCome, fun hb => h.now ?_⟩
    simp_all [MainPc.beforeDeal]

end Main

/-! ### The runs -/

/-- `run_deal` is about to set `player_turn` to the seat. -/
def MainPc.settingTurn : MainPc → Option Seat
  | turnSet (s :: _) => some s
  | _ => none

/-- A card of the seat was accepted since `run_deal` last set `player_turn`. -/
def playedSinceTurn (s : Seat) : List Event → Bool
  | [] => false
  | .turn _ :: _ => false
  | .accepted _ s' _ :: l => s' == s || playedSinceTurn s l
  | _ :: l => playedSinceTurn s l

/-- No thread of another seat is in `client_poll` with `b_was_destined_to_play` set. -/
def NoOtherDestined (s : Seat) (st : State) (_ : Act) : Prop :=
  ∀ c < st.threadId, (st.threads c).pc.kind.polls = true →
    (st.threads c).bWasDestinedToPlay = true → (st.threads c).seat = s

instance (s : Seat) (st : State) (a : Act) : Decidable (NoOtherDestined s st a) :=
  inferInstanceAs (Decidable (∀ c < st.threadId, _ → _ → _))

/-- While `run_deal` waits for the card of the seat, its `CARD_PLAY` written and no card of the seat
accepted since `player_turn` was set to it, the turn is not lost: a thread in `client_poll` has it,
or is sending the `TRICK` line before it sets the flag, if the byte is not still to be read; and a
thread still to come finds it in `player_turn`. -/
def KeepsTurn (s : Seat) (st : State) : Prop :=
  st.main.pc.wait = some s → st.main.pc.announcing = none → playedSinceTurn s st.sh.log = false →
    (∀ c, (st.threads c).seat = s → (st.threads c).pc.kind.polls = true →
      .cardPlay ∈ st.sh.serverWritePipes s ∨ (st.threads c).bWasDestinedToPlay = true ∨
        (st.threads c).pc.kind = .asked) ∧
    ((∀ c, (st.threads c).seat = s → (st.threads c).pc.kind.polls = false) →
      .cardPlay ∈ st.sh.serverWritePipes s ∨ st.sh.playerTurn = some s) ∧
    ∀ c, (st.threads c).seat = s → (st.threads c).pc.kind = .joining →
      .cardPlay ∈ st.sh.serverWritePipes s ∨ (st.threads c).bIsMyTurn = true

section Runs

variable {ok : State → Act → Prop} {timeout : ℤ} {deals : List Deal} {st₀ st : State} {s : Seat}

lemma dealt (hdeals : ∀ d ∈ deals, Regex.extractCards (d.rawCards .N) ≠ [])
    (h : RunsTo ok timeout deals st) : Dealt st.sh st.main := by
  refine RunsTo.keeps (I := fun sh m _ => Dealt sh m) (J := fun _ _ _ => True)
    (fun _ _ => trivial) ⟨hdeals, fun hb => (nomatch hb)⟩ (fun _ _ _ _ _ hi _ hm => hi.main hm)
    (fun _ _ _ _ _ _ hi _ _ => hi) (fun _ _ _ _ _ _ hi _ hm => ⟨hi.toCome, ?_⟩) h
  rw [hm.deal_eq]
  exact hi.now

lemma keptInv (hdeals : ∀ d ∈ deals, Regex.extractCards (d.rawCards .N) ≠ [])
    (h : RunsTo ok timeout deals st) : KeptInv st.sh st.main.pc st.view := by
  refine RunsTo.keeps (I := fun sh m v => KeptInv sh m.pc v)
    (J := fun sh m v => Seated sh v ∧ Dealt sh m) (fun _ hr => ⟨seated hr, dealt hdeals hr⟩)
    ⟨fun _ ho => (nomatch ho.1), fun _ ho => (nomatch ho.1)⟩ (fun _ _ _ _ _ hi _ hm => hi.main hm)
    (fun _ _ v c fd _ hi _ _ => ⟨hi.turn, fun s ho ha c' hs hk => ?_⟩)
    (fun _ _ _ _ _ hj hi _ hm => hi.thread hj.1 hj.2.now rfl hm) h
  by_cases hcc : c' = c
  · subst hcc
    simp [Kind.needsTurn] at hk
  · rw [Function.update_of_ne hcc] at hs hk ⊢
    exact hi.kept s ho ha c' hs hk

lemma MainMove.waits {sh sh' : Shared} {m m' : Main} (hm : MainMove sh m sh' m')
    (hw : m'.pc.wait = some s) : acceptedSinceTurn sh'.log = false ∨ m.pc.wait = some s ∧
      acceptedSinceTurn sh'.log = acceptedSinceTurn sh.log := by
  obtain hs | ⟨_, _, -, rfl, -⟩ | ⟨_, _, hpc, rfl, hpc'⟩ | ⟨_, _, _, _, _, hpc, -, rfl, hpc'⟩ |
    ⟨-, -, hw', -⟩ := hm.turn
  · exact .inr ⟨hs.wait ▸ hw, hs.accepted⟩
  · exact .inl rfl
  · rw [hpc'] at hw
    exact .inr ⟨by rw [hpc]; exact hw, rfl⟩
  · rw [hpc'] at hw
    exact .inr ⟨by rw [hpc]; exact hw, rfl⟩
  · rw [hw'] at hw
    cases hw

lemma MainMove.played {sh sh' : Shared} {m m' : Main} (hm : MainMove sh m sh' m') :
    acceptedSinceTurn sh'.log = false ∨ playedSinceTurn s sh'.log = playedSinceTurn s sh.log := by
  cases hm with
  | turnSet => exact .inl rfl
  | _ => exact .inr rfl

lemma accepts_own (h₀ : Reachable timeout deals st₀) (hset : st₀.main.pc.settingTurn = some s)
    (h : Reach step (NoOtherDestined s) st₀ st) (hw : st.main.pc.wait = some s)
    (hp : playedSinceTurn s st.sh.log = false) : acceptedSinceTurn st.sh.log = false := by
  refine Reach.invariant_with (J := State.Numbered) (I := fun st : State =>
    st.main.pc.wait = some s → playedSinceTurn s st.sh.log = false →
      acceptedSinceTurn st.sh.log = false)
    (fun st hr => numbered (h₀.trans (hr.mono fun _ _ _ => trivial))) ?_ ?_ h hw hp
  · intro hw
    revert hset hw
    cases st₀.main.pc <;> simp [MainPc.settingTurn, MainPc.wait]
  · intro st a st' hn hi hok hs hw hp
    obtain ⟨ready, rfl, hm, -⟩ | ⟨c, fd, rfl, -, -, hsh, hm, -⟩ | ⟨c, o, v, rfl, hm, hmain, -⟩ :=
      step_cases hs hn
    · obtain ha | ⟨hw', ha⟩ := hm.waits hw
      · exact ha
      · obtain ha' | hp' := hm.played (s := s)
        · exact ha'
        · exact ha.trans (hi hw' (hp' ▸ hp))
    · rw [hm] at hw
      rw [hsh] at hp ⊢
      exact hi hw hp
    · rw [hmain] at hw
      generalize st'.sh = sh' at hm hp ⊢
      cases hm with
      | accept card hk hd =>
        have hc : c < st.threadId := by
          by_contra hc
          rw [Thread.kind_eq (hn c (not_lt.mp hc))] at hk
          cases hk
        have hseat : (st.threads c).seat = s :=
          hok c hc (by rw [show (st.threads c).pc.kind = .parsing from hk]; rfl) hd
        simp [playedSinceTurn, hseat] at hp
      | _ => exact hi hw hp

/-- **The turn is not lost**, in every run from the point where `player_turn` is set. -/
theorem turn_kept (hdeals : ∀ d ∈ deals, Regex.extractCards (d.rawCards .N) ≠ [])
    (h₀ : Reachable timeout deals st₀) (hset : st₀.main.pc.settingTurn = some s)
    (h : Reach step (NoOtherDestined s) st₀ st) : KeepsTurn s st := by
  intro hw hann hp
  have hopen : Open st.sh st.main.pc s := ⟨hw, accepts_own h₀ hset h hw hp⟩
  have hi := keptInv hdeals (h₀.trans (h.mono fun _ _ _ => trivial))
  refine ⟨fun c hs hk => ?_, fun _ => .inr (hi.turn s hopen), fun c hs hk => ?_⟩
  all_goals
    refine or_iff_not_imp_left.mpr fun hno => ?_
    have hno : ¬Ahead st.sh st.main.pc s := fun ha => ha.elim hno (by simp [hann])
    have hkept := hi.kept s hopen hno c hs
  · change (st.view c).kind.polls = true at hk
    change (st.view c).destined = true ∨ (st.view c).kind = .asked
    cases hkind : (st.view c).kind with
    | asked => exact .inr rfl
    | play | parsing | card | wake =>
      have := hkept (by rw [hkind]; rfl)
      simp_all [View.perm]
    | _ => simp [hkind, Kind.polls] at hk
  · change (st.view c).kind = .joining at hk
    have := hkept (by rw [hk]; rfl)
    rwa [View.perm, hk] at this

end Runs

/-! ### The turn of `N` in the first trick -/

lemma exists_turn (deals : List Deal) (s : Seat) (as bs : List Act) (p : State → Bool)
    (h : (exec step (fun _ _ => True) (init 5000 deals) as).any (fun st₀ =>
      st₀.main.pc.settingTurn = some s && (exec step (NoOtherDestined s) st₀ bs).any p) = true) :
    ∃ st₀ st, Reachable 5000 deals st₀ ∧ st₀.main.pc.settingTurn = some s ∧
      Reach step (NoOtherDestined s) st₀ st ∧ p st = true := by
  obtain ⟨st₀, h₀, hp⟩ := Reach.exists_of_exec h
  simp only [Bool.and_eq_true, decide_eq_true_eq] at hp
  obtain ⟨st, h, hp'⟩ := Reach.exists_of_exec hp.2
  exact ⟨st₀, st, h₀, hp.1, h, hp'⟩

/-- `N` is asked for its card and reads the `CARD_PLAY` byte; the `TRICK` line is not yet sent. -/
def askedFirst : List Act := mains 2 ++ hears 0 3 ++ hears 0 3 ++ hears 0 0

/-- Its client gets the line and leaves, and another one comes. -/
def askedAndGone : List Act :=
  askedFirst ++ ticks 0 3 ++ leaves 0 false 1 ++ asks 4 .N ++ ticks 4 7

/-- The client that comes has the turn from `player_turn`. -/
theorem turn_kept_first : ∃ st₀ st, Reachable 5000 [suitsDeal] st₀ ∧
    Reach step (NoOtherDestined .N) st₀ st ∧ KeepsTurn .N st ∧ st.main.pc.wait = some .N ∧
    .cardPlay ∉ st.sh.serverWritePipes .N ∧ (st.threads 4).bWasDestinedToPlay = true := by
  obtain ⟨st₀, st, h₀, hset, h, hp⟩ := exists_turn [suitsDeal] .N (opening ++ mains 6) askedAndGone
    (fun st => decide (st.main.pc.wait = some .N ∧ .cardPlay ∉ st.sh.serverWritePipes .N ∧
      (st.threads 4).bWasDestinedToPlay = true)) (by decide +kernel)
  exact ⟨st₀, st, h₀, h, turn_kept (by decide +kernel) h₀ hset h, of_decide_eq_true hp⟩

/-! ### Where nothing carries the turn -/

/-- `run_deal` asked the seat for a card since it set `player_turn` to it, and no card of the seat
was accepted since. -/
def awaitsCard (s : Seat) : List Event → Bool
  | [] => false
  | .asked s' :: l => s' == s || awaitsCard s l
  | .accepted _ s' _ :: l => s' != s && awaitsCard s l
  | .turn s' :: l => s' != s && awaitsCard s l
  | _ :: l => awaitsCard s l

/-- Whenever `CARD_PLAY` is written and no card was accepted after it, the byte, the flag or
`player_turn` carries the turn. -/
def NeverLost (s : Seat) (st : State) : Prop :=
  awaitsCard s st.sh.log = true →
    (∀ c, (st.threads c).seat = s → (st.threads c).pc.kind.polls = true →
      .cardPlay ∈ st.sh.serverWritePipes s ∨ (st.threads c).bWasDestinedToPlay = true) ∧
    ((∀ c, (st.threads c).seat = s → (st.threads c).pc.kind.polls = false) →
      .cardPlay ∈ st.sh.serverWritePipes s ∨ st.sh.playerTurn = some s)

/-- The client of connection `c` is on `N`, in `client_poll`, and cannot play. -/
def State.waitsInVain (st : State) (c : ℕ) : Bool :=
  awaitsCard .N st.sh.log && decide (.cardPlay ∉ st.sh.serverWritePipes .N ∧
    (st.threads c).seat = .N ∧ (st.threads c).pc.kind.polls = true ∧
    (st.threads c).bWasDestinedToPlay = false)

lemma State.not_neverLost {st : State} {c : ℕ} (h : st.waitsInVain c = true) : ¬NeverLost .N st := by
  simp only [State.waitsInVain, Bool.and_eq_true, decide_eq_true_eq] at h
  obtain ⟨hl, hp, hs, hk, hd⟩ := h
  intro hn
  obtain hp' | hd' := (hn hl).1 c hs hk
  · exact hp hp'
  · simp [hd] at hd'

/-- A client finds `player_turn` set to `N` before `CARD_PLAY` is written and plays at once; it reads
the byte written for that card, and leaves, and another one comes. -/
def playedBefore : List Act :=
  mains 1 ++ asks 4 .N ++ ticks 4 8 ++
  sends 4 ['T', 'R', 'I', 'C', 'K', '1', '2', 'C', '\r', '\n'] true 4 ++ mains 1 ++
  hears 4 3 ++ hears 4 3 ++ hears 4 3 ++ leaves 4 false 1 ++ asks 5 .N ++ ticks 5 6

/-- A deal without a card for `N`. -/
def noCardsDeal : Deal :=
  { suitsDeal with rawCards := fun s => if s = .N then [] else suitsDeal.rawCards s }

/-- **The turn is not always in one of the three places**: not while the `TRICK` line of the byte is
sent, not when the card was accepted before the byte was written, and not for a client that comes
back in a deal without a card for `N`. -/
theorem turn_in_no_place :
    (∃ st₀ st, Reachable 5000 [suitsDeal] st₀ ∧ st₀.main.pc.settingTurn = some .N ∧
      Reach step (NoOtherDestined .N) st₀ st ∧ (st.threads 0).pc.kind = .asked ∧
      ¬NeverLost .N st) ∧
    (∃ st₀ st, Reachable 5000 [suitsDeal] st₀ ∧ st₀.main.pc.settingTurn = some .N ∧
      Reach step (NoOtherDestined .N) st₀ st ∧ playedSinceTurn .N st.sh.log = true ∧
      ¬NeverLost .N st) ∧
    ∃ st₀ st, Reachable 5000 [noCardsDeal] st₀ ∧ st₀.main.pc.settingTurn = some .N ∧
      Reach step (NoOtherDestined .N) st₀ st ∧ ¬NeverLost .N st := by
  refine ⟨?_, ?_, ?_⟩
  · obtain ⟨st₀, st, h₀, hset, h, hp⟩ := exists_turn [suitsDeal] .N (opening ++ mains 6) askedFirst
      (fun st => st.waitsInVain 0 && decide ((st.threads 0).pc.kind = .asked))
      (by decide +kernel)
    simp only [Bool.and_eq_true, decide_eq_true_eq] at hp
    exact ⟨st₀, st, h₀, hset, h, hp.2, State.not_neverLost hp.1⟩
  · obtain ⟨st₀, st, h₀, hset, h, hp⟩ := exists_turn [suitsDeal] .N (fourTimesW ++ mains 12) playedBefore
      (fun st => st.waitsInVain 5 && playedSinceTurn .N st.sh.log) (by decide +kernel)
    simp only [Bool.and_eq_true] at hp
    exact ⟨st₀, st, h₀, hset, h, hp.2, State.not_neverLost hp.1⟩
  · obtain ⟨st₀, st, h₀, hset, h, hp⟩ := exists_turn [noCardsDeal] .N (opening ++ mains 6)
      (askedFirst ++ ticks 0 3 ++ leaves 0 false 1 ++ asks 4 .N ++ ticks 4 3)
      (fun st => st.waitsInVain 4) (by decide +kernel)
    exact ⟨st₀, st, h₀, hset, h, State.not_neverLost hp⟩

end Kierki.Serwer
