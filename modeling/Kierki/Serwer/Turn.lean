import Kierki.Serwer.BarrierCount
import Kierki.Serwer.InFlight

/-!
# The turn

Who may play, and on whose word. `run_deal` opens the turn of a seat by setting `player_turn`, and
a card accepted on the seat closes it. A thread has the permission to play from `reserve_spot`,
which found `player_turn` to be its seat, or from a `CARD_PLAY` byte. While that byte is still to
come, a thread with the permission must wait in barrier mode, or it could play twice: this is what
the runs considered here keep to, and the rest follows. Only the seat whose turn is open has the
permission, and it loses it with the card.
-/

namespace Kierki.Serwer

open Lib.Lts

/-- A `CARD_PLAY` byte for the seat is still to be written or to be read. -/
def Ahead (sh : Shared) (pc : MainPc) (s : Seat) : Prop :=
  .cardPlay ∈ sh.serverWritePipes s ∨ pc.announcing = some s

/-- The thread may play: it will pass, or has passed, `b_was_destined_to_play` on. -/
def View.perm (v : View) : Bool :=
  match v.kind with
  | .joining => v.myTurn
  | .play | .parsing | .wake => v.destined
  | .asked => true
  | _ => false

/-- A thread that will look at the flag, or is in barrier mode. -/
def View.shielded (v : View) : Bool := decide (v.kind = .joining) || v.barrier

/-- **The invariant of the turn.** -/
structure TurnInv (sh : Shared) (pc : MainPc) (v : ℕ → View) : Prop where
  closed : ∀ s, ¬Open sh pc s → .cardPlay ∉ sh.serverWritePipes s ∧ sh.playerTurn ≠ some s ∧
    pc.announcing ≠ some s ∧ ∀ c, (v c).seat = s → (v c).perm = false
  opened : ∀ s, Open sh pc s → sh.playerTurn = some s ∧
    (sh.serverWritePipes s).count .cardPlay ≤ 1 ∧
    (pc.announcing = some s → .cardPlay ∉ sh.serverWritePipes s)
  shielded : ∀ s, Open sh pc s → Ahead sh pc s → ∀ c, (v c).seat = s → (v c).perm = true →
    (v c).shielded = true
  flight : InFlight sh pc v

/-- What holds of a thread by itself: before the test of `player_turn` it has no permission, and it
parses no line in barrier mode. -/
def View.Sane (v : View) : Prop :=
  (v.kind = .fresh ∨ v.kind = .reserve → v.myTurn = false) ∧
  (v.kind = .parsing ∨ v.kind = .card → v.barrier = false)

section Thread

variable {sh sh' : Shared} {pc : MainPc} {v : ℕ → View} {c : ℕ} {t : Thread} {o : Outcome}
  {v' : View}

lemma Move.sane (h : t.view.Sane) (hm : Move sh c t o sh' v') : v'.Sane := by
  cases hm with
  | played _ _ hk' => obtain rfl | rfl := hk' <;> simp_all [View.Sane]
  | take _ _ _ _ hk' => obtain rfl | ⟨rfl, -⟩ := hk' <;> simp_all [View.Sane]
  | _ => simp_all [View.Sane]

/-- What a thread reads in the turn of another, or for the second time, is no permission: nothing
changes for the turn, but that a thread may learn from `player_turn` that it has it. -/
structure Neutral (sh : Shared) (pc : MainPc) (t : Thread) (sh' : Shared) (v' : View) : Prop where
  write : ∀ s, (sh'.serverWritePipes s).count .cardPlay = (sh.serverWritePipes s).count .cardPlay
  turn : sh'.playerTurn = sh.playerTurn
  accepted : acceptedSinceTurn sh'.log = acceptedSinceTurn sh.log
  perm : v'.perm = true → v'.seat = t.seat ∧ (t.view.perm = true ∨ sh.playerTurn = some t.seat)
  shielded : v'.perm = true → Ahead sh pc t.seat →
    (t.view.perm = true → t.view.shielded = true) → v'.shielded = true

/-- What a move means for the turn. -/
lemma Move.turn (hm : Move sh c t o sh' v') (hsane : t.view.Sane)
    (hjoin : t.pc = .joinFlag → t.bIsMyTurn = true → sh.bIsBarrierOngoing = false →
      ¬Ahead sh pc t.seat)
    (hend : t.pc = .readPipe true → (sh.serverWritePipes t.seat).head? = some .barrierEnd →
      t.bWasDestinedToPlay = true → ¬Ahead sh pc t.seat) :
    Neutral sh pc t sh' v' ∨
    (∃ card, t.accepts sh = true ∧ sh'.serverWritePipes = sh.serverWritePipes ∧
      sh'.playerTurn = none ∧ sh'.log = .accepted c t.seat card :: sh.log ∧
      v' = { t.view with kind := .card }) ∨
    (∃ rest, t.view.kind = .play ∧ sh.serverWritePipes t.seat = .cardPlay :: rest ∧
      sh' = sh.heard t.seat rest ∧ v' = { t.view with kind := .asked }) := by
  cases hm with
  | accept card _ _ _ ha => exact .inr (.inl ⟨card, ha, rfl, rfl, rfl, rfl⟩)
  | ask rest hk hp => exact .inr (.inr ⟨rest, hk, hp, rfl, rfl⟩)
  | top hk hb =>
    exact .inl ⟨fun _ => rfl, rfl, rfl, fun h => ⟨rfl, .inl h⟩, fun _ _ _ => by simp [View.shielded]⟩
  | ack rest hk hp | ackLast rest hk hp =>
    exact .inl ⟨fun _ => Shared.count_heard hp (by decide), rfl, rfl,
      fun h => ⟨rfl, .inl (by simpa [View.perm, hk] using h)⟩, fun _ _ _ => by simp [View.shielded]⟩
  | unbar rest hpc hk hp =>
    refine .inl ⟨fun _ => Shared.count_heard hp (by decide), rfl, rfl,
      fun h => ⟨rfl, .inl (by simpa [View.perm, hk] using h)⟩, fun h ha _ => ?_⟩
    exact absurd ha (hend hpc (by simp [hp]) (by simpa [View.perm] using h))
  | inform b rest hk hp hb =>
    refine .inl ⟨fun _ => Shared.count_heard hp ?_, rfl, rfl, fun h => ⟨rfl, .inl h⟩,
      fun h _ hs => hs h⟩
    rintro rfl
    simp at hb
  | dismissed rest hk hp =>
    exact .inl ⟨fun _ => Shared.count_heard hp (by decide), rfl, rfl,
      fun h => by simp [View.perm] at h, fun h => by simp [View.perm] at h⟩
  | quiet q => exact .inl ⟨fun _ => rfl, rfl, rfl, fun h => ⟨rfl, .inl h⟩, fun h _ hs => hs h⟩
  | test hk =>
    refine .inl ⟨fun _ => rfl, rfl, rfl, fun h => ⟨rfl, .inr ?_⟩, fun _ _ _ => by simp [View.shielded]⟩
    have : t.bIsMyTurn = false := hsane.1 (.inr hk)
    simpa [View.perm, this] using h
  | join hpc hk =>
    refine .inl ⟨fun _ => rfl, rfl, rfl, fun h => ⟨rfl, .inl (by simpa [View.perm, hk] using h)⟩,
      fun h ha _ => ?_⟩
    by_contra hs
    simp only [View.shielded, reduceCtorEq, decide_false, Bool.false_or, Bool.or_eq_true,
      not_or, Bool.not_eq_true] at hs
    exact hjoin hpc (by simpa [View.perm] using h) hs.2 ha
  | asked hk =>
    exact .inl ⟨fun _ => rfl, rfl, rfl, fun h => ⟨rfl, .inl (by simp [View.perm, hk])⟩,
      fun h _ hs => by simpa [View.shielded, hk] using hs (by simp [View.perm, hk])⟩
  | parse hk hb | topDrain hk hb | parsed hk | wake hk =>
    exact .inl ⟨fun _ => rfl, rfl, rfl, fun h => ⟨rfl, .inl (by simpa [View.perm, hk] using h)⟩,
      fun h _ hs => by simpa [View.shielded, hk] using hs (by simpa [View.perm, hk] using h)⟩
  | take k hpc hk hs hk' =>
    have hmine := hsane.1 (.inl hk)
    obtain rfl | ⟨rfl, -⟩ := hk' <;>
      exact .inl ⟨fun _ => rfl, rfl, rfl, fun h => by simp_all [View.perm],
        fun h => by simp_all [View.perm]⟩
  | played k hk hk' =>
    obtain rfl | rfl := hk' <;>
      exact .inl ⟨fun _ => rfl, rfl, rfl, fun h => by simp [View.perm] at h,
        fun h => by simp [View.perm] at h⟩
  | iam s l hk | stop hk | lost hk | leave hk | release hpc hk | dismiss hpc hk | unreported hk
  | reported hk =>
    exact .inl ⟨fun _ => rfl, rfl, rfl, fun h => by simp_all [View.perm],
      fun h => by simp_all [View.perm]⟩

/-! ### The moves keep the invariant -/

lemma TurnInv.perm_open (h : TurnInv sh pc v) {s : Seat} {c : ℕ} (hc : (v c).seat = s)
    (hp : (v c).perm = true) : Open sh pc s := by
  by_contra hno
  have := (h.closed s hno).2.2.2 c hc
  simp [hp] at this

lemma View.holds_of_perm {v : View} (h : v.perm = true) : v.kind.holds = true := by
  revert h
  cases hk : v.kind <;> simp [View.perm, hk, Kind.holds]

section Keeps

variable (h : TurnInv sh pc v) (hv : v c = t.view) (hf : InFlight sh' pc (Function.update v c v'))
include h hv hf

theorem TurnInv.neutral (hn : Neutral sh pc t sh' v') : TurnInv sh' pc (Function.update v c v') := by
  have hopen : ∀ s, Open sh' pc s ↔ Open sh pc s := fun s => by simp only [Open, hn.accepted]
  have hmem := fun s => mem_iff_of_count (hn.write s)
  have hahead : ∀ s, Ahead sh' pc s ↔ Ahead sh pc s := fun s => by simp only [Ahead, hmem]
  refine ⟨fun s hno => ?_, fun s ho => ?_, fun s ho ha c' hs hp => ?_, hf⟩
  · rw [hopen] at hno
    obtain ⟨hw, ht, ha, hperm⟩ := h.closed s hno
    refine ⟨by rwa [hmem], by rwa [hn.turn], ha, fun c' hs => ?_⟩
    by_cases hcc : c' = c
    · subst hcc
      rw [Function.update_self] at hs ⊢
      by_contra hp
      obtain ⟨hseat, hp' | hturn⟩ := hn.perm (by simpa using hp)
      · have := hperm c' (by rw [hv, ← hs, hseat]; rfl)
        rw [hv, hp'] at this
        cases this
      · exact ht (by rw [hturn, ← hs, hseat])
    · rw [Function.update_of_ne hcc] at hs ⊢
      exact hperm c' hs
  · rw [hopen] at ho
    simpa only [hn.turn, hn.write, hmem] using h.opened s ho
  · rw [hopen] at ho
    rw [hahead] at ha
    by_cases hcc : c' = c
    · subst hcc
      rw [Function.update_self] at hs hp ⊢
      have hseat : t.seat = s := by rw [← hs, (hn.perm hp).1]
      refine hn.shielded hp (by rwa [hseat]) fun hp' => ?_
      have := h.shielded s ho ha c' (by rw [hv]; exact hseat) (by rwa [hv])
      rwa [hv] at this
    · rw [Function.update_of_ne hcc] at hs hp ⊢
      exact h.shielded s ho ha c' hs hp

omit hf in
lemma TurnInv.accepts_open (ha : t.accepts sh = true) : Open sh pc t.seat := by
  obtain ⟨hk, hd⟩ := Thread.accepts_spec ha
  exact h.perm_open (c := c) (by rw [hv]; rfl) (by simp [hv, View.perm, hk, hd])

theorem TurnInv.accept (hs : Seated sh v) (hsane : t.view.Sane) {card : Text}
    (ha : t.accepts sh = true) (hw : sh'.serverWritePipes = sh.serverWritePipes)
    (ht : sh'.playerTurn = none) (hl : sh'.log = .accepted c t.seat card :: sh.log)
    (hv' : v' = { t.view with kind := .card }) :
    TurnInv sh' pc (Function.update v c v') := by
  obtain ⟨hk, hd⟩ := Thread.accepts_spec ha
  have hperm : (v c).perm = true := by simp [hv, View.perm, hk, hd]
  have hseat : (v c).seat = t.seat := by rw [hv]; rfl
  have hopen := h.accepts_open hv ha
  -- the thread is not shielded, so the byte of the turn is gone
  have hahead : ¬Ahead sh pc t.seat := fun ha => by
    have := h.shielded _ hopen ha c hseat hperm
    rw [hv] at this
    have hb : t.bIsBarrier = false := hsane.2 (.inl hk)
    simp [View.shielded, hk, hb] at this
  simp only [Ahead, not_or] at hahead
  have hclosed : ∀ s, ¬Open sh' pc s := fun s ho => by simp [Open, hl, acceptedSinceTurn] at ho
  refine ⟨fun s _ => ⟨?_, by simp [ht], ?_, fun c' hs' => ?_⟩, fun s ho => absurd ho (hclosed s),
    fun s ho => absurd ho (hclosed s), hf⟩
  · rw [hw]
    by_cases hst : s = t.seat
    · exact hst ▸ hahead.1
    · exact (h.closed s fun ho => hst (Option.some.inj (ho.1.symm.trans hopen.1))).1
  · by_cases hst : s = t.seat
    · exact hst ▸ hahead.2
    · exact (h.closed s fun ho => hst (Option.some.inj (ho.1.symm.trans hopen.1))).2.2.1
  · by_cases hcc : c' = c
    · subst hcc
      simp [hv', View.perm]
    · rw [Function.update_of_ne hcc] at hs' ⊢
      by_contra hp
      have hp : (v c').perm = true := by simpa using hp
      have hst : s = t.seat := Option.some.inj ((h.perm_open hs' hp).1.symm.trans hopen.1)
      exact hcc (hs.holder_unique (View.holds_of_perm hp) (View.holds_of_perm hperm)
        (by rw [hs', hseat, hst]))

theorem TurnInv.ask {rest : List Byte} (hp : sh.serverWritePipes t.seat = .cardPlay :: rest)
    (hsh : sh' = sh.heard t.seat rest) (hv' : v' = { t.view with kind := .asked }) :
    TurnInv sh' pc (Function.update v c v') := by
  have hopen : Open sh pc t.seat := by
    by_contra hno
    exact (h.closed _ hno).1 (by simp [hp])
  obtain ⟨hturn, hcount, hann⟩ := h.opened _ hopen
  have hrest : .cardPlay ∉ rest := by
    rw [hp, List.count_cons_self] at hcount
    exact List.count_eq_zero.mp (by omega)
  subst hsh
  have hahead : ¬Ahead (sh.heard t.seat rest) pc t.seat := by
    simp only [Ahead, Shared.heard_serverWritePipes, Function.update_self, not_or]
    exact ⟨hrest, fun ha => hann ha (by simp [hp])⟩
  have hmem : ∀ s, .cardPlay ∈ (sh.heard t.seat rest).serverWritePipes s →
      .cardPlay ∈ sh.serverWritePipes s := by
    intro s
    by_cases hst : s = t.seat
    · subst hst
      simp [hp]
    · simp [hst]
  refine ⟨fun s hno => ?_, fun s ho => ?_, fun s ho ha => ?_, hf⟩
  · obtain ⟨hw, ht, han, hperm⟩ := h.closed s hno
    refine ⟨fun hm => hw (hmem s hm), ht, han, fun c' hs' => ?_⟩
    by_cases hcc : c' = c
    · subst hcc
      rw [Function.update_self] at hs'
      exact absurd (by rw [← hs', hv']; exact hopen) hno
    · rw [Function.update_of_ne hcc] at hs' ⊢
      exact hperm c' hs'
  · obtain ⟨ht, hc, ha⟩ := h.opened s ho
    refine ⟨ht, ?_, fun hann' hm => ha hann' (hmem s hm)⟩
    have hst : s = t.seat := Option.some.inj (ho.1.symm.trans hopen.1)
    subst hst
    simp [List.count_eq_zero.mpr hrest]
  · have hst : s = t.seat := Option.some.inj (ho.1.symm.trans hopen.1)
    exact absurd (hst ▸ ha) hahead

omit hf in
/-- **A seat thread keeps the invariant**, if it takes no permission out of barrier mode while the
`CARD_PLAY` byte of its turn is still to come. -/
theorem TurnInv.thread (hs : Seated sh v) (hsane : t.view.Sane) (hm : Move sh c t o sh' v')
    (hjoin : t.pc = .joinFlag → t.bIsMyTurn = true → sh.bIsBarrierOngoing = false →
      ¬Ahead sh pc t.seat)
    (hend : t.pc = .readPipe true → (sh.serverWritePipes t.seat).head? = some .barrierEnd →
      t.bWasDestinedToPlay = true → ¬Ahead sh pc t.seat) :
    TurnInv sh' pc (Function.update v c v') := by
  have hf := h.flight.thread hv hm (h.accepts_open hv)
  obtain hn | ⟨card, ha, hw, ht, hl, hv'⟩ | ⟨rest, -, hp, hsh, hv'⟩ := hm.turn hsane hjoin hend
  · exact h.neutral hv hf hn
  · exact h.accept hv hf hs hsane ha hw ht hl hv'
  · exact h.ask hv hf hp hsh hv'

end Keeps

end Thread

section Main

variable {sh sh' : Shared} {pc pc' : MainPc} {m m' : Main} {v : ℕ → View}

lemma Still.ahead_iff (h : Still sh pc sh' pc') (s : Seat) : Ahead sh' pc' s ↔ Ahead sh pc s := by
  simp only [Ahead, mem_iff_of_count (h.write s), h.announcing, h.announcing']

section Keeps

variable (h : TurnInv sh pc v) (hf : InFlight sh' pc' v)
include h hf

lemma TurnInv.still (hs : Still sh pc sh' pc') : TurnInv sh' pc' v := by
  have hmem := fun s => mem_iff_of_count (hs.write s)
  refine ⟨fun s hno => ?_, fun s ho => ?_, fun s ho ha => ?_, hf⟩
  · rw [hs.open_iff] at hno
    obtain ⟨hw, ht, -, hperm⟩ := h.closed s hno
    exact ⟨by rwa [hmem], by rwa [hs.turn], by simp [hs.announcing'], hperm⟩
  · rw [hs.open_iff] at ho
    obtain ⟨ht, hcount, -⟩ := h.opened s ho
    exact ⟨by rwa [hs.turn], by rwa [hs.write], by simp [hs.announcing']⟩
  · exact h.shielded s ((hs.open_iff s).mp ho) ((hs.ahead_iff s).mp ha)

lemma TurnInv.turnSet (hwait : pc.wait = none) {s₀ : Seat} {rest : List Seat}
    (hsh : sh' = { sh with playerTurn := some s₀ }.note (.turn s₀)) (hpc : pc' = .turnSend s₀ rest) :
    TurnInv sh' pc' v := by
  subst hsh hpc
  have hno : ∀ s, ¬Open sh pc s := fun s ho => by simp [Open, hwait] at ho
  refine ⟨fun s hs => ?_, fun s ho => ?_, fun s ho _ c hs hp => ?_, hf⟩
  · have hne : s₀ ≠ s := by
      rintro rfl
      exact hs ⟨rfl, rfl⟩
    obtain ⟨hw, -, -, hperm⟩ := h.closed s (hno s)
    exact ⟨hw, by simpa using hne, by simpa [MainPc.announcing] using hne, hperm⟩
  · obtain rfl : s₀ = s := by simpa [Open, MainPc.wait] using ho.1
    have hw := (h.closed s₀ (hno s₀)).1
    exact ⟨rfl, by rw [Shared.note_serverWritePipes, List.count_eq_zero.mpr hw]; omega, fun _ => hw⟩
  · have := (h.closed s (hno s)).2.2.2 c hs
    simp [hp] at this

lemma TurnInv.turnSend {s₀ : Seat} {rest : List Seat} (hpc : pc = .turnSend s₀ rest)
    (hsh : sh' = (sh.tell s₀ .cardPlay).note (.asked s₀)) (hpc' : pc' = .cardPoll s₀ rest) :
    TurnInv sh' pc' v := by
  subst hpc hsh hpc'
  have hopen₀ : Open sh (.turnSend s₀ rest) s₀ := by
    by_contra hno
    exact (h.closed s₀ hno).2.2.1 rfl
  have hw₀ := (h.opened s₀ hopen₀).2.2 rfl
  have hopen : ∀ s, Open ((sh.tell s₀ .cardPlay).note (.asked s₀)) (.cardPoll s₀ rest) s ↔
      Open sh (.turnSend s₀ rest) s := fun s => Iff.rfl
  refine ⟨fun s hno => ?_, fun s ho => ?_, fun s ho _ => ?_, hf⟩
  · rw [hopen] at hno
    have hne : s ≠ s₀ := by
      rintro rfl
      exact hno hopen₀
    obtain ⟨hw, ht, -, hperm⟩ := h.closed s hno
    exact ⟨by simpa [hne] using hw, ht, by simp [MainPc.announcing], hperm⟩
  · obtain rfl : s₀ = s := by simpa [MainPc.wait] using ho.1
    refine ⟨(h.opened s₀ hopen₀).1, ?_, by simp [MainPc.announcing]⟩
    simp [List.count_eq_zero.mpr hw₀]
  · obtain rfl : s₀ = s := by simpa [MainPc.wait] using ho.1
    exact h.shielded s₀ hopen₀ (.inr rfl)

lemma TurnInv.afterCard (hacc : acceptedSinceTurn sh.log = true) (hacc' : acceptedSinceTurn sh'.log = true)
    (hw : sh'.serverWritePipes = sh.serverWritePipes) (ht : sh'.playerTurn = sh.playerTurn)
    (hann : pc'.announcing = none) : TurnInv sh' pc' v := by
  have hno : ∀ s, ¬Open sh pc s := fun s ho => by simp [Open, hacc] at ho
  have hno' : ∀ s, ¬Open sh' pc' s := fun s ho => by simp [Open, hacc'] at ho
  refine ⟨fun s _ => ?_, fun s ho => absurd ho (hno' s), fun s ho => absurd ho (hno' s), hf⟩
  obtain ⟨hbyte, hturn, -, hperm⟩ := h.closed s (hno s)
  exact ⟨by rwa [hw], by rwa [ht], by simp [hann], hperm⟩

end Keeps

/-- **The main thread keeps the invariant.** -/
theorem TurnInv.main (h : TurnInv sh m.pc v) (hm : MainMove sh m sh' m') : TurnInv sh' m'.pc v := by
  have hf := h.flight.main hm
  obtain hs | ⟨s, rest, hw, hsh, hpc⟩ | ⟨s, rest, hpc, hsh, hpc'⟩ |
    ⟨s, rest, got, ready, left, hpc, hp, rfl, hpc'⟩ | ⟨hg, rfl, -, -, ha⟩ := hm.turn
  · exact h.still hf hs
  · exact h.turnSet hf hw hsh hpc
  · exact h.turnSend hf hpc hsh hpc'
  · have hacc := (h.flight.inPipe s (by simp [hp])).2.1
    exact h.afterCard hf hacc hacc rfl rfl (by rw [hpc']; rfl)
  · have hacc := h.flight.received hg
    exact h.afterCard hf hacc hacc rfl rfl ha

end Main

/-! ### The runs -/

lemma TurnInv.start {timeout : ℤ} {deals : List Deal} :
    TurnInv { timeout := timeout } (Main.pc { deals := deals }) fun _ => Thread.view {} :=
  ⟨fun _ _ => ⟨by simp, by simp, by simp [MainPc.announcing], fun _ _ => rfl⟩,
    fun _ ho => (nomatch ho.1), fun _ ho => (nomatch ho.1), .start⟩

section Accept

variable {sh : Shared} {pc : MainPc} {v : ℕ → View} {c : ℕ} {fd : ℤ}

lemma TurnInv.accepting (h : TurnInv sh pc v) :
    TurnInv sh pc (Function.update v c { Thread.view {} with clientFd := fd }) := by
  have hperm : ∀ c' s, (Function.update v c { Thread.view {} with clientFd := fd } c').seat = s →
      (Function.update v c { Thread.view {} with clientFd := fd } c').perm = true →
      (v c').seat = s ∧ (v c').perm = true ∧
        Function.update v c { Thread.view {} with clientFd := fd } c' = v c' := by
    intro c' s hs hp
    by_cases hcc : c' = c
    · subst hcc
      simp [View.perm] at hp
    · rw [Function.update_of_ne hcc] at hs hp ⊢
      exact ⟨hs, hp, rfl⟩
  refine ⟨fun s hno => ?_, h.opened, fun s ho ha c' hs hp => ?_, h.flight.accepting c fd⟩
  · obtain ⟨hw, ht, hann, hno'⟩ := h.closed s hno
    refine ⟨hw, ht, hann, fun c' hs => ?_⟩
    by_contra hp
    obtain ⟨hs', hp', -⟩ := hperm c' s hs (by simpa using hp)
    simp [hno' c' hs'] at hp'
  · obtain ⟨hs', hp', he⟩ := hperm c' s hs hp
    rw [he]
    exact h.shielded s ho ha c' hs' hp'

end Accept

instance (sh : Shared) (pc : MainPc) (s : Seat) : Decidable (Ahead sh pc s) :=
  inferInstanceAs (Decidable (_ ∨ _))

/-- No thread takes a permission to play out of barrier mode, into `client_poll` or by a
`BARRIER_END` byte, while the `CARD_PLAY` byte of the turn of its seat is still to come. -/
def TurnGuarded (st : State) : Act → Prop
  | .thread c _ =>
    ((st.threads c).pc = .joinFlag → (st.threads c).bIsMyTurn = true →
      st.sh.bIsBarrierOngoing = false → ¬Ahead st.sh st.main.pc (st.threads c).seat) ∧
    ((st.threads c).pc = .readPipe true →
      (st.sh.serverWritePipes (st.threads c).seat).head? = some .barrierEnd →
      (st.threads c).bWasDestinedToPlay = true → ¬Ahead st.sh st.main.pc (st.threads c).seat)
  | .main _ | .accept _ => True

instance (st : State) : (a : Act) → Decidable (TurnGuarded st a)
  | .thread _ _ => inferInstanceAs (Decidable ((_ → _ → _ → _) ∧ (_ → _ → _ → _)))
  | .main _ | .accept _ => inferInstanceAs (Decidable True)

/-- A card is accepted only from the seat for whose card `run_deal` waits, its `CARD_PLAY` written,
and only if none was accepted for that wait before. -/
def PlaysInTurn (st : State) : Prop :=
  ∀ c o st', step st (.thread c o) = some st' → st'.sh.cardsOnTable ≠ st.sh.cardsOnTable →
    st.main.pc.wait = some (st.threads c).seat ∧ st.main.pc.announcing = none ∧
    acceptedSinceTurn st.sh.log = false ∧
    ∃ card ∈ st.sh.cards (st.threads c).seat, st'.sh.cardsOnTable = st.sh.cardsOnTable ++ [card] ∧
      st'.sh.cards = Function.update st.sh.cards (st.threads c).seat
        ((st.sh.cards (st.threads c).seat).erase card)

section Runs

variable {ok : State → Act → Prop} {timeout : ℤ} {deals : List Deal} {st : State}

lemma sane (h : RunsTo ok timeout deals st) : ∀ c, (st.view c).Sane := by
  refine RunsTo.keeps (I := fun _ _ v => ∀ c, (v c).Sane) (J := fun _ _ _ => True)
    (fun _ _ => trivial) (fun _ => by simp [View.Sane]) (fun _ _ _ _ _ hi _ _ => hi)
    (fun _ _ v c fd _ hi _ _ => ?_) (fun st c _ _ v _ hi _ hm => ?_) h
  · exact forall_update hi c (by simp [View.Sane])
  · exact forall_update hi c (hm.sane (hi c))

lemma turnInv (h : RunsTo TurnGuarded timeout deals st) : TurnInv st.sh st.main.pc st.view := by
  refine RunsTo.keeps (I := fun sh m v => TurnInv sh m.pc v)
    (J := fun sh _ v => Seated sh v ∧ ∀ c, (v c).Sane) (fun _ hr => ⟨seated hr, sane hr⟩) .start
    (fun _ _ _ _ _ hi _ hm => hi.main hm) (fun _ _ _ _ _ _ hi _ _ => hi.accepting)
    (fun _ c _ _ _ hj hi hok hm => hi.thread rfl hj.1 (hj.2 c) hm hok.1 hok.2) h

lemma Move.table {sh sh' : Shared} {c : ℕ} {t : Thread} {o : Outcome} {v' : View}
    (hm : Move sh c t o sh' v') (h : sh'.cardsOnTable ≠ sh.cardsOnTable) :
    t.view.kind = .parsing ∧ t.bWasDestinedToPlay = true ∧ ∃ card ∈ sh.cards t.seat,
      sh'.cardsOnTable = sh.cardsOnTable ++ [card] ∧
      sh'.cards = Function.update sh.cards t.seat ((sh.cards t.seat).erase card) := by
  cases hm with
  | accept card hk hd hc => exact ⟨hk, hd, card, hc, rfl, rfl⟩
  | _ => simp at h

/-- **Nobody plays before his turn or twice in it**, in the guarded runs. -/
theorem cards_played_in_turn (h : RunsTo TurnGuarded timeout deals st) : PlaysInTurn st := by
  intro c o st' hs hne
  simp only [step, Option.map_eq_some_iff] at hs
  obtain ⟨⟨sh, t⟩, hs, rfl⟩ := hs
  obtain ⟨hk, hd, hcard⟩ := (move_of_threadStep hs).table hne
  have hi := turnInv h
  have hperm : (st.view c).perm = true := by
    have hk : (st.view c).kind = .parsing := hk
    have hd : (st.view c).destined = true := hd
    simpa [View.perm, hk] using hd
  have hopen := hi.perm_open rfl hperm
  refine ⟨hopen.1, ?_, hopen.2, hcard⟩
  -- with the byte still to come the thread would be in barrier mode, and parse nothing
  by_contra hann
  have hann : st.main.pc.announcing = some (st.threads c).seat := by
    have hw := hopen.1
    revert hann hw
    cases st.main.pc <;> simp [MainPc.announcing, MainPc.wait, State.view]
  have hsh := hi.shielded _ hopen (.inr hann) c rfl hperm
  have hb : (st.view c).barrier = false := (sane h c).2 (.inl hk)
  have hk : (st.view c).kind = .parsing := hk
  simp [View.shielded, hk, hb] at hsh

/-- `N` is asked for its first card in a run of which every step is guarded, and plays it. -/
theorem cards_played_in_turn_first : ∃ st, RunsTo TurnGuarded 5000 [suitsDeal] st ∧ PlaysInTurn st ∧
    ∃ st', step st (.thread 0 .tick) = some st' ∧ st'.sh.cardsOnTable = [['2', 'C']] := by
  obtain ⟨st, hr, hp⟩ := exists_run TurnGuarded [suitsDeal]
    (opening ++ mains 8 ++ hears 0 3 ++ hears 0 3 ++ hears 0 3 ++
      sends 0 ['T', 'R', 'I', 'C', 'K', '1', '2', 'C', '\r', '\n'] false 0)
    (fun st => (step st (.thread 0 .tick)).any fun st' : State =>
      decide (st'.sh.cardsOnTable = [['2', 'C']])) (by decide +kernel)
  obtain ⟨st', hs, hp⟩ := (Option.any_eq_true _ _).mp hp
  exact ⟨st, hr, cards_played_in_turn hr, st', hs, by simpa using hp⟩

end Runs

/-! ### A permission taken too early -/

/-- The game has started with `W` alone, and the main thread has just set `player_turn` to `N`. A
client takes the seat and finds that it is its turn, before `CARD_PLAY` is written. -/
def earlyTurn : List Act :=
  fourTimesW ++ mains 13 ++ asks 4 .N ++ ticks 4 8

/-- It plays, reads the `CARD_PLAY` byte meant for the card it played, and plays again. -/
def playsTwice : List Act :=
  earlyTurn ++ sends 4 ['T', 'R', 'I', 'C', 'K', '1', '2', 'C', '\r', '\n'] true 4 ++ mains 1 ++
  hears 4 3 ++ hears 4 3 ++ hears 4 3 ++
  sends 4 ['T', 'R', 'I', 'C', 'K', '1', '3', 'C', '\r', '\n'] false 0

/-- **A seat puts two cards into one trick.** -/
theorem card_played_twice : ∃ st, Reachable 5000 [suitsDeal] st ∧ ¬PlaysInTurn st := by
  obtain ⟨st, hr, hp⟩ := exists_run (fun _ _ => True) [suitsDeal] playsTwice
    (fun st => decide (st.sh.cardsOnTable = [['2', 'C']] ∧ acceptedSinceTurn st.sh.log = true) &&
      (step st (.thread 4 .tick)).any fun st' : State =>
        decide (st'.sh.cardsOnTable = [['2', 'C'], ['3', 'C']])) (by decide +kernel)
  simp only [Bool.and_eq_true, decide_eq_true_eq, Option.any_eq_true] at hp
  obtain ⟨⟨htable, ha⟩, st', hs, htable'⟩ := hp
  refine ⟨st, hr, fun h => ?_⟩
  have := (h 4 .tick st' hs (by rw [htable, htable']; decide)).2.2.1
  simp [ha] at this

end Kierki.Serwer
