import Kierki.Serwer.MainMoves

/-!
# Cards on their way to the main thread

An accepted card is announced by a `CARD_PLAY` byte: the thread that accepted it writes the byte in
a later step, and `run_deal` reads it in another. In between the card is in flight. As long as a
card is accepted only from the seat for whose card `run_deal` waits, and once for each wait, there
is at most one card in flight, it is that of the wait, and the wait is not over.
-/

namespace Kierki.Serwer

/-- The seat for whose card the main thread waits, `barrier` and `close_server` called from there
included. -/
def MainPc.wait : MainPc → Option Seat
  | turnSend s _ | cardPoll s _ | cardScan s _ _ _ => some s
  | barrierReset r | barrierAsk _ r | barrierPoll r | barrierScan _ r | barrierResend _ _ r => r.wait
  | barrierRelease _ r => r.wait
  | closeServer _ w | closeSeats _ _ w => w
  | _ => none

/-- Where `barrier` was called from. -/
def MainPc.caller : MainPc → Option Caller
  | barrierReset r | barrierAsk _ r | barrierPoll r | barrierScan _ r => some r
  | barrierResend _ _ r | barrierRelease _ r => some r
  | _ => none

/-- `b_received_card` of that wait. -/
def Caller.got : Caller → Bool
  | cardWait _ _ got _ => got
  | _ => false

def MainPc.got : MainPc → Bool
  | cardScan _ _ got _ => got
  | barrierReset r | barrierAsk _ r | barrierPoll r | barrierScan _ r | barrierResend _ _ r => r.got
  | barrierRelease _ r => r.got
  | _ => false

/-- The seat to which `run_deal` is about to write `CARD_PLAY`. -/
def MainPc.announcing : MainPc → Option Seat
  | turnSend s _ => some s
  | _ => none

/-- The turn of the seat is open: `run_deal` waits for its card and has accepted none. -/
def Open (sh : Shared) (pc : MainPc) (s : Seat) : Prop :=
  pc.wait = some s ∧ acceptedSinceTurn sh.log = false

instance (sh : Shared) (pc : MainPc) (s : Seat) : Decidable (Open sh pc s) :=
  inferInstanceAs (Decidable (_ ∧ _))

/-- **The invariant of the cards in flight.** -/
structure InFlight (sh : Shared) (pc : MainPc) (v : ℕ → View) : Prop where
  inPipe : ∀ s, .cardPlay ∈ sh.serverReadPipes s → pc.wait = some s ∧
    acceptedSinceTurn sh.log = true ∧ pc.got = false ∧
    (sh.serverReadPipes s).count .cardPlay = 1 ∧ ∀ c, (v c).kind ≠ .card
  inHand : ∀ c, (v c).kind = .card → pc.wait = some (v c).seat ∧
    acceptedSinceTurn sh.log = true ∧ pc.got = false ∧
    (∀ s, .cardPlay ∉ sh.serverReadPipes s) ∧ ∀ c', (v c').kind = .card → c' = c
  received : pc.got = true → acceptedSinceTurn sh.log = true

lemma mem_iff_of_count {l l' : List Byte} {b : Byte} (h : l'.count b = l.count b) :
    b ∈ l' ↔ b ∈ l := by
  rw [← List.count_pos_iff, ← List.count_pos_iff, h]

lemma InFlight.none_of_open {sh : Shared} {pc : MainPc} {v : ℕ → View} (h : InFlight sh pc v)
    (ha : acceptedSinceTurn sh.log = false) :
    (∀ s, .cardPlay ∉ sh.serverReadPipes s) ∧ (∀ c, (v c).kind ≠ .card) ∧ pc.got = false := by
  refine ⟨fun s hs => ?_, fun c hk => ?_, ?_⟩
  · have := (h.inPipe s hs).2.1
    simp [ha] at this
  · have := (h.inHand c hk).2.1
    simp [ha] at this
  · by_contra hg
    have := h.received (by simpa using hg)
    simp [ha] at this

lemma InFlight.start {timeout : ℤ} {deals : List Deal} :
    InFlight { timeout := timeout } (Main.pc { deals := deals }) fun _ => Thread.view {} :=
  ⟨fun _ hs => (nomatch hs), fun _ hk => (nomatch hk), fun hg => (nomatch hg)⟩

section Thread

variable {sh sh' : Shared} {pc : MainPc} {v : ℕ → View} {c : ℕ} {t : Thread} {o : Outcome}
  {v' : View}

/-- A move that puts no card into flight and moves none on. -/
structure Passive (sh : Shared) (t : Thread) (sh' : Shared) (v' : View) : Prop where
  read : ∀ s, (sh'.serverReadPipes s).count .cardPlay = (sh.serverReadPipes s).count .cardPlay
  accepted : acceptedSinceTurn sh'.log = acceptedSinceTurn sh.log
  card : v'.kind = .card → t.view.kind = .card ∧ v'.seat = t.seat

lemma Move.flight (hm : Move sh c t o sh' v') : Passive sh t sh' v' ∨
    (∃ card, t.accepts sh = true ∧ sh'.serverReadPipes = sh.serverReadPipes ∧
      sh'.log = .accepted c t.seat card :: sh.log ∧ v' = { t.view with kind := .card }) ∨
    (∃ k, t.view.kind = .card ∧ k ≠ .card ∧ sh' = sh.report t.seat .cardPlay ∧
      v' = { t.view with kind := k, destined := false }) := by
  cases hm with
  | accept card _ _ _ ha => exact .inr (.inl ⟨card, ha, rfl, rfl, rfl⟩)
  | played k hk hk' =>
    refine .inr (.inr ⟨k, hk, ?_, rfl, rfl⟩)
    rintro rfl
    simp at hk'
  | wake | reported =>
    exact .inl ⟨fun _ => Shared.count_report.trans (by simp), rfl, fun h => by simp at h⟩
  | take _ _ _ _ hk' =>
    refine .inl ⟨fun _ => rfl, rfl, fun h => ?_⟩
    obtain rfl | ⟨rfl, -⟩ := hk' <;> simp at h
  | quiet | iam | top | inform | ack => exact .inl ⟨fun _ => rfl, rfl, fun h => by simp_all⟩
  | _ => exact .inl ⟨fun _ => rfl, rfl, fun h => by simp at h⟩

/-- **A seat thread keeps the invariant**, if a card it accepts is that of the open turn. -/
theorem InFlight.thread (h : InFlight sh pc v) (hv : v c = t.view) (hm : Move sh c t o sh' v')
    (hopen : t.accepts sh = true → Open sh pc t.seat) :
    InFlight sh' pc (Function.update v c v') := by
  obtain hp | ⟨card, ha, hr, hl, rfl⟩ | ⟨k, hk, hk', rfl, rfl⟩ := hm.flight
  · have hmem := fun s => mem_iff_of_count (hp.read s)
    have hcard : ∀ c', (Function.update v c v' c').kind = .card →
        (v c').kind = .card ∧ (Function.update v c v' c').seat = (v c').seat := by
      intro c' hk
      by_cases hcc : c' = c
      · subst hcc
        rw [Function.update_self] at hk ⊢
        rw [hv]
        exact hp.card hk
      · rw [Function.update_of_ne hcc] at hk ⊢
        exact ⟨hk, rfl⟩
    refine ⟨fun s hs => ?_, fun c' hk => ?_, fun hg => ?_⟩
    · rw [hmem] at hs
      obtain ⟨hw, ha, hg, hcount, hno⟩ := h.inPipe s hs
      exact ⟨hw, by rwa [hp.accepted], hg, by rwa [hp.read], fun c' hk => hno c' (hcard c' hk).1⟩
    · obtain ⟨hk', hs⟩ := hcard c' hk
      obtain ⟨hw, ha, hg, hno, huniq⟩ := h.inHand c' hk'
      exact ⟨by rwa [hs], by rwa [hp.accepted], hg, fun s => by rw [hmem]; exact hno s,
        fun c'' hk'' => huniq c'' (hcard c'' hk'').1⟩
    · rw [hp.accepted]
      exact h.received hg
  · -- a card is accepted: it is the one in flight
    obtain ⟨hw, ha⟩ := hopen ha
    obtain ⟨hbyte, hcard, hgot⟩ := h.none_of_open ha
    have hacc : acceptedSinceTurn sh'.log = true := by rw [hl]; rfl
    have hnew : ∀ c', (Function.update v c { t.view with kind := .card } c').kind = .card →
        c' = c := by
      intro c' hk
      by_contra hcc
      rw [Function.update_of_ne hcc] at hk
      exact hcard c' hk
    refine ⟨fun s hs => absurd (hr ▸ hs) (hbyte s), fun c' hk => ?_, fun _ => hacc⟩
    obtain rfl := hnew c' hk
    exact ⟨by rw [Function.update_self]; exact hw, hacc, hgot, fun s => by rw [hr]; exact hbyte s,
      fun c'' hk'' => hnew c'' hk''⟩
  · -- its byte is written
    obtain ⟨hw, ha, hg, hno, huniq⟩ := h.inHand c (by rw [hv, hk])
    have hnone : ∀ c', (Function.update v c { t.view with kind := k, destined := false } c').kind ≠
        .card := by
      intro c' hk''
      by_cases hcc : c' = c
      · subst hcc
        rw [Function.update_self] at hk''
        exact hk' hk''
      · rw [Function.update_of_ne hcc] at hk''
        exact hcc (huniq c' hk'')
    refine ⟨fun s hs => ?_, fun c' hk'' => absurd hk'' (hnone c'), fun _ => ha⟩
    obtain rfl : s = t.seat := by
      by_contra hst
      exact hno s (by simpa [hst] using hs)
    refine ⟨by rw [hw, hv]; rfl, ha, hg, ?_, hnone⟩
    rw [Shared.count_report, List.count_eq_zero.mpr (hno _)]
    simp

lemma InFlight.accepting (h : InFlight sh pc v) (c : ℕ) (fd : ℤ) :
    InFlight sh pc (Function.update v c { Thread.view {} with clientFd := fd }) := by
  have hcard : ∀ c', (Function.update v c { Thread.view {} with clientFd := fd } c').kind = .card →
      (v c').kind = .card ∧ Function.update v c { Thread.view {} with clientFd := fd } c' = v c' := by
    intro c' hk
    by_cases hcc : c' = c
    · subst hcc
      simp at hk
    · rw [Function.update_of_ne hcc] at hk ⊢
      exact ⟨hk, rfl⟩
  refine ⟨fun s hs => ?_, fun c' hk => ?_, h.received⟩
  · obtain ⟨h₁, h₂, h₃, h₄, h₅⟩ := h.inPipe s hs
    exact ⟨h₁, h₂, h₃, h₄, fun c' hk => h₅ c' (hcard c' hk).1⟩
  · obtain ⟨hk', he⟩ := hcard c' hk
    obtain ⟨h₁, h₂, h₃, h₄, h₅⟩ := h.inHand c' hk'
    exact ⟨by rwa [he], h₂, h₃, h₄, fun c'' hk'' => h₅ c'' (hcard c'' hk'').1⟩

end Thread

section Main

variable {sh sh' : Shared} {pc pc' : MainPc} {m m' : Main} {v : ℕ → View}

lemma count_noticed_le {s s₀ : Seat} {b x : Byte} {rest : List Byte}
    (hp : sh.serverReadPipes s₀ = b :: rest) :
    ((sh.noticed s₀ rest).serverReadPipes s).count x ≤ (sh.serverReadPipes s).count x := by
  by_cases hs : s = s₀
  · subst hs
    simp [hp, List.count_le_count_cons]
  · simp [hs]

lemma wait_afterBarrier (r : Caller) : (m.afterBarrier r).pc.wait = r.wait ∧
    (m.afterBarrier r).pc.got = r.got ∧ (m.afterBarrier r).pc.announcing = none :=
  m.afterBarrier_pc r (P := fun r pc => pc.wait = r.wait ∧ pc.got = r.got ∧ pc.announcing = none)
    ⟨rfl, rfl, rfl⟩ (fun _ _ _ _ => ⟨rfl, rfl, rfl⟩) ⟨rfl, rfl, rfl⟩ ⟨rfl, rfl, rfl⟩
    ⟨rfl, rfl, rfl⟩

/-- A step of the main thread that means nothing for the turn. -/
structure Still (sh : Shared) (pc : MainPc) (sh' : Shared) (pc' : MainPc) : Prop where
  wait : pc'.wait = pc.wait
  got : pc'.got = true → pc.got = true
  announcing : pc.announcing = none
  announcing' : pc'.announcing = none
  write : ∀ s, (sh'.serverWritePipes s).count .cardPlay = (sh.serverWritePipes s).count .cardPlay
  read : ∀ s, (sh'.serverReadPipes s).count .cardPlay ≤ (sh.serverReadPipes s).count .cardPlay
  turn : sh'.playerTurn = sh.playerTurn
  accepted : acceptedSinceTurn sh'.log = acceptedSinceTurn sh.log

lemma Still.open_iff (h : Still sh pc sh' pc') (s : Seat) : Open sh' pc' s ↔ Open sh pc s := by
  simp only [Open, h.wait, h.accepted]

lemma MainMove.turn (hm : MainMove sh m sh' m') :
    Still sh m.pc sh' m'.pc ∨
    (∃ s rest, m.pc.wait = none ∧ sh' = { sh with playerTurn := some s }.note (.turn s) ∧
      m'.pc = .turnSend s rest) ∨
    (∃ s rest, m.pc = .turnSend s rest ∧ sh' = (sh.tell s .cardPlay).note (.asked s) ∧
      m'.pc = .cardPoll s rest) ∨
    (∃ s rest got ready left, m.pc = .cardScan s rest got (s :: ready) ∧
      sh.serverReadPipes s = .cardPlay :: left ∧ sh' = sh.noticed s left ∧
      m'.pc = .cardScan s rest true ready) ∨
    (m.pc.got = true ∧ sh' = sh ∧ m'.pc.wait = none ∧ m'.pc.got = false ∧
      m'.pc.announcing = none) := by
  cases hm with
  | turnSet s rest hpc => exact .inr (.inl ⟨s, rest, by rw [hpc]; rfl, rfl, rfl⟩)
  | turnSend s rest hpc => exact .inr (.inr (.inl ⟨s, rest, hpc, rfl, rfl⟩))
  | gotCard s rest ready got left hpc hp =>
    exact .inr (.inr (.inr (.inl ⟨s, rest, got, ready, left, hpc, hp, rfl, rfl⟩)))
  | nextTurn s rest hpc | lastTurn s hpc =>
    exact .inr (.inr (.inr (.inr ⟨by rw [hpc]; rfl, rfl, rfl, rfl, rfl⟩)))
  | releaseLast s r hpc =>
    obtain ⟨hw, hg, ha⟩ := wait_afterBarrier (m := m) r
    rw [hpc]
    exact .inl ⟨hw, fun h => hg.symm.trans h, rfl, ha, fun _ => Shared.count_tell.trans (by simp),
      fun _ => le_rfl, rfl, rfl⟩
  | reset r hpc | poll _ r hpc | stay r hpc | pass r hpc | gameOver hpc | load _ _ hpc | start hpc
  | trick hpc | cardPoll _ _ _ hpc | waitOn _ _ hpc | trickEnd _ _ _ hpc | dealEnd hpc
  | close _ _ hpc =>
    rw [hpc]
    exact .inl ⟨rfl, fun h => h, rfl, rfl, fun _ => rfl, fun _ => le_rfl, rfl, rfl⟩
  | ask _ _ r hpc | askLast _ r hpc | resend _ _ r hpc | release _ _ r hpc | closeSeat _ _ _ _ hpc =>
    rw [hpc]
    exact .inl ⟨rfl, fun h => h, rfl, rfl, fun _ => Shared.count_tell.trans (by simp),
      fun _ => le_rfl, rfl, rfl⟩
  | announce b s left hpc | announceLast b s hpc =>
    rw [hpc]
    refine .inl ⟨?_, fun h => ?_, rfl, ?_, fun _ => Shared.count_tell.trans ?_, fun _ => le_rfl,
      rfl, rfl⟩
    all_goals cases b <;> first | rfl | exact h | simp [Bulletin.byte]
  | lost _ _ _ _ hpc hp | woken _ _ _ _ hpc hp | lostPlayer _ _ _ _ _ _ hpc hp =>
    rw [hpc]
    exact .inl ⟨rfl, fun h => h, rfl, rfl, fun _ => rfl, fun _ => count_noticed_le hp, rfl, rfl⟩
  | badBarrier _ _ _ _ _ hpc hp | badDeal _ _ _ _ _ _ _ hpc hp =>
    rw [hpc]
    exact .inl ⟨rfl, fun h => (nomatch h), rfl, rfl, fun _ => rfl, fun _ => count_noticed_le hp,
      rfl, rfl⟩

lemma InFlight.still (h : InFlight sh pc v) (hs : Still sh pc sh' pc') : InFlight sh' pc' v := by
  have hmem : ∀ s, .cardPlay ∈ sh'.serverReadPipes s → .cardPlay ∈ sh.serverReadPipes s := by
    intro s hb
    have := hs.read s
    rw [← List.count_pos_iff] at hb ⊢
    omega
  have hgot : pc.got = false → pc'.got = false := by
    intro hg
    by_contra hg'
    rw [hs.got (by simpa using hg')] at hg
    cases hg
  refine ⟨fun s hb => ?_, fun c hk => ?_, fun hg => ?_⟩
  · obtain ⟨hw, ha, hg, hcount, hcard⟩ := h.inPipe s (hmem s hb)
    have := hs.read s
    rw [← List.count_pos_iff] at hb
    exact ⟨by rwa [hs.wait], by rwa [hs.accepted], hgot hg, by omega, hcard⟩
  · obtain ⟨hw, ha, hg, hbyte, huniq⟩ := h.inHand c hk
    exact ⟨by rwa [hs.wait], by rwa [hs.accepted], hgot hg, fun s hb => hbyte s (hmem s hb), huniq⟩
  · rw [hs.accepted]
    exact h.received (hs.got hg)

lemma InFlight.none_of_wait (h : InFlight sh pc v) (hw : pc.wait = none) :
    (∀ s, .cardPlay ∉ sh.serverReadPipes s) ∧ ∀ c, (v c).kind ≠ .card := by
  constructor
  · intro s hb
    have := (h.inPipe s hb).1
    simp [hw] at this
  · intro c hk
    have := (h.inHand c hk).1
    simp [hw] at this

lemma InFlight.gotCard {s₀ : Seat} {rest ready : List Seat} {got : Bool} {left : List Byte}
    (h : InFlight sh (.cardScan s₀ rest got (s₀ :: ready)) v)
    (hp : sh.serverReadPipes s₀ = .cardPlay :: left) :
    InFlight (sh.noticed s₀ left) (.cardScan s₀ rest true ready) v := by
  obtain ⟨-, ha, -, hcount, hcard⟩ := h.inPipe s₀ (by simp [hp])
  have hleft : .cardPlay ∉ left := by
    rw [hp, List.count_cons_self] at hcount
    exact List.count_eq_zero.mp (by omega)
  refine ⟨fun s hs => ?_, fun c hk => absurd hk (hcard c), fun _ => ha⟩
  exfalso
  by_cases hst : s = s₀
  · subst hst
    exact hleft (by simpa using hs)
  · have := (h.inPipe s (by simpa [hst] using hs)).1
    exact hst (Option.some.inj this).symm

/-- **The main thread keeps the invariant.** -/
theorem InFlight.main (h : InFlight sh m.pc v) (hm : MainMove sh m sh' m') :
    InFlight sh' m'.pc v := by
  obtain hs | ⟨s, rest, hw, rfl, hpc⟩ | ⟨s, rest, hpc, rfl, hpc'⟩ |
    ⟨s, rest, got, ready, left, hpc, hp, rfl, hpc'⟩ | ⟨hg, rfl, hw, hg', -⟩ := hm.turn
  · exact h.still hs
  · obtain ⟨hbyte, hcard⟩ := h.none_of_wait hw
    rw [hpc]
    exact ⟨fun s hb => absurd hb (hbyte s), fun c hk => absurd hk (hcard c), fun hg => (nomatch hg)⟩
  · rw [hpc] at h
    rw [hpc']
    exact ⟨h.inPipe, h.inHand, fun hg => (nomatch hg)⟩
  · rw [hpc] at h
    rw [hpc']
    exact h.gotCard hp
  · -- the wait is over, and with its card received nothing is in flight
    refine ⟨fun s hs => ?_, fun c hk => ?_, fun hg'' => by simp [hg'] at hg''⟩
    · have := (h.inPipe s hs).2.2.1
      simp [hg] at this
    · have := (h.inHand c hk).2.2.1
      simp [hg] at this

end Main

end Kierki.Serwer
