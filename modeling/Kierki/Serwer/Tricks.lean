import Kierki.Lines
import Kierki.Serwer.Departures

/-!
# The tricks of a deal

`trick_number`, the tricks taken and the cards on the table belong together, at whatever point of
`run_deal` the main thread is: the number is that of the loop, there are as many tricks as have ended,
and from the end of a trick until all seats have been told of it four cards lie on the table.
-/

namespace Kierki.Serwer

open Regex

/-! ### The trick in progress -/

def Caller.trick (i : ℕ) : Caller → Option ℕ
  | cardWait _ _ _ _ | endOfTrick => some (i + 1)
  | _ => none

/-- The number of the trick in progress, by the loop counter of `run_deal`; `none` outside its
loop. -/
def MainPc.trick (i : ℕ) : MainPc → Option ℕ
  | announce .deal _ | trickStart => some i
  | turnSet _ | turnSend _ _ | cardPoll _ _ | cardScan _ _ _ _ => some (i + 1)
  | trickEnd | announce .taken _ => some (i + 1)
  | barrierReset r | barrierAsk _ r | barrierPoll r | barrierScan _ r => r.trick i
  | barrierResend _ _ r | barrierRelease _ r => r.trick i
  | _ => none

def Caller.hasAsked : Caller → Seat → Bool
  | cardWait _ rest _ _, s => s ∉ rest
  | _, _ => false

/-- The seat was asked for its card in the trick in progress, and the end of the trick is still to
be told. -/
def MainPc.hasAsked : MainPc → Seat → Bool
  | turnSet left, s => s ∉ left
  | turnSend s₀ rest, s => s ∉ s₀ :: rest
  | cardPoll _ rest, s | cardScan _ rest _ _, s => s ∉ rest
  | trickEnd, _ | announce .taken _, _ => true
  | barrierReset r, s | barrierAsk _ r, s | barrierPoll r, s | barrierScan _ r, s => r.hasAsked s
  | barrierResend _ _ r, s | barrierRelease _ r, s => r.hasAsked s
  | _, _ => false

def Caller.inTrick : Caller → Bool
  | cardWait _ _ _ _ => true
  | _ => false

/-- `run_deal` waits for the cards of a trick. -/
def MainPc.inTrick : MainPc → Bool
  | turnSet _ | turnSend _ _ | cardPoll _ _ | cardScan _ _ _ _ | trickEnd => true
  | barrierReset r | barrierAsk _ r | barrierPoll r | barrierScan _ r => r.inTrick
  | barrierResend _ _ r | barrierRelease _ r => r.inTrick
  | _ => false

/-- **The invariant of the tricks**: the number of the trick, the tricks taken and what is asked
for belong together. -/
structure TrickCount (sh : Shared) (m : Main) : Prop where
  number : ∀ n, m.pc.trick m.i = some n → sh.trickNumber = n ∧ m.i < 13
  bound : sh.trickNumber ≤ 13
  taken : sh.takenTricks.length ≤ sh.trickNumber
  start : m.pc = .dealStart → sh.takenTricks = []
  inTrick : m.pc.inTrick = true → sh.takenTricks.length < sh.trickNumber ∧
    ∀ s, .taken ∉ sh.serverWritePipes s
  bytes : ∀ s b, b = .cardPlay ∨ b = .taken → b ∈ sh.serverWritePipes s → 1 ≤ sh.trickNumber
  turn : sh.playerTurn ≠ none → 1 ≤ sh.trickNumber

/-- `run_deal` is about to set `trick_number`. -/
def MainPc.setsTrick : MainPc → Bool
  | dealStart | trickStart => true
  | _ => false

/-! ### The moves keep the invariant of the tricks -/

section Count

variable {sh sh' : Shared} {m m' : Main} {c : ℕ} {t t' : Thread} {o : Outcome}

lemma ThreadMove.playerTurn (hm : ThreadMove sh c t o sh' t') :
    sh'.playerTurn = sh.playerTurn ∨ sh'.playerTurn = none := by
  cases hm with
  | accept => exact .inr rfl
  | notSent l p => cases p <;> exact .inl rfl
  | byte b rest => cases b <;> exact .inl rfl
  | close b => cases b <;> exact .inl rfl
  | _ => exact .inl rfl

lemma TrickCount.thread (h : TrickCount sh m) (hm : ThreadMove sh c t o sh' t') :
    TrickCount sh' m := by
  have hf := hm.framed
  refine ⟨?_, ?_, ?_, ?_, fun hp => ?_, fun s b hb hmem => ?_, fun hturn => ?_⟩
  · rw [hf.trickNumber]
    exact h.number
  · rw [hf.trickNumber]
    exact h.bound
  · rw [hf.trickNumber, hf.takenTricks]
    exact h.taken
  · rw [hf.takenTricks]
    exact h.start
  · rw [hf.trickNumber, hf.takenTricks]
    exact ⟨(h.inTrick hp).1, fun s hmem => (h.inTrick hp).2 s ((hm.writePipes s).mem hmem)⟩
  · rw [hf.trickNumber]
    exact h.bytes s b hb ((hm.writePipes s).mem hmem)
  · rw [hf.trickNumber]
    rcases hm.playerTurn with he | he
    · exact h.turn (he ▸ hturn)
    · exact absurd he hturn

private lemma TrickCount.goto (h : TrickCount sh m) (hn : sh'.trickNumber = sh.trickNumber)
    (ht : sh'.takenTricks = sh.takenTricks) (hp : sh'.playerTurn = sh.playerTurn)
    (hb : ∀ s b, b = .cardPlay ∨ b = .taken → b ∈ sh'.serverWritePipes s → b ∈ sh.serverWritePipes s)
    (hi : m'.i = m.i) (htrick : ∀ n, m'.pc.trick m.i = some n → m.pc.trick m.i = some n)
    (hstart : m'.pc ≠ .dealStart) (hin : m'.pc.inTrick = true → m.pc.inTrick = true) :
    TrickCount sh' m' := by
  refine ⟨?_, ?_, ?_, fun he => absurd he hstart, fun he => ?_, fun s b hbyte hmem => ?_, ?_⟩
  · rw [hn, hi]
    exact fun n hm' => h.number n (htrick n hm')
  · rw [hn]
    exact h.bound
  · rw [hn, ht]
    exact h.taken
  · rw [hn, ht]
    exact ⟨(h.inTrick (hin he)).1, fun s hmem => (h.inTrick (hin he)).2 s (hb s _ (.inr rfl) hmem)⟩
  · rw [hn]
    exact h.bytes s b hbyte (hb s b hbyte hmem)
  · rw [hn, hp]
    exact h.turn

private lemma mem_of_tell {s₀ : Seat} {b₀ : Byte} (h : b₀ ≠ .cardPlay ∧ b₀ ≠ .taken) :
    ∀ s b, b = .cardPlay ∨ b = .taken → b ∈ (sh.tell s₀ b₀).serverWritePipes s →
      b ∈ sh.serverWritePipes s := by
  intro s b hb hmem
  rcases Shared.mem_tell.mp hmem with hmem | ⟨-, rfl⟩
  · exact hmem
  · rcases hb with rfl | rfl
    · exact absurd rfl h.1
    · exact absurd rfl h.2

lemma TrickCount.endOfTrick {s : Seat} (h : TrickCount sh m)
    (hpc : m.pc = .barrierRelease [s] .endOfTrick) :
    TrickCount (sh.tell s .barrierEnd) (m.afterBarrier .endOfTrick) := by
  obtain ⟨hn, -⟩ := h.number (m.i + 1) (by rw [hpc]; rfl)
  have hmem : ∀ s' b, b = .cardPlay ∨ b = .taken →
      b ∈ (sh.tell s .barrierEnd).serverWritePipes s' → 1 ≤ sh.trickNumber := by
    intro _ _ _ _
    omega
  simp only [Main.afterBarrier]
  split
  · rename_i hi
    refine ⟨fun n hn' => ?_, h.bound, h.taken, by simp, fun hin => (by cases hin), hmem, h.turn⟩
    cases hn'
    exact ⟨hn, hi⟩
  · exact ⟨fun n hn' => (by cases hn'), h.bound, h.taken, by simp, fun hin => (by cases hin), hmem,
      h.turn⟩

lemma TrickCount.main (h : TrickCount sh m) (hm : MainMove sh m sh' m')
    (hset : m.pc.setsTrick = true → (∀ s, .cardPlay ∉ sh.serverWritePipes s ∧
      .taken ∉ sh.serverWritePipes s) ∧ sh.playerTurn = none) : TrickCount sh' m' := by
  have hpos : ∀ n, m.pc.trick m.i = some (n + 1) → 1 ≤ sh.trickNumber := fun n hn => by
    rw [(h.number _ hn).1]
    omega
  cases hm with
  | load d rest hpc hd =>
    refine ⟨fun n hn => (nomatch hn), h.bound, Nat.zero_le _, fun _ => rfl, fun hin => (nomatch hin),
      h.bytes, h.turn⟩
  | start hpc =>
    obtain ⟨hbytes, hturn⟩ := hset (by rw [hpc]; rfl)
    refine ⟨fun n hn => ?_, Nat.zero_le _, ?_, fun he => (nomatch he), fun hin => (nomatch hin),
      fun s b hb hmem => ?_, fun he => absurd hturn he⟩
    · cases hn
      exact ⟨rfl, Nat.zero_lt_succ 12⟩
    · exact (congrArg List.length (h.start hpc)).le
    · rcases hb with rfl | rfl
      · exact absurd hmem (hbytes s).1
      · exact absurd hmem (hbytes s).2
  | trick hpc =>
    obtain ⟨hbytes, hturn⟩ := hset (by rw [hpc]; rfl)
    obtain ⟨hn, hi⟩ := h.number m.i (by rw [hpc]; rfl)
    refine ⟨fun n hn' => ?_, by simp only; omega, ?_, by simp, fun _ => ⟨?_, fun s => (hbytes s).2⟩,
      fun _ _ _ _ => by simp only; omega, fun _ => by simp only; omega⟩
    · cases hn'
      exact ⟨by simp only; omega, hi⟩
    · exact h.taken.trans (Nat.le_succ _)
    · exact Nat.lt_succ_of_le h.taken
  | turnSet s rest hpc =>
    have hnum := h.number
    have hin := h.inTrick
    rw [hpc] at hnum hin
    exact ⟨hnum, h.bound, h.taken, by simp, hin, h.bytes, fun _ => hpos _ (by rw [hpc]; rfl)⟩
  | turnSend s rest hpc =>
    have hnum := h.number
    obtain ⟨hlt, hno⟩ := h.inTrick (by rw [hpc]; rfl)
    rw [hpc] at hnum
    refine ⟨hnum, h.bound, h.taken, by simp, fun _ => ⟨hlt, fun s' hmem => ?_⟩,
      fun s' b hb hmem => hpos _ (by rw [hpc]; rfl), h.turn⟩
    rcases Shared.mem_tell.mp hmem with hmem | ⟨-, hb⟩
    · exact hno s' hmem
    · cases hb
  | announce b s left hpc =>
    cases b with
    | taken =>
      have hnum := h.number
      rw [hpc] at hnum
      exact ⟨hnum, h.bound, h.taken, by simp, fun hin => (nomatch hin),
        fun _ _ _ _ => hpos _ (by rw [hpc]; rfl), h.turn⟩
    | _ =>
      exact h.goto rfl rfl rfl (mem_of_tell (by decide)) rfl (by rw [hpc]; exact fun _ hn => hn)
        (by simp) (fun hin => (nomatch hin))
  | announceLast b s hpc =>
    cases b with
    | taken =>
      have hnum := h.number
      rw [hpc] at hnum
      exact ⟨hnum, h.bound, h.taken, nofun, fun hin => (nomatch hin),
        fun _ _ _ _ => hpos _ (by rw [hpc]; rfl), h.turn⟩
    | _ =>
      exact h.goto rfl rfl rfl (mem_of_tell (by decide)) rfl (by rw [hpc]; exact fun _ hn => hn)
        nofun (fun hin => (nomatch hin))
  | trickEnd calculator taker points hpc =>
    have hnum := h.number
    obtain ⟨hlt, hno⟩ := h.inTrick (by rw [hpc]; rfl)
    rw [hpc] at hnum
    refine ⟨hnum, h.bound, ?_, by simp, fun hin => (nomatch hin), h.bytes, h.turn⟩
    rw [List.length_append]
    exact hlt
  | releaseLast s r hpc =>
    cases r with
    | endOfTrick => exact h.endOfTrick hpc
    | _ =>
      exact h.goto rfl rfl rfl (mem_of_tell (by decide)) rfl (by rw [hpc]; exact fun _ hn => hn)
        nofun (by rw [hpc]; exact fun hin => hin)
  | ask s left r hpc | askLast s r hpc | resend s ready r hpc | release s left r hpc
  | closeSeat s left e w hpc =>
    exact h.goto rfl rfl rfl (mem_of_tell (by decide)) rfl (by rw [hpc]; exact fun _ hn => hn)
      (by simp) (by rw [hpc]; exact fun hin => hin)
  | reset r hpc | poll ready r hpc | lost s ready r rest hpc | woken s ready r rest hpc
  | badBarrier s ready r b rest hpc | stay r hpc | pass r hpc | gameOver hpc
  | cardPoll s rest ready hpc | gotCard s rest ready got left hpc
  | lostPlayer s j rest ready got left hpc | badDeal s j rest ready got b left hpc
  | waitOn s rest hpc | nextTurn s rest hpc | lastTurn s hpc | dealEnd hpc | close e w hpc =>
    exact h.goto rfl rfl rfl (fun _ _ _ hmem => hmem) rfl
      (by rw [hpc]; first | exact fun _ hn => hn | exact fun _ hn => (nomatch hn))
      nofun (by rw [hpc]; first | exact fun hin => hin | exact fun hin => (nomatch hin))

end Count

/-! ### The cards on the table -/

/-- **The invariant of the table**: its cards are cards, and from the end of a trick until it is told
there are four of them. -/
structure Tabled (sh : Shared) (pc : MainPc) : Prop where
  cards : ∀ card ∈ sh.cardsOnTable, IsCard card
  tricks : ∀ trick ∈ sh.takenTricks, ∀ card ∈ trick, IsCard card
  told : ∀ s, .taken ∈ sh.serverWritePipes s → sh.cardsOnTable.length = 4
  telling : ∀ left, pc = .announce .taken left → sh.cardsOnTable.length = 4
  quiet : pc.upcoming.isSome → ∀ s, .taken ∉ sh.serverWritePipes s

section Table

variable {sh sh' : Shared} {pc : MainPc} {m m' : Main} {v : ℕ → View} {c : ℕ} {t t' : Thread} {o : Outcome}

lemma PlaysOn.table_le (h : PlaysOn sh pc m) {s : Seat} (ho : Open sh pc s) :
    sh.cardsOnTable.length ≤ 3 := by
  obtain ⟨hlt, -⟩ := List.getElem?_eq_some_iff.mp (h.next_seat ho).2.2
  exact Nat.le_of_lt_succ hlt

lemma Tabled.thread (h : Tabled sh pc) (hp : PlaysOn sh pc m) (hturn : TurnInv sh pc v)
    (hv : v c = t.view) (hm : ThreadMove sh c t o sh' t') : Tabled sh' pc := by
  have htaken : ∀ s, .taken ∈ sh'.serverWritePipes s → .taken ∈ sh.serverWritePipes s :=
    fun s hmem => (hm.writePipes s).mem hmem
  obtain ⟨hcourse, ⟨-, htable, -⟩ | ⟨card, hc, ha, -, -, htable, -⟩⟩ := hm.game
  all_goals
    simp only [Shared.course, Prod.mk.injEq] at hcourse
    obtain ⟨-, -, -, htricks, -⟩ := hcourse
  · refine ⟨by rw [htable]; exact h.cards, by rw [htricks]; exact h.tricks, fun s hmem => ?_,
      fun left hpc => ?_, fun hup s hmem => h.quiet hup s (htaken s hmem)⟩
    · rw [htable]
      exact h.told s (htaken s hmem)
    · rw [htable]
      exact h.telling left hpc
  · -- a card is laid in a turn only, and nothing is told then
    obtain ⟨hup, -⟩ := hp.next_seat (hturn.accepts_open hv ha)
    refine ⟨fun x hx => ?_, by rw [htricks]; exact h.tricks,
      fun s hmem => absurd (htaken s hmem) (h.quiet hup s), fun left hpc => ?_, fun _ s hmem => h.quiet hup s (htaken s hmem)⟩
    · rw [htable, List.mem_append, List.mem_singleton] at hx
      rcases hx with hx | rfl
      · exact h.cards x hx
      · exact hp.cards t.seat x ((hp.game.sublist t.seat).subset hc)
    · rw [hpc] at hup
      cases hup

private lemma Tabled.goto {pc' : MainPc} (h : Tabled sh pc) (htable : sh'.cardsOnTable = sh.cardsOnTable)
    (htricks : ∀ trick ∈ sh'.takenTricks, trick ∈ sh.takenTricks)
    (hpipes : ∀ s, .taken ∈ sh'.serverWritePipes s → .taken ∈ sh.serverWritePipes s)
    (htelling : ∀ left, pc' ≠ .announce .taken left)
    (hup : pc'.upcoming.isSome → pc.upcoming.isSome) : Tabled sh' pc' := by
  refine ⟨by rw [htable]; exact h.cards, fun trick ht => h.tricks trick (htricks trick ht), fun s hmem => ?_,
    fun left hpc => absurd hpc (htelling left), fun hu s hmem => h.quiet (hup hu) s (hpipes s hmem)⟩
  rw [htable]
  exact h.told s (hpipes s hmem)

private lemma taken_of_tell {s₀ : Seat} {b : Byte} (hb : b ≠ .taken) :
    ∀ s, .taken ∈ (sh.tell s₀ b).serverWritePipes s → .taken ∈ sh.serverWritePipes s := by
  intro s hmem
  rcases Shared.mem_tell.mp hmem with hmem | ⟨-, he⟩
  · exact hmem
  · exact absurd he.symm hb

lemma Tabled.main (h : Tabled sh m.pc) (hp : PlaysOn sh m.pc m) (hm : MainMove sh m sh' m')
    (hset : m.pc.setsTrick = true → ∀ s, .taken ∉ sh.serverWritePipes s) : Tabled sh' m'.pc := by
  cases hm with
  | trick hpc =>
    have hno := hset (by rw [hpc]; rfl)
    exact ⟨fun card hc => (by cases hc), h.tricks, fun s hmem => absurd hmem (hno s),
      fun left he => (by cases he), fun _ => hno⟩
  | trickEnd calculator taker points hpc =>
    have hquiet := h.quiet (by rw [hpc]; rfl)
    rw [hpc] at hp
    refine ⟨h.cards, fun trick ht => ?_, fun s hmem => absurd hmem (hquiet s), fun _ _ => hp.full_trick,
      fun hu => (by cases hu)⟩
    rcases List.mem_append.mp ht with ht | ht
    · exact h.tricks trick ht
    · rw [List.mem_singleton.mp ht]
      exact h.cards
  | announce b s left hpc =>
    cases b with
    | taken => exact ⟨h.cards, h.tricks, fun _ _ => h.telling _ hpc, fun _ _ => h.telling _ hpc,
        fun hu => (by cases hu)⟩
    | _ => exact h.goto rfl (fun _ ht => ht) (taken_of_tell (by decide)) (by simp) (fun hu => (by cases hu))
  | announceLast b s hpc =>
    cases b with
    | taken => exact ⟨h.cards, h.tricks, fun _ _ => h.telling _ hpc, fun left he => (by cases he),
        fun hu => (by cases hu)⟩
    | _ =>
      exact h.goto rfl (fun _ ht => ht) (taken_of_tell (by decide)) (by simp [Main.afterBulletin])
        (fun hu => (by cases hu))
  | releaseLast s r hpc =>
    have hpc' := m.afterBarrier_pc (P := fun r pc => (∀ left, pc ≠ .announce .taken left) ∧
        (pc.upcoming.isSome → (MainPc.barrierRelease [s] r).upcoming.isSome)) r
      ⟨by simp, fun hu => (by cases hu)⟩ (fun _ _ _ _ => ⟨by simp, fun hu => hu⟩)
      ⟨by simp, fun hu => (by cases hu)⟩ ⟨by simp, fun hu => (by cases hu)⟩
      ⟨by simp, fun hu => (by cases hu)⟩
    exact h.goto rfl (fun _ ht => ht) (taken_of_tell (by decide)) hpc'.1 (by rw [hpc]; exact hpc'.2)
  | badBarrier s ready r b rest hpc =>
    refine h.goto rfl (fun _ ht => ht) (fun _ hmem => hmem) (by simp) fun hu => ?_
    rw [hpc]
    cases r with
    | cardWait => rfl
    | startGame | endOfTrick | endOfDeal => cases hu
  | load d rest hpc =>
    exact h.goto rfl (fun _ ht => (by cases ht)) (fun _ hmem => hmem) (by simp [Main.loadDeal])
      (fun hu => (by cases hu))
  | ask s left r hpc | askLast s r hpc | resend s ready r hpc | release s left r hpc
  | turnSend s rest hpc | closeSeat s left e w hpc =>
    exact h.goto rfl (fun _ ht => ht) (taken_of_tell (by decide)) (by simp)
      (by rw [hpc]; exact fun hu => hu)
  | badDeal s j rest ready got b left hpc =>
    exact h.goto rfl (fun _ ht => ht) (fun _ hmem => hmem) (by simp) (by rw [hpc]; exact fun _ => rfl)
  | start hpc | gameOver hpc | dealEnd hpc =>
    exact h.goto rfl (fun _ ht => ht) (fun _ hmem => hmem) (by simp [Main.startDeal, Main.endDeal])
      (fun hu => (by cases hu))
  | reset r hpc | poll ready r hpc | lost s ready r rest hpc | woken s ready r rest hpc | stay r hpc
  | pass r hpc | turnSet s rest hpc | cardPoll s rest ready hpc | gotCard s rest ready got left hpc
  | lostPlayer s j rest ready got left hpc | waitOn s rest hpc | close e w hpc =>
    exact h.goto rfl (fun _ ht => ht) (fun _ hmem => hmem) (by simp) (by rw [hpc]; exact fun hu => hu)
  | nextTurn s rest hpc | lastTurn s hpc =>
    exact h.goto rfl (fun _ ht => ht) (fun _ hmem => hmem) (by simp) (by rw [hpc]; exact fun _ => rfl)

end Table

end Kierki.Serwer
