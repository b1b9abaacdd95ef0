import Kierki.Serwer.Bytes
import Kierki.Serwer.Suits
import Kierki.Serwer.Turn

/-!
# A deal through departures

Clients may leave in the middle of a trick and come back, and `run_deal` then waits in `barrier` before
it goes on with the card it waited for. The deal is played by the rules all the same, as long as no
thread has the permission to play twice: no card is lost or doubled, nobody plays out of turn, and
nobody revokes.
-/

namespace Kierki.Serwer

open Lib.Lts

/-! ### Where the deal is -/

/-- The seats of the trick from which a card is still to be heard of, the one asked first; `none`
outside the tricks. -/
def MainPc.toPlay : MainPc → Option (List Seat)
  | turnSet left => some left
  | turnSend s rest | cardPoll s rest | cardScan s rest _ _ => some (s :: rest)
  | trickEnd => some []
  | _ => none

def Caller.taken (i : ℕ) : Caller → Option ℕ
  | endOfTrick => some (i + 1)
  | _ => none

/-- The number of the tricks taken, by the loop counter of `run_deal`. -/
def MainPc.taken (i : ℕ) : MainPc → Option ℕ
  | dealStart => some 0
  | announce .deal _ | trickStart | turnSet _ | turnSend _ _ | cardPoll _ _ => some i
  | cardScan _ _ _ _ | trickEnd => some i
  | announce .taken _ => some (i + 1)
  | pc => pc.caller.bind (Caller.taken i)

def Caller.endsDeal : Caller → Bool
  | endOfDeal => true
  | _ => false

/-- `run_deal` has left its loop over the tricks. -/
def MainPc.dealDone : MainPc → Bool
  | dealEnd | announce .scores _ => true
  | pc => pc.caller.any Caller.endsDeal

/-- The seats of the trick from which a card is still to be heard of, at a call of `barrier`. -/
def Caller.toPlay : Caller → Option (List Seat)
  | cardWait s rest _ _ => some (s :: rest)
  | _ => none

/-- The seats from which a card is still to be heard of, with the calls from the wait for one included:
`barrier` goes on with them, `close_server` knows the first only. -/
def MainPc.upcoming : MainPc → Option (List Seat)
  | closeServer _ wait | closeSeats _ _ wait => wait.map fun s => [s]
  | pc => (pc.caller.bind Caller.toPlay).or pc.toPlay

def Caller.tricks (i : ℕ) : Caller → Option ℕ
  | cardWait _ _ _ _ => some i
  | r => r.taken i

/-- The number of the tricks taken, by the loop counter of `run_deal`. -/
def MainPc.tricks (i : ℕ) (pc : MainPc) : Option ℕ := (pc.caller.bind (Caller.tricks i)).or (pc.taken i)

/-- The deal in play, as the fields of the server show it. -/
def Shared.inPlay (sh : Shared) (pc : MainPc) : Game where
  hands := sh.cards
  tricks := sh.takenTricks
  takers := sh.takenTakers
  table := if pc.upcoming.isSome then sh.cardsOnTable else []

/-- A card was accepted of which `run_deal` is still to hear. -/
def heardLate (sh : Shared) (pc : MainPc) : ℕ :=
  if pc.wait.isSome ∧ acceptedSinceTurn sh.log = true then 1 else 0

/-- **The invariant of the deal**: it is played by the rules, and the main thread is where the cards
say. -/
structure PlaysOn (sh : Shared) (pc : MainPc) (m : Main) : Prop where
  game : Game.ByRules sh.deal sh.dealStarter (sh.inPlay pc)
  suited : (sh.inPlay pc).Suited sh.dealStarter
  cards : ∀ s, ∀ card ∈ sh.deal s, IsCard card
  leads : pc ≠ .dealStart → sh.lastTaker = leader sh.dealStarter sh.takenTakers
  starts : pc = .dealStart → m.seat = leader sh.dealStarter sh.takenTakers
  begins : pc.upcoming.isSome → m.beginning = sh.lastTaker
  served : ∀ left, pc.upcoming = some left → ∃ served after, m.beginning.order = served ++ left ++ after ∧
    sh.cardsOnTable.length = served.length + heardLate sh pc ∧ (pc.errorMessage = none → after = [])
  taken : ∀ n, pc.tricks m.i = some n → sh.takenTricks.length = n
  done : pc.dealDone = true → 13 ≤ sh.takenTricks.length

/-! ### The seat threads -/

section Thread

variable {sh sh' : Shared} {pc : MainPc} {m : Main} {v : ℕ → View} {c : ℕ} {t t' : Thread} {o : Outcome}

lemma MainPc.upcoming_of_wait {s : Seat} (h : pc.wait = some s) : ∃ rest, pc.upcoming = some (s :: rest) := by
  have hcaller : ∀ r : Caller, r.wait = some s → ∃ rest, r.toPlay.or none = some (s :: rest) := by
    intro r hr
    cases r with
    | cardWait s' rest got ready =>
      obtain rfl := Option.some.inj hr
      exact ⟨rest, rfl⟩
    | startGame | endOfTrick | endOfDeal => cases hr
  cases pc with
  | barrierReset r | barrierAsk _ r | barrierPoll r | barrierScan _ r | barrierResend _ _ r
  | barrierRelease _ r => exact hcaller r h
  | turnSend s' rest | cardPoll s' rest | cardScan s' rest _ _ =>
    obtain rfl := Option.some.inj h
    exact ⟨rest, rfl⟩
  | closeServer e w | closeSeats l e w =>
    obtain rfl : w = some s := h
    exact ⟨[], rfl⟩
  | nextDeal | dealStart | announce _ _ | trickStart | turnSet _ | trickEnd | dealEnd => cases h

lemma PlaysOn.next_seat (h : PlaysOn sh pc m) {s : Seat} (ho : Open sh pc s) :
    pc.upcoming.isSome ∧ pc ≠ .dealStart ∧
      (leader sh.dealStarter sh.takenTakers).order[sh.cardsOnTable.length]? = some s := by
  obtain ⟨rest, hplay⟩ := MainPc.upcoming_of_wait ho.1
  have hsome : pc.upcoming.isSome := by
    rw [hplay]
    rfl
  have hnot : pc ≠ .dealStart := by
    rintro rfl
    cases hplay
  obtain ⟨served, after, horder, hlength, -⟩ := h.served _ hplay
  refine ⟨hsome, hnot, ?_⟩
  rw [← h.leads hnot, ← h.begins hsome, horder, hlength, heardLate, if_neg (by simp [ho.2])]
  simp

/-- **A seat thread keeps the invariant**: it changes the deal by a card of the seat whose turn is open. -/
theorem PlaysOn.thread (h : PlaysOn sh pc m) (hturn : TurnInv sh pc v) (hv : v c = t.view)
    (hm : ThreadMove sh c t o sh' t') : PlaysOn sh' pc m := by
  obtain ⟨hcourse, hcards⟩ := hm.game
  simp only [Shared.course, Prod.mk.injEq] at hcourse
  obtain ⟨hdeal, hstarter, hlast, htricks, htakers⟩ := hcourse
  have hleads := h.leads
  have hstarts := h.starts
  have hbegins := h.begins
  have htaken := h.taken
  have hdone := h.done
  rcases hcards with ⟨hcards, htable, hacc⟩ | ⟨card, hc, ha, hfollows, hcards, htable, hacc⟩
  · have hg : sh'.inPlay pc = sh.inPlay pc := by
      simp only [Shared.inPlay, hcards, htable, htricks, htakers]
    refine ⟨?_, ?_, by rw [hdeal]; exact h.cards, by rwa [hlast, hstarter, htakers],
      by rwa [hstarter, htakers], by rwa [hlast], ?_, by rwa [htricks], by rwa [htricks]⟩
    · rw [hdeal, hstarter, hg]
      exact h.game
    · rw [hstarter, hg]
      exact h.suited
    · rw [htable, heardLate, hacc]
      exact h.served
  · have ho := hturn.accepts_open hv ha
    obtain ⟨hsome, hnot, hnext⟩ := h.next_seat ho
    have htable' : (sh.inPlay pc).table = sh.cardsOnTable := if_pos hsome
    have hlate : heardLate sh pc = 0 := if_neg (by simp [ho.2])
    have hlate' : heardLate sh' pc = 1 := if_pos ⟨by rw [ho.1]; rfl, hacc⟩
    have hg : sh'.inPlay pc = (sh.inPlay pc).lay t.seat card := by
      simp only [Shared.inPlay, Game.lay, hcards, htable, htricks, htakers, hsome, if_true]
    refine ⟨?_, ?_, by rw [hdeal]; exact h.cards, by rwa [hlast, hstarter, htakers],
      by rwa [hstarter, htakers], by rwa [hlast], fun left hleft => ?_, by rwa [htricks], by rwa [htricks]⟩
    · rw [hdeal, hstarter, hg]
      exact h.game.lay _ t.seat card (by rwa [htable']) hc
    · rw [hstarter, hg]
      exact h.suited.lay (by rwa [htable']) hc (by rwa [htable'])
    · obtain ⟨served, after, horder, hlength, hafter⟩ := h.served left hleft
      refine ⟨served, after, horder, ?_, hafter⟩
      rw [htable, hlate', List.length_append, hlength, hlate]
      rfl

end Thread

/-! ### The main thread -/

section Main

variable {sh sh' : Shared} {m m' : Main} {v : ℕ → View}

lemma MainPc.of_toPlay {pc : MainPc} {left : List Seat} (h : pc.toPlay = some left) (i : ℕ) :
    pc.taken i = some i ∧ pc.dealDone = false ∧ pc.errorMessage = none ∧ pc ≠ .dealStart := by
  cases pc <;> first | cases h; done | exact ⟨rfl, rfl, rfl, by simp⟩

/-- A step of the main thread that means nothing for the deal, but that `close_server` may begin. -/
structure Idle (sh : Shared) (m : Main) (sh' : Shared) (m' : Main) : Prop where
  course : sh'.course = sh.course
  cards : sh'.cards = sh.cards
  table : sh'.cardsOnTable = sh.cardsOnTable
  upcoming : m'.pc.upcoming = m.pc.upcoming ∧ (m'.pc.errorMessage = none → m.pc.errorMessage = none) ∨
    ∃ s rest, m.pc.upcoming = some (s :: rest) ∧ m'.pc.upcoming = some [s] ∧ m'.pc.errorMessage ≠ none
  late : heardLate sh' m'.pc = heardLate sh m.pc
  beginning : m'.beginning = m.beginning
  started : m.pc ≠ .dealStart ∧ m'.pc ≠ .dealStart
  tricks : ∀ n, m'.pc.tricks m'.i = some n → m.pc.tricks m.i = some n
  done : m'.pc.dealDone = true → m.pc.dealDone = true ∨ ∃ n ≥ 13, m.pc.tricks m.i = some n

lemma PlaysOn.idle (h : PlaysOn sh m.pc m) (hi : Idle sh m sh' m') : PlaysOn sh' m'.pc m' := by
  have hcourse := hi.course
  simp only [Shared.course, Prod.mk.injEq] at hcourse
  obtain ⟨hdeal, hstarter, hlast, htricks, htakers⟩ := hcourse
  have hsome : m'.pc.upcoming.isSome = m.pc.upcoming.isSome := by
    obtain ⟨hsame, -⟩ | ⟨s, rest, hold, hnew, -⟩ := hi.upcoming
    · rw [hsame]
    · rw [hold, hnew]
      rfl
  have hg : sh'.inPlay m'.pc = sh.inPlay m.pc := by
    simp only [Shared.inPlay, hi.cards, hi.table, htricks, htakers, hsome]
  refine ⟨?_, ?_, by rw [hdeal]; exact h.cards, fun _ => ?_, fun hd => absurd hd hi.started.2, fun hp => ?_,
    fun left hleft => ?_, fun n hn => ?_, fun hd => ?_⟩
  · rw [hdeal, hstarter, hg]
    exact h.game
  · rw [hstarter, hg]
    exact h.suited
  · rw [hlast, hstarter, htakers]
    exact h.leads hi.started.1
  · rw [hi.beginning, hlast]
    exact h.begins (hsome ▸ hp)
  · rw [hi.beginning, hi.table, hi.late]
    obtain ⟨hsame, herror⟩ | ⟨s, rest, hold, hnew, herror⟩ := hi.upcoming
    · obtain ⟨served, after, horder, hlength, hafter⟩ := h.served left (hsame ▸ hleft)
      exact ⟨served, after, horder, hlength, fun he => hafter (herror he)⟩
    · obtain ⟨served, after, horder, hlength, -⟩ := h.served _ hold
      obtain rfl : [s] = left := Option.some.inj (hnew.symm.trans hleft)
      exact ⟨served, rest ++ after, by simp [horder], hlength, fun he => absurd he herror⟩
  · rw [htricks]
    exact h.taken n (hi.tricks n hn)
  · rw [htricks]
    obtain hold | ⟨n, hn, htaken⟩ := hi.done hd
    · exact h.done hold
    · rw [h.taken n htaken]
      exact hn

lemma PlaysOn.next {s : Seat} {rest : List Seat} {pc' : MainPc} (h : PlaysOn sh m.pc m)
    (hpc : m.pc = .cardScan s rest true []) (hacc : acceptedSinceTurn sh.log = true)
    (hplay' : pc'.toPlay = some rest) (hw : pc'.wait = none) : PlaysOn sh pc' (m.goto pc') := by
  rw [hpc] at h
  obtain ⟨htaken', hdone', herror', hnot'⟩ := MainPc.of_toPlay hplay' m.i
  obtain ⟨hup', htricks'⟩ : pc'.upcoming = some rest ∧ pc'.tricks m.i = some m.i := by
    cases pc' <;> first | cases hplay'; done | exact ⟨hplay', rfl⟩
  have hg : sh.inPlay pc' = sh.inPlay (.cardScan s rest true []) := by
    simp only [Shared.inPlay, hup']
    rfl
  refine ⟨by rw [hg]; exact h.game, by rw [hg]; exact h.suited, h.cards, fun _ => h.leads (by simp),
    fun hd => absurd hd hnot', fun _ => h.begins rfl, fun left hleft => ?_, fun n hn => ?_,
    fun hd => by simp [hdone'] at hd⟩
  · obtain rfl : rest = left := Option.some.inj (hup'.symm.trans hleft)
    obtain ⟨served, after, horder, hlength, hafter⟩ := h.served (s :: rest) rfl
    have hlate : heardLate sh (.cardScan s rest true []) = 1 := if_pos ⟨rfl, hacc⟩
    have hlate' : heardLate sh pc' = 0 := if_neg (by simp [hw])
    refine ⟨served ++ [s], after, ?_, ?_, fun _ => hafter rfl⟩
    · show m.beginning.order = _
      rw [horder]
      simp
    · rw [hlength, hlate, hlate', List.length_append]
      rfl
  · obtain rfl : m.i = n := Option.some.inj (htricks'.symm.trans hn)
    exact h.taken m.i rfl

lemma PlaysOn.full_trick (h : PlaysOn sh .trickEnd m) : sh.cardsOnTable.length = 4 := by
  obtain ⟨served, after, horder, hlength, hafter⟩ := h.served [] rfl
  obtain rfl := hafter rfl
  rw [List.append_nil, List.append_nil] at horder
  rw [hlength, ← horder]
  rfl

lemma PlaysOn.trickEnd {calculator : PointsCalculator} {trickType n : ℕ} (h : PlaysOn sh .trickEnd m)
    (hc : PointsCalculator.construct sh.cardsOnTable m.beginning trickType n = some calculator)
    (hi : m'.i = m.i) :
    PlaysOn { sh with
      lastTaker := calculator.findTaker
      takenTricks := sh.takenTricks ++ [sh.cardsOnTable]
      takenTakers := sh.takenTakers ++ [calculator.findTaker] } (.announce .taken Seat.all) m' := by
  have hlead : m.beginning = leader sh.dealStarter sh.takenTakers :=
    (h.begins rfl).trans (h.leads (by simp))
  refine ⟨?_, ?_, h.cards, fun _ => (leader_append _ _ _).symm, fun hd => (by cases hd),
    fun hp => (by cases hp), fun left hleft => (by cases hleft), fun n hn => ?_, fun hd => (by cases hd)⟩
  · exact h.game.take _ trickType n calculator h.full_trick (hlead ▸ hc)
  · exact h.suited.take h.game.takenInOrder.lengths.1
  · obtain rfl : m'.i + 1 = n := Option.some.inj hn
    simp [h.taken m.i rfl, hi]

lemma idle_afterBarrier {s : Seat} {r : Caller} (hpc : m.pc = .barrierRelease [s] r)
    (hcourse : sh'.course = sh.course) (hcards : sh'.cards = sh.cards)
    (htable : sh'.cardsOnTable = sh.cardsOnTable)
    (hacc : acceptedSinceTurn sh'.log = acceptedSinceTurn sh.log) :
    Idle sh m sh' (m.afterBarrier r) := by
  have hlate : heardLate sh' (m.afterBarrier r).pc = heardLate sh m.pc := by
    obtain ⟨hw, -, -⟩ := wait_afterBarrier (m := m) r
    rw [heardLate, heardLate, hw, hacc, hpc]
    rfl
  have hbeginning : (m.afterBarrier r).beginning = m.beginning := by cases r <;> rfl
  cases r with
  | startGame | endOfDeal =>
    exact ⟨hcourse, hcards, htable, .inl ⟨by rw [hpc]; rfl, fun _ => by rw [hpc]; rfl⟩, hlate,
      hbeginning, ⟨by simp [hpc], by simp [Main.afterBarrier]⟩, fun n hn => (by cases hn),
      fun hd => (by cases hd)⟩
  | cardWait s' rest got ready =>
    exact ⟨hcourse, hcards, htable, .inl ⟨by rw [hpc]; rfl, fun _ => by rw [hpc]; rfl⟩, hlate,
      hbeginning, ⟨by simp [hpc], by simp [Main.afterBarrier]⟩, fun n hn => by rw [hpc]; exact hn,
      fun hd => (by cases hd)⟩
  | endOfTrick =>
    have hold : m.pc.tricks m.i = some (m.i + 1) := by
      rw [hpc]
      rfl
    simp only [Main.afterBarrier] at hlate ⊢
    split at hlate <;> rename_i hmore
    · rw [if_pos hmore]
      exact ⟨hcourse, hcards, htable, .inl ⟨by rw [hpc]; rfl, fun _ => by rw [hpc]; rfl⟩, hlate, rfl,
        ⟨by simp [hpc], by simp⟩, fun n hn => hold.trans hn, fun hd => (by cases hd)⟩
    · rw [if_neg hmore]
      exact ⟨hcourse, hcards, htable, .inl ⟨by rw [hpc]; rfl, fun _ => by rw [hpc]; rfl⟩, hlate, rfl,
        ⟨by simp [hpc], by simp⟩, fun n hn => (by cases hn), fun _ => .inr ⟨_, not_lt.mp hmore, hold⟩⟩

lemma idle_badBarrier {s : Seat} {ready : List Seat} {r : Caller} {rest : List Byte}
    (hpc : m.pc = .barrierScan (s :: ready) r) :
    Idle sh m (sh.noticed s rest) (m.goto (.closeServer invalidInBarrier r.wait)) := by
  refine ⟨rfl, rfl, rfl, ?_, by rw [hpc]; rfl, rfl, ⟨by simp [hpc], by simp⟩, fun n hn => (by cases hn),
    fun hd => (by cases hd)⟩
  rw [hpc]
  cases r with
  | cardWait s' rest' got ready' => exact .inr ⟨s', rest', rfl, rfl, by simp [MainPc.errorMessage]⟩
  | startGame | endOfTrick | endOfDeal => exact .inl ⟨rfl, fun _ => rfl⟩

/-- **The main thread keeps the invariant.** -/
theorem PlaysOn.main (h : PlaysOn sh m.pc m) (hf : InFlight sh m.pc v) (hm : MainMove sh m sh' m') :
    PlaysOn sh' m'.pc m' := by
  cases hm with
  | load d rest hpc hd =>
    exact ⟨.start, ⟨.nil, fun a ha => (by cases ha)⟩, fun s card hc => isCard_of_extractCards hc,
      fun hd => absurd rfl hd, fun _ => rfl, fun hp => (by cases hp), fun left hl => (by cases hl),
      fun n hn => Option.some.inj hn, fun hd => (by cases hd)⟩
  | start hpc =>
    rw [hpc] at h
    exact ⟨h.game, h.suited, h.cards, fun _ => h.starts rfl, fun hd => (by cases hd),
      fun hp => (by cases hp), fun left hl => (by cases hl), h.taken, fun hd => (by cases hd)⟩
  | trick hpc =>
    rw [hpc] at h
    refine ⟨h.game, h.suited, h.cards, fun _ => h.leads (by simp), fun hd => (by cases hd), fun _ => rfl,
      fun left hl => ⟨[], [], ?_, rfl, fun _ => rfl⟩, h.taken, fun hd => (by cases hd)⟩
    rw [← Option.some.inj hl]
    simp
  | nextTurn s rest hpc hrest => exact h.next hpc (hf.received (by rw [hpc]; rfl)) rfl rfl
  | lastTurn s hpc => exact h.next hpc (hf.received (by rw [hpc]; rfl)) rfl rfl
  | trickEnd calculator taker points hpc hc hr =>
    rw [hpc] at h
    obtain rfl : calculator.findTaker = taker := congrArg Prod.fst hr
    exact h.trickEnd hc rfl
  | releaseLast s r hpc => exact h.idle (idle_afterBarrier hpc rfl rfl rfl rfl)
  | badBarrier s ready r b rest hpc => exact h.idle (idle_badBarrier hpc)
  | badDeal s j rest ready got b left hpc =>
    refine h.idle ⟨rfl, rfl, rfl, .inr ⟨s, rest, by rw [hpc]; rfl, rfl, by simp [MainPc.errorMessage]⟩,
      by rw [hpc]; rfl, rfl, ⟨by simp [hpc], by simp⟩, fun n hn => (by cases hn), fun hd => (by cases hd)⟩
  | announce b s left hpc =>
    cases b <;> exact h.idle ⟨rfl, rfl, rfl, .inl ⟨by rw [hpc]; rfl, fun _ => by rw [hpc]; rfl⟩,
      by rw [hpc]; rfl, rfl, ⟨by simp [hpc], by simp⟩, fun n hn => by rw [hpc]; exact hn,
      fun hd => .inl (by rw [hpc]; exact hd)⟩
  | announceLast b s hpc =>
    cases b <;> exact h.idle ⟨rfl, rfl, rfl, .inl ⟨by rw [hpc]; rfl, fun _ => by rw [hpc]; rfl⟩,
      by rw [hpc]; rfl, rfl, ⟨by simp [hpc], by simp [Main.afterBulletin]⟩,
      fun n hn => by rw [hpc]; exact hn, fun hd => .inl (by rw [hpc]; exact hd)⟩
  | gameOver hpc =>
    exact h.idle ⟨rfl, rfl, rfl, .inl ⟨by rw [hpc]; rfl, fun _ => by rw [hpc]; rfl⟩, by rw [hpc]; rfl, rfl,
      ⟨by simp [hpc], by simp⟩, fun n hn => (by cases hn), fun hd => (by cases hd)⟩
  | reset r hpc | ask s left r hpc | askLast s r hpc | poll ready r hpc | lost s ready r rest hpc
  | woken s ready r rest hpc | stay r hpc | pass r hpc | resend s ready r hpc | release s left r hpc
  | turnSet s rest hpc | turnSend s rest hpc | cardPoll s rest ready hpc | gotCard s rest ready got left hpc
  | lostPlayer s j rest ready got left hpc | waitOn s rest hpc | dealEnd hpc | close e w hpc
  | closeSeat s left e w hpc =>
    exact h.idle ⟨rfl, rfl, rfl, .inl ⟨by rw [hpc]; rfl, fun he => by rw [hpc]; exact he⟩, by rw [hpc]; rfl,
      rfl, ⟨by simp [hpc], by simp [Main.endDeal]⟩, fun n hn => by rw [hpc]; exact hn,
      fun hd => .inl (by rw [hpc]; exact hd)⟩

end Main

/-! ### The runs -/

/-- **The deal is played by the rules**, at every point of it. -/
structure ByTheRules (st : State) : Prop where
  /-- Four cards in each trick taken, one of each seat in turn from the taker of the one before. -/
  tricks : TakenInOrder st.sh.deal st.sh.dealStarter st.sh.takenTricks st.sh.takenTakers
  /-- The cards on the table are those of the seats in turn. -/
  table : InOrder st.sh.deal (leader st.sh.dealStarter st.sh.takenTakers)
    (st.sh.inPlay st.main.pc).table
  /-- The seat whose turn is open is the next. -/
  next : ∀ s, Open st.sh st.main.pc s →
    (leader st.sh.dealStarter st.sh.takenTakers).order[(st.sh.inPlay st.main.pc).table.length]? = some s
  /-- A trick ends with four cards, and `PointsCalculator` takes them. -/
  full : st.main.pc = .trickEnd →
    st.sh.cardsOnTable.length = 4 ∧ (Main.endTrick st.sh st.main).isSome
  /-- No card is lost, and none is doubled. -/
  kept : (Seat.all.flatMap st.sh.cards ++ st.sh.takenTricks.flatten ++
    (st.sh.inPlay st.main.pc).table).Perm (Seat.all.flatMap st.sh.deal)
  /-- Each trick takes one card out of each hand. -/
  hands : ∀ s, (st.sh.cards s).length + st.sh.takenTricks.length +
    (if s ∈ (leader st.sh.dealStarter st.sh.takenTakers).order.take
      (st.sh.inPlay st.main.pc).table.length then 1 else 0) = (st.sh.deal s).length
  /-- Nobody revokes. -/
  suits : ((st.sh.inPlay st.main.pc).lays st.sh.dealStarter).Pairwise Lay.NoRevoke ∧
    ∀ a ∈ (st.sh.inPlay st.main.pc).lays st.sh.dealStarter, a.suit ≠ a.led →
      ∀ card ∈ st.sh.cards a.seat, card.getLast? ≠ a.led
  /-- A deal of 13 cards for each ends with 13 tricks. -/
  done : st.main.pc.dealDone = true → (∀ s, (st.sh.deal s).length = 13) →
    st.sh.takenTricks.length = 13 ∧ ∀ s, st.sh.cards s = []

section Runs

variable {timeout : ℤ} {deals : List Deal} {st : State}

lemma playsOn (h : RunsTo TurnGuarded timeout deals st) : PlaysOn st.sh st.main.pc st.main := by
  refine h.invariant_with (I := fun st => PlaysOn st.sh st.main.pc st.main)
    (J := fun st => TurnInv st.sh st.main.pc st.view) (fun _ hr => turnInv hr) ?_ ?_
  · exact ⟨.start, ⟨.nil, fun a ha => (by cases ha)⟩, fun _ _ hc => (by cases hc), fun _ => rfl,
      fun hd => (by cases hd), fun hp => (by cases hp), fun _ hl => (by cases hl),
      fun _ hn => (by cases hn), fun hd => (by cases hd)⟩
  rintro st a st' hturn hi - hs
  obtain ⟨ready, rfl, hm, -⟩ | ⟨fd, rfl, hsh, hmain, -⟩ | ⟨c, o, rfl, hm, hmain, -⟩ := step_moves hs
  · exact hi.main hturn.flight hm
  · rw [hsh, hmain]
    exact hi
  · rw [hmain]
    exact hi.thread hturn rfl hm

lemma MainPc.not_upcoming_of_done {pc : MainPc} (h : pc.dealDone = true) : pc.upcoming = none := by
  have hcaller : ∀ r : Caller, r.endsDeal = true → r.toPlay.or none = none := by
    intro r hr
    cases r <;> first | rfl | cases hr
  cases pc with
  | barrierReset r | barrierAsk _ r | barrierPoll r | barrierScan _ r | barrierResend _ _ r
  | barrierRelease _ r => exact hcaller r h
  | _ => first | rfl | cases h

/-- **Every deal is played by the rules though clients leave and come back**, whatever lines they send and
whatever calls fail, in every run in which no thread has the permission to play twice. -/
theorem rules_kept (h : RunsTo TurnGuarded timeout deals st) : ByTheRules st := by
  have hp := playsOn h
  have hands := hp.game.length_hands
  refine ⟨hp.game.takenInOrder, hp.game.inOrder, fun s ho => ?_, fun hpc => ?_, hp.game.perm, hands,
    ⟨hp.suited.pairwise, hp.suited.hands⟩, fun hd h13 => ?_⟩
  · obtain ⟨hsome, -, hnext⟩ := hp.next_seat ho
    rw [show (st.sh.inPlay st.main.pc).table = st.sh.cardsOnTable from if_pos hsome]
    exact hnext
  · have hcards : ∀ card ∈ st.sh.cardsOnTable, IsCard card := by
      intro card hc
      have htable : card ∈ (st.sh.inPlay st.main.pc).table := by
        rw [hpc]
        exact hc
      obtain ⟨s, hs⟩ := hp.game.mem_table htable
      exact hp.cards s card hs
    rw [hpc] at hp
    refine ⟨hp.full_trick, ?_⟩
    unfold Main.endTrick
    rw [Option.isSome_map]
    exact PointsCalculator.construct_isSome hp.full_trick hcards _ _ _
  · have hup := MainPc.not_upcoming_of_done hd
    have hall : ∀ s, (st.sh.cards s).length + st.sh.takenTricks.length = 13 := by
      intro s
      have := hands s
      rw [h13 s] at this
      simpa [Shared.inPlay, hup] using this
    have hdone := hp.done hd
    refine ⟨?_, fun s => List.eq_nil_of_length_eq_zero ?_⟩
    · have := hall .N
      omega
    · have := hall s
      omega

/-- The client of connection `c` plays the card it was asked for, and the main thread hears of it. -/
def playsAsked (c : ℕ) (s : Seat) (card : Text) : List Act :=
  sends c (['T', 'R', 'I', 'C', 'K', '1'] ++ card ++ ['\r', '\n']) false 2 ++ [.main [s]] ++ mains 4

/-- The client of `E` leaves when it was asked for its first card, and `run_deal` waits in `barrier`. -/
def leavesInTurn : List Act :=
  opening ++ mains 8 ++ playsCard 0 .N ['2', 'C'] ++ hears 1 3 ++ hears 1 3 ++ hears 1 3 ++
  leaves 1 false 3 ++ [.main [.E]] ++ mains 6

/-- Another client takes the seat, `barrier` passes, and the trick goes on. -/
def comesBack : List Act :=
  asks 4 .E ++ ticks 4 7 ++ hears 4 1 ++ ticks 0 2 ++ hears 0 1 ++ hears 2 2 ++ hears 2 2 ++ hears 2 1 ++
  hears 3 2 ++ hears 3 2 ++ hears 3 2 ++ [.main [.W]] ++ mains 7 ++ hears 4 3 ++ playsAsked 4 .E ['2', 'D'] ++
  hears 2 3 ++ hears 2 3 ++ playsAsked 2 .S ['2', 'H'] ++ hears 3 3 ++ hears 3 3 ++ playsAsked 3 .W ['2', 'S']

/-- The first trick is taken, with the card of a client that came for the one that left. -/
theorem rules_kept_return : ∃ st, RunsTo TurnGuarded 5000 [suitsDeal] st ∧ ByTheRules st ∧
    .released 1 .E ∈ st.sh.log ∧ .accepted 4 .E ['2', 'D'] ∈ st.sh.log ∧
    st.sh.takenTricks = [[['2', 'C'], ['2', 'D'], ['2', 'H'], ['2', 'S']]] := by
  obtain ⟨st, hr, hp⟩ := exists_run TurnGuarded [suitsDeal] (leavesInTurn ++ comesBack)
    (fun st => decide (.released 1 .E ∈ st.sh.log ∧ .accepted 4 .E ['2', 'D'] ∈ st.sh.log ∧
      st.sh.takenTricks = [[['2', 'C'], ['2', 'D'], ['2', 'H'], ['2', 'S']]])) (by decide +kernel)
  exact ⟨st, hr, rules_kept hr, of_decide_eq_true hp⟩

end Runs

end Kierki.Serwer
