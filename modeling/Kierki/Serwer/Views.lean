import Kierki.Serwer.ThreadMoves

/-!
# What a thread can do

Of a seat thread the invariants see a `View`: in which part of the code it is (`Kind`), its seat,
its descriptor and its three flags. `Move` lists what one step of a thread can do to the shared
state and to its view, and `move_of_threadStep` says that the list is complete; the invariants are
proved from the list and never open `threadStep` again.
-/

namespace Kierki.Serwer

/-- What the invariants see of a thread. -/
structure View where
  kind : Kind
  seat : Seat
  clientFd : ℤ
  /-- `b_is_my_turn` -/
  myTurn : Bool
  /-- `b_was_destined_to_play` -/
  destined : Bool
  /-- `b_is_barrier` -/
  barrier : Bool

@[simps seat clientFd myTurn destined barrier] def Thread.view (t : Thread) : View where
  kind := t.pc.kind
  seat := t.seat
  clientFd := t.clientFd
  myTurn := t.bIsMyTurn
  destined := t.bWasDestinedToPlay
  barrier := t.bIsBarrier

@[simp] lemma Thread.view_start : (Thread.view {}).kind = .fresh := rfl

lemma Thread.kind_eq {t : Thread} {pc : Pc} (h : t.pc = pc) : t.view.kind = pc.kind :=
  congrArg Pc.kind h

/-- The count `close_thread` leaves. -/
def lessOne (occupied : ℤ) : ℤ := if int16 (occupied - 1) < 0 then 0 else int16 (occupied - 1)

/-- **What one step of the thread of connection `c` can do**, `o` being its outcome. -/
inductive Move (sh : Shared) (c : ℕ) (t : Thread) (o : Outcome) : Shared → View → Prop
  | quiet (q : Seat → List Text) : Move sh c t o { sh with barrierMessages := q } t.view
  | iam (s : Seat) (l : Text) (hk : t.view.kind = .fresh) (ho : o = .line l)
      (hs : Thread.iamSeat l = some s) : Move sh c t o sh { t.view with seat := s }
  | stop (hk : t.view.kind = .fresh) : Move sh c t o sh { t.view with kind := .finished }
  | take (k : Kind) (hpc : t.pc = .take) (hk : t.view.kind = .fresh) (hs : sh.seatsStatus t.seat = -1)
      (hk' : k = .reserve ∨ k = .joining ∧ sh.deal .N = [])
      (hd : k = .reserve → sh.deal .N ≠ []) :
      Move sh c t o
        ({ sh with seatsStatus := Function.update sh.seatsStatus t.seat t.clientFd }.note
          (.took c t.seat))
        { t.view with kind := k }
  | test (hk : t.view.kind = .reserve) :
      Move sh c t o sh { t.view with
        kind := .joining, myTurn := t.bIsMyTurn || decide (sh.playerTurn = some t.seat) }
  | lost (hk : t.view.kind = .reserve ∨ t.view.kind = .joining) (ho : o = .fail) :
      Move sh c t o (sh.note (.lost c t.seat)) { t.view with kind := .finished }
  | join (hpc : t.pc = .joinFlag) (hk : t.view.kind = .joining) :
      Move sh c t o sh { t.view with
        kind := .play, destined := t.bIsMyTurn, barrier := t.bIsBarrier || sh.bIsBarrierOngoing }
  | top (hk : t.view.kind = .play) (hb : t.bIsBarrier = true ∨ sh.bIsBarrierOngoing = true) :
      Move sh c t o sh { t.view with barrier := true }
  | topDrain (hk : t.view.kind = .play) (hb : t.bIsBarrier = false)
      (hf : sh.bIsBarrierOngoing = false) : Move sh c t o sh { t.view with kind := .parsing }
  | parse (hk : t.view.kind = .play) (hb : t.bIsBarrier = false) :
      Move sh c t o sh { t.view with kind := .parsing }
  | parsed (hk : t.view.kind = .parsing) : Move sh c t o sh { t.view with kind := .play }
  | accept (card : Text) (hk : t.view.kind = .parsing) (hd : t.bWasDestinedToPlay = true)
      (hc : card ∈ sh.cards t.seat) (ha : t.accepts sh = true) :
      Move sh c t o
        ({ sh with
            cards := Function.update sh.cards t.seat ((sh.cards t.seat).erase card)
            cardsOnTable := sh.cardsOnTable ++ [card]
            playerTurn := none }.note (.accepted c t.seat card))
        { t.view with kind := .card }
  | played (k : Kind) (hk : t.view.kind = .card) (hk' : k = .play ∨ k = .parsing) :
      Move sh c t o (sh.report t.seat .cardPlay) { t.view with kind := k, destined := false }
  | leave (hk : t.view.kind.polls = true) (ho : o = .fail ∨ o = .eof ∨ t.pc.isBadLine) :
      Move sh c t o sh { t.view with kind := .leaving false }
  | ask (rest : List Byte) (hk : t.view.kind = .play)
      (hp : sh.serverWritePipes t.seat = .cardPlay :: rest) :
      Move sh c t o (sh.heard t.seat rest) { t.view with kind := .asked }
  | asked (hk : t.view.kind = .asked) :
      Move sh c t o sh { t.view with kind := .play, destined := true }
  | inform (b : Byte) (rest : List Byte) (hk : t.view.kind = .play)
      (hp : sh.serverWritePipes t.seat = b :: rest)
      (hb : b = .deal ∨ b = .taken ∨ b = .scores) :
      Move sh c t o (sh.heard t.seat rest) t.view
  | dismissed (rest : List Byte) (hk : t.view.kind = .play)
      (hp : sh.serverWritePipes t.seat = .disconnected :: rest) :
      Move sh c t o (sh.heard t.seat rest) { t.view with kind := .leaving true }
  | ack (rest : List Byte) (hk : t.view.kind = .play)
      (hp : sh.serverWritePipes t.seat = .barrierResponse :: rest)
      (ho : int16 (sh.occupied + 1) ≠ 4) :
      Move sh c t o
        ({ sh.heard t.seat rest with occupied := int16 (sh.occupied + 1) }.note (.acked c t.seat))
        { t.view with barrier := true }
  | ackLast (rest : List Byte) (hk : t.view.kind = .play)
      (hp : sh.serverWritePipes t.seat = .barrierResponse :: rest)
      (ho : int16 (sh.occupied + 1) = 4) (hpc : t.pc = .readPipe true) :
      Move sh c t o
        ({ sh.heard t.seat rest with occupied := int16 (sh.occupied + 1) }.note (.acked c t.seat))
        { t.view with kind := .wake, barrier := true }
  | unbar (rest : List Byte) (hpc : t.pc = .readPipe true) (hk : t.view.kind = .play)
      (hp : sh.serverWritePipes t.seat = .barrierEnd :: rest) :
      Move sh c t o (sh.heard t.seat rest) { t.view with kind := .parsing, barrier := false }
  | wake (hk : t.view.kind = .wake) :
      Move sh c t o (sh.report t.seat .barrierResponse) { t.view with kind := .play }
  | release (hpc : t.pc = .closeLock false) (hk : t.view.kind = .leaving false) :
      Move sh c t o
        ({ sh with
            occupied := lessOne sh.occupied
            bIsBarrierOngoing := true
            seatsStatus := Function.update sh.seatsStatus t.seat (-1) }.note (.released c t.seat))
        { t.view with kind := .gone }
  | dismiss (hpc : t.pc = .closeLock true) (hk : t.view.kind = .leaving true) :
      Move sh c t o ({ sh with occupied := lessOne sh.occupied }.note (.dismissed c t.seat))
        { t.view with kind := .finished }
  | reported (hk : t.view.kind = .gone) :
      Move sh c t o ((sh.report t.seat .disconnected).note (.reported c t.seat))
        { t.view with kind := .finished }
  | unreported (hk : t.view.kind = .gone) (ho : o = .fail) :
      Move sh c t o (sh.note (.unreported c t.seat)) { t.view with kind := .finished }

lemma Thread.accepts_spec {sh : Shared} {t : Thread} (h : t.accepts sh = true) :
    t.view.kind = .parsing ∧ t.bWasDestinedToPlay = true := by
  unfold Thread.accepts at h
  split at h
  · rename_i hpc
    simp only [Bool.and_eq_true] at h
    exact ⟨Thread.kind_eq hpc, h.1.2⟩
  · cases h

@[simp] lemma Move.deal_eq {sh sh' : Shared} {c : ℕ} {t : Thread} {o : Outcome} {v' : View}
    (hm : Move sh c t o sh' v') : sh'.deal = sh.deal := by
  cases hm <;> rfl

section Complete

variable {sh sh' : Shared} {c : ℕ} {t t' : Thread} {o : Outcome}

private lemma Move.still (h : t'.view = t.view) : Move sh c t o sh t'.view := h ▸ .quiet _

private lemma view_goto {pc : Pc} (h : pc.kind = t.pc.kind) : (t.goto pc).view = t.view := by
  rw [Thread.view, Thread.view]
  simp [h]

private lemma move_atLoopTop (hpc : t.pc = .loopTop) : Move sh c t o sh (t.atLoopTop sh).view := by
  have hk := Thread.kind_eq hpc
  by_cases hb : t.bIsBarrier = true ∨ sh.bIsBarrierOngoing = true
  · have := Move.top (o := o) (c := c) hk hb
    rwa [show (t.atLoopTop sh).view = { t.view with barrier := true } by
      simp [Thread.view, Thread.atLoopTop, hb, hpc, Pc.kind]]
  · simp only [not_or, Bool.not_eq_true] at hb
    have := Move.topDrain (o := o) (c := c) hk hb.1 hb.2
    rwa [show (t.atLoopTop sh).view = { t.view with kind := .parsing } by
      simp [Thread.view, Thread.atLoopTop, hb, Pc.kind]]

private lemma move_gotByte {b : Byte} {rest : List Byte} (hpc : t.pc = .readPipe true)
    (hp : sh.serverWritePipes t.seat = b :: rest) :
    Move sh c t o (t.gotByte (sh.heard t.seat rest) c b).1
      (t.gotByte (sh.heard t.seat rest) c b).2.view := by
  have hk : t.view.kind = .play := Thread.kind_eq hpc
  have hinform : ∀ l p, (Pc.send l p).kind = .play → b = .deal ∨ b = .taken ∨ b = .scores →
      Move sh c t o (sh.heard t.seat rest) (t.goto (.send l p)).view := by
    intro l p hlp hb
    rw [view_goto (by simpa [hpc, Pc.kind] using hlp)]
    exact .inform b rest hk hp hb
  cases b with
  | disconnected => exact .dismissed rest hk hp
  | cardPlay => exact .ask rest hk hp
  | barrierResponse =>
    by_cases ho : int16 (sh.occupied + 1) = 4
    · have := Move.ackLast (c := c) (o := o) rest hk hp ho hpc
      rwa [show Thread.view (t.gotByte (sh.heard t.seat rest) c .barrierResponse).2 =
        { t.view with kind := .wake, barrier := true } by
        simp [Thread.view, Thread.gotByte, ho, Pc.kind]]
    · have := Move.ack (c := c) (o := o) rest hk hp ho
      rwa [show Thread.view (t.gotByte (sh.heard t.seat rest) c .barrierResponse).2 =
        { t.view with barrier := true } by
        simp [Thread.view, Thread.gotByte, ho, hpc, Pc.kind]]
  | scores => exact hinform _ _ rfl (by simp)
  | taken => exact hinform _ _ rfl (by simp)
  | deal => exact hinform _ _ rfl (by simp)
  | barrierEnd => exact .unbar rest hpc hk hp

private lemma move_sent {l : Text} {p : Purpose} (hpc : t.pc = .send l p) :
    Move sh c t o sh (Thread.sent { t with outbox := l :: t.outbox } p).view := by
  cases p with
  | cardPlay => exact .asked (Thread.kind_eq hpc)
  | wrong k =>
    cases k with
    | pipe r => exact .parsed (Thread.kind_eq hpc)
    | drain | drainEnd => exact .still (by simp [Thread.view, Thread.sent, hpc, After.pc, Pc.kind])
  | busy | replay | joinTrick | again | inform | score =>
    exact .still (by simp [Thread.view, Thread.sent, hpc, Pc.kind])

private lemma move_notSent {l : Text} {p : Purpose} (hpc : t.pc = .send l p) :
    Move sh c t .fail (t.notSent sh c p).1 (t.notSent sh c p).2.view := by
  cases p with
  | busy => exact .still (view_goto (by simp [hpc, Pc.kind]))
  | replay => exact .lost (.inl (Thread.kind_eq hpc)) rfl
  | joinTrick => exact .lost (.inr (Thread.kind_eq hpc)) rfl
  | wrong | again | cardPlay | inform | score =>
    exact .leave (by rw [Thread.kind_eq hpc]; rfl) (.inl rfl)

/-- **Every step of a thread is a move of its view.** -/
theorem ThreadMove.move (hm : ThreadMove sh c t o sh' t') : Move sh c t o sh' t'.view := by
  cases hm with
  | iam l s hpc hs =>
    rw [show Thread.view _ = { t.view with seat := s } by simp [Thread.view, hpc, Pc.kind]]
    exact .iam s l (Thread.kind_eq hpc) rfl hs
  | refuse _ hpc => exact .stop (Thread.kind_eq hpc)
  | take pc' hpc hs hpc' =>
    rcases hpc' with ⟨rfl, hd⟩ | ⟨rfl, hd⟩
    · exact .take .reserve hpc (Thread.kind_eq hpc) hs (.inl rfl) fun _ => hd
    · exact .take .joining hpc (Thread.kind_eq hpc) hs (.inr ⟨rfl, hd⟩) fun h => (nomatch h)
  | busy hpc => exact .stop (Thread.kind_eq hpc)
  | copied _ _ hpc | next _ hpc | taken _ _ _ hpc =>
    exact .still (view_goto (by simp [hpc, Pc.kind]))
  | turn i hpc _ ht =>
    have htest : Move sh c t .tick sh _ := .test (Thread.kind_eq hpc)
    rw [decide_eq_true ht, Bool.or_true] at htest
    exact htest
  | noTurn i hpc _ ht =>
    have htest : Move sh c t .tick sh _ := .test (Thread.kind_eq hpc)
    rw [decide_eq_false ht, Bool.or_false] at htest
    exact htest
  | join hpc => exact .join hpc (Thread.kind_eq hpc)
  | sent _ _ hpc => exact move_sent hpc
  | notSent _ _ hpc => exact move_notSent hpc
  | top hpc => exact move_atLoopTop hpc
  | drained after hpc =>
    have hmove : Move sh c t .tick sh _ :=
      .parsed (by rcases hpc with ⟨hpc, -⟩ | ⟨hpc, -⟩ <;> exact Thread.kind_eq hpc)
    rcases hpc with ⟨-, rfl⟩ | ⟨-, rfl⟩ <;> exact hmove
  | popped k m q hpc =>
    rw [view_goto (by rcases hpc with ⟨hpc, -⟩ | ⟨hpc, -⟩ <;> rw [hpc] <;> rfl)]
    exact .quiet _
  | expired pc' hpc _ hpc' =>
    exact .still (view_goto (by rcases hpc' with rfl | ⟨rfl, -⟩ <;> rw [hpc] <;> rfl))
  | readable pipe _ hpc => exact .still (view_goto (by rw [hpc]; rfl))
  | waited pc' pipe _ hpc _ hpc' =>
    exact .still (by rcases hpc' with rfl | rfl <;> simp [Thread.view, hpc, Pc.kind])
  | heard _ _ hpc => exact .still (view_goto (by rw [hpc]; rfl))
  | queued pipe l hpc =>
    rw [view_goto (by simp [hpc, Pc.kind])]
    exact .quiet _
  | direct pipe l hpc hb => exact .parse (Thread.kind_eq hpc) hb
  | leave _ hk ho => exact .leave hk ho
  | again pipe hpc => exact .still (by simp [Thread.view, Thread.againStep, hpc, Pc.kind])
  | skip hpc => exact .still (view_goto (by rw [hpc]; rfl))
  | byte b rest hpc hp => exact move_gotByte hpc hp
  | early m k hpc | wrong m k hpc => exact .still (by simp [Thread.view, hpc, Pc.kind])
  | accept m k card hpc hm hd ha =>
    exact .accept card (Thread.kind_eq hpc) hd (mem_of_acceptedCard ha)
      (by simp [Thread.accepts, hpc, hm, hd, ha])
  | played k hpc => exact .played _ (Thread.kind_eq hpc) (by cases k <;> simp [After.pc, Pc.kind])
  | woke hpc => exact .wake (Thread.kind_eq hpc)
  | close b hpc =>
    cases b with
    | false => exact .release hpc (Thread.kind_eq hpc)
    | true => exact .dismiss hpc (Thread.kind_eq hpc)
  | reported hpc => exact .reported (Thread.kind_eq hpc)
  | unreported hpc => exact .unreported (Thread.kind_eq hpc) rfl
  | done hpc => exact .still (view_goto (by rw [hpc]; rfl))

/-- **The list of moves is complete.** -/
theorem move_of_threadStep (h : threadStep sh c t o = some (sh', t')) :
    Move sh c t o sh' t'.view := (threadMove_of_threadStep h).move

end Complete

end Kierki.Serwer
