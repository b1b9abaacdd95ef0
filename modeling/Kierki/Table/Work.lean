import Kierki.Serwer.Pipes
import Kierki.Table.Machine

/-!
# What a thread does when all goes well

Of the steps of `ThreadMove` only a few are left for a thread whose client plays on time: no call
fails, no line is refused, no time runs out, and nothing is queued. `Work` lists them, and
`work_of_step` says under which circumstances there are no others.
-/

namespace Kierki.Serwer

open Regex Senders

/-- The points a thread comes to when all goes well. -/
def Pc.orderly : Pc → Bool
  | absent | readIam | take | joinFlag | loopTop | drain | poll | readSocket _ | readPipe _ => true
  | send _ .cardPlay | send _ .inform | send _ (.score _) => true
  | parse _ _ | writeCardPlay _ | writeBarrierResponse | drainEnd => true
  | closeLock true | finish | done => true
  | _ => false

/-- The steps of a thread that change nothing but where it is. -/
inductive Pc.Walks : Pc → Outcome → Pc → Prop
  | drained : Walks .drain .tick .poll
  | drainedEnd : Walks .drainEnd .tick .loopTop
  | skip : Walks (.readPipe false) .tick .loopTop
  | readable (pipe : Bool) (ms : ℤ) : Walks .poll (.ready true pipe ms) (.readSocket pipe)
  | heard (pipe : Bool) (ms : ℤ) : Walks .poll (.ready false pipe ms) (.readPipe pipe)
  | done : Walks .finish .tick .done

/-- **What a thread does when all goes well.** -/
inductive Work (sh : Shared) (c : ℕ) (t : Thread) : Outcome → Shared → Thread → Prop
  | iam (s : Seat) (hpc : t.pc = .readIam) :
      Work sh c t (.line (iamLine s)) sh { t with seat := s, pc := .take }
  | take (hpc : t.pc = .take) :
      Work sh c t .tick
        ({ sh with seatsStatus := Function.update sh.seatsStatus t.seat t.clientFd }.note
          (.took c t.seat))
        (t.goto .joinFlag)
  | join (hpc : t.pc = .joinFlag) : Work sh c t .tick sh (t.join sh)
  | tell (l : Text) (p : Purpose) (hpc : t.pc = .send l p) :
      Work sh c t .tick sh (({ t with outbox := l :: t.outbox } : Thread).sent p)
  | top (hpc : t.pc = .loopTop) : Work sh c t .tick sh (t.atLoopTop sh)
  | walk (o : Outcome) (pc' : Pc) (h : t.pc.Walks o pc') : Work sh c t o sh (t.goto pc')
  | listen (pipe : Bool) (ms : ℤ) (hpc : t.pc = .poll) (htime : 0 < int32 (t.timeoutCopy - ms)) :
      Work sh c t (.ready false pipe ms) sh
        { t with timeoutCopy := int32 (t.timeoutCopy - ms), pc := .readPipe pipe }
  | line (pipe : Bool) (l : Text) (hpc : t.pc = .readSocket pipe) :
      Work sh c t (.line l) sh (t.goto (.parse l (.pipe pipe)))
  | byte (b : Byte) (rest : List Byte) (hpc : t.pc = .readPipe true)
      (hp : sh.serverWritePipes t.seat = b :: rest) :
      Work sh c t .tick (t.gotByte (sh.heard t.seat rest) c b).1
        (t.gotByte (sh.heard t.seat rest) c b).2
  | accept (m : Text) (k : After) (card : Text) (hpc : t.pc = .parse m k)
      (hd : t.bWasDestinedToPlay = true)
      (ha : acceptedCard (sh.cards t.seat) sh.cardsOnTable t.currentTrick m = some card) :
      Work sh c t .tick
        ({ sh with
            cards := Function.update sh.cards t.seat ((sh.cards t.seat).erase card)
            cardsOnTable := sh.cardsOnTable ++ [card]
            playerTurn := none }.note (.accepted c t.seat card))
        { t with timeoutCopy := sh.timeout, pc := .writeCardPlay k }
  | played (k : After) (hpc : t.pc = .writeCardPlay k) :
      Work sh c t .tick (sh.report t.seat .cardPlay) { t with bWasDestinedToPlay := false, pc := k.pc }
  | woke (hpc : t.pc = .writeBarrierResponse) :
      Work sh c t .tick (sh.report t.seat .barrierResponse) (t.goto .loopTop)
  | dismissed (hpc : t.pc = .closeLock true) :
      Work sh c t .tick (t.closeStep sh c true).1 (t.closeStep sh c true).2

/-- **All goes well for the thread**, whose client has written the lines `written`. -/
structure Smooth (sh : Shared) (t : Thread) (written : List Text) : Prop where
  orderly : t.pc.orderly = true
  iam : t.pc = .readIam → ∃ s, written = [iamLine s]
  free : t.pc = .take → sh.seatsStatus t.seat = -1 ∧ sh.deal .N = []
  good : ¬t.pc.isBadLine
  unbarred : ∀ pipe, t.pc = .readSocket pipe → written ≠ [] → t.bIsBarrier = false
  unqueued : sh.barrierMessages t.seat = []
  legal : ∀ m k, t.pc = .parse m k → t.bWasDestinedToPlay = true ∧
    acceptedCard (sh.cards t.seat) sh.cardsOnTable t.currentTrick m ≠ none

section Complete

variable {sh sh' : Shared} {c : ℕ} {t t' : Thread} {o : Outcome} {written : List Text}

lemma iamSeat_iamLine (s : Seat) : Thread.iamSeat (iamLine s) = some s := by
  cases s <;> decide +kernel

private lemma work_iam {s : Seat} (hpc : t.pc = .readIam) (hfit : o.Fits [iamLine s])
    (htime : t.inTime o = true) (h : threadStep sh c t o = some (sh', t')) : Work sh c t o sh' t' := by
  unfold threadStep at h
  rw [hpc] at h
  cases o with
  | line l =>
    obtain rfl : iamLine s = l := by simpa [Outcome.Fits] using hfit
    simp only [iamSeat_iamLine, Option.some.injEq, Prod.mk.injEq] at h
    obtain ⟨rfl, rfl⟩ := h
    exact .iam s hpc
  | eof => exact hfit.elim
  | fail => cases htime
  | tick | ready | expire => cases h

private lemma work_waited {pipe : Bool} {ms : ℤ} (hpc : t.pc = .poll) (hd : t.bWasDestinedToPlay = true)
    (htime : t.inTime (.ready false pipe ms) = true)
    (h : threadStep sh c t (.ready false pipe ms) = some (sh', t')) :
    Work sh c t (.ready false pipe ms) sh' t' := by
  have hpos : 0 < int32 (t.timeoutCopy - ms) := by simpa [Thread.inTime, hd] using htime
  have hstep : (t.pollStep sh (.ready false pipe ms)).map (fun t' => (sh, t')) = some (sh', t') := by
    unfold threadStep at h
    rw [hpc] at h
    exact h
  obtain ⟨t₁, ht₁, hpair⟩ := Option.map_eq_some_iff.mp hstep
  cases hpair
  simp only [Thread.pollStep, Bool.false_eq_true, if_false, if_pos hd] at ht₁
  split_ifs at ht₁ with hr hle
  · exact absurd hle (not_le.mpr hpos)
  · cases ht₁
    exact .listen pipe ms hpc hpos

/-- **When all goes well there is nothing else a thread does.** -/
theorem work_of_step (hs : Smooth sh t written) (hfit : o.Fits written) (htime : t.inTime o = true)
    (h : threadStep sh c t o = some (sh', t')) : Work sh c t o sh' t' := by
  have hord := hs.orderly
  have hm := threadMove_of_threadStep h
  cases hm with
  | iam l s hpc hl =>
    obtain ⟨s', rfl⟩ := hs.iam hpc
    exact work_iam hpc hfit htime h
  | refuse o hpc =>
    obtain ⟨s', rfl⟩ := hs.iam hpc
    exact work_iam hpc hfit htime h
  | take pc' hpc hfree hpc' =>
    obtain ⟨-, hdeal⟩ := hs.free hpc
    obtain ⟨-, hd⟩ | ⟨rfl, -⟩ := hpc'
    · exact absurd hdeal hd
    · exact .take hpc
  | busy hpc hno => exact absurd (hs.free hpc).1 hno
  | join hpc => exact .join hpc
  | sent l p hpc => exact .tell l p hpc
  | top hpc => exact .top hpc
  | drained after hpc =>
    obtain ⟨hpc, rfl⟩ | ⟨hpc, rfl⟩ := hpc
    · exact .walk _ _ (hpc ▸ .drained)
    · exact .walk _ _ (hpc ▸ .drainedEnd)
  | popped k m q hpc hq =>
    rw [hs.unqueued] at hq
    cases hq
  | readable pipe ms hpc => exact .walk _ _ (hpc ▸ .readable pipe ms)
  | waited pc' pipe ms hpc hd => exact work_waited hpc hd htime h
  | heard pipe ms hpc => exact .walk _ _ (hpc ▸ .heard pipe ms)
  | queued pipe l hpc hb =>
    have hne : written ≠ [] := by
      rintro rfl
      cases hfit
    rw [hs.unbarred pipe hpc hne] at hb
    cases hb
  | direct pipe l hpc => exact .line pipe l hpc
  | leave o hk ho =>
    obtain rfl | rfl | hbad := ho
    · cases htime
    · exact hfit.elim
    · exact absurd hbad hs.good
  | skip hpc => exact .walk _ _ (hpc ▸ .skip)
  | byte b rest hpc hp => exact .byte b rest hpc hp
  | early m k hpc hm hd =>
    rw [(hs.legal m k hpc).1] at hd
    cases hd
  | wrong m k hpc hm hd ha => exact absurd ha (hs.legal m k hpc).2
  | accept m k card hpc hm hd ha => exact .accept m k card hpc hd ha
  | played k hpc => exact .played k hpc
  | woke hpc => exact .woke hpc
  | close b hpc =>
    cases b with
    | true => exact .dismissed hpc
    | false =>
      rw [hpc] at hord
      cases hord
  | done hpc => exact .walk _ _ (hpc ▸ .done)
  | copied a b hpc | next i hpc | turn i hpc | noTurn i hpc | taken i cards taker hpc | again pipe hpc
  | reported hpc =>
    rw [hpc] at hord
    cases hord
  | notSent | expired | unreported => cases htime

end Complete

end Kierki.Serwer
