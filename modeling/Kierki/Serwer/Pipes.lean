import Kierki.Serwer.Play
import Kierki.Serwer.BarrierFlag
import Kierki.Serwer.Tricks

/-!
# The pipes when every client stays

What the main thread has told a seat and its thread has not read yet. A bulletin of `run_deal` is
read before the next barrier is passed, since every thread acknowledges it behind the bulletin; and
the `CARD_PLAY` byte is the last one in its pipe until the trick is over. So at each point of the
main thread only a few bytes can be in a pipe, and what a thread makes of them is what the main
thread meant when it wrote them.
-/

namespace Kierki.Serwer

open Lib.Lts

/-- The bytes end with `b`, if there are any. -/
def FencedBy (b : Byte) (l : List Byte) : Prop := ∀ x ∈ l.getLast?, x = b

section Fence

variable {b : Byte} {l l' : List Byte}

lemma FencedBy.eq_nil (h : FencedBy b l) (hb : b ∉ l) : l = [] := by
  by_contra hne
  have hlast := List.getLast?_eq_some_getLast hne
  have := h _ hlast
  exact hb (this ▸ List.getLast_mem hne)

lemma FencedBy.mem (h : FencedBy b l) (hne : l ≠ []) : b ∈ l := by
  by_contra hb
  exact hne (h.eq_nil hb)

lemma FencedBy.suffix (h : FencedBy b l) (hs : l' <:+ l) : FencedBy b l' := by
  obtain ⟨z, rfl⟩ := hs
  intro x hx
  refine h x ?_
  cases l' with
  | nil => cases hx
  | cons a l' =>
    rw [Option.mem_def, List.getLast?_append, Option.mem_def.mp hx]
    rfl

lemma fencedBy_nil : FencedBy b [] := fun _ hx => (by cases hx)

lemma fencedBy_append : FencedBy b (l ++ [b]) := by
  intro x hx
  simpa using hx.symm

end Fence

/-! ### What is still to be told -/

/-- The lists of the seats that are left. -/
def Caller.Listed (beginning : Seat) : Caller → Prop
  | cardWait s rest _ _ => s :: rest <:+ beginning.order
  | _ => True

/-- The seats that are left are the last of all of them, and there is one where the main thread is
about to turn to it. -/
def MainPc.Listed (beginning : Seat) : MainPc → Prop
  | barrierReset r | barrierPoll r | barrierScan _ r | barrierResend _ _ r => r.Listed beginning
  | barrierAsk left r | barrierRelease left r => (left ≠ [] ∧ left <:+ Seat.all) ∧ r.Listed beginning
  | announce _ left => left ≠ [] ∧ left <:+ Seat.all
  | turnSet left => left ≠ [] ∧ left <:+ beginning.order
  | turnSend s rest | cardPoll s rest | cardScan s rest _ _ => s :: rest <:+ beginning.order
  | closeSeats left _ _ => left <:+ Seat.all
  | _ => True

/-- The bulletin after which `barrier` was called. -/
def Caller.bulletin : Caller → Option Bulletin
  | endOfTrick => some .taken
  | endOfDeal => some .scores
  | _ => none

/-- The bulletin that the seat may not have read yet. -/
def MainPc.told : MainPc → Seat → Option Bulletin
  | announce b left, s => if s ∈ left then none else some b
  | barrierReset r, _ | barrierAsk _ r, _ | barrierPoll r, _ | barrierScan _ r, _ => r.bulletin
  | barrierResend _ _ r, _ => r.bulletin
  | trickStart, _ | turnSet _, _ | turnSend _ _, _ | cardPoll _ _, _ | cardScan _ _ _ _, _ =>
    some .deal
  | _, _ => none

/-- The seat was asked for its card of the trick, and the end of the trick is still to be told to
it. -/
def MainPc.asked : MainPc → Seat → Bool
  | turnSet left, s => s ∉ left
  | turnSend s₀ rest, s => s ∉ s₀ :: rest
  | cardPoll _ rest, s | cardScan _ rest _ _, s => s ∉ rest
  | trickEnd, _ => true
  | announce .taken left, s => s ∈ left
  | _, _ => false

/-- **What the pipes hold.** -/
structure Piped (sh : Shared) (pc : MainPc) : Prop where
  told : ∀ s (b : Bulletin), b.byte ∈ sh.serverWritePipes s → pc.told s = some b
  asked : ∀ s, pc.asked s = true → FencedBy .cardPlay (sh.serverWritePipes s)
  called : ∀ s, pc.counting = true → s ∉ pc.asking → FencedBy .barrierResponse (sh.serverWritePipes s)

/-! ### What the steps keep -/

section Keeps

variable {sh sh' : Shared} {m m' : Main} {v : ℕ → View} {c : ℕ} {t : Thread} {o : Outcome} {v' : View}

private lemma suffix_tail {α : Type} {a : α} {l l' : List α} (h : a :: l <:+ l') : l <:+ l' :=
  (List.suffix_cons a l).trans h

lemma MainMove.listed (hm : MainMove sh m sh' m') (h : m.pc.Listed m.beginning) :
    m'.pc.Listed m'.beginning := by
  cases hm with
  | reset r hpc | resend s ready r hpc | poll ready r hpc | lost s ready r rest hpc
  | woken s ready r rest hpc | stay r hpc =>
    rw [hpc] at h
    first | exact h | exact ⟨⟨by simp [Seat.all], List.suffix_rfl⟩, h⟩
  | pass r hpc =>
    rw [hpc] at h
    exact ⟨⟨by simp [Seat.all], List.suffix_rfl⟩, h⟩
  | ask s left r hpc hleft | release s left r hpc hleft =>
    rw [hpc] at h
    exact ⟨⟨hleft, suffix_tail h.1.2⟩, h.2⟩
  | askLast s r hpc =>
    rw [hpc] at h
    exact h.2
  | releaseLast s r hpc =>
    rw [hpc] at h
    have hr := h.2
    cases r with
    | cardWait s rest got ready => exact hr
    | endOfTrick =>
      simp only [Main.afterBarrier]
      split <;> trivial
    | startGame | endOfDeal => trivial
  | start hpc | trickEnd calculator taker points hpc | dealEnd hpc =>
    exact ⟨by simp [Seat.all], List.suffix_rfl⟩
  | announce b s left hpc hleft =>
    rw [hpc] at h
    exact ⟨hleft, suffix_tail h.2⟩
  | announceLast b s hpc => cases b <;> trivial
  | trick hpc => exact ⟨by simp [Seat.order], List.suffix_rfl⟩
  | turnSet s rest hpc =>
    rw [hpc] at h
    exact h.2
  | turnSend s rest hpc | cardPoll s rest ready hpc | gotCard s rest ready got left hpc
  | lostPlayer s j rest ready got left hpc | waitOn s rest hpc =>
    rw [hpc] at h
    exact h
  | nextTurn s rest hpc hrest =>
    rw [hpc] at h
    exact ⟨hrest, suffix_tail h⟩
  | close e w hpc => exact List.suffix_rfl
  | closeSeat s left e w hpc =>
    rw [hpc] at h
    exact suffix_tail h
  | _ => trivial

lemma Piped.thread {pc : MainPc} (h : Piped sh pc) (hm : Move sh c t o sh' v') : Piped sh' pc :=
  ⟨fun s b hb => h.told s b ((hm.suffix s).subset hb), fun s ha => (h.asked s ha).suffix (hm.suffix s),
    fun s hc hs => (h.called s hc hs).suffix (hm.suffix s)⟩

lemma Bulletin.byte_inj {b b' : Bulletin} (h : b.byte = b'.byte) : b = b' := by
  cases b <;> cases b' <;> first | rfl | cases h

private lemma mem_tell_bulletin {s₀ s : Seat} {b b' : Bulletin}
    (hb : b'.byte ∈ (sh.tell s₀ b.byte).serverWritePipes s) :
    b'.byte ∈ sh.serverWritePipes s ∨ s = s₀ ∧ b' = b :=
  (Shared.mem_tell.mp hb).imp id (And.imp_right Bulletin.byte_inj)

lemma Bulletin.byte_ne (b : Bulletin) :
    b.byte ≠ .cardPlay ∧ b.byte ≠ .barrierResponse ∧ b.byte ≠ .barrierEnd ∧ b.byte ≠ .disconnected := by
  cases b <;> decide

private lemma told_tell {s₀ : Seat} {b₀ : Byte} (hb₀ : ∀ b : Bulletin, b.byte ≠ b₀) {s : Seat}
    {b : Bulletin} (hb : b.byte ∈ (sh.tell s₀ b₀).serverWritePipes s) :
    b.byte ∈ sh.serverWritePipes s :=
  (Shared.mem_tell.mp hb).resolve_right fun h => hb₀ b h.2

private lemma pipe_tell_of_ne {s₀ s : Seat} {b : Byte} (h : s ≠ s₀) :
    (sh.tell s₀ b).serverWritePipes s = sh.serverWritePipes s := by
  simp [h]

private lemma fenced_tell {s₀ s : Seat} {b : Byte}
    (h : s ≠ s₀ → FencedBy b (sh.serverWritePipes s)) :
    FencedBy b ((sh.tell s₀ b).serverWritePipes s) := by
  by_cases hs : s = s₀
  · subst hs
    simpa using fencedBy_append
  · rw [pipe_tell_of_ne hs]
    exact h hs

private lemma Piped.quiet {pc pc' : MainPc} (h : Piped sh pc)
    (hb : ∀ s (b : Bulletin), b.byte ∈ sh'.serverWritePipes s → b.byte ∈ sh.serverWritePipes s)
    (htold : ∀ s, pc.told s = none ∨ pc'.told s = pc.told s) (hasked : ∀ s, pc'.asked s = false)
    (hcounting : pc'.counting = false) : Piped sh' pc' := by
  refine ⟨fun s b hmem => ?_, fun s ha => ?_, fun s hc => ?_⟩
  · have := h.told s b (hb s b hmem)
    rcases htold s with hn | he
    · rw [hn] at this
      cases this
    · rw [he, this]
  · rw [hasked] at ha
    cases ha
  · rw [hcounting] at hc
    cases hc

lemma Piped.empty (h : Piped sh m.pc) (hcount : Counted sh m v) (hc : m.pc.counting = true)
    (hask : m.pc.asking = []) (hw : int16 (4 - sh.occupied) ≤ 0) (s : Seat) :
    sh.serverWritePipes s = [] := by
  have hb := hcount.balanced hc
  refine (h.called s hc (by simp [hask])).eq_nil ?_
  have hdue := hb.due_eq_zero hw s
  have := hb.owed_nonneg s
  rw [← List.count_eq_zero]
  unfold due at hdue
  omega

lemma Piped.lastTurn {s₀ : Seat} (h : Piped sh (.cardScan s₀ [] true []))
    (hturn : TurnInv sh (.cardScan s₀ [] true []) v) (s : Seat) : sh.serverWritePipes s = [] := by
  refine (h.asked s (by simp [MainPc.asked])).eq_nil (hturn.closed s ?_).1
  rintro ⟨-, ha⟩
  rw [hturn.flight.received rfl] at ha
  cases ha

/-- **The main thread keeps it.** -/
theorem Piped.main (h : Piped sh m.pc) (hl : m.pc.Listed m.beginning) (hturn : TurnInv sh m.pc v)
    (hcount : Counted sh m v) (hst : Staying sh m.pc v) (hsane : ¬m'.pc.Confused)
    (hm : MainMove sh m sh' m') : Piped sh' m'.pc := by
  have hnone : ∀ {b₀ : Byte}, b₀ = .cardPlay ∨ b₀ = .barrierResponse ∨ b₀ = .barrierEnd ∨
      b₀ = .disconnected → ∀ b : Bulletin, b.byte ≠ b₀ := by
    intro b₀ hb₀ b
    obtain ⟨h₁, h₂, h₃, h₄⟩ := b.byte_ne
    rcases hb₀ with rfl | rfl | rfl | rfl <;> assumption
  cases hm with
  | reset r hpc =>
    rw [hpc] at h
    exact ⟨h.told, fun s ha => (by cases ha), fun s _ hs => absurd (Seat.mem_all s) hs⟩
  | ask s left r hpc hleft =>
    rw [hpc] at h
    refine ⟨fun s' b hb => h.told s' b (told_tell (hnone (by simp)) hb), fun s' ha => (by cases ha),
      fun s' _ hs' => fenced_tell fun hne => h.called s' rfl ?_⟩
    simpa [MainPc.asking, hne] using hs'
  | askLast s r hpc =>
    rw [hpc] at h
    refine ⟨fun s' b hb => h.told s' b (told_tell (hnone (by simp)) hb), fun s' ha => (by cases ha),
      fun s' _ hs' => fenced_tell fun hne => h.called s' rfl ?_⟩
    simpa [MainPc.asking] using hne
  | resend s ready r hpc =>
    rw [hpc] at h
    exact ⟨fun s' b hb => h.told s' b (told_tell (hnone (by simp)) hb), fun s' ha => (by cases ha),
      fun s' _ hs' => fenced_tell fun _ => h.called s' rfl hs'⟩
  | poll ready r hpc | lost s ready r rest hpc | woken s ready r rest hpc | stay r hpc =>
    rw [hpc] at h
    exact ⟨h.told, fun s' ha => (by cases ha), fun s' _ hs' => h.called s' rfl hs'⟩
  | badBarrier => exact absurd (.inl rfl) hsane
  | badDeal => exact absurd (.inr rfl) hsane
  | lostPlayer s j rest ready got left hpc hp =>
    exact (hst.silent _ (hp ▸ List.mem_cons_self)).elim
  | pass r hpc hw =>
    have hempty := h.empty hcount (by rw [hpc]; rfl) (by rw [hpc]; rfl) hw
    refine ⟨fun s b hb => ?_, fun s ha => (by cases ha), fun s hc => (by cases hc)⟩
    have hb' : b.byte ∈ sh.serverWritePipes s := hb
    rw [hempty s] at hb'
    cases hb'
  | release s left r hpc hleft =>
    rw [hpc] at h
    exact h.quiet (fun _ _ => told_tell (hnone (by simp))) (fun _ => .inl rfl) (fun _ => rfl) rfl
  | releaseLast s r hpc =>
    rw [hpc] at h
    have hcaller := hst.caller r (by rw [hpc]; rfl)
    obtain ⟨hasked, hc⟩ := m.afterBarrier_pc r
      (P := fun r pc => r.wait = none → (∀ s, pc.asked s = false) ∧ pc.counting = false)
      (fun _ => ⟨fun _ => rfl, rfl⟩) (fun _ _ _ _ hw => (by cases hw)) (fun _ => ⟨fun _ => rfl, rfl⟩)
      (fun _ => ⟨fun _ => rfl, rfl⟩) (fun _ => ⟨fun _ => rfl, rfl⟩) hcaller
    exact h.quiet (fun _ _ => told_tell (hnone (by simp))) (fun _ => .inl rfl) hasked hc
  | gameOver hpc | load d rest hpc | close e w hpc =>
    rw [hpc] at h
    exact h.quiet (fun _ _ hb => hb) (fun _ => .inl rfl) (fun _ => rfl) rfl
  | start hpc | dealEnd hpc =>
    rw [hpc] at h
    exact h.quiet (fun _ _ hb => hb) (fun _ => .inl rfl) (fun _ => rfl) rfl
  | closeSeat s left e w hpc =>
    rw [hpc] at h
    exact h.quiet (fun _ _ => told_tell (hnone (by simp))) (fun _ => .inl rfl) (fun _ => rfl) rfl
  | announce b s left hpc hleft =>
    rw [hpc] at h hl
    have hs : s ∉ left := (List.nodup_cons.mp (hl.2.sublist.nodup (by decide))).1
    refine ⟨fun s' b' hb => ?_, fun s' ha => ?_, fun s' hc => (by cases hc)⟩
    · show MainPc.told (.announce b left) s' = some b'
      rcases mem_tell_bulletin hb with hb | ⟨rfl, rfl⟩
      · have htold := h.told s' b' hb
        simp only [MainPc.told, List.mem_cons] at htold ⊢
        grind
      · simp [MainPc.told, hs]
    · cases b with
      | taken =>
        have hs' : s' ∈ left := by simpa [MainPc.asked] using ha
        rw [pipe_tell_of_ne (by rintro rfl; exact hs hs')]
        exact h.asked s' (by simp [MainPc.asked, hs'])
      | _ => cases ha
  | announceLast b s hpc =>
    rw [hpc] at h
    have htold : ∀ s', (Main.afterBulletin b).told s' = some b := by
      intro s'
      cases b <;> rfl
    refine ⟨fun s' b' hb => ?_, fun s' ha => ?_, fun s' hc => ?_⟩
    · rw [Main.goto_pc, htold]
      rcases mem_tell_bulletin hb with hb | ⟨-, rfl⟩
      · have htold := h.told s' b' hb
        simp only [MainPc.told] at htold
        grind
      · rfl
    · cases b <;> cases ha
    · cases b <;> cases hc
  | trick hpc =>
    rw [hpc] at h
    exact h.quiet (fun _ _ hb => hb) (fun _ => .inr rfl)
      (fun s => by simp [MainPc.asked, Seat.mem_order]) rfl
  | turnSet s rest hpc =>
    rw [hpc] at h
    exact ⟨h.told, h.asked, fun s' hc => (by cases hc)⟩
  | turnSend s rest hpc =>
    rw [hpc] at h
    refine ⟨fun s' b hb => h.told s' b (told_tell (hnone (by simp)) hb),
      fun s' ha => fenced_tell fun hne => h.asked s' ?_, fun s' hc => (by cases hc)⟩
    simpa [MainPc.asked, hne] using ha
  | cardPoll s rest ready hpc | gotCard s rest ready got left hpc | waitOn s rest hpc =>
    rw [hpc] at h
    exact ⟨h.told, h.asked, fun s' hc => (by cases hc)⟩
  | nextTurn s rest hpc hrest =>
    rw [hpc] at h
    exact ⟨h.told, h.asked, fun s' hc => (by cases hc)⟩
  | lastTurn s hpc =>
    rw [hpc] at h hturn
    have hempty := h.lastTurn hturn
    refine ⟨fun s' b hb => ?_, fun s' _ => ?_, fun s' hc => (by cases hc)⟩
    · rw [hempty s'] at hb
      cases hb
    · rw [hempty s']
      exact fencedBy_nil
  | trickEnd calculator taker points hpc =>
    rw [hpc] at h
    exact ⟨fun s b hb => absurd (h.told s b hb) (by simp [MainPc.told]), fun s _ => h.asked s rfl,
      fun s hc => (by cases hc)⟩

end Keeps

/-! ### The runs -/

/-- Only a thread that has just taken its seat has not come to `client_poll` yet, and no seat is taken
after the first call of `barrier`. -/
def Early (pc : MainPc) (v : ℕ → View) : Prop :=
  ∀ c, (v c).kind = .joining → pc.opening = true ∨ pc.closing = true

section Early

variable {sh sh' : Shared} {m m' : Main} {pc : MainPc} {v : ℕ → View} {c : ℕ} {t : Thread} {o : Outcome}
  {v' : View}

lemma Early.thread (h : Early pc v) (hg : Gathered sh pc v) (hv : v c = t.view)
    (hm : Move sh c t o sh' v') : Early pc (Function.update v c v') := by
  refine forall_update (P := fun w => w.kind = .joining → pc.opening = true ∨ pc.closing = true) h c
    fun hk => ?_
  have hc := hv ▸ hg.threads c
  have hj := hv ▸ h c
  cases hm with
  | take k hpc hk' hs => exact (hg.free _ hs).2
  | test hk' => exact absurd hk' hc.1
  | played k hk' hk'' => rcases hk'' with rfl | rfl <;> cases hk
  | quiet | iam | top | inform | ack => exact hj hk
  | _ => cases hk

lemma Early.main (h : Early m.pc v) (hst : Seated sh v) (hcount : Counted sh m v)
    (hm : MainMove sh m sh' m') : Early m'.pc v := by
  intro c hk
  rcases hm.opening (h c hk) with ⟨-, hpc⟩ | ⟨hc, hw⟩
  · exact hpc
  · -- the thread that acknowledged holds the seat
    have hb := hcount.balanced hc
    obtain ⟨c', hk', hseat, -⟩ := hb.acked (v c).seat (hb.due_eq_zero hw _)
    obtain rfl := hst.holder_unique (Kind.holds_of_seated hk') (by rw [hk]; rfl) hseat
    rw [hk] at hk'
    cases hk'

end Early

lemma Move.unreleased {sh sh' : Shared} {c : ℕ} {t : Thread} {o : Outcome} {v' : View}
    (hm : Move sh c t o sh' v') (hstay : t.view.kind ≠ .leaving false) :
    releasedSincePassed sh'.log = releasedSincePassed sh.log := by
  cases hm with
  | release hpc hk => exact absurd hk hstay
  | _ => rfl

lemma MainMove.unreleased {sh sh' : Shared} {m m' : Main} (hm : MainMove sh m sh' m')
    (h : releasedSincePassed sh.log = false) : releasedSincePassed sh'.log = false := by
  cases hm with
  | pass => rfl
  | _ => exact h

section Runs

variable {timeout : ℤ} {deals : List Deal} {st : State}

lemma early (h : RunsTo Calm timeout deals st) : Early st.main.pc st.view :=
  RunsTo.keeps (I := fun _ m v => Early m.pc v)
    (J := fun sh m v => Seated sh v ∧ Counted sh m v ∧ Gathered sh m.pc v)
    (fun _ hr => ⟨seated hr, counted_of_calm hr, gathered hr⟩) (fun _ hk => (by cases hk))
    (fun _ _ _ _ hj hi _ hm => hi.main hj.1 hj.2.1 hm)
    (fun _ _ _ c _ _ hi _ _ => forall_update (P := fun w => w.kind = .joining → _) hi c
      fun hk => (by cases hk))
    (fun _ _ _ _ _ hj hi _ hm => hi.thread hj.2.2 rfl hm) h

lemma unreleased (h : RunsTo Calm timeout deals st) : releasedSincePassed st.sh.log = false :=
  RunsTo.keeps (I := fun sh _ _ => releasedSincePassed sh.log = false)
    (J := fun sh m v => Staying sh m.pc v) (fun _ hr => staying hr) rfl
    (fun _ _ _ _ _ hi _ hm => hm.unreleased hi) (fun _ _ _ _ _ _ hi _ _ => hi)
    (fun _ c _ _ _ hj hi _ hm => (hm.unreleased (hj.threads c).1).trans hi) h

lemma flagged_of_calm (h : RunsTo Calm timeout deals st) (hg : st.main.pc.goesOn) :
    Flagged st.sh st.main.pc st.view := by
  refine (flagged ((h.with_known fun _ hr => And.intro (counted_of_calm hr) (staying hr)).mono
    fun st a => ?_)).2 hg
  rintro ⟨hok, hcount, hst⟩
  cases a with
  | main ready => exact ⟨fun hs => hcount.four (MainPc.counting_of_sampling hs), trivial⟩
  | accept => exact ⟨trivial, trivial⟩
  | thread c o =>
    refine ⟨trivial, ?_, fun _ _ _ c' _ hk => absurd hk (hst.threads c').2⟩
    rintro rfl
    cases hok

lemma listed (h : RunsTo Calm timeout deals st) : st.main.pc.Listed st.main.beginning :=
  RunsTo.keeps (I := fun _ m _ => m.pc.Listed m.beginning) (J := fun _ _ _ => True)
    (fun _ _ => trivial) trivial (fun _ _ _ _ _ hi _ hm => hm.listed hi) (fun _ _ _ _ _ _ hi _ _ => hi)
    (fun _ _ _ _ _ _ hi _ _ => hi) h

lemma piped (h : RunsTo Calm timeout deals st) : Piped st.sh st.main.pc := by
  refine RunsTo.keeps (I := fun sh m _ => Piped sh m.pc)
    (J := fun sh m v => m.pc.Listed m.beginning ∧ TurnInv sh m.pc v ∧ Counted sh m v ∧
      Staying sh m.pc v ∧ Understood sh m.pc v)
    (fun _ hr => ⟨listed hr, (turn_of_calm hr).1, counted_of_calm hr, staying hr,
      (understood_of_calm hr).1⟩) ?_
    (fun _ _ _ _ hj hi _ hm => hi.main hj.1 hj.2.1 hj.2.2.1 hj.2.2.2.1 (hj.2.2.2.2.sane_next hm) hm)
    (fun _ _ _ _ _ _ hi _ _ => hi) (fun _ _ _ _ _ _ hi _ hm => hi.thread hm) h
  exact ⟨fun _ _ hb => (by cases hb), fun _ ha => (by cases ha), fun _ hc => (by cases hc)⟩

lemma TurnInv.idle {sh : Shared} {pc : MainPc} {v : ℕ → View} (h : TurnInv sh pc v)
    (hw : pc.wait = none) : (∀ s, .cardPlay ∉ sh.serverWritePipes s) ∧ sh.playerTurn = none := by
  have hclosed := fun s => h.closed s (fun ho => by simp [Open, hw] at ho)
  refine ⟨fun s => (hclosed s).1, ?_⟩
  cases hturn : sh.playerTurn with
  | none => rfl
  | some s => exact absurd hturn (hclosed s).2.1

lemma MainPc.setsTrick_idle {pc : MainPc} (h : pc.setsTrick = true) :
    pc.wait = none ∧ ∀ s, pc.told s ≠ some .taken := by
  cases pc <;> first | cases h; done | exact ⟨rfl, fun _ => by simp [MainPc.told]⟩

lemma tricks_counted (h : RunsTo Calm timeout deals st) : TrickCount st.sh st.main := by
  refine h.invariant_with (I := fun st => TrickCount st.sh st.main)
    (J := fun st => TurnInv st.sh st.main.pc st.view ∧ Piped st.sh st.main.pc)
    (fun _ hr => ⟨(turn_of_calm hr).1, piped hr⟩)
    ⟨fun _ hn => (by cases hn), Nat.zero_le _, le_rfl, fun hpc => (by cases hpc), fun hin => (by cases hin),
      fun _ _ _ hmem => (by cases hmem), fun hturn => absurd rfl hturn⟩ ?_
  rintro st a st' ⟨hturn, hp⟩ hi - hs
  obtain ⟨ready, rfl, hm, -⟩ | ⟨fd, rfl, hsh, hmain, -⟩ | ⟨c, o, rfl, hm, hmain, -⟩ := step_moves hs
  · refine hi.main hm fun hset => ?_
    obtain ⟨hw, htold⟩ := MainPc.setsTrick_idle hset
    obtain ⟨hcard, hnone⟩ := hturn.idle hw
    exact ⟨fun s => ⟨hcard s, fun hb => htold s (hp.told s .taken hb)⟩, hnone⟩
  · rw [hsh, hmain]
    exact hi
  · rw [hmain]
    exact hi.thread hm

/-- **What is known of the server** when every client stays. -/
structure Known (st : State) : Prop where
  numbered : st.Numbered
  seated : Seated st.sh st.view
  sane : ∀ c, (st.view c).Sane
  counted : Counted st.sh st.main st.view
  staying : Staying st.sh st.main.pc st.view
  gathered : Gathered st.sh st.main.pc st.view
  turn : TurnInv st.sh st.main.pc st.view
  unasked : Unasked st.sh st.main.pc st.view
  understood : Understood st.sh st.main.pc st.view
  woken : Woken st.sh st.main.pc st.view
  plays : Plays st.sh st.main.pc st.main
  listed : st.main.pc.Listed st.main.beginning
  piped : Piped st.sh st.main.pc
  tricks : TrickCount st.sh st.main
  early : Early st.main.pc st.view
  unreleased : releasedSincePassed st.sh.log = false
  flagged : st.main.pc.goesOn → Flagged st.sh st.main.pc st.view
  checked : ∀ c, ¬(st.threads c).pc.isBadLine

lemma known (h : RunsTo Calm timeout deals st) : Known st where
  numbered := numbered h
  seated := seated h
  sane := sane h
  counted := counted_of_calm h
  staying := staying h
  gathered := gathered h
  turn := (turn_of_calm h).1
  unasked := (turn_of_calm h).2
  understood := (understood_of_calm h).1
  woken := (understood_of_calm h).2
  plays := plays h
  listed := listed h
  piped := piped h
  tricks := tricks_counted h
  early := early h
  unreleased := unreleased h
  flagged := flagged_of_calm h
  checked := (lines_checked h).2

end Runs

end Kierki.Serwer
