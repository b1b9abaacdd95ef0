import Kierki.Serwer.BarrierFlag
import Kierki.Serwer.InFlight

/-!
# The bytes the main thread reads

`barrier` and `run_deal` read the same pipes, but `barrier` knows no `CARD_PLAY` and `run_deal` no
`BARRIER_RESPONSE`, and a byte that is not known closes the server. A card must not be in flight
when `barrier` is called, and the byte that wakes `barrier` must not be in flight when it returns.
In the runs in which this is so every byte is read where it is known.
-/

namespace Kierki.Serwer

open Lib.Lts

/-- The message with which the main thread closes the server. -/
def MainPc.errorMessage : MainPc → Option String
  | closeServer errorMessage _ | closeSeats _ errorMessage _ => some errorMessage
  | _ => none

/-- The main thread closes the server because of a byte it does not know. -/
def MainPc.Confused (pc : MainPc) : Prop :=
  pc.errorMessage = some invalidInBarrier ∨ pc.errorMessage = some invalidInDeal

/-- The byte a thread is about to write to the main thread. -/
def Kind.byte : Kind → Option Byte
  | card => some .cardPlay
  | wake => some .barrierResponse
  | gone => some .disconnected
  | _ => none

/-- The byte is in a pipe to the main thread, or a thread is about to write it. -/
def Underway (sh : Shared) (v : ℕ → View) (b : Byte) : Prop :=
  (∃ s, b ∈ sh.serverReadPipes s) ∨ ∃ c, (v c).kind.byte = some b

/-- Whoever reads the byte at this point of the main thread knows it. -/
def MainPc.Knows (pc : MainPc) : Byte → Prop
  | .cardPlay => pc.inBarrier = false
  | .barrierResponse => pc.counting = true
  | .disconnected => True
  | _ => False

/-- **The invariant of the bytes.** -/
structure Understood (sh : Shared) (pc : MainPc) (v : ℕ → View) : Prop where
  flight : InFlight sh pc v
  known : ∀ b, Underway sh v b → pc.Knows b
  sane : ¬pc.Confused

lemma InFlight.not_underway {sh : Shared} {pc : MainPc} {v : ℕ → View} (h : InFlight sh pc v)
    (hw : pc.wait = none) : ¬Underway sh v .cardPlay := by
  obtain ⟨hbyte, hcard⟩ := h.none_of_wait hw
  rintro (⟨s, hb⟩ | ⟨c, hk⟩)
  · exact hbyte s hb
  · refine hcard c ?_
    revert hk
    cases (v c).kind <;> simp [Kind.byte]

section Thread

variable {sh sh' : Shared} {c : ℕ} {t : Thread} {o : Outcome} {v' : View} {b : Byte}

lemma Move.reports (hm : Move sh c t o sh' v') {s : Seat} (hb : b ∈ sh'.serverReadPipes s) :
    b ∈ sh.serverReadPipes s ∨ t.view.kind.byte = some b := by
  have hreport : ∀ {b₀ : Byte}, t.view.kind.byte = some b₀ →
      b ∈ (sh.report t.seat b₀).serverReadPipes s →
      b ∈ sh.serverReadPipes s ∨ t.view.kind.byte = some b := by
    intro b₀ hk hb
    by_cases hs : s = t.seat
    · subst hs
      simp only [Shared.report_serverReadPipes, Function.update_self, List.mem_append,
        List.mem_singleton] at hb
      rcases hb with hb | rfl
      · exact .inl hb
      · exact .inr hk
    · exact .inl (by simpa [hs] using hb)
  cases hm with
  | played _ hk | wake hk | reported hk => exact hreport (by rw [hk]; rfl) hb
  | _ => exact .inl hb

lemma Move.comes (hm : Move sh c t o sh' v') (hb : v'.kind.byte = some b) :
    t.view.kind.byte = some b ∨ (b = .cardPlay ∧ t.accepts sh = true) ∨
    (b = .barrierResponse ∧ t.pc = .readPipe true ∧
      (sh.serverWritePipes t.seat).head? = some .barrierResponse ∧ int16 (sh.occupied + 1) = 4 ∧
      sh'.occupied = 4) ∨
    b = .disconnected := by
  cases hm with
  | accept _ _ _ _ ha =>
    obtain rfl := Option.some.inj hb
    exact .inr (.inl ⟨rfl, ha⟩)
  | ackLast rest _ hp ho hpc =>
    obtain rfl := Option.some.inj hb
    exact .inr (.inr (.inl ⟨rfl, hpc, by simp [hp], ho, ho⟩))
  | release =>
    obtain rfl := Option.some.inj hb
    exact .inr (.inr (.inr rfl))
  | played _ _ hk' =>
    rcases hk' with rfl | rfl <;> cases hb
  | take _ _ _ _ hk' =>
    rcases hk' with rfl | ⟨rfl, -⟩ <;> cases hb
  | quiet | iam | top | inform | ack => exact .inl hb
  | _ => cases hb

/-- **A seat thread keeps the invariant**, if it accepts a card only in the open turn of its seat
and outside `barrier`, and is the fourth to acknowledge only in the waiting loop of `barrier`. -/
theorem Understood.thread {pc : MainPc} {v : ℕ → View} (h : Understood sh pc v) (hv : v c = t.view)
    (hm : Move sh c t o sh' v')
    (hcard : t.accepts sh = true → Open sh pc t.seat ∧ pc.inBarrier = false)
    (hwake : t.pc = .readPipe true → (sh.serverWritePipes t.seat).head? = some .barrierResponse →
      int16 (sh.occupied + 1) = 4 → pc.counting = true) :
    Understood sh' pc (Function.update v c v') := by
  refine ⟨h.flight.thread hv hm fun ha => (hcard ha).1, fun b hb => ?_, h.sane⟩
  have hold : t.view.kind.byte = some b → pc.Knows b := fun hb => h.known b (.inr ⟨c, by rwa [hv]⟩)
  rcases hb with ⟨s, hb⟩ | ⟨c', hb⟩
  · rcases hm.reports hb with hb | hb
    · exact h.known b (.inl ⟨s, hb⟩)
    · exact hold hb
  · by_cases hcc : c' = c
    · subst hcc
      rw [Function.update_self] at hb
      rcases hm.comes hb with hb | ⟨rfl, ha⟩ | ⟨rfl, hpc, hp, ho, -⟩ | rfl
      · exact hold hb
      · exact (hcard ha).2
      · exact hwake hpc hp ho
      · trivial
    · rw [Function.update_of_ne hcc] at hb
      exact h.known b (.inr ⟨c', hb⟩)

end Thread

section Main

variable {sh sh' : Shared} {m m' : Main} {v : ℕ → View} {b : Byte}

/-- The main thread is about to call `barrier` for the `DISCONNECTED` byte of a seat. -/
def MainPc.losing (sh : Shared) : MainPc → Bool
  | cardScan _ _ _ (j :: _) => decide ((sh.serverReadPipes j).head? = some .disconnected)
  | _ => false

lemma MainMove.count_reads (hm : MainMove sh m sh' m') (s : Seat) :
    (sh'.serverReadPipes s).count b ≤ (sh.serverReadPipes s).count b := by
  cases hm with
  | lost _ _ _ _ _ hp | woken _ _ _ _ _ hp | badBarrier _ _ _ _ _ _ hp | gotCard _ _ _ _ _ _ hp
  | lostPlayer _ _ _ _ _ _ _ hp | badDeal _ _ _ _ _ _ _ _ hp => exact count_noticed_le hp
  | _ => exact le_rfl

lemma MainMove.reads (hm : MainMove sh m sh' m') {s : Seat} (hb : b ∈ sh'.serverReadPipes s) :
    b ∈ sh.serverReadPipes s := by
  have := hm.count_reads (b := b) s
  rw [← List.count_pos_iff] at hb ⊢
  omega

lemma afterBarrier_inBarrier (r : Caller) : (m.afterBarrier r).pc.inBarrier = false :=
  m.afterBarrier_pc r (P := fun _ pc => pc.inBarrier = false) rfl (fun _ _ _ _ => rfl) rfl rfl rfl

lemma MainMove.calls (hm : MainMove sh m sh' m') (h : m.pc.inBarrier = false)
    (h' : m'.pc.inBarrier = true) : m.pc.losing sh = true ∨ m'.pc.wait = none := by
  cases hm with
  | lostPlayer s j rest ready got left hpc hp =>
    left
    simp [hpc, hp, MainPc.losing]
  | announceLast b =>
    right
    cases b <;> rfl
  | reset _ hpc | ask _ _ _ hpc | askLast _ _ hpc | poll _ _ hpc | lost _ _ _ _ hpc
  | woken _ _ _ _ hpc | stay _ hpc | resend _ _ _ hpc =>
    rw [hpc] at h
    cases h
  | releaseLast s r =>
    rw [afterBarrier_inBarrier] at h'
    cases h'
  | _ => cases h'

lemma MainMove.returns (hm : MainMove sh m sh' m') (h : m.pc.counting = true)
    (h' : m'.pc.counting = false) :
    (m.pc.sampling = true ∧ int16 (4 - sh.occupied) ≤ 0) ∨ m'.pc.Confused := by
  cases hm with
  | pass r hpc hw =>
    rw [hpc]
    exact .inl ⟨rfl, hw⟩
  | badBarrier => exact .inr (.inl rfl)
  | reset | ask | askLast | poll | lost | woken | stay | resend => cases h'
  | _ => simp_all [MainPc.counting]

lemma afterBarrier_errorMessage (r : Caller) : (m.afterBarrier r).pc.errorMessage = none :=
  m.afterBarrier_pc r (P := fun _ pc => pc.errorMessage = none) rfl (fun _ _ _ _ => rfl) rfl rfl rfl

/-- **What closes the server**: a byte that is not known, or a card of a seat that is not waited
for. -/
lemma MainMove.confused (hm : MainMove sh m sh' m') (h : m'.pc.Confused) : m.pc.Confused ∨
    ∃ s b, b ∈ sh.serverReadPipes s ∧ (¬m.pc.Knows b ∨ b = .cardPlay ∧ m.pc.wait ≠ some s) := by
  cases hm with
  | badBarrier s ready r b rest hpc hp hb =>
    refine .inr ⟨s, b, by simp [hp], .inl ?_⟩
    rw [hpc]
    rcases b <;> simp_all [MainPc.Knows, MainPc.inBarrier, MainPc.counting]
  | badDeal s j rest ready got b left hpc hp hb =>
    refine .inr ⟨j, b, by simp [hp], ?_⟩
    rw [hpc]
    by_cases hcard : b = .cardPlay
    · refine .inr ⟨hcard, fun hw => hb.1 ⟨hcard, ?_⟩⟩
      exact (Option.some.inj hw).symm
    · left
      rcases b <;> simp_all [MainPc.Knows, MainPc.counting]
  | close _ _ hpc | closeSeat _ _ _ _ hpc =>
    left
    rw [hpc]
    exact h
  | gameOver =>
    rcases h with h | h <;> exact absurd (Option.some.inj h) (by decide)
  | releaseLast s r =>
    rcases h with h | h <;> simp [afterBarrier_errorMessage] at h
  | announceLast b =>
    cases b <;> rcases h with h | h <;> cases h
  | _ => rcases h with h | h <;> cases h

lemma Understood.sane_next (h : Understood sh m.pc v) (hm : MainMove sh m sh' m') :
    ¬m'.pc.Confused := by
  intro hc
  rcases hm.confused hc with hc | ⟨s, b, hb, hno | ⟨rfl, hw⟩⟩
  · exact h.sane hc
  · exact hno (h.known b (.inl ⟨s, hb⟩))
  · exact hw (h.flight.inPipe s hb).1

/-- **The main thread keeps the invariant**, if no card is in flight when it calls `barrier` for a
`DISCONNECTED` byte, and no byte that wakes it when `barrier` finds the count full. -/
theorem Understood.main (h : Understood sh m.pc v) (hm : MainMove sh m sh' m')
    (hcard : m.pc.losing sh = true → ¬Underway sh v .cardPlay)
    (hwake : m.pc.sampling = true → int16 (4 - sh.occupied) ≤ 0 → ¬Underway sh v .barrierResponse) :
    Understood sh' m'.pc v := by
  have hf := h.flight.main hm
  have hunder : ∀ b, Underway sh' v b → Underway sh v b :=
    fun b hb => hb.imp (fun ⟨s, hs⟩ => ⟨s, hm.reads hs⟩) id
  refine ⟨hf, fun b hb => ?_, h.sane_next hm⟩
  have hknown := h.known b (hunder b hb)
  cases b with
  | cardPlay =>
    show m'.pc.inBarrier = false
    by_contra hin
    rcases hm.calls hknown (by simpa using hin) with hl | hw
    · exact hcard hl (hunder _ hb)
    · exact hf.not_underway hw hb
  | barrierResponse =>
    show m'.pc.counting = true
    by_contra hc
    rcases hm.returns hknown (by simpa using hc) with ⟨hs, hw⟩ | hconf
    · exact hwake hs hw (hunder _ hb)
    · exact h.sane_next hm hconf
  | disconnected => trivial
  | _ => exact hknown.elim

end Main

lemma not_underway_start {timeout : ℤ} {b : Byte} :
    ¬Underway { timeout := timeout } (fun _ => Thread.view {}) b := by
  rintro (⟨s, hs⟩ | ⟨c, hc⟩)
  · cases hs
  · cases hc

lemma Understood.start {timeout : ℤ} {deals : List Deal} :
    Understood { timeout := timeout } (Main.pc { deals := deals }) fun _ => Thread.view {} := by
  refine ⟨.start, fun b hb => absurd hb not_underway_start, ?_⟩
  rintro (h | h) <;> cases h

lemma Underway.of_accepting {sh : Shared} {v : ℕ → View} {b : Byte} {c : ℕ} {fd : ℤ}
    (hb : Underway sh (Function.update v c { Thread.view {} with clientFd := fd }) b) :
    Underway sh v b := by
  refine hb.imp id ?_
  rintro ⟨c', hk⟩
  by_cases hcc : c' = c
  · subst hcc
    simp [Kind.byte] at hk
  · rw [Function.update_of_ne hcc] at hk
    exact ⟨c', hk⟩

lemma Understood.accepting {sh : Shared} {pc : MainPc} {v : ℕ → View} (h : Understood sh pc v)
    (c : ℕ) (fd : ℤ) :
    Understood sh pc (Function.update v c { Thread.view {} with clientFd := fd }) :=
  ⟨h.flight.accepting c fd, fun b hb => h.known b hb.of_accepting, h.sane⟩

/-! ### The runs -/

/-- The byte is in a pipe to the main thread, or the thread of a connection is about to write it. -/
def State.Underway (st : State) (b : Byte) : Prop :=
  (∃ s, b ∈ st.sh.serverReadPipes s) ∨ ∃ c < st.threadId, (st.threads c).pc.kind.byte = some b

instance (st : State) (b : Byte) : Decidable (st.Underway b) :=
  inferInstanceAs (Decidable ((∃ _, _) ∨ ∃ _ < _, _))

lemma State.underway_iff {st : State} (hn : st.Numbered) (b : Byte) :
    st.Underway b ↔ Serwer.Underway st.sh st.view b := by
  refine or_congr Iff.rfl ⟨fun ⟨c, _, hc⟩ => ⟨c, hc⟩, fun ⟨c, hc⟩ => ⟨c, ?_, hc⟩⟩
  by_contra hlt
  have : (st.view c).kind = .fresh := Thread.kind_eq (hn c (by omega))
  rw [this] at hc
  cases hc

/-- A card is accepted only from the seat for whose card `run_deal` waits, the first in the wait and
outside `barrier`, and none is in flight when `run_deal` calls `barrier` for a `DISCONNECTED` byte.
The fourth acknowledgement comes in the waiting loop of `barrier`, and the byte that wakes the main
thread then is not in flight when `barrier` finds the count full. -/
def BytesGuarded (st : State) : Act → Prop
  | .thread c _ =>
    ((st.threads c).accepts st.sh = true →
      Open st.sh st.main.pc (st.threads c).seat ∧ st.main.pc.inBarrier = false) ∧
    ((st.threads c).pc = .readPipe true →
      (st.sh.serverWritePipes (st.threads c).seat).head? = some .barrierResponse →
      int16 (st.sh.occupied + 1) = 4 → st.main.pc.counting = true)
  | .main _ =>
    (st.main.pc.losing st.sh = true → ¬st.Underway .cardPlay) ∧
    (st.main.pc.sampling = true → int16 (4 - st.sh.occupied) ≤ 0 → ¬st.Underway .barrierResponse)
  | .accept _ => True

instance (st : State) : (a : Act) → Decidable (BytesGuarded st a)
  | .thread _ _ => inferInstanceAs (Decidable ((_ → _ ∧ _) ∧ (_ → _ → _ → _)))
  | .main _ => inferInstanceAs (Decidable ((_ → ¬_) ∧ (_ → _ → ¬_)))
  | .accept _ => inferInstanceAs (Decidable True)

section Runs

variable {timeout : ℤ} {deals : List Deal} {st : State}

lemma understood (h : RunsTo BytesGuarded timeout deals st) :
    Understood st.sh st.main.pc st.view := by
  refine RunsTo.keeps (I := fun sh m v => Understood sh m.pc v) (J := fun _ _ _ => True)
    (fun _ _ => trivial) .start ?_ (fun _ _ _ c fd _ hi _ _ => hi.accepting c fd)
    (fun _ _ _ _ _ _ hi hok hm => hi.thread rfl hm hok.1.1 hok.1.2) (h.with_known fun _ hr => numbered hr)
  rintro st ready sh m - hi ⟨⟨hcard, hwake⟩, hn⟩ hm
  rw [State.underway_iff hn] at hcard hwake
  exact hi.main hm hcard hwake

/-- **The main thread knows every byte it reads**, in the guarded runs. -/
theorem bytes_understood (h : RunsTo BytesGuarded timeout deals st) : ¬st.main.pc.Confused :=
  (understood h).sane

/-- The game starts, and `N` plays a card of which the main thread hears. -/
theorem bytes_understood_first : ∃ st, RunsTo BytesGuarded 5000 [suitsDeal] st ∧
    st.main.pc.got = true ∧ ¬st.main.pc.Confused := by
  obtain ⟨st, hr, hp⟩ := exists_run BytesGuarded [suitsDeal]
    (opening ++ mains 8 ++ hears 0 3 ++ hears 0 3 ++ hears 0 3 ++
      sends 0 ['T', 'R', 'I', 'C', 'K', '1', '2', 'C', '\r', '\n'] false 2 ++
      [.main [.N]] ++ mains 1) (fun st => st.main.pc.got) (by decide +kernel)
  exact ⟨st, hr, hp, bytes_understood hr⟩

end Runs

/-! ### A byte that comes too late -/

/-- A call that does not fail, and a line that is well formed. -/
def Outcome.wellFormed (pc : Pc) : Outcome → Bool
  | .line l => if pc = .readIam then Regex.IAMCheck l else Regex.TRICKClientCheck l
  | .fail => false
  | .tick | .eof | .ready _ _ _ | .expire => true

/-- No system call fails, and the clients send nothing but well-formed `IAM` and `TRICK` lines. -/
def WellBehaved (st : State) : Act → Prop
  | .thread c o => o.wellFormed (st.threads c).pc = true
  | .main _ | .accept _ => True

instance (st : State) : (a : Act) → Decidable (WellBehaved st a)
  | .thread _ _ => inferInstanceAs (Decidable (_ = true))
  | .main _ | .accept _ => inferInstanceAs (Decidable True)

/-- `N` has been asked for its card when `E` leaves. The main thread reads of the departure and
calls `barrier`, and only then the card of `N` arrives and is accepted. -/
def cardInBarrier : List Act :=
  opening ++ mains 8 ++ hears 0 3 ++ hears 0 3 ++ hears 0 3 ++ leaves 1 true 3 ++ [.main [.E]] ++
  mains 1 ++ sends 0 ['T', 'R', 'I', 'C', 'K', '1', '2', 'C', '\r', '\n'] false 2 ++ mains 5 ++
  [.main [.N]] ++ mains 1

/-- A client has passed by on `N`. All the seats acknowledge, and before the last of them wakes the
main thread, it is woken by the `DISCONNECTED` byte of that client and finds the count full. The
byte that was to wake it is read in the wait for the first card. -/
def wakeInDeal : List Act :=
  mains 5 ++ asks 0 .N ++ ticks 0 3 ++ leaves 0 true 3 ++ asks 1 .N ++ ticks 1 3 ++ asks 2 .E ++
  ticks 2 3 ++ asks 3 .S ++ ticks 3 3 ++ asks 4 .W ++ ticks 4 3 ++ hears 1 1 ++ hears 2 1 ++
  hears 3 1 ++ hears 4 0 ++ [.main [.N]] ++ mains 3 ++ ticks 4 1 ++ mains 13 ++ [.main [.W]] ++
  mains 1

/-- **A card read by `barrier`, or a byte of `barrier` read by `run_deal`, ends the game.** -/
theorem bytes_not_understood :
    (∃ st, RunsTo WellBehaved 5000 [suitsDeal] st ∧ st.main.pc.errorMessage = some invalidInBarrier) ∧
    ∃ st, RunsTo WellBehaved 5000 [suitsDeal] st ∧ st.main.pc.errorMessage = some invalidInDeal := by
  constructor
  · obtain ⟨st, hr, hp⟩ := exists_run WellBehaved [suitsDeal] cardInBarrier
      (fun st => decide (st.main.pc.errorMessage = some invalidInBarrier)) (by decide +kernel)
    exact ⟨st, hr, of_decide_eq_true hp⟩
  · obtain ⟨st, hr, hp⟩ := exists_run WellBehaved [suitsDeal] wakeInDeal
      (fun st => decide (st.main.pc.errorMessage = some invalidInDeal)) (by decide +kernel)
    exact ⟨st, hr, of_decide_eq_true hp⟩

end Kierki.Serwer
