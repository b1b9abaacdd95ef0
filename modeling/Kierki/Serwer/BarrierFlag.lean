import Kierki.Serwer.BarrierCount

/-!
# The flag of `barrier`

`b_is_barrier_ongoing` outside the waiting loop of `barrier`. The loop is left on every count of at
least four, the flag is cleared only on a count of exactly four. Where no larger count is found,
the flag is on after the loop only because a connection has left since, and the byte that tells the
main thread so is still to come, from a seat that is free until then; and the bytes a seat thread
still has to read end its barrier mode.
-/

namespace Kierki.Serwer

open Lib.Lts

/-- `barrier`, up to the end of its waiting loop. -/
def MainPc.inBarrier : MainPc → Bool
  | barrierReset _ => true
  | pc => pc.counting

/-- The main thread neither waits in `barrier` nor closes the server. -/
def MainPc.goesOn (pc : MainPc) : Prop := pc.inBarrier = false ∧ pc.closing = false

/-- The seats to which `barrier` still has to write `BARRIER_END`. -/
def MainPc.ending : MainPc → List Seat
  | barrierRelease left _ => left
  | _ => []

/-- The main thread is at the test of the count. -/
def MainPc.sampling : MainPc → Bool
  | barrierScan [] _ => true
  | _ => false

/-- The barrier mode of a thread that reads some bytes of its pipe. -/
def modeAfter (mode : Bool) (l : List Byte) : Bool :=
  l.foldl (fun mode b => if b = .barrierResponse then true else if b = .barrierEnd then false
    else mode) mode

/-- The bytes of a seat thread to come before the next call of `barrier`, as far as they change its
mode. -/
def coming (sh : Shared) (pc : MainPc) (s : Seat) : List Byte :=
  sh.serverWritePipes s ++ if s ∈ pc.ending then [.barrierEnd] else []

lemma MainPc.counting_of_sampling {pc : MainPc} (h : pc.sampling = true) : pc.counting = true := by
  unfold sampling at h
  split at h
  · rfl
  · cases h

/-! ### The mode -/

section Mode

variable {mode : Bool} {l : List Byte} {b : Byte}

@[simp] lemma modeAfter_append_end : modeAfter mode (l ++ [.barrierEnd]) = false := by
  simp [modeAfter]

lemma modeAfter_append_other (h₁ : b ≠ .barrierResponse) (h₂ : b ≠ .barrierEnd) :
    modeAfter mode (l ++ [b]) = modeAfter mode l := by
  simp [modeAfter, h₁, h₂]

lemma modeAfter_mono (h : modeAfter true l = false) : modeAfter mode l = false := by
  induction l generalizing mode with
  | nil => cases h
  | cons b l ih =>
    cases b with
    | barrierResponse | barrierEnd => exact h
    | _ => exact ih h

lemma modeAfter_no_end (h : modeAfter mode l = false) (hl : .barrierEnd ∉ l) : mode = false := by
  induction l generalizing mode with
  | nil => exact h
  | cons b l ih =>
    have hl' : .barrierEnd ∉ l := fun h => hl (List.mem_cons_of_mem _ h)
    cases b with
    | barrierEnd => simp at hl
    | barrierResponse => cases ih h hl'
    | _ => exact ih h hl'

end Mode

/-! ### The invariant -/

/-- **The invariant of the flag**, while the main thread neither waits in `barrier` nor closes. -/
structure Flagged (sh : Shared) (pc : MainPc) (v : ℕ → View) : Prop where
  released : sh.bIsBarrierOngoing = true → releasedSincePassed sh.log = true
  pending : sh.bIsBarrierOngoing = true →
    (∃ s, .disconnected ∈ sh.serverReadPipes s) ∨
      ∃ c, (v c).kind = .gone ∧ sh.seatsStatus (v c).seat = -1
  seats : releasedSincePassed sh.log = false → ∀ s, modeAfter false (coming sh pc s) = false
  threads : releasedSincePassed sh.log = false → ∀ c, (v c).kind.polls = true →
    modeAfter (v c).barrier (coming sh pc (v c).seat) = false

/-- A thread is not in barrier mode before the end of `reserve_spot`. -/
def EntersFree (v : ℕ → View) : Prop :=
  ∀ c, (v c).kind = .fresh ∨ (v c).kind = .reserve ∨ (v c).kind = .joining → (v c).barrier = false

section Thread

variable {sh sh' : Shared} {m : Main} {v : ℕ → View} {c : ℕ} {t : Thread} {o : Outcome} {v' : View}

lemma Move.entersFree (h : EntersFree v) (hv : v c = t.view) (hm : Move sh c t o sh' v') :
    EntersFree (Function.update v c v') := by
  have hc := hv ▸ h c
  intro c'
  by_cases hcc : c' = c
  · subst hcc
    rw [Function.update_self]
    cases hm with
    | played _ _ hk' => obtain rfl | rfl := hk' <;> simp
    | take _ _ hk _ hk' => simp_all
    | _ => simp_all
  · simpa [hcc] using h c'

/-- What a move means for the barrier mode: it takes one byte out of the pipe and obeys it, or it
leaves the pipe alone and takes the mode from the flag only. -/
lemma Move.mode (hm : Move sh c t o sh' v') :
    (sh'.serverWritePipes = sh.serverWritePipes ∧
      (sh.bIsBarrierOngoing = false → v'.barrier = t.bIsBarrier) ∧
      (v'.kind.polls = true → v'.seat = t.seat ∧
        (t.view.kind.polls = true ∨ t.view.kind = .joining))) ∨
    (∃ b rest, t.view.kind = .play ∧ sh.serverWritePipes t.seat = b :: rest ∧
      sh'.serverWritePipes = Function.update sh.serverWritePipes t.seat rest ∧
      v'.seat = t.seat ∧ v'.barrier = modeAfter t.bIsBarrier [b]) := by
  cases hm with
  | ask rest hk hp | dismissed rest hk hp | ack rest hk hp | ackLast rest hk hp
  | unbar rest _ hk hp => exact .inr ⟨_, rest, hk, hp, rfl, rfl, by simp [modeAfter]⟩
  | inform b rest hk hp hb =>
    refine .inr ⟨b, rest, hk, hp, rfl, rfl, ?_⟩
    obtain rfl | rfl | rfl := hb <;> rfl
  | take k _ hk hs hk' =>
    refine .inl ⟨rfl, fun _ => rfl, fun hpolls => ?_⟩
    obtain rfl | ⟨rfl, -⟩ := hk' <;> cases hpolls
  | top hk hb => exact .inl ⟨rfl, fun hf => by simp_all, fun _ => ⟨rfl, .inl (by simp [hk, Kind.polls])⟩⟩
  | quiet q => exact .inl ⟨rfl, fun _ => rfl, fun h => ⟨rfl, .inl h⟩⟩
  | join _ hk => exact .inl ⟨rfl, fun hf => by simp [hf], fun _ => ⟨rfl, .inr hk⟩⟩
  | _ => exact .inl ⟨rfl, fun _ => rfl, fun _ => by simp_all [Kind.polls]⟩

/-- What a move means for the flag: nothing, and a departure not yet reported stays so or is
reported now; or it is a departure. -/
lemma Move.flag (hm : Move sh c t o sh' v') :
    (sh'.bIsBarrierOngoing = sh.bIsBarrierOngoing ∧
      releasedSincePassed sh'.log = releasedSincePassed sh.log ∧
      (∀ s, sh.serverReadPipes s ⊆ sh'.serverReadPipes s) ∧
      (t.view.kind = .gone → v'.kind = .gone ∨ .disconnected ∈ sh'.serverReadPipes t.seat ∨
        o = .fail)) ∨
    (releasedSincePassed sh'.log = true ∧ v'.kind = .gone ∧ sh'.seatsStatus v'.seat = -1) := by
  have hreport : ∀ b s, sh.serverReadPipes s ⊆ (sh.report t.seat b).serverReadPipes s := by
    intro b s
    by_cases hs : s = t.seat
    · subst hs
      simp
    · simp [hs]
  cases hm with
  | release => exact .inr ⟨rfl, rfl, Function.update_self _ _ _⟩
  | played _ hk | wake hk => exact .inl ⟨rfl, rfl, hreport _, fun h => by simp [hk] at h⟩
  | reported hk => exact .inl ⟨rfl, rfl, hreport _, fun _ => .inr (.inl (by simp))⟩
  | unreported hk ho => exact .inl ⟨rfl, rfl, fun _ => List.Subset.refl _, fun _ => .inr (.inr ho)⟩
  | quiet q => exact .inl ⟨rfl, rfl, fun _ => List.Subset.refl _, fun h => .inl h⟩
  | lost hk =>
    exact .inl ⟨rfl, rfl, fun _ => List.Subset.refl _, fun h => by simp [h] at hk⟩
  | leave hk =>
    exact .inl ⟨rfl, rfl, fun _ => List.Subset.refl _, fun h => by simp [h, Kind.polls] at hk⟩
  | _ => exact .inl ⟨rfl, rfl, fun _ => List.Subset.refl _, fun h => by simp_all⟩

lemma Move.seat_of_gone (hm : Move sh c t o sh' v') (hk : t.view.kind = .gone) : v'.seat = t.seat := by
  cases hm with
  | iam _ _ hk' => simp [hk'] at hk
  | _ => rfl

lemma Move.free {s : Seat} (hm : Move sh c t o sh' v') (h : sh.seatsStatus s = -1)
    (hfree : t.pc = .take → s ≠ t.seat) : sh'.seatsStatus s = -1 := by
  obtain ⟨hst, -⟩ | ⟨hpc, -, hst, -⟩ | ⟨-, hst, -⟩ := hm.seats
  · rwa [hst]
  · rwa [hst, Function.update_of_ne (hfree hpc)]
  · rw [hst]
    by_cases hs : s = t.seat
    · rw [hs, Function.update_self]
    · rwa [Function.update_of_ne hs]

/-- **A seat thread keeps the invariant**, if its `DISCONNECTED` is written, and with the flag on it
takes no seat whose `DISCONNECTED` is still to be written. -/
theorem Flagged.thread {pc : MainPc} (h : Flagged sh pc v) (hs : Seated sh v) (hf : EntersFree v)
    (hv : v c = t.view) (hm : Move sh c t o sh' v') (hok : o = .fail → t.view.kind ≠ .gone)
    (htake : t.pc = .take → sh.seatsStatus t.seat = -1 → sh.bIsBarrierOngoing = true →
      ∀ c', (v c').kind = .gone → (v c').seat ≠ t.seat) :
    Flagged sh' pc (Function.update v c v') := by
  obtain ⟨hflag, hrel, hread, hgone⟩ | ⟨hrel, hgone, hfree⟩ := hm.flag
  case inr =>
    exact ⟨fun _ => hrel, fun _ => .inr ⟨c, by simpa using ⟨hgone, hfree⟩⟩,
      fun h => by simp [hrel] at h, fun h => by simp [hrel] at h⟩
  have hseats : releasedSincePassed sh'.log = false → ∀ s, modeAfter false (coming sh' pc s) = false := by
    intro hr s
    have hold := h.seats (hrel ▸ hr) s
    obtain ⟨hp, -⟩ | ⟨b, rest, -, hp, hp', -⟩ := hm.mode
    · simpa only [coming, hp] using hold
    · by_cases hst : s = t.seat
      · subst hst
        rw [coming, hp, List.cons_append] at hold
        rw [coming, hp', Function.update_self]
        cases b with
        | barrierResponse => exact modeAfter_mono hold
        | _ => exact hold
      · simpa only [coming, hp', Function.update_of_ne hst] using hold
  refine ⟨fun hfl => ?_, fun hfl => ?_, hseats, fun hr c' hk => ?_⟩
  · rw [hrel]
    exact h.released (hflag ▸ hfl)
  · obtain ⟨s, hd⟩ | ⟨c', hk, hfree⟩ := h.pending (hflag ▸ hfl)
    · exact .inl ⟨s, hread s hd⟩
    · have hfree' : sh'.seatsStatus (v c').seat = -1 := hm.free hfree fun hpc heq =>
        htake hpc (heq ▸ hfree) (hflag ▸ hfl) c' hk heq
      by_cases hcc : c' = c
      · subst hcc
        rw [hv] at hk hfree'
        obtain hk' | hd | ho := hgone hk
        · exact .inr ⟨c', by simp [hk'], by rw [Function.update_self, hm.seat_of_gone hk]; exact hfree'⟩
        · exact .inl ⟨_, hd⟩
        · exact absurd hk (hok ho)
      · exact .inr ⟨c', by simpa [hcc] using ⟨hk, hfree'⟩⟩
  · have hfree : sh.bIsBarrierOngoing = false := by
      by_contra hfl
      have := h.released (by simpa using hfl)
      rw [← hrel, hr] at this
      cases this
    by_cases hcc : c' = c
    · subst hcc
      rw [Function.update_self] at hk ⊢
      obtain ⟨hp, hb, hpolls⟩ | ⟨b, rest, hk', hp, hp', hst, hb⟩ := hm.mode
      · obtain ⟨hst, hk' | hk'⟩ := hpolls hk
        · have := h.threads (hrel ▸ hr) c' (by rwa [hv])
          rw [hv] at this
          simpa only [coming, hp, hb hfree, hst, Thread.view_seat, Thread.view_barrier] using this
        · -- a thread that enters `client_poll` takes no barrier mode with it
          have hbar : t.bIsBarrier = false := by
            have := hf c' (.inr (.inr (by rw [hv, hk'])))
            rwa [hv] at this
          rw [hb hfree, hbar]
          exact hseats hr _
      · have := h.threads (hrel ▸ hr) c' (by rw [hv, hk']; rfl)
        rw [hv, coming, Thread.view_seat, hp] at this
        rw [coming, hst, hp', Function.update_self, hb]
        exact this
    · rw [Function.update_of_ne hcc] at hk ⊢
      have hold := h.threads (hrel ▸ hr) c' hk
      obtain ⟨hp, -⟩ | ⟨b, rest, hk', hp, hp', -⟩ := hm.mode
      · simpa only [coming, hp] using hold
      · have hst : (v c').seat ≠ t.seat := fun hst => hcc <|
          hs.holder_unique (Kind.holds_of_polls hk) (by rw [hv, hk']; rfl) (by rw [hst, hv]; rfl)
        simpa only [coming, hp', Function.update_of_ne hst] using hold

end Thread

lemma Flagged.accept {sh : Shared} {pc : MainPc} {v : ℕ → View} {c : ℕ} {fd : ℤ}
    (h : Flagged sh pc v) (hk : (v c).kind = .fresh) :
    Flagged sh pc (Function.update v c { Thread.view {} with clientFd := fd }) := by
  refine ⟨h.released, fun hf => ?_, h.seats, fun hrel c' hk' => ?_⟩
  · obtain hd | ⟨c', hk', hfree⟩ := h.pending hf
    · exact .inl hd
    · have hcc : c' ≠ c := by
        rintro rfl
        rw [hk] at hk'
        cases hk'
      exact .inr ⟨c', by simpa [hcc] using ⟨hk', hfree⟩⟩
  · by_cases hcc : c' = c
    · subst hcc
      simp [Kind.polls] at hk'
    · rw [Function.update_of_ne hcc] at hk' ⊢
      exact h.threads hrel c' hk'

section Main

variable {sh sh' : Shared} {m m' : Main} {v : ℕ → View}

lemma Flagged.same {pc pc' : MainPc} (h : Flagged sh pc v)
    (hf : sh'.bIsBarrierOngoing = sh.bIsBarrierOngoing)
    (hl : releasedSincePassed sh'.log = releasedSincePassed sh.log)
    (hst : sh'.seatsStatus = sh.seatsStatus)
    (hr : ∀ s, .disconnected ∈ sh.serverReadPipes s → .disconnected ∈ sh'.serverReadPipes s)
    (hc : ∀ s mode, modeAfter mode (coming sh pc s) = false →
      modeAfter mode (coming sh' pc' s) = false) : Flagged sh' pc' v :=
  ⟨fun hfl => hl ▸ h.released (hf ▸ hfl),
    fun hfl => (h.pending (hf ▸ hfl)).imp (fun ⟨s, hd⟩ => ⟨s, hr s hd⟩)
      fun ⟨c, hk, hfree⟩ => ⟨c, hk, hst ▸ hfree⟩,
    fun hrel s => hc s _ (h.seats (hl ▸ hrel) s),
    fun hrel c hk => hc _ _ (h.threads (hl ▸ hrel) c hk)⟩

lemma afterBarrier_ending (r : Caller) : (m.afterBarrier r).pc.ending = [] :=
  m.afterBarrier_pc r (P := fun _ pc => pc.ending = []) rfl (fun _ _ _ _ => rfl) rfl rfl rfl

lemma coming_tell {pc pc' : MainPc} {s₀ s : Seat} {b : Byte} {mode : Bool}
    (h₁ : b ≠ .barrierResponse) (h₂ : b ≠ .barrierEnd) (he : pc.ending = []) (he' : pc'.ending = [])
    (h : modeAfter mode (coming sh pc s) = false) :
    modeAfter mode (coming (sh.tell s₀ b) pc' s) = false := by
  by_cases hs : s = s₀
  · subst hs
    simpa [coming, he, he', modeAfter_append_other h₁ h₂] using h
  · simpa [coming, he, he', hs] using h

lemma coming_release {pc pc' : MainPc} {s₀ s : Seat} {mode : Bool}
    (he : pc.ending = s₀ :: pc'.ending) (h : modeAfter mode (coming sh pc s) = false) :
    modeAfter mode (coming (sh.tell s₀ .barrierEnd) pc' s) = false := by
  by_cases hs : s = s₀
  · subst hs
    rw [coming, Shared.tell_serverWritePipes, Function.update_self]
    split
    · rw [modeAfter_append_end]
    · rw [List.append_nil, modeAfter_append_end]
  · simpa [coming, he, hs] using h

/-- **The main thread keeps the invariant**, if it samples no count above four. -/
theorem Flagged.main (h : m.pc.goesOn → Flagged sh m.pc v) (hm : MainMove sh m sh' m')
    (hg : m'.pc.goesOn) (hok : m.pc.sampling = true → 0 ≤ int16 (4 - sh.occupied)) :
    Flagged sh' m'.pc v := by
  cases hm with
  | pass r hpc hw =>
    have hzero : int16 (4 - sh.occupied) = 0 := le_antisymm hw (hok (by simp [hpc, MainPc.sampling]))
    refine ⟨fun hf => ?_, fun hf => ?_, fun _ s => ?_, fun _ c _ => ?_⟩
    · simp [hzero] at hf
    · simp [hzero] at hf
    · simp [coming, MainPc.ending]
    · simp [coming, MainPc.ending]
  | release s left r hpc hleft =>
    exact (h (by rw [hpc]; exact ⟨rfl, rfl⟩)).same rfl rfl rfl (fun _ hd => hd) fun s mode =>
      coming_release (by rw [hpc]; rfl)
  | releaseLast s r hpc =>
    exact (h (by rw [hpc]; exact ⟨rfl, rfl⟩)).same rfl rfl rfl (fun _ hd => hd) fun s mode =>
      coming_release (by rw [hpc, afterBarrier_ending]; rfl)
  | announce b s left hpc hleft =>
    exact (h (by rw [hpc]; exact ⟨rfl, rfl⟩)).same rfl rfl rfl (fun _ hd => hd) fun s mode =>
      coming_tell (by cases b <;> decide) (by cases b <;> decide) (by rw [hpc]; rfl) rfl
  | announceLast b s hpc =>
    exact (h (by rw [hpc]; exact ⟨rfl, rfl⟩)).same rfl rfl rfl (fun _ hd => hd) fun s mode =>
      coming_tell (by cases b <;> decide) (by cases b <;> decide) (by rw [hpc]; rfl)
        (by cases b <;> rfl)
  | turnSend s rest hpc =>
    exact (h (by rw [hpc]; exact ⟨rfl, rfl⟩)).same rfl rfl rfl (fun _ hd => hd) fun s mode =>
      coming_tell (by decide) (by decide) (by rw [hpc]; rfl) rfl
  | gotCard s rest ready got left hpc hp =>
    refine (h (by rw [hpc]; exact ⟨rfl, rfl⟩)).same rfl rfl rfl (fun s' hd => ?_) fun s' mode hmode => ?_
    · by_cases hs : s' = s
      · subst hs
        simpa [hp] using hd
      · simpa [hs] using hd
    · simpa [coming, hpc, MainPc.ending] using hmode
  | load _ _ hpc | start hpc | trick hpc | turnSet _ _ hpc | cardPoll _ _ _ hpc | waitOn _ _ hpc
  | nextTurn _ _ hpc | lastTurn _ hpc | trickEnd _ _ _ hpc | dealEnd hpc =>
    exact (h (by rw [hpc]; exact ⟨rfl, rfl⟩)).same rfl rfl rfl (fun _ hd => hd) fun s mode hmode => by
      simpa [coming, hpc, MainPc.ending, Main.loadDeal, Main.startDeal, Main.endDeal] using hmode
  | _ => exact absurd hg (by simp [MainPc.goesOn, MainPc.inBarrier, MainPc.counting, MainPc.closing])

end Main

/-! ### The runs -/

/-- The main thread is in the wait of `run_deal` for a card. -/
def MainPc.waitsForCard : MainPc → Bool
  | cardPoll _ _ | cardScan _ _ _ _ => true
  | _ => false

/-- The count that `barrier` samples is at most four. -/
def FourAtMost (st : State) : Act → Prop
  | .main _ => st.main.pc.sampling = true → 0 ≤ int16 (4 - st.sh.occupied)
  | .accept _ | .thread _ _ => True

/-- No `DISCONNECTED` of a seat thread is lost to a failed write; and with the flag on nobody takes a
seat before the thread that gave it back has written its `DISCONNECTED`. -/
def DeparturesReported (st : State) : Act → Prop
  | .thread c o =>
    (o = .fail → (st.threads c).pc.kind ≠ .gone) ∧
    ((st.threads c).pc = .take → st.sh.seatsStatus (st.threads c).seat = -1 →
      st.sh.bIsBarrierOngoing = true → ∀ c' < st.threadId, (st.threads c').pc.kind = .gone →
        (st.threads c').seat ≠ (st.threads c).seat)
  | .main _ | .accept _ => True

/-- **The condition of the flag.** -/
def FlagGuarded (st : State) (a : Act) : Prop := FourAtMost st a ∧ DeparturesReported st a

instance (st : State) : (a : Act) → Decidable (FourAtMost st a)
  | .main _ => inferInstanceAs (Decidable (_ → _))
  | .accept _ | .thread _ _ => inferInstanceAs (Decidable True)

instance (st : State) : (a : Act) → Decidable (DeparturesReported st a)
  | .thread _ _ => inferInstanceAs (Decidable (_ ∧ (_ → _ → _ → _)))
  | .main _ | .accept _ => inferInstanceAs (Decidable True)

instance (st : State) (a : Act) : Decidable (FlagGuarded st a) := inferInstanceAs (Decidable (_ ∧ _))

/-- After `barrier` left its waiting loop, and as long as no connection leaves its seat, the flag is
off; a thread that has read its `BARRIER_END` is out of barrier mode, and then hands a line of its
client to `parse_message`. And the main thread does not wait for a card with all the seats
connected, all the pipes empty and the flag on. -/
def FlagSettled (st : State) : Prop :=
  (st.main.pc.goesOn → releasedSincePassed st.sh.log = false →
    st.sh.bIsBarrierOngoing = false ∧
    ∀ c, (st.threads c).pc.kind.polls = true →
      .barrierEnd ∉ coming st.sh st.main.pc (st.threads c).seat →
      (st.threads c).bIsBarrier = false ∧
      ∀ pipe l st', (st.threads c).pc = .readSocket pipe →
        step st (.thread c (.line l)) = some st' →
        (st'.threads c).pc = .parse l (.pipe pipe) ∧
        st'.sh.barrierMessages = st.sh.barrierMessages) ∧
  ¬(st.main.pc.waitsForCard = true ∧ (∀ s, st.sh.seatsStatus s ≠ -1) ∧
    (∀ s, st.sh.serverReadPipes s = [] ∧ st.sh.serverWritePipes s = []) ∧
    st.sh.bIsBarrierOngoing = true)

section Runs

variable {timeout : ℤ} {deals : List Deal} {st : State}

lemma flagged (h : RunsTo FlagGuarded timeout deals st) :
    EntersFree st.view ∧ (st.main.pc.goesOn → Flagged st.sh st.main.pc st.view) := by
  refine RunsTo.keeps (I := fun sh m v => EntersFree v ∧ (m.pc.goesOn → Flagged sh m.pc v))
    (J := fun sh _ v => Seated sh v) (fun _ hr => seated hr) ?_ ?_ ?_ ?_
    (h.with_known fun _ hr => numbered hr)
  · exact ⟨fun _ _ => rfl, fun hg => (by cases hg.1)⟩
  · exact fun st _ _ _ _ hi hok hm => ⟨hi.1, fun hg => Flagged.main hi.2 hm hg hok.1.1⟩
  · intro sh m v c fd hs hi hk hfd
    refine ⟨fun c' => ?_, fun hg => (hi.2 hg).accept hk⟩
    by_cases hcc : c' = c
    · subst hcc
      simp
    · simpa [hcc] using hi.1 c'
  · rintro st c o _ _ hs hi ⟨⟨-, hfail, htake⟩, hn⟩ hm
    refine ⟨hm.entersFree hi.1 rfl, fun hg => (hi.2 hg).thread hs hi.1 rfl hm hfail
      fun hpc hfree hf c' hk => ?_⟩
    rcases lt_or_ge c' st.threadId with hlt | hge
    · exact htake hpc hfree hf c' hlt hk
    · simp [State.view, Thread.view, hn c' hge, Pc.kind] at hk

lemma Counted.four {sh : Shared} {m : Main} {v : ℕ → View} (h : Counted sh m v)
    (hc : m.pc.counting = true) : 0 ≤ int16 (4 - sh.occupied) := by
  have hb := h.balanced hc
  have hle := hb.due_le .N
  have hnonneg := hb.due_nonneg .N
  rw [hb.int16_waiting]
  omega

/-- **What the clients do keeps the count at four**: where every departure is counted, no larger one is
sampled. -/
theorem flagGuarded_of_counted
    (h : RunsTo (fun st a => DeparturesCounted st a ∧ DeparturesReported st a) timeout deals st) :
    RunsTo FlagGuarded timeout deals st := by
  have hknown := h.with_known (J := fun st => Counted st.sh st.main st.view)
    fun _ hr => counted (hr.mono fun _ _ hok => hok.1)
  refine hknown.mono fun st a hok => ⟨?_, hok.1.2⟩
  cases a with
  | main ready => exact fun hs => hok.2.four (MainPc.counting_of_sampling hs)
  | accept | thread => trivial

/-- **The flag is settled when `barrier` has passed**, in the runs in which no count above four is
sampled and every departure is reported before the seat is taken again. -/
theorem flag_settled (h : RunsTo FlagGuarded timeout deals st) : FlagSettled st := by
  have hi := (flagged h).2
  constructor
  · intro hg hrel
    refine ⟨?_, fun c hk hend => ?_⟩
    · by_contra hf
      have := (hi hg).released (by simpa using hf)
      rw [hrel] at this
      cases this
    · have hb : (st.threads c).bIsBarrier = false :=
        modeAfter_no_end ((hi hg).threads hrel c hk) hend
      refine ⟨hb, fun pipe l st' hpc hs => ?_⟩
      simp only [step, threadStep, hpc, Thread.gotLine, hb, Option.map_some, Option.some.injEq] at hs
      subst hs
      simp
  · rintro ⟨hwait, hseats, hempty, hf⟩
    have hg : st.main.pc.goesOn := by
      revert hwait
      cases st.main.pc <;> simp [MainPc.waitsForCard, MainPc.goesOn, MainPc.inBarrier,
        MainPc.counting, MainPc.closing]
    obtain ⟨s, hd⟩ | ⟨c, -, hfree⟩ := (hi hg).pending hf
    · simp [(hempty s).1] at hd
    · exact hseats _ hfree

/-- After an opening without departures the flag is off, and `run_deal` has begun. -/
theorem flag_settled_opening : ∃ st, RunsTo FlagGuarded 5000 [suitsDeal] st ∧ FlagSettled st ∧
    st.main.pc.goesOn ∧ st.sh.bIsBarrierOngoing = false := by
  obtain ⟨st, hr, hp⟩ := exists_run FlagGuarded [suitsDeal] opening
    (fun st => decide ((st.main.pc.inBarrier = false ∧ st.main.pc.closing = false) ∧
      releasedSincePassed st.sh.log = false)) (by decide +kernel)
  simp only [decide_eq_true_eq] at hp
  exact ⟨st, hr, flag_settled hr, hp.1, ((flag_settled hr).1 hp.1 hp.2).1⟩

end Runs

/-! ### A count above four, and a seat taken too early -/

/-- A client passes by on `N`, so that the next one on `N` acknowledges twice, the second time when
the count is four already and the main thread has not looked yet. The game starts with the flag on:
every thread that reads `BARRIER_END` goes back into barrier mode, and `N` is asked for a card. -/
def fiveAcks : List Act :=
  mains 5 ++ asks 0 .N ++ ticks 0 3 ++ leaves 0 true 3 ++ [.main [.N]] ++ mains 3 ++
  asks 1 .N ++ ticks 1 3 ++ asks 2 .E ++ ticks 2 3 ++ asks 3 .S ++ ticks 3 3 ++
  asks 4 .W ++ ticks 4 3 ++ hears 1 1 ++ hears 2 1 ++ hears 3 1 ++ hears 4 2 ++ hears 1 1 ++
  [.main [.W]] ++ mains 15 ++
  [1, 2, 3, 4].flatMap (fun c => hears c 2 ++ hears c 2) ++ hears 1 2

/-- `N` has read its `CARD_PLAY` byte and leaves; the next client takes the seat before the thread has
written `DISCONNECTED`. -/
def takenUnreported : List Act :=
  opening ++ mains 8 ++ hears 0 3 ++ hears 0 3 ++ hears 0 3 ++
  [1, 2, 3].flatMap (fun c => hears c 3 ++ hears c 3) ++ leaves 0 false 1 ++ asks 4 .N ++ ticks 4 1

/-- The main thread waits for a card with all the seats connected, all the pipes empty and the flag on. -/
def State.hangs (st : State) : Bool :=
  st.main.pc.waitsForCard && decide (∀ s, st.sh.seatsStatus s ≠ -1) &&
    decide (∀ s, st.sh.serverReadPipes s = [] ∧ st.sh.serverWritePipes s = []) &&
    st.sh.bIsBarrierOngoing

lemma State.not_flagSettled {st : State} (h : st.hangs = true) : ¬FlagSettled st := by
  simp only [State.hangs, Bool.and_eq_true, decide_eq_true_eq] at h
  obtain ⟨⟨⟨hwait, hs⟩, hempty⟩, hf⟩ := h
  exact fun hsettled => hsettled.2 ⟨hwait, hs, hempty, hf⟩

/-- **The game hangs**: `run_deal` waits for the card of `N`, whose lines are queued; and with a seat
taken too early it hangs until the departure is reported. -/
theorem flag_left_on : (∃ st, Reachable 5000 [suitsDeal] st ∧ ¬FlagSettled st ∧
      ∀ c < 5, (st.threads c).pc.kind ≠ .gone) ∧
    ∃ st, Reachable 5000 [suitsDeal] st ∧ ¬FlagSettled st ∧ (st.threads 0).pc.kind = .gone := by
  constructor
  · obtain ⟨st, hr, hp⟩ := exists_run (fun _ _ => True) [suitsDeal] fiveAcks
      (fun st => st.hangs && decide (∀ c : ℕ, c < 5 → (st.threads c).pc.kind ≠ .gone))
      (by decide +kernel)
    simp only [Bool.and_eq_true, decide_eq_true_eq] at hp
    exact ⟨st, hr, State.not_flagSettled hp.1, hp.2⟩
  · obtain ⟨st, hr, hp⟩ := exists_run (fun _ _ => True) [suitsDeal] takenUnreported
      (fun st => st.hangs && decide ((st.threads 0).pc.kind = .gone)) (by decide +kernel)
    simp only [Bool.and_eq_true, decide_eq_true_eq] at hp
    exact ⟨st, hr, State.not_flagSettled hp.1, hp.2⟩

end Kierki.Serwer
