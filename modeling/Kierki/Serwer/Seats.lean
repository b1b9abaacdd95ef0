import Kierki.Serwer.MainMoves

/-!
# Who holds a seat

The invariant of `seats_status`: what a connection did with its seat is fixed by the part of the
code its thread is in, a seat is marked with the descriptor of the one connection between taking it
and giving it back, and an unmarked seat has no such connection. It is kept by every step.
-/

namespace Kierki.Serwer

open Lib.Lts

/-! ### What a connection did with its seat -/

/-- The event is about the connection and the seat it asked for. -/
def Event.isOf (c : ℕ) : Event → Bool
  | took c' _ | lost c' _ | released c' _ | dismissed c' _ => c' == c
  | reported c' _ | unreported c' _ => c' == c
  | _ => false

/-- What a connection did with its seat, the last first. -/
def course (c : ℕ) (log : List Event) : List Event := log.filter (Event.isOf c)

/-- What the connection `c` on the seat `s` can have done when its thread is in a part of the
code. -/
def Kind.past (c : ℕ) (s : Seat) : Kind → List Event → Prop
  | fresh, l => l = []
  | finished, l => l = [] ∨ l = [.lost c s, .took c s] ∨ l = [.dismissed c s, .took c s] ∨
      l = [.reported c s, .released c s, .took c s] ∨
      l = [.unreported c s, .released c s, .took c s]
  | gone, l => l = [.released c s, .took c s]
  | _, l => l = [.took c s]

lemma mem_course {c : ℕ} {e : Event} {log : List Event} (he : e.isOf c) :
    e ∈ course c log ↔ e ∈ log := by
  simp [course, he]

lemma between_iff {c : ℕ} {s : Seat} {log : List Event} :
    Between log c s ↔ .took c s ∈ course c log ∧ .released c s ∉ course c log := by
  rw [mem_course (by simp [Event.isOf]), mem_course (by simp [Event.isOf]), Between]

lemma between_took {c c' : ℕ} {s s' : Seat} {log : List Event} (hnone : course c log = []) :
    Between (.took c s :: log) c' s' ↔ (c' = c ∧ s' = s) ∨ Between log c' s' := by
  have hnot : ∀ s, Event.released c s ∉ log := by
    intro s hr
    rw [← mem_course (c := c) (by simp [Event.isOf]), hnone] at hr
    cases hr
  by_cases hc : c' = c
  · subst hc
    simp [Between, hnot]
  · simp [Between, hc]

lemma Kind.past_of_holds {k : Kind} {c : ℕ} {s : Seat} {l : List Event} (hk : k.holds = true)
    (h : k.past c s l) : l = [.took c s] := by
  cases k <;> first | exact h | cases hk

lemma Kind.past_seat {k : Kind} {c : ℕ} {s s' : Seat} {l : List Event} (h : k.past c s l)
    (ht : .took c s' ∈ l) : s' = s ∧ k ≠ .fresh := by
  cases k <;> simp only [Kind.past] at h
  case finished => obtain rfl | rfl | rfl | rfl | rfl := h <;> simp_all
  all_goals simp_all

/-! ### The invariant -/

/-- **The invariant of the seats.** -/
structure Seated (sh : Shared) (v : ℕ → View) : Prop where
  did : ∀ c, (v c).kind.past c (v c).seat (course c sh.log)
  clientFd : ∀ c, 0 ≤ (v c).clientFd
  status : ∀ c s, Between sh.log c s → sh.seatsStatus s = (v c).clientFd
  unique : ∀ c c' s, Between sh.log c s → Between sh.log c' s → c = c'
  taken : ∀ s, sh.seatsStatus s ≠ -1 → ∃ c, Between sh.log c s

section Facts

variable {sh : Shared} {v : ℕ → View} {c c' : ℕ} {s : Seat}

lemma Seated.between (h : Seated sh v) (hk : (v c).kind.holds = true) :
    Between sh.log c (v c).seat := by
  rw [between_iff, Kind.past_of_holds hk (h.did c)]
  simp

lemma Seated.seat_of_between (h : Seated sh v) (hb : Between sh.log c s) :
    (v c).seat = s ∧ (v c).kind ≠ .fresh := by
  have := Kind.past_seat (h.did c) (between_iff.mp hb).1
  exact ⟨this.1.symm, this.2⟩

lemma Seated.between_released (h : Seated sh v) (hheld : Between sh.log c s) {s' : Seat} :
    Between (.released c s :: sh.log) c' s' ↔ Between sh.log c' s' ∧ s' ≠ s := by
  by_cases hs : s' = s
  · subst hs
    simp only [ne_eq, not_true_eq_false, and_false, iff_false]
    intro hb
    have hb' : Between sh.log c' s' := by
      simpa [Between, not_or] using And.intro hb.1 fun hr => hb.2 (by simp [hr])
    obtain rfl : c' = c := h.unique c' c _ hb' hheld
    exact hb.2 (by simp)
  · simp [Between, hs]

lemma Seated.holder_unique (h : Seated sh v) (hk : (v c).kind.holds = true)
    (hk' : (v c').kind.holds = true) (hs : (v c).seat = (v c').seat) : c = c' :=
  h.unique c c' _ (h.between hk) (hs ▸ h.between hk')

lemma Seated.status_of_holds (h : Seated sh v) (hk : (v c).kind.holds = true) :
    sh.seatsStatus (v c).seat = (v c).clientFd ∧ sh.seatsStatus (v c).seat ≠ -1 := by
  have := h.status c _ (h.between hk)
  exact ⟨this, by rw [this]; have := h.clientFd c; omega⟩

end Facts

/-! ### It is kept -/

section Keeps

variable {sh sh' : Shared} {v : ℕ → View} {c : ℕ} {t : Thread} {o : Outcome} {v' : View}

/-- A move changes what its own connection did, and nothing about the others. -/
lemma Move.course_eq {c' : ℕ} (hm : Move sh c t o sh' v') (hc : c' ≠ c) :
    course c' sh'.log = course c' sh.log := by
  cases hm <;> simp [course, Event.isOf, hc.symm]

lemma Move.course_self (hm : Move sh c t o sh' v')
    (h : t.view.kind.past c t.view.seat (course c sh.log)) :
    v'.kind.past c v'.seat (course c sh'.log) := by
  cases hm with
  | take k hpc hk hs hk' =>
    rw [hk] at h
    have h' : course c sh.log = [] := h
    obtain rfl | ⟨rfl, -⟩ := hk' <;> simpa [course, Event.isOf, Kind.past] using h'
  | leave hk => simpa [Kind.past] using Kind.past_of_holds (Kind.holds_of_polls hk) h
  | lost hk => cases hk <;> simp_all [course, Event.isOf, Kind.past]
  | played _ hk hk' => cases hk' <;> simp_all [Kind.past]
  | quiet => exact h
  | _ => simp_all [course, Event.isOf, Kind.past]

/-- What a move means for the seats: nothing, unless it takes a seat or gives one back. -/
lemma Move.seats (hm : Move sh c t o sh' v') :
    (sh'.seatsStatus = sh.seatsStatus ∧ ∀ c' s, Between sh'.log c' s ↔ Between sh.log c' s) ∨
    (t.pc = .take ∧ sh.seatsStatus t.seat = -1 ∧
      sh'.seatsStatus = Function.update sh.seatsStatus t.seat t.clientFd ∧
      sh'.log = .took c t.seat :: sh.log) ∨
    (t.pc = .closeLock false ∧ sh'.seatsStatus = Function.update sh.seatsStatus t.seat (-1) ∧
      sh'.log = .released c t.seat :: sh.log) := by
  cases hm with
  | take k hpc hk hs => exact .inr (.inl ⟨hpc, hs, rfl, rfl⟩)
  | release hpc => exact .inr (.inr ⟨hpc, rfl, rfl⟩)
  | _ => exact .inl ⟨rfl, fun c' s => by simp [Between]⟩

@[simp] lemma Move.clientFd_eq (hm : Move sh c t o sh' v') : v'.clientFd = t.clientFd := by
  cases hm <;> rfl

/-- **A seat thread keeps the invariant.** -/
theorem Seated.thread (h : Seated sh v) (hv : v c = t.view) (hm : Move sh c t o sh' v') :
    Seated sh' (Function.update v c v') := by
  have hcourse : ∀ c', (Function.update v c v' c').kind.past c' (Function.update v c v' c').seat
      (course c' sh'.log) := by
    intro c'
    by_cases hc : c' = c
    · subst hc
      simpa using hm.course_self (hv ▸ h.did c')
    · simpa [hc, hm.course_eq hc] using h.did c'
  have hfd : ∀ c', (Function.update v c v' c').clientFd = (v c').clientFd := by
    intro c'
    by_cases hc : c' = c
    · subst hc
      simp [hm.clientFd_eq, hv]
    · simp [hc]
  obtain ⟨hst, hb⟩ | ⟨hpc, hs, hst, hlog⟩ | ⟨hpc, hst, hlog⟩ := hm.seats
  · exact ⟨hcourse, fun c' => hfd c' ▸ h.clientFd c',
      fun c' s hbs => by rw [hst, hfd]; exact h.status c' s ((hb c' s).mp hbs),
      fun a b s ha hb' => h.unique a b s ((hb a s).mp ha) ((hb b s).mp hb'),
      fun s hs => (h.taken s (hst ▸ hs)).imp fun c' => (hb c' s).mpr⟩
  · -- nobody held the seat, and the connection did nothing before
    have hfree : ∀ c', ¬Between sh.log c' t.seat := fun c' hbs => by
      have := h.status c' _ hbs
      have := h.clientFd c'
      omega
    have hnone : course c sh.log = [] := by
      simpa [hv, Thread.kind_eq hpc, Pc.kind, Kind.past] using h.did c
    have hbs : ∀ c' s, Between sh'.log c' s ↔ (c' = c ∧ s = t.seat) ∨ Between sh.log c' s :=
      fun c' s => hlog ▸ between_took hnone
    refine ⟨hcourse, fun c' => hfd c' ▸ h.clientFd c', fun c' s hb => ?_, fun a b s ha hb => ?_,
      fun s hs' => ?_⟩
    · rw [hst, hfd]
      obtain ⟨rfl, rfl⟩ | hb := (hbs c' s).mp hb
      · simp [hv]
      · have hne : s ≠ t.seat := by rintro rfl; exact hfree _ hb
        simpa [hne] using h.status c' s hb
    · obtain ⟨rfl, hs'⟩ | ha := (hbs a s).mp ha <;> obtain ⟨rfl, hs''⟩ | hb := (hbs b s).mp hb
      · rfl
      · exact absurd (hs' ▸ hb) (hfree b)
      · exact absurd (hs'' ▸ ha) (hfree a)
      · exact h.unique a b s ha hb
    · by_cases hne : s = t.seat
      · exact ⟨c, (hbs c s).mpr (.inl ⟨rfl, hne⟩)⟩
      · rw [hst, Function.update_of_ne hne] at hs'
        exact (h.taken s hs').imp fun c' hb => (hbs c' s).mpr (.inr hb)
  · -- the connection is the one that held the seat
    have hheld : Between sh.log c t.seat := by
      have := h.between (c := c) (by rw [hv, Thread.kind_eq hpc]; rfl)
      simpa [hv] using this
    have hbs : ∀ c' s, Between sh'.log c' s ↔ Between sh.log c' s ∧ s ≠ t.seat :=
      fun c' s => hlog ▸ h.between_released hheld
    refine ⟨hcourse, fun c' => hfd c' ▸ h.clientFd c', fun c' s hb => ?_, fun a b s ha hb => ?_,
      fun s hs' => ?_⟩
    · obtain ⟨hb, hne⟩ := (hbs c' s).mp hb
      rw [hst, hfd]
      simpa [hne] using h.status c' s hb
    · exact h.unique a b s ((hbs a s).mp ha).1 ((hbs b s).mp hb).1
    · have hne : s ≠ t.seat := by rintro rfl; simp [hst] at hs'
      rw [hst, Function.update_of_ne hne] at hs'
      exact (h.taken s hs').imp fun c' hb => (hbs c' s).mpr ⟨hb, hne⟩

lemma MainMove.seats {m m' : Main} (hm : MainMove sh m sh' m') :
    sh'.seatsStatus = sh.seatsStatus ∧ ∀ c, course c sh'.log = course c sh.log := by
  cases hm <;> exact ⟨rfl, fun c => by simp [course, Event.isOf, Main.loadDeal, Main.startDeal, Main.endDeal]⟩

theorem Seated.main {m m' : Main} (h : Seated sh v) (hm : MainMove sh m sh' m') :
    Seated sh' v := by
  obtain ⟨hst, hc⟩ := hm.seats
  have hb : ∀ c s, Between sh'.log c s ↔ Between sh.log c s := by
    intro c s
    rw [between_iff, between_iff, hc]
  exact ⟨fun c => hc c ▸ h.did c, h.clientFd, fun c s hs => hst ▸ h.status c s ((hb c s).mp hs),
    fun a b s ha hb' => h.unique a b s ((hb a s).mp ha) ((hb b s).mp hb'),
    fun s hs => (h.taken s (hst ▸ hs)).imp fun c => (hb c s).mpr⟩

theorem Seated.accept {fd : ℤ} (h : Seated sh v) (hk : (v c).kind = .fresh) (hfd : 0 ≤ fd) :
    Seated sh (Function.update v c { Thread.view {} with clientFd := fd }) := by
  have hne : ∀ c' s, Between sh.log c' s → c' ≠ c := by
    rintro c' s hb rfl
    exact (h.seat_of_between hb).2 hk
  have hc : course c sh.log = [] := by
    have := h.did c
    rwa [hk] at this
  refine ⟨fun c' => ?_, ?_, fun c' s hb => ?_, h.unique, h.taken⟩
  · by_cases hcc : c' = c
    · subst hcc
      simpa [Kind.past] using hc
    · simpa [hcc] using h.did c'
  · exact forall_update (P := fun w => 0 ≤ w.clientFd) h.clientFd c hfd
  · rw [Function.update_of_ne (hne c' s hb)]
    exact h.status c' s hb

end Keeps

/-! ### The runs -/

section Runs

variable {ok : State → Act → Prop} {timeout : ℤ} {deals : List Deal} {st : State}

/-- **The invariant of the seats holds in every state of every run.** -/
theorem seated (h : RunsTo ok timeout deals st) : Seated st.sh st.view := by
  refine RunsTo.keeps (I := fun sh _ v => Seated sh v) (J := fun _ _ _ => True) (fun _ _ => trivial)
    ?_ (fun st _ _ _ _ hi _ hm => hi.main hm) (fun _ _ _ _ _ _ hi hk hfd => hi.accept hk hfd)
    (fun st c _ _ _ _ hi _ hm => hi.thread rfl hm) h
  exact ⟨fun _ => rfl, fun _ => le_rfl, fun _ _ hb => by simp [Between] at hb,
    fun _ _ _ hb => by simp [Between] at hb, fun _ hs => absurd rfl hs⟩

lemma Move.touches {sh sh' : Shared} {c : ℕ} {t : Thread} {o : Outcome} {v' : View}
    (hm : Move sh c t o sh' v') (s : Seat) (h : sh'.serverWritePipes s ≠ sh.serverWritePipes s ∨ sh'.cards s ≠ sh.cards s) :
    t.view.kind.holds = true ∧ s = t.seat := by
  have hother : ∀ {β : Type} (f : Seat → β) (x : β), Function.update f t.seat x s ≠ f s →
      s = t.seat := fun f x hne => by
    by_contra hs
    exact hne (Function.update_of_ne hs _ _)
  cases hm with
  | accept _ hk =>
    simp only [Shared.note_serverWritePipes, Shared.note_cards, ne_eq, not_true_eq_false,
      false_or] at h
    exact ⟨by rw [hk]; rfl, hother _ _ h⟩
  | ask _ hk | inform _ _ hk | dismissed _ hk | ack _ hk | ackLast _ hk | unbar _ _ hk =>
    simp only [Shared.note_serverWritePipes, Shared.note_cards, Shared.heard_serverWritePipes,
      Shared.heard_cards, ne_eq, not_true_eq_false, or_false] at h
    exact ⟨by rw [hk]; rfl, hother _ _ h⟩
  | _ => simp at h

lemma Move.finished {sh sh' : Shared} {c : ℕ} {t : Thread} {o : Outcome} {v' : View}
    (hm : Move sh c t o sh' v') (hk : t.view.kind = .finished) : sh'.seatsStatus = sh.seatsStatus ∧ v'.kind = .finished := by
  cases hm <;> simp_all [Kind.polls]

lemma BUSYCheck_busyLine {seats : List Seat} (h : seats.length ≤ 4) :
    Regex.BUSYCheck (Senders.busyLine seats) = true := by
  unfold Regex.BUSYCheck Senders.busyLine
  rw [RegularExpression.rmatch_iff_matches', Lib.RegExp.mem_text_mul]
  refine ⟨_, Lib.RegExp.mem_mul.mpr ⟨_, (Lib.RegExp.mem_upTo 4).mpr ⟨seats.map Seat.name, by simpa,
    fun y hy => ?_, rfl⟩, _, (Lib.RegExp.mem_text _).mpr rfl, rfl⟩, ?_⟩
  · obtain ⟨s, -, rfl⟩ := List.mem_map.mp hy
    exact (Lib.RegExp.mem_oneOf _).mpr ⟨s.letter, by cases s <;> decide, rfl⟩
  · simp [List.flatMap_def]

/-- **At most one connection holds a seat.** Its descriptor marks the seat, only its thread reads
the pipe of the seat or changes the hand, and a client that asks for a taken seat is answered with
the seats taken, after which its connection changes no seat any more. -/
theorem seat_has_one_holder (h : Reachable timeout deals st) :
    (∀ c c' s, Between st.sh.log c s → Between st.sh.log c' s → c = c') ∧
    (∀ c s, Between st.sh.log c s → st.sh.seatsStatus s = (st.threads c).clientFd) ∧
    (∀ c o st' s, step st (.thread c o) = some st' →
      st'.sh.serverWritePipes s ≠ st.sh.serverWritePipes s ∨ st'.sh.cards s ≠ st.sh.cards s →
      Between st.sh.log c s) ∧
    (∀ c, (st.threads c).pc = .take → st.sh.seatsStatus (st.threads c).seat ≠ -1 →
      ∃ seats st', step st (.thread c .tick) = some st' ∧ st'.sh = st.sh ∧
        (st'.threads c).pc = .send (Senders.busyLine seats) .busy ∧
        seats.Nodup ∧ (∀ s, s ∈ seats ↔ st.sh.seatsStatus s ≠ -1) ∧
        Regex.BUSYCheck (Senders.busyLine seats) = true) ∧
    (∀ c l st', (st.threads c).pc = .send l .busy → step st (.thread c .tick) = some st' →
      (st'.threads c).outbox = l :: (st.threads c).outbox) ∧
    (∀ c o st', (st.threads c).pc.kind = .finished → step st (.thread c o) = some st' →
      st'.sh.seatsStatus = st.sh.seatsStatus ∧ (st'.threads c).pc.kind = .finished) := by
  have hi := seated h
  refine ⟨hi.unique, hi.status, ?_, ?_, ?_, ?_⟩
  · intro c o st' s hs hne
    simp only [step, Option.map_eq_some_iff] at hs
    obtain ⟨⟨sh, t⟩, hs, rfl⟩ := hs
    obtain ⟨hk, rfl⟩ := (move_of_threadStep hs).touches s hne
    exact hi.between hk
  · intro c hpc hs
    have hbusy : threadStep st.sh c (st.threads c) .tick =
        some (st.sh, (st.threads c).goto (.send (Senders.busyLine st.sh.occupiedSeats) .busy)) := by
      simp only [threadStep, hpc, Thread.takeSeat, if_neg hs]
    refine ⟨st.sh.occupiedSeats, _, congrArg (Option.map _) hbusy, ?_⟩
    refine ⟨by simp, by simp, ?_, ?_, ?_⟩
    · exact List.Nodup.filter _ (by decide)
    · intro s
      simp [Shared.occupiedSeats, Seat.mem_mapOrder]
    · exact BUSYCheck_busyLine (List.length_filter_le _ _)
  · intro c l st' hpc hs
    simp only [step, threadStep, hpc, Option.map_some, Option.some.injEq] at hs
    subst hs
    simp [Thread.sent]
  · intro c o st' hk hs
    simp only [step, Option.map_eq_some_iff] at hs
    obtain ⟨⟨sh, t⟩, hs, rfl⟩ := hs
    obtain ⟨hst, hk'⟩ := (move_of_threadStep hs).finished hk
    refine ⟨hst, ?_⟩
    dsimp only
    rwa [Function.update_self]

/-- `W` is taken and a second client asks for it. -/
theorem seat_has_one_holder_second : ∃ st, Reachable 5000 [] st ∧ st.sh.seatsStatus .W = 5 ∧
    ∃ seats st', step st (.thread 1 .tick) = some st' ∧
      (st'.threads 1).pc = .send (Senders.busyLine seats) .busy ∧ (∀ s, s ∈ seats ↔ s = .W) := by
  obtain ⟨st, hr, hp⟩ := exists_run (fun _ _ => True) []
    (asks 0 .W ++ ticks 0 1 ++ asks 1 .W)
    (fun st => decide ((st.threads 1).pc = .take ∧ (st.threads 1).seat = .W ∧
      st.sh.seatsStatus .W = 5 ∧ ∀ s, st.sh.seatsStatus s ≠ -1 ↔ s = .W)) (by decide +kernel)
  simp only [decide_eq_true_eq] at hp
  obtain ⟨hpc, hseat, hW, hall⟩ := hp
  obtain ⟨seats, st', hs, -, hpc', -, hmem, -⟩ :=
    (seat_has_one_holder hr).2.2.2.1 1 hpc (by rw [hseat, hW]; decide)
  exact ⟨st, hr, hW, seats, st', hs, hpc', fun s => (hmem s).trans (hall s)⟩

end Runs

end Kierki.Serwer
