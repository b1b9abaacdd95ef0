import Kierki.Serwer.Seats

/-!
# Giving a seat back

What is left of a connection when its thread has ended. Every error exit of `parse_message` and
`client_poll` tells `close_thread` that the seat was occupied; the exits of `reserve_spot` after
the seat was taken say that it was not, so a failed write there leaves the seat marked for ever.
Apart from these exits, and from a `DISCONNECTED` byte that cannot be written, a seat is given back
and reported exactly once.
-/

namespace Kierki.Serwer

open Lib.Lts

/-- No write fails in `reserve_spot` after the seat was taken, nor that of `DISCONNECTED`. -/
def WritesPass (st : State) : Act → Prop
  | .thread c o => o = .fail → (st.threads c).pc.kind ≠ .reserve ∧
      (st.threads c).pc.kind ≠ .joining ∧ (st.threads c).pc.kind ≠ .gone
  | .main _ | .accept _ => True

instance (st : State) : (a : Act) → Decidable (WritesPass st a)
  | .thread _ _ => inferInstanceAs (Decidable (_ → _))
  | .main _ | .accept _ => inferInstanceAs (Decidable True)

/-- The thread has ended but for closing its descriptors. -/
def Pc.ended : Pc → Bool
  | finish | done => true
  | _ => false

/-- Every connection that took a seat, ended, and was not ended by the server, gave the seat back
and reported it exactly once; and a seat marked as taken is held by a thread on its way, or by one
that the server ended. -/
def SeatsGivenBack (st : State) : Prop :=
  (∀ c s, .took c s ∈ st.sh.log → (st.threads c).pc.ended = true → .dismissed c s ∉ st.sh.log →
    st.sh.log.count (.released c s) = 1 ∧ st.sh.log.count (.reported c s) = 1) ∧
  (∀ s, st.sh.seatsStatus s ≠ -1 → ∃ c, (st.threads c).seat = s ∧
    (st.threads c).clientFd = st.sh.seatsStatus s ∧
    ((st.threads c).pc.kind.holds = true ∨ .dismissed c s ∈ st.sh.log))

section Course

variable {c : ℕ} {s : Seat} {log : List Event}

lemma count_course {e : Event} (he : e.isOf c = true) : (course c log).count e = log.count e := by
  rw [course, List.count_filter he]

lemma Kind.past_finished {k : Kind} {s' : Seat} (h : k.past c s (course c log)) (hk : k = .finished)
    (ht : .took c s' ∈ log) :
    s' = s ∧ (.dismissed c s ∈ log ∨
      ((log.count (.released c s) = 1 ∧ log.count (.reported c s) = 1) ↔
        (.lost c s ∉ log ∧ .unreported c s ∉ log))) := by
  rw [← mem_course (c := c) (by simp [Event.isOf])] at ht
  refine ⟨(Kind.past_seat h ht).1, ?_⟩
  have hmem : ∀ e, e.isOf c = true → (e ∈ log ↔ e ∈ course c log) := fun e he => (mem_course he).symm
  have hcount : ∀ e, e.isOf c = true → log.count e = (course c log).count e := fun e he =>
    (count_course he).symm
  simp only [hmem (.lost c s) (by simp [Event.isOf]), hmem (.dismissed c s) (by simp [Event.isOf]),
    hmem (.unreported c s) (by simp [Event.isOf]), hcount (.released c s) (by simp [Event.isOf]),
    hcount (.reported c s) (by simp [Event.isOf])]
  subst hk
  obtain h | h | h | h | h := h <;> rw [h] at ht ⊢
  · cases ht
  all_goals simp

lemma Kind.past_between {k : Kind} (h : k.past c s (course c log))
    (hb : Between log c s) : k.holds = true ∨ .lost c s ∈ log ∨ .dismissed c s ∈ log := by
  rw [between_iff] at hb
  have hmem : ∀ e, e.isOf c = true → (e ∈ log ↔ e ∈ course c log) := fun e he => (mem_course he).symm
  simp only [hmem (.lost c s) (by simp [Event.isOf]), hmem (.dismissed c s) (by simp [Event.isOf])]
  cases k <;> simp only [Kind.past] at h
  case finished => obtain h | h | h | h | h := h <;> simp_all
  all_goals simp_all [Kind.holds]

end Course

/-! ### Runs without the failed writes -/

/-- No write failed after a seat was taken in `reserve_spot`, and every `DISCONNECTED` was
written. -/
def NothingLost (log : List Event) : Prop := ∀ c s, .lost c s ∉ log ∧ .unreported c s ∉ log

lemma Move.nothingLost {sh sh' : Shared} {c : ℕ} {t : Thread} {o : Outcome} {v' : View}
    (hm : Move sh c t o sh' v') (ho : o = .fail → t.view.kind ≠ .reserve ∧
      t.view.kind ≠ .joining ∧ t.view.kind ≠ .gone) (h : NothingLost sh.log) : NothingLost sh'.log := by
  cases hm with
  | lost hk hf =>
    obtain ⟨h₁, h₂, -⟩ := ho hf
    exact absurd hk (by simp [h₁, h₂])
  | unreported hk hf => exact absurd hk (ho hf).2.2
  | _ => simpa [NothingLost] using h

lemma MainMove.nothingLost {sh sh' : Shared} {m m' : Main} (hm : MainMove sh m sh' m')
    (h : NothingLost sh.log) : NothingLost sh'.log := by
  cases hm <;> simpa [NothingLost, Main.loadDeal, Main.startDeal, Main.endDeal] using h

section Runs

variable {timeout : ℤ} {deals : List Deal} {st : State}

lemma nothingLost (h : RunsTo WritesPass timeout deals st) : NothingLost st.sh.log := by
  refine RunsTo.keeps (I := fun sh _ _ => NothingLost sh.log) (J := fun _ _ _ => True)
    (fun _ _ => trivial) (by simp [NothingLost]) (fun _ _ _ _ _ hi _ hm => hm.nothingLost hi)
    (fun _ _ _ _ _ _ hi _ _ => hi) (fun st c o _ _ _ hi hok hm => hm.nothingLost hok hi) h

/-- Of one connection, in any run: it gave its seat back and reported it if and only if neither of
the two failures happened to it. -/
theorem given_back_iff (h : Reachable timeout deals st) {c : ℕ} {s : Seat}
    (ht : .took c s ∈ st.sh.log) (hend : (st.threads c).pc.ended = true)
    (hd : .dismissed c s ∉ st.sh.log) :
    (st.sh.log.count (.released c s) = 1 ∧ st.sh.log.count (.reported c s) = 1) ↔
      (.lost c s ∉ st.sh.log ∧ .unreported c s ∉ st.sh.log) := by
  have hk : (st.threads c).pc.kind = .finished := by
    revert hend
    cases (st.threads c).pc <;> simp [Pc.ended, Pc.kind]
  obtain ⟨rfl, hd' | hiff⟩ := Kind.past_finished ((seated h).did c) hk ht
  · exact absurd hd' hd
  · exact hiff

/-- **Without these two failures every seat is given back and reported exactly once**, whatever
else fails and whatever the clients do. -/
theorem seats_given_back (h : RunsTo WritesPass timeout deals st) : SeatsGivenBack st := by
  have hi := seated h
  have hn := nothingLost h
  constructor
  · intro c s ht hend hd
    exact (given_back_iff (h.mono fun _ _ _ => trivial) ht hend hd).mpr (hn c s)
  · intro s hs
    obtain ⟨c, hb⟩ := hi.taken s hs
    obtain ⟨rfl, -⟩ := hi.seat_of_between hb
    refine ⟨c, rfl, (hi.status c _ hb).symm, ?_⟩
    obtain hk | hl | hd := Kind.past_between (hi.did c) hb
    · exact .inl hk
    · exact absurd hl (hn c _).1
    · exact .inr hd

/-- `W` connects and leaves, and its thread ends. -/
theorem seats_given_back_left : ∃ st, RunsTo WritesPass 5000 [] st ∧ SeatsGivenBack st ∧
    .took 0 .W ∈ st.sh.log ∧ (st.threads 0).pc.ended = true := by
  obtain ⟨st, hr, hp⟩ := exists_run WritesPass []
    (mains 5 ++ asks 0 .W ++ ticks 0 3 ++ leaves 0 true 3)
    (fun st => decide (.took 0 .W ∈ st.sh.log ∧ (st.threads 0).pc.ended = true))
    (by decide +kernel)
  simp only [decide_eq_true_eq] at hp
  exact ⟨st, hr, seats_given_back hr, hp⟩

end Runs

/-! ### The failed write -/

/-- `N` leaves in the middle of a deal, a new client takes the seat, and the `DEAL` line cannot be
written to it. -/
def failedCatchUp : List Act :=
  opening ++ leaves 0 true 3 ++ asks 4 .N ++ ticks 4 2 ++ [.thread 4 .fail] ++ ticks 4 1

/-- **The seat stays marked with nobody on it.** -/
theorem seat_not_given_back : ∃ st, Reachable 5000 [suitsDeal] st ∧ ¬SeatsGivenBack st := by
  obtain ⟨st, hr, hp⟩ := exists_run (fun _ _ => True) [suitsDeal] failedCatchUp
    (fun st => decide (.took 4 .N ∈ st.sh.log ∧ (st.threads 4).pc.ended = true ∧
      .dismissed 4 .N ∉ st.sh.log ∧ st.sh.log.count (.released 4 .N) = 0)) (by decide +kernel)
  simp only [decide_eq_true_eq] at hp
  obtain ⟨ht, hend, hd, hcount⟩ := hp
  refine ⟨st, hr, fun h => ?_⟩
  have := (h.1 4 .N ht hend hd).1
  omega

end Kierki.Serwer
