import Kierki.Serwer.DealLines
import Kierki.Serwer.Pipes

/-!
# What is on the board

The facts about the deal in play that the lines to the clients rest on: it is a fair deal of the game
file, its type is stored, and the trick that is announced is the last one taken.
-/

namespace Kierki

namespace Serwer

open Lib.Lts

/-- A deal that can be announced and played: one of the seven types, and four hands of 13 cards, all
of them different. -/
def Deal.Fair (d : Deal) : Prop := (1 ≤ d.trickType ∧ d.trickType ≤ 7) ∧ FullDeal d.hands

instance (d : Deal) : Decidable d.Fair := inferInstanceAs (Decidable (_ ∧ _))

def Caller.inDeal : Caller → Bool
  | cardWait _ _ _ _ | endOfTrick => true
  | _ => false

/-- A deal is in play. -/
def MainPc.inDeal : MainPc → Bool
  | dealStart | announce _ _ | trickStart | turnSet _ | turnSend _ _ | cardPoll _ _ => true
  | cardScan _ _ _ _ | trickEnd | dealEnd => true
  | pc => pc.caller.any Caller.inDeal

/-- **The board**: the deal in play, and the trick that is told. -/
structure Board (sh : Shared) (m : Main) : Prop where
  left : ∀ d ∈ m.deals, d.Fair
  deal : m.pc.inDeal = true → FullDeal sh.deal ∧ 1 ≤ m.trickType ∧ m.trickType ≤ 7
  type : m.pc.inDeal = true → m.pc ≠ .dealStart → sh.trickTypeGlobal = m.trickType
  first : ∀ left, m.pc = .announce .deal left → m.i = 0
  trick : ∀ left, m.pc = .announce .taken left →
    sh.takenTricks.getLast? = some sh.cardsOnTable ∧ sh.takenTakers.getLast? = some sh.lastTaker

section Main

variable {sh sh' : Shared} {m m' : Main} {v : ℕ → View} {c : ℕ} {t t' : Thread} {o : Outcome}

private lemma Board.stay (h : Board sh m) (hdeals : m'.deals = m.deals) (hdeal : sh'.deal = sh.deal)
    (htype : m'.trickType = m.trickType) (hglobal : sh'.trickTypeGlobal = sh.trickTypeGlobal)
    (hin : m'.pc.inDeal = true → m.pc.inDeal = true ∧ m.pc ≠ .dealStart)
    (hfirst : ∀ left, m'.pc = .announce .deal left → m'.i = 0)
    (htrick : ∀ left, m'.pc = .announce .taken left →
      sh'.takenTricks.getLast? = some sh'.cardsOnTable ∧ sh'.takenTakers.getLast? = some sh'.lastTaker) :
    Board sh' m' := by
  refine ⟨by rw [hdeals]; exact h.left, fun hd => ?_, fun hd _ => ?_, hfirst, htrick⟩
  · rw [hdeal, htype]
    exact h.deal (hin hd).1
  · rw [hglobal, htype]
    exact h.type (hin hd).1 (hin hd).2

lemma Board.main (h : Board sh m) (hm : MainMove sh m sh' m') : Board sh' m' := by
  cases hm with
  | load d rest hpc hd =>
    have hfair := h.left d (by simp [hd])
    exact ⟨fun d' hd' => h.left d' (by rw [hd]; exact List.mem_cons_of_mem _ hd'),
      fun _ => ⟨hfair.2, hfair.1⟩, fun _ hne => absurd rfl hne, fun _ hl => (by cases hl),
      fun _ hl => (by cases hl)⟩
  | start hpc =>
    exact ⟨h.left, fun _ => h.deal (by rw [hpc]; rfl), fun _ _ => rfl, fun _ _ => rfl,
      fun _ hl => (by cases hl)⟩
  | announce b s left hpc =>
    refine h.stay rfl rfl rfl rfl (fun _ => by rw [hpc]; simp [MainPc.inDeal]) (fun l hl => ?_)
      fun l hl => ?_
    · cases hl
      exact h.first _ hpc
    · cases hl
      exact h.trick _ hpc
  | announceLast b s hpc =>
    refine h.stay rfl rfl rfl rfl (fun _ => by rw [hpc]; simp [MainPc.inDeal]) (fun l hl => ?_)
      fun l hl => ?_
    · cases b <;> cases hl
    · cases b <;> cases hl
  | releaseLast s r hpc =>
    obtain ⟨hin, hdeal, htaken⟩ := m.afterBarrier_pc r
      (P := fun r pc => (pc.inDeal = true → r.inDeal = true) ∧ (∀ left, pc ≠ .announce .deal left) ∧
        ∀ left, pc ≠ .announce .taken left)
      ⟨fun hd => (by cases hd), by simp, by simp⟩ (fun _ _ _ _ => ⟨fun _ => rfl, by simp, by simp⟩)
      ⟨fun _ => rfl, by simp, by simp⟩ ⟨fun _ => rfl, by simp, by simp⟩
      ⟨fun hd => (by cases hd), by simp, by simp⟩
    refine h.stay (by cases r <;> rfl) rfl (by cases r <;> rfl) rfl (fun hd => ?_)
      (fun l hl => absurd hl (hdeal l)) fun l hl => absurd hl (htaken l)
    rw [hpc]
    exact ⟨by simpa [MainPc.inDeal, MainPc.caller] using hin hd, by simp⟩
  | trickEnd calculator taker points hpc =>
    exact h.stay rfl rfl rfl rfl (fun _ => by rw [hpc]; exact ⟨rfl, by simp⟩)
      (fun l hl => (by cases hl)) fun l hl => ⟨by simp, by simp⟩
  | dealEnd hpc =>
    exact h.stay rfl rfl rfl rfl (fun _ => by rw [hpc]; exact ⟨rfl, by simp⟩)
      (fun l hl => (by cases hl)) fun l hl => (by cases hl)
  | badBarrier s ready r b rest hpc | badDeal s j rest ready got b left hpc =>
    exact h.stay rfl rfl rfl rfl (fun hd => (by cases hd)) (fun l hl => (by cases hl))
      fun l hl => (by cases hl)
  | reset r hpc | ask s left r hpc | askLast s r hpc | poll ready r hpc | lost s ready r rest hpc
  | woken s ready r rest hpc | stay r hpc | pass r hpc | resend s ready r hpc | release s left r hpc
  | gameOver hpc | trick hpc | turnSet s rest hpc | turnSend s rest hpc | cardPoll s rest ready hpc
  | gotCard s rest ready got left hpc | lostPlayer s j rest ready got left hpc | waitOn s rest hpc
  | nextTurn s rest hpc | lastTurn s hpc | close e w hpc | closeSeat s left e w hpc =>
    exact h.stay rfl rfl rfl rfl (fun hd => by rw [hpc]; exact ⟨hd, by simp⟩)
      (fun l hl => (by cases hl)) fun l hl => (by cases hl)

lemma Board.thread (h : Board sh m) (hturn : TurnInv sh m.pc v) (hv : v c = t.view)
    (hm : ThreadMove sh c t o sh' t') : Board sh' m := by
  obtain ⟨hcourse, hcards⟩ := hm.game
  simp only [Shared.course, Prod.mk.injEq] at hcourse
  obtain ⟨hdeal, -, hlast, htricks, htakers⟩ := hcourse
  refine ⟨h.left, by rw [hdeal]; exact h.deal, by rw [hm.framed.trickTypeGlobal]; exact h.type, h.first,
    fun left hpc => ?_⟩
  obtain ⟨htable, hlead⟩ := h.trick left hpc
  rw [htricks, htakers, hlast]
  refine ⟨?_, hlead⟩
  rcases hcards with ⟨-, hsame, -⟩ | ⟨card, -, ha, -⟩
  · rw [hsame]
    exact htable
  · have hopen := (hturn.accepts_open hv ha).1
    rw [hpc] at hopen
    cases hopen

end Main

section Runs

variable {timeout : ℤ} {deals : List Deal} {st : State}

lemma onBoard (hfair : ∀ d ∈ deals, d.Fair) (h : RunsTo Calm timeout deals st) :
    Board st.sh st.main := by
  refine h.invariant_with (I := fun st => Board st.sh st.main)
    (J := fun st => TurnInv st.sh st.main.pc st.view) (fun _ hr => (turn_of_calm hr).1)
    ⟨hfair, fun hd => (by cases hd), fun hd => (by cases hd), fun _ hl => (by cases hl),
      fun _ hl => (by cases hl)⟩ ?_
  rintro st a st' hturn hi - hs
  cases a with
  | main ready => exact hi.main (mainMove_of_mainStep (step_main hs).1)
  | accept fd =>
    obtain ⟨hsh, hmain, -⟩ := step_accept hs
    rw [hsh, hmain]
    exact hi
  | thread c o =>
    obtain ⟨hstep, hmain, -⟩ := step_thread hs
    rw [hmain]
    exact hi.thread hturn rfl (threadMove_of_threadStep hstep)

end Runs

/-! ### What follows for a trick -/

section Trick

variable {st : State}

lemma Board.told (h : Board st.sh st.main) (hplays : Plays st.sh st.main.pc st.main) {left : List Seat}
    (hpc : st.main.pc = .announce .taken left) :
    st.sh.cardsOnTable.length = 4 ∧ (∀ card ∈ st.sh.cardsOnTable, IsCard card) ∧
      ∀ s, ∀ card ∈ st.sh.cards s, card ∉ st.sh.cardsOnTable := by
  obtain ⟨tricks, htricks⟩ := List.getLast?_eq_some_iff.mp (h.trick left hpc).1
  have hin : st.main.pc.inDeal = true := by
    rw [hpc]
    rfl
  have hkept := (hplays.wellPlayed (h.deal hin).1).kept
  have hmem : ∀ card ∈ st.sh.cardsOnTable, card ∈ st.sh.takenTricks.flatten := by
    intro card hc
    rw [htricks, List.flatten_append]
    exact List.mem_append_right _ (by simpa using hc)
  refine ⟨?_, fun card hc => ?_, fun s card hc htable => ?_⟩
  · exact hplays.game.takenInOrder.lengths.2 _ (by simp [Shared.game, htricks])
  · have hall : card ∈ st.allCards := by
      unfold State.allCards
      exact List.mem_append_left _ (List.mem_append_right _ (hmem card hc))
    obtain ⟨s, -, hs⟩ := List.mem_flatMap.mp (hkept.1.subset hall)
    exact hplays.cards s card hs
  · have hnodup := hkept.2.2
    unfold State.allCards at hnodup
    have hdisjoint := (List.nodup_append.mp (List.nodup_append.mp hnodup).1).2.2
    exact hdisjoint card (List.mem_flatMap.mpr ⟨s, Seat.mem_all s, hc⟩) card (hmem card htable) rfl

end Trick

end Serwer

end Kierki
