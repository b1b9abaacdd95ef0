import Kierki.Scoring
import Kierki.Serwer.MainMoves

/-!
# The scores

How `run_deal` keeps the scores: the points of a trick are added to its taker, and at the end of the
deal to the totals. In a deal of one of the first five types the scores of the four seats add up to a
number that depends on the type alone, and the totals are the sums of the scores of all the deals.
-/

namespace Kierki.Serwer

open Lib.Lts

/-! ### The scores of a deal -/

namespace Main

/-- One trick as `run_deal` scores it: the last taker leads, and the loop over the tricks goes on. -/
def scoreTrick (p : Shared × Main) (trick : List Text) : Option (Shared × Main) :=
  (endTrick { p.1 with cardsOnTable := trick } { p.2 with beginning := p.1.lastTaker }).map
    fun r => (r.1, { r.2 with i := r.2.i + 1 })

/-- The critical sections of `run_deal` from the start of a deal to its end, for the tricks that are
played. -/
def scoreDeal (sh : Shared) (m : Main) (tricks : List (List Text)) : Option (Shared × Main) :=
  (tricks.foldlM scoreTrick (startDeal sh m)).map fun r => endDeal r.1 r.2

lemma sum_update (f : Seat → ℤ) (s : Seat) (x : ℤ) :
    (Seat.all.map (Function.update f s (f s + x))).sum = (Seat.all.map f).sum + x := by
  cases s <;>
  · simp [Seat.all, Function.update]
    omega

variable {sh : Shared} {m : Main}

/-- **The points of a trick go to its taker.** -/
lemma scoreTrick_spec {p : Shared × Main} (ht : 1 ≤ p.2.trickType ∧ p.2.trickType ≤ 5)
    {trick : List Text} (h4 : trick.length = 4) (hcards : ∀ card ∈ trick, card ∈ deck) :
    ∃ p', scoreTrick p trick = some p' ∧ p'.2.trickType = p.2.trickType ∧
      (Seat.all.map p'.2.scores).sum =
        (Seat.all.map p.2.scores).sum + trickCost p.2.trickType trick := by
  obtain ⟨pc, hpc, hstarter, htype, -, hlays⟩ :=
    PointsCalculator.construct_lays h4 hcards p.1.lastTaker p.2.trickType (p.2.i + 1)
  have hpoints := PointsCalculator.points_eq hcards h4 hlays (by rwa [htype])
  unfold scoreTrick endTrick
  dsimp only
  rw [hpc]
  refine ⟨_, rfl, rfl, ?_⟩
  dsimp only
  rw [sum_update, hpoints, htype]

/-- **The scores of the tricks add up to what the tricks cost.** -/
lemma scoreTricks_spec {tricks : List (List Text)} (h4 : ∀ trick ∈ tricks, trick.length = 4)
    (hcards : ∀ trick ∈ tricks, ∀ card ∈ trick, card ∈ deck) {p : Shared × Main}
    (ht : 1 ≤ p.2.trickType ∧ p.2.trickType ≤ 5) :
    ∃ p', tricks.foldlM scoreTrick p = some p' ∧
      (Seat.all.map p'.2.scores).sum =
        (Seat.all.map p.2.scores).sum + (tricks.map (trickCost p.2.trickType)).sum := by
  induction tricks generalizing p with
  | nil => exact ⟨p, rfl, by simp⟩
  | cons trick tricks ih =>
    obtain ⟨p₁, hp₁, htype, hsum₁⟩ := scoreTrick_spec ht (h4 trick (by simp)) (hcards trick (by simp))
    obtain ⟨p₂, hp₂, hsum₂⟩ := ih (fun t h => h4 t (by simp [h])) (fun t h => hcards t (by simp [h]))
      (p := p₁) (by rwa [htype])
    refine ⟨p₂, ?_, ?_⟩
    · rw [List.foldlM_cons, hp₁]
      exact hp₂
    · rw [hsum₂, hsum₁, htype, List.map_cons, List.sum_cons]
      omega

end Main

/-! ### The totals -/

/-- The next step of the main thread ends a deal. -/
def Main.endsDeal (m : Main) : Bool :=
  match m.pc with
  | .dealEnd => true
  | _ => false

/-- The history of `round_scores`: one entry for every deal that has ended. -/
def roundsNote (st : State) (a : Act) (st' : State) (rounds : List (Seat → ℤ)) : List (Seat → ℤ) :=
  match a with
  | .main _ => if st.main.endsDeal then rounds ++ [st'.sh.roundScores] else rounds
  | .accept _ | .thread _ _ => rounds

lemma int32_add (x y : ℤ) : int32 (int32 x + y) = int32 (x + y) := by
  unfold int32
  omega

lemma MainMove.totals_cases {sh sh' : Shared} {m m' : Main} (hm : MainMove sh m sh' m') :
    (m.endsDeal = true ∧ sh'.roundScores = m.scores ∧
      sh'.totalScores = fun s => int32 (sh.totalScores s + m.scores s)) ∨
    (m.endsDeal = false ∧ sh'.totalScores = sh.totalScores) := by
  cases hm with
  | dealEnd hpc => exact .inl ⟨by simp [Main.endsDeal, hpc], rfl, rfl⟩
  | _ => exact .inr ⟨by simp [Main.endsDeal, *], rfl⟩

/-- **The totals are the sums of the scores of the deals**, up to overflow. -/
lemma totals {timeout : ℤ} {deals : List Deal} {st : State} {rounds : List (Seat → ℤ)}
    (h : Reach (record step roundsNote) (fun _ _ => True) (init timeout deals, []) (st, rounds))
    (s : Seat) :
    st.sh.totalScores s = int32 (rounds.map fun scores => scores s).sum := by
  refine Reach.invariant (I := fun p : State × List (Seat → ℤ) => ∀ s,
    p.1.sh.totalScores s = int32 (p.2.map fun scores => scores s).sum) (fun _ => rfl) ?_ h s
  rintro ⟨st, rounds⟩ a ⟨st', rounds'⟩ htot - hs s
  obtain ⟨hs, hr⟩ := record_eq_some.mp hs
  dsimp only at htot hs hr ⊢
  obtain ⟨ready, rfl, hm, -⟩ | ⟨fd, rfl, hsh, -, -⟩ | ⟨c, o, rfl, hm, -, -⟩ := step_moves hs
  · simp only [roundsNote] at hr
    obtain ⟨hend, hround, htotal⟩ | ⟨hend, htotal⟩ := hm.totals_cases
    · rw [if_pos hend] at hr
      rw [hr, htotal, hround, List.map_append, List.sum_append, ← int32_add, ← htot s]
      simp
    · rw [if_neg (by simp [hend])] at hr
      rw [hr, htotal]
      exact htot s
  · rw [show rounds' = rounds from hr, hsh]
    exact htot s
  · rw [show rounds' = rounds from hr, hm.framed.totalScores]
    exact htot s

/-! ### The scores in a run -/

/-- The tricks taken have four cards of the deck each. -/
def FullTricks (tricks : List (List Text)) : Prop :=
  ∀ trick ∈ tricks, trick.length = 4 ∧ ∀ card ∈ trick, card ∈ deck

/-- The scores of `run_deal` are what the tricks taken so far cost. A deal is loaded with no trick, and
the scores are set to zero in the step after. -/
structure Scored (sh : Shared) (m : Main) : Prop where
  loaded : m.pc = .dealStart → sh.takenTricks = []
  scores : m.pc ≠ .dealStart → FullTricks sh.takenTricks → 1 ≤ m.trickType ∧ m.trickType ≤ 5 →
    (Seat.all.map m.scores).sum = (sh.takenTricks.map (trickCost m.trickType)).sum

section Scored

variable {sh sh' : Shared} {m m' : Main}

lemma Scored.quiet (h : Scored sh m) (hpc : m.pc ≠ .dealStart) (hpc' : m'.pc ≠ .dealStart)
    (htricks : sh'.takenTricks = sh.takenTricks) (hscores : m'.scores = m.scores)
    (htype : m'.trickType = m.trickType) : Scored sh' m' where
  loaded h' := absurd h' hpc'
  scores _ := by
    rw [htricks, hscores, htype]
    exact h.scores hpc

lemma Scored.main (h : Scored sh m) (hm : MainMove sh m sh' m') : Scored sh' m' := by
  cases hm with
  | load d rest hpc hd =>
    exact { loaded := fun _ => rfl, scores := fun hne => absurd rfl hne }
  | start hpc =>
    refine { loaded := nofun, scores := fun _ _ _ => ?_ }
    show (Seat.all.map fun _ => (0 : ℤ)).sum = (sh.takenTricks.map _).sum
    rw [h.loaded hpc]
    rfl
  | trickEnd calculator taker points hpc hc hr =>
    refine { loaded := nofun, scores := fun _ hfull ht => ?_ }
    have hold : FullTricks sh.takenTricks := fun trick hmem => hfull trick (by simp [hmem])
    obtain ⟨h4, hcards⟩ := hfull sh.cardsOnTable (by simp)
    obtain ⟨pc, hpc', -, htype, -, hlays⟩ :=
      PointsCalculator.construct_lays h4 hcards m.beginning m.trickType (m.i + 1)
    rw [hc] at hpc'
    obtain rfl := Option.some.inj hpc'
    have hpoints : points = trickCost m.trickType sh.cardsOnTable := by
      rw [← htype, ← PointsCalculator.points_eq hcards h4 hlays (by rwa [htype]), hr]
    show (Seat.all.map (Function.update m.scores taker (m.scores taker + points))).sum =
      ((sh.takenTricks ++ [sh.cardsOnTable]).map (trickCost m.trickType)).sum
    rw [Main.sum_update, hpoints, h.scores (by simp [hpc]) hold ht, List.map_append, List.sum_append]
    simp
  | releaseLast s r hpc =>
    exact h.quiet (by simp [hpc])
      (m.afterBarrier_pc r (P := fun _ pc => pc ≠ .dealStart) nofun nofun nofun nofun nofun) rfl
      (by cases r <;> rfl) (by cases r <;> rfl)
  | announceLast b s hpc => exact h.quiet (by simp [hpc]) (by cases b <;> nofun) rfl rfl rfl
  | _ => exact h.quiet (by simp [*]) nofun rfl rfl rfl

end Scored

lemma firstFive :
    ∀ p ∈ [((1 : ℕ), (13 : ℤ)), (2, 13), (3, 20), (4, 16), (5, 18)], 1 ≤ p.1 ∧ p.1 ≤ 5 := by
  decide

/-- **At the end of a deal the scores add up to what the type says**, in every run of the server in
which the cards taken are the deck. -/
lemma deal_scores {timeout : ℤ} {deals : List Deal} {st : State}
    (h : Reach step (fun _ _ => True) (init timeout deals) st) (hend : st.main.endsDeal = true)
    (h13 : st.sh.takenTricks.length = 13) (h4 : ∀ trick ∈ st.sh.takenTricks, trick.length = 4)
    (hdeck : st.sh.takenTricks.flatten.Perm deck) :
    ∀ p ∈ [((1 : ℕ), (13 : ℤ)), (2, 13), (3, 20), (4, 16), (5, 18)], st.main.trickType = p.1 →
      (Seat.all.map st.main.scores).sum = p.2 := by
  have hscored : Scored st.sh st.main := by
    have hinit : Scored (init timeout deals).sh (init timeout deals).main :=
      { loaded := nofun, scores := fun _ _ _ => rfl }
    refine Reach.invariant (I := fun st : State => Scored st.sh st.main) hinit ?_ h
    intro st a st' hi _ hs
    obtain ⟨ready, rfl, hm, -⟩ | ⟨fd, rfl, hsh, hmain, -⟩ | ⟨c, o, rfl, hm, hmain, -⟩ := step_moves hs
    · exact hi.main hm
    · rwa [hsh, hmain]
    · rw [hmain]
      constructor
      · rw [hm.framed.takenTricks]
        exact hi.loaded
      · rw [hm.framed.takenTricks]
        exact hi.scores
  intro p hp htype
  have hpc : st.main.pc ≠ .dealStart := by
    intro hpc
    simp [Main.endsDeal, hpc] at hend
  rw [hscored.scores hpc (fun trick ht => ⟨h4 trick ht, fun card hc =>
    hdeck.subset (List.mem_flatten.mpr ⟨trick, ht, hc⟩)⟩) (by rw [htype]; exact firstFive p hp), htype]
  exact dealCost h13 hdeck p hp

/-! ### The scoring -/

/-- **The scoring of the first five deal types.** `find_taker` returns the seat of the highest card of
the suit led, whoever starts. Over a deal the scores of the seats add up to what the type says, for
every division of the deck into thirteen tricks; so they do at the end of every deal of a run in which
the cards taken are the deck. And in every run each total is the sum of the scores of the seat in the
deals that have ended, as long as this sum fits into 32 bits. -/
theorem scoring :
    (∀ (trick : List Text) (starter : Seat) (trickType n : ℕ), trick.length = 4 →
      (∀ card ∈ trick, card ∈ deck) → trick.Nodup →
      ∃ pc, PointsCalculator.construct trick starter trickType n = some pc ∧
        ∃ i card, trick[i]? = some card ∧ pc.findTaker = Seat.at4 (starter.idx + i) ∧
          card.getLast? = trick.head?.bind List.getLast? ∧
          ∀ card' ∈ trick, card' ≠ card → card'.getLast? = trick.head?.bind List.getLast? →
            rank card' < rank card) ∧
    (∀ (sh : Shared) (m : Main) (tricks : List (List Text)), tricks.length = 13 →
      (∀ trick ∈ tricks, trick.length = 4) → tricks.flatten.Perm deck →
      ∀ p ∈ [(1, 13), (2, 13), (3, 20), (4, 16), (5, 18)], m.trickType = p.1 →
        ∃ r, Main.scoreDeal sh m tricks = some r ∧ (Seat.all.map r.1.roundScores).sum = p.2) ∧
    (∀ (timeout : ℤ) (deals : List Deal) (st : State),
      Reach step (fun _ _ => True) (init timeout deals) st → st.main.endsDeal = true →
      st.sh.takenTricks.length = 13 → (∀ trick ∈ st.sh.takenTricks, trick.length = 4) →
      st.sh.takenTricks.flatten.Perm deck →
      ∀ p ∈ [(1, 13), (2, 13), (3, 20), (4, 16), (5, 18)], st.main.trickType = p.1 →
        (Seat.all.map st.main.scores).sum = p.2) ∧
    ∀ (timeout : ℤ) (deals : List Deal) (st : State) (rounds : List (Seat → ℤ)),
      Reach (record step roundsNote) (fun _ _ => True) (init timeout deals, []) (st, rounds) →
      ∀ s, -2147483648 ≤ (rounds.map fun scores => scores s).sum →
        (rounds.map fun scores => scores s).sum < 2147483648 →
        st.sh.totalScores s = (rounds.map fun scores => scores s).sum := by
  refine ⟨?_, ?_, ?_, ?_⟩
  · intro trick starter trickType n h4 hcards _
    obtain ⟨pc, hpc, rfl, -, -, hlays⟩ := PointsCalculator.construct_lays h4 hcards starter trickType n
    exact ⟨pc, hpc, PointsCalculator.findTaker_highest hcards h4 hlays⟩
  · intro sh m tricks h13 h4 hdeck p hp htype
    have hcards : ∀ trick ∈ tricks, ∀ card ∈ trick, card ∈ deck := fun trick ht card hc =>
      hdeck.subset (List.mem_flatten.mpr ⟨trick, ht, hc⟩)
    have hcost := dealCost h13 hdeck p hp
    obtain ⟨r, hr, hsum⟩ := Main.scoreTricks_spec h4 hcards (p := Main.startDeal sh m)
      (by
        rw [show (Main.startDeal sh m).2.trickType = m.trickType from rfl, htype]
        exact firstFive p hp)
    have htype' : (Main.startDeal sh m).2.trickType = p.1 := htype
    have hzero : (Seat.all.map (Main.startDeal sh m).2.scores).sum = 0 := rfl
    rw [htype', hcost, hzero, zero_add] at hsum
    exact ⟨Main.endDeal r.1 r.2, by rw [Main.scoreDeal, hr]; rfl, hsum⟩
  · intro timeout deals st hr hend h13 h4 hdeck
    exact deal_scores hr hend h13 h4 hdeck
  · intro timeout deals st rounds hr s hlow hhigh
    rw [totals hr s, int32_of_range hlow hhigh]

/-- In every trick the four cards of one figure, and the third type: the queens cost twenty points. -/
theorem scoring_queens :
    (∃ r, Main.scoreDeal { timeout := 0 } { deals := [], trickType := 3, seat := .S }
      (figures.map fun figure => suits.map fun suit => figure ++ [suit]) = some r ∧
      (Seat.all.map r.1.roundScores).sum = 20) := by
  obtain ⟨-, hdeal, -, -⟩ := scoring
  exact hdeal _ _ _ (by decide) (by decide) (by decide +kernel) (3, 20) (by decide) rfl

end Kierki.Serwer
