import Kierki.Serwer.Scores
import Kierki.Serwer.Tricks
import Mathlib.Algebra.BigOperators.Fin
import Mathlib.Algebra.BigOperators.Ring.Finset

/-!
# The last two deal types

In a deal of the sixth type the takers of the seventh and of the last trick are to get ten points, and
the seventh type adds up the six others. `no_seventh_last_trick` adds its ten points once for each of
the four cards, so both takers get forty, and `bandit` inherits them.
-/

namespace Kierki

/-- What the taker of the trick `n` is to get in a deal of the sixth type. -/
def seventhLast (n : ℕ) : ℤ := if n = 7 ∨ n = 13 then 10 else 0

/-- What the taker of the trick `n` is to get, by the type of the deal. -/
def trickPoints (trickType n : ℕ) (trick : List Text) : ℤ :=
  match trickType with
  | 6 => seventhLast n
  | 7 => trickCost 1 trick + trickCost 2 trick + trickCost 3 trick + trickCost 4 trick +
      trickCost 5 trick + seventhLast n
  | _ => trickCost trickType trick

lemma seventhLast_eq_zero_iff {n : ℕ} : seventhLast n = 0 ↔ n ≠ 7 ∧ n ≠ 13 := by
  unfold seventhLast
  split <;> omega

namespace PointsCalculator

lemma noSeventhLastTrick_eq (pc : PointsCalculator) :
    pc.noSeventhLastTrick = 4 * seventhLast pc.trick := by
  unfold noSeventhLastTrick sumCards seventhLast Seat.all
  split <;> simp [*]

/-- **What the last two types pay**, against what they are to pay. -/
lemma points_overpaid {trick : List Text} (hcards : ∀ card ∈ trick, card ∈ deck) (h4 : trick.length = 4)
    {pc : PointsCalculator} (hlays : pc.Lays trick) (ht : pc.trickType = 6 ∨ pc.trickType = 7) :
    pc.calculatePoints.2 = trickPoints pc.trickType pc.trick trick + 3 * seventhLast pc.trick := by
  obtain ht | ht := ht
  · unfold calculatePoints trickPoints
    simp only [ht]
    rw [noSeventhLastTrick_eq]
    omega
  · -- the first five helpers are those of the first five types
    have hfive : ∀ ty, 1 ≤ ty ∧ ty ≤ 5 →
        ({ pc with trickType := ty }).calculatePoints.2 = trickCost ty trick := by
      intro ty hty
      have hlays' : PointsCalculator.Lays { pc with trickType := ty } trick :=
        ⟨hlays.colors, hlays.figures⟩
      exact points_eq hcards h4 hlays' hty
    have h1 : pc.noTricks = trickCost 1 trick := hfive 1 (by omega)
    have h2 : pc.noHearts = trickCost 2 trick := hfive 2 (by omega)
    have h3 : pc.noQueens = trickCost 3 trick := hfive 3 (by omega)
    have h4 : pc.noMisters = trickCost 4 trick := hfive 4 (by omega)
    have h5 : pc.noHeartsKing = trickCost 5 trick := hfive 5 (by omega)
    unfold calculatePoints trickPoints
    simp only [ht]
    rw [bandit, h1, h2, h3, h4, h5, noSeventhLastTrick_eq]
    omega

end PointsCalculator

namespace Serwer

/-! ### The scores of a deal -/

/-- What a seat gets in a deal, `points` saying what the trick of a number pays its taker. -/
def seatPoints (points : ℕ → List Text → ℤ) (takers : List Seat) (tricks : List (List Text))
    (s : Seat) : ℤ :=
  ∑ i ∈ Finset.range tricks.length,
    if takers[i]? = some s then points (i + 1) (tricks[i]?.getD []) else 0

section SeatPoints

variable {points points' : ℕ → List Text → ℤ} {takers : List Seat} {tricks : List (List Text)} {s : Seat}

lemma seatPoints_concat (h : takers.length = tricks.length) (taker : Seat) (trick : List Text) :
    seatPoints points (takers ++ [taker]) (tricks ++ [trick]) s =
      seatPoints points takers tricks s + if taker = s then points (tricks.length + 1) trick else 0 := by
  unfold seatPoints
  rw [List.length_append, List.length_singleton, Finset.sum_range_succ]
  congr 1
  · refine Finset.sum_congr rfl fun i hi => ?_
    have hlt := Finset.mem_range.mp hi
    rw [List.getElem?_append_left (by omega), List.getElem?_append_left hlt]
  · simp [← h]

lemma seatPoints_add : seatPoints (fun n trick => points n trick + points' n trick) takers tricks s =
    seatPoints points takers tricks s + seatPoints points' takers tricks s := by
  unfold seatPoints
  rw [← Finset.sum_add_distrib]
  refine Finset.sum_congr rfl fun i _ => ?_
  split <;> simp

lemma sum_seatPoints (h : takers.length = tricks.length) :
    (Seat.all.map (seatPoints points takers tricks)).sum =
      ∑ i ∈ Finset.range tricks.length, points (i + 1) (tricks[i]?.getD []) := by
  have hsum : ∀ f : Seat → ℤ, (Seat.all.map f).sum = ∑ s, f s := by
    intro f
    rfl
  rw [hsum]
  unfold seatPoints
  rw [Finset.sum_comm]
  refine Finset.sum_congr rfl fun i hi => ?_
  have hlt : i < takers.length := h ▸ Finset.mem_range.mp hi
  rw [List.getElem?_eq_getElem hlt]
  simp

lemma seatPoints_seventhLast (h13 : tricks.length = 13) :
    seatPoints (fun n _ => 3 * seventhLast n) takers tricks s =
      (if takers[6]? = some s then 30 else 0) + if takers[12]? = some s then 30 else 0 := by
  unfold seatPoints
  rw [h13]
  simp [Finset.sum_range_succ, seventhLast]

end SeatPoints

lemma sum_range_tricks (f : List Text → ℤ) (tricks : List (List Text)) :
    ∑ i ∈ Finset.range tricks.length, f (tricks[i]?.getD []) = (tricks.map f).sum := by
  rw [Finset.sum_range, ← Fin.sum_univ_fun_getElem]
  exact Finset.sum_congr rfl fun i _ => by simp

lemma sum_trickPoints {tricks : List (List Text)} (h13 : tricks.length = 13)
    (hdeck : tricks.flatten.Perm deck) : ∀ p ∈ [((6 : ℕ), (20 : ℤ)), (7, 100)],
      ∑ i ∈ Finset.range tricks.length, trickPoints p.1 (i + 1) (tricks[i]?.getD []) = p.2 := by
  have hlast : ∑ i ∈ Finset.range tricks.length, seventhLast (i + 1) = 20 := by
    rw [h13]
    decide
  have hcost := dealCost h13 hdeck
  have h1 := hcost (1, 13) (by decide)
  have h2 := hcost (2, 13) (by decide)
  have h3 := hcost (3, 20) (by decide)
  have h4 := hcost (4, 16) (by decide)
  have h5 := hcost (5, 18) (by decide)
  intro p hp
  simp only [List.mem_cons, List.not_mem_nil, or_false] at hp
  obtain rfl | rfl := hp
  · exact hlast
  · simp only [trickPoints, Finset.sum_add_distrib, sum_range_tricks, h1, h2, h3, h4, h5, hlast]
    norm_num

/-- What the last two types pay the taker of a trick. -/
def overpaid (trickType n : ℕ) (trick : List Text) : ℤ :=
  trickPoints trickType n trick + 3 * seventhLast n

namespace Main

/-- **The points of a trick go to its taker**, whatever they are. -/
lemma scoreTrick_overpaid {p : Shared × Main} (ht : p.2.trickType = 6 ∨ p.2.trickType = 7)
    {trick : List Text} (h4 : trick.length = 4) (hcards : ∀ card ∈ trick, card ∈ deck) :
    ∃ p' taker, scoreTrick p trick = some p' ∧ p'.1.takenTakers = p.1.takenTakers ++ [taker] ∧
      p'.2.trickType = p.2.trickType ∧ p'.2.i = p.2.i + 1 ∧
      ∀ s, p'.2.scores s = p.2.scores s +
        if taker = s then overpaid p.2.trickType (p.2.i + 1) trick else 0 := by
  obtain ⟨pc, hpc, -, htype, htrick, hlays⟩ :=
    PointsCalculator.construct_lays h4 hcards p.1.lastTaker p.2.trickType (p.2.i + 1)
  have hpoints := PointsCalculator.points_overpaid hcards h4 hlays (by rwa [htype])
  rw [htype, htrick] at hpoints
  unfold scoreTrick endTrick
  dsimp only
  rw [hpc]
  refine ⟨_, _, rfl, rfl, rfl, rfl, fun s => ?_⟩
  dsimp only
  rw [hpoints]
  by_cases hs : pc.calculatePoints.1 = s
  · subst hs
    rw [Function.update_self, if_pos rfl]
    rfl
  · rw [Function.update_of_ne (Ne.symm hs), if_neg hs, add_zero]

/-- **The scores of a deal**, from its start on. -/
lemma scoreTricks_overpaid {tricks : List (List Text)} (h4 : ∀ trick ∈ tricks, trick.length = 4)
    (hcards : ∀ trick ∈ tricks, ∀ card ∈ trick, card ∈ deck) {p : Shared × Main}
    (ht : p.2.trickType = 6 ∨ p.2.trickType = 7) (hi : p.2.i = 0) :
    ∃ p' takers, tricks.foldlM scoreTrick p = some p' ∧ takers.length = tricks.length ∧
      p'.1.takenTakers = p.1.takenTakers ++ takers ∧ p'.2.trickType = p.2.trickType ∧
      p'.2.i = tricks.length ∧
      ∀ s, p'.2.scores s = p.2.scores s + seatPoints (overpaid p.2.trickType) takers tricks s := by
  induction tricks using List.reverseRecOn with
  | nil => exact ⟨p, [], rfl, rfl, by simp, rfl, hi, fun s => by simp [seatPoints]⟩
  | append_singleton tricks trick ih =>
    obtain ⟨p₁, takers, hp₁, hlen, htakers, htype, hi₁, hscores⟩ :=
      ih (fun t h => h4 t (by simp [h])) fun t h => hcards t (by simp [h])
    obtain ⟨p₂, taker, hp₂, htaker, htype₂, hi₂, hscores₂⟩ := scoreTrick_overpaid (p := p₁)
      (by rwa [htype]) (h4 trick (by simp)) (hcards trick (by simp))
    refine ⟨p₂, takers ++ [taker], ?_, by simp [hlen], by rw [htaker, htakers, List.append_assoc],
      htype₂.trans htype, by rw [hi₂, hi₁, List.length_append, List.length_singleton], fun s => ?_⟩
    · rw [List.foldlM_append, hp₁]
      simp [hp₂]
    · rw [hscores₂, hscores, htype, hi₁, seatPoints_concat hlen, add_assoc]

end Main

/-! ### The deals of a run -/

def Caller.ended (i : ℕ) : Caller → Option ℕ
  | cardWait _ _ _ _ => some i
  | endOfTrick => some (i + 1)
  | _ => none

/-- How many tricks of the deal have ended, by the loop counter of `run_deal`; `none` outside its
loop. -/
def MainPc.ended (i : ℕ) : MainPc → Option ℕ
  | announce .deal _ | trickStart | turnSet _ | turnSend _ _ | cardPoll _ _ => some i
  | cardScan _ _ _ _ | trickEnd | dealEnd => some i
  | announce .taken _ => some (i + 1)
  | barrierReset r | barrierAsk _ r | barrierPoll r | barrierScan _ r => r.ended i
  | barrierResend _ _ r | barrierRelease _ r => r.ended i
  | _ => none

/-- **A deal of a run is scored as `scoreDeal` scores it**: what the main thread holds is what the
scoring of the tricks taken comes to. -/
structure Follows (sh : Shared) (m : Main) : Prop where
  loaded : m.pc = .dealStart → sh.takenTricks = [] ∧ sh.takenTakers = []
  leads : m.pc.inTrick = true → m.beginning = sh.lastTaker
  scored : ∀ n, m.pc.ended m.i = some n → ∃ sh₀ m₀ p, sh₀.takenTakers = [] ∧
    m₀.trickType = m.trickType ∧
    sh.takenTricks.foldlM Main.scoreTrick (Main.startDeal sh₀ m₀) = some p ∧
    p.1.lastTaker = sh.lastTaker ∧ p.1.takenTakers = sh.takenTakers ∧ p.2.trickType = m.trickType ∧
    p.2.i = n ∧ p.2.scores = m.scores

section Follows

variable {sh sh' : Shared} {m m' : Main}

lemma Follows.quiet (h : Follows sh m) (hpc : m'.pc ≠ .dealStart)
    (htricks : sh'.takenTricks = sh.takenTricks) (htakers : sh'.takenTakers = sh.takenTakers)
    (hlast : sh'.lastTaker = sh.lastTaker)
    (hleads : m'.pc.inTrick = true → m.pc.inTrick = true ∧ m'.beginning = m.beginning)
    (hended : ∀ n, m'.pc.ended m'.i = some n → m.pc.ended m.i = some n)
    (hscores : m'.scores = m.scores) (htype : m'.trickType = m.trickType) : Follows sh' m' where
  loaded h' := absurd h' hpc
  leads h' := by
    obtain ⟨hin, hbeginning⟩ := hleads h'
    rw [hbeginning, hlast]
    exact h.leads hin
  scored n hn := by
    rw [htricks, htakers, hlast, hscores, htype]
    exact h.scored n (hended n hn)

lemma Main.scoreTrick_eq {p : Shared × Main} {trick : List Text} {calculator : PointsCalculator}
    {taker : Seat} {points : ℤ}
    (hc : PointsCalculator.construct trick p.1.lastTaker p.2.trickType (p.2.i + 1) = some calculator)
    (hr : calculator.calculatePoints = (taker, points)) :
    ∃ p', Main.scoreTrick p trick = some p' ∧ p'.1.lastTaker = taker ∧
      p'.1.takenTakers = p.1.takenTakers ++ [taker] ∧ p'.2.trickType = p.2.trickType ∧
      p'.2.i = p.2.i + 1 ∧
      p'.2.scores = Function.update p.2.scores taker (p.2.scores taker + points) := by
  unfold Main.scoreTrick Main.endTrick
  dsimp only
  rw [hc]
  exact ⟨_, rfl, by simp [hr], by simp [hr], rfl, rfl, by simp [hr]⟩

lemma Follows.endOfTrick {s : Seat} (h : Follows sh m) (hpc : m.pc = .barrierRelease [s] .endOfTrick) :
    Follows (sh.tell s .barrierEnd) (m.afterBarrier .endOfTrick) := by
  refine h.quiet (fun hpc' => ?_) rfl rfl rfl (fun hin => ?_) ?_ rfl rfl
  · simp only [Main.afterBarrier] at hpc'
    split at hpc' <;> cases hpc'
  · simp only [Main.afterBarrier] at hin
    split at hin <;> cases hin
  · simp only [Main.afterBarrier]
    rw [hpc]
    split <;> exact fun _ hn => hn

lemma Follows.main (h : Follows sh m) (hm : MainMove sh m sh' m') : Follows sh' m' := by
  cases hm with
  | load d rest hpc hd =>
    exact { loaded := fun _ => ⟨rfl, rfl⟩, leads := nofun, scored := nofun }
  | start hpc =>
    obtain ⟨htricks, htakers⟩ := h.loaded hpc
    refine { loaded := nofun, leads := nofun, scored := fun n hn => ?_ }
    obtain rfl := Option.some.inj hn
    refine ⟨sh, m, Main.startDeal sh m, htakers, rfl, ?_, rfl, rfl, rfl, rfl, rfl⟩
    show sh.takenTricks.foldlM _ _ = _
    rw [htricks]
    rfl
  | trick hpc =>
    refine { loaded := nofun, leads := fun _ => rfl, scored := fun n hn => ?_ }
    exact h.scored n (by rw [hpc]; exact hn)
  | trickEnd calculator taker points hpc hc hr =>
    refine { loaded := nofun, leads := nofun, scored := fun n hn => ?_ }
    obtain rfl := Option.some.inj hn
    obtain ⟨sh₀, m₀, p, htakers₀, htype₀, hp, hlast, htakers, htype, hi, hscores⟩ :=
      h.scored m.i (by rw [hpc]; rfl)
    have hleads : m.beginning = sh.lastTaker := h.leads (by rw [hpc]; rfl)
    rw [hleads, ← hlast, ← htype, ← hi] at hc
    obtain ⟨p', hp', hlast', htakers', htype', hi', hscores'⟩ := Main.scoreTrick_eq hc hr
    refine ⟨sh₀, m₀, p', htakers₀, htype₀, ?_, hlast', by rw [htakers', htakers], htype'.trans htype,
      by rw [hi', hi], by rw [hscores', hscores]⟩
    rw [List.foldlM_append, hp]
    simp [hp']
  | releaseLast s r hpc =>
    cases r with
    | endOfTrick => exact h.endOfTrick hpc
    | cardWait s rest got ready =>
      exact h.quiet nofun rfl rfl rfl (by rw [hpc]; exact fun _ => ⟨rfl, rfl⟩)
        (by rw [hpc]; exact fun _ hn => hn) rfl rfl
    | startGame | endOfDeal => exact h.quiet nofun rfl rfl rfl nofun nofun rfl rfl
  | announce b s left hpc =>
    exact h.quiet nofun rfl rfl rfl (by cases b <;> nofun)
      (by rw [hpc]; cases b <;> exact fun _ hn => hn) rfl rfl
  | announceLast b s hpc =>
    cases b with
    | deal | taken =>
      exact h.quiet nofun rfl rfl rfl nofun (by rw [hpc]; exact fun _ hn => hn) rfl rfl
    | scores => exact h.quiet nofun rfl rfl rfl nofun nofun rfl rfl
  | dealEnd hpc => exact h.quiet nofun rfl rfl rfl nofun nofun rfl rfl
  | gameOver hpc | badBarrier s ready r b rest hpc | badDeal s j rest ready got b left hpc
  | close e w hpc | closeSeat s left e w hpc =>
    exact h.quiet nofun rfl rfl rfl nofun nofun rfl rfl
  | _ =>
    exact h.quiet nofun rfl rfl rfl (by simp_all [MainPc.inTrick, Caller.inTrick])
      (by simp_all [MainPc.ended, Caller.ended]) rfl rfl

end Follows

/-- **Every deal of a run is scored as `scoreDeal` scores the tricks taken in it.** -/
theorem deal_followed {timeout : ℤ} {deals : List Deal} {st : State}
    (h : Reachable timeout deals st) (hend : st.main.endsDeal = true) :
    ∃ sh₀ m₀ r, sh₀.takenTakers = [] ∧ m₀.trickType = st.main.trickType ∧
      Main.scoreDeal sh₀ m₀ st.sh.takenTricks = some r ∧ r.1.roundScores = st.main.scores ∧
      r.1.takenTakers = st.sh.takenTakers := by
  have hinit : Follows (init timeout deals).sh (init timeout deals).main :=
    { loaded := nofun, leads := nofun, scored := nofun }
  have hfollows : Follows st.sh st.main := by
    refine Lib.Lts.Reach.invariant (I := fun st : State => Follows st.sh st.main) hinit ?_ h
    intro st a st' hi _ hs
    obtain ⟨ready, rfl, hm, -⟩ | ⟨fd, rfl, hsh, hmain, -⟩ | ⟨c, o, rfl, hm, hmain, -⟩ := step_moves hs
    · exact hi.main hm
    · rwa [hsh, hmain]
    · have hf := hm.framed
      rw [hmain]
      constructor
      · rw [hf.takenTricks, hf.takenTakers]
        exact hi.loaded
      · rw [hf.lastTaker]
        exact hi.leads
      · rw [hf.takenTricks, hf.takenTakers, hf.lastTaker]
        exact hi.scored
  have hpc : st.main.pc = .dealEnd := by
    unfold Main.endsDeal at hend
    split at hend
    · assumption
    · cases hend
  obtain ⟨sh₀, m₀, p, htakers₀, htype, hp, -, htakers, -, -, hscores⟩ :=
    hfollows.scored st.main.i (by rw [hpc]; rfl)
  exact ⟨sh₀, m₀, Main.endDeal p.1 p.2, htakers₀, htype, by rw [Main.scoreDeal, hp]; rfl, hscores,
    htakers⟩

/-! ### The scoring of the last two types -/

lemma scoreDeal_overpaid (sh : Shared) {m : Main} {tricks : List (List Text)}
    (h13 : tricks.length = 13) (h4 : ∀ trick ∈ tricks, trick.length = 4)
    (hdeck : tricks.flatten.Perm deck) (ht : m.trickType = 6 ∨ m.trickType = 7) :
    ∃ r takers, Main.scoreDeal sh m tricks = some r ∧ takers.length = 13 ∧
      r.1.takenTakers = sh.takenTakers ++ takers ∧
      (∀ s, r.1.roundScores s = seatPoints (trickPoints m.trickType) takers tricks s ↔
        takers[6]? ≠ some s ∧ takers[12]? ≠ some s) ∧
      (Seat.all.map r.1.roundScores).sum = if m.trickType = 6 then 80 else 160 := by
  have hcards : ∀ trick ∈ tricks, ∀ card ∈ trick, card ∈ deck := fun trick ht card hc =>
    hdeck.subset (List.mem_flatten.mpr ⟨trick, ht, hc⟩)
  obtain ⟨p, takers, hp, hlen, htakers, -, -, hscores⟩ :=
    Main.scoreTricks_overpaid h4 hcards (p := Main.startDeal sh m) ht rfl
  have hround : ∀ s, (Main.endDeal p.1 p.2).1.roundScores s =
      seatPoints (overpaid m.trickType) takers tricks s := fun s => (hscores s).trans (zero_add _)
  refine ⟨Main.endDeal p.1 p.2, takers, by rw [Main.scoreDeal, hp]; rfl, hlen.trans h13, htakers,
    fun s => ?_, ?_⟩
  · have hover : seatPoints (overpaid m.trickType) takers tricks s =
        seatPoints (trickPoints m.trickType) takers tricks s +
          ((if takers[6]? = some s then 30 else 0) + if takers[12]? = some s then 30 else 0) := by
      rw [← seatPoints_seventhLast h13, ← seatPoints_add]
      rfl
    rw [hround, hover, add_eq_left]
    split_ifs with h7 hlast hlast
    · exact iff_of_false (by decide) fun h => h.1 h7
    · exact iff_of_false (by decide) fun h => h.1 h7
    · exact iff_of_false (by decide) fun h => h.2 hlast
    · exact iff_of_true (by decide) ⟨h7, hlast⟩
  · have hmeant := sum_trickPoints h13 hdeck
    have hlast : ∑ i ∈ Finset.range tricks.length, 3 * seventhLast (i + 1) = 60 := by
      rw [h13]
      decide
    rw [List.map_congr_left fun s _ => hround s, sum_seatPoints hlen]
    unfold overpaid
    rw [Finset.sum_add_distrib, hlast]
    obtain ht | ht := ht
    · rw [ht, hmeant (6, 20) (by decide)]
      rfl
    · rw [ht, hmeant (7, 100) (by decide)]
      rfl

/-- **The scoring of the last two types.** The points of a trick are what they are to be exactly when
it is neither the seventh nor the last. So in a deal the score of a seat is right exactly when the seat
takes neither of these tricks, and the scores add up to eighty in the sixth type and to a hundred and
sixty in the seventh, never to twenty or to a hundred; at the end of every deal of a run as well. -/
theorem last_types_overpaid (trickType : ℕ) (ht : trickType = 6 ∨ trickType = 7) :
    (∀ (trick : List Text) (starter : Seat) (n : ℕ), trick.length = 4 → (∀ card ∈ trick, card ∈ deck) →
      ∃ pc, PointsCalculator.construct trick starter trickType n = some pc ∧
        (pc.calculatePoints.2 = trickPoints trickType n trick ↔ n ≠ 7 ∧ n ≠ 13)) ∧
    (∀ (sh : Shared) (m : Main) (tricks : List (List Text)), m.trickType = trickType →
      tricks.length = 13 → (∀ trick ∈ tricks, trick.length = 4) → tricks.flatten.Perm deck →
      ∃ r takers, Main.scoreDeal sh m tricks = some r ∧ takers.length = 13 ∧
        r.1.takenTakers = sh.takenTakers ++ takers ∧
        (∀ s, r.1.roundScores s = seatPoints (trickPoints trickType) takers tricks s ↔
          takers[6]? ≠ some s ∧ takers[12]? ≠ some s) ∧
        (Seat.all.map r.1.roundScores).sum = (if trickType = 6 then 80 else 160) ∧
        (Seat.all.map r.1.roundScores).sum ≠ if trickType = 6 then 20 else 100) ∧
    ∀ (timeout : ℤ) (deals : List Deal) (st : State), Reachable timeout deals st →
      st.main.endsDeal = true → st.main.trickType = trickType → st.sh.takenTricks.length = 13 →
      (∀ trick ∈ st.sh.takenTricks, trick.length = 4) → st.sh.takenTricks.flatten.Perm deck →
      (∀ s, st.main.scores s =
          seatPoints (trickPoints trickType) st.sh.takenTakers st.sh.takenTricks s ↔
        st.sh.takenTakers[6]? ≠ some s ∧ st.sh.takenTakers[12]? ≠ some s) ∧
      (Seat.all.map st.main.scores).sum = (if trickType = 6 then 80 else 160) ∧
      (Seat.all.map st.main.scores).sum ≠ if trickType = 6 then 20 else 100 := by
  have hne : (if trickType = 6 then (80 : ℤ) else 160) ≠ if trickType = 6 then 20 else 100 := by
    split <;> decide
  refine ⟨?_, ?_, ?_⟩
  · intro trick starter n h4 hcards
    obtain ⟨pc, hpc, -, rfl, rfl, hlays⟩ :=
      PointsCalculator.construct_lays h4 hcards starter trickType n
    refine ⟨pc, hpc, ?_⟩
    rw [PointsCalculator.points_overpaid hcards h4 hlays ht, ← seventhLast_eq_zero_iff]
    omega
  · intro sh m tricks htype h13 h4 hdeck
    subst htype
    obtain ⟨r, takers, hr, hlen, htakers, hseat, hsum⟩ := scoreDeal_overpaid sh h13 h4 hdeck ht
    exact ⟨r, takers, hr, hlen, htakers, hseat, hsum, hsum ▸ hne⟩
  · intro timeout deals st hst hend htype h13 h4 hdeck
    subst htype
    obtain ⟨sh₀, m₀, r, hnone, htype, hr, hscores, htakers⟩ := deal_followed hst hend
    have ht₀ : m₀.trickType = 6 ∨ m₀.trickType = 7 := by rwa [htype]
    obtain ⟨r', takers, hr', -, htakers', hseat, hsum⟩ := scoreDeal_overpaid sh₀ h13 h4 hdeck ht₀
    obtain rfl : r = r' := Option.some.inj (hr.symm.trans hr')
    rw [hnone, List.nil_append, htakers] at htakers'
    rw [htype, hscores, ← htakers'] at hseat
    rw [htype, hscores] at hsum
    exact ⟨hseat, hsum, hsum ▸ hne⟩

/-- In every trick the four cards of one figure. -/
def figureTricks : List (List Text) := figures.map fun figure => suits.map fun suit => figure ++ [suit]

/-- The starter takes every trick, so it is paid four times for the seventh and for the last. -/
theorem last_types_overpaid_starter :
    ∃ r takers, Main.scoreDeal { timeout := 0 } { deals := [], trickType := 6, seat := .S } figureTricks =
      some r ∧ takers.length = 13 ∧ r.1.takenTakers = [] ++ takers ∧
      (∀ s, r.1.roundScores s = seatPoints (trickPoints 6) takers figureTricks s ↔
        takers[6]? ≠ some s ∧ takers[12]? ≠ some s) ∧
      (Seat.all.map r.1.roundScores).sum = 80 ∧ (Seat.all.map r.1.roundScores).sum ≠ 20 := by
  obtain ⟨-, hdeal, -⟩ := last_types_overpaid 6 (.inl rfl)
  exact hdeal _ _ _ rfl (by decide) (by decide) (by decide +kernel)

/-- **A deal of the sixth type does not come to twenty points**, nor one of the seventh to a hundred. -/
theorem seventh_last_paid_four_times :
    (Main.scoreDeal { timeout := 0 } { deals := [], trickType := 6, seat := .S } figureTricks).map
        (fun r => (Seat.all.map r.1.roundScores, (Seat.all.map r.1.roundScores).sum)) =
      some ([0, 0, 80, 0], 80) ∧
    (Main.scoreDeal { timeout := 0 } { deals := [], trickType := 7, seat := .S } figureTricks).map
        (fun r => (Seat.all.map r.1.roundScores).sum) = some 160 ∧
    ¬(∀ (sh : Shared) (m : Main) (tricks : List (List Text)), tricks.length = 13 →
      (∀ trick ∈ tricks, trick.length = 4) → tricks.flatten.Perm deck → m.trickType = 6 →
      ∃ r, Main.scoreDeal sh m tricks = some r ∧ (Seat.all.map r.1.roundScores).sum = 20) ∧
    ¬(∀ (sh : Shared) (m : Main) (tricks : List (List Text)), tricks.length = 13 →
      (∀ trick ∈ tricks, trick.length = 4) → tricks.flatten.Perm deck → m.trickType = 7 →
      ∃ r, Main.scoreDeal sh m tricks = some r ∧ (Seat.all.map r.1.roundScores).sum = 100) := by
  have hsix : (Main.scoreDeal { timeout := 0 } { deals := [], trickType := 6, seat := .S }
      figureTricks).map (fun r => (Seat.all.map r.1.roundScores, (Seat.all.map r.1.roundScores).sum)) =
      some ([0, 0, 80, 0], 80) := by decide +kernel
  have hseven : (Main.scoreDeal { timeout := 0 } { deals := [], trickType := 7, seat := .S }
      figureTricks).map (fun r => (Seat.all.map r.1.roundScores).sum) = some 160 := by decide +kernel
  refine ⟨hsix, hseven, fun h => ?_, fun h => ?_⟩
  · obtain ⟨r, hr, hsum⟩ := h { timeout := 0 } { deals := [], trickType := 6, seat := .S }
      figureTricks (by decide) (by decide) (by decide +kernel) rfl
    rw [hr] at hsix
    simp [hsum] at hsix
  · obtain ⟨r, hr, hsum⟩ := h { timeout := 0 } { deals := [], trickType := 7, seat := .S }
      figureTricks (by decide) (by decide) (by decide +kernel) rfl
    rw [hr] at hseven
    simp [hsum] at hseven

end Serwer

end Kierki
