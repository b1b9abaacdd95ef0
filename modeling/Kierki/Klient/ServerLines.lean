import Kierki.Klient.Printer
import Kierki.Klient.Worker

/-!
# The lines of the server are read back

A line that the server builds passes its own check and no other one, and what the client cuts out of
it are the cards, or the scores, that were put in. The fields of a line stand next to each other with
nothing between them, so the number of the trick has to be known: it tells where to cut, and only a
line with this number passes the check.
-/

namespace Kierki

open RegularExpression Lib.RegExp Regex Senders

/-! ### The extraction as a walk over matches -/

lemma isCard_unique {s : Text} {n m : ℕ} (hn : IsCard (s.take n)) (hm : IsCard (s.take m))
    (hns : n ≤ s.length) (hms : m ≤ s.length) : n = m := by
  have hsuit : isSuit '0' = false := rfl
  have hlen : ∀ {k}, k ≤ s.length → (s.take k).length = k := fun h => by simpa using h
  rcases isCard_iff.mp hn with ⟨a, b, hab, ha, hb⟩ | ⟨b, hab, hb⟩ <;>
  rcases isCard_iff.mp hm with ⟨c, d, hcd, hc, hd⟩ | ⟨d, hcd, hd⟩ <;>
  · have hn' := hlen hns
    have hm' := hlen hms
    rw [hab] at hn'
    rw [hcd] at hm'
    simp only [List.length_cons, List.length_nil] at hn' hm'
    subst hn' hm'
    grind

/-- **`extract_cards` finds the leftmost matches of its expression.** -/
lemma extractCards_eq_leftmost (s : Text) : extractCards s = leftmost cardRegex s := by
  have hfront : ∀ card rest : Text, IsCard card →
      leftmost cardRegex (card ++ rest) = card :: leftmost cardRegex rest := by
    intro card rest h
    apply leftmost_append (List.ne_nil_of_length_pos (by have := h.length_pos; omega)) h.mem
    intro n hn hle hm
    have hlen := isCard_unique ((rmatch_iff_matches' _ _).mpr hm)
      (show IsCard ((card ++ rest).take card.length) by rwa [List.take_left]) hle (by simp)
    omega
  have hpass : ∀ (a : Char) (s : Text), (∀ card, card <+: a :: s → ¬IsCard card) →
      leftmost cardRegex s = leftmost cardRegex (a :: s) := by
    intro a s h
    apply Eq.symm
    apply leftmost_cons
    intro n _ _ hm
    exact h _ (List.take_prefix n _) ((rmatch_iff_matches' _ _).mpr hm)
  have hnil : leftmost cardRegex [] = [] := by rw [leftmost]
  have hone : ∀ a, leftmost cardRegex [a] = [] := by
    intro a
    rw [← hpass, hnil]
    intro card hp h
    have hle : card.length ≤ 1 := hp.length_le
    have := h.length_pos
    omega
  induction s using extractCards.induct with
  | case1 a b c s hten ih =>
    rw [extractCards, if_pos hten, ih]
    exact (hfront [a, b, c] s (isCard_iff.mpr (.inr ⟨c, by rw [hten.1, hten.2.1], hten.2.2⟩))).symm
  | case2 a b c s hten hcard ih =>
    rw [extractCards, if_neg hten, if_pos hcard, ih]
    exact (hfront [a, b] (c :: s) (isCard_iff.mpr (.inl ⟨a, b, rfl, hcard.1, hcard.2⟩))).symm
  | case3 a b c s hten hcard ih =>
    rw [extractCards, if_neg hten, if_neg hcard, ih]
    apply hpass
    intro card hp h
    rcases isCard_iff.mp h with ⟨x, y, rfl, hx, hy⟩ | ⟨y, rfl, hy⟩
    · simp only [List.cons_prefix_cons, List.nil_prefix, and_true] at hp
      exact hcard ⟨hp.1 ▸ hx, hp.2 ▸ hy⟩
    · simp only [List.cons_prefix_cons, List.nil_prefix, and_true] at hp
      exact hten ⟨hp.1.symm, hp.2.1.symm, hp.2.2 ▸ hy⟩
  | case4 a b hcard =>
    rw [extractCards, if_pos hcard]
    have h := hfront [a, b] [] (isCard_iff.mpr (.inl ⟨a, b, rfl, hcard.1, hcard.2⟩))
    rw [hnil] at h
    exact h.symm
  | case5 a b hcard =>
    rw [extractCards, if_neg hcard, ← hpass, hone]
    intro card hp h
    rcases isCard_iff.mp h with ⟨x, y, rfl, hx, hy⟩ | ⟨y, rfl, -⟩
    · simp only [List.cons_prefix_cons, List.nil_prefix, and_true] at hp
      exact hcard ⟨hp.1 ▸ hx, hp.2 ▸ hy⟩
    · have hle : 3 ≤ 2 := hp.length_le
      omega
  | case6 s h₁ h₂ =>
    rw [extractCards]
    · rcases s with - | ⟨a, - | ⟨b, - | ⟨c, s⟩⟩⟩
      · exact hnil.symm
      · exact (hone a).symm
      · exact absurd rfl (h₂ a b)
      · exact absurd rfl (h₁ a b c s)
    · exact h₁
    · exact h₂

lemma extractSeatScore_append (s : Seat) (n : ℕ) {rest : Text}
    (hrest : ∀ c ∈ rest.head?, c.isDigit = false) :
    extractSeatScore (s.name ++ toText n ++ rest) = (s.name ++ toText n) :: extractSeatScore rest := by
  apply leftmost_append (by simp [Seat.name]) (seatScore_mem s n)
  intro k hk hle hm
  rcases rest with _ | ⟨c, rest⟩
  · simp at hk hle
    omega
  have hc : c.isDigit = false := hrest c rfl
  obtain ⟨y, hy, z, hz, he⟩ := mem_mul.mp hm
  obtain ⟨a, -, rfl⟩ := (mem_oneOf _).mp hy
  -- the longer match would have to read the symbol behind the digits as one of them
  have hat : ([a] ++ z)[(toText n).length + 1]? = some c := by
    rw [he, List.getElem?_take_of_lt (by simpa [Seat.name] using hk)]
    simp [Seat.name]
  have hmem : c ∈ z := List.mem_of_getElem? (by simpa using hat)
  have hdigits : ∀ c ∈ ['0', '1', '2', '3', '4', '5', '6', '7', '8', '9'], c.isDigit = true := by
    simp [Char.isDigit]
  have hdigit : c.isDigit = true := hdigits c (((mem_many1_oneOf _).mp hz).2 c hmem)
  rw [hc] at hdigit
  cases hdigit

/-- **The scores of a text of scores are read back**, seat by seat. -/
lemma extractSeatScore_flatMap {scores : Seat → ℤ} (h : ∀ s, 0 ≤ scores s) (seats : List Seat) :
    extractSeatScore (seats.flatMap fun s => s.name ++ intText (scores s)) =
      seats.map fun s => s.name ++ intText (scores s) := by
  induction seats with
  | nil => exact leftmost.eq_1 _
  | cons s seats ih =>
    rw [List.flatMap_cons, List.map_cons, intText_of_nonneg (h s), extractSeatScore_append, ih]
    intro c hc
    cases seats with
    | nil => simp at hc
    | cons s' seats =>
      have hletter : c = s'.letter := by simpa [Seat.name] using hc.symm
      rw [hletter]
      cases s' <;> rfl

/-! ### Cutting -/

lemma cut_numbered {n : ℕ} (hn : 1 ≤ n ∧ n ≤ 13) (w m tail : Text) {s : Text} (hw : w.length = 5)
    (hs : s = (w ++ toText n) ++ (m ++ tail)) :
    (if n < 10 then substr s 6 (s.length - (6 + tail.length))
      else substr s 7 (s.length - (7 + tail.length))) = m := by
  obtain ⟨hshort, hlong⟩ := length_toText (n := n)
  subst hs
  split
  · rename_i h
    apply substr_middle
    · rw [List.length_append, hw, hshort h]
    · simp only [List.length_append, hw, hshort h]
      omega
  · rename_i h
    apply substr_middle
    · rw [List.length_append, hw, hlong (by omega) hn.2]
    · simp only [List.length_append, hw, hlong (by omega) hn.2]
      omega

lemma trickCut_trickLine {n : ℕ} (hn : 1 ≤ n ∧ n ≤ 13) (cards : List Text) :
    trickCut (trickLine n cards) n = cards.flatten :=
  cut_numbered hn ['T', 'R', 'I', 'C', 'K'] cards.flatten delimeter rfl (by simp [trickLine])

lemma takenCut_takenLine {n : ℕ} (hn : 1 ≤ n ∧ n ≤ 13) (cards : List Text) (taker : Seat) :
    takenCut (takenLine n cards taker) n = cards.flatten :=
  cut_numbered hn ['T', 'A', 'K', 'E', 'N'] cards.flatten (taker.name ++ delimeter) rfl
    (by simp [takenLine])

lemma dealCut_dealLine {dealType : ℕ} (hd : 1 ≤ dealType ∧ dealType ≤ 7) (starter : Seat)
    (cards : List Text) : dealCut (dealLine dealType starter cards) = cards.flatten := by
  have hlen : (toText dealType).length = 1 := length_toText.1 (by omega)
  have hline : dealLine dealType starter cards =
      (['D', 'E', 'A', 'L'] ++ toText dealType ++ starter.name) ++ (cards.flatten ++ delimeter) := by
    simp [dealLine]
  unfold dealCut
  rw [hline]
  apply substr_middle
  · simp [hlen, Seat.name]
  · simp [hlen, Seat.name, delimeter]
    omega

lemma taker_takenLine (n : ℕ) (cards : List Text) (taker : Seat) :
    (takenLine n cards taker)[(takenLine n cards taker).length - 3]? = some taker.letter := by
  have hline : takenLine n cards taker =
      (['T', 'A', 'K', 'E', 'N'] ++ toText n ++ cards.flatten) ++ [taker.letter, '\r', '\n'] := by
    simp [takenLine, Seat.name, delimeter]
  have hthird : ∀ (u : Text) (a b c : Char),
      (u ++ [a, b, c])[(u ++ [a, b, c]).length - 3]? = some a := by
    intro u a b c
    simp
  rw [hline]
  exact hthird _ _ _ _

lemma scoresCut_eq {w scores : Text} (hw : w.length = 5) :
    scoresCut (w ++ scores ++ delimeter) = scores := by
  unfold scoresCut
  rw [List.append_assoc]
  apply substr_middle
  · exact hw.symm
  · simp [hw, delimeter]
    omega

/-! ### The lines -/

/-- A line of the server to a client at the table, with what it says. -/
inductive ServerLine
  | deal (dealType : ℕ) (starter : Seat) (cards : List Text) (hd : 1 ≤ dealType ∧ dealType ≤ 7)
      (h13 : cards.length = 13) (hcards : ∀ card ∈ cards, card ∈ deck)
  | trick (n : ℕ) (table : List Text) (hn : 1 ≤ n ∧ n ≤ 13) (h3 : table.length ≤ 3)
      (hcards : ∀ card ∈ table, card ∈ deck)
  | wrong (n : ℕ) (hn : 1 ≤ n ∧ n ≤ 13)
  | taken (n : ℕ) (cards : List Text) (taker : Seat) (hn : 1 ≤ n ∧ n ≤ 13) (h4 : cards.length = 4)
      (hcards : ∀ card ∈ cards, card ∈ deck)
  | score (scores : Seat → ℤ) (h : ∀ s, 0 ≤ scores s)
  | total (scores : Seat → ℤ) (h : ∀ s, 0 ≤ scores s)

namespace ServerLine

def text : ServerLine → Text
  | deal dealType starter cards _ _ _ => dealLine dealType starter cards
  | trick n table _ _ _ => trickLine n table
  | wrong n _ => wrongLine n
  | taken n cards taker _ _ _ => takenLine n cards taker
  | score scores _ => scoreLine scores
  | total scores _ => totalLine scores

def kind : ServerLine → LineKind
  | deal .. => .deal
  | trick .. => .trick
  | wrong .. => .wrong
  | taken .. => .taken
  | score .. => .score
  | total .. => .total

/-- The trick whose number the line has to have to be understood. -/
def number? : ServerLine → Option ℕ
  | trick n .. | taken n .. => some n
  | _ => none

/-- The cards, or the scores of the seats, that the line is built from. -/
def contents : ServerLine → List Text
  | deal _ _ cards _ _ _ | trick _ cards _ _ _ | taken _ cards _ _ _ _ => cards
  | wrong .. => []
  | score scores _ | total scores _ => Seat.mapOrder.map fun s => s.name ++ intText (scores s)

lemma word_prefix (line : ServerLine) : line.kind.word <+: line.text := by
  cases line <;>
    simp [kind, text, LineKind.word, dealLine, trickLine, wrongLine, takenLine, scoreLine, totalLine]

end ServerLine

/-- What the client reads in a line of a kind, `n` being the number of the current trick. -/
def LineKind.read (n : ℕ) (s : Text) : LineKind → List Text
  | .deal => extractCards (dealCut s)
  | .trick => extractCards (trickCut s n)
  | .taken => extractCards (takenCut s n)
  | .score | .total => extractSeatScore (scoresCut s)
  | .busy | .wrong => []

lemma Klient.read_eq (k : Klient) (s : Text) :
    (k.takeDeal s).myCards = LineKind.deal.read k.trickNumber s ∧
    k.takenCards s = LineKind.taken.read k.trickNumber s ∧
    k.trickColor s = if s.length ≤ 9 then [] else
      (((LineKind.trick.read k.trickNumber s).head?.bind List.getLast?).map fun c => [c]).getD [] := by
  refine ⟨rfl, ?_, ?_⟩
  · unfold Klient.takenCards LineKind.read takenCut
    rfl
  · unfold Klient.trickColor LineKind.read trickCut
    rfl

namespace ServerLine

lemma check_text (line : ServerLine) {n : ℕ} (hn : ∀ m ∈ line.number?, m = n) :
    line.kind.check n line.text = true := by
  cases line with
  | deal dealType starter cards hd h13 hcards =>
    exact DEALCheck_dealLine (isCard_of_deck hcards) hd h13 starter
  | trick m table hm h3 hcards =>
    obtain rfl := hn m rfl
    exact TRICKCheck_trickLine (isCard_of_deck hcards) h3 m
  | wrong m hm => exact WRONGCheck_wrongLine hm
  | taken m cards taker hm h4 hcards =>
    obtain rfl := hn m rfl
    exact TAKENCheck_takenLine (isCard_of_deck hcards) h4 m taker
  | score scores h => exact SCORECheck_scoreLine h
  | total scores h => exact TOTALCheck_totalLine h

lemma read_text (line : ServerLine) {n : ℕ} (hn : ∀ m ∈ line.number?, m = n) :
    line.kind.read n line.text = line.contents := by
  cases line with
  | deal dealType starter cards hd h13 hcards =>
    show extractCards (dealCut (dealLine dealType starter cards)) = cards
    rw [dealCut_dealLine hd, extractCards_deck hcards]
  | trick m table hm h3 hcards =>
    obtain rfl := hn m rfl
    show extractCards (trickCut (trickLine m table) m) = table
    rw [trickCut_trickLine hm, extractCards_deck hcards]
  | wrong m hm => rfl
  | taken m cards taker hm h4 hcards =>
    obtain rfl := hn m rfl
    show extractCards (takenCut (takenLine m cards taker) m) = cards
    rw [takenCut_takenLine hm, extractCards_deck hcards]
  | score scores h =>
    show extractSeatScore (scoresCut (scoreLine scores)) = _
    rw [scoreLine, scoresCut_eq rfl]
    exact extractSeatScore_flatMap h Seat.mapOrder
  | total scores h =>
    show extractSeatScore (scoresCut (totalLine scores)) = _
    rw [totalLine, scoresCut_eq rfl]
    exact extractSeatScore_flatMap h Seat.mapOrder

end ServerLine

/-- **The lines of the server are understood as they are meant.** The cards of any text of cards are
read back. A line passes its own check, and no other one whatever the number of the current trick;
what the client cuts out of it and extracts are the cards or the scores it was built from. And a line
about one trick does not pass the check of another. -/
theorem lines_read_back :
    (∀ cards : List Text, (∀ card ∈ cards, card ∈ deck) → extractCards cards.flatten = cards) ∧
    (∀ (line : ServerLine) (n : ℕ), (∀ m ∈ line.number?, m = n) →
      line.kind.check n line.text = true ∧
      (∀ kind ≠ line.kind, ∀ m, kind.check m line.text = false) ∧
      LineKind.dispatch n line.text = some line.kind ∧
      line.kind.read n line.text = line.contents ∧
      ∀ k : Klient, k.trickNumber = n →
        (line.kind = .deal → (k.takeDeal line.text).myCards = line.contents) ∧
        (line.kind = .taken → k.takenCards line.text = line.contents)) ∧
    (∀ (m n : ℕ) (cards : List Text), 1 ≤ m ∧ m ≤ 13 → cards.length ≤ 3 →
      (∀ card ∈ cards, card ∈ deck) → TRICKCheck (trickLine m cards) n = true → m = n) ∧
    ∀ (m n : ℕ) (cards : List Text) (taker : Seat), 1 ≤ m ∧ m ≤ 13 → cards.length = 4 →
      (∀ card ∈ cards, card ∈ deck) → TAKENCheck (takenLine m cards taker) n = true → m = n := by
  refine ⟨fun cards h => extractCards_deck h, ?_, ?_, ?_⟩
  · intro line n hn
    have hcheck := line.check_text hn
    have hread := line.read_text hn
    refine ⟨hcheck, ?_, LineKind.dispatch_eq_some_iff.mpr hcheck, hread, ?_⟩
    · intro kind hne m
      exact LineKind.check_of_word line.word_prefix hne
    · rintro k rfl
      obtain ⟨hdeal, htaken, -⟩ := k.read_eq line.text
      constructor
      · intro hk
        rw [hdeal, ← hread, hk]
      · intro hk
        rw [htaken, ← hread, hk]
  · intro m n cards _ _ hcards hc
    exact TRICKCheck_unique (isCard_of_deck hcards) hc
  · intro m n cards taker _ h4 hcards hc
    exact TAKENCheck_unique (isCard_of_deck hcards) h4 hc

/-- The number of the first trick and a ten run together. -/
theorem lines_read_back_ten : LineKind.dispatch 1 (trickLine 1 [['1', '0', 'C']]) = some .trick ∧
    extractCards (trickCut (trickLine 1 [['1', '0', 'C']]) 1) = [['1', '0', 'C']] ∧
    TRICKCheck (trickLine 1 [['1', '0', 'C']]) 11 = false := by
  obtain ⟨-, hline, htrick, -⟩ := lines_read_back
  obtain ⟨-, -, hdispatch, hread, -⟩ :=
    hline (.trick 1 [['1', '0', 'C']] (by decide) (by decide) (by decide)) 1 (by simp [ServerLine.number?])
  refine ⟨hdispatch, hread, ?_⟩
  rw [Bool.eq_false_iff]
  intro hc
  exact absurd (htrick 1 11 _ (by decide) (by decide) (by decide) hc) (by decide)

/-! ### What is printed -/

/-- **The rows printed of the scores** name every seat and its points. -/
theorem printRows_scores {scores : Seat → ℤ} (h : ∀ s, 0 ≤ scores s) {w : Text} (hw : w.length = 5) :
    printRows (w ++ scoresText scores ++ delimeter) =
      Seat.mapOrder.flatMap fun s => s.name ++ " | ".toList ++ intText (scores s) ++ ['\n'] := by
  unfold printRows
  rw [scoresCut_eq hw, scoresText, extractSeatScore_flatMap h, List.flatMap_map]
  apply List.flatMap_congr
  intro s _
  simp [Seat.name, substr]

/-- **A deal is printed with the hand that was dealt.** -/
theorem printDeal_dealLine {dealType : ℕ} (hd : 1 ≤ dealType ∧ dealType ≤ 7) (starter : Seat)
    {cards : List Text} (hcards : ∀ card ∈ cards, card ∈ deck) :
    printDeal (dealLine dealType starter cards) =
      "New deal ".toList ++ toText dealType ++ ": staring place: ".toList ++ starter.name ++
        ", your cards:".toList ++ printData cards ++ ".\n".toList := by
  have hread : extractCards (dealCut (dealLine dealType starter cards)) = cards := by
    rw [dealCut_dealLine hd]
    exact extractCards_deck hcards
  have htext : toText dealType = [dealType.digitChar] := Nat.toDigits_of_lt_base (by omega)
  unfold printDeal
  rw [hread]
  simp [dealLine, htext, Seat.name]

/-- **A trick is printed with its cards and its taker.** -/
theorem printTaken_takenLine {n : ℕ} (hn : 1 ≤ n ∧ n ≤ 13) {cards : List Text} (taker : Seat)
    (hcards : ∀ card ∈ cards, card ∈ deck) :
    printTaken (takenLine n cards taker) n =
      "A trick ".toList ++ toText n ++ " is taken by ".toList ++ taker.name ++ ", cards".toList ++
        printData cards ++ ".\n".toList := by
  have hread : extractCards (takenCut (takenLine n cards taker) n) = cards := by
    rw [takenCut_takenLine hn]
    exact extractCards_deck hcards
  unfold printTaken
  rw [hread, taker_takenLine]
  simp [Seat.name]

/-- **A request is printed with the cards on the table.** -/
theorem printTrick_trickLine {n : ℕ} (hn : 1 ≤ n ∧ n ≤ 13) {table : List Text} (myCards : List Text)
    (htable : ∀ card ∈ table, card ∈ deck) :
    printTrick (trickLine n table) n myCards =
      "Trick: (".toList ++ toText n ++ [')'] ++ printData table ++ "\nAvailable cards:".toList ++
        printData myCards ++ ['\n'] := by
  have hread : extractCards (trickCut (trickLine n table) n) = table := by
    rw [trickCut_trickLine hn]
    exact extractCards_deck htable
  unfold printTrick
  rw [hread]

/-- **A client that is not let in prints the seats that are taken.** -/
theorem printBusy_busyLine (seats : List Seat) : printBusy (busyLine seats) =
    "Place busy, list of busy places received:".toList ++ printData (seats.map Seat.name) ++
      ".\n".toList := by
  have hnames : seats.flatMap Seat.name = seats.map Seat.letter := by
    induction seats with
    | nil => rfl
    | cons s seats ih => simp [ih, Seat.name]
  have hcut : substr (busyLine seats) 4 ((busyLine seats).length - 6) = seats.map Seat.letter := by
    unfold busyLine
    rw [hnames, List.append_assoc]
    apply substr_middle
    · rfl
    · simp [delimeter]
  unfold printBusy
  rw [hcut, List.map_map]
  rfl

end Kierki
