import Kierki.Regex
import Kierki.Senders
import Mathlib.Tactic.IntervalCases

/-!
# Cards in lines

What the checks and the extraction of `regex.cpp` say of the lines that `senders.cpp` builds: a
line of cards passes its own check and no other, and its cards are read back. The number of a trick
runs into the figure of the first card, and can still be told from it: digits before a suit are the
number and one figure, and before a letter of a figure they are the number alone.
-/

namespace Kierki

open RegularExpression Lib.RegExp Regex Senders

/-! ### Cards -/

/-- The text of one card. -/
def IsCard (card : Text) : Prop := cardRegex.rmatch card = true

instance : DecidablePred IsCard := fun _ => inferInstanceAs (Decidable (_ = true))

lemma isCard_iff {card : Text} : IsCard card ↔
    (∃ a b, card = [a, b] ∧ isFigure1 a = true ∧ isSuit b = true) ∨
    ∃ b, card = ['1', '0', b] ∧ isSuit b = true := by
  unfold IsCard cardRegex figureRegex suitRegex
  rw [rmatch_iff_matches', mem_mul]
  simp only [mem_add, mem_oneOf, mem_text, isFigure1, isSuit, decide_eq_true_eq]
  constructor
  · rintro ⟨_, (⟨a, ha, rfl⟩ | rfl | ⟨a, ha, rfl⟩), _, ⟨b, hb, rfl⟩, rfl⟩
    · exact .inl ⟨a, b, rfl, List.mem_append_left ['J', 'Q', 'K', 'A'] ha, hb⟩
    · exact .inr ⟨b, rfl, hb⟩
    · exact .inl ⟨a, b, rfl,
        List.mem_append_right ['2', '3', '4', '5', '6', '7', '8', '9'] ha, hb⟩
  · rintro (⟨a, b, rfl, ha, hb⟩ | ⟨b, rfl, hb⟩)
    · rw [show ['2', '3', '4', '5', '6', '7', '8', '9', 'J', 'Q', 'K', 'A'] =
        ['2', '3', '4', '5', '6', '7', '8', '9'] ++ ['J', 'Q', 'K', 'A'] from rfl,
        List.mem_append] at ha
      refine ⟨[a], ?_, [b], ⟨b, hb, rfl⟩, rfl⟩
      rcases ha with ha | ha
      · exact .inl ⟨a, ha, rfl⟩
      · exact .inr (.inr ⟨a, ha, rfl⟩)
    · exact ⟨['1', '0'], .inr (.inl rfl), [b], ⟨b, hb, rfl⟩, rfl⟩

lemma IsCard.mem {card : Text} (h : IsCard card) : card ∈ cardRegex.matches' := (rmatch_iff_matches' _ _).mp h

lemma IsCard.length_pos {card : Text} (h : IsCard card) : 2 ≤ card.length ∧ card.length ≤ 3 := by
  rcases isCard_iff.mp h with ⟨a, b, rfl, -⟩ | ⟨b, rfl, -⟩ <;> simp

lemma IsCard.suit {card : Text} (h : IsCard card) : ∃ c, card.getLast? = some c ∧ isSuit c = true := by
  rcases isCard_iff.mp h with ⟨a, b, rfl, -, hb⟩ | ⟨b, rfl, hb⟩ <;> exact ⟨b, rfl, hb⟩

/-- The suits and the figures of the cards. -/
def suits : List Char := ['C', 'D', 'H', 'S']

def figures : List Text :=
  [['2'], ['3'], ['4'], ['5'], ['6'], ['7'], ['8'], ['9'], ['1', '0'], ['J'], ['Q'], ['K'], ['A']]

/-- The cards of the game. -/
def deck : List Text := suits.flatMap fun suit => figures.map fun figure => figure ++ [suit]

lemma mem_deck {card : Text} :
    card ∈ deck ↔ ∃ suit ∈ suits, ∃ figure ∈ figures, figure ++ [suit] = card := by
  simp only [deck, List.mem_flatMap, List.mem_map]

/-- **What `cardRegex` matches are the cards of the game.** -/
lemma isCard_iff_mem_deck {card : Text} : IsCard card ↔ card ∈ deck := by
  rw [isCard_iff, mem_deck]
  constructor
  · rintro (⟨a, b, rfl, ha, hb⟩ | ⟨b, rfl, hb⟩)
    · have hone : ∀ a ∈ ['2', '3', '4', '5', '6', '7', '8', '9', 'J', 'Q', 'K', 'A'], [a] ∈ figures := by
        simp [figures]
      exact ⟨b, by simpa [isSuit, suits] using hb, [a], hone a (of_decide_eq_true ha), rfl⟩
    · exact ⟨b, by simpa [isSuit, suits] using hb, ['1', '0'], by decide, rfl⟩
  · rintro ⟨b, hb, figure, hf, rfl⟩
    have hb' : isSuit b = true := by simpa [isSuit, suits] using hb
    by_cases hten : figure = ['1', '0']
    · exact .inr ⟨b, by rw [hten]; rfl, hb'⟩
    · have hone : ∀ f ∈ figures, f ≠ ['1', '0'] → ∃ a ∈ f, f = [a] ∧ isFigure1 a = true := by
        simp [figures, isFigure1]
      obtain ⟨a, -, rfl, ha⟩ := hone figure hf hten
      exact .inl ⟨a, b, rfl, ha, hb'⟩

lemma isCard_of_deck {cards : List Text} (h : ∀ card ∈ cards, card ∈ deck) :
    ∀ card ∈ cards, IsCard card :=
  fun card hcard => isCard_iff_mem_deck.mpr (h card hcard)

lemma extractCards_append {card rest : Text} (h : IsCard card) :
    extractCards (card ++ rest) = card :: extractCards rest := by
  rcases isCard_iff.mp h with ⟨a, b, rfl, ha, hb⟩ | ⟨b, rfl, hb⟩
  · have h1 : a ≠ '1' := by
      rintro rfl
      revert ha
      decide
    cases rest with
    | nil => simp [extractCards, ha, hb]
    | cons c s => simp [extractCards, h1, ha, hb]
  · simp [extractCards, hb]

lemma isCard_of_extractCards {s card : Text} (h : card ∈ extractCards s) : IsCard card := by
  induction s using extractCards.induct with
  | case1 a b c s hten ih =>
    rw [extractCards, if_pos hten, List.mem_cons] at h
    rcases h with rfl | h
    · exact isCard_iff.mpr (.inr ⟨c, by rw [hten.1, hten.2.1], hten.2.2⟩)
    · exact ih h
  | case2 a b c s hten hcard ih =>
    rw [extractCards, if_neg hten, if_pos hcard, List.mem_cons] at h
    rcases h with rfl | h
    · exact isCard_iff.mpr (.inl ⟨a, b, rfl, hcard.1, hcard.2⟩)
    · exact ih h
  | case3 a b c s hten hcard ih =>
    rw [extractCards, if_neg hten, if_neg hcard] at h
    exact ih h
  | case4 a b hcard =>
    rw [extractCards, if_pos hcard, List.mem_singleton] at h
    exact isCard_iff.mpr (.inl ⟨a, b, h, hcard.1, hcard.2⟩)
  | case5 a b hcard =>
    rw [extractCards, if_neg hcard] at h
    cases h
  | case6 s h₁ h₂ =>
    rw [extractCards] at h
    · cases h
    · exact h₁
    · exact h₂

/-- **The cards of a text of cards are read back.** -/
lemma extractCards_flatten {cards : List Text} (h : ∀ card ∈ cards, IsCard card) :
    extractCards cards.flatten = cards := by
  induction cards with
  | nil => rfl
  | cons card cards ih =>
    rw [List.flatten_cons, extractCards_append (h card (by simp)),
      ih fun c hc => h c (by simp [hc])]

lemma extractCards_deck {cards : List Text} (h : ∀ card ∈ cards, card ∈ deck) :
    extractCards cards.flatten = cards :=
  extractCards_flatten (isCard_of_deck h)

lemma flatten_mem {cards : List Text} (h : ∀ card ∈ cards, IsCard card) :
    (∀ n, cards.length ≤ n → cards.flatten ∈ (upTo n cardRegex).matches') ∧
      cards.flatten ∈ (times cards.length cardRegex).matches' := by
  constructor
  · intro n hn
    exact (mem_upTo n).mpr ⟨cards, hn, fun y hy => (h y hy).mem, rfl⟩
  · exact (mem_times _).mpr ⟨cards, rfl, fun y hy => (h y hy).mem, rfl⟩

/-! ### The checks on the lines -/

lemma rmatch_eq_false {w s : Text} {P : RegularExpression Char} (h : ¬w <+: s) :
    (text w * P).rmatch s = false := by
  rw [Bool.eq_false_iff]
  intro hm
  rw [rmatch_iff_matches', mem_text_mul] at hm
  obtain ⟨z, -, rfl⟩ := hm
  exact h (List.prefix_append w z)

lemma rmatch_text_mul {w z : Text} {P : RegularExpression Char} (h : z ∈ P.matches') :
    (text w * P).rmatch (w ++ z) = true := by
  rw [rmatch_iff_matches', mem_text_mul]
  exact ⟨z, h, rfl⟩

/-- The lines of the server, as `handle_client` tells them apart. -/
inductive LineKind
  | busy | deal | wrong | taken | score | total | trick
  deriving DecidableEq, Repr

namespace LineKind

/-- The word a line begins with. -/
def word : LineKind → Text
  | busy => ['B', 'U', 'S', 'Y']
  | deal => ['D', 'E', 'A', 'L']
  | wrong => ['W', 'R', 'O', 'N', 'G']
  | taken => ['T', 'A', 'K', 'E', 'N']
  | score => ['S', 'C', 'O', 'R', 'E']
  | total => ['T', 'O', 'T', 'A', 'L']
  | trick => ['T', 'R', 'I', 'C', 'K']

/-- The check of a line, `n` being the number of the current trick. -/
def check (n : ℕ) (s : Text) : LineKind → Bool
  | busy => BUSYCheck s
  | deal => DEALCheck s
  | wrong => WRONGCheck s
  | taken => TAKENCheck s n
  | score => SCORECheck s
  | total => TOTALCheck s
  | trick => TRICKCheck s n

/-- The order in which `handle_client` tries the checks. -/
def order : List LineKind := [busy, deal, wrong, taken, score, total, trick]

/-- The first check that passes. -/
def dispatch (n : ℕ) (s : Text) : Option LineKind := order.find? (check n s)

variable {kind kind' : LineKind} {n n' : ℕ} {s : Text}

lemma word_of_check (h : kind.check n s = true) : kind.word <+: s := by
  by_contra hw
  cases kind with
  | taken =>
    have hnum : ¬taken.word ++ toText n <+: s := fun h => hw ((List.prefix_append _ _).trans h)
    exact absurd (rmatch_eq_false hnum) (ne_false_of_eq_true h)
  | trick =>
    have hnum : ¬trick.word ++ toText n <+: s := fun h => hw ((List.prefix_append _ _).trans h)
    exact absurd (rmatch_eq_false hnum) (ne_false_of_eq_true h)
  | _ => exact absurd (rmatch_eq_false hw) (ne_false_of_eq_true h)

/-- No word begins another. -/
lemma word_unique (h : kind.word <+: s) (h' : kind'.word <+: s) : kind = kind' := by
  have hwords : ∀ kind kind' : LineKind, kind.word <+: kind'.word → kind = kind' := by
    intro kind kind'
    cases kind <;> cases kind' <;> decide
  rcases List.prefix_or_prefix_of_prefix h h' with h | h
  · exact hwords _ _ h
  · exact (hwords _ _ h).symm

/-- **The first word of a line tells which check it may pass.** -/
lemma check_of_word (h : kind.word <+: s) (hne : kind' ≠ kind) : kind'.check n s = false := by
  rw [Bool.eq_false_iff]
  intro hc
  exact hne (word_unique (word_of_check hc) h)

lemma dispatch_eq_some_iff : dispatch n s = some kind ↔ kind.check n s = true := by
  constructor
  · intro h
    exact List.find?_some h
  · intro h
    have hmem : kind ∈ order := by cases kind <;> decide
    cases hd : dispatch n s with
    | none => exact absurd h (List.find?_eq_none.mp hd kind hmem)
    | some kind' =>
      have h' : kind'.check n s = true := List.find?_some hd
      rw [word_unique (word_of_check h') (word_of_check h)]

lemma dispatch_of_word (h : kind.word <+: s) :
    dispatch n s = if kind.check n s then some kind else none := by
  split
  · rename_i hc
    exact dispatch_eq_some_iff.mpr hc
  · rename_i hc
    cases hd : dispatch n s with
    | none => rfl
    | some kind' =>
      rw [dispatch_eq_some_iff] at hd
      rw [word_unique (word_of_check hd) h] at hd
      exact absurd hd hc

end LineKind

lemma delimeter_mem : delimeter ∈ (text delimeter).matches' := (mem_text _).mpr rfl

lemma seat_mem (s : Seat) : s.name ∈ seatRegex.matches' :=
  (mem_oneOf _).mpr ⟨s.letter, by cases s <;> decide, rfl⟩

section Pass

variable {cards : List Text} (h : ∀ card ∈ cards, IsCard card)
include h

lemma TRICKCheck_trickLine (h3 : cards.length ≤ 3) (n : ℕ) :
    TRICKCheck (trickLine n cards) n = true := by
  unfold TRICKCheck trickLine
  rw [List.append_assoc _ cards.flatten]
  apply rmatch_text_mul
  exact mem_mul.mpr ⟨_, (flatten_mem h).1 3 h3, _, delimeter_mem, rfl⟩

lemma TAKENCheck_takenLine (h4 : cards.length = 4) (n : ℕ) (taker : Seat) :
    TAKENCheck (takenLine n cards taker) n = true := by
  unfold TAKENCheck takenLine
  rw [List.append_assoc _ taker.name, List.append_assoc _ cards.flatten]
  apply rmatch_text_mul
  exact mem_mul.mpr ⟨_, h4 ▸ (flatten_mem h).2, _,
    mem_mul.mpr ⟨_, seat_mem taker, _, delimeter_mem, rfl⟩, rfl⟩

lemma DEALCheck_dealLine {dealType : ℕ} (hd : 1 ≤ dealType ∧ dealType ≤ 7)
    (h13 : cards.length = 13) (starter : Seat) :
    DEALCheck (dealLine dealType starter cards) = true := by
  unfold DEALCheck dealLine
  simp only [List.append_assoc]
  apply rmatch_text_mul
  refine mem_mul.mpr ⟨toText dealType, ?_, _, mem_mul.mpr ⟨_, seat_mem starter, _,
    mem_mul.mpr ⟨_, h13 ▸ (flatten_mem h).2, _, delimeter_mem, rfl⟩, rfl⟩, rfl⟩
  obtain ⟨h1, h7⟩ := hd
  rw [mem_oneOf]
  interval_cases dealType <;> exact ⟨_, by decide, rfl⟩

end Pass

lemma trickNr_mem {n : ℕ} (hn : 1 ≤ n ∧ n ≤ 13) : toText n ∈ trickNrRegex.matches' := by
  obtain ⟨h1, h13⟩ := hn
  unfold trickNrRegex
  rw [mem_add, mem_oneOf, mem_text_mul]
  simp only [mem_oneOf]
  rcases Nat.lt_or_ge n 10 with h | h
  · left
    interval_cases n <;> exact ⟨_, by decide, rfl⟩
  · right
    interval_cases n <;> exact ⟨_, ⟨_, by decide, rfl⟩, rfl⟩

lemma trickNr_cons {nr : Text} (h : nr ∈ trickNrRegex.matches') :
    ∃ d rest, nr = d :: rest ∧ d.isDigit = true := by
  rcases mem_add.mp h with h | h
  · obtain ⟨d, hd, rfl⟩ := (mem_oneOf _).mp h
    have hdigits : ['1', '2', '3', '4', '5', '6', '7', '8', '9'].all Char.isDigit = true := by decide
    exact ⟨d, [], rfl, List.all_eq_true.mp hdigits d hd⟩
  · obtain ⟨z, -, rfl⟩ := (mem_text_mul _).mp h
    exact ⟨'1', z, rfl, rfl⟩

lemma TRICKClientCheck_trickLine {n : ℕ} {card : Text} (hn : 1 ≤ n ∧ n ≤ 13) (h : IsCard card) :
    TRICKClientCheck (trickLine n [card]) = true := by
  unfold TRICKClientCheck trickLine
  simp only [List.append_assoc, List.flatten_cons, List.flatten_nil, List.nil_append]
  apply rmatch_text_mul
  exact mem_mul.mpr ⟨_, trickNr_mem hn, _, mem_mul.mpr ⟨_, h.mem, _, delimeter_mem, rfl⟩, rfl⟩

lemma WRONGCheck_wrongLine {n : ℕ} (hn : 1 ≤ n ∧ n ≤ 13) : WRONGCheck (wrongLine n) = true := by
  unfold WRONGCheck wrongLine
  rw [List.append_assoc]
  apply rmatch_text_mul
  exact mem_mul.mpr ⟨_, trickNr_mem hn, _, delimeter_mem, rfl⟩

/-! ### Scores -/

lemma toText_isDigit {n : ℕ} {c : Char} (h : c ∈ toText n) : c.isDigit = true :=
  Nat.isDigit_of_mem_toDigits (by decide) (by decide) h

lemma isDigit_bounds {c : Char} (h : c.isDigit = true) : 48 ≤ c.toNat ∧ c.toNat ≤ 57 := by
  simp only [Char.isDigit, Bool.and_eq_true, decide_eq_true_eq] at h
  exact ⟨h.1, h.2⟩

lemma mem_digits {c : Char} (h : c.isDigit = true) :
    c ∈ ['0', '1', '2', '3', '4', '5', '6', '7', '8', '9'] := by
  have hc : c = Char.ofNat c.toNat := (Char.ofNat_toNat c).symm
  obtain ⟨h48, h57⟩ := isDigit_bounds h
  rw [hc]
  generalize c.toNat = n at *
  interval_cases n <;> decide

lemma seatScore_mem (s : Seat) (n : ℕ) : s.name ++ toText n ∈ seatScoreRegex.matches' := by
  refine mem_mul.mpr ⟨_, seat_mem s, _, (mem_many1_oneOf _).mpr ⟨Nat.toDigits_ne_nil, ?_⟩, rfl⟩
  intro c hc
  exact mem_digits (toText_isDigit hc)

lemma intText_of_nonneg {x : ℤ} (h : 0 ≤ x) : intText x = toText x.toNat := by
  obtain ⟨n, rfl⟩ := Int.eq_ofNat_of_zero_le h
  rfl

lemma scoresText_mem {scores : Seat → ℤ} (h : ∀ s, 0 ≤ scores s) :
    scoresText scores ∈ (times 4 seatScoreRegex).matches' := by
  refine (mem_times 4).mpr ⟨Seat.mapOrder.map fun s => s.name ++ intText (scores s), rfl, ?_, rfl⟩
  intro y hy
  obtain ⟨s, -, rfl⟩ := List.mem_map.mp hy
  rw [intText_of_nonneg (h s)]
  exact seatScore_mem s _

lemma SCORECheck_scoreLine {scores : Seat → ℤ} (h : ∀ s, 0 ≤ scores s) :
    SCORECheck (scoreLine scores) = true := by
  unfold SCORECheck scoreLine
  rw [List.append_assoc]
  apply rmatch_text_mul
  exact mem_mul.mpr ⟨_, scoresText_mem h, _, delimeter_mem, rfl⟩

lemma TOTALCheck_totalLine {scores : Seat → ℤ} (h : ∀ s, 0 ≤ scores s) :
    TOTALCheck (totalLine scores) = true := by
  unfold TOTALCheck totalLine
  rw [List.append_assoc]
  apply rmatch_text_mul
  exact mem_mul.mpr ⟨_, scoresText_mem h, _, delimeter_mem, rfl⟩

/-! ### The number of a trick before its cards -/

lemma toText_injective : Function.Injective toText := fun n m h => by
  rw [← Nat.ofDigitChars_ten_toDigits (n := n), ← Nat.ofDigitChars_ten_toDigits (n := m)]
  exact congrArg (Nat.ofDigitChars 10 · 0) h

lemma length_toText {n : ℕ} : (n < 10 → (toText n).length = 1) ∧
    (10 ≤ n → n ≤ 13 → (toText n).length = 2) := by
  constructor
  · intro h
    unfold toText
    rw [Nat.toDigits_of_lt_base h]
    rfl
  · intro h h'
    interval_cases n <;> rfl

/-- The number read off the front of a text of a number and cards: all the digits, less the figure
of the card when a suit follows them. -/
def numberBefore (s : Text) : Text :=
  let digits := s.takeWhile Char.isDigit
  match s.dropWhile Char.isDigit with
  | [] => digits
  | c :: _ =>
    if isSuit c then (if digits.getLast? = some '0' then digits.dropLast.dropLast else digits.dropLast)
    else digits

lemma takeWhile_digits {n : ℕ} (l : Text) :
    (toText n ++ l).takeWhile Char.isDigit = toText n ++ l.takeWhile Char.isDigit ∧
      (toText n ++ l).dropWhile Char.isDigit = l.dropWhile Char.isDigit :=
  ⟨List.takeWhile_append_of_pos fun _ h => toText_isDigit h,
    List.dropWhile_append_of_pos fun _ h => toText_isDigit h⟩

lemma isSuit_not_isDigit {c : Char} (h : isSuit c = true) : c.isDigit = false := by
  simp only [isSuit, decide_eq_true_eq, List.mem_cons, List.not_mem_nil, or_false] at h
  rcases h with rfl | rfl | rfl | rfl <;> rfl

lemma figure_cases {c : Char} (h : isFigure1 c = true) :
    c.isDigit = true ∧ c ≠ '0' ∨ c.isDigit = false ∧ isSuit c = false := by
  simp only [isFigure1, decide_eq_true_eq, List.mem_cons, List.not_mem_nil, or_false] at h
  rcases h with rfl | rfl | rfl | rfl | rfl | rfl | rfl | rfl | rfl | rfl | rfl | rfl <;> decide

/-- **The number of a trick can be told from the card behind it.** -/
lemma numberBefore_eq {n : ℕ} {card : Text} (h : IsCard card) (rest : Text) :
    numberBefore (toText n ++ (card ++ rest)) = toText n := by
  unfold numberBefore
  obtain ⟨htake, hdrop⟩ := takeWhile_digits (n := n) (card ++ rest)
  rw [htake, hdrop]
  rcases isCard_iff.mp h with ⟨a, b, rfl, ha, hb⟩ | ⟨b, rfl, hb⟩
  · have hb' := isSuit_not_isDigit hb
    rcases figure_cases ha with ⟨hd, h0⟩ | ⟨hd, hs⟩
    · simp [hd, hb', hb, h0]
    · simp [hd, hs]
  · have hb' := isSuit_not_isDigit hb
    have h1 : Char.isDigit '1' = true := rfl
    have h0 : Char.isDigit '0' = true := rfl
    simp [h1, h0, hb', hb]

lemma numberBefore_cards {n : ℕ} {cards : List Text} (h : ∀ card ∈ cards, IsCard card) (tail : Text) :
    numberBefore (toText n ++ (cards.flatten ++ ('\r' :: tail))) = toText n := by
  cases cards with
  | nil =>
    obtain ⟨htake, hdrop⟩ := takeWhile_digits (n := n) ('\r' :: tail)
    have hr : Char.isDigit '\r' = false := rfl
    have hs : isSuit '\r' = false := rfl
    unfold numberBefore
    simp [htake, hdrop, hr, hs]
  | cons card cards =>
    rw [List.flatten_cons, List.append_assoc]
    exact numberBefore_eq (h card (by simp)) _

/-- **A `TRICK` line passes the check of its own trick only.** -/
lemma TRICKCheck_unique {n m : ℕ} {cards : List Text} (h : ∀ card ∈ cards, IsCard card)
    (hc : TRICKCheck (trickLine m cards) n = true) : m = n := by
  unfold TRICKCheck at hc
  rw [rmatch_iff_matches', mem_text_mul] at hc
  obtain ⟨_, hz, he⟩ := hc
  obtain ⟨_, hy, w, hw, rfl⟩ := mem_mul.mp hz
  obtain ⟨L, -, hL, rfl⟩ := (mem_upTo 3).mp hy
  obtain rfl := (mem_text _).mp hw
  have he' : toText m ++ (cards.flatten ++ delimeter) = toText n ++ (L.flatten ++ delimeter) := by
    simpa [trickLine, List.append_assoc] using he.symm
  apply toText_injective
  calc toText m = numberBefore (toText m ++ (cards.flatten ++ delimeter)) :=
        (numberBefore_cards h _).symm
    _ = numberBefore (toText n ++ (L.flatten ++ delimeter)) := by rw [he']
    _ = toText n := numberBefore_cards (fun y hy => (rmatch_iff_matches' _ _).mpr (hL y hy)) _

/-- **A `TAKEN` line passes the check of its own trick only.** -/
lemma TAKENCheck_unique {n m : ℕ} {cards : List Text} {taker : Seat}
    (h : ∀ card ∈ cards, IsCard card) (h4 : cards.length = 4)
    (hc : TAKENCheck (takenLine m cards taker) n = true) : m = n := by
  unfold TAKENCheck at hc
  rw [rmatch_iff_matches', mem_text_mul] at hc
  obtain ⟨_, hz, he⟩ := hc
  obtain ⟨_, hy, w, -, rfl⟩ := mem_mul.mp hz
  obtain ⟨L, hL, hcards, rfl⟩ := (mem_times 4).mp hy
  obtain ⟨card, cards, rfl⟩ := List.exists_cons_of_length_eq_add_one h4
  obtain ⟨card', L, rfl⟩ := List.exists_cons_of_length_eq_add_one hL
  have hcard' : IsCard card' := (rmatch_iff_matches' _ _).mpr (hcards card' (by simp))
  have he' : toText m ++ (card ++ (cards.flatten ++ (taker.name ++ delimeter))) =
      toText n ++ (card' ++ (L.flatten ++ w)) := by
    simpa [takenLine, List.append_assoc] using he.symm
  apply toText_injective
  rw [← numberBefore_eq (h card (by simp)) (cards.flatten ++ (taker.name ++ delimeter)), he',
    numberBefore_eq hcard']

/-! ### Cutting a line -/

lemma substr_middle (u m w : Text) {pos n : ℕ} (hpos : pos = u.length) (hn : n = m.length) :
    substr (u ++ (m ++ w)) pos n = m := by
  subst hpos hn
  unfold substr
  rw [List.drop_left, List.take_left]

lemma stoi_toText (n : ℕ) : stoi (toText n) = some n := by
  have hdigits : (toText n).takeWhile Char.isDigit = toText n := by
    simpa using (takeWhile_digits (n := n) []).1
  have hne : toText n ≠ [] := Nat.toDigits_ne_nil
  unfold stoi
  rw [hdigits]
  split
  · rename_i h
    exact absurd h hne
  · rename_i ds _
    exact congrArg some Nat.ofDigitChars_ten_toDigits

end Kierki
