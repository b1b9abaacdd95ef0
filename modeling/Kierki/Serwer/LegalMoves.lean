import Kierki.Lines
import Kierki.Serwer.SeatThread

/-!
# The moves that `parse_message` accepts

`parse_message` reads a line at offsets that depend on the current trick, after a check that does not
know the trick. A line that is accepted is nevertheless the one line of its card and its trick: what
is read as the number and what is cut out as the card are the whole of the line between the word and
the delimiter. So the moves accepted are the legal ones, and every other line leaves the table, the
hands and the turn as they were.
-/

namespace Kierki.Serwer

open RegularExpression Lib.RegExp Regex Senders

/-! ### The line of a card -/

section Answer

variable {n : ℕ} {card : Text} (hn : 1 ≤ n ∧ n ≤ 13) (h : IsCard card)

lemma trickLine_card (n : ℕ) (card : Text) : trickLine n [card] =
    ['T', 'R', 'I', 'C', 'K'] ++ (toText n ++ (card ++ delimeter)) := by
  simp [trickLine]

include hn in
lemma cut_answer : extractedTrick (trickLine n [card]) n = some n ∧
    cutMessage (trickLine n [card]) n = card := by
  obtain ⟨hshort, hlong⟩ := length_toText (n := n)
  have hd : delimeter.length = 2 := rfl
  have hline : trickLine n [card] =
      (['T', 'R', 'I', 'C', 'K'] ++ toText n) ++ (card ++ delimeter) := by
    rw [trickLine_card, List.append_assoc]
  unfold extractedTrick cutMessage
  rcases Nat.lt_or_ge n 10 with h10 | h10
  · have hl := hshort h10
    rw [if_pos h10, if_pos h10]
    constructor
    · rw [trickLine_card, substr_middle ['T', 'R', 'I', 'C', 'K'] _ _ (show 5 = _ from rfl) hl.symm,
        stoi_toText]
    · rw [hline, substr_middle _ card _ (by simp [hl]) (by simp [hl, hd]; omega)]
  · have hl := hlong h10 hn.2
    rw [if_neg (by omega), if_neg (by omega)]
    constructor
    · rw [trickLine_card, substr_middle ['T', 'R', 'I', 'C', 'K'] _ _ (show 5 = _ from rfl) hl.symm,
        stoi_toText]
    · rw [hline, substr_middle _ card _ (by simp [hl]) (by simp [hl, hd]; omega)]

include hn in
/-- **A card of the hand that follows suit is accepted.** -/
lemma acceptedCard_answer {hand table : List Text} (hmem : card ∈ hand)
    (hsuit : ∀ first rest c, table = first :: rest → first.getLast? = some c →
      card.getLast? = some c ∨ ∀ x ∈ hand, x.getLast? ≠ some c)
    (htable : ∀ x ∈ table, IsCard x) :
    acceptedCard hand table n (trickLine n [card]) = some card := by
  obtain ⟨hnum, hcut⟩ : extractedTrick (trickLine n [card]) n = some n ∧ _ := cut_answer hn
  unfold acceptedCard
  rw [hcut, hnum]
  apply if_pos
  refine ⟨hmem, ?_⟩
  unfold playedRightColor
  cases table with
  | nil => simp
  | cons first rest =>
    obtain ⟨c, hc, -⟩ := (htable first (by simp)).suit
    dsimp only
    rw [hc]
    rcases hsuit first rest c rfl hc with hs | hs
    · simp [hs]
    · simp only [beq_self_eq_true, if_true, Bool.or_eq_true, List.all_eq_true, bne_iff_ne]
      exact .inr hs

end Answer

lemma toText_of_stoi {n : ℕ} (hn : 1 ≤ n ∧ n ≤ 13) {s : Text} (h : stoi s = some n)
    (hlen : s.length = if n < 10 then 1 else 2) : s = toText n := by
  unfold stoi at h
  rcases Nat.lt_or_ge n 10 with h10 | h10
  · rw [if_pos h10] at hlen
    obtain ⟨x, rfl⟩ := List.length_eq_one_iff.mp hlen
    by_cases hx : x.isDigit = true
    · have hmem := mem_digits hx
      simp only [List.mem_cons, List.not_mem_nil, or_false] at hmem
      rcases hmem with rfl | rfl | rfl | rfl | rfl | rfl | rfl | rfl | rfl | rfl <;>
        (obtain rfl := Option.some.inj h; rfl)
    · simp [hx] at h
  · rw [if_neg (by omega)] at hlen
    obtain ⟨x, y, rfl⟩ := List.length_eq_two.mp hlen
    by_cases hx : x.isDigit = true
    · obtain ⟨hx48, hx57⟩ := isDigit_bounds hx
      have hx' : x = Char.ofNat x.toNat := (Char.ofNat_toNat x).symm
      by_cases hy : y.isDigit = true
      · obtain ⟨hy48, hy57⟩ := isDigit_bounds hy
        have hy' : y = Char.ofNat y.toNat := (Char.ofNat_toNat y).symm
        have hval : 10 * (x.toNat - 48) + (y.toNat - 48) = n := by
          simpa [hx, hy, digitsVal] using h
        rw [hx', hy']
        rw [show x.toNat = 49 by omega, show y.toNat = 38 + n by omega]
        obtain ⟨-, h13⟩ := hn
        interval_cases n <;> rfl
      · -- one digit is no number from ten on
        have hval : x.toNat - 48 = n := by simpa [hx, hy, digitsVal] using h
        omega
    · simp [hx] at h

/-- **What is accepted is the line of the card.** A line that passes the check, whose number is read
as that of the trick, stands for the card that is cut out of it. -/
lemma trickLine_of_cut {n : ℕ} (hn : 1 ≤ n ∧ n ≤ 13) {m : Text} (hc : TRICKClientCheck m = true)
    (hnum : extractedTrick m n = some n) : m = trickLine n [cutMessage m n] := by
  unfold TRICKClientCheck at hc
  rw [rmatch_iff_matches', mem_text_mul] at hc
  obtain ⟨_, hz, rfl⟩ := hc
  obtain ⟨nr, hnr, _, hy, rfl⟩ := mem_mul.mp hz
  obtain ⟨card, hcard, d, hd, rfl⟩ := mem_mul.mp hy
  obtain rfl := (mem_text _).mp hd
  -- the number and the card together are cut at another place
  have hlen : 3 ≤ (nr ++ card).length := by
    have := (IsCard.length_pos ((rmatch_iff_matches' _ _).mpr hcard)).1
    obtain ⟨_, _, rfl, -⟩ := trickNr_cons hnr
    rw [List.length_append, List.length_cons]
    omega
  rw [← List.append_assoc nr] at hnum ⊢
  generalize nr ++ card = body at *
  have hcut : ∀ k ≤ body.length,
      substr (['T', 'R', 'I', 'C', 'K'] ++ (body ++ delimeter)) 5 k = body.take k ∧
      substr (['T', 'R', 'I', 'C', 'K'] ++ (body ++ delimeter)) (5 + k)
        ((['T', 'R', 'I', 'C', 'K'] ++ (body ++ delimeter)).length - (7 + k)) = body.drop k := by
    intro k hk
    have hsplit : body ++ delimeter = body.take k ++ (body.drop k ++ delimeter) := by
      rw [← List.append_assoc, List.take_append_drop]
    constructor
    · rw [hsplit]
      exact substr_middle _ _ _ rfl (by simpa using hk)
    · have hlen : (['T', 'R', 'I', 'C', 'K'] ++ (body ++ delimeter)).length = body.length + 7 := by
        simp [delimeter]
      rw [hlen, hsplit, ← List.append_assoc]
      apply substr_middle
      · rw [List.length_append, List.length_take, Nat.min_eq_left hk]
        rfl
      · rw [List.length_drop]
        omega
  have hline : ∀ k, toText n = body.take k → ['T', 'R', 'I', 'C', 'K'] ++ (body ++ delimeter) =
      trickLine n [body.drop k] := by
    intro k hk
    rw [trickLine_card, hk, ← List.append_assoc (body.take k), List.take_append_drop]
  unfold extractedTrick at hnum
  unfold cutMessage
  rcases Nat.lt_or_ge n 10 with h10 | h10
  · obtain ⟨hhead, hrest⟩ := hcut 1 (by omega)
    rw [if_pos h10, hhead] at hnum
    rw [if_pos h10, hrest]
    apply hline
    exact (toText_of_stoi hn hnum (by rw [if_pos h10, List.length_take]; omega)).symm
  · obtain ⟨hhead, hrest⟩ := hcut 2 (by omega)
    rw [if_neg (by omega), hhead] at hnum
    rw [if_neg (by omega), hrest]
    apply hline
    exact (toText_of_stoi hn hnum (by rw [if_neg (by omega), List.length_take]; omega)).symm

/-! ### The legal moves -/

/-- The suit of the first card on the table is followed, where the hand can. -/
def FollowsSuit (hand table : List Text) (card : Text) : Prop :=
  table = [] ∨ ∃ first rest, table = first :: rest ∧
    (card.getLast? = first.getLast? ∨ ∀ x ∈ hand, x.getLast? ≠ first.getLast?)

/-- The line `m` lays a card of the hand in trick `n`, by the rules. -/
structure Legal (hand table : List Text) (n : ℕ) (m card : Text) : Prop where
  mem : card ∈ hand
  line : m = trickLine n [card]
  suit : FollowsSuit hand table card

section Legal

variable {hand table : List Text} {n : ℕ} {m card : Text} (hn : 1 ≤ n ∧ n ≤ 13)
include hn

/-- **`parse_message` accepts the legal moves**, and no others. -/
theorem acceptedCard_iff (hhand : ∀ x ∈ hand, IsCard x) (htable : ∀ x ∈ table, IsCard x) :
    TRICKClientCheck m = true ∧ acceptedCard hand table n m = some card ↔
      Legal hand table n m card := by
  constructor
  · rintro ⟨hc, haccept⟩
    unfold acceptedCard at haccept
    dsimp only at haccept
    split at haccept
    · rename_i hplay
      obtain ⟨hmem, hcolor⟩ := hplay
      obtain rfl := Option.some.inj haccept
      unfold playedRightColor at hcolor
      cases table with
      | nil =>
        have hnum : extractedTrick m n = some n := by simpa using hcolor
        exact ⟨hmem, trickLine_of_cut hn hc hnum, .inl rfl⟩
      | cons first rest =>
        dsimp only at hcolor
        split at hcolor
        · rename_i hnum
          have hnum' : extractedTrick m n = some n := by simpa using hnum
          refine ⟨hmem, trickLine_of_cut hn hc hnum', .inr ⟨first, rest, rfl, ?_⟩⟩
          simp only [Bool.or_eq_true, beq_iff_eq, List.all_eq_true, bne_iff_ne] at hcolor
          exact hcolor.imp Eq.symm id
        · cases hcolor
    · cases haccept
  · rintro ⟨hmem, rfl, hsuit⟩
    refine ⟨TRICKClientCheck_trickLine hn (hhand card hmem), acceptedCard_answer hn hmem ?_ htable⟩
    intro first rest c htab hfirst
    rcases hsuit with rfl | ⟨first', rest', htab', hs⟩
    · cases htab
    · rw [htab] at htab'
      cases htab'
      rwa [hfirst] at hs

lemma Legal.unique {card' : Text} (h : Legal hand table n m card) (h' : Legal hand table n m card') :
    card = card' := by
  have hcut : cutMessage (trickLine n [card]) n = card := (cut_answer hn).2
  rw [← h.line, h'.line] at hcut
  exact hcut.symm.trans (cut_answer hn).2

end Legal

/-! ### `parse_message` as a whole -/

namespace Thread

/-- `parse_message` when its writes go through: the decision, and the write that comes after it unless
the connection is closed. -/
def parseMessage (sh : Shared) (c : ℕ) (t : Thread) (message : Text) (k : After) : Shared × Thread :=
  let r := parseStep sh c t message k
  match r.2.pc with
  | .closeLock _ => r
  | _ => (threadStep r.1 c r.2 .tick).getD r

variable {sh : Shared} {c : ℕ} {t : Thread} {m : Text} {k : After}

/-- It is the one or the two steps that the thread takes. -/
lemma parseMessage_steps (hpc : t.pc = .parse m k) :
    ∃ r, threadStep sh c t .tick = some r ∧
      (r = parseMessage sh c t m k ∧ r.2.pc = .closeLock false ∨
        threadStep r.1 c r.2 .tick = some (parseMessage sh c t m k)) := by
  refine ⟨parseStep sh c t m k, by simp [threadStep, hpc], ?_⟩
  unfold parseMessage parseStep
  by_cases hc : TRICKClientCheck m = true
  · right
    rw [if_pos hc]
    by_cases hd : t.bWasDestinedToPlay = true
    · rw [if_pos hd]
      cases acceptedCard (sh.cards t.seat) sh.cardsOnTable t.currentTrick m <;> rfl
    · rw [if_neg hd]
      rfl
  · left
    rw [if_neg hc]
    exact ⟨rfl, rfl⟩

lemma parseMessage_invalid (hc : TRICKClientCheck m = false) :
    parseMessage sh c t m k = (sh, t.goto (.closeLock false)) := by
  unfold parseMessage parseStep
  rw [if_neg (by simp [hc])]
  rfl

lemma parseMessage_accepted {card : Text} (hc : TRICKClientCheck m = true)
    (hd : t.bWasDestinedToPlay = true)
    (ha : acceptedCard (sh.cards t.seat) sh.cardsOnTable t.currentTrick m = some card) :
    parseMessage sh c t m k =
      ((Shared.note
        { sh with
          cards := Function.update sh.cards t.seat ((sh.cards t.seat).erase card)
          cardsOnTable := sh.cardsOnTable ++ [card]
          playerTurn := none }
        (.accepted c t.seat card)).report t.seat .cardPlay,
      { t with
        timeoutCopy := sh.timeout
        bWasDestinedToPlay := false
        pc := k.pc }) := by
  unfold parseMessage parseStep
  rw [if_pos hc, if_pos hd, ha]
  rfl

lemma parseMessage_wrong (hc : TRICKClientCheck m = true) (ha : t.bWasDestinedToPlay = true →
      acceptedCard (sh.cards t.seat) sh.cardsOnTable t.currentTrick m = none) :
    ∃ timeoutCopy, parseMessage sh c t m k =
      (sh, { t with
        timeoutCopy := timeoutCopy
        outbox := wrongLine t.currentTrick :: t.outbox
        pc := k.pc }) := by
  unfold parseMessage parseStep
  rw [if_pos hc]
  by_cases hd : t.bWasDestinedToPlay = true
  · rw [if_pos hd, ha hd]
    exact ⟨sh.timeout, rfl⟩
  · rw [if_neg hd]
    exact ⟨t.timeoutCopy, rfl⟩

end Thread

open Thread in
/-- **`parse_message` accepts exactly the legal moves, and otherwise changes nothing.** With hands and
table of valid cards, a trick between 1 and 13 and writes that go through: the hands and the table
change exactly when the client is asked and the line is a legal move. Then the card leaves the hand
once, lies on the table, nobody has the turn, one `CARD_PLAY` byte is written and the client is not
asked any more. In all other cases these are as they were, and the connection is closed when the line
fails its check and gets one `WRONG` line otherwise. -/
theorem parse_message_exact (sh : Shared) (c : ℕ) (t : Thread) (m : Text) (k : After)
    (hhand : ∀ x ∈ sh.cards t.seat, x ∈ deck) (htable : ∀ x ∈ sh.cardsOnTable, x ∈ deck)
    (hn : 1 ≤ t.currentTrick ∧ t.currentTrick ≤ 13) :
    let r := parseMessage sh c t m k
    let moves := t.bWasDestinedToPlay = true ∧
      ∃ card, Legal (sh.cards t.seat) sh.cardsOnTable t.currentTrick m card
    (r.1.cards ≠ sh.cards ↔ moves) ∧ (r.1.cardsOnTable ≠ sh.cardsOnTable ↔ moves) ∧
    (∀ card, t.bWasDestinedToPlay = true →
      Legal (sh.cards t.seat) sh.cardsOnTable t.currentTrick m card →
      r.1.cards = Function.update sh.cards t.seat ((sh.cards t.seat).erase card) ∧
      r.1.cardsOnTable = sh.cardsOnTable ++ [card] ∧ r.1.playerTurn = none ∧
      r.1.serverReadPipes = Function.update sh.serverReadPipes t.seat
        (sh.serverReadPipes t.seat ++ [.cardPlay]) ∧
      r.2.bWasDestinedToPlay = false ∧ r.2.pc = k.pc ∧ r.2.outbox = t.outbox) ∧
    (¬moves → r.1.cards = sh.cards ∧ r.1.cardsOnTable = sh.cardsOnTable ∧
      r.1.playerTurn = sh.playerTurn ∧ r.1.serverReadPipes = sh.serverReadPipes ∧
      r.2.bWasDestinedToPlay = t.bWasDestinedToPlay ∧
      (TRICKClientCheck m = false → r.2.outbox = t.outbox) ∧
      (TRICKClientCheck m = true →
        r.2.pc = k.pc ∧ r.2.outbox = wrongLine t.currentTrick :: t.outbox)) ∧
    (r.2.pc = .closeLock false ↔ TRICKClientCheck m = false) := by
  intro r moves
  have hiff : ∀ card, TRICKClientCheck m = true ∧
      acceptedCard (sh.cards t.seat) sh.cardsOnTable t.currentTrick m = some card ↔
        Legal (sh.cards t.seat) sh.cardsOnTable t.currentTrick m card := fun card =>
    acceptedCard_iff hn (isCard_of_deck hhand) (isCard_of_deck htable)
  have hopen : k.pc ≠ .closeLock false := by cases k <;> exact nofun
  by_cases hmoves : moves
  · obtain ⟨hd, card, hlegal⟩ := hmoves
    obtain ⟨hc, ha⟩ := (hiff card).mpr hlegal
    have hr : r = _ := parseMessage_accepted hc hd ha
    have hmoves : moves := ⟨hd, card, hlegal⟩
    have hhands : r.1.cards = Function.update sh.cards t.seat ((sh.cards t.seat).erase card) := by
      rw [hr]
      rfl
    have hlaid : r.1.cardsOnTable = sh.cardsOnTable ++ [card] := by
      rw [hr]
      rfl
    refine ⟨iff_of_true ?_ hmoves, iff_of_true ?_ hmoves, ?_, absurd hmoves, ?_⟩
    · rw [hhands]
      intro heq
      have hlen := congrArg List.length (congrFun heq t.seat)
      rw [Function.update_self, List.length_erase_of_mem hlegal.mem] at hlen
      have := List.length_pos_of_mem hlegal.mem
      omega
    · rw [hlaid]
      simp
    · intro card' _ hlegal'
      obtain rfl := hlegal.unique hn hlegal'
      exact ⟨hhands, hlaid, by rw [hr]; rfl, by rw [hr]; rfl, by rw [hr], by rw [hr], by rw [hr]⟩
    · rw [hr, hc]
      simpa using hopen
  · have hnone : ∀ card, ¬(t.bWasDestinedToPlay = true ∧
        Legal (sh.cards t.seat) sh.cardsOnTable t.currentTrick m card) :=
      fun card h => hmoves ⟨h.1, card, h.2⟩
    cases hc : TRICKClientCheck m with
    | false =>
      have hr : r = _ := parseMessage_invalid hc
      refine ⟨iff_of_false ?_ hmoves, iff_of_false ?_ hmoves, ?_, ?_, ?_⟩
      · simp [hr]
      · simp [hr]
      · intro card hd hlegal
        exact absurd ⟨hd, hlegal⟩ (hnone card)
      · intro _
        simp [hr]
      · simp [hr]
    | true =>
      have ha : t.bWasDestinedToPlay = true →
          acceptedCard (sh.cards t.seat) sh.cardsOnTable t.currentTrick m = none := by
        intro hd
        rw [Option.eq_none_iff_forall_ne_some]
        intro card ha
        exact hnone card ⟨hd, (hiff card).mp ⟨hc, ha⟩⟩
      obtain ⟨timeoutCopy, hr'⟩ := parseMessage_wrong (c := c) (k := k) hc ha
      have hr : r = _ := hr'
      refine ⟨iff_of_false ?_ hmoves, iff_of_false ?_ hmoves, ?_, ?_, ?_⟩
      · simp [hr]
      · simp [hr]
      · intro card hd hlegal
        exact absurd ⟨hd, hlegal⟩ (hnone card)
      · intro _
        simp [hr]
      · simpa [hr] using hopen

/-- The table asks for hearts: the two of hearts is accepted in the tenth trick, but not the line of the
first trick, which runs into the number `12`. -/
theorem parse_message_exact_tenth :
    let sh : Shared :=
      { timeout := 0, cards := fun _ => [['3', 'S'], ['2', 'H']], cardsOnTable := [['A', 'H']] }
    let t : Thread := { currentTrick := 10, bWasDestinedToPlay := true }
    (Thread.parseMessage sh 0 t (trickLine 10 [['2', 'H']]) .drain).1.cardsOnTable =
      [['A', 'H'], ['2', 'H']] ∧
    (Thread.parseMessage sh 0 t (trickLine 1 [['2', 'H']]) .drain).1.cardsOnTable = [['A', 'H']] := by
  intro sh t
  have hhand : ∀ x ∈ sh.cards t.seat, x ∈ deck := by decide
  have htable : ∀ x ∈ sh.cardsOnTable, x ∈ deck := by decide
  have hlegal : Legal (sh.cards t.seat) sh.cardsOnTable t.currentTrick (trickLine 10 [['2', 'H']])
      ['2', 'H'] :=
    ⟨by decide, rfl, .inr ⟨['A', 'H'], [], rfl, .inl rfl⟩⟩
  obtain ⟨-, -, hplayed, -⟩ :=
    parse_message_exact sh 0 t (trickLine 10 [['2', 'H']]) .drain hhand htable (by decide)
  obtain ⟨-, -, -, hkept, -⟩ :=
    parse_message_exact sh 0 t (trickLine 1 [['2', 'H']]) .drain hhand htable (by decide)
  refine ⟨(hplayed _ rfl hlegal).2.1, (hkept ?_).2.1⟩
  rintro ⟨-, card, hlegal'⟩
  have hline : trickLine 1 [['2', 'H']] = trickLine 10 [card] := hlegal'.line
  have h1 : toText 1 = ['1'] := rfl
  have h10 : toText 10 = ['1', '0'] := by decide
  rw [trickLine_card, trickLine_card, h1, h10] at hline
  simp at hline

end Kierki.Serwer
