import Kierki.Klient.ServerLines
import Kierki.Serwer.LegalMoves

/-!
# The client and the server agree on the legal moves

The rule that the suit led has to be followed is written twice, in `strategy` over the hand of the
client and in `parse_message` over the hand of the server, and two lines go between them. Over
hands that hold the same cards, in any order, a card that one chooses is one that the other accepts.
-/

namespace Kierki

open Regex Senders Serwer

/-! ### The request for a card -/

section Request

variable {n : ℕ} {table : List Text} (hn : 1 ≤ n ∧ n ≤ 13) (h3 : table.length ≤ 3)
  (htable : ∀ card ∈ table, IsCard card)

include hn htable in
lemma cut_trickLine : extractCards (if n < 10
      then substr (trickLine n table) 6 ((trickLine n table).length - 8)
      else substr (trickLine n table) 7 ((trickLine n table).length - 9)) = table := by
  show extractCards (trickCut (trickLine n table) n) = table
  rw [trickCut_trickLine hn, extractCards_flatten htable]

include hn htable in
/-- **The colour the client cuts out is the suit led.** -/
lemma trickColor_trickLine {k : Klient} (hk : k.trickNumber = n) :
    k.trickColor (trickLine n table) =
      ((table.head?.bind List.getLast?).map fun c => [c]).getD [] := by
  obtain ⟨hshort, hlong⟩ := length_toText (n := n)
  have hlen : (trickLine n table).length = 7 + (toText n).length + table.flatten.length := by
    simp [trickLine, delimeter]
    omega
  unfold Klient.trickColor
  rw [hk, cut_trickLine hn htable]
  rcases table with _ | ⟨first, table⟩
  · simp
  · have := (htable first (by simp)).length_pos
    rw [if_neg]
    rw [hlen, List.flatten_cons, List.length_append]
    rcases Nat.lt_or_ge n 10 with h | h
    · have := hshort h
      omega
    · have := hlong h hn.2
      omega

end Request

/-- **The client's answer is accepted.** The `TRICK` line of the server is recognised by an AI
client whose hand holds the same cards, no matter in which order; the card it chooses is in the
hand; its answer passes the check of the server, and `parse_message` takes the card of a client
whose turn it is. -/
theorem answer_accepted {n : ℕ} {table hand : List Text} {k : Klient} (hn : 1 ≤ n ∧ n ≤ 13)
    (h3 : table.length ≤ 3) (htable : ∀ card ∈ table, IsCard card) (hne : hand ≠ [])
    (hhand : ∀ card ∈ hand, IsCard card) (hai : k.isAi = true) (hnum : k.trickNumber = n)
    (hperm : k.myCards.Perm hand) :
    (BUSYCheck (trickLine n table) = false ∧ DEALCheck (trickLine n table) = false ∧
      WRONGCheck (trickLine n table) = false ∧ TAKENCheck (trickLine n table) n = false ∧
      SCORECheck (trickLine n table) = false ∧ TOTALCheck (trickLine n table) = false) ∧
    TRICKCheck (trickLine n table) n = true ∧
    ∃ card ∈ hand, (k.strategy (k.trickColor (trickLine n table))).1 = card ∧
      (∃ k', k.receive (trickLine n table) = some (k', [trickLine n [card]])) ∧
      TRICKClientCheck (trickLine n [card]) = true ∧
      ∀ (sh : Shared) (c : ℕ) (t : Thread) (after : After), sh.cards t.seat = hand →
        sh.cardsOnTable = table → t.currentTrick = n → t.bWasDestinedToPlay = true →
        (t.parseStep sh c (trickLine n [card]) after).1.cardsOnTable = table ++ [card] ∧
        (t.parseStep sh c (trickLine n [card]) after).1.cards t.seat = hand.erase card ∧
        (t.parseStep sh c (trickLine n [card]) after).2.pc = .writeCardPlay after := by
  have hword : LineKind.trick.word <+: trickLine n table := by
    simp [trickLine, LineKind.word]
  have hearlier : ∀ kind, kind ≠ LineKind.trick → kind.check n (trickLine n table) = false :=
    fun kind hne => LineKind.check_of_word hword hne
  have hcheck := TRICKCheck_trickLine htable h3 n
  have hcolor := trickColor_trickLine hn htable hnum
  have hnonempty : k.myCards ≠ [] := fun h => hne (by simpa [h] using hperm)
  obtain ⟨hmem, hsuit⟩ := Klient.strategy_spec hnonempty (k.trickColor (trickLine n table))
  obtain ⟨hcard, hnum'⟩ := Klient.strategy_expectedColor (k := k)
    (k.trickColor (trickLine n table)) (k.trickColor (trickLine n table))
  generalize hc : (k.strategy (k.trickColor (trickLine n table))).1 = card at *
  have hmem' : card ∈ hand := hperm.mem_iff.mp hmem
  have hclient := TRICKClientCheck_trickLine hn (hhand card hmem')
  refine ⟨⟨hearlier .busy (by decide), hearlier .deal (by decide), hearlier .wrong (by decide),
    hearlier .taken (by decide), hearlier .score (by decide), hearlier .total (by decide)⟩, hcheck,
    card, hmem', rfl, ?_, hclient, ?_⟩
  · refine ⟨(k.answer (trickLine n table)).1, ?_⟩
    rw [Klient.receive_of_check (show LineKind.trick.check k.trickNumber _ = true by rwa [hnum])]
    show some (k.answer _) = _
    congr 1
    refine Prod.ext rfl ?_
    unfold Klient.answer
    dsimp only
    rw [if_pos hai]
    dsimp only
    rw [hcard, hnum', hnum]
  · intro sh c t after hh ht hnum hd
    have haccept : acceptedCard (sh.cards t.seat) sh.cardsOnTable t.currentTrick
        (trickLine n [card]) = some card := by
      rw [hh, ht, hnum]
      apply acceptedCard_answer hn hmem' _ htable
      intro first rest c htab hfirst
      rcases hsuit c (by rw [hcolor, htab]; simp [hfirst]) with hs | hs
      · exact .inl hs
      · exact .inr fun x hx => hs x (hperm.mem_iff.mpr hx)
    unfold Thread.parseStep
    rw [if_pos hclient, if_pos hd, haccept]
    simp [hh, ht]

/-- The hand holds one card of the suit led, and the client's list has it last. -/
theorem answer_accepted_hearts : ∃ k k' : Klient, k.myCards = [['3', 'C'], ['1', '0', 'S'], ['2', 'H']] ∧
    k.receive (trickLine 10 [['A', 'H']]) = some (k', [trickLine 10 [['2', 'H']]]) ∧
    TRICKClientCheck (trickLine 10 [['2', 'H']]) = true := by
  have h := @answer_accepted 10 [['A', 'H']] [['2', 'H'], ['3', 'C'], ['1', '0', 'S']]
    { seat := .N, isAi := true, trickNumber := 10,
      myCards := [['3', 'C'], ['1', '0', 'S'], ['2', 'H']] }
    (by decide) (by decide) (by decide) (by decide) (by decide) rfl rfl (by decide)
  obtain ⟨-, -, card, -, hcard, ⟨k', hk'⟩, hcheck, -⟩ := h
  obtain rfl : ['2', 'H'] = card := hcard
  exact ⟨_, k', rfl, hk', hcheck⟩

end Kierki
