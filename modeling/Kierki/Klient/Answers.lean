import Kierki.Klient.Replay

/-!
# What an AI client answers

Every request for a card takes one out of the hand of an AI client, and only a `TAKEN` line gives back
those that were not accepted. A client whose hand is empty answers with an empty card, which is not
a line the server accepts. So the answers are valid as long as each request finds a card: in a deal
that is played as the rules say, when trick `n` is asked for at most `14 - n` times.
-/

namespace Kierki

open RegularExpression Lib.RegExp Regex Senders

lemma TRICKClientCheck_empty (n : ℕ) : TRICKClientCheck (trickLine n [[]]) = false := by
  rw [Bool.eq_false_iff]
  intro h
  unfold TRICKClientCheck at h
  rw [rmatch_iff_matches', mem_text_mul] at h
  obtain ⟨_, hz, he⟩ := h
  obtain ⟨nr, -, _, hy, rfl⟩ := mem_mul.mp hz
  obtain ⟨card, hcard, d, hd, rfl⟩ := mem_mul.mp hy
  obtain rfl := (mem_text _).mp hd
  have hnum : nr ++ card = toText n := by
    have hline : (nr ++ card) ++ delimeter = toText n ++ delimeter := by
      simpa [trickLine, List.append_assoc] using he
    exact List.append_cancel_right hline
  -- the suit would be a digit of the number
  obtain ⟨suit, hlast, hsuit⟩ := IsCard.suit ((rmatch_iff_matches' _ _).mpr hcard)
  have hmem : suit ∈ toText n := by
    rw [← hnum]
    exact List.mem_append_right _ (List.mem_of_getLast? hlast)
  have hdigit := toText_isDigit hmem
  rw [isSuit_not_isDigit hsuit] at hdigit
  cases hdigit

namespace Klient

/-- **Each request finds a card**: whenever a `TRICK` line is accepted, the hand is not empty. -/
def HandLeft : Klient → List Text → Prop
  | _, [] => True
  | k, message :: messages =>
    (TRICKCheck message k.trickNumber = true → k.myCards ≠ []) ∧
      ∀ k' out, k.receive message = some (k', out) → HandLeft k' messages

lemma handLeft_of_receive {k : Klient} {message : Text} {r : Klient × List Text}
    (hr : k.receive message = some r) (messages : List Text) : k.HandLeft (message :: messages) ↔
      (TRICKCheck message k.trickNumber = true → k.myCards ≠ []) ∧ r.1.HandLeft messages := by
  simp only [HandLeft, hr, Option.some.injEq]
  constructor
  · rintro ⟨hc, hleft⟩
    exact ⟨hc, hleft r.1 r.2 rfl⟩
  · rintro ⟨hc, hleft⟩
    refine ⟨hc, ?_⟩
    rintro k' out rfl
    exact hleft

/-- The cards of a client come out of lines. -/
structure Cards (k : Klient) : Prop where
  myCards : ∀ card ∈ k.myCards, IsCard card
  playedCards : ∀ card ∈ k.playedCards, IsCard card

variable {k k' : Klient}

lemma Cards.keeps (h : k.Cards) (hk : k.Keeps k') : k'.Cards := by
  have hall : ∀ card ∈ k'.myCards ++ k'.playedCards, IsCard card := by
    intro card hcard
    rcases List.mem_append.mp (hk.cards.subset hcard) with hc | hc
    · exact h.myCards card hc
    · exact h.playedCards card hc
  exact ⟨fun card hc => hall card (List.mem_append_left _ hc),
    fun card hc => hall card (List.mem_append_right _ hc)⟩

lemma mem_of_mem_foldl_erase {card : Text} {cards hand : List Text}
    (h : card ∈ cards.foldl List.erase hand) : card ∈ hand := by
  rw [← List.diff_eq_foldl] at h
  exact List.diff_subset _ _ h

lemma receive_cards (h : k.Cards) {message : Text} {r : Klient × List Text}
    (hr : k.receive message = some r) : r.1.Cards := by
  obtain rfl | ⟨kind, -, hr⟩ := receive_cases hr
  · exact h
  · cases kind with
    | busy => cases hr
    | deal =>
      cases hr
      exact ⟨fun card hc => isCard_of_extractCards hc, h.playedCards⟩
    | taken =>
      cases hr
      refine ⟨fun card hc => ?_, fun card hc => by cases hc⟩
      rcases List.mem_append.mp (mem_of_mem_foldl_erase hc) with hc | hc
      · exact h.myCards card hc
      · exact h.playedCards card hc
    | trick =>
      obtain rfl : k.answer message = r := Option.some.inj hr
      exact h.keeps (answer_keeps message)
    | _ =>
      cases hr
      exact ⟨h.myCards, h.playedCards⟩

/-- **The answer to a request is valid exactly when the hand holds a card.** -/
lemma answer_valid (hai : k.isAi = true) (hcards : k.Cards) (hn : 1 ≤ k.trickNumber ∧ k.trickNumber ≤ 13)
    (message : Text) :
    (∀ line ∈ (k.answer message).2, TRICKClientCheck line = true) ↔ k.myCards ≠ [] := by
  have hout : (k.answer message).2 =
      [trickLine k.trickNumber [(k.strategy (k.trickColor message)).1]] := by
    obtain ⟨hcard, hnum⟩ := strategy_expectedColor (k := k) (k.trickColor message) (k.trickColor message)
    unfold answer
    dsimp only
    rw [if_pos hai]
    dsimp only
    rw [hcard, hnum]
  rw [hout]
  simp only [List.mem_singleton, forall_eq]
  constructor
  · intro hvalid hempty
    have hnone : (k.strategy (k.trickColor message)).1 = [] := by
      unfold strategy playLast
      rw [hempty]
      cases k.trickColor message <;> rfl
    rw [hnone, TRICKClientCheck_empty] at hvalid
    cases hvalid
  · intro hne
    exact TRICKClientCheck_trickLine hn (hcards.myCards _ (strategy_spec hne _).1)

lemma receive_quiet {message : Text} {r : Klient × List Text}
    (hc : ¬TRICKCheck message k.trickNumber = true) (hr : k.receive message = some r) : r.2 = [] := by
  obtain rfl | ⟨kind, hcheck, hr⟩ := receive_cases hr
  · rfl
  · cases kind with
    | trick => exact absurd hcheck hc
    | _ =>
      cases hr
      try rfl

/-- **All the answers are valid exactly when each request finds a card.** -/
lemma answers_valid_iff (hai : k.isAi = true) (hcards : k.Cards) {messages : List Text}
    (hnum : ∀ message ∈ messages, ∀ n, TRICKCheck message n = true → 1 ≤ n ∧ n ≤ 13) :
    (∀ line ∈ k.answers messages, TRICKClientCheck line = true) ↔ k.HandLeft messages := by
  induction messages generalizing k with
  | nil => simp [answers, HandLeft]
  | cons message messages ih =>
    have hrest : ∀ m ∈ messages, ∀ n, TRICKCheck m n = true → 1 ≤ n ∧ n ≤ 13 :=
      fun m hm => hnum m (List.mem_cons_of_mem _ hm)
    by_cases hc : TRICKCheck message k.trickNumber = true
    · have hcheck : LineKind.trick.check k.trickNumber message = true := hc
      have hr : k.receive message = some (k.answer message) := receive_of_check hcheck
      rw [handLeft_of_receive hr, ← ih ((isAi_receive hr).trans hai) (receive_cards hcards hr) hrest,
        ← answer_valid hai hcards (hnum message (by simp) _ hc) message]
      simp only [answers, hr, List.forall_mem_append, hc, forall_const]
    · cases hr : k.receive message with
      | none => simp [answers, HandLeft, hr, hc]
      | some r =>
        have hquiet := receive_quiet hc hr
        rw [handLeft_of_receive hr, ← ih ((isAi_receive hr).trans hai) (receive_cards hcards hr) hrest]
        simp [answers, hr, hc, hquiet]

/-! ### The cards that are left -/

/-- How often a card is asked for in trick `n`. -/
def requests (n : ℕ) (messages : List Text) : ℕ := messages.countP fun message => TRICKCheck message n

lemma requests_cons (n : ℕ) (message : Text) (messages : List Text) :
    requests n (message :: messages) = requests n messages + if TRICKCheck message n then 1 else 0 :=
  List.countP_cons

lemma handLeft_append {ls : List Text} (h : k.receiveAll ls = some k') (ls' : List Text) :
    k.HandLeft (ls ++ ls') ↔ k.HandLeft ls ∧ k'.HandLeft ls' := by
  induction ls generalizing k with
  | nil =>
    obtain rfl := Option.some.inj h
    simp [HandLeft]
  | cons l ls ih =>
    rw [receiveAll_cons] at h
    obtain ⟨⟨k₁, out⟩, hr, hk₁⟩ := Option.bind_eq_some_iff.mp h
    rw [List.cons_append, handLeft_of_receive hr, handLeft_of_receive hr, ih hk₁, and_assoc]

lemma answer_length (hai : k.isAi = true) (hne : k.myCards ≠ []) (message : Text) :
    (k.answer message).1.myCards.length + 1 = k.myCards.length := by
  have hpos : 0 < k.myCards.length := List.length_pos_of_ne_nil hne
  have hlast : ∀ k : Klient, k.myCards ≠ [] →
      k.playLast.2.myCards.length + 1 = k.myCards.length := by
    intro k hne
    have hpos : 0 < k.myCards.length := List.length_pos_of_ne_nil hne
    unfold playLast
    rw [List.getLast?_eq_some_getLast hne]
    simp only [List.length_dropLast]
    omega
  unfold answer
  dsimp only
  rw [if_pos hai]
  show ((strategy _ _).2.myCards.length) + 1 = _
  unfold strategy
  cases k.trickColor message with
  | nil => exact hlast _ hne
  | cons c s =>
    dsimp only
    cases h : k.myCards.find? fun card => card.getLast? == some c with
    | none => exact hlast _ hne
    | some card =>
      show (k.myCards.erase card).length + 1 = _
      rw [List.length_erase_of_mem (List.mem_of_find?_eq_some h)]
      omega

/-- **Between two `TAKEN` lines the hand has to last for the requests.** -/
lemma handLeft_chatter (hai : k.isAi = true) {ls : List Text}
    (h : ∀ l ∈ ls, Chatter k.trickNumber l) :
    k.HandLeft ls ↔ requests k.trickNumber ls ≤ k.myCards.length := by
  induction ls generalizing k with
  | nil => simp [HandLeft, requests]
  | cons l ls ih =>
    have hr := receive_between (h l (by simp))
    rw [requests_cons]
    by_cases hc : TRICKCheck l k.trickNumber = true
    · rw [if_pos hc] at hr
      rw [if_pos hc]
      by_cases hne : k.myCards = []
      · simp [HandLeft, hc, hne]
      · have hkeeps := answer_keeps (k := k) l
        have hlen := answer_length hai hne l
        have hih := ih (k := (k.answer l).1) (hkeeps.isAi.trans hai) fun l' hl' => by
          rw [hkeeps.trickNumber]
          exact h l' (by simp [hl'])
        rw [hkeeps.trickNumber] at hih
        rw [handLeft_of_receive hr, hih]
        simp only [hc, hne, ne_eq, not_false_eq_true, forall_const, true_and]
        omega
    · rw [if_neg hc] at hr
      rw [if_neg hc, Nat.add_zero, ← ih hai fun l' hl' => h l' (by simp [hl']),
        handLeft_of_receive hr]
      simp [hc]

lemma handLeft_singleton {kind : LineKind} (hne : kind ≠ .trick) {message : Text}
    (hw : kind.word <+: message) : k.HandLeft [message] := by
  have hc : LineKind.trick.check k.trickNumber message = false := LineKind.check_of_word hw hne.symm
  refine ⟨fun h => ?_, fun _ _ _ => trivial⟩
  exact absurd h (by rw [show TRICKCheck message k.trickNumber = false from hc]; decide)

end Klient

/-! ### Deals by the rules -/

/-- A deal as a client hears of it: the hand it is dealt, the tricks that are taken, and the lines after
the last of them that do not ask for a card. -/
structure DealSent where
  dealType : ℕ
  starter : Seat
  hand : List Text
  rounds : List Round
  closing : List Text
  hd : 1 ≤ dealType ∧ dealType ≤ 7
  h13 : hand.length = 13
  hcards : ∀ card ∈ hand, IsCard card
  hnodup : hand.Nodup
  played : Played hand rounds
  hclosing : ∀ l ∈ closing, ∃ kind ∈ [LineKind.wrong, .score, .total], kind.word <+: l

namespace DealSent

def lines (d : DealSent) : List Text :=
  dealLine d.dealType d.starter d.hand :: linesFrom 1 d.rounds ++ d.closing

/-- A card is asked for at most `14 - n` times in trick `n`. -/
def Patient (d : DealSent) : Prop :=
  ∀ i r, d.rounds[i]? = some r → Klient.requests (i + 1) r.chatter ≤ 13 - i

end DealSent

namespace Klient

variable {k k' : Klient}

lemma receive_closing {l : Text} (h : ∃ kind ∈ [LineKind.wrong, .score, .total], kind.word <+: l) :
    ∃ score total, k.receive l = some ({ k with gotScore := score, gotTotal := total }, []) := by
  obtain ⟨kind, hkind, hw⟩ := h
  rw [receive_of_word kind hw]
  split
  · simp only [List.mem_cons, List.not_mem_nil, or_false] at hkind
    rcases hkind with rfl | rfl | rfl <;> exact ⟨_, _, rfl⟩
  · exact ⟨k.gotScore, k.gotTotal, rfl⟩

lemma receiveAll_closing {closing : List Text}
    (h : ∀ l ∈ closing, ∃ kind ∈ [LineKind.wrong, .score, .total], kind.word <+: l) :
    (∃ score total, k.receiveAll closing = some { k with gotScore := score, gotTotal := total }) ∧
      k.HandLeft closing := by
  induction closing generalizing k with
  | nil => exact ⟨⟨k.gotScore, k.gotTotal, rfl⟩, trivial⟩
  | cons l closing ih =>
    obtain ⟨score, total, hr⟩ := receive_closing (k := k) (h l (by simp))
    obtain ⟨⟨score', total', hk'⟩, hleft⟩ :=
      ih (k := { k with gotScore := score, gotTotal := total }) fun l' hl' => h l' (by simp [hl'])
    obtain ⟨kind, hkind, hw⟩ := h l (by simp)
    have hne : kind ≠ .trick := by
      rintro rfl
      revert hkind
      decide
    refine ⟨⟨score', total', ?_⟩, ?_⟩
    · rw [receiveAll_cons, hr]
      exact hk'
    · exact (handLeft_of_receive hr closing).mpr ⟨(handLeft_singleton hne hw).1, hleft⟩

/-- **In a deal the hand lasts exactly when no trick is asked for too often.** -/
lemma handLeft_rounds (hai : k.isAi = true) (hplayed : k.playedCards = []) {dealType : ℕ}
    (hd : 1 ≤ dealType ∧ dealType ≤ 7) (starter : Seat) {hand : List Text} (h13 : hand.length = 13)
    (hcards : ∀ card ∈ hand, IsCard card) (hnodup : hand.Nodup) {rounds : List Round}
    (h : Played hand rounds) :
    k.HandLeft (dealLine dealType starter hand :: linesFrom 1 rounds) ↔
      ∀ i r, rounds[i]? = some r → requests (i + 1) r.chatter ≤ 13 - i := by
  induction h with
  | start =>
    have hw : LineKind.deal.word <+: dealLine dealType starter hand := by
      simp [dealLine, LineKind.word]
    simpa [linesFrom] using handLeft_singleton (k := k) (by decide) hw
  | trick rounds r h hchatter h4 htrick hone ih =>
    obtain ⟨k₁, hk₁, hafter⟩ := receiveAll_deal hd starter hplayed h13 hcards hnodup h
    have hchatter' : ∀ l ∈ r.chatter, Chatter k₁.trickNumber l := by
      rwa [hafter.trickNumber]
    obtain ⟨k₂, hk₂, -⟩ := receiveAll_chatter hchatter'
    have hw : LineKind.taken.word <+: takenLine (1 + rounds.length) r.cards r.taker := by
      rw [takenLine_eq]
      exact List.prefix_append _ _
    have htaken : k₂.HandLeft [takenLine (1 + rounds.length) r.cards r.taker] :=
      handLeft_singleton (by decide) hw
    rw [linesFrom_append, Round.lines, ← List.cons_append, handLeft_append hk₁, ih,
      handLeft_append hk₂, handLeft_chatter (hafter.isAi.trans hai) hchatter', hafter.left,
      hafter.trickNumber]
    constructor
    · rintro ⟨hrounds, hlast, -⟩ i r' hi
      rcases Nat.lt_trichotomy i rounds.length with hlt | rfl | hgt
      · rw [List.getElem?_append_left hlt] at hi
        exact hrounds i r' hi
      · rw [List.getElem?_concat_length] at hi
        cases hi
        exact hlast
      · rw [List.getElem?_eq_none (by rw [List.length_append, List.length_singleton]; omega)] at hi
        cases hi
    · intro hall
      refine ⟨fun i r' hi => ?_, ?_, htaken⟩
      · have hlt : i < rounds.length := (List.getElem?_eq_some_iff.mp hi).1
        exact hall i r' (by rwa [List.getElem?_append_left hlt])
      · exact hall rounds.length r List.getElem?_concat_length

lemma receiveAll_dealSent (hai : k.isAi = true) (hplayed : k.playedCards = []) (d : DealSent) :
    ∃ k', k.receiveAll d.lines = some k' ∧ k'.isAi = true ∧ k'.playedCards = [] ∧
      k'.trickNumber = d.rounds.length + 1 ∧ k'.myCards.length = 13 - d.rounds.length ∧
      (k.HandLeft d.lines ↔ d.Patient) := by
  obtain ⟨k₁, hk₁, hafter⟩ :=
    receiveAll_deal d.hd d.starter hplayed d.h13 d.hcards d.hnodup d.played
  obtain ⟨⟨score, total, hk'⟩, hleft⟩ := receiveAll_closing (k := k₁) d.hclosing
  refine ⟨{ k₁ with gotScore := score, gotTotal := total }, ?_, hafter.isAi.trans hai,
    hafter.playedCards, hafter.trickNumber, hafter.left, ?_⟩
  · unfold DealSent.lines
    rw [receiveAll_append, hk₁]
    exact hk'
  · unfold DealSent.lines
    rw [handLeft_append hk₁, handLeft_rounds hai hplayed d.hd d.starter d.h13 d.hcards d.hnodup d.played]
    exact and_iff_left hleft

lemma receiveAll_dealsSent (hai : k.isAi = true) (hplayed : k.playedCards = []) (deals : List DealSent) :
    ∃ k', k.receiveAll (deals.flatMap DealSent.lines) = some k' ∧ k'.isAi = true ∧
      k'.playedCards = [] ∧
      (k.HandLeft (deals.flatMap DealSent.lines) ↔ ∀ d ∈ deals, d.Patient) := by
  induction deals generalizing k with
  | nil => exact ⟨k, rfl, hai, hplayed, by simp [HandLeft]⟩
  | cons d deals ih =>
    obtain ⟨k₁, hk₁, hai₁, hplayed₁, -, -, hleft₁⟩ := receiveAll_dealSent hai hplayed d
    obtain ⟨k₂, hk₂, hai₂, hplayed₂, hleft₂⟩ := ih hai₁ hplayed₁
    refine ⟨k₂, ?_, hai₂, hplayed₂, ?_⟩
    · rw [List.flatMap_cons, receiveAll_append, hk₁]
      exact hk₂
    · rw [List.flatMap_cons, handLeft_append hk₁, hleft₁, hleft₂, List.forall_mem_cons]

/-- **In a session of deals the hand lasts exactly when no trick is asked for too often**, the one that
is not taken yet included. -/
lemma handLeft_session (hai : k.isAi = true) (hplayed : k.playedCards = []) (deals : List DealSent)
    (last : DealSent) {asked : List Text} (hasked : ∀ l ∈ asked, Chatter (last.rounds.length + 1) l) :
    k.HandLeft ((deals ++ [last]).flatMap DealSent.lines ++ asked) ↔
      (∀ d ∈ deals ++ [last], d.Patient) ∧
        requests (last.rounds.length + 1) asked ≤ 13 - last.rounds.length := by
  obtain ⟨k₁, hk₁, hai₁, hplayed₁, hleft₁⟩ := receiveAll_dealsSent hai hplayed deals
  obtain ⟨k₂, hk₂, hai₂, -, hnum, hlen, hleft₂⟩ := receiveAll_dealSent hai₁ hplayed₁ last
  rw [← hnum] at hasked
  have hlines : (deals ++ [last]).flatMap DealSent.lines =
      deals.flatMap DealSent.lines ++ last.lines := by simp
  rw [hlines, List.append_assoc, handLeft_append hk₁, handLeft_append hk₂, hleft₁, hleft₂,
    handLeft_chatter hai₂ hasked, hnum, hlen, List.forall_mem_append]
  simp only [List.mem_singleton, forall_eq, and_assoc]

end Klient

lemma ServerLine.number_bounds {lines : List ServerLine} :
    ∀ message ∈ lines.map ServerLine.text, ∀ n, TRICKCheck message n = true → 1 ≤ n ∧ n ≤ 13 := by
  intro message hm n hc
  obtain ⟨line, -, rfl⟩ := List.mem_map.mp hm
  have hcheck : LineKind.trick.check n line.text = true := hc
  have hkind : LineKind.trick = line.kind :=
    LineKind.word_unique (LineKind.word_of_check hcheck) line.word_prefix
  cases line with
  | trick m table hn h3 hcards =>
    obtain rfl := TRICKCheck_unique (isCard_of_deck hcards) hc
    exact hn
  | _ => cases hkind

/-- **An AI client sends valid lines as long as its hand lasts.** Whatever lines the server sends to it,
all its answers pass the check of the server exactly when the hand is not empty at any accepted
request; and in a session of deals by the rules that is so exactly when a card is asked for at most
`14 - n` times in trick `n`. -/
theorem ai_answers_valid (seat : Seat) :
    (∀ lines : List ServerLine,
      (∀ line ∈ Klient.answers { seat := seat, isAi := true } (lines.map ServerLine.text),
        TRICKClientCheck line = true) ↔
      Klient.HandLeft { seat := seat, isAi := true } (lines.map ServerLine.text)) ∧
    ∀ (lines : List ServerLine) (deals : List DealSent) (last : DealSent) (asked : List Text),
      lines.map ServerLine.text = (deals ++ [last]).flatMap DealSent.lines ++ asked →
      (∀ l ∈ asked, Chatter (last.rounds.length + 1) l) →
      ((∀ line ∈ Klient.answers { seat := seat, isAi := true } (lines.map ServerLine.text),
        TRICKClientCheck line = true) ↔
      (∀ d ∈ deals ++ [last], d.Patient) ∧
        Klient.requests (last.rounds.length + 1) asked ≤ 13 - last.rounds.length) := by
  have hcards : Klient.Cards { seat := seat, isAi := true } := ⟨by simp, by simp⟩
  have hany : ∀ lines : List ServerLine,
      (∀ line ∈ Klient.answers { seat := seat, isAi := true } (lines.map ServerLine.text),
        TRICKClientCheck line = true) ↔
      Klient.HandLeft { seat := seat, isAi := true } (lines.map ServerLine.text) :=
    fun lines => Klient.answers_valid_iff rfl hcards ServerLine.number_bounds
  refine ⟨hany, ?_⟩
  intro lines deals last asked hlines hasked
  rw [hany, hlines, Klient.handLeft_session rfl rfl deals last hasked]

/-- The hand of the spades, with nothing after it. -/
def spadesDealt : DealSent where
  dealType := 1
  starter := .E
  hand := spades
  rounds := []
  closing := []
  hd := by decide
  h13 := by decide
  hcards := by decide
  hnodup := by decide
  played := .start
  hclosing := by simp

/-- The spades are dealt, and a card of the first trick is asked for again and again. -/
def askedLines (n : ℕ) : List ServerLine :=
  .deal 1 .E spades (by decide) (by decide) (by decide) ::
    List.replicate n (.trick 1 [] (by decide) (by decide) (by decide))

lemma askedLines_text (n : ℕ) : (askedLines n).map ServerLine.text =
    ([] ++ [spadesDealt]).flatMap DealSent.lines ++ List.replicate n (trickLine 1 []) := by
  simp [askedLines, DealSent.lines, spadesDealt, linesFrom, ServerLine.text]

lemma requests_asked (n : ℕ) : Klient.requests 1 (List.replicate n (trickLine 1 [])) = n := by
  have hc : TRICKCheck (trickLine 1 []) 1 = true := TRICKCheck_trickLine (by simp) (by simp) 1
  unfold Klient.requests
  rw [List.countP_replicate, if_pos hc]

lemma chatter_asked (n : ℕ) : ∀ l ∈ List.replicate n (trickLine 1 []),
    Chatter (spadesDealt.rounds.length + 1) l := by
  intro l hl
  rw [List.eq_of_mem_replicate hl]
  exact .trick ['1', '\r', '\n']

/-- Thirteen requests are answered with thirteen cards. -/
theorem ai_answers_valid_thirteen :
    ∀ line ∈ Klient.answers { seat := .E, isAi := true } ((askedLines 13).map ServerLine.text),
      TRICKClientCheck line = true := by
  refine ((ai_answers_valid .E).2 _ [] spadesDealt _ (askedLines_text 13) (chatter_asked 13)).mpr ⟨?_, ?_⟩
  · intro d hd i r hi
    obtain rfl : d = spadesDealt := by simpa using hd
    cases hi
  · exact (requests_asked 13).le

/-- The fourteenth is answered with none. -/
theorem empty_answer :
    ∃ line ∈ Klient.answers { seat := .E, isAi := true } ((askedLines 14).map ServerLine.text),
      TRICKClientCheck line = false := by
  by_contra hnone
  have hvalid : ∀ line ∈ Klient.answers { seat := .E, isAi := true }
      ((askedLines 14).map ServerLine.text), TRICKClientCheck line = true := by
    intro line hline
    by_contra hc
    exact hnone ⟨line, hline, by simpa using hc⟩
  have hleft := (Klient.answers_valid_iff rfl ⟨by simp, by simp⟩ ServerLine.number_bounds).mp hvalid
  rw [askedLines_text, Klient.handLeft_session rfl rfl [] spadesDealt (chatter_asked 14)] at hleft
  have hle : Klient.requests 1 (List.replicate 14 (trickLine 1 [])) ≤ 13 := hleft.2
  rw [requests_asked] at hle
  omega

end Kierki
