import Kierki.Lib.Getline
import Kierki.Lines
import Kierki.Serwer.MainThread

/-!
# The game file

`FileReader`, and the loop of `run_game` over its deals. `read_next_deal` tests the header of a deal for
the end of the file, and none of the four hands behind it: a deal that the end of the file cuts off is
read like a whole one, its missing hands being empty or copies of the last line of the file, by whether
that line ends in a newline.
-/

namespace Kierki

open Lib.Getline Regex

/-- The fields of `FileReader`. -/
structure FileReader where
  /-- What the file holds; `none` where it cannot be opened. -/
  file : Option Text
  /-- `file_stream`, once `b_was_stream_opened` is set. -/
  fileStream : Option (IStream Char) := none
  trickType : ℕ := 0
  seat : Text := []
  /-- The array over the seats, in the order of `Seat.all`. -/
  cards : Seat → Text := fun _ => []

namespace FileReader

/-- The stream, which the first call opens. -/
def stream? (fr : FileReader) : Option (IStream Char) :=
  fr.fileStream <|> fr.file.map fun text => { rest := text }

/-- One turn of the loop over the four hands, on the stream, the string `line` and the array. -/
def readHand (p : IStream Char × Text × (Seat → Text)) (s : Seat) :
    IStream Char × Text × (Seat → Text) :=
  let (stream, line) := getline '\n' p.1 p.2.1
  (stream, line, Function.update p.2.2 s line)

/-- `read_next_deal`: its result and the reader after it, `none` where `std::stoi` throws. A stream that
is closed keeps its flags. -/
def readNextDeal (fr : FileReader) : Option (ℤ × FileReader) :=
  match fr.stream? with
  | none => some (-1, fr)
  | some stream =>
    let (stream, line) := getline '\n' stream []
    if line = [] then some (0, { fr with fileStream := some { stream with rest := [] } })
    else (stoi (substr line 0 1)).map fun trickType =>
      let (stream, _, cards) := Seat.all.foldl readHand (stream, line, fr.cards)
      (1, { fr with
        fileStream := some stream
        trickType := trickType
        seat := substr line 1 1
        cards := cards })

/-- The results of the first calls of `read_next_deal`, each with the reader after it. -/
def results : ℕ → FileReader → Option (List (ℤ × FileReader))
  | 0, _ => some []
  | n + 1, fr => fr.readNextDeal.bind fun r => (results n r.2).map fun rs => r :: rs

/-- The deal `run_game` takes from the reader; `none` where the header names no seat. -/
def deal? (fr : FileReader) : Option Serwer.Deal :=
  (fr.seat.head?.bind Seat.ofLetter?).map fun s =>
    { trickType := fr.trickType, seat := s, rawCards := fr.cards }

/-- The deals the loop of `run_game` plays; `none` where it needs more turns than `fuel`. -/
def gameDeals : ℕ → FileReader → Option (List Serwer.Deal)
  | 0, _ => none
  | fuel + 1, fr => fr.readNextDeal.bind fun r =>
    if 0 < r.1 then r.2.deal?.bind fun d => (gameDeals fuel r.2).map fun ds => d :: ds else some []

end FileReader

/-! ### Game files -/

/-- A deal as it stands in a game file. -/
structure FileDeal where
  trickType : ℕ
  seat : Seat
  hands : Seat → List Text
  typed : 1 ≤ trickType ∧ trickType ≤ 7
  dealt : ∀ s, (hands s).length = 13 ∧ ∀ card ∈ hands s, card ∈ deck

namespace FileDeal

/-- The header and the lines of the four hands. -/
def lines (d : FileDeal) : List Text :=
  (toText d.trickType ++ d.seat.name) :: Seat.all.map fun s => (d.hands s).flatten

/-- The deal as `run_game` plays it. -/
def deal (d : FileDeal) : Serwer.Deal where
  trickType := d.trickType
  seat := d.seat
  rawCards s := (d.hands s).flatten

/-- The deal a file holds that ends after its first `n` lines: the hands that are missing are filled with
the line read last, which is empty where that line ended in a newline. -/
def cutOff (d : FileDeal) (n : ℕ) (final : Bool) : Serwer.Deal where
  trickType := d.trickType
  seat := d.seat
  rawCards s := if s.idx + 1 < n then (d.hands s).flatten
    else if final then [] else d.lines[n - 1]?.getD []

variable (d : FileDeal)

lemma header_eq : toText d.trickType ++ d.seat.name = [d.trickType.digitChar, d.seat.letter] := by
  have htext : toText d.trickType = [d.trickType.digitChar] :=
    Nat.toDigits_of_lt_base (by have := d.typed; omega)
  rw [htext]
  rfl

lemma stoi_digit {n : ℕ} (h : n ≤ 9) : stoi [n.digitChar] = some n := by
  interval_cases n <;> decide

lemma line_good {l : Text} (h : l ∈ d.lines) : '\n' ∉ l ∧ l ≠ [] := by
  obtain rfl | h := List.mem_cons.mp h
  · rw [d.header_eq]
    have hdigit : ∀ n ≤ 9, '\n' ≠ n.digitChar := by decide
    have hletter : '\n' ≠ d.seat.letter := by cases d.seat <;> decide
    have := hdigit d.trickType (by have := d.typed; omega)
    simp [this, hletter]
  · obtain ⟨s, -, rfl⟩ := List.mem_map.mp h
    obtain ⟨h13, hcards⟩ := d.dealt s
    have hcard : ∀ card ∈ deck, '\n' ∉ card ∧ card ≠ [] := by decide
    constructor
    · intro hmem
      obtain ⟨card, hc, hmem⟩ := List.mem_flatten.mp hmem
      exact (hcard card (hcards card hc)).1 hmem
    · intro hnil
      obtain ⟨card, cards, hhand⟩ : ∃ card cards, d.hands s = card :: cards :=
        List.exists_cons_of_length_pos (by omega)
      have hnone := List.flatten_eq_nil_iff.mp hnil card (by simp [hhand])
      exact (hcard card (hcards card (by simp [hhand]))).2 hnone

lemma readNextDeal_header {fr : FileReader} {ls : List Text} {final : Bool}
    (h : fr.stream? = some (behind '\n' ((toText d.trickType ++ d.seat.name) :: ls) final)) :
    fr.readNextDeal =
      let p := Seat.all.foldl FileReader.readHand
        (behind '\n' ls final, toText d.trickType ++ d.seat.name, fr.cards)
      some (1, { fr with
        fileStream := some p.1
        trickType := d.trickType
        seat := d.seat.name
        cards := p.2.2 }) := by
  obtain ⟨hnl, hne⟩ := d.line_good (l := toText d.trickType ++ d.seat.name) (by simp [lines])
  have hread : getline '\n' (behind '\n' ((toText d.trickType ++ d.seat.name) :: ls) final) [] =
      (behind '\n' ls final, toText d.trickType ++ d.seat.name) := getline_behind hnl hne ls []
  rw [d.header_eq] at h hread ⊢
  have hstoi := stoi_digit (n := d.trickType) (by have := d.typed; omega)
  unfold FileReader.readNextDeal
  rw [h]
  simp [hread, substr, hstoi, Seat.name]

lemma hand_good {l : Text} (h : l ∈ Seat.all.map fun s => (d.hands s).flatten) : '\n' ∉ l ∧ l ≠ [] :=
  d.line_good (List.mem_cons_of_mem _ h)

lemma readHands {hands : List Text} (hgood : ∀ l ∈ hands, '\n' ∉ l ∧ l ≠ []) (hlt : hands.length < 4)
    (final : Bool) (line : Text) (cards : Seat → Text) :
    let p := Seat.all.foldl FileReader.readHand (behind '\n' hands final, line, cards)
    p.1 = drained ∧ ∀ s, p.2.2 s =
      hands[s.idx]?.getD (if final then [] else (line :: hands)[hands.length]?.getD []) := by
  have hline : ∀ l ∈ hands, ∀ ls line, getline '\n' (behind '\n' (l :: ls) final) line =
      (behind '\n' ls final, l) := fun l hl ls line =>
    getline_behind (hgood l hl).1 (hgood l hl).2 ls line
  match hands, hlt with
  | [], _ | [a], _ | [a, b], _ | [a, b, c], _ =>
    simp only [List.mem_cons, List.not_mem_nil, or_false, forall_eq_or_imp, forall_eq] at hline
    simp only [Seat.all, List.foldl_cons, List.foldl_nil, FileReader.readHand, hline,
      getline_behind_nil, getline_drained]
    refine ⟨trivial, fun s => ?_⟩
    cases s <;> rfl

lemma readHands_whole (hands : Seat → Text) (hgood : ∀ s, '\n' ∉ hands s ∧ hands s ≠ [])
    (ls : List Text) (final : Bool) (line : Text) (cards : Seat → Text) :
    let p := Seat.all.foldl FileReader.readHand (behind '\n' (Seat.all.map hands ++ ls) final, line, cards)
    p.1 = behind '\n' ls final ∧ p.2.2 = hands := by
  have hline : ∀ s ls line, getline '\n' (behind '\n' (hands s :: ls) final) line =
      (behind '\n' ls final, hands s) := fun s ls line =>
    getline_behind (hgood s).1 (hgood s).2 ls line
  simp only [Seat.all, List.map_cons, List.map_nil, List.cons_append, List.nil_append,
    List.foldl_cons, List.foldl_nil, FileReader.readHand, hline]
  refine ⟨trivial, ?_⟩
  funext s
  cases s <;> rfl

/-- **A deal that is there whole is read as it stands.** -/
lemma readNextDeal_whole {fr : FileReader} {ls : List Text} {final : Bool}
    (h : fr.stream? = some (behind '\n' (d.lines ++ ls) final)) :
    ∃ fr', fr.readNextDeal = some (1, fr') ∧ fr'.stream? = some (behind '\n' ls final) ∧
      fr'.trickType = d.trickType ∧ fr'.seat = d.seat.name ∧
      ∀ s, fr'.cards s = (d.hands s).flatten := by
  obtain ⟨hstream, hcards⟩ := readHands_whole (fun s => (d.hands s).flatten)
    (fun s => d.hand_good (List.mem_map.mpr ⟨s, s.mem_all, rfl⟩)) ls final
    (toText d.trickType ++ d.seat.name) fr.cards
  refine ⟨_, d.readNextDeal_header h, ?_, rfl, rfl, fun s => congrFun hcards s⟩
  exact congrArg some hstream

/-- **A deal that the end of the file cuts off is read like a whole one.** -/
lemma readNextDeal_cut {fr : FileReader} {n : ℕ} (hn : 0 < n ∧ n < 5) {final : Bool}
    (h : fr.stream? = some (behind '\n' (d.lines.take n) final)) :
    ∃ fr', fr.readNextDeal = some (1, fr') ∧ fr'.stream? = some drained ∧
      fr'.trickType = d.trickType ∧ fr'.seat = d.seat.name ∧
      ∀ s, fr'.cards s = (d.cutOff n final).rawCards s := by
  obtain ⟨k, rfl⟩ : ∃ k, n = k + 1 := ⟨n - 1, by omega⟩
  have hlen : ((Seat.all.map fun s => (d.hands s).flatten).take k).length = k := by
    simp [Seat.all]
    omega
  obtain ⟨hstream, hcards⟩ := readHands (fun l hl => d.hand_good (List.mem_of_mem_take hl))
    (by rw [hlen]; omega) final (toText d.trickType ++ d.seat.name) fr.cards
  refine ⟨_, d.readNextDeal_header h, congrArg some hstream, rfl, rfl, fun s => (hcards s).trans ?_⟩
  -- the line read last is the line number `k` of the deal
  have hlast : ((toText d.trickType ++ d.seat.name) ::
      (Seat.all.map fun s => (d.hands s).flatten).take k)[k]? = d.lines[k]? := by
    rw [← List.take_succ_cons, List.getElem?_take_of_lt (Nat.lt_succ_self k)]
    rfl
  rw [hlen, hlast]
  unfold cutOff
  dsimp only
  by_cases hs : s.idx < k
  · have hin : s.idx + 1 < k + 1 := by omega
    rw [if_pos hin, List.getElem?_take_of_lt hs]
    cases s <;> rfl
  · have hout : ¬s.idx + 1 < k + 1 := by omega
    rw [if_neg hout, List.getElem?_take_eq_none (by omega)]
    rfl

end FileDeal

/-! ### All the calls -/

namespace FileReader

/-- What a call is to return and to leave in the reader: the next deal, or that there is none. -/
def Right : Option FileDeal → ℤ × FileReader → Prop
  | some d, r => r.1 = 1 ∧ r.2.trickType = d.trickType ∧ r.2.seat = d.seat.name ∧
      ∀ s, r.2.cards s = (d.hands s).flatten
  | none, r => r.1 = 0

/-- **The calls of `read_next_deal` return these deals**, one by one, and then that there is none left. -/
def ReadsExactly (ds : List FileDeal) (fr : FileReader) : Prop :=
  ∀ n, ∃ rs, results n fr = some rs ∧ rs.length = n ∧
    ∀ (i : ℕ) (r : ℤ × FileReader), rs[i]? = some r → Right ds[i]? r

variable {fr : FileReader} {ds : List FileDeal} {p : ℤ × FileReader}

lemma readsExactly_iff (h : fr.readNextDeal = some p) :
    ReadsExactly ds fr ↔ Right ds.head? p ∧ ReadsExactly ds.tail p.2 := by
  have hstep : ∀ n, results (n + 1) fr = (results n p.2).map fun rs => p :: rs := by
    intro n
    rw [results, h]
    rfl
  constructor
  · intro hreads
    constructor
    · obtain ⟨rs, hrs, -, hright⟩ := hreads 1
      rw [hstep] at hrs
      obtain rfl := Option.some.inj hrs
      rw [List.head?_eq_getElem?]
      exact hright 0 p rfl
    · intro n
      obtain ⟨rs, hrs, hlen, hright⟩ := hreads (n + 1)
      rw [hstep] at hrs
      obtain ⟨rs, hrest, rfl⟩ := Option.map_eq_some_iff.mp hrs
      refine ⟨rs, hrest, by simpa using hlen, fun i r hr => ?_⟩
      rw [List.getElem?_tail]
      exact hright (i + 1) r hr
  · rintro ⟨hhead, htail⟩ n
    cases n with
    | zero => exact ⟨[], rfl, rfl, by simp⟩
    | succ n =>
      obtain ⟨rs, hrs, hlen, hright⟩ := htail n
      refine ⟨p :: rs, by rw [hstep, hrs]; rfl, by simp [hlen], fun i r hr => ?_⟩
      cases i with
      | zero =>
        obtain rfl := Option.some.inj hr
        rwa [List.head?_eq_getElem?] at hhead
      | succ i =>
        have hr' := hright i r (by simpa using hr)
        rwa [List.getElem?_tail] at hr'

lemma readNextDeal_drained
    (h : fr.stream? = some drained ∨ ∃ final, fr.stream? = some (behind '\n' [] final)) :
    ∃ fr', fr.readNextDeal = some (0, fr') ∧ fr'.stream? = some drained := by
  obtain h | ⟨final, h⟩ := h
  · unfold readNextDeal
    rw [h]
    exact ⟨_, rfl, rfl⟩
  · unfold readNextDeal
    rw [h]
    simp only [getline_behind_nil, ite_self, ↓reduceIte]
    exact ⟨_, rfl, rfl⟩

lemma readsExactly_drained (h : fr.stream? = some drained) : ReadsExactly [] fr := by
  intro n
  induction n generalizing fr with
  | zero => exact ⟨[], rfl, rfl, by simp⟩
  | succ n ih =>
    obtain ⟨fr', hread, hover⟩ := readNextDeal_drained (.inl h)
    obtain ⟨rs, hrs, hlen, hright⟩ := ih hover
    refine ⟨(0, fr') :: rs, by rw [results, hread]; simp [hrs], by simp [hlen], fun i r hr => ?_⟩
    cases i with
    | zero =>
      obtain rfl := Option.some.inj hr
      rfl
    | succ i => exact hright i r (by simpa using hr)

lemma gameDeals_succ {fr' : FileReader} {seat : Seat} {fuel : ℕ} (h : fr.readNextDeal = some (1, fr'))
    (hseat : fr'.seat = seat.name) :
    gameDeals (fuel + 1) fr = (gameDeals fuel fr').map fun ds =>
      { trickType := fr'.trickType, seat := seat, rawCards := fr'.cards } :: ds := by
  have hdeal : fr'.deal? = some { trickType := fr'.trickType, seat := seat, rawCards := fr'.cards } := by
    unfold deal?
    rw [hseat]
    cases seat <;> rfl
  rw [gameDeals, h]
  simp [hdeal]

lemma gameDeals_drained {fuel : ℕ}
    (h : fr.stream? = some drained ∨ ∃ final, fr.stream? = some (behind '\n' [] final)) :
    gameDeals (fuel + 1) fr = some [] := by
  obtain ⟨fr', hread, -⟩ := readNextDeal_drained h
  rw [gameDeals, hread]
  rfl

/-- **What is read of a file of deals**, the last of them cut off after its first `n` lines. -/
lemma read_deals (ds : List FileDeal) (d : FileDeal) {n : ℕ} (hn : n < 5) {final : Bool}
    (h : fr.stream? = some (behind '\n' (ds.flatMap FileDeal.lines ++ d.lines.take n) final)) :
    (ReadsExactly ds fr ↔ n = 0) ∧ ∀ fuel > ds.length + 1,
      gameDeals fuel fr = some (ds.map FileDeal.deal ++ if n = 0 then [] else [d.cutOff n final]) := by
  induction ds generalizing fr with
  | nil =>
    obtain rfl | hpos := Nat.eq_zero_or_pos n
    · have hend : ∃ final, fr.stream? = some (behind '\n' [] final) := ⟨final, h⟩
      obtain ⟨fr', hread, hover⟩ := readNextDeal_drained (.inr hend)
      refine ⟨iff_of_true ((readsExactly_iff hread).mpr ⟨rfl, readsExactly_drained hover⟩) rfl, ?_⟩
      intro fuel hfuel
      obtain ⟨fuel, rfl⟩ : ∃ k, fuel = k + 1 := ⟨fuel - 1, by omega⟩
      exact gameDeals_drained (.inr hend)
    · obtain ⟨fr', hread, hover, htype, hseat, hcards⟩ := d.readNextDeal_cut ⟨hpos, hn⟩ h
      refine ⟨iff_of_false (fun hreads => ?_) (by omega), fun fuel hfuel => ?_⟩
      · have hone : (1 : ℤ) = 0 := ((readsExactly_iff hread).mp hreads).1
        exact absurd hone (by decide)
      · obtain ⟨fuel, rfl⟩ : ∃ k, fuel = k + 2 := ⟨fuel - 2, by simp at hfuel; omega⟩
        rw [gameDeals_succ hread hseat, gameDeals_drained (.inl hover), if_neg (by omega), htype,
          funext hcards]
        rfl
  | cons d' ds ih =>
    rw [List.flatMap_cons, List.append_assoc] at h
    obtain ⟨fr', hread, hstream, htype, hseat, hcards⟩ := d'.readNextDeal_whole h
    obtain ⟨hreads, hplayed⟩ := ih hstream
    refine ⟨?_, fun fuel hfuel => ?_⟩
    · rw [readsExactly_iff hread, ← hreads]
      exact and_iff_right ⟨rfl, htype, hseat, hcards⟩
    · obtain ⟨fuel, rfl⟩ : ∃ k, fuel = k + 1 := ⟨fuel - 1, by omega⟩
      rw [gameDeals_succ hread hseat, hplayed fuel (by simpa using hfuel), htype, funext hcards]
      rfl

/-- The reader of a game file that holds some deals and the first `n` lines of another one, with or
without a newline behind its last line. -/
def gameFile (ds : List FileDeal) (d : FileDeal) (n : ℕ) (final : Bool) : FileReader where
  file := some (fileText '\n' (ds.flatMap FileDeal.lines ++ d.lines.take n) final)

/-- **The deals of a game file.** The calls of `read_next_deal` return the deals of the file one by one,
and then that there is none left, exactly when the file does not end within a deal. Where it does,
`run_game` plays that deal as well, with what `cutOff` says for the hands that are missing; the other
deals it plays as they stand, every seat having the cards of its own line. -/
theorem game_file_read (ds : List FileDeal) (d : FileDeal) (n : ℕ) (hn : n < 5) (final : Bool) :
    (ReadsExactly ds (gameFile ds d n final) ↔ n = 0) ∧
    (∀ fuel > ds.length + 1, gameDeals fuel (gameFile ds d n final) =
      some (ds.map FileDeal.deal ++ if n = 0 then [] else [d.cutOff n final])) ∧
    ∀ d' ∈ ds, ∀ s, extractCards (d'.deal.rawCards s) = d'.hands s ∧ (d'.hands s).length = 13 := by
  have hcards : ∀ d' ∈ ds, ∀ s, extractCards (d'.deal.rawCards s) = d'.hands s ∧
      (d'.hands s).length = 13 := fun d' _ s =>
    ⟨extractCards_deck (d'.dealt s).2, (d'.dealt s).1⟩
  suffices hread : ∃ final', (n ≠ 0 → final' = final) ∧ (gameFile ds d n final).stream? =
      some (behind '\n' (ds.flatMap FileDeal.lines ++ d.lines.take n) final') by
    obtain ⟨final', hfinal, hstream⟩ := hread
    obtain ⟨hreads, hplayed⟩ := read_deals ds d hn hstream
    refine ⟨hreads, fun fuel hfuel => ?_, hcards⟩
    rw [hplayed fuel hfuel]
    split
    · rfl
    · rename_i hne
      rw [hfinal hne]
  -- nothing has been read yet, so the flags of the stream are not set
  by_cases hnil : ds.flatMap FileDeal.lines ++ d.lines.take n = []
  · refine ⟨true, fun hne => ?_, ?_⟩
    · obtain ⟨-, htake⟩ := List.append_eq_nil_iff.mp hnil
      simp [FileDeal.lines, hne] at htake
    · simp [gameFile, stream?, behind, fileText, hnil]
  · refine ⟨final, fun _ => rfl, ?_⟩
    simp [gameFile, stream?, behind, hnil]

lemma typed_one : 1 ≤ 1 ∧ 1 ≤ 7 := by decide

/-- Every seat holds one suit, and `N` starts. -/
def suitEach : FileDeal where
  trickType := 1
  seat := .N
  hands s := figures.map fun figure => figure ++ [match s with
    | .N => 'C' | .E => 'D' | .S => 'H' | .W => 'S']
  typed := typed_one
  dealt := by decide

/-- One deal that is there whole, and one without its last hand. -/
theorem game_file_read_short : (ReadsExactly [suitEach] (gameFile [suitEach] suitEach 4 true) ↔ 4 = 0) ∧
    (∀ fuel > 2, gameDeals fuel (gameFile [suitEach] suitEach 4 true) =
      some ([suitEach.deal] ++ [suitEach.cutOff 4 true])) ∧
    ∀ d' ∈ [suitEach], ∀ s, extractCards (d'.deal.rawCards s) = d'.hands s ∧ (d'.hands s).length = 13 :=
  game_file_read [suitEach] suitEach 4 (by decide) true

/-- **A deal is reported although the file ends within it.** Of a file that ends behind the hand of `N`
without a newline all the seats get the cards of `N`; with a newline the other seats get none. -/
theorem cut_deal_reported :
    ¬(∀ ds d n final, n < 5 → ReadsExactly ds (gameFile ds d n final)) ∧
    (∃ fr, (gameFile [] suitEach 2 false).readNextDeal = some (1, fr) ∧
      ∀ s, fr.cards s = (suitEach.hands .N).flatten) ∧
    ∃ fr, (gameFile [] suitEach 2 true).readNextDeal = some (1, fr) ∧ ∀ s ≠ .N, fr.cards s = [] := by
  have hcut : ∀ final, ∃ fr, (gameFile [] suitEach 2 final).readNextDeal = some (1, fr) ∧
      ∀ s, fr.cards s = (suitEach.cutOff 2 final).rawCards s := by
    intro final
    have hstream : (gameFile [] suitEach 2 final).stream? =
        some (behind '\n' (suitEach.lines.take 2) final) := rfl
    obtain ⟨fr, hread, -, -, -, hcards⟩ := suitEach.readNextDeal_cut (by decide) hstream
    exact ⟨fr, hread, hcards⟩
  refine ⟨fun h => ?_, ?_, ?_⟩
  · obtain ⟨fr, hread, -⟩ := hcut false
    have hright := ((readsExactly_iff hread).mp (h [] suitEach 2 false (by decide))).1
    have hone : (1 : ℤ) = 0 := hright
    exact absurd hone (by decide)
  · obtain ⟨fr, hread, hcards⟩ := hcut false
    refine ⟨fr, hread, fun s => (hcards s).trans ?_⟩
    cases s <;> rfl
  · obtain ⟨fr, hread, hcards⟩ := hcut true
    refine ⟨fr, hread, fun s hs => (hcards s).trans ?_⟩
    cases s with
    | N => exact absurd rfl hs
    | E | S | W => rfl

end FileReader

end Kierki
