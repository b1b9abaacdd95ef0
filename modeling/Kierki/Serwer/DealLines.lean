import Kierki.Serwer.Outgoing
import Kierki.Serwer.Turn

/-!
# The `DEAL` lines

`run_game` puts a deal on the board and `run_deal` stores its type in a later critical section;
`reserve_spot` copies the type and the starter, but reads the hand when it builds its line; and for
a `DEAL` byte the line is built again from the type, the last taker and the cards still in the hand.
A line is about one deal of the game file in the runs in which these parts are read together: no
seat is taken between the two critical sections, and no `DEAL` byte is read there, after a card of the
seat was accepted, or after the first trick of the deal.
-/

namespace Kierki.Serwer

open Lib.Lts Senders

/-- The hands of a deal of the game file. -/
def Deal.hands (d : Deal) (s : Seat) : List Text := Regex.extractCards (d.rawCards s)

/-- The line announces a deal. -/
def IsDealLine (l : Text) : Prop := ['D', 'E', 'A', 'L'] <+: l

instance : DecidablePred IsDealLine := fun l => inferInstanceAs (Decidable (_ <+: l))

/-- A line to the seat `s` that announces a deal is the line of one deal of the file, with the whole
hand of the seat. -/
def WholeDeal (deals : List Deal) (s : Seat) (l : Text) : Prop :=
  IsDealLine l → ∃ d ∈ deals, l = dealLine d.trickType d.seat (d.hands s)

/-! ### The deal on the board -/

/-- The type of the deal that was loaded last, also while `run_deal` has not stored it. -/
def currentType (sh : Shared) (m : Main) : ℕ :=
  match m.pc with
  | .dealStart => m.trickType
  | _ => sh.trickTypeGlobal

/-- No deal was loaded yet. -/
structure BeforeDeals (sh : Shared) (m : Main) : Prop where
  deal : sh.deal .N = []
  pipes : ∀ s, .deal ∉ sh.serverWritePipes s
  start : m.pc ≠ .dealStart
  announce : ∀ left, m.pc ≠ .announce .deal left

/-- The deal `d` is on the board. -/
structure Shows (sh : Shared) (m : Main) (d : Deal) : Prop where
  deal : sh.deal = d.hands
  starter : sh.dealStarter = d.seat
  type : currentType sh m = d.trickType

/-! ### The history of the deals -/

/-- The deal the next step of the main thread loads. -/
def Main.loads (m : Main) : Option Deal :=
  match m.pc with
  | .nextDeal => m.deals.head?
  | _ => none

/-- The next step of the main thread ends a trick. -/
def Main.endsTrick (m : Main) : Bool :=
  match m.pc with
  | .trickEnd => true
  | _ => false

/-- `run_game` has loaded a deal, and `run_deal` has not yet stored its type and its first player. -/
def MainPc.unstored : MainPc → Bool
  | dealStart => true
  | _ => false

/-- What is recorded of the deals. -/
structure Dealings where
  /-- The deals loaded so far, the last one first. -/
  loaded : List Deal := []
  /-- The seats from which a card was accepted since the last one was loaded. -/
  played : List Seat := []
  /-- A trick has ended since. -/
  trickOver : Bool := false

/-- What a step of the main thread adds. -/
def Dealings.main (h : Dealings) (m : Main) : Dealings :=
  match m.loads with
  | some d => { loaded := d :: h.loaded }
  | none => { h with trickOver := h.trickOver || m.endsTrick }

/-- What a step of a thread adds. -/
def Dealings.thread (h : Dealings) (sh : Shared) (t : Thread) : Dealings :=
  if t.accepts sh then { h with played := t.seat :: h.played } else h

def Dealings.note (st : State) (a : Act) (_ : State) (h : Dealings) : Dealings :=
  match a with
  | .main _ => h.main st.main
  | .accept _ => h
  | .thread c _ => h.thread st.sh (st.threads c)

/-- The deal loaded last is of the same type as the one before. -/
def Dealings.sameType (h : Dealings) : Bool :=
  match h.loaded with
  | d :: d' :: _ => decide (d.trickType = d'.trickType)
  | _ => false

/-! ### The condition -/

/-- The thread has copied the type and the starter of a deal, and its line is still to be built. -/
def Pc.drafts : Pc → Bool
  | dealLine _ _ => true
  | _ => false

/-- **The condition of the `DEAL` lines.** No seat is taken between `run_game`'s load and `run_deal`'s
store, unless the type stays the same; no deal is loaded while a `reserve_spot` is between its copies
and its line, unless type and starter stay the same; and a `DEAL` byte is read only after the store,
before a card of the seat is accepted and before the first trick ends. -/
def DealsGuarded (p : State × Dealings) : Act → Prop
  | .main _ => ∀ d ∈ p.1.main.loads, ∀ d' ∈ p.2.loaded.head?, ∀ c < p.1.threadId,
    (p.1.threads c).pc.drafts = true → d.trickType = d'.trickType ∧ d.seat = d'.seat
  | .accept _ => True
  | .thread c _ =>
    ((p.1.threads c).pc = .take → p.1.sh.seatsStatus (p.1.threads c).seat = -1 →
      p.1.main.pc.unstored = true → p.2.sameType = true) ∧
    ((p.1.threads c).pc = .readPipe true →
      (p.1.sh.serverWritePipes (p.1.threads c).seat).head? = some .deal →
      p.1.main.pc.unstored = false ∧ (p.1.threads c).seat ∉ p.2.played ∧ p.2.trickOver = false)

instance (p : State × Dealings) : (a : Act) → Decidable (DealsGuarded p a)
  | .main _ => inferInstanceAs (Decidable (∀ d ∈ p.1.main.loads, _))
  | .accept _ => inferInstanceAs (Decidable True)
  | .thread _ _ => inferInstanceAs (Decidable (_ ∧ _))

/-! ### The invariants -/

/-- **The invariant of the board**: it shows the deal loaded last, and what run_deal and the players
have not touched since is as it was dealt. -/
structure OnBoard (deals : List Deal) (sh : Shared) (m : Main) (h : Dealings) : Prop where
  left : ∀ d ∈ m.deals, d ∈ deals
  known : ∀ d ∈ h.loaded, d ∈ deals
  before : h.loaded = [] → BeforeDeals sh m
  shown : ∀ d ∈ h.loaded.head?, Shows sh m d
  unstored : m.pc.unstored = true → m.seat = sh.dealStarter ∧
    ∀ d ∈ h.loaded.tail.head?, sh.trickTypeGlobal = d.trickType
  hand : ∀ s ∉ h.played, sh.cards s = sh.deal s
  taker : h.trickOver = false → m.pc.unstored = false → h.loaded ≠ [] → sh.lastTaker = sh.dealStarter

/-- **The invariant of a thread**: what it copied is of the deal on the board, and the lines it
sent and is sending are whole. -/
structure Announces (deals : List Deal) (h : Dealings) (t : Thread) : Prop where
  fresh : t.pc = .readIam → t.outbox = []
  copied : ∀ a b, t.pc = .dealLine a b → ∃ d ∈ h.loaded.head?, a = d.trickType ∧ b = d.seat
  sending : ∀ l p, t.pc = .send l p → WholeDeal deals t.seat l
  total : ∀ l total, t.pc = .send l (.score total) → ¬IsDealLine total
  sent : ∀ l ∈ t.outbox, WholeDeal deals t.seat l

/-! ### What the steps keep -/

section Words

variable {deals : List Deal} {s : Seat}

lemma whole_of_not {l : Text} (h : ¬IsDealLine l) : WholeDeal deals s l := fun hl => absurd hl h

lemma not_isDealLine_trickLine (n : ℕ) (cards : List Text) : ¬IsDealLine (trickLine n cards) := by
  rintro ⟨z, hz⟩
  simp [trickLine] at hz

lemma not_isDealLine_takenLine (n : ℕ) (cards : List Text) (taker : Seat) :
    ¬IsDealLine (takenLine n cards taker) := by
  rintro ⟨z, hz⟩
  simp [takenLine] at hz

lemma not_isDealLine_wrongLine (n : ℕ) : ¬IsDealLine (wrongLine n) := by
  rintro ⟨z, hz⟩
  simp [wrongLine] at hz

lemma not_isDealLine_busyLine (seats : List Seat) : ¬IsDealLine (busyLine seats) := by
  rintro ⟨z, hz⟩
  simp [busyLine] at hz

lemma not_isDealLine_scores (scores : Seat → ℤ) :
    ¬IsDealLine (scoreLine scores) ∧ ¬IsDealLine (totalLine scores) := by
  constructor <;>
  · rintro ⟨z, hz⟩
    simp [scoreLine, totalLine] at hz

end Words

section Keeps

variable {deals : List Deal} {sh sh' : Shared} {m m' : Main} {h h' : Dealings} {c : ℕ} {t t' : Thread}
  {o : Outcome} {d : Deal}

lemma BeforeDeals.main (h : BeforeDeals sh m) (hm : MainMove sh m sh' m') (hl : m.loads = none) :
    BeforeDeals sh' m' := by
  have htell : ∀ s₀ b, b ≠ .deal → ∀ s, .deal ∉ (sh.tell s₀ b).serverWritePipes s := by
    intro s₀ b hb s hmem
    rcases Shared.mem_tell.mp hmem with hmem | ⟨-, rfl⟩
    · exact h.pipes s hmem
    · exact hb rfl
  cases hm with
  | ask s | askLast s | resend s | release s | turnSend s | closeSeat s =>
    exact ⟨h.deal, htell s _ (by decide), by simp, by simp⟩
  | releaseLast s r =>
    have hpc := m.afterBarrier_pc (P := fun _ pc => pc ≠ .dealStart ∧ ∀ left, pc ≠ .announce .deal left)
      r (by simp) (by simp) (by simp) (by simp) (by simp)
    exact ⟨h.deal, htell s _ (by decide), hpc.1, hpc.2⟩
  | announce b s left hpc =>
    have hb : b ≠ .deal := by
      rintro rfl
      exact h.announce _ hpc
    exact ⟨h.deal, htell s _ (by cases b <;> simp_all [Bulletin.byte]), by simp, by simp [hb]⟩
  | announceLast b s hpc =>
    have hb : b ≠ .deal := by
      rintro rfl
      exact h.announce _ hpc
    exact ⟨h.deal, htell s _ (by cases b <;> simp_all [Bulletin.byte]),
      by cases b <;> simp [Main.afterBulletin], by cases b <;> simp [Main.afterBulletin]⟩
  | load d rest hpc hd => simp [Main.loads, hpc, hd] at hl
  | start hpc => exact absurd hpc h.start
  | dealEnd => exact ⟨h.deal, h.pipes, by simp [Main.endDeal], by simp [Main.endDeal]⟩
  | _ => exact ⟨h.deal, h.pipes, by simp, by simp⟩

lemma currentType_eq (h : m.pc ≠ .dealStart) : currentType sh m = sh.trickTypeGlobal := by
  unfold currentType
  split
  · contradiction
  · rfl

lemma Shows.main (h : Shows sh m d) (hm : MainMove sh m sh' m') (hl : m.loads = none) :
    Shows sh' m' d := by
  by_cases hstart : m.pc = .dealStart
  · cases hm with
    | start =>
      have htype := h.type
      simp only [currentType, hstart] at htype
      exact ⟨h.deal, h.starter, htype⟩
    | _ => simp_all
  · have htype := h.type
    rw [currentType_eq hstart] at htype
    cases hm with
    | releaseLast s r =>
      have hpc := m.afterBarrier_pc (P := fun _ pc => pc ≠ .dealStart)
        r (by simp) (by simp) (by simp) (by simp) (by simp)
      exact ⟨h.deal, h.starter, (currentType_eq hpc).trans htype⟩
    | load d rest hpc hd => simp [Main.loads, hpc, hd] at hl
    | start hpc => exact absurd hpc hstart
    | announceLast b s =>
      exact ⟨h.deal, h.starter, (currentType_eq (by cases b <;> simp [Main.afterBulletin])).trans htype⟩
    | _ => exact ⟨h.deal, h.starter, htype⟩

lemma Main.loads_eq_none (h : m.pc ≠ .nextDeal) : m.loads = none := by
  unfold loads
  split
  · contradiction
  · rfl

lemma MainPc.unstored_iff {pc : MainPc} : pc.unstored = true ↔ pc = .dealStart := by
  cases pc <;> simp [unstored]

lemma OnBoard.goes (hb : OnBoard deals sh m h) (hm : MainMove sh m sh' m') (hl : m.loads = none) :
    OnBoard deals sh' m' { h with trickOver := h.trickOver || m.endsTrick } := by
  have hstored : m'.pc.unstored = false := by
    cases hm with
    | load d rest hpc hd => simp [Main.loads, hpc, hd] at hl
    | announceLast b => cases b <;> rfl
    | releaseLast s r =>
      exact m.afterBarrier_pc (P := fun _ pc => pc.unstored = false) r rfl (fun _ _ _ _ => rfl) rfl rfl
        rfl
    | _ => rfl
  have hkeep : m'.deals = m.deals ∧ sh'.cards = sh.cards ∧ sh'.deal = sh.deal ∧
      sh'.dealStarter = sh.dealStarter := by
    cases hm with
    | load d rest hpc hd => simp [Main.loads, hpc, hd] at hl
    | releaseLast s r => cases r <;> exact ⟨rfl, rfl, rfl, rfl⟩
    | _ => exact ⟨rfl, rfl, rfl, rfl⟩
  obtain ⟨hdeals, hcards, hdeal, hstarter⟩ := hkeep
  refine ⟨by rw [hdeals]; exact hb.left, hb.known, fun hnil => (hb.before hnil).main hm hl,
    fun d hd => (hb.shown d hd).main hm hl, fun hu => absurd hu (by simp [hstored]),
    by rw [hcards, hdeal]; exact hb.hand, fun hover _ hne => ?_⟩
  obtain ⟨hover, hend⟩ := Bool.or_eq_false_iff.mp hover
  rw [hstarter]
  cases hm with
  | start hpc => exact (hb.unstored (MainPc.unstored_iff.mpr hpc)).1
  | trickEnd _ _ _ hpc => simp [Main.endsTrick, hpc] at hend
  | _ => exact hb.taker hover (by simp [MainPc.unstored, *]) hne

lemma OnBoard.loads {rest : List Deal} (hb : OnBoard deals sh m h) (hpc : m.pc = .nextDeal)
    (hd : m.deals = d :: rest) : OnBoard deals (Main.loadDeal sh m d rest).1
      (Main.loadDeal sh m d rest).2 { loaded := d :: h.loaded } := by
  have hin : d ∈ deals := hb.left d (by rw [hd]; exact List.mem_cons_self)
  refine ⟨fun d' hd' => hb.left d' (by rw [hd]; exact List.mem_cons_of_mem _ hd'), fun d' hd' => ?_,
    fun hnil => (by cases hnil), fun d' hd' => ?_, fun _ => ⟨rfl, fun d' hd' => ?_⟩, fun _ _ => rfl,
    fun _ hu => (by cases hu)⟩
  · rcases List.mem_cons.mp hd' with rfl | hd'
    · exact hin
    · exact hb.known d' hd'
  · obtain rfl : d = d' := Option.some.inj hd'
    exact ⟨rfl, rfl, rfl⟩
  · exact (currentType_eq (by simp [hpc])).symm.trans (hb.shown d' hd').type

lemma OnBoard.main (hb : OnBoard deals sh m h) (hm : MainMove sh m sh' m') :
    OnBoard deals sh' m' (h.main m) := by
  unfold Dealings.main
  cases hm with
  | load d rest hpc hd =>
    rw [show m.loads = some d by simp [Main.loads, hpc, hd]]
    exact hb.loads hpc hd
  | gameOver hpc hd =>
    have hl : m.loads = none := by simp [Main.loads, hpc, hd]
    rw [hl]
    exact hb.goes (.gameOver hpc hd) hl
  | _ =>
    have hl : m.loads = none := Main.loads_eq_none (by simp [*])
    rw [hl]
    exact hb.goes (by constructor <;> assumption) hl

lemma ThreadMove.hand (hm : ThreadMove sh c t o sh' t') {s : Seat} (hs : s ∉ (h.thread sh t).played) :
    sh'.cards s = sh.cards s ∧ s ∉ h.played := by
  have hplayed : s ∉ h.played := by
    unfold Dealings.thread at hs
    split at hs
    · exact fun hmem => hs (List.mem_cons_of_mem _ hmem)
    · exact hs
  cases hm with
  | accept l k card hpc hl hd ha =>
    have hacc : t.accepts sh = true := by simp [Thread.accepts, hpc, hl, hd, ha]
    rw [Dealings.thread, if_pos hacc] at hs
    exact ⟨Function.update_of_ne (fun he => hs (by rw [he]; exact List.mem_cons_self)) _ _, hplayed⟩
  | notSent l p => cases p <;> exact ⟨rfl, hplayed⟩
  | byte b => cases b <;> exact ⟨rfl, hplayed⟩
  | close b => cases b <;> exact ⟨rfl, hplayed⟩
  | _ => exact ⟨rfl, hplayed⟩

@[simp] lemma Dealings.thread_loaded : (h.thread sh t).loaded = h.loaded := by
  unfold thread
  split <;> rfl

@[simp] lemma Dealings.thread_trickOver : (h.thread sh t).trickOver = h.trickOver := by
  unfold thread
  split <;> rfl

lemma OnBoard.thread (hb : OnBoard deals sh m h) (hm : ThreadMove sh c t o sh' t') :
    OnBoard deals sh' m (h.thread sh t) := by
  have hf := hm.framed
  have htype : currentType sh' m = currentType sh m := by
    unfold currentType
    rw [hf.trickTypeGlobal]
  refine ⟨hb.left, by rw [Dealings.thread_loaded]; exact hb.known, fun hnil => ?_, fun d hd => ?_, ?_,
    fun s hs => ?_, ?_⟩
  · rw [Dealings.thread_loaded] at hnil
    have hbefore := hb.before hnil
    exact ⟨by rw [hf.deal, hbefore.deal], fun s hmem => hbefore.pipes s ((hm.writePipes s).mem hmem),
      hbefore.start, hbefore.announce⟩
  · rw [Dealings.thread_loaded] at hd
    have hs := hb.shown d hd
    exact ⟨hf.deal.trans hs.deal, hf.dealStarter.trans hs.starter, htype.trans hs.type⟩
  · rw [Dealings.thread_loaded, hf.dealStarter, hf.trickTypeGlobal]
    exact hb.unstored
  · obtain ⟨hcards, hplayed⟩ := hm.hand hs
    rw [hcards, hf.deal]
    exact hb.hand s hplayed
  · rw [Dealings.thread_loaded, Dealings.thread_trickOver, hf.lastTaker, hf.dealStarter]
    exact hb.taker

lemma Announces.draft {l : Text} {p : Purpose} (ha : Announces deals h t) (hb : OnBoard deals sh m h)
    (hbyte : t.pc = .readPipe true → (sh.serverWritePipes t.seat).head? = some .deal →
      m.pc.unstored = false ∧ t.seat ∉ h.played ∧ h.trickOver = false)
    (hd : Draft sh t l p) : WholeDeal deals t.seat l := by
  cases hd with
  | busy => exact whole_of_not (not_isDealLine_busyLine _)
  | catchUp a b hpc =>
    obtain ⟨d, hd, rfl, rfl⟩ := ha.copied a b hpc
    exact fun _ => ⟨d, hb.known d (List.mem_of_mem_head? hd), by rw [(hb.shown d hd).deal]⟩
  | deal rest hpc hp =>
    obtain ⟨hstored, hhand, hover⟩ := hbyte hpc (by rw [hp]; rfl)
    cases hloaded : h.loaded with
    | nil => exact absurd (by rw [hp]; exact List.mem_cons_self) ((hb.before hloaded).pipes t.seat)
    | cons d earlier =>
      have hs := hb.shown d (by rw [hloaded]; rfl)
      have htype := (currentType_eq fun hpc => by rw [hpc] at hstored; cases hstored).symm.trans hs.type
      have htaker := hb.taker hover hstored (by simp [hloaded])
      exact fun _ => ⟨d, hb.known d (by simp [hloaded]), by
        rw [htype, htaker, hs.starter, hb.hand _ hhand, hs.deal]⟩
  | replay | taken => exact whole_of_not (not_isDealLine_takenLine _ _ _)
  | joinTrick | again | ask => exact whole_of_not (not_isDealLine_trickLine _ _)
  | score => exact whole_of_not (not_isDealLine_scores _).1
  | total l total hpc => exact whole_of_not (ha.total _ _ hpc)
  | wrong => exact whole_of_not (not_isDealLine_wrongLine _)

lemma OnBoard.copies (hb : OnBoard deals sh m h) (hd : sh.deal .N ≠ [])
    (htake : m.pc.unstored = true → h.sameType = true) :
    ∃ d ∈ h.loaded.head?, sh.trickTypeGlobal = d.trickType ∧ sh.dealStarter = d.seat := by
  cases hloaded : h.loaded with
  | nil => exact absurd (hb.before hloaded).deal hd
  | cons d earlier =>
    have hs := hb.shown d (by rw [hloaded]; rfl)
    refine ⟨d, rfl, ?_, hs.starter⟩
    cases hu : m.pc.unstored with
    | false => exact (currentType_eq fun hpc => by rw [hpc] at hu; cases hu).symm.trans hs.type
    | true =>
      have hsame := htake hu
      unfold Dealings.sameType at hsame
      cases earlier with
      | nil => simp [hloaded] at hsame
      | cons d' earlier =>
        rw [hloaded] at hsame
        exact ((hb.unstored hu).2 d' (by rw [hloaded]; rfl)).trans (of_decide_eq_true hsame).symm

/-- **A step of a thread keeps its invariant.** -/
lemma Announces.thread (ha : Announces deals h t) (hb : OnBoard deals sh m h)
    (htake : t.pc = .take → sh.seatsStatus t.seat = -1 → m.pc.unstored = true → h.sameType = true)
    (hbyte : t.pc = .readPipe true → (sh.serverWritePipes t.seat).head? = some .deal →
      m.pc.unstored = false ∧ t.seat ∉ h.played ∧ h.trickOver = false)
    (hm : ThreadMove sh c t o sh' t') : Announces deals (h.thread sh t) t' := by
  have hdraft : ∀ l p, t'.pc = .send l p → WholeDeal deals t.seat l :=
    fun l p hl => ha.draft hb hbyte (hm.draft hl)
  refine ⟨fun hpc => ?_, fun a b hpc => ?_, fun l p hl => ?_, fun l total hl => ?_, fun l hl => ?_⟩
  · cases hm.catchUp (by rw [hpc]; rfl) <;> cases hpc
  · rw [Dealings.thread_loaded]
    cases hm.catchUp (by rw [hpc]; rfl) with
    | copied hpc₀ hs hd =>
      cases hpc
      exact hb.copies hd (htake hpc₀ hs)
    | _ => cases hpc
  · rw [hm.seat_eq (hm.draft hl).not_readIam]
    exact hdraft l p hl
  · cases hm.draft hl with
    | score => exact (not_isDealLine_scores _).2
  · by_cases hpc : t.pc = .readIam
    · rcases hm.outbox with ho | ⟨l, p, hl', -⟩
      · rw [ho, ha.fresh hpc] at hl
        cases hl
      · rw [hpc] at hl'
        cases hl'
    · rw [hm.seat_eq hpc]
      rcases hm.outbox with ho | ⟨l', p, hl', ho⟩
      · exact ha.sent l (ho ▸ hl)
      · rw [ho, List.mem_cons] at hl
        rcases hl with rfl | hl
        · exact ha.sending l p hl'
        · exact ha.sent l hl

lemma Announces.still (ha : Announces deals h t) (hl : h'.loaded = h.loaded) : Announces deals h' t :=
  ⟨ha.fresh, by rw [hl]; exact ha.copied, ha.sending, ha.total, ha.sent⟩

lemma Announces.main (ha : Announces deals h t)
    (hc : ∀ d ∈ m.loads, ∀ d' ∈ h.loaded.head?, t.pc.drafts = true →
      d.trickType = d'.trickType ∧ d.seat = d'.seat) : Announces deals (h.main m) t := by
  unfold Dealings.main
  cases hl : m.loads with
  | none => exact ha.still rfl
  | some d =>
    refine ⟨ha.fresh, fun a b hpc => ?_, ha.sending, ha.total, ha.sent⟩
    obtain ⟨d', hd', rfl, rfl⟩ := ha.copied a b hpc
    obtain ⟨htype, hseat⟩ := hc d (by rw [hl]; rfl) d' hd' (by rw [hpc]; rfl)
    exact ⟨d, rfl, htype.symm, hseat.symm⟩

end Keeps

/-! ### The runs -/

section Runs

variable {timeout : ℤ} {deals : List Deal} {st st' : State} {h : Dealings} {a : Act}

/-- **Every guarded step keeps the invariants.** -/
lemma announces_step (hb : OnBoard deals st.sh st.main h) (hn : st.Numbered)
    (ha : ∀ c, Announces deals h (st.threads c)) (hok : DealsGuarded (st, h) a)
    (hs : step st a = some st') :
    OnBoard deals st'.sh st'.main (Dealings.note st a st' h) ∧
      ∀ c, Announces deals (Dealings.note st a st' h) (st'.threads c) := by
  obtain ⟨ready, rfl, hm, hthreads⟩ | ⟨fd, rfl, hsh, hmain, hthreads⟩ |
    ⟨c, o, rfl, hm, hmain, hthreads⟩ := step_moves hs
  · refine ⟨hb.main hm, fun c => ?_⟩
    rw [hthreads]
    refine (ha c).main fun d hd d' hd' hdrafts => ?_
    rcases lt_or_ge c st.threadId with hc | hc
    · exact hok d hd d' hd' c hc hdrafts
    · rw [hn c hc] at hdrafts
      cases hdrafts
  · rw [hsh, hmain, hthreads]
    refine ⟨hb, fun c => ?_⟩
    by_cases hc : c = st.threadId
    · subst hc
      rw [Function.update_self]
      exact ⟨fun _ => rfl, by simp, by simp, by simp, by simp⟩
    · rw [Function.update_of_ne hc]
      exact ha c
  · rw [hmain]
    refine ⟨hb.thread hm, fun c' => ?_⟩
    by_cases hc : c' = c
    · subst hc
      exact (ha c').thread hb hok.1 hok.2 hm
    · rw [hthreads c' hc]
      exact (ha c').still Dealings.thread_loaded

end Runs

/-- The game has started with `W` alone; a client takes `N`, plays a card by the permission of
`reserve_spot`, and then its thread reads the `DEAL` byte that was in the pipe. -/
def playsBeforeDeal : List Act :=
  earlyTurn ++ sends 4 ['T', 'R', 'I', 'C', 'K', '1', '2', 'C', '\r', '\n'] true 4 ++
  hears 4 3 ++ hears 4 1

end Kierki.Serwer
