import Kierki.Serwer.Tricks
import Kierki.Serwer.TakenReplay

/-!
# The number of the trick in the lines

A seat thread works from a copy of `trick_number` that it took at the top of its loop or with its
last `CARD_PLAY` byte. For a thread that may play, and for one that has still to tell its client of
the end of a trick, the copy is current: `run_deal` waits for the one, and the `CARD_PLAY` byte of
the trick is in the pipe before the `TAKEN` byte for the other. Nothing of that kind protects the
answer to a line sent out of turn: it is right as long as `run_deal` has set no `trick_number` since
the copy. What is recorded for that is how often it has, and how often it had when the copy was taken.
-/

namespace Kierki.Serwer

open Lib.Lts Senders Regex

/-! ### The lines with a number -/

/-- The line is a `TRICK`, `WRONG` or `TAKEN` line. -/
def IsNumbered (l : Text) : Prop :=
  ['T', 'R', 'I', 'C', 'K'] <+: l ∨ ['W', 'R', 'O', 'N', 'G'] <+: l ∨ ['T', 'A', 'K', 'E', 'N'] <+: l

instance : DecidablePred IsNumbered := fun _ => inferInstanceAs (Decidable (_ ∨ _ ∨ _))

/-- **The line carries the number `n`**, and a client whose trick it is can accept it. -/
inductive Carries (n : ℕ) : Text → Prop
  | trick (cards : List Text) (h : TRICKCheck (trickLine n cards) n = true) :
      Carries n (trickLine n cards)
  | wrong (h : WRONGCheck (wrongLine n) = true) : Carries n (wrongLine n)
  | taken (cards : List Text) (taker : Seat) (h : TAKENCheck (takenLine n cards taker) n = true) :
      Carries n (takenLine n cards taker)

/-- A line that is being sent carries the number of the trick in progress, and in the replay of
`reserve_spot` that of the trick replayed. -/
def RightNumber (sh : Shared) (l : Text) : Purpose → Prop
  | .replay i => 1 ≤ i ∧ i ≤ 13 ∧ Carries i l
  | _ => 1 ≤ sh.trickNumber ∧ sh.trickNumber ≤ 13 ∧ Carries sh.trickNumber l

/-! ### The history of the numbers -/

/-- The next step of the thread copies `trick_number`, if its calls go through. -/
def Thread.copiesTrick (sh : Shared) (t : Thread) : Bool :=
  match t.pc with
  | .loopTop => true
  | .readPipe true => decide ((sh.serverWritePipes t.seat).head? = some .cardPlay)
  | _ => false

/-- What is recorded of `trick_number` and its copies. -/
structure Numberings where
  /-- How often `run_deal` has set `trick_number`. -/
  sets : ℕ := 0
  /-- How often it had when the connection took its copy. -/
  copied : ℕ → ℕ := fun _ => 0
  /-- The first trick of the deal has begun. -/
  begun : Bool := false

/-- What a step of the main thread adds. -/
def Numberings.main (h : Numberings) (m : Main) : Numberings :=
  match m.pc with
  | .dealStart => { h with sets := h.sets + 1, begun := false }
  | .trickStart => { h with sets := h.sets + 1, begun := true }
  | _ => h

/-- What a step of the thread of connection `c` adds. -/
def Numberings.thread (h : Numberings) (sh : Shared) (c : ℕ) (t : Thread) : Numberings :=
  if t.copiesTrick sh then { h with copied := Function.update h.copied c h.sets } else h

def Numberings.note (st : State) (a : Act) (_ : State) (h : Numberings) : Numberings :=
  match a with
  | .main _ => h.main st.main
  | .accept _ => h
  | .thread c _ => h.thread st.sh c (st.threads c)

/-! ### The condition -/

/-- The thread is in the middle of sending a line with the number of the trick in progress. -/
def Thread.tells (t : Thread) : Bool :=
  match t.pc with
  | .send _ (.replay _) => false
  | .send l _ => decide (IsNumbered l)
  | _ => false

/-- The thread is about to answer a card sent out of turn. -/
def Thread.refuses (t : Thread) : Bool :=
  match t.pc with
  | .parse m _ => TRICKClientCheck m && !t.bWasDestinedToPlay
  | _ => false

/-- The trick that `run_deal` leaves has been told. -/
def TrickSettled (st : State) : Prop :=
  (∀ s, .taken ∉ st.sh.serverWritePipes s) ∧ ∀ c < st.threadId, (st.threads c).tells = false

instance (st : State) : Decidable (TrickSettled st) := inferInstanceAs (Decidable (_ ∧ _))

/-- **The condition of the numbers.** No thread has the permission to play twice; `run_deal` sets
`trick_number` only when the trick before has been told; and a card sent out of turn is answered only
after the first trick of the deal has begun, and only if `run_deal` has set no `trick_number` since the
thread took its copy. -/
def NumbersGuarded (p : State × Numberings) : Act → Prop
  | .main _ => p.1.main.pc.setsTrick = true → TrickSettled p.1
  | .accept _ => True
  | .thread c o => TurnGuarded p.1 (.thread c o) ∧
    ((p.1.threads c).refuses = true → p.2.begun = true ∧ p.2.copied c = p.2.sets)

instance (p : State × Numberings) : (a : Act) → Decidable (NumbersGuarded p a)
  | .main _ => inferInstanceAs (Decidable (_ → _))
  | .accept _ => inferInstanceAs (Decidable True)
  | .thread _ _ => inferInstanceAs (Decidable (_ ∧ _))

lemma NumbersGuarded.turn {p : State × Numberings} {a : Act} (h : NumbersGuarded p a) :
    TurnGuarded p.1 a := by
  cases a with
  | thread c o => exact h.1
  | main | accept => trivial

/-! ### The copies of the threads -/

/-- A point of `client_poll` at which the copy of the number may be used. -/
def Pc.copied : Pc → Bool
  | loopTop => false
  | pc => pc.kind.polls

/-- The copy is current, or a `CARD_PLAY` byte makes it so before the end of the trick is told. -/
def Current (sh : Shared) (t : Thread) : Prop :=
  t.currentTrick = sh.trickNumber ∨
    .cardPlay ∈ (sh.serverWritePipes t.seat).takeWhile fun b => b ≠ .taken

lemma Thread.copied_of_refuses {t : Thread} (h : t.refuses = true) : t.pc.copied = true := by
  unfold refuses at h
  split at h
  · rename_i hpc
    rw [hpc]
    rfl
  · cases h

lemma Pc.polls_of_copied {pc : Pc} (h : pc.copied = true) : pc.kind.polls = true := by
  unfold Pc.copied at h
  split at h
  · cases h
  · exact h

/-- **The invariant of a thread**: its copy is current where it may play and where it has to tell of
the end of the trick. -/
structure Copies (sh : Shared) (pc : MainPc) (t : Thread) : Prop where
  permitted : t.view.perm = true →
    1 ≤ sh.trickNumber ∧ (t.pc.copied = true → t.currentTrick = sh.trickNumber)
  told : t.pc.copied = true → .taken ∈ sh.serverWritePipes t.seat ∨ pc.hasAsked t.seat = true →
    Current sh t
  again : ∀ pipe, t.pc = .again pipe → t.bWasDestinedToPlay = true
  total : ∀ l total, t.pc = .send l (.score total) → ¬IsNumbered total
  sending : ∀ l p, t.pc = .send l p → IsNumbered l → RightNumber sh l p

section Thread

variable {sh sh' : Shared} {m m' : Main} {pc : MainPc} {v : ℕ → View} {c : ℕ} {t t' : Thread}
  {o : Outcome}

/-- Where the copy of a thread comes from. -/
lemma ThreadMove.copy (hm : ThreadMove sh c t o sh' t') (h : t'.pc.copied = true) :
    t'.seat = t.seat ∧ (t'.currentTrick = sh.trickNumber ∨
      t.pc.copied = true ∧ t'.currentTrick = t.currentTrick ∧
        (sh'.serverWritePipes t.seat = sh.serverWritePipes t.seat ∨
          ∃ b ≠ .cardPlay, sh.serverWritePipes t.seat = b :: sh'.serverWritePipes t.seat)) := by
  cases hm with
  | take pc' hpc hs hpc' => rcases hpc' with ⟨rfl, -⟩ | ⟨rfl, -⟩ <;> cases h
  | top => exact ⟨rfl, .inl rfl⟩
  | sent l p hpc =>
    cases p with
    | wrong k => exact ⟨rfl, .inr ⟨by rw [hpc]; rfl, rfl, .inl rfl⟩⟩
    | again pipe => exact ⟨rfl, .inr ⟨by rw [hpc]; rfl, rfl, .inl rfl⟩⟩
    | score total => exact ⟨rfl, .inr ⟨by rw [hpc]; rfl, rfl, .inl rfl⟩⟩
    | _ => cases h
  | notSent l p => cases p <;> cases h
  | byte b rest hpc hp =>
    have hrest : (sh.heard t.seat rest).serverWritePipes t.seat = rest := by simp
    cases b with
    | cardPlay => exact ⟨rfl, .inl rfl⟩
    | disconnected => cases h
    | _ =>
      refine ⟨rfl, .inr ⟨by rw [hpc]; rfl, rfl, .inr ⟨_, ?_, hp.trans (congrArg _ hrest.symm)⟩⟩⟩
      decide
  | drained after hpc =>
    exact ⟨rfl, .inr ⟨by rcases hpc with ⟨hpc, -⟩ | ⟨hpc, -⟩ <;> rw [hpc] <;> rfl, rfl, .inl rfl⟩⟩
  | popped k m q hpc =>
    exact ⟨rfl, .inr ⟨by rcases hpc with ⟨hpc, -⟩ | ⟨hpc, -⟩ <;> rw [hpc] <;> rfl, rfl, .inl rfl⟩⟩
  | expired pc' hpc | waited pc' pipe ms hpc | readable pipe ms hpc | heard pipe ms hpc
  | queued pipe l hpc | direct pipe l hpc | again pipe hpc | early m k hpc | wrong m k hpc
  | accept m k card hpc | played k hpc =>
    exact ⟨rfl, .inr ⟨by rw [hpc]; rfl, rfl, .inl rfl⟩⟩
  | close b => cases b <;> cases h
  | _ => cases h

/-- The parts of `client_poll` in which the permission is `b_was_destined_to_play`. -/
def Kind.destines : Kind → Bool
  | play | parsing | wake => true
  | _ => false

lemma Thread.perm_eq {t : Thread} (h : t.pc.kind.destines = true) :
    t.view.perm = t.bWasDestinedToPlay := by
  unfold View.perm
  rw [show t.view.kind = t.pc.kind from rfl]
  revert h
  cases t.pc.kind <;> intro h <;> first | rfl | cases h

/-- Where the permission of a thread comes from. -/
lemma ThreadMove.permission (hm : ThreadMove sh c t o sh' t') (hsane : t.view.Sane)
    (h : t'.view.perm = true) : t'.seat = t.seat ∧ (t.view.perm = true ∨
      sh.playerTurn = some t.seat ∧ t'.pc.copied = false ∨
      .cardPlay ∈ sh.serverWritePipes t.seat ∧ t'.currentTrick = sh.trickNumber) := by
  -- the flag goes on from one part to the next
  have hkeep : ∀ {t₁ : Thread}, t₁.seat = t.seat → t₁.bWasDestinedToPlay = t.bWasDestinedToPlay →
      t.pc.kind.destines = true → t₁.pc.kind.destines = true → t₁.view.perm = true →
      t₁.seat = t.seat ∧ (t.view.perm = true ∨
        sh.playerTurn = some t.seat ∧ t₁.pc.copied = false ∨
        .cardPlay ∈ sh.serverWritePipes t.seat ∧ t₁.currentTrick = sh.trickNumber) := by
    intro t₁ hseat hd hk hk₁ h
    rw [Thread.perm_eq hk₁, hd, ← Thread.perm_eq hk] at h
    exact ⟨hseat, .inl h⟩
  cases hm with
  | turn i hpc hi ht => exact ⟨rfl, .inr (.inl ⟨ht, rfl⟩)⟩
  | noTurn i hpc =>
    have hno : t.bIsMyTurn = false := hsane.1 (.inr (Thread.kind_eq hpc))
    simp [View.perm, Thread.view, Pc.kind, hno] at h
  | take pc' hpc hs hpc' =>
    have hno : t.bIsMyTurn = false := hsane.1 (.inl (Thread.kind_eq hpc))
    rcases hpc' with ⟨rfl, -⟩ | ⟨rfl, -⟩ <;> simp [View.perm, Thread.view, Pc.kind, hno] at h
  | join hpc =>
    exact ⟨rfl, .inl (by simpa [View.perm, Thread.view, hpc, Pc.kind, Thread.join] using h)⟩
  | byte b rest hpc hp =>
    have hk : t.pc.kind.destines = true := by rw [hpc]; rfl
    cases b with
    | cardPlay => exact ⟨rfl, .inr (.inr ⟨by rw [hp]; exact List.mem_cons_self, rfl⟩)⟩
    | disconnected => cases h
    | barrierResponse =>
      refine hkeep rfl rfl hk ?_ h
      by_cases ho : int16 (sh.occupied + 1) = 4 <;> simp [Thread.gotByte, ho, Pc.kind, Kind.destines]
    | _ => exact hkeep rfl rfl hk rfl h
  | sent l p hpc =>
    cases p with
    | wrong k => cases k <;> exact hkeep rfl rfl (by rw [hpc]; rfl) rfl h
    | busy | replay => cases h
    | joinTrick =>
      exact ⟨rfl, .inl (by simpa [View.perm, Thread.view, hpc, Pc.kind, Thread.sent] using h)⟩
    | cardPlay => exact ⟨rfl, .inl (by simp [View.perm, Thread.view, hpc, Pc.kind])⟩
    | _ => exact hkeep rfl rfl (by rw [hpc]; rfl) rfl h
  | notSent l p => cases p <;> cases h
  | top hpc =>
    refine hkeep rfl rfl (by rw [hpc]; rfl) ?_ h
    by_cases hb : (t.bIsBarrier || sh.bIsBarrierOngoing) = true <;>
      simp [Thread.atLoopTop, hb, Pc.kind, Kind.destines]
  | close b => cases b <;> cases h
  | played k => cases k <;> cases h
  | drained after hpc =>
    rcases hpc with ⟨hpc, rfl⟩ | ⟨hpc, rfl⟩ <;> exact hkeep rfl rfl (by rw [hpc]; rfl) rfl h
  | popped k m q hpc =>
    rcases hpc with ⟨hpc, rfl⟩ | ⟨hpc, rfl⟩ <;> exact hkeep rfl rfl (by rw [hpc]; rfl) rfl h
  | expired pc' hpc _ hpc' =>
    rcases hpc' with rfl | ⟨rfl, -⟩ <;> exact hkeep rfl rfl (by rw [hpc]; rfl) rfl h
  | waited pc' pipe ms hpc _ hpc' =>
    rcases hpc' with rfl | rfl <;> exact hkeep rfl rfl (by rw [hpc]; rfl) rfl h
  | readable pipe ms hpc | heard pipe ms hpc | queued pipe l hpc | direct pipe l hpc
  | again pipe hpc | skip hpc | early m k hpc | wrong m k hpc | woke hpc =>
    exact hkeep rfl rfl (by rw [hpc]; rfl) rfl h
  | _ => cases h

/-! What is sent carries the right number. -/

lemma not_isNumbered_busyLine (seats : List Seat) : ¬IsNumbered (busyLine seats) := by
  rintro (⟨z, hz⟩ | ⟨z, hz⟩ | ⟨z, hz⟩) <;> simp [busyLine] at hz

lemma not_isNumbered_dealLine (dealType : ℕ) (starter : Seat) (cards : List Text) :
    ¬IsNumbered (dealLine dealType starter cards) := by
  rintro (⟨z, hz⟩ | ⟨z, hz⟩ | ⟨z, hz⟩) <;> simp [dealLine] at hz

lemma not_isNumbered_scores (scores : Seat → ℤ) :
    ¬IsNumbered (scoreLine scores) ∧ ¬IsNumbered (totalLine scores) := by
  constructor <;> rintro (⟨z, hz⟩ | ⟨z, hz⟩ | ⟨z, hz⟩) <;> simp [scoreLine, totalLine] at hz

lemma RightNumber.congr {l : Text} {p : Purpose} (h : RightNumber sh l p)
    (hn : sh'.trickNumber = sh.trickNumber) : RightNumber sh' l p := by
  unfold RightNumber at h ⊢
  rwa [hn]

lemma Copies.draft {l : Text} {p : Purpose} (h : Copies sh m.pc t) (hc : TrickCount sh m)
    (hp : PlaysOn sh m.pc m) (ht : Tabled sh m.pc) (hturn : TurnInv sh m.pc v) (hv : v c = t.view)
    (hrefuse : t.refuses = true → t.currentTrick = sh.trickNumber ∧ 1 ≤ sh.trickNumber)
    (hd : Draft sh t l p) (hl : IsNumbered l) : RightNumber sh l p := by
  -- a thread that may play has a current copy, and its turn is open
  have hmay : t.pc.kind.destines = true → t.pc.copied = true → t.bWasDestinedToPlay = true →
      (1 ≤ sh.trickNumber ∧ t.currentTrick = sh.trickNumber) ∧ Open sh m.pc t.seat := by
    intro hk hcopied hdestined
    have hperm := (Thread.perm_eq hk).trans hdestined
    obtain ⟨hpos, hcur⟩ := h.permitted hperm
    exact ⟨⟨hpos, hcur hcopied⟩, hturn.perm_open (c := c) (by rw [hv]; rfl) (by rwa [hv])⟩
  have htrick : Open sh m.pc t.seat → Carries sh.trickNumber (trickLine sh.trickNumber sh.cardsOnTable) :=
    fun ho => .trick _ (TRICKCheck_trickLine ht.cards (hp.table_le ho) _)
  cases hd with
  | busy => exact absurd hl (not_isNumbered_busyLine _)
  | catchUp | deal => exact absurd hl (not_isNumbered_dealLine _ _ _)
  | score => exact absurd hl (not_isNumbered_scores _).1
  | total l total hpc => exact absurd hl (h.total _ _ hpc)
  | replay i cards taker hpc hcards htaker =>
    have hi : i < sh.takenTricks.length := (List.getElem?_eq_some_iff.mp hcards).1
    have hmem : cards ∈ sh.takenTricks := List.mem_of_getElem? hcards
    exact ⟨Nat.succ_pos i, (Nat.succ_le_of_lt hi).trans (hc.taken.trans hc.bound), .taken cards taker
      (TAKENCheck_takenLine (ht.tricks _ hmem) (hp.game.takenInOrder.lengths.2 _ hmem) _ taker)⟩
  | joinTrick i hpc hmine =>
    have hopen : Open sh m.pc t.seat := by
      by_contra hno
      exact (hturn.closed _ hno).2.1 hmine
    exact ⟨hc.turn (by rw [hmine]; exact Option.some_ne_none _), hc.bound, htrick hopen⟩
  | again pipe hpc =>
    obtain ⟨⟨hpos, hcur⟩, hopen⟩ := hmay (by rw [hpc]; rfl) (by rw [hpc]; rfl) (h.again pipe hpc)
    rw [hcur]
    exact ⟨hpos, hc.bound, htrick hopen⟩
  | ask rest hpc hp =>
    have hmem : .cardPlay ∈ sh.serverWritePipes t.seat := by rw [hp]; exact List.mem_cons_self
    have hopen : Open sh m.pc t.seat := by
      by_contra hno
      exact (hturn.closed _ hno).1 hmem
    exact ⟨hc.bytes _ _ (.inl rfl) hmem, hc.bound, htrick hopen⟩
  | taken rest hpc hp =>
    have hmem : .taken ∈ sh.serverWritePipes t.seat := by rw [hp]; exact List.mem_cons_self
    have hcur : t.currentTrick = sh.trickNumber := by
      refine (h.told (by rw [hpc]; rfl) (.inl hmem)).resolve_right fun hbefore => ?_
      simp [hp] at hbefore
    rw [hcur]
    exact ⟨hc.bytes _ _ (.inr rfl) hmem, hc.bound, .taken _ _
      (TAKENCheck_takenLine ht.cards (ht.told _ hmem) _ _)⟩
  | wrong m' k hpc hcheck =>
    have hcur : 1 ≤ sh.trickNumber ∧ t.currentTrick = sh.trickNumber := by
      cases hdestined : t.bWasDestinedToPlay with
      | true => exact (hmay (by rw [hpc]; rfl) (by rw [hpc]; rfl) hdestined).1
      | false => exact (hrefuse (by simp [Thread.refuses, hpc, hcheck, hdestined])).symm
    rw [hcur.2]
    exact ⟨hcur.1, hc.bound, .wrong (WRONGCheck_wrongLine ⟨hcur.1, hc.bound⟩)⟩

lemma ThreadMove.again_destined {pipe : Bool} (hm : ThreadMove sh c t o sh' t')
    (h : t'.pc = .again pipe) : t'.bWasDestinedToPlay = true := by
  cases hm with
  | expired pc' hpc hd => exact hd
  | waited pc' pipe ms hpc hd => exact hd
  | take pc' hpc hs hpc' => rcases hpc' with ⟨rfl, -⟩ | ⟨rfl, -⟩ <;> cases h
  | sent l p =>
    cases p with
    | wrong k => cases k <;> cases h
    | _ => cases h
  | notSent l p => cases p <;> cases h
  | top => by_cases hb : (t.bIsBarrier || sh.bIsBarrierOngoing) = true <;>
      simp [Thread.atLoopTop, hb] at h
  | drained after hpc => rcases hpc with ⟨-, rfl⟩ | ⟨-, rfl⟩ <;> cases h
  | byte b =>
    cases b with
    | barrierResponse =>
      by_cases ho : int16 (sh.occupied + 1) = 4 <;> simp [Thread.gotByte, ho] at h
    | _ => cases h
  | played k => cases k <;> cases h
  | close b => cases b <;> cases h
  | _ => cases h

/-- **A step of a thread keeps its invariant.** -/
lemma Copies.thread (h : Copies sh m.pc t) (hc : TrickCount sh m) (hp : PlaysOn sh m.pc m)
    (ht : Tabled sh m.pc) (hturn : TurnInv sh m.pc v) (hv : v c = t.view) (hsane : t.view.Sane)
    (hrefuse : t.refuses = true → t.currentTrick = sh.trickNumber ∧ 1 ≤ sh.trickNumber)
    (hm : ThreadMove sh c t o sh' t') : Copies sh' m.pc t' := by
  have hf := hm.framed
  refine ⟨fun hperm => ?_, fun hcopied hasked => ?_, fun pipe hpc => ?_, fun l total hl => ?_,
    fun l p hl hnum => ?_⟩
  · rw [hf.trickNumber]
    rcases (hm.permission hsane hperm).2 with hold | ⟨hmine, hno⟩ | ⟨hmem, hcur⟩
    · obtain ⟨hpos, hcur⟩ := h.permitted hold
      refine ⟨hpos, fun hcopied => ?_⟩
      rcases (hm.copy hcopied).2 with hnew | ⟨hcopied₀, he, -⟩
      · exact hnew
      · rw [he]
        exact hcur hcopied₀
    · exact ⟨hc.turn (by rw [hmine]; exact Option.some_ne_none _), fun hcopied => by simp [hno] at hcopied⟩
    · exact ⟨hc.bytes _ _ (.inl rfl) hmem, fun _ => hcur⟩
  · obtain ⟨hseat, hcur⟩ := hm.copy hcopied
    unfold Current
    rw [hf.trickNumber, hseat]
    rw [hseat] at hasked
    rcases hcur with hnew | ⟨hcopied₀, he, hpipe⟩
    · exact .inl hnew
    · have hold : Current sh t := by
        refine h.told hcopied₀ (hasked.imp_left fun hmem => ?_)
        exact (hm.writePipes t.seat).mem hmem
      rw [he]
      refine hold.imp_right fun hmem => ?_
      rcases hpipe with hpipe | ⟨b, hb, hpipe⟩
      · rwa [hpipe]
      · -- the byte read was not the one that refreshes the copy
        rw [hpipe, List.takeWhile_cons] at hmem
        split at hmem
        · rcases List.mem_cons.mp hmem with rfl | hmem
          · exact absurd rfl hb
          · exact hmem
        · cases hmem
  · exact hm.again_destined hpc
  · cases hm.draft hl with
    | score => exact (not_isNumbered_scores _).2
  · exact (h.draft hc hp ht hturn hv hrefuse (hm.draft hl) hnum).congr hf.trickNumber

lemma Copies.still (h : Copies sh pc t) (hn : sh'.trickNumber = sh.trickNumber)
    (hp : t.pc.copied = true → sh'.serverWritePipes t.seat = sh.serverWritePipes t.seat) :
    Copies sh' pc t := by
  refine ⟨?_, fun hcopied hasked => ?_, h.again, h.total,
    fun l p hl hnum => (h.sending l p hl hnum).congr hn⟩
  · rw [hn]
    exact h.permitted
  · unfold Current
    rw [hn, hp hcopied]
    exact h.told hcopied (hasked.imp_left fun hmem => hp hcopied ▸ hmem)

lemma mem_takeWhile_append {α : Type} {p : α → Bool} {x : α} {l : List α} (l' : List α)
    (h : x ∈ l.takeWhile p) : x ∈ (l ++ l').takeWhile p := by
  rw [List.takeWhile_append]
  split
  · exact List.mem_append_left _ ((List.takeWhile_prefix p).mem h)
  · exact h

private lemma tell_new (sh : Shared) (s₀ : Seat) (b : Byte) (s : Seat) : ∃ new,
    (sh.tell s₀ b).serverWritePipes s = sh.serverWritePipes s ++ new ∧ (.taken ∈ new → b = .taken) := by
  by_cases hs : s = s₀
  · subst hs
    exact ⟨[b], by simp, fun h => (List.mem_singleton.mp h).symm⟩
  · exact ⟨[], by simp [hs], fun h => (nomatch h)⟩

/-- What a step of the main thread that leaves the number alone means for the seats. -/
lemma MainMove.asks (hm : MainMove sh m sh' m') (hset : m.pc.setsTrick = false) (s : Seat) :
    sh'.trickNumber = sh.trickNumber ∧
      (∃ new, sh'.serverWritePipes s = sh.serverWritePipes s ++ new ∧
        (.taken ∈ new → m.pc.hasAsked s = true)) ∧
      (m'.pc.hasAsked s = true → m.pc.hasAsked s = true ∨
        m.pc.inTrick = true ∧ sh'.serverWritePipes s = sh.serverWritePipes s ++ [.cardPlay]) := by
  have hsame : ∃ new, sh.serverWritePipes s = sh.serverWritePipes s ++ new ∧
      (.taken ∈ new → m.pc.hasAsked s = true) := ⟨[], by simp, fun h => (nomatch h)⟩
  have htell : ∀ s₀ b, (b = .taken → m.pc.hasAsked s = true) → ∃ new,
      (sh.tell s₀ b).serverWritePipes s = sh.serverWritePipes s ++ new ∧
        (.taken ∈ new → m.pc.hasAsked s = true) := by
    intro s₀ b hb
    obtain ⟨new, he, hnew⟩ := tell_new sh s₀ b s
    exact ⟨new, he, fun h => hb (hnew h)⟩
  cases hm with
  | start hpc | trick hpc =>
    rw [hpc] at hset
    cases hset
  | turnSend s₀ rest hpc =>
    refine ⟨rfl, htell _ _ (by simp), fun h => ?_⟩
    rw [hpc]
    by_cases hs : s = s₀
    · subst hs
      exact .inr ⟨rfl, by simp⟩
    · left
      simp only [Main.goto_pc, MainPc.hasAsked, decide_eq_true_eq] at h ⊢
      simp [hs, h]
  | announce b s₀ left hpc =>
    cases b with
    | taken => exact ⟨rfl, htell _ _ fun _ => by rw [hpc]; rfl, fun _ => .inl (by rw [hpc]; rfl)⟩
    | _ => exact ⟨rfl, htell _ _ nofun, fun h => (nomatch h)⟩
  | announceLast b s₀ hpc =>
    cases b with
    | taken => exact ⟨rfl, htell _ _ fun _ => by rw [hpc]; rfl, fun h => (nomatch h)⟩
    | _ => exact ⟨rfl, htell _ _ nofun, fun h => (nomatch h)⟩
  | releaseLast s₀ r hpc =>
    refine ⟨rfl, htell _ _ (by simp), fun h => .inl ?_⟩
    rw [hpc]
    exact m.afterBarrier_pc (P := fun r pc => pc.hasAsked s = true → r.hasAsked s = true) r
      (fun h => h) (fun _ _ _ _ h => h) (fun h => h) (fun h => h) (fun h => h) h
  | ask s₀ left r hpc | askLast s₀ r hpc | resend s₀ ready r hpc | release s₀ left r hpc
  | closeSeat s₀ left e w hpc =>
    exact ⟨rfl, htell _ _ (by simp), fun h => .inl (by rw [hpc]; exact h)⟩
  | reset r hpc | poll ready r hpc | lost s₀ ready r rest hpc | woken s₀ ready r rest hpc
  | stay r hpc | pass r hpc | cardPoll s₀ rest ready hpc | gotCard s₀ rest ready got left hpc
  | lostPlayer s₀ j rest ready got left hpc | waitOn s₀ rest hpc | nextTurn s₀ rest hpc
  | turnSet s₀ rest hpc =>
    exact ⟨rfl, hsame, fun h => .inl (by rw [hpc]; exact h)⟩
  | lastTurn s₀ hpc => exact ⟨rfl, hsame, fun _ => .inl (by rw [hpc]; rfl)⟩
  | trickEnd _ _ _ hpc => exact ⟨rfl, hsame, fun _ => .inl (by rw [hpc]; rfl)⟩
  | badBarrier | badDeal | gameOver | load | dealEnd | close => exact ⟨rfl, hsame, fun h => (nomatch h)⟩

/-- **A step of the main thread keeps the invariant of every thread.** -/
lemma Copies.main (h : Copies sh m.pc t) (hc : TrickCount sh m) (hm : MainMove sh m sh' m')
    (hset : m.pc.setsTrick = true → .taken ∉ sh.serverWritePipes t.seat ∧ t.view.perm = false ∧
      t.tells = false) : Copies sh' m'.pc t := by
  cases hs : m.pc.setsTrick with
  | false =>
    obtain ⟨hn, ⟨new, hpipe, hnew⟩, hasked⟩ := hm.asks hs t.seat
    refine ⟨by rw [hn]; exact h.permitted, fun hcopied hask => ?_, h.again, h.total,
      fun l p hl hnum => (h.sending l p hl hnum).congr hn⟩
    have hcases : (.taken ∈ sh.serverWritePipes t.seat ∨ m.pc.hasAsked t.seat = true) ∨
        m.pc.inTrick = true ∧
          sh'.serverWritePipes t.seat = sh.serverWritePipes t.seat ++ [.cardPlay] := by
      rcases hask with hmem | hask
      · rw [hpipe, List.mem_append] at hmem
        exact .inl (hmem.imp_right hnew)
      · exact (hasked hask).imp_left .inr
    unfold Current
    rw [hn]
    rcases hcases with hold | ⟨hin, hasks⟩
    · refine (h.told hcopied hold).imp_right fun hmem => ?_
      rw [hpipe]
      exact mem_takeWhile_append new hmem
    · -- no trick has ended, so no `TAKEN` byte stands before the `CARD_PLAY` byte
      right
      have hno := (hc.inTrick hin).2 t.seat
      rw [hasks, List.takeWhile_append_of_pos, List.mem_append]
      · exact .inr (by simp)
      · intro b hb
        simpa using fun he : b = .taken => hno (he ▸ hb)
  | true =>
    obtain ⟨htaken, hperm, htells⟩ := hset hs
    have hpipe : sh'.serverWritePipes t.seat = sh.serverWritePipes t.seat ∧
        m'.pc.hasAsked t.seat = false := by
      cases hm with
      | start => exact ⟨rfl, rfl⟩
      | trick => exact ⟨rfl, by simp [MainPc.hasAsked, Seat.mem_order]⟩
      | _ => simp_all [MainPc.setsTrick]
    refine ⟨fun hp => ?_, fun _ hask => ?_, h.again, h.total, fun l p hl hnum => ?_⟩
    · simp [hperm] at hp
    · rw [hpipe.1, hpipe.2] at hask
      simp [htaken] at hask
    · cases p with
      | replay i => exact h.sending l _ hl hnum
      | _ => simp [Thread.tells, hl, hnum] at htells

end Thread

/-! ### The copies and the history -/

/-- **The invariant of a copy**: it is current if `run_deal` has set no number since. -/
structure Tracked (sh : Shared) (h : Numberings) (c : ℕ) (t : Thread) : Prop where
  bound : h.copied c ≤ h.sets
  current : t.pc.copied = true → h.copied c = h.sets → t.currentTrick = sh.trickNumber

section Tracked

variable {sh sh' : Shared} {m m' : Main} {h h' : Numberings} {c c' : ℕ} {t t' : Thread} {o : Outcome}

lemma ThreadMove.copies (hm : ThreadMove sh c t o sh' t') (hcopies : t.copiesTrick sh = true)
    (hcopied : t'.pc.copied = true) : t'.currentTrick = sh.trickNumber := by
  unfold Thread.copiesTrick at hcopies
  split at hcopies
  case h_1 hpc =>
    cases hm with
    | top => rfl
    | leave => cases hcopied
    | _ => simp_all
  case h_2 hpc =>
    cases hm with
    | byte b rest _ hp =>
      obtain rfl : b = .cardPlay := by simpa [hp] using hcopies
      rfl
    | leave => cases hcopied
    | _ => simp_all
  case h_3 => cases hcopies

lemma Tracked.thread (ht : Tracked sh h c t) (hm : ThreadMove sh c t o sh' t') :
    Tracked sh' (h.thread sh c t) c t' := by
  rw [Numberings.thread]
  cases hcopies : t.copiesTrick sh with
  | true =>
    refine ⟨by simp, fun hcopied _ => ?_⟩
    rw [hm.framed.trickNumber]
    exact hm.copies hcopies hcopied
  | false =>
    refine ⟨ht.bound, fun hcopied he => ?_⟩
    rw [hm.framed.trickNumber]
    rcases (hm.copy hcopied).2 with hnew | ⟨hcopied₀, hsame, -⟩
    · exact hnew
    · exact hsame.trans (ht.current hcopied₀ he)

lemma Tracked.other (ht : Tracked sh h c' t') (hc : c' ≠ c) (hn : sh'.trickNumber = sh.trickNumber) :
    Tracked sh' (h.thread sh c t) c' t' := by
  have hsame : (h.thread sh c t).copied c' = h.copied c' ∧ (h.thread sh c t).sets = h.sets := by
    unfold Numberings.thread
    split
    · exact ⟨Function.update_of_ne hc _ _, rfl⟩
    · exact ⟨rfl, rfl⟩
  refine ⟨by rw [hsame.1, hsame.2]; exact ht.bound, ?_⟩
  rw [hsame.1, hsame.2, hn]
  exact ht.current

lemma MainMove.sets (hm : MainMove sh m sh' m') :
    (m.pc.setsTrick = false ∧ h.main m = h ∧ sh'.trickNumber = sh.trickNumber) ∨
    (m.pc.setsTrick = true ∧ (h.main m).sets = h.sets + 1 ∧ (h.main m).copied = h.copied ∧
      ((h.main m).begun = true → 1 ≤ sh'.trickNumber)) := by
  cases hm with
  | start hpc => exact .inr (by simp [Numberings.main, MainPc.setsTrick, hpc])
  | trick hpc => exact .inr (by simp [Numberings.main, MainPc.setsTrick, hpc])
  | _ => exact .inl (by simp [Numberings.main, MainPc.setsTrick, Main.loadDeal, Main.endDeal, *])

lemma Tracked.main (ht : Tracked sh h c t) (hm : MainMove sh m sh' m') : Tracked sh' (h.main m) c t := by
  rcases hm.sets (h := h) with ⟨-, hsame, hn⟩ | ⟨-, hsets, hcopied, -⟩
  · rw [hsame]
    exact ⟨ht.bound, by rw [hn]; exact ht.current⟩
  · refine ⟨by rw [hcopied, hsets]; exact ht.bound.trans (Nat.le_succ _), fun _ he => ?_⟩
    -- the copy is older than this number
    rw [hcopied, hsets] at he
    have := ht.bound
    omega

end Tracked

/-! ### The runs -/

/-- Every `TRICK`, `WRONG` or `TAKEN` line a thread is sending carries the right number. -/
def NumbersTricks (st : State) : Prop :=
  ∀ c l p, (st.threads c).pc = .send l p → IsNumbered l → RightNumber st.sh l p

section Runs

variable {timeout : ℤ} {deals : List Deal} {st st' : State} {a : Act}

/-- **The invariant of the numbers.** -/
structure Numbered (st : State) (h : Numberings) : Prop where
  tricks : TrickCount st.sh st.main
  table : Tabled st.sh st.main.pc
  begun : h.begun = true → 1 ≤ st.sh.trickNumber
  tracked : ∀ c, Tracked st.sh h c (st.threads c)
  copies : ∀ c, Copies st.sh st.main.pc (st.threads c)

/-- What is known of the states of the guarded runs. -/
structure KnownTurn (st : State) : Prop where
  seated : Seated st.sh st.view
  sane : ∀ c, (st.view c).Sane
  numbered : st.Numbered
  turn : TurnInv st.sh st.main.pc st.view
  plays : PlaysOn st.sh st.main.pc st.main

lemma knownTurn (h : RunsTo TurnGuarded timeout deals st) : KnownTurn st :=
  ⟨seated h, sane h, numbered h, turnInv h, playsOn h⟩

variable {h : Numberings}

lemma Numbered.main {ready : List Seat} (hi : Numbered st h) (hk : KnownTurn st)
    (hok : NumbersGuarded (st, h) (.main ready)) (hm : MainMove st.sh st.main st'.sh st'.main)
    (hthreads : st'.threads = st.threads) : Numbered st' (h.main st.main) := by
  -- where a number is set nobody has the turn
  have hclosed : st.main.pc.setsTrick = true → ∀ s, ¬Open st.sh st.main.pc s := by
    intro hset s ho
    have hw := ho.1
    revert hset hw
    cases st.main.pc <;> simp [MainPc.setsTrick, MainPc.wait]
  have hset : st.main.pc.setsTrick = true → (∀ s, .cardPlay ∉ st.sh.serverWritePipes s ∧
      .taken ∉ st.sh.serverWritePipes s) ∧ st.sh.playerTurn = none := by
    refine fun hset => ⟨fun s => ⟨(hk.turn.closed s (hclosed hset s)).1, (hok hset).1 s⟩, ?_⟩
    by_contra hne
    obtain ⟨s, hs⟩ := Option.ne_none_iff_exists'.mp hne
    exact (hk.turn.closed s (hclosed hset s)).2.1 hs
  refine ⟨hi.tricks.main hm hset, hi.table.main hk.plays hm fun hs => (hok hs).1, fun hb => ?_, fun c => ?_,
    fun c => ?_⟩
  · rcases hm.sets (h := h) with ⟨-, hsame, hn⟩ | ⟨-, -, -, hpos⟩
    · rw [hn]
      exact hi.begun (hsame ▸ hb)
    · exact hpos hb
  · rw [hthreads]
    exact (hi.tracked c).main hm
  · rw [hthreads]
    refine (hi.copies c).main hi.tricks hm fun hs => ⟨(hok hs).1 _, ?_, ?_⟩
    · exact (hk.turn.closed _ (hclosed hs _)).2.2.2 c rfl
    · rcases lt_or_ge c st.threadId with hlt | hge
      · exact (hok hs).2 c hlt
      · simp [Thread.tells, hk.numbered c hge]

lemma Numbered.thread {c : ℕ} {o : Outcome} (hi : Numbered st h) (hk : KnownTurn st)
    (hok : NumbersGuarded (st, h) (.thread c o))
    (hm : ThreadMove st.sh c (st.threads c) o st'.sh (st'.threads c)) (hmain : st'.main = st.main)
    (hthreads : ∀ c' ≠ c, st'.threads c' = st.threads c') :
    Numbered st' (h.thread st.sh c (st.threads c)) := by
  have hn := hm.framed.trickNumber
  have hbegun : (h.thread st.sh c (st.threads c)).begun = h.begun := by
    unfold Numberings.thread
    split <;> rfl
  refine ⟨by rw [hmain]; exact hi.tricks.thread hm,
    by rw [hmain]; exact hi.table.thread hk.plays hk.turn rfl hm,
    by rw [hbegun, hn]; exact hi.begun, fun c' => ?_, fun c' => ?_⟩
  · by_cases hcc : c' = c
    · subst hcc
      exact (hi.tracked c').thread hm
    · rw [hthreads c' hcc]
      exact (hi.tracked c').other hcc hn
  · rw [hmain]
    by_cases hcc : c' = c
    · subst hcc
      refine (hi.copies c').thread hi.tricks hk.plays hi.table hk.turn rfl (hk.sane c') (fun hr => ?_) hm
      obtain ⟨hb, he⟩ := hok.2 hr
      refine ⟨(hi.tracked c').current ?_ he, hi.begun hb⟩
      exact Thread.copied_of_refuses hr
    · rw [hthreads c' hcc]
      refine (hi.copies c').still hn fun hcopied => hm.pipe_of_other fun hholds hseat => hcc ?_
      exact hk.seated.holder_unique (Kind.holds_of_polls (Pc.polls_of_copied hcopied)) hholds hseat

/-- **Every guarded step keeps the invariant.** -/
lemma Numbered.step (hi : Numbered st h) (hk : KnownTurn st) (hok : NumbersGuarded (st, h) a)
    (hs : Serwer.step st a = some st') : Numbered st' (Numberings.note st a st' h) := by
  obtain ⟨ready, rfl, hm, hthreads⟩ | ⟨fd, rfl, hsh, hmain, hthreads⟩ |
    ⟨c, o, rfl, hm, hmain, hthreads⟩ := step_moves hs
  · exact hi.main hk hok hm hthreads
  · refine ⟨by rw [hsh, hmain]; exact hi.tricks, by rw [hsh, hmain]; exact hi.table,
      by rw [hsh]; exact hi.begun, fun c => ?_, fun c => ?_⟩
    · rw [hsh, hthreads]
      refine ⟨(hi.tracked c).bound, fun hcopied => ?_⟩
      by_cases hcc : c = st.threadId
      · subst hcc
        rw [Function.update_self] at hcopied
        cases hcopied
      · rw [Function.update_of_ne hcc] at hcopied ⊢
        exact (hi.tracked c).current hcopied
    · rw [hsh, hmain, hthreads]
      by_cases hcc : c = st.threadId
      · subst hcc
        rw [Function.update_self]
        exact ⟨fun hp => (by cases hp), fun hp => (by cases hp), by simp, by simp, by simp⟩
      · rw [Function.update_of_ne hcc]
        exact hi.copies c
  · exact hi.thread hk hok hm hmain hthreads

/-- **The lines carry the number of the trick in progress, and the clients can accept them**, in the
runs in which nobody has the permission to play twice, `trick_number` is set when the trick before has
been told, and a card out of turn is answered before the next number is set. -/
theorem trick_numbers_right
    (hr : Reach (record step Numberings.note) NumbersGuarded (init timeout deals, {}) (st, h)) :
    NumbersTricks st := by
  have hinv := Reach.invariant_with (I := fun p : State × Numberings => Numbered p.1 p.2)
    (J := fun p => KnownTurn p.1) (fun p hp => ?_) ?_ (fun p a p' hk hi hok hs => ?_) hr
  · exact fun c l p hl hnum => (hinv.copies c).sending l p hl hnum
  · have hreach : RunsTo TurnGuarded timeout deals p.1 := hp.forget fun _ _ hok => hok.turn
    exact knownTurn hreach
  · refine ⟨⟨fun _ hn => (by cases hn), Nat.zero_le _, le_rfl, fun hpc => (by cases hpc),
      fun hin => (by cases hin), fun _ _ _ hmem => (by cases hmem), fun hturn => absurd rfl hturn⟩,
      ⟨fun _ hc => (by cases hc), fun _ hc => (by cases hc), fun _ hmem => (by cases hmem),
        fun _ hpc => (by cases hpc), fun hu => (by cases hu)⟩, fun hb => (by cases hb),
      fun c => ⟨le_rfl, fun hcopied => (by cases hcopied)⟩, fun c => ?_⟩
    exact ⟨fun hp => (by cases hp), fun hp => (by cases hp), by simp [init], by simp [init],
      by simp [init]⟩
  · obtain ⟨hs, hh⟩ := record_eq_some.mp hs
    rw [hh]
    exact hi.step hk hok hs

/-- `N` is asked for the first card, and `E` sends a card out of turn. -/
theorem trick_numbers_right_first : ∃ st h,
    Reach (record step Numberings.note) NumbersGuarded (init 5000 [suitsDeal], {}) (st, h) ∧
    (st.threads 0).pc = .send (trickLine 1 []) .cardPlay ∧
    (st.threads 1).pc = .send (wrongLine 1) (.wrong (.pipe false)) ∧ NumbersTricks st := by
  obtain ⟨st, h, hr, hp⟩ := exists_recorded Numberings.note {} NumbersGuarded [suitsDeal]
    (opening ++ mains 8 ++ hears 0 3 ++ hears 0 3 ++ hears 0 0 ++ hears 1 3 ++ hears 1 3 ++
      sends 1 (trickLine 1 [['2', 'D']]) false 1)
    (fun p => decide ((p.1.threads 0).pc = .send (trickLine 1 []) .cardPlay ∧
      (p.1.threads 1).pc = .send (wrongLine 1) (.wrong (.pipe false)))) (by decide +kernel)
  obtain ⟨htrick, hwrong⟩ := of_decide_eq_true hp
  exact ⟨st, h, hr, htrick, hwrong, trick_numbers_right hr⟩

/-- The first trick is over. The thread of `E` leaves the barrier before the second one begins, and
its client sends a card out of turn. -/
def earlyCard : List Act :=
  firstTrick ++ acksTrick 0 1 ++ acksTrick 1 1 ++ acksTrick 2 1 ++ acksTrick 3 2 ++
  [.main [.W]] ++ mains 6 ++ hears 1 3 ++ mains 1 ++ sends 1 (trickLine 2 [['3', 'D']]) false 1

/-- **Answers with a number that is not that of the trick**: `WRONG0` before the first trick, which
passes no check, and `WRONG1` in the second. -/
theorem wrong_numbers :
    (∃ st, Reachable 5000 [suitsDeal] st ∧
      (st.threads 0).pc = .send (wrongLine 0) (.wrong .drainEnd) ∧
      WRONGCheck (wrongLine 0) = false ∧ ¬NumbersTricks st) ∧
    ∃ st, Reachable 5000 [suitsDeal] st ∧
      (st.threads 1).pc = .send (wrongLine 1) (.wrong (.pipe false)) ∧ st.sh.trickNumber = 2 ∧
      ¬NumbersTricks st := by
  constructor
  · -- `N`'s client sends a card before the barrier ends
    obtain ⟨st, hr, hp⟩ := exists_run (fun _ _ => True) [suitsDeal]
      (opening ++ sends 0 (trickLine 1 [['2', 'C']]) true 3)
      (fun st => decide ((st.threads 0).pc = .send (wrongLine 0) (.wrong .drainEnd) ∧
        st.sh.trickNumber = 0)) (by decide +kernel)
    obtain ⟨hpc, hn⟩ := of_decide_eq_true hp
    refine ⟨st, hr, hpc, by decide +kernel, fun h => ?_⟩
    have hpos := (h 0 _ _ hpc (by decide)).1
    omega
  · obtain ⟨st, hr, hp⟩ := exists_run (fun _ _ => True) [suitsDeal] earlyCard
      (fun st => decide ((st.threads 1).pc = .send (wrongLine 1) (.wrong (.pipe false)) ∧
        st.sh.trickNumber = 2)) (by decide +kernel)
    obtain ⟨hpc, hn⟩ := of_decide_eq_true hp
    refine ⟨st, hr, hpc, hn, fun h => ?_⟩
    have hcarries := (h 1 _ _ hpc (by decide)).2.2
    rw [hn] at hcarries
    generalize hl : wrongLine 1 = l at hcarries
    cases hcarries with
    | trick cards => simp [wrongLine, trickLine] at hl
    | wrong => exact absurd hl (by decide)
    | taken cards taker => simp [wrongLine, takenLine] at hl

end Runs

end Kierki.Serwer
