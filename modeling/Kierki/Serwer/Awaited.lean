import Kierki.Serwer.Pipes

/-!
# What the main thread waits for

When every client stays, the main thread never waits for a byte that nobody will write: with the count
at four the byte that wakes `barrier` is underway, and with a card accepted the byte that announces it;
a pipe that was found ready still holds its byte; and no thread is left out when the server closes.
-/

namespace Kierki.Serwer

open Lib.Lts

/-- **What is awaited will come.** -/
structure Awaited (sh : Shared) (pc : MainPc) (v : ℕ → View) : Prop where
  settled : ∀ s, owed s sh.log = 0
  full : pc.counting = true → pc.sampling = false → sh.occupied = 4 → Underway sh v .barrierResponse
  card : pc.wait ≠ none → pc.got = false → acceptedSinceTurn sh.log = true → Underway sh v .cardPlay
  filled : ∀ s, sh.seatsStatus s = -1 → pc.opening = true
  parting : ∀ left e w, pc = .closeSeats left e w → ∀ c, (v c).kind.holds = true →
    (v c).kind ≠ .leaving true → (v c).seat ∉ left → .disconnected ∈ sh.serverWritePipes (v c).seat

section Thread

variable {sh sh' : Shared} {pc : MainPc} {m : Main} {v : ℕ → View} {c : ℕ} {t : Thread} {o : Outcome}
  {v' : View} {b : Byte}

lemma Move.hands (hm : Move sh c t o sh' v') (hb : b ≠ .disconnected)
    (hstay : v'.kind ≠ .leaving false) (hk : t.view.kind.byte = some b) :
    v'.kind.byte = some b ∨ b ∈ sh'.serverReadPipes t.seat := by
  have hno : ∀ {k : Kind}, t.view.kind = k → k.byte = none → False := by
    rintro k rfl hnone
    rw [hnone] at hk
    cases hk
  cases hm with
  | played k hk' =>
    rw [hk'] at hk
    cases hk
    exact .inr (by simp)
  | wake hk' =>
    rw [hk'] at hk
    cases hk
    exact .inr (by simp)
  | reported hk' | unreported hk' =>
    rw [hk'] at hk
    cases hk
    exact absurd rfl hb
  | leave => exact absurd rfl hstay
  | quiet | iam | top | inform | ack => exact .inl hk
  | lost hk' => rcases hk' with hk' | hk' <;> exact (hno hk' rfl).elim
  | _ => exact (hno ‹_› rfl).elim

lemma Underway.thread (h : Underway sh v b) (hv : v c = t.view) (hm : Move sh c t o sh' v')
    (hb : b ≠ .disconnected) (hstay : v'.kind ≠ .leaving false) :
    Underway sh' (Function.update v c v') b := by
  rcases h with ⟨s, hs⟩ | ⟨c', hk⟩
  · refine .inl ⟨s, ?_⟩
    rcases hm.writes with hp | ⟨b', -, hp, -⟩
    · rwa [hp]
    · rw [hp, ← List.count_pos_iff, Shared.count_report]
      rw [← List.count_pos_iff] at hs
      omega
  · by_cases hcc : c' = c
    · subst hcc
      rw [hv] at hk
      rcases hm.hands hb hstay hk with hk' | hr
      · exact .inr ⟨c', by rwa [Function.update_self]⟩
      · exact .inl ⟨_, hr⟩
    · exact .inr ⟨c', by rwa [Function.update_of_ne hcc]⟩

lemma Move.fourth (hm : Move sh c t o sh' v') (hl : t.view.kind ≠ .leaving true)
    (hl' : t.view.kind ≠ .leaving false) (ho : sh'.occupied = 4) :
    sh.occupied = 4 ∨ v'.kind.byte = some .barrierResponse := by
  cases hm with
  | ack rest hk hp hne => exact absurd ho hne
  | ackLast => exact .inr rfl
  | dismiss hpc hk => exact absurd hk hl
  | release hpc hk => exact absurd hk hl'
  | _ => exact .inl ho

lemma Move.announces (hm : Move sh c t o sh' v') (ha : acceptedSinceTurn sh'.log = true) :
    acceptedSinceTurn sh.log = true ∨ v'.kind.byte = some .cardPlay := by
  cases hm with
  | accept => exact .inr rfl
  | _ => exact .inl ha

lemma Move.owes (hm : Move sh c t o sh' v') (hl : t.view.kind ≠ .leaving false) (s : Seat) :
    owed s sh'.log = owed s sh.log := by
  cases hm with
  | release hpc hk => exact absurd hk hl
  | _ => rfl

lemma Move.parts (hm : Move sh c t o sh' v') (hk : v'.kind.holds = true)
    (hk' : v'.kind ≠ .leaving true) (hseat : sh.seatsStatus t.seat ≠ -1) :
    t.view.kind.holds = true ∧ t.view.kind ≠ .leaving true ∧ v'.seat = t.seat ∧
      (.disconnected ∈ sh.serverWritePipes t.seat → .disconnected ∈ sh'.serverWritePipes t.seat) := by
  have hheard : ∀ {b₀ : Byte} {rest : List Byte}, sh.serverWritePipes t.seat = b₀ :: rest →
      b₀ ≠ .disconnected → .disconnected ∈ sh.serverWritePipes t.seat →
      .disconnected ∈ (sh.heard t.seat rest).serverWritePipes t.seat := by
    intro b₀ rest hp hne hmem
    rw [hp, List.mem_cons] at hmem
    simpa using hmem.resolve_left hne.symm
  cases hm with
  | ask rest hk₀ hp | ack rest hk₀ hp | ackLast rest hk₀ hp | unbar rest hpc hk₀ hp =>
    exact ⟨by rw [hk₀]; rfl, by rw [hk₀]; simp, rfl, hheard hp (by simp)⟩
  | inform b rest hk₀ hp hb =>
    refine ⟨by rw [hk₀]; rfl, by rw [hk₀]; simp, rfl, hheard hp ?_⟩
    rcases hb with rfl | rfl | rfl <;> simp
  | dismissed => exact absurd rfl hk'
  | take k hpc hk₀ hs => exact absurd hs hseat
  | quiet | top => exact ⟨hk, hk', rfl, id⟩
  | iam s l hk₀ =>
    have : t.view.kind.holds = true := hk
    rw [hk₀] at this
    cases this
  | stop | lost | release | dismiss | reported | unreported => cases hk
  | leave hk₀ =>
    refine ⟨Kind.holds_of_polls hk₀, fun hleaving => ?_, rfl, id⟩
    rw [hleaving] at hk₀
    cases hk₀
  | played k hk₀ | test hk₀ | topDrain hk₀ | parse hk₀ | parsed hk₀ | accept card hk₀ | asked hk₀
  | wake hk₀ | join hpc hk₀ => exact ⟨by rw [hk₀]; rfl, by rw [hk₀]; simp, rfl, id⟩

/-- **A seat thread keeps it.** -/
theorem Awaited.thread (h : Awaited sh m.pc v) (hseats : Seated sh v) (hcount : Counted sh m v)
    (hst : Staying sh m.pc v) (hst' : Staying sh' m.pc (Function.update v c v'))
    (hv : v c = t.view) (hm : Move sh c t o sh' v') :
    Awaited sh' m.pc (Function.update v c v') := by
  have hstay : t.view.kind ≠ .leaving false := hv ▸ (hst.threads c).1
  have hstay' : v'.kind ≠ .leaving false := by
    have := (hst'.threads c).1
    rwa [Function.update_self] at this
  have hself : ∀ {b : Byte}, v'.kind.byte = some b → Underway sh' (Function.update v c v') b :=
    fun hb => .inr ⟨c, by rwa [Function.update_self]⟩
  have hstatus : ∀ s, sh'.seatsStatus s = -1 → sh.seatsStatus s = -1 := by
    intro s hs
    rcases hm.seats with ⟨hsame, -⟩ | ⟨-, -, hsame, -⟩ | ⟨hpc, -⟩
    · rwa [hsame] at hs
    · rw [hsame] at hs
      by_cases hst : s = t.seat
      · subst hst
        rw [Function.update_self] at hs
        have := hseats.clientFd c
        rw [hv] at this
        exact absurd (hs ▸ this : (0 : ℤ) ≤ -1) (by omega)
      · rwa [Function.update_of_ne hst] at hs
    · exact absurd (Thread.kind_eq hpc) hstay
  refine ⟨fun s => (hm.owes hstay s).trans (h.settled s), fun hc hs ho => ?_, fun hw hg ha => ?_,
    fun s hs => h.filled s (hstatus s hs), fun left e w hpc c' hk hk' hleft => ?_⟩
  · have hleaving : t.view.kind ≠ .leaving true := by
      intro hk
      have := hcount.leaving c (by rw [hv, hk])
      rw [MainPc.closing_of_counting hc] at this
      cases this
    rcases hm.fourth hleaving hstay ho with ho | hb
    · exact (h.full hc hs ho).thread hv hm (by simp) hstay'
    · exact hself hb
  · rcases hm.announces ha with ha | hb
    · exact (h.card hw hg ha).thread hv hm (by simp) hstay'
    · exact hself hb
  · -- every seat is taken when the server closes
    have htaken : ∀ s, sh.seatsStatus s ≠ -1 := by
      intro s hs
      have := h.filled s hs
      rw [hpc] at this
      cases this
    by_cases hcc : c' = c
    · subst hcc
      rw [Function.update_self] at hk hk' hleft ⊢
      obtain ⟨hk₀, hk₀', hseat, hkeep⟩ := hm.parts hk hk' (htaken _)
      rw [hseat] at hleft ⊢
      refine hkeep ?_
      have := h.parting left e w hpc c' (by rwa [hv]) (by rwa [hv]) (by rwa [hv])
      rwa [hv] at this
    · rw [Function.update_of_ne hcc] at hk hk' hleft ⊢
      have hmem := h.parting left e w hpc c' hk hk' hleft
      rcases hm.mode with ⟨hp, -⟩ | ⟨b, rest, hplay, -, hp, -⟩
      · rwa [hp]
      · have hne : (v c').seat ≠ t.seat := by
          intro hseat
          refine hcc (hseats.holder_unique hk ?_ (by rw [hseat, hv]; rfl))
          rw [hv, hplay]
          rfl
        rwa [hp, Function.update_of_ne hne]

end Thread

section Main

variable {sh sh' : Shared} {m m' : Main} {v : ℕ → View} {b : Byte}

lemma Underway.still (h : Underway sh v b) (hr : sh'.serverReadPipes = sh.serverReadPipes) :
    Underway sh' v b := by
  unfold Underway
  rwa [hr]

/-- **The main thread keeps it.** -/
theorem Awaited.main (h : Awaited sh m.pc v) (hseats : Seated sh v) (hcount : Counted sh m v)
    (hst : Staying sh m.pc v) (hu : Understood sh m.pc v) (hw : Woken sh m.pc v)
    (hm : MainMove sh m sh' m') : Awaited sh' m'.pc v := by
  have hsane := hu.sane_next hm
  have hstatus := hm.seats.1
  -- the points behind `barrier`
  have hafter : ∀ r, m.pc.caller = some r → (m.afterBarrier r).pc.counting = false ∧
      (m.afterBarrier r).pc.wait = none ∧ ∀ left e w, (m.afterBarrier r).pc ≠ .closeSeats left e w := by
    intro r hr
    exact m.afterBarrier_pc r
      (P := fun r pc => r.wait = none → pc.counting = false ∧ pc.wait = none ∧
        ∀ left e w, pc ≠ .closeSeats left e w)
      (fun _ => ⟨rfl, rfl, by simp⟩) (fun _ _ _ _ hw => (by cases hw)) (fun _ => ⟨rfl, rfl, by simp⟩)
      (fun _ => ⟨rfl, rfl, by simp⟩) (fun _ => ⟨rfl, rfl, by simp⟩) (hst.caller r hr)
  have hsettled : ∀ s, owed s sh'.log = 0 := by
    intro s
    cases hm with
    | reset r hpc => rfl
    | resend s₀ ready r hpc =>
      have := hst.answering
      rw [hpc] at this
      cases this
    | _ => exact h.settled s
  have hfilled : ∀ s, sh'.seatsStatus s = -1 → m'.pc.opening = true := by
    intro s hs
    rw [hstatus] at hs
    have hopen := h.filled s hs
    rcases hm.opening (.inl hopen) with ⟨-, hopen' | hclose⟩ | ⟨hc, hpass⟩
    · exact hopen'
    · rcases hm.closes hclose with hclose' | hpc | hconfused
      · revert hopen hclose'
        cases m.pc <;> simp [MainPc.opening, MainPc.closing]
      · rw [hpc] at hopen
        cases hopen
      · exact absurd hconfused hsane
    · exact absurd hs ((hcount.balanced hc).seats_taken hseats hpass s)
  refine ⟨hsettled, ?_, ?_, hfilled, ?_⟩
  · intro hc hs ho
    cases hm with
    | reset r hpc => cases ho
    | ask s left r hpc | askLast s r hpc | poll ready r hpc =>
      exact (h.full (by rw [hpc]; rfl) (by rw [hpc]; rfl) ho).still rfl
    | lost s ready r rest hpc hp => exact (hst.silent s (by simp [hp])).elim
    | woken s ready r rest hpc hp =>
      obtain ⟨rfl, -⟩ := hw.scanning s ready r hpc
      cases hs
    | stay r hpc hwait =>
      rw [(hw.scanned r hpc).1] at hwait
      exact absurd hwait (by decide)
    | resend s ready r hpc =>
      have := hst.answering
      rw [hpc] at this
      cases this
    | releaseLast s r hpc =>
      rw [(hafter r (by rw [hpc]; rfl)).1] at hc
      cases hc
    | announceLast b => cases b <;> cases hc
    | _ => cases hc
  · intro hwait hgot hacc
    cases hm with
    | reset r hpc | ask s left r hpc | askLast s r hpc | poll ready r hpc | lost s ready r rest hpc
    | woken s ready r rest hpc | stay r hpc | pass r hpc | release s left r hpc =>
      exact absurd (hst.caller r (by rw [hpc]; rfl)) hwait
    | resend s ready r hpc => exact absurd (hst.caller r (by rw [hpc]; rfl)) hwait
    | releaseLast s r hpc => exact absurd (hafter r (by rw [hpc]; rfl)).2.1 hwait
    | badBarrier => exact absurd (.inl rfl) hsane
    | badDeal => exact absurd (.inr rfl) hsane
    | lostPlayer s j rest ready got left hpc hp => exact (hst.silent j (by simp [hp])).elim
    | announceLast b => cases b <;> exact absurd rfl hwait
    | turnSet s rest hpc => cases hacc
    | turnSend s rest hpc | cardPoll s rest ready hpc =>
      exact (h.card (by rw [hpc]; simp [MainPc.wait]) (by rw [hpc]; rfl) hacc).still rfl
    | gotCard s rest ready got left hpc => cases hgot
    | waitOn s rest hpc =>
      exact (h.card (by rw [hpc]; simp [MainPc.wait]) (by rw [hpc]; rfl) hacc).still rfl
    | close e w hpc =>
      exact (h.card (by rw [hpc]; exact hwait) (by rw [hpc]; rfl) hacc).still rfl
    | closeSeat s left e w hpc =>
      exact (h.card (by rw [hpc]; exact hwait) (by rw [hpc]; rfl) hacc).still rfl
    | _ => exact absurd rfl hwait
  · intro left e w hpc' c hk hk' hleft
    cases hm with
    | close e₀ w₀ hpc =>
      cases hpc'
      exact absurd (Seat.mem_all _) hleft
    | closeSeat s left₀ e₀ w₀ hpc =>
      cases hpc'
      rw [Shared.mem_tell]
      by_cases hs : (v c).seat = s
      · exact .inr ⟨hs, rfl⟩
      · exact .inl (h.parting _ _ _ hpc c hk hk' (by simp [hs, hleft]))
    | releaseLast s r hpc => exact absurd hpc' ((hafter r (by rw [hpc]; rfl)).2.2 _ _ _)
    | announceLast b => cases b <;> cases hpc'
    | _ => cases hpc'

end Main

section Runs

variable {timeout : ℤ} {deals : List Deal} {st : State}

lemma awaited (h : RunsTo Calm timeout deals st) : Awaited st.sh st.main.pc st.view := by
  have hJ : ∀ st, RunsTo Calm timeout deals st → Seated st.sh st.view ∧ Counted st.sh st.main st.view ∧
      Staying st.sh st.main.pc st.view ∧ Understood st.sh st.main.pc st.view ∧
      Woken st.sh st.main.pc st.view := fun _ hr =>
    ⟨seated hr, counted_of_calm hr, staying hr, (understood_of_calm hr).1, (understood_of_calm hr).2⟩
  refine RunsTo.keeps (I := fun sh m v => Awaited sh m.pc v)
    (J := fun sh m v => Seated sh v ∧ Counted sh m v ∧ Staying sh m.pc v ∧ Understood sh m.pc v ∧
      Woken sh m.pc v) (fun _ hr => hJ _ (hr.mono fun _ _ hok => hok.1)) ?_ ?_ ?_ ?_
    (h.with_known fun _ hr => lines_checked hr)
  · exact ⟨fun _ => rfl, fun hc => (by cases hc), fun hw => absurd rfl hw, fun _ _ => rfl,
      fun _ _ _ hpc => (by cases hpc)⟩
  · rintro st ready sh m ⟨hs, hc, hst, hu, hw⟩ hi - hm
    exact hi.main hs hc hst hu hw hm
  · rintro sh m v c fd - hi hk -
    have hold : ∀ b, Underway sh v b →
        Underway sh (Function.update v c { Thread.view {} with clientFd := fd }) b := by
      rintro b (hb | ⟨c', hb⟩)
      · exact .inl hb
      · refine .inr ⟨c', ?_⟩
        by_cases hcc : c' = c
        · subst hcc
          rw [hk] at hb
          cases hb
        · rwa [Function.update_of_ne hcc]
    refine ⟨hi.settled, fun h₁ h₂ h₃ => hold _ (hi.full h₁ h₂ h₃), fun h₁ h₂ h₃ => hold _ (hi.card h₁ h₂ h₃),
      hi.filled, fun left e w hpc c' => ?_⟩
    by_cases hcc : c' = c
    · subst hcc
      rw [Function.update_self]
      intro hholds
      cases hholds
    · rw [Function.update_of_ne hcc]
      exact hi.parting left e w hpc c'
  · rintro st c o sh v ⟨hs, hc, hst, -, -⟩ hi ⟨hok, -, hbad⟩ hm
    exact hi.thread hs hc hst (hst.thread rfl hm hok (hbad c)) rfl hm

lemma Understood.cardReady {sh : Shared} {m : Main} {v : ℕ → View} {s j : Seat} {rest : List Seat}
    (hu : Understood sh m.pc v) (hst : Staying sh m.pc v) (hpc : m.pc = .cardPoll s rest)
    (hj : sh.serverReadPipes j ≠ []) : j = s ∧ .cardPlay ∈ sh.serverReadPipes j := by
  obtain ⟨b, left, hp⟩ := List.exists_cons_of_ne_nil hj
  have hb : b ∈ sh.serverReadPipes j := by simp [hp]
  have hknown := hu.known b (.inl ⟨j, hb⟩)
  rw [hpc] at hknown
  cases b with
  | cardPlay =>
    have hwait := (hu.flight.inPipe j hb).1
    rw [hpc] at hwait
    exact ⟨(Option.some.inj hwait).symm, hb⟩
  | disconnected => exact absurd hb (hst.silent j)
  | barrierResponse => cases hknown
  | _ => exact hknown.elim

lemma mainStep_cardPoll {sh sh' : Shared} {m m' : Main} {s : Seat} {rest ready : List Seat}
    (hpc : m.pc = .cardPoll s rest) (h : mainStep sh m ready = some (sh', m')) :
    Ready sh ready ∧ m' = m.goto (.cardScan s rest false ready) := by
  unfold mainStep at h
  rw [hpc] at h
  obtain ⟨hr, heq⟩ := Option.ite_none_right_eq_some.mp h
  exact ⟨hr, (Prod.mk.inj (Option.some.inj heq)).2.symm⟩

/-- **The main thread reads no empty pipe** while it waits for a card. -/
lemma card_scanned (h : RunsTo Calm timeout deals st) :
    ∀ s rest got j ready, st.main.pc = .cardScan s rest got (j :: ready) →
      ready = [] ∧ j = s ∧ .cardPlay ∈ st.sh.serverReadPipes s := by
  refine h.invariant_with (I := fun st => ∀ s rest got j ready,
      st.main.pc = .cardScan s rest got (j :: ready) →
      ready = [] ∧ j = s ∧ .cardPlay ∈ st.sh.serverReadPipes s)
    (J := fun st => Staying st.sh st.main.pc st.view ∧ Understood st.sh st.main.pc st.view)
    (fun _ hr => ⟨staying hr, (understood_of_calm hr).1⟩) (fun _ _ _ _ _ hpc => (by cases hpc)) ?_
  rintro st a st' ⟨hst, hu⟩ hi - hs
  cases a with
  | accept fd =>
    obtain ⟨hsh, hmain, -⟩ := step_accept hs
    rw [hsh, hmain]
    exact hi
  | thread c o =>
    obtain ⟨hstep, hmain, -⟩ := step_thread hs
    intro s rest got j ready hpc
    rw [hmain] at hpc
    obtain ⟨hready, hj, hb⟩ := hi s rest got j ready hpc
    refine ⟨hready, hj, ?_⟩
    rcases (move_of_threadStep hstep).writes with hp | ⟨b, -, hp, -⟩
    · rwa [hp]
    · rw [hp, ← List.count_pos_iff, Shared.count_report]
      rw [← List.count_pos_iff] at hb
      omega
  | main ready₀ =>
    obtain ⟨hstep, -⟩ := step_main hs
    have hm := mainMove_of_mainStep hstep
    intro s rest got j ready hpc
    generalize hm' : st'.main = m' at hm hpc
    generalize hsh' : st'.sh = sh' at hm
    cases hm with
    | cardPoll s₀ rest₀ ready₁ hpc₀ =>
      obtain ⟨hready, hm''⟩ := mainStep_cardPoll hpc₀ hstep
      have hall : ready₀ = ready₁ := by
        have := congrArg Main.pc (hm''.symm.trans hm')
        simpa using this
      subst hall
      cases hpc
      obtain ⟨rfl, hb⟩ := hu.cardReady hst hpc₀ (hready.2.2 j (by simp))
      refine ⟨?_, rfl, hb⟩
      -- another ready pipe would hold the same card
      cases ready with
      | nil => rfl
      | cons j' ready =>
        obtain ⟨rfl, -⟩ := hu.cardReady hst hpc₀ (hready.2.2 j' (by simp))
        have := hready.2.1.nodup (by decide)
        simp at this
    | gotCard s₀ rest₀ ready₁ got₀ left hpc₀ hp =>
      cases hpc
      obtain ⟨hnil, -⟩ := hi _ _ _ _ _ hpc₀
      cases hnil
    | lostPlayer s₀ j₀ rest₀ ready₁ got₀ left hpc₀ hp => exact (hst.silent j₀ (by simp [hp])).elim
    | releaseLast s₀ r hpc₀ =>
      have hcaller := hst.caller r (by rw [hpc₀]; rfl)
      have := st.main.afterBarrier_pc r
        (P := fun r pc => r.wait = none → ∀ s rest got ready, pc ≠ .cardScan s rest got ready)
        (by simp) (fun _ _ _ _ hw => (by cases hw)) (by simp) (by simp) (by simp) hcaller
      exact absurd hpc (this _ _ _ _)
    | announceLast b => cases b <;> cases hpc
    | _ => cases hpc

end Runs

end Kierki.Serwer
