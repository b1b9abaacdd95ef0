import Kierki.Serwer.Calm

/-!
# Waking the main thread

When every client stays, the fourth acknowledgement is the only one that finds the count at three,
so a call of `barrier` is woken by one byte. The main thread reads it in the waiting loop, since it
has nothing else to read there, and when it samples the count the byte is gone. So no byte is read
where it is not known.
-/

namespace Kierki.Serwer

open Lib.Lts

/-- At most one such byte is underway. -/
structure Lone (sh : Shared) (v : ℕ → View) (b : Byte) : Prop where
  inPipe : ∀ s, b ∈ sh.serverReadPipes s → (sh.serverReadPipes s).count b = 1 ∧
    (∀ s', b ∈ sh.serverReadPipes s' → s' = s) ∧ ∀ c, (v c).kind.byte ≠ some b
  inHand : ∀ c, (v c).kind.byte = some b → (∀ s, b ∉ sh.serverReadPipes s) ∧
    ∀ c', (v c').kind.byte = some b → c' = c

section Lone

variable {sh sh' : Shared} {v : ℕ → View} {c : ℕ} {t : Thread} {o : Outcome} {v' : View} {b : Byte}

lemma Lone.of_none (h : ¬Underway sh v b) : Lone sh v b :=
  ⟨fun s hs => absurd (.inl ⟨s, hs⟩) h, fun c hc => absurd (.inr ⟨c, hc⟩) h⟩

lemma Lone.mono (h : Lone sh v b) {w : ℕ → View}
    (hcount : ∀ s, (sh'.serverReadPipes s).count b ≤ (sh.serverReadPipes s).count b)
    (hold : ∀ c, (w c).kind.byte = some b → (v c).kind.byte = some b) : Lone sh' w b := by
  have hmem : ∀ s, b ∈ sh'.serverReadPipes s → b ∈ sh.serverReadPipes s := by
    intro s hb
    have := hcount s
    rw [← List.count_pos_iff] at hb ⊢
    omega
  constructor
  · intro s hb
    obtain ⟨hone, huniq, hno⟩ := h.inPipe s (hmem s hb)
    have := hcount s
    rw [← List.count_pos_iff] at hb
    exact ⟨by omega, fun s' hb' => huniq s' (hmem s' hb'), fun c hc => hno c (hold c hc)⟩
  · intro c hc
    obtain ⟨hno, huniq⟩ := h.inHand c (hold c hc)
    exact ⟨fun s hb => hno s (hmem s hb), fun c' hc' => huniq c' (hold c' hc')⟩

/-- A thread writes the byte it was about to write, or leaves the pipes to the main thread alone. -/
lemma Move.writes (hm : Move sh c t o sh' v') : sh'.serverReadPipes = sh.serverReadPipes ∨
    ∃ b, t.view.kind.byte = some b ∧ sh'.serverReadPipes = (sh.report t.seat b).serverReadPipes ∧
      v'.kind.byte = none := by
  cases hm with
  | played _ hk hk' =>
    refine .inr ⟨.cardPlay, by rw [hk]; rfl, rfl, ?_⟩
    rcases hk' with rfl | rfl <;> rfl
  | wake hk => exact .inr ⟨.barrierResponse, by rw [hk]; rfl, rfl, rfl⟩
  | reported hk => exact .inr ⟨.disconnected, by rw [hk]; rfl, rfl, rfl⟩
  | _ => exact .inl rfl

theorem Lone.thread (h : Lone sh v b) (hv : v c = t.view) (hm : Move sh c t o sh' v')
    (hnew : v'.kind.byte = some b → t.view.kind.byte = some b ∨ ¬Underway sh v b) :
    Lone sh' (Function.update v c v') b := by
  rcases hm.writes with hpipes | ⟨b₀, hk, hpipes, hk'⟩
  · by_cases hu : Underway sh v b
    · -- whoever is about to write it was so before
      refine h.mono (fun s => by rw [hpipes]) fun c' hc' => ?_
      by_cases hcc : c' = c
      · subst hcc
        rw [Function.update_self] at hc'
        rw [hv]
        exact (hnew hc').resolve_right (not_not.mpr hu)
      · rwa [Function.update_of_ne hcc] at hc'
    · have hself : ∀ c', (Function.update v c v' c').kind.byte = some b → c' = c := by
        intro c' hc'
        by_contra hcc
        rw [Function.update_of_ne hcc] at hc'
        exact hu (.inr ⟨c', hc'⟩)
      constructor
      · intro s hb
        exact absurd (.inl ⟨s, hpipes ▸ hb⟩) hu
      · intro c' hc'
        obtain rfl := hself c' hc'
        exact ⟨fun s hb => hu (.inl ⟨s, hpipes ▸ hb⟩), hself⟩
  · have hne : ∀ c', (Function.update v c v' c').kind.byte = some b →
        c' ≠ c ∧ (v c').kind.byte = some b := by
      intro c' hc'
      have hcc : c' ≠ c := by
        rintro rfl
        rw [Function.update_self, hk'] at hc'
        cases hc'
      exact ⟨hcc, by rwa [Function.update_of_ne hcc] at hc'⟩
    by_cases hb₀ : b₀ = b
    · -- the byte of the thread itself, the only one
      subst hb₀
      obtain ⟨hno, huniq⟩ := h.inHand c (by rw [hv, hk])
      have hnone : ∀ c', (Function.update v c v' c').kind.byte ≠ some b₀ := fun c' hc' =>
        (hne c' hc').1 (huniq c' (hne c' hc').2)
      have hseat : ∀ s, b₀ ∈ sh'.serverReadPipes s → s = t.seat := by
        intro s hb
        by_contra hst
        rw [hpipes] at hb
        exact hno s (by simpa [hst] using hb)
      refine ⟨fun s hb => ?_, fun c' hc' => absurd hc' (hnone c')⟩
      obtain rfl := hseat s hb
      refine ⟨?_, hseat, hnone⟩
      rw [hpipes, Shared.count_report, List.count_eq_zero.mpr (hno _)]
      simp
    · refine h.mono (fun s => ?_) fun c' hc' => (hne c' hc').2
      rw [hpipes, Shared.count_report]
      simp [hb₀]

lemma Lone.accepting (h : Lone sh v b) (c : ℕ) (fd : ℤ) :
    Lone sh (Function.update v c { Thread.view {} with clientFd := fd }) b := by
  refine h.mono (fun _ => le_rfl) fun c' hc' => ?_
  by_cases hcc : c' = c
  · subst hcc
    simp [Kind.byte] at hc'
  · rwa [Function.update_of_ne hcc] at hc'

end Lone

/-- **The invariant of the byte that wakes `barrier`.** -/
structure Woken (sh : Shared) (pc : MainPc) (v : ℕ → View) : Prop where
  quiet : pc.closing = true → ∀ s, .barrierResponse ∉ sh.serverWritePipes s
  full : Underway sh v .barrierResponse → sh.occupied = 4
  lone : Lone sh v .barrierResponse
  scanned : ∀ r, pc = .barrierScan [] r → sh.occupied = 4 ∧ ¬Underway sh v .barrierResponse
  scanning : ∀ s ready r, pc = .barrierScan (s :: ready) r →
    ready = [] ∧ .barrierResponse ∈ sh.serverReadPipes s

section Thread

variable {sh sh' : Shared} {m : Main} {v : ℕ → View} {c : ℕ} {t : Thread} {o : Outcome} {v' : View}

lemma Woken.none_due (h : Woken sh m.pc v) (hcount : Counted sh m v)
    (hfull : m.pc.counting = true → sh.occupied = 4) (s : Seat) :
    .barrierResponse ∉ sh.serverWritePipes s := by
  by_cases hc : m.pc.counting = true
  · have hb := hcount.balanced hc
    have hdue := hb.due_eq_zero (by rw [hfull hc]; decide) s
    have := hb.owed_nonneg s
    rw [← List.count_eq_zero]
    unfold due at hdue
    omega
  · by_cases hcl : m.pc.closing = true
    · exact h.quiet hcl s
    · exact hcount.quiet (by simpa using hc) (by simpa using hcl) s

lemma Counted.occupied_eq (h : Counted sh m v) (hv : v c = t.view) (hm : Move sh c t o sh' v')
    (hstay : t.view.kind ≠ .leaving false)
    (hnone : .barrierResponse ∉ sh.serverWritePipes t.seat) (hcl : m.pc.closing = false) :
    sh'.occupied = sh.occupied := by
  rcases hm.count with ⟨ho, -⟩ | ⟨rest, -, hp, -⟩ | ⟨hpc, -⟩ | hk | hd
  · exact ho
  · exact absurd (by simp [hp]) hnone
  · exact absurd (Thread.kind_eq hpc) hstay
  · have := h.leaving c (by rw [hv, hk])
    simp [hcl] at this
  · have := h.dismissed _ hd
    simp [hcl] at this

lemma Move.wakes (hm : Move sh c t o sh' v') (hb : v'.kind.byte = some .barrierResponse) :
    t.view.kind.byte = some .barrierResponse ∨
    .barrierResponse ∈ sh.serverWritePipes t.seat ∧ sh'.occupied = 4 := by
  obtain hb | ⟨hb, -⟩ | ⟨-, -, hp, -, ho⟩ | hb := hm.comes hb
  · exact .inl hb
  · cases hb
  · exact .inr ⟨List.mem_of_mem_head? hp, ho⟩
  · cases hb

/-- **A seat thread keeps the invariant.** -/
theorem Woken.thread (h : Woken sh m.pc v) (hu : Understood sh m.pc v) (hcount : Counted sh m v)
    (hst : Staying sh m.pc v) (hv : v c = t.view) (hm : Move sh c t o sh' v') :
    Woken sh' m.pc (Function.update v c v') := by
  have hstay : t.view.kind ≠ .leaving false := by
    rw [← hv]
    exact (hst.threads c).1
  have hcounting : Underway sh v .barrierResponse → m.pc.counting = true := hu.known _
  -- a full count stays full while `barrier` waits, and nobody comes to wake it
  have hkeep : m.pc.counting = true → sh.occupied = 4 → sh'.occupied = 4 := fun hc ho =>
    (hcount.occupied_eq hv hm hstay (h.none_due hcount (fun _ => ho) _)
      (MainPc.closing_of_counting hc)).trans ho
  have hcomes : v'.kind.byte = some .barrierResponse →
      t.view.kind.byte = some .barrierResponse ∨
      ¬Underway sh v .barrierResponse ∧ sh.occupied ≠ 4 ∧ sh'.occupied = 4 := by
    intro hb
    rcases hm.wakes hb with hb | ⟨hp, ho⟩
    · exact .inl hb
    · have hne : sh.occupied ≠ 4 := fun h4 => h.none_due hcount (fun _ => h4) _ hp
      exact .inr ⟨fun hun => hne (h.full hun), hne, ho⟩
  have hunder : Underway sh' (Function.update v c v') .barrierResponse →
      Underway sh v .barrierResponse ∨ sh.occupied ≠ 4 ∧ sh'.occupied = 4 := by
    rintro (⟨s, hb⟩ | ⟨c', hb⟩)
    · rcases hm.reports hb with hb | hb
      · exact .inl (.inl ⟨s, hb⟩)
      · exact .inl (.inr ⟨c, by rwa [hv]⟩)
    · by_cases hcc : c' = c
      · subst hcc
        rw [Function.update_self] at hb
        rcases hcomes hb with hb | ⟨-, hne⟩
        · exact .inl (.inr ⟨c', by rwa [hv]⟩)
        · exact .inr hne
      · rw [Function.update_of_ne hcc] at hb
        exact .inl (.inr ⟨c', hb⟩)
  refine ⟨fun hcl s hb => h.quiet hcl s ((hm.suffix s).subset hb), fun hb => ?_,
    h.lone.thread hv hm fun hb => (hcomes hb).imp id And.left, fun r hpc => ?_,
    fun s ready r hpc => ?_⟩
  · rcases hunder hb with hb | ⟨-, ho⟩
    · exact hkeep (hcounting hb) (h.full hb)
    · exact ho
  · obtain ⟨ho, hno⟩ := h.scanned r hpc
    refine ⟨hkeep (by rw [hpc]; rfl) ho, fun hb => ?_⟩
    rcases hunder hb with hb | ⟨hne, -⟩
    · exact hno hb
    · exact hne ho
  · obtain ⟨hready, hb⟩ := h.scanning s ready r hpc
    refine ⟨hready, ?_⟩
    rcases hm.writes with hp | ⟨b, -, hp, -⟩
    · rwa [hp]
    · rw [hp, ← List.count_pos_iff, Shared.count_report]
      rw [← List.count_pos_iff] at hb
      omega

end Thread

section Main

variable {sh sh' : Shared} {m m' : Main} {v : ℕ → View}

lemma MainMove.closes (hm : MainMove sh m sh' m') (h : m'.pc.closing = true) :
    m.pc.closing = true ∨ m.pc = .nextDeal ∨ m'.pc.Confused := by
  cases hm with
  | gameOver hpc => exact .inr (.inl hpc)
  | close _ _ hpc | closeSeat _ _ _ _ hpc =>
    rw [hpc]
    exact .inl rfl
  | badBarrier => exact .inr (.inr (.inl rfl))
  | badDeal => exact .inr (.inr (.inr rfl))
  | announceLast b => cases b <;> cases h
  | releaseLast s r =>
    have hopen : (m.afterBarrier r).pc.closing = false :=
      m.afterBarrier_pc r (P := fun _ pc => pc.closing = false) rfl (fun _ _ _ _ => rfl) rfl rfl rfl
    rw [hopen] at h
    cases h
  | _ => cases h

lemma MainMove.occupied_eq (hm : MainMove sh m sh' m') :
    sh'.occupied = sh.occupied ∨ m.pc.counting = false := by
  cases hm with
  | reset r hpc => exact .inr (by rw [hpc]; rfl)
  | _ => exact .inl rfl

lemma MainMove.scans (hm : MainMove sh m sh' m') {ready : List Seat} {r : Caller}
    (h : m'.pc = .barrierScan ready r) :
    (m.pc = .barrierPoll r ∧ Ready sh ready ∧ sh' = sh) ∨
    (∃ s rest, m.pc = .barrierScan (s :: ready) r ∧
      sh.serverReadPipes s = .barrierResponse :: rest ∧ sh' = sh.noticed s rest) ∨
    m.pc.answering ≠ none := by
  cases hm with
  | poll ready' r' hpc hr =>
    cases h
    exact .inl ⟨hpc, hr, rfl⟩
  | woken s ready' r' rest hpc hp =>
    cases h
    exact .inr (.inl ⟨s, rest, hpc, hp, rfl⟩)
  | resend s ready' r' hpc =>
    refine .inr (.inr ?_)
    rw [hpc]
    simp [MainPc.answering]
  | announceLast b => cases b <;> cases h
  | releaseLast s r' =>
    have hout := afterBarrier_inBarrier (m := m) r'
    rw [h] at hout
    cases hout
  | _ => cases h

lemma Understood.ready {r : Caller} (hu : Understood sh m.pc v) (hst : Staying sh m.pc v)
    (hpc : m.pc = .barrierPoll r) {s : Seat} (hs : sh.serverReadPipes s ≠ []) :
    .barrierResponse ∈ sh.serverReadPipes s := by
  obtain ⟨b, rest, hp⟩ := List.exists_cons_of_ne_nil hs
  have hb : b ∈ sh.serverReadPipes s := by simp [hp]
  have hknown := hu.known b (.inl ⟨s, hb⟩)
  rw [hpc] at hknown
  cases b with
  | barrierResponse => exact hb
  | disconnected => exact absurd hb (hst.silent s)
  | cardPlay => cases hknown
  | _ => exact hknown.elim

/-- **The main thread keeps the invariant.** -/
theorem Woken.main (h : Woken sh m.pc v) (hu : Understood sh m.pc v) (hcount : Counted sh m v)
    (hst : Staying sh m.pc v) (hm : MainMove sh m sh' m') : Woken sh' m'.pc v := by
  have hunder : Underway sh' v .barrierResponse → Underway sh v .barrierResponse :=
    fun hb => hb.imp (fun ⟨s, hs⟩ => ⟨s, hm.reads hs⟩) id
  refine ⟨fun hcl s => ?_, fun hb => ?_, h.lone.mono hm.count_reads fun _ => id, ?_, ?_⟩
  · rcases hm.closes hcl with hcl' | hpc | hconf
    · exact hm.quiet (by revert hcl'; cases m.pc <;> simp [MainPc.closing, MainPc.counting])
        (h.quiet hcl' s)
    · exact hm.quiet (by rw [hpc]; rfl) (hcount.quiet (by rw [hpc]; rfl) (by rw [hpc]; rfl) s)
    · exact absurd hconf (hu.sane_next hm)
  · have hcounting : m.pc.counting = true := hu.known _ (hunder hb)
    rcases hm.occupied_eq with ho | hno
    · exact ho.trans (h.full (hunder hb))
    · simp [hcounting] at hno
  · intro r hpc
    rcases hm.scans hpc with ⟨-, hr, -⟩ | ⟨s, rest, hpc', hp, rfl⟩ | ha
    · exact absurd rfl hr.1
    · -- the byte read is the only one
      have hb : .barrierResponse ∈ sh.serverReadPipes s := by simp [hp]
      obtain ⟨hcount', huniq, hno⟩ := h.lone.inPipe s hb
      refine ⟨h.full (.inl ⟨s, hb⟩), ?_⟩
      rintro (⟨s', hb'⟩ | ⟨c, hc⟩)
      · obtain rfl := huniq s' (hm.reads hb')
        rw [hp, List.count_cons_self] at hcount'
        rw [Shared.noticed_serverReadPipes, Function.update_self, ← List.count_pos_iff] at hb'
        omega
      · exact hno c hc
    · exact absurd hst.answering ha
  · intro s ready r hpc
    rcases hm.scans hpc with ⟨hpc', hr, rfl⟩ | ⟨s', rest, hpc', -, -⟩ | ha
    · have hb := fun s hs => hu.ready hst hpc' (hr.2.2 s hs)
      refine ⟨?_, hb s (by simp)⟩
      -- two ready pipes would hold two such bytes
      cases ready with
      | nil => rfl
      | cons s' ready =>
        have heq : s' = s := (h.lone.inPipe s (hb s (by simp))).2.1 s' (hb s' (by simp))
        have hnodup : (s :: s' :: ready).Nodup := hr.2.1.nodup (by decide)
        simp [heq] at hnodup
    · have := (h.scanning s' (s :: ready) r hpc').1
      cases this
    · exact absurd hst.answering ha

end Main

/-! ### The runs -/

section Runs

variable {timeout : ℤ} {deals : List Deal} {st : State}

lemma MainPc.eq_of_sampling {pc : MainPc} (h : pc.sampling = true) : ∃ r, pc = .barrierScan [] r := by
  unfold MainPc.sampling at h
  split at h
  · exact ⟨_, rfl⟩
  · cases h

/-- **The main thread knows every byte it reads**, when every client stays. -/
lemma understood_of_calm (h : RunsTo Calm timeout deals st) :
    Understood st.sh st.main.pc st.view ∧ Woken st.sh st.main.pc st.view := by
  refine RunsTo.keeps (I := fun sh m v => Understood sh m.pc v ∧ Woken sh m.pc v)
    (J := fun sh m v => Counted sh m v ∧ Staying sh m.pc v ∧ TurnInv sh m.pc v)
    (fun _ hr => ⟨counted_of_calm hr, staying hr, (turn_of_calm hr).1⟩) ⟨.start, ?_⟩ ?_ ?_ ?_ h
  · exact ⟨fun hc => (nomatch hc), fun hb => absurd hb not_underway_start,
      .of_none not_underway_start, fun _ hpc => (nomatch hpc), fun _ _ _ hpc => (nomatch hpc)⟩
  · rintro st ready sh m ⟨hcount, hst, -⟩ ⟨hu, hw⟩ - hm
    refine ⟨hu.main hm ?_ fun hs _ => ?_, hw.main hu hcount hst hm⟩
    · intro hl
      exfalso
      revert hl
      unfold MainPc.losing
      split
      · rename_i j _ _
        simp only [decide_eq_true_eq]
        exact fun hd => hst.silent j (List.mem_of_mem_head? hd)
      · exact Bool.noConfusion
    · obtain ⟨r, hpc⟩ := MainPc.eq_of_sampling hs
      exact (hw.scanned r hpc).2
  · rintro sh m v c fd - ⟨hu, hw⟩ - -
    exact ⟨hu.accepting c fd, hw.quiet, fun hb => hw.full hb.of_accepting, hw.lone.accepting c fd,
      fun r hpc => ⟨(hw.scanned r hpc).1, fun hb => (hw.scanned r hpc).2 hb.of_accepting⟩,
      hw.scanning⟩
  · rintro st c o sh v ⟨hcount, hst, hturn⟩ ⟨hu, hw⟩ - hm
    refine ⟨hu.thread rfl hm ?_ ?_, hw.thread hu hcount hst rfl hm⟩
    · intro ha
      have ho := hturn.accepts_open rfl ha
      exact ⟨ho, hst.not_inBarrier (by rw [ho.1]; exact Option.some_ne_none _)⟩
    · intro _ hb _
      by_contra hc
      exact hw.none_due hcount (fun hc' => absurd hc' hc) _ (List.mem_of_mem_head? hb)

end Runs

end Kierki.Serwer
