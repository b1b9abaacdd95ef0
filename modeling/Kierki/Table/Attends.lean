import Kierki.Table.InStep

/-!
# The threads of the table

What is known of the thread of a connection at the table: it comes to the points of `Work` only, it
judges a line of its client only while the client is asked, and its copy of the number of the trick
is current where it uses it.
-/

namespace Kierki

open Regex Senders Serwer Lib.Lts

namespace Serwer

/-- **The thread attends to its client**, `k` being the client, `down` the lines it has still to read
and `up` those of it that are not read yet. -/
structure Attends (sh : Shared) (pc : MainPc) (t : Thread) (k : Klient) (down up : List Text) :
    Prop where
  orderly : t.pc.orderly = true
  started : t.pc ≠ .absent
  seat : t.pc ≠ .readIam → t.seat = k.seat
  iam : t.pc = .readIam → up = [iamLine k.seat] ∧ down = []
  destined : t.unjudged up ++ k.answers down ≠ [] → t.bWasDestinedToPlay = true
  quiet : ∀ l p, t.pc = .send l p → p ≠ .cardPlay → ∀ x ∈ t.pc.draft, ∀ n, TRICKCheck x n = false
  copied : t.pc.kind.polls = true → pc.asked k.seat = true →
    .cardPlay ∉ sh.serverWritePipes k.seat → t.currentTrick = sh.trickNumber
  taken : t.pc.kind.polls = true → .taken ∈ sh.serverWritePipes k.seat →
    t.currentTrick = sh.trickNumber
  time : t.pc.kind.polls = true → 0 < t.timeoutCopy

section Thread

variable {sh sh' : Shared} {pc : MainPc} {c : ℕ} {t t' : Thread} {o : Outcome} {k : Klient}
  {down up : List Text}

lemma Pc.Walks.orderly {pc pc' : Pc} (h : pc.Walks o pc') : pc'.orderly = true ∧ pc' ≠ .absent ∧
    pc' ≠ .readIam ∧ (∀ l p, pc' ≠ .send l p) ∧ (pc'.kind.polls = true → pc.kind.polls = true) := by
  cases h <;> exact ⟨rfl, by simp, by simp, by simp, by simp [Pc.kind, Kind.polls]⟩

private lemma After.orderly (k : After) : k.pc.orderly = true ∧ k.pc ≠ .absent ∧ k.pc ≠ .readIam ∧
    (∀ l p, k.pc ≠ .send l p) := by
  cases k <;> exact ⟨rfl, by simp [After.pc], by simp [After.pc], by simp [After.pc]⟩

lemma Work.orderly (hw : Work sh c t o sh' t') (h : t.pc.orderly = true) :
    t'.pc.orderly = true ∧ t'.pc ≠ .absent ∧ t'.pc ≠ .readIam := by
  cases hw with
  | tell l p hpc =>
    rw [hpc] at h
    cases p with
    | cardPlay | inform | score => exact ⟨rfl, by simp [Thread.sent], by simp [Thread.sent]⟩
    | _ => cases h
  | top hpc =>
    simp only [Thread.atLoopTop]
    split <;> exact ⟨rfl, by simp, by simp⟩
  | walk o pc' hwalk => exact ⟨hwalk.orderly.1, hwalk.orderly.2.1, hwalk.orderly.2.2.1⟩
  | byte b rest hpc =>
    cases b with
    | barrierResponse =>
      simp only [Thread.gotByte]
      split <;> exact ⟨rfl, by simp, by simp⟩
    | _ => exact ⟨rfl, by simp [Thread.gotByte, Thread.close], by simp [Thread.gotByte, Thread.close]⟩
  | played k hpc => exact ⟨(After.orderly k).1, (After.orderly k).2.1, (After.orderly k).2.2.1⟩
  | _ => exact ⟨rfl, by simp [Thread.join, Thread.closeStep], by simp [Thread.join, Thread.closeStep]⟩

lemma Work.seat (hw : Work sh c t o sh' t') (hpc : t.pc ≠ .readIam) : t'.seat = t.seat := by
  cases hw with
  | iam s hpc' => exact absurd hpc' hpc
  | tell l p => cases p <;> rfl
  | byte b => cases b <;> rfl
  | _ => rfl

lemma Work.quiet (hw : Work sh c t o sh' t')
    (h : ∀ l p, t.pc = .send l p → p ≠ .cardPlay → ∀ x ∈ t.pc.draft, ∀ n, TRICKCheck x n = false)
    (hnum : t.pc.kind.polls = true → .taken ∈ sh.serverWritePipes t.seat →
      t.currentTrick = sh.trickNumber) :
    ∀ l p, t'.pc = .send l p → p ≠ .cardPlay → ∀ x ∈ t'.pc.draft, ∀ n, TRICKCheck x n = false := by
  intro l p hl hp
  cases hw with
  | tell l' p' hpc =>
    cases p' with
    | score total =>
      intro x hx
      refine h _ _ hpc (by simp) x ?_
      rw [hpc]
      exact List.mem_cons_of_mem _ hx
    | wrong k => exact absurd hl ((After.orderly k).2.2.2 l p)
    | _ => cases hl
  | byte b rest hpc hp' =>
    have hb : b ≠ .cardPlay := by
      rintro rfl
      cases hl
      exact hp rfl
    rw [(Thread.gotByte_told (c := c) hp' fun hb => hnum (by rw [hpc]; rfl) (by simp [hp', hb])).1]
    exact Shared.meaning_quiet hb t.seat
  | top hpc =>
    simp only [Thread.atLoopTop] at hl
    split at hl <;> cases hl
  | walk o pc' hwalk => exact absurd hl (hwalk.orderly.2.2.2.1 l p)
  | played k hpc => exact absurd hl ((After.orderly k).2.2.2 l p)
  | _ => cases hl

/-- **The copy of the number stays current**, as long as the pipe passes a test `Q` that only the
`CARD_PLAY` byte could make it pass. -/
lemma Work.copied (hw : Work sh c t o sh' t') {Q : List Byte → Prop}
    (hQ : ∀ b rest, b ≠ .cardPlay → Q rest → Q (b :: rest))
    (hjoin : t.pc = .joinFlag → ¬Q (sh.serverWritePipes t.seat))
    (h : t.pc.kind.polls = true → Q (sh.serverWritePipes t.seat) → t.currentTrick = sh.trickNumber) :
    t'.pc.kind.polls = true → Q (sh'.serverWritePipes t'.seat) →
      t'.currentTrick = sh'.trickNumber := by
  intro hk hq
  cases hw with
  | iam s hpc => cases hk
  | take hpc => cases hk
  | join hpc => exact absurd hq (hjoin hpc)
  | tell l p hpc =>
    cases p with
    | busy | replay | joinTrick => cases hk
    | _ => exact h (by rw [hpc]; rfl) hq
  | top hpc => rfl
  | walk o pc' hwalk => exact h (hwalk.orderly.2.2.2.2 hk) hq
  | byte b rest hpc hp =>
    cases b with
    | cardPlay => rfl
    | disconnected => cases hk
    | _ =>
      refine h (by rw [hpc]; rfl) ?_
      rw [hp]
      refine hQ _ rest (by simp) ?_
      simpa [Thread.gotByte] using hq
  | played k hpc => exact h (by rw [hpc]; rfl) hq
  | dismissed hpc => cases hk
  | listen pipe ms hpc | line pipe l hpc | accept m k card hpc | woke hpc =>
    exact h (by rw [hpc]; rfl) hq

lemma Work.time (hw : Work sh c t o sh' t') (htimeout : 0 < sh.timeout)
    (h : t.pc.kind.polls = true → 0 < t.timeoutCopy) :
    t'.pc.kind.polls = true → 0 < t'.timeoutCopy := by
  intro hk
  cases hw with
  | iam s hpc => cases hk
  | take hpc => cases hk
  | join hpc => exact htimeout
  | tell l p hpc =>
    cases p with
    | busy | replay | joinTrick => cases hk
    | _ => exact h (by rw [hpc]; rfl)
  | walk o pc' hwalk => exact h (hwalk.orderly.2.2.2.2 hk)
  | listen pipe ms hpc htime => exact htime
  | byte b rest hpc hp =>
    cases b with
    | disconnected => cases hk
    | _ => exact h (by rw [hpc]; rfl)
  | accept m k card hpc => exact htimeout
  | dismissed hpc => cases hk
  | top hpc | line pipe l hpc | played k hpc | woke hpc => exact h (by rw [hpc]; rfl)

/-- A thread judges lines only in the turn of its client, where it has passed the request on. -/
lemma Work.destined (hw : Work sh c t o sh' t') (hno : t.parses = [])
    (hunjudged : t'.unjudged (o.unread up) = t.unjudged up) {k' : Klient}
    (hk : k.receiveAll down = some k')
    (hrest : t.pc.kind = .joining ∨ t.pc.kind = .card → t.unjudged up ++ k.answers down = [])
    (hquiet : ∀ l p, t.pc = .send l p → p ≠ .cardPlay → ∀ x ∈ t.pc.draft, ∀ n, TRICKCheck x n = false)
    (h : t.unjudged up ++ k.answers down ≠ [] → t.bWasDestinedToPlay = true) :
    t'.unjudged (o.unread up) ++ k.answers (down ++ t.writes o) ≠ [] →
      t'.bWasDestinedToPlay = true := by
  rw [hunjudged]
  intro hne
  have hkeep : (∀ l p, t.pc ≠ .send l p) → t.unjudged up ++ k.answers down ≠ [] := by
    intro hsend
    rwa [Thread.writes_eq_nil hsend, List.append_nil] at hne
  cases hw with
  | tell l p hpc =>
    by_cases hp : p = .cardPlay
    · subst hp
      rfl
    · have hl : k'.answers [l] = [] := by
        refine Klient.answers_quiet (fun x hx n => hquiet l p hpc hp x ?_ n) k'
        obtain rfl := List.mem_singleton.mp hx
        rw [hpc]
        cases p <;> simp [Pc.draft]
      have hwrites : t.writes .tick = [l] := by simp [Thread.writes, hpc]
      rw [hwrites, Klient.answers_append hk, hl, List.append_nil] at hne
      have hd := h hne
      cases p with
      | cardPlay => exact absurd rfl hp
      | _ => exact hd
  | join hpc => exact absurd (hrest (.inl (by rw [hpc]; rfl))) (hkeep (by simp [hpc]))
  | played k hpc => exact absurd (hrest (.inr (by rw [hpc]; rfl))) (hkeep (by simp [hpc]))
  | accept m k card hpc =>
    unfold Thread.parses at hno
    rw [hpc] at hno
    cases hno
  | byte b rest hpc hp =>
    have hd := h (hkeep (by simp [hpc]))
    cases b <;> exact hd
  | walk o pc' hwalk => exact h (hkeep (hwalk.draft.2.2))
  | iam s hpc | take hpc | top hpc | listen pipe ms hpc | line pipe l hpc | woke hpc | dismissed hpc =>
    exact h (hkeep (by simp [hpc]))

/-- **A thread that judges no line** goes on attending to its client. -/
theorem Attends.work (h : Attends sh pc t k down up) (hw : Work sh c t o sh' t') (hno : t.parses = [])
    (hfit : o.Fits up) {k' : Klient} (hk : k.receiveAll down = some k')
    (hrest : t.pc.kind = .joining ∨ t.pc.kind = .card → t.unjudged up ++ k.answers down = [])
    (hjoin : t.pc = .joinFlag → pc.asked k.seat = false ∧ .taken ∉ sh.serverWritePipes k.seat)
    (htimeout : 0 < sh.timeout) : Attends sh' pc t' k (down ++ t.writes o) (o.unread up) := by
  obtain ⟨hord, hstart, hiam⟩ := hw.orderly h.orderly
  have hunjudged := hw.unjudged hno hfit fun hpc => ⟨_, (h.iam hpc).1⟩
  have hseat : t'.seat = k.seat := by
    by_cases hpc : t.pc = .readIam
    · cases hw with
      | iam s hpc' =>
        obtain rfl : k.seat = s := by
          have := (h.iam hpc).1
          rw [this] at hfit
          have := iamSeat_iamLine k.seat
          rw [Option.some.inj hfit, iamSeat_iamLine] at this
          exact (Option.some.inj this).symm
        rfl
      | walk o pc' hwalk => exact absurd hpc (hwalk.unread up).1
      | _ => simp_all
    · rw [hw.seat hpc]
      exact h.seat hpc
  have hpolls : t.pc.kind.polls = true → t.seat = k.seat := fun hp => h.seat (by
    rintro hpc
    rw [hpc] at hp
    cases hp)
  have hquiet := hw.quiet h.quiet fun hp hb => h.taken hp (hpolls hp ▸ hb)
  refine ⟨hord, hstart, fun _ => hseat, fun hpc => absurd hpc hiam,
    hw.destined hno hunjudged hk hrest h.quiet h.destined, hquiet, ?_, ?_, hw.time htimeout h.time⟩
  · intro hp ha hb
    refine hw.copied (Q := fun l => pc.asked k.seat = true ∧ .cardPlay ∉ l) ?_ ?_ ?_ hp
      ⟨ha, by rwa [hseat]⟩
    · rintro b rest hne ⟨ha, hb⟩
      exact ⟨ha, by simp [hb, hne.symm]⟩
    · rintro hpc ⟨ha, -⟩
      rw [(hjoin hpc).1] at ha
      cases ha
    · rintro hp ⟨ha, hb⟩
      exact h.copied hp ha (hpolls hp ▸ hb)
  · intro hp hb
    refine hw.copied (Q := fun l => .taken ∈ l) (fun _ _ _ hl => List.mem_cons_of_mem _ hl) ?_ ?_ hp
      (by rwa [hseat])
    · intro hpc hb
      rw [h.seat (by simp [hpc])] at hb
      exact (hjoin hpc).2 hb
    · exact fun hp hb => h.taken hp (hpolls hp ▸ hb)

lemma Attends.accept (h : Attends sh pc t k down up) {m : Text} {after : After}
    (hpc : t.pc = .parse m after) (htrick : sh'.trickNumber = sh.trickNumber)
    (hpipe : sh'.serverWritePipes k.seat = sh.serverWritePipes k.seat) (htimeout : 0 < sh.timeout)
    (hrest : up ++ k.answers down = []) :
    Attends sh' pc { t with timeoutCopy := sh.timeout, pc := .writeCardPlay after } k down up := by
  have hpolls : t.pc.kind.polls = true := by rw [hpc]; rfl
  refine ⟨rfl, by simp, fun _ => h.seat (by simp [hpc]), fun hp => (by cases hp), fun hne => ?_,
    fun l p hl => (by cases hl), fun _ ha hb => ?_, fun _ hb => ?_, fun _ => htimeout⟩
  · exact absurd hrest hne
  · rw [htrick]
    exact h.copied hpolls ha (hpipe ▸ hb)
  · rw [htrick]
    exact h.taken hpolls (hpipe ▸ hb)

lemma Attends.still (h : Attends sh pc t k down up) (htrick : sh'.trickNumber = sh.trickNumber)
    (hpipe : t.pc.kind.polls = true → sh'.serverWritePipes k.seat = sh.serverWritePipes k.seat) :
    Attends sh' pc t k down up :=
  { h with
    copied := fun hp ha hb => htrick ▸ h.copied hp ha (hpipe hp ▸ hb)
    taken := fun hp hb => htrick ▸ h.taken hp (hpipe hp ▸ hb) }

end Thread

section Main

variable {sh sh' : Shared} {m m' : Main} {t : Thread} {k : Klient} {down up : List Text} {s : Seat}
  {v : ℕ → View}

lemma MainMove.asked (hm : MainMove sh m sh' m') (hcaller : ∀ r, m.pc.caller = some r → r.wait = none)
    (ha : m'.pc.asked s = true) (hno : .cardPlay ∉ sh'.serverWritePipes s) :
    m.pc.asked s = true ∧ sh'.trickNumber = sh.trickNumber := by
  cases hm with
  | releaseLast s₀ r hpc =>
    have hw := hcaller r (by rw [hpc]; rfl)
    cases r with
    | cardWait => cases hw
    | endOfTrick =>
      simp only [Main.afterBarrier] at ha
      split at ha <;> cases ha
    | startGame | endOfDeal => cases ha
  | announce b s₀ left hpc =>
    cases b with
    | taken =>
      refine ⟨?_, rfl⟩
      rw [hpc]
      simp only [MainPc.asked, Main.goto_pc, decide_eq_true_eq] at ha ⊢
      exact List.mem_cons_of_mem _ ha
    | _ => cases ha
  | announceLast b s₀ hpc => cases b <;> cases ha
  | trick hpc => simp [MainPc.asked, Seat.mem_order] at ha
  | turnSend s₀ rest hpc =>
    have hne : s ≠ s₀ := by
      rintro rfl
      simp at hno
    refine ⟨?_, rfl⟩
    rw [hpc]
    simpa [MainPc.asked, hne] using ha
  | turnSet s₀ rest hpc | cardPoll s₀ rest ready hpc | gotCard s₀ rest ready got left hpc
  | waitOn s₀ rest hpc | nextTurn s₀ rest hpc | lastTurn s₀ hpc | trickEnd calculator taker points hpc =>
    refine ⟨?_, rfl⟩
    rw [hpc]
    first | exact ha | simp [MainPc.asked]
  | _ => cases ha

lemma MainMove.takenByte (hm : MainMove sh m sh' m') (hb : .taken ∈ sh'.serverWritePipes s) :
    (.taken ∈ sh.serverWritePipes s ∧ (sh'.trickNumber = sh.trickNumber ∨ m.pc.setsTrick = true)) ∨
    sh'.trickNumber = sh.trickNumber ∧ ∃ left, m.pc = .announce .taken (s :: left) := by
  have hold : ∀ {s₀ : Seat} {b₀ : Byte}, b₀ ≠ .taken → .taken ∈ (sh.tell s₀ b₀).serverWritePipes s →
      .taken ∈ sh.serverWritePipes s := fun hne hb =>
    (Shared.mem_tell.mp hb).resolve_right fun h => hne h.2.symm
  cases hm with
  | ask | askLast | resend | release | releaseLast | turnSend | closeSeat =>
    exact .inl ⟨hold (by decide) hb, .inl rfl⟩
  | announce b s₀ left hpc =>
    rcases Shared.mem_tell.mp hb with hold | ⟨rfl, hnew⟩
    · exact .inl ⟨hold, .inl rfl⟩
    · cases b with
      | taken => exact .inr ⟨rfl, left, hpc⟩
      | _ => cases hnew
  | announceLast b s₀ hpc =>
    rcases Shared.mem_tell.mp hb with hold | ⟨rfl, hnew⟩
    · exact .inl ⟨hold, .inl rfl⟩
    · cases b with
      | taken => exact .inr ⟨rfl, [], hpc⟩
      | _ => cases hnew
  | start hpc | trick hpc => exact .inl ⟨hb, .inr (by rw [hpc]; rfl)⟩
  | _ => exact .inl ⟨hb, .inl rfl⟩

lemma MainMove.mem_pipe (hm : MainMove sh m sh' m') {b : Byte} (hb : b ∈ sh.serverWritePipes s) :
    b ∈ sh'.serverWritePipes s := by
  cases hm with
  | ask | askLast | resend | release | releaseLast | turnSend | closeSeat | announce | announceLast =>
    exact Shared.mem_tell.mpr (.inl hb)
  | _ => exact hb

/-- **A step of the main thread** leaves the threads attending. -/
theorem Attends.main {st : State} (h : Attends st.sh st.main.pc t k down up) (hk : Known st)
    (hm : MainMove st.sh st.main sh' m') : Attends sh' m'.pc t k down up := by
  refine { h with
    copied := fun hp ha hb => ?_
    taken := fun hp hb => ?_ }
  · obtain ⟨hasked, hnumber⟩ := hm.asked hk.staying.caller ha hb
    rw [hnumber]
    exact h.copied hp hasked fun hmem => hb (hm.mem_pipe hmem)
  · rcases hm.takenByte hb with ⟨hmem, hnumber | hset⟩ | ⟨hnumber, left, hpc⟩
    · rw [hnumber]
      exact h.taken hp hmem
    · exact absurd (hk.piped.told _ .taken hmem) ((MainPc.setsTrick_idle hset).2 _)
    · rw [hnumber]
      exact h.copied hp (by simp [hpc, MainPc.asked]) ((hk.turn.idle (by rw [hpc]; rfl)).1 _)

end Main

end Serwer

end Kierki
