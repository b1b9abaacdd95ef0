import Kierki.Lib.Calls
import Mathlib.Logic.Equiv.Defs
import Mathlib.Logic.Relation

/-!
# Threads over calls

Threads that are programs over calls run side by side: a step is one call of one of them, and `act`
says what a call with an answer does to the state they share, `none` standing for an answer that it may
not have there. A call without an answer blocks.

A `Pact` is what one thread relies on and what it guarantees. `Prog.safe` says that a program keeps its
side of the pact as long as the others keep to what is relied on, and `safe_of_runs` puts the threads
together: where each guarantee is within what the others rely on, every thread is safe in every state
of every run.

* `safe_seq`, `safe_ask`, `safe_loop`: the rules for the parts of a program;
* `safe_embed`: a program over some of the calls is one over all of them;
* `Config.Safe.ok`, `Config.Safe.exited`, `kept_of_runs`: what safety says of a run;
* `exec`: the run of a list of moves, computed.
-/

namespace Kierki.Lib.Threads

open Lib.Calls

/-! ### One thread -/

/-- What a thread and the others owe each other. -/
structure Pact (C : Type) (A : C → Type) (σ : Type) where
  /-- What a call of the thread does to the shared state. -/
  act : σ → (c : C) → A c → Option σ
  /-- Where a call is in order. -/
  ok : σ → C → Prop
  /-- What the other threads may do meanwhile. -/
  rely : σ → σ → Prop
  /-- What a call of the thread may do. -/
  guar : σ → σ → Prop
  /-- Where a loop may go round. -/
  spins : σ → Prop
  rely_refl : ∀ s, rely s s
  rely_trans : ∀ s s' s'', rely s s' → rely s' s'' → rely s s''

section Safe

variable {C C' : Type} {A : C → Type} {A' : C' → Type} {ρ ρ' α β σ : Type}

/-- **The thread keeps its side of the pact**, and ends in `Q` or in a `return` in `E`. -/
def safe (P : Pact C A σ) : Prog C A ρ α → (ρ → σ → Prop) → (α → σ → Prop) → σ → Prop
  | .done a, _, Q, s => ∀ s', P.rely s s' → Q a s'
  | .exit r, E, _, s => ∀ s', P.rely s s' → E r s'
  | .call c k, E, Q, s => ∀ s', P.rely s s' → P.ok s' c ∧
      ∀ a s'', P.act s' c a = some s'' → P.guar s' s'' ∧ safe P (k a) E Q s''
  | .more, _, _, s => ∀ s', P.rely s s' → P.spins s'

variable {P : Pact C A σ} {E E' : ρ → σ → Prop} {Q Q' : α → σ → Prop} {s s' : σ}

lemma safe_rely {p : Prog C A ρ α} (h : safe P p E Q s) (hs : P.rely s s') : safe P p E Q s' := by
  cases p with
  | done a => exact fun t ht => h t (P.rely_trans _ _ _ hs ht)
  | exit r => exact fun t ht => h t (P.rely_trans _ _ _ hs ht)
  | call c k => exact fun t ht => h t (P.rely_trans _ _ _ hs ht)
  | more => exact fun t ht => h t (P.rely_trans _ _ _ hs ht)

lemma safe_mono {p : Prog C A ρ α} (hE : ∀ r s, E r s → E' r s) (hQ : ∀ a s, Q a s → Q' a s)
    (h : safe P p E Q s) : safe P p E' Q' s := by
  induction p generalizing s with
  | done a => exact fun s' hs => hQ a s' (h s' hs)
  | exit r => exact fun s' hs => hE r s' (h s' hs)
  | call c k ih =>
    intro s' hs
    obtain ⟨hok, hcall⟩ := h s' hs
    exact ⟨hok, fun a t ht => ⟨(hcall a t ht).1, ih a (hcall a t ht).2⟩⟩
  | more => exact h

/-! ### The rules -/

theorem safe_bind {p : Prog C A ρ α} {f : α → Prog C A ρ β} {Q : β → σ → Prop}
    (h : safe P p E (fun a => safe P (f a) E Q) s) : safe P (p >>= f) E Q s := by
  show safe P (p.bind f) E Q s
  induction p generalizing s with
  | done a => exact h s (P.rely_refl s)
  | exit r => exact h
  | call c k ih =>
    intro s' hs
    obtain ⟨hok, hcall⟩ := h s' hs
    exact ⟨hok, fun a t ht => ⟨(hcall a t ht).1, ih a (hcall a t ht).2⟩⟩
  | more => exact h

theorem safe_seq {p : Prog C A ρ α} {f : α → Prog C A ρ β} {R : α → σ → Prop} {Q : β → σ → Prop}
    (h : safe P p E R s) (hf : ∀ a s, R a s → safe P (f a) E Q s) : safe P (p >>= f) E Q s :=
  safe_bind (safe_mono (fun _ _ => id) hf h)

/-- One call. What comes after it must bear what the others do after it. -/
theorem safe_ask {c : C} {Q : A c → σ → Prop}
    (h : ∀ s', P.rely s s' → P.ok s' c ∧ ∀ a s'', P.act s' c a = some s'' → P.guar s' s'' ∧
      ∀ t, P.rely s'' t → Q a t) : safe P (Prog.ask c : Prog C A ρ (A c)) E Q s := h

theorem safe_returned {p : Prog C A ρ ρ} {E : ρ' → σ → Prop} {Q : ρ → σ → Prop}
    (h : safe P p Q Q s) : safe P (p.returned : Prog C A ρ' ρ) E Q s := by
  induction p generalizing s with
  | done a => exact h
  | exit r => exact h
  | call c k ih =>
    intro s' hs
    obtain ⟨hok, hcall⟩ := h s' hs
    exact ⟨hok, fun a t ht => ⟨(hcall a t ht).1, ih a (hcall a t ht).2⟩⟩
  | more => exact h

/-- **The rule of a `while` loop**: an invariant that the body and the others keep. -/
theorem safe_loop {cond : α → Bool} {body : α → Prog C A ρ α} {fuel : ℕ} {I : α → σ → Prop} {t : α}
    (hrely : ∀ t s s', I t s → P.rely s s' → I t s') (hspins : ∀ t s, I t s → P.spins s)
    (hbody : ∀ t s, I t s → cond t = true → safe P (body t) E I s) (h : I t s) :
    safe P (Prog.loop cond body fuel t) E (fun t s => I t s ∧ cond t = false) s := by
  induction fuel generalizing t s with
  | zero =>
    unfold Prog.loop
    split_ifs with hc
    · exact fun s' hs => hspins t s' (hrely t s s' h hs)
    · exact fun s' hs => ⟨hrely t s s' h hs, by simpa using hc⟩
  | succ fuel ih =>
    unfold Prog.loop
    split_ifs with hc
    · exact safe_seq (hbody t s h hc) fun t' s' hI => ih hI
    · exact fun s' hs => ⟨hrely t s s' h hs, by simpa using hc⟩

/-! ### Programs over some of the calls -/

/-- A program over the calls `C`, each of which is one of `C'` with the same answers. -/
def embed (f : C → C') (g : (c : C) → A' (f c) ≃ A c) : Prog C A ρ α → Prog C' A' ρ α
  | .done a => .done a
  | .exit r => .exit r
  | .call c k => .call (f c) fun a => embed f g (k (g c a))
  | .more => .more

/-- The pact, as far as it speaks of the calls of such a program. -/
def Pact.pull (P : Pact C' A' σ) (f : C → C') (g : (c : C) → A' (f c) ≃ A c) : Pact C A σ where
  act s c a := P.act s (f c) ((g c).symm a)
  ok s c := P.ok s (f c)
  rely := P.rely
  guar := P.guar
  spins := P.spins
  rely_refl := P.rely_refl
  rely_trans := P.rely_trans

theorem safe_embed {P : Pact C' A' σ} {f : C → C'} {g : (c : C) → A' (f c) ≃ A c}
    {p : Prog C A ρ α} (h : safe (P.pull f g) p E Q s) : safe P (embed f g p) E Q s := by
  induction p generalizing s with
  | done a => exact h
  | exit r => exact h
  | call c k ih =>
    intro s' hs
    obtain ⟨hok, hcall⟩ := h s' hs
    refine ⟨hok, fun a t ht => ?_⟩
    obtain ⟨hguar, hnext⟩ := hcall (g c a) t (by simpa [Pact.pull] using ht)
    exact ⟨hguar, ih (g c a) hnext⟩
  | more => exact h

end Safe

/-! ### All the threads -/

section Runs

variable {ι : Type} {C : ι → Type} {A : (i : ι) → C i → Type} {ρ α : ι → Type} {σ : Type}

/-- The shared state, and what each thread has still to do. -/
structure Config (C : ι → Type) (A : (i : ι) → C i → Type) (ρ α : ι → Type) (σ : Type) where
  shared : σ
  progs : (i : ι) → Prog (C i) (A i) (ρ i) (α i)

variable [DecidableEq ι]

/-- One of the threads makes a call. -/
inductive Step (act : (i : ι) → σ → (c : C i) → A i c → Option σ) :
    Config C A ρ α σ → Config C A ρ α σ → Prop
  | call {cfg : Config C A ρ α σ} {s' : σ} (i : ι) {c : C i} {k : A i c → Prog (C i) (A i) (ρ i) (α i)}
      (a : A i c) (hp : cfg.progs i = .call c k) (ha : act i cfg.shared c a = some s') :
      Step act cfg ⟨s', Function.update cfg.progs i (k a)⟩

/-- Any number of calls, in any order. -/
def Runs (act : (i : ι) → σ → (c : C i) → A i c → Option σ) :
    Config C A ρ α σ → Config C A ρ α σ → Prop := Relation.ReflTransGen (Step act)

/-- A move: the thread that makes its call, and what a call is answered. -/
abbrev Move (C : ι → Type) (A : (i : ι) → C i → Type) := (i : ι) × ((c : C i) → A i c)

/-- One move; `none` when the thread has no call to make or the answer is not possible. -/
def advance (act : (i : ι) → σ → (c : C i) → A i c → Option σ) (cfg : Config C A ρ α σ) (m : Move C A) :
    Option (Config C A ρ α σ) :=
  match cfg.progs m.1 with
  | .call c k => (act m.1 cfg.shared c (m.2 c)).map fun s' =>
      ⟨s', Function.update cfg.progs m.1 (k (m.2 c))⟩
  | _ => none

/-- The run of a list of moves. -/
def exec (act : (i : ι) → σ → (c : C i) → A i c → Option σ) (cfg : Config C A ρ α σ)
    (ms : List (Move C A)) : Option (Config C A ρ α σ) := ms.foldlM (advance act) cfg

lemma step_of_advance {act : (i : ι) → σ → (c : C i) → A i c → Option σ} {cfg cfg' : Config C A ρ α σ}
    {m : Move C A} (h : advance act cfg m = some cfg') : Step act cfg cfg' := by
  unfold advance at h
  split at h
  · rename_i c k hp
    obtain ⟨s', ha, rfl⟩ := Option.map_eq_some_iff.mp h
    exact .call m.1 (m.2 c) hp ha
  · cases h

lemma runs_of_exec {act : (i : ι) → σ → (c : C i) → A i c → Option σ} {ms : List (Move C A)}
    {cfg cfg' : Config C A ρ α σ} (h : exec act cfg ms = some cfg') : Runs act cfg cfg' := by
  unfold exec at h
  induction ms generalizing cfg with
  | nil =>
    cases h
    exact .refl
  | cons m ms ih =>
    rw [List.foldlM_cons] at h
    obtain ⟨cfg₁, hm, h⟩ := Option.bind_eq_some_iff.mp h
    exact .head (step_of_advance hm) (ih h)

theorem exists_of_exec {act : (i : ι) → σ → (c : C i) → A i c → Option σ} {ms : List (Move C A)}
    {cfg : Config C A ρ α σ} {p : Config C A ρ α σ → Bool} (h : (exec act cfg ms).any p = true) :
    ∃ cfg', Runs act cfg cfg' ∧ p cfg' = true := by
  obtain ⟨cfg', he, hp⟩ := (Option.any_eq_true _ _).mp h
  exact ⟨cfg', runs_of_exec he, hp⟩

variable {P : (i : ι) → Pact (C i) (A i) σ} {cfg cfg' : Config C A ρ α σ}
  {E : (i : ι) → ρ i → σ → Prop} {Q : (i : ι) → α i → σ → Prop}

/-- The guarantee of each thread is within what the others rely on. -/
def Fits (P : (i : ι) → Pact (C i) (A i) σ) : Prop :=
  ∀ i j, i ≠ j → ∀ s s', (P i).guar s s' → (P j).rely s s'

/-- Every thread is safe. -/
def Config.Safe (P : (i : ι) → Pact (C i) (A i) σ) (E : (i : ι) → ρ i → σ → Prop)
    (Q : (i : ι) → α i → σ → Prop) (cfg : Config C A ρ α σ) : Prop :=
  ∀ i, safe (P i) (cfg.progs i) (E i) (Q i) cfg.shared

/-- A call of a safe thread is in order and does what the thread guarantees, and the threads stay
safe. -/
theorem Config.Safe.step (h : cfg.Safe P E Q) (hfits : Fits P)
    (hs : Step (fun i => (P i).act) cfg cfg') :
    (∃ i, (P i).guar cfg.shared cfg'.shared) ∧ cfg'.Safe P E Q := by
  obtain ⟨i, a, hp, ha⟩ := hs
  have hi := h i
  rw [hp] at hi
  obtain ⟨hguar, hnext⟩ := (hi cfg.shared ((P i).rely_refl _)).2 a _ ha
  refine ⟨⟨i, hguar⟩, fun j => ?_⟩
  by_cases hj : j = i
  · subst hj
    simpa using hnext
  · simp only [Function.update_of_ne hj]
    exact safe_rely (h j) (hfits i j (Ne.symm hj) _ _ hguar)

/-- **Threads that fit together are safe in every run.** -/
theorem safe_of_runs (hfits : Fits P) (h : cfg.Safe P E Q) (hr : Runs (fun i => (P i).act) cfg cfg') :
    cfg'.Safe P E Q := by
  induction hr with
  | refl => exact h
  | tail _ hs ih => exact (ih.step hfits hs).2

theorem kept_of_runs {J : σ → Prop} (hfits : Fits P) (h : cfg.Safe P E Q)
    (hJ : ∀ i s s', (P i).guar s s' → J s → J s') (h₀ : J cfg.shared)
    (hr : Runs (fun i => (P i).act) cfg cfg') : J cfg'.shared := by
  induction hr with
  | refl => exact h₀
  | tail hr hs ih =>
    obtain ⟨⟨i, hguar⟩, -⟩ := (safe_of_runs hfits h hr).step hfits hs
    exact hJ i _ _ hguar ih

omit [DecidableEq ι] in
/-- **Every call a thread comes to is in order.** -/
theorem Config.Safe.ok (h : cfg.Safe P E Q) {i : ι} {c : C i} (hc : (cfg.progs i).now = some c) :
    (P i).ok cfg.shared c := by
  have hi := h i
  revert hi hc
  cases cfg.progs i with
  | call c' k =>
    intro hc hi
    obtain rfl := Option.some.inj hc
    exact (hi _ ((P i).rely_refl _)).1
  | done | exit | more => intro hc; cases hc

omit [DecidableEq ι] in
theorem Config.Safe.exited (h : cfg.Safe P E Q) {i : ι} {r : ρ i} (hp : cfg.progs i = .exit r) :
    E i r cfg.shared := by
  have hi := h i
  rw [hp] at hi
  exact hi _ ((P i).rely_refl _)

omit [DecidableEq ι] in
theorem Config.Safe.ended (h : cfg.Safe P E Q) {i : ι} (hp : (cfg.progs i).now = none) :
    (∃ r, E i r cfg.shared) ∨ (∃ a, Q i a cfg.shared) ∨ (P i).spins cfg.shared := by
  have hi := h i
  revert hi hp
  cases cfg.progs i with
  | done a => exact fun _ hi => .inr (.inl ⟨a, hi _ ((P i).rely_refl _)⟩)
  | exit r => exact fun _ hi => .inl ⟨r, hi _ ((P i).rely_refl _)⟩
  | call c k => intro hp; cases hp
  | more => exact fun _ hi => .inr (.inr (hi _ ((P i).rely_refl _)))

end Runs

end Kierki.Lib.Threads
