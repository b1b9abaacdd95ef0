import Mathlib.Data.List.Basic

/-!
# Programs over calls

A function that talks to its surroundings through calls (of the system, of a library) is a tree: at
each call the answer chooses the branch. `Prog C A ρ α` are the bodies of functions that return a `ρ`:
the calls are `C`, the answers to `c` are `A c`, and `exit r` is the `return` in the middle of a body.
A loop is given fuel, and `more` is a loop that has used it up.

`Rules` say which calls are in order at a state of knowledge, which answers are counted on and what is
known after them; `Prog.wp` is the weakest precondition of a program under them. It speaks of every
call the program makes and not of its results alone, so it says something of a program that never ends.

* `wp_bind`, `wp_returned`, `wp_forM`, `wp_foldlM`, `wp_loop`: the rules for the parts of a program;
* `wp_ends`: a program from which the rules demand an end comes to it, whatever the answers are;
* `wp_log`: the calls of a run, with the answers it was given, keep to the rules, and the run ends as the
  precondition says.
-/

namespace Kierki.Lib.Calls

/-- The bodies of the functions that return a `ρ`, over the calls `C` with the answers `A`. -/
inductive Prog (C : Type) (A : C → Type) (ρ α : Type)
  | done (a : α)
  /-- The function returns in the middle of its body. -/
  | exit (r : ρ)
  | call (c : C) (k : A c → Prog C A ρ α)
  /-- A loop has used up its fuel. -/
  | more

/-- What is demanded of the calls of a program, by what is known before them. -/
structure Rules (C : Type) (A : C → Type) (σ : Type) where
  /-- The calls that are in order. -/
  ok : σ → C → Prop
  /-- The answers that are counted on. -/
  may : σ → (c : C) → A c → Prop
  /-- What is known after an answer. -/
  next : σ → (c : C) → A c → σ
  /-- Where a loop may go round. -/
  spins : σ → Prop

namespace Prog

variable {C : Type} {A : C → Type} {ρ ρ' α β γ σ : Type}

/-! ### Composition -/

def bind : Prog C A ρ α → (α → Prog C A ρ β) → Prog C A ρ β
  | done a, f => f a
  | exit r, _ => exit r
  | call c k, f => call c fun a => (k a).bind f
  | more, _ => more

instance : Monad (Prog C A ρ) where
  pure := done
  bind := bind

/-- One call. -/
def ask (c : C) : Prog C A ρ (A c) := call c done

/-- The call of a function: its `return` is the value of the call. -/
def returned : Prog C A ρ ρ → Prog C A ρ' ρ
  | done a => done a
  | exit r => done r
  | call c k => call c fun a => (k a).returned
  | more => more

/-- A `while` loop over the variable `t`. -/
def loop (cond : α → Bool) (body : α → Prog C A ρ α) : ℕ → α → Prog C A ρ α
  | 0, t => if cond t then more else done t
  | fuel + 1, t => if cond t then body t >>= loop cond body fuel else done t

/-- The call the program is at. -/
def now : Prog C A ρ α → Option C
  | call c _ => some c
  | _ => none

/-- The program after one call, `answer` being what the surroundings say. -/
def step (p : Prog C A ρ α) (answer : (c : C) → A c) : Option (Prog C A ρ α) :=
  match p with
  | call c k => some (k (answer c))
  | _ => none

/-- Whatever the answers are, the program comes to an end, makes no other calls than `P` on its way
and ends in `Q` or in a `return` in `E`. -/
def Ends (P : C → Prop) (E : ρ → Prop) (Q : α → Prop) : Prog C A ρ α → Prop
  | done a => Q a
  | exit r => E r
  | call c k => P c ∧ ∀ a, (k a).Ends P E Q
  | more => False

lemma Ends.mono {P P' : C → Prop} {E E' : ρ → Prop} {Q Q' : α → Prop} {p : Prog C A ρ α}
    (hP : ∀ c, P c → P' c) (hE : ∀ r, E r → E' r) (hQ : ∀ a, Q a → Q' a) (h : p.Ends P E Q) :
    p.Ends P' E' Q' := by
  induction p with
  | done a => exact hQ a h
  | exit r => exact hE r h
  | call c k ih => exact ⟨hP c h.1, fun a => ih a (h.2 a)⟩
  | more => exact h

/-! ### The weakest precondition -/

/-- Every call of the program is in order, and it ends in `Q` or in a `return` in `E`, if it ends. -/
def wp (R : Rules C A σ) : Prog C A ρ α → (ρ → σ → Prop) → (α → σ → Prop) → σ → Prop
  | done a, _, Q, s => Q a s
  | exit r, E, _, s => E r s
  | call c k, E, Q, s => R.ok s c ∧ ∀ a, R.may s c a → (k a).wp R E Q (R.next s c a)
  | more, _, _, s => R.spins s

section Wp

variable {R : Rules C A σ} {E : ρ → σ → Prop} {Q : α → σ → Prop} {s : σ}

@[simp] lemma wp_pure {a : α} : wp R (pure a : Prog C A ρ α) E Q s ↔ Q a s := Iff.rfl

lemma wp_step {p p' : Prog C A ρ α} {answer : (c : C) → A c} (h : wp R p E Q s)
    (hs : p.step answer = some p') : ∃ c, p.now = some c ∧ R.ok s c ∧
      (R.may s c (answer c) → wp R p' E Q (R.next s c (answer c))) := by
  cases p with
  | call c k =>
    obtain rfl := Option.some.inj hs
    exact ⟨c, rfl, h.1, h.2 _⟩
  | done | exit | more => cases hs

theorem wp_mono {E' : ρ → σ → Prop} {Q' : α → σ → Prop} {p : Prog C A ρ α}
    (hE : ∀ r s, E r s → E' r s) (hQ : ∀ a s, Q a s → Q' a s) (h : wp R p E Q s) :
    wp R p E' Q' s := by
  induction p generalizing s with
  | done a => exact hQ a s h
  | exit r => exact hE r s h
  | call c k ih => exact ⟨h.1, fun a ha => ih a (h.2 a ha)⟩
  | more => exact h

@[simp] theorem wp_bind {p : Prog C A ρ α} {f : α → Prog C A ρ β} {Q : β → σ → Prop} :
    wp R (p >>= f) E Q s ↔ wp R p E (fun a => wp R (f a) E Q) s := by
  show wp R (p.bind f) E Q s ↔ _
  induction p generalizing s with
  | done a => rfl
  | exit r => rfl
  | call c k ih =>
    show R.ok s c ∧ _ ↔ R.ok s c ∧ _
    exact and_congr_right fun _ => forall₂_congr fun a _ => ih a
  | more => rfl

@[simp] theorem wp_returned {p : Prog C A ρ ρ} {E : ρ' → σ → Prop} {Q : ρ → σ → Prop} :
    wp R p.returned E Q s ↔ wp R p Q Q s := by
  induction p generalizing s with
  | done a => rfl
  | exit r => rfl
  | call c k ih =>
    show R.ok s c ∧ _ ↔ R.ok s c ∧ _
    exact and_congr_right fun _ => forall₂_congr fun a _ => ih a
  | more => rfl

@[simp] lemma wp_ite {b : Prop} [Decidable b] {p q : Prog C A ρ α} :
    wp R (if b then p else q) E Q s ↔ if b then wp R p E Q s else wp R q E Q s := by
  split <;> rfl

/-- **The rule of a `for` loop.** `I` speaks of the entries that are done. -/
theorem wp_forM {l : List β} {f : β → Prog C A ρ PUnit} {I : List β → σ → Prop}
    (hf : ∀ before b after s, l = before ++ b :: after → I before s →
      wp R (f b) E (fun _ => I (before ++ [b])) s)
    (h : I [] s) : wp R (forM l f) E (fun _ => I l) s := by
  suffices H : ∀ before after s, l = before ++ after → I before s →
      wp R (forM after f) E (fun _ => I l) s from H [] l s rfl h
  intro before after
  induction after generalizing before with
  | nil =>
    intro s hl hs
    simp only [List.forM_nil, wp_pure]
    rwa [hl, List.append_nil]
  | cons b after ih =>
    intro s hl hs
    simp only [List.forM_cons, wp_bind]
    refine wp_mono (fun _ _ => id) (fun _ s' hs' => ?_) (hf before b after s hl hs)
    exact ih (before ++ [b]) s' (by simp [hl]) hs'

theorem wp_forM_keeps {l : List β} {f : β → Prog C A ρ PUnit} {I : σ → Prop}
    (hf : ∀ b ∈ l, ∀ s, I s → wp R (f b) E (fun _ => I) s) (h : I s) :
    wp R (forM l f) E (fun _ => I) s :=
  wp_forM (I := fun _ => I) (fun before b after s hl => hf b (by simp [hl]) s) h

theorem wp_foldlM {l : List β} {f : α → β → Prog C A ρ α} {I : List β → α → σ → Prop} {t : α}
    (hf : ∀ before b after t s, l = before ++ b :: after → I before t s →
      wp R (f t b) E (I (before ++ [b])) s)
    (h : I [] t s) : wp R (l.foldlM f t) E (I l) s := by
  suffices H : ∀ before after t s, l = before ++ after → I before t s →
      wp R (after.foldlM f t) E (I l) s from H [] l t s rfl h
  intro before after
  induction after generalizing before with
  | nil =>
    intro t s hl hs
    simp only [List.foldlM_nil, wp_pure]
    rwa [hl, List.append_nil]
  | cons b after ih =>
    intro t s hl hs
    simp only [List.foldlM_cons, wp_bind]
    refine wp_mono (fun _ _ => id) (fun t' s' hs' => ?_) (hf before b after t s hl hs)
    exact ih (before ++ [b]) t' s' (by simp [hl]) hs'

theorem wp_foldlM_keeps {l : List β} {f : α → β → Prog C A ρ α} {I : α → σ → Prop} {t : α}
    (hf : ∀ b ∈ l, ∀ t s, I t s → wp R (f t b) E I s) (h : I t s) : wp R (l.foldlM f t) E I s :=
  wp_foldlM (I := fun _ => I) (fun before b after t s hl => hf b (by simp [hl]) t s) h

/-- **The rule of a `while` loop**, `I` speaking of the fuel that is left. -/
theorem wp_loop_fuel {cond : α → Bool} {body : α → Prog C A ρ α} {I : ℕ → α → σ → Prop} {fuel : ℕ} {t : α}
    (hspins : ∀ t s, I 0 t s → cond t = true → R.spins s)
    (hbody : ∀ n t s, I (n + 1) t s → cond t = true → wp R (body t) E (I n) s) (h : I fuel t s) :
    wp R (loop cond body fuel t) E (fun t s => cond t = false ∧ ∃ n, I n t s) s := by
  induction fuel generalizing t s with
  | zero =>
    unfold loop
    split_ifs with hc
    · exact hspins t s h hc
    · exact ⟨by simpa using hc, 0, h⟩
  | succ fuel ih =>
    unfold loop
    split_ifs with hc
    · exact wp_bind.mpr (wp_mono (fun _ _ => id) (fun _ _ => ih) (hbody fuel t s h hc))
    · exact ⟨by simpa using hc, fuel + 1, h⟩

theorem wp_loop {cond : α → Bool} {body : α → Prog C A ρ α} {fuel : ℕ} {I : α → σ → Prop} {t : α}
    (hspins : ∀ t s, I t s → R.spins s) (hbody : ∀ t s, I t s → wp R (body t) E I s) (h : I t s) :
    wp R (loop cond body fuel t) E I s :=
  wp_mono (fun _ _ => id) (fun _ _ hI => hI.2.choose_spec)
    (wp_loop_fuel (I := fun _ => I) (fun t s hI _ => hspins t s hI) (fun _ t s hI _ => hbody t s hI) h)

/-- **A program that may not go round comes to its end.** Where what is known never leaves `D`, and in
`D` no loop may go round and every answer is counted on. -/
theorem wp_ends {D : σ → Prop} {P : C → Prop} {p : Prog C A ρ α} (hspins : ∀ s, D s → ¬R.spins s)
    (hok : ∀ s c, D s → R.ok s c → P c)
    (hnext : ∀ s c a, D s → R.ok s c → R.may s c a ∧ D (R.next s c a)) (h : wp R p E Q s) (hs : D s) :
    p.Ends P (fun r => ∃ s, D s ∧ E r s) (fun a => ∃ s, D s ∧ Q a s) := by
  induction p generalizing s with
  | done a => exact ⟨s, hs, h⟩
  | exit r => exact ⟨s, hs, h⟩
  | call c k ih =>
    refine ⟨hok s c hs h.1, fun a => ?_⟩
    obtain ⟨hmay, hs'⟩ := hnext s c a hs h.1
    exact ih a (h.2 a hmay) hs'
  | more => exact hspins s hs h

end Wp

/-! ### Runs -/

/-- The calls of a run and their answers, where `env n c` is the answer if the `n`-th call is `c`. -/
def log (env : ℕ → (c : C) → A c) : ℕ → Prog C A ρ α → List ((c : C) × A c)
  | n, call c k => ⟨c, env n c⟩ :: log env (n + 1) (k (env n c))
  | _, done _ | _, exit _ | _, more => []

/-- How a run ends, `none` standing for a loop that has used up its fuel. -/
def outcome (env : ℕ → (c : C) → A c) : ℕ → Prog C A ρ α → Option (ρ ⊕ α)
  | n, call c k => outcome env (n + 1) (k (env n c))
  | _, done a => some (.inr a)
  | _, exit r => some (.inl r)
  | _, more => none

/-- The answers before a run do not matter. -/
lemma log_update {env : ℕ → (c : C) → A c} {answer : (c : C) → A c} {k n : ℕ} (hk : k < n)
    (p : Prog C A ρ α) : p.log (Function.update env k answer) n = p.log env n := by
  induction p generalizing n with
  | done | exit | more => rfl
  | call c f ih =>
    unfold log
    rw [Function.update_of_ne (Nat.ne_of_gt hk), ih (env n c) (Nat.lt_succ_of_lt hk)]

lemma outcome_update {env : ℕ → (c : C) → A c} {answer : (c : C) → A c} {k n : ℕ} (hk : k < n)
    (p : Prog C A ρ α) : p.outcome (Function.update env k answer) n = p.outcome env n := by
  induction p generalizing n with
  | done | exit | more => rfl
  | call c f ih =>
    unfold outcome
    rw [Function.update_of_ne (Nat.ne_of_gt hk), ih (env n c) (Nat.lt_succ_of_lt hk)]

end Prog

namespace Rules

variable {C : Type} {A : C → Type} {σ : Type}

/-- All these calls are in order, one after another. -/
def Kept (R : Rules C A σ) : σ → List ((c : C) × A c) → Prop
  | _, [] => True
  | s, ⟨c, a⟩ :: l => R.ok s c ∧ R.Kept (R.next s c a) l

/-- What is known after these calls. -/
def after (R : Rules C A σ) (s : σ) (l : List ((c : C) × A c)) : σ :=
  l.foldl (fun s x => R.next s x.1 x.2) s

/-- The end of a run. -/
def Ended {ρ α : Type} (R : Rules C A σ) (E : ρ → σ → Prop) (Q : α → σ → Prop) (s : σ) :
    Option (ρ ⊕ α) → Prop
  | none => R.spins s
  | some (.inl r) => E r s
  | some (.inr a) => Q a s

lemma Ended.always {ρ α : Type} {R : Rules C A σ} {E : ρ → σ → Prop} {Q : α → σ → Prop} {P : σ → Prop}
    {s : σ} {out : Option (ρ ⊕ α)} (h : R.Ended E Q s out) (hspins : ∀ s, R.spins s → P s)
    (hE : ∀ r s, E r s → P s) (hQ : ∀ a s, Q a s → P s) : P s :=
  match out, h with
  | none, h => hspins s h
  | some (.inl r), h => hE r s h
  | some (.inr a), h => hQ a s h

end Rules

namespace Prog

variable {C : Type} {A : C → Type} {ρ α σ : Type} {R : Rules C A σ} {E : ρ → σ → Prop}
  {Q : α → σ → Prop}

/-- **What the precondition says of a run.** -/
theorem wp_log {p : Prog C A ρ α} {s : σ} {env : ℕ → (c : C) → A c} (h : wp R p E Q s)
    (hmay : ∀ s n c, R.may s c (env n c)) (n : ℕ) :
    R.Kept s (p.log env n) ∧ R.Ended E Q (R.after s (p.log env n)) (p.outcome env n) := by
  induction p generalizing s n with
  | done a => exact ⟨trivial, h⟩
  | exit r => exact ⟨trivial, h⟩
  | more => exact ⟨trivial, h⟩
  | call c k ih =>
    obtain ⟨hkept, hended⟩ := ih (env n c) (h.2 _ (hmay _ _ _)) (n + 1)
    exact ⟨⟨h.1, hkept⟩, hended⟩

end Prog

end Kierki.Lib.Calls
