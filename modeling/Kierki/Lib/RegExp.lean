import Mathlib.Computability.RegularExpressions

/-!
# Character classes and counted repetition for regular expressions

The forms a programmer's regular expression has beyond the Kleene algebra, as
`RegularExpression`s: a fixed text (`text`), a class of symbols (`oneOf`), a repetition counted
exactly (`times`) and up to a bound (`upTo`), one or more (`many1`). Each comes with the lemma that
says which words it matches. Last comes the walk from one leftmost match to the next, and how it reads
back a text that is put together from matches.
-/

namespace Kierki.Lib.RegExp

open RegularExpression

variable {α : Type*}

/-- The expression that matches the one word `w`. -/
def text : List α → RegularExpression α
  | [] => 1
  | a :: w => char a * text w

/-- The expression `[as]`: one symbol of the list. -/
def oneOf : List α → RegularExpression α
  | [] => 0
  | a :: as => char a + oneOf as

/-- The expression `P{n}`. -/
def times : ℕ → RegularExpression α → RegularExpression α
  | 0, _ => 1
  | n + 1, P => P * times n P

/-- The expression `P{0,n}`. -/
def upTo : ℕ → RegularExpression α → RegularExpression α
  | 0, _ => 1
  | n + 1, P => 1 + P * upTo n P

/-- The expression `P+`. -/
def many1 (P : RegularExpression α) : RegularExpression α := P * star P

/-! ### What the forms match -/

section Mem

variable {P Q : RegularExpression α} {x : List α}

theorem mem_mul : x ∈ (P * Q).matches' ↔ ∃ y ∈ P.matches', ∃ z ∈ Q.matches', y ++ z = x := by
  rw [matches'_mul, Language.mem_mul]

theorem mem_add : x ∈ (P + Q).matches' ↔ x ∈ P.matches' ∨ x ∈ Q.matches' := by
  rw [matches'_add, Language.mem_add]

theorem mem_char {a : α} : x ∈ (char a).matches' ↔ x = [a] := Iff.rfl

theorem mem_one : x ∈ (1 : RegularExpression α).matches' ↔ x = [] := Iff.rfl

theorem mem_text (w : List α) : x ∈ (text w).matches' ↔ x = w := by
  induction w generalizing x with
  | nil => exact mem_one
  | cons a w ih =>
    simp only [text, mem_mul, mem_char, ih]
    constructor
    · rintro ⟨_, rfl, _, rfl, rfl⟩
      rfl
    · rintro rfl
      exact ⟨_, rfl, _, rfl, rfl⟩

theorem mem_oneOf (as : List α) : x ∈ (oneOf as).matches' ↔ ∃ a ∈ as, x = [a] := by
  induction as with
  | nil => simp [oneOf]
  | cons a as ih => simp only [oneOf, mem_add, mem_char, ih, List.mem_cons, exists_eq_or_imp]

theorem mem_text_mul (w : List α) : x ∈ (text w * Q).matches' ↔ ∃ z ∈ Q.matches', w ++ z = x := by
  simp only [mem_mul, mem_text, exists_eq_left]

theorem mem_times (n : ℕ) : x ∈ (times n P).matches' ↔
    ∃ L : List (List α), L.length = n ∧ (∀ y ∈ L, y ∈ P.matches') ∧ L.flatten = x := by
  induction n generalizing x with
  | zero => simp [times, List.length_eq_zero_iff, eq_comm]
  | succ n ih =>
    simp only [times, mem_mul, ih]
    constructor
    · rintro ⟨y, hy, _, ⟨L, rfl, hL, rfl⟩, rfl⟩
      exact ⟨y :: L, rfl, by simpa using ⟨hy, hL⟩, rfl⟩
    · rintro ⟨L, hn, hL, rfl⟩
      obtain ⟨y, L, rfl⟩ := List.exists_cons_of_length_eq_add_one hn
      simp only [List.mem_cons, forall_eq_or_imp] at hL
      exact ⟨y, hL.1, _, ⟨L, by simpa using hn, hL.2, rfl⟩, rfl⟩

theorem mem_upTo (n : ℕ) : x ∈ (upTo n P).matches' ↔
    ∃ L : List (List α), L.length ≤ n ∧ (∀ y ∈ L, y ∈ P.matches') ∧ L.flatten = x := by
  induction n generalizing x with
  | zero => simp [upTo, List.length_eq_zero_iff, eq_comm]
  | succ n ih =>
    simp only [upTo, mem_add, mem_one, mem_mul, ih]
    constructor
    · rintro (rfl | ⟨y, hy, _, ⟨L, hn, hL, rfl⟩, rfl⟩)
      · exact ⟨[], by simp, by simp, rfl⟩
      · exact ⟨y :: L, by simpa using hn, by simpa using ⟨hy, hL⟩, rfl⟩
    · rintro ⟨L, hn, hL, rfl⟩
      cases L with
      | nil => exact .inl rfl
      | cons y L =>
        simp only [List.mem_cons, forall_eq_or_imp] at hL
        exact .inr ⟨y, hL.1, _, ⟨L, by simpa using hn, hL.2, rfl⟩, rfl⟩

theorem mem_many1_oneOf (as : List α) :
    x ∈ (many1 (oneOf as)).matches' ↔ x ≠ [] ∧ ∀ a ∈ x, a ∈ as := by
  simp only [many1, mem_mul, mem_oneOf, matches'_star, Language.mem_kstar]
  constructor
  · rintro ⟨_, ⟨a, ha, rfl⟩, _, ⟨L, rfl, hL⟩, rfl⟩
    refine ⟨by simp, ?_⟩
    simp only [List.singleton_append, List.mem_cons, List.mem_flatten]
    rintro b (rfl | ⟨y, hy, hb⟩)
    · exact ha
    · obtain ⟨c, hc, rfl⟩ := hL y hy
      rwa [List.mem_singleton.mp hb]
  · rintro ⟨hne, hx⟩
    obtain ⟨a, x, rfl⟩ := List.exists_cons_of_ne_nil hne
    refine ⟨[a], ⟨a, hx a (by simp), rfl⟩, x, ⟨x.map fun b => [b], ?_, ?_⟩, rfl⟩
    · induction x with
      | nil => rfl
      | cons b x ih => simpa using ih (by simp) (by grind)
    · intro y hy
      obtain ⟨b, hb, rfl⟩ := List.mem_map.mp hy
      exact ⟨b, hx b (by simp [hb]), rfl⟩

end Mem

/-! ### Leftmost matches -/

section Leftmost

variable [DecidableEq α] (P : RegularExpression α)

/-- The length of the longest match at the front of a text, `0` when there is none. -/
def longest (s : List α) : ℕ := Nat.findGreatest (fun n => P.rmatch (s.take n) = true) s.length

/-- The matches of an expression one after another: each begins as far to the left as it can after
the one before, and is as long as it can be. Empty matches are passed over. -/
def leftmost : List α → List (List α)
  | [] => []
  | a :: s =>
    match longest P (a :: s) with
    | 0 => leftmost s
    | n + 1 => (a :: s.take n) :: leftmost (s.drop n)
termination_by s => s.length

variable {P}

/-- A match at the front that no longer prefix matches is the one that is found. -/
theorem longest_append {w rest : List α} (h : w ∈ P.matches')
    (hmax : ∀ n, w.length < n → n ≤ (w ++ rest).length → (w ++ rest).take n ∉ P.matches') :
    longest P (w ++ rest) = w.length := by
  unfold longest
  rw [Nat.findGreatest_eq_iff]
  refine ⟨by simp, fun _ => ?_, fun n hn hle hm => ?_⟩
  · rwa [List.take_left, rmatch_iff_matches']
  · exact hmax n hn hle ((rmatch_iff_matches' _ _).mp hm)

/-- **A match at the front is taken off**, when no longer prefix matches. -/
theorem leftmost_append {w rest : List α} (hne : w ≠ []) (h : w ∈ P.matches')
    (hmax : ∀ n, w.length < n → n ≤ (w ++ rest).length → (w ++ rest).take n ∉ P.matches') :
    leftmost P (w ++ rest) = w :: leftmost P rest := by
  obtain ⟨a, w, rfl⟩ := List.exists_cons_of_ne_nil hne
  have hlongest := longest_append h hmax
  rw [List.cons_append] at hlongest ⊢
  rw [leftmost, hlongest]
  simp

/-- Where nothing matches at the front, the walk goes on behind the first symbol. -/
theorem leftmost_cons {a : α} {s : List α}
    (h : ∀ n, 0 < n → n ≤ s.length + 1 → (a :: s).take n ∉ P.matches') :
    leftmost P (a :: s) = leftmost P s := by
  have hlongest : longest P (a :: s) = 0 := by
    unfold longest
    rw [Nat.findGreatest_eq_zero_iff]
    intro n hpos hle hm
    exact h n hpos hle ((rmatch_iff_matches' _ _).mp hm)
  rw [leftmost, hlongest]

end Leftmost

end Kierki.Lib.RegExp
