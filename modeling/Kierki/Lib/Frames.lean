import Mathlib.Data.List.Infix

/-!
# Messages ended by a delimiter

A message is framed by a delimiter when it ends with the delimiter and nothing before its end does. A
reader that takes a stream of framed messages symbol by symbol, and looks after each symbol whether what
it has collected ends with the delimiter, finds every message at its last symbol and nowhere else
(`Inside.next`): no message has to be looked at beyond its end.

`Open` is what such a reader has collected while it has found nothing.
-/

namespace Kierki.Lib.Frames

variable {γ : Type*} {d m p : List γ}

/-- The message ends with the delimiter, and nothing before its end does. -/
structure Framed (d m : List γ) : Prop where
  ends : d <:+ m
  first : ∀ p, p <+: m → d <:+ p → p = m

/-- The delimiter has not been seen yet. -/
def Open (d p : List γ) : Prop := ∀ q, q <+: p → ¬d <:+ q

lemma open_nil (hd : d ≠ []) : Open d [] := by
  intro q hq hs
  rw [List.prefix_nil] at hq
  subst hq
  exact hd (List.suffix_nil.mp hs)

lemma Open.snoc (h : Open d p) {c : γ} (hc : ¬d <:+ p ++ [c]) : Open d (p ++ [c]) := by
  intro q hq hs
  rcases List.prefix_concat_iff.mp hq with rfl | hq
  · exact hc hs
  · exact h q hq hs

lemma Open.framed (h : Open d p) {c : γ} (hc : d <:+ p ++ [c]) : Framed d (p ++ [c]) := by
  refine ⟨hc, fun q hq hs => ?_⟩
  rcases List.prefix_concat_iff.mp hq with rfl | hq
  · rfl
  · exact absurd hs (h q hq)

lemma Framed.ne_nil (h : Framed d m) (hd : d ≠ []) : m ≠ [] := by
  rintro rfl
  exact hd (List.suffix_nil.mp h.ends)

/-- **The last symbol of the delimiter marks the end**, where nothing else has it. -/
lemma framed_of_notMem {x : γ} {d' body : List γ} (hd : x ∉ d') (hbody : x ∉ body) :
    Framed (d' ++ [x]) (body ++ (d' ++ [x])) := by
  refine ⟨List.suffix_append _ _, fun p hp hs => ?_⟩
  rw [← List.append_assoc] at hp ⊢
  rcases List.prefix_concat_iff.mp hp with rfl | hp
  · rfl
  · have hx : x ∈ body ++ d' := hp.subset (hs.subset (by simp))
    rcases List.mem_append.mp hx with hx | hx
    · exact absurd hx hbody
    · exact absurd hx hd

/-! ### A reader among the messages -/

/-- The reader has collected a part of the first message that is left, and not the whole of it. -/
def Inside (p : List γ) : List (List γ) → Prop
  | [] => p = []
  | m :: _ => p <+: m ∧ p ≠ m

lemma inside_nil (hd : d ≠ []) {left : List (List γ)} (h : ∀ m ∈ left, Framed d m) :
    Inside [] left := by
  cases left with
  | nil => rfl
  | cons m left => exact ⟨List.nil_prefix, ((h m (by simp)).ne_nil hd).symm⟩

lemma Inside.eq_nil {left : List (List γ)} (h : Inside p left) (hs : p = left.flatten) : left = [] := by
  cases left with
  | nil => rfl
  | cons m rest =>
    obtain ⟨hp, hne⟩ := h
    rw [List.flatten_cons] at hs
    have hle := hp.length_le
    have hm : m <+: p := hs ▸ List.prefix_append m rest.flatten
    exact absurd (hm.eq_of_length_le hle).symm hne

/-- **The next symbol of the stream** either ends the message, and then the stream goes on with the next
one, or leaves the reader inside it with nothing to find. -/
theorem Inside.next {left : List (List γ)} {c : γ} {after : List γ} (h : Inside p left)
    (hframed : ∀ m ∈ left, Framed d m) (hs : p ++ c :: after = left.flatten) :
    ∃ m rest, left = m :: rest ∧
      (p ++ [c] = m ∧ after = rest.flatten ∨
        Inside (p ++ [c]) left ∧ ¬d <:+ p ++ [c] ∧ (p ++ [c]).length < m.length) := by
  cases left with
  | nil => simp at hs
  | cons m rest =>
    refine ⟨m, rest, rfl, ?_⟩
    obtain ⟨⟨tail, rfl⟩, hne⟩ := h
    cases tail with
    | nil => exact absurd (List.append_nil p).symm hne
    | cons c' tail =>
      rw [List.flatten_cons, List.append_assoc, List.append_cancel_left_eq, List.cons_append,
        List.cons.injEq] at hs
      obtain ⟨rfl, rfl⟩ := hs
      cases tail with
      | nil => exact .inl ⟨rfl, rfl⟩
      | cons c' tail =>
        have hpre : p ++ [c] <+: p ++ c :: c' :: tail := ⟨c' :: tail, by simp⟩
        have hlen : (p ++ [c]).length < (p ++ c :: c' :: tail).length := by simp
        have hne' : p ++ [c] ≠ p ++ c :: c' :: tail := fun he => by simp at he
        exact .inr ⟨⟨hpre, hne'⟩, fun hd => hne' ((hframed _ (by simp)).first _ hpre hd), hlen⟩

end Kierki.Lib.Frames
