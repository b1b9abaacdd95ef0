import Mathlib.Data.List.TakeWhile

/-!
# Reading a stream line by line

An input stream of the C++ library with its flags, and `getline` on it. A line that ends with the stream
instead of the delimiter sets `eofbit`; from then on `getline` fails before it touches the string it is
given. On a stream that is still good and has nothing left it empties the string first.

`fileText` is a file of given lines, and `behind` is the stream that has the lines left; the lemmas read
one line of it, or find that there is none.
-/

namespace Kierki.Lib.Getline

variable {γ : Type*}

/-- An input stream: what is left of it and two of its flags. -/
structure IStream (γ : Type*) where
  rest : List γ
  eofbit : Bool := false
  failbit : Bool := false

/-- `getline`, on the stream and the string it is given. -/
def getline [DecidableEq γ] (delim : γ) (s : IStream γ) (line : List γ) : IStream γ × List γ :=
  if s.eofbit || s.failbit then ({ s with failbit := true }, line)
  else
    let before := s.rest.takeWhile (· != delim)
    match s.rest.dropWhile (· != delim) with
    | _ :: after => ({ s with rest := after }, before)
    | [] => ({ rest := [], eofbit := true, failbit := before.isEmpty }, before)

/-- The file of the lines, with or without a delimiter behind the last one. -/
def fileText (delim : γ) : List (List γ) → Bool → List γ
  | [], _ => []
  | [l], final => if final then l ++ [delim] else l
  | l :: ls, final => l ++ delim :: fileText delim ls final

/-- The stream with the lines left, when the line before them has been read. -/
def behind (delim : γ) (ls : List (List γ)) (final : Bool) : IStream γ :=
  { rest := fileText delim ls final, eofbit := ls.isEmpty && !final }

/-- A stream at which nothing more is read. -/
def drained : IStream γ := { rest := [], eofbit := true, failbit := true }

variable [DecidableEq γ] {delim : γ} {final : Bool}

lemma getline_delim {s : IStream γ} (heof : s.eofbit = false) (hfail : s.failbit = false) {l after : List γ}
    (h : delim ∉ l) (hs : s.rest = l ++ delim :: after) (line : List γ) :
    getline delim s line = ({ s with rest := after }, l) := by
  have hl : ∀ x ∈ l, (x != delim) = true := fun x hx => bne_iff_ne.mpr fun he => h (he ▸ hx)
  simp [getline, heof, hfail, hs, List.takeWhile_append_of_pos hl, List.dropWhile_append_of_pos hl]

lemma getline_end {s : IStream γ} (heof : s.eofbit = false) (hfail : s.failbit = false)
    (h : delim ∉ s.rest) (line : List γ) :
    getline delim s line = ({ rest := [], eofbit := true, failbit := s.rest.isEmpty }, s.rest) := by
  have hl : ∀ x ∈ s.rest, (x != delim) = true := fun x hx => bne_iff_ne.mpr fun he => h (he ▸ hx)
  simp [getline, heof, hfail, List.takeWhile_eq_self_iff.mpr hl, List.dropWhile_eq_nil_iff.mpr hl]

/-- **The next line is read whole.** -/
theorem getline_behind {l : List γ} (h : delim ∉ l) (hne : l ≠ []) (ls : List (List γ))
    (line : List γ) : getline delim (behind delim (l :: ls) final) line = (behind delim ls final, l) := by
  cases ls with
  | nil =>
    cases final with
    | true => exact getline_delim rfl rfl h rfl line
    | false =>
      rw [getline_end rfl rfl h]
      simp [behind, fileText, hne]
  | cons l' ls => exact getline_delim rfl rfl h rfl line

/-- **No line is left**: the string is emptied or left alone, by the end of the last line. -/
theorem getline_behind_nil (line : List γ) :
    getline delim (behind delim [] final) line = (drained, if final then [] else line) := by
  cases final <;> simp [getline, behind, fileText, drained]

@[simp] theorem getline_drained (line : List γ) : getline delim drained line = (drained, line) := rfl

end Kierki.Lib.Getline
