import Mathlib.Data.Fintype.Basic

/-!
The vocabulary the server and the client share: texts and the string operations the sources use,
the four seats, the delimiter of a line, and the bytes the threads of the server exchange through
their pipes.
-/

namespace Kierki

/-- A `std::string`: the list of its characters. -/
abbrev Text := List Char

instance : LawfulBEq Text := inferInstance

/-- `s.substr(pos, n)`, for `pos` at most the length of `s`. -/
def substr (s : Text) (pos n : ℕ) : Text := (s.drop pos).take n

/-- The number a text of decimal digits stands for. -/
def digitsVal (s : Text) : ℕ := s.foldl (fun n c => 10 * n + (c.toNat - '0'.toNat)) 0

/-- `std::stoi` on a text without leading blanks or sign: the value of its leading digits, `none`
where it throws because there are none. -/
def stoi (s : Text) : Option ℕ :=
  match s.takeWhile Char.isDigit with
  | [] => none
  | ds => some (digitsVal ds)

/-- `std::to_string` of a number that is not negative. -/
def toText (n : ℕ) : Text := Nat.toDigits 10 n

/-- `std::to_string` of an `int32_t`. -/
def intText : ℤ → Text
  | .ofNat n => toText n
  | .negSucc n => '-' :: toText (n + 1)

/-- The value kept when a sum is stored in an `int16_t`. -/
def int16 (x : ℤ) : ℤ := (x + 32768) % 65536 - 32768

lemma int16_of_range {x : ℤ} (h₁ : -32768 ≤ x) (h₂ : x < 32768) : int16 x = x := by
  unfold int16
  omega

/-- The value kept when a sum is stored in an `int32_t`. -/
def int32 (x : ℤ) : ℤ := (x + 2147483648) % 4294967296 - 2147483648

lemma int32_of_range {x : ℤ} (h₁ : -2147483648 ≤ x) (h₂ : x < 2147483648) : int32 x = x := by
  unfold int32
  omega

lemma int32_range (x : ℤ) : -2147483648 ≤ int32 x ∧ int32 x < 2147483648 := by
  unfold int32
  omega

/-- `DELIMETER`, the end of every line. -/
def delimeter : Text := ['\r', '\n']

/-! ### Seats -/

/-- The four seats of the table. -/
inductive Seat
  | N | E | S | W
  deriving DecidableEq, Repr

namespace Seat

instance : Fintype Seat := ⟨{N, E, S, W}, fun s => by cases s <;> decide⟩

/-- The letter of a seat in the lines. -/
def letter : Seat → Char
  | N => 'N' | E => 'E' | S => 'S' | W => 'W'

/-- The name of a seat, a text of one letter. -/
def name (s : Seat) : Text := [s.letter]

/-- The entry of `seats_to_array`. -/
def idx : Seat → ℕ
  | N => 0 | E => 1 | S => 2 | W => 3

/-- The entry of the array `{"N", "E", "S", "W"}` at `i % 4`. -/
def at4 (i : ℕ) : Seat :=
  match i % 4 with
  | 0 => N | 1 => E | 2 => S | _ => W

/-- The seat with a given letter. -/
def ofLetter? : Char → Option Seat
  | 'N' => some N | 'E' => some E | 'S' => some S | 'W' => some W
  | _ => none

/-- The order of the array `{"N", "E", "S", "W"}` and of the pipes. -/
def all : List Seat := [N, E, S, W]

/-- The order of the keys of a `std::map` over the seat names. -/
def mapOrder : List Seat := [E, N, S, W]

@[simp] lemma mem_all (s : Seat) : s ∈ all := by cases s <;> decide

lemma mem_mapOrder (s : Seat) : s ∈ mapOrder := by cases s <;> decide

/-- The four seats in playing order, from `s` on: `(beginning + i) % 4`. -/
def order (s : Seat) : List Seat := [at4 s.idx, at4 (s.idx + 1), at4 (s.idx + 2), at4 (s.idx + 3)]

end Seat

/-! ### Bytes of the pipes -/

/-- The bytes the server and its seat threads write into their pipes. -/
inductive Byte
  | disconnected
  | cardPlay
  | barrierResponse
  | scores
  | taken
  | deal
  | barrierEnd
  deriving DecidableEq, Repr

/-- The character that stands for a byte. -/
def Byte.char : Byte → Char
  | disconnected => 'c'
  | cardPlay => 'p'
  | barrierResponse => 'b'
  | scores => 's'
  | taken => 't'
  | deal => 'l'
  | barrierEnd => 'r'

end Kierki
