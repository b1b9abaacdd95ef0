import Kierki.Common

/-!
# The arguments of the server and of the client

`parse_server_args`: a loop of its own that lets a value stand only behind a name, then the options as
the library has parsed them, then the test that the game file opens. `parse_client_args`: a loop of its
own that takes the seat and the version of IP for itself, then the options as the library has parsed
the rest. What the library makes of the arguments is a parameter; its values for `-p` and `-t` are
`int32_t`.
-/

namespace Kierki.CmdArgsParsers

/-- The options the library has parsed, with all their values; an option that is missing has none. -/
structure VariablesMap where
  p : List Int32
  f : List Text
  t : List Int32

/-- What `main` gives to the constructor of the server. -/
structure ServerArgs where
  port : ℤ := 0
  gameFileName : Text
  timeout : ℤ := 5

/-- The loop over the arguments: a value without a name before it is refused. -/
def manualArgs : (bIsArg : Bool) → List Text → Except Text Unit
  | _, [] => .ok ()
  | bIsArg, arg :: args =>
    if arg.head? = some '-' then manualArgs true args
    else if bIsArg then manualArgs false args
    else .error ("Invalid argument: ".toList ++ arg)

/-- An option whose first value is taken, that may not be negative. -/
def nonNegative (error : String) (default : ℤ) : List Int32 → Except Text ℤ
  | [] => .ok default
  | x :: _ => if x.toInt < 0 then .error error.toList else .ok x.toInt

/-- The port number. -/
def parsePort : List Int32 → Except Text ℤ := nonNegative "Port number must be non-negative" 0

/-- The name of the game file. -/
def parseFile : List Text → Except Text Text
  | [] => .error "Game file name must be provided".toList
  | name :: _ => .ok name

/-- The timeout in seconds. -/
def parseTimeout : List Int32 → Except Text ℤ := nonNegative "Timeout must be non-negative" 5

/-- **`parse_server_args`**, `parse` being the library and `opens` telling which files open. -/
def parseServerArgs (parse : List Text → Except Text VariablesMap) (opens : Text → Bool)
    (args : List Text) : Except Text ServerArgs := do
  manualArgs false args
  let vm ← parse args
  let port ← parsePort vm.p
  let gameFileName ← parseFile vm.f
  let timeout ← parseTimeout vm.t
  if opens gameFileName then .ok { port := port, gameFileName := gameFileName, timeout := timeout }
  else .error "Game file does not exist.".toList

private lemma ok_of_bind {α β : Type} {x : Except Text α} {next : α → Except Text β} {y : β}
    (h : (do let a ← x; next a) = .ok y) : ∃ a, x = .ok a ∧ next a = .ok y := by
  match x with
  | .ok a => exact ⟨a, rfl, h⟩
  | .error _ => exact absurd h (by rintro ⟨⟩)

lemma nonNegative_ok {error : String} {default x : ℤ} {values : List Int32}
    (hd : 0 ≤ default ∧ default < 2147483648) (h : nonNegative error default values = .ok x) :
    0 ≤ x ∧ x < 2147483648 := by
  unfold nonNegative at h
  split at h
  · cases h
    exact hd
  · rename_i v _
    split_ifs at h with hv
    cases h
    exact ⟨by omega, v.toInt_lt⟩

/-- **The numbers that are accepted**: the port and the timeout are not negative, and each fits into an
`int32_t`. -/
theorem parseServerArgs_range {parse : List Text → Except Text VariablesMap} {opens : Text → Bool}
    {args : List Text} {a : ServerArgs} (h : parseServerArgs parse opens args = .ok a) :
    (0 ≤ a.port ∧ a.port < 2147483648) ∧ 0 ≤ a.timeout ∧ a.timeout < 2147483648 := by
  unfold parseServerArgs at h
  obtain ⟨-, -, h⟩ := ok_of_bind h
  obtain ⟨vm, -, h⟩ := ok_of_bind h
  obtain ⟨port, hport, h⟩ := ok_of_bind h
  obtain ⟨name, -, h⟩ := ok_of_bind h
  obtain ⟨timeout, htimeout, h⟩ := ok_of_bind h
  split_ifs at h
  cases h
  exact ⟨nonNegative_ok (by decide) hport, nonNegative_ok (by decide) htimeout⟩

/-! ### The client -/

/-- The options of the client the library has parsed; `-a` takes no value. -/
structure ClientOptions where
  h : List Text
  p : List Int32
  a : Bool

/-- What `main` gives to the constructor of the client. -/
structure ClientArgs where
  host : Text
  port : ℤ
  ipV : ℤ
  seat : Text
  isAI : Bool

def ipFlags : List Text := [['-', '4'], ['-', '6']]

def seatFlags : List Text := [['-', 'N'], ['-', 'E'], ['-', 'S'], ['-', 'W']]

/-- The three vectors the loop over the arguments of the client fills. -/
structure Sorted where
  manualArgs : List Text := []
  seatOrder : List Text := []
  ipOrder : List Text := []

/-- The loop over the arguments of the client: it keeps the flags for the seat and for the version of IP
to itself, and refuses a value that does not stand directly behind another name. -/
def sortArgs : (bIsArg : Bool) → Sorted → List Text → Except Text Sorted
  | _, r, [] => .ok r
  | bIsArg, r, arg :: args =>
    if arg ∈ ipFlags then sortArgs false { r with ipOrder := r.ipOrder ++ [arg] } args
    else if arg ∈ seatFlags then
      sortArgs false { r with seatOrder := r.seatOrder ++ [arg.drop 1] } args
    else if arg.head? = some '-' then
      sortArgs true { r with manualArgs := r.manualArgs ++ [arg] } args
    else if bIsArg then sortArgs false { r with manualArgs := r.manualArgs ++ [arg] } args
    else .error ("Invalid argument: ".toList ++ arg)

/-- The seat, without the dash. -/
def firstSeat : List Text → Except Text Text
  | [] => .error "Seat must be provided".toList
  | seat :: _ => .ok seat

/-- `IP_v`, which `main` has set to `-1`. -/
def ipVersion : List Text → ℤ
  | [] => -1
  | arg :: _ => if arg = ['-', '4'] then 4 else 6

/-- The name of the server. -/
def parseHost : List Text → Except Text Text
  | [] => .error "Host name must be provided".toList
  | host :: _ => .ok host

/-- The port of the server, which has no default. -/
def parseServerPort : List Int32 → Except Text ℤ
  | [] => .error "Port number must be provided".toList
  | x :: _ => if x.toInt < 0 then .error "Port number must be non-negative".toList else .ok x.toInt

/-- **`parse_client_args`**, `parse` being the library. -/
def parseClientArgs (parse : List Text → Except Text ClientOptions) (args : List Text) :
    Except Text ClientArgs := do
  let r ← sortArgs false {} args
  let seat ← firstSeat r.seatOrder
  let vm ← parse r.manualArgs
  let host ← parseHost vm.h
  let port ← parseServerPort vm.p
  .ok { host := host, port := port, ipV := ipVersion r.ipOrder, seat := seat, isAI := vm.a }

/-! ### The command lines of the client -/

/-- A name that is left to the library. -/
def IsName (arg : Text) : Prop := arg.head? = some '-' ∧ arg ∉ ipFlags ∧ arg ∉ seatFlags

/-- A value: it does not begin with a dash. -/
def IsValue (arg : Text) : Prop := arg.head? ≠ some '-'

/-- What a command line of the client is made of: the flags the loop keeps to itself, and the names that
are left to the library, each with at most one value directly behind it. -/
inductive Item
  | ip (six : Bool)
  | seat (s : Seat)
  | option (name : {arg : Text // IsName arg}) (value : Option {arg : Text // IsValue arg})

namespace Item

/-- The words of an item. -/
def words : Item → List Text
  | ip six => [if six then ['-', '6'] else ['-', '4']]
  | seat s => ['-' :: s.name]
  | option name value => name.val :: (value.map Subtype.val).toList

/-- The words that are left to the library. -/
def manualArgs : Item → List Text
  | ip _ => []
  | seat _ => []
  | option name value => name.val :: (value.map Subtype.val).toList

def seat? : Item → Option Seat
  | seat s => some s
  | _ => none

def six? : Item → Option Bool
  | ip six => some six
  | _ => none

/-- A name without a value. -/
def isBare : Item → Bool
  | option _ none => true
  | _ => false

end Item

/-- `b_is_arg` behind the items. -/
def nameBehind : (bIsArg : Bool) → List Item → Bool
  | bIsArg, [] => bIsArg
  | _, i :: items => nameBehind i.isBare items

lemma nameBehind_concat (b : Bool) (items : List Item) (i : Item) :
    nameBehind b (items ++ [i]) = i.isBare := by
  induction items generalizing b with
  | nil => rfl
  | cons _ _ ih => exact ih _

/-- What the loop makes of the items of a command line. -/
def Sorted.append (r : Sorted) (items : List Item) : Sorted where
  manualArgs := r.manualArgs ++ items.flatMap Item.manualArgs
  seatOrder := r.seatOrder ++ (items.filterMap Item.seat?).map Seat.name
  ipOrder := r.ipOrder ++ (items.filterMap Item.six?).map fun six =>
    if six then ['-', '6'] else ['-', '4']

@[simp] lemma Sorted.append_nil (r : Sorted) : r.append [] = r := by
  simp [Sorted.append]

lemma Sorted.append_cons (r : Sorted) (i : Item) (items : List Item) :
    r.append (i :: items) = (r.append [i]).append items := by
  have h : i :: items = [i] ++ items := rfl
  rw [h]
  simp only [Sorted.append, List.flatMap_append, List.filterMap_append, List.map_append,
    List.append_assoc]

lemma mem_ipFlags {arg : Text} :
    arg ∈ ipFlags ↔ ∃ six : Bool, arg = if six then ['-', '6'] else ['-', '4'] := by
  simp [ipFlags, or_comm]

lemma mem_seatFlags {arg : Text} : arg ∈ seatFlags ↔ ∃ s : Seat, arg = '-' :: s.name := by
  constructor
  · intro h
    simp only [seatFlags, List.mem_cons, List.not_mem_nil, or_false] at h
    obtain rfl | rfl | rfl | rfl := h
    exacts [⟨.N, rfl⟩, ⟨.E, rfl⟩, ⟨.S, rfl⟩, ⟨.W, rfl⟩]
  · rintro ⟨s, rfl⟩
    cases s <;> decide

section Loop

variable {b : Bool} {r q : Sorted} {args : List Text} {arg : Text}

@[simp] lemma sortArgs_nil : sortArgs b r [] = .ok r := rfl

lemma sortArgs_ip {six : Bool} : sortArgs b r ((if six then ['-', '6'] else ['-', '4']) :: args) =
    sortArgs false (r.append [.ip six]) args := by
  rw [sortArgs, if_pos (mem_ipFlags.mpr ⟨six, rfl⟩)]
  simp [Sorted.append, List.filterMap_cons, Item.manualArgs, Item.seat?, Item.six?]

lemma sortArgs_seat {s : Seat} : sortArgs b r (('-' :: s.name) :: args) =
    sortArgs false (r.append [.seat s]) args := by
  have hip : '-' :: s.name ∉ ipFlags := by cases s <;> decide
  rw [sortArgs, if_neg hip, if_pos (mem_seatFlags.mpr ⟨s, rfl⟩)]
  simp [Sorted.append, List.filterMap_cons, Item.manualArgs, Item.seat?, Item.six?]

lemma sortArgs_name (h : IsName arg) : sortArgs b r (arg :: args) =
    sortArgs true (r.append [.option ⟨arg, h⟩ none]) args := by
  rw [sortArgs, if_neg h.2.1, if_neg h.2.2, if_pos h.1]
  simp [Sorted.append, List.filterMap_cons, Item.manualArgs, Item.seat?, Item.six?]

lemma IsValue.not_mem (h : IsValue arg) : arg ∉ ipFlags ∧ arg ∉ seatFlags := by
  constructor
  · intro hf
    obtain ⟨six, rfl⟩ := mem_ipFlags.mp hf
    cases six <;> exact h rfl
  · intro hf
    obtain ⟨s, rfl⟩ := mem_seatFlags.mp hf
    exact h rfl

lemma sortArgs_value (h : IsValue arg) : sortArgs b r (arg :: args) =
    if b then sortArgs false { r with manualArgs := r.manualArgs ++ [arg] } args
    else .error ("Invalid argument: ".toList ++ arg) := by
  rw [sortArgs, if_neg h.not_mem.1, if_neg h.not_mem.2, if_neg h]

lemma kind_of_arg (arg : Text) :
    (∃ six : Bool, arg = if six then ['-', '6'] else ['-', '4']) ∨ (∃ s : Seat, arg = '-' :: s.name) ∨
      IsName arg ∨ IsValue arg := by
  rw [← mem_ipFlags, ← mem_seatFlags]
  unfold IsName IsValue
  tauto

lemma sortArgs_words (items : List Item) :
    sortArgs b r (items.flatMap Item.words ++ args) =
      sortArgs (nameBehind b items) (r.append items) args := by
  induction items generalizing b r with
  | nil => simp [nameBehind]
  | cons i items ih =>
    rw [List.flatMap_cons, Sorted.append_cons, nameBehind, ← ih, List.append_assoc]
    cases i with
    | ip six => exact sortArgs_ip
    | seat s => exact sortArgs_seat
    | option name value =>
      cases value with
      | none => exact sortArgs_name name.2
      | some v =>
        refine (sortArgs_name name.2).trans ((sortArgs_value v.2).trans ?_)
        rw [if_pos rfl]
        simp [Sorted.append, List.filterMap_cons, Item.manualArgs, Item.seat?, Item.six?, Item.isBare]

/-- Every command line is the words of items up to its end, or up to a value that stands behind no
name. -/
lemma words_of_args (args : List Text) :
    ∃ (items : List Item) (rest : List Text), args = items.flatMap Item.words ++ rest ∧
      (rest = [] ∨ ∃ v after, rest = v :: after ∧ IsValue v ∧ nameBehind false items = false) := by
  -- from the right: one more argument ends an item, or begins one, or is the first that stands nowhere
  induction args using List.reverseRecOn with
  | nil => exact ⟨[], [], rfl, .inl rfl⟩
  | append_singleton args arg ih =>
    obtain ⟨items, rest, rfl, rfl | ⟨v, after, rfl, hv, hb⟩⟩ := ih
    · obtain ⟨six, rfl⟩ | ⟨s, rfl⟩ | hn | hv := kind_of_arg arg
      · exact ⟨items ++ [.ip six], [], by simp [Item.words], .inl rfl⟩
      · exact ⟨items ++ [.seat s], [], by simp [Item.words], .inl rfl⟩
      · exact ⟨items ++ [.option ⟨arg, hn⟩ none], [], by simp [Item.words], .inl rfl⟩
      · obtain rfl | ⟨items, i, rfl⟩ := items.eq_nil_or_concat'
        · exact ⟨[], [arg], rfl, .inr ⟨arg, [], rfl, hv, rfl⟩⟩
        · cases hi : i.isBare with
          | false =>
            exact ⟨items ++ [i], [arg], by simp, .inr ⟨arg, [], rfl, hv, by rw [nameBehind_concat, hi]⟩⟩
          | true =>
            obtain ⟨name, rfl⟩ : ∃ name, i = .option name none := by
              cases i with
              | ip _ => cases hi
              | seat _ => cases hi
              | option name value =>
                cases value with
                | none => exact ⟨name, rfl⟩
                | some _ => cases hi
            exact ⟨items ++ [.option name (some ⟨arg, hv⟩)], [], by simp [Item.words], .inl rfl⟩
    · exact ⟨items, v :: after ++ [arg], by simp, .inr ⟨v, after ++ [arg], rfl, hv, hb⟩⟩

/-- **What the loop lets through**: the words of items, and it sorts them as the items say. -/
theorem sortArgs_ok_iff :
    sortArgs false {} args = .ok q ↔
      ∃ items : List Item, args = items.flatMap Item.words ∧ q = Sorted.append {} items := by
  constructor
  · intro h
    obtain ⟨items, rest, rfl, rfl | ⟨v, after, rfl, hv, hb⟩⟩ := words_of_args args
    · rw [sortArgs_words] at h
      cases h
      exact ⟨items, by simp, rfl⟩
    · rw [sortArgs_words, hb, sortArgs_value hv] at h
      cases h
  · rintro ⟨items, rfl, rfl⟩
    have h : sortArgs false {} (items.flatMap Item.words ++ []) = _ := sortArgs_words items
    rwa [List.append_nil] at h

end Loop

lemma firstSeat_ok {seats : List Seat} {seat : Text} :
    firstSeat (seats.map Seat.name) = .ok seat ↔ ∃ s, seats.head? = some s ∧ seat = s.name := by
  cases seats <;> simp [firstSeat, eq_comm]

lemma parseHost_ok {values : List Text} {host : Text} :
    parseHost values = .ok host ↔ values.head? = some host := by
  cases values <;> simp [parseHost]

lemma parseServerPort_ok {values : List Int32} {port : ℤ} :
    parseServerPort values = .ok port ↔ ∃ x, values.head? = some x ∧ 0 ≤ x.toInt ∧ port = x.toInt := by
  cases values with
  | nil => simp [parseServerPort]
  | cons x values =>
    simp only [parseServerPort, List.head?_cons, Option.some.injEq, exists_eq_left']
    split_ifs with h
    · simp only [false_iff, not_and]
      omega
    · simp only [Except.ok.injEq, not_lt.mp h, true_and, eq_comm]

/-- The version of IP that a flag asks for. -/
def Item.ipV : Option Bool → ℤ
  | none => -1
  | some six => if six then 6 else 4

lemma ipVersion_map (sixes : List Bool) :
    ipVersion (sixes.map fun six => if six then ['-', '6'] else ['-', '4']) = Item.ipV sixes.head? := by
  cases sixes with
  | nil => rfl
  | cons six sixes => cases six <;> rfl

/-- **The command lines that are accepted**, and what becomes of them: the words of items, of which the
library gets the names with their values in their order, wherever the flags stand between them; the
first flag for the seat counts and the first one for the version of IP; there has to be a seat, a host
and a port that is not negative. -/
theorem parseClientArgs_ok_iff {parse : List Text → Except Text ClientOptions} {args : List Text}
    {a : ClientArgs} :
    parseClientArgs parse args = .ok a ↔
      ∃ (items : List Item) (vm : ClientOptions) (s : Seat) (port : Int32),
        args = items.flatMap Item.words ∧ parse (items.flatMap Item.manualArgs) = .ok vm ∧
        (items.filterMap Item.seat?).head? = some s ∧ vm.h.head? = some a.host ∧
        vm.p.head? = some port ∧ 0 ≤ port.toInt ∧ a.port = port.toInt ∧
        a.ipV = Item.ipV (items.filterMap Item.six?).head? ∧ a.seat = s.name ∧ a.isAI = vm.a := by
  constructor
  · intro h
    unfold parseClientArgs at h
    obtain ⟨r, hr, h⟩ := ok_of_bind h
    obtain ⟨seat, hseat, h⟩ := ok_of_bind h
    obtain ⟨vm, hvm, h⟩ := ok_of_bind h
    obtain ⟨host, hhost, h⟩ := ok_of_bind h
    obtain ⟨port, hport, h⟩ := ok_of_bind h
    cases h
    obtain ⟨items, hargs, rfl⟩ := sortArgs_ok_iff.mp hr
    obtain ⟨s, hs, rfl⟩ := firstSeat_ok.mp hseat
    obtain ⟨x, hx, hx0, rfl⟩ := parseServerPort_ok.mp hport
    exact ⟨items, vm, s, x, hargs, hvm, hs, parseHost_ok.mp hhost, hx, hx0, rfl, ipVersion_map _, rfl, rfl⟩
  · rintro ⟨items, vm, s, x, hargs, hvm, hs, hhost, hx, hx0, hport, hip, hseat, hai⟩
    have hloop := sortArgs_ok_iff.mpr ⟨items, hargs, rfl⟩
    have hfirst := firstSeat_ok.mpr ⟨s, hs, rfl⟩
    have hp := parseServerPort_ok.mpr ⟨x, hx, hx0, rfl⟩
    obtain ⟨host, port, ipV, seat, isAI⟩ := a
    obtain rfl : port = x.toInt := hport
    obtain rfl : seat = s.name := hseat
    obtain rfl : isAI = vm.a := hai
    obtain rfl : ipV = _ := hip
    unfold parseClientArgs
    simp only [hloop, Sorted.append, List.nil_append, bind, Except.bind, hfirst, hvm,
      parseHost_ok.mpr hhost, hp, ipVersion_map]

end Kierki.CmdArgsParsers
