import Mathlib.Data.Rat.Floor

/-!
# `ThinrAgent.Std.Json`: JSON values, as `nlohmann::json` reads them

`Json` is the value the library's parser builds from a text. An integer keeps its
mathematical value: the library stores it as `int64` or `uint64` by its sign, and both
reach the program through a plain conversion. A text the parser discards has no value.

The accessors `value…` are `j.value(key, default)` at the type of the default. They return
the default when the key is absent, and throw `type_error` when `j` is not an object or the
entry has an incompatible type.
-/

set_option autoImplicit false

namespace ThinrAgent

/-- A JSON value. The entries of an object stand in the order of their keys in the text. -/
inductive Json where
  | null
  | bool (b : Bool)
  | int (z : Int)
  | float (q : Rat)
  | str (s : String)
  | arr (xs : List Json)
  | obj (kvs : List (String × Json))

/-- The exceptions that the library throws on access to a value of another type. -/
inductive JsonError where
  | typeError
  deriving DecidableEq, Repr

namespace Json

/-- `j.is_object()`: the value is an object, possibly without any key. -/
def isObject : Json → Bool
  | obj _ => true
  | _ => false

/-- `j.find(key)` on an object. Other values have no keys. -/
def find (j : Json) (key : String) : Option Json :=
  match j with
  | obj kvs => kvs.lookup key
  | _ => none

/-- `j[key] = v` of an object: the key has this value and no other afterwards. -/
def set (j : Json) (key : String) (v : Json) : Json :=
  match j with
  | obj kvs => obj ((key, v) :: kvs.filter fun e => e.1 ≠ key)
  | j => j

/-- `j.is_string()`: the value is a string, possibly an empty one. -/
def isString : Json → Bool
  | str _ => true
  | _ => false

/-- `j.is_number_integer()`: the value is a number without a fraction or an exponent in its text. -/
def isInteger : Json → Bool
  | int _ => true
  | _ => false

/-- `j.contains(key)`: the value is an object and has the key, whatever the key's value is. -/
def contains (j : Json) (key : String) : Bool := (j.find key).isSome

/-- Conversion of a floating-point number to an integer: truncation towards zero. -/
def truncate (q : Rat) : Int := if 0 ≤ q then ⌊q⌋ else ⌈q⌉

/-- `is_number()` together with `get<double>()`. The value of an integer is kept as it is: the
rounding of a large one does not change how it compares with a small bound. -/
def number : Json → Option Rat
  | int z => some z
  | float q => some q
  | _ => none

/-- `get<int>()`. Numbers are converted by a cast, and a boolean counts as a number. An integer
wraps around. The language leaves open what the cast of a `double` gives that no `int` holds, and
here it wraps around as well. -/
def getInt32 : Json → Except JsonError Int32
  | bool b => .ok (if b then 1 else 0)
  | int z => .ok (Int32.ofInt z)
  | float q => .ok (Int32.ofInt (truncate q))
  | _ => .error .typeError

/-- `get<int64_t>()`, the library's own integer type: a boolean is not accepted. A `double` that it
cannot hold wraps around here, as for `getInt32`. -/
def getInt64 : Json → Except JsonError Int64
  | int z => .ok (Int64.ofInt z)
  | float q => .ok (Int64.ofInt (truncate q))
  | _ => .error .typeError

/-- The plain cast of a `double` to `int64_t`. The language leaves the result open when the
truncated value does not fit. -/
structure FloatCast where
  toInt64 : Rat → Int64
  exact : ∀ q, -2 ^ 63 ≤ truncate q → truncate q < 2 ^ 63 → toInt64 q = Int64.ofInt (truncate q)

/-- The cast of a machine whose conversion wraps around. -/
def FloatCast.wrap : FloatCast := ⟨fun q => Int64.ofInt (truncate q), fun _ _ _ => rfl⟩

/-- `get<int64_t>()` of a value that is a number. -/
def toInt64 (cast : FloatCast) : Json → Int64
  | int z => Int64.ofInt z
  | float q => cast.toInt64 q
  | _ => 0

/-- `get<std::string>()`: the text of a string, and a type error for every other value. -/
def getString : Json → Except JsonError String
  | str s => .ok s
  | _ => .error .typeError

/-- `get<bool>()`: the value of a boolean, and a type error for every other value. There is no
conversion from a number. -/
def getBool : Json → Except JsonError Bool
  | bool b => .ok b
  | _ => .error .typeError

/-- `j.value(key, dflt)`, with `get` the conversion at the type of `dflt`. -/
def value {α : Type} (get : Json → Except JsonError α) (j : Json) (key : String) (dflt : α) :
    Except JsonError α :=
  if j.isObject then
    match j.find key with
    | some entry => get entry
    | none => .ok dflt
  else .error .typeError

/-- The natural number that a `double` near `n` writes: 53 bits of it, ties to even. -/
def roundNat (n : Nat) : Nat :=
  let unit := 2 ^ (n.log2 - 52)
  let q := n / unit
  if 2 * (n % unit) < unit ∨ (2 * (n % unit) = unit ∧ q % 2 = 0) then q * unit else (q + 1) * unit

/-- The value the parser builds from the integer `z` in a text. An integer that no 64-bit type holds
is read as a `double`, and one that is too large for that is an error. -/
def ofLiteral (z : Int) : Option Json :=
  if -2 ^ 63 ≤ z ∧ z < 2 ^ 64 then some (int z)
  else if roundNat z.natAbs < 2 ^ 1024 then some (float (z.sign * roundNat z.natAbs))
  else none

/-- The integer `z` is written in the text of `j` at `key`. -/
def Writes (j : Json) (key : String) (z : Int) : Prop :=
  ∃ entry, ofLiteral z = some entry ∧ j.find key = some entry

/-- An integer that a 64-bit type holds is read as it is, and another one is no integer. -/
theorem Writes.cases {j : Json} {key : String} {z : Int} (h : j.Writes key z) :
    (-2 ^ 63 ≤ z ∧ z < 2 ^ 64) ∧ j.find key = some (int z) ∨
      ¬ (-2 ^ 63 ≤ z ∧ z < 2 ^ 64) ∧ ∃ q, j.find key = some (float q) := by
  obtain ⟨entry, hentry, hfind⟩ := h
  unfold ofLiteral at hentry
  split at hentry
  · obtain rfl := Option.some.inj hentry
    exact .inl ⟨‹_›, hfind⟩
  · split at hentry
    · obtain rfl := Option.some.inj hentry
      exact .inr ⟨‹_›, _, hfind⟩
    · cases hentry

/-- An object with one more entry is an object. -/
theorem isObject_set {j : Json} (key : String) (v : Json) (hobj : j.isObject = true) :
    (j.set key v).isObject = true := by
  cases j <;> first | rfl | exact hobj

/-- The entry that was written to an object is found under its key. -/
theorem find_set_self {j : Json} (key : String) (v : Json) (hobj : j.isObject = true) :
    (j.set key v).find key = some v := by
  cases j with
  | obj kvs => exact List.lookup_cons_self
  | _ => cases hobj

/-- When one key is written, every other key keeps its value. -/
theorem find_set_ne (j : Json) {key other : String} (v : Json) (hne : other ≠ key) :
    (j.set key v).find other = j.find other := by
  cases j with
  | obj kvs =>
    show List.lookup other ((key, v) :: kvs.filter fun e => e.1 ≠ key) = kvs.lookup other
    rw [List.lookup_cons, beq_false_of_ne hne]
    show List.lookup other (kvs.filter fun e => e.1 ≠ key) = kvs.lookup other
    induction kvs with
    | nil => rfl
    | cons e kvs ih =>
      obtain ⟨k, u⟩ := e
      by_cases hk : k = key
      · subst hk
        rw [List.filter_cons_of_neg (by simp), ih, List.lookup_cons, beq_false_of_ne hne]
      · rw [List.filter_cons_of_pos (by simpa using hk), List.lookup_cons, List.lookup_cons, ih]
  | _ => rfl

/-- What is read at a key depends on that key only. -/
theorem value_set_ne {α : Type} (get : Json → Except JsonError α) (j : Json) {key other : String}
    (v : Json) (dflt : α) (hne : other ≠ key) :
    value get (j.set key v) other dflt = value get j other dflt := by
  have hobj : (j.set key v).isObject = j.isObject := by cases j <;> rfl
  rw [value, value, hobj, find_set_ne j v hne]

/-- A key that is present is read at its own value. -/
theorem value_of_find {α : Type} {get : Json → Except JsonError α} {j entry : Json}
    {key : String} {dflt a : α} (hobj : j.isObject = true) (hfind : j.find key = some entry)
    (hget : get entry = .ok a) : value get j key dflt = .ok a := by
  unfold value
  rw [if_pos hobj, hfind]
  exact hget

end Json

end ThinrAgent
