import Reshape.Power

namespace Reshape.Decimal

def digitChar (d : Nat) : Char :=
  Char.ofNat (48 + d)

/-- The digits of a number, most significant first, without leading zeros. -/
def digits (n : Nat) : List Char :=
  if n < 10 then [digitChar n] else digits (n / 10) ++ [digitChar (n % 10)]
termination_by n
decreasing_by omega

def extend (value : Nat) (c : Char) : Nat :=
  10 * value + (c.toNat - 48)

/-- The number written by a list of ASCII digits. -/
def value (cs : List Char) : Nat :=
  cs.foldl extend 0

theorem toNat_digitChar {d : Nat} (hd : d < 10) : (digitChar d).toNat = 48 + d := by
  match d, hd with
  | 0, _ | 1, _ | 2, _ | 3, _ | 4, _ | 5, _ | 6, _ | 7, _ | 8, _ | 9, _ => rfl

theorem value_digits (n : Nat) : value (digits n) = n := by
  fun_induction digits n with
  | case1 n hn => simp [value, extend, toNat_digitChar hn]
  | case2 n hn ih =>
    have hmod : (digitChar (n % 10)).toNat = 48 + n % 10 :=
      toNat_digitChar (Nat.mod_lt _ (by decide))
    rw [value] at ih ⊢
    rw [List.foldl_append, ih, List.foldl_cons, List.foldl_nil, extend, hmod]
    omega

theorem digits_ne_nil (n : Nat) : digits n ≠ [] := by
  unfold digits
  split <;> simp

/-- The digits of an integer, after a minus sign if it is negative. -/
def signedDigits (i : Int) : List Char :=
  if i < 0 then '-' :: digits i.natAbs else digits i.natAbs

/-- The most digits of an integer that is read or written. -/
def digitLimit : Nat :=
  4300

/-- Whether an integer has few enough digits to be written. -/
def isShort (i : Int) : Bool :=
  i.natAbs < tenTo digitLimit

def tooLongToWrite : String :=
  "Exceeds the limit (" ++ Nat.repr digitLimit ++ " digits) for integer string conversion; " ++
    "use sys.set_int_max_str_digits() to increase the limit"

def tooLongToRead (digits : Nat) : String :=
  "Exceeds the limit (" ++ Nat.repr digitLimit ++ " digits) for integer string conversion: " ++
    "value has " ++ Nat.repr digits ++
    " digits; use sys.set_int_max_str_digits() to increase the limit"

end Reshape.Decimal
