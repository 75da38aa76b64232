import Mathlib.Data.List.Basic
import Mathlib.Algebra.GroupWithZero.Nat

/-!
# Hexadecimal numerals in groups

A number is written with a fixed count of hexadecimal digits, most significant first
(`Hex.digits`), and the digits are cut into groups with a separator between them (`Hex.group`).
Reading takes upper and lower case digits and checks the lengths of the groups and the separators.
`Hex.parse_digits` and `Hex.ungroup_group` are the two round trips.
-/

namespace Framework

namespace Hex

/-! ## Digits -/

def digit (d : ℕ) : Char :=
  if d < 10 then Char.ofNat (48 + d) else Char.ofNat (55 + d)

/-- The value of a digit of either case. -/
def value (a : Char) : Option ℕ :=
  if 48 ≤ a.toNat ∧ a.toNat ≤ 57 then some (a.toNat - 48)
  else if 65 ≤ a.toNat ∧ a.toNat ≤ 70 then some (a.toNat - 55)
  else if 97 ≤ a.toNat ∧ a.toNat ≤ 102 then some (a.toNat - 87)
  else none

theorem value_digit {d : ℕ} (h : d < 16) : value (digit d) = some d := by
  have hall : ∀ d < 16, value (digit d) = some d := by decide
  exact hall d h

/-- The last `len` digits of `n`. -/
def digits : ℕ → ℕ → List Char
  | 0, _ => []
  | len + 1, n => digits len (n / 16) ++ [digit (n % 16)]

@[simp] theorem length_digits (len n : ℕ) : (digits len n).length = len := by
  induction len generalizing n with
  | zero => rfl
  | succ len ih => simp [digits, ih]

/-- One more digit is read. -/
def parseStep (n : ℕ) (a : Char) : Option ℕ := (value a).map fun d => 16 * n + d

/-- The number that a list of digits denotes, most significant digit first. -/
def parse (l : List Char) : Option ℕ := l.foldlM parseStep 0

theorem parse_concat (l : List Char) (a : Char) :
    parse (l ++ [a]) = (parse l).bind fun n => parseStep n a := by
  simp [parse]

theorem parse_digits {len n : ℕ} (h : n < 16 ^ len) : parse (digits len n) = some n := by
  induction len generalizing n with
  | zero =>
    have hn : n = 0 := by simpa using h
    rw [hn]
    rfl
  | succ len ih =>
    have hhigh : n / 16 < 16 ^ len := by
      rw [Nat.div_lt_iff_lt_mul (by omega), ← Nat.pow_succ]
      exact h
    have hlow : n % 16 < 16 := Nat.mod_lt n (by omega)
    have hsplit : 16 * (n / 16) + n % 16 = n := Nat.div_add_mod n 16
    rw [digits, parse_concat, ih hhigh, Option.bind_some, parseStep, value_digit hlow,
      Option.map_some, hsplit]

/-! ## Groups -/

/-- The list cut into groups of the given lengths, the last one taking the rest. -/
def group (separator : Char) : List ℕ → List Char → List Char
  | [], l => l
  | [_], l => l
  | n :: m :: ns, l => l.take n ++ separator :: group separator (m :: ns) (l.drop n)

/-- The list without the separators, if the groups have the given lengths. -/
def ungroup (separator : Char) : List ℕ → List Char → Option (List Char)
  | [], l => if l = [] then some [] else none
  | [n], l => if l.length = n then some l else none
  | n :: m :: ns, l =>
    match l.drop n with
    | a :: rest =>
      if a = separator then (ungroup separator (m :: ns) rest).map (l.take n ++ ·) else none
    | [] => none

theorem ungroup_group (separator : Char) {ns : List ℕ} {l : List Char} (h : l.length = ns.sum) :
    ungroup separator ns (group separator ns l) = some l := by
  induction ns generalizing l with
  | nil =>
    have hnil : l = [] := List.length_eq_zero_iff.1 h
    rw [hnil]
    rfl
  | cons n ns ih =>
    cases ns with
    | nil => simp [ungroup, group, h]
    | cons m ns =>
      have hle : n ≤ l.length := by
        rw [h, List.sum_cons]
        omega
      have htake : (l.take n).length = n := List.length_take_of_le hle
      have hdrop : (l.drop n).length = (m :: ns).sum := by
        rw [List.length_drop, h, List.sum_cons, Nat.add_sub_cancel_left]
      have hrest := ih hdrop
      have hgroup : (l.take n ++ separator :: group separator (m :: ns) (l.drop n)).drop n =
          separator :: group separator (m :: ns) (l.drop n) := List.drop_left' htake
      have hfront : (l.take n ++ separator :: group separator (m :: ns) (l.drop n)).take n =
          l.take n := List.take_left' htake
      rw [group, ungroup, hgroup, hfront]
      show (if separator = separator then _ else _) = _
      rw [if_pos rfl, hrest, Option.map_some, List.take_append_drop]

end Hex

end Framework
