import Mathlib.Data.Nat.Digits.Defs

/-!
# Hexadecimal text of fixed width

`hexDigits width n` is `'%0{width}x' % n` for numbers below `16 ^ width`: the
digits of highest weight first, padded with zeros. The leading digits are those
of a quotient, and numbers in range are determined by their digits.
-/

/-- The last `width` hexadecimal digits, most significant first. -/
def hexDigits : Nat → Nat → List Char
  | 0, _ => []
  | width + 1, n => hexDigits width (n / 16) ++ [Nat.digitChar (n % 16)]

namespace HexDigits

@[simp] theorem length_eq (width n : Nat) : (hexDigits width n).length = width := by
  induction width generalizing n with
  | zero => rfl
  | succ width ih =>
      rw [hexDigits, List.length_append, ih]
      rfl

/-- The leading digits of a longer text are the digits of the quotient. -/
theorem take_eq (width rest n : Nat) :
    (hexDigits (width + rest) n).take width = hexDigits width (n / 16 ^ rest) := by
  induction rest generalizing n with
  | zero =>
      rw [pow_zero, Nat.div_one, Nat.add_zero]
      apply List.take_of_length_le
      rw [length_eq]
  | succ rest ih =>
      calc
        (hexDigits (width + rest + 1) n).take width =
            (hexDigits (width + rest) (n / 16)).take width := by
          rw [hexDigits, List.take_append_of_le_length]
          rw [length_eq]
          omega
        _ = hexDigits width (n / 16 ^ (rest + 1)) := by
          rw [ih, Nat.div_div_eq_div_mul, pow_succ']

private theorem digitChar_inj {a b : Nat} (ha : a < 16) (hb : b < 16)
    (h : Nat.digitChar a = Nat.digitChar b) : a = b := by
  have hall : ∀ a < 16, ∀ b < 16, Nat.digitChar a = Nat.digitChar b → a = b := by decide
  exact hall a ha b hb h

/-- Numbers in range with the same digits are the same. -/
theorem inj {width a b : Nat} (ha : a < 16 ^ width) (hb : b < 16 ^ width) :
    hexDigits width a = hexDigits width b ↔ a = b := by
  refine ⟨?_, fun h => h ▸ rfl⟩
  induction width generalizing a b with
  | zero =>
      intro _
      rw [pow_zero] at ha hb
      omega
  | succ width ih =>
      intro h
      obtain ⟨hinit, hlast⟩ := List.append_inj' h rfl
      rw [pow_succ] at ha hb
      have hquot : a / 16 = b / 16 := by
        apply ih ?_ ?_ hinit
        · exact Nat.div_lt_of_lt_mul (by omega)
        · exact Nat.div_lt_of_lt_mul (by omega)
      have hrem : a % 16 = b % 16 := by
        apply digitChar_inj
        · exact Nat.mod_lt _ (by decide)
        · exact Nat.mod_lt _ (by decide)
        · exact List.singleton_inj.mp hlast
      omega

end HexDigits
