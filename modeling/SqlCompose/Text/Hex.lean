/-!
# Digits

Numbers written with a fixed count of digits: hexadecimal for escapes and binary data, decimal for
dates and times.
-/
namespace SqlCompose.Text

/-- The digit of a number below sixteen, in lower case. -/
def hexDigit (n : Nat) : Char :=
  Char.ofNat (if n < 10 then 0x30 + n else 0x57 + n)

/-- The last `width` hexadecimal digits of `n`. -/
def hexDigits : Nat → Nat → List Char
  | 0, _ => []
  | width + 1, n => hexDigits width (n / 16) ++ [hexDigit (n % 16)]

theorem length_hexDigits (width n : Nat) : (hexDigits width n).length = width := by
  induction width generalizing n with
  | zero => rfl
  | succ width ih => simp [hexDigits, ih]

/-- The two hexadecimal digits of each byte. -/
def hexBytes (bytes : List UInt8) : List Char :=
  bytes.flatMap fun b => hexDigits 2 b.toNat

theorem length_hexBytes (bytes : List UInt8) : (hexBytes bytes).length = 2 * bytes.length := by
  induction bytes with
  | nil => rfl
  | cons b bytes ih =>
    simp only [hexBytes, List.flatMap_cons, List.length_append, length_hexDigits,
      List.length_cons] at ih ⊢
    omega

/-- A number in decimal, filled up with zeros on the left to `width` digits. -/
def zeroPadded (width n : Nat) : String :=
  let digits := toString n
  String.ofList (List.replicate (width - digits.length) '0') ++ digits

end SqlCompose.Text
