import Mathlib.Data.Nat.Digits.Defs
import Mathlib.Algebra.BigOperators.Group.List.Basic
import Mathlib.Tactic.IntervalCases
import Mathlib.Tactic.Ring

/-! Text as lists of characters: UTF-8 lengths, decimal and hexadecimal
numerals of minimal or fixed width, and the parser that reads them back. -/
namespace HerdrContext.Library.Text

/-- Length of the UTF-8 encoding. -/
def byteLen (text : List Char) : Nat := (text.map Char.utf8Size).sum

@[simp] theorem byteLen_nil : byteLen [] = 0 := rfl

@[simp] theorem byteLen_cons (c : Char) (text : List Char) :
    byteLen (c :: text) = c.utf8Size + byteLen text := by
  simp [byteLen]

@[simp] theorem byteLen_append (left right : List Char) :
    byteLen (left ++ right) = byteLen left + byteLen right := by
  simp [byteLen]

theorem byteLen_eq_zero {text : List Char} : byteLen text = 0 ↔ text = [] := by
  cases text with
  | nil => simp
  | cons c text =>
    have hpos := Char.utf8Size_pos c
    simp only [byteLen_cons, reduceCtorEq, iff_false]
    omega

/-- Texts of one-byte characters are as long as their encoding. -/
theorem byteLen_of_ascii {text : List Char} (h : ∀ c ∈ text, c.val ≤ 127) :
    byteLen text = text.length := by
  induction text with
  | nil => rfl
  | cons c text ih =>
    have hc : c.utf8Size = 1 := Char.utf8Size_eq_one_iff.mpr (h c (by simp))
    rw [byteLen_cons, hc, ih fun d hd => h d (by simp [hd])]
    simp [Nat.add_comm]

def isHexDigit (c : Char) : Bool :=
  c.isDigit || ('a' ≤ c && c ≤ 'f') || ('A' ≤ c && c ≤ 'F')

/-- Exactly `width` digits, most significant first; higher digits are cut. -/
def fixedDigits (base : Nat) : Nat → Nat → List Char
  | 0, _ => []
  | width + 1, n => fixedDigits base width (n / base) ++ [Nat.digitChar (n % base)]

@[simp] theorem length_fixedDigits (base width n : Nat) :
    (fixedDigits base width n).length = width := by
  induction width generalizing n with
  | zero => rfl
  | succ width ih => simp [fixedDigits, ih]

theorem digitChar_hex {d : Nat} (h : d < 16) :
    isHexDigit (Nat.digitChar d) = true ∧ (Nat.digitChar d).val ≤ 127 := by
  interval_cases d <;> decide

theorem digitChar_decimal {d : Nat} (h : d < 10) : (Nat.digitChar d).isDigit = true := by
  interval_cases d <;> decide

theorem isHexDigit_fixedDigits {base : Nat} (hb : 0 < base) (h : base ≤ 16) (width n : Nat) :
    ∀ c ∈ fixedDigits base width n, isHexDigit c = true ∧ c.val ≤ 127 := by
  induction width generalizing n with
  | zero => simp [fixedDigits]
  | succ width ih =>
    intro c hc
    rcases List.mem_append.mp hc with hc | hc
    · exact ih _ c hc
    · rw [List.mem_singleton.mp hc]
      exact digitChar_hex (Nat.lt_of_lt_of_le (Nat.mod_lt _ hb) h)

theorem byteLen_fixedDigits {base : Nat} (hb : 0 < base) (h : base ≤ 16) (width n : Nat) :
    byteLen (fixedDigits base width n) = width := by
  rw [byteLen_of_ascii fun c hc => (isHexDigit_fixedDigits hb h width n c hc).2]
  simp

theorem isDigit_fixedDigits (width n : Nat) :
    ∀ c ∈ fixedDigits 10 width n, c.isDigit = true := by
  induction width generalizing n with
  | zero => simp [fixedDigits]
  | succ width ih =>
    intro c hc
    rcases List.mem_append.mp hc with hc | hc
    · exact ih _ c hc
    · rw [List.mem_singleton.mp hc]
      exact digitChar_decimal (Nat.mod_lt _ (by decide))

theorem digitChar_injective {n m : Nat} (hn : n < 16) (hm : m < 16)
    (h : Nat.digitChar n = Nat.digitChar m) : n = m := by
  have hall : ∀ a b : Fin 16, Nat.digitChar a = Nat.digitChar b → a = b := by decide
  exact congrArg Fin.val (hall ⟨n, hn⟩ ⟨m, hm⟩ h)

/-- Numbers that fit the width are told apart by their digits. -/
theorem fixedDigits_injective {base width n m : Nat} (hbase : 0 < base) (hle : base ≤ 16)
    (hn : n < base ^ width) (hm : m < base ^ width)
    (h : fixedDigits base width n = fixedDigits base width m) : n = m := by
  induction width generalizing n m with
  | zero =>
    rw [Nat.pow_zero] at hn hm
    omega
  | succ width ih =>
    obtain ⟨hfirst, hlast⟩ := List.append_inj' h rfl
    have hdigit : n % base = m % base := by
      apply digitChar_injective
      · exact Nat.lt_of_lt_of_le (Nat.mod_lt _ hbase) hle
      · exact Nat.lt_of_lt_of_le (Nat.mod_lt _ hbase) hle
      · exact (List.cons.inj hlast).1
    have hquotient : n / base = m / base := by
      apply ih _ _ hfirst
      · exact Nat.div_lt_of_lt_mul (by rwa [Nat.pow_succ, Nat.mul_comm] at hn)
      · exact Nat.div_lt_of_lt_mul (by rwa [Nat.pow_succ, Nat.mul_comm] at hm)
    rw [← Nat.div_add_mod n base, ← Nat.div_add_mod m base, hdigit, hquotient]

theorem ofDigitChars_fixedDigits (width n : Nat) :
    Nat.ofDigitChars 10 (fixedDigits 10 width n) 0 = n % 10 ^ width := by
  induction width generalizing n with
  | zero => simp [fixedDigits, Nat.mod_one]
  | succ width ih =>
    rw [fixedDigits, Nat.ofDigitChars_append, ih,
      Nat.ofDigitChars_cons_digitChar_of_lt_ten (Nat.mod_lt n (by decide)),
      Nat.ofDigitChars_nil, Nat.pow_succ', Nat.mod_mul]
    omega

/-- A nonempty run of decimal digits below `limit`. -/
def parseDigits (limit : Nat) (digits : List Char) : Option Nat :=
  if digits ≠ [] ∧ digits.all Char.isDigit ∧ Nat.ofDigitChars 10 digits 0 < limit then
    some (Nat.ofDigitChars 10 digits 0)
  else
    none

/-- Unsigned decimal below `limit`, with an optional leading plus sign. -/
def parseUnsigned (limit : Nat) (text : List Char) : Option Nat :=
  parseDigits limit (if text.head? = some '+' then text.tail else text)

theorem parseDigits_lt {limit : Nat} {digits : List Char} {n : Nat}
    (h : parseDigits limit digits = some n) : n < limit := by
  unfold parseDigits at h
  split at h
  next hdigits =>
    cases Option.some.inj h
    exact hdigits.2.2
  next => contradiction

theorem parseUnsigned_lt {limit : Nat} {text : List Char} {n : Nat}
    (h : parseUnsigned limit text = some n) : n < limit :=
  parseDigits_lt h

/-- A nonempty run of digits below the limit is read as its value. -/
theorem parseUnsigned_digits {limit : Nat} {digits : List Char} (hne : digits ≠ [])
    (hdigits : ∀ c ∈ digits, c.isDigit = true)
    (hlt : Nat.ofDigitChars 10 digits 0 < limit) :
    parseUnsigned limit digits = some (Nat.ofDigitChars 10 digits 0) := by
  have hplus : digits.head? ≠ some '+' := by
    intro hhead
    have := hdigits '+' (List.mem_of_mem_head? hhead)
    exact absurd this (by decide)
  unfold parseUnsigned parseDigits
  rw [if_neg hplus, if_pos ⟨hne, List.all_eq_true.mpr hdigits, hlt⟩]

theorem isDigit_toDigits (n : Nat) : ∀ c ∈ Nat.toDigits 10 n, c.isDigit = true :=
  fun _ hc => Nat.isDigit_of_mem_toDigits (by decide) (by decide) hc

theorem parseUnsigned_toDigits {limit n : Nat} (h : n < limit) :
    parseUnsigned limit (Nat.toDigits 10 n) = some n := by
  have hvalue : Nat.ofDigitChars 10 (Nat.toDigits 10 n) 0 = n := Nat.ofDigitChars_ten_toDigits
  rw [parseUnsigned_digits Nat.toDigits_ne_nil (isDigit_toDigits n) (by rwa [hvalue]), hvalue]

theorem parseUnsigned_fixedDigits {limit n : Nat} {width : Nat} (hw : 0 < width)
    (hn : n < 10 ^ width) (h : n < limit) :
    parseUnsigned limit (fixedDigits 10 width n) = some n := by
  have hvalue : Nat.ofDigitChars 10 (fixedDigits 10 width n) 0 = n := by
    rw [ofDigitChars_fixedDigits, Nat.mod_eq_of_lt hn]
  have hne : fixedDigits 10 width n ≠ [] := by
    intro hnil
    have := length_fixedDigits 10 width n
    rw [hnil] at this
    simp at this
    omega
  rw [parseUnsigned_digits hne (isDigit_fixedDigits width n) (by rwa [hvalue]), hvalue]

theorem isDigit_ascii {c : Char} (h : c.isDigit = true) : c.val ≤ 127 := by
  simp only [Char.isDigit, Bool.and_eq_true, decide_eq_true_eq] at h
  exact UInt32.le_trans h.2 (by decide)

theorem byteLen_toDigits_le {n width : Nat} (hw : 0 < width) (h : n < 10 ^ width) :
    byteLen (Nat.toDigits 10 n) ≤ width := by
  rw [byteLen_of_ascii fun c hc => isDigit_ascii (isDigit_toDigits n c hc)]
  exact (Nat.length_toDigits_le_iff (by decide) hw).mpr h

/-- The text before the first separator. -/
theorem takeWhile_ne_append {sep : Char} {left right : List Char} (h : sep ∉ left) :
    (left ++ sep :: right).takeWhile (· ≠ sep) = left := by
  induction left with
  | nil => simp
  | cons c left ih =>
    simp only [List.mem_cons, not_or] at h
    rw [List.cons_append, List.takeWhile_cons_of_pos (by simp [Ne.symm h.1]), ih h.2]

end HerdrContext.Library.Text
