import Mathlib

/-!
# Base-64 text for URLs

The RFC 4648 alphabet with `-` and `_`, without padding: a tail of one byte is two
characters, a tail of two bytes three. The bits that a tail leaves unused must be zero.
-/

namespace Base64Url

/-- The character of a six-bit digit. Digits of 64 and more are never used. -/
def symbol (digit : Nat) : Char :=
  if digit < 26 then Char.ofNat (65 + digit)
  else if digit < 52 then Char.ofNat (97 + (digit - 26))
  else if digit < 62 then Char.ofNat (48 + (digit - 52))
  else if digit = 62 then '-'
  else '_'

/-- The six-bit digit of a character of the alphabet. -/
def value (c : Char) : Option Nat :=
  if 'A' ≤ c ∧ c ≤ 'Z' then some (c.toNat - 65)
  else if 'a' ≤ c ∧ c ≤ 'z' then some (c.toNat - 97 + 26)
  else if '0' ≤ c ∧ c ≤ '9' then some (c.toNat - 48 + 52)
  else if c = '-' then some 62
  else if c = '_' then some 63
  else none

theorem value_symbol {digit : Nat} (h : digit < 64) : value (symbol digit) = some digit := by
  interval_cases digit <;> rfl

/-- Encode three bytes at a time. -/
def encode : List UInt8 → List Char
  | [] => []
  | [a] => [symbol (a.toNat / 4), symbol (a.toNat % 4 * 16)]
  | [a, b] =>
      [symbol (a.toNat / 4), symbol (a.toNat % 4 * 16 + b.toNat / 16), symbol (b.toNat % 16 * 4)]
  | a :: b :: c :: rest =>
      symbol (a.toNat / 4) :: symbol (a.toNat % 4 * 16 + b.toNat / 16) ::
        symbol (b.toNat % 16 * 4 + c.toNat / 64) :: symbol (c.toNat % 64) :: encode rest

/-- Decode four characters at a time. -/
def decode : List Char → Option (List UInt8)
  | [] => some []
  | [_] => none
  | [w, x] => do
      let w ← value w
      let x ← value x
      if x % 16 = 0 then some [UInt8.ofNat (w * 4 + x / 16)] else none
  | [w, x, y] => do
      let w ← value w
      let x ← value x
      let y ← value y
      if y % 4 = 0 then some [UInt8.ofNat (w * 4 + x / 16), UInt8.ofNat (x % 16 * 16 + y / 4)]
      else none
  | w :: x :: y :: z :: rest => do
      let w ← value w
      let x ← value x
      let y ← value y
      let z ← value z
      let tail ← decode rest
      some (UInt8.ofNat (w * 4 + x / 16) :: UInt8.ofNat (x % 16 * 16 + y / 4) ::
        UInt8.ofNat (y % 4 * 64 + z) :: tail)

theorem ofNat_eq {byte : UInt8} {n : Nat} (h : n = byte.toNat) : UInt8.ofNat n = byte := by
  rw [h, UInt8.ofNat_toNat]

/-- Reading back an encoded value gives the value. -/
theorem decode_encode (bytes : List UInt8) : decode (encode bytes) = some bytes := by
  induction bytes using encode.induct with
  | case1 => rfl
  | case2 a =>
      have ha := a.toNat_lt
      have hw : a.toNat / 4 < 64 := by omega
      have hx : a.toNat % 4 * 16 < 64 := by omega
      have zero : a.toNat % 4 * 16 % 16 = 0 := by omega
      have byte : UInt8.ofNat (a.toNat / 4 * 4 + a.toNat % 4 * 16 / 16) = a := ofNat_eq (by omega)
      simp only [encode, decode, value_symbol hw, value_symbol hx, Option.bind_eq_bind,
        Option.bind_some, zero, if_true, byte]
  | case3 a b =>
      have ha := a.toNat_lt
      have hb := b.toNat_lt
      have hw : a.toNat / 4 < 64 := by omega
      have hx : a.toNat % 4 * 16 + b.toNat / 16 < 64 := by omega
      have hy : b.toNat % 16 * 4 < 64 := by omega
      have zero : b.toNat % 16 * 4 % 4 = 0 := by omega
      have first : UInt8.ofNat (a.toNat / 4 * 4 + (a.toNat % 4 * 16 + b.toNat / 16) / 16) = a :=
        ofNat_eq (by omega)
      have second : UInt8.ofNat ((a.toNat % 4 * 16 + b.toNat / 16) % 16 * 16 +
          b.toNat % 16 * 4 / 4) = b := ofNat_eq (by omega)
      simp only [encode, decode, value_symbol hw, value_symbol hx, value_symbol hy,
        Option.bind_eq_bind, Option.bind_some, zero, if_true, first, second]
  | case4 a b c rest ih =>
      have ha := a.toNat_lt
      have hb := b.toNat_lt
      have hc := c.toNat_lt
      have hw : a.toNat / 4 < 64 := by omega
      have hx : a.toNat % 4 * 16 + b.toNat / 16 < 64 := by omega
      have hy : b.toNat % 16 * 4 + c.toNat / 64 < 64 := by omega
      have hz : c.toNat % 64 < 64 := by omega
      have first : UInt8.ofNat (a.toNat / 4 * 4 + (a.toNat % 4 * 16 + b.toNat / 16) / 16) = a :=
        ofNat_eq (by omega)
      have second : UInt8.ofNat ((a.toNat % 4 * 16 + b.toNat / 16) % 16 * 16 +
          (b.toNat % 16 * 4 + c.toNat / 64) / 4) = b := ofNat_eq (by omega)
      have third : UInt8.ofNat ((b.toNat % 16 * 4 + c.toNat / 64) % 4 * 64 + c.toNat % 64) = c :=
        ofNat_eq (by omega)
      simp only [encode, decode, value_symbol hw, value_symbol hx, value_symbol hy, value_symbol hz,
        ih, Option.bind_eq_bind, Option.bind_some, first, second, third]

theorem length_encode (bytes : List UInt8) :
    (encode bytes).length = (4 * bytes.length + 2) / 3 := by
  induction bytes using encode.induct with
  | case1 => rfl
  | case2 a => simp [encode]
  | case3 a b => simp [encode]
  | case4 a b c rest ih =>
      simp only [encode, List.length_cons, ih]
      omega

/-- The characters of the alphabet are one byte each. -/
theorem utf8Size_symbol {digit : Nat} (h : digit < 64) : (symbol digit).utf8Size = 1 := by
  interval_cases digit <;> rfl

theorem utf8Size_encode (bytes : List UInt8) : ∀ c ∈ encode bytes, c.utf8Size = 1 := by
  induction bytes using encode.induct with
  | case1 => simp [encode]
  | case2 a =>
      have ha := a.toNat_lt
      simp only [encode, List.forall_mem_cons, List.not_mem_nil, false_imp_iff, implies_true,
        and_true]
      exact ⟨utf8Size_symbol (by omega), utf8Size_symbol (by omega)⟩
  | case3 a b =>
      have ha := a.toNat_lt
      have hb := b.toNat_lt
      simp only [encode, List.forall_mem_cons, List.not_mem_nil, false_imp_iff, implies_true,
        and_true]
      exact ⟨utf8Size_symbol (by omega), utf8Size_symbol (by omega), utf8Size_symbol (by omega)⟩
  | case4 a b c rest ih =>
      have ha := a.toNat_lt
      have hb := b.toNat_lt
      have hc := c.toNat_lt
      simp only [encode, List.forall_mem_cons]
      exact ⟨utf8Size_symbol (by omega), utf8Size_symbol (by omega), utf8Size_symbol (by omega),
        utf8Size_symbol (by omega), ih⟩

end Base64Url
