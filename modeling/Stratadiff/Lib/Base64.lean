import Mathlib

/-!
# Canonical base-64 text

The RFC 4648 alphabet and its strict coding, over plain byte lists. `decode`
is the strict reader: the text must be a whole number of quanta, padding is
admitted in the last quantum only, and the bits that padding leaves unused must
be zero. Strictness makes the coding a bijection onto its canonical texts, so
the length of a decoded value can be read off the text without decoding it.
-/

namespace Base64

/-- The padding character `=`. -/
def pad : UInt8 := 61

/-- The character of a six-bit digit. Digits of 64 and more are never used. -/
def symbol (digit : Nat) : UInt8 :=
  if digit < 26 then UInt8.ofNat (65 + digit)
  else if digit < 52 then UInt8.ofNat (97 + (digit - 26))
  else if digit < 62 then UInt8.ofNat (48 + (digit - 52))
  else if digit = 62 then 43
  else 47

/-- The six-bit digit of a character of the alphabet. -/
def value (byte : UInt8) : Option Nat :=
  if 65 ≤ byte ∧ byte ≤ 90 then some (byte.toNat - 65)
  else if 97 ≤ byte ∧ byte ≤ 122 then some (byte.toNat - 97 + 26)
  else if 48 ≤ byte ∧ byte ≤ 57 then some (byte.toNat - 48 + 52)
  else if byte = 43 then some 62
  else if byte = 47 then some 63
  else none

theorem value_symbol {digit : Nat} (h : digit < 64) : value (symbol digit) = some digit := by
  interval_cases digit <;> rfl

theorem symbol_ne_pad {digit : Nat} (h : digit < 64) : symbol digit ≠ pad := by
  interval_cases digit <;> decide

theorem value_pad : value pad = none := rfl

theorem value_lt {byte : UInt8} {digit : Nat} (h : value byte = some digit) : digit < 64 := by
  have all : ∀ n : Fin 256, (value ⟨⟨n⟩⟩).all (· < 64) = true := by decide +kernel
  have bound := all byte.toBitVec.toFin
  simpa [h] using bound

/-- The byte with a given value; the coding only forms values below 256. -/
def byteOf (n : Nat) : UInt8 := UInt8.ofNat n

private theorem byteOf_eq {byte : UInt8} {n : Nat} (h : n = byte.toNat) : byteOf n = byte := by
  rw [h, byteOf, UInt8.ofNat_toNat]

/-- Encode three bytes at a time; a shorter tail is padded to a whole quantum. -/
def encode : List UInt8 → List UInt8
  | [] => []
  | [a] =>
      [symbol (a.toNat / 4), symbol (a.toNat % 4 * 16), pad, pad]
  | [a, b] =>
      [symbol (a.toNat / 4), symbol (a.toNat % 4 * 16 + b.toNat / 16),
        symbol (b.toNat % 16 * 4), pad]
  | a :: b :: c :: rest =>
      symbol (a.toNat / 4) :: symbol (a.toNat % 4 * 16 + b.toNat / 16) ::
        symbol (b.toNat % 16 * 4 + c.toNat / 64) :: symbol (c.toNat % 64) :: encode rest

/-- The bytes of a final quantum that ends in padding. -/
def decodePadded (w x y : UInt8) : Option (List UInt8) :=
  if y = pad then do
    let w ← value w
    let x ← value x
    if x % 16 = 0 then some [byteOf (w * 4 + x / 16)] else none
  else do
    let w ← value w
    let x ← value x
    let y ← value y
    if y % 4 = 0 then
      some [byteOf (w * 4 + x / 16), byteOf (x % 16 * 16 + y / 4)]
    else none

/-- Decode one quantum at a time. Only the last quantum may be padded. -/
def decode : List UInt8 → Option (List UInt8)
  | [] => some []
  | w :: x :: y :: z :: rest =>
      if rest = [] ∧ z = pad then decodePadded w x y
      else do
        let w ← value w
        let x ← value x
        let y ← value y
        let z ← value z
        let tail ← decode rest
        some (byteOf (w * 4 + x / 16) :: byteOf (x % 16 * 16 + y / 4) ::
          byteOf (y % 4 * 64 + z) :: tail)
  | _ => none

/-- Reading back an encoded value gives the value. -/
theorem decode_encode (bytes : List UInt8) : decode (encode bytes) = some bytes := by
  induction bytes using encode.induct with
  | case1 => rfl
  | case2 a =>
      have ha := a.toNat_lt
      have hw : a.toNat / 4 < 64 := by omega
      have hx : a.toNat % 4 * 16 < 64 := by omega
      have hzero : a.toNat % 4 * 16 % 16 = 0 := by omega
      have byte : byteOf (a.toNat / 4 * 4 + a.toNat % 4 * 16 / 16) = a :=
        byteOf_eq (by omega)
      simp only [encode, decode, decodePadded, value_symbol hw, value_symbol hx, hzero, byte,
        Option.bind_eq_bind, Option.bind_some, and_self, if_true]
  | case3 a b =>
      have ha := a.toNat_lt
      have hb := b.toNat_lt
      have hw : a.toNat / 4 < 64 := by omega
      have hx : a.toNat % 4 * 16 + b.toNat / 16 < 64 := by omega
      have hy : b.toNat % 16 * 4 < 64 := by omega
      have hzero : b.toNat % 16 * 4 % 4 = 0 := by omega
      have first :
          byteOf (a.toNat / 4 * 4 + (a.toNat % 4 * 16 + b.toNat / 16) / 16) = a :=
        byteOf_eq (by omega)
      have second :
          byteOf ((a.toNat % 4 * 16 + b.toNat / 16) % 16 * 16 +
            b.toNat % 16 * 4 / 4) = b :=
        byteOf_eq (by omega)
      simp only [encode, decode, decodePadded, symbol_ne_pad hy, value_symbol hw,
        value_symbol hx, value_symbol hy, hzero, first, second, Option.bind_eq_bind,
        Option.bind_some, and_self, if_true, if_false]
  | case4 a b c rest ih =>
      have ha := a.toNat_lt
      have hb := b.toNat_lt
      have hc := c.toNat_lt
      have hw : a.toNat / 4 < 64 := by omega
      have hx : a.toNat % 4 * 16 + b.toNat / 16 < 64 := by omega
      have hy : b.toNat % 16 * 4 + c.toNat / 64 < 64 := by omega
      have hz : c.toNat % 64 < 64 := by omega
      have first :
          byteOf (a.toNat / 4 * 4 + (a.toNat % 4 * 16 + b.toNat / 16) / 16) = a :=
        byteOf_eq (by omega)
      have second :
          byteOf ((a.toNat % 4 * 16 + b.toNat / 16) % 16 * 16 +
            (b.toNat % 16 * 4 + c.toNat / 64) / 4) = b :=
        byteOf_eq (by omega)
      have third :
          byteOf ((b.toNat % 16 * 4 + c.toNat / 64) % 4 * 64 + c.toNat % 64) = c :=
        byteOf_eq (by omega)
      simp only [encode, decode, symbol_ne_pad hz, value_symbol hw, value_symbol hx,
        value_symbol hy, value_symbol hz, ih, first, second, third, Option.bind_eq_bind,
        Option.bind_some, and_false, if_false]

/-- What an accepted text looks like: digits, then at most two padding characters, with
the unused bits of the last digit zero. -/
structure Canonical (text : List UInt8) (size : Nat) (body : List UInt8) (last : UInt8)
    (digit padding : Nat) : Prop where
  text_eq : text = body ++ last :: List.replicate padding pad
  body_digits : ∀ byte ∈ body, (value byte).isSome
  last_digit : value last = some digit
  padding_le : padding ≤ 2
  one : padding = 1 → digit % 4 = 0
  two : padding = 2 → digit % 16 = 0
  quanta : text.length % 4 = 0
  size_eq : size + padding = text.length / 4 * 3

theorem decodePadded_canonical {w x y : UInt8} {bytes : List UInt8}
    (h : decodePadded w x y = some bytes) :
    ∃ body last digit padding, Canonical [w, x, y, pad] bytes.length body last digit padding := by
  unfold decodePadded at h
  split at h
  · rename_i hy
    simp only [Option.bind_eq_bind, Option.bind_eq_some_iff] at h
    obtain ⟨dw, hw, dx, hx, h⟩ := h
    split at h
    · rename_i zero
      cases h
      exact ⟨[w], x, dx, 2, by simp [hy], by simp [hw], hx, by omega, by omega, fun _ => zero,
        by simp, by simp⟩
    · cases h
  · simp only [Option.bind_eq_bind, Option.bind_eq_some_iff] at h
    obtain ⟨dw, hw, dx, hx, dy, hy, h⟩ := h
    split at h
    · rename_i zero
      cases h
      exact ⟨[w, x], y, dy, 1, by simp, by simp [hw, hx], hy, by omega, fun _ => zero, by omega,
        by simp, by simp⟩
    · cases h

theorem decode_canonical {text bytes : List UInt8} (h : decode text = some bytes)
    (nonempty : text ≠ []) :
    ∃ body last digit padding, Canonical text bytes.length body last digit padding := by
  induction text using decode.induct generalizing bytes with
  | case1 => exact absurd rfl nonempty
  | case2 w x y z rest final =>
      rw [decode, if_pos final] at h
      obtain ⟨rfl, rfl⟩ := final
      exact decodePadded_canonical h
  | case3 w x y z rest final ih =>
      rw [decode, if_neg final] at h
      simp only [Option.bind_eq_bind, Option.bind_eq_some_iff, Option.some.injEq] at h
      obtain ⟨dw, hw, dx, hx, dy, hy, dz, hz, tail, htail, rfl⟩ := h
      by_cases empty : rest = []
      · subst empty
        cases htail
        exact ⟨[w, x, y], z, dz, 0, by simp, by simp [hw, hx, hy], hz, by omega, by omega,
          by omega, by simp, by simp⟩
      · obtain ⟨body, last, digit, padding, canonical⟩ := ih htail empty
        refine ⟨w :: x :: y :: z :: body, last, digit, padding, ?_, ?_, canonical.last_digit,
          canonical.padding_le, canonical.one, canonical.two, ?_, ?_⟩
        · simp [← canonical.text_eq]
        · intro byte member
          simp only [List.mem_cons] at member
          rcases member with rfl | rfl | rfl | rfl | member
          · simp [hw]
          · simp [hx]
          · simp [hy]
          · simp [hz]
          · exact canonical.body_digits byte member
        · have := canonical.quanta
          simp only [List.length_cons]
          omega
        · have := canonical.size_eq
          have := canonical.quanta
          simp only [List.length_cons] at *
          omega
  | case4 text _ _ =>
      rw [decode] at h
      · cases h
      all_goals assumption

/-- A text of this form is read. -/
theorem Canonical.decode {text body : List UInt8} {last : UInt8} {size digit padding : Nat}
    (h : Canonical text size body last digit padding) :
    ∃ bytes, Base64.decode text = some bytes ∧ bytes.length = size := by
  have notPad : last ≠ pad := by
    rintro rfl
    cases value_pad.symm.trans h.last_digit
  obtain ⟨rfl, digits, last_digit, bound, one, two, quanta, size_eq⟩ := h
  -- The quanta of the body before the last one are peeled off; the last one has the padding.
  induction hn : body.length using Nat.strong_induction_on generalizing body size with
  | _ n ih =>
      rcases body with _ | ⟨w, _ | ⟨x, _ | ⟨y, _ | ⟨z, rest⟩⟩⟩⟩
      · simp only [List.nil_append, List.length_cons, List.length_replicate] at quanta
        omega
      · simp only [List.singleton_append, List.length_cons, List.length_replicate] at quanta size_eq
        obtain rfl : padding = 2 := by omega
        obtain ⟨dw, hw⟩ := Option.isSome_iff_exists.mp (digits w List.mem_cons_self)
        refine ⟨[byteOf (dw * 4 + digit / 16)], ?_, ?_⟩
        · simp [Base64.decode, decodePadded, List.replicate, hw, last_digit, two rfl]
        · simp only [List.length_singleton]
          omega
      · simp only [List.cons_append, List.nil_append, List.length_cons, List.length_replicate]
          at quanta size_eq
        obtain rfl : padding = 1 := by omega
        obtain ⟨dw, hw⟩ := Option.isSome_iff_exists.mp (digits w List.mem_cons_self)
        obtain ⟨dx, hx⟩ := Option.isSome_iff_exists.mp
          (digits x (List.mem_cons_of_mem _ List.mem_cons_self))
        refine ⟨[byteOf (dw * 4 + dx / 16), byteOf (dx % 16 * 16 + digit / 4)], ?_, ?_⟩
        · simp [Base64.decode, decodePadded, List.replicate, hw, hx, last_digit, one rfl, notPad]
        · simp only [List.length_cons, List.length_nil]
          omega
      · simp only [List.cons_append, List.nil_append, List.length_cons, List.length_replicate]
          at quanta size_eq
        obtain rfl : padding = 0 := by omega
        obtain ⟨dw, hw⟩ := Option.isSome_iff_exists.mp (digits w List.mem_cons_self)
        obtain ⟨dx, hx⟩ := Option.isSome_iff_exists.mp
          (digits x (List.mem_cons_of_mem _ List.mem_cons_self))
        obtain ⟨dy, hy⟩ := Option.isSome_iff_exists.mp
          (digits y (List.mem_cons_of_mem _ (List.mem_cons_of_mem _ List.mem_cons_self)))
        refine ⟨[byteOf (dw * 4 + dx / 16), byteOf (dx % 16 * 16 + dy / 4),
          byteOf (dy % 4 * 64 + digit)], ?_, ?_⟩
        · simp [Base64.decode, List.replicate, hw, hx, hy, last_digit, notPad]
        · simp only [List.length_cons, List.length_nil]
          omega
      · simp only [List.cons_append, List.length_cons, List.length_append, List.length_replicate]
          at quanta size_eq
        obtain ⟨dw, hw⟩ := Option.isSome_iff_exists.mp (digits w (by simp))
        obtain ⟨dx, hx⟩ := Option.isSome_iff_exists.mp (digits x (by simp))
        obtain ⟨dy, hy⟩ := Option.isSome_iff_exists.mp (digits y (by simp))
        obtain ⟨dz, hz⟩ := Option.isSome_iff_exists.mp (digits z (by simp))
        have shorter : rest.length < n := by
          rw [← hn]
          simp only [List.length_cons]
          omega
        have restDigits : ∀ byte ∈ rest, (value byte).isSome = true :=
          fun byte member => digits byte (by simp [member])
        have restQuanta : (rest ++ last :: List.replicate padding pad).length % 4 = 0 := by
          simp only [List.length_append, List.length_cons, List.length_replicate]
          omega
        have restSize : size - 3 + padding =
            (rest ++ last :: List.replicate padding pad).length / 4 * 3 := by
          simp only [List.length_append, List.length_cons, List.length_replicate]
          omega
        obtain ⟨tail, decoded, length⟩ :=
          ih rest.length shorter restDigits restQuanta restSize rfl
        refine ⟨byteOf (dw * 4 + dx / 16) :: byteOf (dx % 16 * 16 + dy / 4) ::
          byteOf (dy % 4 * 64 + dz) :: tail, ?_, ?_⟩
        · simp [Base64.decode, hw, hx, hy, hz, decoded]
        · simp only [List.length_cons]
          omega

theorem symbol_value {byte : UInt8} {digit : Nat} (h : value byte = some digit) :
    symbol digit = byte := by
  have all : ∀ n : Fin 256, (value ⟨⟨n⟩⟩).all (fun digit => symbol digit = ⟨⟨n⟩⟩) = true := by
    decide +kernel
  have same := all byte.toBitVec.toFin
  have eta : (⟨⟨byte.toBitVec.toFin⟩⟩ : UInt8) = byte := rfl
  rw [eta, h] at same
  exact of_decide_eq_true same

private theorem byteOf_toNat {n : Nat} (h : n < 256) : (byteOf n).toNat = n := by
  rw [byteOf, UInt8.toNat_ofNat']
  omega

/-- A text that is read is the encoding of what it is read as. -/
theorem encode_of_decode {text bytes : List UInt8} (h : decode text = some bytes) :
    encode bytes = text := by
  induction text using decode.induct generalizing bytes with
  | case1 =>
      cases h
      rfl
  | case2 w x y z rest final =>
      obtain ⟨rfl, rfl⟩ := final
      rw [decode, if_pos ⟨rfl, rfl⟩, decodePadded] at h
      split at h
      · next hy =>
        simp only [Option.bind_eq_bind, Option.bind_eq_some_iff] at h
        obtain ⟨dw, hw, dx, hx, h⟩ := h
        split at h
        · next zero =>
          cases h
          have := value_lt hw
          have := value_lt hx
          have first : (dw * 4 + dx / 16) / 4 = dw := by omega
          have second : (dw * 4 + dx / 16) % 4 * 16 = dx := by omega
          rw [encode, byteOf_toNat (by omega), hy, first, second, symbol_value hw, symbol_value hx]
        · cases h
      · simp only [Option.bind_eq_bind, Option.bind_eq_some_iff] at h
        obtain ⟨dw, hw, dx, hx, dy, hy, h⟩ := h
        split at h
        · next zero =>
          cases h
          have := value_lt hw
          have := value_lt hx
          have := value_lt hy
          have first : (dw * 4 + dx / 16) / 4 = dw := by omega
          have second : (dw * 4 + dx / 16) % 4 * 16 + (dx % 16 * 16 + dy / 4) / 16 = dx := by omega
          have third : (dx % 16 * 16 + dy / 4) % 16 * 4 = dy := by omega
          rw [encode, byteOf_toNat (by omega), byteOf_toNat (by omega), first, second, third,
            symbol_value hw, symbol_value hx, symbol_value hy]
        · cases h
  | case3 w x y z rest final ih =>
      rw [decode, if_neg final] at h
      simp only [Option.bind_eq_bind, Option.bind_eq_some_iff, Option.some.injEq] at h
      obtain ⟨dw, hw, dx, hx, dy, hy, dz, hz, tail, htail, rfl⟩ := h
      have := value_lt hw
      have := value_lt hx
      have := value_lt hy
      have := value_lt hz
      have first : (dw * 4 + dx / 16) / 4 = dw := by omega
      have second : (dw * 4 + dx / 16) % 4 * 16 + (dx % 16 * 16 + dy / 4) / 16 = dx := by omega
      have third : (dx % 16 * 16 + dy / 4) % 16 * 4 + (dy % 4 * 64 + dz) / 64 = dy := by omega
      have fourth : (dy % 4 * 64 + dz) % 64 = dz := by omega
      rw [encode, byteOf_toNat (by omega), byteOf_toNat (by omega), byteOf_toNat (by omega), first,
        second, third, fourth, ih htail, symbol_value hw, symbol_value hx, symbol_value hy,
        symbol_value hz]
  | case4 text _ _ =>
      rw [decode] at h
      · cases h
      all_goals assumption

theorem decode_length {text bytes : List UInt8} (h : decode text = some bytes) :
    text.length * 3 ≤ (bytes.length + 2) * 4 := by
  by_cases empty : text = []
  · simp [empty]
  · obtain ⟨_, _, _, _, canonical⟩ := decode_canonical h empty
    have := canonical.size_eq
    have := canonical.padding_le
    have := canonical.quanta
    omega

end Base64
