import DoorBus.Wire.Word

/-!
# Registers as Bytes

A register and its two bytes say the same, in both directions. Taken as
numbers, the high byte counts 256 times, and the shifts and ors by which it is
put in and taken out again are this multiplication and the division by it. So
nothing has to be known of single bits.

For a block the two directions differ. Any registers are read back from their
bytes, but bytes are only written back as they were if there is an even number
of them, since an odd one at the end is left out in reading.

## Theorems

* `toNat_join`: A register as a number.
* `high_join`, `low_join`, `join_high_low`: A register and its two bytes.
* `ofBytes_toBytes`, `toBytes_ofBytes`: A block and its bytes.
-/

namespace DoorBus

namespace Word

theorem toNat_join (high low : UInt8) : (join high low).toNat = high.toNat * 256 + low.toNat := by
  have hhigh : high.toNat < 256 := high.toNat_lt
  have hlow : low.toNat < 2 ^ 8 := low.toNat_lt
  have hroom : high.toNat <<< 8 % 65536 = high.toNat <<< 8 := by
    rw [Nat.shiftLeft_eq]
    omega
  have hjoin : (join high low).toNat = high.toNat <<< 8 % 65536 ||| low.toNat := by
    rw [join, UInt16.toNat_or, UInt16.toNat_shiftLeft, UInt8.toNat_toUInt16, UInt8.toNat_toUInt16]
    rfl
  -- The two bytes share no bit, so that putting them together is adding them up.
  rw [hjoin, hroom, ← Nat.shiftLeft_add_eq_or_of_lt hlow, Nat.shiftLeft_eq]

/-- The two bytes of a word are its quotient and remainder by 256. -/
theorem toNat_high (word : UInt16) : (high word).toNat = word.toNat / 256 := by
  have hword : word.toNat < 65536 := word.toNat_lt
  have hhigh : (high word).toNat = word.toNat >>> 8 % 256 := by
    rw [high, UInt16.toNat_toUInt8, UInt16.toNat_shiftRight]
    rfl
  rw [hhigh, Nat.shiftRight_eq_div_pow]
  omega

theorem toNat_low (word : UInt16) : (low word).toNat = word.toNat % 256 := by
  rw [low, UInt16.toNat_toUInt8]

/-! ## One register -/

/-- What is put together is taken apart as it was. -/
theorem high_join (h l : UInt8) : high (join h l) = h := by
  have hl : l.toNat < 256 := l.toNat_lt
  apply UInt8.toNat.inj
  rw [toNat_high, toNat_join]
  omega

theorem low_join (h l : UInt8) : low (join h l) = l := by
  have hl : l.toNat < 256 := l.toNat_lt
  apply UInt8.toNat.inj
  rw [toNat_low, toNat_join]
  omega

/-- What is taken apart is put together as it was. -/
theorem join_high_low (word : UInt16) : join (high word) (low word) = word := by
  apply UInt16.toNat.inj
  rw [toNat_join, toNat_high, toNat_low]
  omega

theorem bytes_join (h l : UInt8) : bytes (join h l) = [h, l] := by
  rw [bytes, high_join, low_join]

/-! ## Blocks -/

theorem toBytes_cons (word : UInt16) (words : List UInt16) :
    toBytes (word :: words) = high word :: low word :: toBytes words := rfl

/-- Words are read back from their bytes, by induction over them. -/
theorem ofBytes_toBytes (words : List UInt16) : ofBytes (toBytes words) = words := by
  induction words with
  | nil => rfl
  | cons word words ih => rw [toBytes_cons, ofBytes, join_high_low, ih]

/-- Bytes are written back as they were read, if none is left over. -/
theorem toBytes_ofBytes (data : List UInt8) (heven : data.length % 2 = 0) :
    toBytes (ofBytes data) = data := by
  fun_induction ofBytes data with
  | case1 h l rest ih =>
      simp only [List.length_cons] at heven
      rw [toBytes_cons, high_join, low_join, ih (by omega)]
  | case2 data hdata =>
      -- Without a pair in front there is one byte at most, and one would be odd.
      rcases data with _ | ⟨h, _ | ⟨l, rest⟩⟩
      · rfl
      · simp only [List.length_singleton] at heven
        omega
      · exact absurd rfl (hdata h l rest)

end Word

end DoorBus
