import Mathlib.Algebra.Ring.Parity
import Mathlib.Data.Nat.Count
import DoorBus.Proofs.Wire.Codec
import DoorBus.Proofs.Wire.Register
import DoorBus.Proofs.Wire.Word

/-!
# Corruptions That the Check Sees

On the wire the bits of a frame follow each other byte by byte, the lowest bit
of a byte first. A corruption flips some of them. Whether it is seen does not
depend on the frame: the register is linear, and a frame as it was sent leaves
it empty, so a corrupted frame leaves what the corruption alone would leave. The
corruption is seen just if that is not empty.

What a corruption leaves is computed bit by bit here, from its places alone. As
long as no bit is flipped the register stays empty, and once it is not empty,
bits that are not flipped only shift it. So everything is decided between the
first flipped bit and the last one.

* An odd number of flipped bits leaves a register of odd parity.
* Flipped bits that lie close together fit into the register as they are, and
  are shifted from there.
* Two flipped bits cancel each other only if the register has come back to where
  the first one put it.

## Main definitions

* `wireBit`: A bit of some bytes, in the order of the wire.
* `flipped`: Bytes with some of their bits flipped.
* `leftover`: What a corruption leaves in the register.
* `window`: A short piece of a corruption, as a word.

## Theorems

* `isChecked_iff_run`: Checked bytes leave the register empty, and no others do.
* `wireBit_flipped`: Flipping flips the bits that it says.
* `run_flipped`: What corrupted bytes leave.
* `leftover_add`: A short piece goes through the register as a word.
* `leftover_of_odd`, `leftover_of_near`, `leftover_of_pair`: Three ways to leave
  something.
* `decode_flipped`: Corruptions that the check sees.
-/

namespace DoorBus

namespace Checksum

/-! ## Checked bytes -/

/-- A byte in the high half comes down to the low one within eight bit
    times. -/
theorem iterate_shift_high (byte : UInt8) :
    shift^[8] (Word.join byte 0) = byte.toUInt16 := by
  have hjoin : (Word.join byte 0).toNat = byte.toNat <<< 8 := by
    have hzero : (0 : UInt8).toNat = 0 := rfl
    rw [Word.toNat_join, hzero, Nat.add_zero, Nat.shiftLeft_eq]
  apply UInt16.toNat.inj
  rw [toNat_iterate_shift 8, hjoin, Nat.shiftLeft_shiftRight, UInt8.toNat_toUInt16]
  -- The low half is clear, so nothing but clear bits leaves.
  intro index hindex
  rw [bit, hjoin, Nat.testBit_shiftLeft, decide_eq_false (by omega), Bool.false_and]

theorem join_eq_xor (high low : UInt8) :
    Word.join high low = low.toUInt16 ^^^ Word.join high 0 := by
  have hzero : (0 : UInt8).toUInt16 = 0 := rfl
  have hlow : low.toNat < 2 ^ 8 := low.toNat_lt
  refine eq_of_bit fun index => ?_
  rw [bit_xor, Word.join, Word.join, hzero, UInt16.or_zero, bit, bit, bit, UInt16.toNat_or,
    Nat.testBit_or, UInt8.toNat_toUInt16]
  -- The low byte ends where the high one begins, so the two meet in no bit.
  by_cases hindex : index < 8
  · have hclear : ((high.toUInt16 <<< 8).toNat).testBit index = false := by
      have hshift : (high.toUInt16 <<< 8).toNat = high.toNat <<< 8 % 2 ^ 16 := by
        rw [UInt16.toNat_shiftLeft, UInt8.toNat_toUInt16]
        rfl
      rw [hshift, Nat.testBit_mod_two_pow, Nat.testBit_shiftLeft,
        decide_eq_false (show ¬ index ≥ 8 by omega), Bool.false_and, Bool.and_false]
    rw [hclear, Bool.false_or, Bool.xor_false]
  · have hbeyond : low.toNat.testBit index = false :=
      Nat.testBit_lt_two_pow (Nat.lt_of_lt_of_le hlow (Nat.pow_le_pow_right (by omega) (by omega)))
    rw [hbeyond, Bool.or_false, Bool.false_xor]

/-- Two bytes empty the register just if they are what it holds, low byte
    first. -/
theorem run_pair_eq_zero_iff (register : UInt16) (low high : UInt8) :
    run register [low, high] = 0 ↔ low = Word.low register ∧ high = Word.high register := by
  have hrun : run register [low, high] = shift^[16] (register ^^^ Word.join high low) := by
    -- The second byte is absorbed eight bit times late, where the high half is by then.
    rw [run_cons, run_cons, run, List.foldl_nil, absorb_eq, absorb_eq, ← iterate_shift_high high,
      ← iterate_shift_xor, ← Function.iterate_add_apply, UInt16.xor_assoc, ← join_eq_xor]
  rw [hrun]
  constructor
  · intro h
    have hempty : register ^^^ Word.join high low = 0 := by
      by_contra hne
      exact iterate_shift_ne_zero 16 hne h
    rw [UInt16.xor_eq_zero_iff.mp hempty, Word.low_join, Word.high_join]
    exact ⟨rfl, rfl⟩
  · rintro ⟨rfl, rfl⟩
    rw [Word.join_high_low, UInt16.xor_self, iterate_shift_zero]

end Checksum

open Checksum

/-- Checked bytes leave the register empty, and no others do. -/
theorem Frame.isChecked_iff_run {bytes : List UInt8} (h : 2 ≤ bytes.length) :
    IsChecked bytes ↔ run seed bytes = 0 := by
  have hcut : (bytes.drop (bytes.length - 2)).length = 2 := by
    rw [List.length_drop]
    omega
  rcases List.length_eq_two.mp hcut with ⟨low, high, hlast⟩
  -- The register before the last two bytes is the check of those before them.
  have hsplit : bytes.take (bytes.length - 2) ++ [low, high] = bytes := by
    rw [← hlast, List.take_append_drop]
  have hrun : run seed bytes
      = run («over» (bytes.take (bytes.length - 2))) [low, high] := by
    rw [«over», ← run_append, hsplit]
  rw [isChecked_iff, hlast, hrun, run_pair_eq_zero_iff, trailer, List.cons.injEq, List.cons.injEq]
  constructor
  · rintro ⟨hlow, hhigh, _⟩
    exact ⟨hlow.symm, hhigh.symm⟩
  · rintro ⟨hlow, hhigh⟩
    exact ⟨hlow.symm, hhigh.symm, rfl⟩

/-! ## Flipped bits -/

/-- A bit of some bytes, in the order of the wire. -/
def wireBit (bytes : List UInt8) (place : Nat) : Bool :=
  (bytes[place / 8]?.getD 0).toNat.testBit (place % 8)

/-- The bits of one byte that are flipped, where the byte has an index. -/
def flips (places : Finset Nat) (index : Nat) : UInt8 :=
  .ofNat (Nat.ofBits fun bit : Fin 8 => decide (8 * index + bit.val ∈ places))

/-- Bytes with the bits at some places flipped. -/
def flipped (bytes : List UInt8) (places : Finset Nat) : List UInt8 :=
  bytes.mapIdx fun index byte => byte ^^^ flips places index

theorem length_flipped (bytes : List UInt8) (places : Finset Nat) :
    (flipped bytes places).length = bytes.length :=
  List.length_mapIdx

/-- A byte of the corruption has the bits at its eight places. -/
theorem testBit_flips (places : Finset Nat) (index bit : Nat) :
    (flips places index).toNat.testBit bit = decide (bit < 8 ∧ 8 * index + bit ∈ places) := by
  have hbits := Nat.ofBits_lt_two_pow fun bit : Fin 8 => decide (8 * index + bit.val ∈ places)
  rw [flips, UInt8.toNat_ofNat', Nat.mod_eq_of_lt hbits, Nat.testBit_ofBits]
  by_cases hbit : bit < 8
  · rw [dif_pos hbit, decide_eq_decide, and_iff_right hbit]
  · rw [dif_neg hbit, decide_eq_false (fun h => hbit h.1)]

/-- Flipping flips the bits that it says, and no others. -/
theorem wireBit_flipped {bytes : List UInt8} (places : Finset Nat) {place : Nat}
    (h : place < 8 * bytes.length) :
    wireBit (flipped bytes places) place = (wireBit bytes place ^^ decide (place ∈ places)) := by
  have hindex : place / 8 < bytes.length := by omega
  have hbit : place % 8 < 8 := Nat.mod_lt _ (by omega)
  have hplace : 8 * (place / 8) + place % 8 = place := Nat.div_add_mod place 8
  rw [wireBit, flipped, List.getElem?_mapIdx, wireBit, List.getElem?_eq_getElem hindex,
    Option.map_some, Option.getD_some, Option.getD_some, UInt8.toNat_xor, Nat.testBit_xor,
    testBit_flips, hplace]
  simp only [hbit, true_and]

/-! ## What a corruption leaves -/

/-- What a corruption leaves in an empty register, within the first bits of the
    wire. -/
def leftover (places : Finset Nat) : Nat → UInt16
  | 0 => 0
  | place + 1 => shift (leftover places place ^^^ if place ∈ places then 1 else 0)

/-- A short piece of a corruption as a word, with its first place in the lowest
    bit. -/
def window (places : Finset Nat) (start : Nat) : Nat → UInt16
  | 0 => 0
  | count + 1 => window places start count
      ^^^ if start + count ∈ places then 1 <<< UInt16.ofNat count else 0

theorem toNat_single {count : Nat} (h : count < 16) :
    ((1 : UInt16) <<< UInt16.ofNat count).toNat = 2 ^ count := by
  have hcount : (UInt16.ofNat count).toNat % 16 = count := by
    rw [UInt16.toNat_ofNat']
    omega
  have hfits : 2 ^ count < 2 ^ 16 := Nat.pow_lt_pow_right (by omega) h
  have hone : (1 : UInt16).toNat = 1 := rfl
  rw [UInt16.toNat_shiftLeft, hcount, hone, Nat.shiftLeft_eq, Nat.one_mul, Nat.mod_eq_of_lt hfits]

theorem bit_single {count : Nat} (h : count < 16) (index : Nat) :
    bit (1 <<< UInt16.ofNat count) index = decide (count = index) := by
  rw [bit, toNat_single h, Nat.testBit_two_pow]

theorem bit_window (places : Finset Nat) (start : Nat) {count : Nat} (h : count ≤ 16)
    (index : Nat) :
    bit (window places start count) index = decide (index < count ∧ start + index ∈ places) := by
  -- The window grows at its upper end, one place at a time.
  induction count with
  | zero =>
      rw [window, bit_zero]
      simp only [Nat.not_lt_zero, false_and, decide_false]
  | succ count ih =>
      rw [window, bit_xor, ih (by omega)]
      -- The new bit is the one right behind those that were there.
      by_cases hplace : start + count ∈ places
      · rw [if_pos hplace, bit_single (by omega)]
        by_cases hindex : count = index
        · rw [← hindex]
          simp only [Nat.lt_irrefl, false_and, decide_false, decide_true, Bool.false_xor,
            Nat.lt_succ_self, true_and, hplace]
        · have hlt : index < count + 1 ↔ index < count := by omega
          simp only [hindex, decide_false, Bool.xor_false, hlt]
      · rw [if_neg hplace, bit_zero, Bool.xor_false, decide_eq_decide]
        constructor
        · rintro ⟨hindex, hmem⟩
          exact ⟨by omega, hmem⟩
        · rintro ⟨hindex, hmem⟩
          refine ⟨?_, hmem⟩
          by_contra hnot
          exact hplace ((show index = count by omega) ▸ hmem)

/-- A short piece of a corruption goes through the register as a word. A bit
    that is to be flipped later may as well be flipped now, as many places above
    the lowest one. -/
theorem leftover_add (places : Finset Nat) (start : Nat) {count : Nat} (h : count ≤ 16) :
    leftover places (start + count)
      = shift^[count] (leftover places start ^^^ window places start count) := by
  induction count with
  | zero => rw [Nat.add_zero, window, UInt16.xor_zero, Function.iterate_zero_apply]
  | succ count ih =>
      -- A single bit comes down to the lowest place just when its turn has come.
      have hsingle : shift^[count] (1 <<< UInt16.ofNat count) = 1 := by
        apply UInt16.toNat.inj
        rw [toNat_iterate_shift count, toNat_single (by omega), Nat.shiftRight_eq_div_pow,
          Nat.div_self (Nat.two_pow_pos count)]
        · rfl
        · intro index hindex
          rw [bit_single (by omega), decide_eq_false (by omega)]
      have hnew : (if start + count ∈ places then (1 : UInt16) else 0)
          = shift^[count] (if start + count ∈ places then 1 <<< UInt16.ofNat count else 0) := by
        by_cases hplace : start + count ∈ places
        · rw [if_pos hplace, if_pos hplace, hsingle]
        · rw [if_neg hplace, if_neg hplace, iterate_shift_zero]
      rw [← Nat.add_assoc, leftover, ih (by omega), hnew, ← iterate_shift_xor,
        ← Function.iterate_succ_apply' shift, window, UInt16.xor_assoc]

/-- A byte of the corruption is a window of eight places. -/
theorem toUInt16_flips (places : Finset Nat) (index : Nat) :
    (flips places index).toUInt16 = window places (8 * index) 8 := by
  refine eq_of_bit fun place => ?_
  rw [bit_window places _ (by omega), bit, UInt8.toNat_toUInt16, testBit_flips]

/-- The corruption by itself goes through an empty register byte by byte, eight
    places at a time. -/
theorem run_flips (places : Finset Nat) (length : Nat) :
    run 0 ((List.range length).map (flips places)) = leftover places (8 * length) := by
  induction length with
  | zero => rfl
  | succ length ih =>
      rw [List.range_succ, List.map_append, run_append, ih, List.map_singleton, run_cons, run,
        List.foldl_nil, absorb_eq, toUInt16_flips, Nat.mul_succ, leftover_add _ _ (by omega)]

/-- To flip bits is to lay the corruption over the bytes. -/
theorem flipped_eq_zipWith (bytes : List UInt8) (places : Finset Nat) :
    flipped bytes places
      = List.zipWith (· ^^^ ·) bytes ((List.range bytes.length).map (flips places)) := by
  apply List.ext_getElem
  · rw [length_flipped, List.length_zipWith, List.length_map, List.length_range, Nat.min_self]
  · intro index _ _
    simp only [flipped, List.getElem_mapIdx, List.getElem_zipWith, List.getElem_map,
      List.getElem_range]

/-- Corrupted bytes leave what they would have left, with what the corruption
    leaves laid over it. -/
theorem run_flipped (register : UInt16) (bytes : List UInt8) (places : Finset Nat) :
    run register (flipped bytes places)
      = run register bytes ^^^ leftover places (8 * bytes.length) := by
  have hlength : bytes.length = ((List.range bytes.length).map (flips places)).length := by
    rw [List.length_map, List.length_range]
  -- The corruption by itself is run from an empty register.
  have hrun := run_xor register 0 bytes _ hlength
  rw [UInt16.xor_zero] at hrun
  rw [flipped_eq_zipWith, hrun, run_flips]

/-! ## Corruptions that leave something -/

/-- Bits that are not flipped only shift the register. -/
theorem leftover_of_gap (places : Finset Nat) (start count : Nat)
    (h : ∀ place ∈ places, place < start ∨ start + count ≤ place) :
    leftover places (start + count) = shift^[count] (leftover places start) := by
  induction count with
  | zero => rfl
  | succ count ih =>
      have hnot : start + count ∉ places := by
        intro hmem
        have hout := h _ hmem
        omega
      -- A shorter gap is a gap all the same.
      have hrest : ∀ place ∈ places, place < start ∨ start + count ≤ place := by
        intro place hmem
        have hout := h place hmem
        omega
      rw [← Nat.add_assoc, leftover, if_neg hnot, UInt16.xor_zero, ih hrest,
        Function.iterate_succ_apply']

/-- Up to the first flipped bit the register is empty. -/
theorem leftover_of_before {places : Finset Nat} {start : Nat}
    (h : ∀ place ∈ places, start ≤ place) : leftover places start = 0 := by
  have hgap := leftover_of_gap places 0 start fun place hmem =>
    .inr (by rw [Nat.zero_add]; exact h place hmem)
  rw [Nat.zero_add] at hgap
  rw [hgap, leftover, iterate_shift_zero]

/-- What has been left stays until the end of the frame. -/
theorem leftover_ne_zero_of_past {places : Finset Nat} {total : Nat} (past : Nat)
    (hle : past ≤ total) (h : ∀ place ∈ places, place < past) (hne : leftover places past ≠ 0) :
    leftover places total ≠ 0 := by
  have hgap := leftover_of_gap places past (total - past) fun place hmem => .inl (h place hmem)
  rw [Nat.add_sub_of_le hle] at hgap
  rw [hgap]
  exact iterate_shift_ne_zero _ hne

theorem parity_leftover (places : Finset Nat) (total : Nat) :
    parity (leftover places total) 16 = decide (Nat.count (· ∈ places) total % 2 = 1) := by
  induction total with
  | zero =>
      rw [leftover, Nat.count_zero]
      decide
  | succ total ih =>
      have hone : parity 1 16 = true := by decide
      have hzero : parity 0 16 = false := by decide
      -- Only a flipped bit changes the parity, as a bit time keeps it.
      rw [leftover, parity_shift, parity_xor, ih, Nat.count_succ]
      by_cases hplace : total ∈ places
      · rw [if_pos hplace, if_pos hplace, hone]
        by_cases hodd : Nat.count (· ∈ places) total % 2 = 1
        · rw [decide_eq_true hodd, decide_eq_false (by omega)]
          rfl
        · rw [decide_eq_false hodd, decide_eq_true (by omega)]
          rfl
      · rw [if_neg hplace, if_neg hplace, hzero, Bool.xor_false, Nat.add_zero]

theorem count_eq_card {places : Finset Nat} {total : Nat} (h : ∀ place ∈ places, place < total) :
    Nat.count (· ∈ places) total = places.card := by
  rw [Nat.count_eq_card_filter_range]
  congr 1
  ext place
  rw [Finset.mem_filter, Finset.mem_range]
  exact ⟨fun hmem => hmem.2, fun hmem => ⟨h place hmem, hmem⟩⟩

/-- An odd number of flipped bits leaves odd parity, and an empty register has
    none. -/
theorem leftover_of_odd {places : Finset Nat} {total : Nat} (h : ∀ place ∈ places, place < total)
    (hodd : Odd places.card) : leftover places total ≠ 0 := by
  intro hzero
  have hparity := parity_leftover places total
  rw [hzero, count_eq_card h, decide_eq_true (Nat.odd_iff.mp hodd)] at hparity
  exact absurd hparity (by decide)

theorem leftover_of_near {places : Finset Nat} {total start : Nat}
    (h : ∀ place ∈ places, place < total) (hsome : places.Nonempty)
    (hnear : ∀ place ∈ places, start ≤ place ∧ place < start + 16) :
    leftover places total ≠ 0 := by
  rcases hsome with ⟨place, hmem⟩
  have hplace := hnear place hmem
  have htotal := h place hmem
  -- The piece ends with the frame, if that comes before the sixteen bits are over.
  have hcount : min 16 (total - start) ≤ 16 := Nat.min_le_left _ _
  have hwindow : window places start (min 16 (total - start)) ≠ 0 := by
    intro hzero
    have hbit := bit_window places start hcount (place - start)
    rw [hzero, bit_zero, Nat.add_sub_of_le hplace.1] at hbit
    exact of_decide_eq_false hbit.symm ⟨by omega, hmem⟩
  have hempty : leftover places start = 0 := leftover_of_before fun other hother =>
    (hnear other hother).1
  refine leftover_ne_zero_of_past (start + min 16 (total - start)) (by omega) ?_ ?_
  · intro other hother
    have hother' := hnear other hother
    have hbound := h other hother
    omega
  · rw [leftover_add places start hcount, hempty, UInt16.zero_xor]
    exact iterate_shift_ne_zero _ hwindow

/-- Two flipped bits within the longest frame. -/
theorem leftover_of_pair {first second total : Nat} (hlt : first < second)
    (hlast : second < total) (hlong : total ≤ 2072) :
    leftover {first, second} total ≠ 0 := by
  have hmem : ∀ place ∈ ({first, second} : Finset Nat), place = first ∨ place = second := by
    intro place hplace
    rwa [Finset.mem_insert, Finset.mem_singleton] at hplace
  have hfirst : first ∈ ({first, second} : Finset Nat) := Finset.mem_insert_self _ _
  have hsecond : second ∈ ({first, second} : Finset Nat) :=
    Finset.mem_insert_of_mem (Finset.mem_singleton_self _)
  have hempty : leftover {first, second} first = 0 := leftover_of_before fun place hplace => by
    rcases hmem place hplace with rfl | rfl <;> omega
  -- Between the two bits the register only shifts the one that the first has set.
  have hbetween : leftover {first, second} second = shift^[second - first] 1 := by
    have hgap := leftover_of_gap {first, second} (first + 1) (second - first - 1)
      fun place hplace => by
        rcases hmem place hplace with rfl | rfl <;> omega
    have hcount : first + 1 + (second - first - 1) = second := by omega
    have htimes : (second - first - 1).succ = second - first := by omega
    rw [hcount, leftover, hempty, if_pos hfirst, UInt16.zero_xor, ← Function.iterate_succ_apply,
      htimes] at hgap
    exact hgap
  refine leftover_ne_zero_of_past (second + 1) (by omega) ?_ ?_
  · intro place hplace
    rcases hmem place hplace with rfl | rfl <;> omega
  · rw [leftover, hbetween, if_pos hsecond]
    intro hzero
    exact iterate_shift_one_ne (by omega) (by omega)
      (UInt16.xor_eq_zero_iff.mp (eq_zero_of_shift hzero))

/-! ## Corrupted frames -/

/-- A corruption that leaves something is seen. -/
theorem Frame.decode_flipped_of_leftover {frame : Frame} {places : Finset Nat}
    (hpayload : frame.payload ≠ [])
    (h : leftover places (8 * frame.encodedLength) ≠ 0) :
    decode (flipped frame.toBytes places) = .error .checksumMismatch := by
  have hpos : 0 < frame.payload.length := List.length_pos_iff.mpr hpayload
  have hmax := frame.encodedLength_le
  have hlength : (flipped frame.toBytes places).length = frame.encodedLength := by
    rw [length_flipped, length_toBytes]
  have hmin : 5 ≤ frame.encodedLength := by
    rw [encodedLength]
    omega
  -- Without the corruption nothing would be left.
  have hsent : run seed frame.toBytes = 0 := by
    have hchecked : IsChecked frame.toBytes := ⟨frame.body, rfl⟩
    exact (isChecked_iff_run (by rw [length_toBytes]; omega)).mp hchecked
  refine decode_of_unchecked (by rw [hlength]; exact hmin) (by rw [hlength]; exact hmax) ?_
  rw [isChecked_iff_run (by rw [hlength]; omega), run_flipped, hsent, UInt16.zero_xor,
    length_toBytes]
  exact h

/-- Corruptions that the check sees, anywhere in a frame with a payload. Flip
    any of the bits of its encoding, those of the check included. If these are
    one or two, or an odd number, or lie within sixteen bits that follow each
    other on the wire, the check does not fit any more. -/
theorem Frame.decode_flipped (frame : Frame) (places : Finset Nat) (hpayload : frame.payload ≠ [])
    (hrange : ∀ place ∈ places, place < 8 * (frame.payload.length + 4))
    (hsome : places.Nonempty)
    (hkind : places.card = 1 ∨ places.card = 2 ∨ Odd places.card ∨
      ∃ start, ∀ place ∈ places, start ≤ place ∧ place < start + 16) :
    ∃ sent, frame.encode = .ok sent ∧ sent.length = frame.payload.length + 4 ∧
      (flipped sent places).length = sent.length ∧
      (∀ place, place < 8 * sent.length → wireBit (flipped sent places) place
        = (wireBit sent place ^^ decide (place ∈ places))) ∧
      decode (flipped sent places) = .error .checksumMismatch := by
  have hencoded : frame.encodedLength = frame.payload.length + 4 := by
    rw [encodedLength]
    omega
  rw [← hencoded] at hrange ⊢
  refine ⟨frame.toBytes, encode_eq_ok frame, length_toBytes frame, length_flipped _ _,
    fun place hplace => wireBit_flipped places hplace, decode_flipped_of_leftover hpayload ?_⟩
  rcases hkind with hone | htwo | hodd | ⟨start, hnear⟩
  · exact leftover_of_odd hrange (by rw [hone]; exact odd_one)
  · rcases Finset.card_eq_two.mp htwo with ⟨a, b, hne, rfl⟩
    have hlong : 8 * frame.encodedLength ≤ 2072 := by
      have hmax := frame.encodedLength_le
      rw [maxLength, maxPayload] at hmax
      omega
    have ha := hrange a (Finset.mem_insert_self _ _)
    have hb := hrange b (Finset.mem_insert_of_mem (Finset.mem_singleton_self _))
    -- Which of the two comes first on the wire is not said.
    rcases Nat.lt_or_gt_of_ne hne with hlt | hgt
    · exact leftover_of_pair hlt hb hlong
    · rw [Finset.pair_comm]
      exact leftover_of_pair hgt ha hlong
  · exact leftover_of_odd hrange hodd
  · exact leftover_of_near hrange hsome hnear

/-- A bit of the address and one of the check are flipped in an exception. -/
theorem Frame.decode_flipped_exception :
    let frame : Frame := ⟨Address.drive, Function.pollException, [0x02], by decide⟩
    let places : Finset Nat := {1, 36}
    places.card = 2 ∧ (∀ place ∈ places, place < 8 * (frame.payload.length + 4)) ∧
      ∃ sent, frame.encode = .ok sent ∧
        decode (flipped sent places) = .error .checksumMismatch := by
  intro frame places
  have hcard : places.card = 2 := by decide
  have hrange : ∀ place ∈ places, place < 8 * (frame.payload.length + 4) := by decide
  rcases decode_flipped frame places (List.cons_ne_nil _ _) hrange ⟨1, by decide⟩
    (.inr (.inl hcard)) with ⟨sent, hsent, _, _, _, hdecode⟩
  exact ⟨hcard, hrange, sent, hsent, hdecode⟩

end DoorBus
