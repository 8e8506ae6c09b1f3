import DoorBus.Wire.Extent

/-!
# What a Header Settles

The extent of a run of bytes is read off its first few bytes. Once these are
there the extent stays what it is, however many bytes follow: a start that is
impossible stays impossible, and a frame that takes a given number of bytes
takes that number for good. Only an incomplete header can still turn into
anything.

This is what allows a receiver to forget bytes. A start whose extent is
settled, and which is not that of a frame, will never be one.

## Theorems

* `extent_append`: A settled extent stays the same under more bytes.
* `le_of_extent_known`: A frame that can be received is neither too short nor
  too long to be read.
-/

namespace DoorBus

/-- A byte count that is there stays where it is. -/
theorem Extent.ofCount_append (fixed index : Nat) (xs ys : List UInt8)
    (h : ofCount fixed xs[index]? ≠ incomplete) :
    ofCount fixed (xs ++ ys)[index]? = ofCount fixed xs[index]? := by
  rcases Nat.lt_or_ge index xs.length with hlt | hge
  · rw [List.getElem?_append_left hlt]
  · rw [List.getElem?_eq_none hge] at h
    exact absurd rfl h

theorem extentOf_append (address function : UInt8) (xs ys : List UInt8)
    (h : extentOf address function xs ≠ .incomplete) :
    extentOf address function (xs ++ ys) = extentOf address function xs := by
  unfold extentOf at h ⊢
  by_cases hbroadcast : address = Address.broadcast ∧ function = Function.writeBlock
  · rw [if_pos hbroadcast] at h
    rw [if_pos hbroadcast, if_pos hbroadcast]
    exact Extent.ofCount_append 9 4 xs ys h
  rw [if_neg hbroadcast] at h
  rw [if_neg hbroadcast, if_neg hbroadcast]
  by_cases hanswer : address = Address.drive ∧ function = Function.readWriteBlock
  · rw [if_pos hanswer] at h
    rw [if_pos hanswer, if_pos hanswer]
    exact Extent.ofCount_append 5 0 xs ys h
  · -- Neither of the other two kinds looks at the bytes behind the function.
    rw [if_neg hanswer, if_neg hanswer]

/-- An address that starts no frame starts none with any function either. -/
theorem extentOf_eq_impossible (address function : UInt8) (rest : List UInt8)
    (h : ¬ (address = Address.broadcast ∨ address = Address.drive)) :
    extentOf address function rest = .impossible := by
  rw [not_or] at h
  rw [extentOf, if_neg (fun hc => h.1 hc.1), if_neg (fun hc => h.2 hc.1),
    if_neg (fun hc => h.2 hc.1)]

theorem extent_append (xs ys : List UInt8) (h : extent xs ≠ .incomplete) :
    extent (xs ++ ys) = extent xs := by
  -- The cases are those of `extent`: no byte, the address alone, and the rest.
  match xs, ys with
  | [], _ => exact absurd rfl h
  | [_], [] => rfl
  | [address], function :: rest =>
      by_cases haddress : address = Address.broadcast ∨ address = Address.drive
      · rw [extent, if_pos haddress] at h
        exact absurd rfl h
      · -- The address alone rules a frame out, and the function does not change that.
        rw [List.singleton_append, extent, extent, if_neg haddress]
        exact extentOf_eq_impossible address function rest haddress
  | address :: function :: rest, ys =>
      exact extentOf_append address function rest ys h

/-- A length beyond the longest frame is never announced. -/
theorem Extent.le_of_ofLength_known {length n : Nat} (h : ofLength length = .known n) :
    n = length ∧ n ≤ Frame.maxLength := by
  unfold ofLength at h
  by_cases hlong : Frame.maxLength < length
  · rw [if_pos hlong] at h
    exact absurd h Extent.noConfusion
  · rw [if_neg hlong, Extent.known.injEq] at h
    omega

/-- A counted length has the fixed part in it. -/
theorem Extent.le_of_ofCount_known {fixed n : Nat} {count : Option UInt8}
    (h : ofCount fixed count = .known n) : fixed ≤ n ∧ n ≤ Frame.maxLength := by
  cases count with
  | none => exact absurd h Extent.noConfusion
  | some count =>
      have hle := le_of_ofLength_known h
      omega

/-- A frame that can be received is neither too short nor too long to be
    read. -/
theorem le_of_extent_known {bytes : List UInt8} {n : Nat} (h : extent bytes = .known n) :
    Frame.minLength ≤ n ∧ n ≤ Frame.maxLength := by
  match bytes with
  | [] => exact absurd h Extent.noConfusion
  | [address] =>
      by_cases haddress : address = Address.broadcast ∨ address = Address.drive
      · rw [extent, if_pos haddress] at h
        exact absurd h Extent.noConfusion
      · rw [extent, if_neg haddress] at h
        exact absurd h Extent.noConfusion
  | address :: function :: rest =>
      rw [extent, extentOf] at h
      rw [Frame.minLength]
      -- Every kind of frame has a fixed part that is long enough by itself.
      by_cases hbroadcast : address = Address.broadcast ∧ function = Function.writeBlock
      · rw [if_pos hbroadcast] at h
        have hle := Extent.le_of_ofCount_known h
        omega
      rw [if_neg hbroadcast] at h
      by_cases hanswer : address = Address.drive ∧ function = Function.readWriteBlock
      · rw [if_pos hanswer] at h
        exact Extent.le_of_ofCount_known h
      rw [if_neg hanswer] at h
      by_cases hexception : address = Address.drive ∧ function = Function.pollException
      · rw [if_pos hexception] at h
        have hle := Extent.le_of_ofLength_known h
        omega
      · rw [if_neg hexception] at h
        exact absurd h Extent.noConfusion

end DoorBus
