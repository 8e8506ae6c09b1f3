import DoorBus.Proofs.Wire.Coverage

/-!
# Starts That Wait for More Bytes

What a run of bytes still has to wait for, said of the bytes alone.

A place where a frame may start is in one of three states. It can be
impossible, or complete, if there are as many bytes as the header announces,
or else it is unfinished. Bytes that arrive move it in one direction only. An
unfinished start may become complete or impossible, and these two are for
good. It becomes complete with the very byte that fills its frame, because a
header is never the whole of a frame.

`waiting` is what these bytes come down to for a receiver that keeps nothing
but what may still be completed: the longest end of them that is unfinished.
It can be computed from itself and the new bytes, so what stands in front of it
may be forgotten.

## Main definitions

* `Unfinished`: The frame that starts here lacks bytes, or part of its header.
* `Complete`: The frame that starts here has all its bytes.
* `waiting`: The longest unfinished end of some bytes.

## Theorems

* `unfinished_iff`: A possible start is unfinished or complete.
* `Unfinished.front`, `Complete.append`: What more bytes do to a start.
* `complete_concat`: A frame is complete with the byte that fills it.
* `length_behind_header`: What is left when a header turns out impossible.
* `suffix_waiting`: No unfinished end is longer.
* `waiting_append`: What waits is found from what waited before.
-/

namespace DoorBus

/-- A frame may start here, and it is not known to have all its bytes: the part
    of the header that gives the length is missing, or the length is larger. -/
def Unfinished (start : List UInt8) : Prop :=
  extent start = .incomplete ∨ ∃ length, extent start = .known length ∧ start.length < length

/-- The frame that starts here has all its bytes. -/
def Complete (start : List UInt8) : Prop :=
  ∃ length, extent start = .known length ∧ length ≤ start.length

theorem unfinished_nil : Unfinished [] := .inl rfl

/-- A start is one of three things: impossible, complete or unfinished. -/
theorem unfinished_iff (start : List UInt8) :
    Unfinished start ↔ extent start ≠ .impossible ∧ ¬ Complete start := by
  unfold Unfinished Complete
  cases extent start with
  | impossible =>
      simp only [reduceCtorEq, false_and, exists_false, or_self, ne_eq, not_true_eq_false]
  | incomplete =>
      simp only [true_or, reduceCtorEq, ne_eq, not_false_eq_true, false_and, exists_false, and_self]
  | known length =>
      simp only [reduceCtorEq, Extent.known.injEq, exists_eq_left', false_or, ne_eq,
        not_false_eq_true, true_and, Nat.not_le]

instance (start : List UInt8) : Decidable (Complete start) :=
  match h : extent start with
  | .impossible => isFalse fun ⟨_, hknown, _⟩ => Extent.noConfusion (h.symm.trans hknown)
  | .incomplete => isFalse fun ⟨_, hknown, _⟩ => Extent.noConfusion (h.symm.trans hknown)
  | .known length =>
    decidable_of_iff (length ≤ start.length)
      ⟨fun hle => ⟨length, h, hle⟩, fun ⟨_, hknown, hle⟩ =>
        Extent.known.inj (h.symm.trans hknown) ▸ hle⟩

instance (start : List UInt8) : Decidable (Unfinished start) :=
  decidable_of_iff _ (unfinished_iff start).symm

/-! ## More bytes -/

/-- What lacks bytes lacked some before. -/
theorem Unfinished.front {xs ys : List UInt8} (h : Unfinished (xs ++ ys)) : Unfinished xs := by
  by_cases hopen : extent xs = .incomplete
  · exact .inl hopen
  rw [Unfinished, extent_append xs ys hopen] at h
  rcases h with hincomplete | ⟨length, hknown, hlt⟩
  · exact absurd hincomplete hopen
  · rw [List.length_append] at hlt
    exact .inr ⟨length, hknown, by omega⟩

/-- What is complete has its length settled, and stays complete with more bytes. -/
theorem Complete.append {xs : List UInt8} (h : Complete xs) (ys : List UInt8) :
    Complete (xs ++ ys) := by
  rcases h with ⟨length, hknown, hle⟩
  refine ⟨length, ?_, ?_⟩
  · rw [extent_append xs ys (by rw [hknown]; exact Extent.noConfusion), hknown]
  · rw [List.length_append]
    omega

theorem Complete.minLength_le {start : List UInt8} (h : Complete start) :
    Frame.minLength ≤ start.length := by
  rcases h with ⟨length, hknown, hle⟩
  exact Nat.le_trans (le_of_extent_known hknown).1 hle

/-- A length is open only if the byte that counts is missing. -/
theorem Extent.eq_none_of_ofCount {fixed : Nat} {count : Option UInt8}
    (h : ofCount fixed count = .incomplete) : count = none := by
  cases count with
  | none => rfl
  | some count =>
      rw [ofCount, ofLength] at h
      by_cases hlong : Frame.maxLength < fixed + count.toNat
      · rw [if_pos hlong] at h
        exact absurd h Extent.noConfusion
      · rw [if_neg hlong] at h
        exact absurd h Extent.noConfusion

/-- Which headers can lack bytes behind the function: that of a broadcast has
    at most four of the five there, and that of an answer none. -/
theorem header_of_incomplete {address function : UInt8} {rest : List UInt8}
    (h : extentOf address function rest = .incomplete) :
    (address = Address.broadcast ∧ function = Function.writeBlock ∧ rest.length ≤ 4) ∨
      (address = Address.drive ∧ function = Function.readWriteBlock ∧ rest = []) := by
  unfold extentOf at h
  by_cases hbroadcast : address = Address.broadcast ∧ function = Function.writeBlock
  · rw [if_pos hbroadcast] at h
    have hnone := Extent.eq_none_of_ofCount h
    exact .inl ⟨hbroadcast.1, hbroadcast.2, List.getElem?_eq_none_iff.mp hnone⟩
  rw [if_neg hbroadcast] at h
  by_cases hanswer : address = Address.drive ∧ function = Function.readWriteBlock
  · rw [if_pos hanswer] at h
    have hnone := Extent.eq_none_of_ofCount h
    exact .inr ⟨hanswer.1, hanswer.2,
      List.length_eq_zero_iff.mp (Nat.le_zero.mp (List.getElem?_eq_none_iff.mp hnone))⟩
  rw [if_neg hanswer] at h
  -- An exception has no byte count, and anything else is impossible at once.
  by_cases hexception : address = Address.drive ∧ function = Function.pollException
  · rw [if_pos hexception] at h
    exact absurd h (by decide)
  · rw [if_neg hexception] at h
    exact absurd h Extent.noConfusion

/-- A header is never the whole of a frame. More than one byte is missing where
    it ends. -/
theorem length_lt_of_incomplete {xs ys : List UInt8} {length : Nat}
    (h : extent xs = .incomplete) (hknown : extent (xs ++ ys) = .known length) :
    xs.length + 1 < length := by
  have hmin := (le_of_extent_known hknown).1
  rw [Frame.minLength] at hmin
  rcases xs with _ | ⟨address, _ | ⟨function, rest⟩⟩
  · rw [List.length_nil]
    omega
  · rw [List.length_singleton]
    omega
  · rw [List.length_cons, List.length_cons]
    rcases header_of_incomplete h with ⟨haddress, hfunction, hshort⟩ | ⟨_, _, rfl⟩
    -- The fixed part of a broadcast is nine bytes, of which six can be there.
    · rw [List.cons_append, List.cons_append, extent, extentOf,
        if_pos ⟨haddress, hfunction⟩] at hknown
      have hfixed := (Extent.le_of_ofCount_known hknown).1
      omega
    · rw [List.length_nil]
      omega

/-- A frame is complete with the byte that fills it, unless it was so before. -/
theorem complete_concat {start : List UInt8} {byte : UInt8} (h : Complete (start ++ [byte])) :
    Complete start ∨ extent (start ++ [byte]) = .known (start ++ [byte]).length := by
  rcases h with ⟨length, hknown, hle⟩
  rw [List.length_append, List.length_singleton] at hle ⊢
  by_cases hopen : extent start = .incomplete
  · have hlt := length_lt_of_incomplete hopen hknown
    omega
  · rw [extent_append start [byte] hopen] at hknown ⊢
    by_cases hbefore : length ≤ start.length
    · exact .inl ⟨length, hknown, hbefore⟩
    · have hnow : length = start.length + 1 := by omega
      exact .inr (by rw [hknown, hnow])

/-- An unfinished start fits into the longest frame, with a byte to spare. -/
theorem Unfinished.length_lt {start : List UInt8} (h : Unfinished start) :
    start.length < Frame.maxLength := by
  rcases h with hincomplete | ⟨length, hknown, hlt⟩
  · rw [Frame.maxLength, Frame.maxPayload]
    rcases start with _ | ⟨address, _ | ⟨function, rest⟩⟩
    · rw [List.length_nil]
      omega
    · rw [List.length_singleton]
      omega
    · rw [List.length_cons, List.length_cons]
      rcases header_of_incomplete hincomplete with ⟨_, _, hshort⟩ | ⟨_, _, rfl⟩
      · omega
      · rw [List.length_nil]
        omega
  · exact Nat.lt_of_lt_of_le hlt (le_of_extent_known hknown).2

/-! ## Impossible starts -/

namespace Receiver

/-- What is left after dropping may start a frame, or is nothing. -/
theorem extent_dropImpossible (bytes : List UInt8) :
    extent (dropImpossible bytes) ≠ .impossible := by
  induction bytes with
  | nil => exact Extent.noConfusion
  | cons byte rest ih =>
      by_cases h : extent (byte :: rest) = .impossible
      · rw [dropImpossible_of_impossible h]
        exact ih
      · rw [dropImpossible_of_possible h]
        exact h

/-- If a header turns out impossible with its last byte, what is left behind it
    is no longer than the shortest frame. -/
theorem length_behind_header {start : List UInt8} {byte : UInt8}
    (h : extent start = .incomplete) (himpossible : extent (start ++ [byte]) = .impossible) :
    (dropImpossible (start ++ [byte])).length ≤ Frame.minLength := by
  have hwhole := (covers_dropImpossible (start ++ [byte])).isSuffix.length_le
  rw [List.length_append, List.length_singleton] at hwhole
  rw [Frame.minLength]
  rcases start with _ | ⟨address, _ | ⟨function, rest⟩⟩
  · rw [List.length_nil] at hwhole
    omega
  · rw [List.length_singleton] at hwhole
    omega
  · rcases header_of_incomplete h with ⟨_, rfl, hshort⟩ | ⟨_, _, rfl⟩
    · -- The function of a broadcast is no address, so two bytes are dropped at least.
      have hfunction : extent (Function.writeBlock :: (rest ++ [byte])) = .impossible := by
        cases rest ++ [byte] with
        | nil => decide
        | cons next others => exact extentOf_eq_impossible _ next others (by decide)
      rw [dropImpossible_of_impossible himpossible, List.cons_append, List.cons_append,
        List.tail_cons, dropImpossible_of_impossible hfunction, List.tail_cons]
      have hle := (covers_dropImpossible (rest ++ [byte])).isSuffix.length_le
      rw [List.length_append, List.length_singleton] at hle
      omega
    · rw [List.length_cons, List.length_cons, List.length_nil] at hwhole
      omega

end Receiver

/-! ## What waits -/

/-- The longest end of some bytes that is unfinished. -/
def waiting : List UInt8 → List UInt8
  | [] => []
  | byte :: rest => if Unfinished (byte :: rest) then byte :: rest else waiting rest

theorem waiting_of_unfinished {bytes : List UInt8} (h : Unfinished bytes) :
    waiting bytes = bytes := by
  cases bytes with
  | nil => rfl
  | cons byte rest => rw [waiting, if_pos h]

theorem waiting_of_finished {bytes : List UInt8} (h : ¬ Unfinished bytes) :
    waiting bytes = waiting bytes.tail := by
  cases bytes with
  | nil => rfl
  | cons byte rest => rw [waiting, if_neg h, List.tail_cons]

/-- What waits is unfinished, and at worst it is nothing. -/
theorem unfinished_waiting (bytes : List UInt8) : Unfinished (waiting bytes) := by
  induction bytes with
  | nil => exact unfinished_nil
  | cons byte rest ih =>
      by_cases h : Unfinished (byte :: rest)
      · rw [waiting_of_unfinished h]
        exact h
      · rw [waiting_of_finished h]
        exact ih

/-- What waits is the end of the bytes. -/
theorem waiting_suffix (bytes : List UInt8) : waiting bytes <:+ bytes := by
  induction bytes with
  | nil => exact List.suffix_refl _
  | cons byte rest ih =>
      by_cases h : Unfinished (byte :: rest)
      · exact ⟨[], by rw [List.nil_append, waiting_of_unfinished h]⟩
      · rw [waiting_of_finished h]
        exact ih.trans (List.suffix_cons byte rest)

/-- No unfinished end is longer. -/
theorem suffix_waiting {start bytes : List UInt8} (hstart : start <:+ bytes)
    (h : Unfinished start) : start <:+ waiting bytes := by
  induction bytes with
  | nil => exact hstart
  | cons byte rest ih =>
      by_cases hwhole : Unfinished (byte :: rest)
      · rw [waiting_of_unfinished hwhole]
        exact hstart
      · rw [waiting_of_finished hwhole]
        rcases List.suffix_cons_iff.mp hstart with rfl | hrest
        · exact absurd h hwhole
        · exact ih hrest

/-- What stands in front of the waiting bytes never matters again. -/
theorem waiting_append (xs ys : List UInt8) : waiting (waiting xs ++ ys) = waiting (xs ++ ys) := by
  induction xs with
  | nil => rfl
  | cons byte rest ih =>
      by_cases h : Unfinished (byte :: rest)
      · rw [waiting_of_unfinished h]
      · have hmore : ¬ Unfinished (byte :: rest ++ ys) := fun hunfinished => h hunfinished.front
        rw [waiting_of_finished h, List.tail_cons, ih, waiting_of_finished hmore, List.cons_append,
          List.tail_cons]

/-- Bytes that start no frame were not waiting for anything. -/
theorem waiting_dropImpossible (bytes : List UInt8) :
    waiting (Receiver.dropImpossible bytes) = waiting bytes := by
  induction bytes with
  | nil => rfl
  | cons byte rest ih =>
      by_cases h : extent (byte :: rest) = .impossible
      · have hfinished : ¬ Unfinished (byte :: rest) := fun hunfinished =>
          ((unfinished_iff _).mp hunfinished).1 h
        rw [Receiver.dropImpossible_of_impossible h, waiting_of_finished hfinished, List.tail_cons,
          ih]
      · rw [Receiver.dropImpossible_of_possible h]

end DoorBus
