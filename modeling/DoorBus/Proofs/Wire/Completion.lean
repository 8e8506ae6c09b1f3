import DoorBus.Proofs.Wire.Codec
import DoorBus.Proofs.Wire.Header
import DoorBus.Wire.Receiver

/-!
# Completing Frames

When the bytes heard so far complete a frame, said of the bytes alone.

`Receiver.completed?` walks over the places where a frame may start, from the
oldest byte on, and takes the first that works. Said without the walk, it
looks among the suffixes of the bytes for those that are filled by a frame,
and takes the longest. `completed?_eq_some_iff` is that reading, and the rest
of the theory of the receiver only uses it.

`Spent` is the other half. A run of bytes is spent if it is not the beginning
of a frame, and never will be. There are three ways to be spent, one for each
place where the receiver gives up bytes: an impossible header, a frame that
came out wrong, and more bytes than any frame has.

## Main definitions

* `Fills`: A frame fills a run of bytes exactly.
* `Spent`: No frame starts with these bytes.
* `Receiver.Longest`: The frame that fills the longest suffix.

## Theorems

* `Fills.toBytes_eq`: A frame that fills some bytes encodes to them.
* `fills_toBytes`: A frame with the extent of its bytes fills them.
* `spent_append`: Spent bytes stay spent.
* `spent_of_impossible`, `spent_of_failed`, `spent_of_long`: Ways to be
  spent.
* `completed?_eq_none_iff`: Nothing is completed if no suffix is a frame.
* `completed?_eq_some_iff`: What is completed is the longest suffix.
* `exists_longest_iff`: There is a longest one as soon as there is any.
-/

namespace DoorBus

/-- The header announces as many bytes as there are, and they are read as this
    frame. -/
def Fills (bytes : List UInt8) (frame : Frame) : Prop :=
  extent bytes = .known bytes.length ∧ Frame.decode bytes = .ok frame

/-- No frame starts with these bytes, whatever follows them. -/
def Spent (start : List UInt8) : Prop :=
  ∀ (more : List UInt8) (frame : Frame), ¬ Fills (start ++ more) frame

/-- The bytes are those that the frame encodes to, as nothing is lost in
    decoding. -/
theorem Fills.toBytes_eq {bytes : List UInt8} {frame : Frame} (h : Fills bytes frame) :
    frame.toBytes = bytes :=
  Frame.toBytes_of_decode h.2

theorem Fills.unique {bytes : List UInt8} {frame other : Frame} (h : Fills bytes frame)
    (ho : Fills bytes other) : frame = other := by
  have heq := h.2.symm.trans ho.2
  rwa [Except.ok.injEq] at heq

theorem Fills.ne_nil {bytes : List UInt8} {frame : Frame} (h : Fills bytes frame) :
    bytes ≠ [] := by
  intro hnil
  rw [Fills, hnil] at h
  exact absurd h.1 Extent.noConfusion

/-- A frame whose bytes announce their own number is read back from them. It
    has a payload, or the number would be too small. -/
theorem fills_toBytes {frame : Frame}
    (h : extent frame.toBytes = .known frame.toBytes.length) : Fills frame.toBytes frame := by
  refine ⟨h, Frame.decode_toBytes frame (fun hnil => ?_)⟩
  have hmin := (le_of_extent_known h).1
  rw [Frame.length_toBytes, Frame.encodedLength, hnil, Frame.minLength, List.length_nil] at hmin
  omega

/-! ## Bytes that are spent -/

/-- What starts no frame starts none with more bytes behind it. -/
theorem spent_append {start : List UInt8} (h : Spent start) (more : List UInt8) :
    Spent (start ++ more) := by
  intro further frame hfills
  rw [List.append_assoc] at hfills
  exact h (more ++ further) frame hfills

/-- An impossible header is settled, and more bytes do not change it. -/
theorem spent_of_impossible {start : List UInt8} (h : extent start = .impossible) :
    Spent start := by
  intro more frame hfills
  have hsettled : extent (start ++ more) = extent start :=
    extent_append start more (by rw [h]; exact Extent.noConfusion)
  rw [Fills, hsettled, h] at hfills
  exact absurd hfills.1 Extent.noConfusion

/-- A frame that has all its bytes and cannot be read is not helped by
    more. -/
theorem spent_of_failed {start : List UInt8} (h : extent start = .known start.length)
    (hfailed : ∀ frame, ¬ Fills start frame) : Spent start := by
  intro more frame hfills
  have hsettled : extent (start ++ more) = extent start :=
    extent_append start more (by rw [h]; exact Extent.noConfusion)
  -- The frame has its length already, so nothing can have been added.
  have hlen := hfills.1
  rw [hsettled, h, Extent.known.injEq, List.length_append] at hlen
  have hnil : more = [] := List.length_eq_zero_iff.mp (by omega)
  rw [hnil, List.append_nil] at hfills
  exact hfailed frame hfills

/-- More bytes than the longest frame has are not the start of any. -/
theorem spent_of_long {start : List UInt8} (h : Frame.maxLength < start.length) :
    Spent start := by
  intro more frame hfills
  have hle := (le_of_extent_known hfills.1).2
  rw [List.length_append] at hle
  omega

theorem Spent.not_fills {start : List UInt8} (h : Spent start) (frame : Frame) :
    ¬ Fills start frame := by
  intro hfills
  exact h [] frame (by rwa [List.append_nil])

namespace Receiver

/-! ## The search for a frame -/

/-- The search asks of each end of the bytes whether a frame fills it. -/
theorem whole?_eq_some_iff (bytes : List UInt8) (frame : Frame) :
    whole? bytes = some frame ↔ Fills bytes frame := by
  unfold whole? Fills
  cases hextent : extent bytes with
  | impossible => simp only [reduceCtorEq, false_and]
  | incomplete => simp only [reduceCtorEq, false_and]
  | known n =>
      simp only [Extent.known.injEq]
      by_cases hn : n = bytes.length
      · rw [if_pos hn]
        cases hdecode : Frame.decode bytes with
        | error e => simp only [Except.toOption, reduceCtorEq, and_false]
        | ok g => simp only [Except.toOption, Option.some.injEq, Except.ok.injEq, hn, true_and]
      · rw [if_neg hn]
        simp only [reduceCtorEq, hn, false_and]

theorem whole?_eq_none_iff (bytes : List UInt8) :
    whole? bytes = none ↔ ∀ frame, ¬ Fills bytes frame := by
  rw [Option.eq_none_iff_forall_ne_some]
  exact forall_congr' fun frame => not_congr (whole?_eq_some_iff bytes frame)

/-- The frame that fills the longest suffix that any frame fills. -/
def Longest (bytes : List UInt8) (frame : Frame) : Prop :=
  ∃ suffix, suffix <:+ bytes ∧ Fills suffix frame ∧
    ∀ other g, other <:+ bytes → Fills other g → other.length ≤ suffix.length

theorem completed?_of_whole {byte : UInt8} {rest : List UInt8} {frame : Frame}
    (h : whole? (byte :: rest) = some frame) : completed? (byte :: rest) = some frame := by
  rw [completed?, h]
  rfl

theorem completed?_of_not_whole {byte : UInt8} {rest : List UInt8}
    (h : whole? (byte :: rest) = none) : completed? (byte :: rest) = completed? rest := by
  rw [completed?, h]
  rfl

/-- By induction on the bytes, with their first one given up at each step. -/
theorem completed?_eq_none_iff (bytes : List UInt8) :
    completed? bytes = none ↔ ∀ suffix frame, suffix <:+ bytes → ¬ Fills suffix frame := by
  induction bytes with
  | nil =>
      refine ⟨fun _ suffix frame hsuffix hfills => ?_, fun _ => rfl⟩
      exact hfills.ne_nil (List.suffix_nil.mp hsuffix)
  | cons byte rest ih =>
      constructor
      · intro h suffix frame hsuffix
        -- A suffix is the whole run, or one of its rest, which is searched next.
        cases hwhole : whole? (byte :: rest) with
        | some g =>
            rw [completed?_of_whole hwhole] at h
            exact absurd h (by simp only [reduceCtorEq, not_false_eq_true])
        | none =>
            rw [completed?_of_not_whole hwhole] at h
            rcases List.suffix_cons_iff.mp hsuffix with heq | hrest
            · rw [heq]
              exact (whole?_eq_none_iff _).mp hwhole frame
            · exact ih.mp h suffix frame hrest
      · intro h
        have hwhole : whole? (byte :: rest) = none :=
          (whole?_eq_none_iff _).mpr fun frame => h _ frame (List.suffix_refl _)
        rw [completed?_of_not_whole hwhole]
        exact ih.mpr fun suffix frame hsuffix =>
          h suffix frame (hsuffix.trans (List.suffix_cons byte rest))

/-- The search begins with the longest end, so the first frame that it meets is
    the longest. -/
theorem longest_of_completed? {bytes : List UInt8} {frame : Frame}
    (h : completed? bytes = some frame) : Longest bytes frame := by
  induction bytes with
  | nil => exact absurd h (by simp only [completed?, reduceCtorEq, not_false_eq_true])
  | cons byte rest ih =>
      cases hwhole : whole? (byte :: rest) with
      | some g =>
          rw [completed?_of_whole hwhole, Option.some.injEq] at h
          rw [h] at hwhole
          exact ⟨byte :: rest, List.suffix_refl _, (whole?_eq_some_iff _ _).mp hwhole,
            fun _ _ hother _ => hother.length_le⟩
      | none =>
          -- No frame fills the whole run, so the longest one of the rest is the longest.
          rw [completed?_of_not_whole hwhole] at h
          rcases ih h with ⟨suffix, hsuffix, hfills, hlongest⟩
          refine ⟨suffix, hsuffix.trans (List.suffix_cons byte rest), hfills,
            fun other g hother hg => ?_⟩
          -- All the bytes together are no frame, so the other one starts later.
          rcases List.suffix_cons_iff.mp hother with heq | hrest
          · rw [heq] at hg
            exact absurd hg ((whole?_eq_none_iff _).mp hwhole g)
          · exact hlongest other g hrest hg

/-- Two ends of one length are the same end. -/
theorem Longest.unique {bytes : List UInt8} {frame other : Frame} (h : Longest bytes frame)
    (ho : Longest bytes other) : frame = other := by
  rcases h with ⟨s, hs, hfills, hlongest⟩
  rcases ho with ⟨t, ht, hofills, holongest⟩
  have hlen : s.length = t.length :=
    Nat.le_antisymm (holongest s frame hs hfills) (hlongest t other ht hofills)
  have heq : s = t := (List.suffix_of_suffix_length_le hs ht (by omega)).eq_of_length hlen
  rw [heq] at hfills
  exact hfills.unique hofills

/-- What is completed is the longest suffix. -/
theorem completed?_eq_some_iff (bytes : List UInt8) (frame : Frame) :
    completed? bytes = some frame ↔ Longest bytes frame := by
  refine ⟨longest_of_completed?, fun h => ?_⟩
  cases hcompleted : completed? bytes with
  | none =>
      rcases h with ⟨suffix, hsuffix, hfills, _⟩
      exact absurd hfills ((completed?_eq_none_iff bytes).mp hcompleted suffix frame hsuffix)
  | some g => rw [(longest_of_completed? hcompleted).unique h]

/-- There is a longest one as soon as there is any, as lengths are bounded by
    that of the bytes. -/
theorem exists_longest_iff (bytes : List UInt8) :
    (∃ frame, Longest bytes frame) ↔ ∃ suffix frame, suffix <:+ bytes ∧ Fills suffix frame := by
  constructor
  · rintro ⟨frame, suffix, hsuffix, hfills, _⟩
    exact ⟨suffix, frame, hsuffix, hfills⟩
  · rintro ⟨suffix, frame, hsuffix, hfills⟩
    cases hcompleted : completed? bytes with
    | none => exact absurd hfills ((completed?_eq_none_iff bytes).mp hcompleted _ _ hsuffix)
    | some found => exact ⟨found, longest_of_completed? hcompleted⟩

end Receiver

end DoorBus
