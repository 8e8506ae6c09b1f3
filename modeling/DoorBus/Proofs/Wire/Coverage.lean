import DoorBus.Proofs.Wire.Completion

/-!
# What the Receiver May Forget

The receiver keeps at most one frame's worth of bytes and gives up bytes in
three places. This module shows that it loses nothing by that: it answers as
if it had kept everything.

The bytes kept and the bytes heard are compared by `Covers`. Kept bytes cover
the heard ones if they are their end, and every start that was given up is
spent. Covering composes, so the three places are treated one at a time, each
against the bytes right before it, and `covers_feed` chains them. Since a
spent start is no frame, the longest frame among the bytes kept is the longest
one among all that was heard.

## Main definitions

* `Covers`: Bytes kept that may stand for all bytes heard.
* `Receiver.candidates`: The bytes among which a frame is looked for.

## Theorems

* `Covers.trans`: Covering composes.
* `Covers.append`: Covering goes on under more bytes.
* `Covers.longest_iff`: The bytes kept have the same longest frame.
* `covers_dropImpossible`, `covers_accept`, `covers_tail`: The three places
  where bytes are given up.
* `feed_cases`: All that a byte can lead to.
* `feed_returns_iff`: What a byte returns is the longest frame heard.
* `covers_feed`: A byte that returns nothing keeps the cover.
* `covers_feedAll`: The same for a run of bytes.
* `feedAll_finds_some`: A frame that ends with the last byte is not passed
  over.
-/

namespace DoorBus

/-- Bytes kept that may stand for all bytes heard: they are their end, and
    every start in front of them is spent. -/
structure Covers (kept heard : List UInt8) : Prop where
  isSuffix : kept <:+ heard
  spent : ∀ start, start <:+ heard → kept.length < start.length → Spent start

namespace Covers

theorem refl (bytes : List UInt8) : Covers bytes bytes where
  isSuffix := List.suffix_refl _
  spent _ hstart hlong := absurd hstart.length_le (Nat.not_le.mpr hlong)

/-- Starts may be given up in several places, one after the other. -/
theorem trans {kept middle heard : List UInt8} (h : Covers kept middle)
    (h' : Covers middle heard) : Covers kept heard where
  isSuffix := h.isSuffix.trans h'.isSuffix
  spent := by
    intro start hstart hlong
    rcases Nat.lt_or_ge middle.length start.length with hfront | hback
    · exact h'.spent start hstart hfront
    · -- A start that is no longer than the middle lies within it.
      exact h.spent start (List.suffix_of_suffix_length_le hstart h'.isSuffix hback) hlong

theorem append {kept heard : List UInt8} (h : Covers kept heard) (more : List UInt8) :
    Covers (kept ++ more) (heard ++ more) where
  isSuffix := List.suffix_append_self_iff.mpr h.isSuffix
  spent := by
    intro start hstart hlong
    rw [List.length_append] at hlong
    -- The start is longer than what was added, so it begins in front of it.
    have hmore : more <:+ start :=
      List.suffix_of_suffix_length_le (List.suffix_append heard more) hstart (by omega)
    rcases hmore with ⟨front, rfl⟩
    rw [List.length_append] at hlong
    exact spent_append
      (h.spent front (List.suffix_append_self_iff.mp hstart) (by omega)) more

/-- Bytes that are covered have no longest frame beside that of the bytes
    kept. -/
theorem longest_iff {kept heard : List UInt8} (h : Covers kept heard) (frame : Frame) :
    Receiver.Longest kept frame ↔ Receiver.Longest heard frame := by
  have hwithin : ∀ suffix g, suffix <:+ heard → Fills suffix g → suffix <:+ kept := by
    intro suffix g hsuffix hfills
    rcases Nat.lt_or_ge kept.length suffix.length with hfront | hback
    · exact absurd hfills ((h.spent suffix hsuffix hfront).not_fills g)
    · exact List.suffix_of_suffix_length_le hsuffix h.isSuffix hback
  -- So both sides choose among the same suffixes.
  constructor
  · rintro ⟨suffix, hsuffix, hfills, hlongest⟩
    exact ⟨suffix, hsuffix.trans h.isSuffix, hfills,
      fun other g hother hg => hlongest other g (hwithin other g hother hg) hg⟩
  · rintro ⟨suffix, hsuffix, hfills, hlongest⟩
    exact ⟨suffix, hwithin suffix frame hsuffix hfills, hfills,
      fun other g hother hg => hlongest other g (hother.trans h.isSuffix) hg⟩

end Covers

namespace Receiver

/-! ## The three places where bytes are given up -/

theorem dropImpossible_of_possible {bytes : List UInt8} (h : extent bytes ≠ .impossible) :
    dropImpossible bytes = bytes := by
  cases bytes with
  | nil => rfl
  | cons byte rest => rw [dropImpossible, if_neg h]

theorem dropImpossible_of_impossible {bytes : List UInt8} (h : extent bytes = .impossible) :
    dropImpossible bytes = dropImpossible bytes.tail := by
  cases bytes with
  | nil => rfl
  | cons byte rest => rw [dropImpossible, if_pos h, List.tail_cons]

/-- Bytes are dropped from the front while they start no frame. -/
theorem covers_dropImpossible (bytes : List UInt8) : Covers (dropImpossible bytes) bytes := by
  induction bytes with
  | nil => exact Covers.refl []
  | cons byte rest ih =>
      by_cases h : extent (byte :: rest) = .impossible
      · rw [dropImpossible_of_impossible h, List.tail_cons]
        refine ih.trans ⟨List.suffix_cons byte rest, fun start hstart hlong => ?_⟩
        -- Only the whole run is longer than its rest.
        have heq : start = byte :: rest :=
          hstart.eq_of_length_le (by rw [List.length_cons]; omega)
        rw [heq]
        exact spent_of_impossible h
      · rw [dropImpossible_of_possible h]
        exact Covers.refl _

/-- The byte that a full buffer gives up started a frame longer than any. -/
theorem covers_accept (buffer : List UInt8) (byte : UInt8) :
    Covers (accept buffer byte) (buffer ++ [byte]) := by
  unfold accept
  by_cases hfull : buffer.length = Frame.maxLength
  · rw [if_pos hfull]
    refine ⟨List.suffix_append_self_iff.mpr (List.tail_suffix buffer),
      fun start _ hlong => spent_of_long ?_⟩
    rw [List.length_append, List.length_tail, List.length_singleton] at hlong
    omega
  · rw [if_neg hfull]
    exact Covers.refl _

/-- The first byte of a frame that failed its check starts no other frame. -/
theorem covers_tail {bytes : List UInt8} (h : extent bytes = .known bytes.length)
    (hnone : completed? bytes = none) : Covers bytes.tail bytes where
  isSuffix := List.tail_suffix bytes
  spent := by
    intro start hstart hlong
    rw [List.length_tail] at hlong
    have heq : start = bytes := hstart.eq_of_length_le (by omega)
    rw [heq]
    exact spent_of_failed h fun frame =>
      (completed?_eq_none_iff bytes).mp hnone bytes frame (List.suffix_refl _)

/-! ## One byte -/

/-- The bytes among which a frame is looked for when a byte arrives. -/
def candidates (receiver : Receiver) (byte : UInt8) : List UInt8 :=
  dropImpossible (accept receiver.buffer byte)

/-- Of what was heard nothing is lost on the way to the search, up to the byte
    that arrives. -/
theorem covers_candidates {receiver : Receiver} {heard : List UInt8}
    (h : Covers receiver.buffer heard) (byte : UInt8) :
    Covers (receiver.candidates byte) (heard ++ [byte]) :=
  ((covers_dropImpossible _).trans (covers_accept receiver.buffer byte)).trans (h.append [byte])

/-- With room for one more byte, a start that stays possible is kept as it is. -/
theorem candidates_of_possible {receiver : Receiver} {byte : UInt8}
    (hroom : receiver.buffer.length < Frame.maxLength)
    (hpossible : extent (receiver.buffer ++ [byte]) ≠ .impossible) :
    receiver.candidates byte = receiver.buffer ++ [byte] := by
  rw [candidates, accept, if_neg (Nat.ne_of_lt hroom), dropImpossible_of_possible hpossible]

theorem feed_of_completed {receiver : Receiver} {byte : UInt8} {frame : Frame}
    (h : completed? (receiver.candidates byte) = some frame) :
    receiver.feed byte = ({}, .ok (some frame)) := by
  unfold candidates at h
  simp only [feed, h]

/-- A frame that is full and cannot be read is reported, and its first byte goes. -/
theorem feed_of_failed {receiver : Receiver} {byte : UInt8}
    (hnone : completed? (receiver.candidates byte) = none)
    (h : extent (receiver.candidates byte) = .known (receiver.candidates byte).length) :
    receiver.feed byte =
      (⟨dropImpossible (receiver.candidates byte).tail⟩, .error .checksumMismatch) := by
  unfold candidates at hnone h ⊢
  simp only [feed, hnone, if_pos h]

/-- A byte that completes nothing and fails nothing is kept with the others. -/
theorem feed_of_open {receiver : Receiver} {byte : UInt8}
    (hnone : completed? (receiver.candidates byte) = none)
    (h : extent (receiver.candidates byte) ≠ .known (receiver.candidates byte).length) :
    receiver.feed byte = (⟨receiver.candidates byte⟩, .ok none) := by
  unfold candidates at hnone h ⊢
  simp only [feed, hnone, if_neg h]

/-- All that a byte can lead to: a frame, a report with the first byte given
    up, or one byte more. -/
theorem feed_cases (receiver : Receiver) (byte : UInt8) :
    (∃ frame, completed? (receiver.candidates byte) = some frame ∧
      receiver.feed byte = ({}, .ok (some frame))) ∨
    (completed? (receiver.candidates byte) = none ∧
      extent (receiver.candidates byte) = .known (receiver.candidates byte).length ∧
      receiver.feed byte =
        (⟨dropImpossible (receiver.candidates byte).tail⟩, .error .checksumMismatch)) ∨
    (completed? (receiver.candidates byte) = none ∧
      extent (receiver.candidates byte) ≠ .known (receiver.candidates byte).length ∧
      receiver.feed byte = (⟨receiver.candidates byte⟩, .ok none)) := by
  cases hcompleted : completed? (receiver.candidates byte) with
  | some frame => exact .inl ⟨frame, rfl, feed_of_completed hcompleted⟩
  | none =>
      by_cases h : extent (receiver.candidates byte) = .known (receiver.candidates byte).length
      · exact .inr (.inl ⟨rfl, h, feed_of_failed hcompleted h⟩)
      · exact .inr (.inr ⟨rfl, h, feed_of_open hcompleted h⟩)

/-- Only the first of the three cases returns a frame. -/
theorem feed_returns_iff_completed (receiver : Receiver) (byte : UInt8) (frame : Frame) :
    (receiver.feed byte).2 = .ok (some frame) ↔
      completed? (receiver.candidates byte) = some frame := by
  rcases receiver.feed_cases byte with ⟨found, hsome, hfeed⟩ | ⟨hnone, _, hfeed⟩ | ⟨hnone, _, hfeed⟩
  · rw [hfeed, hsome, Except.ok.injEq]
  · rw [hfeed, hnone]
    simp only [reduceCtorEq]
  · rw [hfeed, hnone]
    simp only [Except.ok.injEq, reduceCtorEq]

theorem completed?_of_no_frame {receiver : Receiver} {byte : UInt8}
    (h : ∀ frame, (receiver.feed byte).2 ≠ .ok (some frame)) :
    completed? (receiver.candidates byte) = none := by
  rw [Option.eq_none_iff_forall_ne_some]
  exact fun frame hsome => h frame ((feed_returns_iff_completed _ _ _).mpr hsome)

/-- A byte that completes nothing is only kept, with room for it, if the start
    stays possible and is not the frame that ends just now. -/
theorem feed_of_kept {receiver : Receiver} {byte : UInt8}
    (hroom : receiver.buffer.length < Frame.maxLength)
    (hpossible : extent (receiver.buffer ++ [byte]) ≠ .impossible)
    (hopen : extent (receiver.buffer ++ [byte]) ≠ .known (receiver.buffer ++ [byte]).length)
    (hnone : completed? (receiver.candidates byte) = none) :
    receiver.feed byte = (⟨receiver.buffer ++ [byte]⟩, .ok none) := by
  have hcandidates := candidates_of_possible hroom hpossible
  rw [feed_of_open hnone (by rw [hcandidates]; exact hopen), hcandidates]

/-- A byte returns the longest frame among all that was heard. -/
theorem feed_returns_iff {receiver : Receiver} {heard : List UInt8}
    (h : Covers receiver.buffer heard) (byte : UInt8) (frame : Frame) :
    (receiver.feed byte).2 = .ok (some frame) ↔ Longest (heard ++ [byte]) frame := by
  rw [feed_returns_iff_completed, completed?_eq_some_iff]
  exact (covers_candidates h byte).longest_iff frame

/-- A frame that is found takes all bytes with it. -/
theorem feed_fst_of_returns {receiver : Receiver} {byte : UInt8} {frame : Frame}
    (h : (receiver.feed byte).2 = .ok (some frame)) : (receiver.feed byte).1 = {} := by
  rw [feed_of_completed ((feed_returns_iff_completed receiver byte frame).mp h)]

/-- A byte that completes nothing keeps the cover. -/
theorem covers_feed {receiver : Receiver} {heard : List UInt8}
    (h : Covers receiver.buffer heard) (byte : UInt8)
    (hnone : ∀ frame, (receiver.feed byte).2 ≠ .ok (some frame)) :
    Covers (receiver.feed byte).1.buffer (heard ++ [byte]) := by
  have hcovers := covers_candidates h byte
  -- With no frame among the candidates, they are kept, or given up after a failed check.
  have hcompleted := completed?_of_no_frame hnone
  by_cases hfailed : extent (receiver.candidates byte) = .known (receiver.candidates byte).length
  · rw [feed_of_failed hcompleted hfailed]
    exact ((covers_dropImpossible _).trans (covers_tail hfailed hcompleted)).trans hcovers
  · rw [feed_of_open hcompleted hfailed]
    exact hcovers

/-! ## Runs of bytes -/

theorem feedAll_cons (receiver : Receiver) (byte : UInt8) (rest : List UInt8) :
    receiver.feedAll (byte :: rest) = (((receiver.feed byte).1.feedAll rest).1,
      (receiver.feed byte).2 :: ((receiver.feed byte).1.feedAll rest).2) := rfl

theorem feedAll_append (receiver : Receiver) (xs ys : List UInt8) :
    receiver.feedAll (xs ++ ys) = (((receiver.feedAll xs).1.feedAll ys).1,
      (receiver.feedAll xs).2 ++ ((receiver.feedAll xs).1.feedAll ys).2) := by
  induction xs generalizing receiver with
  | nil => rfl
  | cons byte rest ih => rw [List.cons_append, feedAll_cons, ih, feedAll_cons, List.cons_append]

theorem no_frame_of_cons {receiver : Receiver} {byte : UInt8} {rest : List UInt8}
    (h : ∀ frame, .ok (some frame) ∉ (receiver.feedAll (byte :: rest)).2) :
    (∀ frame, (receiver.feed byte).2 ≠ .ok (some frame)) ∧
      ∀ frame, .ok (some frame) ∉ ((receiver.feed byte).1.feedAll rest).2 := by
  rw [feedAll_cons] at h
  exact ⟨fun frame heq => h frame (by rw [heq]; exact List.mem_cons_self),
    fun frame hmem => h frame (List.mem_cons_of_mem _ hmem)⟩

/-- Bytes that return nothing keep the cover, by induction over them. -/
theorem covers_feedAll {receiver : Receiver} {heard : List UInt8}
    (h : Covers receiver.buffer heard) (bytes : List UInt8)
    (hnone : ∀ frame, .ok (some frame) ∉ (receiver.feedAll bytes).2) :
    Covers (receiver.feedAll bytes).1.buffer (heard ++ bytes) := by
  induction bytes generalizing receiver heard with
  | nil => rwa [List.append_nil]
  | cons byte rest ih =>
      rcases no_frame_of_cons hnone with ⟨hfirst, hlater⟩
      have hrest := ih (covers_feed h byte hfirst) hlater
      rwa [List.append_assoc, List.singleton_append] at hrest

/-- While bytes are fed some byte returns a frame, if a frame ends with the
    last of them. If none did before the last byte, then that one does. -/
theorem feedAll_finds_some {receiver : Receiver} {heard bytes part : List UInt8} {frame : Frame}
    (h : Covers receiver.buffer heard) (hne : bytes ≠ []) (hpart : part <:+ heard ++ bytes)
    (hfills : Fills part frame) :
    ∃ found, .ok (some found) ∈ (receiver.feedAll bytes).2 := by
  rcases List.eq_nil_or_concat bytes with hnil | ⟨front, last, hsplit⟩
  · exact absurd hnil hne
  rw [List.concat_eq_append] at hsplit
  rw [hsplit, ← List.append_assoc] at hpart
  rw [hsplit, feedAll_append]
  -- Either a frame came before the last byte, or everything is still covered there.
  by_cases hbefore : ∃ found, .ok (some found) ∈ (receiver.feedAll front).2
  · rcases hbefore with ⟨found, hfound⟩
    exact ⟨found, List.mem_append_left _ hfound⟩
  · rw [not_exists] at hbefore
    have hcovers := covers_feedAll h front hbefore
    rcases (exists_longest_iff _).mpr ⟨part, frame, hpart, hfills⟩ with ⟨found, hfound⟩
    refine ⟨found, List.mem_append_right _ ?_⟩
    rw [feedAll_cons, (feed_returns_iff hcovers last found).mpr hfound]
    exact List.mem_cons_self

end Receiver

end DoorBus
