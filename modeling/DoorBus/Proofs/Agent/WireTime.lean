import DoorBus.Bench.Recorder
import DoorBus.Proofs.Agent.Direction
import Mathlib.Algebra.Order.Floor.Div
import Mathlib.Tactic.Ring

/-!
# How Long the Direction Is Held

The direction may go back once the last bit is on the wire. A circuit need not wait
for that, so the transceiver works out how long a request takes and waits for what
writing has left of it. It does so in two steps, microseconds for a character and
milliseconds for the request, and it rounds the first of them down.

So the time that it works out is never more than the true one, and can be less.
What is lost is less than a microsecond a character. Nothing is lost where a
character takes whole microseconds. At the standard settings it takes just under
191, and the first request to come out short has 21 characters. A poll request has
15.

The microseconds are cut off at 32 bits as well, at more than an hour. But as long as
turnaround and true time make no more than 32 bits of milliseconds, nothing else is
lost on the way. With the time that writing took, the span of holding comes to the
turnaround and the longer one of two times: that one, and the one worked out.

## Main definitions

* `LineSettings.occupancy`: The true time that characters take.
* `LineSettings.roundedOccupancy`: The same in two steps.
* `Transceiver.Estimates`: How close an estimate comes to it.
* `Transceiver.Holds`: What a span of holding comes to.

## Theorems

* `toNat_wireTime`: The estimate, as a number.
* `estimates_rounded`: It is short by less than a microsecond a character.
* `holds_span`: The span is turnaround and the longer one of the two times.
* `transmit_holds`: Both, for a request that is sent.
* `drops_early`: A request that is still on the wire when the direction goes back.
-/

namespace DoorBus

theorem Millis.toNat_minus (a b : Millis) : (minus a b).toNat = a.toNat - b.toNat := by
  have hlt : a.toNat - b.toNat < UInt32.size := Nat.lt_of_le_of_lt (Nat.sub_le _ _) a.toNat_lt_size
  rw [minus, UInt32.toNat_ofNat_of_lt' hlt]

namespace LineSettings

/-- Milliseconds that so many characters take on the wire, rounded up only once. -/
def occupancy (line : LineSettings) (count : Nat) : Nat :=
  count * line.characterBits * 1000 ⌈/⌉ line.baudRate.toNat

/-- The same with the microseconds of a character rounded down before. -/
def roundedOccupancy (line : LineSettings) (count : Nat) : Nat :=
  count * (line.characterBits * 1000000 / line.baudRate.toNat) ⌈/⌉ 1000

/-- There are no longer characters than nine bits with a parity, two stop bits
    and the start bit. -/
theorem characterBits_le (line : LineSettings) : line.characterBits ≤ 13 := by
  have hdata : line.dataBits.count ≤ 9 := by cases line.dataBits <;> decide
  have hparity : line.parity.count ≤ 1 := by cases line.parity <;> decide
  have hstop : line.stopBits.count ≤ 2 := by cases line.stopBits <;> decide
  unfold characterBits
  omega

section Rounding

variable {line : LineSettings} {count bound : Nat}

/-- The bound in bit times, which are a million to the second. -/
theorem occupancy_le_iff (hspeed : 0 < line.baudRate.toNat) :
    line.occupancy count ≤ bound ↔
      count * (line.characterBits * 1000000) ≤ line.baudRate.toNat * (1000 * bound) := by
  have hleft : count * (line.characterBits * 1000000)
      = 1000 * (count * line.characterBits * 1000) := by ring
  have hright : line.baudRate.toNat * (1000 * bound) = 1000 * (line.baudRate.toNat * bound) := by
    ring
  rw [occupancy, ceilDiv_le_iff_le_mul hspeed, hleft, hright]
  exact (Nat.mul_le_mul_left_iff (by decide)).symm

theorem roundedOccupancy_le_iff :
    line.roundedOccupancy count ≤ bound ↔
      count * (line.characterBits * 1000000 / line.baudRate.toNat) ≤ 1000 * bound :=
  ceilDiv_le_iff_le_mul (by decide : 0 < 1000)

/-- Rounding the time of a character down makes the sum smaller, if anything. -/
theorem roundedOccupancy_le (hspeed : 0 < line.baudRate.toNat) :
    line.roundedOccupancy count ≤ line.occupancy count := by
  have htrue := (occupancy_le_iff hspeed).mp (Nat.le_refl (line.occupancy count))
  refine roundedOccupancy_le_iff.mpr (Nat.le_of_mul_le_mul_left ?_ hspeed)
  calc line.baudRate.toNat * (count * (line.characterBits * 1000000 / line.baudRate.toNat))
      = count * (line.baudRate.toNat * (line.characterBits * 1000000 / line.baudRate.toNat)) :=
        Nat.mul_left_comm _ _ _
    _ ≤ count * (line.characterBits * 1000000) := Nat.mul_le_mul_left _ (Nat.mul_div_le _ _)
    _ ≤ line.baudRate.toNat * (1000 * line.occupancy count) := htrue

/-- Rounding first makes the time smaller by less than a microsecond a
    character, which is rounded up to milliseconds like all else. -/
theorem occupancy_le_rounded_add (hspeed : 0 < line.baudRate.toNat) :
    line.occupancy count ≤ line.roundedOccupancy count + count ⌈/⌉ 1000 := by
  have hrounded := roundedOccupancy_le_iff.mp (Nat.le_refl (line.roundedOccupancy count))
  have hlost : count ≤ 1000 * (count ⌈/⌉ 1000) := le_smul_ceilDiv (by decide : 0 < 1000)
  rw [occupancy_le_iff hspeed]
  calc count * (line.characterBits * 1000000)
      ≤ count * (line.baudRate.toNat * (line.characterBits * 1000000 / line.baudRate.toNat + 1)) :=
        Nat.mul_le_mul_left _ (Nat.lt_mul_div_succ _ hspeed).le
    _ = line.baudRate.toNat
          * (count * (line.characterBits * 1000000 / line.baudRate.toNat) + count) := by ring
    _ ≤ line.baudRate.toNat
          * (1000 * line.roundedOccupancy count + 1000 * (count ⌈/⌉ 1000)) :=
        Nat.mul_le_mul_left _ (Nat.add_le_add hrounded hlost)
    _ = line.baudRate.toNat * (1000 * (line.roundedOccupancy count + count ⌈/⌉ 1000)) := by ring

/-- Where nothing is rounded off, the order of rounding makes no difference. -/
theorem roundedOccupancy_eq (hspeed : 0 < line.baudRate.toNat)
    (hwhole : line.baudRate.toNat ∣ line.characterBits * 1000000) :
    line.roundedOccupancy count = line.occupancy count := by
  have hrounded := roundedOccupancy_le_iff.mp (Nat.le_refl (line.roundedOccupancy count))
  refine Nat.le_antisymm (roundedOccupancy_le hspeed) ((occupancy_le_iff hspeed).mpr ?_)
  rcases hwhole with ⟨micros, hmicros⟩
  rw [hmicros, Nat.mul_div_cancel_left micros hspeed] at hrounded
  rw [hmicros, Nat.mul_left_comm]
  exact Nat.mul_le_mul_left _ hrounded

end Rounding

end LineSettings

namespace Transceiver

/-! ## The estimate -/

/-- The longest time on the wire that can be worked out. -/
def longestWireTime : Nat :=
  Millis.longest ⌈/⌉ 1000

/-- The two places at which the microseconds are cut off amount to one. -/
theorem cut_twice (count micros : Nat) :
    min (min count Millis.longest * micros) Millis.longest
      = min (count * micros) Millis.longest := by
  rcases Nat.le_total count Millis.longest with hcount | hcount
  · rw [Nat.min_eq_left hcount]
  rw [Nat.min_eq_right hcount]
  rcases Nat.eq_zero_or_pos micros with hzero | hpos
  · rw [hzero, Nat.mul_zero, Nat.mul_zero]
  · have hlong : Millis.longest ≤ Millis.longest * micros := Nat.le_mul_of_pos_right _ hpos
    rw [Nat.min_eq_right hlong, Nat.min_eq_right (hlong.trans (Nat.mul_le_mul_right _ hcount))]

/-- Rounding up is monotone, so cutting off before it is cutting off behind it. -/
theorem toNat_wireTime (transceiver : Transceiver) (count : Nat) :
    (transceiver.wireTime count).toNat
      = min (count * transceiver.characterTime.toNat ⌈/⌉ 1000) longestWireTime := by
  have hceil : Monotone fun micros : Nat => micros ⌈/⌉ 1000 :=
    (gc_mul_ceilDiv (by decide)).monotone_l
  have hmin : min (count * transceiver.characterTime.toNat) Millis.longest ⌈/⌉ 1000
      = min (count * transceiver.characterTime.toNat ⌈/⌉ 1000) longestWireTime := hceil.map_min
  have hfits : min (count * transceiver.characterTime.toNat) Millis.longest ⌈/⌉ 1000
      < UInt32.size := by
    rw [hmin]
    exact Nat.lt_of_le_of_lt (Nat.min_le_right _ _) (by decide)
  rw [wireTime, cut_twice, ← hmin]
  exact UInt32.toNat_ofNat_of_lt' hfits

/-- A line with any speed at all has a time for its characters, and a million
    times thirteen bits is no more than a word holds. -/
theorem withLine_of_speed {line : LineSettings} (hspeed : 0 < line.baudRate.toNat)
    (transceiver : Transceiver) :
    ∃ characterTime : UInt32,
      transceiver.withLine line = .ok { transceiver with characterTime } ∧
        characterTime.toNat = line.characterBits * 1000000 / line.baudRate.toNat := by
  have hne : line.baudRate ≠ 0 := fun hzero => by
    rw [hzero] at hspeed
    exact Nat.lt_irrefl 0 hspeed
  have hfits : line.characterBits * 1000000 / line.baudRate.toNat < UInt32.size := by
    have hbits := line.characterBits_le
    refine Nat.lt_of_le_of_lt (Nat.div_le_self _ _) ?_
    rw [UInt32.size]
    omega
  refine ⟨_, ?_, UInt32.toNat_ofNat_of_lt' hfits⟩
  rw [withLine, LineSettings.characterTime, if_neg hne]
  rfl

/-- How close an estimate comes to the true time. It is short by less than a
    microsecond a character, and not at all where a character takes whole
    microseconds, as far as times can be worked out. -/
structure Estimates (line : LineSettings) (count estimate : Nat) : Prop where
  le_occupancy : estimate ≤ line.occupancy count
  occupancy_le : min (line.occupancy count) longestWireTime ≤ estimate + count ⌈/⌉ 1000
  eq_of_whole : line.baudRate.toNat ∣ line.characterBits * 1000000 →
    estimate = min (line.occupancy count) longestWireTime

theorem estimates_rounded {line : LineSettings} (hspeed : 0 < line.baudRate.toNat) (count : Nat) :
    Estimates line count (min (line.roundedOccupancy count) longestWireTime) where
  le_occupancy := Nat.le_trans (Nat.min_le_left _ _) (LineSettings.roundedOccupancy_le hspeed)
  occupancy_le := by
    have hclose : line.occupancy count ≤ line.roundedOccupancy count + count ⌈/⌉ 1000 :=
      LineSettings.occupancy_le_rounded_add hspeed
    omega
  eq_of_whole hwhole := by rw [LineSettings.roundedOccupancy_eq hspeed hwhole]

/-! ## The hold -/

/-- What a span of holding comes to, behind a write that took a time by the clock.
    A clock that went round in the meantime only makes for a longer hold. -/
structure Holds (turnaround : Millis) (occupancy estimate : Nat) (taken span : Millis) :
    Prop where
  span_eq : taken.toNat + span.toNat = turnaround.toNat + max estimate taken.toNat
  span_le : ∀ duration, duration % UInt32.size = taken.toNat →
    turnaround.toNat + max estimate duration ≤ duration + span.toNat
  covers_iff : turnaround.toNat + occupancy ≤ taken.toNat + span.toNat ↔
    occupancy ≤ estimate ∨ occupancy ≤ taken.toNat

/-- What is waited for is the estimate less the time that writing took, but
    never less than nothing. So writing and waiting make up the longer one of
    the two. -/
theorem holds_span {turnaround estimate taken : Millis} {occupancy : Nat}
    (hle : estimate.toNat ≤ occupancy) (hfits : turnaround.toNat + occupancy ≤ Millis.longest) :
    Holds turnaround occupancy estimate.toNat taken ((estimate.minus taken).plus turnaround) := by
  have hspan : ((estimate.minus taken).plus turnaround).toNat
      = estimate.toNat - taken.toNat + turnaround.toNat := by
    rw [Millis.toNat_plus, Millis.toNat_minus]
    omega
  -- What the transfer has taken is not waited for again.
  have heq : taken.toNat + ((estimate.minus taken).plus turnaround).toNat
      = turnaround.toNat + max estimate.toNat taken.toNat := by
    rw [hspan]
    omega
  refine ⟨heq, ?_, ?_⟩
  · intro duration hduration
    have htaken : taken.toNat ≤ duration := by
      rw [← hduration]
      exact Nat.mod_le _ _
    rw [hspan]
    omega
  · rw [heq, Nat.add_le_add_iff_left]
    exact le_max_iff

variable {β ε : Type}

/-- What the direction is held for. At every line setting, with every turnaround and
    over every circuit, a request that is written and flushed is one hold of the
    direction, and the only pause in it comes to the turnaround and the longer one
    of two times: the estimate, and the time that writing and flushing took. So the
    hold covers the true time on the wire if one of the two does. The estimate is
    the true time where a character takes whole microseconds, and short by less than
    a microsecond a character elsewhere. -/
theorem transmit_holds (line : LineSettings) (hspeed : line.baudRate ≠ 0) (turnaround : Millis)
    (circuit : Circuit β ε) (bytes : List UInt8) (probe : Circuit.Probe β) {written sent : β}
    (hwrite : circuit.write bytes (circuit.setDirection true probe.state) = (written, .ok ()))
    (hflush : circuit.flush written = (sent, .ok ())) :
    let raised := circuit.setDirection true probe.state
    let taken := Millis.elapsed (circuit.now raised) (circuit.now sent)
    let occupancy := line.occupancy bytes.length
    ∃ (transceiver : Transceiver) (span : Millis),
      (new turnaround).withLine line = .ok transceiver ∧
      transceiver.transmit circuit.probed bytes probe
        = (⟨circuit.setDirection false (circuit.delay span sent), false,
            probe.trace ++ [(probe.high, .direction true), (true, .write bytes true),
              (true, .flush true), (true, .delay span), (true, .direction false)]⟩, .ok ()) ∧
      Estimates line bytes.length (transceiver.wireTime bytes.length).toNat ∧
      turnaround ≤ span ∧
      (turnaround.toNat + occupancy ≤ Millis.longest →
        Holds turnaround occupancy (transceiver.wireTime bytes.length).toNat taken span) := by
  intro raised taken occupancy
  have hpos : 0 < line.baudRate.toNat :=
    Nat.pos_of_ne_zero fun hzero => hspeed (UInt32.toNat_inj.mp hzero)
  rcases withLine_of_speed hpos (new turnaround) with ⟨characterTime, hline, htime⟩
  have hestimate : Estimates line bytes.length
      (wireTime { new turnaround with characterTime } bytes.length).toNat := by
    rw [toNat_wireTime, htime]
    exact estimates_rounded hpos bytes.length
  refine ⟨_, _, hline, (transmit_sent _ probe hwrite hflush).1, hestimate,
    Millis.le_plus_right _ _, fun hfits => ?_⟩
  exact holds_span hestimate.le_occupancy hfits

/-- A poll request at the standard settings, into a buffer that takes it at once. It
    takes three milliseconds on the wire, and is held for three and two more. -/
theorem transmit_holds_request :
    LineSettings.standard.occupancy 15 = 3 ∧
      ∃ (transceiver : Transceiver) (span : Millis),
        (new 2).withLine .standard = .ok transceiver ∧ span = 5 ∧
          (transceiver.transmit Recorder.circuit.probed (List.replicate 15 0)
            ⟨{}, false, []⟩).1.trace
            = [(false, .direction true), (true, .write (List.replicate 15 0) true),
              (true, .flush true), (true, .delay span), (true, .direction false)] := by
  have htime : LineSettings.standard.occupancy 15 = 3 := by decide
  refine ⟨htime, ?_⟩
  rcases transmit_holds .standard (by decide) 2 Recorder.circuit (List.replicate 15 0)
    ⟨{}, false, []⟩ rfl rfl with ⟨transceiver, span, hline, hdoes, _, _, hholds⟩
  have htransceiver : transceiver = new 2 := (Except.ok.inj hline).symm
  have hsum := (hholds (by decide)).span_eq
  rw [htransceiver] at hsum
  refine ⟨transceiver, span, hline, ?_, ?_⟩
  · rw [← UInt32.toNat_inj]
    exact (Nat.zero_add _).symm.trans hsum
  · rw [hdoes]
    rfl

example : ∀ count < 21,
    ((new 2).wireTime count).toNat = LineSettings.standard.occupancy count := by decide

/-- A request of 21 characters at the standard settings, without turnaround and into
    a buffer that takes it at once. The direction goes back after four milliseconds,
    when the line has not had the time for all of its bits. -/
theorem drops_early :
    let line := LineSettings.standard
    let sent := (new 0).transmit Recorder.circuit (List.replicate 21 0) {}
    (new 0).withLine line = .ok (new 0) ∧ sent.2 = .ok () ∧
      sent.1.entries = #[.direction true, .write (List.replicate 21 0) true, .flush, .delay 4,
        .direction false] ∧
      sent.1.now = 4 ∧ sent.1.now.toNat < (new 0).turnaround.toNat + line.occupancy 21 ∧
      sent.1.now.toNat * line.baudRate.toNat < 21 * line.characterBits * 1000 := by
  decide +kernel

end Transceiver

end DoorBus
