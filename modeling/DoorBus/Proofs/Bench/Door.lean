import DoorBus.Bench.Door
import DoorBus.Proofs.Door.Status

/-!
# The Door Between Two Looks

The drive looks at its door every few milliseconds, sooner than the door takes
for a unit. So the door moves by one unit at most from one look to the next,
and what is carried over never makes up a unit. In particular the sum of times
fits, and looking at the door is not a fault.

That an advance covers its units in one go is no more than a short way to say
that the door takes them one by one, each paid for with the time carried, as long
as it travels and has the time for another one.

A door that is only asked for the usual places travels to one of them, or
stands where it was stopped. There are few pairs of position and target then,
and what it reports goes with them.

## Main definitions

* `Door.walkUnit`, `Door.walk`: A unit of the way, and one after the other.
* `Door.Nears`: Where a door may be next.
* `Door.IsPunctual`: What is carried does not make up a unit.
* `Door.IsUsual`: The door travels to a usual place, or stands.

## Theorems

* `walk_eq`, `advance_eq_walk`: An advance goes unit by unit.
* `advance_of_short`: Where a door is after a short time.
* `isUsual_advance`, `isUsual_apply`: A door stays a usual one.
* `status_isDescribed`: A drive can describe its door.
* `code_of_closing`, `code_of_stopped`: Two codes that go with the way.
-/

namespace DoorBus

namespace Door

/-- The place of a door, or one that is a unit nearer to its target. -/
def Nears (door : Door) (place : UInt8) : Prop :=
  place = door.position ∨
    door.position.toNat < door.target.toNat ∧ place.toNat = door.position.toNat + 1 ∨
    door.target.toNat < door.position.toNat ∧ place.toNat + 1 = door.position.toNat

/-- What is carried does not make up a unit, and two units fit into a span. -/
structure IsPunctual (door : Door) : Prop where
  carried_lt : door.carried.toNat < door.unitTime.toNat
  unitTime_le : 2 * door.unitTime.toNat ≤ Millis.longest

theorem isPunctual_apply {door : Door} (h : door.IsPunctual) (action : Action) :
    (door.apply action).IsPunctual := by
  cases action <;> exact ⟨h.carried_lt, h.unitTime_le⟩

/-! ## Unit by unit -/

theorem isMoving_iff {door : Door} : door.isMoving = true ↔ door.position ≠ door.target :=
  bne_iff_ne

/-- The places differ as numbers, which is what arithmetic about them needs. -/
theorem toNat_ne_of_isMoving {door : Door} (h : door.isMoving = true) :
    door.position.toNat ≠ door.target.toNat := by
  intro heq
  exact isMoving_iff.mp h (UInt8.toNat.inj heq)

/-- A unit of the way, paid for with the time carried. -/
def walkUnit (door : Door) : Door :=
  { door with
    position := if door.position < door.target then door.position + 1 else door.position - 1
    carried := door.carried - door.unitTime }

/-- A unit costs what it has to, if there is the time for it. -/
theorem toNat_carried_walkUnit {door : Door} (h : door.unitTime ≤ door.carried) :
    door.walkUnit.carried.toNat = door.carried.toNat - door.unitTime.toNat :=
  UInt32.toNat_sub_of_le _ _ h

/-- Units, one after the other, as long as the door travels and carries the time
    for another one. -/
def walk (door : Door) : Door :=
  if door.unitTime ≤ door.carried ∧ door.isMoving = true then door.walkUnit.walk else door
termination_by door.carried.toNat
decreasing_by
  next h =>
    have hpos : 0 < door.unitTime.toNat := UInt32.lt_iff_toNat_lt.mp door.unitTime_pos
    have hle : door.unitTime.toNat ≤ door.carried.toNat := UInt32.le_iff_toNat_le.mp h.1
    rw [toNat_carried_walkUnit h.1]
    omega

/-- A travelling door is a unit nearer to its target behind a unit of its way. -/
theorem toNat_position_walkUnit {door : Door} (h : door.isMoving = true) :
    door.walkUnit.position.toNat
      = if door.position < door.target then door.position.toNat + 1
        else door.position.toNat - 1 := by
  have hne := toNat_ne_of_isMoving h
  have hposition : door.position.toNat < 256 := door.position.toNat_lt
  have htarget : door.target.toNat < 256 := door.target.toNat_lt
  rw [walkUnit]
  by_cases hup : door.position < door.target
  · rw [if_pos hup, if_pos hup, UInt8.toNat_add]
    rw [UInt8.lt_iff_toNat_lt] at hup
    exact Nat.mod_eq_of_lt (by simp only [UInt8.reduceToNat]; omega)
  · rw [if_neg hup, if_neg hup]
    rw [UInt8.lt_iff_toNat_lt] at hup
    exact UInt8.toNat_sub_of_le _ _
      (UInt8.le_iff_toNat_le.mpr (by simp only [UInt8.reduceToNat]; omega))

/-- Each unit shortens the way by one. The number of units is then the distance,
    or what the time pays for. -/
theorem distance_walkUnit {door : Door} (h : door.isMoving = true) :
    door.walkUnit.distance + 1 = door.distance := by
  have hne := toNat_ne_of_isMoving h
  have htarget : door.walkUnit.target = door.target := rfl
  rw [distance, distance, toNat_position_walkUnit h, htarget]
  by_cases hup : door.position < door.target
  · rw [if_pos hup]
    rw [UInt8.lt_iff_toNat_lt] at hup
    omega
  · rw [if_neg hup]
    rw [UInt8.lt_iff_toNat_lt] at hup
    omega

/-- The units behind the first one lead on from where it ends, and none of them
    is left when it ends at the target. -/
theorem positionAfter_walkUnit {door : Door} (h : door.isMoving = true) {units : Nat}
    (hunits : units ≤ door.walkUnit.distance) :
    door.walkUnit.positionAfter units = door.positionAfter (units + 1) := by
  have hne := toNat_ne_of_isMoving h
  have htarget : door.walkUnit.target = door.target := rfl
  have hposition := toNat_position_walkUnit h
  rw [distance, htarget] at hunits
  rw [positionAfter, positionAfter, htarget]
  by_cases hup : door.position < door.target
  · rw [if_pos hup] at hposition ⊢
    rw [UInt8.lt_iff_toNat_lt] at hup
    by_cases hfurther : door.walkUnit.position < door.target
    · rw [if_pos hfurther, hposition, Nat.add_assoc, Nat.add_comm 1]
    -- The first unit was the last one, so there are none behind it.
    · rw [if_neg hfurther, hposition]
      rw [UInt8.lt_iff_toNat_lt] at hfurther
      congr 1
      omega
  · rw [if_neg hup] at hposition ⊢
    have hdown : ¬door.walkUnit.position < door.target := by
      rw [UInt8.lt_iff_toNat_lt] at hup ⊢
      omega
    rw [if_neg hdown, hposition, Nat.sub_sub, Nat.add_comm 1]

/-- All units that the time pays for, up to the target, are those that a door
    takes one by one. The induction is on the loop, and each unit takes one off
    the quotient and one off the distance. -/
theorem walk_eq (door : Door) :
    door.walk =
      { door with
        position := door.positionAfter (door.unitsIn door.carried)
        carried := .ofNat
          (door.carried.toNat - door.unitsIn door.carried * door.unitTime.toNat) } := by
  induction door using walk.induct with
  | case1 door h ih =>
      have hpos : 0 < door.unitTime.toNat := UInt32.lt_iff_toNat_lt.mp door.unitTime_pos
      have hle : door.unitTime.toNat ≤ door.carried.toNat := UInt32.le_iff_toNat_le.mp h.1
      have hdistance := distance_walkUnit h.2
      have hunits : door.unitsIn door.carried
          = door.walkUnit.unitsIn door.walkUnit.carried + 1 := by
        have hunit : door.walkUnit.unitTime = door.unitTime := rfl
        have hquotient := Nat.div_eq_sub_div hpos hle
        rw [unitsIn, unitsIn, toNat_carried_walkUnit h.1, hunit, hquotient, ← hdistance]
        omega
      have hleft : door.walkUnit.unitsIn door.walkUnit.carried ≤ door.walkUnit.distance :=
        Nat.min_le_right _ _
      rw [walk, if_pos h, ih, hunits, ← positionAfter_walkUnit h.2 hleft,
        toNat_carried_walkUnit h.1, Nat.succ_mul, Nat.add_comm _ door.unitTime.toNat,
        ← Nat.sub_sub]
      rfl
  | case2 door h =>
      -- Either the time or the way is too short for a unit.
      have hnone : door.unitsIn door.carried = 0 := by
        rw [unitsIn]
        rcases Decidable.not_and_iff_not_or_not.mp h with hshort | hrest
        · rw [UInt32.not_le, UInt32.lt_iff_toNat_lt] at hshort
          rw [Nat.div_eq_of_lt hshort]
          exact Nat.zero_min _
        · rw [isMoving_iff, Decidable.not_not] at hrest
          rw [distance, hrest, Nat.sub_self]
          exact Nat.min_zero _
      have hplace : door.positionAfter 0 = door.position := by
        rw [positionAfter, Nat.add_zero, Nat.sub_zero, UInt8.ofNat_toNat, ite_self]
      rw [walk, if_neg h, hnone, hplace, Nat.zero_mul, Nat.sub_zero, UInt32.ofNat_toNat]

/-- A travelling door adds the time to what it carries, and then takes unit by
    unit. -/
theorem advance_eq_walk (door : Door) (elapsed : Millis) :
    door.advance elapsed =
      if door.isMoving then
        (Millis.sum? door.carried elapsed).map fun time => walk { door with carried := time }
      else .ok { door with carried := 0 } := by
  rw [advance]
  simp only [walk_eq]
  rfl

/-! ## A short time -/

/-- A single unit is always one of those left to a travelling door. -/
theorem unitsIn_of_short {door : Door} {time : Millis} (hmoving : door.isMoving = true)
    (htime : time.toNat < 2 * door.unitTime.toNat) :
    door.unitsIn time = time.toNat / door.unitTime.toNat ∧
      time.toNat / door.unitTime.toNat ≤ 1 := by
  have hne := toNat_ne_of_isMoving hmoving
  have hle : time.toNat / door.unitTime.toNat ≤ 1 :=
    Nat.le_of_lt_succ (Nat.div_lt_of_lt_mul (by rw [Nat.mul_comm]; exact htime))
  have hdistance : 1 ≤ door.distance := by
    rw [distance]
    omega
  exact ⟨Nat.min_eq_left (Nat.le_trans hle hdistance), hle⟩

/-- Where a door is after at most one unit. -/
theorem positionAfter_of_short {door : Door} {units : Nat} (hmoving : door.isMoving = true)
    (hunits : units ≤ 1) : door.Nears (door.positionAfter units) := by
  have hne := toNat_ne_of_isMoving hmoving
  have hposition : door.position.toNat < 256 := door.position.toNat_lt
  have htarget : door.target.toNat < 256 := door.target.toNat_lt
  rw [positionAfter]
  by_cases hup : door.position < door.target
  · rw [if_pos hup]
    rw [UInt8.lt_iff_toNat_lt] at hup
    -- One unit at most, and in the direction of the target.
    by_cases hzero : units = 0
    · exact .inl (by rw [hzero, Nat.add_zero, UInt8.ofNat_toNat])
    · refine .inr (.inl ⟨hup, ?_⟩)
      rw [UInt8.toNat_ofNat']
      omega
  · rw [if_neg hup]
    rw [UInt8.lt_iff_toNat_lt] at hup
    by_cases hzero : units = 0
    · exact .inl (by rw [hzero, Nat.sub_zero, UInt8.ofNat_toNat])
    · refine .inr (.inr ⟨by omega, ?_⟩)
      rw [UInt8.toNat_ofNat']
      omega

/-- In a short time a door moves by one unit at most, which is not a fault. -/
theorem advance_of_short {door : Door} {elapsed : Millis} (h : door.IsPunctual)
    (helapsed : elapsed.toNat ≤ door.unitTime.toNat) :
    ∃ after, door.advance elapsed = .ok after ∧ after.IsPunctual ∧
      after.unitTime = door.unitTime ∧ after.target = door.target ∧
      door.Nears after.position := by
  have hcarried := h.carried_lt
  have hlongest := h.unitTime_le
  rw [advance]
  by_cases hmoving : door.isMoving = true
  · rw [if_pos hmoving]
    have hsum : door.carried.toNat + elapsed.toNat ≤ Millis.longest := by omega
    have htime : (door.carried + elapsed).toNat = door.carried.toNat + elapsed.toNat := by
      rw [Millis.longest, UInt32.size] at hsum
      rw [UInt32.toNat_add]
      omega
    rw [Millis.sum?, if_pos hsum, Except.map]
    have hshort : (door.carried + elapsed).toNat < 2 * door.unitTime.toNat := by omega
    rcases unitsIn_of_short hmoving hshort with ⟨hunits, hone⟩
    refine ⟨_, rfl, ⟨?_, hlongest⟩, rfl, rfl, positionAfter_of_short hmoving (hunits ▸ hone)⟩
    -- All whole units are taken off, so that what is left is a remainder.
    have hleft : (door.carried + elapsed).toNat - door.unitsIn (door.carried + elapsed) *
        door.unitTime.toNat = (door.carried + elapsed).toNat % door.unitTime.toNat := by
      rw [hunits, Nat.mod_eq_sub_div_mul]
    have hmod : (door.carried + elapsed).toNat % door.unitTime.toNat < door.unitTime.toNat :=
      Nat.mod_lt _ (by omega)
    simp only [hleft]
    rw [UInt32.toNat_ofNat', Nat.mod_eq_of_lt]
    · exact hmod
    · exact Nat.lt_trans hmod door.unitTime.toNat_lt
  · rw [if_neg hmoving]
    refine ⟨_, rfl, ⟨?_, hlongest⟩, rfl, rfl, .inl rfl⟩
    exact UInt32.lt_iff_toNat_lt.mp door.unitTime_pos

/-! ## Usual places -/

/-- The places that a door is asked to travel to. -/
def places : List UInt8 :=
  [0, ventPosition, halfOpenPosition, DoorStatus.maxPosition]

theorem le_of_mem_places {place : UInt8} (h : place ∈ places) : place.toNat ≤ 200 := by
  have hall : (places.all fun place => place.toNat ≤ 200) = true := by decide
  exact of_decide_eq_true (List.all_eq_true.mp hall place h)

/-- The door travels to one of the usual places, or stands within its way. -/
structure IsUsual (door : Door) : Prop where
  position_le : door.position.toNat ≤ 200
  target_mem : door.position = door.target ∨ door.target ∈ places

theorem isUsual_advance {door after : Door} (h : door.IsUsual)
    (htarget : after.target = door.target) (hnears : door.Nears after.position) :
    after.IsUsual := by
  have hle := h.position_le
  rcases hnears with hsame | hmoved
  · refine ⟨by rw [hsame]; exact hle, ?_⟩
    rw [hsame, htarget]
    exact h.target_mem
  · -- A door that has moved was on its way to a usual place.
    have hmem : door.target ∈ places := by
      rcases h.target_mem with heq | hmem
      · rw [heq] at hmoved
        omega
      · exact hmem
    have htargetLe := le_of_mem_places hmem
    refine ⟨by omega, .inr ?_⟩
    rw [htarget]
    exact hmem

/-- A button that sends the door somewhere names a usual place. Stopping names
    the place where it is. -/
theorem isUsual_apply {door : Door} (h : door.IsUsual) (action : Action) :
    (door.apply action).IsUsual := by
  have hle := h.position_le
  cases action with
  | stop => exact ⟨hle, .inl rfl⟩
  | toggleLight => exact ⟨hle, h.target_mem⟩
  | openDoor => exact ⟨hle, .inr (by decide : DoorStatus.maxPosition ∈ places)⟩
  | closeDoor => exact ⟨hle, .inr (by decide : 0 ∈ places)⟩
  | halfOpen => exact ⟨hle, .inr (by decide : halfOpenPosition ∈ places)⟩
  | vent => exact ⟨hle, .inr (by decide : ventPosition ∈ places)⟩

/-! ## What is reported -/

/-- A door only reports codes with a meaning. -/
theorem stateCode_mem (door : Door) : door.stateCode ∈ StateCode.named := by
  have hmoving : door.movingCode ∈ StateCode.named := by
    unfold movingCode
    split
    · split
      · decide
      · split <;> decide
    · decide
  have hresting : door.restingCode ∈ StateCode.named := by
    unfold restingCode
    split
    · decide
    · split
      · decide
      · split
        · decide
        · split <;> decide
  unfold stateCode
  split
  · exact hmoving
  · exact hresting

/-- A drive can describe its door in each state, so what it broadcasts is read
    back as it was. -/
theorem status_isDescribed (door : Door) : door.status.IsDescribed := by
  have hcode : ∀ code ∈ StateCode.named, .ofByte code.toByte = code := by decide
  refine ⟨door.position, door.target, door.stateCode.toByte, door.light, ?_⟩
  rw [hcode door.stateCode door.stateCode_mem]
  rfl

/-- A door above its target reports that it is closing. -/
theorem code_of_closing {door : Door} (h : door.target.toNat < door.position.toNat) :
    door.stateCode = .closing := by
  have hmoving : door.isMoving = true := by
    rw [isMoving_iff]
    intro heq
    rw [heq] at h
    omega
  rw [stateCode, if_pos hmoving, movingCode, if_neg]
  rw [UInt8.lt_iff_toNat_lt]
  omega

/-- A door at rest away from the usual places reports that it was stopped. -/
theorem code_of_stopped {door : Door} (hrest : door.position = door.target)
    (haway : door.position ∉ places) : door.stateCode = .stopped := by
  have hmoving : ¬door.isMoving = true := fun h => isMoving_iff.mp h hrest
  simp only [places, List.mem_cons, List.not_mem_nil, or_false, not_or] at haway
  rcases haway with ⟨hzero, hvent, hhalf, hopen⟩
  rw [stateCode, if_neg hmoving, restingCode, if_neg hopen, if_neg hzero,
    if_neg (fun h => hvent h.1), if_neg hhalf]

end Door

end DoorBus
