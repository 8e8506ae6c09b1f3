import DoorBus.Proofs.Bench.Door
import Mathlib.Data.List.Induction

/-!
# The Speed of a Door

A door takes its time for each unit of its way. Time that does not make up a unit
is carried over while it travels, and forgotten by a door at rest. So one expects
a door to carry less than the time of a unit, and an advance to move it by the
units that fit into the time that has passed, one more at most.

What a travelling door does with its time bears this out. It pays for each unit,
and what it carries afterwards is the change. Only a door that arrives keeps more,
if it had the time for units beyond its target. The next advance makes it forget
the rest, unless an action has sent it on before that. Then it still has the time
that passed while it stood at its target, and covers that part of its way at once.

So the speed is kept from one advance to the next, but after such an arrival. Over
a whole run it is kept without exception, since no time is counted twice.

## Main definitions

* `Door.Call`, `Door.run`: What a door is put through.
* `Door.gap`, `Door.way`: Units between two places, and units travelled.
* `Door.ArrivesEarly`: An advance leaves time for units beyond the target.
* `Door.Advances`: What an advance makes of a door.
* `Door.IsAhead`: The last advance of a run was early at the target.

## Theorems

* `advances_of_rest`, `advances_of_travel`: Doors at rest, and on their way.
* `gap_le_of_advances`: A door that carries little keeps its speed.
* `isInRange_run`, `way_le`, `isAhead_iff`: What holds after a run.
* `advance_keepsSpeed`: How far an advance moves a door.
* `not_keepsSpeed`: A door that covers its way in no time.
-/

namespace DoorBus

namespace Door

/-! ## Runs -/

/-- What a door is put through. -/
inductive Call
  /-- An action is asked for. -/
  | ask (action : Action)
  /-- Time passes. -/
  | pass (elapsed : Millis)

/-- Milliseconds that pass. -/
def Call.time : Call → Nat
  | ask _ => 0
  | pass elapsed => elapsed.toNat

/-- Milliseconds that pass in a run. -/
def timeOf : List Call → Nat
  | [] => 0
  | call :: rest => call.time + timeOf rest

/-- One call. -/
def call (door : Door) : Call → Except ArithmeticFault Door
  | .ask action => .ok (door.apply action)
  | .pass elapsed => door.advance elapsed

/-- Calls in order, up to the first fault. -/
def run (door : Door) : List Call → Except ArithmeticFault Door
  | [] => .ok door
  | call :: rest => (door.call call).bind fun next => next.run rest

/-- Units between two places. -/
def gap (place other : UInt8) : Nat :=
  (other.toNat - place.toNat) + (place.toNat - other.toNat)

/-- Units travelled in a run. -/
def way (door : Door) : List Call → Nat
  | [] => 0
  | call :: rest =>
    match door.call call with
    | .ok next => gap door.position next.position + next.way rest
    | .error _ => 0

@[simp]
theorem gap_self (place : UInt8) : gap place place = 0 := by
  rw [gap, Nat.sub_self]

theorem bind_eq_ok {α β ε : Type} {first : Except ε α} {next : α → Except ε β} {last : β} :
    first.bind next = .ok last ↔ ∃ middle, first = .ok middle ∧ next middle = .ok last := by
  cases first with
  | error fault => simp only [Except.bind, reduceCtorEq, false_and, exists_false]
  | ok middle => simp only [Except.bind, Except.ok.injEq, exists_eq_left']

-- A run is taken apart at its first call, to follow what each call keeps.
theorem run_cons {door after : Door} {call : Call} {rest : List Call} :
    door.run (call :: rest) = .ok after ↔
      ∃ next, door.call call = .ok next ∧ next.run rest = .ok after :=
  bind_eq_ok

/-- A run may be cut anywhere. The calls behind the cut go on from the door that
    is left there. -/
theorem run_append (door : Door) (xs ys : List Call) :
    door.run (xs ++ ys) = (door.run xs).bind fun middle => middle.run ys := by
  induction xs generalizing door with
  | nil => rfl
  | cons call xs ih =>
      rw [List.cons_append, run, run]
      cases door.call call with
      | ok next => exact ih next
      | error fault => rfl

theorem run_singleton (door : Door) (call : Call) : door.run [call] = door.call call := by
  rw [run]
  cases door.call call <;> rfl

-- And at its last one, since what a door carries is settled by its last advance.
theorem run_concat {door after : Door} {calls : List Call} {call : Call} :
    door.run (calls ++ [call]) = .ok after ↔
      ∃ before, door.run calls = .ok before ∧ before.call call = .ok after := by
  simp only [run_append, bind_eq_ok, run_singleton]

/-! ## One advance -/

/-- An advance leaves a door at its target with the time for another unit. -/
def ArrivesEarly (door : Door) (elapsed : Millis) : Prop :=
  door.isMoving = true ∧
    (door.distance + 1) * door.unitTime.toNat ≤ door.carried.toNat + elapsed.toNat

/-- A place on the way between two others. -/
def IsOnWay (place start target : UInt8) : Prop :=
  start ≤ place ∧ place ≤ target ∨ target ≤ place ∧ place ≤ start

/-- What an advance makes of a door. It pays for the units that the door travels,
    with the time carried and the time elapsed. -/
structure Advances (before : Door) (elapsed : Millis) (after : Door) : Prop where
  unitTime_eq : after.unitTime = before.unitTime
  target_eq : after.target = before.target
  isOnWay : IsOnWay after.position before.position before.target
  pays : gap before.position after.position * before.unitTime.toNat + after.carried.toNat
    ≤ before.carried.toNat + elapsed.toNat
  forgets : before.position = before.target → after.carried = 0
  carried_lt_iff : after.carried.toNat < before.unitTime.toNat ↔ ¬before.ArrivesEarly elapsed

-- The words do not wrap: no door is further from its target than a byte can say.
theorem positionAfter_of_le {door : Door} {units : Nat} (h : units ≤ door.distance) :
    gap door.position (door.positionAfter units) = units ∧
      IsOnWay (door.positionAfter units) door.position door.target := by
  have hposition : door.position.toNat < 256 := door.position.toNat_lt
  have htarget : door.target.toNat < 256 := door.target.toNat_lt
  simp only [IsOnWay, gap, UInt8.le_iff_toNat_le]
  rw [distance] at h
  rw [positionAfter]
  by_cases hup : door.position < door.target
  · rw [if_pos hup, UInt8.toNat_ofNat']
    rw [UInt8.lt_iff_toNat_lt] at hup
    omega
  · rw [if_neg hup, UInt8.toNat_ofNat']
    rw [UInt8.lt_iff_toNat_lt] at hup
    omega

-- The change is the time of a unit or more only if the units ran out before the time.
theorem change_lt_iff {time unit left : Nat} (hunit : 0 < unit) :
    time - min (time / unit) left * unit < unit ↔ ¬(left + 1) * unit ≤ time := by
  have hdiv := Nat.div_add_mod time unit
  have hmod := Nat.mod_lt time hunit
  rcases Nat.lt_or_ge left (time / unit) with hout | hin
  · -- All units are taken, and one more would have fitted.
    have hmore : (left + 1) * unit ≤ time :=
      Nat.le_trans (Nat.mul_le_mul_right unit hout) (Nat.div_mul_le_self time unit)
    rw [Nat.min_eq_right (Nat.le_of_lt hout)]
    rw [Nat.succ_mul] at hmore ⊢
    omega
  · have hless : time < (left + 1) * unit :=
      (Nat.div_lt_iff_lt_mul hunit).mp (Nat.lt_succ_of_le hin)
    rw [Nat.min_eq_left hin, Nat.mul_comm]
    omega

/-- A door at rest forgets the time that it carries. -/
theorem advances_of_rest {door : Door} (h : ¬door.isMoving = true) (elapsed : Millis) :
    door.Advances elapsed { door with carried := 0 } where
  unitTime_eq := rfl
  target_eq := rfl
  isOnWay := by
    have heq : door.position = door.target := by
      rw [isMoving_iff] at h
      exact Decidable.not_not.mp h
    exact .inl ⟨UInt8.le_refl _, heq ▸ UInt8.le_refl _⟩
  pays := by
    simp only [gap_self, Nat.zero_mul]
    exact Nat.zero_le _
  forgets _ := rfl
  carried_lt_iff := by
    have hpos : 0 < door.unitTime.toNat := UInt32.lt_iff_toNat_lt.mp door.unitTime_pos
    exact iff_of_true hpos fun hearly => h hearly.1

/-- A travelling door takes the units that it has the time for, up to its target,
    and carries the change. -/
theorem advances_of_travel {door : Door} {elapsed : Millis} (h : door.isMoving = true)
    (hfits : door.carried.toNat + elapsed.toNat ≤ Millis.longest) :
    ∃ after, door.advance elapsed = .ok after ∧ door.Advances elapsed after := by
  have hpos : 0 < door.unitTime.toNat := UInt32.lt_iff_toNat_lt.mp door.unitTime_pos
  have htime : (door.carried + elapsed).toNat = door.carried.toNat + elapsed.toNat := by
    rw [Millis.longest, UInt32.size] at hfits
    rw [UInt32.toNat_add]
    omega
  have hunits : door.unitsIn (door.carried + elapsed)
      = min ((door.carried.toNat + elapsed.toNat) / door.unitTime.toNat) door.distance := by
    rw [unitsIn, htime]
  have hpaid : door.unitsIn (door.carried + elapsed) * door.unitTime.toNat
      ≤ door.carried.toNat + elapsed.toNat := by
    rw [hunits]
    calc min ((door.carried.toNat + elapsed.toNat) / door.unitTime.toNat) door.distance
          * door.unitTime.toNat
        ≤ (door.carried.toNat + elapsed.toNat) / door.unitTime.toNat * door.unitTime.toNat :=
          Nat.mul_le_mul_right _ (Nat.min_le_left _ _)
      _ ≤ door.carried.toNat + elapsed.toNat := Nat.div_mul_le_self _ _
  have hchange : (UInt32.ofNat ((door.carried + elapsed).toNat
        - door.unitsIn (door.carried + elapsed) * door.unitTime.toNat)).toNat
      = door.carried.toNat + elapsed.toNat
        - door.unitsIn (door.carried + elapsed) * door.unitTime.toNat := by
    rw [UInt32.toNat_ofNat_of_lt', htime]
    exact Nat.lt_of_le_of_lt (Nat.sub_le _ _) (door.carried + elapsed).toNat_lt_size
  have hleft : door.unitsIn (door.carried + elapsed) ≤ door.distance := by
    rw [hunits]
    exact Nat.min_le_right _ _
  rcases positionAfter_of_le hleft with ⟨hgap, hway⟩
  rw [advance, if_pos h, Millis.sum?, if_pos hfits]
  refine ⟨_, rfl, rfl, rfl, hway, ?_, fun heq => absurd heq (isMoving_iff.mp h), ?_⟩
  · simp only [hgap, hchange]
    omega
  · simp only [hchange]
    rw [hunits, change_lt_iff hpos, ArrivesEarly, and_iff_right h]

/-- Every advance without a fault is of one of these two sorts. -/
theorem advances_of_ok {door after : Door} {elapsed : Millis}
    (h : door.advance elapsed = .ok after) : door.Advances elapsed after := by
  by_cases hmoving : door.isMoving = true
  · by_cases hfits : door.carried.toNat + elapsed.toNat ≤ Millis.longest
    · rcases advances_of_travel hmoving hfits with ⟨other, hother, hadvances⟩
      rw [h, Except.ok.injEq] at hother
      exact hother ▸ hadvances
    · rw [advance, if_pos hmoving, Millis.sum?, if_neg hfits] at h
      exact absurd h (by simp only [Except.map, reduceCtorEq, not_false_eq_true])
  · rw [advance, if_neg hmoving, Except.ok.injEq] at h
    exact h ▸ advances_of_rest hmoving elapsed

theorem advances_of_fits {door : Door} {elapsed : Millis}
    (hfits : door.position ≠ door.target →
      door.carried.toNat + elapsed.toNat ≤ Millis.longest) :
    ∃ after, door.advance elapsed = .ok after ∧ door.Advances elapsed after := by
  by_cases hmoving : door.isMoving = true
  · exact advances_of_travel hmoving (hfits (isMoving_iff.mp hmoving))
  · exact ⟨_, by rw [advance, if_neg hmoving], advances_of_rest hmoving elapsed⟩

-- There is only one place on the way of a door at rest.
theorem position_of_rest {before after : Door} {elapsed : Millis}
    (h : before.Advances elapsed after) (hrest : before.position = before.target) :
    after.position = before.position := by
  have hway := h.isOnWay
  rw [← hrest] at hway
  rcases hway with ⟨hge, hle⟩ | ⟨hge, hle⟩
  all_goals exact UInt8.le_antisymm hle hge

/-- A door that carries less than a unit travels at its speed, up to one unit
    begun. -/
theorem gap_le_of_advances {before after : Door} {elapsed : Millis}
    (h : before.Advances elapsed after)
    (hcarried : before.carried.toNat < before.unitTime.toNat) :
    gap before.position after.position
      ≤ (elapsed.toNat + before.unitTime.toNat - 1) / before.unitTime.toNat := by
  have hpays := h.pays
  rw [Nat.le_div_iff_mul_le (Nat.lt_of_le_of_lt (Nat.zero_le _) hcarried)]
  omega

/-! ## What holds after a run -/

/-- The door and its target are within the way of a door. -/
structure IsInRange (door : Door) : Prop where
  position_le : door.position ≤ DoorStatus.maxPosition
  target_le : door.target ≤ DoorStatus.maxPosition

/-- A place on the way lies between two places in range. -/
theorem isInRange_of_advances {before after : Door} {elapsed : Millis} (h : before.IsInRange)
    (hadvances : before.Advances elapsed after) : after.IsInRange where
  position_le := by
    rcases hadvances.isOnWay with ⟨_, hle⟩ | ⟨_, hle⟩
    · exact UInt8.le_trans hle h.target_le
    · exact UInt8.le_trans hle h.position_le
  target_le := hadvances.target_eq ▸ h.target_le

theorem isInRange_apply {door : Door} (h : door.IsInRange) (action : Action) :
    (door.apply action).IsInRange := by
  cases action with
  | stop => exact ⟨h.position_le, h.position_le⟩
  | toggleLight => exact ⟨h.position_le, h.target_le⟩
  | openDoor => exact ⟨h.position_le, UInt8.le_refl _⟩
  | closeDoor => exact ⟨h.position_le, (by decide : (0 : UInt8) ≤ DoorStatus.maxPosition)⟩
  | halfOpen => exact ⟨h.position_le, (by decide : halfOpenPosition ≤ DoorStatus.maxPosition)⟩
  | vent => exact ⟨h.position_le, (by decide : ventPosition ≤ DoorStatus.maxPosition)⟩

-- No action looks at the time carried. So what a door has kept for too long stays
-- with it when it is sent on.
theorem apply_keeps (door : Door) (action : Action) :
    (door.apply action).position = door.position ∧ (door.apply action).carried = door.carried ∧
      (door.apply action).unitTime = door.unitTime := by
  cases action <;> exact ⟨rfl, rfl, rfl⟩

theorem unitTime_call {door after : Door} {call : Call} (h : door.call call = .ok after) :
    after.unitTime = door.unitTime := by
  cases call with
  | ask action => exact Except.ok.inj h ▸ (apply_keeps door action).2.2
  | pass elapsed => exact (advances_of_ok h).unitTime_eq

theorem isInRange_call {door after : Door} {call : Call} (hrange : door.IsInRange)
    (h : door.call call = .ok after) : after.IsInRange := by
  cases call with
  | ask action => exact Except.ok.inj h ▸ isInRange_apply hrange action
  | pass elapsed => exact isInRange_of_advances hrange (advances_of_ok h)

-- An action moves nothing and costs nothing, so it is the advances that pay.
theorem pays_call {door after : Door} {call : Call} (h : door.call call = .ok after) :
    gap door.position after.position * door.unitTime.toNat + after.carried.toNat
      ≤ door.carried.toNat + call.time := by
  cases call with
  | ask action =>
      rcases apply_keeps door action with ⟨hposition, hcarried, _⟩
      rw [← Except.ok.inj h, hposition, hcarried, gap_self, Nat.zero_mul, Nat.zero_add]
      exact Nat.le_add_right _ _
  | pass elapsed => exact (advances_of_ok h).pays

theorem unitTime_run {start door : Door} {calls : List Call} (h : start.run calls = .ok door) :
    door.unitTime = start.unitTime := by
  induction calls generalizing start with
  | nil => rw [Except.ok.inj h]
  | cons call rest ih =>
      rcases run_cons.mp h with ⟨next, hcall, hrest⟩
      exact (ih hrest).trans (unitTime_call hcall)

/-- A door stays within its way, by induction over the calls. -/
theorem isInRange_run {start door : Door} {calls : List Call} (hrange : start.IsInRange)
    (h : start.run calls = .ok door) : door.IsInRange := by
  induction calls generalizing start with
  | nil => exact Except.ok.inj h ▸ hrange
  | cons call rest ih =>
      rcases run_cons.mp h with ⟨next, hcall, hrest⟩
      exact ih (isInRange_call hrange hcall) hrest

/-- Over a run no time is counted twice: what has passed pays for the whole way. -/
theorem way_le {start door : Door} {calls : List Call} (h : start.run calls = .ok door) :
    start.way calls * start.unitTime.toNat + door.carried.toNat
      ≤ start.carried.toNat + timeOf calls := by
  induction calls generalizing start with
  | nil =>
      rw [← Except.ok.inj h, way, Nat.zero_mul, Nat.zero_add]
      exact Nat.le_add_right _ _
  | cons call rest ih =>
      rcases run_cons.mp h with ⟨next, hcall, hrest⟩
      have hpays := pays_call hcall
      have hlater := ih hrest
      rw [unitTime_call hcall] at hlater
      rw [way, hcall, timeOf]
      simp only [Nat.add_mul]
      omega

/-- The last advance of a run was one that left time for units beyond the target. -/
inductive IsAhead (start : Door) : List Call → Prop
  /-- It was the last call. -/
  | pass {calls : List Call} {before : Door} {elapsed : Millis}
    (hrun : start.run calls = .ok before) (hearly : before.ArrivesEarly elapsed) :
    IsAhead start (calls ++ [.pass elapsed])
  /-- Actions have been asked for since. -/
  | ask {calls : List Call} (action : Action) (h : IsAhead start calls) :
    IsAhead start (calls ++ [.ask action])

/-- A door carries the time of a unit or more just behind such an advance. -/
theorem isAhead_iff {start door : Door} {calls : List Call}
    (hcarried : start.carried.toNat < start.unitTime.toNat) (h : start.run calls = .ok door) :
    start.IsAhead calls ↔ ¬door.carried.toNat < door.unitTime.toNat := by
  constructor
  -- What is carried for too long comes from an advance and is kept by the actions
  -- since.
  · intro hahead
    induction hahead generalizing door with
    | pass hrun hearly =>
        rcases run_concat.mp h with ⟨before, hbefore, hpass⟩
        rw [hrun, Except.ok.injEq] at hbefore
        have hadvances := advances_of_ok hpass
        rw [hadvances.unitTime_eq, hadvances.carried_lt_iff, ← hbefore, not_not]
        exact hearly
    | ask action _ ih =>
        rcases run_concat.mp h with ⟨before, hbefore, hask⟩
        rcases apply_keeps before action with ⟨_, hsame, hunit⟩
        rw [← Except.ok.inj hask, hsame, hunit]
        exact ih hbefore
  -- The last call settles it, so the run is taken apart from its end.
  · intro hnot
    induction calls using List.reverseRecOn generalizing door with
    | nil => exact absurd (Except.ok.inj h ▸ hcarried) hnot
    | append_singleton calls call ih =>
        rcases run_concat.mp h with ⟨before, hbefore, hcall⟩
        cases call with
        | ask action =>
            rcases apply_keeps before action with ⟨_, hsame, hunit⟩
            rw [← Except.ok.inj hcall, hsame, hunit] at hnot
            exact .ask action (ih hbefore hnot)
        | pass elapsed =>
            have hadvances := advances_of_ok hcall
            rw [hadvances.unitTime_eq, hadvances.carried_lt_iff, not_not] at hnot
            exact .pass hbefore hnot

/-! ## The speed -/

/-- How far an advance moves a door, behind any run of a new one. If the time carried
    and the time elapsed have a sum, as far as the door needs one, it brings the door
    nearer to its target, within the way of the door and never past the target. It
    moves the door by no more units than begin in the time elapsed, and leaves it with
    less time than a unit takes. The first fails only if the last advance of the run
    was early at the target and the door has been sent on since, and the second only
    if this one is early at the target. A door at rest keeps no time, and in the whole
    run no more time is spent on units than has passed. -/
theorem advance_keepsSpeed (unitTime : Millis) (calls : List Call) (elapsed : Millis)
    {door : Door} (hrun : (new unitTime).run calls = .ok door)
    (hfits : door.position ≠ door.target →
      door.carried.toNat + elapsed.toNat ≤ Millis.longest) :
    let start := new unitTime
    let unit := (max unitTime 1).toNat
    ∃ after, door.advance elapsed = .ok after ∧ after.target = door.target ∧
      (door.position ≤ after.position ∧ after.position ≤ door.target ∨
        door.target ≤ after.position ∧ after.position ≤ door.position) ∧
      after.position ≤ 200 ∧ after.target ≤ 200 ∧
      (door.position = door.target ∨ ¬start.IsAhead calls →
        gap door.position after.position ≤ (elapsed.toNat + unit - 1) / unit) ∧
      (¬start.IsAhead (calls ++ [.pass elapsed]) → after.carried.toNat < unit) ∧
      (door.position = door.target → after.carried = 0) ∧
      start.way (calls ++ [.pass elapsed]) * unit ≤ timeOf (calls ++ [.pass elapsed]) := by
  intro start unit
  have hpos : start.carried.toNat < start.unitTime.toNat :=
    UInt32.lt_iff_toNat_lt.mp start.unitTime_pos
  have hsame : door.unitTime = start.unitTime := unitTime_run hrun
  have hunit : unit = door.unitTime.toNat := congrArg UInt32.toNat hsame.symm
  have hrange : start.IsInRange :=
    ⟨(by decide : (0 : UInt8) ≤ DoorStatus.maxPosition),
      (by decide : (0 : UInt8) ≤ DoorStatus.maxPosition)⟩
  rcases advances_of_fits hfits with ⟨after, hadvance, hadvances⟩
  have hlater : start.run (calls ++ [.pass elapsed]) = .ok after :=
    run_concat.mpr ⟨door, hrun, hadvance⟩
  have hafter := isInRange_run hrange hlater
  have hway := way_le hlater
  refine ⟨after, hadvance, hadvances.target_eq, hadvances.isOnWay, hafter.position_le,
    hafter.target_le, ?_, fun hnot => ?_, hadvances.forgets, ?_⟩
  · rintro (hrest | hnot)
    · rw [position_of_rest hadvances hrest, gap_self]
      exact Nat.zero_le _
    · rw [isAhead_iff hpos hrun, not_not] at hnot
      rw [hunit]
      exact gap_le_of_advances hadvances hnot
  · rw [isAhead_iff hpos hlater, not_not, hadvances.unitTime_eq] at hnot
    rw [hunit]
    exact hnot
  · -- A new door carries nothing, so only the time of the run is there to be spent.
    have hnone : start.carried.toNat = 0 := rfl
    have hstart : unit = start.unitTime.toNat := rfl
    rw [hstart]
    omega

/-- A door of ten milliseconds a unit that has been looked at late, but has not
    reached the venting place yet. It moves by no more than a unit in eight
    milliseconds. -/
theorem advance_keepsSpeed_travelling :
    ∃ door after : Door,
      (new 10).run [.ask .openDoor, .pass 77, .ask .vent] = .ok door ∧
        door.position = 7 ∧ door.carried = 7 ∧ door.advance 8 = .ok after ∧
        after.position = 8 ∧ after.carried = 5 ∧
        gap door.position after.position ≤ (8 + 10 - 1) / 10 := by
  have hrun : (new 10).run [.ask .openDoor, .pass 77, .ask .vent]
      = .ok { new 10 with position := 7, target := 20, venting := true, carried := 7 } := by
    decide
  have hahead : ¬(new 10).IsAhead [.ask .openDoor, .pass 77, .ask .vent] := by
    rw [isAhead_iff (by decide) hrun]
    decide
  rcases advance_keepsSpeed 10 _ 8 hrun (fun _ => by decide) with
    ⟨after, hadvance, _, _, _, _, hslow, _⟩
  have hafter : after
      = { new 10 with position := 8, target := 20, venting := true, carried := 5 } :=
    Except.ok.inj (hadvance.symm.trans (by decide))
  exact ⟨_, after, hrun, rfl, rfl, hadvance, by rw [hafter], by rw [hafter], hslow (.inr hahead)⟩

/-- A door that has had twice the time for its way to the venting place, and is then
    asked to close. It is closed before any more time has passed. -/
theorem not_keepsSpeed :
    ∃ early after : Door,
      (new 10).run [.ask .vent, .pass 400] = .ok early ∧ early.position = 20 ∧
        ¬early.carried.toNat < 10 ∧
        (early.apply .closeDoor).advance 0 = .ok after ∧ after.position = 0 ∧
        ¬gap early.position after.position ≤ ((0 : Millis).toNat + 10 - 1) / 10 := by
  refine ⟨{ new 10 with position := 20, target := 20, venting := true, carried := 200 },
    new 10, ?_⟩
  decide

end Door

end DoorBus
