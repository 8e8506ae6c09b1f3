import DoorBus.Proofs.Master.Outcome

/-!
# The Link Is a Function of the Outcomes

The link keeps a flag and a count that saturates. Both are moved a step at a
time, so what they say about the past is not to be seen from a single step.
This module gives them in closed form, over all outcomes since the start: how
many failures there were since the last success, and whether these are few
enough for the link to be up.

A change of the link is then a difference of two neighbouring values of the
closed form, which is what the notes of it are compared with.

## Main definitions

* `failuresSince`: Number of failures since the last success.
* `holdUp`: Whether outcomes leave the link up.
* `LinkChange.between`: The change from one state of the link to another.
* `Link.afterAll`: The link after some outcomes.
* `Link.Reflects`: The link stands as the outcomes say.

## Theorems

* `failuresSince_concat`, `holdUp_concat_of_success`, `holdUp_concat_of_failure`:
  One more outcome.
* `reflects_after`: One more outcome keeps the link in step.
* `reflects_afterAll`: The link stands as the outcomes say, always.
* `change_of_reflects`: A change is a difference of the closed form.
-/

namespace DoorBus

namespace Outcome

/-- Number of failures since the last success, or since the start. -/
def failuresSince (outcomes : List Outcome) : Nat :=
  (outcomes.reverse.takeWhile fun outcome => !outcome.isSuccess).length

/-- Whether outcomes leave the link up: one of them was a success, and fewer
    failures than the threshold followed. A threshold of zero works like
    one. -/
def holdUp (threshold : UInt8) (outcomes : List Outcome) : Bool :=
  outcomes.any isSuccess && failuresSince outcomes < max 1 threshold.toNat

/-- One outcome more starts the count again, or adds to it. -/
theorem failuresSince_concat (outcomes : List Outcome) (outcome : Outcome) :
    failuresSince (outcomes ++ [outcome])
      = if outcome.isSuccess then 0 else failuresSince outcomes + 1 := by
  rw [failuresSince, List.reverse_append, List.reverse_singleton, List.singleton_append,
    List.takeWhile_cons]
  cases outcome.isSuccess with
  | true => rfl
  | false => rfl

theorem any_isSuccess_concat (outcomes : List Outcome) (outcome : Outcome) :
    (outcomes ++ [outcome]).any isSuccess = (outcomes.any isSuccess || outcome.isSuccess) := by
  rw [List.any_append, List.any_cons, List.any_nil, Bool.or_false]

/-- A success leaves the link up whatever came before, since no threshold is
    below one. -/
theorem holdUp_concat_of_success {outcome : Outcome} (h : outcome.isSuccess = true)
    (threshold : UInt8) (outcomes : List Outcome) :
    holdUp threshold (outcomes ++ [outcome]) = true := by
  rw [holdUp, any_isSuccess_concat, failuresSince_concat, if_pos h, h, Bool.or_true,
    Bool.true_and, decide_eq_true_eq]
  omega

/-- A failure leaves the link up if it was up and can bear one more. -/
theorem holdUp_concat_of_failure {outcome : Outcome} (h : outcome.isSuccess = false)
    (threshold : UInt8) (outcomes : List Outcome) :
    holdUp threshold (outcomes ++ [outcome])
      = (holdUp threshold outcomes && failuresSince outcomes + 1 < max 1 threshold.toNat) := by
  have hfailure : ¬outcome.isSuccess = true := by
    rw [h]
    exact Bool.noConfusion
  rw [holdUp, holdUp, any_isSuccess_concat, failuresSince_concat, if_neg hfailure, h,
    Bool.or_false, Bool.and_assoc, ← Bool.decide_and]
  -- Bearing one failure more includes bearing those there were.
  congr 2
  rw [eq_iff_iff]
  omega

end Outcome

/-- The change from one state of the link to another. -/
def LinkChange.between : Bool → Bool → LinkChange
  | false, true => connected
  | true, false => disconnected
  | _, _ => unchanged

namespace Link

open Outcome

/-- The link after some outcomes, oldest one first. -/
def afterAll (link : Link) (outcomes : List Outcome) : Link :=
  outcomes.foldl (fun link outcome => (link.after outcome).1) link

theorem afterAll_append (link : Link) (xs ys : List Outcome) :
    link.afterAll (xs ++ ys) = (link.afterAll xs).afterAll ys :=
  List.foldl_append

/-- The link stands as the outcomes since the start say. -/
structure Reflects (link : Link) (threshold : UInt8) (outcomes : List Outcome) : Prop where
  threshold_eq : link.threshold = max threshold 1
  failures_eq : link.failures.toNat = min 255 (failuresSince outcomes)
  isUp_eq : link.isUp = holdUp threshold outcomes

/-- A new link is down and has counted nothing. -/
theorem reflects_new (threshold : UInt8) : (Link.new threshold).Reflects threshold [] where
  threshold_eq := rfl
  failures_eq := rfl
  isUp_eq := rfl

/-- The largest of two bytes is that of their numbers. -/
theorem toNat_max_one (threshold : UInt8) : (max threshold 1).toNat = max 1 threshold.toNat := by
  change (if threshold ≤ 1 then 1 else threshold).toNat = _
  by_cases h : threshold ≤ 1
  · have hle : threshold.toNat ≤ 1 := UInt8.le_iff_toNat_le.mp h
    rw [if_pos h, Nat.max_eq_left hle]
    rfl
  · have hlt : ¬threshold.toNat ≤ 1 := fun hle => h (UInt8.le_iff_toNat_le.mpr hle)
    rw [if_neg h]
    omega

/-- The count after a failure stops at its largest value. -/
theorem toNat_saturating_succ (failures : UInt8) :
    (if failures = 255 then 255 else failures + 1).toNat = min 255 (failures.toNat + 1) := by
  have hlt := failures.toNat_lt
  by_cases h : failures = 255
  · rw [if_pos h, h]
    rfl
  · have hne : failures.toNat ≠ 255 := fun heq => h (UInt8.toNat_inj.mp heq)
    rw [if_neg h, UInt8.toNat_add]
    have hone : (1 : UInt8).toNat = 1 := rfl
    rw [hone]
    omega

/-- A success keeps the link in step: its count starts again where that of the
    outcomes does. -/
theorem reflects_succeed {link : Link} {threshold : UInt8} {outcomes : List Outcome}
    {outcome : Outcome} (h : link.Reflects threshold outcomes)
    (hsuccess : outcome.isSuccess = true) :
    link.succeed.1.Reflects threshold (outcomes ++ [outcome]) where
  threshold_eq := h.threshold_eq
  failures_eq := by
    rw [failuresSince_concat, if_pos hsuccess]
    rfl
  isUp_eq := (holdUp_concat_of_success hsuccess threshold outcomes).symm

theorem change_succeed {link : Link} {threshold : UInt8} {outcomes : List Outcome}
    {outcome : Outcome} (h : link.Reflects threshold outcomes)
    (hsuccess : outcome.isSuccess = true) :
    link.succeed.2
      = .between (holdUp threshold outcomes) (holdUp threshold (outcomes ++ [outcome])) := by
  rw [holdUp_concat_of_success hsuccess, ← h.isUp_eq, succeed]
  cases link.isUp with
  | true => rfl
  | false => rfl

/-- Whether a failure takes the link down can be told from the count although
    it saturates, since no threshold is larger than where it stops. -/
theorem threshold_le_iff {link : Link} {threshold : UInt8} {outcomes : List Outcome}
    (h : link.Reflects threshold outcomes) :
    link.threshold ≤ (if link.failures = 255 then 255 else link.failures + 1)
      ↔ ¬failuresSince outcomes + 1 < max 1 threshold.toNat := by
  have hlt := threshold.toNat_lt
  -- Both sides compare with the threshold, on the left cut off at 255.
  rw [UInt8.le_iff_toNat_le, h.threshold_eq, toNat_max_one, toNat_saturating_succ, h.failures_eq]
  omega

theorem fail_eq {link : Link} {threshold : UInt8} {outcomes : List Outcome}
    {outcome : Outcome} (h : link.Reflects threshold outcomes)
    (hfailure : outcome.isSuccess = false) :
    link.fail = ({ link with
        failures := if link.failures = 255 then 255 else link.failures + 1
        isUp := holdUp threshold (outcomes ++ [outcome]) },
      .between (holdUp threshold outcomes) (holdUp threshold (outcomes ++ [outcome]))) := by
  rw [holdUp_concat_of_failure hfailure, ← h.isUp_eq, fail]
  simp only [threshold_le_iff h]
  by_cases hup : link.isUp = true
  · by_cases hbears : failuresSince outcomes + 1 < max 1 threshold.toNat
    · rw [if_neg (fun hdown => hdown.2 hbears), decide_eq_true hbears, hup]
      rfl
    · rw [if_pos ⟨hup, hbears⟩, decide_eq_false hbears, hup]
      rfl
  · -- A link that is down stays so, and the outcomes agree.
    rw [if_neg (fun hdown => hup hdown.1)]
    rw [Bool.not_eq_true] at hup
    rw [hup]
    rfl

/-- A failure keeps the link in step. The count of the link stops at its largest
    value, and that of the outcomes is cut off there. -/
theorem reflects_fail {link : Link} {threshold : UInt8} {outcomes : List Outcome}
    {outcome : Outcome} (h : link.Reflects threshold outcomes)
    (hfailure : outcome.isSuccess = false) :
    link.fail.1.Reflects threshold (outcomes ++ [outcome]) := by
  rw [fail_eq h hfailure]
  refine ⟨h.threshold_eq, ?_, rfl⟩
  rw [toNat_saturating_succ, h.failures_eq, failuresSince_concat, hfailure,
    if_neg Bool.false_ne_true]
  omega

/-- One more outcome keeps the link in step. -/
theorem reflects_after {link : Link} {threshold : UInt8} {outcomes : List Outcome}
    (h : link.Reflects threshold outcomes) (outcome : Outcome) :
    (link.after outcome).1.Reflects threshold (outcomes ++ [outcome]) := by
  unfold after
  by_cases hsuccess : outcome.isSuccess = true
  · rw [if_pos hsuccess]
    exact reflects_succeed h hsuccess
  · rw [if_neg hsuccess]
    exact reflects_fail h (Bool.eq_false_iff.mpr hsuccess)

/-- A change of the link is a difference between two states of it. -/
theorem change_of_reflects {link : Link} {threshold : UInt8} {outcomes : List Outcome}
    (h : link.Reflects threshold outcomes) (outcome : Outcome) :
    (link.after outcome).2
      = .between (holdUp threshold outcomes) (holdUp threshold (outcomes ++ [outcome])) := by
  unfold after
  by_cases hsuccess : outcome.isSuccess = true
  · rw [if_pos hsuccess]
    exact change_succeed h hsuccess
  · rw [if_neg hsuccess, fail_eq h (Bool.eq_false_iff.mpr hsuccess)]

/-- The link stands as the outcomes say, whatever they are. -/
theorem reflects_afterAll {link : Link} {threshold : UInt8} {past : List Outcome}
    (h : link.Reflects threshold past) (outcomes : List Outcome) :
    (link.afterAll outcomes).Reflects threshold (past ++ outcomes) := by
  -- The past grows at its end while the outcomes are used up from the front.
  induction outcomes generalizing link past with
  | nil => rwa [List.append_nil]
  | cons outcome outcomes ih =>
      have hrest := ih (reflects_after h outcome)
      rwa [List.append_assoc, List.singleton_append] at hrest

end Link

end DoorBus
