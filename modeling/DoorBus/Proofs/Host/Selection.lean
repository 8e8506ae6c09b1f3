import Mathlib.Data.List.Induction
import DoorBus.Host.Firmware

/-!
# When Two Agents Get the Bus

One agent is to run the bus, and never two. Each call that chooses one sees to
it that the other has not been chosen, and then writes its own choice. But
another task may come in between. If a call for the bridge and a call for a
mailbox both look before either of them writes, then both find nothing against
it, both write, and both say that they were granted the bus. A bridge is
claimed by a single access that looks and writes at once, but that access looks
at the word of the bridges. The other word was looked at before.

So two agents can be chosen, and this module shows that it happens in this way
only. It follows any number of calls, one access at a time and in any order.
Calls of both kinds are granted just if at some time a call for a bridge was
about to claim the bus while a call for a mailbox was about to store it. From
there on nothing helps, as neither of them looks again. Calls that are made one
after the other do not get there, and choose one agent at most.

The invariant speaks of sides. A side is taken if its word has been written, or
if a call is about to write it, and once taken it stays so. A call that has
looked takes its side only while the other word is empty. If the other side is
taken nonetheless, then by a call that is about to write.

## Main definitions

* `SelectionCall`: A call of either kind.
* `SelectionCall.Access`: All that the next access of a call can do.
* `Crowd`: Calls of many tasks at one selection.
* `Crowd.turn`, `Crowd.run`: What happens there, one access at a time.
* `Crowd.bridgeSide`, `Crowd.regionSide`: A side is taken.
* `Crowd.isContested`, `Crowd.overlaps`: Both are, and both by calls that are
  about to write.
* `Crowd.Passes`: What a turn can do to the sides.
* `Crowd.Agrees`: The words are those of the calls that were granted.
* `Crowd.OneByOne`: Calls that are made one after the other.

## Theorems

* `any_set`, `any_set_of_eq`: What a list has when an entry is replaced.
* `access_step`: An access does what it can do.
* `passes_turn`: So does a turn, as far as the sides are concerned.
* `isContested_iff`: Both sides are taken just if calls have overlapped.
* `agrees_run`: The words go with the answers of the calls.
* `run_start`, `run_attach`: A call that nobody interrupts.
* `exclusive_of_oneByOne`: One after the other, calls choose one agent at most.
* `granted_of_overlap`: Two agents are chosen just if calls have overlapped.
* `granted_of_overlap_three`, `granted_twice`: Calls that overlap.
-/

namespace DoorBus

variable {β ρ : Type}

/-- A call of either kind. -/
inductive SelectionCall (β ρ : Type)
  /-- A call that makes a bridge run the bus. -/
  | start (call : StartCall β)
  /-- A call that points the host to a mailbox. -/
  | attach (call : AttachCall ρ)
  deriving DecidableEq

namespace SelectionCall

/-- The next access of a call. -/
def step (selection : Selection β ρ) : SelectionCall β ρ → Selection β ρ × SelectionCall β ρ
  | start call => ((call.step selection).1, start (call.step selection).2)
  | attach call => ((call.step selection).1, attach (call.step selection).2)

/-- Whether the call is about to claim the bus for a bridge. -/
def isClaim : SelectionCall β ρ → Bool
  | start (.claim _) => true
  | _ => false

/-- Whether the call is about to point the host to a mailbox. -/
def isStore : SelectionCall β ρ → Bool
  | attach (.store _) => true
  | _ => false

/-- Whether the bridge was granted the bus. -/
def isStarted : SelectionCall β ρ → Bool
  | start call => call.granted
  | attach _ => false

/-- Whether the mailbox was attached. -/
def isAttached : SelectionCall β ρ → Bool
  | start _ => false
  | attach call => call.granted

end SelectionCall

/-- Calls of many tasks at one selection. -/
structure Crowd (β ρ : Type) where
  /-- Who runs the bus. -/
  selection : Selection β ρ := {}
  /-- The calls that were made, first ones first. -/
  calls : List (SelectionCall β ρ) := []
  deriving DecidableEq

/-- Something that happens in a crowd. -/
inductive Turn (β ρ : Type)
  /-- A task calls for a bridge. -/
  | start (bridge : Option β)
  /-- A task calls for a mailbox. -/
  | attach (region : Option ρ)
  /-- One of the calls makes its next access. -/
  | go (index : Nat)

namespace Crowd

/-- One turn. -/
def turn (crowd : Crowd β ρ) : Turn β ρ → Crowd β ρ
  | .start bridge => { crowd with calls := crowd.calls ++ [.start (.enter bridge)] }
  | .attach region => { crowd with calls := crowd.calls ++ [.attach (.enter region)] }
  | .go index =>
    match crowd.calls[index]? with
    | some call =>
      { selection := (call.step crowd.selection).1
        calls := crowd.calls.set index (call.step crowd.selection).2 }
    | none => crowd

/-- Turns, one after the other. -/
def run (crowd : Crowd β ρ) (turns : List (Turn β ρ)) : Crowd β ρ :=
  turns.foldl turn crowd

/-- Whether a bridge runs the bus, or a call is about to claim it. -/
def bridgeSide (crowd : Crowd β ρ) : Bool :=
  crowd.selection.bridge.isSome || crowd.calls.any SelectionCall.isClaim

/-- Whether a mailbox is attached, or a call is about to do so. -/
def regionSide (crowd : Crowd β ρ) : Bool :=
  crowd.selection.region.isSome || crowd.calls.any SelectionCall.isStore

/-- Whether both sides are taken. -/
def isContested (crowd : Crowd β ρ) : Bool :=
  crowd.bridgeSide && crowd.regionSide

/-- Whether a call for a bridge and a call for a mailbox have both looked, and
    neither has written. -/
def overlaps (crowd : Crowd β ρ) : Bool :=
  crowd.calls.any SelectionCall.isClaim && crowd.calls.any SelectionCall.isStore

/-- Whether no call is about to write. -/
def isQuiet (crowd : Crowd β ρ) : Bool :=
  !crowd.calls.any SelectionCall.isClaim && !crowd.calls.any SelectionCall.isStore

theorem run_concat (crowd : Crowd β ρ) (turns : List (Turn β ρ)) (turn : Turn β ρ) :
    crowd.run (turns ++ [turn]) = (crowd.run turns).turn turn :=
  List.foldl_append

end Crowd

/-! ## Accesses -/

theorem any_of_getElem? {α : Type} {entries : List α} {index : Nat} {entry : α} {p : α → Bool}
    (h : entries[index]? = some entry) (hp : p entry = true) :
    entries.any p = true :=
  List.any_eq_true.mpr ⟨entry, List.mem_of_getElem? h, hp⟩

/-- What a list has when an entry is replaced by one that has no less. -/
theorem any_set {α : Type} {entries : List α} {index : Nat} {old : α} (p : α → Bool) (new : α)
    (h : entries[index]? = some old) (hp : p old = true → p new = true) :
    (entries.set index new).any p = (entries.any p || p new) := by
  induction entries generalizing index with
  | nil => exact absurd h (by simp only [List.getElem?_nil, reduceCtorEq, not_false_eq_true])
  | cons entry entries ih =>
      cases index with
      | zero =>
          rw [List.getElem?_cons_zero, Option.some.injEq] at h
          rw [List.set_cons_zero, List.any_cons, List.any_cons, h]
          by_cases hold : p old = true
          · rw [hp hold, Bool.or_true, Bool.true_or]
          · rw [Bool.eq_false_iff.mpr hold, Bool.false_or, Bool.or_comm]
      | succ index =>
          rw [List.getElem?_cons_succ] at h
          rw [List.set_cons_succ, List.any_cons, List.any_cons, ih h, Bool.or_assoc]

/-- What a list has when an entry is replaced by one that has the same. -/
theorem any_set_of_eq {α : Type} {entries : List α} {index : Nat} {old : α} (p : α → Bool)
    (new : α) (h : entries[index]? = some old) (hp : p new = p old) :
    (entries.set index new).any p = entries.any p := by
  rw [any_set p new h fun hold => hp.trans hold, hp]
  by_cases hold : p old = true
  · rw [any_of_getElem? h hold, Bool.true_or]
  · rw [Bool.eq_false_iff.mpr hold, Bool.or_false]

namespace SelectionCall

/-- All that the next access of a call can do. -/
inductive Access (selection : Selection β ρ) :
    SelectionCall β ρ → Selection β ρ × SelectionCall β ρ → Prop
  /-- A call for a bridge looks, and goes on. -/
  | looksForBridge (bridge : β) (hnone : selection.region = none) :
    Access selection (start (.look bridge)) (selection, start (.claim bridge))
  /-- A call for a mailbox looks, and goes on. -/
  | looksForRegion (region : ρ) (hnone : selection.bridge = none) :
    Access selection (attach (.look region)) (selection, attach (.store region))
  /-- A bridge is granted the bus. -/
  | claims (bridge : β) (hnone : selection.bridge = none) :
    Access selection (start (.claim bridge))
      ({ selection with bridge := some bridge }, start (.done true))
  /-- A mailbox is attached. -/
  | stores (region : ρ) :
    Access selection (attach (.store region))
      ({ selection with region := some region }, attach (.done true))
  /-- A call is refused, or has been over before. -/
  | ends {call ended : SelectionCall β ρ}
    (htaken : call.isClaim = true → selection.bridge.isSome = true)
    (hnot : call.isStore = false) (hclaim : ended.isClaim = false)
    (hstore : ended.isStore = false) (hstarted : ended.isStarted = call.isStarted)
    (hattached : ended.isAttached = call.isAttached) :
    Access selection call (selection, ended)

/-- By cases on where the call stands and on the two words, of which each access
    only sees one. -/
theorem access_step (selection : Selection β ρ) (call : SelectionCall β ρ) :
    Access selection call (call.step selection) := by
  rcases selection with ⟨bridge?, region?⟩
  cases call with
  | start call =>
      cases call with
      | look bridge =>
          cases region? with
          | none => exact .looksForBridge bridge rfl
          | some region => exact .ends (absurd · Bool.false_ne_true) rfl rfl rfl rfl rfl
      | claim bridge =>
          cases bridge? with
          | none => exact .claims bridge rfl
          | some other => exact .ends (fun _ => rfl) rfl rfl rfl rfl rfl
      | done granted => exact .ends (absurd · Bool.false_ne_true) rfl rfl rfl rfl rfl
  | attach call =>
      cases call with
      | look region =>
          cases bridge? with
          | none => exact .looksForRegion region rfl
          | some bridge => exact .ends (absurd · Bool.false_ne_true) rfl rfl rfl rfl rfl
      | store region => exact .stores region
      | done granted => exact .ends (absurd · Bool.false_ne_true) rfl rfl rfl rfl rfl

end SelectionCall

/-! ## Sides -/

namespace Crowd

variable {crowd : Crowd β ρ}

theorem any_enter (calls : List (SelectionCall β ρ)) {call : SelectionCall β ρ}
    {p : SelectionCall β ρ → Bool} (h : p call = false) :
    (calls ++ [call]).any p = calls.any p := by
  rw [List.any_append, List.any_cons, List.any_nil, h, Bool.false_or, Bool.or_false]

/-- A turn of a call is its next access, and nobody else moves. -/
theorem turn_go {index : Nat} {call : SelectionCall β ρ} (h : crowd.calls[index]? = some call) :
    crowd.turn (.go index)
      = ⟨(call.step crowd.selection).1,
        crowd.calls.set index (call.step crowd.selection).2⟩ := by
  simp only [turn, h]

theorem turn_go_of_none {index : Nat} (h : crowd.calls[index]? = none) :
    crowd.turn (.go index) = crowd := by
  simp only [turn, h]

/-- What a turn can do to the sides. -/
inductive Passes (before after : Crowd β ρ) : Prop
  /-- Nothing happens to them. -/
  | keeps (hbridge : after.bridgeSide = before.bridgeSide)
    (hregion : after.regionSide = before.regionSide)
  /-- A call for a bridge has looked, and takes its side. -/
  | claims (hclaim : after.calls.any SelectionCall.isClaim = true)
    (hnone : after.selection.region = none) (hregion : after.regionSide = before.regionSide)
  /-- A call for a mailbox has looked, and takes its side. -/
  | stores (hstore : after.calls.any SelectionCall.isStore = true)
    (hnone : after.selection.bridge = none) (hbridge : after.bridgeSide = before.bridgeSide)

/-- A call that has not looked yet takes no side. -/
theorem passes_enter {call : SelectionCall β ρ} (hclaim : call.isClaim = false)
    (hstore : call.isStore = false) :
    Passes crowd { crowd with calls := crowd.calls ++ [call] } :=
  .keeps (congrArg (crowd.selection.bridge.isSome || ·) (any_enter crowd.calls hclaim))
    (congrArg (crowd.selection.region.isSome || ·) (any_enter crowd.calls hstore))

theorem passes_go {index : Nat} {call : SelectionCall β ρ} (h : crowd.calls[index]? = some call) :
    Passes crowd ⟨(call.step crowd.selection).1,
      crowd.calls.set index (call.step crowd.selection).2⟩ := by
  have haccess := call.access_step crowd.selection
  generalize call.step crowd.selection = result at haccess ⊢
  cases haccess with
  | looksForBridge bridge hnone =>
      have hclaim := any_set SelectionCall.isClaim (.start (.claim bridge)) h fun _ => rfl
      have hstore := any_set_of_eq SelectionCall.isStore (.start (.claim bridge)) h rfl
      exact .claims (hclaim.trans (Bool.or_true _)) hnone
        (congrArg (crowd.selection.region.isSome || ·) hstore)
  | looksForRegion region hnone =>
      have hclaim := any_set_of_eq SelectionCall.isClaim (.attach (.store region)) h rfl
      have hstore := any_set SelectionCall.isStore (.attach (.store region)) h fun _ => rfl
      exact .stores (hstore.trans (Bool.or_true _)) hnone
        (congrArg (crowd.selection.bridge.isSome || ·) hclaim)
  | claims bridge _ =>
      -- The side was taken by the call, and is now taken by the word.
      have hstore := any_set_of_eq SelectionCall.isStore (.start (.done true)) h rfl
      refine .keeps ?_ (congrArg (crowd.selection.region.isSome || ·) hstore)
      rw [bridgeSide, bridgeSide, any_of_getElem? h rfl, Bool.or_true]
      exact Bool.true_or _
  | stores region =>
      have hclaim := any_set_of_eq SelectionCall.isClaim (.attach (.done true)) h rfl
      refine .keeps (congrArg (crowd.selection.bridge.isSome || ·) hclaim) ?_
      rw [regionSide, regionSide, any_of_getElem? h rfl, Bool.or_true]
      exact Bool.true_or _
  | @ends _ ended htaken hnot hclaim hstore _ _ =>
      have hstores := any_set_of_eq SelectionCall.isStore ended h (hstore.trans hnot.symm)
      refine .keeps ?_ (congrArg (crowd.selection.region.isSome || ·) hstores)
      by_cases hword : crowd.selection.bridge.isSome = true
      · rw [bridgeSide, bridgeSide, hword, Bool.true_or, Bool.true_or]
      · -- While the word is empty, nobody who was about to claim the bus is refused.
        have hfalse : call.isClaim = false := Bool.eq_false_iff.mpr (mt htaken hword)
        have hclaims := any_set_of_eq SelectionCall.isClaim ended h (hclaim.trans hfalse.symm)
        exact congrArg (crowd.selection.bridge.isSome || ·) hclaims

/-- Tasks that come only enter, and the others make one access. -/
theorem passes_turn (crowd : Crowd β ρ) (turn : Turn β ρ) : Passes crowd (crowd.turn turn) := by
  cases turn with
  | start bridge => cases bridge <;> exact passes_enter rfl rfl
  | attach region => cases region <;> exact passes_enter rfl rfl
  | go index =>
      cases hcall : crowd.calls[index]? with
      | none =>
          rw [turn_go_of_none hcall]
          exact .keeps rfl rfl
      | some call =>
          rw [turn_go hcall]
          exact passes_go hcall

/-- A side that is taken stays so. -/
theorem isContested_turn (h : crowd.isContested = true) (turn : Turn β ρ) :
    (crowd.turn turn).isContested = true := by
  rw [isContested, Bool.and_eq_true] at h ⊢
  cases passes_turn crowd turn with
  | keeps hbridge hregion => exact ⟨hbridge.trans h.1, hregion.trans h.2⟩
  | claims hclaim _ hregion =>
      refine ⟨?_, hregion.trans h.2⟩
      rw [bridgeSide, hclaim, Bool.or_true]
  | stores hstore _ hbridge =>
      refine ⟨hbridge.trans h.1, ?_⟩
      rw [regionSide, hstore, Bool.or_true]

/-- Both sides are taken by calls that overlap, or have been taken before. -/
theorem isContested_before {turn : Turn β ρ} (h : (crowd.turn turn).isContested = true) :
    crowd.isContested = true ∨ (crowd.turn turn).overlaps = true := by
  rw [isContested, Bool.and_eq_true] at h
  rcases h with ⟨hbridge', hregion'⟩
  cases passes_turn crowd turn with
  | keeps hbridge hregion =>
      exact .inl (Bool.and_eq_true_iff.mpr ⟨hbridge ▸ hbridge', hregion ▸ hregion'⟩)
  | claims hclaim hnone _ =>
      -- The word of the mailboxes is empty, so another call is about to write it.
      rw [regionSide, hnone, Option.isSome_none, Bool.false_or] at hregion'
      exact .inr (Bool.and_eq_true_iff.mpr ⟨hclaim, hregion'⟩)
  | stores hstore hnone _ =>
      rw [bridgeSide, hnone, Option.isSome_none, Bool.false_or] at hbridge'
      exact .inr (Bool.and_eq_true_iff.mpr ⟨hbridge', hstore⟩)

/-- Two calls that are about to write have taken their sides. -/
theorem isContested_of_overlaps (h : crowd.overlaps = true) : crowd.isContested = true := by
  rw [overlaps, Bool.and_eq_true] at h
  rw [isContested, bridgeSide, regionSide, h.1, h.2, Bool.or_true, Bool.or_true]
  rfl

/-- Both sides are taken just if calls have overlapped at some time. -/
theorem isContested_iff (turns : List (Turn β ρ)) :
    (({} : Crowd β ρ).run turns).isContested = true ↔
      ∃ earlier, earlier <+: turns ∧ (({} : Crowd β ρ).run earlier).overlaps = true := by
  induction turns using List.reverseRecOn with
  | nil =>
      refine ⟨fun h => absurd h Bool.false_ne_true, ?_⟩
      rintro ⟨earlier, hprefix, hoverlaps⟩
      rw [List.prefix_nil.mp hprefix] at hoverlaps
      exact absurd hoverlaps Bool.false_ne_true
  | append_singleton turns turn ih =>
      rw [run_concat]
      constructor
      · intro h
        -- Both sides are taken now: they were before, or calls overlap at this
        -- turn.
        rcases isContested_before h with hbefore | hnow
        · rcases ih.mp hbefore with ⟨earlier, hprefix, hoverlaps⟩
          exact ⟨earlier, hprefix.trans (List.prefix_append turns [turn]), hoverlaps⟩
        · exact ⟨turns ++ [turn], List.prefix_refl _, run_concat {} turns turn ▸ hnow⟩
      · rintro ⟨earlier, hprefix, hoverlaps⟩
        rcases List.prefix_concat_iff.mp hprefix with rfl | hprefix
        · rw [run_concat] at hoverlaps
          exact isContested_of_overlaps hoverlaps
        · exact isContested_turn (ih.mpr ⟨earlier, hprefix, hoverlaps⟩) turn

/-! ## Calls that were granted -/

/-- The words are those of the calls that were granted. -/
structure Agrees (crowd : Crowd β ρ) : Prop where
  bridge_eq : crowd.selection.bridge.isSome = crowd.calls.any SelectionCall.isStarted
  region_eq : crowd.selection.region.isSome = crowd.calls.any SelectionCall.isAttached

/-- A call that is granted something writes it, and is granted it for good. -/
theorem agrees_go (hagrees : crowd.Agrees) {index : Nat} {call : SelectionCall β ρ}
    (h : crowd.calls[index]? = some call) :
    Agrees ⟨(call.step crowd.selection).1,
      crowd.calls.set index (call.step crowd.selection).2⟩ := by
  rcases hagrees with ⟨hbridge, hregion⟩
  have haccess := call.access_step crowd.selection
  generalize call.step crowd.selection = result at haccess ⊢
  cases haccess with
  | looksForBridge bridge hnone =>
      exact ⟨hbridge.trans (any_set_of_eq _ (.start (.claim bridge)) h rfl).symm,
        hregion.trans (any_set_of_eq _ (.start (.claim bridge)) h rfl).symm⟩
  | looksForRegion region hnone =>
      exact ⟨hbridge.trans (any_set_of_eq _ (.attach (.store region)) h rfl).symm,
        hregion.trans (any_set_of_eq _ (.attach (.store region)) h rfl).symm⟩
  -- The word is written in the same access that grants it.
  | claims bridge _ =>
      have hnow := any_set SelectionCall.isStarted (.start (.done true)) h fun _ => rfl
      exact ⟨(hnow.trans (Bool.or_true _)).symm,
        hregion.trans (any_set_of_eq _ (.start (.done true)) h rfl).symm⟩
  | stores region =>
      have hnow := any_set SelectionCall.isAttached (.attach (.done true)) h fun _ => rfl
      exact ⟨hbridge.trans (any_set_of_eq _ (.attach (.done true)) h rfl).symm,
        (hnow.trans (Bool.or_true _)).symm⟩
  | @ends _ ended _ _ _ _ hstarted hattached =>
      exact ⟨hbridge.trans (any_set_of_eq _ ended h hstarted).symm,
        hregion.trans (any_set_of_eq _ ended h hattached).symm⟩

theorem agrees_enter (h : crowd.Agrees) {call : SelectionCall β ρ}
    (hstarted : call.isStarted = false) (hattached : call.isAttached = false) :
    Agrees { crowd with calls := crowd.calls ++ [call] } :=
  ⟨h.bridge_eq.trans (any_enter crowd.calls hstarted).symm,
    h.region_eq.trans (any_enter crowd.calls hattached).symm⟩

/-- Each turn keeps words and answers together. -/
theorem agrees_turn (h : crowd.Agrees) (turn : Turn β ρ) : (crowd.turn turn).Agrees := by
  cases turn with
  | start bridge => cases bridge <;> exact agrees_enter h rfl rfl
  | attach region => cases region <;> exact agrees_enter h rfl rfl
  | go index =>
      cases hcall : crowd.calls[index]? with
      | none =>
          rw [turn_go_of_none hcall]
          exact h
      | some call =>
          rw [turn_go hcall]
          exact agrees_go h hcall

/-- A run keeps words and answers together, by induction over its turns. -/
theorem agrees_run (h : crowd.Agrees) (turns : List (Turn β ρ)) : (crowd.run turns).Agrees := by
  induction turns generalizing crowd with
  | nil => exact h
  | cons turn turns ih => exact ih (agrees_turn h turn)

/-- Calls that were started are those whose answer says so. -/
theorem started_iff (crowd : Crowd β ρ) :
    crowd.calls.any SelectionCall.isStarted = true ↔ .start (.done true) ∈ crowd.calls := by
  rw [List.any_eq_true]
  constructor
  · rintro ⟨call, hcall, hstarted⟩
    rcases call with (bridge | bridge | granted) | call
    · exact absurd hstarted Bool.false_ne_true
    · exact absurd hstarted Bool.false_ne_true
    · have hgranted : granted = true := hstarted
      exact hgranted ▸ hcall
    · exact absurd hstarted Bool.false_ne_true
  · exact fun hcall => ⟨_, hcall, rfl⟩

theorem attached_iff (crowd : Crowd β ρ) :
    crowd.calls.any SelectionCall.isAttached = true ↔ .attach (.done true) ∈ crowd.calls := by
  rw [List.any_eq_true]
  constructor
  · rintro ⟨call, hcall, hattached⟩
    rcases call with call | (region | region | granted)
    · exact absurd hattached Bool.false_ne_true
    · exact absurd hattached Bool.false_ne_true
    · exact absurd hattached Bool.false_ne_true
    · have hgranted : granted = true := hattached
      exact hgranted ▸ hcall
  · exact fun hcall => ⟨_, hcall, rfl⟩

/-! ## Calls without interruption -/

/-- The call that came last moves, and those before it stay where they are. -/
theorem turn_go_last (selection : Selection β ρ) (calls : List (SelectionCall β ρ))
    (call : SelectionCall β ρ) :
    (⟨selection, calls ++ [call]⟩ : Crowd β ρ).turn (.go calls.length)
      = ⟨(call.step selection).1, calls ++ [(call.step selection).2]⟩ := by
  have hlast : (calls ++ [call])[calls.length]? = some call := by
    rw [List.getElem?_append_right (Nat.le_refl _), Nat.sub_self]
    rfl
  rw [turn_go hlast, List.set_append_right _ _ (Nat.le_refl _), Nat.sub_self]
  rfl

/-- A call that nobody interrupts is the plain function. -/
theorem run_start (crowd : Crowd β ρ) (bridge : Option β) :
    crowd.run [.start bridge, .go crowd.calls.length, .go crowd.calls.length]
      = ⟨(crowd.selection.start bridge).1,
        crowd.calls ++ [.start (.done (crowd.selection.start bridge).2)]⟩ := by
  have henter : crowd.turn (.start bridge)
      = ⟨crowd.selection, crowd.calls ++ [.start (.enter bridge)]⟩ := rfl
  rw [run, List.foldl_cons, List.foldl_cons, List.foldl_cons, List.foldl_nil, henter, turn_go_last,
    turn_go_last]
  rcases crowd with ⟨⟨bridge?, region?⟩, calls⟩
  cases bridge with
  | none => rfl
  | some bridge => cases region? <;> cases bridge? <;> rfl

theorem run_attach (crowd : Crowd β ρ) (region : Option ρ) :
    crowd.run [.attach region, .go crowd.calls.length, .go crowd.calls.length]
      = ⟨(crowd.selection.attach region).1,
        crowd.calls ++ [.attach (.done (crowd.selection.attach region).2)]⟩ := by
  have henter : crowd.turn (.attach region)
      = ⟨crowd.selection, crowd.calls ++ [.attach (.enter region)]⟩ := rfl
  rw [run, List.foldl_cons, List.foldl_cons, List.foldl_cons, List.foldl_nil, henter, turn_go_last,
    turn_go_last]
  rcases crowd with ⟨⟨bridge?, region?⟩, calls⟩
  cases region with
  | none => rfl
  | some region => cases bridge? <;> rfl

/-- Calls that are made one after the other. -/
inductive OneByOne : Crowd β ρ → Prop
  /-- There are none yet. -/
  | new : OneByOne {}
  /-- A call for a bridge. -/
  | start {crowd : Crowd β ρ} (bridge : Option β) : OneByOne crowd →
    OneByOne (crowd.run [.start bridge, .go crowd.calls.length, .go crowd.calls.length])
  /-- A call for a mailbox. -/
  | attach {crowd : Crowd β ρ} (region : Option ρ) : OneByOne crowd →
    OneByOne (crowd.run [.attach region, .go crowd.calls.length, .go crowd.calls.length])

/-- One after the other, calls choose one agent at most. -/
theorem exclusive_of_oneByOne (h : crowd.OneByOne) :
    crowd.selection.bridge = none ∨ crowd.selection.region = none := by
  induction h with
  | new => exact .inl rfl
  -- A call that nobody interrupts finds the other word as it is, and gives way to
  -- it.
  | @start crowd bridge _ ih =>
      rw [run_start]
      rcases crowd with ⟨⟨bridge?, region?⟩, calls⟩
      cases bridge with
      | none => exact ih
      | some bridge =>
          cases region? with
          | none => cases bridge? <;> exact .inr rfl
          | some region => exact ih
  | @attach crowd region _ ih =>
      rw [run_attach]
      rcases crowd with ⟨⟨bridge?, region?⟩, calls⟩
      cases region with
      | none => exact ih
      | some region =>
          cases bridge? with
          | none => exact .inl rfl
          | some bridge => exact ih

/-! ## Calls of many tasks -/

/-- When two agents get the bus. Any number of tasks make calls for bridges and
    for mailboxes on one selection, and these go on one access at a time, in any
    order.

    At any time, the word of the bridges is written just if a call for a bridge
    was granted, and the word of the mailboxes just if a call for a mailbox
    was. If calls of both kinds were granted, then at some time a call for a
    bridge had looked and not yet claimed the bus while a call for a mailbox
    had looked and not yet stored it. And if there was such a time, then calls
    of both kinds are granted as soon as none is about to write. -/
theorem granted_of_overlap (turns : List (Turn β ρ)) :
    let crowd := ({} : Crowd β ρ).run turns
    let overlapped := ∃ earlier, earlier <+: turns ∧
      (({} : Crowd β ρ).run earlier).overlaps = true
    (crowd.selection.bridge.isSome = true ↔ .start (.done true) ∈ crowd.calls) ∧
    (crowd.selection.region.isSome = true ↔ .attach (.done true) ∈ crowd.calls) ∧
    (.start (.done true) ∈ crowd.calls ∧ .attach (.done true) ∈ crowd.calls → overlapped) ∧
    (crowd.isQuiet = true → overlapped →
      .start (.done true) ∈ crowd.calls ∧ .attach (.done true) ∈ crowd.calls) := by
  intro crowd overlapped
  have hagrees : crowd.Agrees := agrees_run ⟨rfl, rfl⟩ turns
  have hbridge : crowd.selection.bridge.isSome = true ↔ .start (.done true) ∈ crowd.calls := by
    rw [hagrees.bridge_eq]
    exact started_iff crowd
  have hregion : crowd.selection.region.isSome = true ↔ .attach (.done true) ∈ crowd.calls := by
    rw [hagrees.region_eq]
    exact attached_iff crowd
  have hcontested : crowd.isContested = true ↔ overlapped := isContested_iff turns
  refine ⟨hbridge, hregion, ?_, ?_⟩
  · rintro ⟨hstarted, hattached⟩
    refine hcontested.mp ?_
    rw [isContested, bridgeSide, regionSide, hbridge.mpr hstarted, hregion.mpr hattached]
    rfl
  · intro hquiet hoverlapped
    have hboth := hcontested.mpr hoverlapped
    -- Sides that no call is about to write are taken by the words.
    rw [isQuiet, Bool.and_eq_true, Bool.not_eq_true', Bool.not_eq_true'] at hquiet
    rw [isContested, bridgeSide, regionSide, hquiet.1, hquiet.2, Bool.or_false, Bool.or_false,
      Bool.and_eq_true] at hboth
    exact ⟨hbridge.mp hboth.1, hregion.mp hboth.2⟩

/-- Two tasks call for a bridge and one for a mailbox. All of them look before
    one writes, so both kinds are granted, and one of the bridges is refused. -/
theorem granted_of_overlap_three :
    let turns : List (Turn Bool MemoryAddress) :=
      [.start (some true), .start (some false), .attach (some 0x50000000), .go 0, .go 1, .go 2,
        .go 0, .go 1, .go 2]
    let crowd := ({} : Crowd Bool MemoryAddress).run turns
    .start (.done true) ∈ crowd.calls ∧ .attach (.done true) ∈ crowd.calls ∧
      .start (.done false) ∈ crowd.calls := by
  intro turns crowd
  rcases granted_of_overlap turns with ⟨_, _, _, hboth⟩
  have hquiet : crowd.isQuiet = true := by decide +kernel
  rcases hboth hquiet ⟨turns.take 6, List.take_prefix 6 turns, by decide +kernel⟩ with
    ⟨hstarted, hattached⟩
  exact ⟨hstarted, hattached, by decide +kernel⟩

/-- A bridge runs the bus and a mailbox is attached, and both calls say that
    they were granted it. -/
theorem granted_twice :
    ({} : Crowd Unit MemoryAddress).run
        [.start (some ()), .attach (some 0x50000000), .go 0, .go 1, .go 0, .go 1]
      = ⟨⟨some (), some 0x50000000⟩, [.start (.done true), .attach (.done true)]⟩ := by
  decide +kernel

end Crowd

end DoorBus
