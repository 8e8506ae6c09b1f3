import DoorBus.Proofs.Agent.DriveRequest
import DoorBus.Proofs.Agent.Logbook

/-!
# The Action Slot Keeps Its Codes

The host puts a code into the action slot, and the agent takes it out to build
it into a request. In between the host may change its mind, and replace the code
or take it back. The slot holds one code, so at any time the codes that have
been put in are those that have come out again and the one that is there, in
this order. Nothing is lost that way and nothing is there twice, however host
and agent take turns and whatever becomes of the requests.

The same goes for the requests themselves, which the agent builds and then
writes to the line. It holds one of them at most, and writes each of them once.
So both are things that `Passes` through a place with room for one. What was
written is read off the log of the hardware, which enters every call to send.

A code of zero asks for nothing, and is not counted.

## Main definitions

* `ActionCode.pending?`: A code, if it asks for anything.
* `Deed.posted?`, `Deed.replaced?`, `Deed.cancelled?`, `Deed.embedded?`: The
  code that a deed is about.
* `Passes`: What went in has come out, or is still there.
* `Exchange.KeepsCodes`, `Exchange.KeepsRequests`: Codes pass through the slot,
  and requests through the agent.

## Theorems

* `passes_append`: More goes in and comes out.
* `perm_taken`, `sublist_taken`: What comes out of the slot.
* `advance_cases`: All that the agent does about actions.
* `keepsCodes_run`, `keepsRequests_run`: Nothing is lost on the way.
* `slot_conserves`: What becomes of the codes.
-/

namespace DoorBus

/-- The code, if it asks for anything. -/
def ActionCode.pending? (code : ActionCode) : Option ActionCode :=
  if code.isPending then some code else .none

/-- The code in the action slot, if it asks for anything. -/
def Mailbox.waiting? (mailbox : Mailbox) : Option ActionCode :=
  mailbox.pendingAction.pending?

theorem Mailbox.waiting_post (mailbox : Mailbox) (code : ActionCode) :
    (mailbox.post code).1.waiting? = code.pending? := by
  rw [waiting?, pendingAction_post]

theorem Mailbox.waiting_takeAction (mailbox : Mailbox) :
    mailbox.takeAction.1.waiting? = none := by
  have hempty : (ActionCode.mk (0 : UInt32).toUInt16).pending? = none := by decide
  exact hempty

/-- Only the action slot says what is waiting. The other three words may change. -/
theorem Mailbox.waiting_congr {before after : Mailbox} (h : after.action = before.action) :
    after.waiting? = before.waiting? := by
  rw [waiting?, pendingAction, h]
  rfl

/-! ## Deeds -/

namespace Deed

/-- The code that the host put into the slot. -/
def posted? : Deed → Option ActionCode
  | posted code _ => code.pending?
  | cancelled _ | built _ => none

/-- The code that the host got back because it put another one in. -/
def replaced? : Deed → Option ActionCode
  | posted _ replaced => replaced.pending?
  | cancelled _ | built _ => none

/-- The code that the host took back. -/
def cancelled? : Deed → Option ActionCode
  | cancelled answer => answer
  | posted _ _ | built _ => none

/-- The code in the action field of a request that the agent built, as a drive
    reads it. -/
def embedded? : Deed → Option ActionCode
  | built request => (Request.ofBytes? request).bind fun request => request.action.pending?
  | posted _ _ | cancelled _ => none

/-- The code that came out of the slot. -/
def taken? : Deed → Option ActionCode
  | posted _ replaced => replaced.pending?
  | cancelled answer => answer
  | built request => (built request).embedded?

/-- The request that the agent built. -/
def built? : Deed → Option (List UInt8)
  | built request => some request
  | posted _ _ | cancelled _ => none

end Deed

/-- What comes out of the slot is replaced, or taken back, or built into a
    request. -/
theorem perm_taken (log : List Deed) :
    (log.filterMap Deed.taken?).Perm (log.filterMap Deed.replaced?
      ++ log.filterMap Deed.cancelled? ++ log.filterMap Deed.embedded?) := by
  rw [List.perm_iff_count]
  intro code
  induction log with
  | nil => rfl
  | cons deed log ih =>
      -- Of the three, a deed concerns the one that it is about.
      have hdeed : deed.taken?.toList.count code = deed.replaced?.toList.count code
          + deed.cancelled?.toList.count code + deed.embedded?.toList.count code := by
        cases deed with
        | posted posted replaced => rfl
        | cancelled answer => exact (Nat.zero_add _).symm
        | built request => exact (Nat.zero_add _).symm
      simp only [filterMap_cons_toList, List.count_append] at ih ⊢
      omega

/-- Codes that are built into requests are among those that come out. -/
theorem sublist_taken (log : List Deed) :
    (log.filterMap Deed.embedded?).Sublist (log.filterMap Deed.taken?) := by
  induction log with
  | nil => exact .slnil
  | cons deed log ih =>
      have hdeed : deed.embedded?.toList.Sublist deed.taken?.toList := by
        cases deed with
        | posted code replaced => exact List.nil_sublist _
        | cancelled answer => exact List.nil_sublist _
        | built request => exact List.Sublist.refl _
      rw [filterMap_cons_toList, filterMap_cons_toList]
      exact hdeed.append ih

/-! ## Passing through -/

/-- What was there in the beginning and what went in has come out again or is
    still there, in this order. -/
def Passes {α : Type} (first held : Option α) (entered left : List α) : Prop :=
  first.toList ++ entered = left ++ held.toList

/-- More goes in and comes out, which leaves as much as there was. -/
theorem passes_append {α : Type} {first held held' : Option α} {entered left : List α}
    (h : Passes first held entered left) {more gone : List α}
    (hmore : held.toList ++ more = gone ++ held'.toList) :
    Passes first held' (entered ++ more) (left ++ gone) := by
  rw [Passes] at h ⊢
  rw [← List.append_assoc, h, List.append_assoc, hmore, List.append_assoc]

namespace Exchange

variable {σ : Type}

/-- Codes pass through the slot. -/
def KeepsCodes (first : Option ActionCode) (exchange : Exchange σ) : Prop :=
  Passes first exchange.node.mailbox.waiting? (exchange.log.filterMap Deed.posted?)
    (exchange.log.filterMap Deed.taken?)

/-- Requests pass through the agent, and out to the line. -/
def KeepsRequests (exchange : Exchange (σ × Log)) : Prop :=
  Passes none exchange.stage.unwritten? (exchange.log.filterMap Deed.built?)
    (exchange.node.log.sent.map Sending.request)

/-- All that the agent does about actions. It takes the code out of the slot and
    builds a request from it, which needs a poll to be due; or it leaves the slot
    alone and has no request to write behind that. -/
theorem advance_cases (hw : Hardware σ) (exchange : Exchange σ) :
    (∃ request, exchange.stage.unwritten? = none ∧
      exchange.node.agent.master.isDue (hw.now exchange.node.hardware) = true ∧
      (Request.ofBytes? request).map Request.action = some exchange.node.mailbox.pendingAction ∧
      (exchange.advance hw).stage.unwritten? = some request ∧
      (exchange.advance hw).log = exchange.log ++ [.built request] ∧
      (exchange.advance hw).node.mailbox = exchange.node.mailbox.takeAction.1) ∨
    ((exchange.advance hw).stage.unwritten? = none ∧
      (exchange.advance hw).log = exchange.log ∧
      (exchange.advance hw).node.mailbox.action = exchange.node.mailbox.action) := by
  rcases exchange with ⟨node, stage, log⟩
  cases stage with
  | resting =>
      exact .inr ⟨rfl, rfl,
        congrArg Mailbox.action (Node.listen_beside hw node .empty).mailbox_eq⟩
  | listened queue =>
      -- This is the only access in which a code leaves its slot for a request.
      by_cases hdue : node.agent.master.isDue (hw.now node.hardware) = true
      · let request := Request.mk node.agent.master.nextKind node.mailbox.pendingAction
        refine .inl ⟨request.bytes, rfl, hdue, ?_, ?_⟩
        · rw [Request.ofBytes_bytes]
          rfl
        · rw [advance_of_due hdue]
          exact ⟨rfl, rfl, rfl⟩
      · rw [advance_of_not_due hdue]
        exact .inr ⟨rfl, rfl, rfl⟩
  | begun request queue =>
      exact .inr ⟨rfl, rfl,
        congrArg Mailbox.action (Node.transmit_beside hw node request queue).mailbox_eq⟩
  | served codes events =>
      cases codes with
      | cons code codes => exact .inr ⟨rfl, rfl, rfl⟩
      | nil => exact .inr ⟨rfl, rfl, node.action_shown⟩
  | shown wakes => exact .inr ⟨rfl, rfl, rfl⟩

variable {exchange : Exchange σ} {first : Option ActionCode}

/-- One more deed about the slot, after which it holds as many codes as came in
    and did not come out. -/
theorem keepsCodes_of_deed (h : exchange.KeepsCodes first) {after : Exchange σ} {deed : Deed}
    (hlog : after.log = exchange.log ++ [deed])
    (hdeed : exchange.node.mailbox.waiting?.toList ++ deed.posted?.toList
      = deed.taken?.toList ++ after.node.mailbox.waiting?.toList) :
    after.KeepsCodes first := by
  rw [KeepsCodes, hlog]
  simp only [List.filterMap_append, filterMap_cons_toList, List.filterMap_nil, List.append_nil]
  exact passes_append h hdeed

/-- Building a request takes out just what was waiting. Nothing else that the
    agent does touches the slot. -/
theorem keepsCodes_advance (hw : Hardware σ) (h : exchange.KeepsCodes first) :
    (exchange.advance hw).KeepsCodes first := by
  rcases exchange.advance_cases hw with ⟨request, _, _, hcode, _, hlog, hmailbox⟩ |
    ⟨_, hlog, haction⟩
  · refine keepsCodes_of_deed h hlog ?_
    have htaken : (Deed.built request).taken? = exchange.node.mailbox.waiting? := by
      rcases Option.map_eq_some_iff.mp hcode with ⟨read, hread, haction⟩
      rw [Deed.taken?, Deed.embedded?, hread, Option.bind_some, haction]
      rfl
    rw [htaken, hmailbox, Mailbox.waiting_takeAction]
    rfl
  · rw [KeepsCodes, hlog, Mailbox.waiting_congr haction]
    exact h

theorem keepsCodes_move (hw : Hardware σ) (h : exchange.KeepsCodes first) (move : Move σ) :
    (exchange.move hw move).KeepsCodes first := by
  cases move with
  | post code =>
      -- The code that was there is replaced.
      refine keepsCodes_of_deed h rfl ?_
      rw [Exchange.move, Mailbox.waiting_post]
      rfl
  | cancel =>
      have hleft : exchange.node.mailbox.cancel.1.waiting? = none :=
        exchange.node.mailbox.waiting_takeAction
      refine keepsCodes_of_deed h rfl ?_
      rw [Exchange.move, hleft]
      rfl
  | takeRequest => exact h
  | drift change => exact h
  | advance => exact keepsCodes_advance hw h

/-- Hence codes pass through the slot over any moves. -/
theorem keepsCodes_run (hw : Hardware σ) (h : exchange.KeepsCodes first) (moves : List (Move σ)) :
    (exchange.run hw moves).KeepsCodes first :=
  run_keeps (KeepsCodes first) (fun _ move hbefore => keepsCodes_move hw hbefore move) h moves

/-- What the agent has yet to write goes out to the line, and what it builds
    takes its place. -/
theorem keepsRequests_advance {exchange : Exchange (σ × Log)} (hw : Hardware σ)
    (h : exchange.KeepsRequests) : (exchange.advance hw.logged).KeepsRequests := by
  rw [KeepsRequests, sent_advance]
  rcases exchange.advance_cases hw.logged with ⟨request, hstage, _, _, hstage', hlog, _⟩ |
    ⟨hstage', hlog, _⟩
  · rw [hlog, hstage', List.filterMap_append]
    refine passes_append h ?_
    rw [hstage]
    rfl
  · rw [hlog, hstage', ← List.append_nil (exchange.log.filterMap Deed.built?)]
    exact passes_append h rfl

theorem keepsRequests_move {exchange : Exchange (σ × Log)} (hw : Hardware σ)
    (h : exchange.KeepsRequests) (move : Move σ) :
    (exchange.move hw.logged move.logged).KeepsRequests := by
  cases move with
  | post code =>
      rw [KeepsRequests, Move.logged, Exchange.move, List.filterMap_append]
      exact (List.append_nil (exchange.log.filterMap Deed.built?)).symm ▸ h
  | cancel =>
      rw [KeepsRequests, Move.logged, Exchange.move, List.filterMap_append]
      exact (List.append_nil (exchange.log.filterMap Deed.built?)).symm ▸ h
  | takeRequest => exact h
  -- What happens to the hardware leaves the log alone.
  | drift change => exact h
  | advance => exact keepsRequests_advance hw h

/-- A run keeps its requests in step with the log of the hardware. The moves
    are those that leave that log alone, which every move of the bare
    exchange is. -/
theorem keepsRequests_run {exchange : Exchange (σ × Log)} (hw : Hardware σ)
    (h : exchange.KeepsRequests) (moves : List (Move σ)) :
    (exchange.run hw.logged (moves.map Move.logged)).KeepsRequests := by
  induction moves generalizing exchange with
  | nil => exact h
  | cons move moves ih => exact ih (keepsRequests_move hw h move)

/-! ## Commands -/

/-- What becomes of the codes that a host puts into the action slot. From any
    node on, whatever agent, host and hardware do in turn, the codes that were
    put in, with one that may have been there before, are those that were given
    back as replaced, those that were taken back, those in the action fields of
    the requests that were built, and the one that is still there. Those in
    requests are in the order in which they were put in. Every request is
    written to the line once, in the order of building, and the last one may
    have yet to be written; so says the log of the hardware, of which the agent
    knows nothing.

    Wherever the agent goes on, it empties the slot just if it builds a request
    with the code, which it does only when a poll is due, and otherwise leaves
    the slot alone. A code that the host puts in is the one that is there
    right behind that, and the code that it replaces is the one that was there
    before. What the host takes back is the code that was there. -/
theorem slot_conserves (hw : Hardware σ) (node : Node σ) (moves : List (Move σ)) :
    let last := (⟨node.within {}, .resting, []⟩ : Exchange (σ × Log)).run hw.logged
      (moves.map Move.logged)
    let given := node.mailbox.waiting?.toList ++ last.log.filterMap Deed.posted?
    let after := last.move hw.logged .advance
    given.Perm (last.log.filterMap Deed.replaced? ++ last.log.filterMap Deed.cancelled? ++
      last.log.filterMap Deed.embedded? ++ last.node.mailbox.waiting?.toList) ∧
    (last.log.filterMap Deed.embedded?).Sublist given ∧
    last.log.filterMap Deed.built?
      = last.node.log.sent.map Sending.request ++ last.stage.unwritten?.toList ∧
    ((∃ request, (Request.ofBytes? request).map Request.action
          = some last.node.mailbox.pendingAction ∧
        last.node.agent.master.isDue (hw.now last.node.bare.hardware) = true ∧
        after.stage.unwritten? = some request ∧
        after.log.filterMap Deed.built? = last.log.filterMap Deed.built? ++ [request] ∧
        after.node.mailbox.waiting? = none) ∨
      after.log.filterMap Deed.built? = last.log.filterMap Deed.built? ∧
        after.node.mailbox.action = last.node.mailbox.action) ∧
    (∀ code, (last.move hw.logged (.post code)).node.mailbox.pendingAction = code ∧
      (last.move hw.logged (.post code)).log
        = last.log ++ [.posted code last.node.mailbox.pendingAction]) ∧
    (last.move hw.logged .cancel).node.mailbox.waiting? = none ∧
    (last.move hw.logged .cancel).log = last.log ++ [.cancelled last.node.mailbox.waiting?] ∧
    last.bare = (⟨node, .resting, []⟩ : Exchange σ).run hw moves := by
  intro last given after
  -- At the start no code has been logged, and no request been written.
  let first : Exchange (σ × Log) := ⟨node.within {}, .resting, []⟩
  have hfirst : first.KeepsCodes node.mailbox.waiting? := List.append_nil _
  have hnothing : first.KeepsRequests := rfl
  have hcodes : given = last.log.filterMap Deed.taken? ++ last.node.mailbox.waiting?.toList :=
    keepsCodes_run hw.logged hfirst (moves.map Move.logged)
  refine ⟨?_, ?_, keepsRequests_run hw hnothing moves, ?_, ?_, ?_, rfl, ?_⟩
  · rw [hcodes]
    exact (perm_taken last.log).append_right _
  · rw [hcodes]
    exact (sublist_taken last.log).trans (List.sublist_append_left _ _)
  · rcases last.advance_cases hw.logged with ⟨request, _, hdue, hcode, hstage, hlog, hmailbox⟩ |
      ⟨_, hlog, haction⟩
    · refine .inl ⟨request, hcode, hdue, hstage, ?_, ?_⟩
      · exact (congrArg (List.filterMap Deed.built?) hlog).trans List.filterMap_append
      · exact (congrArg Mailbox.waiting? hmailbox).trans last.node.mailbox.waiting_takeAction
    · exact .inr ⟨congrArg (List.filterMap Deed.built?) hlog, haction⟩
  · exact fun code => ⟨last.node.mailbox.pendingAction_post code, rfl⟩
  · exact last.node.mailbox.waiting_takeAction
  -- The log stands beside the state, so the run is the plain one.
  · rcases run_within hw ⟨node, .resting, []⟩ {} moves with ⟨log, hrun⟩
    exact congrArg bare hrun

/-- Two requests that could not be sent. The code was in the first of them, and
    is in no other. -/
example :
    let hw : Hardware Desk :=
      { Desk.hardware with transmit := fun _ desk => (desk, .error .transport) }
    let first : Exchange (Desk × Log) :=
      ⟨(Node.start (.ofMode .lowPower) .never .new { clock := 1000 }).within {}, .resting, []⟩
    let moves : List (Move Desk) := [.post ⟨0x10⟩, .post ⟨0x20⟩] ++ List.replicate 5 .advance ++
      [.drift fun _ => { clock := 9000 }] ++ List.replicate 5 .advance
    let last := first.run hw.logged (moves.map Move.logged)
    last.log.filterMap Deed.replaced? = [⟨0x10⟩] ∧ last.log.filterMap Deed.embedded? = [⟨0x20⟩] ∧
      last.node.log.sent.length = 2 := by
  decide +kernel

end Exchange

end DoorBus
