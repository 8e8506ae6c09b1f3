import DoorBus.Proofs.Bench.Answers
import DoorBus.Proofs.Bench.Travel

/-!
# Requests That Wait Together

The bus keeps bytes, and not where one request ends and the next one begins. The drive
takes all that waits for it as one frame. This is the request if there is one, but
requests that wait together are not: each has the same number of bytes, and no
multiple of it is read as a request.

So what the drive understands depends on how often it looks. One request between two
looks is always taken down. Of more than one none is, and together they count as a
single request that was not understood.

## Main definitions

* `Bus.request`: The bridge writes requests.
* `Drive.TakesDown`: What is taken down of requests that wait together.

## Theorems

* `toDrive_request`: What waits for the drive.
* `answer_of_backlog`: What the drive makes of requests that wait together.
* `service_backlog`: What it takes down when it looks.
* `service_loses`: Two requests, of which it takes down none.
-/

namespace DoorBus

namespace Bus

/-- The bridge writes requests, one after the other. -/
def request (bus : Bus) (requests : List Request) : Bus :=
  requests.foldl (fun bus request => (bus.write request.bytes).1) bus

theorem write_of_open {bus : Bus} (h : bus.failWrites = false) (bytes : List UInt8) :
    ((bus.write bytes).1).toDrive = bus.toDrive ++ bytes ∧ ((bus.write bytes).1).now = bus.now ∧
      ((bus.write bytes).1).failWrites = false := by
  rw [write, if_neg (by rw [h]; exact Bool.false_ne_true)]
  exact ⟨rfl, rfl, h⟩

-- Requests wait for the drive without anything between them.
theorem toDrive_request {bus : Bus} (h : bus.failWrites = false) (requests : List Request) :
    (bus.request requests).toDrive = bus.toDrive ++ requests.flatMap Request.bytes ∧
      (bus.request requests).now = bus.now := by
  induction requests generalizing bus with
  | nil => exact ⟨(List.append_nil _).symm, rfl⟩
  | cons first rest ih =>
      rcases write_of_open h first.bytes with ⟨hbytes, hnow, hopen⟩
      rcases ih hopen with ⟨hrest, hlater⟩
      refine ⟨?_, hlater.trans hnow⟩
      rw [List.flatMap_cons, ← List.append_assoc, ← hbytes]
      exact hrest

end Bus

theorem Request.length_flatMap_bytes (requests : List Request) :
    (requests.flatMap bytes).length = 15 * requests.length := by
  induction requests with
  | nil => rfl
  | cons first rest ih =>
      rw [List.flatMap_cons, List.length_append, ih, length_bytes, List.length_cons]
      omega

namespace Drive

variable {drive : Drive} {bus : Bus} {requests : List Request}

-- Their number tells that they are no request, whatever they say: the bytes of two are
-- too many for one already.
theorem answer_of_backlog (h : bus.toDrive = requests.flatMap Request.bytes)
    (hmany : 2 ≤ requests.length) :
    drive.answer bus
      = ({ drive with rejected := drive.rejected + 1 }, { bus with toDrive := [] }) := by
  have hlength := Request.length_flatMap_bytes requests
  have hother : ∀ request : Request, requests.flatMap Request.bytes ≠ request.bytes := by
    intro request hsame
    have hone := request.length_bytes
    rw [← hsame] at hone
    omega
  have hwritten : ¬(requests.flatMap Request.bytes).isEmpty = true := by
    rw [List.isEmpty_iff_length_eq_zero]
    omega
  rw [answer, Bus.take, h]
  simp only [if_neg hwritten, handle_of_other hother]

/-- What is taken down of requests that have waited together, by their number. -/
structure TakesDown (before : Drive) (requests : List Request) (after : Drive) : Prop where
  of_few : requests.length ≤ 1 →
    after.requests.toList = before.requests.toList ++ requests ∧ after.rejected = before.rejected
  of_many : 2 ≤ requests.length →
    after.requests = before.requests ∧ after.rejected = before.rejected + 1

theorem answer_takesDown (drive : Drive) (h : bus.toDrive = requests.flatMap Request.bytes) :
    drive.TakesDown requests (drive.answer bus).1 ∧ (drive.answer bus).2.toDrive = [] := by
  by_cases hmany : 2 ≤ requests.length
  · rw [answer_of_backlog h hmany]
    exact ⟨⟨fun hfew => absurd hmany (Nat.not_lt.mpr hfew), fun _ => ⟨rfl, rfl⟩⟩, rfl⟩
  · -- One request at most is what the drive can wait for.
    have hone : ∃ request : Option Request, requests = request.toList := by
      match requests, hmany with
      | [], _ => exact ⟨none, rfl⟩
      | [request], _ => exact ⟨some request, rfl⟩
      | _ :: _ :: rest, hmany => exact absurd (Nat.le_add_left 2 rest.length) hmany
    rcases hone with ⟨request, rfl⟩
    have hwaits : Waits bus request := by
      rw [Waits, h]
      cases request with
      | none => rfl
      | some request => exact List.append_nil _
    rcases answer_hears hwaits drive with ⟨hhears, line, hline⟩
    refine ⟨⟨fun _ => ⟨hhears.requests_eq, hhears.rejected_eq⟩, fun hmore => ?_⟩, by rw [hline]⟩
    exact absurd hmore hmany

/-- What the drive takes down of requests that the bridge has written since it looked
    last. A single one is taken down, and none is missed. Of more than one none is
    taken down, and together they count as one that was not understood. -/
theorem service_backlog (drive : Drive) (bus : Bus) (requests : List Request)
    (hempty : bus.toDrive = []) (hopen : bus.failWrites = false)
    (hfits : drive.door.position ≠ drive.door.target →
      drive.door.carried.toNat + (Millis.elapsed drive.lastService bus.now).toNat
        ≤ Millis.longest) :
    ∃ after line, drive.service (bus.request requests) = .ok (after, line) ∧
      line.toDrive = [] ∧ drive.TakesDown requests after := by
  rcases Bus.toDrive_request hopen requests with ⟨hbytes, hnow⟩
  rw [hempty, List.nil_append] at hbytes
  rw [← hnow] at hfits
  rcases Door.advances_of_fits hfits with ⟨door, hadvance, _⟩
  let looking : Drive := { drive with door, lastService := (bus.request requests).now }
  let answered := looking.answer (bus.request requests)
  have hservice : drive.service (bus.request requests) = .ok (answered.1.broadcast answered.2) :=
    service_of_advance hadvance
  rcases answer_takesDown looking hbytes with ⟨htakes, hline⟩
  -- A broadcast behind the answer takes nothing down, so the books are those of the
  -- answer.
  rcases broadcast_hears answered.1 answered.2 with ⟨hhears, line, hsent⟩
  have hkept := hhears.requests_eq
  rw [List.append_nil, Array.toList_inj] at hkept
  refine ⟨(answered.1.broadcast answered.2).1, (answered.1.broadcast answered.2).2, hservice, ?_,
    fun h => ?_, fun h => ?_⟩
  · rw [hsent]
    exact hline
  · rw [hkept, hhears.rejected_eq]
    exact htakes.of_few h
  · rw [hkept, hhears.rejected_eq]
    exact htakes.of_many h

/-- A drive that has already taken down a request and missed three, with its door on
    the way. -/
theorem service_backlog_single :
    let drive : Drive :=
      { door := { Door.new 10 with target := 200, carried := 5 }, lastService := 4294967290,
        requests := #[⟨.busScan, .none⟩], rejected := 3 }
    let bus : Bus := { now := 20, transmitting := true }
    let request : Request := ⟨.commandPoll, .ofAction .stop⟩
    drive.door.carried.toNat + (Millis.elapsed drive.lastService bus.now).toNat = 31 ∧
      ∃ after line, drive.service (bus.request [request]) = .ok (after, line) ∧
        line.toDrive = [] ∧ after.requests.toList = [⟨.busScan, .none⟩, request] ∧
        after.rejected = 3 := by
  intro drive bus request
  refine ⟨rfl, ?_⟩
  rcases service_backlog drive bus [request] rfl rfl (fun _ => by decide) with
    ⟨after, line, hservice, hline, htakes⟩
  rcases htakes.of_few (Nat.le_refl 1) with ⟨hrequests, hrejected⟩
  exact ⟨after, line, hservice, hline, hrequests, hrejected⟩

/-- A bus scan and a command poll that wait for a silent drive together. -/
theorem service_loses :
    let drive : Drive := { Drive.new {} with silent := true }
    let requests : List Request := [⟨.busScan, .none⟩, ⟨.commandPoll, .none⟩]
    (drive.service (Bus.request {} requests)).map
      (fun (after, _) => (after.requests, after.rejected)) = .ok (#[], 1) := by
  decide +kernel

end Drive

end DoorBus
