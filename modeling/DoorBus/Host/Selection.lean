/-!
# Who Runs the Bus

Either the bridge on the main core runs the bus, or the host has been pointed
to the mailbox of a small core that does. Two words of memory say which: one
refers to the bridge, the other to the mailbox. Each call that chooses looks
at one word and then writes the other. The look and the write are separate
accesses, so calls of several tasks may interleave between them.

A call is therefore described by where it stands, and by the single access
that it makes next. Run to its end without interruption it is a plain
function.

## Main definitions

* `Selection`: The two words.
* `StartCall`: A call that makes the bridge run the bus.
* `AttachCall`: A call that points the host to a mailbox.
* `StartCall.step`, `AttachCall.step`: The next access of a call.
* `Selection.start`, `Selection.attach`: The calls without interruption.
-/

namespace DoorBus

/-- Who runs the bus. `β` refers to a bridge and `ρ` to a mailbox. -/
structure Selection (β ρ : Type) where
  /-- The bridge that runs the bus. -/
  bridge : Option β := none
  /-- The mailbox of the small core that does. -/
  region : Option ρ := none
  deriving DecidableEq, Repr

/-- Where a call stands that makes a bridge run the bus. -/
inductive StartCall (β : Type)
  /-- About to see whether a mailbox is attached. -/
  | look (bridge : β)
  /-- About to claim the bus, unless a bridge already has. -/
  | claim (bridge : β)
  /-- Over, with its answer. -/
  | done (granted : Bool)
  deriving DecidableEq, Repr

/-- Where a call stands that points the host to a mailbox. -/
inductive AttachCall (ρ : Type)
  /-- About to see whether a bridge runs the bus. -/
  | look (region : ρ)
  /-- About to point the host to the mailbox. -/
  | store (region : ρ)
  /-- Over, with its answer. -/
  | done (granted : Bool)
  deriving DecidableEq, Repr

variable {β ρ : Type}

namespace StartCall

/-- The call as it is made. There has to be a bridge. -/
def enter : Option β → StartCall β
  | some bridge => look bridge
  | none => done false

/-- The next access of a call. -/
def step (selection : Selection β ρ) : StartCall β → Selection β ρ × StartCall β
  | look bridge => (selection, if selection.region.isSome then done false else claim bridge)
  | claim bridge =>
    match selection.bridge with
    | none => ({ selection with bridge := some bridge }, done true)
    | some _ => (selection, done false)
  | done granted => (selection, done granted)

/-- The answer of a call that is over. -/
def granted : StartCall β → Bool
  | done granted => granted
  | _ => false

end StartCall

namespace AttachCall

/-- The call as it is made. There has to be a mailbox. -/
def enter : Option ρ → AttachCall ρ
  | some region => look region
  | none => done false

/-- The next access of a call. -/
def step (selection : Selection β ρ) : AttachCall ρ → Selection β ρ × AttachCall ρ
  | look region => (selection, if selection.bridge.isSome then done false else store region)
  | store region => ({ selection with region := some region }, done true)
  | done granted => (selection, done granted)

/-- The answer of a call that is over. -/
def granted : AttachCall ρ → Bool
  | done granted => granted
  | _ => false

end AttachCall

namespace Selection

/-- Make a bridge run the bus, without interruption. -/
def start (selection : Selection β ρ) (bridge : Option β) : Selection β ρ × Bool :=
  let (selection, call) := (StartCall.enter bridge).step selection
  let (selection, call) := call.step selection
  (selection, call.granted)

/-- Point the host to a mailbox, without interruption. -/
def attach (selection : Selection β ρ) (region : Option ρ) : Selection β ρ × Bool :=
  let (selection, call) := (AttachCall.enter region).step selection
  let (selection, call) := call.step selection
  (selection, call.granted)

end Selection

end DoorBus
