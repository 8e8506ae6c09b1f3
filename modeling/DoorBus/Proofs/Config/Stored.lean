import DoorBus.Config.Stored
import DoorBus.Proofs.Text.Json

/-!
# What Becomes of a Stored Set-Up

A set-up is stored as text, and read when it is used. The settings of the line are
left out on the way: they are not written, and the reader puts in those that the
drive speaks. All else has a place in the text, and numbers of 32 and 8 bits have
room there.

So a set-up that was stored comes back with the standard line, and is lost only if it
had another one. But such a set-up does not work: on no chip does `validate` accept
it. Therefore one that works comes back as it was, and works again.

Reading is lenient in many ways, and the same set-up has many texts. What was read has
the standard line in any case, so it is stored without loss, from whatever text it
came.

## Main definitions

* `Config.storeIn`, `Config.loadFrom?`: A set-up in any format that keeps values.

## Theorems

* `readRecord_writeRecord`: A record is read back field by field.
* `Timing.ofJson_toJson`, `Pins.ofJson_toJson`, `Config.ofJson_toJson`: A set-up as a
  value.
* `loadFrom_storeIn`: A set-up as text.
* `stored_exact`: What comes back, in every case.
-/

namespace DoorBus

namespace Stored

/-! ## Records -/

/-- The members of an object that stores fields. -/
def membersOf (fields : List (String × Json)) : List (Option String × Json) :=
  fields.map fun (name, value) => (some name, value)

theorem valuesOf_append (name : String) (xs ys : List (Option String × Json)) :
    valuesOf name (xs ++ ys) = valuesOf name xs ++ valuesOf name ys :=
  List.filterMap_append

/-- A name that is not among the fields has no value there. -/
theorem valuesOf_of_notMem {name : String} {fields : List (String × Json)}
    (h : name ∉ fields.map Prod.fst) : valuesOf name (membersOf fields) = [] := by
  rw [valuesOf, membersOf, List.filterMap_map, List.filterMap_eq_nil_iff]
  rintro ⟨other, value⟩ hfield
  have hne : other ≠ name := fun hsame => h (List.mem_map.mpr ⟨_, hfield, hsame⟩)
  exact if_neg fun hsome => hne (Option.some.inj hsome)

/-- Behind members without the name, a field gives the only value of it. -/
theorem valuesOf_concat (name : String) (front : List (Option String × Json)) (value : Json) :
    valuesOf name (front ++ [(some name, value)]) = valuesOf name front ++ [value] := by
  rw [valuesOf_append]
  exact congrArg _ (List.filterMap_cons_some (if_pos rfl))

theorem valuesOf_concat_of_ne {name other : String} (h : other ≠ name)
    (front : List (Option String × Json)) (value : Json) :
    valuesOf name (front ++ [(some other, value)]) = valuesOf name front := by
  have hnone : valuesOf name [(some other, value)] = [] :=
    List.filterMap_cons_none (if_neg fun hsame => h (Option.some.inj hsame))
  rw [valuesOf_append, hnone, List.append_nil]

theorem field_concat {name : String} {value : Json} {front : List (Option String × Json)}
    {fields : List (String × Json)} (hfront : valuesOf name front = [])
    (hlater : name ∉ fields.map Prod.fst) :
    field? name (front ++ [(some name, value)] ++ membersOf fields) = some (some value) := by
  rw [field?, valuesOf_append, valuesOf_concat, hfront, valuesOf_of_notMem hlater]
  rfl

-- By induction on the fields, with those that were found before standing in front: the
-- reader looks through the whole object for each of them.
theorem mapM_field {names : List String} {values : List Json} {front : List (Option String × Json)}
    (hnodup : names.Nodup) (hlength : names.length = values.length)
    (hfront : ∀ name ∈ names, valuesOf name front = []) :
    names.mapM (fun name => field? name (front ++ membersOf (names.zip values)))
      = some (values.map some) := by
  induction names generalizing values front with
  | nil =>
      rw [List.length_nil] at hlength
      rw [List.eq_nil_of_length_eq_zero hlength.symm]
      rfl
  | cons name names ih =>
      cases values with
      | nil => exact absurd hlength (Nat.succ_ne_zero _)
      | cons value values =>
          rw [List.nodup_cons] at hnodup
          have hmembers : front ++ membersOf ((name :: names).zip (value :: values))
              = front ++ [(some name, value)] ++ membersOf (names.zip values) := by
            rw [List.append_assoc]
            rfl
          have hlater : name ∉ (names.zip values).map Prod.fst := by
            rw [List.map_fst_zip (Nat.le_of_eq (Nat.succ.inj hlength))]
            exact hnodup.1
          -- The field that was found is one of those in front for all others.
          have hpassed : ∀ other ∈ names, valuesOf other (front ++ [(some name, value)]) = [] := by
            intro other hother
            have hne : name ≠ other := fun hsame => hnodup.1 (hsame ▸ hother)
            rw [valuesOf_concat_of_ne hne]
            exact hfront other (List.mem_cons_of_mem _ hother)
          have hrest := ih hnodup.2 (Nat.succ.inj hlength) hpassed
          rw [hmembers, List.mapM_cons, field_concat (hfront name List.mem_cons_self) hlater, hrest]
          rfl

/-- A record is read back field by field. -/
theorem readRecord_writeRecord {names : List String} {values : List Json} (hnodup : names.Nodup)
    (hlength : names.length = values.length) :
    readRecord? names (writeRecord (names.zip values)) = some (values.map some) := by
  have hnames : (membersOf (names.zip values)).all (fun member => member.1.isSome) = true := by
    rw [membersOf, List.all_map]
    exact List.all_eq_true.mpr fun _ _ => rfl
  have hfields : names.mapM (fun name => field? name ([] ++ membersOf (names.zip values)))
      = some (values.map some) := mapM_field hnodup hlength fun _ _ => rfl
  have hrecord : writeRecord (names.zip values) = .object (membersOf (names.zip values)) := rfl
  rw [hrecord, readRecord?, if_pos hnames]
  exact hfields

/-- A record of plain values is plain, as its names are all there. -/
theorem isPlain_writeRecord {names : List String} {values : List Json}
    (h : ∀ value ∈ values, value.IsPlain) : (writeRecord (names.zip values)).IsPlain := by
  have hmembers : Json.ArePlain (membersOf (names.zip values)) := by
    induction names generalizing values with
    | nil => exact trivial
    | cons name names ih =>
        cases values with
        | nil => exact trivial
        | cons value values =>
            exact ⟨rfl, h value List.mem_cons_self,
              ih fun other hother => h other (List.mem_cons_of_mem _ hother)⟩
  exact hmembers

/-! ## Fields -/

/-- Each sort of field is read back, as what is written is never out of its
    range. -/
theorem readWord32_writeWord32 (value : UInt32) : readWord32? (writeWord32 value) = some value := by
  rw [writeWord32, readWord32?, if_pos value.toNat_lt_size, UInt32.ofNat_toNat]

theorem readByte_writeByte (value : UInt8) : readByte? (writeByte value) = some value := by
  rw [writeByte, readByte?, if_pos value.toNat_lt_size, UInt8.ofNat_toNat]

/-- A pin that is left out is stored as nothing, and no number is read as that. -/
theorem readOptionalByte_write (value : Option UInt8) :
    readOptionalByte? ((value.map writeByte).getD .null) = some value := by
  cases value with
  | none => rfl
  | some value =>
      rw [Option.map_some, Option.getD_some, writeByte, readOptionalByte?, ← writeByte,
        readByte_writeByte, Option.map_some]
      exact fun h => Json.noConfusion h

theorem readWord_writeWord (mode : Mode) :
    readWord? Mode.ofName? (writeWord mode.name) = some mode := by
  cases mode <;> rfl

/-- A field is far smaller than the largest number that a format has to keep. -/
theorem isPlain_writeWord32 (value : UInt32) : (writeWord32 value).IsPlain :=
  Nat.lt_trans value.toNat_lt_size (by decide : UInt32.size < UInt64.size)

theorem isPlain_writeByte (value : UInt8) : (writeByte value).IsPlain :=
  Nat.lt_trans value.toNat_lt_size (by decide : UInt8.size < UInt64.size)

end Stored

open Stored

/-! ## The set-up as a value -/

/-- The times are five such fields, with five different names. -/
theorem Timing.ofJson_toJson (timing : Timing) : ofJson? timing.toJson = some timing := by
  rw [ofJson?, toJson, readRecord_writeRecord (by decide) rfl]
  simp only [Option.bind_eq_bind, Option.bind_some, List.map_cons, List.map_nil,
    readWord32_writeWord32, readByte_writeByte]
  rfl

theorem Pins.ofJson_toJson (pins : Pins) : ofJson? pins.toJson = some pins := by
  rw [ofJson?, toJson, readRecord_writeRecord (by decide) rfl]
  simp only [Option.bind_eq_bind, Option.bind_some, List.map_cons, List.map_nil,
    readByte_writeByte, Option.getD_some, readOptionalByte_write]
  rfl

namespace Config

theorem ofJson_toJson (config : Config) :
    ofJson? config.toJson = some { config with line := .standard } := by
  rw [ofJson?, toJson, readRecord_writeRecord (by decide) rfl]
  simp only [Option.bind_eq_bind, Option.bind_some, List.map_cons, List.map_nil,
    readWord_writeWord, Timing.ofJson_toJson, Pins.ofJson_toJson]
  rfl

-- No text has a place for another line.
theorem line_of_ofJson {json : Json} {config : Config} (h : ofJson? json = some config) :
    config.line = .standard := by
  rw [ofJson?] at h
  simp only [Option.bind_eq_bind, Option.bind_eq_some_iff] at h
  rcases h with ⟨fields, _, h⟩
  split at h
  · simp only [Option.bind_eq_some_iff] at h
    rcases h with ⟨mode, _, timing, _, pins, _, h⟩
    rw [← Option.some.inj h]
  · exact absurd h (by simp only [reduceCtorEq, not_false_eq_true])

/-- A set-up holds nothing but what a format has to keep. -/
theorem isPlain_toJson (config : Config) : config.toJson.IsPlain := by
  have htiming : config.timing.toJson.IsPlain := by
    refine isPlain_writeRecord ?_
    simp only [List.forall_mem_cons, List.not_mem_nil, false_implies, implies_true, and_true]
    exact ⟨isPlain_writeWord32 _, isPlain_writeWord32 _, isPlain_writeByte _,
      isPlain_writeWord32 _, isPlain_writeWord32 _⟩
  -- A pin that is left out is plain as well.
  have hswitch : ((config.pins.flowControl.map writeByte).getD .null).IsPlain := by
    cases config.pins.flowControl with
    | none => exact trivial
    | some pin => exact isPlain_writeByte pin
  have hpins : config.pins.toJson.IsPlain := by
    refine isPlain_writeRecord ?_
    simp only [List.forall_mem_cons, List.not_mem_nil, false_implies, implies_true, and_true]
    exact ⟨isPlain_writeByte _, isPlain_writeByte _, hswitch⟩
  refine isPlain_writeRecord ?_
  simp only [List.forall_mem_cons, List.not_mem_nil, false_implies, implies_true, and_true]
  exact ⟨rfl, htiming, hpins⟩

theorem eq_of_standard {config : Config} (h : config.line = .standard) :
    { config with line := .standard } = config := by
  rw [← h]

/-- A set-up that works on some chip has the standard line. -/
theorem line_of_validate {config : Config} {chip : Chip} (h : config.validate chip = .ok ()) :
    config.line = .standard := by
  by_cases hline : config.line = .standard
  · exact hline
  · -- Whatever is found wrong first, something is.
    rw [validate] at h
    simp only [ne_eq, hline, not_false_eq_true, if_true] at h
    by_cases hmode : config.mode = .lowPower ∧ ¬chip.hasSmallCore = true
    · rw [if_pos hmode] at h
      exact nomatch h
    · rw [if_neg hmode] at h
      cases htiming : config.timing.validate with
      | error fault =>
          rw [htiming] at h
          exact nomatch h
      | ok done =>
          rw [htiming] at h
          exact nomatch h

/-! ## The set-up as text -/

/-- A set-up as text in some format. -/
def storeIn (format : Json.Format) (config : Config) : String :=
  format.write config.toJson

/-- The set-up that a text in some format is. -/
def loadFrom? (format : Json.Format) (text : String) : Option Config :=
  (format.read? text).bind ofJson?

/-- A set-up as text is read back by the law of the format, and the value by
    that of the records. -/
theorem loadFrom_storeIn (format : Json.Format) (config : Config) :
    loadFrom? format (storeIn format config) = some { config with line := .standard } := by
  rw [loadFrom?, storeIn, format.read_write _ config.isPlain_toJson, Option.bind_some,
    ofJson_toJson]

/-- Whatever the text, what is read from it has the standard line. -/
theorem line_of_loadFrom {format : Json.Format} {text : String} {config : Config}
    (h : loadFrom? format text = some config) : config.line = .standard := by
  rcases Option.bind_eq_some_iff.mp h with ⟨json, _, hjson⟩
  exact line_of_ofJson hjson

/-- What comes back of a set-up that was stored, in any format that keeps values. It
    has the standard line, and is the same in all else. So a set-up that works on a
    chip comes back as it was, and works there. And of all texts that can be read, what
    was read is stored without loss. The text that set-ups are stored as is one of
    these formats. -/
theorem stored_exact :
    (∀ format : Json.Format,
      (∀ config, loadFrom? format (storeIn format config)
        = some { config with line := .standard }) ∧
      (∀ (chip : Chip) (config : Config), config.validate chip = .ok () →
        ∃ again, loadFrom? format (storeIn format config) = some again ∧ again = config ∧
          again.validate chip = .ok ()) ∧
      (∀ text config, loadFrom? format text = some config →
        loadFrom? format (storeIn format config) = some config)) ∧
    toText = storeIn .shortest ∧ ofText? = loadFrom? .shortest := by
  refine ⟨fun format => ⟨loadFrom_storeIn format, ?_, ?_⟩, rfl, rfl⟩
  · intro chip config hvalid
    refine ⟨config, ?_, rfl, hvalid⟩
    rw [loadFrom_storeIn, eq_of_standard (line_of_validate hvalid)]
  · intro text config hread
    rw [loadFrom_storeIn, eq_of_standard (line_of_loadFrom hread)]

end Config

end DoorBus
