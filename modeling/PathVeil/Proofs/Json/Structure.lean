import Mathlib.Data.List.Find
import Mathlib.Data.List.Nodup
import PathVeil.Json.Decode

/-!
# PathVeil.Proofs.Json.Structure

Structures that are written as objects and read back. Reading looks at the keys
that it knows, in an order of its own, and begins with a value that has the
defaults. So an object may have its fields in any order and further fields with
other keys, and may leave out a field whose value is the default.

* `Json.Edited` — such a change of an object;
* `Json.ReadsBack` — what it means that a type stands these changes;
* `Json.Form.readsBack` — that every type does whose fields read what is written.

## Proof shape

A structure is known by the values of its fields in its written form (`Form.ext`).
Reading a field sets its own and leaves all others as they are (`Field.TakesIn`). By
induction on the fields, what is read shows at every key that is there what was
written, and at every other the default (`readFields_valueAt?`).
-/

namespace PathVeil.Json

/-! ### Keys and entries -/

/-- The value of a key, if the value is an object that has it. -/
def valueAt? (json : Json) (key : String) : Option Json :=
  match json with
  | .object fields => get? fields key
  | _ => none

@[simp] theorem valueAt?_object (fields : List (String × Json)) (key : String) :
    valueAt? (.object fields) key = get? fields key := rfl

-- Not by `rfl`, with which simp would compare lookups by evaluating them.
@[simp] theorem get?_nil (key : String) : get? [] key = none := by simp [get?]

@[simp] theorem get?_cons (name : String) (json : Json) (fields : List (String × Json))
    (key : String) :
    get? ((name, json) :: fields) key = if name = key then some json else get? fields key := by
  by_cases h : name = key
  · simp [get?, h]
  · simp [get?, h]

/-- A key that does not stand for two values has the value that stands behind it. -/
theorem get?_eq_some_iff {fields : List (String × Json)} {key : String} {json : Json}
    (hunique : ∀ a b, (key, a) ∈ fields → (key, b) ∈ fields → a = b) :
    get? fields key = some json ↔ (key, json) ∈ fields := by
  rw [get?, Option.map_eq_some_iff]
  constructor
  · intro h
    obtain ⟨⟨name, value⟩, hfind, rfl⟩ := h
    have hname : name = key := by simpa using List.find?_some hfind
    exact hname ▸ List.mem_of_find?_eq_some hfind
  · intro hmem
    have hsome : (fields.find? (·.1 == key)).isSome := by
      rw [List.find?_isSome]
      exact ⟨(key, json), hmem, beq_self_eq_true key⟩
    obtain ⟨⟨name, value⟩, hfind⟩ := Option.isSome_iff_exists.mp hsome
    have hname : name = key := by simpa using List.find?_some hfind
    subst hname
    exact ⟨_, hfind, hunique _ _ (List.mem_of_find?_eq_some hfind) hmem⟩

theorem get?_eq_none_iff {fields : List (String × Json)} {key : String} :
    get? fields key = none ↔ key ∉ fields.map Prod.fst := by
  rw [get?, Option.map_eq_none_iff, List.find?_eq_none]
  simp only [beq_iff_eq, List.mem_map, not_exists, not_and]

/-- Where no key occurs twice, a key has one value. -/
theorem eq_of_mem_of_nodup {fields : List (String × Json)} (h : (fields.map Prod.fst).Nodup)
    {key : String} {a b : Json} (ha : (key, a) ∈ fields) (hb : (key, b) ∈ fields) : a = b := by
  have hpair : (key, a) = (key, b) := List.inj_on_of_nodup_map h ha hb rfl
  exact congrArg Prod.snd hpair

/-! ### Edits of an object -/

/-- An object after an edit: the fields with the dropped keys are left out, others with
keys that it did not have are added, and they may all stand in another order. -/
inductive Edited (dropped : List String) : Json → Json → Prop
  | object {fields added values : List (String × Json)}
    (hadded : ∀ field ∈ added, field.1 ∉ fields.map Prod.fst)
    (hvalues : values.Perm (fields.filter (·.1 ∉ dropped) ++ added)) :
    Edited dropped (.object fields) (.object values)

namespace Edited

variable {fields values : List (String × Json)} {dropped : List String} {key : String}

theorem exists_object {json : Json} (h : Edited dropped (.object fields) json) :
    ∃ values, json = .object values := by
  cases h
  exact ⟨_, rfl⟩

/-- Behind a key of the object the edited one has what the object has there, unless
the key was dropped. -/
theorem mem_iff (h : Edited dropped (.object fields) (.object values))
    (hkey : key ∈ fields.map Prod.fst) {json : Json} :
    (key, json) ∈ values ↔ (key, json) ∈ fields ∧ key ∉ dropped := by
  cases h with
  | @object _ added _ hadded hvalues =>
    rw [hvalues.mem_iff, List.mem_append, List.mem_filter, decide_eq_true_eq]
    constructor
    · intro hmem
      rcases hmem with hkept | hnew
      · exact hkept
      · exact absurd hkey (hadded _ hnew)
    · exact Or.inl

theorem get?_eq (h : Edited dropped (.object fields) (.object values))
    (hnodup : (fields.map Prod.fst).Nodup) (hkey : key ∈ fields.map Prod.fst) :
    get? values key = if key ∈ dropped then none else get? fields key := by
  by_cases hdropped : key ∈ dropped
  · rw [if_pos hdropped, get?_eq_none_iff]
    intro hmem
    obtain ⟨⟨name, json⟩, hfield, rfl⟩ := List.mem_map.mp hmem
    exact ((h.mem_iff hkey).mp hfield).2 hdropped
  · rw [if_neg hdropped]
    obtain ⟨⟨name, json⟩, hfield, rfl⟩ := List.mem_map.mp hkey
    have hfields : get? fields name = some json :=
      (get?_eq_some_iff fun a b => eq_of_mem_of_nodup hnodup).mpr hfield
    rw [hfields, get?_eq_some_iff]
    · exact (h.mem_iff hkey).mpr ⟨hfield, hdropped⟩
    · intro a b ha hb
      exact eq_of_mem_of_nodup hnodup ((h.mem_iff hkey).mp ha).1 ((h.mem_iff hkey).mp hb).1

end Edited

/-- No edit is an edit. -/
theorem edited_refl (fields : List (String × Json)) :
    Edited [] (.object fields) (.object fields) := by
  have hadded : ∀ field ∈ ([] : List (String × Json)), field.1 ∉ fields.map Prod.fst := by simp
  exact .object hadded (by simp)

/-! ### Reading the fields -/

section Reading

variable {α : Type} {toJson : α → Json}

/-- Whether the field takes this JSON value for what it is in the given structure:
afterwards the field is as it is there, and all else is as it was. -/
def Field.TakesIn (toJson : α → Json) (field : Field α) (json : Json) (value : α) : Prop :=
  ∀ start, ∃ next, field.set start json = .ok next ∧ ∀ key,
    (toJson next).valueAt? key =
      if key = field.name then (toJson value).valueAt? key else (toJson start).valueAt? key

/-- What is read shows what the value does at the keys that are there, and what the
start does at the others. -/
theorem readFields_valueAt? {values : List (String × Json)} {value : α} (fields : List (Field α))
    (h : ∀ field ∈ fields, ∀ json, get? values field.name = some json →
      field.TakesIn toJson json value) (start : α) :
    ∃ next, readFields values start fields = .ok next ∧ ∀ key,
      (toJson next).valueAt? key =
        if key ∈ fields.map Field.name ∧ (get? values key).isSome then (toJson value).valueAt? key
        else (toJson start).valueAt? key := by
  induction fields generalizing start with
  | nil => exact ⟨start, rfl, by simp⟩
  | cons field fields ih =>
    have hmore : ∀ other ∈ fields, ∀ json, get? values other.name = some json →
        other.TakesIn toJson json value := fun other hother =>
      h other (List.mem_cons_of_mem _ hother)
    rw [readFields]
    cases hfield : get? values field.name with
    | none =>
      obtain ⟨next, hnext, hvalueAt⟩ := ih hmore start
      refine ⟨next, hnext, fun key => ?_⟩
      rw [hvalueAt key]
      by_cases hkey : key = field.name
      · simp [hkey, hfield]
      · simp [hkey]
    | some json =>
      obtain ⟨middle, hset, hmiddle⟩ := h field List.mem_cons_self json hfield start
      obtain ⟨next, hnext, hvalueAt⟩ := ih hmore middle
      refine ⟨next, by simpa only [hset] using hnext, fun key => ?_⟩
      rw [hvalueAt key, hmiddle key]
      by_cases hkey : key = field.name
      · simp [hkey, hfield]
      · simp [hkey]

/-- The field that is reported as missing. -/
def missing? (values : List (String × Json)) (fields : List (Field α)) : Option (Field α) :=
  fields.find? fun field => field.required && (get? values field.name).isNone

/-- An object is read in full, and then what it ought to have is looked for. -/
theorem asStructure_object {values : List (String × Json)} {value : α} {fields : List (Field α)}
    (h : ∀ field ∈ fields, ∀ json, get? values field.name = some json →
      field.TakesIn toJson json value) (title : String) (start : α) :
    ∃ next,
      (missing? values fields = none →
        asStructure title start fields (.object values) = .ok next) ∧
      (∀ field, missing? values fields = some field →
        asStructure title start fields (.object values) = .error (.missingField field.name)) ∧
      ∀ key, (toJson next).valueAt? key =
        if key ∈ fields.map Field.name ∧ (get? values key).isSome then (toJson value).valueAt? key
        else (toJson start).valueAt? key := by
  obtain ⟨next, hnext, hvalueAt⟩ := readFields_valueAt?
    (fields.mergeSort fun a b => !(b.name < a.name))
    (fun field hfield => h field (List.mem_mergeSort.mp hfield)) start
  refine ⟨next, fun hnone => ?_, fun field hsome => ?_, fun key => ?_⟩
  · rw [missing?] at hnone
    simp only [asStructure, hnext, hnone]
  · rw [missing?] at hsome
    simp only [asStructure, hnext, hsome]
  · simpa only [List.mem_map, List.mem_mergeSort] using hvalueAt key

/-! ### Reading back -/

/-- That structures are read back from their written form and from any edit of it that
can be told to be one of theirs: nothing but fields that have their default may be
left out, and certainly none of the required ones. -/
structure ReadsBack (toJson : α → Json) (ofJson : Reader α) (required : List String)
    (AtDefault : α → String → Prop) : Prop where
  /-- What was written is read as it was. -/
  written : ∀ value, ofJson (toJson value) = .ok value
  /-- An edited object is read as the same value just if each key that was left out
  stands for its default. -/
  edited : ∀ value dropped json, Edited dropped (toJson value) json →
    (ofJson json = .ok value ↔ ∀ name ∈ dropped, AtDefault value name)
  /-- The first required field that was left out is reported. -/
  missing : ∀ value dropped json, Edited dropped (toJson value) json →
    ∀ name, required.find? (· ∈ dropped) = some name →
      ofJson json = .error (.missingField name)

/-- That an object carries the value: it has the keys of the fields, and each field
takes in what stands behind its own. -/
structure Carries (toJson : α → Json) (fields : List (Field α)) (carrier : Json) (value : α) :
    Prop where
  keys : ∃ written, carrier = .object written ∧ written.map Prod.fst = fields.map Field.name
  takesIn : ∀ field ∈ fields, ∀ json, carrier.valueAt? field.name = some json →
    field.TakesIn toJson json value

/-- That structures are written as objects which carry them, and which tell them apart. -/
structure Form (toJson : α → Json) (fields : List (Field α)) : Prop where
  carries : ∀ value, Carries toJson fields (toJson value) value
  nodup : (fields.map Field.name).Nodup
  ext : ∀ a b, (∀ field ∈ fields, (toJson a).valueAt? field.name = (toJson b).valueAt? field.name) →
    a = b

namespace Form

variable {fields : List (Field α)} {values : List (String × Json)} {value : α}

/-- When an object is read as a value that all its fields fit. -/
theorem asStructure_eq_ok_iff (form : Form toJson fields)
    (h : ∀ field ∈ fields, ∀ json, get? values field.name = some json →
      field.TakesIn toJson json value) (title : String) (start : α) :
    asStructure title start fields (.object values) = .ok value ↔
      ∀ field ∈ fields, get? values field.name = none →
        field.required = false ∧
          (toJson value).valueAt? field.name = (toJson start).valueAt? field.name := by
  obtain ⟨next, hok, herror, hvalueAt⟩ := asStructure_object h title start
  have hnext : next = value ↔ ∀ field ∈ fields, get? values field.name = none →
      (toJson value).valueAt? field.name = (toJson start).valueAt? field.name := by
    constructor
    · intro heq field hfield hnone
      rw [← heq, hvalueAt, if_neg (by simp [hnone])]
    · intro hdefault
      refine form.ext next value fun field hfield => ?_
      rw [hvalueAt]
      cases hget : get? values field.name with
      | none => rw [if_neg (by simp), hdefault field hfield hget]
      | some json => rw [if_pos ⟨List.mem_map_of_mem hfield, rfl⟩]
  cases hmissing : missing? values fields with
  | some field =>
    -- A required field is not there: there is no value, and the right side fails at it.
    rw [herror field hmissing]
    rw [missing?] at hmissing
    have hfield := List.mem_of_find?_eq_some hmissing
    have hrequired := List.find?_some hmissing
    rw [Bool.and_eq_true, Option.isNone_iff_eq_none] at hrequired
    constructor
    · intro heq
      cases heq
    · intro hall
      exact absurd hrequired.1 (by simp [(hall field hfield hrequired.2).1])
  | none =>
    rw [hok hmissing, Except.ok.injEq, hnext]
    rw [missing?, List.find?_eq_none] at hmissing
    constructor
    · intro hdefault field hfield hnone
      refine ⟨?_, hdefault field hfield hnone⟩
      simpa [hnone] using hmissing field hfield
    · intro hall field hfield hnone
      exact (hall field hfield hnone).2

variable {carrier json : Json} {dropped : List String}

/-- A field is missing from an edited object just if it was dropped; otherwise it takes
in what is there. -/
theorem exists_of_edited (form : Form toJson fields) (hcarrier : Carries toJson fields carrier value)
    (h : Edited dropped carrier json) :
    ∃ values, json = .object values ∧
      (∀ field ∈ fields, get? values field.name = none ↔ field.name ∈ dropped) ∧
      ∀ field ∈ fields, ∀ json, get? values field.name = some json →
        field.TakesIn toJson json value := by
  obtain ⟨written, rfl, hkeys⟩ := hcarrier.keys
  obtain ⟨values, rfl⟩ := h.exists_object
  have hget : ∀ field ∈ fields, field.name ∈ written.map Prod.fst ∧
      get? values field.name = if field.name ∈ dropped then none else get? written field.name := by
    intro field hfield
    have hkey : field.name ∈ written.map Prod.fst := hkeys ▸ List.mem_map_of_mem hfield
    exact ⟨hkey, h.get?_eq (hkeys ▸ form.nodup) hkey⟩
  refine ⟨values, rfl, fun field hfield => ?_, fun field hfield json hjson => ?_⟩
  · obtain ⟨hkey, hvalue⟩ := hget field hfield
    by_cases hdropped : field.name ∈ dropped
    · simp [hvalue, hdropped]
    · rw [hvalue, if_neg hdropped, get?_eq_none_iff]
      simp [hkey, hdropped]
  · obtain ⟨-, hvalue⟩ := hget field hfield
    rw [hvalue, Option.ite_none_left_eq_some] at hjson
    exact hcarrier.takesIn field hfield json hjson.2

/-- An edited object is read as the value that it carried just if the dropped fields are
not required and have their defaults there. -/
theorem edited_eq_ok_iff (form : Form toJson fields) (hcarrier : Carries toJson fields carrier value)
    (h : Edited dropped carrier json) (title : String) (start : α) :
    asStructure title start fields json = .ok value ↔
      ∀ field ∈ fields, field.name ∈ dropped →
        field.required = false ∧
          (toJson value).valueAt? field.name = (toJson start).valueAt? field.name := by
  obtain ⟨values, rfl, hmissing, htakesIn⟩ := form.exists_of_edited hcarrier h
  rw [form.asStructure_eq_ok_iff htakesIn]
  exact forall₂_congr fun field hfield => imp_congr_left (hmissing field hfield)

/-- A required field that was dropped is reported, the first of several. -/
theorem edited_eq_missingField (form : Form toJson fields)
    (hcarrier : Carries toJson fields carrier value) (h : Edited dropped carrier json)
    {field : Field α}
    (hfind : fields.find? (fun field => field.required && field.name ∈ dropped) = some field)
    (title : String) (start : α) :
    asStructure title start fields json = .error (.missingField field.name) := by
  obtain ⟨values, rfl, hmissing, htakesIn⟩ := form.exists_of_edited hcarrier h
  obtain ⟨next, -, herror, -⟩ := asStructure_object htakesIn title start
  refine herror field ?_
  rw [← hfind, missing?]
  refine List.find?_congr fun field hfield => ?_
  rw [Bool.eq_iff_iff]
  simp only [Bool.and_eq_true, Option.isNone_iff_eq_none, hmissing field hfield, decide_eq_true_eq]

variable {title : String} {start : α} {AtDefault : α → String → Prop}

/-- The same by keys, where it is known what it means for a key to have its default. -/
theorem edited_eq_ok_iff_atDefault (form : Form toJson fields)
    (hdefault : ∀ name, AtDefault value name ↔ ∀ field ∈ fields, field.name = name →
      field.required = false ∧
        (toJson value).valueAt? field.name = (toJson start).valueAt? field.name)
    (hcarrier : Carries toJson fields carrier value) (h : Edited dropped carrier json) :
    asStructure title start fields json = .ok value ↔ ∀ name ∈ dropped, AtDefault value name := by
  rw [form.edited_eq_ok_iff hcarrier h]
  simp only [hdefault]
  constructor
  · intro hall name hname field hfield heq
    exact hall field hfield (heq ▸ hname)
  · intro hall field hfield hname
    exact hall field.name hname field hfield rfl

/-- A form is read back if the defaults are those of the value with which reading
begins. -/
theorem readsBack (form : Form toJson fields) {required : List String}
    (hrequired : (fields.filter Field.required).map Field.name = required)
    (hdefault : ∀ value name, AtDefault value name ↔ ∀ field ∈ fields, field.name = name →
      field.required = false ∧
        (toJson value).valueAt? field.name = (toJson start).valueAt? field.name) :
    ReadsBack toJson (asStructure title start fields) required AtDefault where
  written value := by
    obtain ⟨written, hwritten, -⟩ := (form.carries value).keys
    have hunedited : Edited [] (toJson value) (toJson value) := hwritten ▸ edited_refl written
    rw [form.edited_eq_ok_iff (form.carries value) hunedited]
    simp
  edited value dropped json h :=
    form.edited_eq_ok_iff_atDefault (hdefault value) (form.carries value) h
  missing value dropped json h name hname := by
    rw [← hrequired, List.find?_map, List.find?_filter] at hname
    obtain ⟨field, hfield, rfl⟩ := Option.map_eq_some_iff.mp hname
    refine form.edited_eq_missingField (form.carries value) h ?_ title start
    simpa only [Function.comp_apply, decide_eq_true_eq, Bool.decide_and, Bool.decide_eq_true]
      using hfield

end Form

end Reading

end PathVeil.Json
