import Mathlib.Data.List.Forall2
import PathVeil.Json.Forms
import PathVeil.Proofs.Json.Structure

/-!
# PathVeil.Proofs.Json.ReadBack

Rules, configurations, redactions and summaries are read back from their JSON
forms. Each says for itself which of its keys may be left out, and for which value.

* `Json.Inverts` — a reader that undoes a form, and what follows for absent values
  and for lists;
* `Json.takesIn_of_put` — fields whose reader undoes the form of one part;
* `Json.forms_read_back` — all four types.
-/

namespace PathVeil

namespace Json

/-! ### Readers that undo a form -/

section Inverts

variable {α : Type} {reader : Reader α} {form : α → Json}

/-- Whether the reader gives back what was written. -/
def Inverts (reader : Reader α) (form : α → Json) : Prop :=
  ∀ value, reader (form value) = .ok value

/-- Different values have different forms if there is a reader. -/
theorem Inverts.injective (h : Inverts reader form) : form.Injective := by
  intro a b heq
  have hread : reader (form a) = .ok b := by rw [heq, h b]
  rw [h a] at hread
  exact Except.ok.inj hread

/-- No form may look like an absent value. -/
theorem Inverts.option (h : Inverts reader form) (hnull : ∀ value, form value ≠ .null) :
    Inverts (asOption reader) (ofOption form) := by
  intro value
  cases value with
  | none => rfl
  | some value =>
    rw [ofOption, asOption, h value]
    · rfl
    · exact hnull value

/-- A list is read item by item. -/
theorem mapM_eq_ok {items : List Json} {values : List α}
    (h : List.Forall₂ (fun value item => reader item = .ok value) values items) :
    items.mapM reader = .ok values := by
  induction h with
  | nil => rfl
  | cons hitem _ ih =>
    rw [List.mapM_cons, hitem, ih]
    rfl

theorem Inverts.list (h : Inverts reader form) :
    Inverts (asList reader) fun values => .array (values.map form) := by
  intro values
  refine mapM_eq_ok ?_
  rw [List.forall₂_map_right_iff, List.forall₂_same]
  exact fun value _ => h value

theorem inverts_string : Inverts asString .string := fun _ => rfl

theorem inverts_bool : Inverts asBool .bool := fun _ => rfl

theorem inverts_nat : Inverts asNat fun count => .integer count := by
  intro count
  rw [asNat, if_neg (by omega), Int.toNat_natCast]

theorem inverts_path : Inverts asPath ofPath := by
  intro path
  rw [ofPath, asPath, asString, Except.map, String.toList_ofList]

theorem inverts_strings : Inverts (asList asString) ofStrings := inverts_string.list

theorem inverts_string? : Inverts (asOption asString) (ofOption .string) :=
  inverts_string.option nofun

theorem inverts_bool? : Inverts (asOption asBool) (ofOption .bool) := inverts_bool.option nofun

theorem inverts_strings? : Inverts (asOption (asList asString)) (ofOption ofStrings) :=
  inverts_strings.option nofun

theorem inverts_extent : Inverts Extent.ofJson fun extent => .string extent.label := by
  intro extent
  cases extent <;> decide

end Inverts

/-! ### Fields for one part -/

/-- A field takes in what is written for it if it reads one part and puts it in place,
and that part is what the value behind its name shows. -/
theorem takesIn_of_put {α β : Type} {toJson : α → Json} {name : String} {reader : Reader β}
    {form : β → Json} (get : α → β) {put : α → β → α} (hinverts : Inverts reader form)
    (hget : ∀ value, (toJson value).valueAt? name = some (form (get value)))
    (hput : ∀ value part, get (put value part) = part)
    (hother : ∀ value part key, name ≠ key →
      (toJson (put value part)).valueAt? key = (toJson value).valueAt? key)
    {required : Bool} {value : α} {json : Json} (hjson : (toJson value).valueAt? name = some json) :
    Field.TakesIn toJson ⟨name, required, fun start json => (reader json).map (put start)⟩ json
      value := by
  intro start
  rw [hget, Option.some_inj] at hjson
  refine ⟨put start (get value), ?_, fun key => ?_⟩
  · show (reader json).map (put start) = _
    rw [← hjson, hinverts (get value)]
    rfl
  · by_cases hkey : name = key
    · rw [if_pos hkey.symm, ← hkey, hget, hget, hput]
    · rw [if_neg (Ne.symm hkey), hother _ _ _ hkey]

end Json

/-! ### Rules -/

namespace Rule

open Json

/-- Whether the rule has the default behind this key. -/
def AtDefault (rule : Rule) (key : String) : Prop :=
  (key = "name" → rule.name = "") ∧
  (key = "description" → rule.description = none) ∧
  (key = "pattern" → rule.pattern = none) ∧
  (key = "replace_with" → rule.replaceWith = "XXX") ∧
  (key = "enabled" → rule.enabled = none) ∧
  (key = "opt_in" → rule.optIn = false) ∧
  (key = "tags" → rule.tags = none)

theorem jsonForm : Json.Form toJson jsonFields where
  carries rule := by
    refine ⟨⟨_, rfl, rfl⟩, fun field hfield json hjson => ?_⟩
    simp only [jsonFields, List.mem_cons, List.not_mem_nil, or_false] at hfield
    obtain rfl | rfl | rfl | rfl | rfl | rfl | rfl := hfield
    · refine takesIn_of_put name inverts_string (fun _ => rfl) (fun _ _ => rfl) ?_ hjson
      exact fun _ _ _ hkey => by simp [toJson, hkey]
    · refine takesIn_of_put description inverts_string? (fun _ => rfl) (fun _ _ => rfl) ?_ hjson
      exact fun _ _ _ hkey => by simp [toJson, hkey]
    · refine takesIn_of_put pattern inverts_string? (fun _ => rfl) (fun _ _ => rfl) ?_ hjson
      exact fun _ _ _ hkey => by simp [toJson, hkey]
    · refine takesIn_of_put replaceWith inverts_string (fun _ => rfl) (fun _ _ => rfl) ?_ hjson
      exact fun _ _ _ hkey => by simp [toJson, hkey]
    · refine takesIn_of_put enabled inverts_bool? (fun _ => rfl) (fun _ _ => rfl) ?_ hjson
      exact fun _ _ _ hkey => by simp [toJson, hkey]
    · refine takesIn_of_put optIn inverts_bool (fun _ => rfl) (fun _ _ => rfl) ?_ hjson
      exact fun _ _ _ hkey => by simp [toJson, hkey]
    · refine takesIn_of_put tags inverts_strings? (fun _ => rfl) (fun _ _ => rfl) ?_ hjson
      exact fun _ _ _ hkey => by simp [toJson, hkey]
  nodup := by decide
  ext a b h := by
    have hparts : a.name = b.name ∧ a.description = b.description ∧ a.pattern = b.pattern ∧
        a.replaceWith = b.replaceWith ∧ a.enabled = b.enabled ∧ a.optIn = b.optIn ∧
        a.tags = b.tags := by
      simpa [jsonFields, toJson, inverts_string?.injective.eq_iff, inverts_bool?.injective.eq_iff,
        inverts_strings?.injective.eq_iff] using h
    cases a
    cases b
    simp_all only

theorem readsBack : ReadsBack toJson ofJson [] AtDefault := by
  refine jsonForm.readsBack (by decide) fun rule key => ?_
  simp [AtDefault, jsonFields, toJson, defaultReplacement, @eq_comm _ key,
    inverts_string?.injective.eq_iff, inverts_bool?.injective.eq_iff, inverts_strings?.injective.eq_iff]

/-- Whether the configuration has the default behind this key. -/
def ConfigAtDefault (rules : List Rule) (key : String) : Prop :=
  key = "rules" → rules = []

/-- The only field of a configuration. -/
def configJsonFields : List (Json.Field (List Rule)) :=
  [⟨"rules", false, fun _ json => asList ofJson json⟩]

/-- A configuration is carried by any list of objects that are read as its rules. -/
theorem carries_of_items {rules : List Rule} {items : List Json}
    (h : List.Forall₂ (fun rule item => ofJson item = .ok rule) rules items) :
    Carries configToJson configJsonFields (.object [("rules", .array items)]) rules := by
  refine ⟨⟨_, rfl, rfl⟩, fun field hfield json hjson start => ?_⟩
  rw [configJsonFields, List.mem_singleton] at hfield
  subst hfield
  obtain rfl : Json.array items = json := by simpa using hjson
  refine ⟨rules, mapM_eq_ok h, fun key => ?_⟩
  by_cases hkey : key = "rules"
  · rw [if_pos hkey]
  · rw [if_neg hkey]
    simp [configToJson, Ne.symm hkey]

theorem configJsonForm : Json.Form configToJson configJsonFields where
  carries rules := by
    refine carries_of_items ?_
    rw [List.forall₂_map_right_iff, List.forall₂_same]
    exact fun rule _ => readsBack.written rule
  nodup := by decide
  ext a b h := by
    have hinverts : Inverts ofJson toJson := readsBack.written
    simpa [configJsonFields, configToJson, hinverts.injective.list_map.eq_iff] using h

theorem configAtDefault_iff (rules : List Rule) (key : String) :
    ConfigAtDefault rules key ↔ ∀ field ∈ configJsonFields, field.name = key →
      field.required = false ∧
        (configToJson rules).valueAt? field.name = (configToJson []).valueAt? field.name := by
  simp [ConfigAtDefault, configJsonFields, configToJson, @eq_comm _ key]

theorem config_readsBack : ReadsBack configToJson configOfJson [] ConfigAtDefault :=
  configJsonForm.readsBack (by decide) configAtDefault_iff

/-- The rules in a configuration may be edited, too, each for itself. -/
theorem config_readsBack_items {rules : List Rule} {items : List Json} {dropped : List String}
    {json : Json}
    (hitems : List.Forall₂ (fun rule item => ∃ dropped, Edited dropped (toJson rule) item ∧
      ∀ key ∈ dropped, rule.AtDefault key) rules items)
    (h : Edited dropped (.object [("rules", .array items)]) json) :
    configOfJson json = .ok rules ↔ ∀ key ∈ dropped, ConfigAtDefault rules key := by
  have hread : List.Forall₂ (fun rule item => ofJson item = .ok rule) rules items := by
    refine hitems.imp fun rule item hitem => ?_
    obtain ⟨droppedKeys, hedited, hdefault⟩ := hitem
    exact (readsBack.edited rule droppedKeys item hedited).mpr hdefault
  exact configJsonForm.edited_eq_ok_iff_atDefault (configAtDefault_iff rules)
    (carries_of_items hread) h

end Rule

/-! ### Redactions -/

namespace Redaction

open Json

/-- Whether the redaction has a default behind this key, and it is its value. -/
def AtDefault (redaction : Redaction) (key : String) : Prop :=
  key ∉ ["rule_name", "outcome", "sanitized_path", "path_hash"] ∧
  (key = "source_id" → redaction.sourceId = "") ∧
  (key = "timestamp" → redaction.timestamp = none)

theorem jsonForm : Json.Form toJson jsonFields where
  carries redaction := by
    refine ⟨⟨_, rfl, rfl⟩, fun field hfield json hjson => ?_⟩
    simp only [jsonFields, List.mem_cons, List.not_mem_nil, or_false] at hfield
    obtain rfl | rfl | rfl | rfl | rfl | rfl := hfield
    · refine takesIn_of_put ruleName inverts_string (fun _ => rfl) (fun _ _ => rfl) ?_ hjson
      exact fun _ _ _ hkey => by simp [toJson, hkey]
    · refine takesIn_of_put extent inverts_extent (fun _ => rfl) (fun _ _ => rfl) ?_ hjson
      exact fun _ _ _ hkey => by simp [toJson, hkey]
    · refine takesIn_of_put sanitizedPath inverts_path (fun _ => rfl) (fun _ _ => rfl) ?_ hjson
      exact fun _ _ _ hkey => by simp [toJson, hkey]
    · refine takesIn_of_put pathHash inverts_string (fun _ => rfl) (fun _ _ => rfl) ?_ hjson
      exact fun _ _ _ hkey => by simp [toJson, hkey]
    · refine takesIn_of_put sourceId inverts_string (fun _ => rfl) (fun _ _ => rfl) ?_ hjson
      exact fun _ _ _ hkey => by simp [toJson, hkey]
    · refine takesIn_of_put timestamp inverts_string? (fun _ => rfl) (fun _ _ => rfl) ?_ hjson
      exact fun _ _ _ hkey => by simp [toJson, hkey]
  nodup := by decide
  ext a b h := by
    have hparts : a.ruleName = b.ruleName ∧ a.extent = b.extent ∧
        a.sanitizedPath = b.sanitizedPath ∧ a.pathHash = b.pathHash ∧ a.sourceId = b.sourceId ∧
        a.timestamp = b.timestamp := by
      simpa [jsonFields, toJson, inverts_path.injective.eq_iff, inverts_extent.injective.eq_iff,
        inverts_string?.injective.eq_iff] using h
    cases a
    cases b
    simp_all only

theorem readsBack :
    ReadsBack toJson ofJson ["rule_name", "outcome", "sanitized_path", "path_hash"] AtDefault := by
  refine jsonForm.readsBack (by decide) fun redaction key => ?_
  simp [AtDefault, jsonFields, toJson, unread, @eq_comm _ key, inverts_string?.injective.eq_iff,
    and_assoc]

end Redaction

/-! ### Summaries -/

namespace SummaryItem

open Json

/-- No key of a summary item has a default. -/
def AtDefault (_ : SummaryItem) (key : String) : Prop :=
  key ∉ ["rule_name", "occurrences", "full_matches", "partial_matches", "sanitized_samples"]

theorem jsonForm : Json.Form toJson jsonFields where
  carries item := by
    refine ⟨⟨_, rfl, rfl⟩, fun field hfield json hjson => ?_⟩
    simp only [jsonFields, List.mem_cons, List.not_mem_nil, or_false] at hfield
    obtain rfl | rfl | rfl | rfl | rfl := hfield
    · refine takesIn_of_put ruleName inverts_string (fun _ => rfl) (fun _ _ => rfl) ?_ hjson
      exact fun _ _ _ hkey => by simp [toJson, hkey]
    · refine takesIn_of_put occurrences inverts_nat (fun _ => rfl) (fun _ _ => rfl) ?_ hjson
      exact fun _ _ _ hkey => by simp [toJson, hkey]
    · refine takesIn_of_put fullMatches inverts_nat (fun _ => rfl) (fun _ _ => rfl) ?_ hjson
      exact fun _ _ _ hkey => by simp [toJson, hkey]
    · refine takesIn_of_put partialMatches inverts_nat (fun _ => rfl) (fun _ _ => rfl) ?_ hjson
      exact fun _ _ _ hkey => by simp [toJson, hkey]
    · refine takesIn_of_put samples inverts_path.list (fun _ => rfl) (fun _ _ => rfl) ?_ hjson
      exact fun _ _ _ hkey => by simp [toJson, hkey]
  nodup := by decide
  ext a b h := by
    have hparts : a.ruleName = b.ruleName ∧ a.occurrences = b.occurrences ∧
        a.fullMatches = b.fullMatches ∧ a.partialMatches = b.partialMatches ∧
        a.samples = b.samples := by
      simpa [jsonFields, toJson, inverts_path.injective.list_map.eq_iff, Int.natCast_inj] using h
    cases a
    cases b
    simp_all only

theorem readsBack : ReadsBack toJson ofJson
    ["rule_name", "occurrences", "full_matches", "partial_matches", "sanitized_samples"]
    AtDefault := by
  refine jsonForm.readsBack (by decide) fun item key => ?_
  simp [AtDefault, jsonFields, @eq_comm _ key]

end SummaryItem

namespace Json

/-- Rules, configurations, redactions and summary items are read back from what they are
written as. Keys that are not known are passed over, and the keys may stand in any
order. A key may be left out just if it has a default, and that is its value; the rules
in a configuration may do the same, each for itself. Where a key without a default is
left out, the first such key is reported as missing. -/
theorem forms_read_back :
    ReadsBack Rule.toJson Rule.ofJson [] Rule.AtDefault ∧
    ReadsBack Rule.configToJson Rule.configOfJson [] Rule.ConfigAtDefault ∧
    ReadsBack Redaction.toJson Redaction.ofJson
      ["rule_name", "outcome", "sanitized_path", "path_hash"] Redaction.AtDefault ∧
    ReadsBack SummaryItem.toJson SummaryItem.ofJson
      ["rule_name", "occurrences", "full_matches", "partial_matches", "sanitized_samples"]
      SummaryItem.AtDefault ∧
    ∀ (rules : List Rule) (items : List Json) (dropped : List String) (json : Json),
      List.Forall₂ (fun rule item => ∃ dropped, Edited dropped (Rule.toJson rule) item ∧
        ∀ key ∈ dropped, rule.AtDefault key) rules items →
      Edited dropped (.object [("rules", .array items)]) json →
      (Rule.configOfJson json = .ok rules ↔ ∀ key ∈ dropped, Rule.ConfigAtDefault rules key) :=
  ⟨Rule.readsBack, Rule.config_readsBack, Redaction.readsBack, SummaryItem.readsBack,
    fun _ _ _ _ => Rule.config_readsBack_items⟩

/-- A redaction without the two keys that have defaults, with two of the others in
another order and one more. -/
theorem forms_read_back_redaction :
    Redaction.ofJson (.object [("outcome", .string "partial"), ("rule_name", .string "orders"),
        ("sanitized_path", .string "/orders/XXX"), ("path_hash", .string "5e1f"),
        ("line", .integer 7)]) =
      .ok { ruleName := "orders", extent := .leading, sanitizedPath := "/orders/XXX".toList,
            pathHash := "5e1f" } := by
  refine (forms_read_back.2.2.1.edited _ ["source_id", "timestamp"] _ ?_).mpr ?_
  · have hadded : ∀ field ∈ [("line", Json.integer 7)], field.1 ∉
        ["rule_name", "outcome", "sanitized_path", "path_hash", "source_id", "timestamp"] := by
      decide
    refine .object hadded ?_
    simpa [ofPath, Extent.label] using List.Perm.swap _ _ _
  · simp [Redaction.AtDefault]

end Json

end PathVeil
