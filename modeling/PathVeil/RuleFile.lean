import PathVeil.Failure
import PathVeil.Log
import PathVeil.Text.Utf8
import PathVeil.Yaml.Decode

/-!
# PathVeil.RuleFile

Rule files, and the rules that are built in. A rule file is a YAML mapping with
a list of rules under `rules`; every field of a rule may be left out. What is
read has to pass validation.
-/

namespace PathVeil

open Yaml (Document Reading)

/-! ### From YAML -/

/-- The fields of a rule. -/
def Rule.yamlFields : List (Reading.Field Rule) := [
  ⟨"name", fun rule document node =>
    (Reading.text document node).map ({ rule with name := · })⟩,
  ⟨"description", fun rule document node =>
    (Reading.option .text document node).map ({ rule with description := · })⟩,
  ⟨"pattern", fun rule document node =>
    (Reading.option .text document node).map ({ rule with pattern := · })⟩,
  ⟨"replace_with", fun rule document node =>
    (Reading.text document node).map ({ rule with replaceWith := · })⟩,
  ⟨"enabled", fun rule document node =>
    (Reading.option .bool document node).map ({ rule with enabled := · })⟩,
  ⟨"opt_in", fun rule document node =>
    (Reading.bool document node).map ({ rule with optIn := · })⟩,
  ⟨"tags", fun rule document node =>
    (Reading.option (.list .text) document node).map ({ rule with tags := · })⟩]

/-- Reads a rule. -/
def Rule.ofNode : Reading Rule := Reading.record {} Rule.yamlFields

namespace RuleFile

/-- Reads a configuration. -/
def ofNode : Reading (List Rule) :=
  Reading.record [] [⟨"rules", fun _ document node => Reading.list Rule.ofNode document node⟩]

/-- The rules of a text. A text without content has none. -/
def parse (text : List Char) : Except Yaml.Error (List Rule) := do
  match ← Document.ofText text with
  | none => return []
  | some document => ofNode document document.root

/-- The rules in the bytes of a file that is called `file`: they have to be text,
YAML, and acceptable, in this order. -/
def load (file : String) (content : List UInt8) : Except Failure (List Rule) :=
  match Utf8.decode? content with
  | none => .error ⟨.notText, some (.readingConfig file)⟩
  | some text =>
    match parse text with
    | .error error => .error ⟨.yaml error, some (.parsingConfig file)⟩
    | .ok rules =>
      match Rule.validate rules with
      | .error faults => .error ⟨.notAccepted faults, none⟩
      | .ok () => .ok rules

/-! ### In the log -/

/-- The part of the program that loads rules. -/
def speaker : String := "pathscrub_core::config"

/-- What the log says first. -/
def startRecord (file : String) : Log.Record := ⟨.info, speaker, s!"Loading path rules from: {file}"⟩

/-- What the log says while the bytes of a file are loaded. -/
def loadLog (file : String) (content : List UInt8) : List Log.Record :=
  match (Utf8.decode? content).map parse with
  | some (.ok rules) =>
    (Rule.remarks rules).map (fun remark => ⟨.warn, speaker, remark.message⟩)
      ++ if (Rule.validate rules).isOk then
        [⟨.info, speaker, s!"Loaded {rules.length} rules from file {file}."⟩] else []
  | _ => []

/-! ### Built-in rules -/

/-- The rules that are built in. -/
def defaults : List Rule := [
  { name := "password_reset_token"
    description := some "Single-use token in password reset links"
    pattern := some "/password-reset/\x7btoken\x7d"
    tags := some ["auth"] },
  { name := "email_verification_token"
    description := some "Token in email verification links"
    pattern := some "/verify-email/\x7btoken\x7d"
    tags := some ["auth"] },
  { name := "invitation_code"
    description := some "Invitation code in accept links"
    pattern := some "/invitations/\x7bcode\x7d/accept"
    tags := some ["auth"] },
  { name := "api_key_path"
    description := some "API key embedded as a path segment"
    pattern := some "/api-keys/\x7bkey\x7d"
    tags := some ["credentials"] },
  { name := "user_id"
    description := some "User identifiers in account routes"
    pattern := some "/users/\x7buser_id\x7d"
    optIn := true
    tags := some ["pii"] }]

end RuleFile

end PathVeil
