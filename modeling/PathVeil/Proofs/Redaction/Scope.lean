import Mathlib.Data.List.Nodup
import PathVeil.Proofs.Engine.Run
import PathVeil.Proofs.Rule.Compilation
import PathVeil.Proofs.Rule.Validity
import PathVeil.Proofs.Text.Decoding

/-!
# PathVeil.Proofs.Redaction.Scope

What a path hash identifies. The name of the rule and the path stand one behind the
other in the input of the digest, with a colon in between, and both may have colons
of their own. So the input does not say where the name ends, and one input can stand
for two rules and two paths.

## Proof shape

Two ways to cut one text at a colon are the same, or one cut lies behind the other
(`hashInput_eq_iff`). The rest is about texts that are written in a way that can be
read back: characters as bytes (`Utf8.encode_inj`), and bytes as digits
(`Sha256.hex_inj`). Nothing is assumed about the digest itself. Two inputs with one
digest are a collision that can be named (`Sha256.Collide`).
-/

namespace PathVeil

/-! ### Digests as text -/

namespace Sha256

theorem hexDigit_inj : ∀ m < 16, ∀ n < 16, hexDigit m = hexDigit n → m = n := by decide

/-- The digits of a byte are those of no other byte. -/
theorem hexDigits_inj {b c : UInt8} (hhigh : hexDigit (b.toNat / 16) = hexDigit (c.toNat / 16))
    (hlow : hexDigit (b.toNat % 16) = hexDigit (c.toNat % 16)) : b = c := by
  have hb := b.toNat_lt
  have hc := c.toNat_lt
  have hdiv := hexDigit_inj _ (by omega) _ (by omega) hhigh
  have hmod := hexDigit_inj _ (by omega) _ (by omega) hlow
  exact UInt8.toNat_inj.mp (by omega)

theorem hex_inj {bytes others : List UInt8} : hex bytes = hex others ↔ bytes = others := by
  constructor
  · intro h
    rw [hex, hex, String.ofList_inj] at h
    induction bytes generalizing others with
    | nil =>
      cases others with
      | nil => rfl
      | cons c others => cases h
    | cons b bytes ih =>
      cases others with
      | nil => cases h
      | cons c others =>
        simp only [List.flatMap_cons, List.cons_append, List.nil_append, List.cons.injEq] at h
        obtain ⟨hhigh, hlow, hrest⟩ := h
        rw [hexDigits_inj hhigh hlow, ih hrest]
  · exact congrArg hex

/-- Two messages are a collision: they differ, and have the same digest. -/
def Collide (message other : List UInt8) : Prop := message ≠ other ∧ digest message = digest other

end Sha256

/-! ### Inputs -/

namespace Redaction

/-- Whether a name goes on behind another one, after a colon, with the text with which
the path of the shorter one begins, up to a colon behind which the path of the longer
one stands. -/
def Continues (shorter longer : String) (path rest : Path) : Prop :=
  ∃ more, longer.toList = shorter.toList ++ ':' :: more ∧ path = more ++ ':' :: rest

variable {first second : String} {p q : Path}

theorem Continues.hashInput_eq (h : Continues first second p q) :
    hashInput first p = hashInput second q := by
  obtain ⟨more, hname, hpath⟩ := h
  rw [hashInput, hashInput, hname, hpath, List.append_assoc, List.cons_append]

/-- A text that is cut at a colon is cut at the same one, or at one behind it. -/
theorem eq_or_continues {tail : List Char} (hname : second.toList = first.toList ++ tail)
    (hpath : ':' :: p = tail ++ ':' :: q) :
    first = second ∧ p = q ∨ Continues first second p q := by
  cases tail with
  | nil =>
    rw [List.append_nil] at hname
    rw [List.nil_append, List.cons.injEq] at hpath
    exact Or.inl ⟨String.toList_inj.mp hname.symm, hpath.2⟩
  | cons c more =>
    rw [List.cons_append, List.cons.injEq] at hpath
    obtain ⟨rfl, hpath⟩ := hpath
    exact Or.inr ⟨more, hname, hpath⟩

/-- **When two inputs are the same.** -/
theorem hashInput_eq_iff :
    hashInput first p = hashInput second q ↔
      first = second ∧ p = q ∨ Continues first second p q ∨ Continues second first q p := by
  constructor
  · intro h
    rw [hashInput, hashInput, Utf8.encode_inj, List.append_eq_append_iff] at h
    obtain ⟨tail, hname, hpath⟩ | ⟨tail, hname, hpath⟩ := h
    · exact (eq_or_continues hname hpath).imp_right Or.inl
    · obtain ⟨hname, hpath⟩ | hcontinues := eq_or_continues hname hpath
      · exact Or.inl ⟨hname.symm, hpath.symm⟩
      · exact Or.inr (Or.inr hcontinues)
  · intro h
    obtain ⟨rfl, rfl⟩ | hcontinues | hcontinues := h
    · rfl
    · exact hcontinues.hashInput_eq
    · exact hcontinues.hashInput_eq.symm

theorem hash_eq_iff :
    hash first p = hash second q ↔
      hashInput first p = hashInput second q ∨
        Sha256.Collide (hashInput first p) (hashInput second q) := by
  rw [hash, hash, Sha256.hex_inj]
  by_cases hinput : hashInput first p = hashInput second q
  · simp [hinput]
  · simp [hinput, Sha256.Collide]

/-! ### Rules -/

/-- Whether the inputs of the digests tell which of the rules was at work, and on which
path. -/
def InputsIdentify (rules : List Rule) : Prop :=
  ∀ first ∈ rules, ∀ second ∈ rules, ∀ p q : Path,
    hashInput first.name p = hashInput second.name q → first = second ∧ p = q

/-- They tell it unless one name begins with another one and a colon. -/
theorem inputsIdentify_iff {rules : List Rule} (hnodup : (rules.map Rule.name).Nodup) :
    InputsIdentify rules ↔
      ∀ first ∈ rules, ∀ second ∈ rules, ¬ first.name.toList ++ [':'] <+: second.name.toList := by
  constructor
  · intro h first hfirst second hsecond hprefix
    obtain ⟨more, hmore⟩ := hprefix
    have hcontinues : Continues first.name second.name (more ++ [':']) [] :=
      ⟨more, by rw [← hmore, List.append_assoc, List.singleton_append], rfl⟩
    obtain ⟨-, hpath⟩ := h first hfirst second hsecond _ _ hcontinues.hashInput_eq
    exact List.append_ne_nil_of_right_ne_nil more (List.cons_ne_nil ':' []) hpath
  · intro h first hfirst second hsecond p q hinput
    have hnot {first second : Rule} {p q : Path} (hfirst : first ∈ rules)
        (hsecond : second ∈ rules) : ¬ Continues first.name second.name p q := by
      intro ⟨more, hname, _⟩
      refine h first hfirst second hsecond ⟨more, ?_⟩
      rw [hname, List.append_assoc, List.singleton_append]
    obtain ⟨hname, hpath⟩ | hcontinues | hcontinues := hashInput_eq_iff.mp hinput
    · exact ⟨List.inj_on_of_nodup_map hnodup hfirst hsecond hname, hpath⟩
    · exact absurd hcontinues (hnot hfirst hsecond)
    · exact absurd hcontinues (hnot hsecond hfirst)

/-- **What a path hash tells.** Among rules that validation accepts, the inputs of two
digests are the same exactly if they are for one rule and one path, or one name
continues the other as far as its path does; and two redactions have the same path
hash exactly if their inputs are the same, or show a collision of the digest. So the
inputs identify rule and path exactly if no name begins with another one and a colon,
which validation does not ask for. -/
theorem pathHash_scope (rules : List Rule) (hvalid : Rule.validate rules = .ok ()) :
    (∀ first ∈ rules, ∀ second ∈ rules, ∀ p q : Path,
      (hashInput first.name p = hashInput second.name q ↔
        first = second ∧ p = q ∨ Continues first.name second.name p q ∨
          Continues second.name first.name q p) ∧
      ∀ (extent extent' : Extent) (after after' : Path) (source source' : String),
        (ofChange first.name extent p after source).pathHash =
            (ofChange second.name extent' q after' source').pathHash ↔
          hashInput first.name p = hashInput second.name q ∨
            Sha256.Collide (hashInput first.name p) (hashInput second.name q)) ∧
    (InputsIdentify rules ↔
      ∀ first ∈ rules, ∀ second ∈ rules,
        ¬ first.name.toList ++ [':'] <+: second.name.toList) := by
  have hnodup := (Rule.validate_eq_ok_iff_accepted.mp hvalid).nodup
  refine ⟨?_, inputsIdentify_iff hnodup⟩
  intro first hfirst second hsecond p q
  have hname : first.name = second.name ↔ first = second :=
    ⟨List.inj_on_of_nodup_map hnodup hfirst hsecond, congrArg Rule.name⟩
  refine ⟨?_, fun extent extent' after after' source source' => hash_eq_iff⟩
  rw [hashInput_eq_iff, hname]

/-- Two names of which none goes on behind the other: the inputs for one are none for the
other. -/
theorem pathHash_scope_orders :
    let orders := Rule.ofPattern "orders" "/orders/\x7bid\x7d" "XXX"
    let old := Rule.ofPattern "orders_old" "/old:/\x7bid\x7d" "XXX"
    Rule.validate [orders, old] = .ok () ∧
      ∀ p q : Path, hashInput orders.name p ≠ hashInput old.name q := by
  intro orders old
  have hvalid : Rule.validate [orders, old] = .ok () := by rfl
  have hidentify : InputsIdentify [orders, old] :=
    (pathHash_scope [orders, old] hvalid).2.mpr (by decide)
  refine ⟨hvalid, fun p q hinput => ?_⟩
  have hsame := hidentify orders (by simp) old (by simp) p q hinput
  exact absurd hsame.1 (by decide)

/-- Two rules that validation accepts, and two paths. Each path is changed by another
one of the rules, and the two redactions have the same path hash. -/
theorem pathHash_of_two_rules :
    let rules := [Rule.ofPattern "api" "/users:/\x7bid\x7d" "XXX",
      Rule.ofPattern "api:/users" "/\x7bid\x7d/card" "XXX"]
    let p := "/users:/42/card".toList
    let q := "/42/card".toList
    Rule.validate rules = .ok () ∧ ∃ engine, Engine.ofRules rules = .ok engine ∧
      ∃ first second, (engine.sanitize p "").2 = [first] ∧ (engine.sanitize q "").2 = [second] ∧
        first.ruleName = "api" ∧ second.ruleName = "api:/users" ∧ p ≠ q ∧
        hashInput "api" p = hashInput "api:/users" q ∧ first.pathHash = second.pathHash := by
  intro rules p q
  have hinput : hashInput "api" p = hashInput "api:/users" q :=
    Continues.hashInput_eq ⟨"/users".toList, by decide, by decide⟩
  let engine : Engine := ⟨rules.filterMap Rule.compiled?, rules⟩
  have hfirst : engine.changes p = [⟨"api", .full, p, "/users:/XXX".toList⟩] := by decide
  have hsecond : engine.changes q = [⟨"api:/users", .full, q, "/XXX/card".toList⟩] := by decide
  refine ⟨by rfl, engine, by rfl, ofChange "api" .full p "/users:/XXX".toList "",
    ofChange "api:/users" .full q "/XXX/card".toList "", ?_, ?_, rfl, rfl, by decide, hinput, ?_⟩
  · rw [Engine.sanitize_eq, hfirst]
    rfl
  · rw [Engine.sanitize_eq, hsecond]
    rfl
  · exact congrArg (fun input => Sha256.hex (Sha256.digest input)) hinput

end Redaction

end PathVeil
