import Dictation.Proofs.Answers
import Dictation.Proofs.Json.Reading

/-!
# When a compiler refuses

A call of a compiler is always answered with a string.  The string tells of an error exactly if an
option has a value that it cannot have or the text is none, and of the options if both are so.  In
every other case it is JSON.

* `Json.IsText`, `Json.IsTexts`, `Json.IsTruth`   the values that options can have;
* `Checked.Decides`    a reading that has a result exactly if something holds;
* `Checked.Located`    a reading whose problems are at the bad fields, each of them and no other;
* `Tool.Bad`           an option with a value that it cannot have; `Tool.located_context`;
* `Tool.Passed`        a call with some value for the text;
* `Tool.refused_iff`   both compilers.
-/

namespace Dictation

/-! ## values of options -/

namespace Json

/-- a string without a surrogate that stands alone -/
def IsText (v : Json) : Prop := ∃ t, v = .ofText t

def IsTexts (v : Json) : Prop := ∃ vs, v = .arr vs ∧ ∀ w ∈ vs, w.IsText

def trueWords : List Text :=
  ["1".toList, "t".toList, "true".toList, "y".toList, "yes".toList, "on".toList]

def falseWords : List Text :=
  ["0".toList, "f".toList, "false".toList, "n".toList, "no".toList, "off".toList]

/-- a truth value, zero or one as a number, or one of the words in any case -/
inductive IsTruth : Json → Prop where
  | bool (b : Bool) : IsTruth (.bool b)
  | int {i : Int} (h : i = 0 ∨ i = 1) : IsTruth (.int i)
  | float {x : Binary64} (h : x.toInt? = some 0 ∨ x.toInt? = some 1) : IsTruth (.float x)
  | word {t : Text} (h : t.map Char.toLower ∈ trueWords ++ falseWords) : IsTruth (.ofText t)

theorem isText_iff {v : Json} : v.IsText ↔ v.text?.isSome = true := by
  rw [Option.isSome_iff_exists]
  exact exists_congr fun _ => text?_eq_some_iff.symm

theorem text?_eq_none {v : Json} (h : ¬ v.IsText) : v.text? = none := by
  rwa [isText_iff, Option.not_isSome_iff_eq_none] at h

theorem isTruth_str_iff {s : Units} :
    IsTruth (.str s) ↔
      ∃ t, Units.decode? s = some t ∧ t.map Char.toLower ∈ trueWords ++ falseWords := by
  constructor
  · intro h
    cases h with
    | word h => exact ⟨_, Units.decode?_encode _, h⟩
  · rintro ⟨t, ht, h⟩
    rw [← Units.encode_of_decode? ht]
    exact .word h

end Json

/-! ## results and problems -/

namespace Checked

section
variable {α β γ : Type} {good good' : Prop} {bad bad' : String → Prop} {c : Checked α}
  {d : Checked β}

/-- a result if this holds, and problems if not -/
inductive Decides (good : Prop) : Checked α → Prop where
  | ok (a : α) (h : good) : Decides good (.ok a)
  | error (ps : List Problem) (hne : ps ≠ []) (h : ¬ good) : Decides good (.error ps)

theorem decides_fail (cause : Cause) (v : Json) (h : ¬ good) :
    Decides good (fail cause v : Checked α) := .error _ (List.cons_ne_nil _ _) h

theorem Decides.congr (h : Decides good c) (hiff : good ↔ good') : Decides good' c := by
  rwa [← propext hiff]

theorem Decides.map (h : Decides good c) (f : α → β) : Decides good (Except.map f c) := by
  cases h with
  | ok a h => exact .ok (f a) h
  | error ps hne h => exact .error ps hne h

theorem Decides.within (h : Decides good c) (s : Step) : Decides good (within s c) := by
  cases h with
  | ok a h => exact .ok a h
  | error ps hne h => exact .error _ (mt List.map_eq_nil_iff.1 hne) h

theorem Decides.both (h : Decides good c) (h' : Decides good' d) (f : α → β → γ) :
    Decides (good ∧ good') (both f c d) := by
  cases h with
  | ok a h =>
    cases h' with
    | ok b h' => exact .ok (f a b) ⟨h, h'⟩
    | error ps hne h' => exact .error ps hne fun hand => h' hand.2
  | error ps hne h =>
    cases h' with
    | ok b h' => exact .error ps hne fun hand => h hand.1
    | error qs hne' h' =>
      exact .error _ (List.append_ne_nil_of_left_ne_nil hne qs) fun hand => h hand.1

/-- the problem is at this field -/
def At (name : String) (p : Problem) : Prop := p.path.head? = some (.field name.toList)

/-- a result if no field is bad, and else problems at the bad fields, at each of them and at no
other one -/
inductive Located (bad : String → Prop) : Checked α → Prop where
  | ok (a : α) (hgood : ∀ name, ¬ bad name) : Located bad (.ok a)
  | error (ps : List Problem) (hne : ps ≠ []) (hat : ∀ p ∈ ps, ∃ name, bad name ∧ At name p)
      (hall : ∀ name, bad name → ∃ p ∈ ps, At name p) : Located bad (.error ps)

theorem Located.congr (h : Located bad c) (hiff : ∀ name, bad name ↔ bad' name) :
    Located bad' c := by
  rwa [← funext fun name => propext (hiff name)]

theorem Decides.located (h : Decides good c) (name : String) :
    Located (fun name' => name' = name ∧ ¬ good) (Checked.within (.field name.toList) c) := by
  cases h with
  | ok a h => exact .ok a fun _ hbad => hbad.2 h
  | error ps hne h =>
    refine .error _ (mt List.map_eq_nil_iff.1 hne) (fun p hp => ?_) (fun name' hname => ?_)
    · obtain ⟨q, -, rfl⟩ := List.mem_map.1 hp
      exact ⟨name, ⟨rfl, h⟩, rfl⟩
    · obtain ⟨q, qs, rfl⟩ := List.exists_cons_of_ne_nil hne
      exact ⟨_, List.mem_cons_self, by rw [hname.1]; rfl⟩

theorem Located.both (h : Located bad c) (h' : Located bad' d) (f : α → β → γ) :
    Located (fun name => bad name ∨ bad' name) (both f c d) := by
  cases h with
  | ok a hgood =>
    cases h' with
    | ok b hgood' => exact .ok (f a b) fun name hor => hor.elim (hgood name) (hgood' name)
    | error ps hne hat hall =>
      refine .error ps hne (fun p hp => ?_) fun name hor =>
        hor.elim (absurd · (hgood name)) (hall name)
      exact (hat p hp).imp fun _ hname => ⟨.inr hname.1, hname.2⟩
  | error ps hne hat hall =>
    cases h' with
    | ok b hgood' =>
      refine .error ps hne (fun p hp => ?_) fun name hor =>
        hor.elim (hall name) (absurd · (hgood' name))
      exact (hat p hp).imp fun _ hname => ⟨.inl hname.1, hname.2⟩
    | error qs hne' hat' hall' =>
      refine .error _ (List.append_ne_nil_of_left_ne_nil hne qs) (fun p hp => ?_) fun name hor => ?_
      · rcases List.mem_append.1 hp with hp | hp
        · exact (hat p hp).imp fun _ hname => ⟨.inl hname.1, hname.2⟩
        · exact (hat' p hp).imp fun _ hname => ⟨.inr hname.1, hname.2⟩
      · rcases hor with hbad | hbad
        · exact (hall name hbad).imp fun _ hp => ⟨List.mem_append_left qs hp.1, hp.2⟩
        · exact (hall' name hbad).imp fun _ hp => ⟨List.mem_append_right ps hp.1, hp.2⟩

end
end Checked

namespace Schema
open Checked

/-! ## readings of values -/

theorem decides_text (v : Json) : Decides v.IsText (text v) := by
  unfold text
  cases ht : v.text? with
  | some t => exact .ok t (Json.isText_iff.2 (by rw [ht]; rfl))
  | none => exact decides_fail .notText v fun h => by rw [Json.isText_iff, ht] at h; cases h

section
variable {α : Type} {read : Json → Checked α} {P : Json → Prop}

theorem decides_itemsFrom (h : ∀ v, Decides (P v) (read v)) (i : Nat) (vs : List Json) :
    Decides (∀ v ∈ vs, P v) (itemsFrom read i vs) := by
  induction vs generalizing i with
  | nil => exact .ok [] fun _ hv => absurd hv List.not_mem_nil
  | cons v vs ih =>
    exact (((h v).within (.index i)).both (ih (i + 1)) List.cons).congr List.forall_mem_cons.symm

end

theorem decides_texts (v : Json) : Decides v.IsTexts (listOf text v) := by
  cases v with
  | arr vs =>
    refine (decides_itemsFrom decides_text 0 vs).congr ⟨fun h => ⟨vs, rfl, h⟩, ?_⟩
    rintro ⟨_, ⟨⟩, h⟩
    exact h
  | _ => exact decides_fail .notList _ fun ⟨_, h, _⟩ => nomatch h

theorem decides_triggers (v : Json) : Decides v.IsTexts (triggers v) := (decides_texts v).map _

theorem boolWord?_isSome (t : Text) :
    (boolWord? t).isSome = true ↔ t.map Char.toLower ∈ Json.trueWords ++ Json.falseWords := by
  rw [List.mem_append, ← List.contains_iff_mem, ← List.contains_iff_mem]
  unfold boolWord?
  dsimp only
  split
  · next h => exact ⟨fun _ => .inl h, fun _ => rfl⟩
  · next h =>
    split
    · next h' => exact ⟨fun _ => .inr h', fun _ => rfl⟩
    · next h' => exact ⟨fun hsome => (nomatch hsome), fun hor => (hor.elim h h').elim⟩

theorem boolInt?_isSome (i : Int) : (boolInt? i).isSome = true ↔ i = 0 ∨ i = 1 := by
  unfold boolInt?
  split
  · next h => exact ⟨fun _ => .inr h, fun _ => rfl⟩
  · next h =>
    split
    · next h' => exact ⟨fun _ => .inl h', fun _ => rfl⟩
    · next h' => exact ⟨fun hsome => (nomatch hsome), fun hor => (hor.elim h' h).elim⟩

theorem isSmall_of_zero_or_one {i : Int} (h : i = 0 ∨ i = 1) : isSmall i = true := by
  rcases h with rfl | rfl <;> rfl

/-- a word or a number that may stand for a truth value -/
theorem decides_option {good : Prop} {o : Option Bool} (h : o.isSome = true ↔ good) (v : Json) :
    Decides good (match o with | some b => .ok b | none => fail .unclearBool v) := by
  cases o with
  | some b => exact .ok b (h.1 rfl)
  | none => exact decides_fail .unclearBool v fun hgood => nomatch h.2 hgood

theorem decides_bool (v : Json) : Decides v.IsTruth (bool v) := by
  cases v with
  | bool b => exact .ok b (.bool b)
  | str s =>
    refine decides_option ?_ (.str s)
    rw [Json.isTruth_str_iff, Option.isSome_bind, Option.any_eq_true]
    exact exists_congr fun t => and_congr_right fun _ => boolWord?_isSome t
  | int i =>
    have hiff : (.int i : Json).IsTruth ↔ i = 0 ∨ i = 1 := ⟨fun | .int h => h, .int⟩
    rw [bool]
    dsimp only
    split
    · exact decides_option ((boolInt?_isSome i).trans hiff.symm) (.int i)
    · next h =>
      refine decides_fail .notBool _ fun htruth => h ?_
      rw [isSmall_of_zero_or_one (hiff.1 htruth), Bool.true_or]
  | float x =>
    have hiff : (.float x : Json).IsTruth ↔ x.toInt? = some 0 ∨ x.toInt? = some 1 :=
      ⟨fun | .float h => h, .float⟩
    rw [bool]
    dsimp only
    cases hx : x.toInt? with
    | none =>
      refine decides_fail .notBool _ fun htruth => ?_
      rw [hiff, hx] at htruth
      exact htruth.elim nofun nofun
    | some i =>
      rw [hx, Option.some.injEq, Option.some.injEq] at hiff
      dsimp only
      split
      · exact decides_option ((boolInt?_isSome i).trans hiff.symm) (.float x)
      · next h =>
        exact decides_fail .notBool _ fun htruth => h (isSmall_of_zero_or_one (hiff.1 htruth))
  | _ => exact decides_fail .notBool _ fun h => nomatch h

/-! ## fields -/

section
variable {α : Type} {read : Json → Checked α} {P : Json → Prop}

theorem located_withDefault (h : ∀ v, Decides (P v) (read v)) (name : String) (default : α)
    (fs : Fields) :
    Located (fun name' => name' = name ∧ ∃ v, Json.get? (Json.key name) fs = some v ∧ ¬ P v)
      (withDefault name read default fs) := by
  unfold withDefault
  cases Json.get? (Json.key name) fs with
  | none => exact .ok default fun name' hbad => by obtain ⟨-, v, hv, -⟩ := hbad; cases hv
  | some v => exact ((h v).located name).congr fun name' => by simp

end
end Schema

/-! ## options of a call -/

namespace Tool
open Checked

/-- an option that is given with a value it cannot have; triggers can be null -/
inductive Bad (args : Fields) : String → Prop where
  | locale {v : Json} (given : Json.get? (Json.key "locale") args = some v) (h : ¬ v.IsText) :
      Bad args "locale"
  | triggers {v : Json} (given : Json.get? (Json.key "prefixes") args = some v) (hnull : v ≠ .null)
      (h : ¬ v.IsTexts) : Bad args "prefixes"
  | cleanup {v : Json} (given : Json.get? (Json.key "asr_cleanup") args = some v)
      (h : ¬ v.IsTruth) : Bad args "asr_cleanup"

section
variable {args : Fields}

/-- triggers that are null are not looked at -/
theorem get?_contextArguments (hkeys : (args.map (·.1)).Nodup) {k : Units} {v : Json} :
    Json.get? k (contextArguments args) = some v ↔
      Json.get? k args = some v ∧ (k = Json.key "prefixes" → v ≠ .null) := by
  have hsub : ((contextArguments args).map (·.1)).Nodup := hkeys.sublist (List.filter_sublist.map _)
  rw [Json.get?_eq_some_iff_mem hsub, Json.get?_eq_some_iff_mem hkeys, contextArguments,
    List.mem_filter]
  refine and_congr_right fun _ => ?_
  cases v with
  | null => simp
  | _ => simp

theorem located_context (hkeys : (args.map (·.1)).Nodup) :
    Located (Bad args) (Schema.contextFields (contextArguments args)) := by
  have hlocale := Schema.located_withDefault Schema.decides_text "locale" Context.defaultLocale
    (contextArguments args)
  have htriggers := Schema.located_withDefault Schema.decides_triggers "prefixes"
    Context.defaultTriggers (contextArguments args)
  have hcleanup := Schema.located_withDefault Schema.decides_bool "asr_cleanup" false
    (contextArguments args)
  refine (hlocale.both (htriggers.both hcleanup Prod.mk)
    fun l (p : List Text × Bool) => Context.mk l p.1 p.2).congr fun name => ?_
  simp only [get?_contextArguments hkeys]
  constructor
  · rintro (⟨rfl, v, hv, h⟩ | ⟨rfl, v, hv, h⟩ | ⟨rfl, v, hv, h⟩)
    · exact .locale hv.1 h
    · exact .triggers hv.1 (hv.2 trivial) h
    · exact .cleanup hv.1 h
  · rintro (⟨hv, h⟩ | ⟨hv, hnull, h⟩ | ⟨hv, h⟩)
    · exact .inl ⟨rfl, _, ⟨hv, fun heq => absurd heq (by decide)⟩, h⟩
    · exact .inr (.inl ⟨rfl, _, ⟨hv, fun _ => hnull⟩, h⟩)
    · exact .inr (.inr ⟨rfl, _, ⟨hv, fun heq => absurd heq (by decide)⟩, h⟩)

end

/-! ## answers -/

/-- a call with this value for the text, with no argument twice, and with none that the tool does
not have -/
structure Passed (tool : Tool) (args : Fields) (v : Json) : Prop where
  known : tool.unknown? args = none
  distinct : (args.map (·.1)).Nodup
  given : Json.get? (Json.key tool.parameters.1) args = some v

section
variable {link : Cause → Option Text} {tool : Tool} {args : Fields} {v : Json} {ctx : Context}

/-- the document of a compiler is an object or an array -/
def documentKind : Tool → Json.Kind
  | compileTranscript => .arr
  | _ => .obj

theorem kind_compiled (ctx : Context) (t : Text) (tool : Tool) :
    (tool.compiled ctx t).kind = tool.documentKind := by
  cases tool <;> rfl

/-- an object or an array opens with its bracket, and no failure does -/
theorem not_failurePhrase_of_kind {tool' : Tool} (hv : v.kind = tool'.documentKind)
    (l : Json.Layout) : ¬ tool.failurePhrase <+: v.write l := by
  have hopen : (v.write l).head? ≠ some 'E' := by
    cases v with
    | arr vs => cases vs <;> simp [Json.write, Json.writeAt]
    | obj fs => cases fs <;> simp [Json.write, Json.writeAt]
    | _ => cases tool' <;> cases hv
  rintro ⟨s, hs⟩
  rw [← hs] at hopen
  cases tool <;> exact hopen rfl

theorem context_of_error {ps : List Problem}
    (h : Schema.contextFields (contextArguments args) = .error ps) :
    context args = .error (.options ps) := by
  rw [context, h]

theorem context_of_ok (h : Schema.contextFields (contextArguments args) = .ok ctx) :
    context args = .ok ctx := by
  rw [context, h]

/-- **When a compiler refuses.**  Whatever the values of its arguments, a call of a compiler is
answered.  The answer tells of a failure exactly if an option has a value that it cannot have or the
text is none.  If an option has, the answer is the report on the options, text or no text, and its
problems are at those options, at each of them and at no other one.  If none has, the answer names
the kind of what is no text, and for a text it is read as the compiled value, an object or an
array. -/
theorem refused_iff (link : Cause → Option Text) (htool : tool ≠ .findSentenceStart)
    (h : Passed tool args v) :
    ∃ a, call link tool args = .ok a ∧
      (tool.failurePhrase <+: a.text ↔ (∃ name, Bad args name) ∨ ¬ v.IsText) ∧
      ((∃ name, Bad args name) → ∃ ps, context args = .error (.options ps) ∧
        (∀ p ∈ ps, ∃ name, Bad args name ∧ At name p) ∧
        (∀ name, Bad args name → ∃ p ∈ ps, At name p) ∧
        a.text = tool.failurePhrase ++ Problem.report link Schema.contextModel.toList ps) ∧
      ((∀ name, ¬ Bad args name) → ∃ ctx, context args = .ok ctx ∧
        (¬ v.IsText → a.text = tool.failurePhrase ++ (tool.textRefusal ctx v).message link) ∧
        ∀ t, v = .ofText t → Json.read? a.text = some (tool.compiled ctx t) ∧
          (tool.compiled ctx t).kind = tool.documentKind) := by
  refine ⟨_, call_of_given htool h.known h.given, ?_⟩
  have hlocated := located_context h.distinct
  generalize hfields : Schema.contextFields (contextArguments args) = c at hlocated
  cases hlocated with
  | error ps hne hat hall =>
    obtain ⟨p, hp⟩ := List.exists_mem_of_ne_nil ps hne
    obtain ⟨name, hname, -⟩ := hat p hp
    rw [context_of_error hfields]
    exact ⟨⟨fun _ => .inl ⟨name, hname⟩, fun _ => ⟨_, rfl⟩⟩, fun _ => ⟨ps, rfl, hat, hall, rfl⟩,
      fun hgood => absurd hname (hgood name)⟩
  | ok ctx hgood =>
    rw [context_of_ok hfields]
    dsimp only
    by_cases hv : v.IsText
    · obtain ⟨t, rfl⟩ := hv
      rw [Json.text?_ofText]
      refine ⟨⟨fun hphrase => ?_, fun hor => ?_⟩, fun ⟨name, hname⟩ => absurd hname (hgood name),
        fun _ => ⟨ctx, rfl, fun hnot => absurd ⟨t, rfl⟩ hnot, fun t' ht => ?_⟩⟩
      · exact absurd hphrase (not_failurePhrase_of_kind (kind_compiled ctx t tool) .compact)
      · rcases hor with ⟨name, hname⟩ | hnot
        · exact absurd hname (hgood name)
        · exact absurd ⟨t, rfl⟩ hnot
      · have htext : t = t' := Option.some.inj (by rw [← Json.text?_ofText, ht, Json.text?_ofText])
        rw [htext]
        exact ⟨Json.read?_write (exact_compiled ctx t' tool) .compact, kind_compiled ctx t' tool⟩
    · rw [Json.text?_eq_none hv]
      exact ⟨⟨fun _ => .inr hv, fun _ => ⟨_, rfl⟩⟩, fun ⟨name, hname⟩ => absurd hname (hgood name),
        fun _ => ⟨ctx, rfl, fun _ => rfl, fun t ht => absurd ⟨t, ht⟩ hv⟩⟩

end

/-- a call in which neither the text nor an option is what it must be -/
def unclearFields : List (String × Json) :=
  [("text", .null), ("asr_cleanup", .ofText "maybe".toList), ("prefixes", .null)]

def unclearArguments : Fields := unclearFields.map fun f => (Json.key f.1, f.2)

/-- the answer is about the option -/
theorem unclear_option_refused : ∃ a ps,
    call (fun _ => none) .compileDictation unclearArguments = .ok a ∧
      ps ≠ [] ∧ (∀ p ∈ ps, At "asr_cleanup" p) ∧
      a.text = "Error compiling dictation: ".toList ++
        Problem.report (fun _ => none) "ParseContext".toList ps := by
  have hget (name : String) :
      Json.get? (Json.key name) unclearArguments = unclearFields.lookup name :=
    Json.get?_record name unclearFields
  have hpassed : Passed .compileDictation unclearArguments .null :=
    ⟨by decide, by decide, hget "text"⟩
  have hunclear : ¬ (Json.ofText "maybe".toList).IsTruth := fun h => by
    obtain ⟨t, ht, hword⟩ := Json.isTruth_str_iff.1 h
    rw [Units.decode?_encode] at ht
    cases ht
    exact absurd hword (by decide)
  have hbad : Bad unclearArguments "asr_cleanup" := .cleanup (hget _) hunclear
  obtain ⟨a, hcall, -, hoptions, -⟩ := refused_iff (fun _ => none) (by decide) hpassed
  obtain ⟨ps, -, hat, hall, htext⟩ := hoptions ⟨_, hbad⟩
  obtain ⟨p, hp, -⟩ := hall _ hbad
  refine ⟨a, ps, hcall, List.ne_nil_of_mem hp, fun p hp => ?_, htext⟩
  obtain ⟨name, hname, hp⟩ := hat p hp
  cases hname with
  | locale hgiven _ => rw [hget] at hgiven; cases hgiven
  | triggers hgiven hnull _ => rw [hget] at hgiven; cases hgiven; exact absurd rfl hnull
  | cleanup _ _ => exact hp

end Tool
end Dictation
