import Dictation.Proofs.Conservation
import Dictation.Proofs.Margins
import Dictation.Proofs.Text.Artifacts

/-!
# Clean-up with nothing to clean up

Clean-up takes out artifacts, reads the marks of a recognizer as blanks or cuts them off, and
understands mis-heard phrases.  In a text without brackets, marks and mis-heard phrases it finds
nothing to do: the scan goes the same way, and the gate gets the same chunks and writes the same.

* `Text.Unmarked`, `Text.HeardWell`   nothing to clean up;
* `Segment.cuts_of_unmarked`          the two scans are one;
* `Gate.Plain`                        no text that the gate could cut marks off;
* `Mixed.compile_of_unmarked`         whole utterances.
-/

namespace Dictation

/-! ## texts with nothing to clean up -/

namespace Text

/-- none of the marks that a recognizer glues to words -/
def Unmarked (t : Text) : Prop := ∀ c ∈ t, isMark c = false

instance : DecidablePred Unmarked := fun t =>
  decidable_of_iff (t.all (!isMark ·)) (by simp [Unmarked])

/-- no part of the text is a mis-heard phrase, whatever its case -/
def HeardWell (t : Text) : Prop :=
  ∀ s : Text, s <:+: t → ∀ e ∈ Command.misheard, s.lower ≠ e.1.lower

section
variable {s t : Text}

theorem Unmarked.of_subset (h : t.Unmarked) (hs : s ⊆ t) : s.Unmarked := fun c hc => h c (hs hc)

theorem Unmarked.append (hs : s.Unmarked) (ht : t.Unmarked) : (s ++ t).Unmarked := by
  intro c hc
  rcases List.mem_append.1 hc with hc | hc
  · exact hs c hc
  · exact ht c hc

theorem HeardWell.of_isInfix (h : t.HeardWell) (hs : s <:+: t) : s.HeardWell := fun r hr =>
  h r (hr.trans hs)

theorem misheard_small : ∀ e ∈ Command.misheard, e.1.Ascii ∧ e.1.map Char.toLower = e.1 := by
  decide

theorem heardWell_of_lower (h : ∀ e ∈ Command.misheard, ¬ e.1 <:+: t.lower) : t.HeardWell := by
  intro s hs e he heq
  obtain ⟨hascii, hsmall⟩ := misheard_small e he
  rw [lower_of_ascii hascii, hsmall] at heq
  refine h e he ?_
  rw [← heq]
  exact infix_lower (heq ▸ hascii) hs

/-! ## what clean-up does to the characters -/

theorem isMark_of_isAttaching {c : Char} (h : isAttaching c = true) : isMark c = true :=
  (isMark_iff c).2 (.inl h)

theorem isMark_of_isFiller {c : Char} (h : isFiller c = true) : isMark c = true := by
  have hall : fillerMarks.all isMark = true := by decide
  exact List.all_eq_true.1 hall c (List.contains_iff_mem.1 h)

/-- no character of a kind that has marks only -/
theorem Unmarked.eq_false {p : Char → Bool} {c : Char} (h : t.Unmarked)
    (hp : p c = true → isMark c = true) (hc : c ∈ t) : p c = false := by
  rw [Bool.eq_false_iff]
  intro hkind
  have hmark := h c hc
  rw [hp hkind] at hmark
  cases hmark

theorem Unmarked.isAttaching {c : Char} (h : t.Unmarked) (hc : c ∈ t) : isAttaching c = false :=
  h.eq_false isMark_of_isAttaching hc

theorem Unmarked.isFiller {c : Char} (h : t.Unmarked) (hc : c ∈ t) : isFiller c = false :=
  h.eq_false isMark_of_isFiller hc

theorem fillersAtStart_of_unmarked (h : t.Unmarked) : t.fillersAtStart = t.blanksAtStart := by
  unfold fillersAtStart blanksAtStart
  congr 1
  induction t with
  | nil => rfl
  | cons c t ih =>
    have hrest := ih (h.of_subset (List.subset_cons_self c t))
    rw [List.takeWhile_cons, List.takeWhile_cons, h.isFiller List.mem_cons_self, Bool.or_false,
      hrest]

theorem stripLeading_of_unmarked (h : t.Unmarked) : t.stripLeading = t.trimLeft := by
  unfold stripLeading trimLeft
  induction t with
  | nil => rfl
  | cons c t ih =>
    have hrest := ih (h.of_subset (List.subset_cons_self c t))
    rw [List.dropWhile_cons, List.dropWhile_cons, h.isAttaching List.mem_cons_self,
      Bool.or_false, hrest]

theorem stripTrailing_of_not_attaching (h : ∀ c ∈ t, isAttaching c = false) :
    t.stripTrailing = t := by
  unfold stripTrailing
  dsimp only
  have hcut : t.trimRight.dropEndWhile Dictation.isAttaching = t.trimRight := by
    refine List.rdropWhile_eq_self_iff.2 fun hne hlast => ?_
    have hmem := (List.rdropWhile_prefix isBlank t).subset (List.getLast_mem hne)
    rw [h _ hmem] at hlast
    cases hlast
  rw [hcut, if_neg (Nat.lt_irrefl _)]

end
end Text

/-! ## the scan -/

section
variable {t : Text} {o : Option Char}

theorem isBoundary_of_unmarked (h : ∀ c ∈ o, isMark c = false) :
    isBoundary true o = isBoundary false o := by
  cases o with
  | none => rfl
  | some c => rw [isBoundary_some, isBoundary_some, h c rfl, Bool.and_false, Bool.and_false]

theorem isBoundary_getElem? (h : t.Unmarked) (i : Nat) :
    isBoundary true t[i]? = isBoundary false t[i]? :=
  isBoundary_of_unmarked fun c hc => h c (List.mem_of_getElem? hc)

theorem isBoundary_head?_drop (h : t.Unmarked) (i : Nat) :
    isBoundary true (t.drop i).head? = isBoundary false (t.drop i).head? := by
  rw [List.head?_drop]
  exact isBoundary_getElem? h i

end

namespace Trigger

section
variable {triggers : List Text} {u t : Text} {before : Option Char}

theorem stands_of_unmarked (hbefore : ∀ c ∈ before, isMark c = false) (ht : t.Unmarked)
    (u : Text) : stands true before u t = stands false before u t := by
  unfold stands
  rw [isBoundary_of_unmarked hbefore, isBoundary_head?_drop ht]

theorem tailAt?_of_unmarked (hbefore : ∀ c ∈ before, isMark c = false) (ht : t.Unmarked)
    (triggers : List Text) :
    tailAt? true before t triggers = tailAt? false before t triggers := by
  induction triggers with
  | nil => rfl
  | cons u us ih =>
    cases u with
    | nil => exact ih
    | cons c cs => rw [tailAt?, tailAt?, stands_of_unmarked hbefore ht, ih]

theorem standsAt_of_unmarked {i : Nat} (ht : t.Unmarked) (h : StandsAt true u t i) :
    StandsAt false u t i where
  ne_nil := h.ne_nil
  alike := h.alike
  before := by
    rw [← h.before]
    unfold before?
    split
    · rfl
    · rw [isBoundary_getElem? ht]
  after := by
    have hafter := h.after
    rwa [isBoundary_getElem? ht] at hafter

theorem quiet_of_unmarked {i j : Nat} (ht : t.Unmarked) (h : Quiet false triggers t i j) :
    Quiet true triggers t i j := by
  rintro k hi hj ⟨u, hu, hstands⟩
  exact h k hi hj ⟨u, hu, standsAt_of_unmarked ht hstands⟩

end
end Trigger

namespace Phrase

section
variable {t : Text}

theorem fits_of_unmarked (h : t.Unmarked) (p : Text) : fits true t p = fits false t p := by
  unfold fits
  rw [isBoundary_head?_drop h]

theorem longest?_of_unmarked (h : t.Unmarked) (table : List (Text × Text)) :
    longest? true t table = longest? false t table := by
  have hbetter : better true t = better false t := by
    funext best e
    unfold better
    rw [fits_of_unmarked h]
  rw [longest?, hbetter, longest?]

/-- a mis-heard phrase would be a part of the text -/
theorem longest?_misheard {lenient : Bool} (h : t.HeardWell) :
    longest? lenient t Command.misheard = none := by
  refine longest?_eq_iff.2 fun e he => ?_
  rw [Bool.eq_false_iff]
  intro hfits
  obtain ⟨-, hlower, -⟩ := (fits_iff _).1 hfits
  exact h _ (List.take_prefix _ _).isInfix e he hlower

/-- **The phrase after a trigger is the same one.** -/
theorem match?_of_unmarked (ctx : Context) (h : t.Unmarked) (hheard : t.HeardWell) :
    match? (Segment.lexicon { ctx with cleanup := true }) t =
      match? (Segment.lexicon { ctx with cleanup := false }) t := by
  have hgap : gap true t = gap false t := Text.fillersAtStart_of_unmarked h
  have hrest : Text.Unmarked (t.drop (gap false t)) := h.of_subset (List.drop_subset _ _)
  have hnone : longest? true (t.drop (gap false t)) Command.misheard = none :=
    longest?_misheard (hheard.of_isInfix (List.drop_suffix _ _).isInfix)
  unfold match? Segment.lexicon
  dsimp only
  rw [hgap, longest?_of_unmarked hrest, if_pos rfl, hnone, if_neg Bool.false_ne_true]
  rfl

end
end Phrase

namespace Segment

section
variable {ctx : Context} {done t : Text} {ss : List Segment}

theorem atTrigger_of_unmarked (ctx : Context) (h : t.Unmarked) (hheard : t.HeardWell)
    (offset n : Nat) :
    atTrigger (lexicon { ctx with cleanup := true }) offset n t =
      atTrigger (lexicon { ctx with cleanup := false }) offset n t := by
  unfold atTrigger
  rw [Phrase.match?_of_unmarked ctx (h.of_subset (List.drop_subset _ _))
    (hheard.of_isInfix (List.drop_suffix _ _).isInfix)]

/-- **The two scans of a text with nothing to clean up are one.** -/
theorem cuts_of_unmarked (h : Cuts (lexicon { ctx with cleanup := false }) done t ss)
    (hmarks : (done ++ t).Unmarked) (hheard : t.HeardWell) :
    Cuts (lexicon { ctx with cleanup := true }) done t ss := by
  induction h with
  | rest hquiet => exact .rest (Trigger.quiet_of_unmarked hmarks hquiet)
  | @trigger done gap t n s ss hquiet htail hs _ ih =>
    have hsplit : done ++ (gap ++ (s.source ++ t)) = (done ++ (gap ++ s.source)) ++ t := by simp
    have hahead : Text.Unmarked (s.source ++ t) := hmarks.of_subset fun c hc => by
      simp only [List.mem_append] at hc ⊢
      exact .inr (.inr hc)
    have hbefore : ∀ c ∈ (done ++ gap).getLast?, isMark c = false := by
      intro c hc
      refine hmarks c ?_
      rw [← List.append_assoc]
      exact List.mem_append_left _ (List.mem_of_getLast? hc)
    have hheard' : Text.HeardWell (s.source ++ t) :=
      hheard.of_isInfix (List.suffix_append _ _).isInfix
    refine .trigger (n := n) (Trigger.quiet_of_unmarked hmarks hquiet) ?_ ?_ (ih ?_ ?_)
    · exact (Trigger.tailAt?_of_unmarked hbefore hahead _).trans htail
    · rw [atTrigger_of_unmarked ctx hahead hheard', hs]
    · rwa [← hsplit]
    · exact hheard'.of_isInfix (List.suffix_append _ _).isInfix

theorem ofText_of_unmarked (ctx : Context) (hmarks : t.Unmarked) (hheard : t.HeardWell) :
    ofText { ctx with cleanup := true } t = ofText { ctx with cleanup := false } t :=
  cuts_iff.1 (cuts_of_unmarked (cuts_cut (lexicon { ctx with cleanup := false }) [] t) hmarks
    hheard)

/-- every segment is a part of the text, and begins with its trigger -/
theorem infix_of_cuts {lx : Lexicon} (h : Cuts lx done t ss) :
    ∀ s ∈ ss, s.trigger <+: s.source ∧ s.source <:+: t := by
  have hleading {offset : Nat} {gap : Text} {s : Segment}
      (hs : s ∈ leading offset gap.length gap) : s.trigger <+: s.source ∧ s.source = gap := by
    obtain ⟨-, rfl⟩ := mem_leading hs
    exact ⟨List.nil_prefix, rfl⟩
  induction h with
  | rest _ =>
    intro s hs
    obtain ⟨htrigger, rfl⟩ := hleading hs
    exact ⟨htrigger, List.infix_rfl⟩
  | @trigger done gap t n s ss _ _ hs _ ih =>
    intro r hr
    rcases List.mem_append.1 hr with hr | hr
    · obtain ⟨htrigger, rfl⟩ := hleading hr
      exact ⟨htrigger, (List.prefix_append _ _).isInfix⟩
    · rcases List.mem_cons.1 hr with rfl | hr
      · refine ⟨?_, gap, t, by simp⟩
        have hprefix := take_prefix_source lx (done ++ gap).length n (r.source ++ t)
        rwa [← trigger_atTrigger lx (done ++ gap).length n (r.source ++ t), hs] at hprefix
      · obtain ⟨htrigger, hinfix⟩ := ih r hr
        exact ⟨htrigger, hinfix.trans ⟨gap ++ s.source, [], by simp⟩⟩

end
end Segment

/-! ## the gate -/

namespace Operation

/-- an inserted text without letters and digits, or without marks that attach to one -/
def isPlain : Operation → Bool
  | insertText t => !t.any isAlnum || !t.any isAttaching
  | _ => true

/-- operations that write no letter -/
theorem isPlain_of_written {ops : List Operation} (h : written ops = []) :
    ∀ op ∈ ops, op.isPlain = true := by
  induction ops with
  | nil => exact fun op hop => absurd hop List.not_mem_nil
  | cons op ops ih =>
    have happ := written_append [op] ops
    rw [List.singleton_append, h] at happ
    obtain ⟨hop, hops⟩ := List.append_eq_nil_iff.1 happ.symm
    refine List.forall_mem_cons.2 ⟨?_, ih hops⟩
    cases op with
    | insertText t =>
      rw [isPlain, any_isAlnum_of_written hop]
      rfl
    | _ => rfl

end Operation

namespace Gate

/-- no text in which the gate would cut off marks -/
def Plain (g : Gate) : Prop := ∀ op ∈ g.immediate ++ g.pending, op.isPlain = true

theorem unpunctuate_of_plain {ops : List Operation} (h : ∀ op ∈ ops, op.isPlain = true) :
    unpunctuate ops = ops := by
  unfold unpunctuate
  split
  · next t ht =>
    obtain ⟨rest, rfl⟩ := List.getLast?_eq_some_iff.1 ht
    have hplain := h (.insertText t) (by simp)
    split
    · next halnum =>
      rw [Operation.isPlain, halnum, Bool.not_true, Bool.false_or, Bool.not_eq_true',
        List.any_eq_false] at hplain
      rw [List.dropLast_concat, Text.stripTrailing_of_not_attaching fun c hc =>
        Bool.eq_false_iff.2 (hplain c hc)]
    · rfl
  · rfl

theorem modify_unpunctuate {g : Gate} (h : g.Plain) : g.modify unpunctuate = g := by
  unfold modify
  split
  · rw [unpunctuate_of_plain fun op hop => h op (List.mem_append_right _ hop)]
  · rw [unpunctuate_of_plain fun op hop => h op (List.mem_append_left _ hop)]

theorem Plain.add {g : Gate} (h : g.Plain) {new : List Operation}
    (hnew : ∀ op ∈ new, op.isPlain = true) (trail : Trail) :
    Plain { g.add new with trail := trail } := by
  intro op hop
  have hor : op ∈ g.immediate ++ g.pending ∨ op ∈ new := by
    unfold Gate.add modify at hop
    split at hop
    · simp only [List.mem_append] at hop ⊢
      tauto
    · simp only [List.mem_append] at hop ⊢
      tauto
  rcases hor with hop | hop
  · exact h op hop
  · exact hnew op hop

theorem Plain.addText {g : Gate} (h : g.Plain) {t : Text} (ht : t.Unmarked) :
    (g.addText t).Plain := by
  refine h.add (fun op hop => ?_) .text
  rw [List.mem_singleton.1 hop, Operation.isPlain, Bool.or_eq_true, Bool.not_eq_true',
    Bool.not_eq_true']
  refine .inr (List.any_eq_false.2 fun c hc => ?_)
  split at hc
  · rw [ht.isAttaching hc]
    exact Bool.false_ne_true
  · rcases List.mem_cons.1 hc with rfl | hc
    · decide
    · rw [ht.isAttaching hc]
      exact Bool.false_ne_true

end Gate

namespace Chunk

/-- words without marks, or operations on which they would not be missed -/
def Plain : Chunk → Prop
  | .text t => t.Unmarked
  | .command _ (.insert t) => t.Unmarked
  | .command _ (.run ops _) => ∀ op ∈ ops, op.isPlain = true
  | .command _ (.confirm ops _) => ∀ op ∈ ops, op.isPlain = true

end Chunk

namespace Gate

/-- one chunk, with clean-up or without -/
theorem step_of_plain {g : Gate} (hg : g.Plain) {c : Chunk} (hc : c.Plain) :
    step true g c = step false g c ∧ (step false g c).Plain := by
  cases c with
  | text t => exact ⟨rfl, hg.addText hc⟩
  | command source r =>
    cases r with
    | insert t => exact ⟨rfl, hg.addText hc⟩
    | run ops confidence =>
      rw [step_run, step_run, modify_unpunctuate hg, ite_self, ite_self]
      exact ⟨rfl, hg.add hc _⟩
    | confirm ops prompt =>
      refine ⟨rfl, fun op hop => ?_⟩
      rw [step_confirm, ← List.append_assoc] at hop
      rcases List.mem_append.1 hop with hop | hop
      · exact hg op hop
      · exact hc op hop

theorem foldl_of_plain {g : Gate} (hg : g.Plain) {cs : List Chunk} (hcs : ∀ c ∈ cs, c.Plain) :
    cs.foldl (step true) g = cs.foldl (step false) g := by
  induction cs generalizing g with
  | nil => rfl
  | cons c cs ih =>
    obtain ⟨hc, hrest⟩ := List.forall_mem_cons.1 hcs
    obtain ⟨hstep, hplain⟩ := step_of_plain hg hc
    rw [List.foldl_cons, List.foldl_cons, hstep, ih hplain hrest]

/-- **The gate has no marks to cut off.** -/
theorem run_of_plain {cs : List Chunk} (h : ∀ c ∈ cs, c.Plain) : run true cs = run false cs :=
  foldl_of_plain (fun _ hop => absurd hop List.not_mem_nil) h

end Gate

/-! ## chunks with and without clean-up -/

namespace Chunk

section
variable {ctx : Context} {t : Text} {s : Segment}

theorem ofSegment_of_unmarked (ctx : Context) (h : s.source.Unmarked) :
    ofSegment { ctx with cleanup := true } s = ofSegment { ctx with cleanup := false } s := by
  have hdictated : dictated { ctx with cleanup := true } s.source =
      dictated { ctx with cleanup := false } s.source := by
    have htrim : s.source.trim.Unmarked := h.of_subset (Text.trim_isInfix _).subset
    show s.source.trim.stripLeading = s.source.trim
    rw [Text.stripLeading_of_unmarked htrim, Text.trimLeft_trim]
  unfold ofSegment
  rw [hdictated]
  rfl

theorem letters_unmarked : Text.Unmarked Command.letters := by decide

theorem spoken_unmarked {heard phrase : Text} (hheard : heard.Unmarked)
    (hphrase : phrase ∈ Command.phrases) : (Inline.spoken heard phrase).Unmarked := by
  refine hheard.append fun c hc => ?_
  rcases List.mem_cons.1 hc with rfl | hc
  · decide
  · exact letters_unmarked c (Command.letters_of_phrase hphrase c hc)

/-- the chunks of a segment without marks -/
theorem plain_of_mem_ofSegment (hmarks : s.source.Unmarked) (htrigger : s.trigger <+: s.source)
    (hfound : s.Found ctx.triggers) {c : Chunk}
    (hc : c ∈ ofSegment { ctx with cleanup := false } s) : c.Plain := by
  obtain ⟨start, source, kind⟩ := s
  cases kind with
  | text =>
    unfold ofSegment at hc
    dsimp only at hc
    split at hc
    · exact absurd hc List.not_mem_nil
    · rw [List.mem_singleton.1 hc]
      exact hmarks.of_subset (Text.trim_isInfix _).subset
  | command heard phrase corrected =>
    have hheard : heard.Unmarked := hmarks.of_subset htrigger.subset
    have hspoken := spoken_unmarked hheard hfound.2
    have hwordless := Command.interpret_wordless { ctx with cleanup := false }
      (Inline.spoken heard phrase)
    rw [List.mem_singleton.1 hc]
    cases hr : Command.interpret { ctx with cleanup := false } (Inline.spoken heard phrase) with
    | insert t =>
      obtain rfl := Command.eq_of_interpret_eq_insert hr
      exact hspoken
    | run ops confidence =>
      rw [hr] at hwordless
      exact Operation.isPlain_of_written hwordless
    | confirm ops prompt =>
      rw [hr] at hwordless
      exact Operation.isPlain_of_written hwordless
  | trigger =>
    rw [List.mem_singleton.1 hc]
    exact hmarks

variable (hmarks : t.Unmarked)
include hmarks

theorem plain_of_mem (ctx : Context) {c : Chunk}
    (hc : c ∈ ofText { ctx with cleanup := false } t) : c.Plain := by
  obtain ⟨s, hs, hc⟩ := List.mem_flatMap.1 hc
  obtain ⟨htrigger, hsource⟩ := Segment.infix_of_cuts (Segment.cuts_cut _ [] t) s hs
  exact plain_of_mem_ofSegment (hmarks.of_subset hsource.subset) htrigger
    (Segment.found_of_mem hs) hc

/-- **The chunks of a text with nothing to clean up.** -/
theorem ofText_of_unmarked (ctx : Context) (hheard : t.HeardWell) :
    ofText { ctx with cleanup := true } t = ofText { ctx with cleanup := false } t := by
  unfold ofText ofSegments
  rw [Segment.ofText_of_unmarked ctx hmarks hheard]
  refine List.flatMap_congr fun s hs => ?_
  obtain ⟨-, hsource⟩ := Segment.infix_of_cuts (Segment.cuts_cut _ [] t) s hs
  exact ofSegment_of_unmarked ctx (hmarks.of_subset hsource.subset)

end
end Chunk

namespace Mixed

theorem ofChunks_of_plain (ctx : Context) {cs : List Chunk} (h : ∀ c ∈ cs, c.Plain) :
    ofChunks { ctx with cleanup := true } cs = ofChunks { ctx with cleanup := false } cs := by
  unfold ofChunks
  rw [Gate.run_of_plain h]

/-- the marks that clean-up looks at, and the bracket that an artifact begins with -/
theorem unmarked_iff (t : Text) :
    (∀ c ∈ ",;:.!?-[".toList, c ∉ t) ↔ t.Unmarked ∧ '[' ∉ t := by
  have hlist : ",;:.!?-[".toList = wordMarks ++ ['['] := by decide
  rw [hlist]
  constructor
  · intro h
    refine ⟨fun c hc => ?_, h '[' (by simp)⟩
    rw [Bool.eq_false_iff]
    intro hmark
    exact h c (List.mem_append_left _ (List.contains_iff_mem.1 hmark)) hc
  · rintro ⟨hunmarked, hbracket⟩ c hc hct
    rcases List.mem_append.1 hc with hc | hc
    · have hmark := hunmarked c hct
      rw [isMark, List.contains_iff_mem.2 hc] at hmark
      cases hmark
    · rw [List.mem_singleton.1 hc] at hct
      exact hbracket hct

/-- **Clean-up is conservative.**  In a text without marks and brackets that has no mis-heard phrase
in it, in whatever case, clean-up makes no difference: the chunks, what runs at once, the question
and what waits for approval are the same. -/
theorem compile_of_unmarked (locale : Text) (asked : List Text) (t : Text)
    (hmarks : ∀ c ∈ ",;:.!?-[".toList, c ∉ t)
    (hheard : ∀ e ∈ Command.misheard, ¬ e.1 <:+: t.lower) :
    compile (Context.ofOptions locale asked true) t =
      compile (Context.ofOptions locale asked false) t := by
  obtain ⟨hunmarked, hbracket⟩ := (unmarked_iff t).1 hmarks
  have husable := (Context.clean_ofOptions locale asked false).usable
  have htrim := Text.trim_isInfix t
  have hcleaned : Inline.cleaned (Context.ofOptions locale asked true) t = t.trim := by
    show Text.trim (Text.removeArtifacts t) = _
    rw [Text.removeArtifacts_of_not_hasArtifact (Text.not_hasArtifact_of_not_mem hbracket)]
  have hchunks : Chunk.ofText (Context.ofOptions locale asked true) t.trim =
      Chunk.ofText (Context.ofOptions locale asked false) t := by
    rw [← Chunk.ofText_trim rfl husable t]
    exact Chunk.ofText_of_unmarked (hunmarked.of_subset htrim.subset)
      (Context.ofOptions locale asked false) ((Text.heardWell_of_lower hheard).of_isInfix htrim)
  rw [compile_eq_ofText rfl husable]
  unfold compile
  rw [hcleaned]
  dsimp only
  rw [hchunks]
  split
  · next hblank =>
    have hnil : Chunk.ofText (Context.ofOptions locale asked false) t = [] := by
      rw [← Chunk.ofText_trim rfl husable t]
      exact Chunk.ofText_of_allBlank rfl husable hblank
    rw [hnil]
    rfl
  · exact ofChunks_of_plain (Context.ofOptions locale asked false) fun _ hc =>
      Chunk.plain_of_mem hunmarked (Context.ofOptions locale asked false) hc

/-- text, a command that runs, one that asks first, a lone trigger, and blanks around them -/
theorem compile_of_unmarked_hello :
    let t : Text := " hi VOICE MARK comma  voicemark delete last sentence ok voicemark ".toList
    (∀ c ∈ ",;:.!?-[".toList, c ∉ t) ∧ (∀ e ∈ Command.misheard, ¬ e.1 <:+: t.lower) ∧
      compile (Context.ofOptions "en-GB".toList [] true) t =
        compile (Context.ofOptions "en-GB".toList [] false) t := by
  intro t
  have hmarks : ∀ c ∈ ",;:.!?-[".toList, c ∉ t := by
    rw [unmarked_iff]
    exact ⟨by decide +kernel, by decide +kernel⟩
  have hheard : ∀ e ∈ Command.misheard, ¬ e.1 <:+: t.lower := by
    rw [Text.lower_of_ascii (by decide +kernel)]
    decide +kernel
  exact ⟨hmarks, hheard, compile_of_unmarked _ _ _ hmarks hheard⟩

end Mixed
end Dictation
