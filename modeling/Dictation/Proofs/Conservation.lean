import Dictation.Proofs.Agreement

/-!
# Every letter is typed once

Whatever is cut off, dropped or put between pieces of dictation, it is blanks and punctuation.  So
the letters and digits that the operations of an utterance insert are those of its segments, each
once and in order, with clean-up or without.

* `Text.alnums`                 the letters and digits of a text;
* `Segment.typed`               the words of a segment that are typed and not obeyed;
* `Inline.alnums_step`, `Gate.conserves_step`   one segment, one chunk;
* `Mixed.compile_conserves`     whole utterances, behind the gate and in place.
-/

namespace Dictation

namespace Text

/-- the letters and digits of a text, in order -/
def alnums (t : Text) : Text := t.filter isAlnum

section
variable {p : Char → Bool} {s t : Text}

theorem alnums_append (s t : Text) : alnums (s ++ t) = alnums s ++ alnums t :=
  List.filter_append s t

/-- characters that a cut takes away and that are no letters -/
def Spares (p : Char → Bool) : Prop := ∀ c, p c = true → isAlnum c = false

theorem spares_isBlank : Spares isBlank := by
  intro c hc
  rw [Bool.eq_false_iff]
  intro h
  rw [isBlank_of_isAlnum h] at hc
  cases hc

theorem spares_isAttaching : Spares isAttaching := by
  have hmarks : attachingMarks.all (fun c => !isAlnum c) = true := by decide +kernel
  intro c hc
  have := List.all_eq_true.1 hmarks c (List.contains_iff_mem.1 hc)
  rwa [Bool.not_eq_true'] at this

theorem any_isAlnum_eq_false_iff (t : Text) : t.any isAlnum = false ↔ alnums t = [] := by
  rw [List.any_eq_false, alnums, List.filter_eq_nil_iff]

theorem alnums_of_all (hp : Spares p) (h : t.all p = true) : alnums t = [] := by
  rw [alnums, List.filter_eq_nil_iff]
  intro c hc
  rw [hp c (List.all_eq_true.1 h c hc)]
  exact Bool.false_ne_true

theorem alnums_of_allBlank (h : allBlank t = true) : alnums t = [] :=
  alnums_of_all spares_isBlank h

theorem alnums_cons_blank {c : Char} (h : isBlank c = true) (t : Text) :
    alnums (c :: t) = alnums t := by
  rw [alnums, List.filter_cons_of_neg (by rw [spares_isBlank c h]; exact Bool.false_ne_true)]
  rfl

theorem alnums_dropWhile (hp : Spares p) (t : Text) : alnums (t.dropWhile p) = alnums t := by
  have hcut : alnums (t.takeWhile p) = [] :=
    alnums_of_all hp (List.all_eq_true.2 fun c hc => List.mem_takeWhile_imp hc)
  have h := alnums_append (t.takeWhile p) (t.dropWhile p)
  rw [List.takeWhile_append_dropWhile, hcut, List.nil_append] at h
  exact h.symm

theorem alnums_dropEndWhile (hp : Spares p) (t : Text) : alnums (t.dropEndWhile p) = alnums t := by
  have hcut : alnums (t.reverse.takeWhile p).reverse = [] :=
    alnums_of_all hp (List.all_eq_true.2 fun c hc =>
      List.mem_takeWhile_imp (List.mem_reverse.1 hc))
  have h := alnums_append (t.dropEndWhile p) (t.reverse.takeWhile p).reverse
  rw [dropEndWhile_append_cut, hcut, List.append_nil] at h
  exact h.symm

theorem alnums_trimLeft (t : Text) : alnums (trimLeft t) = alnums t :=
  alnums_dropWhile spares_isBlank t

theorem alnums_trimRight (t : Text) : alnums (trimRight t) = alnums t :=
  alnums_dropEndWhile spares_isBlank t

theorem alnums_trim (t : Text) : alnums (trim t) = alnums t := by
  rw [trim, alnums_trimRight, alnums_trimLeft]

theorem alnums_stripLeading (t : Text) : alnums (stripLeading t) = alnums t := by
  refine alnums_dropWhile (fun c hc => ?_) t
  rcases Bool.or_eq_true_iff.1 hc with h | h
  · exact spares_isBlank c h
  · exact spares_isAttaching c h

theorem alnums_stripTrailing (t : Text) : alnums (stripTrailing t) = alnums t := by
  unfold stripTrailing
  dsimp only
  split
  · rw [alnums_dropEndWhile spares_isAttaching, alnums_trimRight]
  · rfl

end
end Text

/-! ## what operations write -/

namespace Operation

/-- all that the operations insert, in order -/
def inserted (ops : List Operation) : Text := (ops.filterMap insertedText?).flatten

theorem inserted_append (xs ys : List Operation) :
    inserted (xs ++ ys) = inserted xs ++ inserted ys := by
  rw [inserted, List.filterMap_append, List.flatten_append]
  rfl

theorem inserted_concat (ops : List Operation) (t : Text) :
    inserted (ops ++ [.insertText t]) = inserted ops ++ t := by
  rw [inserted_append]
  exact congrArg (inserted ops ++ ·) (List.append_nil t)

/-- the letters and digits that the operations insert -/
def written (ops : List Operation) : Text := (inserted ops).alnums

theorem written_append (xs ys : List Operation) :
    written (xs ++ ys) = written xs ++ written ys := by
  rw [written, inserted_append, Text.alnums_append]
  rfl

theorem written_concat (ops : List Operation) (t : Text) :
    written (ops ++ [.insertText t]) = written ops ++ t.alnums := by
  rw [written, inserted_concat, Text.alnums_append]
  rfl

theorem any_isAlnum_of_written {t : Text} (h : written [.insertText t] = []) :
    t.any isAlnum = false :=
  (Text.any_isAlnum_eq_false_iff t).2 ((written_concat [] t).symm.trans h)

end Operation

/-! ## replies -/

namespace Reply

/-- what the reply runs, now or later, writes no letter -/
def Wordless : Reply → Prop
  | .insert _ => True
  | .run ops _ => Operation.written ops = []
  | .confirm ops _ => Operation.written ops = []

instance : DecidablePred Wordless
  | .insert _ => inferInstanceAs (Decidable True)
  | .run ops _ => inferInstanceAs (Decidable (Operation.written ops = []))
  | .confirm ops _ => inferInstanceAs (Decidable (Operation.written ops = []))

end Reply

namespace Command

theorem marks_wordless : ∀ p ∈ punctuation, Operation.written [.insertText p.2] = [] := by
  decide +kernel

theorem Answer.wordless {r : Reply} (h : Answer r) : r.Wordless := by
  cases h with
  | mark hp => exact marks_wordless _ hp
  | _ => rfl

theorem interpret_wordless (ctx : Context) (t : Text) : (interpret ctx t).Wordless :=
  interpret_of_answer (P := Reply.Wordless) (fun _ => trivial) rfl Answer.wordless ctx t

end Command

/-! ## what segments have to be typed -/

/-- what is typed of a command: all of it if it is no command after all; a phrase that asks first is
typed `inPlace` only -/
def Command.typed (ctx : Context) (inPlace : Bool) (trigger phrase : Text) : Text :=
  match interpret ctx (Inline.spoken trigger phrase) with
  | .insert _ => Inline.spoken trigger phrase
  | .run _ _ => []
  | .confirm _ _ => if inPlace then phrase else []

/-- the words of a segment that are typed and not obeyed -/
def Segment.typed (ctx : Context) (inPlace : Bool) (s : Segment) : Text :=
  match s.kind with
  | .text => s.source
  | .command trigger phrase _ => Command.typed ctx inPlace trigger phrase
  | .trigger => s.source

/-- of a blank text no letter is typed -/
theorem Segment.alnums_ofText_of_allBlank {ctx : Context}
    (husable : ∀ t ∈ ctx.triggers, Context.Usable t) {t : Text} (h : t.allBlank = true)
    (inPlace : Bool) :
    Text.alnums ((Segment.ofText ctx t).flatMap (Segment.typed ctx inPlace)) = [] := by
  rw [Segment.ofText_of_allBlank husable h, Segment.leading]
  split
  · rfl
  · rw [List.take_length, List.flatMap_singleton]
    exact Text.alnums_of_allBlank h

/-! ## in place -/

namespace Inline

theorem alnums_separatorAfter (last : Operation) (t : Text) :
    (separatorAfter last t).alnums = [] := by
  rcases separatorAfter_eq_nil_or last t with h | h
  · rw [h]
    rfl
  · rw [h]
    exact Text.alnums_of_allBlank (by decide)

theorem alnums_placed (ops : List Operation) (t : Text) : (placed ops t).alnums = t.alnums := by
  unfold placed
  split
  · rfl
  · rw [Text.alnums_append, alnums_separatorAfter, List.nil_append, Text.alnums_trimLeft]

theorem written_appendText (ops : List Operation) (t : Text) :
    Operation.written (appendText ops t) = Operation.written ops ++ t.alnums := by
  rw [appendText_eq]
  split
  · next hblank => rw [Text.alnums_of_allBlank hblank, List.append_nil]
  · rw [Operation.written_concat, alnums_placed]

theorem alnums_dictated (ctx : Context) (t : Text) : (dictated ctx t).alnums = t.alnums := by
  unfold dictated
  split
  · rw [Text.alnums_stripLeading, Text.alnums_trimRight]
  · exact Text.alnums_trimRight t

/-- **One segment adds the letters of what is typed of it.** -/
theorem alnums_step (ctx : Context) (ops : List Operation) (s : Segment) :
    Operation.written (step ctx ops s) = Operation.written ops ++ (s.typed ctx true).alnums := by
  unfold step Segment.typed
  cases s.kind with
  | text =>
    dsimp only
    rw [written_appendText, alnums_dictated]
  | command trigger phrase _ =>
    have hwordless := Command.interpret_wordless ctx (spoken trigger phrase)
    dsimp only
    unfold Command.typed
    cases hr : Command.interpret ctx (spoken trigger phrase) with
    | insert t =>
      obtain rfl := Command.eq_of_interpret_eq_insert hr
      exact written_appendText ops _
    | run new confidence =>
      rw [hr] at hwordless
      dsimp only
      rw [Operation.written_append, show Operation.written new = [] from hwordless]
      rfl
    | confirm asked prompt => exact written_appendText ops phrase
  | trigger =>
    dsimp only
    rw [written_appendText, Text.alnums_append, Text.alnums_of_allBlank (t := [' ']) (by decide),
      List.append_nil]

theorem written_ofSegments (ctx : Context) (ss : List Segment) :
    Operation.written (ofSegments ctx ss) = Text.alnums (ss.flatMap (Segment.typed ctx true)) := by
  have hfold (ops : List Operation) : Operation.written (ss.foldl (step ctx) ops) =
      Operation.written ops ++ Text.alnums (ss.flatMap (Segment.typed ctx true)) := by
    induction ss generalizing ops with
    | nil => exact (List.append_nil _).symm
    | cons s ss ih =>
      rw [List.foldl_cons, ih, alnums_step, List.flatMap_cons, Text.alnums_append,
        List.append_assoc]
  exact hfold []

end Inline

/-! ## behind the gate -/

/-- what is typed of a chunk -/
def Chunk.typed : Chunk → Text
  | .text t => t
  | .command _ (.insert t) => t
  | .command _ _ => []

namespace Chunk

def Wordless : Chunk → Prop
  | .text _ => True
  | .command _ r => r.Wordless

theorem alnums_dictated (ctx : Context) (t : Text) : (dictated ctx t).alnums = t.alnums := by
  unfold dictated
  split
  · rw [Text.alnums_stripLeading, Text.alnums_trim]
  · exact Text.alnums_trim t

theorem wordless_of_mem_ofSegment {ctx : Context} {s : Segment} {c : Chunk}
    (h : c ∈ ofSegment ctx s) : c.Wordless := by
  obtain ⟨t, rfl⟩ | ⟨source, rfl⟩ := exists_of_mem_ofSegment h
  · exact trivial
  · exact Command.interpret_wordless ctx source

/-- the chunks of a segment have its letters -/
theorem alnums_ofSegment (ctx : Context) (s : Segment) :
    Text.alnums ((ofSegment ctx s).flatMap typed) = (s.typed ctx false).alnums := by
  unfold ofSegment Segment.typed
  cases s.kind with
  | text =>
    have hletters := alnums_dictated ctx s.source
    dsimp only
    split
    · next hnil =>
      rw [List.isEmpty_iff.1 hnil] at hletters
      exact hletters
    · rw [List.flatMap_singleton]
      exact hletters
  | command trigger phrase _ =>
    dsimp only
    unfold Command.typed
    rw [List.flatMap_singleton]
    cases hr : Command.interpret ctx (Inline.spoken trigger phrase) with
    | insert t =>
      obtain rfl := Command.eq_of_interpret_eq_insert hr
      rfl
    | run ops confidence => rfl
    | confirm ops prompt => rfl
  | trigger => exact congrArg Text.alnums (List.append_nil _)

theorem alnums_ofSegments (ctx : Context) (ss : List Segment) :
    Text.alnums ((ofSegments ctx ss).flatMap typed)
      = Text.alnums (ss.flatMap (Segment.typed ctx false)) := by
  induction ss with
  | nil => rfl
  | cons s ss ih =>
    rw [ofSegments_cons, List.flatMap_append, Text.alnums_append, alnums_ofSegment, ih,
      List.flatMap_cons, Text.alnums_append]

end Chunk

namespace Gate

/-- the letters that a gate has to write, now or later -/
structure Conserves (g : Gate) (letters : Text) : Prop where
  written : Operation.written (g.immediate ++ g.pending) = letters
  pending_nil : g.isClosed = false → g.pending = []

section
variable {g : Gate} {letters : Text}

theorem conserves_start : Conserves {} [] where
  written := rfl
  pending_nil _ := rfl

/-- a change that adds letters at the end of any list adds them to the gate -/
theorem conserves_modify (h : Conserves g letters) {f : List Operation → List Operation}
    {new : Text} (hf : ∀ ops, Operation.written (f ops) = Operation.written ops ++ new)
    (trail : Trail) : Conserves { g.modify f with trail := trail } (letters ++ new) := by
  cases hc : g.isClosed with
  | true =>
    rw [modify_of_closed hc]
    refine ⟨?_, fun ho => absurd (hc.symm.trans ho) (by decide)⟩
    rw [Operation.written_append, hf, ← List.append_assoc, ← Operation.written_append, h.written]
  | false =>
    have hnil := h.pending_nil hc
    have hwritten := h.written
    rw [hnil, List.append_nil] at hwritten
    rw [modify_of_open hc]
    refine ⟨?_, fun _ => hnil⟩
    dsimp only
    rw [hnil, List.append_nil, hf, hwritten]

theorem conserves_addText (h : Conserves g letters) (t : Text) :
    Conserves (g.addText t) (letters ++ t.alnums) := by
  refine conserves_modify h (fun ops => ?_) .text
  rw [Operation.written_concat]
  split
  · rfl
  · rw [Text.alnums_cons_blank (by decide)]

/-- taking a mark off the last text takes no letter -/
theorem written_unpunctuate (ops : List Operation) :
    Operation.written (unpunctuate ops) = Operation.written ops := by
  rcases unpunctuate_cases ops with h | ⟨rest, t, rfl, h⟩
  · rw [h]
  · rw [h, Operation.written_concat, Operation.written_concat, Text.alnums_stripTrailing]

/-- **One chunk adds the letters of what is typed of it.** -/
theorem conserves_step (h : Conserves g letters) (cleanup : Bool) {c : Chunk} (hc : c.Wordless) :
    Conserves (step cleanup g c) (letters ++ c.typed.alnums) := by
  cases c with
  | text t => exact conserves_addText h t
  | command source r =>
    cases r with
    | insert t => exact conserves_addText h t
    | run ops confidence =>
      have hops : Operation.written ops = [] := hc
      have hadd (ops' : List Operation) :
          Operation.written (ops' ++ ops) = Operation.written ops' ++ [] := by
        rw [Operation.written_append, hops]
      rw [step_run]
      split
      · rw [add, modify_modify]
        refine conserves_modify h (fun ops' => ?_) _
        rw [Function.comp_apply, hadd, written_unpunctuate]
        rfl
      · exact conserves_modify h hadd _
    | confirm ops prompt =>
      have hops : Operation.written ops = [] := hc
      rw [step_confirm]
      refine ⟨?_, fun ho => by cases ho⟩
      dsimp only
      rw [← List.append_assoc, Operation.written_append, hops, h.written]
      rfl

theorem conserves_foldl (h : Conserves g letters) (cleanup : Bool) {cs : List Chunk}
    (hcs : ∀ c ∈ cs, c.Wordless) :
    Conserves (cs.foldl (step cleanup) g) (letters ++ Text.alnums (cs.flatMap Chunk.typed)) := by
  induction cs generalizing g letters with
  | nil => exact (List.append_nil letters).symm ▸ h
  | cons c cs ih =>
    have hstep := conserves_step h cleanup (hcs c List.mem_cons_self)
    have hrest := ih hstep fun c' hc' => hcs c' (List.mem_cons_of_mem _ hc')
    rw [List.flatMap_cons, Text.alnums_append, ← List.append_assoc]
    exact hrest

end
end Gate

/-! ## whole utterances -/

namespace Mixed

theorem written_ofSegments (ctx : Context) (ss : List Segment) :
    let m := ofChunks ctx (Chunk.ofSegments ctx ss)
    Operation.written (m.immediate ++ m.pending) =
      Text.alnums (ss.flatMap (Segment.typed ctx false)) := by
  have hwordless : ∀ c ∈ Chunk.ofSegments ctx ss, c.Wordless := by
    intro c hc
    obtain ⟨s, _, hs⟩ := List.mem_flatMap.1 hc
    exact Chunk.wordless_of_mem_ofSegment hs
  have h := (Gate.conserves_foldl Gate.conserves_start ctx.cleanup hwordless).written
  rw [List.nil_append, Chunk.alnums_ofSegments] at h
  exact h

/-- **Every letter is typed once.**  With clean-up or without, the letters and digits that the
operations of an utterance insert are, in order, those of its text, of its lone triggers and of the
commands that turn out to be none; in place, also those of the phrases that would ask first. -/
theorem compile_conserves (locale : Text) (asked : List Text) (cleanup : Bool) (t : Text) :
    let ctx := Context.ofOptions locale asked cleanup
    let ss := Segment.ofText ctx (Inline.cleaned ctx t)
    let m := compile ctx t
    (Operation.inserted (m.immediate ++ m.pending)).alnums =
        Text.alnums (ss.flatMap (Segment.typed ctx false)) ∧
      (Operation.inserted (Inline.compile ctx t)).alnums =
        Text.alnums (ss.flatMap (Segment.typed ctx true)) := by
  intro ctx ss m
  have husable := (Context.clean_ofOptions locale asked cleanup).usable
  refine ⟨?_, Inline.written_ofSegments ctx ss⟩
  show Operation.written ((compile ctx t).immediate ++ (compile ctx t).pending) = _
  unfold compile
  dsimp only
  split
  · next hblank => exact (Segment.alnums_ofText_of_allBlank husable hblank false).symm
  · exact written_ofSegments ctx ss

end Mixed
end Dictation
