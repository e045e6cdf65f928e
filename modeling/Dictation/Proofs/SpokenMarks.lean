import Dictation.Proofs.Conservation
import Dictation.Proofs.LineStarts
import Mathlib.Data.List.Chain

/-!
# Spoken marks after dictated text

With clean-up on, a spoken mark takes the place of the mark that the recognizer has put at the end
of the text before it.  It does so where that text is the last thing spoken and its marks are in one
run with no blank before it; everywhere else the mark or the blank stays, and the spoken mark is
written after it.

* `Operation.Clear`       no spoken mark comes right after a text that ends with a mark or a blank;
* `Chunk.lastText`        the text that some chunks end with, dropped commands aside;
* `Chunk.MarksClear`      what each spoken mark finds there;
* `Gate.Tallies`          the invariant of the gate, kept by each chunk;
* `Mixed.compile_clear_iff`   exactly then are the marks of a whole utterance clear.
-/

namespace Dictation

/-! ## texts that end with a mark or a blank -/

namespace Text

/-- a text with letters or digits that ends with a mark or with a blank -/
def isLoose (t : Text) : Bool :=
  t.any isAlnum && t.getLast?.any fun c => isBlank c || isAttaching c

section
variable {t : Text}

theorem isLoose_of_not_isAlnum (h : t.any isAlnum = false) : t.isLoose = false := by
  rw [isLoose, h, Bool.false_and]

theorem any_isAlnum_stripTrailing (t : Text) : t.stripTrailing.any isAlnum = t.any isAlnum := by
  rw [Bool.eq_iff_iff, ← not_iff_not, Bool.not_eq_true, Bool.not_eq_true,
    any_isAlnum_eq_false_iff, any_isAlnum_eq_false_iff, alnums_stripTrailing]

/-! a space before a text makes no difference to its end -/

theorem any_isAlnum_cons_space (t : Text) : List.any (' ' :: t) isAlnum = t.any isAlnum := by
  rw [List.any_cons, spares_isBlank ' ' (by decide), Bool.false_or]

theorem isLoose_cons_space (t : Text) : isLoose (' ' :: t) = isLoose t := by
  rw [isLoose, isLoose, any_isAlnum_cons_space]
  cases t with
  | nil => rfl
  | cons c t => rw [List.getLast?_cons_cons]

theorem stripTrailing_cons_space (h : t.allBlank = false) :
    stripTrailing (' ' :: t) = ' ' :: stripTrailing t := by
  have hright : trimRight (' ' :: t) = ' ' :: trimRight t := by
    rw [trimRight_cons, allBlank_cons, h, Bool.and_false, if_neg Bool.false_ne_true]
  have hcut : dropEndWhile isAttaching (' ' :: trimRight t) =
      ' ' :: dropEndWhile isAttaching (trimRight t) :=
    dropEndWhile_append_cons (by decide) [] _
  unfold stripTrailing
  dsimp only
  rw [hright, hcut, List.length_cons, List.length_cons]
  by_cases hlen : (dropEndWhile isAttaching (trimRight t)).length < (trimRight t).length
  · rw [if_pos hlen, if_pos (Nat.succ_lt_succ hlen)]
  · rw [if_neg hlen, if_neg fun hlt => hlen (Nat.lt_of_succ_lt_succ hlt)]

theorem isLoose_stripTrailing_cons_space (t : Text) :
    isLoose (stripTrailing (' ' :: t)) = isLoose (stripTrailing t) := by
  cases h : t.allBlank with
  | false => rw [stripTrailing_cons_space h, isLoose_cons_space]
  | true =>
    have hnone : t.any isAlnum = false :=
      (any_isAlnum_eq_false_iff t).2 (alnums_of_allBlank h)
    rw [isLoose_of_not_isAlnum (by rw [any_isAlnum_stripTrailing, any_isAlnum_cons_space, hnone]),
      isLoose_of_not_isAlnum (by rw [any_isAlnum_stripTrailing, hnone])]

end
end Text

/-! ## operations next to each other -/

namespace Operation

def isLoose : Operation → Bool
  | insertText t => t.isLoose
  | _ => false

/-- no spoken mark right after a text that ends with a mark or with a blank -/
def Clear (op op' : Operation) : Prop := Gate.isPunctuation [op'] = true → op.isLoose = false

instance : DecidableRel Clear := fun op op' =>
  inferInstanceAs (Decidable (Gate.isPunctuation [op'] = true → op.isLoose = false))

section
variable {op : Operation} {ops : List Operation}

theorem clear_iff {mark : Operation} (h : Gate.isPunctuation [mark] = true) :
    Clear op mark ↔ op.isLoose = false :=
  ⟨fun hclear => hclear h, fun hloose _ => hloose⟩

theorem isChain_concat : (ops ++ [op]).IsChain Clear ↔
    ops.IsChain Clear ∧ ∀ last, ops.getLast? = some last → Clear last op := by
  rw [List.isChain_append]
  constructor
  · rintro ⟨hops, -, hlast⟩
    exact ⟨hops, fun last h => hlast last h op rfl⟩
  · rintro ⟨hops, hlast⟩
    refine ⟨hops, .singleton op, fun last h op' hop' => ?_⟩
    obtain rfl := Option.some.inj hop'
    exact hlast last h

theorem isChain_concat_of_last (ops : List Operation) (last op : Operation) :
    (ops ++ [last] ++ [op]).IsChain Clear ↔ (ops ++ [last]).IsChain Clear ∧ Clear last op := by
  rw [isChain_concat, List.getLast?_concat]
  refine and_congr_right fun _ => ⟨fun h => h last rfl, fun h last' hlast => ?_⟩
  obtain rfl := Option.some.inj hlast
  exact h

/-- an operation that writes no spoken mark, at the end of a list -/
theorem isChain_concat_of_not_mark (h : Gate.isPunctuation [op] = false) :
    (ops ++ [op]).IsChain Clear ↔ ops.IsChain Clear := by
  rw [isChain_concat]
  refine and_iff_left fun last _ hmark => ?_
  rw [h] at hmark
  cases hmark

/-- a mark is no letter and no digit -/
theorem not_isPunctuation_of_isAlnum {t : Text} (h : t.any isAlnum = true) :
    Gate.isPunctuation [.insertText t] = false := by
  have hmarks : wordMarks.all (fun c => !isAlnum c) = true := by decide +kernel
  rcases t with _ | ⟨c, _ | ⟨d, t⟩⟩
  · rfl
  · rw [List.any_cons, List.any_nil, Bool.or_false] at h
    show isMark c = false
    rw [Bool.eq_false_iff]
    intro hc
    have := List.all_eq_true.1 hmarks c (List.contains_iff_mem.1 hc)
    rw [h] at this
    cases this
  · rfl

end
end Operation

/-! ## what a spoken mark comes after -/

namespace Chunk

/-- the text that a chunk types -/
def text? : Chunk → Option Text
  | .text t => some t
  | .command _ (.insert t) => some t
  | _ => none

def speaksMark : Chunk → Bool
  | .command _ (.run ops _) => Gate.isPunctuation ops
  | _ => false

def lastTextAfter (last : Option (Text × Bool)) (c : Chunk) : Option (Text × Bool) :=
  match c.text? with
  | some t => some (t, true)
  | none => if c.isDropped then last.map fun l => (l.1, false) else none

/-- the text that some chunks end with, dropped commands aside, and whether there are none -/
def lastText (cs : List Chunk) : Option (Text × Bool) := cs.foldl lastTextAfter none

/-- what clean-up leaves of that text before a spoken mark: it cuts off one run of marks, unless a
command was dropped after the text -/
def left (t : Text) (direct : Bool) : Text := if direct then t.stripTrailing else t

/-- each spoken mark comes after a text that is left without a mark or a blank at its end -/
def MarksClear (cs : List Chunk) : Prop :=
  ∀ past c rest, cs = past ++ c :: rest → c.speaksMark = true →
    ∀ t direct, lastText past = some (t, direct) → (left t direct).isLoose = false

section
variable {cs : List Chunk} {c : Chunk}

theorem lastText_concat (cs : List Chunk) (c : Chunk) :
    lastText (cs ++ [c]) = lastTextAfter (lastText cs) c := by
  rw [lastText, List.foldl_append]
  rfl

theorem marksClear_nil : MarksClear [] := by
  intro past c rest h
  exact absurd h.symm (List.append_ne_nil_of_right_ne_nil _ (List.cons_ne_nil _ _))

theorem marksClear_concat : MarksClear (cs ++ [c]) ↔ MarksClear cs ∧
    (c.speaksMark = true → ∀ t direct, lastText cs = some (t, direct) →
      (left t direct).isLoose = false) := by
  constructor
  · intro h
    refine ⟨fun past d rest hsplit => ?_, h cs c [] rfl⟩
    exact h past d (rest ++ [c]) (by rw [hsplit]; simp)
  · rintro ⟨hcs, hc⟩ past d rest hsplit
    rcases List.eq_nil_or_concat rest with rfl | ⟨rest, e, rfl⟩
    · obtain ⟨rfl, hd⟩ := List.append_inj' hsplit rfl
      obtain rfl := List.singleton_inj.1 hd
      exact hc
    · have hlen : cs ++ [c] = (past ++ d :: rest) ++ [e] := by rw [hsplit]; simp
      obtain ⟨hcs', -⟩ := List.append_inj' hlen rfl
      exact hcs past d rest hcs'

end
end Chunk

/-! ## the gate -/

namespace Gate
open Operation

/-- the list that operations go to now -/
def openList (g : Gate) : List Operation := if g.isClosed then g.pending else g.immediate

/-- neither list has a spoken mark after a text that ends with a mark or a blank -/
def IsClear (g : Gate) : Prop := g.immediate.IsChain Clear ∧ g.pending.IsChain Clear

/-- what a gate knows of the text at the end of the list that is open -/
structure Ends (last : Option (Text × Bool)) (trail : Trail) (ops : List Operation) : Prop where
  text : ∀ t direct, last = some (t, direct) → trail = (if direct then .text else .command) ∧
    ∃ u, (u = t ∨ u = ' ' :: t) ∧ ops.getLast? = some (.insertText u)
  other : last = none → trail ≠ .text ∧ ∀ op, ops.getLast? = some op → op.isLoose = false

section
variable {g : Gate} {f : List Operation → List Operation} {Q : Prop}

theorem openList_modify (g : Gate) (f : List Operation → List Operation) :
    (g.modify f).openList = f g.openList := by
  have hclosed : (g.modify f).isClosed = g.isClosed := by rw [isClosed, modify_question]; rfl
  rw [openList, hclosed, openList]
  cases h : g.isClosed with
  | true =>
    rw [modify_of_closed h]
    rfl
  | false =>
    rw [modify_of_open h]
    rfl

theorem isClear_modify (h : (f g.openList).IsChain Clear ↔ g.openList.IsChain Clear ∧ Q) :
    (g.modify f).IsClear ↔ g.IsClear ∧ Q := by
  cases hg : g.isClosed with
  | true =>
    rw [openList, if_pos hg] at h
    rw [modify_of_closed hg, IsClear, IsClear]
    dsimp only
    rw [h, and_assoc]
  | false =>
    rw [openList, hg, if_neg Bool.false_ne_true] at h
    rw [modify_of_open hg, IsClear, IsClear]
    dsimp only
    rw [h, and_right_comm]

end

section
variable {last : Option (Text × Bool)} {trail : Trail} {ops : List Operation}

theorem ends_text {t : Text} (ops : List Operation) {u : Text} (hu : u = t ∨ u = ' ' :: t) :
    Ends (some (t, true)) .text (ops ++ [.insertText u]) where
  text t' direct h := by
    cases h
    exact ⟨rfl, u, hu, List.getLast?_concat⟩
  other h := by cases h

theorem ends_other (ops : List Operation) {op : Operation} (htrail : trail ≠ .text)
    (hop : op.isLoose = false) : Ends none trail (ops ++ [op]) where
  text t direct h := by cases h
  other _ := by
    refine ⟨htrail, fun op' hop' => ?_⟩
    rw [List.getLast?_concat] at hop'
    obtain rfl := Option.some.inj hop'
    exact hop

/-- a dropped command -/
theorem Ends.dropped (h : Ends last trail ops) :
    Ends (last.map fun l => (l.1, false)) .command ops where
  text t direct hlast := by
    obtain ⟨⟨t', direct'⟩, rfl, heq⟩ := Option.map_eq_some_iff.1 hlast
    cases heq
    exact ⟨rfl, (h.text _ _ rfl).2⟩
  other hlast := by
    obtain rfl := Option.map_eq_none_iff.1 hlast
    exact ⟨Trail.noConfusion, (h.other rfl).2⟩

/-- a text is no spoken mark where it has a space before it, and else comes after no loose text -/
theorem Ends.isChain_text (h : Ends last trail ops) (t : Text) :
    (ops ++ [Operation.insertText
      (if trail = .nothing ∨ trail = .line then t else ' ' :: t)]).IsChain Clear ↔
      ops.IsChain Clear := by
  cases hlast : last with
  | none =>
    obtain ⟨-, hloose⟩ := h.other hlast
    rw [isChain_concat]
    exact and_iff_left fun op hop _ => hloose op hop
  | some l =>
    obtain ⟨htrail, -⟩ := h.text l.1 l.2 hlast
    have hspace : isPunctuation [.insertText (' ' :: t)] = false := by
      cases t with
      | nil => decide
      | cons c t => rfl
    have hneither : ¬(trail = .nothing ∨ trail = .line) := by
      rw [htrail]
      cases l.2 with
      | true => exact of_decide_eq_false rfl
      | false => exact of_decide_eq_false rfl
    rw [if_neg hneither]
    exact isChain_concat_of_not_mark hspace

theorem unpunctuate_concat (rest : List Operation) (u : Text) :
    unpunctuate (rest ++ [.insertText u]) =
      rest ++ [.insertText (if u.any isAlnum then u.stripTrailing else u)] := by
  unfold unpunctuate
  rw [List.getLast?_concat]
  dsimp only
  rw [List.dropLast_concat]
  split
  · rfl
  · rfl

/-- the text that a spoken mark comes after, without the recognizer's marks -/
theorem isChain_unpunctuate (rest : List Operation) (u : Text) {mark : Operation}
    (hmark : isPunctuation [mark] = true) :
    (unpunctuate (rest ++ [.insertText u]) ++ [mark]).IsChain Clear ↔
      (rest ++ [Operation.insertText u]).IsChain Clear ∧ u.stripTrailing.isLoose = false := by
  rw [unpunctuate_concat, isChain_concat_of_last, clear_iff hmark, Operation.isLoose]
  cases hu : u.any isAlnum with
  | true =>
    have hstrip : u.stripTrailing.any isAlnum = true := by
      rw [Text.any_isAlnum_stripTrailing, hu]
    rw [if_pos rfl, isChain_concat_of_not_mark (not_isPunctuation_of_isAlnum hu),
      isChain_concat_of_not_mark (not_isPunctuation_of_isAlnum hstrip)]
  | false =>
    rw [if_neg Bool.false_ne_true, Text.isLoose_of_not_isAlnum hu,
      Text.isLoose_of_not_isAlnum (by rw [Text.any_isAlnum_stripTrailing, hu])]

/-- a spoken mark comes after what is left of the last text -/
theorem Ends.isChain_mark (h : Ends last trail ops) {mark : Operation}
    (hmark : isPunctuation [mark] = true) :
    ((if trail = .text then unpunctuate ops else ops) ++ [mark]).IsChain Clear ↔
      ops.IsChain Clear ∧ ∀ t direct, last = some (t, direct) →
        (Chunk.left t direct).isLoose = false := by
  cases hlast : last with
  | none =>
    obtain ⟨htrail, hloose⟩ := h.other hlast
    rw [if_neg htrail, isChain_concat]
    exact and_congr_right fun _ => iff_of_true (fun op hop _ => hloose op hop)
      fun _ _ hnone => by cases hnone
  | some l =>
    obtain ⟨t, direct⟩ := l
    obtain ⟨htrail, u, hu, hget⟩ := h.text t direct hlast
    obtain ⟨rest, rfl⟩ := List.getLast?_eq_some_iff.1 hget
    have hleft : (∀ t' direct', some (t, direct) = some (t', direct') →
        (Chunk.left t' direct').isLoose = false) ↔ (Chunk.left t direct).isLoose = false := by
      constructor
      · exact fun h => h t direct rfl
      · rintro h t' direct' heq
        cases heq
        exact h
    rw [hleft]
    cases direct with
    | true =>
      rw [htrail, if_pos rfl, if_pos rfl, isChain_unpunctuate rest u hmark]
      rcases hu with rfl | rfl
      · rfl
      · rw [Text.isLoose_stripTrailing_cons_space]
        rfl
    | false =>
      rw [htrail, if_neg Bool.false_ne_true, if_neg Trail.noConfusion, isChain_concat_of_last,
        clear_iff hmark]
      rcases hu with rfl | rfl
      · rfl
      · rw [Operation.isLoose, Text.isLoose_cons_space]
        rfl

end

/-! ## the run of the gate -/

/-- what a gate knows -/
structure Tallies (cs : List Chunk) (g : Gate) : Prop where
  clear : g.IsClear ↔ Chunk.MarksClear cs
  ends : Ends (Chunk.lastText cs) g.trail g.openList

theorem tallies_nil : Tallies [] {} where
  clear := iff_of_true ⟨.nil, .nil⟩ Chunk.marksClear_nil
  ends := by
    refine ⟨fun t direct h => ?_, fun _ => ⟨Trail.noConfusion, fun op h => ?_⟩⟩
    · cases h
    · cases h

section
variable {cs : List Chunk} {c : Chunk} {g : Gate}

/-- a chunk that changes the list that is open -/
theorem Tallies.modify (h : Tallies cs g) (f : List Operation → List Operation) (trail : Trail)
    (hclear : (f g.openList).IsChain Clear ↔ g.openList.IsChain Clear ∧
      (c.speaksMark = true → ∀ t direct, Chunk.lastText cs = some (t, direct) →
        (Chunk.left t direct).isLoose = false))
    (hends : Ends (Chunk.lastTextAfter (Chunk.lastText cs) c) trail (f g.openList)) :
    Tallies (cs ++ [c]) { g.modify f with trail := trail } where
  clear := by
    rw [Chunk.marksClear_concat, ← h.clear]
    exact isClear_modify hclear
  ends := by
    rw [Chunk.lastText_concat]
    show Ends _ trail (g.modify f).openList
    rw [openList_modify]
    exact hends

theorem Tallies.addText (h : Tallies cs g) {t : Text} (hc : c.text? = some t) :
    Tallies (cs ++ [c]) (g.addText t) := by
  have hmark : c.speaksMark = false := by
    cases c with
    | text t => rfl
    | command source r =>
      cases r with
      | run ops confidence => cases hc
      | _ => rfl
  refine h.modify _ .text ?_ ?_
  · rw [h.ends.isChain_text, hmark]
    exact (and_iff_left fun hfalse => absurd hfalse Bool.false_ne_true).symm
  · unfold Chunk.lastTextAfter
    rw [hc]
    refine ends_text _ ?_
    split
    · exact .inl rfl
    · exact .inr rfl

theorem trailOf_ne_text (ops : List Operation) : trailOf ops ≠ .text := by
  unfold trailOf
  split
  · exact Trail.noConfusion
  · split
    · exact Trail.noConfusion
    · exact Trail.noConfusion

theorem isLoose_of_written {op : Operation} (h : written [op] = []) : op.isLoose = false := by
  cases op with
  | insertText t =>
    exact Text.isLoose_of_not_isAlnum (any_isAlnum_of_written h)
  | _ => rfl

theorem step_mark (g : Gate) (source : Text) {op : Operation} {confidence : Confidence}
    (hmark : isPunctuation [op] = true) :
    step true g (.command source (.run [op] confidence)) =
      { g.modify (fun ops => (if g.trail = .text then unpunctuate ops else ops) ++ [op]) with
        trail := trailOf [op] } := by
  rw [step_run, hmark, Bool.true_and, Bool.and_true]
  by_cases htrail : g.trail = .text
  · simp only [htrail, if_true, beq_self_eq_true, add, modify_modify]
    rfl
  · simp only [htrail, if_false, beq_iff_eq]
    rfl

theorem Tallies.confirm (h : Tallies cs g) (source prompt : Text) :
    Tallies (cs ++ [.command source (.confirm [.deleteLastSentence] prompt)])
      (step true g (.command source (.confirm [.deleteLastSentence] prompt))) where
  clear := by
    rw [Chunk.marksClear_concat, ← h.clear, step_confirm, IsClear]
    dsimp only
    rw [isChain_concat_of_not_mark rfl]
    exact (and_iff_left fun hfalse => absurd hfalse Bool.false_ne_true).symm
  ends := by
    rw [Chunk.lastText_concat]
    exact ends_other _ Trail.noConfusion rfl

/-- **One chunk.** -/
theorem Tallies.step (h : Tallies cs g) (hgated : c.Gated) (hflush : c.Flush)
    (hwordless : c.Wordless) : Tallies (cs ++ [c]) (step true g c) := by
  cases c with
  | text t => exact h.addText rfl
  | command source r =>
    cases r with
    | insert t => exact h.addText rfl
    | run new confidence =>
      match new, hflush.1 with
      | [], _ =>
        refine h.modify (· ++ []) .command ?_ ?_
        · rw [List.append_nil]
          exact (and_iff_left fun hfalse => absurd hfalse Bool.false_ne_true).symm
        · rw [List.append_nil]
          exact h.ends.dropped
      | [op], _ =>
        have hloose : op.isLoose = false := isLoose_of_written hwordless
        cases hmark : isPunctuation [op] with
        | true =>
          rw [step_mark g source hmark]
          refine h.modify _ (trailOf [op]) ?_ (ends_other _ (trailOf_ne_text _) hloose)
          rw [h.ends.isChain_mark hmark]
          exact and_congr_right fun _ => ⟨fun hleft _ => hleft, fun hleft => hleft hmark⟩
        | false =>
          rw [step_run, hmark, Bool.false_and, Bool.false_and, if_neg Bool.false_ne_true]
          refine h.modify _ (trailOf [op]) ?_ ?_
          · rw [isChain_concat_of_not_mark hmark]
            refine (and_iff_left fun htrue => ?_).symm
            rw [show Chunk.speaksMark _ = isPunctuation [op] from rfl, hmark] at htrue
            cases htrue
          · exact ends_other _ (trailOf_ne_text _) hloose
    | confirm ops prompt =>
      obtain rfl : ops = [.deleteLastSentence] := hgated
      exact h.confirm source prompt

theorem tallies_run (hgated : ∀ c ∈ cs, c.Gated) (hflush : ∀ c ∈ cs, c.Flush)
    (hwordless : ∀ c ∈ cs, c.Wordless) : Tallies cs (run true cs) := by
  induction cs using List.reverseRecOn with
  | nil => exact tallies_nil
  | append_singleton cs c ih =>
    have hcs {P : Chunk → Prop} (h : ∀ x ∈ cs ++ [c], P x) : ∀ x ∈ cs, P x := fun x hx =>
      h x (List.mem_append_left _ hx)
    rw [run_concat]
    exact (ih (hcs hgated) (hcs hflush) (hcs hwordless)).step (hgated c (by simp))
      (hflush c (by simp)) (hwordless c (by simp))

end
end Gate

namespace Mixed
open Operation

/-- **Where clean-up keeps the recognizer's marks from being doubled.**  In what runs at once and in
what waits, no spoken mark comes right after a text with letters or digits that ends with a mark or
with a blank, exactly if among the chunks no spoken mark comes after such a text: where it was
spoken right after the text, after what is left of the text without its last run of marks, and
where only dropped commands were spoken in between, after the whole text. -/
theorem compile_clear_iff (locale : Text) (asked : List Text) (t : Text) :
    let m := compile (Context.ofOptions locale asked true) t
    (m.immediate.IsChain Clear ∧ m.pending.IsChain Clear) ↔ Chunk.MarksClear m.chunks := by
  have husable := (Context.clean_ofOptions locale asked true).usable
  unfold compile
  dsimp only
  split
  · exact iff_of_true ⟨.nil, .nil⟩ Chunk.marksClear_nil
  · refine (Gate.tallies_run (fun c hc => Chunk.gated_of_mem hc) (fun c hc => ?_)
      fun c hc => ?_).clear
    · obtain ⟨s, hs, hmem⟩ := List.mem_flatMap.1 hc
      exact Chunk.flush_of_mem_ofSegment husable (Segment.found_of_mem hs) hmem
    · obtain ⟨s, -, hmem⟩ := List.mem_flatMap.1 hc
      exact Chunk.wordless_of_mem_ofSegment hmem

/-- a blank before the mark, two marks with a blank between them, a dropped command, and the same
behind a question -/
theorem recognizer_marks_doubled :
    let run := fun t : String => compile (Context.ofOptions "en-GB".toList [] true) t.toList
    ¬ (run "Hello . voicemark comma").immediate.IsChain Clear ∧
      ¬ (run "Hello. . voicemark full stop").immediate.IsChain Clear ∧
      ¬ (run "Hello. voicemark period voicemark comma").immediate.IsChain Clear ∧
      ¬ (run "voicemark delete last sentence Hello. . voicemark comma").pending.IsChain Clear := by
  -- evaluation is faster on texts that are spelled out
  simp only [String.reduceToList]
  exact ⟨by decide +kernel, by decide +kernel, by decide +kernel, by decide +kernel⟩

end Mixed
end Dictation
