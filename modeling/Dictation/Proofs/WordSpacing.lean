import Dictation.Proofs.LineStarts
import Dictation.Proofs.Seams

/-!
# The space before dictated words

Compiled in place, every operation comes from one segment.  Words that follow another operation get
one space before them, unless a line begins there, the text before ends with a blank, or they begin
with a mark that attaches.  No blank text is inserted, and the only inserted texts that end with a
blank are the triggers that no phrase follows, each with one space behind it.

* `Inline.wordsOf?`        the words of a segment, if it is not a command that runs;
* `Inline.step_cases`      what a segment adds: nothing, its words, or an operation of its own;
* `Inline.Makes`           the segment that an operation comes from;
* `Inline.Joined`          words after an operation, with the space between;
* `Inline.compile_spaced`  whole utterances.
-/

namespace Dictation

/-! ## the ends of texts -/

namespace Text

section
variable {s t : Text}

theorem trimLeft_of_flush (h : t.Flush) : t.trimLeft = t := by
  cases t with
  | nil => rfl
  | cons c t => exact trimLeft_cons_of_not_blank h t

theorem trimLeft_isSuffix (t : Text) : t.trimLeft <:+ t := List.dropWhile_suffix isBlank

theorem stripLeading_isSuffix (t : Text) : t.stripLeading <:+ t := List.dropWhile_suffix _

theorem endsSolid_concat {c : Char} : EndsSolid (t ++ [c]) ↔ isBlank c = false := by
  simp [EndsSolid]

theorem EndsSolid.allBlank (h : t.EndsSolid) : t.allBlank = false := by
  rcases List.eq_nil_or_concat' t with rfl | ⟨r, c, rfl⟩
  · cases h
  · rw [allBlank_append, allBlank_cons, endsSolid_concat.1 h, Bool.false_and, Bool.and_false]

theorem EndsSolid.of_isSuffix (h : t.EndsSolid) (hs : s <:+ t) (hne : s ≠ []) : s.EndsSolid := by
  rw [EndsSolid, Command.getLast?_of_suffix hs hne]
  exact h

theorem ne_nil_of_not_allBlank (h : t.allBlank = false) : t ≠ [] := by
  rintro rfl
  cases h

theorem trimLeft_ne_nil (h : t.allBlank = false) : t.trimLeft ≠ [] := by
  rw [ne_eq, trimLeft_eq_nil_iff, h]
  exact Bool.false_ne_true

theorem endsSolid_trimRight (h : t.allBlank = false) : t.trimRight.EndsSolid := by
  have hne : t.trimRight ≠ [] := ne_nil_of_not_allBlank (by rw [allBlank_trimRight, h])
  show t.trimRight.getLast?.any (!isBlank ·) = true
  rw [trimRight, dropEndWhile, ne_eq, List.reverse_eq_nil_iff] at hne
  obtain ⟨c, r, hc⟩ := List.exists_cons_of_ne_nil hne
  rw [trimRight, dropEndWhile, List.getLast?_reverse, hc]
  simpa using not_of_dropWhile hc

end
end Text

/-! ## what is inserted -/

namespace Operation

/-- inserts no text that ends with a blank, nor an empty one -/
def isSolid : Operation → Bool
  | insertText t => t.getLast?.any (!isBlank ·)
  | _ => true

/-- leaves a blank at the end of what it inserts -/
def endsBlank : Operation → Bool
  | insertText t => t.getLast?.any isBlank
  | _ => false

end Operation

namespace Reply

/-- what runs inserts texts that end with no blank -/
def Solid : Reply → Prop
  | .run ops _ => ∀ op ∈ ops, op.isSolid = true
  | _ => True

end Reply

namespace Command

theorem marks_solid : ∀ p ∈ punctuation, (Operation.insertText p.2).isSolid = true := by decide

theorem Answer.solid {r : Reply} (h : Answer r) : r.Solid := by
  cases h with
  | unknown => exact fun op hop => absurd hop List.not_mem_nil
  | deleteLastSentence => trivial
  | mark hp => exact List.forall_mem_singleton.2 (marks_solid _ hp)
  | _ => exact List.forall_mem_singleton.2 rfl

theorem interpret_solid (ctx : Context) (t : Text) : (interpret ctx t).Solid :=
  interpret_of_answer (P := Reply.Solid) (fun _ => trivial)
    (fun _ hop => absurd hop List.not_mem_nil) Answer.solid ctx t

end Command

namespace Inline
open Operation

/-! ## one segment -/

/-- the words that a segment inserts; a command that runs has none -/
def wordsOf? (ctx : Context) (s : Segment) : Option Text :=
  match s.kind with
  | .text => some (dictated ctx s.source)
  | .command trigger phrase _ =>
    match Command.interpret ctx (spoken trigger phrase) with
    | .confirm _ _ => some phrase
    | .insert t => some t
    | .run _ _ => none
  | .trigger => some (s.source ++ [' '])

section
variable {ctx : Context} {s : Segment} {ops : List Operation} {w : Text}

theorem placed_concat (ops : List Operation) (last : Operation) (w : Text) :
    placed (ops ++ [last]) w = separatorAfter last w.trimLeft ++ w.trimLeft := by
  rw [placed, List.getLast?_concat]

/-- the words are the end of what is added -/
theorem trimLeft_isSuffix_placed (ops : List Operation) (w : Text) :
    w.trimLeft <:+ placed ops w := by
  unfold placed
  split
  · exact Text.trimLeft_isSuffix w
  · exact List.suffix_append _ _

/-- **What a segment adds.**  Nothing, its words, or the operation that it asks for. -/
theorem step_cases (ctx : Context) (ops : List Operation) (s : Segment) :
    step ctx ops s = ops ∨
      (∃ w, wordsOf? ctx s = some w ∧ w.allBlank = false ∧
        step ctx ops s = ops ++ [.insertText (placed ops w)]) ∨
      ∃ op, wordsOf? ctx s = none ∧ op.isSolid = true ∧ step ctx ops s = ops ++ [op] := by
  have hwords (w : Text) : appendText ops w = ops ∨ w.allBlank = false ∧
      appendText ops w = ops ++ [.insertText (placed ops w)] := by
    rw [appendText_eq]
    cases w.allBlank with
    | true => exact .inl rfl
    | false => exact .inr ⟨rfl, rfl⟩
  unfold step wordsOf?
  cases s.kind with
  | text =>
    refine (hwords (dictated ctx s.source)).imp_right fun ⟨hw, h⟩ => ?_
    exact .inl ⟨_, rfl, hw, h⟩
  | trigger =>
    refine (hwords (s.source ++ [' '])).imp_right fun ⟨hw, h⟩ => ?_
    exact .inl ⟨_, rfl, hw, h⟩
  | command trigger phrase corrected =>
    have hbrief := Command.interpret_brief ctx (spoken trigger phrase)
    have hsolid := Command.interpret_solid ctx (spoken trigger phrase)
    dsimp only
    cases hr : Command.interpret ctx (spoken trigger phrase) with
    | insert t => exact (hwords t).imp_right fun ⟨hw, h⟩ => .inl ⟨t, rfl, hw, h⟩
    | confirm asked prompt =>
      exact (hwords phrase).imp_right fun ⟨hw, h⟩ => .inl ⟨phrase, rfl, hw, h⟩
    | run new confidence =>
      -- a command that runs adds no more than one operation
      rw [hr] at hbrief hsolid
      obtain ⟨hlen, -⟩ := hbrief
      match new, hlen with
      | [], _ => exact .inl (List.append_nil ops)
      | [op], _ => exact .inr (.inr ⟨op, rfl, hsolid op List.mem_cons_self, rfl⟩)

/-- a segment adds one operation at most, behind the others -/
theorem step_eq (ctx : Context) (ops : List Operation) (s : Segment) :
    step ctx ops s = ops ∨ ∃ op, step ctx ops s = ops ++ [op] := by
  rcases step_cases ctx ops s with h | ⟨w, -, -, h⟩ | ⟨op, -, -, h⟩
  · exact .inl h
  · exact .inr ⟨_, h⟩
  · exact .inr ⟨op, h⟩

/-! ## where an operation comes from -/

/-- with the segments before it there are no more than `i` operations, with it there are more -/
def Makes (ctx : Context) (ss : List Segment) (i : Nat) (s : Segment) : Prop :=
  ∃ before after, ss = before ++ s :: after ∧ (ofSegments ctx before).length ≤ i ∧
    i < (ofSegments ctx (before ++ [s])).length

variable {ss rs : List Segment} {i : Nat} {op : Operation}

theorem ofSegments_concat (ctx : Context) (ss : List Segment) (s : Segment) :
    ofSegments ctx (ss ++ [s]) = step ctx (ofSegments ctx ss) s := by
  rw [ofSegments, List.foldl_append]
  rfl

theorem ofSegments_isPrefix_concat (ctx : Context) (ss : List Segment) (s : Segment) :
    ofSegments ctx ss <+: ofSegments ctx (ss ++ [s]) := by
  rw [ofSegments_concat]
  rcases step_eq ctx (ofSegments ctx ss) s with h | ⟨op, h⟩
  · simp only [h, List.prefix_rfl]
  · simp only [h, List.prefix_append]

/-- more segments leave the operations so far as they are -/
theorem ofSegments_isPrefix (ctx : Context) (h : rs <+: ss) :
    ofSegments ctx rs <+: ofSegments ctx ss := by
  obtain ⟨more, rfl⟩ := h
  induction more using List.reverseRecOn with
  | nil => simp only [List.append_nil, List.prefix_rfl]
  | append_singleton more s ih =>
    rw [← List.append_assoc]
    exact ih.trans (ofSegments_isPrefix_concat ctx (rs ++ more) s)

theorem Makes.mem (h : Makes ctx ss i s) : s ∈ ss := by
  obtain ⟨before, after, rfl, -, -⟩ := h
  simp

theorem exists_makes (h : i < (ofSegments ctx ss).length) : ∃ s, Makes ctx ss i s := by
  -- the last segment that is needed for the operation
  induction ss using List.reverseRecOn with
  | nil => exact absurd h (Nat.not_lt_zero i)
  | append_singleton ss s ih =>
    by_cases hi : i < (ofSegments ctx ss).length
    · obtain ⟨r, before, after, hsplit, hle, hlt⟩ := ih hi
      refine ⟨r, before, after ++ [s], ?_, hle, hlt⟩
      rw [hsplit]
      simp
    · exact ⟨s, ss, [], rfl, Nat.le_of_not_lt hi, h⟩

/-- an operation comes from no other segment -/
theorem Makes.unique {r : Segment} (hs : Makes ctx ss i s) (hr : Makes ctx ss i r) : s = r := by
  obtain ⟨before, after, rfl, hle, hlt⟩ := hs
  obtain ⟨before', after', hsplit, hle', hlt'⟩ := hr
  -- a segment later than one that makes the operation comes too late
  have early {a b : List Segment} {x : Segment} (hlater : a ++ [x] <+: b)
      (hx : i < (ofSegments ctx (a ++ [x])).length) (hb : (ofSegments ctx b).length ≤ i) :
      False := by
    have hlen := (ofSegments_isPrefix ctx hlater).length_le
    omega
  rcases List.append_eq_append_iff.1 hsplit with ⟨m, rfl, hm⟩ | ⟨m, rfl, hm⟩
  · cases m with
    | nil => exact (List.cons.inj hm).1
    | cons x m =>
      obtain ⟨rfl, -⟩ := List.cons.inj hm
      exact (early ⟨m, by simp⟩ hlt hle').elim
  · cases m with
    | nil => exact (List.cons.inj hm).1.symm
    | cons x m =>
      obtain ⟨rfl, -⟩ := List.cons.inj hm
      exact (early ⟨m, by simp⟩ hlt' hle).elim

/-- **The step that makes an operation.**  It adds the operation to those before it. -/
theorem Makes.step_eq (h : Makes ctx ss i s) (hop : (ofSegments ctx ss)[i]? = some op) :
    step ctx ((ofSegments ctx ss).take i) s = (ofSegments ctx ss).take i ++ [op] := by
  obtain ⟨before, after, rfl, hle, hlt⟩ := h
  have hwhole : ofSegments ctx (before ++ [s]) <+: ofSegments ctx (before ++ s :: after) :=
    ofSegments_isPrefix ctx ⟨after, by simp⟩
  rw [ofSegments_concat] at hwhole hlt
  rcases Inline.step_eq ctx (ofSegments ctx before) s with hstep | ⟨new, hstep⟩
  · rw [hstep] at hlt
    omega
  · rw [hstep] at hwhole hlt
    have hi : i = (ofSegments ctx before).length := by
      rw [List.length_append, List.length_singleton] at hlt
      omega
    obtain ⟨more, hmore⟩ := hwhole
    rw [← hmore, hi, List.append_assoc, List.singleton_append, List.getElem?_append_right
      (Nat.le_refl _), Nat.sub_self, List.getElem?_cons_zero] at hop
    cases hop
    rw [← hmore, hi, List.append_assoc, List.take_left, hstep]

/-! ## the space between -/

/-- words after an operation: no blank before them but for one space, and no space at the start of
a line, after a blank, or before a mark that attaches -/
def Joined (last : Operation) (words text : Text) : Prop :=
  words ≠ [] ∧ words.Flush ∧ ∃ sep, text = sep ++ words ∧ (sep = [] ∨ sep = [' ']) ∧
    (sep = [] ↔ last.breaksLine = true ∨ last.endsBlank = true ∨
      words.head?.any isAttaching = true)

theorem wantsSpace_eq (hne : w ≠ []) :
    Spacing.wantsSpace w = !w.head?.any isAttaching := by
  obtain ⟨c, r, rfl⟩ := List.exists_cons_of_ne_nil hne
  rfl

theorem separatorAfter_eq_nil_iff {last : Operation} (hlast : last ≠ .insertText [])
    (hne : w ≠ []) : separatorAfter last w = [] ↔ last.breaksLine = true ∨
      last.endsBlank = true ∨ w.head?.any isAttaching = true := by
  cases last with
  | insertText p =>
    rcases List.eq_nil_or_concat' p with rfl | ⟨r, c, rfl⟩
    · exact absurd rfl hlast
    · have hsep : separatorAfter (.insertText (r ++ [c])) w =
          if isBlank c then [] else Spacing.separator (r ++ [c]) w := by
        show (if (r ++ [c]).getLast?.all isBlank then [] else Spacing.separator (r ++ [c]) w) = _
        rw [List.getLast?_concat, Option.all_some]
      rw [hsep, Spacing.separator, wantsSpace_eq hne]
      cases hc : isBlank c with
      | true => simp [breaksLine, endsBlank, hc]
      | false =>
        have hline : Spacing.endsLine (r ++ [c]) = false := by
          rw [Spacing.endsLine, List.getLast?_concat, beq_eq_false_iff_ne]
          intro h
          cases h
          exact absurd hc (by decide)
        simp [breaksLine, endsBlank, hc, hline]
  | insertNewLine => simp [separatorAfter, breaksLine]
  | insertNewParagraph => simp [separatorAfter, breaksLine]
  | _ => simp [separatorAfter, wantsSpace_eq hne, breaksLine, endsBlank]

theorem joined_separatorAfter {last : Operation} (hlast : last ≠ .insertText [])
    (hw : w.allBlank = false) :
    Joined last w.trimLeft (separatorAfter last w.trimLeft ++ w.trimLeft) := by
  have hne := Text.trimLeft_ne_nil hw
  exact ⟨hne, Text.flush_trimLeft w, _, rfl, separatorAfter_eq_nil_or _ _,
    separatorAfter_eq_nil_iff hlast hne⟩

/-! ## whole utterances -/

/-- an operation that comes from a segment: its words as they are placed, or what it asks for -/
theorem Makes.cases (h : Makes ctx ss i s) (hop : (ofSegments ctx ss)[i]? = some op) :
    (∃ w, wordsOf? ctx s = some w ∧ w.allBlank = false ∧
        op = .insertText (placed ((ofSegments ctx ss).take i) w)) ∨
      wordsOf? ctx s = none ∧ op.isSolid = true := by
  have hstep := h.step_eq hop
  rcases step_cases ctx ((ofSegments ctx ss).take i) s with hcase | ⟨w, hw, hblank, hcase⟩ |
    ⟨new, hw, hsolid, hcase⟩
  · rw [hcase] at hstep
    simp at hstep
  · rw [hcase, List.append_right_inj, List.cons.injEq] at hstep
    exact .inl ⟨w, hw, hblank, hstep.1.symm⟩
  · rw [hcase, List.append_right_inj, List.cons.injEq] at hstep
    rw [← hstep.1]
    exact .inr ⟨hw, hsolid⟩

/-- every inserted text is more than blanks -/
theorem Makes.not_allBlank {u : Text} (h : Makes ctx ss i s)
    (hop : (ofSegments ctx ss)[i]? = some (.insertText u)) : u.allBlank = false := by
  rcases h.cases hop with ⟨w, -, hw, hu⟩ | ⟨-, hsolid⟩
  · obtain ⟨lead, hlead⟩ := trimLeft_isSuffix_placed ((ofSegments ctx ss).take i) w
    cases hu
    rw [← hlead, Text.allBlank_append, Text.allBlank_trimLeft, hw, Bool.and_false]
  · exact Text.EndsSolid.allBlank hsolid

/-- words that do not come first are joined to the operation before them -/
theorem Makes.joined {last : Operation} {u : Text} (h : Makes ctx ss (i + 1) s)
    (hlast : (ofSegments ctx ss)[i]? = some last)
    (hop : (ofSegments ctx ss)[i + 1]? = some (.insertText u)) (hw : wordsOf? ctx s = some w) :
    Joined last w.trimLeft u := by
  rcases h.cases hop with ⟨w', hw', hblank, hu⟩ | ⟨hnone, -⟩
  · rw [hw] at hw'
    cases hw'
    have hlt : i < (ofSegments ctx ss).length := (List.getElem?_eq_some_iff.1 hlast).1
    have htake : (ofSegments ctx ss).take (i + 1) = (ofSegments ctx ss).take i ++ [last] := by
      rw [List.take_add_one, hlast, Option.toList_some]
    rw [htake, placed_concat] at hu
    cases hu
    refine joined_separatorAfter ?_ hblank
    -- the operation before has a segment of its own
    obtain ⟨r, hr⟩ := exists_makes hlt
    rintro rfl
    exact absurd (hr.not_allBlank hlast) (by simp [Text.allBlank])
  · rw [hw] at hnone
    cases hnone

theorem dictated_isSuffix (ctx : Context) (t : Text) : dictated ctx t <:+ t.trimRight := by
  unfold dictated
  split
  · exact Text.stripLeading_isSuffix t.trimRight
  · exact List.suffix_rfl

theorem endsSolid_dictated {t : Text} (h : (dictated ctx t).allBlank = false) :
    (dictated ctx t).EndsSolid := by
  have hsuffix := dictated_isSuffix ctx t
  have hblank : t.allBlank = false := by
    rw [Bool.eq_false_iff]
    intro ht
    rw [← Text.allBlank_trimRight] at ht
    rw [Text.allBlank_of_sublist hsuffix.sublist ht] at h
    cases h
  exact (Text.endsSolid_trimRight hblank).of_isSuffix hsuffix (Text.ne_nil_of_not_allBlank h)

/-- words that end with a blank are those of a trigger alone -/
theorem endsSolid_of_wordsOf? (hs : s.Found ctx.triggers) (h : wordsOf? ctx s = some w)
    (hw : w.allBlank = false) (hkind : s.kind ≠ .trigger) : w.EndsSolid := by
  obtain ⟨start, source, kind⟩ := s
  cases kind with
  | trigger => exact absurd rfl hkind
  | text =>
    cases h
    exact endsSolid_dictated hw
  | command heard phrase corrected =>
    have hphrase := Text.endsSolid_of_usable (Command.phrases_usable _ hs.2)
    unfold wordsOf? at h
    dsimp only at h
    split at h
    · cases h
      exact hphrase
    · next t hr =>
      cases h
      rw [Command.eq_of_interpret_eq_insert hr]
      exact (hphrase.append_left [' ']).append_left heard
    · cases h

/-- what inserted texts end with -/
theorem Makes.ends (husable : ∀ u ∈ ctx.triggers, Context.Usable u) (hs : s.Found ctx.triggers)
    {u : Text} (h : Makes ctx ss i s)
    (hop : (ofSegments ctx ss)[i]? = some (.insertText u)) :
    (s.kind ≠ .trigger → u.EndsSolid) ∧
      (s.kind = .trigger → ∃ v : Text, u = v ++ [' '] ∧ v.EndsSolid) := by
  rcases h.cases hop with ⟨w, hw, hblank, hu⟩ | ⟨hnone, hsolid⟩
  · obtain ⟨lead, hlead⟩ := trimLeft_isSuffix_placed ((ofSegments ctx ss).take i) w
    cases hu
    rw [← hlead]
    constructor
    · intro hkind
      have hends := endsSolid_of_wordsOf? hs hw hblank hkind
      have hne := Text.trimLeft_ne_nil hblank
      exact (hends.of_isSuffix (Text.trimLeft_isSuffix w) hne).append_left lead
    · intro hkind
      rw [Segment.Found, hkind] at hs
      have hsource := hs.usable husable
      rw [wordsOf?, hkind] at hw
      cases hw
      have hflush := (Text.flush_of_usable hsource).append hsource.1 [' ']
      refine ⟨lead ++ s.source, ?_, (Text.endsSolid_of_usable hsource).append_left lead⟩
      rw [Text.trimLeft_of_flush hflush, List.append_assoc]
  · refine ⟨fun _ => hsolid, fun hkind => ?_⟩
    rw [wordsOf?, hkind] at hnone
    cases hnone

end

/-- **The space before dictated words.**  Every operation comes from exactly one segment, and no
inserted text is blank.  Dictated words that do not come first have nothing or one space before
them, nothing exactly at the start of a line, after a text that ends with a blank and before a mark
that attaches.  A text ends with a blank only if it is a trigger without a phrase, and then with one
space. -/
theorem compile_spaced (locale : Text) (asked : List Text) (cleanup : Bool) (t : Text) :
    let ctx := Context.ofOptions locale asked cleanup
    let ss := Segment.ofText ctx (cleaned ctx t)
    let ops := compile ctx t
    (∀ i < ops.length, ∃! s, Makes ctx ss i s) ∧
      (∀ u : Text, .insertText u ∈ ops → u.allBlank = false) ∧
      (∀ (i : Nat) (s : Segment) (last : Operation) (w u : Text), Makes ctx ss (i + 1) s →
        wordsOf? ctx s = some w → ops[i]? = some last → ops[i + 1]? = some (.insertText u) →
          Joined last w.trimLeft u) ∧
      ∀ (i : Nat) (s : Segment) (u : Text), Makes ctx ss i s → ops[i]? = some (.insertText u) →
        (s.kind ≠ .trigger → u.EndsSolid) ∧
          (s.kind = .trigger → ∃ v : Text, u = v ++ [' '] ∧ v.EndsSolid) := by
  intro ctx ss ops
  have husable := (Context.clean_ofOptions locale asked cleanup).usable
  refine ⟨fun i hi => ?_, fun u hu => ?_, fun i s last w u h hw hlast hop => ?_,
    fun i s u h hop => ?_⟩
  · obtain ⟨s, hs⟩ := exists_makes hi
    exact ⟨s, hs, fun r hr => hr.unique hs⟩
  · obtain ⟨i, hi, hop⟩ := List.mem_iff_getElem.1 hu
    obtain ⟨s, hs⟩ := exists_makes hi
    exact hs.not_allBlank (List.getElem?_eq_some_iff.2 ⟨hi, hop⟩)
  · exact h.joined hlast hop hw
  · exact h.ends husable (Segment.found_of_mem h.mem) hop

end Inline
end Dictation
