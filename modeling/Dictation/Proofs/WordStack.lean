import Dictation.Document
import Dictation.Proofs.Text.Words
import Dictation.Spacing

/-!
# A document as a stack of words

Seen as the list of its words, a document is a stack: what is said is pushed word by word, deleting
pops the last word, and nothing else shows.  No word may fuse with the one before it, which the
spacing of dictated text sees to, and a deletion has to cut at the start of the last word, whatever
blanks stand behind it.

* `Text.EndsBlank`            a new word may begin at the end of a text;
* `Text.dropLastWord_append`  a deletion cuts off the last word and the blanks behind it;
* `Edit`                      a step of a session, `Edit.onWords` what it does to a stack of words;
* `Document.words_edit`       one step; `Document.editAll_refines_words` whole sessions.
-/

namespace Dictation

/-! ## the last word of a text -/

namespace Text

/-- nothing stands at the end of the text, or a blank does -/
def EndsBlank (t : Text) : Prop := t.getLast?.all isBlank = true

section
variable {s t w gap : Text}

theorem EndsBlank.cases (h : EndsBlank t) : t = [] ∨ ∃ r c, t = r ++ [c] ∧ isBlank c = true := by
  rcases List.eq_nil_or_concat' t with rfl | ⟨r, c, rfl⟩
  · exact .inl rfl
  · rw [EndsBlank, List.getLast?_concat] at h
    exact .inr ⟨r, c, rfl, h⟩

/-- words that are added there are words of their own -/
theorem words_append_of_endsBlank (h : EndsBlank s) (t : Text) :
    words (s ++ t) = words s ++ words t := by
  rcases h.cases with rfl | ⟨r, c, rfl, hc⟩
  · rfl
  · rw [List.append_assoc, List.singleton_append, words_append_blank hc, words_append_blank hc,
      words_nil, List.append_nil]

/-- a text with words, by its last one -/
theorem exists_of_last_word (h : allBlank t = false) :
    ∃ s w gap, t = s ++ (w ++ gap) ∧ EndsBlank s ∧ IsWord w ∧ allBlank gap = true := by
  induction t with
  | nil => cases h
  | cons c t ih =>
    cases ht : allBlank t with
    | true =>
      rw [allBlank_cons, ht, Bool.and_true] at h
      refine ⟨[], [c], t, rfl, rfl, ⟨List.cons_ne_nil _ _, fun x hx => ?_⟩, ht⟩
      rw [List.mem_singleton.1 hx, h]
    | false =>
      obtain ⟨s, w, gap, rfl, hs, hw, hgap⟩ := ih ht
      cases s with
      | cons d s => exact ⟨c :: d :: s, w, gap, rfl, hs, hw, hgap⟩
      | nil =>
        -- the word may have begun one character earlier
        cases hc : isBlank c with
        | true => exact ⟨[c], w, gap, rfl, hc, hw, hgap⟩
        | false =>
          exact ⟨[], c :: w, gap, rfl, rfl,
            ⟨List.cons_ne_nil _ _, List.forall_mem_cons.2 ⟨hc, hw.2⟩⟩, hgap⟩

theorem trimRight_of_isWord (h : IsWord w) : trimRight w = w :=
  List.rdropWhile_eq_self_iff.2 fun hne => by
    rw [h.2 _ (List.getLast_mem hne)]
    exact Bool.false_ne_true

/-- **A deletion cuts off the last word and the blanks behind it**, and nothing before them. -/
theorem dropLastWord_append (hs : EndsBlank s) (hw : IsWord w) (hgap : allBlank gap = true) :
    dropLastWord (s ++ (w ++ gap)) = s := by
  have hblank : (w ++ gap).all isBlank = false := by
    obtain ⟨c, r, rfl⟩ := List.exists_cons_of_ne_nil hw.1
    rw [List.cons_append, List.all_cons, hw.2 c List.mem_cons_self, Bool.false_and]
  have hright : trimRight (s ++ (w ++ gap)) = s ++ w := by
    have hall : gap.all isBlank = true := hgap
    rw [trimRight, dropEndWhile_append, hblank, if_neg Bool.false_ne_true, dropEndWhile_append,
      if_pos hall, ← trimRight, trimRight_of_isWord hw]
  have hword : w.all (fun c => !isBlank c) = true :=
    List.all_eq_true.2 fun c hc => by rw [hw.2 c hc]; rfl
  rw [dropLastWord, allBlank_append, allBlank, allBlank, hblank, Bool.and_false,
    if_neg Bool.false_ne_true, hright, dropEndWhile_append, if_pos hword]
  rcases hs.cases with rfl | ⟨r, c, rfl, hc⟩
  · rfl
  · rw [dropEndWhile_append_cons (by rw [hc]; rfl)]
    rfl

/-- a deletion takes the last word of a text, if it has one -/
theorem words_dropLastWord (t : Text) : words (dropLastWord t) = (words t).dropLast := by
  cases ht : allBlank t with
  | true =>
    rw [dropLastWord, if_pos ht, words_eq_nil_of_allBlank ht]
    rfl
  | false =>
    obtain ⟨s, w, gap, rfl, hs, hw, hgap⟩ := exists_of_last_word ht
    rw [dropLastWord_append hs hw hgap, words_append_of_endsBlank hs, words_append_allBlank hgap,
      words_of_word hw, List.dropLast_concat]

end
end Text

/-! ## the space before what is said -/

/-- what is said after a text does not run into its last word -/
theorem Spacing.words_separator_append (before : Text) {said : Text}
    (h : said.head?.any isAttaching = false) :
    Text.words (before ++ (separator before said ++ said)) = before.words ++ said.words := by
  cases said with
  | nil =>
    have hnone : separator before [] = [] := by
      rw [separator, wantsSpace_nil, Bool.not_false, Bool.or_true, if_pos rfl]
    rw [hnone, List.nil_append, List.append_nil, Text.words_nil, List.append_nil]
  | cons c r =>
    have hwants : wantsSpace (c :: r) = true := by
      rw [wantsSpace_cons, show isAttaching c = false from h, Bool.not_false]
    unfold separator
    rw [hwants, Bool.not_true, Bool.or_false]
    split
    · next hend =>
      -- nothing stands before it, or a line end
      refine Text.words_append_of_endsBlank ?_ _
      rcases Bool.or_eq_true_iff.1 hend with hnil | hline
      · rw [List.isEmpty_iff.1 hnil]
        rfl
      · rw [Text.EndsBlank, show before.getLast? = some '\n' from eq_of_beq hline]
        decide
    · rw [List.singleton_append, Text.words_append_blank (by decide)]

/-! ## sessions -/

/-- a step of a session with a document -/
inductive Edit where
  /-- text with the space before it that belongs there -/
  | say (t : Text)
  | deleteLastWord
  | newLine
  | newParagraph
  | format (s : Style) (a : Action)
  | undo
  | redo
deriving DecidableEq, Repr

namespace Edit

/-- what is said, if anything is, begins with no mark that attaches to the word before -/
def isDetached : Edit → Bool
  | say t => !t.head?.any isAttaching
  | _ => true

/-- the operation for a document with this text -/
def operation (before : Text) : Edit → Operation
  | say t => .insertText (Spacing.separator before t ++ t)
  | deleteLastWord => .deleteLastWord
  | newLine => .insertNewLine
  | newParagraph => .insertNewParagraph
  | format s a => .format s a
  | undo => .undo
  | redo => .redo

/-- what the step does to a stack of words, the last one on top -/
def onWords (ws : List Text) : Edit → List Text
  | say t => ws ++ t.words
  | deleteLastWord => ws.dropLast
  | _ => ws

end Edit

namespace Document

def edit (d : Document) (e : Edit) : Document := d.apply (e.operation d.text)

def editAll (d : Document) (es : List Edit) : Document := es.foldl edit d

/-- **One step.** -/
theorem words_edit (d : Document) {e : Edit} (h : e.isDetached = true) :
    (d.edit e).text.words = e.onWords d.text.words := by
  cases e with
  | say t =>
    rw [Edit.isDetached, Bool.not_eq_true'] at h
    exact Spacing.words_separator_append d.text h
  | deleteLastWord => exact Text.words_dropLastWord d.text
  | newLine => exact Text.words_append_allBlank (w := ['\n']) (by decide) d.text
  | newParagraph => exact Text.words_append_allBlank (w := ['\n', '\n']) (by decide) d.text
  | format s a => rfl
  | undo => rfl
  | redo => rfl

theorem words_editAll (d : Document) {es : List Edit} (h : ∀ e ∈ es, e.isDetached = true) :
    (d.editAll es).text.words = es.foldl Edit.onWords d.text.words := by
  induction es generalizing d with
  | nil => rfl
  | cons e es ih =>
    obtain ⟨he, hes⟩ := List.forall_mem_cons.1 h
    rw [List.foldl_cons, ← words_edit d he, ← ih (d.edit e) hes]
    rfl

/-- **A document is a stack of words.**  Whatever is said, deleted, broken or formatted, the words
of the document are what the same steps make of a stack of words, as long as nothing is said that
attaches to the word before.  And a word that is typed where a new one may begin and then deleted
leaves the document exactly as it was. -/
theorem editAll_refines_words (d : Document) {es : List Edit} (h : ∀ e ∈ es, e.isDetached = true) :
    (d.editAll es).text.words = es.foldl Edit.onWords d.text.words ∧
      ∀ (d : Document) (w : Text), d.text.EndsBlank → w.IsWord →
        (d.apply (.insertText w)).apply .deleteLastWord = d := by
  refine ⟨words_editAll d h, fun d w hd hw => ?_⟩
  have hcut := Text.dropLastWord_append hd hw Text.allBlank_nil
  rw [List.append_nil] at hcut
  show { d with text := (d.text ++ w).dropLastWord } = d
  rw [hcut]

/-- two words said, one of them deleted again over a line break, after two kinds of blanks -/
theorem letter_words_stacked :
    let d : Document := { text := "Dear\u00a0Sam\n".toList }
    let es : List Edit := [.say "hello  world".toList, .newLine, .undo, .deleteLastWord]
    (∀ e ∈ es, e.isDetached = true) ∧ d.text.EndsBlank ∧ Text.IsWord "hello".toList ∧
      (d.editAll es).text.words = ["Dear".toList, "Sam".toList, "hello".toList] ∧
      (d.apply (.insertText "hello".toList)).apply .deleteLastWord = d := by
  intro d es
  have hdetached : ∀ e ∈ es, e.isDetached = true := by decide
  have hends : d.text.EndsBlank := by
    show Option.all isBlank (some '\n') = true
    decide
  have hword : Text.IsWord "hello".toList :=
    Text.isWord_of_mem_words (show _ ∈ Text.words "hello".toList by decide)
  obtain ⟨hwords, hback⟩ := editAll_refines_words d hdetached
  exact ⟨hdetached, hends, hword, hwords.trans (by decide +kernel), hback d _ hends hword⟩

end Document
end Dictation
