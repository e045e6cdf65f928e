import Dictation.Proofs.Reply
import Dictation.Proofs.Scan

/-!
# Commands as they were heard

A command segment is read again as a whole utterance: the trigger as it was heard, a space, and a
phrase of the table.  Reading it never gives another command than the phrase.

* `Command.meant`           the phrase with "period" read as the locale says;
* `normalizeIn_spoken`      the normalized command ends with a space and what was meant;
* `Command.Leaves`          what a trigger leaves of an utterance; `afterTrigger?` is the first one;
* `interpret_spoken`        the command that was meant, no command at all, or literal text.
-/

namespace Dictation.Command

/-! ## the table -/

instance : DecidablePred Context.Usable := fun t =>
  inferInstanceAs (Decidable (t ≠ [] ∧ t.squeeze = t))

/-- the characters of the phrases -/
def letters : Text := "abcdefghijklmnopqrstuvwxyz ".toList

theorem letters_small : (letters.all fun c =>
    lowered c == c && c != capitalSigma && c != capitalDottedI) = true := by decide
theorem phrases_letters : (phrases.all fun p => p.all letters.contains) = true := by
  decide

theorem phrases_lower (p : Text) (hp : p ∈ phrases) : p.lower = p := by
  refine Text.lower_of_small fun c hc => ?_
  have hl := List.all_eq_true.1 (List.all_eq_true.1 phrases_letters p hp) c hc
  have hs := List.all_eq_true.1 letters_small c (List.contains_iff_mem.1 hl)
  simpa [and_assoc] using hs

theorem phrases_getLast? (p : Text) (hp : p ∈ phrases) : p.getLast? ≠ some '\n' := by
  intro h
  have hl := List.all_eq_true.1 (List.all_eq_true.1 phrases_letters p hp) _ (List.mem_of_getLast? h)
  exact absurd hl (by decide)

theorem phrases_usable : ∀ p ∈ phrases, Context.Usable p := by decide

/-- no phrase ends with the words of another one -/
theorem phrases_apart : ∀ p ∈ phrases, ∀ q ∈ phrases, ¬ ' ' :: p <:+ q := by decide

theorem formats_phrases (f : Text × Operation) (h : f ∈ formats) : f.1 ∈ phrases :=
  List.mem_append_right _ (List.mem_map_of_mem h)

theorem replies_phrases (r : Text × Reply) (h : r ∈ replies) : r.1 ∈ phrases := by
  simp only [replies, List.mem_append, List.mem_map, List.mem_cons, List.not_mem_nil,
    or_false] at h
  simp only [phrases, List.mem_append, List.mem_cons, List.not_mem_nil, or_false]
  rcases h with ((rfl | rfl) | ⟨p, hp, rfl⟩) | ⟨l, hl, rfl⟩
  · exact .inl (.inr (.inl rfl))
  · exact .inl (.inr (.inr rfl))
  · exact .inl (.inl (.inl (.inl (List.mem_map_of_mem hp))))
  · exact .inl (.inl (.inr (List.mem_map_of_mem hl)))

/-- only a phrase of the table has a reply of its own -/
theorem mem_phrases_of_parse {t : Text} (h : parse t ≠ unknown) (hl : t.getLast? ≠ some '\n') :
    t ∈ phrases := by
  have hdrop : dropLineEnd t = t := by
    rw [dropLineEnd, if_neg (by simpa using hl)]
  unfold parse at h
  rw [hdrop] at h
  cases hf : formats.lookup t with
  | some op => exact formats_phrases _ (mem_of_lookup hf)
  | none =>
    cases hr : replies.lookup t with
    | some r => exact replies_phrases _ (mem_of_lookup hr)
    | none => rw [hf, hr] at h; exact absurd rfl h

/-- what is meant by a phrase, "period" read as a full stop where the locale says so -/
def meant (ctx : Context) (phrase : Text) : Text :=
  if ctx.readsPeriod && phrase == period then fullStop else phrase

theorem meant_mem (ctx : Context) {p : Text} (h : p ∈ phrases) : meant ctx p ∈ phrases := by
  unfold meant
  split
  · decide
  · exact h

/-! ## whole words on the two sides of a blank -/

section
variable {word new : Text} {c : Char}

theorem beginsWith_append_cons (h : c ∉ word) (s t : Text) :
    word.beginsWith (s ++ c :: t) = word.beginsWith s := by
  induction word generalizing s with
  | nil => rfl
  | cons w ws ih =>
    rw [List.mem_cons, not_or] at h
    cases s with
    | nil =>
      show (w == c && Text.beginsWith ws t) = false
      rw [beq_eq_false_iff_ne.2 (Ne.symm h.1), Bool.false_and]
    | cons x s =>
      show (w == x && Text.beginsWith ws (s ++ c :: t)) = (w == x && Text.beginsWith ws s)
      rw [ih h.2]

theorem length_le_of_beginsWith {s t : Text} (h : s.beginsWith t = true) : s.length ≤ t.length := by
  obtain ⟨r, rfl⟩ := (Text.beginsWith_iff s t).1 h
  rw [List.length_append]
  omega

theorem replaceWordAfter_cons (inWord : Bool) (c : Char) (r : Text) :
    replaceWordAfter word new inWord 0 (c :: r) =
      if !inWord && word.beginsWith (c :: r)
          && !(((c :: r).drop word.length).head?.any isWordChar) then
        new ++ replaceWordAfter word new (isWordChar c) (word.length - 1) r
      else c :: replaceWordAfter word new (isWordChar c) 0 r := by
  rw [replaceWordAfter]

/-- what follows a word is no word character here if it is none there -/
theorem any_isWordChar_drop_append (hc : isWordChar c = false) {n : Nat} {s : Text}
    (hn : n ≤ s.length) (t : Text) :
    ((s ++ c :: t).drop n).head?.any isWordChar = (s.drop n).head?.any isWordChar := by
  rw [List.drop_append_of_le_length hn]
  cases s.drop n with
  | nil => rw [List.nil_append, List.head?_cons, Option.any_some, hc]; rfl
  | cons y r => rfl

theorem replaceWordAfter_append (hc : isWordChar c = false) (hw : c ∉ word) (hne : word ≠ [])
    (t : Text) (s : Text) (inWord : Bool) (skip : Nat) (hskip : skip ≤ s.length) :
    replaceWordAfter word new inWord skip (s ++ c :: t) =
      replaceWordAfter word new inWord skip s ++ c :: replaceWord word new t := by
  induction s generalizing inWord skip with
  | nil =>
    obtain rfl : skip = 0 := Nat.le_zero.1 hskip
    have hb : word.beginsWith (c :: t) = false := by
      rw [← List.nil_append (c :: t), beginsWith_append_cons hw]
      cases word with
      | nil => exact absurd rfl hne
      | cons w ws => rfl
    rw [List.nil_append, replaceWordAfter_cons, hb, Bool.and_false, Bool.false_and,
      if_neg Bool.false_ne_true, hc]
    rfl
  | cons x s ih =>
    cases skip with
    | succ skip =>
      rw [List.cons_append, replaceWordAfter, replaceWordAfter]
      exact ih _ _ (Nat.le_of_succ_le_succ hskip)
    | zero =>
      have hbegin := beginsWith_append_cons hw (x :: s) t
      rw [List.cons_append] at hbegin ⊢
      rw [replaceWordAfter_cons, replaceWordAfter_cons, hbegin]
      cases hword : word.beginsWith (x :: s) with
      | false =>
        simp only [Bool.and_false, Bool.false_and, Bool.false_eq_true, ite_false]
        rw [ih _ _ (Nat.zero_le _), List.cons_append]
      | true =>
        have hlen := length_le_of_beginsWith hword
        rw [← List.cons_append, any_isWordChar_drop_append hc hlen]
        split
        · rw [ih _ _ (by rw [List.length_cons] at hlen; omega), List.append_assoc]
        · rw [ih _ _ (Nat.zero_le _), List.cons_append]

/-- a character that is in no word parts the words to replace -/
theorem replaceWord_append_cons (hc : isWordChar c = false) (hw : c ∉ word) (hne : word ≠ [])
    (s t : Text) :
    replaceWord word new (s ++ c :: t) = replaceWord word new s ++ c :: replaceWord word new t :=
  replaceWordAfter_append hc hw hne t s false 0 (Nat.zero_le _)

end

theorem replaceWord_phrase : ∀ p ∈ phrases,
    replaceWord period fullStop p = if p == period then fullStop else p := by decide +kernel

/-! ## the normalized command -/

theorem normalize_of_squeezed {t : Text} (h : t.squeeze = t) : normalize t = t.lower :=
  Text.squeeze_lower h

theorem words_lower_ne_nil {t : Text} (h : Context.Usable t) : t.lower.words ≠ [] := by
  rw [Text.words_lower h.2, ne_eq, List.map_eq_nil_iff]
  exact h.words_ne_nil

theorem normalize_spoken {heard p : Text} (hh : Context.Usable heard) (hp : p ∈ phrases) :
    normalize (Inline.spoken heard p) = normalize heard ++ ' ' :: p := by
  have hpu := phrases_usable p hp
  rw [normalize, Inline.spoken, Text.lower_append_blank (by decide), phrases_lower p hp,
    Text.squeeze_append_blank (by decide) (words_lower_ne_nil hh) hpu.words_ne_nil, hpu.2]
  rfl

/-- **The normalized command ends with a space and what was meant.** -/
theorem normalizeIn_spoken (ctx : Context) {heard p : Text} (hh : Context.Usable heard)
    (hp : p ∈ phrases) :
    normalizeIn ctx (Inline.spoken heard p) = normalizeIn ctx heard ++ ' ' :: meant ctx p := by
  unfold normalizeIn meant
  rw [normalize_spoken hh hp]
  split
  · next hl =>
    rw [replaceWord_append_cons isWordChar_space (by decide) (by decide),
      replaceWord_phrase p hp, hl, Bool.true_and]
  · next hl => rw [Bool.eq_false_iff.2 hl, Bool.false_and, if_neg Bool.false_ne_true]

/-! ## what a trigger leaves -/

/-- the utterance is the trigger, or begins with it and a space -/
def Leaves (trigger utterance rest : Text) : Prop :=
  (utterance = normalize trigger ∧ rest = []) ∨ utterance = normalize trigger ++ ' ' :: rest

section
variable {t utterance rest : Text} {ts : List Text}

theorem afterTrigger?_cons_of_leaves (h : Leaves t utterance rest) (ts : List Text) :
    afterTrigger? utterance (t :: ts) = some rest := by
  unfold afterTrigger?
  rcases h with ⟨rfl, rfl⟩ | rfl
  · rw [if_pos rfl]
  · have hne : ¬ normalize t ++ ' ' :: rest = normalize t := by
      intro h
      have := congrArg List.length h
      rw [List.length_append, List.length_cons] at this
      omega
    have hb : (normalize t ++ [' ']).beginsWith (normalize t ++ ' ' :: rest) = true :=
      (Text.beginsWith_iff _ _).2 ⟨rest, by rw [List.append_assoc]; rfl⟩
    rw [if_neg hne, if_pos hb, List.drop_append, List.drop_of_length_le (by omega),
      show (normalize t).length + 1 - (normalize t).length = 1 by omega]
    rfl

theorem afterTrigger?_cons_of_not_leaves (h : ∀ rest, ¬ Leaves t utterance rest)
    (ts : List Text) : afterTrigger? utterance (t :: ts) = afterTrigger? utterance ts := by
  rw [afterTrigger?]
  split
  · next heq => exact absurd (.inl ⟨heq, rfl⟩) (h [])
  · split
    · next hb =>
      obtain ⟨r, hr⟩ := (Text.beginsWith_iff _ _).1 hb
      rw [List.append_assoc] at hr
      exact absurd (.inr hr) (h r)
    · rfl

/-- the first trigger of a list leaves something, or the other ones are looked for -/
theorem afterTrigger?_cons (utterance t : Text) (ts : List Text) :
    (∃ rest, Leaves t utterance rest ∧ afterTrigger? utterance (t :: ts) = some rest) ∨
      ((∀ rest, ¬ Leaves t utterance rest) ∧
        afterTrigger? utterance (t :: ts) = afterTrigger? utterance ts) := by
  by_cases h : ∃ rest, Leaves t utterance rest
  · obtain ⟨rest, hl⟩ := h
    exact .inl ⟨rest, hl, afterTrigger?_cons_of_leaves hl ts⟩
  · have hnot (rest : Text) : ¬ Leaves t utterance rest := fun hl => h ⟨rest, hl⟩
    exact .inr ⟨hnot, afterTrigger?_cons_of_not_leaves hnot ts⟩

theorem afterTrigger?_append (utterance : Text) (ts us : List Text) :
    afterTrigger? utterance (ts ++ us) =
      (afterTrigger? utterance ts).or (afterTrigger? utterance us) := by
  induction ts with
  | nil => rfl
  | cons t ts ih =>
    rcases afterTrigger?_cons utterance t ts with ⟨rest, hl, h⟩ | ⟨hnot, h⟩
    · rw [h, List.cons_append, afterTrigger?_cons_of_leaves hl]
      rfl
    · rw [h, List.cons_append, afterTrigger?_cons_of_not_leaves hnot, ih]

theorem afterTrigger?_eq_none (h : afterTrigger? utterance ts = none) :
    ∀ t ∈ ts, ∀ rest, ¬ Leaves t utterance rest := by
  induction ts with
  | nil => exact fun t ht => absurd ht List.not_mem_nil
  | cons t ts ih =>
    rcases afterTrigger?_cons utterance t ts with ⟨rest, -, h'⟩ | ⟨hnot, h'⟩
    · rw [h] at h'
      cases h'
    · exact List.forall_mem_cons.2 ⟨hnot, ih (h'.symm.trans h)⟩

/-- the rest is what the first trigger leaves that leaves anything -/
theorem exists_of_afterTrigger? (h : afterTrigger? utterance ts = some rest) :
    ∃ earlier t later, ts = earlier ++ t :: later ∧ Leaves t utterance rest ∧
      ∀ u ∈ earlier, ∀ r, ¬ Leaves u utterance r := by
  induction ts with
  | nil => cases h
  | cons t ts ih =>
    rcases afterTrigger?_cons utterance t ts with ⟨r, hl, h'⟩ | ⟨hnot, h'⟩
    · obtain rfl : r = rest := Option.some.inj (h'.symm.trans h)
      exact ⟨[], t, ts, rfl, hl, fun u hu => absurd hu List.not_mem_nil⟩
    · obtain ⟨earlier, t', later, rfl, ht', hearlier⟩ := ih (h'.symm.trans h)
      exact ⟨t :: earlier, t', later, rfl, ht', List.forall_mem_cons.2 ⟨hnot, hearlier⟩⟩

theorem exists_leaves_of_afterTrigger? (h : afterTrigger? utterance ts = some rest) :
    ∃ t ∈ ts, Leaves t utterance rest := by
  obtain ⟨_, t, _, rfl, hl, -⟩ := exists_of_afterTrigger? h
  exact ⟨t, List.mem_append_right _ List.mem_cons_self, hl⟩

theorem afterTrigger?_eq_some_iff : afterTrigger? utterance ts = some rest ↔
    ∃ earlier t later, ts = earlier ++ t :: later ∧ Leaves t utterance rest ∧
      ∀ u ∈ earlier, ∀ r, ¬ Leaves u utterance r := by
  refine ⟨exists_of_afterTrigger?, ?_⟩
  rintro ⟨earlier, t, later, rfl, hl, hearlier⟩
  rw [afterTrigger?_append, afterTrigger?_cons_of_leaves hl]
  cases h : afterTrigger? utterance earlier with
  | none => rfl
  | some r =>
    obtain ⟨u, hu, hl⟩ := exists_leaves_of_afterTrigger? h
    exact absurd hl (hearlier u hu r)

/-- what is left of an utterance that ends with some words: those words, fewer of them, or more -/
theorem Leaves.cases {before words : Text} (h : Leaves t (before ++ ' ' :: words) rest) :
    rest = [] ∨ rest = words ∨ ' ' :: rest <:+ words ∨ ' ' :: words <:+ rest := by
  rcases h with ⟨-, rfl⟩ | h
  · exact .inl rfl
  · have h1 : ' ' :: words <:+ before ++ ' ' :: words := List.suffix_append _ _
    have h2 : ' ' :: rest <:+ before ++ ' ' :: words := h ▸ List.suffix_append _ _
    rcases List.suffix_or_suffix_of_suffix h2 h1 with h | h
    · rcases List.suffix_cons_iff.1 h with h | h
      · exact .inr (.inl (List.cons.inj h).2)
      · exact .inr (.inr (.inl h))
    · rcases List.suffix_cons_iff.1 h with h | h
      · exact .inr (.inl (List.cons.inj h).2.symm)
      · exact .inr (.inr (.inr h))

end

/-! ## the reply -/

section
variable {p rest : Text}

theorem getLast?_of_suffix {s t : Text} (h : s <:+ t) (hs : s ≠ []) : s.getLast? = t.getLast? := by
  obtain ⟨r, rfl⟩ := h
  cases hl : s.getLast? with
  | none => exact absurd (List.getLast?_eq_none_iff.1 hl) hs
  | some c => rw [List.getLast?_append, hl]; rfl

/-- fewer or more words than those of a phrase are no phrase -/
theorem parse_eq_unknown (hp : p ∈ phrases) (h : ' ' :: rest <:+ p ∨ ' ' :: p <:+ rest) :
    parse rest = unknown := by
  by_contra hne
  have hlast : rest.getLast? ≠ some '\n' := by
    intro hl
    rcases h with h | h
    · cases rest with
      | nil => cases hl
      | cons c r =>
        have h' := getLast?_of_suffix ((List.suffix_cons ' ' (c :: r)).trans h)
          (List.cons_ne_nil _ _)
        exact phrases_getLast? p hp (by rw [← h', hl])
    · have h' := getLast?_of_suffix ((List.suffix_cons ' ' p).trans h) (phrases_usable p hp).1
      exact phrases_getLast? p hp (by rw [h', hl])
  have hr := mem_phrases_of_parse hne hlast
  rcases h with h | h
  · exact phrases_apart rest hr p hp h
  · exact phrases_apart p hp rest hr h

theorem interpret_of_afterTrigger? {ctx : Context} {t : Text} {rest : Text}
    (h : afterTrigger? (normalizeIn ctx t) ctx.triggers = some rest) :
    interpret ctx t = if rest = [] then .run [] .high else parse rest := by
  rw [interpret, h]
  cases rest <;> rfl

theorem interpret_of_eq_none {ctx : Context} {t : Text}
    (h : afterTrigger? (normalizeIn ctx t) ctx.triggers = none) : interpret ctx t = .insert t := by
  rw [interpret, h]

/-- **A command is read as what was meant or as no command.**  No operation comes of it that the
phrase does not ask for. -/
theorem interpret_spoken (ctx : Context) {heard : Text} (hh : Context.Usable heard)
    (hp : p ∈ phrases) :
    interpret ctx (Inline.spoken heard p) = parse (meant ctx p) ∨
      (∃ confidence, interpret ctx (Inline.spoken heard p) = .run [] confidence) ∨
      interpret ctx (Inline.spoken heard p) = .insert (Inline.spoken heard p) := by
  cases hrest : afterTrigger? (normalizeIn ctx (Inline.spoken heard p)) ctx.triggers with
  | none => exact .inr (.inr (interpret_of_eq_none hrest))
  | some rest =>
    have hm := meant_mem ctx hp
    rw [interpret_of_afterTrigger? hrest]
    obtain ⟨_, -, hleaves⟩ := exists_leaves_of_afterTrigger? hrest
    rw [normalizeIn_spoken ctx hh hp] at hleaves
    split
    · exact .inr (.inl ⟨_, rfl⟩)
    · next hne =>
      rcases hleaves.cases with rfl | rfl | h
      · exact absurd rfl hne
      · exact .inl rfl
      · exact .inr (.inl ⟨_, parse_eq_unknown hm h⟩)

end
end Dictation.Command
