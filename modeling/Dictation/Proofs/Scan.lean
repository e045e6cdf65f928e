import Dictation.Proofs.Text.Case
import Dictation.Proofs.Triggers
import Dictation.Segment

/-!
# What a scan finds

The trigger of a segment is one of the list as it was heard, up to case, and no trigger listed
before it stands at the same place.  The phrase of a command is one of the table.

* `Trigger.HeardAs`   a trigger as it was heard, against those listed before it;
* `Trigger.Heard`     some trigger of a list was heard;
* `Segment.Found`     what the kind of a segment says of it; `found_of_mem` for whole utterances.
-/

namespace Dictation

/-! ## triggers -/

namespace Trigger

/-- heard up to case; no `earlier` trigger is all that was heard or the first words of it -/
structure HeardAs (earlier : List Text) (trigger heard : Text) : Prop where
  ne_nil : trigger ≠ []
  alike : heard.map caseKey = trigger.map caseKey
  first : ∀ u ∈ earlier, u ≠ [] → ∀ a r, heard = a ++ r → r.head?.all isBlank = true →
    a.map caseKey ≠ u.map caseKey

def Heard (triggers : List Text) (heard : Text) : Prop :=
  ∃ earlier trigger later, triggers = earlier ++ trigger :: later ∧ HeardAs earlier trigger heard

section
variable {lenient : Bool} {before : Option Char} {t : Text} {triggers : List Text}

theorem stands_iff (lenient : Bool) (before : Option Char) (trigger t : Text) :
    stands lenient before trigger t = true ↔
      isBoundary lenient before = true ∧ trigger.map caseKey <+: t.map caseKey ∧
        isBoundary lenient (t.drop trigger.length).head? = true := by
  rw [stands, Bool.and_eq_true, Bool.and_eq_true, Text.beginsAlike_iff, and_assoc]

/-- a trigger stands where it was heard between boundaries -/
theorem stands_of_alike {trigger heard rest : Text}
    (hheard : heard.map caseKey = trigger.map caseKey) (hbefore : isBoundary lenient before = true)
    (hrest : isBoundary lenient rest.head? = true) :
    stands lenient before trigger (heard ++ rest) = true := by
  have hlen : trigger.length = heard.length := by
    rw [← List.length_map caseKey, ← hheard, List.length_map]
  refine (stands_iff _ _ _ _).2 ⟨hbefore, ?_, ?_⟩
  · rw [List.map_append, hheard]
    exact List.prefix_append _ _
  · rwa [hlen, List.drop_left]

/-- a trigger that is no longer than a part stands at the start of the part alone -/
theorem stands_of_append {trigger part rest : Text} (hlen : trigger.length ≤ part.length)
    (h : stands lenient before trigger (part ++ rest) = true) :
    stands lenient before trigger part = true := by
  obtain ⟨hbefore, hprefix, hafter⟩ := (stands_iff _ _ _ _).1 h
  refine (stands_iff _ _ _ _).2 ⟨hbefore, ?_, ?_⟩
  · rw [List.map_append] at hprefix
    refine List.prefix_of_prefix_length_le hprefix (List.prefix_append _ _) ?_
    rwa [List.length_map, List.length_map]
  · rw [List.drop_append_of_le_length hlen] at hafter
    cases hdrop : part.drop trigger.length with
    | nil => rfl
    | cons c r =>
      rw [hdrop] at hafter
      exact hafter

/-- the trigger found is a whole word -/
theorem isBoundary_of_tailAt? {n : Nat} (h : tailAt? lenient before t triggers = some n) :
    isBoundary lenient before = true ∧ isBoundary lenient (t.drop (n + 1)).head? = true := by
  induction triggers with
  | nil => cases h
  | cons u us ih =>
    cases u with
    | nil => exact ih h
    | cons c cs =>
      rw [tailAt?] at h
      split at h
      · next hs =>
        cases h
        obtain ⟨hbefore, -, hafter⟩ := (stands_iff _ _ _ _).1 hs
        exact ⟨hbefore, hafter⟩
      · exact ih h

theorem map_take_of_prefix {s t : Text} (h : s.map caseKey <+: t.map caseKey) :
    (t.take s.length).map caseKey = s.map caseKey := by
  have hlen : s.length = (s.map caseKey).length := (List.length_map _).symm
  rw [List.map_take, hlen, ← List.prefix_iff_eq_take.1 h]

/-- the trigger found is the first listed one of those that could be -/
theorem heard_of_tailAt? {n : Nat} (h : tailAt? lenient before t triggers = some n) :
    Heard triggers (t.take (n + 1)) := by
  obtain ⟨hbefore, hafter⟩ := isBoundary_of_tailAt? h
  induction triggers with
  | nil => cases h
  | cons u us ih =>
    -- a trigger that is passed over joins the earlier ones
    have pass (hfirst : u ≠ [] → ∀ a r, t.take (n + 1) = a ++ r → r.head?.all isBlank = true →
        a.map caseKey ≠ u.map caseKey) (htail : tailAt? lenient before t us = some n) :
        Heard (u :: us) (t.take (n + 1)) := by
      obtain ⟨earlier, trigger, later, rfl, hheard⟩ := ih htail
      exact ⟨u :: earlier, trigger, later, rfl, hheard.ne_nil, hheard.alike,
        List.forall_mem_cons.2 ⟨hfirst, hheard.first⟩⟩
    cases u with
    | nil => exact pass (fun hne => absurd rfl hne) h
    | cons c cs =>
      rw [tailAt?] at h
      split at h
      · next hs =>
        cases h
        have halike := ((stands_iff _ _ _ _).1 hs).2.1
        exact ⟨[], c :: cs, us, rfl, List.cons_ne_nil _ _, map_take_of_prefix halike,
          fun _ hu => absurd hu List.not_mem_nil⟩
      · next hs =>
        refine pass (fun _ a r htake hb halike => hs ?_) h
        have ht : t = a ++ (r ++ t.drop (n + 1)) := by
          rw [← List.append_assoc, ← htake, List.take_append_drop]
        rw [ht]
        refine stands_of_alike halike hbefore ?_
        cases r with
        | nil => exact hafter
        | cons b r =>
          rw [List.cons_append, List.head?_cons, isBoundary_some, show isBlank b = true from hb,
            Bool.true_or]

theorem heard_of_next? {hit : Hit} (h : next? lenient triggers before t = some hit) :
    Heard triggers ((t.drop hit.skip).take (hit.tail + 1)) := by
  induction t generalizing before hit with
  | nil => cases h
  | cons c r ih =>
    unfold next? at h
    split at h
    · next ht =>
      cases h
      exact heard_of_tailAt? ht
    · obtain ⟨hit', hr, rfl⟩ := Option.map_eq_some_iff.1 h
      exact ih hr

end

/-- usable triggers are heard as words with single spaces -/
theorem Heard.usable {triggers : List Text} (hts : ∀ t ∈ triggers, Context.Usable t)
    {heard : Text} (h : Heard triggers heard) : Context.Usable heard := by
  obtain ⟨earlier, trigger, later, rfl, hheard⟩ := h
  have ht := hts trigger (by simp)
  refine ⟨?_, Text.squeeze_of_map_caseKey hheard.alike ht.2⟩
  rintro rfl
  exact hheard.ne_nil (List.map_eq_nil_iff.1 hheard.alike.symm)

end Trigger

/-! ## phrases -/

namespace Phrase

theorem mem_of_longest? {lenient : Bool} {t : Text} {table : List (Text × Text)}
    {entry : Text × Text} (h : longest? lenient t table = some entry) : entry ∈ table := by
  have hfold (es : List (Text × Text)) (best : Option (Text × Text))
      (h : es.foldl (better lenient t) best = some entry) : best = some entry ∨ entry ∈ es := by
    induction es generalizing best with
    | nil => exact .inl h
    | cons e es ih =>
      rcases ih _ h with hbest | hmem
      · unfold better at hbest
        split at hbest
        · cases hbest
          exact .inr List.mem_cons_self
        · exact .inl hbest
      · exact .inr (List.mem_cons_of_mem _ hmem)
  rcases hfold table none h with h | h
  · cases h
  · exact h

theorem phrase_of_match? {lx : Lexicon} {t : Text} {m : Match} (h : match? lx t = some m) :
    m.phrase ∈ lx.phrases ∨ ∃ e ∈ lx.aliases, m.phrase = e.2 := by
  unfold match? at h
  dsimp only at h
  split at h
  · cases h
  · split at h
    · next hl =>
      cases h
      obtain ⟨p, hp, heq⟩ := List.mem_map.1 (mem_of_longest? hl)
      cases heq
      exact .inl hp
    · obtain ⟨e, he, rfl⟩ := Option.map_eq_some_iff.1 h
      exact .inr ⟨e, mem_of_longest? he, rfl⟩

end Phrase

theorem Command.misheard_phrases : ∀ e ∈ misheard, e.2 ∈ phrases := by decide

/-! ## segments -/

namespace Segment

/-- a segment is dictated text, or begins where a trigger was heard -/
theorem exists_of_mem_cut {lx : Lexicon} {offset : Nat} {before : Option Char} {t : Text}
    {s : Segment} (h : s ∈ cut lx offset before t) :
    s.kind = .text ∨ ∃ offset' tail rest, Trigger.Heard lx.triggers (rest.take (tail + 1)) ∧
      s = atTrigger lx offset' tail rest := by
  have hleading {offset skip : Nat} {t : Text} (h : s ∈ leading offset skip t) :
      s.kind = .text := by
    unfold leading at h
    split at h
    · cases h
    · rw [List.mem_singleton.1 h]
  induction offset, before, t using cut.induct lx with
  | case1 offset before t hn =>
    unfold cut at h
    split at h
    · exact .inl (hleading h)
    · next hit hn' => rw [hn] at hn'; cases hn'
  | case2 offset before t hit hn rest seg ih =>
    unfold cut at h
    split at h
    · next hn' => rw [hn] at hn'; cases hn'
    · next hit' hn' =>
      obtain rfl : hit = hit' := by rw [hn] at hn'; cases hn'; rfl
      rcases List.mem_append.1 h with h | h
      · exact .inl (hleading h)
      · rcases List.mem_cons.1 h with h | h
        · exact .inr ⟨_, _, _, Trigger.heard_of_next? hn, h⟩
        · exact ih h

/-- what the kind of a segment says of it -/
def Found (triggers : List Text) (s : Segment) : Prop :=
  match s.kind with
  | .text => True
  | .command heard phrase _ => Trigger.Heard triggers heard ∧ phrase ∈ Command.phrases
  | .trigger => Trigger.Heard triggers s.source

/-- every segment of an utterance is what its kind says -/
theorem found_of_mem {ctx : Context} {t : Text} {s : Segment} (h : s ∈ ofText ctx t) :
    Found ctx.triggers s := by
  rcases exists_of_mem_cut h with hk | ⟨offset, tail, rest, hheard, rfl⟩
  · rw [Found, hk]
    trivial
  · unfold atTrigger
    split
    · next m hm =>
      refine ⟨hheard, ?_⟩
      rcases Phrase.phrase_of_match? hm with hp | ⟨e, he, hp⟩
      · exact hp
      · rw [hp]
        unfold lexicon at he
        dsimp only at he
        split at he
        · exact Command.misheard_phrases e he
        · exact absurd he List.not_mem_nil
    · exact hheard

end Segment
end Dictation
