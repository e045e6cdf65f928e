import Dictation.Proofs.Margins
import Dictation.Proofs.Rebuilding
import Dictation.Proofs.Script

/-!
# Joining the chunks again

The chunks of an utterance, spoken again with single spaces between them, are its chunks.  A space
in place of the blanks between two chunks makes no trigger, and the words that come to stand after
a lone trigger make no phrase with it: those words are text in which no phrase was heard, or begin
with a trigger, and a trigger begins with a letter that no phrase has.

* `Chunk.rejoined`           what is spoken again; `Chunk.after` with the space before it;
* `Trigger.not_occurs_trim`  no trigger is heard in the text of a gap alone;
* `Chunk.match?_after`       a lone trigger stays alone;
* `Chunk.Again`              a trigger heard again, alone or with its phrase;
* `Chunk.exists_cuts_rejoined`   the scan of what is spoken again;
* `Mixed.compile_rejoined`   whole utterances.
-/

namespace Dictation

/-- the default triggers, and no clean-up -/
abbrev Context.usual (locale : Text) : Context := Context.ofOptions locale [] false

/-! ## what is spoken again -/

namespace Chunk

def rejoined (cs : List Chunk) : Text := Text.joinWith [' '] (cs.map source)

/-- the chunks that follow another one, with the space before them -/
def after : List Chunk → Text
  | [] => []
  | c :: cs => ' ' :: rejoined (c :: cs)

theorem rejoined_cons (c : Chunk) (cs : List Chunk) :
    rejoined (c :: cs) = c.source ++ after cs := by
  cases cs with
  | nil => exact (List.append_nil _).symm
  | cons d cs =>
    rw [rejoined, List.map_cons, List.map_cons, Text.joinWith_cons, List.append_assoc]
    rfl

theorem head?_after (cs : List Chunk) : (after cs).head?.all isBlank = true := by
  cases cs with
  | nil => rfl
  | cons c cs => rfl

end Chunk

/-! ## the text of a gap alone -/

namespace Text

section
variable {s t w : Text}

theorem Seam.append_gap (h : Seam s (w ++ t)) (hw : w.allBlank = true) : Seam (s ++ w) t := by
  by_cases hne : w = []
  · rwa [hne, List.append_nil, ← List.nil_append t, ← hne]
  · rw [Seam, Trigger.getLast?_append_of_ne_nil hne]
    exact .inl (getLast?_of_allBlank hw)

theorem Seam.gap_append (h : Seam (s ++ w) t) (hw : w.allBlank = true) : Seam s (w ++ t) := by
  cases w with
  | nil => rwa [List.append_nil] at h
  | cons c w => exact .inr (isBlank_of_mem hw List.mem_cons_self)

theorem Seam.left {c : Char} (h : Seam s (c :: t)) (hc : isBlank c = false) :
    s.getLast?.all isBlank = true := by
  rcases h with h | h
  · exact h
  · rw [List.head?_cons, Option.all_some, hc] at h
    cases h

end
end Text

namespace Trigger

section
variable {lenient : Bool} {triggers : List Text} {u t done gap rest : Text} {i : Nat}

/-- a trigger stands where it stood when there is more text before it -/
theorem StandsAt.prepend (h : StandsAt lenient u t i) {x : Text}
    (hx : x.getLast?.all isBlank = true) : StandsAt lenient u (x ++ t) (x.length + i) := by
  have hle := h.le_length
  obtain ⟨a, b, rfl, rfl⟩ : ∃ a b, t = a ++ b ∧ i = a.length := by
    refine ⟨t.take i, t.drop i, (List.take_append_drop i t).symm, ?_⟩
    rw [List.length_take_of_le (by omega)]
  obtain ⟨hne, hstands⟩ := (standsAt_append_iff _ _ _ _).1 h
  obtain ⟨hbefore, hprefix, hafter⟩ := (stands_iff _ _ _ _).1 hstands
  rw [← List.append_assoc, ← List.length_append, standsAt_append_iff, stands_iff]
  refine ⟨hne, ?_, hprefix, hafter⟩
  by_cases ha : a = []
  · rw [ha, List.append_nil]
    exact isBoundary_of_all hx lenient
  · rwa [getLast?_append_of_ne_nil ha]

/-- **No trigger is heard in the text of a gap alone.** -/
theorem not_occurs_trim (husable : ∀ u ∈ triggers, Context.Usable u)
    (hquiet : Quiet lenient triggers (done ++ (gap ++ rest)) done.length (done ++ gap).length)
    (hbefore : done.Seam (gap ++ rest)) (hafter : gap.Seam rest) (i : Nat) :
    ¬ Occurs lenient triggers gap.trim i := by
  rintro ⟨u, hu, hstands⟩
  obtain ⟨lead, tail, hgap, hlead, htail⟩ := Text.exists_of_trim gap
  have hhead := Text.head?_trim gap
  generalize gap.trim = w at *
  subst hgap
  cases w with
  | nil =>
    have hle := hstands.le_length
    rw [List.length_nil] at hle
    exact hstands.ne_nil (List.length_eq_zero_iff.1 (by omega))
  | cons c w =>
    have hsplit : lead ++ (c :: w ++ tail) ++ rest = lead ++ (c :: w ++ (tail ++ rest)) := by simp
    rw [hsplit] at hbefore hquiet
    have hright : Text.Seam (c :: w) (tail ++ rest) :=
      (Text.Seam.of_append hafter).gap_append htail
    have hleft := (hbefore.append_gap hlead).left hhead
    have hwhole := (hstands.append (Text.endsSolid_of_usable (husable u hu)) hright).prepend hleft
    rw [List.append_assoc] at hwhole
    have hlt := hstands.le_length
    have hpos := List.length_pos_iff.2 hstands.ne_nil
    refine hquiet ((done ++ lead).length + i) ?_ ?_ ⟨u, hu, hwhole⟩
    · rw [List.length_append]
      omega
    · simp only [List.length_append] at hlt ⊢
      omega

end
end Trigger

/-! ## a lone trigger stays alone -/

namespace Command

theorem phrases_without_v :
    (phrases.all fun p => p.all fun c => sharedKey c != caseKey 'v') = true := by decide

/-- no spelling has the letter that a trigger begins with -/
theorem caseKey_of_mem_spelling {q : Text} (hq : q.lower ∈ phrases) {c : Char} (hc : c ∈ q) :
    caseKey c ≠ caseKey 'v' := by
  have hmem : lowered c ∈ q.lower := by
    rw [← (lowered_of_spelling hq).1]
    exact List.mem_map_of_mem hc
  have hkey := List.all_eq_true.1 (List.all_eq_true.1 phrases_without_v _ hq) _ hmem
  rw [caseKey_eq_sharedKey]
  exact bne_iff_ne.1 hkey

end Command

namespace Phrase

section
variable {ctx : Context} (hcleanup : ctx.cleanup = false) {gap t tail r : Text}
include hcleanup

theorem match?_gap_append_eq_none_iff (hgap : gap.allBlank = true) :
    match? (Segment.lexicon ctx) (gap ++ t) = none ↔ match? (Segment.lexicon ctx) t = none := by
  constructor
  · intro h
    cases hm : match? (Segment.lexicon ctx) t with
    | none => rfl
    | some m =>
      obtain ⟨g, q, b, rfl, hg, hq, hb, -⟩ := exists_of_match? hcleanup hm
      have hboth : (gap ++ g).allBlank = true := by
        rw [Text.allBlank_append, hgap, hg]
        rfl
      have hwhole := match?_of_spelling hcleanup hboth hq hb
      rw [List.append_assoc, h] at hwhole
      cases hwhole
  · intro h
    cases hm : match? (Segment.lexicon ctx) (gap ++ t) with
    | none => rfl
    | some m =>
      obtain ⟨g, q, b, hsplit, hg, hq, hb, -⟩ := exists_of_match? hcleanup hm
      -- a spelling begins with a letter, so after all the blanks
      obtain ⟨c, w, hcons, hc⟩ := Command.exists_cons_of_spelling hq
      have hnot : c ∉ gap := by
        intro hmem
        rw [Text.isBlank_of_mem hgap hmem] at hc
        cases hc
      rw [hcons] at hsplit
      obtain ⟨x, rfl, rfl⟩ := Text.exists_of_not_mem_left hsplit hnot
      rw [Text.allBlank_append, Bool.and_eq_true] at hg
      have hpart := match?_of_spelling hcleanup hg.2 hq hb
      rw [hcons] at hpart
      cases hpart.symm.trans h

/-- a trigger after some words completes no phrase with them -/
theorem match?_of_followed (h : match? (Segment.lexicon ctx) t = none)
    (hafter : Followed tail r) : match? (Segment.lexicon ctx) (t ++ (tail ++ r)) = none := by
  cases hm : match? (Segment.lexicon ctx) (t ++ (tail ++ r)) with
  | none => rfl
  | some m =>
    obtain ⟨g, q, b, hsplit, hg, hq, -, rfl⟩ := exists_of_match? hcleanup hm
    have hle : g.length + q.length ≤ t.length := by
      rcases hafter with ⟨rfl, rfl⟩ | ⟨rfl, hr⟩
      · have hlen := congrArg List.length hsplit
        simp only [List.length_append, List.length_nil] at hlen
        omega
      · obtain ⟨v, r', rfl⟩ : ∃ v r', r = v :: r' := by
          cases r with
          | nil => cases hr
          | cons v r' => exact ⟨v, r', rfl⟩
        have hv : caseKey v = caseKey 'v' := Option.some.inj hr
        have hnot : v ∉ g ++ q := by
          intro hmem
          rcases List.mem_append.1 hmem with hmem | hmem
          · have hblank := Text.isBlank_of_mem hg hmem
            rw [isBlank_of_caseKey_eq hv] at hblank
            exact absurd hblank (by decide)
          · exact Command.caseKey_of_mem_spelling hq hmem hv
        have hsplit' : (g ++ q) ++ b = (t ++ [' ']) ++ v :: r' := by
          rw [List.append_assoc, ← hsplit, List.append_assoc]
        obtain ⟨x, hx, -⟩ := Text.exists_of_not_mem_left hsplit' hnot
        have hxne : x ≠ [] := by
          rintro rfl
          have hsolid := (Text.endsSolid_of_spelling hq).append_left g
          rw [← List.append_nil (g ++ q), ← hx, Text.EndsSolid, List.getLast?_concat] at hsolid
          cases hsolid
        have hlen := congrArg List.length hx
        have hpos := List.length_pos_iff.2 hxne
        simp only [List.length_append, List.length_singleton] at hlen
        omega
    rw [match?_of_append hcleanup hm hle] at h
    cases h

end
end Phrase

namespace Chunk

/-- no chunks, or chunks that begin with a trigger -/
def BeginsWithTrigger (cs : List Chunk) : Prop :=
  cs = [] ∨ (rejoined cs).head?.map caseKey = some (caseKey 'v')

theorem BeginsWithTrigger.followed {cs : List Chunk} (h : BeginsWithTrigger cs) :
    ∃ tail r, after cs = tail ++ r ∧ Followed tail r := by
  cases cs with
  | nil => exact ⟨[], [], rfl, .inl ⟨rfl, rfl⟩⟩
  | cons c cs =>
    refine ⟨[' '], rejoined (c :: cs), rfl, .inr ⟨rfl, ?_⟩⟩
    exact h.resolve_left (List.cons_ne_nil c cs)

section
variable {ctx : Context} (hcleanup : ctx.cleanup = false) {gap rest : Text} {cs : List Chunk}
include hcleanup

/-- **Where no phrase was heard in a gap, none is heard in its words again.** -/
theorem match?_after (offset : Nat)
    (h : Phrase.match? (Segment.lexicon ctx) (gap ++ rest) = none) (hafter : gap.Seam rest)
    (hcs : BeginsWithTrigger cs) :
    Phrase.match? (Segment.lexicon ctx)
      (after (ofSegments ctx (Segment.leading offset gap.length gap) ++ cs)) = none := by
  obtain ⟨tail', r, hsplit, hfollowed⟩ := hcs.followed
  have hwords : Phrase.match? (Segment.lexicon ctx) gap.trim = none := by
    obtain ⟨lead, tail, hgap, hlead, htail⟩ := Text.exists_of_trim gap
    generalize gap.trim = w at *
    subst hgap
    rw [List.append_assoc, Phrase.match?_gap_append_eq_none_iff hcleanup hlead,
      List.append_assoc] at h
    cases hm : Phrase.match? (Segment.lexicon ctx) w with
    | none => rfl
    | some m =>
      have hright : w.Seam (tail ++ rest) := (Text.Seam.of_append hafter).gap_append htail
      rw [(Phrase.match?_append hcleanup hm hright).1] at h
      cases h
  have hagain := Phrase.match?_of_followed hcleanup hwords hfollowed
  rw [← hsplit] at hagain
  rw [ofSegments_leading hcleanup]
  split
  · next hnil =>
    rw [List.isEmpty_iff.1 hnil] at hagain
    exact hagain
  · have hspace : after (text gap.trim :: cs) = [' '] ++ (gap.trim ++ after cs) := by
      rw [after, rejoined_cons]
      rfl
    rw [List.singleton_append, hspace, Phrase.match?_gap_append_eq_none_iff hcleanup (by decide)]
    exact hagain

end
end Chunk

/-! ## the scan of what is spoken again -/

namespace Trigger

section
variable {before : Option Char} {heard : Text}
  (hheard : Heard Context.defaultTriggers heard)
include hheard

theorem exists_alike_of_heard : ∃ trigger ∈ Context.defaultTriggers, trigger ≠ [] ∧
    heard.map caseKey = trigger.map caseKey := by
  obtain ⟨earlier, trigger, later, hts, h⟩ := hheard
  refine ⟨trigger, ?_, h.ne_nil, h.alike⟩
  rw [hts]
  simp

theorem length_pos_of_heard : 0 < heard.length := by
  obtain ⟨trigger, -, hne, halike⟩ := exists_alike_of_heard hheard
  have hlen := congrArg List.length halike
  rw [List.length_map, List.length_map] at hlen
  rw [hlen]
  exact List.length_pos_iff.2 hne

theorem head?_of_heard (rest : Text) :
    (heard ++ rest).head?.map caseKey = some (caseKey 'v') := by
  obtain ⟨trigger, hmem, -, halike⟩ := exists_alike_of_heard hheard
  exact Context.head?_of_heard hmem halike rest

/-- a default trigger is heard where it was heard, whatever follows the blank after it -/
theorem tailAt?_of_heard {rest : Text} (hbefore : isBoundary false before = true)
    (hrest : rest.head?.all isBlank = true) :
    tailAt? false before (heard ++ rest) Context.defaultTriggers = some (heard.length - 1) := by
  obtain ⟨trigger, hmem, hne, halike⟩ := exists_alike_of_heard hheard
  obtain ⟨earlier, later, hts, hfirst⟩ := Context.exists_first_of_heard hmem halike before rest
  have hstands := stands_of_alike halike hbefore (isBoundary_of_all hrest false)
  have hlen : trigger.length = heard.length := by
    rw [← List.length_map caseKey, ← halike, List.length_map]
  rw [hts, tailAt?_of_first hne hstands hfirst, hlen]

end
end Trigger

namespace Segment

section
variable {lx : Lexicon} {offset n : Nat} {t : Text}

theorem atTrigger_of_none (h : Phrase.match? lx (t.drop (n + 1)) = none) (offset : Nat) :
    atTrigger lx offset n t = ⟨offset, t.take (n + 1), .trigger⟩ := by
  rw [atTrigger, h]

theorem match?_of_lone (h : (atTrigger lx offset n t).kind = .trigger) :
    Phrase.match? lx (t.drop (n + 1)) = none := by
  unfold atTrigger at h
  split at h
  · cases h
  · assumption

end
end Segment

namespace Chunk
open Segment

section
variable {locale : Text} {done t : Text} {ss : List Segment} {cs : List Chunk}

/-- the segment of a chunk that is spoken again, with `done` behind it and other chunks after it -/
structure Again (ctx : Context) (c : Chunk) (done : Text) (cs : List Chunk) (n : Nat)
    (s : Segment) : Prop where
  source : s.source = c.source
  tail : Trigger.tailAt? false done.getLast? (s.source ++ after cs) Context.defaultTriggers = some n
  atTrigger : atTrigger (lexicon ctx) done.length n (s.source ++ after cs) = s
  chunk : ofSegment ctx s = [c]

section
variable {heard q : Text} (hheard : Trigger.Heard Context.defaultTriggers heard)
  (hdone : isBoundary false done.getLast? = true)
include hheard hdone

theorem again_lone (hnone : Phrase.match? (lexicon (Context.usual locale)) (after cs) = none) :
    Again (Context.usual locale) (.text heard) done cs (heard.length - 1)
      ⟨done.length, heard, .trigger⟩ where
  source := rfl
  tail := Trigger.tailAt?_of_heard hheard hdone (head?_after cs)
  atTrigger := by
    have hlen : heard.length = heard.length - 1 + 1 := by
      have hpos := Trigger.length_pos_of_heard hheard
      omega
    rw [atTrigger_of_none, List.take_left' hlen]
    rwa [List.drop_left' hlen]
  chunk := rfl

/-- a phrase is spoken again in lower case, after one space -/
theorem again_command (hq : q.lower ∈ Command.phrases) :
    Again (Context.usual locale)
      (.command (Inline.spoken heard q.lower)
        (Command.interpret (Context.usual locale) (Inline.spoken heard q.lower)))
      done cs (heard.length - 1)
      ⟨done.length, heard ++ ([' '] ++ q.lower), .command heard q.lower false⟩ := by
  have hcleanup : (Context.usual locale).cleanup = false := rfl
  have hlower := Command.phrases_lower _ hq
  have hne := List.length_pos_iff.1 (Trigger.length_pos_of_heard hheard)
  have hassoc : heard ++ ([' '] ++ q.lower) ++ after cs =
      heard ++ ([' '] ++ (q.lower ++ after cs)) := by simp
  refine ⟨rfl, ?_, ?_, rfl⟩
  · dsimp only
    rw [hassoc]
    exact Trigger.tailAt?_of_heard hheard hdone rfl
  · dsimp only
    rw [hassoc, atTrigger_of_spelling hcleanup hne (by decide) (hlower.symm ▸ hq)
      (head?_after cs), hlower]

end

/-- **A trigger is heard again, alone or with the same phrase.** -/
theorem exists_again {offset n : Nat} {s : Segment}
    (htail : Trigger.tailAt? false done.getLast? (s.source ++ t) Context.defaultTriggers = some n)
    (hs : Segment.atTrigger (lexicon (Context.usual locale)) offset n
      (s.source ++ t) = s) :
    ∃ c, ofSegment (Context.usual locale) s = [c] ∧
      (∀ r, (c.source ++ r).head?.map caseKey = some (caseKey 'v')) ∧
      t.head?.all isBlank = true ∧
      ∀ cs, (Phrase.match? (lexicon (Context.usual locale)) t = none →
          Phrase.match? (lexicon (Context.usual locale)) (after cs) = none) →
        ∀ done, isBoundary false done.getLast? = true →
          ∃ n s', Again (Context.usual locale) c done cs n s' := by
  have hcleanup : (Context.usual locale).cleanup = false := rfl
  have hheard := Trigger.heard_of_tailAt? htail
  have hlt := Trigger.lt_length_of_tailAt? htail
  have hafter := (Trigger.isBoundary_of_tailAt? htail).2
  rcases atTrigger_cases hcleanup htail offset with hat | ⟨heard, gap, q, rest, hsplit, hlen,
    -, hgap, hq, hrest, hat⟩
  · -- a trigger without a phrase
    have hkind : (atTrigger (lexicon (Context.usual locale)) offset n
        (s.source ++ t)).kind = .trigger := by
      rw [hat]
    have hlone := match?_of_lone hkind
    obtain ⟨start, heard, kind⟩ := s
    obtain ⟨-, hsource, rfl⟩ := Segment.mk.inj (hs.symm.trans hat)
    have hlen : heard.length = n + 1 := by
      rw [hsource, List.length_take_of_le hlt]
    rw [← hsource] at hheard
    dsimp only at hlone hafter
    rw [List.drop_left' hlen] at hlone hafter
    refine ⟨.text heard, rfl, Trigger.head?_of_heard hheard, ?_, fun cs hnone done hdone =>
      ⟨_, _, again_lone hheard hdone (hnone hlone)⟩⟩
    rwa [Phrase.isBoundary_strict] at hafter
  · -- a trigger with a phrase
    obtain rfl := hs.symm.trans hat
    dsimp only at hsplit hheard
    obtain rfl : t = rest := by simpa using hsplit
    rw [hsplit, List.take_left' hlen] at hheard
    refine ⟨_, rfl, fun r => ?_, hrest, fun cs _ done hdone =>
      ⟨_, _, again_command hheard hdone hq⟩⟩
    rw [source, Inline.spoken, List.append_assoc]
    exact Trigger.head?_of_heard hheard _

theorem isBlank_of_tailAt? {before : Option Char} {n : Nat}
    (h : Trigger.tailAt? false before t Context.defaultTriggers = some n) :
    before.all isBlank = true := by
  rw [← Phrase.isBoundary_strict]
  exact (Trigger.isBoundary_of_tailAt? h).1

/-- a gap in which no trigger is heard, and the chunk of a trigger that is heard again -/
theorem exists_cuts_again {c : Chunk} {gap : Text} {n : Nat} {s : Segment}
    (hquiet : Trigger.Quiet false Context.defaultTriggers
      (done ++ (gap ++ (c.source ++ after cs))) done.length (done ++ gap).length)
    (hagain : Again (Context.usual locale) c (done ++ gap) cs n s)
    (hnext : ∀ done, ∃ ss, Cuts (lexicon (Context.usual locale)) done (after cs) ss ∧
      ofSegments (Context.usual locale) ss = cs) :
    ∃ ss, Cuts (lexicon (Context.usual locale)) done
        (gap ++ (c.source ++ after cs)) ss ∧
      ofSegments (Context.usual locale) ss =
        (if gap.trim.isEmpty then [] else [.text gap.trim]) ++ c :: cs := by
  obtain ⟨ss, hss, hchunks⟩ := hnext (done ++ (gap ++ s.source))
  rw [← hagain.source] at hquiet ⊢
  refine ⟨leading done.length gap.length gap ++ s :: ss,
    .trigger hquiet hagain.tail hagain.atTrigger hss, ?_⟩
  rw [ofSegments_append, ofSegments_cons, hagain.chunk, hchunks, ofSegments_leading rfl]
  rfl

/-- what follows a lone trigger completes no phrase when it is spoken again -/
theorem match?_after_of_cuts
    (h : Cuts (lexicon (Context.usual locale)) done t ss)
    (hnone : Phrase.match? (lexicon (Context.usual locale)) t = none) :
    Phrase.match? (lexicon (Context.usual locale))
      (after (ofSegments (Context.usual locale) ss)) = none := by
  cases h with
  | rest _ =>
    have hend : t.Seam [] := .inr rfl
    rw [← List.append_nil t] at hnone
    have hafter := match?_after rfl done.length hnone hend (.inl rfl)
    rwa [List.append_nil (ofSegments _ _)] at hafter
  | @trigger _ gap t n s ss _ htail hs _ =>
    obtain ⟨c, hc, hhead, -⟩ := exists_again htail hs
    have hseam : Text.Seam (done ++ gap) (s.source ++ t) := .inl (isBlank_of_tailAt? htail)
    rw [ofSegments_append, ofSegments_cons, hc]
    refine match?_after rfl done.length hnone hseam.of_append (.inr ?_)
    rw [List.singleton_append, rejoined_cons]
    exact hhead _

/-- chunks with the space before them, or none -/
theorem exists_cuts_after
    (h : ∀ done, isBoundary false done.getLast? = true →
      ∃ ss, Cuts (lexicon (Context.usual locale)) done (rejoined cs) ss ∧
        ofSegments (Context.usual locale) ss = cs) (done : Text) :
    ∃ ss, Cuts (lexicon (Context.usual locale)) done (after cs) ss ∧
      ofSegments (Context.usual locale) ss = cs := by
  cases cs with
  | nil =>
    refine ⟨leading done.length 0 [], .rest ?_, rfl⟩
    rw [after, List.append_nil]
    exact Trigger.quiet_self _ _ _ _
  | cons c cs =>
    have hspace : isBoundary false (done ++ [' ']).getLast? = true := by
      rw [List.getLast?_concat]
      decide
    obtain ⟨ss, hss, hchunks⟩ := h _ hspace
    obtain ⟨ss', hss', hchunks'⟩ :=
      exists_cuts_lead rfl Context.defaultTriggers_usable (by decide) hss
    exact ⟨ss', hss', hchunks'.trans hchunks⟩

section
variable {c : Chunk} {w : Text} (hnext : ∀ done, ∃ ss,
  Cuts (lexicon (Context.usual locale)) done (after cs) ss ∧
    ofSegments (Context.usual locale) ss = cs)
include hnext

/-- a trigger is spoken first, and is heard again -/
theorem exists_cuts_chunk (hagain : ∃ n s, Again (Context.usual locale) c done cs n s) :
    ∃ ss, Cuts (lexicon (Context.usual locale)) done (rejoined (c :: cs)) ss ∧
      ofSegments (Context.usual locale) ss = c :: cs := by
  obtain ⟨n, s, hs⟩ := hagain
  have hquiet : Trigger.Quiet false Context.defaultTriggers
      (done ++ ([] ++ (c.source ++ after cs))) done.length (done ++ []).length := by
    rw [List.append_nil done]
    exact Trigger.quiet_self _ _ _ _
  rw [← List.append_nil done] at hs
  have hcuts := exists_cuts_again hquiet hs hnext
  rw [List.nil_append, ← rejoined_cons] at hcuts
  exact hcuts

/-- words are spoken first, with a space after them -/
theorem exists_cuts_words (hnot : ∀ i, ¬ Trigger.Occurs false Context.defaultTriggers w i)
    (hne : ¬ w.isEmpty = true) (htrim : w.trim = w)
    (hhead : (c.source ++ after cs).head?.map caseKey = some (caseKey 'v'))
    (hagain : isBoundary false (done ++ (w ++ [' '])).getLast? = true →
      ∃ n s, Again (Context.usual locale) c (done ++ (w ++ [' '])) cs n s) :
    ∃ ss, Cuts (lexicon (Context.usual locale)) done (rejoined (.text w :: c :: cs)) ss ∧
      ofSegments (Context.usual locale) ss = .text w :: c :: cs := by
  have hspace : isBoundary false (done ++ (w ++ [' '])).getLast? = true := by
    rw [← List.append_assoc, List.getLast?_concat]
    decide
  obtain ⟨n, s, hs⟩ := hagain hspace
  have hquiet : Trigger.Quiet false Context.defaultTriggers
      (done ++ ([] ++ (w ++ [' ']) ++ (c.source ++ after cs))) done.length
      (done ++ ([] ++ (w ++ [' ']))).length :=
    quiet_of_text Text.allBlank_nil (.inr ⟨rfl, hhead⟩) hnot
  rw [List.nil_append] at hquiet
  have hcuts := exists_cuts_again hquiet hs hnext
  have hwords : rejoined (.text w :: c :: cs) = w ++ [' '] ++ (c.source ++ after cs) := by
    rw [rejoined_cons, after, rejoined_cons, List.append_assoc]
    rfl
  rw [Text.trim_append_blank (by decide), htrim, if_neg hne] at hcuts
  rw [hwords]
  exact hcuts

end

/-- **The scan of what is spoken again.** -/
theorem exists_cuts_rejoined (h : Cuts (lexicon (Context.usual locale)) done t ss)
    (hseam : done.Seam t) : ∀ done', isBoundary false done'.getLast? = true →
      ∃ ss', Cuts (lexicon (Context.usual locale)) done'
          (rejoined (ofSegments (Context.usual locale) ss)) ss' ∧
        ofSegments (Context.usual locale) ss' = ofSegments (Context.usual locale) ss := by
  have husable := Context.defaultTriggers_usable
  induction h with
  | @rest done t hquiet =>
    intro done' _
    have hwords : rejoined (if t.trim.isEmpty then [] else [.text t.trim]) = t.trim := by
      split
      · next hnil => exact (List.isEmpty_iff.1 hnil).symm
      · rfl
    have hend : Trigger.Quiet false Context.defaultTriggers (done ++ (t ++ [])) done.length
        (done ++ t).length := by
      rwa [List.append_nil]
    rw [← List.append_nil t] at hseam
    have hnot := Trigger.not_occurs_trim husable hend hseam (.inr rfl)
    have hquiet' : Trigger.Quiet false Context.defaultTriggers
        (done' ++ ([] ++ (t.trim ++ []) ++ [])) done'.length
        (done' ++ ([] ++ (t.trim ++ []))).length :=
      quiet_of_text Text.allBlank_nil (.inl ⟨rfl, rfl⟩) hnot
    rw [List.append_nil, List.append_nil, List.nil_append] at hquiet'
    rw [ofSegments_leading rfl, hwords]
    refine ⟨leading done'.length t.trim.length t.trim, .rest hquiet', ?_⟩
    rw [ofSegments_leading rfl, Text.trim_trim]
  | @trigger done gap t n s ss hquiet htail hs hcuts ih =>
    intro done' hdone'
    obtain ⟨c, hc, hhead, hrest, hagain⟩ := exists_again htail hs
    have hnext := exists_cuts_after (ih (.inr hrest))
    have hlone := hagain _ (match?_after_of_cuts hcuts)
    have hgap : Text.Seam (done ++ gap) (s.source ++ t) := .inl (isBlank_of_tailAt? htail)
    have hnot := Trigger.not_occurs_trim husable hquiet hseam hgap.of_append
    rw [ofSegments_append, ofSegments_cons, hc, ofSegments_leading rfl]
    generalize ofSegments (Context.usual locale) ss = cs at *
    split
    · exact exists_cuts_chunk hnext (hlone done' hdone')
    · next hne =>
      exact exists_cuts_words hnext hnot hne (Text.trim_trim gap) (hhead (after cs)) (hlone _)

end
end Chunk

namespace Mixed

/-- **The chunks of an utterance are a fixed point.**  With the default triggers and without
clean-up, the pieces of an utterance, joined with single spaces, have the same chunks; so the same
operations run at once, the same question is asked, and the same operations wait for it. -/
theorem compile_rejoined (locale : Text) (t : Text) :
    let ctx := Context.ofOptions locale [] false
    compile ctx (Text.joinWith [' '] ((compile ctx t).chunks.map Chunk.source)) =
      compile ctx t := by
  intro ctx
  have husable := (Context.clean_ofOptions locale [] false).usable
  have hseam : Text.Seam [] t := .inl rfl
  obtain ⟨ss, hss, hchunks⟩ := Chunk.exists_cuts_rejoined
    (Segment.cuts_cut (Segment.lexicon ctx) [] t) hseam [] rfl
  have hagain : Chunk.ofText ctx (Chunk.rejoined (Chunk.ofText ctx t)) = Chunk.ofText ctx t := by
    have hscan := Segment.cuts_iff.1 hss
    rw [← hscan] at hchunks
    exact hchunks
  rw [compile_eq_ofText rfl husable, compile_eq_ofText rfl husable]
  show ofChunks ctx (Chunk.ofText ctx (Chunk.rejoined (Chunk.ofText ctx t))) = _
  rw [hagain]

end Mixed
end Dictation
