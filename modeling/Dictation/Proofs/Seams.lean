import Dictation.Proofs.CommandSegments

/-!
# Cutting a text before a trigger

Where a text is cut at a blank or at one of its ends, a scan of the first part hears what a scan of
the whole text hears up to there: no trigger and no phrase begins or ends with a blank, so none is
cut and none is made.  A trigger that was found has such a cut before it.  So the text before it can
be scanned on its own, and so can the text that it begins.

* `Text.EndsSolid`, `Text.Seam`   texts that end with no blank, and where a text may be cut;
* `Trigger.tailAt?_of_append`, `Phrase.match?_of_append`   what is heard before a seam;
* `Segment.cuts_before_seam`   a step of a scan that is over before a seam;
* `Segment.shift`              a segment of a text with more text before it;
* `Segment.ofText_take_drop`   the two parts scanned on their own.
-/

namespace Dictation

/-! ## seams -/

namespace Text

/-- the last character is no blank -/
def EndsSolid (t : Text) : Prop := t.getLast?.any (!isBlank ·) = true

/-- two parts of a text, with a blank or nothing on one side of the cut -/
def Seam (left right : Text) : Prop :=
  left.getLast?.all isBlank = true ∨ right.head?.all isBlank = true

section
variable {s t r : Text}

theorem EndsSolid.append_left (h : EndsSolid t) (s : Text) : EndsSolid (s ++ t) := by
  have hne : t ≠ [] := by
    rintro rfl
    cases h
  rw [EndsSolid, Trigger.getLast?_append_of_ne_nil hne]
  exact h

theorem endsSolid_of_isWord (h : IsWord t) : EndsSolid t := by
  cases hl : t.getLast? with
  | none => exact absurd (List.getLast?_eq_none_iff.1 hl) h.1
  | some c =>
    rw [EndsSolid, hl, Option.any_some, h.2 c (List.mem_of_getLast? hl)]
    rfl

/-- words with single spaces end as the last of them does -/
theorem endsSolid_joinWith {ws : List Text} (hne : ws ≠ []) (h : ∀ w ∈ ws, IsWord w) :
    EndsSolid (joinWith [' '] ws) := by
  induction ws with
  | nil => exact absurd rfl hne
  | cons w ws ih =>
    cases ws with
    | nil => exact endsSolid_of_isWord (h w List.mem_cons_self)
    | cons v ws =>
      rw [joinWith_cons]
      exact (ih (List.cons_ne_nil _ _) fun x hx => h x (List.mem_cons_of_mem _ hx)).append_left _

theorem endsSolid_of_usable (h : Context.Usable t) : EndsSolid t := by
  rw [← h.2]
  exact endsSolid_joinWith h.words_ne_nil fun _ => isWord_of_mem_words

theorem EndsSolid.of_map_caseKey (h : EndsSolid t) (hkeys : s.map caseKey = t.map caseKey) :
    EndsSolid s := by
  have hlast := congrArg List.getLast? hkeys
  rw [List.getLast?_map, List.getLast?_map] at hlast
  rw [EndsSolid] at h ⊢
  cases ht : t.getLast? with
  | none =>
    rw [ht] at h
    cases h
  | some c =>
    obtain ⟨d, hd, hkey⟩ := Option.map_eq_some_iff.1 (hlast.trans (by rw [ht]; rfl))
    rw [ht] at h
    rw [hd, Option.any_some, isBlank_of_caseKey_eq hkey]
    exact h

/-- a spelling ends as its phrase does -/
theorem endsSolid_of_spelling (h : s.lower ∈ Command.phrases) : EndsSolid s := by
  have hphrase := endsSolid_of_usable (Command.phrases_usable _ h)
  rw [← (Command.lowered_of_spelling h).1, EndsSolid, List.getLast?_map] at hphrase
  rw [EndsSolid]
  cases hs : s.getLast? with
  | none =>
    rw [hs] at hphrase
    cases hphrase
  | some c =>
    rw [hs] at hphrase
    simpa [isBlank_lowered] using hphrase

theorem EndsSolid.not_allBlank (h : EndsSolid t) : t.getLast?.all isBlank = false := by
  rw [EndsSolid] at h
  cases ht : t.getLast? with
  | none =>
    rw [ht] at h
    cases h
  | some c =>
    rw [ht] at h
    simpa using h

/-- after a text that ends with no blank, the blank is on the other side -/
theorem Seam.right (h : Seam s r) (hs : EndsSolid s) : r.head?.all isBlank = true := by
  rcases h with h | h
  · rw [hs.not_allBlank] at h
    cases h
  · exact h

/-- a seam is one of the end of the first part -/
theorem Seam.of_append (h : Seam (s ++ t) r) : Seam t r := by
  by_cases ht : t = []
  · rw [ht]
    exact .inl rfl
  · rw [Seam, Trigger.getLast?_append_of_ne_nil ht] at h
    exact h

theorem Seam.of_assoc {x : Text} (h : Seam (x ++ (s ++ t)) r) : Seam ((x ++ s) ++ t) r := by
  rwa [List.append_assoc]

end
end Text

theorem isBoundary_of_all {o : Option Char} (h : o.all isBlank = true) (lenient : Bool) :
    isBoundary lenient o = true := by
  cases o with
  | none => rfl
  | some c => rw [isBoundary_some, show isBlank c = true from h, Bool.true_or]

/-! ## triggers before a seam -/

namespace Trigger

section
variable {lenient : Bool} {triggers : List Text} {u s t r done : Text} {i n : Nat}

theorem endsSolid_of_standsAt (h : StandsAt lenient u t i) (hu : u.EndsSolid)
    (hend : i + u.length = t.length) : t.EndsSolid := by
  have halike := h.alike
  have htake : t.extract i (i + u.length) = t.drop i := by
    rw [List.extract_eq_take_drop, Nat.add_sub_cancel_left]
    refine List.take_of_length_le ?_
    rw [List.length_drop]
    omega
  rw [htake] at halike
  have hdrop := (hu.of_map_caseKey halike).append_left (t.take i)
  rwa [List.take_append_drop] at hdrop

/-- a trigger that stands before a seam stands there in the whole text -/
theorem StandsAt.append (h : StandsAt lenient u t i) (hu : u.EndsSolid) (hseam : t.Seam r) :
    StandsAt lenient u (t ++ r) i := by
  have hle := h.le_length
  refine ⟨h.ne_nil, ?_, ?_, ?_⟩
  · rw [← h.alike, List.extract_eq_take_drop, List.extract_eq_take_drop,
      List.drop_append_of_le_length (by omega), List.take_append_of_le_length]
    rw [List.length_drop]
    omega
  · rw [← h.before]
    unfold before?
    split
    · rfl
    · rw [List.getElem?_append_left (by omega)]
  · rcases Nat.eq_or_lt_of_le hle with hend | hlt
    · have hsolid := endsSolid_of_standsAt h hu hend
      rw [hend, List.getElem?_append_right (Nat.le_refl _), Nat.sub_self, ← List.head?_eq_getElem?]
      exact isBoundary_of_all (hseam.right hsolid) lenient
    · rw [List.getElem?_append_left hlt]
      exact h.after

variable (husable : ∀ u ∈ triggers, Context.Usable u)
include husable

theorem quiet_of_append {j : Nat} (h : Quiet lenient triggers (t ++ r) i j) (hseam : t.Seam r) :
    Quiet lenient triggers t i j := by
  rintro k hi hj ⟨u, hu, hstands⟩
  exact h k hi hj ⟨u, hu, hstands.append (Text.endsSolid_of_usable (husable u hu)) hseam⟩

/-- **The trigger that is heard before a seam is heard without the text behind it.** -/
theorem tailAt?_of_append (h : tailAt? lenient done.getLast? (s ++ r) triggers = some n)
    (hn : n < s.length) (hseam : (done ++ s).Seam r) :
    tailAt? lenient done.getLast? s triggers = some n := by
  obtain ⟨earlier, u, later, rfl, hlen, hstands, hearlier⟩ := exists_of_tailAt? h
  have hne : u ≠ [] := by
    rintro rfl
    cases hlen
  have hu : stands lenient done.getLast? u s = true := stands_of_append (by omega) hstands
  have hnone : ∀ v ∈ earlier, v ≠ [] → stands lenient done.getLast? v s = false := by
    -- an earlier one would stand there in the whole text, too
    intro v hv hvne
    rw [Bool.eq_false_iff]
    intro hvstands
    have hsolid := Text.endsSolid_of_usable (husable v (List.mem_append_left _ hv))
    have hwhole := ((standsAt_append_iff _ _ _ _).2 ⟨hvne, hvstands⟩).append hsolid hseam
    rw [List.append_assoc] at hwhole
    have hnot := hearlier v hv hvne
    rw [((standsAt_append_iff _ _ _ _).1 hwhole).2] at hnot
    cases hnot
  rw [tailAt?_of_first hne hu hnone, hlen, Nat.add_sub_cancel]

end
end Trigger

/-! ## phrases before a seam -/

namespace Phrase

section
variable {ctx : Context} {s r : Text} {m : Match} (hcleanup : ctx.cleanup = false)
include hcleanup

theorem match?_of_append (h : match? (Segment.lexicon ctx) (s ++ r) = some m)
    (hm : m.stop ≤ s.length) : match? (Segment.lexicon ctx) s = some m := by
  obtain ⟨gap, q, rest, hsplit, hgap, hq, hrest, rfl⟩ := exists_of_match? hcleanup h
  dsimp only at hm
  rw [← List.append_assoc] at hsplit
  obtain ⟨rest', rfl⟩ : gap ++ q <+: s := by
    refine List.prefix_of_prefix_length_le ⟨rest, hsplit.symm⟩ (List.prefix_append s r) ?_
    rwa [List.length_append]
  rw [List.append_assoc (gap ++ q)] at hsplit
  obtain rfl := List.append_cancel_left hsplit
  rw [List.append_assoc]
  refine match?_of_spelling hcleanup hgap hq ?_
  cases rest' with
  | nil => rfl
  | cons c b => exact hrest

theorem match?_append (h : match? (Segment.lexicon ctx) s = some m) (hseam : s.Seam r) :
    match? (Segment.lexicon ctx) (s ++ r) = some m ∧ m.stop ≤ s.length := by
  obtain ⟨gap, q, rest, rfl, hgap, hq, hrest, rfl⟩ := exists_of_match? hcleanup h
  refine ⟨?_, by simp only [List.length_append]; omega⟩
  rw [List.append_assoc, List.append_assoc]
  refine match?_of_spelling hcleanup hgap hq ?_
  cases rest with
  | nil =>
    rw [List.append_nil] at hseam
    exact hseam.right ((Text.endsSolid_of_spelling hq).append_left gap)
  | cons c b => exact hrest

end
end Phrase

/-! ## a scan before a seam -/

namespace Segment

section
variable {ctx : Context} (hcleanup : ctx.cleanup = false)
include hcleanup

/-- **The segment of a trigger that is over before a seam is the same without the text behind
it.** -/
theorem atTrigger_of_append {offset n : Nat} {s r : Text} (hn : n < s.length)
    (hle : (atTrigger (lexicon ctx) offset n (s ++ r)).source.length ≤ s.length)
    (hseam : s.Seam r) :
    atTrigger (lexicon ctx) offset n s = atTrigger (lexicon ctx) offset n (s ++ r) := by
  have hdrop : (s ++ r).drop (n + 1) = s.drop (n + 1) ++ r := List.drop_append_of_le_length hn
  have htake {k : Nat} (hk : k ≤ s.length) : (s ++ r).take k = s.take k :=
    List.take_append_of_le_length hk
  have hseam' : Text.Seam (s.drop (n + 1)) r := by
    rw [← List.take_append_drop (n + 1) s] at hseam
    exact hseam.of_append
  unfold atTrigger at hle ⊢
  rw [hdrop] at hle ⊢
  rw [htake hn] at hle ⊢
  cases hm : Phrase.match? (lexicon ctx) (s.drop (n + 1)) with
  | some m =>
    obtain ⟨hwhole, hstop⟩ := Phrase.match?_append hcleanup hm hseam'
    rw [List.length_drop] at hstop
    rw [hwhole]
    dsimp only
    rw [htake (by omega)]
  | none =>
    cases hwhole : Phrase.match? (lexicon ctx) (s.drop (n + 1) ++ r) with
    | none => rfl
    | some m =>
      rw [hwhole] at hle
      obtain ⟨gap, q, rest, hsplit, -, -, -, rfl⟩ := Phrase.exists_of_match? hcleanup hwhole
      have hlen := congrArg List.length hsplit
      simp only [List.length_append, List.length_drop, List.length_take] at hlen hle
      have hpart := Phrase.match?_of_append hcleanup hwhole (by
        rw [List.length_drop]
        dsimp only
        omega)
      rw [hm] at hpart
      cases hpart

variable (husable : ∀ u ∈ ctx.triggers, Context.Usable u) {done gap t r : Text} {n : Nat}
  {s : Segment} {ss : List Segment}
include husable

/-- **A step of a scan that is over before a seam is a step without the text behind it.** -/
theorem cuts_before_seam
    (hquiet : Trigger.Quiet (lexicon ctx).lenient (lexicon ctx).triggers
      (done ++ (gap ++ (s.source ++ (t ++ r)))) done.length (done ++ gap).length)
    (htail : Trigger.tailAt? (lexicon ctx).lenient (done ++ gap).getLast? (s.source ++ (t ++ r))
      (lexicon ctx).triggers = some n)
    (hs : atTrigger (lexicon ctx) (done ++ gap).length n (s.source ++ (t ++ r)) = s)
    (hseam : (done ++ (gap ++ (s.source ++ t))).Seam r)
    (h : Cuts (lexicon ctx) (done ++ (gap ++ s.source)) t ss) :
    Cuts (lexicon ctx) done (gap ++ (s.source ++ t))
      (leading done.length gap.length gap ++ s :: ss) := by
  have hsplit : done ++ (gap ++ (s.source ++ (t ++ r))) =
      (done ++ (gap ++ (s.source ++ t))) ++ r := by simp
  have hn : n < s.source.length := by
    have hlt := Trigger.lt_length_of_tailAt? htail
    have hsource := (take_prefix_source (lexicon ctx) (done ++ gap).length n
      (s.source ++ (t ++ r))).length_le
    rw [hs, List.length_take] at hsource
    omega
  have hpart : n < (s.source ++ t).length := by
    rw [List.length_append]
    omega
  rw [hsplit] at hquiet
  rw [← List.append_assoc] at htail hs
  refine .trigger (Trigger.quiet_of_append husable hquiet hseam)
    (Trigger.tailAt?_of_append husable htail hpart hseam.of_assoc) ?_ h
  rw [atTrigger_of_append hcleanup hpart (by rw [hs, List.length_append]; omega)
    hseam.of_assoc.of_append, hs]

omit hcleanup in
/-- the last step: the gap before a seam -/
theorem cuts_gap_before_seam
    (hquiet : Trigger.Quiet (lexicon ctx).lenient (lexicon ctx).triggers
      (done ++ (gap ++ r)) done.length (done ++ gap).length) (hseam : (done ++ gap).Seam r) :
    Cuts (lexicon ctx) done gap (leading done.length gap.length gap) := by
  rw [← List.append_assoc] at hquiet
  exact .rest (Trigger.quiet_of_append husable hquiet hseam)

end

/-! ## the two parts -/

/-- a segment of a text with so many characters before it -/
def shift (k : Nat) (s : Segment) : Segment := { s with start := s.start + k }

section
variable (lx : Lexicon) (k : Nat)

theorem leading_shift (offset skip : Nat) (t : Text) :
    leading (offset + k) skip t = (leading offset skip t).map (shift k) := by
  unfold leading
  split <;> rfl

theorem atTrigger_shift (offset n : Nat) (t : Text) :
    atTrigger lx (offset + k) n t = shift k (atTrigger lx offset n t) := by
  unfold atTrigger
  split <;> rfl

/-- a scan does not look at the offset that it begins with -/
theorem cut_shift (offset : Nat) (before : Option Char) (t : Text) :
    cut lx (offset + k) before t = (cut lx offset before t).map (shift k) := by
  induction offset, before, t using cut.induct lx with
  | case1 offset before t hn => rw [cut_of_none hn, cut_of_none hn, leading_shift]
  | case2 offset before t hit hn rest s ih =>
    have hcut (offset : Nat) : cut lx offset before t = leading offset hit.skip t ++
        atTrigger lx (offset + hit.skip) hit.tail rest ::
          cut lx (atTrigger lx (offset + hit.skip) hit.tail rest).stop
            (atTrigger lx (offset + hit.skip) hit.tail rest).source.getLast?
            (rest.drop (atTrigger lx (offset + hit.skip) hit.tail rest).source.length) := by
      rw [cut]
      split
      · next hn' => rw [hn] at hn'; cases hn'
      · next hit' hn' =>
        obtain rfl : hit = hit' := by rw [hn] at hn'; cases hn'; rfl
        rfl
    have hstop : (shift k s).stop = s.stop + k := by
      show s.start + k + s.source.length = s.start + s.source.length + k
      omega
    rw [hcut, hcut, Nat.add_right_comm, atTrigger_shift, leading_shift, List.map_append,
      List.map_cons]
    show _ ++ shift k s :: cut lx (shift k s).stop s.source.getLast? (rest.drop s.source.length) = _
    rw [hstop, ih]

/-- nor at the character before, but for the boundary that it makes -/
theorem cut_of_isBoundary {before : Option Char} (h : isBoundary lx.lenient before = true)
    (offset : Nat) (t : Text) : cut lx offset before t = cut lx offset none t := by
  have htail (t : Text) (triggers : List Text) :
      Trigger.tailAt? lx.lenient before t triggers =
        Trigger.tailAt? lx.lenient none t triggers := by
    induction triggers with
    | nil => rfl
    | cons u us ih =>
      cases u with
      | nil => exact ih
      | cons c u =>
        unfold Trigger.tailAt? Trigger.stands
        rw [h, ih]
        rfl
  have hnext : Trigger.next? lx.lenient lx.triggers before t =
      Trigger.next? lx.lenient lx.triggers none t := by
    cases t with
    | nil => rfl
    | cons c t => rw [Trigger.next?, Trigger.next?, htail]
  rw [cut, cut, hnext]

end

section
variable {ctx : Context} {done t : Text} {pre post ss : List Segment} {s : Segment}
  (hcleanup : ctx.cleanup = false) (husable : ∀ u ∈ ctx.triggers, Context.Usable u)
include hcleanup

omit hcleanup in
/-- a trigger that is found has a boundary before it -/
theorem isBoundary_of_cuts (h : Cuts (lexicon ctx) done t (s :: ss)) (hs : s.kind ≠ .text) :
    isBoundary (lexicon ctx).lenient done.getLast? = true := by
  generalize hss : s :: ss = rs at h
  cases h with
  | rest _ =>
    have hmem : s ∈ leading done.length t.length t := by
      rw [← hss]
      exact List.mem_cons_self
    obtain ⟨-, rfl⟩ := mem_leading hmem
    exact absurd rfl hs
  | @trigger _ gap t n r rs _ htail _ _ =>
    by_cases hgap : gap = []
    · have hbefore := (Trigger.isBoundary_of_tailAt? htail).1
      rwa [hgap, List.append_nil] at hbefore
    · rw [leading_of_ne_nil _ hgap, List.singleton_append] at hss
      obtain ⟨rfl, -⟩ := List.cons.inj hss
      exact absurd rfl hs

theorem seam_of_cuts (h : Cuts (lexicon ctx) done t (s :: ss)) (hs : s.kind ≠ .text) :
    done.Seam t := by
  have hbefore := isBoundary_of_cuts h hs
  rw [lenient_lexicon hcleanup, Phrase.isBoundary_strict] at hbefore
  exact .inl hbefore

include husable

/-- **Before a trigger a scan may stop and begin again.** -/
theorem exists_cuts_of_append (h : Cuts (lexicon ctx) done t (pre ++ s :: post))
    (hs : s.kind ≠ .text) :
    ∃ left right, t = left ++ right ∧ s.start = (done ++ left).length ∧
      Cuts (lexicon ctx) done left pre ∧ Cuts (lexicon ctx) (done ++ left) right (s :: post) := by
  have hleading {offset : Nat} {gap : Text} : s ∉ leading offset gap.length gap := by
    intro hmem
    obtain ⟨-, rfl⟩ := mem_leading hmem
    exact hs rfl
  generalize hrs : pre ++ s :: post = rs at h
  induction h generalizing pre with
  | rest _ => exact absurd (by rw [← hrs]; simp) hleading
  | @trigger done gap t n r rs hquiet htail hr hcuts ih =>
    obtain ⟨mid, rfl, hmid⟩ := Text.exists_of_not_mem_left hrs.symm hleading
    cases mid with
    | nil =>
      -- the segment of this very step
      obtain ⟨rfl, rfl⟩ := List.cons.inj hmid
      have hbegin : Cuts (lexicon ctx) (done ++ gap) (r.source ++ t) (r :: rs) := by
        have hnothing : Trigger.Quiet (lexicon ctx).lenient (lexicon ctx).triggers
            (done ++ gap ++ ([] ++ (r.source ++ t))) (done ++ gap).length
            (done ++ gap ++ []).length := by
          rw [List.append_nil (done ++ gap)]
          exact Trigger.quiet_self _ _ _ _
        refine .trigger (n := n) hnothing ?_ ?_ ?_
        · rwa [List.append_nil]
        · rwa [List.append_nil]
        · rwa [List.nil_append, List.append_assoc]
      rw [List.append_nil]
      exact ⟨gap, r.source ++ t, rfl, hr ▸ start_atTrigger _ _ _ _,
        cuts_gap_before_seam husable hquiet (seam_of_cuts hcleanup hbegin hs), hbegin⟩
    | cons x mid =>
      obtain ⟨rfl, rfl⟩ := List.cons.inj hmid
      obtain ⟨left, right, rfl, hleft, hpre, hpost⟩ := ih rfl
      have hassoc : done ++ (gap ++ r.source) ++ left = done ++ (gap ++ (r.source ++ left)) := by
        simp
      rw [hassoc] at hleft hpost
      refine ⟨gap ++ (r.source ++ left), right, by simp, hleft, ?_, hpost⟩
      exact cuts_before_seam hcleanup husable hquiet htail hr (seam_of_cuts hcleanup hpost hs) hpre

end

/-- **A text can be cut before a trigger.**  Without clean-up, where a segment is a command or a
lone trigger, the segments of the text are those of the text before it and those of the text that
begins with it, each scanned on its own. -/
theorem ofText_take_drop (locale : Text) (asked : List Text) (t : Text) {s : Segment}
    (hs : s ∈ ofText (Context.ofOptions locale asked false) t) (hkind : s.kind ≠ .text) :
    let ctx := Context.ofOptions locale asked false
    ofText ctx t =
      ofText ctx (t.take s.start) ++ (ofText ctx (t.drop s.start)).map (shift s.start) := by
  intro ctx
  have husable := (Context.clean_ofOptions locale asked false).usable
  obtain ⟨pre, post, hss⟩ := List.append_of_mem hs
  have hcuts : Cuts (lexicon ctx) [] t (pre ++ s :: post) := hss ▸ cuts_cut (lexicon ctx) [] t
  obtain ⟨left, right, rfl, hstart, hleft, hright⟩ :=
    exists_cuts_of_append rfl husable hcuts hkind
  rw [List.nil_append] at hstart hright
  have hbefore : ofText ctx left = pre := cuts_iff.1 hleft
  have hafter : (ofText ctx right).map (shift left.length) = s :: post := by
    rw [← cuts_iff.1 hright, cut_of_isBoundary _ (isBoundary_of_cuts hright hkind),
      ← Nat.zero_add left.length, cut_shift, Nat.zero_add]
    rfl
  rw [hstart, List.take_left, List.drop_left, hbefore, hafter, hss]

/-- of two triggers that end with one word, the longer one is heard -/
def heyMark : Segment :=
  ⟨4, "hey mark comma".toList, .command "hey mark".toList "comma".toList false⟩

theorem cut_before_hey_mark :
    let ctx := Context.ofOptions "en-GB".toList ["mark".toList, "hey mark".toList] false
    let t := "say hey mark comma mark".toList
    heyMark ∈ ofText ctx t ∧
      ofText ctx t = ofText ctx (t.take 4) ++ (ofText ctx (t.drop 4)).map (shift 4) := by
  have hmem : heyMark ∈ ofText (Context.ofOptions "en-GB".toList
      ["mark".toList, "hey mark".toList] false) "say hey mark comma mark".toList := by
    decide +kernel
  exact ⟨hmem, ofText_take_drop _ _ _ hmem Kind.noConfusion⟩

end Segment
end Dictation
